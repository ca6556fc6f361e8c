import Slate106.KermitFiles

namespace Slate106.Kermit

open CBytes

/-!
# Text mode

In text mode `encode()` makes eight characters printable, and `decode()` takes
them as they come: it undoes that in binary mode only.
-/

variable {ω ω' σ : Type}

/-! ## Characters in text mode -/

/-- The encoder's settings for text without 8th-bit prefixes. -/
structure TextEncoding
    (cfg : Config)
    (p : Params) : Prop where
  text : p.binary = 0
  noEbq : p.ebqflg = 0
  ctlq : cfg.sCtlq = prefixCtrl
  rptq : p.rptq = prefixRepeat

/-- The decoder's settings for text without 8th-bit prefixes. -/
structure TextDecoding
    (p : Params) : Prop where
  text : p.binary = 0
  noParity : p.parity = 0
  ctlq : p.rCtlq = prefixCtrl
  rptq : p.rptq = prefixRepeat

/-- The characters that `encode()` makes printable in text mode. -/
def textControls : List UInt8 :=
  [0, packetStart, 3, 4, 10, packetEnd, 21, 127]

theorem isQuoted_text
    (c : UInt8) :
    isQuoted 0 c = true ↔ c ∈ textControls := by
  simp [isQuoted, textControls, or_assoc]

/-- What is read of a character of text. -/
def textBack
    (c : UInt8) : UInt8 :=
  if c ∈ textControls then ctl c else c

/-- What `encode()` emits for a character of text. -/
inductive TextEncoded
    (c : UInt8) : List UInt8 → Prop where
  | control
      (quoted : c &&& 127 ∈ textControls) :
      TextEncoded c [prefixCtrl, ctl c]
  | prefixed
      (isPrefix : c &&& 127 = prefixCtrl ∨ c &&& 127 = prefixRepeat) :
      TextEncoded c [prefixCtrl, c]
  | plain
      (notQuoted : c &&& 127 ∉ textControls)
      (notCtrl : c &&& 127 ≠ prefixCtrl) :
      TextEncoded c [c]

theorem textEncoded_encodeBytes
    {cfg : Config}
    {p : Params}
    (settings : TextEncoding cfg p)
    (c : UInt8) :
    TextEncoded c (encodeBytes cfg p c) := by
  unfold encodeBytes
  simp only [settings.text, settings.noEbq, settings.ctlq, settings.rptq,
    isQuoted_text, Int.zero_ne_one, ne_eq, not_true_eq_false, false_and,
    if_false, List.nil_append]
  split
  · rename_i quoted
    exact .control quoted
  · rename_i notQuoted
    split
    · rename_i ctrl
      exact .prefixed (.inl ctrl)
    · rename_i notCtrl
      split
      · rename_i repeated
        exact .prefixed (.inr repeated.2)
      · exact .plain notQuoted notCtrl

theorem TextEncoding.packable
    {cfg : Config}
    {p : Params}
    (settings : TextEncoding cfg p) :
    Packable cfg p where
  length c := by
    have encoded := textEncoded_encodeBytes settings c
    generalize encodeBytes cfg p c = bytes at encoded
    cases encoded <;> simp
  nonzero c := by
    have encoded := textEncoded_encodeBytes settings c
    generalize encodeBytes cfg p c = bytes at encoded
    cases encoded with
    | control quoted =>
        -- Only 64 is made zero, and it is not quoted.
        intro member
        simp only [List.mem_cons, List.not_mem_nil, or_false] at member
        have zero := member.resolve_left (by decide)
        have sixtyFour : c = 64 := UInt8.xor_eq_zero_iff.mp zero.symm
        rw [sixtyFour] at quoted
        exact absurd quoted (by decide)
    | prefixed isPrefix =>
        intro member
        simp only [List.mem_cons, List.not_mem_nil, or_false] at member
        have zero := member.resolve_left (by decide)
        rw [← zero] at isPrefix
        exact absurd isPrefix (by decide)
    | plain notQuoted =>
        intro member
        rw [List.mem_singleton] at member
        rw [← member] at notQuoted
        exact absurd notQuoted (by decide)
  rptq _ := by
    rw [settings.rptq]
    decide

/-! ## Reading text back -/

theorem sevenBit_and
    {c : UInt8}
    (sevenBit : c < 128) :
    c &&& 127 = c := by
  apply UInt8.toNat_inj.mp
  have below : c.toNat < 128 := sevenBit
  rw [UInt8.toNat_and]
  exact (Nat.and_two_pow_sub_one_eq_mod c.toNat 7).trans
    (Nat.mod_eq_of_lt below)

/-- The operand of the control prefix stays what it is in text mode. -/
theorem unquote_text
    {p : Params}
    (text : p.binary = 0)
    (a : UInt8) :
    unquote p a = a :=
  if_neg fun quoted => quoted.1 text

theorem readsChar_text
    {cfg : Config}
    {p p' : Params}
    (encoding : TextEncoding cfg p)
    (decoding : TextDecoding p')
    {c : UInt8}
    (sevenBit : c < 128) :
    ReadsChar cfg p p' textBack c := by
  have encoded := textEncoded_encodeBytes encoding c
  have notRepeat : c ≠ prefixRepeat := by
    rintro rfl
    exact absurd sevenBit (by decide)
  constructor
  · intro _ rest shape
    rw [shape, encoding.rptq] at encoded
    generalize shape' : prefixRepeat :: rest = bytes at encoded
    cases encoded with
    | control _ =>
        exact absurd (List.cons.inj shape').1 (by decide)
    | prefixed _ =>
        exact absurd (List.cons.inj shape').1 (by decide)
    | plain _ _ =>
        exact notRepeat (List.cons.inj shape').1.symm
  · intro head tail rest number shape
    have noPrefix : ¬ (p'.parity ≠ 0 ∧ head = p'.ebq) :=
      fun prefixed => prefixed.1 decoding.noParity
    unfold decodePrefixed
    dsimp only
    simp only [if_neg noPrefix, decoding.ctlq, unquote_text decoding.text]
    rw [shape] at encoded
    generalize shape' : head :: tail = bytes at encoded
    cases encoded with
    | control quoted =>
        rw [sevenBit_and sevenBit] at quoted
        simp only [List.cons.injEq] at shape'
        obtain ⟨rfl, rfl⟩ := shape'
        simp [textBack, quoted]
    | prefixed isPrefix =>
        rw [sevenBit_and sevenBit] at isPrefix
        have ctrl := isPrefix.resolve_right notRepeat
        simp only [List.cons.injEq] at shape'
        obtain ⟨rfl, rfl⟩ := shape'
        have notControl : c ∉ textControls := by
          rw [ctrl]
          decide
        simp [textBack, notControl]
    | plain notQuoted notCtrl =>
        rw [sevenBit_and sevenBit] at notQuoted notCtrl
        simp only [List.cons.injEq] at shape'
        obtain ⟨rfl, rfl⟩ := shape'
        simp [textBack, notQuoted, notCtrl]

/-- A text comes back exactly when nothing in it was made printable. -/
theorem map_textBack_iff
    (text : List UInt8) :
    text.map textBack = text ↔ ∀ c ∈ text, c ∉ textControls := by
  have moved (c : UInt8) : ctl c ≠ c := by
    intro same
    have zero : (64 : UInt8) = 0 :=
      (UInt8.xor_right_inj c).mp (same.trans UInt8.xor_zero.symm)
    exact absurd zero (by decide)
  have one (c : UInt8) : textBack c = c ↔ c ∉ textControls := by
    unfold textBack
    split
    · rename_i control
      exact iff_of_false (moved c) (not_not.mpr control)
    · rename_i plain
      exact iff_of_true rfl plain
  induction text with
  | nil =>
      simp
  | cons c text inductionHypothesis =>
      rw [List.map_cons, List.cons.injEq, List.forall_mem_cons]
      exact and_congr (one c) inductionHypothesis

/-! ## Text read by `kreadfile()` -/

/-- What `kreadfile()` makes of the lines of a text. -/
def netText
    (text : List UInt8) : List UInt8 :=
  text.flatMap fun c => if c = 10 then [13, c] else [c]

/-- `getc` on an ordinary file; `unread` is what has not been read of it. -/
def GetsUnread
    (os : Os σ)
    (unread : σ → List UInt8) : Prop :=
  ∀ w,
    (os.getc w).1 = (unread w).head? ∧
    unread (os.getc w).2 = (unread w).tail

/-- What the text mode loop has read, and what it has left. -/
theorem kreadText_netText
    {os : Os σ}
    {unread : σ → List UInt8}
    (gets : GetsUnread os unread)
    (count : Nat)
    (w : σ) :
    netText (unread w) =
      (kreadText os count w).1 ++
        netText (unread (kreadText os count w).2) := by
  -- By the places left in the buffer: a line feed takes two.
  induction count using Nat.strong_induction_on generalizing w with
  | _ count inductionHypothesis =>
    cases count with
    | zero =>
        rw [kreadText, List.nil_append]
    | succ count =>
        obtain ⟨got, rest⟩ := gets w
        unfold kreadText
        generalize os.getc w = answer at got rest
        obtain ⟨char, w'⟩ := answer
        dsimp only at got rest
        cases shape : unread w with
        | nil =>
            rw [shape] at got rest
            subst got
            dsimp only [List.head?_nil]
            rw [rest]
            rfl
        | cons c more =>
            rw [shape] at got rest
            subst got
            dsimp only [List.head?_cons]
            rw [List.tail_cons] at rest
            split
            · rename_i lineFeed
              have later :=
                inductionHypothesis (count - 1) (by omega) w'
              rw [rest] at later
              simp only [netText, List.flatMap_cons, if_pos lineFeed,
                List.cons_append, List.nil_append]
              exact congrArg _ (congrArg _ later)
            · rename_i other
              have later := inductionHypothesis count (by omega) w'
              rw [rest] at later
              simp only [netText, List.flatMap_cons, if_neg other,
                List.cons_append, List.nil_append]
              exact congrArg _ later

/-- The text mode loop reads something while there is something. -/
theorem kreadText_nil_iff
    {os : Os σ}
    {unread : σ → List UInt8}
    (gets : GetsUnread os unread)
    (count : Nat)
    (w : σ) :
    (kreadText os (count + 1) w).1 = [] ↔ unread w = [] := by
  have got := (gets w).1
  unfold kreadText
  generalize os.getc w = answer at got ⊢
  obtain ⟨char, w'⟩ := answer
  dsimp only at got
  subst got
  cases unread w with
  | nil =>
      exact iff_of_true rfl rfl
  | cons c more =>
      refine iff_of_false ?_ (List.cons_ne_nil c more)
      dsimp only [List.head?_cons]
      split
      · exact List.cons_ne_nil _ _
      · exact List.cons_ne_nil _ _

theorem readsIn_netText
    {os : Os σ}
    {unread : σ → List UInt8}
    (gets : GetsUnread os unread) :
    ReadsIn 0 (unixio os) (fun w => netText (unread w.os)) := by
  have empty (w : σ) : netText (unread w) = [] ↔ unread w = [] := by
    cases unread w with
    | nil =>
        exact iff_of_true rfl rfl
    | cons c more =>
        refine iff_of_false ?_ (List.cons_ne_nil c more)
        simp only [netText, List.flatMap_cons]
        split <;> simp
  constructor
  · intro w k buf text drained pointer beyond
    have nothing : (kreadText os (ibufLen - 2) w.os).1 = [] :=
      (kreadText_nil_iff gets 509 w.os).mpr ((empty w.os).mp beyond)
    have whole := kreadText_netText gets (ibufLen - 2) w.os
    rw [nothing, List.nil_append] at whole
    refine ⟨{ w with os := (kreadText os (ibufLen - 2) w.os).2 }, ?_, ?_⟩
    · simp [unixio, kreadfile, pointer, drained, text, nothing]
    · exact whole.symm.trans beyond
  · intro w k buf c more text drained pointer some
    have whole := kreadText_netText gets (ibufLen - 2) w.os
    have nonempty : (kreadText os (ibufLen - 2) w.os).1 ≠ [] := by
      rw [Ne, show ibufLen - 2 = 509 + 1 from rfl,
        kreadText_nil_iff gets 509 w.os, ← empty]
      rw [show netText (unread w.os) = c :: more from some]
      exact List.cons_ne_nil c more
    cases shape : (kreadText os (ibufLen - 2) w.os).1 with
    | nil =>
        exact absurd shape nonempty
    | cons first rest =>
        rw [shape, show netText (unread w.os) = c :: more from some,
          List.cons_append, List.cons.injEq] at whole
        refine ⟨rest, { w with os := (kreadText os (ibufLen - 2) w.os).2 },
          ?_, whole.2⟩
        rw [whole.1]
        simp [unixio, kreadfile, pointer, drained, text, shape]

/-! ## The round trip of a text -/

/--
A text that is put into data fields comes back with its control characters
printable, so it comes back as it was exactly when it has none of them.
-/
theorem text_round_trip_iff
    {io : Io ω}
    {left : ω → List UInt8}
    (reader : ReadsIn 0 io left)
    {s : Sys ω}
    (encoding : TextEncoding s.k.cfg s.k.par)
    (room : inForce s.k + 14 ≤ s.k.par.sMaxlen)
    (small : s.k.par.sMaxlen ≤ pPktlen)
    (noString : s.k.enc.istring = none)
    (first : s.k.enc.sFirst = 1)
    (counted : s.k.enc.sRpt = 0)
    {text : List UInt8}
    (unread : Input left s text)
    (sevenBit : ∀ c ∈ text, c < 128) :
    ∃ count,
      (∀ i, i < count → 0 < (getpkts io s i).1) ∧
      (getpkts io s count).1 = 0 ∧
      (∀ p', TextDecoding p' → p'.rptflg = s.k.par.rptflg →
        (fieldsOf io s count).flatMap (decodeMem p') = text.map textBack ∧
        ((fieldsOf io s count).flatMap (decodeMem p') = text ↔
          ∀ c ∈ text, c ∉ textControls)) ∧
      (∀ (io' : Io ω') (t : Sys ω'),
        Writable io' → TextDecoding t.k.par →
        t.k.par.rptflg = s.k.par.rptflg → RoomInObuf t →
        (storedFile (decodeFields io' t (fieldsOf io s count)) =
            storedFile t ++ text ↔
          ∀ c ∈ text, c ∉ textControls)) := by
  have longest := longestRun_bounds s.k.par
  have packable := encoding.packable
  obtain ⟨fields, whole, said, fieldSame, positive, zero, -, -⟩ :=
    getpkts_first reader encoding.text packable (by omega) small noString
      first counted unread
  have reads {p' : Params}
      (decoding : TextDecoding p')
      (sameFlag : p'.rptflg = s.k.par.rptflg) :
      ∀ runs ∈ fields, ∀ run ∈ runs,
        ReadsRun s.k.cfg s.k.par p' textBack run := by
    intro runs inFields run inRuns
    have saidRun := said runs inFields run inRuns
    have inText : run.char ∈ text := by
      rw [whole]
      refine List.mem_flatMap.mpr ⟨runs, inFields,
        List.mem_flatMap.mpr ⟨run, inRuns, ?_⟩⟩
      exact List.mem_replicate.mpr ⟨by have := saidRun.positive; omega, rfl⟩
    exact (readsChar_text encoding decoding (sevenBit _ inText)).run packable
      sameFlag (fun _ => decoding.rptq.trans encoding.rptq.symm) saidRun
  refine ⟨fields.length, positive, zero, ?_, ?_⟩
  · intro p' decoding sameFlag
    have decoded :
        (fieldsOf io s fields.length).flatMap (decodeMem p') =
          text.map textBack := by
      rw [fieldSame, whole, List.flatMap_map, List.map_flatMap]
      apply List.flatMap_congr
      intro runs member
      exact decodeMem_encodeRuns packable (said runs member)
        (reads decoding sameFlag runs member)
    exact ⟨decoded, by rw [decoded, map_textBack_iff]⟩
  · intro io' t writable decoding sameFlag roomInObuf
    rw [fieldSame,
      decodeFields_encodeRuns writable packable said (reads decoding sameFlag)
        rfl roomInObuf,
      ← whole, List.append_cancel_left_eq, map_textBack_iff]

/-- A server in text mode that has opened a file. -/
def textModeServer
    (file : List UInt8) : Sys (Unix (List UInt8)) :=
  (callOpenf (unixio fileOs) (lit "f") 1 0
    { idleServer fileOs file with
      k.par := { (idleServer fileOs file).k.par with binary := 0 } }).2

/-- Two letters come back. -/
theorem text_round_trip_iff_letters :
    ∃ count,
      (∀ i, i < count →
        0 < (getpkts (unixio fileOs) (textModeServer (lit "hi")) i).1) ∧
      (getpkts (unixio fileOs) (textModeServer (lit "hi")) count).1 = 0 ∧
      (∀ p', TextDecoding p' →
        p'.rptflg = (textModeServer (lit "hi")).k.par.rptflg →
        (fieldsOf (unixio fileOs) (textModeServer (lit "hi")) count).flatMap
            (decodeMem p') = (lit "hi").map textBack ∧
        ((fieldsOf (unixio fileOs) (textModeServer (lit "hi")) count).flatMap
            (decodeMem p') = lit "hi" ↔
          ∀ c ∈ lit "hi", c ∉ textControls)) ∧
      (∀ (io' : Io Unit) (t : Sys Unit),
        Writable io' → TextDecoding t.k.par →
        t.k.par.rptflg = (textModeServer (lit "hi")).k.par.rptflg →
        RoomInObuf t →
        (storedFile (decodeFields io' t
            (fieldsOf (unixio fileOs) (textModeServer (lit "hi")) count)) =
            storedFile t ++ lit "hi" ↔
          ∀ c ∈ lit "hi", c ∉ textControls)) :=
  have gets : GetsUnread fileOs (fun file => file) := fun _ => ⟨rfl, rfl⟩
  text_round_trip_iff (readsIn_netText gets)
    ⟨by decide, by decide, by decide, by decide⟩ (by decide) (by decide)
    (by decide) (by decide) (by decide) ⟨[], by decide, by decide⟩
    (by decide +kernel)

/-- A carriage return becomes a letter. -/
theorem carriage_return_becomes_letter :
    let s := textModeServer [0x0D]
    s.k.par.binary = 0 ∧ s.k.par.ebqflg = 0 ∧ s.k.par.parity = 0 ∧
      s.k.cfg.sCtlq = prefixCtrl ∧ s.k.par.rCtlq = prefixCtrl ∧
      s.k.par.rptq = prefixRepeat ∧ s.k.par.rptflg = 0 ∧
      fieldsOf (unixio fileOs) s 1 = [lit "#M"] ∧
      (getpkts (unixio fileOs) s 1).1 = 0 ∧
      (fieldsOf (unixio fileOs) s 1).flatMap (decodeMem s.k.par) = lit "M" ∧
      lit "M" ≠ [0x0D] := by
  decide +kernel

end Slate106.Kermit
