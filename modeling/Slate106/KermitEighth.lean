import Slate106.KermitFiles

namespace Slate106.Kermit

open CBytes

/-!
# 8th-bit prefixes

With 8th-bit prefixes in force `encode()` writes the prefix and then the
character with all its eight bits.  A line seen with seven bits takes some of
these characters for a NUL, a start or a terminator, and `decode()` takes one
of them for a control prefix.
-/

variable {ω : Type}

/-! ## Characters with an 8th-bit prefix -/

/-- The 8th-bit prefix `'&'`. -/
abbrev prefixEighth : UInt8 := 0x26

/-- The encoder's settings for binary data with 8th-bit prefixes. -/
structure EighthEncoding
    (cfg : Config)
    (p : Params) : Prop where
  binary : p.binary = 1
  ebqflg : p.ebqflg = 1
  ebq : p.ebq = prefixEighth
  ctlq : cfg.sCtlq = prefixCtrl
  noRepeat : p.rptflg = 0

/-- The decoder's settings that fit those of the encoder. -/
structure EighthDecoding
    (p : Params) : Prop where
  binary : p.binary = 1
  parity : p.parity ≠ 0
  ebq : p.ebq = prefixEighth
  ctlq : p.rCtlq = prefixCtrl
  noRepeat : p.rptflg = 0

/-- What `encode()` emits for a character. -/
inductive EighthEncoded
    (c : UInt8) : List UInt8 → Prop where
  | high
      (eighth : 128 ≤ c) :
      EighthEncoded c [prefixEighth, c]
  | control
      (quoted : c = 0 ∨ c = packetStart ∨ c = packetEnd) :
      EighthEncoded c [prefixCtrl, ctl c]
  | prefixed
      (isPrefix : c = prefixCtrl ∨ c = prefixEighth) :
      EighthEncoded c [prefixCtrl, c]
  | plain
      (low : c < 128)
      (notQuoted : ¬ (c = 0 ∨ c = packetStart ∨ c = packetEnd))
      (notCtrl : c ≠ prefixCtrl)
      (notEighth : c ≠ prefixEighth) :
      EighthEncoded c [c]

theorem isQuoted_binary
    (c : UInt8) :
    isQuoted 1 c = true ↔ c = 0 ∨ c = packetStart ∨ c = packetEnd := by
  simp [isQuoted, or_assoc]

theorem and_128_eq_zero_iff
    (c : UInt8) :
    c &&& 128 = 0 ↔ c < 128 := by
  revert c
  apply forall_byte
  decide +kernel

theorem eighthEncoded_encodeBytes
    {cfg : Config}
    {p : Params}
    (settings : EighthEncoding cfg p)
    (c : UInt8) :
    EighthEncoded c (encodeBytes cfg p c) := by
  have one : (1 : Int) ≠ 0 := by decide
  unfold encodeBytes
  simp only [settings.binary, settings.ebqflg, settings.ebq, settings.ctlq,
    settings.noRepeat, isQuoted_binary, and_128_eq_zero_iff, ne_eq, one,
    not_false_eq_true, true_and, if_true, not_true_eq_false, false_and,
    if_false, ite_self, UInt8.not_lt]
  by_cases eighth : 128 ≤ c
  · have plain :
        ¬ (c = 0 ∨ c = packetStart ∨ c = packetEnd) ∧ c ≠ prefixCtrl ∧
          c ≠ prefixEighth := by
      refine ⟨?_, ?_, ?_⟩
      · rintro (rfl | rfl | rfl)
        · exact absurd eighth (by decide)
        · exact absurd eighth (by decide)
        · exact absurd eighth (by decide)
      · rintro rfl
        exact absurd eighth (by decide)
      · rintro rfl
        exact absurd eighth (by decide)
    rw [if_pos eighth, if_neg plain.1, if_neg plain.2.1, if_neg plain.2.2]
    exact .high eighth
  · rw [if_neg eighth, List.nil_append]
    split
    · rename_i quoted
      exact .control quoted
    · rename_i notQuoted
      split
      · rename_i ctrl
        exact .prefixed (.inl ctrl)
      · rename_i notCtrl
        split
        · rename_i prefixed
          exact .prefixed (.inr prefixed)
        · rename_i notEighth
          exact .plain (UInt8.not_le.mp eighth) notQuoted notCtrl notEighth

/-- A character with its eighth bit set takes the prefix and itself. -/
theorem encodeBytes_high
    {cfg : Config}
    {p : Params}
    (settings : EighthEncoding cfg p)
    {c : UInt8}
    (eighth : 128 ≤ c) :
    encodeBytes cfg p c = [prefixEighth, c] := by
  have encoded := eighthEncoded_encodeBytes settings c
  generalize encodeBytes cfg p c = bytes at encoded
  cases encoded with
  | high _ =>
      rfl
  | control quoted =>
      rcases quoted with rfl | rfl | rfl
      · exact absurd eighth (by decide)
      · exact absurd eighth (by decide)
      · exact absurd eighth (by decide)
  | prefixed isPrefix =>
      rcases isPrefix with rfl | rfl
      · exact absurd eighth (by decide)
      · exact absurd eighth (by decide)
  | plain low =>
      exact absurd low (UInt8.not_lt.mpr eighth)

theorem EighthEncoding.packable
    {cfg : Config}
    {p : Params}
    (settings : EighthEncoding cfg p) :
    Packable cfg p where
  length c := by
    have encoded := eighthEncoded_encodeBytes settings c
    generalize encodeBytes cfg p c = bytes at encoded
    cases encoded <;> simp
  nonzero c := by
    have encoded := eighthEncoded_encodeBytes settings c
    generalize encodeBytes cfg p c = bytes at encoded
    cases encoded with
    | high eighth =>
        intro member
        simp only [List.mem_cons, List.not_mem_nil, or_false] at member
        have zero := member.resolve_left (by decide)
        rw [← zero] at eighth
        exact absurd eighth (by decide)
    | control quoted =>
        rcases quoted with rfl | rfl | rfl
        · decide
        · decide
        · decide
    | prefixed isPrefix =>
        rcases isPrefix with rfl | rfl
        · decide
        · decide
    | plain _ notQuoted =>
        intro member
        rw [List.mem_singleton] at member
        exact notQuoted (.inl member.symm)
  rptq flag := absurd settings.noRepeat flag

/-! ## A line of seven bits -/

/-- The bytes of a packet that mean something to the link. -/
def linkBytes : List UInt8 :=
  [0, packetStart, packetEnd]

/-- The characters whose low seven bits mean something to the link. -/
def maskedLinkBytes : List UInt8 :=
  [0x80, 0x93, 0x8D]

/-- The control prefix with its eighth bit set. -/
def maskedCtrl : UInt8 := 0xA3

theorem masked_link_iff
    {c : UInt8}
    (eighth : 128 ≤ c) :
    c &&& 0x7F ∈ linkBytes ↔ c ∈ maskedLinkBytes := by
  revert c
  apply forall_byte
  decide +kernel

/-- What is emitted for a character is seen as data on seven bits. -/
theorem EighthEncoded.masked_iff
    {c : UInt8}
    {bytes : List UInt8}
    (encoded : EighthEncoded c bytes) :
    (∀ byte ∈ bytes, byte &&& 0x7F ∉ linkBytes) ↔ c ∉ maskedLinkBytes := by
  cases encoded with
  | high eighth =>
      have ebq : prefixEighth &&& 0x7F ∉ linkBytes := by decide
      simp only [List.forall_mem_cons, masked_link_iff eighth, ebq,
        not_false_eq_true, true_and, List.not_mem_nil, false_implies,
        implies_true, and_true]
  | control quoted =>
      rcases quoted with rfl | rfl | rfl
      · decide +kernel
      · decide +kernel
      · decide +kernel
  | prefixed isPrefix =>
      rcases isPrefix with rfl | rfl
      · decide +kernel
      · decide +kernel
  | plain low notQuoted =>
      have plain : c &&& 0x7F ∉ linkBytes ∧ c ∉ maskedLinkBytes := by
        revert c
        apply forall_byte
        decide +kernel
      simp only [List.forall_mem_singleton]
      exact iff_of_true plain.1 plain.2

/-! ## Reading characters back -/

/-- The field of some characters without repeat counts. -/
def encodeAll
    (cfg : Config)
    (p : Params)
    (text : List UInt8) : List UInt8 :=
  text.flatMap (encodeBytes cfg p)

@[simp] theorem encodeAll_nil
    (cfg : Config)
    (p : Params) :
    encodeAll cfg p [] = [] :=
  rfl

@[simp] theorem encodeAll_cons
    (cfg : Config)
    (p : Params)
    (c : UInt8)
    (text : List UInt8) :
    encodeAll cfg p (c :: text) = encodeBytes cfg p c ++ encodeAll cfg p text :=
  rfl

theorem length_le_encodeAll
    {cfg : Config}
    {p : Params}
    (packable : Packable cfg p)
    (text : List UInt8) :
    text.length ≤ (encodeAll cfg p text).length := by
  induction text with
  | nil =>
      exact Nat.zero_le _
  | cons c text inductionHypothesis =>
      have some := (packable.length c).1
      rw [encodeAll_cons, List.length_append, List.length_cons]
      omega

/-- A turn of the decoder without repeat counts. -/
theorem decodeNext_eighth
    {p : Params}
    (decoding : EighthDecoding p)
    (a : UInt8)
    (inbuf : List UInt8) :
    decodeNext p 0 a inbuf =
      decodePrefixed p { char := a, rpt := 0, rest := inbuf } := by
  have noRepeat : ¬ (p.rptflg ≠ 0 ∧ a = p.rptq) :=
    fun repeated => repeated.1 decoding.noRepeat
  rw [decodeNext_eq, decodeRpt, if_neg noRepeat]

/-- A character that is no prefix is read as it is. -/
theorem decodePrefixed_plain
    {p : Params}
    (decoding : EighthDecoding p)
    {a : UInt8}
    (notEighth : a ≠ prefixEighth)
    (notCtrl : a ≠ prefixCtrl)
    (rest : List UInt8) :
    decodePrefixed p { char := a, rpt := 0, rest := rest } =
      { char := a, rpt := 1, rest := rest } := by
  simp [decodePrefixed, decoding.ebq, decoding.ctlq, notEighth, notCtrl]

/-- A control prefix takes the byte behind it. -/
theorem decodePrefixed_control
    {p : Params}
    (decoding : EighthDecoding p)
    (rest : List UInt8) :
    decodePrefixed p { char := prefixCtrl, rpt := 0, rest := rest } =
      { char := unquote p (peek rest 0), rpt := 1, rest := rest.drop 1 } := by
  have notEighth : prefixCtrl ≠ prefixEighth := by decide
  simp [decodePrefixed, decoding.ebq, decoding.ctlq, notEighth]

/-- An 8th-bit prefix takes the low seven bits of the byte behind it. -/
theorem decodePrefixed_eighth
    {p : Params}
    (decoding : EighthDecoding p)
    {c : UInt8}
    (eighth : 128 ≤ c)
    (notCtrl : c ≠ maskedCtrl)
    (rest : List UInt8) :
    decodePrefixed p { char := prefixEighth, rpt := 0, rest := c :: rest } =
      { char := c, rpt := 1, rest := rest } := by
  have facts :
      c &&& 0x7F ≠ prefixCtrl ∧ c &&& 0x7F ||| 128 = c := by
    revert c
    apply forall_byte
    decide +kernel
  simp [decodePrefixed, decoding.ebq, decoding.ctlq, decoding.parity,
    facts.1, facts.2]

/-- Behind the prefix `0xA3` is taken for a control prefix. -/
theorem decodePrefixed_maskedCtrl
    {p : Params}
    (decoding : EighthDecoding p)
    (rest : List UInt8) :
    decodePrefixed p { char := prefixEighth, rpt := 0, rest := maskedCtrl :: rest } =
      { char := unquote p (peek rest 0) ||| 128, rpt := 1
        rest := rest.drop 1 } := by
  have masked : maskedCtrl &&& 0x7F = prefixCtrl := by decide
  simp [decodePrefixed, decoding.ebq, decoding.ctlq, decoding.parity, masked]

/-- Behind an 8th-bit prefix a character has its eighth bit set. -/
theorem decodePrefixed_high
    {p : Params}
    (decoding : EighthDecoding p)
    (rest : List UInt8) :
    ∃ x later,
      decodePrefixed p { char := prefixEighth, rpt := 0, rest := rest } =
        { char := x ||| 128, rpt := 1, rest := later } := by
  have masked : p.parity ≠ 0 ∧ prefixEighth = p.ebq :=
    ⟨decoding.parity, decoding.ebq.symm⟩
  unfold decodePrefixed
  dsimp only
  rw [if_pos masked, if_pos masked]
  dsimp only
  split
  · exact ⟨_, _, rfl⟩
  · exact ⟨_, _, rfl⟩

theorem or_128_ne
    (x : UInt8) :
    x ||| 128 ≠ prefixEighth := by
  revert x
  apply forall_byte
  decide +kernel

theorem unquote_control
    {p : Params}
    (binary : p.binary = 1)
    {c : UInt8}
    (quoted : c = 0 ∨ c = packetStart ∨ c = packetEnd) :
    unquote p (ctl c) = c := by
  unfold unquote
  rw [binary]
  rcases quoted with rfl | rfl | rfl
  · decide
  · decide
  · decide

/-- Only the control prefix itself is read as one behind a control prefix. -/
theorem unquote_prefixCtrl
    {p : Params}
    (binary : p.binary = 1)
    (x : UInt8) :
    unquote p x = prefixCtrl → x = prefixCtrl := by
  unfold unquote
  rw [binary]
  revert x
  apply forall_byte
  decide +kernel

/-- The same for the control prefix with its eighth bit set. -/
theorem unquote_maskedCtrl
    {p : Params}
    (binary : p.binary = 1)
    {x : UInt8}
    (low : x < 128) :
    unquote p x ||| 128 = maskedCtrl → x = prefixCtrl := by
  unfold unquote
  rw [binary]
  revert x
  apply forall_byte
  decide +kernel

theorem unquote_prefix
    {p : Params}
    (binary : p.binary = 1)
    {c : UInt8}
    (isPrefix : c = prefixCtrl ∨ c = prefixEighth) :
    unquote p c = c := by
  unfold unquote
  rw [binary]
  rcases isPrefix with rfl | rfl
  · decide
  · decide

/-- A turn that reads one character. -/
theorem decodeMemLoop_turn
    {p : Params}
    (decoding : EighthDecoding p)
    {a c : UInt8}
    {rest later : List UInt8}
    (nonzero : a ≠ 0)
    (read :
      decodePrefixed p { char := a, rpt := 0, rest := rest } =
        { char := c, rpt := 1, rest := later })
    (turns : Nat) :
    decodeMemLoop p (turns + 1) (a :: rest) =
      c :: decodeMemLoop p turns later := by
  rw [decodeMemLoop, peek_cons_zero, if_neg nonzero, List.drop_succ_cons,
    List.drop_zero, decodeNext_eighth decoding, read]
  rfl

/-- A turn over a character that is read as it is. -/
theorem decodeMemLoop_encoded
    {p : Params}
    (decoding : EighthDecoding p)
    {c : UInt8}
    {bytes : List UInt8}
    (encoded : EighthEncoded c bytes)
    (notCtrl : c ≠ maskedCtrl)
    (turns : Nat)
    (rest : List UInt8) :
    decodeMemLoop p (turns + 1) (bytes ++ rest) =
      c :: decodeMemLoop p turns rest := by
  have ctrlNonzero : prefixCtrl ≠ 0 := by decide
  cases encoded with
  | high eighth =>
      have nonzero : prefixEighth ≠ 0 := by decide
      exact decodeMemLoop_turn decoding nonzero
        (decodePrefixed_eighth decoding eighth notCtrl rest) turns
  | control quoted =>
      have read := decodePrefixed_control decoding (ctl c :: rest)
      rw [peek_cons_zero, unquote_control decoding.binary quoted] at read
      exact decodeMemLoop_turn decoding ctrlNonzero read turns
  | prefixed isPrefix =>
      have read := decodePrefixed_control decoding (c :: rest)
      rw [peek_cons_zero, unquote_prefix decoding.binary isPrefix] at read
      exact decodeMemLoop_turn decoding ctrlNonzero read turns
  | plain low notQuoted notCtrl notEighth =>
      have nonzero : c ≠ 0 := fun zero => notQuoted (.inl zero)
      exact decodeMemLoop_turn decoding nonzero
        (decodePrefixed_plain decoding notEighth notCtrl rest) turns

/-! ## A decoder that has slipped by one byte -/

/-- The byte behind the control prefix of a character. -/
def Operates
    (c y : UInt8) : Prop :=
  ((c = 0 ∨ c = packetStart ∨ c = packetEnd) ∧ y = ctl c) ∨
    ((c = prefixCtrl ∨ c = prefixEighth) ∧ y = c)

/-- What stands first in a field. -/
theorem peek_encodeAll
    {cfg : Config}
    {q : Params}
    (encoding : EighthEncoding cfg q)
    (text : List UInt8) :
    peek (encodeAll cfg q text) 0 < 128 ∧
      (peek (encodeAll cfg q text) 0 = prefixCtrl →
        ∃ c more y,
          text = c :: more ∧
          (encodeAll cfg q text).drop 1 = y :: encodeAll cfg q more ∧
          Operates c y) := by
  have ctrlLow : prefixCtrl < 128 := by decide
  have eighthLow : prefixEighth < 128 ∧ prefixEighth ≠ prefixCtrl := by decide
  cases text with
  | nil =>
      have zeroLow : (0 : UInt8) < 128 ∧ 0 ≠ prefixCtrl := by decide
      exact ⟨zeroLow.1, fun ctrl => absurd ctrl zeroLow.2⟩
  | cons c more =>
      have encoded := eighthEncoded_encodeBytes encoding c
      rw [encodeAll_cons]
      generalize encodeBytes cfg q c = bytes at encoded
      cases encoded with
      | high eighth =>
          exact ⟨eighthLow.1, fun ctrl => absurd ctrl eighthLow.2⟩
      | control quoted =>
          exact ⟨ctrlLow,
            fun _ => ⟨c, more, ctl c, rfl, rfl, .inl ⟨quoted, rfl⟩⟩⟩
      | prefixed isPrefix =>
          exact ⟨ctrlLow,
            fun _ => ⟨c, more, c, rfl, rfl, .inr ⟨isPrefix, rfl⟩⟩⟩
      | plain low notQuoted notCtrl =>
          exact ⟨low, fun ctrl => absurd ctrl notCtrl⟩

/-- A decoder that starts behind a control prefix never finds back. -/
theorem decodeMemLoop_slipped
    {cfg : Config}
    {p q : Params}
    (encoding : EighthEncoding cfg q)
    (decoding : EighthDecoding p)
    {turns : Nat}
    {c y : UInt8}
    {more : List UInt8}
    (operates : Operates c y) :
    decodeMemLoop p turns (y :: encodeAll cfg q more) ≠ c :: more := by
  -- One control prefix after the other takes the next one for its operand.
  induction turns generalizing c y more with
  | zero =>
      exact (List.cons_ne_nil c more).symm
  | succ turns inductionHypothesis =>
      rcases operates with ⟨quoted, rfl⟩ | ⟨rfl | rfl, rfl⟩
      · have facts :
            ctl c ≠ 0 ∧ ctl c ≠ prefixEighth ∧ ctl c ≠ prefixCtrl ∧
              ctl c ≠ c := by
          rcases quoted with rfl | rfl | rfl
          · decide
          · decide
          · decide
        rw [decodeMemLoop_turn decoding facts.1
          (decodePrefixed_plain decoding facts.2.1 facts.2.2.1 _)]
        exact fun same => facts.2.2.2 (List.cons.inj same).1
      · have nonzero : prefixCtrl ≠ 0 := by decide
        rw [decodeMemLoop_turn decoding nonzero
          (decodePrefixed_control decoding _)]
        intro same
        obtain ⟨head, tail⟩ := List.cons.inj same
        obtain ⟨c', more', y', rfl, rest, operates⟩ :=
          (peek_encodeAll encoding more).2
            (unquote_prefixCtrl decoding.binary _ head)
        rw [rest] at tail
        exact inductionHypothesis operates tail
      · have nonzero : prefixEighth ≠ 0 := by decide
        obtain ⟨x, later, read⟩ :=
          decodePrefixed_high decoding (encodeAll cfg q more)
        rw [decodeMemLoop_turn decoding nonzero read]
        intro same
        exact or_128_ne x (List.cons.inj same).1

/-- A field comes back unless the masked control prefix is in it. -/
theorem decodeMemLoop_encodeAll_iff
    {cfg : Config}
    {p q : Params}
    (encoding : EighthEncoding cfg q)
    (decoding : EighthDecoding p)
    {turns : Nat}
    {text : List UInt8}
    (enough : text.length < turns) :
    decodeMemLoop p turns (encodeAll cfg q text) = text ↔
      maskedCtrl ∉ text := by
  induction text generalizing turns with
  | nil =>
      refine iff_of_true ?_ List.not_mem_nil
      cases turns <;> rfl
  | cons c more inductionHypothesis =>
      cases turns with
      | zero =>
          exact absurd enough (Nat.not_lt_zero _)
      | succ turns =>
          have encoded := eighthEncoded_encodeBytes encoding c
          rw [encodeAll_cons, List.mem_cons, not_or]
          by_cases masked : c = maskedCtrl
          · refine iff_of_false ?_ fun none => none.1 masked.symm
            subst masked
            have nonzero : prefixEighth ≠ 0 := by decide
            rw [encodeBytes_high encoding (by decide), List.cons_append, List.cons_append, List.nil_append,
              decodeMemLoop_turn decoding nonzero
                (decodePrefixed_maskedCtrl decoding _)]
            intro same
            obtain ⟨head, tail⟩ := List.cons.inj same
            obtain ⟨low, slips⟩ := peek_encodeAll encoding more
            obtain ⟨c', more', y', rfl, rest, operates⟩ :=
              slips (unquote_maskedCtrl decoding.binary low head)
            rw [rest] at tail
            exact decodeMemLoop_slipped encoding decoding operates tail
          · rw [decodeMemLoop_encoded decoding encoded masked,
              List.cons.injEq,
              inductionHypothesis (Nat.lt_of_succ_lt_succ enough)]
            exact and_congr_left' (iff_of_true rfl (Ne.symm masked))

/-! ## Fields without repeat counts -/

theorem encodeRuns_eq_encodeAll
    {cfg : Config}
    {p : Params}
    (noRepeat : p.rptflg = 0)
    {runs : List CharRun}
    (said : ∀ run ∈ runs, run.Said p.rptflg) :
    encodeRuns cfg p runs = encodeAll cfg p (expand runs) := by
  induction runs with
  | nil =>
      rfl
  | cons run runs inductionHypothesis =>
      obtain ⟨char, count⟩ := run
      have once : count = 1 :=
        (said _ (List.mem_cons_self ..)).resolve_right
          fun repeated => repeated.1 noRepeat
      subst once
      rw [encodeRuns_cons, expand_cons, encodeRun_once,
        inductionHypothesis
          (fun run member => said run (List.mem_cons_of_mem _ member))]
      rfl

/-- Between two calls of `getpkt()` with a limit of at most one byte. -/
structure Narrow
    (left : ω → List UInt8)
    (rest : List UInt8)
    (s : Sys ω) : Prop where
  packable : Packable s.k.cfg s.k.par
  noRepeat : s.k.par.rptflg = 0
  narrow : getpktMaxlen s.k.par ≤ 1
  inForce : s.k.cfg.bcta3 = 0 ∨ s.k.par.bct = 3
  noString : s.k.enc.istring = none
  nothing : s.k.enc.sFirst ≠ 1 → s.k.enc.sRemain = []
  waiting : Waiting left s rest

/-- A field of one byte. -/
structure OneByte
    (left : ω → List UInt8)
    (c : UInt8)
    (rest : List UInt8)
    (s : Sys ω)
    (result : Int × Sys ω) : Prop where
  short : (encodeBytes s.k.cfg s.k.par c).length = 1
  length : result.1 = 1
  memory : ∃ tail, xdataMem result.2.k = encodeBytes s.k.cfg s.k.par c ++ tail
  packs : Packs s result.2
  begun : result.2.k.enc.sFirst ≠ 1
  nothing : result.2.k.enc.sRemain = []
  waiting : Waiting left result.2 rest

theorem OneByte.after
    {left : ω → List UInt8}
    {c : UInt8}
    {rest : List UInt8}
    {s s' : Sys ω}
    {result : Int × Sys ω}
    (first : Packs s s')
    (one : OneByte left c rest s' result) :
    OneByte left c rest s result := by
  obtain ⟨cfg, par⟩ := first.settings
  obtain ⟨short, length, memory, packs, begun, nothing, waiting⟩ := one
  rw [cfg, par] at short memory
  exact ⟨short, length, memory, first.trans packs, begun, nothing, waiting⟩

/-- The loop of `getpkt()` with a limit of at most one byte. -/
theorem getpktLoop_narrow
    {mode : Int}
    {io : Io ω}
    {left : ω → List UInt8}
    (reader : ReadsIn mode io left)
    (turns : Nat)
    (c : UInt8)
    {input tail : List UInt8}
    {s : Sys ω}
    (inMode : s.k.par.binary = mode)
    (packable : Packable s.k.cfg s.k.par)
    (noRepeat : s.k.par.rptflg = 0)
    (narrow : getpktMaxlen s.k.par ≤ 1)
    (noString : s.k.enc.istring = none)
    (holds : Holds [] tail s.k)
    (counted : s.k.enc.sRpt = 0)
    (started : s.k.enc.sFirst = 0)
    (nothing : s.k.enc.sRemain = [])
    (unread : Input left s input) :
    (getpktLoop io (turns + 1) c s).1 = 0 ∨
      OneByte left c input s (getpktLoop io (turns + 1) c s) := by
  obtain ⟨read, turned⟩ :=
    @turn_turnOf _ _ io left reader [] tail input 0 c s inMode noString holds
      counted (countable_zero _) (by decide)
      (fun one => absurd one (by decide)) unread
  have par : (turn io c s).k.par = s.k.par := turned.packs.settings.2
  have runs : turnRuns s.k.par.rptflg 0 c input.head? =
      ([], [{ char := c, count := 1 }]) := by
    simp [turnRuns, noRepeat]
  have held : turnHeld s.k.par.rptflg 0 c input.head? = 0 := by
    simp [turnHeld, noRepeat]
  obtain ⟨tail', holds', -⟩ := turned.holds
  have osize := turned.osize
  rw [runs] at holds' osize
  simp only [encodeRuns_nil, encodeRuns_cons, List.nil_append,
    List.append_nil, encodeRun_once, List.length_nil] at holds' osize
  have size := holds'.size
  have some := (packable.length c).1
  rw [getpktLoop_succ]
  dsimp only
  rw [par]
  split
  · rename_i full
    right
    have kept : (turn io c s).k.enc.sRemain =
        encodeRuns s.k.cfg s.k.par [] :=
      turned.kept.trans nothing
    have waiting :=
      @TurnOf.waiting _ left [] 0 c input s (turn io c s) (turn io c s)
        turned started []
        ⟨⟨(turn io c s).k.enc, (turn io c s).k.ipktbuf, (turn io c s).k.zin,
            (turn io c s).r.sofarRumor, (turn io c s).w, [], rfl, rfl, rfl⟩,
          rfl, rfl, rfl, rfl, rfl, rfl⟩
        kept (by decide) (by simp)
    rw [held] at waiting
    exact
      { short := by omega
        length := by
          show ((turn io c s).k.enc.size : Int) = 1
          omega
        memory := ⟨tail', holds'.memory⟩
        packs := turned.packs
        begun := turned.begun started
        nothing := turned.kept.trans nothing
        waiting := waiting }
  · rename_i notFull
    left
    rw [if_pos (by omega)]
    show ((turn io c s).k.enc.osize : Int) = 0
    omega

/-- `getpkt()` from the leftovers on, when nothing is left over. -/
theorem getpktRest_narrow
    {mode : Int}
    {io : Io ω}
    {left : ω → List UInt8}
    (reader : ReadsIn mode io left)
    (c : UInt8)
    {input : List UInt8}
    {s : Sys ω}
    (inMode : s.k.par.binary = mode)
    (packable : Packable s.k.cfg s.k.par)
    (noRepeat : s.k.par.rptflg = 0)
    (narrow : getpktMaxlen s.k.par ≤ 1)
    (noString : s.k.enc.istring = none)
    (counted : s.k.enc.sRpt = 0)
    (started : s.k.enc.sFirst = 0)
    (nothing : s.k.enc.sRemain = [])
    (unread : Input left s input) :
    (getpktRest io c s).1 = 0 ∨
      OneByte left c input s (getpktRest io c s) := by
  have packs := copyRemain_packs s
  obtain ⟨⟨tail, holds⟩, xdatabuf, ipktbuf, same⟩ := copyRemain_holds s.k
  have going : ¬ (copyRemain s.k).enc.sFirst = -1 := by
    rw [same]
    dsimp only
    rw [started]
    decide
  have route : getpktRest io c s =
      getpktLoop io getpktFuel c { s with k := copyRemain s.k } := by
    unfold getpktRest
    exact if_neg going
  have fuel : getpktFuel = (getpktFuel - 1) + 1 := rfl
  rw [nothing] at holds
  rw [route, fuel]
  generalize getpktFuel - 1 = turns
  have one :=
    @getpktLoop_narrow _ mode io left reader turns c input tail
      { s with k := copyRemain s.k }
  rw [same] at one holds packs ⊢
  exact (one inMode packable noRepeat narrow noString holds counted started
    rfl unread).imp_right (OneByte.after packs)

theorem Narrow.forceBcta3
    {left : ω → List UInt8}
    {rest : List UInt8}
    {s : Sys ω}
    (narrow : Narrow left rest s) :
    forceBcta3 s.k = s.k := by
  unfold Kermit.forceBcta3
  split
  · rename_i forced
    have three := narrow.inForce.resolve_left forced
    rw [← three]
  · rfl

/-- A call of `getpkt()` with a limit of at most one byte. -/
theorem getpkt_narrow
    {mode : Int}
    {io : Io ω}
    {left : ω → List UInt8}
    (reader : ReadsIn mode io left)
    {rest : List UInt8}
    {s : Sys ω}
    (inMode : s.k.par.binary = mode)
    (narrow : Narrow left rest s) :
    (getpkt io s).1 = 0 ∨
      ∃ c more, rest = c :: more ∧ OneByte left c more s (getpkt io s) := by
  have same := narrow.forceBcta3
  obtain ⟨packable, noRepeat, limit, -, noString, nothing, waiting⟩ := narrow
  unfold getpkt
  rw [same]
  dsimp only
  cases waiting with
  | first flag counted unread =>
      obtain ⟨next, packs, unread', -, started, empty, rpt⟩ :=
        getpktFirst_read reader inMode noString unread
      rw [if_pos flag, next]
      generalize (getpktFirst io s).2 = s' at *
      cases rest with
      | nil =>
          exact .inl rfl
      | cons c more =>
          obtain ⟨cfg, par⟩ := packs.settings
          have noString' : s'.k.enc.istring = none := by
            obtain ⟨_, _, _, _, _, _, _, istring, rfl⟩ := packs
            exact istring.trans noString
          have one :=
            getpktRest_narrow reader c (by rw [par]; exact inMode)
              (by rw [cfg, par]; exact packable) (by rw [par]; exact noRepeat)
              (by rw [par]; exact limit) noString' (rpt.trans counted) started
              empty unread'
          exact one.imp_right fun one => ⟨c, more, rfl, one.after packs⟩
  | @going rem held c input flag char counted countable kept _ said unread =>
      have notFirst : ¬ s.k.enc.sFirst = 1 := by omega
      have notEnded : ¬ (s.k.enc.sFirst = -1 ∧ s.k.enc.sRemain = []) := by
        omega
      have none : rem = [] := by
        have longer := length_le_encodeRuns s.k.cfg s.k.par rem
        rw [← kept, nothing notFirst, List.length_nil] at longer
        exact List.length_eq_zero_iff.mp (Nat.le_zero.mp longer)
      have zero := countable.counting noRepeat
      subst none zero
      rw [if_neg notFirst, if_neg notEnded, char]
      have one :=
        getpktRest_narrow reader c inMode packable noRepeat limit noString
          counted flag (nothing notFirst) unread
      exact one.imp_right fun one => ⟨c, input, rfl, one⟩
  | @ended rem flag _ _ _ _ _ _ =>
      have notFirst : ¬ s.k.enc.sFirst = 1 := by omega
      rw [if_neg notFirst, if_pos ⟨flag, nothing notFirst⟩]
      exact .inl rfl

theorem OneByte.field
    {left : ω → List UInt8}
    {c : UInt8}
    {rest : List UInt8}
    {s : Sys ω}
    {result : Int × Sys ω}
    (one : OneByte left c rest s result) :
    fieldOf result = encodeBytes s.k.cfg s.k.par c := by
  obtain ⟨tail, memory⟩ := one.memory
  have notNegative : ¬ result.1 < 0 := by
    rw [one.length]
    decide
  unfold fieldOf spktData
  dsimp only
  rw [if_neg notNegative, memory, one.length, Int.toNat_one, ← one.short,
    List.takeD_eq_take _ (by simp), List.take_left]

theorem fieldsOf_succ
    (io : Io ω)
    (s : Sys ω)
    (count : Nat) :
    fieldsOf io s (count + 1) =
      fieldOf (getpkt io s) :: fieldsOf io (getpkt io s).2 count := by
  simp only [fieldsOf, List.range_succ_eq_map, List.map_cons, List.map_map,
    Function.comp_def, Nat.succ_eq_add_one, getpkts_succ]
  rfl

/-- Calls of `getpkt()` with a limit of at most one byte. -/
theorem getpkts_narrow
    {mode : Int}
    {io : Io ω}
    {left : ω → List UInt8}
    (reader : ReadsIn mode io left)
    {rest : List UInt8}
    {s : Sys ω}
    (inMode : s.k.par.binary = mode)
    (narrow : Narrow left rest s) :
    ∃ text : List UInt8,
      text <+: rest ∧
      (∀ c ∈ text, (encodeBytes s.k.cfg s.k.par c).length = 1) ∧
      fieldsOf io s text.length = text.map (encodeBytes s.k.cfg s.k.par) ∧
      (∀ i, i < text.length → 0 < (getpkts io s i).1) ∧
      (getpkts io s text.length).1 = 0 := by
  induction rest generalizing s with
  | nil =>
      rcases getpkt_narrow reader inMode narrow with zero | ⟨_, _, empty, _⟩
      · exact ⟨[], List.prefix_rfl, by simp, rfl, by simp, zero⟩
      · cases empty
  | cons c more inductionHypothesis =>
      rcases getpkt_narrow reader inMode narrow with
        zero | ⟨_, _, shape, one⟩
      · exact ⟨[], List.nil_prefix, by simp, rfl, by simp, zero⟩
      · cases shape
        obtain ⟨cfg, par⟩ := one.packs.settings
        have noString : (getpkt io s).2.k.enc.istring = none := by
          obtain ⟨_, _, _, _, _, _, _, istring, same⟩ := one.packs
          rw [same]
          exact istring.trans narrow.noString
        have later : Narrow left more (getpkt io s).2 :=
          ⟨by rw [cfg, par]; exact narrow.packable,
            by rw [par]; exact narrow.noRepeat,
            by rw [par]; exact narrow.narrow,
            by rw [cfg, par]; exact narrow.inForce,
            noString, fun _ => one.nothing, one.waiting⟩
        obtain ⟨text, front, short, fields, positive, zero⟩ :=
          inductionHypothesis (by rw [par]; exact inMode) later
        rw [cfg, par] at short fields
        refine ⟨c :: text, ?_, ?_, ?_, ?_, ?_⟩
        · exact (List.prefix_cons_inj c).mpr front
        · exact List.forall_mem_cons.mpr ⟨one.short, short⟩
        · rw [List.length_cons, fieldsOf_succ, one.field, fields,
            List.map_cons]
        · intro i inside
          cases i with
          | zero =>
              show 0 < (getpkt io s).1
              rw [one.length]
              decide
          | succ i =>
              rw [getpkts_succ]
              exact positive i (Nat.lt_of_succ_lt_succ inside)
        · rw [List.length_cons, getpkts_succ]
          exact zero

/-- The data fields of an input that is packed without repeat counts. -/
theorem getpkts_parts
    {mode : Int}
    {io : Io ω}
    {left : ω → List UInt8}
    (reader : ReadsIn mode io left)
    {input : List UInt8}
    {s : Sys ω}
    (inMode : s.k.par.binary = mode)
    (packable : Packable s.k.cfg s.k.par)
    (noRepeat : s.k.par.rptflg = 0)
    (small : s.k.par.sMaxlen ≤ pPktlen)
    (noString : s.k.enc.istring = none)
    (first : s.k.enc.sFirst = 1)
    (counted : s.k.enc.sRpt = 0)
    (unread : Input left s input) :
    ∃ parts : List (List UInt8),
      parts.flatten <+: input ∧
      (inForce s.k + 11 ≤ s.k.par.sMaxlen → parts.flatten = input) ∧
      (s.k.par.sMaxlen < inForce s.k + 11 →
        ∀ part ∈ parts, ∀ c ∈ part,
          (encodeBytes s.k.cfg s.k.par c).length = 1) ∧
      fieldsOf io s parts.length =
        parts.map (encodeAll s.k.cfg s.k.par) ∧
      (∀ part ∈ parts, (encodeAll s.k.cfg s.k.par part).length ≤ pPktlen) ∧
      (∀ i, i < parts.length → 0 < (getpkts io s i).1) ∧
      (getpkts io s parts.length).1 = 0 := by
  have longest : longestRun s.k.par = 2 := by
    simp [longestRun, noRepeat]
  by_cases room : inForce s.k + 11 ≤ s.k.par.sMaxlen
  · obtain ⟨fields, whole, said, data, positive, zero, short, -⟩ :=
      getpkts_first reader inMode packable (by omega) small noString first
        counted unread
    have asParts (runs : List CharRun) (member : runs ∈ fields) :=
      @encodeRuns_eq_encodeAll s.k.cfg _ noRepeat runs (said runs member)
    have flat : (fields.map expand).flatten = input := by
      rw [whole, List.flatMap_def]
    refine ⟨fields.map expand, flat ▸ List.prefix_rfl, fun _ => flat,
      fun narrow => absurd room (by omega), ?_, ?_, ?_, ?_⟩
    · rw [List.length_map, data, List.map_map]
      exact List.map_congr_left asParts
    · intro part member
      obtain ⟨runs, inFields, rfl⟩ := List.mem_map.mp member
      have length :=
        short (encodeRuns s.k.cfg s.k.par runs)
          (data ▸ List.mem_map_of_mem inFields)
      rw [← asParts runs inFields]
      simp only [pPktlen] at small ⊢
      omega
    · rw [List.length_map]
      exact positive
    · rw [List.length_map]
      exact zero
  · have narrow : Narrow left input { s with k := forceBcta3 s.k } := by
      rw [forceBcta3_eq]
      refine
        { packable := ⟨packable.length, packable.nonzero, packable.rptq⟩
          noRepeat := noRepeat
          narrow := ?_
          inForce := ?_
          noString := noString
          nothing := fun notFirst => absurd first notFirst
          waiting := .first first counted unread }
      · show (s.k.par.sMaxlen : Int) - inForce s.k - 3 - 6 ≤ 1
        omega
      by_cases forced : s.k.cfg.bcta3 = 0
      · exact .inl forced
      · refine .inr ?_
        show (if s.k.cfg.bcta3 ≠ 0 then 3 else s.k.par.bct) = 3
        rw [if_pos forced]
    have stillIn : (forceBcta3 s.k).par.binary = mode := by
      rw [forceBcta3_eq]
      exact inMode
    obtain ⟨text, front, short, fields, positive, zero⟩ :=
      getpkts_narrow reader stillIn narrow
    have flat : (text.map fun c => [c]).flatten = text := by
      rw [← List.flatMap_def, List.flatMap_singleton']
    simp only [fieldsOf, getpkts_forceBcta3] at fields
    simp only [getpkts_forceBcta3] at positive zero
    rw [forceBcta3_eq] at short fields
    refine ⟨text.map fun c => [c], by rw [flat]; exact front,
      fun wide => absurd wide room, ?_, ?_, ?_, ?_, ?_⟩
    · intro _ part member c inPart
      obtain ⟨c', inText, rfl⟩ := List.mem_map.mp member
      rw [List.mem_singleton] at inPart
      subst inPart
      exact short c inText
    · rw [List.length_map, List.map_map]
      refine Eq.trans fields (List.map_congr_left fun c _ => ?_)
      exact (List.append_nil _).symm
    · intro part member
      obtain ⟨c, inText, rfl⟩ := List.mem_map.mp member
      have one := short c inText
      rw [encodeAll_cons, encodeAll_nil, List.append_nil]
      simp only [pPktlen]
      exact one.trans_le (by decide)
    · rw [List.length_map]
      exact positive
    · rw [List.length_map]
      exact zero

/-! ## Frames on a line of seven bits -/

/--
`kreadpkt()` with parity reads the frame of a data packet from its start to its
terminator, whatever its number.
-/
def ReadWhole
    (data : List UInt8)
    (k : KData) : Prop :=
  ∀ (seq : Int) (p : Params) (polls tail : List Poll),
    0 ≤ seq →
    seq ≤ 63 →
    p.parity ≠ 0 →
    p.rSoh = packetStart →
    p.rEom = packetEnd →
    (pktBody (inForce k) (ch 'D') seq data).length ≤ p.rMaxlen →
    Arrives p (sentFrame (ch 'D') seq data k) polls →
    kreadpkt p (polls ++ tail) = some (bodyRx (ch 'D') seq data k, tail)

/-- The field of a part of a file is safe on a line of seven bits. -/
structure SafeField
    (part field : List UInt8)
    (k : KData) : Prop where
  masked : ∀ byte ∈ field, byte &&& 0x7F ∉ linkBytes
  whole : ReadWhole field k
  decoded : ∀ p, EighthDecoding p → decodeMem p field = part

theorem readWhole_of_masked
    {data : List UInt8}
    {k : KData}
    (startSent : k.par.sSoh = packetStart)
    (endSent : k.par.sEom = packetEnd)
    (check : inForce k ≤ 3)
    (short : data.length ≤ pPktlen)
    (masked : ∀ byte ∈ data, byte &&& 0x7F ∉ linkBytes) :
    ReadWhole data k := by
  intro seq p polls tail lower upper parity startRead endRead room arrives
  have letter : ch 'D' &&& 0x7F ∉ linkBytes := by decide
  have seen : ∀ byte ∈ ch 'D' :: data, byte &&& 0x7F ∉ linkBytes :=
    List.forall_mem_cons.mpr ⟨letter, masked⟩
  have noStart : packetStart ∉ ch 'D' :: data := by
    intro member
    exact absurd (seen packetStart member) (by decide)
  have noEnd : packetEnd ∉ ch 'D' :: data := by
    intro member
    exact absurd (seen packetEnd member) (by decide)
  have unmistakable : Unmistakable p (ch 'D' :: data) := by
    refine .inr fun byte member => ⟨fun same => ?_, fun same => ?_⟩
    · exact seen byte member (same ▸ by decide)
    · exact seen byte member (same ▸ by decide)
  have inField : data.length + inForce k < 95 * 95 := by
    simp only [pPktlen] at short
    omega
  have startForced : (forceBcta3 k).par.sSoh = packetStart := by
    rw [forceBcta3_eq]
    exact startSent
  have endForced : (forceBcta3 k).par.sEom = packetEnd := by
    rw [forceBcta3_eq]
    exact endSent
  have frame :
      sentFrame (ch 'D') seq data k =
        packetStart :: (pktBody (inForce k) (ch 'D') seq data ++
          [packetEnd]) := by
    rw [sentFrame, pktFrame, startForced, endForced, forceBcta3_bct]
  rw [frame] at arrives
  exact kreadpkt_frame startRead endRead arrives room
    (plain_pktBody_of lower upper inField noStart noEnd unmistakable) tail

/-- Settings of a decoder that fit those of an encoder. -/
theorem eighthDecoding_exists :
    ∃ p, EighthDecoding p :=
  ⟨{ (clearedData []).par with
      binary := 1, parity := 1, ebq := prefixEighth, rCtlq := prefixCtrl
      rptflg := 0 },
    rfl, by decide, rfl, rfl, rfl⟩

/-- The field of a part is safe when the part has none of four characters. -/
theorem safeField_iff
    {k : KData}
    (encoding : EighthEncoding k.cfg k.par)
    (startSent : k.par.sSoh = packetStart)
    (endSent : k.par.sEom = packetEnd)
    (check : inForce k ≤ 3)
    {part : List UInt8}
    (short : (encodeAll k.cfg k.par part).length ≤ pPktlen) :
    SafeField part (encodeAll k.cfg k.par part) k ↔
      ∀ c ∈ part, c ∉ maskedCtrl :: maskedLinkBytes := by
  have masked :
      (∀ byte ∈ encodeAll k.cfg k.par part, byte &&& 0x7F ∉ linkBytes) ↔
        ∀ c ∈ part, c ∉ maskedLinkBytes := by
    simp only [encodeAll, List.forall_mem_flatMap]
    exact forall₂_congr fun c _ =>
      (eighthEncoded_encodeBytes encoding c).masked_iff
  have decoded (p : Params) (decoding : EighthDecoding p) :
      decodeMem p (encodeAll k.cfg k.par part) = part ↔
        maskedCtrl ∉ part :=
    decodeMemLoop_encodeAll_iff encoding decoding
      (Nat.lt_succ_of_le (length_le_encodeAll encoding.packable part))
  constructor
  · intro safe c member
    obtain ⟨p, decoding⟩ := eighthDecoding_exists
    have noCtrl := (decoded p decoding).mp (safe.decoded p decoding)
    rw [List.mem_cons, not_or]
    exact ⟨fun same => noCtrl (same ▸ member), masked.mp safe.masked c member⟩
  · intro clean
    have plain := masked.mpr fun c member listed =>
      clean c member (List.mem_cons_of_mem _ listed)
    exact
      { masked := plain
        whole := readWhole_of_masked startSent endSent check short plain
        decoded := fun p decoding =>
          (decoded p decoding).mpr fun member =>
            clean maskedCtrl member (List.mem_cons_self ..) }

/--
With 8th-bit prefixes in force the fields of a file are safe on a line of seven
bits exactly when the file has none of four characters, or when the limit is
too small for an 8th-bit prefix.
-/
theorem eighth_bit_safe_iff
    {io : Io ω}
    {left : ω → List UInt8}
    (reader : ReadsFile io left)
    {s : Sys ω}
    (encoding : EighthEncoding s.k.cfg s.k.par)
    (startSent : s.k.par.sSoh = packetStart)
    (endSent : s.k.par.sEom = packetEnd)
    (check : inForce s.k ≤ 3)
    (small : s.k.par.sMaxlen ≤ pPktlen)
    (noString : s.k.enc.istring = none)
    (first : s.k.enc.sFirst = 1)
    (counted : s.k.enc.sRpt = 0)
    {file : List UInt8}
    (unread : Input left s file) :
    ∃ parts : List (List UInt8),
      parts.flatten <+: file ∧
      (inForce s.k + 11 ≤ s.k.par.sMaxlen → parts.flatten = file) ∧
      fieldsOf io s parts.length = parts.map (encodeAll s.k.cfg s.k.par) ∧
      (∀ i, i < parts.length → 0 < (getpkts io s i).1) ∧
      (getpkts io s parts.length).1 = 0 ∧
      ((∀ part ∈ parts,
          SafeField part (encodeAll s.k.cfg s.k.par part) s.k) ↔
        (inForce s.k + 11 ≤ s.k.par.sMaxlen →
          ∀ c ∈ file, c ∉ [0xA3, 0x80, 0x93, 0x8D])) := by
  obtain ⟨parts, front, whole, narrow, data, short, positive, zero⟩ :=
    getpkts_parts reader.readsIn encoding.binary encoding.packable
      encoding.noRepeat small noString first counted unread
  refine ⟨parts, front, whole, data, positive, zero, ?_⟩
  have safe (part : List UInt8) (member : part ∈ parts) :=
    safeField_iff encoding startSent endSent check (short part member)
  constructor
  · intro all room c inFile
    rw [← whole room] at inFile
    obtain ⟨part, member, inPart⟩ := List.mem_flatten.mp inFile
    exact (safe part member).mp (all part member) c inPart
  · intro clean part member
    apply (safe part member).mpr
    intro c inPart
    by_cases room : inForce s.k + 11 ≤ s.k.par.sMaxlen
    · apply clean room c
      rw [← whole room]
      exact List.mem_flatten.mpr ⟨part, member, inPart⟩
    · intro listed
      have one := narrow (by omega) part member c inPart
      have eighth : 128 ≤ c := by
        have all :
            ∀ c ∈ maskedCtrl :: maskedLinkBytes, (128 : UInt8) ≤ c := by
          decide +kernel
        exact all c listed
      rw [encodeBytes_high encoding eighth] at one
      exact absurd one (by simp)

/-- A server that uses 8th-bit prefixes and has opened a file. -/
def eighthServer
    (file : List UInt8) : Sys (Unix (List UInt8)) :=
  (callOpenf (unixio fileOs) (lit "f") 1 0
    { idleServer fileOs file with
      k.par :=
        { (idleServer fileOs file).k.par with
          parity := 1, ebqflg := 1, ebq := prefixEighth, rptflg := 0 } }).2

/-- A file of one character with its eighth bit set. -/
theorem eighth_bit_safe_iff_one :
    ∃ parts : List (List UInt8),
      parts.flatten <+: [0xC1] ∧
      (inForce (eighthServer [0xC1]).k + 11 ≤
          (eighthServer [0xC1]).k.par.sMaxlen →
        parts.flatten = [0xC1]) ∧
      fieldsOf (unixio fileOs) (eighthServer [0xC1]) parts.length =
        parts.map
          (encodeAll (eighthServer [0xC1]).k.cfg
            (eighthServer [0xC1]).k.par) ∧
      (∀ i, i < parts.length →
        0 < (getpkts (unixio fileOs) (eighthServer [0xC1]) i).1) ∧
      (getpkts (unixio fileOs) (eighthServer [0xC1]) parts.length).1 = 0 ∧
      ((∀ part ∈ parts,
          SafeField part
            (encodeAll (eighthServer [0xC1]).k.cfg
              (eighthServer [0xC1]).k.par part)
            (eighthServer [0xC1]).k) ↔
        (inForce (eighthServer [0xC1]).k + 11 ≤
            (eighthServer [0xC1]).k.par.sMaxlen →
          ∀ c ∈ ([0xC1] : List UInt8), c ∉ [0xA3, 0x80, 0x93, 0x8D])) :=
  have reads : ReadsUnread fileOs (fun file => file) := fun _ _ => ⟨rfl, rfl⟩
  @eighth_bit_safe_iff _ _ _ (readsFile_unixio reads) (eighthServer [0xC1])
    ⟨by decide, by decide, by decide, by decide, by decide⟩ (by decide)
    (by decide) (by decide) (by decide) (by decide) (by decide) (by decide)
    [0xC1] ⟨[], by decide, by decide⟩

/-- The byte `0x93` is taken for the start of a packet. -/
theorem masked_start_in_field :
    let s := eighthServer [0x93]
    s.k.par.binary = 1 ∧ s.k.par.ebqflg = 1 ∧ s.k.par.parity = 1 ∧
      s.k.par.ebq = ch '&' ∧ s.k.cfg.sCtlq = ch '#' ∧ s.k.par.rptflg = 0 ∧
      fieldsOf (unixio fileOs) s 1 = [[ch '&', 0x93]] ∧
      (getpkts (unixio fileOs) s 1).1 = 0 ∧
      (0x93 : UInt8) &&& 0x7F = packetStart ∧
      ¬ ReadWhole [ch '&', 0x93] s.k := by
  refine ⟨by decide +kernel, by decide +kernel, by decide +kernel,
    by decide +kernel, by decide +kernel, by decide +kernel,
    by decide +kernel, by decide +kernel, by decide, ?_⟩
  intro whole
  have read :=
    whole 0 (eighthServer [0x93]).k.par
      ((sentFrame (ch 'D') 0 [ch '&', 0x93] (eighthServer [0x93]).k).map
        .byte)
      [] (by decide) (by decide) (by decide +kernel) (by decide +kernel)
      (by decide +kernel) (by decide +kernel) (arrives_bytes _ _)
  have other :
      kreadpkt (eighthServer [0x93]).k.par
          ((sentFrame (ch 'D') 0 [ch '&', 0x93]
            (eighthServer [0x93]).k).map .byte ++ []) ≠
        some (bodyRx (ch 'D') 0 [ch '&', 0x93] (eighthServer [0x93]).k, []) := by
    decide +kernel
  exact other read

end Slate106.Kermit
