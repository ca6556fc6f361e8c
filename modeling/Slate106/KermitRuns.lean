import Slate106.KermitDecode
import Slate106.KermitEncode
import Slate106.KermitFrame

namespace Slate106.Kermit

open CBytes

/-!
# Runs of a data field

What the encoder writes is a sequence of runs: a character once, or a character
with a repeat count.  The decoder reads a sequence of runs back.
-/

/-- A character, and how often it is said. -/
structure CharRun where
  char : UInt8
  count : Nat
  deriving Repr, DecidableEq

/-- The characters that runs stand for. -/
def expand
    (runs : List CharRun) : List UInt8 :=
  runs.flatMap fun run => List.replicate run.count run.char

@[simp] theorem expand_nil :
    expand [] = [] :=
  rfl

@[simp] theorem expand_cons
    (run : CharRun)
    (runs : List CharRun) :
    expand (run :: runs) =
      List.replicate run.count run.char ++ expand runs :=
  rfl

@[simp] theorem expand_append
    (first second : List CharRun) :
    expand (first ++ second) = expand first ++ expand second := by
  simp [expand]

/-- The bytes `encode()` emits for a run. -/
def encodeRun
    (cfg : Config)
    (p : Params)
    (run : CharRun) : List UInt8 :=
  (if run.count = 1 then []
    else [p.rptq, torepeat (uchar run.count)]) ++
      encodeBytes cfg p run.char

/-- The bytes `encode()` emits for a sequence of runs. -/
def encodeRuns
    (cfg : Config)
    (p : Params)
    (runs : List CharRun) : List UInt8 :=
  runs.flatMap (encodeRun cfg p)

@[simp] theorem encodeRuns_nil
    (cfg : Config)
    (p : Params) :
    encodeRuns cfg p [] = [] :=
  rfl

@[simp] theorem encodeRuns_cons
    (cfg : Config)
    (p : Params)
    (run : CharRun)
    (runs : List CharRun) :
    encodeRuns cfg p (run :: runs) =
      encodeRun cfg p run ++ encodeRuns cfg p runs :=
  rfl

@[simp] theorem encodeRuns_append
    (cfg : Config)
    (p : Params)
    (first second : List CharRun) :
    encodeRuns cfg p (first ++ second) =
      encodeRuns cfg p first ++ encodeRuns cfg p second := by
  simp [encodeRuns]

/-- A character takes at most three bytes. -/
theorem length_encodeBytes
    (cfg : Config)
    (p : Params)
    (a : UInt8) :
    1 ≤ (encodeBytes cfg p a).length ∧ (encodeBytes cfg p a).length ≤ 3 := by
  unfold encodeBytes
  dsimp only
  rw [List.length_append]
  have front : ∀ prefixed : Prop, ∀ _ : Decidable prefixed,
      (if prefixed then [p.ebq] else []).length ≤ 1 := by
    intro prefixed _
    split <;> simp
  have frontShort := front (p.ebqflg ≠ 0 ∧ a &&& 128 ≠ 0) inferInstance
  generalize (if p.ebqflg ≠ 0 ∧ a &&& 128 ≠ 0 then [p.ebq] else []).length =
    before at *
  repeat' split
  all_goals
    simp only [List.length_cons, List.length_nil]
    omega

theorem length_encodeRun_pos
    (cfg : Config)
    (p : Params)
    (run : CharRun) :
    0 < (encodeRun cfg p run).length := by
  have once := (length_encodeBytes cfg p run.char).1
  rw [encodeRun, List.length_append]
  omega

/-- No run is left out. -/
theorem length_le_encodeRuns
    (cfg : Config)
    (p : Params)
    (runs : List CharRun) :
    runs.length ≤ (encodeRuns cfg p runs).length := by
  induction runs with
  | nil =>
      exact Nat.le_refl _
  | cons run runs inductionHypothesis =>
      have some := length_encodeRun_pos cfg p run
      rw [encodeRuns_cons, List.length_cons, List.length_append]
      omega

theorem length_encodeRuns_pos
    (cfg : Config)
    (p : Params)
    {runs : List CharRun}
    (something : runs ≠ []) :
    0 < (encodeRuns cfg p runs).length :=
  Nat.lt_of_lt_of_le (List.length_pos_iff.mpr something)
    (length_le_encodeRuns cfg p runs)

/-- The counts `encode()` says: once, or three times to 236 times. -/
def CharRun.Said
    (rptflg : Int)
    (run : CharRun) : Prop :=
  run.count = 1 ∨ rptflg ≠ 0 ∧ 3 ≤ run.count ∧ run.count ≤ 236

theorem CharRun.Said.positive
    {rptflg : Int}
    {run : CharRun}
    (said : run.Said rptflg) :
    0 < run.count := by
  rcases said with once | repeated
  · omega
  · omega

/-- Runs stand for at least one character each. -/
theorem length_expand_pos
    {rptflg : Int}
    {runs : List CharRun}
    (said : ∀ run ∈ runs, run.Said rptflg)
    (something : runs ≠ []) :
    0 < (expand runs).length := by
  cases runs with
  | nil =>
      exact absurd rfl something
  | cons run runs =>
      have positive := (said run (List.mem_cons_self ..)).positive
      simp only [expand_cons, List.length_append, List.length_replicate]
      omega

/-- The encoder's settings for binary data without 8th-bit prefixes. -/
structure BinaryEncoding
    (cfg : Config)
    (p : Params) : Prop where
  binary : p.binary = 1
  noEbq : p.ebqflg = 0
  ctlq : cfg.sCtlq = prefixCtrl
  rptq : p.rptq = prefixRepeat

/-- The decoder's settings for binary data without 8th-bit prefixes. -/
structure BinaryDecoding
    (p : Params) : Prop where
  binary : p.binary = 1
  noParity : p.parity = 0
  ctlq : p.rCtlq = prefixCtrl
  rptq : p.rptq = prefixRepeat

/-- The characters `spar()` takes for repeat prefixes, but the control prefix. -/
def IsRepeatPrefix
    (c : UInt8) : Prop :=
  (isPrefixChar c = true ∨ c = prefixRepeat) ∧ c ≠ prefixCtrl

/-- The encoder's settings for binary data, with any repeat prefix. -/
structure PlainEncoding
    (cfg : Config)
    (p : Params) : Prop where
  binary : p.binary = 1
  noEbq : p.ebqflg = 0
  ctlq : cfg.sCtlq = prefixCtrl
  rptq : p.rptflg ≠ 0 → IsRepeatPrefix p.rptq

/-- The decoder's settings that fit those of the encoder. -/
structure PlainDecoding
    (p p' : Params) : Prop where
  binary : p'.binary = 1
  noParity : p'.parity = 0
  ctlq : p'.rCtlq = prefixCtrl
  rptflg : p'.rptflg = p.rptflg
  rptq : p.rptflg ≠ 0 → p'.rptq = p.rptq

theorem isRepeatPrefix_prefixRepeat :
    IsRepeatPrefix prefixRepeat :=
  ⟨.inr rfl, by decide⟩

theorem BinaryEncoding.plain
    {cfg : Config}
    {p : Params}
    (settings : BinaryEncoding cfg p) :
    PlainEncoding cfg p where
  binary := settings.binary
  noEbq := settings.noEbq
  ctlq := settings.ctlq
  rptq := fun _ => settings.rptq ▸ isRepeatPrefix_prefixRepeat

theorem BinaryDecoding.plain
    {cfg : Config}
    {p p' : Params}
    (encoding : BinaryEncoding cfg p)
    (decoding : BinaryDecoding p')
    (sameFlag : p'.rptflg = p.rptflg) :
    PlainDecoding p p' where
  binary := decoding.binary
  noParity := decoding.noParity
  ctlq := decoding.ctlq
  rptflg := sameFlag
  rptq := fun _ => decoding.rptq.trans encoding.rptq.symm

/-- What a repeat prefix is as a number. -/
theorem IsRepeatPrefix.toNat
    {c : UInt8}
    (isPrefix : IsRepeatPrefix c) :
    32 < c.toNat ∧ c.toNat < 63 ∨ 95 < c.toNat ∧ c.toNat < 127 ∨
      c.toNat = 204 := by
  rcases isPrefix.1 with inRange | rfl
  · simp only [isPrefixChar, Bool.or_eq_true, Bool.and_eq_true,
      decide_eq_true_eq, gt_iff_lt, UInt8.lt_iff_toNat_lt] at inRange
    have bounds : (32 : UInt8).toNat = 32 ∧ (63 : UInt8).toNat = 63 ∧
        (95 : UInt8).toNat = 95 ∧ (127 : UInt8).toNat = 127 := by decide
    omega
  · exact .inr (.inr rfl)

/-- What `encode()` emits for a character of binary data. -/
inductive Encoded
    (rptflg : Int)
    (rptq c : UInt8) : List UInt8 → Prop where
  | control
      (quoted : c = 0 ∨ c = packetStart ∨ c = packetEnd) :
      Encoded rptflg rptq c [prefixCtrl, ctl c]
  | prefixed
      (isPrefix : c = prefixCtrl ∨ IsRepeatPrefix c) :
      Encoded rptflg rptq c [prefixCtrl, c]
  | plain
      (nonzero : c ≠ 0)
      (notStart : c ≠ packetStart)
      (notEnd : c ≠ packetEnd)
      (notCtrl : c ≠ prefixCtrl)
      (notRepeat : rptflg ≠ 0 → c ≠ rptq) :
      Encoded rptflg rptq c [c]

theorem encoded_encodeBytes
    {cfg : Config}
    {p : Params}
    (settings : PlainEncoding cfg p)
    (c : UInt8) :
    Encoded p.rptflg p.rptq c (encodeBytes cfg p c) := by
  by_cases quoted : c = 0 ∨ c = packetStart ∨ c = packetEnd
  · have emitted : encodeBytes cfg p c = [prefixCtrl, ctl c] := by
      rcases quoted with rfl | rfl | rfl <;>
        simp [encodeBytes, isQuoted, settings.binary, settings.noEbq,
          settings.ctlq]
    rw [emitted]
    exact .control quoted
  have notQuoted : isQuoted 1 c = false := by
    simpa [isQuoted, and_assoc] using quoted
  simp only [not_or] at quoted
  by_cases ctrl : c = prefixCtrl
  · subst ctrl
    have emitted : encodeBytes cfg p prefixCtrl = [prefixCtrl, prefixCtrl] := by
      simp [encodeBytes, settings.binary, settings.noEbq, settings.ctlq,
        notQuoted]
    rw [emitted]
    exact .prefixed (.inl rfl)
  by_cases rep : p.rptflg ≠ 0 ∧ c = p.rptq
  · obtain ⟨flag, same⟩ := rep
    have emitted : encodeBytes cfg p c = [prefixCtrl, c] := by
      simp [encodeBytes, settings.binary, settings.noEbq, settings.ctlq,
        notQuoted, flag, ← same]
    rw [emitted]
    exact .prefixed (.inr (same ▸ settings.rptq flag))
  · have emitted : encodeBytes cfg p c = [c] := by
      simp [encodeBytes, settings.binary, settings.noEbq, settings.ctlq,
        notQuoted, ctrl, rep]
    rw [emitted]
    exact .plain quoted.1 quoted.2.1 quoted.2.2 ctrl
      (fun flag same => rep ⟨flag, same⟩)

theorem Encoded.length
    {rptflg : Int}
    {rptq c : UInt8}
    {bytes : List UInt8}
    (encoded : Encoded rptflg rptq c bytes) :
    1 ≤ bytes.length ∧ bytes.length ≤ 2 := by
  cases encoded <;> simp

/-- A byte that ends neither a C string nor a packet, and starts none. -/
def InField
    (byte : UInt8) : Prop :=
  byte ≠ 0 ∧ byte ≠ packetEnd ∧ byte ≠ packetStart

theorem IsRepeatPrefix.inField
    {c : UInt8}
    (isPrefix : IsRepeatPrefix c) :
    InField c := by
  have values := isPrefix.toNat
  refine ⟨?_, ?_, ?_⟩ <;>
    · rintro rfl
      revert values
      decide

theorem Encoded.inField
    {rptflg : Int}
    {rptq c : UInt8}
    {bytes : List UInt8}
    (encoded : Encoded rptflg rptq c bytes)
    {byte : UInt8}
    (member : byte ∈ bytes) :
    InField byte := by
  unfold InField
  cases encoded with
  | control quoted =>
      simp only [List.mem_cons, List.not_mem_nil, or_false] at member
      rcases quoted with rfl | rfl | rfl <;>
        rcases member with rfl | rfl <;> decide
  | prefixed isPrefix =>
      simp only [List.mem_cons, List.not_mem_nil, or_false] at member
      rcases member with rfl | rfl
      · decide
      · rcases isPrefix with rfl | repeats
        · decide
        · exact repeats.inField
  | plain nonzero notStart notEnd _ _ =>
      rw [List.mem_singleton] at member
      subst member
      exact ⟨nonzero, notEnd, notStart⟩

/-- The repeat count of a run of three to 236 is no control character. -/
theorem torepeat_inField
    {count : Nat}
    (lower : 3 ≤ count)
    (upper : count ≤ 236) :
    InField (torepeat (uchar count)) := by
  have value : (torepeat (uchar count)).toNat = count + 19 := by
    rw [uchar_natCast]
    simp [torepeat]
    omega
  have large : ∀ byte : UInt8, byte.toNat < 22 →
      torepeat (uchar count) ≠ byte := by
    intro byte small same
    rw [same] at value
    omega
  exact ⟨large 0 (by decide), large packetEnd (by decide),
    large packetStart (by decide)⟩

/-- What `getpkt()` needs of `encode()`: short characters without a NUL. -/
structure Packable
    (cfg : Config)
    (p : Params) : Prop where
  length : ∀ c : UInt8,
    1 ≤ (encodeBytes cfg p c).length ∧ (encodeBytes cfg p c).length ≤ 2
  nonzero : ∀ c : UInt8, 0 ∉ encodeBytes cfg p c
  rptq : p.rptflg ≠ 0 → p.rptq ≠ 0

theorem PlainEncoding.packable
    {cfg : Config}
    {p : Params}
    (settings : PlainEncoding cfg p) :
    Packable cfg p where
  length c := (encoded_encodeBytes settings c).length
  nonzero c member := ((encoded_encodeBytes settings c).inField member).1 rfl
  rptq flag := (settings.rptq flag).inField.1

/-- A run is at most four bytes, and holds no NUL. -/
theorem Packable.run
    {cfg : Config}
    {p : Params}
    (packable : Packable cfg p)
    {run : CharRun}
    (said : run.Said p.rptflg) :
    1 ≤ (encodeRun cfg p run).length ∧ (encodeRun cfg p run).length ≤ 4 ∧
      0 ∉ encodeRun cfg p run := by
  have bounds := packable.length run.char
  have nonzero := packable.nonzero run.char
  unfold encodeRun
  split
  · rw [List.nil_append]
    exact ⟨bounds.1, by omega, nonzero⟩
  · rename_i several
    have repeated := said.resolve_left several
    have count := (torepeat_inField repeated.2.1 repeated.2.2).1
    refine ⟨by simp, ?_, ?_⟩
    · simp only [List.length_append, List.length_cons, List.length_nil]
      omega
    · simp only [List.cons_append, List.nil_append, List.mem_cons, not_or]
      exact ⟨(packable.rptq repeated.1).symm, count.symm, nonzero⟩

/-- A run holds no control character. -/
theorem encodeRun_inField
    {cfg : Config}
    {p : Params}
    (settings : PlainEncoding cfg p)
    {run : CharRun}
    (said : run.Said p.rptflg) :
    ∀ byte ∈ encodeRun cfg p run, InField byte := by
  have encoded := encoded_encodeBytes settings run.char
  unfold encodeRun
  split
  · intro byte member
    exact encoded.inField (by simpa using member)
  · rename_i several
    have repeated := said.resolve_left several
    intro byte member
    simp only [List.cons_append, List.nil_append, List.mem_cons] at member
    rcases member with rfl | rfl | member
    · exact (settings.rptq repeated.1).inField
    · exact torepeat_inField repeated.2.1 repeated.2.2
    · exact encoded.inField member

/-- The fields made of runs hold no NUL. -/
theorem Packable.runs
    {cfg : Config}
    {p : Params}
    (packable : Packable cfg p)
    {runs : List CharRun}
    (said : ∀ run ∈ runs, run.Said p.rptflg) :
    0 ∉ encodeRuns cfg p runs := by
  simp only [encodeRuns, List.mem_flatMap]
  rintro ⟨run, inRuns, inRun⟩
  exact (packable.run (said run inRuns)).2.2 inRun

/-- The fields made of runs hold no control character. -/
theorem encodeRuns_inField
    {cfg : Config}
    {p : Params}
    (settings : PlainEncoding cfg p)
    {runs : List CharRun}
    (said : ∀ run ∈ runs, run.Said p.rptflg)
    {byte : UInt8}
    (member : byte ∈ encodeRuns cfg p runs) :
    InField byte := by
  simp only [encodeRuns, List.mem_flatMap] at member
  obtain ⟨run, inRuns, inRun⟩ := member
  exact encodeRun_inField settings (said run inRuns) byte inRun

/-! ## Reading runs back -/

/-- A repeat prefix after the control prefix stands for itself. -/
theorem IsRepeatPrefix.notQuoted
    {c : UInt8}
    (isPrefix : IsRepeatPrefix c) :
    ¬ (c &&& 0x7F = ctl packetEnd ∨ c &&& 0x7F = ctl packetStart ∨
      c &&& 0x7F = ctl 0) := by
  have values := isPrefix.toNat
  have low : (c &&& 0x7F).toNat = c.toNat % 128 := by
    rw [UInt8.toNat_and]
    exact Nat.and_two_pow_sub_one_eq_mod c.toNat 7
  have operands : (ctl packetEnd).toNat = 77 ∧
      (ctl packetStart).toNat = 83 ∧ (ctl 0).toNat = 64 := by decide
  rintro (same | same | same) <;>
    · rw [same] at low
      omega

/-- The prefixes that `decode()` reads behind the repeat prefix. -/
def decodePrefixed
    (p : Params)
    (d : Decoded) : Decoded :=
  let prefixed := p.parity ≠ 0 ∧ d.char = p.ebq
  let b8 : UInt8 := if prefixed then 128 else 0
  let d :=
    if prefixed then
      { d with char := peek d.rest 0 &&& 0x7F, rest := d.rest.drop 1 }
    else d
  let d :=
    if d.char = p.rCtlq then
      { d with char := unquote p (peek d.rest 0), rest := d.rest.drop 1 }
    else d
  { d with
    char := d.char ||| b8
    rpt := if d.rpt = 0 then 1 else d.rpt }

theorem decodeNext_eq
    (p : Params)
    (rpt : Nat)
    (a : UInt8)
    (inbuf : List UInt8) :
    decodeNext p rpt a inbuf = decodePrefixed p (decodeRpt p rpt a inbuf) :=
  rfl

/-- The decoder makes `back` of the bytes that the encoder emits for `c`. -/
structure ReadsChar
    (cfg : Config)
    (p p' : Params)
    (back : UInt8 → UInt8)
    (c : UInt8) : Prop where
  notRepeat : p.rptflg ≠ 0 →
    ∀ rest, encodeBytes cfg p c ≠ p.rptq :: rest
  back : ∀ (head : UInt8) (tail rest : List UInt8) (number : Nat),
    encodeBytes cfg p c = head :: tail →
    decodePrefixed p' { char := head, rpt := number, rest := tail ++ rest } =
      { char := back c, rpt := if number = 0 then 1 else number, rest := rest }

/-- A turn of the decoder makes `back` of the character of the run. -/
def ReadsRun
    (cfg : Config)
    (p p' : Params)
    (back : UInt8 → UInt8)
    (run : CharRun) : Prop :=
  ∀ rest : List UInt8,
    let inbuf := encodeRun cfg p run ++ rest
    decodeNext p' 0 (peek inbuf 0) (inbuf.drop 1) =
      { char := back run.char, rpt := run.count, rest := rest }

/-- A run is read when its character is. -/
theorem ReadsChar.run
    {cfg : Config}
    {p p' : Params}
    {back : UInt8 → UInt8}
    {run : CharRun}
    (reads : ReadsChar cfg p p' back run.char)
    (packable : Packable cfg p)
    (sameFlag : p'.rptflg = p.rptflg)
    (samePrefix : p.rptflg ≠ 0 → p'.rptq = p.rptq)
    (said : run.Said p.rptflg) :
    ReadsRun cfg p p' back run := by
  intro rest
  have some := (packable.length run.char).1
  cases shape : encodeBytes cfg p run.char with
  | nil =>
      rw [shape] at some
      exact absurd some (by decide)
  | cons head tail =>
      dsimp only
      rw [decodeNext_eq]
      by_cases once : run.count = 1
      · have field : encodeRun cfg p run = head :: tail := by
          simp [encodeRun, once, shape]
        have notRepeat : ¬ (p'.rptflg ≠ 0 ∧ head = p'.rptq) := by
          rintro ⟨flag, same⟩
          rw [sameFlag] at flag
          rw [samePrefix flag] at same
          exact reads.notRepeat flag tail (same ▸ shape)
        have read : decodeRpt p' 0 head (tail ++ rest) =
            { char := head, rpt := 0, rest := tail ++ rest } := by
          simp only [decodeRpt, if_neg notRepeat]
        rw [field, once]
        exact (congrArg _ read).trans (reads.back head tail rest 0 shape)
      · have repeated := said.resolve_left once
        have field : encodeRun cfg p run =
            p.rptq :: torepeat (uchar run.count) :: head :: tail := by
          simp [encodeRun, once, shape]
        have isRepeat : p'.rptflg ≠ 0 ∧ p.rptq = p'.rptq := by
          rw [sameFlag]
          exact ⟨repeated.1, (samePrefix repeated.1).symm⟩
        have count : (uchar (run.count : Int)).toNat = run.count := by
          rw [uchar_natCast]
          simp
          omega
        have read : decodeRpt p' 0 p.rptq
            (torepeat (uchar run.count) :: head :: (tail ++ rest)) =
            { char := head, rpt := run.count, rest := tail ++ rest } := by
          unfold decodeRpt
          rw [if_pos isRepeat]
          simp [count]
        have result := reads.back head tail rest run.count shape
        rw [if_neg (by omega : run.count ≠ 0)] at result
        rw [field]
        exact (congrArg _ read).trans result

/-- The control prefix and its operand give the character back. -/
theorem readsChar_plain
    {cfg : Config}
    {p p' : Params}
    (encoding : PlainEncoding cfg p)
    (decoding : PlainDecoding p p')
    (c : UInt8) :
    ReadsChar cfg p p' id c := by
  have encoded := encoded_encodeBytes encoding c
  constructor
  · intro flag rest shape
    have notCtrl := (encoding.rptq flag).2
    rw [shape] at encoded
    generalize shape' : p.rptq :: rest = bytes at encoded
    cases encoded with
    | control _ =>
        exact notCtrl (List.cons.inj shape').1
    | prefixed _ =>
        exact notCtrl (List.cons.inj shape').1
    | plain _ _ _ _ notRepeat =>
        exact notRepeat flag (List.cons.inj shape').1.symm
  · intro head tail rest number shape
    have noPrefix : ¬ (p'.parity ≠ 0 ∧ head = p'.ebq) := by
      intro prefixed
      exact prefixed.1 decoding.noParity
    unfold decodePrefixed
    dsimp only
    simp only [if_neg noPrefix, decoding.ctlq]
    rw [shape] at encoded
    generalize shape' : head :: tail = bytes at encoded
    cases encoded with
    | control quoted =>
        simp only [List.cons.injEq] at shape'
        obtain ⟨rfl, rfl⟩ := shape'
        have back : unquote p' (ctl c) = c := by
          unfold unquote
          rw [decoding.binary]
          rcases quoted with rfl | rfl | rfl <;> decide
        simp [back]
    | prefixed isPrefix =>
        simp only [List.cons.injEq] at shape'
        obtain ⟨rfl, rfl⟩ := shape'
        have back : unquote p' c = c := by
          unfold unquote
          rw [decoding.binary]
          rcases isPrefix with rfl | repeats
          · decide
          · exact if_neg fun quoted => repeats.notQuoted quoted.2
        simp [back]
    | plain _ _ _ notCtrl _ =>
        simp only [List.cons.injEq] at shape'
        obtain ⟨rfl, rfl⟩ := shape'
        simp [if_neg notCtrl]

theorem readsRun_plain
    {cfg : Config}
    {p p' : Params}
    (encoding : PlainEncoding cfg p)
    (decoding : PlainDecoding p p')
    {run : CharRun}
    (said : run.Said p.rptflg) :
    ReadsRun cfg p p' id run :=
  (readsChar_plain encoding decoding run.char).run encoding.packable
    decoding.rptflg decoding.rptq said

/-- The first byte of a run does not end the field. -/
theorem peek_encodeRun
    {cfg : Config}
    {p : Params}
    {run : CharRun}
    (clean : 0 ∉ encodeRun cfg p run)
    (rest : List UInt8) :
    peek (encodeRun cfg p run ++ rest) 0 ≠ 0 := by
  have some := length_encodeRun_pos cfg p run
  cases shape : encodeRun cfg p run with
  | nil =>
      rw [shape] at some
      exact absurd some (by decide)
  | cons head tail =>
      rw [shape] at clean
      exact fun zero => clean (zero ▸ List.mem_cons_self ..)

/-- The decoder makes `back` of every character of the runs. -/
theorem decodeMemLoop_encodeRuns
    {cfg : Config}
    {p p' : Params}
    {back : UInt8 → UInt8}
    {runs : List CharRun}
    (clean : ∀ run ∈ runs, 0 ∉ encodeRun cfg p run)
    (reads : ∀ run ∈ runs, ReadsRun cfg p p' back run)
    {turns : Nat}
    (enough : runs.length < turns) :
    decodeMemLoop p' turns (encodeRuns cfg p runs) =
      (expand runs).map back := by
  induction runs generalizing turns with
  | nil =>
      cases turns <;> rfl
  | cons run runs inductionHypothesis =>
      cases turns with
      | zero =>
          exact absurd enough (Nat.not_lt_zero _)
      | succ turns =>
          have read :=
            reads run (List.mem_cons_self ..) (encodeRuns cfg p runs)
          have more := inductionHypothesis
            (fun run member => clean run (List.mem_cons_of_mem _ member))
            (fun run member => reads run (List.mem_cons_of_mem _ member))
            (Nat.lt_of_succ_lt_succ enough)
          rw [encodeRuns_cons, decodeMemLoop,
            if_neg (peek_encodeRun (clean run (List.mem_cons_self ..)) _)]
          dsimp only at read ⊢
          rw [read, more, expand_cons, List.map_append, List.map_replicate]

/-- `decode()` of a field made of runs that are read back one by one. -/
theorem decodeMem_runs
    {cfg : Config}
    {p p' : Params}
    {back : UInt8 → UInt8}
    {runs : List CharRun}
    (clean : ∀ run ∈ runs, 0 ∉ encodeRun cfg p run)
    (reads : ∀ run ∈ runs, ReadsRun cfg p p' back run) :
    decodeMem p' (encodeRuns cfg p runs) = (expand runs).map back := by
  have shorter := length_le_encodeRuns cfg p runs
  exact decodeMemLoop_encodeRuns clean reads (by omega)

/-- `decode()` of a field made of runs. -/
theorem decodeMem_encodeRuns
    {cfg : Config}
    {p p' : Params}
    {back : UInt8 → UInt8}
    (packable : Packable cfg p)
    {runs : List CharRun}
    (said : ∀ run ∈ runs, run.Said p.rptflg)
    (reads : ∀ run ∈ runs, ReadsRun cfg p p' back run) :
    decodeMem p' (encodeRuns cfg p runs) = (expand runs).map back :=
  decodeMem_runs
    (fun run member => (packable.run (said run member)).2.2) reads

/-- `decode()` of a field made of runs of binary data. -/
theorem decodeMem_plain
    {cfg : Config}
    {p p' : Params}
    (encoding : PlainEncoding cfg p)
    (decoding : PlainDecoding p p')
    {runs : List CharRun}
    (said : ∀ run ∈ runs, run.Said p.rptflg) :
    decodeMem p' (encodeRuns cfg p runs) = expand runs := by
  rw [decodeMem_encodeRuns encoding.packable said
    (fun run member => readsRun_plain encoding decoding (said run member)),
    List.map_id]

end Slate106.Kermit
