import Slate106.KermitProbe

namespace Slate106.Kermit

open CBytes

/-!
# What `decode()` reads

`decode()` once more, with every read of `inbuf` recorded.  Each prefix takes
the bytes behind it without a look at them, so a field that ends inside an
escape sequence sends the loop past its NUL.
-/

variable {ω : Type}

/-! ## Recorded reads -/

namespace Probe

/-- The loop that looks for a NUL in the first bytes of the memory. -/
def readPrefix
    (count : Nat)
    (m : Probe) : List UInt8 × Probe :=
  let text := cstr (m.bytes.take count)
  (text,
    { m with
      touched := List.range (min count (text.length + 1)) ++ m.touched })

/-- The reads from one place up to another, and nothing else. -/
structure Advances
    (m : Probe)
    (place : Nat)
    (m' : Probe)
    (place' : Nat) : Prop where
  bytes : m'.bytes = m.bytes
  forward : place ≤ place'
  touched : ∀ index,
    index ∈ m'.touched ↔ index ∈ m.touched ∨ (place ≤ index ∧ index < place')

namespace Advances

theorem refl
    (m : Probe)
    (place : Nat) :
    Advances m place m place where
  bytes := rfl
  forward := Nat.le_refl place
  touched index := by
    have none : ¬ (place ≤ index ∧ index < place) := by
      omega
    simp only [none, or_false]

theorem read
    (m : Probe)
    (place : Nat) :
    Advances m place (m.read place).2 (place + 1) where
  bytes := rfl
  forward := Nat.le_succ place
  touched index := by
    have one : (place ≤ index ∧ index < place + 1) ↔ index = place := by
      omega
    rw [one, Probe.read, List.mem_cons, or_comm]

theorem trans
    {m₁ m₂ m₃ : Probe}
    {place₁ place₂ place₃ : Nat}
    (first : Advances m₁ place₁ m₂ place₂)
    (second : Advances m₂ place₂ m₃ place₃) :
    Advances m₁ place₁ m₃ place₃ where
  bytes := second.bytes.trans first.bytes
  forward := Nat.le_trans first.forward second.forward
  touched index := by
    rw [second.touched, first.touched, or_assoc]
    apply or_congr_right
    have forward₁ := first.forward
    have forward₂ := second.forward
    omega

end Advances

end Probe

/-! ## The loop with its record -/

/-- What one turn of the character loop takes, and where `inbuf` points. -/
structure Taken where
  char : UInt8
  rpt : Nat
  place : Nat
  m : Probe

/-- `decodeRpt`, read by read. -/
def probeRpt
    (p : Params)
    (rpt : Nat)
    (a : UInt8)
    (place : Nat)
    (m : Probe) : Taken :=
  if p.rptflg ≠ 0 ∧ a = p.rptq then
    let number := m.read place
    let char := number.2.read (place + 1)
    { char := char.1
      rpt := (xunrepeat number.1).toNat
      place := place + 2
      m := char.2 }
  else { char := a, rpt := rpt, place := place, m := m }

/-- `decodeNext`, read by read. -/
def probeNext
    (p : Params)
    (rpt : Nat)
    (a : UInt8)
    (place : Nat)
    (m : Probe) : Taken :=
  let d := probeRpt p rpt a place m
  let prefixed := p.parity ≠ 0 ∧ d.char = p.ebq
  let b8 : UInt8 := if prefixed then 128 else 0
  let d :=
    if prefixed then
      let a := d.m.read d.place
      { d with char := a.1 &&& 0x7F, place := d.place + 1, m := a.2 }
    else d
  let d :=
    if d.char = p.rCtlq then
      let a := d.m.read d.place
      { d with char := unquote p a.1, place := d.place + 1, m := a.2 }
    else d
  { d with
    char := d.char ||| b8
    rpt := if d.rpt = 0 then 1 else d.rpt }

/-- `decodeMemLoop`, read by read. -/
def probeMemLoop
    (p : Params) : Nat → Nat → Probe → List UInt8 × Nat × Probe
  | 0, place, m => ([], place, m)
  | n + 1, place, m =>
      let a := m.read place
      if a.1 = 0 then ([], place + 1, a.2)
      else
        let d := probeNext p 0 a.1 (place + 1) a.2
        let later := probeMemLoop p n d.place d.m
        (List.replicate d.rpt d.char ++ later.1, later.2)

/-- `decodeFileLoop`, read by read. -/
def probeFileLoop
    (io : Io ω) :
    Nat → Nat → Int → Nat → Probe → Sys ω → (Int × Sys ω) × Nat × Probe
  | 0, _, rc, place, m, s => ((rc, s), place, m)
  | n + 1, rpt, rc, place, m, s =>
      let a := m.read place
      if a.1 = 0 then ((rc, s), place + 1, a.2)
      else
        let d := probeNext s.k.par rpt a.1 (place + 1) a.2
        let out := decodeOut io d.char d.rpt rc s
        probeFileLoop io n out.2.1 out.1 d.place d.m out.2.2

/-- `decodeName`, read by read. -/
def probeName
    (inbuf : List UInt8)
    (s : Sys ω) : (Int × Sys ω) × Nat × Probe :=
  let taken := probeMemLoop s.k.par (inbuf.length + 1) 0 ⟨inbuf, []⟩
  ((xOk, { s with r.filename := taken.1 ++ [0] }), taken.2)

/-- `decodeFile`, read by read. -/
def probeFile
    (io : Io ω)
    (inbuf : List UInt8)
    (rslot : Int)
    (s : Sys ω) : (Int × Sys ω) × Nat × Probe :=
  let s := { s with log := .decodeFile :: s.log }
  let p := s.k.win.ipktinfo rslot
  let measured := Probe.readPrefix p.len.toNat ⟨inbuf, []⟩
  if (measured.1.length : Int) ≠ p.len then
    ((xError, epkt io (lit "EKSW decode len bad") s), 0, measured.2)
  else
    let text := Probe.readString measured.2
    if chk3 text.1 ≠ p.crc then
      ((xError, epkt io (lit "EKSW decode crc bad") s), 0, text.2)
    else probeFileLoop io (inbuf.length + 1) 0 xOk 0 text.2 s

/-! ## How far one turn reads -/

/-- The bytes read behind a character that may be a control prefix. -/
def operandReads
    (p : Params)
    (a : UInt8) : Nat :=
  if a = p.rCtlq then 1 else 0

/-- The bytes read behind a character that may be an 8th-bit prefix. -/
def shiftedReads
    (p : Params)
    (a : UInt8)
    (inbuf : List UInt8) : Nat :=
  if p.parity ≠ 0 ∧ a = p.ebq then
    1 + operandReads p (peek inbuf 0 &&& 0x7F)
  else operandReads p a

/-- The bytes one turn reads behind its first. -/
def turnReads
    (p : Params)
    (a : UInt8)
    (inbuf : List UInt8) : Nat :=
  if p.rptflg ≠ 0 ∧ a = p.rptq then
    2 + shiftedReads p (peek inbuf 1) (inbuf.drop 2)
  else shiftedReads p a inbuf

/-- The bytes the character loop reads, the NUL that ends it included. -/
def fieldReads
    (p : Params) : Nat → List UInt8 → Nat
  | 0, _ => 0
  | n + 1, inbuf =>
      if peek inbuf 0 = 0 then 1
      else
        let count := turnReads p (peek inbuf 0) (inbuf.drop 1)
        1 + count + fieldReads p n ((inbuf.drop 1).drop count)

/-- What the recorded turn has to do with the turn. -/
structure Follows
    (m : Probe)
    (start count : Nat)
    (t : Taken)
    (d : Decoded) : Prop where
  char : t.char = d.char
  rpt : t.rpt = d.rpt
  place : t.place = start + count
  rest : d.rest = m.bytes.drop t.place
  advances : Probe.Advances m start t.m t.place

theorem turnReads_eq
    (p : Params)
    (rpt : Nat)
    (a : UInt8)
    (inbuf : List UInt8) :
    turnReads p a inbuf =
      (if p.rptflg ≠ 0 ∧ a = p.rptq then 2 else 0) +
        shiftedReads p (decodeRpt p rpt a inbuf).char
          (decodeRpt p rpt a inbuf).rest := by
  unfold turnReads decodeRpt
  split
  · rfl
  · exact (Nat.zero_add _).symm

theorem probeRpt_follows
    (p : Params)
    (rpt : Nat)
    (a : UInt8)
    (place : Nat)
    (m : Probe) :
    Follows m place (if p.rptflg ≠ 0 ∧ a = p.rptq then 2 else 0)
      (probeRpt p rpt a place m)
      (decodeRpt p rpt a (m.bytes.drop place)) := by
  unfold probeRpt decodeRpt
  split
  · refine
      { char := (peek_drop _ _ _).symm
        rpt := ?_, place := rfl, rest := List.drop_drop
        advances := ?_ }
    · simp only [peek_drop, Nat.add_zero, Probe.read]
    · exact (Probe.Advances.read m place).trans
        (Probe.Advances.read _ (place + 1))
  · exact
      { char := rfl, rpt := rfl, place := rfl, rest := rfl,
        advances := .refl m place }

/-- One more byte read by a recorded turn. -/
theorem Follows.read
    {m : Probe}
    {start count : Nat}
    {t : Taken}
    {d : Decoded}
    (follows : Follows m start count t d) :
    (t.m.read t.place).1 = peek d.rest 0 ∧
      d.rest.drop 1 = m.bytes.drop (t.place + 1) ∧
      Probe.Advances m start (t.m.read t.place).2 (t.place + 1) := by
  refine ⟨?_, ?_, follows.advances.trans (.read t.m t.place)⟩
  · rw [follows.rest, peek_drop, ← follows.advances.bytes]
    rfl
  · rw [follows.rest, List.drop_drop]

/-- The step past an 8th-bit prefix. -/
theorem Follows.shifted
    {m : Probe}
    {start count : Nat}
    {t : Taken}
    {d : Decoded}
    (follows : Follows m start count t d)
    (p : Params) :
    Follows m start
      (count + (if p.parity ≠ 0 ∧ d.char = p.ebq then 1 else 0))
      (if p.parity ≠ 0 ∧ t.char = p.ebq then
        { t with
          char := (t.m.read t.place).1 &&& 0x7F
          place := t.place + 1
          m := (t.m.read t.place).2 }
      else t)
      (if p.parity ≠ 0 ∧ d.char = p.ebq then
        { d with char := peek d.rest 0 &&& 0x7F, rest := d.rest.drop 1 }
      else d) := by
  obtain ⟨byte, rest, advances⟩ := follows.read
  rw [follows.char]
  split
  · exact
      { char := congrArg (· &&& 0x7F) byte
        rpt := follows.rpt
        place := by rw [follows.place, Nat.add_assoc]
        rest := rest
        advances := advances }
  · exact follows

/-- The step past a control prefix. -/
theorem Follows.operand
    {m : Probe}
    {start count : Nat}
    {t : Taken}
    {d : Decoded}
    (follows : Follows m start count t d)
    (p : Params) :
    Follows m start (count + operandReads p d.char)
      (if t.char = p.rCtlq then
        { t with
          char := unquote p (t.m.read t.place).1
          place := t.place + 1
          m := (t.m.read t.place).2 }
      else t)
      (if d.char = p.rCtlq then
        { d with char := unquote p (peek d.rest 0), rest := d.rest.drop 1 }
      else d) := by
  obtain ⟨byte, rest, advances⟩ := follows.read
  unfold operandReads
  rw [follows.char]
  split
  · exact
      { char := congrArg (unquote p) byte
        rpt := follows.rpt
        place := by rw [follows.place, Nat.add_assoc]
        rest := rest
        advances := advances }
  · exact follows

/-- The recorded turn is the turn, and reads `turnReads` bytes. -/
theorem probeNext_follows
    (p : Params)
    (rpt : Nat)
    (a : UInt8)
    (place : Nat)
    (m : Probe) :
    Follows m place (turnReads p a (m.bytes.drop place))
      (probeNext p rpt a place m)
      (decodeNext p rpt a (m.bytes.drop place)) := by
  have base := probeRpt_follows p rpt a place m
  have shifted := base.shifted p
  have whole := shifted.operand p
  have char :
      (probeRpt p rpt a place m).char =
        (decodeRpt p rpt a (m.bytes.drop place)).char :=
    base.char
  refine
    { char := ?_, rpt := ?_, place := ?_, rest := whole.rest
      advances := whole.advances }
  · have same := whole.char
    simp only [probeNext, decodeNext, char] at same ⊢
    rw [same]
  · have same := whole.rpt
    simp only [probeNext, decodeNext] at same ⊢
    rw [same]
  · refine whole.place.trans ?_
    rw [turnReads_eq p rpt, shiftedReads]
    by_cases eighth :
      p.parity ≠ 0 ∧ (decodeRpt p rpt a (m.bytes.drop place)).char = p.ebq
    · simp only [if_pos eighth, Nat.add_assoc]
    · simp only [if_neg eighth, Nat.add_zero]

/-! ## The record changes nothing -/

/-- What a loop has read from one place up to another. -/
structure Walked
    (p : Params)
    (turns : Nat)
    (m : Probe)
    (start stop : Nat)
    (m' : Probe) : Prop where
  reads : stop = start + fieldReads p turns (m.bytes.drop start)
  advances : Probe.Advances m start m' stop

theorem Walked.ended
    {p : Params}
    {m : Probe}
    {start : Nat}
    (nul : (m.read start).1 = 0)
    (turns : Nat) :
    Walked p (turns + 1) m start (start + 1) (m.read start).2 where
  reads := by
    have zero : peek (m.bytes.drop start) 0 = 0 :=
      (peek_drop _ _ _).trans nul
    rw [fieldReads, if_pos zero]
  advances := .read m start

theorem Walked.turn
    {p : Params}
    {turns start stop : Nat}
    {m m' : Probe}
    {t : Taken}
    {d : Decoded}
    (more : (m.read start).1 ≠ 0)
    (follows :
      Follows (m.read start).2 (start + 1)
        (turnReads p (m.read start).1 (m.bytes.drop (start + 1))) t d)
    (later : Walked p turns t.m t.place stop m') :
    Walked p (turns + 1) m start stop m' where
  reads := by
    have byte : peek (m.bytes.drop start) 0 = (m.read start).1 :=
      peek_drop _ _ _
    have bytes : t.m.bytes = m.bytes := follows.advances.bytes
    rw [later.reads, bytes, follows.place, fieldReads, byte, if_neg more]
    simp only [List.drop_drop]
    omega
  advances :=
    ((Probe.Advances.read m start).trans follows.advances).trans
      later.advances

theorem probeMemLoop_walked
    (p : Params)
    (turns start : Nat)
    (m : Probe) :
    (probeMemLoop p turns start m).1 =
        decodeMemLoop p turns (m.bytes.drop start) ∧
      Walked p turns m start (probeMemLoop p turns start m).2.1
        (probeMemLoop p turns start m).2.2 := by
  induction turns generalizing start m with
  | zero =>
      exact ⟨rfl, rfl, .refl m start⟩
  | succ turns inductionHypothesis =>
      have byte : peek (m.bytes.drop start) 0 = (m.read start).1 :=
        peek_drop _ _ _
      unfold probeMemLoop decodeMemLoop
      dsimp only
      rw [byte, List.drop_drop]
      split
      · rename_i zero
        exact ⟨rfl, .ended zero turns⟩
      · rename_i more
        have follows :=
          probeNext_follows p 0 (m.read start).1 (start + 1)
            (m.read start).2
        generalize probeNext p 0 (m.read start).1 (start + 1)
          (m.read start).2 = t at follows ⊢
        obtain ⟨same, walked⟩ := inductionHypothesis t.place t.m
        refine ⟨?_, .turn more follows walked⟩
        rw [same, follows.char, follows.rpt, follows.advances.bytes,
          ← follows.rest, Probe.bytes_read]

@[simp] theorem decodeOut_par
    (io : Io ω)
    (a : UInt8)
    (rpt : Nat)
    (rc : Int)
    (s : Sys ω) :
    (decodeOut io a rpt rc s).2.2.k.par = s.k.par := by
  induction rpt generalizing rc s with
  | zero =>
      rfl
  | succ rpt inductionHypothesis =>
      unfold decodeOut
      dsimp only
      split
      · split
        · rfl
        · exact inductionHypothesis _ _
      · exact inductionHypothesis _ _

theorem probeFileLoop_walked
    (io : Io ω)
    (turns rpt : Nat)
    (rc : Int)
    (start : Nat)
    (m : Probe)
    (s : Sys ω) :
    (probeFileLoop io turns rpt rc start m s).1 =
        decodeFileLoop io turns rpt rc (m.bytes.drop start) s ∧
      Walked s.k.par turns m start
        (probeFileLoop io turns rpt rc start m s).2.1
        (probeFileLoop io turns rpt rc start m s).2.2 := by
  induction turns generalizing rpt rc start m s with
  | zero =>
      exact ⟨rfl, rfl, .refl m start⟩
  | succ turns inductionHypothesis =>
      have byte : peek (m.bytes.drop start) 0 = (m.read start).1 :=
        peek_drop _ _ _
      unfold probeFileLoop decodeFileLoop
      dsimp only
      rw [byte, List.drop_drop]
      split
      · rename_i zero
        exact ⟨rfl, .ended zero turns⟩
      · rename_i more
        have follows :=
          probeNext_follows s.k.par rpt (m.read start).1 (start + 1)
            (m.read start).2
        rw [Probe.bytes_read] at follows
        generalize probeNext s.k.par rpt (m.read start).1 (start + 1)
          (m.read start).2 = t at follows ⊢
        obtain ⟨same, walked⟩ :=
          inductionHypothesis (decodeOut io t.char t.rpt rc s).2.1
            (decodeOut io t.char t.rpt rc s).1 t.place t.m
            (decodeOut io t.char t.rpt rc s).2.2
        rw [decodeOut_par] at walked
        refine ⟨?_, .turn more follows walked⟩
        have rest := follows.rest
        rw [Probe.bytes_read] at rest
        rw [same, follows.advances.bytes, Probe.bytes_read, rest,
          ← follows.char, ← follows.rpt]

/-! ## Fields that no escape sequence leaves -/

/-- What stands behind a character that may be a control prefix. -/
inductive Operand
    (p : Params) : UInt8 → List UInt8 → Prop where
  | plain
      {seen : UInt8}
      (plain : seen ≠ p.rCtlq) :
      Operand p seen []
  | control
      (x : UInt8) :
      Operand p p.rCtlq [x]

/-- What stands behind a character that may be an 8th-bit prefix. -/
inductive Shifted
    (p : Params) : UInt8 → List UInt8 → Prop where
  | plain
      {a : UInt8}
      {tail : List UInt8}
      (plain : ¬ (p.parity ≠ 0 ∧ a = p.ebq))
      (operand : Operand p a tail) :
      Shifted p a tail
  | eighth
      {x : UInt8}
      {tail : List UInt8}
      (parity : p.parity ≠ 0)
      (operand : Operand p (x &&& 0x7F) tail) :
      Shifted p p.ebq (x :: tail)

/-- What stands behind the first character of a turn. -/
inductive Turn
    (p : Params) : UInt8 → List UInt8 → Prop where
  | once
      {a : UInt8}
      {tail : List UInt8}
      (plain : ¬ (p.rptflg ≠ 0 ∧ a = p.rptq))
      (shifted : Shifted p a tail) :
      Turn p a tail
  | repeated
      {count x : UInt8}
      {tail : List UInt8}
      (flag : p.rptflg ≠ 0)
      (shifted : Shifted p x tail) :
      Turn p p.rptq (count :: x :: tail)

/--
The field is a row of whole turns: the count and the character behind a repeat
prefix, the character behind an 8th-bit prefix and the operand of a control
prefix all stand before its end.
-/
inductive CompleteField
    (p : Params) : List UInt8 → Prop where
  | nil : CompleteField p []
  | turn
      {a : UInt8}
      {tail rest : List UInt8}
      (turn : Turn p a tail)
      (later : CompleteField p rest) :
      CompleteField p (a :: (tail ++ rest))

theorem Operand.reads
    {p : Params}
    {a : UInt8}
    {tail : List UInt8}
    (operand : Operand p a tail) :
    operandReads p a = tail.length := by
  cases operand with
  | plain plain =>
      exact if_neg plain
  | control x =>
      exact if_pos rfl

theorem Shifted.reads
    {p : Params}
    {a : UInt8}
    {tail : List UInt8}
    (shifted : Shifted p a tail)
    (rest : List UInt8) :
    shiftedReads p a (tail ++ rest) = tail.length := by
  unfold shiftedReads
  cases shifted with
  | plain plain operand =>
      rw [if_neg plain, operand.reads]
  | eighth parity operand =>
      rw [if_pos ⟨parity, rfl⟩, List.cons_append, peek_cons_zero,
        operand.reads, List.length_cons, Nat.add_comm]

theorem Turn.reads
    {p : Params}
    {a : UInt8}
    {tail : List UInt8}
    (turn : Turn p a tail)
    (rest : List UInt8) :
    turnReads p a (tail ++ rest) = tail.length := by
  unfold turnReads
  cases turn with
  | once plain shifted =>
      rw [if_neg plain, shifted.reads]
  | repeated flag shifted =>
      rw [if_pos ⟨flag, rfl⟩]
      simp only [List.cons_append, peek_cons_succ, peek_cons_zero,
        List.drop_succ_cons, List.drop_zero, shifted.reads,
        List.length_cons]
      omega

theorem operand_of_reads
    {p : Params}
    {a : UInt8}
    {text : List UInt8}
    (inside : operandReads p a ≤ text.length) :
    Operand p a (text.take (operandReads p a)) := by
  unfold operandReads at inside ⊢
  split
  · rename_i control
    rw [if_pos control] at inside
    cases text with
    | nil =>
        exact absurd inside (by decide)
    | cons x text =>
        rw [control]
        exact .control x
  · rename_i plain
    exact .plain plain

theorem shifted_of_reads
    {p : Params}
    {a : UInt8}
    {text : List UInt8}
    (beyond : List UInt8)
    (inside : shiftedReads p a (text ++ beyond) ≤ text.length) :
    Shifted p a (text.take (shiftedReads p a (text ++ beyond))) := by
  unfold shiftedReads at inside ⊢
  split
  · rename_i eighth
    rw [if_pos eighth] at inside
    cases text with
    | nil =>
        rw [List.length_nil] at inside
        omega
    | cons x text =>
        rw [List.cons_append, peek_cons_zero, List.length_cons] at inside
        rw [List.cons_append, peek_cons_zero, Nat.add_comm,
          List.take_succ_cons, eighth.2]
        exact .eighth eighth.1 (operand_of_reads (by omega))
  · rename_i plain
    rw [if_neg plain] at inside
    exact .plain plain (operand_of_reads inside)

theorem turn_of_reads
    {p : Params}
    {a : UInt8}
    {text : List UInt8}
    (beyond : List UInt8)
    (inside : turnReads p a (text ++ beyond) ≤ text.length) :
    Turn p a (text.take (turnReads p a (text ++ beyond))) := by
  unfold turnReads at inside ⊢
  split
  · rename_i repeated
    rw [if_pos repeated] at inside
    rcases text with _ | ⟨count, _ | ⟨x, text⟩⟩
    · rw [List.length_nil] at inside
      omega
    · rw [List.length_singleton] at inside
      omega
    · simp only [List.cons_append, peek_cons_succ, peek_cons_zero,
        List.drop_succ_cons, List.drop_zero, List.length_cons] at inside ⊢
      rw [Nat.add_comm, List.take_succ_cons, List.take_succ_cons,
        repeated.2]
      exact .repeated repeated.1 (shifted_of_reads beyond (by omega))
  · rename_i plain
    rw [if_neg plain] at inside
    exact .once plain (shifted_of_reads beyond inside)

/-- The loop reads at least the byte it stops at. -/
theorem fieldReads_pos
    {p : Params}
    {turns : Nat}
    (some : 0 < turns)
    (inbuf : List UInt8) :
    0 < fieldReads p turns inbuf := by
  cases turns with
  | zero =>
      exact absurd some (Nat.lt_irrefl 0)
  | succ turns =>
      unfold fieldReads
      split
      · exact Nat.one_pos
      · dsimp only
        omega

/-- The loop stops right behind the NUL of its field. -/
theorem fieldReads_iff
    {p : Params}
    {field : List UInt8}
    (noNul : 0 ∉ field)
    (beyond : List UInt8)
    {turns : Nat}
    (enough : field.length < turns) :
    fieldReads p turns (field ++ 0 :: beyond) = field.length + 1 ↔
      CompleteField p field := by
  -- By the length of the field: a turn leaves a shorter one.
  induction turns generalizing field with
  | zero =>
      exact absurd enough (Nat.not_lt_zero _)
  | succ turns inductionHypothesis =>
      cases field with
      | nil =>
          refine iff_of_true ?_ .nil
          rw [fieldReads, List.nil_append, peek_cons_zero, if_pos rfl]
          rfl
      | cons a text =>
          simp only [List.mem_cons, not_or] at noNul
          rw [List.length_cons] at enough
          have unfolded :
              fieldReads p (turns + 1) (a :: text ++ 0 :: beyond) =
                1 + turnReads p a (text ++ 0 :: beyond) +
                  fieldReads p turns ((text ++ 0 :: beyond).drop
                    (turnReads p a (text ++ 0 :: beyond))) := by
            rw [fieldReads, List.cons_append, peek_cons_zero,
              if_neg (Ne.symm noNul.1)]
            rfl
          rw [unfolded, List.length_cons]
          constructor
          · intro total
            have next :=
              @fieldReads_pos p turns (by omega) ((text ++ 0 :: beyond).drop
                (turnReads p a (text ++ 0 :: beyond)))
            have inside :
                turnReads p a (text ++ 0 :: beyond) ≤ text.length := by
              omega
            have turn := turn_of_reads (0 :: beyond) inside
            generalize turnReads p a (text ++ 0 :: beyond) = count at *
            rw [List.drop_append_of_le_length inside] at total
            have shorter : (text.drop count).length = text.length - count :=
              List.length_drop
            have later : CompleteField p (text.drop count) := by
              have noNul' : 0 ∉ text.drop count :=
                fun member => noNul.2 (List.mem_of_mem_drop member)
              apply (inductionHypothesis noNul' (by omega)).mp
              omega
            have whole := CompleteField.turn turn later
            rwa [List.take_append_drop] at whole
          · intro complete
            generalize shape : a :: text = field at complete
            cases complete with
            | nil =>
                cases shape
            | @turn _ tail rest turn later =>
                cases shape
                rw [List.append_assoc, turn.reads, List.drop_left]
                rw [List.mem_append, not_or] at noNul
                rw [List.length_append] at enough ⊢
                have read :=
                  (inductionHypothesis noNul.2.2 (by omega)).mpr later
                omega

/-! ## Reading the field and nothing else -/

/--
No read of `inbuf` lies behind the NUL of the field, and the pointer stops
right behind that NUL.
-/
def ReadsFieldOnly
    (field : List UInt8)
    (reads : Nat × Probe) : Prop :=
  (∀ index ∈ reads.2.touched, index ≤ field.length) ∧
    reads.1 = field.length + 1

/-- The length and the check of the slot do not speak against the field. -/
structure SlotMatches
    (slot : Packet)
    (field : List UInt8) : Prop where
  least : 0 ≤ slot.len
  most : slot.len ≤ field.length
  crc : chk3 field = slot.crc

/-- What the tests before the loop say about a slot. -/
theorem slotMatches_iff
    {field : List UInt8}
    (noNul : 0 ∉ field)
    (beyond : List UInt8)
    (slot : Packet) :
    SlotMatches slot field ↔
      ((cstr ((field ++ 0 :: beyond).take slot.len.toNat)).length : Int) =
          slot.len ∧
        chk3 (cstr (field ++ 0 :: beyond)) = slot.crc := by
  rw [cstr_take, cstr_append_zero noNul, List.length_take]
  constructor
  · rintro ⟨least, most, crc⟩
    exact ⟨by omega, crc⟩
  · rintro ⟨len, crc⟩
    exact ⟨by omega, by omega, crc⟩

/-- A slot matches the packet that was stored in it. -/
theorem slotMatches_storeRslot
    (rslot rseq : Int)
    {pbuf : List UInt8}
    (k : KData) :
    SlotMatches ((storeRslot rslot rseq pbuf k).win.ipktinfo rslot)
      (cstr pbuf) where
  least := by
    simp [storeRslot, put]
  most := by
    simp [storeRslot, put, Nat.min_le_right]
  crc := by
    simp [storeRslot, put]

theorem Walked.readsOnly_iff
    {p : Params}
    {field beyond : List UInt8}
    {m m' : Probe}
    {turns stop : Nat}
    (walked : Walked p turns m 0 stop m')
    (memory : m.bytes = field ++ 0 :: beyond)
    (earlier : ∀ index ∈ m.touched, index ≤ field.length)
    (noNul : 0 ∉ field)
    (enough : field.length < turns) :
    ReadsFieldOnly field (stop, m') ↔ CompleteField p field := by
  have stops : stop = fieldReads p turns (field ++ 0 :: beyond) := by
    rw [walked.reads, memory, List.drop_zero, Nat.zero_add]
  rw [← fieldReads_iff noNul beyond enough, ← stops]
  constructor
  · exact fun reads => reads.2
  · intro right
    refine ⟨fun index member => ?_, right⟩
    rcases (walked.advances.touched index).mp member with before | within
    · exact earlier index before
    · omega

/-- The search for a NUL looks no further than the NUL of the field. -/
theorem readPrefix_inside
    {field : List UInt8}
    (noNul : 0 ∉ field)
    {beyond : List UInt8}
    {count index : Nat}
    (member :
      index ∈
        (Probe.readPrefix count ⟨field ++ 0 :: beyond, []⟩).2.touched) :
    index ≤ field.length := by
  simp only [Probe.readPrefix, List.append_nil, List.mem_range, cstr_take,
    cstr_append_zero noNul, List.length_take] at member
  omega

/-- What the tests before the loop make of the slot. -/
theorem probeFile_cases
    (io : Io ω)
    {field : List UInt8}
    (noNul : 0 ∉ field)
    (beyond : List UInt8)
    (rslot : Int)
    (s : Sys ω) :
    (SlotMatches (s.k.win.ipktinfo rslot) field ∧
      ∃ m : Probe,
        m.bytes = field ++ 0 :: beyond ∧
        (∀ index ∈ m.touched, index ≤ field.length) ∧
        probeFile io (field ++ 0 :: beyond) rslot s =
          probeFileLoop io ((field ++ 0 :: beyond).length + 1) 0 xOk 0 m
            { s with log := .decodeFile :: s.log } ∧
        decodeFile io (field ++ 0 :: beyond) rslot s =
          decodeFileLoop io ((field ++ 0 :: beyond).length + 1) 0 xOk
            (field ++ 0 :: beyond) { s with log := .decodeFile :: s.log }) ∨
    (¬ SlotMatches (s.k.win.ipktinfo rslot) field ∧
      (probeFile io (field ++ 0 :: beyond) rslot s).1 =
        decodeFile io (field ++ 0 :: beyond) rslot s ∧
      (decodeFile io (field ++ 0 :: beyond) rslot s).1 = xError ∧
      ∀ index ∈ (probeFile io (field ++ 0 :: beyond) rslot s).2.2.touched,
        index ≤ field.length) := by
  have searched (count index : Nat) :=
    @readPrefix_inside field noNul beyond count index
  have scanned (count : Nat) :
      ∀ index ∈
        (Probe.readString
          (Probe.readPrefix count ⟨field ++ 0 :: beyond, []⟩).2).2.touched,
        index ≤ field.length := by
    intro index member
    rcases List.mem_append.mp member with below | earlier
    · have text :
          cstr (Probe.readPrefix count ⟨field ++ 0 :: beyond, []⟩).2.bytes =
            field :=
        cstr_append_zero noNul beyond
      rw [List.mem_range, text] at below
      omega
    · exact searched count index earlier
  rw [slotMatches_iff noNul beyond]
  unfold probeFile decodeFile
  dsimp only [Probe.readPrefix, Probe.readString] at searched scanned ⊢
  by_cases len :
      ((cstr ((field ++ 0 :: beyond).take
        (s.k.win.ipktinfo rslot).len.toNat)).length : Int) =
        (s.k.win.ipktinfo rslot).len
  · simp only [len, ne_eq, not_true_eq_false, if_false, true_and]
    by_cases crc :
        chk3 (cstr (field ++ 0 :: beyond)) = (s.k.win.ipktinfo rslot).crc
    · simp only [crc, not_true_eq_false, if_false]
      exact Or.inl
        ⟨trivial, ⟨field ++ 0 :: beyond, _⟩, rfl, scanned _, rfl, trivial⟩
    · simp only [crc, not_false_eq_true, if_true]
      exact Or.inr ⟨trivial, trivial, trivial, scanned _⟩
  · simp only [len, ne_eq, not_false_eq_true, if_true, false_and]
    exact Or.inr ⟨trivial, trivial, trivial, searched _⟩

/--
Decoding a file name or a command and decoding file data read their field and
nothing else exactly when no escape sequence is cut by its end.
-/
theorem decode_reads_field_iff
    (io : Io ω)
    {field : List UInt8}
    (noNul : 0 ∉ field)
    (beyond : List UInt8)
    (rslot : Int)
    (s : Sys ω) :
    (probeName (field ++ 0 :: beyond) s).1 =
        decodeName (field ++ 0 :: beyond) s ∧
      (ReadsFieldOnly field (probeName (field ++ 0 :: beyond) s).2 ↔
        CompleteField s.k.par field) ∧
      (probeFile io (field ++ 0 :: beyond) rslot s).1 =
        decodeFile io (field ++ 0 :: beyond) rslot s ∧
      (SlotMatches (s.k.win.ipktinfo rslot) field →
        (ReadsFieldOnly field (probeFile io (field ++ 0 :: beyond) rslot s).2 ↔
          CompleteField s.k.par field)) ∧
      (¬ SlotMatches (s.k.win.ipktinfo rslot) field →
        (decodeFile io (field ++ 0 :: beyond) rslot s).1 = xError ∧
        ∀ index ∈ (probeFile io (field ++ 0 :: beyond) rslot s).2.2.touched,
          index ≤ field.length) := by
  have enough : field.length < (field ++ 0 :: beyond).length + 1 := by
    rw [List.length_append]
    omega
  obtain ⟨sameName, name⟩ :=
    probeMemLoop_walked s.k.par ((field ++ 0 :: beyond).length + 1) 0
      ⟨field ++ 0 :: beyond, []⟩
  refine ⟨?_, name.readsOnly_iff rfl (by simp) noNul enough, ?_⟩
  · rw [probeName, sameName]
    rfl
  rcases probeFile_cases io noNul beyond rslot s with
    ⟨matching, m, memory, earlier, probed, decoded⟩ |
      ⟨different, same, failed, inside⟩
  · obtain ⟨sameFile, file⟩ :=
      probeFileLoop_walked io ((field ++ 0 :: beyond).length + 1) 0 xOk 0 m
        { s with log := .decodeFile :: s.log }
    rw [memory, List.drop_zero] at sameFile
    rw [probed, decoded]
    exact ⟨sameFile,
      fun _ => file.readsOnly_iff memory earlier noNul enough,
      fun different => absurd matching different⟩
  · exact ⟨same, fun matching => absurd matching different,
      fun _ => ⟨failed, inside⟩⟩

/-- A server that has just been initialised decodes the name `f`. -/
theorem decode_reads_field_iff_plain :
    (probeName ([0x66] ++ 0 :: [0x41]) (freshSys 0)).1 =
        decodeName ([0x66] ++ 0 :: [0x41]) (freshSys 0) ∧
      (ReadsFieldOnly [0x66] (probeName ([0x66] ++ 0 :: [0x41]) (freshSys 0)).2 ↔
        CompleteField (freshSys 0).k.par [0x66]) ∧
      (probeFile (unixio idleOs) ([0x66] ++ 0 :: [0x41]) 0 (freshSys 0)).1 =
        decodeFile (unixio idleOs) ([0x66] ++ 0 :: [0x41]) 0 (freshSys 0) ∧
      (SlotMatches ((freshSys 0).k.win.ipktinfo 0) [0x66] →
        (ReadsFieldOnly [0x66]
            (probeFile (unixio idleOs) ([0x66] ++ 0 :: [0x41]) 0
              (freshSys 0)).2 ↔
          CompleteField (freshSys 0).k.par [0x66])) ∧
      (¬ SlotMatches ((freshSys 0).k.win.ipktinfo 0) [0x66] →
        (decodeFile (unixio idleOs) ([0x66] ++ 0 :: [0x41]) 0
            (freshSys 0)).1 = xError ∧
        ∀ index ∈
          (probeFile (unixio idleOs) ([0x66] ++ 0 :: [0x41]) 0
            (freshSys 0)).2.2.touched,
          index ≤ [0x66].length) :=
  decode_reads_field_iff (unixio idleOs) (by decide) [0x41] 0 (freshSys 0)

/--
A GET for `f#`: the control prefix takes the NUL for its operand, and the loop
goes on with what an earlier packet left behind it.
-/
theorem cut_escape_reads_on :
    (freshSys 0).k.par.rCtlq = ch '#' ∧
      0 ∉ lit "f#" ∧
      3 ∈ (probeName (lit "f#" ++ 0 :: lit "old") (freshSys 0)).2.2.touched ∧
      (decodeName (lit "f#" ++ 0 :: lit "old") (freshSys 0)).2.r.filename =
        [ch 'f', 0, ch 'o', ch 'l', ch 'd', 0] ∧
      ¬ ReadsFieldOnly (lit "f#")
        (probeName (lit "f#" ++ 0 :: lit "old") (freshSys 0)).2 := by
  have beyond :
      3 ∈
        (probeName (lit "f#" ++ 0 :: lit "old") (freshSys 0)).2.2.touched := by
    decide +kernel
  refine ⟨by decide, by decide, beyond, by decide +kernel, fun reads => ?_⟩
  exact absurd (reads.1 3 beyond) (by decide)

end Slate106.Kermit
