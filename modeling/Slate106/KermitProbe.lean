import Slate106.KermitBlockChecks
import Slate106.KermitDeclared

namespace Slate106.Kermit

open CBytes

/-!
# The indices of `ipktbuf`

The packet parser once more, with every access to `ipktbuf` recorded.  Without
the record it is the parser; with it, the places outside the array show.
-/

/-! ## Recorded memory -/

/-- The contents of `ipktbuf`, and the indices that were read or written. -/
structure Probe where
  bytes : List UInt8
  touched : List Nat

namespace Probe

/-- Every access so far was inside `ipktbuf`. -/
def Inside
    (m : Probe) : Prop :=
  ∀ index ∈ m.touched, index < pBuflen

/-- `ipktbuf[index]`. -/
def read
    (index : Nat)
    (m : Probe) : UInt8 × Probe :=
  (peek m.bytes index, { m with touched := index :: m.touched })

/-- `ipktbuf[index] = byte`. -/
def write
    (index : Nat)
    (byte : UInt8)
    (m : Probe) : Probe where
  bytes := poke m.bytes index [byte]
  touched := index :: m.touched

/-- Consecutive reads. -/
def readAll
    (index : Nat) : Nat → Probe → List UInt8 × Probe
  | 0, m => ([], m)
  | count + 1, m =>
      let first := read index m
      let others := readAll (index + 1) count first.2
      (first.1 :: others.1, others.2)

/-- Consecutive writes. -/
def writeAll
    (index : Nat) : List UInt8 → Probe → Probe
  | [], m => m
  | byte :: bytes, m => writeAll (index + 1) bytes (write index byte m)

/-- The loop over the string at the start of `ipktbuf`, with its NUL. -/
def readString
    (m : Probe) : List UInt8 × Probe :=
  (cstr m.bytes,
    { m with
      touched := List.range ((cstr m.bytes).length + 1) ++ m.touched })

@[simp] theorem inside_read_iff
    (index : Nat)
    (m : Probe) :
    (read index m).2.Inside ↔ index < pBuflen ∧ m.Inside := by
  simp [read, Inside]

@[simp] theorem bytes_read
    (index : Nat)
    (m : Probe) :
    (read index m).2.bytes = m.bytes :=
  rfl

@[simp] theorem inside_write_iff
    (index : Nat)
    (byte : UInt8)
    (m : Probe) :
    (write index byte m).Inside ↔ index < pBuflen ∧ m.Inside := by
  simp [write, Inside]

@[simp] theorem bytes_write
    (index : Nat)
    (byte : UInt8)
    (m : Probe) :
    (write index byte m).bytes = poke m.bytes index [byte] :=
  rfl

@[simp] theorem inside_readString_iff
    (m : Probe) :
    (readString m).2.Inside ↔
      (cstr m.bytes).length < pBuflen ∧ m.Inside := by
  simp only [readString, Inside, List.mem_append, List.mem_range]
  constructor
  · intro inside
    exact ⟨inside _ (Or.inl (Nat.lt_succ_self _)),
      fun index member => inside index (Or.inr member)⟩
  · rintro ⟨short, earlier⟩ index (below | member)
    · omega
    · exact earlier index member

@[simp] theorem bytes_readString
    (m : Probe) :
    (readString m).2.bytes = m.bytes :=
  rfl

@[simp] theorem bytes_readAll
    (index count : Nat)
    (m : Probe) :
    (readAll index count m).2.bytes = m.bytes := by
  induction count generalizing index m with
  | zero =>
      rfl
  | succ count inductionHypothesis =>
      exact inductionHypothesis (index + 1) (read index m).2

theorem fst_readAll
    (index count : Nat)
    (m : Probe) :
    (readAll index count m).1 = slice m.bytes index count := by
  induction count generalizing index m with
  | zero =>
      rfl
  | succ count inductionHypothesis =>
      have later := inductionHypothesis (index + 1) (read index m).2
      simp only [readAll, later, bytes_read]
      simp [slice, List.range_succ_eq_map, read, Function.comp_def,
        Nat.add_comm, Nat.add_left_comm]

/-- Consecutive reads stay inside when the last one does. -/
theorem inside_readAll_iff
    {index count : Nat}
    (some : 0 < count)
    (m : Probe) :
    (readAll index count m).2.Inside ↔
      index + count ≤ pBuflen ∧ m.Inside := by
  induction count generalizing index m with
  | zero =>
      exact absurd some (Nat.lt_irrefl 0)
  | succ count inductionHypothesis =>
      cases count with
      | zero =>
          exact inside_read_iff index m
      | succ count =>
          have later :=
            @inductionHypothesis (index + 1)
              (Nat.succ_pos count) (read index m).2
          rw [inside_read_iff] at later
          refine later.trans ?_
          constructor
          · rintro ⟨below, -, inside⟩
            exact ⟨by omega, inside⟩
          · rintro ⟨below, inside⟩
            exact ⟨by omega, by omega, inside⟩

/-- Consecutive writes stay inside when there is room for all. -/
theorem inside_writeAll
    {index : Nat}
    {bytes : List UInt8}
    {m : Probe}
    (inside : m.Inside)
    (room : index + bytes.length ≤ pBuflen) :
    (writeAll index bytes m).Inside := by
  induction bytes generalizing index m with
  | nil =>
      exact inside
  | cons byte bytes inductionHypothesis =>
      rw [List.length_cons] at room
      apply inductionHypothesis
      · rw [inside_write_iff]
        exact ⟨by omega, inside⟩
      · omega

theorem inside_of_writeAll
    {index : Nat}
    {bytes : List UInt8}
    {m : Probe}
    (inside : (writeAll index bytes m).Inside) :
    m.Inside := by
  induction bytes generalizing index m with
  | nil =>
      exact inside
  | cons byte bytes inductionHypothesis =>
      have earlier := inductionHypothesis inside
      rw [inside_write_iff] at earlier
      exact earlier.2

theorem bytes_writeAll
    {index : Nat}
    {bytes : List UInt8}
    (some : bytes ≠ [])
    (m : Probe) :
    (writeAll index bytes m).bytes = poke m.bytes index bytes := by
  induction bytes generalizing index m with
  | nil =>
      exact absurd rfl some
  | cons byte bytes inductionHypothesis =>
      cases bytes with
      | nil =>
          rfl
      | cons second bytes =>
          rw [writeAll,
            inductionHypothesis (List.cons_ne_nil second bytes),
            bytes_write, poke_cons]

end Probe

/-! ## The parser with its record -/

/-- `parseCheck`, access by access. -/
def probeCheck
    (chklen datalen : Nat)
    (p : Rcvd)
    (m : Probe) : Parsed × Probe :=
  let place := p.pdf + datalen
  let copied := Probe.readAll place chklen m
  let pbc := copied.1
  let text := Probe.readString (Probe.write place 0 copied.2)
  if blockOk chklen pbc text.1 then (.good p text.2.bytes, text.2)
  else if (chklen = 2 ∨ chklen = 3) ∧ p.rtyp = ch 'E' then
    let text :=
      Probe.readString
        (Probe.writeAll place (pbc.take (chklen - 1) ++ [0]) text.2)
    if (xunchar (peek pbc (chklen - 1))).toNat = chk1 text.1 then
      (.good p text.2.bytes, text.2)
    else
      let m := Probe.write place 0 text.2
      (.badCheck m.bytes, m)
  else (.badCheck text.2.bytes, text.2)

/-- `parseLengths`, access by access. -/
def probeLengths
    (k : KData)
    (rlen : UInt8)
    (p : Rcvd)
    (m : Probe) : Parsed × Probe :=
  let chklen := chkLength k p.rtyp
  let datalen := dataLength k rlen p
  if datalen < 0 ∨ datalen + chklen + 1 ≥ pBuflen then (.badLength, m)
  else probeCheck chklen datalen.toNat { p with datalen := datalen } m

/-- The part of the parser for an extended header, access by access. -/
def probeExtended
    (k : KData)
    (rtyp : UInt8)
    (rseq : Int)
    (m : Probe) : Parsed × Probe :=
  let bct : Int := if k.cfg.bcta3 ≠ 0 then 3 else k.par.bct
  let sum := Probe.read 5 m
  let text := Probe.readString (Probe.write 5 0 sum.2)
  if (xunchar sum.1).toNat ≠ chk1 text.1 then
    (.badHeader text.2.bytes, text.2)
  else
    let high := Probe.read 3 (Probe.write 5 sum.1 text.2)
    let low := Probe.read 4 high.2
    let datalen : Int :=
      (xunchar high.1).toNat * 95 + (xunchar low.1).toNat - bct
    probeLengths k 0
      { rtyp := rtyp, rseq := rseq, pdf := 6, datalen := datalen,
        ackText := cancelText k }
      low.2

/-- The parser from the test of the sequence number on, access by access. -/
def probeHeader
    (k : KData)
    (rlen rtyp : UInt8)
    (rseq : Int)
    (m : Probe) : Parsed × Probe :=
  let bct : Int := if k.cfg.bcta3 ≠ 0 then 3 else k.par.bct
  if rseq < 0 ∨ rseq > 63 then (.tossed, m)
  else if k.what = .recv ∧ (rtyp = ch 'N' ∨ rtyp = ch 'Y') then (.tossed, m)
  else if rlen = 0 then probeExtended k rtyp rseq m
  else
    probeLengths k rlen
      { rtyp := rtyp, rseq := rseq, pdf := 3,
        datalen := (rlen.toNat : Int) - bct - 2, ackText := cancelText k }
      m

/-- The packet parser, access by access. -/
def probeParse
    (k : KData)
    (len : Int)
    (m : Probe) : Parsed × Probe :=
  let length := Probe.read 0 m
  let number := Probe.read 1 length.2
  let type := Probe.read 2 number.2
  let rlen := xunchar length.1
  let rseq : Int := (xunchar number.1).toNat
  let rtyp := type.1
  if k.state = .sEot ∧ len = 4 ∧ rseq = 0 ∧ rtyp = ch 'N' then
    let fourth := Probe.read 3 type.2
    if fourth.1 = 0x33 then (.shortcut, fourth.2)
    else probeHeader k rlen rtyp rseq fourth.2
  else probeHeader k rlen rtyp rseq type.2

/-! ## The record changes nothing -/

theorem fst_probeCheck
    (chklen datalen : Nat)
    (p : Rcvd)
    (m : Probe) :
    (probeCheck chklen datalen p m).1 =
      parseCheck chklen datalen p m.bytes := by
  have written (pbc : List UInt8) :
      pbc.take (chklen - 1) ++ [0] ≠ ([] : List UInt8) := by
    simp
  unfold probeCheck parseCheck errorRetryBuf
  dsimp only
  simp only [Probe.fst_readAll, takeD_drop_eq_slice, Probe.readString,
    Probe.bytes_write, Probe.bytes_readAll,
    Probe.bytes_writeAll (written _)]
  split
  · rfl
  · split
    · split <;> rfl
    · rfl

theorem fst_probeLengths
    (k : KData)
    (rlen : UInt8)
    (p : Rcvd)
    (m : Probe) :
    (probeLengths k rlen p m).1 = parseLengths k rlen p m.bytes := by
  unfold probeLengths parseLengths
  dsimp only
  split
  · rfl
  · exact fst_probeCheck _ _ _ m

/-- Without its record, the parser is the one of `kermit()`. -/
theorem fst_probeParse
    (k : KData)
    (len : Int) :
    (probeParse k len ⟨k.ipktbuf, []⟩).1 = parse k len := by
  let waits : Prop :=
    k.state = .sEot ∧ len = 4 ∧
      ((xunchar (peek k.ipktbuf 1)).toNat : Int) = 0 ∧
      peek k.ipktbuf 2 = ch 'N'
  -- The S_EOT test reads one index more, but leaves the bytes.
  have front :
      ∃ touched,
        (probeParse k len ⟨k.ipktbuf, []⟩).1 =
          if waits ∧ peek k.ipktbuf 3 = 0x33 then .shortcut
          else
            (probeHeader k (xunchar (peek k.ipktbuf 0))
              (peek k.ipktbuf 2) (xunchar (peek k.ipktbuf 1)).toNat
              ⟨k.ipktbuf, touched⟩).1 := by
    unfold probeParse
    dsimp only [Probe.read]
    by_cases waiting : waits
    · rw [if_pos waiting]
      by_cases fourth : peek k.ipktbuf 3 = 0x33
      · exact ⟨[], by rw [if_pos fourth, if_pos ⟨waiting, fourth⟩]⟩
      · exact ⟨[3, 2, 1, 0],
          by rw [if_neg fourth, if_neg (fun both => fourth both.2)]⟩
    · exact ⟨[2, 1, 0],
        by rw [if_neg waiting, if_neg (fun both => waiting both.1)]⟩
  obtain ⟨touched, front⟩ := front
  rw [front]
  simp only [waits, and_assoc]
  unfold probeHeader parse
  dsimp only
  split
  · rfl
  · split
    · rfl
    · split
      · rfl
      · split
        · rename_i extended
          rw [extended]
          unfold probeExtended
          dsimp only [Probe.read, Probe.write, Probe.readString]
          split
          · rfl
          · rw [fst_probeLengths]
            simp only [peek_restored]
        · rw [fst_probeLengths]

/-! ## Inside the array -/

/-- A string with a terminator stored in it is read up to there at most. -/
theorem Probe.inside_readString_cut
    {m : Probe}
    {place : Nat}
    (ended : peek m.bytes place = 0)
    (below : m.Inside → place < pBuflen) :
    (Probe.readString m).2.Inside ↔ m.Inside := by
  have length := length_cstr_le ended
  rw [Probe.inside_readString_iff]
  constructor
  · exact And.right
  · intro inside
    exact ⟨Nat.lt_of_le_of_lt length (below inside), inside⟩

/-- The block check is inside the array when all its characters are. -/
theorem inside_probeCheck_iff
    {chklen datalen : Nat}
    (some : 0 < chklen)
    (p : Rcvd)
    (m : Probe) :
    (probeCheck chklen datalen p m).2.Inside ↔
      p.pdf + datalen + chklen ≤ pBuflen ∧ m.Inside := by
  generalize placeShape : p.pdf + datalen = place
  let copied := Probe.readAll place chklen m
  let cut := Probe.write place 0 copied.2
  let text := Probe.readString cut
  let back := Probe.writeAll place (copied.1.take (chklen - 1) ++ [0]) text.2
  have copiedInside :
      copied.2.Inside ↔ place + chklen ≤ pBuflen ∧ m.Inside :=
    Probe.inside_readAll_iff some m
  have cutInside :
      cut.Inside ↔ place + chklen ≤ pBuflen ∧ m.Inside := by
    rw [Probe.inside_write_iff, copiedInside]
    constructor
    · exact And.right
    · intro inside
      exact ⟨by omega, inside⟩
  have textInside :
      text.2.Inside ↔ place + chklen ≤ pBuflen ∧ m.Inside := by
    have ended : peek cut.bytes place = 0 := by
      rw [Probe.bytes_write, peek_poke_byte, if_pos rfl]
    have below : cut.Inside → place < pBuflen := by
      rw [cutInside]
      omega
    rw [Probe.inside_readString_cut ended below, cutInside]
  have characters : copied.1.length = chklen := by
    simp [copied, Probe.fst_readAll]
  have length : (copied.1.take (chklen - 1)).length = chklen - 1 := by
    rw [List.length_take, characters]
    omega
  have backInside :
      back.Inside ↔ place + chklen ≤ pBuflen ∧ m.Inside := by
    rw [← textInside]
    constructor
    · exact Probe.inside_of_writeAll
    · intro inside
      have room := (textInside.mp inside).1
      apply Probe.inside_writeAll inside
      rw [List.length_append, length, List.length_singleton]
      omega
  have againInside :
      (Probe.readString back).2.Inside ↔
        place + chklen ≤ pBuflen ∧ m.Inside := by
    have ended : peek back.bytes (place + (chklen - 1)) = 0 := by
      rw [Probe.bytes_writeAll (by simp),
        peek_poke_inside _ _ (by simp [length]),
        peek_append_right (Nat.le_of_eq length), length, Nat.sub_self]
      rfl
    have below : back.Inside → place + (chklen - 1) < pBuflen := by
      rw [backInside]
      omega
    rw [Probe.inside_readString_cut ended below, backInside]
  unfold probeCheck
  rw [placeShape]
  dsimp only
  split
  · exact textInside
  · split
    · split
      · exact againInside
      · rw [Probe.inside_write_iff, againInside]
        constructor
        · exact And.right
        · intro inside
          exact ⟨by omega, inside⟩
    · exact textInside

/-- The lengths that the parser takes for in bounds. -/
def LengthsTaken
    (k : KData)
    (rlen : UInt8)
    (p : Rcvd) : Prop :=
  0 ≤ dataLength k rlen p ∧
    dataLength k rlen p + chkLength k p.rtyp + 1 < pBuflen

theorem inside_probeLengths_iff
    {k : KData}
    {rlen : UInt8}
    {p : Rcvd}
    (some : 0 < chkLength k p.rtyp)
    (m : Probe) :
    (probeLengths k rlen p m).2.Inside ↔
      (LengthsTaken k rlen p →
        p.pdf + dataLength k rlen p + chkLength k p.rtyp ≤ pBuflen) ∧
      m.Inside := by
  unfold probeLengths
  dsimp only
  split
  · rename_i refused
    constructor
    · intro inside
      refine ⟨fun taken => ?_, inside⟩
      rw [LengthsTaken] at taken
      omega
    · exact And.right
  · rename_i taken
    rw [inside_probeCheck_iff some]
    constructor
    · rintro ⟨room, inside⟩
      refine ⟨fun _ => ?_, inside⟩
      dsimp only at room
      omega
    · rintro ⟨room, inside⟩
      have taken : LengthsTaken k rlen p := by
        rw [LengthsTaken]
        omega
      have enough := room taken
      refine ⟨?_, inside⟩
      dsimp only
      rw [LengthsTaken] at taken
      omega

/--
A packet with an extended header that stands its tests: its length passes the
test for the data although it does not fit behind the header.
-/
structure Overruns
    (k : KData)
    (len : Int) : Prop where
  header : HeaderStands k len
  extended : lengthField k = 0
  later : isInitial k (typeField k) = false
  beyond : pBuflen < 6 + extendedLength k
  taken : extendedLength k + 1 < pBuflen

/-- A packet with a short header ends inside the array. -/
theorem inside_probeLengths_short
    {k : KData}
    {p : Rcvd}
    {m : Probe}
    (least : 1 ≤ inForce k)
    (most : inForce k ≤ 3)
    (short : lengthField k ≠ 0)
    (rtyp : p.rtyp = typeField k)
    (pdf : p.pdf = 3)
    (datalen :
      p.datalen =
        ((lengthField k).toNat : Int) -
          (if k.cfg.bcta3 ≠ 0 then (3 : Int) else k.par.bct) - 2)
    (inside : m.Inside) :
    (probeLengths k (lengthField k) p m).2.Inside := by
  have positive := (chkLength_bounds least most p.rtyp).1
  have lengths := dataLength_short short rtyp datalen
  have small := (lengthField k).toNat_lt
  have sameCheck : chkLength k p.rtyp = checkLength k := by
    rw [rtyp, checkLength]
  rw [inside_probeLengths_iff positive]
  refine ⟨fun _ => ?_, inside⟩
  rw [lengths, pdf, sameCheck, dataStart, if_neg short, declaredLength,
    if_neg short]
  simp only [pBuflen, pPktlen]
  omega

/-- A packet with an extended header ends outside when it is too long. -/
theorem inside_probeLengths_extended
    {k : KData}
    {p : Rcvd}
    {m : Probe}
    (least : 1 ≤ inForce k)
    (most : inForce k ≤ 3)
    (extended : lengthField k = 0)
    (rtyp : p.rtyp = typeField k)
    (pdf : p.pdf = 6)
    (datalen :
      p.datalen =
        (extendedLength k : Int) -
          (if k.cfg.bcta3 ≠ 0 then (3 : Int) else k.par.bct))
    (inside : m.Inside) :
    (probeLengths k (lengthField k) p m).2.Inside ↔
      ¬ (isInitial k (typeField k) = false ∧
        pBuflen < 6 + extendedLength k ∧
        extendedLength k + 1 < pBuflen) := by
  have bounds := chkLength_bounds least most p.rtyp
  have sameCheck : chkLength k p.rtyp = checkLength k := by
    rw [rtyp, checkLength]
  rw [inside_probeLengths_iff bounds.1]
  by_cases later : isInitial k (typeField k) = false
  · have lengths := dataLength_extended extended later rtyp datalen
    rw [dataStart, if_pos extended, declaredLength, if_pos extended]
      at lengths
    rw [LengthsTaken, lengths, pdf, sameCheck]
    rw [sameCheck] at bounds
    constructor
    · rintro ⟨room, -⟩ ⟨-, beyond, taken⟩
      have enough := room (by simp only [pBuflen, pPktlen] at beyond; omega)
      omega
    · intro fits
      refine ⟨fun taken => ?_, inside⟩
      by_contra outside
      exact fits ⟨later, by omega, by omega⟩
  · have initial : isInitial k p.rtyp = true := by
      rw [rtyp]
      exact (Bool.not_eq_false _).mp later
    have negative := dataLength_initial extended initial
    constructor
    · rintro - ⟨isLater, -⟩
      exact later isLater
    · intro _
      refine ⟨fun taken => ?_, inside⟩
      rw [LengthsTaken] at taken
      omega

/-- The part of the parser for an extended header. -/
theorem inside_probeExtended_iff
    {k : KData}
    {rseq : Int}
    {m : Probe}
    (least : 1 ≤ inForce k)
    (most : inForce k ≤ 3)
    (extended : lengthField k = 0)
    (same : m.bytes = k.ipktbuf)
    (inside : m.Inside) :
    (probeExtended k (typeField k) rseq m).2.Inside ↔
      ¬ ((xunchar (peek k.ipktbuf 5)).toNat =
          chk1 (cstr (slice k.ipktbuf 0 5)) ∧
        isInitial k (typeField k) = false ∧
        pBuflen < 6 + extendedLength k ∧
        extendedLength k + 1 < pBuflen) := by
  have small : (5 : Nat) < pBuflen := by
    decide
  let cut := Probe.write 5 0 (Probe.read 5 m).2
  have cutBytes : cut.bytes = poke k.ipktbuf 5 [0] := by
    rw [Probe.bytes_write, Probe.bytes_read, same]
  have cutInside : cut.Inside := by
    rw [Probe.inside_write_iff, Probe.inside_read_iff]
    exact ⟨small, small, inside⟩
  have ended : peek cut.bytes 5 = 0 := by
    rw [cutBytes, peek_poke_byte, if_pos rfl]
  have textInside : (Probe.readString cut).2.Inside :=
    (Probe.inside_readString_cut ended fun _ => small).mpr cutInside
  have text : (Probe.readString cut).1 = cstr (slice k.ipktbuf 0 5) := by
    rw [Probe.readString, cutBytes]
    exact cstr_header k.ipktbuf
  have sum : (Probe.read 5 m).1 = peek k.ipktbuf 5 := by
    rw [Probe.read, same]
  let back :=
    Probe.write 5 (Probe.read 5 m).1 (Probe.readString cut).2
  have backBytes (index : Nat) :
      peek back.bytes index = peek k.ipktbuf index := by
    rw [Probe.bytes_write, Probe.bytes_readString, cutBytes, sum,
      peek_restored]
  have backInside :
      (Probe.read 4 (Probe.read 3 back).2).2.Inside := by
    rw [Probe.inside_read_iff, Probe.inside_read_iff,
      Probe.inside_write_iff]
    exact ⟨by decide, by decide, small, textInside⟩
  unfold probeExtended
  dsimp only
  rw [text, sum]
  split
  · rename_i wrong
    exact iff_of_true textInside fun facts => wrong facts.1
  · rename_i right
    have value :
        ((xunchar (Probe.read 3 back).1).toNat : Int) * 95 +
            (xunchar (Probe.read 4 (Probe.read 3 back).2).1).toNat =
          extendedLength k := by
      rw [Probe.read, Probe.read, backBytes, backBytes, extendedLength,
        Int.natCast_add, Int.natCast_mul]
      rfl
    have lengths :=
      @inside_probeLengths_extended k
        { rtyp := typeField k, rseq := rseq, pdf := 6,
          datalen :=
            ((xunchar (Probe.read 3 back).1).toNat : Int) * 95 +
                (xunchar (Probe.read 4 (Probe.read 3 back).2).1).toNat -
              (if k.cfg.bcta3 ≠ 0 then (3 : Int) else k.par.bct),
          ackText := cancelText k }
        (Probe.read 4 (Probe.read 3 back).2).2 least most extended rfl rfl
        (by rw [value]) backInside
    rw [extended] at lengths
    simp only [back, cut, sum] at lengths
    rw [lengths]
    simp only [not_not.mp right, true_and]

/-- The part of the parser behind the test for the last NAK. -/
theorem inside_probeHeader_iff
    {k : KData}
    {m : Probe}
    (least : 1 ≤ inForce k)
    (most : inForce k ≤ 3)
    (same : m.bytes = k.ipktbuf)
    (inside : m.Inside) :
    (probeHeader k (lengthField k) (typeField k)
        (xunchar (peek k.ipktbuf 1)).toNat m).2.Inside ↔
      ¬ ((xunchar (peek k.ipktbuf 1)).toNat ≤ 63 ∧
        ¬ (k.what = .recv ∧ (typeField k = ch 'N' ∨ typeField k = ch 'Y')) ∧
        lengthField k = 0 ∧
        (xunchar (peek k.ipktbuf 5)).toNat =
          chk1 (cstr (slice k.ipktbuf 0 5)) ∧
        isInitial k (typeField k) = false ∧
        pBuflen < 6 + extendedLength k ∧
        extendedLength k + 1 < pBuflen) := by
  unfold probeHeader
  dsimp only
  split
  · rename_i outOfRange
    refine iff_of_true inside fun facts => ?_
    have upper := facts.1
    omega
  · rename_i inRange
    split
    · rename_i echo
      exact iff_of_true inside fun facts => facts.2.1 echo
    · rename_i noEcho
      split
      · rename_i extended
        rw [inside_probeExtended_iff least most extended same inside]
        have upper : (xunchar (peek k.ipktbuf 1)).toNat ≤ 63 := by
          omega
        simp only [upper, noEcho, extended, not_false_eq_true, true_and]
      · rename_i short
        refine iff_of_true ?_ fun facts => short facts.2.2.1
        exact inside_probeLengths_short least most short rfl rfl rfl inside

/--
The parser stays inside `ipktbuf` unless the extended length of a packet
passes the test that leaves out where the data begins.
-/
theorem parser_inside_iff
    (k : KData)
    (len : Int)
    (least : 1 ≤ inForce k)
    (most : inForce k ≤ 3) :
    (probeParse k len ⟨k.ipktbuf, []⟩).1 = parse k len ∧
      ((probeParse k len ⟨k.ipktbuf, []⟩).2.Inside ↔
        ¬ Overruns k len) := by
  refine ⟨fst_probeParse k len, ?_⟩
  have inside (touched : List Nat) (small : ∀ index ∈ touched, index < 4) :
      Probe.Inside ⟨k.ipktbuf, touched⟩ := by
    intro index member
    have below := small index member
    simp only [pBuflen, pPktlen]
    omega
  have zero (number : UInt8) : ((number.toNat : Int) = 0) ↔ number = 0 := by
    rw [← UInt8.toNat_inj]
    exact Int.ofNat_inj
  have decided (touched : List Nat)
      (small : ∀ index ∈ touched, index < 4)
      (notLast :
        ¬ (k.state = .sEot ∧ len = 4 ∧ xunchar (peek k.ipktbuf 1) = 0 ∧
          typeField k = ch 'N' ∧ peek k.ipktbuf 3 = 0x33)) :
      (probeHeader k (lengthField k) (typeField k)
          (xunchar (peek k.ipktbuf 1)).toNat
          ⟨k.ipktbuf, touched⟩).2.Inside ↔
        ¬ Overruns k len := by
    rw [inside_probeHeader_iff least most rfl (inside touched small)]
    apply not_congr
    constructor
    · rintro ⟨upper, noEcho, extended, sum, later, beyond, taken⟩
      exact ⟨⟨notLast, upper, noEcho, fun _ => sum⟩, extended, later, beyond,
        taken⟩
    · rintro ⟨⟨-, upper, noEcho, sum⟩, extended, later, beyond, taken⟩
      exact ⟨upper, noEcho, extended, sum extended, later, beyond, taken⟩
  unfold probeParse
  dsimp only [Probe.read]
  split
  · rename_i waits
    split
    · rename_i fourth
      refine iff_of_true (inside _ (by decide)) fun overruns => ?_
      exact overruns.header.notLast
        ⟨waits.1, waits.2.1, (zero _).mp waits.2.2.1, waits.2.2.2, fourth⟩
    · rename_i fourth
      exact decided _ (by decide) fun all => fourth all.2.2.2.2
  · rename_i waits
    refine decided _ (by decide) fun all => waits ?_
    exact ⟨all.1, all.2.1, (zero _).mpr all.2.2.1, all.2.2.2.1⟩

theorem parser_inside_iff_short :
    (probeParse (withBuf [0x23, 0x20, 0x44, 0x26] (freshSys 0).k) 4
          ⟨[0x23, 0x20, 0x44, 0x26], []⟩).1 =
        parse (withBuf [0x23, 0x20, 0x44, 0x26] (freshSys 0).k) 4 ∧
      ((probeParse (withBuf [0x23, 0x20, 0x44, 0x26] (freshSys 0).k) 4
            ⟨[0x23, 0x20, 0x44, 0x26], []⟩).2.Inside ↔
        ¬ Overruns (withBuf [0x23, 0x20, 0x44, 0x26] (freshSys 0).k) 4) :=
  parser_inside_iff (withBuf [0x23, 0x20, 0x44, 0x26] (freshSys 0).k) 4
    (by decide) (by decide)

/-- Seven bytes whose header declares 1003 bytes behind it. -/
def overlongFrame : List UInt8 :=
  [0x20, 0x20, 0x44, 0x2A, 0x55, 0x23, 0x61]

/-- The parser looks for the block check behind the end of `ipktbuf`. -/
theorem overlong_packet_outside :
    (probeParse (withBuf overlongFrame (freshSys 0).k) 7
          ⟨overlongFrame, []⟩).1 =
        parse (withBuf overlongFrame (freshSys 0).k) 7 ∧
      inForce (withBuf overlongFrame (freshSys 0).k) = 1 ∧
      pBuflen ∈
        (probeParse (withBuf overlongFrame (freshSys 0).k) 7
          ⟨overlongFrame, []⟩).2.touched ∧
      ¬ (probeParse (withBuf overlongFrame (freshSys 0).k) 7
          ⟨overlongFrame, []⟩).2.Inside := by
  have outside :
      pBuflen ∈
        (probeParse (withBuf overlongFrame (freshSys 0).k) 7
          ⟨overlongFrame, []⟩).2.touched := by
    decide +kernel
  refine ⟨fst_probeParse _ 7, by decide, outside, fun inside => ?_⟩
  exact absurd (inside pBuflen outside) (Nat.lt_irrefl pBuflen)

end Slate106.Kermit
