import Slate106.KermitRuns
import Slate106.KermitSent

namespace Slate106.Kermit

open CBytes

/-!
# Filling data fields

What one turn of the loop of `getpkt()` adds to the field, and what the field
and the leftovers hold when `getpkt()` returns.
-/

variable {ω : Type}

/-! ## The memory of a data field -/

private theorem drop_takeD
    (memory : List UInt8)
    (start count : Nat) :
    (memory.takeD (start + count) 0).drop start =
      (memory.drop start).takeD count 0 := by
  induction start generalizing memory with
  | zero =>
      simp
  | succ start inductionHypothesis =>
      rw [Nat.succ_add, List.takeD_succ, List.drop_succ_cons,
        inductionHypothesis memory.tail, List.drop_tail]

/-- The bytes from the `xdata` pointer on, after a store there. -/
theorem xdataMem_pokeXdata
    (offset : Nat)
    (bytes : List UInt8)
    (k : KData) :
    xdataMem (pokeXdata offset bytes k) = poke (xdataMem k) offset bytes := by
  unfold xdataMem pokeXdata
  cases place : k.enc.xdata with
  | xdatabuf =>
      simp [place]
  | ipktbuf base =>
      simp only [place, poke, List.append_assoc]
      rw [List.drop_append_of_le_length (by simp), drop_takeD,
        List.drop_drop, Nat.add_assoc]

/-- The field built so far, and the memory after it. -/
structure Holds
    (field tail : List UInt8)
    (k : KData) : Prop where
  memory : xdataMem k = field ++ tail
  size : k.enc.size = field.length

/-- Only the data field and its counters differ. -/
def Writes
    (k k' : KData) : Prop :=
  ∃ sRpt size osize xdatabuf ipktbuf,
    k' =
      { k with
        enc :=
          { k.enc with
            sRpt := sRpt, size := size, osize := osize, xdatabuf := xdatabuf }
        ipktbuf := ipktbuf }

theorem Writes.refl
    (k : KData) :
    Writes k k :=
  ⟨_, _, _, _, _, rfl⟩

theorem Writes.trans
    {k k' k'' : KData}
    (first : Writes k k')
    (second : Writes k' k'') :
    Writes k k'' := by
  obtain ⟨_, _, _, _, _, rfl⟩ := first
  obtain ⟨_, _, _, _, _, rfl⟩ := second
  exact ⟨_, _, _, _, _, rfl⟩

theorem writes_pokeXdata
    (offset : Nat)
    (bytes : List UInt8)
    (k : KData) :
    Writes k (pokeXdata offset bytes k) := by
  unfold pokeXdata
  split
  · exact ⟨_, _, _, _, _, rfl⟩
  · exact ⟨_, _, _, _, _, rfl⟩

/-- A store of `emit()` makes the field longer. -/
theorem Holds.emit
    {field tail : List UInt8}
    {k : KData}
    (holds : Holds field tail k)
    (bytes : List UInt8) :
    Holds (field ++ bytes) (tail.drop bytes.length)
      (Kermit.emit bytes k) := by
  constructor
  · show xdataMem (pokeXdata k.enc.size bytes k) = _
    rw [xdataMem_pokeXdata, holds.memory, holds.size, poke_end,
      List.append_assoc]
  · show k.enc.size + bytes.length = _
    rw [holds.size, List.length_append]

theorem writes_emit
    (bytes : List UInt8)
    (k : KData) :
    Writes k (emit bytes k) :=
  (writes_pokeXdata k.enc.size bytes k).trans ⟨_, _, _, _, _, rfl⟩

/-- A character in the field, with a terminator after it. -/
structure Emitted
    (field : List UInt8)
    (k k' : KData) : Prop where
  holds : ∃ tail, Holds field (0 :: tail) k'
  sRpt : k'.enc.sRpt = k.enc.sRpt
  osize : k'.enc.osize = k.enc.osize
  writes : Writes k k'

/-- `encode()` of one character after the run-length encoding. -/
theorem encodeChar_emitted
    (io : Io ω)
    (a : UInt8)
    {s : Sys ω}
    {field tail : List UInt8}
    (holds : Holds field tail s.k)
    (room : field.length + 3 ≤ pPktlen) :
    ∃ k',
      encodeChar io a s = { s with k := k' } ∧
      Emitted (field ++ encodeBytes s.k.cfg s.k.par a) s.k k' := by
  have short := (length_encodeBytes s.k.cfg s.k.par a).2
  have longer := holds.emit (encodeBytes s.k.cfg s.k.par a)
  have written := writes_emit (encodeBytes s.k.cfg s.k.par a) s.k
  have rptSame : (emit (encodeBytes s.k.cfg s.k.par a) s.k).enc.sRpt =
      s.k.enc.sRpt := by
    unfold emit pokeXdata
    cases s.k.enc.xdata <;> rfl
  have osizeSame : (emit (encodeBytes s.k.cfg s.k.par a) s.k).enc.osize =
      s.k.enc.osize := by
    unfold emit pokeXdata
    cases s.k.enc.xdata <;> rfl
  unfold encodeChar
  dsimp only
  generalize emit (encodeBytes s.k.cfg s.k.par a) s.k = k' at *
  have ended := writes_pokeXdata k'.enc.size [0] k'
  have sizeSame : (pokeXdata k'.enc.size [0] k').enc.size = k'.enc.size := by
    unfold pokeXdata
    split <;> rfl
  have notConfused :
      ¬ (pokeXdata k'.enc.size [0] k').enc.size ≥ pPktlen + 2 := by
    rw [sizeSame, longer.size, List.length_append]
    omega
  refine ⟨pokeXdata k'.enc.size [0] k', if_neg notConfused, ?_⟩
  have memory := xdataMem_pokeXdata k'.enc.size [0] k'
  rw [longer.memory, longer.size, poke_end] at memory
  rw [longer.size] at sizeSame ended ⊢
  refine ⟨⟨_, memory, sizeSame⟩, ?_, ?_, written.trans ended⟩
  · rw [← rptSame]
    unfold pokeXdata
    split <;> rfl
  · rw [← osizeSame]
    unfold pokeXdata
    split <;> rfl

/-! ## One turn of the encoder -/

/--
The runs `encode()` writes for a character when `held` copies of it have been
counted: those before the place it sets `osize` to, and those after.
-/
def turnRuns
    (rptflg : Int)
    (held : Nat)
    (a : UInt8)
    (next : Option UInt8) : List CharRun × List CharRun :=
  if rptflg ≠ 0 then
    if some a = next then
      if held + 1 < 236 then ([], [])
      else ([], [{ char := a, count := 236 }])
    else if held = 1 then
      ([{ char := a, count := 1 }], [{ char := a, count := 1 }])
    else ([], [{ char := a, count := held + 1 }])
  else ([], [{ char := a, count := 1 }])

/-- The copies counted after the turn. -/
def turnHeld
    (rptflg : Int)
    (held : Nat)
    (a : UInt8)
    (next : Option UInt8) : Nat :=
  if rptflg ≠ 0 ∧ some a = next ∧ held + 1 < 236 then held + 1 else 0

/-- A repeat count that `encode()` can be called with. -/
structure Countable
    (rptflg : Int)
    (held : Nat) : Prop where
  small : held ≤ 235
  counting : rptflg = 0 → held = 0

theorem countable_zero
    (rptflg : Int) :
    Countable rptflg 0 :=
  ⟨by omega, fun _ => rfl⟩

theorem turnHeld_countable
    (rptflg : Int)
    (held : Nat)
    (a : UInt8)
    (next : Option UInt8) :
    Countable rptflg (turnHeld rptflg held a next) := by
  unfold turnHeld
  split
  · rename_i counting
    exact ⟨by omega, fun zero => absurd zero counting.1⟩
  · exact countable_zero rptflg

/-- The copies that stay counted are copies of the next character. -/
theorem replicate_turnHeld
    (rptflg : Int)
    (held : Nat)
    (a a' : UInt8) :
    List.replicate (turnHeld rptflg held a (some a')) a =
      List.replicate (turnHeld rptflg held a (some a')) a' := by
  unfold turnHeld
  split
  · rename_i counting
    rw [Option.some.inj counting.2.1]
  · rfl

/-- Every character counted or encoded is in a run or still counted. -/
theorem expand_turnRuns
    {rptflg : Int}
    {held : Nat}
    (countable : Countable rptflg held)
    (a : UInt8)
    (next : Option UInt8) :
    List.replicate held a ++ [a] =
      expand (turnRuns rptflg held a next).1 ++
        expand (turnRuns rptflg held a next).2 ++
        List.replicate (turnHeld rptflg held a next) a := by
  have small := countable.small
  have together : List.replicate held a ++ [a] =
      List.replicate (held + 1) a := by
    rw [List.replicate_succ']
  rw [together]
  unfold turnRuns turnHeld
  by_cases flag : rptflg ≠ 0
  · by_cases same : some a = next
    · by_cases more : held + 1 < 236
      · simp [flag, same, more]
      · have full : held + 1 = 236 := by omega
        simp [flag, same, full]
    · by_cases two : held = 1
      · simp [flag, same, two, List.replicate_succ]
      · simp [flag, same, two]
  · have zero : held = 0 := countable.counting (by simpa using flag)
    simp [flag, zero]

/-- Each run of a turn is one that `encode()` says. -/
theorem said_turnRuns
    {rptflg : Int}
    {held : Nat}
    (countable : Countable rptflg held)
    (a : UInt8)
    (next : Option UInt8) :
    (∀ run ∈ (turnRuns rptflg held a next).1, run.Said rptflg) ∧
      ∀ run ∈ (turnRuns rptflg held a next).2, run.Said rptflg := by
  have small := countable.small
  unfold turnRuns CharRun.Said
  by_cases flag : rptflg ≠ 0
  · by_cases same : some a = next
    · by_cases more : held + 1 < 236
      · simp [flag, same, more]
      · simp [flag, same, more]
    · by_cases two : held = 1
      · simp [flag, same, two]
      · simp only [flag, same, two, if_true, if_false, ne_eq,
          not_false_eq_true, List.not_mem_nil, false_implies, implies_true,
          List.mem_singleton, forall_eq, true_and]
        omega
  · simp [flag]

/-- A turn that writes nothing counts one more character. -/
theorem turnRuns_nil
    {rptflg : Int}
    {held : Nat}
    {a : UInt8}
    {next : Option UInt8}
    (nothing : (turnRuns rptflg held a next).2 = []) :
    (turnRuns rptflg held a next).1 = [] ∧ next = some a ∧
      turnHeld rptflg held a next = held + 1 := by
  unfold turnRuns turnHeld at *
  by_cases flag : rptflg ≠ 0
  · by_cases same : some a = next
    · by_cases more : held + 1 < 236
      · simp [flag, same, more]
      · simp [flag, same, more] at nothing
    · by_cases two : held = 1
      · simp [flag, same, two] at nothing
      · simp [flag, same, two] at nothing
  · simp [flag] at nothing

/-- A turn that writes something has counted every character. -/
theorem turnHeld_of_runs
    {rptflg : Int}
    {held : Nat}
    {a : UInt8}
    {next : Option UInt8}
    (something : (turnRuns rptflg held a next).2 ≠ []) :
    turnHeld rptflg held a next = 0 := by
  unfold turnRuns at something
  unfold turnHeld
  split
  · rename_i counting
    simp [counting] at something
  · rfl

/-- What a turn does to the field. -/
structure Turned
    (field : List UInt8)
    (held : Nat)
    (a : UInt8)
    (next : Option UInt8)
    (k k' : KData) : Prop where
  holds : ∃ tail,
    Holds (field ++
      (encodeRuns k.cfg k.par (turnRuns k.par.rptflg held a next).1 ++
        encodeRuns k.cfg k.par (turnRuns k.par.rptflg held a next).2))
      tail k' ∧
    ((turnRuns k.par.rptflg held a next).2 ≠ [] → tail.head? = some 0)
  osize : k'.enc.osize = (field ++
    encodeRuns k.cfg k.par (turnRuns k.par.rptflg held a next).1).length
  sRpt : k'.enc.sRpt = turnHeld k.par.rptflg held a next
  writes : Writes k k'

/-- What was done before the turn does not matter if it wrote nothing. -/
theorem Turned.after
    {field : List UInt8}
    {held : Nat}
    {a : UInt8}
    {next : Option UInt8}
    {k k' k'' : KData}
    (first : Writes k k')
    (turned : Turned field held a next k' k'') :
    Turned field held a next k k'' := by
  obtain ⟨_, _, _, _, _, rfl⟩ := first
  obtain ⟨holds, osize, sRpt, writes⟩ := turned
  exact ⟨holds, osize, sRpt,
    Writes.trans ⟨_, _, _, _, _, rfl⟩ writes⟩

/-- A run that is a single character needs no repeat count. -/
theorem encodeRun_once
    (cfg : Config)
    (p : Params)
    (a : UInt8) :
    encodeRun cfg p { char := a, count := 1 } = encodeBytes cfg p a :=
  rfl

/-- A turn of `encode()` that writes one character without a count. -/
private theorem turned_once
    (io : Io ω)
    {field tail : List UInt8}
    {held : Nat}
    {a : UInt8}
    {next : Option UInt8}
    {s : Sys ω}
    (holds : Holds field tail s.k)
    (start : s.k.enc.osize = field.length)
    (room : field.length + 8 ≤ pPktlen)
    (runs : turnRuns s.k.par.rptflg held a next =
      ([], [{ char := a, count := 1 }]))
    (none : turnHeld s.k.par.rptflg held a next = s.k.enc.sRpt) :
    ∃ k',
      encodeChar io a s = { s with k := k' } ∧
      Turned field held a next s.k k' := by
  obtain ⟨k', same, emitted⟩ := encodeChar_emitted io a holds (by omega)
  obtain ⟨after, now⟩ := emitted.holds
  refine ⟨k', same, ?_, ?_, ?_, emitted.writes⟩
  · refine ⟨0 :: after, ?_, fun _ => rfl⟩
    rw [runs]
    simpa [encodeRun_once] using now
  · rw [runs, emitted.osize, start]
    simp
  · rw [emitted.sRpt, none]

/-- A turn of `encode()` that writes a character with a repeat count. -/
private theorem turned_repeated
    (io : Io ω)
    {field tail : List UInt8}
    {held count : Nat}
    {a : UInt8}
    {next : Option UInt8}
    {s : Sys ω}
    (holds : Holds field tail s.k)
    (start : s.k.enc.osize = field.length)
    (room : field.length + 8 ≤ pPktlen)
    (several : count ≠ 1)
    (runs : turnRuns s.k.par.rptflg held a next =
      ([], [{ char := a, count := count }]))
    (none : turnHeld s.k.par.rptflg held a next = 0) :
    let k := emit [s.k.par.rptq, torepeat (uchar count)] s.k
    ∃ k',
      encodeChar io a { s with k := { k with enc.sRpt := 0 } } =
        { s with k := k' } ∧
      Turned field held a next s.k k' := by
  dsimp only
  have longer := holds.emit [s.k.par.rptq, torepeat (uchar count)]
  have written := writes_emit [s.k.par.rptq, torepeat (uchar count)] s.k
  have osizeSame :
      (emit [s.k.par.rptq, torepeat (uchar count)] s.k).enc.osize =
        s.k.enc.osize := by
    unfold emit pokeXdata
    cases s.k.enc.xdata <;> rfl
  generalize emit [s.k.par.rptq, torepeat (uchar count)] s.k = k at *
  have holdsNow : Holds
      (field ++ [s.k.par.rptq, torepeat (uchar count)]) (tail.drop 2)
      { k with enc.sRpt := 0 } :=
    ⟨longer.memory, longer.size⟩
  have counted : Writes k { k with enc.sRpt := 0 } := ⟨_, _, _, _, _, rfl⟩
  have settings : k.cfg = s.k.cfg ∧ k.par = s.k.par := by
    obtain ⟨_, _, _, _, _, rfl⟩ := written
    exact ⟨rfl, rfl⟩
  obtain ⟨k', same, emitted⟩ := encodeChar_emitted io a
    (s := { s with k := { k with enc.sRpt := 0 } }) holdsNow
    (by simp; omega)
  obtain ⟨after, now⟩ := emitted.holds
  refine ⟨k', same, ?_, ?_, ?_,
    (written.trans counted).trans emitted.writes⟩
  · refine ⟨0 :: after, ?_, fun _ => rfl⟩
    rw [runs]
    simpa [encodeRun, several, settings.1, settings.2] using now
  · rw [runs, emitted.osize]
    simpa using osizeSame.trans start
  · rw [emitted.sRpt, none]
    rfl

/-- A turn of `encode()` that writes a character twice. -/
private theorem turned_twice
    (io : Io ω)
    {field tail : List UInt8}
    {held : Nat}
    {a : UInt8}
    {next : Option UInt8}
    {s : Sys ω}
    (holds : Holds field tail s.k)
    (room : field.length + 8 ≤ pPktlen)
    (early : (field.length : Int) + 7 ≤ s.k.par.sMaxlen)
    (runs : turnRuns s.k.par.rptflg held a next =
      ([{ char := a, count := 1 }], [{ char := a, count := 1 }]))
    (none : turnHeld s.k.par.rptflg held a next = 0) :
    let s' := encodeChar io a { s with k.enc.sRpt := 0 }
    let s'' :=
      if (s'.k.enc.size : Int) ≤ s'.k.par.sMaxlen - 4 then
        { s' with k.enc.osize := s'.k.enc.size }
      else s'
    ∃ k',
      encodeChar io a { s'' with k.enc.sRpt := 0 } = { s with k := k' } ∧
      Turned field held a next s.k k' := by
  have short := (length_encodeBytes s.k.cfg s.k.par a).2
  obtain ⟨k', same, emitted⟩ := encodeChar_emitted io a
    (s := { s with k.enc.sRpt := 0 }) ⟨holds.memory, holds.size⟩ (by omega)
  have settings : k'.cfg = s.k.cfg ∧ k'.par = s.k.par := by
    obtain ⟨_, _, _, _, _, rfl⟩ := emitted.writes
    exact ⟨rfl, rfl⟩
  obtain ⟨after, now⟩ := emitted.holds
  have inTime : (k'.enc.size : Int) ≤ k'.par.sMaxlen - 4 := by
    rw [now.size, settings.2, List.length_append]
    dsimp only
    omega
  rw [same]
  dsimp only
  rw [if_pos inTime]
  obtain ⟨k'', same', emitted'⟩ := encodeChar_emitted io a
    (s := { s with k := { k' with
      enc := { k'.enc with osize := k'.enc.size, sRpt := 0 } } })
    ⟨now.memory, now.size⟩ (by simp; omega)
  obtain ⟨after', now'⟩ := emitted'.holds
  refine ⟨k'', same', ?_, ?_, ?_, ?_⟩
  · refine ⟨0 :: after', ?_, fun _ => rfl⟩
    rw [runs]
    simpa [encodeRun_once, settings.1, settings.2] using now'
  · rw [runs, emitted'.osize]
    simpa [encodeRun_once] using now.size
  · rw [emitted'.sRpt, none]
    rfl
  · exact (Writes.trans ⟨_, _, _, _, _, rfl⟩ emitted.writes).trans
      (Writes.trans ⟨_, _, _, _, _, rfl⟩ emitted'.writes)

/-- `encode()` of one character, for what has been counted of it. -/
theorem encode_turned
    (io : Io ω)
    {field tail : List UInt8}
    {held : Nat}
    (a : UInt8)
    (next : Option UInt8)
    {s : Sys ω}
    (holds : Holds field tail s.k)
    (start : s.k.enc.osize = field.length)
    (counted : s.k.enc.sRpt = held)
    (countable : Countable s.k.par.rptflg held)
    (room : field.length + 8 ≤ pPktlen)
    (early : held = 1 → some a ≠ next →
      (field.length : Int) + 7 ≤ s.k.par.sMaxlen) :
    ∃ k',
      encode io a next s = { s with k := k' } ∧
      Turned field held a next s.k k' := by
  have small := countable.small
  unfold encode
  by_cases flag : s.k.par.rptflg ≠ 0
  · rw [if_pos flag]
    by_cases same : some a = next
    · rw [if_pos same]
      dsimp only
      by_cases more : held + 1 < 236
      · have fewer : s.k.enc.sRpt + 1 < 236 := by omega
        have runs : turnRuns s.k.par.rptflg held a next = ([], []) := by
          simp [turnRuns, flag, same, more]
        have copies : turnHeld s.k.par.rptflg held a next = held + 1 := by
          simp [turnHeld, flag, same, more]
        rw [if_pos fewer]
        refine ⟨_, rfl, ?_, ?_, ?_, ⟨_, _, _, _, _, rfl⟩⟩
        · rw [runs]
          exact ⟨tail, ⟨holds.memory.trans (by simp),
            holds.size.trans (by simp)⟩, fun some => absurd rfl some⟩
        · rw [runs]
          simpa using start
        · rw [copies]
          show s.k.enc.sRpt + 1 = _
          rw [counted]
          rfl
      · have full : held = 235 := by omega
        have notFewer : ¬ s.k.enc.sRpt + 1 < 236 := by omega
        have exactly : s.k.enc.sRpt + 1 = 236 := by omega
        have runs : turnRuns s.k.par.rptflg held a next =
            ([], [{ char := a, count := 236 }]) := by
          simp [turnRuns, flag, same, full]
        have copies : turnHeld s.k.par.rptflg held a next = 0 := by
          simp [turnHeld, full]
        rw [if_neg notFewer, if_pos exactly, exactly]
        obtain ⟨k', equal, turned⟩ := turned_repeated io
          (s := { s with k.enc.sRpt := 236 })
          ⟨holds.memory, holds.size⟩ start room (by omega) runs copies
        exact ⟨k', equal, turned.after ⟨_, _, _, _, _, rfl⟩⟩
    · rw [if_neg same]
      by_cases two : held = 1
      · have one : s.k.enc.sRpt = 1 := by omega
        rw [if_pos one]
        exact turned_twice io holds room (early two same)
          (by simp [turnRuns, flag, same, two]) (by simp [turnHeld, same])
      · have notOne : ¬ s.k.enc.sRpt = 1 := by omega
        rw [if_neg notOne]
        by_cases several : s.k.enc.sRpt > 1
        · have runs : turnRuns s.k.par.rptflg held a next =
              ([], [{ char := a, count := held + 1 }]) := by
            simp [turnRuns, flag, same, two]
          rw [if_pos several, counted]
          exact turned_repeated io holds start room (by omega) runs
            (by simp [turnHeld, same])
        · have nothing : held = 0 := by omega
          rw [if_neg several]
          exact turned_once io holds start room
            (by simp [turnRuns, flag, same, nothing])
            (by simp [turnHeld, same, counted, nothing])
  · rw [if_neg flag]
    have zero : s.k.par.rptflg = 0 := by simpa using flag
    have nothing := countable.counting zero
    refine turned_once io holds start room ?_ ?_
    · simp [turnRuns, zero]
    · simp [turnHeld, zero, counted, nothing]

/-! ## The input file -/

/--
What `readf` is documented to do in binary mode: hand over the next byte of the
file and a buffer of bytes after it, or report the end.  `left` is the part of
the file that has not been read.
-/
structure ReadsFile
    (io : Io ω)
    (left : ω → List UInt8) : Prop where
  ends : ∀ w k buf,
    k.par.binary = 1 →
    k.zin.zincnt < 1 →
    k.zin.zinptr = some buf →
    left w = [] →
    ∃ w', io.readf w k = (none, { zincnt := 0, zinptr := some buf }, w') ∧
      left w' = []
  reads : ∀ w k buf c more,
    k.par.binary = 1 →
    k.zin.zincnt < 1 →
    k.zin.zinptr = some buf →
    left w = c :: more →
    ∃ buf' w',
      io.readf w k =
        (some c, { zincnt := buf'.length, zinptr := some buf' }, w') ∧
      more = buf' ++ left w'

/-- The same in the transfer mode `mode`. -/
structure ReadsIn
    (mode : Int)
    (io : Io ω)
    (left : ω → List UInt8) : Prop where
  ends : ∀ w k buf,
    k.par.binary = mode →
    k.zin.zincnt < 1 →
    k.zin.zinptr = some buf →
    left w = [] →
    ∃ w', io.readf w k = (none, { zincnt := 0, zinptr := some buf }, w') ∧
      left w' = []
  reads : ∀ w k buf c more,
    k.par.binary = mode →
    k.zin.zincnt < 1 →
    k.zin.zinptr = some buf →
    left w = c :: more →
    ∃ buf' w',
      io.readf w k =
        (some c, { zincnt := buf'.length, zinptr := some buf' }, w') ∧
      more = buf' ++ left w'

theorem ReadsFile.readsIn
    {io : Io ω}
    {left : ω → List UInt8}
    (reader : ReadsFile io left) :
    ReadsIn 1 io left where
  ends := reader.ends
  reads := reader.reads

/-- The characters of the file that `zgetc()` has not returned. -/
def Input
    (left : ω → List UInt8)
    (s : Sys ω)
    (input : List UInt8) : Prop :=
  ∃ buf : List UInt8,
    s.k.zin = { zincnt := buf.length, zinptr := some buf } ∧
    input = buf ++ left s.w

/-- Only the input was read. -/
def ReadsOnly
    (s s' : Sys ω) : Prop :=
  ∃ zin w, ∃ reads : List (Option UInt8),
    s' =
      { s with k.zin := zin, w := w, log := reads.map .readf ++ s.log }

theorem zgetc_input
    {mode : Int}
    {io : Io ω}
    {left : ω → List UInt8}
    (reader : ReadsIn mode io left)
    {s : Sys ω}
    {input : List UInt8}
    (inMode : s.k.par.binary = mode)
    (unread : Input left s input) :
    (zgetc io s).1 = input.head? ∧
      Input left (zgetc io s).2 input.tail ∧
      (input.head? = none → .readf none ∈ (zgetc io s).2.log) ∧
      ReadsOnly s (zgetc io s).2 := by
  obtain ⟨buf, zin, rfl⟩ := unread
  cases buf with
  | cons c more =>
      have buffered : ¬ (s.k.zin.zincnt - 1 < 0) := by
        rw [zin]
        simp
      have count : s.k.zin.zincnt - 1 = more.length := by
        rw [zin]
        simp
      have step : zgetc io s =
          (some c,
            { s with
              k.zin :=
                { zincnt := more.length, zinptr := some more } }) := by
        unfold zgetc
        dsimp only
        rw [if_pos (by omega), count, zin]
        rfl
      rw [step]
      exact ⟨rfl, ⟨more, rfl, rfl⟩, (fun last => nomatch last),
        ⟨_, _, [], rfl⟩⟩
  | nil =>
      have empty : ¬ (s.k.zin.zincnt - 1 ≥ 0) := by
        rw [zin]
        simp
      have step : zgetc io s =
          callReadf io { s with k.zin.zincnt := s.k.zin.zincnt - 1 } := by
        unfold zgetc
        dsimp only
        rw [if_neg empty]
      rw [step]
      simp only [List.nil_append]
      cases rest : left s.w with
      | nil =>
          obtain ⟨w', read, beyond⟩ := reader.ends s.w
            { s.k with zin.zincnt := s.k.zin.zincnt - 1 } [] inMode
            (by simp [zin]) (by simp [zin]) rest
          simp only [callReadf, read]
          exact ⟨rfl, ⟨[], rfl, by simp [beyond]⟩,
            fun _ => List.mem_cons_self .., ⟨_, _, [none], rfl⟩⟩
      | cons c more =>
          obtain ⟨buf', w', read, beyond⟩ := reader.reads s.w
            { s.k with zin.zincnt := s.k.zin.zincnt - 1 } [] c more inMode
            (by simp [zin]) (by simp [zin]) rest
          simp only [callReadf, read]
          exact ⟨rfl, ⟨buf', rfl, beyond⟩, (fun last => nomatch last),
            ⟨_, _, [some c], rfl⟩⟩

/-- The next character comes from the file when no string is set. -/
theorem nextChar_zgetc
    (io : Io ω)
    {s : Sys ω}
    (noString : s.k.enc.istring = none) :
    nextChar io s = zgetc io s := by
  unfold nextChar
  rw [noString]

/-! ## The loop of `getpkt()` -/

/-- Only the encoder, its data field and the input differ. -/
def Packs
    (s s' : Sys ω) : Prop :=
  ∃ enc ipktbuf zin sofarRumor w, ∃ reads : List (Option UInt8),
    enc.xdata = s.k.enc.xdata ∧
    enc.istring = s.k.enc.istring ∧
    s' =
      { s with
        k := { s.k with enc := enc, ipktbuf := ipktbuf, zin := zin }
        r.sofarRumor := sofarRumor
        w := w
        log := reads.map .readf ++ s.log }

theorem Packs.trans
    {s s' s'' : Sys ω}
    (first : Packs s s')
    (second : Packs s' s'') :
    Packs s s'' := by
  obtain ⟨_, _, _, _, _, reads, xdata, istring, rfl⟩ := first
  obtain ⟨enc, ipktbuf, zin, sofarRumor, w, reads', xdata', istring', rfl⟩ :=
    second
  refine ⟨enc, ipktbuf, zin, sofarRumor, w, reads' ++ reads,
    xdata'.trans xdata, istring'.trans istring, ?_⟩
  rw [List.map_append, List.append_assoc]

theorem Writes.packs
    {s : Sys ω}
    {k' : KData}
    (writes : Writes s.k k') :
    Packs s { s with k := k' } := by
  obtain ⟨sRpt, size, osize, xdatabuf, ipktbuf, rfl⟩ := writes
  refine ⟨_, ipktbuf, s.k.zin, s.r.sofarRumor, s.w, [], ?_, ?_, rfl⟩
  · rfl
  · rfl

theorem ReadsOnly.packs
    {s s' : Sys ω}
    (reads : ReadsOnly s s') :
    Packs s s' := by
  obtain ⟨zin, w, reads, rfl⟩ := reads
  exact ⟨s.k.enc, s.k.ipktbuf, zin, s.r.sofarRumor, w, reads, rfl, rfl, rfl⟩

theorem Packs.settings
    {s s' : Sys ω}
    (packs : Packs s s') :
    s'.k.cfg = s.k.cfg ∧ s'.k.par = s.k.par := by
  obtain ⟨_, _, _, _, _, _, _, _, rfl⟩ := packs
  exact ⟨rfl, rfl⟩

/-- The state after a turn of the loop, before the length is looked at. -/
def turn
    (io : Io ω)
    (c : UInt8)
    (s : Sys ω) : Sys ω :=
  encodeNext io c (nextChar io s).1
    (noteChar (nextChar io s).1 (nextChar io s).2)

/-- What a turn of the loop has done. -/
structure TurnOf
    (left : ω → List UInt8)
    (field : List UInt8)
    (held : Nat)
    (c : UInt8)
    (input : List UInt8)
    (s s' : Sys ω) : Prop where
  holds : ∃ tail,
    Holds (field ++
      (encodeRuns s.k.cfg s.k.par
          (turnRuns s.k.par.rptflg held c input.head?).1 ++
        encodeRuns s.k.cfg s.k.par
          (turnRuns s.k.par.rptflg held c input.head?).2))
      tail s'.k ∧
    ((turnRuns s.k.par.rptflg held c input.head?).2 ≠ [] →
      tail.head? = some 0)
  osize : s'.k.enc.osize = (field ++ encodeRuns s.k.cfg s.k.par
    (turnRuns s.k.par.rptflg held c input.head?).1).length
  sRpt : s'.k.enc.sRpt = turnHeld s.k.par.rptflg held c input.head?
  char : s'.k.enc.cgetpkt = input.head?
  flag : s'.k.enc.sFirst =
    if input.head? = none then -1 else s.k.enc.sFirst
  seen : input.head? = none → .readf none ∈ s'.log
  kept : s'.k.enc.sRemain = s.k.enc.sRemain
  unread : Input left s' input.tail
  packs : Packs s s'

/-- A turn reads past the first character, and may see the end. -/
theorem TurnOf.begun
    {left : ω → List UInt8}
    {field : List UInt8}
    {held : Nat}
    {c : UInt8}
    {input : List UInt8}
    {s s' : Sys ω}
    (turned : TurnOf left field held c input s s')
    (started : s.k.enc.sFirst = 0) :
    s'.k.enc.sFirst ≠ 1 := by
  rw [turned.flag, started]
  split <;> decide

theorem turn_turnOf
    {mode : Int}
    {io : Io ω}
    {left : ω → List UInt8}
    (reader : ReadsIn mode io left)
    {field tail input : List UInt8}
    {held : Nat}
    (c : UInt8)
    {s : Sys ω}
    (inMode : s.k.par.binary = mode)
    (noString : s.k.enc.istring = none)
    (holds : Holds field tail s.k)
    (counted : s.k.enc.sRpt = held)
    (countable : Countable s.k.par.rptflg held)
    (room : field.length + 8 ≤ pPktlen)
    (early : held = 1 → some c ≠ input.head? →
      (field.length : Int) + 7 ≤ s.k.par.sMaxlen)
    (unread : Input left s input) :
    (nextChar io s).1 = input.head? ∧
      TurnOf left field held c input s (turn io c s) := by
  obtain ⟨next, unread', seen, reads⟩ := zgetc_input reader inMode unread
  unfold turn
  rw [nextChar_zgetc io noString, next]
  refine ⟨rfl, ?_⟩
  generalize (zgetc io s).2 = s₁ at *
  obtain ⟨zin, w, answers, rfl⟩ := reads
  have noted : ∃ sFirst sofarRumor,
      sFirst = (if input.head? = none then -1 else s.k.enc.sFirst) ∧
      noteChar input.head?
        { s with
          k.zin := zin, w := w, log := answers.map .readf ++ s.log } =
        { s with
          k.zin := zin, k.enc.sFirst := sFirst
          r.sofarRumor := sofarRumor
          w := w, log := answers.map .readf ++ s.log } := by
    unfold noteChar
    split
    · exact ⟨_, _, rfl, rfl⟩
    · exact ⟨_, _, rfl, rfl⟩
  obtain ⟨sFirst, sofarRumor, flag, noted⟩ := noted
  rw [noted]
  unfold encodeNext
  obtain ⟨k', same, turned⟩ := encode_turned io c input.head?
    (s := { s with
      k.zin := zin, k.enc.sFirst := sFirst, k.enc.osize := s.k.enc.size
      r.sofarRumor := sofarRumor
      w := w, log := answers.map .readf ++ s.log })
    ⟨holds.memory, holds.size⟩ holds.size counted countable room early
  dsimp only at same ⊢
  rw [same]
  obtain ⟨⟨tail', now, ended⟩, osize, sRpt, writes⟩ := turned
  obtain ⟨sRpt', size, osize', xdatabuf, ipktbuf, rfl⟩ := writes
  have packs : Packs s
      { s with
        k :=
          { s.k with
            zin := zin
            enc :=
              { s.k.enc with
                sFirst := sFirst, sRpt := sRpt', size := size, osize := osize'
                xdatabuf := xdatabuf, cgetpkt := input.head? }
            ipktbuf := ipktbuf }
        r.sofarRumor := sofarRumor
        w := w
        log := answers.map .readf ++ s.log } := by
    refine ⟨_, ipktbuf, zin, sofarRumor, w, answers, ?_, ?_, rfl⟩
    · rfl
    · rfl
  exact
    { holds := ⟨tail', ⟨now.memory, now.size⟩, ended⟩
      osize := osize
      sRpt := sRpt
      char := rfl
      flag := flag
      seen := seen
      kept := rfl
      unread := unread'
      packs := packs }

/-- What is still to be put into fields at the head of a turn. -/
def atTurnRest
    (start : List CharRun)
    (held : Nat)
    (c : UInt8)
    (input : List UInt8) : List UInt8 :=
  expand start ++ (List.replicate held c ++ c :: input)

/-- What `getpkt()` has still to put into data fields. -/
inductive Waiting
    (left : ω → List UInt8)
    (s : Sys ω) : List UInt8 → Prop where
  | first
      {input : List UInt8}
      (flag : s.k.enc.sFirst = 1)
      (counted : s.k.enc.sRpt = 0)
      (unread : Input left s input) :
      Waiting left s input
  | going
      {rem : List CharRun}
      {held : Nat}
      {c : UInt8}
      {input : List UInt8}
      (flag : s.k.enc.sFirst = 0)
      (char : s.k.enc.cgetpkt = some c)
      (counted : s.k.enc.sRpt = held)
      (countable : Countable s.k.par.rptflg held)
      (kept : s.k.enc.sRemain = encodeRuns s.k.cfg s.k.par rem)
      (one : rem.length ≤ 1)
      (said : ∀ run ∈ rem, run.Said s.k.par.rptflg)
      (unread : Input left s input) :
      Waiting left s (atTurnRest rem held c input)
  | ended
      {rem : List CharRun}
      (flag : s.k.enc.sFirst = -1)
      (seen : .readf none ∈ s.log)
      (counted : s.k.enc.sRpt = 0)
      (kept : s.k.enc.sRemain = encodeRuns s.k.cfg s.k.par rem)
      (one : rem.length ≤ 1)
      (said : ∀ run ∈ rem, run.Said s.k.par.rptflg)
      (unread : Input left s []) :
      Waiting left s (expand rem)

/-- A data field that `getpkt()` has filled from `rest`. -/
structure Packed
    (left : ω → List UInt8)
    (rest : List UInt8)
    (s : Sys ω)
    (result : Int × Sys ω)
    (runs : List CharRun)
    (rest' : List UInt8) : Prop where
  said : ∀ run ∈ runs, run.Said s.k.par.rptflg
  split : rest = expand runs ++ rest'
  something : runs ≠ []
  length : result.1 = (encodeRuns s.k.cfg s.k.par runs).length
  fits : result.1 ≤ max (getpktMaxlen s.k.par + 1) 6
  memory : ∃ tail,
    xdataMem result.2.k = encodeRuns s.k.cfg s.k.par runs ++ tail
  waiting : Waiting left result.2 rest'
  begun : result.2.k.enc.sFirst ≠ 1
  packs : Packs s result.2

/-- A turn of the loop of `getpkt()` and the choice it makes. -/
theorem getpktLoop_succ
    (io : Io ω)
    (turns : Nat)
    (c : UInt8)
    (s : Sys ω) :
    getpktLoop io (turns + 1) c s =
      (let s' := turn io c s
      let maxlen := getpktMaxlen s'.k.par
      if s'.k.enc.size = maxlen then ((s'.k.enc.size : Int), s')
      else if s'.k.enc.size > maxlen then
        ((s'.k.enc.osize : Int), { s' with k := cutBack s'.k })
      else
        match (nextChar io s).1 with
        | some next => getpktLoop io turns next s'
        | none => (s'.k.enc.size, s')) :=
  rfl

/-- The cut back keeps the field up to `osize` and the bytes after it. -/
theorem cutBack_holds
    {field beyond tail : List UInt8}
    {k : KData}
    (holds : Holds (field ++ beyond) tail k)
    (ended : tail.head? = some 0)
    (noZero : (0 : UInt8) ∉ beyond)
    (place : k.enc.osize = field.length) :
    (∃ tail', xdataMem (cutBack k) = field ++ tail') ∧
      (cutBack k).enc.sRemain = beyond ∧
      (cutBack k).enc.size = field.length := by
  have shape : xdataMem k = field ++ (beyond ++ tail) := by
    rw [holds.memory, List.append_assoc]
  have remain : cstrAt (xdataMem k) k.enc.osize = beyond := by
    cases tail with
    | nil =>
        exact absurd ended (by simp)
    | cons byte rest =>
        have zero : byte = 0 := by simpa using ended
        rw [shape, place, zero]
        unfold cstrAt
        rw [List.drop_left]
        exact cstr_append_zero noZero rest
  unfold cutBack
  dsimp only
  refine ⟨?_, ?_, ?_⟩
  · refine ⟨[0] ++ (beyond ++ tail).drop 1, ?_⟩
    rw [xdataMem_pokeXdata, place]
    show poke (xdataMem k) _ _ = _
    rw [shape, poke_end]
    rfl
  · unfold pokeXdata
    split
    · exact remain
    · exact remain
  · unfold pokeXdata
    split
    · exact place
    · exact place

theorem cutBack_packs
    (s : Sys ω) :
    Packs s { s with k := cutBack s.k } ∧
      (cutBack s.k).enc.sFirst = s.k.enc.sFirst ∧
      (cutBack s.k).enc.cgetpkt = s.k.enc.cgetpkt ∧
      (cutBack s.k).enc.sRpt = s.k.enc.sRpt ∧
      (cutBack s.k).zin = s.k.zin := by
  unfold cutBack pokeXdata
  dsimp only
  split
  · refine ⟨⟨_, s.k.ipktbuf, s.k.zin, s.r.sofarRumor, s.w, [],
      ?_, ?_, rfl⟩, rfl, rfl, rfl, rfl⟩
    · rfl
    · rfl
  · refine ⟨⟨_, _, s.k.zin, s.r.sofarRumor, s.w, [], ?_, ?_, rfl⟩,
      rfl, rfl, rfl, rfl⟩
    · rfl
    · rfl

/-- After a turn the lookahead is what is next, as often as it was counted. -/
theorem TurnOf.waiting
    {left : ω → List UInt8}
    {field : List UInt8}
    {held : Nat}
    {c : UInt8}
    {input : List UInt8}
    {s s' s'' : Sys ω}
    (turned : TurnOf left field held c input s s')
    (started : s.k.enc.sFirst = 0)
    {rem : List CharRun}
    (same : Packs s' s'' ∧ s''.k.enc.sFirst = s'.k.enc.sFirst ∧
      s''.k.enc.cgetpkt = s'.k.enc.cgetpkt ∧
      s''.k.enc.sRpt = s'.k.enc.sRpt ∧
      s''.k.zin = s'.k.zin ∧ s''.w = s'.w ∧ s''.log = s'.log)
    (kept : s''.k.enc.sRemain = encodeRuns s.k.cfg s.k.par rem)
    (one : rem.length ≤ 1)
    (said : ∀ run ∈ rem, run.Said s.k.par.rptflg) :
    Waiting left s'' (expand rem ++
      (List.replicate (turnHeld s.k.par.rptflg held c input.head?) c ++
        input)) := by
  obtain ⟨packs, first, char, copies, zin, w, log⟩ := same
  obtain ⟨cfg, par⟩ := (turned.packs.trans packs).settings
  have unread : Input left s'' input.tail := by
    obtain ⟨buf, at', rest⟩ := turned.unread
    exact ⟨buf, zin.trans at', by rw [w]; exact rest⟩
  have flag := first.trans turned.flag
  have next := char.trans turned.char
  have counted := copies.trans turned.sRpt
  rw [← cfg, ← par] at kept
  rw [← par] at said
  cases input with
  | nil =>
      have nothing : turnHeld s.k.par.rptflg held c
          ([] : List UInt8).head? = 0 := by
        simp [turnHeld]
      rw [nothing] at counted ⊢
      rw [List.replicate_zero, List.append_nil, List.append_nil]
      have seen : .readf none ∈ s''.log := by
        rw [log]
        exact turned.seen rfl
      exact .ended flag seen counted kept one said unread
  | cons c' more =>
      rw [List.head?_cons] at counted ⊢
      rw [replicate_turnHeld]
      refine .going (flag.trans started) next counted ?_ kept one said unread
      rw [par]
      exact turnHeld_countable ..

/-- The bytes of the longest run that `encode()` says. -/
def longestRun
    (p : Params) : Int :=
  if p.rptflg ≠ 0 then 4 else 2

/-- The settings for a file sent in binary mode, with room for a field. -/
structure Filling
    (k : KData) : Prop where
  encoding : PlainEncoding k.cfg k.par
  room : longestRun k.par ≤ getpktMaxlen k.par
  small : k.par.sMaxlen ≤ pPktlen

/-- What `getpkt()` needs of the settings of any transfer. -/
structure Fits
    (k : KData) : Prop where
  packable : Packable k.cfg k.par
  room : longestRun k.par ≤ getpktMaxlen k.par
  small : k.par.sMaxlen ≤ pPktlen

theorem Filling.fits
    {k : KData}
    (filling : Filling k) :
    Fits k where
  packable := filling.encoding.packable
  room := filling.room
  small := filling.small

theorem Packs.fits
    {s s' : Sys ω}
    (packs : Packs s s')
    (fits : Fits s.k) :
    Fits s'.k := by
  obtain ⟨cfg, par⟩ := packs.settings
  obtain ⟨packable, room, small⟩ := fits
  exact ⟨by rw [cfg, par]; exact packable, by rw [par]; exact room,
    by rw [par]; exact small⟩

/-- The state at the head of a turn, with the runs that the field is made of. -/
structure AtTurn
    (left : ω → List UInt8)
    (start : List CharRun)
    (held : Nat)
    (c : UInt8)
    (input : List UInt8)
    (s : Sys ω) : Prop where
  fits : Fits s.k
  noString : s.k.enc.istring = none
  started : s.k.enc.sFirst = 0
  nothing : s.k.enc.sRemain = []
  holds : ∃ tail, Holds (encodeRuns s.k.cfg s.k.par start) tail s.k
  said : ∀ run ∈ start, run.Said s.k.par.rptflg
  counted : s.k.enc.sRpt = held
  countable : Countable s.k.par.rptflg held
  unread : Input left s input
  below : ((encodeRuns s.k.cfg s.k.par start).length : Int) ≤
    getpktMaxlen s.k.par
  short : ((encodeRuns s.k.cfg s.k.par start).length : Int) <
    max (getpktMaxlen s.k.par) 5

theorem atTurnRest_eq
    {rptflg : Int}
    {held : Nat}
    (countable : Countable rptflg held)
    (start : List CharRun)
    (c : UInt8)
    (input : List UInt8) :
    atTurnRest start held c input =
      expand (start ++ ((turnRuns rptflg held c input.head?).1 ++
        (turnRuns rptflg held c input.head?).2)) ++
      (List.replicate (turnHeld rptflg held c input.head?) c ++ input) := by
  have turned := expand_turnRuns countable c input.head?
  have split : List.replicate held c ++ c :: input =
      (List.replicate held c ++ [c]) ++ input := by
    simp
  unfold atTurnRest
  rw [split, turned]
  simp

theorem AtTurn.said_turn
    {left : ω → List UInt8}
    {start : List CharRun}
    {held : Nat}
    {c : UInt8}
    {input : List UInt8}
    {s : Sys ω}
    (atTurn : AtTurn left start held c input s) :
    (∀ run ∈ start ++ (turnRuns s.k.par.rptflg held c input.head?).1,
      run.Said s.k.par.rptflg) ∧
    (∀ run ∈ (turnRuns s.k.par.rptflg held c input.head?).2,
      run.Said s.k.par.rptflg) := by
  have turned := said_turnRuns atTurn.countable c input.head?
  refine ⟨?_, turned.2⟩
  intro run member
  rcases List.mem_append.mp member with inStart | inTurn
  · exact atTurn.said run inStart
  · exact turned.1 run inTurn

/-- At most one run is left over, of at most four bytes. -/
theorem length_leftover
    {cfg : Config}
    {p : Params}
    (packable : Packable cfg p)
    {rem : List CharRun}
    (one : rem.length ≤ 1)
    (said : ∀ run ∈ rem, run.Said p.rptflg) :
    ((encodeRuns cfg p rem).length : Int) ≤ longestRun p := by
  unfold longestRun
  match rem, one with
  | [], _ =>
      rw [encodeRuns_nil, List.length_nil]
      split <;> decide
  | [run], _ =>
      have short := packable.run (said run (by simp))
      have encoded := packable.length run.char
      rw [encodeRuns_cons, encodeRuns_nil, List.append_nil]
      split
      · omega
      · rename_i noCounts
        have once : run.count = 1 :=
          (said run (by simp)).resolve_right (fun counted =>
            absurd counted.1 noCounts)
        have plain : encodeRun cfg p run = encodeBytes cfg p run.char := by
          simp [encodeRun, once]
        rw [plain]
        omega

theorem longestRun_bounds
    (p : Params) :
    2 ≤ longestRun p ∧ longestRun p ≤ 4 := by
  unfold longestRun
  split <;> decide

/-- A turn writes at most one run after `osize`, and one character before. -/
theorem length_turnRuns
    {cfg : Config}
    {p : Params}
    (packable : Packable cfg p)
    {held : Nat}
    (countable : Countable p.rptflg held)
    (c : UInt8)
    (next : Option UInt8) :
    (encodeRuns cfg p (turnRuns p.rptflg held c next).1).length ≤ 2 ∧
      (turnRuns p.rptflg held c next).2.length ≤ 1 ∧
      ((encodeRuns cfg p (turnRuns p.rptflg held c next).2).length : Int) ≤
        longestRun p := by
  have once := packable.length c
  have said := (said_turnRuns countable c next).2
  have one : (turnRuns p.rptflg held c next).2.length ≤ 1 := by
    unfold turnRuns
    repeat' split
    all_goals simp
  refine ⟨?_, one, ?_⟩
  · unfold turnRuns
    repeat' split
    all_goals simp [encodeRun_once]
    all_goals omega
  · exact length_leftover packable one said

/-- A field that ends with what a turn has written. -/
theorem AtTurn.whole
    {left : ω → List UInt8}
    {start : List CharRun}
    {held : Nat}
    {c : UInt8}
    {input : List UInt8}
    {s s' : Sys ω}
    (atTurn : AtTurn left start held c input s)
    (turned : TurnOf left (encodeRuns s.k.cfg s.k.par start) held c input s s')
    (something : 0 < s'.k.enc.size)
    (fits : (s'.k.enc.size : Int) ≤ getpktMaxlen s.k.par) :
    Packed left (atTurnRest start held c input) s (s'.k.enc.size, s')
      (start ++ ((turnRuns s.k.par.rptflg held c input.head?).1 ++
        (turnRuns s.k.par.rptflg held c input.head?).2))
      (List.replicate (turnHeld s.k.par.rptflg held c input.head?) c ++
        input) := by
  obtain ⟨saidFirst, saidLast⟩ := atTurn.said_turn
  obtain ⟨tail, holds, _⟩ := turned.holds
  rw [← encodeRuns_append, ← encodeRuns_append] at holds
  refine
    { said := ?_
      split := atTurnRest_eq atTurn.countable start c input
      something := ?_
      length := ?_
      fits := by
        show (s'.k.enc.size : Int) ≤ _
        omega
      memory := ⟨tail, holds.memory⟩
      waiting := ?_
      begun := turned.begun atTurn.started
      packs := turned.packs }
  · intro run member
    rw [← List.append_assoc] at member
    rcases List.mem_append.mp member with first | last
    · exact saidFirst run first
    · exact saidLast run last
  · intro empty
    have size := holds.size
    rw [empty, encodeRuns_nil, List.length_nil] at size
    omega
  · exact congrArg _ holds.size
  · have kept : s'.k.enc.sRemain = encodeRuns s.k.cfg s.k.par [] :=
      turned.kept.trans atTurn.nothing
    exact turned.waiting atTurn.started
      ⟨⟨s'.k.enc, s'.k.ipktbuf, s'.k.zin, s'.r.sofarRumor, s'.w, [],
        rfl, rfl, rfl⟩, rfl, rfl, rfl, rfl, rfl, rfl⟩
      kept (by simp) (by simp)

/-- A field that has been cut back to `osize`. -/
theorem AtTurn.cut
    {left : ω → List UInt8}
    {start : List CharRun}
    {held : Nat}
    {c : UInt8}
    {input : List UInt8}
    {s s' : Sys ω}
    (atTurn : AtTurn left start held c input s)
    (turned : TurnOf left (encodeRuns s.k.cfg s.k.par start) held c input s s')
    (something : (turnRuns s.k.par.rptflg held c input.head?).2 ≠ [])
    (beyond : getpktMaxlen s.k.par < s'.k.enc.size) :
    Packed left (atTurnRest start held c input) s
      (s'.k.enc.osize, { s' with k := cutBack s'.k })
      (start ++ (turnRuns s.k.par.rptflg held c input.head?).1)
      (expand (turnRuns s.k.par.rptflg held c input.head?).2 ++ input) := by
  obtain ⟨saidFirst, saidLast⟩ := atTurn.said_turn
  have copies := turnHeld_of_runs something
  have rest := atTurnRest_eq atTurn.countable start c input
  have packable := atTurn.fits.packable
  have room := atTurn.fits.room
  have lengths := length_turnRuns packable atTurn.countable c input.head?
  have short := atTurn.short
  have noZero : (0 : UInt8) ∉ encodeRuns s.k.cfg s.k.par
      (turnRuns s.k.par.rptflg held c input.head?).2 :=
    packable.runs saidLast
  obtain ⟨tail, holds, ended⟩ := turned.holds
  have osize := turned.osize
  have size := holds.size
  simp only [List.length_append] at size
  rw [← List.append_assoc, ← encodeRuns_append] at holds
  rw [← encodeRuns_append] at osize
  obtain ⟨⟨tail', memory⟩, kept, _⟩ :=
    cutBack_holds holds (ended something) noZero osize
  obtain ⟨packs, flag, char, sRpt, zin⟩ := cutBack_packs s'
  have long : (encodeRuns s.k.cfg s.k.par
      (start ++ (turnRuns s.k.par.rptflg held c input.head?).1)).length =
      (encodeRuns s.k.cfg s.k.par start).length +
        (encodeRuns s.k.cfg s.k.par
          (turnRuns s.k.par.rptflg held c input.head?).1).length := by
    simp
  refine
    { said := saidFirst
      split := ?_
      something := ?_
      length := congrArg _ osize
      fits := ?_
      memory := ⟨tail', memory⟩
      waiting := ?_
      begun := fun one => turned.begun atTurn.started (flag.symm.trans one)
      packs := turned.packs.trans packs }
  · rw [rest, copies]
    simp
  · intro empty
    rw [empty] at long
    simp only [encodeRuns_nil, List.length_nil] at long
    omega
  · show (s'.k.enc.osize : Int) ≤ _
    rw [osize, long]
    omega
  · have waiting := turned.waiting atTurn.started
      ⟨packs, flag, char, sRpt, zin, rfl, rfl⟩ kept lengths.2.1 saidLast
    rw [copies] at waiting
    exact waiting

/-- A turn after which the loop goes on. -/
theorem AtTurn.next
    {left : ω → List UInt8}
    {start : List CharRun}
    {held : Nat}
    {c c' : UInt8}
    {input : List UInt8}
    {s s' : Sys ω}
    (atTurn : AtTurn left start held c (c' :: input) s)
    (turned :
      TurnOf left (encodeRuns s.k.cfg s.k.par start) held c (c' :: input) s s')
    (below : (s'.k.enc.size : Int) < getpktMaxlen s.k.par) :
    AtTurn left
      (start ++ ((turnRuns s.k.par.rptflg held c (some c')).1 ++
        (turnRuns s.k.par.rptflg held c (some c')).2))
      (turnHeld s.k.par.rptflg held c (some c')) c' input s' ∧
    atTurnRest start held c (c' :: input) =
      atTurnRest
        (start ++ ((turnRuns s.k.par.rptflg held c (some c')).1 ++
          (turnRuns s.k.par.rptflg held c (some c')).2))
        (turnHeld s.k.par.rptflg held c (some c')) c' input := by
  obtain ⟨saidFirst, saidLast⟩ := atTurn.said_turn
  obtain ⟨cfg, par⟩ := turned.packs.settings
  have rest := atTurnRest_eq atTurn.countable start c (c' :: input)
  obtain ⟨tail, holds, _⟩ := turned.holds
  simp only [List.head?_cons] at *
  rw [← encodeRuns_append, ← encodeRuns_append] at holds
  constructor
  · refine
      { fits := turned.packs.fits atTurn.fits
        noString := ?_
        started := turned.flag.trans atTurn.started
        nothing := turned.kept.trans atTurn.nothing
        holds := ?_
        said := ?_
        counted := turned.sRpt
        countable := ?_
        unread := turned.unread
        below := ?_
        short := ?_ }
    · obtain ⟨_, _, _, _, _, _, _, istring, same⟩ := turned.packs
      rw [same]
      exact istring.trans atTurn.noString
    · rw [cfg, par]
      exact ⟨tail, holds⟩
    · rw [par]
      intro run member
      rw [← List.append_assoc] at member
      rcases List.mem_append.mp member with first | last
      · exact saidFirst run first
      · exact saidLast run last
    · rw [par]
      exact turnHeld_countable _ _ _ _
    · rw [cfg, par, ← holds.size]
      exact Int.le_of_lt below
    · rw [cfg, par, ← holds.size]
      omega
  · rw [rest, replicate_turnHeld]
    rfl

/-- The turns left before a field is full. -/
def turnsLeft
    (p : Params)
    (size held : Nat) : Nat :=
  ((getpktMaxlen p).toNat - size) * 236 + (235 - held)

/-- The runs of a turn make the field longer, or a character is counted. -/
theorem turnsLeft_runs
    (cfg : Config)
    {p : Params}
    {size held : Nat}
    (countable : Countable p.rptflg held)
    (c : UInt8)
    (next : Option UInt8)
    (below :
      (size + ((encodeRuns cfg p (turnRuns p.rptflg held c next).1).length +
        (encodeRuns cfg p (turnRuns p.rptflg held c next).2).length) : Int) <
        getpktMaxlen p) :
    turnsLeft p
        (size + ((encodeRuns cfg p (turnRuns p.rptflg held c next).1).length +
          (encodeRuns cfg p (turnRuns p.rptflg held c next).2).length))
        (turnHeld p.rptflg held c next) <
      turnsLeft p size held := by
  have small := countable.small
  unfold turnsLeft
  by_cases nothing : (turnRuns p.rptflg held c next).2 = []
  · obtain ⟨first, same, copies⟩ := turnRuns_nil nothing
    have more := (turnHeld_countable p.rptflg held c next).small
    rw [copies] at more ⊢
    rw [first, nothing]
    simp only [encodeRuns_nil, List.length_nil]
    omega
  · have copies := turnHeld_of_runs nothing
    have longer := length_encodeRuns_pos cfg p nothing
    rw [copies]
    omega

/-- Every turn makes the field longer or counts a character. -/
theorem turnsLeft_turn
    {left : ω → List UInt8}
    {start : List CharRun}
    {held : Nat}
    {c : UInt8}
    {input : List UInt8}
    {s s' : Sys ω}
    (atTurn : AtTurn left start held c input s)
    (turned : TurnOf left (encodeRuns s.k.cfg s.k.par start) held c input s s')
    (below : (s'.k.enc.size : Int) < getpktMaxlen s.k.par) :
    turnsLeft s.k.par s'.k.enc.size
        (turnHeld s.k.par.rptflg held c input.head?) <
      turnsLeft s.k.par (encodeRuns s.k.cfg s.k.par start).length held := by
  obtain ⟨tail, holds, _⟩ := turned.holds
  have size := holds.size
  simp only [List.length_append] at size
  rw [size] at below ⊢
  exact turnsLeft_runs s.k.cfg atTurn.countable c input.head?
    (by exact_mod_cast below)

/-- The loop of `getpkt()` fills a field. -/
theorem getpktLoop_packed
    {mode : Int}
    {io : Io ω}
    {left : ω → List UInt8}
    (reader : ReadsIn mode io left)
    {turns : Nat}
    {start : List CharRun}
    {held : Nat}
    {c : UInt8}
    {input : List UInt8}
    {s : Sys ω}
    (inMode : s.k.par.binary = mode)
    (atTurn : AtTurn left start held c input s)
    (enough : turnsLeft s.k.par
      (encodeRuns s.k.cfg s.k.par start).length held < turns) :
    ∃ runs rest',
      Packed left (atTurnRest start held c input) s
        (getpktLoop io turns c s) runs rest' := by
  induction turns generalizing start held c input s with
  | zero =>
      exact absurd enough (Nat.not_lt_zero _)
  | succ turns inductionHypothesis =>
      obtain ⟨tail, holds⟩ := atTurn.holds
      have below := atTurn.below
      have room := atTurn.fits.room
      have longest := longestRun_bounds s.k.par
      have small := atTurn.fits.small
      have smaller : (encodeRuns s.k.cfg s.k.par start).length + 8 ≤
          pPktlen := by
        unfold getpktMaxlen at below
        omega
      have early : ((encodeRuns s.k.cfg s.k.par start).length : Int) + 7 ≤
          s.k.par.sMaxlen := by
        unfold getpktMaxlen at below
        omega
      obtain ⟨read, turned⟩ := turn_turnOf reader c
        inMode atTurn.noString holds atTurn.counted
        atTurn.countable smaller (fun _ _ => early) atTurn.unread
      have par := turned.packs.settings.2
      have maxlen : getpktMaxlen (turn io c s).k.par =
          getpktMaxlen s.k.par := by
        rw [par]
      obtain ⟨tail', holds', _⟩ := turned.holds
      have size := holds'.size
      have idle : (turnRuns s.k.par.rptflg held c input.head?).2 = [] →
          ((turn io c s).k.enc.size : Int) ≤ getpktMaxlen s.k.par := by
        intro nothing
        rw [size, (turnRuns_nil nothing).1, nothing]
        simpa using below
      rw [getpktLoop_succ]
      dsimp only
      rw [maxlen, read]
      by_cases full : ((turn io c s).k.enc.size : Int) = getpktMaxlen s.k.par
      · rw [if_pos full]
        exact ⟨_, _, atTurn.whole turned (by omega) (Int.le_of_eq full)⟩
      rw [if_neg full]
      by_cases beyond : ((turn io c s).k.enc.size : Int) > getpktMaxlen s.k.par
      · rw [if_pos beyond]
        have something : (turnRuns s.k.par.rptflg held c input.head?).2 ≠ [] :=
          fun nothing => absurd (idle nothing) (by omega)
        exact ⟨_, _, atTurn.cut turned something beyond⟩
      rw [if_neg beyond]
      have under : ((turn io c s).k.enc.size : Int) < getpktMaxlen s.k.par := by
        omega
      have fewer := turnsLeft_turn atTurn turned under
      cases input with
      | nil =>
          have something : (turnRuns s.k.par.rptflg held c
              ([] : List UInt8).head?).2 ≠ [] := by
            intro nothing
            have same := (turnRuns_nil nothing).2.1
            exact absurd same (by simp)
          have some := length_encodeRuns_pos s.k.cfg s.k.par something
          simp only [List.length_append] at size
          exact ⟨_, _, atTurn.whole turned (by omega) (Int.le_of_lt under)⟩
      | cons c' input =>
          obtain ⟨atNext, rest⟩ := atTurn.next turned under
          simp only [List.head?_cons] at fewer size ⊢
          have enoughNext : turnsLeft (turn io c s).k.par
              (encodeRuns (turn io c s).k.cfg (turn io c s).k.par
                (start ++ ((turnRuns s.k.par.rptflg held c (some c')).1 ++
                  (turnRuns s.k.par.rptflg held c (some c')).2))).length
              (turnHeld s.k.par.rptflg held c (some c')) < turns := by
            rw [turned.packs.settings.1, par, encodeRuns_append,
              encodeRuns_append, ← size]
            omega
          obtain ⟨runs, rest', packed⟩ :=
            inductionHypothesis (by rw [par]; exact inMode) atNext enoughNext
          refine ⟨runs, rest', ?_⟩
          rw [rest]
          obtain ⟨cfg, par⟩ := turned.packs.settings
          obtain ⟨said, split, something, length, fits, memory, waiting,
            begun, packs⟩ := packed
          rw [cfg, par] at length memory
          rw [par] at said fits
          exact ⟨said, split, something, length, fits, memory, waiting,
            begun, turned.packs.trans packs⟩

/-! ## A call of `getpkt()` -/

/-- Between two calls of `getpkt()` on a file. -/
structure Sending
    (left : ω → List UInt8)
    (rest : List UInt8)
    (s : Sys ω) : Prop where
  filling : Filling s.k
  inForce : s.k.cfg.bcta3 = 0 ∨ s.k.par.bct = 3
  noString : s.k.enc.istring = none
  waiting : Waiting left s rest

/-- Between two calls of `getpkt()` on any input. -/
structure Underway
    (left : ω → List UInt8)
    (rest : List UInt8)
    (s : Sys ω) : Prop where
  fits : Fits s.k
  inForce : s.k.cfg.bcta3 = 0 ∨ s.k.par.bct = 3
  noString : s.k.enc.istring = none
  waiting : Waiting left s rest

theorem Sending.underway
    {left : ω → List UInt8}
    {rest : List UInt8}
    {s : Sys ω}
    (sending : Sending left rest s) :
    Underway left rest s where
  fits := sending.filling.fits
  inForce := sending.inForce
  noString := sending.noString
  waiting := sending.waiting

theorem Underway.forceBcta3
    {left : ω → List UInt8}
    {rest : List UInt8}
    {s : Sys ω}
    (underway : Underway left rest s) :
    forceBcta3 s.k = s.k := by
  unfold Kermit.forceBcta3
  split
  · rename_i forced
    have three := underway.inForce.resolve_left forced
    rw [← three]
  · rfl

/-- The leftovers start the next field. -/
theorem copyRemain_holds
    (k : KData) :
    (∃ tail, Holds k.enc.sRemain tail (copyRemain k)) ∧
      ∃ xdatabuf ipktbuf,
        copyRemain k =
          { k with
            enc :=
              { k.enc with
                size := k.enc.sRemain.length, sRemain := []
                xdatabuf := xdatabuf }
            ipktbuf := ipktbuf } := by
  have memory := xdataMem_pokeXdata 0 (k.enc.sRemain ++ [0]) k
  rw [poke_zero, List.append_assoc] at memory
  unfold copyRemain
  constructor
  · exact ⟨_, memory, rfl⟩
  · unfold pokeXdata
    split
    · exact ⟨_, _, rfl⟩
    · exact ⟨_, _, rfl⟩

/-- The first turn of the loop starts from the leftovers. -/
theorem atTurn_copyRemain
    {left : ω → List UInt8}
    {rem : List CharRun}
    {held : Nat}
    {c : UInt8}
    {input : List UInt8}
    {s : Sys ω}
    (fits : Fits s.k)
    (noString : s.k.enc.istring = none)
    (counted : s.k.enc.sRpt = held)
    (countable : Countable s.k.par.rptflg held)
    (flag : s.k.enc.sFirst = 0)
    (kept : s.k.enc.sRemain = encodeRuns s.k.cfg s.k.par rem)
    (one : rem.length ≤ 1)
    (said : ∀ run ∈ rem, run.Said s.k.par.rptflg)
    (unread : Input left s input) :
    AtTurn left rem held c input { s with k := copyRemain s.k } := by
  have leftover := length_leftover fits.packable one said
  have room := fits.room
  have longest := longestRun_bounds s.k.par
  obtain ⟨⟨tail, holds⟩, xdatabuf, ipktbuf, same⟩ := copyRemain_holds s.k
  rw [kept] at holds
  rw [same] at holds ⊢
  exact
    { fits := ⟨fits.packable, fits.room, fits.small⟩
      noString := noString
      started := flag
      nothing := rfl
      holds := ⟨tail, holds⟩
      said := said
      counted := counted
      countable := countable
      unread := unread
      below := Int.le_trans leftover room
      short := by
        show ((encodeRuns s.k.cfg s.k.par rem).length : Int) < _
        omega }

/-- The loop has turns enough for a field. -/
theorem turnsLeft_lt_getpktFuel
    {p : Params}
    (small : p.sMaxlen ≤ pPktlen)
    (size held : Nat) :
    turnsLeft p size held < getpktFuel := by
  unfold turnsLeft getpktMaxlen getpktFuel
  omega

theorem copyRemain_packs
    (s : Sys ω) :
    Packs s { s with k := copyRemain s.k } := by
  obtain ⟨_, xdatabuf, ipktbuf, same⟩ := copyRemain_holds s.k
  rw [same]
  refine ⟨_, ipktbuf, s.k.zin, s.r.sofarRumor, s.w, [], ?_, ?_, rfl⟩
  · rfl
  · rfl

/-- What was done before the field is packed does not matter to it. -/
theorem Packed.after
    {left : ω → List UInt8}
    {rest rest' : List UInt8}
    {s s' : Sys ω}
    {result : Int × Sys ω}
    {runs : List CharRun}
    (first : Packs s s')
    (packed : Packed left rest s' result runs rest') :
    Packed left rest s result runs rest' := by
  obtain ⟨cfg, par⟩ := first.settings
  obtain ⟨said, split, something, length, fits, memory, waiting, begun,
    packs⟩ := packed
  rw [par] at said fits
  rw [cfg, par] at length memory
  exact ⟨said, split, something, length, fits, memory, waiting, begun,
    first.trans packs⟩

/-- `getpkt()` from the leftovers on, when there is more in the file. -/
theorem getpktRest_packed
    {mode : Int}
    {io : Io ω}
    {left : ω → List UInt8}
    (reader : ReadsIn mode io left)
    {rem : List CharRun}
    {held : Nat}
    {c : UInt8}
    {input : List UInt8}
    {s : Sys ω}
    (inMode : s.k.par.binary = mode)
    (fits : Fits s.k)
    (noString : s.k.enc.istring = none)
    (counted : s.k.enc.sRpt = held)
    (countable : Countable s.k.par.rptflg held)
    (flag : s.k.enc.sFirst = 0)
    (kept : s.k.enc.sRemain = encodeRuns s.k.cfg s.k.par rem)
    (one : rem.length ≤ 1)
    (said : ∀ run ∈ rem, run.Said s.k.par.rptflg)
    (unread : Input left s input) :
    ∃ runs rest',
      Packed left (atTurnRest rem held c input) s (getpktRest io c s)
        runs rest' := by
  have atTurn : AtTurn left rem held c input
      { s with k := copyRemain s.k } :=
    atTurn_copyRemain fits noString counted countable flag kept one said
      unread
  have started : ¬ (copyRemain s.k).enc.sFirst = -1 := by
    have zero : (copyRemain s.k).enc.sFirst = 0 := atTurn.started
    rw [zero]
    decide
  have stillIn : (copyRemain s.k).par.binary = mode := by
    have par : (copyRemain s.k).par = s.k.par :=
      (copyRemain_packs s).settings.2
    rw [par]
    exact inMode
  obtain ⟨runs, rest', packed⟩ := getpktLoop_packed reader stillIn atTurn
    (turnsLeft_lt_getpktFuel atTurn.fits.small _ held)
  have route : getpktRest io c s =
      getpktLoop io getpktFuel c { s with k := copyRemain s.k } := by
    unfold getpktRest
    exact if_neg started
  rw [route]
  exact ⟨runs, rest', packed.after (copyRemain_packs s)⟩

/-- The last field is what was left over at the end of the file. -/
theorem getpktRest_ended
    (io : Io ω)
    {left : ω → List UInt8}
    {rem : List CharRun}
    (c : UInt8)
    {s : Sys ω}
    (fits : Fits s.k)
    (counted : s.k.enc.sRpt = 0)
    (flag : s.k.enc.sFirst = -1)
    (seen : .readf none ∈ s.log)
    (kept : s.k.enc.sRemain = encodeRuns s.k.cfg s.k.par rem)
    (something : rem ≠ [])
    (one : rem.length ≤ 1)
    (said : ∀ run ∈ rem, run.Said s.k.par.rptflg)
    (unread : Input left s []) :
    Packed left (expand rem) s (getpktRest io c s) rem [] := by
  have short := length_leftover fits.packable one said
  have longest := longestRun_bounds s.k.par
  have packs := copyRemain_packs s
  obtain ⟨⟨tail, holds⟩, xdatabuf, ipktbuf, same⟩ := copyRemain_holds s.k
  have ended : (copyRemain s.k).enc.sFirst = -1 := by
    rw [same]
    exact flag
  have route : getpktRest io c s =
      (((copyRemain s.k).enc.size : Int), { s with k := copyRemain s.k }) := by
    unfold getpktRest
    exact if_pos ended
  rw [route]
  rw [kept] at holds
  refine
    { said := said
      split := by simp
      something := something
      length := congrArg _ holds.size
      fits := ?_
      memory := ⟨tail, holds.memory⟩
      waiting := ?_
      begun := by
        intro one
        have first : (copyRemain s.k).enc.sFirst = 1 := one
        omega
      packs := packs }
  · rw [holds.size]
    omega
  · have last : Waiting left { s with k := copyRemain s.k } (expand []) := by
      rw [same]
      exact .ended flag seen counted rfl (by simp) (by simp) unread
    exact last

/-- The first character of a file is read before the leftovers are copied. -/
theorem getpktFirst_read
    {mode : Int}
    {io : Io ω}
    {left : ω → List UInt8}
    (reader : ReadsIn mode io left)
    {input : List UInt8}
    {s : Sys ω}
    (inMode : s.k.par.binary = mode)
    (noString : s.k.enc.istring = none)
    (unread : Input left s input) :
    (getpktFirst io s).1 = input.head? ∧
      Packs s (getpktFirst io s).2 ∧
      Input left (getpktFirst io s).2 input.tail ∧
      (input.head? = none → .readf none ∈ (getpktFirst io s).2.log) ∧
      (getpktFirst io s).2.k.enc.sFirst =
        (if input.head? = none then -1 else 0) ∧
      (getpktFirst io s).2.k.enc.sRemain = [] ∧
      (getpktFirst io s).2.k.enc.sRpt = s.k.enc.sRpt := by
  obtain ⟨next, unread', seen, reads⟩ := zgetc_input reader
    (s := { s with k.enc.sFirst := 0, k.enc.sRemain := [] }) inMode unread
  have read := nextChar_zgetc io
    (s := { s with k.enc.sFirst := 0, k.enc.sRemain := [] }) noString
  unfold getpktFirst
  dsimp only
  rw [read, next]
  generalize (zgetc io
    { s with k.enc.sFirst := 0, k.enc.sRemain := [] }).2 = s₁ at *
  obtain ⟨zin, w, answers, rfl⟩ := reads
  cases input with
  | nil =>
      refine ⟨rfl, ⟨_, s.k.ipktbuf, zin, s.r.sofarRumor, w, answers, ?_, ?_,
        rfl⟩, unread', seen, rfl, rfl, rfl⟩
      · rfl
      · rfl
  | cons c more =>
      dsimp only [List.head?_cons]
      split
      · refine ⟨rfl, ⟨_, s.k.ipktbuf, zin, s.r.sofarRumor + 1, w, answers,
          ?_, ?_, rfl⟩, unread', seen, rfl, rfl, rfl⟩
        · rfl
        · rfl
      · refine ⟨rfl, ⟨_, s.k.ipktbuf, zin, s.r.sofarRumor, w, answers,
          ?_, ?_, rfl⟩, unread', seen, rfl, rfl, rfl⟩
        · rfl
        · rfl

/-- What a call of `getpkt()` does with the input that is left. -/
theorem getpkt_underway
    {mode : Int}
    {io : Io ω}
    {left : ω → List UInt8}
    (reader : ReadsIn mode io left)
    {rest : List UInt8}
    {s : Sys ω}
    (inMode : s.k.par.binary = mode)
    (underway : Underway left rest s) :
    (rest = [] ∧ (getpkt io s).1 = 0 ∧
      (getpkt io s).2.k.enc.sRemain.length ≤ 4 ∧
      .readf none ∈ (getpkt io s).2.log ∧ Packs s (getpkt io s).2) ∨
      ∃ runs rest', Packed left rest s (getpkt io s) runs rest' := by
  have same := underway.forceBcta3
  obtain ⟨fits, _, noString, waiting⟩ := underway
  unfold getpkt
  rw [same]
  dsimp only
  cases waiting with
  | first flag counted unread =>
      obtain ⟨next, packs, unread', seen, started, nothing, rpt⟩ :=
        getpktFirst_read reader inMode noString unread
      rw [if_pos flag]
      rw [next]
      generalize (getpktFirst io s).2 = s' at *
      cases rest with
      | nil =>
          refine .inl ⟨rfl, rfl, ?_, seen rfl, packs⟩
          show s'.k.enc.sRemain.length ≤ 4
          rw [nothing]
          exact Nat.zero_le 4
      | cons c more =>
          obtain ⟨cfg, par⟩ := packs.settings
          have noString' : s'.k.enc.istring = none := by
            obtain ⟨_, _, _, _, _, _, _, istring, rfl⟩ := packs
            exact istring.trans noString
          have kept : s'.k.enc.sRemain = encodeRuns s'.k.cfg s'.k.par [] :=
            nothing
          obtain ⟨runs, rest', packed⟩ := getpktRest_packed reader
            (by rw [par]; exact inMode) (packs.fits fits) noString'
            (rpt.trans counted)
            (countable_zero _) started kept (by simp) (by simp) unread'
          exact .inr ⟨runs, rest', packed.after packs⟩
  | going flag char counted countable kept one said unread =>
      have notFirst : ¬ s.k.enc.sFirst = 1 := by omega
      have notEnded : ¬ (s.k.enc.sFirst = -1 ∧ s.k.enc.sRemain = []) := by
        omega
      rw [if_neg notFirst, if_neg notEnded, char]
      exact .inr (getpktRest_packed reader inMode fits noString counted
        countable flag kept one said unread)
  | @ended rem flag seen counted kept one said unread =>
      have notFirst : ¬ s.k.enc.sFirst = 1 := by omega
      rw [if_neg notFirst]
      by_cases nothing : rem = []
      · subst nothing
        have ended : s.k.enc.sFirst = -1 ∧ s.k.enc.sRemain = [] :=
          ⟨flag, kept⟩
        rw [if_pos ended]
        refine .inl ⟨rfl, rfl, ?_, seen, ?_⟩
        · show s.k.enc.sRemain.length ≤ 4
          rw [kept]
          exact Nat.zero_le 4
        refine ⟨_, s.k.ipktbuf, s.k.zin, s.r.sofarRumor, s.w, [],
          ?_, ?_, rfl⟩
        · rfl
        · rfl
      · have some := length_encodeRuns_pos s.k.cfg s.k.par nothing
        have notEnded : ¬ (s.k.enc.sFirst = -1 ∧ s.k.enc.sRemain = []) := by
          rintro ⟨_, empty⟩
          rw [← kept, empty] at some
          exact absurd some (Nat.lt_irrefl 0)
        rw [if_neg notEnded]
        exact .inr ⟨rem, [], getpktRest_ended io _ fits counted flag seen
          kept nothing one said unread⟩

/-- What a call of `getpkt()` does with the file that is left. -/
theorem getpkt_packed
    {io : Io ω}
    {left : ω → List UInt8}
    (reader : ReadsFile io left)
    {rest : List UInt8}
    {s : Sys ω}
    (sending : Sending left rest s) :
    (rest = [] ∧ (getpkt io s).1 = 0 ∧
      (getpkt io s).2.k.enc.sRemain.length ≤ 4 ∧
      .readf none ∈ (getpkt io s).2.log ∧ Packs s (getpkt io s).2) ∨
      ∃ runs rest', Packed left rest s (getpkt io s) runs rest' :=
  getpkt_underway reader.readsIn sending.filling.encoding.binary
    sending.underway

/-- What is kept between two calls fits the six bytes of `s_remain`. -/
theorem Waiting.remain
    {left : ω → List UInt8}
    {rest : List UInt8}
    {s : Sys ω}
    (waiting : Waiting left s rest)
    (packable : Packable s.k.cfg s.k.par)
    (begun : s.k.enc.sFirst ≠ 1) :
    s.k.enc.sRemain.length ≤ 4 := by
  have longest := longestRun_bounds s.k.par
  cases waiting with
  | first flag _ _ =>
      exact absurd flag begun
  | going _ _ _ _ kept one said _ =>
      have short := length_leftover packable one said
      rw [kept]
      omega
  | ended _ _ _ kept one said _ =>
      have short := length_leftover packable one said
      rw [kept]
      omega

/-- The state after a packed field is again one between two calls. -/
theorem Packed.underway
    {left : ω → List UInt8}
    {rest rest' : List UInt8}
    {s : Sys ω}
    {result : Int × Sys ω}
    {runs : List CharRun}
    (underway : Underway left rest s)
    (packed : Packed left rest s result runs rest') :
    Underway left rest' result.2 := by
  obtain ⟨fits, inForce, noString, _⟩ := underway
  obtain ⟨cfg, par⟩ := packed.packs.settings
  refine
    { fits := packed.packs.fits fits
      inForce := ?_
      noString := ?_
      waiting := packed.waiting }
  · rw [cfg, par]
    exact inForce
  · obtain ⟨_, _, _, _, _, _, _, istring, same⟩ := packed.packs
    rw [same]
    exact istring.trans noString

theorem Packed.sending
    {left : ω → List UInt8}
    {rest rest' : List UInt8}
    {s : Sys ω}
    {result : Int × Sys ω}
    {runs : List CharRun}
    (sending : Sending left rest s)
    (packed : Packed left rest s result runs rest') :
    Sending left rest' result.2 := by
  obtain ⟨_, inForce, noString, waiting⟩ := packed.underway sending.underway
  obtain ⟨cfg, par⟩ := packed.packs.settings
  obtain ⟨encoding, room, small⟩ := sending.filling
  exact
    { filling :=
        ⟨by rw [cfg, par]; exact encoding, by rw [par]; exact room,
          by rw [par]; exact small⟩
      inForce := inForce
      noString := noString
      waiting := waiting }

end Slate106.Kermit
