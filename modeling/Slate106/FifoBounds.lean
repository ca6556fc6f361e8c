import Slate106.FifoCapacity

namespace Slate106.Mldp

open CBytes

/-!
# The indices of `p_buff`

The operations of `fifo.c` once more, with every access to `p_buff` recorded.
Without the record they are the operations; with it, the one access past the
end of the buffer shows: taking a byte out of a completely full FIFO shifts
the byte behind the buffer into it.
-/

/-! ## The operations with their record -/

/-- A FIFO, and the indices of `p_buff` that were read or written. -/
structure Probed where
  f : Fifo
  used : List Nat

namespace Probed

/-- `p_buff[index]`. -/
def read
    (index : Nat)
    (p : Probed) : UInt8 × Probed :=
  (peek p.f.pBuff index, { p with used := index :: p.used })

/-- `p_buff[index] = byte`. -/
def write
    (index : Nat)
    (byte : UInt8)
    (p : Probed) : Probed where
  f := { p.f with pBuff := poke p.f.pBuff index [byte] }
  used := index :: p.used

/-- Every access so far was inside a buffer of this size. -/
def Inside
    (capacity : Nat)
    (p : Probed) : Prop :=
  ∀ index ∈ p.used, index < capacity

instance decidableInside
    (capacity : Nat)
    (p : Probed) :
    Decidable (p.Inside capacity) :=
  inferInstanceAs (Decidable (∀ index ∈ p.used, index < capacity))

end Probed

/-- `fifoPut`, access by access. -/
def probePut
    (byte : UInt8)
    (p : Probed) : Int × Probed :=
  if fifoLength p.f ≤ p.f.buffSize then
    let p := p.write p.f.writePos.toNat byte
    (fifoSuccess, { p with f.writePos := p.f.writePos + 1 })
  else (fifoNotEnoughBig, p)

/-- `fifoShiftLoop`, access by access. -/
def probeShiftLoop : Nat → Nat → Probed → Probed
  | 0, _, p => p
  | n + 1, readpos, p =>
      let next := p.read (readpos + 1)
      probeShiftLoop n (readpos + 1) (next.2.write readpos next.1)

/-- `fifoShift`, access by access. -/
def probeShift
    (p : Probed) : Probed :=
  let p :=
    probeShiftLoop ((fifoLength p.f).toNat - p.f.readPos.toNat)
      p.f.readPos.toNat p
  { p with f.writePos := p.f.writePos - 1 }

/-- `fifoGet`, access by access. -/
def probeGet
    (p : Probed) : Int × Option UInt8 × Probed :=
  if fifoLength p.f ≠ 0 then
    let front := p.read p.f.readPos.toNat
    (fifoSuccess, some front.1, probeShift front.2)
  else (fifoEmpty, none, p)

/-- `fifoReadLoop`, access by access. -/
def probeReadLoop : Nat → Probed → List UInt8 × Probed
  | 0, p => ([], p)
  | n + 1, p =>
      let got := probeGet p
      let more := probeReadLoop n got.2.2
      (got.2.1.toList ++ more.1, more.2)

/-- `fifoRead`, access by access. -/
def probeRead
    (wanted : Bool)
    (size : Option UInt32)
    (p : Probed) : Reply × Probed :=
  match size with
  | none => ({ code := fifoErr, bytes := [], size := none }, p)
  | some requestedLen =>
      let byteCount := fifoLength p.f
      let readSize := min requestedLen byteCount
      if !wanted then
        ({ code := fifoSuccess, bytes := [], size := some byteCount }, p)
      else
        let read := probeReadLoop readSize.toNat p
        ({ code := fifoSuccess, bytes := read.1, size := some readSize },
          read.2)

/-- `fifoWriteLoop`, access by access. -/
def probeWriteLoop : List UInt8 → Probed → Probed
  | [], p => p
  | byte :: rest, p => probeWriteLoop rest (probePut byte p).2

/-- `fifoWrite`, access by access. -/
def probeWrite
    (data : Option (List UInt8))
    (size : Option UInt32)
    (p : Probed) : Reply × Probed :=
  match size with
  | none => ({ code := fifoErr, bytes := [], size := none }, p)
  | some requestedLen =>
      let availableCount := p.f.buffSize - fifoLength p.f + 1
      let writeSize := min requestedLen availableCount
      if isFifoFull p.f then
        ({ code := fifoFull, bytes := [], size := some availableCount }, p)
      else
        match data with
        | none =>
            ({ code := fifoSuccess, bytes := [], size := some availableCount },
              p)
        | some bytes =>
            ({ code := fifoSuccess, bytes := [], size := some writeSize },
              probeWriteLoop (bytes.takeD writeSize.toNat 0) p)

/-- `fifoCall`, access by access. -/
def probeCall
    (op : Op)
    (p : Probed) : Reply × Probed :=
  match op with
  | .put byte =>
      let put := probePut byte p
      (.ofCode put.1, put.2)
  | .get =>
      let got := probeGet p
      ({ code := got.1, bytes := got.2.1.toList, size := none }, got.2.2)
  | .read wanted size => probeRead wanted size p
  | .write data size => probeWrite data size p
  | .length =>
      ({ code := fifoSuccess, bytes := [], size := some (fifoLength p.f) }, p)
  | .isEmpty => (.ofCode (if isFifoEmpty p.f then 1 else 0), p)
  | .isFull => (.ofCode (if isFifoFull p.f then 1 else 0), p)
  | .flush =>
      let flushed := fifoFlush p.f
      (.ofCode flushed.1, { p with f := flushed.2 })

/-- Calls in a row, access by access. -/
def probeCalls : List Op → Probed → List Reply × Probed
  | [], p => ([], p)
  | op :: rest, p =>
      let done := probeCall op p
      let more := probeCalls rest done.2
      (done.1 :: more.1, more.2)

/-! ## The record changes nothing -/

theorem probePut_eq
    (byte : UInt8)
    (p : Probed) :
    (probePut byte p).1 = (fifoPut byte p.f).1 ∧
      (probePut byte p).2.f = (fifoPut byte p.f).2 := by
  unfold probePut fifoPut
  split
  · exact ⟨rfl, rfl⟩
  · exact ⟨rfl, rfl⟩

theorem probeShiftLoop_f
    (turns readpos : Nat)
    (p : Probed) :
    (probeShiftLoop turns readpos p).f =
      { p.f with pBuff := fifoShiftLoop turns readpos p.f.pBuff } := by
  induction turns generalizing readpos p with
  | zero =>
      rfl
  | succ turns inductionHypothesis =>
      rw [probeShiftLoop, inductionHypothesis]
      rfl

theorem probeShift_f
    (p : Probed) :
    (probeShift p).f = fifoShift p.f := by
  unfold probeShift
  dsimp only
  rw [probeShiftLoop_f]
  rfl

theorem probeGet_eq
    (p : Probed) :
    (probeGet p).1 = (fifoGet p.f).1 ∧
      (probeGet p).2.1 = (fifoGet p.f).2.1 ∧
      (probeGet p).2.2.f = (fifoGet p.f).2.2 := by
  unfold probeGet fifoGet
  split
  · exact ⟨rfl, rfl, probeShift_f _⟩
  · exact ⟨rfl, rfl, rfl⟩

theorem probeReadLoop_eq
    (count : Nat)
    (p : Probed) :
    (probeReadLoop count p).1 = (fifoReadLoop count p.f).1 ∧
      (probeReadLoop count p).2.f = (fifoReadLoop count p.f).2 := by
  induction count generalizing p with
  | zero =>
      exact ⟨rfl, rfl⟩
  | succ count inductionHypothesis =>
      obtain ⟨_, byte, after⟩ := probeGet_eq p
      obtain ⟨bytes, last⟩ := inductionHypothesis (probeGet p).2.2
      rw [after] at bytes last
      unfold probeReadLoop fifoReadLoop
      dsimp only
      rw [byte, bytes, last]
      exact ⟨rfl, rfl⟩

theorem probeWriteLoop_f
    (bytes : List UInt8)
    (p : Probed) :
    (probeWriteLoop bytes p).f = fifoWriteLoop bytes p.f := by
  induction bytes generalizing p with
  | nil =>
      rfl
  | cons byte bytes inductionHypothesis =>
      rw [probeWriteLoop, inductionHypothesis, (probePut_eq byte p).2]
      rfl

theorem probeCall_eq
    (op : Op)
    (p : Probed) :
    (probeCall op p).1 = (fifoCall op p.f).1 ∧
      (probeCall op p).2.f = (fifoCall op p.f).2 := by
  cases op with
  | put byte =>
      obtain ⟨code, after⟩ := probePut_eq byte p
      exact ⟨congrArg Reply.ofCode code, after⟩
  | get =>
      obtain ⟨code, byte, after⟩ := probeGet_eq p
      unfold probeCall fifoCall
      dsimp only
      rw [code, byte]
      exact ⟨rfl, after⟩
  | read wanted size =>
      cases size with
      | none => exact ⟨rfl, rfl⟩
      | some size =>
          cases wanted with
          | false => exact ⟨rfl, rfl⟩
          | true =>
              obtain ⟨bytes, after⟩ :=
                probeReadLoop_eq (min size (fifoLength p.f)).toNat p
              unfold probeCall probeRead fifoCall fifoRead
              dsimp only
              rw [bytes]
              exact ⟨rfl, after⟩
  | write data size =>
      cases size with
      | none => exact ⟨rfl, rfl⟩
      | some size =>
          unfold probeCall probeWrite fifoCall fifoWrite
          dsimp only
          split
          · exact ⟨rfl, rfl⟩
          · cases data with
            | none => exact ⟨rfl, rfl⟩
            | some bytes => exact ⟨rfl, probeWriteLoop_f _ p⟩
  | length => exact ⟨rfl, rfl⟩
  | isEmpty => exact ⟨rfl, rfl⟩
  | isFull => exact ⟨rfl, rfl⟩
  | flush => exact ⟨rfl, rfl⟩

/-- The recorded calls answer and leave the FIFO as the calls do. -/
theorem probeCalls_eq
    (ops : List Op)
    (p : Probed) :
    (probeCalls ops p).1 = (fifoCalls ops p.f).1 ∧
      (probeCalls ops p).2.f = (fifoCalls ops p.f).2 := by
  induction ops generalizing p with
  | nil =>
      exact ⟨rfl, rfl⟩
  | cons op ops inductionHypothesis =>
      obtain ⟨reply, after⟩ := probeCall_eq op p
      obtain ⟨replies, last⟩ := inductionHypothesis (probeCall op p).2
      rw [after] at replies last
      unfold probeCalls fifoCalls
      dsimp only
      rw [reply, replies]
      exact ⟨rfl, last⟩

/-! ## The indices of one call -/

namespace Probed

@[simp] theorem inside_read_iff
    (capacity index : Nat)
    (p : Probed) :
    (p.read index).2.Inside capacity ↔
      index < capacity ∧ p.Inside capacity := by
  simp [read, Inside]

@[simp] theorem inside_write_iff
    (capacity index : Nat)
    (byte : UInt8)
    (p : Probed) :
    (p.write index byte).Inside capacity ↔
      index < capacity ∧ p.Inside capacity := by
  simp [write, Inside]

end Probed

/-- The last turn of the shift loop reads one place ahead. -/
theorem inside_probeShiftLoop_iff
    {capacity : Nat}
    (turns readpos : Nat)
    (p : Probed) :
    (probeShiftLoop turns readpos p).Inside capacity ↔
      (turns ≠ 0 → readpos + turns < capacity) ∧ p.Inside capacity := by
  induction turns generalizing readpos p with
  | zero =>
      simp [probeShiftLoop]
  | succ turns inductionHypothesis =>
      rw [probeShiftLoop, inductionHypothesis, Probed.inside_write_iff,
        Probed.inside_read_iff]
      constructor
      · rintro ⟨later, here, ahead, inside⟩
        refine ⟨fun _ => ?_, inside⟩
        by_cases last : turns = 0
        · omega
        · have bound := later last
          omega
      · rintro ⟨bound, inside⟩
        have last := bound (Nat.succ_ne_zero turns)
        exact ⟨fun _ => by omega, by omega, by omega, inside⟩

section Bounds

variable {capacity : Nat}
variable {p : Probed}
variable {queue : List UInt8}

theorem inside_probePut_iff
    (stores : Stores capacity p.f queue)
    (byte : UInt8) :
    (probePut byte p).2.Inside capacity ↔ p.Inside capacity := by
  have positive := stores.positive
  unfold probePut
  split
  · rename_i fits
    rw [UInt32.le_iff_toNat_le, stores.toNat_length, stores.toNat_buffSize]
      at fits
    refine (Probed.inside_write_iff capacity _ byte p).trans ?_
    rw [stores.toNat_writePos]
    exact and_iff_right (by omega)
  · exact Iff.rfl

/-- A byte is taken out inside the buffer unless the FIFO is full. -/
theorem inside_probeGet_iff
    (stores : Stores capacity p.f queue) :
    (probeGet p).2.2.Inside capacity ↔
      (queue ≠ [] → queue.length < capacity) ∧ p.Inside capacity := by
  have start : p.f.readPos.toNat = 0 := by
    rw [stores.readPos]
    rfl
  cases queue with
  | nil =>
      have nothing : ¬ fifoLength p.f ≠ 0 := by
        rw [stores.length]
        decide
      unfold probeGet
      rw [if_neg nothing]
      simp
  | cons byte queue =>
      have stored : fifoLength p.f ≠ 0 := by
        intro zero
        have length := stores.toNat_length
        rw [zero] at length
        exact absurd length (by simp)
      unfold probeGet
      rw [if_pos stored]
      refine (inside_probeShiftLoop_iff _ _ _).trans ?_
      rw [Probed.inside_read_iff]
      show ((fifoLength p.f).toNat - p.f.readPos.toNat ≠ 0 →
          p.f.readPos.toNat + ((fifoLength p.f).toNat - p.f.readPos.toNat) <
            capacity) ∧ p.f.readPos.toNat < capacity ∧ p.Inside capacity ↔ _
      rw [stores.toNat_length, start, List.length_cons]
      constructor
      · rintro ⟨bound, _, inside⟩
        exact ⟨fun _ => by have last := bound (by omega); omega, inside⟩
      · rintro ⟨bound, inside⟩
        have last := bound (List.cons_ne_nil byte queue)
        exact ⟨fun _ => by omega, by omega, inside⟩

/-- Only the first byte can be taken out of a full FIFO. -/
theorem inside_probeReadLoop_iff
    (stores : Stores capacity p.f queue)
    {count : Nat}
    (stored : count ≤ queue.length) :
    (probeReadLoop count p).2.Inside capacity ↔
      (count ≠ 0 → queue.length < capacity) ∧ p.Inside capacity := by
  induction count generalizing p queue with
  | zero =>
      simp [probeReadLoop]
  | succ count inductionHypothesis =>
      cases queue with
      | nil =>
          exact absurd stored (Nat.not_succ_le_zero count)
      | cons byte queue =>
          obtain ⟨f', got, stores'⟩ := stores.fifoGet_cons
          have after : (probeGet p).2.2.f = f' := by
            rw [(probeGet_eq p).2.2, got]
          rw [← after] at stores'
          have bounded : queue.length + 1 ≤ capacity := stores.bounded
          have first := inside_probeGet_iff stores
          have later :=
            inductionHypothesis stores' (Nat.le_of_succ_le_succ stored)
          unfold probeReadLoop
          dsimp only
          have room : count ≠ 0 → queue.length < capacity := fun _ => bounded
          rw [later, first, and_iff_right room]
          simp

theorem inside_probeWriteLoop_iff
    (stores : Stores capacity p.f queue)
    (bytes : List UInt8) :
    (probeWriteLoop bytes p).Inside capacity ↔ p.Inside capacity := by
  induction bytes generalizing p queue with
  | nil =>
      exact Iff.rfl
  | cons byte bytes inductionHypothesis =>
      obtain ⟨queue', stores'⟩ := stores.call (.put byte)
      have put : (fifoCall (.put byte) p.f).2 = (probePut byte p).2.f :=
        (probePut_eq byte p).2.symm
      rw [put] at stores'
      rw [probeWriteLoop, inductionHypothesis stores',
        inside_probePut_iff stores byte]

/-- The call takes at least one byte out, if there is one. -/
def Op.takes : Op → Bool
  | .get => true
  | .read true (some size) => size != 0
  | _ => false

/-- The call takes bytes out of a FIFO with as many bytes as its buffer. -/
def TakesFromFull
    (capacity : Nat)
    (op : Op)
    (f : Fifo) : Prop :=
  op.takes = true ∧ (fifoLength f).toNat = capacity

instance decidableTakesFromFull
    (capacity : Nat)
    (op : Op)
    (f : Fifo) :
    Decidable (TakesFromFull capacity op f) :=
  inferInstanceAs (Decidable (_ ∧ _))

/-- A call stays inside the buffer unless it takes bytes out of a full one. -/
theorem inside_probeCall_iff
    (stores : Stores capacity p.f queue)
    (op : Op) :
    (probeCall op p).2.Inside capacity ↔
      ¬ TakesFromFull capacity op p.f ∧ p.Inside capacity := by
  have bounded := stores.bounded
  have positive := stores.positive
  have untaken (none : op.takes = false) :
      ¬ TakesFromFull capacity op p.f := by
    rintro ⟨takes, _⟩
    rw [none] at takes
    exact Bool.false_ne_true takes
  have full (takes : op.takes = true) :
      ¬ TakesFromFull capacity op p.f ↔ queue.length < capacity := by
    unfold TakesFromFull
    rw [stores.toNat_length, takes]
    simp only [true_and]
    omega
  cases op with
  | put byte =>
      rw [and_iff_right (untaken rfl)]
      exact inside_probePut_iff stores byte
  | get =>
      refine (inside_probeGet_iff stores).trans ?_
      rw [full rfl]
      refine and_congr_left fun _ => ⟨fun bound => ?_, fun room _ => room⟩
      cases queue with
      | nil => exact positive
      | cons byte queue => exact bound (List.cons_ne_nil byte queue)
  | read wanted size =>
      cases size with
      | none => exact (and_iff_right (untaken (by cases wanted <;> rfl))).symm
      | some size =>
          cases wanted with
          | false => exact (and_iff_right (untaken rfl)).symm
          | true =>
              have least := min_ofNat size
                (show queue.length < 2 ^ 32 by
                  have small := stores.small
                  omega)
              have count : (min size (fifoLength p.f)).toNat =
                  min size.toNat queue.length := by
                have small := stores.small
                rw [stores.length, least, UInt32.toNat_ofNat']
                omega
              have inside := inside_probeReadLoop_iff stores
                (Nat.min_le_right size.toNat queue.length)
              rw [← count] at inside
              refine inside.trans ?_
              rw [count]
              by_cases nothing : size = 0
              · subst nothing
                rw [and_iff_right (untaken rfl)]
                simp
              · have some : size.toNat ≠ 0 := by
                  intro zero
                  exact nothing (UInt32.toNat_inj.mp zero)
                rw [full (by simpa [Op.takes] using nothing)]
                refine and_congr_left fun _ =>
                  ⟨fun bound => ?_, fun room _ => room⟩
                by_cases empty : queue.length = 0
                · omega
                · exact bound (by omega)
  | write data size =>
      rw [and_iff_right (untaken rfl)]
      cases size with
      | none => exact Iff.rfl
      | some size =>
          unfold probeCall probeWrite
          dsimp only
          split
          · exact Iff.rfl
          · cases data with
            | none => exact Iff.rfl
            | some bytes => exact inside_probeWriteLoop_iff stores _
  | length => exact (and_iff_right (untaken rfl)).symm
  | isEmpty => exact (and_iff_right (untaken rfl)).symm
  | isFull => exact (and_iff_right (untaken rfl)).symm
  | flush => exact (and_iff_right (untaken rfl)).symm

/-! ## The indices of a run -/

/-- No call of a run takes bytes out of a full FIFO. -/
def NeverFromFull
    (capacity : Nat) : List Op → Fifo → Prop
  | [], _ => True
  | op :: rest, f =>
      ¬ TakesFromFull capacity op f ∧
        NeverFromFull capacity rest (fifoCall op f).2

theorem inside_probeCalls_iff
    (stores : Stores capacity p.f queue)
    (ops : List Op) :
    (probeCalls ops p).2.Inside capacity ↔
      NeverFromFull capacity ops p.f ∧ p.Inside capacity := by
  induction ops generalizing p queue with
  | nil =>
      exact (and_iff_right trivial).symm
  | cons op ops inductionHypothesis =>
      obtain ⟨queue', stores'⟩ := stores.call op
      rw [← (probeCall_eq op p).2] at stores'
      unfold probeCalls NeverFromFull
      dsimp only
      rw [inductionHypothesis stores', inside_probeCall_iff stores op,
        (probeCall_eq op p).2]
      exact and_left_comm.trans and_assoc.symm

end Bounds

/-- The indices of `p_buff` that calls in a row read or write. -/
def usedIndices
    (ops : List Op)
    (f : Fifo) : List Nat :=
  (probeCalls ops { f := f, used := [] }).2.used

/--
The calls on a FIFO stay inside the buffer given to `fifo_init()` exactly when
none of them takes bytes out while the buffer is completely full.
-/
theorem fifoCalls_inside_iff
    (pBuff : List UInt8)
    {bufSize : UInt16}
    (positive : bufSize ≠ 0)
    (f₀ : Fifo)
    (ops : List Op) :
    let f := (fifoInit (some pBuff) bufSize f₀).2
    (∀ index ∈ usedIndices ops f, index < bufSize.toNat) ↔
      NeverFromFull bufSize.toNat ops f := by
  intro f
  have stores : Stores bufSize.toNat
      ({ f := f, used := [] } : Probed).f [] :=
    Stores.init positive pBuff f₀
  refine (inside_probeCalls_iff stores ops).trans ?_
  exact and_iff_left (List.forall_mem_nil _)

/-- A byte goes in and comes out of a buffer of two bytes. -/
theorem fifoCalls_inside_pair :
    (∀ index ∈ usedIndices [.put 7, .get]
        (fifoInit (some [0, 0]) 2 freshFifo).2, index < 2) ↔
      NeverFromFull 2 [.put 7, .get]
        (fifoInit (some [0, 0]) 2 freshFifo).2 :=
  fifoCalls_inside_iff [0, 0] (by decide) freshFifo [.put 7, .get]

/-- The byte behind a buffer of one byte is read when its byte is taken. -/
theorem fifoCalls_outside_single :
    ¬ ∀ index ∈ usedIndices [.put 7, .get]
        (fifoInit (some [0]) 1 freshFifo).2, index < 1 := by
  decide

end Slate106.Mldp
