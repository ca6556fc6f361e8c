import Slate106.Fifo

namespace Slate106.Mldp

open CBytes

/-!
# The capacity of a FIFO

`fifo_init()` takes the size of the buffer and `fifo_put()` goes by it, but
`is_fifo_full()` goes by the size of the array inside the structure.  The two
notions meet when the buffer has 4096 bytes, and away from both boundaries.
-/

/-! ## Calls on a buffer of any size -/

namespace Stores

variable {capacity : Nat}

theorem flush
    {f : Fifo}
    {queue : List UInt8}
    (stores : Stores capacity f queue) :
    Stores capacity (fifoFlush f).2 [] where
  positive := stores.positive
  small := stores.small
  buffSize := stores.buffSize
  readPos := rfl
  writePos := rfl
  bounded := Nat.zero_le _
  memory := ⟨f.pBuff, rfl⟩

/-- `fifo_read()` leaves a FIFO with the bytes it did not take. -/
theorem read
    {f : Fifo}
    {queue : List UInt8}
    (stores : Stores capacity f queue)
    (wanted : Bool)
    (size : Option UInt32) :
    ∃ queue', Stores capacity (fifoRead wanted size f).2 queue' := by
  cases size with
  | none => exact ⟨queue, stores⟩
  | some size =>
      cases wanted with
      | false => exact ⟨queue, stores⟩
      | true =>
          have least : (min size (fifoLength f)).toNat ≤ queue.length := by
            rw [← stores.toNat_length, ← UInt32.le_iff_toNat_le,
              UInt32.min_def]
            split
            · assumption
            · exact UInt32.le_refl _
          obtain ⟨f', taken, stores'⟩ := stores.fifoReadLoop_take least
          refine ⟨queue.drop (min size (fifoLength f)).toNat, ?_⟩
          unfold fifoRead
          dsimp only
          rw [taken]
          exact stores'

/-- `fifo_write()` leaves a FIFO, whatever it was asked for. -/
theorem write
    {f : Fifo}
    {queue : List UInt8}
    (stores : Stores capacity f queue)
    (data : Option (List UInt8))
    (size : Option UInt32) :
    ∃ queue', Stores capacity (fifoWrite data size f).2 queue' := by
  cases size with
  | none => exact ⟨queue, stores⟩
  | some size =>
      cases full : isFifoFull f with
      | true =>
          refine ⟨queue, ?_⟩
          unfold fifoWrite
          dsimp only
          rw [if_pos full]
          exact stores
      | false =>
          cases data with
          | none =>
              refine ⟨queue, ?_⟩
              unfold fifoWrite
              dsimp only
              rw [if_neg (by rw [full]; exact Bool.false_ne_true)]
              exact stores
          | some bytes =>
              obtain ⟨_, stores'⟩ := stores.fifoWrite_room full bytes size
              exact ⟨_, stores'⟩

/-- One call keeps the FIFO. -/
theorem call
    {f : Fifo}
    {queue : List UInt8}
    (stores : Stores capacity f queue)
    (op : Op) :
    ∃ queue', Stores capacity (fifoCall op f).2 queue' := by
  cases op with
  | put byte =>
      by_cases room : queue.length < capacity
      · exact ⟨_, (stores.fifoPut_room room byte).2⟩
      · have bounded := stores.bounded
        have full := stores.fifoPut_full (by omega) byte
        refine ⟨queue, ?_⟩
        unfold fifoCall
        dsimp only
        rw [full]
        exact stores
  | get =>
      unfold fifoCall
      dsimp only
      cases queue with
      | nil =>
          refine ⟨[], ?_⟩
          rw [stores.fifoGet_nil]
          exact stores
      | cons byte queue =>
          obtain ⟨f', got, stores'⟩ := stores.fifoGet_cons
          refine ⟨queue, ?_⟩
          rw [got]
          exact stores'
  | read wanted size => exact stores.read wanted size
  | write data size => exact stores.write data size
  | length => exact ⟨queue, stores⟩
  | isEmpty => exact ⟨queue, stores⟩
  | isFull => exact ⟨queue, stores⟩
  | flush => exact ⟨[], stores.flush⟩

/-- Calls in a row keep the FIFO. -/
theorem calls
    {f : Fifo}
    {queue : List UInt8}
    (stores : Stores capacity f queue)
    (ops : List Op) :
    ∃ queue', Stores capacity (fifoCalls ops f).2 queue' := by
  induction ops generalizing f queue with
  | nil =>
      exact ⟨queue, stores⟩
  | cons op ops inductionHypothesis =>
      obtain ⟨_, stores'⟩ := stores.call op
      exact inductionHypothesis stores'

end Stores

/-! ## What a write makes of the capacity -/

/-- The unread bytes of a FIFO, oldest first. -/
def contents
    (f : Fifo) : List UInt8 :=
  (f.pBuff.drop f.readPos.toNat).take (fifoLength f).toNat

theorem Stores.contents_eq
    {capacity : Nat}
    {f : Fifo}
    {queue : List UInt8}
    (stores : Stores capacity f queue) :
    contents f = queue := by
  obtain ⟨tail, memory⟩ := stores.memory
  have start : f.readPos.toNat = 0 := by
    rw [stores.readPos]
    rfl
  rw [contents, stores.toNat_length, start, memory, List.drop_zero,
    List.take_left]

/--
`fifo_write()` reports a full FIFO when it stores as many bytes as its buffer
has, and else stores and reports what there is room for.
-/
def HonoursCapacity
    (bufSize : UInt16)
    (bytes : List UInt8)
    (size : UInt32)
    (f : Fifo) : Prop :=
  let stored := (contents f).length
  let count := min size.toNat (bufSize.toNat - stored)
  let written := fifoWrite (some bytes) (some size) f
  if stored = bufSize.toNat then written.1.code = fifoFull
  else
    written.1.code = fifoSuccess ∧
      written.1.size = some (UInt32.ofNat count) ∧
      contents written.2 = contents f ++ bytes.takeD count 0

instance decidableHonoursCapacity
    (bufSize : UInt16)
    (bytes : List UInt8)
    (size : UInt32)
    (f : Fifo) :
    Decidable (HonoursCapacity bufSize bytes size f) := by
  unfold HonoursCapacity
  exact inferInstance

theorem Stores.honours_iff
    {bufSize : UInt16}
    {f : Fifo}
    {queue : List UInt8}
    (stores : Stores bufSize.toNat f queue)
    (bytes : List UInt8)
    (size : UInt32) :
    HonoursCapacity bufSize bytes size f ↔
      bufSize.toNat = mldpRxBuffSize ∨
        (queue.length ≠ bufSize.toNat ∧ queue.length ≠ mldpRxBuffSize) := by
  unfold HonoursCapacity
  dsimp only
  rw [stores.contents_eq]
  have boundary := stores.isFifoFull_iff
  cases full : isFifoFull f with
  | true =>
      have many := boundary.mp full
      have code : (fifoWrite (some bytes) (some size) f).1.code = fifoFull := by
        unfold fifoWrite
        dsimp only
        rw [if_pos full]
      rw [code]
      split
      · rename_i stored
        exact ⟨fun _ => Or.inl (stored.symm.trans many), fun _ => rfl⟩
      · rename_i less
        constructor
        · rintro ⟨success, _⟩
          exact absurd success (show fifoFull ≠ fifoSuccess by decide)
        · rintro (same | ⟨_, other⟩)
          · exact absurd (many.trans same.symm) less
          · exact absurd many other
  | false =>
      have few : queue.length ≠ mldpRxBuffSize := by
        intro many
        have isFull := boundary.mpr many
        rw [full] at isFull
        exact Bool.false_ne_true isFull
      obtain ⟨reply, stores'⟩ := stores.fifoWrite_room full bytes size
      rw [reply, stores'.contents_eq]
      split
      · rename_i stored
        constructor
        · intro code
          exact absurd code (show fifoSuccess ≠ fifoFull by decide)
        · rintro (same | ⟨less, _⟩)
          · exact absurd (stored.trans same) few
          · exact absurd stored less
      · rename_i less
        exact ⟨fun _ => Or.inr ⟨less, few⟩, fun _ => ⟨rfl, rfl, rfl⟩⟩

/--
A write goes by the size of the buffer exactly when that is the size of the
array inside the structure, or the FIFO has reached neither of the two.
-/
theorem fifoWrite_honours_iff
    (pBuff : List UInt8)
    {bufSize : UInt16}
    (positive : bufSize ≠ 0)
    (f₀ : Fifo)
    (ops : List Op)
    (bytes : List UInt8)
    (size : UInt32) :
    let f := (fifoCalls ops (fifoInit (some pBuff) bufSize f₀).2).2
    HonoursCapacity bufSize bytes size f ↔
      bufSize.toNat = mldpRxBuffSize ∨
        ((fifoLength f).toNat ≠ bufSize.toNat ∧
          (fifoLength f).toNat ≠ mldpRxBuffSize) := by
  obtain ⟨queue, stores⟩ := (Stores.init positive pBuff f₀).calls ops
  dsimp only
  rw [stores.toNat_length]
  exact stores.honours_iff bytes size

/-- A FIFO in memory that nothing has been stored in. -/
def freshFifo : Fifo where
  pBuff := []
  buffSize := 0
  readPos := 0
  writePos := 0

/-- A third byte is cut off a request when there is room for two. -/
theorem fifoWrite_honours_small :
    HonoursCapacity 2 [1, 2, 3] 3
      (fifoCalls [] (fifoInit (some [0, 0]) 2 freshFifo).2).2 :=
  (fifoWrite_honours_iff [0, 0] (by decide) freshFifo [] [1, 2, 3] 3).mpr
    (Or.inr (by decide))

/-- A full FIFO of one byte reports that it has stored nothing, successfully. -/
theorem fifoWrite_full_small :
    let f := (fifoCalls [.put 7] (fifoInit (some [0]) 1 freshFifo).2).2
    ¬ HonoursCapacity 1 [8] 1 f ∧
      contents f = [7] ∧
      (fifoWrite (some [8]) (some 1) f).1.code = fifoSuccess ∧
      (fifoWrite (some [8]) (some 1) f).1.size = some 0 := by
  decide +kernel

end Slate106.Mldp
