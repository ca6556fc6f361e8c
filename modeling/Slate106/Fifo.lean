import Mathlib.Algebra.Group.Nat.Defs
import Slate106.BoundedQueue
import Slate106.CBytes

namespace Slate106.Mldp

open CBytes

/-!
# The byte FIFO

`fifo.c`.  The buffer is the memory `p_buff` points to, positions and sizes are
`uint32_t`; the array inside the structure is only used for its size.
-/

/-! ## Constants -/

/-- `MLDP_RX_BUFF_SIZE`, the size of the array `fifo`. -/
abbrev mldpRxBuffSize : Nat := 4096

/-- `MLDP_TX_BUFF_SIZE`. -/
abbrev mldpTxBuffSize : Nat := 4096

abbrev fifoErr : Int := -1

abbrev fifoSuccess : Int := 0

abbrev fifoEmpty : Int := -2

abbrev fifoFull : Int := -3

abbrev fifoNotEnoughBig : Int := -4

/-! ## The functions of `fifo.c` -/

/-- `fifo`. -/
structure Fifo where
  pBuff : List UInt8
  buffSize : UInt32
  readPos : UInt32
  writePos : UInt32
  deriving Repr, DecidableEq

/-- `fifo_init()`; `none` is the null pointer. -/
def fifoInit
    (pBuff : Option (List UInt8))
    (bufSize : UInt16)
    (f : Fifo) : Int × Fifo :=
  match pBuff with
  | none => (fifoErr, f)
  | some pBuff =>
      (fifoSuccess,
        { pBuff := pBuff
          readPos := 0
          writePos := 0
          buffSize := bufSize.toUInt32 - 1 })

/-- `fifo_length()`. -/
def fifoLength
    (f : Fifo) : UInt32 :=
  f.writePos - f.readPos

/-- `fifo_put()`. -/
def fifoPut
    (byte : UInt8)
    (f : Fifo) : Int × Fifo :=
  if fifoLength f ≤ f.buffSize then
    (fifoSuccess,
      { f with
        pBuff := poke f.pBuff f.writePos.toNat [byte]
        writePos := f.writePos + 1 })
  else (fifoNotEnoughBig, f)

/--
The loop of `fifo_shift()`; the first argument is the turns it makes.

The last turn reads the byte after the last stored one, which for a full FIFO
is past the end of its buffer; what it reads is never taken out.
-/
def fifoShiftLoop : Nat → Nat → List UInt8 → List UInt8
  | 0, _, pBuff => pBuff
  | n + 1, readpos, pBuff =>
      fifoShiftLoop n (readpos + 1)
        (poke pBuff readpos [peek pBuff (readpos + 1)])

/-- `fifo_shift()`. -/
def fifoShift
    (f : Fifo) : Fifo :=
  { f with
    pBuff :=
      fifoShiftLoop ((fifoLength f).toNat - f.readPos.toNat) f.readPos.toNat
        f.pBuff
    writePos := f.writePos - 1 }

/-- `fifo_get()`: the return code, and the byte when there is one. -/
def fifoGet
    (f : Fifo) : Int × Option UInt8 × Fifo :=
  if fifoLength f ≠ 0 then
    (fifoSuccess, some (peek f.pBuff f.readPos.toNat), fifoShift f)
  else (fifoEmpty, none, f)

/-- The loop of `fifo_read()`: the bytes it stores. -/
def fifoReadLoop : Nat → Fifo → List UInt8 × Fifo
  | 0, f => ([], f)
  | n + 1, f =>
      let got := fifoGet f
      let more := fifoReadLoop n got.2.2
      (got.2.1.toList ++ more.1, more.2)

/-- What a call reports: its return code, the bytes and the size it stores. -/
structure Reply where
  code : Int
  bytes : List UInt8
  size : Option UInt32
  deriving Repr, DecidableEq

/--
`fifo_read()`.  `wanted` tells whether the data pointer is not null, `size` is
what `p_size` points to (`none` for a null pointer).
-/
def fifoRead
    (wanted : Bool)
    (size : Option UInt32)
    (f : Fifo) : Reply × Fifo :=
  match size with
  | none => ({ code := fifoErr, bytes := [], size := none }, f)
  | some requestedLen =>
      let byteCount := fifoLength f
      let readSize := min requestedLen byteCount
      if !wanted then
        ({ code := fifoSuccess, bytes := [], size := some byteCount }, f)
      else
        let read := fifoReadLoop readSize.toNat f
        ({ code := fifoSuccess, bytes := read.1, size := some readSize },
          read.2)

/-- `is_fifo_full()`. -/
def isFifoFull
    (f : Fifo) : Bool :=
  f.writePos.toNat = mldpRxBuffSize

/-- `is_fifo_empty()`. -/
def isFifoEmpty
    (f : Fifo) : Bool :=
  f.writePos = f.readPos

/-- The loop of `fifo_write()`, over the bytes it puts. -/
def fifoWriteLoop : List UInt8 → Fifo → Fifo
  | [], f => f
  | byte :: rest, f => fifoWriteLoop rest (fifoPut byte f).2

/-- `fifo_write()`; the data and `p_size` are `none` for a null pointer. -/
def fifoWrite
    (data : Option (List UInt8))
    (size : Option UInt32)
    (f : Fifo) : Reply × Fifo :=
  match size with
  | none => ({ code := fifoErr, bytes := [], size := none }, f)
  | some requestedLen =>
      let availableCount := f.buffSize - fifoLength f + 1
      let writeSize := min requestedLen availableCount
      if isFifoFull f then
        ({ code := fifoFull, bytes := [], size := some availableCount }, f)
      else
        match data with
        | none =>
            ({ code := fifoSuccess, bytes := [], size := some availableCount },
              f)
        | some bytes =>
            ({ code := fifoSuccess, bytes := [], size := some writeSize },
              fifoWriteLoop (bytes.takeD writeSize.toNat 0) f)

/-- `fifo_flush()`. -/
def fifoFlush
    (f : Fifo) : Int × Fifo :=
  (fifoSuccess, { f with writePos := 0, readPos := 0 })

/-! ## The queue a FIFO stores -/

/--
The FIFO stores the bytes of a queue from the start of its buffer on, and the
buffer was given a size.
-/
structure Stores
    (capacity : Nat)
    (f : Fifo)
    (queue : List UInt8) : Prop where
  positive : 0 < capacity
  small : capacity < 2 ^ 16
  buffSize : f.buffSize = UInt32.ofNat (capacity - 1)
  readPos : f.readPos = 0
  writePos : f.writePos = UInt32.ofNat queue.length
  bounded : queue.length ≤ capacity
  memory : ∃ tail, f.pBuff = queue ++ tail

namespace Stores

variable {capacity : Nat}

/-- `fifo_init()` on a buffer of any size. -/
theorem init
    {bufSize : UInt16}
    (positive : bufSize ≠ 0)
    (pBuff : List UInt8)
    (f : Fifo) :
    Stores bufSize.toNat (fifoInit (some pBuff) bufSize f).2 [] where
  positive := by
    refine Nat.pos_of_ne_zero fun zero => positive ?_
    exact UInt16.toNat_inj.mp zero
  small := bufSize.toNat_lt
  buffSize := by
    have nonzero : bufSize.toNat ≠ 0 :=
      fun zero => positive (UInt16.toNat_inj.mp zero)
    have small := bufSize.toNat_lt
    show bufSize.toUInt32 - 1 = _
    rw [← UInt32.toNat_inj]
    simp only [UInt32.toNat_sub, UInt32.toNat_ofNat', UInt16.toNat_toUInt32,
      UInt32.reduceToNat]
    omega
  readPos := rfl
  writePos := rfl
  bounded := Nat.zero_le _
  memory := ⟨pBuff, rfl⟩

theorem length
    {f : Fifo}
    {queue : List UInt8}
    (stores : Stores capacity f queue) :
    fifoLength f = UInt32.ofNat queue.length := by
  rw [fifoLength, stores.readPos, stores.writePos, UInt32.sub_zero]

/-- The number of stored bytes as a machine integer. -/
theorem toNat_length
    {f : Fifo}
    {queue : List UInt8}
    (stores : Stores capacity f queue) :
    (fifoLength f).toNat = queue.length := by
  have bounded := stores.bounded
  have small := stores.small
  rw [stores.length, UInt32.toNat_ofNat']
  omega

theorem toNat_writePos
    {f : Fifo}
    {queue : List UInt8}
    (stores : Stores capacity f queue) :
    f.writePos.toNat = queue.length := by
  rw [stores.writePos, ← stores.length, stores.toNat_length]

theorem toNat_buffSize
    {f : Fifo}
    {queue : List UInt8}
    (stores : Stores capacity f queue) :
    f.buffSize.toNat = capacity - 1 := by
  have small := stores.small
  rw [stores.buffSize, UInt32.toNat_ofNat']
  omega

theorem fifoPut_room
    {f : Fifo}
    {queue : List UInt8}
    (stores : Stores capacity f queue)
    (room : queue.length < capacity)
    (byte : UInt8) :
    (fifoPut byte f).1 = fifoSuccess ∧
      Stores capacity (fifoPut byte f).2 (queue ++ [byte]) := by
  obtain ⟨tail, memory⟩ := stores.memory
  have fits : fifoLength f ≤ f.buffSize := by
    rw [UInt32.le_iff_toNat_le, stores.toNat_length, stores.toNat_buffSize]
    exact Nat.le_pred_of_lt room
  unfold fifoPut
  rw [if_pos fits]
  refine ⟨rfl, stores.positive, stores.small, stores.buffSize, stores.readPos,
    ?_, ?_, tail.drop 1, ?_⟩
  · show f.writePos + 1 = _
    rw [stores.writePos, List.length_append, UInt32.ofNat_add]
    rfl
  · rw [List.length_append]
    exact room
  · show poke f.pBuff f.writePos.toNat [byte] = _
    rw [stores.toNat_writePos, memory]
    simp [poke, List.takeD_eq_take, List.drop_append]

theorem fifoPut_full
    {f : Fifo}
    {queue : List UInt8}
    (stores : Stores capacity f queue)
    (full : queue.length = capacity)
    (byte : UInt8) :
    fifoPut byte f = (fifoNotEnoughBig, f) := by
  have positive := stores.positive
  have beyond : ¬ fifoLength f ≤ f.buffSize := by
    rw [UInt32.le_iff_toNat_le, stores.toNat_length, stores.toNat_buffSize]
    omega
  unfold fifoPut
  rw [if_neg beyond]

end Stores

/-- Shifting moves every byte one place to the left. -/
theorem fifoShiftLoop_eq
    (before : List UInt8)
    (byte : UInt8)
    (queue tail : List UInt8) :
    fifoShiftLoop (queue.length + 1) before.length
        (before ++ byte :: (queue ++ tail)) =
      before ++ (queue ++ peek tail 0 :: tail) := by
  induction queue generalizing before byte with
  | nil =>
      have next : peek (before ++ byte :: ([] ++ tail)) (before.length + 1) =
          peek tail 0 := by
        rw [peek_append_right (by omega), Nat.add_sub_cancel_left]
        rfl
      rw [List.length_nil, fifoShiftLoop, next, fifoShiftLoop]
      exact poke_append before [byte] tail [peek tail 0] rfl
  | cons first queue inductionHypothesis =>
      have next : peek (before ++ byte :: (first :: queue ++ tail))
          (before.length + 1) = first := by
        rw [peek_append_right (by omega), Nat.add_sub_cancel_left]
        rfl
      have stored : poke (before ++ byte :: (first :: queue ++ tail))
          before.length [first] =
          before ++ ([first] ++ (first :: queue ++ tail)) :=
        poke_append before [byte] (first :: queue ++ tail) [first] rfl
      have more := inductionHypothesis (before ++ [first]) first
      simp only [List.length_append, List.length_cons, List.length_nil,
        List.append_assoc, List.cons_append, List.nil_append] at more
      rw [List.length_cons, fifoShiftLoop, next, stored]
      exact more

namespace Stores

variable {capacity : Nat}

theorem fifoGet_cons
    {f : Fifo}
    {byte : UInt8}
    {queue : List UInt8}
    (stores : Stores capacity f (byte :: queue)) :
    ∃ f',
      fifoGet f = (fifoSuccess, some byte, f') ∧
      Stores capacity f' queue := by
  obtain ⟨tail, memory⟩ := stores.memory
  have bounded : queue.length + 1 ≤ capacity := stores.bounded
  have stored : fifoLength f ≠ 0 := by
    intro zero
    have length := stores.toNat_length
    rw [zero] at length
    exact absurd length (by simp)
  have front : peek f.pBuff f.readPos.toNat = byte := by
    rw [memory, stores.readPos]
    rfl
  refine ⟨fifoShift f, ?_, stores.positive, stores.small, stores.buffSize,
    stores.readPos, ?_, ?_, ?_⟩
  · unfold fifoGet
    rw [if_pos stored, front]
  · show f.writePos - 1 = _
    rw [stores.writePos, List.length_cons, UInt32.ofNat_add]
    exact UInt32.add_sub_cancel _ _
  · exact Nat.le_of_succ_le bounded
  · refine ⟨peek tail 0 :: tail, ?_⟩
    show fifoShiftLoop _ f.readPos.toNat f.pBuff = _
    rw [stores.toNat_length, stores.readPos, memory]
    exact fifoShiftLoop_eq [] byte queue tail

theorem fifoGet_nil
    {f : Fifo}
    (stores : Stores capacity f []) :
    fifoGet f = (fifoEmpty, none, f) := by
  have nothing : ¬ fifoLength f ≠ 0 := by
    rw [stores.length]
    decide
  unfold fifoGet
  rw [if_neg nothing]

/-- Reading takes the first bytes out, one by one. -/
theorem fifoReadLoop_take
    {f : Fifo}
    {queue : List UInt8}
    (stores : Stores capacity f queue)
    {count : Nat}
    (stored : count ≤ queue.length) :
    ∃ f',
      fifoReadLoop count f = (queue.take count, f') ∧
      Stores capacity f' (queue.drop count) := by
  induction count generalizing f queue with
  | zero =>
      exact ⟨f, rfl, stores⟩
  | succ count inductionHypothesis =>
      cases queue with
      | nil =>
          exact absurd stored (Nat.not_succ_le_zero count)
      | cons byte queue =>
          obtain ⟨f₁, got, stores₁⟩ := stores.fifoGet_cons
          obtain ⟨f', more, stores'⟩ :=
            inductionHypothesis stores₁ (Nat.le_of_succ_le_succ stored)
          refine ⟨f', ?_, stores'⟩
          unfold fifoReadLoop
          rw [got]
          dsimp only
          rw [more]
          rfl

/-- Writing puts the bytes at the end, one by one. -/
theorem fifoWriteLoop_append
    {f : Fifo}
    {queue : List UInt8}
    (stores : Stores capacity f queue)
    {bytes : List UInt8}
    (room : queue.length + bytes.length ≤ capacity) :
    Stores capacity (fifoWriteLoop bytes f) (queue ++ bytes) := by
  induction bytes generalizing f queue with
  | nil =>
      rw [List.append_nil]
      exact stores
  | cons byte bytes inductionHypothesis =>
      rw [List.length_cons] at room
      obtain ⟨_, stores'⟩ := stores.fifoPut_room (by omega) byte
      have more := inductionHypothesis stores' (by
        rw [List.length_append, List.length_singleton]
        omega)
      rw [List.append_assoc] at more
      exact more

/-- The room that `fifo_write()` computes. -/
theorem available
    {f : Fifo}
    {queue : List UInt8}
    (stores : Stores capacity f queue) :
    f.buffSize - fifoLength f + 1 =
      UInt32.ofNat (capacity - queue.length) := by
  have bounded := stores.bounded
  have small := stores.small
  have positive := stores.positive
  rw [stores.buffSize, stores.length, ← UInt32.toNat_inj]
  simp only [UInt32.toNat_add, UInt32.toNat_sub, UInt32.toNat_ofNat',
    UInt32.reduceToNat]
  omega

end Stores

/-- The smaller of two machine integers is that of their values. -/
theorem min_ofNat
    (size : UInt32)
    {count : Nat}
    (small : count < 2 ^ 32) :
    min size (UInt32.ofNat count) = UInt32.ofNat (min size.toNat count) := by
  have value : (UInt32.ofNat count).toNat = count := by
    rw [UInt32.toNat_ofNat']
    exact Nat.mod_eq_of_lt small
  rw [UInt32.min_def]
  simp only [UInt32.le_iff_toNat_le, value]
  split
  · rename_i less
    rw [Nat.min_eq_left less, UInt32.ofNat_toNat]
  · rename_i less
    rw [Nat.min_eq_right (by omega)]

namespace Stores

variable {capacity : Nat}

/-- What `fifo_write()` puts into a FIFO that it does not take for full. -/
theorem fifoWrite_room
    {f : Fifo}
    {queue : List UInt8}
    (stores : Stores capacity f queue)
    (notFull : isFifoFull f = false)
    (bytes : List UInt8)
    (size : UInt32) :
    let count := min size.toNat (capacity - queue.length)
    (fifoWrite (some bytes) (some size) f).1 =
        { code := fifoSuccess, bytes := []
          size := some (UInt32.ofNat count) } ∧
      Stores capacity (fifoWrite (some bytes) (some size) f).2
        (queue ++ bytes.takeD count 0) := by
  have bounded := stores.bounded
  have small := stores.small
  have least := min_ofNat size
    (show capacity - queue.length < 2 ^ 32 by omega)
  have count : (min size (UInt32.ofNat (capacity - queue.length))).toNat =
      min size.toNat (capacity - queue.length) := by
    rw [least, UInt32.toNat_ofNat']
    omega
  have fits : queue.length +
      (bytes.takeD (min size.toNat (capacity - queue.length)) 0).length ≤
      capacity := by
    rw [List.takeD_length]
    omega
  unfold fifoWrite
  dsimp only
  rw [stores.available, if_neg (by rw [notFull]; exact Bool.false_ne_true),
    count, least]
  exact ⟨rfl, stores.fifoWriteLoop_append fits⟩

theorem isFifoFull_iff
    {f : Fifo}
    {queue : List UInt8}
    (stores : Stores capacity f queue) :
    isFifoFull f = true ↔ queue.length = mldpRxBuffSize := by
  unfold isFifoFull
  rw [stores.toNat_writePos, decide_eq_true_iff]

end Stores

/-- A FIFO of 4096 bytes holds the bytes of a queue. -/
structure Holds
    (f : Fifo)
    (queue : List UInt8) : Prop where
  buffSize : f.buffSize = 4095
  readPos : f.readPos = 0
  writePos : f.writePos = UInt32.ofNat queue.length
  bounded : queue.length ≤ mldpRxBuffSize
  memory : ∃ tail, f.pBuff = queue ++ tail

theorem Holds.stores
    {f : Fifo}
    {queue : List UInt8}
    (holds : Holds f queue) :
    Stores mldpRxBuffSize f queue where
  positive := by decide
  small := by decide
  buffSize := holds.buffSize
  readPos := holds.readPos
  writePos := holds.writePos
  bounded := holds.bounded
  memory := holds.memory

theorem Stores.holds
    {f : Fifo}
    {queue : List UInt8}
    (stores : Stores mldpRxBuffSize f queue) :
    Holds f queue :=
  ⟨stores.buffSize, stores.readPos, stores.writePos, stores.bounded,
    stores.memory⟩

theorem Holds.length
    {f : Fifo}
    {queue : List UInt8}
    (holds : Holds f queue) :
    fifoLength f = UInt32.ofNat queue.length :=
  holds.stores.length

theorem Holds.toNat_length
    {f : Fifo}
    {queue : List UInt8}
    (holds : Holds f queue) :
    (fifoLength f).toNat = queue.length :=
  holds.stores.toNat_length

theorem Holds.toNat_writePos
    {f : Fifo}
    {queue : List UInt8}
    (holds : Holds f queue) :
    f.writePos.toNat = queue.length :=
  holds.stores.toNat_writePos

/-- `fifo_init()` on a buffer of 4096 bytes. -/
theorem holds_fifoInit
    (pBuff : List UInt8)
    (f : Fifo) :
    (fifoInit (some pBuff) 4096 f).1 = fifoSuccess ∧
      Holds (fifoInit (some pBuff) 4096 f).2 [] := by
  refine ⟨rfl, rfl, rfl, rfl, Nat.zero_le _, pBuff, rfl⟩

theorem Holds.fifoGet_cons
    {f : Fifo}
    {byte : UInt8}
    {queue : List UInt8}
    (holds : Holds f (byte :: queue)) :
    ∃ f',
      fifoGet f = (fifoSuccess, some byte, f') ∧
      Holds f' queue := by
  obtain ⟨f', got, stores⟩ := holds.stores.fifoGet_cons
  exact ⟨f', got, stores.holds⟩

theorem Holds.fifoGet_nil
    {f : Fifo}
    (holds : Holds f []) :
    fifoGet f = (fifoEmpty, none, f) :=
  holds.stores.fifoGet_nil

/-! ## Calls in any order -/

/-- A call of a function of `fifo.c`, with its arguments. -/
inductive Op where
  | put : UInt8 → Op
  | get
  | read : Bool → Option UInt32 → Op
  | write : Option (List UInt8) → Option UInt32 → Op
  | length
  | isEmpty
  | isFull
  | flush
  deriving Repr, DecidableEq

/-- A reply with a return code only. -/
def Reply.ofCode
    (code : Int) : Reply where
  code := code
  bytes := []
  size := none

/-- A call on the FIFO. -/
def fifoCall
    (op : Op)
    (f : Fifo) : Reply × Fifo :=
  match op with
  | .put byte =>
      let put := fifoPut byte f
      (.ofCode put.1, put.2)
  | .get =>
      let got := fifoGet f
      ({ code := got.1, bytes := got.2.1.toList, size := none }, got.2.2)
  | .read wanted size => fifoRead wanted size f
  | .write data size => fifoWrite data size f
  | .length =>
      ({ code := fifoSuccess, bytes := [], size := some (fifoLength f) }, f)
  | .isEmpty => (.ofCode (if isFifoEmpty f then 1 else 0), f)
  | .isFull => (.ofCode (if isFifoFull f then 1 else 0), f)
  | .flush =>
      let flushed := fifoFlush f
      (.ofCode flushed.1, flushed.2)

/-- What the same call means for a queue of capacity 4096. -/
def queueCall
    (op : Op)
    (queue : List UInt8) : Reply × BoundedQueue.Change UInt8 :=
  let free := mldpRxBuffSize - queue.length
  match op with
  | .put byte =>
      if queue.length < mldpRxBuffSize then
        (.ofCode fifoSuccess, BoundedQueue.append mldpRxBuffSize [byte] queue)
      else (.ofCode fifoNotEnoughBig, BoundedQueue.keep queue)
  | .get =>
      match queue with
      | [] => (.ofCode fifoEmpty, BoundedQueue.keep queue)
      | byte :: _ =>
          ({ code := fifoSuccess, bytes := [byte], size := none },
            BoundedQueue.take 1 queue)
  | .read _ none => (.ofCode fifoErr, BoundedQueue.keep queue)
  | .read false (some _) =>
      ({ code := fifoSuccess, bytes := []
         size := some (UInt32.ofNat queue.length) },
        BoundedQueue.keep queue)
  | .read true (some size) =>
      ({ code := fifoSuccess, bytes := queue.take size.toNat
         size := some (UInt32.ofNat (min size.toNat queue.length)) },
        BoundedQueue.take size.toNat queue)
  | .write _ none => (.ofCode fifoErr, BoundedQueue.keep queue)
  | .write data (some size) =>
      if free = 0 then
        ({ code := fifoFull, bytes := [], size := some 0 },
          BoundedQueue.keep queue)
      else
        match data with
        | none =>
            ({ code := fifoSuccess, bytes := []
               size := some (UInt32.ofNat free) },
              BoundedQueue.keep queue)
        | some bytes =>
            ({ code := fifoSuccess, bytes := []
               size := some (UInt32.ofNat (min size.toNat free)) },
              BoundedQueue.append mldpRxBuffSize
                (bytes.takeD (min size.toNat free) 0) queue)
  | .length =>
      ({ code := fifoSuccess, bytes := []
         size := some (UInt32.ofNat queue.length) },
        BoundedQueue.keep queue)
  | .isEmpty =>
      (.ofCode (if queue = [] then 1 else 0), BoundedQueue.keep queue)
  | .isFull =>
      (.ofCode (if free = 0 then 1 else 0), BoundedQueue.keep queue)
  | .flush => (.ofCode fifoSuccess, BoundedQueue.clear queue)

/-- Every call conserves the bytes of the queue, in order. -/
theorem queueCall_fair
    (op : Op)
    {queue : List UInt8}
    (bounded : queue.length ≤ mldpRxBuffSize) :
    (queueCall op queue).2.Fair mldpRxBuffSize queue := by
  have kept := BoundedQueue.keep_fair bounded
  cases op with
  | put byte =>
      unfold queueCall
      dsimp only
      split
      · exact BoundedQueue.append_fair bounded [byte]
      · exact kept
  | get =>
      cases queue with
      | nil => exact kept
      | cons byte queue => exact BoundedQueue.take_fair bounded 1
  | read wanted size =>
      cases size with
      | none => exact kept
      | some size =>
          cases wanted with
          | false => exact kept
          | true => exact BoundedQueue.take_fair bounded size.toNat
  | write data size =>
      cases size with
      | none => exact kept
      | some size =>
          unfold queueCall
          dsimp only
          split
          · exact kept
          · cases data with
            | none => exact kept
            | some bytes => exact BoundedQueue.append_fair bounded _
  | length => exact kept
  | isEmpty => exact kept
  | isFull => exact kept
  | flush => exact BoundedQueue.clear_fair mldpRxBuffSize queue

theorem Holds.isFifoFull_eq
    {f : Fifo}
    {queue : List UInt8}
    (holds : Holds f queue) :
    isFifoFull f = decide (mldpRxBuffSize - queue.length = 0) := by
  have bounded := holds.bounded
  unfold isFifoFull
  rw [holds.toNat_writePos]
  exact decide_eq_decide.mpr ⟨fun full => by omega, fun none => by omega⟩

theorem Holds.isFifoEmpty_eq
    {f : Fifo}
    {queue : List UInt8}
    (holds : Holds f queue) :
    isFifoEmpty f = decide (queue = []) := by
  unfold isFifoEmpty
  refine decide_eq_decide.mpr ?_
  rw [← UInt32.toNat_inj, holds.toNat_writePos, holds.readPos]
  exact List.length_eq_zero_iff

theorem Holds.fifoRead_refines
    {f : Fifo}
    {queue : List UInt8}
    (holds : Holds f queue)
    (wanted : Bool)
    (size : Option UInt32) :
    (fifoRead wanted size f).1 = (queueCall (.read wanted size) queue).1 ∧
      Holds (fifoRead wanted size f).2
        (queueCall (.read wanted size) queue).2.after := by
  have bounded : queue.length ≤ 4096 := holds.bounded
  cases size with
  | none => exact ⟨rfl, holds⟩
  | some size =>
      cases wanted with
      | false =>
          refine ⟨?_, holds⟩
          show Reply.mk fifoSuccess [] (some (fifoLength f)) = _
          rw [holds.length]
          rfl
      | true =>
          have least : min size (fifoLength f) =
              UInt32.ofNat (min size.toNat queue.length) := by
            rw [holds.length]
            exact min_ofNat size (by omega)
          have count : (min size (fifoLength f)).toNat =
              min size.toNat queue.length := by
            rw [least, UInt32.toNat_ofNat']
            omega
          obtain ⟨f', read, stores'⟩ := holds.stores.fifoReadLoop_take
            (Nat.min_le_right size.toNat queue.length)
          unfold fifoRead
          dsimp only
          rw [count, read, least]
          refine ⟨?_, ?_⟩
          · show Reply.mk fifoSuccess (queue.take (min size.toNat queue.length))
              _ = Reply.mk fifoSuccess (queue.take size.toNat) _
            rw [← List.take_eq_take_min]
          · show Holds f' (queue.drop size.toNat)
            rw [List.drop_eq_drop_min]
            exact stores'.holds

theorem Holds.fifoWrite_refines
    {f : Fifo}
    {queue : List UInt8}
    (holds : Holds f queue)
    (data : Option (List UInt8))
    (size : Option UInt32) :
    (fifoWrite data size f).1 = (queueCall (.write data size) queue).1 ∧
      Holds (fifoWrite data size f).2
        (queueCall (.write data size) queue).2.after := by
  cases size with
  | none => exact ⟨rfl, holds⟩
  | some size =>
      by_cases full : mldpRxBuffSize - queue.length = 0
      · have isFull := holds.isFifoFull_eq
        rw [decide_eq_true full] at isFull
        unfold fifoWrite queueCall
        dsimp only
        rw [holds.stores.available, if_pos isFull, if_pos full, full]
        exact ⟨rfl, holds⟩
      · have isFull := holds.isFifoFull_eq
        rw [decide_eq_false full] at isFull
        cases data with
        | none =>
            unfold fifoWrite queueCall
            dsimp only
            rw [holds.stores.available, isFull, if_neg Bool.false_ne_true,
              if_neg full]
            exact ⟨rfl, holds⟩
        | some bytes =>
            obtain ⟨reply, stores⟩ :=
              holds.stores.fifoWrite_room isFull bytes size
            have fits : (bytes.takeD
                (min size.toNat (mldpRxBuffSize - queue.length)) 0).length ≤
                mldpRxBuffSize - queue.length := by
              rw [List.takeD_length]
              exact Nat.min_le_right _ _
            unfold queueCall
            dsimp only
            rw [if_neg full, reply]
            refine ⟨rfl, ?_⟩
            show Holds _ (queue ++ List.take _ _)
            rw [List.take_of_length_le fits]
            exact stores.holds

/-- A call on the FIFO does what it means for the queue. -/
theorem Holds.fifoCall_refines
    {f : Fifo}
    {queue : List UInt8}
    (holds : Holds f queue)
    (op : Op) :
    (fifoCall op f).1 = (queueCall op queue).1 ∧
      Holds (fifoCall op f).2 (queueCall op queue).2.after := by
  have bounded := holds.bounded
  cases op with
  | put byte =>
      unfold fifoCall queueCall
      dsimp only
      by_cases room : queue.length < mldpRxBuffSize
      · obtain ⟨code, stores⟩ := holds.stores.fifoPut_room room byte
        rw [if_pos room, code]
        refine ⟨rfl, ?_⟩
        have free : 0 < mldpRxBuffSize - queue.length := Nat.sub_pos_of_lt room
        show Holds _ (queue ++ List.take _ [byte])
        rw [List.take_of_length_le free]
        exact stores.holds
      · have full : queue.length = mldpRxBuffSize :=
          Nat.le_antisymm bounded (Nat.le_of_not_lt room)
        rw [if_neg room, holds.stores.fifoPut_full full byte]
        exact ⟨rfl, holds⟩
  | get =>
      unfold fifoCall
      dsimp only
      cases queue with
      | nil =>
          rw [holds.fifoGet_nil]
          exact ⟨rfl, holds⟩
      | cons byte queue =>
          obtain ⟨f', got, holds'⟩ := holds.fifoGet_cons
          rw [got]
          exact ⟨rfl, holds'⟩
  | read wanted size => exact holds.fifoRead_refines wanted size
  | write data size => exact holds.fifoWrite_refines data size
  | length =>
      refine ⟨?_, holds⟩
      show Reply.mk fifoSuccess [] (some (fifoLength f)) = _
      rw [holds.length]
      rfl
  | isEmpty =>
      refine ⟨?_, holds⟩
      show Reply.ofCode (if isFifoEmpty f then 1 else 0) = _
      rw [holds.isFifoEmpty_eq]
      simp [queueCall]
  | isFull =>
      refine ⟨?_, holds⟩
      show Reply.ofCode (if isFifoFull f then 1 else 0) = _
      rw [holds.isFifoFull_eq]
      simp [queueCall]
  | flush =>
      exact ⟨rfl, holds.buffSize, rfl, rfl, Nat.zero_le _, f.pBuff, rfl⟩

/-- The replies of calls in a row, and the FIFO after them. -/
def fifoCalls : List Op → Fifo → List Reply × Fifo
  | [], f => ([], f)
  | op :: rest, f =>
      let done := fifoCall op f
      let more := fifoCalls rest done.2
      (done.1 :: more.1, more.2)

/-- The same calls on the queue, with the changes they make. -/
def queueCalls :
    List Op → List UInt8 →
      List Reply × List (BoundedQueue.Change UInt8) × List UInt8
  | [], queue => ([], [], queue)
  | op :: rest, queue =>
      let done := queueCall op queue
      let more := queueCalls rest done.2.after
      (done.1 :: more.1, done.2 :: more.2.1, more.2.2)

theorem queueCalls_run
    (ops : List Op)
    {queue : List UInt8}
    (bounded : queue.length ≤ mldpRxBuffSize) :
    BoundedQueue.Run mldpRxBuffSize queue (queueCalls ops queue).2.1
      (queueCalls ops queue).2.2 := by
  induction ops generalizing queue with
  | nil =>
      exact .nil queue
  | cons op ops inductionHypothesis =>
      have fair := queueCall_fair op bounded
      exact .cons fair (inductionHypothesis fair.bounded)

theorem Holds.fifoCalls_refines
    {f : Fifo}
    {queue : List UInt8}
    (holds : Holds f queue)
    (ops : List Op) :
    (fifoCalls ops f).1 = (queueCalls ops queue).1 ∧
      Holds (fifoCalls ops f).2 (queueCalls ops queue).2.2 := by
  induction ops generalizing f queue with
  | nil =>
      exact ⟨rfl, holds⟩
  | cons op ops inductionHypothesis =>
      obtain ⟨reply, holds'⟩ := holds.fifoCall_refines op
      obtain ⟨replies, last⟩ := inductionHypothesis holds'
      refine ⟨?_, last⟩
      show (fifoCall op f).1 :: _ = (queueCall op queue).1 :: _
      rw [reply, replies]

/--
A FIFO of 4096 bytes answers like a queue of that capacity: every byte that
entered has left, in order, or is still at its place in the buffer.
-/
theorem fifo_refines_queue
    (pBuff : List UInt8)
    (f₀ : Fifo)
    (ops : List Op) :
    let f := (fifoInit (some pBuff) 4096 f₀).2
    let queue := queueCalls ops []
    (fifoCalls ops f).1 = queue.1 ∧
      queue.2.1.flatMap BoundedQueue.Change.entered =
        queue.2.1.flatMap BoundedQueue.Change.left ++ queue.2.2 ∧
      queue.2.2.length ≤ mldpRxBuffSize ∧
      (fifoCalls ops f).2.readPos = 0 ∧
      (fifoCalls ops f).2.writePos.toNat = queue.2.2.length ∧
      ∃ tail, (fifoCalls ops f).2.pBuff = queue.2.2 ++ tail := by
  obtain ⟨_, holds⟩ := holds_fifoInit pBuff f₀
  obtain ⟨replies, last⟩ := holds.fifoCalls_refines ops
  have empty : ([] : List UInt8).length ≤ mldpRxBuffSize := Nat.zero_le _
  have conserved := (queueCalls_run ops empty).conserved
  exact ⟨replies, conserved, last.bounded, last.readPos, last.toNat_writePos,
    last.memory⟩

end Slate106.Mldp
