import Slate106.BleCentral

namespace Slate106.Ble

open CBytes Mldp

/-!
# Transmitting over the MLDP link

What `ble_mldp_send_bytes` hands to BlueZ, for every pattern of accepted and
refused writes.
-/

/-- The try after the first accepted one, of at most so many from a try on. -/
def tryChunk
    (accepts : Nat → Bool) : Nat → Nat → Option Nat
  | 0, _ => none
  | left + 1, tried =>
      if accepts tried then some (tried + 1)
      else tryChunk accepts left (tried + 1)

/-- The chunks accepted before one is refused four times in a row. -/
def chunksSent
    (accepts : Nat → Bool) : Nat → Nat → Nat
  | 0, _ => 0
  | chunks + 1, tried =>
      match tryChunk accepts 4 tried with
      | none => 0
      | some tried => 1 + chunksSent accepts chunks tried

/-- Every chunk is accepted at one of its four tries. -/
def Persistent
    (accepts : Nat → Bool) : Nat → Nat → Prop
  | 0, _ => True
  | chunks + 1, tried =>
      match tryChunk accepts 4 tried with
      | none => False
      | some tried => Persistent accepts chunks tried

theorem chunksSent_le
    (accepts : Nat → Bool)
    (chunks tried : Nat) :
    chunksSent accepts chunks tried ≤ chunks := by
  induction chunks generalizing tried with
  | zero =>
      exact Nat.le_refl 0
  | succ chunks inductionHypothesis =>
      unfold chunksSent
      split
      · exact Nat.zero_le _
      · rename_i next _
        have earlier := inductionHypothesis next
        omega

/-- All chunks are sent exactly when none is given up. -/
theorem chunksSent_eq_iff
    (accepts : Nat → Bool)
    (chunks tried : Nat) :
    chunksSent accepts chunks tried = chunks ↔
      Persistent accepts chunks tried := by
  induction chunks generalizing tried with
  | zero =>
      exact ⟨fun _ => trivial, fun _ => rfl⟩
  | succ chunks inductionHypothesis =>
      unfold chunksSent Persistent
      cases tryChunk accepts 4 tried with
      | none =>
          exact ⟨fun zero => absurd zero.symm (Nat.succ_ne_zero chunks),
            False.elim⟩
      | some next =>
          dsimp only
          rw [← inductionHypothesis next]
          omega

/-- Nothing is sent when the first four tries are refused. -/
theorem chunksSent_eq_zero_iff
    (accepts : Nat → Bool)
    (chunks tried : Nat) :
    chunksSent accepts (chunks + 1) tried = 0 ↔
      tryChunk accepts 4 tried = none := by
  unfold chunksSent
  cases tryChunk accepts 4 tried with
  | none =>
      exact ⟨fun _ => rfl, fun _ => rfl⟩
  | some next =>
      dsimp only
      exact ⟨fun zero => by omega, fun given => nomatch given⟩

/-- The chunks a queue is sent in. -/
def chunkCount
    (length : Nat) : Nat :=
  (length + (bleMldpMaxDataLen - 1)) / bleMldpMaxDataLen

/-- The variables of `tx_fifo_send_bytes()` before its loop. -/
def txStart
    (f : Fifo) : TxVars where
  nbReadableBytes := fifoLength f
  repeatOnErrorCount := 0
  dataArray := []
  fifo := f
  tries := 0
  accepted := []

/-- A chunk has been taken from the FIFO and is not accepted yet. -/
structure Loaded
    (chunk rest : List UInt8)
    (v : TxVars) : Prop where
  data : v.dataArray = chunk
  fifo : Holds v.fifo rest
  unsent : v.nbReadableBytes = UInt32.ofNat (chunk.length + rest.length)
  bounded : chunk.length + rest.length ≤ mldpTxBuffSize
  short : chunk.length = min (chunk.length + rest.length) bleMldpMaxDataLen
  something : chunk ≠ []

/-- The variables after the loaded chunk has been accepted. -/
def sentChunk
    (chunk rest : List UInt8)
    (tries : Nat)
    (v : TxVars) : TxVars :=
  { v with
    nbReadableBytes := UInt32.ofNat rest.length
    repeatOnErrorCount := 0
    dataArray := chunk
    tries := tries
    accepted := v.accepted ++ [chunk] }

theorem Loaded.length
    {chunk rest : List UInt8}
    {v : TxVars}
    (loaded : Loaded chunk rest v) :
    (txLength v).toNat = chunk.length ∧
      v.nbReadableBytes ≠ 0 ∧
      v.nbReadableBytes - txLength v = UInt32.ofNat rest.length := by
  have bounded : chunk.length + rest.length ≤ 4096 := loaded.bounded
  have positive := List.length_pos_iff.mpr loaded.something
  have least : txLength v = UInt32.ofNat chunk.length := by
    have smaller := min_ofNat v.nbReadableBytes
      (show bleMldpMaxDataLen < 2 ^ 32 by decide)
    have value : v.nbReadableBytes.toNat = chunk.length + rest.length := by
      rw [loaded.unsent, UInt32.toNat_ofNat']
      omega
    rw [value, ← loaded.short] at smaller
    exact smaller
  refine ⟨?_, ?_, ?_⟩
  · rw [least, UInt32.toNat_ofNat']
    omega
  · intro zero
    have value := congrArg UInt32.toNat (loaded.unsent.symm.trans zero)
    rw [UInt32.toNat_ofNat'] at value
    simp only [UInt32.reduceToNat] at value
    omega
  · rw [least, loaded.unsent, UInt32.ofNat_add]
    rw [← UInt32.toNat_inj]
    simp only [UInt32.toNat_add, UInt32.toNat_sub, UInt32.toNat_ofNat']
    omega

/-! ## The writes of a call -/

/-- A write without response: the chunk offered and whether BlueZ took it. -/
structure TxWrite where
  chunk : List UInt8
  taken : Bool
  deriving Repr, DecidableEq

/-- The writes without response that `txLoop` makes, in order. -/
def txWrites
    (accepts : Nat → Bool) : Nat → TxVars → List TxWrite
  | 0, _ => []
  | n + 1, v =>
      if v.nbReadableBytes = 0 then []
      else
        match txRead v with
        | none => []
        | some v =>
            let tried := { v with tries := v.tries + 1 }
            let chunk := v.dataArray.take (txLength v).toNat
            if !accepts v.tries then
              if v.repeatOnErrorCount ≥ 3 then
                [{ chunk := chunk, taken := false }]
              else
                { chunk := chunk, taken := false } ::
                  txWrites accepts n
                    { tried with
                      repeatOnErrorCount := v.repeatOnErrorCount + 1 }
            else
              { chunk := chunk, taken := true } ::
                txWrites accepts n
                  { tried with
                    repeatOnErrorCount := 0
                    nbReadableBytes := v.nbReadableBytes - txLength v
                    accepted := v.accepted ++ [chunk] }

/-- Refusals of one chunk. -/
def refused
    (count : Nat)
    (chunk : List UInt8) : List TxWrite :=
  List.replicate count { chunk := chunk, taken := false }

/-- A chunk that was taken, and how often it had been refused before. -/
structure Handed where
  chunk : List UInt8
  refusals : Nat
  deriving Repr, DecidableEq

/-- The writes of a chunk that was taken. -/
def Handed.writes
    (handed : Handed) : List TxWrite :=
  refused handed.refusals handed.chunk ++
    [{ chunk := handed.chunk, taken := true }]

theorem Loaded.whole
    {chunk rest : List UInt8}
    {v : TxVars}
    (loaded : Loaded chunk rest v) :
    v.dataArray.take (txLength v).toNat = chunk := by
  rw [loaded.length.1, loaded.data, List.take_length]

/-- A turn whose chunk is taken. -/
theorem txTurn_taken
    {accepts : Nat → Bool}
    {chunk rest : List UInt8}
    {v w : TxVars}
    (read : txRead w = some v)
    (nonzero : w.nbReadableBytes ≠ 0)
    (loaded : Loaded chunk rest v)
    (taken : accepts v.tries = true)
    (turns : Nat) :
    txLoop accepts (turns + 1) w =
        txLoop accepts turns (sentChunk chunk rest (v.tries + 1) v) ∧
      txWrites accepts (turns + 1) w =
        Handed.writes { chunk := chunk, refusals := 0 } ++
          txWrites accepts turns (sentChunk chunk rest (v.tries + 1) v) := by
  have next :
      { v with
        tries := v.tries + 1
        repeatOnErrorCount := 0
        nbReadableBytes := v.nbReadableBytes - txLength v
        accepted := v.accepted ++ [chunk] } =
      sentChunk chunk rest (v.tries + 1) v := by
    rw [loaded.length.2.2, sentChunk, ← loaded.data]
  have notRefused : ¬ (!accepts v.tries) = true := by
    rw [taken]
    exact Bool.false_ne_true
  constructor
  · rw [txLoop, if_neg nonzero, read]
    dsimp only
    rw [if_neg notRefused, loaded.whole, next]
  · rw [txWrites, if_neg nonzero, read]
    dsimp only
    rw [if_neg notRefused, loaded.whole, next]
    rfl

/-- The variables after a refusal that is not the last. -/
def refusedChunk
    (v : TxVars) : TxVars :=
  { v with
    tries := v.tries + 1
    repeatOnErrorCount := v.repeatOnErrorCount + 1 }

/-- A turn whose chunk is refused, to be tried again. -/
theorem txTurn_refused
    {accepts : Nat → Bool}
    {chunk rest : List UInt8}
    {v w : TxVars}
    (read : txRead w = some v)
    (nonzero : w.nbReadableBytes ≠ 0)
    (loaded : Loaded chunk rest v)
    (notTaken : accepts v.tries = false)
    (early : ¬ v.repeatOnErrorCount ≥ 3)
    (turns : Nat) :
    txLoop accepts (turns + 1) w = txLoop accepts turns (refusedChunk v) ∧
      txWrites accepts (turns + 1) w =
        refused 1 chunk ++ txWrites accepts turns (refusedChunk v) := by
  have isRefused : (!accepts v.tries) = true := by
    rw [notTaken]
    rfl
  constructor
  · rw [txLoop, if_neg nonzero, read]
    dsimp only
    rw [if_pos isRefused, if_neg early]
    rfl
  · rw [txWrites, if_neg nonzero, read]
    dsimp only
    rw [if_pos isRefused, if_neg early, loaded.whole]
    rfl

/-- A turn whose chunk is refused for the last time. -/
theorem txTurn_last
    {accepts : Nat → Bool}
    {chunk rest : List UInt8}
    {v w : TxVars}
    (read : txRead w = some v)
    (nonzero : w.nbReadableBytes ≠ 0)
    (loaded : Loaded chunk rest v)
    (notTaken : accepts v.tries = false)
    (last : v.repeatOnErrorCount ≥ 3)
    (turns : Nat) :
    txLoop accepts (turns + 1) w =
        (exitSuccess, { v with tries := v.tries + 1 }) ∧
      txWrites accepts (turns + 1) w = refused 1 chunk := by
  have isRefused : (!accepts v.tries) = true := by
    rw [notTaken]
    rfl
  constructor
  · rw [txLoop, if_neg nonzero, read]
    dsimp only
    rw [if_pos isRefused, if_pos last]
  · rw [txWrites, if_neg nonzero, read]
    dsimp only
    rw [if_pos isRefused, if_pos last, loaded.whole]
    rfl

/--
The tries of a chunk that has been loaded, when `left` of them are left: it is
given up, or accepted with turns to spare for the others.
-/
theorem txLoop_tries
    (accepts : Nat → Bool)
    {chunk rest : List UInt8}
    {left : Nat}
    {v w : TxVars}
    (read : txRead w = some v)
    (nonzero : w.nbReadableBytes ≠ 0)
    (loaded : Loaded chunk rest v)
    (remaining : v.repeatOnErrorCount + (left + 1) = 4) :
    match tryChunk accepts (left + 1) v.tries with
    | none =>
        ∃ u, u.accepted = v.accepted ∧ u.fifo = v.fifo ∧
          ∀ turns,
            txLoop accepts (turns + (left + 1)) w = (exitSuccess, u) ∧
            txWrites accepts (turns + (left + 1)) w = refused (left + 1) chunk
    | some tries =>
        ∃ refusals, refusals ≤ left ∧
          ∀ turns,
            txLoop accepts (turns + (refusals + 1)) w =
              txLoop accepts turns (sentChunk chunk rest tries v) ∧
            txWrites accepts (turns + (refusals + 1)) w =
              Handed.writes { chunk := chunk, refusals := refusals } ++
                txWrites accepts turns (sentChunk chunk rest tries v) := by
  induction left generalizing v w with
  | zero =>
      have last : v.repeatOnErrorCount ≥ 3 := by omega
      unfold tryChunk
      cases taken : accepts v.tries with
      | true =>
          rw [if_pos rfl]
          exact ⟨0, Nat.le_refl 0, txTurn_taken read nonzero loaded taken⟩
      | false =>
          rw [if_neg Bool.false_ne_true]
          exact ⟨{ v with tries := v.tries + 1 }, rfl, rfl,
            txTurn_last read nonzero loaded taken last⟩
  | succ left inductionHypothesis =>
      have early : ¬ v.repeatOnErrorCount ≥ 3 := by omega
      unfold tryChunk
      cases taken : accepts v.tries with
      | true =>
          rw [if_pos rfl]
          exact ⟨0, Nat.zero_le _, txTurn_taken read nonzero loaded taken⟩
      | false =>
          rw [if_neg Bool.false_ne_true]
          have turn := txTurn_refused read nonzero loaded taken early
          -- A refused chunk stays loaded, and is not read again.
          have again : txRead (refusedChunk v) = some (refusedChunk v) :=
            rfl
          have stillLoaded : Loaded chunk rest (refusedChunk v) :=
            ⟨loaded.data, loaded.fifo, loaded.unsent, loaded.bounded,
              loaded.short, loaded.something⟩
          have later := inductionHypothesis again loaded.length.2.1 stillLoaded
            (show v.repeatOnErrorCount + 1 + (left + 1) = 4 by omega)
          change match tryChunk accepts (left + 1) (v.tries + 1) with
            | none => _
            | some tries => _ at later
          cases outcome : tryChunk accepts (left + 1) (v.tries + 1) with
          | none =>
              rw [outcome] at later
              obtain ⟨u, sameAccepted, sameFifo, ends⟩ := later
              refine ⟨u, sameAccepted, sameFifo, fun turns => ?_⟩
              obtain ⟨loop, writes⟩ := turn (turns + (left + 1))
              rw [← Nat.add_assoc turns, loop, writes, (ends turns).1,
                (ends turns).2]
              exact ⟨rfl, rfl⟩
          | some tries =>
              rw [outcome] at later
              obtain ⟨refusals, few, ends⟩ := later
              refine ⟨refusals + 1, Nat.succ_le_succ few, fun turns => ?_⟩
              obtain ⟨loop, writes⟩ := turn (turns + (refusals + 1))
              rw [← Nat.add_assoc turns, loop, writes, (ends turns).1,
                (ends turns).2]
              exact ⟨rfl, rfl⟩

/-- A chunk is taken from the front of the FIFO. -/
theorem txRead_loaded
    {queue : List UInt8}
    {v : TxVars}
    (holds : Holds v.fifo queue)
    (something : queue ≠ [])
    (unsent : v.nbReadableBytes = UInt32.ofNat queue.length)
    (fresh : v.repeatOnErrorCount = 0) :
    ∃ w, txRead v = some w ∧
      Loaded (queue.take bleMldpMaxDataLen) (queue.drop bleMldpMaxDataLen) w ∧
      w.repeatOnErrorCount = 0 ∧ w.tries = v.tries ∧
      w.accepted = v.accepted := by
  have bounded : queue.length ≤ 4096 := holds.bounded
  have positive := List.length_pos_iff.mpr something
  have value : v.nbReadableBytes.toNat = queue.length := by
    rw [unsent, UInt32.toNat_ofNat']
    omega
  have least : txLength v =
      UInt32.ofNat (min queue.length bleMldpMaxDataLen) := by
    have smaller := min_ofNat v.nbReadableBytes
      (show bleMldpMaxDataLen < 2 ^ 32 by decide)
    rw [value] at smaller
    exact smaller
  have count : (txLength v).toNat = min queue.length bleMldpMaxDataLen := by
    rw [least, UInt32.toNat_ofNat']
    omega
  obtain ⟨reply, holds'⟩ := holds.fifoRead_refines true (some (txLength v))
  have code : (fifoRead true (some (txLength v)) v.fifo).1.code = 0 := by
    rw [reply]
    rfl
  have size : (fifoRead true (some (txLength v)) v.fifo).1.size =
      some (txLength v) := by
    rw [reply]
    show some (UInt32.ofNat (min (txLength v).toNat queue.length)) = _
    rw [count, least]
    congr 2
    omega
  have bytes : (fifoRead true (some (txLength v)) v.fifo).1.bytes =
      queue.take bleMldpMaxDataLen := by
    rw [reply]
    show queue.take (txLength v).toNat = _
    rw [count, Nat.min_comm, ← List.take_eq_take_min]
  have rest : Holds (fifoRead true (some (txLength v)) v.fifo).2
      (queue.drop bleMldpMaxDataLen) := by
    have dropped : queue.drop (txLength v).toNat =
        queue.drop bleMldpMaxDataLen := by
      rw [count, Nat.min_comm, ← List.drop_eq_drop_min]
    rw [← dropped]
    exact holds'
  unfold txRead
  rw [if_pos fresh]
  dsimp only
  rw [if_neg (by rw [code]; decide), if_neg (fun differs => differs size)]
  refine ⟨_, rfl, ?_, fresh, rfl, rfl⟩
  have split : (queue.take bleMldpMaxDataLen).length +
      (queue.drop bleMldpMaxDataLen).length = queue.length := by
    rw [← List.length_append, List.take_append_drop]
  exact
    { data := bytes
      fifo := rest
      unsent := by rw [split]; exact unsent
      bounded := by rw [split]; exact bounded
      short := by
        rw [split, List.length_take, Nat.min_comm]
      something := by
        intro empty
        have zero := congrArg List.length empty
        simp only [List.length_take, List.length_nil, bleMldpMaxDataLen]
          at zero
        omega }

theorem chunkCount_le
    (length : Nat) :
    4 * chunkCount length ≤ 4 * length := by
  unfold chunkCount
  simp only [bleMldpMaxDataLen]
  omega

theorem chunkCount_succ
    {length : Nat}
    (positive : 0 < length) :
    chunkCount length = chunkCount (length - bleMldpMaxDataLen) + 1 := by
  unfold chunkCount
  simp only [bleMldpMaxDataLen]
  omega

/--
The loop hands over the front of a queue, chunk by chunk, from a try on: the
chunks taken, the one given up if any, and what stays in the FIFO.
-/
inductive Sending
    (accepts : Nat → Bool) :
    Nat → List UInt8 → List Handed → Option (List UInt8) → List UInt8 →
      Prop where
  | done
      (tries : Nat) :
      Sending accepts tries [] [] none []
  | givenUp
      {tries : Nat}
      {queue : List UInt8}
      (something : queue ≠ [])
      (outcome : tryChunk accepts 4 tries = none) :
      Sending accepts tries queue [] (some (queue.take bleMldpMaxDataLen))
        (queue.drop bleMldpMaxDataLen)
  | handed
      {tries next refusals : Nat}
      {queue left : List UInt8}
      {rest : List Handed}
      {gave : Option (List UInt8)}
      (something : queue ≠ [])
      (outcome : tryChunk accepts 4 tries = some next)
      (few : refusals ≤ 3)
      (later : Sending accepts next (queue.drop bleMldpMaxDataLen) rest gave
        left) :
      Sending accepts tries queue
        ({ chunk := queue.take bleMldpMaxDataLen
           refusals := refusals } :: rest)
        gave left

/-- The writes of all chunks of a call. -/
def sendingWrites
    (handed : List Handed)
    (gave : Option (List UInt8)) : List TxWrite :=
  handed.flatMap Handed.writes ++ gave.toList.flatMap (refused 4)

/-- The loop sends its queue, and more turns than enough change nothing. -/
theorem txLoop_sending
    (accepts : Nat → Bool)
    {queue : List UInt8}
    {v : TxVars}
    (holds : Holds v.fifo queue)
    (unsent : v.nbReadableBytes = UInt32.ofNat queue.length)
    (fresh : v.repeatOnErrorCount = 0) :
    ∃ handed gave left u,
      Sending accepts v.tries queue handed gave left ∧
      u.accepted = v.accepted ++ handed.map Handed.chunk ∧
      Holds u.fifo left ∧
      ∀ turns, 4 * chunkCount queue.length ≤ turns →
        txLoop accepts turns v = (exitSuccess, u) ∧
        txWrites accepts turns v = sendingWrites handed gave := by
  generalize size : chunkCount queue.length = chunks
  induction chunks generalizing queue v with
  | zero =>
      have empty : queue = [] := by
        apply List.eq_nil_of_length_eq_zero
        unfold chunkCount at size
        simp only [bleMldpMaxDataLen] at size
        omega
      subst empty
      have finished : v.nbReadableBytes = 0 := by
        rw [unsent]
        rfl
      refine ⟨[], none, [], v, .done v.tries, ?_, holds, fun turns _ => ?_⟩
      · exact (List.append_nil _).symm
      · cases turns with
        | zero => exact ⟨rfl, rfl⟩
        | succ turns =>
            rw [txLoop, txWrites, if_pos finished, if_pos finished]
            exact ⟨rfl, rfl⟩
  | succ chunks inductionHypothesis =>
      have bounded : queue.length ≤ 4096 := holds.bounded
      have something : queue ≠ [] := by
        rintro rfl
        have none : chunkCount ([] : List UInt8).length = 0 := rfl
        rw [none] at size
        exact Nat.succ_ne_zero chunks size.symm
      have positive := List.length_pos_iff.mpr something
      have nonzero : v.nbReadableBytes ≠ 0 := by
        intro zero
        have value := congrArg UInt32.toNat (unsent.symm.trans zero)
        rw [UInt32.toNat_ofNat'] at value
        simp only [UInt32.reduceToNat] at value
        omega
      obtain ⟨w, read, loaded, fresh', tries, accepted⟩ :=
        txRead_loaded holds something unsent fresh
      have tried := txLoop_tries accepts read nonzero loaded
        (show w.repeatOnErrorCount + (3 + 1) = 4 by omega)
      rw [tries] at tried
      cases outcome : tryChunk accepts 4 v.tries with
      | none =>
          rw [outcome] at tried
          obtain ⟨u, sameAccepted, sameFifo, ends⟩ := tried
          refine ⟨[], some _, _, u, .givenUp something outcome, ?_, ?_, ?_⟩
          · rw [sameAccepted, accepted, List.map_nil, List.append_nil]
          · rw [sameFifo]
            exact loaded.fifo
          · intro turns enough
            obtain ⟨more, rfl⟩ : ∃ more, turns = more + (3 + 1) :=
              ⟨turns - 4, by omega⟩
            obtain ⟨loop, writes⟩ := ends more
            refine ⟨loop, writes.trans ?_⟩
            simp [sendingWrites]
      | some next =>
          rw [outcome] at tried
          obtain ⟨refusals, few, ends⟩ := tried
          have fewer : chunkCount (queue.drop bleMldpMaxDataLen).length =
              chunks := by
            rw [List.length_drop]
            have step := chunkCount_succ positive
            omega
          obtain ⟨rest, gave, left, u, later, taken, holds', runs⟩ :=
            inductionHypothesis
              (v := sentChunk (queue.take bleMldpMaxDataLen)
                (queue.drop bleMldpMaxDataLen) next w)
              loaded.fifo rfl rfl fewer
          refine ⟨_, gave, left, u, .handed something outcome few later, ?_,
            holds', ?_⟩
          · rw [taken]
            show w.accepted ++ [queue.take bleMldpMaxDataLen] ++ _ = _
            rw [accepted, List.append_assoc]
            rfl
          · intro turns enough
            obtain ⟨more, rfl⟩ : ∃ more, turns = more + (refusals + 1) :=
              ⟨turns - (refusals + 1), by omega⟩
            obtain ⟨loop, writes⟩ := ends more
            obtain ⟨loopRest, writesRest⟩ := runs more (by omega)
            rw [loop, writes, loopRest, writesRest]
            refine ⟨rfl, ?_⟩
            rw [sendingWrites, sendingWrites, List.flatMap_cons,
              List.append_assoc]

namespace Sending

variable {accepts : Nat → Bool}

/-- As many chunks are taken as none is given up. -/
theorem length_handed
    {tries : Nat}
    {queue left : List UInt8}
    {handed : List Handed}
    {gave : Option (List UInt8)}
    (sending : Sending accepts tries queue handed gave left) :
    handed.length = chunksSent accepts (chunkCount queue.length) tries := by
  induction sending with
  | done tries =>
      rfl
  | givenUp something outcome =>
      rw [chunkCount_succ (List.length_pos_iff.mpr something)]
      unfold chunksSent
      rw [outcome]
      rfl
  | handed something outcome few later inductionHypothesis =>
      rw [chunkCount_succ (List.length_pos_iff.mpr something),
        ← List.length_drop]
      unfold chunksSent
      rw [outcome, List.length_cons, inductionHypothesis, Nat.add_comm]

/-- The chunks taken are the front of the queue. -/
theorem flatten_handed
    {tries : Nat}
    {queue left : List UInt8}
    {handed : List Handed}
    {gave : Option (List UInt8)}
    (sending : Sending accepts tries queue handed gave left) :
    (handed.map Handed.chunk).flatten =
      queue.take (bleMldpMaxDataLen * handed.length) := by
  induction sending with
  | done tries =>
      rfl
  | givenUp something outcome =>
      rfl
  | handed something outcome few later inductionHypothesis =>
      rw [List.map_cons, List.flatten_cons, inductionHypothesis,
        List.length_cons, Nat.mul_succ, Nat.add_comm, List.take_add]

theorem refusals_le
    {tries : Nat}
    {queue left : List UInt8}
    {handed : List Handed}
    {gave : Option (List UInt8)}
    (sending : Sending accepts tries queue handed gave left) :
    ∀ h ∈ handed, h.refusals ≤ 3 := by
  induction sending with
  | done tries =>
      exact fun h member => absurd member List.not_mem_nil
  | givenUp something outcome =>
      exact fun h member => absurd member List.not_mem_nil
  | handed something outcome few later inductionHypothesis =>
      rintro h member
      rcases List.mem_cons.mp member with rfl | member
      · exact few
      · exact inductionHypothesis h member

/-- The front of a queue is a chunk. -/
theorem length_front
    {queue : List UInt8}
    (something : queue ≠ []) :
    1 ≤ (queue.take bleMldpMaxDataLen).length ∧
      (queue.take bleMldpMaxDataLen).length ≤ bleMldpMaxDataLen := by
  have positive := List.length_pos_iff.mpr something
  rw [List.length_take]
  simp only [bleMldpMaxDataLen]
  omega

theorem length_chunk
    {tries : Nat}
    {queue left : List UInt8}
    {handed : List Handed}
    {gave : Option (List UInt8)}
    (sending : Sending accepts tries queue handed gave left) :
    ∀ chunk ∈ handed.map Handed.chunk ++ gave.toList,
      1 ≤ chunk.length ∧ chunk.length ≤ bleMldpMaxDataLen := by
  induction sending with
  | done tries =>
      exact fun chunk member => absurd member List.not_mem_nil
  | givenUp something outcome =>
      rintro chunk member
      rw [List.mem_singleton.mp member]
      exact length_front something
  | handed something outcome few later inductionHypothesis =>
      rintro chunk member
      rcases List.mem_cons.mp member with rfl | member
      · exact length_front something
      · exact inductionHypothesis chunk member

/-- Only the chunk that ends the queue may be short. -/
theorem full_or_last
    {tries : Nat}
    {queue left : List UInt8}
    {handed : List Handed}
    {gave : Option (List UInt8)}
    (sending : Sending accepts tries queue handed gave left)
    {before after : List (List UInt8)}
    {chunk : List UInt8}
    (cut : handed.map Handed.chunk = before ++ chunk :: after) :
    chunk.length = bleMldpMaxDataLen ∨
      (before ++ [chunk]).flatten = queue := by
  induction sending generalizing before with
  | done tries =>
      exact absurd cut (by simp)
  | givenUp something outcome =>
      exact absurd cut (by simp)
  | @handed tries next refusals queue left rest gave something outcome few
      later inductionHypothesis =>
      cases before with
      | nil =>
          obtain ⟨rfl, _⟩ := List.cons.inj cut
          by_cases short : queue.length ≤ bleMldpMaxDataLen
          · right
            simpa using List.take_of_length_le short
          · left
            rw [List.length_take]
            exact Nat.min_eq_left (Nat.le_of_not_le short)
      | cons first before =>
          obtain ⟨rfl, cutRest⟩ := List.cons.inj cut
          rcases inductionHypothesis cutRest with full | last
          · exact Or.inl full
          · right
            rw [List.cons_append, List.flatten_cons, last]
            exact List.take_append_drop bleMldpMaxDataLen queue

/-- When no chunk is given up, the whole queue is taken. -/
theorem all_taken
    {tries : Nat}
    {queue left : List UInt8}
    {handed : List Handed}
    (sending : Sending accepts tries queue handed none left) :
    (handed.map Handed.chunk).flatten = queue ∧ left = [] := by
  generalize outcome : none = gave at sending
  induction sending with
  | done tries =>
      exact ⟨rfl, rfl⟩
  | givenUp something _ =>
      exact nomatch outcome
  | handed something _ few later inductionHypothesis =>
      obtain ⟨taken, empty⟩ := inductionHypothesis outcome
      refine ⟨?_, empty⟩
      rw [List.map_cons, List.flatten_cons, taken]
      exact List.take_append_drop bleMldpMaxDataLen _

end Sending

theorem txFifoSendBytes_eq
    (accepts : Nat → Bool)
    {queue : List UInt8}
    {f : Fifo}
    (holds : Holds f queue) :
    let sent := txLoop accepts (4 * queue.length) (txStart f)
    txFifoSendBytes accepts f = (sent.1, sent.2.accepted, sent.2.fifo) := by
  have length := holds.toNat_length
  dsimp only
  unfold txFifoSendBytes
  dsimp only
  by_cases empty : fifoLength f = 0
  · have none : queue.length = 0 := by
      rw [← length, empty]
      rfl
    rw [if_pos empty, none]
    rfl
  · rw [if_neg empty, length]
    rfl

theorem txFifoSendBytes_accepted
    (accepts : Nat → Bool)
    {queue : List UInt8}
    {f : Fifo}
    (holds : Holds f queue) :
    (txFifoSendBytes accepts f).1 = exitSuccess ∧
      (txFifoSendBytes accepts f).2.1.flatten =
        queue.take (bleMldpMaxDataLen *
          chunksSent accepts (chunkCount queue.length) 0) := by
  obtain ⟨handed, gave, left, u, sending, taken, _, runs⟩ :=
    txLoop_sending accepts (v := txStart f) holds holds.length rfl
  have sent := (runs (4 * queue.length) (chunkCount_le queue.length)).1
  rw [txFifoSendBytes_eq accepts holds]
  dsimp only
  rw [sent, taken]
  refine ⟨rfl, ?_⟩
  show (handed.map Handed.chunk).flatten = _
  rw [sending.flatten_handed, sending.length_handed]
  rfl

/--
The writes of a call are cut from the FIFO in chunks of 20 bytes, each offered
at most four times; only the end of the contents may be shorter.  The loop ends
within four turns for each byte, and it leaves nothing behind unless a chunk is
refused four times in a row.
-/
theorem txFifoSendBytes_chunks
    (accepts : Nat → Bool)
    {xs : List UInt8}
    {f : Fifo}
    (holds : Holds f xs) :
    let sent := txFifoSendBytes accepts f
    let writes := txWrites accepts (4 * xs.length) (txStart f)
    (∀ turns, 4 * xs.length ≤ turns →
      txLoop accepts turns (txStart f) =
          txLoop accepts (4 * xs.length) (txStart f) ∧
        txWrites accepts turns (txStart f) = writes) ∧
    (∃ handed gave,
      writes = sendingWrites handed gave ∧
      sent.2.1 = handed.map Handed.chunk ∧
      (∀ h ∈ handed, h.refusals ≤ 3) ∧
      ∀ chunk ∈ handed.map Handed.chunk ++ gave.toList,
        1 ≤ chunk.length ∧ chunk.length ≤ bleMldpMaxDataLen) ∧
    sent.2.1.flatten <+: xs ∧
    (∀ before chunk after,
      sent.2.1 = before ++ chunk :: after →
        chunk.length = bleMldpMaxDataLen ∨
          (before ++ [chunk]).flatten = xs) ∧
    ((∀ chunk, ¬ refused 4 chunk <:+: writes) →
      sent.2.1.flatten = xs ∧ isFifoEmpty sent.2.2 = true) := by
  obtain ⟨handed, gave, left, u, sending, taken, holdsLeft, runs⟩ :=
    txLoop_sending accepts (v := txStart f) holds holds.length rfl
  have enough := chunkCount_le xs.length
  obtain ⟨loop, writes⟩ := runs (4 * xs.length) enough
  have accepted : u.accepted = handed.map Handed.chunk := taken
  rw [txFifoSendBytes_eq accepts holds]
  dsimp only
  rw [loop, writes]
  dsimp only
  rw [accepted]
  refine ⟨fun turns many => runs turns (Nat.le_trans enough many),
    ⟨handed, gave, rfl, rfl, sending.refusals_le, sending.length_chunk⟩, ?_,
    fun before chunk after => sending.full_or_last, ?_⟩
  · rw [sending.flatten_handed]
    exact List.take_prefix _ xs
  · intro persistent
    cases gave with
    | none =>
        obtain ⟨all, empty⟩ := sending.all_taken
        subst empty
        refine ⟨all, ?_⟩
        rw [holdsLeft.isFifoEmpty_eq]
        rfl
    | some chunk =>
        -- The refusals of the chunk given up end the writes.
        refine absurd ?_ (persistent chunk)
        refine ⟨handed.flatMap Handed.writes, [], ?_⟩
        simp [sendingWrites]

/-- A queue of 21 bytes goes in two chunks, the first at its second try. -/
theorem txFifoSendBytes_chunks_two :
    let f := (fifoWrite (some (List.replicate 21 7)) (some 21)
      transferring.mGattCentral.mldpFifoTx).2
    (txFifoSendBytes (fun tried => tried ≠ 0) f).2.1.flatten <+:
      List.replicate 21 7 := by
  have holds : Holds transferring.mGattCentral.mldpFifoTx [] :=
    (holds_fifoInit [] zeroedFifo).2
  have written := (holds.fifoWrite_refines (some (List.replicate 21 7))
    (some 21)).2
  exact (txFifoSendBytes_chunks (fun tried => tried ≠ 0) written).2.2.1

/-- A shorter prefix of a string that is read as if zeros followed it. -/
theorem takeD_min
    (memory : List UInt8)
    (count limit : Nat) :
    memory.takeD (min count limit) 0 = (memory.takeD count 0).take limit := by
  induction count generalizing memory limit with
  | zero =>
      simp
  | succ count inductionHypothesis =>
      cases limit with
      | zero =>
          simp
      | succ limit =>
          rw [Nat.succ_min_succ, List.takeD_succ, List.takeD_succ,
            List.take_succ_cons, inductionHypothesis]

/-- The bytes accepted during a call of `ble_mldp_send_bytes()`. -/
def acceptedBytes
    (sent : Int × List (List UInt8) × Globals) : List UInt8 :=
  sent.2.1.flatten

/-- What a call does with the FIFO it finds. -/
theorem bleMldpSendBytes_accepted
    (accepts : Nat → Bool)
    {left : List UInt8}
    {g : Globals}
    (transfer : g.bleConStep = .fileTransfer)
    (holds : Holds g.mGattCentral.mldpFifoTx left)
    (pString : List UInt8)
    (length : UInt32) :
    let string := pString.takeD length.toNat 0
    let sent := bleMldpSendBytes accepts pString length g
    let queue := left ++ string.take (mldpTxBuffSize - left.length)
    if left.length = mldpTxBuffSize then sent.1 ≠ exitSuccess
    else
      sent.1 = exitSuccess ∧
        acceptedBytes sent =
          queue.take (bleMldpMaxDataLen *
            chunksSent accepts (chunkCount queue.length) 0) := by
  have bounded : left.length ≤ 4096 := holds.bounded
  obtain ⟨reply, holds'⟩ := holds.fifoWrite_refines (some pString) (some length)
  have notOther : ¬ g.bleConStep ≠ .fileTransfer := fun other => other transfer
  dsimp only
  unfold bleMldpSendBytes
  rw [if_neg notOther]
  dsimp only
  by_cases full : left.length = mldpTxBuffSize
  · have none : mldpRxBuffSize - left.length = 0 := by
      rw [full]
      exact Nat.sub_self 4096
    have code : (fifoWrite (some pString) (some length)
        g.mGattCentral.mldpFifoTx).1.code = fifoFull := by
      rw [reply]
      unfold queueCall
      dsimp only
      rw [if_pos none]
    rw [if_pos full, if_pos (by rw [code]; decide), code]
    exact show fifoFull ≠ exitSuccess by decide
  · have room : ¬ mldpRxBuffSize - left.length = 0 := by
      have less : left.length ≠ 4096 := full
      show ¬ 4096 - left.length = 0
      omega
    have code : (fifoWrite (some pString) (some length)
        g.mGattCentral.mldpFifoTx).1.code = fifoSuccess := by
      rw [reply]
      unfold queueCall
      dsimp only
      rw [if_neg room]
    have queued : (queueCall (.write (some pString) (some length))
        left).2.after = left ++
          (pString.takeD length.toNat 0).take
            (mldpTxBuffSize - left.length) := by
      unfold queueCall
      dsimp only
      rw [if_neg room]
      show left ++ List.take _ _ = _
      congr 1
      rw [takeD_min, List.take_take, Nat.min_self]
    rw [queued] at holds'
    obtain ⟨success, accepted⟩ := txFifoSendBytes_accepted accepts holds'
    rw [if_neg full, if_neg (by rw [code]; decide)]
    rw [if_neg (by rw [success]; decide)]
    exact ⟨rfl, accepted⟩

/--
Success means delivery: what was accepted is the string that was to be sent,
and none of it is left over from an earlier call.
-/
def DeliveredIfSuccess
    (left string : List UInt8)
    (sent : Int × List (List UInt8) × Globals) : Prop :=
  sent.1 = exitSuccess →
    acceptedBytes sent = string ∧ (acceptedBytes sent = [] ∨ left = [])

/-- All of a queue is sent exactly when none of its chunks is given up. -/
theorem take_chunksSent_eq_iff
    (accepts : Nat → Bool)
    (queue : List UInt8) :
    queue.take (bleMldpMaxDataLen *
        chunksSent accepts (chunkCount queue.length) 0) = queue ↔
      Persistent accepts (chunkCount queue.length) 0 := by
  have most := chunksSent_le accepts (chunkCount queue.length) 0
  have count : chunkCount queue.length = (queue.length + 19) / 20 := rfl
  rw [← chunksSent_eq_iff, List.take_eq_self_iff]
  simp only [bleMldpMaxDataLen]
  omega

/--
`ble_mldp_send_bytes` reports success for nothing but a delivered string
exactly when the FIFO is full, or was empty and takes the string and every
chunk is accepted in time, or holds the leftovers of an earlier call and the
first of them is given up while there is nothing new to send.
-/
theorem bleMldpSendBytes_delivers_iff
    (accepts : Nat → Bool)
    {left : List UInt8}
    {g : Globals}
    (transfer : g.bleConStep = .fileTransfer)
    (holds : Holds g.mGattCentral.mldpFifoTx left)
    (pString : List UInt8)
    (length : UInt32) :
    let string := pString.takeD length.toNat 0
    DeliveredIfSuccess left string
        (bleMldpSendBytes accepts pString length g) ↔
      left.length = mldpTxBuffSize ∨
      (left = [] ∧ string.length ≤ mldpTxBuffSize ∧
        Persistent accepts (chunkCount string.length) 0) ∨
      (left ≠ [] ∧ string = [] ∧ tryChunk accepts 4 0 = none) := by
  have bounded : left.length ≤ 4096 := holds.bounded
  have sent := bleMldpSendBytes_accepted accepts transfer holds pString length
  dsimp only at sent ⊢
  generalize pString.takeD length.toNat 0 = string at sent ⊢
  generalize bleMldpSendBytes accepts pString length g = result at sent ⊢
  unfold DeliveredIfSuccess
  by_cases full : left.length = mldpTxBuffSize
  · rw [if_pos full] at sent
    exact ⟨fun _ => Or.inl full, fun _ success => absurd success sent⟩
  rw [if_neg full] at sent
  obtain ⟨success, accepted⟩ := sent
  rw [accepted]
  by_cases empty : left = []
  · subst empty
    have whole : ([] : List UInt8).length ≠ mldpTxBuffSize := full
    simp only [List.nil_append, List.length_nil, Nat.sub_zero] at *
    constructor
    · intro delivered
      obtain ⟨same, _⟩ := delivered success
      have fits : string.length ≤ mldpTxBuffSize := by
        have shorter := congrArg List.length same
        rw [List.length_take, List.length_take] at shorter
        omega
      refine Or.inr (Or.inl ⟨trivial, fits, ?_⟩)
      rw [List.take_of_length_le fits] at same
      exact (take_chunksSent_eq_iff accepts string).mp same
    · rintro (impossible | ⟨_, fits, persistent⟩ | ⟨nonempty, _⟩) _
      · exact absurd impossible whole
      · rw [List.take_of_length_le fits]
        exact ⟨(take_chunksSent_eq_iff accepts string).mpr persistent,
          Or.inr trivial⟩
      · exact absurd rfl nonempty
  · have positive := List.length_pos_iff.mpr empty
    have some : 0 < (left ++
        string.take (mldpTxBuffSize - left.length)).length := by
      rw [List.length_append]
      omega
    have nothing : (left ++ string.take (mldpTxBuffSize - left.length)).take
        (bleMldpMaxDataLen * chunksSent accepts (chunkCount (left ++
          string.take (mldpTxBuffSize - left.length)).length) 0) = [] ↔
        tryChunk accepts 4 0 = none := by
      rw [chunkCount_succ some, List.take_eq_nil_iff]
      constructor
      · rintro (zero | none)
        · have noChunk := (Nat.mul_eq_zero.mp zero).resolve_left (by decide)
          exact (chunksSent_eq_zero_iff accepts _ 0).mp noChunk
        · rw [none] at some
          exact absurd some (Nat.lt_irrefl 0)
      · intro refused
        rw [(chunksSent_eq_zero_iff accepts _ 0).mpr refused]
        exact Or.inl rfl
    constructor
    · intro delivered
      obtain ⟨same, none | none⟩ := delivered success
      · exact Or.inr (Or.inr ⟨empty, same.symm.trans none, nothing.mp none⟩)
      · exact absurd none empty
    · rintro (isFull | ⟨isEmpty, _⟩ | ⟨_, noString, refused⟩) _
      · exact absurd isFull full
      · exact absurd isEmpty empty
      · have unsent := nothing.mpr refused
        exact ⟨unsent.trans noString.symm, Or.inl unsent⟩

/-- A string that fits one chunk and is accepted at the second try. -/
theorem bleMldpSendBytes_delivers_retried :
    DeliveredIfSuccess [] (Kermit.lit "abc")
      (bleMldpSendBytes (fun tried => tried = 1) (Kermit.lit "abc") 3
        transferring) := by
  have holds : Holds transferring.mGattCentral.mldpFifoTx [] :=
    (holds_fifoInit [] zeroedFifo).2
  refine (bleMldpSendBytes_delivers_iff (fun tried => tried = 1) rfl holds
    (Kermit.lit "abc") 3).mpr (Or.inr (Or.inl ⟨rfl, by decide, ?_⟩))
  exact trivial

/--
Every try of the first chunk is refused: the call reports success, and the
next call transmits what is left over in front of its own string.
-/
theorem bleMldpSendBytes_success_undelivered :
    let string := List.replicate 21 (Kermit.ch 'a')
    let first := bleMldpSendBytes (fun _ => false) string 21 transferring
    let second := bleMldpSendBytes (fun _ => true) [Kermit.ch 'b'] 1 first.2.2
    ¬ DeliveredIfSuccess [] string first ∧
      first.1 = exitSuccess ∧ acceptedBytes first = [] ∧
      second.1 = exitSuccess ∧ acceptedBytes second = Kermit.lit "ab" := by
  have failed :
      (bleMldpSendBytes (fun _ => false)
        (List.replicate 21 (Kermit.ch 'a')) 21 transferring).1 = exitSuccess ∧
      acceptedBytes (bleMldpSendBytes (fun _ => false)
        (List.replicate 21 (Kermit.ch 'a')) 21 transferring) = [] := by
    decide +kernel
  refine ⟨?_, failed.1, failed.2, by decide +kernel, by decide +kernel⟩
  intro delivered
  have same := (delivered failed.1).1
  rw [failed.2] at same
  exact absurd same (by decide)

end Slate106.Ble
