import Slate106.BleCentral
import Slate106.FifoCapacity
import Slate106.KermitFrame
import Slate106.KermitWf

namespace Slate106.Ble

open CBytes Mldp Kermit

/-!
# Packets over a fragmented link

MLDP writes put bytes into the rx FIFO, polls of `kreadpkt` take them out, in
any order.  However the bytes of the packets are cut into writes, the calls of
`kreadpkt` return the packets.
-/

/-! ## Writes and polls in any order -/

/-- What happens at the rx FIFO. -/
inductive LinkEvent where
  | write : List UInt8 → LinkEvent
  | poll
  deriving Repr, DecidableEq

/-- The bytes of the writes, in order. -/
def written : List LinkEvent → List UInt8
  | [] => []
  | .write value :: rest => value ++ written rest
  | .poll :: rest => written rest

/-- The results of the polls, and the state after the last event. -/
def linkPolls : List LinkEvent → Globals → List Poll × Globals
  | [], g => ([], g)
  | .write value :: rest, g =>
      linkPolls rest (serverMldpDataCharWriteCb 0 value none g)
  | .poll :: rest, g =>
      let got := bleMldpGetByte g
      let more := linkPolls rest got.2
      (got.1 :: more.1, more.2)

/-- At every write there is room in the rx FIFO for all of it. -/
def Roomy : List LinkEvent → Globals → Prop
  | [], _ => True
  | .write value :: rest, g =>
      (fifoLength g.mGattCentral.mldpFifoRx).toNat + value.length ≤
          mldpRxBuffSize ∧
        Roomy rest (serverMldpDataCharWriteCb 0 value none g)
  | .poll :: rest, g => Roomy rest (bleMldpGetByte g).2

instance decidableRoomy :
    ∀ events g, Decidable (Roomy events g)
  | [], _ => inferInstanceAs (Decidable True)
  | .write _ :: rest, _ =>
      have := decidableRoomy rest
      inferInstanceAs (Decidable (_ ∧ _))
  | .poll :: rest, _ => decidableRoomy rest _

/-- The bytes that polls have taken. -/
def polledBytes : List Poll → List UInt8
  | [] => []
  | .byte c :: rest => c :: polledBytes rest
  | .empty :: rest => polledBytes rest
  | .error :: rest => polledBytes rest

/-- The rx FIFO of a running file transfer holds some bytes. -/
structure Receiving
    (queue : List UInt8)
    (g : Globals) : Prop where
  transfer : g.bleConStep = .fileTransfer
  holds : Holds g.mGattCentral.mldpFifoRx queue

/-- A write that fits is appended to the rx FIFO. -/
theorem Receiving.write
    {queue : List UInt8}
    {g : Globals}
    (receiving : Receiving queue g)
    {value : List UInt8}
    (room : queue.length + value.length ≤ mldpRxBuffSize) :
    Receiving (queue ++ value) (serverMldpDataCharWriteCb 0 value none g) := by
  have notWaiting : ¬ g.bleConStep = .waitMldpData := by
    rw [receiving.transfer]
    decide
  obtain ⟨_, holds⟩ := receiving.holds.fifoWrite_refines (some value)
    (some (UInt32.ofNat value.length))
  have small : value.length ≤ 4096 := by
    have fits : queue.length + value.length ≤ 4096 := room
    omega
  have size : (UInt32.ofNat value.length).toNat = value.length := by
    rw [UInt32.toNat_ofNat']
    omega
  have queued : (queueCall (.write (some value)
      (some (UInt32.ofNat value.length))) queue).2.after = queue ++ value := by
    unfold queueCall
    dsimp only
    by_cases full : mldpRxBuffSize - queue.length = 0
    · rw [if_pos full]
      have none : value = [] := by
        apply List.eq_nil_of_length_eq_zero
        omega
      rw [none, List.append_nil]
      rfl
    · have least : min value.length (mldpRxBuffSize - queue.length) =
          value.length := Nat.min_eq_left (by omega)
      rw [if_neg full, size, least, List.takeD_eq_take _ (Nat.le_refl _),
        List.take_length]
      show queue ++ List.take _ value = _
      rw [List.take_of_length_le (by omega)]
  rw [queued] at holds
  unfold serverMldpDataCharWriteCb
  rw [if_neg (by decide)]
  dsimp only
  rw [if_neg notWaiting]
  exact ⟨receiving.transfer, holds⟩

/-- A poll takes the oldest byte, if there is one. -/
theorem Receiving.poll
    {queue : List UInt8}
    {g : Globals}
    (receiving : Receiving queue g) :
    (bleMldpGetByte g).1 = (match queue with
      | [] => .empty
      | c :: _ => .byte c) ∧
      Receiving queue.tail (bleMldpGetByte g).2 := by
  cases queue with
  | nil =>
      unfold bleMldpGetByte
      dsimp only
      rw [receiving.holds.fifoGet_nil]
      exact ⟨rfl, receiving⟩
  | cons c queue =>
      obtain ⟨f', got, holds⟩ := receiving.holds.fifoGet_cons
      unfold bleMldpGetByte
      dsimp only
      rw [got]
      exact ⟨rfl, receiving.transfer, holds⟩

/-- No poll reports an error. -/
def NoError
    (polls : List Poll) : Prop :=
  Poll.error ∉ polls

/-- Every byte that was written has been polled or is still in the FIFO. -/
theorem linkPolls_bytes
    {events : List LinkEvent}
    {queue : List UInt8}
    {g : Globals}
    (receiving : Receiving queue g)
    (roomy : Roomy events g) :
    ∃ queue',
      Receiving queue' (linkPolls events g).2 ∧
      queue ++ written events =
        polledBytes (linkPolls events g).1 ++ queue' ∧
      NoError (linkPolls events g).1 := by
  induction events generalizing queue g with
  | nil =>
      exact ⟨queue, receiving, List.append_nil queue, List.not_mem_nil⟩
  | cons event events inductionHypothesis =>
      cases event with
      | write value =>
          obtain ⟨room, roomy⟩ := roomy
          rw [receiving.holds.toNat_length] at room
          obtain ⟨queue', receiving', bytes, fine⟩ :=
            inductionHypothesis (receiving.write room) roomy
          refine ⟨queue', receiving', ?_, fine⟩
          rw [List.append_assoc] at bytes
          exact bytes
      | poll =>
          obtain ⟨result, receiving₁⟩ := receiving.poll
          obtain ⟨queue', receiving', bytes, fine⟩ :=
            inductionHypothesis receiving₁ roomy
          refine ⟨queue', receiving', ?_, ?_⟩
          · show queue ++ written events =
              polledBytes ((bleMldpGetByte g).1 :: _) ++ queue'
            rw [result]
            cases queue with
            | nil => exact bytes
            | cons c queue => exact congrArg (c :: ·) bytes
          · intro member
            rcases List.mem_cons.mp member with first | later
            · rw [result] at first
              cases queue with
              | nil => exact nomatch first
              | cons c queue => exact nomatch first
            · exact fine later

/-! ## The timeout of `kreadpkt()` -/

/--
The timeout never expires: it is set to 120 times `r_timo` polls at every byte,
and the first argument counts the polls since.
-/
def InTime
    (p : Params) : Nat → List Poll → Prop
  | _, [] => True
  | waited, .byte _ :: rest =>
      waited + 1 ≠ 120 * p.rTimo ∧ InTime p 0 rest
  | waited, _ :: rest =>
      waited + 1 ≠ 120 * p.rTimo ∧ InTime p (waited + 1) rest

instance decidableInTime
    (p : Params) :
    ∀ waited polls, Decidable (InTime p waited polls)
  | _, [] => inferInstanceAs (Decidable True)
  | _, .byte _ :: rest =>
      have := decidableInTime p 0 rest
      inferInstanceAs (Decidable (_ ∧ _))
  | waited, .empty :: rest =>
      have := decidableInTime p (waited + 1) rest
      inferInstanceAs (Decidable (_ ∧ _))
  | waited, .error :: rest =>
      have := decidableInTime p (waited + 1) rest
      inferInstanceAs (Decidable (_ ∧ _))

/-- Polls are all empty, or a byte follows some empty ones. -/
theorem polls_shape
    {polls : List Poll}
    (fine : NoError polls) :
    (∃ pause, polls = List.replicate pause .empty) ∨
      ∃ pause c rest,
        polls = List.replicate pause .empty ++ .byte c :: rest := by
  induction polls with
  | nil =>
      exact Or.inl ⟨0, rfl⟩
  | cons poll polls inductionHypothesis =>
      have later : NoError polls :=
        fun member => fine (List.mem_cons_of_mem poll member)
      cases poll with
      | byte c => exact Or.inr ⟨0, c, polls, rfl⟩
      | error => exact absurd (List.mem_cons_self ..) fine
      | empty =>
          rcases inductionHypothesis later with
            ⟨pause, rfl⟩ | ⟨pause, c, rest, rfl⟩
          · exact Or.inl ⟨pause + 1, rfl⟩
          · exact Or.inr ⟨pause + 1, c, rest, rfl⟩

theorem polledBytes_pause
    (pause : Nat)
    (c : UInt8)
    (rest : List Poll) :
    polledBytes (List.replicate pause .empty ++ .byte c :: rest) =
      c :: polledBytes rest := by
  induction pause with
  | zero =>
      rfl
  | succ pause inductionHypothesis =>
      exact inductionHypothesis

theorem polledBytes_replicate
    (pause : Nat) :
    polledBytes (List.replicate pause .empty) = [] := by
  induction pause with
  | zero =>
      rfl
  | succ pause inductionHypothesis =>
      exact inductionHypothesis

/-- Empty polls only let the time pass. -/
theorem inTime_pause
    {p : Params}
    {waited pause : Nat}
    {rest : List Poll}
    (inTime :
      InTime p waited (List.replicate pause .empty ++ rest))
    (early : p.rTimo = 0 ∨ waited < 120 * p.rTimo) :
    InTime p (waited + pause) rest ∧
      (p.rTimo = 0 ∨ waited + pause < 120 * p.rTimo) := by
  induction pause generalizing waited with
  | zero =>
      exact ⟨inTime, early⟩
  | succ pause inductionHypothesis =>
      rw [List.replicate_succ, List.cons_append] at inTime
      obtain ⟨running, later⟩ := inTime
      have result := inductionHypothesis later (by omega)
      have sum : waited + (pause + 1) = waited + 1 + pause := by omega
      rw [sum]
      exact result

/-- The polls that bring some bytes, and those after them. -/
theorem polls_split
    {p : Params}
    {bytes more : List UInt8}
    {polls : List Poll}
    (fine : NoError polls)
    (inTime : InTime p 0 polls)
    (taken : polledBytes polls = bytes ++ more) :
    ∃ first later,
      polls = first ++ later ∧
      Arrives p bytes first ∧
      polledBytes later = more ∧
      NoError later ∧
      InTime p 0 later := by
  induction bytes generalizing polls with
  | nil =>
      exact ⟨[], polls, rfl, .nil, taken, fine, inTime⟩
  | cons c bytes inductionHypothesis =>
      rcases polls_shape fine with ⟨pause, rfl⟩ | ⟨pause, d, rest, rfl⟩
      · rw [polledBytes_replicate] at taken
        exact absurd taken (by simp)
      · rw [polledBytes_pause] at taken
        obtain ⟨rfl, takenRest⟩ := List.cons.inj taken
        obtain ⟨⟨running, inTimeRest⟩, early⟩ :=
          inTime_pause inTime (by omega)
        have fineRest : NoError rest := by
          intro member
          exact fine (List.mem_append_right _
            (List.mem_cons_of_mem _ member))
        obtain ⟨first, later, rfl, arrives, takenLater, fineLater, inTimeLater⟩ :=
          inductionHypothesis fineRest inTimeRest takenRest
        refine ⟨List.replicate pause .empty ++ .byte d :: first, later, ?_,
          .byte d pause (by omega) arrives, takenLater, fineLater,
          inTimeLater⟩
        simp

/-! ## Calls of `kreadpkt()` in a row -/

/-- The results of calls of `kreadpkt()`, as long as they return. -/
def kreadpktsFrom
    (p : Params) : Nat → List Poll → List Rx
  | 0, _ => []
  | n + 1, polls =>
      match kreadpkt p polls with
      | none => []
      | some (rx, rest) => rx :: kreadpktsFrom p n rest

/-- Each call takes at least one poll. -/
def kreadpkts
    (p : Params)
    (polls : List Poll) : List Rx :=
  kreadpktsFrom p (polls.length + 1) polls

/-- A body between its start and its terminator. -/
def linkFrame
    (body : List UInt8) : List UInt8 :=
  packetStart :: (body ++ [packetEnd])

/-- What `kreadpkt()` returns for a body. -/
def bodyRx
    (body : List UInt8) : Rx where
  ret := body.length
  stored := body ++ [0]

/-- The reader takes a body whole. -/
structure Readable
    (p : Params)
    (body : List UInt8) : Prop where
  room : body.length ≤ p.rMaxlen
  plain : ∀ c ∈ body, unparity p c ≠ packetStart ∧ unparity p c ≠ packetEnd

/-- Polls after the last byte do not end a call of `kreadpkt()`. -/
theorem kreadpktFrom_trailing
    {p : Params}
    {pause : Nat}
    {v : ReadVars}
    (timeout : v.timeout = readTimeout p)
    (inTime : InTime p 0 (List.replicate pause .empty)) :
    kreadpktFrom p (List.replicate pause .empty) v = none := by
  cases pause with
  | zero =>
      rfl
  | succ pause =>
      have ended : InTime p 0 (List.replicate (pause + 1) .empty ++ []) := by
        rw [List.append_nil]
        exact inTime
      obtain ⟨_, early⟩ := inTime_pause ended (by omega)
      have enough : TimeLeft pause v := by
        unfold TimeLeft
        rw [timeout, readTimeout]
        omega
      obtain ⟨time, waited, last, same⟩ :=
        kreadpktFrom_pause p enough [.empty]
      rw [List.replicate_succ', same, kreadpktFrom, if_pos (timeLeft_last last),
        kreadpktFrom]

/-- The first bytes of a body are stored. -/
theorem kreadpktFrom_partial
    {p : Params}
    (start : p.rSoh = packetStart)
    (terminator : p.rEom = packetEnd)
    (tail : List Poll)
    {more bytes : List UInt8}
    {polls : List Poll}
    {v : ReadVars}
    (arrives : Arrives p more polls)
    (timeout : v.timeout = readTimeout p)
    (reading : Reading bytes v)
    (room : bytes.length + more.length ≤ p.rMaxlen)
    (plain :
      ∀ c ∈ more, unparity p c ≠ packetStart ∧ unparity p c ≠ packetEnd) :
    ∃ next,
      kreadpktFrom p (polls ++ tail) v = kreadpktFrom p tail next ∧
      next.timeout = readTimeout p := by
  induction more generalizing bytes polls v with
  | nil =>
      cases arrives
      exact ⟨v, rfl, timeout⟩
  | cons c more inductionHypothesis =>
      cases arrives with
      | byte c pause inTime later =>
          rename_i laterPolls
          obtain ⟨time, waited, taken⟩ :=
            kreadpktFrom_arrival timeout inTime c (laterPolls ++ tail)
          have sameReading : Reading bytes (v.at time waited) :=
            ⟨reading.flag, reading.count, reading.stored, reading.begun,
              reading.start⟩
          have cPlain := plain c (List.mem_cons_self ..)
          rw [List.length_cons] at room
          obtain ⟨next, stored, nextTimeout, nextReading⟩ :=
            readByte_body (p := p) (c := c) sameReading (by omega)
              (by rw [start]; exact cPlain.1)
              (by rw [terminator]; exact cPlain.2)
          obtain ⟨last, rest, lastTimeout⟩ :=
            inductionHypothesis later nextTimeout nextReading
              (by rw [List.length_append, List.length_singleton]; omega)
              (fun d member => plain d (List.mem_cons_of_mem c member))
          refine ⟨last, ?_, lastTimeout⟩
          rw [List.append_assoc, List.cons_append, taken, stored]
          exact rest

/-- While the terminator has not been polled, `kreadpkt()` waits. -/
theorem kreadpkt_waits
    {p : Params}
    (start : p.rSoh = packetStart)
    (terminator : p.rEom = packetEnd)
    {body unseen : List UInt8}
    (readable : Readable p body)
    {polls : List Poll}
    (fine : NoError polls)
    (inTime : InTime p 0 polls)
    (taken : polledBytes polls ++ unseen = linkFrame body)
    (incomplete : unseen ≠ []) :
    kreadpkt p polls = none := by
  obtain ⟨first, later, rfl, arrives, nothing, fineLater, inTimeLater⟩ :=
    polls_split fine inTime (List.append_nil (polledBytes polls)).symm
  have trailing : ∃ pause, later = List.replicate pause .empty := by
    rcases polls_shape fineLater with pause | ⟨pause, c, rest, rfl⟩
    · exact pause
    · rw [polledBytes_pause] at nothing
      exact nomatch nothing
  obtain ⟨pause, rfl⟩ := trailing
  generalize polledBytes (first ++ List.replicate pause .empty) = bytes at *
  cases arrives with
  | nil =>
      exact kreadpktFrom_trailing rfl inTimeLater
  | byte c pauseStart inTimeStart arrivesBody =>
      rename_i bodyBytes bodyPolls
      unfold linkFrame at taken
      rw [List.cons_append] at taken
      obtain ⟨rfl, takenBody⟩ := List.cons.inj taken
      have inBody : bodyBytes <+: body := by
        have lastNot : bodyBytes.length ≤ body.length := by
          have sizes := congrArg List.length takenBody
          have positive := List.length_pos_iff.mpr incomplete
          simp only [List.length_append, List.length_singleton] at sizes
          omega
        exact List.prefix_of_prefix_length_le ⟨unseen, takenBody⟩
          ⟨[packetEnd], rfl⟩ lastNot
      obtain ⟨missing, rfl⟩ := inBody
      obtain ⟨time, waited, started⟩ :=
        kreadpktFrom_arrival (v := ReadVars.start p) rfl inTimeStart packetStart
          (bodyPolls ++ List.replicate pause .empty)
      obtain ⟨next, begun, nextTimeout, reading⟩ :=
        readByte_start start time waited
      have room := readable.room
      rw [List.length_append] at room
      obtain ⟨last, rest, lastTimeout⟩ :=
        kreadpktFrom_partial start terminator (List.replicate pause .empty)
          arrivesBody nextTimeout reading
          (by rw [List.length_nil]; omega)
          (fun d member => readable.plain d (List.mem_append_left _ member))
      rw [kreadpkt, List.append_assoc, List.cons_append, started, begun]
      dsimp only
      rw [rest]
      exact kreadpktFrom_trailing lastTimeout inTimeLater

/-- What has been polled stops inside a frame, or goes on after it. -/
theorem polled_frame
    {polled unseen frame rest : List UInt8}
    (taken : polled ++ unseen = frame ++ rest) :
    (∃ missing, missing ≠ [] ∧ polled ++ missing = frame ∧
        unseen = missing ++ rest) ∨
      ∃ more, polled = frame ++ more ∧ more ++ unseen = rest := by
  rcases List.append_eq_append_iff.mp taken with
    ⟨missing, whole, after⟩ | ⟨more, whole, after⟩
  · by_cases complete : missing = []
    · subst complete
      rw [List.append_nil] at whole
      exact Or.inr ⟨[], by rw [whole, List.append_nil], after⟩
    · exact Or.inl ⟨missing, complete, whole.symm, after⟩
  · exact Or.inr ⟨more, whole, after.symm⟩

theorem polledBytes_length
    (polls : List Poll) :
    (polledBytes polls).length ≤ polls.length := by
  induction polls with
  | nil =>
      exact Nat.le_refl 0
  | cons poll polls inductionHypothesis =>
      cases poll with
      | byte c => exact Nat.succ_le_succ inductionHypothesis
      | empty => exact Nat.le_succ_of_le inductionHypothesis
      | error => exact Nat.le_succ_of_le inductionHypothesis

/-- The calls return the bodies whose terminators have been polled. -/
theorem kreadpktsFrom_bodies
    {p : Params}
    (start : p.rSoh = packetStart)
    (terminator : p.rEom = packetEnd)
    {bodies : List (List UInt8)}
    (readable : ∀ body ∈ bodies, Readable p body)
    {unseen : List UInt8}
    {polls : List Poll}
    {calls : Nat}
    (fine : NoError polls)
    (inTime : InTime p 0 polls)
    (taken : polledBytes polls ++ unseen = bodies.flatMap linkFrame)
    (enough : (polledBytes polls).length < calls) :
    ∃ count,
      kreadpktsFrom p calls polls = (bodies.take count).map bodyRx ∧
      (unseen = [] → count = bodies.length) := by
  induction bodies generalizing polls calls with
  | nil =>
      obtain ⟨none, _⟩ := List.append_eq_nil_iff.mp taken
      refine ⟨0, ?_, fun _ => rfl⟩
      have waits := kreadpkt_waits start terminator
        (show Readable p [] from
          ⟨Nat.zero_le _, fun c member => nomatch member⟩) fine inTime
        (show polledBytes polls ++ linkFrame [] = linkFrame [] by
          rw [none, List.nil_append])
        (List.cons_ne_nil _ _)
      cases calls with
      | zero => rfl
      | succ calls =>
          rw [kreadpktsFrom, waits]
          rfl
  | cons body bodies inductionHypothesis =>
      obtain ⟨calls, rfl⟩ : ∃ earlier, calls = earlier + 1 :=
        ⟨calls - 1, by omega⟩
      have readableBody := readable body (List.mem_cons_self ..)
      rw [List.flatMap_cons] at taken
      rcases polled_frame taken with
        ⟨missing, incomplete, whole, rest⟩ | ⟨more, whole, rest⟩
      · have waits := kreadpkt_waits start terminator readableBody fine
          inTime whole incomplete
        refine ⟨0, ?_, ?_⟩
        · rw [kreadpktsFrom, waits]
          rfl
        · intro none
          rw [rest, List.append_eq_nil_iff] at none
          exact absurd none.1 incomplete
      · obtain ⟨first, later, rfl, arrives, takenLater, fineLater,
            inTimeLater⟩ := polls_split fine inTime whole
        have read := kreadpkt_frame start terminator arrives readableBody.room
          readableBody.plain later
        have fewer : (polledBytes later).length < calls := by
          have sizes := congrArg List.length whole
          rw [List.length_append, linkFrame, List.length_cons] at sizes
          rw [takenLater]
          omega
        obtain ⟨count, results, all⟩ := inductionHypothesis
          (fun body member => readable body (List.mem_cons_of_mem _ member))
          fineLater inTimeLater (by rw [takenLater]; exact rest) fewer
        refine ⟨count + 1, ?_, ?_⟩
        · rw [kreadpktsFrom, read]
          dsimp only
          rw [results]
          rfl
        · intro none
          rw [all none]
          rfl

/-- The frames of some packets, as `spkt()` builds them. -/
structure SentPacket where
  typ : UInt8
  seq : Int
  data : List UInt8
  deriving Repr, DecidableEq

/-- The body of a packet that is sent with some parameters. -/
def SentPacket.body
    (par : Params)
    (packet : SentPacket) : List UInt8 :=
  pktBody par.bct packet.typ packet.seq packet.data

/-- The whole packet as `spkt()` hands it to the link. -/
def SentPacket.frame
    (par : Params)
    (packet : SentPacket) : List UInt8 :=
  pktFrame par packet.typ packet.seq packet.data

/-- A body as the reader compares it holds no start and no terminator. -/
def UnmistakableBody
    (p : Params)
    (body : List UInt8) : Prop :=
  p.parity = 0 ∨
    ∀ c ∈ body, c &&& 0x7f ≠ packetStart ∧ c &&& 0x7f ≠ packetEnd

theorem readable_of_unmistakable
    {p : Params}
    {body : List UInt8}
    (room : body.length ≤ p.rMaxlen)
    (noStart : packetStart ∉ body)
    (noEnd : packetEnd ∉ body)
    (seen : UnmistakableBody p body) :
    Readable p body := by
  refine ⟨room, ?_⟩
  intro c member
  have plain : c ≠ packetStart ∧ c ≠ packetEnd :=
    ⟨fun same => noStart (same ▸ member), fun same => noEnd (same ▸ member)⟩
  unfold unparity
  split
  · rename_i parity
    exact (seen.resolve_left parity) c member
  · exact plain

/--
However the frames of some packets are cut into writes and the writes are
mixed with polls, the calls of `kreadpkt` return the bodies one after the
other, and all of them once every byte has been polled.
-/
theorem kreadpkts_fragmented
    {sender p : Params}
    (startSent : sender.sSoh = packetStart)
    (endSent : sender.sEom = packetEnd)
    (startRead : p.rSoh = packetStart)
    (endRead : p.rEom = packetEnd)
    {packets : List SentPacket}
    (room : ∀ packet ∈ packets, (packet.body sender).length ≤ p.rMaxlen)
    (noStart : ∀ packet ∈ packets, packetStart ∉ packet.body sender)
    (noEnd : ∀ packet ∈ packets, packetEnd ∉ packet.body sender)
    (seen : ∀ packet ∈ packets, UnmistakableBody p (packet.body sender))
    {events : List LinkEvent}
    (cut : written events = packets.flatMap (SentPacket.frame sender))
    {g : Globals}
    (receiving : Receiving [] g)
    (roomy : Roomy events g)
    (inTime : InTime p 0 (linkPolls events g).1) :
    let polls := (linkPolls events g).1
    ∃ count,
      kreadpkts p polls =
        (packets.take count).map (fun packet =>
          bodyRx (packet.body sender)) ∧
      (polledBytes polls = written events → count = packets.length) := by
  obtain ⟨queue, _, bytes, fine⟩ := linkPolls_bytes receiving roomy
  rw [List.nil_append] at bytes
  have frames : packets.flatMap (SentPacket.frame sender) =
      (packets.map (SentPacket.body sender)).flatMap linkFrame := by
    rw [List.flatMap_map]
    congr 1
    funext packet
    unfold SentPacket.frame pktFrame linkFrame
    rw [startSent, endSent]
    rfl
  have readable : ∀ body ∈ packets.map (SentPacket.body sender),
      Readable p body := by
    intro body member
    obtain ⟨packet, sent, rfl⟩ := List.mem_map.mp member
    exact readable_of_unmistakable (room packet sent) (noStart packet sent)
      (noEnd packet sent) (seen packet sent)
  have enough : (polledBytes (linkPolls events g).1).length <
      (linkPolls events g).1.length + 1 :=
    Nat.lt_succ_of_le (polledBytes_length _)
  obtain ⟨count, results, all⟩ := kreadpktsFrom_bodies startRead endRead
    readable fine inTime (bytes.symm.trans (cut.trans frames)) enough
  refine ⟨count, ?_, ?_⟩
  · unfold kreadpkts
    rw [results, ← List.map_take, List.map_map]
    rfl
  · intro drained
    rw [drained] at bytes
    have none : queue = [] := by simpa using bytes
    rw [all none, List.length_map]

/-- The parameters a server starts with. -/
def startParams : Params :=
  (idleServer idleOs ()).k.par

/-- Two packets, the second cut after its start, with a poll between. -/
def cutEvents : List LinkEvent :=
  [.write (pktFrame startParams (ch 'Y') 0 [] ++ [packetStart]), .poll,
    .write ((pktFrame startParams (ch 'N') 1 []).drop 1)] ++
      List.replicate 12 .poll

theorem kreadpkts_fragmented_cut :
    kreadpkts startParams (linkPolls cutEvents transferring).1 =
      [bodyRx (pktBody 1 (ch 'Y') 0 []), bodyRx (pktBody 1 (ch 'N') 1 [])] := by
  have receiving : Receiving [] transferring :=
    ⟨rfl, (holds_fifoInit [] zeroedFifo).2⟩
  have cut : written cutEvents =
      ([{ typ := ch 'Y', seq := 0, data := [] },
        { typ := ch 'N', seq := 1, data := [] }] :
          List SentPacket).flatMap (SentPacket.frame startParams) := by
    decide
  obtain ⟨count, results, all⟩ := kreadpkts_fragmented (p := startParams)
    (by decide) (by decide) (by decide) (by decide) (by decide)
    (by decide) (by decide) (fun _ _ => Or.inl (by decide)) cut receiving
    (by decide +kernel) (by decide +kernel)
  have two : count = 2 := all (by decide +kernel)
  rw [two] at results
  exact results

/--
With a parity set, the reader compares bytes without their eighth bit: the byte
0x93 of a body is taken for a start and dropped.
-/
theorem parity_breaks_fragmented :
    let p := { startParams with parity := 1 }
    let packet : SentPacket := { typ := ch 'D', seq := 0, data := [0x93] }
    let events := .write (packet.frame startParams) :: List.replicate 8 .poll
    let polls := (linkPolls events transferring).1
    packetStart ∉ packet.body startParams ∧
      packetEnd ∉ packet.body startParams ∧
      (packet.body startParams).length ≤ p.rMaxlen ∧
      Roomy events transferring ∧
      InTime p 0 polls ∧
      polledBytes polls = packet.frame startParams ∧
      kreadpkts p polls ≠ [bodyRx (packet.body startParams)] := by
  decide +kernel

/-! ## The answer to a write -/

/-- `BT_ATT_ERROR_INVALID_OFFSET`. -/
abbrev btAttErrorInvalidOffset : UInt8 := 0x07

/--
`server_mldp_data_char_write_cb()` with the error code it hands to
`gatt_db_attribute_write_result`; `attrib` tells whether there is an attribute.
-/
def serverMldpDataCharWriteAnswer
    (attrib : Bool)
    (offset : UInt16)
    (value : List UInt8)
    (created : Option Nat)
    (g : Globals) : Option UInt8 × Globals :=
  let ecode : UInt8 := 0
  if !attrib then (none, g)
  else if offset ≠ 0 then (some btAttErrorInvalidOffset, g)
  else
    let g :=
      if g.bleConStep = .waitMldpData then
        startFileTransfer created { g with bleConStep := .fileTransfer }
      else g
    -- The result and the size of the write are not looked at.
    let written := fifoWrite (some value) (some (UInt32.ofNat value.length))
      g.mGattCentral.mldpFifoRx
    (some ecode, { g with mGattCentral.mldpFifoRx := written.2 })

/-- The state after the callback is the one the other lemmas are about. -/
theorem serverMldpDataCharWriteAnswer_snd
    (offset : UInt16)
    (value : List UInt8)
    (created : Option Nat)
    (g : Globals) :
    (serverMldpDataCharWriteAnswer true offset value created g).2 =
      serverMldpDataCharWriteCb offset value created g := by
  unfold serverMldpDataCharWriteAnswer serverMldpDataCharWriteCb
  dsimp only
  rw [if_neg (by decide)]
  split <;> rfl

/--
A write is answered with 0 when its value has been stored, and with an error
when the FIFO has been left alone.
-/
def AnswersTruly
    (value : List UInt8)
    (g : Globals)
    (answer : Option UInt8 × Globals) : Prop :=
  let before := g.mGattCentral.mldpFifoRx
  let after := answer.2.mGattCentral.mldpFifoRx
  (answer.1 = some 0 ∧ contents after = contents before ++ value) ∨
    (∃ ecode, ecode ≠ 0 ∧ answer.1 = some ecode ∧ after = before)

/--
The answer to a write during a file transfer is true exactly when the value
fits the rx FIFO.
-/
theorem serverMldpDataCharWriteCb_answers_iff
    {queue : List UInt8}
    {g : Globals}
    (receiving : Receiving queue g)
    (value : List UInt8)
    (created : Option Nat) :
    AnswersTruly value g
        (serverMldpDataCharWriteAnswer true 0 value created g) ↔
      queue.length + value.length ≤ mldpRxBuffSize := by
  have notWaiting : ¬ g.bleConStep = .waitMldpData := by
    rw [receiving.transfer]
    decide
  have answered :
      (serverMldpDataCharWriteAnswer true 0 value created g).1 = some 0 :=
    rfl
  have state : (serverMldpDataCharWriteAnswer true 0 value created g).2 =
      serverMldpDataCharWriteCb 0 value none g := by
    rw [serverMldpDataCharWriteAnswer_snd]
    unfold serverMldpDataCharWriteCb
    rw [if_neg (by decide), if_neg notWaiting, if_neg notWaiting]
    rfl
  have before := receiving.holds.stores.contents_eq
  constructor
  · rintro (⟨_, stored⟩ | ⟨ecode, failed, reported, _⟩)
    · rw [state, before] at stored
      obtain ⟨queue', kept⟩ := receiving.holds.stores.write (some value)
        (some (UInt32.ofNat value.length))
      have after :
          (serverMldpDataCharWriteCb 0 value none g).mGattCentral.mldpFifoRx =
            (fifoWrite (some value) (some (UInt32.ofNat value.length))
              g.mGattCentral.mldpFifoRx).2 := by
        unfold serverMldpDataCharWriteCb
        rw [if_neg (by decide), if_neg notWaiting]
      rw [after, kept.contents_eq] at stored
      have bounded := kept.bounded
      rw [stored, List.length_append] at bounded
      exact bounded
    · rw [answered] at reported
      exact absurd (Option.some.inj reported).symm failed
  · intro room
    refine Or.inl ⟨answered, ?_⟩
    rw [state, before]
    exact (receiving.write room).holds.stores.contents_eq

theorem serverMldpDataCharWriteCb_answers_first :
    AnswersTruly [1, 2] transferring
      (serverMldpDataCharWriteAnswer true 0 [1, 2] none transferring) :=
  (@serverMldpDataCharWriteCb_answers_iff [] _
    ⟨rfl, (holds_fifoInit [] zeroedFifo).2⟩ [1, 2] none).mpr (by decide)

/-- A running file transfer whose rx FIFO is full. -/
def crowded : Globals :=
  { transferring with
    mGattCentral.mldpFifoRx :=
      { pBuff := List.replicate 4096 0
        buffSize := 4095
        readPos := 0
        writePos := 4096 } }

/-- A byte that finds the FIFO full is acknowledged and lost. -/
theorem serverMldpDataCharWriteCb_acknowledges_lost :
    let answer := serverMldpDataCharWriteAnswer true 0 [7] none crowded
    ¬ AnswersTruly [7] crowded answer ∧
      answer = (some 0, crowded) := by
  have full : isFifoFull crowded.mGattCentral.mldpFifoRx = true := by
    decide
  have kept : (fifoWrite (some [7]) (some 1)
      crowded.mGattCentral.mldpFifoRx).2 =
      crowded.mGattCentral.mldpFifoRx := by
    unfold fifoWrite
    dsimp only
    rw [if_pos full]
  have answer : serverMldpDataCharWriteAnswer true 0 [7] none crowded =
      (some 0, crowded) := by
    show (some (0 : UInt8),
      { crowded with
        mGattCentral.mldpFifoRx := (fifoWrite (some [7]) (some 1)
          crowded.mGattCentral.mldpFifoRx).2 }) = _
    rw [kept]
  refine ⟨?_, answer⟩
  rw [answer]
  rintro (⟨_, stored⟩ | ⟨ecode, failed, reported, _⟩)
  · have more := congrArg List.length stored
    rw [List.length_append] at more
    exact absurd more (by simp)
  · exact failed (Option.some.inj reported).symm

end Slate106.Ble
