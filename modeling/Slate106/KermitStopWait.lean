import Slate106.KermitListing
import Slate106.KermitRequested
import Slate106.KermitSendMap
import Slate106.KermitSupply
import Slate106.StopWait

namespace Slate106.Kermit

open CBytes

/-!
# A GET is stop and wait

From the request on, whatever times out, gets lost or comes twice: the server
sends S, F, A if attributes were negotiated, the data, Z and B under the numbers
0, 1, 2 and so on, each when the packet before is acknowledged.  Everything else
that it sends is the last of these packets once more.
-/

variable {σ : Type}

/-- The server in a GET, what its last call returned, and its turns. -/
structure Get (σ : Type) where
  sys : Sys (Unix σ)
  rc : Int
  turns : List (StopWait.Turn (List UInt8))

/-- The number of the valid ACK that was received, if it was one. -/
def ackedSeq
    (rx : Rx)
    (s : Sys (Unix σ)) : Option Int :=
  if rx.ret < 4 then none
  else
    match parse (heardSys rx s).k rx.ret with
    | .good p _ => if p.rtyp = ch 'Y' then some p.rseq else none
    | _ => none

/-- One turn of the server's main loop. -/
def getTurn
    (os : Os σ)
    (rx : Rx)
    (n : Get σ) : Get σ :=
  let s := heardSys rx n.sys
  let done := kermit (unixio os) .run rx.ret [] s
  { sys := done.2
    rc := done.1
    turns :=
      { acked := ackedSeq rx n.sys, sent := newTxds s.log done.2.log } ::
        n.turns }

/-- The server after `K_REINIT`; its log begins here. -/
def reinitialised
    (os : Os σ)
    (msg : List UInt8)
    (s : Sys (Unix σ)) : Get σ :=
  { sys := { (kermit (unixio os) .reinit 0 msg s).2 with log := [] }
    rc := xOk
    turns := [] }

/--
What may happen in a GET: a timeout, a frame that fails a check, a valid NAK or
a valid ACK that does not cancel.  The ACK to S leaves room for five characters
in a data field.
-/
structure GetEvent
    (rx : Rx)
    (s : Sys (Unix σ)) : Prop where
  received : 0 ≤ rx.ret
  kinds :
    ∀ p buf, 4 ≤ rx.ret → parse (heardSys rx s).k rx.ret = .good p buf →
      p.rtyp = ch 'N' ∨ p.rtyp = ch 'Y' ∧ ¬ CancelsSend p buf
  room :
    ∀ p buf, s.k.state = .sInit →
      ValidAck s.k.sSeq (heardSys rx s).k rx.ret p buf →
        5 ≤ getpktMaxlen (negotiated (heardSys rx s).k p buf)

/-- A GET whose R packet came right after `K_REINIT`, and the turns since. -/
inductive GetRun
    (os : Os σ) : Get σ → Prop where
  | accepted
      {s : Sys (Unix σ)}
      (before : Reachable (unixio os) s)
      (msg : List UInt8)
      {rx : Rx}
      {p : Rcvd}
      {buf : List UInt8}
      (request :
        ValidRequest (heardSys rx (reinitialised os msg s).sys).k rx.ret p buf)
      (fine : (getTurn os rx (reinitialised os msg s)).rc = xOk) :
      GetRun os (getTurn os rx (reinitialised os msg s))
  | turn
      {n : Get σ}
      (earlier : GetRun os n)
      (going : n.rc ≠ xDone)
      {rx : Rx}
      (event : GetEvent rx n.sys) :
      GetRun os (getTurn os rx n)

/-- The packets of a GET with a number of data packets. -/
def getTypes
    (par : Params)
    (count : Nat) : List UInt8 :=
  [ch 'S', ch 'F'] ++ (if par.capas &&& capAt ≠ 0 then [ch 'A'] else []) ++
    List.replicate count (ch 'D') ++ [ch 'Z', ch 'B']

/-- Z is sent when `readf` has reported the end of the file, not earlier. -/
def SendsEofAtEnd
    (log : List Call) : Prop :=
  ∀ later frame rc earlier,
    log = later ++ .txd frame rc :: earlier → frameType frame = ch 'Z' →
      .readf none ∈ earlier

/-- The packets, newest first, that a GET has sent for the first time. -/
structure StopsAndWaits
    (n : Get σ)
    (packets : List (List UInt8)) : Prop where
  run : StopWait.Run frameSeq 64 n.turns packets
  types :
    ∃ count,
      (packets.map frameType).reverse <+: getTypes n.sys.k.par count
  toEnd : SendsEofAtEnd n.sys.log

/-- `X_DONE` is returned for the ACK to B, or in `S_EOT` for a NAK of 0. -/
inductive EndsGet
    (rx : Rx)
    (n : Get σ)
    (packets : List (List UInt8)) : Prop where
  | acked
      {frame : List UInt8}
      {rest : List (List UInt8)}
      (last : packets = frame :: rest)
      (isB : frameType frame = ch 'B')
      (ack : ackedSeq rx n.sys = some (frameSeq frame))
  | nakked
      (state : n.sys.k.state = .sEot)
      (four : rx.ret = 4)
      (zero : xunchar (peek (heardSys rx n.sys).k.ipktbuf 1) = 0)
      (nak : peek (heardSys rx n.sys).k.ipktbuf 2 = ch 'N')
      (check : peek (heardSys rx n.sys).k.ipktbuf 3 = ch '3')

/-! ## Numbers and the log -/

theorem frameSeq_pktFrame
    (par : Params)
    (typ : UInt8)
    {seq : Int}
    (lower : 0 ≤ seq)
    (upper : seq ≤ 63)
    (data : List UInt8) :
    frameSeq (pktFrame par typ seq data) = seq := by
  have second : peek (pktFrame par typ seq data) 2 = tochar (uchar seq) := by
    unfold pktFrame pktBody pktHeader
    dsimp only
    split <;> rfl
  unfold frameSeq
  rw [second, xunchar_tochar]
  exact toNat_uchar lower upper

/-- More calls after the end of the file was read, if Z is among them. -/
theorem SendsEofAtEnd.append
    {log : List Call}
    (before : SendsEofAtEnd log)
    {more : List Call}
    (ended :
      ∀ frame ∈ txds more, frameType frame = ch 'Z' → .readf none ∈ log) :
    SendsEofAtEnd (more ++ log) := by
  intro later frame rc earlier split isZ
  rcases List.append_eq_append_iff.mp split with
    ⟨between, rfl, rest⟩ | ⟨between, rfl, rest⟩
  · exact before _ _ _ _ rest isZ
  · cases between with
    | nil =>
        exact before [] frame rc earlier rest.symm isZ
    | cons call between =>
        obtain ⟨rfl, rfl⟩ := List.cons.inj rest
        refine List.mem_append_right _ (ended frame ?_ isZ)
        rw [txds_append]
        exact List.mem_append_right _ List.mem_cons_self

/-! ## Where a GET is -/

/-- The packets up to a number of data packets, newest first. -/
def dataTypes
    (par : Params)
    (count : Nat) : List UInt8 :=
  List.replicate count (ch 'D') ++
    ((if par.capas &&& capAt ≠ 0 then [ch 'A'] else []) ++ [ch 'F', ch 'S'])

/-- The state of a GET, and the types of the packets it has sent. -/
inductive GetPhase
    (s : Sys (Unix σ))
    (types : List UInt8) : Prop where
  | init
      (state : s.k.state = .sInit)
      (sent : types = [ch 'S'])
      (filelist : s.k.filelist = [.xdatabuf])
      (counted : s.k.enc.sRpt = 0)
  | file
      (state : s.k.state = .sFile)
      (sent : types = [ch 'F', ch 'S'])
      (filelist : s.k.filelist = [])
      (supplied : Supplied s)
  | data
      (count : Nat)
      (state : s.k.state = .sAttr ∨ s.k.state = .sData)
      (sent : types = dataTypes s.k.par count)
      (filelist : s.k.filelist = [])
      (supplied : Supplied s)
  | eof
      (count : Nat)
      (state : s.k.state = .sEof)
      (sent : types = ch 'Z' :: dataTypes s.k.par count)
      (filelist : s.k.filelist = [])
      (seen : .readf none ∈ s.log)
  | eot
      (count : Nat)
      (state : s.k.state = .sEot)
      (sent : types = ch 'B' :: ch 'Z' :: dataTypes s.k.par count)
      (seen : .readf none ∈ s.log)

theorem dataTypes_prefix
    (par : Params)
    (count : Nat)
    {types : List UInt8}
    (sent : types = dataTypes par count ∨
      types = ch 'Z' :: dataTypes par count ∨
      types = ch 'B' :: ch 'Z' :: dataTypes par count) :
    types.reverse <+: getTypes par count := by
  have whole : (ch 'B' :: ch 'Z' :: dataTypes par count).reverse =
      getTypes par count := by
    unfold dataTypes getTypes
    split <;> simp
  rw [← whole, List.reverse_prefix]
  rcases sent with rfl | rfl | rfl
  · exact (List.suffix_cons _ _).trans (List.suffix_cons _ _)
  · exact List.suffix_cons _ _
  · exact List.suffix_rfl

/-- The types are those of a GET, up to here. -/
theorem GetPhase.types
    {s : Sys (Unix σ)}
    {types : List UInt8}
    (phase : GetPhase s types) :
    ∃ count, types.reverse <+: getTypes s.k.par count := by
  have front : [ch 'S', ch 'F'] <+: getTypes s.k.par 0 := by
    unfold getTypes
    rw [List.append_assoc, List.append_assoc]
    exact List.prefix_append _ _
  cases phase with
  | init _ sent _ _ =>
      rw [sent]
      exact ⟨0, List.IsPrefix.trans ⟨[ch 'F'], rfl⟩ front⟩
  | file _ sent _ _ =>
      rw [sent]
      exact ⟨0, front⟩
  | data count _ sent _ _ =>
      exact ⟨count, dataTypes_prefix _ _ (.inl sent)⟩
  | eof count _ sent _ _ =>
      exact ⟨count, dataTypes_prefix _ _ (.inr (.inl sent))⟩
  | eot count _ sent _ =>
      exact ⟨count, dataTypes_prefix _ _ (.inr (.inr sent))⟩

/-- In `S_EOT` the last packet is B. -/
theorem GetPhase.last
    {s : Sys (Unix σ)}
    {types : List UInt8}
    (phase : GetPhase s types)
    (eot : s.k.state = .sEot) :
    ∃ earlier, types = ch 'B' :: earlier := by
  cases phase with
  | init state | file state | eof _ state =>
      exact absurd (eot.symm.trans state) (by decide)
  | data _ state =>
      rcases state with state | state
      · exact absurd (eot.symm.trans state) (by decide)
      · exact absurd (eot.symm.trans state) (by decide)
  | eot _ _ sent =>
      exact ⟨_, sent⟩

/-- While Z is the last packet, the end of the file has been read. -/
theorem GetPhase.seen
    {s : Sys (Unix σ)}
    {types : List UInt8}
    (phase : GetPhase s types)
    (last : types.head? = some (ch 'Z')) :
    .readf none ∈ s.log := by
  have others : ∀ par count, (dataTypes par count).head? ≠ some (ch 'Z') := by
    intro par count isZ
    have member := List.mem_of_mem_head? isZ
    simp only [dataTypes, List.mem_append, List.mem_replicate] at member
    rcases member with ⟨-, isD⟩ | member | member
    · exact absurd isD (by decide)
    · split at member
      · exact absurd member (by decide)
      · exact absurd member List.not_mem_nil
    · exact absurd member (by decide)
  cases phase with
  | init _ sent | file _ sent =>
      rw [sent] at last
      exact absurd last (by decide)
  | data count _ sent =>
      rw [sent] at last
      exact absurd last (others _ _)
  | eof _ _ _ _ seen | eot _ _ _ seen =>
      exact seen

/-- A turn in which nothing is acknowledged leaves the phase as it is. -/
theorem GetPhase.same
    {s t : Sys (Unix σ)}
    {types : List UInt8}
    (phase : GetPhase s types)
    (state : t.k.state = s.k.state)
    (filelist : t.k.filelist = s.k.filelist)
    (input : SameInput (fun _ => []) s t) :
    GetPhase t types := by
  have par := input.par
  cases phase with
  | init at' sent list counted =>
      exact .init (state.trans at') sent (filelist.trans list)
        (input.sRpt.trans counted)
  | file at' sent list supplied =>
      exact .file (state.trans at') sent (filelist.trans list)
        (supplied.same input)
  | data count at' sent list supplied =>
      rw [← state] at at'
      rw [← par] at sent
      exact .data count at' sent (filelist.trans list) (supplied.same input)
  | eof count at' sent list seen =>
      rw [← par] at sent
      exact .eof count (state.trans at') sent (filelist.trans list)
        (input.seen seen)
  | eot count at' sent seen =>
      rw [← par] at sent
      exact .eot count (state.trans at') sent (input.seen seen)

/-! ## The next packet -/

/-- Up to here the next packet is prepared: nothing was sent. -/
structure Prepares
    (s u : Sys (Unix σ)) : Prop where
  sSeq : u.k.sSeq = (s.k.sSeq + 1) % 64
  cfg : u.k.cfg = s.k.cfg
  what : u.k.what = s.k.what
  filelist : u.k.filelist = []
  log : ∃ calls, u.log = calls ++ s.log ∧ txds calls = []

theorem Prepares.packs
    {s t u : Sys (Unix σ)}
    (prepares : Prepares s t)
    (packs : Packs t u) :
    Prepares s u := by
  obtain ⟨sSeq, cfg, what, filelist, calls, log, quiet⟩ := prepares
  obtain ⟨_, _, _, _, _, reads, -, -, rfl⟩ := packs
  refine ⟨sSeq, cfg, what, filelist, reads.map .readf ++ calls, ?_, ?_⟩
  · rw [List.append_assoc, ← log]
  · rw [txds_append, txds_reads, quiet]
    rfl

theorem Prepares.win
    {s t u : Sys (Unix σ)}
    (prepares : Prepares s t)
    (same : SameButWin t u) :
    Prepares s u := by
  obtain ⟨win, rfl⟩ := same
  exact ⟨prepares.sSeq, prepares.cfg, prepares.what, prepares.filelist,
    prepares.log⟩

/-- The server sends the next packet of a GET. -/
structure Proceeds
    (s : Sys (Unix σ))
    (types : List UInt8)
    (typ : UInt8)
    (result : Int × Sys (Unix σ)) : Prop where
  fine : result.1 = xOk
  awaiting : Awaiting result.2.k
  what : result.2.k.what = s.k.what
  cfg : result.2.k.cfg = s.k.cfg
  held :
    ∃ par data,
      slotPacket (result.2.k.win.opktinfo 0) =
        pktFrame par typ result.2.k.sSeq data
  sSeq : result.2.k.sSeq = (s.k.sSeq + 1) % 64
  log :
    ∃ more calls,
      result.2.log = more ++ (calls ++ s.log) ∧
        txds more = [slotPacket (result.2.k.win.opktinfo 0)] ∧
        txds calls = [] ∧ (typ = ch 'Z' → .readf none ∈ calls ++ s.log)
  phase : GetPhase result.2 (typ :: types)

theorem SentOne.proceeds
    {s u : Sys (Unix σ)}
    {result : Int × Sys (Unix σ)}
    {types data : List UInt8}
    {typ : UInt8}
    (sent : SentOne typ data u result.2)
    (prepares : Prepares s u)
    (fine : result.1 = xOk)
    (seen : typ = ch 'Z' → .readf none ∈ u.log)
    (phase : GetPhase result.2 (typ :: types)) :
    Proceeds s types typ result := by
  obtain ⟨sSeq, cfg, what, -, calls, before, quiet⟩ := prepares
  obtain ⟨more, log, frames⟩ := sent.log
  rw [before] at log seen
  refine ⟨fine, sent.awaiting, sent.what.trans what, sent.cfg.trans cfg,
    ⟨u.k.par, data, ?_⟩, sent.sSeq.trans sSeq,
    ⟨more, calls, log, ?_, quiet, seen⟩, phase⟩
  · rw [sent.sSeq]
    exact sent.held
  · rw [sent.held]
    exact frames

theorem Furnished.fits
    {io : Io (Unix σ)}
    {s : Sys (Unix σ)}
    (furnished : Furnished s (getpkt io s)) :
    FitsField io s := by
  have positive := furnished.positive
  have short := furnished.short
  have length : (fieldOf (getpkt io s)).length = (getpkt io s).1.toNat := by
    unfold fieldOf spktData
    dsimp only
    rw [if_neg (by omega), List.takeD_length]
  refine ⟨positive, ?_, furnished.packs⟩
  rw [length]
  unfold pPktlen at *
  omega

/-- The next of the data, or Z after the end of the file. -/
theorem Supplied.proceeds
    {io : Io (Unix σ)}
    {s u t : Sys (Unix σ)}
    {result : Int × Sys (Unix σ)}
    (supplied : Supplied t)
    (before : Prepares s u)
    (prepares : Prepares s t)
    (count : Nat)
    {types : List UInt8}
    (sentTypes : types = dataTypes u.k.par count)
    (ended :
      (getpkt io t).1 = 0 → Packs t (getpkt io t).2 →
        SentEof u (getpkt io t).2 result)
    (sent : FitsField io t → SentField io u t result) :
    ∃ typ, Proceeds s types typ result := by
  rcases getpkt_furnishes io supplied with
    ⟨nothing, seen, packs⟩ | furnished
  · obtain ⟨fine, one, after, state⟩ := ended nothing packs
    refine ⟨_, after.proceeds (prepares.packs packs) fine (fun _ => seen)
      (.eof count state ?_ ?_ (after.seen seen))⟩
    · rw [sentTypes, one.par]
    · exact one.filelist.trans before.filelist
  · obtain ⟨fine, one, state, input⟩ := sent furnished.fits
    refine ⟨_, one.proceeds before fine (fun isZ => absurd isZ (by decide))
      (.data (count + 1) (.inr state) ?_ ?_ ?_)⟩
    · rw [sentTypes, one.par]
      rfl
    · exact one.filelist.trans before.filelist
    · exact furnished.supplied.same (input (fun _ => []) fun _ _ => rfl)

/-- The ACK to the packet before, and the next number. -/
theorem Acked.prepares
    {s t : Sys (Unix σ)}
    (acked : Acked s t)
    (filelist : s.k.filelist = []) :
    Prepares s (onK Kermit.nxtpkt t) where
  sSeq := by
    show (t.k.sSeq + 1) % 64 = _
    rw [acked.sSeq]
  cfg := (acked.input fun _ => []).cfg
  what := acked.what
  filelist := acked.filelist.trans filelist
  log := ⟨[], acked.log, rfl⟩

section Switching

variable {os : Os σ}
variable {s t : Sys (Unix σ)}
variable {types : List UInt8}

/-- The ACK to F: A if attributes were negotiated, else the data. -/
theorem afterFile_proceeds
    (linked : Linked (unixio os))
    (keeps : s.k.cfg.cancel = 0)
    (acked : Acked s t)
    (sent : types = [ch 'F', ch 'S'])
    (filelist : s.k.filelist = [])
    (supplied : Supplied s) :
    ∃ typ, Proceeds s types typ (afterFile (unixio os) t) := by
  have prepares := acked.prepares filelist
  obtain ⟨ready, input⟩ := @Acked.nxtpkt _ (fun _ => []) _ _ acked
  have keepsNow : (onK nxtpkt t).k.cfg.cancel = 0 := input.cfg ▸ keeps
  have suppliedNow := supplied.same input
  unfold afterFile
  dsimp only
  generalize onK nxtpkt t = u at *
  by_cases attributes : u.k.par.capas &&& capAt ≠ 0
  · obtain ⟨fine, ⟨data, one⟩, later⟩ := @sattr_sends _ _ (fun _ => [])
      ⟨linked, fun _ _ => rfl, fun _ _ _ => ⟨rfl, rfl⟩⟩ _ ready
    rw [if_pos attributes, if_neg (not_not.mpr fine)]
    have phase : GetPhase (awaitSent
        (setState .sAttr (sattr (unixio os) u).2)).2 (ch 'A' :: types) := by
      refine .data 0 (.inl rfl) ?_ (one.filelist.trans prepares.filelist)
        (suppliedNow.same (later.trans
          ⟨rfl, rfl, rfl, rfl, rfl, rfl, rfl, rfl, id, rfl⟩))
      show ch 'A' :: types = dataTypes (sattr (unixio os) u).2.k.par 0
      rw [sent, one.par]
      unfold dataTypes
      rw [if_pos attributes]
      rfl
    exact ⟨_, ((one.setState .sAttr).await).proceeds prepares rfl
      (fun isZ => absurd isZ (by decide)) phase⟩
  · rw [if_neg attributes]
    obtain ⟨v, same, ended, data⟩ := firstData_sends linked keepsNow ready
    refine (suppliedNow.same (same.input fun _ => [])).proceeds prepares
      (prepares.win same) 0 ?_ ended data
    rw [sent]
    unfold dataTypes
    rw [if_neg attributes]
    rfl

/-- The ACK to A or D: the next data, or Z. -/
theorem afterData_proceeds
    (linked : Linked (unixio os))
    (keeps : s.k.cfg.cancel = 0)
    (acked : Acked s t)
    (state : s.k.state = .sAttr ∨ s.k.state = .sData)
    (count : Nat)
    (sent : types = dataTypes s.k.par count)
    (filelist : s.k.filelist = [])
    (supplied : Supplied s) :
    ∃ typ, Proceeds s types typ (afterData (unixio os) t) := by
  have prepares := acked.prepares filelist
  have input := acked.input fun _ => []
  obtain ⟨u, entered, ended, data⟩ := afterData_sends linked
    (input.cfg ▸ keeps) acked.ready (acked.state ▸ state)
  have inputNow := input.trans (entered.input fun _ => [])
  refine (supplied.same inputNow).proceeds prepares
    ⟨entered.sSeq.trans prepares.sSeq, inputNow.cfg,
      entered.what.trans acked.what,
      (entered.filelist.trans acked.filelist).trans filelist,
      ⟨[], entered.log.trans acked.log, rfl⟩⟩ count ?_ ended data
  rw [sent]
  exact congrArg (dataTypes · count) input.par.symm

/-- The ACK to Z: B. -/
theorem nextFile_proceeds
    (linked : Linked (unixio os))
    (acked : Acked s t)
    (count : Nat)
    (sent : types = ch 'Z' :: dataTypes s.k.par count)
    (filelist : s.k.filelist = [])
    (seen : .readf none ∈ s.log) :
    ∃ typ, Proceeds s types typ (nextFile (unixio os) t) := by
  have prepares := acked.prepares filelist
  obtain ⟨ready, input⟩ := @Acked.nxtpkt _ (fun _ => []) _ _ acked
  have par := input.par
  have seenNow := input.seen seen
  unfold nextFile
  dsimp only
  generalize onK nxtpkt t = u at *
  rw [prepares.filelist]
  obtain ⟨fine, one, eot⟩ := sendBreak_sends linked ready
  refine ⟨_, one.proceeds prepares fine (fun isZ => absurd isZ (by decide))
    (.eot count eot ?_ (one.seen seenNow))⟩
  rw [sent, one.par, par]

/-- The ACK to S: F. -/
theorem opened_proceeds
    (linked : Linked (unixio os))
    (opens : ∀ w path, (os.fopen w path).1 = true)
    (awaiting : Awaiting s.k)
    (what : s.k.what = .send)
    (state : s.k.state = .sInit)
    (sent : types = [ch 'S'])
    (filelist : s.k.filelist = [.xdatabuf])
    (counted : s.k.enc.sRpt = 0)
    {p : Rcvd}
    {buf : List UInt8}
    (small : s.k.par.sMaxlen ≤ pPktlen)
    (room : 5 ≤ getpktMaxlen (negotiated s.k p buf))
    (kept :
      (afterAck (unixio os) [] p buf s).1 = xOk →
        Roomy (afterAck (unixio os) [] p buf s).2.k) :
    ∃ typ, Proceeds s types typ (afterAck (unixio os) [] p buf s) := by
  obtain ⟨fine, announced, -, data, one⟩ := awaiting.opens linked state
    filelist what counted (sparParams_small s.k.cfg small _ _)
    (Prod.ext (opens _ _) rfl) []
  have roomy := kept fine
  obtain ⟨held, sRpt, -, none⟩ := announced.counted
  have par := announced.par
  have supplied : Supplied (afterAck (unixio os) [] p buf s).2 :=
    { packing :=
        ⟨announced.awaiting.wf.noForce, roomy.small, par ▸ room,
          announced.noString⟩
      counted := ⟨held, sRpt, none (.inl (by omega)) ▸ countable_zero _⟩
      few := roomy.few
      ended := fun ends =>
        absurd (announced.flag.symm.trans ends) (by decide) }
  refine ⟨_, one.proceeds ⟨rfl, rfl, rfl, rfl, [], rfl, rfl⟩ fine
    (fun isZ => absurd isZ (by decide))
    (.file announced.state (congrArg _ sent) announced.filelist supplied)⟩

theorem GetPhase.sender
    (phase : GetPhase s types)
    (what : s.k.what = .send) :
    Sender s := by
  refine ⟨?_, what⟩
  show s.k.state ∈ senderStates
  cases phase with
  | init state | file state | eof _ state | eot _ state =>
      rw [state]
      decide
  | data _ state =>
      rcases state with state | state
      all_goals
        rw [state]
        decide

theorem Sender.set
    (sender : Sender s) :
    s.k.state ≠ .rNone := by
  intro none
  have among : s.k.state ∈ senderStates := sender.1
  rw [none] at among
  exact absurd among (by decide)

/-- The next packet is in the slot, and alone in the map. -/
theorem filed_afterAck
    (filed : Filed s.k)
    (sender : Sender s)
    (p : Rcvd)
    (buf : List UInt8)
    (fine : (afterAck (unixio os) [] p buf s).1 = xOk) :
    Filed (afterAck (unixio os) [] p buf s).2.k := by
  have heard : Filed { s.k with ipktbuf := buf } :=
    filed.aside (.of_ledger rfl)
  have emptied : Emptied (acknowledge 0 { s.k with ipktbuf := buf }) :=
    Filed.acknowledge (s := { s with k.ipktbuf := buf }) (unixio os) heard
  have still : Sender
      { s with
        k := acknowledge 0 { s.k with ipktbuf := buf }
        r.sofar := s.r.sofarRumor } :=
    sender.same (phase_acknowledge 0 { s with k.ipktbuf := buf })
  unfold afterAck at fine ⊢
  cases tracks_sender emptied still [] p with
  | failed error =>
      exact absurd (fine.symm.trans error) (by decide)
  | ended last _ =>
      exact absurd (fine.symm.trans last) (by decide)
  | goesOn tracked =>
      have after := @Sender.stateStage _ (unixio os) _ still [] p
      cases tracked with
      | waits _ waits =>
          exact absurd (waits.what.symm.trans after.2) (by decide)
      | sends filed _ =>
          exact filed
      | lists filed _ =>
          exact filed

/-- An ACK to the outstanding packet: the next packet, or the end after B. -/
theorem afterAck_proceeds
    (linked : Linked (unixio os))
    (opens : ∀ w path, (os.fopen w path).1 = true)
    (awaiting : Awaiting s.k)
    (filed : Filed s.k)
    (what : s.k.what = .send)
    (keeps : s.k.cfg.cancel = 0)
    (phase : GetPhase s types)
    (p : Rcvd)
    (buf : List UInt8)
    (room : s.k.state = .sInit → 5 ≤ getpktMaxlen (negotiated s.k p buf)) :
    (∃ typ, Proceeds s types typ (afterAck (unixio os) [] p buf s) ∧
        Filed (afterAck (unixio os) [] p buf s).2.k) ∨
      (afterAck (unixio os) [] p buf s).1 = xDone ∧
        s.k.state = .sEot ∧
        (afterAck (unixio os) [] p buf s).2.k.par = s.k.par ∧
        (afterAck (unixio os) [] p buf s).2.log = s.log := by
  have sender := phase.sender what
  obtain ⟨t, acked, route⟩ : ∃ t, Acked s t ∧
      afterAck (unixio os) [] p buf s = stateStage (unixio os) [] p t :=
    ⟨_, acked_of_awaiting awaiting buf s.r.sofarRumor, rfl⟩
  suffices (∃ typ, Proceeds s types typ (afterAck (unixio os) [] p buf s)) ∨
      (afterAck (unixio os) [] p buf s).1 = xDone ∧
        s.k.state = .sEot ∧
        (afterAck (unixio os) [] p buf s).2.k.par = s.k.par ∧
        (afterAck (unixio os) [] p buf s).2.log = s.log from
    this.imp_left fun ⟨typ, proceeds⟩ =>
      ⟨typ, proceeds, filed_afterAck filed sender p buf proceeds.fine⟩
  cases phase with
  | init state sent filelist counted =>
      exact .inl (opened_proceeds linked opens awaiting what state sent
        filelist counted filed.steady.roomy.small (room state) fun fine =>
          (filed_afterAck filed sender p buf fine).steady.roomy)
  | file state sent filelist supplied =>
      rw [route]
      unfold stateStage
      rw [acked.state, state]
      exact .inl
        (afterFile_proceeds linked keeps acked sent filelist supplied)
  | data count state sent filelist supplied =>
      have next := afterData_proceeds linked keeps acked state count sent
        filelist supplied
      rw [route]
      unfold stateStage
      rw [acked.state]
      rcases state with attr | data
      · rw [attr]
        exact .inl next
      · rw [data]
        exact .inl next
  | eof count state sent filelist seen =>
      have free : ¬ nusedSslots t.k > 0 := by
        have none := acked.ready.free
        simp [nusedSslots, slots_one acked.ready.wf.window]
        omega
      rw [route]
      unfold stateStage
      rw [acked.state, state]
      dsimp only
      rw [if_neg free]
      exact .inl (nextFile_proceeds linked acked count sent filelist seen)
  | eot count state sent seen =>
      obtain ⟨par, log⟩ : (reportFile .get t).k.par = s.k.par ∧
          (reportFile .get t).log = s.log := by
        unfold reportFile
        split
        · exact ⟨(acked.input fun _ => []).par, acked.log⟩
        · exact ⟨(acked.input fun _ => []).par, acked.log⟩
      rw [route]
      unfold stateStage
      rw [acked.state, state]
      exact .inr ⟨rfl, rfl, par, log⟩

end Switching

/-! ## Whatever acknowledges nothing -/

/-- Nothing happens but that the packet in the slot may be sent again. -/
structure Stays
    (os : Os σ)
    (s : Sys (Unix σ))
    (len : Int)
    (result : Int × Sys (Unix σ)) : Prop where
  same : Undisturbed s result.2
  sent :
    Silent s result.2 ∨
      Transmitted (unixio os) (slotPacket (s.k.win.opktinfo 0)) s result.2
  done : result.1 = xDone → 4 ≤ len ∧ parse s.k len = .shortcut

section Staying

variable {os : Os σ}
variable {s t : Sys (Unix σ)}

theorem Undisturbed.awaiting
    (same : Undisturbed s t)
    (wf : Wf t.k)
    (awaiting : Awaiting s.k) :
    Awaiting t.k := by
  obtain ⟨-, ⟨number, lower, mapped, nonempty, fits⟩, upper⟩ := awaiting
  obtain ⟨rtr, slot⟩ := same.opktinfo 0
  refine ⟨wf, ⟨?_, ?_, ?_, ?_, ?_⟩, ?_⟩
  · rw [slot, same.sSeq]
    exact number
  · rw [same.sSeq]
    exact lower
  · rw [same.sPw, same.sSeq]
    exact mapped
  · rw [slot]
    exact nonempty
  · rw [slot]
    exact fits
  · rw [same.sSeq]
    exact upper

/-- Only the log differs for the encoder. -/
theorem Undisturbed.input
    (same : Undisturbed s t)
    (log : s.log <:+ t.log) :
    SameInput (fun _ => []) s t := by
  have enc := same.enc
  refine ⟨same.cfg, same.par, same.zin, ?_, ?_, ?_, ?_, ?_,
    fun seen => log.subset seen, rfl⟩
  all_goals rw [enc]

/-- While files are sent, ACKs and NAKs are handled by `sendStage()`. -/
theorem packetStage_sending
    {io : Io (Unix σ)}
    {p : Rcvd}
    (what : s.k.what = .send)
    (kind : p.rtyp = ch 'N' ∨ p.rtyp = ch 'Y') :
    packetStage io p s = sendStage io p s := by
  unfold packetStage
  rw [if_neg fun both => absurd (what.symm.trans both.2) (by decide),
    if_pos what]
  rcases kind with kind | kind
  all_goals
    rw [kind, if_neg fun both => absurd both.1 (by decide),
      if_neg (by decide), if_neg (by decide), if_neg (by decide)]

/-- A timeout, a frame that fails a check, a NAK or an ACK to another packet. -/
theorem kermit_stays
    (filed : Filed s.k)
    (set : s.k.state ≠ .rNone)
    (received : s.k.doRxd = true)
    (what : s.k.what = .send)
    {len : Int}
    (quiet :
      ∀ p buf, 4 ≤ len → parse s.k len = .good p buf →
        p.rtyp = ch 'N' ∨ p.rtyp = ch 'Y' ∧ s.k.win.sPw p.rseq = -1) :
    Stays os s len (kermit (unixio os) .run len [] s) := by
  have wf := filed.steady.wf
  have forced : forceBcta3 s.k = s.k := by
    simp [forceBcta3, wf.noForce]
  have full : nusedSslots s.k = 1 :=
    nusedSslots_full wf.window (by
      have full := filed.full
      omega)
  have again : ∀ buf seq,
      Stays os s len
        (resend (unixio os) seq { s with k.ipktbuf := buf }) := by
    intro buf seq
    obtain ⟨same, sent⟩ := resend_stored wf (unixio os) buf seq
    exact ⟨same, sent, fun done => absurd done (resend_rc _ _)⟩
  have sender : ∀ buf,
      resendUnlessRecv (unixio os) { s with k.ipktbuf := buf } =
        resend (unixio os) (-1) { s with k.ipktbuf := buf } := by
    intro buf
    unfold resendUnlessRecv
    exact if_neg (by rw [what]; decide)
  have fine : ∀ {result : Int × Sys (Unix σ)}, Stays os s len result →
      Stays os s len (xOk, result.2) :=
    fun stays => ⟨stays.same, stays.sent, fun done =>
      absurd (show xOk = xDone from done) (by decide)⟩
  have silent : ∀ buf, Stays os s len (xOk, { s with k.ipktbuf := buf }) := by
    intro buf
    refine ⟨⟨rfl, rfl, rfl, rfl, rfl, rfl, rfl, rfl, rfl, rfl, rfl, rfl, rfl,
      fun _ => ⟨_, rfl⟩, rfl, rfl, rfl⟩, .inl ⟨rfl, rfl⟩, fun done => ?_⟩
    exact absurd (show xOk = xDone from done) (by decide)
  unfold kermit
  rw [wf.testRslots (unixio os)]
  dsimp only
  unfold kermitRun
  rw [if_neg set, if_pos received]
  unfold rxStage
  by_cases few : len < 4
  · rw [if_pos few, if_neg (by rw [what]; decide)]
    exact again s.k.ipktbuf (-1)
  rw [if_neg few]
  cases parsed : parse s.k len with
  | shortcut =>
      exact ⟨.refl s, .inl ⟨rfl, rfl⟩, fun _ => ⟨Int.not_lt.mp few, parsed⟩⟩
  | tossed =>
      exact silent s.k.ipktbuf
  | badHeader buf =>
      dsimp only
      rw [sender]
      exact again buf (-1)
  | badLength =>
      dsimp only
      rw [forced]
      exact fine (sender s.k.ipktbuf ▸ again s.k.ipktbuf (-1))
  | badCheck buf =>
      dsimp only
      rw [forced, sender]
      exact fine (again buf (-1))
  | good p buf =>
      have event := quiet p buf (Int.not_lt.mp few) parsed
      dsimp only
      rw [forced, packetStage_sending (s := { s with k.ipktbuf := buf }) what
        (event.imp_right And.left)]
      unfold sendStage
      rcases event with isNak | ⟨isAck, notMapped⟩
      · have used : nusedSslots { s.k with ipktbuf := buf } = 1 := full
        rw [isNak, if_pos (by decide), used]
        exact again buf p.rseq
      · rw [isAck, if_neg (by decide)]
        dsimp only
        rw [notMapped]
        exact silent buf

end Staying

/-! ## What every turn keeps -/

/-- The server in a GET, between two turns. -/
structure InTransfer
    (s : Sys (Unix σ))
    (packets : List (List UInt8)) : Prop where
  filed : Filed s.k
  awaiting : Awaiting s.k
  what : s.k.what = .send
  keeps : s.k.cfg.cancel = 0
  held : ∃ earlier, packets = slotPacket (s.k.win.opktinfo 0) :: earlier
  number : frameSeq (slotPacket (s.k.win.opktinfo 0)) = s.k.sSeq
  phase : GetPhase s (packets.map frameType)

/-- What is true of a GET after every turn. -/
structure GetInv
    (n : Get σ)
    (packets : List (List UInt8)) : Prop where
  waits : StopsAndWaits n packets
  inTransfer : n.rc ≠ xDone → InTransfer n.sys packets

/-- The turn keeps the invariant, and it ends the GET only as it may. -/
structure GetContinues
    (os : Os σ)
    (rx : Rx)
    (n : Get σ)
    (packets : List (List UInt8)) : Prop where
  next : ∃ later, GetInv (getTurn os rx n) later
  ends : (getTurn os rx n).rc = xDone → EndsGet rx n packets

theorem InTransfer.heard
    {s : Sys (Unix σ)}
    {packets : List (List UInt8)}
    (transfer : InTransfer s packets)
    (rx : Rx) :
    InTransfer (heardSys rx s) packets where
  filed := transfer.filed.aside (.of_ledger rfl)
  awaiting := transfer.awaiting.heard rx
  what := transfer.what
  keeps := transfer.keeps
  held := transfer.held
  number := transfer.number
  phase := transfer.phase.same rfl rfl
    ⟨rfl, rfl, rfl, rfl, rfl, rfl, rfl, rfl, id, rfl⟩

section Turning

variable {os : Os σ}
variable {n : Get σ}
variable {packets : List (List UInt8)}
variable {rx : Rx}

/-- The packet that is sent next, and what the server then waits for. -/
theorem InTransfer.proceeds
    {s : Sys (Unix σ)}
    (transfer : InTransfer s packets)
    {typ : UInt8}
    {result : Int × Sys (Unix σ)}
    (proceeds : Proceeds s (packets.map frameType) typ result)
    (filed : Filed result.2.k) :
    InTransfer result.2
      (slotPacket (result.2.k.win.opktinfo 0) :: packets) := by
  obtain ⟨par, data, held⟩ := proceeds.held
  have awaiting := proceeds.awaiting
  refine ⟨filed, awaiting, proceeds.what.trans transfer.what,
    proceeds.cfg ▸ transfer.keeps, ⟨_, rfl⟩, ?_, ?_⟩
  · rw [held]
    exact frameSeq_pktFrame _ _ awaiting.outstanding.lower awaiting.upper _
  · rw [List.map_cons, held, frameType_pktFrame]
    exact proceeds.phase

/-- The turn in which the outstanding packet is acknowledged. -/
theorem GetInv.acked
    (linked : Linked (unixio os))
    (opens : ∀ w path, (os.fopen w path).1 = true)
    (inv : GetInv n packets)
    (transfer : InTransfer n.sys packets)
    {p : Rcvd}
    {buf : List UInt8}
    (ack : ValidAck n.sys.k.sSeq (heardSys rx n.sys).k rx.ret p buf)
    (goesOn : ¬ CancelsSend p buf)
    (room :
      n.sys.k.state = .sInit →
        5 ≤ getpktMaxlen (negotiated (heardSys rx n.sys).k p buf)) :
    GetContinues os rx n packets := by
  obtain ⟨waits, types, toEnd⟩ := inv.waits
  have heard := transfer.heard rx
  have sender := heard.phase.sender heard.what
  have called := kermit_ack (unixio os) heard.awaiting heard.what heard.keeps
    sender.set (doRxd_awaiting transfer.awaiting) ack (fun _ => goesOn) []
  obtain ⟨earlier, rfl⟩ := transfer.held
  have acked : ackedSeq rx n.sys =
      some (frameSeq (slotPacket (n.sys.k.win.opktinfo 0))) := by
    unfold ackedSeq
    rw [if_neg (Int.not_lt.mpr ack.long), ack.good]
    dsimp only
    rw [if_pos ack.rtyp, ack.rseq, transfer.number]
  have turn : getTurn os rx n =
      { sys := (afterAck (unixio os) [] p buf (heardSys rx n.sys)).2
        rc := (afterAck (unixio os) [] p buf (heardSys rx n.sys)).1
        turns :=
          { acked := some (frameSeq (slotPacket (n.sys.k.win.opktinfo 0)))
            sent := newTxds (heardSys rx n.sys).log
              (afterAck (unixio os) [] p buf (heardSys rx n.sys)).2.log } ::
            n.turns } := by
    unfold getTurn
    dsimp only
    rw [called, acked]
  rcases afterAck_proceeds linked opens heard.awaiting heard.filed heard.what
      heard.keeps heard.phase p buf room with
    ⟨typ, proceeds, filed⟩ | ⟨done, eot, par, same⟩
  · generalize afterAck (unixio os) [] p buf (heardSys rx n.sys) = result at *
    have now := heard.proceeds proceeds filed
    obtain ⟨more, calls, log, frames, quiet, seen⟩ := proceeds.log
    have sent : newTxds (heardSys rx n.sys).log result.2.log =
        [slotPacket (result.2.k.win.opktinfo 0)] := by
      rw [log, ← List.append_assoc, newTxds_append, txds_append, frames, quiet]
      rfl
    rw [sent] at turn
    have follows : frameSeq (slotPacket (result.2.k.win.opktinfo 0)) =
        (frameSeq (slotPacket (n.sys.k.win.opktinfo 0)) + 1) % 64 := by
      rw [now.number, transfer.number]
      exact proceeds.sSeq
    constructor
    · rw [turn]
      refine ⟨_, ⟨waits.next follows, now.phase.types, ?_⟩, fun _ => now⟩
      obtain ⟨par, data, held⟩ := proceeds.held
      show SendsEofAtEnd result.2.log
      rw [log]
      have before : SendsEofAtEnd (calls ++ (heardSys rx n.sys).log) :=
        toEnd.append fun frame member => by
          rw [quiet] at member
          exact absurd member List.not_mem_nil
      refine before.append fun frame member isZ => seen ?_
      rw [frames, List.mem_singleton] at member
      rw [← isZ, member, held, frameType_pktFrame]
    · rw [turn]
      exact fun done => absurd (proceeds.fine.symm.trans done) (by decide)
  · generalize afterAck (unixio os) [] p buf (heardSys rx n.sys) = result at *
    have sent : newTxds (heardSys rx n.sys).log result.2.log = [] := by
      rw [same]
      exact newTxds_append _ []
    rw [sent] at turn
    constructor
    · rw [turn]
      refine ⟨_, ⟨waits.quiet _, ?_, ?_⟩, fun going => absurd done going⟩
      · show ∃ count, _ <+: getTypes result.2.k.par count
        rw [par]
        exact types
      · show SendsEofAtEnd result.2.log
        rw [same]
        exact toEnd
    · intro _
      obtain ⟨types, last⟩ := heard.phase.last eot
      exact .acked rfl (List.cons.inj last).1 acked

/-- The same packet is waited for. -/
theorem InTransfer.stays
    {s t : Sys (Unix σ)}
    (transfer : InTransfer s packets)
    (same : Undisturbed s t)
    (wf : Wf t.k)
    (log : s.log <:+ t.log) :
    InTransfer t packets := by
  obtain ⟨rtr, slot⟩ := same.opktinfo 0
  have held : slotPacket (t.k.win.opktinfo 0) =
      slotPacket (s.k.win.opktinfo 0) := by
    rw [slot]
    rfl
  refine ⟨transfer.filed.aside (same.aside wf),
    same.awaiting wf transfer.awaiting, same.what.trans transfer.what,
    same.cfg ▸ transfer.keeps, ?_, ?_,
    transfer.phase.same same.state same.filelist (same.input log)⟩
  · rw [held]
    exact transfer.held
  · rw [held, same.sSeq]
    exact transfer.number

/-- A turn in which the outstanding packet is not acknowledged. -/
theorem GetInv.stays
    (inv : GetInv n packets)
    (transfer : InTransfer n.sys packets)
    (stays :
      Stays os (heardSys rx n.sys) rx.ret
        (kermit (unixio os) .run rx.ret [] (heardSys rx n.sys))) :
    GetContinues os rx n packets := by
  obtain ⟨waits, -, toEnd⟩ := inv.waits
  have heard := transfer.heard rx
  have wf := @Wf.kermit _ (unixio os) _ heard.filed.steady.wf .run rx.ret []
  obtain ⟨same, sent, done⟩ := stays
  obtain ⟨earlier, held⟩ := heard.held
  refine ⟨⟨packets, ?_⟩, fun ended => ?_⟩
  · unfold getTurn
    dsimp only
    generalize kermit (unixio os) .run rx.ret [] (heardSys rx n.sys) =
      result at *
    rcases sent with ⟨log, -⟩ | ⟨log, -⟩
    · have now := heard.stays same wf (log ▸ List.suffix_rfl)
      have nothing : newTxds (heardSys rx n.sys).log result.2.log = [] := by
        rw [log]
        exact newTxds_append _ []
      refine ⟨⟨?_, now.phase.types, ?_⟩, fun _ => now⟩
      · rw [nothing]
        exact waits.quiet _
      · rw [log]
        exact toEnd
    · have now := heard.stays same wf (log ▸ List.suffix_cons _ _)
      have again : newTxds (heardSys rx n.sys).log result.2.log =
          [slotPacket ((heardSys rx n.sys).k.win.opktinfo 0)] := by
        rw [log]
        exact newTxds_append _ [.txd _ _]
      refine ⟨⟨?_, now.phase.types, ?_⟩, fun _ => now⟩
      · rw [again]
        rw [held] at waits ⊢
        exact waits.again _
      · rw [log]
        refine @SendsEofAtEnd.append _ toEnd [.txd _ _] fun frame member isZ =>
          heard.phase.seen ?_
        rw [held, List.map_cons, List.head?_cons, ← isZ,
          List.mem_singleton.mp member]
  · obtain ⟨-, shortcut⟩ := done ended
    obtain ⟨eot, four, zero, nak, check⟩ := parse_shortcut shortcut
    exact .nakked eot four zero nak check

/-- Whatever happens in a GET, the turn keeps the invariant. -/
theorem GetInv.turn
    (linked : Linked (unixio os))
    (opens : ∀ w path, (os.fopen w path).1 = true)
    (inv : GetInv n packets)
    (going : n.rc ≠ xDone)
    (event : GetEvent rx n.sys) :
    GetContinues os rx n packets := by
  have transfer := inv.inTransfer going
  by_cases acked : ∃ p buf,
      ValidAck n.sys.k.sSeq (heardSys rx n.sys).k rx.ret p buf
  · obtain ⟨p, buf, ack⟩ := acked
    refine inv.acked linked opens transfer ack ?_
      fun initial => event.room p buf initial ack
    rcases event.kinds p buf ack.long ack.good with isNak | ⟨-, goesOn⟩
    · rw [ack.rtyp] at isNak
      exact absurd isNak (by decide)
    · exact goesOn
  · have heard := transfer.heard rx
    refine inv.stays transfer (kermit_stays heard.filed
      (heard.phase.sender heard.what).set (doRxd_awaiting transfer.awaiting)
      heard.what fun p buf long good => ?_)
    refine (event.kinds p buf long good).imp_right fun isAck => ⟨isAck.1, ?_⟩
    have number := heard.awaiting.outstanding.number
    rw [heard.filed.mapped, number]
    exact if_neg fun same => acked ⟨p, buf, long, good, isAck.1, same⟩

end Turning

/-! ## Runs of a GET -/

section Runs

variable {os : Os σ}

/-- Of the configuration, only the prefix of the control characters changes. -/
theorem kermit_cfg
    {io : Io (Unix σ)}
    {s : Sys (Unix σ)}
    (wf : Wf s.k)
    (fc : Fc)
    (len : Int)
    (msg : List UInt8) :
    ∃ sCtlq,
      (kermit io fc len msg s).2.k.cfg = { s.k.cfg with sCtlq := sCtlq } := by
  have asked : ∀ {k : KData}, Asked io s k → k.cfg = s.k.cfg := by
    rintro k ⟨t, sent, unchanged | ⟨_, _, _, -, changed⟩⟩
    · rw [unchanged]
      exact sent.control.cfg
    · rw [changed]
      exact sent.control.cfg
  have told : Works io s (epkt io msg s) := works_epkt msg s
  unfold kermit
  rw [wf.testRslots io]
  cases fc with
  | dir =>
      exact ⟨_, asked (asked_kermitDir s)⟩
  | get =>
      exact ⟨_, asked (asked_kermitGet s)⟩
  | send =>
      exact ⟨_, asked (asked_kermitSend s)⟩
  | sync | error =>
      exact ⟨_, told.control.cfg⟩
  | run =>
      exact ⟨_, (ran_kermitRun len msg s).cfg⟩
  | init | reinit | status | quit | other =>
      exact ⟨_, rfl⟩

/-- The configuration of a server. -/
theorem reachable_cfg
    {io : Io (Unix σ)}
    {s : Sys (Unix σ)}
    (reachable : Reachable io s) :
    s.k.cfg.cancel = 0 ∧ s.k.cfg.pMaxlen = pPktlen := by
  induction reachable with
  | start =>
      exact ⟨rfl, rfl⟩
  | call fc len msg before inductionHypothesis =>
      obtain ⟨sCtlq, same⟩ :=
        @kermit_cfg _ io _ (reachable_wf before) fc len msg
      rw [same]
      exact inductionHypothesis
  | receive | ready | request =>
      assumption

/-- `K_REINIT` frees the slot and empties the map. -/
theorem emptied_reinitData
    {k : KData}
    (wf : Wf k)
    (longest : k.cfg.pMaxlen ≤ pPktlen) :
    Emptied (reinitData k) :=
  ⟨⟨Wf.reinitData wf.noForce wf.oneSlot wf.noWindowing,
    ⟨Int.le_refl 0, show (0 : Int) ≤ 63 by decide⟩, ⟨longest, Nat.zero_le 6⟩⟩,
    show (0 : Int) < 1 by decide, fun _ => rfl⟩

/-- S, and a server that waits for the ACK to it. -/
theorem InTransfer.first
    {s : Sys (Unix σ)}
    (emptied : Emptied s.k)
    (zero : s.k.sSeq = 0)
    (keeps : s.k.cfg.cancel = 0)
    (filelist : s.k.filelist = [.xdatabuf])
    (counted : s.k.enc.sRpt = 0) :
    ∃ par d rc,
      (restarted (rpar (unixio os) (ch 'S') s).2).log =
          .txd (pktFrame par (ch 'S') 0 d) rc :: s.log ∧
        InTransfer (restarted (rpar (unixio os) (ch 'S') s).2)
          [pktFrame par (ch 'S') 0 d] := by
  have ready : Ready s.k :=
    ⟨emptied.steady.wf, emptied.free, emptied.steady.numbered.1,
      emptied.steady.numbered.2⟩
  have filed := @rpar_files _ (unixio os) _ emptied zero
  obtain ⟨par, d, awaiting, held, ⟨win, ebq, data⟩, rc, log⟩ :=
    rpar_answers (unixio os) ready zero
  generalize (rpar (unixio os) (ch 'S') s).2 = t at *
  have listed : (restarted t).k.filelist = [.xdatabuf] := by
    show t.k.filelist = _
    rw [data]
    exact filelist
  have sRpt : (restarted t).k.enc.sRpt = 0 := by
    show t.k.enc.sRpt = 0
    rw [data]
    exact counted
  have slot : slotPacket ((restarted t).k.win.opktinfo 0) =
      pktFrame par (ch 'S') 0 d := held
  refine ⟨par, d, rc, log, filed.aside (.of_ledger rfl), awaiting.restarted,
    rfl, ?_, ⟨[], by rw [slot]⟩, ?_, ?_⟩
  · show t.k.cfg.cancel = 0
    rw [data]
    exact keeps
  · rw [slot, frameSeq_pktFrame _ _ (Int.le_refl 0) (by decide)]
    show 0 = t.k.sSeq
    rw [data]
    exact zero.symm
  · rw [List.map_singleton, frameType_pktFrame]
    exact .init rfl rfl listed sRpt

/-- The turn in which the R packet is accepted. -/
theorem GetInv.first
    {s : Sys (Unix σ)}
    (before : Reachable (unixio os) s)
    (msg : List UInt8)
    {rx : Rx}
    {p : Rcvd}
    {buf : List UInt8}
    (request :
      ValidRequest (heardSys rx (reinitialised os msg s).sys).k rx.ret p buf)
    (fine : (getTurn os rx (reinitialised os msg s)).rc = xOk) :
    ∃ packets, GetInv (getTurn os rx (reinitialised os msg s)) packets := by
  have wf := reachable_wf before
  obtain ⟨keeps, longest⟩ := reachable_cfg before
  have data : (reinitialised os msg s).sys.k = reinitData s.k := by
    unfold reinitialised kermit
    rw [wf.testRslots (unixio os)]
  have emptied : Emptied (heardSys rx (reinitialised os msg s).sys).k := by
    have emptied := emptied_reinitData wf (Nat.le_of_eq longest)
    rw [← data] at emptied
    exact emptied.aside (.of_ledger rfl)
  have waits : (heardSys rx (reinitialised os msg s).sys).k.state = .rWait := by
    show (reinitialised os msg s).sys.k.state = .rWait
    rw [data]
    rfl
  have received :
      (heardSys rx (reinitialised os msg s).sys).k.doRxd = true := by
    show (ok2rxd (reinitialised os msg s).sys.k).doRxd = true
    rw [data]
    simp [ok2rxd, reinitData]
  have called : kermit (unixio os) .run rx.ret []
      (heardSys rx (reinitialised os msg s).sys) = _ :=
    kermit_request emptied.steady.wf (by rw [waits]; decide) received request
      []
  obtain ⟨par, d, rc, log, transfer⟩ := @InTransfer.first _ os
    (accessed (unixio os) p buf (heardSys rx (reinitialised os msg s).sys))
    (emptied.aside (aside_accessed _ _ _ _)) (congrArg KData.sSeq data)
    (congrArg (fun k => k.cfg.cancel) data |>.trans keeps) rfl
    (congrArg (fun k => k.enc.sRpt) data)
  rcases rPacket_cases (unixio os) p buf
      (heardSys rx (reinitialised os msg s).sys) with
    ⟨failed, -⟩ | ⟨-, -, shape⟩
  · exact absurd ((congrArg Prod.fst called).symm.trans fine)
      (by rw [failed]; decide)
  · rw [shape] at called
    have once : newTxds (heardSys rx (reinitialised os msg s).sys).log
        (restarted (rpar (unixio os) (ch 'S') (accessed (unixio os) p buf
          (heardSys rx (reinitialised os msg s).sys))).2).log =
          [pktFrame par (ch 'S') 0 d] := by
      rw [log]
      exact newTxds_append [] [.txd _ _, .accessf _ _]
    unfold getTurn
    dsimp only
    rw [called, once]
    refine ⟨_, ⟨?_, transfer.phase.types, ?_⟩, fun _ => transfer⟩
    · exact .first _ (frameSeq_pktFrame _ _ (Int.le_refl 0) (by decide) _)
    · show SendsEofAtEnd (restarted _).log
      rw [log]
      have nothing : SendsEofAtEnd [] :=
        fun later _ _ _ split => absurd split (by simp)
      refine @SendsEofAtEnd.append _ nothing [.txd _ _, .accessf _ _]
        fun frame member isZ => ?_
      rw [List.mem_singleton.mp member, frameType_pktFrame] at isZ
      exact absurd isZ (by decide)

theorem GetRun.inv
    (linked : Linked (unixio os))
    (opens : ∀ w path, (os.fopen w path).1 = true)
    {n : Get σ}
    (run : GetRun os n) :
    ∃ packets, GetInv n packets := by
  induction run with
  | accepted before msg request fine =>
      exact GetInv.first before msg request fine
  | turn _ going event inductionHypothesis =>
      obtain ⟨packets, inv⟩ := inductionHypothesis
      exact (inv.turn linked opens going event).next

end Runs

/--
A server that has accepted an R packet stops and waits, for every file and
whatever happens: it sends the packets of a GET in their order and under the
numbers from 0 on, each when the packet before is acknowledged, Z at the end of
the file; between them it sends the last packet again; and it ends with the ACK
to B or, in `S_EOT`, with a NAK of 0.
-/
theorem get_stop_and_wait
    {os : Os σ}
    (linked : Linked (unixio os))
    (opens : ∀ w path, (os.fopen w path).1 = true)
    {n : Get σ}
    (run : GetRun os n) :
    ∃ packets,
      StopsAndWaits n packets ∧
        (∀ later frame earlier, packets = later ++ frame :: earlier →
          frameSeq frame = earlier.length % 64) ∧
        ∀ rx, n.rc ≠ xDone → GetEvent rx n.sys →
          (getTurn os rx n).rc = xDone → EndsGet rx n packets := by
  obtain ⟨packets, inv⟩ := run.inv linked opens
  refine ⟨packets, inv.waits, fun _ _ _ place => inv.waits.run.numbered place,
    fun rx going event done => ?_⟩
  exact (inv.turn linked opens going event).ends done

/-! ## A run with losses -/

/-- The server answers a request for the file `A`. -/
def answeredGet : Get (List UInt8) :=
  getTurn fileOs (packetOf (ch 'R') 0 (lit "f"))
    (reinitialised fileOs [] (idleServer fileOs (lit "A")))

/-- Nothing is received in time. -/
def waitedGet
    (n : Get (List UInt8)) : Get (List UInt8) :=
  getTurn fileOs { ret := 0, stored := [] } n

/-- An ACK without data is received. -/
def ackedGet
    (seq : Int)
    (n : Get (List UInt8)) : Get (List UInt8) :=
  getTurn fileOs (packetOf (ch 'Y') seq []) n

theorem answeredGet_run :
    GetRun fileOs answeredGet := by
  have request : ValidRequest
      (heardSys (packetOf (ch 'R') 0 (lit "f"))
        (reinitialised fileOs [] (idleServer fileOs (lit "A"))).sys).k
      (packetOf (ch 'R') 0 (lit "f")).ret requestRcvd
      (poke
        (heardSys (packetOf (ch 'R') 0 (lit "f"))
          (reinitialised fileOs [] (idleServer fileOs (lit "A"))).sys).k.ipktbuf
        4 [0]) :=
    ⟨by decide, by decide, rfl⟩
  exact .accepted (idleServer_reachable fileOs (lit "A")) [] request (by decide)

theorem GetRun.waited
    {n : Get (List UInt8)}
    (run : GetRun fileOs n)
    (going : n.rc ≠ xDone) :
    GetRun fileOs (waitedGet n) := by
  refine run.turn going ⟨Int.le_refl 0, ?_, ?_⟩
  · exact fun _ _ long => absurd (show (4 : Int) ≤ 0 from long) (by decide)
  · exact fun _ _ _ ack => absurd (show (4 : Int) ≤ 0 from ack.long) (by decide)

/-- The session when the ACK is parsed. -/
def ackedSys
    (seq : Int)
    (n : Get (List UInt8)) : Sys (Unix (List UInt8)) :=
  heardSys (packetOf (ch 'Y') seq []) n.sys

theorem GetRun.acked
    {n : Get (List UInt8)}
    (run : GetRun fileOs n)
    (going : n.rc ≠ xDone)
    (seq : Int)
    (good :
      parse (ackedSys seq n).k 4 =
        .good { ackRcvd with rseq := seq }
          (poke (ackedSys seq n).k.ipktbuf 3 [0]))
    (quiet :
      ¬ CancelsSend { ackRcvd with rseq := seq }
        (poke (ackedSys seq n).k.ipktbuf 3 [0]))
    (room :
      n.sys.k.state = .sInit →
        5 ≤ getpktMaxlen
          (negotiated (ackedSys seq n).k { ackRcvd with rseq := seq }
            (poke (ackedSys seq n).k.ipktbuf 3 [0]))) :
    GetRun fileOs (ackedGet seq n) := by
  have parsed : ∀ {p buf},
      parse (ackedSys seq n).k (packetOf (ch 'Y') seq []).ret = .good p buf →
        { ackRcvd with rseq := seq } = p ∧
          poke (ackedSys seq n).k.ipktbuf 3 [0] = buf :=
    fun same => Parsed.good.inj (good.symm.trans same)
  refine run.turn going ⟨show (0 : Int) ≤ 4 by decide,
    fun p buf _ same => ?_, fun p buf initial ack => ?_⟩
  · obtain ⟨rfl, rfl⟩ := parsed same
    exact .inr ⟨rfl, quiet⟩
  · obtain ⟨rfl, rfl⟩ := parsed ack.good
    exact room initial

instance
    (p : Rcvd)
    (buf : List UInt8) :
    Decidable (CancelsSend p buf) :=
  inferInstanceAs (Decidable (_ ∨ _))

/--
S is sent twice and acknowledged twice, F and Z are sent twice, and B is
outstanding in the end.
-/
def lossyGet : Get (List UInt8) :=
  ackedGet 4 (waitedGet (ackedGet 3 (ackedGet 2 (ackedGet 1
    (waitedGet (ackedGet 0 (ackedGet 0 (waitedGet answeredGet))))))))

theorem lossyGet_run :
    GetRun fileOs lossyGet := by
  refine .acked (.waited (.acked (.acked (.acked (.waited (.acked (.acked
    (.waited answeredGet_run ?_) ?_ 0 ?_ ?_ ?_) ?_ 0 ?_ ?_ ?_) ?_) ?_ 1 ?_ ?_
    ?_) ?_ 2 ?_ ?_ ?_) ?_ 3 ?_ ?_ ?_) ?_) ?_ 4 ?_ ?_ ?_
  all_goals decide +kernel

theorem get_stop_and_wait_lossy :
    ∃ packets,
      StopsAndWaits lossyGet packets ∧
        (∀ later frame earlier, packets = later ++ frame :: earlier →
          frameSeq frame = earlier.length % 64) ∧
        ∀ rx, lossyGet.rc ≠ xDone → GetEvent rx lossyGet.sys →
          (getTurn fileOs rx lossyGet).rc = xDone →
          EndsGet rx lossyGet packets :=
  get_stop_and_wait (fun _ _ => rfl) (fun _ _ => rfl) lossyGet_run

end Slate106.Kermit
