import Slate106.KermitFiles
import Slate106.KermitKinds

namespace Slate106.Kermit

open CBytes

/-!
# Packet by packet through a GET

The server has one send slot.  An ACK to the packet in it frees the slot, and
the state switcher fills it with the next packet.
-/

variable {ω : Type}
variable {toEnd : Prop}

/-! ## The send slot -/

/-- The send slot can be filled. -/
structure Ready
    (k : KData) : Prop where
  wf : Wf k
  free : (k.win.opktinfo 0).len < 1
  lower : 0 ≤ k.sSeq
  upper : k.sSeq ≤ 63

/-- The send slot holds the packet numbered `s_seq`. -/
structure Awaiting
    (k : KData) : Prop where
  wf : Wf k
  outstanding : Outstanding k.sSeq k
  upper : k.sSeq ≤ 63

/-- Taking the slot leaves it to be filled. -/
theorem Ready.takeSslot
    {k : KData}
    (ready : Ready k) :
    (getSslot k).1 = 0 ∧
      ∃ win,
        (takeSslot k).2 = { k with win := win } ∧
          Ready { k with win := win } ∧
          (win.opktinfo 0).rtr = 0 ∧ win.sPw k.sSeq = 0 := by
  have slot := getSslot_free ready.wf.window ready.free
  have taken : Wf (Kermit.takeSslot k).2 := by
    have got := ready.wf.getSslot
    refine got.mapSseq (getSslot_ge k) ?_
    rw [getSslot_shape]
    exact getSslot_lt k
  unfold Kermit.takeSslot at taken ⊢
  rw [slot] at taken ⊢
  refine ⟨rfl, _, rfl, ⟨taken, ?_, ready.lower, ready.upper⟩, ?_, ?_⟩
  · simp
  · simp
  · simp

/-- Getting the slot without mapping it leaves it to be filled, too. -/
theorem Ready.getSslot
    {k : KData}
    (ready : Ready k) :
    ∃ win,
      (getSslot k).2 = { k with win := win } ∧
        Ready { k with win := win } := by
  have got := ready.wf.getSslot
  have slot := getSslot_free ready.wf.window ready.free
  rw [slot] at got ⊢
  refine ⟨_, rfl, got, ?_, ready.lower, ready.upper⟩
  simp

/-- A packet that fits is transmitted and outstanding. -/
theorem spkt_ready
    (io : Io ω)
    {typ : UInt8}
    {len : Int}
    {text : Option (List UInt8)}
    {s : Sys ω}
    (kind : isUnslotted typ = false)
    (ready : Ready s.k)
    (fits :
      (pktFrame s.k.par typ s.k.sSeq (spktData len text)).length <
        pBuflen) :
    ∃ win,
      spkt io typ s.k.sSeq len text s =
        callTxd io (pktFrame s.k.par typ s.k.sSeq (spktData len text))
          { s with k.win := win } ∧
      Awaiting { s.k with win := win } ∧
      slotPacket (win.opktinfo 0) =
        pktFrame s.k.par typ s.k.sSeq (spktData len text) ∧
      (win.opktinfo 0).rtr = 0 := by
  have forced : forceBcta3 s.k = s.k := by
    simp [forceBcta3, ready.wf.noForce]
  have frame : sentFrame typ s.k.sSeq (spktData len text) s.k =
      pktFrame s.k.par typ s.k.sSeq (spktData len text) := by
    rw [sentFrame, forced]
  obtain ⟨slot, win, taken, readyNow, fresh, mapped⟩ := ready.takeSslot
  have lower := ready.lower
  have free : 0 ≤ (Kermit.getSslot s.k).1 := by
    omega
  have shape := spkt_slotted io kind ready.lower ready.upper free
    (frame ▸ fits)
  have wf : Wf (spkt io typ s.k.sSeq len text s).2.k :=
    (works_spkt typ s.k.sSeq len text s).wf ready.wf
  have noForce : forceBcta3 { s.k with win := win } =
      { s.k with win := win } := by
    simp [forceBcta3, ready.wf.noForce]
  have filledSlot : loaded typ s.k.sSeq (spktData len text) s.k =
      { s.k with
        win :=
          { win with
            opktinfo := put win.opktinfo 0
              { win.opktinfo 0 with
                typ := typ
                seq := s.k.sSeq
                len := (pktFrame s.k.par typ s.k.sSeq
                  (spktData len text)).length
                buf := pktFrame s.k.par typ s.k.sSeq
                  (spktData len text) ++ [0] }
            opktlen := (pktFrame s.k.par typ s.k.sSeq
              (spktData len text)).length } } := by
    simp only [loaded, filled]
    rw [frame, slot, taken, noForce]
  rw [shape, frame, filledSlot] at wf ⊢
  generalize pktFrame s.k.par typ s.k.sSeq (spktData len text) = bytes at *
  have nonempty : 0 < bytes.length := by
    rw [← frame, sentFrame, pktFrame]
    exact Nat.succ_pos _
  refine ⟨_, rfl, ⟨wf, ⟨?_, ready.lower, mapped, ?_, ?_⟩, ready.upper⟩,
    ?_, ?_⟩
  · simp
  · simpa using nonempty
  · simp only [put_same]
    exact Int.ofNat_lt.mpr fits
  · simp [slotPacket]
  · simpa using fresh

/-- The number of the packet in the only slot is the earliest one. -/
theorem earliestSseq_held
    {k : KData}
    (window : k.par.wslots = 1)
    (current : 0 ≤ k.sSeq ∧ k.sSeq ≤ 63)
    (lower : 0 ≤ (k.win.opktinfo 0).seq)
    (upper : (k.win.opktinfo 0).seq ≤ 63) :
    earliestSseq k = (k.win.opktinfo 0).seq := by
  have inRange : isSeq (k.win.opktinfo 0).seq = true := by
    simp [isSeq]
    omega
  have young : sseqAge k (k.win.opktinfo 0).seq > -99 := by
    unfold sseqAge
    dsimp only
    split <;> split <;> omega
  unfold earliestSseq
  rw [slots_one window]
  simp only [List.foldl_cons, List.foldl_nil, inRange, young, Bool.true_and,
    decide_true, if_true]

/-- The number of the only packet sent is the earliest one. -/
theorem earliestSseq_current
    {k : KData}
    (window : k.par.wslots = 1)
    (number : (k.win.opktinfo 0).seq = k.sSeq)
    (lower : 0 ≤ k.sSeq)
    (upper : k.sSeq ≤ 63) :
    earliestSseq k = k.sSeq := by
  rw [← number] at lower upper
  rw [earliestSseq_held window (number ▸ ⟨lower, upper⟩) lower upper, number]

/-- With one slot, `free_sslot_easca()` frees it once it is acknowledged. -/
theorem freeSslotEasca_one
    {k : KData}
    (window : k.par.wslots = 1)
    (current : 0 ≤ k.sSeq ∧ k.sSeq ≤ 63)
    (lower : 0 ≤ (k.win.opktinfo 0).seq)
    (upper : (k.win.opktinfo 0).seq ≤ 63)
    (mapped : k.win.sPw (k.win.opktinfo 0).seq = 0)
    (acked : (k.win.opktinfo 0).flg ≠ 0) :
    freeSslotEasca k = freeSslot 0 k := by
  unfold freeSslotEasca
  rw [window]
  unfold freeSslotEascaLoop
  rw [earliestSseq_held window current lower upper]
  dsimp only
  rw [if_neg (by simp; omega), mapped, if_neg (by simp [window]),
    if_neg acked]
  rfl

/-- The ACK to the outstanding packet frees the slot. -/
theorem Awaiting.acknowledge
    {k : KData}
    (awaiting : Awaiting k) :
    ∃ win,
      acknowledge 0 k = { k with win := win } ∧
        Ready { k with win := win } := by
  obtain ⟨wf, ⟨number, lower, mapped, nonempty, fits⟩, upper⟩ := awaiting
  have flagged : Wf
      { k with
        win.opktinfo := put k.win.opktinfo 0
          { k.win.opktinfo 0 with flg := 1 } } :=
    wf.putSslot fun _ => wf.kept
  have freed : Kermit.acknowledge 0 k =
      freeSslot 0
        { k with
          win.opktinfo := put k.win.opktinfo 0
            { k.win.opktinfo 0 with flg := 1 } } := by
    refine freeSslotEasca_one wf.window ⟨lower, upper⟩ ?_ ?_ ?_ ?_
    · simpa [number] using lower
    · simpa [number] using upper
    · simpa [number] using mapped
    · simp
  have acked := flagged.freeSslot 0
  rw [← freed] at acked
  rw [freed] at acked ⊢
  unfold freeSslot at acked ⊢
  rw [if_neg (by decide)] at acked ⊢
  refine ⟨_, rfl, acked, ?_, lower, upper⟩
  simp

/-! ## The ACK to the outstanding packet -/

/-- The frame in `ipktbuf` is a valid ACK with a number. -/
structure ValidAck
    (seq : Int)
    (k : KData)
    (len : Int)
    (p : Rcvd)
    (buf : List UInt8) : Prop where
  long : 4 ≤ len
  good : parse k len = .good p buf
  rtyp : p.rtyp = ch 'Y'
  rseq : p.rseq = seq

/-- The data of an ACK asks to cancel the file or the group. -/
def CancelsSend
    (p : Rcvd)
    (buf : List UInt8) : Prop :=
  peek (buf.drop p.pdf) 0 = ch 'X' ∨ peek (buf.drop p.pdf) 0 = ch 'Z'

/-- The state switcher's turn for an ACK to the outstanding packet. -/
def afterAck
    (io : Io ω)
    (msg : List UInt8)
    (p : Rcvd)
    (buf : List UInt8)
    (s : Sys ω) : Int × Sys ω :=
  stateStage io msg p
    { s with
      k := acknowledge 0 { s.k with ipktbuf := buf }
      r.sofar := s.r.sofarRumor }

/-- The route of an ACK to the outstanding packet of a file transfer. -/
theorem kermit_ack
    (io : Io ω)
    {s : Sys ω}
    (awaiting : Awaiting s.k)
    (sends : s.k.what = .send)
    (keeps : s.k.cfg.cancel = 0)
    (set : s.k.state ≠ .rNone)
    (received : s.k.doRxd = true)
    {len : Int}
    {p : Rcvd}
    {buf : List UInt8}
    (ack : ValidAck s.k.sSeq s.k len p buf)
    (goesOn : s.k.state = .sData → ¬ CancelsSend p buf)
    (msg : List UInt8) :
    kermit io .run len msg s = afterAck io msg p buf s := by
  have wf := awaiting.wf
  have forced : forceBcta3 s.k = s.k := by
    simp [forceBcta3, wf.noForce]
  have notShort : ¬ len < 4 := by
    have long := ack.long
    omega
  have slot : s.k.win.sPw p.rseq = 0 := by
    rw [ack.rseq]
    exact awaiting.outstanding.mapped
  unfold kermit
  rw [wf.testRslots io]
  dsimp only
  unfold kermitRun
  rw [if_neg set, if_pos received]
  unfold rxStage
  rw [if_neg notShort, ack.good]
  simp only [forced]
  have route : packetStage io p { s with k.ipktbuf := buf } =
      .go p
        { s with
          k := acknowledge 0 { s.k with ipktbuf := buf }
          r.sofar := s.r.sofarRumor } := by
    unfold packetStage
    rw [ack.rtyp, sends]
    rw [if_neg (fun both => absurd both.2 (by decide)),
      if_neg (fun both => absurd both.1 (by decide)),
      if_neg (by decide), if_neg (by decide), if_neg (by decide), if_pos rfl]
    unfold sendStage
    rw [ack.rtyp, if_neg (by decide)]
    dsimp only
    rw [slot, if_neg (by simp [wf.window])]
    have shape := acknowledge_shape 0 { s.k with ipktbuf := buf }
    have mem : pdfMem p (onK (acknowledge 0) { s with k.ipktbuf := buf }) =
        buf.drop p.pdf := by
      show List.drop p.pdf (acknowledge 0 { s.k with ipktbuf := buf }).ipktbuf
        = _
      rw [shape]
    have state :
        (onK (acknowledge 0) { s with k.ipktbuf := buf }).k.state =
          s.k.state := by
      show (acknowledge 0 { s.k with ipktbuf := buf }).state = _
      rw [shape]
    have cancel :
        (onK (acknowledge 0) { s with k.ipktbuf := buf }).k.cfg.cancel =
          0 := by
      show (acknowledge 0 { s.k with ipktbuf := buf }).cfg.cancel = _
      rw [shape]
      exact keeps
    rw [mem, state, cancel, if_neg]
    · rfl
    · rintro ⟨inData, cancelled | cancels⟩
      · exact cancelled rfl
      · exact goesOn inData cancels
  rw [route]
  rfl

/-! ## Sending the next packet -/

/-- The link takes every packet. -/
def Linked
    (io : Io ω) : Prop :=
  ∀ w bytes, (io.txd w bytes).1 = xOk

/-- One packet was sent, with the number `s_seq`, and is outstanding. -/
structure Sends
    (io : Io ω)
    (typ : UInt8)
    (data : List UInt8)
    (s s' : Sys ω) : Prop where
  awaiting : Awaiting s'.k
  held : slotPacket (s'.k.win.opktinfo 0) = pktFrame s.k.par typ s.k.sSeq data
  fresh : (s'.k.win.opktinfo 0).rtr = 0
  sSeq : s'.k.sSeq = s.k.sSeq
  cfg : s'.k.cfg = s.k.cfg
  par : s'.k.par = s.k.par
  enc : s'.k.enc = s.k.enc
  zin : s'.k.zin = s.k.zin
  state : s'.k.state = s.k.state
  what : s'.k.what = s.k.what
  filelist : s'.k.filelist = s.k.filelist
  log : s'.log = .txd (pktFrame s.k.par typ s.k.sSeq data) xOk :: s.log
  w : s'.w = (io.txd s.w (pktFrame s.k.par typ s.k.sSeq data)).2

/-- A packet of a file transfer is sent when it fits its buffer. -/
theorem spkt_sends
    {io : Io ω}
    (linked : Linked io)
    {typ : UInt8}
    {len : Int}
    {text : Option (List UInt8)}
    {s : Sys ω}
    (kind : isUnslotted typ = false)
    (ready : Ready s.k)
    (fits :
      (pktFrame s.k.par typ s.k.sSeq (spktData len text)).length <
        pBuflen) :
    (spkt io typ s.k.sSeq len text s).1 = xOk ∧
      Sends io typ (spktData len text) s
        (spkt io typ s.k.sSeq len text s).2 := by
  obtain ⟨win, route, awaiting, held, fresh⟩ :=
    spkt_ready io kind ready fits
  rw [route]
  refine ⟨linked _ _, ?_⟩
  exact
    { awaiting := awaiting
      held := held
      fresh := fresh
      sSeq := rfl
      cfg := rfl
      par := rfl
      enc := rfl
      zin := rfl
      state := rfl
      what := rfl
      filelist := rfl
      log := by
        show Call.txd _ (io.txd _ _).1 :: _ = _
        rw [linked]
      w := rfl }

theorem length_blockCheck_of
    {bct : Nat}
    (check : 1 ≤ bct ∧ bct ≤ 3)
    (pkt : List UInt8) :
    (blockCheck bct pkt).length = bct := by
  obtain rfl | rfl | rfl : bct = 1 ∨ bct = 2 ∨ bct = 3 := by omega
  all_goals rfl

theorem length_blockCheck_min
    (bct : Nat)
    (pkt : List UInt8) :
    (blockCheck bct pkt).length ≤ min bct 3 := by
  unfold blockCheck
  split <;> simp

/-- A packet whose data leave room for its check and its header fits. -/
theorem pktFrame_fits
    {par : Params}
    (typ : UInt8)
    (seq : Int)
    {data : List UInt8}
    (short : data.length + min par.bct 3 < pPktlen) :
    (pktFrame par typ seq data).length < pBuflen := by
  have header := length_pktHeader par.bct typ seq data.length
  have check := length_blockCheck_min par.bct
    (cstr (pktHeader par.bct typ seq data.length ++ data))
  simp only [pktFrame, pktBody, List.length_cons, List.length_append,
    List.length_nil, pBuflen]
  omega

/-- A packet without data fits. -/
theorem emptyFrame_fits
    (par : Params)
    (typ : UInt8)
    (seq : Int) :
    (pktFrame par typ seq []).length < pBuflen :=
  pktFrame_fits typ seq (Nat.lt_of_le_of_lt
    (Nat.add_le_add_left (Nat.min_le_right _ _) _) (by decide))

/-- Fields that the slots do not depend on. -/
theorem Ready.same
    {k k' : KData}
    (ready : Ready k)
    (cfg : k'.cfg = k.cfg)
    (par : k'.par = k.par)
    (win : k'.win = k.win)
    (sSeq : k'.sSeq = k.sSeq) :
    Ready k' := by
  obtain ⟨⟨noForce, oneSlot, window, noWindowing, received, kept, mapped⟩,
    free, lower, upper⟩ := ready
  rw [← cfg] at noForce oneSlot
  rw [← par] at window noWindowing
  rw [← win] at received kept mapped free
  rw [← sSeq] at lower upper
  exact ⟨⟨noForce, oneSlot, window, noWindowing, received, kept, mapped⟩,
    free, lower, upper⟩

/-! ## One packet at a time -/

/-- One packet was sent, and the session waits for its ACK. -/
structure SentOne
    (typ : UInt8)
    (data : List UInt8)
    (s s' : Sys ω) : Prop where
  awaiting : Awaiting s'.k
  held : slotPacket (s'.k.win.opktinfo 0) = pktFrame s.k.par typ s.k.sSeq data
  fresh : (s'.k.win.opktinfo 0).rtr = 0
  sSeq : s'.k.sSeq = s.k.sSeq
  cfg : s'.k.cfg = s.k.cfg
  par : s'.k.par = s.k.par
  what : s'.k.what = s.k.what
  filelist : s'.k.filelist = s.k.filelist
  log : ∃ more, s'.log = more ++ s.log ∧
    txds more = [pktFrame s.k.par typ s.k.sSeq data]

theorem txds_reads
    (reads : List (Option UInt8)) :
    txds (reads.map .readf) = [] := by
  induction reads with
  | nil =>
      rfl
  | cons read reads inductionHypothesis =>
      exact inductionHypothesis

/-- The input may be read before the packet is sent. -/
theorem Sends.one
    {io : Io ω}
    {typ : UInt8}
    {data : List UInt8}
    {s t s' : Sys ω}
    (packs : Packs s t)
    (sent : Sends io typ data t s') :
    SentOne typ data s s' := by
  obtain ⟨enc, ipktbuf, zin, rumor, w, reads, -, -, rfl⟩ := packs
  refine ⟨sent.awaiting, sent.held, sent.fresh, sent.sSeq, sent.cfg,
    sent.par, sent.what, sent.filelist,
    .txd (pktFrame s.k.par typ s.k.sSeq data) xOk :: reads.map .readf,
    sent.log, ?_⟩
  simp [txds, txds_reads]

theorem Packs.refl
    (s : Sys ω) :
    Packs s s :=
  ⟨s.k.enc, s.k.ipktbuf, s.k.zin, s.r.sofarRumor, s.w, [], rfl, rfl, rfl⟩

/-- What is done before the packet is sent, but the sending of packets. -/
theorem SentOne.of_quiet
    {typ : UInt8}
    {data : List UInt8}
    {s t s' : Sys ω}
    (sent : SentOne typ data t s')
    (sSeq : t.k.sSeq = s.k.sSeq)
    (cfg : t.k.cfg = s.k.cfg)
    (par : t.k.par = s.k.par)
    (what : t.k.what = s.k.what)
    (filelist : t.k.filelist = s.k.filelist)
    (log : ∃ calls, t.log = calls ++ s.log ∧ txds calls = []) :
    SentOne typ data s s' := by
  obtain ⟨awaiting, held, fresh, sSeq', cfg', par', what', filelist', more,
    later, frames⟩ := sent
  obtain ⟨calls, earlier, quiet⟩ := log
  rw [par, sSeq] at held frames
  refine ⟨awaiting, held, fresh, sSeq'.trans sSeq, cfg'.trans cfg,
    par'.trans par, what'.trans what, filelist'.trans filelist,
    more ++ calls, ?_, ?_⟩
  · rw [later, earlier, List.append_assoc]
  · rw [txds_append, quiet, frames]
    rfl

/-- The input may be read before the packet is sent. -/
theorem SentOne.of_packs
    {typ : UInt8}
    {data : List UInt8}
    {s t s' : Sys ω}
    (sent : SentOne typ data t s')
    (packs : Packs s t) :
    SentOne typ data s s' := by
  obtain ⟨enc, ipktbuf, zin, rumor, w, reads, -, -, rfl⟩ := packs
  exact sent.of_quiet rfl rfl rfl rfl rfl ⟨_, rfl, txds_reads reads⟩

/-- The state is set, or the input closed, after the packet was sent. -/
theorem SentOne.later
    {typ : UInt8}
    {data : List UInt8}
    {s t s' : Sys ω}
    (sent : SentOne typ data s t)
    (win : s'.k.win = t.k.win)
    (sSeq : s'.k.sSeq = t.k.sSeq)
    (cfg : s'.k.cfg = t.k.cfg)
    (par : s'.k.par = t.k.par)
    (what : s'.k.what = t.k.what)
    (filelist : s'.k.filelist = t.k.filelist)
    (log : ∃ calls, s'.log = calls ++ t.log ∧ txds calls = []) :
    SentOne typ data s s' := by
  obtain ⟨⟨wf, outstanding, upper⟩, held, fresh, sSeq', cfg', par', what',
    filelist', more, earlier, frames⟩ := sent
  obtain ⟨calls, later, quiet⟩ := log
  refine ⟨⟨?_, ?_, sSeq ▸ upper⟩, win ▸ held, win ▸ fresh,
    sSeq.trans sSeq', cfg.trans cfg', par.trans par', what.trans what',
    filelist.trans filelist', calls ++ more, ?_, ?_⟩
  · refine ⟨cfg ▸ wf.noForce, cfg ▸ wf.oneSlot, par ▸ wf.window,
      par ▸ wf.noWindowing, win ▸ wf.received, win ▸ wf.kept,
      win ▸ wf.mapped⟩
  · rw [sSeq]
    exact ⟨win ▸ outstanding.number, outstanding.lower,
      win ▸ outstanding.mapped, win ▸ outstanding.nonempty,
      win ▸ outstanding.fits⟩
  · rw [later, earlier, List.append_assoc]
  · rw [txds_append, quiet, frames]
    rfl

theorem SentOne.await
    {typ : UInt8}
    {data : List UInt8}
    {s s' : Sys ω}
    (sent : SentOne typ data s s') :
    SentOne typ data s (awaitSent s').2 := by
  refine sent.later ?_ ?_ ?_ ?_ ?_ ?_ ⟨[], rfl, rfl⟩ <;> rfl

theorem SentOne.setState
    {typ : UInt8}
    {data : List UInt8}
    {s s' : Sys ω}
    (sent : SentOne typ data s s')
    (state : State) :
    SentOne typ data s (setState state s') := by
  refine sent.later ?_ ?_ ?_ ?_ ?_ ?_ ⟨[], rfl, rfl⟩ <;> rfl

theorem SentOne.endInput
    {typ : UInt8}
    {data : List UInt8}
    {s s' : Sys ω}
    (sent : SentOne typ data s s')
    (io : Io ω) :
    SentOne typ data s (endInput io s') := by
  refine sent.later ?_ ?_ ?_ ?_ ?_ ?_ ⟨[.closef 0 1], rfl, rfl⟩ <;> rfl

/-- Only the window differs. -/
def SameButWin
    (s t : Sys ω) : Prop :=
  ∃ win, t = { s with k.win := win }

theorem SentOne.of_win
    {typ : UInt8}
    {data : List UInt8}
    {s t s' : Sys ω}
    (sent : SentOne typ data t s')
    (same : SameButWin s t) :
    SentOne typ data s s' := by
  obtain ⟨win, rfl⟩ := same
  exact sent.of_quiet rfl rfl rfl rfl rfl ⟨[], rfl, rfl⟩

/-- What was read stays in the log. -/
theorem SentOne.seen
    {typ : UInt8}
    {data : List UInt8}
    {s s' : Sys ω}
    (sent : SentOne typ data s s')
    {call : Call}
    (earlier : call ∈ s.log) :
    call ∈ s'.log := by
  obtain ⟨more, log, -⟩ := sent.log
  rw [log]
  exact List.mem_append_right more earlier

theorem Ready.packs
    {s t : Sys ω}
    (ready : Ready s.k)
    (packs : Packs s t) :
    Ready t.k := by
  obtain ⟨enc, ipktbuf, zin, rumor, w, reads, -, -, rfl⟩ := packs
  exact ready.same rfl rfl rfl rfl

/-- Taking the slot, as a step of the session. -/
theorem Ready.takeSlot
    {s : Sys ω}
    (ready : Ready s.k) :
    Ready (onK (fun k => (Kermit.takeSslot k).2) s).k ∧
      SameButWin s (onK (fun k => (Kermit.takeSslot k).2) s) := by
  obtain ⟨-, win, taken, readyNow, -, -⟩ := ready.takeSslot
  dsimp only [onK]
  rw [taken]
  exact ⟨readyNow, win, rfl⟩

/-- A packet without data, in a slot that is taken first. -/
theorem spkt_empty
    {io : Io ω}
    (linked : Linked io)
    {typ : UInt8}
    (kind : isUnslotted typ = false)
    {s : Sys ω}
    (ready : Ready s.k) :
    (spkt io typ s.k.sSeq 0 none s).1 = xOk ∧
      SentOne typ [] s (spkt io typ s.k.sSeq 0 none s).2 := by
  obtain ⟨fine, sent⟩ := @spkt_sends _ _ linked typ 0 none s kind ready
    (emptyFrame_fits _ _ _)
  exact ⟨fine, sent.one (Packs.refl s)⟩

/-- `sendBreak()` sends B and waits in `S_EOT`. -/
theorem sendBreak_sends
    {io : Io ω}
    (linked : Linked io)
    {s : Sys ω}
    (ready : Ready s.k) :
    (sendBreak io s).1 = xOk ∧
      SentOne (ch 'B') [] s (sendBreak io s).2 ∧
      (sendBreak io s).2.k.state = .sEot := by
  have named : Ready { s.k with filename := none } :=
    ready.same rfl rfl rfl rfl
  obtain ⟨slot, -⟩ := named.takeSslot
  obtain ⟨readyNow, same⟩ :=
    Ready.takeSlot (s := { s with k.filename := none }) named
  unfold sendBreak
  dsimp only
  rw [slot, if_neg (by simp [ready.wf.window])]
  generalize onK (fun k => (takeSslot k).2) { s with k.filename := none } =
    t at *
  obtain ⟨fine, sent⟩ := @spkt_empty _ _ linked (ch 'B') (by decide) t
    readyNow
  rw [if_neg (not_not.mpr fine)]
  have one : SentOne (ch 'B') [] s
      (spkt io (ch 'B') t.k.sSeq 0 none t).2 := by
    refine (sent.of_win same).of_quiet ?_ ?_ ?_ ?_ ?_ ⟨[], rfl, rfl⟩ <;> rfl
  exact ⟨rfl, (one.setState .sEot).await, rfl⟩

/-- `nxtpkt()` keeps the slot free and goes on to the next number. -/
theorem Ready.nxtpkt
    {k : KData}
    (ready : Ready k) :
    Ready (nxtpkt k) :=
  ⟨⟨ready.wf.noForce, ready.wf.oneSlot, ready.wf.window,
    ready.wf.noWindowing, ready.wf.received, ready.wf.kept, ready.wf.mapped⟩,
    ready.free, Int.emod_nonneg _ (by decide),
    Int.le_of_lt_add_one (Int.emod_lt_of_pos _ (by decide))⟩

/-! ## The data of a file -/

/-- The encoder goes on with the same input. -/
structure SameInput
    (left : ω → List UInt8)
    (s s' : Sys ω) : Prop where
  cfg : s'.k.cfg = s.k.cfg
  par : s'.k.par = s.k.par
  zin : s'.k.zin = s.k.zin
  sFirst : s'.k.enc.sFirst = s.k.enc.sFirst
  cgetpkt : s'.k.enc.cgetpkt = s.k.enc.cgetpkt
  sRpt : s'.k.enc.sRpt = s.k.enc.sRpt
  sRemain : s'.k.enc.sRemain = s.k.enc.sRemain
  istring : s'.k.enc.istring = s.k.enc.istring
  seen : .readf none ∈ s.log → .readf none ∈ s'.log
  left : left s'.w = left s.w

theorem SameInput.refl
    (left : ω → List UInt8)
    (s : Sys ω) :
    SameInput left s s :=
  ⟨rfl, rfl, rfl, rfl, rfl, rfl, rfl, rfl, id, rfl⟩

theorem SameInput.trans
    {left : ω → List UInt8}
    {s s' s'' : Sys ω}
    (first : SameInput left s s')
    (second : SameInput left s' s'') :
    SameInput left s s'' :=
  ⟨second.cfg.trans first.cfg, second.par.trans first.par,
    second.zin.trans first.zin, second.sFirst.trans first.sFirst,
    second.cgetpkt.trans first.cgetpkt, second.sRpt.trans first.sRpt,
    second.sRemain.trans first.sRemain,
    second.istring.trans first.istring, second.seen ∘ first.seen,
    second.left.trans first.left⟩

/-- A link and a file system that leave the input file alone. -/
structure Serves
    (io : Io ω)
    (left : ω → List UInt8) : Prop where
  linked : Linked io
  txd : ∀ w bytes, left (io.txd w bytes).2 = left w
  finfo : ∀ w name type,
    (io.finfo w name type).2.2.1 = type ∧
      left (io.finfo w name type).2.2.2 = left w

theorem Sends.sameInput
    {io : Io ω}
    {typ : UInt8}
    {data : List UInt8}
    {s s' : Sys ω}
    (sent : Sends io typ data s s')
    (left : ω → List UInt8)
    (txd : ∀ w bytes, left (io.txd w bytes).2 = left w) :
    SameInput left s s' := by
  have enc := sent.enc
  refine ⟨sent.cfg, sent.par, sent.zin, ?_, ?_, ?_, ?_, ?_, ?_, ?_⟩
  · rw [enc]
  · rw [enc]
  · rw [enc]
  · rw [enc]
  · rw [enc]
  · intro seen
    rw [sent.log]
    exact List.mem_cons_of_mem _ seen
  · rw [sent.w]
    exact txd _ _

theorem SameButWin.input
    {s t : Sys ω}
    (same : SameButWin s t)
    (left : ω → List UInt8) :
    SameInput left s t := by
  obtain ⟨win, rfl⟩ := same
  exact ⟨rfl, rfl, rfl, rfl, rfl, rfl, rfl, rfl, id, rfl⟩

/-- A call of `getpkt()` that returns no field. -/
structure EndsFields
    (io : Io ω)
    (toEnd : Prop)
    (s : Sys ω) : Prop where
  nothing : (getpkt io s).1 = 0
  seen : toEnd → .readf none ∈ (getpkt io s).2.log
  packs : Packs s (getpkt io s).2

/-- A call of `getpkt()` that fills a field. -/
structure FillsField
    (io : Io ω)
    (s : Sys ω) : Prop where
  positive : 0 < (getpkt io s).1
  short : (fieldOf (getpkt io s)).length + s.k.par.bct < pPktlen
  packs : Packs s (getpkt io s).2

/-- A call of `getpkt()` that fills a field that fits its packet. -/
structure FitsField
    (io : Io ω)
    (s : Sys ω) : Prop where
  positive : 0 < (getpkt io s).1
  short : (fieldOf (getpkt io s)).length + min s.k.par.bct 3 < pPktlen
  packs : Packs s (getpkt io s).2

theorem FillsField.fits
    {io : Io ω}
    {s : Sys ω}
    (fills : FillsField io s) :
    FitsField io s :=
  ⟨fills.positive, Nat.lt_of_le_of_lt
    (Nat.add_le_add_left (Nat.min_le_left _ _) _) fills.short, fills.packs⟩

/--
The fields that `getpkt()` will fill, fewer than a number of them, are as the
goal asks, whatever happens between the calls; `toEnd` tells that it reads up
to the end of the file.
-/
def Yields
    (io : Io ω)
    (left : ω → List UInt8)
    (toEnd : Prop) : Nat → (List (List UInt8) → Prop) → Sys ω → Prop
  | 0, _, _ => False
  | n + 1, goal, s => ∀ t, SameInput left s t →
      EndsFields io toEnd t ∧ goal [] ∨
      FillsField io t ∧
        Yields io left toEnd n
          (fun more => goal (fieldOf (getpkt io t) :: more)) (getpkt io t).2

theorem Yields.same
    {io : Io ω}
    {left : ω → List UInt8}
    {n : Nat}
    {goal : List (List UInt8) → Prop}
    {s s' : Sys ω}
    (yields : Yields io left toEnd n goal s)
    (same : SameInput left s s') :
    Yields io left toEnd n goal s' := by
  cases n with
  | zero =>
      exact yields
  | succ n =>
      exact fun t later => yields t (same.trans later)

theorem Packs.state
    {s s' : Sys ω}
    (packs : Packs s s') :
    s'.k.state = s.k.state := by
  obtain ⟨_, _, _, _, _, _, _, _, rfl⟩ := packs
  rfl

/-- `sdata()` sends the field that `getpkt()` has filled. -/
theorem sdata_sends
    {io : Io ω}
    (linked : Linked io)
    {s : Sys ω}
    (keeps : s.k.cfg.cancel = 0)
    (ready : Ready s.k)
    (fits : FitsField io s) :
    (sdata io s).1 = (getpkt io s).1 ∧
      Sends io (ch 'D') (fieldOf (getpkt io s)) (getpkt io s).2
        (sdata io s).2 := by
  obtain ⟨positive, short, packs⟩ := fits
  have settings := packs.settings
  have readyNow : Ready (getpkt io s).2.k := by
    obtain ⟨_, _, _, _, _, _, _, _, same⟩ := packs
    rw [same]
    exact ready.same rfl rfl rfl rfl
  obtain ⟨fine, sent⟩ := @spkt_sends _ _ linked (ch 'D') (getpkt io s).1
    (some (xdataMem (getpkt io s).2.k)) (getpkt io s).2 (by decide) readyNow
    (by
      rw [settings.2]
      exact pktFrame_fits _ _ short)
  unfold sdata
  rw [if_neg (not_not.mpr keeps)]
  dsimp only
  rw [if_neg (by omega), fine]
  exact ⟨rfl, sent⟩

/-- `sdata()` returns zero when `getpkt()` does. -/
theorem sdata_ended
    {io : Io ω}
    {s : Sys ω}
    (keeps : s.k.cfg.cancel = 0)
    (nothing : (getpkt io s).1 = 0) :
    sdata io s = (0, (getpkt io s).2) := by
  unfold sdata
  rw [if_neg (not_not.mpr keeps)]
  dsimp only
  rw [if_pos (by omega)]

/-- The end of the fields: Z was sent. -/
structure ToEof
    (toEnd : Prop)
    (goal : List (List UInt8) → Prop)
    (s : Sys ω)
    (result : Int × Sys ω) : Prop where
  fine : result.1 = xOk
  reached : goal []
  sent : SentOne (ch 'Z') [] s result.2
  state : result.2.k.state = .sEof
  seen : toEnd → .readf none ∈ result.2.log

/-- The next field was sent. -/
structure ToData
    (io : Io ω)
    (left : ω → List UInt8)
    (toEnd : Prop)
    (n : Nat)
    (goal : List (List UInt8) → Prop)
    (s : Sys ω)
    (result : Int × Sys ω)
    (field : List UInt8) : Prop where
  fine : result.1 = xOk
  sent : SentOne (ch 'D') field s result.2
  state : result.2.k.state = .sData
  more : Yields io left toEnd n (fun more => goal (field :: more)) result.2

/-- Z was sent, after what was read up to `t`. -/
structure SentEof
    (s t : Sys ω)
    (result : Int × Sys ω) : Prop where
  fine : result.1 = xOk
  sent : SentOne (ch 'Z') [] s result.2
  after : SentOne (ch 'Z') [] t result.2
  state : result.2.k.state = .sEof

/-- The field that `getpkt()` fills in `t` was sent. -/
structure SentField
    (io : Io ω)
    (s t : Sys ω)
    (result : Int × Sys ω) : Prop where
  fine : result.1 = xOk
  sent : SentOne (ch 'D') (fieldOf (getpkt io t)) s result.2
  state : result.2.k.state = .sData
  input :
    ∀ left, (∀ w bytes, left (io.txd w bytes).2 = left w) →
      SameInput left (getpkt io t).2 result.2

/-- The next of the fields that are to come was sent, or Z was. -/
theorem Yields.sent
    {io : Io ω}
    {left : ω → List UInt8}
    (served : Serves io left)
    {n : Nat}
    {goal : List (List UInt8) → Prop}
    {s t : Sys ω}
    {result : Int × Sys ω}
    (yields : Yields io left toEnd (n + 1) goal t)
    (ended :
      (getpkt io t).1 = 0 → Packs t (getpkt io t).2 →
        SentEof s (getpkt io t).2 result)
    (sent : FitsField io t → SentField io s t result) :
    ToEof toEnd goal s result ∨
      ∃ field, ToData io left toEnd n goal s result field := by
  rcases yields t (SameInput.refl left t) with
    ⟨⟨nothing, seen, packs⟩, reached⟩ | ⟨fills, more⟩
  · obtain ⟨fine, one, after, state⟩ := ended nothing packs
    exact .inl ⟨fine, reached, one, state, fun toEnd => after.seen (seen toEnd)⟩
  · obtain ⟨fine, one, state, input⟩ := sent fills.fits
    exact .inr ⟨_, fine, one, state, more.same (input left served.txd)⟩

/-- The first data of a file, or Z. -/
theorem firstData_sends
    {io : Io ω}
    (linked : Linked io)
    {s : Sys ω}
    (keeps : s.k.cfg.cancel = 0)
    (ready : Ready s.k) :
    ∃ t, SameButWin s t ∧
      ((getpkt io t).1 = 0 → Packs t (getpkt io t).2 →
        SentEof s (getpkt io t).2 (firstData io s)) ∧
      (FitsField io t → SentField io s t (firstData io s)) := by
  obtain ⟨readyNow, same⟩ := ready.takeSlot
  refine ⟨_, same, ?_⟩
  unfold firstData
  dsimp only
  generalize onK (fun k => (takeSslot k).2) s = t at *
  have keepsNow : t.k.cfg.cancel = 0 := by
    obtain ⟨win, rfl⟩ := same
    exact keeps
  constructor
  · intro nothing packs
    rw [sdata_ended keepsNow nothing]
    dsimp only
    rw [if_neg (by decide), if_pos rfl]
    obtain ⟨readyAgain, same'⟩ := (readyNow.packs packs).takeSlot
    generalize (getpkt io t).2 = u at *
    generalize onK (fun k => (takeSslot k).2) u = v at *
    obtain ⟨fine, sent⟩ :=
      @spkt_empty _ _ linked (ch 'Z') (by decide) v readyAgain
    rw [if_neg (not_not.mpr fine)]
    have after := ((sent.of_win same').endInput io).await
    exact ⟨rfl, (after.of_packs packs).of_win same, after, rfl⟩
  · intro fits
    obtain ⟨number, sent⟩ := sdata_sends linked keepsNow readyNow fits
    have positive := fits.positive
    rw [number, if_neg (by unfold xError; omega), if_neg (by omega)]
    exact ⟨rfl, (((sent.one fits.packs).of_win same).setState .sData).await,
      rfl, fun left txd => (sent.sameInput left txd).trans
        ⟨rfl, rfl, rfl, rfl, rfl, rfl, rfl, rfl, id, rfl⟩⟩

theorem firstData_yields
    {io : Io ω}
    {left : ω → List UInt8}
    (served : Serves io left)
    {n : Nat}
    {goal : List (List UInt8) → Prop}
    {s : Sys ω}
    (keeps : s.k.cfg.cancel = 0)
    (ready : Ready s.k)
    (yields : Yields io left toEnd (n + 1) goal s) :
    ToEof toEnd goal s (firstData io s) ∨
      ∃ field, ToData io left toEnd n goal s (firstData io s) field := by
  obtain ⟨t, same, ended, sent⟩ :=
    firstData_sends served.linked keeps ready
  exact (yields.same (same.input left)).sent served ended sent

/-- The session in which the data after an ACK are asked for. -/
structure Entered
    (s t : Sys ω) : Prop where
  ready : Ready t.k
  input : ∀ left, SameInput left s t
  sSeq : t.k.sSeq = (nxtpkt s.k).sSeq
  what : t.k.what = s.k.what
  filelist : t.k.filelist = s.k.filelist
  state : s.k.state = .sAttr ∨ s.k.state = .sData → t.k.state = .sData
  log : t.log = s.log

theorem Entered.one
    {s t s' : Sys ω}
    (entered : Entered s t)
    {typ : UInt8}
    {data : List UInt8}
    (sent : SentOne typ data t s') :
    SentOne typ data (onK nxtpkt s) s' :=
  sent.of_quiet entered.sSeq (entered.input fun _ => []).cfg
    (entered.input fun _ => []).par entered.what entered.filelist
    ⟨[], entered.log, rfl⟩

/-- `S_ATTR` and `S_DATA` up to the call of `sdata()`. -/
theorem afterData_entered
    (io : Io ω)
    {s : Sys ω}
    (ready : Ready s.k) :
    ∃ t, Entered s t ∧
      afterData io s =
        (let sent := sdata io t
        let s := sent.2
        if sent.1 = xError then (xError, s)
        else if sent.1 = 0 then
          let s := endInput io s
          let sent := spkt io (ch 'Z') s.k.sSeq 0 none s
          if sent.1 ≠ xOk then sent else awaitSent sent.2
        else awaitSent s) := by
  have attrDone : ∀ state rstatus, Ready
      { s with k.state := state, r.rstatus := rstatus }.k :=
    fun _ _ => ready.same rfl rfl rfl rfl
  obtain ⟨state, rstatus, entry, inData⟩ : ∃ state rstatus,
      (if s.k.state = .sAttr then setState .sData s else s) =
        { s with k.state := state, r.rstatus := rstatus } ∧
      (s.k.state = .sAttr ∨ s.k.state = .sData → state = .sData) := by
    by_cases attr : s.k.state = .sAttr
    · exact ⟨_, _, if_pos attr, fun _ => rfl⟩
    · exact ⟨_, _, if_neg attr, fun either => either.resolve_left attr⟩
  have readyNow := attrDone state rstatus
  obtain ⟨slot, -⟩ := readyNow.takeSslot
  obtain ⟨win, got, readyGot⟩ := readyNow.getSslot
  have mapped := readyGot.nxtpkt.wf.mapSseq (show (-1 : Int) ≤ 0 by decide)
    (by
      have window := readyGot.nxtpkt.wf.window
      omega)
  refine ⟨onK (fun k => mapSseq 0 (nxtpkt k))
    { s with k.state := state, k.win := win, r.rstatus := rstatus }, ?_, ?_⟩
  · exact
      { ready := ⟨mapped, readyGot.free, readyGot.nxtpkt.lower,
          readyGot.nxtpkt.upper⟩
        input := fun left =>
          ⟨rfl, rfl, rfl, rfl, rfl, rfl, rfl, rfl, id, rfl⟩
        sSeq := rfl
        what := rfl
        filelist := rfl
        state := inData
        log := rfl }
  · unfold afterData
    rw [entry]
    dsimp only [onK]
    rw [slot, if_neg (by decide), got]

/-- The next data of a file, or Z. -/
theorem afterData_sends
    {io : Io ω}
    (linked : Linked io)
    {s : Sys ω}
    (keeps : s.k.cfg.cancel = 0)
    (ready : Ready s.k)
    (sending : s.k.state = .sAttr ∨ s.k.state = .sData) :
    ∃ t, Entered s t ∧
      ((getpkt io t).1 = 0 → Packs t (getpkt io t).2 →
        SentEof (onK nxtpkt s) (getpkt io t).2 (afterData io s)) ∧
      (FitsField io t → SentField io (onK nxtpkt s) t (afterData io s)) := by
  obtain ⟨t, entered, route⟩ := afterData_entered io ready
  refine ⟨t, entered, ?_⟩
  have keepsNow : t.k.cfg.cancel = 0 :=
    (entered.input fun _ => []).cfg ▸ keeps
  rw [route]
  dsimp only
  constructor
  · intro nothing packs
    rw [sdata_ended keepsNow nothing]
    dsimp only
    rw [if_neg (by decide), if_pos rfl]
    have readyNow := entered.ready.packs packs
    generalize (getpkt io t).2 = u at *
    have closed : Ready (endInput io u).k := readyNow.same rfl rfl rfl rfl
    obtain ⟨fine, sent⟩ :=
      @spkt_empty _ _ linked (ch 'Z') (by decide) (endInput io u) closed
    rw [if_neg (not_not.mpr fine)]
    have one : SentOne (ch 'Z') [] u
        (spkt io (ch 'Z') (endInput io u).k.sSeq 0 none (endInput io u)).2 := by
      refine sent.of_quiet ?_ ?_ ?_ ?_ ?_ ⟨[.closef 0 1], rfl, rfl⟩ <;> rfl
    refine ⟨rfl, (entered.one (one.of_packs packs)).await, one.await, ?_⟩
    have steps : Works io (endInput io u)
        (spkt io (ch 'Z') (endInput io u).k.sSeq 0 none
          (endInput io u)).2 :=
      works_spkt _ _ _ _ _
    exact steps.control.state
  · intro fits
    obtain ⟨number, sent⟩ := sdata_sends linked keepsNow entered.ready fits
    have positive := fits.positive
    rw [number, if_neg (by unfold xError; omega), if_neg (by omega)]
    refine ⟨rfl, (entered.one (sent.one fits.packs)).await, ?_,
      fun left txd => (sent.sameInput left txd).trans
        ⟨rfl, rfl, rfl, rfl, rfl, rfl, rfl, rfl, id, rfl⟩⟩
    show (sdata io t).2.k.state = .sData
    rw [sent.state, fits.packs.state]
    exact entered.state sending

theorem afterData_yields
    {io : Io ω}
    {left : ω → List UInt8}
    (served : Serves io left)
    {n : Nat}
    {goal : List (List UInt8) → Prop}
    {s : Sys ω}
    (keeps : s.k.cfg.cancel = 0)
    (ready : Ready s.k)
    (sending : s.k.state = .sAttr ∨ s.k.state = .sData)
    (yields : Yields io left toEnd (n + 1) goal s) :
    ToEof toEnd goal (onK nxtpkt s) (afterData io s) ∨
      ∃ field,
        ToData io left toEnd n goal (onK nxtpkt s) (afterData io s) field := by
  obtain ⟨t, entered, ended, sent⟩ :=
    afterData_sends served.linked keeps ready sending
  exact (yields.same (entered.input left)).sent served ended sent

/-! ## Attributes -/

theorem length_sattrData
    (binary filelength : Int)
    (date : List UInt8) :
    (sattrData binary filelength date).length < 110 := by
  have type : (sattrType binary).length ≤ 8 := by
    unfold sattrType
    split <;> simp
  have size : ∀ sofar, (sattrLength sofar filelength).length ≤ 47 := by
    intro sofar
    unfold sattrLength attrlen
    repeat' split
    all_goals simp
    all_goals omega
  have when : ∀ sofar, (sattrDate sofar date).length ≤ 47 := by
    intro sofar
    unfold sattrDate attrlen
    split
    · simp
      omega
    · simp
  have size := size (sattrType binary).length
  unfold sattrData
  dsimp only
  have when := when
    (sattrType binary ++
      sattrLength (sattrType binary).length filelength).length
  simp only [List.length_append, List.length_cons, List.length_nil] at when ⊢
  omega

theorem pokeXdata_shape
    (offset : Nat)
    (bytes : List UInt8)
    (k : KData) :
    ∃ xdatabuf ipktbuf,
      pokeXdata offset bytes k =
        { k with enc.xdatabuf := xdatabuf, ipktbuf := ipktbuf } := by
  unfold pokeXdata
  split
  · exact ⟨_, _, rfl⟩
  · exact ⟨_, _, rfl⟩

/-- `sattr()` stores the attributes, takes the slot and sends them. -/
theorem sattr_shape
    (io : Io ω)
    (s : Sys ω) :
    ∃ t name data,
      data.length < 110 ∧
        t.k = pokeXdata 0 (data ++ [0])
          { s.k with
            par.binary := (io.finfo s.w name s.k.par.binary).2.2.1 } ∧
        t.w = (io.finfo s.w name s.k.par.binary).2.2.2 ∧
        t.log = s.log ∧
        sattr io s =
          (if (getSslot t.k).1 < 0 then (0, t)
          else
            let u := onK (fun k => (takeSslot k).2) t
            spkt io (ch 'A') u.k.sSeq (-1) (some (xdataMem u.k)) u) :=
  ⟨{ k := _, r := _, w := _, log := _ }, _, _, length_sattrData _ _ _, rfl,
    rfl, rfl, rfl⟩

/-- The session of `sattr()` when the packet is built. -/
structure Described
    (s t : Sys ω) : Prop where
  ready : Ready t.k
  sSeq : t.k.sSeq = s.k.sSeq
  what : t.k.what = s.k.what
  filelist : t.k.filelist = s.k.filelist
  log : t.log = s.log
  short : (cstr (xdataMem t.k)).length < 110

/-- `sattr()` sends the attributes of the file. -/
theorem sattr_sends
    {io : Io ω}
    {left : ω → List UInt8}
    (served : Serves io left)
    {s : Sys ω}
    (ready : Ready s.k) :
    (sattr io s).1 = xOk ∧
      (∃ data, SentOne (ch 'A') data s (sattr io s).2) ∧
      SameInput left s (sattr io s).2 := by
  obtain ⟨t, described, input, route⟩ :
      ∃ t, Described s t ∧ SameInput left s t ∧
        sattr io s =
          spkt io (ch 'A') t.k.sSeq (-1) (some (xdataMem t.k)) t := by
    obtain ⟨t, name, data, short, stored, w, log, route⟩ :=
      sattr_shape io s
    obtain ⟨sameType, sameFile⟩ := served.finfo s.w name s.k.par.binary
    rw [sameType] at stored
    have shape : ∃ xdatabuf ipktbuf, t.k =
        { s.k with enc.xdatabuf := xdatabuf, ipktbuf := ipktbuf } := by
      rw [stored]
      exact pokeXdata_shape 0 (data ++ [0]) s.k
    have ended : (cstr (xdataMem t.k)).length ≤ data.length := by
      apply length_cstr_le
      rw [stored, xdataMem_pokeXdata, poke_zero, List.append_assoc,
        peek_append_right (Nat.le_refl _), Nat.sub_self]
      rfl
    have readyThen : Ready t.k := by
      obtain ⟨_, _, same⟩ := shape
      rw [same]
      exact ready.same rfl rfl rfl rfl
    obtain ⟨slot, -⟩ := readyThen.takeSslot
    obtain ⟨readyNow, win, taken⟩ := readyThen.takeSlot
    rw [slot, if_neg (by decide), taken] at route
    rw [taken] at readyNow
    refine ⟨_, ?_, ?_, route⟩
    · obtain ⟨_, _, same⟩ := shape
      exact
        { ready := readyNow
          sSeq := by rw [same]
          what := by rw [same]
          filelist := by rw [same]
          log := log
          short := by
            show (cstr (xdataMem t.k)).length < 110
            omega }
    · obtain ⟨_, _, same⟩ := shape
      refine ⟨?_, ?_, ?_, ?_, ?_, ?_, ?_, ?_, ?_, w ▸ sameFile⟩
      · rw [same]
      · rw [same]
      · rw [same]
      · rw [same]
      · rw [same]
      · rw [same]
      · rw [same]
      · rw [same]
      · intro seen
        rw [log]
        exact seen
  have settings : t.k.par = s.k.par := input.par
  obtain ⟨fine, sent⟩ := @spkt_sends _ _ served.linked (ch 'A') (-1)
    (some (xdataMem t.k)) t (by decide) described.ready
    (by
      rw [settings]
      refine pktFrame_fits _ _ ?_
      have short := described.short
      simp only [spktData, if_pos (show (-1 : Int) < 0 by decide), pPktlen]
      omega)
  rw [route]
  refine ⟨fine, ⟨_, (sent.one (Packs.refl t)).of_quiet described.sSeq
    input.cfg input.par described.what described.filelist
    ⟨[], described.log, rfl⟩⟩, input.trans (sent.sameInput left served.txd)⟩

end Slate106.Kermit
