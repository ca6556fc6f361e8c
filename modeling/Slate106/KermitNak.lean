import Slate106.KermitDamaged

namespace Slate106.Kermit

open CBytes

/-!
# Negative acknowledgments

A NAK for the outstanding packet is answered by that packet while a file is
sent.  While a listing is sent the NAK is not looked at, and the state switcher
runs as if the packet had been acknowledged.
-/

variable {ω : Type}

/-- The states in which a packet is outstanding. -/
def IsSending
    (state : State) : Prop :=
  state = .sInit ∨ state = .sFile ∨ state = .sAttr ∨ state = .sText ∨
    state = .sData ∨ state = .sEof ∨ state = .sEot

/-- The send slot holds the packet of a number, not yet acknowledged. -/
structure Outstanding
    (seq : Int)
    (k : KData) : Prop where
  number : (k.win.opktinfo 0).seq = seq
  lower : 0 ≤ seq
  mapped : k.win.sPw seq = 0
  nonempty : 0 < (k.win.opktinfo 0).len
  fits : (k.win.opktinfo 0).len < pBuflen

/-- The retry count of the outstanding packet is below the limit. -/
def MayRetry
    (k : KData) : Prop :=
  short ((k.win.opktinfo 0).rtr + 1) ≤ k.par.retry

instance
    (k : KData) :
    Decidable (MayRetry k) :=
  inferInstanceAs (Decidable (_ ≤ _))

/-- The frame in `ipktbuf` is a valid NAK with a number. -/
structure ValidNak
    (seq : Int)
    (k : KData)
    (len : Int)
    (p : Rcvd)
    (buf : List UInt8) : Prop where
  long : 4 ≤ len
  good : parse k len = .good p buf
  rtyp : p.rtyp = ch 'N'
  rseq : p.rseq = seq

/-- The stored packet was transmitted unchanged, and nothing else happened. -/
structure Retransmitted
    (io : Io ω)
    (s : Sys ω)
    (result : Int × Sys ω) : Prop where
  rc : result.1 = xOk
  sent : Transmitted io (slotPacket (s.k.win.opktinfo 0)) s result.2
  state : result.2.k.state = s.k.state
  par : result.2.k.par = s.k.par
  filelist : result.2.k.filelist = s.k.filelist

/-- Nothing was transmitted last, or the code is not `X_OK`. -/
def Missed
    (s : Sys ω)
    (result : Int × Sys ω) : Prop :=
  result.1 = xOk → ∀ bytes rc, result.2.log ≠ .txd bytes rc :: s.log

theorem Missed.not_retransmitted
    {io : Io ω}
    {s : Sys ω}
    {result : Int × Sys ω}
    (missed : Missed s result) :
    ¬ Retransmitted io s result :=
  fun sent => missed sent.rc _ _ sent.sent.1

theorem missed_silent
    {s : Sys ω}
    {result : Int × Sys ω}
    (silent : result.2.log = s.log) :
    Missed s result := by
  intro _ bytes rc sent
  have lengths := congrArg List.length (silent.symm.trans sent)
  simp at lengths

theorem missed_failed
    {s : Sys ω}
    {result : Int × Sys ω}
    (failed : result.1 ≠ xOk) :
    Missed s result :=
  fun fine => absurd fine failed

/-! ## Calls only extend the log -/

theorem Chore.log
    {io : Io ω}
    {s s' : Sys ω}
    (step : Chore io s s') :
    ∃ more, s'.log = more ++ s.log := by
  cases step with
  | scratch same =>
      exact ⟨[], same.log⟩
  | finfo | params =>
      exact ⟨[], rfl⟩
  | _ =>
      exact ⟨[_], rfl⟩

theorem Work.log
    {io : Io ω}
    {s s' : Sys ω}
    (step : Work io s s') :
    ∃ more, s'.log = more ++ s.log := by
  cases step with
  | chore step =>
      exact step.log
  | txd | writef | decodeFile =>
      exact ⟨[_], rfl⟩
  | _ =>
      exact ⟨[], rfl⟩

theorem Works.log
    {io : Io ω}
    {s s' : Sys ω}
    (steps : Works io s s') :
    ∃ more, s'.log = more ++ s.log := by
  induction steps with
  | refl =>
      exact ⟨[], rfl⟩
  | tail _ step inductionHypothesis =>
      obtain ⟨first, before⟩ := inductionHypothesis
      obtain ⟨second, after⟩ := step.log
      exact ⟨second ++ first, by rw [after, before, List.append_assoc]⟩

/-- A call that is not a transmission stays in the log. -/
theorem missed_called
    {io : Io ω}
    {s t u : Sys ω}
    {result : Int × Sys ω}
    {call : Call}
    (called : t.log = call :: s.log)
    (other : ∀ bytes rc, call ≠ .txd bytes rc)
    (steps : Works io t u)
    (ended : result.2.log = u.log) :
    Missed s result := by
  intro _ bytes rc sent
  obtain ⟨more, log⟩ := steps.log
  rw [ended, log, called] at sent
  cases more with
  | nil =>
      exact other _ _ (List.cons.inj sent).1
  | cons first more =>
      have lengths := congrArg List.length (List.cons.inj sent).2
      simp at lengths
      omega

/-! ## A NAK while a file is sent -/

theorem nusedSslots_full
    {k : KData}
    (window : k.par.wslots = 1)
    (full : 0 < (k.win.opktinfo 0).len) :
    nusedSslots k = 1 := by
  simp [nusedSslots, slots_one window, full]

/-- `resend()` of the outstanding packet transmits it. -/
theorem resend_outstanding
    {s : Sys ω}
    {seq : Int}
    (wf : Wf s.k)
    (outstanding : Outstanding seq s.k)
    (mayRetry : MayRetry s.k)
    (io : Io ω) :
    (resend io seq s).1 =
        (io.txd s.w (slotPacket (s.k.win.opktinfo 0))).1 ∧
      Undisturbed s (resend io seq s).2 ∧
      Transmitted io (slotPacket (s.k.win.opktinfo 0)) s
        (resend io seq s).2 := by
  have lower := outstanding.lower
  have nonempty := outstanding.nonempty
  have fits := outstanding.fits
  have actual : (if seq < 0 then earliestSseq s.k else seq) = seq :=
    if_neg (by omega)
  have numbered : ¬ (seq < 0) := by omega
  have slot : resend io seq s = resendSlot io 0 s := by
    unfold resend
    dsimp only
    rw [actual, if_neg numbered, outstanding.mapped]
    exact if_neg (by decide)
  have inBounds :
      ¬ ((decide ((s.k.win.opktinfo 0).len < 0) ||
        decide ((s.k.win.opktinfo 0).len ≥ pBuflen)) = true) := by
    simp only [Bool.or_eq_true, decide_eq_true_eq]
    omega
  have whole :
      (s.k.win.opktinfo 0).buf.takeD (s.k.win.opktinfo 0).len.toNat 0 =
        slotPacket (s.k.win.opktinfo 0) :=
    List.takeD_eq_take 0 (by have := wf.kept fits; omega)
  have retried :
      ¬ (short ((s.k.win.opktinfo 0).rtr + 1) > s.k.par.retry) :=
    Int.not_lt.mpr mayRetry
  have shape :
      (resendSlot io 0 s).1 =
          (io.txd s.w (slotPacket (s.k.win.opktinfo 0))).1 ∧
        Transmitted io (slotPacket (s.k.win.opktinfo 0)) s
          (resendSlot io 0 s).2 := by
    unfold resendSlot
    dsimp only
    rw [if_neg inBounds, if_neg (by omega), if_neg retried, whole]
    exact ⟨rfl, rfl, rfl⟩
  rw [slot]
  exact ⟨shape.1, (resendSlot_undisturbed wf io).1, shape.2⟩

/-! ## A NAK while a listing is sent -/

section Listing

variable {io : Io ω}
variable {s t : Sys ω}

/-- The only send slot is taken. -/
structure Busy
    (k : KData) : Prop where
  wf : Wf k
  full : 1 ≤ (k.win.opktinfo 0).len

theorem Busy.chores
    (busy : Busy t.k)
    (steps : Chores io t s) :
    Busy s.k := by
  refine ⟨steps.works.wf busy.wf, ?_⟩
  rw [steps.window.opktinfo]
  exact busy.full

theorem Busy.scratch
    (busy : Busy t.k)
    (same : SameCore t s)
    (io : Io ω) :
    Busy s.k :=
  busy.chores (chores_scratch same : Chores io t s)

theorem busy_getSslot
    {k : KData}
    (busy : Busy k) :
    getSslot k = (-1, k) :=
  getSslot_full busy.wf.window busy.full

theorem busy_takeSslot
    (busy : Busy t.k)
    (io : Io ω) :
    Busy (onK (fun k => (takeSslot k).2) t).k := by
  have taken : Works io t (onK (fun k => (takeSslot k).2) t) :=
    works_takeSslot t
  refine ⟨taken.wf busy.wf, ?_⟩
  simp only [onK, takeSslot, busy_getSslot busy]
  exact busy.full

/-- A packet cannot be built while the only slot is taken. -/
theorem busy_spkt
    (busy : Busy t.k)
    {typ : UInt8}
    (kind : isUnslotted typ = false)
    (seq len : Int)
    (text : Option (List UInt8)) :
    (spkt io typ seq len text t).1 = xError := by
  by_cases inRange : seq < 0 ∨ seq > 63
  · have out : (decide (seq < 0) || decide (seq > 63)) = true := by
      simpa using inRange
    unfold spkt spktWith
    rw [if_pos out]
  · have full : ¬ 0 ≤ (getSslot t.k).1 := by
      rw [busy_getSslot busy]
      exact show ¬ ((0 : Int) ≤ -1) by decide
    rw [spkt, spktWith_full io _ kind (by omega) (by omega) full]

/-- `sdata()` reports an error, or the end of the file. -/
theorem busy_sdata
    (busy : Busy t.k) :
    (sdata io t).1 = xError ∨
      ((sdata io t).1 = 0 ∧ Busy (sdata io t).2.k) := by
  have packed : Busy (getpkt io t).2.k := busy.chores (chores_getpkt t)
  unfold sdata
  split
  · exact Or.inr ⟨rfl, busy⟩
  · dsimp only
    generalize getpkt io t = got at packed
    split
    · exact Or.inr ⟨rfl, packed⟩
    · refine Or.inl (if_pos ?_)
      exact busy_spkt packed (by decide) _ _ _

/-- The first data of a file, while F is outstanding. -/
theorem missed_firstData
    (busy : Busy t.k) :
    Missed t (firstData io t) := by
  refine missed_failed ?_
  have data :
      (sdata io (onK (fun k => (takeSslot k).2) t)).1 = xError ∨
        ((sdata io (onK (fun k => (takeSslot k).2) t)).1 = 0 ∧
          Busy (sdata io (onK (fun k => (takeSslot k).2) t)).2.k) :=
    busy_sdata (busy_takeSslot busy io)
  unfold firstData
  dsimp only
  generalize sdata io (onK (fun k => (takeSslot k).2) t) = sent at data
  rcases data with failed | ⟨ended, stillBusy⟩
  · rw [if_pos failed]
    exact show xError ≠ xOk by decide
  · have refused :
        (spkt io (ch 'Z') (onK (fun k => (takeSslot k).2) sent.2).k.sSeq 0
          none (onK (fun k => (takeSslot k).2) sent.2)).1 = xError :=
      busy_spkt (busy_takeSslot stillBusy io) (by decide) _ _ _
    rw [if_neg (by rw [ended]; decide), if_pos ended,
      if_pos (by rw [refused]; decide), refused]
    decide

/-- The attributes, while F is outstanding. -/
theorem missed_sattr
    (busy : Busy t.k) :
    (sattr io t).1 = xOk ∧ (sattr io t).2.log = t.log := by
  have full (k : KData) (same : k.win = t.k.win)
      (wslots : k.par.wslots = t.k.par.wslots) :
      (getSslot k).1 = -1 := by
    have taken := busy.full
    rw [← same] at taken
    rw [getSslot_full (wslots.trans busy.wf.window) taken]
  unfold sattr
  dsimp only
  split
  · exact ⟨rfl, rfl⟩
  · rename_i free
    rw [full] at free
    · exact absurd (by decide) free
    · unfold pokeXdata
      split <;> rfl
    · unfold pokeXdata
      split <;> rfl

/-- Any answer to F makes the code send what follows it. -/
theorem missed_afterFile
    (busy : Busy t.k) :
    Missed t (afterFile io t) := by
  have next : Busy (onK nxtpkt t).k :=
    busy.scratch
      ⟨rfl, rfl, rfl, rfl, rfl, rfl, rfl, rfl, rfl, rfl, rfl⟩ io
  unfold afterFile
  dsimp only
  split
  · obtain ⟨fine, silent⟩ :
        (sattr io (onK nxtpkt t)).1 = xOk ∧
          (sattr io (onK nxtpkt t)).2.log = (onK nxtpkt t).log :=
      missed_sattr next
    refine missed_silent ?_
    rw [if_neg (by rw [fine]; decide)]
    exact silent
  · exact missed_firstData next

/-- Any answer to A or D finds no slot for the next data. -/
theorem missed_afterData
    (busy : Busy t.k) :
    Missed t (afterData io t) := by
  have advanced :
      Busy (if t.k.state = .sAttr then setState .sData t else t).k := by
    split
    · exact ⟨busy.wf.control .sData _, busy.full⟩
    · exact busy
  have silent :
      (if t.k.state = .sAttr then setState .sData t else t).log = t.log := by
    split <;> rfl
  unfold afterData
  dsimp only
  generalize (if t.k.state = .sAttr then setState .sData t else t) = u
    at advanced silent
  rw [busy_getSslot advanced]
  exact missed_silent silent

/-- The next file is opened, which is not a transmission. -/
theorem missed_sendFile
    (name : StrRef)
    (rest : List StrRef)
    (silent : s.log = t.log) :
    Missed t (sendFile io name rest s) := by
  unfold sendFile
  dsimp only
  have called :
      (callOpenf io (deref (takeName name rest s) name) 1
          (takeName name rest s).r.filesize (takeName name rest s)).2.log =
        .openf (deref (takeName name rest s) name) 1
          (callOpenf io (deref (takeName name rest s) name) 1
            (takeName name rest s).r.filesize (takeName name rest s)).1 ::
          t.log :=
    congrArg _ silent
  generalize
    callOpenf io (deref (takeName name rest s) name) 1
      (takeName name rest s).r.filesize (takeName name rest s) = opened
    at called
  split
  · rename_i failed
    exact missed_failed failed
  · have steps :
        Works io opened.2
          (spkt io (ch 'F')
            (onK (fun k => (takeSslot k).2)
              (encstr io name opened.2).2).k.sSeq (-1)
            (some (xdataMem (onK (fun k => (takeSslot k).2)
              (encstr io name opened.2).2).k))
            (onK (fun k => (takeSslot k).2) (encstr io name opened.2).2)).2 :=
      ((works_encstr name opened.2).and (works_takeSslot _)).and
        (works_spkt _ _ _ _ _)
    refine missed_called called (by simp) steps ?_
    split <;> rfl

/-- The next file is opened, or no packet is built for the end. -/
theorem missed_nextFile
    (busy : Busy s.k)
    (silent : s.log = t.log) :
    Missed t (nextFile io s) := by
  have next : Busy (onK nxtpkt s).k :=
    busy.scratch
      ⟨rfl, rfl, rfl, rfl, rfl, rfl, rfl, rfl, rfl, rfl, rfl⟩ io
  have still : (onK nxtpkt s).log = t.log := silent
  unfold nextFile
  dsimp only
  generalize onK nxtpkt s = u at next still
  split
  · rename_i name rest _
    exact missed_sendFile name rest still
  · have named : Busy { u with k.filename := none }.k :=
      ⟨⟨next.wf.noForce, next.wf.oneSlot, next.wf.window,
        next.wf.noWindowing, next.wf.received, next.wf.kept,
        next.wf.mapped⟩, next.full⟩
    unfold sendBreak
    dsimp only
    rw [busy_getSslot named]
    exact missed_failed (show xError ≠ xOk by decide)

/-- A NAK in a listing is answered by what is for the next packet. -/
theorem missed_stateStage
    (busy : Busy t.k)
    (sending : IsSending t.k.state)
    (msg : List UInt8)
    (p : Rcvd) :
    Missed t (stateStage io msg p t) := by
  have renegotiated : Busy (onK (spar p.pdf p.datalen) t).k :=
    ⟨(Work.spar p.pdf p.datalen t : Work io t _).wf busy.wf, busy.full⟩
  unfold stateStage
  rcases sending with state | state | state | state | state | state | state
  · rw [state]
    exact missed_nextFile renegotiated rfl
  · rw [state]
    exact missed_afterFile busy
  · rw [state]
    exact missed_afterData busy
  · rw [state]
    exact missed_failed (show xError ≠ xOk by decide)
  · rw [state]
    exact missed_afterData busy
  · rw [state]
    have outstanding : nusedSslots t.k > 0 := by
      rw [nusedSslots_full busy.wf.window busy.full]
      decide
    dsimp only
    rw [if_pos outstanding]
    exact missed_silent rfl
  · rw [state]
    exact missed_failed (show xDone ≠ xOk by decide)

end Listing

/-- The route of a NAK: `resend()` for a file, the switcher for the rest. -/
theorem kermit_nak
    {io : Io ω}
    {s : Sys ω}
    (wf : Wf s.k)
    (received : s.k.doRxd = true)
    (sending : IsSending s.k.state)
    (full : 0 < (s.k.win.opktinfo 0).len)
    {seq len : Int}
    {p : Rcvd}
    {buf : List UInt8}
    (nak : ValidNak seq s.k len p buf)
    (msg : List UInt8) :
    kermit io .run len msg s =
      if s.k.what = .send then resend io seq { s with k.ipktbuf := buf }
      else stateStage io msg p { s with k.ipktbuf := buf } := by
  have forced : forceBcta3 s.k = s.k := by
    simp [forceBcta3, wf.noForce]
  have set : s.k.state ≠ .rNone := by
    rintro unset
    rw [unset] at sending
    rcases sending with h | h | h | h | h | h | h <;> cases h
  have notShort : ¬ len < 4 := by
    have long := nak.long
    omega
  have notAck : p.rtyp ≠ ch 'Y' := by
    rw [nak.rtyp]
    decide
  have notGeneric : p.rtyp ≠ ch 'G' := by
    rw [nak.rtyp]
    decide
  have occupied (buf : List UInt8) :
      ¬ (nusedSslots { s.k with ipktbuf := buf } = 0) := by
    have one : nusedSslots { s.k with ipktbuf := buf } = 1 :=
      nusedSslots_full wf.window full
    rw [one]
    decide
  unfold kermit
  rw [wf.testRslots io]
  dsimp only
  unfold kermitRun
  rw [if_neg set, if_pos received]
  unfold rxStage
  rw [if_neg notShort, nak.good]
  simp only [forced]
  unfold packetStage
  rw [if_neg (fun both => notAck both.1),
    if_neg (fun both => notGeneric both.1), if_neg notGeneric,
    if_neg (by rw [nak.rtyp]; decide), if_neg (by rw [nak.rtyp]; decide)]
  by_cases file : s.k.what = .send
  · rw [if_pos file, if_pos file]
    unfold sendStage
    rw [if_pos notAck]
    dsimp only
    rw [if_neg (occupied buf), nak.rseq]
  · rw [if_neg file, if_neg file]

/--
A NAK for the outstanding packet is answered by that packet, and by nothing
else, exactly when a file is sent and the transmission succeeds.
-/
theorem nak_retransmits_iff
    (io : Io ω)
    {s : Sys ω}
    (reachable : Reachable io s)
    (received : s.k.doRxd = true)
    (sending : IsSending s.k.state)
    {seq : Int}
    (outstanding : Outstanding seq s.k)
    (mayRetry : MayRetry s.k)
    {len : Int}
    {p : Rcvd}
    {buf : List UInt8}
    (nak : ValidNak seq s.k len p buf)
    (msg : List UInt8) :
    Retransmitted io s (kermit io .run len msg s) ↔
      s.k.what = .send ∧
        (io.txd s.w (slotPacket (s.k.win.opktinfo 0))).1 = xOk := by
  have wf := reachable_wf reachable
  have full := outstanding.nonempty
  have busy : Busy { s with k.ipktbuf := buf }.k :=
    ⟨wf.scratch ⟨rfl, rfl, rfl, rfl, rfl, rfl, rfl, rfl, rfl, rfl, rfl⟩ io,
      full⟩
  rw [kermit_nak wf received sending full nak msg]
  by_cases file : s.k.what = .send
  · rw [if_pos file]
    obtain ⟨rc, same, sent⟩ :=
      resend_outstanding busy.wf
        (⟨outstanding.number, outstanding.lower, outstanding.mapped, full,
          outstanding.fits⟩ : Outstanding seq { s with k.ipktbuf := buf }.k)
        mayRetry io
    constructor
    · intro answered
      exact ⟨file, rc.symm.trans answered.rc⟩
    · rintro ⟨-, transmitted⟩
      exact ⟨rc.trans transmitted, sent, same.state, same.par, same.filelist⟩
  · rw [if_neg file]
    constructor
    · intro answered
      have missed :
          Missed { s with k.ipktbuf := buf }
            (stateStage io msg p { s with k.ipktbuf := buf }) :=
        missed_stateStage busy sending msg p
      exact absurd answered
        (Missed.not_retransmitted (s := s) missed)
    · rintro ⟨sendsFile, -⟩
      exact absurd sendsFile file

/-- The client of a request has sent a NAK for the S packet. -/
def nakkedSys
    {σ : Type}
    (os : Os σ)
    (outside : σ)
    (typ : UInt8)
    (data : List UInt8) : Sys (Unix σ) :=
  receive (packetOf (ch 'N') 0 [])
    (handled os (packetOf typ 0 data) (idleServer os outside))

theorem nakkedSys_reachable
    {σ : Type}
    (os : Os σ)
    (outside : σ)
    (typ : UInt8)
    (data : List UInt8) :
    Reachable (unixio os) (nakkedSys os outside typ data) :=
  .receive _ (handled_reachable _ (idleServer_reachable os outside))

/-- The NAK as the parser reads it. -/
def nakRcvd : Rcvd where
  rtyp := ch 'N'
  rseq := 0
  pdf := 3
  datalen := 0
  ackText := none

theorem nak_retransmits_iff_file :
    Retransmitted (unixio fileOs) (nakkedSys fileOs [] (ch 'R') (lit "f"))
        (kermit (unixio fileOs) .run 4 []
          (nakkedSys fileOs [] (ch 'R') (lit "f"))) ↔
      (nakkedSys fileOs [] (ch 'R') (lit "f")).k.what = .send ∧
        ((unixio fileOs).txd (nakkedSys fileOs [] (ch 'R') (lit "f")).w
          (slotPacket ((nakkedSys fileOs [] (ch 'R')
            (lit "f")).k.win.opktinfo 0))).1 = xOk := by
  have nak :
      ValidNak 0 (nakkedSys fileOs [] (ch 'R') (lit "f")).k 4 nakRcvd
        (poke (nakkedSys fileOs [] (ch 'R') (lit "f")).k.ipktbuf 3 [0]) :=
    ⟨by decide, by decide, rfl, rfl⟩
  exact nak_retransmits_iff (unixio fileOs)
    (nakkedSys_reachable fileOs [] (ch 'R') (lit "f")) (by decide)
    (Or.inl (by decide))
    (show Outstanding 0 (nakkedSys fileOs [] (ch 'R') (lit "f")).k from
      ⟨by decide, by decide, by decide, by decide, by decide⟩)
    (by decide) nak []

/--
The client asks for a listing and sends a NAK for S: the server opens the name
as a file and gives up.
-/
theorem listing_nak_not_retransmitted :
    Reachable (unixio idleOs) (nakkedSys idleOs () (ch 'G') (lit "D")) ∧
      (nakkedSys idleOs () (ch 'G') (lit "D")).k.doRxd = true ∧
      IsSending (nakkedSys idleOs () (ch 'G') (lit "D")).k.state ∧
      (nakkedSys idleOs () (ch 'G') (lit "D")).k.what = .dir ∧
      Outstanding 0 (nakkedSys idleOs () (ch 'G') (lit "D")).k ∧
      MayRetry (nakkedSys idleOs () (ch 'G') (lit "D")).k ∧
      (∃ p buf,
        ValidNak 0 (nakkedSys idleOs () (ch 'G') (lit "D")).k 4 p buf) ∧
      (kermit (unixio idleOs) .run 4 []
        (nakkedSys idleOs () (ch 'G') (lit "D"))).1 = xError ∧
      ¬ Retransmitted (unixio idleOs)
        (nakkedSys idleOs () (ch 'G') (lit "D"))
        (kermit (unixio idleOs) .run 4 []
          (nakkedSys idleOs () (ch 'G') (lit "D"))) := by
  have rc :
      (kermit (unixio idleOs) .run 4 []
        (nakkedSys idleOs () (ch 'G') (lit "D"))).1 = xError := by
    decide
  have nak :
      ValidNak 0 (nakkedSys idleOs () (ch 'G') (lit "D")).k 4 nakRcvd
        (poke (nakkedSys idleOs () (ch 'G') (lit "D")).k.ipktbuf 3 [0]) :=
    ⟨by decide, by decide, rfl, rfl⟩
  refine
    ⟨nakkedSys_reachable idleOs () (ch 'G') (lit "D"), by decide,
      Or.inl (by decide), by decide,
      ⟨by decide, by decide, by decide, by decide, by decide⟩,
      by decide, ⟨nakRcvd, _, nak⟩, rc, ?_⟩
  intro answered
  have fine := answered.rc
  rw [rc] at fine
  exact absurd fine (by decide)

end Slate106.Kermit
