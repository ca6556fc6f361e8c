import Slate106.KermitAnnounce
import Slate106.KermitRequest

namespace Slate106.Kermit

open CBytes

/-!
# A GET from its request on

A server that is set up for binary files accepts an R packet after `K_REINIT`
by sending S; from then on the packets of `InGet` follow.
-/

variable {ω : Type}

/-- The data of the session when a received packet is handled. -/
def heardData
    (rx : Rx)
    (k : KData) : KData :=
  { ok2rxd k with ipktbuf := poke k.ipktbuf 0 rx.stored }

/-- What `_EK_init` and the transactions before leave for a GET. -/
structure Settled
    (k : KData) : Prop where
  noForce : k.cfg.bcta3 = 0
  oneSlot : k.cfg.wslotsMax = 1
  keeps : k.cfg.cancel = 0
  ctlq : k.cfg.sCtlq = prefixCtrl
  small : k.cfg.pMaxlen ≤ pPktlen
  noWindowing : k.par.capas &&& capSw = 0
  binary : k.par.binary = 1
  check : 1 ≤ k.par.bct ∧ k.par.bct ≤ 3
  parity : k.par.parity ≠ 0 ↔ k.par.ebqflg ≠ 0
  noString : k.enc.istring = none

theorem settled_kermitInit
    (rootPath : List UInt8) :
    Settled (kermitInit (clearedData rootPath)) where
  noForce := rfl
  oneSlot := rfl
  keeps := rfl
  ctlq := rfl
  small := Nat.le_refl _
  noWindowing := show (capLp ||| capAt) &&& capSw = 0 by decide
  binary := rfl
  check := show 1 ≤ 1 ∧ 1 ≤ 3 by decide
  parity := show (0 : Int) ≠ 0 ↔ (0 : Int) ≠ 0 from Iff.rfl
  noString := rfl

/-- A session that can send its first packet. -/
structure CanAnswer
    (k : KData) : Prop where
  ready : Ready k
  first : k.sSeq = 0
  filelist : k.filelist = [.xdatabuf]
  keeps : k.cfg.cancel = 0
  ctlq : k.cfg.sCtlq = prefixCtrl
  negotiable : Negotiable k.par
  noString : k.enc.istring = none
  counted : k.enc.sRpt = 0

theorem Settled.canAnswer
    {k : KData}
    (settled : Settled k)
    (ipktbuf xdatabuf : List UInt8) :
    CanAnswer
      { reinitData k with
        ipktbuf := ipktbuf
        enc := { (reinitData k).enc with xdatabuf := xdatabuf }
        filelist := [.xdatabuf] } := by
  have wf := Wf.reinitData settled.noForce settled.oneSlot
    settled.noWindowing
  refine ⟨⟨⟨wf.noForce, wf.oneSlot, wf.window, wf.noWindowing, wf.received,
    wf.kept, wf.mapped⟩, ?_, ?_, ?_⟩, rfl, rfl, settled.keeps, settled.ctlq,
    ⟨settled.binary, settled.check, settled.small, settled.parity, ?_⟩,
    settled.noString, rfl⟩
  · simp [reinitData, reinitPacket]
  · exact Int.le_refl 0
  · exact show (0 : Int) ≤ 63 by decide
  · exact fun flag => absurd rfl flag

theorem requestEbq_shape
    (p : Params) :
    ∃ ebq, requestEbq p = { p with ebq := ebq } := by
  unfold requestEbq
  split
  · exact ⟨_, rfl⟩
  · exact ⟨p.ebq, rfl⟩

theorem Negotiable.ebq
    {p : Params}
    (negotiable : Negotiable p)
    (ebq : UInt8) :
    Negotiable { p with ebq := ebq } :=
  ⟨negotiable.binary, negotiable.check, negotiable.small, negotiable.parity,
    negotiable.repeats⟩

/-- `rpar()` sends with block check 1 unless 3 is forced. -/
theorem rpar_unforced
    (io : Io ω)
    {s : Sys ω}
    (noForce : s.k.cfg.bcta3 = 0) :
    ∃ d,
      rpar io (ch 'S') s =
        (let asked := setBct 1 { s with k.par := requestEbq s.k.par }
        let sent := rparSend io (ch 'S') d asked
        (sent.1, setBct s.k.par.bct sent.2)) := by
  have same : (requestEbq s.k.par).bct = s.k.par.bct := by
    unfold requestEbq
    split <;> rfl
  refine ⟨initString s.k.cfg (requestEbq s.k.par), ?_⟩
  unfold rpar rparBct
  dsimp only
  rw [if_neg (not_not.mpr noForce), if_neg (not_not.mpr noForce), same]

/-- A packet was sent and is outstanding, and little else has changed. -/
structure SendsS
    (s t : Sys ω)
    (frame : List UInt8) : Prop where
  awaiting : Awaiting t.k
  held : slotPacket (t.k.win.opktinfo 0) = frame
  data :
    ∃ win ebq,
      t.k = { s.k with win := win, par := { s.k.par with ebq := ebq } }
  log : ∃ rc, t.log = .txd frame rc :: s.log

/-- The S packet of an answer has the number zero. -/
theorem rpar_answers
    (io : Io ω)
    {s : Sys ω}
    (answering : Ready s.k)
    (first : s.k.sSeq = 0) :
    ∃ par d, SendsS s (rpar io (ch 'S') s).2 (pktFrame par (ch 'S') 0 d) := by
  obtain ⟨wf, free, lower, upper⟩ := answering
  have noForce := wf.noForce
  obtain ⟨ebq, par⟩ := requestEbq_shape s.k.par
  have readyAsked : Ready
      { s.k with par := { s.k.par with ebq := ebq, bct := 1 } } :=
    ⟨⟨wf.noForce, wf.oneSlot, wf.window, wf.noWindowing, wf.received, wf.kept,
      wf.mapped⟩, free, lower, upper⟩
  obtain ⟨d, route⟩ := rpar_unforced io noForce
  rw [route]
  dsimp only
  generalize asked : setBct 1 { s with k.par := requestEbq s.k.par } = t at *
  rw [par] at asked
  have ready : Ready t.k := asked ▸ readyAsked
  have number : t.k.sSeq = 0 := by
    rw [← asked]
    exact first
  have check : t.k.par.bct = 1 := by
    rw [← asked]
    rfl
  obtain ⟨slot, -⟩ := ready.takeSslot
  obtain ⟨readyNow, win, taken⟩ := ready.takeSlot
  have route : rparSend io (ch 'S') d t =
      spkt io (ch 'S') 0 13 (some d)
        (onK (fun k => (takeSslot k).2) t) := by
    unfold rparSend
    rw [if_neg (by decide), if_pos rfl]
    dsimp only
    rw [if_neg (by rw [slot]; decide)]
    rfl
  rw [route]
  generalize onK (fun k => (takeSslot k).2) t = u at *
  have numberNow : u.k.sSeq = 0 := by
    rw [taken]
    exact number
  have checkNow : u.k.par.bct = 1 := by
    rw [taken]
    exact check
  have fits : (pktFrame u.k.par (ch 'S') u.k.sSeq
      (spktData 13 (some d))).length < pBuflen := by
    have thirteen : (spktData 13 (some d)).length = 13 :=
      List.takeD_length 13 d 0
    refine pktFrame_fits _ _ ?_
    rw [checkNow, thirteen]
    decide
  obtain ⟨win', shape, awaiting, held, -⟩ :=
    spkt_ready io (show isUnslotted (ch 'S') = false by decide) readyNow fits
  rw [numberNow] at shape held
  rw [shape]
  have wf' := awaiting.wf
  have outstanding := awaiting.outstanding
  refine ⟨_, _, ⟨⟨wf'.noForce, wf'.oneSlot, wf'.window, wf'.noWindowing,
    wf'.received, wf'.kept, wf'.mapped⟩, ⟨outstanding.number,
    outstanding.lower, outstanding.mapped, outstanding.nonempty,
    outstanding.fits⟩, awaiting.upper⟩, held, ⟨win', ebq, ?_⟩, ?_⟩
  · rw [taken, ← asked]
    rfl
  · rw [taken, ← asked]
    exact ⟨_, rfl⟩

theorem Awaiting.restarted
    {s : Sys ω}
    (awaiting : Awaiting s.k) :
    Awaiting (Kermit.restarted s).k := by
  obtain ⟨wf, outstanding, upper⟩ := awaiting
  exact ⟨⟨wf.noForce, wf.oneSlot, wf.window, wf.noWindowing, wf.received,
    wf.kept, wf.mapped⟩, ⟨outstanding.number, outstanding.lower,
    outstanding.mapped, outstanding.nonempty, outstanding.fits⟩, upper⟩

/--
A server that is set up waits for its next transaction after `K_REINIT`; when
it takes an R packet without an error, it waits for the ACK to S.
-/
theorem mainIter_requested
    (io : Io ω)
    {k : KData}
    (settled : Settled k)
    {v : MainVars ω}
    (fresh : v.sys.k = reinitData k)
    (going : v.ret = none)
    {rx : Rx}
    {p : Rcvd}
    {buf : List UInt8}
    (request : ValidRequest (heardData rx v.sys.k) rx.ret p buf)
    (accepted : (mainIter io rx v).ret = none) :
    Requested (mainIter io rx v).sys.k := by
  have wf : Wf (heardSys rx v.sys).k := by
    have wf := Wf.reinitData settled.noForce settled.oneSlot
      settled.noWindowing
    rw [← fresh] at wf
    exact ⟨wf.noForce, wf.oneSlot, wf.window, wf.noWindowing, wf.received,
      wf.kept, wf.mapped⟩
  have waits : v.sys.k.state = .rWait := by
    rw [fresh]
    rfl
  have receives : v.sys.k.what = .recv := by
    rw [fresh]
    rfl
  have received : (heardSys rx v.sys).k.doRxd = true := by
    show (ok2rxd v.sys.k).doRxd = true
    simp [ok2rxd, receives]
  have set : (heardSys rx v.sys).k.state ≠ .rNone := by
    show v.sys.k.state ≠ .rNone
    rw [waits]
    decide
  obtain ⟨session, ret⟩ := @mainIter_heard _ io _ _ going received request.long
  rw [kermit_request wf set received request] at session ret
  rcases rPacket_cases io p buf (heardSys rx v.sys) with
    ⟨failed, -⟩ | ⟨-, -, shape⟩
  · rw [failed, if_neg (by decide), if_pos rfl, accepted] at ret
    exact absurd ret (by simp)
  · have answer : CanAnswer (accessed io p buf (heardSys rx v.sys)).k := by
      have data : (accessed io p buf (heardSys rx v.sys)).k =
          { ok2rxd v.sys.k with
            ipktbuf := buf
            enc :=
              { v.sys.k.enc with xdatabuf := cstr (buf.drop p.pdf) ++ [0] }
            filelist := [.xdatabuf] } := rfl
      have ready := settled.canAnswer buf (cstr (buf.drop p.pdf) ++ [0])
      rw [data, fresh]
      obtain ⟨⟨wf, free, lower, upper⟩, first, filelist, keeps, ctlq,
        negotiable, noString, counted⟩ := ready
      exact ⟨⟨⟨wf.noForce, wf.oneSlot, wf.window, wf.noWindowing, wf.received,
        wf.kept, wf.mapped⟩, free, lower, upper⟩, first, filelist, keeps, ctlq,
        negotiable, noString, counted⟩
    obtain ⟨_, _, awaiting, -, ⟨win, ebq, data⟩, -⟩ :=
      rpar_answers io answer.ready answer.first
    rw [session, shape]
    generalize (rpar io (ch 'S') (accessed io p buf (heardSys rx v.sys))).2 =
      t at *
    generalize (accessed io p buf (heardSys rx v.sys)).k = k' at *
    refine ⟨awaiting.restarted, rfl, rfl, ?_, ?_, ?_, ?_, ?_, ?_⟩
    all_goals
      show _
      simp only [restarted, setWhat, setState, data]
    · exact answer.filelist
    · exact answer.keeps
    · exact answer.ctlq
    · exact answer.negotiable.ebq ebq
    · exact answer.noString
    · exact answer.counted

end Slate106.Kermit
