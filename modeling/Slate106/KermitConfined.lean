import Slate106.KermitReadOnly
import Slate106.KermitRequest
import Slate106.KermitTrace

namespace Slate106.Kermit

open CBytes
open PathWalk

/-!
# Whether the server stays under its root

The name of an R packet is looked for as it comes, and so is the name of a G
packet when the answer to S is not an acknowledgment.  A server that only
receives names that keep the root touches nothing outside of it; these turns
of the main loop are the only ones that depend on a name of the peer.
-/

variable {σ : Type}

/-- A session whose paths are recorded. -/
abbrev Traced
    (σ : Type) : Type :=
  Sys (Unix (σ × List (List UInt8)))

/-! ## Steps without a path -/

theorem Move.log
    {ω : Type}
    {io : Io ω}
    {s s' : Sys ω}
    (step : Move io s s') :
    s.log <:+ s'.log := by
  cases step with
  | work step =>
      obtain ⟨more, log⟩ := step.log
      exact ⟨more, log.symm⟩
  | state | what =>
      exact List.suffix_rfl

theorem Moves.log
    {ω : Type}
    {io : Io ω}
    {s s' : Sys ω}
    (steps : Moves io s s') :
    s.log <:+ s'.log := by
  induction steps with
  | refl =>
      exact List.suffix_rfl
  | tail _ step inductionHypothesis =>
      exact inductionHypothesis.trans step.log

/-- No call with a path has been made. -/
def Quiet
    {ω : Type}
    (s s' : Sys ω) : Prop :=
  s'.log.filter pathCall = s.log.filter pathCall

theorem quiet_of_asks
    {ω : Type}
    {s s' : Sys ω}
    (same : asks s' = asks s) :
    Quiet s s' :=
  congrArg Prod.snd same

/-- Between two sessions without a call with a path there is none either. -/
theorem Quiet.between
    {ω : Type}
    {s t s' : Sys ω}
    (quiet : Quiet s s')
    (first : s.log <:+ t.log)
    (second : t.log <:+ s'.log) :
    Quiet s t ∧ Quiet t s' := by
  have before := first.filter pathCall
  have after := second.filter pathCall
  have same : t.log.filter pathCall = s.log.filter pathCall := by
    refine (before.eq_of_length_le ?_).symm
    rw [← quiet]
    exact after.length_le
  exact ⟨same, quiet.trans same.symm⟩

theorem not_quiet
    {ω : Type}
    {s s' : Sys ω}
    {call : Call}
    (log : s'.log = call :: s.log)
    (path : pathCall call = true) :
    ¬ Quiet s s' := by
  intro quiet
  have lengths := congrArg List.length quiet
  rw [log, List.filter_cons_of_pos path, List.length_cons] at lengths
  omega

section Steps

variable {os : Os σ}
variable {s s' : Traced σ}
variable {place : Place}

theorem Chore.confined
    (step : Chore (unixio (tracing os)) s s')
    (quiet : Quiet s s')
    (confined : Confined place s.w) :
    Confined place s'.w := by
  cases step with
  | scratch same =>
      rw [same.w]
      exact confined
  | txd | finfo | params =>
      exact confined.same rfl rfl
  | openf name mode filesize =>
      have writes : ¬ mode = 1 := by
        intro reads
        exact not_quiet rfl (by simp [pathCall, reads]) quiet
      have kept : (kopenfile (tracing os) s.w s.k name mode
          filesize).2.2.2 = s.w := by
        unfold kopenfile
        dsimp only
        rw [if_neg writes]
      exact (congrArg (Confined place) kept).mpr confined
  | readf =>
      obtain ⟨asked, calls⟩ := @kreadfile_trace _ os s.w s.k
      exact confined.same asked (congrArg _ calls)
  | accessf | getdirdata =>
      exact absurd quiet (not_quiet rfl rfl)
  | closef c mode =>
      obtain ⟨asked, calls⟩ :=
        @kclosefile_trace _ os s.w s.k
          ((s.k.filename.map (deref s)).getD []) c mode
      exact confined.same asked calls

theorem Move.confined
    (step : Move (unixio (tracing os)) s s')
    (quiet : Quiet s s')
    (confined : Confined place s.w) :
    Confined place s'.w := by
  cases step with
  | state | what =>
      exact confined
  | work step =>
      cases step with
      | chore step =>
          exact step.confined quiet confined
      | txd =>
          exact confined.same rfl rfl
      | writef bytes =>
          obtain ⟨asked, calls⟩ := @kwritefile_trace _ os s.w s.k bytes
          exact confined.same asked calls
      | _ =>
          exact confined

/-- Steps without a call with a path touch nothing. -/
theorem Moves.confined
    (steps : Moves (unixio (tracing os)) s s')
    (quiet : Quiet s s')
    (confined : Confined place s.w) :
    Confined place s'.w := by
  induction steps with
  | refl =>
      exact confined
  | tail before step inductionHypothesis =>
      obtain ⟨first, second⟩ := quiet.between (Moves.log before) step.log
      exact step.confined second (inductionHypothesis first)

theorem Ran.confined
    {result : Int × Traced σ}
    (ran : Ran (unixio (tracing os)) s result)
    (quiet : Quiet s result.2)
    (confined : Confined place s.w) :
    Confined place result.2.w := by
  rcases ran.steps with steps | ⟨done, t, steps, last⟩
  · exact steps.confined quiet confined
  · rw [last] at quiet ⊢
    exact steps.confined quiet confined

end Steps

/-! ## The names that are still to be opened -/

/-- The slot is taken in these states while a listing is sent. -/
structure AtListing
    (k : KData) : Prop where
  states :
    k.state = .sInit ∨ k.state = .sText ∨ k.state = .sData ∨
      k.state = .sEof ∨ k.state = .sEot
  full :
    k.state = .sInit ∨ k.state = .sData ∨ k.state = .sEof →
      1 ≤ (k.win.opktinfo 0).len

/-- What the names in the file list are, in the turns of a server. -/
inductive Names
    (place : Place)
    (k : KData) : Prop where
  | none
      (nothing : k.filelist = [])
  | asked
      (listed : k.filelist = [.xdatabuf])
      (sends : k.what = .send)
      (initial : k.state = .sInit)
      (full : 1 ≤ (k.win.opktinfo 0).len)
      (keeps : place.Keeps (cstr k.enc.xdatabuf))
  | listing
      (listed : k.filelist = [.xdatabuf])
      (lists : k.what = .dir)
      (phase : AtListing k)

/-- A turn touched nothing outside, and if it goes on, nor will it. -/
structure Answers
    (place : Place)
    (result : Int × Traced σ) : Prop where
  confined : Confined place result.2.w
  names :
    result.1 ≠ xDone → result.1 ≠ xError → Names place result.2.k

section Answers

variable {os : Os σ}
variable {s t : Traced σ}
variable {place : Place}

/-- Without a name left, nothing is opened that is not asked for. -/
theorem answers_none
    {result : Int × Traced σ}
    (ran : Ran (unixio (tracing os)) s result)
    (same : asks result.2 = asks s)
    (confined : Confined place s.w)
    (nothing : s.k.filelist = []) :
    Answers place result :=
  ⟨ran.confined (quiet_of_asks same) confined,
    fun _ _ => .none ((congrArg Prod.fst same).trans nothing)⟩

/-- A turn that ends the session. -/
theorem answers_end
    {result : Int × Traced σ}
    (ran : Ran (unixio (tracing os)) s result)
    (quiet : Quiet s result.2)
    (confined : Confined place s.w)
    (ends : result.1 = xDone ∨ result.1 = xError) :
    Answers place result :=
  ⟨ran.confined quiet confined,
    fun notDone notError => absurd ends (not_or.mpr ⟨notDone, notError⟩)⟩

/-- An error that is told to the peer ends the session. -/
theorem answers_told
    {rc : Int}
    (told : Works (unixio (tracing os)) s t)
    (quiet : asks t = asks s)
    (confined : Confined place s.w)
    (ends : rc = xDone ∨ rc = xError) :
    Answers place (rc, t) := by
  have ran : Ran (unixio (tracing os)) s (rc, t) := told.ran
  exact answers_end ran (quiet_of_asks quiet) confined ends

/-- The names only depend on these fields. -/
theorem Names.same
    {k k' : KData}
    (names : Names place k)
    (filelist : k'.filelist = k.filelist)
    (what : k'.what = k.what)
    (state : k'.state = k.state)
    (len : (k'.win.opktinfo 0).len = (k.win.opktinfo 0).len)
    (xdatabuf : k'.enc.xdatabuf = k.enc.xdatabuf) :
    Names place k' := by
  cases names with
  | none nothing =>
      exact .none (filelist.trans nothing)
  | asked listed sends initial full keeps =>
      refine .asked (filelist.trans listed) (what.trans sends)
        (state.trans initial) (len ▸ full) ?_
      rw [xdatabuf]
      exact keeps
  | listing listed lists phase =>
      refine .listing (filelist.trans listed) (what.trans lists) ⟨?_, ?_⟩
      · rw [state]
        exact phase.states
      · rw [state, len]
        exact phase.full

theorem Names.undisturbed
    {s' : Traced σ}
    (names : Names place s.k)
    (same : Undisturbed s s') :
    Names place s'.k := by
  obtain ⟨rtr, slot⟩ := same.opktinfo 0
  refine names.same same.filelist same.what same.state ?_ ?_
  · rw [slot]
  · rw [same.enc]

/-- A retransmission, whatever is returned afterwards. -/
theorem answers_resend
    (wf : Wf s.k)
    (confined : Confined place s.w)
    (names : Names place s.k)
    (seq rc : Int) :
    Answers place (rc, (resend (unixio (tracing os)) seq s).2) := by
  have steps : Works (unixio (tracing os)) s _ := works_resend seq s
  refine ⟨steps.moves.confined (quiet_of_asks (by simp)) confined, ?_⟩
  exact fun _ _ => names.undisturbed (resend_undisturbed wf _ seq).1

/-! ## Opening a file -/

/-- The session after `openf` has looked at the path of a name. -/
theorem Confined.opened
    (closed : place.Closed)
    (root : s.k.cfg.rootpath = place.root)
    (confined : Confined place s.w)
    {name : List UInt8}
    (keeps : place.Keeps name)
    (filesize : Int) :
    Confined place
      (callOpenf (unixio (tracing os)) name 1 filesize s).2.w :=
  show Confined place
    (Kermit.kopenfile (tracing os) s.w s.k name 1 filesize).2.2.2 from
      confined.kopenfile closed root (fun _ => keeps) filesize

/-- The last name is opened. -/
theorem answers_sendFile
    (closed : place.Closed)
    (root : s.k.cfg.rootpath = place.root)
    (confined : Confined place s.w)
    {name : StrRef}
    (keeps : place.Keeps (deref (takeName name [] s) name)) :
    Answers place (sendFile (unixio (tracing os)) name [] s) := by
  have named : Confined place (takeName name [] s).w := confined
  have begun :
      (callOpenf (unixio (tracing os)) (deref (takeName name [] s) name) 1
        (takeName name [] s).r.filesize
        (takeName name [] s)).2.k.filelist = [] :=
    rfl
  have opened :
      Confined place
        (callOpenf (unixio (tracing os)) (deref (takeName name [] s) name) 1
          (takeName name [] s).r.filesize (takeName name [] s)).2.w :=
    named.opened closed root keeps (takeName name [] s).r.filesize
  unfold sendFile
  dsimp only
  generalize
    callOpenf (unixio (tracing os)) (deref (takeName name [] s) name) 1
      (takeName name [] s).r.filesize (takeName name [] s) = first
    at begun opened
  split
  · exact ⟨opened, fun _ _ => .none begun⟩
  · have packed : Works (unixio (tracing os)) first.2
        (onK (fun k => (takeSslot k).2)
          (encstr (unixio (tracing os)) name first.2).2) :=
      (works_encstr name first.2).and (works_takeSslot _)
    have same : asks
        (onK (fun k => (takeSslot k).2)
          (encstr (unixio (tracing os)) name first.2).2) = asks first.2 := by
      simp
    generalize
      onK (fun k => (takeSslot k).2)
        (encstr (unixio (tracing os)) name first.2).2 = second
      at packed same
    have sent : Works (unixio (tracing os)) first.2 _ :=
      packed.and (works_spkt (ch 'F') second.k.sSeq (-1)
        (some (xdataMem second.k)) second)
    have kept : asks
        (spkt (unixio (tracing os)) (ch 'F') second.k.sSeq (-1)
          (some (xdataMem second.k)) second).2 = asks first.2 := by
      simp [same]
    generalize
      spkt (unixio (tracing os)) (ch 'F') second.k.sSeq (-1)
        (some (xdataMem second.k)) second = last at sent kept
    split
    · exact answers_none sent.ran kept opened begun
    · have steps : Moves (unixio (tracing os)) first.2
          (awaitSent (setState .sFile (resetSofar last.2))).2 :=
        ((sent.and (works_response _ _)).moves.to
          (by decide) (by decide)).and (works_awaitSent _).moves
      exact answers_none steps.ran kept opened begun

/-- The next file of a server: the one that was asked for, or none. -/
theorem answers_nextFile
    (closed : place.Closed)
    (root : s.k.cfg.rootpath = place.root)
    (confined : Confined place s.w)
    (names : s.k.filelist = [] ∨
      (s.k.filelist = [.xdatabuf] ∧ place.Keeps (cstr s.k.enc.xdatabuf))) :
    Answers place (nextFile (unixio (tracing os)) s) := by
  rcases names with nothing | ⟨listed, keeps⟩
  · exact answers_none (moves_nextFile s).ran (asks_nextFile nothing)
      confined nothing
  · have next : (onK nxtpkt s).k.filelist = [.xdatabuf] := listed
    unfold nextFile
    dsimp only
    rw [next]
    exact answers_sendFile (s := onK nxtpkt s) closed root confined keeps

/-- The names as the state switcher finds them. -/
inductive Pending
    (place : Place)
    (k : KData) : Prop where
  | none
      (nothing : k.filelist = [])
  | next
      (listed : k.filelist = [.xdatabuf])
      (initial : k.state = .sInit)
      (keeps : place.Keeps (cstr k.enc.xdatabuf))
  | listing
      (listed : k.filelist = [.xdatabuf])
      (lists : k.what = .dir)
      (notInit : k.state ≠ .sInit)
      (phase : AtListing k)

/-- A packet other than an ACK while a listing is sent, after S. -/
theorem answers_listing
    (wf : Wf s.k)
    (confined : Confined place s.w)
    (listed : s.k.filelist = [.xdatabuf])
    (lists : s.k.what = .dir)
    (notInit : s.k.state ≠ .sInit)
    (phase : AtListing s.k)
    (msg : List UInt8)
    (p : Rcvd) :
    Answers place (stateStage (unixio (tracing os)) msg p s) := by
  have same : Answers place (xOk, s) :=
    ⟨confined, fun _ _ => .listing listed lists phase⟩
  unfold stateStage
  rcases phase.states with state | state | state | state | state
  · exact absurd state notInit
  · have told : Works (unixio (tracing os)) s _ := works_epkt msg s
    rw [state]
    exact answers_told told (by simp) confined (.inr rfl)
  · -- The only slot is taken, so that there is no place for more data.
    have full := phase.full (.inr (.inl state))
    have notAttr : ¬ s.k.state = .sAttr := by
      rw [state]
      exact fun attr => nomatch attr
    rw [state]
    unfold afterData
    dsimp only
    rw [if_neg notAttr, busy_getSslot ⟨wf, full⟩,
      if_pos (show (-1 : Int) < 0 by decide)]
    simpa only [onK, busy_getSslot ⟨wf, full⟩] using same
  · have full := phase.full (.inr (.inr state))
    rw [state]
    dsimp only
    rw [nusedSslots_full wf.window (by omega), if_pos (by decide)]
    exact same
  · have reported : Works (unixio (tracing os)) s _ := works_reportFile .get s
    rw [state]
    exact answers_told reported (by simp) confined (.inl rfl)

/-- The state switcher opens nothing but the name that was asked for. -/
theorem answers_stateStage
    (closed : place.Closed)
    (root : s.k.cfg.rootpath = place.root)
    (wf : Wf s.k)
    (notData : s.k.state ≠ .rData)
    (confined : Confined place s.w)
    (pending : Pending place s.k)
    {p : Rcvd}
    (text : p.rtyp = ch 'D' → Short p s)
    (msg : List UInt8) :
    Answers place (stateStage (unixio (tracing os)) msg p s) := by
  cases pending with
  | next listed initial keeps =>
      unfold stateStage
      rw [initial]
      exact answers_nextFile (s := onK (spar p.pdf p.datalen) s) closed root
        confined (.inr ⟨listed, keeps⟩)
  | listing listed lists notInit phase =>
      exact answers_listing wf confined listed lists notInit phase msg p
  | none nothing =>
      have steps : Moves (unixio (tracing os)) s
          (stateStage (unixio (tracing os)) msg p s).2 :=
        moves_stateStage text msg
      refine answers_none steps.ran ?_ confined nothing
      unfold stateStage
      split
      · exact asks_nextFile nothing
      · split
        · rfl
        · exact asks_nextFile nothing
      · simp
      · simp
      · simp
      · simp
      · simp
      · simp
      · exact asks_inAttr (tracing os) p s
      · rename_i receiving
        exact absurd receiving notData
      · simp

/-! ## Requests -/

/-- S goes out for the name in `xdatabuf`. -/
theorem answers_answerRequest
    (wf : Wf s.k)
    (confined : Confined place s.w)
    {what : What}
    (kind : what = .dir ∨
      (what = .send ∧ place.Keeps (cstr s.k.enc.xdatabuf))) :
    Answers place (answerRequest (unixio (tracing os)) what s) := by
  let listed : Traced σ := { s with k.filelist := [.xdatabuf] }
  have listedWf : Wf listed.k :=
    ⟨wf.noForce, wf.oneSlot, wf.window, wf.noWindowing, wf.received,
      wf.kept, wf.mapped⟩
  have steps : Moves (unixio (tracing os)) s _ := moves_answerRequest what s
  have same : namedAsks (rpar (unixio (tracing os)) (ch 'S') listed).2 =
      namedAsks listed :=
    namedAsks_rpar _ _
  have asked : Quiet s (rpar (unixio (tracing os)) (ch 'S') listed).2 :=
    quiet_of_asks (s := listed) (asks_of_named same)
  have kept (sent : (rpar (unixio (tracing os)) (ch 'S') listed).1 = xOk) :
      1 ≤ ((rpar (unixio (tracing os)) (ch 'S') listed).2.k.win.opktinfo
        0).len := by
    by_cases full : 1 ≤ (listed.k.win.opktinfo 0).len
    · rw [rpar_busy ⟨listedWf, full⟩]
      exact full
    · exact rpar_kept listedWf (Int.not_le.mp full) sent
  have result : answerRequest (unixio (tracing os)) what s =
      if (rpar (unixio (tracing os)) (ch 'S') listed).1 ≠ xOk then
        (xError,
          epkt (unixio (tracing os)) (lit "Send S packet Failed")
            (rpar (unixio (tracing os)) (ch 'S') listed).2)
      else
        (xOk,
          setWhat what
            (setState .sInit
              (rpar (unixio (tracing os)) (ch 'S') listed).2)) :=
    rfl
  rw [result] at steps ⊢
  generalize rpar (unixio (tracing os)) (ch 'S') listed = sent
    at same asked kept steps
  split at steps
  · rw [if_pos ‹_›]
    refine answers_end steps.ran ?_ confined (.inr rfl)
    exact (quiet_of_asks (asks_epkt _ _)).trans asked
  · rename_i accepted
    rw [if_neg accepted]
    refine ⟨steps.confined asked confined, fun _ _ => ?_⟩
    have full := kept (not_not.mp accepted)
    have filelist : sent.2.k.filelist = [.xdatabuf] :=
      congrArg (fun named => named.2.1) same
    rcases kind with lists | ⟨sends, keeps⟩
    · exact .listing filelist lists ⟨.inl rfl, fun _ => full⟩
    · refine .asked filelist sends rfl full ?_
      have name : sent.2.k.enc.xdatabuf = s.k.enc.xdatabuf :=
        congrArg Prod.fst same
      exact (congrArg place.Keeps (congrArg cstr name)).mpr keeps

/-- A G packet: nothing is opened yet. -/
theorem answers_gPacket
    (wf : Wf s.k)
    (confined : Confined place s.w)
    (p : Rcvd) :
    Answers place (gPacket (unixio (tracing os)) p s) := by
  have decoded : Works (unixio (tracing os)) s _ :=
    works_decodeName (pdfMem p s) s
  have looked : Confined place (decodeName (pdfMem p s) s).2.w := confined
  unfold gPacket
  dsimp only
  split
  · have told := decoded.and (works_epkt (lit "Unknown generic command") _)
    exact answers_told told (by simp) confined (.inr rfl)
  · generalize (decodeName (pdfMem p s) s).2 = t at decoded looked
    generalize ((cstr (pdfMem p t)).drop 1).takeWhile (· ≠ ch ' ') = name
    have noted := decoded.and (works_noteRequest .dir name t)
    exact answers_answerRequest (noted.wf wf) looked (.inl rfl)

/-- An R packet: the name is looked for. -/
theorem answers_rPacket
    (closed : place.Closed)
    (root : s.k.cfg.rootpath = place.root)
    (wf : Wf s.k)
    (confined : Confined place s.w)
    {p : Rcvd}
    (keeps : place.Keeps (cstr (pdfMem p s))) :
    Answers place (rPacket (unixio (tracing os)) p s) := by
  let name := cstr (pdfMem p s)
  let noted := noteRequest .get name (decodeName (pdfMem p s) s).2
  have looked : Confined place
      (callAccessf (unixio (tracing os)) name noted).2.w :=
    confined.kaccessfile closed root keeps
  have named : cstr (callAccessf (unixio (tracing os)) name
      noted).2.k.enc.xdatabuf = name :=
    cstr_append_zero (zero_notMem_cstr _) []
  have accessed : Works (unixio (tracing os)) s
      (callAccessf (unixio (tracing os)) name noted).2 :=
    ((works_decodeName (pdfMem p s) s).and
      (works_noteRequest .get name _)).then (.accessf name noted)
  have result : rPacket (unixio (tracing os)) p s =
      let access := callAccessf (unixio (tracing os)) name noted
      if access.1 ≠ xOk then
        (xError,
          { epkt (unixio (tracing os))
              (lit "The file specified in GET parameters is not accessible")
              access.2 with
            r.arg := some .xdatabuf })
      else if (answerRequest (unixio (tracing os)) .send access.2).1 ≠ xOk
      then answerRequest (unixio (tracing os)) .send access.2
      else
        (xOk,
          { (answerRequest (unixio (tracing os)) .send access.2).2 with
            k.recvget := 1 }) :=
    rfl
  rw [result]
  generalize callAccessf (unixio (tracing os)) name noted = access
    at looked named accessed
  have answered : Answers place
      (answerRequest (unixio (tracing os)) .send access.2) := by
    refine answers_answerRequest (accessed.wf wf) looked (.inr ⟨rfl, ?_⟩)
    rw [named]
    exact keeps
  dsimp only
  generalize answerRequest (unixio (tracing os)) .send access.2 = sent
    at answered
  split
  · have told : Works (unixio (tracing os)) access.2
        (epkt (unixio (tracing os)) _ access.2) :=
      works_epkt
        (lit "The file specified in GET parameters is not accessible") _
    have asked := @asks_epkt _ (unixio (tracing os))
      (lit "The file specified in GET parameters is not accessible") access.2
    generalize epkt (unixio (tracing os)) _ access.2 = failed at told asked ⊢
    exact answers_told (told.and (works_response _ failed)) asked looked
      (.inr rfl)
  · split
    · exact answered
    · rename_i accepted
      refine ⟨answered.confined, fun _ _ => ?_⟩
      have fine := not_not.mp accepted
      have names := answered.names
        (by rw [fine]; decide) (by rw [fine]; decide)
      cases names with
      | none nothing =>
          exact .none nothing
      | asked listed sends initial full keeps =>
          exact .asked listed sends initial full keeps
      | listing listed lists phase =>
          exact .listing listed lists ⟨phase.states, phase.full⟩

/-! ## Serving a listing -/

theorem emptyFrame_short
    (par : Params)
    (typ : UInt8)
    (seq : Int) :
    (pktFrame par typ seq []).length < pBuflen :=
  Nat.lt_of_le_of_lt (length_pktFrame_le par typ seq []) (by decide)

/-- A packet without data is in the slot, even if it was not sent. -/
theorem spkt_filled
    {ω : Type}
    {io : Io ω}
    {t : Sys ω}
    (wf : Wf t.k)
    {typ : UInt8}
    (kind : isUnslotted typ = false)
    {seq : Int}
    (lower : 0 ≤ seq)
    (upper : seq ≤ 63) :
    1 ≤ ((spkt io typ seq 0 none t).2.k.win.opktinfo 0).len := by
  by_cases full : 1 ≤ (t.k.win.opktinfo 0).len
  · have taken : ¬ 0 ≤ (getSslot t.k).1 := by
      rw [getSslot_full wf.window full]
      exact show ¬ (0 : Int) ≤ -1 by decide
    rw [spkt, spktWith_full io _ kind lower upper taken,
      getSslot_full wf.window full]
    exact full
  · have slot : (getSslot t.k).1 = 0 := by
      rw [getSslot_free wf.window (by omega)]
    have fits :
        (sentFrame typ seq (spktData 0 none) t.k).length < pBuflen := by
      rw [sentFrame, spktData]
      exact emptyFrame_short _ typ seq
    rw [spkt_slotted io kind lower upper (by omega) fits]
    simp only [callTxd, loaded, filled, slot, put_same, sentFrame, pktFrame,
      List.length_cons]
    omega

/-- The file list holds the name of one request, or nothing. -/
def Listed
    (k : KData) : Prop :=
  k.filelist = [] ∨ k.filelist = [.xdatabuf]

theorem Names.listed
    {k : KData}
    (names : Names place k) :
    Listed k := by
  cases names with
  | none nothing =>
      exact .inl nothing
  | asked listed =>
      exact .inr listed
  | listing listed =>
      exact .inr listed

/-- While a listing is sent, the file list stays as it is. -/
theorem Listed.names
    (listed : Listed s.k)
    (lists : s.k.what = .dir)
    (filelist : t.k.filelist = s.k.filelist)
    (what : t.k.what = s.k.what)
    (phase : AtListing t.k) :
    Names place t.k := by
  rcases listed with nothing | listed
  · exact .none (filelist.trans nothing)
  · exact .listing (filelist.trans listed) (what.trans lists) phase

/-- An acknowledgment is followed by the next packet of the listing. -/
theorem answers_listed
    {result : Int × Traced σ}
    (steps : Moves (unixio (tracing os)) s result.2)
    (same : asks result.2 = asks s)
    (confined : Confined place s.w)
    (lists : s.k.what = .dir)
    (listed : Listed s.k)
    (goesOn : result.1 ≠ xError →
      result.2.k.what = s.k.what ∧ AtListing result.2.k) :
    Answers place result := by
  refine ⟨steps.confined (quiet_of_asks same) confined, ?_⟩
  intro _ notError
  obtain ⟨what, phase⟩ := goesOn notError
  exact listed.names lists (congrArg Prod.fst same) what phase

/-- In these states of a listing it does not matter whether the slot is free. -/
theorem atListing_free
    {k : KData}
    (state : k.state = .sText ∨ k.state = .sEot) :
    AtListing k := by
  rcases state with state | state
  · refine ⟨.inr (.inl state), ?_⟩
    rw [state]
    rintro (initial | data | eof)
    all_goals contradiction
  · refine ⟨.inr (.inr (.inr (.inr state))), ?_⟩
    rw [state]
    rintro (initial | data | eof)
    all_goals contradiction

/-- S is acknowledged: X is out, or the session is over. -/
theorem answers_dirAckInit
    (confined : Confined place s.w)
    (lists : s.k.what = .dir)
    (listed : Listed s.k) :
    Answers place (dirAckInit (unixio (tracing os)) s) := by
  refine answers_listed (moves_dirAckInit s) (asks_dirAckInit s) confined
    lists listed ?_
  have titled : Works (unixio (tracing os)) s (putTitle s) :=
    works_scratch ⟨rfl, rfl, rfl, rfl, rfl, rfl, rfl, rfl, rfl, rfl, rfl⟩
  have slotted := (titled.and (works_encstr .obuf _)).and (works_listSlot _)
  have control := (slotted.and (works_spktXdata (ch 'X') _)).control
  unfold dirAckInit
  dsimp only
  split
  · exact fun notError => absurd rfl notError
  · exact fun _ => ⟨control.what, atListing_free (.inl rfl)⟩

/-- Z is acknowledged: B is out, or the session is over. -/
theorem answers_dirAckEof
    (confined : Confined place s.w)
    (lists : s.k.what = .dir)
    (listed : Listed s.k) :
    Answers place (dirAckEof (unixio (tracing os)) s) := by
  refine answers_listed (moves_dirAckEof s) (asks_dirAckEof s) confined
    lists listed ?_
  have slotted : Works (unixio (tracing os)) s _ := works_nextSlot s
  unfold dirAckEof
  dsimp only
  generalize onK (fun k => (takeSslot (nxtpkt k)).2) s = t at slotted
  have control := (slotted.and (works_spkt (ch 'B') t.k.sSeq 0 none t)).control
  split
  · exact fun notError => absurd rfl notError
  · exact fun _ => ⟨control.what, atListing_free (.inr rfl)⟩

/-- D is acknowledged: Z is in the slot, even if it was not sent. -/
theorem answers_dirAckData
    (wf : Wf s.k)
    (confined : Confined place s.w)
    (inData : s.k.state = .sData)
    (lists : s.k.what = .dir)
    (listed : Listed s.k) :
    Answers place (dirAckData (unixio (tracing os)) s) := by
  refine answers_listed (moves_dirAckData s) (asks_dirAckData s) confined
    lists listed ?_
  have slotted : Works (unixio (tracing os)) s _ := works_nextSlot s
  have lower : 0 ≤ (onK (fun k => (takeSslot (nxtpkt k)).2) s).k.sSeq := by
    simp only [onK]
    rw [takeSslot_shape]
    exact Int.emod_nonneg _ (by decide)
  have upper : (onK (fun k => (takeSslot (nxtpkt k)).2) s).k.sSeq ≤ 63 := by
    simp only [onK]
    rw [takeSslot_shape]
    exact Int.le_of_lt_add_one (Int.emod_lt_of_pos _ (by decide))
  unfold dirAckData
  dsimp only
  generalize onK (fun k => (takeSslot (nxtpkt k)).2) s = t
    at slotted lower upper
  have control := (slotted.and (works_spkt (ch 'Z') t.k.sSeq 0 none t)).control
  have full := @spkt_filled _ (unixio (tracing os)) t (slotted.wf wf) (ch 'Z')
    (by decide) t.k.sSeq lower upper
  generalize spkt (unixio (tracing os)) (ch 'Z') t.k.sSeq 0 none t = sent
    at control full
  split
  · exact fun _ => ⟨control.what, .inr (.inr (.inr (.inl rfl))), fun _ => full⟩
  · intro _
    have told : Chores (unixio (tracing os)) sent.2 _ :=
      chores_epkt (lit "Cannot send Z packet for end of data") sent.2
    have state := told.works.control.state.trans control.state
    refine ⟨told.works.control.what.trans control.what,
      .inr (.inr (.inl (state.trans inData))), fun _ => ?_⟩
    rw [told.window.opktinfo]
    exact full

/-- X is acknowledged: the directory under the root is listed. -/
theorem answers_dirAckText
    (closed : place.Closed)
    (directories : Directories os)
    (root : s.k.cfg.rootpath = place.root)
    (wf : Wf s.k)
    (confined : Confined place s.w)
    (texted : s.k.state = .sText)
    (lists : s.k.what = .dir)
    (listed : Listed s.k)
    (p : Rcvd) :
    Answers place (dirAckText (unixio (tracing os)) p s) := by
  have noted : Works (unixio (tracing os)) s
      (noteDirname p (onK (fun k => (takeSslot k).2) s)) :=
    (works_takeSslot s).and (works_scratch
      ⟨rfl, rfl, rfl, rfl, rfl, rfl, rfl, rfl, rfl, rfl, rfl⟩)
  have quiet : asks (noteDirname p (onK (fun k => (takeSslot k).2) s)) =
      asks s :=
    asks_takeSslot s
  have short : (cstr (noteDirname p
      (onK (fun k => (takeSslot k).2) s)).k.dirname).length ≤ 1 := by
    refine Nat.le_trans (List.takeWhile_prefix _).length_le ?_
    exact Nat.le_trans (List.length_take_le _ _) (by decide)
  have looked : Confined place
      (noteDirname p (onK (fun k => (takeSslot k).2) s)).w :=
    noted.moves.confined (quiet_of_asks quiet) confined
  unfold dirAckText
  dsimp only
  generalize noteDirname p (onK (fun k => (takeSslot k).2) s) = first
    at noted quiet short looked
  have shown : Confined place
      (callGetdirdata (unixio (tracing os)) first).2.2.w :=
    looked.kgetdirdata closed directories
      ((congrArg Config.rootpath noted.control.cfg).trans root) short
  have filelist : (callGetdirdata (unixio (tracing os)) first).2.2.k.filelist =
      s.k.filelist :=
    congrArg Prod.fst quiet
  have steps := noted.then (.getdirdata first)
  generalize callGetdirdata (unixio (tracing os)) first = listing
    at shown filelist steps
  split
  · have told : Works (unixio (tracing os)) listing.2.2 _ :=
      works_epkt (lit "Cannot list directory.") listing.2.2
    exact answers_told told (by simp) shown (.inr rfl)
  · have put : Works (unixio (tracing os)) listing.2.2
        (putListing p listing.2.1 listing.2.2) :=
      works_scratch ⟨rfl, rfl, rfl, rfl, rfl, rfl, rfl, rfl, rfl, rfl, rfl⟩
    have asked : asks (putListing p listing.2.1 listing.2.2) =
        asks listing.2.2 :=
      rfl
    generalize putListing p listing.2.1 listing.2.2 = second at put asked
    have sent := put.and (works_spktXdata (ch 'D') second)
    have control := (steps.and sent).control
    have quiet : asks (spktXdata (unixio (tracing os)) (ch 'D') second).2 =
        asks listing.2.2 :=
      (asks_spktXdata _ _).trans asked
    have kept := @spkt_kept _ (unixio (tracing os)) second
      ((steps.and put).wf wf) (ch 'D') (by decide) second.k.sSeq
      (cstr (xdataMem second.k)).length (some (xdataMem second.k))
    have under := sent.moves.confined (quiet_of_asks quiet) shown
    have same := (congrArg Prod.fst quiet).trans filelist
    change (spktXdata (unixio (tracing os)) (ch 'D') second).1 = xOk →
      1 ≤ ((spktXdata (unixio (tracing os)) (ch 'D')
        second).2.k.win.opktinfo 0).len at kept
    generalize spktXdata (unixio (tracing os)) (ch 'D') second = last
      at control kept under same
    split
    · rename_i fine
      refine ⟨under, fun _ _ => listed.names lists same control.what ?_⟩
      exact ⟨.inr (.inr (.inl rfl)), fun _ => kept fine⟩
    · have told : Works (unixio (tracing os)) last.2 _ :=
        works_epkt (lit "Cannot send D packet") last.2
      have kept := @asks_epkt _ (unixio (tracing os))
        (lit "Cannot send D packet") last.2
      generalize
        epkt (unixio (tracing os)) (lit "Cannot send D packet") last.2 = after
        at told kept
      have state := told.control.state.trans (control.state.trans texted)
      refine ⟨told.moves.confined (quiet_of_asks kept) under, fun _ _ => ?_⟩
      exact listed.names lists ((congrArg Prod.fst kept).trans same)
        (told.control.what.trans control.what) (atListing_free (.inl state))

end Answers

end Slate106.Kermit
