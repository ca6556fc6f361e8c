import Slate106.KermitConfined
import Slate106.KermitTurns

namespace Slate106.Kermit

open CBytes
open PathWalk

/-!
# The names that take the server out of its root

A turn of the main loop looks for at most one name of the peer: that of an R
packet, or that of a G packet when something other than an acknowledgment
follows S.  A server touches nothing outside of its root exactly as long as
all these names keep it.
-/

variable {σ : Type}

/-- The name of the peer that a packet makes the server look for. -/
def lookedFor
    {ω : Type}
    (len : Int)
    (s : Sys ω) : Option (List UInt8) :=
  if len < 4 then none
  else
    match parse s.k len with
    | .good p buf =>
        if p.rtyp = ch 'R' then some (cstr (buf.drop p.pdf))
        else if s.k.what = .dir ∧ s.k.state = .sInit ∧
            p.rtyp ∉ [ch 'Y', ch 'G', ch 'E'] then
          s.k.filelist.head?.map (deref s)
        else none
    | _ => none

/-! ## Acknowledgments -/

section Turns

variable {os : Os σ}
variable {s t : Traced σ}
variable {place : Place}

/-- An acknowledgment while a listing is sent. -/
theorem answers_dirAck
    (closed : place.Closed)
    (directories : Directories os)
    (root : s.k.cfg.rootpath = place.root)
    (wf : Wf s.k)
    (confined : Confined place s.w)
    (names : Names place s.k)
    (lists : s.k.what = .dir)
    (p : Rcvd) :
    Answers place (dirAck (unixio (tracing os)) p s) := by
  unfold dirAck
  dsimp only
  split
  · exact ⟨confined, fun _ _ => names⟩
  · generalize s.k.win.sPw p.rseq = slot
    have acked : Works (unixio (tracing os)) s (onK (acknowledge slot) s) :=
      .of (.acknowledge slot s)
    have quiet : asks (onK (acknowledge slot) s) = asks s :=
      asks_acknowledge slot s
    have kept : Confined place (onK (acknowledge slot) s).w := confined
    generalize onK (acknowledge slot) s = t at acked quiet kept
    have filelist : t.k.filelist = s.k.filelist := congrArg Prod.fst quiet
    have listed : Listed t.k := by
      unfold Listed
      rw [filelist]
      exact names.listed
    have sends : t.k.what = .dir := acked.control.what.trans lists
    have rooted : t.k.cfg.rootpath = place.root := by
      rw [acked.control.cfg]
      exact root
    split
    · exact ⟨kept, fun notDone => absurd rfl notDone⟩
    · exact answers_dirAckEof kept sends listed
    · exact answers_dirAckInit kept sends listed
    · rename_i state
      exact answers_dirAckData (acked.wf wf) kept state sends listed
    · rename_i state
      exact answers_dirAckText closed directories rooted (acked.wf wf) kept
        state sends listed p
    · rename_i notEot notEof notInit notData notText
      refine ⟨kept, fun _ _ => ?_⟩
      cases names with
      | none nothing =>
          exact .none (filelist.trans nothing)
      | asked _ asks =>
          exact absurd (lists.symm.trans asks) (by decide)
      | listing _ _ phase =>
          have states := phase.states
          rw [← acked.control.state] at states
          rcases states with state | state | state | state | state
          · exact (notInit state).elim
          · exact (notText state).elim
          · exact (notData state).elim
          · exact (notEof state).elim
          · exact (notEot state).elim

/-! ## The packets of a sender -/

/-- A cancelled file, when there is no other to send. -/
theorem asks_cancelSend
    {ω : Type}
    {io : Io ω}
    {s : Sys ω}
    (nothing : s.k.filelist = [])
    (p : Rcvd) :
    asks (cancelSend io p s).2 = asks s := by
  have slotted :
      asks (onK (fun k => (takeSslot (nxtpkt k)).2) (callClosef io 0 1 s).2) =
        asks s := by
    simp
  unfold cancelSend
  dsimp only
  generalize
    onK (fun k => (takeSslot (nxtpkt k)).2) (callClosef io 0 1 s).2 = t
    at slotted
  have kept : asks (spkt io (ch 'Z') t.k.sSeq 0 none t).2 = asks s := by
    simp [slotted]
  generalize spkt io (ch 'Z') t.k.sSeq 0 none t = sent at kept
  have cleared : sent.2.k.filelist = [] :=
    (congrArg Prod.fst kept).trans nothing
  split
  · exact kept
  · split
    · have same :
          asks { sent.2 with k.filelist := [] } = asks sent.2 :=
        asks_same cleared.symm rfl
      exact same.trans kept
    · exact kept

/-- A part of a call: it has returned, or the state switcher goes on. -/
def StageAnswers
    (place : Place) : Stage (Unix (σ × List (List UInt8))) → Prop
  | .ret rc t => Answers place (rc, t)
  | .go _ t => Confined place t.w ∧ Pending place t.k

/-- A packet for a server that sends a file. -/
theorem answers_sendStage
    (wf : Wf s.k)
    (confined : Confined place s.w)
    (names : Names place s.k)
    (sends : s.k.what = .send)
    (p : Rcvd) :
    StageAnswers place (sendStage (unixio (tracing os)) p s) := by
  unfold sendStage
  dsimp only
  split
  · split
    · rename_i unused
      cases names with
      | none nothing =>
          exact answers_none (moves_sendRequested p s).ran
            (asks_sendRequested p s) confined nothing
      | asked _ _ _ full =>
          rw [nusedSslots_full wf.window (by omega)] at unused
          exact absurd unused (by decide)
      | listing _ lists =>
          exact absurd (sends.symm.trans lists) (by decide)
    · exact answers_resend wf confined names p.rseq _
  · split
    · exact ⟨confined, fun _ _ => names⟩
    · generalize s.k.win.sPw p.rseq = slot
      have acked : Works (unixio (tracing os)) s (onK (acknowledge slot) s) :=
        .of (.acknowledge slot s)
      have quiet : asks (onK (acknowledge slot) s) = asks s :=
        asks_acknowledge slot s
      have kept : Confined place (onK (acknowledge slot) s).w := confined
      have enc : (onK (acknowledge slot) s).k.enc = s.k.enc := by
        simp only [onK]
        rw [acknowledge_shape]
      generalize onK (acknowledge slot) s = t at acked quiet kept enc
      have filelist : t.k.filelist = s.k.filelist := congrArg Prod.fst quiet
      split
      · rename_i cancelled
        cases names with
        | none nothing =>
            have nothing : t.k.filelist = [] := filelist.trans nothing
            exact answers_none (moves_cancelSend p t).ran
              (asks_cancelSend nothing p) kept nothing
        | asked _ _ initial =>
            have state := acked.control.state.trans initial
            exact absurd (state.symm.trans cancelled.1) (by decide)
        | listing _ lists =>
            exact absurd (sends.symm.trans lists) (by decide)
      · refine ⟨kept, ?_⟩
        cases names with
        | none nothing =>
            exact .none (filelist.trans nothing)
        | asked listed _ initial _ keeps =>
            refine .next (filelist.trans listed)
              (acked.control.state.trans initial) ?_
            have name : t.k.enc.xdatabuf = s.k.enc.xdatabuf :=
              congrArg Encoder.xdatabuf enc
            exact (congrArg place.Keeps (congrArg cstr name)).mpr keeps
        | listing _ lists =>
            exact absurd (sends.symm.trans lists) (by decide)

/-! ## A whole call -/

/-- A good packet, up to the state switcher. -/
theorem answers_packetStage
    (closed : place.Closed)
    (directories : Directories os)
    (root : s.k.cfg.rootpath = place.root)
    (wf : Wf s.k)
    (confined : Confined place s.w)
    (names : Names place s.k)
    {p : Rcvd}
    (request : p.rtyp = ch 'R' → place.Keeps (cstr (pdfMem p s)))
    (first :
      s.k.filelist = [.xdatabuf] → s.k.what = .dir → s.k.state = .sInit →
        p.rtyp ≠ ch 'R' → p.rtyp ∉ [ch 'Y', ch 'G', ch 'E'] →
        place.Keeps (cstr s.k.enc.xdatabuf)) :
    StageAnswers place (packetStage (unixio (tracing os)) p s) := by
  unfold packetStage
  split
  · rename_i acked
    exact answers_dirAck closed directories root wf confined names acked.2 p
  · rename_i notAck
    split
    · exact ⟨confined, fun _ _ => names⟩
    · split
      · exact answers_gPacket wf confined p
      · rename_i notGeneric
        split
        · rename_i asks
          exact answers_rPacket closed root wf confined (request asks)
        · rename_i notRequest
          split
          · exact ⟨confined, fun _ notError => absurd rfl notError⟩
          · rename_i notFailure
            split
            · rename_i sends
              exact answers_sendStage wf confined names sends p
            · rename_i notSend
              refine ⟨confined, ?_⟩
              cases names with
              | none nothing =>
                  exact .none nothing
              | asked _ sends =>
                  exact absurd sends notSend
              | listing listed lists phase =>
                  by_cases initial : s.k.state = .sInit
                  · have other : p.rtyp ∉ [ch 'Y', ch 'G', ch 'E'] := by
                      simp only [List.mem_cons, List.not_mem_nil, or_false,
                        not_or]
                      exact ⟨fun acks => notAck ⟨acks, lists⟩, notGeneric,
                        notFailure⟩
                    exact .next listed initial
                      (first listed lists initial notRequest other)
                  · exact .listing listed lists initial phase

/-- What is done about a packet that is not good opens nothing. -/
theorem answers_resendUnlessRecv
    (wf : Wf s.k)
    (confined : Confined place s.w)
    (names : Names place s.k)
    (buf : List UInt8)
    (rc : Int) :
    Answers place
      (rc,
        (resendUnlessRecv (unixio (tracing os))
          { s with k.ipktbuf := buf }).2) := by
  have kept : Names place { s with k.ipktbuf := buf }.k :=
    names.same rfl rfl rfl rfl rfl
  have still : Wf { s with k.ipktbuf := buf }.k :=
    ⟨wf.noForce, wf.oneSlot, wf.window, wf.noWindowing, wf.received,
      wf.kept, wf.mapped⟩
  have under : Confined place { s with k.ipktbuf := buf }.w := confined
  unfold resendUnlessRecv
  split
  · exact ⟨under, fun _ _ => kept⟩
  · exact answers_resend still under kept (-1) rc

/-- What was received either is answered at once, or it is a good packet. -/
theorem answers_rxStage
    (wf : Wf s.k)
    (confined : Confined place s.w)
    (names : Names place s.k)
    (len : Int) :
    (∃ rc t, rxStage (unixio (tracing os)) len s = .ret rc t ∧
        Answers place (rc, t)) ∨
      ∃ p buf, ¬ len < 4 ∧ parse s.k len = .good p buf ∧
        rxStage (unixio (tracing os)) len s =
          .go p { s with k.ipktbuf := buf } := by
  have forced : forceBcta3 s.k = s.k := by
    simp [forceBcta3, wf.noForce]
  have same (rc : Int) : Answers place (rc, s) :=
    ⟨confined, fun _ _ => names⟩
  unfold rxStage
  split
  · refine .inl ?_
    split
    · rename_i receives
      split
      · have nothing : s.k.filelist = [] := by
          cases names with
          | none nothing =>
              exact nothing
          | asked _ sends =>
              exact absurd (receives.symm.trans sends) (by decide)
          | listing _ lists =>
              exact absurd (receives.symm.trans lists) (by decide)
        have sent : Works (unixio (tracing os)) s
            (rpar (unixio (tracing os)) (ch 'Y') s).2 :=
          works_rpar (ch 'Y') s
        have quiet := @asks_rpar _ (unixio (tracing os)) (ch 'Y') s
        generalize (rpar (unixio (tracing os)) (ch 'Y') s).2 = t at sent quiet
        have ran : Ran (unixio (tracing os)) s (xOk, t) := sent.ran
        exact ⟨xOk, t, rfl, answers_none ran quiet confined nothing⟩
      · exact ⟨_, _, rfl, same _⟩
    · exact ⟨_, _, rfl, answers_resend wf confined names (-1) _⟩
  · rename_i long
    cases parsed : parse s.k len with
    | shortcut =>
        exact .inl ⟨_, _, rfl, same _⟩
    | tossed =>
        exact .inl ⟨_, _, rfl, same _⟩
    | badHeader buf =>
        exact .inl
          ⟨_, _, rfl, answers_resendUnlessRecv wf confined names buf _⟩
    | badLength =>
        refine .inl ⟨_, _, rfl, ?_⟩
        rw [forced]
        exact answers_resendUnlessRecv wf confined names s.k.ipktbuf xOk
    | badCheck buf =>
        refine .inl ⟨_, _, rfl, ?_⟩
        rw [forced]
        exact answers_resendUnlessRecv wf confined names buf xOk
    | good p buf =>
        refine .inr ⟨p, buf, long, rfl, ?_⟩
        dsimp only
        rw [forced]

/-- A call stays under the root if the name it looks for keeps the root. -/
theorem answers_kermit
    (closed : place.Closed)
    (directories : Directories os)
    (root : s.k.cfg.rootpath = place.root)
    (wf : Wf s.k)
    (set : s.k.state ≠ .rNone)
    (notData : s.k.state ≠ .rData)
    (reads : s.k.doRxd = true)
    (confined : Confined place s.w)
    (names : Names place s.k)
    {len : Int}
    (keeps : ∀ name ∈ lookedFor len s, place.Keeps name)
    (msg : List UInt8) :
    Answers place (kermit (unixio (tracing os)) .run len msg s) := by
  unfold kermit
  rw [wf.testRslots (unixio (tracing os))]
  dsimp only
  unfold kermitRun
  rw [if_neg set, if_pos reads]
  rcases @answers_rxStage _ os s place wf confined names len with
    ⟨rc, t, returned, answered⟩ | ⟨p, buf, long, good, goesOn⟩
  · rw [returned]
    exact answered
  · have received : Works (unixio (tracing os)) s
        { s with k.ipktbuf := buf } :=
      works_scratch ⟨rfl, rfl, rfl, rfl, rfl, rfl, rfl, rfl, rfl, rfl, rfl⟩
    have request (asks : p.rtyp = ch 'R') :
        place.Keeps (cstr (buf.drop p.pdf)) := by
      apply keeps
      simp [lookedFor, long, good, asks]
    have first (listed : s.k.filelist = [.xdatabuf]) (lists : s.k.what = .dir)
        (initial : s.k.state = .sInit) (notRequest : p.rtyp ≠ ch 'R')
        (other : p.rtyp ∉ [ch 'Y', ch 'G', ch 'E']) :
        place.Keeps (cstr s.k.enc.xdatabuf) := by
      apply keeps
      unfold lookedFor
      rw [if_neg long, good]
      dsimp only
      rw [if_neg notRequest, if_pos ⟨lists, initial, other⟩, listed]
      rfl
    have staged : StageAnswers place
        (packetStage (unixio (tracing os)) p { s with k.ipktbuf := buf }) :=
      answers_packetStage (s := { s with k.ipktbuf := buf }) closed
        directories root (received.wf wf) confined
        (names.same rfl rfl rfl rfl rfl) request first
    have ran : StageRan (unixio (tracing os)) { s with k.ipktbuf := buf }
        (packetStage (unixio (tracing os)) p { s with k.ipktbuf := buf }) :=
      ran_packetStage (parse_good good).shortText
    rw [goesOn]
    dsimp only
    generalize
      packetStage (unixio (tracing os)) p { s with k.ipktbuf := buf } = stage
      at staged ran
    cases stage with
    | ret rc t =>
        exact staged
    | go q t =>
        obtain ⟨steps, short⟩ := ran
        have control := steps.control
        refine answers_stateStage closed ?_ (steps.wf (received.wf wf)) ?_
          staged.1 staged.2 (fun _ => short) msg
        · rw [control.cfg]
          exact root
        · rw [control.state]
          exact notData

end Turns

/-! ## Leaving the root -/

section Leaves

variable {os : Os σ}
variable {s s' : Traced σ}
variable {place : Place}

theorem Chore.touched
    (step : Chore (unixio (tracing os)) s s') :
    touched s.w ⊆ touched s'.w := by
  cases step with
  | scratch same =>
      rw [same.w]
      exact List.Subset.refl _
  | txd | finfo | params =>
      exact touched_same rfl rfl
  | openf name mode filesize =>
      exact touched_kopenfile s.k name mode filesize
  | readf =>
      obtain ⟨asked, calls⟩ := @kreadfile_trace _ os s.w s.k
      exact touched_same asked (congrArg _ calls)
  | accessf name =>
      exact touched_mono (List.subset_cons_self _ _) (List.Subset.refl _)
  | getdirdata =>
      exact touched_kgetdirdata s.k
  | closef c mode =>
      obtain ⟨asked, calls⟩ :=
        @kclosefile_trace _ os s.w s.k
          ((s.k.filename.map (deref s)).getD []) c mode
      exact touched_same asked calls

theorem Move.touched
    (step : Move (unixio (tracing os)) s s') :
    touched s.w ⊆ touched s'.w := by
  cases step with
  | state | what =>
      exact List.Subset.refl _
  | work step =>
      cases step with
      | chore step =>
          exact step.touched
      | txd =>
          exact touched_same rfl rfl
      | writef bytes =>
          obtain ⟨asked, calls⟩ := @kwritefile_trace _ os s.w s.k bytes
          exact touched_same asked calls
      | _ =>
          exact List.Subset.refl _

/-- No step takes back a path. -/
theorem Moves.touched
    (steps : Moves (unixio (tracing os)) s s') :
    touched s.w ⊆ touched s'.w := by
  induction steps with
  | refl =>
      exact List.Subset.refl _
  | tail _ step inductionHypothesis =>
      exact List.Subset.trans inductionHypothesis step.touched

theorem Moves.confined_before
    (steps : Moves (unixio (tracing os)) s s')
    (confined : Confined place s'.w) :
    Confined place s.w :=
  fun path member => confined path (steps.touched member)

theorem Ran.confined_before
    {result : Int × Traced σ}
    (ran : Ran (unixio (tracing os)) s result)
    (confined : Confined place result.2.w) :
    Confined place s.w := by
  rcases ran.steps with steps | ⟨done, t, steps, last⟩
  · exact steps.confined_before confined
  · rw [last] at confined
    exact steps.confined_before confined

/-- An R packet whose name was looked for under the root. -/
theorem rPacket_keeps
    (closed : place.Closed)
    (root : s.k.cfg.rootpath = place.root)
    {p : Rcvd}
    (confined : Confined place (rPacket (unixio (tracing os)) p s).2.w) :
    place.Keeps (cstr (pdfMem p s)) := by
  have looked :=
    (@moves_rPacket_looked _ (unixio (tracing os)) p s).confined_before confined
  rw [← holds_kaddRootpath_iff closed, ← root]
  exact looked _ (kaccessfile_touches _ _)

/-- The name of the request was opened under the root. -/
theorem nextFile_keeps
    (closed : place.Closed)
    (root : s.k.cfg.rootpath = place.root)
    (listed : s.k.filelist = [.xdatabuf])
    (confined : Confined place (nextFile (unixio (tracing os)) s).2.w) :
    place.Keeps (cstr s.k.enc.xdatabuf) := by
  have next : (onK nxtpkt s).k.filelist = [.xdatabuf] := listed
  unfold nextFile at confined
  dsimp only at confined
  rw [next] at confined
  have opened :=
    (@moves_sendFile_opened _ (unixio (tracing os)) .xdatabuf []
      (onK nxtpkt s)).confined_before confined
  have looked :
      kaddRootpath s.k.cfg.rootpath (cstr s.k.enc.xdatabuf) ∈
        touched
          (callOpenf (unixio (tracing os)) (cstr s.k.enc.xdatabuf) 1
            s.r.filesize (takeName .xdatabuf [] (onK nxtpkt s))).2.w :=
    kopenfile_touches _ _ s.r.filesize
  rw [← holds_kaddRootpath_iff closed, ← root]
  exact opened _ looked

/-- A packet after S of a listing, other than an acknowledgment. -/
theorem kermit_opens
    (wf : Wf s.k)
    (reads : s.k.doRxd = true)
    (lists : s.k.what = .dir)
    (initial : s.k.state = .sInit)
    {len : Int}
    (long : ¬ len < 4)
    {p : Rcvd}
    {buf : List UInt8}
    (good : parse s.k len = .good p buf)
    (notRequest : p.rtyp ≠ ch 'R')
    (other : p.rtyp ∉ [ch 'Y', ch 'G', ch 'E'])
    (msg : List UInt8) :
    kermit (unixio (tracing os)) .run len msg s =
      nextFile (unixio (tracing os))
        (onK (spar p.pdf p.datalen) { s with k.ipktbuf := buf }) := by
  have forced : forceBcta3 s.k = s.k := by
    simp [forceBcta3, wf.noForce]
  have set : ¬ s.k.state = .rNone := by
    rw [initial]
    decide
  have notSend : ¬ s.k.what = .send := by
    rw [lists]
    decide
  simp only [List.mem_cons, List.not_mem_nil, or_false, not_or] at other
  obtain ⟨notAck, notGeneric, notFailure⟩ := other
  have staged :
      packetStage (unixio (tracing os)) p { s with k.ipktbuf := buf } =
        .go p { s with k.ipktbuf := buf } := by
    unfold packetStage
    rw [if_neg (fun both => notAck both.1),
      if_neg (fun both => notGeneric both.1), if_neg notGeneric,
      if_neg notRequest, if_neg notFailure, if_neg notSend]
  unfold kermit
  rw [wf.testRslots (unixio (tracing os))]
  dsimp only
  unfold kermitRun
  rw [if_neg set, if_pos reads]
  unfold rxStage
  rw [if_neg long, good]
  dsimp only
  rw [forced, staged]
  dsimp only
  unfold stateStage
  dsimp only
  rw [initial]

/-- A call that stays under the root looked for no name that leaves it. -/
theorem kermit_keeps
    (closed : place.Closed)
    (root : s.k.cfg.rootpath = place.root)
    (wf : Wf s.k)
    (set : s.k.state ≠ .rNone)
    (reads : s.k.doRxd = true)
    (names : Listed s.k)
    {len : Int}
    {msg : List UInt8}
    (confined :
      Confined place (kermit (unixio (tracing os)) .run len msg s).2.w) :
    ∀ name ∈ lookedFor len s, place.Keeps name := by
  intro name looked
  unfold lookedFor at looked
  split at looked
  · exact absurd looked (Option.not_mem_none name)
  · rename_i long
    split at looked
    · rename_i p buf good
      split at looked
      · rename_i asks
        have request : ValidRequest s.k len p buf := ⟨by omega, good, asks⟩
        rw [kermit_request wf set reads request] at confined
        obtain rfl := Option.some.inj looked
        exact rPacket_keeps (s := { s with k.ipktbuf := buf }) closed root
          confined
      · rename_i notRequest
        split at looked
        · rename_i listing
          obtain ⟨lists, initial, other⟩ := listing
          rw [kermit_opens wf reads lists initial long good notRequest other]
            at confined
          rcases names with nothing | listed
          · rw [nothing] at looked
            exact absurd looked (Option.not_mem_none name)
          · rw [listed] at looked
            obtain rfl := Option.some.inj looked
            exact nextFile_keeps
              (s := onK (spar p.pdf p.datalen) { s with k.ipktbuf := buf })
              closed root listed confined
        · exact absurd looked (Option.not_mem_none name)
    · exact absurd looked (Option.not_mem_none name)

end Leaves

/-! ## Sessions -/

/-- No call looks for a name that leaves the root. -/
def KeepsRoot
    (place : Place)
    {ω : Type}
    (io : Io ω) : List Rx → MainVars ω → Prop
  | [], _ => True
  | rx :: rest, v =>
      (∀ len s, runCall rx v = some (len, s) →
        ∀ name ∈ lookedFor len s, place.Keeps name) ∧
        KeepsRoot place io rest (mainIter io rx v)

section Sessions

variable {os : Os σ}
variable {place : Place}

/-- What is true of the server while the loop goes on. -/
structure TurnRooted
    (place : Place)
    (v : MainVars (Unix (σ × List (List UInt8)))) : Prop where
  turning : Turning v
  serving : Serving v.sys
  set : v.sys.k.state ≠ .rNone
  root : v.sys.k.cfg.rootpath = place.root
  names : Names place v.sys.k

/-- What is true of the session that a call finds. -/
structure CallRooted
    (place : Place)
    (s : Traced σ) : Prop where
  wf : Wf s.k
  set : s.k.state ≠ .rNone
  notData : s.k.state ≠ .rData
  reads : s.k.doRxd = true
  root : s.k.cfg.rootpath = place.root
  names : Names place s.k

theorem TurnRooted.call
    (os : Os σ)
    {v : MainVars (Unix (σ × List (List UInt8)))}
    (turns : TurnRooted place v)
    (rx : Rx) :
    CallRooted place (heardSys rx v.sys) where
  wf := turns.turning.wf.scratch (heardSys_core rx v.sys)
    (unixio (tracing os))
  set := turns.set
  notData := turns.serving.notData
  reads := ok2rxd_held turns.turning.wf turns.turning.held
  root := turns.root
  names := turns.names.same rfl rfl rfl rfl rfl

/-- What a call touches and leaves when it looks for nothing above the root. -/
theorem CallRooted.answers
    (closed : place.Closed)
    (directories : Directories os)
    {s : Traced σ}
    (call : CallRooted place s)
    (confined : Confined place s.w)
    {len : Int}
    (keeps : ∀ name ∈ lookedFor len s, place.Keeps name) :
    Answers place (kermit (unixio (tracing os)) .run len [] s) :=
  answers_kermit closed directories call.root call.wf call.set call.notData
    call.reads confined call.names keeps []

/-- A call stays under the root exactly if it looks below the root. -/
theorem CallRooted.confined_iff
    (closed : place.Closed)
    (directories : Directories os)
    {s : Traced σ}
    (call : CallRooted place s)
    (confined : Confined place s.w)
    (len : Int) :
    Confined place (kermit (unixio (tracing os)) .run len [] s).2.w ↔
      ∀ name ∈ lookedFor len s, place.Keeps name :=
  ⟨kermit_keeps closed call.root call.wf call.set call.reads call.names.listed,
    fun keeps => (call.answers closed directories confined keeps).confined⟩

/-- What a call does, step by step. -/
theorem CallRooted.ran
    {s : Traced σ}
    (call : CallRooted place s)
    (len : Int) :
    Ran (unixio (tracing os)) s (kermit (unixio (tracing os)) .run len [] s) := by
  unfold kermit
  rw [call.wf.testRslots]
  exact ran_kermitRun len [] s

/-- `K_ERROR` touches nothing. -/
theorem moves_kermitError
    {s : Traced σ}
    (wf : Wf s.k)
    (msg : List UInt8) :
    Moves (unixio (tracing os)) s
        (kermit (unixio (tracing os)) .error 0 msg s).2 ∧
      Quiet s (kermit (unixio (tracing os)) .error 0 msg s).2 := by
  have told : Works (unixio (tracing os)) s
      (epkt (unixio (tracing os)) msg s) := works_epkt msg s
  have quiet := @asks_epkt _ (unixio (tracing os)) msg s
  unfold kermit
  rw [wf.testRslots]
  dsimp only
  generalize epkt (unixio (tracing os)) msg s = t at told quiet
  exact ⟨(told.then (.closef 0 _ t)).moves,
    quiet_of_asks ((asks_callClosef 0 _ t).trans quiet)⟩

/-- A turn touches no less than what was touched before. -/
theorem confined_before_turn
    {v : MainVars (Unix (σ × List (List UInt8)))}
    (turning : Turning v)
    (rx : Rx)
    (confined : Confined place (mainIter (unixio (tracing os)) rx v).sys.w) :
    Confined place v.sys.w := by
  have wf : Wf (heardSys rx v.sys).k :=
    turning.wf.scratch (heardSys_core rx v.sys) (unixio (tracing os))
  have turn := turn_cases (unixio (tracing os)) turning rx
  generalize mainIter (unixio (tracing os)) rx v = next at turn confined
  cases turn with
  | fatal failed =>
      exact confined
  | gaveUp silent spent =>
      dsimp only at confined
      split at confined
      · exact confined
      · exact (moves_kermitError wf _).1.confined_before confined
  | handled retrycounter ret counted left given =>
      have ran : Ran (unixio (tracing os)) (heardSys rx v.sys)
          (kermit (unixio (tracing os)) .run rx.ret [] (heardSys rx v.sys)) := by
        unfold kermit
        rw [wf.testRslots]
        exact ran_kermitRun rx.ret [] (heardSys rx v.sys)
      exact ran.confined_before confined

theorem confined_before_run
    (rxs : List Rx)
    {v : MainVars (Unix (σ × List (List UInt8)))}
    (turning : v.ret = none → Turning v)
    (confined : Confined place (mainLoop (unixio (tracing os)) rxs v).sys.w) :
    Confined place v.sys.w := by
  induction rxs generalizing v with
  | nil =>
      exact confined
  | cons rx rest inductionHypothesis =>
      by_cases left : v.ret ≠ none
      · rwa [mainLoop_left _ _ left] at confined
      · have turns := turning (not_not.mp left)
        exact confined_before_turn turns rx
          (inductionHypothesis (turns.next (unixio (tracing os)) rx) confined)

/-- A turn stays under the root exactly if its call looks below the root. -/
theorem TurnRooted.confined_iff
    (closed : place.Closed)
    (directories : Directories os)
    {v : MainVars (Unix (σ × List (List UInt8)))}
    (turns : TurnRooted place v)
    (confined : Confined place v.sys.w)
    (rx : Rx) :
    Confined place (mainIter (unixio (tracing os)) rx v).sys.w ↔
      ∀ len s, runCall rx v = some (len, s) →
        ∀ name ∈ lookedFor len s, place.Keeps name := by
  have heard := turns.call os rx
  have under : Confined place (heardSys rx v.sys).w := confined
  have call := runCall_turning turns.turning rx
  have turn := turn_cases (unixio (tracing os)) turns.turning rx
  generalize mainIter (unixio (tracing os)) rx v = next at turn
  cases turn with
  | fatal failed =>
      rw [if_pos (Or.inl failed)] at call
      simp [call, under]
  | gaveUp silent spent =>
      rw [if_pos (Or.inr ⟨silent, spent⟩)] at call
      have stays : Confined place
          (if v.start then heardSys rx v.sys
          else
            (kermit (unixio (tracing os)) .error 0 (lit "eksw to")
              (heardSys rx v.sys)).2).w := by
        split
        · exact under
        · obtain ⟨steps, quiet⟩ :=
            @moves_kermitError _ os _ heard.wf (lit "eksw to")
          exact steps.confined quiet under
      simp [call, stays]
  | handled retrycounter ret counted left given =>
      rw [if_neg (by omega)] at call
      rw [call]
      refine (heard.confined_iff closed directories under rx.ret).trans ?_
      simp

theorem TurnRooted.next
    (closed : place.Closed)
    (directories : Directories os)
    {v : MainVars (Unix (σ × List (List UInt8)))}
    (turns : TurnRooted place v)
    (confined : Confined place v.sys.w)
    {rx : Rx}
    (keeps :
      ∀ len s, runCall rx v = some (len, s) →
        ∀ name ∈ lookedFor len s, place.Keeps name)
    (going : (mainIter (unixio (tracing os)) rx v).ret = none) :
    TurnRooted place (mainIter (unixio (tracing os)) rx v) := by
  have heard := turns.call os rx
  have under : Confined place (heardSys rx v.sys).w := confined
  have watched : Watched v :=
    ⟨turns.serving.notData, turns.serving.unwritten, fun _ => turns.serving⟩
  have serving :=
    (@watched_mainIter _ (tracing os) _ watched rx).serving going
  have turning := turns.turning.next (unixio (tracing os)) rx going
  have call := runCall_turning turns.turning rx
  have turn := turn_cases (unixio (tracing os)) turns.turning rx
  generalize mainIter (unixio (tracing os)) rx v = next
    at turn going serving turning
  cases turn with
  | fatal failed =>
      cases going
  | gaveUp silent spent =>
      cases going
  | handled retrycounter ret counted left given =>
      obtain ⟨notDone, notError⟩ := left going
      rw [if_neg (by omega)] at call
      have answers := heard.answers closed directories under (keeps _ _ call)
      have ran := @CallRooted.ran _ os _ _ heard rx.ret
      exact ⟨turning, serving, kermit_set heard.wf heard.set .run rx.ret [],
        (congrArg Config.rootpath ran.cfg).trans heard.root,
        answers.names notDone notError⟩

/-- A run stays under the root exactly if its calls look below the root. -/
theorem confined_run_iff
    (closed : place.Closed)
    (directories : Directories os)
    (rxs : List Rx)
    {v : MainVars (Unix (σ × List (List UInt8)))}
    (turns : v.ret = none → TurnRooted place v)
    (confined : Confined place v.sys.w) :
    Confined place (mainLoop (unixio (tracing os)) rxs v).sys.w ↔
      KeepsRoot place (unixio (tracing os)) rxs v := by
  induction rxs generalizing v with
  | nil =>
      exact iff_of_true confined trivial
  | cons rx rest inductionHypothesis =>
      rw [mainLoop_cons]
      by_cases left : v.ret ≠ none
      · have nothing : runCall rx v = none := if_pos left
        have later := @inductionHypothesis v turns confined
        unfold KeepsRoot
        rw [mainIter_left _ rx left, nothing, later]
        simp
      have rooted := turns (not_not.mp left)
      have stays := rooted.confined_iff closed directories confined rx
      have again := fun going =>
        rooted.turning.next (unixio (tracing os)) rx going
      constructor
      · intro after
        have here := confined_before_run rest again after
        have keeps := stays.mp here
        refine ⟨keeps, (inductionHypothesis ?_ here).mp after⟩
        exact rooted.next closed directories confined keeps
      · rintro ⟨keeps, later⟩
        refine (inductionHypothesis ?_ (stays.mpr keeps)).mpr later
        exact rooted.next closed directories confined keeps

/-- `kermit_main()` begins to wait without a path and without a name. -/
theorem rooted_mainStart
    {s : Traced σ}
    (session : Session s.k)
    (unwritten : Unwritten s)
    (root : s.k.cfg.rootpath = place.root)
    (confined : Confined place s.w) :
    TurnRooted place (mainStart (unixio (tracing os)) .wait [] s) ∧
      Confined place (mainStart (unixio (tracing os)) .wait [] s).sys.w := by
  have started := (@turning_mainStart _ (unixio (tracing os)) s .wait []
    session).1
  have serving := @serving_mainStart _ (tracing os) s unwritten []
  have tested : Chores (unixio (tracing os))
      { s with r.type := .wait, k.filelist := [] }
      (testRslots (unixio (tracing os))
        { s with r.type := .wait, k.filelist := [] }) := chores_testRslots _
  have quiet :
      asks
        (testRslots (unixio (tracing os))
          { s with r.type := .wait, k.filelist := [] }) =
        asks { s with r.type := .wait, k.filelist := [] } := by
    unfold testRslots
    dsimp only
    split
    · exact asks_epkt _ _
    · rfl
  have still : Confined place { s with r.type := .wait, k.filelist := [] }.w :=
    confined
  refine ⟨⟨started, serving, ?_, ?_, ?_⟩, ?_⟩
  · exact show State.rWait ≠ .rNone by decide
  · exact (congrArg Config.rootpath tested.works.control.cfg).trans root
  · exact .none (congrArg Prod.fst quiet)
  · exact tested.works.moves.confined (quiet_of_asks quiet) still

/--
In a session that `kermit_main()` starts to wait for requests, with a root path
that ends with a slash, every path that reaches the file system denotes the
root or something below it if and only if no name that a call looks for leaves
the root.
-/
theorem session_confined_iff
    (os : Os σ)
    (directories : Directories os)
    {place : Place}
    (closed : place.Closed)
    {s : Traced σ}
    (session : Session s.k)
    (unwritten : Unwritten s)
    (root : s.k.cfg.rootpath = place.root)
    (confined : Confined place s.w)
    (rxs : List Rx) :
    let v := mainStart (unixio (tracing os)) .wait [] s
    Confined place (mainLoop (unixio (tracing os)) rxs v).sys.w ↔
      KeepsRoot place (unixio (tracing os)) rxs v := by
  obtain ⟨rooted, under⟩ :=
    @rooted_mainStart _ os place s session unwritten root confined
  exact confined_run_iff closed directories rxs (fun _ => rooted) under

end Sessions

/-- One file under every name, which every directory lists as `f`. -/
def listedOs : Os (List UInt8) :=
  { fileOs with
    readdir := fun file path =>
      (if path = [] then none else some [⟨true, lit "f", true, some 0⟩], file) }

theorem directories_listedOs : Directories listedOs where
  nothing _ := rfl
  names w path entries read := by
    change (if path = [] then none else some [⟨true, lit "f", true, some 0⟩]) =
      some entries at read
    split at read
    · exact absurd read (Option.some_ne_none entries).symm
    · obtain rfl := Option.some.inj read
      intro entry member _
      rw [List.mem_singleton.mp member]
      decide

/-- A server below `/r/` that waits. -/
def rootServer : MainVars (Unix (List UInt8 × List (List UInt8))) :=
  mainStart (unixio (tracing listedOs)) .wait []
    (ekInit (unixio (tracing listedOs)) (lit "/r/")
      { os := ([], []), ofile := -1, ifile := false, calls := [] })

/-- The place that this server serves. -/
def rootPlace : Place where
  cwd := []
  root := lit "/r/"

/-- A listing of the directory and then a request of the file in it. -/
theorem session_confined_iff_listed :
    Confined rootPlace
        (mainLoop (unixio (tracing listedOs))
          [packetOf (ch 'G') 0 (lit "D"), packetOf (ch 'Y') 0 [],
            packetOf (ch 'Y') 1 [], packetOf (ch 'R') 0 (lit "f")]
          rootServer).sys.w ↔
      KeepsRoot rootPlace (unixio (tracing listedOs))
        [packetOf (ch 'G') 0 (lit "D"), packetOf (ch 'Y') 0 [],
          packetOf (ch 'Y') 1 [], packetOf (ch 'R') 0 (lit "f")]
        rootServer :=
  session_confined_iff listedOs directories_listedOs ⟨lit "/r", rfl⟩
    (session_ekInit _ _ _) (unwritten_ekInit (tracing listedOs) _ _)
    (by rw [ekInit_eq]; rfl)
    (by rw [ekInit_eq]; exact List.forall_mem_nil _) _

/-- A peer requests a file next to the root. -/
theorem parent_request_escapes :
    ¬ Confined rootPlace
      (mainLoop (unixio (tracing listedOs))
        [packetOf (ch 'R') 0 (lit "../x")] rootServer).sys.w := by
  intro confined
  have asked :
      lit "/r/../x" ∈
        touched
          (mainLoop (unixio (tracing listedOs))
            [packetOf (ch 'R') 0 (lit "../x")] rootServer).sys.w := by
    decide +kernel
  have escapes : ¬ rootPlace.Holds (lit "/r/../x") := by
    unfold Place.Holds Under
    decide +kernel
  exact escapes (confined _ asked)

end Slate106.Kermit
