import Slate106.BleCentral

namespace Slate106.Ble

open Mldp

/-!
# The callbacks of a connection in any order

BlueZ calls `ready_cb` at most once for a connection, and the completion of a
write at most once and only if the write was issued.  Everything else may
happen at any moment: MLDP writes of the peer, failures, the disconnection.
The main loop opens the next connection when the step is `BLE_SCANNING` again.
-/

/-! ## Events -/

/-- A callback of BlueZ, or a new connection opened by the main loop. -/
inductive Event where
  | connect : List UInt8 → List UInt8 → Event
  | ready : Bool → Bool → Event
  | completed : SpsChar → Bool → Bool → Event
  | mldpWrite : UInt16 → List UInt8 → Option Nat → Event
  | disconnected
  deriving Repr, DecidableEq

/-- The program, and what BlueZ has to keep in mind about its connection. -/
structure Link where
  g : Globals
  connected : Bool
  readyCalled : Bool
  pending : List SpsChar
  deriving Repr, DecidableEq

/-- The program after `parse_given_address()`. -/
def Link.start : Link where
  g :=
    { bleConStep := .scanning, mGattCentral := zeroedCentral, log := [] }
  connected := false
  readyCalled := false
  pending := []

/-- The write that the success of an earlier callback leads to. -/
def nextChar : SpsChar → Option SpsChar
  | .identification => some .authentication
  | .authentication => some .misc
  | .misc => none

/-- Writes that are waiting for their completion after one was tried. -/
def issuedChar
    (char : Option SpsChar)
    (success issued : Bool) : List SpsChar :=
  if success && issued then char.toList else []

/-- The effect of an event. -/
def happen
    (event : Event)
    (l : Link) : Link :=
  match event with
  | .connect rxBuff txBuff =>
      { g := openCentral rxBuff txBuff { l.g with bleConStep := .socketOpen }
        connected := true
        readyCalled := false
        pending := [] }
  | .ready success issued =>
      { l with
        g := readyCb success issued l.g
        readyCalled := true
        pending := issuedChar (some .identification) success issued }
  | .completed char success issued =>
      { l with
        g := clientWriteCb char success issued (note (.completed char success) l.g)
        pending := l.pending.erase char ++ issuedChar (nextChar char) success issued }
  | .mldpWrite offset value created =>
      { l with g := serverMldpDataCharWriteCb offset value created l.g }
  | .disconnected => { l with g := attDisconnectCb l.g }

/-- When an event may happen. -/
def Allowed
    (event : Event)
    (l : Link) : Prop :=
  Call.exit ∉ l.g.log ∧
    match event with
    | .connect _ _ => l.g.bleConStep = .scanning
    | .ready _ _ => l.connected = true ∧ l.readyCalled = false
    | .completed char _ _ => l.connected = true ∧ char ∈ l.pending
    | .mldpWrite _ _ _ => l.connected = true
    | .disconnected => l.connected = true

/-- A run of the program: each event with the state it finds. -/
inductive Runs : List (Link × Event) → Link → Prop where
  | start : Runs [] Link.start
  | snoc
      {trace : List (Link × Event)}
      {l : Link}
      {event : Event}
      (earlier : Runs trace l)
      (allowed : Allowed event l) :
      Runs (trace ++ [(l, event)]) (happen event l)

/-! ## The log of a connection -/

/-- The calls since the current connection was opened, newest first. -/
def sinceCreate
    (log : List Call) : List Call :=
  log.takeWhile (· ≠ .gattCentralCreate)

@[simp] theorem sinceCreate_create
    (log : List Call) :
    sinceCreate (.gattCentralCreate :: log) = [] := by
  simp [sinceCreate]

theorem sinceCreate_cons
    {call : Call}
    (other : call ≠ .gattCentralCreate)
    (log : List Call) :
    sinceCreate (call :: log) = call :: sinceCreate log :=
  List.takeWhile_cons_of_pos (by simpa using other)

/-- The characteristics written with success, the last one first. -/
def successes
    (log : List Call) : List SpsChar :=
  (sinceCreate log).filterMap fun call =>
    match call with
    | .completed char true => some char
    | _ => none

theorem successes_cons
    {call : Call}
    (other : call ≠ .gattCentralCreate)
    (silent : ∀ char, call ≠ .completed char true)
    (log : List Call) :
    successes (call :: log) = successes log := by
  unfold successes
  rw [sinceCreate_cons other]
  refine List.filterMap_cons_none ?_
  split
  · exact absurd rfl (silent _)
  · rfl

theorem successes_completed
    (char : SpsChar)
    (log : List Call) :
    successes (.completed char true :: log) = char :: successes log := by
  unfold successes
  rw [sinceCreate_cons (by simp)]
  rfl

/-- All three characteristics have been written, in order. -/
def authenticated : List SpsChar :=
  [.misc, .authentication, .identification]

/-- The file transfer of the current connection has been started. -/
def Started
    (log : List Call) : Prop :=
  Call.startFileTransfer ∈ sinceCreate log

theorem started_cons
    {call : Call}
    (other : call ≠ .gattCentralCreate)
    (silent : call ≠ .startFileTransfer)
    (log : List Call) :
    Started (call :: log) ↔ Started log := by
  unfold Started
  rw [sinceCreate_cons other, List.mem_cons]
  exact ⟨fun member => member.resolve_left silent.symm, Or.inr⟩

/--
Every start of the file transfer came after the three writes of its connection
had succeeded in order, and was the first start of its connection.
-/
def StartsAuthenticated
    (log : List Call) : Prop :=
  ∀ later earlier, log = later ++ .startFileTransfer :: earlier →
    Call.gattCentralCreate ∈ earlier ∧
      successes earlier = authenticated ∧
      ¬ Started earlier

theorem startsAuthenticated_cons
    {call : Call}
    {log : List Call}
    (silent : call ≠ .startFileTransfer)
    (past : StartsAuthenticated log) :
    StartsAuthenticated (call :: log) := by
  intro later earlier shape
  cases later with
  | nil =>
      exact absurd (List.cons.inj shape).1 silent
  | cons first later =>
      exact past later earlier (List.cons.inj shape).2

theorem startsAuthenticated_start
    {log : List Call}
    (created : Call.gattCentralCreate ∈ log)
    (written : successes log = authenticated)
    (first : ¬ Started log)
    (past : StartsAuthenticated log) :
    StartsAuthenticated (.startFileTransfer :: log) := by
  intro later earlier shape
  cases later with
  | nil =>
      obtain ⟨_, rfl⟩ := List.cons.inj shape
      exact ⟨created, written, first⟩
  | cons _ later =>
      exact past later earlier (List.cons.inj shape).2

/-! ## How far a connection has come -/

/-- The writes waiting for their completion, and those that have succeeded. -/
inductive Progress : List SpsChar → List SpsChar → Prop where
  | nothing : Progress [] []
  | identifying : Progress [.identification] []
  | identified : Progress [] [.identification]
  | authenticating : Progress [.authentication] [.identification]
  | proven : Progress [] [.authentication, .identification]
  | finishing : Progress [.misc] [.authentication, .identification]
  | finished : Progress [] authenticated

/-- What holds between two events. -/
structure Consistent
    (l : Link) : Prop where
  progress : Progress l.pending (successes l.g.log)
  opened : l.connected = true → Call.gattCentralCreate ∈ l.g.log
  unready : l.readyCalled = false →
    l.pending = [] ∧ successes l.g.log = []
  waiting : l.g.bleConStep = .waitMldpData →
    successes l.g.log = authenticated ∧ ¬ Started l.g.log
  started : Started l.g.log → successes l.g.log = authenticated
  past : StartsAuthenticated l.g.log

theorem consistent_start :
    Consistent Link.start where
  progress := .nothing
  opened := fun impossible => nomatch impossible
  unready := fun _ => ⟨rfl, rfl⟩
  waiting := fun impossible => nomatch impossible
  started := fun impossible => nomatch impossible
  past := by
    intro later earlier shape
    have impossible : ([] : List Call) =
      later ++ .startFileTransfer :: earlier := shape
    simp at impossible

/-- A call that is neither a start nor a success changes nothing. -/
theorem Consistent.noted
    {l : Link}
    (consistent : Consistent l)
    {g : Globals}
    {call : Call}
    (log : g.log = call :: l.g.log)
    (other : call ≠ .gattCentralCreate)
    (silent : call ≠ .startFileTransfer)
    (noSuccess : ∀ char, call ≠ .completed char true)
    (step : g.bleConStep = .waitMldpData → l.g.bleConStep = .waitMldpData) :
    Consistent { l with g := g } := by
  obtain ⟨progress, opened, unready, waiting, started, past⟩ := consistent
  have same := successes_cons other noSuccess l.g.log
  have begun := started_cons other silent l.g.log
  refine ⟨?_, ?_, ?_, ?_, ?_, ?_⟩
  · show Progress l.pending (successes g.log)
    rw [log, same]
    exact progress
  · intro connected
    show _ ∈ g.log
    rw [log]
    exact List.mem_cons_of_mem _ (opened connected)
  · intro notReady
    show l.pending = [] ∧ successes g.log = []
    rw [log, same]
    exact unready notReady
  · intro isWaiting
    show successes g.log = _ ∧ ¬ Started g.log
    rw [log, same, begun]
    exact waiting (step isWaiting)
  · intro isStarted
    show successes g.log = _
    have before : Started g.log := isStarted
    rw [log, begun] at before
    rw [log, same]
    exact started before
  · show StartsAuthenticated g.log
    rw [log]
    exact startsAuthenticated_cons silent past

/-- A new connection starts from nothing. -/
theorem Consistent.connect
    {l : Link}
    (consistent : Consistent l)
    (rxBuff txBuff : List UInt8) :
    Consistent (happen (.connect rxBuff txBuff) l) where
  progress := by
    show Progress [] (successes (.gattCentralCreate :: l.g.log))
    rw [successes, sinceCreate_create]
    exact .nothing
  opened := fun _ => List.mem_cons_self ..
  unready := by
    intro _
    show [] = [] ∧ successes (.gattCentralCreate :: l.g.log) = []
    rw [successes, sinceCreate_create]
    exact ⟨rfl, rfl⟩
  waiting := fun impossible => nomatch impossible
  started := by
    intro isStarted
    have member : Call.startFileTransfer ∈
        sinceCreate (.gattCentralCreate :: l.g.log) := isStarted
    rw [sinceCreate_create] at member
    exact nomatch member
  past := startsAuthenticated_cons (by decide) consistent.past

/-- The discovery of the services leads to the first write. -/
theorem Consistent.ready
    {l : Link}
    (consistent : Consistent l)
    (success issued : Bool)
    (notReady : l.readyCalled = false) :
    Consistent (happen (.ready success issued) l) := by
  obtain ⟨noPending, noSuccess⟩ := consistent.unready notReady
  cases success with
  | false =>
      obtain ⟨progress, opened, unready, waiting, started, past⟩ := consistent
      refine ⟨?_, opened, (fun impossible => nomatch impossible), waiting,
        started, past⟩
      show Progress [] (successes l.g.log)
      rw [noSuccess]
      exact .nothing
  | true =>
      obtain ⟨_, opened, _, _, started, past⟩ :=
        consistent.noted (g := readyCb true issued l.g)
          rfl (by simp) (by simp) (by simp)
          (fun impossible => nomatch impossible)
      have same : successes (.writeValue .identification issued :: l.g.log) =
          successes l.g.log :=
        successes_cons (by simp) (by simp) l.g.log
      refine ⟨?_, opened, (fun impossible => nomatch impossible),
        (fun impossible => nomatch impossible), started, past⟩
      show Progress (issuedChar (some .identification) true issued)
        (successes (.writeValue .identification issued :: l.g.log))
      rw [same, noSuccess]
      cases issued
      · exact .nothing
      · exact .identifying

/-- A failed write makes the program scan again. -/
theorem Consistent.failed
    {l : Link}
    (consistent : Consistent l)
    {char : SpsChar}
    (issued : Bool)
    (waitedFor : char ∈ l.pending) :
    Consistent (happen (.completed char false issued) l) := by
  have first := consistent.noted (g := note (.completed char false) l.g)
    rfl (by simp) (by simp) (by simp) id
  have second := first.noted (g := retryScan (note (.completed char false) l.g))
    rfl (by simp) (by simp) (by simp)
    (fun impossible => nomatch impossible)
  have route : happen (.completed char false issued) l =
      { l with
        g := retryScan (note (.completed char false) l.g)
        pending := l.pending.erase char ++ [] } := by
    cases char <;> rfl
  rw [route]
  obtain ⟨progress, opened, unready, waiting, started, past⟩ := second
  dsimp only at progress opened unready waiting started past
  refine ⟨?_, opened, ?_, waiting, started, past⟩
  · show Progress (l.pending.erase char ++ []) (successes _)
    generalize successes (retryScan (note (.completed char false) l.g)).log =
      written at progress ⊢
    generalize l.pending = pending at progress waitedFor ⊢
    cases progress <;> cases waitedFor <;> first | exact nomatch ‹_ ∈ []› | skip
    · exact .nothing
    · exact .identified
    · exact .proven
  · intro notReady
    rw [(unready notReady).1] at waitedFor
    exact nomatch waitedFor

/-- The pending write that has succeeded is the next one in the order. -/
theorem Progress.completed
    {pending written : List SpsChar}
    (progress : Progress pending written)
    {char : SpsChar}
    (waitedFor : char ∈ pending)
    (issued : Bool) :
    Progress (pending.erase char ++ issuedChar (nextChar char) true issued)
        (char :: written) ∧
      written ≠ authenticated ∧
      (char = .misc → char :: written = authenticated) := by
  cases progress with
  | nothing => exact nomatch waitedFor
  | identified => exact nomatch waitedFor
  | proven => exact nomatch waitedFor
  | finished => exact nomatch waitedFor
  | identifying =>
      obtain rfl := List.mem_singleton.mp waitedFor
      refine ⟨?_, by decide, by simp⟩
      cases issued
      · exact .identified
      · exact .authenticating
  | authenticating =>
      obtain rfl := List.mem_singleton.mp waitedFor
      refine ⟨?_, by decide, by simp⟩
      cases issued
      · exact .proven
      · exact .finishing
  | finishing =>
      obtain rfl := List.mem_singleton.mp waitedFor
      refine ⟨?_, by decide, fun _ => rfl⟩
      cases issued
      · exact .finished
      · exact .finished

/-- A write that has succeeded leads to the next one, or to the wait. -/
theorem Consistent.succeeded
    {l : Link}
    (consistent : Consistent l)
    {char : SpsChar}
    (issued : Bool)
    (waitedFor : char ∈ l.pending) :
    Consistent (happen (.completed char true issued) l) := by
  obtain ⟨progress, opened, unready, waiting, started, past⟩ := consistent
  obtain ⟨further, notYet, last⟩ := progress.completed waitedFor issued
  have notStarted : ¬ Started l.g.log := fun begun => notYet (started begun)
  have ready : l.readyCalled ≠ false := by
    intro notReady
    rw [(unready notReady).1] at waitedFor
    exact nomatch waitedFor
  -- the completion itself, before the callback acts on it
  have written : successes (.completed char true :: l.g.log) =
      char :: successes l.g.log := successes_completed char l.g.log
  have begun : Started (.completed char true :: l.g.log) ↔ Started l.g.log :=
    started_cons (by simp) (by simp) l.g.log
  have pastNow : StartsAuthenticated (.completed char true :: l.g.log) :=
    startsAuthenticated_cons (by simp) past
  have middle : Consistent
      { l with
        g :=
          { note (.completed char true) l.g with
            bleConStep := if char = .misc then .waitMldpData else l.g.bleConStep }
        pending := l.pending.erase char ++
          issuedChar (nextChar char) true issued } := by
    refine ⟨?_, fun connected => List.mem_cons_of_mem _ (opened connected),
      fun notReady => absurd notReady ready, ?_, ?_, pastNow⟩
    · show Progress _ (successes (.completed char true :: l.g.log))
      rw [written]
      exact further
    · intro isWaiting
      show successes (.completed char true :: l.g.log) = _ ∧
        ¬ Started (.completed char true :: l.g.log)
      rw [written, begun]
      refine ⟨?_, notStarted⟩
      by_cases isMisc : char = .misc
      · exact last isMisc
      · have before : l.g.bleConStep = .waitMldpData := by
          simpa [isMisc] using isWaiting
        exact absurd (waiting before).1 notYet
    · intro isStarted
      exact absurd (begun.mp isStarted) notStarted
  cases char with
  | identification =>
      exact middle.noted
        (g := clientWriteCb .identification true issued
          (note (.completed .identification true) l.g))
        rfl (by simp) (by simp) (by simp) id
  | authentication =>
      exact middle.noted
        (g := clientWriteCb .authentication true issued
          (note (.completed .authentication true) l.g))
        rfl (by simp) (by simp) (by simp) id
  | misc => exact middle

/-- The first data of the peer starts the file transfer, the others do not. -/
theorem Consistent.mldpWrite
    {l : Link}
    (consistent : Consistent l)
    (connected : l.connected = true)
    (offset : UInt16)
    (value : List UInt8)
    (created : Option Nat) :
    Consistent (happen (.mldpWrite offset value created) l) := by
  obtain ⟨progress, opened, unready, waiting, started, past⟩ := consistent
  show Consistent
    { l with g := serverMldpDataCharWriteCb offset value created l.g }
  unfold serverMldpDataCharWriteCb
  by_cases refused : offset ≠ 0
  · rw [if_pos refused]
    exact ⟨progress, opened, unready, waiting, started, past⟩
  rw [if_neg refused]
  dsimp only
  by_cases isWaiting : l.g.bleConStep = .waitMldpData
  · rw [if_pos isWaiting]
    obtain ⟨written, first⟩ := waiting isWaiting
    have pastNow := startsAuthenticated_start (opened connected) written first
      past
    have sameStart : successes (.startFileTransfer :: l.g.log) =
        successes l.g.log :=
      successes_cons (by simp) (by simp) l.g.log
    have begun : Consistent
        { l with
          g :=
            { note .startFileTransfer l.g with
              bleConStep := .fileTransfer } } := by
      refine ⟨?_, fun _ => List.mem_cons_of_mem _ (opened connected), ?_,
        (fun impossible => nomatch impossible), ?_, pastNow⟩
      · show Progress _ (successes (.startFileTransfer :: l.g.log))
        rw [sameStart]
        exact progress
      · show _ → _ ∧ successes (.startFileTransfer :: l.g.log) = []
        rw [sameStart]
        exact unready
      · intro _
        show successes (.startFileTransfer :: l.g.log) = _
        rw [sameStart]
        exact written
    cases created with
    | none =>
        exact begun.noted rfl (by simp) (by simp) (by simp)
          (fun impossible => nomatch impossible)
    | some id =>
        exact begun.noted rfl (by simp) (by simp) (by simp)
          (fun impossible => nomatch impossible)
  · rw [if_neg isWaiting]
    exact ⟨progress, opened, unready, waiting, started, past⟩

/-- A disconnection makes the program scan again. -/
theorem Consistent.disconnected
    {l : Link}
    (consistent : Consistent l) :
    Consistent (happen .disconnected l) := by
  have joined := consistent.noted
    (g := note (.pthreadJoin l.g.mGattCentral.ftTaskId) l.g)
    rfl (by simp) (by simp) (by simp) id
  exact joined.noted (g := attDisconnectCb l.g) rfl (by simp) (by simp)
    (by simp) (fun impossible => nomatch impossible)

/-- Every allowed event keeps a connection consistent. -/
theorem Consistent.happen
    {l : Link}
    (consistent : Consistent l)
    {event : Event}
    (allowed : Allowed event l) :
    Consistent (Ble.happen event l) := by
  cases event with
  | connect rxBuff txBuff => exact consistent.connect rxBuff txBuff
  | ready success issued =>
      exact consistent.ready success issued allowed.2.2
  | completed char success issued =>
      cases success with
      | false => exact consistent.failed issued allowed.2.2
      | true => exact consistent.succeeded issued allowed.2.2
  | mldpWrite offset value created =>
      exact consistent.mldpWrite allowed.2 offset value created
  | disconnected => exact consistent.disconnected

theorem runs_consistent
    {trace : List (Link × Event)}
    {l : Link}
    (runs : Runs trace l) :
    Consistent l := by
  induction runs with
  | start => exact consistent_start
  | snoc earlier allowed inductionHypothesis =>
      exact inductionHypothesis.happen allowed

/--
In every run, a file transfer is started only after the identification, the
authentication and the misc characteristic of its connection have been written
with success, in this order, and at most once for a connection.
-/
theorem start_authenticated
    {trace : List (Link × Event)}
    {l : Link}
    (runs : Runs trace l)
    {later earlier : List Call}
    (started : l.g.log = later ++ .startFileTransfer :: earlier) :
    Call.gattCentralCreate ∈ earlier ∧
      successes earlier =
        [.misc, .authentication, .identification] ∧
      Call.startFileTransfer ∉ sinceCreate earlier :=
  (runs_consistent runs).past later earlier started

/-- A connection that authenticates, and the first data of the peer. -/
def startTrace : List Event :=
  [.connect [] [], .ready true true, .completed .identification true true,
    .completed .authentication true true, .completed .misc true true,
    .mldpWrite 0 [1] (some 7)]

/-- The states of a run with given events. -/
def follow : List Event → Link → List (Link × Event)
  | [], _ => []
  | event :: rest, l => (l, event) :: follow rest (happen event l)

/-- The state after given events. -/
def after
    (events : List Event)
    (l : Link) : Link :=
  events.foldl (fun l event => happen event l) l

/-- Events that are allowed one after the other continue a run. -/
theorem Runs.follow
    {trace : List (Link × Event)}
    {l : Link}
    (runs : Runs trace l)
    {events : List Event}
    (allowed : ∀ visited ∈ Ble.follow events l,
      Allowed visited.2 visited.1) :
    Runs (trace ++ Ble.follow events l) (after events l) := by
  induction events generalizing trace l with
  | nil => simpa [Ble.follow, after] using runs
  | cons event rest inductionHypothesis =>
      have first := runs.snoc (allowed (l, event) (List.mem_cons_self ..))
      have further := inductionHypothesis first
        fun visited member => allowed visited (List.mem_cons_of_mem _ member)
      simpa [Ble.follow, after] using further

instance
    (event : Event)
    (l : Link) :
    Decidable (Allowed event l) := by
  unfold Allowed
  cases event <;> exact inferInstance

theorem runs_after
    {events : List Event}
    (allowed : ∀ visited ∈ follow events Link.start,
      Allowed visited.2 visited.1) :
    Runs (follow events Link.start) (after events Link.start) := by
  simpa using Runs.start.follow allowed

theorem start_authenticated_run :
    Call.gattCentralCreate ∈
        (after startTrace Link.start).g.log.drop 2 ∧
      successes ((after startTrace Link.start).g.log.drop 2) =
        [.misc, .authentication, .identification] ∧
      Call.startFileTransfer ∉
        sinceCreate ((after startTrace Link.start).g.log.drop 2) :=
  @start_authenticated _ _
    (@runs_after startTrace (by decide +kernel))
    [.pthreadCreate 7] _
    (by decide +kernel)

/-! ## Joining the thread of the file transfer -/

/-- No join of a thread since it was created last. -/
def Unjoined
    (log : List Call)
    (id : Nat) : Prop :=
  Call.pthreadJoin (some id) ∉ log.takeWhile (· ≠ .pthreadCreate id)

/-- The join of a thread of this connection that has not been joined yet. -/
def JoinValid
    (earlier : List Call)
    (joined : Option Nat) : Prop :=
  ∃ id, joined = some id ∧
    Call.pthreadCreate id ∈ sinceCreate earlier ∧
    Unjoined earlier id

/-- Every join of a run is valid where it is made. -/
def JoinsValid
    (log : List Call) : Prop :=
  ∀ later joined earlier, log = later ++ .pthreadJoin joined :: earlier →
    JoinValid earlier joined

theorem unjoined_cons
    {call : Call}
    {id : Nat}
    (noCreate : call ≠ .pthreadCreate id)
    (noJoin : call ≠ .pthreadJoin (some id))
    (log : List Call) :
    Unjoined (call :: log) id ↔ Unjoined log id := by
  unfold Unjoined
  rw [List.takeWhile_cons_of_pos (by simpa using noCreate), List.mem_cons]
  exact not_congr ⟨fun member => member.resolve_left noJoin.symm, Or.inr⟩

theorem unjoined_create
    (id : Nat)
    (log : List Call) :
    Unjoined (.pthreadCreate id :: log) id := by
  simp [Unjoined]

theorem not_unjoined_join
    (id : Nat)
    (log : List Call) :
    ¬ Unjoined (.pthreadJoin (some id) :: log) id := by
  simp [Unjoined]

theorem joinsValid_cons
    {call : Call}
    (noJoin : ∀ joined, call ≠ .pthreadJoin joined)
    (log : List Call) :
    JoinsValid (call :: log) ↔ JoinsValid log := by
  refine ⟨fun valid later joined earlier shape =>
    valid (call :: later) joined earlier (by rw [shape]; rfl), ?_⟩
  intro valid later joined earlier shape
  cases later with
  | nil => exact absurd (List.cons.inj shape).1 (noJoin joined)
  | cons _ later => exact valid later joined earlier (List.cons.inj shape).2

theorem joinsValid_join
    (joined : Option Nat)
    (log : List Call) :
    JoinsValid (.pthreadJoin joined :: log) ↔
      JoinValid log joined ∧ JoinsValid log := by
  constructor
  · intro valid
    exact ⟨valid [] joined log rfl, fun later other earlier shape =>
      valid (_ :: later) other earlier (by rw [shape]; rfl)⟩
  · rintro ⟨now, past⟩ later other earlier shape
    cases later with
    | nil =>
        obtain ⟨same, rfl⟩ := List.cons.inj shape
        obtain rfl := Call.pthreadJoin.inj same
        exact now
    | cons _ later => exact past later other earlier (List.cons.inj shape).2

/-- The thread of a connection: running in `BLE_FILE_TRANSFER`, else joined. -/
structure Threads
    (g : Globals) : Prop where
  created : ∀ id, g.mGattCentral.ftTaskId = some id →
    Call.pthreadCreate id ∈ sinceCreate g.log
  begun : g.bleConStep = .fileTransfer → Started g.log
  running : g.bleConStep = .fileTransfer → Call.exit ∈ g.log ∨
    ∃ id, g.mGattCentral.ftTaskId = some id ∧ Unjoined g.log id
  idle : g.bleConStep ≠ .fileTransfer →
    ∀ id, g.mGattCentral.ftTaskId = some id → ¬ Unjoined g.log id

theorem Threads.joinValid_iff
    {g : Globals}
    (threads : Threads g)
    (alive : Call.exit ∉ g.log) :
    JoinValid g.log g.mGattCentral.ftTaskId ↔
      g.bleConStep = .fileTransfer := by
  constructor
  · rintro ⟨id, isSet, _, unjoined⟩
    by_contra other
    exact threads.idle other id isSet unjoined
  · intro transferring
    obtain ⟨id, isSet, unjoined⟩ :=
      (threads.running transferring).resolve_left alive
    exact ⟨id, isSet, threads.created id isSet, unjoined⟩

/-- A call about no thread leaves the thread as it is. -/
theorem Threads.noted
    {g : Globals}
    (threads : Threads g)
    {g' : Globals}
    {call : Call}
    (log : g'.log = call :: g.log)
    (task : g'.mGattCentral.ftTaskId = g.mGattCentral.ftTaskId)
    (step : g'.bleConStep = .fileTransfer ↔ g.bleConStep = .fileTransfer)
    (other : call ≠ .gattCentralCreate)
    (noCreate : ∀ id, call ≠ .pthreadCreate id)
    (noJoin : ∀ joined, call ≠ .pthreadJoin joined) :
    Threads g' := by
  obtain ⟨created, begun, running, idle⟩ := threads
  have further : sinceCreate g'.log = call :: sinceCreate g.log := by
    rw [log, sinceCreate_cons other]
  have unjoined : ∀ id, Unjoined g'.log id ↔ Unjoined g.log id := by
    intro id
    rw [log]
    exact unjoined_cons (noCreate id) (noJoin (some id)) g.log
  refine ⟨?_, ?_, ?_, ?_⟩
  · intro id isSet
    rw [further]
    exact List.mem_cons_of_mem _ (created id (task ▸ isSet))
  · intro transferring
    unfold Started
    rw [further]
    exact List.mem_cons_of_mem _ (begun (step.mp transferring))
  · intro transferring
    rw [task]
    obtain gone | ⟨id, isSet, waiting⟩ := running (step.mp transferring)
    · exact .inl (log ▸ List.mem_cons_of_mem _ gone)
    · exact .inr ⟨id, isSet, (unjoined id).mpr waiting⟩
  · intro notTransferring id isSet
    rw [unjoined]
    exact idle (mt step.mpr notTransferring) id (task ▸ isSet)

/-- A change of the step between two that are not the file transfer. -/
theorem Threads.stepped
    {g : Globals}
    (threads : Threads g)
    {g' : Globals}
    (log : g'.log = g.log)
    (task : g'.mGattCentral.ftTaskId = g.mGattCentral.ftTaskId)
    (step : g'.bleConStep = .fileTransfer ↔ g.bleConStep = .fileTransfer) :
    Threads g' := by
  obtain ⟨created, begun, running, idle⟩ := threads
  refine ⟨?_, ?_, ?_, ?_⟩
  · rw [task, log]
    exact created
  · rw [step, log]
    exact begun
  · rw [step, log, task]
    exact running
  · rw [Ne, step, log, task]
    exact idle

/-- The file transfer has not begun while a callback of GATT is awaited. -/
theorem Consistent.notStarted
    {l : Link}
    (consistent : Consistent l)
    (awaited : l.readyCalled = false ∨ l.pending ≠ []) :
    ¬ Started l.g.log := by
  intro begun
  have written := consistent.started begun
  obtain notReady | waiting := awaited
  · rw [(consistent.unready notReady).2] at written
    exact nomatch written
  · have progress := consistent.progress
    rw [written] at progress
    generalize l.pending = pending at progress waiting
    cases progress
    exact waiting rfl

/-- Every allowed event keeps the thread of a connection. -/
theorem Threads.happen
    {l : Link}
    (threads : Threads l.g)
    (consistent : Consistent l)
    {event : Event}
    (allowed : Allowed event l) :
    Threads (Ble.happen event l).g := by
  cases event with
  | connect rxBuff txBuff =>
      exact ⟨(fun id isSet => nomatch isSet), (fun isSet => nomatch isSet),
        (fun isSet => nomatch isSet), fun _ id isSet => nomatch isSet⟩
  | ready success issued =>
      have quiet : l.g.bleConStep ≠ .fileTransfer := fun transferring =>
        consistent.notStarted (.inl allowed.2.2) (threads.begun transferring)
      cases success with
      | false => exact threads
      | true =>
          exact threads.noted rfl rfl
            (iff_of_false (fun impossible => nomatch impossible) quiet)
            (by simp) (by simp) (by simp)
  | completed char success issued =>
      have quiet : l.g.bleConStep ≠ .fileTransfer := fun transferring =>
        consistent.notStarted (.inr (List.ne_nil_of_mem allowed.2.2))
          (threads.begun transferring)
      have first : Threads (note (.completed char success) l.g) :=
        threads.noted rfl rfl Iff.rfl (by simp) (by simp) (by simp)
      cases success with
      | false =>
          have route : (Ble.happen (.completed char false issued) l).g =
              retryScan (note (.completed char false) l.g) := by
            cases char <;> rfl
          rw [route]
          exact first.noted rfl rfl
            (iff_of_false (fun impossible => nomatch impossible) quiet)
            (by simp) (by simp) (by simp)
      | true =>
          cases char with
          | identification =>
              exact first.noted rfl rfl Iff.rfl (by simp) (by simp) (by simp)
          | authentication =>
              exact first.noted rfl rfl Iff.rfl (by simp) (by simp) (by simp)
          | misc =>
              exact first.stepped rfl rfl
                (iff_of_false (fun impossible => nomatch impossible) quiet)
  | mldpWrite offset value created =>
      show Threads (serverMldpDataCharWriteCb offset value created l.g)
      unfold serverMldpDataCharWriteCb
      by_cases refused : offset ≠ 0
      · rw [if_pos refused]
        exact threads
      rw [if_neg refused]
      dsimp only
      by_cases isWaiting : l.g.bleConStep = .waitMldpData
      · rw [if_pos isWaiting]
        have begun : Started (.startFileTransfer :: l.g.log) := by
          unfold Started
          rw [sinceCreate_cons (by simp)]
          exact List.mem_cons_self ..
        cases created with
        | none =>
            have idle := threads.idle (by rw [isWaiting]; decide)
            refine ⟨?_, ?_, ?_, ?_⟩
            · intro id isSet
              show _ ∈ sinceCreate (.exit :: .startFileTransfer :: l.g.log)
              rw [sinceCreate_cons (by simp), sinceCreate_cons (by simp)]
              exact List.mem_cons_of_mem _
                (List.mem_cons_of_mem _ (threads.created id isSet))
            · intro _
              exact (started_cons (by simp) (by simp) _).mpr begun
            · exact fun _ => .inl (List.mem_cons_self ..)
            · exact fun other => absurd rfl other
        | some id =>
            refine ⟨?_, ?_, ?_, ?_⟩
            · intro other isSet
              obtain rfl : id = other := Option.some.inj isSet
              show _ ∈ sinceCreate
                (.pthreadCreate id :: .startFileTransfer :: l.g.log)
              rw [sinceCreate_cons (by simp)]
              exact List.mem_cons_self ..
            · intro _
              exact (started_cons (by simp) (by simp) _).mpr begun
            · exact fun _ => .inr ⟨id, rfl, unjoined_create id _⟩
            · exact fun other => absurd rfl other
      · rw [if_neg isWaiting]
        exact threads.stepped rfl rfl Iff.rfl
  | disconnected =>
      refine ⟨?_, (fun impossible => nomatch impossible),
        (fun impossible => nomatch impossible), ?_⟩
      · intro id isSet
        show _ ∈ sinceCreate (.mainloopQuit :: .pthreadJoin _ :: l.g.log)
        rw [sinceCreate_cons (by simp), sinceCreate_cons (by simp)]
        exact List.mem_cons_of_mem _
          (List.mem_cons_of_mem _ (threads.created id isSet))
      · intro _ id isSet
        have now : l.g.mGattCentral.ftTaskId = some id := isSet
        show ¬ Unjoined (.mainloopQuit ::
          .pthreadJoin l.g.mGattCentral.ftTaskId :: l.g.log) id
        rw [now, unjoined_cons (by simp) (by simp)]
        exact not_unjoined_join id l.g.log

theorem runs_threads
    {trace : List (Link × Event)}
    {l : Link}
    (runs : Runs trace l) :
    Threads l.g := by
  induction runs with
  | start =>
      exact ⟨(fun id isSet => nomatch isSet), (fun isSet => nomatch isSet),
        (fun isSet => nomatch isSet), fun _ id isSet => nomatch isSet⟩
  | snoc earlier allowed inductionHypothesis =>
      exact inductionHypothesis.happen (runs_consistent earlier) allowed

/-- Only a disconnection adds a join to the log. -/
theorem joinsValid_happen
    {l : Link}
    (threads : Threads l.g)
    {event : Event}
    (allowed : Allowed event l) :
    JoinsValid (happen event l).g.log ↔
      JoinsValid l.g.log ∧
        (event = .disconnected → l.g.bleConStep = .fileTransfer) := by
  cases event with
  | connect rxBuff txBuff =>
      have opened : JoinsValid (happen (.connect rxBuff txBuff) l).g.log ↔
          JoinsValid l.g.log := joinsValid_cons (by simp) l.g.log
      simpa using opened
  | ready success issued =>
      cases success with
      | false => simp [happen, readyCb]
      | true =>
          have written : JoinsValid (happen (.ready true issued) l).g.log ↔
              JoinsValid l.g.log := joinsValid_cons (by simp) l.g.log
          simpa using written
  | completed char success issued =>
      have first : JoinsValid (.completed char success :: l.g.log) ↔
          JoinsValid l.g.log := joinsValid_cons (by simp) l.g.log
      have log : ∃ calls : List Call,
          (happen (.completed char success issued) l).g.log =
              calls ++ .completed char success :: l.g.log ∧
            (calls = [] ∨ ∃ call, calls = [call] ∧
              ∀ joined, call ≠ .pthreadJoin joined) := by
        cases success with
        | false =>
            exact ⟨[.mainloopQuit], by cases char <;> rfl,
              .inr ⟨_, rfl, by simp⟩⟩
        | true =>
            cases char with
            | identification =>
                exact ⟨[.writeValue .authentication issued], rfl,
                  .inr ⟨_, rfl, by simp⟩⟩
            | authentication =>
                exact ⟨[.writeValue .misc issued], rfl,
                  .inr ⟨_, rfl, by simp⟩⟩
            | misc => exact ⟨[], rfl, .inl rfl⟩
      obtain ⟨calls, shape, rfl | ⟨call, rfl, noJoin⟩⟩ := log
      · rw [shape]
        simpa using first
      · rw [shape]
        simpa using (joinsValid_cons noJoin _).trans first
  | mldpWrite offset value created =>
      show JoinsValid (serverMldpDataCharWriteCb offset value created l.g).log ↔ _
      unfold serverMldpDataCharWriteCb
      by_cases refused : offset ≠ 0
      · simp [refused]
      rw [if_neg refused]
      dsimp only
      by_cases isWaiting : l.g.bleConStep = .waitMldpData
      · rw [if_pos isWaiting]
        have first : JoinsValid (.startFileTransfer :: l.g.log) ↔
            JoinsValid l.g.log := joinsValid_cons (by simp) l.g.log
        have second : ∀ call : Call, (∀ joined, call ≠ .pthreadJoin joined) →
            (JoinsValid (call :: .startFileTransfer :: l.g.log) ↔
              JoinsValid l.g.log ∧
                (Event.mldpWrite offset value created = .disconnected →
                  l.g.bleConStep = .fileTransfer)) := by
          intro call noJoin
          rw [joinsValid_cons noJoin, first]
          simp
        cases created with
        | none => exact second .exit (by simp)
        | some id => exact second (.pthreadCreate id) (by simp)
      · simp [isWaiting]
  | disconnected =>
      have quit : JoinsValid (happen .disconnected l).g.log ↔
          JoinsValid (.pthreadJoin l.g.mGattCentral.ftTaskId :: l.g.log) :=
        joinsValid_cons (by simp) _
      rw [quit, joinsValid_join, threads.joinValid_iff allowed.1, and_comm]
      simp

/--
In every run, the joins are of a thread that was created in the same connection
and not joined before if and only if every disconnection of the run arrives in
the step `BLE_FILE_TRANSFER`.
-/
theorem disconnect_joins_iff
    {trace : List (Link × Event)}
    {l : Link}
    (runs : Runs trace l) :
    (∀ later joined earlier,
        l.g.log = later ++ .pthreadJoin joined :: earlier →
          JoinValid earlier joined) ↔
      ∀ visited ∈ trace, visited.2 = .disconnected →
        visited.1.g.bleConStep = .fileTransfer := by
  show JoinsValid l.g.log ↔ _
  induction runs with
  | start =>
      refine iff_of_true ?_ (by simp)
      intro later joined earlier shape
      have impossible : ([] : List Call) =
        later ++ .pthreadJoin joined :: earlier := shape
      simp at impossible
  | snoc earlier allowed inductionHypothesis =>
      rw [joinsValid_happen (runs_threads earlier) allowed,
        inductionHypothesis]
      simp [or_imp, forall_and]

/-- A connection with a file transfer that is disconnected. -/
def transferTrace : List Event :=
  startTrace ++ [.disconnected]

theorem disconnect_joins_run :
    JoinsValid (after transferTrace Link.start).g.log :=
  (disconnect_joins_iff
    (@runs_after transferTrace (by decide +kernel))).mpr
    (by decide +kernel)

/-- A disconnection before the discovery of the services joins no thread. -/
theorem disconnect_joins_unset :
    ∃ trace l, Runs trace l ∧
      ∃ later joined earlier,
        l.g.log = later ++ .pthreadJoin joined :: earlier ∧
          ¬ JoinValid earlier joined :=
  ⟨follow [.connect [] [], .disconnected] Link.start,
    after [.connect [] [], .disconnected] Link.start,
    runs_after (by decide +kernel),
    [.mainloopQuit], none, [.gattCentralCreate], by decide +kernel,
    fun valid => nomatch valid.choose_spec.1⟩

end Slate106.Ble
