import Slate106.KermitWf

namespace Slate106.Kermit

open CBytes

/-!
# A server that waits for requests does not write

Whatever packets arrive in a session that `kermit_main()` starts to wait, with
the callbacks of `unixio_rpi.c`: no file is opened for writing, written to or
deleted.
-/

variable {σ : Type}

/-- A call of the protocol module that neither decodes nor writes a file. -/
def keepsFiles : Call → Bool
  | .openf _ mode rc => mode == 1 || rc != xOk
  | .writef .. => false
  | .decodeFile => false
  | _ => true

/-- A call of the callbacks that only opens a file for reading. -/
def onlyReads : FileCall → Bool
  | .fopen _ mode => mode == "r"
  | .write _ => false
  | .unlink _ => false

/-- Nothing has been written so far, and no output file is open. -/
structure Unwritten
    (s : Sys (Unix σ)) : Prop where
  ofile : s.w.ofile = -1
  log : ∀ call ∈ s.log, keepsFiles call = true
  calls : ∀ call ∈ s.w.calls, onlyReads call = true

/-- A session in which nothing is going to be written either. -/
structure Serving
    (s : Sys (Unix σ)) : Prop where
  unwritten : Unwritten s
  notData : s.k.state ≠ .rData
  notListing : s.k.state = .rWait → s.k.what ≠ .dir

/-! ## The callbacks -/

section Callbacks

variable {s s' : Sys (Unix σ)}

/-- One more call by the protocol module, and what it did to the outside. -/
theorem Unwritten.called
    (unwritten : Unwritten s)
    {call : Call}
    (log : s'.log = call :: s.log)
    (keeps : keepsFiles call = true)
    (ofile : s'.w.ofile = s.w.ofile)
    (calls : ∀ call ∈ s'.w.calls, onlyReads call = true) :
    Unwritten s' := by
  refine ⟨ofile.trans unwritten.ofile, ?_, calls⟩
  intro other member
  rw [log] at member
  rcases List.mem_cons.mp member with first | earlier
  · rw [first]
    exact keeps
  · exact unwritten.log other earlier

theorem kreadfile_files
    (os : Os σ)
    (w : Unix σ)
    (k : KData) :
    (kreadfile os w k).2.2.ofile = w.ofile ∧
      (kreadfile os w k).2.2.calls = w.calls := by
  unfold kreadfile
  split
  · exact ⟨rfl, rfl⟩
  · split
    · dsimp only
      split <;> exact ⟨rfl, rfl⟩
    · exact ⟨rfl, rfl⟩

/-- A file that `kopenfile()` opens is opened for reading. -/
theorem kopenfile_reads
    (os : Os σ)
    {w : Unix σ}
    (calls : ∀ call ∈ w.calls, onlyReads call = true)
    (k : KData)
    (name : List UInt8)
    (mode filesize : Int) :
    (mode = 1 ∨ (kopenfile os w k name mode filesize).1 ≠ xOk) ∧
      (kopenfile os w k name mode filesize).2.2.2.ofile = w.ofile ∧
      ∀ call ∈ (kopenfile os w k name mode filesize).2.2.2.calls,
        onlyReads call = true := by
  unfold kopenfile
  dsimp only
  split
  · rename_i forReading
    refine ⟨Or.inl forReading, ?_⟩
    have opened :
        ∀ call ∈ FileCall.fopen (kaddRootpath k.cfg.rootpath name) "r" ::
          w.calls, onlyReads call = true := by
      intro call member
      rcases List.mem_cons.mp member with first | earlier
      · rw [first]
        rfl
      · exact calls call earlier
    split
    · exact ⟨rfl, opened⟩
    · exact ⟨rfl, opened⟩
  · exact ⟨Or.inr (show xError ≠ xOk by decide), rfl, calls⟩

/-- Without an output file, `kclosefile()` neither closes nor deletes one. -/
theorem kclosefile_keeps
    (os : Os σ)
    {w : Unix σ}
    (ofile : w.ofile = -1)
    (k : KData)
    (name : List UInt8)
    (c : UInt8)
    (mode : Int) :
    (kclosefile os w k name c mode).2.ofile = w.ofile ∧
      (kclosefile os w k name c mode).2.calls = w.calls := by
  unfold kclosefile
  split
  · split <;> exact ⟨rfl, rfl⟩
  · split
    · rw [if_pos (by omega)]
      exact ⟨rfl, rfl⟩
    · exact ⟨rfl, rfl⟩

theorem listEntries_reads
    (kfilename : List UInt8)
    (entries : List DirEntry)
    (cnt : Nat)
    (pdf scratch : List UInt8)
    {calls : List FileCall}
    (before : ∀ call ∈ calls, onlyReads call = true) :
    ∀ call ∈ (listEntries kfilename entries cnt pdf scratch calls).2.2,
      onlyReads call = true := by
  induction entries generalizing cnt pdf scratch calls with
  | nil =>
      exact before
  | cons entry rest inductionHypothesis =>
      have opened :
          ∀ call ∈ FileCall.fopen (kfilename ++ lit "/" ++ entry.name) "r" ::
            calls, onlyReads call = true := by
        intro call member
        rcases List.mem_cons.mp member with first | earlier
        · rw [first]
          rfl
        · exact before call earlier
      unfold listEntries
      dsimp only
      split
      · exact inductionHypothesis _ _ _ before
      · split
        · exact inductionHypothesis _ _ _ opened
        · split
          · exact inductionHypothesis _ _ _ opened
          · split
            · exact opened
            · exact inductionHypothesis _ _ _ opened

theorem kgetdirdata_reads
    (os : Os σ)
    {w : Unix σ}
    (calls : ∀ call ∈ w.calls, onlyReads call = true)
    (k : KData) :
    (kgetdirdata os w k).2.2.2.ofile = w.ofile ∧
      ∀ call ∈ (kgetdirdata os w k).2.2.2.calls, onlyReads call = true := by
  unfold kgetdirdata
  dsimp only
  split
  · exact ⟨rfl, calls⟩
  · exact ⟨rfl, listEntries_reads _ _ _ _ _ calls⟩

end Callbacks

/-! ## Steps and calls -/

section Steps

variable {os : Os σ}
variable {s s' : Sys (Unix σ)}

theorem Chore.unwritten
    (step : Chore (unixio os) s s')
    (unwritten : Unwritten s) :
    Unwritten s' := by
  cases step with
  | scratch same =>
      refine ⟨?_, ?_, ?_⟩
      · rw [same.w]
        exact unwritten.ofile
      · rw [same.log]
        exact unwritten.log
      · rw [same.w]
        exact unwritten.calls
  | txd =>
      exact unwritten.called rfl rfl rfl unwritten.calls
  | openf name mode filesize =>
      obtain ⟨reading, ofile, calls⟩ :=
        kopenfile_reads os unwritten.calls s.k name mode filesize
      refine unwritten.called rfl ?_ ofile calls
      simp only [keepsFiles, Bool.or_eq_true, beq_iff_eq, bne_iff_ne]
      exact reading
  | readf =>
      obtain ⟨ofile, calls⟩ := kreadfile_files os s.w s.k
      refine unwritten.called rfl rfl ofile ?_
      intro call member
      have earlier : call ∈ (kreadfile os s.w s.k).2.2.calls := member
      rw [calls] at earlier
      exact unwritten.calls call earlier
  | accessf name =>
      exact unwritten.called rfl rfl rfl unwritten.calls
  | closef c mode =>
      obtain ⟨ofile, calls⟩ :=
        kclosefile_keeps os unwritten.ofile s.k
          ((s.k.filename.map (deref s)).getD []) c mode
      refine unwritten.called rfl rfl ofile ?_
      intro call member
      have earlier :
          call ∈ (kclosefile os s.w s.k
            ((s.k.filename.map (deref s)).getD []) c mode).2.calls :=
        member
      rw [calls] at earlier
      exact unwritten.calls call earlier
  | getdirdata =>
      obtain ⟨ofile, calls⟩ := kgetdirdata_reads os unwritten.calls s.k
      exact unwritten.called rfl rfl ofile calls
  | finfo | params =>
      exact ⟨unwritten.ofile, unwritten.log, unwritten.calls⟩

theorem Chores.unwritten
    (steps : Chores (unixio os) s s')
    (unwritten : Unwritten s) :
    Unwritten s' := by
  induction steps with
  | refl =>
      exact unwritten
  | tail _ step inductionHypothesis =>
      exact step.unwritten inductionHypothesis

theorem Work.unwritten
    (step : Work (unixio os) s s')
    (notData : s.k.state ≠ .rData)
    (unwritten : Unwritten s) :
    Unwritten s' := by
  cases step with
  | chore step =>
      exact step.unwritten unwritten
  | txd =>
      exact unwritten.called rfl rfl rfl unwritten.calls
  | writef _ _ inData | decodeFile _ inData =>
      exact absurd inData notData
  | _ =>
      exact ⟨unwritten.ofile, unwritten.log, unwritten.calls⟩

/-- One step of a call keeps a session serving. -/
theorem Move.serving
    (step : Move (unixio os) s s')
    (serving : Serving s) :
    Serving s' := by
  cases step with
  | work step =>
      have control := step.control
      refine ⟨step.unwritten serving.notData serving.unwritten, ?_, ?_⟩
      · rw [control.state]
        exact serving.notData
      · rw [control.state, control.what]
        exact serving.notListing
  | state state _ active opened =>
      have unwritten := serving.unwritten
      refine ⟨⟨unwritten.ofile, unwritten.log, unwritten.calls⟩, ?_, ?_⟩
      · intro isData
        rcases (opened isData).opened with
          ⟨name, rest, logged⟩ | ⟨listing, waiting⟩
        · have member : .openf name 2 xOk ∈ s.log := by
            rw [logged]
            exact List.mem_cons_self
          exact absurd (unwritten.log _ member) (by simp [keepsFiles])
        · exact serving.notListing waiting listing
      · intro waiting
        exact absurd waiting active.1
  | what what _ notWait =>
      have unwritten := serving.unwritten
      refine ⟨⟨unwritten.ofile, unwritten.log, unwritten.calls⟩,
        serving.notData, ?_⟩
      intro waiting listing
      exact notWait listing waiting

theorem Moves.serving
    (steps : Moves (unixio os) s s')
    (serving : Serving s) :
    Serving s' := by
  induction steps with
  | refl =>
      exact serving
  | tail _ step inductionHypothesis =>
      exact step.serving inductionHypothesis

/-- A session that serves, or one whose last call was the end. -/
def Served
    (result : Int × Sys (Unix σ)) : Prop :=
  Serving result.2 ∨
    (result.1 = xDone ∧ result.2.k.state ≠ .rData ∧ Unwritten result.2)

theorem Serving.kermitRun
    (serving : Serving s)
    (len : Int)
    (msg : List UInt8) :
    Served (kermit (unixio os) .run len msg s) := by
  have tested : Serving (testRslots (unixio os) s) :=
    (works_testRslots s).moves.serving serving
  rcases (ran_kermitRun len msg (testRslots (unixio os) s)).steps with
    steps | ⟨done, t, steps, last⟩
  · exact Or.inl (steps.serving tested)
  · refine Or.inr ⟨done, ?_, ?_⟩
    · rw [kermit, last]
      exact fun isData => nomatch isData
    · have unwritten := (steps.serving tested).unwritten
      rw [kermit, last]
      exact ⟨unwritten.ofile, unwritten.log, unwritten.calls⟩

theorem Serving.kermitError
    (serving : Serving s)
    (len : Int)
    (msg : List UInt8) :
    Serving (kermit (unixio os) .error len msg s).2 := by
  have told :
      Works (unixio os) s (epkt (unixio os) msg (testRslots (unixio os) s)) :=
    (works_testRslots s).and (works_epkt msg _)
  exact (told.then (.closef 0 _ _)).moves.serving serving

end Steps

/-! ## The main loop -/

section Main

variable {os : Os σ}

/-- What is true in every turn of the main loop. -/
structure Watched
    (v : MainVars (Unix σ)) : Prop where
  notData : v.sys.k.state ≠ .rData
  unwritten : Unwritten v.sys
  serving : v.ret = none → Serving v.sys

theorem Serving.scratch
    {s s' : Sys (Unix σ)}
    (serving : Serving s)
    (same : SameCore s s')
    (os : Os σ) :
    Serving s' := by
  have steps : Works (unixio os) s s' := works_scratch same
  exact steps.moves.serving serving

theorem watched_mainHandle
    {v : MainVars (Unix σ)}
    (serving : Serving v.sys) :
    Watched (mainHandle (unixio os) v) := by
  unfold mainHandle
  split
  · split
    · exact ⟨serving.notData, serving.unwritten, fun _ => serving⟩
    · have told : Serving
          (kermit (unixio os) .error v.rxLen (lit "eksw to") v.sys).2 :=
        serving.kermitError v.rxLen (lit "eksw to")
      exact ⟨told.notData, told.unwritten, fun _ => told⟩
  · dsimp only
    generalize turn :
      (if v.rxLen = 0 then { v with retrycounter := v.retrycounter - 1 }
        else v) = u
    have same : u.sys = v.sys := by
      rw [← turn]
      split <;> rfl
    rw [← same] at serving
    have served : Served (kermit (unixio os) .run u.rxLen [] u.sys) :=
      serving.kermitRun u.rxLen []
    generalize kermit (unixio os) .run u.rxLen [] u.sys = done at served
    rcases served with serving | ⟨ended, notData, unwritten⟩
    · split
      · exact ⟨serving.notData, serving.unwritten, fun _ => serving⟩
      · split
        · exact ⟨serving.notData, serving.unwritten, fun _ => serving⟩
        · exact ⟨serving.notData, serving.unwritten, fun _ => serving⟩
    · rw [if_pos ended]
      exact ⟨notData, unwritten, fun goesOn => nomatch goesOn⟩

theorem watched_mainIter
    {v : MainVars (Unix σ)}
    (watched : Watched v)
    (rx : Rx) :
    Watched (mainIter (unixio os) rx v) := by
  unfold mainIter
  by_cases left : v.ret ≠ none
  · rw [if_pos left]
    exact watched
  · rw [if_neg left]
    have serving := watched.serving (not_not.mp left)
    have asked : Serving (onK ok2rxd v.sys) :=
      serving.scratch
        ⟨rfl, rfl, rfl, rfl, rfl, rfl, rfl, rfl, rfl, rfl, rfl⟩ os
    have received : Serving (receive rx (onK ok2rxd v.sys)) :=
      asked.scratch
        ⟨rfl, rfl, rfl, rfl, rfl, rfl, rfl, rfl, rfl, rfl, rfl⟩ os
    dsimp only
    split
    · split
      · exact
          ⟨received.notData, received.unwritten, fun goesOn => nomatch goesOn⟩
      · exact watched_mainHandle received
    · exact watched_mainHandle asked

/-- `K_REINIT` in the main program starts a session that serves. -/
theorem serving_mainStart
    {s : Sys (Unix σ)}
    (unwritten : Unwritten s)
    (cmlist : List StrRef) :
    Serving (mainStart (unixio os) .wait cmlist s).sys := by
  have tested :
      Unwritten
        (testRslots (unixio os)
          { s with r.type := .wait, k.filelist := cmlist }) :=
    (chores_testRslots _).unwritten
      ⟨unwritten.ofile, unwritten.log, unwritten.calls⟩
  refine ⟨⟨tested.ofile, tested.log, tested.calls⟩, ?_, ?_⟩
  · exact fun isData => nomatch isData
  · exact fun _ listing => nomatch listing

end Main

/--
In a session that `kermit_main()` starts to wait for requests, whatever
packets arrive, nothing is written, deleted or opened for writing, and the
state never is `R_DATA`; nor does the end of the session write.
-/
theorem wait_session_read_only
    (os : Os σ)
    {s : Sys (Unix σ)}
    (unwritten : Unwritten s)
    (cmlist : List StrRef)
    (rxs : List Rx) :
    let v :=
      mainLoop (unixio os) rxs (mainStart (unixio os) .wait cmlist s)
    v.sys.k.state ≠ .rData ∧ Unwritten v.sys ∧
      Unwritten (mainEnd os v.sys) := by
  have serving :
      Serving (mainStart (unixio os) .wait cmlist s).sys :=
    serving_mainStart unwritten cmlist
  have run :
      ∀ v : MainVars (Unix σ), Watched v →
        Watched (mainLoop (unixio os) rxs v) := by
    unfold mainLoop
    induction rxs with
    | nil =>
        exact fun v watched => watched
    | cons rx rest inductionHypothesis =>
        intro v watched
        exact inductionHypothesis _ (watched_mainIter watched rx)
  have watched :=
    run _ ⟨serving.notData, serving.unwritten, fun _ => serving⟩
  refine ⟨watched.notData, watched.unwritten, ?_⟩
  generalize
    mainLoop (unixio os) rxs (mainStart (unixio os) .wait cmlist s) = v
    at watched
  obtain ⟨ofile, calls⟩ :=
    kclosefile_keeps os watched.unwritten.ofile v.sys.k
      ((v.sys.k.filename.map (deref v.sys)).getD []) 0 2
  refine ⟨ofile.trans watched.unwritten.ofile, watched.unwritten.log, ?_⟩
  intro call member
  have earlier :
      call ∈ (kclosefile os v.sys.w v.sys.k
        ((v.sys.k.filename.map (deref v.sys)).getD []) 0 2).2.calls :=
    member
  rw [calls] at earlier
  exact watched.unwritten.calls call earlier

theorem unwritten_ekInit
    (os : Os σ)
    (outside : σ)
    (rootPath : List UInt8) :
    Unwritten
      (ekInit (unixio os) rootPath
        { os := outside, ofile := -1, ifile := false, calls := [] }) := by
  rw [ekInit_eq]
  exact ⟨rfl, List.forall_mem_nil _, List.forall_mem_nil _⟩

/-- A session in which the peer tries to send a file. -/
theorem wait_session_read_only_sent :
    let v :=
      mainLoop (unixio fileOs)
        [packetOf (ch 'S') 0 [], packetOf (ch 'F') 1 (lit "f"),
          packetOf (ch 'D') 2 (lit "data"), packetOf (ch 'Z') 3 []]
        (mainStart (unixio fileOs) .wait []
          (ekInit (unixio fileOs) []
            { os := [], ofile := -1, ifile := false, calls := [] }))
    v.sys.k.state ≠ .rData ∧ Unwritten v.sys ∧
      Unwritten (mainEnd fileOs v.sys) :=
  wait_session_read_only fileOs (unwritten_ekInit fileOs [] []) []
    [packetOf (ch 'S') 0 [], packetOf (ch 'F') 1 (lit "f"),
      packetOf (ch 'D') 2 (lit "data"), packetOf (ch 'Z') 3 []]

end Slate106.Kermit
