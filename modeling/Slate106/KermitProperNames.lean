import Slate106.KermitDecodeReads
import Slate106.KermitFilename
import Slate106.KermitWf

namespace Slate106.Kermit

open CBytes

/-!
# Names that fit the response

`r->filename` has room for `FN_MAX` bytes, its NUL included.  `decode()` does
not look at this bound, and the copy of a name from the file list stops there
without a NUL.  So the array holds a string in every state of a run exactly
when every name that is stored leaves room for its NUL.
-/

variable {ω : Type}

/-- `r->filename` has not been written past its end, and has a NUL. -/
def ProperName
    (r : KResponse) : Prop :=
  r.filename.length ≤ fnMax ∧ 0 ∈ r.filename.takeD fnMax 0

instance
    (r : KResponse) :
    Decidable (ProperName r) :=
  inferInstanceAs (Decidable (_ ∧ _))

/-! ## The length of a name -/

/-- The characters that the first unit of a data field stands for. -/
def unitCount
    (p : Params)
    (inbuf : List UInt8) : Nat :=
  if p.rptflg ≠ 0 ∧ peek inbuf 0 = p.rptq then
    max 1 (xunrepeat (peek inbuf 1)).toNat
  else 1

/-- The characters of a data field; the first argument bounds the units. -/
def fieldCount
    (p : Params) : Nat → List UInt8 → Nat
  | 0, _ => 0
  | n + 1, inbuf =>
      if peek inbuf 0 = 0 then 0
      else
        unitCount p inbuf +
          fieldCount p n
            ((inbuf.drop 1).drop
              (turnReads p (peek inbuf 0) (inbuf.drop 1)))

/-- The characters that a data field stands for, up to its NUL. -/
def nameCount
    (p : Params)
    (inbuf : List UInt8) : Nat :=
  fieldCount p (inbuf.length + 1) inbuf

theorem decodeNext_rpt
    (p : Params)
    (rpt : Nat)
    (a : UInt8)
    (inbuf : List UInt8) :
    (decodeNext p rpt a inbuf).rpt =
      max 1 (decodeRpt p rpt a inbuf).rpt := by
  unfold decodeNext
  dsimp only
  simp only [apply_ite Decoded.rpt, ite_self]
  split
  · omega
  · omega

theorem decodeNext_count
    (p : Params)
    (inbuf : List UInt8) :
    (decodeNext p 0 (peek inbuf 0) (inbuf.drop 1)).rpt =
      unitCount p inbuf := by
  have second : peek (inbuf.drop 1) 0 = peek inbuf 1 :=
    peek_drop inbuf 1 0
  rw [decodeNext_rpt]
  unfold unitCount decodeRpt
  rw [second]
  split
  · rfl
  · rfl

/-- A turn of the loop goes on behind what it has read. -/
theorem decodeNext_rest
    (p : Params)
    (a : UInt8)
    (inbuf : List UInt8) :
    (decodeNext p 0 a inbuf).rest = inbuf.drop (turnReads p a inbuf) := by
  have follows : Follows ⟨inbuf, []⟩ 0 (turnReads p a inbuf) _
      (decodeNext p 0 a inbuf) :=
    probeNext_follows p 0 a 0 ⟨inbuf, []⟩
  rw [follows.rest, follows.place, Nat.zero_add]

theorem length_decodeMem
    (p : Params)
    (inbuf : List UInt8) :
    (decodeMem p inbuf).length = nameCount p inbuf := by
  unfold decodeMem nameCount
  generalize inbuf.length + 1 = turns
  induction turns generalizing inbuf with
  | zero =>
      rfl
  | succ turns inductionHypothesis =>
      unfold decodeMemLoop fieldCount
      dsimp only
      split
      · rfl
      · rw [List.length_append, List.length_replicate, decodeNext_count,
          decodeNext_rest, inductionHypothesis]

/-! ## What the two writers leave -/

/-- An array that is zero behind what has been written has a NUL. -/
theorem zero_mem_takeD_iff
    (memory : List UInt8)
    (count : Nat) :
    0 ∈ memory.takeD count 0 ↔ (cstr memory).length < count := by
  induction count generalizing memory with
  | zero =>
      simp
  | succ count inductionHypothesis =>
      cases memory with
      | nil =>
          simp
      | cons c rest =>
          have later := inductionHypothesis rest
          by_cases ends : c = 0
          · subst ends
            simp
          · rw [cstr_cons ends, List.length_cons, List.takeD_succ,
              List.mem_cons, List.tail_cons, later]
            have other : ¬ (0 : UInt8) = c := fun same => ends same.symm
            simp only [List.head?_cons, Option.getD_some, other, false_or]
            exact Nat.succ_lt_succ_iff.symm

theorem cstr_closed
    (name : List UInt8) :
    cstr (name ++ [0]) = cstr name := by
  induction name with
  | nil =>
      rfl
  | cons c rest inductionHypothesis =>
      by_cases ends : c = 0
      · subst ends
        simp
      · rw [List.cons_append, cstr_cons ends, cstr_cons ends,
          inductionHypothesis]

/-- A decoded name fits exactly when there is room for its NUL. -/
theorem properName_decoded
    {p : Params}
    {inbuf : List UInt8}
    {r : KResponse}
    (decoded : r.filename = decodeMem p inbuf ++ [0]) :
    ProperName r ↔ nameCount p inbuf < fnMax := by
  have length : r.filename.length = nameCount p inbuf + 1 := by
    rw [decoded, List.length_append, length_decodeMem]
    rfl
  have ended : (cstr r.filename).length ≤ nameCount p inbuf := by
    rw [decoded, ← length_decodeMem]
    exact length_cstr_le (peek_append_cons _ 0 [])
  unfold ProperName
  rw [zero_mem_takeD_iff]
  omega

/-- A copied name fits exactly when its NUL is copied, too. -/
theorem properName_listed
    {name : List UInt8}
    {r : KResponse}
    (copied : r.filename = (name ++ [0]).take fnMax) :
    ProperName r ↔ (cstr name).length < fnMax := by
  have short : r.filename.length ≤ fnMax := by
    rw [copied]
    exact List.length_take_le _ _
  have text : (cstr r.filename).length = min fnMax (cstr name).length := by
    rw [copied, cstr_take, cstr_closed, List.length_take]
  unfold ProperName
  rw [zero_mem_takeD_iff]
  omega

/-! ## The name that a call stores -/

/-- The length of the next name of the file list, if there is one. -/
def listedCount
    (s : Sys ω) : Option Nat :=
  match s.k.filelist with
  | name :: _ => some (cstr (deref s name)).length
  | [] => none

/-- The length of the name that the state switcher stores, if any. -/
def switchCount
    (p : Rcvd)
    (s : Sys ω) : Option Nat :=
  match s.k.state with
  | .sInit => listedCount s
  | .sEof => if nusedSslots s.k > 0 then none else listedCount s
  | .rFile =>
      if p.rtyp = ch 'F' then some (nameCount s.k.par (pdfMem p s)) else none
  | _ => none

/-- The length of the name that a sender stores for a good packet, if any. -/
def ackCount
    (p : Rcvd)
    (s : Sys ω) : Option Nat :=
  if p.rtyp ≠ ch 'Y' then none
  else
    let slot := s.k.win.sPw p.rseq
    if slot < 0 || slot ≥ s.k.par.wslots then none
    else switchCount p (onK (acknowledge slot) s)

/-- The length of the name that is stored for a good packet, if any. -/
def packetCount
    (p : Rcvd)
    (s : Sys ω) : Option Nat :=
  if p.rtyp = ch 'Y' ∧ s.k.what = .dir then none
  else if p.rtyp = ch 'G' ∧ s.k.state ≠ .rWait then none
  else if p.rtyp = ch 'G' then some (nameCount s.k.par (pdfMem p s))
  else if p.rtyp = ch 'R' then some (nameCount s.k.par (pdfMem p s))
  else if p.rtyp = ch 'E' then none
  else if s.k.what = .send then ackCount p s
  else switchCount p s

/-- The length of the name that is stored for the packet in `ipktbuf`. -/
def rxCount
    (len : Int)
    (s : Sys ω) : Option Nat :=
  if len < 4 then none
  else
    match parse s.k len with
    | .good p buf =>
        packetCount p { s with k := { forceBcta3 s.k with ipktbuf := buf } }
    | _ => none

/-- The length of the name that a `K_RUN` call stores, if any. -/
def storedCount
    (len : Int)
    (s : Sys ω) : Option Nat :=
  if s.k.state = .rNone then none
  else if s.k.doRxd then rxCount len s
  else switchCount .nothing s

/-- The name in the response is kept, or a name of this length is stored. -/
def StoresName
    (s s' : Sys ω) : Option Nat → Prop
  | none => s'.r.filename = s.r.filename
  | some count => ProperName s'.r ↔ count < fnMax

section Calls

variable {io : Io ω}
variable {s t u : Sys ω}

theorem StoresName.after
    {count : Option Nat}
    (same : t.r.filename = s.r.filename)
    (stores : StoresName t u count) :
    StoresName s u count := by
  cases count with
  | none =>
      exact stores.trans same
  | some count =>
      exact stores

/-- What follows a store keeps the name. -/
theorem StoresName.before
    {count : Option Nat}
    (stores : StoresName s t count)
    (same : u.r.filename = t.r.filename) :
    StoresName s u count := by
  cases count with
  | none =>
      exact same.trans stores
  | some count =>
      have proper : ProperName u.r ↔ ProperName t.r := by
        unfold ProperName
        rw [same]
      exact proper.trans stores

theorem storesName_decodeName
    (inbuf : List UInt8)
    (s : Sys ω) :
    StoresName s (decodeName inbuf s).2 (some (nameCount s.k.par inbuf)) :=
  properName_decoded rfl

theorem storesName_sendFile
    (name : StrRef)
    (rest : List StrRef)
    (s : Sys ω) :
    StoresName s (sendFile io name rest s).2
      (some (cstr (deref s name)).length) := by
  have copied : StoresName s (takeName name rest s)
      (some (cstr (deref s name)).length) :=
    properName_listed rfl
  refine copied.before ?_
  unfold sendFile resetSofar
  dsimp only
  repeat' split
  all_goals simp

theorem storesName_nextFile
    (s : Sys ω) :
    StoresName s (nextFile io s).2 (listedCount s) := by
  have names : ∀ name, deref (onK nxtpkt s) name = deref s name := by
    intro name
    cases name <;> rfl
  unfold nextFile listedCount
  dsimp only
  show StoresName s
    (match s.k.filelist with
      | name :: rest => sendFile io name rest (onK nxtpkt s)
      | [] => sendBreak io (onK nxtpkt s)).2 _
  split
  · rename_i name rest _
    rw [← names]
    exact .after rfl (storesName_sendFile name rest _)
  · exact filename_sendBreak _

/-- An F packet in `R_FILE`. -/
theorem storesName_inFile
    (p : Rcvd)
    (s : Sys ω) :
    StoresName s (inFile io p s).2
      (if p.rtyp = ch 'F' then some (nameCount s.k.par (pdfMem p s))
        else none) := by
  have decoded := storesName_decodeName (pdfMem p s) s
  unfold inFile
  dsimp only
  by_cases isFile : p.rtyp = ch 'F'
  · rw [if_pos isFile, if_pos isFile]
    split
    · exact decoded.before (filename_ack _ _ _)
    · exact decoded.before (filename_epkt _ _)
  · rw [if_neg isFile, if_neg isFile]
    show (_ : Sys ω).r.filename = _
    repeat' split
    all_goals simp [setWhat]

theorem storesName_stateStage
    (msg : List UInt8)
    (p : Rcvd)
    (s : Sys ω) :
    StoresName s (stateStage io msg p s).2 (switchCount p s) := by
  unfold stateStage switchCount
  generalize s.k.state = state
  cases state with
  | sInit =>
      exact .after rfl (storesName_nextFile (onK (spar p.pdf p.datalen) s))
  | sEof =>
      dsimp only
      split
      · exact rfl
      · exact storesName_nextFile s
  | sFile =>
      exact filename_afterFile s
  | sAttr | sData =>
      exact filename_afterData s
  | sEot =>
      exact filename_reportFile _ s
  | rWait =>
      exact filename_inWait p s
  | rFile =>
      exact storesName_inFile p s
  | rAttr =>
      exact filename_inAttr p s
  | rData =>
      exact filename_inData p s
  | _ =>
      exact filename_epkt _ s

/-- A request is decoded before anything else is done about it. -/
theorem storesName_request
    {p : Rcvd}
    (handled :
      t.r.filename = (decodeName (pdfMem p s) s).2.r.filename) :
    StoresName s t (some (nameCount s.k.par (pdfMem p s))) :=
  (storesName_decodeName (pdfMem p s) s).before handled

/-- A part of a call, and the rest of it if it does not return. -/
def StageStores
    (io : Io ω)
    (count : Option Nat)
    (s : Sys ω) : Stage ω → Prop
  | .ret _ t => StoresName s t count
  | .go p t => ∀ msg, StoresName s (stateStage io msg p t).2 count

theorem switchCount_sofar
    (p : Rcvd)
    (sofar : Int)
    (s : Sys ω) :
    switchCount p { s with r.sofar := sofar } = switchCount p s := by
  have named : ∀ name, deref { s with r.sofar := sofar } name = deref s name := by
    intro name
    cases name <;> rfl
  have listed : listedCount { s with r.sofar := sofar } = listedCount s := by
    unfold listedCount
    simp only [named]
  unfold switchCount
  rw [listed]
  rfl

theorem storesName_sendStage
    (p : Rcvd)
    (s : Sys ω) :
    StageStores io (ackCount p s) s (sendStage io p s) := by
  unfold sendStage ackCount
  dsimp only
  generalize s.k.win.sPw p.rseq = slot
  by_cases other : p.rtyp ≠ ch 'Y'
  · rw [if_pos other, if_pos other]
    show (_ : Sys ω).r.filename = _
    split
    · exact filename_sendRequested p s
    · exact filename_resend _ s
  · rw [if_neg other, if_neg other]
    by_cases out : (decide (slot < 0) || decide (slot ≥ s.k.par.wslots)) = true
    · rw [if_pos out, if_pos out]
      exact rfl
    · rw [if_neg out, if_neg out]
      generalize acked : onK (acknowledge slot) s = t
      have same : t.r.filename = s.r.filename := by
        rw [← acked]
        rfl
      split
      · rename_i cancels
        have nothing : switchCount p t = none := by
          unfold switchCount
          rw [cancels.1]
        rw [nothing]
        exact (filename_cancelSend p t).trans same
      · intro msg
        have stored := @storesName_stateStage _ io msg p
          { t with r.sofar := t.r.sofarRumor }
        rw [switchCount_sofar] at stored
        exact stored.after same

/-- A good packet, up to the end of the call. -/
theorem storesName_packetStage
    (p : Rcvd)
    (s : Sys ω) :
    StageStores io (packetCount p s) s (packetStage io p s) := by
  unfold packetStage packetCount
  by_cases listing : p.rtyp = ch 'Y' ∧ s.k.what = .dir
  · rw [if_pos listing, if_pos listing]
    exact filename_dirAck p s
  rw [if_neg listing, if_neg listing]
  by_cases late : p.rtyp = ch 'G' ∧ s.k.state ≠ .rWait
  · rw [if_pos late, if_pos late]
    exact rfl
  rw [if_neg late, if_neg late]
  by_cases generic : p.rtyp = ch 'G'
  · rw [if_pos generic, if_pos generic]
    apply storesName_request
    unfold gPacket
    dsimp only
    split <;> simp
  rw [if_neg generic, if_neg generic]
  by_cases get : p.rtyp = ch 'R'
  · rw [if_pos get, if_pos get]
    apply storesName_request
    unfold rPacket
    dsimp only
    repeat' split
    all_goals simp
  rw [if_neg get, if_neg get]
  by_cases failed : p.rtyp = ch 'E'
  · rw [if_pos failed, if_pos failed]
    exact rfl
  rw [if_neg failed, if_neg failed]
  by_cases sends : s.k.what = .send
  · rw [if_pos sends, if_pos sends]
    exact storesName_sendStage p s
  · rw [if_neg sends, if_neg sends]
    exact fun msg => storesName_stateStage msg p s

@[simp] theorem filename_resendUnlessRecv
    (s : Sys ω) :
    (resendUnlessRecv io s).2.r.filename = s.r.filename := by
  unfold resendUnlessRecv
  split
  · rfl
  · exact filename_resend _ s

/-- What a `K_RUN` call does to the name in the response. -/
theorem storesName_kermitRun
    (len : Int)
    (msg : List UInt8)
    (s : Sys ω) :
    StoresName s (kermitRun io len msg s).2 (storedCount len s) := by
  unfold kermitRun storedCount
  by_cases unset : s.k.state = .rNone
  · rw [if_pos unset, if_pos unset]
    exact rfl
  rw [if_neg unset, if_neg unset]
  by_cases received : s.k.doRxd = true
  · rw [if_pos received, if_pos received]
    unfold rxStage rxCount
    by_cases few : len < 4
    · rw [if_pos few, if_pos few]
      by_cases receiving : s.k.what = .recv
      · rw [if_pos receiving]
        by_cases files : s.k.state = .rFile
        · rw [if_pos files]
          exact filename_rpar _ s
        · rw [if_neg files]
          exact rfl
      · rw [if_neg receiving]
        exact filename_resend _ s
    rw [if_neg few, if_neg few]
    cases parse s.k len with
    | shortcut | tossed =>
        exact rfl
    | badHeader | badCheck | badLength =>
        exact filename_resendUnlessRecv _
    | good p buf =>
        dsimp only
        generalize taken :
          ({ s with k := { forceBcta3 s.k with ipktbuf := buf } } : Sys ω) = t
        have same : t.r.filename = s.r.filename := by
          rw [← taken]
        have handled := @storesName_packetStage _ io p t
        generalize packetStage io p t = stage at handled
        cases stage with
        | ret rc u =>
            exact handled.after same
        | go q u =>
            exact (handled msg).after same
  · rw [if_neg received, if_neg received]
    exact storesName_stateStage msg .nothing s

end Calls

/-! ## Runs -/

/-- What happens to a session: a call of `kermit()`, or what comes between. -/
inductive Act where
  | call : Fc → Int → List UInt8 → Act
  | receive : Rx → Act
  | ready
  | request : List StrRef → Action → Act

/-- The session after an act. -/
def Act.perform
    (io : Io ω) : Act → Sys ω → Sys ω
  | .call fc len msg, s => (kermit io fc len msg s).2
  | .receive rx, s => Kermit.receive rx s
  | .ready, s => onK ok2rxd s
  | .request names type, s => { s with k.filelist := names, r.type := type }

/-- The session in which a program starts. -/
def startedSys
    (io : Io ω)
    (rootPath msg : List UInt8)
    (w : ω) : Sys ω :=
  (kermit io .reinit 0 msg (ekInit io rootPath w)).2

/-- The sessions of a run, from the first to the last. -/
def sessions
    (io : Io ω) : List Act → Sys ω → List (Sys ω)
  | [], s => [s]
  | act :: rest, s => s :: sessions io rest (act.perform io s)

theorem reachable_perform
    {io : Io ω}
    {s : Sys ω}
    (reachable : Reachable io s)
    (act : Act) :
    Reachable io (act.perform io s) := by
  cases act with
  | call fc len msg =>
      exact .call fc len msg reachable
  | receive rx =>
      exact .receive rx reachable
  | ready =>
      exact .ready reachable
  | request names type =>
      exact .request names type reachable

theorem reachable_of_sessions
    {io : Io ω}
    {acts : List Act}
    {s s' : Sys ω}
    (reachable : Reachable io s)
    (member : s' ∈ sessions io acts s) :
    Reachable io s' := by
  induction acts generalizing s with
  | nil =>
      rw [List.mem_singleton.mp member]
      exact reachable
  | cons act rest inductionHypothesis =>
      rcases List.mem_cons.mp member with same | later
      · rw [same]
        exact reachable
      · exact inductionHypothesis (reachable_perform reachable act) later

theorem sessions_perform
    {io : Io ω}
    {acts : List Act}
    {s s' : Sys ω}
    (member : s' ∈ sessions io acts s)
    (act : Act) :
    ∃ more, act.perform io s' ∈ sessions io more s := by
  have next : act.perform io s ∈ sessions io [act] s :=
    List.mem_cons_of_mem _ (List.mem_singleton_self _)
  induction acts generalizing s with
  | nil =>
      rw [List.mem_singleton.mp member]
      exact ⟨_, next⟩
  | cons first rest inductionHypothesis =>
      rcases List.mem_cons.mp member with same | later
      · rw [same]
        exact ⟨_, next⟩
      · obtain ⟨more, found⟩ := inductionHypothesis later
          (List.mem_cons_of_mem _ (List.mem_singleton_self _))
        exact ⟨first :: more, List.mem_cons_of_mem _ found⟩

/-- The reachable sessions are those of the runs. -/
theorem reachable_iff_sessions
    {io : Io ω}
    {s : Sys ω} :
    Reachable io s ↔
      ∃ rootPath msg w acts,
        s ∈ sessions io acts (startedSys io rootPath msg w) := by
  constructor
  · intro reachable
    induction reachable with
    | start rootPath w msg =>
        exact ⟨rootPath, msg, w, [], List.mem_singleton_self _⟩
    | call fc len msg before inductionHypothesis =>
        obtain ⟨rootPath, msg', w, acts, member⟩ := inductionHypothesis
        exact ⟨rootPath, msg', w, sessions_perform member (.call fc len msg)⟩
    | receive rx before inductionHypothesis =>
        obtain ⟨rootPath, msg, w, acts, member⟩ := inductionHypothesis
        exact ⟨rootPath, msg, w, sessions_perform member (.receive rx)⟩
    | ready before inductionHypothesis =>
        obtain ⟨rootPath, msg, w, acts, member⟩ := inductionHypothesis
        exact ⟨rootPath, msg, w, sessions_perform member .ready⟩
    | request names type before inductionHypothesis =>
        obtain ⟨rootPath, msg, w, acts, member⟩ := inductionHypothesis
        exact ⟨rootPath, msg, w,
          sessions_perform member (.request names type)⟩
  · rintro ⟨rootPath, msg, w, acts, member⟩
    exact reachable_of_sessions (.start rootPath w msg) member

/-- The name that an act stores leaves room for its NUL. -/
def Act.Fits : Act → Sys ω → Prop
  | .call .run len _, s =>
      ∀ count, storedCount len s = some count → count < fnMax
  | _, _ => True

/-- All names that are stored in a run leave room for their NUL. -/
def NamesFit
    (io : Io ω) : List Act → Sys ω → Prop
  | [], _ => True
  | act :: rest, s => act.Fits s ∧ NamesFit io rest (act.perform io s)

theorem StoresName.proper_iff
    {count : Option Nat}
    {s s' : Sys ω}
    (stores : StoresName s s' count)
    (proper : ProperName s.r) :
    ProperName s'.r ↔ ∀ number, count = some number → number < fnMax := by
  cases count with
  | none =>
      have kept : ProperName s'.r := by
        unfold ProperName at proper ⊢
        rw [show s'.r.filename = s.r.filename from stores]
        exact proper
      exact iff_of_true kept (fun _ found => nomatch found)
  | some count =>
      constructor
      · intro fits number same
        cases same
        exact stores.mp fits
      · exact fun fits => stores.mpr (fits count rfl)

/-- A call with another function code does not store a name. -/
theorem properName_kermit
    {io : Io ω}
    {s : Sys ω}
    (proper : ProperName s.r)
    {fc : Fc}
    (other : fc ≠ .run)
    (len : Int)
    (msg : List UInt8) :
    ProperName (kermit io fc len msg s).2.r := by
  have kept : ∀ {t : Sys ω}, t.r.filename = s.r.filename →
      ProperName t.r := by
    intro t same
    unfold ProperName at proper ⊢
    rw [same]
    exact proper
  unfold kermit
  cases fc with
  | run =>
      exact absurd rfl other
  | reinit =>
      exact ⟨Nat.zero_le fnMax,
        show 0 ∈ ([] : List UInt8).takeD fnMax 0 by decide⟩
  | dir =>
      apply kept
      unfold kermitDir encodeRequest
      dsimp only
      split <;> simp
  | get =>
      apply kept
      unfold kermitGet encodeRequest
      dsimp only
      repeat' split
      all_goals simp
  | send =>
      apply kept
      unfold kermitSend
      dsimp only
      split <;> simp
  | _ =>
      apply kept
      simp

theorem properName_perform
    {io : Io ω}
    {s : Sys ω}
    (reachable : Reachable io s)
    (proper : ProperName s.r)
    (act : Act) :
    ProperName (act.perform io s).r ↔ act.Fits s := by
  cases act with
  | receive | ready | request =>
      exact iff_of_true proper trivial
  | call fc len msg =>
      by_cases runs : fc = .run
      · subst runs
        have stores := @storesName_kermitRun _ io len msg s
        show ProperName (kermit io .run len msg s).2.r ↔ _
        unfold kermit
        rw [(reachable_wf reachable).testRslots io]
        exact stores.proper_iff proper
      · have fits : (Act.call fc len msg).Fits s := by
          cases fc with
          | run =>
              exact absurd rfl runs
          | _ =>
              trivial
        exact iff_of_true (properName_kermit proper runs len msg) fits

theorem properNames_of_reachable
    {io : Io ω}
    {s : Sys ω}
    (reachable : Reachable io s)
    (proper : ProperName s.r)
    (acts : List Act) :
    (∀ s' ∈ sessions io acts s, ProperName s'.r) ↔ NamesFit io acts s := by
  induction acts generalizing s with
  | nil =>
      exact iff_of_true (List.forall_mem_singleton.mpr proper) trivial
  | cons act rest inductionHypothesis =>
      have step := properName_perform reachable proper act
      have later := @inductionHypothesis _ (reachable_perform reachable act)
      unfold sessions NamesFit
      rw [List.forall_mem_cons]
      constructor
      · rintro ⟨-, all⟩
        have first : ProperName (act.perform io s).r := by
          apply all
          cases rest with
          | nil | cons =>
              exact List.mem_cons_self
        exact ⟨step.mp first, (later first).mp all⟩
      · rintro ⟨fits, all⟩
        exact ⟨proper, (later (step.mpr fits)).mpr all⟩

/--
In all sessions of a run the response holds a string within its array exactly
when each name that the run stores has at most twelve characters.
-/
theorem properNames_iff
    (io : Io ω)
    (rootPath msg : List UInt8)
    (w : ω)
    (acts : List Act) :
    (∀ s ∈ sessions io acts (startedSys io rootPath msg w),
      ProperName s.r) ↔
      NamesFit io acts (startedSys io rootPath msg w) := by
  apply properNames_of_reachable (.start rootPath w msg)
  exact ⟨Nat.zero_le fnMax,
    show 0 ∈ ([] : List UInt8).takeD fnMax 0 by decide⟩

/--
A request for a name of 13 characters: its NUL is written past the array.
-/
theorem not_properName_long :
    let s := handled fileOs (packetOf (ch 'R') 0 (lit "measures1.csv"))
      (idleServer fileOs [])
    Reachable (unixio fileOs) s ∧
      s.r.filename = lit "measures1.csv" ++ [0] ∧
      ¬ ProperName s.r := by
  have written : (handled fileOs (packetOf (ch 'R') 0 (lit "measures1.csv"))
      (idleServer fileOs [])).r.filename =
        lit "measures1.csv" ++ [0] := by
    decide +kernel
  refine ⟨handled_reachable _ (idleServer_reachable fileOs []), written, ?_⟩
  rintro ⟨inside, -⟩
  rw [written] at inside
  exact absurd inside (by decide)

end Slate106.Kermit
