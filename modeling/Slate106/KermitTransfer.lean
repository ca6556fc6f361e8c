import Slate106.KermitGet

namespace Slate106.Kermit

open CBytes

/-!
# From F to B

What the server sends for a file when every packet is acknowledged: F, A when
attributes are used, the data fields, Z and B.
-/

variable {ω : Type}
variable {toEnd : Prop}

/-! ## The data in frames -/

/-- The data field of a packet with a block check of `bct` characters. -/
def frameData
    (bct : Nat)
    (frame : List UInt8) : List UInt8 :=
  let header := if peek frame 1 = tochar 0 then 7 else 4
  (frame.drop header).take (frame.length - header - bct - 1)

/-- The data fields of the D packets among some packets. -/
def dataFields
    (bct : Nat)
    (frames : List (List UInt8)) : List (List UInt8) :=
  (frames.filter fun frame => frameType frame = ch 'D').map (frameData bct)

/-- The parts of a frame around its data. -/
theorem frameData_split
    {start len last : UInt8}
    {header data check : List UInt8}
    (size : header.length = if len = tochar 0 then 5 else 2) :
    frameData check.length
        (start :: (len :: header ++ data ++ check ++ [last])) = data := by
  unfold frameData
  dsimp only
  have first : peek (start :: (len :: header ++ data ++ check ++ [last])) 1 =
      len := rfl
  have front : (if len = tochar 0 then 7 else 4) =
      (start :: len :: header).length := by
    simp only [List.length_cons, size]
    split <;> rfl
  have frame : start :: (len :: header ++ data ++ check ++ [last]) =
      (start :: len :: header) ++ (data ++ (check ++ [last])) := by
    simp
  rw [first, front, frame, List.drop_left]
  have room : ((start :: len :: header) ++
      (data ++ (check ++ [last]))).length -
        (start :: len :: header).length - check.length - 1 = data.length := by
    simp only [List.length_append, List.length_cons, List.length_nil]
    omega
  rw [room, List.take_left]

/-- The data field of a packet is what `spkt()` was given. -/
theorem frameData_pktFrame
    {par : Params}
    (check : 1 ≤ par.bct ∧ par.bct ≤ 3)
    (typ : UInt8)
    (seq : Int)
    (data : List UInt8) :
    frameData par.bct (pktFrame par typ seq data) = data := by
  obtain ⟨len, rest, shape, size⟩ :
      ∃ len rest, pktHeader par.bct typ seq data.length = len :: rest ∧
        rest.length = if len = tochar 0 then 5 else 2 := by
    unfold pktHeader
    dsimp only
    split
    · exact ⟨_, _, rfl, by simp⟩
    · refine ⟨_, _, rfl, ?_⟩
      rw [if_neg]
      · rfl
      · intro same
        have value := congrArg (fun c => (xunchar c).toNat) same
        simp at value
        omega
  have checked := length_blockCheck_of check (cstr (len :: rest ++ data))
  have split := @frameData_split par.sSoh len par.sEom rest data
    (blockCheck par.bct (cstr (len :: rest ++ data))) size
  rw [checked] at split
  unfold pktFrame pktBody
  dsimp only
  rw [shape]
  exact split

theorem dataFields_append
    (bct : Nat)
    (first second : List (List UInt8)) :
    dataFields bct (first ++ second) =
      dataFields bct first ++ dataFields bct second := by
  simp [dataFields]

theorem dataFields_frame
    {par : Params}
    (check : 1 ≤ par.bct ∧ par.bct ≤ 3)
    (typ : UInt8)
    (seq : Int)
    (data : List UInt8) :
    dataFields par.bct [pktFrame par typ seq data] =
      if typ = ch 'D' then [data] else [] := by
  unfold dataFields
  split
  · rename_i isData
    simp [frameData_pktFrame check, isData]
  · rename_i other
    rw [List.filter_cons_of_neg (by simpa using other)]
    rfl

/-! ## The phases of a transfer -/

/-- The packets that come after the outstanding one, with these data fields. -/
def toCome
    (k : KData)
    (fields : List (List UInt8)) : List UInt8 :=
  match k.state with
  | .sFile =>
      (if k.par.capas &&& capAt ≠ 0 then [ch 'A'] else []) ++
        fields.map (fun _ => ch 'D') ++ [ch 'Z', ch 'B']
  | .sAttr | .sData => fields.map (fun _ => ch 'D') ++ [ch 'Z', ch 'B']
  | .sEof => [ch 'B']
  | _ => []

/--
The state, and what is asked of the data fields that are still to come; there
are fewer of them than a number.
-/
inductive Phase
    (io : Io ω)
    (left : ω → List UInt8)
    (toEnd : Prop) :
    Nat → (List (List UInt8) → Prop) → Sys ω → Prop where
  | file
      {n : Nat}
      {goal : List (List UInt8) → Prop}
      {s : Sys ω}
      (state : s.k.state = .sFile)
      (yields : Yields io left toEnd n goal s) :
      Phase io left toEnd n goal s
  | data
      {n : Nat}
      {goal : List (List UInt8) → Prop}
      {s : Sys ω}
      (state : s.k.state = .sAttr ∨ s.k.state = .sData)
      (yields : Yields io left toEnd n goal s) :
      Phase io left toEnd n goal s
  | eof
      {goal : List (List UInt8) → Prop}
      {s : Sys ω}
      (state : s.k.state = .sEof)
      (reached : goal [])
      (only : ∀ fields, goal fields → fields = [])
      (seen : toEnd → .readf none ∈ s.log) :
      Phase io left toEnd 0 goal s
  | eot
      {goal : List (List UInt8) → Prop}
      {s : Sys ω}
      (state : s.k.state = .sEot)
      (reached : goal [])
      (only : ∀ fields, goal fields → fields = [])
      (seen : toEnd → .readf none ∈ s.log) :
      Phase io left toEnd 0 goal s

/-- A bound on the ACKs up to the end of the transfer. -/
def acksLeft
    (state : State)
    (n : Nat) : Nat :=
  match state with
  | .sFile => n + 4
  | .sAttr | .sData => n + 3
  | .sEof => 2
  | _ => 1

/-- A file is sent, and its packet numbered `s_seq` is outstanding. -/
structure InGet
    (io : Io ω)
    (left : ω → List UInt8)
    (toEnd : Prop)
    (n : Nat)
    (goal : List (List UInt8) → Prop)
    (s : Sys ω) : Prop where
  awaiting : Awaiting s.k
  sends : s.k.what = .send
  keeps : s.k.cfg.cancel = 0
  check : 1 ≤ s.k.par.bct ∧ s.k.par.bct ≤ 3
  oneFile : s.k.filelist = []
  phase : Phase io left toEnd n goal s

/-- The data field that a packet adds to those of its file. -/
def taken
    (typ : UInt8)
    (data : List UInt8) : List (List UInt8) :=
  if typ = ch 'D' then [data] else []

/-- The next packet goes out, and the transfer goes on behind it. -/
structure Advances
    (io : Io ω)
    (left : ω → List UInt8)
    (toEnd : Prop)
    (n : Nat)
    (goal : List (List UInt8) → Prop)
    (s s' : Sys ω)
    (typ : UInt8)
    (data : List UInt8)
    (n' : Nat)
    (goal' : List (List UInt8) → Prop) : Prop where
  sent : SentOne typ data (onK nxtpkt s) s'
  fewer : acksLeft s'.k.state n' < acksLeft s.k.state n
  asked : ∀ more, goal' more → goal (taken typ data ++ more)
  next : ∀ more, goal' more →
    toCome s.k (taken typ data ++ more) = typ :: toCome s'.k more
  phase : Phase io left toEnd n' goal' s'

/-- The next packet of a transfer, whatever it is. -/
def SendsOn
    (io : Io ω)
    (left : ω → List UInt8)
    (toEnd : Prop)
    (n : Nat)
    (goal : List (List UInt8) → Prop)
    (s s' : Sys ω) : Prop :=
  ∃ typ data n' goal',
    Advances io left toEnd n goal s s' typ data n' goal'

theorem Advances.inGet
    {io : Io ω}
    {left : ω → List UInt8}
    {n n' : Nat}
    {goal goal' : List (List UInt8) → Prop}
    {s s' : Sys ω}
    {typ : UInt8}
    {data : List UInt8}
    (inGet : InGet io left toEnd n goal s)
    (advances : Advances io left toEnd n goal s s' typ data n' goal') :
    InGet io left toEnd n' goal' s' := by
  obtain ⟨sent, -, -, -, phase⟩ := advances
  exact ⟨sent.awaiting, sent.what.trans inGet.sends,
    sent.cfg ▸ inGet.keeps, sent.par ▸ inGet.check,
    sent.filelist.trans inGet.oneFile, phase⟩

/-- Behind Z no data fields are to come. -/
theorem ToEof.sendsOn
    {io : Io ω}
    {left : ω → List UInt8}
    {n : Nat}
    {goal : List (List UInt8) → Prop}
    {s t : Sys ω}
    {result : Int × Sys ω}
    (before : acksLeft .sData 0 ≤ acksLeft s.k.state n)
    (coming : toCome s.k [] = [ch 'Z', ch 'B'])
    (toEof : ToEof toEnd goal t result)
    (one : SentOne (ch 'Z') [] t result.2 →
      SentOne (ch 'Z') [] (onK nxtpkt s) result.2) :
    SendsOn io left toEnd n goal s result.2 := by
  obtain ⟨-, reached, sent, state, seen⟩ := toEof
  refine ⟨ch 'Z', [], 0, fun more => more = [] ∧ goal more, one sent, ?_, ?_,
    ?_, .eof state ⟨rfl, reached⟩ (fun _ both => both.1) seen⟩
  · rw [state]
    exact Nat.lt_of_lt_of_le (by decide) before
  · exact fun more both => both.2
  · rintro more ⟨rfl, -⟩
    show toCome s.k [] = _
    rw [coming]
    unfold toCome
    rw [state]

/-- Behind D the data fields go on. -/
theorem ToData.sendsOn
    {io : Io ω}
    {left : ω → List UInt8}
    {n : Nat}
    {goal : List (List UInt8) → Prop}
    {s t : Sys ω}
    {result : Int × Sys ω}
    {field : List UInt8}
    (before : acksLeft .sData n < acksLeft s.k.state (n + 1))
    (coming : ∀ fields, toCome s.k fields =
      fields.map (fun _ => ch 'D') ++ [ch 'Z', ch 'B'])
    (toData : ToData io left toEnd n goal t result field)
    (one : SentOne (ch 'D') field t result.2 →
      SentOne (ch 'D') field (onK nxtpkt s) result.2) :
    SendsOn io left toEnd (n + 1) goal s result.2 := by
  obtain ⟨-, sent, state, yields⟩ := toData
  refine ⟨ch 'D', field, n, fun more => goal (field :: more), one sent, ?_,
    fun _ asked => asked, ?_, .data (.inr state) yields⟩
  · rw [state]
    exact before
  · intro more _
    rw [coming]
    unfold toCome
    rw [state]
    rfl

/-- The session in which the state switcher runs after an ACK. -/
structure Acked
    (s t : Sys ω) : Prop where
  ready : Ready t.k
  input : ∀ left, SameInput left s t
  sSeq : t.k.sSeq = s.k.sSeq
  what : t.k.what = s.k.what
  filelist : t.k.filelist = s.k.filelist
  state : t.k.state = s.k.state
  log : t.log = s.log

theorem acked_of_awaiting
    {s : Sys ω}
    (awaiting : Awaiting s.k)
    (buf : List UInt8)
    (sofar : Int) :
    Acked s
      { s with
        k := acknowledge 0 { s.k with ipktbuf := buf }
        r.sofar := sofar } := by
  have heard : Awaiting { s.k with ipktbuf := buf } := by
    obtain ⟨wf, outstanding, upper⟩ := awaiting
    exact ⟨⟨wf.noForce, wf.oneSlot, wf.window, wf.noWindowing, wf.received,
      wf.kept, wf.mapped⟩, ⟨outstanding.number, outstanding.lower,
      outstanding.mapped, outstanding.nonempty, outstanding.fits⟩, upper⟩
  obtain ⟨win, freed, ready⟩ := heard.acknowledge
  rw [freed]
  exact ⟨ready, fun _ => ⟨rfl, rfl, rfl, rfl, rfl, rfl, rfl, rfl, id, rfl⟩,
    rfl, rfl, rfl, rfl, rfl⟩

/-- A packet sent after the ACK, seen from before the ACK. -/
theorem Acked.one
    {s t s' : Sys ω}
    (acked : Acked s t)
    {typ : UInt8}
    {data : List UInt8}
    (sent : SentOne typ data (onK nxtpkt t) s') :
    SentOne typ data (onK nxtpkt s) s' :=
  sent.of_quiet
    (by
      show (t.k.sSeq + 1) % 64 = (s.k.sSeq + 1) % 64
      rw [acked.sSeq])
    (acked.input fun _ => []).cfg (acked.input fun _ => []).par acked.what
    acked.filelist ⟨[], acked.log, rfl⟩

section Advancing

variable {io : Io ω}
variable {left : ω → List UInt8}
variable {n : Nat}
variable {goal : List (List UInt8) → Prop}
variable {s t : Sys ω}

theorem Acked.nxtpkt
    (acked : Acked s t) :
    Ready (onK nxtpkt t).k ∧ SameInput left s (onK nxtpkt t) :=
  ⟨acked.ready.nxtpkt, (acked.input left).trans
    ⟨rfl, rfl, rfl, rfl, rfl, rfl, rfl, rfl, id, rfl⟩⟩

/-- The ACK to F is followed by A, the first data or Z. -/
theorem afterFile_advances
    (served : Serves io left)
    (inGet : InGet io left toEnd n goal s)
    (acked : Acked s t)
    (state : s.k.state = .sFile)
    (yields : Yields io left toEnd n goal s) :
    (afterFile io t).1 = xOk ∧
      SendsOn io left toEnd n goal s (afterFile io t).2 := by
  obtain ⟨ready, input⟩ := @Acked.nxtpkt _ left _ _ acked
  have keeps : (onK nxtpkt t).k.cfg.cancel = 0 := input.cfg ▸ inGet.keeps
  have yieldsNow := yields.same input
  have one : ∀ {typ data} {s' : Sys ω},
      SentOne typ data (onK nxtpkt t) s' →
        SentOne typ data (onK nxtpkt s) s' := acked.one
  have par := input.par
  unfold afterFile
  dsimp only
  generalize onK nxtpkt t = u at *
  rw [par]
  by_cases attributes : s.k.par.capas &&& capAt ≠ 0
  · obtain ⟨fine, ⟨data, sent⟩, later⟩ := sattr_sends served ready
    rw [if_pos attributes, if_neg (not_not.mpr fine)]
    refine ⟨rfl, ch 'A', data, n, goal, (one (sent.setState .sAttr)).await,
      ?_, fun _ asked => asked, ?_, ?_⟩
    · rw [state]
      exact Nat.lt_succ_self _
    · intro more _
      show toCome s.k more = ch 'A' :: (more.map (fun _ => ch 'D') ++ _)
      unfold toCome
      rw [state]
      dsimp only
      rw [if_pos attributes]
      rfl
    · exact .data (.inl rfl) (yieldsNow.same (later.trans
        ⟨rfl, rfl, rfl, rfl, rfl, rfl, rfl, rfl, id, rfl⟩))
  · rw [if_neg attributes]
    have coming : ∀ fields, toCome s.k fields =
        fields.map (fun _ => ch 'D') ++ [ch 'Z', ch 'B'] := by
      intro fields
      unfold toCome
      rw [state]
      dsimp only
      rw [if_neg attributes]
      rfl
    cases n with
    | zero =>
        exact absurd yieldsNow id
    | succ n =>
        rcases firstData_yields served keeps ready yieldsNow with
          toEof | ⟨field, toData⟩
        · refine ⟨toEof.fine, toEof.sendsOn ?_ (coming []) one⟩
          rw [state]
          simp [acksLeft]
        · refine ⟨toData.fine, toData.sendsOn ?_ coming one⟩
          rw [state]
          simp [acksLeft]

/-- The ACK to A or D is followed by the next data or Z. -/
theorem afterData_advances
    (served : Serves io left)
    (inGet : InGet io left toEnd n goal s)
    (acked : Acked s t)
    (state : s.k.state = .sAttr ∨ s.k.state = .sData)
    (yields : Yields io left toEnd n goal s) :
    (afterData io t).1 = xOk ∧
      SendsOn io left toEnd n goal s (afterData io t).2 := by
  have input := acked.input left
  have keeps : t.k.cfg.cancel = 0 := input.cfg ▸ inGet.keeps
  have coming : ∀ fields, toCome s.k fields =
      fields.map (fun _ => ch 'D') ++ [ch 'Z', ch 'B'] := by
    intro fields
    unfold toCome
    rcases state with attr | data
    · rw [attr]
    · rw [data]
  have before : acksLeft s.k.state n = n + 3 := by
    rcases state with attr | data
    · rw [attr]
      rfl
    · rw [data]
      rfl
  cases n with
  | zero =>
      exact absurd yields id
  | succ n =>
      rcases afterData_yields served keeps acked.ready
        (acked.state ▸ state) (yields.same input) with
        toEof | ⟨field, toData⟩
      · refine ⟨toEof.fine, toEof.sendsOn ?_ (coming []) acked.one⟩
        rw [before]
        simp [acksLeft]
      · refine ⟨toData.fine, toData.sendsOn ?_ coming acked.one⟩
        rw [before]
        simp [acksLeft]

/-- The ACK to Z is followed by B. -/
theorem nextFile_advances
    (served : Serves io left)
    (inGet : InGet io left toEnd n goal s)
    (acked : Acked s t)
    (state : s.k.state = .sEof)
    (reached : goal [])
    (only : ∀ fields, goal fields → fields = [])
    (seen : toEnd → .readf none ∈ s.log) :
    (nextFile io t).1 = xOk ∧
      SendsOn io left toEnd n goal s (nextFile io t).2 := by
  obtain ⟨ready, input⟩ := @Acked.nxtpkt _ left _ _ acked
  have noFile : (onK nxtpkt t).k.filelist = [] :=
    acked.filelist.trans inGet.oneFile
  have one : ∀ {typ data} {s' : Sys ω},
      SentOne typ data (onK nxtpkt t) s' →
        SentOne typ data (onK nxtpkt s) s' := acked.one
  have seenNow : toEnd → .readf none ∈ (onK nxtpkt t).log :=
    fun ended => input.seen (seen ended)
  unfold nextFile
  dsimp only
  generalize onK nxtpkt t = u at *
  rw [noFile]
  obtain ⟨fine, sent, eot⟩ := sendBreak_sends served.linked ready
  refine ⟨fine, ch 'B', [], 0, goal, one sent, ?_, fun _ asked => asked, ?_,
    .eot eot reached only fun ended => sent.seen (seenNow ended)⟩
  · rw [state, eot]
    exact Nat.lt_succ_self 1
  · intro more _
    show toCome s.k more = _
    unfold toCome
    rw [state, eot]

/-- The ACK to B ends the transfer. -/
structure Finishes
    (toEnd : Prop)
    (goal : List (List UInt8) → Prop)
    (s s' : Sys ω) : Prop where
  state : s.k.state = .sEot
  reached : goal []
  seen : toEnd → .readf none ∈ s'.log
  par : s'.k.par = s.k.par
  log : s'.log = s.log

/-- An ACK to the outstanding packet: the next packet, or the end. -/
theorem InGet.step
    (served : Serves io left)
    (inGet : InGet io left toEnd n goal s)
    (msg : List UInt8)
    (p : Rcvd)
    (buf : List UInt8) :
    ((afterAck io msg p buf s).1 = xOk ∧
      SendsOn io left toEnd n goal s (afterAck io msg p buf s).2) ∨
    ((afterAck io msg p buf s).1 = xDone ∧
      Finishes toEnd goal s (afterAck io msg p buf s).2) := by
  have acked := acked_of_awaiting inGet.awaiting buf s.r.sofarRumor
  unfold afterAck
  generalize { s with
    k := acknowledge 0 { s.k with ipktbuf := buf }
    r.sofar := s.r.sofarRumor } = t at *
  unfold stateStage
  rw [acked.state]
  cases inGet.phase with
  | file state yields =>
      rw [state]
      exact .inl (afterFile_advances served inGet acked state yields)
  | data state yields =>
      rcases state with attr | data
      · rw [attr]
        exact .inl (afterData_advances served inGet acked (.inl attr) yields)
      · rw [data]
        exact .inl (afterData_advances served inGet acked (.inr data) yields)
  | eof state reached only seen =>
      rw [state]
      dsimp only
      have free : ¬ (nusedSslots t.k > 0) := by
        have none := acked.ready.free
        simp [nusedSslots, slots_one acked.ready.wf.window]
        omega
      rw [if_neg free]
      exact .inl
        (nextFile_advances served inGet acked state reached only seen)
  | eot state reached only seen =>
      have same : (reportFile .get t).k.par = s.k.par ∧
          (reportFile .get t).log = s.log := by
        unfold reportFile
        split
        · exact ⟨(acked.input left).par, acked.log⟩
        · exact ⟨(acked.input left).par, acked.log⟩
      obtain ⟨par, log⟩ := same
      rw [state]
      exact .inr
        ⟨rfl, state, reached, fun ended => log ▸ seen ended, par, log⟩

end Advancing

/-! ## Runs of ACKs -/

/-- The session when `kermit()` is called with a packet that was received. -/
def heardSys
    (rx : Rx)
    (s : Sys ω) : Sys ω :=
  receive rx (onK ok2rxd s)

/-- A valid ACK to the outstanding packet arrives; it does not cancel data. -/
def HearsAck
    (rx : Rx)
    (s : Sys ω) : Prop :=
  ∃ p buf, ValidAck s.k.sSeq (heardSys rx s).k rx.ret p buf ∧
    (s.k.state = .sData → ¬ CancelsSend p buf)

/-- The main loop while the peer acknowledges every packet. -/
inductive AckRun
    (io : Io ω) : MainVars ω → MainVars ω → Prop where
  | refl
      (v : MainVars ω) :
      AckRun io v v
  | snoc
      {v v' : MainVars ω}
      {rx : Rx}
      (earlier : AckRun io v v')
      (going : v'.ret = none)
      (acked : HearsAck rx v'.sys) :
      AckRun io v (mainIter io rx v')

theorem doRxd_awaiting
    {k : KData}
    (awaiting : Awaiting k) :
    (ok2rxd k).doRxd = true := by
  have full := nusedSslots_full awaiting.wf.window
    awaiting.outstanding.nonempty
  simp [ok2rxd, full, awaiting.wf.window]

theorem Awaiting.heard
    {s : Sys ω}
    (awaiting : Awaiting s.k)
    (rx : Rx) :
    Awaiting (heardSys rx s).k := by
  obtain ⟨wf, outstanding, upper⟩ := awaiting
  exact ⟨⟨wf.noForce, wf.oneSlot, wf.window, wf.noWindowing, wf.received,
    wf.kept, wf.mapped⟩, ⟨outstanding.number, outstanding.lower,
    outstanding.mapped, outstanding.nonempty, outstanding.fits⟩, upper⟩

/-- The loop body for a packet is a call of `kermit()`. -/
theorem mainIter_heard
    {io : Io ω}
    {v : MainVars ω}
    {rx : Rx}
    (going : v.ret = none)
    (received : (heardSys rx v.sys).k.doRxd = true)
    (long : 4 ≤ rx.ret) :
    (mainIter io rx v).sys =
        (kermit io .run rx.ret [] (heardSys rx v.sys)).2 ∧
      (mainIter io rx v).ret =
        if (kermit io .run rx.ret [] (heardSys rx v.sys)).1 = xDone then
          some kSuccess
        else if (kermit io .run rx.ret [] (heardSys rx v.sys)).1 = xError then
          some kFailure
        else none := by
  unfold mainIter
  rw [if_neg (not_not.mpr going)]
  dsimp only
  rw [if_pos (show (onK ok2rxd v.sys).k.doRxd = true from received),
    if_neg (show ¬ rx.ret < 0 by omega)]
  unfold mainHandle
  dsimp only
  rw [if_neg (show ¬ (rx.ret = 0 ∧ v.retrycounter = 0) by omega),
    if_neg (show ¬ rx.ret = 0 by omega)]
  dsimp only
  have session : receive rx (onK ok2rxd v.sys) = heardSys rx v.sys := rfl
  rw [session]
  split
  · exact ⟨rfl, rfl⟩
  · split
    · exact ⟨rfl, rfl⟩
    · exact ⟨rfl, going⟩

/-- For an ACK it is the turn of the state switcher. -/
theorem mainIter_ack
    {io : Io ω}
    {v : MainVars ω}
    {rx : Rx}
    (going : v.ret = none)
    (awaiting : Awaiting v.sys.k)
    (sends : v.sys.k.what = .send)
    (keeps : v.sys.k.cfg.cancel = 0)
    (set : v.sys.k.state ≠ .rNone)
    {p : Rcvd}
    {buf : List UInt8}
    (ack : ValidAck v.sys.k.sSeq (heardSys rx v.sys).k rx.ret p buf)
    (goesOn : v.sys.k.state = .sData → ¬ CancelsSend p buf) :
    (mainIter io rx v).sys =
        (afterAck io [] p buf (heardSys rx v.sys)).2 ∧
      (mainIter io rx v).ret =
        if (afterAck io [] p buf (heardSys rx v.sys)).1 = xDone then
          some kSuccess
        else if (afterAck io [] p buf (heardSys rx v.sys)).1 = xError then
          some kFailure
        else none := by
  have received : (heardSys rx v.sys).k.doRxd = true :=
    doRxd_awaiting awaiting
  have called := kermit_ack io (awaiting.heard rx) sends keeps set received ack
    goesOn []
  rw [← called]
  exact mainIter_heard going received ack.long

theorem InGet.sending
    {io : Io ω}
    {left : ω → List UInt8}
    {n : Nat}
    {goal : List (List UInt8) → Prop}
    {s : Sys ω}
    (inGet : InGet io left toEnd n goal s) :
    s.k.state ≠ .rNone ∧ s.k.state ≠ .sInit := by
  cases inGet.phase with
  | file state _ | eof state _ _ _ | eot state _ _ _ =>
      rw [state]
      decide
  | data state _ =>
      rcases state with state | state
      · rw [state]
        decide
      · rw [state]
        decide

theorem InGet.heard
    {io : Io ω}
    {left : ω → List UInt8}
    {n : Nat}
    {goal : List (List UInt8) → Prop}
    {s : Sys ω}
    (inGet : InGet io left toEnd n goal s)
    (rx : Rx) :
    InGet io left toEnd n goal (heardSys rx s) := by
  have input : SameInput left s (heardSys rx s) :=
    ⟨rfl, rfl, rfl, rfl, rfl, rfl, rfl, rfl, id, rfl⟩
  refine ⟨inGet.awaiting.heard rx, inGet.sends, inGet.keeps, inGet.check,
    inGet.oneFile, ?_⟩
  cases inGet.phase with
  | file state yields =>
      exact .file state (yields.same input)
  | data state yields =>
      exact .data state (yields.same input)
  | eof state reached only seen =>
      exact .eof state reached only seen
  | eot state reached only seen =>
      exact .eot state reached only seen

/-- What a run of ACKs has sent: `more` are the calls it made. -/
structure Transferred
    (io : Io ω)
    (left : ω → List UInt8)
    (toEnd : Prop)
    (n : Nat)
    (goal : List (List UInt8) → Prop)
    (v v' : MainVars ω)
    (more : List Call)
    (n' : Nat)
    (goal' : List (List UInt8) → Prop) : Prop where
  log : v'.sys.log = more ++ v.sys.log
  asked : ∀ fields, goal' fields →
    goal (dataFields v.sys.k.par.bct (txds more).reverse ++ fields)
  types : ∀ fields, goal' fields →
    toCome v.sys.k
        (dataFields v.sys.k.par.bct (txds more).reverse ++ fields) =
      (txds more).reverse.map frameType ++
        (if v'.ret = none then toCome v'.sys.k fields else [])
  par : v'.sys.k.par = v.sys.k.par
  now : v'.ret = none ∧ InGet io left toEnd n' goal' v'.sys ∨
      v'.ret = some kSuccess ∧ goal' [] ∧
        (toEnd → .readf none ∈ v'.sys.log)

theorem dataFields_taken
    {par : Params}
    (check : 1 ≤ par.bct ∧ par.bct ≤ 3)
    (frames : List (List UInt8))
    (typ : UInt8)
    (seq : Int)
    (data : List UInt8) :
    dataFields par.bct (frames ++ [pktFrame par typ seq data]) =
      dataFields par.bct frames ++ taken typ data := by
  rw [dataFields_append, dataFields_frame check]
  rfl

/-- In a run of ACKs the fields are sent in order, up to the last one. -/
theorem AckRun.transferred
    {io : Io ω}
    {left : ω → List UInt8}
    (served : Serves io left)
    {n : Nat}
    {goal : List (List UInt8) → Prop}
    {v v' : MainVars ω}
    (inGet : InGet io left toEnd n goal v.sys)
    (start : v.ret = none)
    (run : AckRun io v v') :
    ∃ more n' goal', Transferred io left toEnd n goal v v' more n' goal' := by
  induction run with
  | refl =>
      exact ⟨[], n, goal, rfl, fun _ asked => asked,
        fun fields _ => by rw [if_pos start]; rfl, rfl, .inl ⟨start, inGet⟩⟩
  | @snoc v' rx earlier going acked inductionHypothesis =>
      obtain ⟨more, n', goal', log, asked, types, par, now⟩ :=
        inductionHypothesis
      obtain ⟨-, inGetNow⟩ := now.resolve_right
        (fun done => absurd (going.symm.trans done.1) (by simp))
      obtain ⟨p, buf, ack, goesOn⟩ := acked
      obtain ⟨session, ret⟩ := @mainIter_ack _ io _ _ going
        inGetNow.awaiting inGetNow.sends inGetNow.keeps inGetNow.sending.1
        _ _ ack goesOn
      simp only [if_pos going] at types
      have heard := inGetNow.heard rx
      rcases heard.step served [] p buf with
        ⟨fine, typ, data, n'', goal'', advances⟩ |
          ⟨done, state, reached, seen, samePar, same⟩
      · rw [fine, if_neg (by decide), if_neg (by decide)] at ret
        rw [← session] at advances
        obtain ⟨later, log', frames⟩ := advances.sent.log
        have frame : (txds (later ++ more)).reverse =
            (txds more).reverse ++
              [pktFrame v'.sys.k.par typ (nxtpkt v'.sys.k).sSeq data] := by
          rw [txds_append, frames, List.reverse_append]
          rfl
        have fields := dataFields_taken inGetNow.check (txds more).reverse typ
          (nxtpkt v'.sys.k).sSeq data
        rw [← frame, par] at fields
        refine ⟨later ++ more, n'', goal'', ?_, ?_, ?_,
          advances.sent.par.trans par, .inl ⟨ret, advances.inGet heard⟩⟩
        · rw [log', List.append_assoc, ← log]
          rfl
        · intro rest ahead
          rw [fields, List.append_assoc]
          exact asked _ (advances.asked rest ahead)
        · intro rest ahead
          have next : toCome v'.sys.k (taken typ data ++ rest) =
              typ :: toCome (mainIter io rx v').sys.k rest :=
            advances.next rest ahead
          rw [fields, List.append_assoc,
            types _ (advances.asked rest ahead), next, frame,
            List.map_append, List.append_assoc, if_pos ret]
          simp
      · rw [done, if_pos rfl] at ret
        have log' : (mainIter io rx v').sys.log = v'.sys.log := by
          rw [session]
          exact same
        have nothing : ∀ fields, toCome v'.sys.k fields = [] := by
          intro fields
          have eot : v'.sys.k.state = .sEot := state
          unfold toCome
          rw [eot]
        refine ⟨more, n', goal', log'.trans log, asked, ?_, ?_,
          .inr ⟨ret, reached, ?_⟩⟩
        · intro fields ahead
          rw [types fields ahead, nothing, ret, if_neg (by simp)]
        · rw [session]
          exact samePar.trans par
        · rw [session]
          exact seen

/-! ## A peer that acknowledges -/

/-- The header of an ACK without data. -/
def ackHeader
    (bct : Nat)
    (seq : Int) : List UInt8 :=
  [tochar (UInt8.ofNat (bct + 2)), tochar (uchar seq), ch 'Y']

/-- An ACK without data, as `rxd` stores it. -/
def ackRx
    (bct : Nat)
    (seq : Int) : Rx where
  ret := 3 + bct
  stored :=
    ackHeader bct seq ++ blockCheck bct (ackHeader bct seq) ++ [0]

theorem ackHeader_checked
    {bct : Nat}
    (check : 1 ≤ bct ∧ bct ≤ 3)
    (seq : Int) :
    blockOk bct (blockCheck bct (ackHeader bct seq)) (ackHeader bct seq) =
      true := by
  obtain two | other : bct = 2 ∨ (bct = 1 ∨ bct = 3) := by omega
  · subst two
    apply blockOk_blockCheck_two
    have sum : ∀ a b c : UInt8, chk2 [a, b, c] < 4096 := by
      intro a b c
      have first := a.toNat_lt
      have second := b.toNat_lt
      have third := c.toNat_lt
      simp only [chk2, List.foldl_cons, List.foldl_nil]
      omega
    exact sum _ _ _
  · exact blockOk_blockCheck other _

/-- The parser accepts the ACK without data, in any state after `S_INIT`. -/
theorem parse_ackRx
    {k : KData}
    {seq : Int}
    {rest : List UInt8}
    (noForce : k.cfg.bcta3 = 0)
    (check : 1 ≤ k.par.bct ∧ k.par.bct ≤ 3)
    (lower : 0 ≤ seq)
    (upper : seq ≤ 63)
    (notInit : k.state ≠ .sInit)
    (sends : k.what = .send)
    (buffer : k.ipktbuf = (ackRx k.par.bct seq).stored ++ rest) :
    ∃ p buf,
      ValidAck seq k (ackRx k.par.bct seq).ret p buf ∧
        peek (buf.drop p.pdf) 0 = 0 := by
  have inUse : inForce k = k.par.bct := by
    simp [inForce, noForce]
  have rseq := toNat_uchar lower upper
  have rlen : (UInt8.ofNat (k.par.bct + 2)).toNat = k.par.bct + 2 := by
    simp
    omega
  have nonzero : UInt8.ofNat (k.par.bct + 2) ≠ 0 := by
    intro zero
    rw [zero] at rlen
    simp at rlen
  have noZero : (0 : UInt8) ∉ ackHeader k.par.bct seq := by
    have number := (printable_seq lower upper).ne_of_lt
      (show (0 : UInt8).toNat < 32 by decide)
    have length := (printable_tochar
      (show k.par.bct + 2 < 96 by omega)).ne_of_lt
        (show (0 : UInt8).toNat < 32 by decide)
    simp only [ackHeader, List.mem_cons, List.not_mem_nil, or_false, not_or]
    exact ⟨length.symm, number.symm, by decide⟩
  let p : Rcvd :=
    { rtyp := ch 'Y', rseq := seq, pdf := 3, datalen := 0,
      ackText := cancelText k }
  obtain ⟨tail, parsed⟩ :=
    @parseCheck_blockCheck k.par.bct 0 p (ackHeader k.par.bct seq)
      ([0] ++ rest) (by omega) (length_blockCheck_of check _)
      (ackHeader_checked check seq) noZero rfl
  have memory : k.ipktbuf = ackHeader k.par.bct seq ++
      blockCheck k.par.bct (ackHeader k.par.bct seq) ++ ([0] ++ rest) := by
    rw [buffer, ackRx, List.append_assoc]
  have fits : 0 + inForce k + 1 < pBuflen := by
    rw [inUse]
    unfold pBuflen pPktlen
    omega
  have lengths := @parseLengths_ordinary k (UInt8.ofNat (k.par.bct + 2)) p
    k.ipktbuf 0 notInit (show ch 'Y' ≠ ch 'S' by decide) rfl fits
  rw [inUse, memory, parsed, ← memory] at lengths
  refine ⟨p, ackHeader k.par.bct seq ++ 0 :: tail, ?_, rfl⟩
  refine ⟨?_, ?_, rfl, rfl⟩
  · show (4 : Int) ≤ 3 + k.par.bct
    omega
  · have first : peek k.ipktbuf 0 = tochar (UInt8.ofNat (k.par.bct + 2)) := by
      rw [memory]
      rfl
    have second : peek k.ipktbuf 1 = tochar (uchar seq) := by
      rw [memory]
      rfl
    have third : peek k.ipktbuf 2 = ch 'Y' := by
      rw [memory]
      rfl
    unfold parse
    simp only [first, second, third, xunchar_tochar, rseq, rlen, noForce]
    rw [if_neg (fun shortcut => absurd shortcut.2.2.2.1 (by decide)),
      if_neg (by omega), if_neg (by rw [sends]; simp), if_neg nonzero]
    rw [← lengths]
    have datalen :
        ((k.par.bct + 2 : Nat) : Int) - k.par.bct - 2 = 0 := by
      omega
    simp only [ne_eq, not_true_eq_false, if_false, datalen]
    rfl

theorem InGet.hearsAck
    {io : Io ω}
    {left : ω → List UInt8}
    {n : Nat}
    {goal : List (List UInt8) → Prop}
    {s : Sys ω}
    (inGet : InGet io left toEnd n goal s) :
    HearsAck (ackRx s.k.par.bct s.k.sSeq) s := by
  have awaiting := inGet.awaiting
  obtain ⟨p, buf, ack, quiet⟩ := @parse_ackRx
    (heardSys (ackRx s.k.par.bct s.k.sSeq) s).k s.k.sSeq
    (s.k.ipktbuf.drop (ackRx s.k.par.bct s.k.sSeq).stored.length)
    awaiting.wf.noForce inGet.check awaiting.outstanding.lower awaiting.upper
    inGet.sending.2 inGet.sends (poke_zero _ _)
  refine ⟨p, buf, ack, fun _ cancels => ?_⟩
  unfold CancelsSend at cancels
  rw [quiet] at cancels
  exact absurd cancels (by decide)

theorem AckRun.trans
    {io : Io ω}
    {v v' v'' : MainVars ω}
    (first : AckRun io v v')
    (second : AckRun io v' v'') :
    AckRun io v v'' := by
  induction second with
  | refl =>
      exact first
  | snoc earlier going acked inductionHypothesis =>
      exact .snoc inductionHypothesis going acked

/-- One more ACK brings the transfer to its next packet or to its end. -/
theorem InGet.turn
    {io : Io ω}
    {left : ω → List UInt8}
    (served : Serves io left)
    {n : Nat}
    {goal : List (List UInt8) → Prop}
    {v : MainVars ω}
    (inGet : InGet io left toEnd n goal v.sys)
    (going : v.ret = none) :
    ∃ v', AckRun io v v' ∧
      (v'.ret = some kSuccess ∨
        v'.ret = none ∧
          ∃ n' goal', InGet io left toEnd n' goal' v'.sys ∧
            acksLeft v'.sys.k.state n' < acksLeft v.sys.k.state n) := by
  have acked := inGet.hearsAck
  generalize ackRx v.sys.k.par.bct v.sys.k.sSeq = rx at acked
  obtain ⟨p, buf, ack, goesOn⟩ := id acked
  obtain ⟨session, ret⟩ := @mainIter_ack _ io _ _ going inGet.awaiting
    inGet.sends inGet.keeps inGet.sending.1 _ _ ack goesOn
  have heard := inGet.heard rx
  refine ⟨_, .snoc (.refl v) going acked, ?_⟩
  rcases heard.step served [] p buf with
    ⟨fine, typ, data, n', goal', advances⟩ | ⟨done, -⟩
  · rw [fine, if_neg (by decide), if_neg (by decide)] at ret
    rw [← session] at advances
    exact .inr ⟨ret, n', goal', advances.inGet heard, advances.fewer⟩
  · rw [done, if_pos rfl] at ret
    exact .inl ret

/-- With a peer that acknowledges every packet, the transfer ends. -/
theorem InGet.ends
    {io : Io ω}
    {left : ω → List UInt8}
    (served : Serves io left)
    {n : Nat}
    {goal : List (List UInt8) → Prop}
    {v : MainVars ω}
    (inGet : InGet io left toEnd n goal v.sys)
    (start : v.ret = none) :
    ∃ v', AckRun io v v' ∧ v'.ret = some kSuccess := by
  generalize measure : acksLeft v.sys.k.state n = turns
  induction turns using Nat.strong_induction_on generalizing v n goal with
  | _ turns inductionHypothesis =>
      obtain ⟨v', run, done | ⟨going, n', goal', inGet', fewer⟩⟩ :=
        inGet.turn served start
      · exact ⟨v', run, done⟩
      · obtain ⟨v'', later, done⟩ :=
          inductionHypothesis _ (measure ▸ fewer) inGet' going rfl
        exact ⟨v'', run.trans later, done⟩

end Slate106.Kermit
