import Slate106.KermitNames
import Slate106.KermitSender
import Slate106.KermitSpelling

namespace Slate106.Kermit

open CBytes

/-!
# The name of a GET

The requester quotes the name of the file in the R packet.  The answerer
decodes the field for its response and goes on with the field as it came, so
that the file it looks for and opens has the quoted name.
-/

variable {ω : Type}

/-! ## The data field of a request -/

/-- The data field for a string when runs are not counted. -/
def quoted
    (cfg : Config)
    (p : Params)
    (text : List UInt8) : List UInt8 :=
  text.flatMap (encodeBytes cfg p)

@[simp] theorem quoted_cons
    (cfg : Config)
    (p : Params)
    (c : UInt8)
    (text : List UInt8) :
    quoted cfg p (c :: text) = encodeBytes cfg p c ++ quoted cfg p text :=
  List.flatMap_cons

/-- No character is left out. -/
theorem length_quoted
    (cfg : Config)
    (p : Params)
    (text : List UInt8) :
    text.length ≤ (quoted cfg p text).length := by
  induction text with
  | nil =>
      exact Nat.le_refl _
  | cons c text inductionHypothesis =>
      have once := (length_encodeBytes cfg p c).1
      rw [quoted_cons, List.length_append, List.length_cons]
      omega

/-- The next character of a string in `obuf`, and what is left after it. -/
theorem nextChar_obuf
    (io : Io ω)
    {s : Sys ω}
    {offset : Nat}
    {rest : List UInt8}
    (reads : s.k.enc.istring = some (.obuf, offset))
    (ahead : cstrAt s.k.obuf offset = rest) :
    (nextChar io s).1 = rest.head? ∧
      (rest ≠ [] → cstrAt s.k.obuf (offset + 1) = rest.tail) := by
  have char : (nextChar io s).1 =
      if peek s.k.obuf offset = 0 then none
      else some (peek s.k.obuf offset) := by
    unfold nextChar
    rw [reads]
    rfl
  rw [char, ← ahead]
  by_cases ended : peek s.k.obuf offset = 0
  · rw [if_pos ended, cstrAt_end ended]
    exact ⟨rfl, fun some => absurd rfl some⟩
  · rw [if_neg ended, cstrAt_next ended]
    exact ⟨rfl, fun _ => rfl⟩

theorem turnRuns_once
    {rptflg : Int}
    (noRuns : rptflg = 0)
    (held : Nat)
    (c : UInt8)
    (next : Option UInt8) :
    turnRuns rptflg held c next = ([], [{ char := c, count := 1 }]) ∧
      turnHeld rptflg held c next = 0 := by
  simp [turnRuns, turnHeld, noRuns]

theorem encodeRuns_spellRuns
    (cfg : Config)
    {p : Params}
    (noRuns : p.rptflg = 0)
    (held : Nat)
    (c : UInt8)
    (rest : List UInt8) :
    encodeRuns cfg p (spellRuns p.rptflg held c rest) =
      quoted cfg p (c :: rest) := by
  induction rest generalizing held c with
  | nil =>
      rw [spellRuns, (turnRuns_once noRuns held c none).1]
      rfl
  | cons next rest inductionHypothesis =>
      rw [spellRuns, (turnRuns_once noRuns held c (some next)).1,
        encodeRuns_append, inductionHypothesis]
      simp [quoted, encodeRun_once]

/-- The turns read what is in `obuf`, as long as there is room for it. -/
theorem turnsRead_obuf
    (io : Io ω)
    {field rest : List UInt8}
    {held : Nat}
    {c : UInt8}
    {s : Sys ω}
    {offset : Nat}
    (spelling : Spelling field held s)
    (reads : s.k.enc.istring = some (.obuf, offset))
    (ahead : cstrAt s.k.obuf offset = rest)
    (room : RoomFor s.k.cfg s.k.par field held c rest) :
    TurnsRead io rest c s := by
  induction rest generalizing field held c s offset with
  | nil =>
      exact (nextChar_obuf io reads ahead).1
  | cons next rest inductionHypothesis =>
      obtain ⟨read, later⟩ := nextChar_obuf io reads ahead
      obtain ⟨below, roomNow⟩ := room.next
      obtain ⟨spellingNow, -⟩ := spelling.goesOn io c read below
      have readsNow := (spelling.spellTurn io c).reads
      rw [reads] at readsNow
      obtain ⟨_, _, _, same, _⟩ := (spelling.turned io c read).spells
      refine ⟨read, inductionHypothesis spellingNow readsNow ?_ ?_⟩
      · rw [same]
        exact later (List.cons_ne_nil _ _)
      · rw [same]
        exact roomNow

/-- `encstr()` of a string in `obuf` that fits. -/
theorem encstr_quotes
    (io : Io ω)
    {s : Sys ω}
    {text : List UInt8}
    (noForce : s.k.cfg.bcta3 = 0)
    (noRuns : s.k.par.rptflg = 0)
    (counted : s.k.enc.sRpt = 0)
    (small : s.k.par.sMaxlen ≤ pPktlen)
    (names : cstrAt s.k.obuf 0 = text)
    (some : text ≠ [])
    (fits :
      ((quoted s.k.cfg s.k.par text).length : Int) ≤ getpktMaxlen s.k.par) :
    Spells s (encstr io .obuf s).2 ∧
      ∃ tail, xdataMem (encstr io .obuf s).2.k =
        quoted s.k.cfg s.k.par text ++ 0 :: tail := by
  have nonzero : peek s.k.obuf 0 ≠ 0 := by
    intro ended
    rw [cstrAt_end ended] at names
    exact some names.symm
  have split : text = peek s.k.obuf 0 :: cstrAt s.k.obuf 1 :=
    names.symm.trans (cstrAt_next nonzero)
  have bytes := encodeRuns_spellRuns s.k.cfg noRuns 0 (peek s.k.obuf 0)
    (cstrAt s.k.obuf 1)
  rw [← split] at bytes
  have room : RoomFor s.k.cfg s.k.par [] 0 (peek s.k.obuf 0)
      (cstrAt s.k.obuf 1) := by
    unfold RoomFor spellBytes
    rw [bytes]
    exact fits
  have reads : TurnsRead io (cstrAt s.k.obuf 1) (peek s.k.obuf 0)
      (begun .obuf (rewound .obuf s)) := by
    obtain ⟨spells, spelling, string⟩ :=
      @begun_string _ (rewound .obuf s) .obuf counted small
    obtain ⟨_, _, _, same, _⟩ := spells
    refine turnsRead_obuf io spelling string ?_ ?_
    · rw [same]
      rfl
    · rw [same]
      exact room
  obtain ⟨spells, tail, holds⟩ :=
    @encstr_fits _ io s .obuf (peek s.k.obuf 0) _ noForce counted small rfl
      nonzero reads room
  have memory := holds.memory
  rw [textRuns, bytes] at memory
  exact ⟨spells, tail, memory⟩

/-! ## The request -/

/-- The data after `_EK_init` and `K_REINIT`. -/
def freshData
    (rootPath : List UInt8) : KData :=
  reinitData (kermitInit (clearedData rootPath))

/-- `kermit_main()` has been started to get a file. -/
def requester
    (io : Io ω)
    (rootPath name : List UInt8)
    (w : ω) : MainVars ω :=
  mainStart io .get [.caller name] (ekInit io rootPath w)

/-- `kermit_main()` has been started to wait for requests. -/
def answerer
    (io : Io ω)
    (rootPath : List UInt8)
    (w : ω) : MainVars ω :=
  mainStart io .wait [] (ekInit io rootPath w)

/-- The data field of the R packet for a name. -/
def requestField
    (name : List UInt8) : List UInt8 :=
  quoted (freshData []).cfg (freshData []).par name

/-- The requester before `K_GET`. -/
def requesting
    (rootPath name : List UInt8)
    (w : ω) : Sys ω where
  k := { freshData rootPath with filelist := [.caller name] }
  r := reinitResponse { clearedResponse with type := .wait }
  w := w
  log := []

/-- `K_REINIT` starts both sessions alike. -/
theorem fresh_begins
    (io : Io ω)
    (rootPath : List UInt8)
    (w : ω)
    (cmlist : List StrRef) :
    (kermit io .reinit 0 (lit "eksw init")
      { ekInit io rootPath w with
        r.type := .wait, k.filelist := cmlist }).2 =
      { k := { freshData rootPath with filelist := cmlist }
        r := reinitResponse { clearedResponse with type := .wait }
        w := w
        log := [] } := by
  have tested : ∀ s : Sys ω, slots s.k = [] → testRslots io s = s := by
    intro s none
    unfold testRslots
    rw [none]
    rfl
  rw [ekInit_eq]
  unfold kermit
  rw [tested _ rfl]
  rfl

theorem requester_sys
    (io : Io ω)
    (rootPath name : List UInt8)
    (w : ω) :
    (requester io rootPath name w).sys =
      (kermit io .get 0 (lit "eksw get")
        (requesting rootPath name w)).2 := by
  unfold requester mainStart
  dsimp only
  rw [fresh_begins]
  rfl

theorem requesting_ready
    (rootPath name : List UInt8)
    (w : ω) :
    Ready (requesting rootPath name w).k := by
  obtain ⟨ready, -⟩ :=
    (settled_kermitInit rootPath).canAnswer [] []
  exact ready.same rfl rfl rfl rfl

/-- The characters that a request does not send as they are. -/
def IsQuoted
    (c : UInt8) : Prop :=
  c = prefixCtrl ∨ c = packetStart ∨ c = packetEnd

instance
    (c : UInt8) :
    Decidable (IsQuoted c) :=
  inferInstanceAs (Decidable (_ ∨ _ ∨ _))

/-- A character in the data field of a request. -/
theorem requestBytes
    {c : UInt8}
    (nonzero : c ≠ 0) :
    encodeBytes (freshData []).cfg (freshData []).par c =
      if IsQuoted c then
        [prefixCtrl, if c = prefixCtrl then c else ctl c]
      else [c] := by
  have cfg : (freshData []).cfg.sCtlq = prefixCtrl := rfl
  have binary : (freshData []).par.binary = 1 := rfl
  have noEighth : (freshData []).par.ebqflg = 0 := rfl
  have noRuns : (freshData []).par.rptflg = 0 := rfl
  unfold encodeBytes IsQuoted isQuoted
  rw [cfg, binary, noEighth, noRuns]
  by_cases start : c = packetStart
  · simp only [start]
    decide
  · by_cases stop : c = packetEnd
    · simp only [stop]
      decide
    · by_cases quote : c = prefixCtrl
      · simp only [quote]
        decide
      · simp [start, stop, quote, nonzero]

/-- A request holds no character that the framing looks for. -/
theorem requestField_plain
    {name : List UInt8}
    (noNul : (0 : UInt8) ∉ name) :
    ∀ c ∈ requestField name, c ≠ 0 ∧ c ≠ packetStart ∧ c ≠ packetEnd := by
  intro c member
  obtain ⟨a, named, written⟩ := List.mem_flatMap.mp member
  have nonzero : a ≠ 0 := fun zero => noNul (zero ▸ named)
  rw [requestBytes nonzero] at written
  by_cases quote : IsQuoted a
  · rw [if_pos quote] at written
    simp only [List.mem_cons, List.not_mem_nil, or_false] at written
    rcases quote with rfl | rfl | rfl
    all_goals
      rcases written with rfl | rfl
      all_goals decide
  · rw [if_neg quote] at written
    rw [List.mem_singleton.mp written]
    exact ⟨nonzero, fun start => quote (.inr (.inl start)),
      fun stop => quote (.inr (.inr stop))⟩

/-- The data field is the name itself when nothing in it is quoted. -/
theorem requestField_eq_iff
    {name : List UInt8}
    (noNul : (0 : UInt8) ∉ name) :
    requestField name = name ↔ ∀ c ∈ name, ¬ IsQuoted c := by
  induction name with
  | nil =>
      exact ⟨fun _ _ member => by simp at member, fun _ => rfl⟩
  | cons c name inductionHypothesis =>
      simp only [List.mem_cons, not_or] at noNul
      have later := inductionHypothesis noNul.2
      unfold requestField at later ⊢
      rw [quoted_cons, requestBytes (Ne.symm noNul.1), List.forall_mem_cons,
        ← later]
      by_cases quote : IsQuoted c
      · rw [if_pos quote]
        constructor
        · intro same
          have long := length_quoted (freshData []).cfg (freshData []).par name
          have lengths := congrArg List.length same
          simp only [List.length_append, List.length_cons,
            List.length_nil] at lengths
          omega
        · exact fun both => absurd quote both.1
      · rw [if_neg quote, List.singleton_append, List.cons_eq_cons]
        exact ⟨fun same => ⟨quote, same.2⟩, fun same => ⟨rfl, same.2⟩⟩

theorem requestNames_one
    (rootPath name : List UInt8)
    (w : ω) :
    requestNames (requesting rootPath name w) = name := by
  simp [requestNames, requesting, deref, List.intercalate]

/-- A session that reads the R packet of another one. -/
structure Listens
    {τ : Type}
    (r : Sys τ) : Prop where
  accepts : Ordinary (ch 'R') r.k
  check : inForce r.k = 1
  start : r.k.par.rSoh = packetStart
  stop : r.k.par.rEom = packetEnd
  room : r.k.par.rMaxlen = pPktlen
  parity : r.k.par.parity = 0

/-- The requester hands one packet to `txd`: its R packet. -/
theorem requester_sends
    (io : Io ω)
    (rootPath : List UInt8)
    (w : ω)
    {name : List UInt8}
    (nonempty : name ≠ [])
    (noNul : (0 : UInt8) ∉ name)
    (fits :
      ((requestField name).length : Int) ≤ getpktMaxlen (freshData []).par)
    {τ : Type}
    {r : Sys τ}
    (listens : Listens r) :
    ∃ k rc,
      (requester io rootPath name w).sys.log =
          [.txd (sentFrame (ch 'R') 0 (requestField name) k) rc] ∧
        Readable (ch 'R') 0 (requestField name) k r := by
  have ready := requesting_ready rootPath name w
  have plain := requestField_plain noNul
  rw [requester_sys]
  unfold kermit
  rw [ready.wf.testRslots io]
  dsimp only
  unfold kermitGet encodeRequest
  rw [requestNames_one]
  obtain ⟨spells, tail, memory⟩ := @encstr_quotes _ io
    { requesting rootPath name w with
      k.obuf := poke (requesting rootPath name w).k.obuf 0 (name ++ [0])
      k.enc.xdata := .xdatabuf }
    name rfl rfl rfl (Nat.le_refl _)
    (by
      show cstr (poke _ 0 (name ++ [0])) = name
      rw [poke_zero, List.append_assoc]
      exact cstr_append_zero noNul _)
    nonempty fits
  have field : quoted (freshData rootPath).cfg (freshData rootPath).par name =
      requestField name :=
    rfl
  change xdataMem _ = quoted (freshData rootPath).cfg
    (freshData rootPath).par name ++ 0 :: tail at memory
  rw [field] at memory
  generalize (encstr io .obuf
    { requesting rootPath name w with
      k.obuf := poke (requesting rootPath name w).k.obuf 0 (name ++ [0])
      k.enc.xdata := .xdatabuf }).2 = t at *
  have encoded : Ready t.k ∧ t.k.sSeq = 0 ∧ t.log = [] ∧
      t.k.cfg = (freshData rootPath).cfg ∧
      t.k.par = (freshData rootPath).par := by
    obtain ⟨_, _, _, rfl, _⟩ := spells
    exact ⟨ready.same rfl rfl rfl rfl, rfl, rfl, rfl, rfl⟩
  obtain ⟨readyNow, number, log, cfg, par⟩ := encoded
  obtain ⟨slot, -⟩ := readyNow.takeSslot
  have busy : ¬ (getSslot t.k).1 < 0 := by
    rw [show (getSslot t.k).1 = 0 from slot]
    decide
  rw [if_neg busy]
  obtain ⟨readyThen, win, taken⟩ := readyNow.takeSlot
  have route : onK (fun k => resetBct (takeSslot k).2) t =
      { t with k.win := win, k.par.bct := 1 } := by
    show onK resetBct (onK (fun k => (takeSslot k).2) t) = _
    rw [taken]
    unfold onK resetBct
    dsimp only
    rw [cfg]
    rfl
  rw [taken] at readyThen
  rw [route]
  generalize known : ({ t with k.win := win, k.par.bct := 1 } : Sys ω) = u
  have check : inForce u.k = 1 := by
    rw [← known]
    unfold inForce
    dsimp only
    rw [cfg]
    rfl
  have free : 0 ≤ (getSslot u.k).1 := by
    have taken := getSslot_free (k := { t.k with win := win, par.bct := 1 })
      readyThen.wf.window readyThen.free
    rw [← known]
    exact Int.le_of_eq (congrArg Prod.fst taken).symm
  have data : spktData (-1) (some (xdataMem u.k)) = requestField name := by
    have same : xdataMem u.k = xdataMem t.k := known ▸ rfl
    rw [same, memory]
    exact cstr_append_zero (fun zero => (plain 0 zero).1 rfl) tail
  have first : u.k.sSeq = 0 := known ▸ number
  have logNow : u.log = [] := known ▸ log
  have starts : u.k.par.sSoh = packetStart :=
    known ▸ congrArg Params.sSoh par
  have stops : u.k.par.sEom = packetEnd := known ▸ congrArg Params.sEom par
  have short : (requestField name).length ≤ 990 := by
    have largest : getpktMaxlen (freshData []).par = 990 := rfl
    rw [largest] at fits
    omega
  have header := length_pktHeader 1 (ch 'R') 0 (requestField name).length
  have length := length_sentFrame (.inl check) (ch 'R') 0 (requestField name)
  have body : (pktBody 1 (ch 'R') 0 (requestField name)).length ≤ pPktlen := by
    simp only [pktBody, List.length_append,
      length_blockCheck (.inl rfl : 1 = 1 ∨ 1 = 3), pPktlen]
    omega
  rw [check] at length
  have room :
      (sentFrame (ch 'R') 0 (spktData (-1) (some (xdataMem u.k))) u.k).length <
        pBuflen := by
    rw [data, length]
    exact Nat.lt_of_le_of_lt (show _ ≤ 999 by omega) (by decide)
  have sent := spkt_slotted io (by decide) (Int.le_refl 0) (by decide) free room
  rw [data] at sent
  dsimp only
  rw [first, sent]
  refine ⟨u.k, (callTxd io (sentFrame (ch 'R') 0 (requestField name) u.k)
    { u with k := loaded (ch 'R') 0 (requestField name) u.k }).1, ?_, ?_⟩
  · have logged : (callTxd io (sentFrame (ch 'R') 0 (requestField name) u.k)
        { u with k := loaded (ch 'R') 0 (requestField name) u.k }).2.log =
          [.txd (sentFrame (ch 'R') 0 (requestField name) u.k)
            (callTxd io (sentFrame (ch 'R') 0 (requestField name) u.k)
              { u with k := loaded (ch 'R') 0 (requestField name) u.k }).1] :=
      congrArg (List.cons _) logNow
    generalize callTxd io (sentFrame (ch 'R') 0 (requestField name) u.k)
      { u with k := loaded (ch 'R') 0 (requestField name) u.k } = result
      at logged
    split
    · exact logged
    · exact logged
  · have forced : forceBcta3 u.k = u.k := by
      have noForce : u.k.cfg.bcta3 = 0 := by
        rw [← known]
        exact congrArg Config.bcta3 cfg
      simp [forceBcta3, noForce]
    exact
      { accepts := listens.accepts
        lower := Int.le_refl 0
        upper := by decide
        kind := .inl check
        sameKind := listens.check.trans check.symm
        fits := by
          rw [check]
          exact Nat.lt_of_le_of_lt (show _ ≤ 992 by omega) (by decide)
        noZero := fun zero => (plain 0 zero).1 rfl
        noStart := fun start => (plain _ start).2.1 rfl
        noEnd := fun stop => (plain _ stop).2.2 rfl
        seen := .inl listens.parity
        startSent := by rw [forced]; exact starts
        endSent := by rw [forced]; exact stops
        startRead := listens.start
        endRead := listens.stop
        room := by rw [check, listens.room]; exact body }

/-! ## The name that is looked for and opened -/

/-- The name of a file that a call looks for or opens for reading. -/
def namedFile : Call → Option (List UInt8)
  | .openf name mode _ => if mode = 1 then some name else none
  | .accessf name _ => some name
  | _ => none

/-- No other file has been looked for or opened. -/
def OnlyNamed
    (name : List UInt8)
    (log : List Call) : Prop :=
  ∀ call ∈ log, ∀ other, namedFile call = some other → other = name

/-- What is still to be opened in a transaction for the file. -/
inductive ToOpen
    (name : List UInt8)
    (k : KData) : Prop where
  | nothing
      (none : k.filelist = [])
  | requested
      (listed : k.filelist = [.xdatabuf])
      (initial : k.state = .sInit)
      (full : 1 ≤ (k.win.opktinfo 0).len)
      (asked : cstr k.enc.xdatabuf = name)

/-- A call after which the transaction is still about the file. -/
structure StaysWith
    (name : List UInt8)
    (result : Int × Sys ω) : Prop where
  named : OnlyNamed name result.2.log
  goesOn :
    result.1 ≠ xError → result.1 ≠ xDone →
      Sender result.2 ∧ ToOpen name result.2.k

section Named

variable {io : Io ω}
variable {s s' : Sys ω}
variable {name : List UInt8}

theorem pathCall_of_named
    {call : Call}
    {other : List UInt8}
    (named : namedFile call = some other) :
    pathCall call = true := by
  cases call with
  | openf name mode rc =>
      by_cases reads : mode = 1
      · simp [pathCall, reads]
      · simp [namedFile, reads] at named
  | accessf name rc =>
      rfl
  | _ =>
      cases named

theorem OnlyNamed.same
    {log log' : List Call}
    (named : OnlyNamed name log)
    (same : log'.filter pathCall = log.filter pathCall) :
    OnlyNamed name log' := by
  intro call member other path
  have kept : call ∈ log'.filter pathCall :=
    List.mem_filter.mpr ⟨member, pathCall_of_named path⟩
  rw [same] at kept
  exact named call (List.mem_filter.mp kept).1 other path

theorem OnlyNamed.cons
    {log : List Call}
    (named : OnlyNamed name log)
    {call : Call}
    (path : ∀ other, namedFile call = some other → other = name) :
    OnlyNamed name (call :: log) :=
  List.forall_mem_cons.mpr ⟨path, named⟩

theorem calls_of_asks
    (same : asks s' = asks s) :
    s'.log.filter pathCall = s.log.filter pathCall :=
  congrArg Prod.snd same

/-- Without a name left, the transaction opens nothing. -/
theorem stays_none
    {result : Int × Sys ω}
    (named : OnlyNamed name s.log)
    (none : s.k.filelist = [])
    (same : asks result.2 = asks s)
    (sender : Sender result.2) :
    StaysWith name result :=
  ⟨named.same (calls_of_asks same),
    fun _ _ => ⟨sender, .nothing ((congrArg Prod.fst same).trans none)⟩⟩

theorem stays_end
    {result : Int × Sys ω}
    (named : OnlyNamed name s.log)
    (same : asks result.2 = asks s)
    (ends : result.1 = xError ∨ result.1 = xDone) :
    StaysWith name result :=
  ⟨named.same (calls_of_asks same),
    fun notError notDone => absurd ends (not_or.mpr ⟨notError, notDone⟩)⟩

theorem ToOpen.undisturbed
    (toOpen : ToOpen name s.k)
    (same : Undisturbed s s') :
    ToOpen name s'.k := by
  obtain ⟨rtr, slot⟩ := same.opktinfo 0
  cases toOpen with
  | nothing none =>
      exact .nothing (same.filelist.trans none)
  | requested listed initial full asked =>
      refine .requested (same.filelist.trans listed)
        (same.state.trans initial) ?_ ?_
      · rw [slot]
        exact full
      · rw [same.enc]
        exact asked

theorem stays_resend
    (wf : Wf s.k)
    (named : OnlyNamed name s.log)
    (sender : Sender s)
    (toOpen : ToOpen name s.k)
    (seq : Int) :
    StaysWith name (resend io seq s) :=
  ⟨named.same (calls_of_asks (by simp)),
    fun _ _ => ⟨sender.same (phase_resend seq s),
      toOpen.undisturbed (resend_undisturbed wf io seq).1⟩⟩

/-- `sendFile()` makes one call with a path. -/
theorem asks_sendFile
    (ref : StrRef)
    (rest : List StrRef)
    (s : Sys ω) :
    ∃ rc,
      asks (sendFile io ref rest s).2 =
        (rest,
          .openf (deref (takeName ref rest s) ref) 1 rc ::
            s.log.filter pathCall) := by
  refine ⟨(callOpenf io (deref (takeName ref rest s) ref) 1
    (takeName ref rest s).r.filesize (takeName ref rest s)).1, ?_⟩
  have reset : ∀ t : Sys ω, asks (resetSofar t) = asks t := fun _ => rfl
  have opened : asks
      (callOpenf io (deref (takeName ref rest s) ref) 1
        (takeName ref rest s).r.filesize (takeName ref rest s)).2 =
      (rest,
        .openf (deref (takeName ref rest s) ref) 1
          (callOpenf io (deref (takeName ref rest s) ref) 1
            (takeName ref rest s).r.filesize (takeName ref rest s)).1 ::
          s.log.filter pathCall) :=
    rfl
  rw [← opened]
  unfold sendFile
  dsimp only
  split
  · rfl
  · split
    · simp
    · simp [reset]

theorem sendFile_opens
    (asked : cstr s.k.enc.xdatabuf = name) :
    ∃ rc, .openf name 1 rc ∈ (sendFile io .xdatabuf [] s).2.log := by
  obtain ⟨rc, asks⟩ := @asks_sendFile _ io .xdatabuf [] s
  have read : deref (takeName .xdatabuf [] s) .xdatabuf = name := asked
  have calls : (sendFile io .xdatabuf [] s).2.log.filter pathCall =
      .openf name 1 rc :: s.log.filter pathCall := by
    rw [← read]
    exact congrArg Prod.snd asks
  have first : .openf name 1 rc ∈
      (sendFile io .xdatabuf [] s).2.log.filter pathCall := by
    rw [calls]
    exact List.mem_cons_self
  exact ⟨rc, List.mem_of_mem_filter first⟩

theorem stays_sendFile
    (named : OnlyNamed name s.log)
    (sender : Sender s)
    (asked : cstr s.k.enc.xdatabuf = name) :
    StaysWith name (sendFile io .xdatabuf [] s) := by
  obtain ⟨rc, asks⟩ := @asks_sendFile _ io .xdatabuf [] s
  have read : deref (takeName .xdatabuf [] s) .xdatabuf = name := asked
  rw [read] at asks
  have once : OnlyNamed name (.openf name 1 rc :: s.log) :=
    named.cons (fun other same => (Option.some.inj same).symm)
  refine ⟨once.same ?_, fun _ _ => ⟨sender.sendFile _ _, .nothing ?_⟩⟩
  · rw [List.filter_cons_of_pos (by rfl)]
    exact congrArg Prod.snd asks
  · exact congrArg Prod.fst asks

theorem stays_nextFile
    (named : OnlyNamed name s.log)
    (sender : Sender s)
    (pending : s.k.filelist = [] ∨
      (s.k.filelist = [.xdatabuf] ∧ cstr s.k.enc.xdatabuf = name)) :
    StaysWith name (nextFile io s) := by
  rcases pending with none | ⟨listed, asked⟩
  · exact stays_none named none (asks_nextFile none) sender.nextFile
  · have next : (onK nxtpkt s).k.filelist = [.xdatabuf] := listed
    unfold nextFile
    dsimp only
    rw [next]
    exact stays_sendFile (s := onK nxtpkt s) named sender asked

theorem stays_cancelSend
    (named : OnlyNamed name s.log)
    (sender : Sender s)
    (none : s.k.filelist = [])
    (p : Rcvd) :
    StaysWith name (cancelSend io p s) := by
  have same : asks (cancelSend io p s).2 = asks s := by
    unfold cancelSend
    dsimp only
    generalize sent : spkt io (ch 'Z') _ 0 Option.none _ = result
    have kept : asks result.2 = asks s := by
      rw [← sent]
      simp
    split
    · exact kept
    · split
      · have calls : (asks result.2).2 = (asks s).2 := congrArg Prod.snd kept
        exact Prod.ext none.symm calls
      · exact kept
  exact stays_none named none same (sender.cancelSend p)

/-- What the state switcher finds still to be opened. -/
def OpensNext
    (name : List UInt8)
    (k : KData) : Prop :=
  k.filelist = [] ∨
    (k.filelist = [.xdatabuf] ∧ k.state = .sInit ∧
      cstr k.enc.xdatabuf = name)

theorem ToOpen.opensNext
    {k : KData}
    (toOpen : ToOpen name k) :
    OpensNext name k := by
  cases toOpen with
  | nothing none =>
      exact .inl none
  | requested listed initial full asked =>
      exact .inr ⟨listed, initial, asked⟩

theorem stays_stateStage
    (named : OnlyNamed name s.log)
    (sender : Sender s)
    (pending : OpensNext name s.k)
    (msg : List UInt8)
    (p : Rcvd) :
    StaysWith name (stateStage io msg p s) := by
  rcases pending with none | ⟨listed, initial, asked⟩
  · refine stays_none named none ?_ (sender.stateStage msg p)
    have states := sender.1
    simp only [senderStates, List.mem_cons, List.not_mem_nil, or_false]
      at states
    change s.k.state = _ ∨ s.k.state = _ ∨ s.k.state = _ ∨ s.k.state = _ ∨
      s.k.state = _ ∨ s.k.state = _ at states
    unfold stateStage
    rcases states with state | state | state | state | state | state
    all_goals rw [state]
    · exact asks_nextFile (s := onK (spar p.pdf p.datalen) s) none
    · exact asks_afterFile s
    · exact asks_afterData s
    · exact asks_afterData s
    · dsimp only
      split
      · rfl
      · exact asks_nextFile none
    · exact asks_reportFile .get s
  · unfold stateStage
    rw [initial]
    exact stays_nextFile (s := onK (spar p.pdf p.datalen) s) named sender
      (.inr ⟨listed, asked⟩)

/-- A part of a call after which the transaction is still about the file. -/
def StageStays
    (name : List UInt8) : Stage ω → Prop
  | .ret rc t => StaysWith name (rc, t)
  | .go _ t => OnlyNamed name t.log ∧ Sender t ∧ OpensNext name t.k

theorem stageStays_sendStage
    (io : Io ω)
    (wf : Wf s.k)
    (named : OnlyNamed name s.log)
    (sender : Sender s)
    (toOpen : ToOpen name s.k)
    (p : Rcvd) :
    StageStays name (sendStage io p s) := by
  unfold sendStage
  split
  · dsimp only
    split
    · rename_i unused
      cases toOpen with
      | nothing none =>
          exact stays_none named none (asks_sendRequested p s)
            (sender.sendRequested p)
      | requested listed initial full asked =>
          rw [nusedSslots_full wf.window (by omega)] at unused
          exact absurd unused (by decide)
    · exact stays_resend wf named sender toOpen p.rseq
  · dsimp only
    split
    · exact ⟨named, fun _ _ => ⟨sender, toOpen⟩⟩
    · generalize s.k.win.sPw p.rseq = slot
      have same : asks (onK (acknowledge slot) s) = asks s :=
        asks_acknowledge slot s
      have acked : Sender (onK (acknowledge slot) s) :=
        sender.same (phase_acknowledge slot s)
      have kept : (onK (acknowledge slot) s).k.state = s.k.state ∧
          (onK (acknowledge slot) s).k.enc = s.k.enc := by
        unfold onK
        rw [acknowledge_shape]
        exact ⟨rfl, rfl⟩
      have log : OnlyNamed name (onK (acknowledge slot) s).log := named
      generalize onK (acknowledge slot) s = t at same acked kept log
      split
      · rename_i cancels
        refine stays_cancelSend log acked ?_ p
        cases toOpen with
        | nothing none =>
            exact (congrArg Prod.fst same).trans none
        | requested listed initial full asked =>
            rw [kept.1, initial] at cancels
            exact nomatch cancels.1
      · refine ⟨log, acked, ?_⟩
        rcases toOpen.opensNext with none | ⟨listed, initial, asked⟩
        · exact .inl ((congrArg Prod.fst same).trans none)
        · refine .inr ⟨(congrArg Prod.fst same).trans listed,
            kept.1.trans initial, ?_⟩
          show cstr t.k.enc.xdatabuf = name
          rw [kept.2]
          exact asked

theorem stageStays_packetStage
    (io : Io ω)
    (wf : Wf s.k)
    (named : OnlyNamed name s.log)
    (sender : Sender s)
    (toOpen : ToOpen name s.k)
    {p : Rcvd}
    (other : p.rtyp ≠ ch 'R') :
    StageStays name (packetStage io p s) := by
  have sends : s.k.what = .send := sender.2
  have busy : s.k.state ≠ .rWait := by
    intro waits
    have states : s.k.state ∈ senderStates := sender.1
    rw [waits] at states
    exact absurd states (by decide)
  unfold packetStage
  rw [if_neg (fun both => by rw [sends] at both; exact nomatch both.2)]
  split
  · exact ⟨named, fun _ _ => ⟨sender, toOpen⟩⟩
  · rename_i notGeneric
    rw [if_neg (fun generic => notGeneric ⟨generic, busy⟩)]
    split
    · exact stays_end named rfl (.inl rfl)
    · exact stageStays_sendStage io wf named sender toOpen p

/-- What is known of a packet that is no request before it is handled. -/
def StageHeard
    (name : List UInt8) : Stage ω → Prop
  | .ret rc t => StaysWith name (rc, t)
  | .go p t =>
      Wf t.k ∧ OnlyNamed name t.log ∧ Sender t ∧ ToOpen name t.k ∧
        p.rtyp ≠ ch 'R'

theorem stageHeard_rxStage
    (io : Io ω)
    (wf : Wf s.k)
    (named : OnlyNamed name s.log)
    (sender : Sender s)
    (toOpen : ToOpen name s.k)
    {len : Int}
    (other : ∀ p buf, ¬ ValidRequest s.k len p buf) :
    StageHeard name (rxStage io len s) := by
  have forced : forceBcta3 s.k = s.k := by
    simp [forceBcta3, wf.noForce]
  have sends : ¬ s.k.what = .recv := by
    rw [show s.k.what = .send from sender.2]
    decide
  have stored : ∀ buf : List UInt8,
      Wf { s with k.ipktbuf := buf }.k ∧
        ToOpen name { s with k.ipktbuf := buf }.k := by
    intro buf
    have slotted : Wf { s with k.ipktbuf := buf }.k :=
      ⟨wf.noForce, wf.oneSlot, wf.window, wf.noWindowing, wf.received,
        wf.kept, wf.mapped⟩
    refine ⟨slotted, ?_⟩
    cases toOpen with
    | nothing none =>
        exact .nothing none
    | requested listed initial full asked =>
        exact .requested listed initial full asked
  have again : ∀ buf, StaysWith name
      (resendUnlessRecv io { s with k.ipktbuf := buf }) := by
    intro buf
    unfold resendUnlessRecv
    rw [if_neg sends]
    exact stays_resend (s := { s with k.ipktbuf := buf }) (stored buf).1
      named sender (stored buf).2 (-1)
  have ignored : ∀ buf, StaysWith name
      (xOk, (resendUnlessRecv io { s with k.ipktbuf := buf }).2) := by
    intro buf
    refine ⟨(again buf).named, fun _ _ => ?_⟩
    unfold resendUnlessRecv
    rw [if_neg sends]
    exact ⟨sender.same (phase_resend (-1) { s with k.ipktbuf := buf }),
      (stored buf).2.undisturbed
        (resend_undisturbed (stored buf).1 io (-1)).1⟩
  unfold rxStage
  rw [forced]
  split
  · exact stays_resend wf named sender toOpen (-1)
  · rename_i long
    cases parsed : parse s.k len with
    | shortcut =>
        exact stays_end named rfl (.inr rfl)
    | tossed =>
        exact ⟨named, fun _ _ => ⟨sender, toOpen⟩⟩
    | badHeader buf =>
        exact again buf
    | badLength =>
        exact ignored s.k.ipktbuf
    | badCheck buf =>
        exact ignored buf
    | good p buf =>
        exact ⟨(stored buf).1, named, sender, (stored buf).2,
          fun request => other p buf ⟨Int.not_lt.mp long, parsed, request⟩⟩

/-- A call with a packet that is no request keeps to the file. -/
theorem stays_kermitRun
    (io : Io ω)
    (wf : Wf s.k)
    (received : s.k.doRxd = true)
    (named : OnlyNamed name s.log)
    (sender : Sender s)
    (toOpen : ToOpen name s.k)
    {len : Int}
    (other : ∀ p buf, ¬ ValidRequest s.k len p buf)
    (msg : List UInt8) :
    StaysWith name (kermit io .run len msg s) := by
  have heard := stageHeard_rxStage io wf named sender toOpen other
  unfold kermit
  rw [wf.testRslots io]
  dsimp only
  unfold kermitRun
  split
  · exact ⟨named, fun _ _ => ⟨sender, toOpen⟩⟩
  · generalize rxStage io len s = stage at heard
    cases stage with
    | ret rc t =>
        exact heard
    | go p t =>
        obtain ⟨slotted, log, sends, opens, notRequest⟩ := heard
        have handled :=
          stageStays_packetStage io slotted log sends opens notRequest
        dsimp only
        generalize packetStage io p t = stage at handled
        cases stage with
        | ret rc u =>
            exact handled
        | go p u =>
            obtain ⟨log, sends, pending⟩ := handled
            exact stays_stateStage log sends pending msg p

/-! ## Runs of the answerer -/

/-- A turn in which the loop goes on and reads a request. -/
def HearsRequest
    (rx : Rx)
    (v : MainVars ω) : Prop :=
  v.ret = none ∧ ∃ p buf, ValidRequest (heardSys rx v.sys).k rx.ret p buf

/-- No turn of a run reads a request. -/
def Unrequested
    (io : Io ω) : List Rx → MainVars ω → Prop
  | [], _ => True
  | rx :: rest, v =>
      ¬ HearsRequest rx v ∧ Unrequested io rest (mainIter io rx v)

/-- The transaction of the main loop is about the file. -/
structure AnswersFor
    (name : List UInt8)
    (v : MainVars ω) : Prop where
  named : OnlyNamed name v.sys.log
  going : v.ret = none → Turning v ∧ Sender v.sys ∧ ToOpen name v.sys.k

theorem AnswersFor.next
    {v : MainVars ω}
    (answers : AnswersFor name v)
    {rx : Rx}
    (quiet : ¬ HearsRequest rx v) :
    AnswersFor name (mainIter io rx v) := by
  by_cases left : v.ret ≠ none
  · rw [mainIter_left io rx left]
    exact answers
  · obtain ⟨turning, sender, toOpen⟩ := answers.going (not_not.mp left)
    have core := heardSys_core rx v.sys
    have wf : Wf (heardSys rx v.sys).k := turning.wf.scratch core io
    have reads : (heardSys rx v.sys).k.doRxd = true :=
      ok2rxd_held turning.wf turning.held
    have named : OnlyNamed name (heardSys rx v.sys).log := answers.named
    have sends : Sender (heardSys rx v.sys) := sender
    have opens : ToOpen name (heardSys rx v.sys).k := by
      cases toOpen with
      | nothing none =>
          exact .nothing none
      | requested listed initial full asked =>
          exact .requested listed initial full asked
    have other : ∀ p buf,
        ¬ ValidRequest (heardSys rx v.sys).k rx.ret p buf :=
      fun p buf request => quiet ⟨not_not.mp left, p, buf, request⟩
    have next := turning.next io rx
    have turn := turn_cases io turning rx
    generalize mainIter io rx v = v' at next turn
    cases turn with
    | fatal failed =>
        exact ⟨named, fun none => nomatch none⟩
    | gaveUp silent spent =>
        refine ⟨?_, fun none => nomatch none⟩
        dsimp only
        split
        · exact named
        · have told : asks
              (kermit io .error 0 (lit "eksw to") (heardSys rx v.sys)).2 =
                asks (heardSys rx v.sys) := by
            unfold kermit
            rw [wf.testRslots io]
            exact (asks_callClosef _ _ _).trans (asks_epkt _ _)
          exact named.same (calls_of_asks told)
    | handled retrycounter ret counted left given =>
        have stays := stays_kermitRun io wf reads named sends opens other []
        refine ⟨stays.named, fun none => ⟨next none, ?_⟩⟩
        obtain ⟨notDone, notError⟩ := left none
        exact stays.goesOn notError notDone

theorem AnswersFor.run
    {v : MainVars ω}
    (answers : AnswersFor name v)
    {rxs : List Rx}
    (quiet : Unrequested io rxs v) :
    AnswersFor name (mainLoop io rxs v) := by
  induction rxs generalizing v with
  | nil =>
      exact answers
  | cons rx rest inductionHypothesis =>
      exact inductionHypothesis (answers.next quiet.1) quiet.2

/-! ## The request is answered -/

theorem answerRequest_calls
    (what : What)
    (s : Sys ω) :
    (answerRequest io what s).2.k.enc.xdatabuf = s.k.enc.xdatabuf ∧
      (answerRequest io what s).2.log.filter pathCall =
        s.log.filter pathCall := by
  let listed : Sys ω := { s with k.filelist := [.xdatabuf] }
  have sent := @namedAsks_rpar _ io (ch 'S') listed
  have route : answerRequest io what s =
      if (rpar io (ch 'S') listed).1 ≠ xOk then
        (xError,
          epkt io (lit "Send S packet Failed") (rpar io (ch 'S') listed).2)
      else
        (xOk, setWhat what (setState .sInit (rpar io (ch 'S') listed).2)) :=
    rfl
  have name : (namedAsks listed).1 = s.k.enc.xdatabuf := rfl
  have calls : (namedAsks listed).2.2 = s.log.filter pathCall := rfl
  rw [route, ← name, ← calls, ← sent]
  generalize rpar io (ch 'S') listed = result
  split
  · have told := @namedAsks_epkt _ io (lit "Send S packet Failed") result.2
    exact ⟨congrArg Prod.fst told, congrArg (fun named => named.2.2) told⟩
  · exact ⟨rfl, rfl⟩

/-- A request makes one call with a path, and its name stays in `xdatabuf`. -/
theorem rPacket_calls
    (io : Io ω)
    (p : Rcvd)
    (s : Sys ω) :
    (rPacket io p s).2.k.enc.xdatabuf = cstr (pdfMem p s) ++ [0] ∧
      ∃ rc, (rPacket io p s).2.log.filter pathCall =
        .accessf (cstr (pdfMem p s)) rc :: s.log.filter pathCall := by
  have field : pdfMem p (decodeName (pdfMem p s) s).2 = pdfMem p s := rfl
  unfold rPacket
  dsimp only
  rw [field]
  have looked :
      (callAccessf io (cstr (pdfMem p s))
          (noteRequest .get (cstr (pdfMem p s))
            (decodeName (pdfMem p s) s).2)).2.log.filter pathCall =
        .accessf (cstr (pdfMem p s))
            (callAccessf io (cstr (pdfMem p s))
              (noteRequest .get (cstr (pdfMem p s))
                (decodeName (pdfMem p s) s).2)).1 ::
          s.log.filter pathCall :=
    rfl
  have noted :
      (callAccessf io (cstr (pdfMem p s))
          (noteRequest .get (cstr (pdfMem p s))
            (decodeName (pdfMem p s) s).2)).2.k.enc.xdatabuf =
        cstr (pdfMem p s) ++ [0] :=
    rfl
  generalize
    callAccessf io (cstr (pdfMem p s))
      (noteRequest .get (cstr (pdfMem p s)) (decodeName (pdfMem p s) s).2) =
    access at looked noted
  split
  · have told := @namedAsks_epkt _ io
      (lit "The file specified in GET parameters is not accessible") access.2
    generalize
      epkt io (lit "The file specified in GET parameters is not accessible")
        access.2 = t at told
    exact ⟨(congrArg Prod.fst told).trans noted, access.1,
      (congrArg (fun named => named.2.2) told).trans looked⟩
  · obtain ⟨name, calls⟩ := @answerRequest_calls _ io .send access.2
    split
    · exact ⟨name.trans noted, access.1, calls.trans looked⟩
    · exact ⟨name.trans noted, access.1, calls.trans looked⟩

/--
The answerer has looked for the file, opens it when S is acknowledged, and
opens no other file until it reads another request.
-/
structure OpensAs
    (io : Io ω)
    (name : List UInt8)
    (v : MainVars ω) : Prop where
  accessed : ∃ rc, .accessf name rc ∈ v.sys.log
  opened :
    v.ret = none → ∀ rx, HearsAck rx v.sys →
      ∃ rc, .openf name 1 rc ∈ (mainIter io rx v).sys.log
  only :
    ∀ rxs, Unrequested io rxs v →
      OnlyNamed name (mainLoop io rxs v).sys.log

theorem answerer_sys
    (io : Io ω)
    (rootPath : List UInt8)
    (w : ω) :
    (answerer io rootPath w).sys =
        { k := { freshData rootPath with filelist := [] }
          r := reinitResponse { clearedResponse with type := .wait }
          w := w
          log := [] } ∧
      (answerer io rootPath w).ret = none := by
  unfold answerer mainStart
  dsimp only
  rw [fresh_begins]
  exact ⟨rfl, rfl⟩

theorem answerer_listens
    (io : Io ω)
    (rootPath : List UInt8)
    (w : ω) :
    Listens (answerer io rootPath w).sys := by
  rw [(answerer_sys io rootPath w).1]
  have letter : ch 'R' ∈ lit "YNFADZBXRG" := by
    decide
  have noEcho : ¬ (ch 'R' = ch 'Y' ∨ ch 'R' = ch 'N') := by
    decide
  have accepts : ∀ k : KData, k.state = .rWait → Ordinary (ch 'R') k := by
    intro k waits
    refine ⟨letter, ?_, ?_, fun echo => absurd echo noEcho⟩
    · rw [waits]
      decide
    · rw [waits]
      decide
  exact ⟨accepts _ rfl, rfl, rfl, rfl, rfl, rfl⟩

/-- S is acknowledged: the requested file is opened. -/
theorem Requested.openf
    {v : MainVars ω}
    (requested : Requested v.sys.k)
    (going : v.ret = none)
    (named : cstr v.sys.k.enc.xdatabuf = name)
    {rx : Rx}
    (acked : HearsAck rx v.sys) :
    ∃ rc, .openf name 1 rc ∈ (mainIter io rx v).sys.log := by
  obtain ⟨p, buf, ack, goesOn⟩ := acked
  obtain ⟨win, freed, -⟩ :=
    Awaiting.acknowledge (k := { (heardSys rx v.sys).k with ipktbuf := buf })
      (by
        obtain ⟨wf, outstanding, upper⟩ := requested.awaiting
        exact ⟨⟨wf.noForce, wf.oneSlot, wf.window, wf.noWindowing,
          wf.received, wf.kept, wf.mapped⟩, ⟨outstanding.number,
          outstanding.lower, outstanding.mapped, outstanding.nonempty,
          outstanding.fits⟩, upper⟩)
  have set : v.sys.k.state ≠ .rNone := by
    rw [requested.state]
    decide
  have session := (@mainIter_ack _ io _ _ going requested.awaiting
    requested.what requested.keeps set _ _ ack goesOn).1
  rw [session, afterAck_initial (s := heardSys rx v.sys) requested.state
    requested.filelist freed]
  exact sendFile_opens named

/-- The answerer goes on with the data field of the R packet. -/
theorem answerer_opensAs
    (io : Io ω)
    (rootPath : List UInt8)
    (w : ω)
    {text : List UInt8}
    {rx : Rx}
    {p : Rcvd}
    {buf : List UInt8}
    (parsed : parse (receive rx (answerer io rootPath w).sys).k rx.ret =
      .good p buf)
    (read : ReadAs (ch 'R') 0 text p buf)
    (long : 4 ≤ rx.ret) :
    OpensAs io text (mainIter io rx (answerer io rootPath w)) := by
  have settled := settled_kermitInit rootPath
  obtain ⟨sys, going⟩ := answerer_sys io rootPath w
  have turning : Turning (answerer io rootPath w) :=
    (turning_mainStart .wait [] (session_ekInit io rootPath w)).1
  have received : (heardSys rx (answerer io rootPath w).sys).k.doRxd = true :=
    ok2rxd_held turning.wf turning.held
  have request : ValidRequest
      (heardSys rx (answerer io rootPath w).sys).k rx.ret p buf := by
    refine ⟨long, ?_, read.rtyp⟩
    rw [sys] at parsed ⊢
    exact parsed
  have wf : Wf (heardSys rx (answerer io rootPath w).sys).k :=
    turning.wf.scratch (heardSys_core rx _) io
  have set : (heardSys rx (answerer io rootPath w).sys).k.state ≠ .rNone := by
    show (answerer io rootPath w).sys.k.state ≠ .rNone
    rw [sys]
    exact fun none => nomatch none
  have noCalls : (heardSys rx (answerer io rootPath w).sys).log = [] := by
    rw [sys]
    rfl
  have next := turning.next io rx
  have accepted := mainIter_requested io settled
    (k := { kermitInit (clearedData rootPath) with filelist := [] })
    (congrArg Sys.k sys) going request
  obtain ⟨session, -⟩ := @mainIter_heard _ io _ _ going received long
  rw [kermit_request wf set received request] at session
  obtain ⟨name, rc, calls⟩ := @rPacket_calls _ io p
    { heardSys rx (answerer io rootPath w).sys with k.ipktbuf := buf }
  have field : cstr (pdfMem p
      { heardSys rx (answerer io rootPath w).sys with k.ipktbuf := buf }) =
        text :=
    read.text
  have none : ({ heardSys rx (answerer io rootPath w).sys with
      k.ipktbuf := buf } : Sys ω).log.filter pathCall = [] :=
    congrArg (List.filter pathCall) noCalls
  rw [field, ← session] at name calls
  rw [none] at calls
  generalize mainIter io rx (answerer io rootPath w) = v
    at next accepted name calls
  have only : OnlyNamed text v.sys.log := by
    have once : OnlyNamed text [.accessf text rc] := by
      intro call member other path
      rw [List.mem_singleton.mp member] at path
      exact (Option.some.inj path).symm
    exact once.same calls
  have asked : cstr v.sys.k.enc.xdatabuf = text := by
    rw [name]
    refine cstr_append_zero ?_ []
    rw [← read.text]
    exact zero_notMem_cstr _
  have answers : AnswersFor text v := by
    refine ⟨only, fun none => ⟨next none, ?_, ?_⟩⟩
    · refine ⟨?_, (accepted none).what⟩
      rw [show (phase v.sys).1 = .sInit from (accepted none).state]
      decide
    · exact .requested (accepted none).filelist (accepted none).state
        (accepted none).awaiting.outstanding.nonempty asked
  have looked : Call.accessf text rc ∈ v.sys.log.filter pathCall := by
    rw [calls]
    exact List.mem_cons_self
  exact
    { accessed := ⟨rc, List.mem_of_mem_filter looked⟩
      opened := fun none _ acked => (accepted none).openf none asked acked
      only := fun _ quiet => (answers.run quiet).named }

end Named

/-! ## Names that come through -/

/--
The requester sends one packet, and however it arrives, the answerer goes on
with the name that was requested.
-/
def OpensRequested
    {τ : Type}
    (asking : MainVars ω)
    (io : Io τ)
    (answering : MainVars τ)
    (name : List UInt8) : Prop :=
  ∃ frame rc,
    asking.sys.log = [.txd frame rc] ∧
      ∀ polls tail rx, Arrives answering.sys.k.par frame polls →
        kreadpkt answering.sys.k.par (polls ++ tail) = some (rx, tail) →
        OpensAs io name (mainIter io rx answering)

/-- The name comes through exactly when its data field is the name itself. -/
theorem opensRequested_field
    {τ : Type}
    (io : Io ω)
    (rootPath : List UInt8)
    (w : ω)
    (io' : Io τ)
    (rootPath' : List UInt8)
    (w' : τ)
    {name : List UInt8}
    (nonempty : name ≠ [])
    (noNul : (0 : UInt8) ∉ name)
    (fits :
      ((requestField name).length : Int) ≤ getpktMaxlen (freshData []).par) :
    OpensRequested (requester io rootPath name w) io'
        (answerer io' rootPath' w') name ↔
      requestField name = name := by
  obtain ⟨k, rc, sent, readable⟩ := requester_sends io rootPath w nonempty
    noNul fits (answerer_listens io' rootPath' w')
  obtain ⟨p, buf, parsed, read⟩ := readable.parsed
  have long : 4 ≤ (bodyRx (ch 'R') 0 (requestField name) k).ret := by
    have header : 3 ≤ (pktHeader (inForce k) (ch 'R') 0
        (requestField name).length).length := by
      unfold pktHeader
      dsimp only
      split <;> simp
    have some := List.length_pos_iff.mpr nonempty
    have data := length_quoted (freshData []).cfg (freshData []).par name
    simp only [bodyRx, pktBody, List.length_append, requestField] at header ⊢
    omega
  have opens := answerer_opensAs io' rootPath' w' parsed read long
  constructor
  · rintro ⟨frame, rc', same, however⟩
    rw [sent] at same
    obtain ⟨rfl, -⟩ := Call.txd.inj (List.cons.inj same).1
    have arrives := arrives_bytes (answerer io' rootPath' w').sys.k.par
      (sentFrame (ch 'R') 0 (requestField name) k)
    have asked := however _ [] _ arrives (readable.arrives arrives [])
    obtain ⟨rc'', looked⟩ := asked.accessed
    exact (opens.only [] trivial _ looked name rfl).symm
  · intro same
    refine ⟨_, rc, sent, ?_⟩
    intro polls tail rx arrives returned
    rw [readable.arrives arrives tail] at returned
    obtain ⟨rfl, -⟩ := Prod.mk.inj (Option.some.inj returned)
    rw [same] at opens ⊢
    exact opens

/--
The file that was requested is looked for and opened exactly when its name has
no character that the R packet quotes: `#`, a start or a terminator.
-/
theorem get_opens_requested_iff
    {τ : Type}
    (io : Io ω)
    (rootPath : List UInt8)
    (w : ω)
    (io' : Io τ)
    (rootPath' : List UInt8)
    (w' : τ)
    {name : List UInt8}
    (nonempty : name ≠ [])
    (noNul : (0 : UInt8) ∉ name)
    (fits :
      ((requestField name).length : Int) ≤ getpktMaxlen (freshData []).par) :
    OpensRequested (requester io rootPath name w) io'
        (answerer io' rootPath' w') name ↔
      ∀ c ∈ name, ¬ IsQuoted c :=
  (opensRequested_field io rootPath w io' rootPath' w' nonempty noNul
    fits).trans (requestField_eq_iff noNul)

/-- A requester for a name, over a link that takes every packet. -/
def askingFor
    (name : List UInt8) : MainVars (Unix (List UInt8)) :=
  requester (unixio fileOs) [] name
    { os := [], ofile := -1, ifile := false, calls := [] }

/-- An answerer that has every file. -/
def answeringAll : MainVars (Unix (List UInt8)) :=
  answerer (unixio fileOs) []
    { os := [], ofile := -1, ifile := false, calls := [] }

theorem get_opens_requested_iff_plain :
    OpensRequested (askingFor (lit "a_b")) (unixio fileOs) answeringAll
        (lit "a_b") ↔
      ∀ c ∈ lit "a_b", ¬ IsQuoted c :=
  get_opens_requested_iff (unixio fileOs) [] _ (unixio fileOs) [] _
    (by decide) (by decide) (by decide +kernel)

/-- For the file `a#b`, the answerer looks for `a##b` and opens that. -/
theorem quoted_name_not_opened :
    (∃ rc, (askingFor (lit "a#b")).sys.log =
        [.txd (packetStart :: (pktBody 1 (ch 'R') 0 (lit "a##b") ++
          [packetEnd])) rc]) ∧
      (mainLoop (unixio fileOs)
          [packetOf (ch 'R') 0 (lit "a##b"), packetOf (ch 'Y') 0 []]
          answeringAll).sys.log.filter pathCall =
        [.openf (lit "a##b") 1 xOk, .accessf (lit "a##b") xOk] ∧
      ¬ OpensRequested (askingFor (lit "a#b")) (unixio fileOs) answeringAll
        (lit "a#b") := by
  refine ⟨⟨0, by decide +kernel⟩, by decide +kernel, ?_⟩
  intro opens
  have same := (opensRequested_field (unixio fileOs) [] _ (unixio fileOs) [] _
    (by decide) (by decide) (by decide +kernel)).mp opens
  exact absurd same (by decide +kernel)

end Slate106.Kermit
