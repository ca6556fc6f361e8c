import Slate106.KermitReceiver
import Slate106.KermitSattr

namespace Slate106.Kermit

open CBytes

/-!
# What a receiver makes of each packet

A session that receives a file takes S, F, A, D, Z and B as they come, or the
packet it took last once more, and acknowledges each of them.
-/

variable {ω : Type}

/-! ## The memory of a packet -/

theorem zero_mem_drop_poke
    (memory : List UInt8)
    (start count : Nat)
    (bytes : List UInt8) :
    (0 : UInt8) ∈ (poke memory (start + count) (bytes ++ [0])).drop start := by
  unfold poke
  rw [List.append_assoc, List.drop_append_of_le_length (by simp)]
  simp

private theorem parseCheck_zero
    {chklen datalen : Nat}
    {p p' : Rcvd}
    {start buf : List UInt8}
    (good : parseCheck chklen datalen p start = .good p' buf) :
    (0 : UInt8) ∈ buf.drop p'.pdf := by
  unfold parseCheck at good
  dsimp only at good
  split at good
  · obtain ⟨rfl, rfl⟩ := Parsed.good.inj good
    exact zero_mem_drop_poke start p.pdf datalen []
  · split at good
    · split at good
      · obtain ⟨rfl, rfl⟩ := Parsed.good.inj good
        exact zero_mem_drop_poke _ p.pdf datalen _
      · cases good
    · cases good

private theorem parseLengths_zero
    {k : KData}
    {rlen : UInt8}
    {p p' : Rcvd}
    {start buf : List UInt8}
    (good : parseLengths k rlen p start = .good p' buf) :
    (0 : UInt8) ∈ buf.drop p'.pdf := by
  unfold parseLengths at good
  dsimp only at good
  split at good
  · cases good
  · exact parseCheck_zero good

/-- The data field of a good packet is terminated. -/
theorem parse_zero
    {k : KData}
    {len : Int}
    {p : Rcvd}
    {buf : List UInt8}
    (good : parse k len = .good p buf) :
    (0 : UInt8) ∈ buf.drop p.pdf := by
  unfold parse at good
  dsimp only at good
  split at good
  · cases good
  · split at good
    · cases good
    · split at good
      · cases good
      · split at good
        · split at good
          · cases good
          · exact parseLengths_zero good
        · exact parseLengths_zero good

theorem cstr_terminated
    {memory : List UInt8}
    (zero : 0 ∈ memory) :
    ∃ tail, memory = cstr memory ++ 0 :: tail := by
  induction memory with
  | nil =>
      exact absurd zero List.not_mem_nil
  | cons c memory inductionHypothesis =>
      by_cases ends : c = 0
      · subst ends
        exact ⟨memory, by simp⟩
      · obtain ⟨tail, split⟩ := inductionHypothesis
          ((List.mem_cons.mp zero).resolve_left (Ne.symm ends))
        refine ⟨tail, ?_⟩
        rw [cstr_cons ends, List.cons_append, ← split]

variable {io : Io ω}
variable {rootPath : List UInt8}
variable {s : Sys ω}
variable {typ : UInt8}
variable {seq : Int}
variable {data : List UInt8}
variable {rx : Rx}
variable {p : Rcvd}
variable {buf : List UInt8}

/-- The session after the checks of a packet. -/
def parsedSys
    (rx : Rx)
    (buf : List UInt8)
    (s : Sys ω) : Sys ω :=
  { heardSys rx s with k := { (heardSys rx s).k with ipktbuf := buf } }

theorem HeardAs.memory
    (heard : HeardAs typ seq data rx s p buf) :
    ∃ tail, pdfMem p (parsedSys rx buf s) = data ++ 0 :: tail := by
  obtain ⟨tail, split⟩ := cstr_terminated (parse_zero heard.good)
  rw [show cstr (buf.drop p.pdf) = data from heard.read.text] at split
  exact ⟨tail, split⟩

theorem HeardAs.text
    (heard : HeardAs typ seq data rx s p buf) :
    cstr (pdfMem p (parsedSys rx buf s)) = data :=
  heard.read.text

/-- A packet of a file goes to the state switcher of a session that waits. -/
theorem kermit_received
    (wf : Wf s.k)
    (receiving : s.k.what = .recv ∨ s.k.what = .get ∧ s.k.state = .rWait)
    (set : s.k.state ≠ .rNone)
    (heard : HeardAs typ seq data rx s p buf)
    (kind : typ ∈ lit "SFADZB")
    (msg : List UInt8) :
    kermit io .run rx.ret msg (heardSys rx s) =
      stateStage io msg p (parsedSys rx buf s) := by
  have wfHeard : Wf (heardSys rx s).k :=
    ⟨wf.noForce, wf.oneSlot, wf.window, wf.noWindowing, wf.received, wf.kept,
      wf.mapped⟩
  have received : (heardSys rx s).k.doRxd = true := by
    show (ok2rxd s.k).doRxd = true
    rcases receiving with what | ⟨-, state⟩
    · simp [ok2rxd, what]
    · simp [ok2rxd, state]
  have what : (heardSys rx s).k.what ≠ .send ∧
      (heardSys rx s).k.what ≠ .dir := by
    show s.k.what ≠ .send ∧ s.k.what ≠ .dir
    rcases receiving with what | ⟨what, -⟩
    all_goals
      rw [what]
      decide
  have forced : forceBcta3 (heardSys rx s).k = (heardSys rx s).k := by
    unfold forceBcta3
    rw [if_neg (not_not.mpr wfHeard.noForce)]
  have kinds : ∀ c ∈ lit "SFADZB",
      c ≠ ch 'G' ∧ c ≠ ch 'R' ∧ c ≠ ch 'E' := by
    decide +kernel
  obtain ⟨notG, notR, notE⟩ := kinds typ kind
  rw [← heard.read.rtyp] at notG notR notE
  unfold kermit
  rw [wfHeard.testRslots io]
  dsimp only
  unfold kermitRun
  have waits : (heardSys rx s).k.state ≠ .rNone := set
  rw [if_neg waits, if_pos received]
  unfold rxStage
  rw [if_neg (by have long := heard.long; omega), heard.good]
  dsimp only
  rw [forced]
  unfold packetStage
  rw [if_neg fun both => what.2 both.2,
    if_neg fun both => notG both.1, if_neg notG, if_neg notR, if_neg notE,
    if_neg fun sending => what.1 sending]
  rfl

/-- One packet was sent, and the session goes on receiving. -/
structure Replied
    (rootPath : List UInt8)
    (frame : List UInt8)
    (s s' : Sys ω) : Prop where
  receives : Receives rootPath s'.k
  what : s'.k.what = .recv
  sent : ∃ calls, s'.log = calls ++ s.log ∧ txds calls = [frame]

/-! ## The packets of a file -/

/-- A packet: its type, its number and its data. -/
structure Item where
  typ : UInt8
  seq : Int
  data : List UInt8
  deriving Repr, DecidableEq

/-- The packet as it is sent. -/
def Item.frame
    (item : Item) : List UInt8 :=
  frameOf item.typ item.seq item.data

/-- What the data packets among some packets, newest first, stand for. -/
def content : List Item → List UInt8
  | [] => []
  | item :: rest =>
      content rest ++
        (if item.typ = ch 'D' then decodeMem agreedPar item.data else [])

/-- A field that is read as a name, whatever follows its terminator. -/
def ReadAsName
    (name field : List UInt8) : Prop :=
  ∀ tail, decodeMem agreedPar (field ++ 0 :: tail) = name

/-- A field of attributes that announces a binary file. -/
def Binary
    (field : List UInt8) : Prop :=
  ∀ tail r, (gattr (field ++ 0 :: tail) r).1 = 1

/-- The packets that a fresh session sends for a file of a name. -/
structure Genuine
    (name : List UInt8)
    (item : Item) : Prop where
  sendable : Sendable item.typ item.seq item.data
  start : item.typ = ch 'S' → item.seq = 0 ∧ item.data = freshInit
  named : item.typ = ch 'F' → ReadAsName name item.data
  binary : item.typ = ch 'A' → Binary item.data
  decodes : item.typ = ch 'D' → decodeMem agreedPar item.data ≠ []

theorem Genuine.some
    {name : List UInt8}
    {item : Item}
    (genuine : Genuine name item)
    (kind : item.typ = ch 'D') :
    item.data ≠ [] := by
  intro nothing
  refine genuine.decodes kind ?_
  rw [nothing]
  rfl

/-- The data that a packet of a type is acknowledged with. -/
def replies
    (name : List UInt8)
    (typ : UInt8) : List (List UInt8) :=
  if typ = ch 'S' then [freshInit]
  else if typ = ch 'F' then [name, []]
  else if typ = ch 'A' then [lit "Y"]
  else [[]]

theorem replies_end
    (name : List UInt8)
    {typ : UInt8}
    (kind : typ = ch 'D' ∨ typ = ch 'Z' ∨ typ = ch 'B') :
    replies name typ = [[]] := by
  rcases kind with rfl | rfl | rfl
  all_goals rfl

/-- What a packet is acknowledged with. -/
structure Replies
    (name : List UInt8)
    (answer item : Item) : Prop where
  typ : answer.typ = ch 'Y'
  seq : answer.seq = item.seq
  data : answer.data ∈ replies name item.typ

/-- How often a file was closed. -/
def closefs : List Call → Nat
  | [] => 0
  | .closef _ _ :: rest => closefs rest + 1
  | _ :: rest => closefs rest

/-- What was written to the output file, and how often it was closed. -/
def outputs
    (log : List Call) : List UInt8 × Nat :=
  (writefs log, closefs log)

theorem Filing.closefs
    {calls : List Call}
    (filing : Filing calls)
    (log : List Call) :
    closefs (calls ++ log) = closefs log := by
  induction calls with
  | nil =>
      rfl
  | cons call calls inductionHypothesis =>
      have rest := inductionHypothesis fun later member =>
        filing later (List.mem_cons_of_mem _ member)
      rcases filing call List.mem_cons_self with rfl | ⟨_, _, rfl⟩
      · exact rest
      · exact rest

/-- Nothing has been written, and nothing waits to be. -/
structure Blank
    (s : Sys ω) : Prop where
  nothing : NothingHeld s.k
  unwritten : outputs s.log = ([], 0)

theorem Blank.writefs
    (blank : Blank s) :
    writefs s.log = [] :=
  congrArg Prod.fst blank.unwritten

theorem Blank.closefs
    (blank : Blank s) :
    closefs s.log = 0 :=
  congrArg Prod.snd blank.unwritten

/-- Where a session is that has taken some packets of a file, newest first. -/
inductive Taking : List Item → Sys ω → Prop where
  | waiting
      {s : Sys ω}
      (state : s.k.state = .rWait)
      (blank : Blank s) :
      Taking [] s
  | greeted
      {s : Sys ω}
      {item : Item}
      {rest : List Item}
      (kind : item.typ = ch 'S')
      (state : s.k.state = .rFile)
      (par : s.k.par = agreedPar)
      (blank : Blank s)
      (empty : content rest = []) :
      Taking (item :: rest) s
  | named
      {s : Sys ω}
      {item : Item}
      {rest : List Item}
      (kind : item.typ = ch 'F' ∨ item.typ = ch 'A')
      (state : s.k.state = .rAttr)
      (par : s.k.par = agreedPar)
      (blank : Blank s)
      (empty : content rest = []) :
      Taking (item :: rest) s
  | storing
      {s : Sys ω}
      {item : Item}
      {rest : List Item}
      (kind : item.typ = ch 'D')
      (state : s.k.state = .rData)
      (par : s.k.par = agreedPar)
      (held : HeldField item.seq item.data s.k)
      (room : RoomInObuf s)
      (stored : storedFile s = content rest)
      (unclosed : closefs s.log = 0) :
      Taking (item :: rest) s
  | ended
      {s : Sys ω}
      {item : Item}
      {rest : List Item}
      (kind : item.typ = ch 'Z')
      (state : s.k.state = .rFile)
      (stored : outputs s.log = (content rest, 1)) :
      Taking (item :: rest) s
  | finished
      {s : Sys ω}
      {item : Item}
      {rest : List Item}
      (kind : item.typ = ch 'B')
      (stored : outputs s.log = (content rest, 1)) :
      Taking (item :: rest) s

/-- Nothing differs of what a receiver has taken. -/
structure SameTaken
    (s s' : Sys ω) : Prop where
  state : s'.k.state = s.k.state
  par : s'.k.par = s.k.par
  cfg : s'.k.cfg = s.k.cfg
  ipktinfo : s'.k.win.ipktinfo = s.k.win.ipktinfo
  rPw : s'.k.win.rPw = s.k.win.rPw
  obuf : s'.k.obuf = s.k.obuf
  obufpos : s'.k.obufpos = s.k.obufpos
  written : outputs s'.log = outputs s.log

theorem SameTaken.writefs
    {t : Sys ω}
    (same : SameTaken s t) :
    writefs t.log = writefs s.log :=
  congrArg Prod.fst same.written

/-- What is left blank when nothing is written or held. -/
theorem Blank.same
    {t : Sys ω}
    (blank : Blank s)
    (ipktinfo : t.k.win.ipktinfo = s.k.win.ipktinfo)
    (written : outputs t.log = outputs s.log) :
    Blank t := by
  refine ⟨⟨?_, ?_⟩, written.trans blank.unwritten⟩
  · rw [ipktinfo]
    exact blank.nothing.free
  · rw [ipktinfo]
    exact blank.nothing.unnumbered

theorem HeldField.same
    {t : Sys ω}
    (held : HeldField seq data s.k)
    (ipktinfo : t.k.win.ipktinfo = s.k.win.ipktinfo)
    (rPw : t.k.win.rPw = s.k.win.rPw) :
    HeldField seq data t.k := by
  refine ⟨?_, held.something, ?_, held.lower, held.upper, ?_, ?_⟩
  · rw [ipktinfo]
    exact held.slotted
  · rw [ipktinfo]
    exact held.number
  · rw [ipktinfo]
    exact held.flg
  · rw [rPw]
    exact held.mapped

theorem SameTaken.storedFile
    {t : Sys ω}
    (same : SameTaken s t) :
    storedFile t = storedFile s := by
  unfold Kermit.storedFile
  rw [same.writefs, same.obuf, same.obufpos]

theorem SameTaken.room
    {t : Sys ω}
    (same : SameTaken s t)
    (room : RoomInObuf s) :
    RoomInObuf t := by
  unfold RoomInObuf
  rw [same.obufpos, same.cfg]
  exact room

theorem Taking.same
    {items : List Item}
    {t : Sys ω}
    (taking : Taking items s)
    (same : SameTaken s t) :
    Taking items t := by
  have state := same.state
  have par := same.par
  cases taking with
  | waiting at' blank =>
      exact .waiting (state.trans at')
        (blank.same same.ipktinfo same.written)
  | greeted kind at' agreed blank empty =>
      exact .greeted kind (state.trans at') (par.trans agreed)
        (blank.same same.ipktinfo same.written) empty
  | named kind at' agreed blank empty =>
      exact .named kind (state.trans at') (par.trans agreed)
        (blank.same same.ipktinfo same.written) empty
  | storing kind at' agreed held room stored unclosed =>
      exact .storing kind (state.trans at') (par.trans agreed)
        (held.same same.ipktinfo same.rPw) (same.room room)
        (same.storedFile.trans stored)
        ((congrArg Prod.snd same.written).trans unclosed)
  | ended kind at' stored =>
      exact .ended kind (state.trans at') (same.written.trans stored)
  | finished kind stored =>
      exact .finished kind (same.written.trans stored)

/-- A packet is acknowledged, and the session has taken these packets. -/
structure Acknowledged
    (rootPath name : List UInt8)
    (items : List Item)
    (item : Item)
    (s : Sys ω)
    (result : Int × Sys ω) : Prop where
  fine : result.1 = if item.typ = ch 'B' then xDone else xOk
  replied :
    ∃ answer,
      Replies name answer item ∧
        Replied rootPath answer.frame s result.2
  taking : Taking items result.2

/-- A name that is sent back in an acknowledgment. -/
structure Echoed
    (name : List UInt8) : Prop where
  noZero : 0 ∉ name
  noStart : packetStart ∉ name
  noEnd : packetEnd ∉ name
  short : name.length ≤ 60

theorem Replied.aside
    {frame : List UInt8}
    {t t' : Sys ω}
    (replied : Replied rootPath frame s t)
    (win : t'.k.win = t.k.win)
    (cfg : t'.k.cfg = t.k.cfg)
    (par : t'.k.par = t.k.par)
    (recvdir : t'.k.recvdir = t.k.recvdir)
    (what : t'.k.what = .recv)
    (log : t'.log = t.log) :
    Replied rootPath frame s t' := by
  obtain ⟨⟨wf, plainly, down⟩, -, sent⟩ := replied
  refine ⟨⟨⟨?_, ?_, ?_, ?_, ?_, ?_, ?_⟩, ⟨?_, ?_⟩, recvdir.trans down⟩, what,
    log ▸ sent⟩
  · rw [cfg]
    exact wf.noForce
  · rw [cfg]
    exact wf.oneSlot
  · rw [par]
    exact wf.window
  · rw [par]
    exact wf.noWindowing
  · rw [win]
    exact wf.received
  · rw [win]
    exact wf.kept
  · rw [win]
    exact wf.mapped
  · rw [cfg]
    exact plainly.cfg
  · rw [par]
    exact plainly.par

/-- An acknowledgment, after calls that send nothing. -/
theorem Answered.replied
    {frame : List UInt8}
    {t t' : Sys ω}
    (receives : Receives rootPath t.k)
    (receiving : t.k.what = .recv)
    (answered : Answered io frame t t')
    {calls : List Call}
    (log : t.log = calls ++ s.log)
    (quiet : txds calls = []) :
    Replied rootPath frame s t' := by
  refine ⟨receives.answered answered,
    answered.settings.what.trans receiving, .txd frame xOk :: calls, ?_, ?_⟩
  · rw [answered.log, log]
    rfl
  · show frame :: txds calls = [frame]
    rw [quiet]

/-! ## S -/

theorem Receives.heard
    (receives : Receives rootPath s.k)
    (rx : Rx)
    (buf : List UInt8) :
    Receives rootPath (parsedSys rx buf s).k := by
  obtain ⟨wf, plainly, recvdir⟩ := receives
  exact ⟨⟨wf.noForce, wf.oneSlot, wf.window, wf.noWindowing, wf.received,
    wf.kept, wf.mapped⟩, ⟨plainly.cfg, plainly.par⟩, recvdir⟩

/-- The init string of the sender is taken. -/
theorem HeardAs.spar
    (heard : HeardAs (ch 'S') seq freshInit rx s p buf)
    (receives : Receives rootPath s.k) :
    (onK (spar p.pdf p.datalen) (parsedSys rx buf s)).k =
      { (parsedSys rx buf s).k with par := agreedPar } := by
  obtain ⟨tail, memory⟩ := heard.memory
  have field : ∀ place, place < 13 →
      peek buf (p.pdf + (place + 1) - 1) = peek freshInit place := by
    intro place inside
    have there : peek (buf.drop p.pdf) place =
        peek (freshInit ++ 0 :: tail) place := congrArg (peek · place) memory
    rw [peek_drop] at there
    rw [show p.pdf + (place + 1) - 1 = p.pdf + place from rfl, there]
    exact peek_append_left (freshInit_length ▸ inside) _
  have length : p.datalen = 13 := heard.read.datalen
  have agreed := receives.plainly.par.sparParams rootPath
    (fun place => peek buf (p.pdf + place - 1)) field
  have cfg : (parsedSys rx buf s).k.cfg = freshCfg rootPath :=
    receives.plainly.cfg
  have taken : sparParams (parsedSys rx buf s).k.cfg
      (fun place => peek (parsedSys rx buf s).k.ipktbuf (p.pdf + place - 1))
      13 (parsedSys rx buf s).k.par = agreedPar := by
    rw [cfg]
    exact agreed
  unfold onK Kermit.spar
  dsimp only
  rw [length, taken]

/-- The parameters of both sides are agreed. -/
theorem HeardAs.greeted
    (linked : Linked io)
    (heard : HeardAs (ch 'S') seq freshInit rx s p buf)
    (receives : Receives rootPath s.k) :
    ∃ t, rpar io (ch 'Y')
        (onK (Kermit.spar p.pdf p.datalen) (parsedSys rx buf s)) = (xOk, t) ∧
      Receives rootPath t.k ∧ t.k.par = agreedPar ∧
      t.log = .txd (frameOf (ch 'Y') 0 freshInit) xOk :: s.log ∧
      t.k.what = s.k.what ∧ t.k.win.ipktinfo = s.k.win.ipktinfo := by
  have taken := heard.spar receives
  have session : Receives rootPath
      (onK (Kermit.spar p.pdf p.datalen) (parsedSys rx buf s)).k := by
    obtain ⟨wf, plainly, recvdir⟩ := receives.heard rx buf
    rw [taken]
    exact ⟨⟨wf.noForce, wf.oneSlot, rfl,
      show agreedPar.capas &&& capSw = 0 by decide, wf.received, wf.kept,
      wf.mapped⟩, ⟨plainly.cfg, .inr rfl⟩, recvdir⟩
  obtain ⟨fine, answered⟩ := rpar_answersS linked session.plainly
  refine ⟨_, Prod.ext fine rfl, session.answered answered, ?_, answered.log,
    ?_, ?_⟩
  · rw [answered.settings.par, taken]
  · rw [answered.settings.what, taken]
    rfl
  · rw [answered.ipktinfo.1, taken]
    rfl

section Steps

variable {name : List UInt8}
variable {items : List Item}
variable {item : Item}

theorem lit_start :
    ch 'S' ∈ lit "SFADZB" := by
  decide +kernel

/-- The first S. -/
theorem takes_start
    (linked : Linked io)
    (receives : Receives rootPath s.k)
    (receiving : s.k.what = .recv ∨ s.k.what = .get)
    (state : s.k.state = .rWait)
    (blank : Blank s)
    (fits : Genuine name item)
    (kind : item.typ = ch 'S')
    (heard : HeardAs item.typ item.seq item.data rx s p buf)
    (msg : List UInt8) :
    Acknowledged rootPath name [item] item s
      (kermit io .run rx.ret msg (heardSys rx s)) := by
  obtain ⟨number, init⟩ := fits.start kind
  have noListing : s.k.what ≠ .dir := by
    rcases receiving with what | what
    all_goals
      rw [what]
      decide
  rw [kind, init] at heard
  rw [kermit_received receives.wf
    (receiving.imp_right fun asking => ⟨asking, state⟩)
    (by rw [state]; decide) heard lit_start msg]
  obtain ⟨t, sent, session, par, log, what, ipktinfo⟩ :=
    heard.greeted linked receives
  have stage : stateStage io msg p (parsedSys rx buf s) =
      (xOk, setType .send (setWhat .recv (setState .rFile t))) := by
    have at' : (parsedSys rx buf s).k.state = .rWait := state
    unfold stateStage inWait
    rw [at']
    dsimp only
    rw [if_pos heard.read.rtyp, sent]
    dsimp only
    rw [if_neg (by decide),
      if_neg fun listing => noListing (what.symm.trans listing)]
  rw [stage]
  obtain ⟨wf, plainly, recvdir⟩ := session
  refine ⟨?_, ⟨⟨ch 'Y', 0, freshInit⟩, ⟨rfl, number.symm, by
    rw [kind]
    exact List.mem_singleton_self _⟩, ⟨⟨wf.noForce, wf.oneSlot, wf.window,
    wf.noWindowing, wf.received, wf.kept, wf.mapped⟩,
    ⟨plainly.cfg, plainly.par⟩, recvdir⟩, rfl, ⟨[_], log, rfl⟩⟩,
    .greeted kind rfl par (blank.same ipktinfo ?_) rfl⟩
  · rw [kind]
    rfl
  · show outputs t.log = _
    rw [log]
    rfl

/-- S once more. -/
theorem takes_startAgain
    (linked : Linked io)
    (receives : Receives rootPath s.k)
    (receiving : s.k.what = .recv)
    (state : s.k.state = .rFile)
    (blank : Blank s)
    (empty : content items = [])
    (fits : Genuine name item)
    (kind : item.typ = ch 'S')
    (heard : HeardAs item.typ item.seq item.data rx s p buf)
    (msg : List UInt8) :
    Acknowledged rootPath name (item :: items) item s
      (kermit io .run rx.ret msg (heardSys rx s)) := by
  obtain ⟨number, init⟩ := fits.start kind
  rw [kind, init] at heard
  rw [kermit_received receives.wf (.inl receiving) (by rw [state]; decide) heard
    lit_start msg]
  obtain ⟨t, sent, session, par, log, -, ipktinfo⟩ :=
    heard.greeted linked receives
  have stage : stateStage io msg p (parsedSys rx buf s) =
      (xOk, setWhat .recv (setState .rFile t)) := by
    have at' : (parsedSys rx buf s).k.state = .rFile := state
    unfold stateStage inFile
    rw [at']
    dsimp only
    rw [heard.read.rtyp, if_neg (by decide), if_neg (by decide),
      if_neg (by decide), if_pos rfl, sent]
    dsimp only
    rw [if_neg (by decide)]
  rw [stage]
  obtain ⟨wf, plainly, recvdir⟩ := session
  refine ⟨?_, ⟨⟨ch 'Y', 0, freshInit⟩, ⟨rfl, number.symm, by
    rw [kind]
    exact List.mem_singleton_self _⟩, ⟨⟨wf.noForce, wf.oneSlot, wf.window,
    wf.noWindowing, wf.received, wf.kept, wf.mapped⟩,
    ⟨plainly.cfg, plainly.par⟩, recvdir⟩, rfl, ⟨[_], log, rfl⟩⟩,
    .greeted kind rfl par (blank.same ipktinfo ?_) empty⟩
  · rw [kind]
    rfl
  · show outputs t.log = _
    rw [log]
    rfl

/-! ## F and A -/

/-- The first F: the name comes back in the acknowledgment. -/
theorem takes_name
    (linked : Linked io)
    (receives : Receives rootPath s.k)
    (receiving : s.k.what = .recv)
    (state : s.k.state = .rFile)
    (par : s.k.par = agreedPar)
    (blank : Blank s)
    (empty : content items = [])
    (echoed : Echoed name)
    (fits : Genuine name item)
    (kind : item.typ = ch 'F')
    (heard : HeardAs item.typ item.seq item.data rx s p buf)
    (msg : List UInt8) :
    Acknowledged rootPath name (item :: items) item s
      (kermit io .run rx.ret msg (heardSys rx s)) := by
  have among : item.typ ∈ lit "SFADZB" := by
    rw [kind]
    decide +kernel
  rw [kermit_received receives.wf (.inl receiving) (by rw [state]; decide) heard
    among msg]
  obtain ⟨tail, memory⟩ := heard.memory
  have decoded : decodeMem (parsedSys rx buf s).k.par
      (pdfMem p (parsedSys rx buf s)) = name := by
    rw [memory]
    show decodeMem s.k.par _ = name
    rw [par]
    exact fits.named kind tail
  have session := receives.heard rx buf
  let u : Sys ω := clearFile (setState .rAttr
    { parsedSys rx buf s with r.filename := name ++ [0] })
  have before : Receives rootPath u.k := by
    obtain ⟨wf, plainly, recvdir⟩ := session
    exact ⟨⟨wf.noForce, wf.oneSlot, wf.window, wf.noWindowing, wf.received,
      wf.kept, wf.mapped⟩, ⟨plainly.cfg, plainly.par⟩, recvdir⟩
  have text : cstr ((some (name ++ [0])).getD []) = name :=
    cstr_append_zero echoed.noZero []
  have short : AckText (some (name ++ [0])) :=
    ⟨by rw [text]; exact echoed.short⟩
  have stage : stateStage io msg p (parsedSys rx buf s) =
      ack io item.seq (some (name ++ [0])) u := by
    have at' : (parsedSys rx buf s).k.state = .rFile := state
    unfold stateStage inFile
    rw [at']
    dsimp only
    rw [heard.read.rtyp, if_pos kind, heard.read.rseq]
    unfold decodeName
    dsimp only
    rw [decoded, if_pos rfl]
    rfl
  obtain ⟨fine, answered⟩ := ack_answers linked before.plainly
    fits.sendable.lower fits.sendable.upper short
  rw [text] at answered
  have whole : u.log = [] ++ s.log := rfl
  rw [stage]
  refine ⟨?_, ⟨⟨ch 'Y', item.seq, name⟩, ⟨rfl, rfl, ?_⟩,
    answered.replied before receiving whole rfl⟩,
    .named (.inl kind) ?_ ?_ (blank.same ?_ ?_) empty⟩
  · rw [fine, kind]
    rfl
  · rw [kind]
    exact List.mem_cons_self
  · exact answered.settings.state
  · exact answered.settings.par.trans par
  · exact answered.ipktinfo.1
  · rw [answered.log]
    rfl

/-- An acknowledgment before the first data. -/
theorem acked_named
    (linked : Linked io)
    {u : Sys ω}
    (receives : Receives rootPath u.k)
    (receiving : u.k.what = .recv)
    (state : u.k.state = .rAttr)
    (par : u.k.par = agreedPar)
    (blank : Blank u)
    (log : u.log = s.log)
    (empty : content items = [])
    (sendable : Sendable item.typ item.seq item.data)
    (kind : item.typ = ch 'F' ∨ item.typ = ch 'A')
    {text : Option (List UInt8)}
    (short : AckText text)
    (known : cstr (text.getD []) ∈ replies name item.typ) :
    Acknowledged rootPath name (item :: items) item s
      (xOk, (ack io item.seq text u).2) := by
  obtain ⟨-, answered⟩ :=
    ack_answers linked receives.plainly sendable.lower sendable.upper short
  have whole : u.log = [] ++ s.log := log
  refine ⟨?_, ⟨⟨ch 'Y', item.seq, cstr (text.getD [])⟩, ⟨rfl, rfl, known⟩,
    answered.replied receives receiving whole rfl⟩,
    .named kind ?_ ?_ (blank.same ?_ ?_) empty⟩
  · rcases kind with kind | kind
    all_goals
      rw [kind]
      rfl
  · exact answered.settings.state.trans state
  · exact answered.settings.par.trans par
  · exact answered.ipktinfo.1
  · rw [answered.log]
    rfl

/-- F once more. -/
theorem takes_nameAgain
    (linked : Linked io)
    (receives : Receives rootPath s.k)
    (receiving : s.k.what = .recv)
    (state : s.k.state = .rAttr)
    (par : s.k.par = agreedPar)
    (blank : Blank s)
    (empty : content items = [])
    (fits : Genuine name item)
    (kind : item.typ = ch 'F')
    (heard : HeardAs item.typ item.seq item.data rx s p buf)
    (msg : List UInt8) :
    Acknowledged rootPath name (item :: items) item s
      (kermit io .run rx.ret msg (heardSys rx s)) := by
  have among : item.typ ∈ lit "SFADZB" := by
    rw [kind]
    decide +kernel
  rw [kermit_received receives.wf (.inl receiving) (by rw [state]; decide) heard
    among msg]
  have stage : stateStage io msg p (parsedSys rx buf s) =
      (xOk, (ack io item.seq none (parsedSys rx buf s)).2) := by
    have at' : (parsedSys rx buf s).k.state = .rAttr := state
    unfold stateStage inAttr
    rw [at']
    dsimp only
    rw [heard.read.rtyp, kind, if_neg (by decide), if_neg (by decide),
      if_neg (by decide), if_pos rfl, heard.read.rseq]
  rw [stage]
  have log : (parsedSys rx buf s).log = s.log := rfl
  exact acked_named linked (receives.heard rx buf) receiving state par
    (blank.same rfl rfl) log empty fits.sendable (.inl kind)
    ackText_none (by rw [kind]; exact .tail _ (.head _))

/-- A, also once more. -/
theorem takes_attributes
    (linked : Linked io)
    (receives : Receives rootPath s.k)
    (receiving : s.k.what = .recv)
    (state : s.k.state = .rAttr)
    (par : s.k.par = agreedPar)
    (blank : Blank s)
    (empty : content items = [])
    (fits : Genuine name item)
    (kind : item.typ = ch 'A')
    (heard : HeardAs item.typ item.seq item.data rx s p buf)
    (msg : List UInt8) :
    Acknowledged rootPath name (item :: items) item s
      (kermit io .run rx.ret msg (heardSys rx s)) := by
  have among : item.typ ∈ lit "SFADZB" := by
    rw [kind]
    decide +kernel
  rw [kermit_received receives.wf (.inl receiving) (by rw [state]; decide) heard
    among msg]
  obtain ⟨tail, memory⟩ := heard.memory
  obtain ⟨wf, plainly, recvdir⟩ := receives.heard rx buf
  obtain ⟨u, taken, data, log⟩ : ∃ u,
      takeAttr p (parsedSys rx buf s) = u ∧
        u.k = { (parsedSys rx buf s).k with par := agreedPar } ∧
        u.log = s.log := by
    have read : (gattr (pdfMem p (parsedSys rx buf s))
        (parsedSys rx buf s).r).1 = 1 := by
      rw [memory]
      exact fits.binary kind tail _
    have same : { (parsedSys rx buf s).k.par with binary := 1 } =
        agreedPar := by
      rw [show (parsedSys rx buf s).k.par = agreedPar from par]
      rfl
    unfold takeAttr
    dsimp only
    rw [read, if_pos (by decide), same]
    exact ⟨_, rfl, rfl, rfl⟩
  have stage : stateStage io msg p (parsedSys rx buf s) =
      (xOk, (ack io item.seq (some (lit "Y")) u).2) := by
    have at' : (parsedSys rx buf s).k.state = .rAttr := state
    unfold stateStage inAttr
    rw [at']
    dsimp only
    rw [heard.read.rtyp, if_pos kind, heard.read.rseq, taken]
  have text : cstr ((some (lit "Y")).getD []) = lit "Y" := by
    decide +kernel
  have short : AckText (some (lit "Y")) :=
    ⟨by rw [text]; decide +kernel⟩
  have before : Receives rootPath u.k := by
    rw [data]
    exact ⟨⟨wf.noForce, wf.oneSlot, rfl,
      show agreedPar.capas &&& capSw = 0 by decide, wf.received, wf.kept,
      wf.mapped⟩, ⟨plainly.cfg, .inr rfl⟩, recvdir⟩
  rw [stage]
  refine acked_named linked before ?_ ?_ ?_ (blank.same ?_ ?_) log empty
    fits.sendable (.inr kind) short
    (by rw [text, kind]; exact List.mem_singleton_self _)
  · rw [data]
    exact receiving
  · rw [data]
    exact state
  · rw [data]
  · rw [data]
    rfl
  · rw [log]

/-! ## D -/

/-- Output files can be opened, written and closed. -/
structure TakesFiles
    (io : Io ω) : Prop where
  linked : Linked io
  writable : Writable io
  opens : ∀ w k place size, (io.openf w k place 2 size).1 = xOk
  closes : ∀ w k place c, (io.closef w k place c 2).1 = xOk

/-- The output file is open, and nothing has been written to it. -/
structure OpensOutput
    (s s' : Sys ω) : Prop where
  k :
    ∃ sFirst zin,
      s'.k =
        { s.k with
          obufpos := 0
          filename := some .rFilename
          enc := { s.k.enc with sFirst := sFirst }
          zin := zin }
  log : ∃ calls, s'.log = calls ++ s.log ∧ txds calls = []
  written : outputs s'.log = outputs s.log

theorem openOutput_opens
    (files : TakesFiles io)
    (s : Sys ω) :
    ∃ s', openOutput io s = (xOk, s') ∧ OpensOutput s s' := by
  unfold openOutput callOpenf
  dsimp only
  rw [files.opens]
  exact ⟨_, rfl, ⟨_, _, rfl⟩, ⟨[.openf _ _ _], rfl, rfl⟩, rfl⟩

/-- A packet that was acknowledged and is held. -/
theorem Took.replied
    {u t : Sys ω}
    {bytes : List UInt8}
    (took : Took seq data bytes u t)
    (receives : Receives rootPath t.k)
    (receiving : u.k.what = .recv)
    {calls : List Call}
    (log : u.log = calls ++ s.log)
    (quiet : txds calls = []) :
    Replied rootPath (frameOf (ch 'Y') seq []) s t := by
  obtain ⟨more, log', filing⟩ := took.log
  refine ⟨receives, took.settings.what.trans receiving,
    .txd (frameOf (ch 'Y') seq []) xOk :: (more ++ calls), ?_, ?_⟩
  · rw [log', log, List.cons_append, List.append_assoc]
  · show frameOf (ch 'Y') seq [] :: txds (more ++ calls) = _
    rw [txds_append, filing.txds, quiet]
    rfl

theorem among_data
    (kind : item.typ = ch 'D') :
    item.typ ∈ lit "SFADZB" := by
  rw [kind]
  decide +kernel

/-- A D packet, acknowledged and held behind what is in the file. -/
theorem Took.acknowledged
    {u t : Sys ω}
    {bytes : List UInt8}
    (took : Took item.seq item.data bytes u t)
    (receives : Receives rootPath t.k)
    (receiving : u.k.what = .recv)
    (state : u.k.state = .rData)
    (par : u.k.par = agreedPar)
    {calls : List Call}
    (log : u.log = calls ++ s.log)
    (quiet : txds calls = [])
    (kind : item.typ = ch 'D')
    (stored : storedFile u ++ bytes = content items)
    (unclosed : closefs u.log = 0) :
    Acknowledged rootPath name (item :: items) item s (xOk, t) := by
  refine ⟨?_, ⟨⟨ch 'Y', item.seq, []⟩, ⟨rfl, rfl, ?_⟩,
    took.replied receives receiving log quiet⟩, .storing kind
      (took.settings.state.trans state) (took.settings.par.trans par)
      took.held took.room (took.stored.trans stored) ?_⟩
  · rw [kind]
    rfl
  · rw [replies_end name (.inl kind)]
    exact List.mem_singleton_self _
  · obtain ⟨more, log', filing⟩ := took.log
    rw [log']
    exact (filing.closefs u.log).trans unclosed

/-- The first data packet: the output file is opened. -/
theorem takes_firstData
    (files : TakesFiles io)
    (receives : Receives rootPath s.k)
    (receiving : s.k.what = .recv)
    (state : s.k.state = .rAttr)
    (par : s.k.par = agreedPar)
    (blank : Blank s)
    (empty : content items = [])
    (fits : Genuine name item)
    (kind : item.typ = ch 'D')
    (heard : HeardAs item.typ item.seq item.data rx s p buf)
    (msg : List UInt8) :
    Acknowledged rootPath name (item :: items) item s
      (kermit io .run rx.ret msg (heardSys rx s)) := by
  rw [kermit_received receives.wf (.inl receiving) (by rw [state]; decide) heard
    (among_data kind) msg]
  obtain ⟨wf, plainly, recvdir⟩ := receives.heard rx buf
  obtain ⟨u, output, ⟨sFirst, zin, data⟩, ⟨calls, log, quiet⟩, unwritten⟩ :=
    openOutput_opens files (parsedSys rx buf s)
  have before : Receives rootPath (setState .rData u).k := by
    show Receives rootPath { u.k with state := .rData }
    rw [data]
    exact ⟨⟨wf.noForce, wf.oneSlot, wf.window, wf.noWindowing, wf.received,
      wf.kept, wf.mapped⟩, ⟨plainly.cfg, plainly.par⟩, recvdir⟩
  have nothing : NothingHeld (setState .rData u).k := by
    show NothingHeld { u.k with state := .rData }
    rw [data]
    exact ⟨blank.nothing.free, blank.nothing.unnumbered⟩
  have room : RoomInObuf (setState .rData u) := by
    show u.k.obufpos < u.k.cfg.obuflen
    rw [data]
    show 0 < (parsedSys rx buf s).k.cfg.obuflen
    rw [plainly.cfg]
    show 0 < (freshCfg []).obuflen
    decide
  have text : cstr (pdfMem p u) = item.data := by
    unfold pdfMem
    rw [data]
    exact heard.text
  obtain ⟨t, stored, after, took⟩ := handleGoodRpkt_first files.linked before
    nothing room fits.sendable.lower fits.sendable.upper text (fits.some kind)
    (Nat.lt_of_le_of_lt fits.sendable.fits (by decide))
  have stage : stateStage io msg p (parsedSys rx buf s) = (xOk, t) := by
    have at' : (parsedSys rx buf s).k.state = .rAttr := state
    unfold stateStage inAttr firstRpkt
    rw [at']
    dsimp only
    rw [heard.read.rtyp, kind, if_neg (by decide), if_pos rfl, output,
      if_pos rfl, heard.read.rseq, stored, if_pos rfl]
  rw [stage]
  refine took.acknowledged after ?_ rfl ?_ log quiet kind ?_
    ((congrArg Prod.snd unwritten).trans blank.closefs)
  · show u.k.what = .recv
    rw [data]
    exact receiving
  · show u.k.par = agreedPar
    rw [data]
    exact par
  · show (writefs u.log ++ u.k.obuf.takeD u.k.obufpos 0) ++ [] = _
    rw [show writefs u.log = _ from congrArg Prod.fst unwritten, data, empty]
    exact congrArg (· ++ _ ++ []) blank.writefs

/-- The next data packet: the one before it goes to the file. -/
theorem takes_nextData
    (files : TakesFiles io)
    (receives : Receives rootPath s.k)
    (receiving : s.k.what = .recv)
    (state : s.k.state = .rData)
    (par : s.k.par = agreedPar)
    {last : Item}
    {rest : List Item}
    (shape : items = last :: rest)
    (was : last.typ = ch 'D')
    (held : HeldField last.seq last.data s.k)
    (room : RoomInObuf s)
    (sofar : storedFile s = content rest)
    (unclosed : closefs s.log = 0)
    (fits : Genuine name item)
    (kind : item.typ = ch 'D')
    (next : item.seq = (last.seq + 1) % 64)
    (heard : HeardAs item.typ item.seq item.data rx s p buf)
    (msg : List UInt8) :
    Acknowledged rootPath name (item :: items) item s
      (kermit io .run rx.ret msg (heardSys rx s)) := by
  rw [kermit_received receives.wf (.inl receiving) (by rw [state]; decide) heard
    (among_data kind) msg]
  have before := receives.heard rx buf
  have heldNow : HeldField last.seq last.data (parsedSys rx buf s).k :=
    ⟨held.slotted, held.something, held.number, held.lower, held.upper,
      held.flg, held.mapped⟩
  obtain ⟨t, stored, after, took⟩ := handleGoodRpkt_next files.linked
    files.writable before heldNow room heard.text (fits.some kind)
    (Nat.lt_of_le_of_lt fits.sendable.fits (by decide))
  rw [← next] at stored took
  have noListing : takeListing p t = t := by
    have down : t.k.recvdir = 0 := after.recvdir
    unfold takeListing
    rw [down, if_neg (by decide)]
  have stage : stateStage io msg p (parsedSys rx buf s) = (xOk, t) := by
    have at' : (parsedSys rx buf s).k.state = .rData := state
    unfold stateStage inData dataRpkt
    rw [at']
    dsimp only
    rw [heard.read.rtyp, kind, if_neg (by decide), if_pos rfl,
      heard.read.rseq, stored]
    dsimp only
    rw [noListing, if_pos rfl]
  rw [stage]
  have log : (parsedSys rx buf s).log = [] ++ s.log := rfl
  refine took.acknowledged after receiving state par log rfl kind ?_ unclosed
  rw [shape, content, if_pos was, ← sofar,
    show (parsedSys rx buf s).k.par = agreedPar from par]
  rfl

/-- The data packet that is held comes once more. -/
theorem takes_dataAgain
    (files : TakesFiles io)
    (receives : Receives rootPath s.k)
    (receiving : s.k.what = .recv)
    (state : s.k.state = .rData)
    (par : s.k.par = agreedPar)
    (held : HeldField item.seq item.data s.k)
    (room : RoomInObuf s)
    (sofar : storedFile s = content items)
    (unclosed : closefs s.log = 0)
    (kind : item.typ = ch 'D')
    (heard : HeardAs item.typ item.seq item.data rx s p buf)
    (msg : List UInt8) :
    Acknowledged rootPath name (item :: items) item s
      (kermit io .run rx.ret msg (heardSys rx s)) := by
  rw [kermit_received receives.wf (.inl receiving) (by rw [state]; decide) heard
    (among_data kind) msg]
  have before := receives.heard rx buf
  have heldNow : HeldField item.seq item.data (parsedSys rx buf s).k :=
    ⟨held.slotted, held.something, held.number, held.lower, held.upper,
      held.flg, held.mapped⟩
  obtain ⟨t, stored, answered⟩ := handleGoodRpkt_again files.linked before
    heldNow (pdfMem p (parsedSys rx buf s))
  have after := before.answered answered
  have noListing : takeListing p t = t := by
    have down : t.k.recvdir = 0 := after.recvdir
    unfold takeListing
    rw [down, if_neg (by decide)]
  have stage : stateStage io msg p (parsedSys rx buf s) = (xOk, t) := by
    have at' : (parsedSys rx buf s).k.state = .rData := state
    unfold stateStage inData dataRpkt
    rw [at']
    dsimp only
    rw [heard.read.rtyp, kind, if_neg (by decide), if_pos rfl,
      heard.read.rseq, stored]
    dsimp only
    rw [noListing, if_pos rfl]
  rw [stage]
  have log : (parsedSys rx buf s).log = [] ++ s.log := rfl
  refine ⟨?_, ⟨⟨ch 'Y', item.seq, []⟩, ⟨rfl, rfl, ?_⟩,
    answered.replied before receiving log rfl⟩,
    .storing kind (answered.settings.state.trans state)
      (answered.settings.par.trans par) ?_ (answered.room room)
      (answered.storedFile.trans sofar) ?_⟩
  · rw [kind]
    rfl
  · rw [replies_end name (.inl kind)]
    exact List.mem_singleton_self _
  · obtain ⟨ipktinfo, rPw⟩ := answered.ipktinfo
    exact held.same ipktinfo rPw
  · rw [answered.log]
    exact unclosed

/-! ## Z and B -/

theorem among_end
    (kind : item.typ = ch 'Z' ∨ item.typ = ch 'B') :
    item.typ ∈ lit "SFADZB" := by
  rcases kind with kind | kind
  all_goals
    rw [kind]
    decide +kernel

/-- The acknowledgment of Z, when the output file is closed. -/
theorem acked_ended
    (linked : Linked io)
    {u : Sys ω}
    (receives : Receives rootPath u.k)
    (receiving : u.k.what = .recv)
    (state : u.k.state = .rFile)
    {calls : List Call}
    (log : u.log = calls ++ s.log)
    (quiet : txds calls = [])
    (stored : outputs u.log = (content items, 1))
    (sendable : Sendable item.typ item.seq item.data)
    (kind : item.typ = ch 'Z') :
    (ack io item.seq none u).1 = xOk ∧
      Acknowledged rootPath name (item :: items) item s
        (xOk, (ack io item.seq none u).2) := by
  obtain ⟨fine, answered⟩ := ack_answers linked receives.plainly
    sendable.lower sendable.upper ackText_none
  refine ⟨fine, ?_, ⟨⟨ch 'Y', item.seq, []⟩, ⟨rfl, rfl, ?_⟩,
    answered.replied receives receiving log quiet⟩,
    .ended kind (answered.settings.state.trans state) ?_⟩
  · rw [kind]
    rfl
  · rw [replies_end name (.inr (.inl kind))]
    exact List.mem_singleton_self _
  · rw [answered.log]
    exact stored

theorem HeardAs.ackText
    (heard : HeardAs typ seq data rx s p buf)
    (receives : Receives rootPath s.k) :
    p.ackText = none := by
  have cancel : (heardSys rx s).k.cfg.cancel = 0 := by
    show s.k.cfg.cancel = 0
    rw [receives.plainly.cfg]
    rfl
  rw [(parse_good heard.good).ackText]
  unfold cancelText
  rw [cancel]
  split <;> rfl

/-- Z behind data: all that was received is written, and the file closed. -/
theorem takes_end
    (files : TakesFiles io)
    (receives : Receives rootPath s.k)
    (receiving : s.k.what = .recv)
    (state : s.k.state = .rData)
    (par : s.k.par = agreedPar)
    {last : Item}
    {rest : List Item}
    (shape : items = last :: rest)
    (was : last.typ = ch 'D')
    (held : HeldField last.seq last.data s.k)
    (room : RoomInObuf s)
    (sofar : storedFile s = content rest)
    (unclosed : closefs s.log = 0)
    (fits : Genuine name item)
    (kind : item.typ = ch 'Z')
    (heard : HeardAs item.typ item.seq item.data rx s p buf)
    (msg : List UInt8) :
    Acknowledged rootPath name (item :: items) item s
      (kermit io .run rx.ret msg (heardSys rx s)) := by
  rw [kermit_received receives.wf (.inl receiving) (by rw [state]; decide) heard
    (among_end (.inl kind)) msg]
  have before := receives.heard rx buf
  have heldNow : HeldField last.seq last.data (parsedSys rx buf s).k :=
    ⟨held.slotted, held.something, held.number, held.lower, held.upper,
      held.flg, held.mapped⟩
  obtain ⟨after, flushed⟩ := heldNow.flushToFile files.writable before room
  obtain ⟨t, ended⟩ : ∃ t, t = (flushToFile io (parsedSys rx buf s)).2 :=
    ⟨_, rfl⟩
  rw [← ended] at after flushed
  obtain ⟨calls, log, filing⟩ := flushed.files
  obtain ⟨u, call, closed, data, logged, quiet, written⟩ : ∃ u call,
      endOfFile io p (parsedSys rx buf s) = (xOk, u) ∧
        u.k = { t.k with state := .rFile } ∧
        u.log = call :: t.log ∧ txds [call] = [] ∧
        outputs u.log = (writefs t.log, closefs t.log + 1) := by
    unfold endOfFile callClosef
    dsimp only
    rw [if_pos (show (parsedSys rx buf s).k.recvdir = 0 from before.recvdir),
      ← ended, files.closes, if_pos rfl]
    exact ⟨_, _, rfl, rfl, rfl, rfl, rfl⟩
  have stage : stateStage io msg p (parsedSys rx buf s) =
      ack io item.seq none u := by
    have at' : (parsedSys rx buf s).k.state = .rData := state
    unfold stateStage inData
    rw [at']
    dsimp only
    rw [heard.read.rtyp, kind, if_neg (by decide), if_neg (by decide),
      if_pos rfl, closed, if_pos rfl, heard.read.rseq, heard.ackText receives]
  have whole : u.log = (call :: calls) ++ s.log := by
    rw [logged, log]
    rfl
  have none : txds (call :: calls) = [] := by
    rw [show call :: calls = [call] ++ calls from rfl, txds_append, quiet,
      filing.txds]
    rfl
  obtain ⟨wf, plainly, recvdir⟩ := after
  obtain ⟨fine, acknowledged⟩ := @acked_ended _ io rootPath s name items item
    files.linked u
    (by
      rw [data]
      exact ⟨⟨wf.noForce, wf.oneSlot, wf.window, wf.noWindowing, wf.received,
        wf.kept, wf.mapped⟩, ⟨plainly.cfg, plainly.par⟩, recvdir⟩)
    (by
      rw [data]
      exact flushed.settings.what.trans receiving)
    (by rw [data]) _ whole none
    (by
      have still : closefs t.log = 0 := by
        rw [log]
        exact (filing.closefs _).trans unclosed
      rw [written, still, flushed.written, shape, content, if_pos was, ← sofar,
        show (parsedSys rx buf s).k.par = agreedPar from par]
      rfl)
    fits.sendable kind
  rw [stage, show ack io item.seq Option.none u =
    (xOk, (ack io item.seq Option.none u).2) from Prod.ext fine rfl]
  exact acknowledged

/-- Z of an empty file. -/
theorem takes_emptyFile
    (files : TakesFiles io)
    (receives : Receives rootPath s.k)
    (receiving : s.k.what = .recv)
    (state : s.k.state = .rAttr)
    (blank : Blank s)
    (empty : content items = [])
    (fits : Genuine name item)
    (kind : item.typ = ch 'Z')
    (heard : HeardAs item.typ item.seq item.data rx s p buf)
    (msg : List UInt8) :
    Acknowledged rootPath name (item :: items) item s
      (kermit io .run rx.ret msg (heardSys rx s)) := by
  rw [kermit_received receives.wf (.inl receiving) (by rw [state]; decide) heard
    (among_end (.inl kind)) msg]
  obtain ⟨wf, plainly, recvdir⟩ := receives.heard rx buf
  obtain ⟨t, output, ⟨sFirst, zin, data⟩, ⟨calls, log, quiet⟩, unwritten⟩ :=
    openOutput_opens files (parsedSys rx buf s)
  obtain ⟨u, call, closed, data', logged, quiet', written⟩ : ∃ u call,
      callClosef io (peek (pdfMem p t) 0) 2 t = (xOk, u) ∧ u.k = t.k ∧
        u.log = call :: t.log ∧ txds [call] = [] ∧
          outputs u.log = (writefs t.log, closefs t.log + 1) := by
    unfold callClosef
    dsimp only
    rw [files.closes]
    exact ⟨_, _, rfl, rfl, rfl, rfl, rfl⟩
  have stage : stateStage io msg p (parsedSys rx buf s) =
      (xOk, showState (ack io item.seq none (goFile u)).2) := by
    have at' : (parsedSys rx buf s).k.state = .rAttr := state
    unfold stateStage inAttr emptyFile
    rw [at']
    dsimp only
    rw [heard.read.rtyp, kind, if_neg (by decide), if_neg (by decide),
      if_pos rfl, output]
    dsimp only
    rw [if_pos rfl, closed, heard.read.rseq, heard.ackText receives]
    rfl
  have now : (goFile u).k =
      { (parsedSys rx buf s).k with
        obufpos := 0
        filename := some .rFilename
        enc := { (parsedSys rx buf s).k.enc with sFirst := sFirst }
        zin := zin
        state := .rFile } := by
    show { u.k with state := .rFile } = _
    rw [data', data]
  have whole : (goFile u).log = (call :: calls) ++ s.log := by
    show u.log = _
    rw [logged, log]
    rfl
  have none : txds (call :: calls) = [] := by
    rw [show call :: calls = [call] ++ calls from rfl, txds_append, quiet',
      quiet]
    rfl
  obtain ⟨-, fine, ⟨answer, replies, replied⟩, taking⟩ :=
    @acked_ended _ io rootPath s name items item files.linked (goFile u)
      (by
        rw [now]
        exact ⟨⟨wf.noForce, wf.oneSlot, wf.window, wf.noWindowing,
          wf.received, wf.kept, wf.mapped⟩, ⟨plainly.cfg, plainly.par⟩,
          recvdir⟩)
      (by
        rw [now]
        exact receiving)
      rfl _ whole none
      (by
        rw [empty]
        have before := unwritten.trans blank.unwritten
        exact written.trans (congrArg (fun o => (o.1, o.2 + 1)) before))
      fits.sendable kind
  rw [stage]
  exact ⟨fine, ⟨answer, replies, replied.aside rfl rfl rfl rfl replied.what
    rfl⟩, taking.same ⟨rfl, rfl, rfl, rfl, rfl, rfl, rfl, rfl⟩⟩

/-- Z once more. -/
theorem takes_endAgain
    (linked : Linked io)
    (receives : Receives rootPath s.k)
    (receiving : s.k.what = .recv)
    (state : s.k.state = .rFile)
    (stored : outputs s.log = (content items, 1))
    (fits : Genuine name item)
    (kind : item.typ = ch 'Z')
    (heard : HeardAs item.typ item.seq item.data rx s p buf)
    (msg : List UInt8) :
    Acknowledged rootPath name (item :: items) item s
      (kermit io .run rx.ret msg (heardSys rx s)) := by
  rw [kermit_received receives.wf (.inl receiving) (by rw [state]; decide) heard
    (among_end (.inl kind)) msg]
  have stage : stateStage io msg p (parsedSys rx buf s) =
      ack io item.seq none (parsedSys rx buf s) := by
    have at' : (parsedSys rx buf s).k.state = .rFile := state
    unfold stateStage inFile
    rw [at']
    dsimp only
    rw [heard.read.rtyp, kind, if_neg (by decide), if_neg (by decide),
      if_pos rfl, heard.read.rseq]
  have log : (parsedSys rx buf s).log = [] ++ s.log := rfl
  obtain ⟨fine, acknowledged⟩ := @acked_ended _ io rootPath s name items item
    linked (parsedSys rx buf s) (receives.heard rx buf) receiving state _ log
    rfl stored fits.sendable kind
  rw [stage, show ack io item.seq none (parsedSys rx buf s) =
    (xOk, (ack io item.seq none (parsedSys rx buf s)).2) from
      Prod.ext fine rfl]
  exact acknowledged

/-- B ends the session. -/
theorem takes_break
    (linked : Linked io)
    (receives : Receives rootPath s.k)
    (receiving : s.k.what = .recv)
    (state : s.k.state = .rFile)
    (stored : outputs s.log = (content items, 1))
    (fits : Genuine name item)
    (kind : item.typ = ch 'B')
    (heard : HeardAs item.typ item.seq item.data rx s p buf)
    (msg : List UInt8) :
    Acknowledged rootPath name (item :: items) item s
      (kermit io .run rx.ret msg (heardSys rx s)) := by
  rw [kermit_received receives.wf (.inl receiving) (by rw [state]; decide) heard
    (among_end (.inr kind)) msg]
  have before := receives.heard rx buf
  obtain ⟨fine, answered⟩ := ack_answers linked before.plainly
    fits.sendable.lower fits.sendable.upper ackText_none
  have stage : stateStage io msg p (parsedSys rx buf s) =
      (xDone,
        reportFile .send (ack io item.seq none (parsedSys rx buf s)).2) := by
    have at' : (parsedSys rx buf s).k.state = .rFile := state
    unfold stateStage inFile
    rw [at']
    dsimp only
    rw [heard.read.rtyp, kind, if_neg (by decide), if_pos rfl,
      heard.read.rseq, fine, if_pos rfl]
  have log : (parsedSys rx buf s).log = [] ++ s.log := rfl
  have replied := answered.replied before receiving log rfl
  generalize (ack io item.seq none (parsedSys rx buf s)).2 = t at *
  have same : (reportFile .send t).k = t.k ∧
      (reportFile .send t).log = t.log := by
    unfold reportFile
    split
    · exact ⟨rfl, rfl⟩
    · exact ⟨rfl, rfl⟩
  rw [stage]
  refine ⟨?_, ⟨⟨ch 'Y', item.seq, []⟩, ⟨rfl, rfl, ?_⟩,
    replied.aside ?_ ?_ ?_ ?_ ?_ same.2⟩,
    .finished kind ?_⟩
  · rw [kind]
    rfl
  · rw [replies_end name (.inr (.inr kind))]
    exact List.mem_singleton_self _
  · rw [same.1]
  · rw [same.1]
  · rw [same.1]
  · rw [same.1]
  · rw [same.1]
    exact replied.what
  · rw [same.2, answered.log]
    exact stored

/-! ## Every packet -/

/-- The packets that may come after some packets, newest first. -/
inductive Comes : List Item → Item → Prop where
  | start
      {item : Item}
      (kind : item.typ = ch 'S') :
      Comes [] item
  | name
      {last item : Item}
      {rest : List Item}
      (was : last.typ = ch 'S')
      (kind : item.typ = ch 'F') :
      Comes (last :: rest) item
  | attributes
      {last item : Item}
      {rest : List Item}
      (was : last.typ = ch 'F')
      (kind : item.typ = ch 'A') :
      Comes (last :: rest) item
  | firstData
      {last item : Item}
      {rest : List Item}
      (was : last.typ = ch 'F' ∨ last.typ = ch 'A')
      (kind : item.typ = ch 'D') :
      Comes (last :: rest) item
  | nextData
      {last item : Item}
      {rest : List Item}
      (was : last.typ = ch 'D')
      (kind : item.typ = ch 'D')
      (next : item.seq = (last.seq + 1) % 64) :
      Comes (last :: rest) item
  | emptyFile
      {last item : Item}
      {rest : List Item}
      (was : last.typ = ch 'F' ∨ last.typ = ch 'A')
      (kind : item.typ = ch 'Z') :
      Comes (last :: rest) item
  | ending
      {last item : Item}
      {rest : List Item}
      (was : last.typ = ch 'D')
      (kind : item.typ = ch 'Z') :
      Comes (last :: rest) item
  | finished
      {last item : Item}
      {rest : List Item}
      (was : last.typ = ch 'Z')
      (kind : item.typ = ch 'B') :
      Comes (last :: rest) item

/-- Of a packet that is no data, nothing goes to the file. -/
theorem content_of_ne
    {last : Item}
    {rest : List Item}
    (other : last.typ ≠ ch 'D') :
    content (last :: rest) = content rest := by
  rw [content, if_neg other, List.append_nil]

/-- What later packets stand for comes behind. -/
theorem content_front
    {earlier later : List Item}
    (behind : earlier <:+ later) :
    content earlier <+: content later := by
  obtain ⟨new, rfl⟩ := behind
  induction new with
  | nil =>
      exact List.prefix_rfl
  | cons item new inductionHypothesis =>
      exact inductionHypothesis.trans (List.prefix_append _ _)

/-- Whatever packet comes next, it is acknowledged and taken. -/
theorem Taking.takes
    (taking : Taking items s)
    (files : TakesFiles io)
    (receives : Receives rootPath s.k)
    (receiving : s.k.what = .recv)
    (echoed : Echoed name)
    (comes : Comes items item)
    (fits : Genuine name item)
    (heard : HeardAs item.typ item.seq item.data rx s p buf)
    (msg : List UInt8) :
    Acknowledged rootPath name (item :: items) item s
      (kermit io .run rx.ret msg (heardSys rx s)) := by
  have linked := files.linked
  cases comes with
  | start kind =>
      cases taking with
      | waiting state blank =>
          exact takes_start linked receives (.inl receiving) state blank fits
            kind heard msg
  | name was kind =>
      cases taking with
      | greeted _ state par blank empty =>
          refine takes_name linked receives receiving state par blank ?_
            echoed fits kind heard msg
          rw [content_of_ne (by rw [was]; decide)]
          exact empty
      | named kind' | storing kind' | ended kind' | finished kind' =>
          rw [was] at kind'
          exact absurd kind' (by decide)
  | attributes was kind =>
      cases taking with
      | named _ state par blank empty =>
          refine takes_attributes linked receives receiving state par blank ?_
            fits kind heard msg
          rw [content_of_ne (by rw [was]; decide)]
          exact empty
      | greeted kind' | storing kind' | ended kind' | finished kind' =>
          rw [was] at kind'
          exact absurd kind' (by decide)
  | firstData was kind =>
      cases taking with
      | named _ state par blank empty =>
          refine takes_firstData files receives receiving state par blank ?_
            fits kind heard msg
          rw [content_of_ne (by rcases was with was | was <;> rw [was] <;>
            decide)]
          exact empty
      | greeted kind' | storing kind' | ended kind' | finished kind' =>
          rw [kind'] at was
          exact absurd was (by decide)
  | nextData was kind next =>
      cases taking with
      | storing _ state par held room stored unclosed =>
          exact takes_nextData files receives receiving state par rfl was held
            room stored unclosed fits kind next heard msg
      | greeted kind' | named kind' | ended kind' | finished kind' =>
          rw [was] at kind'
          exact absurd kind' (by decide)
  | emptyFile was kind =>
      cases taking with
      | named _ state par blank empty =>
          refine takes_emptyFile files receives receiving state blank ?_
            fits kind heard msg
          rw [content_of_ne (by rcases was with was | was <;> rw [was] <;>
            decide)]
          exact empty
      | greeted kind' | storing kind' | ended kind' | finished kind' =>
          rw [kind'] at was
          exact absurd was (by decide)
  | ending was kind =>
      cases taking with
      | storing _ state par held room stored unclosed =>
          exact takes_end files receives receiving state par rfl was held
            room stored unclosed fits kind heard msg
      | greeted kind' | named kind' | ended kind' | finished kind' =>
          rw [was] at kind'
          exact absurd kind' (by decide)
  | finished was kind =>
      cases taking with
      | ended _ state stored =>
          refine takes_break linked receives receiving state ?_ fits kind
            heard msg
          rw [content_of_ne (by rw [was]; decide)]
          exact stored
      | greeted kind' | named kind' | storing kind' | finished kind' =>
          rw [was] at kind'
          exact absurd kind' (by decide)

/-- The packet that was taken last is acknowledged when it comes again. -/
theorem Taking.again
    (taking : Taking (item :: items) s)
    (going : item.typ ≠ ch 'B')
    (files : TakesFiles io)
    (receives : Receives rootPath s.k)
    (receiving : s.k.what = .recv)
    (fits : Genuine name item)
    (heard : HeardAs item.typ item.seq item.data rx s p buf)
    (msg : List UInt8) :
    Acknowledged rootPath name (item :: items) item s
      (kermit io .run rx.ret msg (heardSys rx s)) := by
  have linked := files.linked
  cases taking with
  | greeted kind state par blank empty =>
      exact takes_startAgain linked receives receiving state blank empty fits
        kind heard msg
  | named kind state par blank empty =>
      rcases kind with kind | kind
      · exact takes_nameAgain linked receives receiving state par blank empty
          fits kind heard msg
      · exact takes_attributes linked receives receiving state par blank empty
          fits kind heard msg
  | storing kind state par held room stored unclosed =>
      exact takes_dataAgain files receives receiving state par held room
        stored unclosed kind heard msg
  | ended kind state stored =>
      exact takes_endAgain linked receives receiving state stored fits kind
        heard msg
  | finished kind =>
      exact absurd kind going

/-! ## Timeouts and frames that fail a check -/

/-- Nothing arrives in time, or nothing that passes the checks. -/
structure Noise
    (rx : Rx)
    (s : Sys ω) : Prop where
  received : 0 ≤ rx.ret
  noShortcut : 4 ≤ rx.ret → parse (heardSys rx s).k rx.ret ≠ .shortcut
  notGood :
    ∀ p buf, 4 ≤ rx.ret → parse (heardSys rx s).k rx.ret ≠ .good p buf

/-- Nothing is taken; in `R_FILE` the init string may be sent once more. -/
structure WaitsOn
    (rootPath : List UInt8)
    (s : Sys ω)
    (result : Int × Sys ω) : Prop where
  fine : result.1 = xOk
  receives : Receives rootPath result.2.k
  what : result.2.k.what = .recv
  same : SameTaken s result.2
  sent :
    result.2.log = s.log ∨
      s.k.state = .rFile ∧
        result.2.log = .txd (frameOf (ch 'Y') 0 freshInit) xOk :: s.log

theorem Answered.sameTaken
    {frame : List UInt8}
    {t : Sys ω}
    (answered : Answered io frame s t) :
    SameTaken s t := by
  have log := answered.log
  have settings := answered.settings
  have win := answered.ipktinfo
  have out := answered.obuf
  exact ⟨settings.state, settings.par, settings.cfg, win.1, win.2, out.1,
    out.2, by rw [log]; rfl⟩

/-- Without a packet a receiver does nothing, or repeats the init string. -/
theorem kermit_unheard
    (wf : Wf s.k)
    (receiving : s.k.what = .recv)
    (set : s.k.state ≠ .rNone)
    (noise : Noise rx s)
    (msg : List UInt8) :
    (∃ buf,
      kermit io .run rx.ret msg (heardSys rx s) = (xOk, parsedSys rx buf s)) ∨
    s.k.state = .rFile ∧
      kermit io .run rx.ret msg (heardSys rx s) =
        (xOk, (rpar io (ch 'Y') (heardSys rx s)).2) := by
  have wfHeard : Wf (heardSys rx s).k :=
    ⟨wf.noForce, wf.oneSlot, wf.window, wf.noWindowing, wf.received, wf.kept,
      wf.mapped⟩
  have received : (heardSys rx s).k.doRxd = true := by
    show (ok2rxd s.k).doRxd = true
    simp [ok2rxd, receiving]
  have what : (heardSys rx s).k.what = .recv := receiving
  have forced : forceBcta3 (heardSys rx s).k = (heardSys rx s).k := by
    unfold forceBcta3
    rw [if_neg (not_not.mpr wfHeard.noForce)]
  have waits : (heardSys rx s).k.state ≠ .rNone := set
  have quiet : ∀ buf, resendUnlessRecv io
      { heardSys rx s with k := { (heardSys rx s).k with ipktbuf := buf } } =
        (xOk, parsedSys rx buf s) := by
    intro buf
    unfold resendUnlessRecv
    exact if_pos what
  unfold kermit
  rw [wfHeard.testRslots io]
  dsimp only
  unfold kermitRun
  rw [if_neg waits, if_pos received]
  unfold rxStage
  by_cases few : rx.ret < 4
  · rw [if_pos few, if_pos what]
    by_cases file : (heardSys rx s).k.state = .rFile
    · rw [if_pos file]
      exact .inr ⟨file, rfl⟩
    · rw [if_neg file]
      exact .inl ⟨(heardSys rx s).k.ipktbuf, rfl⟩
  rw [if_neg few]
  have long := Int.not_lt.mp few
  cases parsed : parse (heardSys rx s).k rx.ret with
  | shortcut =>
      exact absurd parsed (noise.noShortcut long)
  | good p buf =>
      exact absurd parsed (noise.notGood p buf long)
  | tossed =>
      exact .inl ⟨(heardSys rx s).k.ipktbuf, rfl⟩
  | badHeader buf =>
      dsimp only
      rw [quiet]
      exact .inl ⟨buf, rfl⟩
  | badLength =>
      dsimp only
      rw [forced]
      have same := quiet (heardSys rx s).k.ipktbuf
      exact .inl ⟨(heardSys rx s).k.ipktbuf,
        congrArg (fun result : Int × Sys ω => (xOk, result.2)) same⟩
  | badCheck buf =>
      dsimp only
      rw [forced, quiet]
      exact .inl ⟨buf, rfl⟩

/-- Without a packet a receiver waits on. -/
theorem kermit_waits
    (linked : Linked io)
    (receives : Receives rootPath s.k)
    (receiving : s.k.what = .recv)
    (set : s.k.state ≠ .rNone)
    (noise : Noise rx s)
    (msg : List UInt8) :
    WaitsOn rootPath s (kermit io .run rx.ret msg (heardSys rx s)) := by
  rcases @kermit_unheard _ io _ _ receives.wf receiving set noise msg with
    ⟨buf, called⟩ | ⟨file, called⟩
  · rw [called]
    exact ⟨rfl, receives.heard rx buf, receiving,
      ⟨rfl, rfl, rfl, rfl, rfl, rfl, rfl, rfl⟩, .inl rfl⟩
  · rw [called]
    have before : Receives rootPath (heardSys rx s).k :=
      receives.heard rx (heardSys rx s).k.ipktbuf
    obtain ⟨-, answered⟩ := rpar_answersS linked before.plainly
    have same := answered.sameTaken
    exact ⟨rfl, before.answered answered,
      answered.settings.what.trans receiving,
      ⟨same.state, same.par, same.cfg, same.ipktinfo, same.rPw, same.obuf,
        same.obufpos, same.written⟩, .inr ⟨file, answered.log⟩⟩

end Steps

end Slate106.Kermit
