import Mathlib.Logic.Relation
import Slate106.KermitMain
import Slate106.KermitSent

namespace Slate106.Kermit

open CBytes

/-!
# What the functions of the machine do to a session

Every function below the state switcher is a sequence of `Work` steps, each of
which says what it may change.  An invariant that is kept by each kind of step
is then kept by all of these functions.
-/

variable {ω : Type}

/-- Everything but the scratch fields is the same. -/
structure SameCore
    (s s' : Sys ω) : Prop where
  cfg : s'.k.cfg = s.k.cfg
  par : s'.k.par = s.k.par
  ipktinfo : s'.k.win.ipktinfo = s.k.win.ipktinfo
  opktinfo : s'.k.win.opktinfo = s.k.win.opktinfo
  rPw : s'.k.win.rPw = s.k.win.rPw
  sPw : s'.k.win.sPw = s.k.win.sPw
  state : s'.k.state = s.k.state
  what : s'.k.what = s.k.what
  recvdir : s'.k.recvdir = s.k.recvdir
  w : s'.w = s.w
  log : s'.log = s.log

/-- One step of work that does not touch the packet windows. -/
inductive Chore
    (io : Io ω) : Sys ω → Sys ω → Prop where
  | scratch
      {s s' : Sys ω}
      (same : SameCore s s') :
      Chore io s s'
  | txd
      (par : Params)
      (typ : UInt8)
      (seq : Int)
      (data : List UInt8)
      (s : Sys ω)
      (kind : isUnslotted typ = true) :
      Chore io s (callTxd io (pktFrame par typ seq data) s).2
  | openf
      (name : List UInt8)
      (mode filesize : Int)
      (s : Sys ω) :
      Chore io s (callOpenf io name mode filesize s).2
  | readf
      (s : Sys ω) :
      Chore io s (callReadf io s).2
  | accessf
      (name : List UInt8)
      (s : Sys ω) :
      Chore io s (callAccessf io name s).2
  | closef
      (c : UInt8)
      (mode : Int)
      (s : Sys ω) :
      Chore io s (callClosef io c mode s).2
  | getdirdata
      (s : Sys ω) :
      Chore io s (callGetdirdata io s).2.2
  | finfo
      (name : List UInt8)
      (s : Sys ω) :
      Chore io s { s with w := (io.finfo s.w name s.k.par.binary).2.2.2 }
  | params
      (p : Params)
      (s : Sys ω)
      (wslots : p.wslots = s.k.par.wslots)
      (retry : p.retry = s.k.par.retry)
      (capas : p.capas = s.k.par.capas) :
      Chore io s { s with k.par := p }

/-- One step of work on a session that stays in its protocol state. -/
inductive Work
    (io : Io ω) : Sys ω → Sys ω → Prop where
  | chore
      {s s' : Sys ω}
      (step : Chore io s s') :
      Work io s s'
  | txd
      (bytes : List UInt8)
      (s : Sys ω) :
      Work io s (callTxd io bytes s).2
  | writef
      (bytes : List UInt8)
      (s : Sys ω)
      (inData : s.k.state = .rData) :
      Work io s (callWritef io bytes s).2
  | decodeFile
      (s : Sys ω)
      (inData : s.k.state = .rData) :
      Work io s { s with log := .decodeFile :: s.log }
  | spar
      (pdf : Nat)
      (datalen : Int)
      (s : Sys ω) :
      Work io s (onK (spar pdf datalen) s)
  | getSslot
      (s : Sys ω) :
      Work io s (onK (fun k => (getSslot k).2) s)
  | mapSseq
      (slot : Int)
      (s : Sys ω)
      (lower : -1 ≤ slot)
      (upper : slot < s.k.par.wslots) :
      Work io s (onK (mapSseq slot) s)
  | fill
      (slot : Int)
      (typ : UInt8)
      (seq : Int)
      (len : Nat)
      (buf : List UInt8)
      (s : Sys ω)
      (enough : len < pBuflen → len ≤ buf.length) :
      Work io s (onK (filled slot typ seq len buf) s)
  | freeSslot
      (slot : Int)
      (s : Sys ω) :
      Work io s (onK (freeSslot slot) s)
  | acknowledge
      (slot : Int)
      (s : Sys ω) :
      Work io s (onK (acknowledge slot) s)
  | retry
      (slot rtr : Int)
      (s : Sys ω) :
      Work io s
        (onK
          (fun k =>
            { k with
              win.opktinfo := put k.win.opktinfo slot
                { k.win.opktinfo slot with rtr := rtr } }) s)
  | getRslot
      (s : Sys ω) :
      Work io s (onK (fun k => (getRslot k).2) s)
  | clearRslot
      (slot : Int)
      (s : Sys ω) :
      Work io s (onK (clearRslot slot) s)
  | storeRslot
      (slot rseq : Int)
      (text : List UInt8)
      (s : Sys ω)
      (short : (cstr text).length < pBuflen) :
      Work io s (onK (storeRslot slot rseq text) s)
  | nakked
      (slot rtr : Int)
      (s : Sys ω) :
      Work io s
        (onK
          (fun k =>
            { k with
              win.ipktinfo := put k.win.ipktinfo slot
                { k.win.ipktinfo slot with rtr := rtr } }) s)

/-- Any number of steps of work. -/
abbrev Works
    (io : Io ω) : Sys ω → Sys ω → Prop :=
  Relation.ReflTransGen (Work io)

/-- Any number of steps of work outside of the packet windows. -/
abbrev Chores
    (io : Io ω) : Sys ω → Sys ω → Prop :=
  Relation.ReflTransGen (Chore io)

/-- What no step of work changes. -/
structure SameControl
    (s s' : Sys ω) : Prop where
  cfg : s'.k.cfg = s.k.cfg
  state : s'.k.state = s.k.state
  what : s'.k.what = s.k.what
  recvdir : s'.k.recvdir = s.k.recvdir

section Steps

variable {io : Io ω}
variable {s s' t : Sys ω}

theorem Works.of
    (step : Work io s s') :
    Works io s s' :=
  Relation.ReflTransGen.single step

theorem Works.then
    (first : Works io s s')
    (step : Work io s' t) :
    Works io s t :=
  first.tail step

theorem Works.and
    (first : Works io s s')
    (second : Works io s' t) :
    Works io s t :=
  Relation.ReflTransGen.trans first second

theorem Chores.of
    (step : Chore io s s') :
    Chores io s s' :=
  Relation.ReflTransGen.single step

theorem Chores.then
    (first : Chores io s s')
    (step : Chore io s' t) :
    Chores io s t :=
  first.tail step

theorem Chores.and
    (first : Chores io s s')
    (second : Chores io s' t) :
    Chores io s t :=
  Relation.ReflTransGen.trans first second

theorem Chores.works
    (steps : Chores io s s') :
    Works io s s' :=
  Relation.ReflTransGen.mono (fun _ _ step => Work.chore step) _ _ steps

theorem Work.scratch
    (same : SameCore s s') :
    Work io s s' :=
  .chore (.scratch same)

theorem Work.openf
    (name : List UInt8)
    (mode filesize : Int)
    (s : Sys ω) :
    Work io s (callOpenf io name mode filesize s).2 :=
  .chore (.openf name mode filesize s)

theorem Work.accessf
    (name : List UInt8)
    (s : Sys ω) :
    Work io s (callAccessf io name s).2 :=
  .chore (.accessf name s)

theorem Work.closef
    (c : UInt8)
    (mode : Int)
    (s : Sys ω) :
    Work io s (callClosef io c mode s).2 :=
  .chore (.closef c mode s)

theorem Work.getdirdata
    (s : Sys ω) :
    Work io s (callGetdirdata io s).2.2 :=
  .chore (.getdirdata s)

theorem Work.finfo
    (name : List UInt8)
    (s : Sys ω) :
    Work io s { s with w := (io.finfo s.w name s.k.par.binary).2.2.2 } :=
  .chore (.finfo name s)

theorem Work.params
    (p : Params)
    (s : Sys ω)
    (wslots : p.wslots = s.k.par.wslots)
    (retry : p.retry = s.k.par.retry)
    (capas : p.capas = s.k.par.capas) :
    Work io s { s with k.par := p } :=
  .chore (.params p s wslots retry capas)

theorem chores_scratch
    (same : SameCore s s') :
    Chores io s s' :=
  .of (.scratch same)

theorem works_scratch
    (same : SameCore s s') :
    Works io s s' :=
  .of (.scratch same)

/-- The packet windows and what sets their size. -/
structure SameWindow
    (s s' : Sys ω) : Prop where
  ipktinfo : s'.k.win.ipktinfo = s.k.win.ipktinfo
  opktinfo : s'.k.win.opktinfo = s.k.win.opktinfo
  rPw : s'.k.win.rPw = s.k.win.rPw
  sPw : s'.k.win.sPw = s.k.win.sPw
  wslots : s'.k.par.wslots = s.k.par.wslots
  retry : s'.k.par.retry = s.k.par.retry
  capas : s'.k.par.capas = s.k.par.capas

theorem Chore.window
    (step : Chore io s s') :
    SameWindow s s' := by
  cases step with
  | scratch same =>
      refine ⟨same.ipktinfo, same.opktinfo, same.rPw, same.sPw, ?_, ?_, ?_⟩
      all_goals rw [same.par]
  | params p _ wslots retry capas =>
      exact ⟨rfl, rfl, rfl, rfl, wslots, retry, capas⟩
  | _ =>
      exact ⟨rfl, rfl, rfl, rfl, rfl, rfl, rfl⟩

/-- Work outside of the windows leaves the windows alone. -/
theorem Chores.window
    (steps : Chores io s s') :
    SameWindow s s' := by
  induction steps with
  | refl =>
      exact ⟨rfl, rfl, rfl, rfl, rfl, rfl, rfl⟩
  | tail _ step inductionHypothesis =>
      have last := step.window
      exact
        ⟨last.ipktinfo.trans inductionHypothesis.ipktinfo,
          last.opktinfo.trans inductionHypothesis.opktinfo,
          last.rPw.trans inductionHypothesis.rPw,
          last.sPw.trans inductionHypothesis.sPw,
          last.wslots.trans inductionHypothesis.wslots,
          last.retry.trans inductionHypothesis.retry,
          last.capas.trans inductionHypothesis.capas⟩

theorem freeSslot_control
    (slot : Int)
    (k : KData) :
    (freeSslot slot k) = { k with win := (freeSslot slot k).win } := by
  unfold freeSslot
  split <;> rfl

theorem freeSslotEascaLoop_shape
    (count : Nat)
    (k : KData) :
    freeSslotEascaLoop count k =
      { k with win := (freeSslotEascaLoop count k).win } := by
  induction count generalizing k with
  | zero =>
      rfl
  | succ count inductionHypothesis =>
      unfold freeSslotEascaLoop
      dsimp only
      split
      · rfl
      · split
        · rfl
        · split
          · rfl
          · rw [inductionHypothesis, freeSslot_control]

theorem acknowledge_shape
    (slot : Int)
    (k : KData) :
    acknowledge slot k = { k with win := (acknowledge slot k).win } := by
  unfold acknowledge freeSslotEasca
  rw [freeSslotEascaLoop_shape]

theorem getRslot_shape
    (k : KData) :
    (getRslot k).2 = { k with win := (getRslot k).2.win } := by
  unfold getRslot
  split <;> rfl

/-- One step of work keeps the control fields. -/
theorem Work.control
    (step : Work io s s') :
    SameControl s s' := by
  cases step with
  | chore step =>
      cases step with
      | scratch same =>
          exact ⟨same.cfg, same.state, same.what, same.recvdir⟩
      | _ =>
          exact ⟨rfl, rfl, rfl, rfl⟩
  | getSslot =>
      constructor <;> simp only [onK] <;> rw [getSslot_shape]
  | freeSslot slot =>
      constructor <;> simp only [onK] <;> rw [freeSslot_control]
  | acknowledge slot =>
      constructor <;> simp only [onK] <;> rw [acknowledge_shape]
  | getRslot =>
      constructor <;> simp only [onK] <;> rw [getRslot_shape]
  | fill slot typ seq len buf _ enough =>
      constructor <;> simp only [onK, filled] <;> rw [forceBcta3_eq]
  | _ =>
      exact ⟨rfl, rfl, rfl, rfl⟩

/-- Any work keeps the control fields. -/
theorem Works.control
    (steps : Works io s s') :
    SameControl s s' := by
  induction steps with
  | refl =>
      exact ⟨rfl, rfl, rfl, rfl⟩
  | tail _ step inductionHypothesis =>
      have last := step.control
      exact
        ⟨last.cfg.trans inductionHypothesis.cfg,
          last.state.trans inductionHypothesis.state,
          last.what.trans inductionHypothesis.what,
          last.recvdir.trans inductionHypothesis.recvdir⟩

/-! ## Slots and packets -/

theorem getSslot_ge
    (k : KData) :
    -1 ≤ (getSslot k).1 := by
  unfold getSslot
  cases found :
      (slots k).find? (fun slot => (k.win.opktinfo slot).len < 1) with
  | none =>
      exact Int.le_refl _
  | some slot =>
      have member := List.mem_of_find?_eq_some found
      simp only [slots, List.mem_map, List.mem_range] at member
      obtain ⟨index, inside, rfl⟩ := member
      simp

theorem works_takeSslot
    (s : Sys ω) :
    Works io s (onK (fun k => (takeSslot k).2) s) := by
  have upper := getSslot_lt s.k
  refine (Works.of (.getSslot s)).then ?_
  refine .mapSseq (getSslot s.k).1 _ (getSslot_ge s.k) ?_
  simp only [onK]
  rw [getSslot_shape]
  exact upper

theorem chores_forceBcta3
    (s : Sys ω) :
    Chores io s { s with k := forceBcta3 s.k } := by
  rw [forceBcta3_eq]
  exact .of (.params { s.k.par with bct := inForce s.k } s rfl rfl rfl)

theorem chores_setBct
    (bct : Nat)
    (s : Sys ω) :
    Chores io s (setBct bct s) :=
  .of (.params { s.k.par with bct := bct } s rfl rfl rfl)

private theorem chores_spktBuild
    {confused : Sys ω → Sys ω}
    (confusedChores : ∀ s, Chores io s (confused s))
    {typ : UInt8}
    (kind : isUnslotted typ = true)
    (seq : Int)
    (bytes : List UInt8)
    (s : Sys ω) :
    Chores io s (spktBuild io confused typ seq bytes none s).2 := by
  have forced : Chores io _ _ := chores_forceBcta3 s
  unfold spktBuild
  dsimp only
  split
  · exact forced.and (confusedChores _)
  · split
    · exact forced
    · refine (forced.then (.scratch ?_)).then (.txd _ typ seq bytes _ kind)
      exact ⟨rfl, rfl, rfl, rfl, rfl, rfl, rfl, rfl, rfl, rfl, rfl⟩

/-- A packet that takes no slot leaves the windows alone. -/
private theorem chores_spktWith
    {confused : Sys ω → Sys ω}
    (confusedChores : ∀ s, Chores io s (confused s))
    {typ : UInt8}
    (kind : isUnslotted typ = true)
    (seq len : Int)
    (text : Option (List UInt8))
    (s : Sys ω) :
    Chores io s (spktWith io confused typ seq len text s).2 := by
  unfold spktWith
  split
  · exact .refl
  · exact chores_spktBuild confusedChores kind seq _ s

theorem chores_epktWith
    {confused : Sys ω → Sys ω}
    (confusedChores : ∀ s, Chores io s (confused s))
    (msg : List UInt8)
    (s : Sys ω) :
    Chores io s (epktWith io confused msg s) := by
  unfold epktWith
  exact (chores_setBct _ s).and
    ((chores_spktWith confusedChores (by decide) _ _ _ _).and
      (chores_setBct _ _))

theorem chores_spktConfused
    (s : Sys ω) :
    Chores io s (spktConfused io s) :=
  chores_epktWith (fun _ => Relation.ReflTransGen.refl) _ s

theorem works_spktWith
    {confused : Sys ω → Sys ω}
    (confusedChores : ∀ s, Chores io s (confused s))
    (typ : UInt8)
    (seq len : Int)
    (text : Option (List UInt8))
    (s : Sys ω) :
    Works io s (spktWith io confused typ seq len text s).2 := by
  by_cases inRange : seq < 0 ∨ seq > 63
  · have out : (decide (seq < 0) || decide (seq > 63)) = true := by
      simpa using inRange
    unfold spktWith
    rw [if_pos out]
  by_cases kind : isUnslotted typ = true
  · exact (chores_spktWith confusedChores kind seq len text s).works
  by_cases free : 0 ≤ (getSslot s.k).1
  · rw [spktWith_slotted io confused (by simpa using kind) (by omega)
      (by omega) free]
    have taken : Works io _ _ := works_takeSslot s
    have frameLong :
        (spktData len text).length ≤
          (sentFrame typ seq (spktData len text) s.k).length := by
      simp [sentFrame, pktFrame, pktBody]
      omega
    dsimp only
    split
    · refine (taken.then (.fill _ typ seq _ _ _ ?_)).and
        (confusedChores _).works
      intro small
      simp only [List.length_take]
      omega
    · split
      · refine taken.then (.fill _ typ seq _ _ _ ?_)
        intro small
        simp
        omega
      · refine ((taken.then (.fill (getSslot s.k).1 typ seq
          (sentFrame typ seq (spktData len text) s.k).length
          (sentFrame typ seq (spktData len text) s.k ++ [0]) _ ?_)).then
            (.scratch ?_)).then (.txd _ _)
        · intro small
          simp
        · exact ⟨rfl, rfl, rfl, rfl, rfl, rfl, rfl, rfl, rfl, rfl, rfl⟩
  · rw [spktWith_full io confused (by simpa using kind) (by omega)
      (by omega) free]
    exact .of (.getSslot s)

theorem works_spkt
    (typ : UInt8)
    (seq len : Int)
    (text : Option (List UInt8))
    (s : Sys ω) :
    Works io s (spkt io typ seq len text s).2 :=
  works_spktWith chores_spktConfused typ seq len text s

theorem chores_epkt
    (msg : List UInt8)
    (s : Sys ω) :
    Chores io s (epkt io msg s) :=
  chores_epktWith chores_spktConfused msg s

theorem works_epkt
    (msg : List UInt8)
    (s : Sys ω) :
    Works io s (epkt io msg s) :=
  (chores_epkt msg s).works

theorem works_nak
    (seq slot : Int)
    (s : Sys ω) :
    Works io s (nak io seq slot s).2 := by
  have sent : Works io _ _ := works_spkt (ch 'N') seq 0 none s
  unfold nak
  dsimp only
  split
  · exact sent.then (.nakked slot _ _)
  · exact sent

theorem chores_spkt
    {typ : UInt8}
    (kind : isUnslotted typ = true)
    (seq len : Int)
    (text : Option (List UInt8))
    (s : Sys ω) :
    Chores io s (spkt io typ seq len text s).2 :=
  chores_spktWith chores_spktConfused kind seq len text s

theorem chores_ack
    (seq : Int)
    (text : Option (List UInt8))
    (s : Sys ω) :
    Chores io s (ack io seq text s).2 := by
  have slotless : isUnslotted (ch 'Y') = true := by decide
  have sent : Chores io _ _ :=
    chores_spkt slotless seq
      (((text.map cstr).getD []).length : Nat) (text.map cstr) s
  unfold ack
  dsimp only
  split
  · refine sent.then (.scratch ?_)
    exact ⟨rfl, rfl, rfl, rfl, rfl, rfl, rfl, rfl, rfl, rfl, rfl⟩
  · exact sent

theorem works_ack
    (seq : Int)
    (text : Option (List UInt8))
    (s : Sys ω) :
    Works io s (ack io seq text s).2 :=
  (chores_ack seq text s).works

private theorem works_resendSlot
    (slot : Int)
    (s : Sys ω) :
    Works io s (resendSlot io slot s).2 := by
  have noted :
      Works io s
        { s with k.win.opktlen := (s.k.win.opktinfo slot).len } :=
    works_scratch
      ⟨rfl, rfl, rfl, rfl, rfl, rfl, rfl, rfl, rfl, rfl, rfl⟩
  have counted (rtr : Int) :
      Works io s
        { s with
          k.win.opktlen := (s.k.win.opktinfo slot).len
          k.nresend := s.k.nresend + 1
          k.win.opktinfo := put s.k.win.opktinfo slot
            { s.k.win.opktinfo slot with rtr := rtr } } := by
    refine (noted.then (.retry slot rtr _)).then (.scratch ?_)
    exact ⟨rfl, rfl, rfl, rfl, rfl, rfl, rfl, rfl, rfl, rfl, rfl⟩
  unfold resendSlot
  dsimp only
  split
  · exact noted
  · split
    · exact noted
    · split
      · exact counted _
      · exact (counted _).then (.txd _ _)

theorem works_resend
    (seq : Int)
    (s : Sys ω) :
    Works io s (resend io seq s).2 := by
  unfold resend
  dsimp only
  generalize (if seq < 0 then earliestSseq s.k else seq) = actual
  split
  · exact .refl
  · split
    · split
      · exact .refl
      · split
        · exact .refl
        · exact works_resendSlot _ s
    · exact works_resendSlot _ s

theorem works_freeRslot
    (slot : Int)
    (s : Sys ω) :
    Works io s (freeRslot io slot s) := by
  unfold freeRslot
  split
  · exact works_epkt _ s
  · exact .of (.clearRslot slot s)

theorem chores_testRslots
    (s : Sys ω) :
    Chores io s (testRslots io s) := by
  unfold testRslots
  dsimp only
  split
  · exact chores_epkt _ s
  · exact .refl

theorem works_testRslots
    (s : Sys ω) :
    Works io s (testRslots io s) :=
  (chores_testRslots s).works

/-! ## Parameters, data fields and attributes -/

private theorem works_rparSend
    (type : UInt8)
    (d : List UInt8)
    (s : Sys ω) :
    Works io s (rparSend io type d s).2 := by
  unfold rparSend
  dsimp only
  split
  · exact works_ack 0 (some d) s
  · split
    · split
      · exact .refl
      · exact (works_takeSslot s).and
          (works_spkt (ch 'S') 0 13 (some d) _)
    · exact .refl

theorem chores_requestEbq
    (s : Sys ω) :
    Chores io s { s with k.par := requestEbq s.k.par } := by
  refine .of (.params (requestEbq s.k.par) s ?_ ?_ ?_) <;>
    unfold requestEbq <;> split <;> rfl

theorem works_rpar
    (type : UInt8)
    (s : Sys ω) :
    Works io s (rpar io type s).2 := by
  have asked : Chores io s _ :=
    (chores_requestEbq s).and (chores_setBct (rparBct s.k.cfg) _)
  unfold rpar
  exact (asked.works.and (works_rparSend type _ _)).and
    (chores_setBct _ _).works

theorem pokeXdata_core
    (offset : Nat)
    (bytes : List UInt8)
    (s : Sys ω) :
    SameCore s { s with k := pokeXdata offset bytes s.k } := by
  unfold pokeXdata
  constructor <;> split <;> rfl

theorem SameCore.trans
    (first : SameCore s s')
    (second : SameCore s' t) :
    SameCore s t :=
  ⟨second.cfg.trans first.cfg, second.par.trans first.par,
    second.ipktinfo.trans first.ipktinfo,
    second.opktinfo.trans first.opktinfo, second.rPw.trans first.rPw,
    second.sPw.trans first.sPw, second.state.trans first.state,
    second.what.trans first.what, second.recvdir.trans first.recvdir,
    second.w.trans first.w, second.log.trans first.log⟩

theorem chores_pokeXdata
    (offset : Nat)
    (bytes : List UInt8)
    (s : Sys ω) :
    Chores io s { s with k := pokeXdata offset bytes s.k } :=
  chores_scratch (pokeXdata_core offset bytes s)

theorem chores_enc
    (enc : Encoder)
    (s : Sys ω) :
    Chores io s { s with k.enc := enc } :=
  chores_scratch ⟨rfl, rfl, rfl, rfl, rfl, rfl, rfl, rfl, rfl, rfl, rfl⟩

theorem chores_response
    (r : KResponse)
    (s : Sys ω) :
    Chores io s { s with r := r } :=
  chores_scratch ⟨rfl, rfl, rfl, rfl, rfl, rfl, rfl, rfl, rfl, rfl, rfl⟩

theorem works_response
    (r : KResponse)
    (s : Sys ω) :
    Works io s { s with r := r } :=
  (chores_response r s).works

theorem chores_emit
    (bytes : List UInt8)
    (s : Sys ω) :
    Chores io s { s with k := emit bytes s.k } :=
  (chores_pokeXdata s.k.enc.size bytes s).and (chores_enc _ _)

theorem chores_encodeChar
    (a : UInt8)
    (s : Sys ω) :
    Chores io s (encodeChar io a s) := by
  have stored :
      Chores io s
        { s with
          k := pokeXdata
            (emit (encodeBytes s.k.cfg s.k.par a) s.k).enc.size [0]
            (emit (encodeBytes s.k.cfg s.k.par a) s.k) } :=
    (chores_emit _ s).and (chores_pokeXdata _ _ _)
  unfold encodeChar
  dsimp only
  split
  · exact stored.and (chores_epkt _ _)
  · exact stored

theorem chores_encode
    (a : UInt8)
    (next : Option UInt8)
    (s : Sys ω) :
    Chores io s (encode io a next s) := by
  unfold encode
  dsimp only
  split
  · split
    · split
      · exact chores_enc _ s
      · split
        · exact (((chores_enc _ s).and (chores_emit _ _)).and
            (chores_enc _ _)).and (chores_encodeChar a _)
        · exact (chores_enc _ s).and (chores_encodeChar a _)
    · split
      · have first : Chores io _ _ :=
          (chores_enc { s.k.enc with sRpt := 0 } s).and
          (chores_encodeChar a _)
        split
        · exact (first.and (chores_enc _ _)).and (chores_encodeChar a _)
        · exact (first.and (chores_enc _ _)).and (chores_encodeChar a _)
      · split
        · exact ((chores_emit _ s).and (chores_enc _ _)).and
            (chores_encodeChar a _)
        · exact chores_encodeChar a s
  · exact chores_encodeChar a s

theorem chores_nextChar
    (s : Sys ω) :
    Chores io s (nextChar io s).2 := by
  unfold nextChar
  split
  · exact chores_enc _ s
  · have counted :
        Chores io s { s with k.zin.zincnt := s.k.zin.zincnt - 1 } :=
      chores_scratch
        ⟨rfl, rfl, rfl, rfl, rfl, rfl, rfl, rfl, rfl, rfl, rfl⟩
    unfold zgetc
    dsimp only
    split
    · refine counted.then (.scratch ?_)
      exact ⟨rfl, rfl, rfl, rfl, rfl, rfl, rfl, rfl, rfl, rfl, rfl⟩
    · exact counted.then (.readf _)

theorem chores_noteChar
    (next : Option UInt8)
    (s : Sys ω) :
    Chores io s (noteChar next s) := by
  unfold noteChar
  split
  · exact chores_enc _ s
  · exact chores_response _ s

theorem chores_encodeNext
    (c : UInt8)
    (next : Option UInt8)
    (s : Sys ω) :
    Chores io s (encodeNext io c next s) := by
  unfold encodeNext
  exact ((chores_enc _ s).and (chores_encode c next _)).and
    (chores_enc _ _)

theorem chores_cutBack
    (s : Sys ω) :
    Chores io s { s with k := cutBack s.k } := by
  unfold cutBack
  exact (chores_enc _ s).and (chores_pokeXdata _ _ _)

theorem chores_getpktLoop
    (count : Nat)
    (c : UInt8)
    (s : Sys ω) :
    Chores io s (getpktLoop io count c s).2 := by
  induction count generalizing c s with
  | zero =>
      exact .refl
  | succ count inductionHypothesis =>
      have encoded :
          Chores io s
            (encodeNext io c (nextChar io s).1
              (noteChar (nextChar io s).1 (nextChar io s).2)) :=
        ((chores_nextChar s).and (chores_noteChar _ _)).and
          (chores_encodeNext c _ _)
      unfold getpktLoop
      dsimp only
      split
      · exact encoded
      · split
        · exact encoded.and (chores_cutBack _)
        · split
          · exact encoded.and (inductionHypothesis _ _)
          · exact encoded

theorem chores_getpkt
    (s : Sys ω) :
    Chores io s (getpkt io s).2 := by
  have forced : Chores io _ _ := chores_forceBcta3 s
  have rest (c : UInt8) (t : Sys ω) :
      Chores io t (getpktRest io c t).2 := by
    have copied : Chores io t { t with k := copyRemain t.k } := by
      unfold copyRemain
      exact (chores_pokeXdata _ _ t).and (chores_enc _ _)
    unfold getpktRest
    dsimp only
    split
    · exact copied
    · exact copied.and (chores_getpktLoop _ _ _)
  have first (t : Sys ω) : Chores io t (getpktFirst io t).2 := by
    have read : Chores io _ _ := (chores_enc
      { t.k.enc with sFirst := 0, sRemain := [] } t).and
        (chores_nextChar _)
    unfold getpktFirst
    dsimp only
    split
    · exact (read.and (chores_enc _ _)).and (chores_enc _ _)
    · split
      · exact (read.and (chores_enc _ _)).and (chores_response _ _)
      · exact read.and (chores_enc _ _)
  unfold getpkt
  dsimp only
  split
  · split
    · exact forced.and (first _)
    · exact (forced.and (first _)).trans (rest _ _)
  · split
    · exact forced.and (chores_enc _ _)
    · exact forced.and (rest _ _)

theorem chores_encstr
    (text : StrRef)
    (s : Sys ω) :
    Chores io s (encstr io text s).2 := by
  unfold encstr
  exact ((chores_enc _ s).and (chores_getpkt _)).and (chores_enc _ _)

theorem works_encstr
    (text : StrRef)
    (s : Sys ω) :
    Works io s (encstr io text s).2 :=
  (chores_encstr text s).works

theorem works_sdata
    (s : Sys ω) :
    Works io s (sdata io s).2 := by
  unfold sdata
  dsimp only
  split
  · exact .refl
  · split
    · exact (chores_getpkt s).works
    · exact (chores_getpkt s).works.and (works_spkt _ _ _ _ _)

theorem works_sattr
    (s : Sys ω) :
    Works io s (sattr io s).2 := by
  let name := (s.k.filename.map (deref s)).getD []
  let info := io.finfo s.w name s.k.par.binary
  have asked : Works io s { s with k.par.binary := info.2.2.1, w := info.2.2.2 } := by
    refine (Works.of (.finfo name s)).then (.params _ _ rfl rfl rfl)
  unfold sattr
  dsimp only
  split
  · exact (asked.and (works_response _ _)).and
      (chores_pokeXdata _ _ _).works
  · exact (((asked.and (works_response _ _)).and
      (chores_pokeXdata _ _ _).works).and (works_takeSslot _)).and
        (works_spkt _ _ _ _ _)

end Steps

end Slate106.Kermit
