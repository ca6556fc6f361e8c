import Slate106.KermitTurns
import Slate106.KermitKinds
import Slate106.KermitReadOnly

namespace Slate106.Kermit

open CBytes

/-!
# How often a packet is sent

`resend()` counts the retransmissions of the packet in its slot and refuses
when the count exceeds the limit.  Its callers for damaged packets ignore that
and the session goes on, so the count is a `short` that may wrap around.

A call supplies the slot with at most one new packet, or sends the packet in
it again.
-/

variable {ω : Type}

/-- The packets for the send slot that were handed to `txd`, the last first. -/
def keptTxds
    (log : List Call) : List (List UInt8) :=
  (txds log).filter fun frame => !isUnslotted (frameType frame)

/-- The packets sent so far, and the send slot. -/
def slotView
    (s : Sys ω) : List (List UInt8) × Packet :=
  (keptTxds s.log, s.k.win.opktinfo 0)

/-- The packet in a slot: its type, number, length and bytes. -/
def heldPacket
    (p : Packet) : UInt8 × Int × Int × List UInt8 :=
  (p.typ, p.seq, p.len, p.buf)

/-- The slot keeps its packet and its counter, or it is emptied. -/
def SlotRests
    (k k' : KData) : Prop :=
  (heldPacket (k'.win.opktinfo 0) = heldPacket (k.win.opktinfo 0) ∧
      (k'.win.opktinfo 0).rtr = (k.win.opktinfo 0).rtr) ∨
    (k'.win.opktinfo 0).len < 1

/-- No packet for the slot is sent, and none is put into it. -/
structure Unsent
    (s s' : Sys ω) : Prop where
  sent : keptTxds s'.log = keptTxds s.log
  slot : SlotRests s.k s'.k

/-- A packet is put into the slot, and sent once at most. -/
structure Placed
    (s s' : Sys ω) : Prop where
  sent :
    ∃ new, keptTxds s'.log = new ++ keptTxds s.log ∧ new.length ≤ 1
  counter : (s'.k.win.opktinfo 0).rtr = 0

/-- The packet in the slot is counted as sent again, and sent in the limit. -/
structure Resent
    (s s' : Sys ω) : Prop where
  full : 1 ≤ (s.k.win.opktinfo 0).len
  packet :
    heldPacket (s'.k.win.opktinfo 0) = heldPacket (s.k.win.opktinfo 0)
  counter :
    (s'.k.win.opktinfo 0).rtr = short ((s.k.win.opktinfo 0).rtr + 1)
  sent :
    ∃ new, keptTxds s'.log = new ++ keptTxds s.log ∧ new.length ≤ 1 ∧
      (s.k.par.retry < short ((s.k.win.opktinfo 0).rtr + 1) → new = [])

/-- What a part of a call does to the slot when it does not retransmit. -/
def Supplies
    (s s' : Sys ω) : Prop :=
  Unsent s s' ∨ Placed s s'

section Parts

variable {io : Io ω}
variable {s s' t : Sys ω}

theorem SlotRests.trans
    {k k' k'' : KData}
    (first : SlotRests k k')
    (second : SlotRests k' k'') :
    SlotRests k k'' := by
  rcases second with ⟨packet', counter'⟩ | emptied
  · rcases first with ⟨packet, counter⟩ | emptied
    · exact Or.inl ⟨packet'.trans packet, counter'.trans counter⟩
    · have length : (k''.win.opktinfo 0).len = (k'.win.opktinfo 0).len :=
        congrArg (·.2.2.1) packet'
      exact Or.inr (by omega)
  · exact Or.inr emptied

theorem Unsent.of_view
    (same : slotView s' = slotView s) :
    Unsent s s' := by
  have slot : s'.k.win.opktinfo 0 = s.k.win.opktinfo 0 :=
    congrArg Prod.snd same
  exact ⟨congrArg Prod.fst same, Or.inl ⟨by rw [slot], by rw [slot]⟩⟩

theorem Unsent.and
    (first : Unsent s t)
    (second : Unsent t s') :
    Unsent s s' :=
  ⟨second.sent.trans first.sent, first.slot.trans second.slot⟩

/-- First nothing is sent, then at most one packet. -/
theorem Unsent.then
    (first : Unsent s t)
    (second : Supplies t s') :
    Supplies s s' := by
  rcases second with unsent | ⟨sent, counter⟩
  · exact Or.inl (first.and unsent)
  · rw [first.sent] at sent
    exact Or.inr ⟨sent, counter⟩

/-- What follows leaves the slot and the packets alone. -/
theorem Supplies.view
    (supplies : Supplies s t)
    (same : slotView s' = slotView t) :
    Supplies s s' := by
  rcases supplies with unsent | ⟨sent, counter⟩
  · exact Or.inl (unsent.and (.of_view same))
  · have slot : s'.k.win.opktinfo 0 = t.k.win.opktinfo 0 :=
      congrArg Prod.snd same
    have log : keptTxds s'.log = keptTxds t.log := congrArg Prod.fst same
    rw [← log] at sent
    exact Or.inr ⟨sent, by rw [slot, counter]⟩

theorem supplies_view
    (same : slotView s' = slotView s) :
    Supplies s s' :=
  Or.inl (.of_view same)

/-! ## Functions that leave the slot alone -/

theorem Chore.view
    (step : Chore io s s') :
    slotView s' = slotView s := by
  have slot := congrFun step.window.opktinfo 0
  have sent : keptTxds s'.log = keptTxds s.log := by
    cases step with
    | scratch same =>
        rw [same.log]
    | txd par typ seq data _ kind =>
        simp [keptTxds, callTxd, txds, kind]
    | _ =>
        rfl
  exact Prod.ext sent slot

theorem Chores.view
    (steps : Chores io s s') :
    slotView s' = slotView s := by
  induction steps with
  | refl =>
      rfl
  | tail _ step inductionHypothesis =>
      exact step.view.trans inductionHypothesis

@[simp] theorem slotView_epkt
    (msg : List UInt8)
    (s : Sys ω) :
    slotView (epkt io msg s) = slotView s :=
  (chores_epkt msg s).view

@[simp] theorem slotView_ack
    (seq : Int)
    (text : Option (List UInt8))
    (s : Sys ω) :
    slotView (ack io seq text s).2 = slotView s :=
  (chores_ack seq text s).view

@[simp] theorem slotView_nak
    (seq slot : Int)
    (s : Sys ω) :
    slotView (nak io seq slot s).2 = slotView s := by
  have sent : slotView (spkt io (ch 'N') seq 0 none s).2 = slotView s :=
    (chores_spkt (by decide) seq 0 none s).view
  unfold nak
  dsimp only
  split
  · exact sent
  · exact sent

@[simp] theorem slotView_encstr
    (text : StrRef)
    (s : Sys ω) :
    slotView (encstr io text s).2 = slotView s :=
  (chores_encstr text s).view

@[simp] theorem slotView_callOpenf
    (name : List UInt8)
    (mode filesize : Int)
    (s : Sys ω) :
    slotView (callOpenf io name mode filesize s).2 = slotView s :=
  rfl

@[simp] theorem slotView_callAccessf
    (name : List UInt8)
    (s : Sys ω) :
    slotView (callAccessf io name s).2 = slotView s :=
  rfl

@[simp] theorem slotView_callClosef
    (c : UInt8)
    (mode : Int)
    (s : Sys ω) :
    slotView (callClosef io c mode s).2 = slotView s :=
  rfl

@[simp] theorem slotView_callGetdirdata
    (s : Sys ω) :
    slotView (callGetdirdata io s).2.2 = slotView s :=
  rfl

theorem slotView_response
    (r : KResponse)
    (s : Sys ω) :
    slotView { s with r := r } = slotView s :=
  rfl

@[simp] theorem slotView_setBct
    (bct : Nat)
    (s : Sys ω) :
    slotView (setBct bct s) = slotView s :=
  rfl

@[simp] theorem slotView_setState
    (state : State)
    (s : Sys ω) :
    slotView (setState state s) = slotView s :=
  rfl

@[simp] theorem slotView_setWhat
    (what : What)
    (s : Sys ω) :
    slotView (setWhat what s) = slotView s :=
  rfl

@[simp] theorem slotView_setType
    (type : Action)
    (s : Sys ω) :
    slotView (setType type s) = slotView s :=
  rfl

@[simp] theorem slotView_nxtpkt
    (s : Sys ω) :
    slotView (onK nxtpkt s) = slotView s :=
  rfl

@[simp] theorem slotView_spar
    (pdf : Nat)
    (datalen : Int)
    (s : Sys ω) :
    slotView (onK (spar pdf datalen) s) = slotView s :=
  rfl

@[simp] theorem slotView_mapNext
    (slot : Int)
    (s : Sys ω) :
    slotView (onK (fun k => mapSseq slot (nxtpkt k)) s) = slotView s :=
  rfl

@[simp] theorem slotView_awaitSent
    (s : Sys ω) :
    slotView (awaitSent s).2 = slotView s :=
  rfl

@[simp] theorem slotView_endInput
    (s : Sys ω) :
    slotView (endInput io s) = slotView s :=
  rfl

@[simp] theorem slotView_resetSofar
    (s : Sys ω) :
    slotView (resetSofar s) = slotView s :=
  rfl

@[simp] theorem slotView_reportFile
    (action : Action)
    (s : Sys ω) :
    slotView (reportFile action s) = slotView s := by
  unfold reportFile
  split <;> rfl

@[simp] theorem slotView_clearFile
    (s : Sys ω) :
    slotView (clearFile s) = slotView s :=
  rfl

@[simp] theorem slotView_decodeName
    (inbuf : List UInt8)
    (s : Sys ω) :
    slotView (decodeName inbuf s).2 = slotView s :=
  rfl

@[simp] theorem slotView_openOutput
    (s : Sys ω) :
    slotView (openOutput io s).2 = slotView s :=
  rfl

@[simp] theorem slotView_takeAttr
    (p : Rcvd)
    (s : Sys ω) :
    slotView (takeAttr p s) = slotView s := by
  unfold takeAttr
  dsimp only
  split <;> rfl

/-! ## Functions that empty the slot -/

theorem slotRests_put
    {k k' : KData}
    {slot : Int}
    {p : Packet}
    (window : k'.win.opktinfo = put k.win.opktinfo slot p)
    (rests :
      (heldPacket p = heldPacket (k.win.opktinfo slot) ∧
          p.rtr = (k.win.opktinfo slot).rtr) ∨
        p.len < 1) :
    SlotRests k k' := by
  unfold SlotRests
  rw [window]
  by_cases isZero : 0 = slot
  · subst isZero
    rw [put_same]
    exact rests
  · rw [put_other _ isZero]
    exact Or.inl ⟨rfl, rfl⟩

theorem slotRests_getSslot
    (k : KData) :
    SlotRests k (getSslot k).2 := by
  unfold getSslot
  split
  · exact slotRests_put rfl (Or.inr (show (-1 : Int) < 1 by decide))
  · exact Or.inl ⟨rfl, rfl⟩

theorem slotRests_freeSslot
    (slot : Int)
    (k : KData) :
    SlotRests k (freeSslot slot k) := by
  unfold freeSslot
  split
  · exact Or.inl ⟨rfl, rfl⟩
  · exact slotRests_put rfl (Or.inr (show (0 : Int) < 1 by decide))

theorem slotRests_freeSslotEascaLoop
    (count : Nat)
    (k : KData) :
    SlotRests k (freeSslotEascaLoop count k) := by
  induction count generalizing k with
  | zero =>
      exact Or.inl ⟨rfl, rfl⟩
  | succ count inductionHypothesis =>
      unfold freeSslotEascaLoop
      dsimp only
      split
      · exact Or.inl ⟨rfl, rfl⟩
      · split
        · exact Or.inl ⟨rfl, rfl⟩
        · split
          · exact Or.inl ⟨rfl, rfl⟩
          · exact (slotRests_freeSslot _ k).trans (inductionHypothesis _)

theorem unsent_acknowledge
    (slot : Int)
    (s : Sys ω) :
    Unsent s (onK (acknowledge slot) s) := by
  refine ⟨rfl, SlotRests.trans ?_ (slotRests_freeSslotEascaLoop _ _)⟩
  exact slotRests_put rfl (Or.inl ⟨rfl, rfl⟩)

theorem unsent_getSslot
    (s : Sys ω) :
    Unsent s (onK (fun k => (getSslot k).2) s) :=
  ⟨rfl, slotRests_getSslot s.k⟩

theorem unsent_takeSslot
    (s : Sys ω) :
    Unsent s (onK (fun k => (takeSslot k).2) s) :=
  ⟨rfl, slotRests_getSslot s.k⟩

theorem unsent_nextSlot
    (s : Sys ω) :
    Unsent s (onK (fun k => (takeSslot (nxtpkt k)).2) s) :=
  ⟨rfl, slotRests_getSslot (nxtpkt s.k)⟩

theorem unsent_listSlot
    (s : Sys ω) :
    Unsent s (onK (fun k => resetBct (takeSslot k).2) s) :=
  ⟨rfl, slotRests_getSslot s.k⟩

/-! ## The packets that are kept -/

/-- `spkt()` puts a packet into a free slot and sends it once. -/
theorem supplies_spkt
    (wf : Wf s.k)
    {typ : UInt8}
    (kind : isUnslotted typ = false)
    (seq len : Int)
    (text : Option (List UInt8)) :
    Supplies s (spkt io typ seq len text s).2 := by
  by_cases inRange : seq < 0 ∨ seq > 63
  · have out : (decide (seq < 0) || decide (seq > 63)) = true := by
      simpa using inRange
    unfold spkt spktWith
    rw [if_pos out]
    exact supplies_view rfl
  by_cases full : 1 ≤ (s.k.win.opktinfo 0).len
  · have taken : ¬ 0 ≤ (getSslot s.k).1 := by
      rw [getSslot_full wf.window full]
      exact show ¬ ((0 : Int) ≤ -1) by decide
    rw [spkt, spktWith_full io _ kind (by omega) (by omega) taken]
    exact Or.inl ⟨rfl, slotRests_getSslot s.k⟩
  · have free := getSslot_free wf.window (show _ < 1 by omega)
    have slot : (getSslot s.k).1 = 0 := by
      rw [free]
    have counter : ((takeSslot s.k).2.win.opktinfo 0).rtr = 0 := by
      simp [takeSslot, mapSseq, free]
    have shape :
        spktWith io (spktConfused io) typ seq len text s = _ :=
      spktWith_slotted io (spktConfused io) kind (by omega) (by omega)
        (by omega)
    have reset : ∀ count buf,
        ((filled 0 typ seq count buf (takeSslot s.k).2).win.opktinfo
          0).rtr = 0 := by
      intro count buf
      simp [filled, counter]
    unfold spkt
    rw [shape]
    dsimp only
    rw [slot]
    split
    · refine Supplies.view (Or.inr ?_) (chores_spktConfused _).view
      exact ⟨⟨[], rfl, Nat.zero_le 1⟩, reset _ _⟩
    · split
      · exact Or.inr ⟨⟨[], rfl, Nat.zero_le 1⟩, reset _ _⟩
      · refine Or.inr ⟨?_, ?_⟩
        · simp only [callTxd, keptTxds, txds, List.filter_cons]
          split
          · exact ⟨[_], rfl, Nat.le_refl 1⟩
          · exact ⟨[], rfl, Nat.zero_le 1⟩
        · simp only [callTxd, loaded, slot]
          exact reset _ _

theorem supplies_spktXdata
    (wf : Wf s.k)
    {typ : UInt8}
    (kind : isUnslotted typ = false) :
    Supplies s (spktXdata io typ s).2 :=
  supplies_spkt wf kind _ _ _

theorem supplies_rpar
    (wf : Wf s.k)
    (type : UInt8) :
    Supplies s (rpar io type s).2 := by
  have asked : Chores io s _ :=
    (chores_requestEbq s).and (chores_setBct (rparBct s.k.cfg) _)
  have unsent : Unsent s _ := .of_view asked.view
  have ready := asked.works.wf wf
  unfold rpar
  dsimp only
  generalize setBct (rparBct s.k.cfg) { s with k.par := requestEbq s.k.par } = t
    at unsent ready
  refine unsent.then (Supplies.view ?_ (slotView_setBct _ _))
  have taken : Works io t (onK (fun k => (takeSslot k).2) t) :=
    works_takeSslot t
  unfold rparSend
  dsimp only
  split
  · exact supplies_view (slotView_ack ..)
  · split
    · split
      · exact supplies_view rfl
      · exact (unsent_takeSslot t).then
          (supplies_spkt (taken.wf ready) (by decide) _ _ _)
    · exact supplies_view rfl

/-- `sdata()` sends one packet, or none when there is no data. -/
theorem supplies_sdata
    (wf : Wf s.k) :
    Supplies s (sdata io s).2 ∧
      ((sdata io s).1 = 0 → Unsent s (sdata io s).2) := by
  have packed : Wf (getpkt io s).2.k := (chores_getpkt s).works.wf wf
  have unsent : Unsent s (getpkt io s).2 := .of_view (chores_getpkt s).view
  unfold sdata
  dsimp only
  split
  · exact ⟨supplies_view rfl, fun _ => .of_view rfl⟩
  · split
    · exact ⟨Or.inl unsent, fun _ => unsent⟩
    · refine ⟨unsent.then (supplies_spkt packed (by decide) _ _ _), ?_⟩
      intro nothing
      split at nothing
      · cases nothing
      · omega

theorem supplies_sattr
    (wf : Wf s.k) :
    Supplies s (sattr io s).2 := by
  let name := (s.k.filename.map (deref s)).getD []
  let info := io.finfo s.w name s.k.par.binary
  let asked : Sys ω :=
    { s with k.par.binary := info.2.2.1, w := info.2.2.2 }
  have built : ∀ r data,
      Chores io s { asked with r := r, k := pokeXdata 0 data asked.k } := by
    intro r data
    exact ((((Chores.of (.finfo name s)).then
      (.params asked.k.par _ rfl rfl rfl)).and
        (chores_response r asked)).and (chores_pokeXdata 0 data _))
  have sent : ∀ (t : Sys ω) seq text, Chores io s t →
      Supplies s (spkt io (ch 'A') seq (-1) text
        (onK (fun k => (takeSslot k).2) t)).2 := by
    intro t seq text before
    have taken : Works io t _ := works_takeSslot t
    exact Unsent.then ((Unsent.of_view before.view).and (unsent_takeSslot t))
      (supplies_spkt (taken.wf (before.works.wf wf)) (by decide) _ _ _)
  unfold sattr
  dsimp only
  split
  · exact supplies_view (built _ _).view
  · exact sent { asked with r := _, k := pokeXdata 0 _ asked.k } _ _ (built _ _)

/-! ## The answer to DIR -/

theorem supplies_dirAckEof
    (wf : Wf s.k) :
    Supplies s (dirAckEof io s).2 := by
  have begun : Works io s _ := works_nextSlot s
  have sent := fun text =>
    (unsent_nextSlot s).then
      (@supplies_spkt _ io _ (begun.wf wf) (ch 'B') (by decide) text 0 none)
  unfold dirAckEof
  dsimp only
  split
  · exact (sent _).view (slotView_epkt _ _)
  · exact (sent _).view (slotView_setState _ _)

theorem supplies_dirAckInit
    (wf : Wf s.k) :
    Supplies s (dirAckInit io s).2 := by
  have titled : Unsent s (encstr io .obuf (putTitle s)).2 :=
    .of_view (slotView_encstr _ _)
  have put : Works io s (putTitle s) :=
    works_scratch ⟨rfl, rfl, rfl, rfl, rfl, rfl, rfl, rfl, rfl, rfl, rfl⟩
  have encoded := put.and (works_encstr .obuf (putTitle s))
  have begun := encoded.and (works_listSlot _)
  have sent :=
    (titled.and (unsent_listSlot _)).then
      (@supplies_spktXdata _ io _ (begun.wf wf) (ch 'X') (by decide))
  unfold dirAckInit
  dsimp only
  split
  · exact sent.view (slotView_epkt _ _)
  · exact sent.view (slotView_setState _ _)

theorem supplies_dirAckData
    (wf : Wf s.k) :
    Supplies s (dirAckData io s).2 := by
  have begun : Works io s _ := works_nextSlot s
  have sent := fun text =>
    (unsent_nextSlot s).then
      (@supplies_spkt _ io _ (begun.wf wf) (ch 'Z') (by decide) text 0 none)
  unfold dirAckData
  dsimp only
  split
  · exact (sent _).view (slotView_setState _ _)
  · exact (sent _).view (slotView_epkt _ _)

theorem supplies_dirAckText
    (wf : Wf s.k)
    (p : Rcvd) :
    Supplies s (dirAckText io p s).2 := by
  let noted := noteDirname p (onK (fun k => (takeSslot k).2) s)
  let listed := callGetdirdata io noted
  have asked : Unsent s listed.2.2 :=
    (unsent_takeSslot s).and (.of_view rfl)
  have copied : ∀ listing, Chores io noted (putListing p listing listed.2.2) :=
    fun listing =>
      (Chores.of (.getdirdata noted)).and
        (chores_scratch
          ⟨rfl, rfl, rfl, rfl, rfl, rfl, rfl, rfl, rfl, rfl, rfl⟩)
  have begun : Works io s noted :=
    (works_takeSslot s).and
      (works_scratch
        ⟨rfl, rfl, rfl, rfl, rfl, rfl, rfl, rfl, rfl, rfl, rfl⟩)
  unfold dirAckText
  dsimp only
  split
  · exact Supplies.view (Or.inl asked) (slotView_epkt _ _)
  · have put : Unsent s (putListing p listed.2.1 listed.2.2) :=
      asked.and (.of_view rfl)
    have ready := (begun.and (copied listed.2.1).works).wf wf
    have sent :=
      put.then (@supplies_spktXdata _ io _ ready (ch 'D') (by decide))
    split
    · exact sent.view rfl
    · exact sent.view (slotView_epkt _ _)

theorem supplies_dirAck
    (wf : Wf s.k)
    (p : Rcvd) :
    Supplies s (dirAck io p s).2 := by
  have acked := unsent_acknowledge (s.k.win.sPw p.rseq) s
  have freed : Works io s (onK (acknowledge (s.k.win.sPw p.rseq)) s) :=
    .of (.acknowledge _ s)
  have ready := freed.wf wf
  unfold dirAck
  dsimp only
  split
  · exact supplies_view rfl
  · generalize onK (acknowledge (s.k.win.sPw p.rseq)) s = t at acked ready
    split
    · exact acked.then (supplies_view rfl)
    · exact acked.then (supplies_dirAckEof ready)
    · exact acked.then (supplies_dirAckInit ready)
    · exact acked.then (supplies_dirAckData ready)
    · exact acked.then (supplies_dirAckText ready p)
    · exact Or.inl acked

/-! ## Requests -/

theorem supplies_answerRequest
    (wf : Wf s.k)
    (what : What) :
    Supplies s (answerRequest io what s).2 := by
  have listed : Chores io s { s with k.filelist := [.xdatabuf] } :=
    chores_scratch ⟨rfl, rfl, rfl, rfl, rfl, rfl, rfl, rfl, rfl, rfl, rfl⟩
  have sent := Unsent.then (.of_view listed.view)
    (@supplies_rpar _ io _ (listed.works.wf wf) (ch 'S'))
  unfold answerRequest
  dsimp only
  split
  · exact sent.view (slotView_epkt _ _)
  · exact sent.view
      ((slotView_setWhat _ _).trans (slotView_setState _ _))

theorem chores_noteRequest
    (action : Action)
    (name : List UInt8)
    (s : Sys ω) :
    Chores io s (noteRequest action name s) :=
  chores_scratch ⟨rfl, rfl, rfl, rfl, rfl, rfl, rfl, rfl, rfl, rfl, rfl⟩

theorem supplies_gPacket
    (wf : Wf s.k)
    (p : Rcvd) :
    Supplies s (gPacket io p s).2 := by
  have decoded : Chores io s (decodeName (pdfMem p s) s).2 :=
    chores_response _ s
  unfold gPacket
  dsimp only
  generalize (decodeName (pdfMem p s) s).2 = t at decoded
  split
  · exact (supplies_view decoded.view).view (slotView_epkt _ _)
  · have noted := fun name => decoded.and (chores_noteRequest .dir name t)
    exact Unsent.then (.of_view (noted _).view)
      (supplies_answerRequest ((noted _).works.wf wf) .dir)

theorem supplies_rPacket
    (wf : Wf s.k)
    (p : Rcvd) :
    Supplies s (rPacket io p s).2 := by
  have decoded : Chores io s (decodeName (pdfMem p s) s).2 :=
    chores_response _ s
  unfold rPacket
  dsimp only
  generalize (decodeName (pdfMem p s) s).2 = t at decoded
  have asked : Chores io s
      (callAccessf io (cstr (pdfMem p t))
        (noteRequest .get (cstr (pdfMem p t)) t)).2 :=
    (decoded.and (chores_noteRequest .get _ t)).then (.accessf _ _)
  generalize callAccessf io (cstr (pdfMem p t))
    (noteRequest .get (cstr (pdfMem p t)) t) = access at asked
  split
  · exact (supplies_view asked.view).view
      ((slotView_response _ _).trans (slotView_epkt _ _))
  · have sent := Unsent.then (.of_view asked.view)
      (@supplies_answerRequest _ io _ (asked.works.wf wf) .send)
    split
    · exact sent
    · exact sent.view rfl

/-! ## Sending a file -/

theorem unsent_stepBack
    (slot : Int)
    (s : Sys ω) :
    Unsent s
      (onK (fun k => freeSslot slot { k with sSeq := (k.sSeq - 1) % 64 })
        s) :=
  ⟨rfl, slotRests_freeSslot slot { s.k with sSeq := (s.k.sSeq - 1) % 64 }⟩

theorem supplies_sendRequested
    (wf : Wf s.k)
    (p : Rcvd) :
    Supplies s (sendRequested io p s).2 := by
  have advanced : Unsent s (onK nxtpkt s) := .of_view rfl
  have ready : Works io s (onK nxtpkt s) := works_nxtpkt s
  have slotted := ready.wf wf
  unfold sendRequested
  dsimp only
  generalize onK nxtpkt s = t at advanced slotted
  split
  · exact Supplies.view (Or.inl advanced) (slotView_epkt _ _)
  · have taken : Works io t (onK (fun k => (takeSslot k).2) t) :=
      works_takeSslot t
    have begun := advanced.and (unsent_takeSslot t)
    obtain ⟨sent, nothing⟩ := @supplies_sdata _ io _ (taken.wf slotted)
    split
    · exact begun.then sent
    · split
      · rename_i ended
        have closed := (begun.and (nothing ended)).and
          (.of_view (@slotView_endInput _ io _))
        exact Supplies.view (Or.inl (closed.and (unsent_stepBack _ _)))
          (slotView_awaitSent _)
      · exact (begun.then sent).view (slotView_awaitSent _)

theorem supplies_cancelSend
    (wf : Wf s.k)
    (p : Rcvd) :
    Supplies s (cancelSend io p s).2 := by
  have begun : Works io s _ :=
    (Works.of (.closef 0 1 s)).and (works_nextSlot _)
  have unsent : Unsent s _ :=
    (Unsent.of_view (@slotView_callClosef _ io 0 1 s)).and (unsent_nextSlot _)
  have ready := begun.wf wf
  unfold cancelSend
  dsimp only
  generalize
    onK (fun k => (takeSslot (nxtpkt k)).2) (callClosef io 0 1 s).2 = t
    at unsent ready
  have sent :=
    unsent.then (@supplies_spkt _ io t ready (ch 'Z') (by decide) t.k.sSeq 0
      none)
  split
  · exact sent
  · split
    · exact sent.view rfl
    · exact sent.view rfl

theorem supplies_sendFile
    (wf : Wf s.k)
    (name : StrRef)
    (rest : List StrRef) :
    Supplies s (sendFile io name rest s).2 := by
  have taken : Chores io s (takeName name rest s) :=
    chores_scratch ⟨rfl, rfl, rfl, rfl, rfl, rfl, rfl, rfl, rfl, rfl, rfl⟩
  unfold sendFile
  dsimp only
  generalize takeName name rest s = t at taken
  have asked := taken.then (.openf (deref t name) 1 t.r.filesize t)
  split
  · exact supplies_view asked.view
  · have encoded := asked.and (chores_encstr name _)
    generalize
      (encstr io name (callOpenf io (deref t name) 1 t.r.filesize t).2).2 = u
      at encoded
    have slotted : Works io u (onK (fun k => (takeSslot k).2) u) :=
      works_takeSslot u
    have sent := fun seq text =>
      ((Unsent.of_view encoded.view).and (unsent_takeSslot u)).then
        (@supplies_spkt _ io _ (slotted.wf (encoded.works.wf wf)) (ch 'F')
          (by decide) seq (-1) text)
    split
    · exact sent _ _
    · exact (sent _ _).view rfl

theorem supplies_sendBreak
    (wf : Wf s.k) :
    Supplies s (sendBreak io s).2 := by
  have named : Chores io s { s with k.filename := none } :=
    chores_scratch ⟨rfl, rfl, rfl, rfl, rfl, rfl, rfl, rfl, rfl, rfl, rfl⟩
  have slotted := named.works.and (works_takeSslot _)
  have sent := fun seq =>
    ((Unsent.of_view named.view).and (unsent_takeSslot _)).then
      (@supplies_spkt _ io _ (slotted.wf wf) (ch 'B') (by decide) seq 0 none)
  unfold sendBreak
  dsimp only
  split
  · exact Or.inl ((Unsent.of_view named.view).and (unsent_getSslot _))
  · split
    · exact sent _
    · exact (sent _).view rfl

theorem supplies_nextFile
    (wf : Wf s.k) :
    Supplies s (nextFile io s).2 := by
  have advanced : Unsent s (onK nxtpkt s) := .of_view rfl
  have ready : Works io s (onK nxtpkt s) := works_nxtpkt s
  unfold nextFile
  dsimp only
  split
  · exact advanced.then (supplies_sendFile (ready.wf wf) _ _)
  · exact advanced.then (supplies_sendBreak (ready.wf wf))

theorem supplies_firstData
    (wf : Wf s.k) :
    Supplies s (firstData io s).2 := by
  have slotted : Works io s (onK (fun k => (takeSslot k).2) s) :=
    works_takeSslot s
  have unsent := unsent_takeSslot s
  have ready := slotted.wf wf
  unfold firstData
  dsimp only
  generalize onK (fun k => (takeSslot k).2) s = t at unsent ready
  obtain ⟨sent, nothing⟩ := @supplies_sdata _ io t ready
  have worked : Works io t (sdata io t).2 := works_sdata t
  split
  · exact unsent.then sent
  · split
    · rename_i ended
      have again : Works io _ (onK (fun k => (takeSslot k).2) (sdata io t).2) :=
        works_takeSslot _
      have last := fun seq =>
        ((unsent.and (nothing ended)).and (unsent_takeSslot _)).then
          (@supplies_spkt _ io _ (again.wf (worked.wf ready)) (ch 'Z')
            (by decide) seq 0 none)
      split
      · exact last _
      · exact (last _).view
          ((slotView_awaitSent _).trans (slotView_endInput _))
    · exact (unsent.then sent).view
        ((slotView_awaitSent _).trans (slotView_setState _ _))

theorem supplies_afterFile
    (wf : Wf s.k) :
    Supplies s (afterFile io s).2 := by
  have advanced : Unsent s (onK nxtpkt s) := .of_view rfl
  have stepped : Works io s (onK nxtpkt s) := works_nxtpkt s
  have ready := stepped.wf wf
  unfold afterFile
  dsimp only
  generalize onK nxtpkt s = t at advanced ready
  split
  · have sent := advanced.then (@supplies_sattr _ io t ready)
    split
    · exact sent
    · exact sent.view rfl
  · exact advanced.then (supplies_firstData ready)

theorem supplies_afterData
    (wf : Wf s.k) :
    Supplies s (afterData io s).2 := by
  have begun :
      slotView (if s.k.state = .sAttr then setState .sData s else s) =
          slotView s ∧
        Wf (if s.k.state = .sAttr then setState .sData s else s).k := by
    split
    · exact ⟨rfl, wf.control .sData s.k.what⟩
    · exact ⟨rfl, wf⟩
  unfold afterData
  dsimp only
  generalize (if s.k.state = .sAttr then setState .sData s else s) = t
    at begun
  obtain ⟨same, slotted⟩ := begun
  have taken := Unsent.and (.of_view same) (unsent_getSslot t)
  have mapped : Works io t _ := works_advanceSlot t
  split
  · exact Or.inl taken
  · have ready := mapped.wf slotted
    have unsent := taken.and
      (.of_view (slotView_mapNext (getSslot t.k).1 _))
    generalize
      onK (fun k => mapSseq (getSslot t.k).1 (nxtpkt k))
        (onK (fun k => (getSslot k).2) t) = u at ready unsent
    obtain ⟨sent, nothing⟩ := @supplies_sdata _ io u ready
    have worked : Works io u (sdata io u).2 := works_sdata u
    split
    · exact unsent.then sent
    · split
      · rename_i ended
        have closed : Moves io (sdata io u).2 (endInput io (sdata io u).2) :=
          moves_endInput _
        have last := fun seq =>
          ((unsent.and (nothing ended)).and
            (.of_view (@slotView_endInput _ io _))).then
            (@supplies_spkt _ io _ (closed.wf (worked.wf ready)) (ch 'Z')
              (by decide) seq 0 none)
        split
        · exact last _
        · exact (last _).view rfl
      · exact (unsent.then sent).view rfl

/-! ## Retransmission -/

/-- `resend()` counts, and transmits while the limit is not exceeded. -/
theorem resent_resend
    (wf : Wf s.k)
    (seq : Int) :
    Unsent s (resend io seq s).2 ∨ Resent s (resend io seq s).2 := by
  rcases resend_one wf io seq with nothing | again
  · rw [nothing]
    exact Or.inl (.of_view rfl)
  rw [again]
  unfold resendSlot
  dsimp only
  split
  · exact Or.inl (.of_view rfl)
  · rename_i inBounds
    simp only [Bool.or_eq_true, decide_eq_true_eq, not_or] at inBounds
    split
    · exact Or.inl (.of_view rfl)
    · have full : 1 ≤ (s.k.win.opktinfo 0).len := by
        omega
      split
      · exact Or.inr
          ⟨full, rfl, rfl, [], rfl, Nat.zero_le 1, fun _ => rfl⟩
      · rename_i allowed
        refine Or.inr ⟨full, rfl, rfl, ?_⟩
        simp only [callTxd, keptTxds, txds, List.filter_cons]
        split
        · exact ⟨[_], rfl, Nat.le_refl 1, fun beyond => absurd beyond allowed⟩
        · exact ⟨[], rfl, Nat.zero_le 1, fun _ => rfl⟩

/-- What was done before the retransmission left the slot alone. -/
theorem Resent.after_view
    (same : slotView t = slotView s)
    (retry : t.k.par.retry = s.k.par.retry)
    (resent : Resent t s') :
    Resent s s' := by
  have slot : t.k.win.opktinfo 0 = s.k.win.opktinfo 0 :=
    congrArg Prod.snd same
  have log : keptTxds t.log = keptTxds s.log := congrArg Prod.fst same
  obtain ⟨full, packet, counter, sent⟩ := resent
  rw [slot] at full packet counter sent
  rw [log, retry] at sent
  exact ⟨full, packet, counter, sent⟩

/-- A retransmission after work that left the slot alone. -/
theorem resent_resendUnlessRecv
    (wf : Wf s.k)
    (before : Chores io s t) :
    Unsent s (resendUnlessRecv io t).2 ∨
      (s.k.what ≠ .recv ∧ Resent s (resendUnlessRecv io t).2) := by
  have what := before.works.control.what
  unfold resendUnlessRecv
  split
  · exact Or.inl (.of_view before.view)
  · rename_i sending
    rcases @resent_resend _ io _ (before.works.wf wf) (-1) with
      unsent | resent
    · exact Or.inl (Unsent.and (.of_view before.view) unsent)
    · refine Or.inr ⟨by rwa [what] at sending, ?_⟩
      exact resent.after_view before.view before.window.retry

/-! ## Receiving -/

theorem supplies_inWait
    (wf : Wf s.k)
    (p : Rcvd) :
    Supplies s (inWait io p s).2 ∨
      (s.k.what = .get ∧ p.rtyp ≠ ch 'S' ∧ Resent s (inWait io p s).2) := by
  have set : Works io s (onK (spar p.pdf p.datalen) s) :=
    .of (.spar p.pdf p.datalen s)
  have answered :=
    Unsent.then (.of_view (slotView_spar p.pdf p.datalen s))
      (@supplies_rpar _ io _ (set.wf wf) (ch 'Y'))
  unfold inWait
  dsimp only
  split
  · refine Or.inl ?_
    split
    · exact answered
    · split
      · exact answered.view (by simp)
      · exact answered.view (by simp)
  · rename_i other
    split
    · rename_i gets
      rcases @resent_resend _ io s wf 0 with unsent | resent
      · exact Or.inl (Or.inl unsent)
      · exact Or.inr ⟨gets, other, resent⟩
    · exact Or.inl (supplies_view (slotView_nak _ _ _))

theorem supplies_inFile
    (wf : Wf s.k)
    (p : Rcvd) :
    Supplies s (inFile io p s).2 := by
  have set : Works io s (onK (spar p.pdf p.datalen) s) :=
    .of (.spar p.pdf p.datalen s)
  have answered :=
    Unsent.then (.of_view (slotView_spar p.pdf p.datalen s))
      (@supplies_rpar _ io _ (set.wf wf) (ch 'Y'))
  unfold inFile
  dsimp only
  split
  · split
    · exact supplies_view (by simp)
    · exact supplies_view (by simp)
  · split
    · exact supplies_view (by simp)
    · split
      · exact supplies_view (by simp)
      · split
        · split
          · exact answered
          · exact answered.view (by simp)
        · exact supplies_view rfl

end Parts

section Server

variable {σ : Type}
variable {os : Os σ}
variable {s : Sys (Unix σ)}

/-- Without an output file no data is taken. -/
theorem supplies_inAttr
    (p : Rcvd) :
    Supplies s (inAttr (unixio os) p s).2 := by
  have refused : ¬ (openOutput (unixio os) s).1 = xOk :=
    show ¬ (xError = xOk) by decide
  have told : ∀ msg,
      slotView (epkt (unixio os) msg (openOutput (unixio os) s).2) =
        slotView s :=
    fun msg => slotView_epkt msg _
  unfold inAttr
  split
  · exact supplies_view ((slotView_ack _ _ _).trans (slotView_takeAttr p s))
  · split
    · unfold firstRpkt
      dsimp only
      rw [if_neg refused]
      exact supplies_view (told _)
    · split
      · unfold emptyFile
        dsimp only
        rw [if_neg refused]
        exact supplies_view (told _)
      · split
        · exact supplies_view (slotView_ack _ _ _)
        · exact supplies_view (slotView_epkt _ _)

/-- The state switcher, when no file is being written. -/
theorem supplies_stateStage
    (wf : Wf s.k)
    (notData : s.k.state ≠ .rData)
    (msg : List UInt8)
    (p : Rcvd) :
    Supplies s (stateStage (unixio os) msg p s).2 ∨
      (s.k.what = .get ∧ s.k.state = .rWait ∧ p.rtyp ≠ ch 'S' ∧
        Resent s (stateStage (unixio os) msg p s).2) := by
  unfold stateStage
  split
  · have set : Works (unixio os) s (onK (spar p.pdf p.datalen) s) :=
      .of (.spar p.pdf p.datalen s)
    exact Or.inl (Unsent.then (.of_view (slotView_spar _ _ s))
      (supplies_nextFile (set.wf wf)))
  · split
    · exact Or.inl (supplies_view rfl)
    · exact Or.inl (supplies_nextFile wf)
  · exact Or.inl (supplies_afterFile wf)
  · exact Or.inl (supplies_afterData wf)
  · exact Or.inl (supplies_afterData wf)
  · exact Or.inl (supplies_view (slotView_reportFile _ _))
  · rename_i waiting
    rcases @supplies_inWait _ (unixio os) s wf p with supplies | again
    · exact Or.inl supplies
    · exact Or.inr ⟨again.1, waiting, again.2⟩
  · exact Or.inl (supplies_inFile wf p)
  · exact Or.inl (supplies_inAttr p)
  · exact absurd ‹_› notData
  · exact Or.inl (supplies_view (slotView_epkt _ _))

/-- What a part of a call does to the slot about a packet. -/
def StageSupplies
    (p : Rcvd)
    (s : Sys (Unix σ)) : Stage (Unix σ) → Prop
  | .ret _ t =>
      Supplies s t ∨
        (s.k.what = .send ∧ p.rtyp ∉ [ch 'Y', ch 'G', ch 'R', ch 'E'] ∧
          Resent s t)
  | .go q t =>
      q = p ∧ Unsent s t ∧
        (s.k.what = .get → t = s ∧ p.rtyp ∉ [ch 'G', ch 'R', ch 'E'])

theorem supplies_sendStage
    (wf : Wf s.k)
    (sends : s.k.what = .send)
    {p : Rcvd}
    (other : p.rtyp ∉ [ch 'G', ch 'R', ch 'E']) :
    StageSupplies p s (sendStage (unixio os) p s) := by
  unfold sendStage
  dsimp only
  split
  · rename_i noAck
    split
    · exact Or.inl (supplies_sendRequested wf p)
    · rcases @resent_resend _ (unixio os) s wf p.rseq with unsent | resent
      · exact Or.inl (Or.inl unsent)
      · exact Or.inr ⟨sends, List.not_mem_cons_of_ne_of_not_mem noAck other, resent⟩
  · split
    · exact Or.inl (supplies_view rfl)
    · generalize s.k.win.sPw p.rseq = slot
      have acked : Works (unixio os) s (onK (acknowledge slot) s) :=
        .of (.acknowledge slot s)
      have unsent := unsent_acknowledge slot s
      split
      · exact Or.inl (unsent.then (supplies_cancelSend (acked.wf wf) p))
      · refine ⟨rfl, unsent.and (.of_view rfl), fun gets => ?_⟩
        rw [sends] at gets
        cases gets

theorem supplies_packetStage
    (wf : Wf s.k)
    (p : Rcvd) :
    StageSupplies p s (packetStage (unixio os) p s) := by
  unfold packetStage
  split
  · exact Or.inl (supplies_dirAck wf p)
  · split
    · exact Or.inl (supplies_view rfl)
    · split
      · exact Or.inl (supplies_gPacket wf p)
      · split
        · exact Or.inl (supplies_rPacket wf p)
        · split
          · exact Or.inl (supplies_view rfl)
          · have other : p.rtyp ∉ [ch 'G', ch 'R', ch 'E'] := by
              simp only [List.mem_cons, List.not_mem_nil, or_false, not_or]
              exact ⟨‹_›, ‹_›, ‹_›⟩
            split
            · rename_i sends
              exact supplies_sendStage wf sends other
            · exact ⟨rfl, .of_view rfl, fun _ => ⟨rfl, other⟩⟩

/-- Whether a frame makes `kermit()` send the packet in the slot again. -/
def asksAgain
    (len : Int)
    (k : KData) : Prop :=
  if len < 4 then k.what ≠ .recv
  else
    match parse k len with
    | .shortcut => False
    | .tossed => False
    | .good p _ =>
        (k.what = .send ∧ p.rtyp ∉ [ch 'Y', ch 'G', ch 'R', ch 'E']) ∨
          (k.what = .get ∧ k.state = .rWait ∧
            p.rtyp ∉ [ch 'S', ch 'G', ch 'R', ch 'E'])
    | .badHeader _ => k.what ≠ .recv
    | .badLength => k.what ≠ .recv
    | .badCheck _ => k.what ≠ .recv

instance
    (len : Int)
    (k : KData) :
    Decidable (asksAgain len k) := by
  unfold asksAgain
  split
  · infer_instance
  · split <;> infer_instance

/-- A good packet, once it is stored, up to the end of the call. -/
theorem supplies_good
    (wf : Wf s.k)
    (notData : s.k.state ≠ .rData)
    (msg : List UInt8)
    {p : Rcvd}
    (short : Short p s)
    {result : Int × Sys (Unix σ)}
    (returned :
      ∀ rc t, packetStage (unixio os) p s = .ret rc t → result = (rc, t))
    (switched :
      ∀ q t, packetStage (unixio os) p s = .go q t →
        result = stateStage (unixio os) msg q t) :
    Supplies s result.2 ∨
      (((s.k.what = .send ∧ p.rtyp ∉ [ch 'Y', ch 'G', ch 'R', ch 'E']) ∨
        (s.k.what = .get ∧ s.k.state = .rWait ∧
          p.rtyp ∉ [ch 'S', ch 'G', ch 'R', ch 'E'])) ∧
        Resent s result.2) := by
  have handled := @supplies_packetStage _ os _ wf p
  have ran : StageRan (unixio os) s _ := ran_packetStage short
  generalize packetStage (unixio os) p s = stage at *
  cases stage with
  | ret rc t =>
      rw [returned rc t rfl]
      rcases handled with supplies | ⟨sends, noAck, resent⟩
      · exact Or.inl supplies
      · exact Or.inr ⟨Or.inl ⟨sends, noAck⟩, resent⟩
  | go q t =>
      rw [switched q t rfl]
      obtain ⟨rfl, unsent, kept⟩ := handled
      have control := ran.1.control
      have still : t.k.state ≠ .rData := by
        rw [control.state]
        exact notData
      rcases @supplies_stateStage _ os t (ran.1.wf wf) still msg q with
        supplies | ⟨gets, waiting, noS, resent⟩
      · exact Or.inl (unsent.then supplies)
      · obtain ⟨rfl, other⟩ := kept (control.what ▸ gets)
        exact Or.inr
          ⟨Or.inr ⟨gets, waiting,
            List.not_mem_cons_of_ne_of_not_mem noS other⟩, resent⟩

/-- A call with a frame supplies the slot, or the frame asked for a copy. -/
theorem supplies_kermitRun
    (wf : Wf s.k)
    (notData : s.k.state ≠ .rData)
    (received : s.k.doRxd = true)
    (len : Int)
    (msg : List UInt8) :
    Supplies s (kermit (unixio os) .run len msg s).2 ∨
      (asksAgain len s.k ∧
        Resent s (kermit (unixio os) .run len msg s).2) := by
  have forced : forceBcta3 s.k = s.k := by
    simp [forceBcta3, wf.noForce]
  have stored : ∀ buf : List UInt8,
      Chores (unixio os) s { s with k.ipktbuf := buf } := by
    intro buf
    exact chores_scratch
      ⟨rfl, rfl, rfl, rfl, rfl, rfl, rfl, rfl, rfl, rfl, rfl⟩
  unfold kermit
  rw [wf.testRslots (unixio os)]
  dsimp only
  unfold kermitRun
  split
  · exact Or.inl (supplies_view rfl)
  unfold rxStage asksAgain
  rw [forced]
  by_cases few : len < 4
  · rw [if_pos few, if_pos few]
    by_cases receiving : s.k.what = .recv
    · rw [if_pos receiving]
      by_cases files : s.k.state = .rFile
      · rw [if_pos files]
        exact Or.inl (supplies_rpar wf (ch 'Y'))
      · rw [if_neg files]
        exact Or.inl (supplies_view rfl)
    · rw [if_neg receiving]
      exact (resent_resend wf (-1)).imp Or.inl (⟨receiving, ·⟩)
  · rw [if_neg few, if_neg few]
    have damaged := fun buf => resent_resendUnlessRecv wf (stored buf)
    cases parsed : parse s.k len with
    | shortcut =>
        exact Or.inl (supplies_view rfl)
    | tossed =>
        exact Or.inl (supplies_view rfl)
    | badHeader buf =>
        exact (damaged buf).imp_left Or.inl
    | badLength =>
        exact (resent_resendUnlessRecv wf .refl).imp_left Or.inl
    | badCheck buf =>
        exact (damaged buf).imp_left Or.inl
    | good p buf =>
        have same := (stored buf).view
        refine Or.imp (Unsent.then (.of_view same))
          (fun again => ⟨again.1, again.2.after_view same rfl⟩)
          (@supplies_good _ os _ ((stored buf).works.wf wf) notData msg _
            (parse_good parsed).shortText _ ?_ ?_)
        · intro rc t stage
          dsimp only
          rw [stage]
        · intro q t stage
          dsimp only
          rw [stage]

end Server

/-! ## The tally of the packet in the slot -/

/-- The packet in the slot was counted as sent again. -/
def CountedAgain
    (s s' : Sys ω) : Prop :=
  1 ≤ (s.k.win.opktinfo 0).len ∧
    heldPacket (s'.k.win.opktinfo 0) = heldPacket (s.k.win.opktinfo 0) ∧
    (s'.k.win.opktinfo 0).rtr = short ((s.k.win.opktinfo 0).rtr + 1)

/-- The slot and its counter are as they were. -/
def SlotSame
    (s s' : Sys ω) : Prop :=
  heldPacket (s'.k.win.opktinfo 0) = heldPacket (s.k.win.opktinfo 0) ∧
    (s'.k.win.opktinfo 0).rtr = (s.k.win.opktinfo 0).rtr

instance
    (s s' : Sys ω) :
    Decidable (CountedAgain s s') :=
  inferInstanceAs (Decidable (_ ∧ _))

instance
    (s s' : Sys ω) :
    Decidable (SlotSame s s') :=
  inferInstanceAs (Decidable (_ ∧ _))

/-- How many packets for the slot were handed to `txd` between two states. -/
def keptSent
    (s s' : Sys ω) : Nat :=
  (keptTxds s'.log).length - (keptTxds s.log).length

/-- How often the packet in the slot was handed to `txd`, after a turn. -/
def tallyTurn
    (s s' : Sys ω)
    (count : Nat) : Nat :=
  if CountedAgain s s' then count + keptSent s s'
  else if SlotSame s s' ∧ keptSent s s' = 0 then count
  else keptSent s s'

/-- How often the packet in the slot was handed to `txd`, after a run. -/
def tally
    (io : Io ω) : List Rx → MainVars ω → Nat → Nat
  | [], _, count => count
  | rx :: rest, v, count =>
      tally io rest (mainIter io rx v)
        (tallyTurn v.sys (mainIter io rx v).sys count)

/-- The packet was sent once, and once for each count up to the limit. -/
structure WithinLimit
    (count : Nat)
    (k : KData) : Prop where
  all : (count : Int) ≤ 1 + k.par.retry
  lower : 1 ≤ (k.win.opktinfo 0).len → 0 ≤ (k.win.opktinfo 0).rtr
  upper : 1 ≤ (k.win.opktinfo 0).len → (k.win.opktinfo 0).rtr ≤ 32767
  held :
    1 ≤ (k.win.opktinfo 0).len →
      (count : Int) ≤ 1 + (k.win.opktinfo 0).rtr

theorem keptSent_append
    {s s' : Sys ω}
    {new : List (List UInt8)}
    (sent : keptTxds s'.log = new ++ keptTxds s.log) :
    keptSent s s' = new.length := by
  simp [keptSent, sent]

theorem short_next
    {count : Int}
    (lower : 0 ≤ count)
    (below : count < 32767) :
    short (count + 1) = count + 1 := by
  unfold short Int.bmod
  dsimp only
  split <;> omega

theorem short_next_ne
    {count : Int}
    (lower : 0 ≤ count)
    (upper : count ≤ 32767) :
    short (count + 1) ≠ 0 := by
  unfold short Int.bmod
  dsimp only
  split <;> omega

section Tally

variable {s s' : Sys ω}
variable {count : Nat}

/-- What keeps the counter of a packet keeps the limit for fewer of them. -/
theorem WithinLimit.fewer
    (within : WithinLimit count s.k)
    (retry : s'.k.par.retry = s.k.par.retry)
    (rests : SlotRests s.k s'.k)
    {less : Nat}
    (bound : less ≤ count) :
    WithinLimit less s'.k := by
  have all := within.all
  have fewer : (less : Int) ≤ 1 + s'.k.par.retry := by
    rw [retry]
    omega
  rcases rests with ⟨packet, counter⟩ | emptied
  · have length : (s'.k.win.opktinfo 0).len = (s.k.win.opktinfo 0).len :=
      congrArg (·.2.2.1) packet
    refine ⟨fewer, ?_, ?_, ?_⟩
    · rw [length, counter]
      exact within.lower
    · rw [length, counter]
      exact within.upper
    · rw [length, counter]
      intro full
      have held := within.held full
      omega
  · exact ⟨fewer, fun full => by omega, fun full => by omega,
      fun full => by omega⟩

theorem WithinLimit.unsent
    (within : WithinLimit count s.k)
    (retry : s'.k.par.retry = s.k.par.retry)
    (unsent : Unsent s s') :
    WithinLimit (tallyTurn s s' count) s'.k := by
  have none : keptSent s s' = 0 := by
    simp [keptSent, unsent.sent]
  refine within.fewer retry unsent.slot ?_
  unfold tallyTurn
  rw [none]
  split
  · omega
  · split
    · omega
    · omega

theorem WithinLimit.placed
    (within : WithinLimit count s.k)
    (retries : 0 ≤ s.k.par.retry)
    (retry : s'.k.par.retry = s.k.par.retry)
    (placed : Placed s s') :
    WithinLimit (tallyTurn s s' count) s'.k := by
  obtain ⟨⟨new, sent, once⟩, counter⟩ := placed
  have number := keptSent_append sent
  have notAgain : ¬ CountedAgain s s' := by
    rintro ⟨full, -, counted⟩
    rw [counter] at counted
    exact short_next_ne (within.lower full) (within.upper full) counted.symm
  unfold tallyTurn
  rw [if_neg notAgain]
  split
  · rename_i same
    exact within.fewer retry (Or.inl same.1) (Nat.le_refl count)
  · rw [number]
    refine ⟨?_, ?_, ?_, ?_⟩
    · rw [retry]
      omega
    · omega
    · omega
    · omega

theorem WithinLimit.resent
    (within : WithinLimit count s.k)
    (fits : (s.k.win.opktinfo 0).rtr < 32767)
    (retry : s'.k.par.retry = s.k.par.retry)
    (resent : Resent s s') :
    WithinLimit (tallyTurn s s' count) s'.k := by
  obtain ⟨full, packet, counter, new, sent, once, limit⟩ := resent
  have number := keptSent_append sent
  have lower := within.lower full
  have held := within.held full
  have all := within.all
  have next := short_next lower fits
  unfold tallyTurn
  rw [if_pos ⟨full, packet, counter⟩, number]
  rw [next] at counter limit
  have spent : s.k.par.retry < (s.k.win.opktinfo 0).rtr + 1 →
      new.length = 0 := by
    intro beyond
    rw [limit beyond]
    rfl
  refine ⟨?_, ?_, ?_, ?_⟩
  · rw [retry]
    push_cast
    by_cases beyond : s.k.par.retry < (s.k.win.opktinfo 0).rtr + 1
    · have none := spent beyond
      omega
    · omega
  · omega
  · omega
  · intro _
    push_cast
    omega

/-- A call keeps the limit, unless it counts a full counter further. -/
theorem WithinLimit.turn
    (within : WithinLimit count s.k)
    (retries : 0 ≤ s.k.par.retry)
    (retry : s'.k.par.retry = s.k.par.retry)
    {asked : Prop}
    (fits :
      asked → 1 ≤ (s.k.win.opktinfo 0).len →
        (s.k.win.opktinfo 0).rtr < 32767)
    (turn : Supplies s s' ∨ (asked ∧ Resent s s')) :
    WithinLimit (tallyTurn s s' count) s'.k := by
  rcases turn with (unsent | placed) | ⟨again, resent⟩
  · exact within.unsent retry unsent
  · exact within.placed retries retry placed
  · exact within.resent (fits again resent.full) retry resent

end Tally

/-! ## Runs of the server -/

/-- A turn in which `kermit()` is asked for the packet in the slot again. -/
def Retransmits
    (rx : Rx)
    (v : MainVars ω) : Prop :=
  v.ret = none ∧ 0 ≤ rx.ret ∧ (rx.ret = 0 → v.retrycounter ≠ 0) ∧
    asksAgain rx.ret (heardSys rx v.sys).k ∧
    1 ≤ (v.sys.k.win.opktinfo 0).len

instance
    (rx : Rx)
    (v : MainVars ω) :
    Decidable (Retransmits rx v) :=
  inferInstanceAs (Decidable (_ ∧ _ ∧ (_ → _) ∧ _ ∧ _))

/-- No turn of a run counts a retransmission from 32767 on. -/
def CountersFit
    (io : Io ω) : List Rx → MainVars ω → Prop
  | [], _ => True
  | rx :: rest, v =>
      (Retransmits rx v → (v.sys.k.win.opktinfo 0).rtr < 32767) ∧
        CountersFit io rest (mainIter io rx v)

/-- `K_ERROR` leaves the slot alone. -/
theorem slotView_kermitError
    {io : Io ω}
    {s : Sys ω}
    (wf : Wf s.k)
    (len : Int)
    (msg : List UInt8) :
    slotView (kermit io .error len msg s).2 = slotView s ∧
      (kermit io .error len msg s).2.k.par.retry = s.k.par.retry := by
  have told : Chores io s (epkt io msg s) := chores_epkt msg s
  unfold kermit
  rw [wf.testRslots]
  exact ⟨told.view, told.window.retry⟩

section Runs

variable {σ : Type}
variable {os : Os σ}

/-- What is true of the server in every turn. -/
structure Limited
    (retry : Int)
    (count : Nat)
    (v : MainVars (Unix σ)) : Prop where
  watched : Watched v
  turning : v.ret = none → Turning v
  retry : v.sys.k.par.retry = retry
  within : WithinLimit count v.sys.k

theorem Limited.turn
    {retry : Int}
    (retries : 0 ≤ retry)
    {count : Nat}
    {v : MainVars (Unix σ)}
    (limited : Limited retry count v)
    {rx : Rx}
    (fits : Retransmits rx v → (v.sys.k.win.opktinfo 0).rtr < 32767) :
    Limited retry (tallyTurn v.sys (mainIter (unixio os) rx v).sys count)
      (mainIter (unixio os) rx v) := by
  have watched := @watched_mainIter _ os _ limited.watched rx
  by_cases left : v.ret ≠ none
  · rw [mainIter_left (unixio os) rx left]
    exact ⟨limited.watched, limited.turning, limited.retry,
      limited.within.unsent rfl (.of_view rfl)⟩
  have going := not_not.mp left
  have turning := limited.turning going
  have core := heardSys_core rx v.sys
  have wf : Wf (heardSys rx v.sys).k := turning.wf.scratch core (unixio os)
  have reads : (heardSys rx v.sys).k.doRxd = true :=
    ok2rxd_held turning.wf turning.held
  have within := limited.within
  have again := turning.next (unixio os) rx
  have turn := turn_cases (unixio os) turning rx
  have same := limited.retry
  generalize mainIter (unixio os) rx v = next at watched again turn
  cases turn with
  | fatal failed =>
      exact ⟨watched, again, same, within.unsent rfl (.of_view rfl)⟩
  | gaveUp silent spent =>
      obtain ⟨view, kept⟩ :=
        @slotView_kermitError _ (unixio os) _ wf 0 (lit "eksw to")
      by_cases begins : v.start = true
      · simp only [if_pos begins] at watched again ⊢
        exact ⟨watched, again, same, within.unsent rfl (.of_view rfl)⟩
      · simp only [if_neg begins] at watched again ⊢
        exact ⟨watched, again, kept.trans same,
          within.unsent kept (.of_view view)⟩
  | handled retrycounter ret counted left given =>
      have ran : Ran (unixio os) (heardSys rx v.sys) _ :=
        ran_kermitRun rx.ret [] (heardSys rx v.sys)
      have call :
          kermit (unixio os) .run rx.ret [] (heardSys rx v.sys) =
            kermitRun (unixio os) rx.ret [] (heardSys rx v.sys) := by
        unfold kermit
        rw [wf.testRslots]
      have kept :
          (kermit (unixio os) .run rx.ret [] (heardSys rx v.sys)).2.k.par.retry =
            v.sys.k.par.retry := by
        rw [call]
        exact ran.retry_kept wf
      have notData : (heardSys rx v.sys).k.state ≠ .rData :=
        limited.watched.notData
      have result := @supplies_kermitRun _ os _ wf notData reads rx.ret []
      refine ⟨watched, again, kept.trans same, ?_⟩
      have asked : asksAgain rx.ret (heardSys rx v.sys).k →
          1 ≤ (v.sys.k.win.opktinfo 0).len →
            (v.sys.k.win.opktinfo 0).rtr < 32767 :=
        fun asks full => fits ⟨going, by omega, by omega, asks, full⟩
      have positive : 0 ≤ v.sys.k.par.retry := by
        rw [same]
        exact retries
      refine within.turn positive kept asked ?_
      have heard : slotView (heardSys rx v.sys) = slotView v.sys := rfl
      rcases result with supplies | ⟨asks, resent⟩
      · exact Or.inl (Unsent.then (.of_view heard) supplies)
      · exact Or.inr ⟨asks, Resent.after_view heard rfl resent⟩

theorem Limited.run
    {retry : Int}
    (retries : 0 ≤ retry)
    {count : Nat}
    {v : MainVars (Unix σ)}
    (limited : Limited retry count v)
    (rxs : List Rx)
    (fits : CountersFit (unixio os) rxs v) :
    Limited retry (tally (unixio os) rxs v count)
      (mainLoop (unixio os) rxs v) := by
  induction rxs generalizing v count with
  | nil =>
      exact limited
  | cons rx rest inductionHypothesis =>
      exact inductionHypothesis (limited.turn retries fits.1) fits.2

end Runs

/-! ## The counter wraps around -/

/-- A server whose session has just begun, with a file to read. -/
def fileServer : MainVars (Unix (List UInt8)) :=
  mainStart (unixio fileOs) .wait []
    (ekInit (unixio fileOs) []
      { os := [], ofile := -1, ifile := false, calls := [] })

/-- A frame whose length field leaves no room for a check. -/
def garbled : Rx where
  ret := 4
  stored := [33, 32, 78, 32, 0]

/-- The server sends S again and again, for frames that are damaged. -/
structure Stuck
    (rtr : Int)
    (v : MainVars (Unix (List UInt8))) : Prop where
  going : v.ret = none
  awaiting : Awaiting v.sys.k
  sends : v.sys.k.what = .send
  state : v.sys.k.state = .sInit
  retry : v.sys.k.par.retry = 3
  kind :
    isUnslotted (frameType (slotPacket (v.sys.k.win.opktinfo 0))) = false
  counter : (v.sys.k.win.opktinfo 0).rtr = rtr

theorem parse_garbled
    {s : Sys ω}
    (state : s.k.state = .sInit)
    (sends : s.k.what = .send)
    (noForce : s.k.cfg.bcta3 = 0) :
    parse (heardSys garbled s).k 4 = .badLength := by
  have shown : ∀ index : Nat, index < 5 →
      peek (heardSys garbled s).k.ipktbuf index =
        peek garbled.stored index := by
    intro index inside
    have place :=
      @peek_poke_inside s.k.ipktbuf 0 garbled.stored index inside
    rwa [Nat.zero_add] at place
  have length : peek (heardSys garbled s).k.ipktbuf 0 = 33 :=
    shown 0 (by decide)
  have number : peek (heardSys garbled s).k.ipktbuf 1 = 32 :=
    shown 1 (by decide)
  have initial : (heardSys garbled s).k.state = .sInit := state
  have sending : (heardSys garbled s).k.what = .send := sends
  have unforced : (heardSys garbled s).k.cfg.bcta3 = 0 := noForce
  unfold parse
  dsimp only
  rw [length, number, initial, sending, if_neg (by simp),
    if_neg (by decide), if_neg (by simp), if_neg (by decide)]
  unfold parseLengths dataLength isInitial
  rw [initial, unforced]
  exact if_pos (Or.inl (by simp; decide))

/-- The call for a damaged frame counts, whatever `resend()` returns. -/
theorem Stuck.call
    {rtr : Int}
    {v : MainVars (Unix (List UInt8))}
    (stuck : Stuck rtr v) :
    kermit (unixio fileOs) .run 4 [] (heardSys garbled v.sys) =
      (xOk,
        (resendSlot (unixio fileOs) 0 (heardSys garbled v.sys)).2) := by
  have awaiting := stuck.awaiting.heard garbled
  have wf := awaiting.wf
  have received : (heardSys garbled v.sys).k.doRxd = true :=
    doRxd_awaiting stuck.awaiting
  have set : (heardSys garbled v.sys).k.state ≠ .rNone := by
    rw [show (heardSys garbled v.sys).k.state = .sInit from stuck.state]
    decide
  have sending : (heardSys garbled v.sys).k.what = .send := stuck.sends
  have forced :
      forceBcta3 (heardSys garbled v.sys).k = (heardSys garbled v.sys).k := by
    simp [forceBcta3, wf.noForce]
  have bad := parse_garbled stuck.state stuck.sends
    stuck.awaiting.wf.noForce
  have outstanding := awaiting.outstanding
  have numbered : ¬ (heardSys garbled v.sys).k.sSeq < 0 :=
    Int.not_lt.mpr outstanding.lower
  have earliest :
      (if (-1 : Int) < 0 then earliestSseq (heardSys garbled v.sys).k
        else -1) = (heardSys garbled v.sys).k.sSeq :=
    earliestSseq_current wf.window outstanding.number outstanding.lower
      awaiting.upper
  have again :
      resend (unixio fileOs) (-1) (heardSys garbled v.sys) =
        resendSlot (unixio fileOs) 0 (heardSys garbled v.sys) := by
    unfold resend
    dsimp only
    rw [earliest, if_neg numbered, outstanding.mapped]
    exact if_neg (by decide)
  unfold kermit
  rw [wf.testRslots]
  dsimp only
  unfold kermitRun
  rw [if_neg set, if_pos received]
  unfold rxStage
  rw [if_neg (by decide), bad]
  dsimp only
  rw [forced]
  unfold resendUnlessRecv
  rw [if_neg (by rw [sending]; decide), again]

/-- `resend()` of a packet with its counter, in and beyond the limit. -/
theorem resendSlot_counted
    {io : Io ω}
    {s : Sys ω}
    (wf : Wf s.k)
    (nonempty : 0 < (s.k.win.opktinfo 0).len)
    (fits : (s.k.win.opktinfo 0).len < pBuflen) :
    (resendSlot io 0 s).2.k.win.opktinfo 0 =
        { s.k.win.opktinfo 0 with
          rtr := short ((s.k.win.opktinfo 0).rtr + 1) } ∧
      txds (resendSlot io 0 s).2.log =
        (if short ((s.k.win.opktinfo 0).rtr + 1) ≤ s.k.par.retry then
          [slotPacket (s.k.win.opktinfo 0)]
        else []) ++ txds s.log := by
  have inBounds :
      ¬ ((decide ((s.k.win.opktinfo 0).len < 0) ||
        decide ((s.k.win.opktinfo 0).len ≥ pBuflen)) = true) := by
    simp only [Bool.or_eq_true, decide_eq_true_eq]
    omega
  have whole :
      (s.k.win.opktinfo 0).buf.takeD (s.k.win.opktinfo 0).len.toNat 0 =
        slotPacket (s.k.win.opktinfo 0) :=
    List.takeD_eq_take 0 (by have := wf.kept fits; omega)
  unfold resendSlot
  dsimp only
  rw [if_neg inBounds, if_neg (by omega), whole]
  split
  · rename_i beyond
    rw [if_neg (by omega)]
    exact ⟨by simp, rfl⟩
  · rename_i allowed
    rw [if_pos (by omega)]
    exact ⟨by simp [callTxd], rfl⟩

/-- Each damaged frame counts, and the packet is sent while that fits. -/
theorem Stuck.damaged
    {rtr : Int}
    {v : MainVars (Unix (List UInt8))}
    (stuck : Stuck rtr v) :
    Stuck (short (rtr + 1)) (mainIter (unixio fileOs) garbled v) ∧
      ∀ count,
        tallyTurn v.sys (mainIter (unixio fileOs) garbled v).sys count =
          count + if short (rtr + 1) ≤ 3 then 1 else 0 := by
  have awaiting := stuck.awaiting.heard garbled
  have outstanding := awaiting.outstanding
  have call := stuck.call
  have wf := @Wf.kermit _ (unixio fileOs) _ awaiting.wf .run 4 []
  obtain ⟨sys, ret⟩ :=
    mainIter_heard stuck.going (doRxd_awaiting stuck.awaiting)
      (show (4 : Int) ≤ garbled.ret by decide)
  have length : garbled.ret = 4 := rfl
  rw [length, call] at sys ret
  rw [call] at wf
  have next : (mainIter (unixio fileOs) garbled v).ret = none := ret
  obtain ⟨same, -⟩ :=
    resendSlot_undisturbed awaiting.wf (unixio fileOs)
  obtain ⟨slot, sent⟩ :=
    @resendSlot_counted _ (unixio fileOs) _ awaiting.wf outstanding.nonempty
      outstanding.fits
  have before : (heardSys garbled v.sys).k.win.opktinfo 0 =
      v.sys.k.win.opktinfo 0 := rfl
  have limit : (heardSys garbled v.sys).k.par.retry = 3 := stuck.retry
  have log : txds (heardSys garbled v.sys).log = txds v.sys.log := rfl
  rw [before, stuck.counter] at slot
  rw [before, stuck.counter, limit, log] at sent
  rw [← sys] at wf same slot sent
  have still :
      Awaiting (mainIter (unixio fileOs) garbled v).sys.k := by
    refine ⟨wf, ⟨?_, ?_, ?_, ?_, ?_⟩, ?_⟩
    · rw [slot, same.sSeq]
      exact outstanding.number
    · rw [same.sSeq]
      exact outstanding.lower
    · rw [same.sPw, same.sSeq]
      exact outstanding.mapped
    · rw [slot]
      exact outstanding.nonempty
    · rw [slot]
      exact outstanding.fits
    · rw [same.sSeq]
      exact awaiting.upper
  refine ⟨⟨next, still, same.what.trans stuck.sends,
    same.state.trans stuck.state, ?_, ?_, ?_⟩, ?_⟩
  · rw [same.par]
    exact stuck.retry
  · rw [slot]
    exact stuck.kind
  · rw [slot]
  · intro count
    have again :
        CountedAgain v.sys (mainIter (unixio fileOs) garbled v).sys := by
      refine ⟨outstanding.nonempty, ?_, ?_⟩
      · rw [slot]
        rfl
      · rw [slot, stuck.counter]
    unfold tallyTurn keptSent keptTxds
    rw [if_pos again, sent]
    split
    · simp [stuck.kind]
    · simp

/-- Below the limit of a `short` the counter grows by one for each frame. -/
theorem Stuck.run
    {rtr : Int}
    {v : MainVars (Unix (List UInt8))}
    (stuck : Stuck rtr v)
    (lower : 0 ≤ rtr)
    (number : Nat)
    (below : rtr + number ≤ 32767)
    (count : Nat) :
    Stuck (rtr + number)
        (mainLoop (unixio fileOs) (List.replicate number garbled) v) ∧
      count ≤ tally (unixio fileOs) (List.replicate number garbled) v count := by
  induction number generalizing rtr v count with
  | zero =>
      simpa [mainLoop, tally] using stuck
  | succ number inductionHypothesis =>
      obtain ⟨stuck, turned⟩ := stuck.damaged
      rw [short_next lower (by omega)] at stuck turned
      obtain ⟨later, more⟩ := inductionHypothesis stuck (by omega) (by omega)
        (tallyTurn v.sys (mainIter (unixio fileOs) garbled v).sys count)
      rw [List.replicate_succ, mainLoop_cons, tally]
      refine ⟨?_, ?_⟩
      · convert later using 1
        push_cast
        omega
      · rw [turned] at more ⊢
        omega

end Slate106.Kermit
