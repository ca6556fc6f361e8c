import Slate106.KermitNak

namespace Slate106.Kermit

open CBytes

/-!
# The kinds of packets that leave a session

Which types of packets a part of a call can transmit, given the type of the
packet that is kept in the send slot for retransmission.
-/

variable {ω : Type}

/-- The type character of a transmitted packet. -/
def frameType
    (frame : List UInt8) : UInt8 :=
  peek frame 3

/-- A packet that is not kept, or one of the given types. -/
def OfKind
    (types : List UInt8)
    (frame : List UInt8) : Prop :=
  isUnslotted (frameType frame) = true ∨ frameType frame ∈ types

/-- What the send slot holds for retransmission has one of the given types. -/
def SlotKind
    (types : List UInt8)
    (k : KData) : Prop :=
  1 ≤ (k.win.opktinfo 0).len → (k.win.opktinfo 0).len < pBuflen →
    OfKind types (slotPacket (k.win.opktinfo 0))

/-- From a slot of these kinds, only packets of these kinds are sent. -/
def Emits
    (types : List UInt8)
    (s s' : Sys ω) : Prop :=
  SlotKind types s.k →
    SlotKind types s'.k ∧
      ∃ more, s'.log = more ++ s.log ∧ ∀ frame ∈ txds more, OfKind types frame

/-- What the send slot holds for retransmission satisfies a predicate. -/
def SlotFrame
    (good : List UInt8 → Prop)
    (k : KData) : Prop :=
  1 ≤ (k.win.opktinfo 0).len → (k.win.opktinfo 0).len < pBuflen →
    good (slotPacket (k.win.opktinfo 0))

/-- From a slot that satisfies it, only packets that satisfy it are sent. -/
def SendsOnly
    (good : List UInt8 → Prop)
    (s s' : Sys ω) : Prop :=
  SlotFrame good s.k →
    SlotFrame good s'.k ∧
      ∃ more, s'.log = more ++ s.log ∧ ∀ frame ∈ txds more, good frame

/-- The predicate asks nothing of packets that are not kept. -/
def Lenient
    (good : List UInt8 → Prop) : Prop :=
  ∀ frame, isUnslotted (frameType frame) = true → good frame

theorem lenient_ofKind
    (types : List UInt8) :
    Lenient (OfKind types) :=
  fun _ => Or.inl

theorem txds_append
    (first second : List Call) :
    txds (first ++ second) = txds first ++ txds second := by
  induction first with
  | nil =>
      rfl
  | cons call rest inductionHypothesis =>
      cases call <;> simp [txds, inductionHypothesis]

/-- The packets of the newer log that are not in the older one, in order. -/
def newTxds
    (before after : List Call) : List (List UInt8) :=
  (txds (after.take (after.length - before.length))).reverse

theorem newTxds_append
    (before more : List Call) :
    newTxds before (more ++ before) = (txds more).reverse := by
  simp [newTxds]

/-! ## Types of frames -/

theorem peek_take
    (memory : List UInt8)
    {count index : Nat}
    (inside : index < count) :
    peek (memory.take count) index = peek memory index := by
  simp [peek, inside]

@[simp] theorem frameType_pktFrame
    (par : Params)
    (typ : UInt8)
    (seq : Int)
    (data : List UInt8) :
    frameType (pktFrame par typ seq data) = typ := by
  unfold frameType pktFrame pktBody pktHeader
  dsimp only
  split <;> rfl

/-- The type of a packet is in its first four bytes. -/
theorem frameType_take
    (frame : List UInt8)
    {count : Nat}
    (typed : 4 ≤ count) :
    frameType (frame.take count) = frameType frame :=
  peek_take frame typed

section Parts

variable {io : Io ω}
variable {good : List UInt8 → Prop}
variable {s s' t : Sys ω}

theorem SendsOnly.refl
    (s : Sys ω) :
    SendsOnly good s s :=
  fun slot => ⟨slot, [], rfl, List.forall_mem_nil _⟩

theorem SendsOnly.and
    (first : SendsOnly good s s')
    (second : SendsOnly good s' t) :
    SendsOnly good s t := by
  intro slot
  obtain ⟨slot, before, log, frames⟩ := first slot
  obtain ⟨slot, after, log', frames'⟩ := second slot
  refine ⟨slot, after ++ before, ?_, ?_⟩
  · rw [log', log, List.append_assoc]
  · intro frame member
    rw [txds_append] at member
    rcases List.mem_append.mp member with late | early
    · exact frames' frame late
    · exact frames frame early

/-- The packet in the slot is left alone, or the slot is emptied. -/
def SlotLeft
    (k k' : KData) : Prop :=
  ((k'.win.opktinfo 0).len = (k.win.opktinfo 0).len ∧
      (k'.win.opktinfo 0).buf = (k.win.opktinfo 0).buf) ∨
    (k'.win.opktinfo 0).len < 1

theorem SlotLeft.trans
    {k k' k'' : KData}
    (first : SlotLeft k k')
    (second : SlotLeft k' k'') :
    SlotLeft k k'' := by
  rcases second with ⟨len, buf⟩ | emptied
  · rcases first with ⟨len', buf'⟩ | emptied
    · exact Or.inl ⟨len.trans len', buf.trans buf'⟩
    · exact Or.inr (len ▸ emptied)
  · exact Or.inr emptied

/-- A change of one slot, if it is the slot 0. -/
theorem slotLeft_put
    {k k' : KData}
    {slot : Int}
    {p : Packet}
    (changed : k'.win.opktinfo = put k.win.opktinfo slot p)
    (left :
      (p.len = (k.win.opktinfo slot).len ∧
          p.buf = (k.win.opktinfo slot).buf) ∨
        p.len < 1) :
    SlotLeft k k' := by
  unfold SlotLeft
  rw [changed]
  by_cases isZero : 0 = slot
  · subst isZero
    rw [put_same]
    exact left
  · rw [put_other _ isZero]
    exact Or.inl ⟨rfl, rfl⟩

/-- A change of `k_data` that leaves the slot alone, or empties it. -/
theorem sendsOnly_quiet
    (log : s'.log = s.log)
    (slot : SlotLeft s.k s'.k) :
    SendsOnly good s s' := by
  intro before
  refine ⟨?_, [], log, List.forall_mem_nil _⟩
  rcases slot with ⟨len, buf⟩ | emptied
  · unfold SlotFrame slotPacket
    rw [len, buf]
    exact before
  · intro full
    omega

theorem Chore.sendsOnly
    (lenient : Lenient good)
    (step : Chore io s s') :
    SendsOnly good s s' := by
  have same := congrFun step.window.opktinfo 0
  intro before
  refine ⟨?_, ?_⟩
  · unfold SlotFrame
    rw [same]
    exact before
  · cases step with
    | scratch same =>
        exact ⟨[], same.log, List.forall_mem_nil _⟩
    | txd par typ seq data _ kind =>
        refine ⟨[_], rfl, ?_⟩
        intro frame member
        rw [List.mem_singleton.mp member]
        apply lenient
        rw [frameType_pktFrame]
        exact kind
    | finfo | params =>
        exact ⟨[], rfl, List.forall_mem_nil _⟩
    | _ =>
        exact ⟨[_], rfl, List.forall_mem_nil _⟩

theorem Chores.sendsOnly
    (lenient : Lenient good)
    (steps : Chores io s s') :
    SendsOnly good s s' := by
  induction steps with
  | refl =>
      exact .refl s
  | tail _ step inductionHypothesis =>
      exact inductionHypothesis.and (step.sendsOnly lenient)

theorem slotLeft_getSslot
    (k : KData) :
    SlotLeft k (getSslot k).2 := by
  unfold getSslot
  split
  · exact slotLeft_put rfl (Or.inr (show (-1 : Int) < 1 by decide))
  · exact Or.inl ⟨rfl, rfl⟩

theorem sendsOnly_takeSslot
    (s : Sys ω) :
    SendsOnly good s (onK (fun k => (takeSslot k).2) s) :=
  sendsOnly_quiet rfl (slotLeft_getSslot s.k)

theorem slotLeft_freeSslot
    (slot : Int)
    (k : KData) :
    SlotLeft k (freeSslot slot k) := by
  unfold freeSslot
  split
  · exact Or.inl ⟨rfl, rfl⟩
  · exact slotLeft_put rfl (Or.inr (show (0 : Int) < 1 by decide))

theorem slotLeft_freeSslotEascaLoop
    (count : Nat)
    (k : KData) :
    SlotLeft k (freeSslotEascaLoop count k) := by
  induction count generalizing k with
  | zero =>
      exact Or.inl ⟨rfl, rfl⟩
  | succ count inductionHypothesis =>
      unfold freeSslotEascaLoop
      dsimp only
      split
      · exact Or.inl ⟨rfl, rfl⟩
      · split
        · exact Or.inl ⟨rfl, rfl⟩
        · split
          · exact Or.inl ⟨rfl, rfl⟩
          · exact (slotLeft_freeSslot _ k).trans (inductionHypothesis _)

theorem sendsOnly_acknowledge
    (slot : Int)
    (s : Sys ω) :
    SendsOnly good s (onK (acknowledge slot) s) := by
  refine sendsOnly_quiet rfl ?_
  refine SlotLeft.trans ?_ (slotLeft_freeSslotEascaLoop _ _)
  exact slotLeft_put rfl (Or.inl ⟨rfl, rfl⟩)

theorem slotFrame_filled
    {k : KData}
    (before : SlotFrame good k)
    (slot : Int)
    (typ : UInt8)
    (seq : Int)
    {count : Nat}
    {buf : List UInt8}
    (frame : good (buf.take count)) :
    SlotFrame good (filled slot typ seq count buf k) := by
  unfold SlotFrame
  simp only [filled]
  by_cases isZero : 0 = slot
  · subst isZero
    rw [put_same]
    intro _ _
    simpa only [slotPacket, Int.toNat_natCast] using frame
  · rw [put_other _ isZero]
    exact before

/--
A kept packet is sent and put into the slot; one that does not fit may leave
some of its first bytes there.
-/
theorem sendsOnly_spkt
    (lenient : Lenient good)
    {typ : UInt8}
    (kind : isUnslotted typ = false)
    (seq len : Int)
    (text : Option (List UInt8))
    (s : Sys ω)
    (frames :
      0 ≤ seq → seq ≤ 63 →
        ∀ count, 4 ≤ count →
          good ((sentFrame typ seq (spktData len text) s.k).take count)) :
    SendsOnly good s (spkt io typ seq len text s).2 := by
  by_cases inRange : seq < 0 ∨ seq > 63
  · have out : (decide (seq < 0) || decide (seq > 63)) = true := by
      simpa using inRange
    unfold spkt spktWith
    rw [if_pos out]
    exact .refl s
  have starts := frames (by omega) (by omega)
  by_cases free : 0 ≤ (getSslot s.k).1
  · have shape :
        spktWith io (spktConfused io) typ seq len text s = _ :=
      spktWith_slotted io (spktConfused io) kind (by omega) (by omega) free
    have long := le_length_pktFrame (forceBcta3 s.k).par typ seq
      (spktData len text)
    have short := length_pktFrame_le (forceBcta3 s.k).par typ seq
      (spktData len text)
    have header := length_pktHeader (inForce s.k) typ seq
      (spktData len text).length
    have roomy : (16 : Nat) ≤ pBuflen := by
      decide
    intro before
    have taken : SlotFrame good (takeSslot s.k).2 :=
      (sendsOnly_takeSslot s before).1
    unfold spkt
    rw [shape]
    dsimp only
    split
    · have front : good
          (((sentFrame typ seq (spktData len text) s.k).take
            pBuflen).take (spktData len text).length) := by
        rw [List.take_take]
        exact starts _ (by omega)
      have stored := slotFrame_filled taken (getSslot s.k).1 typ seq front
      apply (chores_spktConfused _).sendsOnly lenient
      exact stored
    · split
      · have front : good
            ((sentFrame typ seq (spktData len text) s.k ++ [0]).take
              (spktData len text).length) := by
          unfold sentFrame at *
          rw [List.take_append_of_le_length (by omega)]
          exact starts _ (by omega)
        have stored := slotFrame_filled taken (getSslot s.k).1 typ seq front
        exact ⟨stored, [], rfl, List.forall_mem_nil _⟩
      · have whole : good (sentFrame typ seq (spktData len text) s.k) := by
          have all := starts _ (show
            4 ≤ (sentFrame typ seq (spktData len text) s.k).length by
              unfold sentFrame
              omega)
          rwa [List.take_length] at all
        have stored : good
            ((sentFrame typ seq (spktData len text) s.k ++ [0]).take
              (sentFrame typ seq (spktData len text) s.k).length) := by
          rw [List.take_left]
          exact whole
        refine ⟨slotFrame_filled taken _ typ seq stored, [_], rfl, ?_⟩
        intro frame member
        rw [List.mem_singleton.mp member]
        exact whole
  · rw [spkt, spktWith_full io _ kind (by omega) (by omega) free]
    exact sendsOnly_quiet rfl (slotLeft_getSslot s.k)

/-- A predicate on the type of a packet holds of all its longer beginnings. -/
theorem sendsOnly_spkt_typed
    (lenient : Lenient good)
    {typ : UInt8}
    (kind : isUnslotted typ = false)
    (typed : ∀ frame, frameType frame = typ → good frame)
    (seq len : Int)
    (text : Option (List UInt8))
    (s : Sys ω) :
    SendsOnly good s (spkt io typ seq len text s).2 := by
  apply sendsOnly_spkt lenient kind
  intro _ _ count enough
  apply typed
  rw [frameType_take _ enough]
  exact frameType_pktFrame _ _ _ _

/-- `rpar()` for an S packet. -/
theorem sendsOnly_rpar
    (lenient : Lenient good)
    (typed : ∀ frame, frameType frame = ch 'S' → good frame)
    (s : Sys ω) :
    SendsOnly good s (rpar io (ch 'S') s).2 := by
  have asked : Chores io s _ :=
    (chores_requestEbq s).and (chores_setBct (rparBct s.k.cfg) _)
  have restored (bct : Nat) (t : Sys ω) : Chores io t (setBct bct t) :=
    chores_setBct bct t
  have sent (d : List UInt8) (t : Sys ω) :
      SendsOnly good t (rparSend io (ch 'S') d t).2 := by
    unfold rparSend
    dsimp only
    rw [if_neg (by decide), if_pos rfl]
    split
    · exact .refl t
    · exact (sendsOnly_takeSslot t).and
        (sendsOnly_spkt_typed lenient (by decide) typed _ _ _ _)
  unfold rpar
  exact ((asked.sendsOnly lenient).and (sent _ _)).and
    ((restored _ _).sendsOnly lenient)

/-- A retransmission sends what the slot holds. -/
theorem sendsOnly_resend
    (wf : Wf s.k)
    (seq : Int) :
    SendsOnly good s (resend io seq s).2 := by
  rcases resend_one wf io seq with nothing | slot
  · rw [nothing]
    exact .refl s
  · rw [slot]
    unfold resendSlot
    dsimp only
    split
    · exact sendsOnly_quiet rfl (Or.inl ⟨rfl, rfl⟩)
    · rename_i inBounds
      simp only [Bool.or_eq_true, decide_eq_true_eq, not_or] at inBounds
      split
      · exact sendsOnly_quiet rfl (Or.inl ⟨rfl, rfl⟩)
      · rename_i nonempty
        split
        · exact sendsOnly_quiet rfl (slotLeft_put rfl (Or.inl ⟨rfl, rfl⟩))
        · have stored := wf.kept (by omega)
          have whole :
              (s.k.win.opktinfo 0).buf.takeD
                  (s.k.win.opktinfo 0).len.toNat 0 =
                slotPacket (s.k.win.opktinfo 0) :=
            List.takeD_eq_take 0 (by omega)
          intro before
          rw [whole]
          have counted :
              SendsOnly good s
                { s with
                  k.win.opktinfo := put s.k.win.opktinfo 0
                    { s.k.win.opktinfo 0 with
                      rtr := short ((s.k.win.opktinfo 0).rtr + 1) } } :=
            sendsOnly_quiet rfl (slotLeft_put rfl (Or.inl ⟨rfl, rfl⟩))
          refine ⟨(counted before).1, [_], rfl, ?_⟩
          intro frame member
          rw [List.mem_singleton.mp member]
          exact before (by omega) (by omega)

/-! ## Packets of given types -/

variable {types : List UInt8}

theorem Emits.refl
    (s : Sys ω) :
    Emits types s s :=
  SendsOnly.refl s

theorem Emits.and
    (first : Emits types s s')
    (second : Emits types s' t) :
    Emits types s t :=
  SendsOnly.and first second

theorem emits_quiet
    (log : s'.log = s.log)
    (slot : SlotLeft s.k s'.k) :
    Emits types s s' :=
  sendsOnly_quiet log slot

theorem Chores.emits
    (steps : Chores io s s') :
    Emits types s s' :=
  steps.sendsOnly (lenient_ofKind types)

theorem emits_takeSslot
    (s : Sys ω) :
    Emits types s (onK (fun k => (takeSslot k).2) s) :=
  sendsOnly_takeSslot s

theorem emits_acknowledge
    (slot : Int)
    (s : Sys ω) :
    Emits types s (onK (acknowledge slot) s) :=
  sendsOnly_acknowledge slot s

/-- A packet of one of the types is of the kinds asked for. -/
theorem ofKind_listed
    {typ : UInt8}
    (listed : typ ∈ types)
    (frame : List UInt8)
    (typed : frameType frame = typ) :
    OfKind types frame := by
  apply Or.inr
  rw [typed]
  exact listed

/-- A kept packet of one of the types is sent and put into the slot. -/
theorem emits_spkt
    {typ : UInt8}
    (kind : isUnslotted typ = false)
    (listed : typ ∈ types)
    (seq len : Int)
    (text : Option (List UInt8))
    (s : Sys ω) :
    Emits types s (spkt io typ seq len text s).2 :=
  sendsOnly_spkt_typed (lenient_ofKind types) kind (ofKind_listed listed)
    seq len text s

theorem emits_rpar
    (listed : ch 'S' ∈ types)
    (s : Sys ω) :
    Emits types s (rpar io (ch 'S') s).2 :=
  sendsOnly_rpar (lenient_ofKind types) (ofKind_listed listed) s

theorem emits_resend
    (wf : Wf s.k)
    (seq : Int) :
    Emits types s (resend io seq s).2 :=
  sendsOnly_resend wf seq

end Parts

end Slate106.Kermit
