import Mathlib.Data.List.Basic

namespace LossyLink

/-!
# A link that loses packets

A sender with one packet outstanding, a receiver that answers what it has
accepted, and a link that keeps the order in both directions and may lose
anything.  A packet is told from the one before it by a number modulo at least
two.  Whatever is lost or comes twice, the receiver has accepted what was sent,
up to the outstanding packet.
-/

variable {φ β : Type}

/--
How packets are numbered and answered.  After a closing packet at most one more
is sent, and a receiver that has accepted it may answer anything.
-/
structure Protocol (φ β : Type) where
  number : φ → Int
  answered : β → Int
  answers : β → φ → Prop
  closing : φ → Prop
  modulus : Int
  wide : 1 < modulus
  agrees :
    ∀ {answer : β} {packet : φ},
      answers answer packet → answered answer = number packet

/--
The packets that were sent for the first time and those that were accepted,
newest first; the packets and the answers in flight, oldest first.
-/
structure Link (φ β : Type) where
  sent : List φ
  down : List φ
  accepted : List φ
  up : List β

/-- The first packet has been sent. -/
def started
    (packet : φ) : Link φ β where
  sent := [packet]
  down := [packet]
  accepted := []
  up := []

variable {protocol : Protocol φ β}
variable {l l' : Link φ β}

/-- The closing packet has been accepted. -/
def Closed
    (protocol : Protocol φ β)
    (l : Link φ β) : Prop :=
  ∃ packet ∈ l.accepted, protocol.closing packet

/-- A number follows the one of the packet that was accepted last. -/
def Fresh
    (protocol : Protocol φ β)
    (packet : φ)
    (l : Link φ β) : Prop :=
  ∀ last rest, l.accepted = last :: rest →
    protocol.number packet =
      (protocol.number last + 1) % protocol.modulus

/-- One step of the sender, the receiver or the link. -/
inductive Step
    (protocol : Protocol φ β) : Link φ β → Link φ β → Prop where
  | again
      {l : Link φ β}
      {packet : φ}
      {rest : List φ}
      (outstanding : l.sent = packet :: rest) :
      Step protocol l { l with down := l.down ++ [packet] }
  | next
      {l : Link φ β}
      {packet new : φ}
      {rest : List φ}
      {answer : β}
      {up : List β}
      (outstanding : l.sent = packet :: rest)
      (arrives : l.up = answer :: up)
      (same : protocol.answered answer = protocol.number packet)
      (follows :
        protocol.number new =
          (protocol.number packet + 1) % protocol.modulus)
      (unclosed : ∀ earlier ∈ rest, ¬ protocol.closing earlier) :
      Step protocol l
        { l with
          sent := new :: packet :: rest
          down := l.down ++ [new]
          up := up }
  | lose
      {l : Link φ β}
      {down : List φ}
      {up : List β}
      (fewer : down.Sublist l.down)
      (fewerAnswers : up.Sublist l.up) :
      Step protocol l { l with down := down, up := up }
  | accept
      {l : Link φ β}
      {packet : φ}
      {down : List φ}
      {answer : β}
      (arrives : l.down = packet :: down)
      (fresh : Fresh protocol packet l)
      (answers : protocol.answers answer packet) :
      Step protocol l
        { l with
          down := down
          accepted := packet :: l.accepted
          up := l.up ++ [answer] }
  | answer
      {l : Link φ β}
      {last : φ}
      {rest : List φ}
      {answer : β}
      (accepted : l.accepted = last :: rest)
      (answers : protocol.answers answer last) :
      Step protocol l { l with up := l.up ++ [answer] }
  | stray
      {l : Link φ β}
      (closed : Closed protocol l)
      (answer : β) :
      Step protocol l { l with up := l.up ++ [answer] }

/-- The steps from one state of the link to another. -/
inductive Run
    (protocol : Protocol φ β) : Link φ β → Link φ β → Prop where
  | refl
      (l : Link φ β) :
      Run protocol l l
  | snoc
      {l m n : Link φ β}
      (earlier : Run protocol l m)
      (step : Step protocol m n) :
      Run protocol l n

theorem Run.trans
    {m : Link φ β}
    (first : Run protocol l m)
    (second : Run protocol m l') :
    Run protocol l l' := by
  induction second with
  | refl =>
      exact first
  | snoc _ step inductionHypothesis =>
      exact .snoc inductionHypothesis step

/-! ## What every step keeps -/

/-- First copies of the packet accepted last, then of the outstanding one. -/
structure Flight
    (l : Link φ β)
    (old new : List φ) : Prop where
  down : l.down = old ++ new
  old :
    ∀ packet ∈ old, ∃ outstanding rest,
      l.accepted = packet :: rest ∧ l.sent = outstanding :: l.accepted
  new : ∀ packet ∈ new, ∃ rest, l.sent = packet :: rest

/-- First answers to the packet before the outstanding one, then to it. -/
structure Answers
    (protocol : Protocol φ β)
    (l : Link φ β)
    (old new : List β) : Prop where
  up : l.up = old ++ new
  old :
    ∀ answer ∈ old, ∃ outstanding last rest,
      l.sent = outstanding :: last :: rest ∧ protocol.answers answer last
  new :
    ∀ answer ∈ new, ∃ outstanding rest,
      l.sent = outstanding :: rest ∧ l.accepted = l.sent ∧
        protocol.answers answer outstanding

/-- What holds of a link at any time. -/
structure Safe
    (protocol : Protocol φ β)
    (l : Link φ β) : Prop where
  numbered :
    l.sent.IsChain fun later earlier =>
      protocol.number later =
        (protocol.number earlier + 1) % protocol.modulus
  ahead : l.sent = l.accepted ∨ ∃ packet, l.sent = packet :: l.accepted
  flight : ∃ old new, Flight l old new
  answers : Closed protocol l ∨ ∃ old new, Answers protocol l old new
  closes : ∀ earlier ∈ l.sent.drop 2, ¬ protocol.closing earlier

theorem safe_started
    (packet : φ) :
    Safe protocol (started packet) where
  numbered := .singleton packet
  ahead := .inr ⟨packet, rfl⟩
  flight :=
    ⟨[], [packet], rfl, by simp,
      fun _ member => ⟨[], by rw [List.mem_singleton.mp member]; rfl⟩⟩
  answers := .inr ⟨[], [], rfl, by simp, by simp⟩
  closes := by simp [started]

/-- A number differs from the one that follows it. -/
theorem Protocol.number_ne
    (protocol : Protocol φ β)
    {number : Int}
    (follows : number = (number + 1) % protocol.modulus) :
    False := by
  have wide := protocol.wide
  have lower := Int.emod_nonneg (number + 1)
    (show protocol.modulus ≠ 0 by omega)
  have upper := Int.emod_lt_of_pos (number + 1)
    (show 0 < protocol.modulus by omega)
  by_cases last : number + 1 = protocol.modulus
  · rw [last, Int.emod_self] at follows
    omega
  · rw [Int.emod_eq_of_lt (by omega) (by omega)] at follows
    omega

/-- What the receiver has accepted is what was sent, but for one packet. -/
theorem Safe.suffix
    (safe : Safe protocol l) :
    l.accepted <:+ l.sent := by
  rcases safe.ahead with same | ⟨packet, one⟩
  · exact ⟨[], same.symm⟩
  · exact ⟨[packet], one.symm⟩

/-- What arrives is the packet accepted last or the one outstanding. -/
theorem Safe.arrives
    (safe : Safe protocol l)
    {packet : φ}
    {down : List φ}
    (arrives : l.down = packet :: down) :
    (∃ rest, l.accepted = packet :: rest) ∨
      l.sent = packet :: l.accepted := by
  obtain ⟨old, new, flight⟩ := safe.flight
  have split := flight.down
  rw [arrives] at split
  cases old with
  | cons first old =>
      obtain ⟨rfl, -⟩ := List.cons.inj split
      obtain ⟨_, rest, accepted, -⟩ := flight.old packet List.mem_cons_self
      exact .inl ⟨rest, accepted⟩
  | nil =>
      rw [List.nil_append] at split
      obtain ⟨rest, sent⟩ := flight.new packet (split ▸ List.mem_cons_self)
      rcases safe.ahead with same | ⟨outstanding, one⟩
      · exact .inl ⟨rest, same ▸ sent⟩
      · obtain ⟨rfl, -⟩ := List.cons.inj (one.symm.trans sent)
        exact .inr one

/-- The packet that was accepted last is not fresh. -/
theorem Fresh.not_last
    {packet : φ}
    {rest : List φ}
    (fresh : Fresh protocol packet l)
    (accepted : l.accepted = packet :: rest) :
    False :=
  protocol.number_ne (fresh packet rest accepted)

/-- A fresh packet is the one outstanding. -/
theorem Safe.fresh
    (safe : Safe protocol l)
    {packet : φ}
    {down : List φ}
    (arrives : l.down = packet :: down)
    (fresh : Fresh protocol packet l) :
    l.sent = packet :: l.accepted :=
  (safe.arrives arrives).resolve_left fun ⟨_, accepted⟩ =>
    fresh.not_last accepted

/-- The outstanding packet, if it was not accepted, follows the last one. -/
theorem Safe.follows
    (safe : Safe protocol l)
    {packet : φ}
    (sent : l.sent = packet :: l.accepted) :
    Fresh protocol packet l := by
  intro last rest accepted
  have numbered := safe.numbered
  rw [sent, accepted] at numbered
  exact (List.isChain_cons_cons.mp numbered).1

/-- Once the number of the outstanding packet is answered, it was accepted. -/
theorem Safe.answered
    (safe : Safe protocol l)
    {outstanding : φ}
    {rest : List φ}
    (sent : l.sent = outstanding :: rest)
    {answer : β}
    {up : List β}
    (arrives : l.up = answer :: up)
    (same : protocol.answered answer = protocol.number outstanding) :
    Closed protocol l ∨
      l.accepted = l.sent ∧ protocol.answers answer outstanding ∧
        ∀ answer ∈ up, protocol.answers answer outstanding := by
  rcases safe.answers with closed | ⟨old, new, answers⟩
  · exact .inl closed
  · have split := answers.up
    rw [arrives] at split
    have all : ∀ answer ∈ new,
        l.accepted = l.sent ∧ protocol.answers answer outstanding := by
      intro answer member
      obtain ⟨_, _, head, accepted, answered⟩ := answers.new answer member
      obtain ⟨rfl, -⟩ := List.cons.inj (head.symm.trans sent)
      exact ⟨accepted, answered⟩
    cases old with
    | cons first old =>
        obtain ⟨rfl, -⟩ := List.cons.inj split
        obtain ⟨_, last, _, shape, answered⟩ :=
          answers.old answer List.mem_cons_self
        obtain ⟨rfl, -⟩ := List.cons.inj (shape.symm.trans sent)
        have numbered := safe.numbered
        rw [shape] at numbered
        have follows := (List.isChain_cons_cons.mp numbered).1
        rw [← same, protocol.agrees answered] at follows
        exact absurd follows fun follows => protocol.number_ne follows
    | nil =>
        rw [List.nil_append] at split
        obtain ⟨accepted, answered⟩ :=
          all answer (split ▸ List.mem_cons_self)
        exact .inr ⟨accepted, answered, fun later member =>
          (all later (split ▸ List.mem_cons_of_mem _ member)).2⟩

/-- Copies of the outstanding packet, when it has been accepted. -/
theorem Flight.copies
    {old new : List φ}
    (flight : Flight l old new)
    (accepted : l.accepted = l.sent) :
    l.down = new := by
  cases old with
  | nil =>
      exact flight.down
  | cons first old =>
      obtain ⟨_, _, -, ahead⟩ := flight.old first List.mem_cons_self
      have length := congrArg List.length (accepted.trans ahead)
      simp at length

/-- No answers to the outstanding packet, when it was not accepted. -/
theorem Answers.early
    {old new : List β}
    (answers : Answers protocol l old new)
    {packet : φ}
    (ahead : l.sent = packet :: l.accepted) :
    new = [] := by
  cases new with
  | nil =>
      rfl
  | cons first new =>
      obtain ⟨_, _, -, accepted, -⟩ := answers.new first List.mem_cons_self
      have length := congrArg List.length (accepted.trans ahead)
      simp at length

/-- Before anything is accepted there are no answers. -/
theorem Safe.quiet
    (safe : Safe protocol l)
    (nothing : l.accepted = []) :
    l.up = [] := by
  rcases safe.answers with ⟨_, member, -⟩ | ⟨old, new, answers⟩
  · rw [nothing] at member
    exact absurd member List.not_mem_nil
  · rw [answers.up]
    refine List.append_eq_nil_iff.mpr
      ⟨List.eq_nil_iff_forall_not_mem.mpr fun answer member => ?_,
        List.eq_nil_iff_forall_not_mem.mpr fun answer member => ?_⟩
    · obtain ⟨_, _, _, sent, -⟩ := answers.old answer member
      rcases safe.ahead with same | ⟨_, one⟩
      · rw [nothing, sent] at same
        exact absurd same (List.cons_ne_nil _ _)
      · rw [nothing, sent] at one
        exact absurd (List.cons.inj one).2 (List.cons_ne_nil _ _)
    · obtain ⟨_, _, sent, accepted, -⟩ := answers.new answer member
      rw [nothing, sent] at accepted
      exact absurd accepted.symm (List.cons_ne_nil _ _)

section Steps

variable {packet new : φ}
variable {rest : List φ}

theorem Safe.again
    (safe : Safe protocol l)
    (outstanding : l.sent = packet :: rest) :
    Safe protocol { l with down := l.down ++ [packet] } := by
  obtain ⟨old, new, down, before, current⟩ := safe.flight
  refine ⟨safe.numbered, safe.ahead,
    ⟨old, new ++ [packet], ?_, before, fun copy member => ?_⟩, ?_,
    safe.closes⟩
  · show l.down ++ [packet] = _
    rw [down, List.append_assoc]
  · rcases List.mem_append.mp member with member | member
    · exact current copy member
    · rw [List.mem_singleton.mp member]
      exact ⟨rest, outstanding⟩
  · rcases safe.answers with closed | ⟨first, second, answers⟩
    · exact .inl closed
    · exact .inr ⟨first, second, answers.up, answers.old, answers.new⟩

/-- The answered packet had been accepted. -/
theorem Safe.caughtUp
    (safe : Safe protocol l)
    (outstanding : l.sent = packet :: rest)
    {answer : β}
    {up : List β}
    (arrives : l.up = answer :: up)
    (same : protocol.answered answer = protocol.number packet)
    (unclosed : ∀ earlier ∈ rest, ¬ protocol.closing earlier) :
    l.accepted = l.sent := by
  rcases safe.answered outstanding arrives same with
    ⟨closing, member, closes⟩ | ⟨accepted, -⟩
  · rcases safe.ahead with same | ⟨_, one⟩
    · exact same.symm
    · obtain ⟨-, behind⟩ := List.cons.inj (outstanding.symm.trans one)
      exact absurd closes (unclosed closing (behind ▸ member))
  · exact accepted

theorem Safe.next
    (safe : Safe protocol l)
    (outstanding : l.sent = packet :: rest)
    {answer : β}
    {up : List β}
    (arrives : l.up = answer :: up)
    (same : protocol.answered answer = protocol.number packet)
    (follows :
      protocol.number new =
        (protocol.number packet + 1) % protocol.modulus)
    (unclosed : ∀ earlier ∈ rest, ¬ protocol.closing earlier) :
    Safe protocol
      { l with
        sent := new :: packet :: rest
        down := l.down ++ [new]
        up := up } := by
  have accepted := safe.caughtUp outstanding arrives same unclosed
  have now : l.accepted = packet :: rest := accepted.trans outstanding
  obtain ⟨old, copies, flight⟩ := safe.flight
  refine ⟨?_, .inr ⟨new, ?_⟩, ⟨l.down, [new], rfl, ?_, ?_⟩, ?_, unclosed⟩
  · have numbered := safe.numbered
    rw [outstanding] at numbered
    exact List.isChain_cons_cons.mpr ⟨follows, numbered⟩
  · rw [now]
  · intro copy member
    rw [flight.copies accepted] at member
    obtain ⟨_, shape⟩ := flight.new copy member
    obtain ⟨rfl, rfl⟩ := List.cons.inj (outstanding.symm.trans shape)
    exact ⟨new, _, now, by rw [now]⟩
  · intro copy member
    rw [List.mem_singleton.mp member]
    exact ⟨_, rfl⟩
  · rcases safe.answered outstanding arrives same with
      closed | ⟨-, -, answers⟩
    · exact .inl closed
    · exact .inr ⟨up, [], (List.append_nil _).symm,
        fun later member => ⟨new, packet, rest, rfl, answers later member⟩,
        by simp⟩

theorem Safe.lose
    (safe : Safe protocol l)
    {down : List φ}
    {up : List β}
    (fewer : down.Sublist l.down)
    (fewerAnswers : up.Sublist l.up) :
    Safe protocol { l with down := down, up := up } := by
  refine ⟨safe.numbered, safe.ahead, ?_, ?_, safe.closes⟩
  · obtain ⟨old, new, split, before, current⟩ := safe.flight
    rw [split] at fewer
    obtain ⟨old', new', rfl, fewerOld, fewerNew⟩ :=
      List.sublist_append_iff.mp fewer
    exact ⟨old', new', rfl,
      fun copy member => before copy (fewerOld.subset member),
      fun copy member => current copy (fewerNew.subset member)⟩
  · rcases safe.answers with closed | ⟨old, new, split, before, current⟩
    · exact .inl closed
    · rw [split] at fewerAnswers
      obtain ⟨old', new', rfl, fewerOld, fewerNew⟩ :=
        List.sublist_append_iff.mp fewerAnswers
      exact .inr ⟨old', new', rfl,
        fun answer member => before answer (fewerOld.subset member),
        fun answer member => current answer (fewerNew.subset member)⟩

theorem Safe.accept
    (safe : Safe protocol l)
    {down : List φ}
    {answer : β}
    (arrives : l.down = packet :: down)
    (fresh : Fresh protocol packet l)
    (answers : protocol.answers answer packet) :
    Safe protocol
      { l with
        down := down
        accepted := packet :: l.accepted
        up := l.up ++ [answer] } := by
  have sent := safe.fresh arrives fresh
  refine ⟨safe.numbered, .inl sent, ⟨[], down, rfl, by simp, ?_⟩, ?_,
    safe.closes⟩
  · obtain ⟨old, new, split, before, current⟩ := safe.flight
    rw [arrives] at split
    cases old with
    | cons first old =>
        obtain ⟨rfl, -⟩ := List.cons.inj split
        obtain ⟨_, _, accepted, -⟩ := before packet List.mem_cons_self
        exact absurd accepted fun accepted => fresh.not_last accepted
    | nil =>
        intro copy member
        exact current copy (by
          rw [← List.nil_append new, ← split]
          exact List.mem_cons_of_mem _ member)
  · rcases safe.answers with
      ⟨closing, member, closes⟩ | ⟨old, new, earlier⟩
    · exact .inl ⟨closing, List.mem_cons_of_mem _ member, closes⟩
    · have none := earlier.early sent
      subst none
      refine .inr ⟨old, [answer], ?_, earlier.old, fun one member => ?_⟩
      · show l.up ++ [answer] = _
        rw [earlier.up, List.append_nil]
      · rw [List.mem_singleton.mp member]
        exact ⟨packet, _, sent, sent.symm, answers⟩

theorem Safe.answer
    (safe : Safe protocol l)
    {last : φ}
    {answer : β}
    (accepted : l.accepted = last :: rest)
    (answers : protocol.answers answer last) :
    Safe protocol { l with up := l.up ++ [answer] } := by
  obtain ⟨old, new, down, before, current⟩ := safe.flight
  refine ⟨safe.numbered, safe.ahead, ⟨old, new, down, before, current⟩, ?_,
    safe.closes⟩
  rcases safe.answers with closed | ⟨first, second, earlier⟩
  · exact .inl closed
  rcases safe.ahead with same | ⟨packet, one⟩
  · refine .inr ⟨first, second ++ [answer], ?_, earlier.old,
      fun one member => ?_⟩
    · show l.up ++ [answer] = _
      rw [earlier.up, List.append_assoc]
    · rcases List.mem_append.mp member with member | member
      · exact earlier.new one member
      · rw [List.mem_singleton.mp member]
        exact ⟨last, rest, same.trans accepted, same.symm, answers⟩
  · have none := earlier.early one
    subst none
    refine .inr ⟨first ++ [answer], [], ?_, fun other member => ?_, by simp⟩
    · show l.up ++ [answer] = _
      rw [earlier.up, List.append_nil, List.append_nil]
    · rcases List.mem_append.mp member with member | member
      · exact earlier.old other member
      · rw [List.mem_singleton.mp member]
        exact ⟨packet, last, rest, by rw [← accepted]; exact one, answers⟩

theorem Safe.stray
    (safe : Safe protocol l)
    (closed : Closed protocol l)
    (answer : β) :
    Safe protocol { l with up := l.up ++ [answer] } := by
  obtain ⟨old, new, down, before, current⟩ := safe.flight
  exact ⟨safe.numbered, safe.ahead, ⟨old, new, down, before, current⟩,
    .inl closed, safe.closes⟩

end Steps

theorem Safe.step
    (safe : Safe protocol l)
    (step : Step protocol l l') :
    Safe protocol l' := by
  cases step with
  | again outstanding =>
      exact safe.again outstanding
  | next outstanding arrives same follows unclosed =>
      exact safe.next outstanding arrives same follows unclosed
  | lose fewer fewerAnswers =>
      exact safe.lose fewer fewerAnswers
  | accept arrives fresh answers =>
      exact safe.accept arrives fresh answers
  | answer accepted answers =>
      exact safe.answer accepted answers
  | stray closed answer =>
      exact safe.stray closed answer

/-- Whatever is lost, the link stays safe. -/
theorem Run.safe
    (run : Run protocol l l')
    (safe : Safe protocol l) :
    Safe protocol l' := by
  induction run with
  | refl =>
      exact safe
  | snoc _ step inductionHypothesis =>
      exact inductionHypothesis.step step

end LossyLink
