import Mathlib.Logic.Basic

namespace LengthPrefixed

/-!
# Fields with their length in front

A memory holds fields one after the other.  The first place of a field says
how many places follow it; a field of length zero is the end.  A walk over the
fields begins each one that is whole by the length of the memory, and goes on
to the next unless the place behind the length tells it to stop.

A field is whole here when its places without the first one number at most
what is left, so that its last place may be just outside.
-/

variable {β : Type}
variable {size : β → Nat}
variable {stops : β → Prop}
variable {memory : Nat → β}
variable {length : Nat}

/-- The place of the field behind the one at an offset. -/
def next
    (size : β → Nat)
    (memory : Nat → β)
    (offset : Nat) : Nat :=
  offset + (size (memory offset) + 1)

/-- A walk takes what is at an offset for a field. -/
structure Begins
    (size : β → Nat)
    (memory : Nat → β)
    (length offset : Nat) : Prop where
  inside : offset < length
  nonempty : size (memory offset) ≠ 0
  whole : offset + size (memory offset) ≤ length

/-- The offsets that a walk comes to. -/
inductive Visits
    (size : β → Nat)
    (stops : β → Prop)
    (memory : Nat → β)
    (length : Nat) : Nat → Nat → Prop where
  | here
      (offset : Nat) :
      Visits size stops memory length offset offset
  | onward
      {offset last : Nat}
      (begins : Begins size memory length offset)
      (other : ¬ stops (memory (offset + 1)))
      (later :
        Visits size stops memory length (next size memory offset) last) :
      Visits size stops memory length offset last

/-- What holds wherever the walk comes, field by field. -/
theorem forall_visits_iff
    {good : Nat → Prop}
    {offset : Nat} :
    (∀ last, Visits size stops memory length offset last → good last) ↔
      good offset ∧
        (Begins size memory length offset → ¬ stops (memory (offset + 1)) →
          ∀ last,
            Visits size stops memory length (next size memory offset) last →
              good last) := by
  constructor
  · intro all
    exact ⟨all offset (.here offset),
      fun begins other last later => all last (.onward begins other later)⟩
  · rintro ⟨first, others⟩ last visits
    cases visits with
    | here =>
        exact first
    | onward begins other later =>
        exact others begins other last later

/-- Where the walk does not go on, only the field itself counts. -/
theorem forall_visits_last
    {good : Nat → Prop}
    {offset : Nat}
    (ends :
      Begins size memory length offset → stops (memory (offset + 1))) :
    (∀ last, Visits size stops memory length offset last → good last) ↔
      good offset :=
  forall_visits_iff.trans
    (and_iff_left fun begins other => absurd (ends begins) other)

/-- Induction along the walk, which ends behind the memory at the latest. -/
theorem walk_induction
    {motive : Nat → Prop}
    (step :
      ∀ offset,
        (Begins size memory length offset →
          motive (next size memory offset)) →
        motive offset)
    (offset : Nat) :
    motive offset := by
  generalize left : length - offset = count
  induction count using Nat.strongRecOn generalizing offset with
  | ind count inductionHypothesis =>
      refine step offset fun begins => ?_
      have inside := begins.inside
      refine inductionHypothesis (length - next size memory offset) ?_ _ rfl
      unfold next
      omega

end LengthPrefixed
