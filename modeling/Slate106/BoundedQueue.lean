import Mathlib.Data.List.Basic

namespace BoundedQueue

/-!
# Bounded queues

A queue is the list of its elements, oldest first.  An operation on a queue of
a given capacity says what entered the queue and what left it.
-/

variable {α : Type}

/-- A change of a queue: what went in at its end, what came out in front. -/
structure Change (α : Type) where
  entered : List α
  left : List α
  after : List α

/-- The elements are conserved, and the order is first in, first out. -/
structure Change.Fair
    (change : Change α)
    (capacity : Nat)
    (before : List α) : Prop where
  conserved : before ++ change.entered = change.left ++ change.after
  bounded : change.after.length ≤ capacity

/-- Append what there is room for. -/
def append
    (capacity : Nat)
    (items queue : List α) : Change α where
  entered := items.take (capacity - queue.length)
  left := []
  after := queue ++ items.take (capacity - queue.length)

/-- Take out the oldest elements. -/
def take
    (count : Nat)
    (queue : List α) : Change α where
  entered := []
  left := queue.take count
  after := queue.drop count

/-- Leave the queue as it is. -/
def keep
    (queue : List α) : Change α where
  entered := []
  left := []
  after := queue

/-- Throw the elements away. -/
def clear
    (queue : List α) : Change α where
  entered := []
  left := queue
  after := []

theorem append_fair
    {capacity : Nat}
    {queue : List α}
    (bounded : queue.length ≤ capacity)
    (items : List α) :
    (append capacity items queue).Fair capacity queue := by
  constructor
  · rfl
  · simp only [append, List.length_append, List.length_take]
    omega

theorem take_fair
    {capacity : Nat}
    {queue : List α}
    (bounded : queue.length ≤ capacity)
    (count : Nat) :
    (take count queue).Fair capacity queue := by
  constructor
  · simp [take]
  · simp only [take, List.length_drop]
    omega

theorem keep_fair
    {capacity : Nat}
    {queue : List α}
    (bounded : queue.length ≤ capacity) :
    (keep queue).Fair capacity queue := by
  constructor
  · simp [keep]
  · exact bounded

theorem clear_fair
    (capacity : Nat)
    (queue : List α) :
    (clear queue).Fair capacity queue := by
  constructor
  · simp [clear]
  · exact Nat.zero_le capacity

/-- A run of changes, from the first queue to the last. -/
inductive Run (capacity : Nat) : List α → List (Change α) → List α → Prop where
  | nil
      (queue : List α) :
      Run capacity queue [] queue
  | cons
      {queue last : List α}
      {change : Change α}
      {rest : List (Change α)}
      (fair : change.Fair capacity queue)
      (more : Run capacity change.after rest last) :
      Run capacity queue (change :: rest) last

/-- Over a run, what was there and went in is what came out and is there. -/
theorem Run.conserved
    {capacity : Nat}
    {queue last : List α}
    {changes : List (Change α)}
    (run : Run capacity queue changes last) :
    queue ++ changes.flatMap Change.entered =
      changes.flatMap Change.left ++ last := by
  induction run with
  | nil queue =>
      simp
  | cons fair more inductionHypothesis =>
      rw [List.flatMap_cons, List.flatMap_cons, ← List.append_assoc,
        fair.conserved, List.append_assoc, inductionHypothesis,
        List.append_assoc]

end BoundedQueue
