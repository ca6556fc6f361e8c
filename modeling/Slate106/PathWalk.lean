import Mathlib.Data.List.Basic

namespace PathWalk

/-!
# Relative paths in a tree of directories

A directory is the list of the names that lead to it from the top.  A path is
a list of steps; every path is as good as some steps up, followed by names.
From this form it can be seen whether the path stays in a directory.
-/

variable {β : Type}

/-- A component of a path. -/
inductive Step (β : Type) where
  | stay
  | up
  | down : β → Step β
  deriving Repr, DecidableEq

/-- One step from a directory; there is nothing above the top. -/
def Step.from
    (dir : List β) : Step β → List β
  | .stay => dir
  | .up => dir.dropLast
  | .down name => dir ++ [name]

/-- Where a path leads from a directory. -/
def walk
    (dir : List β)
    (steps : List (Step β)) : List β :=
  steps.foldl Step.from dir

@[simp] theorem walk_nil
    (dir : List β) :
    walk dir [] = dir :=
  rfl

theorem walk_append
    (dir : List β)
    (first second : List (Step β)) :
    walk dir (first ++ second) = walk (walk dir first) second :=
  List.foldl_append

/-! ## Steps up and names -/

/-- A number of steps up, and the names that follow them. -/
structure Reduced (β : Type) where
  ups : Nat
  names : List β
  deriving Repr, DecidableEq

/-- One more step: a step up takes a name away if there is one. -/
def Reduced.add
    (reduced : Reduced β) : Step β → Reduced β
  | .stay => reduced
  | .up =>
      if reduced.names.isEmpty then { reduced with ups := reduced.ups + 1 }
      else { reduced with names := reduced.names.dropLast }
  | .down name => { reduced with names := reduced.names ++ [name] }

/-- The form of a path in which no step up follows a name. -/
def reduce
    (steps : List (Step β)) : Reduced β :=
  steps.foldl Reduced.add { ups := 0, names := [] }

/-- Where a reduced path leads from a directory. -/
def Reduced.from
    (dir : List β)
    (reduced : Reduced β) : List β :=
  dir.take (dir.length - reduced.ups) ++ reduced.names

theorem Reduced.from_add
    (dir : List β)
    (reduced : Reduced β)
    (step : Step β) :
    (reduced.add step).from dir = step.from (reduced.from dir) := by
  obtain ⟨ups, names⟩ := reduced
  cases step with
  | stay =>
      rfl
  | up =>
      cases names with
      | nil =>
          show dir.take (dir.length - (ups + 1)) ++ [] =
            (dir.take (dir.length - ups) ++ []).dropLast
          rw [List.append_nil, List.append_nil, List.dropLast_eq_take,
            List.take_take, List.length_take]
          congr 1
          omega
      | cons name names =>
          show dir.take (dir.length - ups) ++ (name :: names).dropLast =
            (dir.take (dir.length - ups) ++ name :: names).dropLast
          rw [List.dropLast_append_of_ne_nil (List.cons_ne_nil name names)]
  | down name =>
      exact (List.append_assoc _ _ _).symm

/-- A path leads to where its reduced form leads. -/
theorem walk_reduce
    (dir : List β)
    (steps : List (Step β)) :
    walk dir steps = (reduce steps).from dir := by
  have general : ∀ reduced : Reduced β,
      walk (reduced.from dir) steps =
        (steps.foldl Reduced.add reduced).from dir := by
    induction steps with
    | nil =>
        exact fun _ => rfl
    | cons step steps inductionHypothesis =>
        intro reduced
        rw [List.foldl_cons, ← inductionHypothesis, Reduced.from_add]
        rfl
  have start : Reduced.from dir { ups := 0, names := [] } = dir := by
    simp [Reduced.from]
  rw [reduce, ← general, start]

/-! ## Staying in a directory -/

/-- The names lead back into every directory that the steps up have left. -/
def Reduced.Reenters
    (dir : List β)
    (reduced : Reduced β) : Prop :=
  dir.drop (dir.length - reduced.ups) <+: reduced.names

instance
    [DecidableEq β]
    (dir : List β)
    (reduced : Reduced β) :
    Decidable (reduced.Reenters dir) :=
  inferInstanceAs (Decidable (_ <+: _))

/-- A path stays in a directory if its reduced form reenters what it leaves. -/
theorem prefix_walk_iff
    (dir : List β)
    (steps : List (Step β)) :
    dir <+: walk dir steps ↔ (reduce steps).Reenters dir := by
  rw [walk_reduce]
  generalize reduce steps = reduced
  have split := List.take_append_drop (dir.length - reduced.ups) dir
  unfold Reduced.from Reduced.Reenters
  constructor
  · intro stays
    nth_rewrite 1 [← split] at stays
    exact (List.prefix_append_right_inj _).mp stays
  · intro reenters
    nth_rewrite 1 [← split]
    exact (List.prefix_append_right_inj _).mpr reenters

/-- Names only, without steps up, stay in every directory. -/
theorem prefix_walk_of_noUps
    {steps : List (Step β)}
    (noUps : Step.up ∉ steps)
    (dir : List β) :
    dir <+: walk dir steps := by
  induction steps generalizing dir with
  | nil =>
      exact List.prefix_rfl
  | cons step steps inductionHypothesis =>
      simp only [List.mem_cons, not_or] at noUps
      obtain ⟨notUp, later⟩ := noUps
      have further : step.from dir <+: walk (step.from dir) steps :=
        inductionHypothesis later _
      cases step with
      | stay =>
          exact further
      | up =>
          exact absurd rfl notUp
      | down name =>
          exact (List.prefix_append dir [name]).trans further

/-! ## Paths as strings -/

variable {α : Type}
variable [DecidableEq α]

/-- The step that a component stands for, with the character for a dot. -/
def readStep
    (dot : α)
    (name : List α) : Step (List α) :=
  if name = [] ∨ name = [dot] then .stay
  else if name = [dot, dot] then .up
  else .down name

/-- The steps of a path, with the characters for a separator and a dot. -/
def stepsOf
    (sep dot : α)
    (path : List α) : List (Step (List α)) :=
  (path.splitOn sep).map (readStep dot)

/--
What a path denotes for a process in a directory; the empty path does not
denote anything.
-/
def denotes
    (sep dot : α)
    (cwd : List (List α))
    (path : List α) : Option (List (List α)) :=
  if path = [] then none
  else
    some
      (walk (if path.head? = some sep then [] else cwd)
        (stepsOf sep dot path))

/-- A path denotes nothing, or a directory or what is below it. -/
def Under
    (sep dot : α)
    (cwd : List (List α))
    (root path : List α) : Prop :=
  ∀ place ∈ denotes sep dot cwd path,
    ∃ dir ∈ denotes sep dot cwd root, dir <+: place

/-- A path that ends with a separator leads to a directory. -/
theorem denotes_closed
    (sep dot : α)
    (cwd : List (List α))
    (front : List α) :
    ∃ dir,
      denotes sep dot cwd (front ++ [sep]) = some dir ∧
        ∀ name,
          denotes sep dot cwd (front ++ [sep] ++ name) =
            some (walk dir (stepsOf sep dot name)) := by
  let start : List (List α) :=
    if (front ++ [sep]).head? = some sep then [] else cwd
  have steps : ∀ name, stepsOf sep dot (front ++ [sep] ++ name) =
      stepsOf sep dot front ++ stepsOf sep dot name := by
    intro name
    unfold stepsOf
    rw [List.append_assoc, List.singleton_append,
      List.splitOn_append_cons_self, List.map_append]
  have close : stepsOf sep dot [] = [.stay] := by
    simp [stepsOf, readStep]
  refine ⟨walk start (stepsOf sep dot front), ?_, fun name => ?_⟩
  · have closed := steps []
    rw [List.append_nil, close] at closed
    unfold denotes
    rw [if_neg (by simp), closed, walk_append]
    rfl
  · have first : (front ++ [sep] ++ name).head? =
        (front ++ [sep]).head? := by
      cases front <;> rfl
    unfold denotes
    rw [if_neg (by simp), first, steps, walk_append]

/-- Behind a directory a name stays in it if it reenters what it leaves. -/
theorem under_append_iff
    {sep dot : α}
    {cwd : List (List α)}
    {root : List α}
    (closed : ∃ front, root = front ++ [sep])
    {dir : List (List α)}
    (rooted : denotes sep dot cwd root = some dir)
    (name : List α) :
    Under sep dot cwd root (root ++ name) ↔
      (reduce (stepsOf sep dot name)).Reenters dir := by
  obtain ⟨front, rfl⟩ := closed
  obtain ⟨dir', same, behind⟩ := denotes_closed sep dot cwd front
  obtain rfl : dir' = dir := by
    rw [same] at rooted
    exact Option.some.inj rooted
  rw [← prefix_walk_iff]
  unfold Under
  rw [behind, same]
  simp

theorem under_empty
    (sep dot : α)
    (cwd : List (List α))
    (root : List α) :
    Under sep dot cwd root [] := by
  intro place denoted
  exact nomatch denoted

/-- A component that is no step up stays below a directory. -/
theorem readStep_ne_up
    {dot : α}
    {name : List α}
    (notUp : name ≠ [dot, dot]) :
    readStep dot name ≠ .up := by
  unfold readStep
  rw [if_neg notUp]
  split
  · exact fun up => nomatch up
  · exact fun up => nomatch up

end PathWalk
