import Mathlib.Data.List.Basic

namespace RangeScan

/-!
# Reading a table page by page

The items of a table lie one behind the other on a line of keys.  A reader asks
for the items that begin in a range, is given some of the first ones, and asks
again behind the last of them until a range is empty or used up.  It reads what
the range holds, whatever the pages are.
-/

variable {α : Type}

/-- The keys that an item begins and ends with. -/
structure Keys (α : Type) where
  first : α → Nat
  last : α → Nat

/-- The items lie one behind the other. -/
structure Ordered
    (keys : Keys α)
    (items : List α) : Prop where
  proper : ∀ item ∈ items, keys.first item ≤ keys.last item
  apart : items.Pairwise fun before after => keys.last before < keys.first after

/-- The items that begin in a range. -/
def within
    (keys : Keys α)
    (low high : Nat)
    (items : List α) : List α :=
  items.filter fun item => low ≤ keys.first item ∧ keys.first item ≤ high

variable {keys : Keys α}
variable {items : List α}
variable {low high : Nat}

theorem mem_within
    {item : α} :
    item ∈ within keys low high items ↔
      item ∈ items ∧ low ≤ keys.first item ∧ keys.first item ≤ high := by
  simp [within]

theorem Ordered.sublist
    {fewer : List α}
    (ordered : Ordered keys items)
    (sublist : fewer.Sublist items) :
    Ordered keys fewer where
  proper item member := ordered.proper item (sublist.subset member)
  apart := ordered.apart.sublist sublist

theorem Ordered.within
    (ordered : Ordered keys items) :
    Ordered keys (within keys low high items) :=
  ordered.sublist List.filter_sublist

theorem Ordered.filter
    (ordered : Ordered keys items)
    (wanted : α → Bool) :
    Ordered keys (items.filter wanted) :=
  ordered.sublist List.filter_sublist

/-- A narrower range that ends at the same key. -/
theorem within_within
    {further : Nat}
    (behind : low ≤ further) :
    RangeScan.within keys further high (RangeScan.within keys low high items) =
      RangeScan.within keys further high items := by
  unfold RangeScan.within
  rw [List.filter_filter]
  congr 1
  funext item
  simp only [← Bool.decide_and, decide_eq_decide]
  omega

/-- What a page leaves is what begins behind its last item. -/
theorem Ordered.behind
    (ordered : Ordered keys items)
    {page rest : List α}
    {item : α}
    (split : RangeScan.within keys low high items = page ++ rest)
    (ends : page.getLast? = some item) :
    rest = RangeScan.within keys (keys.last item + 1) high items := by
  have among : Ordered keys (RangeScan.within keys low high items) :=
    ordered.within
  rw [split] at among
  have member : item ∈ page := List.mem_of_getLast? ends
  have here : item ∈ RangeScan.within keys low high items := by
    rw [split]
    exact List.mem_append_left rest member
  have begins := (mem_within.mp here).2.1
  have proper := among.proper item (List.mem_append_left rest member)
  obtain ⟨-, -, across⟩ := List.pairwise_append.mp among.apart
  rw [← @within_within _ keys items low high _ (by omega), split]
  unfold RangeScan.within
  rw [List.filter_append]
  have taken : page.filter (fun other => decide
      (keys.last item + 1 ≤ keys.first other ∧ keys.first other ≤ high)) =
        [] := by
    refine List.filter_eq_nil_iff.mpr fun other inPage => ?_
    obtain ⟨front, shape⟩ := List.getLast?_eq_some_iff.mp ends
    have notBehind : keys.first other ≤ keys.last item := by
      rw [shape, List.mem_append, List.mem_singleton] at inPage
      rcases inPage with before | rfl
      · have apart := (List.pairwise_append.mp among.apart).1
        rw [shape] at apart
        have gap := (List.pairwise_append.mp apart).2.2 other before item
          (List.mem_singleton_self item)
        have otherProper := among.proper other (by
          rw [shape]
          simp [before])
        omega
      · exact proper
    simp only [decide_eq_true_eq]
    omega
  have kept : rest.filter (fun other => decide
      (keys.last item + 1 ≤ keys.first other ∧ keys.first other ≤ high)) =
        rest := by
    refine List.filter_eq_self.mpr fun other inRest => ?_
    have gap := across item member other inRest
    have reached : other ∈ RangeScan.within keys low high items := by
      rw [split]
      exact List.mem_append_right page inRest
    have bounded := (mem_within.mp reached).2.2
    simp only [decide_eq_true_eq]
    omega
  rw [taken, kept, List.nil_append]

/-- Nothing begins behind the end of a range. -/
theorem within_beyond
    (beyond : high < low) :
    RangeScan.within keys low high items = [] := by
  refine List.filter_eq_nil_iff.mpr fun item _ => ?_
  simp only [decide_eq_true_eq]
  omega

/--
A reader's turns; an answer is a page, or nothing for an empty range.  The
result is `none` when the turns do not suffice or a page is empty.
-/
def scan
    (keys : Keys α)
    (high : Nat)
    (answer : Nat → Option (List α)) : Nat → Nat → Option (List α)
  | 0, _ => none
  | turns + 1, low =>
      match answer low with
      | none => some []
      | some page =>
          match page.getLast? with
          | none => none
          | some item =>
              if keys.last item < high then
                (scan keys high answer turns (keys.last item + 1)).map
                  (page ++ ·)
              else some page

/-- Every answer is empty only for an empty range, and else its front. -/
structure Serves
    (keys : Keys α)
    (items : List α)
    (high : Nat)
    (answer : Nat → Option (List α)) : Prop where
  empty :
    ∀ low, RangeScan.within keys low high items = [] → answer low = none
  page :
    ∀ low, RangeScan.within keys low high items ≠ [] →
      ∃ page, answer low = some page ∧ page ≠ [] ∧
        page <+: RangeScan.within keys low high items

/-- A page is always the front of what the range holds. -/
theorem Serves.listed
    {answer : Nat → Option (List α)}
    (serves : Serves keys items high answer)
    {page : List α}
    (answered : answer low = some page) :
    page <+: RangeScan.within keys low high items := by
  by_cases empty : RangeScan.within keys low high items = []
  · rw [serves.empty low empty] at answered
    exact absurd answered.symm (Option.some_ne_none page)
  · obtain ⟨same, here, -, front⟩ := serves.page low empty
    rw [here] at answered
    obtain rfl := Option.some.inj answered
    exact front

/-- However the pages are cut, the reader finds what begins in the range. -/
theorem Serves.scan
    {answer : Nat → Option (List α)}
    (serves : Serves keys items high answer)
    (ordered : Ordered keys items)
    {turns : Nat}
    (enough : (RangeScan.within keys low high items).length < turns) :
    RangeScan.scan keys high answer turns low =
      some (RangeScan.within keys low high items) := by
  induction turns generalizing low with
  | zero =>
      exact absurd enough (Nat.not_lt_zero _)
  | succ turns inductionHypothesis =>
      unfold RangeScan.scan
      by_cases empty : RangeScan.within keys low high items = []
      · rw [serves.empty low empty, empty]
      · obtain ⟨page, answered, nonempty, rest, split⟩ := serves.page low empty
        have ends := List.getLast?_eq_some_getLast nonempty
        generalize page.getLast nonempty = item at ends
        have remaining := ordered.behind split.symm ends
        have shorter := List.length_pos_of_ne_nil nonempty
        simp only [answered, ends]
        split
        · rw [← split, List.length_append] at enough
          rw [inductionHypothesis (by rw [← remaining]; omega), ← remaining,
            Option.map_some, split]
        · next full =>
            rw [within_beyond (by omega)] at remaining
            rw [← split, remaining, List.append_nil]

/-! ## Pages of equal units -/

/--
The first items of one size that fit into a room, in which each takes up a unit.
-/
def page
    (size : α → Nat)
    (wanted unit : Nat) : Nat → List α → List α
  | _, [] => []
  | room, item :: rest =>
      if size item = wanted ∧ unit ≤ room then
        item :: page size wanted unit (room - unit) rest
      else []

variable {size : α → Nat}
variable {wanted unit : Nat}

theorem page_front
    (room : Nat)
    (items : List α) :
    page size wanted unit room items <+: items := by
  induction items generalizing room with
  | nil =>
      exact List.nil_prefix
  | cons item rest inductionHypothesis =>
      unfold page
      split
      · exact (List.prefix_cons_inj item).mpr (inductionHypothesis _)
      · exact List.nil_prefix

theorem size_of_mem_page
    {room : Nat}
    {item : α}
    (member : item ∈ page size wanted unit room items) :
    size item = wanted := by
  induction items generalizing room with
  | nil =>
      exact absurd member List.not_mem_nil
  | cons first rest inductionHypothesis =>
      unfold page at member
      split at member
      · next fits =>
          rcases List.mem_cons.mp member with rfl | later
          · exact fits.1
          · exact inductionHypothesis later
      · exact absurd member List.not_mem_nil

/--
A page whose first item decides about the size of the others; a unit is a size
and an overhead.
-/
def frontPage
    (wanted size : α → Nat)
    (overhead room : Nat) : List α → Option (List α)
  | [] => none
  | item :: rest =>
      some
        (item :: page size (wanted item) (wanted item + overhead)
          (room - (wanted item + overhead)) rest)

/-- What the items of a page are. -/
theorem mem_frontPage
    {wanted : α → Nat}
    {overhead room : Nat}
    {first item : α}
    {rest : List α}
    (member :
      item ∈ first :: page size (wanted first) (wanted first + overhead) room
        rest) :
    item = first ∨ item ∈ rest ∧ size item = wanted first := by
  rcases List.mem_cons.mp member with here | later
  · exact .inl here
  · exact .inr ⟨(page_front room rest).subset later,
      size_of_mem_page later⟩

theorem frontPage_serves
    (wanted size : α → Nat)
    (overhead room : Nat) :
    Serves keys items high fun low =>
      frontPage wanted size overhead room (within keys low high items) where
  empty low empty := by
    rw [empty]
    rfl
  page low some := by
    obtain ⟨item, rest, shape⟩ := List.exists_cons_of_ne_nil some
    rw [shape]
    exact ⟨_, rfl, List.cons_ne_nil _ _,
      (List.prefix_cons_inj item).mpr (page_front _ rest)⟩

end RangeScan
