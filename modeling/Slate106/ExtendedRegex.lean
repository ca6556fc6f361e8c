import Mathlib.Data.List.Basic

namespace ExtendedRegex

/-!
# Extended regular expressions

Brackets, anchors, concatenation, alternation and a fixed number of
repetitions, with the meaning that a pattern has between two places of a text.
`ends` computes the places where a match can end, and `search` looks for a
match anywhere; both agree with the meaning.
-/

variable {α : Type}

/-- An extended regular expression over an alphabet. -/
inductive Regex (α : Type) where
  | bracket : (α → Bool) → Regex α
  | bol
  | eol
  | seq : Regex α → Regex α → Regex α
  | alt : Regex α → Regex α → Regex α
  | times : Regex α → Nat → Regex α

/-- A number of steps, one after the other. -/
def Repeats
    (step : Nat → Nat → Prop) : Nat → Nat → Nat → Prop
  | 0, start, finish => finish = start
  | count + 1, start, finish =>
      ∃ middle, step start middle ∧ Repeats step count middle finish

/-- The text between two places matches. -/
def Matches
    (text : List α) : Regex α → Nat → Nat → Prop
  | .bracket accepts, start, finish =>
      ∃ c, text[start]? = some c ∧ accepts c = true ∧ finish = start + 1
  | .bol, start, finish => start = 0 ∧ finish = start
  | .eol, start, finish => start = text.length ∧ finish = start
  | .seq first second, start, finish =>
      ∃ middle, Matches text first start middle ∧
        Matches text second middle finish
  | .alt first second, start, finish =>
      Matches text first start finish ∨ Matches text second start finish
  | .times body count, start, finish =>
      Repeats (Matches text body) count start finish

/-! ## Searching -/

/-- The places that are reached from a place in a number of steps. -/
def repeatEnds
    (step : Nat → List Nat) : Nat → Nat → List Nat
  | 0, start => [start]
  | count + 1, start => (step start).flatMap (repeatEnds step count)

/-- The places where a match that starts at a place can end. -/
def ends
    (text : List α) : Regex α → Nat → List Nat
  | .bracket accepts, start =>
      match text[start]? with
      | some c => if accepts c then [start + 1] else []
      | none => []
  | .bol, start => if start = 0 then [start] else []
  | .eol, start => if start = text.length then [start] else []
  | .seq first second, start =>
      (ends text first start).flatMap (ends text second)
  | .alt first second, start => ends text first start ++ ends text second start
  | .times body count, start => repeatEnds (ends text body) count start

/-- Whether the pattern matches anywhere in the text. -/
def search
    (pattern : Regex α)
    (text : List α) : Bool :=
  (List.range (text.length + 1)).any fun start =>
    !(ends text pattern start).isEmpty

theorem mem_repeatEnds_iff
    {step : Nat → List Nat}
    {meaning : Nat → Nat → Prop}
    (same : ∀ start finish, finish ∈ step start ↔ meaning start finish)
    (count start finish : Nat) :
    finish ∈ repeatEnds step count start ↔
      Repeats meaning count start finish := by
  induction count generalizing start with
  | zero =>
      simp [repeatEnds, Repeats]
  | succ count inductionHypothesis =>
      simp only [repeatEnds, Repeats, List.mem_flatMap, same,
        inductionHypothesis]

/-- The computed places are those where a match ends. -/
theorem mem_ends_iff
    (text : List α)
    (pattern : Regex α)
    (start finish : Nat) :
    finish ∈ ends text pattern start ↔ Matches text pattern start finish := by
  induction pattern generalizing start finish with
  | bracket accepts =>
      unfold ends Matches
      cases found : text[start]? with
      | none =>
          simp
      | some c =>
          by_cases accepted : accepts c
          · simp [accepted]
          · simp [accepted]
  | bol =>
      unfold ends Matches
      split
      · simp [*]
      · simp [*]
  | eol =>
      unfold ends Matches
      split
      · simp [*]
      · simp [*]
  | seq first second firstHypothesis secondHypothesis =>
      simp only [ends, Matches, List.mem_flatMap, firstHypothesis,
        secondHypothesis]
  | alt first second firstHypothesis secondHypothesis =>
      simp only [ends, Matches, List.mem_append, firstHypothesis,
        secondHypothesis]
  | times body count inductionHypothesis =>
      exact mem_repeatEnds_iff inductionHypothesis count start finish

/-- The search finds the texts with a match in them. -/
theorem search_iff
    (pattern : Regex α)
    (text : List α) :
    search pattern text = true ↔
      ∃ start finish, start ≤ text.length ∧
        Matches text pattern start finish := by
  simp only [search, List.any_eq_true, List.mem_range, Nat.lt_succ_iff,
    Bool.not_eq_true', List.isEmpty_eq_false_iff_exists_mem, mem_ends_iff]
  constructor
  · rintro ⟨start, inside, finish, matched⟩
    exact ⟨start, finish, inside, matched⟩
  · rintro ⟨start, finish, inside, matched⟩
    exact ⟨start, inside, finish, matched⟩

/-! ## Brackets and anchors -/

/-- As many characters of a bracket as are asked for. -/
theorem matches_times_bracket_iff
    {text : List α}
    {accepts : α → Bool}
    {count start finish : Nat}
    (inside : start ≤ text.length) :
    Matches text (.times (.bracket accepts) count) start finish ↔
      finish = start + count ∧ finish ≤ text.length ∧
        ∀ c ∈ (text.drop start).take count, accepts c = true := by
  unfold Matches
  induction count generalizing start with
  | zero =>
      simp only [Repeats, Nat.add_zero, List.take_zero, List.not_mem_nil,
        false_imp_iff, implies_true, and_true]
      exact ⟨fun same => ⟨same, same ▸ inside⟩, And.left⟩
  | succ count inductionHypothesis =>
      simp only [Repeats]
      by_cases more : start < text.length
      · have front : text.drop start = text[start] :: text.drop (start + 1) :=
          List.drop_eq_getElem_cons more
        have later := @inductionHypothesis (start + 1) more
        rw [front, List.take_succ_cons, List.forall_mem_cons]
        constructor
        · rintro ⟨middle, ⟨c, found, accepted, rfl⟩, rest⟩
          obtain ⟨same, below, others⟩ := later.mp rest
          rw [List.getElem?_eq_getElem more] at found
          obtain rfl := Option.some.inj found
          exact ⟨by omega, below, accepted, others⟩
        · rintro ⟨same, below, accepted, others⟩
          refine ⟨start + 1, ⟨_, List.getElem?_eq_getElem more, accepted, rfl⟩,
            later.mpr ⟨by omega, below, others⟩⟩
      · have none : text[start]? = none :=
          List.getElem?_eq_none (Nat.le_of_not_lt more)
        constructor
        · rintro ⟨middle, ⟨c, found, _⟩, _⟩
          rw [none] at found
          exact nomatch found
        · rintro ⟨same, below, _⟩
          omega

theorem search_alt_iff
    (first second : Regex α)
    (text : List α) :
    search (.alt first second) text = true ↔
      search first text = true ∨ search second text = true := by
  simp only [search_iff, Matches]
  constructor
  · rintro ⟨start, finish, inside, matched | matched⟩
    · exact .inl ⟨start, finish, inside, matched⟩
    · exact .inr ⟨start, finish, inside, matched⟩
  · rintro (⟨start, finish, inside, matched⟩ | ⟨start, finish, inside, matched⟩)
    · exact ⟨start, finish, inside, .inl matched⟩
    · exact ⟨start, finish, inside, .inr matched⟩

/-- Characters of a bracket at the beginning of the text. -/
theorem search_front_iff
    (accepts : α → Bool)
    (count : Nat)
    (text : List α) :
    search (.seq .bol (.times (.bracket accepts) count)) text = true ↔
      count ≤ text.length ∧ ∀ c ∈ text.take count, accepts c = true := by
  have front := fun finish =>
    @matches_times_bracket_iff _ text accepts count 0 finish (Nat.zero_le _)
  simp only [List.drop_zero, Nat.zero_add] at front
  rw [search_iff]
  constructor
  · rintro ⟨start, finish, _, middle, ⟨rfl, rfl⟩, matched⟩
    obtain ⟨rfl, below, accepted⟩ := (front finish).mp matched
    exact ⟨below, accepted⟩
  · rintro ⟨below, accepted⟩
    exact ⟨0, count, Nat.zero_le _, 0, ⟨rfl, rfl⟩,
      (front count).mpr ⟨rfl, below, accepted⟩⟩

/-- Characters of a bracket at the end of the text. -/
theorem search_back_iff
    (accepts : α → Bool)
    (count : Nat)
    (text : List α) :
    search (.seq (.times (.bracket accepts) count) .eol) text = true ↔
      count ≤ text.length ∧
        ∀ c ∈ text.drop (text.length - count), accepts c = true := by
  rw [search_iff]
  constructor
  · rintro ⟨start, finish, inside, middle, matched, rfl, rfl⟩
    obtain ⟨same, _, accepted⟩ :=
      (matches_times_bracket_iff inside).mp matched
    have place : text.length - count = start := by
      omega
    have rest : (text.drop start).take count = text.drop start := by
      apply List.take_of_length_le
      rw [List.length_drop]
      omega
    rw [place, ← rest]
    exact ⟨by omega, accepted⟩
  · rintro ⟨below, accepted⟩
    refine ⟨text.length - count, text.length, Nat.sub_le _ _, text.length, ?_,
      rfl, rfl⟩
    refine (matches_times_bracket_iff (Nat.sub_le _ _)).mpr
      ⟨by omega, Nat.le_refl _, fun c member => accepted c ?_⟩
    exact List.mem_of_mem_take member

end ExtendedRegex
