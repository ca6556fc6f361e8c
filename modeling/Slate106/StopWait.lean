import Mathlib.Data.List.Basic

namespace StopWait

/-!
# Stop and wait

A sender with one packet outstanding.  The record of its turns says what was
acknowledged in each of them and what was sent.  A new packet goes out when the
packet before it is acknowledged, under the next number; whatever else is sent
is the outstanding packet once more.
-/

variable {φ : Type}
variable {number : φ → Int}
variable {modulus : Int}

/-- A turn: the number that was acknowledged, if any, and what was sent. -/
structure Turn (φ : Type) where
  acked : Option Int
  sent : List φ

/--
The turns of a sender and the packets that it has sent for the first time.
Both lists have the newest in front.
-/
inductive Run
    (number : φ → Int)
    (modulus : Int) : List (Turn φ) → List φ → Prop where
  | first
      (acked : Option Int)
      {packet : φ}
      (zero : number packet = 0) :
      Run number modulus [{ acked := acked, sent := [packet] }] [packet]
  | quiet
      {turns : List (Turn φ)}
      {packets : List φ}
      (earlier : Run number modulus turns packets)
      (acked : Option Int) :
      Run number modulus ({ acked := acked, sent := [] } :: turns) packets
  | again
      {turns : List (Turn φ)}
      {packet : φ}
      {packets : List φ}
      (earlier : Run number modulus turns (packet :: packets))
      (acked : Option Int) :
      Run number modulus ({ acked := acked, sent := [packet] } :: turns)
        (packet :: packets)
  | next
      {turns : List (Turn φ)}
      {packet new : φ}
      {packets : List φ}
      (earlier : Run number modulus turns (packet :: packets))
      (follows : number new = (number packet + 1) % modulus) :
      Run number modulus
        ({ acked := some (number packet), sent := [new] } :: turns)
        (new :: packet :: packets)

/-- The packets are numbered in the order in which they were sent. -/
theorem Run.numbered
    {turns : List (Turn φ)}
    {packets : List φ}
    (run : Run number modulus turns packets)
    {later earlier : List φ}
    {packet : φ}
    (place : packets = later ++ packet :: earlier) :
    number packet = earlier.length % modulus := by
  induction run generalizing later earlier packet with
  | first acked zero =>
      cases later with
      | nil =>
          obtain ⟨rfl, rfl⟩ := List.cons.inj place
          rw [zero]
          exact (Int.zero_emod modulus).symm
      | cons _ later =>
          exact absurd (List.cons.inj place).2 (by simp)
  | quiet _ _ inductionHypothesis | again _ _ inductionHypothesis =>
      exact inductionHypothesis place
  | next _ follows inductionHypothesis =>
      cases later with
      | nil =>
          obtain ⟨rfl, rfl⟩ := List.cons.inj place
          rw [follows, inductionHypothesis (List.nil_append _).symm,
            Int.emod_add_emod, List.length_cons]
          rfl
      | cons _ later =>
          exact inductionHypothesis (List.cons.inj place).2

end StopWait
