import Mathlib.Data.List.Basic
import Mathlib.Data.List.OfFn

namespace Slate106.BitCrc

/-!
# Cyclic redundancy checks, bit by bit

A register of any width and any polynomial, fed with the most significant bit
first.  Feeding is linear in the register and the bits.  If the polynomial is
odd, no step loses information, so a burst of errors not longer than the
register always changes its contents.
-/

variable {w : Nat}

/-- The register moves by one bit. -/
def shift
    (poly c : BitVec w) : BitVec w :=
  c <<< 1 ^^^ (if c.msb then poly else 0#w)

/-- The register takes one bit. -/
def feedBit
    (poly c : BitVec w)
    (bit : Bool) : BitVec w :=
  c <<< 1 ^^^ (if c.msb ^^ bit then poly else 0#w)

/-- The register takes the bits of a list. -/
def feed
    (poly c : BitVec w)
    (bits : List Bool) : BitVec w :=
  bits.foldl (feedBit poly) c

/-- The register moves by several bits. -/
def shiftn
    (poly : BitVec w) : Nat → BitVec w → BitVec w
  | 0, c => c
  | n + 1, c => shiftn poly n (shift poly c)

/-- The bits of a word, the most significant first. -/
def bitsOf
    (v : BitVec w) : List Bool :=
  List.ofFn fun i : Fin w => v.getMsbD i

/-- The word that starts with given bits and goes on with zeros. -/
def lead
    (bits : List Bool) : BitVec w :=
  (BitVec.ofBoolListBE (List.ofFn fun i : Fin w => bits.getD i false)).cast
    List.length_ofFn

@[simp] theorem feed_nil
    (poly c : BitVec w) :
    feed poly c [] = c := rfl

@[simp] theorem feed_cons
    (poly c : BitVec w)
    (bit : Bool)
    (bits : List Bool) :
    feed poly c (bit :: bits) = feed poly (feedBit poly c bit) bits := rfl

theorem feed_append
    (poly c : BitVec w)
    (front back : List Bool) :
    feed poly c (front ++ back) = feed poly (feed poly c front) back :=
  List.foldl_append

/-! ## Linearity -/

theorem shift_xor
    (poly a b : BitVec w) :
    shift poly (a ^^^ b) = shift poly a ^^^ shift poly b := by
  have taps : (if (a ^^^ b).msb then poly else 0#w) =
      (if a.msb then poly else 0#w) ^^^ (if b.msb then poly else 0#w) := by
    rw [BitVec.msb_xor]
    cases a.msb <;> cases b.msb <;> simp
  unfold shift
  rw [BitVec.shiftLeft_xor_distrib, taps]
  ac_rfl

theorem shiftn_xor
    (poly : BitVec w)
    (n : Nat)
    (a b : BitVec w) :
    shiftn poly n (a ^^^ b) = shiftn poly n a ^^^ shiftn poly n b := by
  induction n generalizing a b with
  | zero => rfl
  | succ n inductionHypothesis =>
      simp only [shiftn, shift_xor, inductionHypothesis]

theorem shiftn_add
    (poly : BitVec w)
    (m n : Nat)
    (c : BitVec w) :
    shiftn poly (m + n) c = shiftn poly n (shiftn poly m c) := by
  induction m generalizing c with
  | zero => simp [shiftn]
  | succ m inductionHypothesis =>
      rw [Nat.succ_add]
      exact inductionHypothesis (shift poly c)

theorem feedBit_eq
    (poly c : BitVec w)
    (bit : Bool) :
    feedBit poly c bit = shift poly c ^^^ (if bit then poly else 0#w) := by
  unfold feedBit shift
  cases c.msb <;> cases bit <;> simp [BitVec.xor_assoc]

/-! ## Feeding the bits of a word -/

theorem getMsbD_lead
    (bits : List Bool)
    (i : Nat) :
    (lead bits : BitVec w).getMsbD i = (decide (i < w) && bits.getD i false) := by
  rw [lead, BitVec.getMsbD_cast, BitVec.getMsbD_ofBoolListBE]
  by_cases inside : i < w <;> simp [inside]

/-- Taking one bit leaves the others in front of the register. -/
theorem shift_lead
    (poly c : BitVec w)
    (bit : Bool)
    {rest : List Bool}
    (fits : rest.length < w) :
    shift poly (c ^^^ lead (bit :: rest)) =
      feedBit poly c bit ^^^ lead rest := by
  have positive : 0 < w := by omega
  have front : (lead (bit :: rest) : BitVec w).msb = bit := by
    rw [BitVec.msb, getMsbD_lead]
    simp [positive]
  have moved : (lead (bit :: rest) : BitVec w) <<< 1 = lead rest := by
    refine BitVec.eq_of_getMsbD_eq fun i inside => ?_
    rw [BitVec.getMsbD_shiftLeft, getMsbD_lead, getMsbD_lead]
    by_cases last : i + 1 < w
    · simp [inside, last]
    · have beyond : rest.length ≤ i := by omega
      simp [last, List.getElem?_eq_none beyond]
  have word : shift poly (lead (bit :: rest)) =
      lead rest ^^^ (if bit then poly else 0#w) := by
    rw [shift, front, moved]
  rw [shift_xor, word, feedBit_eq]
  ac_rfl

/-- The bits may be added to the register before it moves. -/
theorem feed_eq_shiftn
    (poly c : BitVec w)
    {bits : List Bool}
    (fits : bits.length ≤ w) :
    feed poly c bits = shiftn poly bits.length (c ^^^ lead bits) := by
  induction bits generalizing c with
  | nil =>
      have zero : (lead [] : BitVec w) = 0#w := by
        refine BitVec.eq_of_getMsbD_eq fun i inside => ?_
        simp [getMsbD_lead]
      simp [shiftn, zero]
  | cons bit rest inductionHypothesis =>
      have shorter : rest.length < w := by
        simpa [Nat.succ_le_iff] using fits
      rw [feed_cons, inductionHypothesis _ (by omega), List.length_cons, shiftn,
        shift_lead poly c bit shorter]

@[simp] theorem length_bitsOf
    (v : BitVec w) :
    (bitsOf v).length = w := by
  simp [bitsOf]

@[simp] theorem lead_bitsOf
    (v : BitVec w) :
    lead (bitsOf v) = v := by
  refine BitVec.eq_of_getMsbD_eq fun i inside => ?_
  simp [getMsbD_lead, bitsOf, inside]

/-- Feeding a word of the width of the register. -/
theorem feed_bitsOf
    (poly c v : BitVec w) :
    feed poly c (bitsOf v) = shiftn poly w (c ^^^ v) := by
  rw [feed_eq_shiftn poly c (length_bitsOf v).le, length_bitsOf, lead_bitsOf]

theorem bitsOf_injective :
    Function.Injective (bitsOf : BitVec w → List Bool) := by
  intro a b same
  rw [← lead_bitsOf a, ← lead_bitsOf b, same]

/-! ## Several bits at once, by a table -/

/-- While the leading bits are zero the register only moves. -/
theorem shiftn_eq_shiftLeft
    (poly : BitVec w)
    (n : Nat)
    {c : BitVec w}
    (small : ∀ i < n, c.getMsbD i = false) :
    shiftn poly n c = c <<< n := by
  induction n generalizing c with
  | zero => simp [shiftn]
  | succ n inductionHypothesis =>
      have first : c.msb = false := small 0 (by omega)
      have moved : shift poly c = c <<< 1 := by
        simp [shift, first]
      rw [shiftn, moved, inductionHypothesis, ← BitVec.shiftLeft_add,
        Nat.add_comm]
      intro i before
      rw [BitVec.getMsbD_shiftLeft, small (i + 1) (by omega)]

/--
The register moves by `n` bits as a whole: what its leading bits lead to is
the entry of a table.
-/
theorem shiftn_eq_table
    (poly c : BitVec w)
    {n : Nat}
    (fits : n ≤ w) :
    shiftn poly n c =
      c <<< n ^^^ shiftn poly n (c >>> (w - n) <<< (w - n)) := by
  generalize split : c >>> (w - n) <<< (w - n) = high
  have atHigh : ∀ i, high.getMsbD i = (decide (i < n) && c.getMsbD i) := by
    intro i
    rw [← split, BitVec.getMsbD_shiftLeft, BitVec.getMsbD_ushiftRight]
    by_cases inside : i < n
    · have back : i + (w - n) - (w - n) = i := by omega
      simp [inside, back, show i + (w - n) < w by omega]
    · simp [inside, show ¬ i + (w - n) < w by omega]
  have small : ∀ i < n, (c ^^^ high).getMsbD i = false := by
    intro i inside
    rw [BitVec.getMsbD_xor, atHigh]
    simp [inside]
  have gone : high <<< n = 0#w := by
    refine BitVec.eq_of_getMsbD_eq fun i inside => ?_
    rw [BitVec.getMsbD_shiftLeft, atHigh]
    simp
  calc shiftn poly n c
      = shiftn poly n ((c ^^^ high) ^^^ high) := by
          rw [BitVec.xor_assoc, BitVec.xor_self, BitVec.xor_zero]
    _ = (c ^^^ high) <<< n ^^^ shiftn poly n high := by
        rw [shiftn_xor, shiftn_eq_shiftLeft poly n small]
    _ = c <<< n ^^^ shiftn poly n high := by
        rw [BitVec.shiftLeft_xor_distrib, gone, BitVec.xor_zero]

/-! ## Bursts of errors -/

section Odd

variable {poly : BitVec w}
variable (odd : poly.getLsbD 0 = true)

include odd

/-- With an odd polynomial the register never loses its leading bit. -/
theorem shift_injective :
    Function.Injective (shift poly) := by
  have zero : ∀ c : BitVec w, shift poly c = 0#w → c = 0#w := by
    intro c gone
    have low : (shift poly c).getLsbD 0 = c.msb := by
      unfold shift
      cases c.msb <;> simp [odd]
    have front : c.msb = false := by
      rw [← low, gone]
      simp
    have moved : c <<< 1 = 0#w := by
      simpa [shift, front] using gone
    refine BitVec.eq_of_getMsbD_eq fun i inside => ?_
    cases i with
    | zero => simpa [BitVec.msb] using front
    | succ i =>
        have bit := congrArg (fun v => v.getMsbD i) moved
        simpa [BitVec.getMsbD_shiftLeft, show i < w by omega] using bit
  intro a b same
  have cancel : shift poly (a ^^^ b) = 0#w := by
    rw [shift_xor, same, BitVec.xor_self]
  simpa using zero _ cancel

theorem shiftn_injective
    (n : Nat) :
    Function.Injective (shiftn poly n) := by
  induction n with
  | zero => exact fun a b same => same
  | succ n inductionHypothesis =>
      exact inductionHypothesis.comp (shift_injective odd)

/-- Equal bits never bring two different registers together. -/
theorem feed_register_injective
    (bits : List Bool) :
    Function.Injective (feed poly · bits) := by
  induction bits with
  | nil => exact fun a b same => same
  | cons bit rest inductionHypothesis =>
      intro a b same
      have first : feedBit poly a bit = feedBit poly b bit :=
        inductionHypothesis same
      rw [feedBit_eq, feedBit_eq, BitVec.xor_left_inj] at first
      exact shift_injective odd first

/-- Different bits, not more than the register holds, are told apart. -/
theorem feed_bits_injective
    (c : BitVec w)
    {bits other : List Bool}
    (sameLength : bits.length = other.length)
    (fits : bits.length ≤ w)
    (same : feed poly c bits = feed poly c other) :
    bits = other := by
  rw [feed_eq_shiftn poly c fits, feed_eq_shiftn poly c (sameLength ▸ fits),
    ← sameLength] at same
  have leads : (lead bits : BitVec w) = lead other :=
    (BitVec.xor_right_inj c).mp (shiftn_injective odd _ same)
  refine List.ext_getElem sameLength fun i inside insideOther => ?_
  have bit := congrArg (fun v : BitVec w => v.getMsbD i) leads
  simpa [getMsbD_lead, show i < w by omega, inside, insideOther] using bit

end Odd

/-- Two lists that differ only in a window of given width. -/
def WithinWindow
    (width : Nat)
    (bits other : List Bool) : Prop :=
  ∃ first, ∀ i, i < first ∨ first + width ≤ i → bits[i]? = other[i]?

/-- A burst of errors not longer than the register changes its contents. -/
theorem burst_detected
    {poly : BitVec w}
    (odd : poly.getLsbD 0 = true)
    (c : BitVec w)
    {bits other : List Bool}
    (sameLength : bits.length = other.length)
    (different : bits ≠ other)
    (window : WithinWindow w bits other) :
    feed poly c bits ≠ feed poly c other := by
  obtain ⟨first, outside⟩ := window
  have fronts : bits.take first = other.take first := by
    refine List.ext_getElem? fun i => ?_
    rw [List.getElem?_take, List.getElem?_take]
    split
    · exact outside i (.inl ‹_›)
    · rfl
  have backs : (bits.drop first).drop w = (other.drop first).drop w := by
    refine List.ext_getElem? fun i => ?_
    simp only [List.getElem?_drop]
    exact outside _ (.inr (by omega))
  have parts : ∀ l : List Bool,
      l = l.take first ++ ((l.drop first).take w ++ (l.drop first).drop w) := by
    intro l
    rw [List.take_append_drop, List.take_append_drop]
  intro same
  rw [parts bits, parts other, feed_append, feed_append, feed_append,
    feed_append, fronts, backs] at same
  have burst := feed_bits_injective odd _ (by simp [sameLength]) (by simp)
    (feed_register_injective odd _ same)
  exact different
    (by rw [parts bits, parts other, fronts, backs, burst])

end Slate106.BitCrc
