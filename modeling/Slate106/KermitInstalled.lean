import Slate106.KermitDeclared

namespace Slate106.Kermit

open CBytes

/-!
# The packet length that `spar` installs

Which fields of a parameter string the maximum packet length is taken from,
and how far the string is read.
-/

variable {ω : Type}

/-! ## The capability field -/

/--
`y` is the last byte of the capability field of `n` fields: the first one from
field 10 on without the continuation bit.
-/
structure CapasEnds
    (fld : Nat → UInt8)
    (n y : Nat) : Prop where
  lower : 10 ≤ y
  upper : y ≤ n
  goesOn : ∀ i, 10 ≤ i → i < y → xunchar (fld i) &&& 1 = 1
  last : xunchar (fld y) &&& 1 ≠ 1

section Capas

variable {fld fld' : Nat → UInt8}
variable {n : Nat}

private theorem capasEnd_spec
    (fuel y : Nat)
    (enough : n < y + fuel) :
    y ≤ capasEnd fld n fuel y ∧
      (∀ i, y ≤ i → i < capasEnd fld n fuel y →
        xunchar (fld i) &&& 1 = 1) ∧
      (capasEnd fld n fuel y ≤ n →
        xunchar (fld (capasEnd fld n fuel y)) &&& 1 ≠ 1) := by
  induction fuel generalizing y with
  | zero =>
      refine ⟨Nat.le_refl y, fun i lower upper => ?_, fun inside => ?_⟩
      · exact absurd upper (Nat.not_lt_of_le lower)
      · exact absurd enough (Nat.not_lt_of_le inside)
  | succ fuel inductionHypothesis =>
      rw [capasEnd]
      split
      · rename_i goesOn
        obtain ⟨lower, between, last⟩ :=
          inductionHypothesis (y + 1) (by omega)
        refine ⟨by omega, fun i least most => ?_, last⟩
        rcases Nat.eq_or_lt_of_le least with rfl | later
        · exact goesOn.1
        · exact between i later most
      · rename_i stops
        refine ⟨Nat.le_refl y, fun i lower upper => ?_, fun inside => ?_⟩
        · exact absurd upper (Nat.not_lt_of_le lower)
        · intro goesOn
          exact stops ⟨goesOn, Int.ofNat_le.mpr inside⟩

/-- The end of the capability field is where the loop of `spar()` stops. -/
theorem capasEnds_iff
    {y : Nat} :
    CapasEnds fld n y ↔ 10 ≤ n ∧ y ≤ n ∧ capasField fld n = y := by
  constructor
  · rintro ⟨lower, upper, goesOn, last⟩
    have long : (n : Int) ≥ 10 := by
      omega
    obtain ⟨least, between, ends⟩ :=
      @capasEnd_spec fld n n 10 (by omega)
    refine ⟨by omega, upper, ?_⟩
    rw [capasField, if_pos long, Int.toNat_natCast]
    rcases Nat.lt_trichotomy (capasEnd fld n n 10) y with
      before | same | after
    · exact absurd (goesOn _ least before) (ends (by omega))
    · exact same
    · exact absurd (between y lower after) last
  · rintro ⟨long, upper, rfl⟩
    have isLong : (n : Int) ≥ 10 := by
      omega
    rw [capasField, if_pos isLong, Int.toNat_natCast] at upper ⊢
    obtain ⟨least, between, ends⟩ :=
      @capasEnd_spec fld n n 10 (by omega)
    exact ⟨least, upper, between, ends upper⟩

private theorem capasEnd_congr
    (agree : ∀ i, 1 ≤ i → i ≤ n → fld' i = fld i)
    (fuel y : Nat)
    (positive : 1 ≤ y) :
    capasEnd fld' n fuel y = capasEnd fld n fuel y := by
  induction fuel generalizing y with
  | zero =>
      rfl
  | succ fuel inductionHypothesis =>
      rw [capasEnd, capasEnd, inductionHypothesis (y + 1) (by omega)]
      by_cases inside : y ≤ n
      · rw [agree y positive inside]
      · have outside : ¬ ((n : Int) ≥ y) := by
          omega
        rw [if_neg (fun both => outside both.2),
          if_neg (fun both => outside both.2)]

/-- The loop looks at no byte behind the string to any effect. -/
theorem capasField_congr
    (agree : ∀ i, 1 ≤ i → i ≤ n → fld' i = fld i) :
    capasField fld' n = capasField fld n := by
  unfold capasField
  rw [capasEnd_congr agree _ 10 (by decide)]

end Capas

/-! ## The long-packet bit -/

private theorem cleared_keeps
    {capas mask other : UInt16}
    (apart : ~~~other &&& mask = mask) :
    capas &&& ~~~other &&& mask = capas &&& mask := by
  rw [UInt16.and_assoc, apart]

private theorem maybe_cleared_keeps
    {capas mask other : UInt16}
    (apart : ~~~other &&& mask = mask)
    (cleared : Prop)
    [Decidable cleared] :
    (if cleared then capas &&& ~~~other else capas) &&& mask =
      capas &&& mask := by
  split
  · exact cleared_keeps apart
  · rfl

/-- The long-packet capability stays when the peer has it, too. -/
theorem capasAnd_lp
    (x capas : UInt16) :
    capasAnd x capas &&& capLp =
      if x &&& capLp = 0 then 0 else capas &&& capLp := by
  unfold capasAnd
  dsimp only
  rw [cleared_keeps (by decide), cleared_keeps (by decide),
    maybe_cleared_keeps (by decide), maybe_cleared_keeps (by decide)]
  split
  · rw [UInt16.and_assoc, show ~~~capLp &&& capLp = 0 by decide,
      UInt16.and_zero]
  · rfl

/-! ## The packet length -/

/-- An extended length, capped and kept usable. -/
def installable
    (x : Nat) : Nat :=
  if (if x > pPktlen then pPktlen else x) < 10 then 60
  else if x > pPktlen then pPktlen
  else x

/-- The value of the two extended length fields from field `i` on. -/
def extendedField
    (fld : Nat → UInt8)
    (i : Nat) : Nat :=
  (xunchar (fld i)).toNat * 95 + (xunchar (fld (i + 1))).toNat

/-- The length field of a parameter string, when present. -/
def maxlField
    (fld : Nat → UInt8)
    (n : Nat)
    (p : Params) : Nat :=
  if 1 ≤ n then (xunchar (fld 1)).toNat else p.sMaxlen

/-- The capabilities after the capability field. -/
def remainingCapas
    (fld : Nat → UInt8)
    (n : Nat)
    (p : Params) : UInt16 :=
  if (n : Int) ≥ 10 then capasAnd (xunchar (fld 10)).toUInt16 p.capas
  else p.capas

/-- Which fields `spar()` takes the packet length from. -/
theorem sparParams_sMaxlen
    (cfg : Config)
    (fld : Nat → UInt8)
    (n : Nat)
    (p : Params) :
    (sparParams cfg fld n p).sMaxlen =
      if remainingCapas fld n p &&& capLp ≠ 0 ∧ capasField fld n + 1 < n then
        installable (extendedField fld (capasField fld n + 2))
      else maxlField fld n p := by
  have front :
      (sparChecks cfg fld n (sparEbq fld n (sparBasic fld n p))).sMaxlen =
        maxlField fld n p := by
    have present : ((n : Int) ≥ 1) = (1 ≤ n) := by
      apply propext
      omega
    simp only [sparChecks, sparEbq, sparBasic, apply_ite Params.sMaxlen,
      ite_self, maxlField, present]
  have capas :
      (sparChecks cfg fld n (sparEbq fld n (sparBasic fld n p))).capas =
        p.capas := by
    simp only [sparChecks, sparEbq, sparBasic, apply_ite Params.capas,
      ite_self]
  have later : ((n : Int) > capasField fld n + 1) =
      (capasField fld n + 1 < n) := by
    apply propext
    omega
  rw [sparParams]
  generalize sparChecks cfg fld n (sparEbq fld n (sparBasic fld n p)) = q
    at front capas
  simp only [sparCapas, apply_ite Params.sMaxlen, apply_ite Params.capas,
    ite_self, front, capas, later]
  rfl

/-! ## How far the string is read -/

section Agreeing

variable {cfg : Config}
variable {fld fld' : Nat → UInt8}
variable {n : Nat}

private theorem sparBasic_congr
    (agree : ∀ i, 1 ≤ i → i ≤ n → fld' i = fld i)
    (p : Params) :
    sparBasic fld' n p = sparBasic fld n p := by
  have missing {i : Int} (short : (n : Int) < i) : ¬ ((n : Int) ≥ i) :=
    Int.not_le_of_gt short
  unfold sparBasic
  dsimp only
  by_cases first : (n : Int) ≥ 1
  · rw [agree 1 (by decide) (by omega)]
    by_cases second : (n : Int) ≥ 2
    · rw [agree 2 (by decide) (by omega)]
      by_cases fifth : (n : Int) ≥ 5
      · rw [agree 5 (by decide) (by omega)]
        by_cases sixth : (n : Int) ≥ 6
        · rw [agree 6 (by decide) (by omega)]
        · simp only [if_neg sixth]
      · have sixth : ¬ ((n : Int) ≥ 6) := missing (by omega)
        simp only [if_neg fifth, if_neg sixth]
    · have fifth : ¬ ((n : Int) ≥ 5) := missing (by omega)
      have sixth : ¬ ((n : Int) ≥ 6) := missing (by omega)
      simp only [if_neg second, if_neg fifth, if_neg sixth]
  · have second : ¬ ((n : Int) ≥ 2) := missing (by omega)
    have fifth : ¬ ((n : Int) ≥ 5) := missing (by omega)
    have sixth : ¬ ((n : Int) ≥ 6) := missing (by omega)
    simp only [if_neg first, if_neg second, if_neg fifth, if_neg sixth]

private theorem sparEbq_congr
    (agree : ∀ i, 1 ≤ i → i ≤ n → fld' i = fld i)
    (p : Params) :
    sparEbq fld' n p = sparEbq fld n p := by
  unfold sparEbq
  by_cases seventh : (n : Int) ≥ 7
  · rw [agree 7 (by decide) (by omega)]
  · rw [if_neg seventh, if_neg seventh]

private theorem sparChecks_congr
    (agree : ∀ i, 1 ≤ i → i ≤ n → fld' i = fld i)
    (p : Params) :
    sparChecks cfg fld' n p = sparChecks cfg fld n p := by
  have missing (short : ¬ ((n : Int) ≥ 9)) (fld : Nat → UInt8) :
      ¬ ((n : Int) ≥ 9 ∧
        (isPrefixChar (fld 9) = true ∨ fld 9 = prefixRepeat)) :=
    fun both => short both.1
  unfold sparChecks
  dsimp only
  by_cases eighth : (n : Int) ≥ 8
  · rw [agree 8 (by decide) (by omega)]
    by_cases ninth : (n : Int) ≥ 9
    · rw [agree 9 (by decide) (by omega)]
    · simp only [if_neg (missing ninth fld), if_neg (missing ninth fld')]
  · have ninth : ¬ ((n : Int) ≥ 9) := by
      omega
    simp only [if_neg eighth, if_neg (missing ninth fld),
      if_neg (missing ninth fld')]

private theorem sparCapas_congr
    {p : Params}
    (agree : ∀ i, 1 ≤ i → i ≤ n → fld' i = fld i)
    (inside :
      remainingCapas fld n p &&& capLp ≠ 0 → n ≠ capasField fld n + 2) :
    sparCapas cfg fld' n p = sparCapas cfg fld n p := by
  have ends := capasField_congr agree
  have capas :
      (if (n : Int) ≥ 10 then
        { p with capas := capasAnd (xunchar (fld' 10)).toUInt16 p.capas }
      else p) =
        if (n : Int) ≥ 10 then
          { p with capas := capasAnd (xunchar (fld 10)).toUInt16 p.capas }
        else p := by
    split
    · rw [agree 10 (by decide) (by omega)]
    · rfl
  have remaining :
      (if (n : Int) ≥ 10 then
        { p with capas := capasAnd (xunchar (fld 10)).toUInt16 p.capas }
      else p).capas =
        remainingCapas fld n p := by
    unfold remainingCapas
    split <;> rfl
  unfold sparCapas
  dsimp only
  rw [ends, capas]
  generalize
    (if (n : Int) ≥ 10 then
      { p with capas := capasAnd (xunchar (fld 10)).toUInt16 p.capas }
    else p) = q at remaining
  generalize capasField fld n = y at inside
  have long :
      (if q.capas &&& capLp ≠ 0 ∧ (n : Int) > y + 1 then
        { q with
          sMaxlen :=
            installable
              ((xunchar (fld' (y + 2))).toNat * 95 +
                (xunchar (fld' (y + 3))).toNat) }
      else q) =
        if q.capas &&& capLp ≠ 0 ∧ (n : Int) > y + 1 then
          { q with
            sMaxlen :=
              installable
                ((xunchar (fld (y + 2))).toNat * 95 +
                  (xunchar (fld (y + 3))).toNat) }
        else q := by
    split
    · rename_i taken
      rw [remaining] at taken
      have different := inside taken.1
      rw [agree (y + 2) (by omega) (by omega),
        agree (y + 3) (by omega) (by omega)]
    · rfl
  simp only [installable] at long
  rw [long]
  by_cases slot : (n : Int) > y
  · rw [agree (y + 1) (by omega) (by omega)]
  · simp only [if_neg slot]

/--
No byte behind the string has an effect, unless the string ends between the
two extended length fields.
-/
theorem sparParams_congr
    {p : Params}
    (agree : ∀ i, 1 ≤ i → i ≤ n → fld' i = fld i)
    (inside :
      remainingCapas fld n p &&& capLp ≠ 0 → n ≠ capasField fld n + 2) :
    sparParams cfg fld' n p = sparParams cfg fld n p := by
  have capas :
      (sparChecks cfg fld n (sparEbq fld n (sparBasic fld n p))).capas =
        p.capas := by
    simp only [sparChecks, sparEbq, sparBasic, apply_ite Params.capas,
      ite_self]
  have same (q : Params) (kept : q.capas = p.capas) :
      remainingCapas fld n q = remainingCapas fld n p := by
    unfold remainingCapas
    rw [kept]
  rw [sparParams, sparParams, sparBasic_congr agree, sparEbq_congr agree,
    sparChecks_congr agree]
  apply sparCapas_congr agree
  rw [same _ capas]
  exact inside

end Agreeing

/-! ## What the peer announced -/

/-- A field of a parameter string, numbered from 1. -/
def field
    (text : List UInt8)
    (i : Nat) : UInt8 :=
  peek text (i - 1)

/-- The capability field of the string has the long-packet bit. -/
def LongPackets
    (text : List UInt8) : Prop :=
  (xunchar (field text 10)).toUInt16 &&& capLp ≠ 0

/--
The string has the capability field with the long-packet bit, all of its
bytes, the window field and both extended length fields.
-/
structure LongForm
    (text : List UInt8)
    (y : Nat) : Prop where
  long : LongPackets text
  ends : CapasEnds (field text) text.length y
  whole : y + 3 ≤ text.length

/-- `sMaxlen` is the length that the string announces. -/
structure Installs
    (text : List UInt8)
    (p : Params)
    (sMaxlen : Nat) : Prop where
  extended :
    ∀ y, LongForm text y →
      sMaxlen = installable (extendedField (field text) (y + 2))
  plain :
    (∀ y, ¬ LongForm text y) →
      sMaxlen = maxlField (field text) text.length p

/-- The parameters after `spar()` on a string with something behind it. -/
def sparOn
    (front text beyond : List UInt8)
    (k : KData) : Params :=
  (spar front.length text.length
    (withBuf (front ++ (text ++ beyond)) k)).par

/--
`spar()` installs the length announced, and no byte behind the string, its
terminator included, has an effect.
-/
structure InstallsAnnounced
    (front text beyond : List UInt8)
    (k : KData) : Prop where
  length : Installs text k.par (sparOn front text (0 :: beyond) k).sMaxlen
  within :
    ∀ beyond',
      sparOn front text beyond' k = sparOn front text (0 :: beyond) k

section Announced

variable {front text beyond : List UInt8}
variable {k : KData}

/-- The fields that `spar()` reads. -/
def fieldsOn
    (front text beyond : List UInt8)
    (i : Nat) : UInt8 :=
  peek (front ++ (text ++ beyond)) (front.length + i - 1)

theorem sparOn_eq
    (front text beyond : List UInt8)
    (k : KData) :
    sparOn front text beyond k =
      sparParams k.cfg (fieldsOn front text beyond) text.length k.par :=
  rfl

theorem fieldsOn_inside
    {i : Nat}
    (positive : 1 ≤ i)
    (inside : i ≤ text.length) :
    fieldsOn front text beyond i = field text i := by
  have place : front.length + i - 1 - front.length = i - 1 := by
    omega
  rw [fieldsOn, peek_append_right (by omega), place,
    peek_append_left (by omega), field]

theorem fieldsOn_behind
    (front text beyond : List UInt8)
    (last : UInt8) :
    fieldsOn front text (last :: beyond) (text.length + 1) = last := by
  have place : front.length + (text.length + 1) - 1 - front.length =
      text.length := by
    omega
  rw [fieldsOn, peek_append_right (by omega), place, peek_append_cons]

/-- The packet length as a matter of the string and the byte behind it. -/
theorem sparOn_sMaxlen
    (last : UInt8) :
    (sparOn front text (last :: beyond) k).sMaxlen =
      if remainingCapas (field text) text.length k.par &&& capLp ≠ 0 ∧
          capasField (field text) text.length + 1 < text.length then
        installable
          ((xunchar (field text
              (capasField (field text) text.length + 2))).toNat * 95 +
            (xunchar
              (if capasField (field text) text.length + 2 = text.length then
                last
              else field text
                (capasField (field text) text.length + 3))).toNat)
      else maxlField (field text) text.length k.par := by
  have agree : ∀ i, 1 ≤ i → i ≤ text.length →
      fieldsOn front text (last :: beyond) i = field text i :=
    fun i positive inside => fieldsOn_inside positive inside
  have capas :
      remainingCapas (fieldsOn front text (last :: beyond)) text.length
          k.par =
        remainingCapas (field text) text.length k.par := by
    unfold remainingCapas
    split
    · rw [agree 10 (by decide) (by omega)]
    · rfl
  have maxl :
      maxlField (fieldsOn front text (last :: beyond)) text.length k.par =
        maxlField (field text) text.length k.par := by
    unfold maxlField
    split
    · rw [agree 1 (by decide) ‹_›]
    · rfl
  rw [sparOn_eq, sparParams_sMaxlen, capas, maxl, capasField_congr agree]
  generalize capasField (field text) text.length = y
  split
  · rename_i taken
    have high :
        fieldsOn front text (last :: beyond) (y + 2) = field text (y + 2) :=
      agree (y + 2) (by omega) (by omega)
    have low :
        fieldsOn front text (last :: beyond) (y + 2 + 1) =
          if y + 2 = text.length then last else field text (y + 3) := by
      split
      · rename_i atEnd
        rw [atEnd]
        exact fieldsOn_behind front text beyond last
      · exact agree (y + 3) (by omega) (by omega)
    rw [extendedField, high, low]
  · rfl

theorem installable_small
    {x : Nat}
    (least : 10 ≤ x)
    (most : x ≤ pPktlen) :
    installable x = x := by
  unfold installable
  rw [if_neg (Nat.not_lt_of_le most), if_neg (Nat.not_lt_of_le least)]

theorem installable_large
    {x : Nat}
    (large : pPktlen ≤ x) :
    installable x = pPktlen := by
  unfold installable
  by_cases larger : x > pPktlen
  · rw [if_pos larger, if_neg (by decide)]
  · have same : x = pPktlen := by
      omega
    subst same
    rfl

/-- What the terminator stands for makes a difference to the length. -/
theorem installable_grows
    {high : Nat}
    (small : high ≤ 10) :
    installable (high * 95 + 0) < installable (high * 95 + 224) := by
  rcases Nat.eq_zero_or_pos high with rfl | positive
  · decide
  · have least : installable (high * 95 + 0) = high * 95 + 0 :=
      installable_small (by omega) (by simp only [pPktlen]; omega)
    rw [least]
    by_cases fits : high * 95 + 224 ≤ pPktlen
    · rw [installable_small (by omega) fits]
      omega
    · rw [installable_large (by omega)]
      simp only [pPktlen]
      omega

/-- A long form ends where the loop of `spar()` does. -/
theorem LongForm.capasField
    {y : Nat}
    (form : LongForm text y) :
    10 ≤ text.length ∧ Kermit.capasField (field text) text.length = y := by
  obtain ⟨long, -, same⟩ := capasEnds_iff.mp form.ends
  exact ⟨long, same⟩

theorem remainingCapas_lp
    (capable : k.par.capas &&& capLp ≠ 0)
    (long : 10 ≤ text.length) :
    remainingCapas (field text) text.length k.par &&& capLp ≠ 0 ↔
      LongPackets text := by
  have present : (text.length : Int) ≥ 10 := by
    omega
  rw [remainingCapas, if_pos present, capasAnd_lp, LongPackets]
  split
  · rename_i none
    exact iff_of_false (fun some => some rfl) (fun some => some none)
  · rename_i some
    exact iff_of_true capable some

theorem xunchar_le
    (c : UInt8) :
    (xunchar c).toNat ≤ 255 :=
  Nat.le_of_lt_succ (xunchar c).toNat_lt

/--
A string that ends between the two length fields: its terminator is taken for
the second one.
-/
theorem not_installsAnnounced_split
    (capable :
      remainingCapas (field text) text.length k.par &&& capLp ≠ 0)
    (ends : Kermit.capasField (field text) text.length + 2 = text.length) :
    ¬ InstallsAnnounced front text beyond k := by
  rintro ⟨length, within⟩
  have noForm : ∀ y, ¬ LongForm text y := by
    intro y form
    have whole := form.whole
    have same := form.capasField.2
    omega
  have maxl : maxlField (field text) text.length k.par ≤ 255 := by
    rw [maxlField, if_pos (by omega)]
    exact xunchar_le _
  have value (last : UInt8) (beyond : List UInt8) :
      (sparOn front text (last :: beyond) k).sMaxlen =
        installable
          ((xunchar (field text
              (Kermit.capasField (field text) text.length + 2))).toNat * 95 +
            (xunchar last).toNat) := by
    rw [sparOn_sMaxlen, if_pos ⟨capable, by omega⟩, if_pos ends]
  have terminated := length.plain noForm
  have varied := congrArg Params.sMaxlen (within [0x20])
  rw [value, value] at varied
  rw [value] at terminated
  have nul : (xunchar (0 : UInt8)).toNat = 224 := by
    decide
  have blank : (xunchar (0x20 : UInt8)).toNat = 0 := by
    decide
  rw [nul] at varied terminated
  rw [blank] at varied
  generalize
    (xunchar (field text
      (Kermit.capasField (field text) text.length + 2))).toNat = high
    at varied terminated
  by_cases large : 11 ≤ high
  · rw [installable_large (by simp only [pPktlen]; omega)] at terminated
    simp only [pPktlen] at terminated
    omega
  · exact absurd varied (Nat.ne_of_lt (installable_grows (by omega)))

/--
`spar()` installs the length that the peer announced exactly for strings of
fewer than two fields; of three to nine fields when fields 2 and 3 happen to
say the same as field 1; and for longer ones unless they have the long-packet
bit and end between the two extended length fields.
-/
theorem spar_installs_announced_iff
    (front text beyond : List UInt8)
    (k : KData)
    (capable : k.par.capas &&& capLp ≠ 0) :
    InstallsAnnounced front text beyond k ↔
      text.length < 2 ∨
      (3 ≤ text.length ∧ text.length < 10 ∧
        installable (extendedField (field text) 2) =
          (xunchar (field text 1)).toNat) ∨
      (10 ≤ text.length ∧
        (LongPackets text →
          ¬ CapasEnds (field text) text.length (text.length - 2))) := by
  have within
      (inside :
        remainingCapas (field text) text.length k.par &&& capLp ≠ 0 →
          text.length ≠ Kermit.capasField (field text) text.length + 2)
      (beyond' : List UInt8) :
      sparOn front text beyond' k = sparOn front text (0 :: beyond) k := by
    have agree (other : List UInt8) : ∀ i, 1 ≤ i → i ≤ text.length →
        fieldsOn front text other i = field text i :=
      fun i positive inside => fieldsOn_inside positive inside
    rw [sparOn_eq, sparOn_eq, sparParams_congr (agree beyond') inside,
      sparParams_congr (agree (0 :: beyond)) inside]
  by_cases short : text.length < 10
  · have absent : ¬ ((text.length : Int) ≥ 10) := by
      omega
    have start : Kermit.capasField (field text) text.length = 0 := by
      rw [Kermit.capasField, if_neg absent]
    have kept : remainingCapas (field text) text.length k.par &&& capLp ≠
        0 := by
      rw [remainingCapas, if_neg absent]
      exact capable
    have noForm : ∀ y, ¬ LongForm text y := by
      intro y form
      have long := form.capasField.1
      omega
    have length := @sparOn_sMaxlen front text beyond k 0
    rw [start] at length within
    rcases Nat.lt_trichotomy text.length 2 with few | two | many
    · rw [if_neg (by omega)] at length
      refine iff_of_true ⟨⟨fun y form => absurd form (noForm y), ?_⟩, ?_⟩
        (Or.inl few)
      · intro _
        exact length
      · exact within fun _ => by omega
    · refine iff_of_false
        (not_installsAnnounced_split kept (by rw [start, two])) ?_
      omega
    · rw [if_pos ⟨kept, by omega⟩, if_neg (by omega)] at length
      have maxl : maxlField (field text) text.length k.par =
          (xunchar (field text 1)).toNat := by
        rw [maxlField, if_pos (by omega)]
      constructor
      · intro installs
        have same := installs.length.plain noForm
        rw [length, maxl] at same
        exact Or.inr (Or.inl ⟨many, short, same⟩)
      · rintro (few | ⟨-, -, same⟩ | ⟨long, -⟩)
        · omega
        · refine ⟨⟨fun y form => absurd form (noForm y), fun _ => ?_⟩, ?_⟩
          · rw [length, maxl]
            exact same
          · exact within fun _ => by omega
        · omega
  · have long : 10 ≤ text.length := Nat.le_of_not_lt short
    have remaining := @remainingCapas_lp text k capable long
    have length := @sparOn_sMaxlen front text beyond k 0
    constructor
    · intro installs
      refine Or.inr (Or.inr ⟨long, fun bit ends => ?_⟩)
      have same := (capasEnds_iff.mp ends).2.2
      exact not_installsAnnounced_split (remaining.mpr bit) (by omega)
        installs
    · rintro (few | ⟨-, few, -⟩ | ⟨-, whole⟩)
      · omega
      · omega
      · have inside :
            remainingCapas (field text) text.length k.par &&& capLp ≠ 0 →
              text.length ≠
                Kermit.capasField (field text) text.length + 2 := by
          intro kept atEnd
          have bit := remaining.mp kept
          apply whole bit
          rw [capasEnds_iff]
          exact ⟨long, Nat.sub_le .., by omega⟩
        refine ⟨⟨fun y form => ?_, fun noForm => ?_⟩, within inside⟩
        · have same := form.capasField.2
          have enough := form.whole
          rw [same, if_pos ⟨remaining.mpr form.long, by omega⟩,
            if_neg (by omega)] at length
          exact length
        · rw [length]
          apply if_neg
          rintro ⟨kept, more⟩
          have different := inside kept
          have ends := capasEnds_iff.mpr
            ⟨long, by omega, (rfl :
              Kermit.capasField (field text) text.length = _)⟩
          exact noForm _ ⟨remaining.mp kept, ends, by omega⟩

end Announced

/-- The parameter string that `rpar()` sends. -/
def usualParameters : List UInt8 :=
  initString (freshSys 0).k.cfg (freshSys 0).k.par

theorem spar_installs_announced_iff_usual :
    InstallsAnnounced [0x30, 0x20, 0x59] usualParameters [0x21]
        (freshSys 0).k ↔
      usualParameters.length < 2 ∨
      (3 ≤ usualParameters.length ∧ usualParameters.length < 10 ∧
        installable (extendedField (field usualParameters) 2) =
          (xunchar (field usualParameters 1)).toNat) ∨
      (10 ≤ usualParameters.length ∧
        (LongPackets usualParameters →
          ¬ CapasEnds (field usualParameters) usualParameters.length
            (usualParameters.length - 2))) :=
  spar_installs_announced_iff [0x30, 0x20, 0x59] usualParameters [0x21]
    (freshSys 0).k (by decide)

/-- A string of a length of 94 and a timeout of 5 installs 699. -/
theorem two_parameters_misread :
    (freshSys 0).k.par.capas &&& capLp ≠ 0 ∧
      (sparOn [] [0x7E, 0x25] [0] (freshSys 0).k).sMaxlen = 699 ∧
      ¬ InstallsAnnounced [] [0x7E, 0x25] [] (freshSys 0).k := by
  have installed :
      (sparOn [] [0x7E, 0x25] [0] (freshSys 0).k).sMaxlen = 699 := by
    decide
  refine ⟨by decide, installed, fun installs => ?_⟩
  have noForm : ∀ y, ¬ LongForm [0x7E, 0x25] y := by
    intro y form
    have lower := form.ends.lower
    have upper := form.ends.upper
    simp only [List.length_cons, List.length_nil] at upper
    omega
  have announced := installs.length.plain noForm
  rw [installed] at announced
  exact absurd announced (by decide)

end Slate106.Kermit
