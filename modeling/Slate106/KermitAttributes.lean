import Slate106.KermitDecode

namespace Slate106.Kermit

open CBytes

/-!
# Attribute lists

The data field of an A packet is a list of attributes, each with a tag, a
length and a value.  `gattr` goes through them in order; from what it keeps of
each follows which length the file is taken to have.
-/

/-! ## Lists of attributes -/

/-- An attribute: its tag and its value. -/
structure Attribute where
  tag : UInt8
  value : List UInt8
  deriving Repr, DecidableEq

namespace Attribute

/-- An attribute in a data field. -/
def bytes
    (a : Attribute) : List UInt8 :=
  a.tag :: tochar (UInt8.ofNat a.value.length) :: a.value

/-- The length byte tells the length, and no byte ends the data field. -/
structure Complete
    (a : Attribute) : Prop where
  short : a.value.length < 256
  noNul : 0 ∉ a.bytes

theorem Complete.tag
    {a : Attribute}
    (complete : a.Complete) :
    a.tag ≠ 0 := by
  intro zero
  apply complete.noNul
  rw [bytes, zero]
  exact List.mem_cons_self ..

theorem Complete.value
    {a : Attribute}
    (complete : a.Complete) :
    0 ∉ a.value := by
  intro member
  apply complete.noNul
  exact List.mem_cons_of_mem _ (List.mem_cons_of_mem _ member)

/-- The length that `gattr()` reads. -/
theorem aln
    {a : Attribute}
    (short : a.value.length < 256) :
    (xunchar (tochar (UInt8.ofNat a.value.length))).toNat =
      a.value.length := by
  rw [xunchar_tochar, UInt8.toNat_ofNat']
  exact Nat.mod_eq_of_lt short

/-- What `gattr()` makes of an attribute. -/
def read
    (v : GattrVars)
    (a : Attribute) : GattrVars :=
  gattrOne a.tag a.value v

end Attribute

/-- The data field of an A packet. -/
def attributeField
    (attributes : List Attribute) : List UInt8 :=
  attributes.flatMap Attribute.bytes

/-- The loop reads the attributes in order and stops at the NUL. -/
theorem gattrLoop_attributes
    {attributes : List Attribute}
    {turns : Nat}
    (complete : ∀ a ∈ attributes, a.Complete)
    (rest : List UInt8)
    (v : GattrVars)
    (enough : attributes.length < turns) :
    gattrLoop turns (attributeField attributes ++ 0 :: rest) v =
      attributes.foldl Attribute.read v := by
  induction attributes generalizing turns v with
  | nil =>
      cases turns with
      | zero => exact absurd enough (Nat.not_lt_zero _)
      | succ turns => rfl
  | cons a attributes inductionHypothesis =>
      obtain ⟨turns, rfl⟩ : ∃ fewer, turns = fewer + 1 :=
        ⟨turns - 1, by omega⟩
      have first := complete a (List.mem_cons_self ..)
      have field : attributeField (a :: attributes) ++ 0 :: rest =
          a.tag :: tochar (UInt8.ofNat a.value.length) ::
            (a.value ++ (attributeField attributes ++ 0 :: rest)) := by
        simp [attributeField, Attribute.bytes]
      have value : (a.value ++ (attributeField attributes ++ 0 :: rest)).takeD
          a.value.length 0 = a.value := by
        rw [List.takeD_eq_take _ (by simp), List.take_left]
      have later := inductionHypothesis
        (fun b member => complete b (List.mem_cons_of_mem a member))
        (a.read v) (Nat.lt_of_succ_lt_succ enough)
      rw [field, gattrLoop]
      simp only [peek_cons_zero, peek_cons_succ, Attribute.aln first.short]
      rw [if_neg first.tag, Nat.add_comm 2, List.drop_succ_cons,
        List.drop_succ_cons, List.drop_succ_cons, List.drop_succ_cons,
        List.drop_zero, value, List.drop_left]
      exact later

theorem length_attributeField
    (attributes : List Attribute) :
    2 * attributes.length ≤ (attributeField attributes).length := by
  induction attributes with
  | nil =>
      exact Nat.le_refl 0
  | cons a attributes inductionHypothesis =>
      simp only [attributeField, Attribute.bytes, List.flatMap_cons,
        List.length_append, List.length_cons] at *
      omega

/-- What `gattr()` has read at the end of the field. -/
def attributesRead
    (attributes : List Attribute)
    (r : KResponse) : GattrVars :=
  attributes.foldl Attribute.read
    { fsize := 0, fsizek := 0, rc := -1, filedate := r.filedate }

/-- `gattr()` on a complete list. -/
theorem gattr_attributes
    {attributes : List Attribute}
    (complete : ∀ a ∈ attributes, a.Complete)
    (rest : List UInt8)
    (r : KResponse) :
    let v := attributesRead attributes r
    gattr (attributeField attributes ++ 0 :: rest) r =
      (v.rc,
        { r with
          filedate := v.filedate
          filesize :=
            if v.fsize > -1 then v.fsize
            else if v.fsizek > -1 then v.fsizek * 1024
            else r.filesize }) := by
  have long := length_attributeField attributes
  unfold gattr
  rw [gattrLoop_attributes complete rest _ (by
    rw [List.length_append]
    omega)]
  rfl

/-! ## Number strings -/

/-- A decimal digit. -/
def isDecimal
    (c : UInt8) : Bool :=
  c ≥ ch '0' ∧ c ≤ ch '9'

/-- The number that decimal digits stand for. -/
def decimal
    (digits : List UInt8) : Nat :=
  digits.foldl (fun n c => n * 10 + (c.toNat - 48)) 0

theorem stringnumDigits_eq
    {digits : List UInt8}
    (decimals : ∀ c ∈ digits, isDecimal c = true)
    (n : Nat) :
    stringnumDigits n digits =
      (digits.foldl (fun n c => n * 10 + (c.toNat - 48)) n : Nat) := by
  induction digits generalizing n with
  | nil =>
      rfl
  | cons c digits inductionHypothesis =>
      have first := decimals c (List.mem_cons_self ..)
      unfold isDecimal at first
      rw [decide_eq_true_iff] at first
      have floor : 48 ≤ c.toNat := UInt8.le_iff_toNat_le.mp first.1
      have step : (n * 10 + (c.toNat - 48 : Int)) =
          ((n * 10 + (c.toNat - 48) : Nat) : Int) := by
        omega
      rw [stringnumDigits, if_pos first, step]
      exact inductionHypothesis
        (fun d member => decimals d (List.mem_cons_of_mem c member)) _

theorem stringnum_decimal
    {digits : List UInt8}
    (decimals : ∀ c ∈ digits, isDecimal c = true) :
    stringnum digits = decimal digits := by
  have noBlank : digits.dropWhile (· = ch ' ') = digits := by
    cases digits with
    | nil => rfl
    | cons c digits =>
        have first := decimals c (List.mem_cons_self ..)
        have other : ¬ c = ch ' ' := by
          rintro rfl
          exact absurd first (by decide)
        rw [List.dropWhile_cons_of_neg (by simpa using other)]
  rw [stringnum, noBlank]
  exact stringnumDigits_eq decimals 0

/-! ## The announced length -/

/-- A complete attribute whose number is one. -/
structure Attribute.WellFormed
    (a : Attribute) : Prop extends a.Complete where
  bytesNumber : a.tag = ch '1' →
    a.value.length ≤ 9 ∧ ∀ c ∈ a.value, isDecimal c = true
  kNumber : a.tag = ch '!' →
    a.value.length ≤ 6 ∧ ∀ c ∈ a.value, isDecimal c = true

/-- The value of the last attribute with a tag. -/
def lastValue
    (tag : UInt8) : List Attribute → Option (List UInt8)
  | [] => none
  | a :: rest =>
      match lastValue tag rest with
      | some value => some value
      | none => if a.tag = tag then some a.value else none

/-- The length of the file that an attribute list announces. -/
def announcedSize
    (attributes : List Attribute)
    (filesize : Int) : Int :=
  match lastValue (ch '1') attributes with
  | some digits => decimal digits
  | none =>
      match lastValue (ch '!') attributes with
      | some digits => 1024 * decimal digits
      | none => filesize

/-- A number string fits the buffer it is copied to. -/
theorem stringnum_sizebuf
    {digits : List UInt8}
    (short : digits.length ≤ sizebufl)
    (decimals : ∀ c ∈ digits, isDecimal c = true) :
    stringnum (cstr (digits.take sizebufl)) = decimal digits := by
  have noNul : 0 ∉ digits := by
    intro member
    exact absurd (decimals 0 member) (by decide)
  rw [List.take_of_length_le short, cstr_of_notMem noNul,
    stringnum_decimal decimals]

/-- A byte count is remembered. -/
theorem fsize_read_bytes
    {a : Attribute}
    (wellFormed : a.WellFormed)
    (tag : a.tag = ch '1')
    (v : GattrVars) :
    (a.read v).fsize = decimal a.value := by
  obtain ⟨short, decimals⟩ := wellFormed.bytesNumber tag
  have number :=
    stringnum_sizebuf (Nat.le_trans short (by decide)) decimals
  unfold Attribute.read gattrOne
  rw [tag, if_neg (by decide), if_neg (by decide), if_neg (by decide),
    if_pos rfl, number]

/-- Nothing else is remembered as a byte count. -/
theorem fsize_read_other
    {a : Attribute}
    (other : a.tag ≠ ch '1')
    (v : GattrVars) :
    (a.read v).fsize = v.fsize := by
  unfold Attribute.read gattrOne
  dsimp only
  rw [if_neg other]
  split
  · rfl
  · split
    · split
      · rfl
      · split <;> rfl
    · split <;> rfl

theorem fsize_foldl
    {attributes : List Attribute}
    (wellFormed : ∀ a ∈ attributes, a.WellFormed)
    (v : GattrVars) :
    (attributes.foldl Attribute.read v).fsize =
      match lastValue (ch '1') attributes with
      | some digits => (decimal digits : Int)
      | none => v.fsize := by
  induction attributes generalizing v with
  | nil =>
      rfl
  | cons a attributes inductionHypothesis =>
      have first := wellFormed a (List.mem_cons_self ..)
      rw [List.foldl_cons, lastValue, inductionHypothesis
        (fun b member => wellFormed b (List.mem_cons_of_mem a member))]
      cases lastValue (ch '1') attributes with
      | some digits => rfl
      | none =>
          dsimp only
          by_cases tag : a.tag = ch '1'
          · rw [if_pos tag]
            exact fsize_read_bytes first tag v
          · rw [if_neg tag]
            exact fsize_read_other tag v

/-- `gattr()` takes the last byte count, and else 0. -/
theorem filesize_gattr
    {attributes : List Attribute}
    (wellFormed : ∀ a ∈ attributes, a.WellFormed)
    (rest : List UInt8)
    (r : KResponse) :
    (gattr (attributeField attributes ++ 0 :: rest) r).2.filesize =
      match lastValue (ch '1') attributes with
      | some digits => (decimal digits : Int)
      | none => 0 := by
  have complete : ∀ a ∈ attributes, a.Complete :=
    fun a member => (wellFormed a member).toComplete
  have size := fsize_foldl wellFormed
    { fsize := 0, fsizek := 0, rc := -1, filedate := r.filedate }
  have known : (attributesRead attributes r).fsize > -1 := by
    unfold attributesRead
    rw [size]
    cases lastValue (ch '1') attributes with
    | some digits => exact Int.lt_of_lt_of_le (by decide) (Int.natCast_nonneg _)
    | none => exact show (0 : Int) > -1 by decide
  rw [gattr_attributes complete rest r]
  dsimp only
  rw [if_pos known]
  exact size

/--
`gattr()` computes the announced length exactly when a byte count is announced,
or 0 is what the list announces in some other way: the variables for the two
lengths start at 0, which the tests for an absent one take for a length.
-/
theorem gattr_announces_iff
    {attributes : List Attribute}
    (wellFormed : ∀ a ∈ attributes, a.WellFormed)
    (rest : List UInt8)
    (r : KResponse) :
    (gattr (attributeField attributes ++ 0 :: rest) r).2.filesize =
        announcedSize attributes r.filesize ↔
      (lastValue (ch '1') attributes).isSome ∨
        match lastValue (ch '!') attributes with
        | some digits => decimal digits = 0
        | none => r.filesize = 0 := by
  rw [filesize_gattr wellFormed rest r]
  unfold announcedSize
  cases lastValue (ch '1') attributes with
  | some digits => exact ⟨fun _ => Or.inl rfl, fun _ => rfl⟩
  | none =>
      have absent : ¬ (none : Option (List UInt8)).isSome = true :=
        Bool.false_ne_true
      cases lastValue (ch '!') attributes with
      | some digits =>
          dsimp only
          constructor
          · intro zero
            right
            omega
          · rintro (present | zero)
            · exact absurd present absent
            · rw [zero]
              rfl
      | none =>
          dsimp only
          constructor
          · exact fun zero => Or.inr zero.symm
          · rintro (present | zero)
            · exact absurd present absent
            · exact zero.symm

/-- A response before any attributes. -/
def noAttributes : KResponse where
  rstatus := .rAttr
  filename := []
  filedate := []
  filesize := 0
  sofar := 0
  sofarRumor := 0
  arg := none
  type := .send
  dir := []

/-- A byte count between an unknown attribute and a number of K. -/
theorem gattr_announces_bytes :
    let attributes : List Attribute :=
      [⟨ch '.', lit "U8"⟩, ⟨ch '1', lit "1500"⟩, ⟨ch '!', lit "2"⟩]
    (gattr (attributeField attributes ++ [0]) noAttributes).2.filesize =
      announcedSize attributes 0 := by
  refine (gattr_announces_iff ?_ [] noAttributes).mpr (Or.inl (by decide))
  intro a member
  simp only [List.mem_cons, List.not_mem_nil, or_false] at member
  rcases member with rfl | rfl | rfl
  · exact ⟨⟨by decide, by decide +kernel⟩, by decide, by decide⟩
  · exact ⟨⟨by decide, by decide +kernel⟩, by decide +kernel, by decide⟩
  · exact ⟨⟨by decide, by decide +kernel⟩, by decide, by decide +kernel⟩

/-- Two K are announced, and `filesize` is 0. -/
theorem gattr_forgets_k :
    let attributes : List Attribute := [⟨ch '!', lit "2"⟩]
    attributeField attributes = lit "!!2" ∧
      announcedSize attributes 0 = 2048 ∧
      (gattr (attributeField attributes ++ [0]) noAttributes).2.filesize = 0 ∧
      (gattr (attributeField attributes ++ [0]) noAttributes).2.filesize ≠
        announcedSize attributes noAttributes.filesize := by
  decide +kernel

end Slate106.Kermit
