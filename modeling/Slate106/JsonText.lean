import Mathlib.Algebra.Group.Nat.Defs
import Mathlib.Data.List.TakeWhile

namespace JsonText

/-!
# JSON texts

A text is a list of bytes: a UTF-8 encoding of one JSON value.  The reader
takes the bytes one after the other; a string is given by the bytes that it
stands for, with its escapes resolved.

A table is an array of objects whose members are all strings.  Written
without any escape, it reads as itself exactly when no string needs one.
-/

/-! ## Values -/

/-- A value; an atom is a number, `true`, `false` or `null`, as it is spelt. -/
inductive Value where
  | atom (text : List UInt8)
  | string (text : List UInt8)
  | array (items : List Value)
  | object (members : List (List UInt8 × Value))

abbrev quote : UInt8 := 0x22
abbrev backslash : UInt8 := 0x5C
abbrev comma : UInt8 := 0x2C
abbrev colon : UInt8 := 0x3A
abbrev openArray : UInt8 := 0x5B
abbrev closeArray : UInt8 := 0x5D
abbrev openObject : UInt8 := 0x7B
abbrev closeObject : UInt8 := 0x7D

/-! ## Strings -/

/-- The characters that a string has as they are. -/
def Unescaped
    (c : UInt8) : Prop :=
  0x20 ≤ c ∧ c ≠ quote ∧ c ≠ backslash

instance
    (c : UInt8) :
    Decidable (Unescaped c) :=
  inferInstanceAs (Decidable (_ ∧ _))

/-- The escapes of one letter. -/
def shortEscape
    (c : UInt8) : Option UInt8 :=
  if c = quote ∨ c = backslash ∨ c = 0x2F then some c
  else if c = 0x62 then some 0x08
  else if c = 0x66 then some 0x0C
  else if c = 0x6E then some 0x0A
  else if c = 0x72 then some 0x0D
  else if c = 0x74 then some 0x09
  else none

/-- The value of a hexadecimal digit. -/
def hexValue
    (c : UInt8) : Option Nat :=
  if 0x30 ≤ c ∧ c ≤ 0x39 then some (c.toNat - 0x30)
  else if 0x41 ≤ c ∧ c ≤ 0x46 then some (c.toNat - 0x37)
  else if 0x61 ≤ c ∧ c ≤ 0x66 then some (c.toNat - 0x57)
  else none

/-- Four hexadecimal digits. -/
def readUnit : List UInt8 → Option (Nat × List UInt8)
  | a :: b :: c :: d :: rest => do
      let a ← hexValue a
      let b ← hexValue b
      let c ← hexValue c
      let d ← hexValue d
      some (((a * 16 + b) * 16 + c) * 16 + d, rest)
  | _ => none

/-- The second half of a surrogate pair. -/
def readLow
    (high : Nat) : List UInt8 → Option (List UInt8 × List UInt8)
  | a :: b :: rest =>
      if a = backslash ∧ b = 0x75 then do
        let (low, rest) ← readUnit rest
        if 0xDC00 ≤ low ∧ low < 0xE000 then
          let scalar := 0x10000 + (high - 0xD800) * 0x400 + (low - 0xDC00)
          some (String.utf8EncodeChar (Char.ofNat scalar), rest)
        else none
      else none
  | _ => none

/-- The character that a `\u` escape stands for. -/
def readUnicode
    (text : List UInt8) : Option (List UInt8 × List UInt8) := do
  let (unit, rest) ← readUnit text
  if 0xD800 ≤ unit ∧ unit < 0xDC00 then readLow unit rest
  else if 0xDC00 ≤ unit ∧ unit < 0xE000 then none
  else some (String.utf8EncodeChar (Char.ofNat unit), rest)

/-- One character of a string, other than the quotation mark that ends it. -/
def readChar : List UInt8 → Option (List UInt8 × List UInt8)
  | [] => none
  | c :: rest =>
      if c = backslash then
        match rest with
        | [] => none
        | letter :: rest =>
            if letter = 0x75 then readUnicode rest
            else (shortEscape letter).map fun said => ([said], rest)
      else if Unescaped c then some ([c], rest)
      else none

/-- A string behind its opening quotation mark, in at most so many steps. -/
def readChars : Nat → List UInt8 → Option (List UInt8 × List UInt8)
  | 0, _ => none
  | _ + 1, [] => none
  | steps + 1, c :: rest =>
      if c = quote then some ([], rest)
      else do
        let (said, rest) ← readChar (c :: rest)
        let (more, rest) ← readChars steps rest
        some (said ++ more, rest)

theorem hexValue_ne_quote
    {c : UInt8}
    {value : Nat}
    (digit : hexValue c = some value) :
    c ≠ quote := by
  rintro rfl
  have none : hexValue quote = none := by
    decide
  exact absurd (none.symm.trans digit) (by simp)

theorem quote_notMem_unicode
    {used : List UInt8}
    (unquoted : quote ∉ used) :
    quote ∉ backslash :: 0x75 :: used := by
  simp only [List.mem_cons, unquoted, or_false]
  decide

/-- Four digits are taken, and no quotation mark is among them. -/
theorem readUnit_used
    {text rest : List UInt8}
    {unit : Nat}
    (read : readUnit text = some (unit, rest)) :
    ∃ used, text = used ++ rest ∧ used.length = 4 ∧ quote ∉ used := by
  unfold readUnit at read
  split at read
  case h_2 => exact absurd read (by simp)
  case h_1 a b c d tail =>
    simp only [Option.bind_eq_bind, Option.bind_eq_some_iff,
      Option.some.injEq, Prod.mk.injEq] at read
    obtain ⟨_, first, _, second, _, third, _, fourth, _, rfl⟩ := read
    refine ⟨[a, b, c, d], rfl, rfl, ?_⟩
    intro member
    rcases List.mem_cons.mp member with same | member
    · exact hexValue_ne_quote first same.symm
    rcases List.mem_cons.mp member with same | member
    · exact hexValue_ne_quote second same.symm
    rcases List.mem_cons.mp member with same | member
    · exact hexValue_ne_quote third same.symm
    · exact hexValue_ne_quote fourth (List.mem_singleton.mp member).symm

/-- What is taken for an escape is longer than what it stands for. -/
def Shrinks
    (said text rest : List UInt8) : Prop :=
  ∃ used, text = used ++ rest ∧ said.length ≤ used.length ∧ quote ∉ used

theorem length_utf8_le
    (scalar : Nat) :
    (String.utf8EncodeChar (Char.ofNat scalar)).length ≤ 4 := by
  rw [String.length_utf8EncodeChar]
  exact Char.utf8Size_le_four _

theorem readLow_used
    {high : Nat}
    {text said rest : List UInt8}
    (read : readLow high text = some (said, rest)) :
    Shrinks said text rest := by
  unfold readLow at read
  split at read
  case h_2 => exact absurd read (by simp)
  case h_1 a b tail =>
    split at read
    case isFalse => exact absurd read (by simp)
    case isTrue escape =>
      obtain ⟨rfl, rfl⟩ := escape
      obtain ⟨⟨low, after⟩, digits, scalar⟩ :=
        Option.bind_eq_some_iff.mp read
      obtain ⟨used, rfl, length, unquoted⟩ := readUnit_used digits
      dsimp only at scalar
      split at scalar
      case isFalse => exact absurd scalar (by simp)
      case isTrue =>
        obtain ⟨rfl, rfl⟩ := Prod.mk.inj (Option.some.inj scalar)
        refine ⟨backslash :: 0x75 :: used, rfl, ?_, ?_⟩
        · have short := length_utf8_le
            (0x10000 + (high - 0xD800) * 0x400 + (low - 0xDC00))
          simp only [List.length_cons, length]
          omega
        · exact quote_notMem_unicode unquoted

theorem readUnicode_used
    {text said rest : List UInt8}
    (read : readUnicode text = some (said, rest)) :
    Shrinks said text rest := by
  obtain ⟨⟨unit, after⟩, digits, scalar⟩ := Option.bind_eq_some_iff.mp read
  obtain ⟨used, rfl, length, unquoted⟩ := readUnit_used digits
  dsimp only at scalar
  split at scalar
  · obtain ⟨more, rfl, shrinks, also⟩ := readLow_used scalar
    refine ⟨used ++ more, (List.append_assoc _ _ _).symm, ?_, ?_⟩
    · rw [List.length_append]
      exact Nat.le_add_left_of_le shrinks
    · simp [unquoted, also]
  · split at scalar
    · exact absurd scalar (by simp)
    · obtain ⟨rfl, rfl⟩ := Prod.mk.inj (Option.some.inj scalar)
      exact ⟨used, rfl, length ▸ length_utf8_le unit, unquoted⟩

/-- What one character of a string is spelt with. -/
inductive CharCase
    (said text rest : List UInt8) : Prop where
  | plain
      (c : UInt8)
      (unescaped : Unescaped c)
      (same : said = [c])
      (shape : text = c :: rest)
  | quote
      (same : said = [quote])
      (shape : text = backslash :: quote :: rest)
  | escape
      (used : List UInt8)
      (shape : text = used ++ rest)
      (shrinks : said.length < used.length)
      (unquoted : quote ∉ used)

theorem char_cases
    {text said rest : List UInt8}
    (read : readChar text = some (said, rest)) :
    CharCase said text rest := by
  unfold readChar at read
  split at read
  case h_1 => exact absurd read (by simp)
  case h_2 c tail =>
    split at read
    case isFalse =>
      split at read
      case isFalse => exact absurd read (by simp)
      case isTrue unescaped =>
        obtain ⟨rfl, rfl⟩ := Prod.mk.inj (Option.some.inj read)
        exact .plain c unescaped rfl rfl
    case isTrue escape =>
      subst escape
      split at read
      case h_1 => exact absurd read (by simp)
      case h_2 letter tail =>
        split at read
        case isTrue unicode =>
          subst unicode
          obtain ⟨used, rfl, shrinks, unquoted⟩ := readUnicode_used read
          refine .escape (backslash :: 0x75 :: used) rfl ?_ ?_
          · simp only [List.length_cons]
            omega
          · exact quote_notMem_unicode unquoted
        case isFalse =>
          obtain ⟨c, short, result⟩ := Option.map_eq_some_iff.mp read
          obtain ⟨rfl, rfl⟩ := Prod.mk.inj result
          by_cases quoted : letter = JsonText.quote
          · subst quoted
            obtain rfl : JsonText.quote = c := Option.some.inj short
            exact .quote rfl rfl
          · refine .escape [backslash, letter] rfl (by simp) ?_
            simp only [List.mem_cons, Ne.symm quoted, List.not_mem_nil, or_false]
            decide

/--
How a string ends whose text has its first quotation mark at a place: there,
or behind it, and then the mark is part of the string.
-/
inductive EndCase
    (front back said rest : List UInt8) : Prop where
  | there
      (ends : rest = back)
      (short : said.length ≤ front.length)
      (same : said.length = front.length → said = front ∧
        ∀ c ∈ front, Unescaped c)
  | behind
      (before after : List UInt8)
      (shape : said = before ++ quote :: after)
      (early : before.length < front.length)

theorem end_cases
    {steps : Nat}
    {front back said rest : List UInt8}
    (unquoted : quote ∉ front)
    (read : readChars steps (front ++ quote :: back) = some (said, rest)) :
    EndCase front back said rest := by
  induction steps generalizing front said with
  | zero => exact absurd read (by simp [readChars])
  | succ steps ih =>
      cases front with
      | nil =>
          obtain ⟨rfl, rfl⟩ := Prod.mk.inj (Option.some.inj read)
          exact .there rfl (Nat.le_refl _) fun _ => ⟨rfl, List.forall_mem_nil _⟩
      | cons c front =>
          obtain ⟨other, unquoted⟩ :=
            not_or.mp (mt List.mem_cons.mpr unquoted)
          unfold readChars at read
          simp only [List.cons_append, if_neg (Ne.symm other)] at read
          obtain ⟨⟨first, text⟩, one, read⟩ := Option.bind_eq_some_iff.mp read
          obtain ⟨⟨more, after⟩, all, result⟩ :=
            Option.bind_eq_some_iff.mp read
          obtain ⟨rfl, rfl⟩ : first ++ more = said ∧ after = rest :=
            Prod.mk.inj (Option.some.inj result)
          replace all : readChars steps text = some (more, after) := all
          cases char_cases one with
          | plain d unescaped same shape =>
              obtain ⟨rfl, rfl⟩ := List.cons.inj shape
              subst same
              cases ih unquoted all with
              | there ends short same =>
                  refine .there ends (Nat.succ_le_succ short) ?_
                  intro length
                  obtain ⟨rfl, all⟩ := same (Nat.succ.inj length)
                  exact ⟨rfl, List.forall_mem_cons.mpr ⟨unescaped, all⟩⟩
              | behind before later shape early =>
                  subst shape
                  exact .behind (c :: before) later rfl
                    (Nat.succ_lt_succ early)
          | quote same shape =>
              subst same
              cases front with
              | nil => exact .behind [] more rfl (Nat.succ_pos _)
              | cons d front =>
                  obtain ⟨rfl, -⟩ := List.cons.inj (List.cons.inj shape).2
                  exact absurd List.mem_cons_self unquoted
          | escape used shape shrinks plain =>
              obtain ⟨left, spelt, rfl⟩ :
                  ∃ left, c :: front = used ++ left ∧
                    text = left ++ quote :: back := by
                rcases List.append_eq_append_iff.mp
                    (show (c :: front) ++ quote :: back = used ++ text
                      from shape) with
                  ⟨left, beyond, behind⟩ | ⟨left, inside, rest⟩
                · cases left with
                  | nil => exact ⟨[], by simpa using beyond.symm, behind.symm⟩
                  | cons d left =>
                      obtain ⟨rfl, -⟩ := List.cons.inj behind
                      exact absurd (beyond ▸ List.mem_append_right _
                        List.mem_cons_self) plain
                · exact ⟨left, inside, rest⟩
              have length := congrArg List.length spelt
              rw [List.length_append] at length
              have unspelt : quote ∉ left := by
                intro member
                have late : quote ∈ c :: front :=
                  spelt ▸ List.mem_append_right _ member
                exact (List.mem_cons.mp late).elim other unquoted
              cases ih unspelt all with
              | there ends short same =>
                  refine .there ends ?_ ?_
                  · rw [List.length_append]
                    omega
                  · rw [List.length_append]
                    omega
              | behind before later shape early =>
                  subst shape
                  refine .behind (first ++ before) later
                    (List.append_assoc _ _ _).symm ?_
                  rw [List.length_append]
                  omega

/-- A string that reads as it is written has nothing to escape. -/
theorem readChars_same
    {steps : Nat}
    {text after rest : List UInt8}
    (read : readChars steps (text ++ quote :: after) = some (text, rest)) :
    (∀ c ∈ text, Unescaped c) ∧ rest = after := by
  by_cases inside : quote ∈ text
  · obtain ⟨front, back, shape, unquoted⟩ := List.eq_append_cons_of_mem inside
    rw [shape, List.append_assoc] at read
    cases end_cases unquoted read with
    | there ends short same =>
        rw [List.length_append, List.length_cons] at short
        omega
    | behind before later also early =>
        have place : front[before.length]? = some quote := by
          rw [← List.getElem?_append_left early, also,
            List.getElem?_append_right (Nat.le_refl _), Nat.sub_self]
          rfl
        exact absurd (List.mem_of_getElem? place) unquoted
  · cases end_cases inside read with
    | there ends short same => exact ⟨(same rfl).2, ends⟩
    | behind before later shape early =>
        exact absurd (shape ▸ List.mem_append_right _ List.mem_cons_self)
          inside

theorem readChar_unescaped
    {c : UInt8}
    (unescaped : Unescaped c)
    (rest : List UInt8) :
    readChar (c :: rest) = some ([c], rest) := by
  simp only [readChar, if_neg unescaped.2.2, if_pos unescaped]

/-- A string with nothing to escape reads as it is written. -/
theorem readChars_unescaped
    {steps : Nat}
    {text : List UInt8}
    (unescaped : ∀ c ∈ text, Unescaped c)
    (after : List UInt8)
    (enough : text.length < steps) :
    readChars steps (text ++ quote :: after) = some (text, after) := by
  induction text generalizing steps with
  | nil =>
      obtain ⟨steps, rfl⟩ := Nat.exists_eq_succ_of_ne_zero
        (Nat.ne_of_gt enough)
      exact if_pos rfl
  | cons c text ih =>
      obtain ⟨steps, rfl⟩ := Nat.exists_eq_succ_of_ne_zero
        (Nat.ne_of_gt (Nat.lt_of_le_of_lt (Nat.zero_le _) enough))
      obtain ⟨first, others⟩ := List.forall_mem_cons.mp unescaped
      unfold readChars
      simp only [List.cons_append, if_neg first.2.1,
        readChar_unescaped first]
      rw [Option.bind_eq_bind, Option.bind_some]
      simp only [ih others (Nat.lt_of_succ_lt_succ enough)]
      rfl

/-! ## Atoms -/

def isDigit
    (c : UInt8) : Bool :=
  0x30 ≤ c && c ≤ 0x39

/-- Digits without a leading zero, and what follows them. -/
def afterWhole
    (text : List UInt8) : Option (List UInt8) :=
  let digits := text.takeWhile isDigit
  if digits = [0x30] ∨ (digits ≠ [] ∧ digits.head? ≠ some 0x30) then
    some (text.dropWhile isDigit)
  else none

/-- What follows a fraction, if there is one. -/
def afterFraction : List UInt8 → Option (List UInt8)
  | 0x2E :: rest =>
      if rest.takeWhile isDigit = [] then none
      else some (rest.dropWhile isDigit)
  | text => some text

/-- What follows an exponent, if there is one. -/
def afterExponent : List UInt8 → Option (List UInt8)
  | [] => some []
  | c :: rest =>
      if c = 0x65 ∨ c = 0x45 then
        let unsigned :=
          if rest.head? = some 0x2B ∨ rest.head? = some 0x2D then rest.tail
          else rest
        if unsigned.takeWhile isDigit = [] then none
        else some (unsigned.dropWhile isDigit)
      else some (c :: rest)

def isNumeral
    (text : List UInt8) : Bool :=
  let unsigned := if text.head? = some 0x2D then text.tail else text
  ((afterWhole unsigned).bind afterFraction).bind afterExponent = some []

/-- `true`, `false` and `null`. -/
def names : List (List UInt8) :=
  [[0x74, 0x72, 0x75, 0x65], [0x66, 0x61, 0x6C, 0x73, 0x65],
    [0x6E, 0x75, 0x6C, 0x6C]]

/-- The characters that an atom may have. -/
def isAtomChar
    (c : UInt8) : Bool :=
  isDigit c || c = 0x2B || c = 0x2D || c = 0x2E || c = 0x45 ||
    (0x61 ≤ c && c ≤ 0x7A)

def readAtom
    (text : List UInt8) : Option (Value × List UInt8) :=
  let atom := text.takeWhile isAtomChar
  if atom ∈ names ∨ isNumeral atom then
    some (.atom atom, text.dropWhile isAtomChar)
  else none

/-! ## The reader -/

def isBlank
    (c : UInt8) : Bool :=
  c = 0x20 || c = 0x09 || c = 0x0A || c = 0x0D

/-- The first byte that is not a blank, and what follows it. -/
def next
    (text : List UInt8) : Option (UInt8 × List UInt8) :=
  match text.dropWhile isBlank with
  | [] => none
  | c :: rest => some (c, rest)

mutual

/-- A value at the start of a text, in at most so many steps. -/
def readValue : Nat → List UInt8 → Option (Value × List UInt8)
  | 0, _ => none
  | steps + 1, text => do
      let (c, rest) ← next text
      if c = quote then
        let (said, rest) ← readChars steps rest
        some (.string said, rest)
      else if c = openArray then
        let (d, after) ← next rest
        if d = closeArray then some (.array [], after)
        else
          let (items, rest) ← readItems steps rest
          some (.array items, rest)
      else if c = openObject then
        let (d, after) ← next rest
        if d = closeObject then some (.object [], after)
        else
          let (members, rest) ← readMembers steps rest
          some (.object members, rest)
      else readAtom (c :: rest)

/-- The items of an array, up to and with its closing bracket. -/
def readItems : Nat → List UInt8 → Option (List Value × List UInt8)
  | 0, _ => none
  | steps + 1, text => do
      let (item, rest) ← readValue steps text
      let (c, rest) ← next rest
      if c = comma then
        let (items, rest) ← readItems steps rest
        some (item :: items, rest)
      else if c = closeArray then some ([item], rest)
      else none

/-- The members of an object, up to and with its closing brace. -/
def readMembers :
    Nat → List UInt8 → Option (List (List UInt8 × Value) × List UInt8)
  | 0, _ => none
  | steps + 1, text => do
      let (c, rest) ← next text
      if c ≠ quote then none
      else
        let (key, rest) ← readChars steps rest
        let (c, rest) ← next rest
        if c ≠ colon then none
        else
          let (value, rest) ← readValue steps rest
          let (c, rest) ← next rest
          if c = comma then
            let (members, rest) ← readMembers steps rest
            some ((key, value) :: members, rest)
          else if c = closeObject then some ([(key, value)], rest)
          else none

end

/-! ## More steps -/

/-- Whatever one result is, the other is the same. -/
def Below
    {α : Type}
    (first second : Option α) : Prop :=
  ∀ result, first = some result → second = some result

theorem Below.refl
    {α : Type}
    (result : Option α) :
    Below result result :=
  fun _ same => same

theorem Below.bind
    {α β : Type}
    {first second : Option α}
    {next later : α → Option β}
    (below : Below first second)
    (follows : ∀ value, Below (next value) (later value)) :
    Below (first.bind next) (second.bind later) := by
  intro result found
  obtain ⟨value, one, rest⟩ := Option.bind_eq_some_iff.mp found
  exact Option.bind_eq_some_iff.mpr
    ⟨value, below value one, follows value result rest⟩

theorem Below.ite
    {α : Type}
    {condition : Prop}
    [Decidable condition]
    {first second other another : Option α}
    (yes : Below first second)
    (no : Below other another) :
    Below (if condition then first else other)
      (if condition then second else another) := by
  split
  · exact yes
  · exact no

theorem readChars_more
    (steps : Nat)
    (text : List UInt8) :
    Below (readChars steps text) (readChars (steps + 1) text) := by
  induction steps generalizing text with
  | zero =>
      intro result read
      exact absurd read (by simp [readChars])
  | succ steps ih =>
      cases text with
      | nil => exact .refl _
      | cons c rest =>
          refine .ite (.refl _) (.bind (.refl _) ?_)
          rintro ⟨said, rest⟩
          exact .bind (ih rest) fun _ => .refl _

/-- What some steps read, more steps read as well. -/
structure Reads
    (steps more : Nat) : Prop where
  value : ∀ text, Below (readValue steps text) (readValue more text)
  items : ∀ text, Below (readItems steps text) (readItems more text)
  members : ∀ text, Below (readMembers steps text) (readMembers more text)

theorem reads_more
    (steps : Nat) :
    Reads steps (steps + 1) := by
  induction steps with
  | zero =>
      refine ⟨?_, ?_, ?_⟩
      all_goals intro text result read
      · simp [readValue] at read
      · simp [readItems] at read
      · simp [readMembers] at read
  | succ steps ih =>
      refine ⟨?_, ?_, ?_⟩
      all_goals intro text
      · unfold readValue
        refine .bind (.refl _) ?_
        rintro ⟨c, rest⟩
        refine .ite ?_ (.ite ?_ (.ite ?_ (.refl _)))
        · exact .bind (readChars_more steps rest) fun _ => .refl _
        · refine .bind (.refl _) fun _ => .ite (.refl _) ?_
          exact .bind (ih.items rest) fun _ => .refl _
        · refine .bind (.refl _) fun _ => .ite (.refl _) ?_
          exact .bind (ih.members rest) fun _ => .refl _
      · unfold readItems
        refine .bind (ih.value text) ?_
        rintro ⟨item, rest⟩
        refine .bind (.refl _) ?_
        rintro ⟨c, rest⟩
        exact .ite (.bind (ih.items rest) fun _ => .refl _) (.refl _)
      · unfold readMembers
        refine .bind (.refl _) ?_
        rintro ⟨c, rest⟩
        refine .ite (.refl _) (.bind (readChars_more steps rest) ?_)
        rintro ⟨key, rest⟩
        refine .bind (.refl _) ?_
        rintro ⟨c, rest⟩
        refine .ite (.refl _) (.bind (ih.value rest) ?_)
        rintro ⟨value, rest⟩
        refine .bind (.refl _) ?_
        rintro ⟨c, rest⟩
        exact .ite (.bind (ih.members rest) fun _ => .refl _) (.refl _)

theorem readValue_le
    {steps more : Nat}
    (fewer : steps ≤ more)
    {text : List UInt8}
    {result : Value × List UInt8}
    (read : readValue steps text = some result) :
    readValue more text = some result := by
  induction fewer with
  | refl => exact read
  | step _ ih => exact (reads_more _).value text result ih

/-! ## Texts -/

/-- The bytes are an encoding of characters. -/
def Utf8
    (text : List UInt8) : Prop :=
  ∃ chars : List Char, text = chars.flatMap String.utf8EncodeChar

theorem utf8_nil :
    Utf8 [] :=
  ⟨[], rfl⟩

theorem Utf8.append
    {first second : List UInt8}
    (one : Utf8 first)
    (two : Utf8 second) :
    Utf8 (first ++ second) := by
  obtain ⟨chars, rfl⟩ := one
  obtain ⟨more, rfl⟩ := two
  exact ⟨chars ++ more, List.flatMap_append.symm⟩

theorem high_byte
    {value base : Nat}
    (high : 0x80 ≤ base)
    (fits : value + base < 2 ^ 8) :
    (0x80 : UInt8) ≤ UInt8.ofNat (value + base) := by
  rw [UInt8.le_iff_toNat_le, UInt8.toNat_ofNat', Nat.mod_eq_of_lt fits]
  exact Nat.le_add_left_of_le high

/-- A character is one byte, or bytes from 0x80 on. -/
theorem utf8_bytes
    (c : Char) :
    (∃ byte, String.utf8EncodeChar c = [byte]) ∨
      ∀ byte ∈ String.utf8EncodeChar c, 0x80 ≤ byte := by
  unfold String.utf8EncodeChar
  dsimp only
  split
  · exact .inl ⟨_, rfl⟩
  · refine .inr ?_
    have continues (value : Nat) : value % 0x40 + 0x80 < 2 ^ 8 := by
      omega
    split
    · rintro byte (_ | ⟨_, _ | ⟨_, nothing⟩⟩)
      · exact high_byte (by decide) (by omega)
      · exact high_byte (by decide) (continues _)
      · cases nothing
    split
    · rintro byte (_ | ⟨_, _ | ⟨_, _ | ⟨_, nothing⟩⟩⟩)
      · exact high_byte (by decide) (by omega)
      · exact high_byte (by decide) (continues _)
      · exact high_byte (by decide) (continues _)
      · cases nothing
    · rintro byte (_ | ⟨_, _ | ⟨_, _ | ⟨_, _ | ⟨_, nothing⟩⟩⟩⟩)
      · exact high_byte (by decide) (by omega)
      · exact high_byte (by decide) (continues _)
      · exact high_byte (by decide) (continues _)
      · exact high_byte (by decide) (continues _)
      · cases nothing

theorem utf8_ascii
    {c : UInt8}
    (ascii : c < 0x80) :
    Utf8 [c] := by
  refine ⟨[Char.ofNat c.toNat], ?_⟩
  have small : c.toNat < 0x80 := UInt8.lt_iff_toNat_lt.mp ascii
  have valid : c.toNat.isValidChar := .inl (by omega)
  have same : (Char.ofNat c.toNat).val.toNat = c.toNat := by
    rw [Char.ofNat, dif_pos valid]
    rfl
  rw [List.flatMap_cons, List.flatMap_nil, List.append_nil]
  unfold String.utf8EncodeChar
  rw [same, if_pos (by omega), UInt8.ofNat_toNat]

theorem utf8_of_ascii
    {text : List UInt8}
    (ascii : ∀ c ∈ text, c < 0x80) :
    Utf8 text := by
  induction text with
  | nil => exact utf8_nil
  | cons c text ih =>
      obtain ⟨first, others⟩ := List.forall_mem_cons.mp ascii
      exact (utf8_ascii first).append (ih others)

/-- An encoding can be cut at every byte below 0x80. -/
theorem utf8_cut
    {c : UInt8}
    (ascii : c < 0x80)
    (front back : List UInt8) :
    Utf8 (front ++ c :: back) ↔ Utf8 front ∧ Utf8 back := by
  constructor
  · rintro ⟨chars, shape⟩
    induction chars generalizing front with
    | nil => exact absurd shape (by simp)
    | cons d chars ih =>
        rw [List.flatMap_cons] at shape
        have behind (left : List UInt8)
            (inside : front = String.utf8EncodeChar d ++ left)
            (others : left ++ c :: back =
              chars.flatMap String.utf8EncodeChar) :
            Utf8 front ∧ Utf8 back := by
          obtain ⟨one, two⟩ := ih left others
          rw [inside]
          exact ⟨.append ⟨[d], (List.append_nil _).symm⟩ one, two⟩
        rcases List.append_eq_append_iff.mp shape.symm with
          ⟨left, inside, others⟩ | ⟨left, across, others⟩
        · exact behind left inside others.symm
        · cases left with
          | nil =>
              exact behind [] (by simpa using across.symm) others
          | cons b left =>
              obtain ⟨rfl, rest⟩ := List.cons.inj others
              rcases utf8_bytes d with ⟨byte, single⟩ | high
              · rw [single] at across
                have length := congrArg List.length across
                simp only [List.length_append, List.length_cons,
                  List.length_nil] at length
                obtain rfl : front = [] := List.eq_nil_of_length_eq_zero
                  (by omega)
                obtain rfl : left = [] := List.eq_nil_of_length_eq_zero
                  (by omega)
                exact ⟨utf8_nil, chars, rest⟩
              · have member : c ∈ String.utf8EncodeChar d :=
                  across ▸ List.mem_append_right _ List.mem_cons_self
                exact absurd (high c member) (UInt8.not_le.mpr ascii)
  · rintro ⟨one, two⟩
    exact one.append ((utf8_ascii ascii).append two)

/-- A text is well formed, and the value is what it stands for. -/
def Denotes
    (text : List UInt8)
    (value : Value) : Prop :=
  Utf8 text ∧
    ∃ steps rest, readValue steps text = some (value, rest) ∧ next rest = none

/-- A text stands for one value only. -/
theorem Denotes.unique
    {text : List UInt8}
    {value other : Value}
    (first : Denotes text value)
    (second : Denotes text other) :
    value = other := by
  obtain ⟨-, steps, rest, read, -⟩ := first
  obtain ⟨-, more, after, also, -⟩ := second
  have one := readValue_le (Nat.le_max_left steps more) read
  have two := readValue_le (Nat.le_max_right steps more) also
  exact (Prod.mk.inj (Option.some.inj (one.symm.trans two))).1

/-! ## Tables -/

/-- A field of a record: its name and its text. -/
abbrev Field : Type := List UInt8 × List UInt8

def recordValue
    (record : List Field) : Value :=
  .object (record.map fun field => (field.1, .string field.2))

/-- An array of objects whose members are strings. -/
def tableValue
    (table : List (List Field)) : Value :=
  .array (table.map recordValue)

/-- A string between quotation marks, as it is. -/
def quoted
    (text : List UInt8) : List UInt8 :=
  quote :: (text ++ [quote])

/-- Texts with a comma between each two. -/
def commas : List (List UInt8) → List UInt8
  | [] => []
  | first :: rest => first ++ rest.flatMap (comma :: ·)

def fieldText
    (field : Field) : List UInt8 :=
  quoted field.1 ++ colon :: quoted field.2

def recordText
    (record : List Field) : List UInt8 :=
  openObject :: (commas (record.map fieldText) ++ [closeObject])

/-- The table, written without blanks and without escapes. -/
def tableText
    (table : List (List Field)) : List UInt8 :=
  openArray :: (commas (table.map recordText) ++ [closeArray])

/-- The text needs no escape. -/
def Literal
    (text : List UInt8) : Prop :=
  ∀ c ∈ text, Unescaped c

instance
    (text : List UInt8) :
    Decidable (Literal text) :=
  inferInstanceAs (Decidable (∀ _ ∈ _, _))

/-- No name and no text of a field needs an escape. -/
def LiteralFields
    (fields : List Field) : Prop :=
  ∀ field ∈ fields, Literal field.1 ∧ Literal field.2

theorem next_cons
    {c : UInt8}
    (visible : isBlank c = false)
    (rest : List UInt8) :
    next (c :: rest) = some (c, rest) := by
  unfold next
  rw [List.dropWhile_cons_of_neg (by rw [visible]; exact Bool.false_ne_true)]

/-! What a value starts with decides how it is read. -/

theorem readValue_quote
    (steps : Nat)
    (rest : List UInt8) :
    readValue (steps + 1) (quote :: rest) =
      (readChars steps rest).map fun read => (.string read.1, read.2) := by
  unfold readValue
  simp only [next_cons (show isBlank quote = false by decide),
    Option.bind_eq_bind, Option.bind_some, if_true, Option.map_eq_bind]
  rfl

theorem readValue_array
    (steps : Nat)
    (rest : List UInt8) :
    readValue (steps + 1) (openArray :: rest) =
      (next rest).bind fun first =>
        if first.1 = closeArray then some (.array [], first.2)
        else (readItems steps rest).map fun read => (.array read.1, read.2) := by
  conv => lhs; unfold readValue
  simp only [next_cons (show isBlank openArray = false by decide),
    Option.bind_eq_bind, Option.bind_some, Option.map_eq_bind]
  rfl

theorem readValue_object
    (steps : Nat)
    (rest : List UInt8) :
    readValue (steps + 1) (openObject :: rest) =
      (next rest).bind fun first =>
        if first.1 = closeObject then some (.object [], first.2)
        else
          (readMembers steps rest).map fun read =>
            (.object read.1, read.2) := by
  conv => lhs; unfold readValue
  simp only [next_cons (show isBlank openObject = false by decide),
    Option.bind_eq_bind, Option.bind_some, Option.map_eq_bind]
  rfl

theorem quoted_append
    (text after : List UInt8) :
    quoted text ++ after = quote :: (text ++ quote :: after) := by
  simp [quoted]

/-- A string that is read as it is written. -/
theorem string_same
    {steps : Nat}
    {text after rest : List UInt8}
    (read :
      readValue steps (quoted text ++ after) = some (.string text, rest)) :
    Literal text ∧ rest = after := by
  cases steps with
  | zero => exact absurd read (by simp [readValue])
  | succ steps =>
      rw [quoted_append, readValue_quote] at read
      obtain ⟨⟨said, left⟩, string, same⟩ := Option.map_eq_some_iff.mp read
      obtain ⟨value, rfl⟩ := Prod.mk.inj same
      obtain rfl : said = text := Value.string.inj value
      exact readChars_same string

theorem string_literal
    {steps : Nat}
    {text : List UInt8}
    (literal : Literal text)
    (after : List UInt8)
    (enough : (quoted text).length ≤ steps) :
    readValue steps (quoted text ++ after) = some (.string text, after) := by
  have length : (quoted text).length = text.length + 2 := by
    simp [quoted]
  obtain ⟨steps, rfl⟩ : ∃ fewer, steps = fewer + 1 :=
    Nat.exists_eq_succ_of_ne_zero (by omega)
  rw [quoted_append, readValue_quote,
    readChars_unescaped literal after (by omega)]
  rfl

/-- What comes behind the first of some texts with commas between them. -/
def others
    (texts : List (List UInt8)) : List UInt8 :=
  texts.flatMap (comma :: ·)

@[simp] theorem others_nil :
    others [] = [] :=
  rfl

@[simp] theorem others_cons
    (text : List UInt8)
    (texts : List (List UInt8)) :
    others (text :: texts) = comma :: (text ++ others texts) :=
  List.flatMap_cons

/-- A member at the start of a text, and what is read behind it. -/
theorem member_cases
    {steps : Nat}
    {text rest : List UInt8}
    {key : List UInt8}
    {value : Value}
    {members : List (List UInt8 × Value)}
    (read :
      readMembers (steps + 1) (quote :: text) =
        some ((key, value) :: members, rest)) :
    ∃ afterKey afterColon afterValue c behind,
      readChars steps text = some (key, afterKey) ∧
        next afterKey = some (colon, afterColon) ∧
        readValue steps afterColon = some (value, afterValue) ∧
        next afterValue = some (c, behind) ∧
        (c = comma ∧ readMembers steps behind = some (members, rest) ∨
          c = closeObject ∧ members = [] ∧ rest = behind) := by
  unfold readMembers at read
  simp only [next_cons (show isBlank quote = false by decide),
    Option.bind_eq_bind, Option.bind_some, ne_eq, not_true, if_false] at read
  obtain ⟨⟨name, afterKey⟩, first, read⟩ := Option.bind_eq_some_iff.mp read
  obtain ⟨⟨c, afterColon⟩, separator, read⟩ := Option.bind_eq_some_iff.mp read
  by_cases other : c = colon
  case neg => exact absurd read (by simp [other])
  subst other
  rw [if_neg (not_not.mpr rfl)] at read
  obtain ⟨⟨said, afterValue⟩, second, read⟩ := Option.bind_eq_some_iff.mp read
  obtain ⟨⟨d, behind⟩, ends, read⟩ := Option.bind_eq_some_iff.mp read
  dsimp only at first separator second ends read
  split at read
  case isTrue goesOn =>
    obtain ⟨⟨more, left⟩, others, same⟩ := Option.bind_eq_some_iff.mp read
    have pair := Prod.mk.inj (Option.some.inj same)
    obtain ⟨one, rfl⟩ := List.cons.inj pair.1
    obtain ⟨rfl, rfl⟩ := Prod.mk.inj one
    obtain rfl := pair.2
    exact ⟨_, _, _, _, _, first, separator, second, ends,
      .inl ⟨goesOn, others⟩⟩
  case isFalse =>
    split at read
    case isFalse => exact absurd read (by simp)
    case isTrue closes =>
      have pair := Prod.mk.inj (Option.some.inj read)
      obtain ⟨one, rfl⟩ := List.cons.inj pair.1
      obtain ⟨rfl, rfl⟩ := Prod.mk.inj one
      exact ⟨_, _, _, _, _, first, separator, second, ends,
        .inr ⟨closes, rfl, pair.2.symm⟩⟩

theorem fieldText_append
    (field : Field)
    (after : List UInt8) :
    fieldText field ++ after =
      quote :: (field.1 ++ quote :: colon :: (quoted field.2 ++ after)) := by
  simp [fieldText, quoted]

theorem length_fieldText
    (field : Field) :
    (fieldText field).length =
      field.1.length + (quoted field.2).length + 3 := by
  simp [fieldText, quoted]
  omega

theorem recordText_append
    (record : List Field)
    (after : List UInt8) :
    recordText record ++ after =
      openObject :: (commas (record.map fieldText) ++ closeObject :: after) := by
  simp [recordText]

/-- A field that is read as it is written, and what is read behind it. -/
theorem field_same
    {steps : Nat}
    {field : Field}
    {members : List (List UInt8 × Value)}
    {after rest : List UInt8}
    (read :
      readMembers (steps + 1) (fieldText field ++ after) =
        some ((field.1, .string field.2) :: members, rest)) :
    Literal field.1 ∧ Literal field.2 ∧
      ∃ c behind, next after = some (c, behind) ∧
        (c = comma ∧ readMembers steps behind = some (members, rest) ∨
          c = closeObject ∧ members = [] ∧ rest = behind) := by
  rw [fieldText_append] at read
  obtain ⟨_, _, _, c, behind, name, separator, value, ends, follows⟩ :=
    member_cases read
  obtain ⟨literal, rfl⟩ := readChars_same name
  rw [next_cons (by decide)] at separator
  obtain ⟨-, rfl⟩ := Prod.mk.inj (Option.some.inj separator)
  obtain ⟨also, rfl⟩ := string_same value
  exact ⟨literal, also, c, behind, ends, follows⟩

theorem fields_same
    {steps : Nat}
    {field : Field}
    {fields : List Field}
    {after rest : List UInt8}
    (read :
      readMembers steps
          (fieldText field ++ (others (fields.map fieldText) ++
            closeObject :: after)) =
        some ((field :: fields).map fun field => (field.1, .string field.2),
          rest)) :
    LiteralFields (field :: fields) ∧ rest = after := by
  induction fields generalizing steps field with
  | nil =>
      cases steps with
      | zero => exact absurd read (by simp [readMembers])
      | succ steps =>
          obtain ⟨name, text, c, behind, ends, follows⟩ := field_same read
          rw [List.map_nil, others_nil, List.nil_append,
            next_cons (by decide)] at ends
          obtain ⟨rfl, rfl⟩ := Prod.mk.inj (Option.some.inj ends)
          rcases follows with ⟨wrong, -⟩ | ⟨-, -, rfl⟩
          · exact absurd wrong (by decide)
          · exact ⟨List.forall_mem_singleton.mpr ⟨name, text⟩, rfl⟩
  | cons second fields ih =>
      cases steps with
      | zero => exact absurd read (by simp [readMembers])
      | succ steps =>
          obtain ⟨name, text, c, behind, ends, follows⟩ := field_same read
          rw [List.map_cons, others_cons, List.cons_append,
            next_cons (by decide), List.append_assoc] at ends
          obtain ⟨rfl, rfl⟩ := Prod.mk.inj (Option.some.inj ends)
          rcases follows with ⟨-, members⟩ | ⟨wrong, -⟩
          · obtain ⟨literal, rfl⟩ := ih members
            exact ⟨List.forall_mem_cons.mpr ⟨⟨name, text⟩, literal⟩, rfl⟩
          · exact absurd wrong (by decide)

theorem field_literal
    {steps : Nat}
    {field : Field}
    (name : Literal field.1)
    (text : Literal field.2)
    (c : UInt8)
    (visible : isBlank c = false)
    (after : List UInt8)
    (enough : (fieldText field).length ≤ steps + 1) :
    readMembers (steps + 1) (fieldText field ++ c :: after) =
      if c = comma then
        (readMembers steps after).map fun read =>
          ((field.1, .string field.2) :: read.1, read.2)
      else if c = closeObject then some ([(field.1, .string field.2)], after)
      else none := by
  have length := length_fieldText field
  have key := readChars_unescaped name (colon :: (quoted field.2 ++ c :: after))
    (show field.1.length < steps by simp [quoted] at length; omega)
  have value := string_literal text (c :: after)
    (show (quoted field.2).length ≤ steps by omega)
  rw [fieldText_append]
  conv => lhs; unfold readMembers
  simp only [next_cons (show isBlank quote = false by decide),
    next_cons (show isBlank colon = false by decide), next_cons visible, key,
    value, Option.bind_eq_bind, Option.bind_some, ne_eq, not_true, if_false,
    Option.map_eq_bind]
  rfl

theorem fields_literal
    {steps : Nat}
    {field : Field}
    {fields : List Field}
    (literal : LiteralFields (field :: fields))
    (after : List UInt8)
    (enough :
      (fieldText field ++ others (fields.map fieldText)).length ≤ steps) :
    readMembers steps
        (fieldText field ++ (others (fields.map fieldText) ++
          closeObject :: after)) =
      some ((field :: fields).map fun field => (field.1, .string field.2),
        after) := by
  induction fields generalizing steps field with
  | nil =>
      obtain ⟨name, text⟩ := literal field List.mem_cons_self
      have long := length_fieldText field
      rw [List.map_nil, others_nil, List.append_nil] at enough
      obtain ⟨steps, rfl⟩ : ∃ fewer, steps = fewer + 1 :=
        Nat.exists_eq_succ_of_ne_zero (by omega)
      rw [List.map_nil, others_nil, List.nil_append,
        field_literal name text closeObject (by decide) after (by omega)]
      rfl
  | cons second fields ih =>
      obtain ⟨⟨name, text⟩, literal⟩ := List.forall_mem_cons.mp literal
      have long := length_fieldText field
      rw [List.map_cons, others_cons, List.length_append, List.length_cons]
        at enough
      obtain ⟨steps, rfl⟩ : ∃ fewer, steps = fewer + 1 :=
        Nat.exists_eq_succ_of_ne_zero (by omega)
      rw [List.map_cons, others_cons, List.cons_append, List.append_assoc,
        field_literal name text comma (by decide) _ (by omega), if_pos rfl,
        ih literal (by omega)]
      rfl

/-- A record that is read as it is written. -/
theorem record_same
    {steps : Nat}
    {record : List Field}
    {after rest : List UInt8}
    (read :
      readValue steps (recordText record ++ after) =
        some (recordValue record, rest)) :
    LiteralFields record ∧ rest = after := by
  cases steps with
  | zero => exact absurd read (by simp [readValue])
  | succ steps =>
      rw [recordText_append, readValue_object] at read
      obtain ⟨⟨c, left⟩, first, read⟩ := Option.bind_eq_some_iff.mp read
      cases record with
      | nil =>
          rw [List.map_nil, commas, List.nil_append, next_cons (by decide)]
            at first
          obtain ⟨rfl, rfl⟩ := Prod.mk.inj (Option.some.inj first)
          rw [if_pos rfl] at read
          exact ⟨List.forall_mem_nil _,
            (Prod.mk.inj (Option.some.inj read)).2.symm⟩
      | cons field fields =>
          rw [List.map_cons, commas, List.append_assoc, ← others,
            fieldText_append, next_cons (by decide)] at first
          obtain ⟨rfl, rfl⟩ := Prod.mk.inj (Option.some.inj first)
          rw [if_neg (show quote ≠ closeObject by decide)] at read
          obtain ⟨⟨members, left⟩, fields, same⟩ :=
            Option.map_eq_some_iff.mp read
          obtain ⟨value, rfl⟩ := Prod.mk.inj same
          obtain rfl := Value.object.inj value
          rw [List.map_cons, commas, List.append_assoc] at fields
          exact fields_same fields

theorem record_literal
    {steps : Nat}
    {record : List Field}
    (literal : LiteralFields record)
    (after : List UInt8)
    (enough : (recordText record).length ≤ steps) :
    readValue steps (recordText record ++ after) =
      some (recordValue record, after) := by
  have length : (recordText record).length =
      (commas (record.map fieldText)).length + 2 := by
    simp [recordText]
  obtain ⟨steps, rfl⟩ : ∃ fewer, steps = fewer + 1 :=
    Nat.exists_eq_succ_of_ne_zero (by omega)
  rw [recordText_append, readValue_object]
  cases record with
  | nil =>
      rw [List.map_nil, commas, List.nil_append, next_cons (by decide)]
      rfl
  | cons field fields =>
      rw [List.map_cons, commas, ← others] at length
      rw [List.map_cons, commas, ← others, List.append_assoc,
        fields_literal literal after (by omega), fieldText_append,
        next_cons (by decide)]
      rfl

/-- An item at the start of a text, and what is read behind it. -/
theorem item_cases
    {steps : Nat}
    {text rest : List UInt8}
    {item : Value}
    {items : List Value}
    (read : readItems (steps + 1) text = some (item :: items, rest)) :
    ∃ afterItem c behind,
      readValue steps text = some (item, afterItem) ∧
        next afterItem = some (c, behind) ∧
        (c = comma ∧ readItems steps behind = some (items, rest) ∨
          c = closeArray ∧ items = [] ∧ rest = behind) := by
  unfold readItems at read
  obtain ⟨⟨value, afterItem⟩, one, read⟩ := Option.bind_eq_some_iff.mp read
  obtain ⟨⟨c, behind⟩, ends, read⟩ := Option.bind_eq_some_iff.mp read
  dsimp only at one ends read
  split at read
  case isTrue goesOn =>
    obtain ⟨⟨more, left⟩, others, same⟩ := Option.bind_eq_some_iff.mp read
    have pair := Prod.mk.inj (Option.some.inj same)
    obtain ⟨rfl, rfl⟩ := List.cons.inj pair.1
    obtain rfl := pair.2
    exact ⟨_, _, _, one, ends, .inl ⟨goesOn, others⟩⟩
  case isFalse =>
    split at read
    case isFalse => exact absurd read (by simp)
    case isTrue closes =>
      have pair := Prod.mk.inj (Option.some.inj read)
      obtain ⟨rfl, rfl⟩ := List.cons.inj pair.1
      exact ⟨_, _, _, one, ends, .inr ⟨closes, rfl, pair.2.symm⟩⟩

/-- No field of any record needs an escape. -/
def LiteralTable
    (table : List (List Field)) : Prop :=
  ∀ record ∈ table, LiteralFields record

theorem records_same
    {steps : Nat}
    {record : List Field}
    {table : List (List Field)}
    {after rest : List UInt8}
    (read :
      readItems steps
          (recordText record ++ (others (table.map recordText) ++
            closeArray :: after)) =
        some ((record :: table).map recordValue, rest)) :
    LiteralTable (record :: table) ∧ rest = after := by
  induction table generalizing steps record with
  | nil =>
      cases steps with
      | zero => exact absurd read (by simp [readItems])
      | succ steps =>
          obtain ⟨_, c, behind, one, ends, follows⟩ := item_cases read
          obtain ⟨literal, rfl⟩ := record_same one
          rw [List.map_nil, others_nil, List.nil_append,
            next_cons (by decide)] at ends
          obtain ⟨rfl, rfl⟩ := Prod.mk.inj (Option.some.inj ends)
          rcases follows with ⟨wrong, -⟩ | ⟨-, -, rfl⟩
          · exact absurd wrong (by decide)
          · exact ⟨List.forall_mem_singleton.mpr literal, rfl⟩
  | cons second table ih =>
      cases steps with
      | zero => exact absurd read (by simp [readItems])
      | succ steps =>
          obtain ⟨_, c, behind, one, ends, follows⟩ := item_cases read
          obtain ⟨literal, rfl⟩ := record_same one
          rw [List.map_cons, others_cons, List.cons_append,
            next_cons (by decide), List.append_assoc] at ends
          obtain ⟨rfl, rfl⟩ := Prod.mk.inj (Option.some.inj ends)
          rcases follows with ⟨-, items⟩ | ⟨wrong, -⟩
          · obtain ⟨all, rfl⟩ := ih items
            exact ⟨List.forall_mem_cons.mpr ⟨literal, all⟩, rfl⟩
          · exact absurd wrong (by decide)

theorem item_literal
    {steps : Nat}
    {record : List Field}
    (literal : LiteralFields record)
    (c : UInt8)
    (visible : isBlank c = false)
    (after : List UInt8)
    (enough : (recordText record).length ≤ steps) :
    readItems (steps + 1) (recordText record ++ c :: after) =
      if c = comma then
        (readItems steps after).map fun read =>
          (recordValue record :: read.1, read.2)
      else if c = closeArray then some ([recordValue record], after)
      else none := by
  conv => lhs; unfold readItems
  simp only [record_literal literal (c :: after) enough, next_cons visible,
    Option.bind_eq_bind, Option.bind_some, Option.map_eq_bind]
  rfl

theorem records_literal
    {steps : Nat}
    {record : List Field}
    {table : List (List Field)}
    (literal : LiteralTable (record :: table))
    (after : List UInt8)
    (enough :
      (recordText record ++ others (table.map recordText)).length < steps) :
    readItems steps
        (recordText record ++ (others (table.map recordText) ++
          closeArray :: after)) =
      some ((record :: table).map recordValue, after) := by
  induction table generalizing steps record with
  | nil =>
      obtain ⟨steps, rfl⟩ : ∃ fewer, steps = fewer + 1 :=
        Nat.exists_eq_succ_of_ne_zero (by omega)
      rw [List.map_nil, others_nil, List.append_nil] at enough
      rw [List.map_nil, others_nil, List.nil_append,
        item_literal (literal record List.mem_cons_self) closeArray
          (by decide) after (by omega)]
      rfl
  | cons second table ih =>
      obtain ⟨first, literal⟩ := List.forall_mem_cons.mp literal
      rw [List.map_cons, others_cons, List.length_append, List.length_cons]
        at enough
      obtain ⟨steps, rfl⟩ : ∃ fewer, steps = fewer + 1 :=
        Nat.exists_eq_succ_of_ne_zero (by omega)
      rw [List.map_cons, others_cons, List.cons_append, List.append_assoc,
        item_literal first comma (by decide) _ (by omega), if_pos rfl,
        ih literal (by omega)]
      rfl

theorem tableText_append
    (table : List (List Field))
    (after : List UInt8) :
    tableText table ++ after =
      openArray :: (commas (table.map recordText) ++ closeArray :: after) := by
  simp [tableText]

theorem table_same
    {steps : Nat}
    {table : List (List Field)}
    {rest : List UInt8}
    (read : readValue steps (tableText table) = some (tableValue table, rest)) :
    LiteralTable table := by
  cases steps with
  | zero => exact absurd read (by simp [readValue])
  | succ steps =>
      rw [← List.append_nil (tableText table), tableText_append,
        readValue_array] at read
      obtain ⟨⟨c, left⟩, first, read⟩ := Option.bind_eq_some_iff.mp read
      cases table with
      | nil => exact List.forall_mem_nil _
      | cons record table =>
          rw [List.map_cons, commas, ← others, List.append_assoc,
            recordText_append, next_cons (by decide)] at first
          obtain ⟨rfl, rfl⟩ := Prod.mk.inj (Option.some.inj first)
          rw [if_neg (show openObject ≠ closeArray by decide)] at read
          obtain ⟨⟨items, left⟩, records, same⟩ :=
            Option.map_eq_some_iff.mp read
          obtain ⟨value, rfl⟩ := Prod.mk.inj same
          obtain rfl := Value.array.inj value
          rw [List.map_cons, commas, ← others, List.append_assoc] at records
          exact (records_same records).1

theorem table_literal
    {table : List (List Field)}
    (literal : LiteralTable table) :
    readValue (tableText table).length (tableText table) =
      some (tableValue table, []) := by
  have length : (tableText table).length =
      (commas (table.map recordText)).length + 2 := by
    simp [tableText]
  rw [length]
  conv => lhs; rw [← List.append_nil (tableText table), tableText_append]
  rw [readValue_array]
  cases table with
  | nil =>
      rw [List.map_nil, commas, List.nil_append, next_cons (by decide)]
      rfl
  | cons record table =>
      rw [List.map_cons, commas, ← others, List.append_assoc,
        records_literal literal [] (Nat.lt_succ_self _), recordText_append,
        next_cons (by decide)]
      rfl

/-! ## The bytes of a table -/

/-- The bytes between the strings of a table. -/
def delimiters : List UInt8 :=
  [quote, comma, colon, openArray, closeArray, openObject, closeObject]

theorem forall_mem_between
    {P : UInt8 → Prop}
    {first last : UInt8}
    (opens : P first)
    (closes : P last)
    {text : List UInt8}
    (inside : ∀ c ∈ text, P c) :
    ∀ c ∈ first :: (text ++ [last]), P c := by
  simpa [or_imp, forall_and] using ⟨opens, inside, closes⟩

theorem forall_mem_commas
    {P : UInt8 → Prop}
    (separates : P comma)
    {texts : List (List UInt8)}
    (inside : ∀ text ∈ texts, ∀ c ∈ text, P c) :
    ∀ c ∈ commas texts, P c := by
  cases texts with
  | nil => exact List.forall_mem_nil _
  | cons text texts =>
      intro c member
      rcases List.mem_append.mp member with first | later
      · exact inside text List.mem_cons_self c first
      · obtain ⟨other, among, member⟩ := List.mem_flatMap.mp later
        rcases List.mem_cons.mp member with rfl | member
        · exact separates
        · exact inside other (List.mem_cons_of_mem _ among) c member

/-- What holds of the delimiters and in every string holds of all bytes. -/
theorem forall_mem_tableText
    {P : UInt8 → Prop}
    (between : ∀ c ∈ delimiters, P c)
    {table : List (List Field)}
    (strings :
      ∀ record ∈ table, ∀ field ∈ record,
        (∀ c ∈ field.1, P c) ∧ ∀ c ∈ field.2, P c) :
    ∀ c ∈ tableText table, P c := by
  have mark : P quote := between _ (by decide)
  refine forall_mem_between (between _ (by decide)) (between _ (by decide))
    (forall_mem_commas (between _ (by decide)) ?_)
  refine List.forall_mem_map.mpr fun record among => ?_
  refine forall_mem_between (between _ (by decide)) (between _ (by decide))
    (forall_mem_commas (between _ (by decide)) ?_)
  refine List.forall_mem_map.mpr fun field member => ?_
  obtain ⟨name, text⟩ := strings record among field member
  intro c inside
  rcases List.mem_append.mp inside with first | later
  · exact forall_mem_between mark mark name c first
  · rcases List.mem_cons.mp later with rfl | later
    · exact between _ (by decide)
    · exact forall_mem_between mark mark text c later

/-! ## Encoded tables -/

theorem utf8_others
    (front : List UInt8)
    (texts : List (List UInt8)) :
    Utf8 (front ++ others texts) ↔ Utf8 front ∧ ∀ text ∈ texts, Utf8 text := by
  induction texts generalizing front with
  | nil => simp
  | cons text texts ih =>
      rw [others_cons, utf8_cut (by decide), ih, List.forall_mem_cons]

theorem utf8_commas
    (texts : List (List UInt8)) :
    Utf8 (commas texts) ↔ ∀ text ∈ texts, Utf8 text := by
  cases texts with
  | nil => simp [commas, utf8_nil]
  | cons text texts =>
      rw [commas, ← others, utf8_others, List.forall_mem_cons]

/-- Between two bytes below 0x80. -/
theorem utf8_between
    {first last : UInt8}
    (opens : first < 0x80)
    (closes : last < 0x80)
    (text : List UInt8) :
    Utf8 (first :: (text ++ [last])) ↔ Utf8 text := by
  rw [← List.nil_append (first :: (text ++ [last])), utf8_cut opens,
    utf8_cut closes]
  simp [utf8_nil]

theorem utf8_fieldText
    (field : Field) :
    Utf8 (fieldText field) ↔ Utf8 field.1 ∧ Utf8 field.2 := by
  rw [fieldText, utf8_cut (by decide), quoted, quoted,
    utf8_between (by decide) (by decide), utf8_between (by decide) (by decide)]

/-- The text of a table is an encoding if the strings are. -/
theorem utf8_tableText
    (table : List (List Field)) :
    Utf8 (tableText table) ↔
      ∀ record ∈ table, ∀ field ∈ record, Utf8 field.1 ∧ Utf8 field.2 := by
  have record (fields : List Field) :
      Utf8 (recordText fields) ↔
        ∀ field ∈ fields, Utf8 field.1 ∧ Utf8 field.2 := by
    rw [recordText, utf8_between (by decide) (by decide), utf8_commas,
      List.forall_mem_map]
    exact forall₂_congr fun field _ => utf8_fieldText field
  rw [tableText, utf8_between (by decide) (by decide), utf8_commas,
    List.forall_mem_map]
  exact forall₂_congr fun fields _ => record fields

/-- A string that may stand between quotation marks as it is. -/
structure Presentable
    (text : List UInt8) : Prop where
  utf8 : Utf8 text
  literal : Literal text

theorem presentable_ascii
    {text : List UInt8}
    (ascii : ∀ c ∈ text, Unescaped c ∧ c < 0x80) :
    Presentable text :=
  ⟨utf8_of_ascii fun c member => (ascii c member).2,
    fun c member => (ascii c member).1⟩

/--
A table that is written without escapes reads as itself exactly when each of
its strings may stand as it is.
-/
theorem denotes_tableText_iff
    (table : List (List Field)) :
    Denotes (tableText table) (tableValue table) ↔
      ∀ record ∈ table, ∀ field ∈ record,
        Presentable field.1 ∧ Presentable field.2 := by
  constructor
  · rintro ⟨encoded, steps, rest, read, -⟩
    intro record member field among
    obtain ⟨name, text⟩ := table_same read record member field among
    obtain ⟨name', text'⟩ :=
      (utf8_tableText table).mp encoded record member field among
    exact ⟨⟨name', name⟩, text', text⟩
  · intro presentable
    refine ⟨(utf8_tableText table).mpr ?_, _, [], table_literal ?_, rfl⟩
    · intro record member field among
      obtain ⟨name, text⟩ := presentable record member field among
      exact ⟨name.utf8, text.utf8⟩
    · intro record member field among
      obtain ⟨name, text⟩ := presentable record member field among
      exact ⟨name.literal, text.literal⟩

end JsonText
