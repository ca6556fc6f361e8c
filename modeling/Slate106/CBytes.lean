import Mathlib.Data.List.TakeDrop
import Mathlib.Data.List.TakeWhile

namespace CBytes

/-!
# Byte memory and C strings

A C byte array is a list of bytes from its first byte on; a byte that is not
in the list is the zero the memory starts with.  Indices are not bounded: an
access past the declared size of an array stays in the array's own list.

A C string is the bytes before the first zero.
-/

/-- What holds of the 256 bytes holds of a byte. -/
theorem forall_byte
    {motive : UInt8 → Prop}
    (all : ∀ number : Fin 256, motive (UInt8.ofNat number))
    (byte : UInt8) :
    motive byte := by
  have same := all ⟨byte.toNat, byte.toNat_lt⟩
  simpa using same

/-- The byte at an index. -/
def peek
    (memory : List UInt8)
    (index : Nat) : UInt8 :=
  memory.getD index 0

/-- Store consecutive bytes from an index on. -/
def poke
    (memory : List UInt8)
    (index : Nat)
    (bytes : List UInt8) : List UInt8 :=
  memory.takeD index 0 ++ bytes ++ memory.drop (index + bytes.length)

/-- The C string at the start of the memory. -/
def cstr
    (memory : List UInt8) : List UInt8 :=
  memory.takeWhile (· ≠ 0)

/-- The C string that a pointer to an index points to. -/
def cstrAt
    (memory : List UInt8)
    (index : Nat) : List UInt8 :=
  cstr (memory.drop index)

@[simp] theorem cstr_nil :
    cstr [] = [] :=
  rfl

@[simp] theorem cstr_cons_zero
    (rest : List UInt8) :
    cstr (0 :: rest) = [] := by
  simp [cstr]

theorem cstr_cons
    {byte : UInt8}
    (nonzero : byte ≠ 0)
    (rest : List UInt8) :
    cstr (byte :: rest) = byte :: cstr rest :=
  List.takeWhile_cons_of_pos (by simpa using nonzero)

/-- A C string has no zero byte. -/
theorem zero_notMem_cstr
    (memory : List UInt8) :
    (0 : UInt8) ∉ cstr memory := by
  intro member
  have nonzero := List.mem_takeWhile_imp member
  simp at nonzero

/-- The string before an explicit terminator is read back whole. -/
theorem cstr_append_zero
    {text : List UInt8}
    (noZero : (0 : UInt8) ∉ text)
    (rest : List UInt8) :
    cstr (text ++ 0 :: rest) = text := by
  induction text with
  | nil =>
      simp
  | cons byte text inductionHypothesis =>
      simp only [List.mem_cons, not_or] at noZero
      rw [List.cons_append, cstr_cons (Ne.symm noZero.1),
        inductionHypothesis noZero.2]

/-- What is behind a terminator does not matter. -/
theorem cstr_append_terminated
    (bytes rest : List UInt8) :
    cstr (bytes ++ 0 :: rest) = cstr bytes := by
  induction bytes with
  | nil =>
      rfl
  | cons byte bytes inductionHypothesis =>
      by_cases zero : byte = 0
      · rw [zero]
        rfl
      · rw [List.cons_append, cstr_cons zero, cstr_cons zero,
          inductionHypothesis]

/-- Memory without a zero byte is one string. -/
theorem cstr_of_notMem
    {text : List UInt8}
    (noZero : (0 : UInt8) ∉ text) :
    cstr text = text := by
  induction text with
  | nil =>
      rfl
  | cons byte text inductionHypothesis =>
      simp only [List.mem_cons, not_or] at noZero
      rw [cstr_cons (Ne.symm noZero.1), inductionHypothesis noZero.2]

/-- The string in the first bytes of a memory. -/
theorem cstr_take
    (memory : List UInt8)
    (count : Nat) :
    cstr (memory.take count) = (cstr memory).take count := by
  induction memory generalizing count with
  | nil =>
      simp
  | cons byte rest inductionHypothesis =>
      cases count with
      | zero =>
          simp
      | succ count =>
          by_cases zero : byte = 0
          · simp [zero]
          · rw [List.take_succ_cons, cstr_cons zero, cstr_cons zero,
              List.take_succ_cons, inductionHypothesis]

/-- Reading inside the first part of an appended memory. -/
theorem peek_append_left
    {first : List UInt8}
    {index : Nat}
    (inside : index < first.length)
    (second : List UInt8) :
    peek (first ++ second) index = peek first index := by
  simp [peek, List.getElem?_append_left inside]

/-- Reading past the first part of an appended memory. -/
theorem peek_append_right
    {first : List UInt8}
    {index : Nat}
    (past : first.length ≤ index)
    (second : List UInt8) :
    peek (first ++ second) index =
      peek second (index - first.length) := by
  simp [peek, List.getElem?_append_right past]

/-- The byte stored at the split point of a memory. -/
@[simp] theorem peek_append_cons
    (first : List UInt8)
    (byte : UInt8)
    (rest : List UInt8) :
    peek (first ++ byte :: rest) first.length = byte := by
  simp [peek]

@[simp] theorem peek_nil
    (index : Nat) :
    peek [] index = 0 :=
  rfl

@[simp] theorem peek_cons_zero
    (byte : UInt8)
    (rest : List UInt8) :
    peek (byte :: rest) 0 = byte :=
  rfl

@[simp] theorem peek_cons_succ
    (byte : UInt8)
    (rest : List UInt8)
    (index : Nat) :
    peek (byte :: rest) (index + 1) = peek rest index :=
  rfl

/-- Padding with zeros shows the zeros the memory starts with. -/
theorem peek_takeD
    (memory : List UInt8)
    {count index : Nat}
    (inside : index < count) :
    peek (memory.takeD count 0) index = peek memory index := by
  induction count generalizing memory index with
  | zero =>
      omega
  | succ count inductionHypothesis =>
      cases index with
      | zero =>
          cases memory <;> rfl
      | succ index =>
          have earlier :=
            inductionHypothesis memory.tail (Nat.lt_of_succ_lt_succ inside)
          cases memory with
          | nil =>
              simpa [List.takeD_succ, peek] using earlier
          | cons byte rest =>
              simpa [List.takeD_succ] using earlier

theorem peek_drop
    (memory : List UInt8)
    (start index : Nat) :
    peek (memory.drop start) index = peek memory (start + index) := by
  simp [peek]

/-- A string and the zero byte behind it are read from the memory. -/
theorem peek_cstr
    {memory : List UInt8}
    {index : Nat}
    (inside : index ≤ (cstr memory).length) :
    peek (cstr memory) index = peek memory index := by
  induction memory generalizing index with
  | nil =>
      rfl
  | cons byte rest inductionHypothesis =>
      by_cases zero : byte = 0
      · subst zero
        rw [cstr_cons_zero, List.length_nil] at inside
        rw [Nat.le_zero.mp inside, cstr_cons_zero]
        rfl
      · rw [cstr_cons zero] at inside ⊢
        cases index with
        | zero =>
            rfl
        | succ index =>
            rw [peek_cons_succ, peek_cons_succ]
            exact inductionHypothesis (Nat.le_of_succ_le_succ inside)

/-- A zero byte bounds the length of the string before it. -/
theorem length_cstr_le
    {memory : List UInt8}
    {index : Nat}
    (ended : peek memory index = 0) :
    (cstr memory).length ≤ index := by
  induction memory generalizing index with
  | nil =>
      exact Nat.zero_le index
  | cons byte rest inductionHypothesis =>
      cases index with
      | zero =>
          have zero : byte = 0 := ended
          rw [zero, cstr_cons_zero]
          exact Nat.le_refl 0
      | succ index =>
          have shorter := inductionHypothesis ended
          by_cases zero : byte = 0
          · rw [zero, cstr_cons_zero]
            exact Nat.zero_le _
          · rw [cstr_cons zero, List.length_cons]
            exact Nat.succ_le_succ shorter

/-- A pointer to a NUL is the empty string. -/
theorem cstrAt_end
    {memory : List UInt8}
    {index : Nat}
    (ended : peek memory index = 0) :
    cstrAt memory index = [] := by
  have short := @length_cstr_le (memory.drop index) 0 (by
    rw [peek_drop]
    exact ended)
  exact List.length_eq_zero_iff.mp (Nat.le_zero.mp short)

/-- A string is its first byte and the string behind it. -/
theorem cstrAt_next
    {memory : List UInt8}
    {index : Nat}
    (more : peek memory index ≠ 0) :
    cstrAt memory index = peek memory index :: cstrAt memory (index + 1) := by
  have split : memory.drop index =
      peek memory index :: memory.drop (index + 1) := by
    have inside : index < memory.length := by
      by_contra past
      apply more
      simp [peek, List.getElem?_eq_none (Nat.not_lt.mp past)]
    rw [List.drop_eq_getElem_cons inside]
    simp [peek, inside]
  unfold cstrAt cstr
  rw [split, List.takeWhile_cons_of_pos (by simpa using more)]

/-- The bytes a store has written. -/
theorem peek_poke_inside
    (memory : List UInt8)
    (place : Nat)
    {bytes : List UInt8}
    {index : Nat}
    (inside : index < bytes.length) :
    peek (poke memory place bytes) (place + index) = peek bytes index := by
  have split : (memory.takeD place 0).length = place := by
    simp
  rw [poke, List.append_assoc, peek_append_right (by simp),
    split, Nat.add_sub_cancel_left, peek_append_left inside]

/-- A store does not touch the bytes before it. -/
theorem peek_poke_before
    (memory : List UInt8)
    {place index : Nat}
    (before : index < place)
    (bytes : List UInt8) :
    peek (poke memory place bytes) index = peek memory index := by
  have inside : index < (memory.takeD place 0).length := by
    simpa using before
  rw [poke, List.append_assoc, peek_append_left inside,
    peek_takeD memory before]

@[simp] theorem poke_zero
    (memory bytes : List UInt8) :
    poke memory 0 bytes = bytes ++ memory.drop bytes.length := by
  simp [poke]

/-- From where bytes are stored on, the memory starts with them. -/
theorem drop_poke
    (memory bytes : List UInt8)
    (place : Nat) :
    (poke memory place bytes).drop place =
      bytes ++ memory.drop (place + bytes.length) := by
  rw [poke, List.append_assoc, List.drop_left' (List.takeD_length ..)]

/-- Storing at the split point replaces the bytes there. -/
theorem poke_append
    (first old second bytes : List UInt8)
    (sameLength : old.length = bytes.length) :
    poke (first ++ (old ++ second)) first.length bytes =
      first ++ (bytes ++ second) := by
  simp [poke, List.takeD_eq_take, ← sameLength, List.drop_append]

/-- A store behind what is there. -/
theorem poke_end
    (field tail bytes : List UInt8) :
    poke (field ++ tail) field.length bytes =
      field ++ (bytes ++ tail.drop bytes.length) := by
  simp [poke, List.takeD_eq_take, List.drop_append]

/-- A store does not touch the bytes behind it. -/
theorem peek_poke_after
    (memory : List UInt8)
    {place index : Nat}
    (bytes : List UInt8)
    (after : place + bytes.length ≤ index) :
    peek (poke memory place bytes) index = peek memory index := by
  have stored : (memory.takeD place 0 ++ bytes).length =
      place + bytes.length := by
    simp
  rw [poke, peek_append_right (by rw [stored]; exact after), stored,
    peek_drop, Nat.add_sub_cancel' after]

/-- The memory after one byte was stored. -/
theorem peek_poke_byte
    (memory : List UInt8)
    (place : Nat)
    (byte : UInt8)
    (index : Nat) :
    peek (poke memory place [byte]) index =
      if index = place then byte else peek memory index := by
  rcases Nat.lt_trichotomy index place with before | same | after
  · rw [if_neg (Nat.ne_of_lt before), peek_poke_before memory before]
  · subst same
    have stored : 0 < [byte].length := Nat.one_pos
    rw [if_pos rfl]
    exact peek_poke_inside memory index stored
  · rw [if_neg (Nat.ne_of_gt after), peek_poke_after memory [byte] after]

/-- The bytes from a place on, as many as are wanted. -/
def slice
    (memory : List UInt8)
    (place count : Nat) : List UInt8 :=
  (List.range count).map fun index => peek memory (place + index)

@[simp] theorem length_slice
    (memory : List UInt8)
    (place count : Nat) :
    (slice memory place count).length = count := by
  simp [slice]

/-- Memories that agree on a stretch have the same bytes there. -/
theorem slice_congr
    {memory memory' : List UInt8}
    {place count : Nat}
    (agree :
      ∀ index, place ≤ index → index < place + count →
        peek memory index = peek memory' index) :
    slice memory place count = slice memory' place count := by
  apply List.map_congr_left
  intro index member
  rw [List.mem_range] at member
  exact agree (place + index) (Nat.le_add_right ..)
    (Nat.add_lt_add_left member place)

theorem takeD_drop_eq_slice
    (memory : List UInt8)
    (place count : Nat) :
    (memory.drop place).takeD count 0 = slice memory place count := by
  apply List.ext_getElem
  · simp
  · intro index inside _
    have below : index < count := by
      simpa using inside
    have read := peek_takeD (memory.drop place) below
    rw [peek_drop] at read
    simp only [slice, List.getElem_map, List.getElem_range]
    rw [← read, peek, List.getD_eq_getElem?_getD,
      List.getElem?_eq_getElem inside, Option.getD_some]

/-- The string before a known zero byte. -/
theorem cstr_eq_slice
    {memory : List UInt8}
    {index : Nat}
    (ended : peek memory index = 0) :
    cstr memory = cstr (slice memory 0 index) := by
  induction memory generalizing index with
  | nil =>
      cases index with
      | zero =>
          rfl
      | succ index =>
          have zero : slice [] 0 (index + 1) =
              0 :: slice [] 1 index := by
            simp [slice, List.range_succ_eq_map, Function.comp_def]
          rw [zero, cstr_cons_zero]
          rfl
  | cons byte rest inductionHypothesis =>
      cases index with
      | zero =>
          have zero : byte = 0 := ended
          rw [zero, cstr_cons_zero]
          rfl
      | succ index =>
          have shifted :
              slice (byte :: rest) 0 (index + 1) =
                byte :: slice rest 0 index := by
            simp [slice, List.range_succ_eq_map]
          have same := inductionHypothesis ended
          by_cases zero : byte = 0
          · rw [shifted, zero, cstr_cons_zero, cstr_cons_zero]
          · rw [shifted, cstr_cons zero, cstr_cons zero, same]

/-- The string at a place before a known zero byte. -/
theorem cstrAt_eq_slice
    {memory : List UInt8}
    {place count : Nat}
    (ended : peek memory (place + count) = 0) :
    cstrAt memory place = cstr (slice memory place count) := by
  have shifted : slice (memory.drop place) 0 count =
      slice memory place count := by
    simp [slice, peek_drop]
  rw [cstrAt, cstr_eq_slice (by rw [peek_drop]; exact ended), shifted]

theorem peek_slice
    (memory : List UInt8)
    (place : Nat)
    {count index : Nat}
    (inside : index < count) :
    peek (slice memory place count) index =
      peek memory (place + index) := by
  rw [← takeD_drop_eq_slice, peek_takeD _ inside, peek_drop]

theorem take_slice
    (memory : List UInt8)
    (place : Nat)
    {count count' : Nat}
    (fewer : count ≤ count') :
    (slice memory place count').take count = slice memory place count := by
  rw [slice, ← List.map_take, List.take_range, Nat.min_eq_left fewer]
  rfl

/-- A terminator behind bytes that are put back ends the string there. -/
theorem cstrAt_poke_slice
    {memory original : List UInt8}
    {start length : Nat}
    (agree : ∀ index, index < start + length →
      peek memory index = peek original index)
    (count : Nat) :
    cstrAt
        (poke memory (start + length)
          (slice original (start + length) count ++ [0]))
        start =
      cstr (slice original start (length + count)) := by
  have stored :
      (slice original (start + length) count ++ [0]).length =
        count + 1 := by
    simp
  have ended :
      peek
          (poke memory (start + length)
            (slice original (start + length) count ++ [0]))
          (start + (length + count)) =
        0 := by
    rw [← Nat.add_assoc,
      peek_poke_inside _ _ (by rw [stored]; exact Nat.lt_succ_self _),
      peek_append_right (by simp), length_slice, Nat.sub_self]
    rfl
  rw [cstrAt_eq_slice ended]
  congr 1
  apply slice_congr
  intro index _ below
  rw [← Nat.add_assoc] at below
  by_cases before : index < start + length
  · rw [peek_poke_before _ before, agree index before]
  · obtain ⟨offset, rfl⟩ := Nat.exists_eq_add_of_le (Nat.le_of_not_lt before)
    have inside : offset < count := Nat.lt_of_add_lt_add_left below
    rw [peek_poke_inside _ _ (by rw [stored]; exact Nat.lt_succ_of_lt inside),
      peek_append_left (by rw [length_slice]; exact inside),
      peek_slice _ _ inside]

theorem cstr_poke_slice
    {memory original : List UInt8}
    {place : Nat}
    (agree : ∀ index, index < place →
      peek memory index = peek original index)
    (count : Nat) :
    cstr (poke memory place (slice original place count ++ [0])) =
      cstr (slice original 0 (place + count)) := by
  have whole :=
    @cstrAt_poke_slice memory original 0 place
      (by rw [Nat.zero_add]; exact agree) count
  rw [Nat.zero_add, cstrAt, List.drop_zero] at whole
  exact whole

/-- Storing bytes one after the other. -/
theorem poke_cons
    (memory : List UInt8)
    (place : Nat)
    (byte : UInt8)
    (bytes : List UInt8) :
    poke (poke memory place [byte]) (place + 1) bytes =
      poke memory place (byte :: bytes) := by
  have split : (memory.takeD place 0 ++ [byte]).length = place + 1 := by
    simp
  have front :
      (poke memory place [byte]).takeD (place + 1) 0 =
        memory.takeD place 0 ++ [byte] := by
    rw [poke, ← split, List.takeD_eq_take 0 (by simp), List.take_left]
  have behind :
      (poke memory place [byte]).drop (place + 1 + bytes.length) =
        memory.drop (place + (bytes.length + 1)) := by
    rw [poke, ← split, List.drop_length_add_append, List.drop_drop,
      List.length_singleton]
    congr 1
    ac_rfl
  rw [poke, front, behind, poke, List.length_cons]
  simp

end CBytes
