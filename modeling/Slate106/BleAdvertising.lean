import Slate106.KermitData
import Slate106.LengthPrefixed

namespace Slate106.Ble

open LengthPrefixed
open Kermit (lit)

/-!
# Advertising reports

The two loops of `main.c` over the data of an advertising report, with the
indices they read.  The data is the memory from its first byte on; what lies
behind its length is any memory.

Both loops compare the end of a field with the length as if the length byte of
the field were not there, so that the last byte of a field may be the one
behind the data.
-/

/-! ## The loops -/

/-- `EIR_NAME_SHORT`. -/
abbrev eirNameShort : UInt8 := 0x08

/-- `EIR_NAME_COMPLETE`. -/
abbrev eirNameComplete : UInt8 := 0x09

/-- `FLAGS_AD_TYPE`. -/
abbrev flagsAdType : UInt8 := 0x01

/-- `FLAGS_LIMITED_MODE_BIT`. -/
abbrev flagsLimitedModeBit : UInt8 := 0x01

/-- `FLAGS_GENERAL_MODE_BIT`. -/
abbrev flagsGeneralModeBit : UInt8 := 0x02

/-- `EINVAL`. -/
abbrev einval : Int := 22

/-- `ENOENT`. -/
abbrev enoent : Int := 2

/-- What `eir_parse_name()` stores from `buf` on, and the indices it reads. -/
structure NameRun where
  name : List UInt8
  read : List Nat
  deriving Repr, DecidableEq

/-- Indices that were read before. -/
def NameRun.after
    (indices : List Nat)
    (run : NameRun) : NameRun :=
  { run with read := indices ++ run.read }

/-- `snprintf(buf, buf_len, "(unknown)");` -/
def unknownName
    (bufLen : Nat) : NameRun where
  name :=
    if bufLen = 0 then [] else (lit "(unknown)").take (bufLen - 1) ++ [0]
  read := []

/-- The field has the short or the complete name of the device. -/
def IsName
    (type : UInt8) : Prop :=
  type = eirNameShort ∨ type = eirNameComplete

instance decidableIsName
    (type : UInt8) :
    Decidable (IsName type) :=
  inferInstanceAs (Decidable (_ ∨ _))

/-- The loop of `eir_parse_name()`; `none` if it goes on after the turns. -/
def eirParseNameLoop
    (eir : Nat → UInt8)
    (eirLen bufLen : Nat) : Nat → Nat → Option NameRun
  | 0, _ => none
  | turns + 1, offset =>
      if offset < eirLen then
        let fieldLen := (eir offset).toNat
        if fieldLen = 0 then some ((unknownName bufLen).after [offset])
        else if offset + fieldLen > eirLen then
          some ((unknownName bufLen).after [offset])
        else if IsName (eir (offset + 1)) then
          let nameLen := fieldLen - 1
          if nameLen > bufLen then
            some ((unknownName bufLen).after [offset, offset + 1])
          else
            let indices := (List.range nameLen).map (offset + 2 + ·)
            some
              { name := indices.map eir
                read := [offset, offset + 1] ++ indices }
        else
          (eirParseNameLoop eir eirLen bufLen turns
            (offset + (fieldLen + 1))).map (·.after [offset, offset + 1])
      else some (unknownName bufLen)

/-- `eir_parse_name()`. -/
def eirParseName
    (eir : Nat → UInt8)
    (eirLen bufLen : Nat) : Option NameRun :=
  eirParseNameLoop eir eirLen bufLen (eirLen + 1) 0

/--
What `read_flags()` returns and stores at `flags`, and the indices it reads.
-/
structure FlagsRun where
  code : Int
  flags : Option UInt8
  read : List Nat
  deriving Repr, DecidableEq

/-- Indices that were read before. -/
def FlagsRun.after
    (indices : List Nat)
    (run : FlagsRun) : FlagsRun :=
  { run with read := indices ++ run.read }

/-- `return -ENOENT;` -/
def noFlags : FlagsRun where
  code := -enoent
  flags := none
  read := []

/-- The loop of `read_flags()`; `none` if it goes on after the turns. -/
def readFlagsLoop
    (data : Nat → UInt8)
    (size : Nat) : Nat → Nat → Option FlagsRun
  | 0, _ => none
  | turns + 1, offset =>
      if offset < size then
        let len := (data offset).toNat
        if len = 0 then some (noFlags.after [offset])
        else if len + offset > size then some (noFlags.after [offset])
        else if data (offset + 1) = flagsAdType then
          some
            { code := 0
              flags := some (data (offset + 2))
              read := [offset, offset + 1, offset + 2] }
        else
          (readFlagsLoop data size turns (offset + (1 + len))).map
            (·.after [offset, offset + 1])
      else some noFlags

/-- `read_flags()`; the data is `none` for a null pointer. -/
def readFlags
    (wanted : Bool)
    (data : Option (Nat → UInt8))
    (size : Nat) : Option FlagsRun :=
  match wanted, data with
  | true, some data => readFlagsLoop data size (size + 1) 0
  | _, _ => some { code := -einval, flags := none, read := [] }

/-! ## The bytes of one field -/

/--
The name parser reads nothing behind the data for the field at an offset: the
field ends before the end, or it has a type and is not a name that fits.
-/
def NameFieldInside
    (eir : Nat → UInt8)
    (eirLen bufLen offset : Nat) : Prop :=
  Begins UInt8.toNat eir eirLen offset →
    offset + (eir offset).toNat < eirLen ∨
      (1 < (eir offset).toNat ∧
        (IsName (eir (offset + 1)) → bufLen < (eir offset).toNat - 1))

/--
The flags parser reads nothing behind the data for the field at an offset: its
type is inside, and if it has flags, so are they.
-/
def FlagsFieldInside
    (data : Nat → UInt8)
    (size offset : Nat) : Prop :=
  Begins UInt8.toNat data size offset →
    (offset + (data offset).toNat < size ∨ 1 < (data offset).toNat) ∧
      (data (offset + 1) = flagsAdType → offset + 2 < size)

section Fields

variable {data : Nat → UInt8}
variable {size bufLen offset : Nat}

/-- The type of a field is read at the index behind its length. -/
theorem NameFieldInside.iff_reads
    (begins : Begins UInt8.toNat data size offset) :
    NameFieldInside data size bufLen offset ↔
      offset + 1 < size ∧
        (IsName (data (offset + 1)) → (data offset).toNat - 1 ≤ bufLen →
          ∀ index < (data offset).toNat - 1, offset + 2 + index < size) := by
  have nonempty := begins.nonempty
  have whole := begins.whole
  unfold NameFieldInside
  constructor
  · intro fits
    rcases fits begins with ends | ⟨long, large⟩
    · exact ⟨by omega, fun _ _ index below => by omega⟩
    · refine ⟨by omega, fun name small => ?_⟩
      have more := large name
      omega
  · rintro ⟨type, inside⟩ _
    by_cases ends : offset + (data offset).toNat < size
    · exact .inl ends
    · refine .inr ⟨by omega, fun name => ?_⟩
      by_contra small
      have last := inside name (by omega) ((data offset).toNat - 2) (by omega)
      omega

theorem FlagsFieldInside.iff_reads
    (begins : Begins UInt8.toNat data size offset) :
    FlagsFieldInside data size offset ↔
      offset + 1 < size ∧
        (data (offset + 1) = flagsAdType → offset + 2 < size) := by
  have nonempty := begins.nonempty
  have whole := begins.whole
  unfold FlagsFieldInside
  constructor
  · intro fits
    obtain ⟨type, flags⟩ := fits begins
    exact ⟨by omega, flags⟩
  · rintro ⟨type, flags⟩ _
    exact ⟨by omega, flags⟩

/-! ## The bytes of a report -/

theorem length_unknownName
    (bufLen : Nat) :
    (unknownName bufLen).name.length ≤ bufLen := by
  unfold unknownName
  dsimp only
  split
  · exact Nat.zero_le _
  · rw [List.length_append, List.length_singleton]
    have taken := List.length_take_le (bufLen - 1) (lit "(unknown)")
    omega

/--
From any offset on, the name parser ends and keeps to its buffer, and it reads
inside the data exactly when it does for each field that it comes to.
-/
theorem eirParseNameLoop_runs
    (eir : Nat → UInt8)
    (eirLen bufLen offset : Nat) :
    ∀ turns, eirLen - offset < turns →
      ∃ run,
        eirParseNameLoop eir eirLen bufLen turns offset = some run ∧
          run.name.length ≤ bufLen ∧
          ((∀ index ∈ run.read, index < eirLen) ↔
            ∀ last, Visits UInt8.toNat IsName eir eirLen offset last →
              NameFieldInside eir eirLen bufLen last) := by
  induction offset using @walk_induction _ UInt8.toNat eir eirLen with
  | step offset later =>
      intro turns enough
      have unknown := length_unknownName bufLen
      -- Where no field begins, the parser stops, and only its length is read.
      have stopped (indices : List Nat)
          (read : ∀ index ∈ indices, index < eirLen)
          (none : ¬ Begins UInt8.toNat eir eirLen offset) :
          (∀ index ∈ ((unknownName bufLen).after indices).read,
              index < eirLen) ↔
            ∀ last, Visits UInt8.toNat IsName eir eirLen offset last →
              NameFieldInside eir eirLen bufLen last := by
        rw [forall_visits_last (fun begins => absurd begins none)]
        refine iff_of_true ?_ (fun begins => absurd begins none)
        simpa [NameRun.after, unknownName] using read
      cases turns with
      | zero =>
          exact absurd enough (Nat.not_lt_zero _)
      | succ turns =>
          unfold eirParseNameLoop
          dsimp only
          split
          · rename_i inside
            split
            · rename_i zero
              refine ⟨_, rfl, unknown, stopped [offset] (by simpa) ?_⟩
              exact fun begins => begins.nonempty zero
            · rename_i nonempty
              split
              · rename_i long
                refine ⟨_, rfl, unknown, stopped [offset] (by simpa) ?_⟩
                intro begins
                have whole := begins.whole
                omega
              · rename_i whole
                have begins : Begins UInt8.toNat eir eirLen offset :=
                  ⟨inside, nonempty, by omega⟩
                split
                · rename_i name
                  rw [forall_visits_last (fun _ => name),
                    NameFieldInside.iff_reads begins]
                  split
                  · rename_i large
                    refine ⟨_, rfl, unknown, ?_⟩
                    simp only [NameRun.after, unknownName, List.append_nil,
                      List.forall_mem_cons, List.not_mem_nil, false_imp_iff,
                      implies_true, and_true]
                    refine ⟨fun read => ⟨read.2, fun _ fits => ?_⟩,
                      fun read => ⟨inside, read.1⟩⟩
                    omega
                  · rename_i small
                    refine ⟨_, rfl, ?_, ?_⟩
                    · simp only [List.length_map, List.length_range]
                      omega
                    · simp only [List.cons_append, List.nil_append,
                        List.forall_mem_cons, List.forall_mem_map,
                        List.mem_range]
                      exact ⟨fun read => ⟨read.2.1, fun _ _ => read.2.2⟩,
                        fun read =>
                          ⟨inside, read.1, read.2 name (by omega)⟩⟩
                · rename_i other
                  obtain ⟨run, ran, short, reads⟩ :=
                    later begins turns (by unfold next; omega)
                  refine ⟨run.after [offset, offset + 1],
                    congrArg (Option.map _) ran, short, ?_⟩
                  rw [forall_visits_iff, NameFieldInside.iff_reads begins]
                  simp only [NameRun.after, List.cons_append, List.nil_append,
                    List.forall_mem_cons, reads]
                  exact ⟨fun read =>
                      ⟨⟨read.2.1, fun name => absurd name other⟩,
                        fun _ _ => read.2.2⟩,
                    fun read => ⟨inside, read.1.1, read.2 begins other⟩⟩
          · rename_i outside
            refine ⟨_, rfl, unknown, stopped [] (by simp) ?_⟩
            exact fun begins => outside begins.inside

/--
From any offset on, the flags parser ends, and it reads inside the data
exactly when it does for each field that it comes to.
-/
theorem readFlagsLoop_runs
    (data : Nat → UInt8)
    (size offset : Nat) :
    ∀ turns, size - offset < turns →
      ∃ run,
        readFlagsLoop data size turns offset = some run ∧
          ((∀ index ∈ run.read, index < size) ↔
            ∀ last,
              Visits UInt8.toNat (· = flagsAdType) data size offset last →
                FlagsFieldInside data size last) := by
  induction offset using @walk_induction _ UInt8.toNat data size with
  | step offset later =>
      intro turns enough
      have stopped (indices : List Nat)
          (read : ∀ index ∈ indices, index < size)
          (none : ¬ Begins UInt8.toNat data size offset) :
          (∀ index ∈ (noFlags.after indices).read, index < size) ↔
            ∀ last,
              Visits UInt8.toNat (· = flagsAdType) data size offset last →
                FlagsFieldInside data size last := by
        rw [forall_visits_last (fun begins => absurd begins none)]
        refine iff_of_true ?_ (fun begins => absurd begins none)
        simpa [FlagsRun.after, noFlags] using read
      cases turns with
      | zero =>
          exact absurd enough (Nat.not_lt_zero _)
      | succ turns =>
          unfold readFlagsLoop
          dsimp only
          split
          · rename_i inside
            split
            · rename_i zero
              refine ⟨_, rfl, stopped [offset] (by simpa) ?_⟩
              exact fun begins => begins.nonempty zero
            · rename_i nonempty
              split
              · rename_i long
                refine ⟨_, rfl, stopped [offset] (by simpa) ?_⟩
                intro begins
                have whole := begins.whole
                omega
              · rename_i whole
                have begins : Begins UInt8.toNat data size offset :=
                  ⟨inside, nonempty, by omega⟩
                have behind : offset + (1 + (data offset).toNat) =
                    next UInt8.toNat data offset := by
                  unfold next
                  omega
                split
                · rename_i flags
                  rw [forall_visits_last (fun _ => flags),
                    FlagsFieldInside.iff_reads begins]
                  refine ⟨_, rfl, ?_⟩
                  simp only [List.forall_mem_cons, List.not_mem_nil,
                    false_imp_iff, implies_true, and_true]
                  exact ⟨fun read => ⟨read.2.1, fun _ => read.2.2⟩,
                    fun read => ⟨inside, read.1, read.2 flags⟩⟩
                · rename_i other
                  obtain ⟨run, ran, reads⟩ :=
                    later begins turns (by unfold next; omega)
                  rw [behind, ran]
                  refine ⟨run.after [offset, offset + 1], rfl, ?_⟩
                  rw [forall_visits_iff, FlagsFieldInside.iff_reads begins]
                  simp only [FlagsRun.after, List.cons_append,
                    List.nil_append, List.forall_mem_cons, reads]
                  exact ⟨fun read =>
                      ⟨⟨read.2.1, fun flags => absurd flags other⟩,
                        fun _ _ => read.2.2⟩,
                    fun read => ⟨inside, read.1.1, read.2 begins other⟩⟩
          · rename_i outside
            refine ⟨_, rfl, stopped [] (by simp) ?_⟩
            exact fun begins => outside begins.inside

end Fields

/--
Both parsers end, they read inside the data of a report, and the name keeps to
its buffer.
-/
def ParsedInside
    (data : Nat → UInt8)
    (length bufLen : Nat) : Prop :=
  (∃ run ∈ eirParseName data length bufLen,
      run.name.length ≤ bufLen ∧ ∀ index ∈ run.read, index < length) ∧
    ∃ run ∈ readFlags true (some data) length,
      ∀ index ∈ run.read, index < length

/-- `eir_parse_name()` ends and keeps to its buffer, whatever the data. -/
theorem eirParseName_ends
    (eir : Nat → UInt8)
    (eirLen bufLen : Nat) :
    ∃ run ∈ eirParseName eir eirLen bufLen, run.name.length ≤ bufLen := by
  obtain ⟨run, ran, short, _⟩ :=
    eirParseNameLoop_runs eir eirLen bufLen 0 (eirLen + 1) (by omega)
  exact ⟨run, ran, short⟩

/-- `read_flags()` ends, whatever the data. -/
theorem readFlags_ends
    (data : Nat → UInt8)
    (size : Nat) :
    ∃ run, readFlags true (some data) size = some run := by
  obtain ⟨run, ran, _⟩ := readFlagsLoop_runs data size 0 (size + 1) (by omega)
  exact ⟨run, ran⟩

/--
A report is parsed inside its length exactly when each field that a parser
comes to ends before the end of the data, or is one whose last byte the parser
does not use.
-/
theorem parsedInside_iff
    (data : Nat → UInt8)
    (length bufLen : Nat) :
    ParsedInside data length bufLen ↔
      (∀ offset, Visits UInt8.toNat IsName data length 0 offset →
          NameFieldInside data length bufLen offset) ∧
        ∀ offset,
          Visits UInt8.toNat (· = flagsAdType) data length 0 offset →
            FlagsFieldInside data length offset := by
  obtain ⟨named, nameRan, short, names⟩ :=
    eirParseNameLoop_runs data length bufLen 0 (length + 1) (by omega)
  obtain ⟨flagged, flagsRan, flags⟩ :=
    readFlagsLoop_runs data length 0 (length + 1) (by omega)
  have nameRun : eirParseName data length bufLen = some named := nameRan
  have flagsRun : readFlags true (some data) length = some flagged := flagsRan
  unfold ParsedInside
  rw [nameRun, flagsRun, ← names, ← flags]
  simp [short]

/-- A report of a single byte that says that one byte follows. -/
theorem not_parsedInside_single :
    ¬ ParsedInside (fun index => if index = 0 then 1 else 0) 1 29 := by
  rintro ⟨-, run, ran, inside⟩
  have reads :
      readFlags true (some fun index => if index = 0 then 1 else 0) 1 =
        some (noFlags.after [0, 1]) := by
    decide
  rw [reads] at ran
  obtain rfl := Option.mem_some_iff.mp ran
  exact absurd (inside 1 (by decide)) (by decide)

end Slate106.Ble
