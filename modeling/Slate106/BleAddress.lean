import Slate106.BleAdvertising
import Slate106.BleCentral
import Slate106.ExtendedRegex

namespace Slate106.Ble

open ExtendedRegex
open Kermit (ch)

/-!
# The address of the device

The argument of the program goes through a regular expression, is compared
with the text of each advertised address, and is read by BlueZ when the program
connects.  A C string is the list of its bytes, without the NUL.
-/

/-! ## BlueZ -/

/-- `bdaddr_t`: `b[0]` to `b[5]`. -/
structure Bdaddr where
  b : Vector UInt8 6
  deriving DecidableEq

/-- `isxdigit()`. -/
def isxdigit
    (c : UInt8) : Bool :=
  (ch '0' ≤ c && c ≤ ch '9') || (ch 'a' ≤ c && c ≤ ch 'f') ||
    (ch 'A' ≤ c && c ≤ ch 'F')

/-- `isspace()`. -/
def isspace
    (c : UInt8) : Bool :=
  c = ch ' ' || (9 ≤ c && c ≤ 13)

/-- The value of a hexadecimal digit. -/
def xdigitValue
    (c : UInt8) : Nat :=
  if c ≤ ch '9' then c.toNat - 48
  else if c ≤ ch 'F' then c.toNat - 55
  else c.toNat - 87

/-- The digits of a number, behind an optional `0x`. -/
def skipHexPrefix : List UInt8 → List UInt8
  | zero :: x :: digit :: rest =>
      if zero = ch '0' ∧ (x = ch 'x' ∨ x = ch 'X') ∧ isxdigit digit then
        digit :: rest
      else zero :: x :: digit :: rest
  | str => str

/-- `strtol(str, NULL, 16)` with a `long` of 32 bits. -/
def strtol16
    (str : List UInt8) : Int :=
  let str := str.dropWhile isspace
  let negative := str.head? = some (ch '-')
  let str :=
    skipHexPrefix
      (if negative ∨ str.head? = some (ch '+') then str.tail else str)
  let value : Int :=
    (str.takeWhile isxdigit).foldl (fun n c => 16 * n + xdigitValue c) (0 : Int)
  if negative then max (-2147483648) (-value) else min 2147483647 value

/-- The loop of `bachk()` over what is left of the string. -/
def bachkLoop : List UInt8 → Int
  | [] => 0
  | [_] => -1
  | [first, second] =>
      if !isxdigit first then -1 else if !isxdigit second then -1 else 0
  | first :: second :: colon :: rest =>
      if !isxdigit first then -1
      else if !isxdigit second then -1
      else if colon ≠ ch ':' then -1
      else bachkLoop rest

/-- `bachk()`. -/
def bachk
    (str : List UInt8) : Int :=
  if str.length ≠ 17 then -1 else bachkLoop str

/-- `str2ba()`. -/
def str2ba
    (str : List UInt8) : Int × Bdaddr :=
  if bachk str < 0 then (-1, { b := Vector.replicate 6 0 })
  else
    (0,
      { b := Vector.ofFn fun i =>
          UInt8.ofInt (strtol16 (str.drop (3 * (5 - i)))) })

/-- A digit of `%X`. -/
def upperDigit
    (n : Nat) : UInt8 :=
  if n < 10 then UInt8.ofNat (n + 48) else UInt8.ofNat (n + 55)

/-- `%2.2X`. -/
def upperPair
    (byte : UInt8) : List UInt8 :=
  [upperDigit (byte.toNat / 16), upperDigit (byte.toNat % 16)]

/-- `ba2str()`. -/
def ba2str
    (ba : Bdaddr) : List UInt8 :=
  upperPair ba.b[5] ++ ch ':' :: upperPair ba.b[4] ++ ch ':' ::
    upperPair ba.b[3] ++ ch ':' :: upperPair ba.b[2] ++ ch ':' ::
    upperPair ba.b[1] ++ ch ':' :: upperPair ba.b[0]

/-! ## The functions of `main.c` -/

/-- `ERR_SUCCESS`. -/
abbrev errSuccess : Int := 0

/-- `ERR_ERR`. -/
abbrev errErr : Int := -1

/-- `^[a-fA-F0-9:]{17}|[a-fA-F0-9]{12}$` -/
def addressRegex : Regex UInt8 :=
  .alt
    (.seq .bol (.times (.bracket fun c => isxdigit c || c = ch ':') 17))
    (.seq (.times (.bracket isxdigit) 12) .eol)

/-- `parse_given_address()`, where the expression has been compiled. -/
def parseGivenAddress
    (address : List UInt8)
    (bleConStep : BleConnectionStep) : Int × BleConnectionStep :=
  if search addressRegex address then (0, .scanning) else (-1, bleConStep)

/--
`slate_research()`: what it returns, if anything, and `out_research_success`.
-/
def slateResearch
    (addr : Option (List UInt8))
    (slateAddr : List UInt8) : Option Int × Bool :=
  match addr with
  | none => (some errErr, false)
  | some addr =>
      if addr = slateAddr then (some errSuccess, true) else (none, false)

/-- `le_advertising_info`. -/
structure LeAdvertisingInfo where
  bdaddr : Bdaddr
  length : UInt8
  data : Nat → UInt8

/-- `check_report_filter()`. -/
def checkReportFilter
    (procedure : UInt8)
    (info : LeAdvertisingInfo) : Bool :=
  if procedure = 0 then true
  else
    match readFlags true (some info.data) info.length.toNat with
    | none => false
    | some run =>
        let flags := run.flags.getD 0
        if run.code ≠ 0 then false
        else if procedure = ch 'l' then flags &&& flagsLimitedModeBit ≠ 0
        else if procedure = ch 'g' then
          flags &&& (flagsLimitedModeBit ||| flagsGeneralModeBit) ≠ 0
        else false

/--
`scan_result()`: whether the device is found, in the events that are read; an
event that is no report (`none`) ends the scan.
-/
def scanResult
    (filterType : UInt8)
    (slateAddr : List UInt8) : List (Option LeAdvertisingInfo) → Bool
  | [] => false
  | none :: _ => false
  | some info :: rest =>
      if checkReportFilter filterType info ∧
          (slateResearch (some (ba2str info.bdaddr)) slateAddr).2 then
        true
      else scanResult filterType slateAddr rest

/-! ## The text of an address -/

/-- A digit that `%X` prints. -/
def isUpperXdigit
    (c : UInt8) : Bool :=
  (ch '0' ≤ c && c ≤ ch '9') || (ch 'A' ≤ c && c ≤ ch 'F')

/-- Pairs of upper-case digits with colons between them. -/
def upperPairs : List UInt8 → Bool
  | [first, second] => isUpperXdigit first && isUpperXdigit second
  | first :: second :: colon :: rest =>
      isUpperXdigit first && isUpperXdigit second && colon = ch ':' &&
        upperPairs rest
  | _ => false

/-- Six pairs of upper-case digits with colons between them. -/
def Canonical
    (str : List UInt8) : Prop :=
  str.length = 17 ∧ upperPairs str = true

instance decidableCanonical
    (str : List UInt8) :
    Decidable (Canonical str) :=
  inferInstanceAs (Decidable (_ ∧ _))

/-- What the digits of `%X` are. -/
theorem upperDigit_spec :
    ∀ n < 16,
      isUpperXdigit (upperDigit n) = true ∧
        isxdigit (upperDigit n) = true ∧
        xdigitValue (upperDigit n) = n ∧
        isspace (upperDigit n) = false ∧
        upperDigit n ≠ ch '-' ∧ upperDigit n ≠ ch '+' ∧
        upperDigit n ≠ ch 'x' ∧ upperDigit n ≠ ch 'X' := by
  decide

theorem upperDigit_xdigitValue
    (c : UInt8) :
    isUpperXdigit c = true →
      xdigitValue c < 16 ∧ upperDigit (xdigitValue c) = c := by
  revert c
  refine CBytes.forall_byte ?_
  decide +kernel

theorem skipHexPrefix_pair
    {h l : Nat}
    (low : l < 16)
    (rest : List UInt8) :
    skipHexPrefix (upperDigit h :: upperDigit l :: rest) =
      upperDigit h :: upperDigit l :: rest := by
  obtain ⟨_, _, _, _, _, _, notSmall, notLarge⟩ := upperDigit_spec l low
  cases rest with
  | nil => rfl
  | cons digit rest =>
      unfold skipHexPrefix
      dsimp only
      rw [if_neg]
      rintro ⟨_, small | large, _⟩
      · exact notSmall small
      · exact notLarge large

/-- `strtol()` reads a pair of digits in front of anything else. -/
theorem strtol16_pair
    {h l : Nat}
    (high : h < 16)
    (low : l < 16)
    {rest : List UInt8}
    (ends : rest.takeWhile isxdigit = []) :
    strtol16 (upperDigit h :: upperDigit l :: rest) = (16 * h + l : Nat) := by
  obtain ⟨_, digit, value, notSpace, notMinus, notPlus, _⟩ :=
    upperDigit_spec h high
  obtain ⟨_, digit', value', _⟩ := upperDigit_spec l low
  have front : (upperDigit h :: upperDigit l :: rest).dropWhile isspace =
      upperDigit h :: upperDigit l :: rest :=
    List.dropWhile_cons_of_neg (by simp [notSpace])
  have digits :
      (upperDigit h :: upperDigit l :: rest).takeWhile isxdigit =
        [upperDigit h, upperDigit l] := by
    rw [List.takeWhile_cons_of_pos digit, List.takeWhile_cons_of_pos digit',
      ends]
  unfold strtol16
  simp only [front, List.head?_cons, Option.some.injEq, notMinus, notPlus,
    or_self, if_false, skipHexPrefix_pair low, digits, List.foldl_cons,
    List.foldl_nil, value, value']
  omega

theorem upperPair_digits
    (byte : UInt8) :
    byte.toNat / 16 < 16 ∧ byte.toNat % 16 < 16 := by
  have small := byte.toNat_lt
  omega

/-- A printed byte is read back. -/
theorem ofInt_strtol16_upperPair
    (byte : UInt8)
    {rest : List UInt8}
    (ends : rest.takeWhile isxdigit = []) :
    UInt8.ofInt (strtol16 (upperPair byte ++ rest)) = byte := by
  obtain ⟨high, low⟩ := upperPair_digits byte
  have value : 16 * (byte.toNat / 16) + byte.toNat % 16 = byte.toNat :=
    Nat.div_add_mod _ _
  have read : strtol16 (upperPair byte ++ rest) = _ :=
    strtol16_pair high low ends
  have small := byte.toNat_lt
  have same : ((byte.toNat : Int) % 2 ^ 8).toNat = byte.toNat := by
    omega
  rw [read, value, UInt8.ofInt, same]
  exact UInt8.ofNat_toNat

/-- The loop of `bachk()` passes over a printed byte and its colon. -/
theorem bachkLoop_upperPair
    (byte : UInt8)
    (rest : List UInt8) :
    bachkLoop (upperPair byte ++ ch ':' :: rest) = bachkLoop rest := by
  obtain ⟨high, low⟩ := upperPair_digits byte
  obtain ⟨_, first, _⟩ := upperDigit_spec _ high
  obtain ⟨_, second, _⟩ := upperDigit_spec _ low
  simp [upperPair, bachkLoop, first, second]

theorem bachkLoop_last
    (byte : UInt8) :
    bachkLoop (upperPair byte) = 0 := by
  obtain ⟨high, low⟩ := upperPair_digits byte
  obtain ⟨_, first, _⟩ := upperDigit_spec _ high
  obtain ⟨_, second, _⟩ := upperDigit_spec _ low
  simp [upperPair, bachkLoop, first, second]

theorem length_ba2str
    (ba : Bdaddr) :
    (ba2str ba).length = 17 := by
  simp [ba2str, upperPair]

/-- BlueZ accepts the text that it prints. -/
theorem bachk_ba2str
    (ba : Bdaddr) :
    bachk (ba2str ba) = 0 := by
  unfold bachk
  rw [if_neg (not_not.mpr (length_ba2str ba))]
  simp only [ba2str, List.append_assoc, List.cons_append,
    bachkLoop_upperPair, bachkLoop_last]

/-- Where the digits of a byte are in the text of an address. -/
theorem drop_ba2str
    (ba : Bdaddr)
    (i : Fin 6) :
    ∃ rest,
      (ba2str ba).drop (3 * (5 - i)) = upperPair ba.b[i] ++ rest ∧
        rest.takeWhile isxdigit = [] := by
  have colon (rest : List UInt8) :
      (ch ':' :: rest).takeWhile isxdigit = [] :=
    List.takeWhile_cons_of_neg (by decide)
  match i with
  | 0 => exact ⟨[], rfl, rfl⟩
  | 1 => exact ⟨_, rfl, colon _⟩
  | 2 => exact ⟨_, rfl, colon _⟩
  | 3 => exact ⟨_, rfl, colon _⟩
  | 4 => exact ⟨_, rfl, colon _⟩
  | 5 => exact ⟨_, rfl, colon _⟩

/-- BlueZ reads the address back from the text that it prints. -/
theorem str2ba_ba2str
    (ba : Bdaddr) :
    str2ba (ba2str ba) = (0, ba) := by
  have bytes : Vector.ofFn
      (fun i : Fin 6 =>
        UInt8.ofInt (strtol16 ((ba2str ba).drop (3 * (5 - i))))) = ba.b := by
    refine Vector.ext fun i inside => ?_
    obtain ⟨rest, text, ends⟩ := drop_ba2str ba ⟨i, inside⟩
    rw [Vector.getElem_ofFn, text]
    exact ofInt_strtol16_upperPair _ ends
  unfold str2ba
  rw [bachk_ba2str, if_neg (by decide), bytes]

/-- Different addresses are printed differently. -/
theorem ba2str_injective
    {ba other : Bdaddr}
    (same : ba2str ba = ba2str other) :
    ba = other := by
  have read := str2ba_ba2str ba
  rw [same, str2ba_ba2str] at read
  exact (congrArg Prod.snd read).symm

/-! ## Canonical arguments -/

theorem upperPairs_upperPair
    (byte : UInt8)
    (rest : List UInt8) :
    upperPairs (upperPair byte ++ ch ':' :: rest) = upperPairs rest := by
  obtain ⟨high, low⟩ := upperPair_digits byte
  simp [upperPair, upperPairs, (upperDigit_spec _ high).1,
    (upperDigit_spec _ low).1]

theorem canonical_ba2str
    (ba : Bdaddr) :
    Canonical (ba2str ba) := by
  obtain ⟨high, low⟩ := upperPair_digits ba.b[0]
  have last : upperPairs (upperPair ba.b[0]) = true := by
    simp [upperPair, upperPairs, (upperDigit_spec _ high).1,
      (upperDigit_spec _ low).1]
  refine ⟨length_ba2str ba, ?_⟩
  simp only [ba2str, List.append_assoc, List.cons_append,
    upperPairs_upperPair, last]

/-- Two upper-case digits are what is printed for a byte. -/
theorem exists_upperPair
    {first second : UInt8}
    (upper : isUpperXdigit first = true)
    (upper' : isUpperXdigit second = true) :
    ∃ byte, upperPair byte = [first, second] := by
  obtain ⟨small, digit⟩ := upperDigit_xdigitValue first upper
  obtain ⟨small', digit'⟩ := upperDigit_xdigitValue second upper'
  refine ⟨UInt8.ofNat (16 * xdigitValue first + xdigitValue second), ?_⟩
  have value : (UInt8.ofNat
      (16 * xdigitValue first + xdigitValue second)).toNat =
      16 * xdigitValue first + xdigitValue second := by
    rw [UInt8.toNat_ofNat']
    omega
  have high : (16 * xdigitValue first + xdigitValue second) / 16 =
      xdigitValue first := by
    omega
  have low : (16 * xdigitValue first + xdigitValue second) % 16 =
      xdigitValue second := by
    omega
  rw [upperPair, value, high, low, digit, digit']

/-- A canonical text is a printed byte, a colon and the rest. -/
theorem upperPairs_cons
    {str : List UInt8}
    (pairs : upperPairs str = true)
    (long : 2 < str.length) :
    ∃ byte rest,
      str = upperPair byte ++ ch ':' :: rest ∧ upperPairs rest = true ∧
        rest.length + 3 = str.length := by
  match str, long with
  | first :: second :: colon :: rest, _ =>
      simp only [upperPairs, Bool.and_eq_true, decide_eq_true_eq] at pairs
      obtain ⟨⟨⟨upper, upper'⟩, rfl⟩, others⟩ := pairs
      obtain ⟨byte, digits⟩ := exists_upperPair upper upper'
      exact ⟨byte, rest, by rw [digits]; rfl, others, rfl⟩

theorem upperPairs_last
    {str : List UInt8}
    (pairs : upperPairs str = true)
    (short : str.length = 2) :
    ∃ byte, str = upperPair byte := by
  match str, short with
  | [first, second], _ =>
      simp only [upperPairs, Bool.and_eq_true] at pairs
      obtain ⟨byte, digits⟩ := exists_upperPair pairs.1 pairs.2
      exact ⟨byte, digits.symm⟩

/-- Every canonical text is printed for an address. -/
theorem Canonical.exists_ba2str
    {str : List UInt8}
    (canonical : Canonical str) :
    ∃ ba, ba2str ba = str := by
  obtain ⟨length, pairs⟩ := canonical
  obtain ⟨b5, rest5, rfl, pairs, length5⟩ :=
    upperPairs_cons pairs (by omega)
  obtain ⟨b4, rest4, rfl, pairs, length4⟩ :=
    upperPairs_cons pairs (by omega)
  obtain ⟨b3, rest3, rfl, pairs, length3⟩ :=
    upperPairs_cons pairs (by omega)
  obtain ⟨b2, rest2, rfl, pairs, length2⟩ :=
    upperPairs_cons pairs (by omega)
  obtain ⟨b1, rest1, rfl, pairs, length1⟩ :=
    upperPairs_cons pairs (by omega)
  obtain ⟨b0, rfl⟩ := upperPairs_last pairs (by omega)
  exact ⟨{ b := #v[b0, b1, b2, b3, b4, b5] }, by simp [ba2str]⟩

/-! ## The three places -/

/-- The language of the regular expression. -/
theorem search_addressRegex_iff
    (address : List UInt8) :
    search addressRegex address = true ↔
      (17 ≤ address.length ∧
          ∀ c ∈ address.take 17, isxdigit c = true ∨ c = ch ':') ∨
        (12 ≤ address.length ∧
          ∀ c ∈ address.drop (address.length - 12), isxdigit c = true) := by
  unfold addressRegex
  rw [search_alt_iff, search_front_iff, search_back_iff]
  simp only [Bool.or_eq_true, decide_eq_true_eq]

/-- The address that the program asks for is accepted as it is printed. -/
theorem search_ba2str
    (ba : Bdaddr) :
    search addressRegex (ba2str ba) = true := by
  have pair (byte : UInt8) :
      ∀ c ∈ upperPair byte, isxdigit c = true ∨ c = ch ':' := by
    obtain ⟨high, low⟩ := upperPair_digits byte
    simp [upperPair, (upperDigit_spec _ high).2.1, (upperDigit_spec _ low).2.1]
  have characters :
      ∀ c ∈ ba2str ba, isxdigit c = true ∨ c = ch ':' := by
    simp only [ba2str, List.append_assoc, List.cons_append,
      List.forall_mem_append, List.forall_mem_cons, or_true, true_and]
    exact ⟨pair _, pair _, pair _, pair _, pair _, pair _⟩
  rw [search_addressRegex_iff]
  refine .inl ⟨(length_ba2str ba).ge, fun c member => ?_⟩
  exact characters c (List.mem_of_mem_take member)

/--
If the argument is accepted, BlueZ reads it as an address, and the scan finds
exactly the device with this address.
-/
def AddressesAgree
    (address : List UInt8) : Prop :=
  ∀ bleConStep,
    (parseGivenAddress address bleConStep).1 = 0 →
      (str2ba address).1 = 0 ∧
        ∀ ba,
          (slateResearch (some (ba2str ba)) address).2 = true ↔
            (str2ba address).2 = ba

theorem parseGivenAddress_eq_zero_iff
    (address : List UInt8)
    (bleConStep : BleConnectionStep) :
    (parseGivenAddress address bleConStep).1 = 0 ↔
      search addressRegex address = true := by
  unfold parseGivenAddress
  split
  · exact iff_of_true rfl (by assumption)
  · exact iff_of_false (show ¬ (-1 : Int) = 0 by decide) (by assumption)

theorem slateResearch_iff
    (addr slateAddr : List UInt8) :
    (slateResearch (some addr) slateAddr).2 = true ↔ addr = slateAddr := by
  unfold slateResearch
  dsimp only
  split
  · exact iff_of_true rfl (by assumption)
  · exact iff_of_false Bool.false_ne_true (by assumption)

/--
The three places that read the argument agree exactly when it is refused or is
six pairs of upper-case digits with colons between them.
-/
theorem addressesAgree_iff
    (address : List UInt8) :
    AddressesAgree address ↔
      (search addressRegex address = true → Canonical address) := by
  constructor
  · intro agree accepted
    obtain ⟨_, found⟩ :=
      agree .unset ((parseGivenAddress_eq_zero_iff address _).mpr accepted)
    have printed :=
      (slateResearch_iff _ address).mp ((found (str2ba address).2).mpr rfl)
    rw [← printed]
    exact canonical_ba2str _
  · intro canonical bleConStep returned
    have accepted := (parseGivenAddress_eq_zero_iff address _).mp returned
    obtain ⟨ba, rfl⟩ := (canonical accepted).exists_ba2str
    rw [str2ba_ba2str]
    refine ⟨rfl, fun other => ?_⟩
    rw [slateResearch_iff]
    exact ⟨fun same => (ba2str_injective same).symm, congrArg ba2str ∘ Eq.symm⟩

/-- The scan that the program makes finds the device with a printed address. -/
theorem scanResult_iff
    (ba : Bdaddr)
    (events : List (Option LeAdvertisingInfo)) :
    scanResult 0 (ba2str ba) events = true ↔
      ∃ info, some info ∈ events.takeWhile Option.isSome ∧
        info.bdaddr = ba := by
  induction events with
  | nil =>
      simp [scanResult]
  | cons event rest inductionHypothesis =>
      cases event with
      | none =>
          simp [scanResult]
      | some info =>
          have passes : checkReportFilter 0 info = true := rfl
          unfold scanResult
          rw [List.takeWhile_cons_of_pos rfl]
          by_cases same : info.bdaddr = ba
          · rw [if_pos ⟨passes, (slateResearch_iff _ _).mpr (same ▸ rfl)⟩]
            exact iff_of_true rfl ⟨info, List.mem_cons_self, same⟩
          · rw [if_neg, inductionHypothesis]
            · simp only [List.mem_cons, Option.some.injEq]
              constructor
              · rintro ⟨other, member, found⟩
                exact ⟨other, .inr member, found⟩
              · rintro ⟨other, rfl | member, found⟩
                · exact absurd found same
                · exact ⟨other, member, found⟩
            · rintro ⟨_, found⟩
              exact same (ba2str_injective ((slateResearch_iff _ _).mp found))

/-- A lower-case address is accepted, and its device is never found. -/
theorem not_addressesAgree_lower :
    ¬ AddressesAgree (Kermit.lit "aa:bb:cc:dd:ee:ff") := by
  intro agree
  obtain ⟨_, found⟩ := agree .unset (by decide)
  have missed :
      (slateResearch
        (some (ba2str (str2ba (Kermit.lit "aa:bb:cc:dd:ee:ff")).2))
        (Kermit.lit "aa:bb:cc:dd:ee:ff")).2 = false := by
    decide
  rw [(found _).mpr rfl] at missed
  exact nomatch missed

end Slate106.Ble
