import Slate106.KermitFields
import Slate106.KermitGattrReads
import Slate106.KermitMachine

namespace Slate106.Kermit

open CBytes

/-!
# Attributes from sender to receiver

`numstring` prints the length of the file from the right into its buffer and
moves it to the front; `sattr` builds the attribute list around it.  `gattr`
reads the same type, length and date from the list.
-/

variable {ω : Type}

/-! ## `numstring()` byte by byte -/

/--
`for (i = buflen - 2; i > 0; i--)`: the digits from the right, until nothing is
left of the number.  The result is `i`, what is left, and the buffer.
-/
def numstringFill : Nat → Nat → List UInt8 → Nat × Nat × List UInt8
  | 0, n, buf => (0, n, buf)
  | i + 1, n, buf =>
      let buf := poke buf (i + 1) [UInt8.ofNat (n % 10 + 48)]
      if n / 10 = 0 then (i + 1, 0, buf) else numstringFill i (n / 10) buf

/-- `while ((*p++ = *s++));` in one buffer. -/
def numstringMove : Nat → Nat → Nat → List UInt8 → List UInt8
  | 0, _, _, buf => buf
  | turns + 1, p, s, buf =>
      let byte := peek buf s
      let buf := poke buf p [byte]
      if byte = 0 then buf else numstringMove turns (p + 1) (s + 1) buf

/-- `numstring()` in a buffer of 16 bytes. -/
def numstringIn
    (n : Nat)
    (buf : List UInt8) : Option (List UInt8) :=
  let filled := numstringFill 14 n (poke buf 15 [0])
  if filled.2.1 ≠ 0 then none
  else if filled.1 > 0 then some (numstringMove 16 0 filled.1 filled.2.2)
  else some filled.2.2

/-- The digits of a number. -/
def numberDigits
    (n : Nat) : List UInt8 :=
  (Nat.toDigits 10 n).map ch

theorem ch_digitChar
    {d : Nat}
    (small : d < 10) :
    ch (Nat.digitChar d) = UInt8.ofNat (d + 48) := by
  have all : ∀ d : Fin 10, ch (Nat.digitChar d) = UInt8.ofNat (d + 48) := by
    decide
  exact all ⟨d, small⟩

/-- The last digit comes off the end. -/
theorem numberDigits_eq
    (n : Nat) :
    numberDigits n =
      (if n / 10 = 0 then [] else numberDigits (n / 10)) ++
        [UInt8.ofNat (n % 10 + 48)] := by
  have last := ch_digitChar (Nat.mod_lt n (show 0 < 10 by decide))
  unfold numberDigits
  rw [Nat.toDigits_eq_if (by decide)]
  by_cases small : n < 10
  · rw [if_pos small, if_pos (Nat.div_eq_of_lt small)]
    rw [Nat.mod_eq_of_lt small] at last ⊢
    exact congrArg (fun digit => [digit]) last
  · rw [if_neg small, if_neg (by omega), List.map_append]
    exact congrArg (_ ++ [·]) last

theorem digit_byte
    {d : Nat}
    (small : d < 10) :
    isDecimal (UInt8.ofNat (d + 48)) = true ∧
      (UInt8.ofNat (d + 48)).toNat - 48 = d := by
  have all : ∀ d : Fin 10, isDecimal (UInt8.ofNat (d + 48)) = true ∧
      (UInt8.ofNat (d + 48)).toNat - 48 = d := by
    decide
  exact all ⟨d, small⟩

/-- The digits of a number are digits, and stand for the number. -/
theorem numberDigits_decimal
    (n : Nat) :
    (∀ c ∈ numberDigits n, isDecimal c = true) ∧
      decimal (numberDigits n) = n := by
  induction n using Nat.strongRecOn with
  | ind n inductionHypothesis =>
      obtain ⟨last, value⟩ := digit_byte (Nat.mod_lt n (show 0 < 10 by decide))
      have step (digits : List UInt8) :
          decimal (digits ++ [UInt8.ofNat (n % 10 + 48)]) =
            decimal digits * 10 + n % 10 := by
        rw [decimal, List.foldl_append]
        show _ * 10 + ((UInt8.ofNat (n % 10 + 48)).toNat - 48) = _
        rw [value]
        rfl
      rw [numberDigits_eq]
      by_cases done : n / 10 = 0
      · rw [if_pos done]
        refine ⟨?_, ?_⟩
        · intro c member
          rw [List.mem_singleton.mp member]
          exact last
        · rw [step]
          exact (Nat.zero_add _).trans (by omega)
      · rw [if_neg done]
        obtain ⟨decimals, number⟩ := inductionHypothesis (n / 10) (by omega)
        refine ⟨?_, ?_⟩
        · intro c member
          rcases List.mem_append.mp member with earlier | same
          · exact decimals c earlier
          · rw [List.mem_singleton.mp same]
            exact last
        · rw [step, number]
          omega

theorem zero_notMem_numberDigits
    (n : Nat) :
    0 ∉ numberDigits n := by
  intro member
  exact absurd ((numberDigits_decimal n).1 0 member) (by decide)

theorem length_numberDigits_le_iff
    {n count : Nat}
    (some : 0 < count) :
    (numberDigits n).length ≤ count ↔ n < 10 ^ count := by
  rw [numberDigits, List.length_map]
  exact Nat.length_toDigits_le_iff (by decide) some

/-- The digits of a number that fits, in front of what follows them. -/
theorem numstringFill_digits
    {i n : Nat}
    {left : List UInt8}
    (room : left.length = i + 1)
    (fits : (numberDigits n).length ≤ i)
    (right : List UInt8) :
    ∃ left',
      0 < left'.length ∧
      numstringFill i n (left ++ right) =
        (left'.length, 0, left' ++ (numberDigits n ++ right)) := by
  induction i generalizing n left right with
  | zero =>
      rw [numberDigits_eq, List.length_append, List.length_singleton] at fits
      exact absurd fits (by omega)
  | succ i inductionHypothesis =>
      obtain ⟨first, last, rfl⟩ : ∃ first last, left = first ++ [last] :=
        ⟨left.dropLast, left.getLast (by
          intro empty
          rw [empty] at room
          exact absurd room (by simp)), (List.dropLast_concat_getLast _).symm⟩
      rw [List.length_append, List.length_singleton] at room
      have start : first.length = i + 1 := by omega
      have stored : poke (first ++ [last] ++ right) (i + 1)
          [UInt8.ofNat (n % 10 + 48)] =
          first ++ ([UInt8.ofNat (n % 10 + 48)] ++ right) := by
        rw [List.append_assoc, ← start]
        exact poke_append first [last] right _ rfl
      rw [numberDigits_eq] at fits ⊢
      unfold numstringFill
      dsimp only
      rw [stored]
      by_cases done : n / 10 = 0
      · rw [if_pos done, if_pos done]
        refine ⟨first, by omega, ?_⟩
        rw [start]
        rfl
      · rw [if_neg done] at fits ⊢
        rw [List.length_append, List.length_singleton] at fits
        obtain ⟨left', positive, filled⟩ := inductionHypothesis start
          (n := n / 10) (by omega) ([UInt8.ofNat (n % 10 + 48)] ++ right)
        refine ⟨left', positive, ?_⟩
        rw [if_neg done, filled, List.append_assoc]

/-- Something is left of a number with too many digits. -/
theorem numstringFill_long
    {i n : Nat}
    (long : i < (numberDigits n).length)
    (positive : n ≠ 0)
    (buf : List UInt8) :
    (numstringFill i n buf).2.1 ≠ 0 := by
  induction i generalizing n buf with
  | zero =>
      exact positive
  | succ i inductionHypothesis =>
      rw [numberDigits_eq] at long
      unfold numstringFill
      dsimp only
      by_cases done : n / 10 = 0
      · rw [if_pos done] at long
        exact absurd long (by simp)
      · rw [if_neg done, List.length_append, List.length_singleton] at long
        rw [if_neg done]
        exact inductionHypothesis (by omega) done _

/-- Moving a string to the left leaves the bytes before it and moves it whole. -/
theorem numstringMove_spec
    {turns p s : Nat}
    {buf : List UInt8}
    (left : p ≤ s)
    (enough : (cstrAt buf s).length < turns) :
    cstrAt (numstringMove turns p s buf) p = cstrAt buf s ∧
      ∀ index < p, peek (numstringMove turns p s buf) index =
        peek buf index := by
  induction turns generalizing p s buf with
  | zero =>
      exact absurd enough (Nat.not_lt_zero _)
  | succ turns inductionHypothesis =>
      have first : (poke buf p [peek buf s]).drop p =
          peek buf s :: buf.drop (p + 1) :=
        drop_poke buf [peek buf s] p
      have before (index : Nat) (below : index < p) :
          peek (poke buf p [peek buf s]) index = peek buf index :=
        peek_poke_before buf below _
      unfold numstringMove
      dsimp only
      by_cases ended : peek buf s = 0
      · rw [if_pos ended]
        refine ⟨?_, before⟩
        rw [cstrAt_end ended, cstrAt, first, ended, cstr_cons_zero]
      · -- What is behind the byte that was moved has not been touched yet.
        have behind : (poke buf p [peek buf s]).drop (s + 1) =
            buf.drop (s + 1) := by
          have far : s + 1 = p + (s + 1 - p) := by omega
          have further : p + 1 + (s - p) = s + 1 := by omega
          rw [far, ← List.drop_drop, first, ← far,
            show s + 1 - p = s - p + 1 by omega, List.drop_succ_cons,
            List.drop_drop, further]
        have rest : cstrAt (poke buf p [peek buf s]) (s + 1) =
            cstrAt buf (s + 1) :=
          congrArg cstr behind
        rw [cstrAt_next ended, List.length_cons, ← rest] at enough
        obtain ⟨moved, kept⟩ := inductionHypothesis (Nat.succ_le_succ left)
          (Nat.lt_of_succ_lt_succ enough)
        have byte := kept p (Nat.lt_succ_self p)
        rw [peek_poke_byte, if_pos rfl] at byte
        rw [if_neg ended]
        refine ⟨?_, fun index below => ?_⟩
        · rw [cstrAt_next (by rw [byte]; exact ended), byte, moved, rest,
            ← cstrAt_next ended]
        · rw [kept index (Nat.lt_succ_of_lt below), before index below]

/-- The buffer holds the digits, and a number that does not fit is refused. -/
theorem numstringIn_eq
    (n : Nat)
    {buf : List UInt8}
    (size : buf.length = 16) :
    (numstringIn n buf).map cstr = numstring n := by
  obtain ⟨left, room, split⟩ : ∃ left, left.length = 15 ∧
      poke buf 15 [0] = left ++ [0] := by
    refine ⟨buf.takeD 15 0, List.takeD_length .., ?_⟩
    rw [poke, List.drop_of_length_le (by rw [size]; rfl), List.append_nil]
  unfold numstringIn numstring
  dsimp only
  rw [split]
  by_cases fits : (numberDigits n).length ≤ 14
  · obtain ⟨left', positive, filled⟩ := numstringFill_digits room fits [0]
    have string : cstrAt (left' ++ (numberDigits n ++ [0])) left'.length =
        numberDigits n := by
      rw [cstrAt, List.drop_left]
      exact cstr_append_zero (zero_notMem_numberDigits n) []
    have moved := (@numstringMove_spec 16 0 left'.length
      (left' ++ (numberDigits n ++ [0])) (Nat.zero_le _)
      (by rw [string]; omega)).1
    rw [string, cstrAt, List.drop_zero] at moved
    rw [filled]
    dsimp only
    rw [if_neg (fun different => different rfl), if_pos positive,
      Option.map_some, moved]
    exact (if_pos fits).symm
  · have positive : n ≠ 0 := by
      rintro rfl
      exact fits (by decide)
    have long := numstringFill_long (Nat.lt_of_not_le fits) positive
      (left ++ [0])
    rw [if_pos long, Option.map_none]
    exact (if_neg fits).symm

/-! ## The list that `sattr()` builds -/

/-- The attributes of a file, in the order `sattr()` stores them. -/
def sattrAttributes
    (binary : Int)
    (filelength : Nat)
    (date : List UInt8) : List Attribute :=
  (if binary ≠ 0 then [⟨ch '"', lit "B8"⟩]
    else [⟨ch '"', lit "AMJ"⟩, ⟨ch '*', lit "A"⟩]) ++
    [⟨ch '1', numberDigits filelength⟩] ++
    (if date ≠ [] then [⟨ch '#', date⟩] else []) ++
    [⟨ch '@', []⟩]

theorem sattrType_eq
    (binary : Int) :
    sattrType binary =
      attributeField (if binary ≠ 0 then [⟨ch '"', lit "B8"⟩]
        else [⟨ch '"', lit "AMJ"⟩, ⟨ch '*', lit "A"⟩]) := by
  unfold sattrType
  split
  · decide
  · decide

/-- Length and date fit behind the type. -/
theorem sattrData_eq
    {filelength : Nat}
    {date : List UInt8}
    (binary : Int)
    (small : filelength < 2 ^ 31)
    (short : date.length < dateMax) :
    sattrData binary filelength date =
      attributeField (sattrAttributes binary filelength date) := by
  have few : (numberDigits filelength).length ≤ 10 :=
    (length_numberDigits_le_iff (by decide)).mpr
      (Nat.lt_trans small (by decide))
  have type : (sattrType binary).length ≤ 8 := by
    unfold sattrType
    split <;> decide
  have size : sattrLength (sattrType binary).length filelength =
      Attribute.bytes ⟨ch '1', numberDigits filelength⟩ := by
    have number : numstring filelength = some (numberDigits filelength) :=
      if_pos (Nat.le_trans few (by decide))
    unfold sattrLength
    rw [if_pos (by omega), Int.toNat_natCast, number]
    dsimp only
    rw [if_pos (by simp only [attrlen]; omega)]
    rfl
  have length : (sattrType binary ++
      sattrLength (sattrType binary).length filelength).length ≤ 20 := by
    rw [size, List.length_append]
    simp only [Attribute.bytes, List.length_cons]
    omega
  have shortDate : date.length < 20 := short
  have when : sattrDate (sattrType binary ++
      sattrLength (sattrType binary).length filelength).length date =
      attributeField (if date ≠ [] then [⟨ch '#', date⟩] else []) := by
    unfold sattrDate
    by_cases empty : date = []
    · rw [if_neg (fun both => both.1 empty), if_neg (fun full => full empty)]
      rfl
    · rw [if_pos ⟨empty, by simp only [attrlen]; omega⟩, if_pos empty]
      simp [attributeField, Attribute.bytes]
  have last : [ch '@', ch ' '] = attributeField [⟨ch '@', []⟩] := by
    decide
  have middle : Attribute.bytes ⟨ch '1', numberDigits filelength⟩ =
      attributeField [⟨ch '1', numberDigits filelength⟩] := by
    simp [attributeField]
  unfold sattrData sattrAttributes
  dsimp only
  rw [when, size, sattrType_eq, last, middle]
  simp only [attributeField, List.flatMap_append]

theorem read_binary
    (v : GattrVars) :
    Attribute.read v ⟨ch '"', lit "B8"⟩ = { v with rc := 1 } := by
  rfl

theorem read_text
    (v : GattrVars) :
    Attribute.read v ⟨ch '"', lit "AMJ"⟩ = { v with rc := 0 } := by
  rfl

/-- `gattr()` skips the encoding and the end of the list. -/
theorem read_skipped
    {tag : UInt8}
    (other : tag ≠ ch '!' ∧ tag ≠ ch '"' ∧ tag ≠ ch '#' ∧ tag ≠ ch '1')
    (value : List UInt8)
    (v : GattrVars) :
    Attribute.read v ⟨tag, value⟩ = v := by
  unfold Attribute.read gattrOne
  dsimp only
  rw [if_neg other.1, if_neg other.2.1, if_neg other.2.2.1,
    if_neg other.2.2.2]

theorem read_length
    {filelength : Nat}
    (small : filelength < 2 ^ 31)
    (v : GattrVars) :
    Attribute.read v ⟨ch '1', numberDigits filelength⟩ =
      { v with fsize := filelength } := by
  obtain ⟨decimals, number⟩ := numberDigits_decimal filelength
  have few : (numberDigits filelength).length ≤ sizebufl :=
    (length_numberDigits_le_iff (by decide)).mpr
      (Nat.lt_trans small (by decide))
  have read := stringnum_sizebuf few decimals
  rw [number] at read
  unfold Attribute.read gattrOne
  dsimp only
  rw [if_neg (by decide), if_neg (by decide), if_neg (by decide),
    if_pos rfl, read]

theorem read_date
    {date : List UInt8}
    (short : date.length < dateMax)
    (v : GattrVars) :
    Attribute.read v ⟨ch '#', date⟩ = { v with filedate := date ++ [0] } := by
  unfold Attribute.read gattrOne
  dsimp only
  rw [if_neg (by decide), if_neg (by decide), if_pos rfl,
    List.take_of_length_le (Nat.le_of_lt short)]

/-- What `gattr()` reads from the list. -/
theorem attributesRead_sattr
    {filelength : Nat}
    {date : List UInt8}
    (binary : Int)
    (small : filelength < 2 ^ 31)
    (short : date.length < dateMax)
    (r : KResponse) :
    attributesRead (sattrAttributes binary filelength date) r =
      { fsize := filelength, fsizek := 0
        rc := if binary ≠ 0 then 1 else 0
        filedate := if date ≠ [] then date ++ [0] else r.filedate } := by
  have typed (v : GattrVars) :
      (if binary ≠ 0 then [⟨ch '"', lit "B8"⟩]
        else [⟨ch '"', lit "AMJ"⟩, ⟨ch '*', lit "A"⟩]).foldl
          Attribute.read v =
        { v with rc := if binary ≠ 0 then 1 else 0 } := by
    split
    · exact read_binary v
    · rw [List.foldl_cons, List.foldl_cons, List.foldl_nil, read_text,
        read_skipped (by decide)]
  have dated (v : GattrVars) :
      (if date ≠ [] then [⟨ch '#', date⟩] else []).foldl Attribute.read v =
        { v with
          filedate := if date ≠ [] then date ++ [0] else v.filedate } := by
    split
    · exact read_date short v
    · rfl
  have numbered (v : GattrVars) :
      [⟨ch '1', numberDigits filelength⟩].foldl Attribute.read v =
        { v with fsize := filelength } :=
    read_length small v
  have ended (v : GattrVars) :
      [⟨ch '@', []⟩].foldl Attribute.read v = v :=
    @read_skipped (ch '@') (by decide) [] v
  unfold attributesRead sattrAttributes
  rw [List.foldl_append, List.foldl_append, List.foldl_append, typed,
    numbered, dated, ended]

/-- Every attribute in the list is complete and fits its buffer. -/
theorem sattrAttributes_fit
    {filelength : Nat}
    {date : List UInt8}
    (binary : Int)
    (small : filelength < 2 ^ 31)
    (short : date.length < dateMax)
    (plain : 0 ∉ date) :
    ∀ a ∈ sattrAttributes binary filelength date, a.Fits ∧ 0 ∉ a.bytes := by
  have few : (numberDigits filelength).length ≤ 10 :=
    (length_numberDigits_le_iff (by decide)).mpr
      (Nat.lt_trans small (by decide))
  have lengthByte {count : Nat} (below : count < 32) :
      0 ≠ tochar (UInt8.ofNat count) := by
    have value := toNat_tochar (show count < 224 by omega)
    intro zero
    rw [← zero] at value
    exact absurd value (by simp)
  have member_bytes {tag : UInt8} {value : List UInt8}
      (named : 0 ≠ tag) (below : value.length < 32) (noNul : 0 ∉ value) :
      0 ∉ Attribute.bytes ⟨tag, value⟩ := by
    unfold Attribute.bytes
    rw [List.mem_cons, List.mem_cons]
    rintro (zero | zero | inside)
    · exact named zero
    · exact lengthByte below zero
    · exact noNul inside
  have shortDate : date.length < 20 := short
  intro a member
  unfold sattrAttributes at member
  simp only [List.mem_append, List.mem_singleton] at member
  rcases member with ((type | rfl) | when) | rfl
  · split at type
    · rw [List.mem_singleton.mp type]
      exact ⟨⟨by decide, by decide, by decide⟩, by decide⟩
    · simp only [List.mem_cons, List.not_mem_nil, or_false] at type
      rcases type with rfl | rfl
      · exact ⟨⟨by decide, by decide, by decide⟩, by decide⟩
      · exact ⟨⟨by decide, by decide, by decide⟩, by decide⟩
  · refine ⟨⟨?_, fun _ => ?_, fun date => ?_⟩, ?_⟩
    · exact Nat.lt_of_le_of_lt few (by decide)
    · exact Nat.lt_of_le_of_lt few (by decide)
    · exact absurd date (show ch '1' ≠ ch '#' by decide)
    · exact member_bytes (by decide) (Nat.lt_of_le_of_lt few (by decide))
        (zero_notMem_numberDigits filelength)
  · split at when
    · rw [List.mem_singleton.mp when]
      refine ⟨⟨?_, fun uses => ?_, fun _ => short⟩, ?_⟩
      · exact Nat.lt_trans short (by decide)
      · exact absurd uses (show ¬ usesSizebuf (ch '#') = true by decide)
      · exact member_bytes (by decide) (Nat.lt_trans short (by decide)) plain
    · exact absurd when List.not_mem_nil
  · exact ⟨⟨by decide, by decide, by decide⟩, by decide⟩

/-- `gattr()` on the list. -/
theorem gattr_sattrAttributes
    {filelength : Nat}
    {date : List UInt8}
    (binary : Int)
    (small : filelength < 2 ^ 31)
    (short : date.length < dateMax)
    (plain : 0 ∉ date)
    (rest : List UInt8)
    (r : KResponse) :
    gattr (attributeField (sattrAttributes binary filelength date) ++
        0 :: rest) r =
      (if binary ≠ 0 then 1 else 0,
        { r with
          filedate := if date ≠ [] then date ++ [0] else r.filedate
          filesize := filelength }) := by
  have fit := sattrAttributes_fit binary small short plain
  have complete : ∀ a ∈ sattrAttributes binary filelength date, a.Complete :=
    fun a listed => ⟨(fit a listed).1.short, (fit a listed).2⟩
  have known : (filelength : Int) > -1 := by omega
  have read := gattr_attributes complete rest r
  rw [attributesRead_sattr binary small short] at read
  dsimp only at read
  rw [if_pos known] at read
  exact read

/-! ## The round trip -/

/--
The memory `xdata` points to when `sattr()` has built its data field there.
-/
def sattrField
    (io : Io ω)
    (s : Sys ω) : List UInt8 :=
  let name := (s.k.filename.map (deref s)).getD []
  let info := io.finfo s.w name s.k.par.binary
  poke (xdataMem s.k) 0
    (sattrData info.2.2.1 info.1 ((cstr info.2.1).take dateMax) ++ [0])

/-- `sattr()` hands its field to `spkt()`, unless it gets no slot. -/
theorem sattr_field
    (io : Io ω)
    (s : Sys ω) :
    (∃ t, (getSslot t.k).1 < 0 ∧ sattr io s = (0, t)) ∨
      ∃ t, sattr io s =
        spkt io (ch 'A') t.k.sSeq (-1) (some (sattrField io s)) t := by
  obtain ⟨t, field, route⟩ : ∃ t : Sys ω,
      xdataMem t.k = sattrField io s ∧
      sattr io s =
        (if (getSslot t.k).1 < 0 then (0, t)
        else
          let u := onK (fun k => (takeSslot k).2) t
          spkt io (ch 'A') u.k.sSeq (-1) (some (xdataMem u.k)) u) := by
    refine ⟨{ k := _, r := _, w := _, log := _ }, ?_, rfl⟩
    exact xdataMem_pokeXdata 0 _ _
  by_cases none : (getSslot t.k).1 < 0
  · rw [if_pos none] at route
    exact Or.inl ⟨t, none, route⟩
  · rw [if_neg none] at route
    have same : xdataMem (onK (fun k => (takeSslot k).2) t).k =
        xdataMem t.k := by
      unfold onK takeSslot getSslot mapSseq
      dsimp only
      split <;> rfl
    dsimp only at route
    rw [same, field] at route
    exact Or.inr ⟨_, route⟩

/--
`gattr()` reads from the list what `sattr()` put into it, up to the NUL: the
response is the one that the file header leaves.
-/
theorem gattr_sattr
    (io : Io ω)
    (s t : Sys ω)
    (rest : List UInt8)
    {filelength : Nat}
    {datebuf : List UInt8}
    {binary : Int}
    {w : ω}
    (told : io.finfo s.w ((s.k.filename.map (deref s)).getD [])
      s.k.par.binary = ((filelength : Int), datebuf, binary, w))
    (small : filelength < 2 ^ 31)
    (short : (cstr datebuf).length < dateMax) :
    let field := cstr (sattrField io s)
    let read := gattr (field ++ 0 :: rest) (clearFile t).r
    let run := (probeGattr (field ++ 0 :: rest) (clearFile t).r).1
    read.1 = (if binary ≠ 0 then 1 else 0) ∧
      read.2.filesize = filelength ∧
      cstr read.2.filedate = cstr datebuf ∧
      run.place = field.length + 1 ∧
      run.Inside field.length := by
  have plain : 0 ∉ cstr datebuf := zero_notMem_cstr datebuf
  have fit := sattrAttributes_fit binary small short plain
  have noNul : 0 ∉ attributeField
      (sattrAttributes binary filelength (cstr datebuf)) := by
    intro member
    obtain ⟨a, listed, inside⟩ := List.mem_flatMap.mp member
    exact (fit a listed).2 inside
  have field : cstr (sattrField io s) = attributeField
      (sattrAttributes binary filelength (cstr datebuf)) := by
    unfold sattrField
    dsimp only
    rw [told]
    dsimp only
    rw [List.take_of_length_le (Nat.le_of_lt short),
      sattrData_eq binary small short, poke_zero, List.append_assoc]
    exact cstr_append_zero noNul _
  obtain ⟨inside, place, _⟩ := probeGattr_inside
    (fun a listed => (fit a listed).1) noNul rest (clearFile t).r
  dsimp only
  rw [field, gattr_sattrAttributes binary small short plain]
  refine ⟨rfl, rfl, ?_, place, inside⟩
  dsimp only
  split
  · exact cstr_append_zero plain []
  · rename_i empty
    exact (Decidable.not_not.mp empty).symm

/-- A host that reports a length and a date for every file. -/
def datedIo : Io (Unix Unit) :=
  { unixio idleOs with
    finfo := fun w _ type => (1500, lit "20200910 12:34:56", type, w) }

theorem gattr_sattr_dated :
    cstr (gattr (cstr (sattrField datedIo (freshSys 0)) ++ [0])
        (clearFile (freshSys 0)).r).2.filedate =
      cstr (lit "20200910 12:34:56") :=
  (@gattr_sattr _ datedIo (freshSys 0) (freshSys 0) [] 1500
    (lit "20200910 12:34:56") (freshSys 0).k.par.binary (freshSys 0).w rfl
    (by decide) (by decide)).2.2.1

end Slate106.Kermit
