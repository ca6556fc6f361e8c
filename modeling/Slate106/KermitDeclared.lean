import Slate106.KermitFrame

namespace Slate106.Kermit

open CBytes

/-!
# The declared part of a packet

The parser works on as many bytes as the header of a packet declares.  Whether
a packet is accepted is a matter of these bytes alone; how many bytes were
received is looked at nowhere.
-/

variable {ω : Type}

/-! ## What the header declares -/

/-- The length character of the packet in `ipktbuf`. -/
def lengthField
    (k : KData) : UInt8 :=
  xunchar (peek k.ipktbuf 0)

/-- The type of the packet in `ipktbuf`. -/
def typeField
    (k : KData) : UInt8 :=
  peek k.ipktbuf 2

/-- Where the data begins: behind a short or an extended header. -/
def dataStart
    (k : KData) : Nat :=
  if lengthField k = 0 then 6 else 3

/-- The extended length of a packet. -/
def extendedLength
    (k : KData) : Nat :=
  (xunchar (peek k.ipktbuf 3)).toNat * 95 +
    (xunchar (peek k.ipktbuf 4)).toNat

/-- The length of a packet that its own header declares. -/
def declaredLength
    (k : KData) : Nat :=
  if lengthField k = 0 then 6 + extendedLength k
  else (lengthField k).toNat + 1

/-- The length of the block check of the packet in `ipktbuf`. -/
def checkLength
    (k : KData) : Nat :=
  chkLength k (typeField k)

/-- What the parser takes the packet in `ipktbuf` for, if it is good. -/
def declaredRcvd
    (k : KData) : Rcvd where
  rtyp := typeField k
  rseq := (xunchar (peek k.ipktbuf 1)).toNat
  pdf := dataStart k
  datalen :=
    (declaredLength k : Int) - checkLength k - dataStart k
  ackText := cancelText k

/-- The check characters of type `chklen` before a place are right. -/
def CheckedTo
    (chklen place : Nat)
    (buf : List UInt8) : Prop :=
  blockOk chklen (slice buf (place - chklen) chklen)
    (cstr (slice buf 0 (place - chklen))) = true

/-- The block check of the declared part, or that of an error packet. -/
def DeclaredCheck
    (k : KData) : Prop :=
  CheckedTo (checkLength k) (declaredLength k) k.ipktbuf ∨
    (checkLength k = 2 ∨ checkLength k = 3) ∧ typeField k = ch 'E' ∧
      CheckedTo 1 (declaredLength k) k.ipktbuf

/-- The tests of the header, up to its lengths. -/
structure HeaderStands
    (k : KData)
    (len : Int) : Prop where
  notLast :
    ¬ (k.state = .sEot ∧ len = 4 ∧ xunchar (peek k.ipktbuf 1) = 0 ∧
      typeField k = ch 'N' ∧ peek k.ipktbuf 3 = 0x33)
  upper : (xunchar (peek k.ipktbuf 1)).toNat ≤ 63
  noEcho :
    ¬ (k.what = .recv ∧ (typeField k = ch 'N' ∨ typeField k = ch 'Y'))
  sum :
    lengthField k = 0 →
      (xunchar (peek k.ipktbuf 5)).toNat =
        chk1 (cstr (slice k.ipktbuf 0 5))

/-- The tests of the declared part, behind those of the header. -/
structure BodyStands
    (k : KData) : Prop where
  later : lengthField k = 0 → isInitial k (typeField k) = false
  least : dataStart k + checkLength k ≤ declaredLength k
  most : declaredLength k + 1 < dataStart k + pBuflen
  check : DeclaredCheck k

/-- The tests that the parser makes of a packet, on its declared part. -/
structure Stands
    (k : KData)
    (len : Int) : Prop where
  header : HeaderStands k len
  body : BodyStands k

/-! ## The tests as the parser makes them -/

/-- The block check at the place where the data ends. -/
theorem parseCheck_good_iff
    {chklen datalen : Nat}
    {p p' : Rcvd}
    {buf : List UInt8} :
    (∃ buf', parseCheck chklen datalen p buf = .good p' buf') ↔
      p' = p ∧
        (CheckedTo chklen (p.pdf + datalen + chklen) buf ∨
          (chklen = 2 ∨ chklen = 3) ∧ p.rtyp = ch 'E' ∧
            CheckedTo 1 (p.pdf + datalen + chklen) buf) := by
  let place := p.pdf + datalen
  let pbc := (buf.drop place).takeD chklen 0
  let cut := poke buf place [0]
  have characters : pbc = slice buf place chklen :=
    takeD_drop_eq_slice buf place chklen
  have text : cstr cut = cstr (slice buf 0 place) :=
    cstr_poke_slice (fun _ _ => rfl) 0
  have checked :
      blockOk chklen pbc (cstr cut) = true ↔
        CheckedTo chklen (place + chklen) buf := by
    rw [CheckedTo, Nat.add_sub_cancel, characters, text]
  have repaired (kinds : chklen = 2 ∨ chklen = 3) :
      (xunchar (peek pbc (chklen - 1))).toNat =
          chk1 (cstr (errorRetryBuf p.pdf datalen chklen pbc cut)) ↔
        CheckedTo 1 (place + chklen) buf := by
    have last : peek pbc (chklen - 1) = peek buf (place + (chklen - 1)) := by
      rw [characters, peek_slice _ _ (by omega)]
    have back : pbc.take (chklen - 1) = slice buf place (chklen - 1) := by
      rw [characters, take_slice _ _ (Nat.sub_le ..)]
    have retry :
        cstr (errorRetryBuf p.pdf datalen chklen pbc cut) =
          cstr (slice buf 0 (place + (chklen - 1))) := by
      rw [errorRetryBuf, back]
      apply cstr_poke_slice
      intro index before
      exact peek_poke_before buf before [0]
    have placed : place + chklen - 1 = place + (chklen - 1) := by
      omega
    rw [last, retry, CheckedTo, placed]
    simp [blockOk, slice]
  unfold parseCheck
  dsimp only
  constructor
  · rintro ⟨buf', good⟩
    split at good
    · rename_i accepted
      exact ⟨(Parsed.good.inj good).1.symm, Or.inl (checked.mp accepted)⟩
    · split at good
      · rename_i error
        split at good
        · rename_i accepted
          exact ⟨(Parsed.good.inj good).1.symm,
            Or.inr ⟨error.1, error.2, (repaired error.1).mp accepted⟩⟩
        · cases good
      · cases good
  · rintro ⟨rfl, accepted | ⟨kinds, error, accepted⟩⟩
    · rw [if_pos (checked.mpr accepted)]
      exact ⟨_, rfl⟩
    · split
      · exact ⟨_, rfl⟩
      · rw [if_pos ⟨kinds, error⟩, if_pos ((repaired kinds).mpr accepted)]
        exact ⟨_, rfl⟩

theorem CheckedTo.congr
    {chklen place : Nat}
    {buf buf' : List UInt8}
    (agree : ∀ index, index < place → peek buf index = peek buf' index)
    (enough : chklen ≤ place)
    (checked : CheckedTo chklen place buf) :
    CheckedTo chklen place buf' := by
  have characters :
      slice buf (place - chklen) chklen =
        slice buf' (place - chklen) chklen :=
    slice_congr fun index _ below => agree index (by omega)
  have text :
      slice buf 0 (place - chklen) = slice buf' 0 (place - chklen) :=
    slice_congr fun index _ below => agree index (by omega)
  unfold CheckedTo at checked ⊢
  rw [← characters, ← text]
  exact checked

/-- The bounds on the lengths, and the block check behind them. -/
theorem parseLengths_good_iff
    {k : KData}
    {rlen : UInt8}
    {p p' : Rcvd}
    {buf : List UInt8} :
    (∃ buf', parseLengths k rlen p buf = .good p' buf') ↔
      ∃ datalen : Nat,
        dataLength k rlen p = datalen ∧
        datalen + chkLength k p.rtyp + 1 < pBuflen ∧
        p' = { p with datalen := datalen } ∧
        (CheckedTo (chkLength k p.rtyp)
            (p.pdf + datalen + chkLength k p.rtyp) buf ∨
          (chkLength k p.rtyp = 2 ∨ chkLength k p.rtyp = 3) ∧
            p.rtyp = ch 'E' ∧
            CheckedTo 1 (p.pdf + datalen + chkLength k p.rtyp) buf) := by
  unfold parseLengths
  dsimp only
  constructor
  · rintro ⟨buf', good⟩
    split at good
    · cases good
    · rename_i inBounds
      rw [not_or] at inBounds
      obtain ⟨datalen, value⟩ :=
        Int.eq_ofNat_of_zero_le (Int.not_lt.mp inBounds.1)
      rw [value] at good inBounds
      obtain ⟨rfl, accepted⟩ := parseCheck_good_iff.mp ⟨buf', good⟩
      exact ⟨datalen, value, by omega, rfl, accepted⟩
  · rintro ⟨datalen, value, fits, rfl, accepted⟩
    have inBounds :
        ¬ (dataLength k rlen p < 0 ∨
          dataLength k rlen p + chkLength k p.rtyp + 1 ≥ pBuflen) := by
      omega
    rw [if_neg inBounds, value]
    exact parseCheck_good_iff.mpr ⟨rfl, accepted⟩

/-- With the checksum of the header put back, the memory is as before. -/
theorem peek_restored
    (buf : List UInt8)
    (index : Nat) :
    peek (poke (poke buf 5 [0]) 5 [peek buf 5]) index = peek buf index := by
  rw [peek_poke_byte, peek_poke_byte]
  split
  · subst index
    rfl
  · rfl

/-- The header checksum is that of the five characters before it. -/
theorem cstr_header
    (buf : List UInt8) :
    cstr (poke buf 5 [0]) = cstr (slice buf 0 5) :=
  cstr_poke_slice (fun _ _ => rfl) 0

/-- The lengths of a packet with a short header. -/
theorem dataLength_short
    {k : KData}
    {p : Rcvd}
    (short : lengthField k ≠ 0)
    (rtyp : p.rtyp = typeField k)
    (datalen :
      p.datalen =
        ((lengthField k).toNat : Int) -
          (if k.cfg.bcta3 ≠ 0 then (3 : Int) else k.par.bct) - 2) :
    dataLength k (lengthField k) p =
      (declaredLength k : Int) - checkLength k - dataStart k := by
  rw [declaredLength, dataStart, if_neg short, if_neg short, dataLength,
    checkLength, chkLength, rtyp, datalen]
  split
  · split <;> push_cast <;> omega
  · split <;> push_cast <;> omega

/-- The lengths of a packet with an extended header. -/
theorem dataLength_extended
    {k : KData}
    {p : Rcvd}
    (extended : lengthField k = 0)
    (later : isInitial k (typeField k) = false)
    (rtyp : p.rtyp = typeField k)
    (datalen :
      p.datalen =
        (extendedLength k : Int) -
          (if k.cfg.bcta3 ≠ 0 then (3 : Int) else k.par.bct)) :
    dataLength k (lengthField k) p =
      (declaredLength k : Int) - checkLength k - dataStart k := by
  have notInitial : ¬ (isInitial k (typeField k) = true) := by
    rw [later]
    exact Bool.false_ne_true
  rw [declaredLength, dataStart, if_pos extended, if_pos extended,
    dataLength, checkLength, chkLength, rtyp, if_neg notInitial,
    if_neg notInitial, datalen]
  split <;> push_cast <;> omega

/-- An extended header is never the header of an initial packet. -/
theorem dataLength_initial
    {k : KData}
    {p : Rcvd}
    (extended : lengthField k = 0)
    (initial : isInitial k p.rtyp = true) :
    dataLength k (lengthField k) p < 0 := by
  rw [dataLength, if_pos initial, extended]
  split <;> decide

/-- What the parser hands to the test of the lengths. -/
def headerRcvd
    (k : KData) : Rcvd where
  rtyp := typeField k
  rseq := (xunchar (peek k.ipktbuf 1)).toNat
  pdf := dataStart k
  datalen :=
    if lengthField k = 0 then
      (extendedLength k : Int) -
        (if k.cfg.bcta3 ≠ 0 then (3 : Int) else k.par.bct)
    else
      ((lengthField k).toNat : Int) -
        (if k.cfg.bcta3 ≠ 0 then (3 : Int) else k.par.bct) - 2
  ackText := cancelText k

theorem headerRcvd_extended
    {k : KData}
    (extended : lengthField k = 0) :
    headerRcvd k =
      { rtyp := typeField k,
        rseq := (xunchar (peek k.ipktbuf 1)).toNat,
        pdf := 6,
        datalen :=
          (xunchar (peek k.ipktbuf 3)).toNat * 95 +
              (xunchar (peek k.ipktbuf 4)).toNat -
            (if k.cfg.bcta3 ≠ 0 then (3 : Int) else k.par.bct),
        ackText := cancelText k } := by
  rw [headerRcvd, dataStart, if_pos extended, if_pos extended,
    extendedLength, Int.natCast_add, Int.natCast_mul]
  rfl

theorem headerRcvd_short
    {k : KData}
    (short : lengthField k ≠ 0) :
    headerRcvd k =
      { rtyp := typeField k,
        rseq := (xunchar (peek k.ipktbuf 1)).toNat,
        pdf := 3,
        datalen :=
          ((lengthField k).toNat : Int) -
            (if k.cfg.bcta3 ≠ 0 then (3 : Int) else k.par.bct) - 2,
        ackText := cancelText k } := by
  rw [headerRcvd, dataStart, if_neg short, if_neg short]

/-- The memory with the checksum of an extended header put back. -/
def headerBuf
    (k : KData) : List UInt8 :=
  if lengthField k = 0 then
    poke (poke k.ipktbuf 5 [0]) 5 [peek k.ipktbuf 5]
  else k.ipktbuf

theorem peek_headerBuf
    (k : KData)
    (index : Nat) :
    peek (headerBuf k) index = peek k.ipktbuf index := by
  unfold headerBuf
  split
  · exact peek_restored k.ipktbuf index
  · rfl

/-- The parser goes on to the lengths when the header stands its tests. -/
theorem parse_eq_good_iff
    {k : KData}
    {len : Int}
    {p : Rcvd}
    {buf : List UInt8} :
    parse k len = .good p buf ↔
      HeaderStands k len ∧
        parseLengths k (lengthField k) (headerRcvd k) (headerBuf k) =
          .good p buf := by
  have zero (number : UInt8) : ((number.toNat : Int) = 0) ↔ number = 0 := by
    rw [← UInt8.toNat_inj]
    exact Int.ofNat_inj
  have header :
      (xunchar (peek k.ipktbuf 5)).toNat ≠
          chk1 (cstr (poke k.ipktbuf 5 [0])) ↔
        ¬ ((xunchar (peek k.ipktbuf 5)).toNat =
          chk1 (cstr (slice k.ipktbuf 0 5))) := by
    rw [cstr_header]
  have inRange :
      (((xunchar (peek k.ipktbuf 1)).toNat : Int) < 0 ∨
          ((xunchar (peek k.ipktbuf 1)).toNat : Int) > 63) ↔
        ¬ ((xunchar (peek k.ipktbuf 1)).toNat ≤ 63) := by
    omega
  have rlen : xunchar (peek k.ipktbuf 0) = lengthField k := rfl
  have rtyp : peek k.ipktbuf 2 = typeField k := rfl
  unfold parse
  dsimp only
  simp only [zero, header, inRange, rlen, rtyp]
  constructor
  · intro good
    split at good
    · cases good
    · rename_i notLast
      split at good
      · cases good
      · rename_i upper
        split at good
        · cases good
        · rename_i noEcho
          split at good
          · rename_i extended
            split at good
            · cases good
            · rename_i sum
              rw [← headerRcvd_extended extended] at good
              refine
                ⟨⟨notLast, not_not.mp upper, noEcho,
                  fun _ => not_not.mp sum⟩, ?_⟩
              rw [headerBuf, if_pos extended]
              exact good
          · rename_i short
            rw [← headerRcvd_short short] at good
            refine
              ⟨⟨notLast, not_not.mp upper, noEcho,
                fun extended => absurd extended short⟩, ?_⟩
            rw [headerBuf, if_neg short]
            exact good
  · rintro ⟨stands, good⟩
    rw [if_neg stands.notLast, if_neg (not_not.mpr stands.upper),
      if_neg stands.noEcho]
    by_cases extended : lengthField k = 0
    · rw [headerBuf, if_pos extended] at good
      rw [if_pos extended, if_neg (not_not.mpr (stands.sum extended)),
        ← headerRcvd_extended extended]
      exact good
    · rw [headerBuf, if_neg extended] at good
      rw [if_neg extended, ← headerRcvd_short extended]
      exact good

/-- The tests of the lengths and of the block check, on the declared part. -/
theorem parseLengths_declared_iff
    {k : KData}
    {p : Rcvd} :
    (∃ buf,
        parseLengths k (lengthField k) (headerRcvd k) (headerBuf k) =
          .good p buf) ↔
      BodyStands k ∧ p = declaredRcvd k := by
  have lengths
      (later : lengthField k = 0 → isInitial k (typeField k) = false) :
      dataLength k (lengthField k) (headerRcvd k) =
        (declaredLength k : Int) - checkLength k - dataStart k := by
    by_cases extended : lengthField k = 0
    · exact dataLength_extended extended (later extended) rfl
        (if_pos extended)
    · exact dataLength_short extended rfl (if_neg extended)
  have checks {chklen : Nat} (enough : chklen ≤ declaredLength k) :
      CheckedTo chklen (declaredLength k) (headerBuf k) ↔
        CheckedTo chklen (declaredLength k) k.ipktbuf :=
    ⟨.congr (fun index _ => peek_headerBuf k index) enough,
      .congr (fun index _ => (peek_headerBuf k index).symm) enough⟩
  rw [parseLengths_good_iff]
  constructor
  · rintro ⟨datalen, value, fits, rfl, accepted⟩
    have later : lengthField k = 0 → isInitial k (typeField k) = false := by
      intro extended
      rw [Bool.eq_false_iff]
      intro initial
      have negative := dataLength_initial (p := headerRcvd k) extended initial
      omega
    have whole := lengths later
    rw [value] at whole
    have place :
        dataStart k + datalen + checkLength k = declaredLength k := by
      omega
    refine ⟨⟨later, by omega, ?_, ?_⟩, ?_⟩
    · change datalen + checkLength k + 1 < pBuflen at fits
      omega
    · change
        CheckedTo (checkLength k) (dataStart k + datalen + checkLength k)
            (headerBuf k) ∨
          (checkLength k = 2 ∨ checkLength k = 3) ∧
            typeField k = ch 'E' ∧
            CheckedTo 1 (dataStart k + datalen + checkLength k)
              (headerBuf k)
        at accepted
      rw [place] at accepted
      rcases accepted with plain | ⟨kinds, error, repaired⟩
      · exact Or.inl ((checks (by omega)).mp plain)
      · exact Or.inr ⟨kinds, error, (checks (by omega)).mp repaired⟩
    · simp only [declaredRcvd, headerRcvd, whole]
  · rintro ⟨⟨later, least, most, check⟩, rfl⟩
    have whole := lengths later
    obtain ⟨datalen, place⟩ := Nat.exists_eq_add_of_le least
    refine ⟨datalen, by omega, ?_, ?_, ?_⟩
    · change datalen + checkLength k + 1 < pBuflen
      omega
    · have value :
          (declaredLength k : Int) - checkLength k - dataStart k =
            datalen := by
        omega
      simp only [declaredRcvd, headerRcvd, value]
    · change
        CheckedTo (checkLength k) (dataStart k + datalen + checkLength k)
            (headerBuf k) ∨
          (checkLength k = 2 ∨ checkLength k = 3) ∧
            typeField k = ch 'E' ∧
            CheckedTo 1 (dataStart k + datalen + checkLength k)
              (headerBuf k)
      have ends :
          dataStart k + datalen + checkLength k = declaredLength k := by
        omega
      rw [ends]
      rcases check with plain | ⟨kinds, error, repaired⟩
      · exact Or.inl ((checks (by omega)).mpr plain)
      · exact Or.inr ⟨kinds, error, (checks (by omega)).mpr repaired⟩

/-- A packet is good exactly when its declared part stands the tests. -/
theorem parse_good_iff
    {k : KData}
    {len : Int}
    {p : Rcvd} :
    (∃ buf, parse k len = .good p buf) ↔
      Stands k len ∧ p = declaredRcvd k := by
  simp only [parse_eq_good_iff]
  constructor
  · rintro ⟨buf, header, good⟩
    obtain ⟨body, same⟩ := parseLengths_declared_iff.mp ⟨buf, good⟩
    exact ⟨⟨header, body⟩, same⟩
  · rintro ⟨⟨header, body⟩, same⟩
    obtain ⟨buf, good⟩ := parseLengths_declared_iff.mpr ⟨body, same⟩
    exact ⟨buf, header, good⟩

/-! ## The data of a good packet -/

instance
    (chklen place : Nat)
    (buf : List UInt8) :
    Decidable (CheckedTo chklen place buf) :=
  inferInstanceAs (Decidable (_ = true))

/-- The data a block check leaves, or an error packet with its own check. -/
theorem parseCheck_text
    {chklen datalen : Nat}
    {p p' : Rcvd}
    {buf buf' : List UInt8}
    (good : parseCheck chklen datalen p buf = .good p' buf') :
    cstrAt buf' p.pdf =
      cstr (slice buf p.pdf
        (if CheckedTo chklen (p.pdf + datalen + chklen) buf then datalen
        else datalen + (chklen - 1))) := by
  have text : cstr (poke buf (p.pdf + datalen) [0]) =
      cstr (slice buf 0 (p.pdf + datalen)) :=
    cstr_poke_slice (fun _ _ => rfl) 0
  have checked :
      blockOk chklen ((buf.drop (p.pdf + datalen)).takeD chklen 0)
          (cstr (poke buf (p.pdf + datalen) [0])) =
        true ↔
        CheckedTo chklen (p.pdf + datalen + chklen) buf := by
    rw [CheckedTo, Nat.add_sub_cancel, takeD_drop_eq_slice, text]
  unfold parseCheck at good
  dsimp only at good
  rw [ite_cond_congr (propext checked)] at good
  split at good
  · rename_i accepted
    obtain ⟨-, rfl⟩ := Parsed.good.inj good
    rw [if_pos accepted]
    exact cstrAt_poke_slice (fun _ _ => rfl) 0
  · rename_i refused
    rw [if_neg refused]
    split at good
    · split at good
      · obtain ⟨-, rfl⟩ := Parsed.good.inj good
        rw [errorRetryBuf, takeD_drop_eq_slice,
          take_slice _ _ (Nat.sub_le ..)]
        exact cstrAt_poke_slice
          (fun index before => peek_poke_before buf before [0]) _
      · cases good
    · cases good

/-- The length of the data that the declared part leaves. -/
def declaredDatalen
    (k : KData) : Nat :=
  declaredLength k - checkLength k - dataStart k

/-- The data of the declared part. -/
def declaredText
    (k : KData) : List UInt8 :=
  cstr (slice k.ipktbuf (dataStart k)
    (if CheckedTo (checkLength k) (declaredLength k) k.ipktbuf then
      declaredDatalen k
    else declaredDatalen k + (checkLength k - 1)))

/-- A good packet leaves the declared data as a string. -/
theorem parse_good_text
    {k : KData}
    {len : Int}
    {p : Rcvd}
    {buf : List UInt8}
    (good : parse k len = .good p buf) :
    cstrAt buf p.pdf = declaredText k := by
  obtain ⟨stands, rfl⟩ := parse_good_iff.mp ⟨buf, good⟩
  obtain ⟨-, lengths⟩ := parse_eq_good_iff.mp good
  have least := stands.body.least
  unfold parseLengths at lengths
  dsimp only at lengths
  split at lengths
  · cases lengths
  · have value :
        dataLength k (lengthField k) (headerRcvd k) = declaredDatalen k := by
      obtain ⟨datalen, whole, -, same, -⟩ :=
        parseLengths_good_iff.mp ⟨buf, (parse_eq_good_iff.mp good).2⟩
      have sameLength := congrArg Rcvd.datalen same
      change
        (declaredLength k : Int) - checkLength k - dataStart k = datalen
        at sameLength
      rw [whole, declaredDatalen]
      omega
    rw [value] at lengths
    have text := parseCheck_text lengths
    change
      cstrAt buf (dataStart k) =
        cstr (slice (headerBuf k) (dataStart k)
          (if CheckedTo (checkLength k)
              (dataStart k + declaredDatalen k + checkLength k)
              (headerBuf k) then
            declaredDatalen k
          else declaredDatalen k + (checkLength k - 1))) at text
    have place :
        dataStart k + declaredDatalen k + checkLength k =
          declaredLength k := by
      rw [declaredDatalen]
      omega
    have sameCheck :
        CheckedTo (checkLength k) (declaredLength k) (headerBuf k) ↔
          CheckedTo (checkLength k) (declaredLength k) k.ipktbuf :=
      ⟨.congr (fun index _ => peek_headerBuf k index) (by omega),
        .congr (fun index _ => (peek_headerBuf k index).symm) (by omega)⟩
    rw [place, ite_cond_congr (propext sameCheck),
      slice_congr fun index _ _ => peek_headerBuf k index] at text
    exact text

/-! ## What lies behind the declared part -/

/-- `k` with other contents of `ipktbuf`. -/
def withBuf
    (buf : List UInt8)
    (k : KData) : KData :=
  { k with ipktbuf := buf }

section Behind

variable {k : KData}
variable {buf : List UInt8}

/-- The bytes of the declared part, and the first four, are the same. -/
def Agrees
    (buf : List UInt8)
    (k : KData) : Prop :=
  ∀ index, index < 4 ∨ index < declaredLength k →
    peek buf index = peek k.ipktbuf index

theorem Agrees.lengthField
    (agrees : Agrees buf k) :
    lengthField (withBuf buf k) = lengthField k :=
  congrArg xunchar (agrees 0 (by omega))

theorem Agrees.typeField
    (agrees : Agrees buf k) :
    typeField (withBuf buf k) = typeField k :=
  agrees 2 (by omega)

theorem Agrees.dataStart
    (agrees : Agrees buf k) :
    dataStart (withBuf buf k) = dataStart k := by
  unfold Kermit.dataStart
  rw [agrees.lengthField]

theorem Agrees.declaredLength
    (agrees : Agrees buf k) :
    declaredLength (withBuf buf k) = declaredLength k := by
  by_cases extended : Kermit.lengthField k = 0
  · have whole : 6 ≤ Kermit.declaredLength k := by
      rw [Kermit.declaredLength, if_pos extended]
      exact Nat.le_add_right ..
    have high : peek buf 3 = peek k.ipktbuf 3 := agrees 3 (by omega)
    have low : peek buf 4 = peek k.ipktbuf 4 := agrees 4 (by omega)
    unfold Kermit.declaredLength extendedLength
    rw [agrees.lengthField]
    simp only [withBuf, high, low]
  · unfold Kermit.declaredLength
    rw [agrees.lengthField, if_neg extended, if_neg extended]

theorem Agrees.checkLength
    (agrees : Agrees buf k) :
    checkLength (withBuf buf k) = checkLength k := by
  unfold Kermit.checkLength
  rw [agrees.typeField]
  rfl

theorem Agrees.checkedTo
    (agrees : Agrees buf k)
    {chklen : Nat}
    (enough : chklen ≤ Kermit.declaredLength k) :
    CheckedTo chklen (Kermit.declaredLength k) buf ↔
      CheckedTo chklen (Kermit.declaredLength k) k.ipktbuf :=
  ⟨.congr (fun index inside => agrees index (Or.inr inside)) enough,
    .congr (fun index inside => (agrees index (Or.inr inside)).symm)
      enough⟩

/-- What lies behind the declared part does not decide about a packet. -/
theorem Agrees.stands
    (agrees : Agrees buf k)
    {len : Int}
    (stands : Stands k len) :
    Stands (withBuf buf k) len := by
  have number : peek buf 1 = peek k.ipktbuf 1 := agrees 1 (by omega)
  have fourth : peek buf 3 = peek k.ipktbuf 3 := agrees 3 (by omega)
  have least := stands.body.least
  refine ⟨⟨?_, ?_, ?_, ?_⟩, ⟨?_, ?_, ?_, ?_⟩⟩
  · rw [agrees.typeField]
    simp only [withBuf, number, fourth]
    exact stands.header.notLast
  · simp only [withBuf, number]
    exact stands.header.upper
  · rw [agrees.typeField]
    exact stands.header.noEcho
  · intro extended
    rw [agrees.lengthField] at extended
    have whole : 6 ≤ Kermit.declaredLength k := by
      rw [Kermit.declaredLength, if_pos extended]
      exact Nat.le_add_right ..
    have same : slice buf 0 5 = slice k.ipktbuf 0 5 :=
      slice_congr fun index _ below => agrees index (by omega)
    have sum : peek buf 5 = peek k.ipktbuf 5 := agrees 5 (by omega)
    simp only [withBuf, same, sum]
    exact stands.header.sum extended
  · rw [agrees.lengthField, agrees.typeField]
    exact stands.body.later
  · rw [agrees.dataStart, agrees.checkLength, agrees.declaredLength]
    exact least
  · rw [agrees.dataStart, agrees.declaredLength]
    exact stands.body.most
  · rw [DeclaredCheck, agrees.checkLength, agrees.declaredLength,
      agrees.typeField]
    rcases stands.body.check with plain | ⟨kinds, error, repaired⟩
    · exact Or.inl ((agrees.checkedTo (by omega)).mpr plain)
    · exact Or.inr
        ⟨kinds, error, (agrees.checkedTo (by omega)).mpr repaired⟩

theorem Agrees.declaredRcvd
    (agrees : Agrees buf k) :
    declaredRcvd (withBuf buf k) = declaredRcvd k := by
  have number : peek buf 1 = peek k.ipktbuf 1 := agrees 1 (by omega)
  unfold Kermit.declaredRcvd
  rw [agrees.typeField, agrees.dataStart, agrees.declaredLength,
    agrees.checkLength]
  simp only [withBuf, number]
  rfl

theorem Agrees.declaredText
    (agrees : Agrees buf k)
    {len : Int}
    (stands : Stands k len) :
    declaredText (withBuf buf k) = declaredText k := by
  have least := stands.body.least
  have inside :
      ∀ count,
        count ≤ declaredDatalen k + Kermit.checkLength k →
          slice buf (Kermit.dataStart k) count =
            slice k.ipktbuf (Kermit.dataStart k) count := by
    intro count below
    apply slice_congr
    intro index _ before
    refine agrees index (Or.inr ?_)
    rw [declaredDatalen] at below
    omega
  have sameCheck := @Agrees.checkedTo k buf agrees (Kermit.checkLength k)
    (by omega)
  unfold Kermit.declaredText
  rw [show declaredDatalen (withBuf buf k) = declaredDatalen k by
      rw [declaredDatalen, declaredDatalen, agrees.declaredLength,
        agrees.checkLength, agrees.dataStart],
    agrees.declaredLength, agrees.checkLength, agrees.dataStart]
  have buffer : (withBuf buf k).ipktbuf = buf := rfl
  rw [buffer, ite_cond_congr (propext sameCheck)]
  congr 1
  apply inside
  split <;> omega

end Behind

/-! ## Acceptance as a whole -/

/-- A frame that `rxd` stored, before what `ipktbuf` held already. -/
def stored
    (frame stale : List UInt8)
    (s : Sys ω) : Sys ω :=
  { s with k := withBuf (frame ++ 0 :: stale) s.k }

/--
If a frame gets past its block check, its declared length is the one received
and its data is the same whatever `ipktbuf` held behind it.
-/
def AcceptedWhole
    (io : Io ω)
    (frame stale : List UInt8)
    (s : Sys ω) : Prop :=
  ∀ p after,
    rxStage io frame.length (stored frame stale s) = .go p after →
      declaredLength (stored frame stale s).k = frame.length ∧
      ∀ stale', ∃ after',
        rxStage io frame.length (stored frame stale' s) = .go p after' ∧
        cstrAt after'.k.ipktbuf p.pdf = cstrAt after.k.ipktbuf p.pdf

/-- Only a good packet gets past the block check. -/
theorem rxStage_go_iff
    (io : Io ω)
    {len : Int}
    {s after : Sys ω}
    {p : Rcvd} :
    rxStage io len s = .go p after ↔
      ¬ len < 4 ∧
        ∃ buf, parse s.k len = .good p buf ∧
          after =
            { s with k := { forceBcta3 s.k with ipktbuf := buf } } := by
  unfold rxStage
  constructor
  · intro gone
    split at gone
    · split at gone
      · split at gone <;> cases gone
      · cases gone
    · rename_i long
      cases parsed : parse s.k len with
      | good p' buf =>
          rw [parsed] at gone
          obtain ⟨rfl, rfl⟩ := Stage.go.inj gone
          exact ⟨long, buf, rfl, rfl⟩
      | _ =>
          rw [parsed] at gone
          cases gone
  · rintro ⟨long, buf, good, rfl⟩
    rw [if_neg long, good]

/--
A packet is accepted only as a whole exactly when its header declares the
length received, or its declared part fails one of the tests of the parser.
-/
theorem accepted_whole_iff
    (io : Io ω)
    (frame stale : List UInt8)
    (s : Sys ω) :
    AcceptedWhole io frame stale s ↔
      declaredLength (stored frame stale s).k = frame.length ∨
        frame.length < 4 ∨
        ¬ Stands (stored frame stale s).k frame.length := by
  constructor
  · intro whole
    by_cases short : frame.length < 4
    · exact Or.inr (Or.inl short)
    · by_cases stands : Stands (stored frame stale s).k frame.length
      · obtain ⟨buf, good⟩ := parse_good_iff.mpr ⟨stands, rfl⟩
        have gone := (rxStage_go_iff io).mpr
          ⟨by omega, buf, good, rfl⟩
        exact Or.inl (whole _ _ gone).1
      · exact Or.inr (Or.inr stands)
  · intro condition p after gone
    obtain ⟨long, buf, good, rfl⟩ := (rxStage_go_iff io).mp gone
    obtain ⟨stands, rfl⟩ := parse_good_iff.mp ⟨buf, good⟩
    have declared :
        declaredLength (stored frame stale s).k = frame.length := by
      rcases condition with same | short | fails
      · exact same
      · omega
      · exact absurd stands fails
    refine ⟨declared, fun stale' => ?_⟩
    have agrees :
        Agrees (frame ++ 0 :: stale') (stored frame stale s).k := by
      intro index inside
      have below : index < frame.length := by
        omega
      exact (peek_append_left below _).trans
        (peek_append_left below _).symm
    obtain ⟨buf', good'⟩ :=
      parse_good_iff.mpr ⟨agrees.stands stands, rfl⟩
    rw [agrees.declaredRcvd] at good'
    refine ⟨_, (rxStage_go_iff io).mpr ⟨long, buf', good', rfl⟩, ?_⟩
    have text := parse_good_text good
    have text' := parse_good_text good'
    rw [agrees.declaredText stands] at text'
    exact text'.trans text.symm

/--
A D packet that lost its last two characters: an earlier packet has left a
character that is taken for its block check.
-/
theorem truncated_packet_accepted :
    declaredLength
          (stored [0x25, 0x20, 0x44, 0x61] [0x4D]
            (freshSys 0)).k = 6 ∧
      ¬ AcceptedWhole (unixio idleOs) [0x25, 0x20, 0x44, 0x61] [0x4D]
          (freshSys 0) := by
  have declared :
      declaredLength
          (stored [0x25, 0x20, 0x44, 0x61] [0x4D] (freshSys 0)).k =
        6 := by
    decide
  refine ⟨declared, fun whole => ?_⟩
  have good :
      parse (stored [0x25, 0x20, 0x44, 0x61] [0x4D] (freshSys 0)).k 4 =
        .good
          { rtyp := 0x44, rseq := 0, pdf := 3, datalen := 2,
            ackText := none }
          [0x25, 0x20, 0x44, 0x61, 0, 0] := by
    decide
  have gone := (rxStage_go_iff (unixio idleOs)).mpr
    ⟨by decide, _, good, rfl⟩
  have same := (whole _ _ gone).1
  rw [declared] at same
  exact absurd same (by decide)

end Slate106.Kermit
