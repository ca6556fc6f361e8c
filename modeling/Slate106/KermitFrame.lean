import Slate106.KermitSent
import Slate106.KermitMain

namespace Slate106.Kermit

open CBytes

/-!
# Packet round trip

What `spkt` builds, `kreadpkt` reads back byte by byte and the parser of
`kermit()` takes apart again: type, sequence number and data are those that
were sent, for the short and for the long header.
-/

variable {ω : Type}

/-! ## The characters of a header -/

/-- A character that is neither a control character nor has the eighth bit. -/
structure Printable
    (c : UInt8) : Prop where
  lower : 32 ≤ c.toNat
  upper : c.toNat < 128

theorem printable_tochar
    {number : Nat}
    (small : number < 96) :
    Printable (tochar (UInt8.ofNat number)) := by
  have value := toNat_tochar (show number < 224 by omega)
  constructor <;> omega

theorem Printable.ne_of_lt
    {c other : UInt8}
    (shown : Printable c)
    (control : other.toNat < 32) :
    c ≠ other := by
  rintro rfl
  exact absurd shown.lower (by omega)

/-- Masking the parity bit does not change a printable character. -/
theorem Printable.masked
    {c : UInt8}
    (shown : Printable c) :
    c &&& 0x7f = c := by
  have lowBits := Nat.and_two_pow_sub_one_eq_mod c.toNat 7
  have upper := shown.upper
  rw [← UInt8.toNat_inj, UInt8.toNat_and]
  simp at lowBits ⊢
  omega

theorem uchar_natCast
    (number : Nat) :
    uchar (number : Int) = UInt8.ofNat number := by
  have reduced : ((number : Int) % 2 ^ 8).toNat = number % 256 := by
    omega
  rw [uchar, UInt8.ofInt, reduced, ← UInt8.toNat_inj]
  simp

/-- The character of a sequence number is read back as that number. -/
theorem toNat_uchar
    {seq : Int}
    (lower : 0 ≤ seq)
    (upper : seq ≤ 63) :
    ((uchar seq).toNat : Int) = seq := by
  obtain ⟨number, rfl⟩ := Int.eq_ofNat_of_zero_le lower
  rw [uchar_natCast]
  simp
  omega

theorem printable_seq
    {seq : Int}
    (lower : 0 ≤ seq)
    (upper : seq ≤ 63) :
    Printable (tochar (uchar seq)) := by
  obtain ⟨number, rfl⟩ := Int.eq_ofNat_of_zero_le lower
  rw [uchar_natCast]
  exact printable_tochar (by omega)

theorem printable_blockCheck
    (bct : Nat)
    (pkt : List UInt8) :
    ∀ c ∈ blockCheck bct pkt, Printable c := by
  intro c member
  have sum := chk1_lt pkt
  have sixBits : ∀ number : Nat, number &&& 63 < 64 := fun _ =>
    Nat.lt_succ_of_le Nat.and_le_right
  have fourBits : ∀ number : Nat, number &&& 15 < 16 := fun _ =>
    Nat.lt_succ_of_le Nat.and_le_right
  unfold blockCheck at member
  split at member <;>
    simp only [List.mem_cons, List.not_mem_nil, or_false] at member
  · subst member
    exact printable_tochar (by omega)
  · rcases member with rfl | rfl
    · exact printable_tochar (by have := sixBits (chk2 pkt >>> 6); omega)
    · exact printable_tochar (by have := sixBits (chk2 pkt); omega)
  · rcases member with rfl | rfl | rfl
    · exact printable_tochar
        (by have := fourBits ((chk3 pkt).toNat >>> 12); omega)
    · exact printable_tochar
        (by have := sixBits ((chk3 pkt).toNat >>> 6); omega)
    · exact printable_tochar (by have := sixBits (chk3 pkt).toNat; omega)

/-- All of a header but its type is printable. -/
theorem printable_pktHeader_or
    {bct len : Nat}
    {typ : UInt8}
    {seq : Int}
    (lower : 0 ≤ seq)
    (upper : seq ≤ 63)
    (inField : len + bct < 95 * 95) :
    ∀ c ∈ pktHeader bct typ seq len, c = typ ∨ Printable c := by
  intro c member
  have seqShown := printable_seq lower upper
  unfold pktHeader at member
  split at member
  · simp only [List.mem_append, List.mem_cons, List.not_mem_nil,
      or_false] at member
    rcases member with (rfl | rfl | rfl | rfl | rfl) | rfl
    · exact Or.inr ⟨by decide, by decide⟩
    · exact Or.inr seqShown
    · exact Or.inl rfl
    · exact Or.inr (printable_tochar (by omega))
    · exact Or.inr (printable_tochar (by omega))
    · have sum := chk1_lt (cstr
        [tochar 0, tochar (uchar seq), typ,
          tochar (UInt8.ofNat ((len + bct) / 95)),
          tochar (UInt8.ofNat ((len + bct) % 95))])
      exact Or.inr (printable_tochar (by omega))
  · simp only [List.mem_cons, List.not_mem_nil, or_false] at member
    rcases member with rfl | rfl | rfl
    · exact Or.inr (printable_tochar (by omega))
    · exact Or.inr seqShown
    · exact Or.inl rfl

theorem printable_pktHeader
    {bct len : Nat}
    {typ : UInt8}
    {seq : Int}
    (letter : Printable typ)
    (lower : 0 ≤ seq)
    (upper : seq ≤ 63)
    (inField : len + bct < 95 * 95) :
    ∀ c ∈ pktHeader bct typ seq len, Printable c := by
  intro c member
  rcases printable_pktHeader_or lower upper inField c member with
    rfl | shown
  · exact letter
  · exact shown

theorem zero_notMem_of_printable
    {text : List UInt8}
    (shown : ∀ c ∈ text, Printable c) :
    (0 : UInt8) ∉ text := by
  intro member
  exact (shown 0 member).ne_of_lt (by decide) rfl

/-! ## The block check -/

theorem length_blockCheck
    {bct : Nat}
    (kind : bct = 1 ∨ bct = 3)
    (pkt : List UInt8) :
    (blockCheck bct pkt).length = bct := by
  rcases kind with rfl | rfl <;> rfl

/-- The length of a frame: header, data, check, start and terminator. -/
theorem length_sentFrame
    {k : KData}
    (kind : inForce k = 1 ∨ inForce k = 3)
    (typ : UInt8)
    (seq : Int)
    (data : List UInt8) :
    (sentFrame typ seq data k).length =
      (pktHeader (inForce k) typ seq data.length).length + data.length +
        inForce k + 2 := by
  have check :=
    length_blockCheck kind
      (cstr (pktHeader (inForce k) typ seq data.length ++ data))
  simp only [sentFrame, pktFrame, pktBody, forceBcta3_bct, check,
    List.length_cons, List.length_append, List.length_nil]

/-- The parser accepts the check characters of the same string. -/
theorem blockOk_blockCheck
    {bct : Nat}
    (kind : bct = 1 ∨ bct = 3)
    (pkt : List UInt8) :
    blockOk bct (blockCheck bct pkt) pkt = true := by
  rcases kind with rfl | rfl
  · have sum := chk1_lt pkt
    simp [blockOk, blockCheck]
    omega
  · have joined := crc_joined (chk3 pkt).toNat_lt
    have sixBits : ∀ number : Nat, number &&& 63 < 64 := fun _ =>
      Nat.lt_succ_of_le Nat.and_le_right
    have fourBits : ∀ number : Nat, number &&& 15 < 16 := fun _ =>
      Nat.lt_succ_of_le Nat.and_le_right
    have first := fourBits ((chk3 pkt).toNat >>> 12)
    have second := sixBits ((chk3 pkt).toNat >>> 6)
    have third := sixBits (chk3 pkt).toNat
    simp only [blockOk, blockCheck, peek_cons_zero, peek_cons_succ,
      xunchar_tochar, UInt8.toNat_ofNat', decide_eq_true_eq]
    rw [Nat.mod_eq_of_lt (by omega), Nat.mod_eq_of_lt (by omega),
      Nat.mod_eq_of_lt (by omega)]
    exact joined

/-- A type 2 check holds sums of twelve bits. -/
theorem blockOk_two_iff
    (pkt : List UInt8) :
    blockOk 2 (blockCheck 2 pkt) pkt = true ↔ chk2 pkt < 4096 := by
  have high : (chk2 pkt >>> 6) &&& 0o77 = chk2 pkt / 64 % 64 := by
    rw [show (0o77 : Nat) = 2 ^ 6 - 1 by rfl,
      Nat.and_two_pow_sub_one_eq_mod, Nat.shiftRight_eq_div_pow]
  have low : chk2 pkt &&& 0o77 = chk2 pkt % 64 := by
    rw [show (0o77 : Nat) = 2 ^ 6 - 1 by rfl,
      Nat.and_two_pow_sub_one_eq_mod]
  have lowFits : chk2 pkt % 64 < 2 ^ 6 := by
    omega
  simp only [blockOk, blockCheck, peek_cons_zero, peek_cons_succ,
    xunchar_tochar, UInt8.toNat_ofNat', decide_eq_true_eq, high, low]
  rw [Nat.mod_eq_of_lt (show chk2 pkt / 64 % 64 < 2 ^ 8 by omega),
    Nat.mod_eq_of_lt (show chk2 pkt % 64 < 2 ^ 8 by omega),
    ← Nat.shiftLeft_add_eq_or_of_lt lowFits]
  simp only [Nat.shiftLeft_eq]
  omega

theorem blockOk_blockCheck_two
    {pkt : List UInt8}
    (small : chk2 pkt < 4096) :
    blockOk 2 (blockCheck 2 pkt) pkt = true :=
  (blockOk_two_iff pkt).mpr small

/-- `parseCheck` on a string that is followed by its own block check. -/
theorem parseCheck_blockCheck
    {bct datalen : Nat}
    {p : Rcvd}
    {checked rest : List UInt8}
    (positive : 0 < bct)
    (length : (blockCheck bct checked).length = bct)
    (accepted : blockOk bct (blockCheck bct checked) checked = true)
    (noZero : (0 : UInt8) ∉ checked)
    (place : p.pdf + datalen = checked.length) :
    ∃ tail,
      parseCheck bct datalen p
          (checked ++ blockCheck bct checked ++ rest) =
        .good p (checked ++ 0 :: tail) := by
  obtain ⟨first, more, split⟩ :
      ∃ first more, blockCheck bct checked = first :: more :=
    List.exists_cons_of_length_pos (by rw [length]; exact positive)
  have stored :
      poke (checked ++ blockCheck bct checked ++ rest)
          (p.pdf + datalen) [0] =
        checked ++ 0 :: (more ++ rest) := by
    rw [place, split]
    simpa using poke_append checked [first] (more ++ rest) [0] rfl
  have check :
      ((checked ++ blockCheck bct checked ++ rest).drop
          (p.pdf + datalen)).takeD bct 0 =
        blockCheck bct checked := by
    rw [place, List.append_assoc, List.drop_left]
    exact List.takeD_left' length
  refine ⟨more ++ rest, ?_⟩
  simp only [parseCheck, stored, check, cstr_append_zero noZero,
    accepted, if_true]

/-! ## Parsing a packet -/

/-- The packets the parser reads whatever the type letter does elsewhere. -/
structure Ordinary
    (typ : UInt8)
    (k : KData) : Prop where
  letter : typ ∈ lit "YNFADZBXRG"
  notInit : k.state ≠ .sInit
  notEot : k.state ≠ .sEot
  noEcho : typ = ch 'Y' ∨ typ = ch 'N' → k.what ≠ .recv

/-- A packet that was read as the given type, number and data. -/
structure ReadAs
    (typ : UInt8)
    (seq : Int)
    (data : List UInt8)
    (p : Rcvd)
    (buf : List UInt8) : Prop where
  rtyp : p.rtyp = typ
  rseq : p.rseq = seq
  datalen : p.datalen = data.length
  text : cstrAt buf p.pdf = data
  memory : (buf.drop p.pdf).take data.length = data

theorem printable_letter
    {typ : UInt8}
    (letter : typ ∈ lit "YNFADZBXRG") :
    Printable typ := by
  have all : ∀ c ∈ lit "YNFADZBXRG", 32 ≤ c.toNat ∧ c.toNat < 128 := by
    decide +kernel
  exact ⟨(all typ letter).1, (all typ letter).2⟩

theorem letter_ne_S
    {typ : UInt8}
    (letter : typ ∈ lit "YNFADZBXRG") :
    typ ≠ ch 'S' := by
  have all : ∀ c ∈ lit "YNFADZBXRG", c ≠ ch 'S' := by
    decide +kernel
  exact all typ letter

/-- The length fields of an ordinary packet are taken as they are. -/
theorem parseLengths_ordinary
    {k : KData}
    {rlen : UInt8}
    {p : Rcvd}
    {buf : List UInt8}
    {len : Nat}
    (notInit : k.state ≠ .sInit)
    (notS : p.rtyp ≠ ch 'S')
    (datalen : p.datalen = len)
    (fits : len + inForce k + 1 < pBuflen) :
    parseLengths k rlen p buf = parseCheck (inForce k) len p buf := by
  have later : ¬ (isInitial k p.rtyp = true) := by
    simp only [isInitial, Bool.or_eq_true, decide_eq_true_eq, not_or]
    exact ⟨notS, notInit⟩
  have inBounds :
      ¬ (p.datalen < 0 ∨ p.datalen + inForce k + 1 ≥ pBuflen) := by
    omega
  have length : p.datalen.toNat = len := by
    omega
  unfold parseLengths
  simp only [chkLength, dataLength, if_neg later]
  rw [← inForce, if_neg inBounds, length]

/-- A body with an ordinary packet in it, behind a header of either form. -/
private theorem parseLengths_body
    {k : KData}
    {rlen typ : UInt8}
    {seq : Int}
    {p : Rcvd}
    {data rest : List UInt8}
    (accepts : Ordinary typ k)
    (lower : 0 ≤ seq)
    (upper : seq ≤ 63)
    (kind : inForce k = 1 ∨ inForce k = 3)
    (fits : data.length + inForce k + 1 < pBuflen)
    (noZero : (0 : UInt8) ∉ data)
    (rtyp : p.rtyp = typ)
    (rseq : p.rseq = seq)
    (datalen : p.datalen = data.length)
    (place :
      p.pdf = (pktHeader (inForce k) typ seq data.length).length) :
    ∃ buf,
      parseLengths k rlen p
          (pktBody (inForce k) typ seq data ++ rest) =
        .good p buf ∧
      ReadAs typ seq data p buf := by
  have inField : data.length + inForce k < 95 * 95 := by
    simp only [pBuflen, pPktlen] at fits
    omega
  have shown :=
    printable_pktHeader (printable_letter accepts.letter) lower upper inField
  have checkedNoZero :
      (0 : UInt8) ∉ pktHeader (inForce k) typ seq data.length ++ data := by
    simp only [List.mem_append, not_or]
    exact ⟨zero_notMem_of_printable shown, noZero⟩
  have notS : p.rtyp ≠ ch 'S' := by
    rw [rtyp]
    exact letter_ne_S accepts.letter
  have dataPlace :
      p.pdf + data.length =
        (pktHeader (inForce k) typ seq data.length ++ data).length := by
    simp [place]
  obtain ⟨tail, parsed⟩ :=
    parseCheck_blockCheck (by omega) (length_blockCheck kind _)
      (blockOk_blockCheck kind _) checkedNoZero dataPlace
  refine ⟨pktHeader (inForce k) typ seq data.length ++ data ++ 0 :: tail, ?_,
    rtyp, rseq, datalen, ?_, ?_⟩
  · rw [parseLengths_ordinary accepts.notInit notS datalen fits, pktBody,
      cstr_of_notMem checkedNoZero]
    exact parsed
  · rw [cstrAt, place, List.append_assoc, List.drop_left]
    exact cstr_append_zero noZero tail
  · rw [place, List.append_assoc, List.drop_left, List.take_left]

/-- The header that `spkt` writes leads the parser to the right lengths. -/
theorem parse_pktHeader
    {k : KData}
    {typ : UInt8}
    {seq len : Int}
    {datalen : Nat}
    {rest : List UInt8}
    (notLast : k.state = .sEot → len ≠ 4)
    (noEcho : ¬ (k.what = .recv ∧ (typ = ch 'N' ∨ typ = ch 'Y')))
    (lower : 0 ≤ seq)
    (upper : seq ≤ 63)
    (small : datalen + inForce k < 95 * 95)
    (typed : typ ≠ 0)
    (buffer :
      k.ipktbuf = pktHeader (inForce k) typ seq datalen ++ rest) :
    ∃ rlen p,
      parse k len = parseLengths k rlen p k.ipktbuf ∧
      p.rtyp = typ ∧ p.rseq = seq ∧ p.datalen = datalen ∧
      p.pdf = (pktHeader (inForce k) typ seq datalen).length := by
  have rseq := toNat_uchar lower upper
  have fold :
      (if k.cfg.bcta3 ≠ 0 then (3 : Int) else k.par.bct) = inForce k := by
    unfold inForce
    split <;> rfl
  have inRange : ¬ (seq < 0 ∨ seq > 63) := by
    omega
  by_cases long : datalen + inForce k + 2 > 94
  · let j := datalen + inForce k
    let hdr :=
      [tochar 0, tochar (uchar seq), typ, tochar (UInt8.ofNat (j / 95)),
        tochar (UInt8.ofNat (j % 95))]
    let sum := tochar (UInt8.ofNat (chk1 (cstr hdr)))
    have header :
        pktHeader (inForce k) typ seq datalen = hdr ++ [sum] := by
      simp only [pktHeader, if_pos long]
      rfl
    have body : k.ipktbuf = hdr ++ sum :: rest := by
      rw [buffer, header]
      simp
    have hdrNoZero : (0 : UInt8) ∉ hdr := by
      have nonzero : ∀ number : Nat, number < 96 →
          tochar (UInt8.ofNat number) ≠ 0 := fun number below =>
        (printable_tochar below).ne_of_lt (by decide)
      have length := nonzero 0 (by omega)
      have number := (printable_seq lower upper).ne_of_lt
        (show (0 : UInt8).toNat < 32 by decide)
      have high := nonzero (j / 95) (by omega)
      have low := nonzero (j % 95) (by omega)
      simp only [hdr, List.mem_cons, List.not_mem_nil, or_false, not_or]
      exact ⟨length.symm, number.symm, typed.symm, high.symm, low.symm⟩
    have cut : poke (hdr ++ sum :: rest) 5 [0] = hdr ++ 0 :: rest :=
      poke_append hdr [sum] rest [0] rfl
    have restored :
        poke (hdr ++ 0 :: rest) 5 [sum] = hdr ++ sum :: rest :=
      poke_append hdr [0] rest [sum] rfl
    have sumValue : (xunchar sum).toNat = chk1 (cstr hdr) := by
      have bounded := chk1_lt (cstr hdr)
      simp [sum]
      omega
    have headerOk : ¬ ((xunchar sum).toNat ≠
        chk1 (cstr (hdr ++ 0 :: rest))) := by
      rw [cstr_append_zero hdrNoZero, sumValue,
        cstr_of_notMem hdrNoZero]
      exact not_not.mpr rfl
    let p : Rcvd :=
      { rtyp := typ, rseq := seq, pdf := 6, datalen := datalen,
        ackText := cancelText k }
    refine ⟨0, p, ?_, rfl, rfl, rfl, by rw [header]; rfl⟩
    have peekSum : peek (hdr ++ sum :: rest) 5 = sum := rfl
    have peekRlen : peek (hdr ++ sum :: rest) 0 = tochar 0 := rfl
    have peekSeq : peek (hdr ++ sum :: rest) 1 = tochar (uchar seq) := rfl
    have peekTyp : peek (hdr ++ sum :: rest) 2 = typ := rfl
    have peekHigh :
        peek (hdr ++ sum :: rest) 3 = tochar (UInt8.ofNat (j / 95)) := rfl
    have peekLow :
        peek (hdr ++ sum :: rest) 4 = tochar (UInt8.ofNat (j % 95)) := rfl
    have lengths :
        ((UInt8.ofNat (j / 95)).toNat : Int) * 95 +
            (UInt8.ofNat (j % 95)).toNat - inForce k =
          datalen := by
      simp
      omega
    unfold parse
    simp only [body, peekRlen, peekSeq, peekTyp, xunchar_tochar, rseq, fold]
    rw [if_neg (fun shortcut => notLast shortcut.1 shortcut.2.1),
      if_neg inRange, if_neg noEcho, if_pos trivial]
    simp only [peekSum, cut]
    rw [if_neg headerOk]
    simp only [peekHigh, peekLow, xunchar_tochar, lengths, restored]
    rfl
  · have header :
        pktHeader (inForce k) typ seq datalen =
          [tochar (UInt8.ofNat (datalen + inForce k + 2)),
            tochar (uchar seq), typ] := by
      simp only [pktHeader, if_neg long]
    have body : k.ipktbuf =
        tochar (UInt8.ofNat (datalen + inForce k + 2)) ::
          tochar (uchar seq) :: typ :: rest := by
      rw [buffer, header]
      rfl
    have rlenValue :
        (UInt8.ofNat (datalen + inForce k + 2)).toNat =
          datalen + inForce k + 2 := by
      simp
      omega
    have rlenNonzero :
        UInt8.ofNat (datalen + inForce k + 2) ≠ 0 := by
      intro zero
      rw [zero] at rlenValue
      simp at rlenValue
    let p : Rcvd :=
      { rtyp := typ, rseq := seq, pdf := 3, datalen := datalen,
        ackText := cancelText k }
    refine ⟨UInt8.ofNat (datalen + inForce k + 2), p, ?_, rfl, rfl, rfl,
      by rw [header]; rfl⟩
    unfold parse
    simp only [body, peek_cons_zero, peek_cons_succ, xunchar_tochar, rseq,
      fold, rlenValue]
    rw [if_neg (fun shortcut => notLast shortcut.1 shortcut.2.1),
      if_neg inRange, if_neg noEcho, if_neg rlenNonzero]
    have lengths :
        ((datalen + inForce k + 2 : Nat) : Int) - inForce k - 2 =
          datalen := by
      omega
    rw [lengths]

/-- The parser reads back what `spkt` put between start and terminator. -/
theorem parse_pktBody
    {k : KData}
    {typ : UInt8}
    {seq len : Int}
    {data rest : List UInt8}
    (accepts : Ordinary typ k)
    (lower : 0 ≤ seq)
    (upper : seq ≤ 63)
    (kind : inForce k = 1 ∨ inForce k = 3)
    (fits : data.length + inForce k + 1 < pBuflen)
    (noZero : (0 : UInt8) ∉ data)
    (buffer :
      k.ipktbuf = pktBody (inForce k) typ seq data ++ rest) :
    ∃ p buf, parse k len = .good p buf ∧ ReadAs typ seq data p buf := by
  have noEcho : ¬ (k.what = .recv ∧ (typ = ch 'N' ∨ typ = ch 'Y')) := by
    rintro ⟨receiving, echo⟩
    exact accepts.noEcho echo.symm receiving
  have small : data.length + inForce k < 95 * 95 := by
    simp only [pBuflen, pPktlen] at fits
    omega
  have typed : typ ≠ 0 :=
    (printable_letter accepts.letter).ne_of_lt (by decide)
  have header :
      k.ipktbuf =
        pktHeader (inForce k) typ seq data.length ++
          (data ++ blockCheck (inForce k)
            (cstr (pktHeader (inForce k) typ seq data.length ++ data)) ++
              rest) := by
    rw [buffer, pktBody]
    simp
  obtain ⟨rlen, p, parsed, rtyp, rseq, datalen, place⟩ :=
    @parse_pktHeader k typ seq len data.length _
      (fun last => absurd last accepts.notEot) noEcho lower upper small
      typed header
  obtain ⟨buf, lengths, same⟩ :=
    @parseLengths_body k rlen typ seq p data rest accepts lower upper kind
      fits noZero rtyp rseq datalen place
  rw [parsed, buffer]
  exact ⟨p, buf, lengths, same⟩

/-! ## Reading a packet from the link -/

/-- A byte as `kreadpkt()` compares it, without the parity bit if any. -/
def unparity
    (p : Params)
    (c : UInt8) : UInt8 :=
  if p.parity ≠ 0 then c &&& 0x7f else c

/--
The polls of `kreadpkt()` while some bytes arrive one after the other, with
pauses in which the timeout does not expire.
-/
inductive Arrives
    (p : Params) : List UInt8 → List Poll → Prop where
  | nil : Arrives p [] []
  | byte
      (c : UInt8)
      (pause : Nat)
      {bytes : List UInt8}
      {polls : List Poll}
      (inTime : p.rTimo = 0 ∨ pause + 1 < 120 * p.rTimo)
      (later : Arrives p bytes polls) :
      Arrives p (c :: bytes)
        (List.replicate pause .empty ++ .byte c :: polls)

/-- Bytes that are all there at once arrive. -/
theorem arrives_bytes
    (p : Params)
    (bytes : List UInt8) :
    Arrives p bytes (bytes.map .byte) := by
  induction bytes with
  | nil =>
      exact .nil
  | cons c bytes inductionHypothesis =>
      have inTime : p.rTimo = 0 ∨ 0 + 1 < 120 * p.rTimo := by
        omega
      exact .byte c 0 inTime inductionHypothesis

/-- The time left at some poll is never exactly used up. -/
def TimeLeft
    (pause : Nat)
    (v : ReadVars) : Prop :=
  v.timeout ≤ 0 ∨ 10 * (pause + 1 : Int) < v.timeout

/-- The variables of `kreadpkt()` without the clock. -/
def ReadVars.at
    (v : ReadVars)
    (timeout : Int)
    (waited : Nat) : ReadVars :=
  { v with timeout := timeout, waited := waited }

theorem countDown_at
    (v : ReadVars) :
    ∃ timeout waited, countDown v = v.at timeout waited := by
  unfold countDown
  split <;> exact ⟨_, _, rfl⟩

theorem timeLeft_countDown
    {pause : Nat}
    {v : ReadVars}
    (enough : TimeLeft (pause + 1) v) :
    (countDown v).timeout ≠ 0 ∧ TimeLeft pause (countDown v) := by
  unfold TimeLeft at enough
  unfold countDown TimeLeft
  split <;> simp only <;> omega

theorem timeLeft_last
    {v : ReadVars}
    (enough : TimeLeft 0 v) :
    (countDown v).timeout ≠ 0 := by
  unfold TimeLeft at enough
  unfold countDown
  split <;> simp only <;> omega

/-- Polls that find nothing only let the clock run. -/
theorem kreadpktFrom_pause
    (p : Params)
    {pause : Nat}
    {v : ReadVars}
    (enough : TimeLeft pause v)
    (rest : List Poll) :
    ∃ timeout waited,
      TimeLeft 0 (v.at timeout waited) ∧
      kreadpktFrom p (List.replicate pause .empty ++ rest) v =
        kreadpktFrom p rest (v.at timeout waited) := by
  induction pause generalizing v with
  | zero =>
      exact ⟨v.timeout, v.waited, enough, rfl⟩
  | succ pause inductionHypothesis =>
      obtain ⟨running, later⟩ := timeLeft_countDown enough
      obtain ⟨timeout, waited, shape⟩ := countDown_at v
      obtain ⟨timeout', waited', last, same⟩ := inductionHypothesis later
      refine ⟨timeout', waited', ?_, ?_⟩
      · rw [shape] at last
        exact last
      · rw [List.replicate_succ, List.cons_append, kreadpktFrom,
          if_pos running, same, shape]
        rfl

/-- The variables of `kreadpkt()` after the start and some bytes of a packet. -/
structure Reading
    (bytes : List UInt8)
    (v : ReadVars) : Prop where
  flag : v.flag = true
  count : v.n = bytes.length
  stored : v.stored = bytes
  begun : 0 < v.i
  start : peek v.cmd 0 = packetStart

private theorem not_command
    {cmd : List UInt8}
    (start : peek cmd 0 = packetStart) :
    ¬ (cstr (cmd.take 5) = lit "CMD\r\n") := by
  intro command
  cases cmd with
  | nil =>
      exact absurd command (by decide)
  | cons first more =>
      have startByte : first = packetStart := start
      subst startByte
      have head :
          cstr (packetStart :: more.take 4) =
            packetStart :: cstr (more.take 4) :=
        List.takeWhile_cons_of_pos (by decide)
      rw [List.take_succ_cons, head] at command
      have firsts := congrArg List.head? command
      rw [List.head?_cons] at firsts
      exact absurd firsts (by decide)

/-- No byte after the first completes the command that ends a session. -/
theorem matchCmd_reading
    {v : ReadVars}
    (c : UInt8)
    (begun : 0 < v.i)
    (start : peek v.cmd 0 = packetStart) :
    (matchCmd c v).1 = false ∧
      0 < (matchCmd c v).2.i ∧
      peek (matchCmd c v).2.cmd 0 = packetStart ∧
      (matchCmd c v).2.flag = v.flag ∧
      (matchCmd c v).2.n = v.n ∧
      (matchCmd c v).2.stored = v.stored := by
  have kept : peek (poke v.cmd v.i [c]) 0 = packetStart := by
    rw [peek_poke_before v.cmd begun]
    exact start
  have noCommand := not_command kept
  unfold matchCmd
  by_cases comp : v.comp = true
  · simp only [comp, if_true]
    split
    · exact ⟨by simpa using noCommand, by simp, kept, rfl, rfl, rfl⟩
    · exact ⟨rfl, by simp, kept, rfl, rfl, rfl⟩
  · simp only [Bool.not_eq_true] at comp
    simp only [comp, Bool.false_eq_true, if_false, and_false]
    exact ⟨trivial, begun, kept, trivial, trivial, trivial⟩

/-- A byte of the body is stored. -/
theorem readByte_body
    {p : Params}
    {bytes : List UInt8}
    {v : ReadVars}
    {c : UInt8}
    (reading : Reading bytes v)
    (room : bytes.length ≤ p.rMaxlen)
    (notStart : unparity p c ≠ p.rSoh)
    (notEnd : unparity p c ≠ p.rEom) :
    ∃ next,
      readByte p c v = .inr next ∧
      next.timeout = readTimeout p ∧
      Reading (bytes ++ [c]) next := by
  obtain ⟨noCommand, begun, start, flag, count, stored⟩ :=
    matchCmd_reading c reading.begun reading.start
  have inside : ¬ ((matchCmd c v).2.n > p.rMaxlen) := by
    rw [count, reading.count]
    omega
  refine
    ⟨{ (matchCmd c v).2 with
        timeout := readTimeout p
        n := (matchCmd c v).2.n + 1
        stored := (matchCmd c v).2.stored ++ [c] }, ?_, rfl, ?_⟩
  · unfold readByte
    rw [← unparity, if_neg (by simp [noCommand]),
      if_neg (by simp [flag, reading.flag]), if_neg notStart,
      if_neg notEnd, if_neg inside]
  · constructor
    · exact flag.trans reading.flag
    · simp [count, reading.count]
    · simp [stored, reading.stored]
    · exact begun
    · exact start

/-- The terminator ends the packet. -/
theorem readByte_end
    {p : Params}
    {bytes : List UInt8}
    {v : ReadVars}
    (reading : Reading bytes v)
    (different : unparity p p.rEom ≠ p.rSoh)
    (plain : unparity p p.rEom = p.rEom) :
    readByte p p.rEom v =
      .inl { ret := bytes.length, stored := bytes ++ [0] } := by
  obtain ⟨noCommand, begun, start, flag, count, stored⟩ :=
    matchCmd_reading p.rEom reading.begun reading.start
  unfold readByte
  rw [← unparity, if_neg (by simp [noCommand]),
    if_neg (by simp [flag, reading.flag]), if_neg different, if_pos plain]
  simp [count, stored, reading.count, reading.stored]

/-- The start of a packet. -/
theorem readByte_start
    {p : Params}
    (start : p.rSoh = packetStart)
    (timeout : Int)
    (waited : Nat) :
    ∃ next,
      readByte p packetStart ((ReadVars.start p).at timeout waited) =
        .inr next ∧
      next.timeout = readTimeout p ∧
      Reading [] next := by
  have seen : unparity p packetStart = packetStart := by
    unfold unparity
    split <;> rfl
  refine
    ⟨{ timeout := readTimeout p, cmd := [packetStart, 0, 0, 0, 0], i := 1,
       comp := true, flag := true, n := 0, stored := [],
       waited := waited }, ?_, rfl, ?_⟩
  · unfold readByte
    rw [← unparity, seen, start]
    rfl
  · exact ⟨rfl, rfl, rfl, Nat.one_pos, rfl⟩

/-- A byte that arrives in time is what `kreadpkt()` takes from the link. -/
theorem kreadpktFrom_arrival
    {p : Params}
    {pause : Nat}
    {v : ReadVars}
    (timeout : v.timeout = readTimeout p)
    (inTime : p.rTimo = 0 ∨ pause + 1 < 120 * p.rTimo)
    (c : UInt8)
    (polls : List Poll) :
    ∃ timeout waited,
      kreadpktFrom p (List.replicate pause .empty ++ .byte c :: polls) v =
        match readByte p c (v.at timeout waited) with
        | .inl rx => some (rx, polls)
        | .inr next => kreadpktFrom p polls next := by
  have enough : TimeLeft pause v := by
    unfold TimeLeft
    rw [timeout, readTimeout]
    omega
  obtain ⟨timeout, waited, last, same⟩ :=
    kreadpktFrom_pause p enough (.byte c :: polls)
  obtain ⟨timeout', waited', shape⟩ := countDown_at (v.at timeout waited)
  refine ⟨timeout', waited', ?_⟩
  rw [same, kreadpktFrom, if_neg (timeLeft_last last), shape]
  rfl

/-- The bytes of a body and their terminator, each after its pause. -/
theorem kreadpktFrom_body
    {p : Params}
    (start : p.rSoh = packetStart)
    (terminator : p.rEom = packetEnd)
    (tail : List Poll)
    {more bytes : List UInt8}
    {polls : List Poll}
    {v : ReadVars}
    (arrives : Arrives p (more ++ [packetEnd]) polls)
    (timeout : v.timeout = readTimeout p)
    (reading : Reading bytes v)
    (room : bytes.length + more.length ≤ p.rMaxlen)
    (plain :
      ∀ c ∈ more, unparity p c ≠ packetStart ∧ unparity p c ≠ packetEnd) :
    kreadpktFrom p (polls ++ tail) v =
      some ({ ret := (bytes ++ more).length,
              stored := bytes ++ more ++ [0] }, tail) := by
  induction more generalizing bytes polls v with
  | nil =>
      cases arrives with
      | byte c pause inTime later =>
          cases later
          obtain ⟨time, waited, taken⟩ :=
            kreadpktFrom_arrival timeout inTime packetEnd tail
          have ended : unparity p p.rEom = p.rEom := by
            rw [terminator]
            unfold unparity
            split <;> rfl
          have different : unparity p p.rEom ≠ p.rSoh := by
            rw [ended, terminator, start]
            decide
          have sameReading : Reading bytes (v.at time waited) :=
            ⟨reading.flag, reading.count, reading.stored, reading.begun,
              reading.start⟩
          have done := readByte_end sameReading different ended
          rw [terminator] at done
          rw [List.append_assoc, List.cons_append, List.nil_append, taken,
            done]
          simp
  | cons c more inductionHypothesis =>
      cases arrives with
      | byte c pause inTime later =>
          rename_i laterPolls
          obtain ⟨time, waited, taken⟩ :=
            kreadpktFrom_arrival timeout inTime c (laterPolls ++ tail)
          have sameReading : Reading bytes (v.at time waited) :=
            ⟨reading.flag, reading.count, reading.stored, reading.begun,
              reading.start⟩
          have cPlain := plain c (List.mem_cons_self ..)
          rw [List.length_cons] at room
          obtain ⟨next, stored, nextTimeout, nextReading⟩ :=
            readByte_body (p := p) (c := c) sameReading (by omega)
              (by rw [start]; exact cPlain.1)
              (by rw [terminator]; exact cPlain.2)
          have rest :=
            inductionHypothesis later nextTimeout nextReading
              (by simp; omega)
              (fun d member => plain d (List.mem_cons_of_mem c member))
          rw [List.append_assoc, List.cons_append, taken, stored]
          simpa using rest

/-- `kreadpkt()` returns what stands between the start and the terminator. -/
theorem kreadpkt_frame
    {p : Params}
    (start : p.rSoh = packetStart)
    (terminator : p.rEom = packetEnd)
    {body : List UInt8}
    {polls : List Poll}
    (arrives : Arrives p (packetStart :: (body ++ [packetEnd])) polls)
    (room : body.length ≤ p.rMaxlen)
    (plain :
      ∀ c ∈ body, unparity p c ≠ packetStart ∧ unparity p c ≠ packetEnd)
    (tail : List Poll) :
    kreadpkt p (polls ++ tail) =
      some ({ ret := body.length, stored := body ++ [0] }, tail) := by
  cases arrives with
  | byte c pause inTime later =>
      rename_i laterPolls
      obtain ⟨time, waited, taken⟩ :=
        kreadpktFrom_arrival (v := ReadVars.start p) rfl inTime packetStart
          (laterPolls ++ tail)
      obtain ⟨next, started, nextTimeout, reading⟩ :=
        readByte_start start time waited
      have rest :=
        kreadpktFrom_body start terminator tail later nextTimeout reading
          (by simpa using room) plain
      rw [kreadpkt, List.append_assoc, List.cons_append, taken, started]
      simpa using rest

/-! ## The round trip -/

/--
Whenever the frame arrives at `r`, it is read and parsed as the packet of the
given type, number and data.
-/
def ReadBack
    (typ : UInt8)
    (seq : Int)
    (data frame : List UInt8)
    (r : Sys ω) : Prop :=
  ∀ polls tail, Arrives r.k.par frame polls →
    ∃ rx, kreadpkt r.k.par (polls ++ tail) = some (rx, tail) ∧
      ∃ p buf, parse (receive rx r).k rx.ret = .good p buf ∧
        ReadAs typ seq data p buf

/-- The data as the link compares it is neither a start nor a terminator. -/
def Unmistakable
    (p : Params)
    (data : List UInt8) : Prop :=
  p.parity = 0 ∨
    ∀ c ∈ data, c &&& 0x7f ≠ packetStart ∧ c &&& 0x7f ≠ packetEnd

/-- No byte between start and terminator is taken for one of them. -/
theorem plain_pktBody_of
    {p : Params}
    {bct : Nat}
    {typ : UInt8}
    {seq : Int}
    {data : List UInt8}
    (lower : 0 ≤ seq)
    (upper : seq ≤ 63)
    (inField : data.length + bct < 95 * 95)
    (noStart : packetStart ∉ typ :: data)
    (noEnd : packetEnd ∉ typ :: data)
    (seen : Unmistakable p (typ :: data)) :
    ∀ c ∈ pktBody bct typ seq data,
      unparity p c ≠ packetStart ∧ unparity p c ≠ packetEnd := by
  have shownPlain :
      ∀ c, Printable c →
        unparity p c ≠ packetStart ∧ unparity p c ≠ packetEnd := by
    intro c shown
    have same : unparity p c = c := by
      unfold unparity
      rw [shown.masked]
      split <;> rfl
    rw [same]
    exact ⟨shown.ne_of_lt (by decide), shown.ne_of_lt (by decide)⟩
  have carried :
      ∀ c ∈ typ :: data,
        unparity p c ≠ packetStart ∧ unparity p c ≠ packetEnd := by
    intro c inData
    have different : c ≠ packetStart ∧ c ≠ packetEnd := by
      constructor
      · rintro rfl
        exact noStart inData
      · rintro rfl
        exact noEnd inData
    unfold unparity
    rcases seen with off | masked
    · rw [if_neg (by simp [off])]
      exact different
    · split
      · exact masked c inData
      · exact different
  intro c member
  simp only [pktBody, List.mem_append] at member
  rcases member with (inHeader | inData) | inCheck
  · rcases printable_pktHeader_or lower upper inField c inHeader with
      rfl | shown
    · exact carried c (List.mem_cons_self ..)
    · exact shownPlain c shown
  · exact carried c (List.mem_cons_of_mem typ inData)
  · exact shownPlain c (printable_blockCheck bct _ c inCheck)

private theorem plain_pktBody
    {p : Params}
    {bct : Nat}
    {typ : UInt8}
    {seq : Int}
    {data : List UInt8}
    (letter : Printable typ)
    (lower : 0 ≤ seq)
    (upper : seq ≤ 63)
    (inField : data.length + bct < 95 * 95)
    (noStart : packetStart ∉ data)
    (noEnd : packetEnd ∉ data)
    (seen : Unmistakable p data) :
    ∀ c ∈ pktBody bct typ seq data,
      unparity p c ≠ packetStart ∧ unparity p c ≠ packetEnd := by
  have typPlain : typ ≠ packetStart ∧ typ ≠ packetEnd :=
    ⟨letter.ne_of_lt (by decide), letter.ne_of_lt (by decide)⟩
  refine plain_pktBody_of lower upper inField ?_ ?_ ?_
  · simp only [List.mem_cons, not_or]
    exact ⟨typPlain.1.symm, noStart⟩
  · simp only [List.mem_cons, not_or]
    exact ⟨typPlain.2.symm, noEnd⟩
  · rcases seen with off | masked
    · exact Or.inl off
    · refine Or.inr fun c member => ?_
      rcases List.mem_cons.mp member with rfl | inData
      · rw [letter.masked]
        exact typPlain
      · exact masked c inData

/-- A packet of `k` that `r` can read. -/
structure Readable
    (typ : UInt8)
    (seq : Int)
    (data : List UInt8)
    (k : KData)
    (r : Sys ω) : Prop where
  accepts : Ordinary typ r.k
  lower : 0 ≤ seq
  upper : seq ≤ 63
  kind : inForce k = 1 ∨ inForce k = 3
  sameKind : inForce r.k = inForce k
  fits : data.length + inForce k + 1 < pBuflen
  noZero : (0 : UInt8) ∉ data
  noStart : packetStart ∉ data
  noEnd : packetEnd ∉ data
  seen : Unmistakable r.k.par data
  startSent : (forceBcta3 k).par.sSoh = packetStart
  endSent : (forceBcta3 k).par.sEom = packetEnd
  startRead : r.k.par.rSoh = packetStart
  endRead : r.k.par.rEom = packetEnd
  room : (pktBody (inForce k) typ seq data).length ≤ r.k.par.rMaxlen

/-- What `kreadpkt()` returns for the frame of a packet. -/
def bodyRx
    (typ : UInt8)
    (seq : Int)
    (data : List UInt8)
    (k : KData) : Rx where
  ret := (pktBody (inForce k) typ seq data).length
  stored := pktBody (inForce k) typ seq data ++ [0]

/-- The frame of an ordinary packet is read. -/
theorem Readable.arrives
    {typ : UInt8}
    {seq : Int}
    {data : List UInt8}
    {k : KData}
    {r : Sys ω}
    (readable : Readable typ seq data k r)
    {polls : List Poll}
    (arrives : Arrives r.k.par (sentFrame typ seq data k) polls)
    (tail : List Poll) :
    kreadpkt r.k.par (polls ++ tail) =
      some (bodyRx typ seq data k, tail) := by
  have fits := readable.fits
  have inField : data.length + inForce k < 95 * 95 := by
    simp only [pBuflen, pPktlen] at fits
    omega
  have frame :
      sentFrame typ seq data k =
        packetStart :: (pktBody (inForce k) typ seq data ++ [packetEnd]) := by
    rw [sentFrame, pktFrame, readable.startSent, readable.endSent,
      forceBcta3_bct]
  rw [frame] at arrives
  exact kreadpkt_frame readable.startRead readable.endRead arrives
    readable.room
    (plain_pktBody (printable_letter readable.accepts.letter) readable.lower
      readable.upper inField readable.noStart readable.noEnd readable.seen)
    tail

/-- The frame of an ordinary packet is parsed as that packet. -/
theorem Readable.parsed
    {typ : UInt8}
    {seq : Int}
    {data : List UInt8}
    {k : KData}
    {r : Sys ω}
    (readable : Readable typ seq data k r) :
    ∃ p buf,
      parse (receive (bodyRx typ seq data k) r).k (bodyRx typ seq data k).ret =
        .good p buf ∧
      ReadAs typ seq data p buf := by
  have same : inForce (receive (bodyRx typ seq data k) r).k = inForce k :=
    readable.sameKind
  have buffer :
      (receive (bodyRx typ seq data k) r).k.ipktbuf =
        pktBody (inForce (receive (bodyRx typ seq data k) r).k) typ seq data ++
          0 :: r.k.ipktbuf.drop (bodyRx typ seq data k).stored.length := by
    rw [same]
    simp [receive, bodyRx]
  have accepts := readable.accepts
  have stillAccepts :
      Ordinary typ (receive (bodyRx typ seq data k) r).k :=
    ⟨accepts.letter, accepts.notInit, accepts.notEot, accepts.noEcho⟩
  exact parse_pktBody stillAccepts readable.lower readable.upper
    (by rw [same]; exact readable.kind) (by rw [same]; exact readable.fits)
    readable.noZero buffer

/-- The frame of an ordinary packet is read back as that packet. -/
theorem Readable.readBack
    {typ : UInt8}
    {seq : Int}
    {data : List UInt8}
    {k : KData}
    {r : Sys ω}
    (readable : Readable typ seq data k r) :
    ReadBack typ seq data (sentFrame typ seq data k) r :=
  fun _ tail arrives =>
    ⟨_, readable.arrives arrives tail, readable.parsed⟩

/--
Packet round trip: what `spkt` transmits for an ordinary packet is read back
by `kreadpkt` and the parser as that packet.
-/
theorem spkt_round_trip
    (io : Io ω)
    (s r : Sys ω)
    (typ : UInt8)
    (seq len : Int)
    (text : Option (List UInt8))
    (lower : 0 ≤ seq)
    (upper : seq ≤ 63)
    (noZero : (0 : UInt8) ∉ spktData len text)
    (noStart : packetStart ∉ spktData len text)
    (noEnd : packetEnd ∉ spktData len text)
    (kind : inForce s.k = 1 ∨ inForce s.k = 3)
    (sameKind : inForce r.k = inForce s.k)
    (free : 0 ≤ (getSslot s.k).1)
    (fits :
      (sentFrame typ seq (spktData len text) s.k).length < spktBuflen typ)
    (room :
      (pktBody (inForce s.k) typ seq (spktData len text)).length ≤
        r.k.par.rMaxlen)
    (startSent : s.k.par.sSoh = packetStart)
    (endSent : s.k.par.sEom = packetEnd)
    (startRead : r.k.par.rSoh = packetStart)
    (endRead : r.k.par.rEom = packetEnd)
    (accepts : Ordinary typ r.k)
    (seen : Unmistakable r.k.par (spktData len text)) :
    ∃ frame rc,
      (spkt io typ seq len text s).2.log = .txd frame rc :: s.log ∧
      ReadBack typ seq (spktData len text) frame r := by
  have buflen : spktBuflen typ ≤ pBuflen := by
    unfold spktBuflen
    split <;> decide
  have length :
      (spktData len text).length + inForce s.k + 1 < pBuflen := by
    have whole := length_sentFrame kind typ seq (spktData len text)
    omega
  have startForced : (forceBcta3 s.k).par.sSoh = packetStart := by
    rw [forceBcta3_eq]
    exact startSent
  have endForced : (forceBcta3 s.k).par.sEom = packetEnd := by
    rw [forceBcta3_eq]
    exact endSent
  have readable : Readable typ seq (spktData len text) s.k r :=
    ⟨accepts, lower, upper, kind, sameKind, length, noZero, noStart, noEnd,
      seen, startForced, endForced, startRead, endRead, room⟩
  have back := readable.readBack
  by_cases kept : isUnslotted typ = true
  · have small :
        (sentFrame typ seq (spktData len text) s.k).length < 100 := by
      simpa [spktBuflen, kept] using fits
    rw [spkt_unslotted io kept lower upper small]
    exact ⟨_, _, rfl, back⟩
  · simp only [Bool.not_eq_true] at kept
    have small :
        (sentFrame typ seq (spktData len text) s.k).length < pBuflen := by
      simpa [spktBuflen, kept] using fits
    rw [spkt_slotted io kept lower upper free small]
    exact ⟨_, _, rfl, back⟩

/-- A session after `K_REINIT`, with the given parity. -/
def freshSys
    (parity : Int) : Sys (Unix Unit) where
  k :=
    let k := reinitData (kermitInit (clearedData []))
    { k with par.parity := parity }
  r := clearedResponse
  w := { os := (), ofile := -1, ifile := false, calls := [] }
  log := []

theorem spkt_round_trip_data :
    ∃ frame rc,
      (spkt (unixio idleOs) (ch 'D') 5 3 (some (lit "abc"))
          (freshSys 0)).2.log =
        .txd frame rc :: (freshSys 0).log ∧
      ReadBack (ch 'D') 5 (spktData 3 (some (lit "abc"))) frame
        (freshSys 0) :=
  spkt_round_trip (unixio idleOs) (freshSys 0) (freshSys 0) (ch 'D') 5 3
    (some (lit "abc")) (by decide) (by decide) (by decide) (by decide)
    (by decide) (by decide) (by decide) (by decide) (by decide) (by decide)
    rfl rfl rfl rfl ⟨by decide, by decide, by decide, by decide⟩
    (Or.inl rfl)

/--
With the parity bit masked, the data byte `0x93` is taken for the start of a
packet and the frame fails its block check.
-/
theorem parity_breaks_round_trip :
    (0 : UInt8) ∉ spktData 1 (some [0x93]) ∧
      packetStart ∉ spktData 1 (some [0x93]) ∧
      packetEnd ∉ spktData 1 (some [0x93]) ∧
      inForce (freshSys 0).k = 1 ∧
      inForce (freshSys 1).k = 1 ∧
      0 ≤ (getSslot (freshSys 0).k).1 ∧
      (sentFrame (ch 'D') 0 [0x93] (freshSys 0).k).length <
        spktBuflen (ch 'D') ∧
      (pktBody 1 (ch 'D') 0 [0x93]).length ≤ (freshSys 1).k.par.rMaxlen ∧
      (freshSys 0).k.par.sSoh = (freshSys 1).k.par.rSoh ∧
      (freshSys 0).k.par.sEom = (freshSys 1).k.par.rEom ∧
      Ordinary (ch 'D') (freshSys 1).k ∧
      (spkt (unixio idleOs) (ch 'D') 0 1 (some [0x93])
          (freshSys 0)).2.log =
        [.txd (sentFrame (ch 'D') 0 [0x93] (freshSys 0).k) 0] ∧
      ¬ ReadBack (ch 'D') 0 [0x93]
        (sentFrame (ch 'D') 0 [0x93] (freshSys 0).k) (freshSys 1) := by
  refine ⟨by decide, by decide, by decide, rfl, rfl, by decide, by decide,
    by decide, rfl, rfl, ⟨by decide, by decide, by decide, by decide⟩,
    by decide, ?_⟩
  intro readBack
  let frame := sentFrame (ch 'D') 0 [0x93] (freshSys 0).k
  obtain ⟨rx, read, p, buf, parsed, same⟩ :=
    readBack (frame.map .byte) [] (arrives_bytes _ frame)
  have readShort :
      kreadpkt (freshSys 1).k.par (frame.map .byte ++ []) =
        some ({ ret := 4, stored := [0x24, 0x20, 0x44, 0x3B, 0] }, []) := by
    decide
  rw [readShort] at read
  obtain ⟨rfl, -⟩ := Prod.mk.inj (Option.some.inj read)
  have failed :
      parse (receive { ret := 4, stored := [0x24, 0x20, 0x44, 0x3B, 0] }
          (freshSys 1)).k 4 =
        .badCheck [0x24, 0x20, 0x44, 0x3B, 0] := by
    decide
  rw [failed] at parsed
  cases parsed

end Slate106.Kermit
