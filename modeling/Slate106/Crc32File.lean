import Mathlib.Algebra.Group.Nat.Defs
import Mathlib.Algebra.Group.Int.Defs
import Slate106.BitCrc
import Slate106.KermitUnixio

namespace Slate106.Crc32

open BitCrc

/-!
# The CRC of a file

`libcrc32_file.c` for `CRCF_LIBC` and `CRCF_SOFT`, on an ordinary file of a
little-endian host with 32 bits.  The model of the file carries the bounds that
`long` sets to its size and its position.
-/

/-! ## Ordinary files -/

/-- A stream of the standard library on an ordinary file. -/
structure CrcfFile where
  content : List UInt8
  pos : Nat
  size_lt : content.length < 2 ^ 31
  pos_lt : pos < 2 ^ 31
  deriving Repr, DecidableEq

/-- `ftell()`. -/
def ftell
    (file : CrcfFile) : Int :=
  file.pos

/-- `fseek()` from a base: its result and the file. -/
def fseek
    (file : CrcfFile)
    (offset : Int)
    (base : Nat) : Int × CrcfFile :=
  if inside : 0 ≤ base + offset ∧ base + offset < 2 ^ 31 then
    (0, { file with pos := (base + offset).toNat, pos_lt := by omega })
  else (-1, file)

/-- `fread()` of single bytes: the bytes read and the file. -/
def fread
    (file : CrcfFile)
    (size : UInt32) : List UInt8 × CrcfFile :=
  let bytes := (file.content.drop file.pos).take size.toNat
  (bytes,
    { file with
      pos := file.pos + bytes.length
      pos_lt := by
        have size_lt := file.size_lt
        have pos_lt := file.pos_lt
        simp only [bytes, List.length_take, List.length_drop]
        omega })

/-! ## The functions of `libcrc32_file.c` -/

abbrev enoent : UInt8 := 2

abbrev eio : UInt8 := 5

abbrev einval : UInt8 := 22

abbrev frOk : UInt8 := 0

/-- `CRCF_fsize()`. -/
def crcfFsize
    (file : CrcfFile) : UInt32 × CrcfFile :=
  let pos := ftell file
  if pos = -1 then (0, file)
  else
    let sought := fseek file 0 file.content.length
    if sought.1 ≠ 0 then (0, sought.2)
    else
      let last := ftell sought.2
      if last = -1 then (0, sought.2)
      else
        let back := fseek sought.2 pos 0
        -- a failure of the last fseek only matters where pos is -1
        if back.1 ≠ 0 ∧ pos = -1 then (0, back.2)
        else (UInt32.ofNat last.toNat, back.2)

/-- `CRCF_fread()`: its result, the bytes read and the file. -/
def crcfFread
    (file : CrcfFile)
    (size : UInt32) : UInt8 × List UInt8 × CrcfFile :=
  (frOk, fread file size)

/-- `CRCF_fseek()`. -/
def crcfFseek
    (file : CrcfFile)
    (ofs : UInt32) : UInt8 × CrcfFile :=
  let sought := fseek file ofs.toNat 0
  (if sought.1 = 0 then frOk else 1, sought.2)

/-- A word in the memory of a little-endian host. -/
def word
    (byte0 byte1 byte2 byte3 : UInt8) : BitVec 32 :=
  byte3.toBitVec ++ byte2.toBitVec ++ byte1.toBitVec ++ byte0.toBitVec

/-- A byte of a word in memory. -/
def byteAt
    (cache : UInt32)
    (i : Nat) : UInt8 :=
  UInt8.ofNat (cache.toNat / 256 ^ i)

/-- `cache` after bytes have been read to its address. -/
def overwrite
    (cache : UInt32)
    (bytes : List UInt8) : UInt32 :=
  ⟨word (bytes.getD 0 (byteAt cache 0)) (bytes.getD 1 (byteAt cache 1))
    (bytes.getD 2 (byteAt cache 2)) (bytes.getD 3 (byteAt cache 3))⟩

/-- Nibble lookup table for 0x04C11DB7 polynomial. -/
def crcTable : List UInt32 :=
  [0x00000000, 0x04C11DB7, 0x09823B6E, 0x0D4326D9, 0x130476DC, 0x17C56B6B,
    0x1A864DB2, 0x1E475005, 0x2608EDB8, 0x22C9F00F, 0x2F8AD6D6, 0x2B4BCB61,
    0x350C9B64, 0x31CD86D3, 0x3C8EA00A, 0x384FBDBD]

/-- A round of `Crc32Fast()`. -/
def crc32Nibble
    (crc : UInt32) : UInt32 :=
  (crc <<< 4) ^^^ crcTable.getD (crc >>> 28).toNat 0

/-- `Crc32Fast()`. -/
def crc32Fast
    (crc data : UInt32) : UInt32 :=
  let crc := crc ^^^ data
  let crc := crc32Nibble crc
  let crc := crc32Nibble crc
  let crc := crc32Nibble crc
  let crc := crc32Nibble crc
  let crc := crc32Nibble crc
  let crc := crc32Nibble crc
  let crc := crc32Nibble crc
  crc32Nibble crc

/-- The variables of `CRCF_calc_crc_soft()` that its loop changes. -/
structure CrcVars where
  file : CrcfFile
  cache : UInt32
  crc : UInt32
  deriving Repr, DecidableEq

/-- The loop of `CRCF_calc_crc_soft()` over the whole words. -/
def calcWords : Nat → CrcVars → UInt8 × CrcVars
  | 0, v => (0, v)
  | n + 1, v =>
      let read := crcfFread v.file 4
      let v := { v with file := read.2.2, cache := overwrite v.cache read.2.1 }
      if read.1 ≠ frOk then (read.1, v)
      else if read.2.1.length ≠ 4 then (eio, v)
      else calcWords n { v with crc := crc32Fast v.crc v.cache }

/-- The last bytes of `CRCF_calc_crc_soft()`. -/
def calcLast
    (fsize : UInt32)
    (v : CrcVars) : UInt8 × CrcVars :=
  if fsize % 4 ≠ 0 then
    let read := crcfFread v.file (fsize % 4)
    let v := { v with file := read.2.2, cache := overwrite v.cache read.2.1 }
    if read.1 ≠ frOk then (read.1, v)
    else if read.2.1.length ≠ (fsize % 4).toNat then (eio, v)
    else
      -- shift data to the MSB, fill the LSB(s) with 0xff
      let cache := v.cache <<< (8 * (4 - fsize % 4))
      let cache := cache ||| (0xffffffff >>> (8 * (fsize % 4)))
      (0, { v with cache := cache, crc := crc32Fast v.crc cache })
  else (0, v)

/-- `CRCF_calc_crc_soft()`: its result and `*crc`. -/
def crcfCalcCrcSoft
    (file : CrcfFile)
    (start length crc : UInt32) : UInt8 × UInt32 :=
  let size := crcfFsize file
  let ffsize := size.1
  if ffsize = 0 then (enoent, crc)
  else if start ≥ ffsize ∨ length > ffsize ∨ start % 4 ≠ 0 then (einval, crc)
  else
    let crc := 0xffffffff
    let sought := crcfFseek size.2 start
    if sought.1 ≠ frOk then (sought.1, crc)
    else
      let fsize := if length ≠ 0 then length else ffsize - start
      let words :=
        calcWords (fsize >>> 2).toNat
          { file := sought.2, cache := 0, crc := crc }
      if words.1 ≠ 0 then (words.1, words.2.crc)
      else
        let last := calcLast fsize words.2
        (last.1, last.2.crc)

/-- `CRCF_calc_crc()`. -/
def crcfCalcCrc
    (file : CrcfFile)
    (start length crc : UInt32) : UInt8 × UInt32 :=
  crcfCalcCrcSoft file start length crc

/-! ## The reference -/

/-- The polynomial of the STM32. -/
abbrev poly : BitVec 32 := 0x04C11DB7#32

/--
Bytes as little-endian words.  A last group of one to three bytes is placed in
the most significant bytes, and the rest is filled with ones.
-/
def words : List UInt8 → List (BitVec 32)
  | byte0 :: byte1 :: byte2 :: byte3 :: rest =>
      word byte0 byte1 byte2 byte3 :: words rest
  | [byte0, byte1, byte2] => [word 0xFF byte0 byte1 byte2]
  | [byte0, byte1] => [word 0xFF 0xFF byte0 byte1]
  | [byte0] => [word 0xFF 0xFF 0xFF byte0]
  | [] => []

/-- The stream of bits, the most significant bit of each word first. -/
def stream
    (bytes : List UInt8) : List Bool :=
  (words bytes).flatMap bitsOf

/-- The CRC of the STM32, bit by bit. -/
def reference
    (bytes : List UInt8) : BitVec 32 :=
  feed poly 0xFFFFFFFF#32 (stream bytes)

/-! ## The table -/

theorem crcTable_shiftn :
    ∀ i : Fin 16, (crcTable.getD i 0).toBitVec =
      shiftn poly 4 (BitVec.ofNat 32 i <<< 28) := by
  decide

/-- An entry of the table stands for four steps of the register. -/
theorem crc32Nibble_toBitVec
    (crc : UInt32) :
    (crc32Nibble crc).toBitVec = shiftn poly 4 crc.toBitVec := by
  have quotient : (crc >>> 28).toNat = crc.toNat / 2 ^ 28 := by
    simp [Nat.shiftRight_eq_div_pow]
  have top : (crc >>> 28).toNat < 16 := by
    have bound := crc.toNat_lt
    omega
  have entry := crcTable_shiftn ⟨(crc >>> 28).toNat, top⟩
  have index : BitVec.ofNat 32 (crc >>> 28).toNat = crc.toBitVec >>> 28 := by
    refine BitVec.eq_of_toNat_eq ?_
    rw [BitVec.toNat_ofNat, quotient, BitVec.toNat_ushiftRight,
      Nat.shiftRight_eq_div_pow, UInt32.toNat_toBitVec]
    exact Nat.mod_eq_of_lt (by omega)
  dsimp only at entry
  rw [index] at entry
  rw [shiftn_eq_table poly crc.toBitVec (n := 4) (by decide), ← entry]
  simp [crc32Nibble]

/-- `Crc32Fast()` takes the bits of a word, the most significant first. -/
theorem crc32Fast_toBitVec
    (crc data : UInt32) :
    (crc32Fast crc data).toBitVec =
      feed poly crc.toBitVec (bitsOf data.toBitVec) := by
  rw [feed_bitsOf]
  simp only [crc32Fast, crc32Nibble_toBitVec, ← shiftn_add]
  simp

/-! ## The last word -/

theorem getLsbD_word
    (byte0 byte1 byte2 byte3 : UInt8)
    (i : Nat) :
    (word byte0 byte1 byte2 byte3).getLsbD i =
      if i < 8 then byte0.toBitVec.getLsbD i
      else if i < 16 then byte1.toBitVec.getLsbD (i - 8)
      else if i < 24 then byte2.toBitVec.getLsbD (i - 16)
      else byte3.toBitVec.getLsbD (i - 24) := by
  simp only [word, BitVec.getLsbD_append]
  grind

theorem getLsbD_ones
    (i : Nat) :
    (0xFF : UInt8).toBitVec.getLsbD i = decide (i < 8) :=
  BitVec.getLsbD_allOnes (v := 8)

/-- The last bytes move to the front and ones fill the rest. -/
theorem last_word
    (byte0 byte1 byte2 byte3 : UInt8) :
    word byte0 byte1 byte2 byte3 <<< 24 ||| BitVec.allOnes 32 >>> 8 =
        word 0xFF 0xFF 0xFF byte0 ∧
      word byte0 byte1 byte2 byte3 <<< 16 ||| BitVec.allOnes 32 >>> 16 =
        word 0xFF 0xFF byte0 byte1 ∧
      word byte0 byte1 byte2 byte3 <<< 8 ||| BitVec.allOnes 32 >>> 24 =
        word 0xFF byte0 byte1 byte2 := by
  refine ⟨?_, ?_, ?_⟩ <;> refine BitVec.eq_of_getLsbD_eq fun i inside => ?_
  all_goals
    simp only [BitVec.getLsbD_or, BitVec.getLsbD_shiftLeft,
      BitVec.getLsbD_ushiftRight, BitVec.getLsbD_allOnes, getLsbD_word,
      getLsbD_ones]
    grind

/-! ## The stream of a file -/

@[simp] theorem stream_nil :
    stream [] = [] := rfl

theorem stream_cons
    (byte0 byte1 byte2 byte3 : UInt8)
    (rest : List UInt8) :
    stream (byte0 :: byte1 :: byte2 :: byte3 :: rest) =
      bitsOf (word byte0 byte1 byte2 byte3) ++ stream rest := by
  simp [stream, words]

/-- Whole words in front of other bytes. -/
theorem stream_append
    (n : Nat)
    {front : List UInt8}
    (whole : front.length = 4 * n)
    (back : List UInt8) :
    stream (front ++ back) = stream front ++ stream back := by
  induction n generalizing front with
  | zero =>
      obtain rfl := List.length_eq_zero_iff.mp whole
      rfl
  | succ n inductionHypothesis =>
      match front, whole with
      | byte0 :: byte1 :: byte2 :: byte3 :: rest, whole =>
          have shorter : rest.length = 4 * n := by
            simp only [List.length_cons] at whole
            omega
          simp only [List.cons_append, stream_cons, List.append_assoc,
            inductionHypothesis shorter]

/-! ## The loop over the words -/

/-- The bytes between the position and the end of a file. -/
def unread
    (file : CrcfFile) : List UInt8 :=
  file.content.drop file.pos

/-- What is left of a file after bytes of it have been read. -/
theorem unread_fread
    (file : CrcfFile)
    (size : UInt32) :
    unread (fread file size).2 = (unread file).drop size.toNat := by
  show file.content.drop
      (file.pos + ((file.content.drop file.pos).take size.toNat).length) = _
  rw [unread, ← List.drop_drop]
  by_cases enough : size.toNat ≤ (file.content.drop file.pos).length
  · rw [List.length_take, Nat.min_eq_left enough]
  · rw [List.length_take, Nat.min_eq_right (by omega), List.drop_length,
      List.drop_eq_nil_of_le (by omega)]

/-- Enough bytes: the register takes the bits of whole words. -/
theorem calcWords_enough
    (n : Nat)
    (v : CrcVars)
    (enough : 4 * n ≤ (unread v.file).length) :
    ∃ v', calcWords n v = (0, v') ∧
      unread v'.file = (unread v.file).drop (4 * n) ∧
      v'.crc.toBitVec =
        feed poly v.crc.toBitVec (stream ((unread v.file).take (4 * n))) := by
  induction n generalizing v with
  | zero => exact ⟨v, rfl, rfl, rfl⟩
  | succ n inductionHypothesis =>
      obtain ⟨byte0, byte1, byte2, byte3, rest, shape⟩ :
          ∃ byte0 byte1 byte2 byte3 rest,
            unread v.file = byte0 :: byte1 :: byte2 :: byte3 :: rest := by
        match unread v.file, enough with
        | byte0 :: byte1 :: byte2 :: byte3 :: rest, _ =>
            exact ⟨byte0, byte1, byte2, byte3, rest, rfl⟩
      have bytes : (fread v.file 4).1 = [byte0, byte1, byte2, byte3] := by
        show (unread v.file).take 4 = _
        rw [shape]
        rfl
      have left : unread (fread v.file 4).2 = rest := by
        rw [unread_fread, shape]
        rfl
      have step : calcWords (n + 1) v =
          calcWords n
            { file := (fread v.file 4).2
              cache := overwrite v.cache [byte0, byte1, byte2, byte3]
              crc := crc32Fast v.crc
                (overwrite v.cache [byte0, byte1, byte2, byte3]) } := by
        simp [calcWords, crcfFread, bytes]
      have remaining : 4 * n ≤ rest.length := by
        rw [shape] at enough
        simp only [List.length_cons] at enough
        omega
      obtain ⟨v', result, after, crc⟩ := inductionHypothesis
        { file := (fread v.file 4).2
          cache := overwrite v.cache [byte0, byte1, byte2, byte3]
          crc := crc32Fast v.crc
            (overwrite v.cache [byte0, byte1, byte2, byte3]) }
        (by rw [left]; exact remaining)
      dsimp only at after crc
      rw [left] at after crc
      refine ⟨v', step.trans result, ?_, ?_⟩
      · rw [after, shape]
        rfl
      · have taken : (byte0 :: byte1 :: byte2 :: byte3 :: rest).take
            (4 * (n + 1)) =
              byte0 :: byte1 :: byte2 :: byte3 :: rest.take (4 * n) := rfl
        rw [crc, shape, taken, stream_cons, feed_append, crc32Fast_toBitVec]
        rfl

/-- Too few bytes: the end of the file is an error. -/
theorem calcWords_short
    (n : Nat)
    (v : CrcVars)
    (short : (unread v.file).length < 4 * n) :
    (calcWords n v).1 = eio := by
  induction n generalizing v with
  | zero => omega
  | succ n inductionHypothesis =>
      by_cases word : 4 ≤ (unread v.file).length
      · have bytes : (fread v.file 4).1.length = 4 := by
          show ((unread v.file).take 4).length = 4
          rw [List.length_take]
          omega
        have step : calcWords (n + 1) v =
            calcWords n
              { file := (fread v.file 4).2
                cache := overwrite v.cache (fread v.file 4).1
                crc := crc32Fast v.crc
                  (overwrite v.cache (fread v.file 4).1) } := by
          simp [calcWords, crcfFread, bytes]
        rw [step]
        refine inductionHypothesis _ ?_
        show (unread (fread v.file 4).2).length < 4 * n
        rw [unread_fread, List.length_drop]
        show (unread v.file).length - 4 < 4 * n
        omega
      · have bytes : (fread v.file 4).1.length ≠ 4 := by
          show ((unread v.file).take 4).length ≠ 4
          rw [List.length_take]
          omega
        simp [calcWords, crcfFread, bytes]

/-! ## The last bytes and the whole calculation -/

theorem toNat_mod_four
    (fsize : UInt32) :
    (fsize % 4).toNat = fsize.toNat % 4 :=
  UInt32.toNat_mod fsize 4

/-- The bytes after the last whole word, filled up with ones. -/
theorem calcLast_enough
    (fsize : UInt32)
    (v : CrcVars)
    (enough : fsize.toNat % 4 ≤ (unread v.file).length) :
    (calcLast fsize v).1 = 0 ∧
      (calcLast fsize v).2.crc.toBitVec =
        feed poly v.crc.toBitVec
          (stream ((unread v.file).take (fsize.toNat % 4))) := by
  have remainder := toNat_mod_four fsize
  have bytes : (fread v.file (fsize % 4)).1 =
      (unread v.file).take (fsize.toNat % 4) := by
    rw [← remainder]
    rfl
  have length : (fread v.file (fsize % 4)).1.length = (fsize % 4).toNat := by
    rw [bytes, List.length_take, remainder]
    omega
  by_cases whole : fsize % 4 = 0
  · have none : fsize.toNat % 4 = 0 := by
      rw [← remainder, whole]
      rfl
    simp [calcLast, whole, none]
  have route : calcLast fsize v =
      (0, { file := (fread v.file (fsize % 4)).2
            cache := overwrite v.cache (fread v.file (fsize % 4)).1 <<<
              (8 * (4 - fsize % 4)) ||| (0xffffffff >>> (8 * (fsize % 4)))
            crc := crc32Fast v.crc
              (overwrite v.cache (fread v.file (fsize % 4)).1 <<<
                (8 * (4 - fsize % 4)) |||
                  (0xffffffff >>> (8 * (fsize % 4)))) }) := by
    simp [calcLast, crcfFread, whole, length]
  rw [route]
  refine ⟨rfl, ?_⟩
  show (crc32Fast _ _).toBitVec = _
  rw [crc32Fast_toBitVec, bytes]
  congr 1
  have some : fsize.toNat % 4 ≠ 0 := by
    rw [← remainder]
    exact fun zero => whole (UInt32.toNat_inj.mp zero)
  have small : fsize.toNat % 4 < 4 := Nat.mod_lt _ (by decide)
  generalize fsize % 4 = r at remainder
  generalize fsize.toNat % 4 = n at remainder enough some small
  obtain rfl : r = UInt32.ofNat n := by
    refine UInt32.toNat_inj.mp ?_
    rw [remainder, UInt32.toNat_ofNat']
    omega
  obtain rfl | rfl | rfl : n = 1 ∨ n = 2 ∨ n = 3 := by omega
  · obtain ⟨byte0, rest, shape⟩ : ∃ byte0 rest,
        unread v.file = byte0 :: rest := by
      match unread v.file, enough with
      | byte0 :: rest, _ => exact ⟨byte0, rest, rfl⟩
    rw [shape]
    exact congrArg bitsOf (last_word byte0 _ _ _).1
  · obtain ⟨byte0, byte1, rest, shape⟩ : ∃ byte0 byte1 rest,
        unread v.file = byte0 :: byte1 :: rest := by
      match unread v.file, enough with
      | byte0 :: byte1 :: rest, _ => exact ⟨byte0, byte1, rest, rfl⟩
    rw [shape]
    exact congrArg bitsOf (last_word byte0 byte1 _ _).2.1
  · obtain ⟨byte0, byte1, byte2, rest, shape⟩ : ∃ byte0 byte1 byte2 rest,
        unread v.file = byte0 :: byte1 :: byte2 :: rest := by
      match unread v.file, enough with
      | byte0 :: byte1 :: byte2 :: rest, _ =>
          exact ⟨byte0, byte1, byte2, rest, rfl⟩
    rw [shape]
    exact congrArg bitsOf (last_word byte0 byte1 byte2 _).2.2

theorem calcLast_short
    (fsize : UInt32)
    (v : CrcVars)
    (short : (unread v.file).length < fsize.toNat % 4) :
    (calcLast fsize v).1 = eio := by
  have remainder := toNat_mod_four fsize
  have length : (fread v.file (fsize % 4)).1.length ≠ (fsize % 4).toNat := by
    show ((unread v.file).take (fsize % 4).toNat).length ≠ _
    rw [List.length_take]
    omega
  have some : fsize % 4 ≠ 0 := by
    intro whole
    rw [whole] at remainder
    have zero : (0 : UInt32).toNat = 0 := rfl
    omega
  rw [remainder] at length
  simp [calcLast, crcfFread, some, length]

theorem fseek_inside
    (file : CrcfFile)
    {target : Nat}
    (offset : Int)
    (base : Nat)
    (reached : base + offset = target)
    (inside : target < 2 ^ 31) :
    fseek file offset base =
      (0, { file with pos := target, pos_lt := inside }) := by
  have bounds : 0 ≤ base + offset ∧ base + offset < 2 ^ 31 := by omega
  rw [fseek, dif_pos bounds]
  congr 2
  omega

/-- `CRCF_fsize()` gives the size and leaves the position. -/
theorem crcfFsize_eq
    (file : CrcfFile) :
    crcfFsize file = (UInt32.ofNat file.content.length, file) := by
  have positive : ∀ pos : Nat, (pos : Int) ≠ -1 := by omega
  have last := fseek_inside file 0 file.content.length
    (Int.add_zero _) file.size_lt
  have back := fseek_inside
    { file with pos := file.content.length, pos_lt := file.size_lt }
    file.pos 0 (Int.zero_add _) file.pos_lt
  unfold crcfFsize ftell
  dsimp only
  rw [last]
  dsimp only
  rw [back, if_neg (positive _), if_neg (by simp), if_neg (positive _),
    if_neg (by simp), Int.toNat_natCast]

/-- The calculation after the checks of the arguments. -/
theorem calc_selected
    (v : CrcVars)
    (fsize : UInt32) :
    let words := calcWords (fsize >>> 2).toNat v
    let result :=
      if words.1 ≠ 0 then (words.1, words.2.crc)
      else
        let last := calcLast fsize words.2
        (last.1, last.2.crc)
    (result.1 = 0 ↔ fsize.toNat ≤ (unread v.file).length) ∧
      (result.1 = 0 → result.2.toBitVec =
        feed poly v.crc.toBitVec
          (stream ((unread v.file).take fsize.toNat))) := by
  have count : (fsize >>> 2).toNat = fsize.toNat / 4 := by
    simp [Nat.shiftRight_eq_div_pow]
  have eioBad : eio ≠ 0 := by decide
  rw [count]
  dsimp only
  by_cases enough : 4 * (fsize.toNat / 4) ≤ (unread v.file).length
  · obtain ⟨v', result, left, crc⟩ := calcWords_enough _ v enough
    rw [result]
    simp only [ne_eq, not_true_eq_false, if_false]
    have remaining : (unread v'.file).length =
        (unread v.file).length - 4 * (fsize.toNat / 4) := by
      rw [left, List.length_drop]
    by_cases whole : fsize.toNat ≤ (unread v.file).length
    · obtain ⟨good, value⟩ := calcLast_enough fsize v' (by omega)
      refine ⟨iff_of_true good whole, fun _ => ?_⟩
      have split : (unread v.file).take fsize.toNat =
          (unread v.file).take (4 * (fsize.toNat / 4)) ++
            ((unread v.file).drop (4 * (fsize.toNat / 4))).take
              (fsize.toNat % 4) := by
        rw [← List.take_add, Nat.div_add_mod]
      rw [value, crc, left, split, ← feed_append, ← stream_append
        (fsize.toNat / 4) (by rw [List.length_take]; omega)]
    · have bad := calcLast_short fsize v' (by omega)
      rw [bad]
      exact ⟨iff_of_false eioBad whole, fun good => absurd good eioBad⟩
  · have bad := calcWords_short _ v (Nat.lt_of_not_le enough)
    have whole : ¬ fsize.toNat ≤ (unread v.file).length := by omega
    rw [bad, if_pos eioBad]
    exact ⟨iff_of_false eioBad whole, fun good => absurd good eioBad⟩

/--
`CRCF_calc_crc()` gives 0 exactly when the selected bytes are in the file, and
then `*crc` is the CRC of the STM32 of these bytes.
-/
theorem crcfCalcCrc_reference
    (file : CrcfFile)
    (start length crc : UInt32) :
    let size := file.content.length
    let effective :=
      if length = 0 then size - start.toNat else length.toNat
    let result := crcfCalcCrc file start length crc
    (result.1 = 0 ↔
        size ≠ 0 ∧ start.toNat % 4 = 0 ∧ start.toNat < size ∧
          length.toNat ≤ size ∧ start.toNat + effective ≤ size) ∧
      (result.1 = 0 →
        result.2.toBitVec =
          reference ((file.content.drop start.toNat).take effective)) := by
  dsimp only
  have bound := file.size_lt
  have ffsize : (UInt32.ofNat file.content.length).toNat =
      file.content.length := by
    rw [UInt32.toNat_ofNat']
    omega
  have enoentBad : enoent ≠ 0 := by decide
  have einvalBad : einval ≠ 0 := by decide
  simp only [crcfCalcCrc, crcfCalcCrcSoft, crcfFsize_eq]
  generalize UInt32.ofNat file.content.length = size at ffsize ⊢
  by_cases empty : size = 0
  · have none : file.content.length = 0 := by
      rw [← ffsize, empty]
      rfl
    rw [if_pos empty]
    exact ⟨iff_of_false enoentBad fun ⟨nonempty, _⟩ => nonempty none,
      fun good => absurd good enoentBad⟩
  have nonempty : file.content.length ≠ 0 := by
    rw [← ffsize]
    exact fun zero => empty (UInt32.toNat_inj.mp zero)
  rw [if_neg empty]
  have aligned : start % 4 = 0 ↔ start.toNat % 4 = 0 := by
    rw [← toNat_mod_four]
    exact UInt32.toNat_inj.symm
  have checks : (start ≥ size ∨ length > size ∨ start % 4 ≠ 0) ↔
      ¬ (start.toNat % 4 = 0 ∧ start.toNat < file.content.length ∧
        length.toNat ≤ file.content.length) := by
    rw [ge_iff_le, gt_iff_lt, UInt32.le_iff_toNat_le, UInt32.lt_iff_toNat_lt,
      ffsize, Ne, aligned]
    omega
  by_cases refused : start ≥ size ∨ length > size ∨ start % 4 ≠ 0
  · rw [if_pos refused]
    exact ⟨iff_of_false einvalBad fun ⟨_, atStart, before, fits, _⟩ =>
      checks.mp refused ⟨atStart, before, fits⟩,
      fun good => absurd good einvalBad⟩
  rw [if_neg refused]
  obtain ⟨atStart, before, fits⟩ := not_not.mp (mt checks.mpr refused)
  have sought : crcfFseek file start =
      (frOk, { file with pos := start.toNat, pos_lt := by omega }) := by
    rw [crcfFseek,
      fseek_inside file start.toNat 0 (Int.zero_add _) (by omega)]
    rfl
  rw [sought]
  have effective : (if length ≠ 0 then length else size - start).toNat =
      if length = 0 then file.content.length - start.toNat
      else length.toNat := by
    by_cases zero : length = 0
    · rw [if_neg (by simpa using zero), if_pos zero,
        UInt32.toNat_sub_of_le _ _
          (UInt32.le_iff_toNat_le.mpr (by omega)), ffsize]
    · rw [if_pos zero, if_neg zero]
  have selected := calc_selected
    { file := { file with pos := start.toNat, pos_lt := by omega }
      cache := 0
      crc := 0xffffffff }
    (if length ≠ 0 then length else size - start)
  dsimp only at selected
  rw [effective] at selected
  have length_unread :
      (unread { file with pos := start.toNat, pos_lt := by omega }).length =
        file.content.length - start.toNat := List.length_drop
  rw [length_unread] at selected
  simp only [ne_eq, not_true_eq_false, if_false]
  refine ⟨?_, selected.2⟩
  refine selected.1.trans ?_
  constructor
  · intro enough
    exact ⟨nonempty, atStart, before, fits, by omega⟩
  · rintro ⟨_, _, _, _, enough⟩
    omega

/-! ## Short changes of a file -/

/-- Two files that differ only in one aligned group of four bytes. -/
def WithinGroup
    (bytes other : List UInt8) : Prop :=
  ∃ group, ∀ i, i / 4 ≠ group → bytes[i]? = other[i]?

theorem word_inj
    {byte0 byte1 byte2 byte3 other0 other1 other2 other3 : UInt8}
    (same : word byte0 byte1 byte2 byte3 =
      word other0 other1 other2 other3) :
    byte0 = other0 ∧ byte1 = other1 ∧ byte2 = other2 ∧ byte3 = other3 := by
  have bit : ∀ i, _ = _ := fun i => congrArg (fun v => v.getLsbD i) same
  simp only [getLsbD_word] at bit
  refine ⟨?_, ?_, ?_, ?_⟩ <;>
    refine UInt8.toBitVec_inj.mp (BitVec.eq_of_getLsbD_eq fun i inside => ?_)
  · simpa [inside] using bit i
  · simpa [show ¬ i + 8 < 8 by omega, show i + 8 < 16 by omega]
      using bit (i + 8)
  · simpa [show ¬ i + 16 < 8 by omega, show ¬ i + 16 < 16 by omega,
      show i + 16 < 24 by omega] using bit (i + 16)
  · simpa [show ¬ i + 24 < 8 by omega, show ¬ i + 24 < 16 by omega,
      show ¬ i + 24 < 24 by omega] using bit (i + 24)

@[simp] theorem length_stream
    (bytes : List UInt8) :
    (stream bytes).length = 32 * ((bytes.length + 3) / 4) := by
  unfold stream
  induction bytes using words.induct with
  | case1 byte0 byte1 byte2 byte3 rest inductionHypothesis =>
      rw [words, List.flatMap_cons, List.length_append, length_bitsOf,
        inductionHypothesis]
      simp only [List.length_cons]
      omega
  | case2 | case3 | case4 | case5 => simp [words]

/-- The stream determines the bytes of a file of known length. -/
theorem stream_injective
    {bytes other : List UInt8}
    (sameLength : bytes.length = other.length)
    (same : stream bytes = stream other) :
    bytes = other := by
  induction bytes using words.induct generalizing other with
  | case1 byte0 byte1 byte2 byte3 rest inductionHypothesis =>
      match other, sameLength, same with
      | other0 :: other1 :: other2 :: other3 :: others, sameLength, same =>
          rw [stream_cons, stream_cons] at same
          obtain ⟨first, rests⟩ := List.append_inj same (by simp)
          obtain ⟨rfl, rfl, rfl, rfl⟩ := word_inj (bitsOf_injective first)
          rw [inductionHypothesis (by simpa using sameLength) rests]
  | case2 byte0 byte1 byte2 =>
      match other, sameLength, same with
      | [other0, other1, other2], _, same =>
          simp only [stream, words, List.flatMap_cons, List.flatMap_nil,
            List.append_nil] at same
          obtain ⟨_, rfl, rfl, rfl⟩ := word_inj (bitsOf_injective same)
          rfl
  | case3 byte0 byte1 =>
      match other, sameLength, same with
      | [other0, other1], _, same =>
          simp only [stream, words, List.flatMap_cons, List.flatMap_nil,
            List.append_nil] at same
          obtain ⟨_, _, rfl, rfl⟩ := word_inj (bitsOf_injective same)
          rfl
  | case4 byte0 =>
      match other, sameLength, same with
      | [other0], _, same =>
          simp only [stream, words, List.flatMap_cons, List.flatMap_nil,
            List.append_nil] at same
          obtain ⟨_, _, _, rfl⟩ := word_inj (bitsOf_injective same)
          rfl
  | case5 => exact (List.length_eq_zero_iff.mp sameLength.symm).symm

/-- A change in one group of bytes changes one word of the stream. -/
theorem WithinGroup.window
    {bytes other : List UInt8}
    (sameLength : bytes.length = other.length)
    (within : WithinGroup bytes other) :
    WithinWindow 32 (stream bytes) (stream other) := by
  obtain ⟨group, outside⟩ := within
  by_cases beyond : bytes.length ≤ 4 * group
  · -- the group is beyond the end: nothing has changed
    have same : bytes = other := by
      refine List.ext_getElem? fun i => ?_
      by_cases inside : i < bytes.length
      · exact outside i (by omega)
      · rw [List.getElem?_eq_none (by omega), List.getElem?_eq_none (by omega)]
    exact ⟨0, fun _ _ => by rw [same]⟩
  have fronts : bytes.take (4 * group) = other.take (4 * group) := by
    refine List.ext_getElem? fun i => ?_
    rw [List.getElem?_take, List.getElem?_take]
    split
    · exact outside i (by omega)
    · rfl
  have parts : ∀ l : List UInt8, 4 * group < l.length →
      stream l =
        stream (l.take (4 * group)) ++ stream (l.drop (4 * group)) := by
    intro l enough
    rw [← stream_append group (by rw [List.length_take]; omega),
      List.take_append_drop]
  have length_front : (stream (bytes.take (4 * group))).length = 32 * group := by
    rw [length_stream, List.length_take]
    omega
  refine ⟨32 * group, fun i away => ?_⟩
  rw [parts bytes (by omega), parts other (by omega), ← fronts]
  obtain before | behind := away
  · rw [List.getElem?_append_left (by omega),
      List.getElem?_append_left (by omega)]
  rw [List.getElem?_append_right (by omega),
    List.getElem?_append_right (by omega), length_front]
  -- behind the changed word
  have rests : (bytes.drop (4 * group)).drop 4 =
      (other.drop (4 * group)).drop 4 := by
    refine List.ext_getElem? fun i => ?_
    simp only [List.getElem?_drop]
    exact outside _ (by omega)
  have restLength : (bytes.drop (4 * group)).length =
      (other.drop (4 * group)).length := by
    rw [List.length_drop, List.length_drop, sameLength]
  generalize bytes.drop (4 * group) = back at rests restLength
  generalize other.drop (4 * group) = otherBack at rests restLength
  by_cases whole : 4 ≤ back.length
  · match back, otherBack, whole, restLength, rests with
    | byte0 :: byte1 :: byte2 :: byte3 :: rest,
        other0 :: other1 :: other2 :: other3 :: others, _, _, rests =>
        obtain rfl : rest = others := rests
        rw [stream_cons, stream_cons, List.getElem?_append_right,
          List.getElem?_append_right, length_bitsOf, length_bitsOf]
        · rw [length_bitsOf]
          omega
        · rw [length_bitsOf]
          omega
  · rw [List.getElem?_eq_none, List.getElem?_eq_none] <;>
      · rw [length_stream]
        omega

theorem hexDigit_inj
    {m n : Nat}
    (small : m < 16)
    (otherSmall : n < 16)
    (same : Kermit.hexDigit m = Kermit.hexDigit n) :
    m = n := by
  have all : ∀ a b : Fin 16,
      Kermit.hexDigit a = Kermit.hexDigit b → a = b := by
    decide
  exact congrArg Fin.val (all ⟨m, small⟩ ⟨n, otherSmall⟩ same)

/-- Numbers with the same last digits differ by a multiple. -/
theorem mod_pow_of_digits
    {m n : Nat}
    (count : Nat)
    (same : ∀ i < count, m / 16 ^ i % 16 = n / 16 ^ i % 16) :
    m % 16 ^ count = n % 16 ^ count := by
  induction count with
  | zero =>
      simp [Nat.mod_one]
  | succ count inductionHypothesis =>
      rw [Nat.mod_pow_succ, Nat.mod_pow_succ, same count count.lt_succ_self,
        inductionHypothesis fun i below => same i (Nat.lt_succ_of_lt below)]

/-- The listing shows different values differently. -/
theorem hex8_injective :
    Function.Injective Kermit.hex8 := by
  intro value other same
  have digit : ∀ i < 8, value.toNat / 16 ^ (7 - i) % 16 =
      other.toNat / 16 ^ (7 - i) % 16 := by
    intro i inside
    have shown := congrArg (fun text => text[i]?) same
    simp only [Kermit.hex8, List.getElem?_map, List.getElem?_range inside,
      Option.map_some, Option.some.injEq] at shown
    exact hexDigit_inj (Nat.mod_lt _ (by decide)) (Nat.mod_lt _ (by decide))
      shown
  have reversed : ∀ i < 8, value.toNat / 16 ^ i % 16 =
      other.toNat / 16 ^ i % 16 := by
    intro i inside
    have mirrored := digit (7 - i) (by omega)
    rwa [Nat.sub_sub_self (Nat.le_of_lt_succ inside)] at mirrored
  have whole := mod_pow_of_digits 8 reversed
  have bits : (16 : Nat) ^ 8 = 2 ^ 32 := by decide
  rw [bits, Nat.mod_eq_of_lt value.toNat_lt, Nat.mod_eq_of_lt other.toNat_lt]
    at whole
  exact UInt32.toNat_inj.mp whole

theorem eq_of_success
    {result : UInt8 × UInt32}
    (success : result.1 = 0) :
    result = (0, result.2) := by
  rw [← success]

/-- The CRC of a whole file that is not empty. -/
theorem crcfCalcCrc_whole
    (file : CrcfFile)
    (nonempty : file.content ≠ [])
    (crc : UInt32) :
    ∃ value, crcfCalcCrc file 0 0 crc = (0, value) ∧
      value.toBitVec = reference file.content := by
  obtain ⟨good, isCrc⟩ := crcfCalcCrc_reference file 0 0 crc
  have positive := List.length_pos_iff.mpr nonempty
  have success : (crcfCalcCrc file 0 0 crc).1 = 0 :=
    good.mpr
      ⟨positive.ne', Nat.zero_mod 4, positive, Nat.zero_le _, by simp⟩
  have value := isCrc success
  rw [if_pos rfl, UInt32.toNat_zero, Nat.sub_zero, List.drop_zero,
    List.take_length] at value
  exact ⟨_, eq_of_success success, value⟩

/--
Files of one length that differ only within 32 consecutive bits of their
streams, or only in one aligned group of bytes, have different CRCs, and their
entries in a listing have different etags.
-/
theorem crcfCalcCrc_detects
    {file other : CrcfFile}
    (sameLength : file.content.length = other.content.length)
    (nonempty : file.content ≠ [])
    (different : file.content ≠ other.content)
    (short : WithinWindow 32 (stream file.content) (stream other.content) ∨
      WithinGroup file.content other.content)
    (crc otherCrc : UInt32) :
    ∃ value otherValue,
      crcfCalcCrc file 0 0 crc = (0, value) ∧
        crcfCalcCrc other 0 0 otherCrc = (0, otherValue) ∧
        value ≠ otherValue ∧
        Kermit.hex8 value ≠ Kermit.hex8 otherValue := by
  have otherNonempty : other.content ≠ [] := by
    rw [← List.length_pos_iff] at nonempty ⊢
    omega
  obtain ⟨value, result, isCrc⟩ := crcfCalcCrc_whole file nonempty crc
  obtain ⟨otherValue, otherResult, isOther⟩ :=
    crcfCalcCrc_whole other otherNonempty otherCrc
  have window : WithinWindow 32 (stream file.content)
      (stream other.content) :=
    short.elim id (WithinGroup.window sameLength)
  have streams : stream file.content ≠ stream other.content :=
    mt (stream_injective sameLength) different
  have detected : value ≠ otherValue := by
    intro same
    refine @burst_detected _ poly (by decide) 0xFFFFFFFF#32 _ _
      (by simp [sameLength]) streams window ?_
    exact isCrc.symm.trans ((congrArg UInt32.toBitVec same).trans isOther)
  exact ⟨value, otherValue, result, otherResult, detected,
    fun same => detected (hex8_injective same)⟩

/-- A file of five bytes. -/
def fiveBytes
    (last : UInt8) : CrcfFile where
  content := [1, 2, 3, 4, last]
  pos := 0
  size_lt := by simp
  pos_lt := Nat.two_pow_pos 31

theorem crcfCalcCrc_detects_last :
    ∃ value otherValue,
      crcfCalcCrc (fiveBytes 5) 0 0 0 = (0, value) ∧
        crcfCalcCrc (fiveBytes 6) 0 0 0 = (0, otherValue) ∧
        value ≠ otherValue ∧
        Kermit.hex8 value ≠ Kermit.hex8 otherValue := by
  refine crcfCalcCrc_detects ?_ ?_ ?_ (.inr ⟨1, ?_⟩) 0 0
  · rfl
  · decide
  · decide
  · intro i outside
    match i, outside with
    | 0, _ | 1, _ | 2, _ | 3, _ => rfl
    | 4, outside => exact absurd rfl outside
    | i + 5, _ => rfl

end Slate106.Crc32
