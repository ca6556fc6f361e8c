import Slate106.KermitData

namespace Slate106.Kermit

/-!
# Block checks

`chk1`, `chk2` and `chk3` of a string.  `K_INIT` is the only place that fills
the tables `crcta` and `crctb`, always with the same values, so they are
constants here.
-/

/-- `chk2()`: the sum of the bytes in a `USHORT`. -/
def chk2
    (pkt : List UInt8) : Nat :=
  pkt.foldl (fun chk byte => (chk + byte.toNat) % 65536) 0

/-- `chk1()`. -/
def chk1
    (pkt : List UInt8) : Nat :=
  (((chk2 pkt &&& 0o300) >>> 6) + chk2 pkt) &&& 0o77

theorem chk1_lt
    (pkt : List UInt8) :
    chk1 pkt < 64 := by
  have bounded :=
    Nat.and_le_right (n := ((chk2 pkt &&& 0o300) >>> 6) + chk2 pkt)
      (m := 0o77)
  simp only [chk1]
  omega

/-- `k->crcta`. -/
def crcta : List UInt16 :=
  [0, 0o10201, 0o20402, 0o30603, 0o41004, 0o51205, 0o61406, 0o71607,
    0o102010, 0o112211, 0o122412, 0o132613, 0o143014, 0o153215, 0o163416,
    0o173617]

/-- `k->crctb`. -/
def crctb : List UInt16 :=
  [0, 0o10611, 0o21422, 0o31233, 0o43044, 0o53655, 0o62466, 0o72277,
    0o106110, 0o116701, 0o127532, 0o137323, 0o145154, 0o155745, 0o164576,
    0o174367]

/-- One byte of the loop of `chk3()`. -/
def chk3Step
    (crc : UInt16)
    (byte : UInt8) : UInt16 :=
  let c := crc ^^^ byte.toUInt16
  (crc >>> 8) ^^^
    (crcta.getD ((c &&& 0xF0) >>> 4).toNat 0 ^^^
      crctb.getD (c &&& 0x0F).toNat 0)

/-- `chk3()`. -/
def chk3
    (pkt : List UInt8) : UInt16 :=
  pkt.foldl chk3Step 0

/-- The characters `spkt()` puts after the data as the block check. -/
def blockCheck
    (bct : Nat)
    (pkt : List UInt8) : List UInt8 :=
  match bct with
  | 1 => [tochar (UInt8.ofNat (chk1 pkt))]
  | 2 =>
      [tochar (UInt8.ofNat ((chk2 pkt >>> 6) &&& 0o77)),
        tochar (UInt8.ofNat (chk2 pkt &&& 0o77))]
  | 3 =>
      let crc := (chk3 pkt).toNat
      [tochar (UInt8.ofNat ((crc >>> 12) &&& 0x0f)),
        tochar (UInt8.ofNat ((crc >>> 6) &&& 0x3f)),
        tochar (UInt8.ofNat (crc &&& 0x3f))]
  | _ => []

/-- The three characters of a type 3 check hold the whole CRC. -/
theorem crc_joined
    {crc : Nat}
    (small : crc < 65536) :
    ((crc >>> 12) &&& 0x0f) <<< 12 ||| ((crc >>> 6) &&& 0x3f) <<< 6 |||
        (crc &&& 0x3f) =
      crc := by
  have high : (crc >>> 12) &&& 0x0f = crc / 4096 := by
    rw [show (0x0f : Nat) = 2 ^ 4 - 1 by rfl,
      Nat.and_two_pow_sub_one_eq_mod, Nat.shiftRight_eq_div_pow]
    omega
  have middle : (crc >>> 6) &&& 0x3f = crc / 64 % 64 := by
    rw [show (0x3f : Nat) = 2 ^ 6 - 1 by rfl,
      Nat.and_two_pow_sub_one_eq_mod, Nat.shiftRight_eq_div_pow]
  have low : crc &&& 0x3f = crc % 64 := by
    rw [show (0x3f : Nat) = 2 ^ 6 - 1 by rfl,
      Nat.and_two_pow_sub_one_eq_mod]
  have lowFits : crc % 64 < 2 ^ 6 := by
    omega
  have restFits : (crc / 64 % 64) <<< 6 + crc % 64 < 2 ^ 12 := by
    simp only [Nat.shiftLeft_eq]
    omega
  rw [high, middle, low, Nat.or_assoc,
    ← Nat.shiftLeft_add_eq_or_of_lt lowFits,
    ← Nat.shiftLeft_add_eq_or_of_lt restFits]
  simp only [Nat.shiftLeft_eq]
  omega

end Slate106.Kermit
