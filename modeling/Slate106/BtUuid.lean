import Slate106.CBytes

namespace Slate106.Gatt

open CBytes

/-!
# Attribute types

The UUIDs of BlueZ, and the little-endian form in which they and the handles
go over the air.
-/

/-! ## Handles -/

/-- `put_le16()`: the two bytes it stores. -/
def putLe16
    (val : Nat) : List UInt8 :=
  [UInt8.ofNat val, UInt8.ofNat (val / 256)]

/-- `get_le16()`. -/
def getLe16
    (ptr : List UInt8) : Nat :=
  (peek ptr 0).toNat + 256 * (peek ptr 1).toNat

@[simp] theorem length_putLe16
    (val : Nat) :
    (putLe16 val).length = 2 :=
  rfl

theorem getLe16_putLe16
    {val : Nat}
    (small : val < 65536)
    (rest : List UInt8) :
    getLe16 (putLe16 val ++ rest) = val := by
  unfold getLe16 putLe16 peek
  simp only [List.cons_append, List.getD_cons_zero, List.getD_cons_succ,
    UInt8.toNat_ofNat']
  omega

/-! ## UUIDs -/

/-- `uint128_t`, the most significant byte first. -/
abbrev Uint128 :=
  Vector UInt8 16

/-- `bt_uuid_t` of a specified type. -/
inductive BtUuid where
  | uuid16 (u16 : UInt16)
  | uuid32 (u32 : UInt32)
  | uuid128 (u128 : Uint128)
  deriving DecidableEq

/-- `bluetooth_base_uuid`. -/
def bluetoothBaseUuid : Uint128 :=
  #v[0x00, 0x00, 0x00, 0x00, 0x00, 0x00, 0x10, 0x00,
    0x80, 0x00, 0x00, 0x80, 0x5f, 0x9b, 0x34, 0xfb]

/-- `bt_uuid16_to_uuid128()`. -/
def btUuid16ToUuid128
    (u16 : UInt16) : Uint128 :=
  (bluetoothBaseUuid.set 2 (UInt8.ofNat (u16.toNat / 256))).set 3
    (UInt8.ofNat u16.toNat)

/-- `bt_uuid32_to_uuid128()`. -/
def btUuid32ToUuid128
    (u32 : UInt32) : Uint128 :=
  (((bluetoothBaseUuid.set 0 (UInt8.ofNat (u32.toNat / 16777216))).set 1
    (UInt8.ofNat (u32.toNat / 65536))).set 2
      (UInt8.ofNat (u32.toNat / 256))).set 3 (UInt8.ofNat u32.toNat)

/-- `bt_uuid_to_uuid128()`. -/
def btUuidToUuid128 : BtUuid → Uint128
  | .uuid16 u16 => btUuid16ToUuid128 u16
  | .uuid32 u32 => btUuid32ToUuid128 u32
  | .uuid128 u128 => u128

/-- `bt_uuid_cmp() == 0`. -/
def btUuidCmp
    (uuid1 uuid2 : BtUuid) : Bool :=
  btUuidToUuid128 uuid1 = btUuidToUuid128 uuid2

/-- `bt_uuid_len()`. -/
def btUuidLen : BtUuid → Nat
  | .uuid16 _ => 2
  | .uuid32 _ => 4
  | .uuid128 _ => 16

/-- `bswap_128()` of the bytes at `src`. -/
def bswap128
    (src : List UInt8) : Uint128 :=
  Vector.ofFn fun i => peek src (15 - i)

/-- `bt_uuid_to_le()`: the bytes it stores. -/
def btUuidToLe : BtUuid → List UInt8
  | .uuid16 u16 => putLe16 u16.toNat
  | .uuid32 u32 => (btUuid32ToUuid128 u32).toList.reverse
  | .uuid128 u128 => u128.toList.reverse

/-- `uuid_to_le()`: the bytes it stores, as many as it returns. -/
def uuidToLe : BtUuid → List UInt8
  | .uuid16 u16 => putLe16 u16.toNat
  | uuid => (btUuidToUuid128 uuid).toList.reverse

/-- `le_to_uuid()` of `len` bytes. -/
def leToUuid
    (src : List UInt8)
    (len : Nat) : Option BtUuid :=
  if len = 2 then some (.uuid16 (UInt16.ofNat (getLe16 src)))
  else if len = 4 then
    some (.uuid32 (UInt32.ofNat
      (getLe16 src + 65536 * getLe16 (src.drop 2))))
  else if len ≠ 16 then none
  else some (.uuid128 (bswap128 src))

/-- `get_uuid_le()` of `len` bytes. -/
def getUuidLe
    (uuid : List UInt8)
    (len : Nat) : Option BtUuid :=
  if len = 2 then some (.uuid16 (UInt16.ofNat (getLe16 uuid)))
  else if len = 16 then some (.uuid128 (bswap128 uuid))
  else none

/-- `bt_base_uuid`. -/
def btBaseUuid : Uint128 :=
  #v[0x00, 0x00, 0x00, 0x00, 0x00, 0x00, 0x10, 0x00,
    0x80, 0x00, 0x00, 0x80, 0x5f, 0x9b, 0x34, 0xfb]

/-- `convert_uuid_le()` of `len` bytes. -/
def convertUuidLe
    (src : List UInt8)
    (len : Nat) : Option Uint128 :=
  if len = 16 then some (bswap128 src)
  else if len ≠ 2 then none
  else some ((btBaseUuid.set 2 (peek src 1)).set 3 (peek src 0))

theorem btUuidCmp_eq_true
    {uuid1 uuid2 : BtUuid} :
    btUuidCmp uuid1 uuid2 = true ↔
      btUuidToUuid128 uuid1 = btUuidToUuid128 uuid2 :=
  decide_eq_true_iff

theorem btUuidCmp_self
    (uuid : BtUuid) :
    btUuidCmp uuid uuid = true :=
  btUuidCmp_eq_true.mpr rfl

/-- The two ways to store a UUID agree. -/
theorem uuidToLe_eq
    (uuid : BtUuid) :
    uuidToLe uuid = btUuidToLe uuid := by
  cases uuid <;> rfl

theorem length_uuidToLe
    (uuid : BtUuid) :
    (uuidToLe uuid).length = 2 ∨ (uuidToLe uuid).length = 16 := by
  cases uuid with
  | uuid16 u16 =>
      exact .inl rfl
  | uuid32 u32 =>
      exact .inr (by simp [uuidToLe])
  | uuid128 u128 =>
      exact .inr (by simp [uuidToLe])

/-- The bytes of a 128-bit UUID are put back in order. -/
theorem bswap128_reverse
    (u128 : Uint128)
    (rest : List UInt8) :
    bswap128 (u128.toList.reverse ++ rest) = u128 := by
  ext index inside
  have place : 15 - index < u128.toList.reverse.length := by
    rw [List.length_reverse, Vector.length_toList]
    omega
  simp only [bswap128, Vector.getElem_ofFn, peek,
    List.getD_eq_getElem?_getD]
  rw [List.getElem?_append_left place, List.getElem?_eq_getElem place,
    Option.getD_some, List.getElem_reverse]
  simp only [Vector.getElem_toList, Vector.length_toList]
  congr 1
  congr 1
  omega

/-- What a client reads of a UUID is its 128-bit form. -/
theorem convertUuidLe_uuidToLe
    (uuid : BtUuid)
    (rest : List UInt8) :
    convertUuidLe (uuidToLe uuid ++ rest) (uuidToLe uuid).length =
      some (btUuidToUuid128 uuid) := by
  cases uuid with
  | uuid16 u16 =>
      rfl
  | uuid32 u32 =>
      have long : (uuidToLe (.uuid32 u32)).length = 16 := by
        simp [uuidToLe]
      rw [long]
      exact congrArg some (bswap128_reverse _ rest)
  | uuid128 u128 =>
      have long : (uuidToLe (.uuid128 u128)).length = 16 := by
        simp [uuidToLe]
      rw [long]
      exact congrArg some (bswap128_reverse _ rest)

/-- A UUID that is read back is the same one, in a form of 16 or 128 bits. -/
theorem leToUuid_uuidToLe
    (uuid : BtUuid)
    (rest : List UInt8) :
    ∃ same, leToUuid (uuidToLe uuid ++ rest) (uuidToLe uuid).length =
        some same ∧ btUuidToUuid128 same = btUuidToUuid128 uuid := by
  cases uuid with
  | uuid16 u16 =>
      have value : getLe16 (putLe16 u16.toNat ++ rest) = u16.toNat :=
        getLe16_putLe16 u16.toNat_lt rest
      refine ⟨.uuid16 u16, ?_, rfl⟩
      have same : UInt16.ofNat (getLe16 (putLe16 u16.toNat ++ rest)) = u16 := by
        rw [value, UInt16.ofNat_toNat]
      exact congrArg (fun u => some (BtUuid.uuid16 u)) same
  | uuid32 u32 =>
      have long : (uuidToLe (.uuid32 u32)).length = 16 := by
        simp [uuidToLe]
      rw [long]
      exact ⟨.uuid128 _, rfl, bswap128_reverse _ rest⟩
  | uuid128 u128 =>
      have long : (uuidToLe (.uuid128 u128)).length = 16 := by
        simp [uuidToLe]
      rw [long]
      exact ⟨.uuid128 _, rfl, bswap128_reverse _ rest⟩

end Slate106.Gatt
