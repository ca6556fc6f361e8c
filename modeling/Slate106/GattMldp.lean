import Slate106.GattDbRuns
import Slate106.GattServer

namespace Slate106.Gatt

/-!
# The service of the file transfer

The database that the program serves has the MLDP service: a characteristic for
data with a descriptor for its configuration, and one for control.
-/

abbrev btGattChrcPropRead : UInt8 := 0x02
abbrev btGattChrcPropWriteWithoutResp : UInt8 := 0x04
abbrev btGattChrcPropWrite : UInt8 := 0x08
abbrev btGattChrcPropNotify : UInt8 := 0x10
abbrev btGattChrcPropIndicate : UInt8 := 0x20

/-- `mldp_service_uuid`. -/
def mldpServiceUuid : Uint128 :=
  #v[0x00, 0x03, 0x5b, 0x03, 0x58, 0xe6, 0x07, 0xdd,
    0x02, 0x1a, 0x08, 0x12, 0x3a, 0x00, 0x03, 0x00]

/-- `mldp_data_char_uuid`. -/
def mldpDataCharUuid : Uint128 :=
  #v[0x00, 0x03, 0x5b, 0x03, 0x58, 0xe6, 0x07, 0xdd,
    0x02, 0x1a, 0x08, 0x12, 0x3a, 0x00, 0x03, 0x01]

/-- `mldp_ctrl_char_uuid`. -/
def mldpCtrlCharUuid : Uint128 :=
  #v[0x00, 0x03, 0x5b, 0x03, 0x58, 0xe6, 0x07, 0xdd,
    0x02, 0x1a, 0x08, 0x12, 0x3a, 0x00, 0x03, 0xff]

/-- The calls of `populate_mldp_service()` for a service it has added. -/
def mldpOps
    (service : Nat) : List DbOp :=
  [.insertCharacteristic service 0 (.uuid128 mldpDataCharUuid)
      (btAttPermRead ||| btAttPermWrite)
      (btGattChrcPropRead ||| btGattChrcPropWrite |||
        btGattChrcPropWriteWithoutResp ||| btGattChrcPropIndicate |||
        btGattChrcPropNotify)
      false true,
    .insertDescriptor service 0 (.uuid16 gattClientCharacCfgUuid)
      (btAttPermRead ||| btAttPermWrite) false false,
    .insertCharacteristic service 0 (.uuid128 mldpCtrlCharUuid)
      (btAttPermRead ||| btAttPermWrite)
      (btGattChrcPropRead ||| btGattChrcPropWrite |||
        btGattChrcPropWriteWithoutResp)
      false false,
    .setActive service true]

/-- `populate_mldp_service()`; `populate_db()` does nothing else. -/
def populateMldpService
    (db : GattDb) : GattDb :=
  match gattDbAddService db (.uuid128 mldpServiceUuid) true 8 with
  | (none, db) => db
  | (some service, db) => (mldpOps service).foldl DbOp.perform db

/-- The database of the program keeps to the order. -/
theorem populateMldpService_run :
    DbRun gattDbNew (populateMldpService gattDbNew) := by
  have service : DbRun gattDbNew _ :=
    DbRun.refl.tail
      (.insertService 0 (.uuid128 mldpServiceUuid) true 8)
      (.inr ⟨⟨by decide, by decide⟩, fun other member =>
        absurd member List.not_mem_nil⟩)
  have data := service.tail ((mldpOps 1)[0]) (.inr ⟨fun other member _ => by
    obtain rfl := List.mem_singleton.mp member
    exact ⟨by decide, by decide⟩, by decide⟩)
  have config := data.tail ((mldpOps 1)[1]) (.inr ⟨fun other member _ => by
    obtain rfl := List.mem_singleton.mp member
    exact ⟨by decide, by decide⟩, by decide⟩)
  have control := config.tail ((mldpOps 1)[2]) (.inr ⟨fun other member _ => by
    obtain rfl := List.mem_singleton.mp member
    exact ⟨by decide, by decide⟩, by decide⟩)
  exact control.tail ((mldpOps 1)[3]) (.inr trivial)

/-- The server of the program on a bearer that has just been set up. -/
def mldpServer : GattServer where
  db := populateMldpService gattDbNew
  mtu := btAttDefaultLeMtu
  security := 1
  encSize := 0
  minEncSize := 0
  pendingReadOp := false

end Slate106.Gatt
