import Slate106.GattServer
import Slate106.RangeScan

namespace Slate106.Gatt

open CBytes

/-!
# The requests of a client that discovers a server

The callbacks with which a client collects responses and asks for more, and the
iterators over what it has collected.
-/

/-- `struct bt_gatt_result` without its links; the list has them in order. -/
structure GattResult where
  opcode : UInt8
  pdu : List UInt8
  dataLen : Nat
  deriving DecidableEq

/-- `struct bt_gatt_request`; `uuid` is `none` while it is `BT_UUID_UNSPEC`. -/
structure GattRequest where
  startHandle : Nat
  endHandle : Nat
  uuid : Option BtUuid
  serviceType : Nat
  results : List GattResult
  deriving DecidableEq

/-- What the callback of a request is called with. -/
structure Outcome where
  success : Bool
  ecode : Nat
  results : List GattResult
  deriving DecidableEq

/-- What a response leads to: another request, or the callback. -/
inductive Reaction where
  | ask (pdu : Pdu) (op : GattRequest)
  | complete (outcome : Outcome)

/-- `process_error()`. -/
def processError
    (pdu : List UInt8) : Nat :=
  if pdu.length ≠ 4 then 0 else (peek pdu 3).toNat

/-- `result_append()`. -/
def resultAppend
    (opcode : UInt8)
    (pdu : List UInt8)
    (dataLen : Nat)
    (op : GattRequest) : GattRequest :=
  { op with
    results :=
      op.results ++
        [{ opcode := opcode
           pdu := pdu
           dataLen := dataLen }] }

/-- `discovery_op_complete()`. -/
def discoveryOpComplete
    (op : GattRequest)
    (success : Bool)
    (ecode : Nat) : Reaction :=
  let success :=
    if ecode = btAttErrorAttributeNotFound ∧ op.results ≠ [] then true
    else success
  .complete
    { success := success
      ecode := ecode
      results := if success then op.results else [] }

/-! ## Services -/

/-- The Read By Group Type request for what is left of the range. -/
def readByGrpTypeReq
    (op : GattRequest) : Pdu where
  opcode := btAttOpReadByGrpTypeReq
  data :=
    putLe16 op.startHandle ++ putLe16 op.endHandle ++ putLe16 op.serviceType

/-- `put_le16(op->end_handle, cur_result->pdu + ...)` in the last result. -/
def putLastEnd
    (op : GattRequest)
    (offset : Nat) : GattRequest :=
  { op with
    results :=
      op.results.dropLast ++
        op.results.getLast?.toList.map fun result =>
          { result with
            pdu := poke result.pdu offset (putLe16 op.endHandle) } }

/-- `read_by_grp_type_cb()` of the client. -/
def Helpers.readByGrpTypeCb
    (op : GattRequest)
    (rsp : Pdu) : Reaction :=
  let pdu := rsp.data
  let length := pdu.length
  if rsp.opcode = btAttOpErrorRsp then
    discoveryOpComplete op false (processError pdu)
  else if rsp.opcode ≠ btAttOpReadByGrpTypeRsp ∨ length < 7 then
    discoveryOpComplete op false 0
  else
    let dataLength := (peek pdu 0).toNat
    let listLength := length - 1
    if (dataLength ≠ 6 ∧ dataLength ≠ 20) ∨ listLength % dataLength ≠ 0 then
      discoveryOpComplete op false 0
    else
      let op := resultAppend rsp.opcode (pdu.drop 1) dataLength op
      let lastEnd := getLe16 (pdu.drop (length - dataLength + 2))
      if lastEnd < op.startHandle then discoveryOpComplete op false 0
      else
        let op := { op with startHandle := (lastEnd + 1) % 65536 }
        if lastEnd < op.endHandle then .ask (readByGrpTypeReq op) op
        else if lastEnd = 0xffff ∧ lastEnd ≠ op.endHandle then
          discoveryOpComplete (putLastEnd op (length - dataLength + 1)) true 0
        else discoveryOpComplete op true 0

/-- `discover_services()` of all services. -/
def discoverServices
    (start endHandle : Nat)
    (primary : Bool) : GattRequest where
  startHandle := start
  endHandle := endHandle
  uuid := none
  serviceType :=
    if primary then gattPrimSvcUuid.toNat else gattSndSvcUuid.toNat
  results := []

/-! ## Characteristics and descriptors -/

/--
What the callbacks for characteristics and for descriptors differ in: the
opcodes, the shortest response, how its first byte tells the length of a data
set, and what follows the range in a request.
-/
structure Procedure where
  reqOpcode : UInt8
  rspOpcode : UInt8
  shortest : Nat
  dataLength : UInt8 → Option Nat
  type : List UInt8

/-- The request for what is left of the range. -/
def Procedure.request
    (procedure : Procedure)
    (op : GattRequest) : Pdu where
  opcode := procedure.reqOpcode
  data := putLe16 op.startHandle ++ putLe16 op.endHandle ++ procedure.type

/-- `discover_chrcs_cb()` and `discover_descs_cb()`. -/
def Procedure.callback
    (procedure : Procedure)
    (op : GattRequest)
    (rsp : Pdu) : Reaction :=
  let pdu := rsp.data
  let length := pdu.length
  if rsp.opcode = btAttOpErrorRsp then
    discoveryOpComplete op false (processError pdu)
  else if rsp.opcode ≠ procedure.rspOpcode ∨ length < procedure.shortest then
    discoveryOpComplete op false 0
  else
    match procedure.dataLength (peek pdu 0) with
    | none => discoveryOpComplete op false 0
    | some dataLength =>
        if (length - 1) % dataLength ≠ 0 then discoveryOpComplete op false 0
        else
          let op := resultAppend rsp.opcode (pdu.drop 1) dataLength op
          let lastHandle := getLe16 (pdu.drop (length - dataLength))
          if lastHandle < op.startHandle then discoveryOpComplete op false 0
          else
            let op := { op with startHandle := (lastHandle + 1) % 65536 }
            if lastHandle ≠ op.endHandle then
              .ask (procedure.request op) op
            else discoveryOpComplete op true 0

/-- `discover_chrcs_cb()`. -/
def discoverChrcs : Procedure where
  reqOpcode := btAttOpReadByTypeReq
  rspOpcode := btAttOpReadByTypeRsp
  shortest := 8
  dataLength first :=
    if first = 7 ∨ first = 21 then some first.toNat else none
  type := putLe16 gattCharacUuid.toNat

/-- `discover_descs_cb()`. -/
def discoverDescs : Procedure where
  reqOpcode := btAttOpFindInfoReq
  rspOpcode := btAttOpFindInfoRsp
  shortest := 5
  dataLength first :=
    if first = 1 then some 4 else if first = 2 then some 18 else none
  type := []

/-- The request of `bt_gatt_discover_characteristics()` and its sibling. -/
def discoverRange
    (start endHandle : Nat) : GattRequest where
  startHandle := start
  endHandle := endHandle
  uuid := none
  serviceType := 0
  results := []

/-! ## The exchange -/

/--
Requests and responses in turn, at most so many; `none` if the server does not
respond or more turns are needed.
-/
def exchange
    (serve : Pdu → Option Pdu)
    (callback : GattRequest → Pdu → Reaction) :
    Nat → Pdu → GattRequest → Option Outcome
  | 0, _, _ => none
  | turns + 1, asked, op =>
      match serve asked with
      | none => none
      | some rsp =>
          match callback op rsp with
          | .ask pdu op => exchange serve callback turns pdu op
          | .complete outcome => some outcome

/-- `bt_gatt_discover_primary_services()` and its sibling, of all services. -/
def discoverServicesOf
    (serve : Pdu → Option Pdu)
    (turns start endHandle : Nat)
    (primary : Bool) : Option Outcome :=
  let op := discoverServices start endHandle primary
  exchange serve Helpers.readByGrpTypeCb turns (readByGrpTypeReq op) op

/-- `bt_gatt_discover_characteristics()`, `bt_gatt_discover_descriptors()`. -/
def Procedure.discover
    (procedure : Procedure)
    (serve : Pdu → Option Pdu)
    (turns start endHandle : Nat) : Option Outcome :=
  let op := discoverRange start endHandle
  exchange serve procedure.callback turns (procedure.request op) op

/-! ## Iterators -/

/-- `struct bt_gatt_iter`: the results from the current one on. -/
structure GattIter where
  results : List GattResult
  pos : Nat

/-- `bt_gatt_iter_init()`. -/
def btGattIterInit
    (results : List GattResult) : GattIter where
  results := results
  pos := 0

/-- The step to the next data set. -/
def GattIter.advance
    (result : GattResult)
    (more : List GattResult)
    (pos : Nat) : GattIter :=
  let pos := pos + result.dataLen
  if pos = result.pdu.length then
    { results := more
      pos := 0 }
  else
    { results := result :: more
      pos := pos }

/-- `bt_gatt_iter_next_service()` after a discovery of all services. -/
def btGattIterNextService
    (iter : GattIter) : Option ((Nat × Nat × Option Uint128) × GattIter) :=
  match iter.results with
  | [] => none
  | result :: more =>
      let pduPtr := result.pdu.drop iter.pos
      if result.opcode ≠ btAttOpReadByGrpTypeRsp then none
      else
        some
          ((getLe16 pduPtr, getLe16 (pduPtr.drop 2),
            convertUuidLe (pduPtr.drop 4) (result.dataLen - 4)),
            .advance result more iter.pos)

/-- `*end_handle` of a characteristic: before the next declaration, if any. -/
def GattIter.characteristicEnd
    (endHandle : Nat)
    (next : GattIter) : Nat :=
  match next.results with
  | [] => endHandle
  | result :: _ => (getLe16 (result.pdu.drop next.pos) + 65535) % 65536

/-- `bt_gatt_iter_next_characteristic()`. -/
def btGattIterNextCharacteristic
    (endHandle : Nat)
    (iter : GattIter) :
    Option ((Nat × Nat × Nat × UInt8 × Option Uint128) × GattIter) :=
  match iter.results with
  | [] => none
  | result :: more =>
      if result.opcode ≠ btAttOpReadByTypeRsp then none
      else if result.dataLen ≠ 21 ∧ result.dataLen ≠ 7 then none
      else
        let pduPtr := result.pdu.drop iter.pos
        let next := GattIter.advance result more iter.pos
        some
          ((getLe16 pduPtr, next.characteristicEnd endHandle,
            getLe16 (pduPtr.drop 3), peek pduPtr 2,
            convertUuidLe (pduPtr.drop 5) (result.dataLen - 5)), next)

/-- `bt_gatt_iter_next_descriptor()`. -/
def btGattIterNextDescriptor
    (iter : GattIter) : Option ((Nat × Option Uint128) × GattIter) :=
  match iter.results with
  | [] => none
  | result :: more =>
      if result.opcode ≠ btAttOpFindInfoRsp then none
      else
        let pduPtr := result.pdu.drop iter.pos
        some
          ((getLe16 pduPtr, convertUuidLe (pduPtr.drop 2) (result.dataLen - 2)),
            .advance result more iter.pos)

/-- What an iterator yields until it returns `false`, in at most so many calls. -/
def iterate
    {β : Type}
    (next : GattIter → Option (β × GattIter)) : Nat → GattIter → List β
  | 0, _ => []
  | calls + 1, iter =>
      match next iter with
      | none => []
      | some (value, iter) => value :: iterate next calls iter

end Slate106.Gatt
