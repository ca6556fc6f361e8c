import Slate106.GattDb

namespace Slate106.Gatt

open CBytes

/-!
# The requests a server answers from its database

The handlers of the three requests by which a client finds out what a server
has.  A response is what is handed to `bt_att_chan_send_rsp()`.
-/

abbrev btAttOpErrorRsp : UInt8 := 0x01
abbrev btAttOpFindInfoReq : UInt8 := 0x04
abbrev btAttOpFindInfoRsp : UInt8 := 0x05
abbrev btAttOpReadByTypeReq : UInt8 := 0x08
abbrev btAttOpReadByTypeRsp : UInt8 := 0x09
abbrev btAttOpReadByGrpTypeReq : UInt8 := 0x10
abbrev btAttOpReadByGrpTypeRsp : UInt8 := 0x11

abbrev btAttDefaultLeMtu : Nat := 23

/-- An ATT PDU: its opcode, and what follows it. -/
structure Pdu where
  opcode : UInt8
  data : List UInt8
  deriving DecidableEq

/--
`struct bt_gatt_server`, and what `bt_att_get_mtu()` and `bt_att_get_security()`
report of its bearer.
-/
structure GattServer where
  db : GattDb
  mtu : Nat
  security : Int
  encSize : Nat
  minEncSize : Nat
  pendingReadOp : Bool

/-- `att_ecode_from_error()`. -/
def attEcodeFromError
    (err : Int) : UInt8 :=
  if 0 < err ∧ err < 255 then UInt8.ofNat err.toNat
  else if err = -2 then UInt8.ofNat btAttErrorInvalidHandle
  else if err = -12 then 0x11
  else if err = -114 then 0xfe
  else if err = -75 then 0xff
  else UInt8.ofNat btAttErrorUnlikely

/-- `bt_att_chan_send_error_rsp()`. -/
def sendErrorRsp
    (opcode : UInt8)
    (handle : Nat)
    (error : Int) : Pdu where
  opcode := btAttOpErrorRsp
  data := opcode :: putLe16 handle ++ [attEcodeFromError error]

/-! ## Read by group type -/

/--
The loop of `encode_read_by_grp_type_rsp()`; `iter` is the length of `pdu`, and
`none` stands for `false`.
-/
def encodeReadByGrpTypeLoop
    (mtu : Nat) : List Service → Nat → List UInt8 → Option (List UInt8)
  | [], _, pdu => some pdu
  | service :: rest, dataValLen, pdu =>
      match gattDbAttributeRead service.decl 0 with
      | some (_, byte :: more) =>
          let value := byte :: more
          let dataValLen :=
            if pdu = [] then min (min (mtu - 6) 251) value.length
            else dataValLen
          if pdu ≠ [] ∧ value.length ≠ dataValLen then some pdu
          else
            let pdu :=
              if pdu = [] then [UInt8.ofNat (dataValLen + 4)] else pdu
            if mtu - 1 < pdu.length + dataValLen + 4 then some pdu
            else
              encodeReadByGrpTypeLoop mtu rest dataValLen
                (pdu ++ putLe16 service.startHandle ++
                  putLe16 service.endHandle ++ value.take dataValLen)
      | _ => none

/-- `encode_read_by_grp_type_rsp()`. -/
def encodeReadByGrpTypeRsp
    (mtu : Nat)
    (q : List Service) : Option (List UInt8) :=
  encodeReadByGrpTypeLoop mtu q 0 []

/-- `read_by_grp_type_cb()` of the server. -/
def Server.readByGrpTypeCb
    (server : GattServer)
    (pdu : List UInt8) : Pdu :=
  let sendError := sendErrorRsp btAttOpReadByGrpTypeReq
  if pdu.length ≠ 6 ∧ pdu.length ≠ 20 then sendError 0 btAttErrorInvalidPdu
  else
    let start := getLe16 pdu
    let endHandle := getLe16 (pdu.drop 2)
    if start = 0 ∨ endHandle = 0 then sendError 0 btAttErrorInvalidHandle
    else if endHandle < start then sendError start btAttErrorInvalidHandle
    else
      match getUuidLe (pdu.drop 4) (pdu.length - 4) with
      | none => sendError start btAttErrorUnsupportedGroupType
      | some type =>
          if !btUuidCmp type primaryServiceUuid ∧
              !btUuidCmp type secondaryServiceUuid then
            sendError start btAttErrorUnsupportedGroupType
          else
            match gattDbReadByGroupType server.db start endHandle type with
            | [] => sendError start btAttErrorAttributeNotFound
            | service :: rest =>
                match encodeReadByGrpTypeRsp server.mtu (service :: rest) with
                | none => sendError start btAttErrorUnlikely
                | some rspPdu =>
                    { opcode := btAttOpReadByGrpTypeRsp
                      data := rspPdu }

/-! ## Read by type -/

/-- `check_min_key_size()`. -/
def checkMinKeySize
    (minSize size : Nat) : Bool :=
  if minSize = 0 ∨ size = 0 then true else minSize ≤ size

/-- What a permission asks of the security of the bearer. -/
def checkSecurity
    (server : GattServer)
    (level : Int)
    (ecode : Nat) : Nat :=
  if server.security < level then ecode
  else if !checkMinKeySize server.minEncSize server.encSize then
    btAttErrorInsufficientEncryptionKeySize
  else 0

/-- `check_permissions()`. -/
def checkPermissions
    (server : GattServer)
    (attr : Attribute)
    (mask : Nat) : Nat :=
  let perm := attr.permissions
  if perm ≠ 0 ∧ mask &&& btAttPermRead ≠ 0 ∧ perm &&& btAttPermRead = 0 then
    btAttErrorReadNotPermitted
  else if perm ≠ 0 ∧ mask &&& btAttPermWrite ≠ 0 ∧
      perm &&& btAttPermWrite = 0 then
    btAttErrorWriteNotPermitted
  else
    let perm := perm &&& mask
    if perm = 0 then 0
    else if server.security < 0 then btAttErrorUnlikely
    else
      let secure :=
        if perm &&& 0x0300 ≠ 0 then
          checkSecurity server 4 btAttErrorAuthentication
        else 0
      let authen :=
        if perm &&& 0x30 ≠ 0 then
          checkSecurity server 3 btAttErrorAuthentication
        else 0
      let encrypt :=
        if perm &&& 0x0c ≠ 0 then
          checkSecurity server 2 btAttErrorInsufficientEncryption
        else 0
      if secure ≠ 0 then secure else if authen ≠ 0 then authen else encrypt

/-- `bt_att_chan_send_rsp()` of `op->pdu`. -/
def sendReadByTypeRsp
    (pdu : List UInt8) : Pdu where
  opcode := btAttOpReadByTypeRsp
  data := pdu

/--
`process_read_by_type()` with `read_by_type_read_complete_cb()`; `none` when a
read is left to the callback of an attribute.
-/
def processReadByType
    (server : GattServer) :
    List Attribute → Bool → Nat → List UInt8 → Option Pdu
  | [], _, _, pdu => some (sendReadByTypeRsp pdu)
  | attr :: rest, done, valueLen, pdu =>
      if done then some (sendReadByTypeRsp pdu)
      else
        let ecode :=
          checkPermissions server attr
            (btAttPermRead ||| btAttPermReadAuthen ||| btAttPermReadEncrypt)
        if ecode ≠ 0 then
          some (sendErrorRsp btAttOpReadByTypeReq attr.handle ecode)
        else
          match gattDbAttributeRead attr 0 with
          | none => none
          | some (err, value) =>
              if err ≠ 0 then
                some (sendErrorRsp btAttOpReadByTypeReq attr.handle err)
              else
                let valueLen :=
                  if pdu = [] then min (min (server.mtu - 4) 253) value.length
                  else valueLen
                if pdu ≠ [] ∧ value.length ≠ valueLen then
                  processReadByType server rest true valueLen pdu
                else
                  let pdu :=
                    if pdu = [] then [UInt8.ofNat (valueLen + 2)] else pdu
                  if server.mtu - 1 < pdu.length + valueLen + 2 then
                    processReadByType server rest true valueLen pdu
                  else
                    let pdu :=
                      pdu ++ putLe16 attr.handle ++ value.take valueLen
                    processReadByType server rest
                      (pdu.length = server.mtu - 1) valueLen pdu

/-- `read_by_type_cb()` of the server. -/
def Server.readByTypeCb
    (server : GattServer)
    (pdu : List UInt8) : Option Pdu :=
  let sendError := sendErrorRsp btAttOpReadByTypeReq
  if pdu.length ≠ 6 ∧ pdu.length ≠ 20 then
    some (sendError 0 btAttErrorInvalidPdu)
  else
    let start := getLe16 pdu
    let endHandle := getLe16 (pdu.drop 2)
    if start = 0 ∨ endHandle = 0 then
      some (sendError 0 btAttErrorInvalidHandle)
    else if endHandle < start then
      some (sendError start btAttErrorInvalidHandle)
    else
      match getUuidLe (pdu.drop 4) (pdu.length - 4) with
      | none => some (sendError start btAttErrorAttributeNotFound)
      | some type =>
          match gattDbReadByType server.db start endHandle type with
          | [] => some (sendError start btAttErrorAttributeNotFound)
          | attr :: rest =>
              if server.pendingReadOp then
                some (sendError start btAttErrorUnlikely)
              else processReadByType server (attr :: rest) false 0 []

/-! ## Find information -/

/-- The loop of `encode_find_info_rsp()`; `iter` is the length of `pdu`. -/
def encodeFindInfoLoop
    (mtu : Nat) : List Attribute → Nat → List UInt8 → Option (List UInt8)
  | [], _, pdu => some pdu
  | attr :: rest, uuidLen, pdu =>
      if attr.handle = 0 then none
      else
        let curUuidLen := btUuidLen attr.uuid
        let uuidLen :=
          if pdu = [] then (if curUuidLen = 2 then 2 else 16) else uuidLen
        if pdu ≠ [] ∧ curUuidLen ≠ uuidLen then some pdu
        else
          let pdu :=
            if pdu = [] then [if curUuidLen = 2 then 0x01 else 0x02] else pdu
          if mtu - 1 < pdu.length + uuidLen + 2 then some pdu
          else
            encodeFindInfoLoop mtu rest uuidLen
              (pdu ++ putLe16 attr.handle ++ btUuidToLe attr.uuid)

/-- `encode_find_info_rsp()`. -/
def encodeFindInfoRsp
    (mtu : Nat)
    (q : List Attribute) : Option (List UInt8) :=
  encodeFindInfoLoop mtu q 0 []

/-- `find_info_cb()`. -/
def Server.findInfoCb
    (server : GattServer)
    (pdu : List UInt8) : Pdu :=
  let sendError := sendErrorRsp btAttOpFindInfoReq
  if pdu.length ≠ 4 then sendError 0 btAttErrorInvalidPdu
  else
    let start := getLe16 pdu
    let endHandle := getLe16 (pdu.drop 2)
    if start = 0 ∨ endHandle = 0 then sendError 0 btAttErrorInvalidHandle
    else if endHandle < start then sendError start btAttErrorInvalidHandle
    else
      match gattDbFindInformation server.db start endHandle with
      | [] => sendError start btAttErrorAttributeNotFound
      | attr :: rest =>
          match encodeFindInfoRsp server.mtu (attr :: rest) with
          | none => sendError start btAttErrorUnlikely
          | some rspPdu =>
              { opcode := btAttOpFindInfoRsp
                data := rspPdu }

/-- The handlers that `gatt_server_register_att_handlers()` registers. -/
def Server.serve
    (server : GattServer)
    (asked : Pdu) : Option Pdu :=
  if asked.opcode = btAttOpReadByGrpTypeReq then
    some (Server.readByGrpTypeCb server asked.data)
  else if asked.opcode = btAttOpReadByTypeReq then
    Server.readByTypeCb server asked.data
  else if asked.opcode = btAttOpFindInfoReq then
    some (Server.findInfoCb server asked.data)
  else none

end Slate106.Gatt
