import Slate106.BtUuid

namespace Slate106.Gatt

/-!
# The attribute database

The services of a device and their attributes.  The array `attributes` of a
service is filled from its start; it is a list here, without the null pointers
behind it.  An attribute stands for a pointer to it, and a service is referred
to by the handle of its declaration.
-/

abbrev gattPrimSvcUuid : UInt16 := 0x2800
abbrev gattSndSvcUuid : UInt16 := 0x2801
abbrev gattIncludeUuid : UInt16 := 0x2802
abbrev gattCharacUuid : UInt16 := 0x2803
abbrev gattClientCharacCfgUuid : UInt16 := 0x2902

abbrev btAttPermRead : Nat := 0x01
abbrev btAttPermWrite : Nat := 0x02
abbrev btAttPermReadEncrypt : Nat := 0x04
abbrev btAttPermReadAuthen : Nat := 0x10

abbrev btAttErrorInvalidHandle : Nat := 0x01
abbrev btAttErrorReadNotPermitted : Nat := 0x02
abbrev btAttErrorWriteNotPermitted : Nat := 0x03
abbrev btAttErrorInvalidPdu : Nat := 0x04
abbrev btAttErrorAuthentication : Nat := 0x05
abbrev btAttErrorInvalidOffset : Nat := 0x07
abbrev btAttErrorAttributeNotFound : Nat := 0x0a
abbrev btAttErrorInsufficientEncryptionKeySize : Nat := 0x0c
abbrev btAttErrorUnlikely : Nat := 0x0e
abbrev btAttErrorInsufficientEncryption : Nat := 0x0f
abbrev btAttErrorUnsupportedGroupType : Nat := 0x10

/-- `UINT16_MAX`. -/
abbrev uint16Max : Nat := 65535

/-- `primary_service_uuid`. -/
def primaryServiceUuid : BtUuid :=
  .uuid16 gattPrimSvcUuid

/-- `secondary_service_uuid`. -/
def secondaryServiceUuid : BtUuid :=
  .uuid16 gattSndSvcUuid

/-- `characteristic_uuid`. -/
def characteristicUuid : BtUuid :=
  .uuid16 gattCharacUuid

/-- `included_service_uuid`. -/
def includedServiceUuid : BtUuid :=
  .uuid16 gattIncludeUuid

/--
`struct gatt_db_attribute`; `readFunc` and `writeFunc` tell whether there are
callbacks.
-/
structure Attribute where
  handle : Nat
  uuid : BtUuid
  permissions : Nat
  value : List UInt8
  readFunc : Bool
  writeFunc : Bool
  deriving DecidableEq

/-- `struct gatt_db_service`; `decl` is `attributes[0]`. -/
structure Service where
  active : Bool
  numHandles : Nat
  decl : Attribute
  others : List Attribute
  deriving DecidableEq

/-- `service->attributes`. -/
def Service.attributes
    (service : Service) : List Attribute :=
  service.decl :: service.others

/-- `struct gatt_db`. -/
structure GattDb where
  nextHandle : Nat
  services : List Service
  deriving DecidableEq

/-- `gatt_db_new()`. -/
def gattDbNew : GattDb where
  nextHandle := 1
  services := []

/-- `new_attribute()`, with nothing set by `set_attribute_data()`. -/
def newAttribute
    (handle : Nat)
    (type : BtUuid)
    (val : List UInt8) : Attribute where
  handle := handle
  uuid := type
  permissions := 0
  value := val
  readFunc := false
  writeFunc := false

/-- `set_attribute_data()`. -/
def setAttributeData
    (readFunc writeFunc : Bool)
    (permissions : Nat)
    (attrib : Attribute) : Attribute :=
  { attrib with
    permissions := permissions
    readFunc := readFunc
    writeFunc := writeFunc }

/-! ## Services -/

/-- The start handle of `gatt_db_service_get_handles()`. -/
def Service.startHandle
    (service : Service) : Nat :=
  service.decl.handle

/-- The end handle of `gatt_db_service_get_handles()`. -/
def Service.endHandle
    (service : Service) : Nat :=
  (service.decl.handle + service.numHandles - 1) % 65536

/-- `gatt_db_attribute_get_service_uuid()`; `none` if nothing is stored. -/
def gattDbAttributeGetServiceUuid
    (service : Service) : Option BtUuid :=
  if service.decl.value.length = 2 then
    some (.uuid16 (UInt16.ofNat (getLe16 service.decl.value)))
  else if service.decl.value.length = 16 then
    some (.uuid128 (bswap128 service.decl.value))
  else none

/-- The UUID of a service is the given one. -/
def Service.hasUuid
    (service : Service)
    (uuid : BtUuid) : Bool :=
  match gattDbAttributeGetServiceUuid service with
  | some value => btUuidCmp value uuid
  | none => false

/-- The type of a declaration, as the callers of `find_insert_loc()` choose. -/
def serviceType
    (primary : Bool) : BtUuid :=
  if primary then primaryServiceUuid else secondaryServiceUuid

/-- `gatt_db_service_create()`, with its number of handles. -/
def gattDbServiceCreate
    (uuid : BtUuid)
    (handle : Nat)
    (primary : Bool)
    (numHandles : Nat) : Service where
  active := false
  numHandles := numHandles
  decl :=
    setAttributeData false false btAttPermRead
      (newAttribute handle (serviceType primary) (uuidToLe uuid))
  others := []

/--
`find_insert_loc()`: a service that is in the way, and the number of services
up to `*after`.
-/
def findInsertLoc
    (start endHandle : Nat) : List Service → Nat → Option Service × Nat
  | [], after => (none, after)
  | service :: rest, after =>
      if service.startHandle ≤ start ∧ start ≤ service.endHandle then
        (some service, after)
      else if service.startHandle ≤ endHandle ∧
          endHandle ≤ service.endHandle then
        (some service, after)
      else if endHandle < service.startHandle then (none, after)
      else findInsertLoc start endHandle rest (after + 1)

/-- `queue_push_after()`, or `queue_push_head()` after no entry. -/
def pushAfter
    (services : List Service)
    (after : Nat)
    (service : Service) : List Service :=
  services.take after ++ service :: services.drop after

/-- `if (!handle) handle = db->next_handle;` -/
def GattDb.placeOf
    (db : GattDb)
    (handle : Nat) : Nat :=
  if handle = 0 then db.nextHandle else handle

/--
`gatt_db_insert_service()`: the handle of the service that is returned, if one
is, and the database.
-/
def gattDbInsertService
    (db : GattDb)
    (handle : Nat)
    (uuid : BtUuid)
    (primary : Bool)
    (numHandles : Nat) : Option Nat × GattDb :=
  let handle := db.placeOf handle
  if numHandles < 1 ∨ uint16Max < handle + numHandles - 1 then (none, db)
  else
    match findInsertLoc handle (handle + numHandles - 1) db.services 0 with
    | (some service, _) =>
        if btUuidCmp service.decl.uuid (serviceType primary) ∧
            service.hasUuid uuid ∧ service.numHandles = numHandles ∧
            service.decl.handle = handle then
          (some service.decl.handle, db)
        else (none, db)
    | (none, after) =>
        (some handle,
          { nextHandle := max (handle + numHandles) db.nextHandle % 65536
            services :=
              pushAfter db.services after
                (gattDbServiceCreate uuid handle primary numHandles) })

/-- `gatt_db_add_service()`. -/
def gattDbAddService
    (db : GattDb)
    (uuid : BtUuid)
    (primary : Bool)
    (numHandles : Nat) : Option Nat × GattDb :=
  gattDbInsertService db 0 uuid primary numHandles

/-- `gatt_db_remove_service()` of the service with a start handle. -/
def gattDbRemoveService
    (db : GattDb)
    (start : Nat) : GattDb :=
  { db with
    services := db.services.filter fun service =>
      !decide (service.startHandle = start) }

/-- `match_range()`. -/
def matchRange
    (start endHandle : Nat)
    (service : Service) : Bool :=
  service.startHandle ≤ endHandle ∧ start ≤ service.endHandle

/-- `gatt_db_clear_range()`. -/
def gattDbClearRange
    (db : GattDb)
    (startHandle endHandle : Nat) : GattDb :=
  if endHandle < startHandle then db
  else
    let services :=
      if startHandle = 1 ∧ endHandle = uint16Max then []
      else
        db.services.filter fun service =>
          !matchRange startHandle endHandle service
    { nextHandle := if services = [] then 0 else db.nextHandle
      services := services }

/-- `gatt_db_clear()`. -/
def gattDbClear
    (db : GattDb) : GattDb :=
  gattDbClearRange db 1 uint16Max

/-- `gatt_db_get_service()`. -/
def gattDbGetService
    (db : GattDb)
    (handle : Nat) : Option Service :=
  if handle = 0 then none
  else
    db.services.find? fun service =>
      service.startHandle ≤ handle ∧ handle ≤ service.endHandle

/-- `gatt_db_get_attribute()`. -/
def gattDbGetAttribute
    (db : GattDb)
    (handle : Nat) : Option Attribute :=
  match gattDbGetService db handle with
  | none => none
  | some service =>
      service.attributes.find? fun attrib => attrib.handle = handle

/-! ## Attributes of a service -/

/-- `get_attribute_index()`. -/
def getAttributeIndex
    (service : Service)
    (endOffset : Nat) : Nat :=
  if service.attributes.length < service.numHandles - endOffset then
    service.attributes.length
  else 0

/-- `get_handle_at_index()` of the last attribute that is set. -/
def Service.lastHandle
    (service : Service) : Nat :=
  (service.others.getLastD service.decl).handle

/-- Attributes are put behind those that are set. -/
def Service.append
    (service : Service)
    (attributes : List Attribute) : Service :=
  { service with others := service.others ++ attributes }

/-- The declaration of a characteristic whose value has the given handle. -/
def characteristicDecl
    (handle : Nat)
    (properties : UInt8)
    (uuid : BtUuid) : Attribute :=
  setAttributeData false false btAttPermRead
    (newAttribute (handle - 1) characteristicUuid
      (properties :: putLe16 handle ++ uuidToLe uuid))

/--
`service_insert_characteristic()`: the handle of the value that is returned, if
one is, and the service.
-/
def serviceInsertCharacteristic
    (service : Service)
    (handle : Nat)
    (uuid : BtUuid)
    (permissions : Nat)
    (properties : UInt8)
    (readFunc writeFunc : Bool) : Option Nat × Service :=
  if handle ≠ 0 ∧ handle ≤ service.decl.handle then (none, service)
  else if handle = uint16Max then (none, service)
  else if getAttributeIndex service 1 = 0 then (none, service)
  else
    let handle :=
      if handle = 0 then (service.lastHandle + 2) % 65536 else handle
    (some handle,
      service.append
        [characteristicDecl handle properties uuid,
          setAttributeData readFunc writeFunc permissions
            (newAttribute handle uuid [])])

/-- `service_insert_descriptor()`. -/
def serviceInsertDescriptor
    (service : Service)
    (handle : Nat)
    (uuid : BtUuid)
    (permissions : Nat)
    (readFunc writeFunc : Bool) : Option Nat × Service :=
  if getAttributeIndex service 0 = 0 then (none, service)
  else if handle ≠ 0 ∧ handle ≤ service.decl.handle then (none, service)
  else
    let handle :=
      if handle = 0 then (service.lastHandle + 1) % 65536 else handle
    (some handle,
      service.append
        [setAttributeData readFunc writeFunc permissions
          (newAttribute handle uuid [])])

/-- The value of the declaration of an included service. -/
def includedValue
    (included : Service) : List UInt8 :=
  putLe16 included.decl.handle ++
    putLe16 (included.decl.handle + included.numHandles - 1) ++
    (if included.decl.value.length = 2 then included.decl.value else [])

/-- `service_insert_included()`. -/
def serviceInsertIncluded
    (service : Service)
    (handle : Nat)
    (included : Service) : Option Nat × Service :=
  if getAttributeIndex service 0 = 0 then (none, service)
  else if handle ≠ 0 ∧ handle ≤ service.decl.handle then (none, service)
  else
    let handle :=
      if handle = 0 then (service.lastHandle + 1) % 65536 else handle
    (some handle,
      service.append
        [setAttributeData false false btAttPermRead
          (newAttribute handle includedServiceUuid (includedValue included))])

/-- `gatt_db_service_set_active()`. -/
def gattDbServiceSetActive
    (service : Service)
    (active : Bool) : Service :=
  { service with active := active }

/-- A service of the database is replaced. -/
def GattDb.modify
    (db : GattDb)
    (start : Nat)
    (change : Service → Service) : GattDb :=
  { db with
    services := db.services.map fun service =>
      if service.startHandle = start then change service else service }

/-! ## Walks over the attributes -/

/-- `foreach_service_in_range()`: whether the callback is called. -/
def foreachServiceMatches
    (uuid : Option BtUuid)
    (service : Service) : Bool :=
  match uuid with
  | none => true
  | some uuid => service.hasUuid uuid || btUuidCmp service.decl.uuid uuid

/-- `gatt_db_foreach_service_in_range()`: the services it calls `func` for. -/
def gattDbForeachServiceInRange
    (db : GattDb)
    (uuid : Option BtUuid)
    (startHandle endHandle : Nat) : List Service :=
  if endHandle < startHandle then []
  else
    db.services.filter fun service =>
      service.active &&
        !decide (endHandle < service.startHandle ∨
          service.endHandle < startHandle) &&
        !decide (service.startHandle < startHandle ∨
          endHandle < service.startHandle) &&
        foreachServiceMatches uuid service

/-- The loop of `foreach_in_range()` over the attributes of a service. -/
def foreachAttribute
    (uuid : Option BtUuid)
    (start endHandle : Nat) : List Attribute → List Attribute
  | [] => []
  | attrib :: rest =>
      if attrib.handle < start then
        foreachAttribute uuid start endHandle rest
      else if endHandle < attrib.handle then []
      else if uuid.any fun uuid => !btUuidCmp uuid attrib.uuid then
        foreachAttribute uuid start endHandle rest
      else attrib :: foreachAttribute uuid start endHandle rest

/-- `gatt_db_foreach_in_range()`: the attributes it calls `func` for. -/
def gattDbForeachInRange
    (db : GattDb)
    (uuid : Option BtUuid)
    (startHandle endHandle : Nat) : List Attribute :=
  if endHandle < startHandle then []
  else
    db.services.flatMap fun service =>
      if !service.active then []
      else if endHandle < service.startHandle ∨
          service.endHandle < startHandle then []
      else foreachAttribute uuid startHandle endHandle service.attributes

/-- `gatt_db_read_by_group_type()`. -/
def gattDbReadByGroupType
    (db : GattDb)
    (startHandle endHandle : Nat)
    (type : BtUuid) : List Service :=
  gattDbForeachServiceInRange db (some type) startHandle endHandle

/-- `gatt_db_read_by_type()`. -/
def gattDbReadByType
    (db : GattDb)
    (startHandle endHandle : Nat)
    (type : BtUuid) : List Attribute :=
  gattDbForeachInRange db (some type) startHandle endHandle

/-- `gatt_db_find_information()`. -/
def gattDbFindInformation
    (db : GattDb)
    (startHandle endHandle : Nat) : List Attribute :=
  gattDbForeachInRange db none startHandle endHandle

/--
What `gatt_db_attribute_read()` hands to its callback; `none` when the read is
left to the callback of the attribute.
-/
def gattDbAttributeRead
    (attrib : Attribute)
    (offset : Nat) : Option (Nat × List UInt8) :=
  if attrib.readFunc then none
  else if attrib.value.length < offset then some (btAttErrorInvalidOffset, [])
  else some (0, attrib.value.drop offset)

/--
`gatt_db_attribute_get_char_data()` without the extended properties: the handle
of the declaration and that of the value, the properties and the UUID.
-/
def gattDbAttributeGetCharData
    (attrib : Attribute) : Option (Nat × Nat × UInt8 × BtUuid) :=
  if !btUuidCmp characteristicUuid attrib.uuid then none
  else if attrib.value.length ≠ 5 ∧ attrib.value.length ≠ 19 then none
  else
    (leToUuid (attrib.value.drop 3) (attrib.value.length - 3)).map fun uuid =>
      (attrib.handle, getLe16 (attrib.value.drop 1), CBytes.peek attrib.value 0,
        uuid)

end Slate106.Gatt
