import Slate106.GattDb
import Slate106.RangeScan

namespace Slate106.Gatt

/-!
# The database in order

Services lie one behind the other, and so do their attributes, as long as every
insertion keeps to the order; then a handle denotes one attribute.
-/

/-! ## Order -/

/-- The UUID of a service is not one of those for declarations. -/
structure Usable
    (uuid : BtUuid) : Prop where
  noPrimary : btUuidCmp uuid primaryServiceUuid = false
  noSecondary : btUuidCmp uuid secondaryServiceUuid = false

/-- An attribute with the type of a characteristic declares one. -/
def Described
    (attrib : Attribute) : Prop :=
  btUuidCmp characteristicUuid attrib.uuid = true →
    ∃ properties uuid,
      attrib = characteristicDecl (attrib.handle + 1) properties uuid

/-- A service whose attributes are in order. -/
structure Service.Proper
    (service : Service) : Prop where
  declared : ∃ primary, service.decl.uuid = serviceType primary
  stored : service.decl.readFunc = false
  named : ∃ uuid, Usable uuid ∧ service.decl.value = uuidToLe uuid
  bounded : service.decl.handle + service.numHandles ≤ 65536
  room : service.attributes.length ≤ service.numHandles
  ascending :
    service.attributes.Pairwise fun before after => before.handle < after.handle
  inside :
    ∀ attrib ∈ service.attributes,
      attrib.handle < service.decl.handle + service.numHandles
  described : ∀ attrib ∈ service.others, Described attrib

/-- The services lie one behind the other. -/
def Apart
    (services : List Service) : Prop :=
  services.Pairwise fun before after => before.endHandle < after.startHandle

/-- A database whose services and attributes are in order. -/
structure GattDb.Ordered
    (db : GattDb) : Prop where
  proper : ∀ service ∈ db.services, service.Proper
  apart : Apart db.services

variable {db : GattDb}
variable {service : Service}

theorem Service.Proper.nonempty
    (proper : service.Proper) :
    1 ≤ service.numHandles :=
  Nat.le_trans (Nat.succ_le_succ (Nat.zero_le _)) proper.room

/-- The end of a service, without the truncation. -/
theorem Service.Proper.endHandle
    (proper : service.Proper) :
    service.endHandle = service.startHandle + service.numHandles - 1 := by
  have bounded := proper.bounded
  have nonempty := proper.nonempty
  unfold Service.endHandle Service.startHandle
  exact Nat.mod_eq_of_lt (by omega)

theorem Service.Proper.startHandle_le
    (proper : service.Proper) :
    service.startHandle ≤ service.endHandle := by
  have nonempty := proper.nonempty
  rw [proper.endHandle]
  omega

theorem Service.Proper.endHandle_le
    (proper : service.Proper) :
    service.endHandle ≤ 65535 := by
  have bounded := proper.bounded
  rw [proper.endHandle]
  unfold Service.startHandle
  omega

/-- The attributes of a service have its handles. -/
theorem Service.Proper.within
    (proper : service.Proper)
    {attrib : Attribute}
    (member : attrib ∈ service.attributes) :
    service.startHandle ≤ attrib.handle ∧
      attrib.handle ≤ service.endHandle := by
  have inside := proper.inside attrib member
  have nonempty := proper.nonempty
  rw [proper.endHandle]
  unfold Service.startHandle
  refine ⟨?_, by omega⟩
  rcases List.mem_cons.mp member with rfl | other
  · exact Nat.le_refl _
  · exact Nat.le_of_lt
      ((List.pairwise_cons.mp proper.ascending).1 attrib other)

/-! ## Insertion of a service -/

/-- No service begins behind the start of a range and ends before its end. -/
def EnclosesNone
    (services : List Service)
    (start endHandle : Nat) : Prop :=
  ∀ service ∈ services,
    ¬(start < service.startHandle ∧ service.endHandle < endHandle)

/--
The services up to the place that is found end before the range, and those
behind it begin after the range, unless one lies inside the range.
-/
theorem findInsertLoc_apart
    {services : List Service}
    {start endHandle place : Nat}
    (apart : Apart services)
    (proper : ∀ service ∈ services, service.startHandle ≤ service.endHandle)
    (free : EnclosesNone services start endHandle)
    (passed : Nat)
    (found : findInsertLoc start endHandle services passed = (none, place)) :
    ∃ before after, services = before ++ after ∧
      place = passed + before.length ∧
      (∀ service ∈ before, service.endHandle < start) ∧
      ∀ service ∈ after, endHandle < service.startHandle := by
  induction services generalizing passed with
  | nil =>
      obtain rfl : passed = place := (Prod.mk.inj found).2
      exact ⟨[], [], rfl, rfl, by simp, by simp⟩
  | cons first rest inductionHypothesis =>
      have firstProper := proper first List.mem_cons_self
      have firstFree := free first List.mem_cons_self
      have behind := List.pairwise_cons.mp apart
      unfold findInsertLoc at found
      split at found
      · exact absurd (Prod.mk.inj found).1 (Option.some_ne_none _)
      · next notStart =>
          split at found
          · exact absurd (Prod.mk.inj found).1 (Option.some_ne_none _)
          · next notEnd =>
              split at found
              · next early =>
                  obtain rfl : passed = place := (Prod.mk.inj found).2
                  refine ⟨[], first :: rest, rfl, rfl, by simp, ?_⟩
                  intro service member
                  rcases List.mem_cons.mp member with rfl | later
                  · exact early
                  · have gap := behind.1 service later
                    omega
              · next late =>
                  obtain ⟨before, after, shape, counted, ends, begins⟩ :=
                    inductionHypothesis behind.2
                      (fun service member =>
                        proper service (List.mem_cons_of_mem _ member))
                      (fun service member =>
                        free service (List.mem_cons_of_mem _ member))
                      (passed + 1) found
                  refine ⟨first :: before, after, by rw [shape]; rfl,
                    by rw [counted, List.length_cons]; omega, ?_, begins⟩
                  intro service member
                  rcases List.mem_cons.mp member with rfl | later
                  · omega
                  · exact ends service later

/-- What is inserted at a place is one of the services. -/
theorem mem_pushAfter
    {services : List Service}
    {after : Nat}
    {service other : Service} :
    other ∈ pushAfter services after service ↔
      other = service ∨ other ∈ services := by
  unfold pushAfter
  rw [List.mem_append, List.mem_cons]
  have split : other ∈ services ↔
      other ∈ services.take after ∨ other ∈ services.drop after := by
    rw [← List.mem_append, List.take_append_drop]
  rw [split]
  tauto

theorem pushAfter_apart
    {before after : List Service}
    {service : Service}
    (apart : Apart (before ++ after))
    (ends : ∀ other ∈ before, other.endHandle < service.startHandle)
    (begins : ∀ other ∈ after, service.endHandle < other.startHandle) :
    Apart (pushAfter (before ++ after) (0 + before.length) service) := by
  obtain ⟨front, back, across⟩ := List.pairwise_append.mp apart
  unfold pushAfter Apart
  rw [Nat.zero_add, List.take_left, List.drop_left]
  refine List.pairwise_append.mpr
    ⟨front, List.pairwise_cons.mpr ⟨begins, back⟩, ?_⟩
  intro other member next later
  rcases List.mem_cons.mp later with rfl | behind
  · exact ends other member
  · exact across other member next behind

/-- The outcomes of `gatt_db_insert_service()`. -/
inductive Inserted
    (db : GattDb)
    (handle : Nat)
    (uuid : BtUuid)
    (primary : Bool)
    (numHandles : Nat) : Option Nat × GattDb → Prop
  | kept
      (result : Option Nat) :
      Inserted db handle uuid primary numHandles (result, db)
  | created
      (place : Nat)
      (nonempty : 1 ≤ numHandles)
      (bounded : db.placeOf handle + numHandles ≤ 65536)
      (found :
        findInsertLoc (db.placeOf handle) (db.placeOf handle + numHandles - 1)
          db.services 0 = (none, place)) :
      Inserted db handle uuid primary numHandles
        (some (db.placeOf handle),
          { nextHandle := max (db.placeOf handle + numHandles) db.nextHandle %
              65536
            services :=
              pushAfter db.services place
                (gattDbServiceCreate uuid (db.placeOf handle) primary
                  numHandles) })

theorem gattDbInsertService_inserted
    (db : GattDb)
    (handle : Nat)
    (uuid : BtUuid)
    (primary : Bool)
    (numHandles : Nat) :
    Inserted db handle uuid primary numHandles
      (gattDbInsertService db handle uuid primary numHandles) := by
  have limit : uint16Max = 65535 := rfl
  unfold gattDbInsertService
  simp only
  split
  · exact .kept none
  · next room =>
      split
      · split
        · exact .kept _
        · exact .kept none
      · next place found =>
          exact .created place (by omega) (by omega) found

/-- The service that is created has its range. -/
theorem gattDbServiceCreate_endHandle
    {uuid : BtUuid}
    {handle numHandles : Nat}
    {primary : Bool}
    (bounded : handle + numHandles ≤ 65536) :
    (gattDbServiceCreate uuid handle primary numHandles).endHandle =
      handle + numHandles - 1 :=
  Nat.mod_eq_of_lt (by
    show handle + numHandles - 1 < 65536
    omega)

theorem gattDbServiceCreate_proper
    {uuid : BtUuid}
    {handle numHandles : Nat}
    {primary : Bool}
    (usable : Usable uuid)
    (nonempty : 1 ≤ numHandles)
    (bounded : handle + numHandles ≤ 65536) :
    (gattDbServiceCreate uuid handle primary numHandles).Proper where
  declared := ⟨primary, rfl⟩
  stored := rfl
  named := ⟨uuid, usable, rfl⟩
  bounded := bounded
  room := nonempty
  ascending := List.pairwise_singleton _ _
  inside attrib member := by
    obtain rfl := List.mem_singleton.mp member
    show handle < handle + numHandles
    omega
  described attrib member := absurd member List.not_mem_nil

/-- Services stay apart when one is inserted, unless it encloses another. -/
theorem gattDbInsertService_apart
    (ordered : db.Ordered)
    {handle numHandles : Nat}
    {uuid : BtUuid}
    {primary : Bool}
    (free :
      EnclosesNone db.services (db.placeOf handle)
        (db.placeOf handle + numHandles - 1)) :
    Apart (gattDbInsertService db handle uuid primary numHandles).2.services := by
  have cases :=
    gattDbInsertService_inserted db handle uuid primary numHandles
  generalize gattDbInsertService db handle uuid primary numHandles = result
    at cases
  cases cases with
  | kept result =>
      exact ordered.apart
  | created place nonempty bounded found =>
      obtain ⟨before, after, shape, rfl, ends, begins⟩ :=
        findInsertLoc_apart ordered.apart
          (fun service member => (ordered.proper service member).startHandle_le)
          free 0 found
      show Apart (pushAfter db.services _ _)
      have apart := ordered.apart
      rw [shape] at apart ⊢
      refine pushAfter_apart apart ends ?_
      rw [gattDbServiceCreate_endHandle bounded]
      exact begins

theorem gattDbInsertService_ordered
    (ordered : db.Ordered)
    {handle numHandles : Nat}
    {uuid : BtUuid}
    {primary : Bool}
    (usable : Usable uuid)
    (free :
      EnclosesNone db.services (db.placeOf handle)
        (db.placeOf handle + numHandles - 1)) :
    (gattDbInsertService db handle uuid primary numHandles).2.Ordered where
  proper := by
    have cases :=
      gattDbInsertService_inserted db handle uuid primary numHandles
    generalize gattDbInsertService db handle uuid primary numHandles = result
      at cases
    cases cases with
    | kept result =>
        exact ordered.proper
    | created place nonempty bounded found =>
        intro service member
        rcases mem_pushAfter.mp member with rfl | old
        · exact gattDbServiceCreate_proper usable nonempty bounded
        · exact ordered.proper service old
  apart := gattDbInsertService_apart ordered free

/-! ## Removal -/

theorem gattDbRemoveService_ordered
    (ordered : db.Ordered)
    (start : Nat) :
    (gattDbRemoveService db start).Ordered where
  proper service member :=
    ordered.proper service (List.mem_of_mem_filter member)
  apart := ordered.apart.sublist List.filter_sublist

theorem gattDbClearRange_ordered
    (ordered : db.Ordered)
    (startHandle endHandle : Nat) :
    (gattDbClearRange db startHandle endHandle).Ordered := by
  have fewer :
      (gattDbClearRange db startHandle endHandle).services.Sublist
        db.services := by
    unfold gattDbClearRange
    simp only
    split
    · exact List.Sublist.refl _
    · split
      · exact List.nil_sublist _
      · exact List.filter_sublist
  exact
    { proper := fun service member =>
        ordered.proper service (fewer.subset member)
      apart := ordered.apart.sublist fewer }

/-! ## Attributes -/

/-- The last attribute that is set is behind all others. -/
theorem Service.Proper.lastHandle
    (proper : service.Proper)
    {attrib : Attribute}
    (member : attrib ∈ service.attributes) :
    attrib.handle ≤ service.lastHandle := by
  have ascending := proper.ascending
  unfold Service.lastHandle
  unfold Service.attributes at member ascending
  rcases List.eq_nil_or_concat service.others with none | ⟨front, last, shape⟩
  · rw [none] at member ⊢
    obtain rfl := List.mem_singleton.mp member
    exact Nat.le_refl _
  · rw [shape] at member ascending ⊢
    rw [List.concat_eq_append, ← List.cons_append] at member ascending
    rw [List.concat_eq_append, List.getLastD_concat]
    rcases List.mem_append.mp member with before | here
    · exact Nat.le_of_lt ((List.pairwise_append.mp ascending).2.2 attrib before
        last (List.mem_singleton_self last))
    · obtain rfl := List.mem_singleton.mp here
      exact Nat.le_refl _

/-- The handle of an attribute that is put behind the last one. -/
def Service.handleFor
    (service : Service)
    (gap handle : Nat) : Nat :=
  if handle = 0 then service.lastHandle + gap else handle

/-- A handle some places behind the last attribute, and in the service. -/
def Service.InPlace
    (service : Service)
    (gap handle : Nat) : Prop :=
  service.lastHandle + gap ≤ service.handleFor gap handle ∧
    service.handleFor gap handle ≤ service.endHandle

/-- Attributes that are put behind the last one keep the service in order. -/
theorem Service.Proper.append
    (proper : service.Proper)
    {attributes : List Attribute}
    (room : service.attributes.length + attributes.length ≤ service.numHandles)
    (ascending :
      attributes.Pairwise fun before after => before.handle < after.handle)
    (behind : ∀ attrib ∈ attributes, service.lastHandle < attrib.handle)
    (inside : ∀ attrib ∈ attributes, attrib.handle ≤ service.endHandle)
    (described : ∀ attrib ∈ attributes, Described attrib) :
    (service.append attributes).Proper where
  declared := proper.declared
  stored := proper.stored
  named := proper.named
  bounded := proper.bounded
  room := by
    show (service.decl :: (service.others ++ attributes)).length ≤ _
    rw [← List.cons_append, List.length_append]
    exact room
  ascending := by
    show (service.decl :: (service.others ++ attributes)).Pairwise _
    rw [← List.cons_append]
    refine List.pairwise_append.mpr ⟨proper.ascending, ascending, ?_⟩
    intro before member after later
    have last := proper.lastHandle member
    have gap := behind after later
    omega
  inside attrib member := by
    have shape : attrib ∈ (service.decl :: service.others) ++ attributes :=
      member
    rcases List.mem_append.mp shape with old | new
    · exact proper.inside attrib old
    · have within := inside attrib new
      have nonempty := proper.nonempty
      rw [proper.endHandle] at within
      show attrib.handle < service.startHandle + service.numHandles
      omega
  described attrib member := by
    rcases List.mem_append.mp member with old | new
    · exact proper.described attrib old
    · exact described attrib new

theorem Service.Proper.setActive
    (proper : service.Proper)
    (active : Bool) :
    (gattDbServiceSetActive service active).Proper :=
  { proper with }

/-- A place in the service that `get_attribute_index()` finds. -/
theorem length_lt_of_getAttributeIndex
    {endOffset : Nat}
    (found : getAttributeIndex service endOffset ≠ 0) :
    service.attributes.length + endOffset < service.numHandles := by
  unfold getAttributeIndex at found
  split at found
  · omega
  · exact absurd rfl found

/-- A handle that is in place is not truncated. -/
theorem Service.Proper.placed
    (proper : service.Proper)
    {gap handle : Nat}
    (place : service.InPlace gap handle) :
    (if handle = 0 then (service.lastHandle + gap) % 65536 else handle) =
      service.handleFor gap handle := by
  obtain ⟨-, bounded⟩ := place
  have limit := proper.endHandle_le
  unfold Service.handleFor at bounded ⊢
  split at bounded
  · next zero =>
      rw [if_pos zero, if_pos zero]
      exact Nat.mod_eq_of_lt (by omega)
  · next given =>
      rw [if_neg given, if_neg given]

theorem serviceInsertCharacteristic_proper
    (proper : service.Proper)
    {handle permissions : Nat}
    {uuid : BtUuid}
    {properties : UInt8}
    {readFunc writeFunc : Bool}
    (place : service.InPlace 2 handle)
    (value : btUuidCmp characteristicUuid uuid = false) :
    (serviceInsertCharacteristic service handle uuid permissions properties
      readFunc writeFunc).2.Proper := by
  unfold serviceInsertCharacteristic
  split
  · exact proper
  · split
    · exact proper
    · split
      · exact proper
      · next found =>
          have room := length_lt_of_getAttributeIndex found
          simp only [proper.placed place]
          obtain ⟨behind, inside⟩ := place
          generalize service.handleFor 2 handle = h at behind inside
          refine proper.append (by simp; omega) ?_ ?_ ?_ ?_
          · refine List.pairwise_pair.mpr ?_
            show h - 1 < h
            omega
          · intro attrib member
            rcases List.mem_pair.mp member with rfl | rfl
            · show service.lastHandle < h - 1
              omega
            · show service.lastHandle < h
              omega
          · intro attrib member
            rcases List.mem_pair.mp member with rfl | rfl
            · show h - 1 ≤ service.endHandle
              omega
            · exact inside
          · intro attrib member type
            rcases List.mem_pair.mp member with rfl | rfl
            · refine ⟨properties, uuid, ?_⟩
              have same : h - 1 + 1 = h := by omega
              show _ = characteristicDecl (h - 1 + 1) properties uuid
              rw [same]
            · exact absurd type (by
                show ¬btUuidCmp characteristicUuid uuid = true
                rw [value]
                exact Bool.false_ne_true)

/-- One attribute that is no characteristic is put behind the last one. -/
theorem Service.Proper.appendOne
    (proper : service.Proper)
    {handle : Nat}
    {attrib : Attribute}
    (found : getAttributeIndex service 0 ≠ 0)
    (place : service.InPlace 1 handle)
    (here : attrib.handle = service.handleFor 1 handle)
    (value : btUuidCmp characteristicUuid attrib.uuid = false) :
    (service.append [attrib]).Proper := by
  have room := length_lt_of_getAttributeIndex found
  obtain ⟨behind, inside⟩ := place
  rw [← here] at behind inside
  refine proper.append (by simp; omega) (List.pairwise_singleton _ _) ?_ ?_ ?_
  · intro other member
    obtain rfl := List.mem_singleton.mp member
    omega
  · intro other member
    obtain rfl := List.mem_singleton.mp member
    exact inside
  · intro other member type
    obtain rfl := List.mem_singleton.mp member
    rw [value] at type
    exact absurd type Bool.false_ne_true

theorem serviceInsertDescriptor_proper
    (proper : service.Proper)
    {handle permissions : Nat}
    {uuid : BtUuid}
    {readFunc writeFunc : Bool}
    (place : service.InPlace 1 handle)
    (value : btUuidCmp characteristicUuid uuid = false) :
    (serviceInsertDescriptor service handle uuid permissions readFunc
      writeFunc).2.Proper := by
  unfold serviceInsertDescriptor
  split
  · exact proper
  · next found =>
      split
      · exact proper
      · exact proper.appendOne found place (proper.placed place) value

theorem serviceInsertIncluded_proper
    (proper : service.Proper)
    {handle : Nat}
    {included : Service}
    (place : service.InPlace 1 handle) :
    (serviceInsertIncluded service handle included).2.Proper := by
  unfold serviceInsertIncluded
  split
  · exact proper
  · next found =>
      split
      · exact proper
      · exact proper.appendOne found place (proper.placed place)
          (show btUuidCmp characteristicUuid includedServiceUuid = false by
            decide)

/-! ## Runs -/

/-- A call that changes a database; a service is given by its start handle. -/
inductive DbOp where
  | insertService
      (handle : Nat)
      (uuid : BtUuid)
      (primary : Bool)
      (numHandles : Nat)
  | removeService (service : Nat)
  | clearRange (startHandle endHandle : Nat)
  | insertCharacteristic
      (service handle : Nat)
      (uuid : BtUuid)
      (permissions : Nat)
      (properties : UInt8)
      (readFunc writeFunc : Bool)
  | insertDescriptor
      (service handle : Nat)
      (uuid : BtUuid)
      (permissions : Nat)
      (readFunc writeFunc : Bool)
  | insertIncluded (service handle included : Nat)
  | setActive (service : Nat) (active : Bool)

/-- The database after a call. -/
def DbOp.perform
    (db : GattDb) : DbOp → GattDb
  | .insertService handle uuid primary numHandles =>
      (gattDbInsertService db handle uuid primary numHandles).2
  | .removeService service => gattDbRemoveService db service
  | .clearRange startHandle endHandle =>
      gattDbClearRange db startHandle endHandle
  | .insertCharacteristic service handle uuid permissions properties readFunc
      writeFunc =>
      db.modify service fun service =>
        (serviceInsertCharacteristic service handle uuid permissions properties
          readFunc writeFunc).2
  | .insertDescriptor service handle uuid permissions readFunc writeFunc =>
      db.modify service fun service =>
        (serviceInsertDescriptor service handle uuid permissions readFunc
          writeFunc).2
  | .insertIncluded service handle included =>
      match db.services.find? fun other => other.startHandle = included with
      | none => db
      | some included =>
          db.modify service fun service =>
            (serviceInsertIncluded service handle included).2
  | .setActive service active =>
      db.modify service fun service => gattDbServiceSetActive service active

/-- An attribute of a service goes behind those that it has. -/
def GattDb.InPlace
    (db : GattDb)
    (start gap handle : Nat) : Prop :=
  ∀ service ∈ db.services,
    service.startHandle = start → service.InPlace gap handle

/--
A call that keeps to the order: a new service encloses none, and a new
attribute goes behind those of its service.
-/
def DbOp.Orderly
    (db : GattDb) : DbOp → Prop
  | .insertService handle uuid _ numHandles =>
      Usable uuid ∧
        EnclosesNone db.services (db.placeOf handle)
          (db.placeOf handle + numHandles - 1)
  | .removeService _ | .clearRange _ _ | .setActive _ _ => True
  | .insertCharacteristic service handle uuid _ _ _ _ =>
      db.InPlace service 2 handle ∧ btUuidCmp characteristicUuid uuid = false
  | .insertDescriptor service handle uuid _ _ _ =>
      db.InPlace service 1 handle ∧ btUuidCmp characteristicUuid uuid = false
  | .insertIncluded service handle _ => db.InPlace service 1 handle

/-- The databases that calls lead to, orderly ones or without effect. -/
inductive DbRun
    (first : GattDb) : GattDb → Prop
  | refl : DbRun first first
  | tail
      {db : GattDb}
      (run : DbRun first db)
      (op : DbOp)
      (orderly : op.perform db = db ∨ op.Orderly db) :
      DbRun first (op.perform db)

/-- A change that leaves the range of a service alone. -/
structure KeepsRange
    (change : Service → Service) : Prop where
  startHandle : ∀ service, (change service).startHandle = service.startHandle
  endHandle : ∀ service, (change service).endHandle = service.endHandle

theorem GattDb.Ordered.modify
    (ordered : db.Ordered)
    {start : Nat}
    {change : Service → Service}
    (keeps : KeepsRange change)
    (proper :
      ∀ service ∈ db.services,
        service.startHandle = start → (change service).Proper) :
    (db.modify start change).Ordered where
  proper service member := by
    obtain ⟨old, known, rfl⟩ := List.mem_map.mp member
    split
    · next here =>
        exact proper old known here
    · exact ordered.proper old known
  apart := by
    refine List.pairwise_map.mpr (ordered.apart.imp ?_)
    intro before after gap
    have beforeEnd : (if before.startHandle = start then change before
        else before).endHandle = before.endHandle := by
      split
      · exact keeps.endHandle before
      · rfl
    have afterStart : (if after.startHandle = start then change after
        else after).startHandle = after.startHandle := by
      split
      · exact keeps.startHandle after
      · rfl
    rw [beforeEnd, afterStart]
    exact gap

theorem serviceInsertCharacteristic_keepsRange
    (handle : Nat)
    (uuid : BtUuid)
    (permissions : Nat)
    (properties : UInt8)
    (readFunc writeFunc : Bool) :
    KeepsRange fun service =>
      (serviceInsertCharacteristic service handle uuid permissions properties
        readFunc writeFunc).2 := by
  constructor <;> intro service <;> unfold serviceInsertCharacteristic <;>
    split_ifs <;> rfl

theorem serviceInsertDescriptor_keepsRange
    (handle : Nat)
    (uuid : BtUuid)
    (permissions : Nat)
    (readFunc writeFunc : Bool) :
    KeepsRange fun service =>
      (serviceInsertDescriptor service handle uuid permissions readFunc
        writeFunc).2 := by
  constructor <;> intro service <;> unfold serviceInsertDescriptor <;>
    split_ifs <;> rfl

theorem serviceInsertIncluded_keepsRange
    (handle : Nat)
    (included : Service) :
    KeepsRange fun service =>
      (serviceInsertIncluded service handle included).2 := by
  constructor <;> intro service <;> unfold serviceInsertIncluded <;>
    split_ifs <;> rfl

theorem DbOp.Orderly.ordered
    {op : DbOp}
    (orderly : op.Orderly db)
    (ordered : db.Ordered) :
    (op.perform db).Ordered := by
  cases op with
  | insertService handle uuid primary numHandles =>
      exact gattDbInsertService_ordered ordered orderly.1 orderly.2
  | removeService service =>
      exact gattDbRemoveService_ordered ordered service
  | clearRange startHandle endHandle =>
      exact gattDbClearRange_ordered ordered startHandle endHandle
  | insertCharacteristic service handle uuid permissions properties readFunc
      writeFunc =>
      refine ordered.modify
        (serviceInsertCharacteristic_keepsRange _ _ _ _ _ _) ?_
      intro other member here
      exact serviceInsertCharacteristic_proper (ordered.proper other member)
        (orderly.1 other member here) orderly.2
  | insertDescriptor service handle uuid permissions readFunc writeFunc =>
      refine ordered.modify (serviceInsertDescriptor_keepsRange _ _ _ _ _) ?_
      intro other member here
      exact serviceInsertDescriptor_proper (ordered.proper other member)
        (orderly.1 other member here) orderly.2
  | insertIncluded service handle included =>
      simp only [DbOp.perform]
      split
      · exact ordered
      · refine ordered.modify (serviceInsertIncluded_keepsRange _ _) ?_
        intro other member here
        exact serviceInsertIncluded_proper (ordered.proper other member)
          (orderly other member here)
  | setActive service active =>
      refine ordered.modify ⟨fun _ => rfl, fun _ => rfl⟩ ?_
      intro other member _
      exact (ordered.proper other member).setActive active

theorem gattDbNew_ordered :
    gattDbNew.Ordered where
  proper _ member := absurd member List.not_mem_nil
  apart := List.Pairwise.nil

theorem DbRun.ordered
    {first : GattDb}
    (run : DbRun first db)
    (ordered : first.Ordered) :
    db.Ordered := by
  induction run with
  | refl =>
      exact ordered
  | tail run op orderly inductionHypothesis =>
      rcases orderly with same | orderly
      · rw [same]
        exact inductionHypothesis
      · exact orderly.ordered inductionHypothesis

/--
`gatt_db_insert_service()` keeps the services apart exactly when it leaves the
database alone or none of them lies inside the new range.
-/
theorem gattDbInsertService_apart_iff
    (ordered : db.Ordered)
    (handle : Nat)
    (uuid : BtUuid)
    (primary : Bool)
    (numHandles : Nat) :
    Apart (gattDbInsertService db handle uuid primary numHandles).2.services ↔
      (gattDbInsertService db handle uuid primary numHandles).2 = db ∨
        EnclosesNone db.services (db.placeOf handle)
          (db.placeOf handle + numHandles - 1) := by
  constructor
  · intro apart
    have cases :=
      gattDbInsertService_inserted db handle uuid primary numHandles
    generalize gattDbInsertService db handle uuid primary numHandles = result
      at cases apart
    cases cases with
    | kept result =>
        exact .inl rfl
    | created place nonempty bounded found =>
        refine .inr fun service member enclosed => ?_
        have proper := (ordered.proper service member).startHandle_le
        have ends := @gattDbServiceCreate_endHandle uuid _ _ primary bounded
        have split : service ∈ db.services.take place ∨
            service ∈ db.services.drop place := by
          rw [← List.mem_append, List.take_append_drop]
          exact member
        obtain ⟨-, behind, across⟩ := List.pairwise_append.mp apart
        rcases split with before | after
        · have gap := across service before _ List.mem_cons_self
          have starts : (gattDbServiceCreate uuid (db.placeOf handle) primary
              numHandles).startHandle = db.placeOf handle := rfl
          omega
        · have gap := (List.pairwise_cons.mp behind).1 service after
          omega
  · rintro (same | free)
    · rw [same]
      exact ordered.apart
    · exact gattDbInsertService_apart ordered free

/-- A service that would enclose one is inserted all the same. -/
theorem gattDbInsertService_apart_iff_enclosing :
    let db := (gattDbInsertService gattDbNew 5 (.uuid16 0x1800) true 2).2
    Apart (gattDbInsertService db 3 (.uuid16 0x1801) true 8).2.services ↔
      (gattDbInsertService db 3 (.uuid16 0x1801) true 8).2 = db ∨
        EnclosesNone db.services (db.placeOf 3) (db.placeOf 3 + 8 - 1) :=
  gattDbInsertService_apart_iff
    (gattDbInsertService_ordered gattDbNew_ordered
      ⟨by decide, by decide⟩ fun _ member => absurd member List.not_mem_nil)
    3 (.uuid16 0x1801) true 8

/-! ## Handles -/

/-- A handle lies in one service at most. -/
theorem GattDb.Ordered.service_unique
    (ordered : db.Ordered)
    {one other : Service}
    (here : one ∈ db.services)
    (there : other ∈ db.services)
    {handle : Nat}
    (inOne : one.startHandle ≤ handle ∧ handle ≤ one.endHandle)
    (inOther : other.startHandle ≤ handle ∧ handle ≤ other.endHandle) :
    one = other := by
  by_contra different
  obtain ⟨front, back, shape⟩ := List.mem_iff_append.mp here
  have apart := ordered.apart
  rw [shape] at apart there
  obtain ⟨-, behind, across⟩ := List.pairwise_append.mp apart
  rcases List.mem_append.mp there with before | after
  · have gap := across other before one List.mem_cons_self
    omega
  · rcases List.mem_cons.mp after with rfl | later
    · exact different rfl
    · have gap := (List.pairwise_cons.mp behind).1 other later
      omega

/-- The service of a handle is found. -/
theorem GattDb.Ordered.gattDbGetService
    (ordered : db.Ordered)
    {handle : Nat}
    (valid : handle ≠ 0)
    (member : service ∈ db.services)
    (inside : service.startHandle ≤ handle ∧ handle ≤ service.endHandle) :
    gattDbGetService db handle = some service := by
  unfold Gatt.gattDbGetService
  rw [if_neg valid]
  cases found : db.services.find? fun other =>
      other.startHandle ≤ handle ∧ handle ≤ other.endHandle with
  | none =>
      have missing := List.find?_eq_none.mp found service member
      exact absurd (decide_eq_true inside) missing
  | some other =>
      have holds := List.find?_some found
      rw [decide_eq_true_eq] at holds
      rw [ordered.service_unique (List.mem_of_find?_eq_some found) member holds
        inside]

/-- Ascending handles tell attributes apart. -/
theorem Service.Proper.attribute_unique
    (proper : service.Proper)
    {one other : Attribute}
    (here : one ∈ service.attributes)
    (there : other ∈ service.attributes)
    (same : one.handle = other.handle) :
    one = other := by
  by_contra different
  obtain ⟨front, back, shape⟩ := List.mem_iff_append.mp here
  have ascending := proper.ascending
  rw [shape] at ascending there
  obtain ⟨-, behind, across⟩ := List.pairwise_append.mp ascending
  rcases List.mem_append.mp there with before | after
  · have gap := across other before one List.mem_cons_self
    omega
  · rcases List.mem_cons.mp after with rfl | later
    · exact different rfl
    · have gap := (List.pairwise_cons.mp behind).1 other later
      omega

/-- A handle other than zero leads to the attribute that has it, if any. -/
theorem GattDb.Ordered.gattDbGetAttribute
    (ordered : db.Ordered)
    {handle : Nat}
    (valid : handle ≠ 0)
    (attrib : Attribute) :
    gattDbGetAttribute db handle = some attrib ↔
      (∃ service ∈ db.services, attrib ∈ service.attributes) ∧
        attrib.handle = handle := by
  unfold Gatt.gattDbGetAttribute
  constructor
  · intro found
    cases known : Gatt.gattDbGetService db handle with
    | none =>
        rw [known] at found
        exact absurd found.symm (Option.some_ne_none attrib)
    | some service =>
        rw [known] at found
        unfold Gatt.gattDbGetService at known
        rw [if_neg valid] at known
        have holds := List.find?_some found
        rw [decide_eq_true_eq] at holds
        exact ⟨⟨service, List.mem_of_find?_eq_some known,
          List.mem_of_find?_eq_some found⟩, holds⟩
  · rintro ⟨⟨service, member, among⟩, rfl⟩
    have proper := ordered.proper service member
    rw [ordered.gattDbGetService valid member (proper.within among)]
    show service.attributes.find? _ = some attrib
    cases found : service.attributes.find? fun other =>
        other.handle = attrib.handle with
    | none =>
        have missing := List.find?_eq_none.mp found attrib among
        exact absurd (decide_eq_true rfl) missing
    | some other =>
        have same := List.find?_some found
        rw [decide_eq_true_eq] at same
        rw [proper.attribute_unique (List.mem_of_find?_eq_some found) among
          same]

/--
After any calls that keep to the order, a handle other than zero leads to the
attribute that has it, and there is only one.
-/
theorem DbRun.attribute_found
    (run : DbRun gattDbNew db)
    {handle : Nat}
    (valid : handle ≠ 0)
    (attrib : Attribute) :
    Gatt.gattDbGetAttribute db handle = some attrib ↔
      (∃ service ∈ db.services, attrib ∈ service.attributes) ∧
        attrib.handle = handle :=
  (run.ordered gattDbNew_ordered).gattDbGetAttribute valid attrib

/-- The declaration of the first service. -/
theorem DbRun.attribute_found_first :
    let op : DbOp := .insertService 0 (.uuid16 0x1800) true 1
    let attrib : Attribute :=
      (gattDbServiceCreate (.uuid16 0x1800) 1 true 1).decl
    Gatt.gattDbGetAttribute (op.perform gattDbNew) 1 = some attrib ↔
      (∃ service ∈ (op.perform gattDbNew).services,
        attrib ∈ service.attributes) ∧ attrib.handle = 1 :=
  DbRun.attribute_found
    (DbRun.refl.tail (.insertService 0 (.uuid16 0x1800) true 1)
      (.inr ⟨⟨by decide, by decide⟩, fun _ member =>
        absurd member List.not_mem_nil⟩))
    (by decide) _

end Slate106.Gatt
