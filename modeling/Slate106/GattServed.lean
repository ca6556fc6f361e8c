import Slate106.GattDbRuns
import Slate106.GattServer

namespace Slate106.Gatt

open CBytes
open RangeScan (within frontPage page)

/-!
# What a server answers

A server whose database is in order answers a request for a range with the
first ones of what begins there: as many as have the same length and fit.
-/

/-! ## What a range holds -/

/-- The handles of services. -/
def serviceKeys : RangeScan.Keys Service where
  first := Service.startHandle
  last := Service.endHandle

/-- The handles of attributes. -/
def attributeKeys : RangeScan.Keys Attribute where
  first := Attribute.handle
  last := Attribute.handle

/-- The primary or the secondary services that are active. -/
def GattDb.servicesOf
    (db : GattDb)
    (primary : Bool) : List Service :=
  db.services.filter fun service =>
    service.active && decide (service.decl.uuid = serviceType primary)

/-- The attributes of the services that are active. -/
def GattDb.attributes
    (db : GattDb) : List Attribute :=
  (db.services.filter Service.active).flatMap Service.attributes

/-- The attributes of some type, or of any. -/
def ofType
    (uuid : Option BtUuid)
    (attrib : Attribute) : Bool :=
  uuid.all fun uuid => btUuidCmp uuid attrib.uuid

/-- The declarations of characteristics in services that are active. -/
def GattDb.characteristics
    (db : GattDb) : List Attribute :=
  db.attributes.filter (ofType (some characteristicUuid))

variable {db : GattDb}
variable {service : Service}
variable {low high : Nat}

theorem Apart.ordered
    {services : List Service}
    (apart : Apart services)
    (proper : ∀ service ∈ services, service.Proper) :
    RangeScan.Ordered serviceKeys services where
  proper service member := (proper service member).startHandle_le
  apart := apart

theorem GattDb.Ordered.servicesOf
    (ordered : db.Ordered)
    (primary : Bool) :
    RangeScan.Ordered serviceKeys (db.servicesOf primary) :=
  (ordered.apart.ordered ordered.proper).filter _

theorem GattDb.Ordered.attributes
    (ordered : db.Ordered) :
    RangeScan.Ordered attributeKeys db.attributes where
  proper attrib _ := Nat.le_refl attrib.handle
  apart := by
    have apart : Apart (db.services.filter Service.active) :=
      ordered.apart.sublist List.filter_sublist
    refine List.pairwise_flatMap.mpr ⟨?_, ?_⟩
    · intro service member
      exact (ordered.proper service (List.mem_of_mem_filter member)).ascending
    · refine List.Pairwise.imp_of_mem ?_ apart
      intro before after front back gap one here other there
      have first :=
        (ordered.proper before (List.mem_of_mem_filter front)).within here
      have second :=
        (ordered.proper after (List.mem_of_mem_filter back)).within there
      show one.handle < other.handle
      omega

/-! ## Walks over a database in order -/

/-- The UUID that is read of a service is the one that it was given. -/
theorem gattDbAttributeGetServiceUuid_named
    {uuid : BtUuid}
    (named : service.decl.value = uuidToLe uuid) :
    ∃ same, gattDbAttributeGetServiceUuid service = some same ∧
      btUuidToUuid128 same = btUuidToUuid128 uuid := by
  obtain ⟨same, read, equal⟩ := leToUuid_uuidToLe uuid []
  refine ⟨same, ?_, equal⟩
  rw [List.append_nil] at read
  unfold gattDbAttributeGetServiceUuid
  rw [named]
  unfold leToUuid at read
  rcases length_uuidToLe uuid with short | long
  · rw [if_pos short] at read ⊢
    exact read
  · rw [long] at read ⊢
    exact read

/-- A service is listed for the type of its declaration alone. -/
theorem Service.Proper.foreachServiceMatches
    (proper : service.Proper)
    (primary : Bool) :
    foreachServiceMatches (some (serviceType primary)) service =
      decide (service.decl.uuid = serviceType primary) := by
  obtain ⟨uuid, usable, named⟩ := proper.named
  obtain ⟨same, read, equal⟩ := gattDbAttributeGetServiceUuid_named named
  have unlisted : service.hasUuid (serviceType primary) = false := by
    unfold Service.hasUuid
    rw [read]
    have usual : btUuidCmp uuid (serviceType primary) = false := by
      cases primary
      · exact usable.noSecondary
      · exact usable.noPrimary
    unfold btUuidCmp at usual ⊢
    simp only
    rw [equal]
    exact usual
  obtain ⟨declared, type⟩ := proper.declared
  unfold Gatt.foreachServiceMatches
  simp only [unlisted, Bool.false_or, type]
  cases declared <;> cases primary <;> decide

theorem GattDb.Ordered.gattDbReadByGroupType
    (ordered : db.Ordered)
    (proper : low ≤ high)
    (primary : Bool) :
    gattDbReadByGroupType db low high (serviceType primary) =
      within serviceKeys low high (db.servicesOf primary) := by
  unfold Gatt.gattDbReadByGroupType gattDbForeachServiceInRange
    GattDb.servicesOf within
  rw [if_neg (Nat.not_lt.mpr proper), List.filter_filter]
  refine List.filter_congr fun service member => ?_
  have range := (ordered.proper service member).startHandle_le
  rw [(ordered.proper service member).foreachServiceMatches]
  have inside : (!decide (high < service.startHandle ∨
      service.endHandle < low) &&
        !decide (service.startHandle < low ∨ high < service.startHandle)) =
          decide (low ≤ serviceKeys.first service ∧
            serviceKeys.first service ≤ high) := by
    show _ = decide (low ≤ service.startHandle ∧ service.startHandle ≤ high)
    rw [Bool.eq_iff_iff]
    simp only [Bool.and_eq_true, Bool.not_eq_true', decide_eq_false_iff_not,
      decide_eq_true_eq]
    omega
  rw [← inside]
  cases service.active <;> simp [Bool.and_comm]

/-- In ascending order, the loop finds what has the type and is in the range. -/
theorem foreachAttribute_within
    {attributes : List Attribute}
    (ascending :
      attributes.Pairwise fun before after => before.handle < after.handle)
    (uuid : Option BtUuid) :
    foreachAttribute uuid low high attributes =
      within attributeKeys low high (attributes.filter (ofType uuid)) := by
  induction attributes with
  | nil =>
      rfl
  | cons first rest inductionHypothesis =>
      obtain ⟨behind, later⟩ := List.pairwise_cons.mp ascending
      have rested := inductionHypothesis later
      unfold within at rested ⊢
      rw [List.filter_filter] at rested ⊢
      unfold foreachAttribute
      have type : (uuid.any fun uuid => !btUuidCmp uuid first.uuid) =
          !ofType uuid first := by
        cases uuid <;> simp [ofType]
      rw [type, rested, List.filter_cons]
      have place : attributeKeys.first first = first.handle := rfl
      rw [place]
      split
      · next early =>
          rw [decide_eq_false (by omega), Bool.false_and,
            if_neg Bool.false_ne_true]
      · split
        · next late =>
            rw [decide_eq_false (by omega), Bool.false_and,
              if_neg Bool.false_ne_true]
            refine (List.filter_eq_nil_iff.mpr fun other member => ?_).symm
            have gap := behind other member
            have position : attributeKeys.first other = other.handle := rfl
            rw [position, decide_eq_false (by omega), Bool.false_and]
            exact Bool.false_ne_true
        · rw [decide_eq_true (by omega), Bool.true_and]
          cases ofType uuid first <;> rfl

theorem GattDb.Ordered.gattDbForeachInRange
    (ordered : db.Ordered)
    (proper : low ≤ high)
    (uuid : Option BtUuid) :
    gattDbForeachInRange db uuid low high =
      within attributeKeys low high (db.attributes.filter (ofType uuid)) := by
  unfold Gatt.gattDbForeachInRange GattDb.attributes
  rw [if_neg (Nat.not_lt.mpr proper)]
  have all := ordered.proper
  generalize db.services = services at all
  induction services with
  | nil =>
      rfl
  | cons first rest inductionHypothesis =>
      have rested := inductionHypothesis fun service member =>
        all service (List.mem_cons_of_mem first member)
      have firstProper := all first List.mem_cons_self
      rw [List.flatMap_cons, rested, List.filter_cons]
      cases first.active with
      | false =>
          rfl
      | true =>
          rw [if_pos rfl, List.flatMap_cons, List.filter_append]
          unfold within
          rw [List.filter_append]
          congr 1
          simp only [Bool.not_true, Bool.false_eq_true, if_false]
          split
          · next outside =>
              refine (List.filter_eq_nil_iff.mpr fun other member => ?_).symm
              have inside := firstProper.within (List.mem_of_mem_filter member)
              have position : attributeKeys.first other = other.handle := rfl
              rw [position, decide_eq_true_eq]
              omega
          · exact foreachAttribute_within firstProper.ascending uuid

/-! ## Services in a response -/

/-- The length of the value of a declaration. -/
def declLength
    (service : Service) : Nat :=
  service.decl.value.length

/-- A service in a response. -/
def serviceUnit
    (service : Service) : List UInt8 :=
  putLe16 service.startHandle ++ putLe16 service.endHandle ++
    service.decl.value

theorem length_serviceUnit
    (service : Service) :
    (serviceUnit service).length = declLength service + 4 := by
  simp [serviceUnit, declLength]
  omega

theorem gattDbAttributeRead_stored
    {attrib : Attribute}
    (stored : attrib.readFunc = false) :
    gattDbAttributeRead attrib 0 = some (0, attrib.value) := by
  unfold gattDbAttributeRead
  rw [stored]
  rfl

theorem Service.Proper.declLength
    (proper : service.Proper) :
    Gatt.declLength service = 2 ∨ Gatt.declLength service = 16 := by
  obtain ⟨uuid, -, named⟩ := proper.named
  unfold Gatt.declLength
  rw [named]
  exact length_uuidToLe uuid

/-- Once a response is begun, services are added that are alike and fit. -/
theorem encodeReadByGrpTypeLoop_page
    {services : List Service}
    (proper : ∀ service ∈ services, service.Proper)
    (mtu length : Nat)
    {pdu : List UInt8}
    (begun : pdu ≠ []) :
    encodeReadByGrpTypeLoop mtu services length pdu =
      some (pdu ++ (page declLength length (length + 4)
        (mtu - 1 - pdu.length) services).flatMap serviceUnit) := by
  induction services generalizing pdu with
  | nil =>
      simp [encodeReadByGrpTypeLoop, page]
  | cons first rest inductionHypothesis =>
      have firstProper := proper first List.mem_cons_self
      have rested := @inductionHypothesis fun service member =>
        proper service (List.mem_cons_of_mem first member)
      have long := firstProper.declLength
      unfold encodeReadByGrpTypeLoop
      rw [gattDbAttributeRead_stored firstProper.stored]
      unfold page
      unfold declLength at long ⊢
      have unit : serviceUnit first =
          putLe16 first.startHandle ++ putLe16 first.endHandle ++
            first.decl.value := rfl
      generalize first.decl.value = value at long unit
      cases value with
      | nil =>
          exact absurd long (by simp)
      | cons byte more =>
          simp only [if_neg begun]
          by_cases alike : (byte :: more).length = length
          · rw [if_neg (fun other => other.2 alike)]
            by_cases fits : length + 4 ≤ mtu - 1 - pdu.length
            · rw [if_neg (by omega), if_pos ⟨alike, fits⟩,
                rested (by simp [putLe16]), List.flatMap_cons]
              have whole : (byte :: more).take length = byte :: more := by
                rw [← alike, List.take_length]
              have grown : (pdu ++ putLe16 first.startHandle ++
                  putLe16 first.endHandle ++ byte :: more).length =
                    pdu.length + (length + 4) := by
                simp only [List.length_append, length_putLe16, alike]
                omega
              rw [whole, grown, Nat.sub_add_eq, unit]
              simp only [List.append_assoc]
              rfl
            · rw [if_pos (by omega), if_neg (fun both => fits both.2)]
              simp
          · rw [if_pos ⟨begun, alike⟩, if_neg (fun both => alike both.1)]
            simp

/-- The first service goes into any response, and decides about the others. -/
theorem encodeReadByGrpTypeRsp_page
    {first : Service}
    {rest : List Service}
    (proper : ∀ service ∈ first :: rest, service.Proper)
    {mtu : Nat}
    (wide : btAttDefaultLeMtu ≤ mtu) :
    encodeReadByGrpTypeRsp mtu (first :: rest) =
      some (UInt8.ofNat (declLength first + 4) ::
        (first :: page declLength (declLength first) (declLength first + 4)
          (mtu - 2 - (declLength first + 4)) rest).flatMap serviceUnit) := by
  have firstProper := proper first List.mem_cons_self
  have long := firstProper.declLength
  have limit : btAttDefaultLeMtu = 23 := rfl
  unfold encodeReadByGrpTypeRsp encodeReadByGrpTypeLoop
  rw [gattDbAttributeRead_stored firstProper.stored]
  have unit : serviceUnit first =
      putLe16 first.startHandle ++ putLe16 first.endHandle ++
        first.decl.value := rfl
  have length : first.decl.value.length = declLength first := rfl
  generalize declLength first = number at long length
  generalize first.decl.value = value at unit length
  cases value with
  | nil =>
      rw [List.length_nil] at length
      omega
  | cons byte more =>
      simp only [if_true, length]
      have whole : min (min (mtu - 6) 251) number = number := by
        omega
      have all : (byte :: more).take number = byte :: more := by
        rw [← length, List.take_length]
      rw [whole, if_neg (by simp), if_neg (by
        rw [List.length_singleton]
        omega)]
      rw [encodeReadByGrpTypeLoop_page
        (fun service member => proper service (List.mem_cons_of_mem _ member))
        mtu number (by simp [putLe16]), all, List.flatMap_cons, unit]
      have room : mtu - 1 - ([UInt8.ofNat (number + 4)] ++
          putLe16 first.startHandle ++ putLe16 first.endHandle ++
            byte :: more).length = mtu - 2 - (number + 4) := by
        simp only [List.length_append, length_putLe16, List.length_singleton,
          length]
        omega
      rw [room]
      simp

/-! ## Characteristics in a response -/

/-- The declaration of a characteristic. -/
def Declares
    (attrib : Attribute) : Prop :=
  ∃ properties uuid,
    attrib = characteristicDecl (attrib.handle + 1) properties uuid

/-- The length of the value of an attribute. -/
def valueLength
    (attrib : Attribute) : Nat :=
  attrib.value.length

/-- A declaration in a response. -/
def characteristicUnit
    (attrib : Attribute) : List UInt8 :=
  putLe16 attrib.handle ++ attrib.value

theorem length_characteristicUnit
    (attrib : Attribute) :
    (characteristicUnit attrib).length = valueLength attrib + 2 := by
  simp [characteristicUnit, valueLength]
  omega

/-- The declarations of a database in order are those of characteristics. -/
theorem GattDb.Ordered.declares
    (ordered : db.Ordered)
    {attrib : Attribute}
    (member : attrib ∈ db.characteristics) :
    Declares attrib := by
  obtain ⟨among, type⟩ := List.mem_filter.mp member
  obtain ⟨service, active, inService⟩ := List.mem_flatMap.mp among
  have proper := ordered.proper service (List.mem_of_mem_filter active)
  rcases List.mem_cons.mp inService with rfl | other
  · obtain ⟨primary, declared⟩ := proper.declared
    unfold ofType at type
    rw [Option.all_some, declared] at type
    cases primary
    · exact absurd type (by decide)
    · exact absurd type (by decide)
  · exact proper.described attrib other type

variable {server : GattServer}
variable {attrib : Attribute}

theorem Declares.valueLength
    (declares : Declares attrib) :
    Gatt.valueLength attrib = 5 ∨ Gatt.valueLength attrib = 19 := by
  obtain ⟨properties, uuid, shape⟩ := declares
  have long := length_uuidToLe uuid
  unfold Gatt.valueLength
  rw [shape]
  simp only [characteristicDecl, setAttributeData, newAttribute,
    List.length_append, List.length_cons, length_putLe16]
  omega

theorem Declares.read
    (declares : Declares attrib) :
    gattDbAttributeRead attrib 0 = some (0, attrib.value) := by
  obtain ⟨properties, uuid, shape⟩ := declares
  exact gattDbAttributeRead_stored (by rw [shape]; rfl)

/-- A declaration may be read on any bearer whose security is known. -/
theorem Declares.permitted
    (declares : Declares attrib)
    (secure : 0 ≤ server.security) :
    checkPermissions server attrib
      (btAttPermRead ||| btAttPermReadAuthen ||| btAttPermReadEncrypt) = 0 := by
  obtain ⟨properties, uuid, shape⟩ := declares
  have permissions : attrib.permissions = 1 := by
    rw [shape]
    rfl
  have unknown : ¬server.security < 0 := by omega
  have mask : btAttPermRead ||| btAttPermReadAuthen ||| btAttPermReadEncrypt =
      21 := by
    decide
  unfold checkPermissions
  rw [permissions, mask]
  simp [unknown, show 21 &&& btAttPermWrite = 0 by decide]

/-- After the end of a response nothing is added to it. -/
theorem processReadByType_done
    (attributes : List Attribute)
    (length : Nat)
    (pdu : List UInt8) :
    processReadByType server attributes true length pdu =
      some (sendReadByTypeRsp pdu) := by
  cases attributes <;> rfl

/-- Once a response is begun, declarations are added that are alike and fit. -/
theorem processReadByType_page
    {attributes : List Attribute}
    (declare : ∀ attrib ∈ attributes, Declares attrib)
    (secure : 0 ≤ server.security)
    (length : Nat)
    {pdu : List UInt8}
    (begun : pdu ≠ []) :
    processReadByType server attributes (pdu.length = server.mtu - 1) length
        pdu =
      some (sendReadByTypeRsp (pdu ++ (page valueLength length (length + 2)
        (server.mtu - 1 - pdu.length) attributes).flatMap
          characteristicUnit)) := by
  induction attributes generalizing pdu with
  | nil =>
      simp [processReadByType, page]
  | cons first rest inductionHypothesis =>
      have declares := declare first List.mem_cons_self
      have rested := @inductionHypothesis fun attrib member =>
        declare attrib (List.mem_cons_of_mem first member)
      unfold page
      by_cases full : pdu.length = server.mtu - 1
      · rw [decide_eq_true full, processReadByType_done, if_neg (by omega)]
        simp
      · rw [decide_eq_false full]
        unfold processReadByType
        simp only [Bool.false_eq_true, if_false, declares.permitted secure,
          ne_eq, not_true_eq_false, declares.read, if_neg begun]
        by_cases alike : first.value.length = length
        · rw [if_neg (fun other => other.2 alike)]
          by_cases fits : length + 2 ≤ server.mtu - 1 - pdu.length
          · have whole : first.value.take length = first.value := by
              rw [← alike, List.take_length]
            have grown : (pdu ++ putLe16 first.handle ++
                first.value).length = pdu.length + (length + 2) := by
              simp only [List.length_append, length_putLe16, alike]
              omega
            rw [if_neg (by omega), if_pos ⟨alike, fits⟩, whole,
              rested (by simp [putLe16]), List.flatMap_cons, grown,
              Nat.sub_add_eq]
            simp only [List.append_assoc, characteristicUnit]
          · rw [if_pos (by omega), if_neg (fun both => fits both.2),
              processReadByType_done]
            simp
        · rw [if_pos ⟨begun, alike⟩, if_neg (fun both => alike both.1),
            processReadByType_done]
          simp

/-- The first declaration goes into any response. -/
theorem processReadByType_first
    {first : Attribute}
    {rest : List Attribute}
    (declare : ∀ attrib ∈ first :: rest, Declares attrib)
    (secure : 0 ≤ server.security)
    (wide : btAttDefaultLeMtu ≤ server.mtu) :
    processReadByType server (first :: rest) false 0 [] =
      some (sendReadByTypeRsp (UInt8.ofNat (valueLength first + 2) ::
        (first :: page valueLength (valueLength first) (valueLength first + 2)
          (server.mtu - 2 - (valueLength first + 2)) rest).flatMap
            characteristicUnit)) := by
  have declares := declare first List.mem_cons_self
  have long := declares.valueLength
  have limit : btAttDefaultLeMtu = 23 := rfl
  have unit : characteristicUnit first =
      putLe16 first.handle ++ first.value := rfl
  have length : first.value.length = valueLength first := rfl
  unfold processReadByType
  simp only [Bool.false_eq_true, if_false, declares.permitted secure, ne_eq,
    not_true_eq_false, declares.read, if_true, length]
  generalize valueLength first = number at long length
  have whole : min (min (server.mtu - 4) 253) number = number := by
    omega
  have all : first.value.take number = first.value := by
    rw [← length, List.take_length]
  rw [whole, if_neg (by simp), if_neg (by
    rw [List.length_singleton]
    omega), all]
  have declared : ∀ attrib ∈ rest, Declares attrib := fun attrib member =>
    declare attrib (List.mem_cons_of_mem first member)
  rw [processReadByType_page declared secure number (by simp [putLe16]),
    List.flatMap_cons, unit]
  have room : server.mtu - 1 - ([UInt8.ofNat (number + 2)] ++
      putLe16 first.handle ++ first.value).length =
        server.mtu - 2 - (number + 2) := by
    simp only [List.length_append, length_putLe16, List.length_singleton,
      length]
    omega
  rw [room]
  simp

/-! ## Attribute types in a response -/

/-- The length of a UUID in a response that begins with it. -/
def typeLength
    (attrib : Attribute) : Nat :=
  if btUuidLen attrib.uuid = 2 then 2 else 16

/-- The length of the UUID of an attribute. -/
def uuidLength
    (attrib : Attribute) : Nat :=
  btUuidLen attrib.uuid

/-- A handle and a type in a response. -/
def informationUnit
    (attrib : Attribute) : List UInt8 :=
  putLe16 attrib.handle ++ btUuidToLe attrib.uuid

theorem length_informationUnit
    (attrib : Attribute) :
    (informationUnit attrib).length = typeLength attrib + 2 := by
  unfold informationUnit typeLength
  cases attrib.uuid <;> simp [btUuidLen, btUuidToLe]

/-- What is as long as the first of a response has the form of the first. -/
theorem typeLength_of_uuidLength
    {first : Attribute}
    (same : uuidLength attrib = typeLength first) :
    typeLength attrib = typeLength first := by
  unfold uuidLength typeLength at *
  split_ifs at * <;> omega

/-- Once a response is begun, types are added that are alike and fit. -/
theorem encodeFindInfoLoop_page
    {attributes : List Attribute}
    (valid : ∀ attrib ∈ attributes, attrib.handle ≠ 0)
    (mtu : Nat)
    (first : Attribute)
    {pdu : List UInt8}
    (begun : pdu ≠ []) :
    encodeFindInfoLoop mtu attributes (typeLength first) pdu =
      some (pdu ++ (page uuidLength (typeLength first) (typeLength first + 2)
        (mtu - 1 - pdu.length) attributes).flatMap informationUnit) := by
  induction attributes generalizing pdu with
  | nil =>
      simp [encodeFindInfoLoop, page]
  | cons next rest inductionHypothesis =>
      have nonzero := valid next List.mem_cons_self
      have rested := @inductionHypothesis fun attrib member =>
        valid attrib (List.mem_cons_of_mem next member)
      have size : uuidLength next = btUuidLen next.uuid := rfl
      unfold encodeFindInfoLoop page
      rw [if_neg nonzero]
      simp only [if_neg begun, ← size]
      by_cases alike : uuidLength next = typeLength first
      · rw [if_neg (fun other => other.2 alike)]
        by_cases fits : typeLength first + 2 ≤ mtu - 1 - pdu.length
        · have unit : informationUnit next =
              putLe16 next.handle ++ btUuidToLe next.uuid := rfl
          have grown : (pdu ++ putLe16 next.handle ++
              btUuidToLe next.uuid).length =
                pdu.length + (typeLength first + 2) := by
            rw [List.append_assoc, ← unit, List.length_append,
              length_informationUnit, typeLength_of_uuidLength alike]
          rw [if_neg (by omega), if_pos ⟨alike, fits⟩,
            rested (by simp [putLe16]), List.flatMap_cons, grown,
            Nat.sub_add_eq, unit]
          simp only [List.append_assoc]
        · rw [if_pos (by omega), if_neg (fun both => fits both.2)]
          simp
      · rw [if_pos ⟨begun, alike⟩, if_neg (fun both => alike both.1)]
        simp

/-- The format that a response begins with. -/
def formatOf
    (attrib : Attribute) : UInt8 :=
  if btUuidLen attrib.uuid = 2 then 0x01 else 0x02

/-- The first type goes into any response. -/
theorem encodeFindInfoRsp_page
    {first : Attribute}
    {rest : List Attribute}
    (valid : ∀ attrib ∈ first :: rest, attrib.handle ≠ 0)
    {mtu : Nat}
    (wide : btAttDefaultLeMtu ≤ mtu) :
    encodeFindInfoRsp mtu (first :: rest) =
      some (formatOf first ::
        (first :: page uuidLength (typeLength first) (typeLength first + 2)
          (mtu - 2 - (typeLength first + 2)) rest).flatMap
            informationUnit) := by
  have nonzero := valid first List.mem_cons_self
  have limit : btAttDefaultLeMtu = 23 := rfl
  have short : typeLength first ≤ 16 := by
    unfold typeLength
    split <;> omega
  unfold encodeFindInfoRsp encodeFindInfoLoop
  rw [if_neg nonzero]
  have length : (if btUuidLen first.uuid = 2 then 2 else 16) =
      typeLength first := rfl
  have format : (if btUuidLen first.uuid = 2 then (0x01 : UInt8) else 0x02) =
      formatOf first := rfl
  simp only [if_true, length, format]
  rw [if_neg (by simp), if_neg (by
    rw [List.length_singleton]
    omega)]
  rw [encodeFindInfoLoop_page
    (fun attrib member => valid attrib (List.mem_cons_of_mem first member))
    mtu first (by simp [putLe16]), List.flatMap_cons]
  have unit : informationUnit first =
      putLe16 first.handle ++ btUuidToLe first.uuid := rfl
  have room : mtu - 1 - ([formatOf first] ++ putLe16 first.handle ++
      btUuidToLe first.uuid).length = mtu - 2 - (typeLength first + 2) := by
    rw [List.append_assoc, ← unit, List.length_append,
      length_informationUnit, List.length_singleton]
    omega
  rw [room, unit]
  simp

end Slate106.Gatt
