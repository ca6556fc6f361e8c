import Slate106.GattCollected
import Slate106.GattMldp
import Slate106.GattServed

namespace Slate106.Gatt

open CBytes
open RangeScan (within frontPage page mem_frontPage)

/-!
# A client finds the services of a server

Whatever the length of a PDU is, the services that a client collects are those
of the database of the server that begin in the range.
-/

variable {low high : Nat}
variable {opcode : UInt8}

/-- What a service ends with: 0xffff stands for the end of the range. -/
def reportedEnd
    (high : Nat)
    (service : Service) : Nat :=
  if service.endHandle = 0xffff then high else service.endHandle

/-- A service as it is reported. -/
def reportedUnit
    (high : Nat)
    (service : Service) : List UInt8 :=
  putLe16 service.startHandle ++ putLe16 (reportedEnd high service) ++
    service.decl.value

theorem reportedUnit_eq
    {service : Service}
    (same : service.endHandle = 0xffff → high = 0xffff) :
    reportedUnit high service = serviceUnit service := by
  have reported : reportedEnd high service = service.endHandle := by
    unfold reportedEnd
    split
    · next last => rw [same last, last]
    · rfl
  unfold reportedUnit
  rw [reported]
  rfl

variable {server : GattServer}

/-- The request for the services from a handle on. -/
theorem serve_services
    (ordered : server.db.Ordered)
    (begins : 1 ≤ low)
    (proper : low ≤ high)
    (bounded : high ≤ 0xffff)
    (primary : Bool) :
    Server.serve server
        { opcode := btAttOpReadByGrpTypeReq
          data :=
            putLe16 low ++ putLe16 high ++
              putLe16 (discoverServices low high primary).serviceType } =
      some
        (match within serviceKeys low high (server.db.servicesOf primary) with
        | [] => notFound btAttOpReadByGrpTypeReq low
        | service :: rest =>
            match encodeReadByGrpTypeRsp server.mtu (service :: rest) with
            | none =>
                sendErrorRsp btAttOpReadByGrpTypeReq low btAttErrorUnlikely
            | some rspPdu =>
                { opcode := btAttOpReadByGrpTypeRsp
                  data := rspPdu }) := by
  have start := getLe16_range (show low < 65536 by omega) high
    (putLe16 (discoverServices low high primary).serviceType)
  have finish := getLe16_rangeEnd low (show high < 65536 by omega)
    (putLe16 (discoverServices low high primary).serviceType)
  have type : getUuidLe ((putLe16 low ++ putLe16 high ++
      putLe16 (discoverServices low high primary).serviceType).drop 4)
        ((putLe16 low ++ putLe16 high ++
          putLe16 (discoverServices low high primary).serviceType).length - 4) =
            some (serviceType primary) := by
    cases primary
    · exact getUuidLe_type low high gattSndSvcUuid
    · exact getUuidLe_type low high gattPrimSvcUuid
  have known : ¬(!btUuidCmp (serviceType primary) primaryServiceUuid ∧
      !btUuidCmp (serviceType primary) secondaryServiceUuid) := by
    cases primary <;> decide
  have listed := ordered.gattDbReadByGroupType proper primary
  unfold Server.serve
  rw [if_pos rfl]
  unfold Server.readByGrpTypeCb
  rw [if_neg (fun wrong => wrong.1 rfl), start, finish, type]
  simp only
  rw [if_neg (by omega), if_neg (by omega), if_neg known, listed]
  rfl

/-- A client between two responses, with the services found so far. -/
structure AsksServices
    (high : Nat)
    (primary : Bool)
    (low : Nat)
    (found : List Service)
    (op : GattRequest) : Prop where
  start : op.startHandle = low
  finish : op.endHandle = high
  type : op.serviceType = (discoverServices low high primary).serviceType
  begins : 1 ≤ low
  proper : low ≤ high
  before : ∀ service ∈ found, service.endHandle < low
  tells : Tells btAttOpReadByGrpTypeRsp serviceUnit op.results found

/-- The callback of a discovery that has found services. -/
def ServicesReported
    (high : Nat)
    (found : List Service)
    (outcome : Outcome) : Prop :=
  outcome.Reports btAttOpReadByGrpTypeRsp (reportedUnit high) found

/-- What a client makes of a page of services. -/
theorem readByGrpTypeCb_page
    {op : GattRequest}
    {front : List Service}
    {last : Service}
    {dataLen : Nat}
    (long : dataLen = 6 ∨ dataLen = 20)
    (alike :
      ∀ service ∈ front ++ [last], (serviceUnit service).length = dataLen)
    (bounded : last.endHandle ≤ 0xffff)
    (behind : op.startHandle ≤ last.endHandle) :
    Helpers.readByGrpTypeCb op
        { opcode := btAttOpReadByGrpTypeRsp
          data :=
            UInt8.ofNat dataLen :: (front ++ [last]).flatMap serviceUnit } =
      let op :=
        op.behind btAttOpReadByGrpTypeRsp serviceUnit (front ++ [last], dataLen)
          ((last.endHandle + 1) % 65536)
      if last.endHandle < op.endHandle then .ask (readByGrpTypeReq op) op
      else if last.endHandle = 0xffff ∧ last.endHandle ≠ op.endHandle then
        discoveryOpComplete (putLastEnd op (front.length * dataLen + 2)) true 0
      else discoveryOpComplete op true 0 := by
  have total := length_response alike (UInt8.ofNat dataLen)
  have count : (front ++ [last]).length = front.length + 1 := by
    rw [List.length_append, List.length_singleton]
  rw [count, Nat.add_mul, Nat.one_mul] at total
  have header : (peek (UInt8.ofNat dataLen ::
      (front ++ [last]).flatMap serviceUnit) 0).toNat = dataLen := by
    rw [peek_cons_zero]
    rcases long with rfl | rfl <;> rfl
  have finish : getLe16 ((UInt8.ofNat dataLen ::
      (front ++ [last]).flatMap serviceUnit).drop
        ((UInt8.ofNat dataLen ::
          (front ++ [last]).flatMap serviceUnit).length - dataLen + 2)) =
            last.endHandle := by
    rw [drop_lastUnit alike]
    show getLe16 (putLe16 last.endHandle ++ last.decl.value) = _
    exact getLe16_putLe16 (by omega) _
  have whole : (front.length * dataLen + dataLen + 1 - 1) % dataLen = 0 := by
    rw [Nat.add_sub_cancel, Nat.add_mod_right, Nat.mul_mod_left]
  unfold Helpers.readByGrpTypeCb
  simp only
  rw [header, finish, total, if_neg (by decide), if_neg (by
    rintro (other | short)
    · exact other rfl
    · rcases long with rfl | rfl <;> omega), if_neg (by
    rw [whole]
    omega)]
  have place : front.length * dataLen + dataLen + 1 - dataLen + 1 =
      front.length * dataLen + 2 := by
    omega
  rw [place]
  simp only [List.drop_succ_cons, List.drop_zero]
  rw [if_neg (show ¬last.endHandle < (resultAppend btAttOpReadByGrpTypeRsp
    ((front ++ [last]).flatMap serviceUnit) dataLen op).startHandle by
      exact Nat.not_lt.mpr behind)]
  rfl

/-- The end of the last service is overwritten with that of the range. -/
theorem putLastEnd_page
    {op : GattRequest}
    {results : List GattResult}
    {front : List Service}
    {last : Service}
    {dataLen : Nat}
    (shape :
      op.results =
        results ++ [resultOf opcode serviceUnit (front ++ [last], dataLen)])
    (alike :
      ∀ service ∈ front ++ [last], (serviceUnit service).length = dataLen)
    (before : ∀ service ∈ front, service.endHandle < 0xffff)
    (ends : last.endHandle = 0xffff) :
    (putLastEnd op (front.length * dataLen + 2)).results =
      results ++
        [resultOf opcode (reportedUnit op.endHandle)
          (front ++ [last], dataLen)] := by
  have place : (front.flatMap serviceUnit ++ putLe16 last.startHandle).length =
      front.length * dataLen + 2 := by
    rw [List.length_append, length_putLe16, length_flatMap_unit
      fun service member => alike service (List.mem_append_left _ member)]
  have old : (front ++ [last]).flatMap serviceUnit =
      (front.flatMap serviceUnit ++ putLe16 last.startHandle) ++
        (putLe16 last.endHandle ++ last.decl.value) := by
    simp [serviceUnit]
  have same : front.flatMap (reportedUnit op.endHandle) =
      front.flatMap serviceUnit := by
    refine List.flatMap_congr fun service member => ?_
    have inside := before service member
    exact reportedUnit_eq fun wrong => by omega
  have new : (front ++ [last]).flatMap (reportedUnit op.endHandle) =
      (front.flatMap serviceUnit ++ putLe16 last.startHandle) ++
        (putLe16 op.endHandle ++ last.decl.value) := by
    rw [List.flatMap_append, same]
    simp [reportedUnit, reportedEnd, ends]
  unfold putLastEnd
  simp only [shape, List.dropLast_concat, List.getLast?_concat,
    Option.toList_some, List.map_cons, List.map_nil, resultOf, old, new]
  rw [← place, poke_append _ _ _ _ (by rfl)]

/-- A page whose ends are those of the services is reported as it is. -/
theorem resultOf_reported
    {services : List Service}
    {dataLen : Nat}
    (same : ∀ service ∈ services, service.endHandle = 0xffff → high = 0xffff) :
    resultOf opcode serviceUnit (services, dataLen) =
      resultOf opcode (reportedUnit high) (services, dataLen) := by
  unfold resultOf
  congr 1
  exact List.flatMap_congr fun service member =>
    (reportedUnit_eq (same service member)).symm

/-- Behind a page that ends before the range does, the client asks on. -/
theorem readByGrpTypeCb_more
    {op : GattRequest}
    {front : List Service}
    {last : Service}
    {dataLen : Nat}
    (long : dataLen = 6 ∨ dataLen = 20)
    (alike :
      ∀ service ∈ front ++ [last], (serviceUnit service).length = dataLen)
    (behind : op.startHandle ≤ last.endHandle)
    (bounded : op.endHandle ≤ 0xffff)
    (more : last.endHandle < op.endHandle) :
    let next :=
      op.behind btAttOpReadByGrpTypeRsp serviceUnit (front ++ [last], dataLen)
        (last.endHandle + 1)
    Helpers.readByGrpTypeCb op
        { opcode := btAttOpReadByGrpTypeRsp
          data :=
            UInt8.ofNat dataLen :: (front ++ [last]).flatMap serviceUnit } =
      .ask (readByGrpTypeReq next) next := by
  have small : (last.endHandle + 1) % 65536 = last.endHandle + 1 :=
    Nat.mod_eq_of_lt (by omega)
  rw [readByGrpTypeCb_page long alike (by omega) behind, small]
  exact if_pos more

/-- With a page that ends where the range does, or behind it, all is found. -/
theorem readByGrpTypeCb_full
    {op : GattRequest}
    {front : List Service}
    {last : Service}
    {dataLen : Nat}
    (long : dataLen = 6 ∨ dataLen = 20)
    (alike :
      ∀ service ∈ front ++ [last], (serviceUnit service).length = dataLen)
    (behind : op.startHandle ≤ last.endHandle)
    (bounded : last.endHandle ≤ 0xffff)
    (before : ∀ service ∈ front, service.endHandle < 0xffff)
    (full : ¬last.endHandle < op.endHandle)
    {found : List Service}
    (tells :
      Tells btAttOpReadByGrpTypeRsp (reportedUnit op.endHandle) op.results
        found) :
    ∃ outcome,
      Helpers.readByGrpTypeCb op
          { opcode := btAttOpReadByGrpTypeRsp
            data :=
              UInt8.ofNat dataLen :: (front ++ [last]).flatMap serviceUnit } =
        .complete outcome ∧
        outcome.Reports btAttOpReadByGrpTypeRsp (reportedUnit op.endHandle)
          (found ++ (front ++ [last])) := by
  have some : found ++ (front ++ [last]) ≠ [] := by
    simp
  have sets : Sets (reportedUnit op.endHandle) (front ++ [last], dataLen) :=
    { nonempty := by simp
      positive := by
        show 0 < dataLen
        omega
      alike := alike }
  rw [readByGrpTypeCb_page long alike bounded behind]
  simp only
  rw [if_neg (by exact full)]
  split
  · next last =>
      refine discoveryOpComplete_all ?_ some
      rw [putLastEnd_page rfl alike before last.1]
      exact tells.append sets
  · next same =>
      refine discoveryOpComplete_all ?_ some
      have last : ∀ service ∈ front ++ [last],
          service.endHandle = 0xffff → op.endHandle = 0xffff := by
        intro service member ends
        rcases List.mem_append.mp member with early | here
        · have inside := before service early
          omega
        · obtain rfl := List.mem_singleton.mp here
          have other : op.endHandle = service.endHandle := by
            by_contra different
            exact same ⟨ends, fun equal => different equal.symm⟩
          omega
      show Tells _ _ (op.results ++ [resultOf _ serviceUnit _]) _
      rw [resultOf_reported last]
      exact tells.append sets

/-- What the server lists for a request of services. -/
def servicesPage
    (server : GattServer)
    (high : Nat)
    (primary : Bool)
    (low : Nat) : Option (List Service) :=
  frontPage declLength declLength 4 (server.mtu - 2)
    (within serviceKeys low high (server.db.servicesOf primary))

variable {primary : Bool}

/-- The request that a client sends between two responses. -/
theorem AsksServices.request
    {low : Nat}
    {found : List Service}
    {op : GattRequest}
    (asks : AsksServices high primary low found op) :
    readByGrpTypeReq op =
      { opcode := btAttOpReadByGrpTypeReq
        data :=
          putLe16 low ++ putLe16 high ++
            putLe16 (discoverServices low high primary).serviceType } := by
  unfold readByGrpTypeReq
  rw [asks.start, asks.finish, asks.type]

/-- What was found before ends before what is still asked for. -/
theorem AsksServices.reports
    {found : List Service}
    {op : GattRequest}
    (asks : AsksServices high primary low found op)
    (bounded : high ≤ 0xffff) :
    Tells btAttOpReadByGrpTypeRsp (reportedUnit high) op.results found := by
  refine asks.tells.congr fun service member => ?_
  have before := asks.before service member
  have proper := asks.proper
  exact reportedUnit_eq fun last => by omega

theorem servicesPage_eq_none
    {low : Nat}
    (empty : servicesPage server high primary low = none) :
    within serviceKeys low high (server.db.servicesOf primary) = [] := by
  unfold servicesPage at empty
  cases listed :
      within serviceKeys low high (server.db.servicesOf primary) with
  | nil =>
      rfl
  | cons first rest =>
      rw [listed] at empty
      exact absurd empty (Option.some_ne_none _)

theorem services_endsEmpty
    (ordered : server.db.Ordered)
    (bounded : high ≤ 0xffff) :
    EndsEmpty (servicesPage server high primary) (Server.serve server)
      Helpers.readByGrpTypeCb readByGrpTypeReq (AsksServices high primary)
      (ServicesReported high) := by
  intro low found op asks empty
  have served := serve_services ordered asks.begins asks.proper bounded primary
  rw [servicesPage_eq_none empty] at served
  obtain ⟨outcome, completed, reports⟩ :=
    discoveryOpComplete_notFound (asks.reports bounded)
  rw [← asks.request] at served
  exact ⟨_, outcome, served, completed, reports⟩

/-- The page that a server lists, and its response. -/
theorem serve_servicesPage_some
    (ordered : server.db.Ordered)
    (wide : btAttDefaultLeMtu ≤ server.mtu)
    {low : Nat}
    (begins : 1 ≤ low)
    (proper : low ≤ high)
    (bounded : high ≤ 0xffff)
    {page : List Service}
    (listed : servicesPage server high primary low = some page) :
    ∃ dataLen,
      (dataLen = 6 ∨ dataLen = 20) ∧
        (∀ service ∈ page, (serviceUnit service).length = dataLen) ∧
        (page <+: within serviceKeys low high
          (server.db.servicesOf primary)) ∧
        Server.serve server
            { opcode := btAttOpReadByGrpTypeReq
              data :=
                putLe16 low ++ putLe16 high ++
                  putLe16 (discoverServices low high primary).serviceType } =
          some
            { opcode := btAttOpReadByGrpTypeRsp
              data := UInt8.ofNat dataLen :: page.flatMap serviceUnit } := by
  have served := serve_services ordered begins proper bounded primary
  have known : ∀ service ∈ within serviceKeys low high
      (server.db.servicesOf primary), service.Proper := fun service member =>
    ordered.proper service
      (List.mem_of_mem_filter (List.mem_of_mem_filter member))
  unfold servicesPage at listed
  generalize within serviceKeys low high (server.db.servicesOf primary) =
    services at served listed known
  cases services with
  | nil =>
      exact absurd listed.symm (Option.some_ne_none page)
  | cons first rest =>
      obtain rfl := Option.some.inj listed
      have long := (known first List.mem_cons_self).declLength
      simp only [encodeReadByGrpTypeRsp_page known wide] at served
      refine ⟨declLength first + 4, by omega, ?_,
        (List.prefix_cons_inj first).mpr (RangeScan.page_front _ rest),
        served⟩
      intro service member
      rw [length_serviceUnit]
      rcases mem_frontPage member with rfl | ⟨-, same⟩
      · rfl
      · rw [same]

/-- The services of a page end before its last one begins. -/
theorem servicesPage_before
    (ordered : server.db.Ordered)
    {low : Nat}
    {front : List Service}
    {last : Service}
    (listed :
      front ++ [last] <+: within serviceKeys low high
        (server.db.servicesOf primary)) :
    ∀ service ∈ front, service.endHandle < last.startHandle := by
  intro service member
  have whole : RangeScan.Ordered serviceKeys
      (within serviceKeys low high (server.db.servicesOf primary)) :=
    (ordered.servicesOf primary).within
  have among := whole.sublist listed.sublist
  exact (List.pairwise_append.mp among.apart).2.2 service member last
    (List.mem_singleton_self last)

theorem services_takesPage
    (ordered : server.db.Ordered)
    (wide : btAttDefaultLeMtu ≤ server.mtu)
    (bounded : high ≤ 0xffff) :
    TakesPage serviceKeys high (servicesPage server high primary)
      (Server.serve server) Helpers.readByGrpTypeCb readByGrpTypeReq
      (AsksServices high primary) (ServicesReported high) := by
  intro low found op page last asks answered ends
  obtain ⟨dataLen, long, alike, listed, served⟩ :=
    serve_servicesPage_some ordered wide asks.begins asks.proper bounded
      answered
  obtain ⟨front, rfl⟩ := List.getLast?_eq_some_iff.mp ends
  have among : ∀ service ∈ front ++ [last], low ≤ service.startHandle ∧
      service.Proper := fun service member =>
    have known := RangeScan.mem_within.mp (listed.subset member)
    ⟨known.2.1, ordered.proper service (List.mem_of_mem_filter known.1)⟩
  obtain ⟨begins, lastProper⟩ := among last (by simp)
  have range := lastProper.startHandle_le
  have limit := lastProper.endHandle_le
  have before := servicesPage_before ordered listed
  have start := asks.start
  have finish := asks.finish
  have place : serviceKeys.last last = last.endHandle := rfl
  rw [place]
  have sets : Sets serviceUnit (front ++ [last], dataLen) :=
    { nonempty := by simp
      positive := by
        show 0 < dataLen
        omega
      alike := alike }
  rw [← asks.request] at served
  refine ⟨_, served, fun more => ?_, fun full => ?_⟩
  · refine ⟨_, readByGrpTypeCb_more long alike (by omega) (by omega)
      (by omega), ?_⟩
    exact
      { start := rfl
        finish := finish
        type := asks.type
        begins := Nat.succ_le_succ (Nat.zero_le _)
        proper := more
        before := by
          intro service member
          rcases List.mem_append.mp member with old | new
          · have gap := asks.before service old
            omega
          · rcases List.mem_append.mp new with early | here
            · have gap := before service early
              omega
            · obtain rfl := List.mem_singleton.mp here
              omega
        tells := asks.tells.append sets }
  · have tells := asks.reports bounded
    rw [← finish] at tells
    have complete := readByGrpTypeCb_full long alike (by omega) limit
      (fun service member => by
        have gap := before service member
        omega)
      (by omega) tells
    rw [finish] at complete
    exact complete

/-- A service as an iterator yields it. -/
def reportedService
    (high : Nat)
    (service : Service) : Nat × Nat × Option Uint128 :=
  (service.startHandle, reportedEnd high service,
    (gattDbAttributeGetServiceUuid service).map btUuidToUuid128)

/-- What an iterator reads of the UUID of a service. -/
theorem Service.Proper.convertUuidLe
    (proper : service.Proper)
    (rest : List UInt8) :
    Gatt.convertUuidLe (service.decl.value ++ rest)
        service.decl.value.length =
      (gattDbAttributeGetServiceUuid service).map btUuidToUuid128 := by
  obtain ⟨uuid, -, named⟩ := proper.named
  obtain ⟨same, read, equal⟩ := gattDbAttributeGetServiceUuid_named named
  rw [read, named, convertUuidLe_uuidToLe, Option.map_some, equal]

/-- The iterator over services yields each of them. -/
theorem btGattIterNextService_reading
    {iter : GattIter}
    {service : Service}
    {rest : List Service}
    (proper : service.Proper)
    (bounded : high ≤ 0xffff)
    (reading :
      Reading btAttOpReadByGrpTypeRsp (reportedUnit high) iter
        (service :: rest)) :
    ∃ later,
      btGattIterNextService iter =
          some (reportedService high service, later) ∧
        Reading btAttOpReadByGrpTypeRsp (reportedUnit high) later rest := by
  obtain ⟨result, more, shape, opcode, long, ⟨tail, here⟩, behind⟩ :=
    reading.cons
  have start : service.startHandle < 65536 := by
    have range := proper.startHandle_le
    have limit := proper.endHandle_le
    omega
  have finish : reportedEnd high service < 65536 := by
    have limit := proper.endHandle_le
    unfold reportedEnd
    split <;> omega
  have bytes : reportedUnit high service ++ tail =
      putLe16 service.startHandle ++ (putLe16 (reportedEnd high service) ++
        (service.decl.value ++ tail)) := by
    simp [reportedUnit]
  have second : (reportedUnit high service ++ tail).drop 2 =
      putLe16 (reportedEnd high service) ++ (service.decl.value ++ tail) := by
    rw [bytes]
    rfl
  have third : (reportedUnit high service ++ tail).drop 4 =
      service.decl.value ++ tail := by
    rw [bytes]
    rfl
  have value : result.dataLen - 4 = service.decl.value.length := by
    rw [← long]
    unfold reportedUnit
    simp only [List.length_append, length_putLe16]
    omega
  refine ⟨_, ?_, behind⟩
  unfold btGattIterNextService
  rw [shape]
  simp only
  rw [if_neg (fun other => other opcode), here, second, third, value, bytes,
    getLe16_putLe16 start, getLe16_putLe16 finish, proper.convertUuidLe]
  rfl

/-- The iterator over services yields what has been reported. -/
theorem ServicesReported.iterate
    {found : List Service}
    {outcome : Outcome}
    (reported : ServicesReported high found outcome)
    (proper : ∀ service ∈ found, service.Proper)
    (bounded : high ≤ 0xffff)
    {calls : Nat}
    (enough : found.length ≤ calls) :
    Gatt.iterate btGattIterNextService calls
        (btGattIterInit outcome.results) =
      found.map (reportedService high) := by
  rw [← following_eq_map]
  refine reported.tells.reading.iterate ?_ ?_ enough
  · intro iter none
    unfold btGattIterNextService
    rw [none]
  · intro iter service rest later reading
    exact btGattIterNextService_reading
      (proper service (later.subset List.mem_cons_self)) bounded reading

/--
However long a PDU is, a client that discovers the services in a range finds
those that begin in it, with the end of the range for one that ends at 0xffff.
-/
theorem discoverServicesOf_found
    {server : GattServer}
    (run : DbRun gattDbNew server.db)
    (wide : btAttDefaultLeMtu ≤ server.mtu)
    (primary : Bool)
    {start finish : Nat}
    (begins : 1 ≤ start)
    (proper : start ≤ finish)
    (bounded : finish ≤ 0xffff)
    {turns calls : Nat}
    (turnsEnough :
      (within serviceKeys start finish
        (server.db.servicesOf primary)).length < turns)
    (callsEnough :
      (within serviceKeys start finish
        (server.db.servicesOf primary)).length ≤ calls) :
    ∃ outcome,
      discoverServicesOf (Server.serve server) turns start finish primary =
          some outcome ∧
        (outcome.success = true ↔
          within serviceKeys start finish (server.db.servicesOf primary) ≠
            []) ∧
        iterate btGattIterNextService calls
            (btGattIterInit outcome.results) =
          (within serviceKeys start finish (server.db.servicesOf primary)).map
            (reportedService finish) := by
  have ordered := run.ordered gattDbNew_ordered
  have asks : AsksServices finish primary start []
      (discoverServices start finish primary) :=
    { start := rfl
      finish := rfl
      type := rfl
      begins := begins
      proper := proper
      before := fun service member => absurd member List.not_mem_nil
      tells := .nil }
  have scanned : RangeScan.scan serviceKeys finish
      (servicesPage server finish primary) turns start =
        some (within serviceKeys start finish
          (server.db.servicesOf primary)) :=
    (RangeScan.frontPage_serves declLength declLength 4 (server.mtu - 2)).scan
      (ordered.servicesOf primary) turnsEnough
  obtain ⟨outcome, exchanged, reported⟩ :=
    exchange_scan (services_endsEmpty ordered bounded)
      (services_takesPage ordered wide bounded) asks scanned
  rw [List.nil_append] at reported
  have known : ∀ service ∈ within serviceKeys start finish
      (server.db.servicesOf primary), service.Proper := fun service member =>
    ordered.proper service
      (List.mem_of_mem_filter (List.mem_of_mem_filter member))
  refine ⟨outcome, exchanged, ?_,
    reported.iterate known bounded callsEnough⟩
  rw [reported.success, Bool.not_eq_true', List.isEmpty_eq_false_iff]

/-- The service of the file transfer is found. -/
theorem discoverServicesOf_found_mldp :
    ∃ outcome,
      discoverServicesOf (Server.serve mldpServer) 2 1 0xffff true =
          some outcome ∧
        (outcome.success = true ↔
          within serviceKeys 1 0xffff (mldpServer.db.servicesOf true) ≠ []) ∧
        iterate btGattIterNextService 1 (btGattIterInit outcome.results) =
          (within serviceKeys 1 0xffff (mldpServer.db.servicesOf true)).map
            (reportedService 0xffff) :=
  discoverServicesOf_found populateMldpService_run (by decide) true (by decide)
    (by decide) (by decide) (by decide) (by decide)

end Slate106.Gatt
