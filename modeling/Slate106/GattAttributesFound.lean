import Slate106.GattCollected
import Slate106.GattMldp
import Slate106.GattServed

namespace Slate106.Gatt

open CBytes
open RangeScan (within frontPage page mem_frontPage)

/-!
# A client finds the characteristics and the types of a server

The requests for characteristics and for types are answered and collected in
one way, and each data set begins with the handle of its attribute.
-/

variable {low high : Nat}
variable {procedure : Procedure}
variable {unit : Attribute → List UInt8}
variable {attributes : List Attribute}
variable {answer : Nat → Option (List Attribute)}
variable {serve : Pdu → Option Pdu}

/-! ## Answers to a procedure -/

/-- The lengths that a procedure knows go with the shortest response. -/
structure Procedure.Sound
    (procedure : Procedure) : Prop where
  other : procedure.rspOpcode ≠ btAttOpErrorRsp
  positive : ∀ first dataLen, procedure.dataLength first = some dataLen →
    0 < dataLen
  shortest : ∀ first dataLen, procedure.dataLength first = some dataLen →
    procedure.shortest ≤ dataLen + 1

/-- A server answers with what there is in the range, page by page. -/
structure Answers
    (procedure : Procedure)
    (serve : Pdu → Option Pdu)
    (high : Nat)
    (unit : Attribute → List UInt8)
    (answer : Nat → Option (List Attribute)) : Prop where
  empty :
    ∀ low, 1 ≤ low → low ≤ high → answer low = none →
      serve
          { opcode := procedure.reqOpcode
            data := putLe16 low ++ putLe16 high ++ procedure.type } =
        some (notFound procedure.reqOpcode low)
  page :
    ∀ low page, 1 ≤ low → low ≤ high → answer low = some page →
      ∃ header dataLen,
        procedure.dataLength header = some dataLen ∧
          (∀ attrib ∈ page, (unit attrib).length = dataLen) ∧
          serve
              { opcode := procedure.reqOpcode
                data := putLe16 low ++ putLe16 high ++ procedure.type } =
            some
              { opcode := procedure.rspOpcode
                data := header :: page.flatMap unit }

/-- A client between two responses, with the attributes found so far. -/
structure AsksRange
    (procedure : Procedure)
    (high : Nat)
    (unit : Attribute → List UInt8)
    (low : Nat)
    (found : List Attribute)
    (op : GattRequest) : Prop where
  start : op.startHandle = low
  finish : op.endHandle = high
  begins : 1 ≤ low
  proper : low ≤ high
  tells : Tells procedure.rspOpcode unit op.results found

theorem AsksRange.request
    {found : List Attribute}
    {op : GattRequest}
    (asks : AsksRange procedure high unit low found op) :
    procedure.request op =
      { opcode := procedure.reqOpcode
        data := putLe16 low ++ putLe16 high ++ procedure.type } := by
  unfold Procedure.request
  rw [asks.start, asks.finish]

/-- What a client makes of a page of attributes. -/
theorem Procedure.Sound.callback_page
    (sound : procedure.Sound)
    {op : GattRequest}
    {front : List Attribute}
    {last : Attribute}
    {header : UInt8}
    {dataLen : Nat}
    (known : procedure.dataLength header = some dataLen)
    (alike : ∀ attrib ∈ front ++ [last], (unit attrib).length = dataLen)
    (handle : getLe16 (unit last) = last.handle)
    (behind : op.startHandle ≤ last.handle) :
    procedure.callback op
        { opcode := procedure.rspOpcode
          data := header :: (front ++ [last]).flatMap unit } =
      let next :=
        op.behind procedure.rspOpcode unit (front ++ [last], dataLen)
          ((last.handle + 1) % 65536)
      if last.handle ≠ op.endHandle then .ask (procedure.request next) next
      else discoveryOpComplete next true 0 := by
  have total := length_response alike header
  have finish := drop_lastUnit alike header 0
  rw [Nat.add_zero, List.drop_zero] at finish
  have shortest := sound.shortest header dataLen known
  have first : peek (header :: (front ++ [last]).flatMap unit) 0 = header :=
    peek_cons_zero header _
  have whole : ((front ++ [last]).length * dataLen + 1 - 1) % dataLen = 0 := by
    rw [Nat.add_sub_cancel, Nat.mul_mod_left]
  have long : procedure.shortest ≤
      (front ++ [last]).length * dataLen + 1 := by
    rw [List.length_append, List.length_singleton, Nat.add_mul, Nat.one_mul]
    omega
  unfold Procedure.callback
  simp only
  rw [first, known]
  simp only
  rw [finish, total, if_neg sound.other, if_neg (by
    rintro (different | short)
    · exact different rfl
    · omega), if_neg (fun ragged => ragged whole), handle]
  simp only [List.drop_succ_cons, List.drop_zero]
  rw [if_neg (show ¬last.handle < (resultAppend procedure.rspOpcode
    ((front ++ [last]).flatMap unit) dataLen op).startHandle by
      exact Nat.not_lt.mpr behind)]
  rfl

theorem Answers.endsEmpty
    (answers : Answers procedure serve high unit answer) :
    EndsEmpty answer serve procedure.callback procedure.request
      (AsksRange procedure high unit)
      fun found outcome =>
        outcome.Reports procedure.rspOpcode unit found := by
  intro low found op asks empty
  have served := answers.empty low asks.begins asks.proper empty
  rw [← asks.request] at served
  obtain ⟨outcome, completed, reports⟩ :=
    discoveryOpComplete_notFound asks.tells
  exact ⟨_, outcome, served, completed, reports⟩

theorem Answers.takesPage
    (answers : Answers procedure serve high unit answer)
    (sound : procedure.Sound)
    (serves : RangeScan.Serves attributeKeys attributes high answer)
    (handles : ∀ attrib ∈ attributes, getLe16 (unit attrib) = attrib.handle)
    (bounded : high ≤ 0xffff) :
    TakesPage attributeKeys high answer serve procedure.callback
      procedure.request (AsksRange procedure high unit)
      fun found outcome =>
        outcome.Reports procedure.rspOpcode unit found := by
  intro low found op page last asks answered ends
  obtain ⟨header, dataLen, known, alike, served⟩ :=
    answers.page low page asks.begins asks.proper answered
  obtain ⟨front, rfl⟩ := List.getLast?_eq_some_iff.mp ends
  have member : last ∈ within attributeKeys low high attributes :=
    (serves.listed answered).subset (by simp)
  obtain ⟨among, begins, inside⟩ := RangeScan.mem_within.mp member
  have start := asks.start
  have finish := asks.finish
  have place : attributeKeys.last last = last.handle := rfl
  have first : attributeKeys.first last = last.handle := rfl
  rw [first] at begins inside
  have reaction := sound.callback_page known alike (handles last among)
    (show op.startHandle ≤ last.handle by omega)
  have sets : Sets unit (front ++ [last], dataLen) :=
    { nonempty := by simp
      positive := sound.positive header dataLen known
      alike := alike }
  rw [place]
  rw [← asks.request] at served
  simp only at reaction
  refine ⟨_, served, fun more => ?_, fun full => ?_⟩
  · have small : (last.handle + 1) % 65536 = last.handle + 1 :=
      Nat.mod_eq_of_lt (by omega)
    rw [if_pos (show last.handle ≠ op.endHandle by omega), small] at reaction
    exact ⟨_, reaction,
      { start := rfl
        finish := finish
        begins := Nat.succ_le_succ (Nat.zero_le _)
        proper := more
        tells := asks.tells.append sets }⟩
  · rw [if_neg (fun other => other (by omega))] at reaction
    rw [reaction]
    exact discoveryOpComplete_all (asks.tells.append sets) (by simp)

/-- However long a PDU is, the client finds what there is in the range. -/
theorem Answers.discover
    (answers : Answers procedure serve high unit answer)
    (sound : procedure.Sound)
    (serves : RangeScan.Serves attributeKeys attributes high answer)
    (ordered : RangeScan.Ordered attributeKeys attributes)
    (handles : ∀ attrib ∈ attributes, getLe16 (unit attrib) = attrib.handle)
    (begins : 1 ≤ low)
    (proper : low ≤ high)
    (bounded : high ≤ 0xffff)
    {turns : Nat}
    (enough : (within attributeKeys low high attributes).length < turns) :
    ∃ outcome,
      procedure.discover serve turns low high = some outcome ∧
        outcome.Reports procedure.rspOpcode unit
          (within attributeKeys low high attributes) := by
  have asks : AsksRange procedure high unit low [] (discoverRange low high) :=
    { start := rfl
      finish := rfl
      begins := begins
      proper := proper
      tells := .nil }
  exact exchange_scan answers.endsEmpty
    (answers.takesPage sound serves handles bounded) asks
    (serves.scan ordered enough)

/-! ## Characteristics -/

variable {server : GattServer}

theorem discoverChrcs_sound :
    discoverChrcs.Sound where
  other := by decide
  positive first dataLen known := by
    unfold discoverChrcs at known
    simp only at known
    split at known
    · next long =>
        obtain rfl := Option.some.inj known
        rcases long with rfl | rfl <;> decide
    · exact absurd known.symm (Option.some_ne_none dataLen)
  shortest first dataLen known := by
    unfold discoverChrcs at known ⊢
    simp only at known ⊢
    split at known
    · next long =>
        obtain rfl := Option.some.inj known
        rcases long with rfl | rfl <;> decide
    · exact absurd known.symm (Option.some_ne_none dataLen)

/-- What a server lists for a request of characteristics. -/
def characteristicsPage
    (server : GattServer)
    (high low : Nat) : Option (List Attribute) :=
  frontPage valueLength valueLength 2 (server.mtu - 2)
    (within attributeKeys low high server.db.characteristics)

/-- The request for characteristics comes to the attributes in the range. -/
theorem serve_characteristics
    (ordered : server.db.Ordered)
    (idle : server.pendingReadOp = false)
    (begins : 1 ≤ low)
    (proper : low ≤ high)
    (bounded : high ≤ 0xffff) :
    Server.serve server
        { opcode := discoverChrcs.reqOpcode
          data := putLe16 low ++ putLe16 high ++ discoverChrcs.type } =
      match within attributeKeys low high server.db.characteristics with
      | [] => some (notFound discoverChrcs.reqOpcode low)
      | attrib :: rest =>
          processReadByType server (attrib :: rest) false 0 [] := by
  have start := getLe16_range (show low < 65536 by omega) high
    discoverChrcs.type
  have finish := getLe16_rangeEnd low (show high < 65536 by omega)
    discoverChrcs.type
  have type : getUuidLe ((putLe16 low ++ putLe16 high ++
      discoverChrcs.type).drop 4)
        ((putLe16 low ++ putLe16 high ++ discoverChrcs.type).length - 4) =
          some characteristicUuid :=
    getUuidLe_type low high gattCharacUuid
  have listed : gattDbReadByType server.db low high characteristicUuid =
      within attributeKeys low high server.db.characteristics :=
    ordered.gattDbForeachInRange proper (some characteristicUuid)
  show Server.readByTypeCb server
    (putLe16 low ++ putLe16 high ++ discoverChrcs.type) = _
  unfold Server.readByTypeCb
  rw [if_neg (fun wrong => wrong.1 rfl), start, finish, type]
  simp only
  rw [if_neg (by omega), if_neg (by omega), listed, idle]
  rfl

theorem characteristics_answers
    (ordered : server.db.Ordered)
    (idle : server.pendingReadOp = false)
    (secure : 0 ≤ server.security)
    (wide : btAttDefaultLeMtu ≤ server.mtu)
    (bounded : high ≤ 0xffff) :
    Answers discoverChrcs (Server.serve server) high characteristicUnit
      (characteristicsPage server high) where
  empty low begins proper empty := by
    have served := serve_characteristics ordered idle begins proper bounded
    unfold characteristicsPage at empty
    cases listed : within attributeKeys low high server.db.characteristics with
    | nil =>
        rw [listed] at served
        exact served
    | cons first rest =>
        rw [listed] at empty
        exact absurd empty (Option.some_ne_none _)
  page low page begins proper answered := by
    have served := serve_characteristics ordered idle begins proper bounded
    have declare : ∀ attrib ∈ within attributeKeys low high
        server.db.characteristics, Declares attrib := fun attrib member =>
      ordered.declares (List.mem_of_mem_filter member)
    unfold characteristicsPage at answered
    generalize within attributeKeys low high server.db.characteristics =
      attributes at served answered declare
    cases attributes with
    | nil =>
        exact absurd answered.symm (Option.some_ne_none page)
    | cons first rest =>
        obtain rfl := Option.some.inj answered
        have long := (declare first List.mem_cons_self).valueLength
        simp only [processReadByType_first declare secure wide] at served
        refine ⟨_, valueLength first + 2, ?_, ?_, served⟩
        · rcases long with short | long
          · rw [short]
            rfl
          · rw [long]
            rfl
        · intro attrib member
          rw [length_characteristicUnit]
          rcases mem_frontPage member with rfl | ⟨-, same⟩
          · rfl
          · rw [same]

/-- The last handle of a characteristic: what is before the next one. -/
def characteristicEnd
    (high : Nat)
    (next : Option Attribute) : Nat :=
  next.elim high fun next => next.handle - 1

/-- A characteristic as the database has it and as an iterator yields it. -/
def reportedCharacteristic
    (high : Nat)
    (attrib : Attribute)
    (next : Option Attribute) :
    Option (Nat × Nat × Nat × UInt8 × Option Uint128) :=
  (gattDbAttributeGetCharData attrib).map
    fun (handle, valueHandle, properties, uuid) =>
      (handle, characteristicEnd high next, valueHandle, properties,
        some (btUuidToUuid128 uuid))

/-- What an iterator yields of the bytes of a declaration. -/
def yieldedCharacteristic
    (high : Nat)
    (attrib : Attribute)
    (next : Option Attribute) : Nat × Nat × Nat × UInt8 × Option Uint128 :=
  (attrib.handle, characteristicEnd high next, getLe16 (attrib.value.drop 1),
    peek attrib.value 0,
    convertUuidLe (attrib.value.drop 3) (attrib.value.length - 3))

variable {attrib : Attribute}

/-- The iterator yields what the database has. -/
theorem Declares.yielded
    (declares : Declares attrib)
    (high : Nat)
    (next : Option Attribute) :
    some (yieldedCharacteristic high attrib next) =
      reportedCharacteristic high attrib next := by
  have long := declares.valueLength
  obtain ⟨properties, uuid, shape⟩ := declares
  have value : attrib.value =
      properties :: putLe16 (attrib.handle + 1) ++ uuidToLe uuid := by
    rw [shape]
    rfl
  have type : attrib.uuid = characteristicUuid := by
    rw [shape]
    rfl
  have rest : attrib.value.drop 3 = uuidToLe uuid := by
    rw [value]
    rfl
  have length : attrib.value.length - 3 = (uuidToLe uuid).length := by
    rw [← rest, List.length_drop]
  obtain ⟨same, read, equal⟩ := leToUuid_uuidToLe uuid []
  have converted := convertUuidLe_uuidToLe uuid []
  rw [List.append_nil] at read converted
  unfold Gatt.valueLength at long
  have sized : ¬(attrib.value.length ≠ 5 ∧ attrib.value.length ≠ 19) := by
    omega
  unfold reportedCharacteristic yieldedCharacteristic
    gattDbAttributeGetCharData
  rw [type, btUuidCmp_self, if_neg (by decide), if_neg sized, rest, length,
    read, converted, ← equal]
  rfl

theorem getLe16_characteristicUnit
    (bounded : attrib.handle ≤ 0xffff)
    (tail : List UInt8) :
    getLe16 (characteristicUnit attrib ++ tail) = attrib.handle := by
  unfold characteristicUnit
  rw [List.append_assoc]
  exact getLe16_putLe16 (by omega) _

/-- A characteristic ends before the declaration that is read next. -/
theorem Reading.characteristicEnd
    {iter : GattIter}
    {rest : List Attribute}
    (reading :
      Reading discoverChrcs.rspOpcode characteristicUnit iter rest)
    (handles : ∀ other ∈ rest, 1 ≤ other.handle ∧ other.handle ≤ 0xffff) :
    iter.characteristicEnd high = Gatt.characteristicEnd high rest.head? := by
  unfold GattIter.characteristicEnd
  cases rest with
  | nil =>
      rw [reading.nil]
      rfl
  | cons next others =>
      obtain ⟨result, more, shape, -, -, ⟨tail, here⟩, -⟩ := reading.cons
      obtain ⟨first, last⟩ := handles next List.mem_cons_self
      simp only [shape]
      rw [here, getLe16_characteristicUnit last]
      show (next.handle + 65535) % 65536 = next.handle - 1
      omega

/-- The iterator over characteristics yields each of them. -/
theorem btGattIterNextCharacteristic_reading
    {iter : GattIter}
    {rest : List Attribute}
    (declares : Declares attrib)
    (handles : ∀ other ∈ attrib :: rest, 1 ≤ other.handle ∧
      other.handle ≤ 0xffff)
    (reading :
      Reading discoverChrcs.rspOpcode characteristicUnit iter
        (attrib :: rest)) :
    ∃ later,
      btGattIterNextCharacteristic high iter =
          some (yieldedCharacteristic high attrib rest.head?, later) ∧
        Reading discoverChrcs.rspOpcode characteristicUnit later rest := by
  obtain ⟨result, more, shape, opcode, long, ⟨tail, here⟩, behind⟩ :=
    reading.cons
  have size := declares.valueLength
  rw [length_characteristicUnit] at long
  have other := (handles attrib List.mem_cons_self).2
  have last : GattIter.characteristicEnd high _ = _ :=
    behind.characteristicEnd fun later member =>
      handles later (List.mem_cons_of_mem attrib member)
  have value : result.dataLen - 5 = attrib.value.length - 3 := by
    rw [← long]
    show attrib.value.length + 2 - 5 = _
    omega
  obtain ⟨properties, uuid, declared⟩ := declares
  have bytes : attrib.value =
      properties :: putLe16 (attrib.handle + 1) ++ uuidToLe uuid := by
    rw [declared]
    rfl
  have valueHandle : getLe16 ((characteristicUnit attrib ++ tail).drop 3) =
      getLe16 (attrib.value.drop 1) := by
    unfold characteristicUnit
    rw [bytes]
    rfl
  have first : peek (characteristicUnit attrib ++ tail) 2 =
      peek attrib.value 0 := by
    unfold characteristicUnit
    rw [bytes]
    rfl
  have type : convertUuidLe ((characteristicUnit attrib ++ tail).drop 5)
      (attrib.value.length - 3) =
        convertUuidLe (attrib.value.drop 3) (attrib.value.length - 3) := by
    have rest : attrib.value.drop 3 = uuidToLe uuid ++ [] := by
      rw [bytes, List.append_nil]
      rfl
    have length : attrib.value.length - 3 = (uuidToLe uuid).length := by
      rw [bytes]
      rfl
    have behind : (characteristicUnit attrib ++ tail).drop 5 =
        uuidToLe uuid ++ tail := by
      unfold characteristicUnit
      rw [bytes]
      rfl
    rw [behind, rest, length, convertUuidLe_uuidToLe, convertUuidLe_uuidToLe]
  refine ⟨_, ?_, behind⟩
  unfold btGattIterNextCharacteristic
  rw [shape]
  simp only
  rw [if_neg (fun other => other opcode), if_neg (by omega), here, last,
    getLe16_characteristicUnit other, value, valueHandle, first, type]
  rfl

theorem GattDb.Ordered.handle_le
    {db : GattDb}
    (ordered : db.Ordered)
    (member : attrib ∈ db.attributes) :
    attrib.handle ≤ 0xffff := by
  obtain ⟨service, active, among⟩ := List.mem_flatMap.mp member
  have proper := ordered.proper service (List.mem_of_mem_filter active)
  exact Nat.le_trans (proper.within among).2 proper.endHandle_le

/-- The attributes that a range of valid handles holds have such handles. -/
theorem handles_within
    (begins : 1 ≤ low)
    (bounded : high ≤ 0xffff) :
    ∀ other ∈ within attributeKeys low high attributes,
      1 ≤ other.handle ∧ other.handle ≤ 0xffff := by
  intro other member
  have place : attributeKeys.first other = other.handle := rfl
  have range := RangeScan.mem_within.mp member
  omega

/--
However long a PDU is, a client that discovers the characteristics in a range
finds those whose declaration is in it, each up to the next one.
-/
theorem discoverChrcs_found
    {server : GattServer}
    (run : DbRun gattDbNew server.db)
    (idle : server.pendingReadOp = false)
    (secure : 0 ≤ server.security)
    (wide : btAttDefaultLeMtu ≤ server.mtu)
    {start finish : Nat}
    (begins : 1 ≤ start)
    (proper : start ≤ finish)
    (bounded : finish ≤ 0xffff)
    {turns calls : Nat}
    (turnsEnough :
      (within attributeKeys start finish
        server.db.characteristics).length < turns)
    (callsEnough :
      (within attributeKeys start finish
        server.db.characteristics).length ≤ calls) :
    ∃ outcome,
      discoverChrcs.discover (Server.serve server) turns start finish =
          some outcome ∧
        (outcome.success = true ↔
          within attributeKeys start finish server.db.characteristics ≠ []) ∧
        (iterate (btGattIterNextCharacteristic finish) calls
            (btGattIterInit outcome.results)).map some =
          following (reportedCharacteristic finish)
            (within attributeKeys start finish server.db.characteristics) := by
  have ordered := run.ordered gattDbNew_ordered
  have handles : ∀ attrib ∈ server.db.characteristics,
      getLe16 (characteristicUnit attrib) = attrib.handle := by
    intro attrib member
    have small := ordered.handle_le (List.mem_of_mem_filter member)
    rw [← List.append_nil (characteristicUnit attrib)]
    exact getLe16_characteristicUnit small []
  have found : RangeScan.Ordered attributeKeys server.db.characteristics :=
    ordered.attributes.filter _
  obtain ⟨outcome, exchanged, reported⟩ :=
    (characteristics_answers ordered idle secure wide bounded).discover
      discoverChrcs_sound
      (RangeScan.frontPage_serves valueLength valueLength 2 (server.mtu - 2))
      found handles begins proper bounded turnsEnough
  refine ⟨outcome, exchanged, ?_, ?_⟩
  · rw [reported.success, Bool.not_eq_true', List.isEmpty_eq_false_iff]
  · have declare : ∀ attrib ∈ within attributeKeys start finish
        server.db.characteristics, Declares attrib := fun attrib member =>
      ordered.declares (List.mem_of_mem_filter member)
    have yielded : iterate (btGattIterNextCharacteristic finish) calls
        (btGattIterInit outcome.results) =
          following (yieldedCharacteristic finish)
            (within attributeKeys start finish server.db.characteristics) := by
      refine reported.tells.reading.iterate ?_ ?_ callsEnough
      · intro iter none
        unfold btGattIterNextCharacteristic
        rw [none]
      · intro iter attrib rest later reading
        exact btGattIterNextCharacteristic_reading
          (declare attrib (later.subset List.mem_cons_self))
          (fun other member =>
            handles_within begins bounded other (later.subset member))
          reading
    rw [yielded]
    exact map_following fun attrib member next =>
      (declare attrib member).yielded finish next

/-- The characteristics of the file transfer are found. -/
theorem discoverChrcs_found_mldp :
    ∃ outcome,
      discoverChrcs.discover (Server.serve mldpServer) 3 1 8 = some outcome ∧
        (outcome.success = true ↔
          within attributeKeys 1 8 mldpServer.db.characteristics ≠ []) ∧
        (iterate (btGattIterNextCharacteristic 8) 2
            (btGattIterInit outcome.results)).map some =
          following (reportedCharacteristic 8)
            (within attributeKeys 1 8 mldpServer.db.characteristics) :=
  discoverChrcs_found populateMldpService_run rfl (by decide) (by decide)
    (by decide) (by decide) (by decide) (by decide) (by decide)

/-! ## Types -/

theorem discoverDescs_sound :
    discoverDescs.Sound where
  other := by decide
  positive first dataLen known := by
    unfold discoverDescs at known
    simp only at known
    split_ifs at known
    · obtain rfl := Option.some.inj known
      decide
    · obtain rfl := Option.some.inj known
      decide
  shortest first dataLen known := by
    unfold discoverDescs at known ⊢
    simp only at known ⊢
    split_ifs at known
    · obtain rfl := Option.some.inj known
      decide
    · obtain rfl := Option.some.inj known
      decide

/-- What a server lists for a request of types. -/
def informationPage
    (server : GattServer)
    (high low : Nat) : Option (List Attribute) :=
  frontPage typeLength uuidLength 2 (server.mtu - 2)
    (within attributeKeys low high server.db.attributes)

/-- The request for types comes to the attributes in the range. -/
theorem serve_information
    (ordered : server.db.Ordered)
    (begins : 1 ≤ low)
    (proper : low ≤ high)
    (bounded : high ≤ 0xffff) :
    Server.serve server
        { opcode := discoverDescs.reqOpcode
          data := putLe16 low ++ putLe16 high ++ discoverDescs.type } =
      some
        (match within attributeKeys low high server.db.attributes with
        | [] => notFound discoverDescs.reqOpcode low
        | attrib :: rest =>
            match encodeFindInfoRsp server.mtu (attrib :: rest) with
            | none => sendErrorRsp discoverDescs.reqOpcode low btAttErrorUnlikely
            | some rspPdu =>
                { opcode := discoverDescs.rspOpcode
                  data := rspPdu }) := by
  have start := getLe16_range (show low < 65536 by omega) high
    discoverDescs.type
  have finish := getLe16_rangeEnd low (show high < 65536 by omega)
    discoverDescs.type
  have any : server.db.attributes.filter (ofType none) =
      server.db.attributes :=
    List.filter_eq_self.mpr fun _ _ => rfl
  have listed := ordered.gattDbForeachInRange proper none
  rw [any] at listed
  show some (Server.findInfoCb server
    (putLe16 low ++ putLe16 high ++ discoverDescs.type)) = _
  unfold Server.findInfoCb gattDbFindInformation
  rw [if_neg (fun wrong => wrong rfl), start, finish]
  simp only
  rw [if_neg (by omega), if_neg (by omega), listed]
  rfl

theorem information_answers
    (ordered : server.db.Ordered)
    (wide : btAttDefaultLeMtu ≤ server.mtu)
    (bounded : high ≤ 0xffff) :
    Answers discoverDescs (Server.serve server) high informationUnit
      (informationPage server high) where
  empty low begins proper empty := by
    have served := serve_information ordered begins proper bounded
    unfold informationPage at empty
    cases listed : within attributeKeys low high server.db.attributes with
    | nil =>
        rw [listed] at served
        exact served
    | cons first rest =>
        rw [listed] at empty
        exact absurd empty (Option.some_ne_none _)
  page low page begins proper answered := by
    have served := serve_information ordered begins proper bounded
    have valid : ∀ attrib ∈ within attributeKeys low high
        server.db.attributes, attrib.handle ≠ 0 := by
      intro attrib member
      have place : attributeKeys.first attrib = attrib.handle := rfl
      have range := RangeScan.mem_within.mp member
      omega
    unfold informationPage at answered
    generalize within attributeKeys low high server.db.attributes =
      attributes at served answered valid
    cases attributes with
    | nil =>
        exact absurd answered.symm (Option.some_ne_none page)
    | cons first rest =>
        obtain rfl := Option.some.inj answered
        simp only [encodeFindInfoRsp_page valid wide] at served
        refine ⟨_, typeLength first + 2, ?_, ?_, served⟩
        · unfold formatOf typeLength
          split <;> rfl
        · intro attrib member
          rw [length_informationUnit]
          rcases mem_frontPage member with rfl | ⟨-, same⟩
          · rfl
          · rw [typeLength_of_uuidLength same]

/-- An attribute as an iterator over types yields it. -/
def reportedDescriptor
    (attrib : Attribute) : Nat × Option Uint128 :=
  (attrib.handle, some (btUuidToUuid128 attrib.uuid))

theorem getLe16_informationUnit
    (bounded : attrib.handle ≤ 0xffff)
    (tail : List UInt8) :
    getLe16 (informationUnit attrib ++ tail) = attrib.handle := by
  unfold informationUnit
  rw [List.append_assoc]
  exact getLe16_putLe16 (by omega) _

/-- The iterator over types yields each of them. -/
theorem btGattIterNextDescriptor_reading
    {iter : GattIter}
    {rest : List Attribute}
    (bounded : attrib.handle ≤ 0xffff)
    (reading :
      Reading discoverDescs.rspOpcode informationUnit iter (attrib :: rest)) :
    ∃ later,
      btGattIterNextDescriptor iter =
          some (reportedDescriptor attrib, later) ∧
        Reading discoverDescs.rspOpcode informationUnit later rest := by
  obtain ⟨result, more, shape, opcode, long, ⟨tail, here⟩, behind⟩ :=
    reading.cons
  have type : (informationUnit attrib ++ tail).drop 2 =
      uuidToLe attrib.uuid ++ tail := by
    rw [uuidToLe_eq]
    rfl
  have length : result.dataLen - 2 = (uuidToLe attrib.uuid).length := by
    rw [← long, uuidToLe_eq]
    rfl
  refine ⟨_, ?_, behind⟩
  unfold btGattIterNextDescriptor
  rw [shape]
  simp only
  rw [if_neg (fun other => other opcode), here, type, length,
    getLe16_informationUnit bounded, convertUuidLe_uuidToLe]
  rfl

/--
However long a PDU is, a client that discovers the descriptors in a range finds
every attribute in it, with its type.
-/
theorem discoverDescs_found
    {server : GattServer}
    (run : DbRun gattDbNew server.db)
    (wide : btAttDefaultLeMtu ≤ server.mtu)
    {start finish : Nat}
    (begins : 1 ≤ start)
    (proper : start ≤ finish)
    (bounded : finish ≤ 0xffff)
    {turns calls : Nat}
    (turnsEnough :
      (within attributeKeys start finish server.db.attributes).length < turns)
    (callsEnough :
      (within attributeKeys start finish server.db.attributes).length ≤
        calls) :
    ∃ outcome,
      discoverDescs.discover (Server.serve server) turns start finish =
          some outcome ∧
        (outcome.success = true ↔
          within attributeKeys start finish server.db.attributes ≠ []) ∧
        iterate btGattIterNextDescriptor calls
            (btGattIterInit outcome.results) =
          (within attributeKeys start finish server.db.attributes).map
            reportedDescriptor := by
  have ordered := run.ordered gattDbNew_ordered
  have handles : ∀ attrib ∈ server.db.attributes,
      getLe16 (informationUnit attrib) = attrib.handle := by
    intro attrib member
    rw [← List.append_nil (informationUnit attrib)]
    exact getLe16_informationUnit (ordered.handle_le member) []
  obtain ⟨outcome, exchanged, reported⟩ :=
    (information_answers ordered wide bounded).discover discoverDescs_sound
      (RangeScan.frontPage_serves typeLength uuidLength 2 (server.mtu - 2))
      ordered.attributes handles begins proper bounded turnsEnough
  refine ⟨outcome, exchanged, ?_, ?_⟩
  · rw [reported.success, Bool.not_eq_true', List.isEmpty_eq_false_iff]
  · rw [← following_eq_map]
    refine reported.tells.reading.iterate ?_ ?_ callsEnough
    · intro iter none
      unfold btGattIterNextDescriptor
      rw [none]
    · intro iter attrib rest later reading
      exact btGattIterNextDescriptor_reading
        (ordered.handle_le
          (List.mem_of_mem_filter (later.subset List.mem_cons_self)))
        reading

/-- The attributes of the service of the file transfer are found. -/
theorem discoverDescs_found_mldp :
    ∃ outcome,
      discoverDescs.discover (Server.serve mldpServer) 7 1 8 = some outcome ∧
        (outcome.success = true ↔
          within attributeKeys 1 8 mldpServer.db.attributes ≠ []) ∧
        iterate btGattIterNextDescriptor 6
            (btGattIterInit outcome.results) =
          (within attributeKeys 1 8 mldpServer.db.attributes).map
            reportedDescriptor :=
  discoverDescs_found populateMldpService_run (by decide) (by decide)
    (by decide) (by decide) (by decide) (by decide)

end Slate106.Gatt
