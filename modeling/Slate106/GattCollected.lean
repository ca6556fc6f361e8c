import Slate106.GattDiscovery

namespace Slate106.Gatt

open CBytes

/-!
# What a client has collected

The data sets of the responses, read one after the other, and the exchange of
requests and responses as a reading of pages.
-/

variable {β γ : Type}

/-! ## Results -/

/-- A result with the data sets of some items. -/
def resultOf
    (opcode : UInt8)
    (unit : β → List UInt8)
    (page : List β × Nat) : GattResult where
  opcode := opcode
  pdu := page.1.flatMap unit
  dataLen := page.2

/-- Data sets of one length, and at least one. -/
structure Sets
    (unit : β → List UInt8)
    (page : List β × Nat) : Prop where
  nonempty : page.1 ≠ []
  positive : 0 < page.2
  alike : ∀ item ∈ page.1, (unit item).length = page.2

/-- The data sets of the results are those of the items, in order. -/
def Tells
    (opcode : UInt8)
    (unit : β → List UInt8)
    (results : List GattResult)
    (items : List β) : Prop :=
  ∃ pages : List (List β × Nat),
    (∀ page ∈ pages, Sets unit page) ∧
      results = pages.map (resultOf opcode unit) ∧
      items = pages.flatMap Prod.fst

variable {opcode : UInt8}
variable {unit : β → List UInt8}
variable {results : List GattResult}
variable {items : List β}

theorem Tells.nil :
    Tells opcode unit [] [] :=
  ⟨[], by simp, rfl, rfl⟩

theorem Tells.append
    (tells : Tells opcode unit results items)
    {page : List β}
    {dataLen : Nat}
    (sets : Sets unit (page, dataLen)) :
    Tells opcode unit (results ++ [resultOf opcode unit (page, dataLen)])
      (items ++ page) := by
  obtain ⟨pages, all, rfl, rfl⟩ := tells
  refine ⟨pages ++ [(page, dataLen)], ?_, by simp, by simp⟩
  intro other member
  rcases List.mem_append.mp member with old | new
  · exact all other old
  · obtain rfl := List.mem_singleton.mp new
    exact sets

/-- There are results exactly when there are items. -/
theorem Tells.nil_iff
    (tells : Tells opcode unit results items) :
    results = [] ↔ items = [] := by
  obtain ⟨pages, all, rfl, rfl⟩ := tells
  cases pages with
  | nil =>
      simp
  | cons page pages =>
      have nonempty := (all page List.mem_cons_self).nonempty
      simp [nonempty]

/-- The same data sets, told in another way. -/
theorem Tells.congr
    {unit' : β → List UInt8}
    (tells : Tells opcode unit results items)
    (same : ∀ item ∈ items, unit' item = unit item) :
    Tells opcode unit' results items := by
  obtain ⟨pages, all, rfl, rfl⟩ := tells
  have here : ∀ page ∈ pages, ∀ item ∈ page.1, unit' item = unit item :=
    fun page known item member =>
      same item (List.mem_flatMap.mpr ⟨page, known, member⟩)
  refine ⟨pages, fun page known => ?_, ?_, rfl⟩
  · have sets := all page known
    exact
      { nonempty := sets.nonempty
        positive := sets.positive
        alike := fun item among => by
          rw [here page known item among]
          exact sets.alike item among }
  · refine List.map_congr_left fun page known => ?_
    unfold resultOf
    congr 1
    exact (List.flatMap_congr fun item among =>
      here page known item among).symm

theorem length_flatMap_unit
    {dataLen : Nat}
    (alike : ∀ item ∈ items, (unit item).length = dataLen) :
    (items.flatMap unit).length = items.length * dataLen := by
  induction items with
  | nil =>
      simp
  | cons first rest inductionHypothesis =>
      rw [List.flatMap_cons, List.length_append,
        alike first List.mem_cons_self,
        inductionHypothesis fun item member =>
          alike item (List.mem_cons_of_mem first member),
        List.length_cons, Nat.succ_mul]
      omega

/-- Behind some data sets come the others. -/
theorem drop_units
    {before : List β}
    {dataLen : Nat}
    (alike : ∀ item ∈ before, (unit item).length = dataLen)
    (here : List β) :
    ((before ++ here).flatMap unit).drop (before.length * dataLen) =
      here.flatMap unit := by
  rw [List.flatMap_append, ← length_flatMap_unit alike, List.drop_left]

/-! ## Iterators -/

/-- What an iterator is going to yield: the items from a place on. -/
def Reading
    (opcode : UInt8)
    (unit : β → List UInt8)
    (iter : GattIter)
    (items : List β) : Prop :=
  (iter.results = [] ∧ items = []) ∨
    ∃ before here dataLen more later,
      Sets unit (before ++ here, dataLen) ∧
        iter.results =
          resultOf opcode unit (before ++ here, dataLen) :: more ∧
        iter.pos = before.length * dataLen ∧ here ≠ [] ∧
        Tells opcode unit more later ∧ items = here ++ later

variable {iter : GattIter}

theorem Tells.reading
    (tells : Tells opcode unit results items) :
    Reading opcode unit (btGattIterInit results) items := by
  obtain ⟨pages, all, rfl, rfl⟩ := tells
  cases pages with
  | nil =>
      exact .inl ⟨rfl, rfl⟩
  | cons page pages =>
      obtain ⟨here, dataLen⟩ := page
      have sets := all _ List.mem_cons_self
      refine .inr ⟨[], here, dataLen, _, _, sets, rfl, ?_, sets.nonempty,
        ⟨pages, fun page member => all page (List.mem_cons_of_mem _ member),
          rfl, rfl⟩, rfl⟩
      show 0 = 0 * dataLen
      rw [Nat.zero_mul]

theorem Reading.nil
    (reading : Reading opcode unit iter []) :
    iter.results = [] := by
  rcases reading with ⟨none, -⟩ | ⟨_, here, _, _, later, -, -, -, some, -, shape⟩
  · exact none
  · exact absurd (List.append_eq_nil_iff.mp shape.symm).1 some

/-- The next item is read where the iterator points, and the others behind it. -/
theorem Reading.cons
    {item : β}
    {rest : List β}
    (reading : Reading opcode unit iter (item :: rest)) :
    ∃ result more,
      iter.results = result :: more ∧ result.opcode = opcode ∧
        (unit item).length = result.dataLen ∧
        (∃ tail, result.pdu.drop iter.pos = unit item ++ tail) ∧
        Reading opcode unit (.advance result more iter.pos) rest := by
  rcases reading with ⟨-, none⟩ |
    ⟨before, here, dataLen, more, later, sets, shape, place, some, tells, all⟩
  · exact absurd none (List.cons_ne_nil item rest)
  · obtain ⟨first, others, rfl⟩ := List.exists_cons_of_ne_nil some
    obtain ⟨rfl, rfl⟩ := List.cons.inj all
    have alike := sets.alike
    have front : ∀ other ∈ before, (unit other).length = dataLen :=
      fun other member => alike other (List.mem_append_left _ member)
    have long : (unit item).length = dataLen :=
      alike item (List.mem_append_right _ List.mem_cons_self)
    have total : ((before ++ item :: others).flatMap unit).length =
        (before ++ item :: others).length * dataLen :=
      length_flatMap_unit alike
    refine ⟨_, more, shape, rfl, long, ⟨others.flatMap unit, ?_⟩, ?_⟩
    · rw [place]
      show ((before ++ item :: others).flatMap unit).drop _ = _
      rw [drop_units front, List.flatMap_cons]
    · unfold GattIter.advance
      rw [place]
      show Reading opcode unit
        (if before.length * dataLen + dataLen =
            ((before ++ item :: others).flatMap unit).length then _ else _) _
      rw [total, List.length_append, List.length_cons]
      cases others with
      | nil =>
          rw [if_pos (by
            rw [List.length_nil, Nat.zero_add, Nat.add_mul, Nat.one_mul])]
          exact tells.reading
      | cons next others =>
          have further : before.length * dataLen + dataLen ≠
              (before.length + ((next :: others).length + 1)) * dataLen := by
            have positive := sets.positive
            simp only [List.length_cons, Nat.add_mul, Nat.one_mul]
            generalize before.length * dataLen = start
            generalize others.length * dataLen = rest
            show start + dataLen ≠ _
            simp only at positive
            omega
          rw [if_neg further]
          refine .inr ⟨before ++ [item], next :: others, dataLen, more, later,
            ?_, ?_, ?_, List.cons_ne_nil _ _, tells, rfl⟩
          · rw [List.append_assoc]
            exact sets
          · rw [List.append_assoc]
            rfl
          · show before.length * dataLen + dataLen = _
            rw [List.length_append, List.length_singleton, Nat.add_mul,
              Nat.one_mul]

/-- A value for each item, which may depend on the next one. -/
def following
    (value : β → Option β → γ) : List β → List γ
  | [] => []
  | item :: rest => value item rest.head? :: following value rest

theorem following_eq_map
    (value : β → γ)
    (items : List β) :
    following (fun item _ => value item) items = items.map value := by
  induction items with
  | nil =>
      rfl
  | cons item rest inductionHypothesis =>
      rw [following, inductionHypothesis, List.map_cons]

theorem map_following
    {δ : Type}
    {value : β → Option β → γ}
    {image : γ → δ}
    {other : β → Option β → δ}
    (same : ∀ item ∈ items, ∀ next, image (value item next) = other item next) :
    (following value items).map image = following other items := by
  induction items with
  | nil =>
      rfl
  | cons item rest inductionHypothesis =>
      rw [following, List.map_cons, same item List.mem_cons_self,
        inductionHypothesis fun later member =>
          same later (List.mem_cons_of_mem item member)]
      rfl

/-- An iterator that yields a value at each item yields those of all. -/
theorem Reading.iterate
    {next : GattIter → Option (γ × GattIter)}
    {value : β → Option β → γ}
    {calls : Nat}
    (reading : Reading opcode unit iter items)
    (stop : ∀ iter : GattIter, iter.results = [] → next iter = none)
    (step :
      ∀ iter item rest,
        (item :: rest <:+ items) → Reading opcode unit iter (item :: rest) →
          ∃ later, next iter = some (value item rest.head?, later) ∧
            Reading opcode unit later rest)
    (enough : items.length ≤ calls) :
    iterate next calls iter = following value items := by
  induction calls generalizing iter items with
  | zero =>
      obtain rfl := List.length_eq_zero_iff.mp (Nat.le_zero.mp enough)
      rfl
  | succ calls inductionHypothesis =>
      unfold Gatt.iterate
      cases items with
      | nil =>
          rw [stop iter reading.nil]
          rfl
      | cons item rest =>
          obtain ⟨later, yielded, behind⟩ :=
            step iter item rest (List.suffix_refl _) reading
          rw [yielded]
          have others := inductionHypothesis behind
            (fun iter other more later =>
              step iter other more
                (later.trans (List.suffix_cons item rest)))
            (Nat.le_of_succ_le_succ enough)
          simp only [others, following]

/-! ## Requests and errors -/

variable {low high : Nat}

/-- A response that there is nothing in the range. -/
def notFound
    (opcode : UInt8)
    (start : Nat) : Pdu :=
  sendErrorRsp opcode start btAttErrorAttributeNotFound

/-- The range of a request is read as it was put. -/
theorem getLe16_range
    (short : low < 65536)
    (high : Nat)
    (type : List UInt8) :
    getLe16 (putLe16 low ++ putLe16 high ++ type) = low := by
  rw [List.append_assoc]
  exact getLe16_putLe16 short _

theorem getLe16_rangeEnd
    (low : Nat)
    (short : high < 65536)
    (type : List UInt8) :
    getLe16 ((putLe16 low ++ putLe16 high ++ type).drop 2) = high := by
  rw [List.append_assoc]
  exact getLe16_putLe16 short type

/-- The type behind the range of a request. -/
theorem getUuidLe_type
    (low high : Nat)
    (u16 : UInt16) :
    getUuidLe ((putLe16 low ++ putLe16 high ++ putLe16 u16.toNat).drop 4)
        ((putLe16 low ++ putLe16 high ++ putLe16 u16.toNat).length - 4) =
      some (.uuid16 u16) := by
  have value : getLe16 (putLe16 u16.toNat ++ []) = u16.toNat :=
    getLe16_putLe16 u16.toNat_lt []
  rw [List.append_nil] at value
  show some (BtUuid.uuid16 (UInt16.ofNat (getLe16 (putLe16 u16.toNat)))) = _
  rw [value, UInt16.ofNat_toNat]

/-- The last data set of a response, from some byte on. -/
theorem drop_lastUnit
    {unit : β → List UInt8}
    {front : List β}
    {last : β}
    {dataLen : Nat}
    (alike : ∀ item ∈ front ++ [last], (unit item).length = dataLen)
    (header : UInt8)
    (offset : Nat) :
    (header :: (front ++ [last]).flatMap unit).drop
        ((header :: (front ++ [last]).flatMap unit).length - dataLen +
          offset) =
      (unit last).drop offset := by
  have total := length_flatMap_unit alike
  have before : ∀ item ∈ front, (unit item).length = dataLen :=
    fun item member => alike item (List.mem_append_left _ member)
  have place : (header :: (front ++ [last]).flatMap unit).length - dataLen +
      offset = front.length * dataLen + offset + 1 := by
    rw [List.length_cons, total, List.length_append, List.length_singleton,
      Nat.add_mul, Nat.one_mul]
    omega
  rw [place, List.drop_succ_cons, ← List.drop_drop, drop_units before]
  simp

/-- The length of a response with data sets of one length. -/
theorem length_response
    {unit : β → List UInt8}
    {items : List β}
    {dataLen : Nat}
    (alike : ∀ item ∈ items, (unit item).length = dataLen)
    (header : UInt8) :
    (header :: items.flatMap unit).length = items.length * dataLen + 1 := by
  rw [List.length_cons, length_flatMap_unit alike]

/-- The callback of an exchange that has found items. -/
structure Outcome.Reports
    (outcome : Outcome)
    (opcode : UInt8)
    (unit : β → List UInt8)
    (items : List β) : Prop where
  success : outcome.success = !items.isEmpty
  tells : Tells opcode unit outcome.results items

variable {op : GattRequest}

/-- When nothing more is found, what was found is reported. -/
theorem discoveryOpComplete_notFound
    (tells : Tells opcode unit op.results items) :
    ∃ outcome,
      discoveryOpComplete op false btAttErrorAttributeNotFound =
          .complete outcome ∧
        outcome.Reports opcode unit items := by
  refine ⟨_, rfl, ?_⟩
  cases items with
  | nil =>
      have none := tells.nil_iff.mpr rfl
      simp only [none, ne_eq, not_true_eq_false, and_false, if_false,
        Bool.false_eq_true]
      exact ⟨rfl, .nil⟩
  | cons item rest =>
      have some : op.results ≠ [] := fun none =>
        List.cons_ne_nil item rest (tells.nil_iff.mp none)
      simp only [true_and, some, ne_eq, not_false_eq_true, if_true]
      exact ⟨rfl, tells⟩

/-- When the range is used up, what was found is reported. -/
theorem discoveryOpComplete_all
    (tells : Tells opcode unit op.results items)
    (some : items ≠ []) :
    ∃ outcome,
      discoveryOpComplete op true 0 = .complete outcome ∧
        outcome.Reports opcode unit items := by
  refine ⟨_, rfl, ?_⟩
  have always : (if (0 : Nat) = btAttErrorAttributeNotFound ∧ op.results ≠ []
      then true else true) = true := ite_self true
  simp only [always, if_true]
  refine ⟨?_, tells⟩
  cases items with
  | nil =>
      exact absurd rfl some
  | cons item rest =>
      rfl

/-- A request behind a page that it has collected. -/
def GattRequest.behind
    (op : GattRequest)
    (opcode : UInt8)
    (unit : β → List UInt8)
    (page : List β × Nat)
    (next : Nat) : GattRequest :=
  { op with
    startHandle := next
    results := op.results ++ [resultOf opcode unit page] }

/-! ## The exchange as a reading of pages -/

variable {α : Type}
variable {keys : RangeScan.Keys α}
variable {high : Nat}
variable {answer : Nat → Option (List α)}
variable {serve : Pdu → Option Pdu}
variable {callback : GattRequest → Pdu → Reaction}
variable {request : GattRequest → Pdu}
variable {Asks : Nat → List α → GattRequest → Prop}
variable {Done : List α → Outcome → Prop}

/-- The exchange ends when the answer is empty. -/
def EndsEmpty
    (answer : Nat → Option (List α))
    (serve : Pdu → Option Pdu)
    (callback : GattRequest → Pdu → Reaction)
    (request : GattRequest → Pdu)
    (Asks : Nat → List α → GattRequest → Prop)
    (Done : List α → Outcome → Prop) : Prop :=
  ∀ low found op,
    Asks low found op → answer low = none →
      ∃ rsp outcome, serve (request op) = some rsp ∧
        callback op rsp = .complete outcome ∧ Done found outcome

/-- A page is taken, and the exchange goes on behind it or ends. -/
def TakesPage
    (keys : RangeScan.Keys α)
    (high : Nat)
    (answer : Nat → Option (List α))
    (serve : Pdu → Option Pdu)
    (callback : GattRequest → Pdu → Reaction)
    (request : GattRequest → Pdu)
    (Asks : Nat → List α → GattRequest → Prop)
    (Done : List α → Outcome → Prop) : Prop :=
  ∀ low found op page item,
    Asks low found op → answer low = some page → page.getLast? = some item →
      ∃ rsp, serve (request op) = some rsp ∧
        (keys.last item < high →
          ∃ op', callback op rsp = .ask (request op') op' ∧
            Asks (keys.last item + 1) (found ++ page) op') ∧
        (¬keys.last item < high →
          ∃ outcome, callback op rsp = .complete outcome ∧
            Done (found ++ page) outcome)

/-- The exchange collects what a reader of the pages does, in as many turns. -/
theorem exchange_scan
    (empty : EndsEmpty answer serve callback request Asks Done)
    (takes : TakesPage keys high answer serve callback request Asks Done)
    {turns low : Nat}
    {found rest : List α}
    {op : GattRequest}
    (asks : Asks low found op)
    (scanned : RangeScan.scan keys high answer turns low = some rest) :
    ∃ outcome,
      exchange serve callback turns (request op) op = some outcome ∧
        Done (found ++ rest) outcome := by
  induction turns generalizing low found rest op with
  | zero =>
      exact absurd scanned.symm (Option.some_ne_none rest)
  | succ turns inductionHypothesis =>
      unfold RangeScan.scan at scanned
      unfold exchange
      cases answered : answer low with
      | none =>
          obtain ⟨rsp, outcome, served, reacted, done⟩ :=
            empty low found op asks answered
          rw [answered] at scanned
          obtain rfl := Option.some.inj scanned
          rw [served]
          simp only [reacted]
          exact ⟨outcome, rfl, by rwa [List.append_nil]⟩
      | some page =>
          rw [answered] at scanned
          simp only at scanned
          cases ends : page.getLast? with
          | none =>
              rw [ends] at scanned
              exact absurd scanned.symm (Option.some_ne_none rest)
          | some item =>
              obtain ⟨rsp, served, goesOn, stops⟩ :=
                takes low found op page item asks answered ends
              rw [ends] at scanned
              simp only at scanned
              rw [served]
              by_cases more : keys.last item < high
              · rw [if_pos more] at scanned
                obtain ⟨behind, later, rfl⟩ := Option.map_eq_some_iff.mp scanned
                obtain ⟨op', reacted, asksOn⟩ := goesOn more
                simp only [reacted]
                rw [← List.append_assoc]
                exact inductionHypothesis asksOn later
              · rw [if_neg more] at scanned
                obtain rfl := Option.some.inj scanned
                obtain ⟨outcome, reacted, done⟩ := stops more
                simp only [reacted]
                exact ⟨outcome, rfl, done⟩

end Slate106.Gatt
