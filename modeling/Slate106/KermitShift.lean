import Mathlib.Data.List.Find
import Slate106.KermitKeeps
import Slate106.KermitKinds

namespace Slate106.Kermit

open CBytes

/-!
# The receive window at every place

Sequence numbers count modulo 64, so a receive window and an arriving number
may be moved together around the circle.  `handle_good_rpkt` does not notice,
but for one of its loops: the one that looks for an old packet runs past the
end of a window that touches the step from 63 to 0, and then finds every
number.
-/

variable {ω : Type}

theorem mem_slots
    {k : KData}
    {slot : Int} :
    slot ∈ slots k ↔ 0 ≤ slot ∧ slot < k.par.wslots := by
  unfold slots
  simp only [List.mem_map, List.mem_range, Int.ofNat_eq_natCast]
  constructor
  · rintro ⟨index, below, rfl⟩
    omega
  · rintro ⟨lower, upper⟩
    exact ⟨slot.toNat, by omega, by omega⟩

/-! ## Numbers that are moved -/

/-- A sequence number moved around the circle; a mark for none is left. -/
def shiftSeq
    (c seq : Int) : Int :=
  if isSeq seq then (seq + c) % 64 else seq

theorem isSeq_iff
    {seq : Int} :
    isSeq seq = true ↔ 0 ≤ seq ∧ seq < 64 := by
  simp [isSeq]

theorem isSeq_mod
    (seq : Int) :
    isSeq (seq % 64) = true := by
  rw [isSeq_iff]
  omega

theorem shiftSeq_of_isSeq
    {c seq : Int}
    (valid : isSeq seq = true) :
    shiftSeq c seq = (seq + c) % 64 :=
  if_pos valid

@[simp] theorem isSeq_shiftSeq
    (c seq : Int) :
    isSeq (shiftSeq c seq) = isSeq seq := by
  unfold shiftSeq
  split
  · rename_i valid
    rw [valid]
    exact isSeq_mod (seq + c)
  · rfl

/-- Two numbers stay the same or different. -/
theorem shiftSeq_inj
    {c first second : Int}
    (valid : isSeq first = true)
    (valid' : isSeq second = true) :
    (first + c) % 64 = (second + c) % 64 ↔ first = second := by
  rw [isSeq_iff] at valid valid'
  omega

theorem seqRot_shiftSeq
    (c : Int)
    {seq ref : Int}
    (valid : isSeq seq = true)
    (valid' : isSeq ref = true) :
    seqRot (shiftSeq c seq) (shiftSeq c ref) = seqRot seq ref := by
  rw [shiftSeq_of_isSeq valid, shiftSeq_of_isSeq valid']
  rw [isSeq_iff] at valid valid'
  unfold seqRot
  dsimp only
  split <;> split <;> split <;> split <;> omega

/-- A packet slot whose number is moved. -/
def shiftPacket
    (c : Int)
    (p : Packet) : Packet :=
  { p with seq := shiftSeq c p.seq }

/-- Two receive windows that differ by a move around the circle. -/
structure Moved
    (c : Int)
    (k k' : KData) : Prop where
  wslots : k'.par.wslots = k.par.wslots
  slots : ∀ slot ∈ slots k,
    k'.win.ipktinfo slot = shiftPacket c (k.win.ipktinfo slot)
  rPw : ∀ seq, isSeq seq = true →
    k'.win.rPw ((seq + c) % 64) = k.win.rPw seq

namespace Moved

variable {c : Int}
variable {k k' : KData}

theorem seq
    (moved : Moved c k k')
    {slot : Int}
    (member : slot ∈ Kermit.slots k) :
    (k'.win.ipktinfo slot).seq = shiftSeq c (k.win.ipktinfo slot).seq := by
  rw [moved.slots slot member]
  rfl

theorem slots_eq
    (moved : Moved c k k') :
    Kermit.slots k' = Kermit.slots k := by
  unfold Kermit.slots
  rw [moved.wslots]

theorem nusedRslots
    (moved : Moved c k k') :
    Kermit.nusedRslots k' = Kermit.nusedRslots k := by
  unfold Kermit.nusedRslots
  rw [moved.slots_eq]
  apply List.countP_congr
  intro slot member
  rw [moved.slots slot member]
  rfl

/-- The reference number is moved, too. -/
theorem rseqRef
    (moved : Moved c k k') :
    Kermit.rseqRef k' = shiftSeq c (Kermit.rseqRef k) ∧
      (Kermit.rseqRef k = -1 ∨ isSeq (Kermit.rseqRef k) = true) := by
  unfold Kermit.rseqRef
  rw [moved.slots_eq]
  refine List.foldl_rel
    (r := fun ref' ref => ref' = shiftSeq c ref ∧
      (ref = -1 ∨ isSeq ref = true))
    ⟨rfl, Or.inl rfl⟩ ?_
  rintro slot member ref' ref ⟨same, known⟩
  rw [moved.seq member, isSeq_shiftSeq]
  by_cases valid : isSeq (k.win.ipktinfo slot).seq = true
  · rw [if_pos valid, if_pos valid]
    exact ⟨rfl, Or.inr valid⟩
  · rw [if_neg valid, if_neg valid]
    exact ⟨same, known⟩

/-- So are the first and the last number of the window. -/
theorem extremeRseq
    (moved : Moved c k k')
    (better : Int → Int → Bool) :
    Kermit.extremeRseq better k' = shiftSeq c (Kermit.extremeRseq better k) ∧
      ((Kermit.rseqRef k = -1 ∧ Kermit.extremeRseq better k = -1) ∨
        (isSeq (Kermit.rseqRef k) = true ∧
          isSeq (Kermit.extremeRseq better k) = true)) := by
  obtain ⟨same, known⟩ := moved.rseqRef
  unfold Kermit.extremeRseq
  dsimp only
  rw [same, moved.slots_eq]
  rcases known with none | valid
  · have still : shiftSeq c (-1) = -1 := rfl
    rw [none, still, if_pos rfl]
    exact ⟨still.symm, Or.inl ⟨rfl, rfl⟩⟩
  · have shifted : isSeq (shiftSeq c (Kermit.rseqRef k)) = true := by
      rw [isSeq_shiftSeq]
      exact valid
    have notNone {ref : Int} (isNumber : isSeq ref = true) : ¬ ref = -1 := by
      rintro rfl
      exact absurd isNumber (by decide)
    rw [if_neg (notNone shifted), if_neg (notNone valid)]
    generalize Kermit.rseqRef k = ref at valid shifted
    have best := List.foldl_rel
      (l := Kermit.slots k)
      (r := fun (best' best : Int × Int) =>
        best'.1 = best.1 ∧ best'.2 = shiftSeq c best.2 ∧
          isSeq best.2 = true)
      (f := fun (best : Int × Int) slot =>
        let seq := (k'.win.ipktinfo slot).seq
        if isSeq seq && better (seqRot seq (shiftSeq c ref)) best.1 then
          (seqRot seq (shiftSeq c ref), seq)
        else best)
      (g := fun (best : Int × Int) slot =>
        let seq := (k.win.ipktinfo slot).seq
        if isSeq seq && better (seqRot seq ref) best.1 then
          (seqRot seq ref, seq)
        else best)
      (a := (0, shiftSeq c ref)) (b := (0, ref))
      ⟨rfl, rfl, valid⟩
      (by
        rintro slot member best' best ⟨first, second, number⟩
        dsimp only
        rw [moved.seq member, isSeq_shiftSeq, first]
        by_cases isNumber : isSeq (k.win.ipktinfo slot).seq = true
        · rw [seqRot_shiftSeq c isNumber valid]
          split
          · exact ⟨rfl, rfl, isNumber⟩
          · exact ⟨first, second, number⟩
        · have skipped (rot : Bool) :
              ¬ (isSeq (k.win.ipktinfo slot).seq && rot) = true := by
            intro both
            exact isNumber (Bool.and_eq_true_iff.mp both).1
          rw [if_neg (skipped _), if_neg (skipped _)]
          exact ⟨first, second, number⟩)
    exact ⟨best.2.1, Or.inr ⟨valid, best.2.2⟩⟩

end Moved

/-! ## How an arriving number is classified -/

/-- A slot that holds a packet has its number. -/
def Stocked
    (k : KData) : Prop :=
  ∀ slot ∈ slots k, 0 < (k.win.ipktinfo slot).len →
    isSeq (k.win.ipktinfo slot).seq = true

theorem Moved.stay
    (k : KData) :
    Moved 0 k k where
  wslots := rfl
  slots slot _ := by
    have same : shiftSeq 0 (k.win.ipktinfo slot).seq =
        (k.win.ipktinfo slot).seq := by
      unfold shiftSeq
      split
      · rename_i valid
        rw [isSeq_iff] at valid
        omega
      · rfl
    rw [shiftPacket, same]
  rPw seq valid := by
    rw [isSeq_iff] at valid
    rw [Int.add_zero, Int.emod_eq_of_lt valid.1 valid.2]

/-- One slot with a number is enough for a reference number. -/
theorem rseqRef_isSeq
    {k : KData}
    {slot : Int}
    (member : slot ∈ slots k)
    (valid : isSeq (k.win.ipktinfo slot).seq = true) :
    isSeq (rseqRef k) = true := by
  unfold rseqRef
  have all : ∀ (list : List Int) (ref : Int),
      (isSeq ref = true ∨ slot ∈ list) →
      isSeq (list.foldl
        (fun ref slot =>
          if isSeq (k.win.ipktinfo slot).seq then
            (k.win.ipktinfo slot).seq
          else ref)
        ref) = true := by
    intro list
    induction list with
    | nil =>
        rintro ref (known | nothing)
        · exact known
        · exact absurd nothing List.not_mem_nil
    | cons first list inductionHypothesis =>
        rintro ref known
        rw [List.foldl_cons]
        apply inductionHypothesis
        by_cases here : isSeq (k.win.ipktinfo first).seq = true
        · rw [if_pos here]
          exact Or.inl here
        · rw [if_neg here]
          rcases known with known | inside
          · exact Or.inl known
          · rcases List.mem_cons.mp inside with rfl | later
            · exact absurd valid here
            · exact Or.inr later
  exact all (slots k) (-1) (Or.inr member)

/-- The last number of a window that holds a packet. -/
theorem latestRseq_isSeq
    {k : KData}
    (stocked : Stocked k)
    (used : nusedRslots k ≠ 0) :
    isSeq (latestRseq k) = true := by
  obtain ⟨slot, member, holds⟩ :=
    List.countP_pos_iff.mp (Nat.pos_of_ne_zero used)
  have valid := stocked slot member (of_decide_eq_true holds)
  have ref := rseqRef_isSeq member valid
  obtain ⟨_, ⟨none, _⟩ | ⟨_, last⟩⟩ :=
    (Moved.stay k).extremeRseq (fun rot best => rot > best)
  · rw [none] at ref
    exact absurd ref (by decide)
  · exact last

/-- How far a number is ahead of the last one of the window. -/
def ahead
    (k : KData)
    (rseq : Int) : Int :=
  (rseq - latestRseq k) % 64

/-- The number is in the window, or in the one that would follow it. -/
def Reaches
    (k : KData)
    (rseq : Int) : Prop :=
  nusedRslots k = 0 ∨ ahead k rseq ≤ k.par.wslots ∨
    64 - k.par.wslots < ahead k rseq

/-- The window touches the step from 63 to 0. -/
def TouchesWrap
    (k : KData) : Prop :=
  nusedRslots k ≠ 0 ∧
    (latestRseq k = 63 ∨ latestRseq k + 1 < k.par.wslots)

/-- Below its end, the loop looks at the numbers up to it. -/
theorem scanOld_below
    {rseq hp i : Int}
    {turns : Nat}
    (below : i ≤ hp)
    (enough : hp ≤ i + turns) :
    scanOld rseq hp turns i = true ↔
      ∃ j, i ≤ j ∧ j < hp ∧ rseq = j % 64 := by
  induction turns generalizing i with
  | zero =>
      refine ⟨fun found => absurd found Bool.false_ne_true, ?_⟩
      rintro ⟨j, from_i, to_hp, _⟩
      omega
  | succ turns inductionHypothesis =>
      unfold scanOld
      by_cases ended : i = hp
      · rw [if_pos ended]
        refine ⟨fun found => absurd found Bool.false_ne_true, ?_⟩
        rintro ⟨j, from_i, to_hp, _⟩
        omega
      · rw [if_neg ended]
        by_cases here : rseq = i % 64
        · rw [if_pos here]
          exact ⟨fun _ => ⟨i, Int.le_refl i, by omega, here⟩, fun _ => rfl⟩
        · rw [if_neg here, inductionHypothesis (by omega) (by omega)]
          constructor
          · rintro ⟨j, from_i, to_hp, same⟩
            exact ⟨j, by omega, to_hp, same⟩
          · rintro ⟨j, from_i, to_hp, same⟩
            refine ⟨j, ?_, to_hp, same⟩
            rcases Int.lt_or_eq_of_le from_i with after | rfl
            · omega
            · exact absurd same here

/-- Past its end, the loop looks at every number there is. -/
theorem scanOld_past
    {rseq hp i : Int}
    {turns : Nat}
    (past : hp < i)
    (found : ∃ j, i ≤ j ∧ j < i + turns ∧ rseq = j % 64) :
    scanOld rseq hp turns i = true := by
  induction turns generalizing i with
  | zero =>
      obtain ⟨j, from_i, to_end, _⟩ := found
      omega
  | succ turns inductionHypothesis =>
      unfold scanOld
      rw [if_neg (by omega)]
      by_cases here : rseq = i % 64
      · rw [if_pos here]
      · rw [if_neg here]
        apply inductionHypothesis (by omega)
        obtain ⟨j, from_i, to_end, same⟩ := found
        refine ⟨j, ?_, by omega, same⟩
        rcases Int.lt_or_eq_of_le from_i with after | rfl
        · omega
        · exact absurd same here

/-- The three flags, by how far the number is ahead. -/
theorem classify_iff
    {k : KData}
    {rseq : Int}
    (stocked : Stocked k)
    (valid : isSeq rseq = true)
    (some : 1 ≤ k.par.wslots)
    (few : k.par.wslots ≤ 31)
    (used : nusedRslots k ≠ 0) :
    ((classify k rseq).isnxt = true ↔ ahead k rseq = 1) ∧
      ((classify k rseq).isgap = true ↔
        2 ≤ ahead k rseq ∧ ahead k rseq ≤ k.par.wslots) ∧
      ((classify k rseq).isold = true ↔
        ¬ (1 ≤ ahead k rseq ∧ ahead k rseq ≤ k.par.wslots) ∧
          (Reaches k rseq ∨ TouchesWrap k)) := by
  have last := latestRseq_isSeq stocked used
  have reach : Reaches k rseq ↔ ahead k rseq ≤ k.par.wslots ∨
      64 - k.par.wslots < ahead k rseq :=
    or_iff_right used
  have touch : TouchesWrap k ↔
      latestRseq k = 63 ∨ latestRseq k + 1 < k.par.wslots :=
    and_iff_right used
  rw [reach, touch]
  unfold classify ahead
  rw [if_neg used]
  dsimp only
  rw [isSeq_iff] at last valid
  generalize latestRseq k = high at last
  have next : rseq = (high + 1) % 64 ↔ (rseq - high) % 64 = 1 := by
    omega
  have gap : (List.range (k.par.wslots - 1)).any
      (fun j => rseq = (high + (j + 2 : Nat)) % 64) = true ↔
      2 ≤ (rseq - high) % 64 ∧ (rseq - high) % 64 ≤ k.par.wslots := by
    simp only [List.any_eq_true, List.mem_range, decide_eq_true_iff]
    constructor
    · rintro ⟨j, below, same⟩
      omega
    · rintro ⟨lower, upper⟩
      exact ⟨((rseq - high) % 64).toNat - 2, by omega, by omega⟩
  have old :
      ¬ (1 ≤ (rseq - high) % 64 ∧ (rseq - high) % 64 ≤ k.par.wslots) →
      (scanOld rseq ((high + 1) % 64) 192
        (if high - (k.par.wslots : Int) + 1 < 0 then
          high - (k.par.wslots : Int) + 1 + 64
        else high - (k.par.wslots : Int) + 1) = true ↔
      ((rseq - high) % 64 ≤ k.par.wslots ∨
          64 - (k.par.wslots : Int) < (rseq - high) % 64) ∨
        (high = 63 ∨ high + 1 < k.par.wslots)) := by
    intro behind
    by_cases wraps : high = 63 ∨ high + 1 < k.par.wslots
    · refine ⟨fun _ => Or.inr wraps, fun _ => ?_⟩
      generalize lowEq : (if high - (k.par.wslots : Int) + 1 < 0 then
          high - (k.par.wslots : Int) + 1 + 64
        else high - (k.par.wslots : Int) + 1) = low
      have past : (high + 1) % 64 < low := by
        omega
      exact scanOld_past past
        ⟨low + (rseq - low) % 64, by omega, by omega, by omega⟩
    · rw [if_neg (by omega), scanOld_below (by omega) (by omega)]
      constructor
      · rintro ⟨j, from_low, to_hp, same⟩
        omega
      · rintro (reached | reached)
        · exact ⟨rseq, by omega, by omega, by omega⟩
        · exact absurd reached wraps
  simp only [decide_eq_true_eq, Bool.and_eq_true, Bool.not_eq_true',
    ← Bool.not_eq_true, ne_eq]
  rw [gap, next]
  refine ⟨Iff.rfl, ?_, ?_⟩
  · omega
  · constructor
    · rintro ⟨⟨notNext, notGap⟩, found⟩
      have behind :
          ¬ (1 ≤ (rseq - high) % 64 ∧
            (rseq - high) % 64 ≤ k.par.wslots) := by
        omega
      exact ⟨behind, (old behind).mp found⟩
    · rintro ⟨behind, reached⟩
      exact ⟨by omega, (old behind).mpr reached⟩

/-! ## Two sessions in step -/

/-- The receive window of a session is replaced. -/
def setRwin
    (ipktinfo : Int → Packet)
    (rPw : Int → Int)
    (s : Sys ω) : Sys ω :=
  { s with
    k.win.ipktinfo := ipktinfo
    k.win.rPw := rPw }

/-- Two sessions that differ in the place of their receive windows alone. -/
def Twin
    (c : Int)
    (s t : Sys ω) : Prop :=
  ∃ ipktinfo rPw,
    t = setRwin ipktinfo rPw s ∧
      (∀ slot ∈ slots s.k,
        ipktinfo slot = shiftPacket c (s.k.win.ipktinfo slot)) ∧
      ∀ seq, isSeq seq = true →
        rPw ((seq + c) % 64) = s.k.win.rPw seq

theorem Twin.moved
    {c : Int}
    {s t : Sys ω}
    (twin : Twin c s t) :
    Moved c s.k t.k := by
  obtain ⟨ipktinfo, rPw, rfl, slots, places⟩ := twin
  exact ⟨rfl, slots, places⟩

/-- `writef` does not look at the receive window. -/
def WindowBlind
    (io : Io ω) : Prop :=
  ∀ w k ipktinfo rPw bytes,
    io.writef w
      { k with
        win.ipktinfo := ipktinfo
        win.rPw := rPw }
      bytes =
    io.writef w k bytes

section InStep

variable {io : Io ω}
variable {c : Int}
variable {s t : Sys ω}

theorem twin_setBct
    (twin : Twin c s t)
    (bct : Nat) :
    Twin c (setBct bct s) (setBct bct t) := by
  obtain ⟨ipktinfo, rPw, rfl, slots, places⟩ := twin
  exact ⟨ipktinfo, rPw, rfl, slots, places⟩

theorem twin_storeByte
    (twin : Twin c s t)
    (a : UInt8) :
    Twin c (storeByte a s) (storeByte a t) := by
  obtain ⟨ipktinfo, rPw, rfl, slots, places⟩ := twin
  exact ⟨ipktinfo, rPw, rfl, slots, places⟩

theorem twin_rewindObuf
    (twin : Twin c s t) :
    Twin c (rewindObuf s) (rewindObuf t) := by
  obtain ⟨ipktinfo, rPw, rfl, slots, places⟩ := twin
  exact ⟨ipktinfo, rPw, rfl, slots, places⟩

theorem twin_countWritten
    (twin : Twin c s t)
    (number : Nat) :
    Twin c (countWritten number s) (countWritten number t) := by
  obtain ⟨ipktinfo, rPw, rfl, slots, places⟩ := twin
  exact ⟨ipktinfo, rPw, rfl, slots, places⟩

theorem twin_callWritef
    (blind : WindowBlind io)
    (twin : Twin c s t)
    (bytes : List UInt8) :
    (callWritef io bytes t).1 = (callWritef io bytes s).1 ∧
      Twin c (callWritef io bytes s).2 (callWritef io bytes t).2 := by
  obtain ⟨ipktinfo, rPw, rfl, slots, places⟩ := twin
  have same := blind s.w s.k ipktinfo rPw bytes
  unfold callWritef setRwin
  dsimp only
  rw [same]
  exact ⟨rfl, ipktinfo, rPw, rfl, slots, places⟩

/-- A packet that is not kept does not look at the receive window. -/
theorem twin_spktWith
    {confused : Sys ω → Sys ω}
    (inStep : ∀ {s t}, Twin c s t → Twin c (confused s) (confused t))
    {typ : UInt8}
    (kind : isUnslotted typ = true)
    (seq len : Int)
    (data : Option (List UInt8))
    (twin : Twin c s t) :
    Twin c (spktWith io confused typ seq len data s).2
      (spktWith io confused typ seq len data t).2 := by
  obtain ⟨ipktinfo, rPw, rfl, slots, places⟩ := twin
  have forced : forceBcta3 (setRwin ipktinfo rPw s).k =
      (setRwin ipktinfo rPw { s with k := forceBcta3 s.k }).k := by
    rw [forceBcta3_eq, forceBcta3_eq]
    rfl
  unfold spktWith
  split
  · exact ⟨ipktinfo, rPw, rfl, slots, places⟩
  · dsimp only
    unfold spktBuild
    dsimp only
    rw [forced]
    unfold setRwin
    dsimp only
    have kept :
        (forceBcta3 s.k).win.ipktinfo = s.k.win.ipktinfo ∧
          (forceBcta3 s.k).win.rPw = s.k.win.rPw ∧
          Kermit.slots (forceBcta3 s.k) = Kermit.slots s.k := by
      rw [forceBcta3_eq]
      exact ⟨rfl, rfl, rfl⟩
    rw [← kept.1, ← kept.2.2] at slots
    rw [← kept.2.1] at places
    generalize forceBcta3 s.k = k at slots places
    split
    · apply inStep
      exact ⟨ipktinfo, rPw, rfl, slots, places⟩
    · split
      · exact ⟨ipktinfo, rPw, rfl, slots, places⟩
      · exact ⟨ipktinfo, rPw, rfl, slots, places⟩

theorem twin_epktWith
    {confused : Sys ω → Sys ω}
    (inStep : ∀ {s t}, Twin c s t → Twin c (confused s) (confused t))
    (msg : List UInt8)
    (twin : Twin c s t) :
    Twin c (epktWith io confused msg s) (epktWith io confused msg t) := by
  have same : t.k.cfg = s.k.cfg ∧ t.k.par = s.k.par := by
    obtain ⟨ipktinfo, rPw, rfl, slots, places⟩ := twin
    exact ⟨rfl, rfl⟩
  unfold epktWith
  rw [same.1, same.2]
  exact twin_setBct (twin_spktWith inStep (by decide) _ _ _
    (twin_setBct twin _)) _

theorem twin_epkt
    (msg : List UInt8)
    (twin : Twin c s t) :
    Twin c (epkt io msg s) (epkt io msg t) :=
  twin_epktWith
    (fun twin => twin_epktWith (fun twin => twin) _ twin) msg twin

/-! ## Decoding in step -/

theorem par_decodeOut
    (a : UInt8)
    (rpt : Nat)
    (rc : Int)
    (s : Sys ω) :
    (decodeOut io a rpt rc s).2.2.k.par = s.k.par := by
  induction rpt generalizing rc s with
  | zero =>
      rfl
  | succ rpt inductionHypothesis =>
      unfold decodeOut
      dsimp only
      split
      · split
        · rfl
        · exact inductionHypothesis _ _
      · exact inductionHypothesis _ _

theorem par_decodeFileLoop
    (n rpt : Nat)
    (rc : Int)
    (inbuf : List UInt8)
    (s : Sys ω) :
    (decodeFileLoop io n rpt rc inbuf s).2.k.par = s.k.par := by
  induction n generalizing rpt rc inbuf s with
  | zero =>
      rfl
  | succ n inductionHypothesis =>
      unfold decodeFileLoop
      dsimp only
      split
      · rfl
      · rw [inductionHypothesis]
        exact par_decodeOut _ _ _ s

/-- Decoding does not change the size of the window. -/
theorem slots_decodeSlot
    (rslot : Int)
    (s : Sys ω) :
    slots (decodeSlot io rslot s).2.k = slots s.k := by
  have sent (msg : List UInt8) (u : Sys ω) :
      slots (epkt io msg u).k = slots u.k := by
    obtain ⟨_, _, _, _, _, _, _, _, route⟩ :=
      @transmits_epkt ω io msg u
    rw [route]
    rfl
  unfold decodeSlot
  split
  · unfold decodeFile
    dsimp only
    split
    · rw [sent]
    · split
      · rw [sent]
      · unfold slots
        rw [par_decodeFileLoop]
  · rfl

theorem twin_decodeOut
    (blind : WindowBlind io)
    (a : UInt8)
    (rpt : Nat)
    (rc : Int)
    (twin : Twin c s t) :
    (decodeOut io a rpt rc t).1 = (decodeOut io a rpt rc s).1 ∧
      (decodeOut io a rpt rc t).2.1 = (decodeOut io a rpt rc s).2.1 ∧
      Twin c (decodeOut io a rpt rc s).2.2 (decodeOut io a rpt rc t).2.2 := by
  induction rpt generalizing rc s t with
  | zero =>
      exact ⟨rfl, rfl, twin⟩
  | succ rpt inductionHypothesis =>
      have stored := twin_storeByte twin a
      have same : (storeByte a t).k.obufpos = (storeByte a s).k.obufpos ∧
          (storeByte a t).k.cfg = (storeByte a s).k.cfg ∧
          (storeByte a t).k.obuf = (storeByte a s).k.obuf := by
        obtain ⟨ipktinfo, rPw, rfl, slots, places⟩ := twin
        exact ⟨rfl, rfl, rfl⟩
      unfold decodeOut
      dsimp only
      rw [same.1, same.2.1, same.2.2]
      split
      · obtain ⟨code, written⟩ := twin_callWritef blind stored
          ((storeByte a s).k.obuf.takeD (storeByte a s).k.cfg.obuflen 0)
        have counted := twin_countWritten written
          (storeByte a s).k.cfg.obuflen
        rw [code]
        split
        · exact ⟨rfl, rfl, counted⟩
        · exact inductionHypothesis _ (twin_rewindObuf counted)
      · exact inductionHypothesis _ stored

theorem twin_decodeFileLoop
    (blind : WindowBlind io)
    (n rpt : Nat)
    (rc : Int)
    (inbuf : List UInt8)
    (twin : Twin c s t) :
    (decodeFileLoop io n rpt rc inbuf t).1 =
        (decodeFileLoop io n rpt rc inbuf s).1 ∧
      Twin c (decodeFileLoop io n rpt rc inbuf s).2
        (decodeFileLoop io n rpt rc inbuf t).2 := by
  induction n generalizing rpt rc inbuf s t with
  | zero =>
      exact ⟨rfl, twin⟩
  | succ n inductionHypothesis =>
      have same : t.k.par = s.k.par := by
        obtain ⟨ipktinfo, rPw, rfl, slots, places⟩ := twin
        rfl
      unfold decodeFileLoop
      dsimp only
      rw [same]
      split
      · exact ⟨rfl, twin⟩
      · obtain ⟨code, left, out⟩ := twin_decodeOut blind
          (decodeNext s.k.par rpt (peek inbuf 0) (inbuf.drop 1)).char
          (decodeNext s.k.par rpt (peek inbuf 0) (inbuf.drop 1)).rpt
          rc twin
        rw [code, left]
        exact inductionHypothesis _ _ _ out

theorem twin_decodeSlot
    (blind : WindowBlind io)
    {rslot : Int}
    (member : rslot ∈ slots s.k)
    (twin : Twin c s t) :
    (decodeSlot io rslot t).1 = (decodeSlot io rslot s).1 ∧
      Twin c (decodeSlot io rslot s).2 (decodeSlot io rslot t).2 := by
  have slot := twin.moved.slots rslot member
  have same : t.k.recvdir = s.k.recvdir := by
    obtain ⟨ipktinfo, rPw, rfl, slots, places⟩ := twin
    rfl
  have noted : Twin c { s with log := .decodeFile :: s.log }
      { t with log := .decodeFile :: t.log } := by
    obtain ⟨ipktinfo, rPw, rfl, slots, places⟩ := twin
    exact ⟨ipktinfo, rPw, rfl, slots, places⟩
  unfold decodeSlot
  rw [same]
  split
  · unfold decodeFile
    dsimp only
    rw [slot]
    unfold shiftPacket
    dsimp only
    split
    · exact ⟨rfl, twin_epkt _ noted⟩
    · split
      · exact ⟨rfl, twin_epkt _ noted⟩
      · exact twin_decodeFileLoop blind _ _ _ _ noted
  · exact ⟨rfl, twin⟩

/-! ## Aligning the window in step -/

/-- An array entry per number, changed at a number and where it has moved. -/
theorem put_places
    {places places' : Int → Int}
    (same : ∀ seq, isSeq seq = true →
      places' ((seq + c) % 64) = places seq)
    {at_seq : Int}
    (valid : isSeq at_seq = true)
    (slot : Int)
    {seq : Int}
    (number : isSeq seq = true) :
    put places' (shiftSeq c at_seq) slot ((seq + c) % 64) =
      put places at_seq slot seq := by
  rw [shiftSeq_of_isSeq valid]
  unfold put
  by_cases here : seq = at_seq
  · rw [if_pos here, if_pos ((shiftSeq_inj number valid).mpr here)]
  · rw [if_neg here,
      if_neg (fun same => here ((shiftSeq_inj number valid).mp same))]
    exact same seq number

/-- A slot changed, and the same slot with its number moved. -/
theorem put_slots
    {info info' : Int → Packet}
    {numbers : List Int}
    (same : ∀ slot ∈ numbers, info' slot = shiftPacket c (info slot))
    {rslot : Int}
    {p p' : Packet}
    (moved : rslot ∈ numbers → p' = shiftPacket c p)
    (slot : Int)
    (member : slot ∈ numbers) :
    put info' rslot p' slot = shiftPacket c (put info rslot p slot) := by
  unfold put
  split
  · rename_i here
    exact moved (here ▸ member)
  · exact same slot member

theorem twin_freeRslot
    {slot : Int}
    (member : slot ∈ slots s.k)
    (twin : Twin c s t) :
    Twin c (freeRslot io slot s) (freeRslot io slot t) := by
  unfold freeRslot
  split
  · exact twin_epkt _ twin
  · obtain ⟨ipktinfo, rPw, rfl, slots, places⟩ := twin
    refine ⟨_, _, rfl, ?_, ?_⟩
    · have same : (setRwin ipktinfo rPw s).k.win.ipktinfo slot =
          shiftPacket c (s.k.win.ipktinfo slot) :=
        slots slot member
      apply put_slots slots
      intro _
      rw [same]
      rfl
    · intro seq number
      have moved : (ipktinfo slot).seq =
          shiftSeq c (s.k.win.ipktinfo slot).seq := by
        rw [slots slot member]
        rfl
      change (if isSeq (ipktinfo slot).seq then
          put rPw (ipktinfo slot).seq (-1) else rPw) ((seq + c) % 64) =
        (if isSeq (s.k.win.ipktinfo slot).seq then
          put s.k.win.rPw (s.k.win.ipktinfo slot).seq (-1)
        else s.k.win.rPw) seq
      rw [moved, isSeq_shiftSeq]
      split
      · rename_i valid
        exact put_places places valid _ number
      · exact places seq number

/-- The window is moved along in the same way at both places. -/
theorem twin_alignWindow
    (blind : WindowBlind io)
    {rseq : Int}
    (valid : isSeq rseq = true)
    (n : Nat)
    (twin : Twin c s t) :
    (alignWindow io (shiftSeq c rseq) n t).1 =
        (alignWindow io rseq n s).1 ∧
      Twin c (alignWindow io rseq n s).2
        (alignWindow io (shiftSeq c rseq) n t).2 := by
  induction n generalizing s t with
  | zero =>
      exact ⟨rfl, twin⟩
  | succ n inductionHypothesis =>
      have moved := twin.moved
      obtain ⟨first, known⟩ := moved.extremeRseq (fun rot best => rot < best)
      unfold alignWindow
      dsimp only
      unfold earliestRseq
      rw [first, moved.wslots]
      rcases known with ⟨_, none⟩ | ⟨_, number⟩
      · rw [none]
        exact ⟨rfl, twin⟩
      · generalize extremeRseq (fun rot best => rot < best) s.k = iseq
          at number
        have number' : isSeq (shiftSeq c iseq) = true := by
          rw [isSeq_shiftSeq]
          exact number
        have place : t.k.win.rPw (shiftSeq c iseq) = s.k.win.rPw iseq := by
          rw [shiftSeq_of_isSeq number]
          exact moved.rPw iseq number
        have inside {seq : Int} (isNumber : isSeq seq = true) :
            ¬ ((decide (seq < 0) || decide (seq ≥ 64)) = true) := by
          rw [isSeq_iff] at isNumber
          simp only [Bool.or_eq_true, decide_eq_true_eq]
          omega
        have away :
            (if shiftSeq c rseq - shiftSeq c iseq < 0 then
              shiftSeq c rseq - shiftSeq c iseq + 64
            else shiftSeq c rseq - shiftSeq c iseq) =
            (if rseq - iseq < 0 then rseq - iseq + 64
            else rseq - iseq) := by
          rw [shiftSeq_of_isSeq valid, shiftSeq_of_isSeq number]
          rw [isSeq_iff] at valid number
          split <;> split <;> omega
        rw [if_neg (inside number), if_neg (inside number'), away, place]
        generalize (if rseq - iseq < 0 then rseq - iseq + 64
          else rseq - iseq) = dseq
        split
        · exact inductionHypothesis twin
        · split
          · exact ⟨rfl, twin⟩
          · rename_i stored
            have member : s.k.win.rPw iseq ∈ slots s.k := by
              simp only [Bool.or_eq_true, decide_eq_true_eq, not_or] at stored
              rw [mem_slots]
              omega
            rw [moved.slots _ member]
            unfold shiftPacket
            dsimp only
            split
            · exact ⟨rfl, twin⟩
            · obtain ⟨code, decoded⟩ := twin_decodeSlot blind member twin
              rw [code]
              split
              · exact ⟨rfl, twin_epkt _ decoded⟩
              · apply inductionHypothesis
                rw [← slots_decodeSlot (s.k.win.rPw iseq) s] at member
                exact twin_freeRslot member decoded

end InStep

/-! ## Answering and storing alike -/

/-- What a call does, without the number and the fate of a packet. -/
def deed : Call → Call
  | .txd bytes _ => .txd [frameType bytes] 0
  | call => call

/--
Two sessions that have sent packets of the same types and written the same
data, in the same order, and whose receive windows differ by a move.
-/
structure Alike
    (c : Int)
    (s t : Sys ω) : Prop where
  moved : Moved c s.k t.k
  obuf : t.k.obuf = s.k.obuf
  obufpos : t.k.obufpos = s.k.obufpos
  response : t.r = s.r
  deeds : t.log.map deed = s.log.map deed

theorem Twin.alike
    {c : Int}
    {s t : Sys ω}
    (twin : Twin c s t) :
    Alike c s t := by
  have moved := twin.moved
  obtain ⟨ipktinfo, rPw, rfl, slots, places⟩ := twin
  exact ⟨moved, rfl, rfl, rfl, rfl⟩

/-- The receive window is left alone. -/
theorem Moved.left
    {c : Int}
    {k k' l l' : KData}
    (moved : Moved c k k')
    (window : l.par.wslots = k.par.wslots ∧
      l.win.ipktinfo = k.win.ipktinfo ∧ l.win.rPw = k.win.rPw)
    (window' : l'.par.wslots = k'.par.wslots ∧
      l'.win.ipktinfo = k'.win.ipktinfo ∧ l'.win.rPw = k'.win.rPw) :
    Moved c l l' := by
  obtain ⟨size, info, places⟩ := window
  obtain ⟨size', info', places'⟩ := window'
  constructor
  · rw [size, size']
    exact moved.wslots
  · unfold Kermit.slots
    rw [info, info', size]
    exact moved.slots
  · rw [places, places']
    exact moved.rPw

section Answers

variable {io : Io ω}
variable {c : Int}
variable {s t : Sys ω}

/-- A short packet that is not kept. -/
theorem spkt_short
    (io : Io ω)
    {typ : UInt8}
    {seq len : Int}
    {text : Option (List UInt8)}
    (s : Sys ω)
    (kind : isUnslotted typ = true)
    (valid : isSeq seq = true)
    (short : (spktData len text).length ≤ 80) :
    spkt io typ seq len text s =
      callTxd io (sentFrame typ seq (spktData len text) s.k)
        { s with k := announced typ seq (spktData len text) s.k } := by
  rw [isSeq_iff] at valid
  have bounded := length_pktFrame_le (forceBcta3 s.k).par typ seq
    (spktData len text)
  exact spkt_unslotted io kind valid.1 (by omega)
    (by unfold sentFrame; omega)

/-- It is sent alike, whatever its number. -/
theorem alike_spkt
    {typ : UInt8}
    {seq seq' len : Int}
    {text : Option (List UInt8)}
    (alike : Alike c s t)
    (kind : isUnslotted typ = true)
    (valid : isSeq seq = true)
    (valid' : isSeq seq' = true)
    (short : (spktData len text).length ≤ 80) :
    Alike c (spkt io typ seq len text s).2
      (spkt io typ seq' len text t).2 := by
  rw [spkt_short io s kind valid short, spkt_short io t kind valid' short]
  have kept (seq : Int) (k : KData) :
      (announced typ seq (spktData len text) k).par.wslots =
          k.par.wslots ∧
        (announced typ seq (spktData len text) k).win.ipktinfo =
          k.win.ipktinfo ∧
        (announced typ seq (spktData len text) k).win.rPw =
          k.win.rPw ∧
        (announced typ seq (spktData len text) k).obuf = k.obuf ∧
        (announced typ seq (spktData len text) k).obufpos = k.obufpos := by
    unfold announced
    rw [forceBcta3_eq]
    exact ⟨rfl, rfl, rfl, rfl, rfl⟩
  obtain ⟨size, info, places, obuf, obufpos⟩ := kept seq s.k
  obtain ⟨size', info', places', obuf', obufpos'⟩ := kept seq' t.k
  constructor
  · exact alike.moved.left ⟨size, info, places⟩ ⟨size', info', places'⟩
  · exact obuf'.trans (alike.obuf.trans obuf.symm)
  · exact obufpos'.trans (alike.obufpos.trans obufpos.symm)
  · exact alike.response
  · unfold callTxd sentFrame
    dsimp only
    rw [List.map_cons, List.map_cons, alike.deeds, deed, deed,
      frameType_pktFrame, frameType_pktFrame]

theorem alike_setBct
    (alike : Alike c s t)
    (bct bct' : Nat) :
    Alike c (setBct bct s) (setBct bct' t) :=
  ⟨alike.moved.left ⟨rfl, rfl, rfl⟩ ⟨rfl, rfl, rfl⟩, alike.obuf,
    alike.obufpos, alike.response, alike.deeds⟩

theorem alike_epkt
    {msg : List UInt8}
    (short : (cstr msg).length ≤ 80)
    (alike : Alike c s t) :
    Alike c (epkt io msg s) (epkt io msg t) := by
  have data : spktData (-1) (some msg) = cstr msg := rfl
  rw [← data] at short
  unfold epkt epktWith
  dsimp only
  have sent := @alike_spkt ω io c _ _ (ch 'E') 0 0 (-1) (some msg)
    (alike_setBct alike (if s.k.cfg.bcta3 ≠ 0 then 3 else 1)
      (if t.k.cfg.bcta3 ≠ 0 then 3 else 1))
    (by decide) (by decide) (by decide) short
  exact alike_setBct sent _ _

theorem any_congr {α : Type}
    {p q : α → Bool}
    {list : List α}
    (same : ∀ x ∈ list, p x = q x) :
    list.any p = list.any q := by
  rw [Bool.eq_iff_iff, List.any_eq_true, List.any_eq_true]
  constructor
  · rintro ⟨x, member, holds⟩
    exact ⟨x, member, same x member ▸ holds⟩
  · rintro ⟨x, member, holds⟩
    exact ⟨x, member, (same x member).symm ▸ holds⟩

theorem alike_testRslots
    (alike : Alike c s t) :
    Alike c (testRslots io s) (testRslots io t) := by
  have same : ∀ slot ∈ slots s.k,
      (decide ((t.k.win.ipktinfo slot).seq ≥ 0) &&
        chk3 (cstr (t.k.win.ipktinfo slot).buf) !=
          (t.k.win.ipktinfo slot).crc) =
      (decide ((s.k.win.ipktinfo slot).seq ≥ 0) &&
        chk3 (cstr (s.k.win.ipktinfo slot).buf) !=
          (s.k.win.ipktinfo slot).crc) := by
    intro slot member
    rw [alike.moved.slots slot member]
    have sign : ∀ seq, decide (shiftSeq c seq ≥ 0) = decide (seq ≥ 0) := by
      intro seq
      apply decide_eq_decide.mpr
      unfold shiftSeq
      split
      · rename_i valid
        rw [isSeq_iff] at valid
        omega
      · rfl
    unfold shiftPacket
    dsimp only
    rw [sign]
  unfold testRslots
  rw [alike.moved.slots_eq]
  dsimp only
  rw [any_congr same]
  split
  · exact alike_epkt (by decide +kernel) alike
  · exact alike

theorem alike_ack
    (alike : Alike c s t)
    {seq seq' : Int}
    (valid : isSeq seq = true)
    (valid' : isSeq seq' = true) :
    Alike c (ack io seq none s).2 (ack io seq' none t).2 := by
  have short : (spktData (((Option.map cstr none).getD []).length : Nat)
      (Option.map cstr none)).length ≤ 80 :=
    Nat.zero_le 80
  have sent := @alike_spkt ω io c s t _ _ _ _ _ alike
    (show isUnslotted (ch 'Y') = true by decide) valid valid' short
  unfold ack
  dsimp only
  have advanced (p q : Prop) [Decidable p] [Decidable q] (u u' : Sys ω)
      (rc rc' number number' : Int)
      (same : Alike c u u') :
      Alike c
        (if p then (rc, { u with k.rSeq := number }) else (rc, u)).2
        (if q then (rc', { u' with k.rSeq := number' })
          else (rc', u')).2 := by
    have step (n n' : Int) : Alike c { u with k.rSeq := n }
        { u' with k.rSeq := n' } :=
      ⟨same.moved.left ⟨rfl, rfl, rfl⟩ ⟨rfl, rfl, rfl⟩, same.obuf,
        same.obufpos, same.response, same.deeds⟩
    split <;> split
    · exact step _ _
    · exact step _ u'.k.rSeq
    · exact step u.k.rSeq _
    · exact same
  exact advanced _ _ _ _ _ _ _ _ sent

/-- A change of the receive window alone. -/
theorem Alike.onK
    (alike : Alike c s t)
    {f f' : KData → KData}
    (moved : Moved c (f s.k) (f' t.k))
    (left : ∀ k, (f k).obuf = k.obuf ∧ (f k).obufpos = k.obufpos)
    (left' : ∀ k, (f' k).obuf = k.obuf ∧ (f' k).obufpos = k.obufpos) :
    Alike c (Kermit.onK f s) (Kermit.onK f' t) where
  moved := moved
  obuf := ((left' t.k).1.trans alike.obuf).trans (left s.k).1.symm
  obufpos := ((left' t.k).2.trans alike.obufpos).trans (left s.k).2.symm
  response := alike.response
  deeds := alike.deeds

theorem alike_nak
    (alike : Alike c s t)
    {seq seq' : Int}
    (valid : isSeq seq = true)
    (valid' : isSeq seq' = true)
    (slot : Int) :
    Alike c (nak io seq slot s).2 (nak io seq' slot t).2 := by
  have sent := @alike_spkt ω io c s t _ _ _ 0 none alike
    (show isUnslotted (ch 'N') = true by decide) valid valid'
    (Nat.zero_le 80)
  unfold nak
  dsimp only
  generalize (spkt io (ch 'N') seq 0 none s).2 = u at sent
  generalize (spkt io (ch 'N') seq' 0 none t).2 = u' at sent
  split
  · refine ⟨⟨sent.moved.wslots, ?_, sent.moved.rPw⟩, sent.obuf,
      sent.obufpos, sent.response, sent.deeds⟩
    apply put_slots sent.moved.slots
    intro member
    rw [sent.moved.slots slot member]
    rfl
  · exact sent

/-- The same number of NAKs is sent for a gap. -/
theorem alike_nakGap
    {high : Int}
    (valid : isSeq high = true)
    (n i : Nat)
    (alike : Alike c s t) :
    Alike c (nakGap io high n i s) (nakGap io (shiftSeq c high) n i t) := by
  induction n generalizing i s t with
  | zero =>
      exact alike
  | succ n inductionHypothesis =>
      have iseq : (shiftSeq c high + 1 + i) % 64 =
          ((high + 1 + i) % 64 + c) % 64 := by
        rw [shiftSeq_of_isSeq valid]
        omega
      have number := isSeq_mod (high + 1 + i)
      unfold nakGap
      dsimp only
      rw [iseq, alike.moved.rPw _ number]
      apply inductionHypothesis
      exact alike_nak alike number (isSeq_mod _) _

theorem Moved.getRslot
    {k k' : KData}
    (moved : Moved c k k') :
    (Kermit.getRslot k').1 = (Kermit.getRslot k).1 ∧
      Moved c (Kermit.getRslot k).2 (Kermit.getRslot k').2 := by
  have same : ∀ slot ∈ Kermit.slots k,
      decide ((k'.win.ipktinfo slot).len < 1) =
        decide ((k.win.ipktinfo slot).len < 1) := by
    intro slot member
    rw [moved.slots slot member]
    rfl
  unfold Kermit.getRslot
  rw [moved.slots_eq, List.find?_congr same]
  split
  · refine ⟨rfl, moved.wslots, ?_, moved.rPw⟩
    apply put_slots moved.slots
    intro member
    rw [moved.slots _ member]
    rfl
  · exact ⟨rfl, moved⟩

theorem Moved.storeRslot
    {k k' : KData}
    (moved : Moved c k k')
    {rseq : Int}
    (valid : isSeq rseq = true)
    (rslot : Int)
    (pbuf : List UInt8) :
    Moved c (Kermit.storeRslot rslot rseq pbuf k)
      (Kermit.storeRslot rslot (shiftSeq c rseq) pbuf k') where
  wslots := moved.wslots
  slots := by
    apply put_slots moved.slots
    intro member
    rw [moved.slots rslot member]
    rfl
  rPw _ number := put_places moved.rPw valid rslot number

theorem alike_addRpkt
    {rseq : Int}
    (valid : isSeq rseq = true)
    (pbuf : List UInt8)
    (alike : Alike c s t) :
    (addRpkt io (shiftSeq c rseq) pbuf t).1 = (addRpkt io rseq pbuf s).1 ∧
      Alike c (addRpkt io rseq pbuf s).2
        (addRpkt io (shiftSeq c rseq) pbuf t).2 := by
  have kept (k : KData) : (getRslot k).2.obuf = k.obuf ∧
      (getRslot k).2.obufpos = k.obufpos := by
    unfold getRslot
    split <;> exact ⟨rfl, rfl⟩
  have tested := @alike_testRslots ω io c s t alike
  obtain ⟨slot, moved⟩ := tested.moved.getRslot
  have taken := tested.onK moved kept kept
  unfold addRpkt
  dsimp only
  rw [slot, taken.moved.wslots]
  generalize (getRslot (testRslots io s).k).1 = rslot
  generalize onK (fun k => (getRslot k).2) (testRslots io s) = u at taken
  generalize onK (fun k => (getRslot k).2) (testRslots io t) = u' at taken
  split
  · exact ⟨rfl, taken⟩
  · have again := @alike_testRslots ω io c u u' taken
    have stored := again.onK (again.moved.storeRslot valid rslot pbuf)
      (fun _ => ⟨rfl, rfl⟩) (fun _ => ⟨rfl, rfl⟩)
    exact ⟨rfl, alike_testRslots stored⟩

/-- A packet of the same class is answered and stored alike. -/
theorem alike_placeRpkt
    {a a' : Arrival}
    {rseq : Int}
    (isnxt : a'.isnxt = a.isnxt)
    (isgap : a'.isgap = a.isgap)
    (isold : a'.isold = a.isold)
    (high : a.isgap = true →
      isSeq a.high = true ∧ a'.high = shiftSeq c a.high)
    (valid : isSeq rseq = true)
    (pbuf : List UInt8)
    (alike : Alike c s t) :
    (placeRpkt io a' (shiftSeq c rseq) pbuf t).1 =
        (placeRpkt io a rseq pbuf s).1 ∧
      Alike c (placeRpkt io a rseq pbuf s).2
        (placeRpkt io a' (shiftSeq c rseq) pbuf t).2 := by
  have valid' : isSeq (shiftSeq c rseq) = true := by
    rw [isSeq_shiftSeq]
    exact valid
  have acked := @alike_ack ω io c s t alike _ _ valid valid'
  unfold placeRpkt
  rw [isnxt, isgap, isold]
  split
  · exact alike_addRpkt valid pbuf acked
  · split
    · rename_i gap
      obtain ⟨number, same⟩ := high gap
      have count :
          (if shiftSeq c rseq - shiftSeq c a.high - 1 < 0 then
            shiftSeq c rseq - shiftSeq c a.high - 1 + 64
          else shiftSeq c rseq - shiftSeq c a.high - 1) =
          (if rseq - a.high - 1 < 0 then rseq - a.high - 1 + 64
          else rseq - a.high - 1) := by
        rw [shiftSeq_of_isSeq valid, shiftSeq_of_isSeq number]
        rw [isSeq_iff] at valid number
        split <;> split <;> omega
      rw [same]
      dsimp only
      rw [count]
      exact alike_addRpkt valid pbuf (alike_nakGap number _ 0 acked)
    · split
      · have place : (ack io (shiftSeq c rseq) none t).2.k.win.rPw
              (shiftSeq c rseq) =
            (ack io rseq none s).2.k.win.rPw rseq := by
          rw [← acked.moved.rPw rseq valid, shiftSeq_of_isSeq valid]
        dsimp only
        rw [place, acked.moved.wslots]
        split
        · exact alike_addRpkt valid pbuf acked
        · exact ⟨rfl, acked⟩
      · exact ⟨rfl, alike⟩

/-! ## Packets that are not ignored -/

theorem log_epkt
    {msg : List UInt8}
    (short : (cstr msg).length ≤ 80)
    (s : Sys ω) :
    (epkt io msg s).log.length = s.log.length + 1 := by
  have data : spktData (-1) (some msg) = cstr msg := rfl
  rw [← data] at short
  have sent (u : Sys ω) := @spkt_short ω io (ch 'E') 0 (-1) (some msg) u
    (by decide) (by decide) short
  unfold spkt at sent
  unfold epkt epktWith
  dsimp only
  rw [sent]
  rfl

theorem log_testRslots
    (s : Sys ω) :
    s.log.length ≤ (testRslots io s).log.length := by
  unfold testRslots
  dsimp only
  split
  · rw [log_epkt (by decide +kernel)]
    omega
  · exact Nat.le_refl _

theorem log_addRpkt
    (rseq : Int)
    (pbuf : List UInt8)
    (s : Sys ω) :
    s.log.length ≤ (addRpkt io rseq pbuf s).2.log.length := by
  have first : s.log.length ≤
      (onK (fun k => (getRslot k).2) (testRslots io s)).log.length :=
    log_testRslots s
  unfold addRpkt
  dsimp only
  generalize onK (fun k => (getRslot k).2) (testRslots io s) = u at first
  split
  · exact first
  · generalize (getRslot (testRslots io s).k).1 = rslot
    have second : u.log.length ≤ (testRslots io u).log.length :=
      log_testRslots u
    have third : (onK (storeRslot rslot rseq pbuf)
          (testRslots io u)).log.length ≤
        (testRslots io (onK (storeRslot rslot rseq pbuf)
          (testRslots io u))).log.length :=
      log_testRslots _
    have same : (onK (storeRslot rslot rseq pbuf)
          (testRslots io u)).log.length =
        (testRslots io u).log.length :=
      rfl
    dsimp only
    omega

theorem log_ack
    {seq : Int}
    (valid : isSeq seq = true)
    (s : Sys ω) :
    (ack io seq none s).2.log.length = s.log.length + 1 := by
  have short : (spktData (((Option.map cstr none).getD []).length : Nat)
      (Option.map cstr none)).length ≤ 80 :=
    Nat.zero_le 80
  unfold ack
  dsimp only
  rw [spkt_short io s (by decide) valid short]
  split <;> rfl

/-- An old packet is acknowledged. -/
theorem handleGoodRpkt_old
    {rseq : Int}
    (valid : isSeq rseq = true)
    (pbuf : List UInt8)
    (old : (classify s.k rseq).isold = true)
    (notNext : (classify s.k rseq).isnxt = false)
    (notGap : (classify s.k rseq).isgap = false) :
    s.log.length < (handleGoodRpkt io rseq pbuf s).2.log.length := by
  have acked := @log_ack ω io rseq valid s
  unfold handleGoodRpkt placeRpkt
  dsimp only
  rw [old, notNext, notGap]
  simp only [Bool.or_self, Bool.false_eq_true, if_false, if_true]
  split
  · have added := @log_addRpkt ω io rseq pbuf (ack io rseq none s).2
    omega
  · dsimp only
    omega

/-- A packet of no class is ignored. -/
theorem handleGoodRpkt_ignored
    {rseq : Int}
    (pbuf : List UInt8)
    (notOld : (classify s.k rseq).isold = false)
    (notNext : (classify s.k rseq).isnxt = false)
    (notGap : (classify s.k rseq).isgap = false) :
    handleGoodRpkt io rseq pbuf s = (xOk, s) := by
  unfold handleGoodRpkt placeRpkt
  dsimp only
  rw [notOld, notNext, notGap]
  rfl

end Answers

/-! ## The window at every place -/

/--
A packet is classified, answered, stored and passed on to the file in the same
way at two places, and at both one that is out of reach is ignored.
-/
structure TreatedAlike
    (io : Io ω)
    (c rseq : Int)
    (pbuf : List UInt8)
    (s t : Sys ω) : Prop where
  isnxt : (classify t.k (shiftSeq c rseq)).isnxt =
    (classify s.k rseq).isnxt
  isgap : (classify t.k (shiftSeq c rseq)).isgap =
    (classify s.k rseq).isgap
  isold : (classify t.k (shiftSeq c rseq)).isold =
    (classify s.k rseq).isold
  returns : (handleGoodRpkt io (shiftSeq c rseq) pbuf t).1 =
    (handleGoodRpkt io rseq pbuf s).1
  alike : Alike c (handleGoodRpkt io rseq pbuf s).2
    (handleGoodRpkt io (shiftSeq c rseq) pbuf t).2
  ignored : ¬ Reaches s.k rseq →
    handleGoodRpkt io rseq pbuf s = (xOk, s) ∧
      handleGoodRpkt io (shiftSeq c rseq) pbuf t = (xOk, t)

section Places

variable {c rseq : Int}
variable {k k' : KData}

theorem Moved.stocked
    (moved : Moved c k k')
    (stocked : Stocked k) :
    Stocked k' := by
  intro slot member holds
  rw [moved.slots_eq] at member
  rw [moved.slots slot member] at holds ⊢
  unfold shiftPacket
  rw [isSeq_shiftSeq]
  exact stocked slot member holds

theorem Moved.ahead
    (moved : Moved c k k')
    (stocked : Stocked k)
    (used : Kermit.nusedRslots k ≠ 0)
    (valid : isSeq rseq = true) :
    Kermit.ahead k' (shiftSeq c rseq) = Kermit.ahead k rseq := by
  have last := latestRseq_isSeq stocked used
  have same : latestRseq k' = shiftSeq c (latestRseq k) :=
    (moved.extremeRseq (fun rot best => rot > best)).1
  unfold Kermit.ahead
  rw [same, shiftSeq_of_isSeq valid, shiftSeq_of_isSeq last]
  omega

/-- A packet in reach, or windows clear of the step, are classified alike. -/
theorem Moved.classify
    (moved : Moved c k k')
    (stocked : Stocked k)
    (valid : isSeq rseq = true)
    (some : 1 ≤ k.par.wslots)
    (few : k.par.wslots ≤ 31)
    (placed : Reaches k rseq ∨ (¬ TouchesWrap k ∧ ¬ TouchesWrap k')) :
    (Kermit.classify k' (shiftSeq c rseq)).isnxt =
        (Kermit.classify k rseq).isnxt ∧
      (Kermit.classify k' (shiftSeq c rseq)).isgap =
        (Kermit.classify k rseq).isgap ∧
      (Kermit.classify k' (shiftSeq c rseq)).isold =
        (Kermit.classify k rseq).isold := by
  have valid' : isSeq (shiftSeq c rseq) = true := by
    rw [isSeq_shiftSeq]
    exact valid
  by_cases used : Kermit.nusedRslots k = 0
  · have used' : Kermit.nusedRslots k' = 0 := moved.nusedRslots.trans used
    unfold Kermit.classify
    rw [if_pos used, if_pos used']
    exact ⟨rfl, rfl, rfl⟩
  · have used' : Kermit.nusedRslots k' ≠ 0 := by
      rw [moved.nusedRslots]
      exact used
    have size := moved.wslots
    have distance := moved.ahead stocked used valid
    obtain ⟨next, gap, old⟩ := classify_iff stocked valid some few used
    obtain ⟨next', gap', old'⟩ := classify_iff (moved.stocked stocked)
      valid' (by omega) (by omega) used'
    have reach : Reaches k' (shiftSeq c rseq) ↔ Reaches k rseq := by
      unfold Reaches
      rw [size, distance, moved.nusedRslots]
    rw [distance] at next' gap' old'
    rw [size] at gap' old'
    rw [reach] at old'
    have found : Reaches k rseq ∨ TouchesWrap k' ↔
        Reaches k rseq ∨ TouchesWrap k := by
      rcases placed with reached | ⟨clear, clear'⟩
      · exact iff_of_true (Or.inl reached) (Or.inl reached)
      · rw [or_iff_left clear, or_iff_left clear']
    refine ⟨?_, ?_, ?_⟩
    · rw [Bool.eq_iff_iff, next, next']
    · rw [Bool.eq_iff_iff, gap, gap']
    · rw [Bool.eq_iff_iff, old, old', found]

/-- Out of reach, only a window that touches the step takes a packet as old. -/
theorem classify_out_of_reach
    (stocked : Stocked k)
    (valid : isSeq rseq = true)
    (some : 1 ≤ k.par.wslots)
    (few : k.par.wslots ≤ 31)
    (out : ¬ Reaches k rseq) :
    (classify k rseq).isnxt = false ∧
      (classify k rseq).isgap = false ∧
      ((classify k rseq).isold = true ↔ TouchesWrap k) := by
  have used : nusedRslots k ≠ 0 := fun none => out (Or.inl none)
  have far : ¬ ahead k rseq ≤ k.par.wslots :=
    fun near => out (Or.inr (Or.inl near))
  obtain ⟨next, gap, old⟩ := classify_iff stocked valid some few used
  rw [← Bool.not_eq_true, ← Bool.not_eq_true, next, gap, old]
  refine ⟨by omega, by omega, ?_⟩
  constructor
  · rintro ⟨_, reached | touches⟩
    · exact absurd reached out
    · exact touches
  · intro touches
    exact ⟨fun inside => far inside.2, Or.inr touches⟩

end Places

/-- A file is written without a look at the receive window. -/
theorem windowBlind_unixio {σ : Type}
    (os : Os σ) :
    WindowBlind (unixio os) :=
  fun _ _ _ _ _ => rfl

/--
`handle_good_rpkt` treats a packet in the same way at two places of the
window, and ignores it at both when it is out of reach, exactly when it is in
reach or neither of the windows touches the step from 63 to 0.
-/
theorem handleGoodRpkt_moves_iff {σ : Type}
    (os : Os σ)
    {c rseq : Int}
    (pbuf : List UInt8)
    {s t : Sys (Unix σ)}
    (twin : Twin c s t)
    (stocked : Stocked s.k)
    (valid : isSeq rseq = true)
    (some : 1 ≤ s.k.par.wslots)
    (few : s.k.par.wslots ≤ 31) :
    TreatedAlike (unixio os) c rseq pbuf s t ↔
      Reaches s.k rseq ∨ (¬ TouchesWrap s.k ∧ ¬ TouchesWrap t.k) := by
  have moved := twin.moved
  have size := moved.wslots
  have stocked' := moved.stocked stocked
  have valid' : isSeq (shiftSeq c rseq) = true := by
    rw [isSeq_shiftSeq]
    exact valid
  have reach : Reaches t.k (shiftSeq c rseq) ↔ Reaches s.k rseq := by
    unfold Reaches
    rw [moved.nusedRslots, size]
    by_cases used : nusedRslots s.k = 0
    · exact iff_of_true (Or.inl used) (Or.inl used)
    · rw [moved.ahead stocked used valid]
  have outside (out : ¬ Reaches s.k rseq) :=
    classify_out_of_reach stocked valid some few out
  have outside' (out : ¬ Reaches s.k rseq) :=
    classify_out_of_reach stocked' valid' (by omega) (by omega)
      (fun reached => out (reach.mp reached))
  constructor
  · intro treated
    by_cases reached : Reaches s.k rseq
    · exact Or.inl reached
    · obtain ⟨next, gap, old⟩ := outside reached
      obtain ⟨next', gap', old'⟩ := outside' reached
      obtain ⟨here, there⟩ := treated.ignored reached
      refine Or.inr ⟨fun touches => ?_, fun touches => ?_⟩
      · have longer := @handleGoodRpkt_old _ (unixio os) s _ valid pbuf
          (old.mpr touches) next gap
        rw [here] at longer
        exact absurd longer (Nat.lt_irrefl _)
      · have longer := @handleGoodRpkt_old _ (unixio os) t _ valid' pbuf
          (old'.mpr touches) next' gap'
        rw [there] at longer
        exact absurd longer (Nat.lt_irrefl _)
  · intro placed
    obtain ⟨isnxt, isgap, isold⟩ :=
      moved.classify stocked valid some few placed
    have high : (classify s.k rseq).isgap = true →
        isSeq (classify s.k rseq).high = true ∧
          (classify t.k (shiftSeq c rseq)).high =
            shiftSeq c (classify s.k rseq).high := by
      intro gap
      have used : nusedRslots s.k ≠ 0 := by
        intro none
        unfold classify at gap
        rw [if_pos none] at gap
        exact absurd gap Bool.false_ne_true
      have used' : nusedRslots t.k ≠ 0 := by
        rw [moved.nusedRslots]
        exact used
      unfold classify
      rw [if_neg used, if_neg used']
      exact ⟨latestRseq_isSeq stocked used,
        (moved.extremeRseq (fun rot best => rot > best)).1⟩
    have handled :
        (handleGoodRpkt (unixio os) (shiftSeq c rseq) pbuf t).1 =
            (handleGoodRpkt (unixio os) rseq pbuf s).1 ∧
          Alike c (handleGoodRpkt (unixio os) rseq pbuf s).2
            (handleGoodRpkt (unixio os) (shiftSeq c rseq) pbuf t).2 := by
      obtain ⟨code, aligned⟩ := twin_alignWindow
        (windowBlind_unixio os) valid s.k.par.wslots twin
      unfold handleGoodRpkt
      dsimp only
      rw [isnxt, isgap, size]
      split
      · rw [code]
        split
        · exact ⟨code, aligned.alike⟩
        · exact alike_placeRpkt isnxt isgap isold high valid pbuf
            aligned.alike
      · exact alike_placeRpkt isnxt isgap isold high valid pbuf twin.alike
    refine ⟨isnxt, isgap, isold, handled.1, handled.2, fun out => ?_⟩
    obtain ⟨next, gap, old⟩ := outside out
    obtain ⟨next', gap', old'⟩ := outside' out
    rcases placed with reached | ⟨clear, clear'⟩
    · exact absurd reached out
    · rw [← old, Bool.not_eq_true] at clear
      rw [← old', Bool.not_eq_true] at clear'
      exact ⟨handleGoodRpkt_ignored pbuf clear next gap,
        handleGoodRpkt_ignored pbuf clear' next' gap'⟩

/-- A server that holds one packet with a number in its receive window. -/
def holdingSys
    (seq : Int) : Sys (Unix Unit) :=
  onK (storeRslot 0 seq (lit "abc")) (idleServer idleOs ())

theorem holdingSys_slots
    (seq : Int) :
    slots (holdingSys seq).k = [0] := by
  have small : (idleServer idleOs ()).k.par.wslots = 1 := by
    decide +kernel
  have same : slots (holdingSys seq).k =
      slots (idleServer idleOs ()).k :=
    rfl
  rw [same]
  unfold slots
  rw [small]
  rfl

/-- A fresh server has no place for any number. -/
theorem idleServer_rPw
    {seq : Int}
    (valid : isSeq seq = true) :
    (idleServer idleOs ()).k.win.rPw seq = -1 := by
  have all : ∀ n < 64, (idleServer idleOs ()).k.win.rPw (n : Nat) = -1 := by
    decide +kernel
  rw [isSeq_iff] at valid
  have here := all seq.toNat (by omega)
  rwa [Int.toNat_of_nonneg valid.1] at here

theorem holdingSys_twin
    {c seq : Int}
    (valid : isSeq seq = true) :
    Twin c (holdingSys seq) (holdingSys (shiftSeq c seq)) := by
  refine ⟨(holdingSys (shiftSeq c seq)).k.win.ipktinfo,
    (holdingSys (shiftSeq c seq)).k.win.rPw, rfl, ?_, ?_⟩
  · intro slot member
    rw [holdingSys_slots, List.mem_singleton] at member
    rw [member]
    rfl
  · intro other number
    refine put_places ?_ valid 0 number
    intro old number
    rw [idleServer_rPw number, idleServer_rPw (isSeq_mod _)]

theorem holdingSys_stocked
    {seq : Int}
    (valid : isSeq seq = true) :
    Stocked (holdingSys seq).k := by
  intro slot member _
  rw [holdingSys_slots, List.mem_singleton] at member
  rw [member]
  exact valid

theorem handleGoodRpkt_moves_iff_holding :
    Twin 58 (holdingSys 5) (holdingSys 63) ∧
      Stocked (holdingSys 5).k ∧
      isSeq 6 = true ∧
      1 ≤ (holdingSys 5).k.par.wslots ∧
      (holdingSys 5).k.par.wslots ≤ 31 ∧
      (TreatedAlike (unixio idleOs) 58 6 (lit "x") (holdingSys 5)
          (holdingSys 63) ↔
        Reaches (holdingSys 5).k 6 ∨
          (¬ TouchesWrap (holdingSys 5).k ∧
            ¬ TouchesWrap (holdingSys 63).k)) := by
  have twin : Twin 58 (holdingSys 5) (holdingSys 63) :=
    holdingSys_twin (by decide)
  have stocked := @holdingSys_stocked 5 (by decide)
  exact ⟨twin, stocked, by decide, by decide +kernel, by decide +kernel,
    handleGoodRpkt_moves_iff idleOs (lit "x") twin stocked (by decide)
      (by decide +kernel) (by decide +kernel)⟩

/--
A number five ahead of the window is ignored when the window is at 5, and is
acknowledged and answered with an error when it is at 63.
-/
theorem handleGoodRpkt_not_moved :
    Twin 58 (holdingSys 5) (holdingSys 63) ∧
      Stocked (holdingSys 5).k ∧
      (holdingSys 5).k.par.wslots = 1 ∧
      ¬ Reaches (holdingSys 5).k 10 ∧
      handleGoodRpkt (unixio idleOs) 10 (lit "x") (holdingSys 5) =
        (xOk, holdingSys 5) ∧
      (classify (holdingSys 63).k 4).isold = true ∧
      (handleGoodRpkt (unixio idleOs) 4 (lit "x") (holdingSys 63)).1 =
        xError ∧
      (txds (handleGoodRpkt (unixio idleOs) 4 (lit "x")
        (holdingSys 63)).2.log).map frameType = [ch 'Y'] ∧
      ¬ TreatedAlike (unixio idleOs) 58 10 (lit "x") (holdingSys 5)
        (holdingSys 63) := by
  have here : (classify (holdingSys 5).k 10).isold = false ∧
      (classify (holdingSys 5).k 10).isnxt = false ∧
      (classify (holdingSys 5).k 10).isgap = false := by
    decide +kernel
  have there : (classify (holdingSys 63).k (shiftSeq 58 10)).isold =
      true := by
    decide +kernel
  have out : ¬ (nusedRslots (holdingSys 5).k = 0 ∨
      ahead (holdingSys 5).k 10 ≤ (holdingSys 5).k.par.wslots ∨
      64 - ((holdingSys 5).k.par.wslots : Int) <
        ahead (holdingSys 5).k 10) := by
    decide +kernel
  refine ⟨holdingSys_twin (by decide), holdingSys_stocked (by decide),
    by decide +kernel, out,
    handleGoodRpkt_ignored _ here.1 here.2.1 here.2.2,
    by decide +kernel, by decide +kernel, by decide +kernel, ?_⟩
  intro treated
  have same := treated.isold
  rw [here.1, there] at same
  exact absurd same Bool.false_ne_true.symm

end Slate106.Kermit
