import Slate106.KermitAttributes
import Slate106.KermitDecodeReads

namespace Slate106.Kermit

open CBytes

/-!
# What `gattr()` touches

`gattr()` once more, with every read of the data field and every store into
its two buffers recorded.  The length byte of an attribute is not compared with
what is left of the field, and each copy loop leaves room for one byte less
than it stores with its NUL.
-/

/-! ## The loop with its record -/

/-- `gattr()` under way: where `s` points, and the indices it has used. -/
structure GattrRun where
  v : GattrVars
  place : Nat
  m : Probe
  sizebuf : List Nat
  filedate : List Nat

/--
The indices of `for (i = 0; (i < aln) && (i < limit); i++) buf[i] = *s++;` and
of `buf[i] = '\0'` after it.
-/
def copyIndices
    (aln limit : Nat) : List Nat :=
  List.range (min aln limit + 1)

/-- One attribute with tag `c` whose length byte is read next. -/
def probeGattrOne
    (c : UInt8)
    (run : GattrRun) : GattrRun :=
  let length := run.m.read run.place
  let aln := (xunchar length.1).toNat
  let place := run.place + 1
  if c = ch '!' ∨ c = ch '"' ∨ c = ch '1' then
    let text := length.2.readAll place (min aln sizebufl)
    { run with
      v := gattrOne c text.1 run.v
      place := place + aln
      m := text.2
      sizebuf := copyIndices aln sizebufl ++ run.sizebuf }
  else if c = ch '#' then
    let text := length.2.readAll place (min aln dateMax)
    { run with
      v := gattrOne c text.1 run.v
      place := place + aln
      m := text.2
      filedate := copyIndices aln dateMax ++ run.filedate }
  else { run with place := place + aln, m := length.2 }

/-- The loop, and whether it has met the NUL that ends it. -/
def probeGattrLoop : Nat → GattrRun → GattrRun × Bool
  | 0, run => (run, false)
  | n + 1, run =>
      let c := run.m.read run.place
      let run := { run with place := run.place + 1, m := c.2 }
      if c.1 = 0 then (run, true)
      else probeGattrLoop n (probeGattrOne c.1 run)

/-- `gattr()` on the memory from its data field on. -/
def probeGattr
    (s : List UInt8)
    (r : KResponse) : GattrRun × Bool :=
  probeGattrLoop (s.length + 1)
    { v := { fsize := 0, fsizek := 0, rc := -1, filedate := r.filedate }
      place := 0
      m := ⟨s, []⟩
      sizebuf := []
      filedate := [] }

/-! ## The record changes nothing -/

theorem gattrOne_take
    (c : UInt8)
    {limit : Nat}
    (enough : (c = ch '!' ∨ c = ch '"' ∨ c = ch '1') → sizebufl ≤ limit)
    (enoughDate : c = ch '#' → dateMax ≤ limit)
    (value : List UInt8)
    (v : GattrVars) :
    gattrOne c (value.take limit) v = gattrOne c value v := by
  have same (few : sizebufl ≤ limit) :
      (value.take limit).take sizebufl = value.take sizebufl := by
    rw [List.take_take, Nat.min_eq_left few]
  unfold gattrOne
  dsimp only
  by_cases k : c = ch '!'
  · rw [if_pos k, if_pos k, same (enough (Or.inl k))]
  rw [if_neg k, if_neg k]
  by_cases type : c = ch '"'
  · rw [if_pos type, if_pos type, same (enough (Or.inr (Or.inl type)))]
  rw [if_neg type, if_neg type]
  by_cases date : c = ch '#'
  · rw [if_pos date, if_pos date, List.take_take,
      Nat.min_eq_left (enoughDate date)]
  rw [if_neg date, if_neg date]
  by_cases length : c = ch '1'
  · rw [if_pos length, if_pos length, same (enough (Or.inr (Or.inr length)))]
  · rw [if_neg length, if_neg length]

/-- Consecutive reads use consecutive indices. -/
theorem Probe.mem_touched_readAll
    {index place count : Nat}
    {m : Probe} :
    index ∈ (m.readAll place count).2.touched ↔
      index ∈ m.touched ∨ (place ≤ index ∧ index < place + count) := by
  induction count generalizing place m with
  | zero =>
      have none : ¬ (place ≤ index ∧ index < place + 0) := by
        omega
      simp only [none, or_false, readAll]
  | succ count inductionHypothesis =>
      rw [readAll]
      dsimp only
      have split : (place ≤ index ∧ index < place + (count + 1)) ↔
          index = place ∨ (place + 1 ≤ index ∧ index < place + 1 + count) := by
        omega
      rw [inductionHypothesis, Probe.read, List.mem_cons, split, or_assoc,
        or_left_comm]

/-- The copied bytes are the front of the value. -/
theorem slice_eq_take
    (memory : List UInt8)
    (place aln limit : Nat) :
    slice memory place (min aln limit) =
      ((memory.drop place).takeD aln 0).take limit := by
  have few := Nat.min_le_left aln limit
  rw [takeD_drop_eq_slice, ← take_slice memory place few, ← List.take_take,
    List.take_of_length_le (by
      rw [List.length_take, length_slice]
      exact Nat.min_le_right limit aln)]

theorem probeGattrOne_v
    (c : UInt8)
    (run : GattrRun) :
    let aln := (xunchar (peek run.m.bytes run.place)).toNat
    (probeGattrOne c run).v =
        gattrOne c ((run.m.bytes.drop (run.place + 1)).takeD aln 0) run.v ∧
      (probeGattrOne c run).place = run.place + 1 + aln ∧
      (probeGattrOne c run).m.bytes = run.m.bytes := by
  have length : (run.m.read run.place).1 = peek run.m.bytes run.place := rfl
  unfold probeGattrOne
  dsimp only
  rw [length]
  split
  · rename_i number
    refine ⟨?_, rfl, ?_⟩
    · have other : c = ch '#' → dateMax ≤ sizebufl := fun _ => by decide
      rw [Probe.fst_readAll, Probe.bytes_read, slice_eq_take]
      exact gattrOne_take c (fun _ => Nat.le_refl _) other _ _
    · rw [Probe.bytes_readAll, Probe.bytes_read]
  · rename_i noNumber
    split
    · rename_i date
      refine ⟨?_, rfl, ?_⟩
      · rw [Probe.fst_readAll, Probe.bytes_read, slice_eq_take]
        exact gattrOne_take c (fun number => absurd number noNumber)
          (fun _ => Nat.le_refl _) _ _
      · rw [Probe.bytes_readAll, Probe.bytes_read]
    · rename_i noDate
      refine ⟨?_, rfl, rfl⟩
      obtain ⟨noK, noType, noLength⟩ := not_or.mp noNumber |>.imp id not_or.mp
      unfold gattrOne
      rw [if_neg noK, if_neg noType, if_neg noDate, if_neg noLength]

/-- The recorded loop is the loop. -/
theorem probeGattrLoop_v
    (turns : Nat)
    (run : GattrRun) :
    (probeGattrLoop turns run).1.v =
      gattrLoop turns (run.m.bytes.drop run.place) run.v := by
  induction turns generalizing run with
  | zero =>
      rfl
  | succ turns inductionHypothesis =>
      have tag : peek (run.m.bytes.drop run.place) 0 =
          (run.m.read run.place).1 :=
        peek_drop _ _ _
      unfold probeGattrLoop gattrLoop
      dsimp only
      rw [tag]
      split
      · rfl
      · obtain ⟨v, place, bytes⟩ := probeGattrOne_v (run.m.read run.place).1
          { run with place := run.place + 1, m := (run.m.read run.place).2 }
        rw [inductionHypothesis, v, place, bytes]
        simp only [Probe.bytes_read, peek_drop, List.drop_drop]
        congr 2
        omega

/-- The record does not change what `gattr()` returns. -/
theorem probeGattr_eq
    (s : List UInt8)
    (r : KResponse) :
    let v := (probeGattr s r).1.v
    gattr s r =
      (v.rc,
        { r with
          filedate := v.filedate
          filesize :=
            if v.fsize > -1 then v.fsize
            else if v.fsizek > -1 then v.fsizek * 1024
            else r.filesize }) := by
  unfold probeGattr
  dsimp only
  rw [probeGattrLoop_v]
  rfl

/-! ## What one attribute records -/

/-- The attributes whose value goes through `sizebuf`. -/
def usesSizebuf
    (c : UInt8) : Bool :=
  c = ch '!' ∨ c = ch '"' ∨ c = ch '1'

/-- Everything a run has recorded is recorded in a later one. -/
structure GattrRun.Before
    (run run' : GattrRun) : Prop where
  touched : ∀ index ∈ run.m.touched, index ∈ run'.m.touched
  sizebuf : ∀ index ∈ run.sizebuf, index ∈ run'.sizebuf
  filedate : ∀ index ∈ run.filedate, index ∈ run'.filedate

theorem GattrRun.Before.trans
    {run₁ run₂ run₃ : GattrRun}
    (first : run₁.Before run₂)
    (second : run₂.Before run₃) :
    run₁.Before run₃ where
  touched index member := second.touched index (first.touched index member)
  sizebuf index member := second.sizebuf index (first.sizebuf index member)
  filedate index member := second.filedate index (first.filedate index member)

/-- What one attribute adds to the record. -/
structure GattrRun.Adds
    (c : UInt8)
    (aln : Nat)
    (run run' : GattrRun) : Prop where
  before : run.Before run'
  touched : ∀ index ∈ run'.m.touched,
    index ∈ run.m.touched ∨ (run.place ≤ index ∧ index < run.place + 1 + aln)
  sizebuf : ∀ index ∈ run'.sizebuf,
    index ∈ run.sizebuf ∨
      (usesSizebuf c = true ∧ index ∈ copyIndices aln sizebufl)
  filedate : ∀ index ∈ run'.filedate,
    index ∈ run.filedate ∨ (c = ch '#' ∧ index ∈ copyIndices aln dateMax)
  fillsSizebuf : usesSizebuf c = true →
    ∀ index ∈ copyIndices aln sizebufl, index ∈ run'.sizebuf
  fillsFiledate : c = ch '#' →
    ∀ index ∈ copyIndices aln dateMax, index ∈ run'.filedate

/-- The bytes read for a length byte and a part of the value. -/
theorem Probe.touched_value
    (place : Nat)
    {count aln : Nat}
    (few : count ≤ aln)
    (m : Probe) :
    (∀ index ∈ m.touched,
      index ∈ ((m.read place).2.readAll (place + 1) count).2.touched) ∧
    ∀ index ∈ ((m.read place).2.readAll (place + 1) count).2.touched,
      index ∈ m.touched ∨ (place ≤ index ∧ index < place + 1 + aln) := by
  have one (index : Nat) : index ∈ (m.read place).2.touched ↔
      index = place ∨ index ∈ m.touched :=
    List.mem_cons
  constructor
  · intro index member
    rw [Probe.mem_touched_readAll, one]
    exact Or.inl (Or.inr member)
  · intro index member
    rw [Probe.mem_touched_readAll, one] at member
    rcases member with (same | earlier) | value
    · exact Or.inr (by omega)
    · exact Or.inl earlier
    · exact Or.inr (by omega)

theorem probeGattrOne_adds
    (c : UInt8)
    (run : GattrRun) :
    run.Adds c (xunchar (peek run.m.bytes run.place)).toNat
      (probeGattrOne c run) := by
  have length : (run.m.read run.place).1 = peek run.m.bytes run.place := rfl
  generalize known : (xunchar (peek run.m.bytes run.place)).toNat = aln
  by_cases number : c = ch '!' ∨ c = ch '"' ∨ c = ch '1'
  · have uses : usesSizebuf c = true := decide_eq_true number
    have noDate : c ≠ ch '#' := by
      rintro rfl
      exact absurd number (by decide)
    obtain ⟨kept, added⟩ := Probe.touched_value run.place
      (Nat.min_le_left aln sizebufl) run.m
    unfold probeGattrOne
    dsimp only
    rw [if_pos number, length, known]
    exact
      { before := ⟨kept, fun _ => List.mem_append_right _, fun _ => id⟩
        touched := added
        sizebuf := by
          intro index member
          rcases List.mem_append.mp member with new | old
          · exact Or.inr ⟨uses, new⟩
          · exact Or.inl old
        filedate := fun _ => Or.inl
        fillsSizebuf := fun _ _ => List.mem_append_left _
        fillsFiledate := fun date => absurd date noDate }
  · have noUse : usesSizebuf c = false := decide_eq_false number
    have notUsed : ¬ usesSizebuf c = true := by
      rw [noUse]
      exact Bool.false_ne_true
    by_cases date : c = ch '#'
    · obtain ⟨kept, added⟩ := Probe.touched_value run.place
        (Nat.min_le_left aln dateMax) run.m
      unfold probeGattrOne
      dsimp only
      rw [if_neg number, if_pos date, length, known]
      exact
        { before := ⟨kept, fun _ => id, fun _ => List.mem_append_right _⟩
          touched := added
          sizebuf := fun _ => Or.inl
          filedate := by
            intro index member
            rcases List.mem_append.mp member with new | old
            · exact Or.inr ⟨date, new⟩
            · exact Or.inl old
          fillsSizebuf := fun used => absurd used notUsed
          fillsFiledate := fun _ _ => List.mem_append_left _ }
    · obtain ⟨kept, added⟩ := Probe.touched_value run.place
        (Nat.zero_le aln) run.m
      unfold probeGattrOne
      dsimp only
      rw [if_neg number, if_neg date, length, known]
      exact
        { before := ⟨kept, fun _ => id, fun _ => id⟩
          touched := added
          sizebuf := fun _ => Or.inl
          filedate := fun _ => Or.inl
          fillsSizebuf := fun used => absurd used notUsed
          fillsFiledate := fun isDate => absurd isDate date }

/-- A turn that reads a tag. -/
def GattrRun.tagged
    (run : GattrRun) : GattrRun :=
  { run with place := run.place + 1, m := (run.m.read run.place).2 }

theorem GattrRun.before_tagged
    (run : GattrRun) :
    run.Before run.tagged :=
  ⟨fun _ => List.mem_cons_of_mem _, fun _ => id, fun _ => id⟩

theorem probeGattrLoop_before
    (turns : Nat)
    (run : GattrRun) :
    run.Before (probeGattrLoop turns run).1 := by
  induction turns generalizing run with
  | zero =>
      exact ⟨fun _ => id, fun _ => id, fun _ => id⟩
  | succ turns inductionHypothesis =>
      unfold probeGattrLoop
      dsimp only
      split
      · exact run.before_tagged
      · exact (run.before_tagged.trans
          (probeGattrOne_adds _ run.tagged).before).trans
            (inductionHypothesis _)

/-- The next tag is read. -/
theorem probeGattrLoop_reads_tag
    (turns : Nat)
    (run : GattrRun) :
    run.place ∈ (probeGattrLoop (turns + 1) run).1.m.touched := by
  have read : run.place ∈ run.tagged.m.touched := List.mem_cons_self ..
  unfold probeGattrLoop
  dsimp only
  split
  · exact read
  · exact ((probeGattrOne_adds _ run.tagged).before.trans
      (probeGattrLoop_before turns _)).touched _ read

/-! ## Which fields are safe -/

/-- `gattr()` has read nothing behind a place and stayed in its buffers. -/
structure GattrRun.Inside
    (last : Nat)
    (run : GattrRun) : Prop where
  touched : ∀ index ∈ run.m.touched, index ≤ last
  sizebuf : ∀ index ∈ run.sizebuf, index < sizebufl
  filedate : ∀ index ∈ run.filedate, index < dateMax

theorem GattrRun.Before.inside
    {last : Nat}
    {run run' : GattrRun}
    (before : run.Before run')
    (inside : run'.Inside last) :
    run.Inside last where
  touched index member := inside.touched index (before.touched index member)
  sizebuf index member := inside.sizebuf index (before.sizebuf index member)
  filedate index member := inside.filedate index (before.filedate index member)

/-- `gattr()` ends, and nothing it touches is out of bounds. -/
structure GattrSafe
    (text : List UInt8)
    (result : GattrRun × Bool) : Prop where
  inside : result.1.Inside text.length
  ended : result.2 = true

namespace Attribute

/-- The value and its NUL fit the buffer they are copied to. -/
structure Fits
    (a : Attribute) : Prop where
  short : a.value.length < 256
  sizebuf : usesSizebuf a.tag = true → a.value.length < sizebufl
  filedate : a.tag = ch '#' → a.value.length < dateMax

end Attribute

theorem mem_copyIndices
    {aln limit index : Nat} :
    index ∈ copyIndices aln limit ↔ index ≤ min aln limit := by
  rw [copyIndices, List.mem_range, Nat.lt_succ_iff]

/-- The bytes at the start of an attribute. -/
theorem peek_attribute
    {bytes before after : List UInt8}
    (a : Attribute)
    (memory : bytes = before ++ (a.bytes ++ after)) :
    peek bytes before.length = a.tag ∧
      peek bytes (before.length + 1) =
        tochar (UInt8.ofNat a.value.length) := by
  constructor
  · rw [memory, peek_append_right (Nat.le_refl _), Nat.sub_self]
    rfl
  · rw [memory, peek_append_right (Nat.le_add_right _ 1),
      Nat.add_sub_cancel_left]
    rfl

/-- A list of attributes that fit is read up to its NUL. -/
theorem probeGattrLoop_inside
    {attributes : List Attribute}
    {before rest : List UInt8}
    {turns : Nat}
    {run : GattrRun}
    (fits : ∀ a ∈ attributes, a.Fits)
    (noNul : 0 ∉ attributeField attributes)
    (memory : run.m.bytes = before ++ (attributeField attributes ++ 0 :: rest))
    (place : run.place = before.length)
    (inside :
      run.Inside (before.length + (attributeField attributes).length))
    (enough : attributes.length < turns) :
    let result := probeGattrLoop turns run
    result.1.Inside (before.length + (attributeField attributes).length) ∧
      result.1.place =
        before.length + (attributeField attributes).length + 1 ∧
      result.2 = true := by
  obtain ⟨turns, rfl⟩ : ∃ fewer, turns = fewer + 1 := ⟨turns - 1, by omega⟩
  induction attributes generalizing before run turns with
  | nil =>
      have nul : (run.m.read run.place).1 = 0 := by
        show peek run.m.bytes run.place = 0
        rw [memory, place, peek_append_right (Nat.le_refl _), Nat.sub_self]
        rfl
      unfold probeGattrLoop
      dsimp only
      rw [if_pos nul]
      refine ⟨⟨?_, inside.sizebuf, inside.filedate⟩, ?_, rfl⟩
      · intro index member
        rcases List.mem_cons.mp member with rfl | earlier
        · rw [place]
          exact Nat.le_add_right _ _
        · exact inside.touched index earlier
      · show run.place + 1 = _
        rw [place]
        rfl
  | cons a attributes inductionHypothesis =>
      have first := fits a (List.mem_cons_self ..)
      have field : attributeField (a :: attributes) =
          a.bytes ++ attributeField attributes :=
        List.flatMap_cons
      have size : a.bytes.length = a.value.length + 2 := rfl
      rw [field, List.append_assoc] at memory
      rw [field, List.length_append] at inside ⊢
      rw [field, List.mem_append, not_or] at noNul
      obtain ⟨tag, lengthByte⟩ := peek_attribute a memory
      have nonzero : a.tag ≠ 0 := by
        intro zero
        apply noNul.1
        rw [Attribute.bytes, zero]
        exact List.mem_cons_self ..
      have tagRead : (run.m.read run.place).1 = a.tag := by
        rw [place]
        exact tag
      have adds := probeGattrOne_adds a.tag run.tagged
      obtain ⟨_, next, same⟩ := probeGattrOne_v a.tag run.tagged
      have aln : (xunchar (peek run.tagged.m.bytes run.tagged.place)).toNat =
          a.value.length := by
        show (xunchar (peek run.m.bytes (run.place + 1))).toNat = _
        rw [place, lengthByte, Attribute.aln first.short]
      rw [aln] at adds next
      have end' : (probeGattrOne a.tag run.tagged).place =
          (before ++ a.bytes).length := by
        rw [next, List.length_append, size]
        show run.place + 1 + 1 + _ = _
        rw [place]
        omega
      have memory' : (probeGattrOne a.tag run.tagged).m.bytes =
          (before ++ a.bytes) ++ (attributeField attributes ++ 0 :: rest) := by
        rw [same, List.append_assoc]
        exact memory
      have inside' : (probeGattrOne a.tag run.tagged).Inside
          ((before ++ a.bytes).length +
            (attributeField attributes).length) := by
        rw [List.length_append]
        constructor
        · intro index member
          rcases adds.touched index member with earlier | ⟨_, below⟩
          · rcases List.mem_cons.mp earlier with rfl | earlier
            · rw [place]
              omega
            · have bound := inside.touched index earlier
              omega
          · have start : run.tagged.place = before.length + 1 := by
              rw [← place]
              rfl
            omega
        · intro index member
          rcases adds.sizebuf index member with earlier | ⟨uses, copied⟩
          · exact inside.sizebuf index earlier
          · have room := first.sizebuf uses
            have last := mem_copyIndices.mp copied
            omega
        · intro index member
          rcases adds.filedate index member with earlier | ⟨date, copied⟩
          · exact inside.filedate index earlier
          · have room := first.filedate date
            have last := mem_copyIndices.mp copied
            omega
      obtain ⟨fewer, rfl⟩ : ∃ fewer, turns = fewer + 1 :=
        ⟨turns - 1, by
          rw [List.length_cons] at enough
          omega⟩
      have later := inductionHypothesis
        (fun b member => fits b (List.mem_cons_of_mem a member)) noNul.2
        memory' end' inside' fewer (Nat.lt_of_succ_lt_succ enough)
      rw [List.length_append, Nat.add_assoc before.length] at later
      unfold probeGattrLoop
      dsimp only
      rw [if_neg (by rw [tagRead]; exact nonzero), tagRead]
      exact later

/-- A field that is read up to its NUL is a list of attributes that fit. -/
theorem attributes_of_inside
    {text before rest : List UInt8}
    {turns : Nat}
    {run : GattrRun}
    (noNul : 0 ∉ text)
    (memory : run.m.bytes = before ++ (text ++ 0 :: rest))
    (place : run.place = before.length)
    (inside : (probeGattrLoop turns run).1.Inside
      (before.length + text.length))
    (enough : text.length < turns) :
    ∃ attributes,
      text = attributeField attributes ∧ ∀ a ∈ attributes, a.Fits := by
  induction turns generalizing text before run with
  | zero =>
      exact absurd enough (Nat.not_lt_zero _)
  | succ turns inductionHypothesis =>
      cases text with
      | nil =>
          exact ⟨[], rfl, fun a member => absurd member List.not_mem_nil⟩
      | cons c tail =>
          rw [List.mem_cons, not_or] at noNul
          rw [List.length_cons] at inside enough
          obtain ⟨fewer, rfl⟩ : ∃ fewer, turns = fewer + 1 :=
            ⟨turns - 1, by omega⟩
          have tag : (run.m.read run.place).1 = c := by
            show peek run.m.bytes run.place = c
            rw [memory, place, peek_append_right (Nat.le_refl _), Nat.sub_self]
            rfl
          have lengthByte : peek run.tagged.m.bytes run.tagged.place =
              peek (tail ++ 0 :: rest) 0 := by
            show peek run.m.bytes (run.place + 1) = _
            rw [memory, place, peek_append_right (Nat.le_add_right _ 1),
              Nat.add_sub_cancel_left]
            rfl
          unfold probeGattrLoop at inside
          dsimp only at inside
          rw [if_neg (by rw [tag]; exact fun zero => noNul.1 zero.symm), tag]
            at inside
          change (probeGattrLoop (fewer + 1)
            (probeGattrOne c run.tagged)).1.Inside _ at inside
          have adds := probeGattrOne_adds c run.tagged
          obtain ⟨_, next, same⟩ := probeGattrOne_v c run.tagged
          rw [lengthByte] at adds next
          -- The tag behind the value is read, so the value is in the field.
          have reached := inside.touched _
            (probeGattrLoop_reads_tag fewer (probeGattrOne c run.tagged))
          rw [next] at reached
          have start : run.tagged.place = before.length + 1 := by
            rw [← place]
            rfl
          cases tail with
          | nil =>
              rw [List.length_nil] at reached
              omega
          | cons l more =>
              rw [List.cons_append, peek_cons_zero] at adds next reached
              rw [List.length_cons] at reached
              have kept := (probeGattrLoop_before (fewer + 1)
                (probeGattrOne c run.tagged)).inside inside
              generalize known : (xunchar l).toNat = aln at adds next reached
              have small : aln < 256 := by
                rw [← known]
                exact (xunchar l).toNat_lt
              have size : (more.take aln).length = aln := by
                rw [List.length_take]
                omega
              have byte : tochar (UInt8.ofNat (more.take aln).length) = l := by
                rw [size, ← known, UInt8.ofNat_toNat, tochar_xunchar]
              let a : Attribute := ⟨c, more.take aln⟩
              have whole : c :: l :: more = a.bytes ++ more.drop aln := by
                show _ = c :: tochar (UInt8.ofNat (more.take aln).length) ::
                  (more.take aln ++ more.drop aln)
                rw [byte, List.take_append_drop]
              have bytes : a.bytes.length = aln + 2 := by
                show (more.take aln).length + 2 = _
                rw [size]
              have fits : a.Fits := by
                refine ⟨?_, fun uses => ?_, fun date => ?_⟩
                · show (more.take aln).length < 256
                  rw [size]
                  exact small
                · have last := kept.sizebuf _
                    (adds.fillsSizebuf uses _
                      (mem_copyIndices.mpr (Nat.le_refl _)))
                  show (more.take aln).length < _
                  omega
                · have last := kept.filedate _
                    (adds.fillsFiledate date _
                      (mem_copyIndices.mpr (Nat.le_refl _)))
                  show (more.take aln).length < _
                  omega
              have restNul : 0 ∉ more.drop aln := fun member =>
                noNul.2 (List.mem_cons_of_mem l (List.mem_of_mem_drop member))
              obtain ⟨attributes, field, allFit⟩ :=
                @inductionHypothesis (more.drop aln) (before ++ a.bytes)
                  (probeGattrOne c run.tagged) restNul
                  (by
                    rw [same]
                    show run.m.bytes = _
                    rw [memory, whole]
                    simp only [List.append_assoc])
                  (by
                    rw [next, start, List.length_append, bytes]
                    omega)
                  (by
                    rw [List.length_append, bytes, List.length_drop]
                    have sum : before.length + (aln + 2) +
                        (more.length - aln) =
                        before.length + (more.length + 1 + 1) := by
                      omega
                    rw [sum]
                    exact inside)
                  (by
                    rw [List.length_drop]
                    rw [List.length_cons] at enough
                    omega)
              refine ⟨a :: attributes, ?_, ?_⟩
              · rw [whole, field]
                rfl
              · intro b member
                rcases List.mem_cons.mp member with rfl | later
                · exact fits
                · exact allFit b later

/-- `gattr()` reads a list of attributes that fit up to its NUL. -/
theorem probeGattr_inside
    {attributes : List Attribute}
    (fits : ∀ a ∈ attributes, a.Fits)
    (noNul : 0 ∉ attributeField attributes)
    (rest : List UInt8)
    (r : KResponse) :
    let field := attributeField attributes
    let result := probeGattr (field ++ 0 :: rest) r
    result.1.Inside field.length ∧
      result.1.place = field.length + 1 ∧
      result.2 = true := by
  have long := length_attributeField attributes
  have enough : attributes.length <
      (attributeField attributes ++ 0 :: rest).length + 1 := by
    rw [List.length_append]
    omega
  have nothing : GattrRun.Inside
      (([] : List UInt8).length + (attributeField attributes).length)
      { v := { fsize := 0, fsizek := 0, rc := -1, filedate := r.filedate }
        place := 0
        m := ⟨attributeField attributes ++ 0 :: rest, []⟩
        sizebuf := []
        filedate := [] } :=
    ⟨fun _ member => absurd member List.not_mem_nil,
      fun _ member => absurd member List.not_mem_nil,
      fun _ member => absurd member List.not_mem_nil⟩
  have read := @probeGattrLoop_inside _ [] _ _ _ fits noNul rfl rfl nothing
    enough
  rw [List.length_nil, Nat.zero_add] at read
  exact read

/--
`gattr()` is safe exactly on the lists of complete attributes whose size and
type values have at most 31 bytes and whose dates have at most 19.
-/
theorem gattr_safe_iff
    {text : List UInt8}
    (noNul : 0 ∉ text)
    (rest : List UInt8)
    (r : KResponse) :
    GattrSafe text (probeGattr (text ++ 0 :: rest) r) ↔
      ∃ attributes,
        text = attributeField attributes ∧ ∀ a ∈ attributes, a.Fits := by
  have many : text.length < (text ++ 0 :: rest).length + 1 := by
    rw [List.length_append]
    omega
  unfold probeGattr
  constructor
  · intro safe
    exact @attributes_of_inside _ [] _ _ _ noNul rfl rfl
      (by
        rw [List.length_nil, Nat.zero_add]
        exact safe.inside)
      many
  · rintro ⟨attributes, rfl, fits⟩
    obtain ⟨inside, _, ended⟩ := probeGattr_inside fits noNul rest r
    exact ⟨inside, ended⟩

/-- The attributes of a text file with a length. -/
theorem gattr_safe_text :
    GattrSafe (ch '"' :: lit "#AMJ1$1500")
      (probeGattr ((ch '"' :: lit "#AMJ1$1500") ++ [0]) noAttributes) := by
  refine (gattr_safe_iff (by decide +kernel) [] noAttributes).mpr
    ⟨[⟨ch '"', lit "AMJ"⟩, ⟨ch '1', lit "1500"⟩], by decide +kernel, ?_⟩
  intro a member
  simp only [List.mem_cons, List.not_mem_nil, or_false] at member
  rcases member with rfl | rfl
  · exact ⟨by decide, by decide, by decide⟩
  · exact ⟨by decide, by decide, by decide⟩

/-- The NUL after a date of 20 bytes is stored behind `filedate`. -/
theorem gattr_date_overflows :
    let text := lit "#420200910 12:34:56.78"
    (attributeField [⟨ch '#', lit "20200910 12:34:56.78"⟩] = text ∧
      dateMax ∈ (probeGattr (text ++ [0]) noAttributes).1.filedate) ∧
      ¬ GattrSafe text (probeGattr (text ++ [0]) noAttributes) := by
  have stored : dateMax ∈
      (probeGattr (lit "#420200910 12:34:56.78" ++ [0])
        noAttributes).1.filedate := by
    decide +kernel
  refine ⟨⟨by decide +kernel, stored⟩, fun safe => ?_⟩
  exact absurd (safe.inside.filedate _ stored) (Nat.lt_irrefl _)

end Slate106.Kermit
