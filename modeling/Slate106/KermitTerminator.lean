import Slate106.KermitRoom
import Slate106.KermitTurns

namespace Slate106.Kermit

open CBytes

/-!
# The terminator inside a packet

The peer may ask for any terminator, while `encode()` quotes the carriage
return whatever was asked for.  So the D packets of a GET have their terminator
at the end only when it is a carriage return.
-/

variable {ω : Type}

/-! ## Coded characters -/

/-- The parameters do not bring a carriage return into a packet. -/
structure Markless
    (p : Params) : Prop where
  negotiable : Negotiable p
  start : p.sSoh ≠ packetEnd
  eighth : p.ebq ≠ packetEnd

theorem Markless.repeats
    {p : Params}
    (markless : Markless p)
    (flag : p.rptflg ≠ 0) :
    p.rptq ≠ packetEnd := by
  intro same
  have known := markless.negotiable.repeats flag
  rw [same] at known
  revert known
  decide

/-- Carriage returns are quoted, and no prefix is one. -/
theorem packetEnd_notMem_encodeBytes
    {cfg : Config}
    {p : Params}
    (ctlq : cfg.sCtlq = prefixCtrl)
    (markless : Markless p)
    (a : UInt8) :
    packetEnd ∉ encodeBytes cfg p a := by
  have quoted : isQuoted 1 a = true → ctl a ≠ packetEnd := by
    revert a
    apply forall_byte
    decide +kernel
  have plain : isQuoted 1 a = false → a ≠ packetEnd := by
    revert a
    apply forall_byte
    decide +kernel
  have prefixed : packetEnd ≠ prefixCtrl := by
    decide
  have eighth := markless.eighth.symm
  unfold encodeBytes
  dsimp only
  have binary := markless.negotiable.binary
  rw [if_pos binary, ite_self, binary, ctlq,
    List.mem_append, not_or]
  constructor
  · split
    · exact fun member => eighth (List.mem_singleton.mp member)
    · exact List.not_mem_nil
  · by_cases isControl : isQuoted 1 a = true
    · rw [if_pos isControl]
      simpa [prefixed] using (quoted isControl).symm
    · have other := (plain (by simpa using isControl)).symm
      rw [if_neg isControl]
      repeat' split
      all_goals simp [prefixed, other]

/-- The counts `encode()` writes do not reach the carriage return. -/
theorem torepeat_ne_packetEnd
    {count : Int}
    (lower : 0 ≤ count)
    (upper : count ≤ 236) :
    torepeat (uchar count) ≠ packetEnd := by
  obtain ⟨number, rfl⟩ := Int.eq_ofNat_of_zero_le lower
  intro same
  have value := congrArg UInt8.toNat same
  simp only [torepeat, uchar_natCast, UInt8.toNat_add, UInt8.toNat_ofNat',
    packetEnd] at value
  have small : number ≤ 236 := by omega
  change (number % 2 ^ 8 + 19) % 2 ^ 8 = 13 at value
  omega

/-! ## The field under construction -/

/-- Nothing that the encoder holds or uses is a carriage return. -/
structure Unended
    (k : KData) : Prop where
  ctlq : k.cfg.sCtlq = prefixCtrl
  markless : Markless k.par
  counted : 0 ≤ k.enc.sRpt ∧ k.enc.sRpt < 236
  kept : packetEnd ∉ k.enc.sRemain
  few : k.enc.sRemain.length ≤ 6
  place : k.enc.xdata = .xdatabuf
  memory : packetEnd ∉ k.ipktbuf

/-- The data field so far, without a carriage return. -/
structure Building
    (k : KData) : Prop where
  unended : Unended k
  field : ∃ field tail, Holds field tail k ∧ packetEnd ∉ field

/-- The same, with a zero byte behind the field. -/
structure Built
    (k : KData) : Prop extends Building k where
  closed : peek (xdataMem k) k.enc.size = 0

theorem Markless.bct
    {p : Params}
    (markless : Markless p)
    {bct : Nat}
    (known : bct = p.bct ∨ 1 ≤ bct ∧ bct ≤ 3) :
    Markless { p with bct := bct } := by
  obtain ⟨⟨binary, check, small, parity, repeats⟩, start, eighth⟩ := markless
  refine ⟨⟨binary, ?_, small, parity, repeats⟩, start, eighth⟩
  rcases known with rfl | below
  · exact check
  · exact below

theorem Transmits.unended
    {s t : Sys ω}
    (same : Transmits s t)
    (unended : Unended s.k) :
    Unended t.k := by
  obtain ⟨_, _, _, _, _, _, _, known, rfl⟩ := same
  exact ⟨unended.ctlq, unended.markless.bct known, unended.counted,
    unended.kept, unended.few, unended.place, unended.memory⟩

theorem Transmits.built
    {s t : Sys ω}
    (same : Transmits s t)
    (built : Built s.k) :
    Built t.k := by
  obtain ⟨field, tail, holds, absent⟩ := built.field
  refine ⟨⟨same.unended built.unended, field, tail, ?_, absent⟩, ?_⟩
  · obtain ⟨_, _, _, _, _, _, _, -, rfl⟩ := same
    exact ⟨holds.memory, holds.size⟩
  · obtain ⟨_, _, _, _, _, _, _, -, rfl⟩ := same
    exact built.closed

/-- Changes that the data field and its coding do not depend on. -/
theorem Unended.of_same
    {k k' : KData}
    (unended : Unended k)
    (same :
      (k'.cfg, k'.par, k'.enc.sRpt, k'.enc.sRemain, k'.enc.xdata,
          k'.ipktbuf) =
        (k.cfg, k.par, k.enc.sRpt, k.enc.sRemain, k.enc.xdata,
          k.ipktbuf)) :
    Unended k' := by
  simp only [Prod.mk.injEq] at same
  obtain ⟨cfg, par, sRpt, sRemain, xdata, ipktbuf⟩ := same
  refine ⟨?_, ?_, ?_, ?_, ?_, ?_, ?_⟩
  · rw [cfg]
    exact unended.ctlq
  · rw [par]
    exact unended.markless
  · rw [sRpt]
    exact unended.counted
  · rw [sRemain]
    exact unended.kept
  · rw [sRemain]
    exact unended.few
  · rw [xdata]
    exact unended.place
  · rw [ipktbuf]
    exact unended.memory

theorem Unended.pokeXdata
    {k : KData}
    (unended : Unended k)
    (offset : Nat)
    (bytes : List UInt8) :
    Unended (Kermit.pokeXdata offset bytes k) := by
  apply unended.of_same
  unfold Kermit.pokeXdata
  rw [unended.place]
  dsimp only
  rw [unended.place]

/-- A store of bytes none of which is a carriage return. -/
theorem Building.emit
    {k : KData}
    (building : Building k)
    {bytes : List UInt8}
    (clean : packetEnd ∉ bytes) :
    Building (Kermit.emit bytes k) ∧
      (Kermit.emit bytes k).enc.size = k.enc.size + bytes.length ∧
      (Kermit.emit bytes k).enc.osize = k.enc.osize := by
  obtain ⟨unended, field, tail, holds, absent⟩ := building
  refine ⟨⟨?_, _, _, holds.emit bytes, ?_⟩, rfl, ?_⟩
  · exact (unended.pokeXdata k.enc.size bytes).of_same rfl
  · rw [List.mem_append, not_or]
    exact ⟨absent, clean⟩
  · unfold Kermit.emit Kermit.pokeXdata
    rw [unended.place]

/-- What a part of `encode()` adds to the field, and where it starts. -/
structure Extends
    (bytes : Nat)
    (k k' : KData) : Prop where
  built : Built k'
  longer : k.enc.size ≤ k'.enc.size
  size : k'.enc.size ≤ k.enc.size + bytes
  osize : k'.enc.osize = k.enc.osize

theorem transmits_counters
    {s t : Sys ω}
    (same : Transmits s t) :
    t.k.enc = s.k.enc := by
  obtain ⟨_, _, _, _, _, _, _, -, rfl⟩ := same
  rfl

/-- One character behind the run-length encoding. -/
theorem encodeChar_extends
    (io : Io ω)
    (a : UInt8)
    {s : Sys ω}
    (building : Building s.k) :
    Extends 3 s.k (encodeChar io a s).k := by
  have unended := building.unended
  have short := (length_encodeBytes s.k.cfg s.k.par a).2
  obtain ⟨longer, size, osize⟩ := building.emit
    (packetEnd_notMem_encodeBytes unended.ctlq unended.markless a)
  unfold encodeChar
  dsimp only
  generalize emit (encodeBytes s.k.cfg s.k.par a) s.k = k at *
  have written : Extends 3 s.k (pokeXdata k.enc.size [0] k) := by
    obtain ⟨unendedNow, field, tail, holds, absent⟩ := longer
    have memory := xdataMem_pokeXdata k.enc.size [0] k
    have counters : (pokeXdata k.enc.size [0] k).enc.size = k.enc.size ∧
        (pokeXdata k.enc.size [0] k).enc.osize = k.enc.osize := by
      unfold pokeXdata
      rw [unendedNow.place]
      exact ⟨rfl, rfl⟩
    have holdsNow : Holds field (0 :: tail.drop 1)
        (pokeXdata k.enc.size [0] k) := by
      refine ⟨?_, counters.1.trans holds.size⟩
      rw [memory, holds.memory, holds.size, poke_end]
      rfl
    refine ⟨⟨⟨unendedNow.pokeXdata k.enc.size [0], field, _, holdsNow,
      absent⟩, ?_⟩, ?_, ?_, counters.2.trans osize⟩
    · rw [counters.1, memory, peek_poke_byte, if_pos rfl]
    · rw [counters.1, size]
      exact Nat.le_add_right _ _
    · rw [counters.1, size]
      exact Nat.add_le_add_left short _
  split
  · have same := @transmits_epkt _ io (lit "EKSW encode confused")
      { s with k := pokeXdata k.enc.size [0] k }
    have counters := transmits_counters same
    refine ⟨same.built written.built, ?_, ?_, ?_⟩
    · rw [counters]
      exact written.longer
    · rw [counters]
      exact written.size
    · rw [counters]
      exact written.osize
  · exact written

/-- Counting repetitions leaves the field alone. -/
theorem Building.count
    {k : KData}
    (building : Building k)
    {sRpt : Int}
    (countable : 0 ≤ sRpt ∧ sRpt < 236) :
    Building { k with enc.sRpt := sRpt } := by
  obtain ⟨unended, field, tail, holds, absent⟩ := building
  exact ⟨⟨unended.ctlq, unended.markless, countable, unended.kept,
    unended.few, unended.place, unended.memory⟩, field, tail,
    ⟨holds.memory, holds.size⟩, absent⟩

/-- A store of the encoder does not look at the repeat count. -/
theorem emit_counted
    (bytes : List UInt8)
    (k : KData)
    (sRpt sRpt' : Int) :
    { emit bytes { k with enc.sRpt := sRpt } with enc.sRpt := sRpt' } =
      { emit bytes k with enc.sRpt := sRpt' } := by
  unfold emit pokeXdata
  cases k.enc.xdata <;> rfl

/-- A run of characters with its count. -/
theorem encodeRun_extends
    (io : Io ω)
    (a : UInt8)
    {count : Int}
    (lower : 0 ≤ count)
    (upper : count ≤ 236)
    {s : Sys ω}
    (flag : s.k.par.rptflg ≠ 0)
    (building : Building s.k) :
    Extends 5 s.k
      (encodeChar io a
        { s with
          k :=
            { emit [s.k.par.rptq, torepeat (uchar count)] s.k with
              enc.sRpt := 0 } }).k := by
  have clean : packetEnd ∉ [s.k.par.rptq, torepeat (uchar count)] := by
    have repeats := (building.unended.markless.repeats flag).symm
    have counted := (torepeat_ne_packetEnd lower upper).symm
    simp [repeats, counted]
  obtain ⟨longer, size, osize⟩ := building.emit clean
  generalize emit [s.k.par.rptq, torepeat (uchar count)] s.k = k at *
  have counted := longer.count (show (0 : Int) ≤ 0 ∧ (0 : Int) < 236 by decide)
  obtain ⟨built, longer', size', osize'⟩ :=
    @encodeChar_extends _ io a { s with k := { k with enc.sRpt := 0 } } counted
  have together : k.enc.size = s.k.enc.size + 2 := size
  have before : s.k.enc.size ≤ k.enc.size := by omega
  have after : k.enc.size + 3 ≤ s.k.enc.size + 5 := by omega
  exact ⟨built, before.trans longer', size'.trans after, osize'.trans osize⟩

/-- What a call of `encode()` does to the field. -/
structure Encodes
    (k k' : KData) : Prop where
  built : Built k'
  size : k'.enc.size ≤ k'.enc.osize + 6
  later : k.enc.size ≤ k'.enc.osize
  inside : k'.enc.osize ≤ k'.enc.size
  short : k'.enc.size ≤ k.enc.size + 6

theorem Extends.encodes
    {bytes : Nat}
    {k k' : KData}
    (grows : Extends bytes k k')
    (few : bytes ≤ 6)
    (start : k.enc.osize = k.enc.size) :
    Encodes k k' := by
  obtain ⟨built, longer, size, osize⟩ := grows
  exact ⟨built, by omega, by omega, by omega, by omega⟩

/-- Two characters one after the other; `osize` may be moved between them. -/
theorem Extends.and
    {k t t' u : KData}
    (first : Extends 3 k t)
    (start : k.enc.osize = k.enc.size)
    (size : t'.enc.size = t.enc.size)
    (noted : t'.enc.osize = t.enc.size ∨ t'.enc.osize = t.enc.osize)
    (second : Extends 3 t' u) :
    Encodes k u := by
  obtain ⟨-, longer, few, osize⟩ := first
  obtain ⟨built, longer', few', osize'⟩ := second
  exact ⟨built, by omega, by omega, by omega, by omega⟩

/-- The first of two characters that `encode()` writes. -/
theorem encodeTwice_encodes
    (io : Io ω)
    (a : UInt8)
    {s : Sys ω}
    (building : Building s.k)
    (start : s.k.enc.osize = s.k.enc.size) :
    let first := encodeChar io a { s with k.enc.sRpt := 0 }
    let noted :=
      if (first.k.enc.size : Int) ≤ first.k.par.sMaxlen - 4 then
        { first with k.enc.osize := first.k.enc.size }
      else first
    Encodes s.k (encodeChar io a { noted with k.enc.sRpt := 0 }).k := by
  have zero : (0 : Int) ≤ 0 ∧ (0 : Int) < 236 := by decide
  have counted := building.count zero
  have first : Extends 3 s.k
      (encodeChar io a { s with k.enc.sRpt := 0 }).k := by
    obtain ⟨built, longer, size, osize⟩ :=
      @encodeChar_extends _ io a { s with k.enc.sRpt := 0 } counted
    exact ⟨built, longer, size, osize⟩
  dsimp only
  generalize encodeChar io a { s with k.enc.sRpt := 0 } = t at *
  have ready := first.built.toBuilding.count zero
  split
  · have noted : Building
        { t.k with
          enc := { t.k.enc with osize := t.k.enc.size, sRpt := 0 } } := by
      obtain ⟨unended, field, tail, holds, absent⟩ := ready
      exact ⟨unended.of_same rfl, field, tail, ⟨holds.memory, holds.size⟩,
        absent⟩
    have second := @encodeChar_extends _ io a
      { t with
        k :=
          { t.k with
            enc := { t.k.enc with osize := t.k.enc.size, sRpt := 0 } } } noted
    refine first.and start ?_ ?_ second
    · rfl
    · exact .inl rfl
  · have second :=
      @encodeChar_extends _ io a { t with k.enc.sRpt := 0 } ready
    refine first.and start ?_ ?_ second
    · rfl
    · exact .inr rfl

/-- A character is counted, or it is written once, twice or with its count. -/
theorem encode_encodes
    (io : Io ω)
    (a : UInt8)
    (next : Option UInt8)
    {s : Sys ω}
    (built : Built s.k)
    (start : s.k.enc.osize = s.k.enc.size) :
    Encodes s.k (encode io a next s).k := by
  have building := built.toBuilding
  have counted := building.unended.counted
  unfold encode
  split
  · rename_i flag
    split
    · dsimp only
      by_cases fewer : s.k.enc.sRpt + 1 < 236
      · rw [if_pos fewer]
        have countable : 0 ≤ s.k.enc.sRpt + 1 := by omega
        refine ⟨⟨building.count ⟨countable, fewer⟩, built.closed⟩, ?_, ?_, ?_,
          ?_⟩
        · exact Nat.le_trans (Nat.le_of_eq start.symm) (Nat.le_add_right _ 6)
        · exact Nat.le_of_eq start.symm
        · exact Nat.le_of_eq start
        · exact Nat.le_add_right _ 6
      · have full : s.k.enc.sRpt + 1 = 236 := by omega
        rw [if_neg fewer, if_pos full, full, emit_counted]
        exact (encodeRun_extends io a (show (0 : Int) ≤ 236 by decide)
          (Int.le_refl 236) flag building).encodes (by decide) start
    · split
      · exact encodeTwice_encodes io a building start
      · split
        · rename_i several
          have upper : s.k.enc.sRpt + 1 ≤ 236 := by omega
          have lower : 0 ≤ s.k.enc.sRpt + 1 := by omega
          exact (encodeRun_extends io a lower upper flag building).encodes
            (by decide) start
        · exact (encodeChar_extends io a building).encodes (by decide) start
  · exact (encodeChar_extends io a building).encodes (by decide) start

/-! ## A packed field -/

theorem Built.of_same
    {k k' : KData}
    (built : Built k)
    (same :
      (k'.cfg, k'.par, k'.enc.sRpt, k'.enc.sRemain, k'.enc.xdata,
          k'.ipktbuf) =
        (k.cfg, k.par, k.enc.sRpt, k.enc.sRemain, k.enc.xdata,
          k.ipktbuf))
    (size : k'.enc.size = k.enc.size)
    (text : k'.enc.xdatabuf = k.enc.xdatabuf) :
    Built k' := by
  have unended := built.unended.of_same same
  have memory : xdataMem k' = xdataMem k := by
    unfold xdataMem
    rw [unended.place, built.unended.place]
    exact text
  obtain ⟨⟨-, field, tail, holds, absent⟩, closed⟩ := built
  refine ⟨⟨unended, field, tail, ⟨?_, ?_⟩, absent⟩, ?_⟩
  · rw [memory]
    exact holds.memory
  · rw [size]
    exact holds.size
  · rw [memory, size]
    exact closed

theorem built_nextChar
    (io : Io ω)
    {s : Sys ω}
    (built : Built s.k) :
    Built (nextChar io s).2.k := by
  obtain ⟨_, _, _, _, shape⟩ := nextChar_shape io s
  rw [shape]
  exact built.of_same rfl rfl rfl

/-- Unlike the rest of the memory, the field has no carriage return. -/
theorem mem_field_of_cstr
    {field tail : List UInt8}
    {start : Nat}
    (inside : start ≤ field.length)
    (closed : peek (field ++ tail) field.length = 0)
    {c : UInt8}
    (member : c ∈ cstr ((field ++ tail).drop start)) :
    c ∈ field := by
  rw [List.drop_append_of_le_length inside] at member
  have ended : peek (field.drop start ++ tail)
      (field.length - start) = 0 := by
    rw [← List.drop_append_of_le_length inside, peek_drop,
      Nat.add_sub_cancel' inside]
    exact closed
  have short := length_cstr_le ended
  have front := List.takeWhile_prefix (l := field.drop start ++ tail)
    (fun b : UInt8 => b ≠ 0)
  have here : cstr (field.drop start ++ tail) <+: field.drop start := by
    refine List.prefix_of_prefix_length_le front
      (List.prefix_append _ _) ?_
    rw [List.length_drop]
    exact short
  exact List.mem_of_mem_drop (here.subset member)

/-- What `getpkt()` returns: a field without a carriage return. -/
structure Yielded
    (result : Int × Sys ω) : Prop where
  unended : Unended result.2.k
  short : result.1 ≤ pPktlen + 6
  field : packetEnd ∉ (xdataMem result.2.k).takeD result.1.toNat 0

theorem packetEnd_notMem_takeD
    {field tail : List UInt8}
    (absent : packetEnd ∉ field)
    {count : Nat}
    (inside : count ≤ field.length) :
    packetEnd ∉ (field ++ tail).takeD count 0 := by
  rw [List.takeD_eq_take _ (by rw [List.length_append]; omega),
    List.take_append_of_le_length inside]
  exact fun member => absent (List.mem_of_mem_take member)

theorem Built.yielded
    {s : Sys ω}
    (built : Built s.k)
    (short : s.k.enc.size ≤ pPktlen + 6) :
    Yielded ((s.k.enc.size : Int), s) := by
  obtain ⟨⟨unended, field, tail, holds, absent⟩, -⟩ := built
  refine ⟨unended, ?_, ?_⟩
  · show (s.k.enc.size : Int) ≤ _
    omega
  · rw [holds.memory]
    exact packetEnd_notMem_takeD absent (Nat.le_of_eq holds.size)

/-- The cut back to `osize` keeps what is left over for the next field. -/
theorem Encodes.yielded
    {k : KData}
    {s : Sys ω}
    (encodes : Encodes k s.k)
    (short : k.enc.size ≤ pPktlen) :
    Yielded ((s.k.enc.osize : Int), { s with k := cutBack s.k }) := by
  obtain ⟨⟨⟨unended, field, tail, holds, absent⟩, closed⟩, size, -, inside,
    long⟩ := encodes
  have memory := holds.memory
  have length := holds.size
  rw [memory, length] at closed
  have start : s.k.enc.osize ≤ field.length := length ▸ inside
  have ended : peek ((field ++ tail).drop s.k.enc.osize)
      (field.length - s.k.enc.osize) = 0 := by
    rw [peek_drop, Nat.add_sub_cancel' start]
    exact closed
  have few := length_cstr_le ended
  have noEnd : packetEnd ∉ cstrAt (xdataMem s.k) s.k.enc.osize := by
    rw [memory]
    exact fun member => absent (mem_field_of_cstr start closed member)
  have left : Unended
      { s.k with
        enc.sRemain := cstrAt (xdataMem s.k) s.k.enc.osize
        enc.size := s.k.enc.osize } := by
    refine ⟨unended.ctlq, unended.markless, unended.counted, noEnd, ?_,
      unended.place, unended.memory⟩
    show (cstrAt (xdataMem s.k) s.k.enc.osize).length ≤ 6
    unfold cstrAt
    rw [memory]
    omega
  refine ⟨left.pokeXdata _ _, ?_, ?_⟩
  · show (s.k.enc.osize : Int) ≤ _
    omega
  · show packetEnd ∉ (xdataMem (cutBack s.k)).takeD s.k.enc.osize 0
    unfold cutBack
    rw [xdataMem_pokeXdata]
    show packetEnd ∉ (poke (xdataMem s.k) s.k.enc.osize [0]).takeD _ 0
    rw [poke, List.append_assoc, memory]
    have whole := @packetEnd_notMem_takeD _ tail absent _ start
    rw [List.takeD_eq_take _ (by simp), List.take_left' (by simp)]
    exact whole

theorem encodes_encodeNext
    (io : Io ω)
    {s : Sys ω}
    (built : Built s.k)
    (c : UInt8)
    (next : Option UInt8) :
    Encodes s.k (encodeNext io c next s).k := by
  have started : Built { s.k with enc.osize := s.k.enc.size } :=
    built.of_same rfl rfl rfl
  obtain ⟨built', size, later, inside, long⟩ := @encode_encodes _ io c next
    { s with k.enc.osize := s.k.enc.size } started rfl
  exact ⟨built'.of_same rfl rfl rfl, size, later, inside, long⟩

theorem built_noteChar
    {s : Sys ω}
    (built : Built s.k)
    (next : Option UInt8) :
    Built (noteChar next s).k ∧
      (noteChar next s).k.enc.size = s.k.enc.size := by
  unfold Kermit.noteChar
  split
  · exact ⟨built.of_same rfl rfl rfl, rfl⟩
  · exact ⟨built, rfl⟩

/-- The loop of `getpkt()`, by the iterations that are left. -/
theorem yielded_getpktLoop
    (io : Io ω)
    (count : Nat)
    (c : UInt8)
    {s : Sys ω}
    (built : Built s.k)
    (short : s.k.enc.size ≤ pPktlen) :
    Yielded (getpktLoop io count c s) := by
  induction count generalizing c s with
  | zero =>
      exact built.yielded (Nat.le_add_right_of_le short)
  | succ count inductionHypothesis =>
      have read := built_nextChar io built
      have sameSize : (nextChar io s).2.k.enc.size = s.k.enc.size := by
        obtain ⟨_, _, _, _, shape⟩ := nextChar_shape io s
        rw [shape]
      unfold Kermit.getpktLoop
      generalize nextChar io s = input at *
      obtain ⟨noted, size⟩ := built_noteChar read input.1
      have encodes := encodes_encodeNext io noted c input.1
      dsimp only
      generalize noteChar input.1 input.2 = t at *
      generalize encodeNext io c input.1 t = u at *
      have before : t.k.enc.size ≤ pPktlen := by omega
      have fits : u.k.enc.size ≤ pPktlen + 6 :=
        encodes.short.trans (Nat.add_le_add_right before 6)
      have small := encodes.built.unended.markless.negotiable.small
      split
      · exact encodes.built.yielded fits
      · split
        · exact encodes.yielded before
        · split
          · refine inductionHypothesis _ encodes.built ?_
            unfold getpktMaxlen at *
            omega
          · exact encodes.built.yielded fits

theorem built_copyRemain
    {k : KData}
    (unended : Unended k) :
    Built (copyRemain k) ∧ (copyRemain k).enc.size ≤ 6 := by
  have memory := xdataMem_pokeXdata 0 (k.enc.sRemain ++ [0]) k
  rw [poke_zero, List.append_assoc] at memory
  have poked := unended.pokeXdata 0 (k.enc.sRemain ++ [0])
  have holds : Holds k.enc.sRemain
      ([0] ++ (xdataMem k).drop (k.enc.sRemain ++ [0]).length)
      (copyRemain k) :=
    ⟨memory, rfl⟩
  refine ⟨⟨⟨?_, _, _, holds, unended.kept⟩, ?_⟩, unended.few⟩
  · exact ⟨poked.ctlq, poked.markless, poked.counted, List.not_mem_nil,
      Nat.zero_le 6, poked.place, poked.memory⟩
  · rw [holds.memory, holds.size, peek_append_right (Nat.le_refl _),
      Nat.sub_self]
    rfl

theorem yielded_getpktRest
    (io : Io ω)
    {s : Sys ω}
    (unended : Unended s.k)
    (c : UInt8) :
    Yielded (getpktRest io c s) := by
  obtain ⟨built, short⟩ := built_copyRemain unended
  unfold Kermit.getpktRest
  dsimp only
  split
  · exact @Built.yielded _ { s with k := copyRemain s.k } built
      (short.trans (Nat.le_add_left 6 pPktlen))
  · exact @yielded_getpktLoop _ io getpktFuel c { s with k := copyRemain s.k }
      built (short.trans (by decide))

theorem yielded_nothing
    {s : Sys ω}
    (unended : Unended s.k) :
    Yielded (0, s) :=
  ⟨unended, show (0 : Int) ≤ pPktlen + 6 by decide, List.not_mem_nil⟩

/-- The fields of a file or of a string have no carriage return. -/
theorem yielded_getpkt
    (io : Io ω)
    {s : Sys ω}
    (unended : Unended s.k) :
    Yielded (getpkt io s) := by
  have forced := (transmits_forceBcta3 s).unended unended
  unfold Kermit.getpkt
  dsimp only
  generalize forceBcta3 s.k = k at *
  split
  · have fresh : Unended { k with enc.sFirst := 0, enc.sRemain := [] } :=
      ⟨forced.ctlq, forced.markless, forced.counted, List.not_mem_nil,
        Nat.zero_le 6, forced.place, forced.memory⟩
    have read : Unended (nextChar io
        { s with k := { k with enc.sFirst := 0, enc.sRemain := [] } }).2.k := by
      obtain ⟨_, _, _, _, shape⟩ := nextChar_shape io
        { s with k := { k with enc.sFirst := 0, enc.sRemain := [] } }
      rw [shape]
      exact fresh.of_same rfl
    unfold getpktFirst
    dsimp only
    generalize nextChar io
      { s with k := { k with enc.sFirst := 0, enc.sRemain := [] } } = input
      at *
    cases input.1 with
    | none =>
        exact yielded_nothing (read.of_same rfl)
    | some c =>
        dsimp only
        have noted : Unended { input.2.k with enc.cgetpkt := some c } :=
          read.of_same rfl
        split
        · exact yielded_getpktRest io noted c
        · exact yielded_getpktRest io noted c
  · split
    · exact yielded_nothing (forced.of_same rfl)
    · exact @yielded_getpktRest _ io { s with k := k } forced _

/-! ## Packets that end once -/

/-- A D packet with a byte nowhere but at its end, if there. -/
def OnlyAtEnd
    (c : UInt8)
    (frame : List UInt8) : Prop :=
  frameType frame = ch 'D' → c ∉ frame.dropLast

theorem onlyAtEnd_of_type
    (c : UInt8)
    {typ : UInt8}
    (notData : typ ≠ ch 'D')
    (frame : List UInt8)
    (typed : frameType frame = typ) :
    OnlyAtEnd c frame :=
  fun isData => absurd (typed.symm.trans isData) notData

theorem lenient_onlyAtEnd
    (c : UInt8) :
    Lenient (OnlyAtEnd c) := by
  intro frame loose isData
  rw [isData] at loose
  exact absurd loose (by decide)

/-- The beginning of a packet holds no more than the packet. -/
theorem mem_dropLast_of_take
    {frame : List UInt8}
    {count : Nat}
    {c : UInt8}
    (member : c ∈ (frame.take count).dropLast) :
    c ∈ frame.dropLast := by
  rw [List.dropLast_eq_take, List.take_take, List.length_take] at member
  rw [List.dropLast_eq_take]
  refine List.take_subset_take_left frame ?_ member
  omega

/-- A data packet around a field without a carriage return. -/
theorem onlyAtEnd_pktFrame
    {par : Params}
    (markless : Markless par)
    {seq : Int}
    (lower : 0 ≤ seq)
    (upper : seq ≤ 63)
    {data : List UInt8}
    (short : data.length ≤ pPktlen + 6)
    (clean : packetEnd ∉ data)
    (count : Nat) :
    OnlyAtEnd packetEnd ((pktFrame par (ch 'D') seq data).take count) := by
  intro _ member
  have known := markless.negotiable.check.2
  have inField : data.length + par.bct < 95 * 95 := by
    unfold pPktlen at short
    omega
  have control : (packetEnd : UInt8).toNat < 32 := by
    decide
  have whole : (pktFrame par (ch 'D') seq data).dropLast =
      par.sSoh :: (pktHeader par.bct (ch 'D') seq data.length ++ data ++
        blockCheck par.bct
          (cstr (pktHeader par.bct (ch 'D') seq data.length ++ data))) := by
    unfold pktFrame pktBody
    dsimp only
    rw [← List.cons_append, List.dropLast_concat]
  have inside := mem_dropLast_of_take member
  rw [whole, List.mem_cons, List.mem_append, List.mem_append] at inside
  rcases inside with start | (header | field) | check
  · exact markless.start start.symm
  · rcases printable_pktHeader_or lower upper inField _ header with
      isType | shown
    · exact absurd isType (by decide)
    · exact shown.ne_of_lt control rfl
  · exact clean field
  · exact (printable_blockCheck _ _ _ check).ne_of_lt control rfl

/-! ## What the functions of a sender do -/

/-- Packets that end once, from a session that brings no carriage return. -/
def Ends
    (s s' : Sys ω) : Prop :=
  Unended s.k → Unended s'.k ∧ SendsOnly (OnlyAtEnd packetEnd) s s'

section Functions

variable {io : Io ω}
variable {s t u : Sys ω}

theorem Ends.refl
    (s : Sys ω) :
    Ends s s :=
  fun unended => ⟨unended, .refl s⟩

theorem Ends.and
    (first : Ends s t)
    (second : Ends t u) :
    Ends s u := by
  intro unended
  obtain ⟨unendedNow, sends⟩ := first unended
  obtain ⟨unendedThen, sends'⟩ := second unendedNow
  exact ⟨unendedThen, sends.and sends'⟩

theorem Transmits.ends
    (same : Transmits s t)
    (sends : SendsOnly (OnlyAtEnd packetEnd) s t) :
    Ends s t :=
  fun unended => ⟨same.unended unended, sends⟩

/-- What neither the coding nor the packets depend on. -/
theorem ends_same
    (same :
      (t.k.cfg, t.k.par, t.k.enc.sRpt, t.k.enc.sRemain, t.k.enc.xdata,
          t.k.ipktbuf) =
        (s.k.cfg, s.k.par, s.k.enc.sRpt, s.k.enc.sRemain, s.k.enc.xdata,
          s.k.ipktbuf))
    (sends : SendsOnly (OnlyAtEnd packetEnd) s t) :
    Ends s t :=
  fun unended => ⟨unended.of_same same, sends⟩

theorem Chores.endsOnly
    (steps : Chores io s t) :
    SendsOnly (OnlyAtEnd packetEnd) s t :=
  steps.sendsOnly (lenient_onlyAtEnd packetEnd)

theorem ends_epkt
    (msg : List UInt8)
    (s : Sys ω) :
    Ends s (epkt io msg s) :=
  (transmits_epkt msg s).ends (chores_epkt msg s).endsOnly

theorem ends_spkt
    {typ : UInt8}
    (kind : isUnslotted typ = false)
    (notData : typ ≠ ch 'D')
    (seq len : Int)
    (text : Option (List UInt8))
    (s : Sys ω) :
    Ends s (spkt io typ seq len text s).2 :=
  (transmits_spkt ..).ends
    (sendsOnly_spkt_typed (lenient_onlyAtEnd _) kind
      (onlyAtEnd_of_type _ notData) seq len text s)

theorem ends_takeSslot
    (s : Sys ω) :
    Ends s (onK (fun k => (takeSslot k).2) s) :=
  (transmits_takeSslot s).ends (sendsOnly_takeSslot s)

theorem ends_acknowledge
    (slot : Int)
    (s : Sys ω) :
    Ends s (onK (acknowledge slot) s) :=
  (transmits_acknowledge slot s).ends (sendsOnly_acknowledge slot s)

theorem ends_resend
    (wf : Wf s.k)
    (seq : Int) :
    Ends s (resend io seq s).2 :=
  (transmits_resend seq s).ends (sendsOnly_resend wf seq)

theorem ends_callClosef
    (c : UInt8)
    (mode : Int)
    (s : Sys ω) :
    Ends s (callClosef io c mode s).2 :=
  ends_same rfl
    ((Chore.closef c mode s).sendsOnly (lenient_onlyAtEnd packetEnd))

/-- A field of the file goes out in a D packet. -/
theorem ends_sdata
    (s : Sys ω) :
    Ends s (sdata io s).2 := by
  intro unended
  have packed := yielded_getpkt io unended
  have sent : SendsOnly (OnlyAtEnd packetEnd) s (getpkt io s).2 :=
    (chores_getpkt s).endsOnly
  unfold sdata
  dsimp only
  split
  · exact ⟨unended, .refl s⟩
  · split
    · exact ⟨packed.unended, sent⟩
    · rename_i enough
      obtain ⟨unendedNow, short, field⟩ := packed
      generalize getpkt io s = result at *
      refine ⟨(transmits_spkt ..).unended unendedNow, sent.and ?_⟩
      apply sendsOnly_spkt (lenient_onlyAtEnd _) (by decide)
      intro lower upper count _
      have data : spktData result.1 (some (xdataMem result.2.k)) =
          (xdataMem result.2.k).takeD result.1.toNat 0 := by
        unfold spktData
        exact if_neg (by omega)
      have forced := ((transmits_forceBcta3 result.2).unended
        unendedNow).markless
      rw [data]
      refine onlyAtEnd_pktFrame forced lower upper ?_ field count
      rw [List.takeD_length]
      omega

/-! ## The answer to a GET -/

/-- The states of a server that answers a GET. -/
def getStates : List State :=
  [.sInit, .sFile, .sAttr, .sData, .sEof, .sEot]

def OnGet
    (s : Sys ω) : Prop :=
  (phase s).1 ∈ getStates ∧ (phase s).2 = .send

/-- Packets that end once, from a server that goes on with a GET. -/
structure Continues
    (s s' : Sys ω) : Prop where
  ends : Ends s s'
  onGet : OnGet s → OnGet s'

theorem Continues.refl
    (s : Sys ω) :
    Continues s s :=
  ⟨.refl s, id⟩

theorem Continues.and
    (first : Continues s t)
    (second : Continues t u) :
    Continues s u :=
  ⟨first.ends.and second.ends, second.onGet ∘ first.onGet⟩

theorem Ends.continues
    (ends : Ends s t)
    (same : phase t = phase s) :
    Continues s t := by
  refine ⟨ends, ?_⟩
  unfold OnGet
  rw [same]
  exact id

theorem continues_setState
    {state : State}
    (listed : state ∈ getStates)
    (s : Sys ω) :
    Continues s (setState state s) :=
  ⟨ends_same rfl (sendsOnly_quiet rfl (.inl ⟨rfl, rfl⟩)),
    fun onGet => ⟨listed, onGet.2⟩⟩

/-- Fields that the coding, the packets and the states do not depend on. -/
theorem continues_same
    (same :
      (t.k.cfg, t.k.par, t.k.enc.sRpt, t.k.enc.sRemain, t.k.enc.xdata,
          t.k.ipktbuf) =
        (s.k.cfg, s.k.par, s.k.enc.sRpt, s.k.enc.sRemain, s.k.enc.xdata,
          s.k.ipktbuf))
    (packets : t.k.win.opktinfo = s.k.win.opktinfo ∧ t.log = s.log)
    (same' : phase t = phase s) :
    Continues s t := by
  refine (ends_same same (sendsOnly_quiet packets.2 ?_)).continues same'
  rw [SlotLeft, packets.1]
  exact .inl ⟨rfl, rfl⟩

theorem continues_awaitSent
    (s : Sys ω) :
    Continues s (awaitSent s).2 :=
  continues_same rfl ⟨rfl, rfl⟩ rfl

theorem continues_epkt
    (msg : List UInt8)
    (s : Sys ω) :
    Continues s (epkt io msg s) :=
  (ends_epkt msg s).continues (phase_epkt msg s)

theorem continues_spkt
    {typ : UInt8}
    (kind : isUnslotted typ = false)
    (notData : typ ≠ ch 'D')
    (seq len : Int)
    (text : Option (List UInt8))
    (s : Sys ω) :
    Continues s (spkt io typ seq len text s).2 :=
  (ends_spkt kind notData seq len text s).continues (phase_spkt _ _ _ _ s)

theorem continues_takeSslot
    (s : Sys ω) :
    Continues s (onK (fun k => (takeSslot k).2) s) :=
  (ends_takeSslot s).continues (phase_takeSslot s)

theorem continues_sdata
    (s : Sys ω) :
    Continues s (sdata io s).2 :=
  (ends_sdata s).continues (phase_sdata s)

theorem continues_endInput
    (s : Sys ω) :
    Continues s (endInput io s) :=
  ((ends_callClosef 0 1 s).continues rfl).and
    (continues_setState (by decide) _)

/-- The next sequence number; `xdata` points to the data buffer again. -/
theorem continues_nxtpkt
    (s : Sys ω) :
    Continues s (onK nxtpkt s) := by
  refine Ends.continues (fun unended => ⟨?_, ?_⟩) rfl
  · exact ⟨unended.ctlq, unended.markless, unended.counted, unended.kept,
      unended.few, rfl, unended.memory⟩
  · exact sendsOnly_quiet rfl (.inl ⟨rfl, rfl⟩)

theorem continues_nextSlot
    (s : Sys ω) :
    Continues s (onK (fun k => (takeSslot (nxtpkt k)).2) s) :=
  (continues_nxtpkt s).and (continues_takeSslot (onK nxtpkt s))

/-- A string that is encoded has no carriage return behind it either. -/
theorem continues_encstr
    (text : StrRef)
    (s : Sys ω) :
    Continues s (encstr io text s).2 := by
  refine Ends.continues (fun unended => ⟨?_, ?_⟩) (phase_encstr text s)
  · have asked : Unended
        { s.k with enc.sFirst := 1, enc.istring := some (text, 0) } :=
      unended.of_same rfl
    exact (@yielded_getpkt _ io
      { s with k.enc.sFirst := 1, k.enc.istring := some (text, 0) }
      asked).unended.of_same rfl
  · exact (chores_encstr text s).endsOnly

theorem continues_callOpenf
    (name : List UInt8)
    (mode filesize : Int)
    (s : Sys ω) :
    Continues s (callOpenf io name mode filesize s).2 := by
  refine Ends.continues (ends_same rfl ?_) rfl
  exact (Chore.openf name mode filesize s).sendsOnly
    (lenient_onlyAtEnd packetEnd)

/-- The next file is announced. -/
theorem continues_sendFile
    (name : StrRef)
    (rest : List StrRef)
    (s : Sys ω) :
    Continues s (sendFile io name rest s).2 := by
  have taken : Continues s (takeName name rest s) :=
    continues_same rfl ⟨rfl, rfl⟩ rfl
  unfold sendFile
  dsimp only
  generalize takeName name rest s = t at taken
  have opened := taken.and
    (@continues_callOpenf _ io (deref t name) 1 t.r.filesize t)
  split
  · exact opened
  · have encoded := (opened.and (@continues_encstr _ io name _)).and
      (continues_takeSslot _)
    generalize onK (fun k => (takeSslot k).2) _ = u at *
    have sent := encoded.and
      (@continues_spkt _ io (ch 'F') (by decide) (by decide) u.k.sSeq (-1)
        (some (xdataMem u.k)) u)
    split
    · exact sent
    · refine (sent.and ?_).and (continues_awaitSent _)
      refine Continues.and ?_ (continues_setState (by decide) _)
      exact continues_same rfl ⟨rfl, rfl⟩ rfl

theorem continues_sendBreak
    (s : Sys ω) :
    Continues s (sendBreak io s).2 := by
  have named : Continues s { s with k.filename := none } :=
    continues_same rfl ⟨rfl, rfl⟩ rfl
  unfold sendBreak
  generalize ({ s with k.filename := none } : Sys ω) = t at *
  dsimp only
  split
  · have left := (transmits_getSslot t).ends
      (sendsOnly_quiet rfl (slotLeft_getSslot t.k))
    exact named.and (left.continues (phase_getSslot t))
  · have taken := named.and (continues_takeSslot t)
    generalize onK (fun k => (takeSslot k).2) t = u at *
    have sent := taken.and
      (@continues_spkt _ io (ch 'B') (by decide) (by decide) u.k.sSeq 0 none u)
    split
    · exact sent
    · exact (sent.and (continues_setState (by decide) _)).and
        (continues_awaitSent _)

theorem continues_nextFile
    (s : Sys ω) :
    Continues s (nextFile io s).2 := by
  unfold nextFile
  dsimp only
  split
  · exact (continues_nxtpkt s).and (continues_sendFile _ _ _)
  · exact (continues_nxtpkt s).and (continues_sendBreak _)

theorem continues_firstData
    (s : Sys ω) :
    Continues s (firstData io s).2 := by
  have built := (continues_takeSslot s).and (@continues_sdata _ io _)
  unfold firstData
  dsimp only
  generalize sdata io (onK (fun k => (takeSslot k).2) s) = data at *
  split
  · exact built
  · split
    · have taken := built.and (continues_takeSslot data.2)
      generalize onK (fun k => (takeSslot k).2) data.2 = u at *
      have sent := taken.and
        (@continues_spkt _ io (ch 'Z') (by decide) (by decide) u.k.sSeq 0 none
          u)
      split
      · exact sent
      · exact (sent.and (continues_endInput _)).and (continues_awaitSent _)
    · exact (built.and (continues_setState (by decide) _)).and
        (continues_awaitSent _)

theorem continues_afterData
    (s : Sys ω) :
    Continues s (afterData io s).2 := by
  have begun : Continues s
      (if s.k.state = .sAttr then setState .sData s else s) := by
    split
    · exact continues_setState (by decide) s
    · exact .refl s
  unfold afterData
  generalize (if s.k.state = .sAttr then setState .sData s else s) = t at *
  have taken := begun.and ((transmits_getSslot t).ends
    (sendsOnly_quiet rfl (slotLeft_getSslot t.k)) |>.continues
      (phase_getSslot t))
  dsimp only
  split
  · exact taken
  · have mapped : Continues s
        (onK (fun k => mapSseq (getSslot t.k).1 (nxtpkt k))
          (onK (fun k => (getSslot k).2) t)) := by
      refine (taken.and (continues_nxtpkt _)).and ?_
      exact continues_same rfl ⟨rfl, rfl⟩ rfl
    have built := mapped.and (@continues_sdata _ io _)
    generalize sdata io _ = data at *
    split
    · exact built
    · split
      · have ended := built.and (@continues_endInput _ io data.2)
        generalize endInput io data.2 = u at *
        have sent := ended.and
          (@continues_spkt _ io (ch 'Z') (by decide) (by decide) u.k.sSeq 0
            none u)
        split
        · exact sent
        · exact sent.and (continues_awaitSent _)
      · exact built.and (continues_awaitSent _)

/-- A packet is asked for although nothing is outstanding. -/
theorem continues_sendRequested
    (p : Rcvd)
    (s : Sys ω) :
    Continues s (sendRequested io p s).2 := by
  have next := continues_nxtpkt s
  unfold sendRequested
  generalize onK nxtpkt s = t at *
  dsimp only
  split
  · exact next.and (continues_epkt _ t)
  · have built := (next.and (continues_takeSslot t)).and
      (@continues_sdata _ io _)
    generalize sdata io (onK (fun k => (takeSslot k).2) t) = data at *
    split
    · exact built
    · split
      · have ended := built.and (@continues_endInput _ io data.2)
        generalize endInput io data.2 = u at *
        have stepped : Continues u
            { u with k.sSeq := (u.k.sSeq - 1) % 64 } :=
          continues_same rfl ⟨rfl, rfl⟩ rfl
        have freed := (transmits_freeSslot (takeSslot t.k).1
          { u with k.sSeq := (u.k.sSeq - 1) % 64 }).ends
            (sendsOnly_quiet rfl (slotLeft_freeSslot _ _))
        refine (ended.and (stepped.and (freed.continues ?_))).and
          (continues_awaitSent _)
        exact Works.phase (.of (@Work.freeSslot _ io _ _))
      · exact built.and (continues_awaitSent _)

/-- The peer cancels the file. -/
theorem continues_cancelSend
    (p : Rcvd)
    (s : Sys ω) :
    Continues s (cancelSend io p s).2 := by
  have closed : Continues s (callClosef io 0 1 s).2 :=
    (ends_callClosef 0 1 s).continues rfl
  have taken := closed.and (continues_nextSlot (callClosef io 0 1 s).2)
  unfold cancelSend
  dsimp only
  generalize onK (fun k => (takeSslot (nxtpkt k)).2)
    (callClosef io 0 1 s).2 = u at *
  have sent := taken.and
    (@continues_spkt _ io (ch 'Z') (by decide) (by decide) u.k.sSeq 0 none u)
  generalize spkt io (ch 'Z') u.k.sSeq 0 none u = result at *
  split
  · exact sent
  · split
    · have left : Continues s { result.2 with k.filelist := [] } :=
        sent.and (continues_same rfl ⟨rfl, rfl⟩ rfl)
      exact (left.and (continues_setState (by decide) _)).and
        (continues_awaitSent _)
    · exact (sent.and (continues_setState (by decide) _)).and
        (continues_awaitSent _)

theorem Markless.requestEbq
    {p : Params}
    (markless : Markless p) :
    Markless (Kermit.requestEbq p) := by
  unfold Kermit.requestEbq
  split
  · exact ⟨markless.negotiable.ebq _, markless.start,
      show ch '&' ≠ packetEnd by decide⟩
  · exact markless

/-- Our own parameters go out. -/
theorem ends_rpar
    (s : Sys ω) :
    Ends s (rpar io (ch 'S') s).2 := by
  intro unended
  refine ⟨?_, sendsOnly_rpar (lenient_onlyAtEnd _)
    (onlyAtEnd_of_type _ (show ch 'S' ≠ ch 'D' by decide)) s⟩
  have markless := unended.markless.requestEbq
  have asked : Unended { s.k with par := requestEbq s.k.par } :=
    ⟨unended.ctlq, markless, unended.counted, unended.kept, unended.few,
      unended.place, unended.memory⟩
  have check := markless.negotiable.check
  unfold rpar
  dsimp only
  have start : Transmits { s with k.par := requestEbq s.k.par }
      (setBct (rparBct s.k.cfg) { s with k.par := requestEbq s.k.par }) := by
    refine ⟨_, _, _, _, _, _, _, .inr ?_, rfl⟩
    unfold rparBct
    split <;> decide
  have sent := start.trans (@transmits_rparSend _ io (ch 'S')
    (initString s.k.cfg (requestEbq s.k.par)) _)
  generalize rparSend io (ch 'S') _ _ = result at *
  have restored : ∀ bct, 1 ≤ bct ∧ bct ≤ 3 →
      Transmits result.2 (setBct bct result.2) :=
    fun _ known => ⟨_, _, _, _, _, _, _, .inr known, rfl⟩
  refine (sent.trans (restored _ ?_)).unended asked
  split
  · decide
  · exact check

/-- A request is answered with S, or the transaction fails. -/
theorem continues_answerRequest
    (s : Sys ω) :
    Continues s (answerRequest io .send s).2 := by
  have listed : Continues s { s with k.filelist := [.xdatabuf] } :=
    continues_same rfl ⟨rfl, rfl⟩ rfl
  have asked := listed.and ((@ends_rpar _ io _).continues (phase_rpar _ _))
  unfold answerRequest
  dsimp only
  generalize rpar io (ch 'S') _ = result at *
  split
  · exact asked.and (continues_epkt _ _)
  · have initial := asked.and (@continues_setState _ .sInit (by decide) _)
    refine ⟨initial.ends.and ?_, fun onGet => ⟨(initial.onGet onGet).1, rfl⟩⟩
    exact ends_same rfl (sendsOnly_quiet rfl (.inl ⟨rfl, rfl⟩))

/-- A request restarts the transaction, whatever it was. -/
theorem continues_rPacket
    (p : Rcvd)
    (s : Sys ω) :
    Continues s (rPacket io p s).2 ∧
      ((rPacket io p s).1 ≠ xError → OnGet (rPacket io p s).2) := by
  have noted : Continues s
      (noteRequest .get (cstr (pdfMem p (decodeName (pdfMem p s) s).2))
        (decodeName (pdfMem p s) s).2) :=
    continues_same rfl ⟨rfl, rfl⟩ rfl
  unfold rPacket
  dsimp only
  generalize noteRequest .get _ (decodeName (pdfMem p s) s).2 = t at *
  have accessed := noted.and (Ends.continues (@ends_same _ t
    (callAccessf io (cstr (pdfMem p (decodeName (pdfMem p s) s).2)) t).2 rfl
      ((@Chore.accessf _ io _ t).sendsOnly (lenient_onlyAtEnd _))) rfl)
  generalize callAccessf io _ t = access at *
  split
  · have failed := accessed.and (@continues_epkt _ io
      (lit "The file specified in GET parameters is not accessible") access.2)
    generalize epkt io _ access.2 = told at *
    have noted : Continues told { told with r.arg := some .xdatabuf } :=
      continues_same rfl ⟨rfl, rfl⟩ rfl
    exact ⟨failed.and noted, fun other => absurd rfl other⟩
  · have answered := accessed.and (@continues_answerRequest _ io access.2)
    have restarts := @phase_answerRequest _ io .send access.2
    generalize answerRequest io .send access.2 = result at *
    have begun : result.1 ≠ xError → OnGet result.2 := by
      intro fine
      unfold OnGet
      rw [restarts fine]
      exact ⟨show State.sInit ∈ getStates by decide, rfl⟩
    split
    · exact ⟨answered, begun⟩
    · rename_i fine
      have succeeded : result.1 = xOk := not_not.mp fine
      have marked : Continues result.2 { result.2 with k.recvget := 1 } :=
        continues_same rfl ⟨rfl, rfl⟩ rfl
      refine ⟨answered.and marked, fun _ => marked.onGet (begun ?_)⟩
      rw [succeeded]
      decide

/-! ## The parameters of the peer -/

theorem sparParams_marks
    (cfg : Config)
    (fld : Nat → UInt8)
    (datalen : Int)
    (p : Params) :
    (sparParams cfg fld datalen p).sSoh = p.sSoh ∧
      (sparParams cfg fld datalen p).ebq = (sparEbq fld datalen p).ebq := by
  have capas : ∀ q, (sparCapas cfg fld datalen q).sSoh = q.sSoh ∧
      (sparCapas cfg fld datalen q).ebq = q.ebq := by
    intro q
    constructor
    · simp only [sparCapas, apply_ite Params.sSoh, ite_self]
    · simp only [sparCapas, apply_ite Params.ebq, ite_self]
  have checks : ∀ q, (sparChecks cfg fld datalen q).sSoh = q.sSoh ∧
      (sparChecks cfg fld datalen q).ebq = q.ebq := by
    intro q
    constructor
    · simp only [sparChecks, apply_ite Params.sSoh, ite_self]
    · simp only [sparChecks, apply_ite Params.ebq, ite_self]
  unfold sparParams
  rw [(capas _).1, (capas _).2, (checks _).1, (checks _).2]
  constructor
  · simp only [sparEbq, sparBasic, apply_ite Params.sSoh, ite_self]
  · simp only [sparEbq, sparBasic, apply_ite Params.ebq,
      apply_ite Params.parity, ite_self]

/-- The peer's parameters bring no carriage return if its packet has none. -/
theorem Markless.spar
    {cfg : Config}
    {p : Params}
    (markless : Markless p)
    {fld : Nat → UInt8}
    (clean : ∀ field, fld field ≠ packetEnd)
    (datalen : Int) :
    Markless (sparParams cfg fld datalen p) := by
  obtain ⟨start, eighth⟩ := sparParams_marks cfg fld datalen p
  refine ⟨sparParams_negotiable markless.negotiable fld datalen, ?_, ?_⟩
  · rw [start]
    exact markless.start
  · rw [eighth]
    unfold sparEbq
    dsimp only
    split
    · split
      · exact clean 7
      · split
        · exact show ch '&' ≠ packetEnd by decide
        · exact clean 7
    · exact markless.eighth

theorem peek_ne_packetEnd
    {memory : List UInt8}
    (clean : packetEnd ∉ memory)
    (index : Nat) :
    peek memory index ≠ packetEnd := by
  unfold peek
  rw [List.getD_eq_getElem?_getD]
  cases found : memory[index]? with
  | none =>
      exact show (0 : UInt8) ≠ packetEnd by decide
  | some c =>
      rintro rfl
      exact clean (List.mem_of_getElem? found)

theorem continues_spar
    (pdf : Nat)
    (datalen : Int)
    (s : Sys ω) :
    Continues s (onK (spar pdf datalen) s) := by
  refine Ends.continues (fun unended => ⟨?_, ?_⟩) rfl
  · exact ⟨unended.ctlq,
      unended.markless.spar (fun _ => peek_ne_packetEnd unended.memory _) _,
      unended.counted, unended.kept, unended.few, unended.place,
      unended.memory⟩
  · exact sendsOnly_quiet rfl (.inl ⟨rfl, rfl⟩)

end Functions

/-! ## The buffer of received packets -/

theorem packetEnd_notMem_padded
    {memory : List UInt8}
    (clean : packetEnd ∉ memory)
    (count : Nat) :
    packetEnd ∉ memory.takeD count 0 := by
  induction count generalizing memory with
  | zero =>
      exact List.not_mem_nil
  | succ count inductionHypothesis =>
      have nonzero : packetEnd ≠ 0 := by
        decide
      cases memory with
      | nil =>
          have rest := @inductionHypothesis [] List.not_mem_nil
          simp only [List.takeD_succ, List.head?_nil, Option.getD_none,
            List.tail_nil, List.mem_cons, not_or]
          exact ⟨nonzero, rest⟩
      | cons byte rest =>
          rw [List.mem_cons, not_or] at clean
          have later := inductionHypothesis clean.2
          simp only [List.takeD_succ, List.head?_cons, Option.getD_some,
            List.tail_cons, List.mem_cons, not_or]
          exact ⟨clean.1, later⟩

theorem packetEnd_notMem_poke
    {memory bytes : List UInt8}
    (clean : packetEnd ∉ memory)
    (stored : packetEnd ∉ bytes)
    (place : Nat) :
    packetEnd ∉ poke memory place bytes := by
  unfold poke
  rw [List.mem_append, List.mem_append, not_or, not_or]
  exact ⟨⟨packetEnd_notMem_padded clean place, stored⟩,
    fun member => clean (List.mem_of_mem_drop member)⟩

/-- The parser leaves no carriage return in the buffer. -/
def Parsed.Clean : Parsed → Prop
  | .badHeader buf => packetEnd ∉ buf
  | .badCheck buf => packetEnd ∉ buf
  | .good _ buf => packetEnd ∉ buf
  | _ => True

theorem parseCheck_clean
    (chklen datalen : Nat)
    (p : Rcvd)
    {buf : List UInt8}
    (clean : packetEnd ∉ buf) :
    (parseCheck chklen datalen p buf).Clean := by
  have zero : packetEnd ∉ ([0] : List UInt8) := by
    decide
  have checks : packetEnd ∉ (buf.drop (p.pdf + datalen)).takeD chklen 0 :=
    packetEnd_notMem_padded (fun member => clean (List.mem_of_mem_drop member))
      chklen
  have cut := packetEnd_notMem_poke clean zero (p.pdf + datalen)
  unfold parseCheck
  dsimp only
  generalize (buf.drop (p.pdf + datalen)).takeD chklen 0 = pbc at *
  generalize poke buf (p.pdf + datalen) [0] = buf' at *
  have again : packetEnd ∉ errorRetryBuf p.pdf datalen chklen pbc buf' := by
    unfold errorRetryBuf
    refine packetEnd_notMem_poke cut ?_ _
    rw [List.mem_append, not_or]
    exact ⟨fun member => checks (List.mem_of_mem_take member), zero⟩
  split
  · exact cut
  · split
    · split
      · exact again
      · exact packetEnd_notMem_poke again zero _
    · exact cut

theorem parse_clean
    {k : KData}
    (clean : packetEnd ∉ k.ipktbuf)
    (len : Int) :
    (parse k len).Clean := by
  have zero : packetEnd ∉ ([0] : List UInt8) := by
    decide
  have lengths : ∀ rlen p {buf : List UInt8}, packetEnd ∉ buf →
      (parseLengths k rlen p buf).Clean := by
    intro rlen p buf cleanNow
    unfold parseLengths
    dsimp only
    split
    · trivial
    · exact parseCheck_clean _ _ _ cleanNow
  unfold parse
  dsimp only
  split
  · trivial
  · split
    · trivial
    · split
      · trivial
      · split
        · have cut := packetEnd_notMem_poke clean zero 5
          split
          · exact cut
          · apply lengths
            refine packetEnd_notMem_poke cut ?_ 5
            rw [List.mem_singleton]
            exact (peek_ne_packetEnd clean 5).symm
        · exact lengths _ _ clean

/-! ## Turns of the loop -/

/-- The session a part of `kermit()` leaves. -/
def Stage.sys : Stage ω → Sys ω
  | .ret _ s => s
  | .go _ s => s

section Server

variable {σ : Type}
variable {os : Os σ}
variable {s : Sys (Unix σ)}

/-- The attributes of the requested file go out. -/
theorem continues_sattr
    (s : Sys (Unix σ)) :
    Continues s (sattr (unixio os) s).2 := by
  let name := (s.k.filename.map (deref s)).getD []
  let info := (unixio os).finfo s.w name s.k.par.binary
  let asked : Sys (Unix σ) :=
    { s with k.par.binary := info.2.2.1, w := info.2.2.2 }
  have known : Ends s asked :=
    ends_same rfl (sendsOnly_quiet rfl (.inl ⟨rfl, rfl⟩))
  have stored : ∀ r data,
      Ends s { asked with r := r, k := pokeXdata 0 data asked.k } := by
    intro r data
    refine known.and (fun unended => ?_)
    refine ⟨unended.pokeXdata 0 data, sendsOnly_quiet rfl ?_⟩
    have packets : (pokeXdata 0 data asked.k).win = asked.k.win := by
      unfold pokeXdata
      split <;> rfl
    dsimp only
    rw [SlotLeft, packets]
    exact .inl ⟨rfl, rfl⟩
  have sent : ∀ (t : Sys (Unix σ)) seq text, Ends s t →
      Ends s (spkt (unixio os) (ch 'A') seq (-1) text
        (onK (fun k => (takeSslot k).2) t)).2 :=
    fun t seq text before => (before.and (ends_takeSslot t)).and
      (ends_spkt (by decide) (by decide) _ _ _ _)
  refine Ends.continues ?_ (phase_sattr s)
  unfold sattr
  dsimp only
  split
  · exact stored _ _
  · exact sent { asked with r := _, k := pokeXdata 0 _ asked.k } _ _
      (stored _ _)

theorem continues_afterFile
    (s : Sys (Unix σ)) :
    Continues s (afterFile (unixio os) s).2 := by
  have next := continues_nxtpkt s
  unfold afterFile
  generalize onK nxtpkt s = t at *
  dsimp only
  split
  · have sent := next.and (@continues_sattr _ os t)
    generalize sattr (unixio os) t = result at *
    split
    · exact sent
    · exact (sent.and (continues_setState (by decide) _)).and
        (continues_awaitSent _)
  · exact next.and (continues_firstData t)

/-- The state switcher after an ACK. -/
theorem continues_stateStage
    (onGet : OnGet s)
    (msg : List UInt8)
    (p : Rcvd) :
    Continues s (stateStage (unixio os) msg p s).2 := by
  have listed : s.k.state ∈ getStates := onGet.1
  unfold stateStage
  split
  · exact (continues_spar _ _ s).and (continues_nextFile _)
  · split
    · exact .refl s
    · exact continues_nextFile s
  · exact continues_afterFile s
  · exact continues_afterData s
  · exact continues_afterData s
  · unfold reportFile
    split
    · exact continues_same rfl ⟨rfl, rfl⟩ rfl
    · exact .refl s
  iterate 4
    · rename_i waits
      rw [waits] at listed
      exact absurd listed (by decide)
  · simp only [getStates, List.mem_cons, List.not_mem_nil, or_false] at listed
    rcases listed with state | state | state | state | state | state
    all_goals contradiction

/-- A good packet for a sender, up to the state switcher. -/
theorem continues_sendStage
    (wf : Wf s.k)
    (p : Rcvd) :
    Continues s (sendStage (unixio os) p s).sys := by
  unfold sendStage
  dsimp only
  split
  · split
    · exact continues_sendRequested p s
    · exact (ends_resend wf p.rseq).continues (phase_resend _ s)
  · split
    · exact .refl s
    · generalize s.k.win.sPw p.rseq = slot
      have acked : Continues s (onK (acknowledge slot) s) :=
        (ends_acknowledge slot s).continues (phase_acknowledge slot s)
      split
      · exact acked.and (continues_cancelSend p _)
      · exact acked.and (continues_same rfl ⟨rfl, rfl⟩ rfl)

/-- A good packet while a GET is answered, up to the state switcher. -/
theorem continues_packetStage
    (wf : Wf s.k)
    (onGet : OnGet s)
    (p : Rcvd) :
    Continues s (packetStage (unixio os) p s).sys := by
  have sends : s.k.what = .send := onGet.2
  have listed : s.k.state ∈ getStates := onGet.1
  unfold packetStage
  rw [sends]
  split
  · rename_i listing
    exact absurd listing.2 (by decide)
  · split
    · exact .refl s
    · split
      · rename_i later _
        have waits : s.k.state = .rWait := by
          by_contra other
          exact later ⟨‹_›, other⟩
        rw [waits] at listed
        exact absurd listed (by decide)
      · split
        · exact (continues_rPacket p s).1
        · split
          · exact .refl s
          · exact continues_sendStage wf p

/-- The packet is stored, or answered by a retransmission. -/
theorem continues_rxStage
    (wf : Wf s.k)
    (onGet : OnGet s)
    (len : Int) :
    Continues s (rxStage (unixio os) len s).sys := by
  have sends : s.k.what ≠ .recv := by
    rw [show s.k.what = .send from onGet.2]
    decide
  have forced : forceBcta3 s.k = s.k := by
    simp [forceBcta3, wf.noForce]
  have again : ∀ seq, Continues s (resend (unixio os) seq s).2 :=
    fun seq => (ends_resend wf seq).continues (phase_resend seq s)
  have stored : ∀ buf, (Unended s.k → packetEnd ∉ buf) →
      Continues s { s with k.ipktbuf := buf } := by
    intro buf clean
    refine Ends.continues (fun unended => ⟨?_, ?_⟩) rfl
    · exact ⟨unended.ctlq, unended.markless, unended.counted, unended.kept,
        unended.few, unended.place, clean unended⟩
    · exact sendsOnly_quiet rfl (.inl ⟨rfl, rfl⟩)
  have damaged : ∀ buf, (Unended s.k → packetEnd ∉ buf) →
      Continues s
        (resendUnlessRecv (unixio os) { s with k.ipktbuf := buf }).2 := by
    intro buf clean
    have core : SameCore s { s with k.ipktbuf := buf } :=
      ⟨rfl, rfl, rfl, rfl, rfl, rfl, rfl, rfl, rfl, rfl, rfl⟩
    have wfNow := wf.scratch core (unixio os)
    unfold resendUnlessRecv
    rw [if_neg sends]
    exact (stored buf clean).and
      ((ends_resend wfNow (-1)).continues (phase_resend (-1) _))
  have cleaned : Unended s.k → (parse s.k len).Clean :=
    fun unended => parse_clean unended.memory len
  unfold rxStage
  rw [forced]
  split
  · exact again (-1)
  · generalize parse s.k len = parsed at *
    cases parsed with
    | shortcut =>
        exact .refl s
    | tossed =>
        exact .refl s
    | badHeader buf =>
        exact damaged buf cleaned
    | badLength =>
        unfold resendUnlessRecv
        rw [if_neg sends]
        exact again (-1)
    | badCheck buf =>
        exact damaged buf cleaned
    | good p buf =>
        exact stored buf cleaned

/-- A call on a received packet. -/
theorem continues_kermitRun
    (wf : Wf s.k)
    (onGet : OnGet s)
    (received : s.k.doRxd = true)
    (len : Int)
    (msg : List UInt8) :
    Continues s (kermit (unixio os) .run len msg s).2 := by
  have heard := @continues_rxStage _ os _ wf onGet len
  have ran : StageRan (unixio os) s _ := ran_rxStage len s
  unfold kermit
  rw [wf.testRslots (unixio os)]
  dsimp only
  unfold kermitRun
  rw [received]
  split
  · exact .refl s
  · rw [if_pos rfl]
    generalize rxStage (unixio os) len s = stage at heard ran
    cases stage with
    | ret rc t =>
        exact heard
    | go p t =>
        have wfNow : Wf t.k := ran.1.wf wf
        have handled :=
          @continues_packetStage _ os _ wfNow (heard.onGet onGet) p
        dsimp only
        generalize packetStage (unixio os) p t = stage at handled
        cases stage with
        | ret rc u =>
            exact heard.and handled
        | go p u =>
            have both := heard.and handled
            exact both.and (continues_stateStage (both.onGet onGet) msg p)

/-- The call that ends a silent session. -/
theorem ends_kermitError
    (wf : Wf s.k)
    (len : Int)
    (msg : List UInt8) :
    Ends s (kermit (unixio os) .error len msg s).2 := by
  unfold kermit
  rw [wf.testRslots (unixio os)]
  dsimp only
  exact (ends_epkt msg s).and (ends_callClosef 0 _ _)

end Server

end Slate106.Kermit
