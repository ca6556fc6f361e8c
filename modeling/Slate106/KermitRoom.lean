import Slate106.KermitFields
import Slate106.KermitKeeps

namespace Slate106.Kermit

open CBytes

/-!
# Room in a data field

`encode()` sends an error packet, which has the number zero, when a data field
has become too long.  It never does: `getpkt()` stops before, since the length
that was negotiated is at most the longest one, and what is left over for the
next field is short.  So `getpkt()` leaves the packet number alone.
-/

variable {ω : Type}

/-- The negotiated length is short enough, and so are the leftovers. -/
structure Roomy
    (k : KData) : Prop where
  small : k.par.sMaxlen ≤ pPktlen
  few : k.enc.sRemain.length ≤ 6

theorem Transmits.roomy
    {s t : Sys ω}
    (same : Transmits s t)
    (roomy : Roomy s.k) :
    Roomy t.k := by
  obtain ⟨_, _, _, _, _, _, _, -, rfl⟩ := same
  exact ⟨roomy.small, roomy.few⟩

/-! ## Negotiation -/

theorem sparBasic_small
    {p : Params}
    (small : p.sMaxlen ≤ pPktlen)
    (fld : Nat → UInt8)
    (datalen : Int) :
    (sparBasic fld datalen p).sMaxlen ≤ pPktlen := by
  have byte := (xunchar (fld 1)).toNat_lt
  have short : (xunchar (fld 1)).toNat ≤ pPktlen := by
    unfold pPktlen
    omega
  simp only [sparBasic, apply_ite Params.sMaxlen, ite_self]
  split
  · exact short
  · exact small

theorem sparCapas_small
    {cfg : Config}
    {p : Params}
    (small : p.sMaxlen ≤ pPktlen)
    (fld : Nat → UInt8)
    (datalen : Int) :
    (sparCapas cfg fld datalen p).sMaxlen ≤ pPktlen := by
  have long : ∀ x : Nat,
      (if (if x > pPktlen then pPktlen else x) < 10 then 60
        else if x > pPktlen then pPktlen else x) ≤ pPktlen := by
    intro x
    repeat' split
    all_goals simp only [pPktlen] at *
    all_goals omega
  have allowed :
      (if datalen ≥ 10 then
        { p with capas := capasAnd (xunchar (fld 10)).toUInt16 p.capas }
      else p).sMaxlen ≤ pPktlen := by
    split
    · exact small
    · exact small
  unfold sparCapas
  dsimp only
  generalize capasField fld datalen = y
  generalize
    (if datalen ≥ 10 then
      { p with capas := capasAnd (xunchar (fld 10)).toUInt16 p.capas }
    else p) = q at allowed
  simp only [apply_ite Params.sMaxlen, ite_self]
  split
  · exact long _
  · exact allowed

/-- `spar()` never asks for longer packets than there are. -/
theorem sparParams_small
    (cfg : Config)
    {p : Params}
    (small : p.sMaxlen ≤ pPktlen)
    (fld : Nat → UInt8)
    (datalen : Int) :
    (sparParams cfg fld datalen p).sMaxlen ≤ pPktlen := by
  have checks : ∀ q, (sparChecks cfg fld datalen q).sMaxlen = q.sMaxlen := by
    intro q
    simp only [sparChecks, apply_ite Params.sMaxlen, ite_self]
  have ebq : ∀ q, (sparEbq fld datalen q).sMaxlen = q.sMaxlen := by
    intro q
    simp only [sparEbq, apply_ite Params.sMaxlen, ite_self]
  unfold sparParams
  apply sparCapas_small
  rw [checks, ebq]
  exact sparBasic_small small fld datalen

theorem Roomy.spar
    {k : KData}
    (roomy : Roomy k)
    (pdf : Nat)
    (datalen : Int) :
    Roomy (spar pdf datalen k) :=
  ⟨sparParams_small k.cfg roomy.small _ datalen, roomy.few⟩

/-! ## One character -/

/-- What `encode()` has made of a field. -/
structure Grown
    (field : List UInt8)
    (k k' : KData) : Prop where
  writes : Writes k k'
  holds :
    ∃ more tail, more.length ≤ 6 ∧ Holds (field ++ more) (0 :: tail) k'
  later : field.length ≤ k'.enc.osize
  inside : k'.enc.osize ≤ k'.enc.size

/-- What was done to the counters before does not matter. -/
theorem Grown.after
    {field : List UInt8}
    {k k' k'' : KData}
    (first : Writes k k')
    (grown : Grown field k' k'') :
    Grown field k k'' :=
  ⟨first.trans grown.writes, grown.holds, grown.later, grown.inside⟩

theorem grown_once
    (io : Io ω)
    (a : UInt8)
    {s : Sys ω}
    {field tail : List UInt8}
    (holds : Holds field tail s.k)
    (start : s.k.enc.osize = field.length)
    (room : field.length + 6 ≤ pPktlen) :
    ∃ k', encodeChar io a s = { s with k := k' } ∧ Grown field s.k k' := by
  have short := (length_encodeBytes s.k.cfg s.k.par a).2
  obtain ⟨k', same, ⟨tail', now⟩, -, osize, writes⟩ :=
    encodeChar_emitted io a holds (by omega)
  have size := now.size
  rw [List.length_append] at size
  refine ⟨k', same, writes, ⟨_, tail', by omega, now⟩, ?_, ?_⟩
  · omega
  · omega

/-- A character with its repeat count. -/
theorem grown_run
    (io : Io ω)
    (a : UInt8)
    (front : List UInt8)
    {s : Sys ω}
    {field tail : List UInt8}
    (two : front.length = 2)
    (holds : Holds field tail s.k)
    (start : s.k.enc.osize = field.length)
    (room : field.length + 6 ≤ pPktlen) :
    ∃ k',
      encodeChar io a
          { s with k := { emit front s.k with enc.sRpt := 0 } } =
        { s with k := k' } ∧
      Grown field s.k k' := by
  have longer := holds.emit front
  have written := writes_emit front s.k
  have kept : (emit front s.k).enc.osize = s.k.enc.osize := by
    unfold emit pokeXdata
    cases s.k.enc.xdata <;> rfl
  generalize emit front s.k = k at *
  have counted : Writes s.k { k with enc.sRpt := 0 } :=
    written.trans ⟨_, _, _, _, _, rfl⟩
  have short := (length_encodeBytes k.cfg k.par a).2
  obtain ⟨k', same, ⟨tail', now⟩, -, osize, writes⟩ :=
    @encodeChar_emitted _ io a { s with k := { k with enc.sRpt := 0 } } _ _
      ⟨longer.memory, longer.size⟩ (by rw [List.length_append]; omega)
  have size := now.size
  rw [List.append_assoc] at now
  simp only [List.length_append] at size
  refine
    ⟨k', same, counted.trans writes, ⟨_, tail', ?_, now⟩, ?_, ?_⟩
  · rw [List.length_append]
    exact Nat.le_trans (Nat.add_le_add (Nat.le_of_eq two) short) (by decide)
  · have first := osize.trans kept
    omega
  · have first := osize.trans kept
    omega

/-- The same character twice; `osize` may be moved between them. -/
theorem grown_twice
    (io : Io ω)
    (a : UInt8)
    {s : Sys ω}
    {field tail : List UInt8}
    (holds : Holds field tail s.k)
    (start : s.k.enc.osize = field.length)
    (room : field.length + 6 ≤ pPktlen) :
    let first := encodeChar io a { s with k.enc.sRpt := 0 }
    let noted :=
      if (first.k.enc.size : Int) ≤ first.k.par.sMaxlen - 4 then
        { first with k.enc.osize := first.k.enc.size }
      else first
    ∃ k',
      encodeChar io a { noted with k.enc.sRpt := 0 } = { s with k := k' } ∧
      Grown field s.k k' := by
  dsimp only
  have few := (length_encodeBytes s.k.cfg s.k.par a).2
  obtain ⟨k', same, ⟨tail', now⟩, -, osize, writes⟩ :=
    @encodeChar_emitted _ io a { s with k.enc.sRpt := 0 } _ _
      ⟨holds.memory, holds.size⟩ (by omega)
  have counted : Writes s.k k' :=
    Writes.trans ⟨_, _, _, _, _, rfl⟩ writes
  have size := now.size
  rw [List.length_append] at size
  dsimp only at size now osize
  have second : ∀ noted : Nat, field.length ≤ noted → noted ≤ k'.enc.size →
      ∃ k'',
        encodeChar io a
            { s with
              k := { k' with enc := { k'.enc with osize := noted, sRpt := 0 } } } =
          { s with k := k'' } ∧
        Grown field s.k k'' := by
    intro noted later inside
    have few' := (length_encodeBytes k'.cfg k'.par a).2
    obtain ⟨k'', same', ⟨tail'', now'⟩, -, osize', writes'⟩ :=
      @encodeChar_emitted _ io a
        { s with
          k := { k' with enc := { k'.enc with osize := noted, sRpt := 0 } } }
        _ _ ⟨now.memory, now.size⟩ (by rw [List.length_append]; omega)
    have size' := now'.size
    rw [List.append_assoc] at now'
    simp only [List.length_append] at size'
    dsimp only at osize'
    refine
      ⟨k'', same', (counted.trans ⟨_, _, _, _, _, rfl⟩).trans writes',
        ⟨_, tail'', ?_, now'⟩, ?_, ?_⟩
    · rw [List.length_append]
      exact Nat.add_le_add few few'
    · omega
    · omega
  rw [same]
  dsimp only
  split
  · exact second k'.enc.size (by omega) (Nat.le_refl _)
  · exact second k'.enc.osize (by omega) (by omega)

/-- A character is counted, or it is written with a count, once or twice. -/
theorem encode_grown
    (io : Io ω)
    (a : UInt8)
    (next : Option UInt8)
    {s : Sys ω}
    {field tail : List UInt8}
    (holds : Holds field (0 :: tail) s.k)
    (start : s.k.enc.osize = field.length)
    (room : field.length + 6 ≤ pPktlen) :
    ∃ k', encode io a next s = { s with k := k' } ∧ Grown field s.k k' := by
  have inside : s.k.enc.osize ≤ s.k.enc.size :=
    Nat.le_of_eq (start.trans holds.size.symm)
  unfold encode
  split
  · split
    · dsimp only
      have counted : ∀ sRpt : Int,
          Writes s.k { s.k with enc.sRpt := sRpt } :=
        fun _ => ⟨_, _, _, _, _, rfl⟩
      have now : ∀ sRpt : Int,
          Holds field (0 :: tail) { s.k with enc.sRpt := sRpt } :=
        fun _ => ⟨holds.memory, holds.size⟩
      split
      · refine ⟨_, rfl, counted _, ⟨[], tail, by simp, ?_⟩, ?_, inside⟩
        · rw [List.append_nil]
          exact now _
        · exact Nat.le_of_eq start.symm
      · split
        · obtain ⟨k', same, grown⟩ :=
            @grown_run _ io a
              [s.k.par.rptq, torepeat (uchar (s.k.enc.sRpt + 1))]
              { s with k.enc.sRpt := s.k.enc.sRpt + 1 } _ _ rfl (now _) start
              room
          exact ⟨k', same, grown.after (counted _)⟩
        · obtain ⟨k', same, grown⟩ :=
            @grown_once _ io a { s with k.enc.sRpt := s.k.enc.sRpt + 1 } _ _
              (now _) start room
          exact ⟨k', same, grown.after (counted _)⟩
    · split
      · exact grown_twice io a holds start room
      · split
        · exact grown_run io a _ rfl holds start room
        · exact grown_once io a holds start room
  · exact grown_once io a holds start room

/-! ## A whole field -/

/-- Only the encoder, its memory and its input differ. -/
def Fills
    (s t : Sys ω) : Prop :=
  ∃ enc ipktbuf zin r w log,
    t =
      { k := { s.k with enc := enc, ipktbuf := ipktbuf, zin := zin }
        r := r
        w := w
        log := log }

theorem Fills.trans
    {s t u : Sys ω}
    (first : Fills s t)
    (second : Fills t u) :
    Fills s u := by
  obtain ⟨_, _, _, _, _, _, rfl⟩ := first
  obtain ⟨_, _, _, _, _, _, rfl⟩ := second
  exact ⟨_, _, _, _, _, _, rfl⟩

/-- The cut back to `osize` leaves little for the next field. -/
theorem length_cutBack
    {field more tail : List UInt8}
    {k : KData}
    (holds : Holds (field ++ more) (0 :: tail) k)
    (later : field.length ≤ k.enc.osize)
    (inside : k.enc.osize ≤ k.enc.size) :
    (cutBack k).enc.sRemain.length ≤ more.length := by
  have size := holds.size
  have ended : peek ((xdataMem k).drop k.enc.osize)
      (k.enc.size - k.enc.osize) = 0 := by
    rw [peek_drop, Nat.add_sub_cancel' inside, holds.memory, size,
      peek_append_right (Nat.le_refl _), Nat.sub_self]
    rfl
  have short := length_cstr_le ended
  have kept : (cutBack k).enc.sRemain = cstrAt (xdataMem k) k.enc.osize := by
    unfold cutBack pokeXdata
    split <;> rfl
  rw [kept, cstrAt]
  rw [List.length_append] at size
  omega

/-- Reading a character changes the input alone. -/
theorem nextChar_shape
    (io : Io ω)
    (s : Sys ω) :
    ∃ zin istring w log,
      (nextChar io s).2 =
        { s with
          k := { s.k with zin := zin, enc.istring := istring }
          w := w
          log := log } := by
  unfold nextChar zgetc callReadf
  dsimp only
  repeat' split
  all_goals exact ⟨_, _, _, _, rfl⟩

/-- A turn of `getpkt()` has room for a character. -/
theorem encodeNext_grown
    (io : Io ω)
    (c : UInt8)
    {s : Sys ω}
    {field tail : List UInt8}
    (holds : Holds field (0 :: tail) s.k)
    (room : field.length + 6 ≤ pPktlen) :
    let read := nextChar io s
    let t := encodeNext io c read.1 (noteChar read.1 read.2)
    Fills s t ∧ t.k.enc.sRemain = s.k.enc.sRemain ∧
      ∃ more tail', more.length ≤ 6 ∧
        Holds (field ++ more) (0 :: tail') t.k ∧
        field.length ≤ t.k.enc.osize ∧ t.k.enc.osize ≤ t.k.enc.size := by
  obtain ⟨zin, istring, w, log, shape⟩ := nextChar_shape io s
  dsimp only
  rw [shape]
  generalize (nextChar io s).1 = next
  have noted : ∃ sFirst r,
      noteChar next
          { s with
            k := { s.k with zin := zin, enc.istring := istring }
            w := w
            log := log } =
        { k :=
            { s.k with
              zin := zin
              enc := { s.k.enc with istring := istring, sFirst := sFirst } }
          r := r
          w := w
          log := log } := by
    unfold noteChar
    split
    · exact ⟨_, _, rfl⟩
    · exact ⟨_, _, rfl⟩
  obtain ⟨sFirst, r, noted⟩ := noted
  rw [noted]
  unfold encodeNext
  obtain ⟨k', same, writes, ⟨more, tail', few, now⟩, later, inside⟩ :=
    @encode_grown _ io c next
      { k :=
          { s.k with
            zin := zin
            enc :=
              { s.k.enc with
                istring := istring, sFirst := sFirst
                osize := s.k.enc.size } }
        r := r
        w := w
        log := log } field tail ⟨holds.memory, holds.size⟩ holds.size room
  dsimp only at same ⊢
  rw [same]
  obtain ⟨_, _, _, _, _, rfl⟩ := writes
  exact ⟨⟨_, _, _, _, _, _, rfl⟩, rfl, more, tail', few,
    ⟨now.memory, now.size⟩, later, inside⟩

theorem Fills.roomy
    {s t : Sys ω}
    (fills : Fills s t)
    (small : s.k.par.sMaxlen ≤ pPktlen)
    (few : t.k.enc.sRemain.length ≤ 6) :
    Roomy t.k := by
  obtain ⟨_, _, _, _, _, _, rfl⟩ := fills
  exact ⟨small, few⟩

/-- The loop of `getpkt()`, by the iterations that are left. -/
theorem getpktLoop_fills
    (io : Io ω)
    (count : Nat)
    (c : UInt8)
    {s : Sys ω}
    (roomy : Roomy s.k)
    {field tail : List UInt8}
    (holds : Holds field (0 :: tail) s.k)
    (room : field.length + 6 ≤ pPktlen) :
    Fills s (getpktLoop io count c s).2 ∧
      Roomy (getpktLoop io count c s).2.k := by
  induction count generalizing c s field tail with
  | zero =>
      exact ⟨⟨_, _, _, _, _, _, rfl⟩, roomy⟩
  | succ count inductionHypothesis =>
      obtain ⟨fills, kept, more, tail', few, now, later, inside⟩ :=
        encodeNext_grown io c holds room
      unfold getpktLoop
      dsimp only at fills kept now later inside ⊢
      generalize
        encodeNext io c (nextChar io s).1
          (noteChar (nextChar io s).1 (nextChar io s).2) = t at *
      have still : Roomy t.k :=
        fills.roomy roomy.small (kept ▸ roomy.few)
      split
      · exact ⟨fills, still⟩
      · split
        · have cut : Fills t { t with k := cutBack t.k } := by
            unfold cutBack pokeXdata
            split <;> exact ⟨_, _, _, _, _, _, rfl⟩
          have together := fills.trans cut
          exact ⟨together, together.roomy roomy.small
            ((length_cutBack now later inside).trans few)⟩
        · split
          · have small := still.small
            have size := now.size
            obtain ⟨after, left⟩ := inductionHypothesis _ still now (by
              unfold getpktMaxlen at *
              omega)
            exact ⟨fills.trans after, left⟩
          · exact ⟨fills, still⟩

theorem getpktRest_fills
    (io : Io ω)
    (c : UInt8)
    {s : Sys ω}
    (roomy : Roomy s.k) :
    Fills s (getpktRest io c s).2 ∧ Roomy (getpktRest io c s).2.k := by
  have memory := xdataMem_pokeXdata 0 (s.k.enc.sRemain ++ [0]) s.k
  rw [poke_zero, List.append_assoc] at memory
  have holds : Holds s.k.enc.sRemain
      (0 :: (xdataMem s.k).drop (s.k.enc.sRemain ++ [0]).length)
      (copyRemain s.k) :=
    ⟨memory, rfl⟩
  have fills : Fills s { s with k := copyRemain s.k } := by
    obtain ⟨-, _, _, same⟩ := copyRemain_holds s.k
    rw [same]
    exact ⟨_, _, _, _, _, _, rfl⟩
  have few : (copyRemain s.k).enc.sRemain.length ≤ 6 := Nat.zero_le 6
  have still := fills.roomy roomy.small few
  unfold getpktRest
  dsimp only
  split
  · exact ⟨fills, still⟩
  · have room : s.k.enc.sRemain.length + 6 ≤ pPktlen :=
      (Nat.add_le_add_right roomy.few 6).trans (by decide)
    obtain ⟨after, left⟩ :=
      @getpktLoop_fills _ io getpktFuel c { s with k := copyRemain s.k } still
        _ _ holds room
    exact ⟨fills.trans after, left⟩

/-- `getpkt()` leaves the packet number alone, and everything but a field. -/
theorem getpkt_fills
    (io : Io ω)
    {s : Sys ω}
    (noForce : s.k.cfg.bcta3 = 0)
    (roomy : Roomy s.k) :
    Fills s (getpkt io s).2 ∧ Roomy (getpkt io s).2.k := by
  have forced : forceBcta3 s.k = s.k := by
    simp [forceBcta3, noForce]
  have begun : Fills s (getpktFirst io s).2 ∧
      (getpktFirst io s).2.k.enc.sRemain = [] := by
    obtain ⟨_, _, _, _, shape⟩ := nextChar_shape io
      { s with k.enc.sFirst := 0, k.enc.sRemain := [] }
    unfold getpktFirst
    dsimp only
    rw [shape]
    split
    · exact ⟨⟨_, _, _, _, _, _, rfl⟩, rfl⟩
    · dsimp only
      split
      · exact ⟨⟨_, _, _, _, _, _, rfl⟩, rfl⟩
      · exact ⟨⟨_, _, _, _, _, _, rfl⟩, rfl⟩
  unfold getpkt
  rw [forced]
  dsimp only
  split
  · obtain ⟨fills, nothing⟩ := begun
    have still := fills.roomy roomy.small (by rw [nothing]; exact Nat.zero_le 6)
    split
    · exact ⟨fills, still⟩
    · obtain ⟨after, left⟩ := getpktRest_fills io _ still
      exact ⟨fills.trans after, left⟩
  · split
    · exact ⟨⟨_, _, _, _, _, _, rfl⟩, roomy.small, roomy.few⟩
    · exact getpktRest_fills io _ roomy

/-- `encstr()` leaves the packet number alone, too. -/
theorem encstr_fills
    (io : Io ω)
    (text : StrRef)
    {s : Sys ω}
    (noForce : s.k.cfg.bcta3 = 0)
    (roomy : Roomy s.k) :
    Fills s (encstr io text s).2 ∧ Roomy (encstr io text s).2.k := by
  obtain ⟨fills, still⟩ :=
    @getpkt_fills _ io
      { s with k.enc.sFirst := 1, k.enc.istring := some (text, 0) } noForce
      ⟨roomy.small, roomy.few⟩
  unfold encstr
  dsimp only
  refine ⟨?_, still.small, still.few⟩
  obtain ⟨_, _, _, _, _, _, same⟩ := fills
  rw [same]
  exact ⟨_, _, _, _, _, _, rfl⟩

end Slate106.Kermit
