import Slate106.KermitGet
import Slate106.KermitRoom

namespace Slate106.Kermit

open CBytes

/-!
# Fields of any file

With room for five characters, `getpkt()` either fills a field that fits its
packet, or it has seen `readf` report the end of the file: whatever the file
holds, whatever mode it is sent in, and whatever was read before.
-/

variable {ω : Type}

/-- What the runs of a turn add to the field, before `osize` and after it. -/
structure Progress
    (before after held held' : Nat)
    (a : UInt8)
    (next : Option UInt8) : Prop where
  early : before ≤ 3
  few : after ≤ 5
  something :
    0 < after ∨
      next = some a ∧ before = 0 ∧ held' = held + 1 ∧ held + 1 < 236

theorem length_encodeRun
    (cfg : Config)
    (p : Params)
    (run : CharRun) :
    (encodeRun cfg p run).length ≤ 5 := by
  have few := (length_encodeBytes cfg p run.char).2
  unfold encodeRun
  rw [List.length_append]
  split
  · exact Nat.le_trans (Nat.add_le_add_left few 0) (by decide)
  · exact Nat.add_le_add_left few 2

/-- A turn writes one run, one character twice, or it counts the character. -/
theorem turnRuns_progress
    (cfg : Config)
    (p : Params)
    (rptflg : Int)
    (held : Nat)
    (a : UInt8)
    (next : Option UInt8) :
    Progress (encodeRuns cfg p (turnRuns rptflg held a next).1).length
      (encodeRuns cfg p (turnRuns rptflg held a next).2).length held
      (turnHeld rptflg held a next) a next := by
  have one : ∀ run : CharRun,
      0 < (encodeRuns cfg p [run]).length ∧
        (encodeRuns cfg p [run]).length ≤ 5 := by
    intro run
    rw [encodeRuns_cons, encodeRuns_nil, List.append_nil]
    exact ⟨length_encodeRun_pos cfg p run, length_encodeRun cfg p run⟩
  have single : (encodeRuns cfg p [{ char := a, count := 1 }]).length ≤ 3 := by
    rw [encodeRuns_cons, encodeRuns_nil, List.append_nil, encodeRun_once]
    exact (length_encodeBytes cfg p a).2
  have written : ∀ run : CharRun, ∀ held' : Nat,
      Progress 0 (encodeRuns cfg p [run]).length held held' a next :=
    fun run _ => ⟨Nat.zero_le 3, (one run).2, .inl (one run).1⟩
  unfold turnRuns
  split
  · rename_i flag
    split
    · rename_i same
      split
      · rename_i fewer
        refine ⟨Nat.zero_le 3, Nat.zero_le 5, .inr ⟨same.symm, rfl, ?_, fewer⟩⟩
        rw [turnHeld, if_pos ⟨flag, same, fewer⟩]
      · exact written _ _
    · split
      · exact ⟨single, (one _).2, .inl (one _).1⟩
      · exact written _ _
  · exact written _ _

/-- `zgetc()` only reads, and it returns nothing when `readf` does. -/
theorem zgetc_reads
    (io : Io ω)
    (s : Sys ω) :
    ReadsOnly s (zgetc io s).2 ∧
      ((zgetc io s).1 = none → .readf none ∈ (zgetc io s).2.log) := by
  unfold zgetc
  dsimp only
  split
  · exact ⟨⟨_, _, [], rfl⟩, fun none => absurd none (by simp)⟩
  · refine ⟨⟨_, _, [_], rfl⟩, fun ended => ?_⟩
    unfold callReadf at ended ⊢
    dsimp only at ended ⊢
    rw [ended]
    exact List.mem_cons_self

/-! ## What the next call finds -/

/-- The settings with which a file is packed, the same for every field. -/
structure Packing
    (k : KData) : Prop where
  noForce : k.cfg.bcta3 = 0
  small : k.par.sMaxlen ≤ pPktlen
  room : 5 ≤ getpktMaxlen k.par
  noString : k.enc.istring = none

/-- The encoder between two calls of `getpkt()` for a file. -/
structure Supplied
    (s : Sys ω) : Prop where
  packing : Packing s.k
  counted : ∃ held : Nat, s.k.enc.sRpt = held ∧ Countable s.k.par.rptflg held
  few : s.k.enc.sRemain.length ≤ 6
  ended : s.k.enc.sFirst = -1 → .readf none ∈ s.log

theorem Packing.packs
    {s s' : Sys ω}
    (packing : Packing s.k)
    (packs : Packs s s') :
    Packing s'.k := by
  obtain ⟨_, _, _, _, _, _, _, istring, rfl⟩ := packs
  exact ⟨packing.noForce, packing.small, packing.room,
    istring.trans packing.noString⟩

theorem Supplied.same
    {left : ω → List UInt8}
    {s t : Sys ω}
    (supplied : Supplied s)
    (same : SameInput left s t) :
    Supplied t := by
  obtain ⟨⟨noForce, small, room, noString⟩, ⟨held, counted, countable⟩, few,
    ended⟩ := supplied
  refine ⟨⟨?_, ?_, ?_, same.istring.trans noString⟩,
    ⟨held, same.sRpt.trans counted, ?_⟩, ?_, fun flag => ?_⟩
  · rw [same.cfg]
    exact noForce
  · rw [same.par]
    exact small
  · rw [same.par]
    exact room
  · rw [same.par]
    exact countable
  · rw [same.sRemain]
    exact few
  · exact same.seen (ended (same.sFirst.symm.trans flag))

theorem Packs.log
    {s s' : Sys ω}
    (packs : Packs s s')
    {call : Call}
    (member : call ∈ s.log) :
    call ∈ s'.log := by
  obtain ⟨_, _, _, _, _, reads, -, -, rfl⟩ := packs
  exact List.mem_append_right _ member

/-- The field after a turn of the loop, and where it may be cut back to. -/
structure Lengthens
    (field : List UInt8)
    (held : Nat)
    (c : UInt8)
    (next : Option UInt8)
    (s t : Sys ω)
    (before after held' : Nat) : Prop where
  progress : Progress before after held held' c next
  size : t.k.enc.size = field.length + before + after
  osize : t.k.enc.osize = field.length + before
  counted : t.k.enc.sRpt = held'
  countable : Countable s.k.par.rptflg held'
  kept : t.k.enc.sRemain = s.k.enc.sRemain
  flag : t.k.enc.sFirst = -1 → s.k.enc.sFirst = -1 ∨ .readf none ∈ t.log
  packs : Packs s t

theorem noteChar_shape
    (next : Option UInt8)
    (s : Sys ω) :
    ∃ sFirst sofarRumor,
      (sFirst = -1 → s.k.enc.sFirst = -1 ∨ next = none) ∧
        noteChar next s =
          { s with k.enc.sFirst := sFirst, r.sofarRumor := sofarRumor } := by
  unfold noteChar
  split
  · rename_i ended
    exact ⟨_, _, fun _ => .inr ended, rfl⟩
  · exact ⟨_, _, .inl, rfl⟩

/-- A turn of the loop, whatever `readf` returns in it. -/
theorem turn_lengthens
    (io : Io ω)
    (c : UInt8)
    {s : Sys ω}
    (packing : Packing s.k)
    {field tail : List UInt8}
    {held : Nat}
    (holds : Holds field tail s.k)
    (counted : s.k.enc.sRpt = held)
    (countable : Countable s.k.par.rptflg held)
    (room : field.length + 8 ≤ pPktlen)
    (early : (field.length : Int) + 7 ≤ s.k.par.sMaxlen) :
    ∃ before after held',
      Lengthens field held c (nextChar io s).1 s (turn io c s) before after
        held' := by
  obtain ⟨reads, ended⟩ := zgetc_reads io s
  unfold turn
  rw [nextChar_zgetc io packing.noString]
  generalize (zgetc io s).1 = next at *
  generalize (zgetc io s).2 = u at *
  obtain ⟨zin, w, answers, rfl⟩ := reads
  obtain ⟨sFirst, sofarRumor, flag, noted⟩ := noteChar_shape next
    { s with k.zin := zin, w := w, log := answers.map .readf ++ s.log }
  rw [noted]
  unfold encodeNext
  obtain ⟨k', same, turned⟩ := encode_turned io c next
    (s := { s with
      k.zin := zin, k.enc.sFirst := sFirst, k.enc.osize := s.k.enc.size
      r.sofarRumor := sofarRumor
      w := w, log := answers.map .readf ++ s.log })
    ⟨holds.memory, holds.size⟩ holds.size counted countable room
    (fun _ _ => early)
  dsimp only at same ⊢
  rw [same]
  obtain ⟨⟨tail', now, -⟩, osize, sRpt, writes⟩ := turned
  have size := now.size
  rw [List.length_append, List.length_append, ← Nat.add_assoc] at size
  rw [List.length_append] at osize
  refine ⟨_, _, _, turnRuns_progress s.k.cfg s.k.par s.k.par.rptflg held c
    next, size, osize, sRpt, turnHeld_countable _ _ _ _, ?_, ?_, ?_⟩
  · obtain ⟨_, _, _, _, _, rfl⟩ := writes
    rfl
  · obtain ⟨_, _, _, _, _, rfl⟩ := writes
    exact fun ends => (flag ends).imp_right ended
  · obtain ⟨sRpt', size', osize', xdatabuf, ipktbuf, rfl⟩ := writes
    refine ⟨_, ipktbuf, zin, sofarRumor, w, answers, ?_, ?_, rfl⟩
    · rfl
    · rfl

/-- A field was filled that fits its packet, and there may be another one. -/
structure Furnished
    (s : Sys ω)
    (result : Int × Sys ω) : Prop where
  positive : 0 < result.1
  short : result.1 + 3 < pPktlen
  packs : Packs s result.2
  supplied : Supplied result.2

/-- Every turn leaves the encoder as the next call expects it. -/
theorem Lengthens.supplied
    {field : List UInt8}
    {held : Nat}
    {c : UInt8}
    {next : Option UInt8}
    {s t : Sys ω}
    {before after held' : Nat}
    (supplied : Supplied s)
    (lengthens : Lengthens field held c next s t before after held') :
    Supplied t := by
  have packs := lengthens.packs
  refine ⟨supplied.packing.packs packs, ⟨held', lengthens.counted, ?_⟩, ?_, ?_⟩
  · rw [packs.settings.2]
    exact lengthens.countable
  · rw [lengthens.kept]
    exact supplied.few
  · intro ends
    rcases lengthens.flag ends with earlier | now
    · exact packs.log (supplied.ended earlier)
    · exact now

/-- The cut back leaves less than a turn has written. -/
theorem Supplied.cutBack
    {field more tail : List UInt8}
    {t : Sys ω}
    (supplied : Supplied t)
    (few : more.length ≤ 6)
    (holds : Holds (field ++ more) (0 :: tail) t.k)
    (later : field.length ≤ t.k.enc.osize)
    (inside : t.k.enc.osize ≤ t.k.enc.size) :
    Supplied { t with k := cutBack t.k } := by
  obtain ⟨packs, flag, -, counted, -⟩ := cutBack_packs t
  have left := (length_cutBack holds later inside).trans few
  obtain ⟨held, same, countable⟩ := supplied.counted
  have par : (Kermit.cutBack t.k).par = t.k.par := packs.settings.2
  exact
    { packing := supplied.packing.packs packs
      counted := ⟨held, counted.trans same, par ▸ countable⟩
      few := left
      ended := fun ends => supplied.ended (flag.symm.trans ends) }

/-- The loop of `getpkt()`, by the iterations that are left. -/
theorem getpktLoop_furnishes
    (io : Io ω)
    (count : Nat)
    (c : UInt8)
    {s : Sys ω}
    (supplied : Supplied s)
    {field tail : List UInt8}
    {held : Nat}
    (holds : Holds field (0 :: tail) s.k)
    (counted : s.k.enc.sRpt = held)
    (countable : Countable s.k.par.rptflg held)
    (short : field.length ≤ 6 ∨ (field.length : Int) < getpktMaxlen s.k.par)
    (goes : 0 < field.length ∨ 236 ≤ count + held) :
    Furnished s (getpktLoop io count c s) := by
  have maxlen : getpktMaxlen s.k.par = (s.k.par.sMaxlen : Int) -
      s.k.par.bct - 3 - 6 := rfl
  have room := supplied.packing.room
  have small := supplied.packing.small
  unfold pPktlen at small
  induction count generalizing c s field tail held with
  | zero =>
      have size := holds.size
      have most := countable.small
      refine ⟨?_, ?_, Packs.refl s, supplied⟩
      · show (0 : Int) < (s.k.enc.size : Int)
        omega
      · show (s.k.enc.size : Int) + 3 < 1000
        omega
  | succ count inductionHypothesis =>
      obtain ⟨before, after, held', lengthens⟩ :=
        turn_lengthens io c supplied.packing holds counted countable
          (by unfold pPktlen; omega) (by omega)
      obtain ⟨-, -, more, tail', few, now, later, inside⟩ :=
        encodeNext_grown io c holds (by unfold pPktlen; omega)
      change Holds (field ++ more) (0 :: tail') (turn io c s).k at now
      change field.length ≤ (turn io c s).k.enc.osize at later
      change (turn io c s).k.enc.osize ≤ (turn io c s).k.enc.size at inside
      have still := lengthens.supplied supplied
      obtain ⟨⟨early, last, something⟩, size, osize, countedNow,
        countableNow, -, -, packs⟩ := lengthens
      have par := packs.settings.2
      rw [getpktLoop_succ]
      dsimp only
      generalize turn io c s = t at *
      rw [par]
      split
      · refine ⟨?_, ?_, packs, still⟩
        · show (0 : Int) < (t.k.enc.size : Int)
          omega
        · show (t.k.enc.size : Int) + 3 < 1000
          omega
      · split
        · refine ⟨?_, ?_, packs.trans (cutBack_packs t).1,
            still.cutBack few now later inside⟩
          · show (0 : Int) < (t.k.enc.osize : Int)
            omega
          · show (t.k.enc.osize : Int) + 3 < 1000
            omega
        · generalize (nextChar io s).1 = next at *
          cases next with
          | some next =>
              have length := now.size
              have furnished := inductionHypothesis next still now countedNow
                (par ▸ countableNow) (.inr (by rw [par]; omega))
                (by omega) (by rw [par]; exact maxlen) (by rw [par]; exact room)
                (by rw [par]; exact small)
              exact ⟨furnished.positive, furnished.short,
                packs.trans furnished.packs, furnished.supplied⟩
          | none =>
              have wrote : 0 < after :=
                something.resolve_right fun counts => absurd counts.1 (by simp)
              refine ⟨?_, ?_, packs, still⟩
              · show (0 : Int) < (t.k.enc.size : Int)
                omega
              · show (t.k.enc.size : Int) + 3 < 1000
                omega

/-- The leftovers are copied to the front of the next field. -/
theorem Supplied.copyRemain
    {s : Sys ω}
    (supplied : Supplied s) :
    (∃ tail, Holds s.k.enc.sRemain (0 :: tail) (Kermit.copyRemain s.k)) ∧
      Supplied { s with k := Kermit.copyRemain s.k } ∧
      (Kermit.copyRemain s.k).enc.sRpt = s.k.enc.sRpt ∧
      (Kermit.copyRemain s.k).enc.sFirst = s.k.enc.sFirst := by
  have memory := xdataMem_pokeXdata 0 (s.k.enc.sRemain ++ [0]) s.k
  rw [poke_zero, List.append_assoc] at memory
  refine ⟨⟨_, memory, rfl⟩, ?_⟩
  obtain ⟨-, _, _, same⟩ := copyRemain_holds s.k
  obtain ⟨⟨noForce, small, room, noString⟩, counted, -, ended⟩ := supplied
  rw [same]
  exact
    ⟨⟨⟨noForce, small, room, noString⟩, counted, Nat.zero_le 6, ended⟩, rfl,
      rfl⟩

theorem Furnished.after
    {s t : Sys ω}
    (packs : Packs s t)
    {result : Int × Sys ω}
    (furnished : Furnished t result) :
    Furnished s result :=
  ⟨furnished.positive, furnished.short, packs.trans furnished.packs,
    furnished.supplied⟩

/-- `getpkt()` from the leftovers on, when there are any or the file goes on. -/
theorem getpktRest_furnishes
    (io : Io ω)
    (c : UInt8)
    {s : Sys ω}
    (supplied : Supplied s)
    (something : s.k.enc.sFirst = -1 → s.k.enc.sRemain ≠ []) :
    Furnished s (getpktRest io c s) := by
  obtain ⟨⟨tail, holds⟩, copied, sRpt, sFirst⟩ := supplied.copyRemain
  obtain ⟨held, counted, countable⟩ := supplied.counted
  have packs := copyRemain_packs s
  have par : (copyRemain s.k).par = s.k.par := packs.settings.2
  have few := supplied.few
  unfold getpktRest
  dsimp only
  split
  · rename_i ended
    have some := List.length_pos_iff.mpr (something (sFirst.symm.trans ended))
    have size := holds.size
    refine ⟨?_, ?_, packs, copied⟩
    · show (0 : Int) < ((copyRemain s.k).enc.size : Int)
      omega
    · show ((copyRemain s.k).enc.size : Int) + 3 < 1000
      omega
  · exact (getpktLoop_furnishes io getpktFuel c copied holds
      (sRpt.trans counted) (par ▸ countable) (.inl few)
      (.inr (by unfold getpktFuel pPktlen; omega))).after packs

/-- A call of `getpkt()` that returns nothing has seen the end of the file. -/
structure Exhausted
    (s : Sys ω)
    (result : Int × Sys ω) : Prop where
  nothing : result.1 = 0
  seen : .readf none ∈ result.2.log
  packs : Packs s result.2

/-- The first character of the file, or its end. -/
theorem getpktFirst_supplied
    (io : Io ω)
    {s : Sys ω}
    (supplied : Supplied s) :
    Packs s (getpktFirst io s).2 ∧
      ((getpktFirst io s).1 = none → .readf none ∈ (getpktFirst io s).2.log) ∧
      ∀ c, (getpktFirst io s).1 = some c →
        Supplied (getpktFirst io s).2 ∧
          (getpktFirst io s).2.k.enc.sFirst = 0 := by
  obtain ⟨⟨noForce, small, room, noString⟩, counted, -, -⟩ := supplied
  obtain ⟨reads, ended⟩ :=
    zgetc_reads io { s with k.enc.sFirst := 0, k.enc.sRemain := [] }
  have read := nextChar_zgetc io
    (s := { s with k.enc.sFirst := 0, k.enc.sRemain := [] }) noString
  unfold getpktFirst
  dsimp only
  rw [read]
  generalize (zgetc io
    { s with k.enc.sFirst := 0, k.enc.sRemain := [] }).2 = u at *
  obtain ⟨zin, w, answers, rfl⟩ := reads
  generalize (zgetc io
    { s with k.enc.sFirst := 0, k.enc.sRemain := [] }).1 = next at *
  have supplied : ∀ sofarRumor,
      Supplied
        { s with
          k :=
            { s.k with
              zin := zin
              enc :=
                { s.k.enc with
                  sFirst := 0, sRemain := [], cgetpkt := next } }
          r.sofarRumor := sofarRumor
          w := w
          log := answers.map .readf ++ s.log } :=
    fun _ => ⟨⟨noForce, small, room, noString⟩, counted, Nat.zero_le 6,
      fun ends => absurd (show (0 : Int) = -1 from ends) (by decide)⟩
  cases next with
  | none =>
      refine ⟨⟨_, s.k.ipktbuf, zin, s.r.sofarRumor, w, answers, ?_, ?_, rfl⟩,
        ended, fun _ some => absurd some (by simp)⟩
      · rfl
      · rfl
  | some c =>
      dsimp only
      split
      · refine ⟨⟨_, s.k.ipktbuf, zin, s.r.sofarRumor + 1, w, answers, ?_, ?_,
          rfl⟩, fun none => absurd none (by simp), fun _ _ =>
            ⟨supplied _, rfl⟩⟩
        · rfl
        · rfl
      · refine ⟨⟨_, s.k.ipktbuf, zin, s.r.sofarRumor, w, answers, ?_, ?_,
          rfl⟩, fun none => absurd none (by simp), fun _ _ =>
            ⟨supplied _, rfl⟩⟩
        · rfl
        · rfl

/-- `getpkt()` fills a field that fits, unless the file has ended. -/
theorem getpkt_furnishes
    (io : Io ω)
    {s : Sys ω}
    (supplied : Supplied s) :
    Exhausted s (getpkt io s) ∨ Furnished s (getpkt io s) := by
  have forced : forceBcta3 s.k = s.k := by
    simp [forceBcta3, supplied.packing.noForce]
  unfold getpkt
  rw [forced]
  dsimp only
  split
  · obtain ⟨packs, ended, goesOn⟩ := getpktFirst_supplied io supplied
    generalize getpktFirst io s = first at *
    obtain ⟨next, t⟩ := first
    cases next with
    | none =>
        exact .inl ⟨rfl, ended rfl, packs⟩
    | some c =>
        obtain ⟨suppliedNow, begun⟩ := goesOn c rfl
        exact .inr ((getpktRest_furnishes io c suppliedNow fun ends =>
          absurd (begun.symm.trans ends) (by decide)).after packs)
  · split
    · rename_i done
      refine .inl ⟨rfl, supplied.ended done.1,
        ⟨_, s.k.ipktbuf, s.k.zin, s.r.sofarRumor, s.w, [], ?_, ?_, rfl⟩⟩
      · rfl
      · rfl
    · rename_i notFirst more
      exact .inr (getpktRest_furnishes io _ supplied fun ends nothing =>
        more ⟨ends, nothing⟩)

end Slate106.Kermit
