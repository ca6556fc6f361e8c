import Slate106.KermitTransfer

namespace Slate106.Kermit

open CBytes

/-!
# The F packet

`encstr()` encodes the name of the file into the memory it reads it from.  What
it does to the session is small whatever it reads, and the ACK to S brings the
server to the first packet of a file.
-/

variable {ω : Type}

/-! ## Encoding a string -/

/-- Only the encoder, its data field and the character count differ. -/
def Spells
    (s s' : Sys ω) : Prop :=
  ∃ enc ipktbuf sofarRumor,
    s' =
      { s with
        k := { s.k with enc := enc, ipktbuf := ipktbuf }
        r.sofarRumor := sofarRumor } ∧
    enc.xdata = s.k.enc.xdata

theorem Spells.trans
    {s s' s'' : Sys ω}
    (first : Spells s s')
    (second : Spells s' s'') :
    Spells s s'' := by
  obtain ⟨_, _, _, rfl, xdata⟩ := first
  obtain ⟨enc, ipktbuf, sofarRumor, rfl, xdata'⟩ := second
  exact ⟨enc, ipktbuf, sofarRumor, rfl, xdata'.trans xdata⟩

theorem Writes.spells
    {s : Sys ω}
    {k' : KData}
    (writes : Writes s.k k') :
    Spells s { s with k := k' } := by
  obtain ⟨sRpt, size, osize, xdatabuf, ipktbuf, rfl⟩ := writes
  exact ⟨_, ipktbuf, s.r.sofarRumor, rfl, rfl⟩

/-- A character of a string is read without any call. -/
theorem nextChar_string
    (io : Io ω)
    {s : Sys ω}
    {text : StrRef}
    {offset : Nat}
    (string : s.k.enc.istring = some (text, offset)) :
    (nextChar io s).2 =
      { s with k.enc.istring := some (text, offset + 1) } := by
  unfold nextChar
  rw [string]

/-- A turn that writes nothing only counts. -/
theorem encode_counts
    (io : Io ω)
    {held : Nat}
    {a : UInt8}
    {next : Option UInt8}
    {s : Sys ω}
    (counted : s.k.enc.sRpt = held)
    (nothing : (turnRuns s.k.par.rptflg held a next).2 = []) :
    encode io a next s = { s with k.enc.sRpt := s.k.enc.sRpt + 1 } := by
  obtain ⟨-, same, copies⟩ := turnRuns_nil nothing
  have counts : s.k.par.rptflg ≠ 0 ∧ some a = next ∧ held + 1 < 236 := by
    by_contra other
    unfold turnHeld at copies
    rw [if_neg other] at copies
    omega
  obtain ⟨flag, again, few⟩ := counts
  have fewer : s.k.enc.sRpt + 1 < 236 := by
    omega
  unfold encode
  rw [if_pos flag, if_pos again]
  dsimp only
  rw [if_pos fewer]

/-- The head of a turn of `getpkt()` on a string. -/
structure Spelling
    (field : List UInt8)
    (held : Nat)
    (s : Sys ω) : Prop where
  string : s.k.enc.istring ≠ none
  holds : ∃ tail, Holds field (0 :: tail) s.k
  counted : s.k.enc.sRpt = held
  countable : Countable s.k.par.rptflg held
  below : field = [] ∧ held = 0 ∨
    (field.length : Int) < getpktMaxlen s.k.par
  small : s.k.par.sMaxlen ≤ pPktlen

/-- `encode()` has room for what a turn adds. -/
theorem Spelling.room
    {field : List UInt8}
    {held : Nat}
    {s : Sys ω}
    (spelling : Spelling field held s) :
    field.length + 8 ≤ pPktlen ∧
      (held = 1 → (field.length : Int) + 7 ≤ s.k.par.sMaxlen) := by
  have small := spelling.small
  rcases spelling.below with ⟨rfl, rfl⟩ | below
  · exact ⟨by decide, fun one => absurd one (by decide)⟩
  · unfold getpktMaxlen at below
    exact ⟨by omega, fun _ => by omega⟩

/-- What a turn has done to the field. -/
structure SpellTurn
    (field early late : List UInt8)
    (held : Nat)
    (s s' : Sys ω) : Prop where
  spells : Spells s s'
  reads : s'.k.enc.istring =
    s.k.enc.istring.map (fun read => (read.1, read.2 + 1))
  holds : ∃ tail, Holds (field ++ (early ++ late)) (0 :: tail) s'.k
  osize : s'.k.enc.osize = (field ++ early).length
  short : early.length ≤ 3
  counted : s'.k.enc.sRpt = held

theorem length_earlyRuns
    (cfg : Config)
    (p : Params)
    (held : Nat)
    (c : UInt8)
    (next : Option UInt8) :
    (encodeRuns cfg p (turnRuns p.rptflg held c next).1).length ≤ 3 := by
  have once := (length_encodeBytes cfg p c).2
  unfold turnRuns
  repeat' split
  all_goals simp [encodeRun_once]
  exact once

theorem Spelling.spellTurn
    (io : Io ω)
    {field : List UInt8}
    {held : Nat}
    {s : Sys ω}
    (spelling : Spelling field held s)
    (c : UInt8) :
    SpellTurn field
      (encodeRuns s.k.cfg s.k.par
        (turnRuns s.k.par.rptflg held c (nextChar io s).1).1)
      (encodeRuns s.k.cfg s.k.par
        (turnRuns s.k.par.rptflg held c (nextChar io s).1).2)
      (turnHeld s.k.par.rptflg held c (nextChar io s).1)
      s (turn io c s) := by
  obtain ⟨room, early⟩ := spelling.room
  obtain ⟨string, ⟨tail, holds⟩, counted, countable, below, small⟩ := spelling
  obtain ⟨⟨text, offset⟩, string⟩ := Option.ne_none_iff_exists'.mp string
  have read := nextChar_string io string
  have short := length_earlyRuns s.k.cfg s.k.par held c (nextChar io s).1
  unfold turn
  rw [read]
  generalize (nextChar io s).1 = next at *
  obtain ⟨sFirst, sofarRumor, noted⟩ : ∃ sFirst sofarRumor,
      noteChar next { s with k.enc.istring := some (text, offset + 1) } =
        { s with
          k.enc.istring := some (text, offset + 1), k.enc.sFirst := sFirst
          r.sofarRumor := sofarRumor } := by
    unfold noteChar
    split
    · exact ⟨_, _, rfl⟩
    · exact ⟨_, _, rfl⟩
  rw [noted]
  unfold encodeNext
  dsimp only
  have start : Spells s
      { s with
        k.enc.istring := some (text, offset + 1), k.enc.sFirst := sFirst
        k.enc.osize := s.k.enc.size, r.sofarRumor := sofarRumor } :=
    ⟨_, s.k.ipktbuf, sofarRumor, rfl, rfl⟩
  obtain ⟨k', same, turned⟩ := encode_turned io c next
    (s := { s with
      k.enc.istring := some (text, offset + 1), k.enc.sFirst := sFirst
      k.enc.osize := s.k.enc.size, r.sofarRumor := sofarRumor })
    ⟨holds.memory, holds.size⟩ holds.size counted countable room
    (fun one _ => early one)
  have counts := @encode_counts _ io held c next
    { s with
      k.enc.istring := some (text, offset + 1), k.enc.sFirst := sFirst
      k.enc.osize := s.k.enc.size, r.sofarRumor := sofarRumor } counted
  rw [same] at counts ⊢
  obtain ⟨⟨tail', now, ended⟩, osize, sRpt, writes⟩ := turned
  have wrote := start.trans writes.spells
  have terminated : ∃ tail, Holds (field ++
      (encodeRuns s.k.cfg s.k.par (turnRuns s.k.par.rptflg held c next).1 ++
        encodeRuns s.k.cfg s.k.par (turnRuns s.k.par.rptflg held c next).2))
      (0 :: tail) k' := by
    by_cases nothing : (turnRuns s.k.par.rptflg held c next).2 = []
    · have same := congrArg Sys.k (counts nothing)
      dsimp only at same
      rw [nothing, (turnRuns_nil nothing).1, same]
      exact ⟨tail, holds.memory.trans (by simp), holds.size.trans (by simp)⟩
    · obtain ⟨rest, rfl⟩ := List.head?_eq_some_iff.mp (ended nothing)
      exact ⟨rest, now⟩
  obtain ⟨rest, terminated⟩ := terminated
  refine ⟨wrote.trans ⟨_, k'.ipktbuf, sofarRumor, rfl, rfl⟩, ?_,
    ⟨rest, terminated.memory, terminated.size⟩, osize, short, sRpt⟩
  obtain ⟨_, _, _, _, _, rfl⟩ := writes
  rw [string]
  rfl

/-- Something is read from the string in the next turn, too. -/
theorem SpellTurn.string
    {field early late : List UInt8}
    {held : Nat}
    {s s' : Sys ω}
    (spelt : SpellTurn field early late held s s')
    (string : s.k.enc.istring ≠ none) :
    s'.k.enc.istring ≠ none := by
  rw [spelt.reads]
  simpa using string

theorem Spelling.settings
    (io : Io ω)
    {field : List UInt8}
    {held : Nat}
    {s : Sys ω}
    (spelling : Spelling field held s)
    (c : UInt8) :
    (turn io c s).k.cfg = s.k.cfg ∧ (turn io c s).k.par = s.k.par := by
  obtain ⟨_, _, _, same, _⟩ := (spelling.spellTurn io c).spells
  rw [same]
  exact ⟨rfl, rfl⟩

/-- The bytes that a turn adds to the field. -/
def turnBytes
    (cfg : Config)
    (p : Params)
    (held : Nat)
    (c : UInt8)
    (next : Option UInt8) : List UInt8 :=
  encodeRuns cfg p (turnRuns p.rptflg held c next).1 ++
    encodeRuns cfg p (turnRuns p.rptflg held c next).2

/-- While the field is not full, the next turn is one of the string, too. -/
theorem Spelling.goesOn
    (io : Io ω)
    {field : List UInt8}
    {held : Nat}
    {s : Sys ω}
    (spelling : Spelling field held s)
    (c : UInt8)
    {next : Option UInt8}
    (read : (nextChar io s).1 = next)
    (below :
      ((field ++ turnBytes s.k.cfg s.k.par held c next).length : Int) <
        getpktMaxlen s.k.par) :
    Spelling (field ++ turnBytes s.k.cfg s.k.par held c next)
        (turnHeld s.k.par.rptflg held c next) (turn io c s) ∧
      turnsLeft s.k.par
          (field ++ turnBytes s.k.cfg s.k.par held c next).length
          (turnHeld s.k.par.rptflg held c next) <
        turnsLeft s.k.par field.length held := by
  subst read
  obtain ⟨-, par⟩ := spelling.settings io c
  have spelt := spelling.spellTurn io c
  have string := spelt.string spelling.string
  unfold turnBytes at *
  simp only [List.length_append] at below ⊢
  refine ⟨⟨string, spelt.holds, spelt.counted, ?_, .inr ?_, ?_⟩,
    turnsLeft_runs s.k.cfg spelling.countable c _ (by exact_mod_cast below)⟩
  · rw [par]
    exact turnHeld_countable ..
  · rw [par]
    simp only [List.length_append]
    exact below
  · rw [par]
    exact spelling.small

/-- What `getpkt()` on a string leaves, for a field of at most `maxlen`. -/
structure Spelt
    (s s' : Sys ω) : Prop where
  spells : Spells s s'
  ended : ∃ n : Nat, peek (xdataMem s'.k) n = 0 ∧
    (n : Int) ≤ max (getpktMaxlen s.k.par) 0 + 3
  counted : ∃ held : Nat, s'.k.enc.sRpt = held ∧ held ≤ 1 ∧
    (1 ≤ getpktMaxlen s.k.par ∨ s.k.par.rptflg = 0 → held = 0)

theorem cutBack_spells
    (s : Sys ω) :
    Spells s { s with k := cutBack s.k } ∧
      peek (xdataMem (cutBack s.k)) s.k.enc.osize = 0 ∧
      (cutBack s.k).enc.sRpt = s.k.enc.sRpt := by
  have memory := xdataMem_pokeXdata s.k.enc.osize [0]
    { s.k with
      enc.sRemain := cstrAt (xdataMem s.k) s.k.enc.osize
      enc.size := s.k.enc.osize }
  refine ⟨?_, ?_, ?_⟩
  · unfold cutBack pokeXdata
    dsimp only
    split
    · exact ⟨_, _, s.r.sofarRumor, rfl, rfl⟩
    · exact ⟨_, _, s.r.sofarRumor, rfl, rfl⟩
  · unfold cutBack
    rw [memory]
    exact @peek_poke_inside _ s.k.enc.osize [0] 0 (by simp)
  · unfold cutBack pokeXdata
    dsimp only
    split <;> rfl

theorem Spelt.after
    {s t s' : Sys ω}
    (first : Spells s t)
    (spelt : Spelt t s') :
    Spelt s s' := by
  obtain ⟨spells, ended, counted⟩ := spelt
  obtain ⟨_, _, _, rfl, _⟩ := id first
  exact ⟨first.trans spells, ended, counted⟩

/-- The count that a last turn leaves. -/
theorem Spelling.lastCount
    {field : List UInt8}
    {held : Nat}
    {s : Sys ω}
    (spelling : Spelling field held s)
    (c : UInt8)
    (next : Option UInt8)
    (last :
      (turnRuns s.k.par.rptflg held c next).2 = [] →
        getpktMaxlen s.k.par ≤ field.length) :
    turnHeld s.k.par.rptflg held c next ≤ 1 ∧
      (1 ≤ getpktMaxlen s.k.par ∨ s.k.par.rptflg = 0 →
        turnHeld s.k.par.rptflg held c next = 0) := by
  by_cases nothing : (turnRuns s.k.par.rptflg held c next).2 = []
  · have full := last nothing
    obtain ⟨rfl, rfl⟩ := spelling.below.resolve_right (by omega)
    have copies := (turnRuns_nil nothing).2.2
    have counting :=
      (turnHeld_countable s.k.par.rptflg 0 c next).counting
    simp only [List.length_nil] at full
    refine ⟨by omega, ?_⟩
    rintro (room | noCounts)
    · exact absurd full (by omega)
    · exact counting noCounts
  · have none := turnHeld_of_runs nothing
    exact ⟨by omega, fun _ => none⟩

/-- The loop of `getpkt()` on a string. -/
theorem getpktLoop_spelt
    (io : Io ω)
    {turns : Nat}
    {field : List UInt8}
    {held : Nat}
    (c : UInt8)
    {s : Sys ω}
    (spelling : Spelling field held s)
    (enough : turnsLeft s.k.par field.length held < turns) :
    Spelt s (getpktLoop io turns c s).2 := by
  induction turns generalizing field held c s with
  | zero =>
      exact absurd enough (Nat.not_lt_zero _)
  | succ turns inductionHypothesis =>
      have string := (spelling.spellTurn io c).string spelling.string
      obtain ⟨spells, -, ⟨tail, holds⟩, osize, short, counted⟩ :=
        spelling.spellTurn io c
      have settings := spelling.settings io c
      have below := spelling.below
      have size := holds.size
      have zero : peek (xdataMem (turn io c s).k) (turn io c s).k.enc.size =
          0 := by
        rw [holds.memory, size, peek_append_right (Nat.le_refl _),
          Nat.sub_self]
        rfl
      have idle : (turnRuns s.k.par.rptflg held c (nextChar io s).1).2 = [] →
          (turn io c s).k.enc.size = field.length := by
        intro nothing
        rw [size, (turnRuns_nil nothing).1, nothing]
        simp
      have last := spelling.lastCount c (nextChar io s).1
      simp only [List.length_append] at size osize
      rw [getpktLoop_succ]
      dsimp only
      rw [settings.2]
      by_cases full : ((turn io c s).k.enc.size : Int) = getpktMaxlen s.k.par
      · rw [if_pos full]
        refine ⟨spells, ⟨_, zero, by omega⟩, _, counted, last ?_⟩
        intro nothing
        exact Int.le_of_eq (by rw [← full, idle nothing])
      rw [if_neg full]
      by_cases beyond : ((turn io c s).k.enc.size : Int) > getpktMaxlen s.k.par
      · rw [if_pos beyond]
        obtain ⟨cut, ended, count⟩ := cutBack_spells (turn io c s)
        refine ⟨spells.trans cut, ⟨_, ended, ?_⟩, _, count.trans counted,
          last ?_⟩
        · rw [osize]
          rcases below with ⟨rfl, -⟩ | below
          · simp only [List.length_nil]
            omega
          · omega
        · intro nothing
          rw [idle nothing] at beyond
          omega
      rw [if_neg beyond]
      cases read : (nextChar io s).1 with
      | none =>
          refine ⟨spells, ⟨_, zero, by omega⟩, _, counted, last ?_⟩
          intro nothing
          have same := (turnRuns_nil nothing).2.1
          rw [read] at same
          exact absurd same (by simp)
      | some next =>
          rw [read] at size
          obtain ⟨spellingNow, fewer⟩ := spelling.goesOn io c read (by
            unfold turnBytes
            simp only [List.length_append]
            omega)
          refine (inductionHypothesis next spellingNow ?_).after spells
          rw [settings.2]
          omega

/-- `getpkt()` on a string enters its loop with the first character. -/
structure Begun
    (text : StrRef)
    (s t : Sys ω) : Prop where
  spells : Spells s t
  spelling : Spelling [] 0 t
  reads : t.k.enc.istring = some (text, 1)

/-- The session when `getpkt()` has read the first character of a string. -/
def firstRead
    (text : StrRef)
    (s : Sys ω) : Sys ω :=
  { s with
    k.enc.sFirst := 0, k.enc.sRemain := []
    k.enc.istring := some (text, 1)
    k.enc.cgetpkt := some (derefAt s 0 text)
    r.sofarRumor :=
      if s.k.state = State.sData then s.r.sofarRumor + 1
      else s.r.sofarRumor }

/-- The session when `getpkt()` on a string enters its loop. -/
def begun
    (text : StrRef)
    (s : Sys ω) : Sys ω :=
  { firstRead text s with k := copyRemain (firstRead text s).k }

theorem getpkt_string
    (io : Io ω)
    {s : Sys ω}
    {text : StrRef}
    (noForce : s.k.cfg.bcta3 = 0)
    (flag : s.k.enc.sFirst = 1)
    (string : s.k.enc.istring = some (text, 0))
    (some : derefAt s 0 text ≠ 0) :
    getpkt io s =
      getpktLoop io getpktFuel (derefAt s 0 text) (begun text s) := by
  have forced : forceBcta3 s.k = s.k := by
    simp [forceBcta3, noForce]
  have read : nextChar io
      { s with k.enc.sFirst := 0, k.enc.sRemain := [] } =
      (Option.some (derefAt s 0 text),
        { s with
          k.enc.sFirst := 0, k.enc.sRemain := []
          k.enc.istring := Option.some (text, 1) }) := by
    unfold nextChar
    dsimp only
    rw [string]
    cases text
    all_goals
      unfold derefAt at some ⊢
      dsimp only at some ⊢
      rw [if_neg some]
  have first : getpktFirst io s =
      (Option.some (derefAt s 0 text), firstRead text s) := by
    unfold getpktFirst firstRead
    rw [read]
    dsimp only
    split
    · rfl
    · rfl
  have started : ∀ k : KData, k.enc.sFirst = 0 →
      ¬ (copyRemain k).enc.sFirst = -1 := by
    intro k zero ended
    obtain ⟨-, xdatabuf, ipktbuf, same⟩ := copyRemain_holds k
    rw [same] at ended
    exact absurd (zero.symm.trans ended) (by decide)
  unfold getpkt
  rw [forced]
  dsimp only
  rw [if_pos flag, first]
  dsimp only
  unfold getpktRest
  dsimp only
  rw [if_neg (started _ rfl)]
  rfl

/-- Nothing is written for the empty string. -/
theorem getpkt_empty
    (io : Io ω)
    {s : Sys ω}
    {text : StrRef}
    (noForce : s.k.cfg.bcta3 = 0)
    (flag : s.k.enc.sFirst = 1)
    (string : s.k.enc.istring = some (text, 0))
    (empty : derefAt s 0 text = 0) :
    getpkt io s =
      (0,
        { s with
          k.enc.sFirst := -1, k.enc.sRemain := []
          k.enc.istring := some (text, 1), k.enc.cgetpkt := none
          k.enc.size := 0 }) := by
  have forced : forceBcta3 s.k = s.k := by
    simp [forceBcta3, noForce]
  have read : nextChar io
      { s with k.enc.sFirst := 0, k.enc.sRemain := [] } =
      (none,
        { s with
          k.enc.sFirst := 0, k.enc.sRemain := []
          k.enc.istring := some (text, 1) }) := by
    unfold nextChar
    dsimp only
    rw [string]
    cases text
    all_goals
      unfold derefAt at empty ⊢
      dsimp only at empty ⊢
      rw [if_pos empty]
  unfold getpkt
  rw [forced]
  dsimp only
  rw [if_pos flag]
  unfold getpktFirst
  dsimp only
  rw [read]

theorem begun_string
    {s : Sys ω}
    (text : StrRef)
    (counted : s.k.enc.sRpt = 0)
    (small : s.k.par.sMaxlen ≤ pPktlen) :
    Begun text s (begun text s) := by
  unfold begun
  generalize known : firstRead text s = t
  have start : Spells s t :=
    known ▸ ⟨_, s.k.ipktbuf, _, rfl, rfl⟩
  have nothing : t.k.enc.sRemain = [] := known ▸ rfl
  have reading : t.k.enc.istring = some (text, 1) := known ▸ rfl
  have countedNow : t.k.enc.sRpt = 0 := known ▸ counted
  have smallNow : t.k.par.sMaxlen ≤ pPktlen := known ▸ small
  obtain ⟨⟨tail, holds⟩, xdatabuf, ipktbuf, same⟩ := copyRemain_holds t.k
  have memory : xdataMem (copyRemain t.k) = 0 :: (xdataMem t.k).drop 1 := by
    have stored := xdataMem_pokeXdata 0 (t.k.enc.sRemain ++ [0]) t.k
    rw [nothing] at stored
    unfold copyRemain
    rw [nothing]
    exact stored.trans (poke_zero _ _)
  have string : (copyRemain t.k).enc.istring = some (text, 1) := by
    rw [same]
    exact reading
  have copied : Spells t { t with k := copyRemain t.k } := by
    rw [same]
    exact ⟨_, ipktbuf, t.r.sofarRumor, rfl, rfl⟩
  refine ⟨start.trans copied, ⟨?_, ⟨_, memory, ?_⟩, ?_, countable_zero _,
    .inl ⟨rfl, rfl⟩, ?_⟩, string⟩
  · show (copyRemain t.k).enc.istring ≠ none
    rw [string]
    exact Option.some_ne_none _
  · rw [holds.size, nothing]
  · rw [same]
    exact countedNow
  · show (copyRemain t.k).par.sMaxlen ≤ pPktlen
    rw [same]
    exact smallNow

/-- `getpkt()` on a string that is kept in `xdatabuf`. -/
theorem getpkt_spelt
    (io : Io ω)
    {s : Sys ω}
    (noForce : s.k.cfg.bcta3 = 0)
    (flag : s.k.enc.sFirst = 1)
    (string : s.k.enc.istring = some (.xdatabuf, 0))
    (place : s.k.enc.xdata = .xdatabuf)
    (counted : s.k.enc.sRpt = 0)
    (small : s.k.par.sMaxlen ≤ pPktlen) :
    Spelt s (getpkt io s).2 := by
  by_cases empty : peek s.k.enc.xdatabuf 0 = 0
  · rw [getpkt_empty io noForce flag string empty]
    refine ⟨⟨_, s.k.ipktbuf, s.r.sofarRumor, rfl, rfl⟩, ⟨0, ?_, by omega⟩,
      0, counted, by omega, fun _ => rfl⟩
    unfold xdataMem
    dsimp only
    rw [place]
    exact empty
  · obtain ⟨spells, spelling, -⟩ := begun_string .xdatabuf counted small
    rw [getpkt_string io noForce flag string empty]
    exact (getpktLoop_spelt io _ spelling
      (turnsLeft_lt_getpktFuel spelling.small _ _)).after spells

/-- What `encstr()` leaves. -/
structure Named
    (s s' : Sys ω) : Prop where
  spells : Spells s s'
  noString : s'.k.enc.istring = none
  flag : s'.k.enc.sFirst = 1
  short : ((cstr (xdataMem s'.k)).length : Int) ≤
    max (getpktMaxlen s.k.par) 0 + 3
  counted : ∃ held : Nat, s'.k.enc.sRpt = held ∧ held ≤ 1 ∧
    (1 ≤ getpktMaxlen s.k.par ∨ s.k.par.rptflg = 0 → held = 0)

theorem encstr_named
    (io : Io ω)
    {s : Sys ω}
    (noForce : s.k.cfg.bcta3 = 0)
    (place : s.k.enc.xdata = .xdatabuf)
    (counted : s.k.enc.sRpt = 0)
    (small : s.k.par.sMaxlen ≤ pPktlen) :
    Named s (encstr io .xdatabuf s).2 := by
  obtain ⟨⟨enc, ipktbuf, sofarRumor, same, xdata⟩, ⟨n, zero, short⟩, count⟩ :=
    @getpkt_spelt _ io
      { s with k.enc.sFirst := 1, k.enc.istring := some (.xdatabuf, 0) }
      noForce rfl rfl place counted small
  unfold encstr
  dsimp only
  rw [same] at zero count ⊢
  refine ⟨⟨_, ipktbuf, sofarRumor, rfl, xdata⟩, rfl, rfl, ?_, count⟩
  exact Int.le_trans (Int.ofNat_le.mpr (length_cstr_le zero)) short

/-! ## What can be negotiated -/

/-- What holds of the parameters before and after `spar()`. -/
structure Negotiable
    (p : Params) : Prop where
  binary : p.binary = 1
  check : 1 ≤ p.bct ∧ p.bct ≤ 3
  small : p.sMaxlen ≤ pPktlen
  parity : p.parity ≠ 0 ↔ p.ebqflg ≠ 0
  repeats : p.rptflg ≠ 0 → isPrefixChar p.rptq = true ∨ p.rptq = prefixRepeat

theorem sparBasic_negotiable
    {p : Params}
    (negotiable : Negotiable p)
    (fld : Nat → UInt8)
    (datalen : Int) :
    Negotiable (sparBasic fld datalen p) := by
  obtain ⟨binary, check, small, parity, repeats⟩ := negotiable
  have short : (xunchar (fld 1)).toNat ≤ pPktlen := by
    have byte := (xunchar (fld 1)).toNat_lt
    unfold pPktlen
    omega
  unfold sparBasic
  dsimp only
  refine ⟨?_, ?_, ?_, ?_, ?_⟩
  · split <;> split <;> split <;> split <;> exact binary
  · split <;> split <;> split <;> split <;> exact check
  · split <;> split <;> split <;> split <;> first | exact short | exact small
  · split <;> split <;> split <;> split <;> exact parity
  · split <;> split <;> split <;> split <;> exact repeats

theorem sparEbq_negotiable
    {p : Params}
    (negotiable : Negotiable p)
    (fld : Nat → UInt8)
    (datalen : Int) :
    Negotiable (sparEbq fld datalen p) := by
  obtain ⟨binary, check, small, parity, repeats⟩ := negotiable
  unfold sparEbq
  dsimp only
  split
  · split
    · refine ⟨binary, check, small, ?_, repeats⟩
      dsimp only
      split
      · decide
      · rename_i set
        exact ⟨fun _ => by decide, fun _ => set⟩
    · split
      · rename_i masked
        exact ⟨binary, check, small,
          ⟨fun _ => show (1 : Int) ≠ 0 by decide, fun _ => masked.2⟩, repeats⟩
      · exact ⟨binary, check, small, parity, repeats⟩
  · exact ⟨binary, check, small, parity, repeats⟩

theorem bctOf_bounds
    (c : UInt8) :
    1 ≤ bctOf c ∧ bctOf c ≤ 3 := by
  unfold bctOf
  repeat' split
  all_goals decide

theorem sparChecks_negotiable
    {cfg : Config}
    {p : Params}
    (negotiable : Negotiable p)
    (fld : Nat → UInt8)
    (datalen : Int) :
    Negotiable (sparChecks cfg fld datalen p) := by
  obtain ⟨binary, check, small, parity, repeats⟩ := negotiable
  have checked : Negotiable
      (if datalen ≥ 8 then
        { p with bct := if cfg.bcta3 ≠ 0 then 3 else bctOf (fld 8) }
      else p) := by
    split
    · refine ⟨binary, ?_, small, parity, repeats⟩
      dsimp only
      split
      · decide
      · exact bctOf_bounds _
    · exact ⟨binary, check, small, parity, repeats⟩
  unfold sparChecks
  dsimp only
  generalize (if datalen ≥ 8 then
    { p with bct := if cfg.bcta3 ≠ 0 then 3 else bctOf (fld 8) }
    else p) = q at checked
  split
  · rename_i counted
    exact ⟨checked.binary, checked.check, checked.small, checked.parity,
      fun _ => counted.2⟩
  · exact checked

theorem sparCapas_negotiable
    {cfg : Config}
    {p : Params}
    (negotiable : Negotiable p)
    (fld : Nat → UInt8)
    (datalen : Int) :
    Negotiable (sparCapas cfg fld datalen p) := by
  have allowed : Negotiable
      (if datalen ≥ 10 then
        { p with capas := capasAnd (xunchar (fld 10)).toUInt16 p.capas }
      else p) := by
    obtain ⟨binary, check, small, parity, repeats⟩ := negotiable
    split
    · exact ⟨binary, check, small, parity, repeats⟩
    · exact ⟨binary, check, small, parity, repeats⟩
  unfold sparCapas
  dsimp only
  generalize capasField fld datalen = y
  generalize
    (if datalen ≥ 10 then
      { p with capas := capasAnd (xunchar (fld 10)).toUInt16 p.capas }
    else p) = q at allowed
  have long : ∀ x : Nat, Negotiable
      { q with
        sMaxlen :=
          if (if x > pPktlen then pPktlen else x) < 10 then 60
          else if x > pPktlen then pPktlen else x } := by
    obtain ⟨binary, check, small, parity, repeats⟩ := allowed
    intro x
    refine ⟨binary, check, ?_, parity, repeats⟩
    dsimp only
    repeat' split
    all_goals simp only [pPktlen] at *
    all_goals omega
  have extended : ∀ x : Nat, Negotiable
      (if q.capas &&& capLp ≠ 0 ∧ datalen > y + 1 then
        { q with
          sMaxlen :=
            if (if x > pPktlen then pPktlen else x) < 10 then 60
            else if x > pPktlen then pPktlen else x }
      else q) := by
    intro x
    split
    · exact long x
    · exact allowed
  have extended := extended
    ((xunchar (fld (y + 2))).toNat * 95 + (xunchar (fld (y + 3))).toNat)
  generalize
    (if q.capas &&& capLp ≠ 0 ∧ datalen > y + 1 then _ else q) = t at extended
  obtain ⟨binary, check, small, parity, repeats⟩ := extended
  split
  · split
    · exact ⟨binary, check, small, parity, repeats⟩
    · exact ⟨binary, check, small, parity, repeats⟩
  · exact ⟨binary, check, small, parity, repeats⟩

/-- `spar()` accepts any string of parameters, and keeps them in bounds. -/
theorem sparParams_negotiable
    {cfg : Config}
    {p : Params}
    (negotiable : Negotiable p)
    (fld : Nat → UInt8)
    (datalen : Int) :
    Negotiable (sparParams cfg fld datalen p) :=
  sparCapas_negotiable
    (sparChecks_negotiable
      (sparEbq_negotiable
        (sparBasic_negotiable negotiable fld datalen) fld datalen) fld
      datalen) fld datalen

/-! ## The ACK to S -/

/-- A request for a file was accepted, and S is outstanding. -/
structure Requested
    (k : KData) : Prop where
  awaiting : Awaiting k
  state : k.state = .sInit
  what : k.what = .send
  filelist : k.filelist = [.xdatabuf]
  keeps : k.cfg.cancel = 0
  ctlq : k.cfg.sCtlq = prefixCtrl
  negotiable : Negotiable k.par
  noString : k.enc.istring = none
  counted : k.enc.sRpt = 0

/-- The parameters after the ACK to S. -/
def negotiated
    (k : KData)
    (p : Rcvd)
    (buf : List UInt8) : Params :=
  sparParams k.cfg (fun field => peek buf (p.pdf + field - 1)) p.datalen k.par

/-- The file is open and F is outstanding. -/
structure Announced
    {σ : Type}
    (os : Os σ)
    (q : Params)
    (opened : σ)
    (s s' : Sys (Unix σ)) : Prop where
  awaiting : Awaiting s'.k
  state : s'.k.state = .sFile
  what : s'.k.what = .send
  filelist : s'.k.filelist = []
  cfg : s'.k.cfg = s.k.cfg
  par : s'.k.par = q
  flag : s'.k.enc.sFirst = 1
  noString : s'.k.enc.istring = none
  counted : ∃ held : Nat, s'.k.enc.sRpt = held ∧ held ≤ 1 ∧
    (1 ≤ getpktMaxlen q ∨ q.rptflg = 0 → held = 0)
  zin : s'.k.zin = { zincnt := 0, zinptr := some [] }
  w : ∃ bytes, s'.w.os = (os.send opened bytes).2
  log : ∃ more frame, s'.log = more ++ s.log ∧ txds more = [frame] ∧
    frameType frame = ch 'F'

/-- A session in which the name is encoded, with the parameters `q`. -/
structure Naming
    (q : Params)
    (s t : Sys ω) : Prop where
  cfg : t.k.cfg = s.k.cfg
  par : t.k.par = q
  place : t.k.enc.xdata = .xdatabuf
  text : t.k.enc.xdatabuf = s.k.enc.xdatabuf
  counted : t.k.enc.sRpt = 0

/-- The one packet that was sent is F, with what `encstr()` made of the name. -/
structure NamedBy
    (io : Io ω)
    (q : Params)
    (s s' t : Sys ω) : Prop where
  naming : Naming q s t
  log : ∃ more seq, s'.log = more ++ s.log ∧
    txds more =
      [pktFrame q (ch 'F') seq
        (cstr (xdataMem (encstr io .xdatabuf t).2.k))]

section Announcing

variable {σ : Type}
variable {os : Os σ}

/-- The path of the file that was asked for. -/
def requestedPath
    (k : KData) : List UInt8 :=
  kaddRootpath k.cfg.rootpath (cstr k.enc.xdatabuf)

/-- `sendFile()` for a requested file opens it and sends F. -/
theorem sendFile_announced
    {s : Sys (Unix σ)}
    (linked : Linked (unixio os))
    (ready : Ready s.k)
    (place : s.k.enc.xdata = .xdatabuf)
    (counted : s.k.enc.sRpt = 0)
    (small : s.k.par.sMaxlen ≤ pPktlen)
    (sends : s.k.what = .send)
    {w : σ}
    (opened : os.fopen s.w.os (requestedPath s.k) = (true, w)) :
    (sendFile (unixio os) .xdatabuf [] s).1 = xOk ∧
      Announced os s.k.par w s (sendFile (unixio os) .xdatabuf [] s).2 ∧
      (∃ t, NamedBy (unixio os) s.k.par s
        (sendFile (unixio os) .xdatabuf [] s).2 t) ∧
      ∃ data, SentOne (ch 'F') data { s with k.filelist := [] }
        (sendFile (unixio os) .xdatabuf [] s).2 := by
  have noForce := ready.wf.noForce
  have path : os.fopen s.w.os
      (kaddRootpath s.k.cfg.rootpath (cstr s.k.enc.xdatabuf)) = (true, w) :=
    opened
  have route : callOpenf (unixio os) (cstr s.k.enc.xdatabuf) 1
      (takeName .xdatabuf [] s).r.filesize (takeName .xdatabuf [] s) =
      (xOk,
        { takeName .xdatabuf [] s with
          k.enc.sFirst := 1
          k.zin := { zincnt := 0, zinptr := some [] }
          w :=
            { s.w with
              os := w, ifile := true
              calls := .fopen (requestedPath s.k) "r" :: s.w.calls }
          log := .openf (cstr s.k.enc.xdatabuf) 1 xOk :: s.log }) := by
    simp [callOpenf, unixio, kopenfile, takeName, path, requestedPath]
  unfold sendFile
  dsimp only
  have name : deref (takeName .xdatabuf [] s) .xdatabuf =
      cstr s.k.enc.xdatabuf := rfl
  rw [name, route]
  dsimp only
  rw [if_neg (not_not.mpr rfl)]
  generalize known : ({ takeName .xdatabuf [] s with
    k.enc.sFirst := 1
    k.zin := { zincnt := 0, zinptr := some [] }
    w :=
      { s.w with
        os := w, ifile := true
        calls := .fopen (requestedPath s.k) "r" :: s.w.calls }
    log := .openf (cstr s.k.enc.xdatabuf) 1 xOk :: s.log } :
      Sys (Unix σ)) = t
  have readyNow : Ready t.k := by
    rw [← known]
    exact ready.same rfl rfl rfl rfl
  obtain ⟨⟨enc, ipktbuf, sofarRumor, spelt, -⟩, noString, flag, short,
    count⟩ := @encstr_named _ (unixio os) t (known ▸ noForce) (known ▸ place)
      (known ▸ counted) (known ▸ small)
  have par : t.k.par = s.k.par := known ▸ rfl
  have naming : Naming s.k.par s t :=
    ⟨known ▸ rfl, par, known ▸ place, known ▸ rfl, known ▸ counted⟩
  rw [par] at short count
  generalize encoded : (encstr (unixio os) .xdatabuf t).2 = u at *
  have readyNamed : Ready u.k := by
    rw [spelt]
    exact readyNow.same rfl rfl rfl rfl
  obtain ⟨readyThen, win, taken⟩ := readyNamed.takeSlot
  have same : xdataMem (onK (fun k => (takeSslot k).2) u).k =
        xdataMem u.k ∧
      (onK (fun k => (takeSslot k).2) u).k.enc = u.k.enc := by
    rw [taken]
    exact ⟨rfl, rfl⟩
  obtain ⟨cfgNow, parNow, sSeqNow, whatNow, listNow, zinNow, osNow, logNow⟩ :
      (onK (fun k => (takeSslot k).2) u).k.cfg = s.k.cfg ∧
        (onK (fun k => (takeSslot k).2) u).k.par = s.k.par ∧
        (onK (fun k => (takeSslot k).2) u).k.sSeq = s.k.sSeq ∧
        (onK (fun k => (takeSslot k).2) u).k.what = s.k.what ∧
        (onK (fun k => (takeSslot k).2) u).k.filelist = [] ∧
        (onK (fun k => (takeSslot k).2) u).k.zin =
          { zincnt := 0, zinptr := some [] } ∧
        (onK (fun k => (takeSslot k).2) u).w.os = w ∧
        (onK (fun k => (takeSslot k).2) u).log =
          .openf (cstr s.k.enc.xdatabuf) 1 xOk :: s.log := by
    rw [taken, spelt, ← known]
    exact ⟨rfl, rfl, rfl, rfl, rfl, rfl, rfl, rfl⟩
  generalize onK (fun k => (takeSslot k).2) u = v at *
  have fits : (pktFrame v.k.par (ch 'F') v.k.sSeq
      (spktData (-1) (some (xdataMem v.k)))).length < pBuflen := by
    rw [parNow, same.1]
    refine pktFrame_fits _ _ ?_
    show (cstr (xdataMem u.k)).length + _ < _
    unfold getpktMaxlen at short
    simp only [pPktlen] at *
    omega
  obtain ⟨fine, sent⟩ := spkt_sends linked
    (show isUnslotted (ch 'F') = false by decide) readyThen fits
  rw [if_neg (not_not.mpr fine)]
  have enc := sent.enc.trans same.2
  have one := (((sent.one (Packs.refl _)).later rfl rfl rfl rfl rfl rfl
    ⟨[], rfl, rfl⟩ : SentOne (ch 'F') _ v
      (setState .sFile (resetSofar
        (spkt (unixio os) (ch 'F') v.k.sSeq (-1) (some (xdataMem v.k))
          v).2)))).await
  refine ⟨rfl, ⟨one.awaiting, rfl, (sent.what.trans whatNow).trans sends,
    sent.filelist.trans listNow, sent.cfg.trans cfgNow,
    sent.par.trans parNow, ?_, ?_, ?_, sent.zin.trans zinNow, ?_, ?_⟩,
    ⟨t, naming, ?_⟩, _, one.of_quiet sSeqNow cfgNow parNow whatNow listNow
      ⟨[_], logNow, rfl⟩⟩
  · exact (congrArg Encoder.sFirst enc).trans flag
  · exact (congrArg Encoder.istring enc).trans noString
  · obtain ⟨held, is, few, none⟩ := count
    exact ⟨held, (congrArg Encoder.sRpt enc).trans is, few, none⟩
  · refine ⟨pktFrame v.k.par (ch 'F') v.k.sSeq
      (spktData (-1) (some (xdataMem v.k))), ?_⟩
    rw [← osNow]
    exact congrArg Unix.os sent.w
  · obtain ⟨more, log, frames⟩ := one.log
    rw [logNow, List.append_cons] at log
    exact ⟨_, _, log, (txds_append _ _).trans (congrArg (· ++ []) frames),
      frameType_pktFrame _ _ _ _⟩
  · obtain ⟨more, log, frames⟩ := one.log
    rw [logNow, List.append_cons] at log
    refine ⟨_, v.k.sSeq, log, ?_⟩
    rw [txds_append, frames, parNow, same.1, encoded]
    rfl

/-- In `S_INIT` an ACK sets the parameters and asks for the file. -/
theorem afterAck_initial
    {io : Io ω}
    {s : Sys ω}
    (initial : s.k.state = .sInit)
    (filelist : s.k.filelist = [.xdatabuf])
    {buf : List UInt8}
    {win : Windows}
    (freed : acknowledge 0 { s.k with ipktbuf := buf } =
      { s.k with ipktbuf := buf, win := win })
    (msg : List UInt8)
    (p : Rcvd) :
    afterAck io msg p buf s =
      sendFile io .xdatabuf []
        { s with
          k := nxtpkt
            { s.k with
              ipktbuf := buf, win := win, par := negotiated s.k p buf }
          r.sofar := s.r.sofarRumor } := by
  have switched : ∀ t : Sys ω, t.k.state = .sInit →
      stateStage io msg p t =
        nextFile io (onK (spar p.pdf p.datalen) t) := by
    intro t initial
    unfold stateStage
    rw [initial]
  unfold afterAck
  rw [freed]
  refine Eq.trans (switched _ initial) ?_
  unfold nextFile
  dsimp only [onK]
  have names : (nxtpkt (spar p.pdf p.datalen
      { s.k with ipktbuf := buf, win := win })).filelist = [.xdatabuf] :=
    filelist
  rw [names]
  rfl

/-- The ACK to S: the file is opened and F is sent. -/
theorem Awaiting.opens
    {s : Sys (Unix σ)}
    (linked : Linked (unixio os))
    (awaiting : Awaiting s.k)
    (initial : s.k.state = .sInit)
    (filelist : s.k.filelist = [.xdatabuf])
    (sends : s.k.what = .send)
    (counted : s.k.enc.sRpt = 0)
    {p : Rcvd}
    {buf : List UInt8}
    (small : (negotiated s.k p buf).sMaxlen ≤ pPktlen)
    {w : σ}
    (opened : os.fopen s.w.os (requestedPath s.k) = (true, w))
    (msg : List UInt8) :
    (afterAck (unixio os) msg p buf s).1 = xOk ∧
      Announced os (negotiated s.k p buf) w s
        (afterAck (unixio os) msg p buf s).2 ∧
      (∃ t, NamedBy (unixio os) (negotiated s.k p buf) s
        (afterAck (unixio os) msg p buf s).2 t) ∧
      ∃ data,
        SentOne (ch 'F') data
          { s with
            k :=
              { nxtpkt s.k with par := negotiated s.k p buf, filelist := [] } }
          (afterAck (unixio os) msg p buf s).2 := by
  have heard : Awaiting { s.k with ipktbuf := buf } := by
    obtain ⟨wf, outstanding, upper⟩ := awaiting
    exact ⟨⟨wf.noForce, wf.oneSlot, wf.window, wf.noWindowing, wf.received,
      wf.kept, wf.mapped⟩, ⟨outstanding.number, outstanding.lower,
      outstanding.mapped, outstanding.nonempty, outstanding.fits⟩, upper⟩
  obtain ⟨win, freed, ready⟩ := heard.acknowledge
  obtain ⟨window, noWindowing⟩ := @sparParams_window s.k.cfg s.k.par
    awaiting.wf.noWindowing
    (fun field => peek buf (p.pdf + field - 1)) p.datalen
  have wf := ready.wf
  have readyNow : Ready
      { s.k with
        ipktbuf := buf, win := win, par := negotiated s.k p buf } :=
    ⟨⟨wf.noForce, wf.oneSlot, window, noWindowing, wf.received, wf.kept,
      wf.mapped⟩, ready.free, ready.lower, ready.upper⟩
  have announced := @sendFile_announced _ _
    { s with
      k := nxtpkt
        { s.k with
          ipktbuf := buf, win := win, par := negotiated s.k p buf }
      r.sofar := s.r.sofarRumor }
    linked readyNow.nxtpkt rfl counted small sends w opened
  rw [afterAck_initial initial filelist freed]
  obtain ⟨fine, ⟨awaiting, state, what, filelist, cfg, par, flag, noString,
    counted, zin, sent, log⟩, ⟨t, naming, frame⟩, data, one⟩ := announced
  exact ⟨fine, ⟨awaiting, state, what, filelist, cfg, par, flag, noString,
    counted, zin, sent, log⟩, ⟨t,
    ⟨naming.cfg, naming.par, naming.place, naming.text, naming.counted⟩,
    frame⟩, data, one.of_quiet rfl rfl rfl rfl rfl ⟨[], rfl, rfl⟩⟩

theorem Requested.opens
    {s : Sys (Unix σ)}
    (linked : Linked (unixio os))
    (requested : Requested s.k)
    {w : σ}
    (opened : os.fopen s.w.os (requestedPath s.k) = (true, w))
    (msg : List UInt8)
    (p : Rcvd)
    (buf : List UInt8) :
    (afterAck (unixio os) msg p buf s).1 = xOk ∧
      Announced os (negotiated s.k p buf) w s
        (afterAck (unixio os) msg p buf s).2 ∧
      ∃ t, NamedBy (unixio os) (negotiated s.k p buf) s
        (afterAck (unixio os) msg p buf s).2 t := by
  have negotiable : Negotiable (negotiated s.k p buf) :=
    sparParams_negotiable requested.negotiable _ _
  obtain ⟨fine, announced, named, -⟩ :=
    requested.awaiting.opens linked requested.state requested.filelist
      requested.what requested.counted negotiable.small opened msg
  exact ⟨fine, announced, named⟩

end Announcing

end Slate106.Kermit
