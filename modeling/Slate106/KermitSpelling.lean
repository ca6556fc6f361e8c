import Slate106.KermitAnnounce

namespace Slate106.Kermit

open CBytes

/-!
# Strings that fit a data field

The turns of `getpkt()` read a string character by character and write its
runs.  A string that fits is written whole, wherever it is read from.
-/

variable {ω : Type}

/-! ## The runs of a string -/

/-- The runs for `held` counted copies of `c`, for `c` and what follows it. -/
def spellRuns
    (rptflg : Int) : Nat → UInt8 → List UInt8 → List CharRun
  | held, c, [] =>
      (turnRuns rptflg held c none).1 ++ (turnRuns rptflg held c none).2
  | held, c, next :: rest =>
      ((turnRuns rptflg held c (some next)).1 ++
        (turnRuns rptflg held c (some next)).2) ++
          spellRuns rptflg (turnHeld rptflg held c (some next)) next rest

/-- The runs of a string. -/
def textRuns
    (rptflg : Int) : List UInt8 → List CharRun
  | [] => []
  | c :: rest => spellRuns rptflg 0 c rest

/-- The runs stand for every character. -/
theorem expand_spellRuns
    {rptflg : Int}
    {held : Nat}
    (countable : Countable rptflg held)
    (c : UInt8)
    (rest : List UInt8) :
    expand (spellRuns rptflg held c rest) =
      List.replicate held c ++ c :: rest := by
  induction rest generalizing held c with
  | nil =>
      have whole := expand_turnRuns countable c none
      have none : turnHeld rptflg held c none = 0 := by
        simp [turnHeld]
      rw [none, List.replicate_zero, List.append_nil] at whole
      rw [spellRuns, expand_append]
      exact whole.symm
  | cons next rest inductionHypothesis =>
      have whole := expand_turnRuns countable c (some next)
      have later := inductionHypothesis
        (turnHeld_countable rptflg held c (some next)) next
      rw [spellRuns, expand_append, expand_append, later,
        ← replicate_turnHeld, ← List.append_assoc, ← whole]
      simp

theorem expand_textRuns
    (rptflg : Int)
    (text : List UInt8) :
    expand (textRuns rptflg text) = text := by
  cases text with
  | nil =>
      rfl
  | cons c rest =>
      exact expand_spellRuns (countable_zero rptflg) c rest

theorem said_spellRuns
    {rptflg : Int}
    {held : Nat}
    (countable : Countable rptflg held)
    (c : UInt8)
    (rest : List UInt8) :
    ∀ run ∈ spellRuns rptflg held c rest, run.Said rptflg := by
  induction rest generalizing held c with
  | nil =>
      obtain ⟨early, late⟩ := said_turnRuns countable c none
      intro run member
      rw [spellRuns] at member
      rcases List.mem_append.mp member with member | member
      · exact early run member
      · exact late run member
  | cons next rest inductionHypothesis =>
      obtain ⟨early, late⟩ := said_turnRuns countable c (some next)
      intro run member
      rw [spellRuns] at member
      rcases List.mem_append.mp member with member | member
      · rcases List.mem_append.mp member with member | member
        · exact early run member
        · exact late run member
      · exact inductionHypothesis (turnHeld_countable ..) next run member

theorem said_textRuns
    (rptflg : Int)
    (text : List UInt8) :
    ∀ run ∈ textRuns rptflg text, run.Said rptflg := by
  cases text with
  | nil =>
      simp [textRuns]
  | cons c rest =>
      exact said_spellRuns (countable_zero rptflg) c rest

/-- The bytes for the rest of a string from a turn on. -/
def spellBytes
    (cfg : Config)
    (p : Params)
    (held : Nat)
    (c : UInt8)
    (rest : List UInt8) : List UInt8 :=
  encodeRuns cfg p (spellRuns p.rptflg held c rest)

@[simp] theorem spellBytes_nil
    (cfg : Config)
    (p : Params)
    (held : Nat)
    (c : UInt8) :
    spellBytes cfg p held c [] = turnBytes cfg p held c none :=
  encodeRuns_append ..

@[simp] theorem spellBytes_cons
    (cfg : Config)
    (p : Params)
    (held : Nat)
    (c next : UInt8)
    (rest : List UInt8) :
    spellBytes cfg p held c (next :: rest) =
      turnBytes cfg p held c (some next) ++
        spellBytes cfg p (turnHeld p.rptflg held c (some next)) next rest := by
  simp [spellBytes, spellRuns, turnBytes]

theorem length_spellBytes_pos
    (cfg : Config)
    {p : Params}
    {held : Nat}
    (countable : Countable p.rptflg held)
    (c : UInt8)
    (rest : List UInt8) :
    0 < (spellBytes cfg p held c rest).length := by
  refine length_encodeRuns_pos cfg p fun nothing => ?_
  have whole := expand_spellRuns countable c rest
  rw [nothing] at whole
  simp at whole

/-- There is room in the field for the rest of the string. -/
def RoomFor
    (cfg : Config)
    (p : Params)
    (field : List UInt8)
    (held : Nat)
    (c : UInt8)
    (rest : List UInt8) : Prop :=
  ((field ++ spellBytes cfg p held c rest).length : Int) ≤ getpktMaxlen p

/-- What follows a turn has room behind what the turn writes. -/
theorem RoomFor.next
    {cfg : Config}
    {p : Params}
    {field : List UInt8}
    {held : Nat}
    {c next : UInt8}
    {rest : List UInt8}
    (room : RoomFor cfg p field held c (next :: rest)) :
    ((field ++ turnBytes cfg p held c (some next)).length : Int) <
        getpktMaxlen p ∧
      RoomFor cfg p (field ++ turnBytes cfg p held c (some next))
        (turnHeld p.rptflg held c (some next)) next rest := by
  have more := length_spellBytes_pos cfg
    (turnHeld_countable p.rptflg held c (some next)) next rest
  unfold RoomFor at *
  rw [spellBytes_cons, ← List.append_assoc] at room
  refine ⟨?_, room⟩
  rw [List.length_append] at room
  omega

/-! ## The turns of a string -/

/-- From this session on the turns read `rest`, and then the end. -/
def TurnsRead
    (io : Io ω) : List UInt8 → UInt8 → Sys ω → Prop
  | [], _, s => (nextChar io s).1 = none
  | next :: rest, c, s =>
      (nextChar io s).1 = some next ∧ TurnsRead io rest next (turn io c s)

/-- What the encoder leaves of a string that fits. -/
structure Quotes
    (field : List UInt8)
    (s s' : Sys ω) : Prop where
  spells : Spells s s'
  holds : ∃ tail, Holds field (0 :: tail) s'.k

theorem Spelling.turned
    (io : Io ω)
    {field : List UInt8}
    {held : Nat}
    {s : Sys ω}
    (spelling : Spelling field held s)
    (c : UInt8)
    {next : Option UInt8}
    (read : (nextChar io s).1 = next) :
    Quotes (field ++ turnBytes s.k.cfg s.k.par held c next) s
      (turn io c s) := by
  subst read
  have spelt := spelling.spellTurn io c
  exact ⟨spelt.spells, spelt.holds⟩

/-- The loop goes on while there is more of a string that fits. -/
theorem Spelling.loopNext
    (io : Io ω)
    {field rest : List UInt8}
    {held : Nat}
    {s : Sys ω}
    (spelling : Spelling field held s)
    {c next : UInt8}
    (read : (nextChar io s).1 = some next)
    (room : RoomFor s.k.cfg s.k.par field held c (next :: rest))
    (turns : Nat) :
    getpktLoop io (turns + 1) c s = getpktLoop io turns next (turn io c s) := by
  obtain ⟨tail, holds⟩ := (spelling.turned io c read).holds
  obtain ⟨below, -⟩ := room.next
  have size := holds.size
  rw [getpktLoop_succ]
  dsimp only
  rw [(spelling.settings io c).2, read, if_neg (by omega), if_neg (by omega)]

/-- The loop ends with the string when it fits. -/
theorem Spelling.loopEnd
    (io : Io ω)
    {field : List UInt8}
    {held : Nat}
    {s : Sys ω}
    (spelling : Spelling field held s)
    {c : UInt8}
    (read : (nextChar io s).1 = none)
    (room : RoomFor s.k.cfg s.k.par field held c [])
    (turns : Nat) :
    getpktLoop io (turns + 1) c s =
      (((turn io c s).k.enc.size : Int), turn io c s) := by
  obtain ⟨tail, holds⟩ := (spelling.turned io c read).holds
  have size := holds.size
  unfold RoomFor at room
  rw [spellBytes_nil] at room
  rw [getpktLoop_succ]
  dsimp only
  rw [(spelling.settings io c).2, read]
  split
  · rfl
  · rw [if_neg (by omega)]

/-- The loop of `getpkt()` on a string that fits. -/
theorem getpktLoop_fits
    (io : Io ω)
    {turns : Nat}
    {field rest : List UInt8}
    {held : Nat}
    {c : UInt8}
    {s : Sys ω}
    (spelling : Spelling field held s)
    (reads : TurnsRead io rest c s)
    (room : RoomFor s.k.cfg s.k.par field held c rest)
    (enough : turnsLeft s.k.par field.length held < turns) :
    Quotes (field ++ spellBytes s.k.cfg s.k.par held c rest) s
      (getpktLoop io turns c s).2 := by
  induction rest generalizing turns field held c s with
  | nil =>
      cases turns with
      | zero =>
          exact absurd enough (Nat.not_lt_zero _)
      | succ turns =>
          rw [spelling.loopEnd io reads room, spellBytes_nil]
          exact spelling.turned io c reads
  | cons next rest inductionHypothesis =>
      cases turns with
      | zero =>
          exact absurd enough (Nat.not_lt_zero _)
      | succ turns =>
          obtain ⟨read, later⟩ := reads
          obtain ⟨cfg, par⟩ := spelling.settings io c
          obtain ⟨below, roomNow⟩ := room.next
          obtain ⟨spellingNow, fewer⟩ := spelling.goesOn io c read below
          obtain ⟨spells, -⟩ := spelling.turned io c read
          have quotes := @inductionHypothesis turns _ _ next (turn io c s)
            spellingNow later (by rw [cfg, par]; exact roomNow)
            (by rw [par]; omega)
          rw [cfg, par, List.append_assoc, ← spellBytes_cons] at quotes
          rw [spelling.loopNext io read room]
          exact ⟨spells.trans quotes.spells, quotes.holds⟩

/-- The session in which `encstr()` calls `getpkt()`. -/
def rewound
    (text : StrRef)
    (s : Sys ω) : Sys ω :=
  { s with k.enc.sFirst := 1, k.enc.istring := some (text, 0) }

/-- The session that `encstr()` leaves after `getpkt()`. -/
def sealed
    (s : Sys ω) : Sys ω :=
  { s with k.enc.istring := none, k.enc.sFirst := 1 }

theorem encstr_eq
    (io : Io ω)
    (text : StrRef)
    (s : Sys ω) :
    encstr io text s =
      ((getpkt io (rewound text s)).2.k.enc.size,
        sealed (getpkt io (rewound text s)).2) :=
  rfl

/-- `encstr()` of a string that fits. -/
theorem encstr_fits
    (io : Io ω)
    {s : Sys ω}
    {text : StrRef}
    {c : UInt8}
    {rest : List UInt8}
    (noForce : s.k.cfg.bcta3 = 0)
    (counted : s.k.enc.sRpt = 0)
    (small : s.k.par.sMaxlen ≤ pPktlen)
    (first : derefAt (rewound text s) 0 text = c)
    (nonzero : c ≠ 0)
    (reads : TurnsRead io rest c (begun text (rewound text s)))
    (room : RoomFor s.k.cfg s.k.par [] 0 c rest) :
    Quotes (encodeRuns s.k.cfg s.k.par (textRuns s.k.par.rptflg (c :: rest))) s
      (encstr io text s).2 := by
  subst first
  obtain ⟨spells, spelling, -⟩ :=
    @begun_string _ (rewound text s) text counted small
  rw [encstr_eq, @getpkt_string _ io (rewound text s) text noForce rfl rfl
    nonzero]
  generalize begun text (rewound text s) = t at *
  obtain ⟨cfg, par⟩ : t.k.cfg = s.k.cfg ∧ t.k.par = s.k.par := by
    obtain ⟨_, _, _, same, _⟩ := id spells
    rw [same]
    exact ⟨rfl, rfl⟩
  obtain ⟨spelt, tail, holds⟩ := getpktLoop_fits io spelling reads
    (by rw [cfg, par]; exact room)
    (turnsLeft_lt_getpktFuel spelling.small _ _)
  rw [cfg, par] at holds
  obtain ⟨enc, ipktbuf, sofarRumor, same, xdata⟩ := spells.trans spelt
  rw [same] at holds ⊢
  exact ⟨⟨_, ipktbuf, sofarRumor, rfl, xdata⟩, tail, holds.memory, holds.size⟩

end Slate106.Kermit
