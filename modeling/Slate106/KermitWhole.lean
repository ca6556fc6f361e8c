import Slate106.KermitRequested

namespace Slate106.Kermit

open CBytes

/-!
# Whole files

The D packets of a GET hold the whole file when the parameters leave room for
the longest run and no 8th-bit prefixes are used.  With any other parameters
some file does not come through.
-/

variable {ω σ : Type}

/-! ## Files that fit -/

theorem Input.same
    {left : ω → List UInt8}
    {s t : Sys ω}
    {input : List UInt8}
    (unread : Input left s input)
    (same : SameInput left s t) :
    Input left t input := by
  obtain ⟨buf, zin, rest⟩ := unread
  exact ⟨buf, same.zin.trans zin, by rw [same.left]; exact rest⟩

/-- What happens between two calls of `getpkt()` leaves the file waiting. -/
theorem Sending.same
    {left : ω → List UInt8}
    {rest : List UInt8}
    {s t : Sys ω}
    (sending : Sending left rest s)
    (same : SameInput left s t) :
    Sending left rest t := by
  obtain ⟨⟨encoding, room, small⟩, inForce, noString, waiting⟩ := sending
  have cfg := same.cfg
  have par := same.par
  refine ⟨⟨?_, ?_, ?_⟩, ?_, same.istring.trans noString, ?_⟩
  · rw [cfg, par]
    exact encoding
  · rw [par]
    exact room
  · rw [par]
    exact small
  · rw [cfg, par]
    exact inForce
  · cases waiting with
    | first flag counted unread =>
        exact .first (same.sFirst.trans flag) (same.sRpt.trans counted)
          (unread.same same)
    | going flag char counted countable kept one said unread =>
        rw [← cfg, ← par] at kept
        rw [← par] at countable said
        exact .going (same.sFirst.trans flag) (same.cgetpkt.trans char)
          (same.sRpt.trans counted) countable (same.sRemain.trans kept) one
          said (unread.same same)
    | ended flag seen counted kept one said unread =>
        rw [← cfg, ← par] at kept
        rw [← par] at said
        exact .ended (same.sFirst.trans flag) (same.seen seen)
          (same.sRpt.trans counted) (same.sRemain.trans kept) one said
          (unread.same same)

/-- The fields of a file are runs that stand for it. -/
theorem Sending.yields
    {io : Io ω}
    {left : ω → List UInt8}
    (reader : ReadsFile io left)
    {rest : List UInt8}
    {s : Sys ω}
    (sending : Sending left rest s)
    {n : Nat}
    (enough : rest.length < n)
    {goal : List (List UInt8) → Prop}
    (asked : ∀ fields : List (List CharRun),
      (∀ runs ∈ fields, ∀ run ∈ runs, run.Said s.k.par.rptflg) →
        rest = fields.flatMap expand →
          goal (fields.map (encodeRuns s.k.cfg s.k.par))) :
    Yields io left True n goal s := by
  induction n generalizing rest s goal with
  | zero =>
      exact absurd enough (Nat.not_lt_zero _)
  | succ n inductionHypothesis =>
      intro t same
      have cfg := same.cfg
      have par := same.par
      have sendingNow := sending.same same
      rcases getpkt_packed reader sendingNow with
        ⟨nothing, zero, -, seen, packs⟩ | ⟨runs, rest', packed⟩
      · exact .inl ⟨⟨zero, fun _ => seen, packs⟩,
          asked [] (by simp) (by simp [nothing])⟩
      · have good := packed.goodField sendingNow.filling.fits.packable
        have data := good.data
        have said := good.said
        have settings := packed.packs.settings
        have fits := good.fits
        have room := sendingNow.filling.room
        have small := sendingNow.filling.small
        have longest := longestRun_bounds t.k.par
        refine .inr ⟨⟨good.positive, ?_, packed.packs⟩, ?_⟩
        · unfold getpktMaxlen at fits room
          simp only [pPktlen] at *
          omega
        · have shorter : rest'.length < rest.length := by
            rw [packed.split, List.length_append]
            exact Nat.lt_add_of_pos_left
              (length_expand_pos packed.said packed.something)
          refine inductionHypothesis (packed.sending sendingNow)
            (by omega) ?_
          intro fields saidAll whole
          rw [settings.2, par] at saidAll
          rw [par] at said
          rw [data, settings.1, settings.2, cfg, par]
          refine asked (runs :: fields) ?_ ?_
          · intro runs' member
            rcases List.mem_cons.mp member with rfl | member
            · exact said
            · exact saidAll runs' member
          · rw [packed.split, whole]
            rfl

/-- The fields of a file decode to the file. -/
theorem Sending.yields_decoded
    {io : Io ω}
    {left : ω → List UInt8}
    (reader : ReadsFile io left)
    {rest : List UInt8}
    {s : Sys ω}
    (sending : Sending left rest s)
    {p' : Params}
    (decoding : PlainDecoding s.k.par p') :
    Yields io left True (rest.length + 1)
      (fun fields => fields.flatMap (decodeMem p') = rest) s := by
  refine sending.yields reader (Nat.lt_succ_self _) ?_
  intro fields said whole
  rw [whole, List.flatMap_map]
  apply List.flatMap_congr
  intro runs member
  exact decodeMem_plain sending.filling.encoding decoding
    (said runs member)

/-! ## Files that do not come through -/

/-- `getpkt()` before a file of which nothing has been read. -/
structure AtFirst
    (left : ω → List UInt8)
    (input : List UInt8)
    (s : Sys ω) : Prop where
  binary : s.k.par.binary = 1
  noForce : s.k.cfg.bcta3 = 0
  small : s.k.par.sMaxlen ≤ pPktlen
  flag : s.k.enc.sFirst = 1
  noString : s.k.enc.istring = none
  unread : Input left s input

theorem AtFirst.same
    {left : ω → List UInt8}
    {input : List UInt8}
    {s t : Sys ω}
    (atFirst : AtFirst left input s)
    (same : SameInput left s t) :
    AtFirst left input t := by
  obtain ⟨binary, noForce, small, flag, noString, unread⟩ := atFirst
  refine ⟨?_, ?_, ?_, same.sFirst.trans flag, same.istring.trans noString,
    unread.same same⟩
  · rw [same.par]
    exact binary
  · rw [same.cfg]
    exact noForce
  · rw [same.par]
    exact small

/-- The head of a turn at which nothing has been written. -/
structure AtEmpty
    (left : ω → List UInt8)
    (held : Nat)
    (input : List UInt8)
    (s t : Sys ω) : Prop where
  packs : Packs s t
  holds : ∃ tail, Holds [] tail t.k
  counted : t.k.enc.sRpt = held
  started : t.k.enc.sFirst = 0
  nothing : t.k.enc.sRemain = []
  noString : t.k.enc.istring = none
  unread : Input left t input

/-- The first call of `getpkt()` up to its loop. -/
theorem AtFirst.begins
    {io : Io ω}
    {left : ω → List UInt8}
    (reader : ReadsFile io left)
    {c : UInt8}
    {input : List UInt8}
    {s : Sys ω}
    (atFirst : AtFirst left (c :: input) s)
    {held : Nat}
    (counted : s.k.enc.sRpt = held) :
    ∃ t, AtEmpty left held input s t ∧
      getpkt io s = getpktLoop io getpktFuel c t := by
  obtain ⟨binary, noForce, small, flag, noString, unread⟩ := atFirst
  have forced : forceBcta3 s.k = s.k := by
    simp [forceBcta3, noForce]
  obtain ⟨next, packs, unread', -, started, nothing, rpt⟩ :=
    getpktFirst_read reader.readsIn binary noString unread
  have route : getpkt io s = getpktRest io c (getpktFirst io s).2 := by
    unfold getpkt
    rw [forced]
    dsimp only
    rw [if_pos flag, next]
    rfl
  rw [route]
  generalize (getpktFirst io s).2 = u at *
  have begun : u.k.enc.sFirst = 0 := started
  obtain ⟨⟨tail, holds⟩, xdatabuf, ipktbuf, same⟩ := copyRemain_holds u.k
  have notEnded : ¬ (copyRemain u.k).enc.sFirst = -1 := by
    rw [same]
    dsimp only
    rw [begun]
    decide
  refine ⟨{ u with k := copyRemain u.k }, ?_, ?_⟩
  · refine ⟨packs.trans (copyRemain_packs u), ⟨tail, nothing ▸ holds⟩, ?_, ?_,
      ?_, ?_, ?_⟩
    · rw [same]
      exact rpt.trans counted
    · rw [same]
      exact begun
    · rw [same]
    · rw [same]
      obtain ⟨_, _, _, _, _, _, _, string, rfl⟩ := packs
      exact string.trans noString
    · rw [same]
      exact unread'
  · unfold getpktRest
    exact if_neg notEnded

theorem AtEmpty.turned
    {io : Io ω}
    {left : ω → List UInt8}
    (reader : ReadsFile io left)
    {held : Nat}
    {input : List UInt8}
    {s t : Sys ω}
    (binary : s.k.par.binary = 1)
    (atEmpty : AtEmpty left held input s t)
    (countable : Countable s.k.par.rptflg held)
    (c : UInt8)
    (early : held = 1 → input.head? = some c) :
    (nextChar io t).1 = input.head? ∧
      TurnOf left [] held c input t (turn io c t) := by
  obtain ⟨packs, ⟨tail, holds⟩, counted, -, -, noString, unread⟩ := atEmpty
  have par := packs.settings.2
  refine turn_turnOf reader.readsIn c (par ▸ binary) noString holds counted
    (par ▸ countable) (by decide) ?_ unread
  intro one other
  exact absurd (early one).symm other

theorem turnRuns_last
    (rptflg : Int)
    (c : UInt8) :
    turnRuns rptflg 0 c none = ([], [{ char := c, count := 1 }]) := by
  unfold turnRuns
  repeat' split
  all_goals simp_all

/-- A field that is empty because its first character has no room. -/
theorem cutBack_empty
    {s : Sys ω}
    (nothing : s.k.enc.osize = 0) :
    ((s.k.enc.osize : Int), { s with k := cutBack s.k }).1 = 0 ∧
      Packs s { s with k := cutBack s.k } := by
  refine ⟨?_, (cutBack_packs s).1⟩
  show (s.k.enc.osize : Int) = 0
  omega

/-- The only character of a file: a field, if there is room for it. -/
structure LastChar
    (io : Io ω)
    (bytes : List UInt8)
    (s : Sys ω) : Prop where
  packs : Packs s (getpkt io s).2
  seen : .readf none ∈ (getpkt io s).2.log
  fits : (bytes.length : Int) ≤ getpktMaxlen s.k.par →
    (getpkt io s).1 = bytes.length ∧ fieldOf (getpkt io s) = bytes ∧
      (getpkt io s).2.k.enc.sFirst = -1 ∧
      (getpkt io s).2.k.enc.sRemain = []
  beyond : getpktMaxlen s.k.par < bytes.length → (getpkt io s).1 = 0

theorem AtFirst.lastChar
    {io : Io ω}
    {left : ω → List UInt8}
    (reader : ReadsFile io left)
    {c : UInt8}
    {s : Sys ω}
    (atFirst : AtFirst left [c] s)
    (counted : s.k.enc.sRpt = 0) :
    LastChar io (encodeBytes s.k.cfg s.k.par c) s := by
  obtain ⟨t, atEmpty, route⟩ :=
    atFirst.begins reader (show s.k.enc.sRpt = ((0 : Nat) : Int) from counted)
  obtain ⟨next, turned⟩ := atEmpty.turned reader atFirst.binary
    (countable_zero _) c (fun one => absurd one (by decide))
  obtain ⟨⟨tail, holds, -⟩, osize, -, -, flag, seen, kept, -, packs⟩ := turned
  have settings := atEmpty.packs.settings
  rw [List.head?_nil, turnRuns_last] at holds osize
  simp only [encodeRuns_nil, encodeRuns_cons, List.nil_append,
    List.append_nil, encodeRun_once, settings.1, settings.2,
    List.length_nil] at holds osize
  have par : (turn io c t).k.par = s.k.par :=
    packs.settings.2.trans settings.2
  have fuel : getpktFuel = (getpktFuel - 1) + 1 := rfl
  rw [fuel, getpktLoop_succ, next] at route
  dsimp only [List.head?_nil] at route
  rw [par, holds.size] at route
  have packsAll := atEmpty.packs.trans packs
  have seenNow := seen rfl
  generalize turn io c t = u at *
  by_cases room : ((encodeBytes s.k.cfg s.k.par c).length : Int) ≤
      getpktMaxlen s.k.par
  · have result : getpkt io s =
        (((encodeBytes s.k.cfg s.k.par c).length : Int), u) := by
      rw [route]
      split
      · rfl
      · rw [if_neg (by omega)]
    refine ⟨?_, ?_, fun _ => ?_, fun beyond => absurd beyond (by omega)⟩
    · rw [result]
      exact packsAll
    · rw [result]
      exact seenNow
    · rw [result]
      refine ⟨rfl, ?_, flag.trans (if_pos rfl), kept.trans atEmpty.nothing⟩
      unfold fieldOf spktData
      dsimp only
      rw [if_neg (by omega), holds.memory, Int.toNat_natCast,
        List.takeD_eq_take _ (by simp), List.take_left]
  · have result : getpkt io s =
        ((u.k.enc.osize : Int), { u with k := cutBack u.k }) := by
      rw [route, if_neg (by omega), if_pos (by omega)]
    obtain ⟨zero, cut⟩ := cutBack_empty (s := u) osize
    refine ⟨?_, ?_, fun fits => absurd fits room, fun _ => ?_⟩
    · rw [result]
      exact packsAll.trans cut
    · rw [result]
      exact seenNow
    · rw [result]
      exact zero

/-- After the last field nothing is left. -/
theorem getpkt_over
    (io : Io ω)
    {s : Sys ω}
    (noForce : s.k.cfg.bcta3 = 0)
    (flag : s.k.enc.sFirst = -1)
    (nothing : s.k.enc.sRemain = []) :
    (getpkt io s).1 = 0 ∧ Packs s (getpkt io s).2 ∧
      (getpkt io s).2.log = s.log := by
  have forced : forceBcta3 s.k = s.k := by
    simp [forceBcta3, noForce]
  have result : getpkt io s = (0, { s with k.enc.size := 0 }) := by
    unfold getpkt
    rw [forced]
    dsimp only
    rw [if_neg (by rw [flag]; decide), if_pos ⟨flag, nothing⟩]
  rw [result]
  refine ⟨rfl, ⟨_, s.k.ipktbuf, s.k.zin, s.r.sofarRumor, s.w, [], ?_, ?_,
    rfl⟩, rfl⟩
  · rfl
  · rfl

/-- The fields of a file of one character. -/
theorem AtFirst.single
    {io : Io ω}
    {left : ω → List UInt8}
    (reader : ReadsFile io left)
    {c : UInt8}
    {s : Sys ω}
    (atFirst : AtFirst left [c] s)
    (counted : s.k.enc.sRpt = 0)
    (check : s.k.par.bct ≤ 3)
    {goal : List (List UInt8) → Prop}
    (asked : goal
      (if ((encodeBytes s.k.cfg s.k.par c).length : Int) ≤
          getpktMaxlen s.k.par then
        [encodeBytes s.k.cfg s.k.par c]
      else [])) :
    Yields io left True 2 goal s := by
  intro t same
  have last := (atFirst.same same).lastChar reader (same.sRpt.trans counted)
  rw [same.cfg, same.par] at last
  obtain ⟨packs, seen, fits, beyond⟩ := last
  rw [same.par] at fits beyond
  have bytes := length_encodeBytes s.k.cfg s.k.par c
  split at asked
  · rename_i room
    obtain ⟨number, field, flag, nothing⟩ := fits room
    refine .inr ⟨⟨by omega, ?_, packs⟩, ?_⟩
    · rw [field, same.par]
      unfold pPktlen
      omega
    · intro t' later
      have noForce : t'.k.cfg.bcta3 = 0 := by
        rw [later.cfg, packs.settings.1, same.cfg]
        exact atFirst.noForce
      obtain ⟨zero, packs', log⟩ := getpkt_over io noForce
        (later.sFirst.trans flag) (later.sRemain.trans nothing)
      refine .inl ⟨⟨zero, fun _ => ?_, packs'⟩, ?_⟩
      · rw [log]
        exact later.seen seen
      · rw [field]
        exact asked
  · rename_i noRoom
    exact .inl ⟨⟨beyond (by omega), fun _ => seen, packs⟩, asked⟩

/-- A turn that counts one more copy of a character. -/
theorem AtEmpty.counts
    {io : Io ω}
    {left : ω → List UInt8}
    (reader : ReadsFile io left)
    {held : Nat}
    {c : UInt8}
    {input : List UInt8}
    {s t : Sys ω}
    (binary : s.k.par.binary = 1)
    (atEmpty : AtEmpty left held (c :: input) s t)
    (flag : s.k.par.rptflg ≠ 0)
    (few : held + 1 < 236) :
    (nextChar io t).1 = some c ∧
      AtEmpty left (held + 1) input s (turn io c t) ∧
      (turn io c t).k.enc.size = 0 ∧ (turn io c t).k.enc.osize = 0 := by
  have countable : Countable s.k.par.rptflg held :=
    ⟨by omega, fun zero => absurd zero flag⟩
  obtain ⟨next, turned⟩ :=
    atEmpty.turned reader binary countable c (fun _ => rfl)
  have par := atEmpty.packs.settings.2
  have runs : turnRuns t.k.par.rptflg held c (some c) = ([], []) := by
    rw [par]
    simp [turnRuns, flag, few]
  have copies : turnHeld t.k.par.rptflg held c (some c) = held + 1 := by
    rw [par]
    simp [turnHeld, flag, few]
  obtain ⟨⟨tail, holds, -⟩, osize, sRpt, -, begun, -, kept, unread, packs⟩ :=
    turned
  simp only [List.head?_cons, runs, copies, encodeRuns_nil, List.append_nil,
    List.length_nil, List.tail_cons] at next holds osize sRpt begun unread
  refine ⟨next, ⟨atEmpty.packs.trans packs, ⟨tail, holds⟩, sRpt, ?_, ?_, ?_,
    unread⟩, holds.size, osize⟩
  · rw [begun]
    exact (if_neg (Option.some_ne_none c)).trans atEmpty.started
  · exact kept.trans atEmpty.nothing
  · obtain ⟨_, _, _, _, _, _, _, string, same⟩ := packs
    rw [same]
    exact string.trans atEmpty.noString

/-- The turn that ends a run of three without room for it. -/
theorem AtEmpty.overflows
    {io : Io ω}
    {left : ω → List UInt8}
    (reader : ReadsFile io left)
    {c : UInt8}
    {s t : Sys ω}
    (binary : s.k.par.binary = 1)
    (atEmpty : AtEmpty left 2 [] s t)
    (flag : s.k.par.rptflg ≠ 0)
    (narrow : getpktMaxlen s.k.par <
      (encodeBytes s.k.cfg s.k.par c).length + 2)
    (turns : Nat) :
    (getpktLoop io (turns + 1) c t).1 = 0 ∧
      Packs s (getpktLoop io (turns + 1) c t).2 := by
  have countable : Countable s.k.par.rptflg 2 :=
    ⟨by decide, fun zero => absurd zero flag⟩
  obtain ⟨next, turned⟩ :=
    atEmpty.turned reader binary countable c (fun one => absurd one (by decide))
  have settings := atEmpty.packs.settings
  have runs : turnRuns s.k.par.rptflg 2 c none =
      ([], [{ char := c, count := 3 }]) := by
    simp [turnRuns, flag]
  obtain ⟨⟨tail, holds, -⟩, osize, -, -, -, -, -, -, packs⟩ := turned
  have size := holds.size
  rw [List.head?_nil, settings.1, settings.2, runs] at size osize
  simp only [encodeRuns_nil, encodeRuns_cons, List.append_nil,
    List.nil_append, List.length_nil, encodeRun, List.length_append,
    List.length_cons, if_neg (show ¬ 3 = 1 by decide)] at size osize
  have par : (turn io c t).k.par = s.k.par :=
    packs.settings.2.trans settings.2
  obtain ⟨zero, cut⟩ := cutBack_empty (s := turn io c t) osize
  rw [getpktLoop_succ, next]
  dsimp only
  rw [par, if_neg (by omega), if_pos (by omega)]
  exact ⟨zero, (atEmpty.packs.trans packs).trans cut⟩

/-- A run of three for which there is no room ends a file at once. -/
theorem AtFirst.narrow
    {io : Io ω}
    {left : ω → List UInt8}
    (reader : ReadsFile io left)
    {c : UInt8}
    {s : Sys ω}
    (atFirst : AtFirst left [c, c, c] s)
    (flag : s.k.par.rptflg ≠ 0)
    {held : Nat}
    (counted : s.k.enc.sRpt = held)
    (few : held ≤ 1)
    (fresh : 1 ≤ getpktMaxlen s.k.par → held = 0)
    (narrow : getpktMaxlen s.k.par <
      (encodeBytes s.k.cfg s.k.par c).length + 2)
    {goal : List (List UInt8) → Prop}
    (asked : goal []) :
    Yields io left False 1 goal s := by
  intro t same
  have atFirstNow := atFirst.same same
  have par := same.par
  have binary := atFirstNow.binary
  rw [← par] at flag fresh narrow
  rw [← same.cfg] at narrow
  obtain ⟨u, atEmpty, route⟩ :=
    atFirstNow.begins reader (same.sRpt.trans counted)
  obtain ⟨next, atEmpty', size, osize⟩ :=
    atEmpty.counts reader binary flag (by omega)
  have parNow : (turn io c u).k.par = t.k.par := atEmpty'.packs.settings.2
  have zero : (getpkt io t).1 = 0 ∧ Packs t (getpkt io t).2 := by
    have fuel : getpktFuel = getpktFuel - 3 + 1 + 1 + 1 := rfl
    rw [route, fuel, getpktLoop_succ, next]
    dsimp only
    rw [parNow, size]
    by_cases none : getpktMaxlen t.k.par ≤ 0
    · by_cases exactly : ((0 : Nat) : Int) = getpktMaxlen t.k.par
      · rw [if_pos exactly]
        exact ⟨rfl, atEmpty'.packs⟩
      · obtain ⟨zero, cut⟩ := cutBack_empty (s := turn io c u) osize
        rw [if_neg exactly, if_pos (by omega)]
        exact ⟨zero, atEmpty'.packs.trans cut⟩
    · have zero := fresh (by omega)
      subst zero
      obtain ⟨next', atEmpty'', size', -⟩ :=
        atEmpty'.counts reader binary flag (by omega)
      have parThen : (turn io c (turn io c u)).k.par = t.k.par :=
        atEmpty''.packs.settings.2
      rw [if_neg (by omega), if_neg (by omega), getpktLoop_succ, next']
      dsimp only
      rw [parThen, size', if_neg (by omega), if_neg (by omega)]
      exact atEmpty''.overflows reader binary flag narrow _
  exact .inl ⟨⟨zero.1, fun ended => absurd ended id, zero.2⟩, asked⟩

/-! ## A GET after the ACK to S -/

/-- A file system with ordinary files, and a link that takes every packet. -/
structure FileServer
    (os : Os σ)
    (unread : σ → List UInt8) : Prop where
  reads : ReadsUnread os unread
  sends : ∀ w bytes,
    (os.send w bytes).1 = 0 ∧ unread (os.send w bytes).2 = unread w

theorem FileServer.served
    {os : Os σ}
    {unread : σ → List UInt8}
    (server : FileServer os unread) :
    Serves (unixio os) (fun w => unread w.os) where
  linked w bytes := by
    show (if (os.send w.os bytes).1 ≠ 0 then xError else xOk) = xOk
    rw [(server.sends w.os bytes).1, if_neg (not_not.mpr rfl)]
  txd w bytes := (server.sends w.os bytes).2
  finfo w name type := ⟨rfl, rfl⟩

/-- The server waits for the ACK to S, and the requested file can be opened. -/
structure GetStart
    (os : Os σ)
    (k : KData)
    (v : MainVars (Unix σ))
    (w : σ) : Prop where
  data : v.sys.k = k
  going : v.ret = none
  opened : os.fopen v.sys.w.os (requestedPath k) = (true, w)

/-- The ACK to S brings the main loop to the F packet. -/
theorem mainIter_announced
    {os : Os σ}
    (linked : Linked (unixio os))
    {k : KData}
    (requested : Requested k)
    {rx : Rx}
    {p : Rcvd}
    {buf : List UInt8}
    (ack : ValidAck k.sSeq (heardData rx k) rx.ret p buf)
    {v : MainVars (Unix σ)}
    {w : σ}
    (start : GetStart os k v w) :
    (mainIter (unixio os) rx v).ret = none ∧
      Announced os (negotiated k p buf) w v.sys
        (mainIter (unixio os) rx v).sys ∧
      ∃ t, NamedBy (unixio os) (negotiated k p buf) v.sys
        (mainIter (unixio os) rx v).sys t := by
  obtain ⟨rfl, going, opened⟩ := start
  have heard : Requested (heardSys rx v.sys).k := by
    obtain ⟨awaiting, state, what, filelist, keeps, ctlq, negotiable,
      noString, counted⟩ := requested
    exact ⟨awaiting.heard rx, state, what, filelist, keeps, ctlq, negotiable,
      noString, counted⟩
  obtain ⟨fine, announced, t, naming, frame⟩ :=
    heard.opens linked opened [] p buf
  obtain ⟨session, ret⟩ := @mainIter_ack _ (unixio os) _ _ going
    requested.awaiting requested.what requested.keeps
    (by rw [requested.state]; decide) _ _ ack
    (by rw [requested.state]; exact fun data => nomatch data)
  rw [fine, if_neg (by decide), if_neg (by decide)] at ret
  rw [session]
  obtain ⟨awaiting, state, what, filelist, cfg, par, flag, noString, counted,
    zin, sent, log⟩ := announced
  exact ⟨ret, ⟨awaiting, state, what, filelist, cfg, par, flag, noString,
    counted, zin, sent, log⟩, t,
    ⟨naming.cfg, naming.par, naming.place, naming.text, naming.counted⟩,
    frame⟩

/-- The data fields of the D packets that were sent between two sessions. -/
def sentFields
    (bct : Nat)
    (before after : Sys ω) : List (List UInt8) :=
  dataFields bct (newTxds before.log after.log)

/-- The types of the packets that were sent between two sessions. -/
def typesBetween
    (before after : Sys ω) : List UInt8 :=
  (newTxds before.log after.log).map frameType

/-- What a GET of an announced file has sent when it has ended well. -/
structure SentWhole
    (toEnd : Prop)
    (goal : List (List UInt8) → Prop)
    (s s' : Sys ω) : Prop where
  asked : goal (sentFields s.k.par.bct s s')
  types : typesBetween s s' = toCome s.k (sentFields s.k.par.bct s s')
  par : s'.k.par = s.k.par
  log : ∃ more, s'.log = more ++ s.log
  seen : toEnd → .readf none ∈ s'.log

/-- What is asked of the fields of an announced file holds when it is sent. -/
theorem Announced.asked
    {os : Os σ}
    {unread : σ → List UInt8}
    (server : FileServer os unread)
    {q : Params}
    (negotiable : Negotiable q)
    {w : σ}
    {s : Sys (Unix σ)}
    {v : MainVars (Unix σ)}
    (keeps : s.k.cfg.cancel = 0)
    (announced : Announced os q w s v.sys)
    (going : v.ret = none)
    {toEnd : Prop}
    {n : Nat}
    {goal : List (List UInt8) → Prop}
    (yields : Yields (unixio os) (fun w => unread w.os) toEnd n goal v.sys) :
    (∀ v', AckRun (unixio os) v v' → v'.ret = some kSuccess →
      SentWhole toEnd goal v.sys v'.sys) ∧
      ∃ v', AckRun (unixio os) v v' ∧ v'.ret = some kSuccess := by
  have inGet : InGet (unixio os) (fun w => unread w.os) toEnd n goal v.sys :=
    ⟨announced.awaiting, announced.what, announced.cfg ▸ keeps,
      announced.par ▸ negotiable.check, announced.filelist,
      .file announced.state yields⟩
  refine ⟨?_, inGet.ends server.served going⟩
  intro v' run done
  obtain ⟨more, n', goal', transferred⟩ :=
    run.transferred server.served inGet going
  obtain ⟨log, asked, types, par, now⟩ := transferred
  obtain ⟨-, reached, seen⟩ := now.resolve_left
    (fun early => absurd (done.symm.trans early.1) (by simp))
  have fields := asked [] reached
  have kinds := types [] reached
  rw [List.append_nil] at fields
  rw [List.append_nil, done, if_neg (by simp), List.append_nil] at kinds
  have sent : newTxds v.sys.log v'.sys.log = (txds more).reverse := by
    rw [log, newTxds_append]
  refine ⟨?_, ?_, par, ⟨more, log⟩, seen⟩
  · unfold sentFields
    rw [sent]
    exact fields
  · unfold typesBetween sentFields
    rw [sent]
    exact kinds.symm

/-- What has not been read of the opened file, when F has been sent. -/
theorem Announced.unread
    {os : Os σ}
    {unread : σ → List UInt8}
    (server : FileServer os unread)
    {q : Params}
    {w : σ}
    {s s' : Sys (Unix σ)}
    (announced : Announced os q w s s') :
    Input (fun w => unread w.os) s' (unread w) := by
  obtain ⟨bytes, sent⟩ := announced.w
  refine ⟨[], announced.zin, ?_⟩
  show unread w = [] ++ unread s'.w.os
  rw [sent, (server.sends w bytes).2]
  rfl

/-- The prefixes in use are distinct, also when the 8th bit is cut off. -/
structure DistinctPrefixes
    (cfg : Config)
    (q : Params) : Prop where
  repeats : q.rptflg ≠ 0 → q.rptq ≠ cfg.sCtlq
  eighth : q.ebqflg ≠ 0 → q.ebq &&& 127 ≠ cfg.sCtlq
  both : q.ebqflg ≠ 0 → q.rptflg ≠ 0 → q.ebq ≠ q.rptq

/-- The parameters of a decoder that knows the sender's control prefix. -/
def peerParams
    (cfg : Config)
    (q : Params) : Params :=
  { q with rCtlq := cfg.sCtlq }

/-- Without 8th-bit prefixes the peer reads what the server writes. -/
theorem Negotiable.plain
    {cfg : Config}
    {q : Params}
    (negotiable : Negotiable q)
    (ctlq : cfg.sCtlq = prefixCtrl)
    (distinct : DistinctPrefixes cfg q)
    (noEbq : q.ebqflg = 0) :
    PlainEncoding cfg q ∧ PlainDecoding q (peerParams cfg q) := by
  refine ⟨⟨negotiable.binary, noEbq, ctlq, fun flag =>
      ⟨negotiable.repeats flag, ctlq ▸ distinct.repeats flag⟩⟩,
    negotiable.binary, ?_, ctlq, rfl, fun _ => rfl⟩
  by_contra masked
  exact negotiable.parity.mp masked noEbq

/-- Room for the longest run, and no 8th-bit prefixes. -/
def RoomForRuns
    (q : Params) : Prop :=
  q.ebqflg = 0 ∧ longestRun q ≤ getpktMaxlen q

/-- With room for the runs the fields of an announced file decode to it. -/
theorem Announced.decoded
    {os : Os σ}
    {unread : σ → List UInt8}
    (server : FileServer os unread)
    {q : Params}
    (negotiable : Negotiable q)
    {w : σ}
    {s s' : Sys (Unix σ)}
    (noForce : s.k.cfg.bcta3 = 0)
    (ctlq : s.k.cfg.sCtlq = prefixCtrl)
    (distinct : DistinctPrefixes s.k.cfg q)
    (announced : Announced os q w s s')
    (room : RoomForRuns q) :
    Yields (unixio os) (fun w => unread w.os) True ((unread w).length + 1)
      (fun fields =>
        fields.flatMap (decodeMem (peerParams s.k.cfg q)) = unread w) s' := by
  have cfg := announced.cfg
  have par := announced.par
  obtain ⟨plain, decoding⟩ := negotiable.plain ctlq distinct room.1
  have encoding : PlainEncoding s'.k.cfg s'.k.par := by
    rw [cfg, par]
    exact plain
  have longest := longestRun_bounds q
  have wide := room.2
  obtain ⟨held, counted, -, none⟩ := announced.counted
  have fresh : s'.k.enc.sRpt = 0 := by
    rw [counted, none (.inl (by omega))]
    rfl
  have sending : Sending (fun w => unread w.os) (unread w) s' := by
    refine ⟨⟨encoding, ?_, ?_⟩, .inl ?_, announced.noString,
      .first announced.flag fresh (announced.unread server)⟩
    · rw [par]
      exact wide
    · rw [par]
      exact negotiable.small
    · rw [cfg]
      exact noForce
  refine sending.yields_decoded (readsFile_unixio server.reads) ?_
  rw [par]
  exact decoding

theorem Announced.atFirst
    {os : Os σ}
    {unread : σ → List UInt8}
    (server : FileServer os unread)
    {q : Params}
    (negotiable : Negotiable q)
    {w : σ}
    {s s' : Sys (Unix σ)}
    (noForce : s.k.cfg.bcta3 = 0)
    (announced : Announced os q w s s') :
    AtFirst (fun w => unread w.os) (unread w) s' := by
  refine ⟨?_, ?_, ?_, announced.flag, announced.noString,
    announced.unread server⟩
  · rw [announced.par]
    exact negotiable.binary
  · rw [announced.cfg]
    exact noForce
  · rw [announced.par]
    exact negotiable.small

/-- The control prefix is sent behind itself. -/
theorem encodeBytes_prefixCtrl
    {cfg : Config}
    {q : Params}
    (binary : q.binary = 1)
    (ctlq : cfg.sCtlq = prefixCtrl) :
    encodeBytes cfg q prefixCtrl = [prefixCtrl, prefixCtrl] := by
  have notQuoted : isQuoted 1 prefixCtrl = false := by
    decide
  have lowBit : prefixCtrl &&& 128 = 0 := by
    decide
  simp [encodeBytes, binary, ctlq, notQuoted, lowBit]

/-- The control prefix with its eighth bit set. -/
def highCtrl : UInt8 := 0xA3

/-- Behind an 8th-bit prefix the character keeps its eighth bit. -/
theorem encodeBytes_highCtrl
    {cfg : Config}
    {q : Params}
    (negotiable : Negotiable q)
    (ctlq : cfg.sCtlq = prefixCtrl)
    (distinct : DistinctPrefixes cfg q)
    (prefixed : q.ebqflg ≠ 0) :
    encodeBytes cfg q highCtrl = [q.ebq, highCtrl] := by
  have notQuoted : isQuoted 1 highCtrl = false := by
    decide
  have notCtrl : ¬ highCtrl = prefixCtrl := by
    decide
  have notEbq : ¬ highCtrl = q.ebq := by
    intro same
    have low := distinct.eighth prefixed
    rw [← same, ctlq] at low
    exact low (by decide)
  have notRepeat : ¬ (q.rptflg ≠ 0 ∧ highCtrl = q.rptq) := by
    rintro ⟨flag, same⟩
    have repeats := negotiable.repeats flag
    rw [← same] at repeats
    revert repeats
    decide
  have high : highCtrl &&& 128 ≠ 0 := by
    decide
  unfold encodeBytes
  dsimp only
  rw [if_pos negotiable.binary, if_pos ⟨prefixed, high⟩,
    negotiable.binary, notQuoted, ctlq, if_neg Bool.false_ne_true,
    if_neg notCtrl, if_neg (fun both => notEbq both.2), if_neg notRepeat,
    ite_self]
  rfl

/-- The decoder takes what follows the 8th-bit prefix for a control prefix. -/
theorem decodeMem_highCtrl
    {cfg : Config}
    {q : Params}
    (negotiable : Negotiable q)
    (ctlq : cfg.sCtlq = prefixCtrl)
    (distinct : DistinctPrefixes cfg q)
    (prefixed : q.ebqflg ≠ 0) :
    decodeMem (peerParams cfg q) [q.ebq, highCtrl] ≠ [highCtrl] := by
  have masked := negotiable.parity.mpr prefixed
  have notRepeat : ¬ (q.rptflg ≠ 0 ∧ q.ebq = q.rptq) := by
    rintro ⟨flag, same⟩
    exact distinct.both prefixed flag same
  by_cases ended : q.ebq = 0
  · rw [ended]
    unfold decodeMem
    simp [decodeMemLoop]
  · have next : decodeNext (peerParams cfg q) 0 q.ebq [highCtrl] =
        { char := 128, rpt := 1, rest := [] } := by
      have ctrl : highCtrl &&& 0x7F = prefixCtrl := by
        decide
      have nothing : ∀ p, unquote p 0 = 0 := by
        intro p
        unfold unquote
        rw [if_neg]
        rintro ⟨-, quoted⟩
        revert quoted
        decide
      have once : decodeRpt (peerParams cfg q) 0 q.ebq [highCtrl] =
          { char := q.ebq, rpt := 0, rest := [highCtrl] } := by
        unfold decodeRpt
        exact if_neg notRepeat
      unfold decodeNext
      rw [once]
      dsimp only [peerParams]
      simp only [masked, ne_eq, not_false_eq_true, true_and, if_true,
        peek_cons_zero, List.drop_succ_cons, ctrl, ctlq, peek_nil,
        List.drop_nil, nothing]
      rfl
    unfold decodeMem
    simp only [decodeMemLoop, List.length_cons, List.length_nil,
      peek_cons_zero, List.drop_succ_cons, List.drop_zero, if_neg ended, next,
      peek_nil, if_true]
    decide

/-- A file that does not come through without room for the runs. -/
def lostFile
    (q : Params) : List UInt8 :=
  if longestRun q ≤ getpktMaxlen q then [highCtrl]
  else if q.rptflg ≠ 0 then [prefixCtrl, prefixCtrl, prefixCtrl]
  else [prefixCtrl]

theorem lostFile_nonempty
    (q : Params) :
    lostFile q ≠ [] := by
  unfold lostFile
  split
  · exact List.cons_ne_nil _ _
  · split <;> exact List.cons_ne_nil _ _

/-- Without that room the fields of some file do not decode to it. -/
theorem Announced.lost
    {os : Os σ}
    {unread : σ → List UInt8}
    (server : FileServer os unread)
    {q : Params}
    (negotiable : Negotiable q)
    {w : σ}
    {s s' : Sys (Unix σ)}
    (noForce : s.k.cfg.bcta3 = 0)
    (ctlq : s.k.cfg.sCtlq = prefixCtrl)
    (distinct : DistinctPrefixes s.k.cfg q)
    (announced : Announced os q w s s')
    (noRoom : ¬ RoomForRuns q)
    (file : unread w = lostFile q) :
    ∃ toEnd n,
      Yields (unixio os) (fun w => unread w.os) toEnd n
        (fun fields =>
          fields.flatMap (decodeMem (peerParams s.k.cfg q)) ≠ lostFile q)
        s' := by
  have reader := readsFile_unixio server.reads
  have atFirst := announced.atFirst server negotiable noForce
  rw [file] at atFirst
  have cfg := announced.cfg
  have par := announced.par
  obtain ⟨held, counted, few, none⟩ := announced.counted
  have check : s'.k.par.bct ≤ 3 := by
    rw [par]
    exact negotiable.check.2
  unfold lostFile at atFirst
  by_cases wide : longestRun q ≤ getpktMaxlen q
  · have prefixed : q.ebqflg ≠ 0 := fun zero => noRoom ⟨zero, wide⟩
    have longest := longestRun_bounds q
    rw [if_pos wide] at atFirst
    have fresh : s'.k.enc.sRpt = 0 := by
      rw [counted, none (.inl (by omega))]
      rfl
    refine ⟨True, 2, atFirst.single reader fresh check ?_⟩
    rw [cfg, par, encodeBytes_highCtrl negotiable ctlq distinct prefixed,
      if_pos (by simp only [List.length_cons, List.length_nil]; omega),
      List.flatMap_singleton]
    unfold lostFile
    rw [if_pos wide]
    exact decodeMem_highCtrl negotiable ctlq distinct prefixed
  · rw [if_neg wide] at atFirst
    have bytes := encodeBytes_prefixCtrl (q := q) negotiable.binary ctlq
    unfold longestRun at wide
    by_cases flag : q.rptflg ≠ 0
    · rw [if_pos flag] at atFirst wide
      refine ⟨False, 1, atFirst.narrow reader (par ▸ flag) counted few ?_ ?_ ?_⟩
      · rw [par]
        exact fun room => none (.inl room)
      · rw [cfg, par, bytes]
        simp only [List.length_cons, List.length_nil]
        omega
      · exact (lostFile_nonempty q).symm
    · rw [if_neg flag] at atFirst wide
      have fresh : s'.k.enc.sRpt = 0 := by
        rw [counted, none (.inr (not_not.mp flag))]
        rfl
      refine ⟨True, 2, atFirst.single reader fresh check ?_⟩
      rw [cfg, par, bytes,
        if_neg (by simp only [List.length_cons, List.length_nil]; omega)]
      exact (lostFile_nonempty q).symm

/-! ## The parameters of the peer -/

/--
After this ACK to S, and with a peer that acknowledges every packet, the D
packets of a GET that ends well hold the whole file, whatever the file is.
-/
def CarriesFiles
    (k : KData)
    (rx : Rx)
    (q : Params) : Prop :=
  ∀ (σ : Type) (os : Os σ) (unread : σ → List UInt8),
    FileServer os unread →
    ∀ (v : MainVars (Unix σ)) (w : σ),
      GetStart os k v w →
      unread w ≠ [] →
      ∀ v', AckRun (unixio os) (mainIter (unixio os) rx v) v' →
        v'.ret = some kSuccess →
        (sentFields q.bct (mainIter (unixio os) rx v).sys v'.sys).flatMap
            (decodeMem (peerParams k.cfg q)) =
          unread w

/-- The server waits for the ACK to S in front of a given file. -/
def waitingFor
    (k : KData)
    (file : List UInt8) : MainVars (Unix (List UInt8)) where
  sys :=
    { k := k, r := clearedResponse
      w := { os := file, ofile := -1, ifile := false, calls := [] }, log := [] }
  rxLen := 0
  retrycounter := 0
  start := false
  ret := none

theorem fileOs_server :
    FileServer fileOs (fun file => file) where
  reads := fun _ _ => ⟨rfl, rfl⟩
  sends := fun _ _ => ⟨rfl, rfl⟩

/-- Some file is lost when there is no room for the runs. -/
theorem lost_of_noRoom
    {k : KData}
    (requested : Requested k)
    {rx : Rx}
    {p : Rcvd}
    {buf : List UInt8}
    (ack : ValidAck k.sSeq (heardData rx k) rx.ret p buf)
    (distinct : DistinctPrefixes k.cfg (negotiated k p buf))
    (noRoom : ¬ RoomForRuns (negotiated k p buf)) :
    ¬ CarriesFiles k rx (negotiated k p buf) := by
  intro carries
  have negotiable : Negotiable (negotiated k p buf) :=
    sparParams_negotiable requested.negotiable _ _
  obtain ⟨v, start⟩ :
      ∃ v, GetStart fileOs k v (lostFile (negotiated k p buf)) :=
    ⟨waitingFor k (lostFile (negotiated k p buf)), rfl, rfl, rfl⟩
  obtain ⟨going, announced, -⟩ :=
    mainIter_announced fileOs_server.served.linked requested ack start
  have same := start.data
  subst same
  obtain ⟨toEnd, n, yields⟩ := announced.lost fileOs_server negotiable
    requested.awaiting.wf.noForce requested.ctlq distinct noRoom rfl
  obtain ⟨always, v', run, done⟩ := announced.asked fileOs_server negotiable
    requested.keeps going yields
  have sent := (always v' run done).asked
  rw [announced.par] at sent
  exact sent
    (carries _ fileOs _ fileOs_server v _ start (lostFile_nonempty _) v' run
      done)

/-- A server has accepted an R packet for a file with the bytes `###`. -/
def requestedGet : MainVars (Unix (List UInt8)) :=
  mainIter (unixio fileOs) (packetOf (ch 'R') 0 (lit "f"))
    (mainStart (unixio fileOs) .wait []
      (ekInit (unixio fileOs) []
        { os := lit "###", ofile := -1, ifile := false, calls := [] }))

/-- The R packet as the parser reads it. -/
def oneFileRcvd : Rcvd where
  rtyp := ch 'R'
  rseq := 0
  pdf := 3
  datalen := 1
  ackText := none

theorem requestedGet_requested :
    Requested requestedGet.sys.k := by
  have request : ValidRequest
      (heardData (packetOf (ch 'R') 0 (lit "f"))
        (reinitData (kermitInit (clearedData []))))
      (packetOf (ch 'R') 0 (lit "f")).ret oneFileRcvd
      (poke (poke [] 0 (packetOf (ch 'R') 0 (lit "f")).stored) 4 [0]) :=
    ⟨by decide, by decide, rfl⟩
  exact mainIter_requested (unixio fileOs) (settled_kermitInit []) rfl rfl
    request (by decide +kernel)

/-- An ACK to S with the field `MAXL` as the parser reads it. -/
def lengthRcvd : Rcvd where
  rtyp := ch 'Y'
  rseq := 0
  pdf := 3
  datalen := 1
  ackText := none

/-- The buffer with the ACK when the parser is done with it. -/
def lengthBuf
    (rx : Rx) : List UInt8 :=
  poke (heardData rx requestedGet.sys.k).ipktbuf 4 [0]

/--
The peer's parameters let the D packets of a GET carry every file exactly when
they leave room for the longest run and no 8th-bit prefixes are used.
-/
theorem carriesFiles_iff
    {k : KData}
    (requested : Requested k)
    {rx : Rx}
    {p : Rcvd}
    {buf : List UInt8}
    (ack : ValidAck k.sSeq (heardData rx k) rx.ret p buf)
    (distinct : DistinctPrefixes k.cfg (negotiated k p buf)) :
    CarriesFiles k rx (negotiated k p buf) ↔
      RoomForRuns (negotiated k p buf) := by
  constructor
  · intro carries
    by_contra noRoom
    exact lost_of_noRoom requested ack distinct noRoom carries
  · intro room σ os unread server v w start nonempty v' run done
    have negotiable : Negotiable (negotiated k p buf) :=
      sparParams_negotiable requested.negotiable _ _
    have same := start.data
    obtain ⟨going, announced, -⟩ :=
      mainIter_announced server.served.linked requested ack start
    subst same
    have yields := announced.decoded server negotiable
      requested.awaiting.wf.noForce requested.ctlq distinct room
    have sent := ((announced.asked server negotiable requested.keeps going
      yields).1 v' run done).asked
    rw [announced.par] at sent
    exact sent

theorem carriesFiles_iff_long :
    let k := requestedGet.sys.k
    let rx := packetOf (ch 'Y') 0 (lit "~")
    CarriesFiles k rx (negotiated k lengthRcvd (lengthBuf rx)) ↔
      RoomForRuns (negotiated k lengthRcvd (lengthBuf rx)) := by
  have ack : ValidAck requestedGet.sys.k.sSeq
      (heardData (packetOf (ch 'Y') 0 (lit "~")) requestedGet.sys.k)
      (packetOf (ch 'Y') 0 (lit "~")).ret lengthRcvd
      (lengthBuf (packetOf (ch 'Y') 0 (lit "~"))) :=
    ⟨by decide, by decide +kernel, rfl, by decide +kernel⟩
  exact carriesFiles_iff requestedGet_requested ack
    ⟨by decide +kernel, by decide +kernel, by decide +kernel⟩

/--
The ACK to S allows packets of ten characters.  The server sends a Z packet
for the file `###` without a D packet before it, and ends well.
-/
theorem not_carriesFiles_short :
    let v := requestedGet
    let rx := packetOf (ch 'Y') 0 (lit "*")
    let q := negotiated v.sys.k lengthRcvd (lengthBuf rx)
    let v' :=
      mainLoop (unixio fileOs)
        [rx, packetOf (ch 'Y') 1 [], packetOf (ch 'Y') 2 [],
          packetOf (ch 'Y') 3 [], packetOf (ch 'Y') 4 []] v
    v'.ret = some kSuccess ∧
      sentFields q.bct v.sys v'.sys = [] ∧
      ¬ CarriesFiles v.sys.k rx q := by
  have ack : ValidAck requestedGet.sys.k.sSeq
      (heardData (packetOf (ch 'Y') 0 (lit "*")) requestedGet.sys.k)
      (packetOf (ch 'Y') 0 (lit "*")).ret lengthRcvd
      (lengthBuf (packetOf (ch 'Y') 0 (lit "*"))) :=
    ⟨by decide, by decide +kernel, rfl, by decide +kernel⟩
  refine ⟨by decide +kernel, by decide +kernel, ?_⟩
  refine lost_of_noRoom requestedGet_requested ack
    ⟨by decide +kernel, by decide +kernel, by decide +kernel⟩ ?_
  rintro ⟨-, room⟩
  revert room
  decide +kernel

end Slate106.Kermit
