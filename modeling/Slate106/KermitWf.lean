import Slate106.KermitMoves

namespace Slate106.Kermit

open CBytes

/-!
# Well-formed sessions

The invariant of every session that was set up by `_EK_init` and `K_REINIT`:
one window slot, no forced block check, and slots that hold what their other
fields say.
-/

variable {ω : Type}

/-- The invariant of `k_data` in every session. -/
structure Wf
    (k : KData) : Prop where
  noForce : k.cfg.bcta3 = 0
  oneSlot : k.cfg.wslotsMax = 1
  window : k.par.wslots = 1
  noWindowing : k.par.capas &&& capSw = 0
  received :
    0 ≤ (k.win.ipktinfo 0).seq →
      chk3 (cstr (k.win.ipktinfo 0).buf) = (k.win.ipktinfo 0).crc
  kept :
    (k.win.opktinfo 0).len < pBuflen →
      (k.win.opktinfo 0).len ≤ (k.win.opktinfo 0).buf.length
  mapped : ∀ seq, k.win.sPw seq = -1 ∨ k.win.sPw seq = 0

/-! ## One window slot -/

theorem slots_one
    {k : KData}
    (window : k.par.wslots = 1) :
    slots k = [0] := by
  simp [slots, window]

theorem getSslot_free
    {k : KData}
    (window : k.par.wslots = 1)
    (free : (k.win.opktinfo 0).len < 1) :
    getSslot k =
      (0,
        { k with
          win.opktinfo := put k.win.opktinfo 0
            { k.win.opktinfo 0 with
              len := -1, seq := -1, typ := ch ' ', rtr := 0, flg := 0 } }) := by
  simp [getSslot, slots_one window, free]

theorem getSslot_full
    {k : KData}
    (window : k.par.wslots = 1)
    (full : 1 ≤ (k.win.opktinfo 0).len) :
    getSslot k = (-1, k) := by
  simp [getSslot, slots_one window, full]

theorem getRslot_free
    {k : KData}
    (window : k.par.wslots = 1)
    (free : (k.win.ipktinfo 0).len < 1) :
    getRslot k =
      (0,
        { k with
          win.ipktinfo := put k.win.ipktinfo 0
            { k.win.ipktinfo 0 with
              len := -1, seq := -1, typ := ch ' ', crc := 0xFFFF } }) := by
  simp [getRslot, slots_one window, free]

theorem getRslot_full
    {k : KData}
    (window : k.par.wslots = 1)
    (full : 1 ≤ (k.win.ipktinfo 0).len) :
    getRslot k = (-1, k) := by
  simp [getRslot, slots_one window, full]

/-- Test of the slots finds nothing in a well-formed session. -/
theorem Wf.testRslots
    {s : Sys ω}
    (wf : Wf s.k)
    (io : Io ω) :
    testRslots io s = s := by
  have consistent :
      ¬ ((decide ((s.k.win.ipktinfo 0).seq ≥ 0) &&
        chk3 (cstr (s.k.win.ipktinfo 0).buf) !=
          (s.k.win.ipktinfo 0).crc) = true) := by
    simp only [Bool.and_eq_true, decide_eq_true_eq, bne_iff_ne, not_and,
      not_not]
    exact wf.received
  unfold Kermit.testRslots
  simp only [slots_one wf.window, List.any_cons, List.any_nil, Bool.or_false]
  rw [if_neg consistent]

/-! ## The steps keep the invariant -/

private theorem and_keeps_zero
    {capas mask : UInt16}
    (zero : capas &&& mask = 0)
    (other : UInt16) :
    capas &&& other &&& mask = 0 := by
  rw [UInt16.and_assoc, UInt16.and_comm other mask, ← UInt16.and_assoc, zero,
    UInt16.zero_and]

private theorem clear_keeps_zero
    {capas mask : UInt16}
    (zero : capas &&& mask = 0)
    (cleared : Prop)
    [Decidable cleared]
    (other : UInt16) :
    (if cleared then capas &&& other else capas) &&& mask = 0 := by
  split
  · exact and_keeps_zero zero other
  · exact zero

private theorem capasAnd_noWindowing
    {capas : UInt16}
    (noWindowing : capas &&& capSw = 0)
    (x : UInt16) :
    capasAnd x capas &&& capSw = 0 := by
  unfold capasAnd
  have packets := clear_keeps_zero noWindowing (x &&& capLp = 0) (~~~capLp)
  have windows := clear_keeps_zero packets (x &&& capSw = 0) (~~~capSw)
  have attributes := clear_keeps_zero windows (x &&& capAt = 0) (~~~capAt)
  exact and_keeps_zero (and_keeps_zero attributes _) _

private theorem sparCapas_window
    {cfg : Config}
    {p : Params}
    (noWindowing : p.capas &&& capSw = 0)
    (fld : Nat → UInt8)
    (datalen : Int) :
    (sparCapas cfg fld datalen p).wslots = 1 ∧
      (sparCapas cfg fld datalen p).capas &&& capSw = 0 ∧
      (sparCapas cfg fld datalen p).retry = p.retry := by
  unfold sparCapas
  dsimp only
  generalize capasField fld datalen = y
  have later :
      (if datalen ≥ 10 then
        { p with capas := capasAnd (xunchar (fld 10)).toUInt16 p.capas }
      else p).capas &&& capSw = 0 := by
    split
    · exact capasAnd_noWindowing noWindowing _
    · exact noWindowing
  have retry :
      (if datalen ≥ 10 then
        { p with capas := capasAnd (xunchar (fld 10)).toUInt16 p.capas }
      else p).retry = p.retry := by
    split <;> rfl
  generalize
    (if datalen ≥ 10 then
      { p with capas := capasAnd (xunchar (fld 10)).toUInt16 p.capas }
    else p) = q at later retry
  by_cases long : q.capas &&& capLp ≠ 0 ∧ datalen > y + 1
  · simp only [if_pos long, later, retry, ne_eq, not_true_eq_false, if_false,
      and_self]
  · simp only [if_neg long, later, retry, ne_eq, not_true_eq_false, if_false,
      and_self]

private theorem sparChecks_window
    (cfg : Config)
    (fld : Nat → UInt8)
    (datalen : Int)
    (p : Params) :
    (sparChecks cfg fld datalen
        (sparEbq fld datalen (sparBasic fld datalen p))).capas = p.capas ∧
      (sparChecks cfg fld datalen
        (sparEbq fld datalen (sparBasic fld datalen p))).retry = p.retry := by
  constructor
  · simp only [sparChecks, sparEbq, sparBasic, apply_ite Params.capas,
      ite_self]
  · simp only [sparChecks, sparEbq, sparBasic, apply_ite Params.retry,
      ite_self]

/-- `spar()` negotiates one window slot when no other was offered. -/
theorem sparParams_window
    {cfg : Config}
    {p : Params}
    (noWindowing : p.capas &&& capSw = 0)
    (fld : Nat → UInt8)
    (datalen : Int) :
    (sparParams cfg fld datalen p).wslots = 1 ∧
      (sparParams cfg fld datalen p).capas &&& capSw = 0 := by
  obtain ⟨capas, -⟩ := sparChecks_window cfg fld datalen p
  obtain ⟨window, windowing, -⟩ :=
    @sparCapas_window cfg _ (capas ▸ noWindowing) fld datalen
  exact ⟨window, windowing⟩

/-- Without windows `spar()` leaves the retry limit alone. -/
theorem sparParams_retry
    {cfg : Config}
    {p : Params}
    (noWindowing : p.capas &&& capSw = 0)
    (fld : Nat → UInt8)
    (datalen : Int) :
    (sparParams cfg fld datalen p).retry = p.retry := by
  obtain ⟨capas, retry⟩ := sparChecks_window cfg fld datalen p
  obtain ⟨-, -, kept⟩ :=
    @sparCapas_window cfg _ (capas ▸ noWindowing) fld datalen
  exact kept.trans retry

/-- A free of a send slot keeps the invariant. -/
theorem Wf.freeSslot
    {k : KData}
    (wf : Wf k)
    (slot : Int) :
    Wf (freeSslot slot k) := by
  unfold Kermit.freeSslot
  split
  · exact wf
  · rename_i inside
    simp only [Bool.or_eq_true, decide_eq_true_eq, not_or] at inside
    have isZero : slot = 0 := by
      simp only [pWslots] at inside
      omega
    subst isZero
    refine ⟨wf.noForce, wf.oneSlot, wf.window, wf.noWindowing, wf.received,
      ?_, ?_⟩
    · intro _
      simp
    · intro seq
      dsimp only
      split
      · by_cases same : seq = (k.win.opktinfo 0).seq
        · rw [same, put_same]
          exact Or.inl rfl
        · rw [put_other _ same]
          exact wf.mapped seq
      · exact wf.mapped seq

private theorem Wf.freeSslotEascaLoop
    {k : KData}
    (wf : Wf k)
    (count : Nat) :
    Wf (freeSslotEascaLoop count k) := by
  induction count generalizing k with
  | zero =>
      exact wf
  | succ count inductionHypothesis =>
      unfold Kermit.freeSslotEascaLoop
      dsimp only
      split
      · exact wf
      · split
        · exact wf
        · split
          · exact wf
          · exact inductionHypothesis (wf.freeSslot _)

/-- A send slot is filled with a packet whose length is that of its bytes. -/
theorem Wf.putSslot
    {k : KData}
    (wf : Wf k)
    {slot : Int}
    {p : Packet}
    (kept : slot = 0 → p.len < pBuflen → p.len ≤ p.buf.length) :
    Wf { k with win.opktinfo := put k.win.opktinfo slot p } := by
  refine ⟨wf.noForce, wf.oneSlot, wf.window, wf.noWindowing, wf.received,
    ?_, wf.mapped⟩
  by_cases isZero : (0 : Int) = slot
  · subst isZero
    simpa using kept rfl
  · simp only [put_other _ isZero]
    exact wf.kept

/-- A receive slot is filled with a packet whose CRC is that of its bytes. -/
private theorem Wf.putRslot
    {k : KData}
    (wf : Wf k)
    {slot : Int}
    {p : Packet}
    (rPw : Int → Int)
    (received :
      slot = 0 → 0 ≤ p.seq → chk3 (cstr p.buf) = p.crc) :
    Wf
      { k with
        win.ipktinfo := put k.win.ipktinfo slot p
        win.rPw := rPw } := by
  refine ⟨wf.noForce, wf.oneSlot, wf.window, wf.noWindowing, ?_, wf.kept,
    wf.mapped⟩
  by_cases isZero : (0 : Int) = slot
  · subst isZero
    simpa using received rfl
  · simp only [put_other _ isZero]
    exact wf.received

theorem Wf.getSslot
    {k : KData}
    (wf : Wf k) :
    Wf (getSslot k).2 := by
  by_cases free : (k.win.opktinfo 0).len < 1
  · rw [getSslot_free wf.window free]
    refine wf.putSslot (fun _ _ => ?_)
    exact Int.le_trans (show (-1 : Int) ≤ 0 by decide)
      (Int.natCast_nonneg _)
  · rw [getSslot_full wf.window (by omega)]
    exact wf

private theorem Wf.getRslot
    {k : KData}
    (wf : Wf k) :
    Wf (getRslot k).2 := by
  by_cases free : (k.win.ipktinfo 0).len < 1
  · rw [getRslot_free wf.window free]
    refine wf.putRslot k.win.rPw (fun _ sequence => ?_)
    exact absurd (show (0 : Int) ≤ -1 from sequence) (by decide)
  · rw [getRslot_full wf.window (by omega)]
    exact wf

theorem Wf.mapSseq
    {k : KData}
    (wf : Wf k)
    {slot : Int}
    (lower : -1 ≤ slot)
    (upper : slot < k.par.wslots) :
    Wf (mapSseq slot k) := by
  refine ⟨wf.noForce, wf.oneSlot, wf.window, wf.noWindowing, wf.received,
    wf.kept, ?_⟩
  intro seq
  by_cases same : seq = k.sSeq
  · have window := wf.window
    simp only [Kermit.mapSseq, same, put_same]
    omega
  · simp only [Kermit.mapSseq, put_other _ same]
    exact wf.mapped seq

private theorem Wf.storeRslot
    {k : KData}
    (wf : Wf k)
    (slot rseq : Int)
    {text : List UInt8}
    (short : (cstr text).length < pBuflen) :
    Wf (storeRslot slot rseq text k) := by
  refine wf.putRslot _ (fun _ _ => ?_)
  have whole : (cstr text ++ [0]).take pBuflen = cstr text ++ [0] := by
    apply List.take_of_length_le
    rw [List.length_append]
    exact short
  simp only [whole]
  rw [cstr_append_zero (zero_notMem_cstr text)]

theorem Chore.wf
    {io : Io ω}
    {s s' : Sys ω}
    (step : Chore io s s')
    (wf : Wf s.k) :
    Wf s'.k := by
  have control := (Work.chore step).control
  have same := step.window
  refine ⟨?_, ?_, ?_, ?_, ?_, ?_, ?_⟩
  · rw [control.cfg]
    exact wf.noForce
  · rw [control.cfg]
    exact wf.oneSlot
  · rw [same.wslots]
    exact wf.window
  · rw [same.capas]
    exact wf.noWindowing
  · rw [same.ipktinfo]
    exact wf.received
  · rw [same.opktinfo]
    exact wf.kept
  · rw [same.sPw]
    exact wf.mapped

/-- One step of work keeps a session well formed. -/
theorem Work.wf
    {io : Io ω}
    {s s' : Sys ω}
    (step : Work io s s')
    (wf : Wf s.k) :
    Wf s'.k := by
  cases step with
  | chore step =>
      exact step.wf wf
  | txd =>
      exact wf
  | writef =>
      exact wf
  | decodeFile =>
      exact wf
  | spar pdf datalen =>
      obtain ⟨window, noWindowing⟩ :=
        sparParams_window wf.noWindowing
          (fun field => peek s.k.ipktbuf (pdf + field - 1)) datalen
      exact ⟨wf.noForce, wf.oneSlot, window, noWindowing, wf.received,
        wf.kept, wf.mapped⟩
  | getSslot =>
      exact wf.getSslot
  | mapSseq slot _ lower upper =>
      exact wf.mapSseq lower upper
  | fill slot typ seq len buf _ enough =>
      have forced : forceBcta3 s.k = s.k := by
        simp [forceBcta3, wf.noForce]
      simp only [onK, filled, forced]
      refine wf.putSslot (fun _ small => ?_)
      simp only at small ⊢
      omega
  | freeSslot slot =>
      exact wf.freeSslot slot
  | acknowledge slot =>
      refine Wf.freeSslotEascaLoop (wf.putSslot (fun isZero => ?_)) _
      subst isZero
      exact wf.kept
  | retry slot rtr =>
      refine wf.putSslot (fun isZero => ?_)
      subst isZero
      exact wf.kept
  | getRslot =>
      exact wf.getRslot
  | clearRslot slot =>
      refine wf.putRslot _ (fun _ sequence => ?_)
      exact absurd (show (0 : Int) ≤ -1 from sequence) (by decide)
  | storeRslot slot rseq text _ short =>
      exact wf.storeRslot slot rseq short
  | nakked slot rtr =>
      refine wf.putRslot s.k.win.rPw (fun isZero => ?_)
      subst isZero
      exact wf.received

theorem Works.wf
    {io : Io ω}
    {s s' : Sys ω}
    (steps : Works io s s')
    (wf : Wf s.k) :
    Wf s'.k := by
  induction steps with
  | refl =>
      exact wf
  | tail _ step inductionHypothesis =>
      exact step.wf inductionHypothesis

theorem Wf.control
    {k : KData}
    (wf : Wf k)
    (state : State)
    (what : What) :
    Wf { k with state := state, what := what } :=
  ⟨wf.noForce, wf.oneSlot, wf.window, wf.noWindowing, wf.received, wf.kept,
    wf.mapped⟩

/-- The steps of a call keep a session well formed. -/
theorem Moves.wf
    {io : Io ω}
    {s s' : Sys ω}
    (steps : Moves io s s')
    (wf : Wf s.k) :
    Wf s'.k := by
  induction steps with
  | refl =>
      exact wf
  | tail _ step inductionHypothesis =>
      cases step with
      | work step =>
          exact step.wf inductionHypothesis
      | state state =>
          exact inductionHypothesis.control state _
      | what what =>
          exact inductionHypothesis.control _ what

theorem Ran.wf
    {io : Io ω}
    {s : Sys ω}
    {result : Int × Sys ω}
    (ran : Ran io s result)
    (wf : Wf s.k) :
    Wf result.2.k := by
  rcases ran.steps with steps | ⟨done, t, steps, last⟩
  · exact steps.wf wf
  · rw [last]
    exact (steps.wf wf).control .rWait t.k.what

theorem Move.set
    {io : Io ω}
    {s s' : Sys ω}
    (step : Move io s s')
    (set : s.k.state ≠ .rNone) :
    s'.k.state ≠ .rNone := by
  cases step with
  | work step =>
      rw [step.control.state]
      exact set
  | state state s active =>
      exact active.2
  | what =>
      exact set

/-- No call leaves the protocol state unset. -/
theorem Moves.set
    {io : Io ω}
    {s s' : Sys ω}
    (steps : Moves io s s')
    (set : s.k.state ≠ .rNone) :
    s'.k.state ≠ .rNone := by
  induction steps with
  | refl =>
      exact set
  | tail _ step inductionHypothesis =>
      exact step.set inductionHypothesis

/-! ## Reachable sessions -/

/--
The sessions of a program that calls `_EK_init` and `K_REINIT` first: after any
calls of `kermit()`, with any packets received and any files asked for between
them.
-/
inductive Reachable
    (io : Io ω) : Sys ω → Prop where
  | start
      (rootPath : List UInt8)
      (w : ω)
      (msg : List UInt8) :
      Reachable io (kermit io .reinit 0 msg (ekInit io rootPath w)).2
  | call
      (fc : Fc)
      (len : Int)
      (msg : List UInt8)
      {s : Sys ω}
      (before : Reachable io s) :
      Reachable io (kermit io fc len msg s).2
  | receive
      (rx : Rx)
      {s : Sys ω}
      (before : Reachable io s) :
      Reachable io (receive rx s)
  | ready
      {s : Sys ω}
      (before : Reachable io s) :
      Reachable io (onK ok2rxd s)
  | request
      (names : List StrRef)
      (type : Action)
      {s : Sys ω}
      (before : Reachable io s) :
      Reachable io { s with k.filelist := names, r.type := type }

theorem Wf.scratch
    {s s' : Sys ω}
    (wf : Wf s.k)
    (same : SameCore s s')
    (io : Io ω) :
    Wf s'.k :=
  (Chore.scratch same : Chore io s s').wf wf

theorem Wf.reinitData
    {k : KData}
    (noForce : k.cfg.bcta3 = 0)
    (oneSlot : k.cfg.wslotsMax = 1)
    (noWindowing : k.par.capas &&& capSw = 0) :
    Wf (reinitData k) := by
  refine ⟨noForce, oneSlot, oneSlot, noWindowing, ?_, ?_, ?_⟩
  · intro sequence
    exact absurd (show (0 : Int) ≤ -1 from sequence) (by decide)
  · intro _
    exact Int.natCast_nonneg _
  · intro seq
    exact Or.inl rfl

section Requests

variable {io : Io ω}

private theorem works_encodeRequest
    (request : List UInt8)
    (s : Sys ω) :
    Works io s (encodeRequest io request s) := by
  have put :
      Works io s
        { s with
          k.obuf := poke s.k.obuf 0 (request ++ [0])
          k.enc.xdata := .xdatabuf } :=
    works_scratch ⟨rfl, rfl, rfl, rfl, rfl, rfl, rfl, rfl, rfl, rfl, rfl⟩
  exact put.and (works_encstr .obuf _)

/-- The session after a request: work, and then a new state if it was sent. -/
def Asked
    (io : Io ω)
    (s : Sys ω)
    (k : KData) : Prop :=
  ∃ t, Works io s t ∧
    (k = t.k ∨
      ∃ state what recvdir,
        state ≠ .rNone ∧
          k = { t.k with state := state, what := what, recvdir := recvdir })

theorem asked_kermitDir
    (s : Sys ω) :
    Asked io s (kermitDir io s).2.k := by
  have begun : Works io _ _ :=
    (works_encodeRequest (ch 'D' :: requestNames s) s).and
      (works_listSlot _)
  unfold kermitDir
  dsimp only
  generalize
    onK (fun k => resetBct (takeSslot k).2)
      (encodeRequest io (ch 'D' :: requestNames s) s) = first at begun
  have sent :=
    begun.and (works_spkt (ch 'G') first.k.sSeq (-1)
      (some (xdataMem first.k)) first)
  split
  · exact ⟨_, sent, Or.inl rfl⟩
  · exact ⟨_, sent, Or.inr ⟨.rWait, .dir, 1, by decide, rfl⟩⟩

theorem asked_kermitGet
    (s : Sys ω) :
    Asked io s (kermitGet io s).2.k := by
  have encoded : Works io _ _ := works_encodeRequest (requestNames s) s
  unfold kermitGet
  dsimp only
  generalize encodeRequest io (requestNames s) s = first at encoded
  split
  · exact ⟨_, encoded, Or.inl rfl⟩
  · have begun := encoded.and (works_listSlot first)
    generalize onK (fun k => resetBct (takeSslot k).2) first = second
      at begun
    have sent :=
      begun.and (works_spkt (ch 'R') second.k.sSeq (-1)
        (some (xdataMem second.k)) second)
    split
    · exact ⟨_, sent, Or.inl rfl⟩
    · exact ⟨_, sent, Or.inr ⟨.rWait, .get, _, by decide, rfl⟩⟩

theorem asked_kermitSend
    (s : Sys ω) :
    Asked io s (kermitSend io s).2.k := by
  have sent : Works io s (rpar io (ch 'S') s).2 := works_rpar (ch 'S') s
  unfold kermitSend
  dsimp only
  split
  · exact ⟨_, sent, Or.inl rfl⟩
  · exact ⟨_, sent, Or.inr ⟨.sInit, .send, _, by decide, rfl⟩⟩

theorem Asked.wf
    {s : Sys ω}
    {k : KData}
    (asked : Asked io s k)
    (wf : Wf s.k) :
    Wf k := by
  obtain ⟨t, sent, unchanged | ⟨state, what, recvdir, -, changed⟩⟩ := asked
  · rw [unchanged]
    exact sent.wf wf
  · have still := sent.wf wf
    rw [changed]
    exact ⟨still.noForce, still.oneSlot, still.window, still.noWindowing,
      still.received, still.kept, still.mapped⟩

theorem Asked.set
    {s : Sys ω}
    {k : KData}
    (asked : Asked io s k)
    (set : s.k.state ≠ .rNone) :
    k.state ≠ .rNone := by
  obtain ⟨t, sent, unchanged | ⟨state, what, recvdir, active, changed⟩⟩ :=
    asked
  · rw [unchanged, sent.control.state]
    exact set
  · rw [changed]
    exact active

theorem Wf.kermit
    {s : Sys ω}
    (wf : Wf s.k)
    (fc : Fc)
    (len : Int)
    (msg : List UInt8) :
    Wf (kermit io fc len msg s).2.k := by
  unfold Kermit.kermit
  rw [wf.testRslots io]
  cases fc with
  | init =>
      refine ⟨wf.noForce, wf.oneSlot, wf.window, ?_, wf.received, wf.kept,
        wf.mapped⟩
      simp only [onK, kermitInit, wf.window]
      decide
  | reinit =>
      exact Wf.reinitData wf.noForce wf.oneSlot wf.noWindowing
  | dir =>
      exact (asked_kermitDir s).wf wf
  | get =>
      exact (asked_kermitGet s).wf wf
  | send =>
      exact (asked_kermitSend s).wf wf
  | sync =>
      have told : Works io s (epkt io msg s) := works_epkt msg s
      exact told.wf wf
  | error =>
      have told : Works io s (epkt io msg s) := works_epkt msg s
      exact (told.then (.closef 0 _ _)).wf wf
  | run =>
      exact (ran_kermitRun len msg s).wf wf
  | status =>
      exact wf
  | quit =>
      exact wf
  | other =>
      exact wf

/-- Every reachable session is well formed. -/
theorem reachable_wf
    {s : Sys ω}
    (reachable : Reachable io s) :
    Wf s.k := by
  induction reachable with
  | start rootPath w msg =>
      have noWindowing : (capLp ||| capAt) &&& capSw = 0 := by
        decide
      rw [ekInit_eq]
      exact Wf.reinitData rfl rfl noWindowing
  | call fc len msg before inductionHypothesis =>
      exact inductionHypothesis.kermit fc len msg
  | receive rx before inductionHypothesis =>
      exact inductionHypothesis.scratch
        ⟨rfl, rfl, rfl, rfl, rfl, rfl, rfl, rfl, rfl, rfl, rfl⟩ io
  | ready before inductionHypothesis =>
      exact inductionHypothesis.scratch
        ⟨rfl, rfl, rfl, rfl, rfl, rfl, rfl, rfl, rfl, rfl, rfl⟩ io
  | request names type before inductionHypothesis =>
      exact inductionHypothesis.scratch
        ⟨rfl, rfl, rfl, rfl, rfl, rfl, rfl, rfl, rfl, rfl, rfl⟩ io

/-- No function code leaves the protocol state unset. -/
theorem kermit_set
    {s : Sys ω}
    (wf : Wf s.k)
    (set : s.k.state ≠ .rNone)
    (fc : Fc)
    (len : Int)
    (msg : List UInt8) :
    (kermit io fc len msg s).2.k.state ≠ .rNone := by
  have told : (epkt io msg s).k.state ≠ .rNone := by
    have told : Works io s (epkt io msg s) := works_epkt msg s
    rw [told.control.state]
    exact set
  unfold Kermit.kermit
  rw [wf.testRslots io]
  cases fc with
  | init | status | quit | other =>
      exact set
  | reinit =>
      exact fun waits => nomatch waits
  | sync | error =>
      exact told
  | dir =>
      exact (asked_kermitDir s).set set
  | get =>
      exact (asked_kermitGet s).set set
  | send =>
      exact (asked_kermitSend s).set set
  | run =>
      rcases (ran_kermitRun len msg s).steps with steps | ⟨_, t, _, last⟩
      · exact steps.set set
      · rw [last]
        exact fun waits => nomatch waits

/-- The protocol state of a reachable session is set. -/
theorem reachable_set
    {s : Sys ω}
    (reachable : Reachable io s) :
    s.k.state ≠ .rNone := by
  induction reachable with
  | start =>
      exact fun waits => nomatch waits
  | call fc len msg before inductionHypothesis =>
      exact kermit_set (reachable_wf before) inductionHypothesis fc len msg
  | receive | ready | request =>
      assumption

end Requests

/-- What `rxd` returns for a packet with block check 1. -/
def packetOf
    (typ : UInt8)
    (seq : Int)
    (data : List UInt8) : Rx where
  ret := (pktBody 1 typ seq data).length
  stored := pktBody 1 typ seq data ++ [0]

/-- A server that waits for its first request. -/
def idleServer
    {σ : Type}
    (os : Os σ)
    (outside : σ) : Sys (Unix σ) :=
  (kermit (unixio os) .reinit 0 []
    (ekInit (unixio os) []
      { os := outside, ofile := -1, ifile := false, calls := [] })).2

theorem idleServer_reachable
    {σ : Type}
    (os : Os σ)
    (outside : σ) :
    Reachable (unixio os) (idleServer os outside) :=
  .start [] _ []

/-- The server has received a packet and handled it. -/
def handled
    {σ : Type}
    (os : Os σ)
    (rx : Rx)
    (s : Sys (Unix σ)) : Sys (Unix σ) :=
  (kermit (unixio os) .run rx.ret [] (receive rx s)).2

theorem handled_reachable
    {σ : Type}
    {os : Os σ}
    (rx : Rx)
    {s : Sys (Unix σ)}
    (reachable : Reachable (unixio os) s) :
    Reachable (unixio os) (handled os rx s) :=
  .call _ _ _ (.receive rx reachable)

end Slate106.Kermit
