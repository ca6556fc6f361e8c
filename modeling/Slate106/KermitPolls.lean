import Mathlib.Algebra.GroupWithZero.Nat
import Slate106.KermitFrame

namespace Slate106.Kermit

open CBytes

/-!
# The clock of `kreadpkt`

The loop that waits for the next byte counts `r_timo * 1200` down, ten by ten
as long as ten are left, and stops at zero.  So it makes `120 * r_timo` polls
for one byte, and the byte that comes with the last of them is not looked at.
With `r_timo` zero the first poll already takes the countdown below its end.
-/

/-! ## One poll -/

/-- The result of a poll: what `kreadpkt()` returns, or how it polls again. -/
def pollTurn
    (p : Params)
    (poll : Poll)
    (v : ReadVars) : Rx ⊕ ReadVars :=
  match poll with
  | .error => .inl { ret := -kEnd, stored := v.stored }
  | .empty =>
      if (countDown v).timeout ≠ 0 then .inr (countDown v)
      else .inl { ret := 0, stored := v.stored }
  | .byte c =>
      if (countDown v).timeout = 0 then .inl { ret := 0, stored := v.stored }
      else readByte p c (countDown v)

theorem countDown_stored
    (v : ReadVars) :
    (countDown v).stored = v.stored := by
  unfold countDown
  split <;> rfl

/-- `kreadpkt()` is poll after poll. -/
theorem kreadpktFrom_cons
    (p : Params)
    (poll : Poll)
    (rest : List Poll)
    (v : ReadVars) :
    kreadpktFrom p (poll :: rest) v =
      match pollTurn p poll v with
      | .inl rx => some (rx, rest)
      | .inr next => kreadpktFrom p rest next := by
  cases poll with
  | error =>
      rfl
  | empty =>
      simp only [kreadpktFrom, pollTurn]
      split
      · rfl
      · rw [countDown_stored]
  | byte c =>
      simp only [kreadpktFrom, pollTurn]
      split
      · rw [countDown_stored]
      · rfl

/-- The polls `kreadpkt()` makes, each with the variables before it. -/
def visits
    (p : Params) : List Poll → ReadVars → List (Poll × ReadVars)
  | [], _ => []
  | poll :: rest, v =>
      (poll, v) ::
        match pollTurn p poll v with
        | .inl _ => []
        | .inr next => visits p rest next

/-- The call waits for more polls, or returns with the last of these. -/
def OneCall
    (p : Params)
    (polls : List Poll)
    (v : ReadVars) : Prop :=
  ∀ rx rest, kreadpktFrom p polls v = some (rx, rest) → rest = []

/-- When a poll makes the call return, it is the last of the call. -/
theorem OneCall.last
    {p : Params}
    {poll : Poll}
    {rest : List Poll}
    {v : ReadVars}
    {rx : Rx}
    (oneCall : OneCall p (poll :: rest) v)
    (returns : pollTurn p poll v = .inl rx) :
    rest = [] := by
  apply oneCall rx rest
  rw [kreadpktFrom_cons, returns]

theorem OneCall.next
    {p : Params}
    {poll : Poll}
    {rest : List Poll}
    {v next : ReadVars}
    (oneCall : OneCall p (poll :: rest) v)
    (goesOn : pollTurn p poll v = .inr next) :
    OneCall p rest next := by
  intro rx left returned
  apply oneCall rx left
  rw [kreadpktFrom_cons, goesOn]
  exact returned

/-! ## The countdown -/

/-- The polls `kreadpkt()` makes for one byte; zero stands for no limit. -/
def pollLimit
    (p : Params) : Nat :=
  120 * p.rTimo

/-- The countdown after some polls without a byte. -/
structure Clock
    (p : Params)
    (pause : Nat)
    (v : ReadVars) : Prop where
  endless : pollLimit p = 0 → v.timeout ≤ 0
  counting :
    0 < pollLimit p →
      pause < pollLimit p ∧ v.timeout = 10 * ((pollLimit p : Int) - pause)

theorem clock_reset
    {p : Params}
    {v : ReadVars}
    (reset : v.timeout = readTimeout p) :
    Clock p 0 v := by
  unfold readTimeout at reset
  constructor
  · intro endless
    unfold pollLimit at endless
    omega
  · intro positive
    unfold pollLimit at positive ⊢
    omega

/-- The countdown ends with the last poll of the limit and with no other. -/
theorem Clock.ends_iff
    {p : Params}
    {pause : Nat}
    {v : ReadVars}
    (clock : Clock p pause v) :
    (countDown v).timeout = 0 ↔ pause + 1 = pollLimit p := by
  rcases Nat.eq_zero_or_pos (pollLimit p) with endless | positive
  · have below := clock.endless endless
    have fast : ¬ v.timeout ≥ 10 := by
      omega
    simp only [countDown, if_neg fast]
    omega
  · obtain ⟨inside, left⟩ := clock.counting positive
    have fast : v.timeout ≥ 10 := by
      omega
    simp only [countDown, if_pos fast]
    omega

theorem Clock.next
    {p : Params}
    {pause : Nat}
    {v : ReadVars}
    (clock : Clock p pause v)
    (running : pause + 1 ≠ pollLimit p) :
    Clock p (pause + 1) (countDown v) := by
  constructor
  · intro endless
    have below := clock.endless endless
    have fast : ¬ v.timeout ≥ 10 := by
      omega
    simp only [countDown, if_neg fast]
    omega
  · intro positive
    obtain ⟨inside, left⟩ := clock.counting positive
    have fast : v.timeout ≥ 10 := by
      omega
    simp only [countDown, if_pos fast]
    omega

/-- The comparison with the command leaves the packet alone. -/
theorem matchCmd_kept
    (c : UInt8)
    (v : ReadVars) :
    (matchCmd c v).2.flag = v.flag ∧
      (matchCmd c v).2.n = v.n ∧
      (matchCmd c v).2.stored = v.stored := by
  unfold matchCmd
  dsimp only
  split <;> split <;> exact ⟨rfl, rfl, rfl⟩

/-- The branches of the framing code. -/
theorem readByte_eq
    (p : Params)
    (c : UInt8)
    (v : ReadVars) :
    readByte p c v =
      if (matchCmd c v).1 then .inl { ret := -kEnd, stored := v.stored }
      else if !v.flag ∧ unparity p c ≠ p.rSoh then
        .inr { (matchCmd c v).2 with timeout := readTimeout p }
      else if unparity p c = p.rSoh then
        .inr { (matchCmd c v).2 with timeout := readTimeout p, flag := true }
      else if unparity p c = p.rEom then
        .inl { ret := v.n, stored := v.stored ++ [0] }
      else if v.n > p.rMaxlen then
        .inl { ret := v.n + 1, stored := v.stored }
      else
        .inr
          { (matchCmd c v).2 with
            timeout := readTimeout p
            n := v.n + 1
            stored := v.stored ++ [c] } := by
  unfold readByte
  rw [← unparity]
  simp only [matchCmd_kept]

/-- A byte that does not end the call starts the countdown again. -/
theorem readByte_timeout
    {p : Params}
    {c : UInt8}
    {v next : ReadVars}
    (goesOn : readByte p c v = .inr next) :
    next.timeout = readTimeout p := by
  rw [readByte_eq] at goesOn
  split at goesOn
  · cases goesOn
  · split at goesOn
    · cases goesOn
      rfl
    · split at goesOn
      · cases goesOn
        rfl
      · split at goesOn
        · cases goesOn
        · split at goesOn
          · cases goesOn
          · cases goesOn
            rfl

/-! ## A silent line -/

/-- `ft_wait_ms(10)` or `ft_wait_ms(1)`, after a poll that did not fail. -/
def waitMs
    (visit : Poll × ReadVars) : Nat :=
  if visit.1 = .error then 0 else if visit.2.timeout ≥ 10 then 10 else 1

/-- The milliseconds a call of `kreadpkt()` asks to wait for. -/
def requestedWait
    (p : Params)
    (polls : List Poll) : Nat :=
  ((visits p polls (ReadVars.start p)).map waitMs).sum

/--
With nothing on the line `kreadpkt()` returns zero after some number of polls,
having asked for `r_timo * 1200` milliseconds.
-/
def TimesOut
    (p : Params) : Prop :=
  ∃ count rx,
    kreadpkt p (List.replicate count .empty) = some (rx, []) ∧
      rx.ret = 0 ∧
      requestedWait p (List.replicate count .empty) = p.rTimo * 1200

/-- The polls that are left of the limit end the call, and each waits. -/
theorem silent_from
    {p : Params}
    (left : Nat)
    {pause : Nat}
    {v : ReadVars}
    (clock : Clock p pause v)
    (positive : 0 < pollLimit p)
    (limit : pause + left + 1 = pollLimit p) :
    kreadpktFrom p (List.replicate (left + 1) .empty) v =
        some ({ ret := 0, stored := v.stored }, []) ∧
      (visits p (List.replicate (left + 1) .empty) v).map waitMs =
        List.replicate (left + 1) 10 := by
  induction left generalizing pause v with
  | zero =>
      have slow : v.timeout ≥ 10 := by
        have counting := clock.counting positive
        omega
      have ended := clock.ends_iff.mpr limit
      have returns :
          pollTurn p .empty v = .inl { ret := 0, stored := v.stored } := by
        simp [pollTurn, ended]
      rw [List.replicate_succ, kreadpktFrom_cons, visits, returns]
      exact ⟨rfl, by simp [waitMs, slow]⟩
  | succ left inductionHypothesis =>
      have slow : v.timeout ≥ 10 := by
        have counting := clock.counting positive
        omega
      have running : pause + 1 ≠ pollLimit p := by
        omega
      have goesOn : pollTurn p .empty v = .inr (countDown v) := by
        simp [pollTurn, clock.ends_iff, running]
      have later := clock.next running
      obtain ⟨returned, waited⟩ := inductionHypothesis later (by omega)
      rw [List.replicate_succ, kreadpktFrom_cons, visits, goesOn]
      refine ⟨?_, ?_⟩
      · rw [← countDown_stored v]
        exact returned
      · rw [List.map_cons, waited, List.replicate_succ (n := left + 1)]
        simp [waitMs, slow]

/-- A call on a silent line times out after as many polls as the limit. -/
theorem kreadpkt_silent
    {p : Params}
    (positive : 0 < pollLimit p) :
    kreadpkt p (List.replicate (pollLimit p) .empty) =
        some ({ ret := 0, stored := [] }, []) ∧
      (visits p (List.replicate (pollLimit p) .empty)
          (ReadVars.start p)).map waitMs =
        List.replicate (pollLimit p) 10 := by
  have polls : pollLimit p - 1 + 1 = pollLimit p := by
    omega
  have silent :=
    silent_from (v := ReadVars.start p) (pollLimit p - 1) (clock_reset rfl)
      positive (by omega)
  rw [polls] at silent
  exact silent

/-- Every poll of a silent line waits. -/
private theorem waits_once
    (p : Params)
    (count : Nat)
    (v : ReadVars) :
    0 < ((visits p (List.replicate (count + 1) .empty) v).map waitMs).sum := by
  have waits : 0 < waitMs (.empty, v) := by
    unfold waitMs
    split
    · contradiction
    · split <;> decide
  rw [List.replicate_succ, visits, List.map_cons, List.sum_cons]
  omega

theorem timesOut_iff
    (p : Params) :
    TimesOut p ↔ p.rTimo ≠ 0 := by
  constructor
  · rintro ⟨count, rx, returned, -, waited⟩ zero
    cases count with
    | zero =>
        cases returned
    | succ count =>
        have some := waits_once p count (ReadVars.start p)
        rw [← requestedWait, waited, zero] at some
        exact absurd some (by decide)
  · intro nonzero
    have positive : 0 < pollLimit p := by
      unfold pollLimit
      omega
    obtain ⟨returned, waited⟩ := kreadpkt_silent positive
    refine ⟨_, _, returned, rfl, ?_⟩
    rw [requestedWait, waited, List.sum_replicate_nat]
    unfold pollLimit
    omega

/-- `spar()` changes the timeout in its second field only. -/
theorem sparParams_rTimo
    (cfg : Config)
    (fld : Nat → UInt8)
    (datalen : Int)
    (p : Params) :
    (sparParams cfg fld datalen p).rTimo =
      if datalen ≥ 2 then (xunchar (fld 2)).toNat else p.rTimo := by
  have capas : ∀ q, (sparCapas cfg fld datalen q).rTimo = q.rTimo := by
    intro q
    simp only [sparCapas, apply_ite Params.rTimo, ite_self]
  have checks : ∀ q, (sparChecks cfg fld datalen q).rTimo = q.rTimo := by
    intro q
    simp only [sparChecks, apply_ite Params.rTimo, ite_self]
  have ebq : ∀ q, (sparEbq fld datalen q).rTimo = q.rTimo := by
    intro q
    simp only [sparEbq, apply_ite Params.rTimo, ite_self]
  rw [sparParams, capas, checks, ebq, sparBasic]
  simp only [apply_ite Params.rTimo, ite_self]

theorem xunchar_eq_zero
    (c : UInt8) :
    (xunchar c).toNat = 0 ↔ c = ch ' ' := by
  constructor
  · intro zero
    have blank : xunchar c = 0 := UInt8.toNat_inj.mp zero
    have back : tochar (xunchar c) = c := by
      simp [tochar, xunchar]
    rw [← back, blank]
    rfl
  · rintro rfl
    rfl

/--
What `spar()` installs from a parameter string times out on a silent line
exactly when the timeout in force is not zero: the timeout field is no blank,
or the string has none and the old timeout was not zero.
-/
theorem spar_timesOut_iff
    (pdf : Nat)
    (datalen : Int)
    (k : KData) :
    TimesOut (spar pdf datalen k).par ↔
      if datalen ≥ 2 then peek k.ipktbuf (pdf + 1) ≠ ch ' '
      else k.par.rTimo ≠ 0 := by
  rw [timesOut_iff, spar, sparParams_rTimo]
  split
  · exact not_congr (xunchar_eq_zero _)
  · exact Iff.rfl

/-- A parameter string of a length field and a blank. -/
theorem blank_timeout_never_times_out :
    (freshSys 0).k.par.rTimo ≠ 0 ∧
      ¬ TimesOut
        (spar 0 2 { (freshSys 0).k with ipktbuf := [ch '~', ch ' '] }).par := by
  rw [timesOut_iff]
  decide

/-! ## The byte that comes with the last poll -/

/-- The byte a poll took from the receive FIFO. -/
def takenByte : Poll × ReadVars → Option UInt8
  | (.byte c, _) => some c
  | (.empty, _) => none
  | (.error, _) => none

/-- The byte a poll took and handed on to the framing code. -/
def framedByte
    (visit : Poll × ReadVars) : Option UInt8 :=
  if (countDown visit.2).timeout = 0 then none else takenByte visit

/-- The bytes a call takes from the receive FIFO. -/
def takenBytes
    (p : Params)
    (polls : List Poll)
    (v : ReadVars) : List UInt8 :=
  (visits p polls v).filterMap takenByte

/-- The bytes a call looks at. -/
def framedBytes
    (p : Params)
    (polls : List Poll)
    (v : ReadVars) : List UInt8 :=
  (visits p polls v).filterMap framedByte

/-- A byte comes with the last poll of the limit. -/
def lateByte
    (limit : Nat) : Nat → List Poll → Bool
  | _, [] => false
  | pause, .byte _ :: rest => pause + 1 = limit || lateByte limit 0 rest
  | pause, _ :: rest => lateByte limit (pause + 1) rest

/-- The bytes that come before the last poll of the limit. -/
def bytesInTime
    (limit : Nat) : Nat → List Poll → List UInt8
  | _, [] => []
  | pause, .byte c :: rest =>
      if pause + 1 = limit then bytesInTime limit 0 rest
      else c :: bytesInTime limit 0 rest
  | pause, _ :: rest => bytesInTime limit (pause + 1) rest

/--
The framing code looks at the bytes that come in time; a byte is lost exactly
when one comes with the last poll.
-/
private theorem framed_from
    {p : Params}
    (polls : List Poll)
    {pause : Nat}
    {v : ReadVars}
    (clock : Clock p pause v)
    (oneCall : OneCall p polls v) :
    framedBytes p polls v = bytesInTime (pollLimit p) pause polls ∧
      (framedBytes p polls v = takenBytes p polls v ↔
        lateByte (pollLimit p) pause polls = false) := by
  induction polls generalizing pause v with
  | nil =>
      exact ⟨rfl, by simp [framedBytes, takenBytes, visits, lateByte]⟩
  | cons poll rest inductionHypothesis =>
      cases poll with
      | error =>
          have returns :
              pollTurn p .error v = .inl { ret := -kEnd, stored := v.stored } :=
            rfl
          have last := oneCall.last returns
          subst last
          simp [framedBytes, takenBytes, visits, returns, framedByte,
            takenByte, bytesInTime, lateByte]
      | empty =>
          by_cases ended : pause + 1 = pollLimit p
          · have returns :
                pollTurn p .empty v = .inl { ret := 0, stored := v.stored } := by
              simp [pollTurn, clock.ends_iff, ended]
            have last := oneCall.last returns
            subst last
            simp [framedBytes, takenBytes, visits, returns, framedByte,
              takenByte, bytesInTime, lateByte]
          · have goesOn : pollTurn p .empty v = .inr (countDown v) := by
              simp [pollTurn, clock.ends_iff, ended]
            have later :=
              inductionHypothesis (clock.next ended) (oneCall.next goesOn)
            simpa [framedBytes, takenBytes, visits, goesOn, framedByte,
              takenByte, bytesInTime, lateByte, List.filterMap_cons]
              using later
      | byte c =>
          by_cases ended : pause + 1 = pollLimit p
          · have returns :
                pollTurn p (.byte c) v =
                  .inl { ret := 0, stored := v.stored } := by
              simp [pollTurn, clock.ends_iff, ended]
            have last := oneCall.last returns
            subst last
            simp [framedBytes, takenBytes, visits, returns, framedByte,
              takenByte, bytesInTime, lateByte, clock.ends_iff, ended]
          · have framing :
                pollTurn p (.byte c) v = readByte p c (countDown v) := by
              simp [pollTurn, clock.ends_iff, ended]
            cases read : readByte p c (countDown v) with
            | inl rx =>
                have returns := framing.trans read
                have last := oneCall.last returns
                subst last
                simp [framedBytes, takenBytes, visits, returns, framedByte,
                  takenByte, bytesInTime, lateByte, clock.ends_iff, ended]
            | inr next =>
                have goesOn := framing.trans read
                have later :=
                  inductionHypothesis (clock_reset (readByte_timeout read))
                    (oneCall.next goesOn)
                simpa [framedBytes, takenBytes, visits, goesOn, framedByte,
                  takenByte, bytesInTime, lateByte, clock.ends_iff, ended]
                  using later

/--
The polls of one call of `kreadpkt()` lose no byte exactly when none brings a
byte as the last poll the countdown allows.
-/
theorem no_byte_lost_iff
    (p : Params)
    (polls : List Poll)
    (oneCall : OneCall p polls (ReadVars.start p)) :
    framedBytes p polls (ReadVars.start p) =
        takenBytes p polls (ReadVars.start p) ↔
      lateByte (pollLimit p) 0 polls = false :=
  (framed_from polls (clock_reset rfl) oneCall).2

/-- A call that returns with the last of some polls made no others. -/
theorem oneCall_of_returns
    {p : Params}
    {polls : List Poll}
    {v : ReadVars}
    {rx : Rx}
    (returned : kreadpktFrom p polls v = some (rx, [])) :
    OneCall p polls v := by
  intro other rest same
  rw [returned] at same
  cases same
  rfl

theorem no_byte_lost_packet :
    framedBytes (freshSys 0).k.par [.byte 0x13, .empty, .byte 0x0d]
        (ReadVars.start (freshSys 0).k.par) =
      takenBytes (freshSys 0).k.par [.byte 0x13, .empty, .byte 0x0d]
        (ReadVars.start (freshSys 0).k.par) :=
  (no_byte_lost_iff (freshSys 0).k.par [.byte 0x13, .empty, .byte 0x0d]
    (@oneCall_of_returns _ _ _ { ret := 0, stored := [0] } rfl)).mpr
    (by decide)

/-- The start of a packet is lost with the last poll of a countdown. -/
theorem late_start_lost :
    let polls := List.replicate 119 Poll.empty ++ [.byte 0x13]
    let p := { (freshSys 0).k.par with rTimo := 1 }
    kreadpkt p polls = some ({ ret := 0, stored := [] }, []) ∧
      takenBytes p polls (ReadVars.start p) = [0x13] ∧
      framedBytes p polls (ReadVars.start p) = [] := by
  decide

end Slate106.Kermit
