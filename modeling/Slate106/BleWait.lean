import Slate106.KermitPolls

namespace Slate106.Ble

open Kermit

/-!
# Waiting for a byte

`ft_wait_ms()` adds the milliseconds to the nanoseconds of the clock without a
carry into the seconds.  In the last milliseconds of a second the result is no
time at all for `pthread_cond_timedwait()`, which then does not wait; and a call
of `kreadpkt()` on a silent line lasts longer than a second.
-/

/-! ## One wait -/

/-- `struct timespec`. -/
structure Timespec where
  tvSec : Int
  tvNsec : Int
  deriving Repr, DecidableEq

namespace Timespec

/-- The nanoseconds since the clock was zero. -/
def nanos
    (ts : Timespec) : Int :=
  ts.tvSec * 1000000000 + ts.tvNsec

/-- A second has less than 10^9 nanoseconds. -/
def Normalised
    (ts : Timespec) : Prop :=
  0 ≤ ts.tvNsec ∧ ts.tvNsec < 1000000000

instance decidableNormalised
    (ts : Timespec) :
    Decidable ts.Normalised :=
  inferInstanceAs (Decidable (_ ∧ _))

end Timespec

/-- `ts.tv_nsec += (timeMS * 1000000);` with a `long` of 32 bits. -/
def deadline
    (ts : Timespec)
    (timeMS : UInt32) : Timespec :=
  { ts with
    tvNsec := Int.bmod (ts.tvNsec + (timeMS * 1000000).toNat) (2 ^ 32) }

/--
`pthread_cond_timedwait()` without a signal: the nanoseconds until it returns.
A time that is not normalised is refused with `EINVAL`.
-/
def pthreadCondTimedwait
    (now abstime : Timespec) : Int :=
  if abstime.Normalised then max 0 (abstime.nanos - now.nanos) else 0

/-- `ft_wait_ms()` when the clock reads `now`: the nanoseconds it takes. -/
def ftWaitMs
    (now : Timespec)
    (timeMS : UInt32) : Int :=
  pthreadCondTimedwait now (deadline now timeMS)

/-- The deadline is normalised, and it is that much later than the clock. -/
def RightDeadline
    (now : Timespec)
    (timeMS : UInt32) : Prop :=
  (deadline now timeMS).Normalised ∧
    (deadline now timeMS).nanos = now.nanos + timeMS.toNat * 1000000

instance decidableRightDeadline
    (now : Timespec)
    (timeMS : UInt32) :
    Decidable (RightDeadline now timeMS) :=
  inferInstanceAs (Decidable (_ ∧ _))

section Wait

variable {now : Timespec}
variable {timeMS : UInt32}

/-- Milliseconds as `kreadpkt()` asks for them do not overflow. -/
theorem deadline_tvNsec
    (valid : now.Normalised)
    (short : timeMS.toNat ≤ 10) :
    (deadline now timeMS).tvNsec = now.tvNsec + timeMS.toNat * 1000000 := by
  obtain ⟨lower, upper⟩ := valid
  have product : (timeMS * 1000000).toNat = timeMS.toNat * 1000000 := by
    have million : (1000000 : UInt32).toNat = 1000000 := by
      decide
    rw [UInt32.toNat_mul, million]
    omega
  unfold deadline
  dsimp only
  rw [product, Int.bmod_eq_of_le (by omega) (by omega)]
  omega

/-- The deadline is right unless it is in the next second. -/
theorem rightDeadline_iff
    (valid : now.Normalised)
    (short : timeMS.toNat ≤ 10) :
    RightDeadline now timeMS ↔
      now.tvNsec + timeMS.toNat * 1000000 < 1000000000 := by
  have nsec := deadline_tvNsec valid short
  have sec : (deadline now timeMS).tvSec = now.tvSec := rfl
  unfold RightDeadline Timespec.Normalised Timespec.nanos
  rw [nsec, sec]
  unfold Timespec.Normalised at valid
  omega

/-- A wait takes its whole time, or none. -/
theorem ftWaitMs_eq
    (valid : now.Normalised)
    (short : timeMS.toNat ≤ 10) :
    ftWaitMs now timeMS =
      if now.tvNsec + timeMS.toNat * 1000000 < 1000000000 then
        (timeMS.toNat * 1000000 : Int)
      else 0 := by
  have right := rightDeadline_iff valid short
  unfold ftWaitMs pthreadCondTimedwait
  split
  · rename_i normalised
    have nsec := deadline_tvNsec valid short
    have below := normalised.2
    rw [nsec] at below
    rw [if_pos below, (right.mpr below).2]
    omega
  · rename_i refused
    exact (if_neg fun below => refused (right.mpr below).1).symm

end Wait

/-! ## The waits of a call -/

/-- The nanoseconds that waits take, each at what the clock reads then. -/
def waited
    (clock : Nat → Timespec) : List Nat → Int
  | [] => 0
  | ms :: rest =>
      ftWaitMs (clock 0) (UInt32.ofNat ms) +
        waited (fun i => clock (i + 1)) rest

/-- The nanoseconds that a call of `kreadpkt()` on a silent line waits. -/
def silentWait
    (p : Params)
    (clock : Nat → Timespec) : Int :=
  let polls := List.replicate (pollLimit p) .empty
  waited clock ((visits p polls (ReadVars.start p)).map waitMs)

/-- `kreadpkt()` asks for ten milliseconds, or for one. -/
theorem passed_le
    {p : Params}
    {polls : List Poll}
    {v : ReadVars}
    {timeMS : Nat}
    (passed : timeMS ∈ (visits p polls v).map waitMs) :
    timeMS ≤ 10 := by
  obtain ⟨visit, -, rfl⟩ := List.mem_map.mp passed
  unfold waitMs
  split
  · decide
  · split
    · decide
    · decide

/-- Waits of ten milliseconds take at most that, and less if one is refused. -/
theorem waited_replicate
    {clock : Nat → Timespec}
    (valid : ∀ i, (clock i).Normalised)
    (count : Nat) :
    waited clock (List.replicate count 10) ≤ count * 10000000 ∧
      (waited clock (List.replicate count 10) = count * 10000000 ↔
        ∀ i < count, (clock i).tvNsec < 990000000) := by
  induction count generalizing clock with
  | zero =>
      exact
        ⟨by simp [waited],
          iff_of_true rfl fun i below => absurd below (Nat.not_lt_zero i)⟩
  | succ count inductionHypothesis =>
      obtain ⟨bound, total⟩ :=
        @inductionHypothesis (fun i => clock (i + 1)) fun i => valid (i + 1)
      have first := @ftWaitMs_eq (clock 0) 10 (valid 0) (by decide)
      have ten : (10 : UInt32).toNat = 10 := by
        decide
      rw [ten] at first
      have split : waited clock (List.replicate (count + 1) 10) =
          ftWaitMs (clock 0) 10 +
            waited (fun i => clock (i + 1)) (List.replicate count 10) :=
        rfl
      have later :
          (∀ i < count + 1, (clock i).tvNsec < 990000000) ↔
            (clock 0).tvNsec < 990000000 ∧
              ∀ i < count, (clock (i + 1)).tvNsec < 990000000 :=
        Nat.forall_lt_succ_left
      rw [split, later, ← total]
      split at first
      · constructor
        · omega
        · omega
      · constructor
        · omega
        · omega

theorem silentWait_eq
    {p : Params}
    (timo : 0 < p.rTimo)
    (clock : Nat → Timespec) :
    silentWait p clock = waited clock (List.replicate (pollLimit p) 10) := by
  have positive : 0 < pollLimit p := by
    unfold pollLimit
    omega
  unfold silentWait
  dsimp only
  rw [(kreadpkt_silent positive).2]

/-- A silent call waits for its whole time when no deadline is refused. -/
theorem silentWait_iff
    {p : Params}
    (timo : 0 < p.rTimo)
    {clock : Nat → Timespec}
    (running : ∀ i, (clock i).Normalised) :
    silentWait p clock = p.rTimo * 1200 * 1000000 ↔
      ∀ i < pollLimit p, (clock i).tvNsec < 990000000 := by
  rw [silentWait_eq timo, ← (waited_replicate running _).2]
  unfold pollLimit
  omega

/--
Every deadline `kreadpkt()` asks for is right exactly when it is in the second
of the clock reading, and a silent call waits for its whole time exactly when
none of its polls comes in the last ten milliseconds of a second.
-/
theorem ftWaitMs_right_iff
    {now : Timespec}
    (valid : now.Normalised)
    {p : Params}
    {polls : List Poll}
    {timeMS : Nat}
    (passed : timeMS ∈ (visits p polls (ReadVars.start p)).map waitMs)
    (timo : 0 < p.rTimo)
    {clock : Nat → Timespec}
    (running : ∀ i, (clock i).Normalised) :
    (RightDeadline now (UInt32.ofNat timeMS) ↔
        now.tvNsec + timeMS * 1000000 < 1000000000) ∧
      (silentWait p clock = p.rTimo * 1200 * 1000000 ↔
        ∀ i < pollLimit p, (clock i).tvNsec < 990000000) := by
  have short := passed_le passed
  have value : (UInt32.ofNat timeMS).toNat = timeMS := by
    rw [UInt32.toNat_ofNat']
    omega
  have right := rightDeadline_iff valid (value.le.trans short)
  rw [value] at right
  exact ⟨right, silentWait_iff timo running⟩

/-- The first wait of a call, half a second after a full one. -/
theorem ftWaitMs_right_half :
    let p := (freshSys 0).k.par
    let half : Timespec := { tvSec := 7, tvNsec := 500000000 }
    (RightDeadline half 10 ↔ half.tvNsec + 10 * 1000000 < 1000000000) ∧
      (silentWait p (fun _ => half) = p.rTimo * 1200 * 1000000 ↔
        ∀ i < pollLimit p, half.tvNsec < 990000000) :=
  @ftWaitMs_right_iff { tvSec := 7, tvNsec := 500000000 } (by decide)
    (freshSys 0).k.par [.empty] 10 (by decide) (by decide)
    (fun _ => { tvSec := 7, tvNsec := 500000000 }) (fun _ => by decide)

/-- Five milliseconds before a full second nothing waits any more. -/
theorem late_ftWaitMs_refused :
    let p := (freshSys 0).k.par
    let late : Timespec := { tvSec := 7, tvNsec := 995000000 }
    late.Normalised ∧
      10 ∈ (visits p [.empty] (ReadVars.start p)).map waitMs ∧
      ¬ (deadline late 10).Normalised ∧
      ¬ RightDeadline late 10 ∧
      0 < p.rTimo ∧
      silentWait p (fun _ => late) ≠ p.rTimo * 1200 * 1000000 := by
  refine
    ⟨by decide, by decide, by decide, by decide, by decide, fun whole => ?_⟩
  have never :=
    (silentWait_iff (by decide) fun _ => by decide).mp whole 0 (by decide)
  exact absurd never (by decide)

/-! ## A clock that only the waits move -/

/-- As long as no wait is refused, each makes the clock go on. -/
theorem nanos_after
    {clock : Nat → Timespec}
    (valid : ∀ i, (clock i).Normalised)
    (moved :
      ∀ i, (clock (i + 1)).nanos = (clock i).nanos + ftWaitMs (clock i) 10)
    (count : Nat)
    (early : ∀ i < count, (clock i).tvNsec < 990000000) :
    (clock count).nanos = (clock 0).nanos + count * 10000000 ∧
      (clock count).tvSec = (clock 0).tvSec := by
  induction count with
  | zero =>
      exact ⟨by simp, rfl⟩
  | succ count inductionHypothesis =>
      obtain ⟨nanos, sec⟩ :=
        inductionHypothesis fun i below => early i (by omega)
      have waits := @ftWaitMs_eq (clock count) 10 (valid count) (by decide)
      have ten : (10 : UInt32).toNat = 10 := by
        decide
      have before := early count (by omega)
      have next := moved count
      rw [ten, if_pos (by omega)] at waits
      have lower := valid count
      have upper := valid (count + 1)
      unfold Timespec.Normalised at lower upper
      unfold Timespec.nanos at nanos next ⊢
      constructor
      · omega
      · omega

/-- Whenever it starts, a silent call does not wait for its whole time. -/
theorem silentWait_short
    {p : Params}
    (timo : 0 < p.rTimo)
    {clock : Nat → Timespec}
    (valid : ∀ i, (clock i).Normalised)
    (moved :
      ∀ i, (clock (i + 1)).nanos = (clock i).nanos + ftWaitMs (clock i) 10) :
    silentWait p clock ≠ p.rTimo * 1200 * 1000000 := by
  intro whole
  have early := (silentWait_iff timo valid).mp whole
  have polls : 100 ≤ pollLimit p := by
    unfold pollLimit
    omega
  obtain ⟨nanos, sec⟩ :=
    nanos_after valid moved 100 fun i below => early i (by omega)
  have first := valid 0
  have last := valid 100
  unfold Timespec.Normalised at first last
  unfold Timespec.nanos at nanos
  omega

end Slate106.Ble
