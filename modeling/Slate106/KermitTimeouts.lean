import Slate106.KermitTurns
import Slate106.KermitKinds
import Mathlib.Data.List.Induction

namespace Slate106.Kermit

open CBytes

/-!
# When `kermit_main` gives up

The retry counter is set once, before the loop: it counts all timeouts of a
session, not those in a row.  And `start` is cleared by the first timeout as
well, so an E packet is sent even when nothing ever arrived.
-/

variable {ω : Type}

/-- `rxd` returned 0. -/
def timedOut
    (rx : Rx) : Bool :=
  rx.ret = 0

/-- Every timeout comes after every packet. -/
def TimeoutsLast
    (rxs : List Rx) : Prop :=
  rxs.Pairwise fun earlier later =>
    timedOut earlier = true → timedOut later = true

/-- The last results of `rxd` were timeouts, more than `retry + 1` in a row. -/
def ManyInARow
    (retry : Int)
    (rxs : List Rx) : Prop :=
  ∃ earlier row, rxs = earlier ++ row ∧
    retry + 1 < (row.length : Int) ∧ ∀ rx ∈ row, timedOut rx = true

/-- An E packet is among those sent between two states of a session. -/
def ErrorSent
    (before after : Sys ω) : Prop :=
  ∃ frame ∈ newTxds before.log after.log, frameType frame = ch 'E'

/-! ## Timeouts in a row -/

/-- When timeouts come last, the packets come first. -/
theorem timeoutsLast_split
    {rxs : List Rx}
    (last : TimeoutsLast rxs) :
    rxs = rxs.filter (!timedOut ·) ++ rxs.filter (timedOut ·) := by
  induction rxs with
  | nil =>
      rfl
  | cons rx rest inductionHypothesis =>
      obtain ⟨after, later⟩ := List.pairwise_cons.mp last
      have split := inductionHypothesis later
      rcases silent : timedOut rx with _ | _
      · simpa [silent] using split
      · have quiet : ∀ other ∈ rest, timedOut other = true :=
          fun other member => after other member silent
        have noPacket : rest.filter (!timedOut ·) = [] := by
          simpa using quiet
        have whole : rest.filter (timedOut ·) = rest :=
          List.filter_eq_self.mpr quiet
        simp [silent, noPacket, whole]

/--
With `retry + 2` timeouts in all, they are in a row exactly when every timeout
comes last.
-/
theorem manyInARow_iff
    {retry : Int}
    {rxs : List Rx}
    (count : (rxs.countP timedOut : Int) = retry + 2) :
    ManyInARow retry rxs ↔ TimeoutsLast rxs := by
  constructor
  · rintro ⟨earlier, row, rfl, long, silent⟩
    have inRow : row.countP timedOut = row.length :=
      List.countP_eq_length.mpr silent
    have none : earlier.countP timedOut = 0 := by
      rw [List.countP_append, inRow] at count
      omega
    have heard : ∀ rx ∈ earlier, ¬ timedOut rx = true :=
      List.countP_eq_zero.mp none
    apply List.pairwise_append.mpr
    refine ⟨?_, ?_, ?_⟩
    · exact List.pairwise_of_forall_mem_list
        fun rx member _ _ timeout => absurd timeout (heard rx member)
    · exact List.pairwise_of_forall_mem_list
        fun _ _ later member _ => silent later member
    · exact fun rx member _ _ timeout => absurd timeout (heard rx member)
  · intro last
    refine ⟨_, _, timeoutsLast_split last, ?_, ?_⟩
    · have inRow : (rxs.filter (timedOut ·)).length = rxs.countP timedOut :=
        List.countP_eq_length_filter.symm
      omega
    · exact fun rx member => (List.mem_filter.mp member).2

/-! ## What the loop has counted -/

/-- A run of the loop that has not been left. -/
structure Counted
    (rxs : List Rx)
    (v next : MainVars ω) : Prop where
  counter : next.retrycounter + rxs.countP timedOut = v.retrycounter
  fine : ∀ rx ∈ rxs, 0 ≤ rx.ret
  start : rxs ≠ [] → next.start = false

theorem counted_run
    {io : Io ω}
    (rxs : List Rx)
    {v : MainVars ω}
    (turning : Turning v)
    (going : (mainLoop io rxs v).ret = none) :
    Counted rxs v (mainLoop io rxs v) := by
  induction rxs using List.reverseRec with
  | nil =>
      exact ⟨by simp [mainLoop], by simp, by simp⟩
  | append_singleton rxs rx inductionHypothesis =>
      rw [mainLoop_append] at going ⊢
      have stillGoing : (mainLoop io rxs v).ret = none := by
        by_contra left
        rw [mainLoop_left io [rx] left] at going
        exact left going
      have before := inductionHypothesis stillGoing
      have turn := turn_cases io (turning.run rxs stillGoing) rx
      have one : mainLoop io [rx] (mainLoop io rxs v) =
          mainIter io rx (mainLoop io rxs v) := rfl
      rw [one] at going ⊢
      generalize mainLoop io rxs v = last at before turn going
      generalize mainIter io rx last = next at turn going
      have counter := before.counter
      cases turn with
      | fatal failed =>
          cases going
      | gaveUp silent spent =>
          cases going
      | handled retrycounter ret counted left given =>
          have added :
              (rxs ++ [rx]).countP timedOut =
                rxs.countP timedOut + if timedOut rx then 1 else 0 := by
            simp [List.countP_append, List.countP_cons]
          refine ⟨?_, ?_, fun _ => rfl⟩
          · rw [added]
            rcases counted with ⟨some, same⟩ | ⟨silent, unspent, less⟩
            · have heard : timedOut rx = false := by
                simp [timedOut]
                omega
              rw [heard]
              simp only [Bool.false_eq_true, if_false]
              omega
            · have timeout : timedOut rx = true := by
                simpa [timedOut] using silent
              rw [timeout]
              simp only [if_true]
              omega
          · intro other member
            rcases List.mem_append.mp member with earlier | this
            · exact before.fine other earlier
            · rw [List.mem_singleton.mp this]
              omega

/-! ## The E packet -/

/-- A short message is sent in an E packet. -/
theorem epkt_sent
    (io : Io ω)
    {msg : List UInt8}
    (short : (cstr msg).length ≤ 80)
    (s : Sys ω) :
    ∃ frame result, frameType frame = ch 'E' ∧
      (epkt io msg s).log = .txd frame result :: s.log := by
  have shape : ∀ t : Sys ω, inForce t.k = 1 ∨ inForce t.k = 3 →
      ∃ frame result, frameType frame = ch 'E' ∧
        (spkt io (ch 'E') 0 (-1) (some msg) t).2.log =
          .txd frame result :: t.log := by
    intro t check
    have data : spktData (-1) (some msg) = cstr msg := rfl
    have fits :
        (sentFrame (ch 'E') 0 (spktData (-1) (some msg)) t.k).length <
          100 := by
      have header :
          (pktHeader (inForce t.k) (ch 'E') 0 (cstr msg).length).length ≤
            6 := by
        unfold pktHeader
        dsimp only
        split <;> simp
      rw [length_sentFrame check, data]
      omega
    rw [spkt_unslotted io (by decide) (by decide) (by decide) fits]
    exact ⟨_, _, frameType_pktFrame _ _ _ _, rfl⟩
  apply shape
  by_cases forced : s.k.cfg.bcta3 = 0
  · exact Or.inl (by simp [inForce, setBct, forced])
  · exact Or.inr (by simp [inForce, setBct, forced])

/-- `K_ERROR` sends an E packet. -/
theorem errorSent_kermit
    {io : Io ω}
    {s : Sys ω}
    (wf : Wf s.k)
    (len : Int)
    {msg : List UInt8}
    (short : (cstr msg).length ≤ 80) :
    ErrorSent s (kermit io .error len msg s).2 := by
  obtain ⟨frame, result, kind, sent⟩ := epkt_sent io short s
  refine ⟨frame, ?_, kind⟩
  have mode : ∀ mode,
      (callClosef io 0 mode (epkt io msg s)).2.log =
        [.closef 0 mode, .txd frame result] ++ s.log := by
    intro mode
    simp [callClosef, sent]
  unfold kermit
  rw [wf.testRslots]
  dsimp only
  rw [mode, newTxds_append]
  simp [txds]

/-! ## Giving up -/

/--
When `kermit_main()` gives up: the timeouts were in a row, and an E packet is
sent exactly if there was a packet, if and only if there was a packet and all
the packets came before the first timeout.
-/
theorem gives_up_rightly_iff
    {io : Io ω}
    (action : Action)
    (cmlist : List StrRef)
    {s : Sys ω}
    (session : Session s.k)
    {rxs : List Rx}
    {rx : Rx}
    (silent : timedOut rx = true)
    (going : (mainLoop io rxs (mainStart io action cmlist s)).ret = none)
    (gaveUp :
      (mainLoop io (rxs ++ [rx]) (mainStart io action cmlist s)).ret =
        some kTimeout) :
    let v := mainStart io action cmlist s
    (ManyInARow s.k.par.retry (rxs ++ [rx]) ∧
        (ErrorSent (mainLoop io rxs v).sys (mainLoop io (rxs ++ [rx]) v).sys ↔
          ∃ packet ∈ rxs, 0 < packet.ret)) ↔
      (∃ packet ∈ rxs, 0 < packet.ret) ∧ TimeoutsLast (rxs ++ [rx]) := by
  obtain ⟨turning, counter⟩ := @turning_mainStart _ io _ action cmlist session
  have retries := session.retries
  intro v
  have counted := counted_run rxs turning going
  have last := turn_cases io (turning.run rxs going) rx
  have reached := turning.run rxs going
  have one :
      mainLoop io (rxs ++ [rx]) (mainStart io action cmlist s) =
        mainIter io rx (mainLoop io rxs (mainStart io action cmlist s)) :=
    mainLoop_append io rxs [rx] _
  have isZero : rx.ret = 0 := by
    simpa [timedOut] using silent
  have outcome :
      (mainLoop io rxs v).retrycounter = 0 ∧
        (mainLoop io (rxs ++ [rx]) v).sys =
          if (mainLoop io rxs v).start then heardSys rx (mainLoop io rxs v).sys
          else (kermit io .error 0 (lit "eksw to")
            (heardSys rx (mainLoop io rxs v).sys)).2 := by
    rw [one] at gaveUp
    rw [one]
    generalize mainIter io rx (mainLoop io rxs v) = next at last gaveUp
    cases last with
    | fatal failed =>
        omega
    | gaveUp silent spent =>
        exact ⟨spent, rfl⟩
    | handled retrycounter ret counted left given =>
        rcases given with none | success | failure
        · cases none.symm.trans gaveUp
        · exact absurd (success.symm.trans gaveUp) (by decide)
        · exact absurd (failure.symm.trans gaveUp) (by decide)
  obtain ⟨spent, sys⟩ := outcome
  have timeouts : (rxs.countP timedOut : Int) = s.k.par.retry + 1 := by
    have total := counted.counter
    rw [spent, counter] at total
    omega
  have some : rxs ≠ [] := by
    rintro rfl
    simp at timeouts
    omega
  have sent :
      ErrorSent (mainLoop io rxs v).sys (mainLoop io (rxs ++ [rx]) v).sys := by
    have heard : Wf (heardSys rx (mainLoop io rxs v).sys).k :=
      reached.wf.scratch (heardSys_core rx _) io
    rw [sys, counted.start some]
    exact @errorSent_kermit _ io (heardSys rx (mainLoop io rxs v).sys)
      heard 0 (lit "eksw to") (by decide)
  have inRow :
      ManyInARow s.k.par.retry (rxs ++ [rx]) ↔
        TimeoutsLast (rxs ++ [rx]) := by
    apply manyInARow_iff
    simp [List.countP_append, silent]
    omega
  rw [inRow]
  simp only [sent, true_iff]
  exact and_comm

/-- A short packet that is tossed. -/
def tossed : Rx :=
  { ret := 3, stored := [35, 32, 89, 0] }

/-- A call of `rxd` that times out. -/
def nothingRead : Rx :=
  { ret := 0, stored := [] }

/-- A server whose session has just begun. -/
def begunServer : MainVars (Unix Unit) :=
  mainStart (unixio idleOs) .wait []
    (ekInit (unixio idleOs) [] { os := (), ofile := -1, ifile := false,
                                 calls := [] })

theorem gives_up_rightly_iff_tossed :
    let rxs := tossed :: List.replicate 4 nothingRead
    let v := begunServer
    let last := mainLoop (unixio idleOs) (rxs ++ [nothingRead]) v
    ManyInARow 3 (rxs ++ [nothingRead]) ∧
      (ErrorSent (mainLoop (unixio idleOs) rxs v).sys last.sys ↔
        ∃ packet ∈ rxs, 0 < packet.ret) :=
  (gives_up_rightly_iff .wait [] (session_ekInit (unixio idleOs) [] _)
    (by decide) (by decide) (by decide)).mpr
    ⟨by decide, by unfold TimeoutsLast; decide⟩

/-- An end by isolated timeouts, and an E packet to a peer never heard of. -/
theorem isolated_timeouts_abort :
    let isolated := (List.replicate 4 [nothingRead, tossed]).flatten
    let silence := List.replicate 4 nothingRead
    let loop := fun rxs => mainLoop (unixio idleOs) rxs begunServer
    ((loop isolated).ret = none ∧
        (loop (isolated ++ [nothingRead])).ret = some kTimeout ∧
        ¬ ManyInARow 3 (isolated ++ [nothingRead])) ∧
      ((loop silence).ret = none ∧
        (loop (silence ++ [nothingRead])).ret = some kTimeout ∧
        ErrorSent (loop silence).sys (loop (silence ++ [nothingRead])).sys ∧
        ¬ ∃ packet ∈ silence, 0 < packet.ret) := by
  refine ⟨⟨by decide, by decide, ?_⟩, by decide, by decide, ?_, by decide⟩
  · rw [manyInARow_iff (by decide)]
    unfold TimeoutsLast
    decide
  · exact ⟨_, List.mem_singleton.mpr rfl, by decide⟩

end Slate106.Kermit
