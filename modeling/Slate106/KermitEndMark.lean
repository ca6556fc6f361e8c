import Slate106.KermitPolls
import Slate106.KermitRequested
import Slate106.KermitTerminator

namespace Slate106.Kermit

open CBytes

/-!
# The terminator the peer asks for

From the request to the end of a GET, the packets of a server whose peer asks
for a carriage return have it at their end only.  With any other control
character there is a file that puts it into a D packet.
-/

section Server

variable {σ : Type}
variable {os : Os σ}

/-! ## Received packets -/

/-- What `rxd` can return while its terminator is the carriage return. -/
def Received
    (rx : Rx) : Prop :=
  ∃ (p : Params) (polls rest : List Poll),
    p.rEom = packetEnd ∧ kreadpkt p polls = some (rx, rest)

/-- What has been stored when a poll ends the call, or does not. -/
def storedSoFar : Rx ⊕ ReadVars → List UInt8 :=
  Sum.elim Rx.stored ReadVars.stored

/-- A byte is stored unless it starts or ends the packet. -/
theorem readByte_clean
    {p : Params}
    (terminator : p.rEom = packetEnd)
    (c : UInt8)
    {v : ReadVars}
    (clean : packetEnd ∉ v.stored) :
    packetEnd ∉ storedSoFar (readByte p c v) := by
  have kept : packetEnd ∉ (matchCmd c v).2.stored := by
    rw [(matchCmd_kept c v).2.2]
    exact clean
  have closed : packetEnd ∉ v.stored ++ [0] := by
    rw [List.mem_append, not_or]
    exact ⟨clean, show packetEnd ∉ ([0] : List UInt8) by decide⟩
  have ends : c = packetEnd → unparity p c = packetEnd := by
    rintro rfl
    unfold unparity
    rw [show (packetEnd : UInt8) &&& 0x7F = packetEnd by decide, ite_self]
  rw [readByte_eq, terminator]
  split
  · exact clean
  · split
    · exact kept
    · split
      · exact kept
      · split
        · exact closed
        · rename_i notEnd
          split
          · exact clean
          · show packetEnd ∉ v.stored ++ [c]
            rw [List.mem_append, List.mem_singleton, not_or]
            exact ⟨clean, fun same => notEnd (ends same.symm)⟩

theorem pollTurn_clean
    {p : Params}
    (terminator : p.rEom = packetEnd)
    (poll : Poll)
    {v : ReadVars}
    (clean : packetEnd ∉ v.stored) :
    packetEnd ∉ storedSoFar (pollTurn p poll v) := by
  have waited : packetEnd ∉ (countDown v).stored := by
    rw [countDown_stored]
    exact clean
  unfold pollTurn
  cases poll with
  | error =>
      exact clean
  | empty =>
      dsimp only
      split
      · exact waited
      · exact clean
  | byte c =>
      dsimp only
      split
      · exact clean
      · exact readByte_clean terminator c waited

theorem kreadpktFrom_clean
    {p : Params}
    (terminator : p.rEom = packetEnd)
    (polls : List Poll)
    {v : ReadVars}
    (clean : packetEnd ∉ v.stored)
    {rx : Rx}
    {rest : List Poll}
    (returned : kreadpktFrom p polls v = some (rx, rest)) :
    packetEnd ∉ rx.stored := by
  induction polls generalizing v with
  | nil =>
      cases returned
  | cons poll polls inductionHypothesis =>
      have polled := pollTurn_clean terminator poll clean
      rw [kreadpktFrom_cons] at returned
      generalize pollTurn p poll v = result at *
      cases result with
      | inl rx =>
          cases returned
          exact polled
      | inr next =>
          exact inductionHypothesis polled returned

/-- The terminator is not stored. -/
theorem Received.clean
    {rx : Rx}
    (received : Received rx) :
    packetEnd ∉ rx.stored := by
  obtain ⟨p, polls, rest, terminator, returned⟩ := received
  exact kreadpktFrom_clean terminator polls List.not_mem_nil returned

/-! ## Turns -/

/-- What a turn begins with, up to the call of `kermit()`. -/
theorem continues_heardSys
    {rx : Rx}
    (received : Received rx)
    (s : Sys (Unix σ)) :
    Continues s (heardSys rx s) := by
  refine Ends.continues (fun unended => ⟨?_, ?_⟩) rfl
  · exact ⟨unended.ctlq, unended.markless, unended.counted, unended.kept,
      unended.few, unended.place,
      packetEnd_notMem_poke unended.memory received.clean 0⟩
  · exact sendsOnly_quiet rfl (.inl ⟨rfl, rfl⟩)

/-- A server that answers a GET without a carriage return to send. -/
structure Tidy
    (v : MainVars (Unix σ)) : Prop where
  turning : Turning v
  onGet : OnGet v.sys
  unended : Unended v.sys.k
  slot : SlotFrame (OnlyAtEnd packetEnd) v.sys.k

/-- A turn, however the loop goes on after it. -/
theorem Tidy.turn
    {v : MainVars (Unix σ)}
    (tidy : Tidy v)
    {rx : Rx}
    (received : Received rx) :
    Ends v.sys (mainIter (unixio os) rx v).sys ∧
      ((mainIter (unixio os) rx v).ret = none →
        Tidy (mainIter (unixio os) rx v)) := by
  have heard := @continues_heardSys σ _ received v.sys
  have wf : Wf (heardSys rx v.sys).k :=
    tidy.turning.wf.scratch (heardSys_core rx v.sys) (unixio os)
  have reads : (heardSys rx v.sys).k.doRxd = true :=
    ok2rxd_held tidy.turning.wf tidy.turning.held
  have next := tidy.turning.next (unixio os) rx
  have turn := turn_cases (unixio os) tidy.turning rx
  generalize mainIter (unixio os) rx v = v' at next turn
  cases turn with
  | fatal failed =>
      exact ⟨heard.ends, nofun⟩
  | gaveUp silent spent =>
      refine ⟨?_, nofun⟩
      dsimp only
      split
      · exact heard.ends
      · exact heard.ends.and (ends_kermitError wf _ _)
  | handled retrycounter ret counted left given =>
      have done := heard.and (@continues_kermitRun _ os _ wf
        (heard.onGet tidy.onGet) reads rx.ret [])
      have sent := done.ends tidy.unended
      exact ⟨done.ends, fun going => ⟨next going, done.onGet tidy.onGet,
        sent.1, (sent.2 tidy.slot).1⟩⟩

/-- The packets of all later turns end once. -/
theorem Tidy.run
    {v : MainVars (Unix σ)}
    (tidy : Tidy v)
    (rxs : List Rx)
    (received : ∀ rx ∈ rxs, Received rx) :
    Ends v.sys (mainLoop (unixio os) rxs v).sys := by
  induction rxs generalizing v with
  | nil =>
      exact .refl v.sys
  | cons rx rest inductionHypothesis =>
      rw [List.forall_mem_cons] at received
      obtain ⟨turn, next⟩ := @Tidy.turn _ os _ tidy _ received.1
      rw [mainLoop_cons]
      by_cases going : (mainIter (unixio os) rx v).ret = none
      · exact turn.and (inductionHypothesis (next going) received.2)
      · rw [mainLoop_left (unixio os) rest going]
        exact turn

/-- What `_EK_init` and earlier GETs leave for a GET. -/
structure Unmarked
    (k : KData) : Prop where
  settled : Settled k
  eighth : k.par.ebq ≠ packetEnd
  place : k.enc.xdata = .xdatabuf
  memory : packetEnd ∉ k.ipktbuf

theorem Unmarked.unended
    {k : KData}
    (unmarked : Unmarked k) :
    Unended (reinitData k) := by
  have settled := unmarked.settled
  refine ⟨settled.ctlq, ⟨⟨settled.binary, settled.check, settled.small,
    settled.parity, fun flag => absurd rfl flag⟩, ?_, unmarked.eighth⟩, ?_,
    List.not_mem_nil, Nat.zero_le 6, unmarked.place, unmarked.memory⟩
  · exact show packetStart ≠ packetEnd by decide
  · exact show (0 : Int) ≤ 0 ∧ (0 : Int) < 236 by decide

/-- The turn that takes the request. -/
theorem Unmarked.requested
    {k : KData}
    (unmarked : Unmarked k)
    {v : MainVars (Unix σ)}
    (fresh : v.sys.k = reinitData k)
    (going : v.ret = none)
    {rx : Rx}
    (received : Received rx)
    {p : Rcvd}
    {buf : List UInt8}
    (request : ValidRequest (heardData rx v.sys.k) rx.ret p buf)
    (accepted : (mainIter (unixio os) rx v).ret = none) :
    Ends v.sys (mainIter (unixio os) rx v).sys ∧
      Tidy (mainIter (unixio os) rx v) := by
  have settled := unmarked.settled
  have wfFresh : Wf v.sys.k := by
    rw [fresh]
    exact Wf.reinitData settled.noForce settled.oneSlot settled.noWindowing
  have waits : v.sys.k.state = .rWait := by
    rw [fresh]
    rfl
  have turning : Turning v := by
    refine ⟨wfFresh, held_of_state ?_, going⟩
    rw [phase, waits]
    exact show State.rWait ≠ .sData by decide
  have wf : Wf (heardSys rx v.sys).k :=
    wfFresh.scratch (heardSys_core rx v.sys) (unixio os)
  have reads : (heardSys rx v.sys).k.doRxd = true :=
    ok2rxd_held turning.wf turning.held
  have set : (heardSys rx v.sys).k.state ≠ .rNone := by
    show v.sys.k.state ≠ .rNone
    rw [waits]
    decide
  have unended : Unended v.sys.k := by
    rw [fresh]
    exact unmarked.unended
  have slot : SlotFrame (OnlyAtEnd packetEnd) v.sys.k := by
    intro full
    rw [fresh] at full
    exact absurd full (show ¬ (1 : Int) ≤ 0 by decide)
  have heard := (@continues_heardSys σ _ received v.sys).ends
  have cleaned := parse_clean (heard unended).1.memory rx.ret
  rw [show (heardSys rx v.sys).k = heardData rx v.sys.k from rfl,
    request.good] at cleaned
  have stored : Ends (heardSys rx v.sys)
      { heardSys rx v.sys with k.ipktbuf := buf } := by
    intro unendedNow
    refine ⟨?_, sendsOnly_quiet rfl (.inl ⟨rfl, rfl⟩)⟩
    exact ⟨unendedNow.ctlq, unendedNow.markless, unendedNow.counted,
      unendedNow.kept, unendedNow.few, unendedNow.place, cleaned⟩
  obtain ⟨session, ret⟩ :=
    @mainIter_heard _ (unixio os) _ _ going reads request.long
  rw [kermit_request wf set reads request] at session ret
  obtain ⟨handled, begun⟩ := @continues_rPacket _ (unixio os) p
    { heardSys rx v.sys with k.ipktbuf := buf }
  have noError : (rPacket (unixio os) p
      { heardSys rx v.sys with k.ipktbuf := buf }).1 ≠ xError := by
    intro failed
    rw [failed, if_neg (by decide), if_pos rfl, accepted] at ret
    exact absurd ret (by simp)
  have ends := (heard.and stored).and handled.ends
  rw [← session] at ends begun
  obtain ⟨unendedNow, sent⟩ := ends unended
  exact ⟨ends, turning.next (unixio os) rx accepted, begun noError, unendedNow,
    (sent slot).1⟩

end Server

end Slate106.Kermit
