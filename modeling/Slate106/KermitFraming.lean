import Slate106.KermitPolls
import Mathlib.Data.List.DropRight

namespace Slate106.Kermit

open CBytes

/-!
# The framing of `kreadpkt`

What `kreadpkt` has stored is a function of the bytes it has seen: those after
the first start character that are no start characters themselves.  A further
start character sets `flag` again and nothing else, so the rest of a packet
that lost its terminator stays in front of the next packet.
-/

/-! ## The bytes a call has seen -/

/-- A byte `kreadpkt()` takes for the start of a packet. -/
def isStart
    (p : Params)
    (c : UInt8) : Bool :=
  unparity p c = p.rSoh

/-- A byte `kreadpkt()` takes for the terminator. -/
def isStop
    (p : Params)
    (c : UInt8) : Bool :=
  unparity p c = p.rEom

/-- The bytes from the first start character on. -/
def opened
    (p : Params)
    (bytes : List UInt8) : List UInt8 :=
  bytes.dropWhile (!isStart p ·)

/-- The bytes after the first start character that are packet contents. -/
def contents
    (p : Params)
    (bytes : List UInt8) : List UInt8 :=
  (opened p bytes).filter fun c => !isStart p c && !isStop p c

theorem opened_eq_nil
    {p : Params}
    {bytes : List UInt8}
    (closed : bytes.any (isStart p) = false) :
    opened p bytes = [] := by
  simpa [opened] using closed

/-- One more byte is contents when a packet has started and goes on. -/
theorem contents_concat
    (p : Params)
    (bytes : List UInt8)
    (c : UInt8) :
    contents p (bytes ++ [c]) =
      contents p bytes ++
        if bytes.any (isStart p) && !isStart p c && !isStop p c then [c]
        else [] := by
  rcases started : bytes.any (isStart p) with _ | _
  · have nothing := opened_eq_nil started
    have skipped : ∀ d ∈ bytes, (!isStart p d) = true := by
      simpa using started
    have opens : opened p (bytes ++ [c]) = opened p [c] :=
      List.dropWhile_append_of_pos skipped
    rw [contents, contents, opens, nothing]
    rcases first : isStart p c with _ | _ <;> simp [opened, first]
  · have later :
        opened p (bytes ++ [c]) = opened p bytes ++ [c] := by
      have some : bytes.dropWhile (!isStart p ·) ≠ [] := by
        simpa using started
      simp [opened, List.dropWhile_append, some]
    simp [contents, later, List.filter_append, List.filter_cons]

/-- The variables of `kreadpkt()` once it has seen some bytes. -/
structure Seen
    (p : Params)
    (bytes : List UInt8)
    (v : ReadVars) : Prop where
  index : v.i = min 5 bytes.length
  comparing : v.comp = decide (bytes.length < 5)
  command :
    bytes.length < 5 → v.cmd = bytes ++ List.replicate (5 - bytes.length) 0
  flag : v.flag = bytes.any (isStart p)
  stored : v.stored = contents p bytes
  count : v.n = (contents p bytes).length
  room : (contents p bytes).length ≤ p.rMaxlen + 1

theorem seen_start
    (p : Params) :
    Seen p [] (ReadVars.start p) :=
  ⟨rfl, rfl, fun _ => rfl, rfl, rfl, rfl, Nat.zero_le _⟩

/-- The clock has no part in what has been seen. -/
theorem Seen.at
    {p : Params}
    {bytes : List UInt8}
    {v : ReadVars}
    (seen : Seen p bytes v)
    (timeout : Int)
    (waited : Nat) :
    Seen p bytes (v.at timeout waited) :=
  ⟨seen.index, seen.comparing, seen.command, seen.flag, seen.stored,
    seen.count, seen.room⟩

theorem Seen.countDown
    {p : Params}
    {bytes : List UInt8}
    {v : ReadVars}
    (seen : Seen p bytes v) :
    Seen p bytes (countDown v) := by
  obtain ⟨timeout, waited, shape⟩ := countDown_at v
  rw [shape]
  exact seen.at timeout waited

/-! ## One byte -/

/-- What `kreadpkt()` returns at a byte, if it does, given those before it. -/
def verdict
    (p : Params)
    (bytes : List UInt8)
    (c : UInt8) : Option Rx :=
  if bytes ++ [c] = lit "CMD\r\n" then
    some { ret := -kEnd, stored := contents p bytes }
  else if isStart p c || !bytes.any (isStart p) then none
  else if isStop p c then
    some
      { ret := (contents p bytes).length
        stored := contents p bytes ++ [0] }
  else if (contents p bytes).length > p.rMaxlen then
    some
      { ret := (contents p bytes).length + 1
        stored := contents p bytes }
  else none

private theorem cstr_eq_iff
    {memory text : List UInt8}
    (length : memory.length = text.length)
    (noZero : (0 : UInt8) ∉ text) :
    cstr memory = text ↔ memory = text := by
  constructor
  · intro same
    have whole : cstr memory = memory := by
      apply List.IsPrefix.eq_of_length (List.takeWhile_prefix _)
      rw [← cstr, same, length]
    rw [← whole, same]
  · rintro rfl
    exact cstr_of_notMem noZero

/-- The command is complete with the fifth byte, or never. -/
theorem matchCmd_seen
    {p : Params}
    {bytes : List UInt8}
    {v : ReadVars}
    (seen : Seen p bytes v)
    (c : UInt8) :
    (matchCmd c v).1 = decide (bytes ++ [c] = lit "CMD\r\n") ∧
      (matchCmd c v).2.i = min 5 (bytes ++ [c]).length ∧
      (matchCmd c v).2.comp = decide ((bytes ++ [c]).length < 5) ∧
      ((bytes ++ [c]).length < 5 →
        (matchCmd c v).2.cmd =
          (bytes ++ [c]) ++
            List.replicate (5 - (bytes ++ [c]).length) 0) := by
  have wrongLength :
      bytes.length ≠ 4 → decide (bytes ++ [c] = lit "CMD\r\n") = false := by
    intro different
    apply decide_eq_false
    intro same
    apply different
    have length : (lit "CMD\r\n").length = 5 := rfl
    have lengths := congrArg List.length same
    rw [length, List.length_append] at lengths
    simpa using lengths
  by_cases early : bytes.length < 5
  · have place : v.i = bytes.length := by
      rw [seen.index]
      omega
    have stored :
        poke v.cmd bytes.length [c] =
          (bytes ++ [c]) ++ List.replicate (4 - bytes.length) 0 := by
      obtain ⟨left, more⟩ : ∃ left, 5 - bytes.length = left + 1 :=
        ⟨4 - bytes.length, by omega⟩
      have same : 4 - bytes.length = left := by
        omega
      rw [seen.command early, more, same, List.replicate_succ]
      simpa using poke_append bytes [0] (List.replicate left 0) [c] rfl
    have comparing : v.comp = true := by
      simp [seen.comparing, early]
    by_cases fifth : bytes.length = 4
    · have compared :
          cstr ((bytes ++ [c]).take 5) = lit "CMD\r\n" ↔
            bytes ++ [c] = lit "CMD\r\n" := by
        rw [List.take_of_length_le (by simp [fifth])]
        exact cstr_eq_iff (by simp [fifth]; rfl) (by decide)
      rw [fifth] at place stored
      simp only [matchCmd, comparing, place, stored]
      simpa [fifth] using compared
    · have notFifth : ¬ (bytes.length + 1 = 5) := by
        omega
      simp only [matchCmd, comparing, place, stored]
      simp [notFifth, wrongLength fifth]
      omega
  · have later : bytes.length ≠ 4 := by
      omega
    have comparing : v.comp = false := by
      simp [seen.comparing, early]
    simp only [matchCmd, comparing, wrongLength later]
    simp [seen.index]
    omega

/-- The variables after a byte that does not end the call. -/
def remembered
    (p : Params)
    (c : UInt8)
    (v : ReadVars) : ReadVars :=
  let kept := v.flag && !isStart p c && !isStop p c
  { (matchCmd c v).2 with
    timeout := readTimeout p
    flag := v.flag || isStart p c
    n := if kept then v.n + 1 else v.n
    stored := v.stored ++ if kept then [c] else [] }

/-- The framing code decides by the bytes seen. -/
theorem readByte_seen
    {p : Params}
    {bytes : List UInt8}
    {v : ReadVars}
    (seen : Seen p bytes v)
    (c : UInt8) :
    readByte p c v =
      match verdict p bytes c with
      | some rx => .inl rx
      | none => .inr (remembered p c v) := by
  have command := (matchCmd_seen seen c).1
  obtain ⟨flag, count, stored⟩ := matchCmd_kept c v
  rw [readByte_eq, command, verdict]
  by_cases isCommand : bytes ++ [c] = lit "CMD\r\n"
  · simp [isCommand, seen.stored]
  · rw [if_neg isCommand, decide_eq_false isCommand]
    rcases begun : isStart p c with _ | _
    · have notStart : unparity p c ≠ p.rSoh := by
        simpa [isStart] using begun
      rcases started : bytes.any (isStart p) with _ | _
      · have closed : v.flag = false := seen.flag.trans started
        simp [remembered, begun, closed, notStart, flag, count, stored]
      · have open' : v.flag = true := seen.flag.trans started
        rcases ended : isStop p c with _ | _
        · have notStop : unparity p c ≠ p.rEom := by
            simpa [isStop] using ended
          by_cases full : (contents p bytes).length > p.rMaxlen
          · simp [open', notStart, notStop, seen.count, seen.stored, full]
          · simp [remembered, begun, ended, open', notStart, notStop,
              seen.count, seen.stored, full, flag]
        · have isEom : unparity p c = p.rEom := by
            simpa [isStop] using ended
          rw [isEom] at notStart
          simp [open', notStart, isEom, seen.count, seen.stored]
    · have isSoh : unparity p c = p.rSoh := by
        simpa [isStart] using begun
      simp [remembered, begun, isSoh, count, stored]

/-- A byte that does not end the call is one more byte seen. -/
theorem Seen.concat
    {p : Params}
    {bytes : List UInt8}
    {v : ReadVars}
    {c : UInt8}
    (seen : Seen p bytes v)
    (goesOn : verdict p bytes c = none) :
    Seen p (bytes ++ [c]) (remembered p c v) := by
  obtain ⟨command, index, comparing, stored⟩ := matchCmd_seen seen c
  have grown := contents_concat p bytes c
  have room := seen.room
  refine ⟨index, comparing, stored, ?_, ?_, ?_, ?_⟩
  · simp [remembered, seen.flag]
  · simp [remembered, seen.flag, seen.stored, grown]
  · rw [grown, List.length_append, ← seen.count, ← seen.flag]
    simp only [remembered]
    split <;> simp
  · unfold verdict at goesOn
    rw [grown, List.length_append]
    split at goesOn
    · cases goesOn
    · split at goesOn
      · rename_i outside
        have nothing :
            (bytes.any (isStart p) && !isStart p c && !isStop p c) =
              false := by
          rcases Bool.or_eq_true_iff.mp outside with begun | closed
          · simp [begun]
          · rw [Bool.not_eq_true'] at closed
            rw [closed, Bool.false_and, Bool.false_and]
        simpa [nothing] using room
      · split at goesOn
        · cases goesOn
        · split at goesOn
          · cases goesOn
          · have oneMore :
                (if bytes.any (isStart p) && !isStart p c && !isStop p c
                  then [c] else []).length ≤ 1 := by
              split <;> simp
            omega

/-! ## One poll -/

/-- What a poll of `kreadpkt()` comes to, by the bytes seen and the clock. -/
inductive PollCase
    (p : Params)
    (bytes : List UInt8)
    (pause : Nat)
    (v : ReadVars) : Poll → Prop where
  | failed
      (returns :
        pollTurn p .error v =
          .inl { ret := -kEnd, stored := contents p bytes }) :
      PollCase p bytes pause v .error
  | expired
      (poll : Poll)
      (noError : poll ≠ .error)
      (last : pause + 1 = pollLimit p)
      (returns :
        pollTurn p poll v = .inl { ret := 0, stored := contents p bytes }) :
      PollCase p bytes pause v poll
  | paused
      (running : pause + 1 ≠ pollLimit p)
      (goesOn : pollTurn p .empty v = .inr (countDown v))
      (clock : Clock p (pause + 1) (countDown v))
      (seen : Seen p bytes (countDown v)) :
      PollCase p bytes pause v .empty
  | ended
      (c : UInt8)
      (rx : Rx)
      (running : pause + 1 ≠ pollLimit p)
      (concluded : verdict p bytes c = some rx)
      (returns : pollTurn p (.byte c) v = .inl rx) :
      PollCase p bytes pause v (.byte c)
  | taken
      (c : UInt8)
      (next : ReadVars)
      (running : pause + 1 ≠ pollLimit p)
      (open' : verdict p bytes c = none)
      (goesOn : pollTurn p (.byte c) v = .inr next)
      (clock : Clock p 0 next)
      (seen : Seen p (bytes ++ [c]) next) :
      PollCase p bytes pause v (.byte c)

theorem poll_cases
    {p : Params}
    {bytes : List UInt8}
    {pause : Nat}
    {v : ReadVars}
    (clock : Clock p pause v)
    (seen : Seen p bytes v)
    (poll : Poll) :
    PollCase p bytes pause v poll := by
  by_cases last : pause + 1 = pollLimit p
  · cases poll with
    | error =>
        exact .failed (by simp [pollTurn, seen.stored])
    | empty =>
        apply PollCase.expired _ (by decide) last
        simp [pollTurn, clock.ends_iff, last, seen.stored]
    | byte c =>
        apply PollCase.expired _ (by simp) last
        simp [pollTurn, clock.ends_iff, last, seen.stored]
  · cases poll with
    | error =>
        exact .failed (by simp [pollTurn, seen.stored])
    | empty =>
        apply PollCase.paused last _ (clock.next last) seen.countDown
        simp [pollTurn, clock.ends_iff, last]
    | byte c =>
        have framing :
            pollTurn p (.byte c) v = readByte p c (countDown v) := by
          simp [pollTurn, clock.ends_iff, last]
        have decided := readByte_seen seen.countDown c
        rcases concluded : verdict p bytes c with _ | rx
        · rw [concluded] at decided
          exact .taken c _ last concluded (framing.trans decided)
            (clock_reset rfl) (seen.countDown.concat concluded)
        · rw [concluded] at decided
          exact .ended c rx last concluded (framing.trans decided)

/-! ## The buffers -/

/-- The index of `cmd[]` a poll writes. -/
def commandIndex
    (visit : Poll × ReadVars) : Option Nat :=
  if (framedByte visit).isSome then some visit.2.i else none

/-- The index of the packet buffer a byte is stored at, or its terminator. -/
def packetIndex
    (p : Params)
    (visit : Poll × ReadVars) : Option Nat :=
  match framedByte visit with
  | none => none
  | some c =>
      if (matchCmd c visit.2).1 then none
      else if !visit.2.flag ∧ unparity p c ≠ p.rSoh then none
      else if unparity p c = p.rSoh then none
      else if unparity p c = p.rEom then some visit.2.stored.length
      else if visit.2.n > p.rMaxlen then none
      else some visit.2.stored.length

/--
Every index written lies in its buffer, and a packet that is returned is
stored whole, with a NUL behind it.
-/
structure InBounds
    (p : Params)
    (polls : List Poll)
    (v : ReadVars) : Prop where
  command :
    ∀ visit ∈ visits p polls v, ∀ index ∈ commandIndex visit, index < 5
  packet :
    ∀ visit ∈ visits p polls v,
      ∀ index ∈ packetIndex p visit, index < pBuflen
  terminated :
    ∀ rx rest, kreadpktFrom p polls v = some (rx, rest) → 0 < rx.ret →
      ∃ text, rx.stored = text ++ [0] ∧ (text.length : Int) = rx.ret

/-- The states a call goes through remember a prefix of the bytes in time. -/
theorem visits_seen
    {p : Params}
    (polls : List Poll)
    {bytes : List UInt8}
    {pause : Nat}
    {v : ReadVars}
    (clock : Clock p pause v)
    (seen : Seen p bytes v) :
    ∀ visit ∈ visits p polls v, ∃ before, Seen p before visit.2 := by
  induction polls generalizing bytes pause v with
  | nil =>
      intro visit member
      cases member
  | cons poll rest inductionHypothesis =>
      intro visit member
      rw [visits, List.mem_cons] at member
      rcases member with rfl | member
      · exact ⟨bytes, seen⟩
      · cases poll_cases clock seen poll with
        | failed returns =>
            rw [returns] at member
            cases member
        | expired _ noError last returns =>
            rw [returns] at member
            cases member
        | paused running goesOn later still =>
            rw [goesOn] at member
            exact inductionHypothesis later still visit member
        | ended c rx running concluded returns =>
            rw [returns] at member
            cases member
        | taken c next running open' goesOn later still =>
            rw [goesOn] at member
            exact inductionHypothesis later still visit member

/-- No index of the packet buffer is past the longest packet. -/
theorem packetIndex_lt
    {p : Params}
    (short : p.rMaxlen ≤ pPktlen)
    (polls : List Poll) :
    ∀ visit ∈ visits p polls (ReadVars.start p),
      ∀ index ∈ packetIndex p visit, index < pBuflen := by
  intro visit member index written
  obtain ⟨before, seen⟩ :=
    visits_seen polls (v := ReadVars.start p) (clock_reset rfl)
      (seen_start p) visit member
  have room := seen.room
  rw [← seen.stored] at room
  have place : index = visit.2.stored.length := by
    unfold packetIndex at written
    split at written
    · cases written
    · split at written
      · cases written
      · split at written
        · cases written
        · split at written
          · cases written
          · split at written
            · simpa using written.symm
            · split at written
              · cases written
              · simpa using written.symm
  simp only [pBuflen]
  omega

/-- The places written in `cmd[]` go up to 5 and stay there. -/
private theorem commandIndex_from
    {p : Params}
    (polls : List Poll)
    {bytes : List UInt8}
    {pause : Nat}
    {v : ReadVars}
    (clock : Clock p pause v)
    (seen : Seen p bytes v)
    (oneCall : OneCall p polls v) :
    (visits p polls v).filterMap commandIndex =
      (List.range' bytes.length
        (bytesInTime (pollLimit p) pause polls).length).map (min 5) := by
  induction polls generalizing bytes pause v with
  | nil =>
      rfl
  | cons poll rest inductionHypothesis =>
      cases poll_cases clock seen poll with
      | failed returns =>
          have last := oneCall.last returns
          subst last
          simp [visits, returns, commandIndex, framedByte, takenByte,
            bytesInTime]
      | expired _ noError last returns =>
          have ended := oneCall.last returns
          subst ended
          cases poll with
          | error =>
              contradiction
          | empty =>
              simp [visits, returns, commandIndex, framedByte, takenByte,
                bytesInTime]
          | byte c =>
              simp [visits, returns, commandIndex, framedByte,
                clock.ends_iff, last, bytesInTime]
      | paused running goesOn later still =>
          have rest := inductionHypothesis later still (oneCall.next goesOn)
          simpa [visits, goesOn, commandIndex, framedByte, takenByte,
            bytesInTime] using rest
      | ended c rx running concluded returns =>
          have last := oneCall.last returns
          subst last
          simp [visits, returns, commandIndex, framedByte, takenByte,
            clock.ends_iff, running, bytesInTime, seen.index]
      | taken c next running open' goesOn later still =>
          have rest := inductionHypothesis later still (oneCall.next goesOn)
          simp only [List.length_append, List.length_singleton] at rest
          simp [visits, goesOn, commandIndex, framedByte, takenByte,
            clock.ends_iff, running, bytesInTime, seen.index, rest,
            List.range'_succ]

private theorem command_below_iff
    {made : List (Poll × ReadVars)} :
    (∀ visit ∈ made, ∀ index ∈ commandIndex visit, index < 5) ↔
      ∀ index ∈ made.filterMap commandIndex, index < 5 := by
  simp only [List.mem_filterMap, Option.mem_def]
  constructor
  · rintro all index ⟨visit, member, written⟩
    exact all visit member index written
  · intro all visit member index written
    exact all index ⟨visit, member, written⟩

/-- The bytes of the command are no packet contents. -/
theorem contents_command
    {p : Params}
    (start : p.rSoh = packetStart) :
    contents p (lit "CMD\r\n") = [] := by
  have outside : (lit "CMD\r\n").any (isStart p) = false := by
    unfold isStart unparity
    rw [start]
    split <;> decide
  rw [contents, opened_eq_nil outside]
  rfl

/-- The byte that ends a call ends a packet, or is one too many for it. -/
theorem verdict_terminated
    {p : Params}
    {bytes : List UInt8}
    {c : UInt8}
    {rx : Rx}
    (start : p.rSoh = packetStart)
    (room : (contents p bytes).length ≤ p.rMaxlen + 1)
    (concluded : verdict p bytes c = some rx) :
    (0 < rx.ret →
        ∃ text, rx.stored = text ++ [0] ∧ (text.length : Int) = rx.ret) ↔
      (contents p (bytes ++ [c])).length ≤ p.rMaxlen + 1 := by
  unfold verdict at concluded
  split at concluded
  · rename_i command
    obtain rfl := Option.some.inj concluded
    rw [command, contents_command start]
    simp [kEnd]
  · split at concluded
    · cases concluded
    · rename_i inside
      simp only [Bool.or_eq_true, not_or, Bool.not_eq_true,
        Bool.not_eq_false'] at inside
      obtain ⟨notStart, started⟩ := inside
      have grown := contents_concat p bytes c
      split at concluded
      · rename_i stop
        obtain rfl := Option.some.inj concluded
        simp only [stop, Bool.not_true, Bool.and_false, Bool.false_eq_true,
          if_false, List.append_nil] at grown
        rw [grown]
        constructor
        · exact fun _ => room
        · exact fun _ _ => ⟨contents p bytes, rfl, rfl⟩
      · rename_i notStop
        split at concluded
        · rename_i full
          obtain rfl := Option.some.inj concluded
          simp only [started, notStart, notStop, Bool.not_false,
            Bool.and_self, if_true] at grown
          rw [grown, List.length_append, List.length_singleton]
          constructor
          · intro whole
            obtain ⟨text, stored, length⟩ := whole (by simp)
            have lengths :
                (contents p bytes).length = (text ++ [0]).length :=
              congrArg List.length stored
            have longer :
                (text.length : Int) = (contents p bytes).length + 1 :=
              length
            rw [List.length_append, List.length_singleton] at lengths
            omega
          · intro short
            omega
        · cases concluded

/-- A packet that is returned is stored whole unless it is too long. -/
private theorem terminated_from
    {p : Params}
    (start : p.rSoh = packetStart)
    (polls : List Poll)
    {bytes : List UInt8}
    {pause : Nat}
    {v : ReadVars}
    (clock : Clock p pause v)
    (seen : Seen p bytes v)
    (oneCall : OneCall p polls v) :
    (∀ rx rest, kreadpktFrom p polls v = some (rx, rest) → 0 < rx.ret →
        ∃ text, rx.stored = text ++ [0] ∧ (text.length : Int) = rx.ret) ↔
      (contents p
        (bytes ++ bytesInTime (pollLimit p) pause polls)).length ≤
          p.rMaxlen + 1 := by
  induction polls generalizing bytes pause v with
  | nil =>
      constructor
      · intro _
        simpa [bytesInTime] using seen.room
      · rintro _ rx rest ⟨⟩
  | cons poll rest inductionHypothesis =>
      cases poll_cases clock seen poll with
      | failed returns =>
          have last := oneCall.last returns
          subst last
          have room := seen.room
          simp [kreadpktFrom_cons, returns, bytesInTime, room, kEnd]
      | expired _ noError last returns =>
          have ended := oneCall.last returns
          subst ended
          have room := seen.room
          cases poll with
          | error =>
              contradiction
          | empty =>
              simp [kreadpktFrom_cons, returns, bytesInTime, room]
          | byte c =>
              simp [kreadpktFrom_cons, returns, bytesInTime, last, room]
      | paused running goesOn later still =>
          have rest := inductionHypothesis later still (oneCall.next goesOn)
          simpa [kreadpktFrom_cons, goesOn, bytesInTime] using rest
      | ended c rx running concluded returns =>
          have last := oneCall.last returns
          subst last
          have whole := verdict_terminated start seen.room concluded
          simpa [kreadpktFrom_cons, returns, bytesInTime, running]
            using whole
      | taken c next running open' goesOn later still =>
          have rest := inductionHypothesis later still (oneCall.next goesOn)
          simpa [kreadpktFrom_cons, goesOn, bytesInTime, running] using rest

/--
A call of `kreadpkt()` keeps to its buffers exactly when it looks at no more
than five bytes and meets no packet longer than `r_maxlen + 1`.
-/
theorem kreadpkt_inBounds_iff
    (p : Params)
    (polls : List Poll)
    (start : p.rSoh = packetStart)
    (short : p.rMaxlen ≤ pPktlen)
    (oneCall : OneCall p polls (ReadVars.start p)) :
    InBounds p polls (ReadVars.start p) ↔
      (bytesInTime (pollLimit p) 0 polls).length ≤ 5 ∧
        (contents p (bytesInTime (pollLimit p) 0 polls)).length ≤
          p.rMaxlen + 1 := by
  have clock : Clock p 0 (ReadVars.start p) := clock_reset rfl
  have places :=
    commandIndex_from polls clock (seen_start p) oneCall
  have command :
      (∀ visit ∈ visits p polls (ReadVars.start p),
          ∀ index ∈ commandIndex visit, index < 5) ↔
        (bytesInTime (pollLimit p) 0 polls).length ≤ 5 := by
    rw [command_below_iff, places]
    simp only [List.length_nil, List.mem_map, List.mem_range'_1]
    constructor
    · intro all
      by_contra many
      have sixth := all 5 ⟨5, by omega, rfl⟩
      omega
    · rintro few index ⟨seen, inside, rfl⟩
      omega
  have terminated :=
    terminated_from start polls clock (seen_start p) oneCall
  rw [List.nil_append] at terminated
  constructor
  · intro inBounds
    exact ⟨command.mp inBounds.command, terminated.mp inBounds.terminated⟩
  · rintro ⟨few, fits⟩
    exact ⟨command.mpr few, packetIndex_lt short polls,
      terminated.mpr fits⟩

theorem kreadpkt_inBounds_iff_short :
    InBounds (freshSys 0).k.par
      [.byte 0x13, .byte 0x24, .empty, .byte 0x0d]
      (ReadVars.start (freshSys 0).k.par) :=
  (kreadpkt_inBounds_iff (freshSys 0).k.par
    [.byte 0x13, .byte 0x24, .empty, .byte 0x0d] rfl (by decide)
    (@oneCall_of_returns _ _ _ { ret := 1, stored := [0x24, 0] } rfl)).mpr
    (by decide)

/-- The last byte of an acknowledgment is written behind `cmd[]`. -/
theorem acknowledgment_overruns_command :
    let p := (freshSys 0).k.par
    let polls :=
      [0x13, ch '#', ch ' ', ch 'Y', ch '?', 0x0d].map Poll.byte
    kreadpkt p polls =
        some
          ({ ret := 4, stored := [ch '#', ch ' ', ch 'Y', ch '?', 0] }, []) ∧
      ¬ InBounds p polls (ReadVars.start p) := by
  refine ⟨by decide, ?_⟩
  intro inBounds
  have below := command_below_iff.mp inBounds.command
  exact absurd (below 5 (by decide)) (by decide)

end Slate106.Kermit
