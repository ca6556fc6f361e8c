import Slate106.KermitFraming

namespace Slate106.Kermit

open CBytes

/-!
# Streams with lost terminators

A stream holds a packet when a terminator follows a start character.  The
packet that is meant is the text after the last start character before that
terminator; `kreadpkt` returns it together with whatever it stored since the
first one.
-/

/-! ## Bytes that arrive in time -/

/-- What `kreadpkt()` returns on bytes without a timeout, after others. -/
def answer
    (p : Params) : List UInt8 → List UInt8 → Option Rx
  | _, [] => none
  | seen, c :: rest =>
      match verdict p seen c with
      | some rx => some rx
      | none => answer p (seen ++ [c]) rest

/-- `kreadpkt()` returns the answer to the bytes, however they arrive. -/
theorem kreadpktFrom_arrives
    {p : Params}
    {more : List UInt8}
    {polls : List Poll}
    (arrives : Arrives p more polls)
    {bytes : List UInt8}
    {v : ReadVars}
    (timeout : v.timeout = readTimeout p)
    (seen : Seen p bytes v) :
    (kreadpktFrom p polls v).map (·.1) = answer p bytes more := by
  induction arrives generalizing bytes v with
  | nil =>
      rfl
  | byte c pause inTime later inductionHypothesis =>
      rename_i more polls
      obtain ⟨left, waited, taken⟩ :=
        kreadpktFrom_arrival timeout inTime c polls
      have still := seen.at left waited
      have decided := readByte_seen still c
      rw [taken, decided, answer]
      rcases concluded : verdict p bytes c with _ | rx
      · exact inductionHypothesis rfl (still.concat concluded)
      · rfl

/-! ## The packet of a stream -/

/-- The bytes between the first start character and the next terminator. -/
def enclosed
    (p : Params)
    (bytes : List UInt8) : List UInt8 :=
  (opened p bytes).tail.takeWhile (!isStop p ·)

/-- A terminator follows a start character. -/
def Complete
    (p : Params)
    (bytes : List UInt8) : Prop :=
  ∃ c ∈ (opened p bytes).tail, isStop p c = true

/-- The text between the last start character and the terminator. -/
def packetText
    (p : Params)
    (bytes : List UInt8) : List UInt8 :=
  (enclosed p bytes).rtakeWhile (!isStart p ·)

/-- The text that was received between earlier start characters. -/
def strays
    (p : Params)
    (bytes : List UInt8) : List UInt8 :=
  ((enclosed p bytes).rdropWhile (!isStart p ·)).filter (!isStart p ·)

/-- A stream with a packet, taken apart. -/
structure Parts
    (p : Params)
    (bytes skipped inner behind : List UInt8)
    (first last : UInt8) : Prop where
  whole : bytes = skipped ++ first :: inner ++ last :: behind
  before : ∀ c ∈ skipped, isStart p c = false
  starts : isStart p first = true
  between : ∀ c ∈ inner, isStop p c = false
  stops : isStop p last = true
  inner : enclosed p bytes = inner

theorem Complete.parts
    {p : Params}
    {bytes : List UInt8}
    (complete : Complete p bytes) :
    ∃ skipped inner behind first last,
      Parts p bytes skipped inner behind first last := by
  obtain ⟨stop, later, stops⟩ := complete
  have split : bytes.takeWhile (!isStart p ·) ++ opened p bytes = bytes :=
    List.takeWhile_append_dropWhile
  rcases shape : opened p bytes with _ | ⟨first, rest⟩
  · rw [shape] at later
    cases later
  · rw [shape, List.tail_cons] at later
    have splitRest :
        rest.takeWhile (!isStop p ·) ++ rest.dropWhile (!isStop p ·) =
          rest :=
      List.takeWhile_append_dropWhile
    have starts : isStart p first = true := by
      have head := List.head?_dropWhile_not (!isStart p ·) bytes
      rw [← opened, shape] at head
      simpa using head
    rcases shapeRest : rest.dropWhile (!isStop p ·) with _ | ⟨last, behind⟩
    · have none := List.dropWhile_eq_nil_iff.mp shapeRest stop later
      simp [stops] at none
    · have lastStops : isStop p last = true := by
        have head := List.head?_dropWhile_not (!isStop p ·) rest
        rw [shapeRest] at head
        simpa using head
      refine ⟨bytes.takeWhile (!isStart p ·), rest.takeWhile (!isStop p ·),
        behind, first, last, ?_, ?_, starts, ?_, lastStops, ?_⟩
      · rw [List.append_assoc, List.cons_append, ← shapeRest, splitRest,
          ← shape, split]
      · intro c member
        simpa using List.mem_takeWhile_imp member
      · intro c member
        simpa using List.mem_takeWhile_imp member
      · rw [enclosed, shape, List.tail_cons]

/-- The text of the packet and the strays before it are all the contents. -/
theorem Parts.contents
    {p : Params}
    {bytes skipped inner behind : List UInt8}
    {first last : UInt8}
    (parts : Parts p bytes skipped inner behind first last) :
    contents p (skipped ++ first :: inner) =
      strays p bytes ++ packetText p bytes := by
  have opens : opened p (skipped ++ first :: inner) = first :: inner := by
    unfold opened
    rw [List.dropWhile_append_of_pos (by simpa using parts.before),
      List.dropWhile_cons_of_neg (by simp [parts.starts])]
  have text :
      (packetText p bytes).filter (!isStart p ·) = packetText p bytes :=
    List.filter_eq_self.mpr fun _ member =>
      @List.mem_rtakeWhile_imp _ (!isStart p ·) _ _ member
  calc
    Kermit.contents p (skipped ++ first :: inner)
      = inner.filter fun c => !isStart p c && !isStop p c := by
        rw [Kermit.contents, opens,
          List.filter_cons_of_neg (by simp [parts.starts])]
    _ = inner.filter (!isStart p ·) := by
        apply List.filter_congr
        intro c member
        rw [parts.between c member, Bool.not_false, Bool.and_true]
    _ = (inner.rdropWhile (!isStart p ·) ++
          inner.rtakeWhile (!isStart p ·)).filter (!isStart p ·) := by
        rw [List.rdropWhile_append_rtakeWhile]
    _ = strays p bytes ++ packetText p bytes := by
        rw [List.filter_append, strays, ← text, packetText, parts.inner]

/-! ## The answer to a stream -/

private theorem command_not_start
    {seen rest : List UInt8}
    {c : UInt8}
    (noCommand : ¬ lit "CMD\r\n" <+: seen ++ c :: rest) :
    seen ++ [c] ≠ lit "CMD\r\n" := by
  intro command
  apply noCommand
  rw [← command]
  exact ⟨rest, by simp⟩

/-- Bytes before the first start character are passed over. -/
theorem answer_skipped
    {p : Params}
    (skipped : List UInt8)
    {seen rest : List UInt8}
    (closed : seen.any (isStart p) = false)
    (before : ∀ c ∈ skipped, isStart p c = false)
    (noCommand : ¬ lit "CMD\r\n" <+: seen ++ (skipped ++ rest)) :
    answer p seen (skipped ++ rest) = answer p (seen ++ skipped) rest := by
  induction skipped generalizing seen with
  | nil =>
      simp
  | cons c skipped inductionHypothesis =>
      have notCommand := command_not_start noCommand
      have notStart := before c (List.mem_cons_self ..)
      have goesOn : verdict p seen c = none := by
        simp [verdict, notCommand, closed]
      have rest :=
        @inductionHypothesis (seen ++ [c]) (by simp [closed, notStart])
          (fun d member => before d (List.mem_cons_of_mem c member))
          (by simpa using noCommand)
      rw [List.cons_append, answer, goesOn]
      simpa using rest

/-- The contents grow with the bytes. -/
theorem contents_grows
    (p : Params)
    (more : List UInt8) :
    ∀ bytes, contents p bytes <+: contents p (bytes ++ more) := by
  induction more with
  | nil =>
      intro bytes
      simp
  | cons c more inductionHypothesis =>
      intro bytes
      have one : contents p bytes <+: contents p (bytes ++ [c]) := by
        rw [contents_concat]
        exact List.prefix_append ..
      have rest := inductionHypothesis (bytes ++ [c])
      rw [List.append_assoc, List.singleton_append] at rest
      exact one.trans rest

/--
The bytes of packets without a terminator are all kept, up to the first that
is one too many.
-/
theorem answer_inner
    {p : Params}
    (inner : List UInt8)
    {seen rest : List UInt8}
    (started : seen.any (isStart p) = true)
    (between : ∀ c ∈ inner, isStop p c = false)
    (noCommand : ¬ lit "CMD\r\n" <+: seen ++ (inner ++ rest))
    (room : (contents p seen).length ≤ p.rMaxlen + 1) :
    if (contents p (seen ++ inner)).length ≤ p.rMaxlen + 1 then
      answer p seen (inner ++ rest) = answer p (seen ++ inner) rest
    else
      ∃ stored,
        answer p seen (inner ++ rest) =
          some { ret := p.rMaxlen + 2, stored := stored } := by
  induction inner generalizing seen with
  | nil =>
      simp [room]
  | cons c inner inductionHypothesis =>
      have notCommand := command_not_start noCommand
      have notStop := between c (List.mem_cons_self ..)
      have grown := contents_concat p seen c
      have still : (seen ++ [c]).any (isStart p) = true := by
        simp [started]
      have later := fun d member => between d (List.mem_cons_of_mem c member)
      have same : seen ++ c :: inner = seen ++ [c] ++ inner := by
        simp
      by_cases full :
          isStart p c = false ∧ (contents p seen).length > p.rMaxlen
      · obtain ⟨notStart, full⟩ := full
        have concluded :
            verdict p seen c =
              some
                { ret := (contents p seen).length + 1
                  stored := contents p seen } := by
          simp [verdict, notCommand, notStart, started, notStop, full]
        have longer := (contents_grows p inner (seen ++ [c])).length_le
        simp only [started, notStart, notStop, Bool.not_false, Bool.and_self,
          if_true] at grown
        rw [grown, List.length_append, List.length_singleton] at longer
        rw [same, if_neg (by omega), List.cons_append, answer, concluded]
        refine ⟨contents p seen, ?_⟩
        have length : (contents p seen).length = p.rMaxlen + 1 := by
          omega
        simp only [length]
        simp
        omega
      · have goesOn : verdict p seen c = none := by
          rcases begun : isStart p c with _ | _
          · have short : ¬ (contents p seen).length > p.rMaxlen := by
              intro long
              exact full ⟨begun, long⟩
            simp [verdict, notCommand, begun, started, notStop, short]
          · simp [verdict, notCommand, begun]
        have roomLater :
            (contents p (seen ++ [c])).length ≤ p.rMaxlen + 1 := by
          rw [grown, List.length_append]
          rcases begun : isStart p c with _ | _
          · have short : ¬ (contents p seen).length > p.rMaxlen := by
              intro long
              exact full ⟨begun, long⟩
            split <;> simp <;> omega
          · simpa using room
        have rest :=
          inductionHypothesis still later (by simpa using noCommand)
            roomLater
        rw [same, List.cons_append, answer, goesOn]
        exact rest

/--
A stream that holds a packet and does not begin with the command is answered
with the text of that packet exactly when no strays precede it.
-/
theorem answer_complete_iff
    {p : Params}
    (different : ∀ c, isStop p c = true → isStart p c = false)
    {bytes : List UInt8}
    (complete : Complete p bytes)
    (noCommand : ¬ lit "CMD\r\n" <+: bytes)
    (fits : (packetText p bytes).length ≤ p.rMaxlen) :
    answer p [] bytes =
        some
          { ret := (packetText p bytes).length
            stored := packetText p bytes ++ [0] } ↔
      strays p bytes = [] := by
  obtain ⟨skipped, inner, behind, first, last, parts⟩ := complete.parts
  have whole := parts.whole
  have kept := parts.contents
  have closed : skipped.any (isStart p) = false := by
    simpa using parts.before
  have opening : contents p (skipped ++ [first]) = [] := by
    rw [contents_concat, contents, opened_eq_nil closed, closed]
    rfl
  have atFirst : verdict p skipped first = none := by
    have notCommand : skipped ++ [first] ≠ lit "CMD\r\n" := by
      apply command_not_start
      rw [whole] at noCommand
      simpa using noCommand
    simp [verdict, notCommand, parts.starts]
  have begun :
      answer p [] bytes =
        answer p (skipped ++ [first]) (inner ++ last :: behind) := by
    have passed :=
      @answer_skipped p skipped [] (first :: (inner ++ last :: behind)) rfl
        parts.before (by rw [whole] at noCommand; simpa using noCommand)
    rw [whole, List.append_assoc, List.cons_append, passed, List.nil_append,
      answer, atFirst]
  have opened : (skipped ++ [first]).any (isStart p) = true := by
    simp [parts.starts]
  have run :=
    @answer_inner p inner (skipped ++ [first]) (last :: behind) opened
      parts.between (by rw [whole] at noCommand; simpa using noCommand)
      (by rw [opening]; exact Nat.zero_le _)
  have same : skipped ++ [first] ++ inner = skipped ++ first :: inner := by
    simp
  rw [same, kept] at run
  rw [begun]
  split at run
  · have notCommand : skipped ++ first :: inner ++ [last] ≠ lit "CMD\r\n" := by
      apply command_not_start
      rw [whole] at noCommand
      exact noCommand
    have started : (skipped ++ first :: inner).any (isStart p) = true := by
      simp [parts.starts]
    have concluded :
        verdict p (skipped ++ first :: inner) last =
          some
            { ret := (strays p bytes ++ packetText p bytes).length
              stored := strays p bytes ++ packetText p bytes ++ [0] } := by
      rw [verdict, if_neg notCommand, if_neg, if_pos parts.stops, kept]
      simp [different last parts.stops, started]
    rw [run, answer, concluded]
    constructor
    · intro returned
      have lengths := congrArg Rx.ret (Option.some.inj returned)
      simp only [List.length_append] at lengths
      exact List.eq_nil_of_length_eq_zero (by omega)
    · intro none
      rw [none, List.nil_append]
  · rename_i long
    obtain ⟨stored, returned⟩ := run
    rw [returned]
    constructor
    · intro fitting
      have lengths := congrArg Rx.ret (Option.some.inj fitting)
      simp only at lengths
      omega
    · intro none
      rw [none, List.nil_append] at long
      omega

/--
On a stream that arrives without timeouts, holds a packet and does not begin
with the command, `kreadpkt()` returns the text between the last `0x13` before
the terminator and that terminator exactly when nothing but start characters
stands between the first `0x13` and that one.
-/
theorem kreadpkt_resynchronises_iff
    (p : Params)
    (bytes : List UInt8)
    (polls : List Poll)
    (start : p.rSoh = packetStart)
    (terminator : p.rEom = packetEnd)
    (arrives : Arrives p bytes polls)
    (complete : Complete p bytes)
    (noCommand : ¬ lit "CMD\r\n" <+: bytes)
    (fits : (packetText p bytes).length ≤ p.rMaxlen) :
    (kreadpkt p polls).map (·.1) =
        some
          { ret := (packetText p bytes).length
            stored := packetText p bytes ++ [0] } ↔
      strays p bytes = [] := by
  have different : ∀ c, isStop p c = true → isStart p c = false := by
    intro c stops
    simp only [isStop, decide_eq_true_eq] at stops
    simp only [isStart, decide_eq_false_iff_not, stops, start, terminator]
    decide
  rw [kreadpkt, kreadpktFrom_arrives arrives rfl (seen_start p)]
  exact answer_complete_iff different complete noCommand fits

theorem kreadpkt_resynchronises_iff_noise :
    (kreadpkt (freshSys 0).k.par
        ([ch 'x', 0x13, 0x13, ch 'a', 0x0d, ch 'b'].map .byte)).map (·.1) =
      some { ret := 1, stored := [ch 'a', 0] } :=
  (kreadpkt_resynchronises_iff (freshSys 0).k.par
    [ch 'x', 0x13, 0x13, ch 'a', 0x0d, ch 'b'] _ rfl rfl
    (arrives_bytes _ _) ⟨0x0d, by decide, by decide⟩ (by decide)
    (by decide)).mpr (by decide)

/-- The rest of a packet without its terminator spoils the next one. -/
theorem lost_terminator_spoils_next :
    let p := (freshSys 0).k.par
    let bytes := [0x13, ch 'l', ch 'o', ch 's', ch 't', 0x13, ch 'a', 0x0d]
    Arrives p bytes (bytes.map .byte) ∧
      packetText p bytes = [ch 'a'] ∧
      (kreadpkt p (bytes.map .byte)).map (·.1) =
        some
          { ret := 5
            stored := [ch 'l', ch 'o', ch 's', ch 't', ch 'a', 0] } := by
  exact ⟨arrives_bytes _ _, by decide, by decide⟩

end Slate106.Kermit
