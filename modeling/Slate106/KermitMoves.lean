import Slate106.KermitAccepted
import Slate106.KermitWork

namespace Slate106.Kermit

open CBytes

/-!
# What the state switcher does to a session

A call of `kermit()` is work, changes of `state` and changes of `what`.  The
conditions under which the state becomes `R_DATA` are part of the steps.
-/

variable {ω : Type}

/-- What has to be true when the state becomes `R_DATA`. -/
structure DataOpened
    (s : Sys ω) : Prop where
  opened :
    (∃ name rest, s.log = .openf name 2 xOk :: rest) ∨
      (s.k.what = .dir ∧ s.k.state = .rWait)

/-- One step of a call that runs the protocol. -/
inductive Move
    (io : Io ω) : Sys ω → Sys ω → Prop where
  | work
      {s s' : Sys ω}
      (step : Work io s s') :
      Move io s s'
  | state
      (state : State)
      (s : Sys ω)
      (active : state ≠ .rWait ∧ state ≠ .rNone)
      (opened : state = .rData → DataOpened s) :
      Move io s { s with k.state := state }
  | what
      (what : What)
      (s : Sys ω)
      (notWait : what = .dir → s.k.state ≠ .rWait) :
      Move io s (setWhat what s)

/-- Any number of steps of a call. -/
abbrev Moves
    (io : Io ω) : Sys ω → Sys ω → Prop :=
  Relation.ReflTransGen (Move io)

section Steps

variable {io : Io ω}
variable {s s' t : Sys ω}

theorem Moves.and
    (first : Moves io s s')
    (second : Moves io s' t) :
    Moves io s t :=
  Relation.ReflTransGen.trans first second

theorem Works.moves
    (steps : Works io s s') :
    Moves io s s' :=
  Relation.ReflTransGen.mono (fun _ _ step => Move.work step) _ _ steps

theorem moves_setState
    {state : State}
    (active : state ≠ .rWait ∧ state ≠ .rNone)
    (opened : state = .rData → DataOpened s) :
    Moves io s (setState state s) :=
  Relation.ReflTransGen.trans
    (.single (.state state s active opened))
    (works_response { s.r with rstatus := state } _).moves

/-- The state becomes one in which no file is received. -/
theorem Moves.to
    {state : State}
    (before : Moves io s t)
    (active : state ≠ .rWait ∧ state ≠ .rNone)
    (notData : state ≠ .rData) :
    Moves io s (setState state t) :=
  before.trans
    (moves_setState active (fun isData => absurd isData notData))

/-! ## The output file and the receive window -/

theorem works_countWritten
    (number : Nat)
    (s : Sys ω) :
    Works io s (countWritten number s) :=
  works_response _ s

theorem works_rewindObuf
    (s : Sys ω) :
    Works io s (rewindObuf s) :=
  works_scratch ⟨rfl, rfl, rfl, rfl, rfl, rfl, rfl, rfl, rfl, rfl, rfl⟩

theorem works_decodeOut
    (inData : s.k.state = .rData)
    (a : UInt8)
    (rpt : Nat)
    (rc : Int) :
    Works io s (decodeOut io a rpt rc s).2.2 := by
  induction rpt generalizing s rc with
  | zero =>
      exact .refl
  | succ rpt inductionHypothesis =>
      have stored : Works io s (storeByte a s) :=
        works_scratch
          ⟨rfl, rfl, rfl, rfl, rfl, rfl, rfl, rfl, rfl, rfl, rfl⟩
      unfold decodeOut
      dsimp only
      split
      · have written :=
          (stored.then (.writef
            ((storeByte a s).k.obuf.takeD s.k.cfg.obuflen 0) _
            inData)).and (works_countWritten s.k.cfg.obuflen _)
        split
        · exact written
        · refine (written.and (works_rewindObuf _)).and
            (inductionHypothesis ?_ _)
          exact inData
      · refine stored.and (inductionHypothesis ?_ _)
        exact inData

theorem works_decodeFileLoop
    (inData : s.k.state = .rData)
    (count rpt : Nat)
    (rc : Int)
    (inbuf : List UInt8) :
    Works io s (decodeFileLoop io count rpt rc inbuf s).2 := by
  induction count generalizing s rpt rc inbuf with
  | zero =>
      exact .refl
  | succ count inductionHypothesis =>
      unfold decodeFileLoop
      dsimp only
      split
      · exact .refl
      · refine (works_decodeOut inData _ _ _).and
          (inductionHypothesis ?_ _ _ _)
        exact (works_decodeOut inData _ _ _).control.state.trans inData

theorem works_decodeFile
    (inData : s.k.state = .rData)
    (inbuf : List UInt8)
    (rslot : Int) :
    Works io s (decodeFile io inbuf rslot s).2 := by
  have noted : Works io s { s with log := .decodeFile :: s.log } :=
    .of (.decodeFile s inData)
  unfold decodeFile
  dsimp only
  split
  · exact noted.and (works_epkt _ _)
  · split
    · exact noted.and (works_epkt _ _)
    · refine noted.and (works_decodeFileLoop ?_ _ _ _ _)
      exact inData

theorem works_decodeName
    (inbuf : List UInt8)
    (s : Sys ω) :
    Works io s (decodeName inbuf s).2 :=
  works_response _ s

theorem works_decodeSlot
    (inData : s.k.state = .rData)
    (rslot : Int) :
    Works io s (decodeSlot io rslot s).2 := by
  unfold decodeSlot
  split
  · exact works_decodeFile inData _ _
  · exact .refl

theorem works_alignWindow
    (inData : s.k.state = .rData)
    (rseq : Int)
    (count : Nat) :
    Works io s (alignWindow io rseq count s).2 := by
  induction count generalizing s with
  | zero =>
      exact .refl
  | succ count inductionHypothesis =>
      unfold alignWindow
      dsimp only
      generalize
        (if rseq - earliestRseq s.k < 0 then
          rseq - earliestRseq s.k + 64
        else rseq - earliestRseq s.k) = dseq
      generalize s.k.win.rPw (earliestRseq s.k) = rslot
      have decoded : Works io _ _ := works_decodeSlot inData rslot
      split
      · exact .refl
      · split
        · exact inductionHypothesis inData
        · split
          · exact .refl
          · split
            · exact .refl
            · split
              · exact decoded.and (works_epkt _ _)
              · have freed := decoded.and (works_freeRslot rslot _)
                refine freed.and (inductionHypothesis ?_)
                exact freed.control.state.trans inData

theorem works_nakGap
    (high : Int)
    (count i : Nat)
    (s : Sys ω) :
    Works io s (nakGap io high count i s) := by
  induction count generalizing i s with
  | zero =>
      exact .refl
  | succ count inductionHypothesis =>
      exact (works_nak _ _ s).trans (inductionHypothesis _ _)

theorem works_addRpkt
    {pbuf : List UInt8}
    (short : (cstr pbuf).length < pBuflen)
    (rseq : Int)
    (s : Sys ω) :
    Works io s (addRpkt io rseq pbuf s).2 := by
  have tested : Works io _ _ := works_testRslots s
  unfold addRpkt
  generalize testRslots io s = first at tested
  have taken := tested.then (.getRslot first)
  dsimp only
  generalize onK (fun k => (getRslot k).2) first = second at taken
  split
  · exact taken
  · have testedAgain := taken.and (works_testRslots second)
    have stored :=
      testedAgain.then
        (.storeRslot (getRslot first.k).1 rseq pbuf _ short)
    exact stored.and (works_testRslots _)

theorem works_placeRpkt
    {pbuf : List UInt8}
    (short : (cstr pbuf).length < pBuflen)
    (a : Arrival)
    (rseq : Int)
    (s : Sys ω) :
    Works io s (placeRpkt io a rseq pbuf s).2 := by
  have acked : Works io _ _ := works_ack rseq none s
  unfold placeRpkt
  dsimp only
  split
  · exact acked.and (works_addRpkt short rseq _)
  · split
    · exact (acked.and (works_nakGap _ _ _ _)).and
        (works_addRpkt short rseq _)
    · split
      · split
        · exact acked.and (works_addRpkt short rseq _)
        · exact acked
      · exact .refl

theorem works_handleGoodRpkt
    {pbuf : List UInt8}
    (inData : s.k.state = .rData)
    (short : (cstr pbuf).length < pBuflen)
    (rseq : Int) :
    Works io s (handleGoodRpkt io rseq pbuf s).2 := by
  have aligned : Works io _ _ :=
    works_alignWindow inData rseq s.k.par.wslots
  unfold handleGoodRpkt
  dsimp only
  split
  · split
    · exact aligned
    · exact aligned.and (works_placeRpkt short _ rseq _)
  · exact works_placeRpkt short _ rseq s

theorem works_flushLoop
    (inData : s.k.state = .rData)
    (count : Nat)
    (rc : Int) :
    Works io s (flushLoop io count rc s).2.2 := by
  induction count generalizing s rc with
  | zero =>
      exact .refl
  | succ count inductionHypothesis =>
      unfold flushLoop
      dsimp only
      generalize s.k.win.rPw (earliestRseq s.k) = rslot
      have decoded : Works io _ _ :=
        works_decodeFile inData (s.k.win.ipktinfo rslot).buf rslot
      split
      · exact .refl
      · split
        · exact .refl
        · split
          · exact .refl
          · split
            · exact decoded.and (works_epkt _ _)
            · have freed := decoded.and (works_freeRslot rslot _)
              refine freed.and (inductionHypothesis ?_ _)
              exact freed.control.state.trans inData

theorem works_flushToFile
    (inData : s.k.state = .rData) :
    Works io s (flushToFile io s).2 := by
  have flushed : Works io _ _ := works_flushLoop inData (s.k.par.wslots + 1) xOk
  have stillData := flushed.control.state.trans inData
  unfold flushToFile
  dsimp only
  split
  · exact flushed
  · split
    · exact ((flushed.then (.writef _ _ stillData)).and
        (works_countWritten _ _)).and (works_rewindObuf _)
    · exact flushed

/-! ## Serving a listing -/

/-- Steps of a call, or the end of a listing, after which nothing runs. -/
structure Ran
    (io : Io ω)
    (s : Sys ω)
    (result : Int × Sys ω) : Prop where
  steps :
    Moves io s result.2 ∨
      (result.1 = xDone ∧
        ∃ t, Moves io s t ∧ result.2 = setState .rWait t)

theorem Moves.ran
    {result : Int × Sys ω}
    (steps : Moves io s result.2) :
    Ran io s result :=
  ⟨Or.inl steps⟩

theorem Works.ran
    {result : Int × Sys ω}
    (steps : Works io s result.2) :
    Ran io s result :=
  ⟨Or.inl steps.moves⟩

theorem Ran.after
    {result : Int × Sys ω}
    (ran : Ran io s' result)
    (before : Moves io s s') :
    Ran io s result := by
  rcases ran.steps with steps | ⟨done, t, steps, last⟩
  · exact ⟨Or.inl (before.and steps)⟩
  · exact ⟨Or.inr ⟨done, t, before.and steps, last⟩⟩

theorem works_nxtpkt
    (s : Sys ω) :
    Works io s (onK nxtpkt s) :=
  works_scratch ⟨rfl, rfl, rfl, rfl, rfl, rfl, rfl, rfl, rfl, rfl, rfl⟩

theorem works_nextSlot
    (s : Sys ω) :
    Works io s (onK (fun k => (takeSslot (nxtpkt k)).2) s) :=
  (works_nxtpkt s).and (works_takeSslot (onK nxtpkt s))

theorem works_resetBct
    (s : Sys ω) :
    Works io s (onK resetBct s) :=
  (chores_setBct _ s).works

theorem works_listSlot
    (s : Sys ω) :
    Works io s (onK (fun k => resetBct (takeSslot k).2) s) :=
  (works_takeSslot s).and (works_resetBct _)

theorem moves_dirAckEof
    (s : Sys ω) :
    Moves io s (dirAckEof io s).2 := by
  have begun : Works io _ _ := works_nextSlot s
  unfold dirAckEof
  generalize onK (fun k => (takeSslot (nxtpkt k)).2) s = first at begun
  have sent := begun.and (works_spkt (ch 'B') first.k.sSeq 0 none first)
  dsimp only
  split
  · exact (sent.and (works_epkt _ _)).moves
  · exact sent.moves.to (by decide) (by decide)

theorem works_spktXdata
    (typ : UInt8)
    (s : Sys ω) :
    Works io s (spktXdata io typ s).2 :=
  works_spkt typ _ _ _ s

theorem moves_dirAckInit
    (s : Sys ω) :
    Moves io s (dirAckInit io s).2 := by
  have titled : Works io s (putTitle s) :=
    works_scratch ⟨rfl, rfl, rfl, rfl, rfl, rfl, rfl, rfl, rfl, rfl, rfl⟩
  have sent :=
    ((titled.and (works_encstr .obuf _)).and (works_listSlot _)).and
      (works_spktXdata (ch 'X') _)
  unfold dirAckInit
  dsimp only
  split
  · exact (sent.and (works_epkt _ _)).moves
  · exact sent.moves.to (by decide) (by decide)

theorem moves_dirAckData
    (s : Sys ω) :
    Moves io s (dirAckData io s).2 := by
  have begun : Works io _ _ := works_nextSlot s
  unfold dirAckData
  generalize onK (fun k => (takeSslot (nxtpkt k)).2) s = first at begun
  have sent := begun.and (works_spkt (ch 'Z') first.k.sSeq 0 none first)
  dsimp only
  split
  · exact sent.moves.to (by decide) (by decide)
  · exact (sent.and (works_epkt _ _)).moves

theorem moves_dirAckText
    (p : Rcvd)
    (s : Sys ω) :
    Moves io s (dirAckText io p s).2 := by
  have named :
      Works io s (noteDirname p (onK (fun k => (takeSslot k).2) s)) :=
    (works_takeSslot s).and (works_scratch
      ⟨rfl, rfl, rfl, rfl, rfl, rfl, rfl, rfl, rfl, rfl, rfl⟩)
  have listed := named.then (.getdirdata _)
  unfold dirAckText
  generalize noteDirname p (onK (fun k => (takeSslot k).2) s) = first
    at listed
  have put :
      Works io s
        (putListing p (callGetdirdata io first).2.1
          (callGetdirdata io first).2.2) :=
    listed.and (works_scratch
      ⟨rfl, rfl, rfl, rfl, rfl, rfl, rfl, rfl, rfl, rfl, rfl⟩)
  have sent := put.and (works_spktXdata (ch 'D') _)
  dsimp only
  split
  · exact (listed.and (works_epkt _ _)).moves
  · split
    · exact (sent.moves.to (by decide) (by decide)).and
        (works_response _ _).moves
    · exact (sent.and (works_epkt _ _)).moves

theorem ran_dirAck
    (p : Rcvd)
    (s : Sys ω) :
    Ran io s (dirAck io p s) := by
  unfold dirAck
  dsimp only
  generalize s.k.win.sPw p.rseq = slot
  have acked : Works io s (onK (acknowledge slot) s) :=
    .of (.acknowledge slot s)
  generalize onK (acknowledge slot) s = t at acked
  split
  · exact Works.ran .refl
  · split
    · exact ⟨Or.inr ⟨rfl, t, acked.moves, rfl⟩⟩
    · exact (acked.moves.and (moves_dirAckEof t)).ran
    · exact (acked.moves.and (moves_dirAckInit t)).ran
    · exact (acked.moves.and (moves_dirAckData t)).ran
    · exact (acked.moves.and (moves_dirAckText p t)).ran
    · exact acked.ran

/-! ## Requests -/

theorem moves_answerRequest
    (what : What)
    (s : Sys ω) :
    Moves io s (answerRequest io what s).2 := by
  have listed : Works io s { s with k.filelist := [.xdatabuf] } :=
    works_scratch ⟨rfl, rfl, rfl, rfl, rfl, rfl, rfl, rfl, rfl, rfl, rfl⟩
  unfold answerRequest
  generalize { s with k.filelist := [StrRef.xdatabuf] } = first at listed
  have sent := listed.and (works_rpar (ch 'S') first)
  dsimp only
  generalize rpar io (ch 'S') first = result at sent
  split
  · exact (sent.and (works_epkt _ _)).moves
  · have started : Moves io s (setState .sInit result.2) :=
      sent.moves.to (by decide) (by decide)
    refine started.tail (.what what _ (fun _ => ?_))
    exact State.noConfusion

theorem works_noteRequest
    (action : Action)
    (name : List UInt8)
    (s : Sys ω) :
    Works io s (noteRequest action name s) :=
  works_scratch ⟨rfl, rfl, rfl, rfl, rfl, rfl, rfl, rfl, rfl, rfl, rfl⟩

theorem moves_gPacket
    (p : Rcvd)
    (s : Sys ω) :
    Moves io s (gPacket io p s).2 := by
  have decoded : Works io _ _ := works_decodeName (pdfMem p s) s
  unfold gPacket
  generalize (decodeName (pdfMem p s) s).2 = t at decoded
  dsimp only
  split
  · exact (decoded.and (works_epkt _ _)).moves
  · exact (decoded.and (works_noteRequest .dir _ t)).moves.and
      (moves_answerRequest .dir _)

/-- What follows after the name of an R packet has been looked for. -/
theorem moves_rPacket_looked
    (p : Rcvd)
    (s : Sys ω) :
    Moves io
      (callAccessf io (cstr (pdfMem p s))
        (noteRequest .get (cstr (pdfMem p s)) (decodeName (pdfMem p s) s).2)).2
      (rPacket io p s).2 := by
  have sameBuffer :
      pdfMem p (decodeName (pdfMem p s) s).2 = pdfMem p s := rfl
  unfold rPacket
  dsimp only
  rw [sameBuffer]
  generalize callAccessf io (cstr (pdfMem p s))
    (noteRequest .get (cstr (pdfMem p s)) (decodeName (pdfMem p s) s).2) =
      access
  have answered : Moves io access.2 _ := moves_answerRequest .send access.2
  split
  · have told : Works io access.2 _ :=
      works_epkt
        (lit "The file specified in GET parameters is not accessible") access.2
    exact (told.and (works_response _ _)).moves
  · split
    · exact answered
    · refine answered.and (works_scratch ?_).moves
      exact ⟨rfl, rfl, rfl, rfl, rfl, rfl, rfl, rfl, rfl, rfl, rfl⟩

theorem moves_rPacket
    (p : Rcvd)
    (s : Sys ω) :
    Moves io s (rPacket io p s).2 := by
  have decoded : Works io _ _ := works_decodeName (pdfMem p s) s
  have accessed :=
    (decoded.and (works_noteRequest .get (cstr (pdfMem p s)) _)).then
      (.accessf (cstr (pdfMem p s)) _)
  exact accessed.moves.and (moves_rPacket_looked p s)

/-! ## Sending -/

theorem works_awaitSent
    (s : Sys ω) :
    Works io s (awaitSent s).2 :=
  works_scratch ⟨rfl, rfl, rfl, rfl, rfl, rfl, rfl, rfl, rfl, rfl, rfl⟩

theorem moves_endInput
    (s : Sys ω) :
    Moves io s (endInput io s) :=
  (Works.of (.closef 0 1 s)).moves.to (by decide) (by decide)

private theorem works_stepBack
    (slot : Int)
    (s : Sys ω) :
    Works io s
      (onK
        (fun k => freeSslot slot { k with sSeq := (k.sSeq - 1) % 64 })
        s) := by
  have counted :
      Works io s (onK (fun k => { k with sSeq := (k.sSeq - 1) % 64 }) s) :=
    works_scratch ⟨rfl, rfl, rfl, rfl, rfl, rfl, rfl, rfl, rfl, rfl, rfl⟩
  exact counted.then (.freeSslot slot _)

theorem moves_sendRequested
    (p : Rcvd)
    (s : Sys ω) :
    Moves io s (sendRequested io p s).2 := by
  have begun : Works io _ _ := works_nxtpkt s
  unfold sendRequested
  generalize onK nxtpkt s = first at begun
  have sent := (begun.and (works_takeSslot first)).and (works_sdata _)
  dsimp only
  split
  · exact (begun.and (works_epkt _ _)).moves
  · split
    · exact sent.moves
    · split
      · have ended := sent.moves.and (moves_endInput _)
        exact (ended.and (works_stepBack _ _).moves).and
          (works_awaitSent _).moves
      · exact (sent.and (works_awaitSent _)).moves

theorem moves_cancelSend
    (p : Rcvd)
    (s : Sys ω) :
    Moves io s (cancelSend io p s).2 := by
  have begun : Works io _ _ := (Works.of (.closef 0 1 s)).and (works_nextSlot _)
  unfold cancelSend
  dsimp only
  generalize
    onK (fun k => (takeSslot (nxtpkt k)).2) (callClosef io 0 1 s).2 = first
    at begun
  have sent := begun.and (works_spkt (ch 'Z') first.k.sSeq 0 none first)
  split
  · exact sent.moves
  · split
    · refine (((sent.and (works_scratch ?_)).moves.to (by decide)
        (by decide))).and (works_awaitSent _).moves
      exact ⟨rfl, rfl, rfl, rfl, rfl, rfl, rfl, rfl, rfl, rfl, rfl⟩
    · exact (sent.moves.to (by decide) (by decide)).and
        (works_awaitSent _).moves

theorem works_takeName
    (name : StrRef)
    (rest : List StrRef)
    (s : Sys ω) :
    Works io s (takeName name rest s) :=
  works_scratch ⟨rfl, rfl, rfl, rfl, rfl, rfl, rfl, rfl, rfl, rfl, rfl⟩

/-- What follows after the next file has been opened. -/
theorem moves_sendFile_opened
    (name : StrRef)
    (rest : List StrRef)
    (s : Sys ω) :
    Moves io
      (callOpenf io (deref (takeName name rest s) name) 1
        (takeName name rest s).r.filesize (takeName name rest s)).2
      (sendFile io name rest s).2 := by
  unfold sendFile
  dsimp only
  generalize
    callOpenf io (deref (takeName name rest s) name) 1
      (takeName name rest s).r.filesize (takeName name rest s) = opened
  split
  · exact .refl
  · have encoded : Works io opened.2 _ :=
      (works_encstr name opened.2).and (works_takeSslot _)
    generalize
      onK (fun k => (takeSslot k).2) (encstr io name opened.2).2 = packed
      at encoded
    have sent :=
      encoded.and
        (works_spkt (ch 'F') packed.k.sSeq (-1) (some (xdataMem packed.k))
          packed)
    split
    · exact sent.moves
    · exact (((sent.and (works_response _ _)).moves.to
        (by decide) (by decide))).and (works_awaitSent _).moves

theorem moves_sendFile
    (name : StrRef)
    (rest : List StrRef)
    (s : Sys ω) :
    Moves io s (sendFile io name rest s).2 := by
  have named : Works io _ _ := works_takeName name rest s
  have opened :=
    named.then
      (.openf (deref (takeName name rest s) name) 1
        (takeName name rest s).r.filesize _)
  exact opened.moves.and (moves_sendFile_opened name rest s)

theorem moves_sendBreak
    (s : Sys ω) :
    Moves io s (sendBreak io s).2 := by
  have named : Works io s { s with k.filename := none } :=
    works_scratch ⟨rfl, rfl, rfl, rfl, rfl, rfl, rfl, rfl, rfl, rfl, rfl⟩
  unfold sendBreak
  generalize { s with k.filename := none } = first at named
  dsimp only
  split
  · exact (named.then (.getSslot first)).moves
  · have taken := named.and (works_takeSslot first)
    generalize onK (fun k => (takeSslot k).2) first = second at taken
    have sent := taken.and (works_spkt (ch 'B') second.k.sSeq 0 none second)
    split
    · exact sent.moves
    · exact (sent.moves.to (by decide) (by decide)).and
        (works_awaitSent _).moves

theorem moves_nextFile
    (s : Sys ω) :
    Moves io s (nextFile io s).2 := by
  have begun : Works io _ _ := works_nxtpkt s
  unfold nextFile
  dsimp only
  split
  · exact begun.moves.and (moves_sendFile _ _ _)
  · exact begun.moves.and (moves_sendBreak _)

theorem moves_firstData
    (s : Sys ω) :
    Moves io s (firstData io s).2 := by
  have sent : Works io _ _ := (works_takeSslot s).and (works_sdata _)
  unfold firstData
  dsimp only
  generalize sdata io (onK (fun k => (takeSslot k).2) s) = first at sent
  split
  · exact sent.moves
  · split
    · have taken := sent.and (works_takeSslot first.2)
      generalize onK (fun k => (takeSslot k).2) first.2 = second at taken
      have ended :=
        taken.and (works_spkt (ch 'Z') second.k.sSeq 0 none second)
      split
      · exact ended.moves
      · exact (ended.moves.and (moves_endInput _)).and
          (works_awaitSent _).moves
    · exact (sent.moves.to (by decide) (by decide)).and
        (works_awaitSent _).moves

theorem moves_afterFile
    (s : Sys ω) :
    Moves io s (afterFile io s).2 := by
  have begun : Works io _ _ := works_nxtpkt s
  unfold afterFile
  dsimp only
  split
  · have sent := begun.and (works_sattr _)
    split
    · exact sent.moves
    · exact (sent.moves.to (by decide) (by decide)).and
        (works_awaitSent _).moves
  · exact begun.moves.and (moves_firstData _)

/-- A slot for the next packet. -/
theorem works_advanceSlot
    (s : Sys ω) :
    Works io s
      (onK (fun k => mapSseq (getSslot s.k).1 (nxtpkt k))
        (onK (fun k => (getSslot k).2) s)) := by
  have got : Works io _ _ := Works.of (.getSslot s)
  have upper := getSslot_lt s.k
  have window :
      (onK (fun k => (getSslot k).2) s).k.par = s.k.par := by
    simp only [onK]
    rw [getSslot_shape]
  refine (got.and (works_nxtpkt _)).then
    (.mapSseq (getSslot s.k).1 _ (getSslot_ge s.k) ?_)
  rw [show (onK nxtpkt (onK (fun k => (getSslot k).2) s)).k.par =
    (onK (fun k => (getSslot k).2) s).k.par by rfl, window]
  exact upper

theorem moves_afterData
    (s : Sys ω) :
    Moves io s (afterData io s).2 := by
  have inData :
      Moves io s
        (if s.k.state = .sAttr then setState .sData s else s) := by
    split
    · exact (Works.moves .refl).to (by decide) (by decide)
    · exact .refl
  unfold afterData
  dsimp only
  generalize (if s.k.state = .sAttr then setState .sData s else s) = first
    at inData
  have got : Works io _ _ := Works.of (.getSslot first)
  have mapped : Works io _ _ := works_advanceSlot first
  split
  · exact inData.and got.moves
  · have sent := inData.and (mapped.and (works_sdata _)).moves
    generalize
      sdata io (onK (fun k => mapSseq (getSslot first.k).1 (nxtpkt k))
        (onK (fun k => (getSslot k).2) first)) = third at sent
    split
    · exact sent
    · split
      · have ended := sent.and (moves_endInput third.2)
        generalize endInput io third.2 = fourth at ended
        have last :=
          ended.and
            (works_spkt (ch 'Z') fourth.k.sSeq 0 none fourth).moves
        split
        · exact last
        · exact last.and (works_awaitSent _).moves
      · exact sent.and (works_awaitSent _).moves

/-! ## Receiving -/

theorem moves_setWhat
    {what : What}
    (before : Moves io s t)
    (notDir : what ≠ .dir) :
    Moves io s (setWhat what t) :=
  before.tail (.what what t (fun isDir => absurd isDir notDir))

theorem moves_inWait
    (waiting : s.k.state = .rWait)
    (p : Rcvd) :
    Moves io s (inWait io p s).2 := by
  have sent : Works io _ _ :=
    (Works.of (.spar p.pdf p.datalen s)).and
      (works_rpar (ch 'Y') _)
  have control := sent.control
  unfold inWait
  dsimp only
  generalize rpar io (ch 'Y') (onK (spar p.pdf p.datalen) s) = first
    at sent control
  split
  · split
    · exact sent.moves
    · split
      · rename_i listing
        refine sent.moves.and (moves_setState (by decide) (fun _ => ?_))
        exact ⟨Or.inr ⟨listing, control.state.trans waiting⟩⟩
      · have filed : Moves io s (setState .rFile _) :=
          sent.moves.to (by decide) (by decide)
        exact (moves_setWhat filed (by decide)).and
          (works_response _ _).moves
  · split
    · exact (works_resend 0 s).moves
    · exact (works_nak 0 (-1) s).moves

theorem works_reportFile
    (action : Action)
    (s : Sys ω) :
    Works io s (reportFile action s) := by
  unfold reportFile
  split
  · exact works_response _ s
  · exact .refl

theorem moves_inFile
    (p : Rcvd)
    (s : Sys ω) :
    Moves io s (inFile io p s).2 := by
  have decoded : Works io s (decodeName (pdfMem p s) s).2 :=
    works_decodeName (pdfMem p s) s
  unfold inFile
  dsimp only
  split
  · generalize decodeName (pdfMem p s) s = done at decoded
    split
    · have named : Moves io s (setState .rAttr done.2) :=
        decoded.moves.to (by decide) (by decide)
      have cleared : Moves io s (clearFile (setState .rAttr done.2)) :=
        named.and (works_response _ _).moves
      exact cleared.and (works_ack _ _ _).moves
    · have still : Works io s (setState done.2.k.state done.2) :=
        decoded.and (works_response _ _)
      exact (still.and (works_epkt _ _)).moves
  · split
    · exact ((works_ack _ _ s).and (works_reportFile _ _)).moves
    · split
      · exact (works_ack _ _ s).moves
      · split
        · have sent : Works io _ _ :=
            (Works.of (.spar p.pdf p.datalen s)).and
              (works_rpar (ch 'Y') _)
          split
          · exact sent.moves
          · exact moves_setWhat
              (sent.moves.to (by decide) (by decide)) (by decide)
        · exact .refl

theorem works_openOutput
    (s : Sys ω) :
    Works io s (openOutput io s).2 := by
  have begun :
      Works io s
        (resetSofar
          { s with k.obufpos := 0, k.filename := some .rFilename }) :=
    works_scratch ⟨rfl, rfl, rfl, rfl, rfl, rfl, rfl, rfl, rfl, rfl, rfl⟩
  exact begun.then (.openf _ 2 _ _)

theorem openOutput_log
    (io : Io ω)
    (s : Sys ω) :
    ∃ name,
      (openOutput io s).2.log =
        .openf name 2 (openOutput io s).1 :: s.log :=
  ⟨_, rfl⟩

theorem openOutput_ipktbuf
    (io : Io ω)
    (s : Sys ω) :
    (openOutput io s).2.k.ipktbuf = s.k.ipktbuf :=
  rfl

/-- The received data field is shorter than a packet buffer. -/
def Short
    (p : Rcvd)
    (s : Sys ω) : Prop :=
  (cstr (pdfMem p s)).length < pBuflen

theorem moves_firstRpkt
    {p : Rcvd}
    (short : Short p s) :
    Moves io s (firstRpkt io p s).2 := by
  have opened : Works io _ _ := works_openOutput s
  obtain ⟨name, logged⟩ := openOutput_log io s
  have sameBuffer := openOutput_ipktbuf io s
  unfold firstRpkt
  dsimp only
  generalize openOutput io s = first at opened logged sameBuffer
  split
  · rename_i success
    have stillShort : (cstr (pdfMem p first.2)).length < pBuflen := by
      unfold pdfMem
      rw [sameBuffer]
      exact short
    have receiving : Moves io s (setState .rData first.2) := by
      refine opened.moves.and (moves_setState (by decide) (fun _ => ?_))
      rw [success] at logged
      exact ⟨Or.inl ⟨name, s.log, logged⟩⟩
    have stored :=
      receiving.and
        (works_handleGoodRpkt (s := setState .rData first.2) rfl
          stillShort p.rseq).moves
    split
    · exact stored
    · exact stored.and (works_epkt _ _).moves
  · exact (opened.and (works_epkt _ _)).moves

private theorem moves_goFile
    (before : Moves io s t) :
    Moves io s (goFile t) :=
  before.tail (.state .rFile t (by decide) (fun isData => nomatch isData))

private theorem works_showState
    (s : Sys ω) :
    Works io s (showState s) :=
  works_response _ s

theorem moves_emptyFile
    (p : Rcvd)
    (s : Sys ω) :
    Moves io s (emptyFile io p s).2 := by
  have opened : Works io _ _ := works_openOutput s
  unfold emptyFile
  dsimp only
  generalize openOutput io s = first at opened
  split
  · have closed :=
      opened.then (.closef (peek (pdfMem p first.2) 0) 2 first.2)
    generalize callClosef io (peek (pdfMem p first.2) 0) 2 first.2 = second
      at closed
    split
    · exact ((moves_goFile closed.moves).and (works_ack _ _ _).moves).and
        (works_showState _).moves
    · exact (closed.and (works_epkt _ _)).moves
  · exact (opened.and (works_epkt _ _)).moves

theorem works_takeAttr
    (p : Rcvd)
    (s : Sys ω) :
    Works io s (takeAttr p s) := by
  have read : Works io s { s with r := (gattr (pdfMem p s) s.r).2 } :=
    works_response _ s
  unfold takeAttr
  dsimp only
  split
  · exact read.then (.params _ _ rfl rfl rfl)
  · exact read

theorem moves_inAttr
    {p : Rcvd}
    (short : p.rtyp = ch 'D' → Short p s) :
    Moves io s (inAttr io p s).2 := by
  unfold inAttr
  split
  · exact ((works_takeAttr p s).and (works_ack _ _ _)).moves
  · split
    · rename_i isData
      exact moves_firstRpkt (short isData)
    · split
      · exact moves_emptyFile p s
      · split
        · exact (works_ack _ _ s).moves
        · exact (works_epkt _ s).moves

theorem moves_endOfFile
    (inData : s.k.state = .rData)
    (p : Rcvd) :
    Moves io s (endOfFile io p s).2 := by
  unfold endOfFile
  dsimp only
  split
  · have flushed : Works io _ _ := works_flushToFile inData
    generalize (flushToFile io s).2 = first at flushed
    have closed := flushed.then (.closef (peek (pdfMem p first) 0) 2 first)
    generalize callClosef io (peek (pdfMem p first) 0) 2 first = second
      at closed
    refine Moves.and ?_ (works_showState _).moves
    split
    · exact moves_goFile closed.moves
    · exact closed.moves
  · exact (Works.moves .refl).to (by decide) (by decide)

theorem works_takeListing
    (p : Rcvd)
    (s : Sys ω) :
    Works io s (takeListing p s) := by
  unfold takeListing
  split
  · exact works_response _ s
  · exact .refl

theorem works_dataRpkt
    {p : Rcvd}
    (inData : s.k.state = .rData)
    (short : Short p s) :
    Works io s (dataRpkt io p s).2 := by
  have stored : Works io _ _ :=
    (works_handleGoodRpkt inData short p.rseq).and
      (works_takeListing p _)
  unfold dataRpkt
  dsimp only
  split
  · exact stored
  · exact stored.and (works_epkt _ _)

theorem moves_inData
    {p : Rcvd}
    (receiving : s.k.state = .rData)
    (short : p.rtyp = ch 'D' → Short p s) :
    Moves io s (inData io p s).2 := by
  unfold inData
  dsimp only
  split
  · exact (works_ack _ _ s).moves
  · split
    · rename_i isData
      exact (works_dataRpkt receiving (short isData)).moves
    · split
      · have ended : Moves io _ _ := moves_endOfFile receiving p
        split
        · exact ended.and (works_ack _ _ _).moves
        · exact ended.and (works_epkt _ _).moves
      · exact (works_epkt _ s).moves

/-! ## A whole call -/

theorem moves_stateStage
    {p : Rcvd}
    (short : p.rtyp = ch 'D' → Short p s)
    (msg : List UInt8) :
    Moves io s (stateStage io msg p s).2 := by
  unfold stateStage
  split
  · exact (Works.of (.spar p.pdf p.datalen s)).moves.and
      (moves_nextFile _)
  · split
    · exact .refl
    · exact moves_nextFile s
  · exact moves_afterFile s
  · exact moves_afterData s
  · exact moves_afterData s
  · exact (works_reportFile .get s).moves
  · rename_i waiting
    exact moves_inWait waiting p
  · exact moves_inFile p s
  · exact moves_inAttr short
  · rename_i receiving
    exact moves_inData receiving short
  · exact (works_epkt msg s).moves

/-- What a part of a call has done: it returned, or it goes on. -/
def StageRan
    (io : Io ω)
    (s : Sys ω) : Stage ω → Prop
  | .ret rc t => Ran io s (rc, t)
  | .go p t => Works io s t ∧ Short p t

theorem works_resendUnlessRecv
    (s : Sys ω) :
    Works io s (resendUnlessRecv io s).2 := by
  unfold resendUnlessRecv
  split
  · exact .refl
  · exact works_resend (-1) s

private theorem works_ipktbuf
    (buf : List UInt8)
    (s : Sys ω) :
    Works io s { s with k.ipktbuf := buf } :=
  works_scratch ⟨rfl, rfl, rfl, rfl, rfl, rfl, rfl, rfl, rfl, rfl, rfl⟩

theorem ran_rxStage
    (len : Int)
    (s : Sys ω) :
    StageRan io s (rxStage io len s) := by
  have forced : Works io _ _ := (chores_forceBcta3 s).works
  unfold rxStage
  split
  · split
    · split
      · exact Works.ran (works_rpar (ch 'Y') s)
      · exact Works.ran .refl
    · exact Works.ran (works_resend (-1) s)
  · split
    · exact Works.ran .refl
    · exact Works.ran .refl
    · exact Works.ran
        ((works_ipktbuf _ s).and (works_resendUnlessRecv _))
    · exact Works.ran (forced.and (works_resendUnlessRecv _))
    · rename_i buf _
      exact Works.ran
        ((forced.and (works_ipktbuf buf _)).and (works_resendUnlessRecv _))
    · rename_i p buf good
      exact ⟨forced.and (works_ipktbuf buf _), (parse_good good).shortText⟩

theorem ran_sendStage
    {p : Rcvd}
    (short : Short p s) :
    StageRan io s (sendStage io p s) := by
  unfold sendStage
  dsimp only
  split
  · split
    · exact (moves_sendRequested p s).ran
    · exact Works.ran (works_resend p.rseq s)
  · split
    · exact Works.ran .refl
    · generalize s.k.win.sPw p.rseq = slot
      have acked : Works io s (onK (acknowledge slot) s) :=
        .of (.acknowledge slot s)
      have sameBuffer :
          (onK (acknowledge slot) s).k.ipktbuf = s.k.ipktbuf := by
        simp only [onK]
        rw [acknowledge_shape]
      generalize onK (acknowledge slot) s = t at acked sameBuffer
      split
      · exact (acked.moves.and (moves_cancelSend p t)).ran
      · refine ⟨acked.and (works_response _ _), ?_⟩
        unfold Short pdfMem
        simp only
        rw [sameBuffer]
        exact short

theorem ran_packetStage
    {p : Rcvd}
    (short : Short p s) :
    StageRan io s (packetStage io p s) := by
  unfold packetStage
  split
  · exact ran_dirAck p s
  · split
    · exact Works.ran .refl
    · split
      · exact (moves_gPacket p s).ran
      · split
        · exact (moves_rPacket p s).ran
        · split
          · exact Works.ran .refl
          · split
            · exact ran_sendStage short
            · exact ⟨.refl, short⟩

/-- A call that runs the protocol. -/
theorem ran_kermitRun
    (len : Int)
    (msg : List UInt8)
    (s : Sys ω) :
    Ran io s (kermitRun io len msg s) := by
  unfold kermitRun
  split
  · exact Works.ran .refl
  · split
    · have received : StageRan io s _ := ran_rxStage len s
      generalize rxStage io len s = stage at received
      cases stage with
      | ret rc t =>
          exact received
      | go p t =>
          obtain ⟨begun, short⟩ := received
          have handled : StageRan io _ _ := ran_packetStage short
          dsimp only
          generalize packetStage io p t = stage at handled
          cases stage with
          | ret rc u =>
              exact handled.after begun.moves
          | go p u =>
              obtain ⟨later, short⟩ := handled
              exact ((begun.and later).moves.and
                (moves_stateStage (fun _ => short) msg)).ran
    · have notData : Rcvd.nothing.rtyp ≠ ch 'D' := by
        decide
      exact (moves_stateStage (fun isData => absurd isData notData) msg).ran

theorem Moves.cfg
    (steps : Moves io s s') :
    s'.k.cfg = s.k.cfg := by
  induction steps with
  | refl =>
      rfl
  | tail _ step inductionHypothesis =>
      cases step with
      | work step =>
          exact step.control.cfg.trans inductionHypothesis
      | state | what =>
          exact inductionHypothesis

theorem Ran.cfg
    {result : Int × Sys ω}
    (ran : Ran io s result) :
    result.2.k.cfg = s.k.cfg := by
  rcases ran.steps with steps | ⟨done, t, steps, last⟩
  · exact steps.cfg
  · rw [last]
    exact steps.cfg

end Steps

end Slate106.Kermit
