import Slate106.KermitKeeps

namespace Slate106.Kermit

open CBytes

/-!
# Functions that leave the file name alone

`r->filename` is written where a name is decoded, where a name of the file list
is taken, and by `K_REINIT`.  All other functions keep it; these facts are simp
lemmas.
-/

variable {ω : Type}

theorem Transmits.filename
    {s t : Sys ω}
    (same : Transmits s t) :
    t.r.filename = s.r.filename :=
  congrArg KResponse.filename same.response

section Functions

variable {io : Io ω}

/-! ## Sending packets -/

@[simp] theorem filename_spkt
    (typ : UInt8)
    (seq len : Int)
    (text : Option (List UInt8))
    (s : Sys ω) :
    (spkt io typ seq len text s).2.r.filename = s.r.filename :=
  (transmits_spkt typ seq len text s).filename

@[simp] theorem filename_epkt
    (msg : List UInt8)
    (s : Sys ω) :
    (epkt io msg s).r.filename = s.r.filename :=
  (transmits_epkt msg s).filename

@[simp] theorem filename_ack
    (seq : Int)
    (text : Option (List UInt8))
    (s : Sys ω) :
    (ack io seq text s).2.r.filename = s.r.filename :=
  (transmits_ack seq text s).filename

@[simp] theorem filename_nak
    (seq slot : Int)
    (s : Sys ω) :
    (nak io seq slot s).2.r.filename = s.r.filename :=
  (transmits_nak seq slot s).filename

@[simp] theorem filename_resend
    (seq : Int)
    (s : Sys ω) :
    (resend io seq s).2.r.filename = s.r.filename :=
  (transmits_resend seq s).filename

@[simp] theorem filename_testRslots
    (s : Sys ω) :
    (testRslots io s).r.filename = s.r.filename :=
  (transmits_testRslots s).filename

@[simp] theorem filename_freeRslot
    (slot : Int)
    (s : Sys ω) :
    (freeRslot io slot s).r.filename = s.r.filename :=
  (transmits_freeRslot slot s).filename

@[simp] theorem filename_rpar
    (type : UInt8)
    (s : Sys ω) :
    (rpar io type s).2.r.filename = s.r.filename :=
  (transmits_rparSend type _ _).filename

@[simp] theorem filename_spktXdata
    (typ : UInt8)
    (s : Sys ω) :
    (spktXdata io typ s).2.r.filename = s.r.filename :=
  filename_spkt _ _ _ _ s

@[simp] theorem filename_onK
    (f : KData → KData)
    (s : Sys ω) :
    (onK f s).r.filename = s.r.filename :=
  rfl

@[simp] theorem filename_setState
    (state : State)
    (s : Sys ω) :
    (setState state s).r.filename = s.r.filename :=
  rfl

/-! ## Calls outside -/

@[simp] theorem filename_callOpenf
    (name : List UInt8)
    (mode filesize : Int)
    (s : Sys ω) :
    (callOpenf io name mode filesize s).2.r.filename = s.r.filename :=
  rfl

@[simp] theorem filename_callClosef
    (c : UInt8)
    (mode : Int)
    (s : Sys ω) :
    (callClosef io c mode s).2.r.filename = s.r.filename :=
  rfl

@[simp] theorem filename_callAccessf
    (name : List UInt8)
    (s : Sys ω) :
    (callAccessf io name s).2.r.filename = s.r.filename :=
  rfl

@[simp] theorem filename_callWritef
    (bytes : List UInt8)
    (s : Sys ω) :
    (callWritef io bytes s).2.r.filename = s.r.filename :=
  rfl

/-! ## Filling data fields -/

@[simp] theorem filename_encodeChar
    (a : UInt8)
    (s : Sys ω) :
    (encodeChar io a s).r.filename = s.r.filename := by
  unfold encodeChar
  dsimp only
  split
  · exact filename_epkt _ _
  · rfl

@[simp] theorem filename_encode
    (a : UInt8)
    (next : Option UInt8)
    (s : Sys ω) :
    (encode io a next s).r.filename = s.r.filename := by
  unfold encode
  dsimp only
  repeat' split
  all_goals simp

@[simp] theorem filename_nextChar
    (s : Sys ω) :
    (nextChar io s).2.r.filename = s.r.filename := by
  unfold nextChar zgetc callReadf
  dsimp only
  repeat' split
  all_goals rfl

@[simp] theorem filename_noteChar
    (next : Option UInt8)
    (s : Sys ω) :
    (noteChar next s).r.filename = s.r.filename := by
  unfold noteChar
  split <;> rfl

@[simp] theorem filename_encodeNext
    (c : UInt8)
    (next : Option UInt8)
    (s : Sys ω) :
    (encodeNext io c next s).r.filename = s.r.filename :=
  filename_encode c next { s with k.enc.osize := s.k.enc.size }

@[simp] theorem filename_getpktLoop
    (count : Nat)
    (c : UInt8)
    (s : Sys ω) :
    (getpktLoop io count c s).2.r.filename = s.r.filename := by
  induction count generalizing c s with
  | zero =>
      rfl
  | succ count inductionHypothesis =>
      unfold getpktLoop
      dsimp only
      repeat' split
      · simp
      · simp
      · rw [inductionHypothesis]
        simp
      · simp

@[simp] theorem filename_getpkt
    (s : Sys ω) :
    (getpkt io s).2.r.filename = s.r.filename := by
  have rest : ∀ c t,
      (getpktRest io c t).2.r.filename = t.r.filename := by
    intro c t
    unfold getpktRest
    dsimp only
    split
    · rfl
    · simp
  have first : ∀ t, (getpktFirst io t).2.r.filename = t.r.filename := by
    intro t
    unfold getpktFirst
    dsimp only
    repeat' split
    all_goals simp
  unfold getpkt
  dsimp only
  split
  · split
    · exact first _
    · exact (rest _ _).trans (first _)
  · split
    · rfl
    · exact rest _ _

@[simp] theorem filename_encstr
    (text : StrRef)
    (s : Sys ω) :
    (encstr io text s).2.r.filename = s.r.filename :=
  filename_getpkt
    { s with k.enc.sFirst := 1, k.enc.istring := some (text, 0) }

@[simp] theorem filename_sdata
    (s : Sys ω) :
    (sdata io s).2.r.filename = s.r.filename := by
  unfold sdata
  dsimp only
  repeat' split
  all_goals simp

@[simp] theorem filename_sattr
    (s : Sys ω) :
    (sattr io s).2.r.filename = s.r.filename := by
  unfold sattr
  dsimp only
  repeat' split
  all_goals simp

/-! ## Sending files and listings -/

@[simp] theorem filename_endInput
    (s : Sys ω) :
    (endInput io s).r.filename = s.r.filename :=
  rfl

@[simp] theorem filename_awaitSent
    (s : Sys ω) :
    (awaitSent s).2.r.filename = s.r.filename :=
  rfl

@[simp] theorem filename_sendRequested
    (p : Rcvd)
    (s : Sys ω) :
    (sendRequested io p s).2.r.filename = s.r.filename := by
  unfold sendRequested
  dsimp only
  repeat' split
  all_goals simp

@[simp] theorem filename_cancelSend
    (p : Rcvd)
    (s : Sys ω) :
    (cancelSend io p s).2.r.filename = s.r.filename := by
  unfold cancelSend
  dsimp only
  repeat' split
  all_goals simp

@[simp] theorem filename_sendBreak
    (s : Sys ω) :
    (sendBreak io s).2.r.filename = s.r.filename := by
  unfold sendBreak
  dsimp only
  repeat' split
  all_goals simp

@[simp] theorem filename_firstData
    (s : Sys ω) :
    (firstData io s).2.r.filename = s.r.filename := by
  unfold firstData
  dsimp only
  repeat' split
  all_goals simp

@[simp] theorem filename_afterFile
    (s : Sys ω) :
    (afterFile io s).2.r.filename = s.r.filename := by
  unfold afterFile
  dsimp only
  repeat' split
  all_goals simp

@[simp] theorem filename_afterData
    (s : Sys ω) :
    (afterData io s).2.r.filename = s.r.filename := by
  have begun :
      (if s.k.state = .sAttr then setState .sData s else s).r.filename =
        s.r.filename := by
    split <;> rfl
  unfold afterData
  dsimp only
  generalize (if s.k.state = .sAttr then setState .sData s else s) = t at *
  rw [← begun]
  repeat' split
  all_goals simp

@[simp] theorem filename_answerRequest
    (what : What)
    (s : Sys ω) :
    (answerRequest io what s).2.r.filename = s.r.filename := by
  unfold answerRequest setWhat
  dsimp only
  split <;> simp

@[simp] theorem filename_noteRequest
    (action : Action)
    (name : List UInt8)
    (s : Sys ω) :
    (noteRequest action name s).r.filename = s.r.filename :=
  rfl

@[simp] theorem filename_putTitle
    (s : Sys ω) :
    (putTitle s).r.filename = s.r.filename :=
  rfl

@[simp] theorem filename_noteDirname
    (p : Rcvd)
    (s : Sys ω) :
    (noteDirname p s).r.filename = s.r.filename :=
  rfl

@[simp] theorem filename_callGetdirdata
    (s : Sys ω) :
    (callGetdirdata io s).2.2.r.filename = s.r.filename :=
  rfl

@[simp] theorem filename_putListing
    (p : Rcvd)
    (listing : List UInt8)
    (s : Sys ω) :
    (putListing p listing s).r.filename = s.r.filename :=
  rfl

@[simp] theorem filename_dirAck
    (p : Rcvd)
    (s : Sys ω) :
    (dirAck io p s).2.r.filename = s.r.filename := by
  have eof : ∀ t, (dirAckEof io t).2.r.filename = t.r.filename := by
    intro t
    unfold dirAckEof
    dsimp only
    split <;> simp
  have init : ∀ t, (dirAckInit io t).2.r.filename = t.r.filename := by
    intro t
    unfold dirAckInit
    dsimp only
    split <;> simp
  have data : ∀ t, (dirAckData io t).2.r.filename = t.r.filename := by
    intro t
    unfold dirAckData
    dsimp only
    split <;> simp
  have text : ∀ t, (dirAckText io p t).2.r.filename = t.r.filename := by
    intro t
    unfold dirAckText
    dsimp only
    repeat' split
    all_goals simp
  unfold dirAck
  dsimp only
  repeat' split
  all_goals simp [dirAckEot, eof, init, data, text]

/-! ## Receiving -/

@[simp] theorem filename_reportFile
    (action : Action)
    (s : Sys ω) :
    (reportFile action s).r.filename = s.r.filename := by
  unfold reportFile
  split <;> rfl

@[simp] theorem filename_inWait
    (p : Rcvd)
    (s : Sys ω) :
    (inWait io p s).2.r.filename = s.r.filename := by
  unfold inWait
  dsimp only
  repeat' split
  all_goals simp [setType, setWhat]

@[simp] theorem filename_gattr
    (inbuf : List UInt8)
    (r : KResponse) :
    (gattr inbuf r).2.filename = r.filename := by
  unfold gattr
  rfl

@[simp] theorem filename_takeAttr
    (p : Rcvd)
    (s : Sys ω) :
    (takeAttr p s).r.filename = s.r.filename := by
  unfold takeAttr
  dsimp only
  split <;> simp

@[simp] theorem filename_decodeOut
    (a : UInt8)
    (rpt : Nat)
    (rc : Int)
    (s : Sys ω) :
    (decodeOut io a rpt rc s).2.2.r.filename = s.r.filename := by
  induction rpt generalizing rc s with
  | zero =>
      rfl
  | succ rpt inductionHypothesis =>
      unfold decodeOut
      dsimp only
      split
      · split
        · rfl
        · exact inductionHypothesis _ _
      · exact inductionHypothesis _ _

@[simp] theorem filename_decodeFileLoop
    (turns rpt : Nat)
    (rc : Int)
    (inbuf : List UInt8)
    (s : Sys ω) :
    (decodeFileLoop io turns rpt rc inbuf s).2.r.filename =
      s.r.filename := by
  induction turns generalizing rpt rc inbuf s with
  | zero =>
      rfl
  | succ turns inductionHypothesis =>
      unfold decodeFileLoop
      dsimp only
      split
      · rfl
      · rw [inductionHypothesis]
        exact filename_decodeOut _ _ _ s

@[simp] theorem filename_decodeFile
    (inbuf : List UInt8)
    (rslot : Int)
    (s : Sys ω) :
    (decodeFile io inbuf rslot s).2.r.filename = s.r.filename := by
  unfold decodeFile
  dsimp only
  repeat' split
  all_goals simp

@[simp] theorem filename_alignWindow
    (rseq : Int)
    (count : Nat)
    (s : Sys ω) :
    (alignWindow io rseq count s).2.r.filename = s.r.filename := by
  induction count generalizing s with
  | zero =>
      rfl
  | succ count inductionHypothesis =>
      unfold alignWindow decodeSlot
      dsimp only
      repeat' split
      all_goals simp [inductionHypothesis]

@[simp] theorem filename_nakGap
    (high : Int)
    (count i : Nat)
    (s : Sys ω) :
    (nakGap io high count i s).r.filename = s.r.filename := by
  induction count generalizing i s with
  | zero =>
      rfl
  | succ count inductionHypothesis =>
      unfold nakGap
      exact (inductionHypothesis _ _).trans (filename_nak _ _ s)

@[simp] theorem filename_addRpkt
    (rseq : Int)
    (pbuf : List UInt8)
    (s : Sys ω) :
    (addRpkt io rseq pbuf s).2.r.filename = s.r.filename := by
  unfold addRpkt
  dsimp only
  split <;> simp

@[simp] theorem filename_handleGoodRpkt
    (rseq : Int)
    (pbuf : List UInt8)
    (s : Sys ω) :
    (handleGoodRpkt io rseq pbuf s).2.r.filename = s.r.filename := by
  have placed : ∀ a t,
      (placeRpkt io a rseq pbuf t).2.r.filename = t.r.filename := by
    intro a t
    unfold placeRpkt
    dsimp only
    repeat' split
    all_goals simp
  unfold handleGoodRpkt
  dsimp only
  repeat' split
  all_goals simp [placed]

@[simp] theorem filename_flushToFile
    (s : Sys ω) :
    (flushToFile io s).2.r.filename = s.r.filename := by
  have flushed : ∀ count rc t,
      (flushLoop io count rc t).2.2.r.filename = t.r.filename := by
    intro count
    induction count with
    | zero =>
        exact fun _ _ => rfl
    | succ count inductionHypothesis =>
        intro rc t
        unfold flushLoop
        dsimp only
        repeat' split
        all_goals simp [inductionHypothesis]
  unfold flushToFile
  dsimp only
  repeat' split
  all_goals simp [rewindObuf, countWritten, flushed]

@[simp] theorem filename_openOutput
    (s : Sys ω) :
    (openOutput io s).2.r.filename = s.r.filename :=
  rfl

@[simp] theorem filename_inAttr
    (p : Rcvd)
    (s : Sys ω) :
    (inAttr io p s).2.r.filename = s.r.filename := by
  unfold inAttr firstRpkt emptyFile
  dsimp only
  repeat' split
  all_goals simp [goFile, showState]

@[simp] theorem filename_inData
    (p : Rcvd)
    (s : Sys ω) :
    (inData io p s).2.r.filename = s.r.filename := by
  have listed : ∀ t : Sys ω, (takeListing p t).r.filename = t.r.filename := by
    intro t
    unfold takeListing
    split <;> rfl
  have stored : (dataRpkt io p s).2.r.filename = s.r.filename := by
    unfold dataRpkt
    dsimp only
    split <;> simp [listed]
  have ended : (endOfFile io p s).2.r.filename = s.r.filename := by
    unfold endOfFile goFile showState
    dsimp only
    repeat' split
    all_goals simp
  unfold inData
  dsimp only
  repeat' split
  all_goals simp [stored, ended]

end Functions

end Slate106.Kermit
