import Slate106.KermitRequested

namespace Slate106.Kermit

open CBytes

/-!
# The turns of `kermit_main`

A turn of the main loop reads a packet unless file data may be sent without
one.  That is never the case with one slot: while file data is sent, the slot
holds a packet.  So every turn but the last either has a packet or takes one
off the retry counter.
-/

variable {ω : Type}

/-! ## The state and the direction of a transaction -/

/-- The protocol state, and what is being done. -/
def phase
    (s : Sys ω) : State × What :=
  (s.k.state, s.k.what)

section Phase

variable {io : Io ω}
variable {s s' : Sys ω}

theorem Works.phase
    (steps : Works io s s') :
    phase s' = phase s :=
  Prod.ext steps.control.state steps.control.what

@[simp] theorem phase_spkt
    (typ : UInt8)
    (seq len : Int)
    (text : Option (List UInt8))
    (s : Sys ω) :
    phase (spkt io typ seq len text s).2 = phase s :=
  (works_spkt typ seq len text s).phase

@[simp] theorem phase_epkt
    (msg : List UInt8)
    (s : Sys ω) :
    phase (epkt io msg s) = phase s :=
  (works_epkt msg s).phase

@[simp] theorem phase_ack
    (seq : Int)
    (text : Option (List UInt8))
    (s : Sys ω) :
    phase (ack io seq text s).2 = phase s :=
  (works_ack seq text s).phase

@[simp] theorem phase_nak
    (seq slot : Int)
    (s : Sys ω) :
    phase (nak io seq slot s).2 = phase s :=
  (works_nak seq slot s).phase

@[simp] theorem phase_resend
    (seq : Int)
    (s : Sys ω) :
    phase (resend io seq s).2 = phase s :=
  (works_resend seq s).phase

@[simp] theorem phase_rpar
    (type : UInt8)
    (s : Sys ω) :
    phase (rpar io type s).2 = phase s :=
  (works_rpar type s).phase

@[simp] theorem phase_encstr
    (text : StrRef)
    (s : Sys ω) :
    phase (encstr io text s).2 = phase s :=
  (works_encstr text s).phase

@[simp] theorem phase_sdata
    (s : Sys ω) :
    phase (sdata io s).2 = phase s :=
  (works_sdata s).phase

@[simp] theorem phase_sattr
    (s : Sys ω) :
    phase (sattr io s).2 = phase s :=
  (works_sattr s).phase

@[simp] theorem phase_spktXdata
    (typ : UInt8)
    (s : Sys ω) :
    phase (spktXdata io typ s).2 = phase s :=
  (works_spktXdata typ s).phase

@[simp] theorem phase_callTxd
    (bytes : List UInt8)
    (s : Sys ω) :
    phase (callTxd io bytes s).2 = phase s :=
  rfl

@[simp] theorem phase_callOpenf
    (name : List UInt8)
    (mode filesize : Int)
    (s : Sys ω) :
    phase (callOpenf io name mode filesize s).2 = phase s :=
  rfl

@[simp] theorem phase_callAccessf
    (name : List UInt8)
    (s : Sys ω) :
    phase (callAccessf io name s).2 = phase s :=
  rfl

@[simp] theorem phase_callClosef
    (c : UInt8)
    (mode : Int)
    (s : Sys ω) :
    phase (callClosef io c mode s).2 = phase s :=
  rfl

@[simp] theorem phase_callGetdirdata
    (s : Sys ω) :
    phase (callGetdirdata io s).2.2 = phase s :=
  rfl

@[simp] theorem phase_setState
    (state : State)
    (s : Sys ω) :
    phase (setState state s) = (state, (phase s).2) :=
  rfl

@[simp] theorem phase_setWhat
    (what : What)
    (s : Sys ω) :
    phase (setWhat what s) = ((phase s).1, what) :=
  rfl

@[simp] theorem phase_getSslot
    (s : Sys ω) :
    phase (onK (fun k => (getSslot k).2) s) = phase s := by
  unfold onK
  dsimp only
  rw [getSslot_shape]
  rfl

@[simp] theorem phase_takeSslot
    (s : Sys ω) :
    phase (onK (fun k => (takeSslot k).2) s) = phase s :=
  phase_getSslot s

@[simp] theorem phase_nextSlot
    (s : Sys ω) :
    phase (onK (fun k => (takeSslot (nxtpkt k)).2) s) = phase s :=
  phase_takeSslot (onK nxtpkt s)

@[simp] theorem phase_listSlot
    (s : Sys ω) :
    phase (onK (fun k => resetBct (takeSslot k).2) s) = phase s :=
  phase_takeSslot s

@[simp] theorem phase_acknowledge
    (slot : Int)
    (s : Sys ω) :
    phase (onK (acknowledge slot) s) = phase s := by
  unfold phase onK
  rw [acknowledge_shape]

@[simp] theorem phase_noteDirname
    (p : Rcvd)
    (s : Sys ω) :
    phase (noteDirname p s) = phase s :=
  rfl

@[simp] theorem phase_putListing
    (p : Rcvd)
    (listing : List UInt8)
    (s : Sys ω) :
    phase (putListing p listing s) = phase s :=
  rfl

@[simp] theorem phase_putTitle
    (s : Sys ω) :
    phase (putTitle s) = phase s :=
  rfl

@[simp] theorem phase_awaitSent
    (s : Sys ω) :
    phase (awaitSent s).2 = phase s :=
  rfl

@[simp] theorem phase_endInput
    (s : Sys ω) :
    phase (endInput io s) = (.sEof, (phase s).2) :=
  rfl

/-- The server's answer to DIR stays that. -/
theorem what_dirAck
    (p : Rcvd)
    (s : Sys ω) :
    (phase (dirAck io p s).2).2 = (phase s).2 := by
  have text : ∀ t : Sys ω,
      (phase (dirAckText io p t).2).2 = (phase t).2 := by
    intro t
    unfold dirAckText
    dsimp only
    split
    · simp
    · split
      · exact congrArg Prod.snd (phase_spktXdata _ _) |>.trans (by simp)
      · simp
  have acked := congrArg Prod.snd
    (phase_acknowledge (s.k.win.sPw p.rseq) s)
  unfold dirAck
  dsimp only
  split
  · rfl
  · rw [← acked]
    generalize onK (acknowledge (s.k.win.sPw p.rseq)) s = t
    split
    · rfl
    · unfold dirAckEof
      dsimp only
      split <;> simp
    · unfold dirAckInit
      dsimp only
      split <;> simp
    · unfold dirAckData
      dsimp only
      split <;> simp
    · exact text t
    · rfl

/-- A request that is answered is answered by S. -/
theorem phase_answerRequest
    {what : What}
    {s : Sys ω}
    (answered : (answerRequest io what s).1 ≠ xError) :
    phase (answerRequest io what s).2 = (.sInit, what) := by
  unfold answerRequest at answered ⊢
  dsimp only at answered ⊢
  split
  · rename_i failed
    rw [if_pos failed] at answered
    exact absurd rfl answered
  · simp

/-! ## The packet of a sender of file data -/

/-- While file data is sent, the slot holds a packet. -/
def Held
    (k : KData) : Prop :=
  k.what = .send ∨ k.what = .get → k.state = .sData →
    1 ≤ (k.win.opktinfo 0).len

/-- A call that ends the session, or after which a packet is held. -/
def Keeps
    (result : Int × Sys ω) : Prop :=
  result.1 ≠ xError → result.1 ≠ xDone → Held result.2.k

theorem held_of_state
    (other : (phase s).1 ≠ .sData) :
    Held s.k :=
  fun _ sending => absurd sending other

theorem keeps_of_state
    {result : Int × Sys ω}
    (other : (phase result.2).1 ≠ .sData) :
    Keeps result :=
  fun _ _ => held_of_state other

theorem keeps_of_what
    {result : Int × Sys ω}
    (lists : (phase result.2).2 = .dir) :
    Keeps result := by
  intro _ _ sends
  have listing : result.2.k.what = .dir := lists
  rw [listing] at sends
  rcases sends with send | get
  · cases send
  · cases get

theorem Held.undisturbed
    (held : Held s.k)
    (same : Undisturbed s s') :
    Held s'.k := by
  obtain ⟨rtr, slot⟩ := same.opktinfo 0
  unfold Held
  rw [same.what, same.state, slot]
  exact held

theorem held_resend
    (wf : Wf s.k)
    (held : Held s.k)
    (seq : Int) :
    Held (resend io seq s).2.k :=
  held.undisturbed (resend_undisturbed wf io seq).1

/-- Data that was sent is held. -/
theorem sdata_stays
    (wf : Wf s.k)
    (built : (sdata io s).1 ≠ xError)
    (some : (sdata io s).1 ≠ 0) :
    1 ≤ ((sdata io s).2.k.win.opktinfo 0).len := by
  have packed : Wf (getpkt io s).2.k := (chores_getpkt s).works.wf wf
  unfold sdata at built some ⊢
  dsimp only at built some ⊢
  split
  · rename_i cancelled
    rw [if_pos cancelled] at some
    exact absurd rfl some
  · rename_i wanted
    rw [if_neg wanted] at built some
    split
    · rename_i nothing
      rw [if_pos nothing] at some
      exact absurd rfl some
    · rename_i filled
      rw [if_neg filled] at built
      apply spkt_stays packed (by decide)
      intro failed
      rw [if_pos failed] at built
      exact absurd rfl built

/-! ## The packets that are handled whatever the state -/

theorem keeps_answerRequest
    (what : What)
    (s : Sys ω) :
    Keeps (answerRequest io what s) := by
  intro answered _
  apply held_of_state
  rw [phase_answerRequest answered]
  exact show State.sInit ≠ .sData by decide

theorem keeps_gPacket
    (p : Rcvd)
    (s : Sys ω) :
    Keeps (gPacket io p s) := by
  unfold gPacket
  dsimp only
  split
  · exact fun refused => absurd rfl refused
  · exact keeps_answerRequest _ _

theorem keeps_rPacket
    (p : Rcvd)
    (s : Sys ω) :
    Keeps (rPacket io p s) := by
  unfold rPacket
  dsimp only
  generalize callAccessf io _ _ = access
  split
  · exact fun refused => absurd rfl refused
  · have answered : Keeps (answerRequest io .send access.2) :=
      keeps_answerRequest _ _
    split
    · exact answered
    · rename_i fine
      intro _ _
      have sent : (answerRequest io .send access.2).1 ≠ xError := by
        rw [not_not.mp fine]
        decide
      have asked := phase_answerRequest sent
      apply held_of_state
      exact asked ▸ (by decide : State.sInit ≠ .sData)

theorem keeps_sendRequested
    (other : s.k.state ≠ .sData)
    (p : Rcvd) :
    Keeps (sendRequested io p s) := by
  have before : (phase s).1 ≠ .sData := other
  have advanced : phase (onK nxtpkt s) = phase s := rfl
  unfold sendRequested
  dsimp only
  generalize onK nxtpkt s = t at advanced
  have sent :
      phase (sdata io (onK (fun k => (takeSslot k).2) t)).2 = phase s := by
    simp [advanced]
  split
  · exact fun confused => absurd rfl confused
  · split
    · exact fun failed => absurd rfl failed
    · split
      · apply keeps_of_state
        have freed : ∀ (slot : Int) (u : Sys ω),
            phase (onK
              (fun k => freeSslot slot { k with sSeq := (k.sSeq - 1) % 64 })
              u) = phase u := by
          intro slot u
          unfold phase onK
          dsimp only
          rw [freeSslot_control]
        rw [phase_awaitSent, freed, phase_endInput]
        exact show State.sEof ≠ .sData by decide
      · apply keeps_of_state
        rw [phase_awaitSent, sent]
        exact before

theorem keeps_cancelSend
    (wf : Wf s.k)
    (p : Rcvd) :
    Keeps (cancelSend io p s) := by
  have begun : Works io s _ :=
    (Works.of (.closef 0 1 s)).and (works_nextSlot _)
  have slotted := begun.wf wf
  unfold cancelSend
  dsimp only
  generalize
    onK (fun k => (takeSslot (nxtpkt k)).2) (callClosef io 0 1 s).2 = t
    at slotted
  split
  · intro built _ _ _
    exact spkt_stays slotted (by decide) built
  · split
    · apply keeps_of_state
      exact show State.sEof ≠ .sData by decide
    · apply keeps_of_state
      exact show State.sEof ≠ .sData by decide

/-! ## The state switcher -/

@[simp] theorem phase_takeName
    (name : StrRef)
    (rest : List StrRef)
    (s : Sys ω) :
    phase (takeName name rest s) = phase s :=
  rfl

@[simp] theorem phase_resetSofar
    (s : Sys ω) :
    phase (resetSofar s) = phase s :=
  rfl

@[simp] theorem phase_nxtpkt
    (s : Sys ω) :
    phase (onK nxtpkt s) = phase s :=
  rfl

@[simp] theorem phase_spar
    (pdf : Nat)
    (datalen : Int)
    (s : Sys ω) :
    phase (onK (spar pdf datalen) s) = phase s :=
  rfl

theorem keeps_sendFile
    (other : (phase s).1 ≠ .sData)
    (name : StrRef)
    (rest : List StrRef) :
    Keeps (sendFile io name rest s) := by
  apply keeps_of_state
  unfold sendFile
  dsimp only
  split
  · simpa using other
  · split
    · simpa using other
    · simp

theorem keeps_sendBreak
    (other : (phase s).1 ≠ .sData) :
    Keeps (sendBreak io s) := by
  have named : phase { s with k.filename := none } = phase s := rfl
  apply keeps_of_state
  unfold sendBreak
  dsimp only
  split
  · simpa [named] using other
  · split
    · simpa [named] using other
    · simp

theorem keeps_nextFile
    (other : (phase s).1 ≠ .sData) :
    Keeps (nextFile io s) := by
  unfold nextFile
  dsimp only
  split
  · exact keeps_sendFile (by simpa using other) _ _
  · exact keeps_sendBreak (by simpa using other)

theorem keeps_firstData
    (wf : Wf s.k)
    (other : (phase s).1 ≠ .sData) :
    Keeps (firstData io s) := by
  have slotted : Wf (onK (fun k => (takeSslot k).2) s).k := by
    have taken : Works io s _ := works_takeSslot s
    exact taken.wf wf
  have same : phase (onK (fun k => (takeSslot k).2) s) = phase s :=
    phase_takeSslot s
  unfold firstData
  dsimp only
  generalize onK (fun k => (takeSslot k).2) s = t at slotted same
  split
  · exact fun failed => absurd rfl failed
  · rename_i built
    split
    · split
      · apply keeps_of_state
        simpa [same] using other
      · apply keeps_of_state
        simp
    · rename_i some
      intro _ _ _ _
      exact sdata_stays slotted built some

theorem keeps_afterFile
    (wf : Wf s.k)
    (other : (phase s).1 ≠ .sData) :
    Keeps (afterFile io s) := by
  have advanced : Works io s (onK nxtpkt s) := works_nxtpkt s
  unfold afterFile
  dsimp only
  split
  · split
    · apply keeps_of_state
      simpa using other
    · apply keeps_of_state
      simp
  · exact keeps_firstData (advanced.wf wf) (by simpa using other)

theorem keeps_afterData
    (wf : Wf s.k) :
    Keeps (afterData io s) := by
  have slotted :
      Wf (if s.k.state = .sAttr then setState .sData s else s).k := by
    split
    · exact wf.control .sData s.k.what
    · exact wf
  unfold afterData
  dsimp only
  generalize (if s.k.state = .sAttr then setState .sData s else s) = t
    at slotted
  have mapped : Works io t _ := works_advanceSlot t
  split
  · rename_i busy
    have full : 1 ≤ (t.k.win.opktinfo 0).len := by
      by_contra free
      rw [getSslot_free slotted.window (by omega)] at busy
      exact absurd busy (by simp)
    intro _ _ _ _
    simp only [onK]
    rw [getSslot_full slotted.window full]
    exact full
  · have ready := mapped.wf slotted
    generalize
      onK (fun k => mapSseq (getSslot t.k).1 (nxtpkt k))
        (onK (fun k => (getSslot k).2) t) = u at ready
    split
    · exact fun failed => absurd rfl failed
    · rename_i built
      split
      · have ended :
            (phase (spkt io (ch 'Z') (endInput io (sdata io u).2).k.sSeq 0
              none (endInput io (sdata io u).2)).2).1 ≠ .sData := by
          simp
        split
        · exact keeps_of_state ended
        · exact keeps_of_state ended
      · rename_i some
        intro _ _ _ _
        exact sdata_stays ready built some

/-! ## Receiving -/

@[simp] theorem phase_setType
    (type : Action)
    (s : Sys ω) :
    phase (setType type s) = phase s :=
  rfl

@[simp] theorem phase_decodeName
    (inbuf : List UInt8)
    (s : Sys ω) :
    phase (decodeName inbuf s).2 = phase s :=
  rfl

@[simp] theorem phase_clearFile
    (s : Sys ω) :
    phase (clearFile s) = phase s :=
  rfl

@[simp] theorem phase_reportFile
    (action : Action)
    (s : Sys ω) :
    phase (reportFile action s) = phase s := by
  unfold reportFile
  split <;> rfl

@[simp] theorem phase_openOutput
    (s : Sys ω) :
    phase (openOutput io s).2 = phase s :=
  rfl

@[simp] theorem phase_goFile
    (s : Sys ω) :
    phase (goFile s) = (.rFile, (phase s).2) :=
  rfl

@[simp] theorem phase_showState
    (s : Sys ω) :
    phase (showState s) = phase s :=
  rfl

@[simp] theorem phase_takeAttr
    (p : Rcvd)
    (s : Sys ω) :
    phase (takeAttr p s) = phase s := by
  unfold takeAttr
  dsimp only
  split <;> rfl

theorem keeps_inWait
    (waiting : (phase s).1 = .rWait)
    (p : Rcvd) :
    Keeps (inWait io p s) := by
  apply keeps_of_state
  unfold inWait
  dsimp only
  split
  · split
    · simp [waiting]
    · split
      · simp
      · simp
  · split
    · simp [waiting]
    · simp [waiting]

theorem keeps_inFile
    (receiving : (phase s).1 = .rFile)
    (p : Rcvd) :
    Keeps (inFile io p s) := by
  have state : s.k.state = .rFile := receiving
  apply keeps_of_state
  unfold inFile
  dsimp only
  split
  · split
    · simp
    · have same : (decodeName (pdfMem p s) s).2.k.state = .rFile := state
      simp [same]
  · split
    · simp [receiving]
    · split
      · simp [receiving]
      · split
        · split
          · simp [receiving]
          · simp
        · simp [receiving]

theorem keeps_firstRpkt
    {p : Rcvd}
    (receiving : (phase s).1 = .rAttr)
    (short : Short p s) :
    Keeps (firstRpkt io p s) := by
  have opened : phase (openOutput io s).2 = phase s := phase_openOutput s
  have sameBuffer := openOutput_ipktbuf io s
  apply keeps_of_state
  unfold firstRpkt
  dsimp only
  generalize openOutput io s = first at opened sameBuffer
  split
  · have stillShort : (cstr (pdfMem p first.2)).length < pBuflen := by
      unfold pdfMem
      rw [sameBuffer]
      exact short
    have stored : Works io (setState .rData first.2) _ :=
      works_handleGoodRpkt (s := setState .rData first.2) rfl stillShort
        p.rseq
    have storing := stored.phase
    split
    · rw [storing]
      simp
    · rw [phase_epkt, storing]
      simp
  · simp [opened, receiving]

theorem keeps_inAttr
    {p : Rcvd}
    (receiving : (phase s).1 = .rAttr)
    (short : Short p s) :
    Keeps (inAttr io p s) := by
  unfold inAttr
  split
  · apply keeps_of_state
    simp [receiving]
  · split
    · exact keeps_firstRpkt receiving short
    · split
      · apply keeps_of_state
        unfold emptyFile
        dsimp only
        split
        · split
          · simp
          · simp [receiving]
        · simp [receiving]
      · split
        · apply keeps_of_state
          simp [receiving]
        · apply keeps_of_state
          simp [receiving]

theorem keeps_inData
    {p : Rcvd}
    (receiving : (phase s).1 = .rData)
    (short : Short p s) :
    Keeps (inData io p s) := by
  have inData : s.k.state = .rData := receiving
  apply keeps_of_state
  unfold Kermit.inData
  dsimp only
  split
  · simp [receiving]
  · split
    · have stored : Works io s (dataRpkt io p s).2 :=
        works_dataRpkt inData short
      rw [stored.phase, receiving]
      decide
    · split
      · have ended : (phase (endOfFile io p s).2).1 ≠ .sData := by
          unfold endOfFile
          dsimp only
          split
          · have flushed : Works io s _ := works_flushToFile inData
            have same := flushed.phase
            split
            · simp
            · simp [same, receiving]
          · simp
        split
        · simpa using ended
        · simpa using ended
      · simp [receiving]

/-! ## A whole call -/

theorem keeps_stateStage
    (wf : Wf s.k)
    {p : Rcvd}
    (short : Short p s)
    (msg : List UInt8) :
    Keeps (stateStage io msg p s) := by
  unfold stateStage
  split
  · rename_i state
    have initial : (phase s).1 = .sInit := state
    apply keeps_nextFile
    rw [phase_spar, initial]
    decide
  · rename_i state
    have other : (phase s).1 ≠ .sData := by
      simp [phase, state]
    split
    · exact keeps_of_state other
    · exact keeps_nextFile other
  · rename_i state
    exact keeps_afterFile wf (by simp [phase, state])
  · exact keeps_afterData wf
  · exact keeps_afterData wf
  · exact fun _ notDone => absurd rfl notDone
  · rename_i state
    exact keeps_inWait state p
  · rename_i state
    exact keeps_inFile state p
  · rename_i state
    exact keeps_inAttr state short
  · rename_i state
    exact keeps_inData state short
  · exact fun failed => absurd rfl failed

/-- What a part of a call has done: it returned, or it goes on. -/
def StageKeeps : Stage ω → Prop
  | .ret rc t => Keeps (rc, t)
  | .go _ t => Wf t.k

theorem Held.acknowledged
    (other : (phase s).1 ≠ .sData)
    (slot : Int) :
    Held (onK (acknowledge slot) s).k := by
  apply held_of_state
  rw [phase_acknowledge]
  exact other

theorem keeps_dirAck
    (listing : s.k.what = .dir)
    (p : Rcvd) :
    Keeps (dirAck io p s) := by
  apply keeps_of_what
  rw [what_dirAck]
  exact listing

theorem stageKeeps_sendStage
    (wf : Wf s.k)
    (held : Held s.k)
    (sends : s.k.what = .send)
    (p : Rcvd) :
    StageKeeps (sendStage io p s) := by
  unfold sendStage
  dsimp only
  split
  · split
    · rename_i nothing
      have other : s.k.state ≠ .sData := by
        intro sending
        have full := held (Or.inl sends) sending
        rw [nusedSslots_full wf.window (by omega)] at nothing
        exact absurd nothing (by decide)
      exact keeps_sendRequested other p
    · exact fun _ _ => held_resend wf held p.rseq
  · split
    · exact fun _ _ => held
    · generalize s.k.win.sPw p.rseq = slot
      have acked : Works io s (onK (acknowledge slot) s) :=
        .of (.acknowledge slot s)
      have slotted := acked.wf wf
      split
      · exact keeps_cancelSend slotted p
      · exact slotted

theorem stageKeeps_packetStage
    (io : Io ω)
    (wf : Wf s.k)
    (held : Held s.k)
    (p : Rcvd) :
    StageKeeps (packetStage io p s) := by
  unfold packetStage
  split
  · rename_i ack
    exact keeps_dirAck ack.2 p
  · split
    · exact fun _ _ => held
    · split
      · exact keeps_gPacket p s
      · split
        · exact keeps_rPacket p s
        · split
          · exact fun failed => absurd rfl failed
          · split
            · rename_i sends
              exact stageKeeps_sendStage wf held sends p
            · exact wf

theorem Held.scratch
    (held : Held s.k)
    (same : SameCore s s') :
    Held s'.k := by
  unfold Held
  rw [same.state, same.what, same.opktinfo]
  exact held

theorem held_resendUnlessRecv
    (wf : Wf s.k)
    (held : Held s.k) :
    Held (resendUnlessRecv io s).2.k := by
  unfold resendUnlessRecv
  split
  · exact held
  · exact held_resend wf held (-1)

theorem stageKeeps_rxStage
    (io : Io ω)
    (wf : Wf s.k)
    (held : Held s.k)
    (len : Int) :
    match rxStage io len s with
    | .ret rc t => Keeps (rc, t)
    | .go _ t => Wf t.k ∧ Held t.k := by
  have forced : forceBcta3 s.k = s.k := by
    simp [forceBcta3, wf.noForce]
  have stored : ∀ buf : List UInt8,
      Wf { s with k.ipktbuf := buf }.k ∧ Held { s with k.ipktbuf := buf }.k := by
    intro buf
    have same : SameCore s { s with k.ipktbuf := buf } :=
      ⟨rfl, rfl, rfl, rfl, rfl, rfl, rfl, rfl, rfl, rfl, rfl⟩
    exact ⟨wf.scratch same io, held.scratch same⟩
  unfold rxStage
  rw [forced]
  by_cases few : len < 4
  · rw [if_pos few]
    by_cases receiving : s.k.what = .recv
    · rw [if_pos receiving]
      by_cases files : s.k.state = .rFile
      · rw [if_pos files]
        apply keeps_of_state
        have state : (phase s).1 = .rFile := files
        simp [state]
      · rw [if_neg files]
        exact fun _ _ => held
    · rw [if_neg receiving]
      exact fun _ _ => held_resend wf held (-1)
  · rw [if_neg few]
    cases parse s.k len with
    | shortcut =>
        exact fun _ notDone => absurd rfl notDone
    | tossed =>
        exact fun _ _ => held
    | badHeader buf =>
        exact fun _ _ =>
          held_resendUnlessRecv (stored buf).1 (stored buf).2
    | badLength =>
        exact fun _ _ => held_resendUnlessRecv wf held
    | badCheck buf =>
        exact fun _ _ =>
          held_resendUnlessRecv (stored buf).1 (stored buf).2
    | good p buf =>
        exact stored buf

/-- A call that runs the protocol on a packet. -/
theorem keeps_kermitRun
    (wf : Wf s.k)
    (held : Held s.k)
    (received : s.k.doRxd = true)
    (len : Int)
    (msg : List UInt8) :
    Keeps (kermit io .run len msg s) := by
  have heard := stageKeeps_rxStage io wf held len
  have ran : StageRan io s _ := ran_rxStage len s
  unfold kermit
  rw [wf.testRslots io]
  dsimp only
  unfold kermitRun
  split
  · exact fun _ _ => held
  · generalize rxStage io len s = stage at heard ran
    cases stage with
    | ret rc t =>
        exact heard
    | go p t =>
        obtain ⟨slotted, holds⟩ := heard
        have handled := stageKeeps_packetStage io slotted holds p
        have handledRan : StageRan io t _ := ran_packetStage ran.2
        dsimp only
        generalize packetStage io p t = stage at handled handledRan
        cases stage with
        | ret rc u =>
            exact handled
        | go p u =>
            exact keeps_stateStage handled handledRan.2 msg

/-! ## The retry limit -/

theorem Work.retry_kept
    (step : Work io s s')
    (wf : Wf s.k) :
    s'.k.par.retry = s.k.par.retry := by
  cases step with
  | chore step =>
      exact step.window.retry
  | spar pdf datalen =>
      exact sparParams_retry wf.noWindowing _ datalen
  | getSslot =>
      simp only [onK]
      rw [getSslot_shape]
  | freeSslot slot =>
      simp only [onK]
      rw [freeSslot_control]
  | acknowledge slot =>
      simp only [onK]
      rw [acknowledge_shape]
  | getRslot =>
      simp only [onK]
      rw [getRslot_shape]
  | fill slot typ seq len buf _ enough =>
      simp only [onK, filled]
      rw [forceBcta3_eq]
  | _ =>
      rfl

theorem Works.retry_kept
    (steps : Works io s s')
    (wf : Wf s.k) :
    s'.k.par.retry = s.k.par.retry := by
  induction steps with
  | refl =>
      rfl
  | tail before step inductionHypothesis =>
      exact (step.retry_kept (Works.wf before wf)).trans inductionHypothesis

theorem Moves.retry_kept
    (steps : Moves io s s')
    (wf : Wf s.k) :
    s'.k.par.retry = s.k.par.retry := by
  induction steps with
  | refl =>
      rfl
  | tail before step inductionHypothesis =>
      cases step with
      | work step =>
          exact (step.retry_kept (Moves.wf before wf)).trans
            inductionHypothesis
      | state | what =>
          exact inductionHypothesis

theorem Ran.retry_kept
    {result : Int × Sys ω}
    (ran : Ran io s result)
    (wf : Wf s.k) :
    result.2.k.par.retry = s.k.par.retry := by
  rcases ran.steps with steps | ⟨done, t, steps, last⟩
  · exact steps.retry_kept wf
  · rw [last]
    exact steps.retry_kept wf

theorem Asked.retry_kept
    {k : KData}
    (asked : Asked io s k)
    (wf : Wf s.k) :
    k.par.retry = s.k.par.retry := by
  obtain ⟨t, sent, unchanged | ⟨state, what, recvdir, -, changed⟩⟩ := asked
  · rw [unchanged]
    exact sent.retry_kept wf
  · rw [changed]
    exact sent.retry_kept wf

/-! ## The main loop -/

/-- What `_EK_init` sets for all sessions. -/
structure Session
    (k : KData) : Prop where
  noForce : k.cfg.bcta3 = 0
  oneSlot : k.cfg.wslotsMax = 1
  noWindowing : k.par.capas &&& capSw = 0
  retries : 0 ≤ k.par.retry

theorem session_ekInit
    (io : Io ω)
    (rootPath : List UInt8)
    (w : ω) :
    Session (ekInit io rootPath w).k where
  noForce := rfl
  oneSlot := rfl
  noWindowing := show (capLp ||| capAt) &&& capSw = 0 by decide
  retries := show (0 : Int) ≤ 3 by decide

/-- The loop of `kermit_main()` is reached. -/
structure Turning
    (v : MainVars ω) : Prop where
  wf : Wf v.sys.k
  held : Held v.sys.k
  going : v.ret = none

/-- Whenever the loop is reached, a packet is read. -/
theorem ok2rxd_held
    {k : KData}
    (wf : Wf k)
    (held : Held k) :
    (ok2rxd k).doRxd = true := by
  have window := wf.window
  by_cases sending : (k.what = .send ∨ k.what = .get) ∧ k.state = .sData
  · have used := nusedSslots_full window
      (show 0 < (k.win.opktinfo 0).len from held sending.1 sending.2)
    simp [ok2rxd, used, window]
  · simp only [not_and_or, not_or] at sending
    rcases sending with ⟨notSend, notGet⟩ | other
    · simp [ok2rxd, notSend, notGet]
    · simp [ok2rxd, other]

/-- What a turn of the loop comes to, by what `rxd` returns. -/
inductive TurnCase
    (io : Io ω)
    (rx : Rx)
    (v : MainVars ω) : MainVars ω → Prop where
  | fatal
      (failed : rx.ret < 0) :
      TurnCase io rx v
        { v with
          sys := heardSys rx v.sys
          rxLen := rx.ret
          ret := some (-rx.ret) }
  | gaveUp
      (silent : rx.ret = 0)
      (spent : v.retrycounter = 0) :
      TurnCase io rx v
        { v with
          sys :=
            if v.start then heardSys rx v.sys
            else (kermit io .error 0 (lit "eksw to") (heardSys rx v.sys)).2
          rxLen := 0
          ret := some kTimeout }
  | handled
      (retrycounter : Int)
      (ret : Option Int)
      (counted :
        (0 < rx.ret ∧ retrycounter = v.retrycounter) ∨
          (rx.ret = 0 ∧ v.retrycounter ≠ 0 ∧
            retrycounter = v.retrycounter - 1))
      (left :
        ret = none →
          (kermit io .run rx.ret [] (heardSys rx v.sys)).1 ≠ xDone ∧
            (kermit io .run rx.ret [] (heardSys rx v.sys)).1 ≠ xError)
      (given : ret = none ∨ ret = some kSuccess ∨ ret = some kFailure) :
      TurnCase io rx v
        { sys := (kermit io .run rx.ret [] (heardSys rx v.sys)).2
          rxLen := rx.ret
          retrycounter := retrycounter
          start := false
          ret := ret }

theorem turn_cases
    (io : Io ω)
    {v : MainVars ω}
    (turning : Turning v)
    (rx : Rx) :
    TurnCase io rx v (mainIter io rx v) := by
  have reads : (onK ok2rxd v.sys).k.doRxd = true :=
    ok2rxd_held turning.wf turning.held
  have session : receive rx (onK ok2rxd v.sys) = heardSys rx v.sys := rfl
  have going := turning.going
  obtain ⟨sys, rxLen, retrycounter, start, ret⟩ := v
  dsimp only at reads session going
  subst going
  unfold mainIter
  simp only [ne_eq, not_true_eq_false, if_false, reads, if_true, session]
  by_cases failed : rx.ret < 0
  · rw [if_pos failed]
    exact .fatal failed
  · rw [if_neg failed]
    unfold mainHandle
    by_cases spent : rx.ret = 0 ∧ retrycounter = 0
    · rw [if_pos spent]
      dsimp only
      rw [spent.1]
      exact .gaveUp spent.1 spent.2
    · rw [if_neg spent]
      dsimp only
      have counted :
          (0 < rx.ret ∧
              (if rx.ret = 0 then retrycounter - 1 else retrycounter) =
                retrycounter) ∨
            (rx.ret = 0 ∧ retrycounter ≠ 0 ∧
              (if rx.ret = 0 then retrycounter - 1 else retrycounter) =
                retrycounter - 1) := by
        by_cases silent : rx.ret = 0
        · exact Or.inr ⟨silent, fun none => spent ⟨silent, none⟩,
            if_pos silent⟩
        · exact Or.inl ⟨by omega, if_neg silent⟩
      have handled : ∀ ret,
          (ret = none →
            (kermit io .run rx.ret [] (heardSys rx sys)).1 ≠ xDone ∧
              (kermit io .run rx.ret [] (heardSys rx sys)).1 ≠ xError) →
          ret = none ∨ ret = some kSuccess ∨ ret = some kFailure →
          TurnCase io rx
            { sys := sys, rxLen := rxLen, retrycounter := retrycounter,
              start := start, ret := none }
            { sys := (kermit io .run rx.ret [] (heardSys rx sys)).2
              rxLen := rx.ret
              retrycounter :=
                if rx.ret = 0 then retrycounter - 1 else retrycounter
              start := false
              ret := ret } :=
        fun ret left given => .handled _ ret counted left given
      have concluded : ∀ counter,
          (if rx.ret = 0 then retrycounter - 1 else retrycounter) = counter →
          TurnCase io rx
            { sys := sys, rxLen := rxLen, retrycounter := retrycounter,
              start := start, ret := none }
            (let done := kermit io .run rx.ret [] (heardSys rx sys)
             let v : MainVars ω :=
               { sys := done.2, rxLen := rx.ret, retrycounter := counter,
                 start := false, ret := none }
             if done.1 = xDone then { v with ret := some kSuccess }
             else if done.1 = xError then { v with ret := some kFailure }
             else v) := by
        intro counter count
        rw [count] at handled
        dsimp only
        split
        · exact handled _ (fun none => nomatch none) (Or.inr (Or.inl rfl))
        · split
          · exact handled _ (fun none => nomatch none) (Or.inr (Or.inr rfl))
          · exact handled none (fun _ => ⟨‹_›, ‹_›⟩) (Or.inl rfl)
      by_cases silent : rx.ret = 0
      · have last := concluded _ (if_pos silent)
        simp only [if_pos silent]
        exact last
      · have last := concluded _ (if_neg silent)
        simp only [if_neg silent]
        exact last

theorem heardSys_core
    (rx : Rx)
    (s : Sys ω) :
    SameCore s (heardSys rx s) :=
  ⟨rfl, rfl, rfl, rfl, rfl, rfl, rfl, rfl, rfl, rfl, rfl⟩

/-- After a turn the loop is reached again, or it has been left. -/
theorem Turning.next
    (io : Io ω)
    {v : MainVars ω}
    (turning : Turning v)
    (rx : Rx)
    (going : (mainIter io rx v).ret = none) :
    Turning (mainIter io rx v) := by
  have core := heardSys_core rx v.sys
  have wf : Wf (heardSys rx v.sys).k := turning.wf.scratch core io
  have held : Held (heardSys rx v.sys).k := turning.held.scratch core
  have reads : (heardSys rx v.sys).k.doRxd = true :=
    ok2rxd_held turning.wf turning.held
  have turn := turn_cases io turning rx
  generalize mainIter io rx v = next at turn going
  cases turn with
  | fatal failed =>
      cases going
  | gaveUp silent spent =>
      cases going
  | handled retrycounter ret counted left given =>
      obtain ⟨notDone, notError⟩ := left going
      exact ⟨wf.kermit .run rx.ret [],
        keeps_kermitRun wf held reads rx.ret [] notError notDone, going⟩

theorem keeps_kermitDir
    (waiting : (phase s).1 = .rWait) :
    (phase (kermitDir io s).2).1 ≠ .sData := by
  have encoded : phase (encodeRequest io (ch 'D' :: requestNames s) s) =
      phase s :=
    phase_encstr .obuf _
  unfold kermitDir
  dsimp only
  generalize encodeRequest io (ch 'D' :: requestNames s) s = t at encoded
  split
  · simp [encoded, waiting]
  · exact show State.rWait ≠ .sData by decide

theorem keeps_kermitGet
    (waiting : (phase s).1 = .rWait) :
    (phase (kermitGet io s).2).1 ≠ .sData := by
  have encoded : phase (encodeRequest io (requestNames s) s) = phase s :=
    phase_encstr .obuf _
  unfold kermitGet
  dsimp only
  split
  · simp [encoded, waiting]
  · split
    · simp [encoded, waiting]
    · exact show State.rWait ≠ .sData by decide

theorem keeps_kermitSend
    (waiting : (phase s).1 = .rWait) :
    (phase (kermitSend io s).2).1 ≠ .sData := by
  unfold kermitSend
  dsimp only
  split
  · simp [waiting]
  · exact show State.sInit ≠ .sData by decide

/-- `K_REINIT` leaves a session that waits. -/
theorem fresh_reinit
    (session : Session s.k)
    (msg : List UInt8) :
    Wf (kermit io .reinit 0 msg s).2.k ∧
      phase (kermit io .reinit 0 msg s).2 = (.rWait, .recv) ∧
      (kermit io .reinit 0 msg s).2.k.par.retry = s.k.par.retry := by
  have tested : Chores io s (testRslots io s) := chores_testRslots s
  have control := tested.works.control
  have window := tested.window
  refine ⟨Wf.reinitData ?_ ?_ ?_, rfl, ?_⟩
  · rw [control.cfg]
    exact session.noForce
  · rw [control.cfg]
    exact session.oneSlot
  · rw [window.capas]
    exact session.noWindowing
  · exact window.retry

/-- `kermit_main()` reaches its loop, with its counter set. -/
theorem turning_mainStart
    (action : Action)
    (cmlist : List StrRef)
    (session : Session s.k) :
    Turning (mainStart io action cmlist s) ∧
      (mainStart io action cmlist s).retrycounter = s.k.par.retry + 1 := by
  have listed :
      Session { s with r.type := .wait, k.filelist := cmlist }.k :=
    ⟨session.noForce, session.oneSlot, session.noWindowing, session.retries⟩
  obtain ⟨wf, waits, limit⟩ :=
    @fresh_reinit _ io _ listed (lit "eksw init")
  have waiting := congrArg Prod.fst waits
  unfold mainStart
  dsimp only
  generalize
    (kermit io .reinit 0 (lit "eksw init")
      { s with r.type := .wait, k.filelist := cmlist }).2 = t
    at wf waiting limit
  have tested := wf.testRslots io
  have counted : ∀ k : KData, Asked io t k →
      k.par.retry + 1 = s.k.par.retry + 1 := by
    intro k asked
    rw [asked.retry_kept wf, limit]
  split
  · refine ⟨⟨wf.kermit .dir 0 _, ?_, rfl⟩, ?_⟩
    · apply held_of_state
      rw [kermit, tested]
      exact keeps_kermitDir waiting
    · rw [kermit, tested]
      exact counted _ (asked_kermitDir t)
  · refine ⟨⟨wf.kermit .send 0 _, ?_, rfl⟩, ?_⟩
    · apply held_of_state
      rw [kermit, tested]
      exact keeps_kermitSend waiting
    · rw [kermit, tested]
      exact counted _ (asked_kermitSend t)
  · refine ⟨⟨wf.kermit .get 0 _, ?_, rfl⟩, ?_⟩
    · apply held_of_state
      rw [kermit, tested]
      exact keeps_kermitGet waiting
    · rw [kermit, tested]
      exact counted _ (asked_kermitGet t)
  · refine ⟨⟨wf, ?_, rfl⟩, ?_⟩
    · apply held_of_state
      rw [waiting]
      exact show State.rWait ≠ .sData by decide
    · rw [limit]

end Phase

/-! ## Runs -/

/-- What `rxd` returned in the turns of the loop that were made. -/
def turnsMade
    (io : Io ω) : List Rx → MainVars ω → List Rx
  | [], _ => []
  | rx :: rest, v =>
      if v.ret ≠ none then [] else rx :: turnsMade io rest (mainIter io rx v)

theorem mainLoop_cons
    (io : Io ω)
    (rx : Rx)
    (rest : List Rx)
    (v : MainVars ω) :
    mainLoop io (rx :: rest) v = mainLoop io rest (mainIter io rx v) :=
  rfl

theorem mainLoop_append
    (io : Io ω)
    (first second : List Rx)
    (v : MainVars ω) :
    mainLoop io (first ++ second) v =
      mainLoop io second (mainLoop io first v) :=
  List.foldl_append

/-- The loop is not entered again once it was left. -/
theorem mainIter_left
    (io : Io ω)
    (rx : Rx)
    {v : MainVars ω}
    (left : v.ret ≠ none) :
    mainIter io rx v = v :=
  if_pos left

theorem mainLoop_left
    (io : Io ω)
    (rxs : List Rx)
    {v : MainVars ω}
    (left : v.ret ≠ none) :
    mainLoop io rxs v = v := by
  induction rxs with
  | nil =>
      rfl
  | cons rx rest inductionHypothesis =>
      rw [mainLoop_cons, mainIter_left io rx left]
      exact inductionHypothesis

/-- What `kermit(K_RUN)` is called with in a turn of the loop. -/
def runCall
    (rx : Rx)
    (v : MainVars ω) : Option (Int × Sys ω) :=
  let s := onK ok2rxd v.sys
  let len := if s.k.doRxd then rx.ret else v.rxLen
  if v.ret ≠ none then none
  else if s.k.doRxd ∧ rx.ret < 0 then none
  else if len = 0 ∧ v.retrycounter = 0 then none
  else some (len, if s.k.doRxd then receive rx s else s)

/-- Whenever the loop is reached, the call is for what was read. -/
theorem runCall_turning
    {v : MainVars ω}
    (turning : Turning v)
    (rx : Rx) :
    runCall rx v =
      if rx.ret < 0 ∨ rx.ret = 0 ∧ v.retrycounter = 0 then none
      else some (rx.ret, heardSys rx v.sys) := by
  have reads : (onK ok2rxd v.sys).k.doRxd = true :=
    ok2rxd_held turning.wf turning.held
  unfold runCall
  dsimp only
  rw [if_neg (not_not.mpr turning.going)]
  simp only [reads, true_and, if_true]
  by_cases failed : rx.ret < 0
  · rw [if_pos failed, if_pos (Or.inl failed)]
  · rw [if_neg failed]
    simp only [failed, false_or]
    rfl

/-- While the loop goes on, it was reached in each turn. -/
theorem Turning.run
    {io : Io ω}
    {v : MainVars ω}
    (turning : Turning v)
    (rxs : List Rx)
    (going : (mainLoop io rxs v).ret = none) :
    Turning (mainLoop io rxs v) := by
  induction rxs generalizing v with
  | nil =>
      exact turning
  | cons rx rest inductionHypothesis =>
      rw [mainLoop_cons] at going ⊢
      have still : (mainIter io rx v).ret = none := by
        by_contra left
        rw [mainLoop_left io rest left] at going
        exact left going
      exact inductionHypothesis (turning.next io rx still) going

/-- A turn has a packet, uses up one retry, or is the last. -/
theorem turnsMade_bound
    {io : Io ω}
    (rxs : List Rx)
    {v : MainVars ω}
    (turning : Turning v)
    (counting : 0 ≤ v.retrycounter) :
    ((turnsMade io rxs v).length : Int) ≤
      (turnsMade io rxs v).countP (0 < ·.ret) + v.retrycounter + 1 := by
  induction rxs generalizing v with
  | nil =>
      simp [turnsMade]
      omega
  | cons rx rest inductionHypothesis =>
      have again := fun going => turning.next io rx going
      have turn := turn_cases io turning rx
      rw [turnsMade, if_neg (not_not.mpr turning.going)]
      by_cases going : (mainIter io rx v).ret = none
      · have later := @inductionHypothesis _ (again going)
        generalize mainIter io rx v = next at turn going later
        cases turn with
        | fatal failed =>
            cases going
        | gaveUp silent spent =>
            cases going
        | handled retrycounter ret counted left given =>
            dsimp only at later
            rcases counted with ⟨some, same⟩ | ⟨silent, unspent, less⟩
            · have bound := later (by omega)
              simp only [List.length_cons, List.countP_cons, some,
                decide_true, if_true]
              omega
            · have bound := later (by omega)
              have none : ¬ 0 < rx.ret := by
                omega
              simp only [List.length_cons, List.countP_cons, none,
                decide_false, Bool.false_eq_true, if_false]
              omega
      · have nothing : turnsMade io rest (mainIter io rx v) = [] := by
          cases rest with
          | nil =>
              rfl
          | cons => exact if_pos going
        rw [nothing, List.length_singleton]
        omega

/-- A turn stores what it has read, and none before it. -/
theorem turn_rxLen
    {io : Io ω}
    {v : MainVars ω}
    (turning : Turning v)
    (rx : Rx) :
    (mainIter io rx v).rxLen = rx.ret := by
  have turn := turn_cases io turning rx
  generalize mainIter io rx v = next at turn
  cases turn with
  | fatal failed =>
      rfl
  | gaveUp silent spent =>
      exact silent.symm
  | handled retrycounter ret counted left given =>
      rfl

/--
For everything `rxd` can return, the loop of `kermit_main()` makes at most as
many turns as there are packets, and `retry + 2` more; each turn reads.
-/
theorem main_turns_bounded
    (io : Io ω)
    (action : Action)
    (cmlist : List StrRef)
    {s : Sys ω}
    (session : Session s.k)
    (rxs : List Rx) :
    let v := mainStart io action cmlist s
    ((turnsMade io rxs v).length : Int) ≤
        (turnsMade io rxs v).countP (0 < ·.ret) + s.k.par.retry + 2 ∧
      ∀ before : List Rx, (mainLoop io before v).ret = none →
        (ok2rxd (mainLoop io before v).sys.k).doRxd = true ∧
          ∀ rx, (mainIter io rx (mainLoop io before v)).rxLen = rx.ret := by
  obtain ⟨turning, counter⟩ := @turning_mainStart _ io _ action cmlist session
  intro v
  have retries := session.retries
  have counted : v.retrycounter = s.k.par.retry + 1 := counter
  refine ⟨?_, ?_⟩
  · have bound :=
      @turnsMade_bound _ io rxs v turning (by rw [counted]; omega)
    rw [counted] at bound
    omega
  · intro before going
    have reached := turning.run before going
    exact ⟨ok2rxd_held reached.wf reached.held, turn_rxLen reached⟩

theorem main_turns_bounded_silence :
    let v :=
      mainStart (unixio idleOs) .wait []
        (ekInit (unixio idleOs) [] { os := (), ofile := -1, ifile := false,
                                     calls := [] })
    let rxs := List.replicate 9 { ret := 0, stored := [] }
    ((turnsMade (unixio idleOs) rxs v).length : Int) ≤
        (turnsMade (unixio idleOs) rxs v).countP (0 < ·.ret) + 3 + 2 ∧
      ∀ before : List Rx, (mainLoop (unixio idleOs) before v).ret = none →
        (ok2rxd (mainLoop (unixio idleOs) before v).sys.k).doRxd = true ∧
          ∀ rx,
            (mainIter (unixio idleOs) rx
              (mainLoop (unixio idleOs) before v)).rxLen = rx.ret :=
  main_turns_bounded (unixio idleOs) .wait []
    (session_ekInit (unixio idleOs) [] _) _

end Slate106.Kermit
