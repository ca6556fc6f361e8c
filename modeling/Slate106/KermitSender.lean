import Slate106.KermitTurns

namespace Slate106.Kermit

/-!
# A server that sends a file

The states of a transaction in which files are sent follow one another, and no
packet that goes through the state switcher leaves them.
-/

variable {ω : Type}

/-- The states of a transaction in which files are sent. -/
def senderStates : List State :=
  [.sInit, .sFile, .sAttr, .sData, .sEof, .sEot]

/-- A file is being sent. -/
def Sender
    (s : Sys ω) : Prop :=
  (phase s).1 ∈ senderStates ∧ (phase s).2 = .send

section Sender

variable {io : Io ω}
variable {s s' : Sys ω}

theorem Sender.same
    (sender : Sender s)
    (same : phase s' = phase s) :
    Sender s' := by
  unfold Sender
  rw [same]
  exact sender

theorem Sender.to
    (sender : Sender s)
    (state : State)
    (next : state ∈ senderStates)
    (same : phase s' = (state, (phase s).2)) :
    Sender s' := by
  unfold Sender
  rw [same]
  exact ⟨next, sender.2⟩

theorem Sender.sendRequested
    (sender : Sender s)
    (p : Rcvd) :
    Sender (sendRequested io p s).2 := by
  have freed : ∀ (slot : Int) (u : Sys ω),
      phase (onK
        (fun k => freeSslot slot { k with sSeq := (k.sSeq - 1) % 64 })
        u) = phase u := by
    intro slot u
    unfold phase onK
    dsimp only
    rw [freeSslot_control]
  unfold Kermit.sendRequested
  dsimp only
  split
  · exact sender.same (by simp)
  · split
    · exact sender.same (by simp)
    · split
      · exact sender.to .sEof (by decide) (by simp [freed])
      · exact sender.same (by simp)

theorem Sender.cancelSend
    (sender : Sender s)
    (p : Rcvd) :
    Sender (cancelSend io p s).2 := by
  have emptied : ∀ t : Sys ω, phase { t with k.filelist := [] } = phase t :=
    fun _ => rfl
  unfold Kermit.cancelSend
  dsimp only
  split
  · exact sender.same (by simp)
  · split
    · exact sender.to .sEof (by decide) (by simp [emptied])
    · exact sender.to .sEof (by decide) (by simp)

theorem Sender.sendFile
    (sender : Sender s)
    (name : StrRef)
    (rest : List StrRef) :
    Sender (sendFile io name rest s).2 := by
  unfold Kermit.sendFile
  dsimp only
  split
  · exact sender.same (by simp)
  · split
    · exact sender.same (by simp)
    · exact sender.to .sFile (by decide) (by simp)

theorem Sender.sendBreak
    (sender : Sender s) :
    Sender (sendBreak io s).2 := by
  have named : phase { s with k.filename := none } = phase s := rfl
  unfold Kermit.sendBreak
  dsimp only
  split
  · exact sender.same (by simp [named])
  · split
    · exact sender.same (by simp [named])
    · exact sender.to .sEot (by decide) (by simp [named])

theorem Sender.nextFile
    (sender : Sender s) :
    Sender (nextFile io s).2 := by
  have next : Sender (onK nxtpkt s) := sender
  unfold Kermit.nextFile
  dsimp only
  split
  · exact next.sendFile _ _
  · exact next.sendBreak

theorem Sender.firstData
    (sender : Sender s) :
    Sender (firstData io s).2 := by
  unfold Kermit.firstData
  dsimp only
  split
  · exact sender.same (by simp)
  · split
    · split
      · exact sender.same (by simp)
      · exact sender.to .sEof (by decide) (by simp)
    · exact sender.to .sData (by decide) (by simp)

theorem Sender.afterFile
    (sender : Sender s) :
    Sender (afterFile io s).2 := by
  have next : Sender (onK nxtpkt s) := sender
  unfold Kermit.afterFile
  dsimp only
  split
  · split
    · exact sender.same (by simp)
    · exact sender.to .sAttr (by decide) (by simp)
  · exact next.firstData

theorem Sender.afterData
    (sender : Sender s) :
    Sender (afterData io s).2 := by
  have begun :
      Sender (if s.k.state = .sAttr then setState .sData s else s) := by
    split
    · exact sender.to .sData (by decide) rfl
    · exact sender
  have mapped : ∀ (slot : Int) (t : Sys ω),
      phase (onK (fun k => mapSseq slot (nxtpkt k)) t) = phase t :=
    fun _ _ => rfl
  unfold Kermit.afterData
  dsimp only
  generalize (if s.k.state = .sAttr then setState .sData s else s) = t
    at begun
  split
  · exact begun.same (by simp)
  · split
    · exact begun.same (by simp [mapped])
    · split
      · split
        · exact begun.to .sEof (by decide) (by simp [mapped])
        · exact begun.to .sEof (by decide) (by simp [mapped])
      · exact begun.same (by simp [mapped])

/-- The state switcher leaves a sender sending. -/
theorem Sender.stateStage
    (sender : Sender s)
    (msg : List UInt8)
    (p : Rcvd) :
    Sender (stateStage io msg p s).2 := by
  have states := sender.1
  unfold Kermit.stateStage
  simp only [senderStates, List.mem_cons, List.not_mem_nil, or_false] at states
  change s.k.state = _ ∨ s.k.state = _ ∨ s.k.state = _ ∨ s.k.state = _ ∨
    s.k.state = _ ∨ s.k.state = _ at states
  rcases states with state | state | state | state | state | state
  all_goals rw [state]
  · exact Sender.nextFile (s := onK (spar p.pdf p.datalen) s) sender
  · exact sender.afterFile
  · exact sender.afterData
  · exact sender.afterData
  · dsimp only
    split
    · exact sender
    · exact sender.nextFile
  · exact sender.same (@works_reportFile _ io .get s).phase

end Sender

end Slate106.Kermit
