import Slate106.KermitWork

namespace Slate106.Kermit

open CBytes

/-!
# What transmission leaves alone

The functions that build, number, keep, send and resend packets touch the
packet windows, the numbers and the block check type, and nothing else of the
session.  One relation says so for all of them.
-/

variable {ω : Type}

/--
Only what numbers, keeps and sends packets differs, and the outside.  The block
check type is left, or it is one that there is.
-/
def Transmits
    (s s' : Sys ω) : Prop :=
  ∃ bct sSeq rSeq win nresend w log,
    (bct = s.k.par.bct ∨ 1 ≤ bct ∧ bct ≤ 3) ∧
    s' =
      { s with
        k :=
          { s.k with
            par.bct := bct
            sSeq := sSeq
            rSeq := rSeq
            win := win
            nresend := nresend }
        w := w
        log := log }

theorem Transmits.refl
    (s : Sys ω) :
    Transmits s s :=
  ⟨_, _, _, _, _, _, _, .inl rfl, rfl⟩

theorem Transmits.trans
    {s t u : Sys ω}
    (first : Transmits s t)
    (second : Transmits t u) :
    Transmits s u := by
  obtain ⟨_, _, _, _, _, _, _, check, rfl⟩ := first
  obtain ⟨_, _, _, _, _, _, _, check', rfl⟩ := second
  refine ⟨_, _, _, _, _, _, _, ?_, rfl⟩
  rcases check' with left | known
  · exact left ▸ check
  · exact .inr known

theorem Transmits.response
    {s t : Sys ω}
    (same : Transmits s t) :
    t.r = s.r := by
  obtain ⟨_, _, _, _, _, _, _, -, rfl⟩ := same
  rfl

section Functions

variable {io : Io ω}

/-! ## Windows and numbers -/

theorem transmits_callTxd
    (bytes : List UInt8)
    (s : Sys ω) :
    Transmits s (callTxd io bytes s).2 :=
  ⟨_, _, _, _, _, _, _, .inl rfl, rfl⟩

theorem transmits_forceBcta3
    (s : Sys ω) :
    Transmits s { s with k := forceBcta3 s.k } := by
  unfold forceBcta3
  split
  · exact ⟨_, _, _, _, _, _, _, .inr (by decide), rfl⟩
  · exact .refl s

theorem transmits_getSslot
    (s : Sys ω) :
    Transmits s { s with k := (getSslot s.k).2 } := by
  rw [getSslot_shape]
  exact ⟨_, _, _, _, _, _, _, .inl rfl, rfl⟩

theorem transmits_takeSslot
    (s : Sys ω) :
    Transmits s (onK (fun k => (takeSslot k).2) s) := by
  unfold onK
  dsimp only
  rw [takeSslot_shape]
  exact ⟨_, _, _, _, _, _, _, .inl rfl, rfl⟩

theorem transmits_acknowledge
    (slot : Int)
    (s : Sys ω) :
    Transmits s (onK (acknowledge slot) s) := by
  unfold onK
  rw [acknowledge_shape]
  exact ⟨_, _, _, _, _, _, _, .inl rfl, rfl⟩

theorem transmits_freeSslot
    (slot : Int)
    (s : Sys ω) :
    Transmits s (onK (freeSslot slot) s) := by
  unfold onK freeSslot
  split
  · exact .refl s
  · exact ⟨_, _, _, _, _, _, _, .inl rfl, rfl⟩

/-! ## Packets -/

private theorem transmits_spktBuild
    {confused : Sys ω → Sys ω}
    (quiet : ∀ s, Transmits s (confused s))
    (typ : UInt8)
    (seq : Int)
    (bytes : List UInt8)
    (slot : Option Int)
    (s : Sys ω) :
    Transmits s (spktBuild io confused typ seq bytes slot s).2 := by
  have forced := transmits_forceBcta3 s
  unfold spktBuild
  dsimp only
  generalize forceBcta3 s.k = k at forced
  have stored : ∀ win sSeq,
      Transmits s { s with k := { k with win := win, sSeq := sSeq } } :=
    fun _ _ => forced.trans ⟨_, _, _, _, _, _, _, .inl rfl, rfl⟩
  cases slot with
  | none =>
      split
      · exact forced.trans (quiet _)
      · split
        · exact forced
        · exact (stored _ _).trans (transmits_callTxd _ _)
  | some slot =>
      split
      · exact (stored _ _).trans (quiet _)
      · split
        · exact stored _ _
        · exact (stored _ _).trans (transmits_callTxd _ _)

private theorem transmits_spktWith
    {confused : Sys ω → Sys ω}
    (quiet : ∀ s, Transmits s (confused s))
    (typ : UInt8)
    (seq len : Int)
    (text : Option (List UInt8))
    (s : Sys ω) :
    Transmits s (spktWith io confused typ seq len text s).2 := by
  have taken : Transmits s
      { s with k := (spktSlot typ seq (spktData len text).length s.k).2 } := by
    unfold spktSlot
    dsimp only
    split
    · exact transmits_getSslot s
    · exact (transmits_takeSslot s).trans ⟨_, _, _, _, _, _, _, .inl rfl, rfl⟩
  unfold spktWith
  split
  · exact .refl s
  · dsimp only
    split
    · exact transmits_spktBuild quiet ..
    · split
      · exact taken
      · exact taken.trans (transmits_spktBuild quiet ..)

private theorem transmits_epktWith
    {confused : Sys ω → Sys ω}
    (quiet : ∀ s, Transmits s (confused s))
    (msg : List UInt8)
    (s : Sys ω) :
    Transmits s (epktWith io confused msg s) := by
  have sent : ∀ bct, 1 ≤ bct ∧ bct ≤ 3 → Transmits s
      (spktWith io confused (ch 'E') 0 (-1) (some msg) (setBct bct s)).2 :=
    fun bct known => (show Transmits s (setBct bct s) from
      ⟨_, _, _, _, _, _, _, .inr known, rfl⟩).trans
        (transmits_spktWith quiet ..)
  unfold epktWith
  dsimp only
  split
  · obtain ⟨_, _, _, _, _, _, _, -, same⟩ := sent 3 (by omega)
    rw [same]
    exact ⟨_, _, _, _, _, _, _, .inr (by decide), rfl⟩
  · obtain ⟨_, _, _, _, _, _, _, -, same⟩ := sent 1 (by omega)
    rw [same]
    exact ⟨_, _, _, _, _, _, _, .inl rfl, rfl⟩

theorem transmits_spktConfused
    (s : Sys ω) :
    Transmits s (spktConfused io s) :=
  transmits_epktWith Transmits.refl _ s

theorem transmits_spkt
    (typ : UInt8)
    (seq len : Int)
    (text : Option (List UInt8))
    (s : Sys ω) :
    Transmits s (spkt io typ seq len text s).2 :=
  transmits_spktWith transmits_spktConfused typ seq len text s

theorem transmits_epkt
    (msg : List UInt8)
    (s : Sys ω) :
    Transmits s (epkt io msg s) :=
  transmits_epktWith transmits_spktConfused msg s

theorem transmits_ack
    (seq : Int)
    (text : Option (List UInt8))
    (s : Sys ω) :
    Transmits s (ack io seq text s).2 := by
  have sent := @transmits_spkt _ io (ch 'Y') seq
    (((text.map cstr).getD []).length : Nat) (text.map cstr) s
  unfold ack
  dsimp only
  split
  · exact sent.trans ⟨_, _, _, _, _, _, _, .inl rfl, rfl⟩
  · exact sent

theorem transmits_nak
    (seq slot : Int)
    (s : Sys ω) :
    Transmits s (nak io seq slot s).2 := by
  have sent := @transmits_spkt _ io (ch 'N') seq 0 none s
  unfold nak
  dsimp only
  split
  · exact sent.trans ⟨_, _, _, _, _, _, _, .inl rfl, rfl⟩
  · exact sent

theorem transmits_resend
    (seq : Int)
    (s : Sys ω) :
    Transmits s (resend io seq s).2 := by
  have slotted : ∀ slot, Transmits s (resendSlot io slot s).2 := by
    intro slot
    unfold resendSlot
    dsimp only
    split
    · exact ⟨_, _, _, _, _, _, _, .inl rfl, rfl⟩
    · split
      · exact ⟨_, _, _, _, _, _, _, .inl rfl, rfl⟩
      · split
        · exact ⟨_, _, _, _, _, _, _, .inl rfl, rfl⟩
        · exact ⟨_, _, _, _, _, _, _, .inl rfl, rfl⟩
  unfold resend
  dsimp only
  repeat' split
  all_goals first
    | exact .refl s
    | exact slotted _

theorem transmits_testRslots
    (s : Sys ω) :
    Transmits s (testRslots io s) := by
  unfold testRslots
  dsimp only
  split
  · exact transmits_epkt _ s
  · exact .refl s

theorem transmits_freeRslot
    (slot : Int)
    (s : Sys ω) :
    Transmits s (freeRslot io slot s) := by
  unfold freeRslot
  split
  · exact transmits_epkt _ s
  · exact ⟨_, _, _, _, _, _, _, .inl rfl, rfl⟩

theorem transmits_rparSend
    (type : UInt8)
    (d : List UInt8)
    (s : Sys ω) :
    Transmits s (rparSend io type d s).2 := by
  unfold rparSend
  dsimp only
  split
  · exact transmits_ack ..
  · split
    · split
      · exact .refl s
      · exact (transmits_takeSslot s).trans (transmits_spkt ..)
    · exact .refl s

end Functions

end Slate106.Kermit
