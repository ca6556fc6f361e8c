import Slate106.KermitWf

namespace Slate106.Kermit

open CBytes

/-!
# Damaged frames

A frame that fails one of the checks of the parser costs at most one
retransmission of the packet in the send slot; nothing else of the session
changes but the counters of that retransmission.
-/

variable {ω : Type}

/-- The packet that a send slot holds. -/
def slotPacket
    (p : Packet) : List UInt8 :=
  p.buf.take p.len.toNat

/--
The frame in `ipktbuf` fails a check of the parser: the range of the sequence
number, the header checksum, the bounds on the lengths or the block check.
-/
def Damaged
    (k : KData)
    (len : Int) : Prop :=
  ∀ p buf, parse k len ≠ .good p buf

/-- A session that only counted a retransmission, if anything. -/
structure Undisturbed
    (s s' : Sys ω) : Prop where
  state : s'.k.state = s.k.state
  what : s'.k.what = s.k.what
  filelist : s'.k.filelist = s.k.filelist
  filename : s'.k.filename = s.k.filename
  cfg : s'.k.cfg = s.k.cfg
  par : s'.k.par = s.k.par
  enc : s'.k.enc = s.k.enc
  zin : s'.k.zin = s.k.zin
  sSeq : s'.k.sSeq = s.k.sSeq
  rSeq : s'.k.rSeq = s.k.rSeq
  rPw : s'.k.win.rPw = s.k.win.rPw
  sPw : s'.k.win.sPw = s.k.win.sPw
  ipktinfo : s'.k.win.ipktinfo = s.k.win.ipktinfo
  opktinfo :
    ∀ slot, ∃ rtr,
      s'.k.win.opktinfo slot = { s.k.win.opktinfo slot with rtr := rtr }
  obuf : s'.k.obuf = s.k.obuf
  obufpos : s'.k.obufpos = s.k.obufpos
  response : s'.r = s.r

/-- Nothing was transmitted, and nothing else was called. -/
def Silent
    (s s' : Sys ω) : Prop :=
  s'.log = s.log ∧ s'.w = s.w

/-- One packet was transmitted, and nothing else was called. -/
def Transmitted
    (io : Io ω)
    (bytes : List UInt8)
    (s s' : Sys ω) : Prop :=
  s'.log = .txd bytes (io.txd s.w bytes).1 :: s.log ∧
    s'.w = (io.txd s.w bytes).2

theorem Undisturbed.refl
    (s : Sys ω) :
    Undisturbed s s :=
  ⟨rfl, rfl, rfl, rfl, rfl, rfl, rfl, rfl, rfl, rfl, rfl, rfl, rfl,
    fun _ => ⟨_, rfl⟩, rfl, rfl, rfl⟩

/-! ## Retransmission -/

/-- With one slot, `resend()` does nothing or sends the packet in the slot. -/
theorem resend_one
    {s : Sys ω}
    (wf : Wf s.k)
    (io : Io ω)
    (seq : Int) :
    resend io seq s = (xOk, s) ∨ resend io seq s = resendSlot io 0 s := by
  unfold resend
  dsimp only
  generalize (if seq < 0 then earliestSseq s.k else seq) = actual
  split
  · exact Or.inl rfl
  · split
    · split
      · exact Or.inl rfl
      · split
        · exact Or.inl rfl
        · rename_i mapped
          have slot :=
            (wf.mapped (earliestSseq s.k)).resolve_left (by omega)
          rw [slot]
          exact Or.inr rfl
    · rename_i mapped
      have slot := (wf.mapped actual).resolve_left (by omega)
      rw [slot]
      exact Or.inr rfl

/-- A retransmission changes its counters, and sends the slot's packet. -/
theorem resendSlot_undisturbed
    {s : Sys ω}
    (wf : Wf s.k)
    (io : Io ω) :
    Undisturbed s (resendSlot io 0 s).2 ∧
      (Silent s (resendSlot io 0 s).2 ∨
        Transmitted io (slotPacket (s.k.win.opktinfo 0)) s
          (resendSlot io 0 s).2) := by
  have noted :
      Undisturbed s
        { s with k.win.opktlen := (s.k.win.opktinfo 0).len } :=
    ⟨rfl, rfl, rfl, rfl, rfl, rfl, rfl, rfl, rfl, rfl, rfl, rfl, rfl,
      fun _ => ⟨_, rfl⟩, rfl, rfl, rfl⟩
  have retried (rtr : Int) (slot : Int) :
      ∃ rtr',
        put s.k.win.opktinfo 0
            { s.k.win.opktinfo 0 with rtr := rtr } slot =
          { s.k.win.opktinfo slot with rtr := rtr' } := by
    by_cases same : slot = 0
    · subst same
      exact ⟨rtr, put_same ..⟩
    · exact ⟨(s.k.win.opktinfo slot).rtr, put_other _ same _⟩
  unfold resendSlot
  dsimp only
  split
  · exact ⟨noted, Or.inl ⟨rfl, rfl⟩⟩
  · rename_i inBounds
    simp only [Bool.or_eq_true, decide_eq_true_eq, not_or] at inBounds
    split
    · exact ⟨noted, Or.inl ⟨rfl, rfl⟩⟩
    · split
      · exact
          ⟨⟨rfl, rfl, rfl, rfl, rfl, rfl, rfl, rfl, rfl, rfl, rfl, rfl, rfl,
            retried _, rfl, rfl, rfl⟩, Or.inl ⟨rfl, rfl⟩⟩
      · have stored := wf.kept (by omega)
        have whole :
            (s.k.win.opktinfo 0).buf.takeD (s.k.win.opktinfo 0).len.toNat 0 =
              slotPacket (s.k.win.opktinfo 0) :=
          List.takeD_eq_take 0 (by omega)
        rw [whole]
        exact
          ⟨⟨rfl, rfl, rfl, rfl, rfl, rfl, rfl, rfl, rfl, rfl, rfl, rfl, rfl,
            retried _, rfl, rfl, rfl⟩, Or.inr ⟨rfl, rfl⟩⟩

/-- Any retransmission leaves the session undisturbed. -/
theorem resend_undisturbed
    {s : Sys ω}
    (wf : Wf s.k)
    (io : Io ω)
    (seq : Int) :
    Undisturbed s (resend io seq s).2 ∧
      (Silent s (resend io seq s).2 ∨
        Transmitted io (slotPacket (s.k.win.opktinfo 0)) s
          (resend io seq s).2) := by
  rcases resend_one wf io seq with nothing | slot
  · rw [nothing]
    exact ⟨.refl s, Or.inl ⟨rfl, rfl⟩⟩
  · rw [slot]
    exact resendSlot_undisturbed wf io

/-- That is so when the frame that was received has been changed in place. -/
theorem resend_stored
    {s : Sys ω}
    (wf : Wf s.k)
    (io : Io ω)
    (buf : List UInt8)
    (seq : Int) :
    Undisturbed s (resend io seq { s with k.ipktbuf := buf }).2 ∧
      (Silent s (resend io seq { s with k.ipktbuf := buf }).2 ∨
        Transmitted io (slotPacket (s.k.win.opktinfo 0)) s
          (resend io seq { s with k.ipktbuf := buf }).2) := by
  have stillWf : Wf { s with k.ipktbuf := buf }.k :=
    wf.scratch ⟨rfl, rfl, rfl, rfl, rfl, rfl, rfl, rfl, rfl, rfl, rfl⟩ io
  obtain ⟨same, sent⟩ := resend_undisturbed stillWf io seq
  exact
    ⟨⟨same.state, same.what, same.filelist, same.filename, same.cfg,
      same.par, same.enc, same.zin, same.sSeq, same.rSeq, same.rPw,
      same.sPw, same.ipktinfo, same.opktinfo, same.obuf, same.obufpos,
      same.response⟩, sent⟩

/-! ## Frames that fail a check -/

/-- What the sender or receiver does about a damaged frame. -/
private theorem resendUnlessRecv_undisturbed
    {s : Sys ω}
    (wf : Wf s.k)
    (io : Io ω)
    (buf : List UInt8) :
    let t : Sys ω := { s with k.ipktbuf := buf }
    Undisturbed s (resendUnlessRecv io t).2 ∧
      (s.k.what = .recv → Silent s (resendUnlessRecv io t).2) ∧
      (Silent s (resendUnlessRecv io t).2 ∨
        Transmitted io (slotPacket (s.k.win.opktinfo 0)) s
          (resendUnlessRecv io t).2) := by
  intro t
  have stored : Undisturbed s t :=
    ⟨rfl, rfl, rfl, rfl, rfl, rfl, rfl, rfl, rfl, rfl, rfl, rfl, rfl,
      fun _ => ⟨_, rfl⟩, rfl, rfl, rfl⟩
  unfold resendUnlessRecv
  split
  · exact ⟨stored, fun _ => ⟨rfl, rfl⟩, Or.inl ⟨rfl, rfl⟩⟩
  · rename_i sending
    obtain ⟨same, sent⟩ := resend_stored wf io buf (-1)
    exact ⟨same, fun receiving => absurd receiving sending, sent⟩

/--
A damaged frame never changes the session: in every reachable state but
`S_EOT` it costs a receiver nothing and a sender at most one more copy of the
packet in its slot.
-/
theorem damaged_frame_undisturbed
    (io : Io ω)
    {s : Sys ω}
    (reachable : Reachable io s)
    (received : s.k.doRxd = true)
    (notEot : s.k.state ≠ .sEot)
    {len : Int}
    (long : 4 ≤ len)
    (damaged : Damaged s.k len)
    (msg : List UInt8) :
    Undisturbed s (kermit io .run len msg s).2 ∧
      (s.k.what = .recv → Silent s (kermit io .run len msg s).2) ∧
      (Silent s (kermit io .run len msg s).2 ∨
        Transmitted io (slotPacket (s.k.win.opktinfo 0)) s
          (kermit io .run len msg s).2) := by
  have wf := reachable_wf reachable
  have forced : forceBcta3 s.k = s.k := by
    simp [forceBcta3, wf.noForce]
  have untouched :
      Undisturbed s s ∧ (s.k.what = .recv → Silent s s) ∧
        (Silent s s ∨
          Transmitted io (slotPacket (s.k.win.opktinfo 0)) s s) :=
    ⟨.refl s, fun _ => ⟨rfl, rfl⟩, Or.inl ⟨rfl, rfl⟩⟩
  have notShort : ¬ len < 4 := by
    omega
  unfold kermit
  rw [wf.testRslots io]
  dsimp only
  unfold kermitRun
  by_cases unset : s.k.state = .rNone
  · rw [if_pos unset]
    exact untouched
  · rw [if_neg unset, if_pos received]
    unfold rxStage
    rw [if_neg notShort]
    cases parsed : parse s.k len with
    | shortcut =>
        exact absurd (parse_shortcut parsed).1 notEot
    | good p buf =>
        exact absurd parsed (damaged p buf)
    | tossed =>
        exact untouched
    | badHeader buf =>
        exact resendUnlessRecv_undisturbed wf io buf
    | badLength =>
        simp only [forced]
        exact resendUnlessRecv_undisturbed wf io s.k.ipktbuf
    | badCheck buf =>
        simp only [forced]
        exact resendUnlessRecv_undisturbed wf io buf

/-- A server that waits, after a D packet with a wrong check character. -/
def noisySys : Sys (Unix Unit) :=
  receive { ret := 4, stored := [0x23, 0x20, 0x44, 0x20, 0] }
    (idleServer idleOs ())

theorem damaged_frame_undisturbed_noisy :
    Undisturbed noisySys (kermit (unixio idleOs) .run 4 [] noisySys).2 ∧
      (noisySys.k.what = .recv →
        Silent noisySys (kermit (unixio idleOs) .run 4 [] noisySys).2) ∧
      (Silent noisySys (kermit (unixio idleOs) .run 4 [] noisySys).2 ∨
        Transmitted (unixio idleOs) (slotPacket (noisySys.k.win.opktinfo 0))
          noisySys (kermit (unixio idleOs) .run 4 [] noisySys).2) := by
  have rejected :
      parse noisySys.k 4 = .badCheck [0x23, 0x20, 0x44, 0, 0] := by
    decide
  have damaged : Damaged noisySys.k 4 := by
    intro p buf good
    rw [rejected] at good
    cases good
  exact damaged_frame_undisturbed (unixio idleOs)
    (.receive _ (idleServer_reachable idleOs ())) (by decide) (by decide) (by decide)
    damaged []

end Slate106.Kermit
