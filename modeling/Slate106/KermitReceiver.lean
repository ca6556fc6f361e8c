import Slate106.KermitAgreed
import Slate106.KermitAccepted
import Slate106.KermitStores

namespace Slate106.Kermit

open CBytes

/-!
# Receiving a file

What a session with one receive slot makes of the packets of one file that
come in order, some of them more than once: the file is opened with the first
data, each data packet is acknowledged and held in the slot until the next one
comes, and Z writes out what is left.
-/

variable {ω : Type}
variable {io : Io ω}
variable {rootPath : List UInt8}
variable {s : Sys ω}

/-! ## The receive slot -/

/-- Nothing is held in the receive slot. -/
structure NothingHeld
    (k : KData) : Prop where
  free : (k.win.ipktinfo 0).len < 1
  unnumbered : (k.win.ipktinfo 0).seq = -1

/-- The data packet with a number is held in the receive slot. -/
structure HeldField
    (seq : Int)
    (field : List UInt8)
    (k : KData) : Prop where
  slotted : Slotted field (k.win.ipktinfo 0)
  something : field ≠ []
  number : (k.win.ipktinfo 0).seq = seq
  lower : 0 ≤ seq
  upper : seq ≤ 63
  flg : (k.win.ipktinfo 0).flg ≠ 0
  mapped : k.win.rPw seq = 0

/-- With one slot, its number is the earliest and the latest. -/
theorem extremeRseq_one
    (better : Int → Int → Bool)
    {k : KData}
    (window : k.par.wslots = 1)
    (strict : better 0 0 = false) :
    extremeRseq better k =
      if isSeq (k.win.ipktinfo 0).seq then (k.win.ipktinfo 0).seq else -1 := by
  have ref : rseqRef k =
      if isSeq (k.win.ipktinfo 0).seq then (k.win.ipktinfo 0).seq else -1 := by
    unfold rseqRef
    rw [slots_one window]
    rfl
  unfold extremeRseq
  rw [ref, slots_one window]
  by_cases number : isSeq (k.win.ipktinfo 0).seq = true
  · have zero : seqRot (k.win.ipktinfo 0).seq (k.win.ipktinfo 0).seq = 0 := by
      unfold seqRot
      simp
    have lower : ¬ (k.win.ipktinfo 0).seq = -1 := by
      intro negative
      rw [negative] at number
      exact absurd number (by decide)
    simp only [if_pos number, if_neg lower, List.foldl_cons, List.foldl_nil,
      zero, strict, Bool.and_false, Bool.false_eq_true, if_false]
  · simp only [if_neg number, if_true]

theorem NothingHeld.earliest
    {k : KData}
    (window : k.par.wslots = 1)
    (nothing : NothingHeld k) :
    earliestRseq k = -1 := by
  unfold earliestRseq
  rw [extremeRseq_one _ window (by decide), nothing.unnumbered]
  rfl

theorem HeldField.isSeq
    {seq : Int}
    {field : List UInt8}
    {k : KData}
    (held : HeldField seq field k) :
    isSeq seq = true := by
  have lower := held.lower
  have upper := held.upper
  simp [Kermit.isSeq]
  omega

theorem HeldField.earliest
    {seq : Int}
    {field : List UInt8}
    {k : KData}
    (window : k.par.wslots = 1)
    (held : HeldField seq field k) :
    earliestRseq k = seq := by
  unfold earliestRseq
  rw [extremeRseq_one _ window (by decide), held.number, if_pos held.isSeq]

theorem HeldField.latest
    {seq : Int}
    {field : List UInt8}
    {k : KData}
    (window : k.par.wslots = 1)
    (held : HeldField seq field k) :
    latestRseq k = seq := by
  unfold latestRseq
  rw [extremeRseq_one _ window (by decide), held.number, if_pos held.isSeq]

theorem HeldField.used
    {seq : Int}
    {field : List UInt8}
    {k : KData}
    (window : k.par.wslots = 1)
    (held : HeldField seq field k) :
    nusedRslots k ≠ 0 := by
  have length := held.slotted.len
  have positive := List.length_pos_of_ne_nil held.something
  unfold nusedRslots
  rw [slots_one window]
  simp
  omega

/-! ## Data packets -/

/-- The settings of a session that receives. -/
structure SameSettings
    (s s' : Sys ω) : Prop where
  cfg : s'.k.cfg = s.k.cfg
  par : s'.k.par = s.k.par
  state : s'.k.state = s.k.state
  what : s'.k.what = s.k.what
  recvdir : s'.k.recvdir = s.k.recvdir

/--
A data packet was acknowledged and is held; before, `bytes` went to the file.
-/
structure Took
    (seq : Int)
    (field bytes : List UInt8)
    (s s' : Sys ω) : Prop where
  settings : SameSettings s s'
  held : HeldField seq field s'.k
  room : RoomInObuf s'
  stored : storedFile s' = storedFile s ++ bytes
  log :
    ∃ calls,
      s'.log = .txd (frameOf (ch 'Y') seq []) xOk :: (calls ++ s.log) ∧
        Filing calls

theorem Answered.settings
    {frame : List UInt8}
    {s' : Sys ω}
    (answered : Answered io frame s s') :
    SameSettings s s' := by
  obtain ⟨⟨_, _, _, k⟩, -, -, -⟩ := answered
  exact ⟨by rw [k], by rw [k], by rw [k], by rw [k], by rw [k]⟩

theorem Answered.wf
    {frame : List UInt8}
    {s' : Sys ω}
    (answered : Answered io frame s s')
    (wf : Wf s.k) :
    Wf s'.k := by
  obtain ⟨⟨_, _, _, k⟩, -, -, -⟩ := answered
  rw [k]
  exact ⟨wf.noForce, wf.oneSlot, wf.window, wf.noWindowing, wf.received,
    wf.kept, wf.mapped⟩

theorem Answered.ipktinfo
    {frame : List UInt8}
    {s' : Sys ω}
    (answered : Answered io frame s s') :
    s'.k.win.ipktinfo = s.k.win.ipktinfo ∧ s'.k.win.rPw = s.k.win.rPw := by
  obtain ⟨⟨_, _, _, k⟩, -, -, -⟩ := answered
  rw [k]
  exact ⟨rfl, rfl⟩

theorem Answered.obuf
    {frame : List UInt8}
    {s' : Sys ω}
    (answered : Answered io frame s s') :
    s'.k.obuf = s.k.obuf ∧ s'.k.obufpos = s.k.obufpos := by
  obtain ⟨⟨_, _, _, k⟩, -, -, -⟩ := answered
  rw [k]
  exact ⟨rfl, rfl⟩

theorem Answered.storedFile
    {frame : List UInt8}
    {s' : Sys ω}
    (answered : Answered io frame s s') :
    storedFile s' = storedFile s := by
  obtain ⟨obuf, obufpos⟩ := answered.obuf
  unfold Kermit.storedFile
  rw [answered.log, obuf, obufpos]
  rfl

/-- The receive slot with a packet in it. -/
def filledSlot
    (seq : Int)
    (field : List UInt8)
    (p : Packet) : Packet :=
  { p with
    buf := field ++ [0]
    len := field.length
    flg := 1
    seq := seq
    typ := ch ' '
    crc := chk3 field }

/-- What a session becomes when a packet is put into the receive slot. -/
def holdField
    (seq : Int)
    (field : List UInt8)
    (k : KData) : KData :=
  { k with
    win.ipktinfo :=
      put k.win.ipktinfo 0 (filledSlot seq field (k.win.ipktinfo 0))
    win.rPw := put k.win.rPw seq 0 }

theorem heldField_holdField
    {seq : Int}
    (lower : 0 ≤ seq)
    (upper : seq ≤ 63)
    {field : List UInt8}
    (noZero : 0 ∉ field)
    (something : field ≠ [])
    (k : KData) :
    HeldField seq field (holdField seq field k) where
  slotted := ⟨rfl, rfl, rfl, noZero⟩
  something := something
  number := rfl
  lower := lower
  upper := upper
  flg := by
    show (1 : Int) ≠ 0
    decide
  mapped := by
    show put k.win.rPw seq 0 seq = 0
    simp [put]

theorem Wf.holdField
    {k : KData}
    (wf : Wf k)
    (seq : Int)
    {field : List UInt8}
    (noZero : 0 ∉ field) :
    Wf (holdField seq field k) :=
  ⟨wf.noForce, wf.oneSlot, wf.window, wf.noWindowing,
    fun _ => congrArg chk3 (cstr_append_zero noZero []), wf.kept, wf.mapped⟩

/-- A packet is put into the receive slot when nothing is held there. -/
theorem addRpkt_holds
    (io : Io ω)
    (wf : Wf s.k)
    (nothing : (s.k.win.ipktinfo 0).len < 1)
    (seq : Int)
    {text field : List UInt8}
    (read : cstr text = field)
    (short : field.length < pBuflen) :
    addRpkt io seq text s = (xOk, onK (holdField seq field) s) := by
  have taken := getRslot_free wf.window nothing
  have window : ¬ ((0 : Int) ≥ (s.k.par.wslots : Int)) := by
    rw [wf.window]
    decide
  have whole : (cstr text ++ [0]).take pBuflen = field ++ [0] := by
    rw [read, List.take_of_length_le]
    rw [List.length_append]
    exact short
  have all : (cstr text).take pBuflen = field := by
    rw [read, List.take_of_length_le (Nat.le_of_lt short)]
  have wfTaken : Wf (onK (fun k => (getRslot k).2) s).k := by
    show Wf (getRslot s.k).2
    rw [taken]
    exact ⟨wf.noForce, wf.oneSlot, wf.window, wf.noWindowing,
      fun received => absurd (show (0 : Int) ≤ -1 from received) (by decide),
      wf.kept, wf.mapped⟩
  have stored : storeRslot 0 seq text (getRslot s.k).2 =
      holdField seq field s.k := by
    rw [taken]
    unfold storeRslot holdField filledSlot
    dsimp only
    rw [whole, all, read]
    simp [put_put]
  have wfStored := wf.holdField seq (read ▸ zero_notMem_cstr text)
  have number : (getRslot s.k).1 = 0 := by
    rw [taken]
  have slots : (onK (fun k => (getRslot k).2) s).k.par.wslots =
      s.k.par.wslots := by
    show (getRslot s.k).2.par.wslots = _
    rw [taken]
  unfold addRpkt
  rw [wf.testRslots io]
  dsimp only
  rw [number, wfTaken.testRslots io, slots, if_neg (by simpa using window)]
  have filled : onK (storeRslot 0 seq text)
      (onK (fun k => (getRslot k).2) s) = onK (holdField seq field) s := by
    unfold onK
    dsimp only
    rw [stored]
  rw [filled, Wf.testRslots (s := onK (holdField seq field) s) wfStored io]

/-- A session that receives files with one receive slot. -/
structure Receives
    (rootPath : List UInt8)
    (k : KData) : Prop where
  wf : Wf k
  plainly : Plainly rootPath k
  recvdir : k.recvdir = 0

theorem Receives.answered
    (receives : Receives rootPath s.k)
    {frame : List UInt8}
    {s' : Sys ω}
    (answered : Answered io frame s s') :
    Receives rootPath s'.k := by
  have settings := answered.settings
  exact ⟨answered.wf receives.wf,
    ⟨settings.cfg.trans receives.plainly.cfg,
      settings.par ▸ receives.plainly.par⟩,
    settings.recvdir.trans receives.recvdir⟩

/-- Room in the buffer stays when neither buffer nor settings change. -/
theorem Answered.room
    {frame : List UInt8}
    {s' : Sys ω}
    (answered : Answered io frame s s')
    (room : RoomInObuf s) :
    RoomInObuf s' := by
  unfold RoomInObuf
  rw [answered.obuf.2, answered.settings.cfg]
  exact room

/-- A packet that was acknowledged is put into the free slot. -/
theorem acked_holds
    (linked : Linked io)
    (receives : Receives rootPath s.k)
    (nothing : (s.k.win.ipktinfo 0).len < 1)
    (room : RoomInObuf s)
    {seq : Int}
    (lower : 0 ≤ seq)
    (upper : seq ≤ 63)
    {text field : List UInt8}
    (read : cstr text = field)
    (something : field ≠ [])
    (short : field.length < pBuflen) :
    ∃ s', addRpkt io seq text (ack io seq none s).2 = (xOk, s') ∧
      Receives rootPath s'.k ∧ Took seq field [] s s' := by
  obtain ⟨-, answered⟩ := ack_answers linked receives.plainly lower upper
    ackText_none
  have settings := answered.settings
  have now := receives.answered answered
  have free := answered.ipktinfo.1 ▸ nothing
  have noZero := read ▸ zero_notMem_cstr text
  have added := addRpkt_holds io now.wf free seq read short
  have roomNow := answered.room room
  have stored := answered.storedFile
  have log := answered.log
  generalize (ack io seq none s).2 = t at *
  refine ⟨_, added, ⟨now.wf.holdField seq noZero,
      ⟨now.plainly.cfg, now.plainly.par⟩, now.recvdir⟩,
    ⟨settings.cfg, settings.par, settings.state, settings.what,
      settings.recvdir⟩,
    heldField_holdField lower upper noZero something t.k, roomNow, ?_,
    ⟨[], log, by simp [Filing]⟩⟩
  rw [List.append_nil]
  exact stored

/-- The slot is free, and what it held went to the file. -/
structure Aligned
    (bytes : List UInt8)
    (s s' : Sys ω) : Prop where
  settings : SameSettings s s'
  free : NothingHeld s'.k
  room : RoomInObuf s'
  stored : storedFile s' = storedFile s ++ bytes
  files : Files s s'

/-- The packet in the receive slot is written to the file. -/
theorem HeldField.written
    (writable : Writable io)
    (receives : Receives rootPath s.k)
    {seq : Int}
    {field : List UInt8}
    (held : HeldField seq field s.k)
    (room : RoomInObuf s) :
    ∃ s', decodeFile io (s.k.win.ipktinfo 0).buf 0 s = (xOk, s') ∧
      Receives rootPath (freeRslot io 0 s').k ∧
        Aligned (decodeMem s.k.par field) s (freeRslot io 0 s') := by
  obtain ⟨s', decoded, ⟨obuf, obufpos, sofar, rumor, w, log, rfl⟩, roomNow,
    stored, files⟩ := decodeFile_stored writable held.slotted room
  have wf := receives.wf
  refine ⟨_, decoded, ⟨⟨wf.noForce, wf.oneSlot, wf.window, wf.noWindowing,
    fun received => ?_, wf.kept, wf.mapped⟩,
    ⟨receives.plainly.cfg, receives.plainly.par⟩, receives.recvdir⟩,
    ⟨rfl, rfl, rfl, rfl, rfl⟩, ?_, roomNow, stored, files⟩
  · exact absurd (show (0 : Int) ≤ -1 from received) (by decide)
  · exact ⟨show (0 : Int) < 1 by decide, rfl⟩

/-- With a packet held, the loop that aligns the window writes it. -/
theorem HeldField.aligned
    (writable : Writable io)
    (receives : Receives rootPath s.k)
    {seq : Int}
    {field : List UInt8}
    (held : HeldField seq field s.k)
    (room : RoomInObuf s) :
    ∃ s', alignWindow io ((seq + 1) % 64) 1 s = (xOk, s') ∧
      Receives rootPath s'.k ∧ Aligned (decodeMem s.k.par field) s s' := by
  have window := receives.wf.window
  have lower := held.lower
  have upper := held.upper
  obtain ⟨s', decoded, now, aligned⟩ := held.written writable receives room
  refine ⟨_, ?_, now, aligned⟩
  have notDir : s.k.recvdir ≠ 1 := by
    rw [receives.recvdir]
    decide
  unfold alignWindow
  dsimp only
  rw [held.earliest window, window, held.mapped]
  have inside : ¬ ((decide (seq < 0) || decide (seq ≥ 64)) = true) := by
    simp only [Bool.or_eq_true, decide_eq_true_eq]
    omega
  rw [if_neg inside]
  have behind : ¬ ((if (seq + 1) % 64 - seq < 0 then
      (seq + 1) % 64 - seq + 64 else (seq + 1) % 64 - seq) <
        ((1 : Nat) : Int)) := by
    split
    · omega
    · omega
  rw [if_neg behind, if_neg (by decide), if_neg held.flg]
  unfold decodeSlot
  rw [if_pos notDir, decoded]
  rfl

/-- The data packet after the one that is held. -/
theorem handleGoodRpkt_next
    (linked : Linked io)
    (writable : Writable io)
    (receives : Receives rootPath s.k)
    {last : Int}
    {old : List UInt8}
    (held : HeldField last old s.k)
    (room : RoomInObuf s)
    {text field : List UInt8}
    (read : cstr text = field)
    (something : field ≠ [])
    (short : field.length < pBuflen) :
    ∃ s', handleGoodRpkt io ((last + 1) % 64) text s = (xOk, s') ∧
      Receives rootPath s'.k ∧
        Took ((last + 1) % 64) field (decodeMem s.k.par old) s s' := by
  have window := receives.wf.window
  obtain ⟨t, aligned, now, ⟨settings, free, roomNow, stored, files⟩⟩ :=
    held.aligned writable receives room
  obtain ⟨s', added, after, took⟩ := acked_holds linked now free.free roomNow
    (show 0 ≤ (last + 1) % 64 by omega) (show (last + 1) % 64 ≤ 63 by omega)
    read something short
  have next : (classify s.k ((last + 1) % 64)).isnxt = true := by
    unfold classify
    dsimp only
    rw [if_neg (held.used window), held.latest window]
    simp
  refine ⟨s', ?_, after, ?_⟩
  · unfold handleGoodRpkt
    dsimp only
    rw [next, if_pos (by simp), window, aligned, if_neg (not_not.mpr rfl)]
    unfold placeRpkt
    rw [next, if_pos rfl]
    exact added
  · obtain ⟨more, log, filing⟩ := files
    obtain ⟨calls, log', filing'⟩ := took.log
    refine ⟨?_, took.held, took.room, ?_, ⟨calls ++ more, ?_,
      filing'.append filing⟩⟩
    · exact ⟨took.settings.cfg.trans settings.cfg,
        took.settings.par.trans settings.par,
        took.settings.state.trans settings.state,
        took.settings.what.trans settings.what,
        took.settings.recvdir.trans settings.recvdir⟩
    · rw [took.stored, stored, List.append_nil]
    · rw [log', log, List.append_assoc]

/-- The first data packet of a file. -/
theorem handleGoodRpkt_first
    (linked : Linked io)
    (receives : Receives rootPath s.k)
    (nothing : NothingHeld s.k)
    (room : RoomInObuf s)
    {seq : Int}
    (lower : 0 ≤ seq)
    (upper : seq ≤ 63)
    {text field : List UInt8}
    (read : cstr text = field)
    (something : field ≠ [])
    (short : field.length < pBuflen) :
    ∃ s', handleGoodRpkt io seq text s = (xOk, s') ∧
      Receives rootPath s'.k ∧ Took seq field [] s s' := by
  have window := receives.wf.window
  obtain ⟨s', added, after, took⟩ := acked_holds linked receives nothing.free
    room lower upper read something short
  have unused : nusedRslots s.k = 0 := by
    have free := nothing.free
    unfold nusedRslots
    rw [slots_one window]
    simp
    omega
  have next : (classify s.k seq).isnxt = true := by
    unfold classify
    dsimp only
    rw [if_pos unused]
  have aligned : alignWindow io seq 1 s = (xOk, s) := by
    unfold alignWindow
    dsimp only
    rw [nothing.earliest window, if_pos (by decide)]
  refine ⟨s', ?_, after, took⟩
  unfold handleGoodRpkt
  dsimp only
  rw [next, if_pos (by simp), window, aligned, if_neg (not_not.mpr rfl)]
  unfold placeRpkt
  rw [next, if_pos rfl]
  exact added

/-- The packet that is held comes once more. -/
theorem handleGoodRpkt_again
    (linked : Linked io)
    (receives : Receives rootPath s.k)
    {seq : Int}
    {old : List UInt8}
    (held : HeldField seq old s.k)
    (text : List UInt8) :
    ∃ s', handleGoodRpkt io seq text s = (xOk, s') ∧
      Answered io (frameOf (ch 'Y') seq []) s s' := by
  have window := receives.wf.window
  have lower := held.lower
  have upper := held.upper
  obtain ⟨-, answered⟩ := ack_answers linked receives.plainly lower upper
    ackText_none
  have other : ¬ seq = (seq + 1) % 64 := by
    omega
  have found : scanOld seq ((seq + 1) % 64) 192 seq = true := by
    unfold scanOld
    rw [if_neg other, if_pos (by omega)]
  have low : (if seq - ((1 : Nat) : Int) + 1 < 0 then
      seq - ((1 : Nat) : Int) + 1 + 64 else seq - ((1 : Nat) : Int) + 1) =
        seq := by
    rw [if_neg (by omega)]
    omega
  have class_ : classify s.k seq =
      { high := seq, isnxt := false, isgap := false, isold := true } := by
    unfold classify
    dsimp only
    rw [if_neg (held.used window), held.latest window, window, low, found]
    simp [other]
  refine ⟨_, ?_, answered⟩
  unfold handleGoodRpkt
  rw [class_]
  dsimp only
  rw [if_neg (by decide)]
  unfold placeRpkt
  dsimp only
  rw [if_neg (by decide), if_neg (by decide), if_pos rfl,
    answered.ipktinfo.2, held.mapped, answered.settings.par, window,
    if_neg (by decide)]

/-! ## The end of a file -/

/-- All that was received is in the file. -/
structure Flushed
    (bytes : List UInt8)
    (s s' : Sys ω) : Prop where
  settings : SameSettings s s'
  written : writefs s'.log = storedFile s ++ bytes
  files : Files s s'

/-- The loop of `flush_to_file()` writes the packet that is held. -/
theorem HeldField.flushLoop
    (writable : Writable io)
    (receives : Receives rootPath s.k)
    {seq : Int}
    {field : List UInt8}
    (held : HeldField seq field s.k)
    (room : RoomInObuf s) :
    ∃ s', Kermit.flushLoop io 2 xOk s = (none, xOk, s') ∧
      Receives rootPath s'.k ∧ Aligned (decodeMem s.k.par field) s s' := by
  have window := receives.wf.window
  have lower := held.lower
  obtain ⟨s', decoded, now, aligned⟩ := held.written writable receives room
  refine ⟨_, ?_, now, aligned⟩
  have finished : Kermit.flushLoop io 1 xOk (freeRslot io 0 s') =
      (none, xOk, freeRslot io 0 s') := by
    unfold Kermit.flushLoop
    dsimp only
    rw [aligned.free.earliest now.wf.window, if_pos (by decide)]
  unfold Kermit.flushLoop
  dsimp only
  rw [held.earliest window, window, held.mapped, if_neg (by omega),
    if_neg (by decide), if_neg held.flg, decoded]
  dsimp only
  rw [if_neg (by decide)]
  exact finished

/-- `flush_to_file()` at the end of a file. -/
theorem HeldField.flushToFile
    (writable : Writable io)
    (receives : Receives rootPath s.k)
    {seq : Int}
    {field : List UInt8}
    (held : HeldField seq field s.k)
    (room : RoomInObuf s) :
    Receives rootPath (Kermit.flushToFile io s).2.k ∧
      Flushed (decodeMem s.k.par field) s (Kermit.flushToFile io s).2 := by
  obtain ⟨t, loop, ⟨wf, plainly, recvdir⟩, ⟨settings, free, -, stored,
    calls, log, filing⟩⟩ := held.flushLoop writable receives room
  unfold Kermit.flushToFile
  rw [receives.wf.window, loop]
  dsimp only
  by_cases pending : t.k.obufpos > 0
  · rw [if_pos pending]
    refine ⟨⟨⟨wf.noForce, wf.oneSlot, wf.window, wf.noWindowing, wf.received,
      wf.kept, wf.mapped⟩, ⟨plainly.cfg, plainly.par⟩, recvdir⟩,
      ⟨settings.cfg, settings.par, settings.state, settings.what,
        settings.recvdir⟩, ?_, ?_⟩
    · exact stored
    · have sofar : Files s t := ⟨calls, log, filing⟩
      exact sofar.trans
        (files_callWritef io (t.k.obuf.takeD t.k.obufpos 0) t)
  · rw [if_neg pending]
    refine ⟨⟨wf, plainly, recvdir⟩, settings, ?_, ⟨calls, log, filing⟩⟩
    have nothing : t.k.obufpos = 0 := by
      omega
    unfold storedFile at stored
    rw [nothing, List.takeD_zero, List.append_nil] at stored
    exact stored

end Slate106.Kermit
