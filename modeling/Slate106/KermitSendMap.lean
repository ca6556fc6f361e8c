import Slate106.KermitRetries
import Slate106.KermitRoom
import Slate106.KermitSender

namespace Slate106.Kermit

open CBytes

/-!
# The map of the send window

`s_pw` maps the number of the packet in the send slot to the slot, and every
other number to nothing.  Each packet that is kept is written into the map
under `s_seq`, once by the caller and once by `spkt()`, and it is freed under
the number it was sent with, so the two have to agree.  They do not where
`rpar()` sends S: that packet has the number zero, whatever `s_seq` is.
-/

variable {ω : Type}

/-! ## Numbers of sent packets -/

/-- The number of the last packet sent is one. -/
def Numbered
    (k : KData) : Prop :=
  0 ≤ k.sSeq ∧ k.sSeq ≤ 63

section Functions

variable {io : Io ω}
variable {s : Sys ω}

private theorem numbered_spktBuild
    {confused : Sys ω → Sys ω}
    (keeps : ∀ s, Numbered s.k → Numbered (confused s).k)
    (typ : UInt8)
    {seq : Int}
    (inRange : 0 ≤ seq ∧ seq ≤ 63)
    (bytes : List UInt8)
    (slot : Option Int)
    (numbered : Numbered s.k) :
    Numbered (spktBuild io confused typ seq bytes slot s).2.k := by
  have forced : Numbered (forceBcta3 s.k) := by
    rw [forceBcta3_eq]
    exact numbered
  unfold spktBuild
  dsimp only
  generalize forceBcta3 s.k = k at forced
  cases slot with
  | none =>
      split
      · exact keeps _ forced
      · split
        · exact forced
        · exact inRange
  | some slot =>
      split
      · exact keeps _ forced
      · split
        · exact forced
        · exact inRange

private theorem numbered_spktWith
    {confused : Sys ω → Sys ω}
    (keeps : ∀ s, Numbered s.k → Numbered (confused s).k)
    (typ : UInt8)
    (seq len : Int)
    (text : Option (List UInt8))
    (numbered : Numbered s.k) :
    Numbered (spktWith io confused typ seq len text s).2.k := by
  have taken : ∀ count, Numbered (spktSlot typ seq count s.k).2 := by
    intro count
    unfold spktSlot
    dsimp only
    split
    · rw [getSslot_shape]
      exact numbered
    · rw [takeSslot_shape]
      exact numbered
  unfold spktWith
  split
  · exact numbered
  · rename_i inside
    have inRange : 0 ≤ seq ∧ seq ≤ 63 := by
      simpa using inside
    dsimp only
    split
    · exact numbered_spktBuild keeps typ inRange _ _ numbered
    · split
      · exact taken _
      · exact numbered_spktBuild keeps typ inRange _ _ (taken _)

private theorem numbered_epktWith
    {confused : Sys ω → Sys ω}
    (keeps : ∀ s, Numbered s.k → Numbered (confused s).k)
    (msg : List UInt8)
    (numbered : Numbered s.k) :
    Numbered (epktWith io confused msg s).k := by
  have set : ∀ bct, Numbered (setBct bct s).k := fun _ => numbered
  unfold epktWith
  exact numbered_spktWith keeps (ch 'E') 0 (-1) (some msg) (set _)

theorem numbered_spktConfused
    (numbered : Numbered s.k) :
    Numbered (spktConfused io s).k :=
  numbered_epktWith (fun _ still => still) _ numbered

theorem numbered_spkt
    (typ : UInt8)
    (seq len : Int)
    (text : Option (List UInt8))
    (numbered : Numbered s.k) :
    Numbered (spkt io typ seq len text s).2.k :=
  numbered_spktWith (fun _ => numbered_spktConfused) typ seq len text numbered

theorem numbered_epkt
    (msg : List UInt8)
    (numbered : Numbered s.k) :
    Numbered (epkt io msg s).k :=
  numbered_epktWith (fun _ => numbered_spktConfused) msg numbered

end Functions

/-! ## The slot and the map -/

/-- What every part of a call leaves as it is. -/
structure Steady
    (k : KData) : Prop where
  wf : Wf k
  numbered : Numbered k
  roomy : Roomy k

/-- The length and the number of the packet in the slot, and the map. -/
def seat
    (k : KData) : (Int × Int) × (Int → Int) :=
  (((k.win.opktinfo 0).len, (k.win.opktinfo 0).seq), k.win.sPw)

/-- The fields that say whether a session is steady, and where its packet is. -/
def ledger
    (k : KData) : Config × Params × List UInt8 × Windows × Int :=
  (k.cfg, k.par, k.enc.sRemain, k.win, k.sSeq)

/-- The slot holds a packet, which alone is in the map. -/
structure Filed
    (k : KData) : Prop where
  steady : Steady k
  full : 1 ≤ (k.win.opktinfo 0).len
  number : 0 ≤ (k.win.opktinfo 0).seq ∧ (k.win.opktinfo 0).seq ≤ 63
  mapped :
    ∀ seq, k.win.sPw seq = if seq = (k.win.opktinfo 0).seq then 0 else -1

/-- The slot is free, and nothing is in the map. -/
structure Emptied
    (k : KData) : Prop where
  steady : Steady k
  free : (k.win.opktinfo 0).len < 1
  mapped : ∀ seq, k.win.sPw seq = -1

/-- The slot is free, or taken for the packet that will be sent next. -/
structure Clear
    (k : KData) : Prop where
  steady : Steady k
  free : (k.win.opktinfo 0).len < 1
  mapped : ∀ seq, seq ≠ k.sSeq → k.win.sPw seq = -1

/-- The packet in the slot and the map are left alone. -/
structure Aside
    (k k' : KData) : Prop where
  seat : seat k' = seat k
  steady : Steady k → Steady k'

section Seats

variable {io : Io ω}
variable {s t : Sys ω}
variable {k k' k'' : KData}

theorem Steady.ledger
    (steady : Steady k)
    (same : ledger k' = ledger k) :
    Steady k' := by
  simp only [Kermit.ledger, Prod.mk.injEq] at same
  obtain ⟨cfg, par, sRemain, win, sSeq⟩ := same
  obtain ⟨⟨noForce, oneSlot, window, noWindowing, received, kept, mapped⟩,
    ⟨lower, upper⟩, ⟨small, few⟩⟩ := steady
  rw [← cfg] at noForce oneSlot
  rw [← par] at window noWindowing small
  rw [← win] at received kept mapped
  rw [← sSeq] at lower upper
  rw [← sRemain] at few
  exact ⟨⟨noForce, oneSlot, window, noWindowing, received, kept, mapped⟩,
    ⟨lower, upper⟩, ⟨small, few⟩⟩

theorem seat_eq
    (same : seat k' = seat k) :
    (k'.win.opktinfo 0).len = (k.win.opktinfo 0).len ∧
      (k'.win.opktinfo 0).seq = (k.win.opktinfo 0).seq ∧
      k'.win.sPw = k.win.sPw := by
  simpa only [seat, Prod.mk.injEq, and_assoc] using same

theorem Aside.of_ledger
    (same : ledger k' = ledger k) :
    Aside k k' := by
  refine ⟨?_, fun steady => steady.ledger same⟩
  simp only [ledger, Prod.mk.injEq] at same
  unfold Kermit.seat
  rw [same.2.2.2.1]

theorem Aside.trans
    (first : Aside k k')
    (second : Aside k' k'') :
    Aside k k'' :=
  ⟨second.seat.trans first.seat, fun steady =>
    second.steady (first.steady steady)⟩

theorem Filed.aside
    (filed : Filed k)
    (aside : Aside k k') :
    Filed k' := by
  obtain ⟨len, seq, sPw⟩ := seat_eq aside.seat
  refine ⟨aside.steady filed.steady, ?_, ?_, ?_⟩
  · rw [len]
    exact filed.full
  · rw [seq]
    exact filed.number
  · rw [seq, sPw]
    exact filed.mapped

theorem Emptied.aside
    (emptied : Emptied k)
    (aside : Aside k k') :
    Emptied k' := by
  obtain ⟨len, -, sPw⟩ := seat_eq aside.seat
  refine ⟨aside.steady emptied.steady, ?_, ?_⟩
  · rw [len]
    exact emptied.free
  · rw [sPw]
    exact emptied.mapped

theorem Clear.aside
    (clear : Clear k)
    (aside : Aside k k')
    (number : k'.sSeq = k.sSeq) :
    Clear k' := by
  obtain ⟨len, -, sPw⟩ := seat_eq aside.seat
  refine ⟨aside.steady clear.steady, ?_, ?_⟩
  · rw [len]
    exact clear.free
  · rw [number, sPw]
    exact clear.mapped

theorem Emptied.clear
    (emptied : Emptied k) :
    Clear k :=
  ⟨emptied.steady, emptied.free, fun seq _ => emptied.mapped seq⟩

theorem Filed.busy
    (filed : Filed k) :
    Busy k :=
  ⟨filed.steady.wf, filed.full⟩

/-! ## What leaves the packet alone -/

/-- Packets that are not kept leave the slot alone. -/
theorem aside_transmits
    (chores : Chores io s t)
    (transmits : Transmits s t)
    (numbered : Numbered s.k → Numbered t.k) :
    Aside s.k t.k := by
  have window := chores.window
  refine ⟨?_, fun steady => ⟨chores.works.wf steady.wf,
    numbered steady.numbered, transmits.roomy steady.roomy⟩⟩
  unfold seat
  rw [window.opktinfo, window.sPw]

theorem aside_setState
    (state : State)
    (s : Sys ω) :
    Aside s.k (setState state s).k :=
  .of_ledger rfl

theorem aside_setWhat
    (what : What)
    (s : Sys ω) :
    Aside s.k (setWhat what s).k :=
  .of_ledger rfl

theorem aside_awaitSent
    (s : Sys ω) :
    Aside s.k (awaitSent s).2.k :=
  .of_ledger rfl

theorem aside_endInput
    (io : Io ω)
    (s : Sys ω) :
    Aside s.k (endInput io s).k :=
  .of_ledger rfl

theorem aside_epkt
    (msg : List UInt8)
    (s : Sys ω) :
    Aside s.k (epkt io msg s).k :=
  aside_transmits (chores_epkt msg s) (transmits_epkt msg s)
    (numbered_epkt msg)

theorem aside_spkt
    {typ : UInt8}
    (kind : isUnslotted typ = true)
    (seq len : Int)
    (text : Option (List UInt8))
    (s : Sys ω) :
    Aside s.k (spkt io typ seq len text s).2.k :=
  aside_transmits (chores_spkt kind seq len text s)
    (transmits_spkt typ seq len text s) (numbered_spkt typ seq len text)

theorem aside_ack
    (seq : Int)
    (text : Option (List UInt8))
    (s : Sys ω) :
    Aside s.k (ack io seq text s).2.k := by
  have sent : ∀ len text, Aside s.k (spkt io (ch 'Y') seq len text s).2.k :=
    fun len text => aside_spkt (by decide) seq len text s
  unfold ack
  dsimp only
  split
  · exact (sent _ _).trans (.of_ledger rfl)
  · exact sent _ _

/-- A session that only counted a retransmission. -/
theorem Undisturbed.aside
    (same : Undisturbed s t)
    (wf : Wf t.k) :
    Aside s.k t.k := by
  obtain ⟨rtr, slot⟩ := same.opktinfo 0
  refine ⟨?_, fun steady => ⟨wf, ?_, ?_, ?_⟩⟩
  · unfold seat
    rw [slot, same.sPw]
  · unfold Numbered
    rw [same.sSeq]
    exact steady.numbered
  · rw [same.par]
    exact steady.roomy.small
  · rw [same.enc]
    exact steady.roomy.few

theorem aside_resend
    (wf : Wf s.k)
    (seq : Int) :
    Aside s.k (resend io seq s).2.k :=
  (resend_undisturbed wf io seq).1.aside ((works_resend seq s).wf wf)

/-- Parameters that are as short leave the slot alone. -/
theorem aside_params
    {par : Params}
    (wslots : par.wslots = k.par.wslots)
    (capas : par.capas = k.par.capas)
    (sMaxlen : par.sMaxlen = k.par.sMaxlen) :
    Aside k { k with par := par } := by
  refine ⟨rfl, fun steady => ⟨?_, steady.numbered, ?_, steady.roomy.few⟩⟩
  · obtain ⟨noForce, oneSlot, window, noWindowing, received, kept, mapped⟩ :=
      steady.wf
    rw [← wslots] at window
    rw [← capas] at noWindowing
    exact ⟨noForce, oneSlot, window, noWindowing, received, kept, mapped⟩
  · exact sMaxlen ▸ steady.roomy.small

theorem aside_setBct
    (bct : Nat)
    (s : Sys ω) :
    Aside s.k (setBct bct s).k :=
  aside_params rfl rfl rfl

theorem aside_requestEbq
    (k : KData) :
    Aside k { k with par := requestEbq k.par } := by
  unfold requestEbq
  split
  · exact aside_params rfl rfl rfl
  · exact .of_ledger rfl

theorem aside_spar
    (io : Io ω)
    (pdf : Nat)
    (datalen : Int)
    (s : Sys ω) :
    Aside s.k (onK (spar pdf datalen) s).k :=
  ⟨rfl, fun steady =>
    ⟨(Work.spar pdf datalen s : Work io s _).wf steady.wf, steady.numbered,
      steady.roomy.spar pdf datalen⟩⟩

theorem aside_pokeXdata
    (offset : Nat)
    (bytes : List UInt8)
    (k : KData) :
    Aside k (pokeXdata offset bytes k) ∧
      (pokeXdata offset bytes k).sSeq = k.sSeq := by
  obtain ⟨_, _, same⟩ := pokeXdata_shape offset bytes k
  rw [same]
  exact ⟨.of_ledger rfl, rfl⟩

/-- The acknowledgment of S. -/
theorem aside_rpar
    (s : Sys ω) :
    Aside s.k (rpar io (ch 'Y') s).2.k := by
  have asked : Aside s.k (setBct (rparBct s.k.cfg)
      { s with k.par := requestEbq s.k.par }).k :=
    (aside_requestEbq s.k).trans
      (aside_setBct (rparBct s.k.cfg) { s with k.par := requestEbq s.k.par })
  unfold rpar rparSend
  dsimp only
  rw [if_pos rfl]
  exact (asked.trans (aside_ack _ _ _)).trans (aside_setBct _ _)

theorem Fills.aside
    (fills : Fills s t)
    (chores : Chores io s t)
    (roomy : Roomy t.k) :
    Aside s.k t.k ∧ t.k.sSeq = s.k.sSeq := by
  have window := chores.window
  have number : t.k.sSeq = s.k.sSeq := by
    obtain ⟨_, _, _, _, _, _, rfl⟩ := fills
    rfl
  refine ⟨⟨?_, fun steady => ⟨chores.works.wf steady.wf, ?_, roomy⟩⟩, number⟩
  · unfold seat
    rw [window.opktinfo, window.sPw]
  · unfold Numbered
    rw [number]
    exact steady.numbered

theorem aside_getpkt
    (io : Io ω)
    (steady : Steady s.k) :
    Aside s.k (getpkt io s).2.k ∧ (getpkt io s).2.k.sSeq = s.k.sSeq := by
  obtain ⟨fills, roomy⟩ := getpkt_fills io steady.wf.noForce steady.roomy
  exact fills.aside (chores_getpkt s) roomy

theorem aside_encstr
    (io : Io ω)
    (text : StrRef)
    (steady : Steady s.k) :
    Aside s.k (encstr io text s).2.k := by
  obtain ⟨fills, roomy⟩ :=
    encstr_fills io text steady.wf.noForce steady.roomy
  exact (fills.aside (chores_encstr text s) roomy).1

/-! ## What takes the slot -/

theorem Steady.takeSslot
    (io : Io ω)
    (steady : Steady s.k) :
    Steady (Kermit.takeSslot s.k).2 := by
  have taken : Works io s (onK (fun k => (Kermit.takeSslot k).2) s) :=
    works_takeSslot s
  have wf : Wf (Kermit.takeSslot s.k).2 := taken.wf steady.wf
  obtain ⟨-, numbered, small, few⟩ := steady
  rw [takeSslot_shape] at wf ⊢
  exact ⟨wf, numbered, small, few⟩

/-- The slot is taken, and written into the map under `s_seq`. -/
theorem takeSslot_free
    (wf : Wf k)
    (free : (k.win.opktinfo 0).len < 1) :
    (takeSslot k).2 =
      { k with
        win :=
          { k.win with
            opktinfo := put k.win.opktinfo 0
              { k.win.opktinfo 0 with
                len := -1, seq := -1, typ := ch ' ', rtr := 0, flg := 0 }
            sPw := put k.win.sPw k.sSeq 0 } } := by
  rw [takeSslot, getSslot_free wf.window free]
  rfl

theorem Clear.takeSslot
    (io : Io ω)
    (clear : Clear s.k) :
    Clear (Kermit.takeSslot s.k).2 := by
  have steady := clear.steady.takeSslot io
  rw [takeSslot_free clear.steady.wf clear.free] at steady ⊢
  refine ⟨steady, ?_, ?_⟩
  · simp
  · intro seq other
    exact (put_other _ other _).trans (clear.mapped seq other)

theorem Emptied.nxtpkt
    (emptied : Emptied k) :
    Emptied (Kermit.nxtpkt k) := by
  obtain ⟨⟨wf, -, small, few⟩, free, mapped⟩ := emptied
  refine ⟨⟨⟨wf.noForce, wf.oneSlot, wf.window, wf.noWindowing, wf.received,
    wf.kept, wf.mapped⟩, ⟨?_, ?_⟩, small, few⟩, free, mapped⟩
  · exact Int.emod_nonneg _ (by decide)
  · have below : (k.sSeq + 1) % 64 < 64 := Int.emod_lt_of_pos _ (by decide)
    exact Int.le_of_lt_add_one below

/-- A packet that is kept is in the slot under its number, sent or not. -/
theorem spkt_seat
    (wf : Wf s.k)
    (free : (s.k.win.opktinfo 0).len < 1)
    {typ : UInt8}
    (kind : isUnslotted typ = false)
    {seq : Int}
    (lower : 0 ≤ seq)
    (upper : seq ≤ 63)
    (len : Int)
    (text : Option (List UInt8)) :
    ∃ count : Int, 1 ≤ count ∧
      seat (spkt io typ seq len text s).2.k =
        ((count, seq), put s.k.win.sPw s.k.sSeq 0) := by
  have slot : (getSslot s.k).1 = 0 := by
    rw [getSslot_free wf.window free]
  have taken := takeSslot_free wf free
  have size : pBuflen = 1008 := rfl
  have stored : ∀ (count : Nat) buf,
      seat (filled 0 typ seq count buf (takeSslot s.k).2) =
        (((count : Int), seq), put s.k.win.sPw s.k.sSeq 0) := by
    intro count buf
    rw [taken]
    simp [seat, filled, forceBcta3_eq]
  have header :=
    length_pktHeader (inForce s.k) typ seq (spktData len text).length
  have longer := length_pktFrame_le (forceBcta3 s.k).par typ seq
    (spktData len text)
  have shape :
      spktWith io (spktConfused io) typ seq len text s = _ :=
    spktWith_slotted io (spktConfused io) kind lower upper (by omega)
  unfold spkt
  rw [shape]
  dsimp only
  rw [slot]
  split
  · rename_i confused
    have quiet := (@chores_spktConfused _ io
      { s with
        k := filled 0 typ seq (spktData len text).length
          ((sentFrame typ seq (spktData len text) s.k).take pBuflen)
          (takeSslot s.k).2 }).window
    refine ⟨(spktData len text).length, by omega, ?_⟩
    rw [← stored]
    unfold seat
    rw [quiet.opktinfo, quiet.sPw]
  · split
    · rename_i long
      unfold sentFrame at long
      exact ⟨(spktData len text).length, by omega, stored _ _⟩
    · refine ⟨(sentFrame typ seq (spktData len text) s.k).length, ?_, ?_⟩
      · have more := le_length_pktFrame (forceBcta3 s.k).par typ seq
          (spktData len text)
        unfold sentFrame
        omega
      · have same := stored (sentFrame typ seq (spktData len text) s.k).length
          (sentFrame typ seq (spktData len text) s.k ++ [0])
        unfold callTxd loaded
        rw [slot]
        exact same

theorem Steady.spkt
    (io : Io ω)
    (steady : Steady s.k)
    (typ : UInt8)
    (seq len : Int)
    (text : Option (List UInt8)) :
    Steady (spkt io typ seq len text s).2.k :=
  ⟨(works_spkt typ seq len text s).wf steady.wf,
    numbered_spkt typ seq len text steady.numbered,
    (transmits_spkt typ seq len text s).roomy steady.roomy⟩

/-- A packet with the number `s_seq` is the one in the map. -/
theorem spkt_files
    (clear : Clear s.k)
    {typ : UInt8}
    (kind : isUnslotted typ = false)
    {seq : Int}
    (current : seq = s.k.sSeq)
    (len : Int)
    (text : Option (List UInt8)) :
    Filed (spkt io typ seq len text s).2.k := by
  have steady := clear.steady.spkt io typ seq len text
  obtain ⟨lower, upper⟩ := clear.steady.numbered
  rw [← current] at lower upper
  obtain ⟨count, some, same⟩ :=
    @spkt_seat _ io _ clear.steady.wf clear.free _ kind _ lower upper len text
  obtain ⟨length, sequence, sPw⟩ :
      ((spkt io typ seq len text s).2.k.win.opktinfo 0).len = count ∧
        ((spkt io typ seq len text s).2.k.win.opktinfo 0).seq = seq ∧
        (spkt io typ seq len text s).2.k.win.sPw =
          put s.k.win.sPw s.k.sSeq 0 := by
    simpa only [seat, Prod.mk.injEq, and_assoc] using same
  refine ⟨steady, by rwa [length], by rw [sequence]; exact ⟨lower, upper⟩, ?_⟩
  intro other
  rw [sPw, sequence, ← current]
  by_cases isSame : other = seq
  · rw [isSame, put_same, if_pos rfl]
  · rw [put_other _ isSame, if_neg isSame]
    exact clear.mapped other (current ▸ isSame)

/-- `sdata()` sends nothing and leaves the slot to be filled, or fills it. -/
theorem sdata_files
    (clear : Clear s.k) :
    ((sdata io s).1 = 0 ∧ Clear (sdata io s).2.k ∧
        (sdata io s).2.k.sSeq = s.k.sSeq) ∨
      ((sdata io s).1 ≠ 0 ∧ Filed (sdata io s).2.k) := by
  obtain ⟨aside, number⟩ := aside_getpkt io clear.steady
  have packed := clear.aside aside number
  unfold sdata
  dsimp only
  split
  · exact Or.inl ⟨rfl, clear, rfl⟩
  · split
    · exact Or.inl ⟨rfl, packed, number⟩
    · refine Or.inr ⟨?_, spkt_files packed (by decide) rfl _ _⟩
      split
      · exact show xError ≠ 0 by decide
      · omega

theorem sattr_files
    (clear : Clear s.k) :
    Filed (sattr io s).2.k := by
  obtain ⟨t, name, data, -, stored, -, -, route⟩ := sattr_shape io s
  have ready : Clear t.k := by
    let binary := (io.finfo s.w name s.k.par.binary).2.2.1
    have told : Aside s.k { s.k with par.binary := binary } :=
      aside_params rfl rfl rfl
    obtain ⟨poked, number⟩ := aside_pokeXdata 0 (data ++ [0])
      { s.k with par.binary := binary }
    rw [stored]
    exact clear.aside (told.trans poked) number
  have free : ¬ (getSslot t.k).1 < 0 := by
    rw [getSslot_free ready.steady.wf.window ready.free]
    exact show ¬ ((0 : Int) < 0) by decide
  rw [route, if_neg free]
  exact spkt_files (s := onK (fun k => (takeSslot k).2) t)
    (ready.takeSslot io) (by decide) rfl _ _

/-- `rpar()` takes the slot under `s_seq` and sends S with the number zero. -/
theorem rpar_route
    (io : Io ω)
    (emptied : Emptied s.k) :
    ∃ u d bct,
      Clear u.k ∧ u.k.sSeq = s.k.sSeq ∧
        rpar io (ch 'S') s =
          (let sent := spkt io (ch 'S') 0 13 (some d) u
          (sent.1, setBct bct sent.2)) := by
  obtain ⟨d, route⟩ := rpar_unforced io emptied.steady.wf.noForce
  have asked : Aside s.k
      (setBct 1 { s with k.par := requestEbq s.k.par }).k :=
    (aside_requestEbq s.k).trans
      (aside_setBct 1 { s with k.par := requestEbq s.k.par })
  have ready := emptied.aside asked
  have number : (setBct 1 { s with k.par := requestEbq s.k.par }).k.sSeq =
      s.k.sSeq := rfl
  rw [route]
  generalize setBct 1 { s with k.par := requestEbq s.k.par } = t
    at ready number
  have free : ¬ (getSslot t.k).1 < 0 := by
    rw [getSslot_free ready.steady.wf.window ready.free]
    exact show ¬ ((0 : Int) < 0) by decide
  have sent : rparSend io (ch 'S') d t =
      spkt io (ch 'S') 0 13 (some d)
        (onK (fun k => (takeSslot k).2) t) := by
    unfold rparSend
    rw [if_neg (by decide), if_pos rfl]
    exact if_neg free
  have stored := takeSslot_free ready.steady.wf ready.free
  refine ⟨onK (fun k => (takeSslot k).2) t, d, s.k.par.bct,
    ready.clear.takeSslot io, ?_, ?_⟩
  · show (takeSslot t.k).2.sSeq = s.k.sSeq
    rw [stored]
    exact number
  · dsimp only
    rw [sent]

/-- That is the same as long as `s_seq` is zero. -/
theorem rpar_files
    (emptied : Emptied s.k)
    (zero : s.k.sSeq = 0) :
    Filed (rpar io (ch 'S') s).2.k := by
  obtain ⟨u, d, bct, clear, number, route⟩ := rpar_route io emptied
  rw [route]
  have current : 0 = u.k.sSeq := (number.trans zero).symm
  exact (spkt_files clear (by decide) current 13 (some d)).aside
    (aside_setBct bct _)

/-! ## The acknowledgment of the packet -/

/-- The ACK to the packet in the slot frees the slot. -/
theorem Filed.acknowledge
    (io : Io ω)
    (filed : Filed s.k) :
    Emptied (Kermit.acknowledge 0 s.k) := by
  obtain ⟨steady, full, ⟨lower, upper⟩, mapped⟩ := filed
  have acked : Works io s (onK (Kermit.acknowledge 0) s) :=
    .of (.acknowledge 0 s)
  have wf : Wf (Kermit.acknowledge 0 s.k) := acked.wf steady.wf
  have freed : Kermit.acknowledge 0 s.k =
      freeSslot 0
        { s.k with
          win.opktinfo := put s.k.win.opktinfo 0
            { s.k.win.opktinfo 0 with flg := 1 } } := by
    refine freeSslotEasca_one steady.wf.window steady.numbered ?_ ?_ ?_ ?_
    · simpa using lower
    · simpa using upper
    · simp [mapped]
    · simp
  have inRange : isSeq (s.k.win.opktinfo 0).seq = true := by
    simp [isSeq]
    omega
  rw [freed] at wf ⊢
  unfold freeSslot at wf ⊢
  rw [if_neg (by decide)] at wf ⊢
  dsimp only at wf ⊢
  refine ⟨⟨wf, steady.numbered, steady.roomy.small, steady.roomy.few⟩, ?_, ?_⟩
  · simp
  · intro seq
    simp only [put_same, inRange, if_true]
    by_cases same : seq = (s.k.win.opktinfo 0).seq
    · rw [same, put_same]
    · rw [put_other _ same, mapped, if_neg same]

/-! ## Sending a file -/

/-- A packet is in the slot, unless an error is returned. -/
def Refiles
    (result : Int × Sys ω) : Prop :=
  result.1 ≠ xError → Filed result.2.k

/-- After `nxtpkt()` the slot is taken. -/
theorem Emptied.nextSlot
    (io : Io ω)
    (emptied : Emptied s.k) :
    Clear (onK (fun k => (takeSslot (Kermit.nxtpkt k)).2) s).k :=
  Clear.takeSslot (s := onK Kermit.nxtpkt s) io emptied.nxtpkt.clear

theorem refiles_cancelSend
    (emptied : Emptied s.k)
    (p : Rcvd) :
    Refiles (cancelSend io p s) := by
  intro _
  have closed : Emptied (callClosef io 0 1 s).2.k :=
    emptied.aside (.of_ledger rfl)
  have sent := @spkt_files _ io _ (closed.nextSlot io) (ch 'Z') (by decide) _
    rfl 0 none
  unfold cancelSend
  dsimp only
  generalize spkt io (ch 'Z') _ 0 none _ = result at sent
  split
  · exact sent
  · split
    · exact sent.aside (.of_ledger rfl)
    · exact sent.aside (.of_ledger rfl)

theorem refiles_sendBreak
    (emptied : Emptied s.k) :
    Refiles (sendBreak io s) := by
  intro _
  have named : Emptied { s with k.filename := none }.k :=
    emptied.aside (.of_ledger rfl)
  have slot : (getSslot { s with k.filename := none }.k).1 = 0 := by
    rw [getSslot_free named.steady.wf.window named.free]
  have refused : ¬ ((decide ((0 : Int) < 0) ||
      decide ((0 : Int) ≥ s.k.par.wslots)) = true) := by
    rw [emptied.steady.wf.window]
    decide
  have taken := named.clear.takeSslot io
  have sent := @spkt_files _ io
    (onK (fun k => (takeSslot k).2) { s with k.filename := none }) taken
    (ch 'B') (by decide) _ rfl 0 none
  unfold sendBreak
  dsimp only
  rw [slot, if_neg refused]
  split
  · exact sent
  · exact sent.aside ((aside_setState _ _).trans (aside_awaitSent _))

theorem refiles_firstData
    (emptied : Emptied s.k) :
    Refiles (firstData io s) := by
  have taken := emptied.clear.takeSslot io
  unfold firstData
  dsimp only
  rcases @sdata_files _ io (onK (fun k => (takeSslot k).2) s) taken with
    ⟨nothing, clear, -⟩ | ⟨some, filed⟩
  · rw [if_neg (by rw [nothing]; decide), if_pos nothing]
    intro _
    have sent := @spkt_files _ io (onK (fun k => (takeSslot k).2) _)
      (clear.takeSslot io) (ch 'Z') (by decide) _ rfl 0 none
    split
    · exact sent
    · exact sent.aside ((aside_endInput io _).trans (aside_awaitSent _))
  · rw [if_neg some]
    split
    · exact fun failed => absurd rfl failed
    · exact fun _ =>
        filed.aside ((aside_setState _ _).trans (aside_awaitSent _))

theorem refiles_afterFile
    (emptied : Emptied s.k) :
    Refiles (afterFile io s) := by
  have next : Emptied (onK nxtpkt s).k := emptied.nxtpkt
  unfold afterFile
  dsimp only
  split
  · intro _
    have sent := @sattr_files _ io _ next.clear
    split
    · exact sent
    · exact sent.aside ((aside_setState _ _).trans (aside_awaitSent _))
  · exact refiles_firstData next

theorem refiles_afterData
    (emptied : Emptied s.k) :
    Refiles (afterData io s) := by
  have begun :
      Emptied (if s.k.state = .sAttr then setState .sData s else s).k := by
    split
    · exact emptied.aside (.of_ledger rfl)
    · exact emptied
  unfold afterData
  dsimp only
  generalize (if s.k.state = .sAttr then setState .sData s else s) = t
    at begun
  have slot : (getSslot t.k).1 = 0 := by
    rw [getSslot_free begun.steady.wf.window begun.free]
  have taken : Clear
      (onK (fun k => mapSseq 0 (nxtpkt k))
        (onK (fun k => (getSslot k).2) t)).k := by
    have next : Clear (takeSslot (nxtpkt t.k)).2 := begun.nextSlot io
    rw [takeSslot_free begun.nxtpkt.steady.wf begun.nxtpkt.free] at next
    simp only [onK]
    rw [getSslot_free begun.steady.wf.window begun.free]
    exact next
  rw [slot, if_neg (by decide)]
  generalize
    onK (fun k => mapSseq 0 (nxtpkt k)) (onK (fun k => (getSslot k).2) t) = u
    at taken
  rcases @sdata_files _ io u taken with
    ⟨nothing, clear, number⟩ | ⟨some, filed⟩
  · rw [if_neg (by rw [nothing]; decide), if_pos nothing]
    intro _
    have ended := clear.aside (aside_endInput io (sdata io u).2) rfl
    have sent := @spkt_files _ io _ ended (ch 'Z') (by decide) _ rfl 0 none
    split
    · exact sent
    · exact sent.aside (aside_awaitSent _)
  · rw [if_neg some]
    split
    · exact fun failed => absurd rfl failed
    · exact fun _ => filed.aside (aside_awaitSent _)

/-! ## Sending a listing -/

/-- The states of a transaction in which a listing is sent. -/
def listerStates : List State :=
  [.sInit, .sText, .sData, .sEof, .sEot]

/-- A listing is being sent. -/
def Lister
    (s : Sys ω) : Prop :=
  (phase s).1 ∈ listerStates ∧ (phase s).2 = .dir

theorem Lister.same
    (lister : Lister s)
    (same : phase t = phase s) :
    Lister t := by
  unfold Lister
  rw [same]
  exact lister

theorem Lister.to
    (lister : Lister s)
    (state : State)
    (next : state ∈ listerStates)
    (same : phase t = (state, (phase s).2)) :
    Lister t := by
  unfold Lister
  rw [same]
  exact ⟨next, lister.2⟩

/-- A listing is being sent, and its packet is in the slot, or an error. -/
def Lists
    (result : Int × Sys ω) : Prop :=
  result.1 ≠ xError → Filed result.2.k ∧ Lister result.2

theorem lists_dirAckEof
    (emptied : Emptied s.k)
    (lister : Lister s) :
    Lists (dirAckEof io s) := by
  have sent := @spkt_files _ io _ (emptied.nextSlot io) (ch 'B') (by decide) _
    rfl 0 none
  unfold dirAckEof
  dsimp only
  split
  · exact fun failed => absurd rfl failed
  · exact fun _ => ⟨sent.aside (aside_setState _ _),
      lister.to .sEot (by decide) (by simp)⟩

theorem lists_dirAckData
    (emptied : Emptied s.k)
    (lister : Lister s) :
    Lists (dirAckData io s) := by
  have sent := @spkt_files _ io _ (emptied.nextSlot io) (ch 'Z') (by decide) _
    rfl 0 none
  unfold dirAckData
  dsimp only
  split
  · exact fun _ => ⟨sent.aside (aside_setState _ _),
      lister.to .sEof (by decide) (by simp)⟩
  · exact fun _ => ⟨sent.aside (aside_epkt _ _), lister.same (by simp)⟩

theorem lists_dirAckInit
    (emptied : Emptied s.k)
    (lister : Lister s) :
    Lists (dirAckInit io s) := by
  have titled : Emptied (putTitle s).k := emptied.aside (.of_ledger rfl)
  have encoded := titled.aside
    (aside_encstr io .obuf (s := putTitle s) titled.steady)
  have same : phase (encstr io .obuf (putTitle s)).2 = phase s := by
    simp
  unfold dirAckInit
  dsimp only
  generalize (encstr io .obuf (putTitle s)).2 = u at encoded same
  have taken : Clear (onK (fun k => resetBct (takeSslot k).2) u).k :=
    (encoded.clear.takeSslot io).aside (aside_params rfl rfl rfl) rfl
  have listed := phase_listSlot u
  generalize onK (fun k => resetBct (takeSslot k).2) u = v at taken listed
  have sent : Filed (spktXdata io (ch 'X') v).2.k :=
    spkt_files taken (by decide) rfl _ _
  split
  · exact fun failed => absurd rfl failed
  · exact fun _ => ⟨sent.aside (aside_setState _ _),
      lister.to .sText (by decide) (by simp [listed, same])⟩

theorem lists_dirAckText
    (emptied : Emptied s.k)
    (lister : Lister s)
    (p : Rcvd) :
    Lists (dirAckText io p s) := by
  have noted : Clear (noteDirname p (onK (fun k => (takeSslot k).2) s)).k :=
    (emptied.clear.takeSslot io).aside (.of_ledger rfl) rfl
  have same : phase (noteDirname p (onK (fun k => (takeSslot k).2) s)) =
      phase s := by
    simp
  unfold dirAckText
  dsimp only
  generalize noteDirname p (onK (fun k => (takeSslot k).2) s) = u
    at noted same
  split
  · exact fun failed => absurd rfl failed
  · generalize (callGetdirdata io u).2.1 = listing
    have put : Clear
        (putListing p listing (callGetdirdata io u).2.2).k :=
      noted.aside (.of_ledger rfl) rfl
    have still : phase (putListing p listing (callGetdirdata io u).2.2) =
        phase s := by
      simp [same]
    generalize putListing p listing (callGetdirdata io u).2.2 = v
      at put still
    have sent : Filed (spktXdata io (ch 'D') v).2.k :=
      spkt_files put (by decide) rfl _ _
    split
    · intro _
      have told := phase_setState .sData (spktXdata io (ch 'D') v).2
      rw [phase_spktXdata, still] at told
      exact ⟨sent.aside (.of_ledger rfl), lister.to .sData (by decide) told⟩
    · exact fun _ =>
        ⟨sent.aside (aside_epkt _ _), lister.same (by simp [still])⟩

/-! ## A call -/

/-- If the slot holds a packet, it alone is in the map; else nothing is. -/
structure SendMapExact
    (k : KData) : Prop where
  filed :
    0 < (k.win.opktinfo 0).len →
      k.win.sPw (k.win.opktinfo 0).seq = 0 ∧
        ∀ seq, isSeq seq → seq ≠ (k.win.opktinfo 0).seq →
          k.win.sPw seq = -1
  empty :
    (k.win.opktinfo 0).len = 0 → ∀ seq, isSeq seq → k.win.sPw seq = -1

theorem Filed.exactMap
    (filed : Filed k) :
    SendMapExact k := by
  have full := filed.full
  refine ⟨fun _ => ⟨?_, fun seq _ other => ?_⟩, fun empty => by omega⟩
  · rw [filed.mapped, if_pos rfl]
  · rw [filed.mapped, if_neg other]

theorem Emptied.exactMap
    (emptied : Emptied k) :
    SendMapExact k := by
  have free := emptied.free
  exact ⟨fun full => by omega, fun _ seq _ => emptied.mapped seq⟩

/-- The server waits for a request or receives files. -/
structure Waits
    (s : Sys ω) : Prop where
  what : s.k.what = .recv
  state :
    (s.k.state = .rWait ∧ s.k.sSeq = 0) ∨ s.k.state = .rFile ∨
      s.k.state = .rAttr

/-- The map in the turns of a server. -/
inductive Tracked
    (s : Sys ω) : Prop where
  | waits
      (emptied : Emptied s.k)
      (waits : Waits s)
  | sends
      (filed : Filed s.k)
      (sender : Sender s)
  | lists
      (filed : Filed s.k)
      (lister : Lister s)

/-- What a call leaves: an error, the end of the session, or a next turn. -/
inductive Tracks
    (result : Int × Sys ω) : Prop where
  | failed
      (error : result.1 = xError)
  | ended
      (last : result.1 = xDone)
      (exactly : SendMapExact result.2.k)
  | goesOn
      (tracked : Tracked result.2)

theorem Tracked.exactMap
    (tracked : Tracked s) :
    SendMapExact s.k := by
  cases tracked with
  | waits emptied _ =>
      exact emptied.exactMap
  | sends filed _ =>
      exact filed.exactMap
  | lists filed _ =>
      exact filed.exactMap

theorem tracks_sends
    {result : Int × Sys ω}
    (refiles : Refiles result)
    (sender : Sender result.2) :
    Tracks result := by
  by_cases failed : result.1 = xError
  · exact .failed failed
  · exact .goesOn (.sends (refiles failed) sender)

theorem tracks_lists
    {result : Int × Sys ω}
    (lists : Lists result) :
    Tracks result := by
  by_cases failed : result.1 = xError
  · exact .failed failed
  · obtain ⟨filed, lister⟩ := lists failed
    exact .goesOn (.lists filed lister)

/-- The slot an acknowledgment of a filed packet is for. -/
theorem Filed.slot
    (filed : Filed k)
    (seq : Int) :
    k.win.sPw seq = 0 ∨ k.win.sPw seq = -1 := by
  rw [filed.mapped]
  split
  · exact Or.inl rfl
  · exact Or.inr rfl

/-- An acknowledgment while a listing is sent. -/
theorem tracks_dirAck
    (filed : Filed s.k)
    (lister : Lister s)
    (p : Rcvd) :
    Tracks (dirAck io p s) := by
  have freed := filed.acknowledge io
  have still : Lister (onK (acknowledge 0) s) :=
    lister.same (phase_acknowledge 0 s)
  have states := still.1
  have window := filed.steady.wf.window
  unfold dirAck
  dsimp only
  rcases filed.slot p.rseq with slot | slot
  · rw [slot, if_neg (by simp [window])]
    have emptied : Emptied (onK (acknowledge 0) s).k := freed
    generalize onK (acknowledge 0) s = t at still states emptied
    simp only [listerStates, List.mem_cons, List.not_mem_nil, or_false]
      at states
    change t.k.state = _ ∨ t.k.state = _ ∨ t.k.state = _ ∨ t.k.state = _ ∨
      t.k.state = _ at states
    rcases states with state | state | state | state | state
    all_goals rw [state]
    · exact tracks_lists (lists_dirAckInit emptied still)
    · exact tracks_lists (lists_dirAckText emptied still p)
    · exact tracks_lists (lists_dirAckData emptied still)
    · exact tracks_lists (lists_dirAckEof emptied still)
    · exact .ended rfl (emptied.aside (aside_setState _ _)).exactMap
  · rw [slot, if_pos (by simp)]
    exact .goesOn (.lists filed lister)

/-! ## Requests -/

/-- S is sent in answer to a request, while nothing is in the slot. -/
theorem refiles_answerRequest
    (emptied : Emptied s.k)
    (zero : s.k.sSeq = 0)
    (what : What) :
    Refiles (answerRequest io what s) := by
  have listed : Emptied { s with k.filelist := [.xdatabuf] }.k :=
    emptied.aside (.of_ledger rfl)
  have sent := @rpar_files _ io _ listed zero
  unfold answerRequest
  dsimp only
  split
  · exact fun failed => absurd rfl failed
  · exact fun _ =>
      sent.aside ((aside_setState _ _).trans (aside_setWhat _ _))

/-- A DIR request. -/
theorem tracks_gPacket
    (emptied : Emptied s.k)
    (zero : s.k.sSeq = 0)
    (p : Rcvd) :
    Tracks (gPacket io p s) := by
  have decoded : Emptied (decodeName (pdfMem p s) s).2.k :=
    emptied.aside (.of_ledger rfl)
  have still : (decodeName (pdfMem p s) s).2.k.sSeq = 0 := zero
  unfold gPacket
  dsimp only
  generalize (decodeName (pdfMem p s) s).2 = t at decoded still
  split
  · exact .failed rfl
  · have noted : ∀ name, Emptied (noteRequest .dir name t).k :=
      fun name => decoded.aside (.of_ledger rfl)
    refine tracks_lists fun answered => ?_
    have asked := phase_answerRequest answered
    refine ⟨refiles_answerRequest (noted _) still .dir answered, ?_⟩
    unfold Lister
    rw [asked]
    exact ⟨by decide, rfl⟩

/-- The slot is free, or it holds the packet in the map. -/
theorem Tracked.cases
    (tracked : Tracked s) :
    Emptied s.k ∨ Filed s.k := by
  cases tracked with
  | waits emptied _ =>
      exact Or.inl emptied
  | sends filed _ =>
      exact Or.inr filed
  | lists filed _ =>
      exact Or.inr filed

theorem aside_accessed
    (io : Io ω)
    (p : Rcvd)
    (buf : List UInt8)
    (s : Sys ω) :
    Aside s.k (accessed io p buf s).k :=
  .of_ledger rfl

theorem sender_restarted
    (s : Sys ω) :
    Sender (restarted s) :=
  ⟨show State.sInit ∈ senderStates by decide, rfl⟩

/-- A GET request, if `s_seq` is zero or no packet is sent for it. -/
theorem tracks_rPacket
    (tracked : Tracked s)
    (p : Rcvd)
    (buf : List UInt8)
    (fresh :
      (s.k.win.opktinfo 0).len < 1 →
        (callAccessf io (cstr (buf.drop p.pdf)) (requested p buf s)).1 = xOk →
          s.k.sSeq = 0) :
    Tracks (rPacket io p { s with k.ipktbuf := buf }) := by
  have aside := aside_accessed io p buf s
  rcases rPacket_cases io p buf s with
    ⟨failed, -⟩ | ⟨accessible, -, shape⟩
  · exact .failed failed
  · rw [shape]
    have kept : ∀ t : Sys ω, Aside t.k (restarted t).k :=
      fun _ => .of_ledger rfl
    refine .goesOn (.sends (Filed.aside ?_ (kept _)) (sender_restarted _))
    rcases tracked.cases with emptied | filed
    · exact rpar_files (emptied.aside aside)
        (fresh emptied.free accessible)
    · have held := filed.aside aside
      have same : Aside (accessed io p buf s).k
          { (accessed io p buf s).k with
            par :=
              { requestEbq (accessed io p buf s).k.par with
                bct := (accessed io p buf s).k.par.bct } } :=
        (aside_requestEbq _).trans (aside_params rfl rfl rfl)
      rw [rpar_busy held.busy]
      exact held.aside same

/-- S goes out with the number zero, and the map says another one. -/
theorem rpar_stale
    (sends : ∀ w bytes, (io.txd w bytes).1 = xOk)
    (emptied : Emptied s.k)
    (other : s.k.sSeq ≠ 0) :
    (rpar io (ch 'S') s).1 = xOk ∧
      ¬ SendMapExact (rpar io (ch 'S') s).2.k := by
  obtain ⟨u, d, bct, clear, number, route⟩ := rpar_route io emptied
  have thirteen : (spktData 13 (some d)).length = 13 :=
    List.takeD_length 13 d 0
  have short := length_pktFrame_le (forceBcta3 u.k).par (ch 'S') 0
    (spktData 13 (some d))
  have fits : (sentFrame (ch 'S') 0 (spktData 13 (some d)) u.k).length <
      pBuflen := by
    unfold sentFrame
    rw [thirteen] at short
    exact Nat.lt_of_le_of_lt short (by decide)
  have slot : (getSslot u.k).1 = 0 := by
    rw [getSslot_free clear.steady.wf.window clear.free]
  obtain ⟨count, positive, same⟩ := @spkt_seat _ io _ clear.steady.wf clear.free
    (ch 'S') (by decide) 0 (by decide) (by decide) 13 (some d)
  have fine : (spkt io (ch 'S') 0 13 (some d) u).1 = xOk := by
    rw [spkt_slotted io (by decide) (by decide) (by decide) (by omega) fits]
    exact sends _ _
  rw [route]
  refine ⟨fine, fun exactly => ?_⟩
  have kept : seat (setBct bct (spkt io (ch 'S') 0 13 (some d) u).2).k =
      ((count, 0), put u.k.win.sPw u.k.sSeq 0) := same
  dsimp only at exactly
  generalize setBct bct (spkt io (ch 'S') 0 13 (some d) u).2 = v
    at exactly kept
  obtain ⟨length, sequence, sPw⟩ :
      (v.k.win.opktinfo 0).len = count ∧ (v.k.win.opktinfo 0).seq = 0 ∧
        v.k.win.sPw = put u.k.win.sPw u.k.sSeq 0 := by
    simpa only [seat, Prod.mk.injEq, and_assoc] using kept
  obtain ⟨lower, upper⟩ := emptied.steady.numbered
  have inRange : isSeq s.k.sSeq = true := by
    simp [isSeq]
    omega
  have nothing := (exactly.filed (by omega)).2 s.k.sSeq inRange
    (fun zero => other (zero.trans sequence))
  rw [sPw, number, put_same] at nothing
  exact absurd nothing (by decide)

end Seats

section Server

variable {σ : Type}
variable {os : Os σ}
variable {s : Sys (Unix σ)}

/-! ## The next file -/

/-- A file is opened, or that fails. -/
theorem unixio_openf_cases
    (os : Os σ)
    (name : List UInt8)
    (mode filesize : Int)
    (s : Sys (Unix σ)) :
    (callOpenf (unixio os) name mode filesize s).1 = xOk ∨
      (callOpenf (unixio os) name mode filesize s).1 = xError := by
  show (kopenfile os s.w s.k name mode filesize).1 = xOk ∨
    (kopenfile os s.w s.k name mode filesize).1 = xError
  unfold kopenfile
  dsimp only
  split
  · split
    · exact Or.inl rfl
    · exact Or.inr rfl
  · exact Or.inr rfl

theorem refiles_sendFile
    (emptied : Emptied s.k)
    (name : StrRef)
    (rest : List StrRef) :
    Refiles (sendFile (unixio os) name rest s) := by
  have taken : Emptied (takeName name rest s).k :=
    emptied.aside (.of_ledger rfl)
  unfold sendFile
  dsimp only
  generalize takeName name rest s = t at taken
  have asked : Emptied
      (callOpenf (unixio os) (deref t name) 1 t.r.filesize t).2.k :=
    taken.aside (.of_ledger rfl)
  rcases unixio_openf_cases os (deref t name) 1 t.r.filesize t with
    opened | refused
  · rw [if_neg (by rw [opened]; decide)]
    generalize callOpenf (unixio os) (deref t name) 1 t.r.filesize t = result
      at asked
    have encoded := asked.aside
      (aside_encstr (unixio os) name (s := result.2) asked.steady)
    generalize (encstr (unixio os) name result.2).2 = u at encoded
    have sent := fun text => @spkt_files _ (unixio os)
      (onK (fun k => (takeSslot k).2) u)
      (encoded.clear.takeSslot (unixio os)) (ch 'F') (by decide) _ rfl (-1)
      text
    intro _
    split
    · exact sent _
    · exact (sent _).aside (.of_ledger rfl)
  · rw [if_pos (by rw [refused]; decide), refused]
    exact fun failed => absurd rfl failed

theorem refiles_nextFile
    (emptied : Emptied s.k) :
    Refiles (nextFile (unixio os) s) := by
  have next : Emptied (onK nxtpkt s).k := emptied.nxtpkt
  unfold nextFile
  dsimp only
  split
  · exact refiles_sendFile next _ _
  · exact refiles_sendBreak next

/-- While the slot is taken, no file is begun. -/
theorem nextFile_busy
    (busy : Busy s.k) :
    (nextFile (unixio os) s).1 = xError := by
  have next : Busy (onK nxtpkt s).k :=
    busy.scratch
      ⟨rfl, rfl, rfl, rfl, rfl, rfl, rfl, rfl, rfl, rfl, rfl⟩ (unixio os)
  unfold nextFile
  dsimp only
  generalize onK nxtpkt s = t at next
  split
  · rename_i name rest _
    have taken : Busy (takeName name rest t).k :=
      next.scratch
        ⟨rfl, rfl, rfl, rfl, rfl, rfl, rfl, rfl, rfl, rfl, rfl⟩ (unixio os)
    unfold sendFile
    dsimp only
    generalize takeName name rest t = u at taken
    have asked : Busy
        (callOpenf (unixio os) (deref u name) 1 u.r.filesize u).2.k :=
      taken.chores (Chores.of (.openf (deref u name) 1 u.r.filesize u))
    rcases unixio_openf_cases os (deref u name) 1 u.r.filesize u with
      opened | refused
    · rw [if_neg (by rw [opened]; decide)]
      generalize callOpenf (unixio os) (deref u name) 1 u.r.filesize u = result
        at asked
      have encoded : Busy (encstr (unixio os) name result.2).2.k :=
        asked.chores (chores_encstr name result.2)
      have refused := fun text => @busy_spkt _ (unixio os) _
        (busy_takeSslot encoded (unixio os)) (ch 'F') (by decide)
        (onK (fun k => (takeSslot k).2)
          (encstr (unixio os) name result.2).2).k.sSeq (-1) text
      rw [if_pos (by rw [refused]; decide)]
      exact refused _
    · rw [if_pos (by rw [refused]; decide), refused]
  · have named : Busy { t with k.filename := none }.k :=
      next.scratch
        ⟨rfl, rfl, rfl, rfl, rfl, rfl, rfl, rfl, rfl, rfl, rfl⟩ (unixio os)
    unfold sendBreak
    dsimp only
    rw [busy_getSslot named]
    rfl

/-! ## Other packets while a listing is sent -/

theorem aside_reportFile
    (action : Action)
    (s : Sys ω) :
    Aside s.k (reportFile action s).k := by
  unfold reportFile
  split
  · exact .of_ledger rfl
  · exact .of_ledger rfl

/-- A packet other than an ACK while a listing is sent. -/
theorem tracks_lister
    (filed : Filed s.k)
    (lister : Lister s)
    (msg : List UInt8)
    (p : Rcvd) :
    Tracks (stateStage (unixio os) msg p s) := by
  have states := lister.1
  have same : Tracks (xOk, s) := .goesOn (.lists filed lister)
  unfold stateStage
  simp only [listerStates, List.mem_cons, List.not_mem_nil, or_false]
    at states
  change s.k.state = _ ∨ s.k.state = _ ∨ s.k.state = _ ∨ s.k.state = _ ∨
    s.k.state = _ at states
  rcases states with state | state | state | state | state
  all_goals rw [state]
  · have held := filed.aside (aside_spar (unixio os) p.pdf p.datalen s)
    exact .failed (nextFile_busy held.busy)
  · exact .failed rfl
  · -- The only slot is taken, so that there is no place for more data.
    have notAttr : ¬ s.k.state = .sAttr := by
      rw [state]
      exact fun attr => nomatch attr
    unfold afterData
    dsimp only
    rw [if_neg notAttr, busy_getSslot filed.busy,
      if_pos (show (-1 : Int) < 0 by decide)]
    simpa only [onK, busy_getSslot filed.busy] using same
  · have full := filed.full
    dsimp only
    rw [nusedSslots_full filed.steady.wf.window (by omega),
      if_pos (by decide)]
    exact same
  · exact .ended rfl (filed.aside (aside_reportFile .get s)).exactMap

/-! ## A file is sent -/

/-- The acknowledged packet of a file is followed by the next one. -/
theorem tracks_sender
    (emptied : Emptied s.k)
    (sender : Sender s)
    (msg : List UInt8)
    (p : Rcvd) :
    Tracks (stateStage (unixio os) msg p s) := by
  have after : Sender (stateStage (unixio os) msg p s).2 :=
    sender.stateStage msg p
  have states := sender.1
  unfold stateStage at after ⊢
  simp only [senderStates, List.mem_cons, List.not_mem_nil, or_false]
    at states
  change s.k.state = _ ∨ s.k.state = _ ∨ s.k.state = _ ∨ s.k.state = _ ∨
    s.k.state = _ ∨ s.k.state = _ at states
  rcases states with state | state | state | state | state | state
  all_goals rw [state] at after ⊢
  · have set := emptied.aside (aside_spar (unixio os) p.pdf p.datalen s)
    exact tracks_sends (refiles_nextFile set) after
  · exact tracks_sends (refiles_afterFile emptied) after
  · exact tracks_sends (refiles_afterData emptied) after
  · exact tracks_sends (refiles_afterData emptied) after
  · have none : ¬ nusedSslots s.k > 0 := by
      have free := emptied.free
      simp [nusedSslots, slots_one emptied.steady.wf.window]
      omega
    dsimp only at after ⊢
    rw [if_neg none] at after ⊢
    exact tracks_sends (refiles_nextFile emptied) after
  · exact .ended rfl (emptied.aside (aside_reportFile .get s)).exactMap

/-- What comes of a packet, whether the state switcher is reached or not. -/
def StageTracks
    (os : Os σ)
    (msg : List UInt8) : Stage (Unix σ) → Prop
  | .ret rc t => Tracks (rc, t)
  | .go p t => Tracks (stateStage (unixio os) msg p t)

theorem tracks_sendStage
    (filed : Filed s.k)
    (sender : Sender s)
    (msg : List UInt8)
    (p : Rcvd) :
    StageTracks os msg (sendStage (unixio os) p s) := by
  have same : Tracks (xOk, s) := .goesOn (.sends filed sender)
  have window := filed.steady.wf.window
  have full := filed.full
  unfold sendStage
  dsimp only
  split
  · rw [nusedSslots_full window (by omega), if_neg (by decide)]
    have again := filed.aside
      (@aside_resend _ (unixio os) _ filed.steady.wf p.rseq)
    exact .goesOn (.sends again (sender.same (by simp)))
  · rcases filed.slot p.rseq with slot | slot
    · have freed : Emptied (onK (acknowledge 0) s).k :=
        filed.acknowledge (unixio os)
      have still : Sender (onK (acknowledge 0) s) :=
        sender.same (phase_acknowledge 0 s)
      rw [slot, if_neg (by simp [window])]
      generalize onK (acknowledge 0) s = t at freed still
      split
      · exact tracks_sends (refiles_cancelSend freed p) (still.cancelSend p)
      · have counted : Aside t.k { t with r.sofar := t.r.sofarRumor }.k :=
          .of_ledger rfl
        have sender : Sender { t with r.sofar := t.r.sofarRumor } := still
        exact tracks_sender (freed.aside counted) sender msg p
    · rw [slot, if_pos (by simp)]
      exact same

/-! ## Receiving -/

theorem waits_phase
    {state : State}
    (files : state = .rFile ∨ state = .rAttr)
    (same : phase s = (state, .recv)) :
    Waits s := by
  have reached : s.k.state = state := congrArg Prod.fst same
  rw [← reached] at files
  exact ⟨congrArg Prod.snd same, Or.inr files⟩

/-- After a NAK for number zero `s_seq` is zero. -/
theorem nak_zero
    (io : Io (Unix σ))
    (s : Sys (Unix σ)) :
    Aside s.k (nak io 0 (-1) s).2.k ∧ (nak io 0 (-1) s).2.k.sSeq = 0 := by
  have short := length_pktFrame_le (forceBcta3 s.k).par (ch 'N') 0
    (spktData 0 none)
  have fits : (sentFrame (ch 'N') 0 (spktData 0 none) s.k).length < 100 := by
    unfold sentFrame
    exact Nat.lt_of_le_of_lt short (by decide)
  have aside : Aside s.k (spkt io (ch 'N') 0 0 none s).2.k :=
    aside_spkt (by decide) 0 0 none s
  refine ⟨aside, ?_⟩
  show (spkt io (ch 'N') 0 0 none s).2.k.sSeq = 0
  rw [spkt_unslotted io (by decide) (by decide) (by decide) fits]
  rfl

theorem tracks_inWait
    (emptied : Emptied s.k)
    (waits : Waits s)
    (state : s.k.state = .rWait)
    (p : Rcvd) :
    Tracks (inWait (unixio os) p s) := by
  have set := emptied.aside (aside_spar (unixio os) p.pdf p.datalen s)
  have answered := set.aside (@aside_rpar _ (unixio os) _)
  have same : (phase (rpar (unixio os) (ch 'Y')
      (onK (spar p.pdf p.datalen) s)).2).2 = .recv := by
    rw [phase_rpar, phase_spar]
    exact waits.what
  unfold inWait
  dsimp only
  split
  · generalize rpar (unixio os) (ch 'Y') (onK (spar p.pdf p.datalen) s) = sent
      at answered same
    split
    · exact .failed rfl
    · have receives : ¬ sent.2.k.what = .dir := by
        rw [show sent.2.k.what = .recv from same]
        exact fun lists => nomatch lists
      rw [if_neg receives]
      exact .goesOn (.waits (answered.aside (.of_ledger rfl))
        (waits_phase (.inl rfl) rfl))
  · have asks : ¬ s.k.what = .get := by
      rw [waits.what]
      exact fun gets => nomatch gets
    obtain ⟨aside, still⟩ := nak_zero (unixio os) s
    have kept := @phase_nak _ (unixio os) 0 (-1) s
    rw [if_neg asks]
    exact .goesOn (.waits (emptied.aside aside)
      ⟨(congrArg Prod.snd kept).trans waits.what,
        .inl ⟨(congrArg Prod.fst kept).trans state, still⟩⟩)

theorem tracks_inFile
    (emptied : Emptied s.k)
    (receiving : phase s = (.rFile, .recv))
    (p : Rcvd) :
    Tracks (inFile (unixio os) p s) := by
  have set := emptied.aside (aside_spar (unixio os) p.pdf p.datalen s)
  have answered := set.aside (@aside_rpar _ (unixio os) _)
  have decoded : Emptied (decodeName (pdfMem p s) s).2.k :=
    emptied.aside (.of_ledger rfl)
  have same : phase (decodeName (pdfMem p s) s).2 = phase s := rfl
  unfold inFile
  dsimp only
  split
  · generalize decodeName (pdfMem p s) s = found at decoded same
    split
    · have cleared : Emptied (clearFile (setState .rAttr found.2)).k :=
        decoded.aside (.of_ledger rfl)
      refine .goesOn (.waits (cleared.aside (aside_ack _ _ _))
        (waits_phase (.inr rfl) ?_))
      simp [same, receiving]
    · have kept := decoded.aside (aside_setState found.2.k.state found.2)
      have state : found.2.k.state = .rFile :=
        congrArg Prod.fst (same.trans receiving)
      refine .goesOn (.waits (kept.aside (aside_epkt _ _))
        (waits_phase (.inl rfl) ?_))
      simp [same, receiving, state]
  · split
    · split
      · exact .ended rfl ((emptied.aside (aside_ack _ _ _)).aside
          (aside_reportFile .send _)).exactMap
      · exact .failed rfl
    · split
      · exact .goesOn (.waits (emptied.aside (aside_ack _ _ _))
          (waits_phase (.inl rfl) (by simp [receiving])))
      · split
        · split
          · exact .failed rfl
          · refine .goesOn (.waits ((answered.aside (aside_setState _ _)).aside
              (aside_setWhat _ _)) (waits_phase (.inl rfl) (by simp)))
        · exact .failed rfl

theorem aside_takeAttr
    (p : Rcvd)
    (s : Sys (Unix σ)) :
    Aside s.k (takeAttr p s).k := by
  unfold takeAttr
  dsimp only
  split
  · exact aside_params rfl rfl rfl
  · exact .of_ledger rfl

/-- No output file is opened, so that no data is taken. -/
theorem tracks_inAttr
    (emptied : Emptied s.k)
    (receiving : phase s = (.rAttr, .recv))
    (p : Rcvd) :
    Tracks (inAttr (unixio os) p s) := by
  have refused : ¬ (openOutput (unixio os) s).1 = xOk :=
    show ¬ (xError = xOk) by decide
  unfold inAttr
  split
  · refine .goesOn (.waits
      ((emptied.aside (aside_takeAttr p s)).aside (aside_ack _ _ _))
      (waits_phase (.inr rfl) ?_))
    simp [receiving]
  · split
    · unfold firstRpkt
      dsimp only
      rw [if_neg refused]
      exact .failed rfl
    · split
      · unfold emptyFile
        dsimp only
        rw [if_neg refused]
        exact .failed rfl
      · split
        · exact .goesOn (.waits (emptied.aside (aside_ack _ _ _))
            (waits_phase (.inr rfl) (by simp [receiving])))
        · exact .failed rfl

theorem tracks_waits
    (emptied : Emptied s.k)
    (waits : Waits s)
    (msg : List UInt8)
    (p : Rcvd) :
    Tracks (stateStage (unixio os) msg p s) := by
  unfold stateStage
  rcases waits.state with ⟨state, -⟩ | state | state
  · rw [state]
    exact tracks_inWait emptied waits state p
  · rw [state]
    exact tracks_inFile emptied (Prod.ext state waits.what) p
  · rw [state]
    exact tracks_inAttr emptied (Prod.ext state waits.what) p

/-! ## A whole call -/

/--
A frame is not a request for a file that is there, or the slot is taken, or
`s_seq` is zero.
-/
def RequestFresh
    (io : Io ω)
    (len : Int)
    (s : Sys ω) : Prop :=
  ∀ p buf, ValidRequest s.k len p buf →
    (s.k.win.opktinfo 0).len < 1 →
      (callAccessf io (cstr (buf.drop p.pdf)) (requested p buf s)).1 = xOk →
        s.k.sSeq = 0

theorem tracks_packetStage
    (tracked : Tracked s)
    {p : Rcvd}
    (requests : p.rtyp = ch 'R' → Tracks (rPacket (unixio os) p s))
    (msg : List UInt8) :
    StageTracks os msg (packetStage (unixio os) p s) := by
  unfold packetStage
  split
  · rename_i ack
    cases tracked with
    | waits _ waits =>
        exact absurd (waits.what.symm.trans ack.2) (by decide)
    | sends _ sender =>
        exact absurd (sender.2.symm.trans ack.2) (by decide)
    | lists filed lister =>
        exact tracks_dirAck filed lister p
  · split
    · exact .goesOn tracked
    · rename_i notAck notBegun
      split
      · rename_i generic
        have waiting : (phase s).1 = .rWait := by
          by_contra begun
          exact notBegun ⟨generic, begun⟩
        cases tracked with
        | waits emptied waits =>
            rcases waits.state with ⟨-, zero⟩ | files | files
            · exact tracks_gPacket emptied zero p
            · exact absurd (waiting.symm.trans files) (by decide)
            · exact absurd (waiting.symm.trans files) (by decide)
        | sends _ sender =>
            exact absurd (waiting ▸ sender.1) (by decide)
        | lists _ lister =>
            exact absurd (waiting ▸ lister.1) (by decide)
      · split
        · exact requests ‹_›
        · split
          · exact .failed rfl
          · split
            · rename_i sends
              cases tracked with
              | waits _ waits =>
                  exact absurd (waits.what.symm.trans sends) (by decide)
              | sends filed sender =>
                  exact tracks_sendStage filed sender msg p
              | lists _ lister =>
                  exact absurd (lister.2.symm.trans sends) (by decide)
            · rename_i sends
              cases tracked with
              | waits emptied waits =>
                  exact tracks_waits emptied waits msg p
              | sends _ sender =>
                  exact absurd sender.2 sends
              | lists filed lister =>
                  exact tracks_lister filed lister msg p

theorem Tracked.aside
    {t : Sys (Unix σ)}
    (tracked : Tracked s)
    (aside : Aside s.k t.k)
    (same : phase t = phase s)
    (number : t.k.sSeq = s.k.sSeq) :
    Tracked t := by
  have state : t.k.state = s.k.state := congrArg Prod.fst same
  have what : t.k.what = s.k.what := congrArg Prod.snd same
  cases tracked with
  | waits emptied waits =>
      refine .waits (emptied.aside aside) ⟨what.trans waits.what, ?_⟩
      rw [state, number]
      exact waits.state
  | sends filed sender =>
      exact .sends (filed.aside aside) (sender.same same)
  | lists filed lister =>
      exact .lists (filed.aside aside) (lister.same same)

theorem Tracked.steady
    (tracked : Tracked s) :
    Steady s.k := by
  rcases tracked.cases with emptied | filed
  · exact emptied.steady
  · exact filed.steady

/-- A retransmission leaves the map as it is. -/
theorem Tracked.resend
    (tracked : Tracked s)
    (seq : Int) :
    Tracked (resend (unixio os) seq s).2 := by
  have wf := tracked.steady.wf
  exact tracked.aside (aside_resend wf seq) (phase_resend seq s)
    (resend_undisturbed wf (unixio os) seq).1.sSeq

theorem Tracked.resendUnlessRecv
    (tracked : Tracked s) :
    Tracked (resendUnlessRecv (unixio os) s).2 := by
  unfold Kermit.resendUnlessRecv
  split
  · exact tracked
  · exact tracked.resend (-1)

theorem tracks_kermitRun
    (tracked : Tracked s)
    (received : s.k.doRxd = true)
    {len : Int}
    (fresh : RequestFresh (unixio os) len s)
    (msg : List UInt8) :
    Tracks (kermit (unixio os) .run len msg s) := by
  have wf := tracked.steady.wf
  have forced : forceBcta3 s.k = s.k := by
    simp [forceBcta3, wf.noForce]
  have stored : ∀ buf : List UInt8,
      Tracked { s with k.ipktbuf := buf } :=
    fun buf => tracked.aside (.of_ledger rfl) rfl rfl
  unfold kermit
  rw [wf.testRslots (unixio os)]
  dsimp only
  unfold kermitRun
  split
  · exact .goesOn tracked
  unfold rxStage
  rw [forced]
  by_cases few : len < 4
  · rw [if_pos few]
    by_cases receiving : s.k.what = .recv
    · rw [if_pos receiving]
      by_cases files : s.k.state = .rFile
      · rw [if_pos files]
        have told := @phase_rpar _ (unixio os) (ch 'Y') s
        cases tracked with
        | waits emptied waits =>
            exact .goesOn (.waits (emptied.aside (aside_rpar s))
              (waits_phase (.inl rfl)
                (told.trans (Prod.ext files waits.what))))
        | sends _ sender =>
            exact absurd (sender.2.symm.trans receiving) (by decide)
        | lists _ lister =>
            exact absurd (lister.2.symm.trans receiving) (by decide)
      · rw [if_neg files]
        exact .goesOn tracked
    · rw [if_neg receiving]
      exact .goesOn (tracked.resend (-1))
  · rw [if_neg few]
    cases parsed : parse s.k len with
    | shortcut =>
        exact .ended rfl tracked.exactMap
    | tossed =>
        exact .goesOn tracked
    | badHeader buf =>
        exact .goesOn (stored buf).resendUnlessRecv
    | badLength =>
        exact .goesOn tracked.resendUnlessRecv
    | badCheck buf =>
        exact .goesOn (stored buf).resendUnlessRecv
    | good p buf =>
        have request : p.rtyp = ch 'R' →
            Tracks (rPacket (unixio os) p { s with k.ipktbuf := buf }) := by
          intro rtyp
          have valid : ValidRequest s.k len p buf :=
            ⟨Int.not_lt.mp few, parsed, rtyp⟩
          exact tracks_rPacket tracked p buf (fresh p buf valid)
        have handled := tracks_packetStage (stored buf) request msg
        dsimp only
        generalize packetStage (unixio os) p { s with k.ipktbuf := buf } =
          stage at handled
        cases stage with
        | ret rc t =>
            exact handled
        | go q t =>
            exact handled

/-- A late request that is answered leaves a map that is not exact. -/
theorem stale_request
    (sends : ∀ w bytes, ((unixio os).txd w bytes).1 = xOk)
    (tracked : Tracked s)
    (received : s.k.doRxd = true)
    {len : Int}
    (stale : ¬ RequestFresh (unixio os) len s)
    (msg : List UInt8) :
    (kermit (unixio os) .run len msg s).1 = xOk ∧
      ¬ SendMapExact (kermit (unixio os) .run len msg s).2.k := by
  unfold RequestFresh at stale
  push Not at stale
  obtain ⟨p, buf, request, free, accessible, other⟩ := stale
  have emptied : Emptied s.k := by
    rcases tracked.cases with emptied | filed
    · exact emptied
    · have full := filed.full
      omega
  have set : s.k.state ≠ .rNone := by
    intro none
    have state : (phase s).1 = .rNone := none
    cases tracked with
    | waits _ waits =>
        rcases waits.state with ⟨waiting, -⟩ | files | files
        · exact absurd (none.symm.trans waiting) (by decide)
        · exact absurd (none.symm.trans files) (by decide)
        · exact absurd (none.symm.trans files) (by decide)
    | sends _ sender =>
        exact absurd (state ▸ sender.1) (by decide)
    | lists _ lister =>
        exact absurd (state ▸ lister.1) (by decide)
  have ready := emptied.aside (aside_accessed (unixio os) p buf s)
  obtain ⟨fine, inexact⟩ := rpar_stale sends ready other
  rw [kermit_request emptied.steady.wf set received request msg]
  rcases rPacket_cases (unixio os) p buf s with
    ⟨-, refused⟩ | ⟨-, -, shape⟩
  · exact absurd fine (refused accessible)
  · rw [shape]
    exact ⟨rfl, fun exactly => inexact ⟨exactly.filed, exactly.empty⟩⟩

end Server

/-! ## Runs -/

/-- Whenever `kermit(K_RUN)` returns without an error, the map is exact. -/
def ExactReturns
    (io : Io ω) : List Rx → MainVars ω → Prop
  | [], _ => True
  | rx :: rest, v =>
      (∀ len s, runCall rx v = some (len, s) →
        (kermit io .run len [] s).1 ≠ xError →
          SendMapExact (kermit io .run len [] s).2.k) ∧
        ExactReturns io rest (mainIter io rx v)

/-- No call finds a request for a file with a free slot and another `s_seq`. -/
def RequestsFresh
    (io : Io ω) : List Rx → MainVars ω → Prop
  | [], _ => True
  | rx :: rest, v =>
      (∀ len s, runCall rx v = some (len, s) → RequestFresh io len s) ∧
        RequestsFresh io rest (mainIter io rx v)

section Runs

variable {σ : Type}
variable {os : Os σ}

/-- What is true of the server while the loop goes on. -/
structure TurnTracked
    (v : MainVars (Unix σ)) : Prop where
  turning : Turning v
  tracked : Tracked v.sys

theorem TurnTracked.heard
    {v : MainVars (Unix σ)}
    (turns : TurnTracked v)
    (rx : Rx) :
    Tracked (heardSys rx v.sys) ∧ (heardSys rx v.sys).k.doRxd = true := by
  have kept : Aside v.sys.k (heardSys rx v.sys).k := .of_ledger rfl
  exact ⟨turns.tracked.aside kept rfl rfl,
    ok2rxd_held turns.turning.wf turns.turning.held⟩

/-- The loop goes on with a session that is tracked. -/
theorem TurnTracked.next
    {v : MainVars (Unix σ)}
    (turns : TurnTracked v)
    {rx : Rx}
    (tracks :
      ∀ len s, runCall rx v = some (len, s) →
        Tracks (kermit (unixio os) .run len [] s))
    (going : (mainIter (unixio os) rx v).ret = none) :
    TurnTracked (mainIter (unixio os) rx v) := by
  refine ⟨turns.turning.next (unixio os) rx going, ?_⟩
  have call := runCall_turning turns.turning rx
  have turn := turn_cases (unixio os) turns.turning rx
  generalize mainIter (unixio os) rx v = next at turn going
  cases turn with
  | fatal failed =>
      cases going
  | gaveUp silent spent =>
      cases going
  | handled retrycounter ret counted left given =>
      obtain ⟨notDone, notError⟩ := left going
      rw [if_neg (by omega)] at call
      cases tracks _ _ call with
      | failed error =>
          exact absurd error notError
      | ended last _ =>
          exact absurd last notDone
      | goesOn tracked =>
          exact tracked

/-- The map is exact as long as every request is fresh, and only then. -/
theorem exactReturns_iff
    (sends : ∀ w bytes, ((unixio os).txd w bytes).1 = xOk)
    (rxs : List Rx)
    {v : MainVars (Unix σ)}
    (turns : v.ret = none → TurnTracked v) :
    ExactReturns (unixio os) rxs v ↔ RequestsFresh (unixio os) rxs v := by
  induction rxs generalizing v with
  | nil =>
      exact Iff.rfl
  | cons rx rest inductionHypothesis =>
      by_cases left : v.ret ≠ none
      · have nothing : runCall rx v = none := if_pos left
        have later := @inductionHypothesis v turns
        unfold ExactReturns RequestsFresh
        rw [mainIter_left (unixio os) rx left, nothing, later]
        simp
      have turn := turns (not_not.mp left)
      obtain ⟨heard, reads⟩ := turn.heard rx
      have called : ∀ len s, runCall rx v = some (len, s) →
          Tracked s ∧ s.k.doRxd = true := by
        intro len s call
        rw [runCall_turning turn.turning rx] at call
        split at call
        · exact absurd call (by simp)
        · obtain ⟨-, rfl⟩ : rx.ret = len ∧ heardSys rx v.sys = s := by
            simpa using call
          exact ⟨heard, reads⟩
      have next : (∀ len s, runCall rx v = some (len, s) →
            RequestFresh (unixio os) len s) →
          (ExactReturns (unixio os) rest (mainIter (unixio os) rx v) ↔
            RequestsFresh (unixio os) rest (mainIter (unixio os) rx v)) := by
        intro fresh
        refine inductionHypothesis (turn.next fun len s call => ?_)
        obtain ⟨tracked, received⟩ := called len s call
        exact tracks_kermitRun tracked received (fresh len s call) []
      constructor
      · rintro ⟨exactly, rest⟩
        have fresh : ∀ len s, runCall rx v = some (len, s) →
            RequestFresh (unixio os) len s := by
          intro len s call
          by_contra stale
          obtain ⟨tracked, received⟩ := called len s call
          obtain ⟨fine, inexact⟩ :=
            stale_request sends tracked received stale []
          exact inexact (exactly len s call (by rw [fine]; decide))
        exact ⟨fresh, (next fresh).mp rest⟩
      · rintro ⟨fresh, rest⟩
        refine ⟨fun len s call notError => ?_, (next fresh).mpr rest⟩
        obtain ⟨tracked, received⟩ := called len s call
        cases tracks_kermitRun tracked received (fresh len s call) [] with
        | failed error =>
            exact absurd error notError
        | ended _ exactly =>
            exact exactly
        | goesOn tracked =>
            exact tracked.exactMap

/-- A session begins with a free slot and an empty map. -/
theorem turnTracked_mainStart
    {s : Sys (Unix σ)}
    (session : Session s.k)
    (longest : s.k.cfg.pMaxlen ≤ pPktlen)
    (cmlist : List StrRef) :
    TurnTracked (mainStart (unixio os) .wait cmlist s) := by
  have turning :=
    (@turning_mainStart _ (unixio os) _ .wait cmlist session).1
  have tested : Chores (unixio os)
      { s with r.type := .wait, k.filelist := cmlist }
      (testRslots (unixio os)
        { s with r.type := .wait, k.filelist := cmlist }) :=
    chores_testRslots _
  have cfg := tested.works.control.cfg
  refine ⟨turning, .waits ⟨⟨turning.wf, ⟨?_, ?_⟩, ?_, ?_⟩, ?_, ?_⟩
    ⟨rfl, .inl ⟨rfl, rfl⟩⟩⟩
  · exact Int.le_refl 0
  · exact show (0 : Int) ≤ 63 by decide
  · have same : (mainStart (unixio os) .wait cmlist s).sys.k.par.sMaxlen =
        s.k.cfg.pMaxlen := congrArg Config.pMaxlen cfg
    rw [same]
    exact longest
  · exact Nat.zero_le 6
  · exact show (0 : Int) < 1 by decide
  · exact fun _ => rfl

/--
In a session of a server, for everything `rxd` returns and with a link that
accepts every packet, the map of the send window is exact whenever
`kermit(K_RUN)` returns without an error if and only if `s_seq` is zero
whenever a GET request for a file that is there finds the slot free.
-/
theorem sendMap_exact_iff
    (os : Os σ)
    (sends : ∀ w bytes, ((unixio os).txd w bytes).1 = xOk)
    {s : Sys (Unix σ)}
    (session : Session s.k)
    (longest : s.k.cfg.pMaxlen ≤ pPktlen)
    (cmlist : List StrRef)
    (rxs : List Rx) :
    ExactReturns (unixio os) rxs (mainStart (unixio os) .wait cmlist s) ↔
      RequestsFresh (unixio os) rxs (mainStart (unixio os) .wait cmlist s) :=
  exactReturns_iff sends rxs
    fun _ => turnTracked_mainStart session longest cmlist

theorem sendMap_exact_iff_requested :
    ExactReturns (unixio fileOs)
        [packetOf (ch 'R') 0 (lit "f"), packetOf (ch 'Y') 0 []] fileServer ↔
      RequestsFresh (unixio fileOs)
        [packetOf (ch 'R') 0 (lit "f"), packetOf (ch 'Y') 0 []] fileServer :=
  sendMap_exact_iff fileOs (fun _ _ => rfl)
    (session_ekInit (unixio fileOs) [] _) (by decide) [] _

/-- A client sends S and F, with the number one, and then asks for a file. -/
def lateRequest : List Rx :=
  [packetOf (ch 'S') 0 [], packetOf (ch 'F') 1 (lit "g"),
    packetOf (ch 'R') 0 (lit "f")]

/--
The server answers the late request with S: the packet in the slot has the
number zero, and the map has the number one.
-/
theorem late_request_inexact :
    ¬ ExactReturns (unixio fileOs) lateRequest fileServer := by
  rintro ⟨-, -, third, -⟩
  have returned := third _ _ rfl (by decide +kernel)
  have mapped := (returned.filed (by decide +kernel)).1
  exact absurd mapped (by decide +kernel)

end Runs

end Slate106.Kermit
