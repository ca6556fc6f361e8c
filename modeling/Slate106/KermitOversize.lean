import Slate106.KermitKinds

namespace Slate106.Kermit

open CBytes

/-!
# Packets that do not fit

`spkt` takes and registers a slot before it knows how long the packet is.  The
loop that copies the data stops at the end of the buffer, but what follows it
is stored first and measured afterwards.  Here the stores of `spkt` are
followed one by one.
-/

variable {ω : Type}

/-! ## The stores of `spkt()` -/

/-- The buffer of a packet while it is built, and the indices stored to. -/
structure PacketBuf where
  buf : List UInt8
  i : Nat
  stored : List Nat
  deriving Repr, DecidableEq

namespace PacketBuf

/-- `buf[index] = b;` -/
def set
    (index : Nat)
    (b : UInt8)
    (t : PacketBuf) : PacketBuf :=
  { t with
    buf := poke t.buf index [b]
    stored := index :: t.stored }

/-- `buf[i++] = b;` -/
def push
    (t : PacketBuf)
    (b : UInt8) : PacketBuf :=
  { t.set t.i b with i := t.i + 1 }

end PacketBuf

/-- The header: the length is filled in behind the type. -/
def fillHeader
    (par : Params)
    (typ : UInt8)
    (seq : Int)
    (len : Nat)
    (t : PacketBuf) : PacketBuf :=
  let t := t.push par.sSoh
  let lenpos := t.i
  let t := { t with i := t.i + 1 }
  let t := (t.push (tochar (uchar seq))).push typ
  let j := len + par.bct
  if len + par.bct + 2 > 94 then
    let t := t.set lenpos (tochar 0)
    let t := t.push (tochar (UInt8.ofNat (j / 95)))
    let t := t.push (tochar (UInt8.ofNat (j % 95)))
    let t := t.set t.i 0
    t.push (tochar (UInt8.ofNat (chk1 (cstrAt t.buf lenpos))))
  else t.set lenpos (tochar (UInt8.ofNat (j + 2)))

/-- The loop that copies the data, and whether it got to its end. -/
def fillData
    (buflen : Nat) : List UInt8 → PacketBuf → Bool × PacketBuf
  | [], t => (true, t)
  | b :: rest, t =>
      if t.i ≥ buflen then (false, t)
      else fillData buflen rest (t.push b)

/-- The block check over what is there from an index on, and the terminators. -/
def fillCheck
    (par : Params)
    (lenpos : Nat)
    (t : PacketBuf) : PacketBuf :=
  let t := t.set t.i 0
  let t := (blockCheck par.bct (cstrAt t.buf lenpos)).foldl PacketBuf.push t
  let t := t.push par.sEom
  t.set t.i 0

/--
What `spkt()` stores in its buffer, and whether it goes on to measure the
packet.
-/
def spktFill
    (par : Params)
    (typ : UInt8)
    (seq : Int)
    (data buf : List UInt8) : Bool × PacketBuf :=
  let t := fillHeader par typ seq data.length { buf, i := 0, stored := [] }
  let copied := fillData (spktBuflen typ) data t
  if copied.1 then (true, fillCheck par 1 copied.2) else copied

/-- The first bytes of the buffer are known, and all of them were stored. -/
structure Begins
    (bytes : List UInt8)
    (t : PacketBuf) : Prop where
  content : ∃ rest, t.buf = bytes ++ rest
  place : t.i = bytes.length
  stored : ∀ index, index ∈ t.stored ↔ index < bytes.length

theorem Begins.push
    {bytes : List UInt8}
    {t : PacketBuf}
    (begun : Begins bytes t)
    (b : UInt8) :
    Begins (bytes ++ [b]) (t.push b) := by
  obtain ⟨⟨rest, buf⟩, place, stored⟩ := begun
  constructor
  · refine ⟨rest.drop 1, ?_⟩
    unfold PacketBuf.push PacketBuf.set
    rw [buf, place, List.append_assoc]
    exact poke_end bytes rest [b]
  · unfold PacketBuf.push
    rw [place, List.length_append, List.length_singleton]
  · intro index
    unfold PacketBuf.push PacketBuf.set
    rw [place, List.mem_cons, stored, List.length_append,
      List.length_singleton]
    omega

/-- A terminator behind the bytes is not one of them. -/
theorem Begins.terminated
    {bytes : List UInt8}
    {t : PacketBuf}
    (begun : Begins bytes t) :
    ∃ rest, (t.set t.i 0).buf = bytes ++ 0 :: rest := by
  obtain ⟨⟨rest, buf⟩, place, stored⟩ := begun
  refine ⟨rest.drop 1, ?_⟩
  unfold PacketBuf.set
  rw [buf, place]
  exact poke_end bytes rest [0]

theorem Begins.pushes
    {bytes more : List UInt8}
    {t : PacketBuf}
    (begun : Begins bytes t) :
    Begins (bytes ++ more) (more.foldl PacketBuf.push t) := by
  induction more generalizing bytes t with
  | nil =>
      rw [List.append_nil]
      exact begun
  | cons b more inductionHypothesis =>
      have pushed := inductionHypothesis (begun.push b)
      rw [List.append_assoc] at pushed
      exact pushed

/-- A byte is stored over the terminator. -/
theorem Begins.push_over
    {bytes : List UInt8}
    {t : PacketBuf}
    (begun : Begins bytes t)
    (b : UInt8) :
    Begins (bytes ++ [b]) ((t.set t.i 0).push b) := by
  obtain ⟨rest, buf⟩ := begun.terminated
  constructor
  · refine ⟨rest, ?_⟩
    unfold PacketBuf.push
    change poke (t.set t.i 0).buf t.i [b] = _
    rw [buf, begun.place, List.append_assoc]
    exact poke_end bytes (0 :: rest) [b]
  · change t.i + 1 = _
    rw [begun.place, List.length_append, List.length_singleton]
  · intro index
    change index ∈ t.i :: t.i :: t.stored ↔ _
    rw [begun.place, List.mem_cons, List.mem_cons, begun.stored,
      List.length_append, List.length_singleton]
    omega

/-- What is there from the second byte on, up to the terminator. -/
theorem Begins.cstrAt_one
    {first : UInt8}
    {bytes : List UInt8}
    {t : PacketBuf}
    (begun : Begins (first :: bytes) t) :
    cstrAt (t.set t.i 0).buf 1 = cstr bytes := by
  obtain ⟨rest, buf⟩ := begun.terminated
  rw [buf]
  exact cstr_append_terminated bytes rest

/-- A check over these bytes is stored over the terminator. -/
theorem Begins.push_check
    {first : UInt8}
    {bytes : List UInt8}
    {t : PacketBuf}
    (begun : Begins (first :: bytes) t)
    (check : List UInt8 → UInt8) :
    Begins (first :: bytes ++ [check (cstr bytes)])
      ((t.set t.i 0).push (check (cstrAt (t.set t.i 0).buf 1))) := by
  rw [begun.cstrAt_one]
  exact begun.push_over _

/-- The header, when its length is filled in. -/
theorem begins_length
    (soh lenchar seq typ : UInt8)
    (buf : List UInt8) :
    let t : PacketBuf := { buf, i := 0, stored := [] }
    let t := t.push soh
    let t := { t with i := t.i + 1 }
    Begins [soh, lenchar, seq, typ]
      (((t.push seq).push typ).set 1 lenchar) := by
  dsimp only
  constructor
  · rcases buf with _ | ⟨_, _ | ⟨_, _ | ⟨_, _ | ⟨_, rest⟩⟩⟩⟩
    · exact ⟨[], rfl⟩
    · exact ⟨[], rfl⟩
    · exact ⟨[], rfl⟩
    · exact ⟨[], rfl⟩
    · exact ⟨rest, rfl⟩
  · rfl
  · intro index
    change index ∈ [1, 3, 2, 0] ↔ index < 4
    simp only [List.mem_cons, List.not_mem_nil, or_false]
    omega

theorem begins_fillHeader
    (par : Params)
    (typ : UInt8)
    (seq : Int)
    (len : Nat)
    (buf : List UInt8) :
    Begins (par.sSoh :: pktHeader par.bct typ seq len)
      (fillHeader par typ seq len { buf, i := 0, stored := [] }) := by
  unfold fillHeader pktHeader
  dsimp only
  split
  · have begun := begins_length par.sSoh (tochar 0) (tochar (uchar seq)) typ
      buf
    have extended := (begun.push (tochar (UInt8.ofNat
      ((len + par.bct) / 95)))).push (tochar (UInt8.ofNat
        ((len + par.bct) % 95)))
    exact extended.push_check (fun pkt => tochar (UInt8.ofNat (chk1 pkt)))
  · exact begins_length par.sSoh _ (tochar (uchar seq)) typ buf

/-- The loop that copies the data stops at the end of the buffer. -/
theorem begins_fillData
    {buflen : Nat}
    {bytes data : List UInt8}
    {t : PacketBuf}
    (begun : Begins bytes t)
    (inside : bytes.length ≤ buflen) :
    if bytes.length + data.length ≤ buflen then
      (fillData buflen data t).1 = true ∧
        Begins (bytes ++ data) (fillData buflen data t).2
    else
      (fillData buflen data t).1 = false ∧
        Begins ((bytes ++ data).take buflen) (fillData buflen data t).2 := by
  induction data generalizing bytes t with
  | nil =>
      rw [if_pos (by simpa using inside), List.append_nil]
      exact ⟨rfl, begun⟩
  | cons b data inductionHypothesis =>
      unfold fillData
      rw [begun.place]
      by_cases ended : bytes.length ≥ buflen
      · have same : bytes.length = buflen := by
          omega
        rw [if_pos ended, if_neg (by rw [List.length_cons]; omega),
          List.take_left' same]
        exact ⟨rfl, begun⟩
      · have next := inductionHypothesis (begun.push b)
          (by rw [List.length_append, List.length_singleton]; omega)
        rw [List.append_assoc, List.length_append, List.length_singleton,
          Nat.add_assoc, Nat.add_comm 1] at next
        rw [if_neg ended]
        exact next

theorem Begins.pushes_over
    {bytes more : List UInt8}
    {t : PacketBuf}
    (begun : Begins bytes t)
    (some : more ≠ []) :
    Begins (bytes ++ more) (more.foldl PacketBuf.push (t.set t.i 0)) := by
  cases more with
  | nil =>
      exact absurd rfl some
  | cons b more =>
      have pushed := @Begins.pushes _ more _ (begun.push_over b)
      rw [List.append_assoc] at pushed
      exact pushed

/-- All that is stored for a packet whose data was copied. -/
theorem fillCheck_spec
    {first : UInt8}
    {bytes : List UInt8}
    {t : PacketBuf}
    (begun : Begins (first :: bytes) t)
    (par : Params) :
    let frame := first :: (bytes ++ blockCheck par.bct (cstr bytes) ++
      [par.sEom])
    (∃ rest, (fillCheck par 1 t).buf = frame ++ 0 :: rest) ∧
      ∀ index, index ∈ (fillCheck par 1 t).stored ↔
        index ≤ frame.length := by
  dsimp only
  have ended := begun.pushes_over
    (List.append_ne_nil_of_right_ne_nil (blockCheck par.bct (cstr bytes))
      (List.cons_ne_nil par.sEom []))
  rw [List.foldl_append, ← List.append_assoc] at ended
  unfold fillCheck
  dsimp only
  rw [begun.cstrAt_one]
  refine ⟨ended.terminated, fun index => ?_⟩
  have last := ended.place
  have stored := ended.stored index
  change index ∈ PacketBuf.i _ :: PacketBuf.stored _ ↔ _
  rw [List.mem_cons]
  refine (or_congr (Iff.of_eq (congrArg (index = ·) last)) stored).trans ?_
  rw [List.cons_append, List.cons_append]
  omega

/-- How far `spkt()` has got when all of the data is copied. -/
def spktDataEnd
    (bct : Nat)
    (typ : UInt8)
    (seq : Int)
    (len : Nat) : Nat :=
  1 + (pktHeader bct typ seq len).length + len

/-- What `spkt()` has stored in the end, if the data fits the buffer or not. -/
theorem spktFill_spec
    (par : Params)
    (typ : UInt8)
    (seq : Int)
    (data buf : List UInt8) :
    let filling := spktFill par typ seq data buf
    let frame := pktFrame par typ seq data
    if spktDataEnd par.bct typ seq data.length ≤ spktBuflen typ then
      filling.1 = true ∧
        (∃ rest, filling.2.buf = frame ++ 0 :: rest) ∧
        ∀ index, index ∈ filling.2.stored ↔ index ≤ frame.length
    else
      filling.1 = false ∧
        (∃ rest, filling.2.buf = frame.take (spktBuflen typ) ++ rest) ∧
        ∀ index ∈ filling.2.stored, index < spktBuflen typ := by
  dsimp only
  have header := length_pktHeader par.bct typ seq data.length
  have room : 100 ≤ spktBuflen typ := by
    unfold spktBuflen
    split <;> decide
  have begun := begins_fillHeader par typ seq data.length buf
  have copied := @begins_fillData (spktBuflen typ) _ data _ begun
    (by rw [List.length_cons]; omega)
  have end_eq : (par.sSoh :: pktHeader par.bct typ seq data.length).length +
      data.length = spktDataEnd par.bct typ seq data.length := by
    unfold spktDataEnd
    rw [List.length_cons]
    omega
  rw [end_eq] at copied
  unfold spktFill
  dsimp only
  split
  · rename_i fits
    rw [if_pos fits] at copied
    obtain ⟨whole, begun⟩ := copied
    rw [if_pos whole]
    exact ⟨rfl, fillCheck_spec begun par⟩
  · rename_i tooLong
    rw [if_neg tooLong] at copied
    obtain ⟨cut, begun⟩ := copied
    rw [if_neg (by rw [cut]; exact Bool.false_ne_true)]
    have prefix_eq : (par.sSoh :: pktHeader par.bct typ seq data.length ++
          data).take (spktBuflen typ) =
        (pktFrame par typ seq data).take (spktBuflen typ) := by
      have shape : pktFrame par typ seq data =
          (par.sSoh :: pktHeader par.bct typ seq data.length ++ data) ++
            (blockCheck par.bct (cstr (pktHeader par.bct typ seq
              data.length ++ data)) ++ [par.sEom]) := by
        simp [pktFrame, pktBody]
      rw [shape]
      refine (List.take_append_of_le_length ?_).symm
      rw [List.length_append, end_eq]
      omega
    rw [prefix_eq] at begun
    refine ⟨cut, begun.content, fun index member => ?_⟩
    have below := (begun.stored index).mp member
    exact Nat.lt_of_lt_of_le below (List.length_take_le _ _)

/-! ## What `spkt()` leaves behind -/

/-- `spkt()` returns before it has a buffer. -/
def SpktRefuses
    (typ : UInt8)
    (seq : Int)
    (k : KData) : Prop :=
  seq < 0 ∨ seq > 63 ∨ (isUnslotted typ = false ∧ (getSslot k).1 < 0)

instance
    (typ : UInt8)
    (seq : Int)
    (k : KData) :
    Decidable (SpktRefuses typ seq k) :=
  inferInstanceAs (Decidable (_ ∨ _ ∨ _))

/-- The buffer a packet is built in: its slot's, or one on the stack. -/
def spktTarget
    (typ : UInt8)
    (k : KData) : List UInt8 :=
  if isUnslotted typ then List.replicate 100 0
  else (k.win.opktinfo (getSslot k).1).buf

/-- The indices of its buffer that `spkt()` stores to. -/
def spktStored
    (typ : UInt8)
    (seq : Int)
    (data : List UInt8)
    (k : KData) : List Nat :=
  if SpktRefuses typ seq k then []
  else
    (spktFill (forceBcta3 k).par typ seq data (spktTarget typ k)).2.stored

/-- What the packets that wait for an answer are found by. -/
structure SameOutbound
    (k k' : KData) : Prop where
  sPw : k'.win.sPw = k.win.sPw
  opktinfo : k'.win.opktinfo = k.win.opktinfo
  sSeq : k'.sSeq = k.sSeq
  opktlen : k'.win.opktlen = k.win.opktlen

/-- The complete frame was built in the buffer, and it was transmitted. -/
structure SpktBuilds
    (io : Io ω)
    (typ : UInt8)
    (seq len : Int)
    (data : Option (List UInt8))
    (s : Sys ω) : Prop where
  whole : ∃ rest,
    (spktFill (forceBcta3 s.k).par typ seq (spktData len data)
        (spktTarget typ s.k)).2.buf =
      sentFrame typ seq (spktData len data) s.k ++ 0 :: rest
  sent : (spkt io typ seq len data s).2.log =
    .txd (sentFrame typ seq (spktData len data) s.k)
      (spkt io typ seq len data s).1 :: s.log

/--
No index outside of the buffer is stored to, and either the frame is built or
`X_ERROR` is returned and nothing is left behind.
-/
structure SpktClean
    (io : Io ω)
    (typ : UInt8)
    (seq len : Int)
    (data : Option (List UInt8))
    (s : Sys ω) : Prop where
  inside : ∀ index ∈ spktStored typ seq (spktData len data) s.k,
    index < spktBuflen typ
  outcome : SpktBuilds io typ seq len data s ∨
    ((spkt io typ seq len data s).1 = xError ∧
      SameOutbound s.k (spkt io typ seq len data s).2.k)

section Outcomes

variable {io : Io ω}
variable {typ : UInt8}
variable {seq len : Int}
variable {data : Option (List UInt8)}
variable {s : Sys ω}

theorem frame_longer
    (par : Params)
    (typ : UInt8)
    (seq : Int)
    (data : List UInt8) :
    spktDataEnd par.bct typ seq data.length + 1 ≤
      (pktFrame par typ seq data).length := by
  simp only [spktDataEnd, pktFrame, pktBody, List.length_cons,
    List.length_append, List.length_nil]
  omega

/-- A refused packet leaves no trace. -/
theorem spkt_refuses
    (refuses : SpktRefuses typ seq s.k) :
    spkt io typ seq len data s = (xError, s) := by
  by_cases range : seq < 0 ∨ seq > 63
  · have outside : (decide (seq < 0) || decide (seq > 63)) = true := by
      simpa using range
    unfold spkt spktWith
    rw [if_pos outside]
  · obtain ⟨kind, full⟩ : isUnslotted typ = false ∧ (getSslot s.k).1 < 0 := by
      rcases refuses with below | above | none
      · exact absurd (Or.inl below) range
      · exact absurd (Or.inr above) range
      · exact none
    have same : (getSslot s.k).2 = s.k := by
      unfold getSslot at full ⊢
      split
      · rename_i slot found
        rw [found] at full
        have member := List.mem_of_find?_eq_some found
        simp only [slots, List.mem_map, List.mem_range] at member
        obtain ⟨index, _, rfl⟩ := member
        exact absurd full (by simp)
      · rfl
    unfold spkt
    rw [spktWith_full io _ kind (by omega) (by omega) (by omega), same]

/-- The slot that is taken held no packet. -/
theorem getSslot_empty
    {k : KData}
    (free : 0 ≤ (getSslot k).1) :
    (k.win.opktinfo (getSslot k).1).len < 1 := by
  unfold getSslot at free ⊢
  split
  · rename_i slot found
    simpa using List.find?_some found
  · rename_i none
    rw [none] at free
    exact absurd free (show ¬ (0 : Int) ≤ -1 by decide)

/-- The length of the E packet that reports the confusion. -/
def confusedLength
    (k : KData) : Nat :=
  if k.cfg.bcta3 ≠ 0 then 26 else 24

/-- The length of a short packet with a block check type that there is. -/
theorem length_short_frame
    (par : Params)
    (known : par.bct = 1 ∨ par.bct = 3)
    (typ : UInt8)
    (seq : Int)
    {data : List UInt8}
    (short : data.length ≤ 80) :
    (pktFrame par typ seq data).length = data.length + par.bct + 5 := by
  have header : (pktHeader par.bct typ seq data.length).length = 3 := by
    unfold pktHeader
    dsimp only
    rw [if_neg (by omega)]
    rfl
  have check : (blockCheck par.bct
      (cstr (pktHeader par.bct typ seq data.length ++ data))).length =
      par.bct := by
    unfold blockCheck
    rcases known with one | three
    · rw [one]
      rfl
    · rw [three]
      rfl
  simp only [pktFrame, pktBody, List.length_cons, List.length_append,
    List.length_nil]
  omega

/-- The E packet is sent with the number 0, and is what was sent last. -/
theorem spktConfused_eq
    (io : Io ω)
    (s : Sys ω) :
    ∃ frame rc w bct,
      frame.length = confusedLength s.k ∧
      spktConfused io s =
        { s with
          k :=
            { s.k with
              par.bct := bct
              sSeq := 0
              win.opktlen := confusedLength s.k }
          w := w
          log := .txd frame rc :: s.log } := by
  have text : spktData (-1) (some (lit "EKSW spkt confused")) =
      lit "EKSW spkt confused" := by
    decide +kernel
  have size : (lit "EKSW spkt confused").length = 18 := by
    decide +kernel
  generalize forced : (if s.k.cfg.bcta3 ≠ 0 then 3 else 1) = bct
  have inforce : inForce (setBct bct s).k = bct := by
    unfold inForce setBct
    dsimp only
    rw [← forced]
    split <;> rfl
  have known : bct = 1 ∨ bct = 3 := by
    rw [← forced]
    split
    · exact Or.inr rfl
    · exact Or.inl rfl
  have frameLength :
      (sentFrame (ch 'E') 0 (lit "EKSW spkt confused")
        (setBct bct s).k).length = confusedLength s.k := by
    have par : (forceBcta3 (setBct bct s).k).par.bct = bct := by
      rw [forceBcta3_bct, inforce]
    unfold sentFrame
    rw [length_short_frame _ (par.symm ▸ known) _ _ (by omega), par, size,
      ← forced]
    unfold confusedLength
    split <;> rfl
  have dataEnd : ¬ spktDataEnd (inForce (setBct bct s).k) (ch 'E') 0
      (lit "EKSW spkt confused").length > 100 := by
    have header := length_pktHeader (inForce (setBct bct s).k) (ch 'E') 0
      (lit "EKSW spkt confused").length
    unfold spktDataEnd
    omega
  have short : ¬ (sentFrame (ch 'E') 0 (lit "EKSW spkt confused")
      (setBct bct s).k).length ≥ 100 := by
    rw [frameLength]
    unfold confusedLength
    split <;> decide
  unfold spktDataEnd at dataEnd
  unfold spktConfused epktWith
  dsimp only
  rw [forced, spktWith_unslotted io id (by decide) (by decide) (by decide),
    text]
  dsimp only
  rw [if_neg dataEnd, if_neg short]
  unfold announced callTxd
  dsimp only
  rw [frameLength, forceBcta3_eq]
  exact ⟨_, _, _, _, frameLength, rfl⟩

/-- A packet that fits its buffer is built there and transmitted. -/
theorem spkt_sent
    (accepts : ¬ SpktRefuses typ seq s.k)
    (short : (sentFrame typ seq (spktData len data) s.k).length <
      spktBuflen typ) :
    (spkt io typ seq len data s).2.log =
      .txd (sentFrame typ seq (spktData len data) s.k)
        (spkt io typ seq len data s).1 :: s.log := by
  unfold SpktRefuses at accepts
  unfold spktBuflen at short
  cases kind : isUnslotted typ with
  | true =>
      rw [if_pos kind] at short
      rw [spkt_unslotted io kind (by omega) (by omega) short]
      rfl
  | false =>
      have free : 0 ≤ (getSslot s.k).1 := by
        by_contra full
        exact accepts (Or.inr (Or.inr ⟨kind, by omega⟩))
      rw [if_neg (by simp [kind])] at short
      rw [spkt_slotted io kind (by omega) (by omega) free short]
      rfl

/-- A packet whose data does not fit is reported in an E packet. -/
theorem spkt_confused
    (accepts : ¬ SpktRefuses typ seq s.k)
    (tooLong : ¬ spktDataEnd (inForce s.k) typ seq
      (spktData len data).length ≤ spktBuflen typ) :
    ∃ frame rc,
      frame.length = confusedLength s.k ∧
      (spkt io typ seq len data s).1 = xError ∧
      (spkt io typ seq len data s).2.log = .txd frame rc :: s.log ∧
      (SameOutbound s.k (spkt io typ seq len data s).2.k ↔
        isUnslotted typ = true ∧ s.k.sSeq = 0 ∧
          s.k.win.opktlen = confusedLength s.k) := by
  unfold SpktRefuses at accepts
  unfold spktBuflen at tooLong
  cases kind : isUnslotted typ with
  | true =>
      rw [if_pos kind] at tooLong
      unfold spktDataEnd at tooLong
      unfold spkt
      rw [spktWith_unslotted io _ kind (by omega) (by omega)]
      dsimp only
      rw [if_pos (by omega)]
      obtain ⟨frame, rc, w, bct, size, sent⟩ :=
        spktConfused_eq io { s with k := forceBcta3 s.k }
      rw [sent]
      have config : confusedLength (forceBcta3 s.k) = confusedLength s.k := by
        rw [forceBcta3_eq]
        rfl
      dsimp only at size
      rw [config] at size
      refine ⟨frame, rc, size, rfl, rfl, ?_⟩
      rw [forceBcta3_eq]
      constructor
      · intro same
        exact ⟨rfl, same.sSeq.symm, same.opktlen.symm⟩
      · rintro ⟨_, sSeq, opktlen⟩
        exact ⟨rfl, rfl, sSeq.symm, opktlen.symm⟩
  | false =>
      have free : 0 ≤ (getSslot s.k).1 := by
        by_contra full
        exact accepts (Or.inr (Or.inr ⟨kind, by omega⟩))
      rw [if_neg (by simp [kind])] at tooLong
      unfold spkt
      rw [spktWith_slotted io _ kind (by omega) (by omega) free]
      dsimp only
      have header := length_pktHeader (inForce s.k) typ seq
        (spktData len data).length
      unfold spktDataEnd at tooLong
      rw [if_pos (by omega)]
      obtain ⟨frame, rc, w, bct, size, sent⟩ :=
        spktConfused_eq io
          { s with
            k := filled (getSslot s.k).1 typ seq (spktData len data).length
              ((sentFrame typ seq (spktData len data) s.k).take pBuflen)
              (takeSslot s.k).2 }
      have config : confusedLength
          (filled (getSslot s.k).1 typ seq (spktData len data).length
            ((sentFrame typ seq (spktData len data) s.k).take pBuflen)
            (takeSslot s.k).2) = confusedLength s.k := by
        unfold filled
        rw [forceBcta3_eq, takeSslot_shape]
        rfl
      dsimp only at size
      rw [config] at size
      rw [sent]
      refine ⟨frame, rc, size, rfl, rfl, ?_⟩
      refine iff_of_false ?_ (fun all => Bool.false_ne_true all.1)
      intro same
      have empty := getSslot_empty free
      have taken := congrFun same.opktinfo (getSslot s.k).1
      dsimp only [filled] at taken
      rw [put_same] at taken
      rw [← taken] at empty
      have long : 1008 < 7 + (spktData len data).length := by
        have size : pBuflen = 1008 := rfl
        omega
      dsimp only at empty
      omega

/--
`spkt` fails cleanly exactly when it refuses the packet before it has a buffer,
when the complete frame is shorter than the buffer, or when the data of a
packet that is not kept does not fit and what was sent last is the E packet
that reports it.
-/
theorem spkt_clean_iff
    (io : Io ω)
    (typ : UInt8)
    (seq len : Int)
    (data : Option (List UInt8))
    (s : Sys ω) :
    SpktClean io typ seq len data s ↔
      SpktRefuses typ seq s.k ∨
        (sentFrame typ seq (spktData len data) s.k).length <
          spktBuflen typ ∨
        (isUnslotted typ = true ∧
          spktBuflen typ < spktDataEnd (inForce s.k) typ seq
            (spktData len data).length ∧
          s.k.sSeq = 0 ∧ s.k.win.opktlen = confusedLength s.k) := by
  by_cases refuses : SpktRefuses typ seq s.k
  · refine iff_of_true ⟨?_, Or.inr ?_⟩ (Or.inl refuses)
    · intro index member
      rw [spktStored, if_pos refuses] at member
      exact absurd member List.not_mem_nil
    · rw [spkt_refuses refuses]
      exact ⟨rfl, rfl, rfl, rfl, rfl⟩
  · rw [or_iff_right refuses]
    have filling := spktFill_spec (forceBcta3 s.k).par typ seq
      (spktData len data) (spktTarget typ s.k)
    have longer := frame_longer (forceBcta3 s.k).par typ seq
      (spktData len data)
    have room : 100 ≤ spktBuflen typ := by
      unfold spktBuflen
      split <;> decide
    have where_stored (index : Nat) :
        index ∈ spktStored typ seq (spktData len data) s.k ↔
          index ∈ (spktFill (forceBcta3 s.k).par typ seq
            (spktData len data) (spktTarget typ s.k)).2.stored := by
      rw [spktStored, if_neg refuses]
    change spktDataEnd _ typ seq _ + 1 ≤
      (sentFrame typ seq (spktData len data) s.k).length at longer
    rw [forceBcta3_bct] at longer filling
    dsimp only at filling
    by_cases fits : spktDataEnd (inForce s.k) typ seq
        (spktData len data).length ≤ spktBuflen typ
    · rw [if_pos fits] at filling
      obtain ⟨_, whole, stored⟩ := filling
      by_cases short : (sentFrame typ seq (spktData len data) s.k).length <
          spktBuflen typ
      · refine iff_of_true ⟨?_, Or.inl ⟨whole, spkt_sent refuses short⟩⟩
          (Or.inl short)
        intro index member
        have below := (stored index).mp ((where_stored index).mp member)
        exact Nat.lt_of_le_of_lt below short
      · constructor
        · intro clean
          have last := (stored _).mpr (Nat.le_refl _)
          exact absurd (clean.inside _ ((where_stored _).mpr last)) short
        · rintro (isShort | ⟨_, tooLong, _⟩)
          · exact absurd isShort short
          · exact absurd fits (by omega)
    · rw [if_neg fits] at filling
      obtain ⟨frame, rc, size, code, log, same⟩ :=
        @spkt_confused ω io typ seq len data s refuses fits
      have notShort : ¬ (sentFrame typ seq (spktData len data) s.k).length <
          spktBuflen typ := by
        omega
      have small : confusedLength s.k < 100 := by
        unfold confusedLength
        split <;> decide
      constructor
      · rintro ⟨_, built | ⟨_, unchanged⟩⟩
        · have sent := built.sent
          rw [log] at sent
          injection sent with head
          injection head with frames
          rw [frames] at size
          omega
        · obtain ⟨kind, sSeq, opktlen⟩ := same.mp unchanged
          exact Or.inr ⟨kind, by omega, sSeq, opktlen⟩
      · rintro (isShort | ⟨kind, _, sSeq, opktlen⟩)
        · exact absurd isShort notShort
        · refine ⟨fun index member => ?_,
            Or.inr ⟨code, same.mpr ⟨kind, sSeq, opktlen⟩⟩⟩
          exact filling.2.2 index ((where_stored index).mp member)

/-- What a resend finds for a number that is registered. -/
theorem resend_registered
    {slot : Int}
    (number : 0 ≤ seq)
    (mapped : s.k.win.sPw seq = slot)
    (taken : 0 ≤ slot)
    (some : 0 < (s.k.win.opktinfo slot).len)
    (below : (s.k.win.opktinfo slot).len < pBuflen)
    (retries : short ((s.k.win.opktinfo slot).rtr + 1) ≤ s.k.par.retry) :
    ∃ rc,
      (resend io seq s).2.log =
        .txd ((s.k.win.opktinfo slot).buf.takeD
          (s.k.win.opktinfo slot).len.toNat 0) rc :: s.log := by
  have inside : ¬ ((decide ((s.k.win.opktinfo slot).len < 0) ||
      decide ((s.k.win.opktinfo slot).len ≥ pBuflen)) = true) := by
    simp only [Bool.or_eq_true, decide_eq_true_eq]
    omega
  have asked : ¬ seq < 0 := by
    omega
  have held : ¬ slot < 0 := by
    omega
  unfold resend
  simp only [if_neg asked, mapped, if_neg held]
  unfold resendSlot
  dsimp only
  rw [if_neg inside, if_neg (by omega), if_neg (by omega)]
  exact ⟨_, rfl⟩

/-- After a packet that did not fit, a part of it is sent again. -/
theorem spkt_partial_resent
    (kind : isUnslotted typ = false)
    (accepts : ¬ SpktRefuses typ seq s.k)
    (current : s.k.sSeq = seq)
    (tooLong : pBuflen < spktDataEnd (inForce s.k) typ seq
      (spktData len data).length)
    (below : (spktData len data).length < pBuflen)
    (retries : 1 ≤ s.k.par.retry) :
    ∃ rc,
      (resend io seq (spkt io typ seq len data s).2).2.log =
        .txd ((sentFrame typ seq (spktData len data) s.k).take
          (spktData len data).length) rc ::
            (spkt io typ seq len data s).2.log := by
  unfold SpktRefuses at accepts
  have free : 0 ≤ (getSslot s.k).1 := by
    by_contra full
    exact accepts (Or.inr (Or.inr ⟨kind, by omega⟩))
  have header := length_pktHeader (inForce s.k) typ seq
    (spktData len data).length
  have buflen : pBuflen = 1008 := rfl
  have longer := frame_longer (forceBcta3 s.k).par typ seq
    (spktData len data)
  rw [forceBcta3_bct] at longer
  change _ ≤ (sentFrame typ seq (spktData len data) s.k).length at longer
  have fresh : ((takeSslot s.k).2.win.opktinfo (getSslot s.k).1).rtr = 0 := by
    unfold takeSslot mapSseq
    dsimp only
    unfold getSslot at free ⊢
    split
    · dsimp only
      rw [put_same]
    · rename_i none
      rw [none] at free
      exact absurd free (show ¬ (0 : Int) ≤ -1 by decide)
  have mapped : (takeSslot s.k).2.win.sPw seq = (getSslot s.k).1 := by
    have sSeq : (getSslot s.k).2.sSeq = seq := by
      rw [getSslot_shape]
      exact current
    unfold takeSslot mapSseq
    dsimp only
    rw [sSeq, put_same]
  have retry : (takeSslot s.k).2.par.retry = s.k.par.retry := by
    rw [takeSslot_shape]
  unfold spktDataEnd at tooLong longer
  unfold spkt
  rw [spktWith_slotted io _ kind (by omega) (by omega) free]
  dsimp only
  rw [if_pos (by omega)]
  generalize sentFrame typ seq (spktData len data) s.k = frame at longer
  obtain ⟨report, rc, w, bct, _, sent⟩ := spktConfused_eq io
    { s with
      k := filled (getSslot s.k).1 typ seq (spktData len data).length
        (frame.take pBuflen) (takeSslot s.k).2 }
  rw [sent]
  have kept : (frame.take pBuflen).takeD (spktData len data).length 0 =
      frame.take (spktData len data).length := by
    rw [List.takeD_eq_take 0 (by rw [List.length_take]; omega),
      List.take_take, Nat.min_eq_left (by omega)]
  rw [← kept]
  have slot : (filled (getSslot s.k).1 typ seq (spktData len data).length
      (frame.take pBuflen) (takeSslot s.k).2).win.opktinfo
        (getSslot s.k).1 =
      { (takeSslot s.k).2.win.opktinfo (getSslot s.k).1 with
        typ := typ, seq := seq, len := (spktData len data).length
        buf := frame.take pBuflen } := by
    unfold filled
    exact put_same _ _ _
  have sPw : (filled (getSslot s.k).1 typ seq (spktData len data).length
      (frame.take pBuflen) (takeSslot s.k).2).win.sPw seq =
        (getSslot s.k).1 := by
    unfold filled
    rw [forceBcta3_eq]
    exact mapped
  have limit : (filled (getSslot s.k).1 typ seq (spktData len data).length
      (frame.take pBuflen) (takeSslot s.k).2).par.retry =
        s.k.par.retry := by
    unfold filled
    rw [forceBcta3_eq]
    exact retry
  generalize filled (getSslot s.k).1 typ seq (spktData len data).length
    (frame.take pBuflen) (takeSslot s.k).2 = k at slot sPw limit
  dsimp only
  generalize state : Sys.mk _ s.r w _ = t
  have opktinfo : t.k.win.opktinfo (getSslot s.k).1 =
      { (takeSslot s.k).2.win.opktinfo (getSslot s.k).1 with
        typ := typ, seq := seq, len := (spktData len data).length
        buf := frame.take pBuflen } := by
    rw [← state]
    exact slot
  have registered : t.k.win.sPw seq = (getSslot s.k).1 := by
    rw [← state]
    exact sPw
  have many : 1 ≤ t.k.par.retry := by
    rw [← state]
    exact limit.symm ▸ retries
  have again := @resend_registered ω io seq t (getSslot s.k).1 (by omega)
    registered free
  have log : t.log = .txd report rc :: s.log := by
    rw [← state]
  rw [opktinfo] at again
  dsimp only at again
  rw [fresh, Int.toNat_natCast, log] at again
  exact again (by omega) (by omega) many

end Outcomes

/-! ## Listings that are too long -/

/--
Of a listing of 1000 bytes the last two stores are outside of the buffer.  One
of 1002 bytes is refused, but a slot is taken for it and registered, and a
resend sends a part of the frame.
-/
theorem spkt_not_clean :
    (1009 ∈ spktStored (ch 'D') 0 (List.replicate 1000 (ch 'a'))
        (idleServer idleOs ()).k ∧
      spktBuflen (ch 'D') = 1008 ∧
      ¬ SpktClean (unixio idleOs) (ch 'D') 0 1000
        (some (List.replicate 1000 (ch 'a'))) (idleServer idleOs ())) ∧
      let failed := spkt (unixio idleOs) (ch 'D') 0 1002
        (some (List.replicate 1002 (ch 'a'))) (idleServer idleOs ())
      failed.1 = xError ∧
        ((idleServer idleOs ()).k.win.opktinfo 0).len = 0 ∧
        (failed.2.k.win.opktinfo 0).len = 1002 ∧
        ¬ SpktClean (unixio idleOs) (ch 'D') 0 1002
          (some (List.replicate 1002 (ch 'a'))) (idleServer idleOs ()) ∧
        ∃ rc,
          (resend (unixio idleOs) 0 failed.2).2.log =
            .txd ((sentFrame (ch 'D') 0
              (spktData 1002 (some (List.replicate 1002 (ch 'a'))))
              (idleServer idleOs ()).k).take 1002) rc :: failed.2.log := by
  have outside : 1009 ∈ spktStored (ch 'D') 0
      (spktData 1000 (some (List.replicate 1000 (ch 'a'))))
      (idleServer idleOs ()).k := by
    decide +kernel
  have accepts : ¬ SpktRefuses (ch 'D') 0 (idleServer idleOs ()).k := by
    decide +kernel
  have tooLong : ¬ spktDataEnd (inForce (idleServer idleOs ()).k) (ch 'D') 0
      (spktData 1002 (some (List.replicate 1002 (ch 'a')))).length ≤
        spktBuflen (ch 'D') := by
    decide +kernel
  refine ⟨⟨by decide +kernel, by decide, ?_⟩, by decide +kernel,
    by decide +kernel, by decide +kernel, ?_, ?_⟩
  · intro clean
    exact absurd (clean.inside 1009 outside) (by decide)
  · rintro ⟨_, built | ⟨_, unchanged⟩⟩
    · obtain ⟨frame, rc, size, _, log, _⟩ :=
        @spkt_confused _ (unixio idleOs) _ _ 1002 _ _ accepts tooLong
      have sent := built.sent
      rw [log] at sent
      injection sent with head
      injection head with frames
      have lengths := congrArg List.length frames
      rw [size] at lengths
      exact absurd lengths (by decide +kernel)
    · have changed : (spkt (unixio idleOs) (ch 'D') 0 1002
          (some (List.replicate 1002 (ch 'a')))
          (idleServer idleOs ())).2.k.win.opktinfo ≠
            (idleServer idleOs ()).k.win.opktinfo := by
        intro same
        have lens := congrArg (fun info => (info 0).len) same
        exact absurd lens (by decide +kernel)
      exact changed unchanged.opktinfo
  · have size : (spktData 1002
        (some (List.replicate 1002 (ch 'a')))).length = 1002 := by
      decide +kernel
    have resent := @spkt_partial_resent _ (unixio idleOs) (ch 'D') 0 1002
      (some (List.replicate 1002 (ch 'a'))) (idleServer idleOs ())
      (by decide) accepts (by decide +kernel) (by decide +kernel)
      (by decide +kernel) (by decide +kernel)
    rw [size] at resent
    exact resent

end Slate106.Kermit
