import Slate106.KermitSpkt

namespace Slate106.Kermit

open CBytes

/-!
# What `spkt()` sends

The effect of `spkt` when the packet fits its buffer, as one equation for the
packets that are kept in a slot and one for those that are not.
-/

variable {ω : Type}

/-- The block check type in force. -/
def inForce
    (k : KData) : Nat :=
  if k.cfg.bcta3 ≠ 0 then 3 else k.par.bct

theorem forceBcta3_eq
    (k : KData) :
    forceBcta3 k = { k with par.bct := inForce k } := by
  unfold forceBcta3 inForce
  split <;> rfl

@[simp] theorem forceBcta3_bct
    (k : KData) :
    (forceBcta3 k).par.bct = inForce k := by
  rw [forceBcta3_eq]

/-- The slot number `get_sslot()` returns is below the window size. -/
theorem getSslot_lt
    (k : KData) :
    (getSslot k).1 < k.par.wslots := by
  unfold getSslot
  cases found :
      (slots k).find? (fun slot => (k.win.opktinfo slot).len < 1) with
  | none =>
      simp
      omega
  | some slot =>
      have member := List.mem_of_find?_eq_some found
      simp only [slots, List.mem_map, List.mem_range] at member
      obtain ⟨index, inside, rfl⟩ := member
      exact Int.ofNat_lt.mpr inside

/-- The frame `spkt()` builds in the current state. -/
def sentFrame
    (typ : UInt8)
    (seq : Int)
    (data : List UInt8)
    (k : KData) : List UInt8 :=
  pktFrame (forceBcta3 k).par typ seq data

/-- `k_data` after `spkt()` has built a packet that is not kept. -/
def announced
    (typ : UInt8)
    (seq : Int)
    (data : List UInt8)
    (k : KData) : KData :=
  { forceBcta3 k with
    sSeq := seq
    win.opktlen := (sentFrame typ seq data k).length }

/-- `k_data` after `spkt()` has filled a slot it has taken. -/
def filled
    (slot : Int)
    (typ : UInt8)
    (seq : Int)
    (len : Nat)
    (buf : List UInt8)
    (k : KData) : KData :=
  { forceBcta3 k with
    win.opktinfo := put k.win.opktinfo slot
      { k.win.opktinfo slot with
        typ := typ, seq := seq, len := len, buf := buf } }

/-- `k_data` after `spkt()` has built a packet in its slot. -/
def loaded
    (typ : UInt8)
    (seq : Int)
    (data : List UInt8)
    (k : KData) : KData :=
  let frame := sentFrame typ seq data k
  { filled (getSslot k).1 typ seq frame.length (frame ++ [0])
      (takeSslot k).2 with
    sSeq := seq
    win.opktlen := frame.length }

private theorem frame_shape
    (par : Params)
    (typ : UInt8)
    (seq : Int)
    (data : List UInt8) :
    1 + (pktHeader par.bct typ seq data.length).length + data.length ≤
      (pktFrame par typ seq data).length := by
  simp [pktFrame, pktBody]
  omega

/-- `getSslot()` only changes the packet slots. -/
theorem getSslot_shape
    (k : KData) :
    (getSslot k).2 = { k with win := (getSslot k).2.win } := by
  unfold getSslot
  split <;> rfl

theorem takeSslot_shape
    (k : KData) :
    (takeSslot k).2 = { k with win := (takeSslot k).2.win } := by
  simp only [takeSslot, mapSseq]
  rw [getSslot_shape]

/-- `spkt()` for a packet of a kind that is not kept. -/
theorem spktWith_unslotted
    (io : Io ω)
    (confused : Sys ω → Sys ω)
    {typ : UInt8}
    {seq len : Int}
    {text : Option (List UInt8)}
    {s : Sys ω}
    (kind : isUnslotted typ = true)
    (lower : 0 ≤ seq)
    (upper : seq ≤ 63) :
    spktWith io confused typ seq len text s =
      let data := spktData len text
      let frame := sentFrame typ seq data s.k
      let header := pktHeader (inForce s.k) typ seq data.length
      if 1 + header.length + data.length > 100 then
        (xError, confused { s with k := forceBcta3 s.k })
      else if frame.length ≥ 100 then
        (xError, { s with k := forceBcta3 s.k })
      else callTxd io frame { s with k := announced typ seq data s.k } := by
  have inRange : ¬ ((decide (seq < 0) || decide (seq > 63)) = true) := by
    simp
    omega
  unfold spktWith
  rw [if_neg inRange]
  simp only [if_pos kind, spktBuild, spktBuflen, forceBcta3_bct, sentFrame,
    announced]
  rfl

/-- A packet of a kind that is not kept: it is built and transmitted. -/
theorem spkt_unslotted
    (io : Io ω)
    {typ : UInt8}
    {seq len : Int}
    {text : Option (List UInt8)}
    {s : Sys ω}
    (kind : isUnslotted typ = true)
    (lower : 0 ≤ seq)
    (upper : seq ≤ 63)
    (fits :
      (sentFrame typ seq (spktData len text) s.k).length < 100) :
    spkt io typ seq len text s =
      callTxd io (sentFrame typ seq (spktData len text) s.k)
        { s with k := announced typ seq (spktData len text) s.k } := by
  have inside := frame_shape (forceBcta3 s.k).par typ seq (spktData len text)
  rw [forceBcta3_bct] at inside
  have notConfused :
      ¬ (1 + (pktHeader (inForce s.k) typ seq
          (spktData len text).length).length + (spktData len text).length >
        100) := by
    simp only [sentFrame] at fits
    omega
  rw [spkt, spktWith_unslotted io _ kind lower upper]
  simp only [if_neg notConfused, if_neg (Nat.not_le_of_lt fits)]

private theorem forceBcta3_win
    (k : KData)
    (win : Windows) :
    forceBcta3 { k with win := win } = { forceBcta3 k with win := win } := by
  simp only [forceBcta3_eq, inForce]

private theorem forceBcta3_takeSslot
    (k : KData) :
    forceBcta3 (takeSslot k).2 =
      { forceBcta3 k with win := (takeSslot k).2.win } := by
  rw [takeSslot_shape, forceBcta3_win]

/-- A free slot is taken for a packet. -/
theorem spktSlot_free
    {typ : UInt8}
    {seq : Int}
    {len : Nat}
    {k : KData}
    (free : 0 ≤ (getSslot k).1) :
    spktSlot typ seq len k =
      ((getSslot k).1,
        { k with
          win :=
            { (takeSslot k).2.win with
              opktinfo :=
                put (takeSslot k).2.win.opktinfo (getSslot k).1
                  { (takeSslot k).2.win.opktinfo (getSslot k).1 with
                    typ := typ, seq := seq, len := len } } }) := by
  have below := getSslot_lt k
  have slotOk :
      ¬ ((decide ((takeSslot k).1 < 0) ||
        decide ((takeSslot k).1 ≥ k.par.wslots)) = true) := by
    rw [show (takeSslot k).1 = (getSslot k).1 by rfl]
    simp
    omega
  unfold spktSlot
  rw [if_neg slotOk, takeSslot_shape]
  rfl

/-- `spkt()` for a packet of a kind that is kept, when no slot is free. -/
theorem spktWith_full
    (io : Io ω)
    (confused : Sys ω → Sys ω)
    {typ : UInt8}
    {seq len : Int}
    {text : Option (List UInt8)}
    {s : Sys ω}
    (kind : isUnslotted typ = false)
    (lower : 0 ≤ seq)
    (upper : seq ≤ 63)
    (full : ¬ 0 ≤ (getSslot s.k).1) :
    spktWith io confused typ seq len text s =
      (xError, { s with k := (getSslot s.k).2 }) := by
  have inRange : ¬ ((decide (seq < 0) || decide (seq > 63)) = true) := by
    simp
    omega
  have unkept : ¬ (isUnslotted typ = true) := by
    simp [kind]
  have refused : (decide ((takeSslot s.k).1 < 0) ||
      decide ((takeSslot s.k).1 ≥ s.k.par.wslots)) = true := by
    rw [show (takeSslot s.k).1 = (getSslot s.k).1 by rfl]
    simp
    omega
  have slot :
      spktSlot typ seq (spktData len text).length s.k =
        ((takeSslot s.k).1, (getSslot s.k).2) := by
    unfold spktSlot
    rw [if_pos refused]
  unfold spktWith
  rw [if_neg inRange]
  dsimp only
  rw [if_neg unkept, slot, if_pos refused]

/-- `spkt()` for a packet of a kind that is kept, when a slot is free. -/
theorem spktWith_slotted
    (io : Io ω)
    (confused : Sys ω → Sys ω)
    {typ : UInt8}
    {seq len : Int}
    {text : Option (List UInt8)}
    {s : Sys ω}
    (kind : isUnslotted typ = false)
    (lower : 0 ≤ seq)
    (upper : seq ≤ 63)
    (free : 0 ≤ (getSslot s.k).1) :
    spktWith io confused typ seq len text s =
      let data := spktData len text
      let frame := sentFrame typ seq data s.k
      let slot := (getSslot s.k).1
      let header := pktHeader (inForce s.k) typ seq data.length
      if 1 + header.length + data.length > pBuflen then
        (xError,
          confused
            { s with
              k := filled slot typ seq data.length (frame.take pBuflen)
                (takeSslot s.k).2 })
      else if frame.length ≥ pBuflen then
        (xError,
          { s with
            k := filled slot typ seq data.length (frame ++ [0])
              (takeSslot s.k).2 })
      else callTxd io frame { s with k := loaded typ seq data s.k } := by
  have inRange : ¬ ((decide (seq < 0) || decide (seq > 63)) = true) := by
    simp
    omega
  have below := getSslot_lt s.k
  have slotOk :
      ¬ ((decide ((getSslot s.k).1 < 0) ||
        decide ((getSslot s.k).1 ≥ s.k.par.wslots)) = true) := by
    simp
    omega
  have unkept : ¬ (isUnslotted typ = true) := by
    simp [kind]
  unfold spktWith
  rw [if_neg inRange]
  simp only [if_neg unkept, spktSlot_free free, if_neg slotOk, spktBuild,
    spktBuflen, forceBcta3_win, storeSslot, setSslotLen, put_put, put_same,
    forceBcta3_bct, loaded, filled, forceBcta3_takeSslot, sentFrame]

/-- A packet of a kind that is kept: it is put into a slot and transmitted. -/
theorem spkt_slotted
    (io : Io ω)
    {typ : UInt8}
    {seq len : Int}
    {text : Option (List UInt8)}
    {s : Sys ω}
    (kind : isUnslotted typ = false)
    (lower : 0 ≤ seq)
    (upper : seq ≤ 63)
    (free : 0 ≤ (getSslot s.k).1)
    (fits :
      (sentFrame typ seq (spktData len text) s.k).length < pBuflen) :
    spkt io typ seq len text s =
      callTxd io (sentFrame typ seq (spktData len text) s.k)
        { s with k := loaded typ seq (spktData len text) s.k } := by
  have inside := frame_shape (forceBcta3 s.k).par typ seq (spktData len text)
  rw [forceBcta3_bct] at inside
  have notConfused :
      ¬ (1 + (pktHeader (inForce s.k) typ seq
          (spktData len text).length).length + (spktData len text).length >
        pBuflen) := by
    simp only [sentFrame] at fits
    omega
  rw [spkt, spktWith_slotted io _ kind lower upper free]
  simp only [if_neg notConfused, if_neg (Nat.not_le_of_lt fits)]

end Slate106.Kermit
