import Slate106.KermitIo
import Slate106.KermitWindows

namespace Slate106.Kermit

open CBytes

/-!
# Sending packets

`spkt`, `ack`, `nak`, `epkt`, `resend` and `free_rslot`.

`spkt()` calls `epkt()` when the data does not fit the buffer, and `epkt()`
calls `spkt()`.  The message of that error packet fits, so the recursion ends
there: `spktWith` takes what is done in the confused case as an argument.
-/

variable {ω : Type}

/-- `typ == 'Y' || typ == 'N' || typ == 'E'`: packets that are not kept. -/
def isUnslotted
    (typ : UInt8) : Bool :=
  typ = ch 'Y' || typ = ch 'N' || typ = ch 'E'

/-- The size of the buffer `spkt()` builds a packet in. -/
def spktBuflen
    (typ : UInt8) : Nat :=
  if isUnslotted typ then 100 else pBuflen

/-- `if (k->bcta3) k->bct = 3;` -/
def forceBcta3
    (k : KData) : KData :=
  if k.cfg.bcta3 ≠ 0 then { k with par.bct := 3 } else k

/--
The header of a packet from its length character on: the short form, or the
long form with the extended length and the header checksum.
-/
def pktHeader
    (bct : Nat)
    (typ : UInt8)
    (seq : Int)
    (len : Nat) : List UInt8 :=
  let j := len + bct
  if len + bct + 2 > 94 then
    let hdr :=
      [tochar 0, tochar (uchar seq), typ, tochar (UInt8.ofNat (j / 95)),
        tochar (UInt8.ofNat (j % 95))]
    hdr ++ [tochar (UInt8.ofNat (chk1 (cstr hdr)))]
  else
    [tochar (UInt8.ofNat (j + 2)), tochar (uchar seq), typ]

/-- What a packet holds between its start and its terminator. -/
def pktBody
    (bct : Nat)
    (typ : UInt8)
    (seq : Int)
    (data : List UInt8) : List UInt8 :=
  let checked := pktHeader bct typ seq data.length ++ data
  checked ++ blockCheck bct (cstr checked)

/-- A whole packet. -/
def pktFrame
    (par : Params)
    (typ : UInt8)
    (seq : Int)
    (data : List UInt8) : List UInt8 :=
  par.sSoh :: (pktBody par.bct typ seq data ++ [par.sEom])

theorem length_pktHeader
    (bct : Nat)
    (typ : UInt8)
    (seq : Int)
    (len : Nat) :
    (pktHeader bct typ seq len).length ≤ 6 := by
  unfold pktHeader
  dsimp only
  split <;> simp

theorem length_blockCheck_le
    (bct : Nat)
    (pkt : List UInt8) :
    (blockCheck bct pkt).length ≤ 3 := by
  unfold blockCheck
  split <;> simp

/-- Header, check, start and terminator add at most eleven bytes. -/
theorem length_pktFrame_le
    (par : Params)
    (typ : UInt8)
    (seq : Int)
    (data : List UInt8) :
    (pktFrame par typ seq data).length ≤ data.length + 11 := by
  have header := length_pktHeader par.bct typ seq data.length
  have check := length_blockCheck_le par.bct
    (cstr (pktHeader par.bct typ seq data.length ++ data))
  simp only [pktFrame, pktBody, List.length_cons, List.length_append,
    List.length_nil]
  omega

theorem le_length_pktFrame
    (par : Params)
    (typ : UInt8)
    (seq : Int)
    (data : List UInt8) :
    data.length + 5 ≤ (pktFrame par typ seq data).length := by
  have header : 3 ≤ (pktHeader par.bct typ seq data.length).length := by
    unfold pktHeader
    dsimp only
    split <;> simp
  simp only [pktFrame, pktBody, List.length_cons, List.length_append,
    List.length_nil]
  omega

/-- The bytes `spkt()` takes from `data`; a negative `len` asks for the string. -/
def spktData
    (len : Int)
    (data : Option (List UInt8)) : List UInt8 :=
  match data with
  | none => []
  | some bytes =>
      if len < 0 then cstr bytes else bytes.takeD len.toNat 0

/-- The slot `spkt()` allocates for a packet it keeps. -/
def spktSlot
    (typ : UInt8)
    (seq : Int)
    (len : Nat)
    (k : KData) : Int × KData :=
  let taken := takeSslot k
  let slot := taken.1
  if slot < 0 || slot ≥ k.par.wslots then (slot, (getSslot k).2)
  else
    let k := taken.2
    (slot,
      { k with
        win.opktinfo := put k.win.opktinfo slot
          { k.win.opktinfo slot with typ := typ, seq := seq, len := len } })

/-- `k->opktinfo[slot].buf` after bytes were stored there. -/
def storeSslot
    (slot : Int)
    (bytes : List UInt8)
    (k : KData) : KData :=
  { k with
    win.opktinfo := put k.win.opktinfo slot
      { k.win.opktinfo slot with buf := bytes } }

/-- `k->opktinfo[slot].len = i`. -/
def setSslotLen
    (slot : Int)
    (len : Nat)
    (k : KData) : KData :=
  { k with
    win.opktinfo := put k.win.opktinfo slot
      { k.win.opktinfo slot with len := len } }

/--
The part of `spkt()` that builds the packet in its buffer and sends it.
`slot` is `none` for a packet that is not kept.
-/
def spktBuild
    (io : Io ω)
    (confused : Sys ω → Sys ω)
    (typ : UInt8)
    (seq : Int)
    (bytes : List UInt8)
    (slot : Option Int)
    (s : Sys ω) : Int × Sys ω :=
  let s := { s with k := forceBcta3 s.k }
  let buflen := spktBuflen typ
  let hdrEnd := 1 + (pktHeader s.k.par.bct typ seq bytes.length).length
  let frame := pktFrame s.k.par typ seq bytes
  let store (stored : List UInt8) (k : KData) : KData :=
    match slot with
    | some slot => storeSslot slot stored k
    | none => k
  if hdrEnd + bytes.length > buflen then
    (xError, confused { s with k := store (frame.take buflen) s.k })
  else
    let s := { s with k := store (frame ++ [0]) s.k }
    if frame.length ≥ buflen then (xError, s)
    else
      let k := { s.k with sSeq := seq, win.opktlen := frame.length }
      let k :=
        match slot with
        | some slot => setSslotLen slot frame.length k
        | none => k
      callTxd io frame { s with k := k }

/-- `spkt()`, given what it does when the data does not fit. -/
def spktWith
    (io : Io ω)
    (confused : Sys ω → Sys ω)
    (typ : UInt8)
    (seq len : Int)
    (data : Option (List UInt8))
    (s : Sys ω) : Int × Sys ω :=
  if seq < 0 || seq > 63 then (xError, s)
  else
    let bytes := spktData len data
    if isUnslotted typ then spktBuild io confused typ seq bytes none s
    else
      let taken := spktSlot typ seq bytes.length s.k
      let s' := { s with k := taken.2 }
      if taken.1 < 0 || taken.1 ≥ s.k.par.wslots then (xError, s')
      else spktBuild io confused typ seq bytes (some taken.1) s'

/-- `k->bct = bct;` -/
def setBct
    (bct : Nat)
    (s : Sys ω) : Sys ω :=
  { s with k.par.bct := bct }

/-- `epkt()`, given what `spkt()` does when the message does not fit. -/
def epktWith
    (io : Io ω)
    (confused : Sys ω → Sys ω)
    (msg : List UInt8)
    (s : Sys ω) : Sys ω :=
  let bctsv := if s.k.cfg.bcta3 ≠ 0 then 3 else s.k.par.bct
  let bct := if s.k.cfg.bcta3 ≠ 0 then 3 else 1
  let s := setBct bct s
  setBct bctsv (spktWith io confused (ch 'E') 0 (-1) (some msg) s).2

/-- `epkt("EKSW spkt confused", k)`, a message that fits its buffer. -/
def spktConfused
    (io : Io ω)
    (s : Sys ω) : Sys ω :=
  epktWith io id (lit "EKSW spkt confused") s

/-- `spkt()`. -/
def spkt
    (io : Io ω)
    (typ : UInt8)
    (seq len : Int)
    (data : Option (List UInt8))
    (s : Sys ω) : Int × Sys ω :=
  spktWith io (spktConfused io) typ seq len data s

/-- `epkt()`. -/
def epkt
    (io : Io ω)
    (msg : List UInt8)
    (s : Sys ω) : Sys ω :=
  epktWith io (spktConfused io) msg s

/-- `nak()`. -/
def nak
    (io : Io ω)
    (seq slot : Int)
    (s : Sys ω) : Int × Sys ω :=
  let sent := spkt io (ch 'N') seq 0 none s
  let s := sent.2
  if slot ≥ 0 && slot < 64 then
    let p := s.k.win.ipktinfo slot
    let s :=
      { s with
        k.win.ipktinfo := put s.k.win.ipktinfo slot
          { p with rtr := short (p.rtr + 1) } }
    (if p.rtr > s.k.par.retry then xError else sent.1, s)
  else (sent.1, s)

/-- `ack()`. -/
def ack
    (io : Io ω)
    (seq : Int)
    (text : Option (List UInt8))
    (s : Sys ω) : Int × Sys ω :=
  let text := text.map cstr
  let len : Int := ((text.getD []).length : Nat)
  let sent := spkt io (ch 'Y') seq len text s
  let s := sent.2
  if sent.1 = xOk && seq = s.k.rSeq then
    (sent.1, { s with k.rSeq := (s.k.rSeq + 1) % 64 })
  else (sent.1, s)

/-- The part of `resend()` after the slot to send again is known. -/
def resendSlot
    (io : Io ω)
    (slot : Int)
    (s : Sys ω) : Int × Sys ω :=
  let p := s.k.win.opktinfo slot
  let s := { s with k.win.opktlen := p.len }
  if p.len < 0 || p.len ≥ pBuflen then (xError, s)
  else if p.len = 0 then (xOk, s)
  else
    let rtr := short (p.rtr + 1)
    let s :=
      { s with
        k.nresend := s.k.nresend + 1
        k.win.opktinfo := put s.k.win.opktinfo slot { p with rtr := rtr } }
    if rtr > s.k.par.retry then (xError, s)
    else callTxd io (p.buf.takeD p.len.toNat 0) s

/-- `resend()`. -/
def resend
    (io : Io ω)
    (seq : Int)
    (s : Sys ω) : Int × Sys ω :=
  let seq := if seq < 0 then earliestSseq s.k else seq
  if seq < 0 then (xOk, s)
  else
    let slot := s.k.win.sPw seq
    if slot < 0 then
      let seq := earliestSseq s.k
      if seq < 0 then (xOk, s)
      else
        let slot := s.k.win.sPw seq
        if slot < 0 then (xOk, s) else resendSlot io slot s
    else resendSlot io slot s

/-- `free_rslot()`. -/
def freeRslot
    (io : Io ω)
    (slot : Int)
    (s : Sys ω) : Sys ω :=
  if slot < 0 || slot ≥ pWslots then
    epkt io (lit "EKSW free_rslot confused") s
  else { s with k := clearRslot slot s.k }

/-- `test_rslots()`, whose result no caller uses. -/
def testRslots
    (io : Io ω)
    (s : Sys ω) : Sys ω :=
  let bad :=
    (slots s.k).any fun slot =>
      let p := s.k.win.ipktinfo slot
      decide (p.seq ≥ 0) && chk3 (cstr p.buf) != p.crc
  if bad then epkt io (lit "EKSW test rslots failed") s else s

end Slate106.Kermit
