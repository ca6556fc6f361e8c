import Slate106.KermitDecode
import Slate106.KermitEncode

namespace Slate106.Kermit

open CBytes

/-!
# The receive window and attribute packets

`handle_good_rpkt` stores an arriving data packet in the receive window,
`flush_to_file` empties the window into the output file at the end of a file,
and `sattr` sends an attribute packet.
-/

variable {ω : Type}

/-- How `handle_good_rpkt()` classifies an arriving sequence number. -/
structure Arrival where
  high : Int
  isnxt : Bool
  isgap : Bool
  isold : Bool
  deriving Repr, DecidableEq

/--
`for (i = low; i != hp; i++)` looking for `rseq` among `i & 63`.  When `low`
is past `hp` the loop goes on past 64; it then finds every `rseq` within one
turn of the numbers, so the first argument is at least 64.
-/
def scanOld
    (rseq hp : Int) : Nat → Int → Bool
  | 0, _ => false
  | n + 1, i =>
      if i = hp then false
      else if rseq = i % 64 then true
      else scanOld rseq hp n (i + 1)

/-- The first half of `handle_good_rpkt()`: where `rseq` lies in the window. -/
def classify
    (k : KData)
    (rseq : Int) : Arrival :=
  let wsize : Int := k.par.wslots
  if nusedRslots k = 0 then
    { high := -1, isnxt := true, isgap := false, isold := false }
  else
    let high := latestRseq k
    let low := high - wsize + 1
    let low := if low < 0 then low + 64 else low
    let eseq := (high + 1) % 64
    let isgap :=
      decide (rseq ≠ eseq) &&
        (List.range (k.par.wslots - 1)).any
          (fun j => rseq = (high + (j + 2 : Nat)) % 64)
    { high := high
      isnxt := rseq = eseq
      isgap := isgap
      isold :=
        decide (rseq ≠ eseq) && !isgap &&
          scanOld rseq ((high + 1) % 64) 192 low }

/-- Write the packet of a slot to the file, unless a listing is received. -/
def decodeSlot
    (io : Io ω)
    (rslot : Int)
    (s : Sys ω) : Int × Sys ω :=
  if s.k.recvdir ≠ 1 then
    decodeFile io (s.k.win.ipktinfo rslot).buf rslot s
  else (xOk, s)

/--
The loop that writes old packets to the file to keep the receive window
aligned with the sender's; the first argument counts the iterations left.
-/
def alignWindow
    (io : Io ω)
    (rseq : Int) : Nat → Sys ω → Int × Sys ω
  | 0, s => (xOk, s)
  | n + 1, s =>
      let wsize : Int := s.k.par.wslots
      let iseq := earliestRseq s.k
      if iseq < 0 || iseq ≥ 64 then (xOk, s)
      else
        let dseq := rseq - iseq
        let dseq := if dseq < 0 then dseq + 64 else dseq
        if dseq < wsize then alignWindow io rseq n s
        else
          let rslot := s.k.win.rPw iseq
          if rslot < 0 || rslot ≥ wsize then (xError, s)
          else if (s.k.win.ipktinfo rslot).flg = 0 then (xError, s)
          else
            let decoded := decodeSlot io rslot s
            if decoded.1 ≠ xOk then
              (decoded.1, epkt io (lit "EKSW decode failed") decoded.2)
            else alignWindow io rseq n (freeRslot io rslot decoded.2)

/-- The NAKs for a gap: `nnak` packets from `iseq` on. -/
def nakGap
    (io : Io ω)
    (high : Int) : Nat → Nat → Sys ω → Sys ω
  | 0, _, s => s
  | n + 1, i, s =>
      let iseq := (high + 1 + i) % 64
      nakGap io high n (i + 1) (nak io iseq (s.k.win.rPw iseq) s).2

/-- What `handle_good_rpkt()` writes into the receive slot of a packet. -/
def storeRslot
    (rslot rseq : Int)
    (pbuf : List UInt8)
    (k : KData) : KData :=
  { k with
    win.ipktinfo := put k.win.ipktinfo rslot
      { k.win.ipktinfo rslot with
        buf := (cstr pbuf ++ [0]).take pBuflen
        len := ((cstr pbuf).take pBuflen).length
        flg := 1
        seq := rseq
        crc := chk3 (cstr pbuf) }
    win.rPw := put k.win.rPw rseq rslot }

/-- Put an arrived packet into a receive slot. -/
def addRpkt
    (io : Io ω)
    (rseq : Int)
    (pbuf : List UInt8)
    (s : Sys ω) : Int × Sys ω :=
  let s := testRslots io s
  let rslot := (getRslot s.k).1
  let s := onK (fun k => (getRslot k).2) s
  if rslot < 0 || rslot ≥ s.k.par.wslots then (xError, s)
  else
    let s := testRslots io s
    (xOk, testRslots io (onK (storeRslot rslot rseq pbuf) s))

/-- The second half of `handle_good_rpkt()`: acknowledge and store. -/
def placeRpkt
    (io : Io ω)
    (a : Arrival)
    (rseq : Int)
    (pbuf : List UInt8)
    (s : Sys ω) : Int × Sys ω :=
  if a.isnxt then addRpkt io rseq pbuf (ack io rseq none s).2
  else if a.isgap then
    let nnak := rseq - a.high - 1
    let nnak := if nnak < 0 then nnak + 64 else nnak
    addRpkt io rseq pbuf
      (nakGap io a.high nnak.toNat 0 (ack io rseq none s).2)
  else if a.isold then
    let s := (ack io rseq none s).2
    let rslot := s.k.win.rPw rseq
    if rslot < 0 || rslot ≥ s.k.par.wslots then addRpkt io rseq pbuf s
    else (xOk, s)
  else (xOk, s)

/-- `handle_good_rpkt()`. -/
def handleGoodRpkt
    (io : Io ω)
    (rseq : Int)
    (pbuf : List UInt8)
    (s : Sys ω) : Int × Sys ω :=
  let a := classify s.k rseq
  if a.isnxt || a.isgap then
    let aligned := alignWindow io rseq s.k.par.wslots s
    if aligned.1 ≠ xOk then aligned
    else placeRpkt io a rseq pbuf aligned.2
  else placeRpkt io a rseq pbuf s

/-- The loop of `flush_to_file()`; the first argument bounds the slots. -/
def flushLoop
    (io : Io ω) : Nat → Int → Sys ω → Option Int × Int × Sys ω
  | 0, rc, s => (none, rc, s)
  | n + 1, rc, s =>
      let wsize : Int := s.k.par.wslots
      let iseq := earliestRseq s.k
      if iseq < 0 then (none, rc, s)
      else
        let rslot := s.k.win.rPw iseq
        if rslot < 0 || rslot ≥ wsize then (some xError, rc, s)
        else if (s.k.win.ipktinfo rslot).flg = 0 then (some xError, rc, s)
        else
          let decoded := decodeFile io (s.k.win.ipktinfo rslot).buf rslot s
          if decoded.1 ≠ xOk then
            (some decoded.1, rc,
              epkt io (lit "EKSW flush to file failed") decoded.2)
          else flushLoop io n xOk (freeRslot io rslot decoded.2)

/-- `flush_to_file()`. -/
def flushToFile
    (io : Io ω)
    (s : Sys ω) : Int × Sys ω :=
  let flushed := flushLoop io (s.k.par.wslots + 1) xOk s
  let s := flushed.2.2
  match flushed.1 with
  | some rc => (rc, s)
  | none =>
      if s.k.obufpos > 0 then
        let written := callWritef io (s.k.obuf.takeD s.k.obufpos 0) s
        (written.1, rewindObuf (countWritten s.k.obufpos written.2))
      else (flushed.2.1, s)

/-- `sattr()`. -/
def sattr
    (io : Io ω)
    (s : Sys ω) : Int × Sys ω :=
  let name := (s.k.filename.map (deref s)).getD []
  let info := io.finfo s.w name s.k.par.binary
  let filelength := info.1
  let date := (cstr info.2.1).take dateMax
  let s := { s with k.par.binary := info.2.2.1, w := info.2.2.2 }
  let r := s.r
  let r := if filelength > -1 then { r with filesize := filelength } else r
  let sofar :=
    (sattrType s.k.par.binary ++
      sattrLength (sattrType s.k.par.binary).length filelength).length
  let r :=
    if sattrDate sofar date ≠ [] then
      { r with filedate := date.take (dateMax - 1) ++ [0] }
    else r
  let data := sattrData s.k.par.binary filelength date
  let s := { s with r := r, k := pokeXdata 0 (data ++ [0]) s.k }
  let taken := getSslot s.k
  if taken.1 < 0 then (0, s)
  else
    let s := { s with k := mapSseq taken.1 taken.2 }
    spkt io (ch 'A') s.k.sSeq (-1) (some (xdataMem s.k)) s

end Slate106.Kermit
