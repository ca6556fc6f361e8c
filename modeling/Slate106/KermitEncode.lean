import Slate106.KermitSpkt

namespace Slate106.Kermit

open CBytes

/-!
# Building data fields

`encode` writes one character or run into the packet, `getpkt` fills a packet
from the input file or from a string in memory, `encstr` and `sdata` call it.

An `int` that holds a character or `-1` is an `Option UInt8`.
-/

variable {ω : Type}

/-- Store bytes at an offset from the `xdata` pointer. -/
def pokeXdata
    (offset : Nat)
    (bytes : List UInt8)
    (k : KData) : KData :=
  match k.enc.xdata with
  | .xdatabuf =>
      { k with enc.xdatabuf := poke k.enc.xdatabuf offset bytes }
  | .ipktbuf base =>
      { k with ipktbuf := poke k.ipktbuf (base + offset) bytes }

/-- The memory from the `xdata` pointer on. -/
def xdataMem
    (k : KData) : List UInt8 :=
  match k.enc.xdata with
  | .xdatabuf => k.enc.xdatabuf
  | .ipktbuf base => k.ipktbuf.drop base

/-- `k->xdata[(k->size)++] = byte` for each byte. -/
def emit
    (bytes : List UInt8)
    (k : KData) : KData :=
  let k' := pokeXdata k.enc.size bytes k
  { k' with enc.size := k.enc.size + bytes.length }

/-- Characters that `encode()` makes printable in binary or in text mode. -/
def isQuoted
    (binary : Int)
    (c : UInt8) : Bool :=
  if binary = 1 then c = 0 || c = packetStart || c = packetEnd
  else if binary = 0 then
    c = 0 || c = packetStart || c = 3 || c = 4 || c = 10 || c = packetEnd ||
      c = 21 || c = 127
  else false

/-- The bytes `encode()` emits for one character, after run-length encoding. -/
def encodeBytes
    (cfg : Config)
    (p : Params)
    (a : UInt8) : List UInt8 :=
  let a7or8 := if p.binary = 1 then a else a &&& 127
  let prefixed := p.ebqflg ≠ 0 ∧ a &&& 128 ≠ 0
  let a := if prefixed then a7or8 else a
  (if prefixed then [p.ebq] else []) ++
    if isQuoted p.binary a7or8 then [cfg.sCtlq, ctl a]
    else if a7or8 = cfg.sCtlq then [cfg.sCtlq, a]
    else if p.ebqflg ≠ 0 ∧ a7or8 = p.ebq then [cfg.sCtlq, a]
    else if p.rptflg ≠ 0 ∧ a7or8 = p.rptq then [cfg.sCtlq, a]
    else [a]

/-- `encode()` from the 8th-bit prefix on: emit one character. -/
def encodeChar
    (io : Io ω)
    (a : UInt8)
    (s : Sys ω) : Sys ω :=
  let k := emit (encodeBytes s.k.cfg s.k.par a) s.k
  let s := { s with k := pokeXdata k.enc.size [0] k }
  if s.k.enc.size ≥ pPktlen + 2 then
    epkt io (lit "EKSW encode confused") s
  else s

/--
`encode()`.

In the case of a run of two it calls itself twice with no next character and
`s_rpt` zero, which goes straight to `encodeChar`.
-/
def encode
    (io : Io ω)
    (a : UInt8)
    (next : Option UInt8)
    (s : Sys ω) : Sys ω :=
  if s.k.par.rptflg ≠ 0 then
    if some a = next then
      let s := { s with k.enc.sRpt := s.k.enc.sRpt + 1 }
      if s.k.enc.sRpt < 236 then s
      else if s.k.enc.sRpt = 236 then
        let k := emit [s.k.par.rptq, torepeat (uchar s.k.enc.sRpt)] s.k
        encodeChar io a { s with k := { k with enc.sRpt := 0 } }
      else encodeChar io a s
    else if s.k.enc.sRpt = 1 then
      let s := encodeChar io a { s with k.enc.sRpt := 0 }
      let s :=
        if (s.k.enc.size : Int) ≤ s.k.par.sMaxlen - 4 then
          { s with k.enc.osize := s.k.enc.size }
        else s
      encodeChar io a { s with k.enc.sRpt := 0 }
    else if s.k.enc.sRpt > 1 then
      let k := emit [s.k.par.rptq, torepeat (uchar (s.k.enc.sRpt + 1))] s.k
      encodeChar io a { s with k := { k with enc.sRpt := 0 } }
    else encodeChar io a s
  else encodeChar io a s

/-- `zgetc()`: the next byte of the input buffer, refilled by `readf`. -/
def zgetc
    (io : Io ω)
    (s : Sys ω) : Option UInt8 × Sys ω :=
  let s := { s with k.zin.zincnt := s.k.zin.zincnt - 1 }
  if s.k.zin.zincnt ≥ 0 then
    let bytes := s.k.zin.zinptr.getD []
    (some (peek bytes 0), { s with k.zin.zinptr := some bytes.tail })
  else callReadf io s

/-- The next character of `istring` when it is set, else of the input file. -/
def nextChar
    (io : Io ω)
    (s : Sys ω) : Option UInt8 × Sys ω :=
  match s.k.enc.istring with
  | some (ref, offset) =>
      let c := derefAt s offset ref
      (if c = 0 then none else some c,
        { s with k.enc.istring := some (ref, offset + 1) })
  | none => zgetc io s

/-- `maxlen` of `getpkt()`. -/
def getpktMaxlen
    (p : Params) : Int :=
  (p.sMaxlen : Int) - p.bct - 3 - 6

/-- The character read in a turn of the loop of `getpkt()` is counted. -/
def noteChar
    (next : Option UInt8)
    (s : Sys ω) : Sys ω :=
  if next = none then { s with k.enc.sFirst := -1 }
  else { s with r.sofarRumor := s.r.sofarRumor + 1 }

/-- `k->osize = k->size; encode(t, x, k, r);` and the lookahead it leaves. -/
def encodeNext
    (io : Io ω)
    (c : UInt8)
    (next : Option UInt8)
    (s : Sys ω) : Sys ω :=
  let s := encode io c next { s with k.enc.osize := s.k.enc.size }
  { s with k.enc.cgetpkt := next }

/-- The cut back to `osize`, with what is left over kept in `s_remain`. -/
def cutBack
    (k : KData) : KData :=
  pokeXdata k.enc.osize [0]
    { k with
      enc.sRemain := cstrAt (xdataMem k) k.enc.osize
      enc.size := k.enc.osize }

/--
The loop of `getpkt()`.  The first argument bounds the iterations: each one
makes the field longer or counts one more character of a run.
-/
def getpktLoop
    (io : Io ω) : Nat → UInt8 → Sys ω → Int × Sys ω
  | 0, _, s => (s.k.enc.size, s)
  | n + 1, c, s =>
      let read := nextChar io s
      let s := encodeNext io c read.1 (noteChar read.1 read.2)
      let maxlen := getpktMaxlen s.k.par
      if s.k.enc.size = maxlen then (s.k.enc.size, s)
      else if s.k.enc.size > maxlen then
        (s.k.enc.osize, { s with k := cutBack s.k })
      else
        match read.1 with
        | some next => getpktLoop io n next s
        | none => (s.k.enc.size, s)

/-- Enough iterations for the longest field: 236 for each of its bytes. -/
def getpktFuel : Nat :=
  237 * (pPktlen + 8)

/-- The first part of `getpkt()`, up to the copy of the leftovers. -/
def getpktFirst
    (io : Io ω)
    (s : Sys ω) : Option UInt8 × Sys ω :=
  let first := nextChar io { s with k.enc.sFirst := 0, k.enc.sRemain := [] }
  let s := { first.2 with k.enc.cgetpkt := first.1 }
  match first.1 with
  | none => (none, { s with k.enc.sFirst := -1, k.enc.size := 0 })
  | some c =>
      (some c,
        if s.k.state = .sData then
          { s with r.sofarRumor := s.r.sofarRumor + 1 }
        else s)

/-- The copy of the leftovers to the start of `xdata`. -/
def copyRemain
    (k : KData) : KData :=
  { pokeXdata 0 (k.enc.sRemain ++ [0]) k with
    enc.size := k.enc.sRemain.length
    enc.sRemain := [] }

/-- `getpkt()` from the copy of the leftovers to `xdata` on. -/
def getpktRest
    (io : Io ω)
    (c : UInt8)
    (s : Sys ω) : Int × Sys ω :=
  let s := { s with k := copyRemain s.k }
  if s.k.enc.sFirst = -1 then (s.k.enc.size, s)
  else getpktLoop io getpktFuel c s

/-- `getpkt()`. -/
def getpkt
    (io : Io ω)
    (s : Sys ω) : Int × Sys ω :=
  let s := { s with k := forceBcta3 s.k }
  if s.k.enc.sFirst = 1 then
    let first := getpktFirst io s
    match first.1 with
    | none => (0, first.2)
    | some c => getpktRest io c first.2
  else if s.k.enc.sFirst = -1 ∧ s.k.enc.sRemain = [] then
    (0, { s with k.enc.size := 0 })
  else getpktRest io (s.k.enc.cgetpkt.getD 0xFF) s

/-- `encstr()`. -/
def encstr
    (io : Io ω)
    (text : StrRef)
    (s : Sys ω) : Nat × Sys ω :=
  let s := { s with k.enc.sFirst := 1, k.enc.istring := some (text, 0) }
  let s := (getpkt io s).2
  let s := { s with k.enc.istring := none, k.enc.sFirst := 1 }
  (s.k.enc.size, s)

/-- `sdata()`. -/
def sdata
    (io : Io ω)
    (s : Sys ω) : Int × Sys ω :=
  if s.k.cfg.cancel ≠ 0 then (0, s)
  else
    let packed := getpkt io s
    let len := packed.1
    let s := packed.2
    if len < 1 then (0, s)
    else
      let sent := spkt io (ch 'D') s.k.sSeq len (some (xdataMem s.k)) s
      (if sent.1 = xError then xError else len, sent.2)

end Slate106.Kermit
