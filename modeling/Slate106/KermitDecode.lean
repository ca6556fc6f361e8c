import Slate106.KermitSpkt

namespace Slate106.Kermit

open CBytes

/-!
# Reading data fields

`decode` expands a data field into a file name or into the output file;
`gattr` and `sattr` read and build the attribute list.
-/

variable {ω : Type}

/-- What one turn of the character loop of `decode()` reads. -/
structure Decoded where
  char : UInt8
  rpt : Nat
  rest : List UInt8
  deriving Repr, DecidableEq

/-- The repeat prefix: the new repeat count, the character, what follows. -/
def decodeRpt
    (p : Params)
    (rpt : Nat)
    (a : UInt8)
    (inbuf : List UInt8) : Decoded :=
  if p.rptflg ≠ 0 ∧ a = p.rptq then
    { char := peek inbuf 1
      rpt := (xunrepeat (peek inbuf 0)).toNat
      rest := inbuf.drop 2 }
  else { char := a, rpt := rpt, rest := inbuf }

/-- The operand of a control prefix. -/
def unquote
    (p : Params)
    (a : UInt8) : UInt8 :=
  let a7 := a &&& 0x7F
  if p.binary ≠ 0 ∧
      (a7 = ctl packetEnd ∨ a7 = ctl packetStart ∨ a7 = ctl 0) then
    ctl a
  else a

/-- The prefixes before one character, in the order `decode()` reads them. -/
def decodeNext
    (p : Params)
    (rpt : Nat)
    (a : UInt8)
    (inbuf : List UInt8) : Decoded :=
  let d := decodeRpt p rpt a inbuf
  let prefixed := p.parity ≠ 0 ∧ d.char = p.ebq
  let b8 : UInt8 := if prefixed then 128 else 0
  let d :=
    if prefixed then
      { d with char := peek d.rest 0 &&& 0x7F, rest := d.rest.drop 1 }
    else d
  let d :=
    if d.char = p.rCtlq then
      { d with char := unquote p (peek d.rest 0), rest := d.rest.drop 1 }
    else d
  { d with
    char := d.char ||| b8
    rpt := if d.rpt = 0 then 1 else d.rpt }

/-- `k->obuf[k->obufpos++] = a;` -/
def storeByte
    (a : UInt8)
    (s : Sys ω) : Sys ω :=
  { s with
    k.obuf := poke s.k.obuf s.k.obufpos [a]
    k.obufpos := s.k.obufpos + 1 }

/-- The bytes counted in the response after a `writef`. -/
def countWritten
    (number : Nat)
    (s : Sys ω) : Sys ω :=
  { s with
    r.sofar := s.r.sofar + number
    r.sofarRumor := s.r.sofarRumor + number }

/-- `k->obufpos = 0;` -/
def rewindObuf
    (s : Sys ω) : Sys ω :=
  { s with k.obufpos := 0 }

/--
`for (; rpt > 0; rpt--)` with the character going to the file: the return
code of the last `writef`, the repeat count left, the new state.
-/
def decodeOut
    (io : Io ω)
    (a : UInt8) : Nat → Int → Sys ω → Int × Nat × Sys ω
  | 0, rc, s => (rc, 0, s)
  | rpt + 1, rc, s =>
      let s := storeByte a s
      if s.k.obufpos = s.k.cfg.obuflen then
        let written := callWritef io (s.k.obuf.takeD s.k.cfg.obuflen 0) s
        let s := countWritten s.k.cfg.obuflen written.2
        if written.1 ≠ xOk then (written.1, rpt + 1, s)
        else decodeOut io a rpt written.1 (rewindObuf s)
      else decodeOut io a rpt rc s

/--
The character loop of `decode()` to a file.  The first argument bounds the
turns by the bytes left, `rpt` is the repeat count carried between turns.
-/
def decodeFileLoop
    (io : Io ω) : Nat → Nat → Int → List UInt8 → Sys ω → Int × Sys ω
  | 0, _, rc, _, s => (rc, s)
  | n + 1, rpt, rc, inbuf, s =>
      if peek inbuf 0 = 0 then (rc, s)
      else
        let d := decodeNext s.k.par rpt (peek inbuf 0) (inbuf.drop 1)
        let out := decodeOut io d.char d.rpt rc s
        decodeFileLoop io n out.2.1 out.1 d.rest out.2.2

/-- The character loop of `decode()` to memory: the bytes it stores. -/
def decodeMemLoop
    (p : Params) : Nat → List UInt8 → List UInt8
  | 0, _ => []
  | n + 1, inbuf =>
      if peek inbuf 0 = 0 then []
      else
        let d := decodeNext p 0 (peek inbuf 0) (inbuf.drop 1)
        List.replicate d.rpt d.char ++ decodeMemLoop p n d.rest

/-- The bytes `decode()` stores for the data field `inbuf`. -/
def decodeMem
    (p : Params)
    (inbuf : List UInt8) : List UInt8 :=
  decodeMemLoop p (inbuf.length + 1) inbuf

/-- `decode(k, r, 0, inbuf, -1)`: decode a file name. -/
def decodeName
    (inbuf : List UInt8)
    (s : Sys ω) : Int × Sys ω :=
  (xOk, { s with r.filename := decodeMem s.k.par inbuf ++ [0] })

/-- `decode(k, r, 1, inbuf, rslot)`: decode file data held in a slot. -/
def decodeFile
    (io : Io ω)
    (inbuf : List UInt8)
    (rslot : Int)
    (s : Sys ω) : Int × Sys ω :=
  let s := { s with log := .decodeFile :: s.log }
  let p := s.k.win.ipktinfo rslot
  if ((cstr (inbuf.take p.len.toNat)).length : Int) ≠ p.len then
    (xError, epkt io (lit "EKSW decode len bad") s)
  else if chk3 (cstr inbuf) ≠ p.crc then
    (xError, epkt io (lit "EKSW decode crc bad") s)
  else decodeFileLoop io (inbuf.length + 1) 0 xOk inbuf s

/-! ## Attributes -/

/-- `stringnum()` after the leading blanks. -/
def stringnumDigits : Int → List UInt8 → Int
  | n, [] => n
  | n, c :: rest =>
      if c ≥ ch '0' ∧ c ≤ ch '9' then
        stringnumDigits (n * 10 + (c.toNat - 48 : Int)) rest
      else n

/-- `stringnum()`. -/
def stringnum
    (s : List UInt8) : Int :=
  stringnumDigits 0 (s.dropWhile (· = ch ' '))

/-- `SIZEBUFL`. -/
abbrev sizebufl : Nat := 32

/-- What `gattr()` has read so far. -/
structure GattrVars where
  fsize : Int
  fsizek : Int
  rc : Int
  filedate : List UInt8
  deriving Repr, DecidableEq

/-- One attribute of `gattr()`: its tag and its value, cut to the buffers. -/
def gattrOne
    (c : UInt8)
    (value : List UInt8)
    (v : GattrVars) : GattrVars :=
  let sizebuf := cstr (value.take sizebufl)
  if c = ch '!' then { v with fsizek := stringnum sizebuf }
  else if c = ch '"' then
    if peek sizebuf 0 = ch 'A' then { v with rc := 0 }
    else if peek sizebuf 0 = ch 'B' then { v with rc := 1 }
    else v
  else if c = ch '#' then { v with filedate := value.take dateMax ++ [0] }
  else if c = ch '1' then { v with fsize := stringnum sizebuf }
  else v

/-- The loop of `gattr()`; the first argument bounds the attributes. -/
def gattrLoop : Nat → List UInt8 → GattrVars → GattrVars
  | 0, _, v => v
  | n + 1, s, v =>
      let c := peek s 0
      if c = 0 then v
      else
        let aln := (xunchar (peek s 1)).toNat
        let value := (s.drop 2).takeD aln 0
        gattrLoop n (s.drop (2 + aln)) (gattrOne c value v)

/-- `gattr()`: the transfer mode, and the response with size and date. -/
def gattr
    (s : List UInt8)
    (r : KResponse) : Int × KResponse :=
  let v := gattrLoop (s.length + 1) s
    { fsize := 0, fsizek := 0, rc := -1, filedate := r.filedate }
  let filesize :=
    if v.fsize > -1 then v.fsize
    else if v.fsizek > -1 then v.fsizek * 1024
    else r.filesize
  (v.rc, { r with filedate := v.filedate, filesize := filesize })

/-- `numstring()` with a 16-byte buffer: `none` when the number is too long. -/
def numstring
    (n : Nat) : Option (List UInt8) :=
  let digits := (Nat.toDigits 10 n).map ch
  if digits.length ≤ 14 then some digits else none

/-- `ATTRLEN`. -/
abbrev attrlen : Nat := 48

/-- The type attribute `sattr()` starts with. -/
def sattrType
    (binary : Int) : List UInt8 :=
  if binary ≠ 0 then [ch '"', tochar 2, ch 'B', ch '8']
  else [ch '"', tochar 3, ch 'A', ch 'M', ch 'J', ch '*', tochar 1, ch 'A']

/-- The length attribute, unless the length is unknown or does not fit. -/
def sattrLength
    (sofar : Nat)
    (filelength : Int) : List UInt8 :=
  if filelength > -1 then
    match numstring filelength.toNat with
    | some digits =>
        if sofar + digits.length < attrlen - 3 then
          [ch '1', tochar (UInt8.ofNat digits.length)] ++ digits
        else []
    | none => []
  else []

/-- The date attribute, unless the date is unknown or does not fit. -/
def sattrDate
    (sofar : Nat)
    (date : List UInt8) : List UInt8 :=
  if date ≠ [] ∧ sofar + date.length < attrlen - 3 then
    [ch '#', tochar (UInt8.ofNat date.length)] ++ date
  else []

/-- The attribute list `sattr()` builds in `xdata`. -/
def sattrData
    (binary filelength : Int)
    (date : List UInt8) : List UInt8 :=
  let first := sattrType binary
  let second := first ++ sattrLength first.length filelength
  second ++ sattrDate second.length date ++ [ch '@', ch ' ']

end Slate106.Kermit
