import Slate106.KermitSpkt

namespace Slate106.Kermit

open CBytes

/-!
# Parameter negotiation

`spar` sets the parameters the peer asked for, `rpar` sends our own.
-/

variable {ω : Type}

/-- A character that may be a prefix: `33 .. 62` or `96 .. 126`. -/
def isPrefixChar
    (c : UInt8) : Bool :=
  (c > 32 && c < 63) || (c > 95 && c < 127)

/-- Fields 1 to 6 of `spar()`: lengths, timeout, terminator, control prefix. -/
def sparBasic
    (fld : Nat → UInt8)
    (datalen : Int)
    (p : Params) : Params :=
  let p :=
    if datalen ≥ 1 then { p with sMaxlen := (xunchar (fld 1)).toNat } else p
  let p :=
    if datalen ≥ 2 then { p with rTimo := (xunchar (fld 2)).toNat } else p
  let p :=
    if datalen ≥ 5 then { p with sEom := xunchar (fld 5) } else p
  if datalen ≥ 6 then { p with rCtlq := fld 6 } else p

/-- Field 7 of `spar()`: the 8th-bit prefix. -/
def sparEbq
    (fld : Nat → UInt8)
    (datalen : Int)
    (p : Params) : Params :=
  if datalen ≥ 7 then
    let p := { p with ebq := fld 7 }
    if isPrefixChar (fld 7) then
      { p with
        parity := if p.parity = 0 then 1 else p.parity
        ebqflg := 1 }
    else if fld 7 = ch 'Y' ∧ p.parity ≠ 0 then
      { p with ebqflg := 1, ebq := ch '&' }
    else p
  else p

/-- The value of field 8 of `spar()`, `1` when it is no block check type. -/
def bctOf
    (c : UInt8) : Nat :=
  if c = ch '1' then 1 else if c = ch '2' then 2 else if c = ch '3' then 3
  else 1

/-- Fields 8 and 9 of `spar()`: block check type and repeat counts. -/
def sparChecks
    (cfg : Config)
    (fld : Nat → UInt8)
    (datalen : Int)
    (p : Params) : Params :=
  let p :=
    if datalen ≥ 8 then
      { p with bct := if cfg.bcta3 ≠ 0 then 3 else bctOf (fld 8) }
    else p
  if datalen ≥ 9 ∧ (isPrefixChar (fld 9) ∨ fld 9 = prefixRepeat) then
    { p with rptq := fld 9, rptflg := 1 }
  else p

/-- The capability bits that survive field 10; recovery and shifts never do. -/
def capasAnd
    (x capas : UInt16) : UInt16 :=
  let capas := if x &&& capLp = 0 then capas &&& ~~~capLp else capas
  let capas := if x &&& capSw = 0 then capas &&& ~~~capSw else capas
  let capas := if x &&& capAt = 0 then capas &&& ~~~capAt else capas
  capas &&& ~~~capRs &&& ~~~capLs

/--
`for (y = 10; (xunchar(s[y]) & 1) && (datalen >= y); y++)`; the first argument
bounds the iterations by the length of the data.
-/
def capasEnd
    (fld : Nat → UInt8)
    (datalen : Int) : Nat → Nat → Nat
  | 0, y => y
  | n + 1, y =>
      if xunchar (fld y) &&& 1 = 1 ∧ datalen ≥ y then
        capasEnd fld datalen n (y + 1)
      else y

/-- The value of `y` after the capability field: `0` when there is none. -/
def capasField
    (fld : Nat → UInt8)
    (datalen : Int) : Nat :=
  if datalen ≥ 10 then capasEnd fld datalen datalen.toNat 10 else 0

/-- The capability field, the extended length and the window of `spar()`. -/
def sparCapas
    (cfg : Config)
    (fld : Nat → UInt8)
    (datalen : Int)
    (p : Params) : Params :=
  let y := capasField fld datalen
  let p :=
    if datalen ≥ 10 then
      { p with capas := capasAnd (xunchar (fld 10)).toUInt16 p.capas }
    else p
  let p :=
    if p.capas &&& capLp ≠ 0 ∧ datalen > y + 1 then
      let x :=
        (xunchar (fld (y + 2))).toNat * 95 + (xunchar (fld (y + 3))).toNat
      let sMaxlen := if x > pPktlen then pPktlen else x
      { p with sMaxlen := if sMaxlen < 10 then 60 else sMaxlen }
    else p
  if p.capas &&& capSw ≠ 0 then
    if datalen > y then
      let x := (xunchar (fld (y + 1))).toNat
      let wslots := if x > cfg.wslotsMax then cfg.wslotsMax else x
      let wslots := if wslots < 1 then 1 else wslots
      { p with
        wslots := wslots
        retry :=
          if wslots > 1 ∧ wslots > p.retry then (wslots : Int) + 1
          else p.retry }
    else p
  else { p with wslots := 1 }

/-- `spar()`; `fld` gives the fields of the data, numbered from 1. -/
def sparParams
    (cfg : Config)
    (fld : Nat → UInt8)
    (datalen : Int)
    (p : Params) : Params :=
  sparCapas cfg fld datalen
    (sparChecks cfg fld datalen
      (sparEbq fld datalen
        (sparBasic fld datalen p)))

/-- `spar(k, pdf, datalen)` with `pdf` an offset into `ipktbuf`. -/
def spar
    (pdf : Nat)
    (datalen : Int)
    (k : KData) : KData :=
  { k with
    par :=
      sparParams k.cfg (fun field => peek k.ipktbuf (pdf + field - 1))
        datalen k.par }

/-- The init string `rpar()` puts into `ack_s`, without its terminator. -/
def initString
    (cfg : Config)
    (p : Params) : List UInt8 :=
  [tochar 94, tochar (UInt8.ofNat p.sTimo), tochar 0, ctl 0, tochar p.rEom,
    cfg.sCtlq, p.ebq,
    if cfg.bcta3 ≠ 0 then ch '3' else UInt8.ofNat p.bct + ch '0',
    p.rptq, tochar p.capas.toUInt8, tochar (UInt8.ofNat p.wslots),
    tochar (UInt8.ofNat (p.rMaxlen / 95)),
    tochar (UInt8.ofNat (p.rMaxlen % 95))]

/-- `if ((k->ebq == 'Y') && (k->parity)) k->ebq = '&';` -/
def requestEbq
    (p : Params) : Params :=
  if p.ebq = ch 'Y' ∧ p.parity ≠ 0 then { p with ebq := ch '&' } else p

/-- The block check type while `rpar()` sends: always 1 unless forced to 3. -/
def rparBct
    (cfg : Config) : Nat :=
  if cfg.bcta3 ≠ 0 then 3 else 1

/-- The packet `rpar()` sends the init string `d` with. -/
def rparSend
    (io : Io ω)
    (type : UInt8)
    (d : List UInt8)
    (s : Sys ω) : Int × Sys ω :=
  if type = ch 'Y' then ack io 0 (some d) s
  else if type = ch 'S' then
    let taken := getSslot s.k
    if taken.1 < 0 then (xOk, s)
    else
      spkt io (ch 'S') 0 13 (some d)
        { s with k := mapSseq taken.1 taken.2 }
  else (-1, s)

/-- `rpar(k, 'Y')` for an acknowledgment, `rpar(k, 'S')` for an S packet. -/
def rpar
    (io : Io ω)
    (type : UInt8)
    (s : Sys ω) : Int × Sys ω :=
  let s := { s with k.par := requestEbq s.k.par }
  let d := initString s.k.cfg s.k.par
  let bctsv := if s.k.cfg.bcta3 ≠ 0 then 3 else s.k.par.bct
  let sent := rparSend io type d (setBct (rparBct s.k.cfg) s)
  (sent.1, setBct bctsv sent.2)

end Slate106.Kermit
