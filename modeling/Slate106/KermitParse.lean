import Slate106.KermitReceive
import Slate106.KermitParams

namespace Slate106.Kermit

open CBytes

/-!
# Parsing a received packet

The part of `kermit()` that reads the header of the packet in `ipktbuf` and
checks its block check.  `parse` is the decision, `rxStage` what `kermit()`
does about it before the packet is looked at.
-/

variable {ω : Type}

/-- What is known of a packet with a good block check. -/
structure Rcvd where
  rtyp : UInt8
  rseq : Int
  pdf : Nat
  datalen : Int
  ackText : Option (List UInt8)
  deriving Repr, DecidableEq

/-- The variables of a call that did not try to read a packet. -/
def Rcvd.nothing : Rcvd where
  rtyp := 0
  rseq := 0
  pdf := 0
  datalen := 0
  ackText := none

/-- The result of parsing, with the contents `ipktbuf` is left with. -/
inductive Parsed where
  | shortcut
  | tossed
  | badHeader : List UInt8 → Parsed
  | badLength
  | badCheck : List UInt8 → Parsed
  | good : Rcvd → List UInt8 → Parsed
  deriving Repr, DecidableEq

/-- `s`, the text of acknowledgments, from the cancellation code. -/
def cancelText
    (k : KData) : Option (List UInt8) :=
  if k.what = .recv then
    if k.cfg.cancel = 1 then some (lit "X")
    else if k.cfg.cancel = 2 then some (lit "Z")
    else none
  else none

/-- Whether the block check characters are the check of the string `qdf`. -/
def blockOk
    (chklen : Nat)
    (pbc qdf : List UInt8) : Bool :=
  match chklen with
  | 1 => (xunchar (peek pbc 0)).toNat = chk1 qdf
  | 2 =>
      ((xunchar (peek pbc 0)).toNat <<< 6 ||| (xunchar (peek pbc 1)).toNat) =
        chk2 qdf
  | 3 =>
      ((xunchar (peek pbc 0)).toNat <<< 12 |||
          (xunchar (peek pbc 1)).toNat <<< 6 |||
            (xunchar (peek pbc 2)).toNat) =
        (chk3 qdf).toNat
  | _ => true

/--
`ipktbuf` for the second try on an E packet: all block check characters but
the last go back to the data, which then has a type 1 check.
-/
def errorRetryBuf
    (pdf datalen chklen : Nat)
    (pbc buf : List UInt8) : List UInt8 :=
  poke buf (pdf + datalen) (pbc.take (chklen - 1) ++ [0])

/-- The block check of a packet whose lengths are in bounds. -/
def parseCheck
    (chklen datalen : Nat)
    (p : Rcvd)
    (buf : List UInt8) : Parsed :=
  let pbc := (buf.drop (p.pdf + datalen)).takeD chklen 0
  let buf := poke buf (p.pdf + datalen) [0]
  if blockOk chklen pbc (cstr buf) then .good p buf
  else if (chklen = 2 ∨ chklen = 3) ∧ p.rtyp = ch 'E' then
    let retry := errorRetryBuf p.pdf datalen chklen pbc buf
    if (xunchar (peek pbc (chklen - 1))).toNat = chk1 (cstr retry) then
      .good p retry
    else .badCheck (poke retry (p.pdf + datalen) [0])
  else .badCheck buf

/-- `rtyp == 'S' || k->state == S_INIT`: the check has its initial type. -/
def isInitial
    (k : KData)
    (rtyp : UInt8) : Bool :=
  rtyp = ch 'S' || k.state = .sInit

/-- `chklen`: the length of the block check. -/
def chkLength
    (k : KData)
    (rtyp : UInt8) : Nat :=
  if k.cfg.bcta3 ≠ 0 then 3
  else if isInitial k rtyp then 1
  else k.par.bct

/-- The data length, which the initial check type corrects. -/
def dataLength
    (k : KData)
    (rlen : UInt8)
    (p : Rcvd) : Int :=
  if isInitial k p.rtyp then
    (rlen.toNat : Int) - (if k.cfg.bcta3 ≠ 0 then 5 else 3)
  else p.datalen

/-- The bounds on the lengths, and the block check behind them. -/
def parseLengths
    (k : KData)
    (rlen : UInt8)
    (p : Rcvd)
    (buf : List UInt8) : Parsed :=
  let chklen := chkLength k p.rtyp
  let datalen := dataLength k rlen p
  if datalen < 0 ∨ datalen + chklen + 1 ≥ pBuflen then .badLength
  else
    parseCheck chklen datalen.toNat { p with datalen := datalen } buf

/-- The packet parser of `kermit()`, on `ipktbuf` with `len` bytes received. -/
def parse
    (k : KData)
    (len : Int) : Parsed :=
  let buf := k.ipktbuf
  let rlen := xunchar (peek buf 0)
  let rseq : Int := (xunchar (peek buf 1)).toNat
  let rtyp := peek buf 2
  let bct : Int := if k.cfg.bcta3 ≠ 0 then 3 else k.par.bct
  if k.state = .sEot ∧ len = 4 ∧ rseq = 0 ∧ rtyp = ch 'N' ∧
      peek buf 3 = 0x33 then .shortcut
  else if rseq < 0 ∨ rseq > 63 then .tossed
  else if k.what = .recv ∧ (rtyp = ch 'N' ∨ rtyp = ch 'Y') then .tossed
  else if rlen = 0 then
    let c := peek buf 5
    let cut := poke buf 5 [0]
    if (xunchar c).toNat ≠ chk1 (cstr cut) then .badHeader cut
    else
      let datalen : Int :=
        (xunchar (peek buf 3)).toNat * 95 + (xunchar (peek buf 4)).toNat - bct
      parseLengths k rlen
        { rtyp := rtyp, rseq := rseq, pdf := 6, datalen := datalen,
          ackText := cancelText k }
        (poke cut 5 [c])
  else
    parseLengths k rlen
      { rtyp := rtyp, rseq := rseq, pdf := 3,
        datalen := (rlen.toNat : Int) - bct - 2, ackText := cancelText k }
      buf

/-- A part of `kermit()`: it returns, or goes on with a packet. -/
inductive Stage (ω : Type) where
  | ret : Int → Sys ω → Stage ω
  | go : Rcvd → Sys ω → Stage ω

/-- What a sender does about a packet that failed a check. -/
def resendUnlessRecv
    (io : Io ω)
    (s : Sys ω) : Int × Sys ω :=
  if s.k.what = .recv then (xOk, s) else resend io (-1) s

/-- The block of `kermit()` under `if (k->do_rxd)` up to the block check. -/
def rxStage
    (io : Io ω)
    (len : Int)
    (s : Sys ω) : Stage ω :=
  if len < 4 then
    if s.k.what = .recv then
      if s.k.state = .rFile then .ret xOk (rpar io (ch 'Y') s).2
      else .ret xOk s
    else .ret (resend io (-1) s).1 (resend io (-1) s).2
  else
    match parse s.k len with
    | .shortcut => .ret xDone s
    | .tossed => .ret xOk s
    | .badHeader buf =>
        let done := resendUnlessRecv io { s with k.ipktbuf := buf }
        .ret done.1 done.2
    | .badLength =>
        .ret xOk (resendUnlessRecv io { s with k := forceBcta3 s.k }).2
    | .badCheck buf =>
        .ret xOk
          (resendUnlessRecv io
            { s with k := { forceBcta3 s.k with ipktbuf := buf } }).2
    | .good p buf =>
        .go p { s with k := { forceBcta3 s.k with ipktbuf := buf } }

end Slate106.Kermit
