import Mathlib.Algebra.Group.Nat.Defs
import Slate106.KermitIo

namespace Slate106.Kermit

open CBytes

/-!
# The callbacks of `unixio_rpi.c`

`Os` stands for the C library and the radio link below them: what `stat`,
`fopen`, `fread`, ... answer, over a type `σ` for the state of the outside.
`Unix` adds the two static file variables of `unixio_rpi.c` and a record of
the calls that open, write or delete a file.

`kreadpkt` is the framing loop on a stream of bytes that arrive in time.
-/

variable {σ : Type}

/-- One entry `readdir` returns, with what reading that file gives. -/
structure DirEntry where
  regular : Bool
  name : List UInt8
  opens : Bool
  etag : Option UInt32
  deriving Repr, DecidableEq

/-- The calls below the callbacks. -/
structure Os (σ : Type) where
  send : σ → List UInt8 → Int × σ
  stat : σ → List UInt8 → Bool × σ
  fopen : σ → List UInt8 → Bool × σ
  fread : σ → Nat → List UInt8 × σ
  getc : σ → Option UInt8 × σ
  fclose : σ → Int × σ
  write : σ → List UInt8 → Int × σ
  close : σ → Int × σ
  unlink : σ → List UInt8 → σ
  readdir : σ → List UInt8 → Option (List DirEntry) × σ

/-- Calls on files that the server makes. -/
inductive FileCall where
  | fopen : List UInt8 → String → FileCall
  | write : List UInt8 → FileCall
  | unlink : List UInt8 → FileCall
  deriving Repr, DecidableEq

/-- The state behind the callbacks; `ifile` tells whether a file is open. -/
structure Unix (σ : Type) where
  os : σ
  ofile : Int
  ifile : Bool
  calls : List FileCall

/-- `KFILENAME_MAXSIZE`. -/
abbrev kfilenameMaxsize : Nat := 256

/-- `kadd_rootpath()`: the path, or the empty string when it is too long. -/
def kaddRootpath
    (insert src : List UInt8) : List UInt8 :=
  if insert ≠ [] then
    if src.length + insert.length ≥ kfilenameMaxsize then []
    else insert ++ src
  else src

/-- `ktx_data()`. -/
def ktxData
    (os : Os σ)
    (w : Unix σ)
    (bytes : List UInt8) : Int × Unix σ :=
  let sent := os.send w.os bytes
  (if sent.1 ≠ 0 then xError else xOk, { w with os := sent.2 })

/-- `kopenfile()`. -/
def kopenfile
    (os : Os σ)
    (w : Unix σ)
    (k : KData)
    (s : List UInt8)
    (mode _filesize : Int) : Int × Int × ZinBuf × Unix σ :=
  let kfilename := kaddRootpath k.cfg.rootpath s
  if mode = 1 then
    let opened := os.fopen w.os kfilename
    let w :=
      { w with
        os := opened.2, ifile := opened.1
        calls := .fopen kfilename "r" :: w.calls }
    if opened.1 then (xOk, 1, { zincnt := 0, zinptr := some [] }, w)
    else (xError, k.enc.sFirst, k.zin, w)
  else (xError, k.enc.sFirst, k.zin, w)

/-- The text mode loop of `kreadfile()`, with the places left in the buffer. -/
def kreadText
    (os : Os σ) : Nat → σ → List UInt8 × σ
  | 0, w => ([], w)
  | n + 1, w =>
      match os.getc w with
      | (none, w) => ([], w)
      | (some c, w) =>
          if c = 10 then
            let rest := kreadText os (n - 1) w
            (13 :: c :: rest.1, rest.2)
          else
            let rest := kreadText os n w
            (c :: rest.1, rest.2)

/-- `kreadfile()`. -/
def kreadfile
    (os : Os σ)
    (w : Unix σ)
    (k : KData) : Option UInt8 × ZinBuf × Unix σ :=
  match k.zin.zinptr with
  | none => (none, k.zin, w)
  | some left =>
      if k.zin.zincnt < 1 then
        let read :=
          if k.par.binary ≠ 0 then os.fread w.os ibufLen
          else kreadText os (ibufLen - 2) w.os
        let w := { w with os := read.2 }
        match read.1 with
        | [] => (none, { zincnt := 0, zinptr := some left }, w)
        | c :: rest =>
            (some c, { zincnt := rest.length, zinptr := some rest }, w)
      else
        (some (peek left 0),
          { zincnt := k.zin.zincnt - 1, zinptr := some left.tail }, w)

/-- `kfileinfo()`. -/
def kfileinfo
    (w : Unix σ)
    (_filename : List UInt8)
    (type : Int) : Int × List UInt8 × Int × Unix σ :=
  (xOk, [], type, w)

/-- The text mode loop of `kwritefile()`: the pieces between the CRs. -/
def textPieces : List UInt8 → List (List UInt8)
  | [] => [[]]
  | c :: rest =>
      match textPieces rest with
      | [] => [[]]
      | piece :: pieces =>
          if c = 13 then [] :: piece :: pieces
          else (c :: piece) :: pieces

/-- Write the pieces of a text one by one. -/
def kwritePieces
    (os : Os σ) : List (List UInt8) → Int → Unix σ → Int × Unix σ
  | [], rc, w => (rc, w)
  | [] :: pieces, rc, w => kwritePieces os pieces rc w
  | piece :: pieces, rc, w =>
      let done := os.write w.os piece
      let w := { w with os := done.2, calls := .write piece :: w.calls }
      kwritePieces os pieces
        (if done.1 ≠ piece.length then xError else rc) w

/-- `kwritefile()`. -/
def kwritefile
    (os : Os σ)
    (w : Unix σ)
    (k : KData)
    (s : List UInt8) : Int × Unix σ :=
  if k.par.binary ≠ 0 then
    let done := os.write w.os s
    (if done.1 ≠ s.length then xError else xOk,
      { w with os := done.2, calls := .write s :: w.calls })
  else kwritePieces os (textPieces (cstr s)) xOk w

/-- `kclosefile()`; `name` is the string `k->filename` points to. -/
def kclosefile
    (os : Os σ)
    (w : Unix σ)
    (k : KData)
    (name : List UInt8)
    (c : UInt8)
    (mode : Int) : Int × Unix σ :=
  if mode = 1 then
    if w.ifile then
      let closed := os.fclose w.os
      (if closed.1 < 0 then xError else xOk,
        { w with os := closed.2, ifile := false })
    else (xOk, w)
  else if mode = 2 then
    if w.ofile < 0 then (xOk, w)
    else
      let closed := os.close w.os
      let w := { w with os := closed.2 }
      let rc := if closed.1 < 0 then xError else xOk
      if k.cfg.ikeep = 0 ∧ c = ch 'D' then
        let kfilename := kaddRootpath k.cfg.rootpath name
        (rc,
          { w with
            os := os.unlink w.os kfilename
            calls := .unlink kfilename :: w.calls })
      else (rc, w)
  else (xError, w)

/-- `kaccessfile()`. -/
def kaccessfile
    (os : Os σ)
    (w : Unix σ)
    (k : KData)
    (s : List UInt8) : Int × Unix σ :=
  let found := os.stat w.os (kaddRootpath k.cfg.rootpath s)
  (if found.1 then xOk else xError, { w with os := found.2 })

/-- One hexadecimal digit of `%lx`. -/
def hexDigit
    (n : Nat) : UInt8 :=
  if n < 10 then UInt8.ofNat (n + 48) else UInt8.ofNat (n + 87)

/-- `sprintf(..., "%08lx", etag)`. -/
def hex8
    (etag : UInt32) : List UInt8 :=
  (List.range 8).map fun i =>
    hexDigit (etag.toNat / 16 ^ (7 - i) % 16)

/-- One accepted entry of the listing `kgetdirdata()` builds. -/
def listingEntry
    (first : Bool)
    (name : List UInt8)
    (etag : UInt32) : List UInt8 :=
  (if first then [] else lit ",") ++ lit "\x7b\"filename\":\"" ++ name ++
    lit "\",\"etag\":\"" ++ hex8 etag ++ lit "\"\x7d"

/--
The loop of `kgetdirdata()` over the entries: the listing so far, the contents
of `xdatabuf` used as scratch, and the files opened.
-/
def listEntries
    (kfilename : List UInt8) :
    List DirEntry → Nat → List UInt8 → List UInt8 → List FileCall →
      List UInt8 × List UInt8 × List FileCall
  | [], _, pdf, scratch, calls => (pdf, scratch, calls)
  | entry :: rest, cnt, pdf, scratch, calls =>
      if !entry.regular then
        listEntries kfilename rest cnt pdf scratch calls
      else
        let path := kfilename ++ lit "/" ++ entry.name
        let calls := .fopen path "r" :: calls
        if !entry.opens then
          listEntries kfilename rest cnt pdf (path ++ [0]) calls
        else
          let etag :=
            if entry.etag = none ∧ peek entry.name 0 = ch '.' then some 0
            else entry.etag
          match etag with
          | none => listEntries kfilename rest cnt pdf (path ++ [0]) calls
          | some etag =>
              let pdf := pdf ++ listingEntry (cnt = 0) entry.name etag
              if cnt + 1 = kDirMax then (pdf, hex8 etag ++ [0], calls)
              else
                listEntries kfilename rest (cnt + 1) pdf (hex8 etag ++ [0])
                  calls

/-- `kgetdirdata()`. -/
def kgetdirdata
    (os : Os σ)
    (w : Unix σ)
    (k : KData) : Int × List UInt8 × List UInt8 × Unix σ :=
  let kfilename := kaddRootpath k.cfg.rootpath (cstr k.dirname)
  let dir := os.readdir w.os kfilename
  let w := { w with os := dir.2 }
  match dir.1 with
  | none => (kError, k.enc.xdatabuf, [], w)
  | some entries =>
      let done :=
        listEntries kfilename entries 0 (lit "[") k.enc.xdatabuf w.calls
      (xOk, done.2.1, done.1 ++ lit "]", { w with calls := done.2.2 })

/-- The function pointers `_EK_init` fills in. -/
def unixio
    (os : Os σ) : Io (Unix σ) where
  txd := ktxData os
  openf := kopenfile os
  finfo := kfileinfo
  readf := kreadfile os
  writef := kwritefile os
  closef := kclosefile os
  getdirdata := kgetdirdata os
  accessf := kaccessfile os

/-- An outside without any file, whose link accepts every packet. -/
def idleOs : Os Unit where
  send _ _ := (0, ())
  stat _ _ := (false, ())
  fopen _ _ := (false, ())
  fread _ _ := ([], ())
  getc _ := (none, ())
  fclose _ := (0, ())
  write _ bytes := (bytes.length, ())
  close _ := (0, ())
  unlink _ _ := ()
  readdir _ _ := (none, ())

/-- One file under every name, whose unread rest is the state outside. -/
def fileOs : Os (List UInt8) where
  send file _ := (0, file)
  stat file _ := (true, file)
  fopen file _ := (true, file)
  fread file count := (file.take count, file.drop count)
  getc file := (file.head?, file.tail)
  fclose file := (0, file)
  write file bytes := (bytes.length, file)
  close file := (0, file)
  unlink file _ := file
  readdir file _ := (some [], file)

/-! ## Reading packets from the link -/

/-- What one poll of `ble_mldp_get_byte` returns. -/
inductive Poll where
  | byte : UInt8 → Poll
  | empty
  | error
  deriving Repr, DecidableEq

/-- The local variables of `kreadpkt()`, and the milliseconds waited for. -/
structure ReadVars where
  timeout : Int
  cmd : List UInt8
  i : Nat
  comp : Bool
  flag : Bool
  n : Nat
  stored : List UInt8
  waited : Nat
  deriving Repr, DecidableEq

/-- `k->r_timo * 1200`. -/
def readTimeout
    (p : Params) : Int :=
  p.rTimo * 1200

/-- The variables at the start of `kreadpkt()`. -/
def ReadVars.start
    (p : Params) : ReadVars where
  timeout := readTimeout p
  cmd := [0, 0, 0, 0, 0]
  i := 0
  comp := true
  flag := false
  n := 0
  stored := []
  waited := 0

/-- What `kreadpkt()` returns, and what it has stored at `p`. -/
structure Rx where
  ret : Int
  stored : List UInt8
  deriving Repr, DecidableEq

/-- The countdown and the wait of one poll. -/
def countDown
    (v : ReadVars) : ReadVars :=
  if v.timeout ≥ 10 then
    { v with timeout := v.timeout - 10, waited := v.waited + 10 }
  else { v with timeout := v.timeout - 1, waited := v.waited + 1 }

/-- `cmd[i] = rx_fifo_char`, and whether the command has been received. -/
def matchCmd
    (c : UInt8)
    (v : ReadVars) : Bool × ReadVars :=
  let v := { v with cmd := poke v.cmd v.i [c] }
  let v := if v.comp then { v with i := v.i + 1 } else v
  if v.i = 5 ∧ v.comp then
    (cstr (v.cmd.take 5) = lit "CMD\r\n", { v with comp := false })
  else (false, v)

/-- A byte taken from the link: the result of `kreadpkt()`, or go on. -/
def readByte
    (p : Params)
    (c : UInt8)
    (v : ReadVars) : Rx ⊕ ReadVars :=
  let matched := matchCmd c v
  let v := { matched.2 with timeout := readTimeout p }
  let finalChar := if p.parity ≠ 0 then c &&& 0x7f else c
  if matched.1 then .inl { ret := -kEnd, stored := v.stored }
  else if !v.flag ∧ finalChar ≠ p.rSoh then .inr v
  else if finalChar = p.rSoh then .inr { v with flag := true }
  else if finalChar = p.rEom then
    .inl { ret := v.n, stored := v.stored ++ [0] }
  else if v.n > p.rMaxlen then .inl { ret := v.n + 1, stored := v.stored }
  else .inr { v with n := v.n + 1, stored := v.stored ++ [c] }

/--
`kreadpkt()` on the results of its polls: what it returns and the polls it has
not made, or `none` when it is still waiting at the end of the list.
-/
def kreadpktFrom
    (p : Params) : List Poll → ReadVars → Option (Rx × List Poll)
  | [], _ => none
  | .error :: rest, v => some ({ ret := -kEnd, stored := v.stored }, rest)
  | .empty :: rest, v =>
      let v := countDown v
      if v.timeout ≠ 0 then kreadpktFrom p rest v
      else some ({ ret := 0, stored := v.stored }, rest)
  | .byte c :: rest, v =>
      let v := countDown v
      if v.timeout = 0 then some ({ ret := 0, stored := v.stored }, rest)
      else
        match readByte p c v with
        | .inl rx => some (rx, rest)
        | .inr v => kreadpktFrom p rest v

/-- `kreadpkt()`. -/
def kreadpkt
    (p : Params)
    (polls : List Poll) : Option (Rx × List Poll) :=
  kreadpktFrom p polls (ReadVars.start p)

end Slate106.Kermit
