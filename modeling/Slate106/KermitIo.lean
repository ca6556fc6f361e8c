import Slate106.KermitData

namespace Slate106.Kermit

/-!
# Callbacks and the state of a session

`k_data` holds pointers to the functions that touch the outside: the
communications device and the files.  `Io` is that table of functions over a
type `ω` for the state of the outside.  A callback reads `k_data` and changes
the part of it that the functions of `unixio_rpi.c` change.

`Sys` is what one call of `kermit()` works on.  Its `log` records, newest
first, the calls that leave the protocol module.
-/

/-- The function pointers of `k_data` that `kermit()` calls. -/
structure Io (ω : Type) where
  txd : ω → List UInt8 → Int × ω
  openf : ω → KData → List UInt8 → Int → Int → Int × Int × ZinBuf × ω
  finfo : ω → List UInt8 → Int → Int × List UInt8 × Int × ω
  readf : ω → KData → Option UInt8 × ZinBuf × ω
  writef : ω → KData → List UInt8 → Int × ω
  closef : ω → KData → List UInt8 → UInt8 → Int → Int × ω
  getdirdata : ω → KData → Int × List UInt8 × List UInt8 × ω
  accessf : ω → KData → List UInt8 → Int × ω

/-- A call that leaves the protocol module, with the result it returned. -/
inductive Call where
  | txd : List UInt8 → Int → Call
  | openf : List UInt8 → Int → Int → Call
  | readf : Option UInt8 → Call
  | writef : List UInt8 → Int → Call
  | closef : UInt8 → Int → Call
  | getdirdata : Int → Call
  | accessf : List UInt8 → Int → Call
  | decodeFile : Call
  deriving Repr, DecidableEq

/-- The structures a call of `kermit()` works on, and the outside. -/
structure Sys (ω : Type) where
  k : KData
  r : KResponse
  w : ω
  log : List Call

variable {ω : Type}

/-- Apply a function on `k_data`. -/
def onK
    (f : KData → KData)
    (s : Sys ω) : Sys ω :=
  { s with k := f s.k }

/-- The packets handed to `txd`, newest first. -/
def txds : List Call → List (List UInt8)
  | [] => []
  | .txd bytes _ :: rest => bytes :: txds rest
  | _ :: rest => txds rest

/-- The C string a string pointer points to. -/
def deref
    (s : Sys ω) : StrRef → List UInt8
  | .xdatabuf => CBytes.cstr s.k.enc.xdatabuf
  | .obuf => CBytes.cstr s.k.obuf
  | .rFilename => CBytes.cstr s.r.filename
  | .dirname => CBytes.cstr s.k.dirname
  | .caller text => text

/-- `(*(k->txd))(k, buf, n)`. -/
def callTxd
    (io : Io ω)
    (bytes : List UInt8)
    (s : Sys ω) : Int × Sys ω :=
  let result := io.txd s.w bytes
  (result.1,
    { s with w := result.2, log := .txd bytes result.1 :: s.log })

/-- `(*(k->openf))(k, name, mode, filesize)`; it may also set `s_first`. -/
def callOpenf
    (io : Io ω)
    (name : List UInt8)
    (mode filesize : Int)
    (s : Sys ω) : Int × Sys ω :=
  let result := io.openf s.w s.k name mode filesize
  (result.1,
    { s with
      k.enc.sFirst := result.2.1
      k.zin := result.2.2.1
      w := result.2.2.2
      log := .openf name mode result.1 :: s.log })

/-- `(*(k->readf))(k)`. -/
def callReadf
    (io : Io ω)
    (s : Sys ω) : Option UInt8 × Sys ω :=
  let result := io.readf s.w s.k
  (result.1,
    { s with
      k.zin := result.2.1
      w := result.2.2
      log := .readf result.1 :: s.log })

/-- `(*(k->writef))(k, bytes, n)`. -/
def callWritef
    (io : Io ω)
    (bytes : List UInt8)
    (s : Sys ω) : Int × Sys ω :=
  let result := io.writef s.w s.k bytes
  (result.1,
    { s with w := result.2, log := .writef bytes result.1 :: s.log })

/-- `k->accessf(k, name)`. -/
def callAccessf
    (io : Io ω)
    (name : List UInt8)
    (s : Sys ω) : Int × Sys ω :=
  let result := io.accessf s.w s.k name
  (result.1,
    { s with w := result.2, log := .accessf name result.1 :: s.log })

/-- `k->getdirdata(k, pdf)`; the listing is returned, not yet stored at `pdf`. -/
def callGetdirdata
    (io : Io ω)
    (s : Sys ω) : Int × List UInt8 × Sys ω :=
  let result := io.getdirdata s.w s.k
  (result.1, result.2.2.1,
    { s with
      k.enc.xdatabuf := result.2.1
      w := result.2.2.2
      log := .getdirdata result.1 :: s.log })

/-- `(*(k->closef))(k, c, mode)`; it may look at the name of the file. -/
def callClosef
    (io : Io ω)
    (c : UInt8)
    (mode : Int)
    (s : Sys ω) : Int × Sys ω :=
  let name := (s.k.filename.map (deref s)).getD []
  let result := io.closef s.w s.k name c mode
  (result.1,
    { s with w := result.2, log := .closef c mode :: s.log })

/-- The byte at an offset from a string pointer. -/
def derefAt
    (s : Sys ω)
    (offset : Nat) : StrRef → UInt8
  | .xdatabuf => CBytes.peek s.k.enc.xdatabuf offset
  | .obuf => CBytes.peek s.k.obuf offset
  | .rFilename => CBytes.peek s.r.filename offset
  | .dirname => CBytes.peek s.k.dirname offset
  | .caller text => CBytes.peek text offset

end Slate106.Kermit
