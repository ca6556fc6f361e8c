import Mathlib.Logic.Function.Basic
import Mathlib.Data.Int.Init
import Slate106.CBytes

namespace Slate106.Kermit

open CBytes

/-!
# The Kermit data structures

`struct k_data`, `struct k_response`, `struct packet` and the constants of
`kermit.h`.  The fields of `k_data` are grouped by what they are for; a field
that is written and never read is left out.

Plain `char` is unsigned, as on the ARM target.  Arrays that are indexed by a
window slot or a sequence number are functions of the index, and byte arrays
are lists of bytes as in `CBytes`.  A `(UCHAR *)` that may point into one of
several objects is a `StrRef`.
-/

/-! ## Constants of `kermit.h` -/

abbrev pWslots : Nat := 1

abbrev pPktlen : Nat := 1000

abbrev pBuflen : Nat := pPktlen + 8

abbrev fnMax : Nat := 13

abbrev dnMax : Nat := 2

abbrev dateMax : Nat := 20

abbrev obufLen : Nat := 512

abbrev ibufLen : Nat := 512

abbrev kDirMax : Nat := 6

abbrev kDirLen : Nat := 2 + kDirMax * 50

abbrev pRetry : Int := 3

abbrev packetStart : UInt8 := 0x13

abbrev packetEnd : UInt8 := 0x0D

abbrev prefixCtrl : UInt8 := 0x23

abbrev prefixRepeat : UInt8 := 0xCC

abbrev capLp : UInt16 := 2

abbrev capSw : UInt16 := 4

abbrev capAt : UInt16 := 8

abbrev capRs : UInt16 := 16

abbrev capLs : UInt16 := 32

abbrev xError : Int := -1

abbrev xOk : Int := 0

abbrev xDone : Int := 3

abbrev xStatus : Int := 4

abbrev kSuccess : Int := 0

abbrev kFailure : Int := 1

abbrev kTimeout : Int := 2

abbrev kEnd : Int := 3

abbrev kError : Int := 5

abbrev iGroup : Int := 2

/-! ## Characters -/

/-- The byte of a character constant of the source. -/
abbrev ch
    (character : Char) : UInt8 :=
  UInt8.ofNat character.toNat

/-- The bytes of a string constant of the source, without its terminator. -/
def lit
    (text : String) : List UInt8 :=
  text.toList.map ch

/-- `tochar()`. -/
def tochar
    (byte : UInt8) : UInt8 :=
  byte + 0x20

/-- `xunchar()`. -/
def xunchar
    (byte : UInt8) : UInt8 :=
  byte - 0x20

@[simp] theorem xunchar_tochar
    (byte : UInt8) :
    xunchar (tochar byte) = byte := by
  simp [xunchar, tochar]

@[simp] theorem tochar_xunchar
    (byte : UInt8) :
    tochar (xunchar byte) = byte := by
  simp [xunchar, tochar]

theorem toNat_tochar
    {number : Nat}
    (small : number < 224) :
    (tochar (UInt8.ofNat number)).toNat = number + 32 := by
  simp [tochar]
  omega

/-- `torepeat()`. -/
def torepeat
    (byte : UInt8) : UInt8 :=
  byte + 0x13

/-- `xunrepeat()`. -/
def xunrepeat
    (byte : UInt8) : UInt8 :=
  byte - 0x13

@[simp] theorem xunrepeat_torepeat
    (byte : UInt8) :
    xunrepeat (torepeat byte) = byte := by
  simp [xunrepeat, torepeat]

/-- `ctl()`. -/
def ctl
    (byte : UInt8) : UInt8 :=
  byte ^^^ 64

/-- `((UCHAR)(n))` of a number that a character macro is applied to. -/
abbrev uchar
    (number : Int) : UInt8 :=
  UInt8.ofInt number

/-- The protocol states, `R_...` and `S_...`; `R_ERROR` is also `S_ERROR`. -/
inductive State where
  | rError
  | rNone
  | rWait
  | rFile
  | rAttr
  | rData
  | sNone
  | sInit
  | sFile
  | sAttr
  | sData
  | sEof
  | sEot
  | sGet
  | sText
  deriving Repr, DecidableEq

/-- What the protocol is doing, `W_...`. -/
inductive What where
  | nothing
  | send
  | recv
  | get
  | dir
  deriving Repr, DecidableEq

/-- The actions `A_...`; `none` is the zero of a fresh `k_response`. -/
inductive Action where
  | none
  | wait
  | send
  | get
  | dir
  deriving Repr, DecidableEq

/-- Where a string pointer of `k_data` or `k_response` points to. -/
inductive StrRef where
  | xdatabuf
  | obuf
  | rFilename
  | dirname
  | caller : List UInt8 → StrRef
  deriving Repr, DecidableEq

/-- Where `xdata` points to: the data buffer, or a place of `ipktbuf`. -/
inductive XdataRef where
  | xdatabuf
  | ipktbuf : Nat → XdataRef
  deriving Repr, DecidableEq

/--
`struct packet`.

`buf` holds what was stored since the slot was last filled; the stale rest of
the C buffer is read nowhere.
-/
structure Packet where
  len : Int
  seq : Int
  typ : UInt8
  rtr : Int
  crc : UInt16
  flg : Int
  buf : List UInt8
  deriving Repr, DecidableEq

/-- The fields that only `_EK_init` and `K_INIT` set. -/
structure Config where
  xfermode : Int
  wslotsMax : Nat
  pMaxlen : Nat
  ikeep : Int
  cancel : Int
  bcta3 : Int
  sCtlq : UInt8
  obuflen : Nat
  rootpath : List UInt8
  deriving Repr, DecidableEq

/-- The protocol parameters, negotiated or defaulted. -/
structure Params where
  binary : Int
  parity : Int
  retry : Int
  sSoh : UInt8
  rSoh : UInt8
  sEom : UInt8
  rEom : UInt8
  rTimo : Nat
  sTimo : Nat
  rMaxlen : Nat
  sMaxlen : Nat
  wslots : Nat
  rCtlq : UInt8
  ebq : UInt8
  ebqflg : Int
  rptq : UInt8
  rptflg : Int
  bct : Nat
  capas : UInt16
  deriving Repr, DecidableEq

/--
The state of the encoder.

`cgetpkt` is an `int` that holds a byte, or `-1` for the end of the input.
-/
structure Encoder where
  sFirst : Int
  cgetpkt : Option UInt8
  sRpt : Int
  size : Nat
  osize : Nat
  sRemain : List UInt8
  xdata : XdataRef
  xdatabuf : List UInt8
  istring : Option (StrRef × Nat)
  deriving Repr, DecidableEq

/--
The input file buffer: the number of bytes left in it, and the bytes from
`zinptr` on (`none` for the null pointer).
-/
structure ZinBuf where
  zincnt : Int
  zinptr : Option (List UInt8)
  deriving Repr, DecidableEq

/-- The packet windows and the maps from sequence numbers to window slots. -/
structure Windows where
  ipktinfo : Int → Packet
  opktinfo : Int → Packet
  rPw : Int → Int
  sPw : Int → Int
  opktlen : Int

/-- `struct k_data`. -/
structure KData where
  cfg : Config
  par : Params
  enc : Encoder
  zin : ZinBuf
  win : Windows
  state : State
  what : What
  sSeq : Int
  rSeq : Int
  doRxd : Bool
  ipktbuf : List UInt8
  obuf : List UInt8
  obufpos : Nat
  filelist : List StrRef
  filename : Option StrRef
  dirname : List UInt8
  recvdir : Int
  recvget : Int
  nresend : Int

/-- `struct k_response`. -/
structure KResponse where
  rstatus : State
  filename : List UInt8
  filedate : List UInt8
  filesize : Int
  sofar : Int
  sofarRumor : Int
  arg : Option StrRef
  type : Action
  dir : List UInt8
  deriving Repr, DecidableEq

/-- A 16-bit signed counter. -/
def short
    (number : Int) : Int :=
  Int.bmod number 65536

end Slate106.Kermit
