import Slate106.KermitMachine
import Slate106.KermitUnixio

namespace Slate106.Kermit

open CBytes

/-!
# The control program

`_EK_init`, and the loop of `kermit_main` as a function of what `rxd` returns
in each turn.
-/

variable {ω : Type}

/-- A packet structure that `memset` cleared. -/
def Packet.zero : Packet where
  len := 0
  seq := 0
  typ := 0
  rtr := 0
  crc := 0
  flg := 0
  buf := []

/-- The fields `_EK_init` fills in, after `memset`. -/
def clearedData
    (rootPath : List UInt8) : KData where
  cfg :=
    { xfermode := 0, wslotsMax := 1, pMaxlen := pPktlen, ikeep := 0,
      cancel := 0, bcta3 := 0, sCtlq := 0, obuflen := obufLen,
      rootpath := rootPath }
  par :=
    { binary := 1, parity := 0, retry := 0, sSoh := 0, rSoh := 0, sEom := 0,
      rEom := 0, rTimo := 0, sTimo := 0, rMaxlen := 0, sMaxlen := 0,
      wslots := 0, rCtlq := 0, ebq := 0, ebqflg := 0, rptq := 0, rptflg := 0,
      bct := 1, capas := 0 }
  enc :=
    { sFirst := 0, cgetpkt := some 0, sRpt := 0, size := 0, osize := 0,
      sRemain := [], xdata := .xdatabuf, xdatabuf := [], istring := none }
  zin := { zincnt := 0, zinptr := none }
  win :=
    { ipktinfo := fun _ => .zero, opktinfo := fun _ => .zero,
      rPw := fun _ => 0, sPw := fun _ => 0, opktlen := 0 }
  state := .rNone
  what := .nothing
  sSeq := 0
  rSeq := 0
  doRxd := false
  ipktbuf := []
  obuf := []
  obufpos := 0
  filelist := []
  filename := none
  dirname := []
  recvdir := 0
  recvget := 0
  nresend := 0

/-- A response structure that is all zero. -/
def clearedResponse : KResponse where
  rstatus := .rNone
  filename := []
  filedate := []
  filesize := 0
  sofar := 0
  sofarRumor := 0
  arg := none
  type := .none
  dir := []

/-- The structures after `_EK_init`. -/
def ekInit
    (io : Io ω)
    (rootPath : List UInt8)
    (w : ω) : Sys ω :=
  (kermit io .init 0 (lit "eksw init")
    { k := clearedData rootPath, r := clearedResponse, w := w,
      log := [] }).2

theorem ekInit_eq
    (io : Io ω)
    (rootPath : List UInt8)
    (w : ω) :
    ekInit io rootPath w =
      { k := kermitInit (clearedData rootPath), r := clearedResponse, w := w,
        log := [] } :=
  rfl

/-- The local variables of `kermit_main()`; `ret` is set when it is left. -/
structure MainVars (ω : Type) where
  sys : Sys ω
  rxLen : Int
  retrycounter : Int
  start : Bool
  ret : Option Int

/-- `inbuf = k.ipktbuf; rx_len = k.rxd(&k, inbuf, P_PKTLEN);` -/
def receive
    (rx : Rx)
    (s : Sys ω) : Sys ω :=
  { s with k.ipktbuf := poke s.k.ipktbuf 0 rx.stored }

/-- The loop body of `kermit_main()` after the attempt to read a packet. -/
def mainHandle
    (io : Io ω)
    (v : MainVars ω) : MainVars ω :=
  if v.rxLen = 0 ∧ v.retrycounter = 0 then
    { v with
      sys :=
        if v.start then v.sys
        else (kermit io .error v.rxLen (lit "eksw to") v.sys).2
      ret := some kTimeout }
  else
    let v :=
      if v.rxLen = 0 then { v with retrycounter := v.retrycounter - 1 }
      else v
    let done := kermit io .run v.rxLen [] v.sys
    let v := { v with sys := done.2, start := false }
    if done.1 = xDone then { v with ret := some kSuccess }
    else if done.1 = xError then { v with ret := some kFailure }
    else v

/-- The loop body of `kermit_main()`; `rx` is what `rxd` returns if called. -/
def mainIter
    (io : Io ω)
    (rx : Rx)
    (v : MainVars ω) : MainVars ω :=
  if v.ret ≠ none then v
  else
    let v := { v with sys := onK ok2rxd v.sys }
    if v.sys.k.doRxd then
      let v := { v with sys := receive rx v.sys, rxLen := rx.ret }
      if rx.ret < 0 then { v with ret := some (-rx.ret) }
      else mainHandle io v
    else mainHandle io v

/-- `kermit_main()` up to its loop. -/
def mainStart
    (io : Io ω)
    (action : Action)
    (cmlist : List StrRef)
    (s : Sys ω) : MainVars ω :=
  let s := { s with r.type := .wait, k.filelist := cmlist }
  let s := (kermit io .reinit 0 (lit "eksw init") s).2
  let begun :=
    match action with
    | .dir => kermit io .dir 0 (lit "eksw dir") s
    | .send => kermit io .send 0 (lit "eksw send") s
    | .get => kermit io .get 0 (lit "eksw get") s
    | _ => (xOk, s)
  { sys := begun.2, rxLen := 0, retrycounter := begun.2.k.par.retry + 1,
    start := true, ret := none }

/-- `kermit_main()` through its loop, for what `rxd` returns turn by turn. -/
def mainLoop
    (io : Io ω)
    (rxs : List Rx)
    (v : MainVars ω) : MainVars ω :=
  rxs.foldl (fun v rx => mainIter io rx v) v

/-- `kermit_main()` after its loop: the output file is closed anyway. -/
def mainEnd
    (os : Os ω)
    (s : Sys (Unix ω)) : Sys (Unix ω) :=
  let name := (s.k.filename.map (deref s)).getD []
  { s with w := (kclosefile os s.w s.k name 0 2).2 }

end Slate106.Kermit
