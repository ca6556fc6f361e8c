import Slate106.KermitParse

namespace Slate106.Kermit

open CBytes

/-!
# The protocol machine

`kermit()`: the function codes, the packets that are handled whatever the
state, and the state switcher.
-/

variable {ω : Type}

/-- `k->state = st; r->rstatus = st;` -/
def setState
    (state : State)
    (s : Sys ω) : Sys ω :=
  { s with k.state := state, r.rstatus := state }

/-- `k->what = what;` -/
def setWhat
    (what : What)
    (s : Sys ω) : Sys ω :=
  { s with k.what := what }

/-- The data field of a received packet, from `pdf` on. -/
def pdfMem
    (p : Rcvd)
    (s : Sys ω) : List UInt8 :=
  s.k.ipktbuf.drop p.pdf

/-- `k->opktinfo[slot].flg = 1` and `free_sslot_easca()`. -/
def acknowledge
    (slot : Int)
    (k : KData) : KData :=
  freeSslotEasca
    { k with
      win.opktinfo := put k.win.opktinfo slot
        { k.win.opktinfo slot with flg := 1 } }

/-- `k->bct` as the client requests and the DIR answer set it. -/
def resetBct
    (k : KData) : KData :=
  { k with par.bct := if k.cfg.bcta3 ≠ 0 then 3 else 1 }

/-! ## The server's answer to DIR -/

/-- The ACK to B in a DIR transaction. -/
def dirAckEot
    (s : Sys ω) : Int × Sys ω :=
  (xDone, setState .rWait s)

/-- The ACK to Z in a DIR transaction. -/
def dirAckEof
    (io : Io ω)
    (s : Sys ω) : Int × Sys ω :=
  let s := onK (fun k => (takeSslot (nxtpkt k)).2) s
  let sent := spkt io (ch 'B') s.k.sSeq 0 none s
  if sent.1 ≠ xOk then
    (xError, epkt io (lit "Send packet 'B' failed.") sent.2)
  else (xOk, setState .sEot sent.2)

/-- Send what `xdata` points to, `l = strlen(k->xdata)` bytes of it. -/
def spktXdata
    (io : Io ω)
    (typ : UInt8)
    (s : Sys ω) : Int × Sys ω :=
  let l : Int := (cstr (xdataMem s.k)).length
  spkt io typ s.k.sSeq l (some (xdataMem s.k)) s

/-- The title of the listing is put into `ipktbuf`, where `xdata` points. -/
def putTitle
    (s : Sys ω) : Sys ω :=
  let title := lit "DIRECTORY " ++ cstr s.k.enc.xdatabuf
  { s with
    k.ipktbuf := poke s.k.ipktbuf 0 (title ++ [0])
    k.enc.xdata := .ipktbuf 0 }

/-- The ACK to S in a DIR transaction: X goes out with the number of S. -/
def dirAckInit
    (io : Io ω)
    (s : Sys ω) : Int × Sys ω :=
  let s := (encstr io .obuf (putTitle s)).2
  let s := onK (fun k => resetBct (takeSslot k).2) s
  let sent := spktXdata io (ch 'X') s
  if sent.1 ≠ xOk then
    (xError, epkt io (lit "Send 'X' packet : failed") sent.2)
  else (xOk, setState .sText sent.2)

/-- The ACK to D in a DIR transaction. -/
def dirAckData
    (io : Io ω)
    (s : Sys ω) : Int × Sys ω :=
  let s := onK (fun k => (takeSslot (nxtpkt k)).2) s
  let sent := spkt io (ch 'Z') s.k.sSeq 0 none s
  if sent.1 = xOk then (sent.1, setState .sEof sent.2)
  else (xOk, epkt io (lit "Cannot send Z packet for end of data") sent.2)

/-- The directory to list, and an empty listing at `pdf`. -/
def noteDirname
    (p : Rcvd)
    (s : Sys ω) : Sys ω :=
  { s with
    k.dirname := (cstr s.k.enc.xdatabuf).take (dnMax - 1)
    k.ipktbuf := poke s.k.ipktbuf p.pdf [0] }

/-- The listing at `pdf`, its copy in the response, and `xdata` on it. -/
def putListing
    (p : Rcvd)
    (listing : List UInt8)
    (s : Sys ω) : Sys ω :=
  { s with
    k.ipktbuf := poke s.k.ipktbuf p.pdf (listing ++ [0])
    r.dir := (cstr listing).take (kDirLen - 1)
    k.enc.xdata := .ipktbuf p.pdf }

/-- The ACK to X in a DIR transaction: D goes out with the number of S. -/
def dirAckText
    (io : Io ω)
    (p : Rcvd)
    (s : Sys ω) : Int × Sys ω :=
  let s := noteDirname p (onK (fun k => (takeSslot k).2) s)
  let listed := callGetdirdata io s
  let s := listed.2.2
  if listed.1 ≠ 0 then (xError, epkt io (lit "Cannot list directory.") s)
  else
    let sent := spktXdata io (ch 'D') (putListing p listed.2.1 s)
    let s := sent.2
    if sent.1 = xOk then
      (sent.1, { setState .sData s with r.arg := some .dirname })
    else (xOk, epkt io (lit "Cannot send D packet") s)

/-- An ACK while `what == W_DIR`. -/
def dirAck
    (io : Io ω)
    (p : Rcvd)
    (s : Sys ω) : Int × Sys ω :=
  let slot := s.k.win.sPw p.rseq
  if slot < 0 || slot ≥ s.k.par.wslots then (xOk, s)
  else
    let s := onK (acknowledge slot) s
    match s.k.state with
    | .sEot => dirAckEot s
    | .sEof => dirAckEof io s
    | .sInit => dirAckInit io s
    | .sData => dirAckData io s
    | .sText => dirAckText io p s
    | _ => (xOk, s)

/-! ## Requests -/

/-- `rpar(k, 'S')` in answer to a request, and the switch to `S_INIT`. -/
def answerRequest
    (io : Io ω)
    (what : What)
    (s : Sys ω) : Int × Sys ω :=
  let sent := rpar io (ch 'S') { s with k.filelist := [.xdatabuf] }
  if sent.1 ≠ xOk then
    (xError, epkt io (lit "Send S packet Failed") sent.2)
  else (xOk, setWhat what (setState .sInit sent.2))

/-- The name a request asks for goes to `xdatabuf`. -/
def noteRequest
    (action : Action)
    (name : List UInt8)
    (s : Sys ω) : Sys ω :=
  { s with k.enc.xdatabuf := name ++ [0], r.type := action }

/-- A G packet in `R_WAIT`. -/
def gPacket
    (io : Io ω)
    (p : Rcvd)
    (s : Sys ω) : Int × Sys ω :=
  let s := (decodeName (pdfMem p s) s).2
  let pdf := cstr (pdfMem p s)
  if peek pdf 0 ≠ ch 'D' then
    (xError, epkt io (lit "Unknown generic command") s)
  else
    let name := (pdf.drop 1).takeWhile (· ≠ ch ' ')
    answerRequest io .dir (noteRequest .dir name s)

/-- An R packet, in any state. -/
def rPacket
    (io : Io ω)
    (p : Rcvd)
    (s : Sys ω) : Int × Sys ω :=
  let s := (decodeName (pdfMem p s) s).2
  let name := cstr (pdfMem p s)
  let access := callAccessf io name (noteRequest .get name s)
  let s := access.2
  if access.1 ≠ xOk then
    let s :=
      epkt io
        (lit "The file specified in GET parameters is not accessible") s
    (xError, { s with r.arg := some .xdatabuf })
  else
    let answered := answerRequest io .send s
    if answered.1 ≠ xOk then answered
    else (xOk, { answered.2 with k.recvget := 1 })

/-! ## Packets for a sender -/

/-- `k->r_seq = k->s_seq; return (X_OK);` -/
def awaitSent
    (s : Sys ω) : Int × Sys ω :=
  (xOk, { s with k.rSeq := s.k.sSeq })

/-- The end of the input file: it is closed and the state is `S_EOF`. -/
def endInput
    (io : Io ω)
    (s : Sys ω) : Sys ω :=
  setState .sEof (callClosef io 0 1 s).2

/-- A packet other than an ACK while sending and nothing is outstanding. -/
def sendRequested
    (io : Io ω)
    (p : Rcvd)
    (s : Sys ω) : Int × Sys ω :=
  let s := onK nxtpkt s
  if s.k.sSeq ≠ p.rseq then
    (xError, epkt io (lit "EKSW W_SEND confused") s)
  else
    let slot := (takeSslot s.k).1
    let s := onK (fun k => (takeSslot k).2) s
    let sent := sdata io s
    let s := sent.2
    if sent.1 = xError then (xError, s)
    else if sent.1 = 0 then
      let s :=
        onK (fun k => freeSslot slot { k with sSeq := (k.sSeq - 1) % 64 })
          (endInput io s)
      awaitSent s
    else awaitSent s

/-- The peer cancels a file in the ACK to a data packet. -/
def cancelSend
    (io : Io ω)
    (p : Rcvd)
    (s : Sys ω) : Int × Sys ω :=
  let s := (callClosef io 0 1 s).2
  let s := onK (fun k => (takeSslot (nxtpkt k)).2) s
  let sent := spkt io (ch 'Z') s.k.sSeq 0 none s
  let s := sent.2
  if sent.1 ≠ xOk then (sent.1, s)
  else if peek (pdfMem p s) 0 = ch 'Z' ∨ s.k.cfg.cancel = iGroup then
    awaitSent (setState .sEof { s with k.filelist := [] })
  else awaitSent (setState .sEof s)

/-- The block of `kermit()` under `if (k->what == W_SEND)`. -/
def sendStage
    (io : Io ω)
    (p : Rcvd)
    (s : Sys ω) : Stage ω :=
  if p.rtyp ≠ ch 'Y' then
    let done :=
      if nusedSslots s.k = 0 then sendRequested io p s
      else resend io p.rseq s
    .ret done.1 done.2
  else
    let slot := s.k.win.sPw p.rseq
    if slot < 0 || slot ≥ s.k.par.wslots then .ret xOk s
    else
      let s := onK (acknowledge slot) s
      let c := peek (pdfMem p s) 0
      if s.k.state = .sData ∧
          (s.k.cfg.cancel ≠ 0 ∨ c = ch 'X' ∨ c = ch 'Z') then
        .ret (cancelSend io p s).1 (cancelSend io p s).2
      else .go p { s with r.sofar := s.r.sofarRumor }

/-- What `kermit()` does with a good packet before the state switcher. -/
def packetStage
    (io : Io ω)
    (p : Rcvd)
    (s : Sys ω) : Stage ω :=
  if p.rtyp = ch 'Y' ∧ s.k.what = .dir then
    .ret (dirAck io p s).1 (dirAck io p s).2
  else if p.rtyp = ch 'G' ∧ s.k.state ≠ .rWait then .ret xOk s
  else if p.rtyp = ch 'G' then
    .ret (gPacket io p s).1 (gPacket io p s).2
  else if p.rtyp = ch 'R' then
    .ret (rPacket io p s).1 (rPacket io p s).2
  else if p.rtyp = ch 'E' then .ret xError s
  else if s.k.what = .send then sendStage io p s
  else .go p s

/-! ## The state switcher: sending -/

/-- The next name of the file list. -/
def takeName
    (name : StrRef)
    (rest : List StrRef)
    (s : Sys ω) : Sys ω :=
  { s with
    k.filename := some name
    k.filelist := rest
    r.filename := (deref s name ++ [0]).take fnMax }

/-- `r->sofar = 0L; r->sofar_rumor = 0L;` -/
def resetSofar
    (s : Sys ω) : Sys ω :=
  { s with r.sofar := 0, r.sofarRumor := 0 }

/-- The next file name: open the file and send F. -/
def sendFile
    (io : Io ω)
    (name : StrRef)
    (rest : List StrRef)
    (s : Sys ω) : Int × Sys ω :=
  let s := takeName name rest s
  let opened := callOpenf io (deref s name) 1 s.r.filesize s
  let s := opened.2
  if opened.1 ≠ xOk then (opened.1, s)
  else
    let s := (encstr io name s).2
    let s := onK (fun k => (takeSslot k).2) s
    let sent := spkt io (ch 'F') s.k.sSeq (-1) (some (xdataMem s.k)) s
    let s := sent.2
    if sent.1 ≠ xOk then (sent.1, s)
    else awaitSent (setState .sFile (resetSofar s))

/-- No more file names: send B. -/
def sendBreak
    (io : Io ω)
    (s : Sys ω) : Int × Sys ω :=
  let s := { s with k.filename := none }
  let slot := (getSslot s.k).1
  if slot < 0 || slot ≥ s.k.par.wslots then
    (xError, onK (fun k => (getSslot k).2) s)
  else
    let s := onK (fun k => (takeSslot k).2) s
    let sent := spkt io (ch 'B') s.k.sSeq 0 none s
    if sent.1 ≠ xOk then sent
    else awaitSent (setState .sEot sent.2)

/-- `S_INIT` and `S_EOF` after their special part: the next file, or B. -/
def nextFile
    (io : Io ω)
    (s : Sys ω) : Int × Sys ω :=
  let s := onK nxtpkt s
  match s.k.filelist with
  | name :: rest => sendFile io name rest s
  | [] => sendBreak io s

/-- `S_FILE` without attribute packets: send the first data, or Z. -/
def firstData
    (io : Io ω)
    (s : Sys ω) : Int × Sys ω :=
  let s := onK (fun k => (takeSslot k).2) s
  let sent := sdata io s
  let s := sent.2
  if sent.1 = xError then (xError, s)
  else if sent.1 = 0 then
    let s := onK (fun k => (takeSslot k).2) s
    let sent := spkt io (ch 'Z') s.k.sSeq 0 none s
    if sent.1 ≠ xOk then sent else awaitSent (endInput io sent.2)
  else awaitSent (setState .sData s)

/-- `S_FILE`: got the ACK to F. -/
def afterFile
    (io : Io ω)
    (s : Sys ω) : Int × Sys ω :=
  let s := onK nxtpkt s
  if s.k.par.capas &&& capAt ≠ 0 then
    let sent := sattr io s
    if sent.1 ≠ xOk then sent
    else awaitSent (setState .sAttr sent.2)
  else firstData io s

/-- `S_ATTR` and `S_DATA`: got the ACK to A or D. -/
def afterData
    (io : Io ω)
    (s : Sys ω) : Int × Sys ω :=
  let s := if s.k.state = .sAttr then setState .sData s else s
  let slot := (getSslot s.k).1
  let s := onK (fun k => (getSslot k).2) s
  if slot < 0 then (xOk, s)
  else
    let s := onK (fun k => mapSseq slot (nxtpkt k)) s
    let sent := sdata io s
    let s := sent.2
    if sent.1 = xError then (xError, s)
    else if sent.1 = 0 then
      let s := endInput io s
      let sent := spkt io (ch 'Z') s.k.sSeq 0 none s
      if sent.1 ≠ xOk then sent else awaitSent sent.2
    else awaitSent s

/-! ## The state switcher: receiving -/

/-- `r->type = type;` -/
def setType
    (type : Action)
    (s : Sys ω) : Sys ω :=
  { s with r.type := type }

/-- `R_WAIT`. -/
def inWait
    (io : Io ω)
    (p : Rcvd)
    (s : Sys ω) : Int × Sys ω :=
  if p.rtyp = ch 'S' then
    let s := onK (spar p.pdf p.datalen) s
    let sent := rpar io (ch 'Y') s
    let s := sent.2
    if sent.1 ≠ xOk then (xError, s)
    else if s.k.what = .dir then (sent.1, setState .rData s)
    else (sent.1, setType .send (setWhat .recv (setState .rFile s)))
  else if s.k.what = .get then resend io 0 s
  else nak io 0 (-1) s

/-- The fields of the response that are cleared for a new file. -/
def clearFile
    (s : Sys ω) : Sys ω :=
  { s with
    r.filedate := [], r.filesize := 0, r.sofar := 0, r.sofarRumor := 0 }

/-- `r->arg` after a transaction that received a request or files. -/
def reportFile
    (action : Action)
    (s : Sys ω) : Sys ω :=
  if s.r.type = action then { s with r.arg := some .rFilename } else s

/-- `R_FILE`. -/
def inFile
    (io : Io ω)
    (p : Rcvd)
    (s : Sys ω) : Int × Sys ω :=
  if p.rtyp = ch 'F' then
    let decoded := decodeName (pdfMem p s) s
    let s := decoded.2
    if decoded.1 = xOk then
      let s := clearFile (setState .rAttr s)
      ack io p.rseq (some s.r.filename) s
    else
      (decoded.1,
        epkt io (lit "eksw Filename error") (setState s.k.state s))
  else if p.rtyp = ch 'B' then
    let sent := ack io p.rseq none s
    (if sent.1 = xOk then xDone else xError, reportFile .send sent.2)
  else if p.rtyp = ch 'Z' then ack io p.rseq none s
  else if p.rtyp = ch 'S' then
    let s := onK (spar p.pdf p.datalen) s
    let sent := rpar io (ch 'Y') s
    let s := sent.2
    if sent.1 ≠ xOk then (xError, s)
    else (sent.1, setWhat .recv (setState .rFile s))
  else (xError, s)

/-- Open the output file before the first data, or for an empty file. -/
def openOutput
    (io : Io ω)
    (s : Sys ω) : Int × Sys ω :=
  let s :=
    resetSofar { s with k.obufpos := 0, k.filename := some .rFilename }
  callOpenf io (cstr s.r.filename) 2 s.r.filesize s

/-- The first D packet of a file. -/
def firstRpkt
    (io : Io ω)
    (p : Rcvd)
    (s : Sys ω) : Int × Sys ω :=
  let opened := openOutput io s
  let s := opened.2
  if opened.1 = xOk then
    let stored :=
      handleGoodRpkt io p.rseq (pdfMem p s) (setState .rData s)
    if stored.1 = xOk then stored
    else
      (stored.1,
        epkt io (lit "eksw Error writing data to file") stored.2)
  else (opened.1, epkt io (lit "eksw cannot open output file") s)

/-- `k->state = R_FILE;`, with `r->rstatus` left behind. -/
def goFile
    (s : Sys ω) : Sys ω :=
  { s with k.state := .rFile }

/-- `r->rstatus = k->state;` -/
def showState
    (s : Sys ω) : Sys ω :=
  { s with r.rstatus := s.k.state }

/-- A Z packet without data before it. -/
def emptyFile
    (io : Io ω)
    (p : Rcvd)
    (s : Sys ω) : Int × Sys ω :=
  let opened := openOutput io s
  let s := opened.2
  if opened.1 = xOk then
    let closed := callClosef io (peek (pdfMem p s) 0) 2 s
    let s := closed.2
    if closed.1 = xOk then
      let s := (ack io p.rseq p.ackText (goFile s)).2
      (xOk, showState s)
    else (closed.1, epkt io (lit "eksw Error closing empty file") s)
  else
    (opened.1, epkt io (lit "eksw File refused or cannot be opened") s)

/-- The attributes of an A packet. -/
def takeAttr
    (p : Rcvd)
    (s : Sys ω) : Sys ω :=
  let read := gattr (pdfMem p s) s.r
  let s := { s with r := read.2 }
  if read.1 > -1 then { s with k.par.binary := read.1 } else s

/-- `R_ATTR`. -/
def inAttr
    (io : Io ω)
    (p : Rcvd)
    (s : Sys ω) : Int × Sys ω :=
  if p.rtyp = ch 'A' then
    (xOk, (ack io p.rseq (some (lit "Y")) (takeAttr p s)).2)
  else if p.rtyp = ch 'D' then firstRpkt io p s
  else if p.rtyp = ch 'Z' then emptyFile io p s
  else if p.rtyp = ch 'F' then (xOk, (ack io p.rseq none s).2)
  else
    (xError, epkt io (lit "eksw R_ATTR error 3 unexpected packet type") s)

/-- The end of a file in `R_DATA`, before its acknowledgment. -/
def endOfFile
    (io : Io ω)
    (p : Rcvd)
    (s : Sys ω) : Int × Sys ω :=
  if s.k.recvdir = 0 then
    let s := (flushToFile io s).2
    let closed := callClosef io (peek (pdfMem p s) 0) 2 s
    let s := closed.2
    (closed.1, showState (if closed.1 = xOk then goFile s else s))
  else (xOk, setState .rFile s)

/-- A listing that is received goes to the response. -/
def takeListing
    (p : Rcvd)
    (s : Sys ω) : Sys ω :=
  if s.k.recvdir = 1 then
    { s with r.dir := (cstr (pdfMem p s)).take (kDirLen - 1) }
  else s

/-- A D packet in `R_DATA`. -/
def dataRpkt
    (io : Io ω)
    (p : Rcvd)
    (s : Sys ω) : Int × Sys ω :=
  let stored := handleGoodRpkt io p.rseq (pdfMem p s) s
  let s := takeListing p stored.2
  if stored.1 = xOk then (stored.1, s)
  else (stored.1, epkt io (lit "eksw hgr failed") s)

/-- `R_DATA`. -/
def inData
    (io : Io ω)
    (p : Rcvd)
    (s : Sys ω) : Int × Sys ω :=
  if p.rtyp = ch 'X' then ack io p.rseq p.ackText s
  else if p.rtyp = ch 'D' then dataRpkt io p s
  else if p.rtyp = ch 'Z' then
    let ended := endOfFile io p s
    if ended.1 = xOk then ack io p.rseq p.ackText ended.2
    else (ended.1, epkt io (lit "eksw Can't close file") ended.2)
  else
    (xError, epkt io (lit "eksw error 4 unexpected packet type") s)

/-- The protocol state switcher. -/
def stateStage
    (io : Io ω)
    (msg : List UInt8)
    (p : Rcvd)
    (s : Sys ω) : Int × Sys ω :=
  match s.k.state with
  | .sInit => nextFile io (onK (spar p.pdf p.datalen) s)
  | .sEof => if nusedSslots s.k > 0 then (xOk, s) else nextFile io s
  | .sFile => afterFile io s
  | .sAttr => afterData io s
  | .sData => afterData io s
  | .sEot => (xDone, reportFile .get s)
  | .rWait => inWait io p s
  | .rFile => inFile io p s
  | .rAttr => inAttr io p s
  | .rData => inData io p s
  | _ => (xError, epkt io msg s)

/-! ## The function codes -/

/-- The function codes `K_...`; `other` is any other number. -/
inductive Fc where
  | init
  | reinit
  | dir
  | get
  | send
  | status
  | quit
  | sync
  | error
  | run
  | other
  deriving Repr, DecidableEq

/-- `kermit(K_INIT, ...)`. -/
def kermitInit
    (k : KData) : KData :=
  { k with
    cfg.sCtlq := prefixCtrl
    par.rCtlq := prefixCtrl
    par.retry := pRetry
    par.ebq := ch 'Y'
    par.ebqflg := 0
    par.rptq := prefixRepeat
    par.capas :=
      if k.par.wslots > 1 then capLp ||| capAt ||| capSw
      else capLp ||| capAt }

/-- A slot as `K_REINIT` leaves it, apart from what it keeps. -/
def reinitPacket
    (p : Packet) : Packet :=
  { p with len := 0, seq := -1, typ := ch ' ', rtr := 0, flg := 0, buf := [0] }

/-- `kermit(K_REINIT, ...)` on the response. -/
def reinitResponse
    (r : KResponse) : KResponse :=
  { r with
    rstatus := .rWait, filename := [], filedate := [], filesize := 0,
    sofar := 0, sofarRumor := 0, dir := [] }

/-- `kermit(K_REINIT, ...)` on `k_data`. -/
def reinitData
    (k : KData) : KData :=
  { k with
    par.sSoh := packetStart
    par.rSoh := packetStart
    par.sEom := packetEnd
    par.rEom := packetEnd
    par.rTimo := 1
    par.sTimo := 1
    par.rMaxlen := k.cfg.pMaxlen
    par.sMaxlen := k.cfg.pMaxlen
    par.wslots := k.cfg.wslotsMax
    par.rptflg := 0
    enc.sFirst := 1
    enc.sRemain := []
    enc.cgetpkt := some 0
    enc.size := 0
    enc.osize := 0
    enc.sRpt := 0
    zin.zincnt := 0
    win.ipktinfo := put k.win.ipktinfo 0
      { reinitPacket (k.win.ipktinfo 0) with crc := 0xFFFF }
    win.opktinfo := put k.win.opktinfo 0 (reinitPacket (k.win.opktinfo 0))
    win.rPw := fun _ => -1
    win.sPw := fun _ => -1
    win.opktlen := 0
    state := .rWait
    what := .recv
    sSeq := 0
    rSeq := 0
    doRxd := true
    filename := none
    recvdir := 0
    recvget := 0
    nresend := 0 }

/-- The file names of a request, separated by blanks. -/
def requestNames
    (s : Sys ω) : List UInt8 :=
  (lit " ").intercalate (s.k.filelist.map (deref s))

/-- Put a request into `obuf` and encode it into `xdatabuf`. -/
def encodeRequest
    (io : Io ω)
    (request : List UInt8)
    (s : Sys ω) : Sys ω :=
  (encstr io .obuf
    { s with
      k.obuf := poke s.k.obuf 0 (request ++ [0])
      k.enc.xdata := .xdatabuf }).2

/-- `kermit(K_DIR, ...)`. -/
def kermitDir
    (io : Io ω)
    (s : Sys ω) : Int × Sys ω :=
  let s := encodeRequest io (ch 'D' :: requestNames s) s
  let s := onK (fun k => resetBct (takeSslot k).2) s
  let sent := spkt io (ch 'G') s.k.sSeq (-1) (some (xdataMem s.k)) s
  if sent.1 ≠ xOk then (xError, sent.2)
  else (xOk, { setState .rWait sent.2 with k.what := .dir, k.recvdir := 1 })

/-- `kermit(K_GET, ...)`. -/
def kermitGet
    (io : Io ω)
    (s : Sys ω) : Int × Sys ω :=
  let s := encodeRequest io (requestNames s) s
  if (getSslot s.k).1 < 0 then (xError, s)
  else
    let s := onK (fun k => resetBct (takeSslot k).2) s
    let sent := spkt io (ch 'R') s.k.sSeq (-1) (some (xdataMem s.k)) s
    if sent.1 ≠ xOk then (xError, sent.2)
    else (xOk, { setState .rWait sent.2 with k.what := .get })

/-- `kermit(K_SEND, ...)`. -/
def kermitSend
    (io : Io ω)
    (s : Sys ω) : Int × Sys ω :=
  let sent := rpar io (ch 'S') s
  if sent.1 ≠ xOk then (xError, sent.2)
  else (xOk, { setState .sInit sent.2 with k.what := .send })

/-- `kermit(K_RUN, ...)` with a packet of `len` bytes in `ipktbuf`. -/
def kermitRun
    (io : Io ω)
    (len : Int)
    (msg : List UInt8)
    (s : Sys ω) : Int × Sys ω :=
  if s.k.state = .rNone then (xOk, s)
  else if s.k.doRxd then
    match rxStage io len s with
    | .ret rc s => (rc, s)
    | .go p s =>
        match packetStage io p s with
        | .ret rc s => (rc, s)
        | .go p s => stateStage io msg p s
  else stateStage io msg .nothing s

/-- `kermit()`. -/
def kermit
    (io : Io ω)
    (fc : Fc)
    (len : Int)
    (msg : List UInt8)
    (s : Sys ω) : Int × Sys ω :=
  let s := testRslots io s
  match fc with
  | .init => (xOk, onK kermitInit s)
  | .reinit =>
      (xOk, { s with k := reinitData s.k, r := reinitResponse s.r })
  | .dir => kermitDir io s
  | .get => kermitGet io s
  | .send => kermitSend io s
  | .status => (xStatus, s)
  | .quit => (xDone, s)
  | .sync => (xOk, epkt io msg s)
  | .error =>
      let s := epkt io msg s
      let mode := if s.k.state = .sData then 1 else 2
      (xDone, (callClosef io 0 mode s).2)
  | .run => kermitRun io len msg s
  | .other => (xError, s)

end Slate106.Kermit
