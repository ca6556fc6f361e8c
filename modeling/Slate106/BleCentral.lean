import Slate106.Fifo
import Slate106.KermitUnixio

namespace Slate106.Ble

open CBytes Mldp

/-!
# The Bluetooth central

The part of `main.c` after a connection is open: the steps of a connection, the
callbacks that change them, and the two FIFOs between the MLDP service and the
file transfer.

What the libraries below answer is an argument: whether BlueZ takes a write and
whether a thread can be created.  `Call` records the calls that leave `main.c`.
-/

/-! ## The data of a connection -/

/-- `ble_connection_step`; `unset` is the initial `-1`. -/
inductive BleConnectionStep where
  | unset
  | scanning
  | slateFound
  | socketOpen
  | connected
  | spsDiscovering
  | allServiceDiscoveryComplete
  | waitMldpData
  | fileTransfer
  deriving Repr, DecidableEq

/-- The characteristics of the SLATE service that the central writes. -/
inductive SpsChar where
  | identification
  | authentication
  | misc
  deriving Repr, DecidableEq

/-- A call of `main.c` that the properties are about. -/
inductive Call where
  | gattCentralCreate
  | writeValue : SpsChar → Bool → Call
  | completed : SpsChar → Bool → Call
  | startFileTransfer
  | pthreadCreate : Nat → Call
  | pthreadJoin : Option Nat → Call
  | mainloopQuit
  | exit
  deriving Repr, DecidableEq

/--
`struct gatt_central`.

A thread identifier that was never set is `none`: the zero of the allocation.
-/
structure GattCentral where
  ftTaskId : Option Nat
  mldpFifoRx : Fifo
  mldpFifoTx : Fifo
  deriving Repr, DecidableEq

/-- The global variables of `main.c`, and the calls made, newest first. -/
structure Globals where
  bleConStep : BleConnectionStep
  mGattCentral : GattCentral
  log : List Call
  deriving Repr, DecidableEq

abbrev exitSuccess : Int := 0

abbrev exitFailure : Int := 1

/-- Record a call. -/
def note
    (call : Call)
    (g : Globals) : Globals :=
  { g with log := call :: g.log }

/-! ## Sending over the link -/

/-- `BLE_MLDP_MAX_DATA_LEN`. -/
abbrev bleMldpMaxDataLen : Nat := 20

/--
The local variables of `tx_fifo_send_bytes()`, the number of writes tried so
far and the chunks that were accepted.
-/
structure TxVars where
  nbReadableBytes : UInt32
  repeatOnErrorCount : Nat
  dataArray : List UInt8
  fifo : Fifo
  tries : Nat
  accepted : List (List UInt8)
  deriving Repr, DecidableEq

/-- `length` in a turn of the loop of `tx_fifo_send_bytes()`. -/
def txLength
    (v : TxVars) : UInt32 :=
  min v.nbReadableBytes (UInt32.ofNat bleMldpMaxDataLen)

/-- The chunk of a turn: taken from the FIFO, unless the last was refused. -/
def txRead
    (v : TxVars) : Option TxVars :=
  if v.repeatOnErrorCount = 0 then
    let read := fifoRead true (some (txLength v)) v.fifo
    if read.1.code ≠ 0 then none
    else if read.1.size ≠ some (txLength v) then none
    else some { v with dataArray := read.1.bytes, fifo := read.2 }
  else some v

/--
The loop of `tx_fifo_send_bytes()`.  `accepts` tells for each write without
response whether BlueZ takes it; the first argument bounds the turns by four
for each byte.
-/
def txLoop
    (accepts : Nat → Bool) : Nat → TxVars → Int × TxVars
  | 0, v => (exitSuccess, v)
  | n + 1, v =>
      if v.nbReadableBytes = 0 then (exitSuccess, v)
      else
        match txRead v with
        | none => (exitFailure, v)
        | some v =>
            let tried := { v with tries := v.tries + 1 }
            if !accepts v.tries then
              if v.repeatOnErrorCount ≥ 3 then (exitSuccess, tried)
              else
                txLoop accepts n
                  { tried with repeatOnErrorCount := v.repeatOnErrorCount + 1 }
            else
              txLoop accepts n
                { tried with
                  repeatOnErrorCount := 0
                  nbReadableBytes := v.nbReadableBytes - txLength v
                  accepted :=
                    v.accepted ++ [v.dataArray.take (txLength v).toNat] }

/-- `tx_fifo_send_bytes()`: its result, the chunks accepted, the FIFO left. -/
def txFifoSendBytes
    (accepts : Nat → Bool)
    (f : Fifo) : Int × List (List UInt8) × Fifo :=
  let nbReadableBytes := fifoLength f
  if nbReadableBytes = 0 then (exitSuccess, [], f)
  else
    let sent :=
      txLoop accepts (4 * nbReadableBytes.toNat)
        { nbReadableBytes := nbReadableBytes
          repeatOnErrorCount := 0
          dataArray := []
          fifo := f
          tries := 0
          accepted := [] }
    (sent.1, sent.2.accepted, sent.2.fifo)

/-- `ble_mldp_send_bytes()`. -/
def bleMldpSendBytes
    (accepts : Nat → Bool)
    (pString : List UInt8)
    (length : UInt32)
    (g : Globals) : Int × List (List UInt8) × Globals :=
  if g.bleConStep ≠ .fileTransfer then (exitFailure, [], g)
  else
    let written := fifoWrite (some pString) (some length) g.mGattCentral.mldpFifoTx
    let g := { g with mGattCentral.mldpFifoTx := written.2 }
    if written.1.code ≠ 0 then (written.1.code, [], g)
    else
      let sent := txFifoSendBytes accepts written.2
      let g := { g with mGattCentral.mldpFifoTx := sent.2.2 }
      if sent.1 ≠ 0 then (exitFailure, sent.2.1, g)
      else (exitSuccess, sent.2.1, g)

/-! ## Receiving from the link -/

/-- `ble_mldp_get_byte()`, as one poll of `kreadpkt()`. -/
def bleMldpGetByte
    (g : Globals) : Kermit.Poll × Globals :=
  let got := fifoGet g.mGattCentral.mldpFifoRx
  (match got.2.1 with
    | some byte => .byte byte
    | none => .empty,
    { g with mGattCentral.mldpFifoRx := got.2.2 })

/-- `fifos_flush()`. -/
def fifosFlush
    (g : Globals) : Globals :=
  { g with
    mGattCentral.mldpFifoRx := (fifoFlush g.mGattCentral.mldpFifoRx).2
    mGattCentral.mldpFifoTx := (fifoFlush g.mGattCentral.mldpFifoTx).2 }

/--
`file_transfer_start_server()`.  `created` is the identifier that
`pthread_create` stores, or `none` when it fails.
-/
def fileTransferStartServer
    (created : Option Nat)
    (g : Globals) : Int × Globals :=
  match created with
  | none => (-1, g)
  | some id =>
      (0, note (.pthreadCreate id) { g with mGattCentral.ftTaskId := some id })

/-- `start_file_transfer()`. -/
def startFileTransfer
    (created : Option Nat)
    (g : Globals) : Globals :=
  let started := fileTransferStartServer created
    (fifosFlush (note .startFileTransfer g))
  if started.1 ≠ 0 then note .exit started.2 else started.2

/-- `server_mldp_data_char_write_cb()` for the attribute of the service. -/
def serverMldpDataCharWriteCb
    (offset : UInt16)
    (value : List UInt8)
    (created : Option Nat)
    (g : Globals) : Globals :=
  if offset ≠ 0 then g
  else
    let g :=
      if g.bleConStep = .waitMldpData then
        startFileTransfer created { g with bleConStep := .fileTransfer }
      else g
    { g with
      mGattCentral.mldpFifoRx :=
        (fifoWrite (some value) (some (UInt32.ofNat value.length))
          g.mGattCentral.mldpFifoRx).2 }

/-! ## The steps of a connection -/

/-- `retry_scan()`. -/
def retryScan
    (g : Globals) : Globals :=
  { note .mainloopQuit g with bleConStep := .scanning }

/--
`write_identification_char()`, `write_authentication_char()` and
`write_misc_char()`: each writes its own characteristic.  `issued` tells
whether `bt_gatt_client_write_value` takes the write.
-/
def writeChar
    (char : SpsChar)
    (issued : Bool)
    (g : Globals) : Globals :=
  note (.writeValue char issued) g

/-- `write_ble_sps()`. -/
def writeBleSps
    (issued : Bool)
    (g : Globals) : Globals :=
  writeChar .identification issued g

/-- `ready_cb()`. -/
def readyCb
    (success issued : Bool)
    (g : Globals) : Globals :=
  if !success then g
  else
    writeBleSps issued { g with bleConStep := .allServiceDiscoveryComplete }

/-- `client_write_cb_identification_char()`. -/
def clientWriteCbIdentificationChar
    (success issued : Bool)
    (g : Globals) : Globals :=
  if !success then retryScan g else writeChar .authentication issued g

/-- `client_write_cb_authentication_char()`. -/
def clientWriteCbAuthenticationChar
    (success issued : Bool)
    (g : Globals) : Globals :=
  if !success then retryScan g else writeChar .misc issued g

/-- `client_write_cb_misc_char()`. -/
def clientWriteCbMiscChar
    (success : Bool)
    (g : Globals) : Globals :=
  if !success then retryScan g else { g with bleConStep := .waitMldpData }

/-- The completion callback of the write of a characteristic. -/
def clientWriteCb
    (char : SpsChar)
    (success issued : Bool)
    (g : Globals) : Globals :=
  match char with
  | .identification => clientWriteCbIdentificationChar success issued g
  | .authentication => clientWriteCbAuthenticationChar success issued g
  | .misc => clientWriteCbMiscChar success g

/-- `att_disconnect_cb()`. -/
def attDisconnectCb
    (g : Globals) : Globals :=
  let g := note (.pthreadJoin g.mGattCentral.ftTaskId) g
  note .mainloopQuit { g with bleConStep := .scanning }

/-- A FIFO in memory that `new0` has set to zero. -/
def zeroedFifo : Fifo where
  pBuff := []
  buffSize := 0
  readPos := 0
  writePos := 0

/-- The memory of `gatt_central_create()`. -/
def zeroedCentral : GattCentral where
  ftTaskId := none
  mldpFifoRx := zeroedFifo
  mldpFifoTx := zeroedFifo

/-- `mldp_fifos_init()`. -/
def mldpFifosInit
    (mldpRxBuff mldpTxBuff : List UInt8)
    (g : Globals) : Globals :=
  { g with
    mGattCentral.mldpFifoRx :=
      (fifoInit (some mldpRxBuff) 4096 g.mGattCentral.mldpFifoRx).2
    mGattCentral.mldpFifoTx :=
      (fifoInit (some mldpTxBuff) 4096 g.mGattCentral.mldpFifoTx).2 }

/--
The part of the loop of `main()` for `BLE_SOCKET_OPEN`, up to `mainloop_run`:
`gatt_central_create()` on fresh memory, and `mldp_fifos_init()` on the static
buffers.
-/
def openCentral
    (mldpRxBuff mldpTxBuff : List UInt8)
    (g : Globals) : Globals :=
  mldpFifosInit mldpRxBuff mldpTxBuff
    (note .gattCentralCreate { g with mGattCentral := zeroedCentral })

/-- A connection in file transfer, with empty FIFOs. -/
def transferring : Globals :=
  openCentral [] []
    { bleConStep := .fileTransfer, mGattCentral := zeroedCentral, log := [] }

end Slate106.Ble
