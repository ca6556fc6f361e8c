import Slate106.KermitData
import Slate106.KermitChecks

namespace Slate106.Kermit

/-!
# Window slots

The functions of `kermit.c` that search, allocate and free the slots of the
two packet windows.
-/

/-- The slot numbers `0 .. wslots - 1` in the order of the `for` loops. -/
def slots
    (k : KData) : List Int :=
  (List.range k.par.wslots).map Int.ofNat

/-- A sequence number that is one. -/
def isSeq
    (seq : Int) : Bool :=
  0 ≤ seq && seq < 64

/-- Store into one element of an array that is indexed by an integer. -/
def put {β : Type}
    (array : Int → β)
    (index : Int)
    (value : β) : Int → β :=
  fun query =>
    if query = index then value else array query

@[simp] theorem put_same {β : Type}
    (array : Int → β)
    (index : Int)
    (value : β) :
    put array index value index = value := by
  simp [put]

theorem put_other {β : Type}
    (array : Int → β)
    {index query : Int}
    (different : query ≠ index)
    (value : β) :
    put array index value query = array query := by
  simp [put, different]

@[simp] theorem put_put {β : Type}
    (array : Int → β)
    (index : Int)
    (first second : β) :
    put (put array index first) index second =
      put array index second := by
  funext query
  by_cases same : query = index <;> simp [put, same]

/-- `seq - ref`, rotated to `-31 .. 31`. -/
def seqRot
    (seq ref : Int) : Int :=
  let rot := seq - ref
  let rot := if rot < -31 then rot + 64 else rot
  if rot > 31 then rot - 64 else rot

/-- The last valid sequence number in the receive slots, or `-1`. -/
def rseqRef
    (k : KData) : Int :=
  (slots k).foldl
    (fun ref slot =>
      if isSeq (k.win.ipktinfo slot).seq then
        (k.win.ipktinfo slot).seq
      else ref)
    (-1)

/--
The scan of `earliest_rseq()` and `latest_rseq()`: `better` compares a
rotated number with the best one so far.
-/
def extremeRseq
    (better : Int → Int → Bool)
    (k : KData) : Int :=
  let ref := rseqRef k
  if ref = -1 then -1
  else
    ((slots k).foldl
      (fun (best : Int × Int) slot =>
        let seq := (k.win.ipktinfo slot).seq
        if isSeq seq && better (seqRot seq ref) best.1 then
          (seqRot seq ref, seq)
        else best)
      (0, ref)).2

/-- `earliest_rseq()`. -/
def earliestRseq
    (k : KData) : Int :=
  extremeRseq (fun rot best => rot < best) k

/-- `latest_rseq()`. -/
def latestRseq
    (k : KData) : Int :=
  extremeRseq (fun rot best => rot > best) k

/-- `nused_rslots()`. -/
def nusedRslots
    (k : KData) : Nat :=
  (slots k).countP (fun slot => (k.win.ipktinfo slot).len > 0)

/-- `nused_sslots()`. -/
def nusedSslots
    (k : KData) : Nat :=
  (slots k).countP (fun slot => (k.win.opktinfo slot).len > 0)

/-- `get_rslot()`: the slot number, or `-1`. -/
def getRslot
    (k : KData) : Int × KData :=
  match (slots k).find? (fun slot => (k.win.ipktinfo slot).len < 1) with
  | some slot =>
      (slot,
        { k with
          win.ipktinfo := put k.win.ipktinfo slot
            { k.win.ipktinfo slot with
              len := -1, seq := -1, typ := ch ' ', crc := 0xFFFF } })
  | none => (-1, k)

/-- `get_sslot()`: the slot number, or `-1`. -/
def getSslot
    (k : KData) : Int × KData :=
  match (slots k).find? (fun slot => (k.win.opktinfo slot).len < 1) with
  | some slot =>
      (slot,
        { k with
          win.opktinfo := put k.win.opktinfo slot
            { k.win.opktinfo slot with
              len := -1, seq := -1, typ := ch ' ', rtr := 0, flg := 0 } })
  | none => (-1, k)

/-- What `free_rslot()` does to a slot whose number is in range. -/
def clearRslot
    (slot : Int)
    (k : KData) : KData :=
  let p := k.win.ipktinfo slot
  { k with
    win.rPw := if isSeq p.seq then put k.win.rPw p.seq (-1) else k.win.rPw
    win.ipktinfo := put k.win.ipktinfo slot
      { p with len := 0, seq := -1, typ := 0, rtr := 0, flg := 0,
               crc := 0xFFFF } }

/-- `free_sslot()`. -/
def freeSslot
    (slot : Int)
    (k : KData) : KData :=
  if slot < 0 || slot ≥ pWslots then k
  else
    let p := k.win.opktinfo slot
    { k with
      win.sPw := if isSeq p.seq then put k.win.sPw p.seq (-1) else k.win.sPw
      win.opktinfo := put k.win.opktinfo slot
        { p with len := 0, seq := -1, typ := 0, rtr := 0, flg := 0 } }

/-- The age of a sequence number in `earliest_sseq()`. -/
def sseqAge
    (k : KData)
    (seq : Int) : Int :=
  let age := k.sSeq - seq
  let age := if age < 0 then age + 64 else age
  if age > 63 then age - 64 else age

/-- `earliest_sseq()`. -/
def earliestSseq
    (k : KData) : Int :=
  ((slots k).foldl
    (fun (oldest : Int × Int) slot =>
      let seq := (k.win.opktinfo slot).seq
      if isSeq seq && sseqAge k seq > oldest.1 then
        (sseqAge k seq, seq)
      else oldest)
    (-99, -1)).2

/-- `free_sslot_easca()`; the first argument counts the loop iterations left. -/
def freeSslotEascaLoop : Nat → KData → KData
  | 0, k => k
  | n + 1, k =>
      let seqEarl := earliestSseq k
      if seqEarl < 0 || seqEarl > 63 then k
      else
        let slotEarl := k.win.sPw seqEarl
        if slotEarl < 0 || slotEarl ≥ k.par.wslots then k
        else if (k.win.opktinfo slotEarl).flg = 0 then k
        else freeSslotEascaLoop n (freeSslot slotEarl k)

/-- `free_sslot_easca()`. -/
def freeSslotEasca
    (k : KData) : KData :=
  freeSslotEascaLoop k.par.wslots k

/-- `nxtpkt()`. -/
def nxtpkt
    (k : KData) : KData :=
  { k with sSeq := (k.sSeq + 1) % 64, enc.xdata := .xdatabuf }

/-- `k->s_pw[k->s_seq] = slot`, which follows most calls of `get_sslot()`. -/
def mapSseq
    (slot : Int)
    (k : KData) : KData :=
  { k with win.sPw := put k.win.sPw k.sSeq slot }

/-- `get_sslot(k, &s_slot)` followed by `k->s_pw[k->s_seq] = s_slot`. -/
def takeSslot
    (k : KData) : Int × KData :=
  let taken := getSslot k
  (taken.1, mapSseq taken.1 taken.2)

/-- `ok2rxd()`, which also stores its result in `do_rxd`. -/
def ok2rxd
    (k : KData) : KData :=
  let swFull := nusedSslots k = k.par.wslots
  { k with
    doRxd :=
      !((k.what = .send || k.what = .get) && k.state = .sData &&
        !decide swFull) }

end Slate106.Kermit
