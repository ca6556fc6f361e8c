import Slate106.KermitTransfer

namespace Slate106.Kermit

open CBytes

/-!
# Frames between two sessions

What one session sends with the parameters of `_EK_init` the other one reads
and parses as the packet that was sent, in whatever state it is.
-/

variable {ω : Type}

/-- The parameters of a frame as `_EK_init` and `K_REINIT` leave them. -/
structure Framing
    (p : Params) : Prop where
  parity : p.parity = 0
  bct : p.bct = 1
  sSoh : p.sSoh = packetStart
  rSoh : p.rSoh = packetStart
  sEom : p.sEom = packetEnd
  rEom : p.rEom = packetEnd
  rMaxlen : p.rMaxlen = pPktlen

/-- The frame of a packet with these parameters. -/
def frameOf
    (typ : UInt8)
    (seq : Int)
    (data : List UInt8) : List UInt8 :=
  packetStart :: (pktBody 1 typ seq data ++ [packetEnd])

theorem Framing.pktFrame
    {p : Params}
    (framing : Framing p)
    (typ : UInt8)
    (seq : Int)
    (data : List UInt8) :
    pktFrame p typ seq data = frameOf typ seq data := by
  rw [Kermit.pktFrame, framing.bct, framing.sSoh, framing.sEom, frameOf]

@[simp] theorem frameType_frameOf
    (typ : UInt8)
    (seq : Int)
    (data : List UInt8) :
    frameType (frameOf typ seq data) = typ := by
  unfold frameOf pktBody pktHeader frameType
  dsimp only
  split <;> rfl

/-- A packet that fits a frame and that nothing in it ends early. -/
structure Sendable
    (typ : UInt8)
    (seq : Int)
    (data : List UInt8) : Prop where
  letter : typ ∈ lit "YNFADZBXRGS"
  lower : 0 ≤ seq
  upper : seq ≤ 63
  noZero : (0 : UInt8) ∉ data
  noStart : packetStart ∉ data
  noEnd : packetEnd ∉ data
  fits : data.length ≤ 991

theorem Sendable.printable
    {typ : UInt8}
    {seq : Int}
    {data : List UInt8}
    (sendable : Sendable typ seq data) :
    Printable typ := by
  have all : ∀ c ∈ lit "YNFADZBXRGS", 32 ≤ c.toNat ∧ c.toNat < 128 := by
    decide +kernel
  exact ⟨(all typ sendable.letter).1, (all typ sendable.letter).2⟩

/-! ## Reading a frame -/

/-- The bytes of a frame arrive, with pauses, and `kreadpkt()` returns. -/
def Hears
    (frame : List UInt8)
    (rx : Rx)
    (s : Sys ω) : Prop :=
  ∃ polls, Arrives s.k.par frame polls ∧
    kreadpkt s.k.par polls = some (rx, [])

/-- What `kreadpkt()` returns for the frame of a packet. -/
def frameRx
    (typ : UInt8)
    (seq : Int)
    (data : List UInt8) : Rx where
  ret := (pktBody 1 typ seq data).length
  stored := pktBody 1 typ seq data ++ [0]

theorem Sendable.length_pktBody
    {typ : UInt8}
    {seq : Int}
    {data : List UInt8}
    (sendable : Sendable typ seq data) :
    4 ≤ (pktBody 1 typ seq data).length ∧
      (pktBody 1 typ seq data).length ≤ pPktlen := by
  have fits := sendable.fits
  have check := length_blockCheck (.inl rfl : 1 = 1 ∨ 1 = 3)
    (cstr (pktHeader 1 typ seq data.length ++ data))
  have header := length_pktHeader 1 typ seq data.length
  have short : 3 ≤ (pktHeader 1 typ seq data.length).length := by
    unfold pktHeader
    dsimp only
    split <;> simp
  simp only [pktBody, List.length_append, check, pPktlen]
  omega

/-- Whenever its bytes arrive, a frame is read as a whole. -/
theorem Sendable.arrives
    {typ : UInt8}
    {seq : Int}
    {data : List UInt8}
    (sendable : Sendable typ seq data)
    {p : Params}
    (framing : Framing p)
    {polls : List Poll}
    (arrives : Arrives p (frameOf typ seq data) polls) :
    kreadpkt p polls = some (frameRx typ seq data, []) := by
  have fits := sendable.fits
  have letter := sendable.printable
  have plain : ∀ c ∈ pktBody 1 typ seq data,
      unparity p c ≠ packetStart ∧ unparity p c ≠ packetEnd := by
    refine plain_pktBody_of sendable.lower sendable.upper (by omega) ?_ ?_
      (.inl framing.parity)
    · simp only [List.mem_cons, not_or]
      exact ⟨(letter.ne_of_lt (by decide)).symm, sendable.noStart⟩
    · simp only [List.mem_cons, not_or]
      exact ⟨(letter.ne_of_lt (by decide)).symm, sendable.noEnd⟩
  have whole := kreadpkt_frame framing.rSoh framing.rEom arrives
    (by rw [framing.rMaxlen]; exact sendable.length_pktBody.2) plain []
  rw [List.append_nil] at whole
  exact whole

theorem Hears.eq
    {typ : UInt8}
    {seq : Int}
    {data : List UInt8}
    (sendable : Sendable typ seq data)
    {s : Sys ω}
    (framing : Framing s.k.par)
    {rx : Rx}
    (hears : Hears (frameOf typ seq data) rx s) :
    rx = frameRx typ seq data := by
  obtain ⟨polls, arrives, read⟩ := hears
  rw [sendable.arrives framing arrives] at read
  exact (congrArg Prod.fst (Option.some.inj read)).symm

/-- A frame can be read, for instance when all of it is there at once. -/
theorem Sendable.heard
    {typ : UInt8}
    {seq : Int}
    {data : List UInt8}
    (sendable : Sendable typ seq data)
    {s : Sys ω}
    (framing : Framing s.k.par) :
    Hears (frameOf typ seq data) (frameRx typ seq data) s :=
  ⟨_, arrives_bytes s.k.par _,
    sendable.arrives framing (arrives_bytes s.k.par _)⟩

/-! ## Parsing it -/

/-- Only in `S_EOT` does the parser look at the length that was received. -/
theorem parse_length
    {k : KData}
    (notNak : peek k.ipktbuf 2 ≠ ch 'N')
    (len : Int) :
    parse k len = parse k 5 := by
  have never : ∀ number : Int,
      ¬ (k.state = .sEot ∧ number = 4 ∧
        ((xunchar (peek k.ipktbuf 1)).toNat : Int) = 0 ∧
        peek k.ipktbuf 2 = ch 'N' ∧ peek k.ipktbuf 3 = 0x33) :=
    fun _ shortcut => notNak shortcut.2.2.2.1
  unfold parse
  dsimp only
  rw [if_neg (never len), if_neg (never 5)]

/-- What a session may receive: no NAK in `S_EOT`, no echo while receiving. -/
structure Expects
    (typ : UInt8)
    (k : KData) : Prop where
  noForce : k.cfg.bcta3 = 0
  bct : k.par.bct = 1
  notNak : typ ≠ ch 'N'
  noEcho : typ = ch 'Y' → k.what ≠ .recv

theorem Expects.inForce
    {typ : UInt8}
    {k : KData}
    (expects : Expects typ k) :
    inForce k = 1 := by
  unfold Kermit.inForce
  rw [if_neg (not_not.mpr expects.noForce)]
  exact expects.bct

theorem peek_pktBody_type
    (bct : Nat)
    (typ : UInt8)
    (seq : Int)
    (data rest : List UInt8) :
    peek (pktBody bct typ seq data ++ rest) 2 = typ := by
  unfold pktBody pktHeader
  dsimp only
  split <;> rfl

/-- A packet with a short header is parsed, also while parameters are set. -/
theorem parse_short
    {typ : UInt8}
    {seq : Int}
    {data rest : List UInt8}
    (sendable : Sendable typ seq data)
    (short : data.length ≤ 91)
    {k : KData}
    (expects : Expects typ k)
    (buffer : k.ipktbuf = pktBody 1 typ seq data ++ rest)
    (len : Int) :
    ∃ p buf, parse k len = .good p buf ∧ ReadAs typ seq data p buf := by
  have rseq := toNat_uchar sendable.lower sendable.upper
  have letter := sendable.printable
  let size := UInt8.ofNat (data.length + 1 + 2)
  have value : size.toNat = data.length + 3 := by
    simp [size]
    omega
  have nonzero : size ≠ 0 := by
    intro zero
    rw [zero] at value
    simp at value
  have header : pktHeader 1 typ seq data.length =
      [tochar size, tochar (uchar seq), typ] := by
    unfold pktHeader
    rw [if_neg (by omega)]
  let p : Rcvd :=
    { rtyp := typ, rseq := seq, pdf := 3, datalen := data.length,
      ackText := cancelText k }
  have checkedNoZero :
      (0 : UInt8) ∉ pktHeader 1 typ seq data.length ++ data := by
    simp only [List.mem_append, not_or]
    exact ⟨zero_notMem_of_printable (printable_pktHeader letter sendable.lower
      sendable.upper (by omega)), sendable.noZero⟩
  obtain ⟨tail, parsed⟩ := @parseCheck_blockCheck 1 data.length p
    (pktHeader 1 typ seq data.length ++ data) rest (by decide)
    (length_blockCheck (.inl rfl) _) (blockOk_blockCheck (.inl rfl) _)
    checkedNoZero (by rw [header]; simp [p]; omega)
  have memory : k.ipktbuf =
      pktHeader 1 typ seq data.length ++ data ++
        blockCheck 1 (pktHeader 1 typ seq data.length ++ data) ++ rest := by
    rw [buffer, pktBody, cstr_of_notMem checkedNoZero]
  rw [← memory] at parsed
  refine ⟨p, pktHeader 1 typ seq data.length ++ data ++ 0 :: tail, ?_,
    rfl, rfl, rfl, ?_, ?_⟩
  · have front : k.ipktbuf = tochar size :: tochar (uchar seq) :: typ ::
        (data ++ blockCheck 1 (pktHeader 1 typ seq data.length ++ data) ++
          rest) := by
      rw [memory, header]
      simp
    have first : peek k.ipktbuf 0 = tochar size := by
      rw [front]
      rfl
    have second : peek k.ipktbuf 1 = tochar (uchar seq) := by
      rw [front]
      rfl
    have third : peek k.ipktbuf 2 = typ := by
      rw [front]
      rfl
    have noEcho : ¬ (k.what = .recv ∧ (typ = ch 'N' ∨ typ = ch 'Y')) := by
      rintro ⟨receiving, isNak | isAck⟩
      · exact expects.notNak isNak
      · exact expects.noEcho isAck receiving
    have chklen : chkLength k typ = 1 := by
      unfold chkLength
      rw [if_neg (not_not.mpr expects.noForce)]
      split
      · rfl
      · exact expects.bct
    have datalen : dataLength k size p = data.length := by
      unfold dataLength
      split
      · rw [value, if_neg (not_not.mpr expects.noForce)]
        omega
      · rfl
    rw [parse_length (by rw [third]; exact expects.notNak)]
    unfold parse
    simp only [first, second, third, xunchar_tochar, rseq, value]
    rw [if_neg (fun shortcut => expects.notNak shortcut.2.2.2.1),
      if_neg (by have lower := sendable.lower
                 have upper := sendable.upper
                 omega),
      if_neg noEcho, if_neg nonzero, if_neg (not_not.mpr expects.noForce),
      expects.bct]
    have same : ((data.length + 3 : Nat) : Int) - (1 : Nat) - 2 =
        data.length := by
      omega
    rw [same]
    unfold parseLengths
    dsimp only
    rw [show (⟨typ, seq, 3, data.length, cancelText k⟩ : Rcvd) = p from rfl,
      datalen, chklen, if_neg (by unfold pBuflen pPktlen; omega),
      Int.toNat_natCast]
    exact parsed
  · have split : pktHeader 1 typ seq data.length ++ data ++ 0 :: tail =
        [tochar size, tochar (uchar seq), typ] ++ (data ++ 0 :: tail) := by
      rw [header, List.append_assoc]
    rw [split]
    exact cstr_append_zero sendable.noZero tail
  · have split : pktHeader 1 typ seq data.length ++ data ++ 0 :: tail =
        [tochar size, tochar (uchar seq), typ] ++ (data ++ 0 :: tail) := by
      rw [header, List.append_assoc]
    rw [split]
    exact List.take_left' rfl

/-- What the parser makes of a frame that was received. -/
structure HeardAs
    (typ : UInt8)
    (seq : Int)
    (data : List UInt8)
    (rx : Rx)
    (s : Sys ω)
    (p : Rcvd)
    (buf : List UInt8) : Prop where
  long : 4 ≤ rx.ret
  good : parse (heardSys rx s).k rx.ret = .good p buf
  read : ReadAs typ seq data p buf

/-- A frame is parsed as the packet that was sent. -/
theorem Hears.parsed
    {typ : UInt8}
    {seq : Int}
    {data : List UInt8}
    (sendable : Sendable typ seq data)
    {s : Sys ω}
    (framing : Framing s.k.par)
    (expects : Expects typ s.k)
    (place :
      data.length ≤ 91 ∨
        typ ≠ ch 'S' ∧ s.k.state ≠ .sInit ∧ s.k.state ≠ .sEot)
    {rx : Rx}
    (hears : Hears (frameOf typ seq data) rx s) :
    ∃ p buf, HeardAs typ seq data rx s p buf := by
  have read := hears.eq sendable framing
  subst read
  have buffer : (heardSys (frameRx typ seq data) s).k.ipktbuf =
      pktBody 1 typ seq data ++
        0 :: s.k.ipktbuf.drop (frameRx typ seq data).stored.length := by
    simp [heardSys, receive, onK, ok2rxd, frameRx]
  have long : (4 : Int) ≤ (frameRx typ seq data).ret :=
    Int.ofNat_le.mpr sendable.length_pktBody.1
  have now : Expects typ (heardSys (frameRx typ seq data) s).k :=
    ⟨expects.noForce, expects.bct, expects.notNak, expects.noEcho⟩
  rcases place with short | ⟨notS, notInit, notEot⟩
  · obtain ⟨p, buf, good, readAs⟩ :=
      parse_short sendable short now buffer (frameRx typ seq data).ret
    exact ⟨p, buf, long, good, readAs⟩
  · have letter : typ ∈ lit "YNFADZBXRG" := by
      have among := sendable.letter
      have all : ∀ c ∈ lit "YNFADZBXRGS", c = ch 'S' ∨
          c ∈ lit "YNFADZBXRG" := by
        decide +kernel
      exact (all typ among).resolve_left notS
    have check := now.inForce
    have fits := sendable.fits
    rw [← check] at buffer
    obtain ⟨p, buf, good, readAs⟩ := @parse_pktBody
      (heardSys (frameRx typ seq data) s).k typ seq
      (frameRx typ seq data).ret data _
      ⟨letter, notInit, notEot, fun echo => by
        rcases echo with isAck | isNak
        · exact expects.noEcho isAck
        · exact absurd isNak expects.notNak⟩
      sendable.lower sendable.upper (.inl check)
      (by rw [check]; unfold pBuflen pPktlen; omega) sendable.noZero buffer
    exact ⟨p, buf, long, good, readAs⟩

end Slate106.Kermit
