import Slate106.KermitWhole

namespace Slate106.Kermit

open CBytes

/-!
# Reads that fail

`kreadfile()` does not tell an error of `fread` from the end of the file, so a
GET whose file can only be read in part ends like any other.
-/

variable {ω σ : Type}

/-! ## An ACK to S -/

/-- The parser reads back a short ACK to S, whatever the block check is. -/
theorem parse_initialAck
    {k : KData}
    {seq len : Int}
    {data rest : List UInt8}
    (noForce : k.cfg.bcta3 = 0)
    (lower : 0 ≤ seq)
    (upper : seq ≤ 63)
    (initial : k.state = .sInit)
    (sends : k.what = .send)
    (short : data.length ≤ 91)
    (noZero : (0 : UInt8) ∉ data)
    (buffer : k.ipktbuf = pktBody 1 (ch 'Y') seq data ++ rest) :
    ∃ p buf, parse k len = .good p buf ∧ ReadAs (ch 'Y') seq data p buf := by
  have rseq := toNat_uchar lower upper
  have header : pktHeader 1 (ch 'Y') seq data.length =
      [tochar (UInt8.ofNat (data.length + 1 + 2)), tochar (uchar seq),
        ch 'Y'] := by
    simp only [pktHeader]
    rw [if_neg (by omega)]
  have rlen : (UInt8.ofNat (data.length + 1 + 2)).toNat =
      data.length + 1 + 2 := by
    simp
    omega
  have nonzero : UInt8.ofNat (data.length + 1 + 2) ≠ 0 := by
    intro zero
    rw [zero] at rlen
    simp at rlen
  have headerNoZero :
      (0 : UInt8) ∉ pktHeader 1 (ch 'Y') seq data.length :=
    zero_notMem_of_printable
      (printable_pktHeader (printable_letter (by decide)) lower upper
        (by omega))
  have checkedNoZero :
      (0 : UInt8) ∉ pktHeader 1 (ch 'Y') seq data.length ++ data := by
    simp only [List.mem_append, not_or]
    exact ⟨headerNoZero, noZero⟩
  let p : Rcvd :=
    { rtyp := ch 'Y', rseq := seq, pdf := 3, datalen := data.length,
      ackText := cancelText k }
  have place : p.pdf + data.length =
      (pktHeader 1 (ch 'Y') seq data.length ++ data).length := by
    rw [header]
    simp only [List.length_append, List.length_cons, List.length_nil]
    show 3 + data.length = _
    omega
  obtain ⟨tail, parsed⟩ :=
    @parseCheck_blockCheck 1 data.length p _ rest (by decide)
      (length_blockCheck_of ⟨by decide, by decide⟩ _)
      (blockOk_blockCheck (.inl rfl) _) checkedNoZero place
  have memory : k.ipktbuf =
      pktHeader 1 (ch 'Y') seq data.length ++ data ++
        blockCheck 1 (pktHeader 1 (ch 'Y') seq data.length ++ data) ++
        rest := by
    rw [buffer, pktBody, cstr_of_notMem checkedNoZero]
  have drop : (pktHeader 1 (ch 'Y') seq data.length ++ data ++ 0 :: tail).drop
      p.pdf = data ++ 0 :: tail := by
    rw [header]
    rfl
  refine ⟨p, pktHeader 1 (ch 'Y') seq data.length ++ data ++ 0 :: tail, ?_,
    rfl, rfl, rfl, ?_, ?_⟩
  · have first : peek k.ipktbuf 0 =
        tochar (UInt8.ofNat (data.length + 1 + 2)) := by
      rw [memory, header]
      rfl
    have second : peek k.ipktbuf 1 = tochar (uchar seq) := by
      rw [memory, header]
      rfl
    have third : peek k.ipktbuf 2 = ch 'Y' := by
      rw [memory, header]
      rfl
    unfold parse
    simp only [first, second, third, xunchar_tochar, rseq, rlen]
    rw [if_neg (by rw [initial]; simp), if_neg (by omega),
      if_neg (by rw [sends]; simp), if_neg nonzero]
    unfold parseLengths
    have isFirst : ∀ typ, isInitial k typ = true := by
      intro typ
      simp [isInitial, initial]
    have room : ¬ (((data.length + 1 + 2 : Nat) : Int) - 3 < 0 ∨
        ((data.length + 1 + 2 : Nat) : Int) - 3 + ((1 : Nat) : Int) + 1 ≥
          pBuflen) := by
      simp only [pBuflen, pPktlen]
      omega
    have size : ((data.length + 1 + 2 : Nat) : Int) - 3 = data.length := by
      omega
    simp only [chkLength, dataLength, isFirst, noForce, if_true, if_false,
      ne_eq, not_true_eq_false, rlen]
    rw [if_neg room, size, Int.toNat_natCast, memory]
    exact parsed
  · rw [cstrAt, drop]
    exact cstr_append_zero noZero tail
  · rw [drop, List.take_left]

/-- The parameters of a peer that takes long packets: `MAXL` is 94. -/
def longPackets : List UInt8 :=
  lit "~* @-#N1~"

/-- Without the capability field `spar()` may still take an extended length. -/
theorem sparCapas_short
    (cfg : Config)
    {fld : Nat → UInt8}
    {p : Params}
    (length : 60 ≤ p.sMaxlen)
    (extended : 60 ≤ (xunchar (fld 2)).toNat * 95 + (xunchar (fld 3)).toNat) :
    ∃ sMaxlen wslots retry,
      sparCapas cfg fld 9 p =
          { p with sMaxlen := sMaxlen, wslots := wslots, retry := retry } ∧
        60 ≤ sMaxlen := by
  have field : capasField fld 9 = 0 :=
    if_neg (by decide)
  have noCapas : ¬ (9 : Int) ≥ 10 := by
    decide
  have longer : ∃ sMaxlen,
      (if p.capas &&& capLp ≠ 0 ∧ (9 : Int) > ((0 : Nat) : Int) + 1 then
        let x := (xunchar (fld 2)).toNat * 95 + (xunchar (fld 3)).toNat
        let sMaxlen := if x > pPktlen then pPktlen else x
        { p with sMaxlen := if sMaxlen < 10 then 60 else sMaxlen }
      else p) = { p with sMaxlen := sMaxlen } ∧ 60 ≤ sMaxlen := by
    split
    · refine ⟨_, rfl, ?_⟩
      dsimp only [pPktlen]
      repeat' split
      all_goals omega
    · exact ⟨_, rfl, length⟩
  obtain ⟨sMaxlen, same, long⟩ := longer
  dsimp only at same
  have result : sparCapas cfg fld 9 p =
      (let p := { p with sMaxlen := sMaxlen }
      if p.capas &&& capSw ≠ 0 then
        let x := (xunchar (fld 1)).toNat
        let wslots := if x > cfg.wslotsMax then cfg.wslotsMax else x
        let wslots := if wslots < 1 then 1 else wslots
        { p with
          wslots := wslots
          retry :=
            if wslots > 1 ∧ wslots > p.retry then (wslots : Int) + 1
            else p.retry }
      else { p with wslots := 1 }) := by
    unfold sparCapas
    simp only [field, if_neg noCapas, Nat.zero_add]
    rw [same]
    rfl
  rw [result]
  dsimp only
  split
  · exact ⟨_, _, _, rfl, long⟩
  · exact ⟨_, _, _, rfl, long⟩

/-- They leave room for the runs, unless 8th-bit prefixes are in use. -/
theorem longPackets_room
    {cfg : Config}
    {q : Params}
    {fld : Nat → UInt8}
    (noForce : cfg.bcta3 = 0)
    (noEbq : q.ebqflg = 0)
    (fields : ∀ i < 9, fld (i + 1) = peek longPackets i) :
    RoomForRuns (sparParams cfg fld 9 q) ∧
      (sparParams cfg fld 9 q).rptq = ch '~' := by
  have maxl : (xunchar (fld 1)).toNat = 94 := by
    rw [fields 0 (by decide)]
    decide
  have qbin : fld 7 = ch 'N' := fields 6 (by decide)
  have chkt : fld 8 = ch '1' := fields 7 (by decide)
  have rept : fld 9 = ch '~' := fields 8 (by decide)
  have basic : (sparBasic fld 9 q).sMaxlen = 94 ∧
      (sparBasic fld 9 q).ebqflg = 0 := by
    simp [sparBasic, maxl, noEbq]
  obtain ⟨length, still⟩ := basic
  unfold sparParams
  generalize sparBasic fld 9 q = p at *
  have prefixed : sparEbq fld 9 p = { p with ebq := ch 'N' } := by
    unfold sparEbq
    rw [if_pos (by decide), qbin]
    dsimp only
    rw [if_neg (by decide), if_neg (fun both => absurd both.1 (by decide))]
  have checked : sparChecks cfg fld 9 { p with ebq := ch 'N' } =
      { p with ebq := ch 'N', bct := 1, rptq := ch '~', rptflg := 1 } := by
    have counts : isPrefixChar (ch '~') = true ∨ ch '~' = prefixRepeat :=
      .inl (by decide)
    unfold sparChecks
    simp only [chkt, rept, if_pos (show (9 : Int) ≥ 8 by decide),
      if_pos (And.intro (show (9 : Int) ≥ 9 by decide) counts),
      if_neg (not_not.mpr noForce)]
    rfl
  have extended :
      60 ≤ (xunchar (fld 2)).toNat * 95 + (xunchar (fld 3)).toNat := by
    rw [fields 1 (by decide), fields 2 (by decide)]
    decide
  obtain ⟨sMaxlen, wslots, retry, negotiated, long⟩ :=
    @sparCapas_short cfg fld
      { p with ebq := ch 'N', bct := 1, rptq := ch '~', rptflg := 1 }
      (by dsimp only; omega) extended
  rw [prefixed, checked, negotiated]
  refine ⟨⟨still, ?_⟩, rfl⟩
  unfold longestRun getpktMaxlen
  dsimp only
  rw [if_pos (by decide)]
  omega

/-! ## Reads that fail -/

/--
A file whose reads fail at a position: `fread` delivers what is in front of
it and nothing else, although the file goes on.
-/
structure FailsAt
    (os : Os σ)
    (file : List UInt8)
    (pos : Nat)
    (offset : σ → Nat) : Prop where
  inside : pos < file.length
  reads : ∀ w count,
    (os.fread w count).1 = ((file.take pos).drop (offset w)).take count
  moves : ∀ w count,
    offset (os.fread w count).2 = offset w + (os.fread w count).1.length
  sends : ∀ w bytes,
    (os.send w bytes).1 = 0 ∧ offset (os.send w bytes).2 = offset w

/-- The read that meets the position delivers less than there is. -/
theorem FailsAt.short
    {os : Os σ}
    {file : List UInt8}
    {pos : Nat}
    {offset : σ → Nat}
    (failing : FailsAt os file pos offset)
    {w : σ}
    {count : Nat}
    (before : offset w ≤ pos)
    (meets : pos < offset w + count) :
    (os.fread w count).1.length < min count (file.length - offset w) := by
  have inside := failing.inside
  rw [failing.reads, List.length_take, List.length_drop, List.length_take]
  omega

theorem FailsAt.server
    {os : Os σ}
    {file : List UInt8}
    {pos : Nat}
    {offset : σ → Nat}
    (failing : FailsAt os file pos offset) :
    FileServer os (fun w => (file.take pos).drop (offset w)) where
  reads w count := by
    refine ⟨failing.reads w count, ?_⟩
    show (file.take pos).drop (offset (os.fread w count).2) =
      ((file.take pos).drop (offset w)).drop count
    rw [failing.moves, failing.reads, ← List.drop_drop]
    generalize (file.take pos).drop (offset w) = bytes
    rw [List.length_take]
    rcases Nat.le_total count bytes.length with less | more
    · rw [Nat.min_eq_left less]
    · rw [Nat.min_eq_right more, List.drop_length,
        List.drop_eq_nil_of_le more]
  sends w bytes := by
    refine ⟨(failing.sends w bytes).1, ?_⟩
    rw [(failing.sends w bytes).2]

theorem AckRun.mainLoop
    {io : Io ω}
    {v v' : MainVars ω}
    (run : AckRun io v v') :
    ∃ rxs, Kermit.mainLoop io rxs v = v' := by
  induction run with
  | refl =>
      exact ⟨[], rfl⟩
  | @snoc v' rx earlier going acked inductionHypothesis =>
      obtain ⟨rxs, ended⟩ := inductionHypothesis
      refine ⟨rxs ++ [rx], ?_⟩
      rw [← ended]
      exact List.foldl_append

/-- A GET in which a read failed is reported as a success. -/
structure HidesError
    (file : List UInt8)
    (v v' : MainVars (Unix σ)) : Prop where
  success : v'.ret = some kSuccess
  failed : .readf none ∉ v.sys.log → .readf none ∈ v'.sys.log
  closed : [ch 'Z', ch 'B'] <:+ typesBetween v.sys v'.sys
  part :
    (sentFields v'.sys.k.par.bct v.sys v'.sys).flatMap
        (decodeMem (peerParams v.sys.k.cfg v'.sys.k.par)) <+: file
  proper :
    (sentFields v'.sys.k.par.bct v.sys v'.sys).flatMap
        (decodeMem (peerParams v.sys.k.cfg v'.sys.k.par)) ≠ file

/-- No GET of the file is reported as a success after a failed read. -/
def ReportsErrors
    (os : Os σ)
    (file : List UInt8)
    (v : MainVars (Unix σ)) : Prop :=
  ∀ rxs, ¬ HidesError file v (mainLoop (unixio os) rxs v)

/-- F is sent in between, and has no data field of a D packet. -/
theorem Announced.between
    {os : Os σ}
    {q : Params}
    {w : σ}
    {s s' s'' : Sys (Unix σ)}
    (announced : Announced os q w s s')
    (later : ∃ more, s''.log = more ++ s'.log)
    (bct : Nat) :
    sentFields bct s s'' = sentFields bct s' s'' ∧
      typesBetween s s'' = ch 'F' :: typesBetween s' s'' := by
  obtain ⟨more, log⟩ := later
  obtain ⟨opening, frame, logThen, sent, kind⟩ := announced.log
  have after : newTxds s'.log s''.log = (txds more).reverse := by
    rw [log, newTxds_append]
  have both : newTxds s.log s''.log = frame :: (txds more).reverse := by
    rw [log, logThen, ← List.append_assoc, newTxds_append, txds_append, sent]
    simp
  unfold sentFields typesBetween
  rw [both, after]
  refine ⟨?_, ?_⟩
  · unfold dataFields
    rw [List.filter_cons_of_neg]
    rw [kind]
    decide
  · rw [List.map_cons, kind]

/--
The peer acknowledges every packet of a GET whose read fails; the parameters
it asks for do not matter as long as the fields have room.
-/
theorem hidesError_of_ack
    {os : Os σ}
    {file : List UInt8}
    {pos : Nat}
    {offset : σ → Nat}
    (failing : FailsAt os file pos offset)
    {k : KData}
    (requested : Requested k)
    {rx : Rx}
    {p : Rcvd}
    {buf : List UInt8}
    (ack : ValidAck k.sSeq (heardData rx k) rx.ret p buf)
    (distinct : DistinctPrefixes k.cfg (negotiated k p buf))
    (room : RoomForRuns (negotiated k p buf))
    {v : MainVars (Unix σ)}
    {w : σ}
    (start : GetStart os k v w)
    (first : offset w = 0) :
    ∃ rxs, HidesError file v (mainLoop (unixio os) (rx :: rxs) v) := by
  have server := failing.server
  have negotiable : Negotiable (negotiated k p buf) :=
    sparParams_negotiable requested.negotiable _ _
  have same := start.data
  subst same
  obtain ⟨going, announced, -⟩ :=
    mainIter_announced server.served.linked requested ack start
  have yields := announced.decoded server negotiable
    requested.awaiting.wf.noForce requested.ctlq distinct room
  obtain ⟨always, v', run, done⟩ :=
    announced.asked server negotiable requested.keeps going yields
  obtain ⟨asked, types, par, log, seen⟩ := always v' run done
  obtain ⟨fields, kinds⟩ := announced.between log v'.sys.k.par.bct
  obtain ⟨rxs, session⟩ := run.mainLoop
  refine ⟨rxs, ?_⟩
  have whole : mainLoop (unixio os) (rx :: rxs) v = v' := session
  rw [whole]
  have decoded :
      (sentFields v'.sys.k.par.bct v.sys v'.sys).flatMap
          (decodeMem (peerParams v.sys.k.cfg v'.sys.k.par)) =
        file.take pos := by
    rw [fields, par]
    rw [announced.par] at asked ⊢
    exact asked.trans (by rw [first, List.drop_zero])
  refine ⟨done, fun _ => seen trivial, ?_, ?_, ?_⟩
  · rw [kinds, types]
    unfold toCome
    rw [announced.state]
    exact List.suffix_cons_iff.mpr (.inr (List.suffix_append _ _))
  · rw [decoded]
    exact List.take_prefix pos file
  · rw [decoded]
    intro all
    have length := congrArg List.length all
    have inside := failing.inside
    rw [List.length_take] at length
    omega

/-- One file under every name, whose reads fail at a position. -/
def failingOs
    (file : List UInt8)
    (pos : Nat) : Os Nat where
  send offset _ := (0, offset)
  stat offset _ := (true, offset)
  fopen _ _ := (true, 0)
  fread offset count :=
    let bytes := ((file.take pos).drop offset).take count
    (bytes, offset + bytes.length)
  getc offset := ((file.take pos)[offset]?, offset + 1)
  fclose offset := (0, offset)
  write offset bytes := (bytes.length, offset)
  close offset := (0, offset)
  unlink offset _ := offset
  readdir offset _ := (some [], offset)

theorem failsAt_failingOs
    {file : List UInt8}
    {pos : Nat}
    (inside : pos < file.length) :
    FailsAt (failingOs file pos) file pos id where
  inside := inside
  reads _ _ := rfl
  moves _ _ := rfl
  sends _ _ := ⟨rfl, rfl⟩

/-- A server has accepted an R packet for `abc`, whose reads fail behind `a`. -/
def requestedPart : MainVars (Unix Nat) :=
  mainIter (unixio (failingOs (lit "abc") 1)) (packetOf (ch 'R') 0 (lit "f"))
    (mainStart (unixio (failingOs (lit "abc") 1)) .wait []
      (ekInit (unixio (failingOs (lit "abc") 1)) []
        { os := 0, ofile := -1, ifile := false, calls := [] }))

/-- In a session without 8th-bit prefixes no GET reports a failed read. -/
theorem not_reportsErrors
    {os : Os σ}
    {file : List UInt8}
    {pos : Nat}
    {offset : σ → Nat}
    (failing : FailsAt os file pos offset)
    {k : KData}
    (requested : Requested k)
    (noEbq : k.par.ebqflg = 0)
    {v : MainVars (Unix σ)}
    {w : σ}
    (start : GetStart os k v w)
    (first : offset w = 0) :
    ¬ ReportsErrors os file v := by
  intro reports
  have outstanding := requested.awaiting.outstanding
  have noForce := requested.awaiting.wf.noForce
  obtain ⟨p, buf, good, readAs⟩ :=
    @parse_initialAck
      (heardData (packetOf (ch 'Y') k.sSeq longPackets) k) k.sSeq
      (packetOf (ch 'Y') k.sSeq longPackets).ret longPackets _ noForce
      outstanding.lower requested.awaiting.upper requested.state
      requested.what (by decide) (by decide)
      ((poke_zero _ _).trans (List.append_assoc _ _ _))
  have fields : ∀ i < 9, peek buf (p.pdf + (i + 1) - 1) =
      peek longPackets i := by
    intro i less
    have place : p.pdf + (i + 1) - 1 = p.pdf + i := by omega
    rw [place, ← peek_drop, ← peek_take (buf.drop p.pdf) less]
    exact congrArg (peek · i) readAs.memory
  have nine : p.datalen = 9 := readAs.datalen
  obtain ⟨room, repeats⟩ := @longPackets_room k.cfg k.par
    (fun field => peek buf (p.pdf + field - 1)) noForce noEbq fields
  rw [← nine] at room repeats
  have long : (4 : Int) ≤ (packetOf (ch 'Y') k.sSeq longPackets).ret := by
    show (4 : Int) ≤ (pktBody 1 (ch 'Y') k.sSeq longPackets).length
    unfold pktBody
    rw [List.length_append, List.length_append,
      show longPackets.length = 9 from rfl]
    omega
  have distinct : DistinctPrefixes k.cfg (negotiated k p buf) := by
    refine ⟨fun _ same => ?_, fun flag => absurd room.1 flag,
      fun flag => absurd room.1 flag⟩
    rw [requested.ctlq] at same
    exact absurd (repeats.symm.trans same) (by decide)
  obtain ⟨rxs, hides⟩ := hidesError_of_ack failing requested
    ⟨long, good, readAs.rtyp, readAs.rseq⟩ distinct room start first
  exact reports _ hides

theorem not_reportsErrors_part :
    ¬ ReportsErrors (failingOs (lit "abc") 1) (lit "abc") requestedPart := by
  have request : ValidRequest
      (heardData (packetOf (ch 'R') 0 (lit "f"))
        (reinitData (kermitInit (clearedData []))))
      (packetOf (ch 'R') 0 (lit "f")).ret oneFileRcvd
      (poke (poke [] 0 (packetOf (ch 'R') 0 (lit "f")).stored) 4 [0]) :=
    ⟨by decide, by decide, rfl⟩
  have requested : Requested requestedPart.sys.k :=
    mainIter_requested _ (settled_kermitInit []) rfl rfl request
      (by decide +kernel)
  have start : GetStart (failingOs (lit "abc") 1) requestedPart.sys.k
      requestedPart 0 :=
    ⟨rfl, by decide +kernel, rfl⟩
  exact not_reportsErrors (failsAt_failingOs (by decide)) requested
    (by decide +kernel) start rfl

/-- The peer sends an ACK for each of S, F, A, D, Z and B. -/
theorem hidesError_part :
    let v' :=
      mainLoop (unixio (failingOs (lit "abc") 1))
        [packetOf (ch 'Y') 0 (lit "~"), packetOf (ch 'Y') 1 [],
          packetOf (ch 'Y') 2 [], packetOf (ch 'Y') 3 [],
          packetOf (ch 'Y') 4 [], packetOf (ch 'Y') 5 []]
        requestedPart
    HidesError (lit "abc") requestedPart v' ∧
      ¬ ReportsErrors (failingOs (lit "abc") 1) (lit "abc") requestedPart := by
  intro v'
  have hides : HidesError (lit "abc") requestedPart v' :=
    ⟨by decide +kernel, fun _ => by decide +kernel, by decide +kernel,
      by decide +kernel, by decide +kernel⟩
  exact ⟨hides, fun reports => reports _ hides⟩

end Slate106.Kermit
