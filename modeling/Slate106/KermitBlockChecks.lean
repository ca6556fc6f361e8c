import Slate106.KermitFrame

namespace Slate106.Kermit

open CBytes

/-!
# Block checks of the two sides

What the receiver makes of the block check of a frame.  A type 2 check holds
twelve bits of a sum that the receiver does not reduce, and an error packet
has a type 1 check whatever type was negotiated.
-/

variable {ω ω' : Type}

/-- Whenever the frame arrives at `r`, it is read and its check is good. -/
def PassesCheck
    (frame : List UInt8)
    (r : Sys ω) : Prop :=
  ∀ polls tail, Arrives r.k.par frame polls →
    ∃ rx p buf,
      kreadpkt r.k.par (polls ++ tail) = some (rx, tail) ∧
        parse (receive rx r).k rx.ret = .good p buf

/-- What a type 2 check is computed from. -/
def checkedText
    (bct : Nat)
    (typ : UInt8)
    (seq : Int)
    (data : List UInt8) : List UInt8 :=
  pktHeader bct typ seq data.length ++ data

/-- `r` reads a packet of the given type with a block check of type 2. -/
structure ChecksTwo
    (typ : UInt8)
    (r : Sys ω) : Prop where
  kind : inForce r.k = 2
  notError : typ ≠ ch 'E'
  notInitial : isInitial r.k typ = false
  noEcho : ¬ (r.k.what = .recv ∧ (typ = ch 'N' ∨ typ = ch 'Y'))
  start : r.k.par.rSoh = packetStart
  terminator : r.k.par.rEom = packetEnd

/-- A packet of one frame, between a start and a terminator. -/
structure Framed
    (typ : UInt8)
    (seq : Int)
    (data : List UInt8) : Prop where
  lower : 0 ≤ seq
  upper : seq ≤ 63
  noZero : (0 : UInt8) ∉ typ :: data
  noStart : packetStart ∉ typ :: data
  noEnd : packetEnd ∉ typ :: data

/-! ## A check that is not that of its string -/

/-- A wrong block check is reported, but for an error packet. -/
theorem parseCheck_rejected
    {bct datalen : Nat}
    {p : Rcvd}
    {checked check rest : List UInt8}
    (positive : 0 < bct)
    (length : check.length = bct)
    (rejected : blockOk bct check checked = false)
    (notError : p.rtyp ≠ ch 'E')
    (noZero : (0 : UInt8) ∉ checked)
    (place : p.pdf + datalen = checked.length) :
    ∃ buf,
      parseCheck bct datalen p (checked ++ check ++ rest) =
        .badCheck buf := by
  obtain ⟨first, more, split⟩ :
      ∃ first more, check = first :: more :=
    List.exists_cons_of_length_pos (by rw [length]; exact positive)
  have stored :
      poke (checked ++ check ++ rest) (p.pdf + datalen) [0] =
        checked ++ 0 :: (more ++ rest) := by
    rw [place, split]
    simpa using poke_append checked [first] (more ++ rest) [0] rfl
  have characters :
      ((checked ++ check ++ rest).drop (p.pdf + datalen)).takeD bct 0 =
        check := by
    rw [place, List.append_assoc, List.drop_left]
    exact List.takeD_left' length
  refine ⟨checked ++ 0 :: (more ++ rest), ?_⟩
  simp only [parseCheck, stored, characters, cstr_append_zero noZero,
    rejected, Bool.false_eq_true, if_false]
  rw [if_neg (fun both => notError both.2)]

/-! ## Type 2 -/

theorem Framed.checked_noZero
    {typ : UInt8}
    {seq : Int}
    {data : List UInt8}
    (framed : Framed typ seq data)
    {bct : Nat}
    (inField : data.length + bct < 95 * 95) :
    (0 : UInt8) ∉ checkedText bct typ seq data := by
  have noZero := framed.noZero
  simp only [List.mem_cons, not_or] at noZero
  simp only [checkedText, List.mem_append, not_or]
  refine ⟨fun member => ?_, noZero.2⟩
  rcases printable_pktHeader_or framed.lower framed.upper inField 0 member
    with same | shown
  · exact noZero.1 same
  · exact shown.ne_of_lt (by decide) rfl

/-- The parser tests the two characters against the sum of the string. -/
theorem parse_typeTwo
    {typ : UInt8}
    {seq len : Int}
    {data rest : List UInt8}
    {r : Sys ω}
    (checks : ChecksTwo typ r)
    (framed : Framed typ seq data)
    (fits : data.length + 3 < pBuflen)
    (long : len ≠ 4)
    (buffer : r.k.ipktbuf = pktBody 2 typ seq data ++ rest) :
    (∃ p buf, parse r.k len = .good p buf) ↔
      chk2 (checkedText 2 typ seq data) < 4096 := by
  have inField : data.length + 2 < 95 * 95 := by
    simp only [pBuflen, pPktlen] at fits
    omega
  have noZero := framed.checked_noZero inField
  have typed : typ ≠ 0 := by
    have noZero := framed.noZero
    simp only [List.mem_cons, not_or] at noZero
    exact Ne.symm noZero.1
  have early := checks.notInitial
  simp only [isInitial, Bool.or_eq_false_iff, decide_eq_false_iff_not]
    at early
  have header :
      r.k.ipktbuf =
        pktHeader (inForce r.k) typ seq data.length ++
          (data ++ blockCheck 2 (checkedText 2 typ seq data) ++ rest) := by
    rw [buffer, checks.kind, pktBody, ← checkedText,
      cstr_of_notMem noZero, checkedText]
    simp
  obtain ⟨rlen, p, parsed, rtyp, -, datalen, place⟩ :=
    @parse_pktHeader r.k typ seq len data.length _
      (fun _ => long) checks.noEcho framed.lower framed.upper
      (by rw [checks.kind]; exact inField) typed header
  have lengths :
      parseLengths r.k rlen p r.k.ipktbuf =
        parseCheck 2 data.length p
          (checkedText 2 typ seq data ++
            blockCheck 2 (checkedText 2 typ seq data) ++ rest) := by
    rw [parseLengths_ordinary early.2 (by rw [rtyp]; exact early.1) datalen
        (by rw [checks.kind]; omega), buffer, checks.kind, pktBody,
      ← checkedText, cstr_of_notMem noZero]
  have dataPlace :
      p.pdf + data.length = (checkedText 2 typ seq data).length := by
    rw [place, checks.kind, checkedText, List.length_append]
  rw [parsed, lengths]
  constructor
  · rintro ⟨p', buf, good⟩
    by_contra large
    have rejected :
        blockOk 2 (blockCheck 2 (checkedText 2 typ seq data))
            (checkedText 2 typ seq data) =
          false := by
      rw [Bool.eq_false_iff]
      intro accepted
      exact large ((blockOk_two_iff _).mp accepted)
    obtain ⟨buf', bad⟩ :=
      @parseCheck_rejected 2 data.length p (checkedText 2 typ seq data)
        (blockCheck 2 (checkedText 2 typ seq data)) rest (by decide) rfl
        rejected (by rw [rtyp]; exact checks.notError) noZero dataPlace
    rw [bad] at good
    cases good
  · intro small
    obtain ⟨tail, good⟩ :=
      @parseCheck_blockCheck 2 data.length p (checkedText 2 typ seq data)
        rest (by decide) rfl (blockOk_blockCheck_two small) noZero dataPlace
    exact ⟨p, _, good⟩

/-- The frame of a packet with a type 2 check is read whole. -/
theorem kreadpkt_typeTwo
    {typ : UInt8}
    {seq : Int}
    {data : List UInt8}
    {k : KData}
    {r : Sys ω}
    (checks : ChecksTwo typ r)
    (framed : Framed typ seq data)
    (seen : Unmistakable r.k.par (typ :: data))
    (kind : inForce k = 2)
    (startSent : (forceBcta3 k).par.sSoh = packetStart)
    (endSent : (forceBcta3 k).par.sEom = packetEnd)
    (inField : data.length + 2 < 95 * 95)
    (room : (pktBody 2 typ seq data).length ≤ r.k.par.rMaxlen)
    {polls : List Poll}
    (arrives : Arrives r.k.par (sentFrame typ seq data k) polls)
    (tail : List Poll) :
    kreadpkt r.k.par (polls ++ tail) =
      some (bodyRx typ seq data k, tail) := by
  have frame :
      sentFrame typ seq data k =
        packetStart :: (pktBody 2 typ seq data ++ [packetEnd]) := by
    rw [sentFrame, pktFrame, startSent, endSent, forceBcta3_bct, kind]
  have body : bodyRx typ seq data k =
      { ret := (pktBody 2 typ seq data).length,
        stored := pktBody 2 typ seq data ++ [0] } := by
    rw [bodyRx, kind]
  rw [frame] at arrives
  rw [body]
  exact kreadpkt_frame checks.start checks.terminator arrives room
    (plain_pktBody_of framed.lower framed.upper inField framed.noStart
      framed.noEnd seen) tail

/--
Type 2 block checks agree exactly when the sum of the bytes of header and data
fits the twelve bits of the two characters.
-/
theorem type_two_checks_agree_iff
    (io : Io ω)
    (s : Sys ω)
    (r : Sys ω')
    (typ : UInt8)
    (seq len : Int)
    (text : Option (List UInt8))
    (framed : Framed typ seq (spktData len text))
    (kind : inForce s.k = 2)
    (checks : ChecksTwo typ r)
    (free : 0 ≤ (getSslot s.k).1)
    (fits :
      (sentFrame typ seq (spktData len text) s.k).length < spktBuflen typ)
    (room :
      (pktBody 2 typ seq (spktData len text)).length ≤ r.k.par.rMaxlen)
    (startSent : s.k.par.sSoh = packetStart)
    (endSent : s.k.par.sEom = packetEnd)
    (seen : Unmistakable r.k.par (typ :: spktData len text)) :
    ∃ frame rc,
      (spkt io typ seq len text s).2.log = .txd frame rc :: s.log ∧
      (PassesCheck frame r ↔
        chk2 (checkedText 2 typ seq (spktData len text)) < 4096) := by
  generalize shape : spktData len text = data at framed fits room seen ⊢
  have buflen : spktBuflen typ ≤ pBuflen := by
    unfold spktBuflen
    split <;> decide
  have length :
      (sentFrame typ seq data s.k).length =
        (pktBody 2 typ seq data).length + 2 := by
    simp [sentFrame, pktFrame, forceBcta3_bct, kind]
  have bodyLength :
      data.length + 5 ≤ (pktBody 2 typ seq data).length := by
    have whole := le_length_pktFrame (forceBcta3 s.k).par typ seq data
    have header : 3 ≤ (pktHeader 2 typ seq data.length).length := by
      unfold pktHeader
      dsimp only
      split <;> simp
    simp only [pktBody, List.length_append, blockCheck, List.length_cons,
      List.length_nil]
    omega
  have dataFits : data.length + 3 < pBuflen := by
    omega
  have inField : data.length + 2 < 95 * 95 := by
    simp only [pBuflen, pPktlen] at dataFits
    omega
  have startForced : (forceBcta3 s.k).par.sSoh = packetStart := by
    rw [forceBcta3_eq]
    exact startSent
  have endForced : (forceBcta3 s.k).par.sEom = packetEnd := by
    rw [forceBcta3_eq]
    exact endSent
  have read := fun polls tail arrives =>
    @kreadpkt_typeTwo ω' typ seq data s.k r checks framed seen kind
      startForced endForced inField room polls arrives tail
  have buffer :
      (receive (bodyRx typ seq data s.k) r).k.ipktbuf =
        pktBody 2 typ seq data ++
          0 :: r.k.ipktbuf.drop (bodyRx typ seq data s.k).stored.length := by
    simp [receive, bodyRx, kind]
  have stillChecks : ChecksTwo typ (receive (bodyRx typ seq data s.k) r) :=
    ⟨checks.kind, checks.notError, checks.notInitial, checks.noEcho,
      checks.start, checks.terminator⟩
  have notFour : (bodyRx typ seq data s.k).ret ≠ 4 := by
    simp only [bodyRx, kind]
    omega
  have decided :=
    parse_typeTwo stillChecks framed dataFits notFour buffer
  have passes :
      PassesCheck (sentFrame typ seq data s.k) r ↔
        chk2 (checkedText 2 typ seq data) < 4096 := by
    rw [← decided]
    constructor
    · intro passed
      have arrival := arrives_bytes r.k.par (sentFrame typ seq data s.k)
      obtain ⟨rx, p, buf, got, good⟩ := passed _ [] arrival
      rw [read _ [] arrival] at got
      obtain ⟨rfl, -⟩ := Prod.mk.inj (Option.some.inj got)
      exact ⟨p, buf, good⟩
    · rintro ⟨p, buf, good⟩ polls tail arrives
      exact ⟨_, p, buf, read polls tail arrives, good⟩
  refine ⟨sentFrame typ seq data s.k, ?_⟩
  by_cases kept : isUnslotted typ = true
  · have small : (sentFrame typ seq data s.k).length < 100 := by
      simpa [spktBuflen, kept] using fits
    rw [← shape] at small passes ⊢
    rw [spkt_unslotted io kept framed.lower framed.upper small]
    exact ⟨_, rfl, passes⟩
  · simp only [Bool.not_eq_true] at kept
    have small : (sentFrame typ seq data s.k).length < pBuflen := by
      simpa [spktBuflen, kept] using fits
    rw [← shape] at small passes ⊢
    rw [spkt_slotted io kept framed.lower framed.upper free small]
    exact ⟨_, rfl, passes⟩

/-- A sender or receiver that has negotiated a type 2 check. -/
def typeTwoSys : Sys (Unix Unit) :=
  { freshSys 0 with k.par.bct := 2 }

theorem checksTwo_typeTwoSys :
    ChecksTwo (ch 'D') typeTwoSys :=
  ⟨by decide, by decide, by decide, by decide, rfl, rfl⟩

theorem type_two_checks_agree_iff_abc :
    ∃ frame rc,
      (spkt (unixio idleOs) (ch 'D') 5 3 (some (lit "abc"))
          typeTwoSys).2.log =
        .txd frame rc :: typeTwoSys.log ∧
      (PassesCheck frame typeTwoSys ↔
        chk2 (checkedText 2 (ch 'D') 5 (spktData 3 (some (lit "abc")))) <
          4096) :=
  type_two_checks_agree_iff (unixio idleOs) typeTwoSys typeTwoSys (ch 'D') 5
    3 (some (lit "abc"))
    ⟨by decide, by decide, by decide, by decide, by decide⟩ (by decide)
    checksTwo_typeTwoSys (by decide) (by decide) (by decide) rfl rfl
    (Or.inl rfl)

/-- Forty bytes `z` sum up to more than twelve bits hold. -/
theorem type_two_checks_disagree :
    Framed (ch 'D') 0 (List.replicate 40 (ch 'z')) ∧
      inForce typeTwoSys.k = 2 ∧
      ChecksTwo (ch 'D') typeTwoSys ∧
      0 ≤ (getSslot typeTwoSys.k).1 ∧
      (sentFrame (ch 'D') 0 (List.replicate 40 (ch 'z'))
          typeTwoSys.k).length <
        spktBuflen (ch 'D') ∧
      (pktBody 2 (ch 'D') 0 (List.replicate 40 (ch 'z'))).length ≤
        typeTwoSys.k.par.rMaxlen ∧
      (spkt (unixio idleOs) (ch 'D') 0 40
          (some (List.replicate 40 (ch 'z'))) typeTwoSys).2.log =
        [.txd
          (sentFrame (ch 'D') 0 (List.replicate 40 (ch 'z')) typeTwoSys.k)
          0] ∧
      ¬ PassesCheck
          (sentFrame (ch 'D') 0 (List.replicate 40 (ch 'z')) typeTwoSys.k)
          typeTwoSys := by
  refine ⟨⟨by decide, by decide, by decide, by decide, by decide⟩,
    by decide, checksTwo_typeTwoSys, by decide, by decide, by decide,
    by decide, ?_⟩
  intro passes
  let frame :=
    sentFrame (ch 'D') 0 (List.replicate 40 (ch 'z')) typeTwoSys.k
  let body := pktBody 2 (ch 'D') 0 (List.replicate 40 (ch 'z'))
  obtain ⟨rx, p, buf, got, good⟩ :=
    passes (frame.map .byte) [] (arrives_bytes _ frame)
  have read :
      kreadpkt typeTwoSys.k.par (frame.map .byte ++ []) =
        some ({ ret := 45, stored := body ++ [0] }, []) := by
    decide
  rw [read] at got
  obtain ⟨rfl, -⟩ := Prod.mk.inj (Option.some.inj got)
  have failed :
      parse (receive { ret := 45, stored := body ++ [0] } typeTwoSys).k 45 =
        .badCheck (body.set 43 0 ++ [0]) := by
    decide
  rw [failed] at good
  cases good

/-! ## Error packets -/

/-- What the parser reads of a session. -/
def parserView
    (s : Sys ω) : State × What × Config × Nat × List UInt8 × Bool :=
  (s.k.state, s.k.what, s.k.cfg, inForce s.k, s.k.ipktbuf, s.k.doRxd)

section View

variable {io : Io ω}

private theorem parserView_epktWith
    {confused : Sys ω → Sys ω}
    (quiet : ∀ s, parserView (confused s) = parserView s)
    (msg : List UInt8)
    (s : Sys ω) :
    parserView (epktWith io confused msg s) = parserView s := by
  have forced (k : KData) : inForce (forceBcta3 k) = inForce k := by
    simp only [forceBcta3_eq, inForce]
    split <;> rfl
  have later (bct : Nat) (s : Sys ω) :
      parserView (setBct bct s) =
        ((parserView s).1, (parserView s).2.1, (parserView s).2.2.1,
          (if s.k.cfg.bcta3 ≠ 0 then 3 else bct),
          (parserView s).2.2.2.2) :=
    rfl
  have sent (t : Sys ω) :
      (parserView (spktWith io confused (ch 'E') 0 (-1) (some msg) t).2) =
        parserView t := by
    unfold spktWith
    rw [if_neg (by decide)]
    dsimp only
    rw [if_pos (by decide)]
    unfold spktBuild
    dsimp only
    split
    · rw [quiet]
      simp only [parserView, forced]
      simp only [forceBcta3_eq]
    · split
      · simp only [parserView, forced]
        simp only [forceBcta3_eq]
      · simp only [parserView, callTxd]
        simp only [forceBcta3_eq, inForce]
        split <;> rfl
  have same (t : Sys ω) :
      (spktWith io confused (ch 'E') 0 (-1) (some msg) t).2.k.cfg =
        t.k.cfg :=
    congrArg (fun view => view.2.2.1) (sent t)
  unfold epktWith
  rw [later, sent, same, later]
  simp only [parserView, setBct, inForce]
  split <;> simp [*]

/-- An error packet leaves what the parser reads. -/
theorem parserView_epkt
    (msg : List UInt8)
    (s : Sys ω) :
    parserView (epkt io msg s) = parserView s :=
  parserView_epktWith
    (fun s => parserView_epktWith (fun _ => rfl) _ s) msg s

theorem parserView_testRslots
    (s : Sys ω) :
    parserView (testRslots io s) = parserView s := by
  unfold testRslots
  dsimp only
  split
  · exact parserView_epkt _ s
  · rfl

end View

/-- An error packet whose length takes one byte to say. -/
def errorBody
    (data : List UInt8) : List UInt8 :=
  pktBody 1 (ch 'E') 0 data

/-- The checked text of an error packet, with its check character. -/
theorem errorBody_short
    {data : List UInt8}
    (short : data.length ≤ 91)
    (noZero : (0 : UInt8) ∉ data) :
    ∃ checked sum,
      errorBody data = checked ++ [sum] ∧
      (xunchar sum).toNat = chk1 checked ∧
      (0 : UInt8) ∉ checked ∧
      checked =
        tochar (UInt8.ofNat (data.length + 3)) :: tochar 0 :: ch 'E' ::
          data := by
  let checked :=
    tochar (UInt8.ofNat (data.length + 3)) :: tochar 0 :: ch 'E' :: data
  have header :
      pktHeader 1 (ch 'E') 0 data.length =
        [tochar (UInt8.ofNat (data.length + 3)), tochar 0, ch 'E'] := by
    have notLong : ¬ (data.length + 1 + 2 > 94) := by
      omega
    simp only [pktHeader, if_neg notLong]
    rfl
  have length : tochar (UInt8.ofNat (data.length + 3)) ≠ 0 :=
    (printable_tochar (by omega)).ne_of_lt (by decide)
  have checkedNoZero : (0 : UInt8) ∉ checked := by
    simp only [checked, List.mem_cons, not_or]
    exact ⟨length.symm, by decide, by decide, noZero⟩
  refine ⟨checked, tochar (UInt8.ofNat (chk1 checked)), ?_, ?_,
    checkedNoZero, rfl⟩
  · simp only [errorBody, pktBody, header, List.cons_append,
      List.nil_append]
    rw [cstr_of_notMem checkedNoZero]
    rfl
  · have bounded := chk1_lt checked
    simp
    omega

/--
The repair for E packets: the characters that were split off as a longer block
check go back to the data, up to the last one.
-/
theorem parseCheck_error
    {chklen datalen : Nat}
    {p : Rcvd}
    {first middle rest : List UInt8}
    {sum : UInt8}
    (typed : p.rtyp = ch 'E')
    (kinds : chklen = middle.length + 1)
    (most : chklen ≤ 3)
    (place : p.pdf + datalen = first.length)
    (value : (xunchar sum).toNat = chk1 (first ++ middle))
    (noZero : (0 : UInt8) ∉ first ++ middle) :
    ∃ buf,
      parseCheck chklen datalen p
          (first ++ (middle ++ [sum]) ++ rest) =
        .good p buf := by
  obtain ⟨lead, more, split⟩ :
      ∃ lead more, middle ++ [sum] = lead :: more :=
    List.exists_cons_of_length_pos (by simp)
  have lengths : (lead :: more).length = chklen := by
    rw [← split, kinds]
    simp
  have stored :
      poke (first ++ (middle ++ [sum]) ++ rest) (p.pdf + datalen) [0] =
        first ++ ((0 :: more) ++ rest) := by
    rw [place, split]
    simpa using poke_append first [lead] (more ++ rest) [0] rfl
  have characters :
      ((first ++ (middle ++ [sum]) ++ rest).drop
          (p.pdf + datalen)).takeD chklen 0 =
        middle ++ [sum] := by
    rw [place, List.append_assoc, List.drop_left]
    exact List.takeD_left' (by rw [split, lengths])
  have retry :
      errorRetryBuf p.pdf datalen chklen (middle ++ [sum])
          (first ++ ((0 :: more) ++ rest)) =
        first ++ middle ++ 0 :: rest := by
    have back : (middle ++ [sum]).take (chklen - 1) = middle := by
      rw [kinds, Nat.add_sub_cancel, List.take_left]
    rw [errorRetryBuf, back, place,
      poke_append first (0 :: more) rest (middle ++ [0])
        (by simp only [List.length_cons] at lengths ⊢; simp; omega)]
    simp
  have last : peek (middle ++ [sum]) (chklen - 1) = sum := by
    rw [kinds, Nat.add_sub_cancel]
    exact peek_append_cons middle sum []
  by_cases accepted :
      blockOk chklen (middle ++ [sum])
          (cstr (first ++ ((0 :: more) ++ rest))) =
        true
  · refine ⟨first ++ ((0 :: more) ++ rest), ?_⟩
    simp only [parseCheck, stored, characters]
    rw [if_pos accepted]
  · by_cases single : chklen = 1
    · exfalso
      have none : middle = [] := by
        rw [← List.length_eq_zero_iff]
        omega
      subst none
      have text : cstr (first ++ ((0 :: more) ++ rest)) = first :=
        cstr_append_zero (by simpa using noZero) _
      rw [text, single] at accepted
      apply accepted
      have none : first ++ [] = first := List.append_nil first
      rw [none] at value
      exact decide_eq_true value
    · have repaired : (chklen = 2 ∨ chklen = 3) ∧ p.rtyp = ch 'E' :=
        ⟨by omega, typed⟩
      refine ⟨first ++ middle ++ 0 :: rest, ?_⟩
      simp only [parseCheck, stored, characters]
      rw [if_neg accepted, if_pos repaired, last, retry,
        cstr_append_zero noZero, if_pos value]

theorem chkLength_bounds
    {k : KData}
    (least : 1 ≤ inForce k)
    (most : inForce k ≤ 3)
    (rtyp : UInt8) :
    1 ≤ chkLength k rtyp ∧ chkLength k rtyp ≤ 3 := by
  unfold inForce at least most
  unfold chkLength
  split
  · decide
  · split
    · decide
    · rw [if_neg ‹_›] at least most
      exact ⟨least, most⟩

/-- What the parser takes the header of an error packet for. -/
def errorRcvd
    (k : KData)
    (rlen : Nat) : Rcvd where
  rtyp := ch 'E'
  rseq := 0
  pdf := 3
  datalen := (rlen : Int) - inForce k - 2
  ackText := cancelText k

/-- An error packet goes to the test of its lengths in every state. -/
theorem parse_errorHeader
    {k : KData}
    {rlen : Nat}
    {rest : List UInt8}
    (positive : 0 < rlen)
    (small : rlen < 96)
    (buffer :
      k.ipktbuf =
        tochar (UInt8.ofNat rlen) :: tochar 0 :: ch 'E' :: rest)
    (len : Int) :
    parse k len =
      parseLengths k (UInt8.ofNat rlen) (errorRcvd k rlen) k.ipktbuf := by
  have fold :
      (if k.cfg.bcta3 ≠ 0 then (3 : Int) else k.par.bct) = inForce k := by
    unfold inForce
    split <;> rfl
  have value : (UInt8.ofNat rlen).toNat = rlen := by
    simp
    omega
  have nonzero : UInt8.ofNat rlen ≠ 0 := by
    intro zero
    rw [zero] at value
    exact absurd value.symm (Nat.ne_of_gt positive)
  have notNak : ¬ (ch 'E' = ch 'N') := by
    decide
  have notEcho :
      ¬ (k.what = .recv ∧ (ch 'E' = ch 'N' ∨ ch 'E' = ch 'Y')) := by
    rintro ⟨-, nak | ack⟩
    · exact absurd nak (by decide)
    · exact absurd ack (by decide)
  unfold parse
  simp only [buffer, peek_cons_zero, peek_cons_succ, xunchar_tochar, fold]
  rw [if_neg (fun shortcut => notNak shortcut.2.2.2.1),
    if_neg (by decide), if_neg notEcho, if_neg nonzero, value]
  rfl

/-- The data length is what the expected block check leaves. -/
theorem dataLength_error
    {k : KData}
    {rlen : Nat}
    (small : rlen < 96) :
    dataLength k (UInt8.ofNat rlen) (errorRcvd k rlen) =
      (rlen : Int) - 2 - chkLength k (ch 'E') := by
  have value : (UInt8.ofNat rlen).toNat = rlen := by
    simp
    omega
  simp only [dataLength, chkLength, errorRcvd, value, inForce]
  split
  · split <;> omega
  · split <;> omega

/--
An error packet is recognised unless the block check that the receiver expects
is longer than what follows the header.
-/
theorem parse_errorBody
    {k : KData}
    {data rest : List UInt8}
    (least : 1 ≤ inForce k)
    (most : inForce k ≤ 3)
    (short : data.length ≤ 91)
    (noZero : (0 : UInt8) ∉ data)
    (buffer : k.ipktbuf = errorBody data ++ rest)
    (len : Int) :
    (chkLength k (ch 'E') ≤ data.length + 1 →
      ∃ p buf, parse k len = .good p buf ∧ p.rtyp = ch 'E') ∧
    (data.length + 1 < chkLength k (ch 'E') →
      parse k len = .badLength) := by
  obtain ⟨checked, sum, body, value, checkedNoZero, shape⟩ :=
    errorBody_short short noZero
  obtain ⟨chklenLeast, chklenMost⟩ :=
    chkLength_bounds least most (ch 'E')
  have header :
      k.ipktbuf =
        tochar (UInt8.ofNat (data.length + 3)) :: tochar 0 :: ch 'E' ::
          (data ++ [sum] ++ rest) := by
    rw [buffer, body, shape]
    rfl
  rw [parse_errorHeader (by omega) (by omega) header]
  unfold parseLengths
  dsimp only
  rw [dataLength_error (by omega)]
  generalize chklenShape : chkLength k (errorRcvd k (data.length + 3)).rtyp =
    chklen
  have sameLength : chkLength k (ch 'E') = chklen := chklenShape
  rw [sameLength] at chklenLeast chklenMost ⊢
  constructor
  · intro enough
    have length : checked.length = data.length + 3 := by
      rw [shape]
      rfl
    have inBounds :
        ¬ (((data.length + 3 : Nat) : Int) - 2 - chklen < 0 ∨
          ((data.length + 3 : Nat) : Int) - 2 - chklen + chklen + 1 ≥
            pBuflen) := by
      simp only [pBuflen, pPktlen]
      omega
    have cut : data.length + 4 - chklen ≤ checked.length := by
      omega
    have parts :
        checked.take (data.length + 4 - chklen) ++
            checked.drop (data.length + 4 - chklen) =
          checked :=
      List.take_append_drop ..
    have buffered :
        k.ipktbuf =
          checked.take (data.length + 4 - chklen) ++
            (checked.drop (data.length + 4 - chklen) ++ [sum]) ++ rest := by
      rw [buffer, body, ← List.append_assoc, parts]
    rw [if_neg inBounds, buffered]
    obtain ⟨buf, good⟩ :=
      @parseCheck_error chklen
        (((data.length + 3 : Nat) : Int) - 2 - chklen).toNat
        { errorRcvd k (data.length + 3) with
          datalen := ((data.length + 3 : Nat) : Int) - 2 - chklen }
        (checked.take (data.length + 4 - chklen))
        (checked.drop (data.length + 4 - chklen)) rest sum rfl
        (by rw [List.length_drop]; omega) chklenMost
        (by
          rw [List.length_take, Nat.min_eq_left cut]
          simp only [errorRcvd]
          omega)
        (by rw [parts]; exact value) (by rw [parts]; exact checkedNoZero)
    exact ⟨_, buf, good, rfl⟩
  · intro tooShort
    rw [if_pos (Or.inl (by omega))]

/-- `kermit()` recognises the frame as an error packet whenever it arrives. -/
def Recognised
    (io : Io ω)
    (frame : List UInt8)
    (r : Sys ω) : Prop :=
  ∀ polls tail msg, Arrives r.k.par frame polls →
    ∃ rx,
      kreadpkt r.k.par (polls ++ tail) = some (rx, tail) ∧
        (kermit io .run rx.ret msg (receive rx r)).1 = xError

/-- A session that takes packets, with a negotiated block check. -/
structure Listening
    (r : Sys ω) : Prop where
  set : r.k.state ≠ .rNone
  received : r.k.doRxd = true
  least : 1 ≤ r.k.par.bct
  most : r.k.par.bct ≤ 3
  start : r.k.par.rSoh = packetStart
  terminator : r.k.par.rEom = packetEnd

/-- The length of the block check depends on what the parser reads. -/
theorem chkLength_view
    {s s' : Sys ω}
    (same : parserView s' = parserView s)
    (rtyp : UInt8) :
    chkLength s'.k rtyp = chkLength s.k rtyp := by
  have state : s'.k.state = s.k.state := congrArg (·.1) same
  have cfg : s'.k.cfg = s.k.cfg := congrArg (·.2.2.1) same
  have kind : inForce s'.k = inForce s.k := congrArg (·.2.2.2.1) same
  unfold inForce at kind
  unfold chkLength isInitial
  rw [state, cfg]
  rw [cfg] at kind
  split
  · rfl
  · rw [if_neg ‹_›, if_neg ‹_›] at kind
    rw [kind]

/-- What `kermit()` returns for an error packet in `ipktbuf`. -/
theorem kermit_errorBody
    (io : Io ω)
    {s : Sys ω}
    {data rest : List UInt8}
    (listening : Listening s)
    (short : data.length ≤ 91)
    (noZero : (0 : UInt8) ∉ data)
    (buffer : s.k.ipktbuf = errorBody data ++ rest)
    {len : Int}
    (long : 4 ≤ len)
    (msg : List UInt8) :
    (kermit io .run len msg s).1 = xError ↔
      chkLength s.k (ch 'E') ≤ data.length + 1 := by
  have view := @parserView_testRslots ω io s
  generalize testedShape : testRslots io s = t at view
  have set : ¬ (t.k.state = .rNone) := by
    rw [show t.k.state = s.k.state by exact congrArg (·.1) view]
    exact listening.set
  have received : t.k.doRxd = true := by
    rw [show t.k.doRxd = s.k.doRxd by exact congrArg (·.2.2.2.2.2) view]
    exact listening.received
  have stored : t.k.ipktbuf = errorBody data ++ rest := by
    rw [show t.k.ipktbuf = s.k.ipktbuf by
      exact congrArg (·.2.2.2.2.1) view]
    exact buffer
  have kind : inForce t.k = inForce s.k := congrArg (·.2.2.2.1) view
  have bounds : 1 ≤ inForce t.k ∧ inForce t.k ≤ 3 := by
    rw [kind, inForce]
    split
    · decide
    · exact ⟨listening.least, listening.most⟩
  obtain ⟨recognised, refused⟩ :=
    parse_errorBody bounds.1 bounds.2 short noZero stored len
  have notShort : ¬ len < 4 := by
    omega
  rw [← chkLength_view view (ch 'E')]
  unfold kermit
  rw [testedShape]
  dsimp only
  unfold kermitRun
  rw [if_neg set, if_pos received]
  unfold rxStage
  rw [if_neg notShort]
  by_cases enough : chkLength t.k (ch 'E') ≤ data.length + 1
  · obtain ⟨p, buf, good, rtyp⟩ := recognised enough
    have notAck : ¬ (p.rtyp = ch 'Y') := by
      rw [rtyp]
      decide
    have notGeneric : ¬ (p.rtyp = ch 'G') := by
      rw [rtyp]
      decide
    have notRequest : ¬ (p.rtyp = ch 'R') := by
      rw [rtyp]
      decide
    rw [good]
    dsimp only
    unfold packetStage
    rw [if_neg (fun both => notAck both.1),
      if_neg (fun both => notGeneric both.1), if_neg notGeneric,
      if_neg notRequest, if_pos rtyp]
    exact iff_of_true rfl enough
  · have different : ¬ (xOk = xError) := by
      decide
    rw [refused (by omega)]
    exact iff_of_false different enough

/-- `epkt()` transmits its message with a type 1 check. -/
theorem epkt_sends
    (io : Io ω)
    {s : Sys ω}
    {message : List UInt8}
    (noForce : s.k.cfg.bcta3 = 0)
    (fits : (errorBody (cstr message)).length + 2 < 100) :
    ∃ rc,
      (epkt io message s).log =
        .txd
            (s.k.par.sSoh ::
              (errorBody (cstr message) ++ [s.k.par.sEom])) rc ::
          s.log := by
  have unforced : ¬ (s.k.cfg.bcta3 ≠ 0) := by
    simp [noForce]
  have forced : forceBcta3 (setBct 1 s).k = (setBct 1 s).k := by
    unfold forceBcta3
    exact if_neg unforced
  have frame :
      sentFrame (ch 'E') 0 (spktData (-1) (some message)) (setBct 1 s).k =
        s.k.par.sSoh :: (errorBody (cstr message) ++ [s.k.par.sEom]) := by
    rw [sentFrame, forced]
    rfl
  have small :
      (sentFrame (ch 'E') 0 (spktData (-1) (some message))
        (setBct 1 s).k).length < 100 := by
    rw [frame]
    simp only [List.length_cons, List.length_append, List.length_nil]
    omega
  have sent :=
    @spkt_unslotted ω io (ch 'E') 0 (-1) (some message) (setBct 1 s)
      (by decide) (by decide) (by decide) small
  rw [frame] at sent
  unfold epkt epktWith
  rw [if_neg unforced, if_neg unforced]
  unfold spkt at sent
  dsimp only
  rw [sent]
  exact ⟨_, rfl⟩

/--
An error packet gets through exactly when its message and its check character
are as long as the block check the receiver expects.
-/
theorem error_packet_recognised_iff
    (io : Io ω)
    (io' : Io ω')
    (s : Sys ω)
    (r : Sys ω')
    (message : List UInt8)
    (noForce : s.k.cfg.bcta3 = 0)
    (fits : (errorBody (cstr message)).length + 2 < 100)
    (noStart : packetStart ∉ cstr message)
    (noEnd : packetEnd ∉ cstr message)
    (startSent : s.k.par.sSoh = packetStart)
    (endSent : s.k.par.sEom = packetEnd)
    (listening : Listening r)
    (room : (errorBody (cstr message)).length ≤ r.k.par.rMaxlen)
    (seen : Unmistakable r.k.par (cstr message)) :
    ∃ frame rc,
      (epkt io message s).log = .txd frame rc :: s.log ∧
      (Recognised io' frame r ↔
        chkLength r.k (ch 'E') ≤ (cstr message).length + 1) := by
  obtain ⟨rc, sent⟩ := epkt_sends io noForce fits
  rw [startSent, endSent] at sent
  refine ⟨_, rc, sent, ?_⟩
  have noZero := zero_notMem_cstr message
  generalize cstr message = data at fits noStart noEnd room seen noZero ⊢
  have bodyLength : data.length + 4 ≤ (errorBody data).length := by
    have header : 3 ≤ (pktHeader 1 (ch 'E') 0 data.length).length := by
      unfold pktHeader
      dsimp only
      split <;> simp
    simp only [errorBody, pktBody, List.length_append, blockCheck,
      List.length_cons, List.length_nil]
    omega
  have short : data.length ≤ 91 := by
    by_contra long
    have isLong : data.length + 1 + 2 > 94 := by
      omega
    have whole : (errorBody data).length = data.length + 7 := by
      simp only [errorBody, pktBody, pktHeader, if_pos isLong, blockCheck,
        List.length_append, List.length_cons, List.length_nil]
      omega
    omega
  have plain :
      ∀ c ∈ errorBody data,
        unparity r.k.par c ≠ packetStart ∧
          unparity r.k.par c ≠ packetEnd := by
    refine plain_pktBody_of (by decide) (by decide) (by omega) ?_ ?_ ?_
    · simp only [List.mem_cons, not_or]
      exact ⟨by decide, noStart⟩
    · simp only [List.mem_cons, not_or]
      exact ⟨by decide, noEnd⟩
    · rcases seen with off | masked
      · exact Or.inl off
      · refine Or.inr fun c member => ?_
        rcases List.mem_cons.mp member with rfl | inData
        · decide
        · exact masked c inData
  let rx : Rx :=
    { ret := (errorBody data).length, stored := errorBody data ++ [0] }
  have read :
      ∀ polls tail,
        Arrives r.k.par
            (packetStart :: (errorBody data ++ [packetEnd])) polls →
          kreadpkt r.k.par (polls ++ tail) = some (rx, tail) :=
    fun polls tail arrives =>
      kreadpkt_frame listening.start listening.terminator arrives room
        plain tail
  have stillListening : Listening (receive rx r) :=
    ⟨listening.set, listening.received, listening.least, listening.most,
      listening.start, listening.terminator⟩
  have buffer :
      (receive rx r).k.ipktbuf =
        errorBody data ++ 0 :: r.k.ipktbuf.drop rx.stored.length := by
    simp [receive, rx]
  have long : 4 ≤ rx.ret := by
    simp only [rx]
    omega
  have decided :=
    kermit_errorBody io' stillListening short noZero buffer long
  constructor
  · intro recognised
    have arrival :=
      arrives_bytes r.k.par
        (packetStart :: (errorBody data ++ [packetEnd]))
    obtain ⟨rx', got, failed⟩ := recognised _ [] [] arrival
    rw [read _ [] arrival] at got
    obtain ⟨rfl, -⟩ := Prod.mk.inj (Option.some.inj got)
    exact (decided []).mp failed
  · intro enough polls tail msg arrives
    exact ⟨rx, read polls tail arrives, (decided msg).mpr enough⟩

/-- A client that waits for its request to be answered. -/
def listeningSys
    (bct : Nat) : Sys (Unix Unit) :=
  { freshSys 0 with k.par.bct := bct }

theorem error_packet_recognised_iff_to :
    ∃ frame rc,
      (epkt (unixio idleOs) (lit "eksw to") (freshSys 0)).log =
        .txd frame rc :: (freshSys 0).log ∧
      (Recognised (unixio idleOs) frame (listeningSys 3) ↔
        chkLength (listeningSys 3).k (ch 'E') ≤
          (cstr (lit "eksw to")).length + 1) :=
  error_packet_recognised_iff (unixio idleOs) (unixio idleOs) (freshSys 0)
    (listeningSys 3) (lit "eksw to") (by decide) (by decide) (by decide)
    (by decide) rfl rfl
    ⟨by decide, by decide, by decide, by decide, rfl, rfl⟩ (by decide)
    (Or.inl rfl)

/-- The empty message is lost on a receiver that expects a type 2 check. -/
theorem empty_error_packet_lost :
    (freshSys 0).k.cfg.bcta3 = 0 ∧
      (errorBody (cstr [])).length + 2 < 100 ∧
      Listening (listeningSys 2) ∧
      (errorBody (cstr [])).length ≤ (listeningSys 2).k.par.rMaxlen ∧
      (epkt (unixio idleOs) [] (freshSys 0)).log =
        [.txd (packetStart :: (errorBody [] ++ [packetEnd])) 0] ∧
      ¬ Recognised (unixio idleOs)
          (packetStart :: (errorBody [] ++ [packetEnd]))
          (listeningSys 2) := by
  refine ⟨by decide, by decide,
    ⟨by decide, by decide, by decide, by decide, rfl, rfl⟩, by decide,
    by decide, ?_⟩
  intro recognised
  let frame := packetStart :: (errorBody [] ++ [packetEnd])
  obtain ⟨rx, got, failed⟩ :=
    recognised (frame.map .byte) [] [] (arrives_bytes _ frame)
  have read :
      kreadpkt (listeningSys 2).k.par (frame.map .byte ++ []) =
        some ({ ret := 4, stored := errorBody [] ++ [0] }, []) := by
    decide
  rw [read] at got
  obtain ⟨rfl, -⟩ := Prod.mk.inj (Option.some.inj got)
  have ignored :
      (kermit (unixio idleOs) .run 4 []
        (receive { ret := 4, stored := errorBody [] ++ [0] }
          (listeningSys 2))).1 =
        xOk := by
    decide
  rw [ignored] at failed
  exact absurd failed (by decide)

end Slate106.Kermit
