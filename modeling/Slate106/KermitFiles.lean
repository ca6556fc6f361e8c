import Mathlib.Data.List.Basic
import Slate106.KermitFields
import Slate106.KermitWf

namespace Slate106.Kermit

open CBytes

/-!
# Data fields of a whole file

`getpkt` called again and again on an open file, and `decode` of the fields it
has filled.
-/

variable {ω ω' σ : Type}

/-! ## The fields of a file -/

/-- The calls of `getpkt()` on a file, one after the other. -/
def getpkts
    (io : Io ω)
    (s : Sys ω) : Nat → Int × Sys ω
  | 0 => getpkt io s
  | n + 1 => getpkt io (getpkts io s n).2

theorem getpkts_succ
    (io : Io ω)
    (s : Sys ω)
    (n : Nat) :
    getpkts io s (n + 1) = getpkts io (getpkt io s).2 n := by
  induction n with
  | zero =>
      rfl
  | succ n inductionHypothesis =>
      rw [getpkts, inductionHypothesis]
      rfl

/-- The data that `spkt()` takes from what `getpkt()` has filled. -/
def fieldOf
    (result : Int × Sys ω) : List UInt8 :=
  spktData result.1 (some (xdataMem result.2.k))

/-- A data field made of whole runs, and the state it leaves. -/
structure GoodField
    (k : KData)
    (runs : List CharRun)
    (result : Int × Sys ω) : Prop where
  positive : 0 < result.1
  said : ∀ run ∈ runs, run.Said k.par.rptflg
  data : fieldOf result = encodeRuns k.cfg k.par runs
  fits : (fieldOf result).length ≤ max (getpktMaxlen k.par + 1) 6
  remain : result.2.k.enc.sRemain.length ≤ 4

theorem Packed.goodField
    {left : ω → List UInt8}
    {rest rest' : List UInt8}
    {s : Sys ω}
    {result : Int × Sys ω}
    {runs : List CharRun}
    (packable : Packable s.k.cfg s.k.par)
    (packed : Packed left rest s result runs rest') :
    GoodField s.k runs result := by
  obtain ⟨cfg, par⟩ := packed.packs.settings
  obtain ⟨tail, memory⟩ := packed.memory
  have some := length_encodeRuns_pos s.k.cfg s.k.par packed.something
  have length := packed.length
  have notNegative : ¬ result.1 < 0 := by omega
  have data : fieldOf result = encodeRuns s.k.cfg s.k.par runs := by
    unfold fieldOf spktData
    dsimp only
    rw [if_neg notNegative, memory, length, Int.toNat_natCast,
      List.takeD_eq_take _ (by simp), List.take_left]
  refine
    { positive := by omega
      said := packed.said
      data := data
      fits := ?_
      remain := ?_ }
  · rw [data, ← length]
    exact packed.fits
  · have settings : Packable result.2.k.cfg result.2.k.par := by
      rw [cfg, par]
      exact packable
    exact packed.waiting.remain settings packed.begun

/-- Calls of `getpkt()` until the input is used up. -/
theorem getpkts_underway
    {mode : Int}
    {io : Io ω}
    {left : ω → List UInt8}
    (reader : ReadsIn mode io left)
    {rest : List UInt8}
    {s : Sys ω}
    (inMode : s.k.par.binary = mode)
    (underway : Underway left rest s) :
    ∃ fields : List (List CharRun),
      rest = fields.flatMap expand ∧
      (getpkts io s fields.length).1 = 0 ∧
      (getpkts io s fields.length).2.k.enc.sRemain.length ≤ 4 ∧
      ∀ i, (inside : i < fields.length) →
        GoodField s.k fields[i] (getpkts io s i) := by
  generalize size : rest.length = n
  induction n using Nat.strong_induction_on generalizing rest s with
  | _ n inductionHypothesis =>
    subst size
    rcases getpkt_underway reader inMode underway with
      ⟨nothing, zero, remain, _, _⟩ | ⟨runs, rest', packed⟩
    · exact ⟨[], by simp [nothing], zero, remain,
        fun i inside => absurd inside (Nat.not_lt_zero i)⟩
    · have good := packed.goodField underway.fits.packable
      have underway' := packed.underway underway
      obtain ⟨cfg, par⟩ := packed.packs.settings
      have shorter : rest'.length < rest.length := by
        rw [packed.split, List.length_append]
        exact Nat.lt_add_of_pos_left
          (length_expand_pos packed.said packed.something)
      obtain ⟨fields, all, zero, remain, goods⟩ :=
        inductionHypothesis rest'.length shorter (by rw [par]; exact inMode)
          underway' rfl
      refine ⟨runs :: fields, ?_, ?_, ?_, ?_⟩
      · rw [packed.split, all]
        rfl
      · rw [List.length_cons, getpkts_succ]
        exact zero
      · rw [List.length_cons, getpkts_succ]
        exact remain
      · intro i inside
        cases i with
        | zero =>
            exact good
        | succ i =>
            obtain ⟨positive, said, data, fits, remain⟩ :=
              goods i (Nat.lt_of_succ_lt_succ inside)
            rw [cfg, par] at data
            rw [par] at said fits
            rw [getpkts_succ]
            exact ⟨positive, said, data, fits, remain⟩

/-! ## Fields decoded to a file -/

/-- The bytes handed to `writef`, in order. -/
def writefs : List Call → List UInt8
  | [] => []
  | .writef bytes _ :: rest => writefs rest ++ bytes
  | _ :: rest => writefs rest

/-- What has been written to the output file or waits in `obuf`. -/
def storedFile
    (s : Sys ω) : List UInt8 :=
  writefs s.log ++ s.k.obuf.takeD s.k.obufpos 0

/-- The output functions never fail. -/
def Writable
    (io : Io ω) : Prop :=
  ∀ w k bytes, (io.writef w k bytes).1 = xOk

/-- Only the output buffer, its counters and the output file differ. -/
def Stores
    (s s' : Sys ω) : Prop :=
  ∃ obuf obufpos sofar sofarRumor w log,
    s' =
      { s with
        k := { s.k with obuf := obuf, obufpos := obufpos }
        r := { s.r with sofar := sofar, sofarRumor := sofarRumor }
        w := w
        log := log }

theorem Stores.refl
    (s : Sys ω) :
    Stores s s :=
  ⟨s.k.obuf, s.k.obufpos, s.r.sofar, s.r.sofarRumor, s.w, s.log, rfl⟩

theorem Stores.trans
    {s s' s'' : Sys ω}
    (first : Stores s s')
    (second : Stores s' s'') :
    Stores s s'' := by
  obtain ⟨_, _, _, _, _, _, rfl⟩ := first
  obtain ⟨obuf, obufpos, sofar, sofarRumor, w, log, rfl⟩ := second
  exact ⟨obuf, obufpos, sofar, sofarRumor, w, log, rfl⟩

/-- There is room in `obuf` for one byte more. -/
def RoomInObuf
    (s : Sys ω) : Prop :=
  s.k.obufpos < s.k.cfg.obuflen

theorem takeD_poke
    (memory : List UInt8)
    (place : Nat)
    (byte : UInt8) :
    (poke memory place [byte]).takeD (place + 1) 0 =
      memory.takeD place 0 ++ [byte] := by
  have size : (memory.takeD place 0 ++ [byte]).length = place + 1 := by
    simp
  unfold poke
  rw [List.takeD_eq_take _ (by simp)]
  exact List.take_left' size

/-- A decoded character goes to the file as often as it was said. -/
theorem decodeOut_stored
    {io : Io ω}
    (writable : Writable io)
    (a : UInt8)
    (count : Nat)
    {s : Sys ω}
    (room : RoomInObuf s) :
    ∃ s',
      decodeOut io a count xOk s = (xOk, 0, s') ∧
      Stores s s' ∧
      RoomInObuf s' ∧
      storedFile s' = storedFile s ++ List.replicate count a := by
  induction count generalizing s with
  | zero =>
      exact ⟨s, rfl, Stores.refl s, room, by simp⟩
  | succ count inductionHypothesis =>
      unfold decodeOut
      dsimp only
      have longer : (storeByte a s).k.obuf.takeD (storeByte a s).k.obufpos 0 =
          s.k.obuf.takeD s.k.obufpos 0 ++ [a] :=
        takeD_poke s.k.obuf s.k.obufpos a
      have one : storedFile (storeByte a s) = storedFile s ++ [a] := by
        unfold storedFile
        rw [longer, ← List.append_assoc]
        rfl
      have storedOne : Stores s (storeByte a s) :=
        ⟨_, s.k.obufpos + 1, s.r.sofar, s.r.sofarRumor, s.w, s.log, rfl⟩
      have said : storedFile s ++ [a] ++ List.replicate count a =
          storedFile s ++ List.replicate (count + 1) a := by
        rw [List.replicate_succ, List.append_assoc, List.singleton_append]
      by_cases full : (storeByte a s).k.obufpos = (storeByte a s).k.cfg.obuflen
      · rw [if_pos full]
        generalize storeByte a s = s₁ at *
        have ok := writable s₁.w s₁.k
          (s₁.k.obuf.takeD s₁.k.cfg.obuflen 0)
        have ok' : (callWritef io (s₁.k.obuf.takeD s₁.k.cfg.obuflen 0)
            s₁).1 = xOk := ok
        rw [ok', if_neg (by decide)]
        have positive : 0 < s₁.k.cfg.obuflen := by
          obtain ⟨_, _, _, _, _, _, rfl⟩ := storedOne
          exact Nat.lt_of_le_of_lt (Nat.zero_le _) room
        obtain ⟨s', out, stores, room', stored⟩ := inductionHypothesis
          (s := rewindObuf (countWritten s₁.k.cfg.obuflen
            (callWritef io (s₁.k.obuf.takeD s₁.k.cfg.obuflen 0) s₁).2))
          positive
        refine ⟨s', out, ?_, room', ?_⟩
        · refine (storedOne.trans ?_).trans stores
          exact ⟨s₁.k.obuf, 0, _, _, _, _, rfl⟩
        · rw [stored, ← said, ← one]
          refine congrArg (· ++ _) ?_
          unfold storedFile
          rw [full]
          simp [rewindObuf, countWritten, callWritef, writefs]
      · rw [if_neg full]
        have roomOne : RoomInObuf (storeByte a s) := by
          have less : s.k.obufpos < s.k.cfg.obuflen := room
          have notFull : ¬ s.k.obufpos + 1 = s.k.cfg.obuflen := full
          show s.k.obufpos + 1 < s.k.cfg.obuflen
          omega
        obtain ⟨s', out, stores, room', stored⟩ := inductionHypothesis roomOne
        refine ⟨s', out, storedOne.trans stores, room', ?_⟩
        rw [stored, one, said]

/-- The character loop of `decode()` writes what it makes of the runs. -/
theorem decodeFileLoop_encodeRuns
    {io : Io ω}
    (writable : Writable io)
    {cfg : Config}
    {p p' : Params}
    {back : UInt8 → UInt8}
    (packable : Packable cfg p)
    {runs : List CharRun}
    (said : ∀ run ∈ runs, run.Said p.rptflg)
    (reads : ∀ run ∈ runs, ReadsRun cfg p p' back run)
    (rest : List UInt8)
    {turns : Nat}
    (enough : runs.length < turns)
    {s : Sys ω}
    (par : s.k.par = p')
    (room : RoomInObuf s) :
    ∃ s',
      decodeFileLoop io turns 0 xOk (encodeRuns cfg p runs ++ 0 :: rest) s =
        (xOk, s') ∧
      Stores s s' ∧
      RoomInObuf s' ∧
      storedFile s' = storedFile s ++ (expand runs).map back := by
  induction runs generalizing turns s with
  | nil =>
      cases turns with
      | zero =>
          exact absurd enough (Nat.not_lt_zero _)
      | succ turns =>
          exact ⟨s, rfl, Stores.refl s, room, by simp⟩
  | cons run runs inductionHypothesis =>
      cases turns with
      | zero =>
          exact absurd enough (Nat.not_lt_zero _)
      | succ turns =>
          have saidHead := said run (List.mem_cons_self ..)
          have saidTail : ∀ run ∈ runs, run.Said p.rptflg :=
            fun run member => said run (List.mem_cons_of_mem _ member)
          have read := reads run (List.mem_cons_self ..)
            (encodeRuns cfg p runs ++ 0 :: rest)
          dsimp only at read
          rw [← List.append_assoc, ← par] at read
          obtain ⟨s₁, out, stores, room₁, stored⟩ :=
            decodeOut_stored writable (back run.char) run.count room
          have same : s₁.k.par = s.k.par := by
            obtain ⟨_, _, _, _, _, _, rfl⟩ := stores
            rfl
          obtain ⟨s', more, stores', room', stored'⟩ :=
            inductionHypothesis saidTail
              (fun run member => reads run (List.mem_cons_of_mem _ member))
              (Nat.lt_of_succ_lt_succ enough) (same.trans par) room₁
          refine ⟨s', ?_, stores.trans stores', room', ?_⟩
          · have peeked := peek_encodeRun (packable.run saidHead).2.2
              (encodeRuns cfg p runs ++ 0 :: rest)
            rw [← List.append_assoc] at peeked
            rw [encodeRuns_cons, decodeFileLoop, if_neg peeked]
            dsimp only
            rw [read, out]
            exact more
          · rw [stored', stored, expand_cons, List.map_append,
              List.map_replicate, List.append_assoc]

/-- A data field held in the receive slot 0. -/
def inSlot
    (field : List UInt8)
    (s : Sys ω) : Sys ω :=
  { s with
    k.win.ipktinfo := put s.k.win.ipktinfo 0
      { s.k.win.ipktinfo 0 with
        len := field.length, crc := chk3 field, buf := field ++ [0] } }

/-- `decode()` of a field held in the receive slot, to the output file. -/
def decodeField
    (io : Io ω)
    (field : List UInt8)
    (s : Sys ω) : Int × Sys ω :=
  decodeFile io (field ++ [0]) 0 (inSlot field s)

/-- The decoder writes out what it makes of the runs of a field. -/
theorem decodeField_encodeRuns
    {io : Io ω}
    (writable : Writable io)
    {cfg : Config}
    {p p' : Params}
    {back : UInt8 → UInt8}
    (packable : Packable cfg p)
    {runs : List CharRun}
    (said : ∀ run ∈ runs, run.Said p.rptflg)
    (reads : ∀ run ∈ runs, ReadsRun cfg p p' back run)
    {s : Sys ω}
    (par : s.k.par = p')
    (room : RoomInObuf s) :
    let decoded := decodeField io (encodeRuns cfg p runs) s
    decoded.1 = xOk ∧
      decoded.2.k.par = s.k.par ∧
      RoomInObuf decoded.2 ∧
      storedFile decoded.2 = storedFile s ++ (expand runs).map back := by
  have noZero : (0 : UInt8) ∉ encodeRuns cfg p runs :=
    packable.runs said
  have shorter := length_le_encodeRuns cfg p runs
  have whole : cstr ((encodeRuns cfg p runs ++ [0]).take
      (encodeRuns cfg p runs).length) = encodeRuns cfg p runs := by
    rw [List.take_left]
    exact cstr_of_notMem noZero
  have ended : cstr (encodeRuns cfg p runs ++ [0]) = encodeRuns cfg p runs :=
    cstr_append_zero noZero []
  have enough : runs.length < (encodeRuns cfg p runs ++ [0]).length + 1 := by
    simp
    omega
  obtain ⟨s', out, stores, room', stored⟩ := decodeFileLoop_encodeRuns writable
    packable said reads [] enough
    (s := { inSlot (encodeRuns cfg p runs) s with
      log := .decodeFile :: s.log }) par room
  have route : decodeField io (encodeRuns cfg p runs) s = (xOk, s') := by
    unfold decodeField decodeFile
    dsimp only [inSlot]
    simp only [put_same, Int.toNat_natCast, whole, ended]
    rw [if_neg (by simp), if_neg (by simp)]
    exact out
  dsimp only
  rw [route]
  obtain ⟨_, _, _, _, _, _, rfl⟩ := stores
  exact ⟨rfl, rfl, room', stored⟩

/-- `decode()` of one field after the other, to the output file. -/
def decodeFields
    (io : Io ω)
    (s : Sys ω)
    (fields : List (List UInt8)) : Sys ω :=
  fields.foldl (fun s field => (decodeField io field s).2) s

theorem decodeFields_encodeRuns
    {io : Io ω}
    (writable : Writable io)
    {cfg : Config}
    {p p' : Params}
    {back : UInt8 → UInt8}
    (packable : Packable cfg p)
    {fields : List (List CharRun)}
    (said : ∀ runs ∈ fields, ∀ run ∈ runs, run.Said p.rptflg)
    (reads : ∀ runs ∈ fields, ∀ run ∈ runs, ReadsRun cfg p p' back run)
    {s : Sys ω}
    (par : s.k.par = p')
    (room : RoomInObuf s) :
    storedFile (decodeFields io s (fields.map (encodeRuns cfg p))) =
      storedFile s ++ (fields.flatMap expand).map back := by
  induction fields generalizing s with
  | nil =>
      simp [decodeFields]
  | cons runs fields inductionHypothesis =>
      obtain ⟨_, kept, room', stored⟩ := decodeField_encodeRuns writable
        packable (said runs (List.mem_cons_self ..))
        (reads runs (List.mem_cons_self ..)) par room
      have more := inductionHypothesis
        (fun runs member => said runs (List.mem_cons_of_mem _ member))
        (fun runs member => reads runs (List.mem_cons_of_mem _ member))
        (s := (decodeField io (encodeRuns cfg p runs) s).2)
        (kept.trans par) room'
      rw [stored] at more
      rw [List.flatMap_cons, List.map_append, ← List.append_assoc]
      exact more

/-! ## Files read by `kreadfile()` -/

/-- `fread` on an ordinary file; `unread` is what has not been read of it. -/
def ReadsUnread
    (os : Os σ)
    (unread : σ → List UInt8) : Prop :=
  ∀ w count,
    (os.fread w count).1 = (unread w).take count ∧
    unread (os.fread w count).2 = (unread w).drop count

theorem readsFile_unixio
    {os : Os σ}
    {unread : σ → List UInt8}
    (reads : ReadsUnread os unread) :
    ReadsFile (unixio os) (fun w => unread w.os) := by
  constructor
  · intro w k buf binary empty pointer beyond
    obtain ⟨got, rest⟩ := reads w.os ibufLen
    have nothing : (os.fread w.os ibufLen).1 = [] := by
      rw [got]
      simp [show unread w.os = [] from beyond]
    refine ⟨{ w with os := (os.fread w.os ibufLen).2 }, ?_, ?_⟩
    · simp [unixio, kreadfile, pointer, empty, binary, nothing]
    · show unread _ = []
      rw [rest]
      simp [show unread w.os = [] from beyond]
  · intro w k buf c more binary empty pointer unreadNow
    obtain ⟨got, rest⟩ := reads w.os ibufLen
    have first : unread w.os = c :: more := unreadNow
    have some : (os.fread w.os ibufLen).1 = c :: more.take 511 := by
      rw [got, first]
      rfl
    refine ⟨more.take 511, { w with os := (os.fread w.os ibufLen).2 }, ?_, ?_⟩
    · simp [unixio, kreadfile, pointer, empty, binary, some]
    · show more = more.take 511 ++ unread _
      rw [rest, first]
      exact (List.take_append_drop 511 more).symm

/-- `getpkt()` forces the block check type first. -/
theorem getpkt_forceBcta3
    (io : Io ω)
    (s : Sys ω) :
    getpkt io { s with k := forceBcta3 s.k } = getpkt io s := by
  have twice : forceBcta3 (forceBcta3 s.k) = forceBcta3 s.k := by
    by_cases forced : s.k.cfg.bcta3 = 0
    · simp [forceBcta3, forced]
    · simp [forceBcta3, forced]
  unfold getpkt
  dsimp only
  rw [twice]

theorem getpkts_forceBcta3
    (io : Io ω)
    (s : Sys ω)
    (n : Nat) :
    getpkts io { s with k := forceBcta3 s.k } n = getpkts io s n := by
  induction n with
  | zero =>
      exact getpkt_forceBcta3 io s
  | succ n inductionHypothesis =>
      rw [getpkts, inductionHypothesis]
      rfl

/-- The data fields that the first calls of `getpkt()` have filled. -/
def fieldsOf
    (io : Io ω)
    (s : Sys ω)
    (count : Nat) : List (List UInt8) :=
  (List.range count).map fun i => fieldOf (getpkts io s i)

/-- The data fields of an input of which nothing has been read. -/
theorem getpkts_first
    {mode : Int}
    {io : Io ω}
    {left : ω → List UInt8}
    (reader : ReadsIn mode io left)
    {input : List UInt8}
    {s : Sys ω}
    (inMode : s.k.par.binary = mode)
    (packable : Packable s.k.cfg s.k.par)
    (room : longestRun s.k.par + inForce s.k + 9 ≤ s.k.par.sMaxlen)
    (small : s.k.par.sMaxlen ≤ pPktlen)
    (noString : s.k.enc.istring = none)
    (first : s.k.enc.sFirst = 1)
    (counted : s.k.enc.sRpt = 0)
    (unread : Input left s input) :
    ∃ fields : List (List CharRun),
      input = fields.flatMap expand ∧
      (∀ runs ∈ fields, ∀ run ∈ runs, run.Said s.k.par.rptflg) ∧
      fieldsOf io s fields.length =
        fields.map (encodeRuns s.k.cfg s.k.par) ∧
      (∀ i, i < fields.length → 0 < (getpkts io s i).1) ∧
      (getpkts io s fields.length).1 = 0 ∧
      (∀ field ∈ fieldsOf io s fields.length,
        (field.length : Int) ≤
          max ((s.k.par.sMaxlen : Int) - inForce s.k - 8) 6) ∧
      ∀ i, i ≤ fields.length →
        (getpkts io s i).2.k.enc.sRemain.length ≤ 4 := by
  have underway : Underway left input { s with k := forceBcta3 s.k } := by
    rw [forceBcta3_eq]
    refine
      { fits := ⟨⟨packable.length, packable.nonzero, packable.rptq⟩, ?_, small⟩
        inForce := ?_
        noString := noString
        waiting := .first first counted unread }
    · show longestRun s.k.par ≤ (s.k.par.sMaxlen : Int) - inForce s.k - 3 - 6
      omega
    by_cases forced : s.k.cfg.bcta3 = 0
    · exact .inl forced
    · refine .inr ?_
      show (if s.k.cfg.bcta3 ≠ 0 then 3 else s.k.par.bct) = 3
      rw [if_pos forced]
  have stillIn : (forceBcta3 s.k).par.binary = mode := by
    rw [forceBcta3_eq]
    exact inMode
  obtain ⟨fields, whole, zero, last, goods⟩ :=
    getpkts_underway reader stillIn underway
  simp only [getpkts_forceBcta3] at zero last goods
  simp only [forceBcta3_eq] at goods
  have fieldSame : fieldsOf io s fields.length =
      fields.map (encodeRuns s.k.cfg s.k.par) := by
    apply List.ext_getElem
    · simp [fieldsOf]
    · intro i _ inside
      have inFields : i < fields.length := by simpa using inside
      have asSent : fieldOf (getpkts io s i) =
          encodeRuns s.k.cfg s.k.par fields[i] :=
        (goods i inFields).data
      simpa [fieldsOf] using asSent
  refine ⟨fields, whole, ?_, fieldSame,
    fun i inside => (goods i inside).positive, zero, ?_, ?_⟩
  · intro runs member
    obtain ⟨i, inside, rfl⟩ := List.getElem_of_mem member
    exact (goods i inside).said
  · intro field member
    obtain ⟨i, inside, rfl⟩ := List.mem_map.mp member
    have fits := (goods i (List.mem_range.mp inside)).fits
    unfold getpktMaxlen at fits
    dsimp only at fits
    omega
  · intro i inside
    rcases Nat.lt_or_eq_of_le inside with before | rfl
    · exact (goods i before).remain
    · exact last

/--
A file that is put into data fields comes back when the fields are decoded one
by one, in memory or to an output file, and no run of the encoder is split.
-/
theorem getpkt_round_trip
    {os : Os σ}
    {unread : σ → List UInt8}
    (reads : ReadsUnread os unread)
    {name : List UInt8}
    (size : Int)
    {s : Sys (Unix σ)}
    {w : σ}
    (encoding : BinaryEncoding s.k.cfg s.k.par)
    (room : inForce s.k + 14 ≤ s.k.par.sMaxlen)
    (small : s.k.par.sMaxlen ≤ pPktlen)
    (noString : s.k.enc.istring = none)
    (counted : s.k.enc.sRpt = 0)
    (opened :
      os.fopen s.w.os (kaddRootpath s.k.cfg.rootpath name) = (true, w)) :
    let s' := (callOpenf (unixio os) name 1 size s).2
    ∃ count,
      (∀ i, i < count → 0 < (getpkts (unixio os) s' i).1) ∧
      (getpkts (unixio os) s' count).1 = 0 ∧
      (∀ p', BinaryDecoding p' → p'.rptflg = s.k.par.rptflg →
        (fieldsOf (unixio os) s' count).flatMap (decodeMem p') = unread w) ∧
      (∀ (io' : Io ω') (t : Sys ω'),
        Writable io' → BinaryDecoding t.k.par →
        t.k.par.rptflg = s.k.par.rptflg → RoomInObuf t →
        storedFile (decodeFields io' t (fieldsOf (unixio os) s' count)) =
          storedFile t ++ unread w) ∧
      (∀ field ∈ fieldsOf (unixio os) s' count,
        (field.length : Int) ≤ s.k.par.sMaxlen - inForce s.k - 8 ∧
        (∀ byte ∈ field, InField byte) ∧
        ∃ runs : List CharRun,
          (∀ run ∈ runs, run.Said s.k.par.rptflg) ∧
          field = encodeRuns s.k.cfg s.k.par runs) ∧
      ∀ i, i ≤ count →
        (getpkts (unixio os) s' i).2.k.enc.sRemain.length + 1 ≤ 6 := by
  dsimp only
  have longest := longestRun_bounds s.k.par
  have route : (callOpenf (unixio os) name 1 size s).2 =
      { s with
        k.enc.sFirst := 1
        k.zin := { zincnt := 0, zinptr := some [] }
        w :=
          { s.w with
            os := w, ifile := true
            calls :=
              .fopen (kaddRootpath s.k.cfg.rootpath name) "r" :: s.w.calls }
        log := .openf name 1 xOk :: s.log } := by
    simp [callOpenf, unixio, kopenfile, opened]
  have unreadNow :
      Input (fun w => unread w.os) (callOpenf (unixio os) name 1 size s).2
        (unread w) := by
    rw [route]
    exact ⟨[], rfl, rfl⟩
  have settings :
      (callOpenf (unixio os) name 1 size s).2.k.cfg = s.k.cfg ∧
      (callOpenf (unixio os) name 1 size s).2.k.par = s.k.par ∧
      (callOpenf (unixio os) name 1 size s).2.k.enc.istring = none ∧
      (callOpenf (unixio os) name 1 size s).2.k.enc.sFirst = 1 ∧
      (callOpenf (unixio os) name 1 size s).2.k.enc.sRpt = 0 := by
    rw [route]
    exact ⟨rfl, rfl, noString, rfl, counted⟩
  generalize (callOpenf (unixio os) name 1 size s).2 = s' at *
  obtain ⟨cfg, par, noString', first, counted'⟩ := settings
  have inForceSame : inForce s'.k = inForce s.k := by
    unfold inForce
    rw [cfg, par]
  obtain ⟨fields, whole, said, fieldSame, positive, zero, short, remain⟩ :=
    getpkts_first (readsFile_unixio reads).readsIn
      (by rw [par]; exact encoding.binary)
      (by rw [cfg, par]; exact encoding.plain.packable)
      (by rw [par, inForceSame]; omega) (by rw [par]; exact small)
      noString' first counted' unreadNow
  rw [par, inForceSame] at short
  rw [cfg, par] at fieldSame
  rw [par] at said
  refine ⟨fields.length, positive, zero, ?_, ?_, ?_, ?_⟩
  · intro p' decoding sameFlag
    rw [fieldSame, whole, List.flatMap_map]
    apply List.flatMap_congr
    intro runs member
    exact decodeMem_plain encoding.plain
      (decoding.plain encoding sameFlag) (said runs member)
  · intro io' t writable decoding sameFlag roomInObuf
    have written := decodeFields_encodeRuns writable encoding.plain.packable
      said (fun runs inFields run inRuns => readsRun_plain encoding.plain
        (decoding.plain encoding sameFlag) (said runs inFields run inRuns))
      rfl roomInObuf
    rw [fieldSame, whole, written, List.map_id]
  · intro field member
    have fits := short field member
    rw [fieldSame] at member
    obtain ⟨runs, inFields, rfl⟩ := List.mem_map.mp member
    have saidRuns := said runs inFields
    exact ⟨by omega, fun byte => encodeRuns_inField encoding.plain saidRuns,
      runs, saidRuns, rfl⟩
  · intro i inside
    have fits := remain i inside
    omega

/-- A file with a run, a control character and a repeat prefix. -/
theorem getpkt_round_trip_run :
    let s := idleServer fileOs [7, 7, 7, 7, 0x0D, 0xCC, 0]
    let s' := (callOpenf (unixio fileOs) (lit "f") 1 0 s).2
    ∃ count,
      (fieldsOf (unixio fileOs) s' count).flatMap (decodeMem s.k.par) =
        [7, 7, 7, 7, 0x0D, 0xCC, 0] := by
  intro s s'
  have reads : ReadsUnread fileOs (fun file => file) :=
    fun _ _ => ⟨rfl, rfl⟩
  have opened : fileOs.fopen s.w.os
      (kaddRootpath s.k.cfg.rootpath (lit "f")) =
      (true, [7, 7, 7, 7, 0x0D, 0xCC, 0]) :=
    rfl
  obtain ⟨count, _, _, decoded, _⟩ :=
    @getpkt_round_trip Unit _ _ _ reads _ 0 _ _
      ⟨by decide, by decide, by decide, by decide⟩ (by decide) (by decide)
      (by decide) (by decide) opened
  exact ⟨count, decoded s.k.par
    ⟨by decide, by decide, by decide, by decide⟩ rfl⟩

end Slate106.Kermit
