import Slate106.KermitFiles

namespace Slate106.Kermit

open CBytes

/-!
# What a data field becomes in the output file

`decode()` writes to the file what it would store in memory, for every data
field: a field that no encoder made, too.
-/

variable {ω : Type}

/-! ## The end of a field -/

/-- Two strings of which the decoder reads the same. -/
def SameBytes
    (first second : List UInt8) : Prop :=
  ∀ place, peek first place = peek second place

theorem SameBytes.drop
    {first second : List UInt8}
    (same : SameBytes first second)
    (count : Nat) :
    SameBytes (first.drop count) (second.drop count) := by
  intro place
  rw [peek_drop, peek_drop]
  exact same _

/-- What is read of a character, and what is left, are the same. -/
structure SameDecoded
    (first second : Decoded) : Prop where
  char : first.char = second.char
  rpt : first.rpt = second.rpt
  rest : SameBytes first.rest second.rest

theorem SameBytes.decodeRpt
    {first second : List UInt8}
    (same : SameBytes first second)
    (p : Params)
    (rpt : Nat)
    (a : UInt8) :
    SameDecoded (decodeRpt p rpt a first) (decodeRpt p rpt a second) := by
  unfold Kermit.decodeRpt
  split
  · exact ⟨same 1, by rw [same 0], same.drop 2⟩
  · exact ⟨rfl, rfl, same⟩

theorem SameBytes.decodeNext
    {first second : List UInt8}
    (same : SameBytes first second)
    (p : Params)
    (rpt : Nat)
    (a : UInt8) :
    SameDecoded (decodeNext p rpt a first) (decodeNext p rpt a second) := by
  obtain ⟨char, count, rest⟩ := same.decodeRpt p rpt a
  unfold Kermit.decodeNext
  generalize Kermit.decodeRpt p rpt a first = d at *
  generalize Kermit.decodeRpt p rpt a second = d' at *
  dsimp only
  rw [char, count]
  by_cases prefixed : p.parity ≠ 0 ∧ d'.char = p.ebq
  · simp only [if_pos prefixed, rest 0]
    by_cases quoted : peek d'.rest 0 &&& 0x7F = p.rCtlq
    · simp only [if_pos quoted, (rest.drop 1) 0]
      exact ⟨rfl, rfl, (rest.drop 1).drop 1⟩
    · simp only [if_neg quoted]
      exact ⟨rfl, rfl, rest.drop 1⟩
  · simp only [if_neg prefixed, char]
    by_cases quoted : d'.char = p.rCtlq
    · simp only [if_pos quoted, rest 0, count]
      exact ⟨rfl, rfl, rest.drop 1⟩
    · simp only [if_neg quoted, char, count]
      exact ⟨rfl, rfl, rest⟩

theorem SameBytes.decodeMemLoop
    {first second : List UInt8}
    (same : SameBytes first second)
    (p : Params)
    (turns : Nat) :
    decodeMemLoop p turns first = decodeMemLoop p turns second := by
  induction turns generalizing first second with
  | zero =>
      rfl
  | succ turns inductionHypothesis =>
      obtain ⟨char, count, rest⟩ :=
        (same.drop 1).decodeNext p 0 (peek second 0)
      unfold Kermit.decodeMemLoop
      rw [same 0]
      dsimp only
      rw [char, count, inductionHypothesis rest]

/-- A character takes at least its first byte. -/
theorem length_decodeNext_rest
    (p : Params)
    (rpt : Nat)
    (a : UInt8)
    (inbuf : List UInt8) :
    (decodeNext p rpt a inbuf).rest.length ≤ inbuf.length := by
  have repeated : (decodeRpt p rpt a inbuf).rest.length ≤ inbuf.length := by
    unfold decodeRpt
    split
    · rw [List.length_drop]
      exact Nat.sub_le _ _
    · exact Nat.le_refl _
  unfold decodeNext
  generalize decodeRpt p rpt a inbuf = d at *
  have once : (d.rest.drop 1).length ≤ inbuf.length := by
    rw [List.length_drop]
    omega
  have twice : ((d.rest.drop 1).drop 1).length ≤ inbuf.length := by
    rw [List.length_drop]
    omega
  dsimp only
  split
  · split
    · exact twice
    · exact once
  · split
    · exact once
    · exact repeated

/-- More turns than there are bytes make no difference. -/
theorem decodeMemLoop_turns
    (p : Params)
    {turns more : Nat}
    {inbuf : List UInt8}
    (enough : inbuf.length < turns)
    (enoughMore : inbuf.length < more) :
    decodeMemLoop p turns inbuf = decodeMemLoop p more inbuf := by
  induction turns generalizing more inbuf with
  | zero =>
      exact absurd enough (Nat.not_lt_zero _)
  | succ turns inductionHypothesis =>
      cases more with
      | zero =>
          exact absurd enoughMore (Nat.not_lt_zero _)
      | succ more =>
          cases inbuf with
          | nil =>
              rfl
          | cons first rest =>
              have shorter := length_decodeNext_rest p 0 first rest
              rw [List.length_cons] at enough enoughMore
              unfold decodeMemLoop
              simp only [peek_cons_zero, List.drop_succ_cons, List.drop_zero]
              rw [@inductionHypothesis more _ (by omega) (by omega)]

/-- The terminator of a field is not part of it. -/
theorem decodeMem_terminated
    (p : Params)
    (field : List UInt8) :
    decodeMem p (field ++ [0]) = decodeMem p field := by
  have same : SameBytes (field ++ [0]) field := by
    intro place
    by_cases inside : place < field.length
    · exact peek_append_left inside _
    · rw [peek_append_right (Nat.not_lt.mp inside)]
      have beyond : peek field place = 0 := by
        simp [peek, List.getElem?_eq_none (Nat.not_lt.mp inside)]
      rw [beyond]
      cases place - field.length <;> rfl
  unfold decodeMem
  rw [same.decodeMemLoop]
  exact decodeMemLoop_turns p
    (by rw [List.length_append, List.length_singleton]; omega) (by omega)

/-! ## Writing a field to the file -/

/-- Calls that do nothing but write to the output file. -/
def Filing
    (calls : List Call) : Prop :=
  ∀ call ∈ calls, call = .decodeFile ∨ ∃ bytes rc, call = .writef bytes rc

theorem Filing.append
    {first second : List Call}
    (filing : Filing first)
    (filingNext : Filing second) :
    Filing (first ++ second) := by
  intro call member
  rcases List.mem_append.mp member with member | member
  · exact filing call member
  · exact filingNext call member

theorem Filing.txds
    {calls : List Call}
    (filing : Filing calls) :
    txds calls = [] := by
  induction calls with
  | nil =>
      rfl
  | cons call calls inductionHypothesis =>
      have rest := inductionHypothesis fun later member =>
        filing later (List.mem_cons_of_mem _ member)
      rcases filing call List.mem_cons_self with rfl | ⟨_, _, rfl⟩
      · exact rest
      · exact rest

/-- Of the calls, only those that write to the output file are new. -/
def Files
    (s s' : Sys ω) : Prop :=
  ∃ calls, s'.log = calls ++ s.log ∧ Filing calls

theorem Files.refl
    (s : Sys ω) :
    Files s s :=
  ⟨[], rfl, by simp [Filing]⟩

theorem Files.trans
    {s s' s'' : Sys ω}
    (first : Files s s')
    (second : Files s' s'') :
    Files s s'' := by
  obtain ⟨calls, log, filing⟩ := first
  obtain ⟨later, log', filing'⟩ := second
  exact ⟨later ++ calls, by rw [log', log, List.append_assoc],
    filing'.append filing⟩

theorem files_callWritef
    (io : Io ω)
    (bytes : List UInt8)
    (s : Sys ω) :
    Files s (callWritef io bytes s).2 := by
  refine ⟨[.writef bytes (io.writef s.w s.k bytes).1], rfl, ?_⟩
  intro call member
  exact .inr ⟨_, _, List.mem_singleton.mp member⟩

theorem files_decodeOut
    (io : Io ω)
    (a : UInt8)
    (count : Nat)
    (rc : Int)
    (s : Sys ω) :
    Files s (decodeOut io a count rc s).2.2 := by
  induction count generalizing rc s with
  | zero =>
      exact .refl s
  | succ count inductionHypothesis =>
      have byte : Files s (storeByte a s) := .refl s
      unfold decodeOut
      dsimp only
      split
      · have written := byte.trans (files_callWritef io
          ((storeByte a s).k.obuf.takeD (storeByte a s).k.cfg.obuflen 0) _)
        split
        · exact written
        · exact Files.trans written (inductionHypothesis _ _)
      · exact byte.trans (inductionHypothesis _ _)

/-- One byte after the other, the field goes where memory would get it. -/
structure DecodesTo
    (bytes : List UInt8)
    (s s' : Sys ω) : Prop where
  stores : Stores s s'
  room : RoomInObuf s'
  stored : storedFile s' = storedFile s ++ bytes
  files : Files s s'

theorem Stores.par
    {s s' : Sys ω}
    (stores : Stores s s') :
    s'.k.par = s.k.par := by
  obtain ⟨_, _, _, _, _, _, rfl⟩ := stores
  rfl

/-- The character loop of `decode()` writes what it would store in memory. -/
theorem decodeFileLoop_stored
    {io : Io ω}
    (writable : Writable io)
    (turns : Nat)
    (inbuf : List UInt8)
    {s : Sys ω}
    (room : RoomInObuf s) :
    ∃ s', decodeFileLoop io turns 0 xOk inbuf s = (xOk, s') ∧
      DecodesTo (decodeMemLoop s.k.par turns inbuf) s s' := by
  induction turns generalizing inbuf s with
  | zero =>
      exact ⟨s, rfl, .refl s, room, (List.append_nil _).symm, .refl s⟩
  | succ turns inductionHypothesis =>
      unfold decodeFileLoop decodeMemLoop
      by_cases ended : peek inbuf 0 = 0
      · rw [if_pos ended, if_pos ended]
        exact ⟨s, rfl, .refl s, room, (List.append_nil _).symm, .refl s⟩
      · rw [if_neg ended, if_neg ended]
        dsimp only
        generalize decodeNext s.k.par 0 (peek inbuf 0) (inbuf.drop 1) = d
        obtain ⟨t, out, stores, roomNow, stored⟩ :=
          decodeOut_stored writable d.char d.rpt room
        have files := files_decodeOut io d.char d.rpt xOk s
        rw [out] at files ⊢
        obtain ⟨s', rest, after⟩ := inductionHypothesis d.rest roomNow
        rw [stores.par] at after
        refine ⟨s', rest, stores.trans after.stores, after.room, ?_,
          files.trans after.files⟩
        rw [after.stored, stored, List.append_assoc]

/-- A field waits in a receive slot. -/
structure Slotted
    (field : List UInt8)
    (p : Packet) : Prop where
  len : p.len = field.length
  crc : p.crc = chk3 field
  buf : p.buf = field ++ [0]
  noZero : (0 : UInt8) ∉ field

/-- `decode()` to the file of a field that waits in the receive slot. -/
theorem decodeFile_stored
    {io : Io ω}
    (writable : Writable io)
    {field : List UInt8}
    {s : Sys ω}
    (slotted : Slotted field (s.k.win.ipktinfo 0))
    (room : RoomInObuf s) :
    ∃ s', decodeFile io (s.k.win.ipktinfo 0).buf 0 s = (xOk, s') ∧
      DecodesTo (decodeMem s.k.par field) s s' := by
  have whole : cstr (field ++ [0]) = field :=
    cstr_append_zero slotted.noZero []
  have front : cstr ((field ++ [0]).take field.length) = field := by
    rw [List.take_left]
    exact cstr_of_notMem slotted.noZero
  have noted : Files s { s with log := .decodeFile :: s.log } :=
    ⟨[.decodeFile], rfl,
      fun _ member => .inl (List.mem_singleton.mp member)⟩
  obtain ⟨s', loop, stores, roomNow, stored, files⟩ := decodeFileLoop_stored
    writable ((field ++ [0]).length + 1) (field ++ [0])
    (s := { s with log := .decodeFile :: s.log }) room
  refine ⟨s', ?_, ?_, roomNow, ?_, noted.trans files⟩
  · unfold decodeFile
    dsimp only
    rw [slotted.buf, slotted.len, slotted.crc, Int.toNat_natCast, front, whole,
      if_neg (not_not.mpr rfl), if_neg (not_not.mpr rfl)]
    exact loop
  · obtain ⟨obuf, obufpos, sofar, rumor, w, log, rfl⟩ := stores
    exact ⟨obuf, obufpos, sofar, rumor, w, log, rfl⟩
  · rw [stored, ← decodeMem_terminated]
    rfl

end Slate106.Kermit
