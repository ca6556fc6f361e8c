import Slate106.KermitKeeps
import Slate106.KermitSpelling
import Slate106.KermitWhole

namespace Slate106.Kermit

open CBytes

/-!
# The name in the F packet

`encstr()` reads the name of the file in the buffer that it writes the data
field to.  The field grows over the characters that are still to be read when
it runs ahead of them; as long as each of them is read as it was, the field is
the one of a copy of the name.
-/

variable {ω : Type}

/-! ## What is written behind the field -/

/-- Nothing is written behind the field and its terminator. -/
structure Behind
    (k k' : KData) : Prop where
  place : k.enc.xdata = .xdatabuf
  kept : k'.enc.xdata = .xdatabuf
  longer : k.enc.size ≤ k'.enc.size
  behind : ∀ n, k'.enc.size < n →
    k'.enc.xdatabuf.drop n = k.enc.xdatabuf.drop n
  ipktbuf : k'.ipktbuf = k.ipktbuf

theorem Behind.refl
    {k : KData}
    (place : k.enc.xdata = .xdatabuf) :
    Behind k k :=
  ⟨place, place, Nat.le_refl _, fun _ _ => rfl, rfl⟩

theorem Behind.trans
    {k k' k'' : KData}
    (first : Behind k k')
    (second : Behind k' k'') :
    Behind k k'' where
  place := first.place
  kept := second.kept
  longer := Nat.le_trans first.longer second.longer
  behind n after :=
    (second.behind n after).trans
      (first.behind n (Nat.lt_of_le_of_lt second.longer after))
  ipktbuf := second.ipktbuf.trans first.ipktbuf

/-- A store does not touch what lies behind it. -/
theorem drop_poke_after
    (memory bytes : List UInt8)
    {place n : Nat}
    (after : place + bytes.length ≤ n) :
    (poke memory place bytes).drop n = memory.drop n := by
  have split : n = place + (bytes.length + (n - place - bytes.length)) := by
    omega
  rw [split, ← List.drop_drop, drop_poke, List.drop_append,
    List.drop_eq_nil_of_le (by omega), List.drop_drop]
  simp only [List.nil_append]
  congr 1
  omega

theorem Behind.emit
    {k k' : KData}
    (first : Behind k k')
    (bytes : List UInt8) :
    Behind k (Kermit.emit bytes k') := by
  refine first.trans ?_
  unfold Kermit.emit pokeXdata
  rw [first.kept]
  dsimp only
  exact ⟨first.kept, first.kept, Nat.le_add_right _ _,
    fun _ after => drop_poke_after _ _ (Nat.le_of_lt after), rfl⟩

theorem Behind.terminator
    {k k' : KData}
    (first : Behind k k') :
    Behind k (pokeXdata k'.enc.size [0] k') := by
  refine first.trans ?_
  unfold pokeXdata
  rw [first.kept]
  exact ⟨first.kept, first.kept, Nat.le_refl _,
    fun _ after => drop_poke_after _ _ after, rfl⟩

/-- The counters do not matter. -/
theorem Behind.counters
    {k k' : KData}
    (first : Behind k k')
    (sRpt : Int)
    (osize : Nat) :
    Behind k { k' with enc := { k'.enc with sRpt := sRpt, osize := osize } } :=
  ⟨first.place, first.kept, first.longer, first.behind, first.ipktbuf⟩

theorem Behind.encodeChar
    (io : Io ω)
    (a : UInt8)
    {k : KData}
    {s : Sys ω}
    (first : Behind k s.k) :
    Behind k (Kermit.encodeChar io a s).k := by
  have stored :=
    (first.emit (encodeBytes s.k.cfg s.k.par a)).terminator
  unfold Kermit.encodeChar
  dsimp only
  split
  · obtain ⟨_, _, _, _, _, _, _, -, same⟩ :=
      @transmits_epkt _ io (lit "EKSW encode confused")
        { s with
          k := pokeXdata
            (Kermit.emit (encodeBytes s.k.cfg s.k.par a) s.k).enc.size [0]
            (Kermit.emit (encodeBytes s.k.cfg s.k.par a) s.k) }
    rw [same]
    exact ⟨stored.place, stored.kept, stored.longer, stored.behind,
      stored.ipktbuf⟩
  · exact stored

/-- `encode()` writes the field and its terminator. -/
theorem behind_encode
    (io : Io ω)
    (a : UInt8)
    (next : Option UInt8)
    {s : Sys ω}
    (place : s.k.enc.xdata = .xdatabuf) :
    Behind s.k (encode io a next s).k := by
  have start := Behind.refl place
  unfold encode
  split
  · split
    · dsimp only
      split
      · exact start.counters _ _
      · split
        · exact (((start.counters _ _).emit _).counters 0 _).encodeChar io a
        · exact (start.counters (s.k.enc.sRpt + 1) s.k.enc.osize).encodeChar
            io a (s := { s with k.enc.sRpt := s.k.enc.sRpt + 1 })
    · split
      · have once := (start.counters 0 s.k.enc.osize).encodeChar io a
          (s := { s with k.enc.sRpt := 0 })
        dsimp only
        split
        · exact (once.counters 0 _).encodeChar io a
        · exact (once.counters 0 _).encodeChar io a
      · split
        · exact ((start.emit _).counters 0 _).encodeChar io a
        · exact start.encodeChar io a
  · exact start.encodeChar io a

/-! ## A turn over the buffer -/

/-- The field and its terminator lie in the buffer, over what was there. -/
structure Overlaid
    (orig field : List UInt8)
    (k : KData) : Prop where
  place : k.enc.xdata = .xdatabuf
  memory : k.enc.xdatabuf = field ++ 0 :: orig.drop (field.length + 1)
  size : k.enc.size = field.length

/-- The session after a turn over the buffer that has read `next`. -/
def overlaidTurn
    (orig field : List UInt8)
    (held : Nat)
    (c : UInt8)
    (next : Option UInt8)
    (s : Sys ω) : Sys ω :=
  let longer := field ++ turnBytes s.k.cfg s.k.par held c next
  { s with
    k.enc :=
      { s.k.enc with
        sFirst := if next = none then -1 else s.k.enc.sFirst
        cgetpkt := next
        sRpt := turnHeld s.k.par.rptflg held c next
        size := longer.length
        osize :=
          (field ++ encodeRuns s.k.cfg s.k.par
            (turnRuns s.k.par.rptflg held c next).1).length
        xdatabuf := longer ++ 0 :: orig.drop (longer.length + 1)
        istring := s.k.enc.istring.map fun read => (read.1, read.2 + 1) }
    r.sofarRumor :=
      if next = none then s.r.sofarRumor else s.r.sofarRumor + 1 }

theorem noteChar_eq
    (next : Option UInt8)
    (s : Sys ω) :
    noteChar next s =
      { s with
        k.enc.sFirst := if next = none then -1 else s.k.enc.sFirst
        r.sofarRumor :=
          if next = none then s.r.sofarRumor else s.r.sofarRumor + 1 } := by
  unfold noteChar
  split
  · rfl
  · rfl

/-- The tail of the memory behind a longer field. -/
theorem drop_overlaid
    (field : List UInt8)
    (orig : List UInt8)
    {n : Nat}
    (after : field.length < n) :
    (field ++ 0 :: orig.drop (field.length + 1)).drop n = orig.drop n := by
  have split : n = field.length + ((n - field.length - 1) + 1) := by
    omega
  rw [split, ← List.drop_drop, List.drop_left, List.drop_succ_cons,
    List.drop_drop]
  congr 1
  omega

theorem encode_overlaid
    (io : Io ω)
    {orig field : List UInt8}
    {held : Nat}
    (c : UInt8)
    (next : Option UInt8)
    {s : Sys ω}
    (overlaid : Overlaid orig field s.k)
    (start : s.k.enc.osize = field.length)
    (counted : s.k.enc.sRpt = held)
    (countable : Countable s.k.par.rptflg held)
    (room : field.length + 8 ≤ pPktlen)
    (early : held = 1 → (field.length : Int) + 7 ≤ s.k.par.sMaxlen) :
    let longer := field ++ turnBytes s.k.cfg s.k.par held c next
    encode io c next s =
      { s with
        k.enc :=
          { s.k.enc with
            sRpt := turnHeld s.k.par.rptflg held c next
            size := longer.length
            osize :=
              (field ++ encodeRuns s.k.cfg s.k.par
                (turnRuns s.k.par.rptflg held c next).1).length
            xdatabuf := longer ++ 0 :: orig.drop (longer.length + 1) } } := by
  obtain ⟨place, memory, size⟩ := overlaid
  have holds : Holds field (0 :: orig.drop (field.length + 1)) s.k := by
    refine ⟨?_, size⟩
    unfold xdataMem
    rw [place]
    exact memory
  have behind := behind_encode io c next place
  have counts := @encode_counts _ io held c next s counted
  obtain ⟨k', same, ⟨tail, now, ended⟩, osize, sRpt, writes⟩ :=
    encode_turned io c next holds start counted countable room
      (fun one _ => early one)
  rw [same] at behind counts ⊢
  dsimp only at behind
  obtain ⟨-, kept, longer, behind, ipktbuf⟩ := behind
  have buffer : k'.enc.xdatabuf =
      (field ++ turnBytes s.k.cfg s.k.par held c next) ++ tail := by
    have buffer := now.memory
    unfold xdataMem at buffer
    rw [kept] at buffer
    exact buffer
  have sizeNow : k'.enc.size =
      (field ++ turnBytes s.k.cfg s.k.par held c next).length := now.size
  have first : tail.head? = some 0 := by
    by_cases nothing : (turnRuns s.k.par.rptflg held c next).2 = []
    · have unchanged : k'.enc.xdatabuf = s.k.enc.xdatabuf :=
        congrArg (fun s => s.k.enc.xdatabuf) (counts nothing)
      have empty : turnBytes s.k.cfg s.k.par held c next = [] := by
        unfold turnBytes
        rw [nothing, (turnRuns_nil nothing).1]
        rfl
      rw [unchanged, memory, empty, List.append_nil] at buffer
      rw [← List.append_cancel_left buffer]
      rfl
    · exact ended nothing
  obtain ⟨rest, rfl⟩ := List.head?_eq_some_iff.mp first
  have last : rest = orig.drop
      ((field ++ turnBytes s.k.cfg s.k.par held c next).length + 1) := by
    have after := behind (k'.enc.size + 1) (Nat.lt_succ_self _)
    rw [memory, drop_overlaid field orig (by omega), buffer, sizeNow,
      ← List.drop_drop, List.drop_left] at after
    exact after
  obtain ⟨_, _, _, _, _, rfl⟩ := writes
  dsimp only at osize sRpt sizeNow buffer ipktbuf ⊢
  rw [osize, sRpt, sizeNow, buffer, ipktbuf, last]

theorem turn_overlaid
    (io : Io ω)
    {orig field : List UInt8}
    {held : Nat}
    {s : Sys ω}
    (spelling : Spelling field held s)
    (overlaid : Overlaid orig field s.k)
    (c : UInt8)
    {next : Option UInt8}
    (read : (nextChar io s).1 = next) :
    turn io c s = overlaidTurn orig field held c next s := by
  subst read
  obtain ⟨room, early⟩ := spelling.room
  obtain ⟨string, holds, counted, countable, below, small⟩ := spelling
  obtain ⟨⟨text, offset⟩, string⟩ := Option.ne_none_iff_exists'.mp string
  have read := nextChar_string io string
  unfold turn
  rw [read, noteChar_eq]
  generalize (nextChar io s).1 = next at *
  unfold encodeNext
  dsimp only
  have encoded := @encode_overlaid _ io orig field held c next
    { s with
      k.enc.istring := some (text, offset + 1)
      k.enc.sFirst := if next = none then -1 else s.k.enc.sFirst
      k.enc.osize := s.k.enc.size
      r.sofarRumor :=
        if next = none then s.r.sofarRumor else s.r.sofarRumor + 1 }
    ⟨overlaid.place, overlaid.memory, overlaid.size⟩ overlaid.size counted
    countable room early
  dsimp only at encoded
  rw [encoded]
  unfold overlaidTurn
  dsimp only
  rw [string]
  rfl

/-! ## Reading behind the field -/

/-- The byte at an offset of the buffer when the field lies over `text`. -/
def inPlace
    (text field : List UInt8)
    (offset : Nat) : UInt8 :=
  peek (field ++ 0 :: text.drop (field.length + 1)) offset

/-- A byte of a string as `getpkt()` takes it: NUL is the end. -/
def charOf
    (byte : UInt8) : Option UInt8 :=
  if byte = 0 then none else some byte

theorem charOf_inj
    {byte byte' : UInt8} :
    charOf byte = charOf byte' ↔ byte = byte' := by
  unfold charOf
  constructor
  · intro same
    split at same
    · rename_i zero
      split at same
      · rename_i zero'
        exact zero.trans zero'.symm
      · exact nomatch same
    · split at same
      · exact nomatch same
      · exact Option.some.inj same
  · intro same
    rw [same]

/-- Behind the field and its terminator the text is as it was. -/
theorem inPlace_behind
    (text : List UInt8)
    {field : List UInt8}
    {offset : Nat}
    (after : field.length < offset) :
    inPlace text field offset = peek text offset := by
  have drops := congrArg (peek · 0) (drop_overlaid field text after)
  simp only [peek_drop, Nat.add_zero] at drops
  exact drops

theorem inPlace_left
    {text field rest : List UInt8}
    {offset : Nat}
    (left : text.drop offset = rest)
    (after : field.length < offset) :
    inPlace text field offset = peek rest 0 := by
  rw [inPlace_behind text after, ← left, peek_drop, Nat.add_zero]

/-- Only the string in the buffer and its terminator matter. -/
theorem inPlace_cstr
    {orig : List UInt8}
    (field : List UInt8)
    {offset : Nat}
    (inside : offset ≤ (cstr orig).length) :
    inPlace (cstr orig) field offset = inPlace orig field offset := by
  rcases Nat.lt_trichotomy offset field.length with before | same | after
  · unfold inPlace
    rw [peek_append_left before, peek_append_left before]
  · subst same
    unfold inPlace
    rw [peek_append_cons, peek_append_cons]
  · rw [inPlace_behind _ after, inPlace_behind _ after]
    exact peek_cstr inside

theorem nextChar_overlaid
    (io : Io ω)
    {orig field : List UInt8}
    {offset : Nat}
    {s : Sys ω}
    (overlaid : Overlaid orig field s.k)
    (reads : s.k.enc.istring = some (.xdatabuf, offset)) :
    (nextChar io s).1 = charOf (inPlace orig field offset) := by
  unfold nextChar
  rw [reads]
  show (if peek s.k.enc.xdatabuf offset = 0 then none
    else some (peek s.k.enc.xdatabuf offset)) = _
  rw [overlaid.memory]
  rfl

theorem nextChar_caller
    (io : Io ω)
    {name : List UInt8}
    {offset : Nat}
    {s : Sys ω}
    (reads : s.k.enc.istring = some (.caller name, offset)) :
    (nextChar io s).1 = charOf (peek name offset) := by
  unfold nextChar
  rw [reads]
  rfl

/-- The next character of a string without a NUL. -/
theorem charOf_peek
    {name rest : List UInt8}
    {offset : Nat}
    (clean : 0 ∉ name)
    (left : name.drop offset = rest) :
    charOf (peek name offset) = rest.head? := by
  have first : peek name offset = peek rest 0 := by
    rw [← left, peek_drop]
    rfl
  rw [first]
  cases rest with
  | nil =>
      rfl
  | cons c rest =>
      have member : c ∈ name :=
        List.mem_of_mem_drop (left ▸ List.mem_cons_self ..)
      have nonzero : c ≠ 0 := fun zero => clean (zero ▸ member)
      exact if_neg nonzero

/--
Every character of `rest`, and the terminator, is read from the buffer as it
was before the field was written.
-/
def StaysAhead
    (cfg : Config)
    (p : Params)
    (name : List UInt8) :
    List UInt8 → Nat → Nat → UInt8 → List UInt8 → Prop
  | field, _, offset, _, [] => inPlace name field offset = 0
  | field, held, offset, c, next :: rest =>
      inPlace name field offset = next ∧
        StaysAhead cfg p name
          (field ++ turnBytes cfg p held c (some next))
          (turnHeld p.rptflg held c (some next)) (offset + 1) next rest

/-- The name stays ahead of its own data field. -/
def NameAhead
    (cfg : Config)
    (p : Params) : List UInt8 → Prop
  | [] => True
  | c :: rest => StaysAhead cfg p (c :: rest) [] 0 1 c rest

/-- A turn over a character of one byte does not overtake it. -/
theorem length_turnBytes_le
    {cfg : Config}
    {p : Params}
    {held : Nat}
    (countable : Countable p.rptflg held)
    {c : UInt8}
    (single : (encodeBytes cfg p c).length = 1)
    (next : Option UInt8) :
    (turnBytes cfg p held c next).length + turnHeld p.rptflg held c next ≤
      held + 1 := by
  have small := countable.small
  unfold turnBytes turnRuns turnHeld
  by_cases flag : p.rptflg ≠ 0
  · by_cases same : some c = next
    · by_cases more : held + 1 < 236
      · simp [flag, same, more]
      · simp [flag, same, more, encodeRun, single]
        omega
    · by_cases two : held = 1
      · simp [flag, same, two, encodeRun, single]
      · by_cases none : held = 0
        · simp [flag, same, none, encodeRun, single]
        · simp [flag, same, two, none, encodeRun, single]
          omega
  · simp [flag, encodeRun, single]

theorem staysAhead_of_single
    {cfg : Config}
    {p : Params}
    {name field rest : List UInt8}
    {held offset : Nat}
    {c : UInt8}
    (countable : Countable p.rptflg held)
    (left : name.drop offset = rest)
    (before : field.length + held < offset)
    (single : ∀ d ∈ c :: rest, (encodeBytes cfg p d).length = 1) :
    StaysAhead cfg p name field held offset c rest := by
  induction rest generalizing field held offset c with
  | nil =>
      exact inPlace_left left (by omega)
  | cons next rest inductionHypothesis =>
      have turned := length_turnBytes_le countable
        (single c (List.mem_cons_self ..)) (some next)
      have leftNow : name.drop (offset + 1) = rest := by
        rw [← List.drop_drop, left]
        rfl
      have beforeNow :
          (field ++ turnBytes cfg p held c (some next)).length +
            turnHeld p.rptflg held c (some next) < offset + 1 := by
        rw [List.length_append]
        omega
      exact ⟨inPlace_left left (by omega),
        inductionHypothesis (turnHeld_countable ..) leftNow beforeNow
          (fun d member => single d (List.mem_cons_of_mem _ member))⟩

/-- A name of characters that are sent as they are stays ahead. -/
theorem nameAhead_of_single
    {cfg : Config}
    {p : Params}
    {name : List UInt8}
    (single : ∀ c ∈ name, (encodeBytes cfg p c).length = 1) :
    NameAhead cfg p name := by
  cases name with
  | nil =>
      exact trivial
  | cons c rest =>
      exact staysAhead_of_single (countable_zero _) rfl (by decide) single

/-! ## The buffer and a copy -/

/-- Two sessions that differ in where they read the name. -/
structure Twins
    (name : List UInt8)
    (offset : Nat)
    (s t : Sys ω) : Prop where
  reads : s.k.enc.istring = some (.xdatabuf, offset)
  copy : t = { s with k.enc.istring := some (.caller name, offset) }

theorem Twins.spelling
    {name : List UInt8}
    {offset : Nat}
    {s t : Sys ω}
    (twins : Twins name offset s t)
    {field : List UInt8}
    {held : Nat}
    (spelling : Spelling field held s) :
    Spelling field held t := by
  obtain ⟨-, rfl⟩ := twins
  obtain ⟨string, ⟨tail, memory, size⟩, counted, countable, below, small⟩ :=
    spelling
  exact ⟨Option.some_ne_none _, ⟨tail, memory, size⟩, counted, countable,
    below, small⟩

theorem Twins.overlaid
    {name : List UInt8}
    {offset : Nat}
    {s t : Sys ω}
    (twins : Twins name offset s t)
    {orig field : List UInt8}
    (overlaid : Overlaid orig field s.k) :
    Overlaid orig field t.k := by
  obtain ⟨-, rfl⟩ := twins
  exact ⟨overlaid.place, overlaid.memory, overlaid.size⟩

theorem Spelling.overlaid
    (io : Io ω)
    {orig field : List UInt8}
    {held : Nat}
    {s : Sys ω}
    (spelling : Spelling field held s)
    (overlaid : Overlaid orig field s.k)
    (c : UInt8)
    {next : Option UInt8}
    (read : (nextChar io s).1 = next) :
    Overlaid orig (field ++ turnBytes s.k.cfg s.k.par held c next)
      (turn io c s).k := by
  rw [turn_overlaid io spelling overlaid c read]
  exact ⟨overlaid.place, rfl, rfl⟩

/-- Twins stay twins in a turn that reads the same. -/
theorem Twins.turn
    (io : Io ω)
    {name : List UInt8}
    {offset : Nat}
    {s t : Sys ω}
    (twins : Twins name offset s t)
    {orig field : List UInt8}
    {held : Nat}
    (spelling : Spelling field held s)
    (overlaid : Overlaid orig field s.k)
    (c : UInt8)
    {next : Option UInt8}
    (read : (nextChar io s).1 = next)
    (readCopy : (nextChar io t).1 = next) :
    Twins name (offset + 1) (Kermit.turn io c s) (Kermit.turn io c t) := by
  have turned := turn_overlaid io spelling overlaid c read
  have turnedCopy := turn_overlaid io (twins.spelling spelling)
    (twins.overlaid overlaid) c readCopy
  obtain ⟨reads, rfl⟩ := twins
  rw [turned, turnedCopy]
  refine ⟨?_, ?_⟩
  · unfold overlaidTurn
    dsimp only
    rw [reads]
    rfl
  · rfl

/-- The loop at a character of the name, in the buffer and in a copy. -/
structure AtChar
    (orig field : List UInt8)
    (held offset : Nat)
    (c : UInt8)
    (rest : List UInt8)
    (s t : Sys ω) : Prop where
  spelling : Spelling field held s
  overlaid : Overlaid orig field s.k
  twins : Twins (cstr orig) offset s t
  left : (cstr orig).drop offset = rest
  inside : offset ≤ (cstr orig).length
  room : RoomFor s.k.cfg s.k.par field held c rest

/-- What the next turn reads from the buffer, and from the copy. -/
theorem AtChar.reads
    (io : Io ω)
    {orig field rest : List UInt8}
    {held offset : Nat}
    {c : UInt8}
    {s t : Sys ω}
    (atChar : AtChar orig field held offset c rest s t) :
    (nextChar io s).1 = charOf (inPlace (cstr orig) field offset) ∧
      (nextChar io t).1 = rest.head? := by
  obtain ⟨-, overlaid, ⟨reads, copy⟩, left, inside, -⟩ := atChar
  constructor
  · rw [nextChar_overlaid io overlaid reads, inPlace_cstr field inside]
  · have readsCopy : t.k.enc.istring = some (.caller (cstr orig), offset) := by
      rw [copy]
    rw [nextChar_caller io readsCopy]
    exact charOf_peek (zero_notMem_cstr orig) left

/-- A turn that reads what is left goes on to the next character. -/
theorem AtChar.next
    (io : Io ω)
    {orig field rest : List UInt8}
    {held offset : Nat}
    {c next : UInt8}
    {s t : Sys ω}
    (atChar : AtChar orig field held offset c (next :: rest) s t)
    (read : (nextChar io s).1 = some next) :
    AtChar orig (field ++ turnBytes s.k.cfg s.k.par held c (some next))
        (turnHeld s.k.par.rptflg held c (some next)) (offset + 1) next rest
        (turn io c s) (turn io c t) ∧
      (turn io c s).k.cfg = s.k.cfg ∧
      (turn io c s).k.par = s.k.par := by
  have readCopy := (atChar.reads io).2
  obtain ⟨spelling, overlaid, twins, left, inside, room⟩ := atChar
  obtain ⟨below, roomNow⟩ := room.next
  obtain ⟨cfg, par⟩ := spelling.settings io c
  refine ⟨⟨(spelling.goesOn io c read below).1,
    spelling.overlaid io overlaid c read,
    twins.turn io spelling overlaid c read readCopy, ?_, ?_, ?_⟩, cfg, par⟩
  · rw [← List.drop_drop, left]
    rfl
  · have longer := congrArg List.length left
    rw [List.length_drop, List.length_cons] at longer
    omega
  · rw [cfg, par]
    exact roomNow

theorem AtChar.nonzero
    {orig field rest : List UInt8}
    {held offset : Nat}
    {c next : UInt8}
    {s t : Sys ω}
    (atChar : AtChar orig field held offset c (next :: rest) s t) :
    next ≠ 0 := by
  rintro rfl
  exact zero_notMem_cstr orig
    (List.mem_of_mem_drop (atChar.left ▸ List.mem_cons_self ..))

theorem Twins.settings
    {name : List UInt8}
    {offset : Nat}
    {s t : Sys ω}
    (twins : Twins name offset s t) :
    t.k.cfg = s.k.cfg ∧ t.k.par = s.k.par := by
  obtain ⟨-, rfl⟩ := twins
  exact ⟨rfl, rfl⟩

/-- Both loops go on to the next character. -/
theorem AtChar.loopNext
    (io : Io ω)
    {orig field rest : List UInt8}
    {held offset : Nat}
    {c next : UInt8}
    {s t : Sys ω}
    (atChar : AtChar orig field held offset c (next :: rest) s t)
    (read : (nextChar io s).1 = some next)
    (turns : Nat) :
    getpktLoop io (turns + 1) c s = getpktLoop io turns next (turn io c s) ∧
      getpktLoop io (turns + 1) c t =
        getpktLoop io turns next (turn io c t) := by
  have readCopy := (atChar.reads io).2
  obtain ⟨spelling, -, twins, -, -, room⟩ := atChar
  obtain ⟨cfg, par⟩ := twins.settings
  exact ⟨spelling.loopNext io read room turns,
    (twins.spelling spelling).loopNext io readCopy
      (by rw [cfg, par]; exact room) turns⟩

/-- Both loops end with the name. -/
theorem AtChar.loopEnd
    (io : Io ω)
    {orig field : List UInt8}
    {held offset : Nat}
    {c : UInt8}
    {s t : Sys ω}
    (atChar : AtChar orig field held offset c [] s t)
    (read : (nextChar io s).1 = none)
    (turns : Nat) :
    (getpktLoop io (turns + 1) c s).2 = turn io c s ∧
      (getpktLoop io (turns + 1) c t).2 = turn io c t := by
  have readCopy := (atChar.reads io).2
  obtain ⟨spelling, -, twins, -, -, room⟩ := atChar
  obtain ⟨cfg, par⟩ := twins.settings
  rw [spelling.loopEnd io read room turns,
    (twins.spelling spelling).loopEnd io readCopy
      (by rw [cfg, par]; exact room) turns]
  exact ⟨rfl, rfl⟩

/-- A name that stays ahead is read to its end, and so is the copy. -/
theorem AtChar.ahead
    (io : Io ω)
    {orig field rest : List UInt8}
    {held offset : Nat}
    {c : UInt8}
    {s t : Sys ω}
    (atChar : AtChar orig field held offset c rest s t)
    (ahead : StaysAhead s.k.cfg s.k.par (cstr orig) field held offset c rest)
    (turns : Nat) :
    TurnsRead io rest c s ∧
      ∃ last, Twins (cstr orig) last (getpktLoop io turns c s).2
        (getpktLoop io turns c t).2 := by
  induction rest generalizing field held offset c s t turns with
  | nil =>
      obtain ⟨read, readCopy⟩ := atChar.reads io
      rw [show inPlace (cstr orig) field offset = 0 from ahead] at read
      refine ⟨read, ?_⟩
      cases turns with
      | zero =>
          exact ⟨offset, atChar.twins⟩
      | succ turns =>
          obtain ⟨ended, endedCopy⟩ := atChar.loopEnd io read turns
          rw [ended, endedCopy]
          exact ⟨offset + 1, atChar.twins.turn io atChar.spelling
            atChar.overlaid c read readCopy⟩
  | cons next rest inductionHypothesis =>
      obtain ⟨same, later⟩ := ahead
      have nonzero := atChar.nonzero
      have read := (atChar.reads io).1
      rw [same, charOf, if_neg nonzero] at read
      obtain ⟨atNext, cfg, par⟩ := atChar.next io read
      have nextAhead := fun turns =>
        inductionHypothesis atNext (by rw [cfg, par]; exact later) turns
      refine ⟨⟨read, (nextAhead 0).1⟩, ?_⟩
      cases turns with
      | zero =>
          exact ⟨offset, atChar.twins⟩
      | succ turns =>
          obtain ⟨loop, loopCopy⟩ := atChar.loopNext io read turns
          rw [loop, loopCopy]
          exact (nextAhead turns).2

/-! ## What the loop makes of what it reads -/

/--
The runs that the loop adds to the field stand for a part of what it reads, and
it counts what it reads.
-/
structure Tells
    (io : Io ω)
    (turns : Nat)
    (field : List UInt8)
    (held : Nat)
    (c : UInt8)
    (s s' : Sys ω)
    (runs : List CharRun)
    (read : List UInt8) : Prop where
  memory : ∃ tail,
    xdataMem s'.k = (field ++ encodeRuns s.k.cfg s.k.par runs) ++ 0 :: tail
  said : ∀ run ∈ runs, run.Said s.k.par.rptflg
  front : expand runs <+: List.replicate held c ++ c :: read
  counted : s'.r.sofarRumor = s.r.sofarRumor + read.length
  first : turns ≠ 0 → read.head? = (nextChar io s).1

theorem front_turnRuns
    {rptflg : Int}
    {held : Nat}
    (countable : Countable rptflg held)
    (c : UInt8)
    (next : Option UInt8) :
    expand ((turnRuns rptflg held c next).1 ++
        (turnRuns rptflg held c next).2) <+:
      List.replicate held c ++ c :: next.toList := by
  have whole := expand_turnRuns countable c next
  refine ⟨List.replicate (turnHeld rptflg held c next) c ++ next.toList, ?_⟩
  rw [expand_append, ← List.append_assoc, ← whole]
  simp

theorem turn_counted
    (io : Io ω)
    {orig field : List UInt8}
    {held : Nat}
    {s : Sys ω}
    (spelling : Spelling field held s)
    (overlaid : Overlaid orig field s.k)
    (c : UInt8) :
    (turn io c s).r.sofarRumor =
      s.r.sofarRumor + (nextChar io s).1.toList.length := by
  rw [turn_overlaid io spelling overlaid c rfl]
  unfold overlaidTurn
  dsimp only
  cases (nextChar io s).1 with
  | none =>
      exact (Int.add_zero _).symm
  | some next =>
      rfl

/-- A turn tells what it has read, if the field is not cut back behind it. -/
theorem Spelling.tells
    (io : Io ω)
    {orig field : List UInt8}
    {held : Nat}
    {s : Sys ω}
    (spelling : Spelling field held s)
    (overlaid : Overlaid orig field s.k)
    (c : UInt8)
    (turns : Nat) :
    Tells io turns field held c s (turn io c s)
      ((turnRuns s.k.par.rptflg held c (nextChar io s).1).1 ++
        (turnRuns s.k.par.rptflg held c (nextChar io s).1).2)
      (nextChar io s).1.toList := by
  obtain ⟨tail, holds⟩ := (spelling.turned io c rfl).holds
  obtain ⟨early, late⟩ :=
    said_turnRuns spelling.countable c (nextChar io s).1
  refine ⟨⟨tail, ?_⟩, ?_, front_turnRuns spelling.countable c _,
    turn_counted io spelling overlaid c, fun _ => ?_⟩
  · rw [encodeRuns_append]
    exact holds.memory
  · intro run member
    rcases List.mem_append.mp member with member | member
    · exact early run member
    · exact late run member
  · cases (nextChar io s).1 <;> rfl

/-- The same when the turn went past the end of the packet. -/
theorem Spelling.tells_cut
    (io : Io ω)
    {orig field : List UInt8}
    {held : Nat}
    {s : Sys ω}
    (spelling : Spelling field held s)
    (overlaid : Overlaid orig field s.k)
    (c : UInt8)
    (turns : Nat) :
    Tells io turns field held c s
      { turn io c s with k := cutBack (turn io c s).k }
      (turnRuns s.k.par.rptflg held c (nextChar io s).1).1
      (nextChar io s).1.toList := by
  obtain ⟨⟨tail, memory⟩, said, front, counted, first⟩ :=
    spelling.tells io overlaid c turns
  have osize := (spelling.spellTurn io c).osize
  refine ⟨?_, fun run member => said run (List.mem_append_left _ member), ?_,
    counted, first⟩
  · rw [encodeRuns_append, ← List.append_assoc,
      List.append_assoc (field ++ _)] at memory
    have stored : xdataMem (cutBack (turn io c s).k) =
        poke (xdataMem (turn io c s).k) (turn io c s).k.enc.osize [0] := by
      unfold cutBack
      rw [xdataMem_pokeXdata]
      rfl
    rw [osize, memory] at stored
    exact ⟨_, stored.trans (poke_end _ _ [0])⟩
  · refine List.IsPrefix.trans ?_ front
    rw [expand_append]
    exact List.prefix_append _ _

/-- What is said after a turn is said after what the turn tells. -/
theorem Tells.after
    {io : Io ω}
    {orig field : List UInt8}
    {held : Nat}
    {c next : UInt8}
    {s s' : Sys ω}
    {runs : List CharRun}
    {read : List UInt8}
    {turns : Nat}
    (spelling : Spelling field held s)
    (overlaid : Overlaid orig field s.k)
    (reads : (nextChar io s).1 = some next)
    (tells :
      Tells io turns (field ++ turnBytes s.k.cfg s.k.par held c (some next))
        (turnHeld s.k.par.rptflg held c (some next)) next (turn io c s) s'
        runs read) :
    Tells io (turns + 1) field held c s s'
      (((turnRuns s.k.par.rptflg held c (some next)).1 ++
        (turnRuns s.k.par.rptflg held c (some next)).2) ++ runs)
      (next :: read) := by
  obtain ⟨cfg, par⟩ := spelling.settings io c
  have whole := expand_turnRuns spelling.countable c (some next)
  have before := spelling.tells io overlaid c 1
  rw [reads] at before
  obtain ⟨⟨tail, memory⟩, said, ⟨more, front⟩, counted, first⟩ := tells
  rw [cfg, par] at memory
  rw [par] at said
  refine ⟨⟨tail, ?_⟩, ?_, ⟨more, ?_⟩, ?_, fun _ => reads.symm⟩
  · rw [memory, encodeRuns_append, encodeRuns_append]
    simp [turnBytes]
  · intro run member
    rcases List.mem_append.mp member with member | member
    · exact before.said run member
    · exact said run member
  · rw [expand_append, List.append_assoc, front, ← replicate_turnHeld,
      expand_append, ← List.append_assoc, ← whole]
    simp
  · rw [counted, before.counted]
    simp only [Option.toList_some, List.length_cons, List.length_nil]
    omega

theorem getpktLoop_tells
    (io : Io ω)
    {turns : Nat}
    {orig field : List UInt8}
    {held : Nat}
    {c : UInt8}
    {s : Sys ω}
    (spelling : Spelling field held s)
    (overlaid : Overlaid orig field s.k) :
    ∃ runs read,
      Tells io turns field held c s (getpktLoop io turns c s).2 runs read := by
  induction turns generalizing field held c s with
  | zero =>
      obtain ⟨tail, holds⟩ := spelling.holds
      refine ⟨[], [], ⟨tail, ?_⟩, by simp, List.nil_prefix, ?_,
        fun some => absurd rfl some⟩
      · rw [encodeRuns_nil, List.append_nil]
        exact holds.memory
      · exact (Int.add_zero _).symm
  | succ turns inductionHypothesis =>
      obtain ⟨tail, holds⟩ := (spelling.turned io c rfl).holds
      have size := holds.size
      rw [getpktLoop_succ]
      dsimp only
      rw [(spelling.settings io c).2]
      split
      · exact ⟨_, _, spelling.tells io overlaid c _⟩
      · rename_i notFull
        split
        · exact ⟨_, _, spelling.tells_cut io overlaid c _⟩
        · rename_i notBeyond
          cases read : (nextChar io s).1 with
          | none =>
              exact ⟨_, _, spelling.tells io overlaid c _⟩
          | some next =>
              rw [read] at size
              obtain ⟨spellingNow, -⟩ :=
                spelling.goesOn io c read (by omega)
              obtain ⟨runs, read', tells⟩ := inductionHypothesis spellingNow
                (spelling.overlaid io overlaid c read) (c := next)
              exact ⟨_, _, tells.after spelling overlaid read⟩

/-! ## A name that does not stay ahead -/

/-- What has been written of the name before a turn. -/
structure Written
    (name field : List UInt8)
    (held : Nat)
    (c : UInt8)
    (rest : List UInt8)
    (k : KData)
    (runs : List CharRun) : Prop where
  field : field = encodeRuns k.cfg k.par runs
  said : ∀ run ∈ runs, run.Said k.par.rptflg
  whole : expand runs ++ (List.replicate held c ++ c :: rest) = name

theorem Written.next
    {name field rest : List UInt8}
    {held : Nat}
    {c next : UInt8}
    {k k' : KData}
    {runs : List CharRun}
    (written : Written name field held c (next :: rest) k runs)
    (countable : Countable k.par.rptflg held)
    (cfg : k'.cfg = k.cfg)
    (par : k'.par = k.par) :
    Written name (field ++ turnBytes k.cfg k.par held c (some next))
      (turnHeld k.par.rptflg held c (some next)) next rest k'
      (runs ++ ((turnRuns k.par.rptflg held c (some next)).1 ++
        (turnRuns k.par.rptflg held c (some next)).2)) := by
  obtain ⟨rfl, said, rfl⟩ := written
  obtain ⟨early, late⟩ := said_turnRuns countable c (some next)
  have turned := expand_turnRuns countable c (some next)
  refine ⟨?_, ?_, ?_⟩
  · rw [cfg, par, encodeRuns_append, encodeRuns_append]
    rfl
  · rw [par]
    intro run member
    rcases List.mem_append.mp member with member | member
    · exact said run member
    · rcases List.mem_append.mp member with member | member
      · exact early run member
      · exact late run member
  · rw [← replicate_turnHeld, expand_append, List.append_assoc,
      expand_append, ← List.append_assoc _ _ (next :: rest), ← turned]
    simp

/-- What the loop has left in the buffer stands for a part of what it read. -/
theorem Written.decoded
    {io : Io ω}
    {name field rest : List UInt8}
    {held : Nat}
    {c : UInt8}
    {s s' : Sys ω}
    {p' : Params}
    {runs more : List CharRun}
    {read : List UInt8}
    {turns : Nat}
    (encoding : PlainEncoding s.k.cfg s.k.par)
    (decoding : PlainDecoding s.k.par p')
    (written : Written name field held c rest s.k runs)
    (tells : Tells io turns field held c s s' more read)
    (decoded : decodeMem p' (cstr (xdataMem s'.k)) = name) :
    rest <+: read := by
  obtain ⟨rfl, said, rfl⟩ := written
  obtain ⟨⟨tail, memory⟩, saidMore, front, -, -⟩ := tells
  have saidAll : ∀ run ∈ runs ++ more, run.Said s.k.par.rptflg := by
    intro run member
    rcases List.mem_append.mp member with member | member
    · exact said run member
    · exact saidMore run member
  rw [memory, ← encodeRuns_append,
    cstr_append_zero (encoding.packable.runs saidAll),
    decodeMem_plain encoding decoding saidAll, expand_append] at decoded
  rw [List.append_cancel_left decoded, List.prefix_append_right_inj,
    List.cons_prefix_cons] at front
  exact front.2

/--
When a character is not read as it was, the field does not stand for the name,
or the count of characters differs from that for a copy.
-/
theorem AtChar.misread
    (io : Io ω)
    {orig field rest : List UInt8}
    {held offset : Nat}
    {c : UInt8}
    {s t : Sys ω}
    {p' : Params}
    {runs : List CharRun}
    {turns : Nat}
    (encoding : PlainEncoding s.k.cfg s.k.par)
    (decoding : PlainDecoding s.k.par p')
    (atChar : AtChar orig field held offset c rest s t)
    (written : Written (cstr orig) field held c rest s.k runs)
    (some : turns ≠ 0)
    (misread : charOf (inPlace (cstr orig) field offset) ≠ rest.head?) :
    decodeMem p' (cstr (xdataMem (getpktLoop io turns c s).2.k)) ≠
        cstr orig ∨
      (getpktLoop io turns c s).2.r.sofarRumor ≠
        (getpktLoop io turns c t).2.r.sofarRumor := by
  obtain ⟨read, readCopy⟩ := atChar.reads io
  obtain ⟨more, chars, tells⟩ :=
    @getpktLoop_tells _ io turns _ _ _ c _ atChar.spelling atChar.overlaid
  have first := tells.first some
  rw [read] at first
  rw [← first] at misread
  by_cases decoded :
      decodeMem p' (cstr (xdataMem (getpktLoop io turns c s).2.k)) = cstr orig
  · right
    have front := written.decoded encoding decoding tells decoded
    cases rest with
    | cons next rest =>
        obtain ⟨later, rfl⟩ := front
        exact absurd rfl misread
    | nil =>
        obtain ⟨moreCopy, charsCopy, tellsCopy⟩ :=
          @getpktLoop_tells _ io turns _ _ _ c _
            (atChar.twins.spelling atChar.spelling)
            (atChar.twins.overlaid atChar.overlaid)
        have none := tellsCopy.first some
        rw [readCopy] at none
        have counted := tells.counted
        have countedCopy := tellsCopy.counted
        have sameCount : t.r.sofarRumor = s.r.sofarRumor := by
          rw [atChar.twins.copy]
        rw [List.head?_eq_none_iff.mp none, sameCount] at countedCopy
        have nonempty : 0 < chars.length :=
          List.length_pos_iff.mpr fun empty => misread (empty ▸ rfl)
        rw [counted, countedCopy]
        simp only [List.length_nil]
        omega
  · exact .inl decoded

theorem AtChar.behind
    (io : Io ω)
    {orig field rest : List UInt8}
    {held offset : Nat}
    {c : UInt8}
    {s t : Sys ω}
    {p' : Params}
    {runs : List CharRun}
    {turns : Nat}
    (encoding : PlainEncoding s.k.cfg s.k.par)
    (decoding : PlainDecoding s.k.par p')
    (atChar : AtChar orig field held offset c rest s t)
    (written : Written (cstr orig) field held c rest s.k runs)
    (enough : turnsLeft s.k.par field.length held < turns)
    (behind :
      ¬ StaysAhead s.k.cfg s.k.par (cstr orig) field held offset c rest) :
    decodeMem p' (cstr (xdataMem (getpktLoop io turns c s).2.k)) ≠
        cstr orig ∨
      (getpktLoop io turns c s).2.r.sofarRumor ≠
        (getpktLoop io turns c t).2.r.sofarRumor := by
  induction rest generalizing field held offset c s t runs turns with
  | nil =>
      refine atChar.misread io encoding decoding written (by omega) ?_
      exact fun none => behind (charOf_inj.mp none)
  | cons next rest inductionHypothesis =>
      by_cases same : inPlace (cstr orig) field offset = next
      · cases turns with
        | zero =>
            exact absurd enough (Nat.not_lt_zero _)
        | succ turns =>
            have nonzero := atChar.nonzero
            have read := (atChar.reads io).1
            rw [same, charOf, if_neg nonzero] at read
            obtain ⟨atNext, cfg, par⟩ := atChar.next io read
            obtain ⟨loop, loopCopy⟩ := atChar.loopNext io read turns
            obtain ⟨-, fewer⟩ :=
              atChar.spelling.goesOn io c read atChar.room.next.1
            rw [loop, loopCopy]
            refine inductionHypothesis (by rw [cfg, par]; exact encoding)
              (by rw [par]; exact decoding) atNext
              (written.next atChar.spelling.countable cfg par)
              (by rw [par]; omega) ?_
            rw [cfg, par]
            exact fun later => behind ⟨same, later⟩
      · refine atChar.misread io encoding decoding written (by omega) ?_
        intro read
        unfold charOf at read
        split at read
        · exact nomatch read
        · exact same (Option.some.inj read)

/-! ## Encoding the name -/

/-- The whole name has room in a data field. -/
def NameFits
    (cfg : Config)
    (p : Params)
    (name : List UInt8) : Prop :=
  ((encodeRuns cfg p (textRuns p.rptflg name)).length : Int) ≤ getpktMaxlen p

/-- A session in which the name in the buffer is encoded into the buffer. -/
structure EncodesName
    (s : Sys ω) : Prop where
  noForce : s.k.cfg.bcta3 = 0
  place : s.k.enc.xdata = .xdatabuf
  counted : s.k.enc.sRpt = 0
  small : s.k.par.sMaxlen ≤ pPktlen

/-- `getpkt()` puts a terminator in front of the buffer. -/
theorem copyRemain_overlaid
    {k : KData}
    (place : k.enc.xdata = .xdatabuf)
    (nothing : k.enc.sRemain = []) :
    copyRemain k =
      { k with
        enc :=
          { k.enc with
            size := 0, sRemain := []
            xdatabuf := 0 :: k.enc.xdatabuf.drop 1 } } := by
  unfold copyRemain pokeXdata
  rw [place, nothing]
  dsimp only
  rw [poke_zero]
  rfl

/-- The two loops begin with the second character. -/
theorem EncodesName.atChar
    {s : Sys ω}
    (encodes : EncodesName s)
    {c : UInt8}
    {rest : List UInt8}
    (name : cstr s.k.enc.xdatabuf = c :: rest)
    (fits : NameFits s.k.cfg s.k.par (c :: rest)) :
    AtChar s.k.enc.xdatabuf [] 0 1 c rest
      (begun .xdatabuf (rewound .xdatabuf s))
      (begun (.caller (c :: rest)) (rewound (.caller (c :: rest)) s)) := by
  obtain ⟨noForce, place, counted, small⟩ := encodes
  obtain ⟨-, spelling, reads⟩ :=
    @begun_string _ (rewound .xdatabuf s) .xdatabuf counted small
  have first : peek s.k.enc.xdatabuf 0 = c := by
    rw [← peek_cstr (Nat.zero_le _), name]
    rfl
  have data := @copyRemain_overlaid
    (firstRead .xdatabuf (rewound .xdatabuf s)).k place rfl
  have dataCopy := @copyRemain_overlaid
    (firstRead (.caller (c :: rest)) (rewound (.caller (c :: rest)) s)).k
    place rfl
  refine ⟨spelling, ⟨?_, ?_, ?_⟩, ⟨reads, ?_⟩, ?_, ?_, ?_⟩
  · unfold begun
    rw [data]
    exact place
  · unfold begun
    rw [data]
    rfl
  · unfold begun
    rw [data]
    rfl
  · unfold begun
    rw [data, dataCopy, name]
    unfold firstRead rewound derefAt
    dsimp only
    rw [first]
    rfl
  · rw [name]
    rfl
  · rw [name]
    exact Nat.succ_le_succ (Nat.zero_le _)
  · unfold begun
    rw [data]
    exact fits

/-- A loop over the first character of a name, in the buffer and in a copy. -/
theorem EncodesName.loops
    (io : Io ω)
    {s : Sys ω}
    (encodes : EncodesName s)
    {c : UInt8}
    {rest : List UInt8}
    (name : cstr s.k.enc.xdatabuf = c :: rest) :
    getpkt io (rewound .xdatabuf s) =
        getpktLoop io getpktFuel c (begun .xdatabuf (rewound .xdatabuf s)) ∧
      getpkt io (rewound (.caller (c :: rest)) s) =
        getpktLoop io getpktFuel c
          (begun (.caller (c :: rest)) (rewound (.caller (c :: rest)) s)) := by
  have first : peek s.k.enc.xdatabuf 0 = c := by
    rw [← peek_cstr (Nat.zero_le _), name]
    rfl
  have nonzero : c ≠ 0 := by
    rintro rfl
    exact zero_notMem_cstr s.k.enc.xdatabuf (name ▸ List.mem_cons_self ..)
  have loop := @getpkt_string _ io (rewound .xdatabuf s) .xdatabuf
    encodes.noForce rfl rfl (by rw [← first] at nonzero; exact nonzero)
  have read : derefAt (rewound .xdatabuf s) 0 .xdatabuf = c := first
  rw [read] at loop
  exact ⟨loop, @getpkt_string _ io (rewound (.caller (c :: rest)) s)
    (.caller (c :: rest)) encodes.noForce rfl rfl nonzero⟩

/-- The empty name is encoded alike. -/
theorem EncodesName.empty
    (io : Io ω)
    {s : Sys ω}
    (encodes : EncodesName s)
    (name : cstr s.k.enc.xdatabuf = []) :
    encstr io .xdatabuf s = encstr io (.caller []) s ∧
      cstr (xdataMem (encstr io .xdatabuf s).2.k) = [] := by
  have first : peek s.k.enc.xdatabuf 0 = 0 := by
    rw [← peek_cstr (Nat.zero_le _), name]
    rfl
  rw [encstr_eq, encstr_eq,
    @getpkt_empty _ io (rewound .xdatabuf s) .xdatabuf encodes.noForce rfl rfl
      first,
    @getpkt_empty _ io (rewound (.caller []) s) (.caller []) encodes.noForce
      rfl rfl rfl]
  refine ⟨rfl, ?_⟩
  unfold sealed xdataMem rewound
  dsimp only
  rw [encodes.place]
  exact name

theorem EncodesName.settings
    {s : Sys ω}
    (encodes : EncodesName s) :
    (begun .xdatabuf (rewound .xdatabuf s)).k.cfg = s.k.cfg ∧
      (begun .xdatabuf (rewound .xdatabuf s)).k.par = s.k.par := by
  have begins := @begun_string _ (rewound .xdatabuf s) .xdatabuf
    encodes.counted encodes.small
  obtain ⟨_, _, _, same, _⟩ := begins.spells
  rw [same]
  exact ⟨rfl, rfl⟩

/-- A name that stays ahead is encoded whole, and as a copy of it would be. -/
theorem encstr_ahead
    (io : Io ω)
    {s : Sys ω}
    (encodes : EncodesName s)
    (fits : NameFits s.k.cfg s.k.par (cstr s.k.enc.xdatabuf))
    (ahead : NameAhead s.k.cfg s.k.par (cstr s.k.enc.xdatabuf)) :
    encstr io .xdatabuf s = encstr io (.caller (cstr s.k.enc.xdatabuf)) s ∧
      cstr (xdataMem (encstr io .xdatabuf s).2.k) =
        cstr (encodeRuns s.k.cfg s.k.par
          (textRuns s.k.par.rptflg (cstr s.k.enc.xdatabuf))) := by
  cases name : cstr s.k.enc.xdatabuf with
  | nil =>
      exact encodes.empty io name
  | cons c rest =>
      rw [name] at fits ahead
      obtain ⟨cfg, par⟩ := encodes.settings
      obtain ⟨loop, loopCopy⟩ := encodes.loops io name
      have atChar := encodes.atChar name fits
      obtain ⟨reads, last, -, same⟩ :=
        atChar.ahead io (by rw [cfg, par, name]; exact ahead) getpktFuel
      obtain ⟨-, tail, holds⟩ := getpktLoop_fits io atChar.spelling reads
        atChar.room (turnsLeft_lt_getpktFuel atChar.spelling.small _ _)
      have memory := holds.memory
      rw [cfg, par, List.nil_append] at memory
      rw [encstr_eq, encstr_eq, loop, loopCopy, same]
      refine ⟨rfl, ?_⟩
      show cstr (xdataMem (getpktLoop io getpktFuel c
        (begun .xdatabuf (rewound .xdatabuf s))).2.k) = _
      rw [memory, cstr_append_terminated]
      rfl

/-- A name that does not stay ahead is not encoded as a copy of it would be. -/
theorem encstr_behind
    (io : Io ω)
    {s : Sys ω}
    (encodes : EncodesName s)
    {p' : Params}
    (encoding : PlainEncoding s.k.cfg s.k.par)
    (decoding : PlainDecoding s.k.par p')
    (fits : NameFits s.k.cfg s.k.par (cstr s.k.enc.xdatabuf))
    (behind : ¬ NameAhead s.k.cfg s.k.par (cstr s.k.enc.xdatabuf)) :
    decodeMem p' (cstr (xdataMem (encstr io .xdatabuf s).2.k)) ≠
        cstr s.k.enc.xdatabuf ∨
      encstr io .xdatabuf s ≠
        encstr io (.caller (cstr s.k.enc.xdatabuf)) s := by
  cases name : cstr s.k.enc.xdatabuf with
  | nil =>
      rw [name] at behind
      exact absurd trivial behind
  | cons c rest =>
      rw [name] at fits behind
      obtain ⟨cfg, par⟩ := encodes.settings
      obtain ⟨loop, loopCopy⟩ := encodes.loops io name
      have atChar := encodes.atChar name fits
      have written : Written (cstr s.k.enc.xdatabuf) [] 0 c rest
          (begun .xdatabuf (rewound .xdatabuf s)).k [] :=
        ⟨rfl, by simp, name.symm⟩
      have differs := atChar.behind io (by rw [cfg, par]; exact encoding)
        (by rw [par]; exact decoding) written
        (turnsLeft_lt_getpktFuel atChar.spelling.small _ _)
        (by rw [cfg, par, name]; exact behind)
      rw [name] at differs
      rw [encstr_eq, encstr_eq, loop, loopCopy]
      refine differs.imp_right fun counts same => counts ?_
      exact congrArg (fun result => result.2.r.sofarRumor) same

/-! ## The F packet after the ACK to S -/

/--
The name stays ahead of its data field, and each of its runs is read back by
one turn of `decode()` with the parameters of the peer.
-/
structure NameSafe
    (cfg : Config)
    (q : Params)
    (name : List UInt8) : Prop where
  ahead : NameAhead cfg q name
  reads : ∀ run ∈ textRuns q.rptflg name,
    0 ∉ encodeRun cfg q run ∧ ReadsRun cfg q (peerParams cfg q) id run

/-- Without 8th-bit prefixes every run of a name is read back. -/
theorem NameSafe.of_plain
    {cfg : Config}
    {q : Params}
    {name : List UInt8}
    (encoding : PlainEncoding cfg q)
    (decoding : PlainDecoding q (peerParams cfg q))
    (ahead : NameAhead cfg q name) :
    NameSafe cfg q name where
  ahead := ahead
  reads run member :=
    have said := said_textRuns q.rptflg name run member
    ⟨(encoding.packable.run said).2.2, readsRun_plain encoding decoding said⟩

/-- The field of a safe name stands for the name. -/
theorem NameSafe.decoded
    {cfg : Config}
    {q : Params}
    {name : List UInt8}
    (safe : NameSafe cfg q name) :
    decodeMem (peerParams cfg q)
        (cstr (encodeRuns cfg q (textRuns q.rptflg name))) = name := by
  have clean : 0 ∉ encodeRuns cfg q (textRuns q.rptflg name) := by
    simp only [encodeRuns, List.mem_flatMap]
    rintro ⟨run, inRuns, inRun⟩
    exact (safe.reads run inRuns).1 inRun
  rw [cstr_of_notMem clean,
    decodeMem_runs (fun run member => (safe.reads run member).1)
      (fun run member => (safe.reads run member).2),
    List.map_id, expand_textRuns]

/--
The one packet that was sent is F and names the file, and the name is encoded
in the buffer as a copy of it would be.
-/
structure FileNamed
    {σ : Type}
    (os : Os σ)
    (q : Params)
    (s s' : Sys (Unix σ)) : Prop where
  decoded : ∃ frame, newTxds s.log s'.log = [frame] ∧
    frameType frame = ch 'F' ∧
    decodeMem (peerParams s.k.cfg q) (frameData q.bct frame) =
      cstr s.k.enc.xdatabuf
  copied : ∀ t, Naming q s t →
    encstr (unixio os) .xdatabuf t =
      encstr (unixio os) (.caller (cstr s.k.enc.xdatabuf)) t

theorem Naming.encodes
    {q : Params}
    {s t : Sys ω}
    (naming : Naming q s t)
    (noForce : s.k.cfg.bcta3 = 0)
    (small : q.sMaxlen ≤ pPktlen) :
    EncodesName t where
  noForce := naming.cfg ▸ noForce
  place := naming.place
  counted := naming.counted
  small := naming.par ▸ small

/--
After the ACK to S the F packet names the file when the name is safe; without
8th-bit prefixes, and with distinct prefixes, only then.
-/
theorem fileNamed_iff
    {σ : Type}
    {os : Os σ}
    (linked : Linked (unixio os))
    {k : KData}
    (requested : Requested k)
    {rx : Rx}
    {p : Rcvd}
    {buf : List UInt8}
    (ack : ValidAck k.sSeq (heardData rx k) rx.ret p buf)
    {v : MainVars (Unix σ)}
    {w : σ}
    (start : GetStart os k v w)
    (fits :
      NameFits k.cfg (negotiated k p buf) (cstr k.enc.xdatabuf)) :
    (NameSafe k.cfg (negotiated k p buf) (cstr k.enc.xdatabuf) →
      FileNamed os (negotiated k p buf) v.sys
        (mainIter (unixio os) rx v).sys) ∧
    ((negotiated k p buf).ebqflg = 0 →
      DistinctPrefixes k.cfg (negotiated k p buf) →
      FileNamed os (negotiated k p buf) v.sys
        (mainIter (unixio os) rx v).sys →
      NameSafe k.cfg (negotiated k p buf) (cstr k.enc.xdatabuf)) := by
  have negotiable : Negotiable (negotiated k p buf) :=
    sparParams_negotiable requested.negotiable _ _
  obtain ⟨-, -, t, naming, more, seq, log, frames⟩ :=
    mainIter_announced linked requested ack start
  obtain ⟨rfl, -, -⟩ := start
  have noForce := requested.awaiting.wf.noForce
  have encodes := fun {t} (naming : Naming _ v.sys t) =>
    naming.encodes noForce negotiable.small
  generalize negotiated v.sys.k p buf = q at *
  have sent : newTxds v.sys.log (mainIter (unixio os) rx v).sys.log =
      [pktFrame q (ch 'F') seq
        (cstr (xdataMem (encstr (unixio os) .xdatabuf t).2.k))] := by
    rw [log, newTxds_append, frames]
    rfl
  constructor
  · intro safe
    have ahead : ∀ t, Naming q v.sys t → _ := fun t naming =>
      encstr_ahead (unixio os) (encodes naming)
        (by rw [naming.cfg, naming.par, naming.text]; exact fits)
        (by rw [naming.cfg, naming.par, naming.text]; exact safe.ahead)
    refine ⟨⟨_, sent, frameType_pktFrame _ _ _ _, ?_⟩, fun t naming => ?_⟩
    · rw [frameData_pktFrame negotiable.check, (ahead t naming).2, naming.cfg,
        naming.par, naming.text]
      exact safe.decoded
    · rw [← naming.text]
      exact (ahead t naming).1
  · intro noEbq distinct named
    obtain ⟨encoding, decoding⟩ :=
      negotiable.plain requested.ctlq distinct noEbq
    refine .of_plain encoding decoding ?_
    by_contra behind
    obtain ⟨⟨frame, only, -, decoded⟩, copied⟩ := named
    rw [sent, List.singleton_inj] at only
    rw [← only, frameData_pktFrame negotiable.check] at decoded
    have differs := @encstr_behind _ (unixio os) t (encodes naming)
      (peerParams v.sys.k.cfg q)
      (by rw [naming.cfg, naming.par]; exact encoding)
      (by rw [naming.par]; exact decoding)
      (by rw [naming.cfg, naming.par, naming.text]; exact fits)
      (by rw [naming.cfg, naming.par, naming.text]; exact behind)
    rw [naming.text] at differs
    rcases differs with lost | other
    · exact lost decoded
    · exact other (copied t naming)

/-- `fileNamed_iff` for the file `f`. -/
theorem fileNamed_iff_letter :
    let k := requestedGet.sys.k
    let rx := packetOf (ch 'Y') 0 (lit "~")
    let q := negotiated k lengthRcvd (lengthBuf rx)
    (NameSafe k.cfg q (cstr k.enc.xdatabuf) →
      FileNamed fileOs q requestedGet.sys
        (mainIter (unixio fileOs) rx requestedGet).sys) ∧
    (q.ebqflg = 0 →
      DistinctPrefixes k.cfg q →
      FileNamed fileOs q requestedGet.sys
        (mainIter (unixio fileOs) rx requestedGet).sys →
      NameSafe k.cfg q (cstr k.enc.xdatabuf)) := by
  have ack : ValidAck requestedGet.sys.k.sSeq
      (heardData (packetOf (ch 'Y') 0 (lit "~")) requestedGet.sys.k)
      (packetOf (ch 'Y') 0 (lit "~")).ret lengthRcvd
      (lengthBuf (packetOf (ch 'Y') 0 (lit "~"))) :=
    ⟨by decide, by decide +kernel, rfl, by decide +kernel⟩
  exact fileNamed_iff (w := lit "###") fileOs_server.served.linked
    requestedGet_requested ack ⟨rfl, by decide +kernel, rfl⟩
    (show _ ≤ _ by decide +kernel)

/-- A server has accepted an R packet with the field `a#bc`. -/
def quotedGet : MainVars (Unix (List UInt8)) :=
  mainIter (unixio fileOs) (packetOf (ch 'R') 0 (lit "a#bc"))
    (mainStart (unixio fileOs) .wait []
      (ekInit (unixio fileOs) []
        { os := lit "x", ofile := -1, ifile := false, calls := [] }))

/-- What it negotiates with the ACK to S. -/
def quotedParams : Params :=
  negotiated quotedGet.sys.k lengthRcvd
    (poke
      (heardData (packetOf (ch 'Y') 0 (lit "~")) quotedGet.sys.k).ipktbuf 4
      [0])

/--
The server has the name `a#bc`, which would fit the F packet, and sends the
field `a##b`: the second character of the quoted `#` and the terminator lie
over what is to be read.
-/
theorem quoted_name_cut :
    let s := quotedGet.sys
    let s' :=
      (mainIter (unixio fileOs) (packetOf (ch 'Y') 0 (lit "~")) quotedGet).sys
    quotedGet.ret = none ∧
      cstr s.k.enc.xdatabuf = lit "a#bc" ∧
      NameFits s.k.cfg quotedParams (lit "a#bc") ∧
      (newTxds s.log s'.log).map (frameData quotedParams.bct) =
        [lit "a##b"] ∧
      ¬ FileNamed fileOs quotedParams s s' := by
  refine ⟨by decide +kernel, by decide +kernel,
    show _ ≤ _ by decide +kernel, by decide +kernel, ?_⟩
  rintro ⟨⟨frame, only, -, decoded⟩, -⟩
  have lost :
      (newTxds quotedGet.sys.log
          (mainIter (unixio fileOs) (packetOf (ch 'Y') 0 (lit "~"))
            quotedGet).sys.log).map
        (fun frame =>
          decodeMem (peerParams quotedGet.sys.k.cfg quotedParams)
            (frameData quotedParams.bct frame)) ≠
        [cstr quotedGet.sys.k.enc.xdatabuf] := by
    decide +kernel
  rw [only] at lost
  exact lost (congrArg ([·]) decoded)

end Slate106.Kermit
