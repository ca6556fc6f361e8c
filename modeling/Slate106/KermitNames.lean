import Slate106.KermitMoves

namespace Slate106.Kermit

open CBytes

/-!
# Calls that name a file

`accessf`, `openf` for reading and `getdirdata` lead to a path below them.
Most functions of the machine make no such call and keep the file list; `asks`
is what they keep, and these facts are simp lemmas.
-/

variable {ω : Type}

/-- A call that hands a path to the file system. -/
def pathCall : Call → Bool
  | .openf _ mode _ => mode == 1
  | .accessf .. => true
  | .getdirdata _ => true
  | _ => false

/-- The names that are still to be opened, and the calls with a path so far. -/
def asks
    (s : Sys ω) : List StrRef × List Call :=
  (s.k.filelist, s.log.filter pathCall)

/-- The same, and the buffer that holds the name of a request. -/
def namedAsks
    (s : Sys ω) : List UInt8 × List StrRef × List Call :=
  (s.k.enc.xdatabuf, asks s)

section Functions

variable {io : Io ω}

/-! ## Sending packets -/

@[simp] theorem namedAsks_callTxd
    (bytes : List UInt8)
    (s : Sys ω) :
    namedAsks (callTxd io bytes s).2 = namedAsks s :=
  rfl

@[simp] theorem namedAsks_setBct
    (bct : Nat)
    (s : Sys ω) :
    namedAsks (setBct bct s) = namedAsks s :=
  rfl

@[simp] theorem namedAsks_forceBcta3
    (s : Sys ω) :
    namedAsks { s with k := forceBcta3 s.k } = namedAsks s := by
  unfold forceBcta3
  split <;> rfl

theorem namedAsks_getSslot
    (s : Sys ω) :
    namedAsks { s with k := (getSslot s.k).2 } = namedAsks s := by
  unfold getSslot
  split <;> rfl

@[simp] theorem namedAsks_takeSslot
    (s : Sys ω) :
    namedAsks (onK (fun k => (takeSslot k).2) s) = namedAsks s :=
  namedAsks_getSslot s

private theorem namedAsks_spktBuild
    {confused : Sys ω → Sys ω}
    (quiet : ∀ s, namedAsks (confused s) = namedAsks s)
    (typ : UInt8)
    (seq : Int)
    (bytes : List UInt8)
    (slot : Option Int)
    (s : Sys ω) :
    namedAsks (spktBuild io confused typ seq bytes slot s).2 =
      namedAsks s := by
  have forced := namedAsks_forceBcta3 s
  unfold spktBuild
  dsimp only
  cases slot with
  | none | some slot =>
      split
      · exact (quiet _).trans forced
      · split
        · exact forced
        · exact forced

private theorem namedAsks_spktWith
    {confused : Sys ω → Sys ω}
    (quiet : ∀ s, namedAsks (confused s) = namedAsks s)
    (typ : UInt8)
    (seq len : Int)
    (text : Option (List UInt8))
    (s : Sys ω) :
    namedAsks (spktWith io confused typ seq len text s).2 = namedAsks s := by
  have taken : namedAsks
      { s with k := (spktSlot typ seq (spktData len text).length s.k).2 } =
        namedAsks s := by
    unfold spktSlot
    dsimp only
    split
    · exact namedAsks_getSslot s
    · exact namedAsks_takeSslot s
  unfold spktWith
  split
  · rfl
  · dsimp only
    split
    · exact namedAsks_spktBuild quiet ..
    · split
      · exact taken
      · exact (namedAsks_spktBuild quiet ..).trans taken

private theorem namedAsks_epktWith
    {confused : Sys ω → Sys ω}
    (quiet : ∀ s, namedAsks (confused s) = namedAsks s)
    (msg : List UInt8)
    (s : Sys ω) :
    namedAsks (epktWith io confused msg s) = namedAsks s :=
  namedAsks_spktWith quiet _ _ _ _ (setBct _ s)

private theorem namedAsks_spktConfused
    (s : Sys ω) :
    namedAsks (spktConfused io s) = namedAsks s :=
  namedAsks_epktWith (fun _ => rfl) _ s

@[simp] theorem namedAsks_spkt
    (typ : UInt8)
    (seq len : Int)
    (text : Option (List UInt8))
    (s : Sys ω) :
    namedAsks (spkt io typ seq len text s).2 = namedAsks s :=
  namedAsks_spktWith namedAsks_spktConfused typ seq len text s

@[simp] theorem namedAsks_epkt
    (msg : List UInt8)
    (s : Sys ω) :
    namedAsks (epkt io msg s) = namedAsks s :=
  namedAsks_epktWith namedAsks_spktConfused msg s

@[simp] theorem namedAsks_ack
    (seq : Int)
    (text : Option (List UInt8))
    (s : Sys ω) :
    namedAsks (ack io seq text s).2 = namedAsks s := by
  have sent := @namedAsks_spkt _ io (ch 'Y') seq
    (((text.map cstr).getD []).length : Nat) (text.map cstr) s
  unfold ack
  dsimp only
  split
  · exact sent
  · exact sent

@[simp] theorem namedAsks_nak
    (seq slot : Int)
    (s : Sys ω) :
    namedAsks (nak io seq slot s).2 = namedAsks s := by
  have sent := @namedAsks_spkt _ io (ch 'N') seq 0 none s
  unfold nak
  dsimp only
  split
  · exact sent
  · exact sent

@[simp] theorem namedAsks_resend
    (seq : Int)
    (s : Sys ω) :
    namedAsks (resend io seq s).2 = namedAsks s := by
  have slotted : ∀ slot,
      namedAsks (resendSlot io slot s).2 = namedAsks s := by
    intro slot
    unfold resendSlot
    dsimp only
    repeat' split
    all_goals rfl
  unfold resend
  dsimp only
  repeat' split
  all_goals first
    | rfl
    | exact slotted _

@[simp] theorem namedAsks_testRslots
    (s : Sys ω) :
    namedAsks (testRslots io s) = namedAsks s := by
  unfold testRslots
  dsimp only
  split
  · exact namedAsks_epkt _ s
  · rfl

@[simp] theorem namedAsks_rpar
    (type : UInt8)
    (s : Sys ω) :
    namedAsks (rpar io type s).2 = namedAsks s := by
  have asked : ∀ d t,
      namedAsks (rparSend io type d t).2 = namedAsks t := by
    intro d t
    unfold rparSend
    dsimp only
    split
    · exact namedAsks_ack ..
    · split
      · split
        · rfl
        · exact (namedAsks_spkt ..).trans (namedAsks_takeSslot t)
      · rfl
  unfold rpar
  exact asked _ _

theorem asks_of_named
    {s s' : Sys ω}
    (same : namedAsks s' = namedAsks s) :
    asks s' = asks s :=
  congrArg Prod.snd same

@[simp] theorem asks_spkt
    (typ : UInt8)
    (seq len : Int)
    (text : Option (List UInt8))
    (s : Sys ω) :
    asks (spkt io typ seq len text s).2 = asks s :=
  asks_of_named (namedAsks_spkt typ seq len text s)

@[simp] theorem asks_epkt
    (msg : List UInt8)
    (s : Sys ω) :
    asks (epkt io msg s) = asks s :=
  asks_of_named (namedAsks_epkt msg s)

@[simp] theorem asks_ack
    (seq : Int)
    (text : Option (List UInt8))
    (s : Sys ω) :
    asks (ack io seq text s).2 = asks s :=
  asks_of_named (namedAsks_ack seq text s)

@[simp] theorem asks_nak
    (seq slot : Int)
    (s : Sys ω) :
    asks (nak io seq slot s).2 = asks s :=
  asks_of_named (namedAsks_nak seq slot s)

@[simp] theorem asks_resend
    (seq : Int)
    (s : Sys ω) :
    asks (resend io seq s).2 = asks s :=
  asks_of_named (namedAsks_resend seq s)

@[simp] theorem asks_rpar
    (type : UInt8)
    (s : Sys ω) :
    asks (rpar io type s).2 = asks s :=
  asks_of_named (namedAsks_rpar type s)

@[simp] theorem asks_takeSslot
    (s : Sys ω) :
    asks (onK (fun k => (takeSslot k).2) s) = asks s :=
  asks_of_named (namedAsks_takeSslot s)

@[simp] theorem asks_nextSlot
    (s : Sys ω) :
    asks (onK (fun k => (takeSslot (nxtpkt k)).2) s) = asks s :=
  asks_takeSslot (onK nxtpkt s)

@[simp] theorem asks_listSlot
    (s : Sys ω) :
    asks (onK (fun k => resetBct (takeSslot k).2) s) = asks s :=
  asks_takeSslot s

theorem freeSslot_filelist
    (slot : Int)
    (k : KData) :
    (freeSslot slot k).filelist = k.filelist := by
  unfold freeSslot
  split <;> rfl

@[simp] theorem asks_acknowledge
    (slot : Int)
    (s : Sys ω) :
    asks (onK (acknowledge slot) s) = asks s := by
  unfold onK
  rw [acknowledge_shape]
  rfl

/-! ## Filling data fields -/

@[simp] theorem pokeXdata_filelist
    (offset : Nat)
    (bytes : List UInt8)
    (k : KData) :
    (pokeXdata offset bytes k).filelist = k.filelist := by
  unfold pokeXdata
  split <;> rfl

@[simp] theorem emit_filelist
    (bytes : List UInt8)
    (k : KData) :
    (emit bytes k).filelist = k.filelist :=
  pokeXdata_filelist _ bytes k

/-- Work that keeps the file list and the calls. -/
theorem asks_same
    {s t : Sys ω}
    (filelist : t.k.filelist = s.k.filelist)
    (log : t.log = s.log) :
    asks t = asks s := by
  unfold asks
  rw [filelist, log]

@[simp] theorem asks_encodeChar
    (a : UInt8)
    (s : Sys ω) :
    asks (encodeChar io a s) = asks s := by
  unfold encodeChar
  dsimp only
  split
  · exact (asks_epkt _ _).trans (asks_same (by simp) rfl)
  · exact asks_same (by simp) rfl

@[simp] theorem asks_encode
    (a : UInt8)
    (next : Option UInt8)
    (s : Sys ω) :
    asks (encode io a next s) = asks s := by
  unfold encode
  dsimp only
  split
  · split
    · split
      · rfl
      · split
        · exact (asks_encodeChar a _).trans (asks_same (emit_filelist _ _) rfl)
        · exact asks_encodeChar a _
    · split
      · have first : asks (encodeChar io a { s with k.enc.sRpt := 0 }) =
            asks s :=
          asks_encodeChar a _
        split
        · exact (asks_encodeChar a _).trans first
        · exact (asks_encodeChar a _).trans first
      · split
        · exact (asks_encodeChar a _).trans (asks_same (emit_filelist _ _) rfl)
        · exact asks_encodeChar a s
  · exact asks_encodeChar a s

@[simp] theorem asks_nextChar
    (s : Sys ω) :
    asks (nextChar io s).2 = asks s := by
  unfold nextChar zgetc
  dsimp only
  repeat' split
  all_goals rfl

@[simp] theorem asks_noteChar
    (next : Option UInt8)
    (s : Sys ω) :
    asks (noteChar next s) = asks s := by
  unfold noteChar
  split <;> rfl

@[simp] theorem asks_encodeNext
    (c : UInt8)
    (next : Option UInt8)
    (s : Sys ω) :
    asks (encodeNext io c next s) = asks s := by
  unfold encodeNext
  exact (asks_encode c next _).trans rfl

@[simp] theorem asks_getpktLoop
    (count : Nat)
    (c : UInt8)
    (s : Sys ω) :
    asks (getpktLoop io count c s).2 = asks s := by
  induction count generalizing c s with
  | zero =>
      rfl
  | succ count inductionHypothesis =>
      have encoded : asks
          (encodeNext io c (nextChar io s).1
            (noteChar (nextChar io s).1 (nextChar io s).2)) = asks s := by
        simp
      unfold getpktLoop
      dsimp only
      split
      · exact encoded
      · split
        · refine Eq.trans ?_ encoded
          exact asks_same (pokeXdata_filelist _ _ _) rfl
        · split
          · exact (inductionHypothesis _ _).trans encoded
          · exact encoded

@[simp] theorem asks_getpkt
    (s : Sys ω) :
    asks (getpkt io s).2 = asks s := by
  have forced : asks { s with k := forceBcta3 s.k } = asks s :=
    asks_of_named (namedAsks_forceBcta3 s)
  have rest : ∀ c t, asks (getpktRest io c t).2 = asks t := by
    intro c t
    have copied : asks { t with k := copyRemain t.k } = asks t :=
      asks_same (pokeXdata_filelist _ _ _) rfl
    unfold getpktRest
    dsimp only
    split
    · exact copied
    · exact (asks_getpktLoop _ _ _).trans copied
  have first : ∀ t, asks (getpktFirst io t).2 = asks t := by
    intro t
    have read : asks (nextChar io
        { t with k.enc.sFirst := 0, k.enc.sRemain := [] }).2 = asks t :=
      asks_nextChar _
    unfold getpktFirst
    dsimp only
    split
    · exact read
    · split
      · exact read
      · exact read
  unfold getpkt
  dsimp only
  split
  · split
    · exact (first _).trans forced
    · exact ((rest _ _).trans (first _)).trans forced
  · split
    · exact forced
    · exact (rest _ _).trans forced

@[simp] theorem asks_encstr
    (text : StrRef)
    (s : Sys ω) :
    asks (encstr io text s).2 = asks s :=
  asks_getpkt
    { s with k.enc.sFirst := 1, k.enc.istring := some (text, 0) }

@[simp] theorem asks_sdata
    (s : Sys ω) :
    asks (sdata io s).2 = asks s := by
  unfold sdata
  dsimp only
  split
  · rfl
  · split
    · exact asks_getpkt s
    · exact (asks_spkt _ _ _ _ _).trans (asks_getpkt s)

@[simp] theorem asks_sattr
    (s : Sys ω) :
    asks (sattr io s).2 = asks s := by
  have taken : ∀ k, (takeSslot k).2.filelist = k.filelist := by
    intro k
    unfold takeSslot getSslot
    split <;> rfl
  unfold sattr
  dsimp only
  split
  · exact asks_same (pokeXdata_filelist _ _ _) rfl
  · refine (asks_spkt _ _ _ _ _).trans (asks_same ?_ rfl)
    exact (taken _).trans (pokeXdata_filelist _ _ _)

/-! ## Sending a listing -/

@[simp] theorem asks_callClosef
    (c : UInt8)
    (mode : Int)
    (s : Sys ω) :
    asks (callClosef io c mode s).2 = asks s :=
  rfl

@[simp] theorem asks_setState
    (state : State)
    (s : Sys ω) :
    asks (setState state s) = asks s :=
  rfl

@[simp] theorem asks_setWhat
    (what : What)
    (s : Sys ω) :
    asks (setWhat what s) = asks s :=
  rfl

@[simp] theorem asks_decodeName
    (inbuf : List UInt8)
    (s : Sys ω) :
    asks (decodeName inbuf s).2 = asks s :=
  rfl

@[simp] theorem asks_nxtpkt
    (s : Sys ω) :
    asks (onK nxtpkt s) = asks s :=
  rfl

@[simp] theorem asks_spar
    (pdf : Nat)
    (datalen : Int)
    (s : Sys ω) :
    asks (onK (spar pdf datalen) s) = asks s :=
  rfl

@[simp] theorem asks_spktXdata
    (typ : UInt8)
    (s : Sys ω) :
    asks (spktXdata io typ s).2 = asks s :=
  asks_spkt _ _ _ _ s

@[simp] theorem asks_dirAckInit
    (s : Sys ω) :
    asks (dirAckInit io s).2 = asks s := by
  unfold dirAckInit
  dsimp only
  split
  · simp
    rfl
  · simp
    rfl

@[simp] theorem asks_dirAckEof
    (s : Sys ω) :
    asks (dirAckEof io s).2 = asks s := by
  unfold dirAckEof
  dsimp only
  split
  · simp
  · simp

@[simp] theorem asks_dirAckData
    (s : Sys ω) :
    asks (dirAckData io s).2 = asks s := by
  unfold dirAckData
  dsimp only
  split
  · simp
  · simp

/-! ## Sending a file -/

@[simp] theorem asks_endInput
    (s : Sys ω) :
    asks (endInput io s) = asks s :=
  rfl

@[simp] theorem asks_awaitSent
    (s : Sys ω) :
    asks (awaitSent s).2 = asks s :=
  rfl

@[simp] theorem asks_freeSslot
    (slot : Int)
    (s : Sys ω) :
    asks (onK
      (fun k => freeSslot slot { k with sSeq := (k.sSeq - 1) % 64 }) s) =
      asks s :=
  asks_same (freeSslot_filelist _ _) rfl

@[simp] theorem asks_sendRequested
    (p : Rcvd)
    (s : Sys ω) :
    asks (sendRequested io p s).2 = asks s := by
  unfold sendRequested
  dsimp only
  repeat' split
  all_goals simp

@[simp] theorem asks_firstData
    (s : Sys ω) :
    asks (firstData io s).2 = asks s := by
  unfold firstData
  dsimp only
  repeat' split
  all_goals simp

@[simp] theorem asks_afterFile
    (s : Sys ω) :
    asks (afterFile io s).2 = asks s := by
  unfold afterFile
  dsimp only
  repeat' split
  all_goals simp

@[simp] theorem asks_getSslot
    (s : Sys ω) :
    asks (onK (fun k => (getSslot k).2) s) = asks s :=
  asks_of_named (namedAsks_getSslot s)

@[simp] theorem asks_mapNext
    (slot : Int)
    (s : Sys ω) :
    asks (onK (fun k => mapSseq slot (nxtpkt k)) s) = asks s :=
  rfl

@[simp] theorem asks_afterData
    (s : Sys ω) :
    asks (afterData io s).2 = asks s := by
  have advanced :
      asks (if s.k.state = .sAttr then setState .sData s else s) =
        asks s := by
    split <;> rfl
  unfold afterData
  dsimp only
  generalize (if s.k.state = .sAttr then setState .sData s else s) = t at *
  rw [← advanced]
  repeat' split
  all_goals simp

@[simp] theorem asks_sendBreak
    (s : Sys ω) :
    asks (sendBreak io s).2 = asks s := by
  have named : ∀ filename,
      asks { s with k.filename := filename } = asks s :=
    fun _ => rfl
  unfold sendBreak
  dsimp only
  repeat' split
  all_goals simp [named]

/-- Without a name left there is nothing to open. -/
theorem asks_nextFile
    {s : Sys ω}
    (nothing : s.k.filelist = []) :
    asks (nextFile io s).2 = asks s := by
  unfold nextFile
  dsimp only
  split
  · rename_i name rest names
    have none : s.k.filelist = name :: rest := names
    rw [nothing] at none
    exact absurd none (by simp)
  · exact asks_sendBreak _

/-! ## Receiving -/

@[simp] theorem asks_reportFile
    (action : Action)
    (s : Sys ω) :
    asks (reportFile action s) = asks s := by
  unfold reportFile
  split <;> rfl

@[simp] theorem asks_setType
    (type : Action)
    (s : Sys ω) :
    asks (setType type s) = asks s :=
  rfl

@[simp] theorem asks_inWait
    (p : Rcvd)
    (s : Sys ω) :
    asks (inWait io p s).2 = asks s := by
  unfold inWait
  dsimp only
  repeat' split
  all_goals simp

@[simp] theorem asks_clearFile
    (s : Sys ω) :
    asks (clearFile s) = asks s :=
  rfl

@[simp] theorem asks_inFile
    (p : Rcvd)
    (s : Sys ω) :
    asks (inFile io p s).2 = asks s := by
  unfold inFile
  dsimp only
  repeat' split
  all_goals simp

@[simp] theorem asks_takeAttr
    (p : Rcvd)
    (s : Sys ω) :
    asks (takeAttr p s) = asks s := by
  unfold takeAttr
  dsimp only
  split <;> rfl

end Functions

/-- `kopenfile()` does not open files for writing. -/
theorem openOutput_refused
    {σ : Type}
    (os : Os σ)
    (s : Sys (Unix σ)) :
    (openOutput (unixio os) s).1 = xError ∧
      asks (openOutput (unixio os) s).2 = asks s := by
  have mode : ¬ (2 : Int) = 1 := by decide
  unfold openOutput callOpenf
  simp only [unixio, kopenfile, if_neg mode, true_and]
  rfl

theorem asks_inAttr
    {σ : Type}
    (os : Os σ)
    (p : Rcvd)
    (s : Sys (Unix σ)) :
    asks (inAttr (unixio os) p s).2 = asks s := by
  obtain ⟨refused, same⟩ := openOutput_refused os s
  have failed : ¬ (openOutput (unixio os) s).1 = xOk := by
    rw [refused]
    decide
  unfold inAttr
  repeat' split
  · simp
  · unfold firstRpkt
    dsimp only
    rw [if_neg failed]
    simpa using same
  · unfold emptyFile
    dsimp only
    rw [if_neg failed]
    simpa using same
  · simp
  · simp

end Slate106.Kermit
