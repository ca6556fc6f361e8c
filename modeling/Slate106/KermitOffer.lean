import Slate106.KermitInPlace
import Slate106.KermitStopWait
import Slate106.KermitTaken

namespace Slate106.Kermit

open CBytes

/-!
# What a fresh server sends for a file

Whatever is lost or comes twice, the packets that a server sends for a file are
S, F, A, the data, Z and B under consecutive numbers, and the data packets
stand for the file: for the front of it at any time, for all of it at Z.
-/

variable {ω σ : Type}

/-! ## Fields that can be sent -/

/-- A data field of a D packet. -/
structure DataField
    (field : List UInt8) : Prop where
  decodes : decodeMem agreedPar field ≠ []
  noZero : 0 ∉ field
  noStart : packetStart ∉ field
  noEnd : packetEnd ∉ field
  fits : field.length ≤ 991

theorem plain_freshCfg
    (rootPath : List UInt8) :
    PlainEncoding (freshCfg rootPath) agreedPar :=
  ⟨rfl, rfl, rfl, fun _ => isRepeatPrefix_prefixRepeat⟩

theorem plainDecoding_agreedPar :
    PlainDecoding agreedPar agreedPar :=
  ⟨rfl, rfl, rfl, rfl, fun _ => rfl⟩

/-- What runs are encoded to needs no quoting on the link. -/
theorem clean_encodeRuns
    (rootPath : List UInt8)
    {runs : List CharRun}
    (said : ∀ run ∈ runs, run.Said agreedPar.rptflg) :
    let field := encodeRuns (freshCfg rootPath) agreedPar runs
    0 ∉ field ∧ packetStart ∉ field ∧ packetEnd ∉ field := by
  have clean : ∀ byte ∈ encodeRuns (freshCfg rootPath) agreedPar runs,
      InField byte :=
    fun _ member => encodeRuns_inField (plain_freshCfg rootPath) said member
  exact ⟨fun member => (clean _ member).1 rfl,
    fun member => (clean _ member).2.2 rfl,
    fun member => (clean _ member).2.1 rfl⟩

/-- What is asked of the fields may be weakened. -/
theorem Yields.imp
    {io : Io ω}
    {left : ω → List UInt8}
    {toEnd : Prop}
    {n : Nat}
    {goal goal' : List (List UInt8) → Prop}
    {s : Sys ω}
    (yields : Yields io left toEnd n goal s)
    (weaker : ∀ fields, goal fields → goal' fields) :
    Yields io left toEnd n goal' s := by
  induction n generalizing goal goal' s with
  | zero =>
      exact yields
  | succ n inductionHypothesis =>
      intro t same
      rcases yields t same with ⟨ends, reached⟩ | ⟨fills, more⟩
      · exact .inl ⟨ends, weaker _ reached⟩
      · exact .inr ⟨fills, inductionHypothesis more fun _ => weaker _⟩

/-- There are fields that are as they are asked to be. -/
theorem Yields.some
    {io : Io ω}
    {left : ω → List UInt8}
    {toEnd : Prop}
    {n : Nat}
    {goal : List (List UInt8) → Prop}
    {s : Sys ω}
    (yields : Yields io left toEnd n goal s) :
    ∃ fields, goal fields := by
  induction n generalizing goal s with
  | zero =>
      exact absurd yields id
  | succ n inductionHypothesis =>
      rcases yields s (.refl left s) with ⟨-, reached⟩ | ⟨-, more⟩
      · exact ⟨[], reached⟩
      · obtain ⟨fields, asked⟩ := inductionHypothesis more
        exact ⟨_ :: fields, asked⟩

/-- The rest of a file in fields that can be sent. -/
structure Covers
    (rest : List UInt8)
    (fields : List (List UInt8)) : Prop where
  each : ∀ field ∈ fields, DataField field
  whole : fields.flatMap (decodeMem agreedPar) = rest

/-- The fields of the rest of a file can be sent, and decode to it. -/
theorem Sending.covers
    {io : Io ω}
    {left : ω → List UInt8}
    (reader : ReadsFile io left)
    {rootPath rest : List UInt8}
    {s : Sys ω}
    (sending : Sending left rest s)
    (cfg : s.k.cfg = freshCfg rootPath)
    (par : s.k.par = agreedPar)
    {n : Nat}
    (enough : rest.length < n) :
    Yields io left True n (Covers rest) s := by
  induction n generalizing rest s with
  | zero =>
      exact absurd enough (Nat.not_lt_zero _)
  | succ n inductionHypothesis =>
      intro t same
      have cfgNow := same.cfg.trans cfg
      have parNow := same.par.trans par
      have sendingNow := sending.same same
      rcases getpkt_packed reader sendingNow with
        ⟨nothing, zero, -, seen, packs⟩ | ⟨runs, rest', packed⟩
      · exact .inl ⟨⟨zero, fun _ => seen, packs⟩, by simp, by simp [nothing]⟩
      · have good := packed.goodField sendingNow.filling.fits.packable
        have data := good.data
        have said := good.said
        have fits := good.fits
        have settings := packed.packs.settings
        rw [cfgNow, parNow] at data
        rw [parNow] at said fits
        have short : (fieldOf (getpkt io t)).length ≤ 991 := by
          have most : max (getpktMaxlen agreedPar + 1) 6 = 991 := by
            decide
          omega
        have decoded := decodeMem_plain (plain_freshCfg rootPath)
          plainDecoding_agreedPar said
        obtain ⟨noZero, noStart, noEnd⟩ := clean_encodeRuns rootPath said
        have decodes := length_expand_pos packed.said packed.something
        refine .inr ⟨⟨good.positive, ?_, packed.packs⟩, ?_⟩
        · rw [parNow, show agreedPar.bct = 1 from rfl]
          unfold pPktlen
          omega
        · have shorter : rest'.length < rest.length := by
            rw [packed.split, List.length_append]
            exact Nat.lt_add_of_pos_left
              (length_expand_pos packed.said packed.something)
          refine (inductionHypothesis (packed.sending sendingNow)
            (settings.1.trans cfgNow) (settings.2.trans parNow)
            (by omega)).imp ?_
          intro fields covers
          rw [data] at short ⊢
          refine ⟨?_, ?_⟩
          · intro field member
            rcases List.mem_cons.mp member with rfl | member
            · exact ⟨by rw [decoded]; exact List.ne_nil_of_length_pos decodes,
                noZero, noStart, noEnd, short⟩
            · exact covers.each field member
          · rw [List.flatMap_cons, decoded, covers.whole, packed.split]

/-! ## The name -/

/-- A name that goes both ways as it is. -/
structure PlainName
    (rootPath name : List UInt8) : Prop where
  fits : NameFits (freshCfg rootPath) agreedPar name
  safe : NameSafe (freshCfg rootPath) agreedPar name
  echoed : Echoed name

/-- The field of F for a name. -/
def nameField
    (rootPath name : List UInt8) : List UInt8 :=
  encodeRuns (freshCfg rootPath) agreedPar (textRuns agreedPar.rptflg name)

/-- Behind a terminator nothing is decoded. -/
theorem decodeMemLoop_behind
    {cfg : Config}
    {p p' : Params}
    {runs : List CharRun}
    (clean : ∀ run ∈ runs, 0 ∉ encodeRun cfg p run)
    (reads : ∀ run ∈ runs, ReadsRun cfg p p' id run)
    (tail : List UInt8)
    {turns : Nat}
    (enough : runs.length < turns) :
    decodeMemLoop p' turns (encodeRuns cfg p runs ++ 0 :: tail) =
      expand runs := by
  induction runs generalizing turns with
  | nil =>
      cases turns with
      | zero =>
          exact absurd enough (Nat.not_lt_zero _)
      | succ turns =>
          rfl
  | cons run runs inductionHypothesis =>
      cases turns with
      | zero =>
          exact absurd enough (Nat.not_lt_zero _)
      | succ turns =>
          have read := reads run List.mem_cons_self
            (encodeRuns cfg p runs ++ 0 :: tail)
          have more := inductionHypothesis
            (fun run member => clean run (List.mem_cons_of_mem _ member))
            (fun run member => reads run (List.mem_cons_of_mem _ member))
            (Nat.lt_of_succ_lt_succ enough)
          rw [encodeRuns_cons, List.append_assoc, decodeMemLoop,
            if_neg (peek_encodeRun (clean run List.mem_cons_self) _)]
          dsimp only at read ⊢
          rw [read, more, expand_cons]
          rfl

theorem PlainName.read
    {rootPath name : List UInt8}
    (plain : PlainName rootPath name) :
    ReadAsName name (nameField rootPath name) := by
  intro tail
  have reads := plain.safe.reads
  have same : peerParams (freshCfg rootPath) agreedPar = agreedPar := rfl
  rw [same] at reads
  unfold nameField decodeMem
  rw [decodeMemLoop_behind (fun run member => (reads run member).1)
    (fun run member => (reads run member).2)]
  · exact expand_textRuns _ _
  · have shorter := length_le_encodeRuns (freshCfg rootPath) agreedPar
      (textRuns agreedPar.rptflg name)
    simp only [List.length_append, List.length_cons]
    omega

/-- F with the name. -/
theorem PlainName.genuine
    {rootPath name : List UInt8}
    (plain : PlainName rootPath name)
    {seq : Int}
    (lower : 0 ≤ seq)
    (upper : seq ≤ 63) :
    Genuine name ⟨ch 'F', seq, nameField rootPath name⟩ := by
  obtain ⟨noZero, noStart, noEnd⟩ := clean_encodeRuns rootPath
    (said_textRuns agreedPar.rptflg name)
  have fits := plain.fits
  have most : getpktMaxlen agreedPar = 990 := by
    decide
  unfold NameFits at fits
  refine
    { sendable := ⟨?_, lower, upper, noZero, noStart, noEnd, ?_⟩
      start := fun kind => absurd (show ch 'F' = ch 'S' from kind) (by decide)
      named := fun _ => plain.read
      binary := fun kind =>
        absurd (show ch 'F' = ch 'A' from kind) (by decide)
      decodes := fun kind =>
        absurd (show ch 'F' = ch 'D' from kind) (by decide) }
  · show ch 'F' ∈ _
    decide +kernel
  · show (nameField rootPath name).length ≤ 991
    unfold nameField
    omega

/-! ## The other packets -/

/-- S with the init string. -/
theorem genuine_start
    (name : List UInt8) :
    Genuine name ⟨ch 'S', 0, freshInit⟩ where
  sendable :=
    { letter := by
        show ch 'S' ∈ _
        decide +kernel
      lower := Int.le_refl 0
      upper := show (0 : Int) ≤ 63 by decide
      noZero := show 0 ∉ freshInit by decide
      noStart := show packetStart ∉ freshInit by decide
      noEnd := show packetEnd ∉ freshInit by decide
      fits := show freshInit.length ≤ 991 by decide }
  start := fun _ => ⟨rfl, rfl⟩
  named := fun kind => absurd (show ch 'S' = ch 'F' from kind) (by decide)
  binary := fun kind => absurd (show ch 'S' = ch 'A' from kind) (by decide)
  decodes := fun kind => absurd (show ch 'S' = ch 'D' from kind) (by decide)

/-- A D packet with a data field. -/
theorem DataField.genuine
    {name field : List UInt8}
    (good : DataField field)
    {seq : Int}
    (lower : 0 ≤ seq)
    (upper : seq ≤ 63) :
    Genuine name ⟨ch 'D', seq, field⟩ where
  sendable :=
    { letter := by
        show ch 'D' ∈ _
        decide +kernel
      lower := lower
      upper := upper
      noZero := good.noZero
      noStart := good.noStart
      noEnd := good.noEnd
      fits := good.fits }
  start := fun kind => absurd (show ch 'D' = ch 'S' from kind) (by decide)
  named := fun kind => absurd (show ch 'D' = ch 'F' from kind) (by decide)
  binary := fun kind => absurd (show ch 'D' = ch 'A' from kind) (by decide)
  decodes := fun _ => good.decodes

/-- Z and B have no data. -/
theorem genuine_end
    (name : List UInt8)
    {typ : UInt8}
    (kind : typ = ch 'Z' ∨ typ = ch 'B')
    {seq : Int}
    (lower : 0 ≤ seq)
    (upper : seq ≤ 63) :
    Genuine name ⟨typ, seq, []⟩ := by
  have others : typ ∈ lit "YNFADZBXRGS" ∧ typ ≠ ch 'S' ∧ typ ≠ ch 'F' ∧
      typ ≠ ch 'A' ∧ typ ≠ ch 'D' := by
    rcases kind with rfl | rfl
    all_goals decide +kernel
  obtain ⟨letter, notS, notF, notA, notD⟩ := others
  exact
    { sendable :=
        ⟨letter, lower, upper, List.not_mem_nil, List.not_mem_nil,
          List.not_mem_nil, Nat.zero_le 991⟩
      start := fun kind => absurd kind notS
      named := fun kind => absurd kind notF
      binary := fun kind => absurd kind notA
      decodes := fun kind => absurd kind notD }

/-- The attributes the callbacks of the server tell of a file. -/
def attrData : List UInt8 :=
  sattrData 1 0 []

theorem attrData_binary :
    Binary attrData := by
  intro tail r
  have field := @sattrData_eq 0 [] 1 (by decide) (by decide)
  have read := @gattr_sattrAttributes 0 [] 1 (by decide) (by decide) (by simp)
    tail r
  unfold attrData
  rw [show sattrData 1 0 [] = sattrData 1 ((0 : Nat) : Int) [] from rfl,
    field, read]
  rfl

theorem genuine_attributes
    (name : List UInt8)
    {seq : Int}
    (lower : 0 ≤ seq)
    (upper : seq ≤ 63) :
    Genuine name ⟨ch 'A', seq, attrData⟩ where
  sendable :=
    { letter := by
        show ch 'A' ∈ _
        decide +kernel
      lower := lower
      upper := upper
      noZero := show 0 ∉ attrData by decide +kernel
      noStart := show packetStart ∉ attrData by decide +kernel
      noEnd := show packetEnd ∉ attrData by decide +kernel
      fits := show attrData.length ≤ 991 by decide +kernel }
  start := fun kind => absurd (show ch 'A' = ch 'S' from kind) (by decide)
  named := fun kind => absurd (show ch 'A' = ch 'F' from kind) (by decide)
  binary := fun _ => attrData_binary
  decodes := fun kind => absurd (show ch 'A' = ch 'D' from kind) (by decide)

/-- `sattr()` sends the attributes the callbacks of the server tell. -/
theorem sattr_offers
    {os : Os σ}
    (linked : Linked (unixio os))
    {s : Sys (Unix σ)}
    (ready : Ready s.k)
    (binary : s.k.par.binary = 1) :
    SentOne (ch 'A') attrData s (sattr (unixio os) s).2 := by
  obtain ⟨t, data, log, route⟩ : ∃ t : Sys (Unix σ),
      t.k = pokeXdata 0 (attrData ++ [0]) s.k ∧ t.log = s.log ∧
        sattr (unixio os) s =
          (if (getSslot t.k).1 < 0 then (0, t)
          else
            let u := onK (fun k => (takeSslot k).2) t
            spkt (unixio os) (ch 'A') u.k.sSeq (-1) (some (xdataMem u.k))
              u) := by
    refine ⟨{ k := _, r := _, w := _, log := _ }, ?_, ?_, rfl⟩
    · unfold attrData
      rw [← binary]
      rfl
    · rfl
  have memory : cstr (xdataMem t.k) = attrData := by
    rw [data, xdataMem_pokeXdata, poke_zero, List.append_assoc]
    exact cstr_append_zero (by decide +kernel) _
  obtain ⟨xdatabuf, ipktbuf, shape⟩ := pokeXdata_shape 0 (attrData ++ [0]) s.k
  rw [shape] at data
  have readyThen : Ready t.k := by
    rw [data]
    exact ready.same rfl rfl rfl rfl
  obtain ⟨slot, -⟩ := readyThen.takeSslot
  obtain ⟨readyNow, win, taken⟩ := readyThen.takeSlot
  rw [slot, if_neg (by decide), taken] at route
  rw [taken] at readyNow
  have text : spktData (-1)
      (some (xdataMem { t with k := { t.k with win := win } }.k)) =
        attrData := by
    unfold spktData
    dsimp only
    rw [if_pos (by decide)]
    exact memory
  obtain ⟨u, same⟩ : ∃ u : Sys (Unix σ),
      u = { t with k := { t.k with win := win } } := ⟨_, rfl⟩
  have route' : sattr (unixio os) s =
      spkt (unixio os) (ch 'A') u.k.sSeq (-1) (some (xdataMem u.k)) u := by
    rw [same]
    exact route
  rw [← same] at text
  have ready' : Ready u.k := by
    rw [same]
    exact readyNow
  have short : (pktFrame u.k.par (ch 'A') u.k.sSeq attrData).length <
      pBuflen := by
    have length : attrData.length < 100 := by
      decide +kernel
    refine pktFrame_fits _ _ ?_
    unfold pPktlen
    omega
  obtain ⟨-, sent⟩ := @spkt_sends _ _ linked (ch 'A') (-1)
    (some (xdataMem u.k)) u (by decide) ready' (text ▸ short)
  rw [text] at sent
  rw [route']
  have k : u.k.sSeq = s.k.sSeq ∧ u.k.cfg = s.k.cfg ∧ u.k.par = s.k.par ∧
      u.k.what = s.k.what ∧ u.k.filelist = s.k.filelist ∧ u.log = s.log := by
    rw [same, data]
    exact ⟨rfl, rfl, rfl, rfl, rfl, log⟩
  obtain ⟨sSeq, cfg, par, what, filelist, log'⟩ := k
  exact (sent.one (Packs.refl u)).of_quiet sSeq cfg par what filelist
    ⟨[], log', rfl⟩

/-! ## The server in a GET -/

/-- The requested file can be opened at any time, with the same content. -/
def Offers
    (os : Os σ)
    (unread : σ → List UInt8)
    (path file : List UInt8) : Prop :=
  ∀ w, (os.fopen w path).1 = true ∧ unread (os.fopen w path).2 = file

/-- Which packets are out, newest first, and what is still to come. -/
inductive OfferStage
    (os : Os σ)
    (unread : σ → List UInt8)
    (rootPath name file : List UInt8) :
    List Item → Sys (Unix σ) → Prop where
  | start
      {s : Sys (Unix σ)}
      {item : Item}
      (kind : item.typ = ch 'S')
      (state : s.k.state = .sInit)
      (par : s.k.par = freshPar)
      (filelist : s.k.filelist = [.xdatabuf])
      (counted : s.k.enc.sRpt = 0)
      (named : cstr s.k.enc.xdatabuf = name) :
      OfferStage os unread rootPath name file [item] s
  | named
      {s : Sys (Unix σ)}
      {item : Item}
      {rest : List Item}
      {n : Nat}
      {ahead : List UInt8}
      (kind : item.typ = ch 'F')
      (state : s.k.state = .sFile)
      (par : s.k.par = agreedPar)
      (filelist : s.k.filelist = [])
      (whole : content (item :: rest) ++ ahead = file)
      (unclosed : ∀ other ∈ item :: rest, other.typ ≠ ch 'Z')
      (yields :
        Yields (unixio os) (fun w => unread w.os) True n (Covers ahead) s) :
      OfferStage os unread rootPath name file (item :: rest) s
  | data
      {s : Sys (Unix σ)}
      {item : Item}
      {rest : List Item}
      {n : Nat}
      {ahead : List UInt8}
      (kind : item.typ = ch 'A' ∨ item.typ = ch 'D')
      (state : s.k.state = .sAttr ∨ s.k.state = .sData)
      (data : s.k.state = .sData → item.typ = ch 'D')
      (par : s.k.par = agreedPar)
      (filelist : s.k.filelist = [])
      (whole : content (item :: rest) ++ ahead = file)
      (unclosed : ∀ other ∈ item :: rest, other.typ ≠ ch 'Z')
      (yields :
        Yields (unixio os) (fun w => unread w.os) True n (Covers ahead) s) :
      OfferStage os unread rootPath name file (item :: rest) s
  | eof
      {s : Sys (Unix σ)}
      {item : Item}
      {rest : List Item}
      (kind : item.typ = ch 'Z')
      (state : s.k.state = .sEof)
      (par : s.k.par = agreedPar)
      (filelist : s.k.filelist = [])
      (whole : content rest = file)
      (unclosed : ∀ other ∈ rest, other.typ ≠ ch 'Z') :
      OfferStage os unread rootPath name file (item :: rest) s
  | eot
      {s : Sys (Unix σ)}
      {item : Item}
      {rest : List Item}
      (kind : item.typ = ch 'B')
      (state : s.k.state = .sEot)
      (par : s.k.par = agreedPar)
      (whole : content rest = file)
      (closed : ∃ other ∈ rest, other.typ = ch 'Z') :
      OfferStage os unread rootPath name file (item :: rest) s

/-- A fresh server in a GET that has sent these packets, newest first. -/
structure Offering
    (os : Os σ)
    (unread : σ → List UInt8)
    (rootPath name file : List UInt8)
    (sent : List Item)
    (s : Sys (Unix σ)) : Prop where
  filed : Filed s.k
  awaiting : Awaiting s.k
  what : s.k.what = .send
  cfg : s.k.cfg = freshCfg rootPath
  genuine : ∀ item ∈ sent, Genuine name item
  outstanding :
    ∃ item rest, sent = item :: rest ∧ item.seq = s.k.sSeq ∧
      slotPacket (s.k.win.opktinfo 0) = item.frame
  stage : OfferStage os unread rootPath name file sent s

section Offering

variable {os : Os σ}
variable {unread : σ → List UInt8}
variable {rootPath name file : List UInt8}
variable {sent : List Item}
variable {s t : Sys (Unix σ)}

theorem Offering.usual
    (offering : Offering os unread rootPath name file sent s) :
    Usual s.k.par := by
  cases offering.stage with
  | start _ _ par =>
      exact .inl par
  | named _ _ par | data _ _ _ par | eof _ _ par | eot _ _ par =>
      exact .inr par

/-- The data packets that were sent stand for the front of the file. -/
theorem Offering.front
    (offering : Offering os unread rootPath name file sent s) :
    content sent <+: file := by
  cases offering.stage with
  | start kind =>
      rw [content_of_ne (by rw [kind]; decide)]
      exact List.nil_prefix
  | named _ _ _ _ whole | data _ _ _ _ _ whole =>
      exact ⟨_, whole⟩
  | eof kind _ _ _ whole | eot kind _ _ whole =>
      refine ⟨[], ?_⟩
      rw [List.append_nil, content_of_ne (by rw [kind]; decide)]
      exact whole

/-- Once Z was sent, they stand for all of it. -/
theorem Offering.whole
    (offering : Offering os unread rootPath name file sent s)
    (closed : ∃ item ∈ sent, item.typ = ch 'Z') :
    content sent = file := by
  obtain ⟨item, member, isZ⟩ := closed
  cases offering.stage with
  | start kind =>
      rw [List.mem_singleton.mp member, kind] at isZ
      exact absurd isZ (by decide)
  | named _ _ _ _ _ none | data _ _ _ _ _ _ none =>
      exact absurd isZ (none item member)
  | eof kind _ _ _ whole | eot kind _ _ whole =>
      rw [content_of_ne (by rw [kind]; decide), whole]

/-! ## Turns that acknowledge nothing -/

/-- What the encoder and the input file are does not change. -/
theorem Stays.input
    (server : FileServer os unread)
    {len : Int}
    {result : Int × Sys (Unix σ)}
    (stays : Stays os s len result) :
    SameInput (fun w => unread w.os) s result.2 := by
  obtain ⟨same, sent, -⟩ := stays
  have enc := same.enc
  have log : s.log <:+ result.2.log ∧
      unread result.2.w.os = unread s.w.os := by
    rcases sent with ⟨log, w⟩ | ⟨log, w⟩
    · rw [log, w]
      exact ⟨List.suffix_rfl, rfl⟩
    · rw [log, w]
      exact ⟨List.suffix_cons _ _, server.served.txd s.w _⟩
  refine ⟨same.cfg, same.par, same.zin, ?_, ?_, ?_, ?_, ?_,
    fun seen => log.1.subset seen, log.2⟩
  all_goals rw [enc]

/-- The same packet is outstanding, and the same is to come. -/
theorem OfferStage.same
    (stage : OfferStage os unread rootPath name file sent s)
    (state : t.k.state = s.k.state)
    (filelist : t.k.filelist = s.k.filelist)
    (xdatabuf : t.k.enc.xdatabuf = s.k.enc.xdatabuf)
    (input : SameInput (fun w => unread w.os) s t) :
    OfferStage os unread rootPath name file sent t := by
  have par := input.par
  cases stage with
  | start kind at' par' list counted named =>
      exact .start kind (state.trans at') (par.trans par')
        (filelist.trans list) (input.sRpt.trans counted) (xdatabuf ▸ named)
  | named kind at' par' list whole unclosed yields =>
      exact .named kind (state.trans at') (par.trans par')
        (filelist.trans list) whole unclosed (yields.same input)
  | data kind at' data par' list whole unclosed yields =>
      rw [← state] at at' data
      exact .data kind at' data (par.trans par') (filelist.trans list) whole
        unclosed (yields.same input)
  | eof kind at' par' list whole unclosed =>
      exact .eof kind (state.trans at') (par.trans par')
        (filelist.trans list) whole unclosed
  | eot kind at' par' whole closed =>
      exact .eot kind (state.trans at') (par.trans par') whole closed

theorem Offering.heard
    (offering : Offering os unread rootPath name file sent s)
    (rx : Rx) :
    Offering os unread rootPath name file sent (heardSys rx s) where
  filed := offering.filed.aside (.of_ledger rfl)
  awaiting := offering.awaiting.heard rx
  what := offering.what
  cfg := offering.cfg
  genuine := offering.genuine
  outstanding := offering.outstanding
  stage := offering.stage.same rfl rfl rfl
    ⟨rfl, rfl, rfl, rfl, rfl, rfl, rfl, rfl, id, rfl⟩

/-- Whatever does not acknowledge the packet leaves it outstanding. -/
theorem Offering.stays
    (server : FileServer os unread)
    (offering : Offering os unread rootPath name file sent s)
    {len : Int}
    {result : Int × Sys (Unix σ)}
    (wf : Wf result.2.k)
    (stays : Stays os s len result) :
    Offering os unread rootPath name file sent result.2 := by
  have input := stays.input server
  have same := stays.same
  obtain ⟨item, rest, head, number, held⟩ := offering.outstanding
  obtain ⟨rtr, slot⟩ := same.opktinfo 0
  have enc := same.enc
  refine ⟨offering.filed.aside (same.aside wf),
    same.awaiting wf offering.awaiting, same.what.trans offering.what,
    same.cfg.trans offering.cfg, offering.genuine,
    ⟨item, rest, head, number.trans same.sSeq.symm, ?_⟩,
    offering.stage.same same.state same.filelist (by rw [enc]) input⟩
  rw [slot]
  exact held

theorem Offering.sender
    (offering : Offering os unread rootPath name file sent s) :
    Sender s := by
  refine ⟨?_, offering.what⟩
  show s.k.state ∈ senderStates
  cases offering.stage with
  | start _ state | named _ state | eof _ state | eot _ state =>
      rw [state]
      decide
  | data _ state =>
      rcases state with state | state
      all_goals
        rw [state]
        decide

/-- A turn without an acknowledgment of the outstanding packet. -/
structure OffersAgain
    (os : Os σ)
    (unread : σ → List UInt8)
    (rootPath name file : List UInt8)
    (sent : List Item)
    (s : Sys (Unix σ))
    (result : Int × Sys (Unix σ)) : Prop where
  going : result.1 ≠ xDone
  offering : Offering os unread rootPath name file sent result.2
  sent :
    result.2.log = s.log ∨
      ∃ item rest rc, sent = item :: rest ∧
        result.2.log = .txd item.frame rc :: s.log

theorem Stays.offersAgain
    (server : FileServer os unread)
    (offering : Offering os unread rootPath name file sent s)
    {rx : Rx}
    (wf : Wf (kermit (unixio os) .run rx.ret [] (heardSys rx s)).2.k)
    (noShortcut :
      4 ≤ rx.ret → parse (heardSys rx s).k rx.ret ≠ .shortcut)
    (stays :
      Stays os (heardSys rx s) rx.ret
        (kermit (unixio os) .run rx.ret [] (heardSys rx s))) :
    OffersAgain os unread rootPath name file sent s
      (kermit (unixio os) .run rx.ret [] (heardSys rx s)) := by
  have heard := offering.heard rx
  refine ⟨fun done => ?_, heard.stays server wf stays, ?_⟩
  · obtain ⟨long, shortcut⟩ := stays.done done
    exact noShortcut long shortcut
  · obtain ⟨item, rest, head, -, held⟩ := heard.outstanding
    rcases stays.sent with ⟨log, -⟩ | ⟨log, -⟩
    · exact .inl log
    · rw [held] at log
      exact .inr ⟨item, rest, _, head, log⟩

/-- A timeout or a frame that fails a check. -/
theorem Offering.noise
    (server : FileServer os unread)
    (offering : Offering os unread rootPath name file sent s)
    {rx : Rx}
    (noise : Noise rx s) :
    OffersAgain os unread rootPath name file sent s
      (kermit (unixio os) .run rx.ret [] (heardSys rx s)) := by
  have heard := offering.heard rx
  exact Stays.offersAgain server offering
    (@Wf.kermit _ (unixio os) _ heard.awaiting.wf .run rx.ret [])
    noise.noShortcut (kermit_stays heard.filed heard.sender.set
      (doRxd_awaiting offering.awaiting) heard.what
      fun p buf long good => absurd good (noise.notGood p buf long))

/-- An acknowledgment of another packet. -/
theorem Offering.late
    (server : FileServer os unread)
    (offering : Offering os unread rootPath name file sent s)
    {rx : Rx}
    {seq : Int}
    {data : List UInt8}
    {p : Rcvd}
    {buf : List UInt8}
    (heardAs : HeardAs (ch 'Y') seq data rx s p buf)
    (other : seq ≠ s.k.sSeq) :
    OffersAgain os unread rootPath name file sent s
      (kermit (unixio os) .run rx.ret [] (heardSys rx s)) := by
  have heard := offering.heard rx
  have number := heard.awaiting.outstanding.number
  refine Stays.offersAgain server offering
    (@Wf.kermit _ (unixio os) _ heard.awaiting.wf .run rx.ret [])
    (fun _ shortcut =>
      Parsed.noConfusion (shortcut.symm.trans heardAs.good))
    (kermit_stays heard.filed heard.sender.set
      (doRxd_awaiting offering.awaiting) heard.what
      fun p' buf' long good => .inr ?_)
  obtain ⟨rfl, -⟩ := Parsed.good.inj (heardAs.good.symm.trans good)
  refine ⟨heardAs.read.rtyp, ?_⟩
  rw [heard.filed.mapped, number, heardAs.read.rseq]
  exact if_neg other

/-! ## Turns that acknowledge -/

/-- The next packet goes out. -/
structure OffersNext
    (os : Os σ)
    (unread : σ → List UInt8)
    (rootPath name file : List UInt8)
    (sent : List Item)
    (s : Sys (Unix σ))
    (result : Int × Sys (Unix σ))
    (item : Item) : Prop where
  fine : result.1 = xOk
  comes : Comes sent item
  number : item.seq = (s.k.sSeq + 1) % 64
  offering : Offering os unread rootPath name file (item :: sent) result.2
  log : ∃ calls, result.2.log = calls ++ s.log ∧ txds calls = [item.frame]

theorem OffersNext.of_sent
    (offering : Offering os unread rootPath name file sent s)
    {u : Sys (Unix σ)}
    {typ : UInt8}
    {data : List UInt8}
    {result : Int × Sys (Unix σ)}
    (fine : result.1 = xOk)
    (one : SentOne typ data u result.2)
    (number : u.k.sSeq = (s.k.sSeq + 1) % 64)
    (cfg : u.k.cfg = s.k.cfg)
    (framing : Framing u.k.par)
    (what : u.k.what = s.k.what)
    (log : u.log = s.log)
    (filed : Filed result.2.k)
    (comes : Comes sent ⟨typ, (s.k.sSeq + 1) % 64, data⟩)
    (genuine : Genuine name ⟨typ, (s.k.sSeq + 1) % 64, data⟩)
    (stage :
      OfferStage os unread rootPath name file
        (⟨typ, (s.k.sSeq + 1) % 64, data⟩ :: sent) result.2) :
    OffersNext os unread rootPath name file sent s result
      ⟨typ, (s.k.sSeq + 1) % 64, data⟩ := by
  have frame : pktFrame u.k.par typ u.k.sSeq data =
      Item.frame ⟨typ, (s.k.sSeq + 1) % 64, data⟩ := by
    rw [framing.pktFrame, number]
    rfl
  refine ⟨fine, comes, rfl, ⟨filed, one.awaiting,
    (one.what.trans what).trans offering.what,
    (one.cfg.trans cfg).trans offering.cfg, ?_,
    ⟨_, sent, rfl, (one.sSeq.trans number).symm, one.held.trans frame⟩,
    stage⟩, ?_⟩
  · intro item member
    rcases List.mem_cons.mp member with rfl | member
    · exact genuine
    · exact offering.genuine item member
  · obtain ⟨calls, later, frames⟩ := one.log
    exact ⟨calls, log ▸ later, frames.trans (by rw [frame])⟩

/-- The number behind the outstanding one is a number. -/
theorem nextSeq_bounds
    (seq : Int) :
    0 ≤ (seq + 1) % 64 ∧ (seq + 1) % 64 ≤ 63 := by
  omega

/-- The ACK to Z: B. -/
theorem nextFile_offers
    (linked : Linked (unixio os))
    (offering : Offering os unread rootPath name file sent s)
    (acked : Acked s t)
    {item : Item}
    {rest : List Item}
    (shape : sent = item :: rest)
    (kind : item.typ = ch 'Z')
    (par : s.k.par = agreedPar)
    (filelist : s.k.filelist = [])
    (whole : content rest = file)
    (filed :
      (nextFile (unixio os) t).1 = xOk → Filed (nextFile (unixio os) t).2.k) :
    ∃ new, OffersNext os unread rootPath name file sent s
      (nextFile (unixio os) t) new := by
  obtain ⟨ready, input⟩ := @Acked.nxtpkt _ (fun _ => []) _ _ acked
  have noFile : (onK nxtpkt t).k.filelist = [] :=
    acked.filelist.trans filelist
  obtain ⟨lower, upper⟩ := nextSeq_bounds s.k.sSeq
  have route : nextFile (unixio os) t =
      sendBreak (unixio os) (onK nxtpkt t) := by
    unfold nextFile
    dsimp only
    rw [noFile]
  rw [route] at filed ⊢
  obtain ⟨fine, one, state⟩ := sendBreak_sends linked ready
  refine ⟨_, OffersNext.of_sent offering fine (acked.one one) rfl rfl
    (show Framing s.k.par from offering.usual.framing) rfl rfl (filed fine) ?_
    (genuine_end name (.inr rfl) lower upper) ?_⟩
  · rw [shape]
    exact .finished kind rfl
  · have same : (sendBreak (unixio os) (onK nxtpkt t)).2.k.par =
        agreedPar := (one.par.trans input.par).trans par
    refine .eot rfl state same ?_ ⟨item, by rw [shape]; exact .head _, kind⟩
    rw [shape, content_of_ne (by rw [kind]; decide)]
    exact whole

/-- The ACK to F: A. -/
theorem afterFile_offers
    (server : FileServer os unread)
    (offering : Offering os unread rootPath name file sent s)
    (acked : Acked s t)
    {item : Item}
    {rest : List Item}
    (shape : sent = item :: rest)
    (kind : item.typ = ch 'F')
    (par : s.k.par = agreedPar)
    (filelist : s.k.filelist = [])
    {ahead : List UInt8}
    (whole : content sent ++ ahead = file)
    (unclosed : ∀ other ∈ sent, other.typ ≠ ch 'Z')
    {n : Nat}
    (yields :
      Yields (unixio os) (fun w => unread w.os) True n (Covers ahead) s)
    (filed :
      (afterFile (unixio os) t).1 = xOk → Filed (afterFile (unixio os) t).2.k) :
    ∃ new, OffersNext os unread rootPath name file sent s
      (afterFile (unixio os) t) new := by
  obtain ⟨ready, input⟩ := @Acked.nxtpkt _ (fun w => unread w.os) _ _ acked
  obtain ⟨lower, upper⟩ := nextSeq_bounds s.k.sSeq
  have settings : (onK nxtpkt t).k.par = agreedPar := input.par.trans par
  obtain ⟨fine, -, later⟩ := sattr_sends server.served ready
  have one := sattr_offers server.served.linked ready
    (by rw [settings]; rfl)
  have route : afterFile (unixio os) t =
      awaitSent (setState .sAttr (sattr (unixio os) (onK nxtpkt t)).2) := by
    unfold afterFile
    dsimp only
    rw [settings, if_pos (by decide), if_neg (not_not.mpr fine)]
  rw [route] at filed ⊢
  have sentOne := (one.setState .sAttr).await
  refine ⟨_, OffersNext.of_sent offering rfl (acked.one sentOne) rfl rfl
    (show Framing s.k.par from offering.usual.framing) rfl rfl (filed rfl) ?_
    (genuine_attributes name lower upper) ?_⟩
  · rw [shape]
    exact .attributes kind rfl
  · have same := later.par.trans settings
    refine .data (.inl rfl) (.inl rfl) (fun data => ?_) same ?_ ?_ ?_
      (yields.same (input.trans (later.trans
        ⟨rfl, rfl, rfl, rfl, rfl, rfl, rfl, rfl, id, rfl⟩)))
    · exact absurd (show State.sAttr = .sData from data) (by decide)
    · exact (one.filelist.trans acked.filelist).trans filelist
    · rw [content, if_neg (show ¬ ch 'A' = ch 'D' by decide),
        List.append_nil]
      exact whole
    · intro other member
      rcases List.mem_cons.mp member with rfl | member
      · show ch 'A' ≠ ch 'Z'
        decide
      · exact unclosed other member

/-- The ACK to A or D: the next data or Z. -/
theorem afterData_offers
    (server : FileServer os unread)
    (offering : Offering os unread rootPath name file sent s)
    (acked : Acked s t)
    {item : Item}
    {rest : List Item}
    (shape : sent = item :: rest)
    (kind : item.typ = ch 'A' ∨ item.typ = ch 'D')
    (state : s.k.state = .sAttr ∨ s.k.state = .sData)
    (par : s.k.par = agreedPar)
    (filelist : s.k.filelist = [])
    {ahead : List UInt8}
    (whole : content sent ++ ahead = file)
    (unclosed : ∀ other ∈ sent, other.typ ≠ ch 'Z')
    {n : Nat}
    (yields :
      Yields (unixio os) (fun w => unread w.os) True n (Covers ahead) s)
    (filed :
      (afterData (unixio os) t).1 = xOk → Filed (afterData (unixio os) t).2.k) :
    ∃ new, OffersNext os unread rootPath name file sent s
      (afterData (unixio os) t) new := by
  have input := acked.input (fun w => unread w.os)
  obtain ⟨lower, upper⟩ := nextSeq_bounds s.k.sSeq
  have keeps : t.k.cfg.cancel = 0 := by
    rw [input.cfg, offering.cfg]
    rfl
  obtain ⟨last, earlier, head, number, -⟩ := offering.outstanding
  obtain ⟨rfl, -⟩ := List.cons.inj (head.symm.trans shape)
  cases n with
  | zero =>
      exact absurd yields id
  | succ n =>
      rcases afterData_yields server.served keeps acked.ready
        (acked.state ▸ state) (yields.same input) with
        toEof | ⟨field, toData⟩
      · have one := acked.one toEof.sent
        have same := one.par.trans par
        refine ⟨_, OffersNext.of_sent offering toEof.fine one rfl rfl
          (show Framing s.k.par from offering.usual.framing) rfl rfl
          (filed toEof.fine) ?_
          (genuine_end name (.inl rfl) lower upper) ?_⟩
        · rw [shape]
          rcases kind with kind | kind
          · exact .emptyFile (.inr kind) rfl
          · exact .ending kind rfl
        · have none : ahead = [] := toEof.reached.whole.symm
          rw [none, List.append_nil] at whole
          exact .eof rfl toEof.state same (one.filelist.trans filelist) whole
            unclosed
      · have one := acked.one toData.sent
        have same := one.par.trans par
        obtain ⟨fields, covers⟩ := toData.more.some
        have good := covers.each field List.mem_cons_self
        have split := covers.whole
        rw [List.flatMap_cons] at split
        have wholeNow :
            content (⟨ch 'D', (s.k.sSeq + 1) % 64, field⟩ :: sent) ++
              fields.flatMap (decodeMem agreedPar) = file := by
          rw [content, if_pos rfl, List.append_assoc, split]
          exact whole
        refine ⟨_, OffersNext.of_sent offering toData.fine one rfl rfl
          (show Framing s.k.par from offering.usual.framing) rfl rfl
          (filed toData.fine) ?_
          (good.genuine lower upper) ?_⟩
        · rw [shape]
          rcases kind with kind | kind
          · exact .firstData (.inr kind) rfl
          · exact .nextData kind rfl (by rw [number])
        · refine .data (.inr rfl) (.inr toData.state) (fun _ => rfl) same
            (one.filelist.trans filelist) wholeNow ?_ (toData.more.imp ?_)
          · intro other member
            rcases List.mem_cons.mp member with rfl | member
            · show ch 'D' ≠ ch 'Z'
              decide
            · exact unclosed other member
          · intro more covers'
            refine ⟨fun other member =>
              covers'.each other (List.mem_cons_of_mem _ member), ?_⟩
            have rest := covers'.whole
            rw [List.flatMap_cons, ← split] at rest
            exact List.append_cancel_left rest

/-- What the init string of a fresh peer leads to. -/
theorem HeardAs.negotiated
    {seq : Int}
    {rx : Rx}
    {p : Rcvd}
    {buf : List UInt8}
    (heardAs : HeardAs (ch 'Y') seq freshInit rx s p buf)
    (cfg : s.k.cfg = freshCfg rootPath)
    (par : Usual s.k.par) :
    Kermit.negotiated (heardSys rx s).k p buf = agreedPar := by
  obtain ⟨tail, memory⟩ := heardAs.memory
  have field : ∀ place, place < 13 →
      peek buf (p.pdf + (place + 1) - 1) = peek freshInit place := by
    intro place inside
    have there : peek (buf.drop p.pdf) place =
        peek (freshInit ++ 0 :: tail) place := congrArg (peek · place) memory
    rw [peek_drop] at there
    rw [show p.pdf + (place + 1) - 1 = p.pdf + place from rfl, there]
    exact peek_append_left (freshInit_length ▸ inside) _
  have agreed := par.sparParams rootPath
    (fun place => peek buf (p.pdf + place - 1)) field
  have settings : (heardSys rx s).k.cfg = freshCfg rootPath := cfg
  unfold Kermit.negotiated
  rw [settings, heardAs.read.datalen]
  exact agreed

/-- The ACK to S: the file is opened, and F names it. -/
theorem start_offers
    (server : FileServer os unread)
    (offers :
      Offers os unread (kaddRootpath (freshCfg rootPath).rootpath name) file)
    (plain : PlainName rootPath name)
    (offering : Offering os unread rootPath name file sent s)
    {item : Item}
    (shape : sent = [item])
    (kind : item.typ = ch 'S')
    (state : s.k.state = .sInit)
    (filelist : s.k.filelist = [.xdatabuf])
    (counted : s.k.enc.sRpt = 0)
    (named : cstr s.k.enc.xdatabuf = name)
    {p : Rcvd}
    {buf : List UInt8}
    (negotiated : Kermit.negotiated s.k p buf = agreedPar) :
    ∃ new, OffersNext os unread rootPath name file sent s
      (afterAck (unixio os) [] p buf s) new := by
  obtain ⟨lower, upper⟩ := nextSeq_bounds s.k.sSeq
  have path : requestedPath s.k =
      kaddRootpath (freshCfg rootPath).rootpath name := by
    unfold requestedPath
    rw [offering.cfg, named]
  obtain ⟨opens, unopened⟩ := offers s.w.os
  rw [← path] at opens unopened
  have small : (Kermit.negotiated s.k p buf).sMaxlen ≤ pPktlen := by
    rw [negotiated]
    decide
  obtain ⟨fine, announced, ⟨t, naming, more, seq, log, frames⟩, data, one⟩ :=
    offering.awaiting.opens server.served.linked state filelist offering.what
      counted small (Prod.ext opens rfl) []
  have filed := filed_afterAck offering.filed offering.sender p buf fine
  rw [negotiated] at announced naming frames one
  generalize afterAck (unixio os) [] p buf s = result at *
  have text : cstr t.k.enc.xdatabuf = name := by
    rw [naming.text]
    exact named
  have noForce : s.k.cfg.bcta3 = 0 := by
    rw [offering.cfg]
    rfl
  have settings : t.k.cfg = freshCfg rootPath :=
    naming.cfg.trans offering.cfg
  obtain ⟨-, encoded⟩ := encstr_ahead (unixio os)
    (naming.encodes noForce (by decide))
    (by rw [text, settings, naming.par]; exact plain.fits)
    (by rw [text, settings, naming.par]; exact plain.safe.ahead)
  have clean : 0 ∉ nameField rootPath name :=
    (clean_encodeRuns rootPath (said_textRuns agreedPar.rptflg name)).1
  rw [text, settings, naming.par,
    show cstr (encodeRuns (freshCfg rootPath) agreedPar
      (textRuns agreedPar.rptflg name)) = nameField rootPath name from
        cstr_of_notMem clean] at encoded
  rw [encoded] at frames
  have field : data = nameField rootPath name := by
    obtain ⟨later, log', frames'⟩ := one.log
    have both : newTxds s.log result.2.log = newTxds s.log result.2.log := rfl
    nth_rewrite 1 [log] at both
    rw [show result.2.log = later ++ s.log from log', newTxds_append,
      newTxds_append, frames, frames'] at both
    have same := congrArg (frameData agreedPar.bct)
      (List.cons.inj both).1
    rw [frameData_pktFrame (by decide)] at same
    exact ((frameData_pktFrame (by decide) _ _ _).symm.trans same.symm)
  subst field
  have longest := longestRun_bounds agreedPar
  obtain ⟨held, count, -, none⟩ := announced.counted
  have fresh : result.2.k.enc.sRpt = 0 := by
    rw [count, none (.inl (by decide))]
    rfl
  have cfg : result.2.k.cfg = freshCfg rootPath :=
    announced.cfg.trans offering.cfg
  have unread' := announced.unread server
  rw [unopened] at unread'
  have sending : Sending (fun w => unread w.os) file result.2 := by
    refine ⟨⟨?_, ?_, ?_⟩, .inl ?_, announced.noString,
      .first announced.flag fresh unread'⟩
    · rw [cfg, announced.par]
      exact plain_freshCfg rootPath
    · rw [announced.par]
      decide
    · rw [announced.par]
      decide
    · rw [cfg]
      rfl
  have yields := sending.covers (readsFile_unixio server.reads) cfg
    announced.par (Nat.lt_succ_self _)
  have framing : Framing agreedPar := Usual.framing (.inr rfl)
  refine ⟨_, OffersNext.of_sent offering fine one rfl rfl framing rfl rfl
    filed ?_ (plain.genuine lower upper) (.named rfl announced.state
      announced.par announced.filelist ?_ ?_ yields)⟩
  · rw [shape]
    exact .name kind rfl
  · rw [content, if_neg (show ¬ ch 'F' = ch 'D' by decide), shape,
      content_of_ne (by rw [kind]; decide)]
    rfl
  · intro other member
    rcases List.mem_cons.mp member with rfl | member
    · show ch 'F' ≠ ch 'Z'
      decide
    · rw [shape] at member
      rw [List.mem_singleton.mp member, kind]
      decide

/-- The acknowledgment of the outstanding packet. -/
theorem Offering.acked
    (server : FileServer os unread)
    (offers :
      Offers os unread (kaddRootpath (freshCfg rootPath).rootpath name) file)
    (plain : PlainName rootPath name)
    (offering : Offering os unread rootPath name file sent s)
    {item : Item}
    {rest : List Item}
    (shape : sent = item :: rest)
    {rx : Rx}
    {data : List UInt8}
    {p : Rcvd}
    {buf : List UInt8}
    (heardAs : HeardAs (ch 'Y') s.k.sSeq data rx s p buf)
    (answers :
      (∃ other ∈ sent, other.typ = ch 'Z') ∨ data ∈ replies name item.typ) :
    (∃ new, OffersNext os unread rootPath name file sent s
      (kermit (unixio os) .run rx.ret [] (heardSys rx s)) new) ∨
    ((kermit (unixio os) .run rx.ret [] (heardSys rx s)).1 = xDone ∧
      item.typ = ch 'B' ∧
      (kermit (unixio os) .run rx.ret [] (heardSys rx s)).2.log = s.log) := by
  have heard := offering.heard rx
  have keeps : (heardSys rx s).k.cfg.cancel = 0 := by
    rw [heard.cfg]
    rfl
  have ack : ValidAck (heardSys rx s).k.sSeq (heardSys rx s).k rx.ret p buf :=
    ⟨heardAs.long, heardAs.good, heardAs.read.rtyp, heardAs.read.rseq⟩
  have goesOn : (heardSys rx s).k.state = .sData → ¬ CancelsSend p buf := by
    intro state
    have plainData : data = [] := by
      have at' : s.k.state = .sData := state
      subst shape
      cases offering.stage with
      | start _ other | named _ other | eof _ other | eot _ other =>
          exact absurd (other.symm.trans at') (by decide)
      | data _ _ kind _ _ _ unclosed =>
          have among := answers.resolve_left fun ⟨other, member, isZ⟩ =>
            unclosed other member isZ
          rw [replies_end name (.inl (kind at'))] at among
          exact List.mem_singleton.mp among
    obtain ⟨tail, memory⟩ := heardAs.memory
    rw [plainData] at memory
    have first : peek (buf.drop p.pdf) 0 = 0 :=
      congrArg (peek · 0) memory
    unfold CancelsSend
    rw [first]
    decide
  have called := kermit_ack (unixio os) heard.awaiting heard.what keeps
    heard.sender.set (doRxd_awaiting offering.awaiting) ack goesOn []
  rw [called]
  have filed := @filed_afterAck _ os _ heard.filed heard.sender p buf
  obtain ⟨t, acked, route⟩ : ∃ t, Acked (heardSys rx s) t ∧
      afterAck (unixio os) [] p buf (heardSys rx s) =
        stateStage (unixio os) [] p t :=
    ⟨_, acked_of_awaiting heard.awaiting buf s.r.sofarRumor, rfl⟩
  have next : ∀ {result}, (∃ new, OffersNext os unread rootPath name file sent
      (heardSys rx s) result new) →
        ∃ new, OffersNext os unread rootPath name file sent s result new := by
    rintro result ⟨new, fine, comes, number, offering, log⟩
    exact ⟨new, fine, comes, number, offering, log⟩
  have usual := offering.usual
  have stage := heard.stage
  subst shape
  cases stage with
  | start kind state par filelist counted named =>
      have among : data = freshInit := by
        have among := answers.resolve_left fun ⟨other, member, isZ⟩ => by
          rw [List.mem_singleton.mp member, kind] at isZ
          exact absurd isZ (by decide)
        rw [kind] at among
        exact List.mem_singleton.mp among
      rw [among] at heardAs
      exact .inl (next (start_offers server offers plain heard rfl kind state
        filelist counted named (heardAs.negotiated offering.cfg usual)))
  | named kind state par filelist whole unclosed yields =>
      have at' : t.k.state = .sFile := acked.state.trans state
      have stage : stateStage (unixio os) [] p t = afterFile (unixio os) t := by
        unfold stateStage
        rw [at']
      rw [route, stage] at filed ⊢
      exact .inl (next (afterFile_offers server heard acked rfl kind par
        filelist whole unclosed yields filed))
  | data kind state _ par filelist whole unclosed yields =>
      have stage : stateStage (unixio os) [] p t = afterData (unixio os) t := by
        have at' := state
        rw [← acked.state] at at'
        unfold stateStage
        rcases at' with at' | at'
        all_goals rw [at']
      rw [route, stage] at filed ⊢
      exact .inl (next (afterData_offers server heard acked rfl kind state par
        filelist whole unclosed yields filed))
  | eof kind state par filelist whole unclosed =>
      have at' : t.k.state = .sEof := acked.state.trans state
      have free : ¬ nusedSslots t.k > 0 := by
        have none := acked.ready.free
        simp [nusedSslots, slots_one acked.ready.wf.window]
        omega
      have stage : stateStage (unixio os) [] p t = nextFile (unixio os) t := by
        unfold stateStage
        rw [at']
        dsimp only
        rw [if_neg free]
      rw [route, stage] at filed ⊢
      exact .inl (next (nextFile_offers server.served.linked heard acked rfl
        kind par filelist whole filed))
  | eot kind state par whole closed =>
      have at' : t.k.state = .sEot := acked.state.trans state
      have stage : stateStage (unixio os) [] p t =
          (xDone, reportFile .get t) := by
        unfold stateStage
        rw [at']
      rw [route, stage]
      refine .inr ⟨rfl, kind, ?_⟩
      have log : (reportFile .get t).log = t.log := by
        unfold reportFile
        split <;> rfl
      exact log.trans acked.log

end Offering

end Slate106.Kermit
