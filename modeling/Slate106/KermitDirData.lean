import Slate106.JsonText
import Slate106.KermitGet
import Slate106.KermitListing

namespace Slate106.Kermit

open CBytes
open JsonText

/-!
# What the listing says

The listing that `kgetdirdata` puts together is a table with a record for
each accepted entry, written without escapes: names go into it as they are.
A D packet carries it as it is as well, behind the back of the encoder.
-/

variable {σ : Type}

/-! ## The entries -/

/-- The name and the etag of an entry that is listed. -/
def acceptedEntry
    (entry : DirEntry) : Option (List UInt8 × UInt32) :=
  if entry.regular ∧ entry.opens then
    if entry.etag = none ∧ peek entry.name 0 = ch '.' then
      some (entry.name, 0)
    else entry.etag.map fun etag => (entry.name, etag)
  else none

/-- What a listing has to say: the first entries of those that are accepted. -/
def accepted
    (entries : List DirEntry) : List (List UInt8 × UInt32) :=
  (entries.filterMap acceptedEntry).take kDirMax

/-- An entry of the listing. -/
def entryRecord
    (entry : List UInt8 × UInt32) : List Field :=
  [(lit "filename", entry.1), (lit "etag", hex8 entry.2)]

/-- The listing as a table. -/
def listingTable
    (entries : List DirEntry) : List (List Field) :=
  (accepted entries).map entryRecord

theorem listingEntry_text
    (first : Bool)
    (entry : List UInt8 × UInt32) :
    listingEntry first entry.1 entry.2 =
      if first then recordText (entryRecord entry)
      else comma :: recordText (entryRecord entry) := by
  cases first <;> simp [listingEntry, recordText, entryRecord, commas,
    fieldText, quoted, lit, ch]

/-- What is appended to a listing of some entries for further ones. -/
def appended
    (cnt : Nat)
    (entries : List (List UInt8 × UInt32)) : List UInt8 :=
  let texts := entries.map fun entry => recordText (entryRecord entry)
  if cnt = 0 then commas texts else others texts

theorem appended_nil
    (cnt : Nat) :
    appended cnt [] = [] := by
  unfold appended
  split <;> rfl

theorem appended_cons
    (cnt : Nat)
    (entry : List UInt8 × UInt32)
    (entries : List (List UInt8 × UInt32)) :
    appended cnt (entry :: entries) =
      listingEntry (cnt = 0) entry.1 entry.2 ++ appended (cnt + 1) entries := by
  rw [listingEntry_text]
  unfold appended
  by_cases first : cnt = 0
  · simp [first, commas, others]
  · simp [first]

/-- An entry that is not accepted leaves the listing as it is. -/
theorem listEntries_rejected
    {entry : DirEntry}
    (rejected : acceptedEntry entry = none)
    (kfilename : List UInt8)
    (rest : List DirEntry)
    (cnt : Nat)
    (pdf scratch : List UInt8)
    (calls : List FileCall) :
    ∃ scratch' calls',
      listEntries kfilename (entry :: rest) cnt pdf scratch calls =
        listEntries kfilename rest cnt pdf scratch' calls' := by
  unfold acceptedEntry at rejected
  by_cases regular : entry.regular
  case neg =>
    simp only [listEntries, regular]
    exact ⟨_, _, rfl⟩
  by_cases opens : entry.opens
  case neg =>
    simp only [listEntries, regular, opens]
    exact ⟨_, _, rfl⟩
  rw [if_pos ⟨regular, opens⟩] at rejected
  split at rejected
  case isTrue => cases rejected
  case isFalse hidden =>
    have broken := Option.map_eq_none_iff.mp rejected
    have visible : ¬ peek entry.name 0 = ch '.' :=
      fun dot => hidden ⟨broken, dot⟩
    simp only [listEntries, regular, opens, broken, visible, and_false,
      if_false]
    exact ⟨_, _, rfl⟩

theorem listEntries_accepted
    {entry : DirEntry}
    {item : List UInt8 × UInt32}
    (listed : acceptedEntry entry = some item)
    (kfilename : List UInt8)
    (rest : List DirEntry)
    (cnt : Nat)
    (pdf scratch : List UInt8)
    (calls : List FileCall) :
    ∃ scratch' calls',
      listEntries kfilename (entry :: rest) cnt pdf scratch calls =
        if cnt + 1 = kDirMax then
          (pdf ++ listingEntry (cnt = 0) item.1 item.2, scratch', calls')
        else
          listEntries kfilename rest (cnt + 1)
            (pdf ++ listingEntry (cnt = 0) item.1 item.2) scratch' calls' := by
  unfold acceptedEntry at listed
  split at listed
  case isFalse => cases listed
  case isTrue found =>
    obtain ⟨regular, opens⟩ := found
    split at listed
    case isTrue hidden =>
      obtain rfl := Option.some.inj listed
      simp only [listEntries, regular, opens, if_pos hidden]
      exact ⟨_, _, rfl⟩
    case isFalse visible =>
      obtain ⟨etag, computed, rfl⟩ := Option.map_eq_some_iff.mp listed
      simp only [listEntries, regular, opens, computed]
      exact ⟨_, _, rfl⟩

/-- The loop appends the entries that are accepted, up to the largest number. -/
theorem listEntries_text
    (kfilename : List UInt8)
    (entries : List DirEntry)
    {cnt : Nat}
    (room : cnt < kDirMax)
    (pdf scratch : List UInt8)
    (calls : List FileCall) :
    (listEntries kfilename entries cnt pdf scratch calls).1 =
      pdf ++ appended cnt
        ((entries.filterMap acceptedEntry).take (kDirMax - cnt)) := by
  induction entries generalizing cnt pdf scratch calls with
  | nil => simp [listEntries, appended_nil]
  | cons entry rest ih =>
      cases listed : acceptedEntry entry with
      | none =>
          obtain ⟨_, _, same⟩ :=
            listEntries_rejected listed kfilename rest cnt pdf scratch calls
          rw [same, ih room, List.filterMap_cons_none listed]
      | some item =>
          obtain ⟨scratch', calls', same⟩ :=
            listEntries_accepted listed kfilename rest cnt pdf scratch calls
          obtain ⟨left, more⟩ : ∃ left, kDirMax - cnt = left + 1 :=
            Nat.exists_eq_succ_of_ne_zero (Nat.sub_ne_zero_of_lt room)
          rw [same, List.filterMap_cons_some listed, more,
            List.take_succ_cons, appended_cons, ← List.append_assoc]
          split
          case isTrue full =>
            obtain rfl : left = 0 := by omega
            rw [List.take_zero, appended_nil, List.append_nil]
          case isFalse goesOn =>
            obtain rfl : left = kDirMax - (cnt + 1) := by omega
            exact ih (by omega) _ _ _

/-- The listing is the table of the entries that are accepted. -/
theorem kgetdirdata_text
    (os : Os σ)
    (w : Unix σ)
    (k : KData)
    {entries : List DirEntry}
    (directory :
      (os.readdir w.os (kaddRootpath k.cfg.rootpath (cstr k.dirname))).1 =
        some entries) :
    (kgetdirdata os w k).1 = xOk ∧
      (kgetdirdata os w k).2.2.1 = tableText (listingTable entries) := by
  unfold kgetdirdata
  dsimp only
  rw [directory]
  refine ⟨rfl, ?_⟩
  show (listEntries _ entries 0 (lit "[") _ _).1 ++ lit "]" = _
  rw [listEntries_text _ entries (by decide)]
  simp [tableText, listingTable, accepted, appended, Function.comp_def, lit,
    ch]

/-! ## The strings of a listing -/

theorem presentable_hex8
    (etag : UInt32) :
    Presentable (hex8 etag) := by
  have digit : ∀ n < 16, Unescaped (hexDigit n) ∧ hexDigit n < 0x80 := by
    decide
  refine presentable_ascii (List.forall_mem_map.mpr ?_)
  intro i _
  exact digit _ (Nat.mod_lt _ (by decide))

theorem presentable_record_iff
    (entry : List UInt8 × UInt32) :
    (∀ field ∈ entryRecord entry,
        Presentable field.1 ∧ Presentable field.2) ↔
      Presentable entry.1 := by
  have filename : Presentable (lit "filename") :=
    presentable_ascii (by decide +kernel)
  have etag : Presentable (lit "etag") := presentable_ascii (by decide +kernel)
  simp [entryRecord, filename, etag, presentable_hex8]

/-- The text says what the entries are, and no byte of it ends or starts a packet. -/
structure SaysEntries
    (entries : List DirEntry)
    (text : List UInt8) : Prop where
  denotes : Denotes text (tableValue (listingTable entries))
  noEnd : packetEnd ∉ text
  noStart : packetStart ∉ text

theorem saysEntries_iff
    (entries : List DirEntry) :
    SaysEntries entries (tableText (listingTable entries)) ↔
      ∀ entry ∈ accepted entries, Presentable entry.1 := by
  have records :
      (∀ record ∈ listingTable entries, ∀ field ∈ record,
          Presentable field.1 ∧ Presentable field.2) ↔
        ∀ entry ∈ accepted entries, Presentable entry.1 := by
    rw [listingTable, List.forall_mem_map]
    exact forall₂_congr fun entry _ => presentable_record_iff entry
  constructor
  · intro told
    exact records.mp ((denotes_tableText_iff _).mp told.denotes)
  · intro presentable
    have strings := records.mpr presentable
    have visible : ∀ c ∈ tableText (listingTable entries), 0x20 ≤ c :=
      forall_mem_tableText (by decide +kernel) fun record among field member =>
        ⟨fun c inside =>
            ((strings record among field member).1.literal c inside).1,
          fun c inside =>
            ((strings record among field member).2.literal c inside).1⟩
    exact ⟨(denotes_tableText_iff _).mpr strings,
      fun inside => absurd (visible _ inside) (by decide),
      fun inside => absurd (visible _ inside) (by decide)⟩

/-- No name of an entry has a zero byte, so the listing has none. -/
theorem zero_notMem_listing
    {entries : List DirEntry}
    (names : ∀ entry ∈ entries, (0 : UInt8) ∉ entry.name) :
    (0 : UInt8) ∉ tableText (listingTable entries) := by
  have visible : ∀ c ∈ tableText (listingTable entries), c ≠ 0 := by
    refine forall_mem_tableText (by decide +kernel) ?_
    refine List.forall_mem_map.mpr fun item among => ?_
    obtain ⟨entry, member, listed⟩ :=
      List.mem_filterMap.mp (List.mem_of_mem_take among)
    have named : item.1 = entry.name := by
      unfold acceptedEntry at listed
      split at listed
      · split at listed
        · exact congrArg Prod.fst (Option.some.inj listed).symm
        · obtain ⟨_, -, same⟩ := Option.map_eq_some_iff.mp listed
          exact congrArg Prod.fst same.symm
      · cases listed
    have name : ∀ c ∈ item.1, c ≠ 0 := by
      rintro c inside rfl
      exact names entry member (named ▸ inside)
    have etag : ∀ c ∈ hex8 item.2, c ≠ 0 := by
      rintro c inside rfl
      exact absurd ((presentable_hex8 item.2).literal 0 inside) (by decide)
    simp only [entryRecord, List.forall_mem_cons]
    exact ⟨⟨by decide +kernel, name⟩, ⟨by decide +kernel, etag⟩, List.forall_mem_nil _⟩
  exact fun inside => visible 0 inside rfl

/-! ## The D packet -/

/-- The directory that is listed when X is acknowledged. -/
def listedDirname
    (k : KData) : KData :=
  { k with dirname := (cstr k.enc.xdatabuf).take (dnMax - 1) }

/-- X is outstanding in a DIR transaction, and a packet was read. -/
structure AtText
    (k : KData) : Prop where
  awaiting : Awaiting k
  state : k.state = .sText
  what : k.what = .dir
  received : k.doRxd = true

/--
The listing of the entries was built and went out in a D packet, and it says
what the entries are.
-/
def ListsDirectory
    (os : Os σ)
    (entries : List DirEntry)
    (s s' : Sys (Unix σ)) : Prop :=
  ∃ text rc later,
    (kgetdirdata os s.w (listedDirname s.k)).2.2.1 = text ∧
      s'.log = later ++
        (.txd (pktFrame s.k.par (ch 'D') s.k.sSeq text) rc ::
          .getdirdata xOk :: s.log) ∧
      SaysEntries entries text

/-- The string at `pdf` is the listing that was put there. -/
theorem xdataMem_putListing
    (p : Rcvd)
    (listing : List UInt8)
    (s : Sys (Unix σ)) :
    ∃ rest, xdataMem (putListing p listing s).k = listing ++ 0 :: rest := by
  refine ⟨s.k.ipktbuf.drop (p.pdf + (listing ++ [0]).length), ?_⟩
  show (poke s.k.ipktbuf p.pdf (listing ++ [0])).drop p.pdf = _
  rw [drop_poke, List.append_assoc]
  rfl

/-- The D packet goes out with the text that was listed. -/
theorem dirAckText_sends
    {os : Os σ}
    {s : Sys (Unix σ)}
    (p : Rcvd)
    (ready : Ready s.k)
    {text : List UInt8}
    (noZero : (0 : UInt8) ∉ text)
    (listed : (kgetdirdata os s.w (listedDirname s.k)).1 = xOk)
    (built : (kgetdirdata os s.w (listedDirname s.k)).2.2.1 = text)
    (fits : (pktFrame s.k.par (ch 'D') s.k.sSeq text).length < pBuflen) :
    ∃ rc later,
      (dirAckText (unixio os) p s).2.log = later ++
        (.txd (pktFrame s.k.par (ch 'D') s.k.sSeq text) rc ::
          .getdirdata xOk :: s.log) := by
  obtain ⟨-, win, taken, readyNow, -, -⟩ := ready.takeSslot
  have slotted : onK (fun k => (takeSslot k).2) s =
      { s with k.win := win } := by
    rw [onK, taken]
  have first : callGetdirdata (unixio os)
        (noteDirname p { s with k.win := win }) =
      (xOk, text,
        { s with
          k.win := win
          k.dirname := (cstr s.k.enc.xdatabuf).take (dnMax - 1)
          k.ipktbuf := poke s.k.ipktbuf p.pdf [0]
          k.enc.xdatabuf := (kgetdirdata os s.w (listedDirname s.k)).2.1
          w := (kgetdirdata os s.w (listedDirname s.k)).2.2.2
          log := .getdirdata xOk :: s.log }) := by
    rw [← listed, ← built]
    rfl
  unfold dirAckText
  dsimp only
  rw [slotted, first]
  dsimp only
  rw [if_neg (not_not.mpr rfl)]
  generalize laid : putListing p text _ = t
  obtain ⟨rest, memory⟩ : ∃ rest, xdataMem t.k = text ++ 0 :: rest :=
    laid ▸ xdataMem_putListing p text _
  have kept : t.k.par = s.k.par ∧ t.k.sSeq = s.k.sSeq ∧
      t.log = .getdirdata xOk :: s.log := by
    subst laid
    exact ⟨rfl, rfl, rfl⟩
  have readyThen : Ready t.k := by
    subst laid
    exact readyNow.same rfl rfl rfl rfl
  obtain ⟨par, sSeq, log⟩ := kept
  have data : spktData text.length (some (xdataMem t.k)) = text := by
    simp only [spktData, if_neg (Int.not_lt.mpr (Int.natCast_nonneg _)),
      memory, Int.toNat_natCast]
    simp [List.takeD_eq_take]
  have room : (pktFrame t.k.par (ch 'D') t.k.sSeq
      (spktData text.length (some (xdataMem t.k)))).length < pBuflen := by
    rw [data, par, sSeq]
    exact fits
  obtain ⟨win, sent, -⟩ := spkt_ready (unixio os)
    (show isUnslotted (ch 'D') = false by decide) readyThen room
  have went : ∃ rc, (spktXdata (unixio os) (ch 'D') t).2.log =
      .txd (pktFrame s.k.par (ch 'D') s.k.sSeq text) rc ::
        .getdirdata xOk :: s.log := by
    refine ⟨(callTxd (unixio os) (pktFrame s.k.par (ch 'D') s.k.sSeq text)
      { t with k.win := win }).1, ?_⟩
    unfold spktXdata
    dsimp only
    rw [memory, cstr_append_zero noZero, ← memory, sent, data, par, sSeq,
      ← log]
    rfl
  obtain ⟨rc, went⟩ := went
  refine ⟨rc, ?_⟩
  generalize spktXdata (unixio os) (ch 'D') t = last at went
  split
  · exact ⟨[], went⟩
  · obtain ⟨later, more⟩ :=
      (@works_epkt _ (unixio os) (lit "Cannot send D packet") last.2).log
    exact ⟨later, went ▸ more⟩

/-- The turn in which X is acknowledged. -/
theorem kermit_dirAckText
    {os : Os σ}
    {s : Sys (Unix σ)}
    (text : AtText s.k)
    {len : Int}
    {p : Rcvd}
    {buf : List UInt8}
    (ack : ValidAck s.k.sSeq s.k len p buf)
    (msg : List UInt8) :
    ∃ win, Ready { s.k with win := win, ipktbuf := buf } ∧
      kermit (unixio os) .run len msg s =
        dirAckText (unixio os) p
          { s with k := { s.k with win := win, ipktbuf := buf } } := by
  obtain ⟨awaiting, state, what, received⟩ := text
  have set : s.k.state ≠ .rNone := by
    rw [state]
    decide
  rw [kermit_dirAck awaiting.wf set received what ack.long ack.good ack.rtyp]
  obtain ⟨wf, outstanding, upper⟩ := awaiting
  obtain ⟨win, freed, ready⟩ :=
    Awaiting.acknowledge (k := { s.k with ipktbuf := buf })
      ⟨⟨wf.noForce, wf.oneSlot, wf.window, wf.noWindowing, wf.received,
        wf.kept, wf.mapped⟩, ⟨outstanding.number, outstanding.lower,
        outstanding.mapped, outstanding.nonempty, outstanding.fits⟩, upper⟩
  refine ⟨win, ready, ?_⟩
  have slot : s.k.win.sPw p.rseq = 0 := by
    rw [ack.rseq]
    exact outstanding.mapped
  have inside : ((0 : Int) < 0 || (0 : Int) ≥ s.k.par.wslots) = false := by
    rw [wf.window]
    rfl
  unfold dirAck
  dsimp only
  rw [slot, if_neg (by rw [inside]; exact Bool.false_ne_true), onK, freed]
  simp only [state]

/--
The turn in which the listing of a directory is due: X is acknowledged, the
directory has the entries, and their listing fits a packet.
-/
structure ListingDue
    (os : Os σ)
    (entries : List DirEntry)
    (s : Sys (Unix σ))
    (len : Int)
    (p : Rcvd)
    (buf : List UInt8) : Prop where
  text : AtText s.k
  ack : ValidAck s.k.sSeq s.k len p buf
  directory :
    (os.readdir s.w.os
      (kaddRootpath s.k.cfg.rootpath (cstr (listedDirname s.k).dirname))).1 =
        some entries
  names : ∀ entry ∈ entries, (0 : UInt8) ∉ entry.name
  fits :
    (pktFrame s.k.par (ch 'D') s.k.sSeq
      (tableText (listingTable entries))).length < pBuflen

section Due

variable {os : Os σ}
variable {entries : List DirEntry}
variable {s : Sys (Unix σ)}
variable {len : Int}
variable {p : Rcvd}
variable {buf : List UInt8}

/-- What the packet says is what the listing says. -/
theorem listsDirectory_iff
    (due : ListingDue os entries s len p buf)
    (msg : List UInt8) :
    ListsDirectory os entries s (kermit (unixio os) .run len msg s).2 ↔
      SaysEntries entries (tableText (listingTable entries)) := by
  obtain ⟨listed, built⟩ :=
    kgetdirdata_text os s.w (listedDirname s.k) due.directory
  constructor
  · rintro ⟨_, _, _, same, -, told⟩
    exact (same.symm.trans built) ▸ told
  · intro told
    obtain ⟨win, ready, turn⟩ := kermit_dirAckText due.text due.ack msg
    obtain ⟨rc, later, sent⟩ := dirAckText_sends
      (s := { s with k := { s.k with win := win, ipktbuf := buf } }) p ready
      (zero_notMem_listing due.names) listed built due.fits
    rw [turn]
    exact ⟨_, rc, later, built, sent, told⟩

/--
The D packet says what the directory contains exactly when the name of every
entry in it is UTF-8 text without control characters, quotation marks and
backslashes.
-/
theorem dir_lists_entries_iff
    (due : ListingDue os entries s len p buf)
    (msg : List UInt8) :
    ListsDirectory os entries s (kermit (unixio os) .run len msg s).2 ↔
      ∀ entry ∈ accepted entries, Presentable entry.1 :=
  (listsDirectory_iff due msg).trans (saysEntries_iff entries)

end Due

/-- The entries of the directory are the state outside. -/
def dirOs : Os (List DirEntry) where
  send entries _ := (0, entries)
  stat entries _ := (true, entries)
  fopen entries _ := (true, entries)
  fread entries _ := ([], entries)
  getc entries := (none, entries)
  fclose entries := (0, entries)
  write entries bytes := (bytes.length, entries)
  close entries := (0, entries)
  unlink entries _ := entries
  readdir entries _ := (some entries, entries)

/-- A G packet was answered and S was acknowledged; the ACK to X is read. -/
def titledServer : Sys (Unix (List DirEntry)) :=
  turnSys (packetOf (ch 'Y') 0 [])
    (handled dirOs (packetOf (ch 'Y') 0 [])
      (handled dirOs (packetOf (ch 'G') 0 (lit "D")) (idleServer dirOs [])))

/-- By now, the directory has some entries. -/
def textServer
    (entries : List DirEntry) : Sys (Unix (List DirEntry)) :=
  { titledServer with w.os := entries }

/-- The ACK to X leaves the terminator behind its number and its type. -/
def textBuf : List UInt8 :=
  poke titledServer.k.ipktbuf 3 [0]

theorem titledServer_atText :
    AtText titledServer.k := by
  have wf : Wf titledServer.k :=
    reachable_wf (.receive _ (.ready (handled_reachable _
      (handled_reachable _ (idleServer_reachable dirOs [])))))
  refine ⟨⟨wf, ⟨?_, ?_, ?_, ?_, ?_⟩, ?_⟩, ?_, ?_, ?_⟩
  all_goals decide +kernel

theorem titledServer_ack :
    ValidAck titledServer.k.sSeq titledServer.k 4 ackRcvd textBuf :=
  ⟨by decide, by decide +kernel, by decide, by decide +kernel⟩

/-- A directory with a file that has an etag, and an empty one. -/
def plainEntries : List DirEntry :=
  [{ regular := true, name := lit "a.txt", opens := true
     etag := some 0xCBF43926 },
    { regular := true, name := lit ".b", opens := true, etag := none }]

theorem dir_lists_entries_iff_plain :
    ListsDirectory dirOs plainEntries (textServer plainEntries)
        (kermit (unixio dirOs) .run 4 [] (textServer plainEntries)).2 ↔
      ∀ entry ∈ accepted plainEntries, Presentable entry.1 :=
  @dir_lists_entries_iff _ dirOs plainEntries (textServer plainEntries) 4
    ackRcvd textBuf
    ⟨titledServer_atText, titledServer_ack, rfl, by decide, by decide +kernel⟩
    []

/-- A directory with a file whose name has a quotation mark. -/
def quotingEntries : List DirEntry :=
  [{ regular := true, name := lit "a\"b", opens := true, etag := some 0 }]

/-- The listing `[{"filename":"a"b","etag":"00000000"}]` goes out. -/
theorem quoted_name_not_listed :
    ListingDue dirOs quotingEntries (textServer quotingEntries) 4 ackRcvd
        textBuf ∧
      ¬ ListsDirectory dirOs quotingEntries (textServer quotingEntries)
        (kermit (unixio dirOs) .run 4 [] (textServer quotingEntries)).2 := by
  have due : ListingDue dirOs quotingEntries (textServer quotingEntries) 4
      ackRcvd textBuf :=
    ⟨titledServer_atText, titledServer_ack, rfl, by decide, by decide +kernel⟩
  refine ⟨due, ?_⟩
  rw [listsDirectory_iff due, saysEntries_iff]
  intro presentable
  have literal := (presentable (lit "a\"b", 0) (by decide)).literal
  exact absurd literal (by decide)

end Slate106.Kermit
