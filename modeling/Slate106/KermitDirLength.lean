import Mathlib.Algebra.GroupWithZero.Nat
import Slate106.KermitDeclared
import Slate106.KermitDirData
import Slate106.KermitKeeps

namespace Slate106.Kermit

open CBytes
open JsonText

/-!
# The length of a listing

`K_DIR_LEN` has room for six entries of fifty characters.  Nothing keeps an
entry within its fifty: its name may have up to 255 characters.
-/

variable {σ : Type}

/-! ## How long the text is -/

@[simp] theorem length_hex8
    (etag : UInt32) :
    (hex8 etag).length = 8 := by
  simp [hex8]

/-- The text around the name and the etag of an entry. -/
theorem length_recordText_entry
    (entry : List UInt8 × UInt32) :
    (recordText (entryRecord entry)).length = entry.1.length + 33 := by
  simp [recordText, entryRecord, commas, fieldText, quoted, lit]

/-- The places that the accepted entries of a directory take. -/
def listedLength
    (entries : List DirEntry) : Nat :=
  ((accepted entries).map fun entry => entry.1.length + 34).sum

theorem length_others
    (texts : List (List UInt8)) :
    (others texts).length = (texts.map fun text => text.length + 1).sum := by
  induction texts with
  | nil =>
      rfl
  | cons text texts inductionHypothesis =>
      rw [others_cons, List.length_cons, List.length_append,
        inductionHypothesis, List.map_cons, List.sum_cons]
      omega

/-- Each entry takes its places, but a listing is at least two brackets. -/
theorem length_listing
    (entries : List DirEntry) :
    (tableText (listingTable entries)).length =
      if accepted entries = [] then 2 else 1 + listedLength entries := by
  unfold tableText listingTable listedLength
  rw [List.map_map]
  cases accepted entries with
  | nil =>
      rfl
  | cons entry rest =>
      have behind : (rest.map (recordText ∘ entryRecord)).flatMap (comma :: ·) =
          others (rest.map (recordText ∘ entryRecord)) :=
        rfl
      rw [if_neg (List.cons_ne_nil entry rest), List.map_cons, commas, behind,
        List.length_cons, List.length_append, List.length_append,
        List.length_singleton, length_others, List.map_map, List.map_cons,
        List.sum_cons]
      have sizes : (fun text : List UInt8 => text.length + 1) ∘
            (recordText ∘ entryRecord) =
          fun entry => entry.1.length + 34 := by
        funext entry
        exact congrArg (· + 1) (length_recordText_entry entry)
      have first : ((recordText ∘ entryRecord) entry).length =
          entry.1.length + 33 :=
        length_recordText_entry entry
      rw [sizes, first]
      omega

/-- The listing is whole in the response exactly when its entries fit. -/
theorem length_listing_le
    (entries : List DirEntry) :
    (tableText (listingTable entries)).length ≤ kDirLen - 1 ↔
      listedLength entries ≤ 300 := by
  have room : kDirLen - 1 = 301 := rfl
  rw [length_listing, room]
  split
  · rename_i none
    have nothing : listedLength entries = 0 := by
      unfold listedLength
      rw [none]
      rfl
    omega
  · omega

/-! ## The turn in which a listing is sent -/

/-- X is acknowledged, and the directory can be listed. -/
structure ListingAsked
    (os : Os σ)
    (entries : List DirEntry)
    (s : Sys (Unix σ))
    (len : Int)
    (p : Rcvd)
    (buf : List UInt8) : Prop where
  text : AtText s.k
  ack : ValidAck s.k.sSeq s.k len p buf
  directory :
    (os.readdir s.w.os
      (kaddRootpath s.k.cfg.rootpath (cstr (listedDirname s.k).dirname))).1 =
        some entries
  names : ∀ entry ∈ entries, (0 : UInt8) ∉ entry.name

/-- The listing that `kgetdirdata()` writes through `pdf`. -/
def listing
    (os : Os σ)
    (s : Sys (Unix σ)) : List UInt8 :=
  (kgetdirdata os s.w (listedDirname s.k)).2.2.1

/--
The listing and its terminator stay inside of `ipktbuf`, the response has all
of it, and it goes out in a D packet.
-/
structure ListingFits
    (os : Os σ)
    (p : Rcvd)
    (s s' : Sys (Unix σ)) : Prop where
  inside : p.pdf + (listing os s).length < pBuflen
  whole : (listing os s).length ≤ kDirLen - 1 ∧ s'.r.dir = listing os s
  sent : ∃ rc later,
    s'.log = later ++
      (.txd (pktFrame s.k.par (ch 'D') s.k.sSeq (listing os s)) rc ::
        .getdirdata xOk :: s.log)

section Asked

variable {os : Os σ}
variable {entries : List DirEntry}
variable {s : Sys (Unix σ)}
variable {len : Int}
variable {p : Rcvd}
variable {buf : List UInt8}

/-- The response to the listing is what `strncpy()` has copied. -/
theorem dir_dirAckText
    (listed : (kgetdirdata os s.w (listedDirname s.k)).1 = xOk) :
    (dirAckText (unixio os) p s).2.r.dir =
      (cstr (listing os s)).take (kDirLen - 1) := by
  have slotted : onK (fun k => (takeSslot k).2) s =
      { s with k.win := (takeSslot s.k).2.win } := by
    unfold onK
    dsimp only
    rw [takeSslot_shape]
  have code : (callGetdirdata (unixio os)
      (noteDirname p (onK (fun k => (takeSslot k).2) s))).1 = xOk := by
    rw [slotted]
    exact listed
  have text : (callGetdirdata (unixio os)
      (noteDirname p (onK (fun k => (takeSslot k).2) s))).2.1 =
        listing os s := by
    rw [slotted]
    rfl
  unfold dirAckText
  dsimp only
  rw [code, if_neg (not_not.mpr rfl), text]
  generalize (callGetdirdata (unixio os)
    (noteDirname p (onK (fun k => (takeSslot k).2) s))).2.2 = t
  have sent : (spktXdata (unixio os) (ch 'D')
      (putListing p (listing os s) t)).2.r.dir =
        (cstr (listing os s)).take (kDirLen - 1) :=
    congrArg KResponse.dir
      (transmits_spkt (ch 'D') _ _ _ (putListing p (listing os s) t)).response
  split
  · exact sent
  · have reported := @transmits_epkt _ (unixio os)
      (lit "Cannot send D packet")
      (spktXdata (unixio os) (ch 'D') (putListing p (listing os s) t)).2
    exact (congrArg KResponse.dir reported.response).trans sent

/--
The listing of a directory fits exactly when its accepted entries, with 34
places for each besides its name, take at most 300 places together.
-/
theorem dir_listing_fits_iff
    (asked : ListingAsked os entries s len p buf)
    (msg : List UInt8) :
    ListingFits os p s (kermit (unixio os) .run len msg s).2 ↔
      listedLength entries ≤ 300 := by
  obtain ⟨listed, built⟩ :=
    kgetdirdata_text os s.w (listedDirname s.k) asked.directory
  have noZero := zero_notMem_listing asked.names
  change listing os s = tableText (listingTable entries) at built
  rw [← built] at noZero
  rw [← length_listing_le, ← built]
  constructor
  · intro fits
    exact fits.whole.1
  · intro small
    obtain ⟨win, ready, turn⟩ := kermit_dirAckText asked.text asked.ack msg
    have place : p.pdf ≤ 6 := by
      obtain ⟨_, same⟩ := parse_good_iff.mp ⟨buf, asked.ack.good⟩
      rw [same]
      change dataStart s.k ≤ 6
      unfold dataStart
      split <;> decide
    have few : kDirLen - 1 = 301 := rfl
    have buflen : pBuflen = 1008 := rfl
    have bound := length_pktFrame_le s.k.par (ch 'D') s.k.sSeq
      (listing os s)
    have room : (pktFrame s.k.par (ch 'D') s.k.sSeq
        (listing os s)).length < pBuflen := by
      omega
    obtain ⟨rc, later, sent⟩ := @dirAckText_sends _ os
      { s with k := { s.k with win := win, ipktbuf := buf } } p ready _
      noZero listed rfl room
    have response := @dir_dirAckText _ os
      { s with k := { s.k with win := win, ipktbuf := buf } } p listed
    change _ = (cstr (listing os s)).take (kDirLen - 1) at response
    rw [cstr_of_notMem noZero, List.take_of_length_le small] at response
    rw [turn]
    exact ⟨by omega, ⟨small, response⟩, rc, later, sent⟩

end Asked

/-- Six files whose names have as many characters as there may be. -/
def longEntries : List DirEntry :=
  List.replicate 6
    { regular := true, name := List.replicate 255 (ch 'a'), opens := true
      etag := some 0 }

theorem dir_listing_fits_iff_plain :
    ListingAsked dirOs plainEntries (textServer plainEntries) 4 ackRcvd
        textBuf ∧
      (ListingFits dirOs ackRcvd (textServer plainEntries)
          (kermit (unixio dirOs) .run 4 [] (textServer plainEntries)).2 ↔
        listedLength plainEntries ≤ 300) := by
  have asked : ListingAsked dirOs plainEntries (textServer plainEntries) 4
      ackRcvd textBuf :=
    ⟨titledServer_atText, titledServer_ack, rfl, by decide⟩
  exact ⟨asked, dir_listing_fits_iff asked []⟩

/-- The listing of these files is longer than `ipktbuf`. -/
theorem long_names_not_fitting :
    ListingAsked dirOs longEntries (textServer longEntries) 4 ackRcvd
        textBuf ∧
      (∀ entry ∈ longEntries,
        1 ≤ entry.name.length ∧ entry.name.length ≤ 255) ∧
      (listing dirOs (textServer longEntries)).length = 1735 ∧
      ¬ (ackRcvd.pdf + (listing dirOs (textServer longEntries)).length <
        pBuflen) ∧
      ¬ ((listing dirOs (textServer longEntries)).length ≤ kDirLen - 1) ∧
      ¬ (pktFrame titledServer.k.par (ch 'D') titledServer.k.sSeq
        (listing dirOs (textServer longEntries))).length < pBuflen ∧
      ¬ ListingFits dirOs ackRcvd (textServer longEntries)
        (kermit (unixio dirOs) .run 4 [] (textServer longEntries)).2 := by
  have size : (listing dirOs (textServer longEntries)).length = 1735 := by
    decide +kernel
  have framed := le_length_pktFrame titledServer.k.par (ch 'D')
    titledServer.k.sSeq (listing dirOs (textServer longEntries))
  have few : kDirLen - 1 = 301 := rfl
  have buflen : pBuflen = 1008 := rfl
  refine ⟨⟨titledServer_atText, titledServer_ack, rfl, by decide +kernel⟩,
    by decide +kernel, size, by omega, by omega, by omega, ?_⟩
  intro fits
  have small := fits.whole.1
  omega

end Slate106.Kermit
