import Slate106.KermitPeers

namespace Slate106.Kermit

open CBytes

/-!
# What a GET over a lossy link delivers

Whatever is lost, repeated or delayed, the client writes the front of the file,
closes the output file once it is whole, and no side reports success before
that.
-/

variable {σ ω : Type}

section Sharing

variable {os : Os σ}
variable {unread : σ → List UInt8}
variable {serverRoot clientRoot name file : List UInt8}
variable {l : LossyLink.Link Item Item}
variable {n : Peers σ ω}

/-! ## The output file -/

/-- What is written is the front of what was taken. -/
theorem Accepting.written
    {rootPath : List UInt8}
    {items : List Item}
    {s : Sys ω}
    (accepting : Accepting rootPath name items s) :
    writefs s.log <+: content items := by
  cases accepting with
  | asking asking =>
      rw [asking.blank.writefs]
      exact List.nil_prefix
  | @taking _ item rest _ _ taking =>
      cases taking with
      | greeted _ _ _ blank | named _ _ _ blank =>
          rw [blank.writefs]
          exact List.nil_prefix
      | storing _ _ _ _ _ stored =>
          have front : writefs s.log <+: storedFile s :=
            List.prefix_append _ _
          rw [stored] at front
          exact front.trans (content_front (List.suffix_cons _ _))
      | ended kind _ stored | finished kind stored =>
          have whole : writefs s.log = content _ := congrArg Prod.fst stored
          have same := @content_of_ne item rest (by rw [kind]; decide)
          exact ⟨[], (List.append_nil _).trans (whole.trans same.symm)⟩

/-- The file is closed when Z was taken, and once. -/
theorem Accepting.closed
    {rootPath : List UInt8}
    {items : List Item}
    {s : Sys ω}
    (accepting : Accepting rootPath name items s)
    (closed :
      closefs s.log ≠ 0 ∨
        ∃ item rest, items = item :: rest ∧
          (item.typ = ch 'Z' ∨ item.typ = ch 'B')) :
    ∃ item rest, items = item :: rest ∧
      (item.typ = ch 'Z' ∨ item.typ = ch 'B') ∧
      outputs s.log = (content items, 1) := by
  cases accepting with
  | asking asking =>
      rcases closed with closed | ⟨_, _, none, -⟩
      · exact absurd asking.blank.closefs closed
      · exact absurd none.symm (List.cons_ne_nil _ _)
  | taking _ _ taking =>
      cases taking with
      | greeted kind _ _ blank =>
          rcases closed with closed | ⟨_, _, shape, kind'⟩
          · exact absurd blank.closefs closed
          · obtain ⟨rfl, -⟩ := List.cons.inj shape
            rw [kind] at kind'
            exact absurd kind' (by decide)
      | named kind _ _ blank =>
          rcases closed with closed | ⟨_, _, shape, kind'⟩
          · exact absurd blank.closefs closed
          · obtain ⟨rfl, -⟩ := List.cons.inj shape
            rcases kind with kind | kind
            all_goals
              rw [kind] at kind'
              exact absurd kind' (by decide)
      | storing kind _ _ _ _ _ unclosed =>
          rcases closed with closed | ⟨_, _, shape, kind'⟩
          · exact absurd unclosed closed
          · obtain ⟨rfl, -⟩ := List.cons.inj shape
            rw [kind] at kind'
            exact absurd kind' (by decide)
      | ended kind _ stored =>
          refine ⟨_, _, rfl, .inl kind, ?_⟩
          rw [content_of_ne (by rw [kind]; decide)]
          exact stored
      | finished kind stored =>
          refine ⟨_, _, rfl, .inr kind, ?_⟩
          rw [content_of_ne (by rw [kind]; decide)]
          exact stored

/-- A client that has taken Z has taken the whole file. -/
theorem Shares.complete
    (shares : Shares os unread serverRoot clientRoot name file l n)
    {item : Item}
    {rest : List Item}
    (last : l.accepted = item :: rest)
    (kind : item.typ = ch 'Z' ∨ item.typ = ch 'B') :
    content l.accepted = file := by
  have isZ : ∃ other ∈ l.sent, other.typ = ch 'Z' := by
    rcases kind with kind | kind
    · exact ⟨item, shares.safe.suffix.subset (last ▸ List.mem_cons_self),
        kind⟩
    · obtain ⟨new, sent⟩ := shares.safe.suffix
      rw [last] at sent
      have comes := shares.comes new item rest sent.symm
      generalize behind : rest = items at comes
      cases comes with
      | @finished closing _ _ was =>
          refine ⟨closing, shares.safe.suffix.subset ?_, was⟩
          rw [last, behind]
          exact .tail _ (.head _)
      | start kind' | name _ kind' | attributes _ kind' | firstData _ kind'
      | nextData _ kind' | emptyFile _ kind' | ending _ kind' =>
          rw [kind] at kind'
          exact absurd kind' (by decide)
  rw [← shares.whole isZ]
  rcases shares.safe.ahead with same | ⟨packet, one⟩
  · rw [same]
  · have comes := shares.comes [] packet l.accepted one
    rw [one, last] at *
    have notData : packet.typ ≠ ch 'D' := by
      cases comes with
      | finished _ kind' =>
          rw [kind']
          decide
      | name was | attributes was | nextData was | ending was =>
          rw [was] at kind
          exact absurd kind (by decide)
      | firstData was | emptyFile was =>
          rcases was with was | was
          all_goals
            rw [was] at kind
            exact absurd kind (by decide)
    exact (content_of_ne notData).symm

/-- Whoever reports success, the client has taken Z. -/
theorem Shares.succeeded
    (shares : Shares os unread serverRoot clientRoot name file l n)
    (success : n.serverRc = xDone ∨ n.clientRc = xDone) :
    ∃ item rest, l.accepted = item :: rest ∧
      (item.typ = ch 'Z' ∨ item.typ = ch 'B') := by
  rcases success with success | success
  · obtain ⟨item, rest, head, kind⟩ := shares.served success
    rcases shares.safe.ahead with same | ⟨packet, one⟩
    · exact ⟨item, rest, same.symm.trans head, .inr kind⟩
    · obtain ⟨rfl, behind⟩ := List.cons.inj (head.symm.trans one)
      have comes := shares.comes [] item l.accepted one
      generalize l.accepted = items at comes
      cases comes with
      | finished was =>
          exact ⟨_, _, rfl, .inl was⟩
      | start kind' | name _ kind' | attributes _ kind' | firstData _ kind'
      | nextData _ kind' | emptyFile _ kind' | ending _ kind' =>
          rw [kind] at kind'
          exact absurd kind' (by decide)
  · obtain ⟨item, rest, last, kind⟩ := shares.done success
    exact ⟨item, rest, last, .inr kind⟩

/-- What the client has written, and that it closes the whole file. -/
theorem PeersInv.output
    (inv : PeersInv os unread serverRoot clientRoot name file n) :
    writefs n.client.log <+: file ∧
      (closefs n.client.log ≠ 0 ∨ n.serverRc = xDone ∨ n.clientRc = xDone →
        outputs n.client.log = (file, 1)) := by
  rcases inv with unanswered | ⟨l, shares⟩
  · have blank := unanswered.client.blank
    rw [blank.writefs]
    refine ⟨List.nil_prefix, fun finished => ?_⟩
    rcases finished with closed | done | done
    · exact absurd blank.closefs closed
    · exact absurd done unanswered.serverRc
    · exact absurd done unanswered.clientRc
  · have accepting := shares.client
    have taken := content_front shares.safe.suffix
    have written := accepting.written.trans (taken.trans shares.front)
    refine ⟨written, fun finished => ?_⟩
    obtain ⟨item, rest, last, kind, whole⟩ :=
      accepting.closed (finished.imp_right shares.succeeded)
    rw [whole, shares.complete last kind]

end Sharing

/-! ## Concrete runs -/

/-- What happens next on a link on which frames arrive all at once. -/
inductive LinkEvent where
  | server
  | client
  | serverWaits
  | clientWaits
  | loseDown
  | loseUp
  deriving Repr, DecidableEq

instance
    (rc : Int) :
    Decidable (Going rc) :=
  inferInstanceAs (Decidable (_ ∧ _))

/-- What `kreadpkt()` returns for the first frame, and the frames behind. -/
def firstArrived
    (p : Params) :
    List (List UInt8) → Option (Rx × List (List UInt8))
  | [] => none
  | frame :: rest =>
      match kreadpkt p (frame.map .byte) with
      | some (rx, []) => some (rx, rest)
      | _ => none

/-- The two sides after an event. -/
def Peers.happen
    (os : Os σ)
    (io : Io ω)
    (n : Peers σ ω) : LinkEvent → Option (Peers σ ω)
  | .server =>
      if Going n.serverRc then
        (firstArrived n.server.k.par n.up).map fun read =>
          n.serverTurn os read.1 read.2
      else none
  | .client =>
      if Going n.clientRc then
        (firstArrived n.client.k.par n.down).map fun read =>
          n.clientTurn io read.1 read.2
      else none
  | .serverWaits =>
      if Going n.serverRc then
        some (n.serverTurn os { ret := 0, stored := [] } n.up)
      else none
  | .clientWaits =>
      if Going n.clientRc then
        some (n.clientTurn io { ret := 0, stored := [] } n.down)
      else none
  | .loseDown => some { n with down := [] }
  | .loseUp => some { n with up := [] }

/-- A server that has one file, `AB`. -/
def pageOs : Os (List UInt8) :=
  { fileOs with fopen := fun _ _ => (true, lit "AB") }

/-- A client that can write. -/
def savingIo : Io Unit where
  txd _ _ := (xOk, ())
  openf _ k _ _ _ := (xOk, k.enc.sFirst, k.zin, ())
  finfo _ _ type := (xOk, [], type, ())
  readf _ k := (none, k.zin, ())
  writef _ _ _ := (xOk, ())
  closef _ _ _ _ _ := (xOk, ())
  getdirdata _ _ := (xError, [], [], ())
  accessf _ _ _ := (xError, ())

/-- The client has asked for the file `f`. -/
def askedPage : Peers (List UInt8) Unit :=
  askedPeers pageOs savingIo [] [] (lit "f")
    { os := [], ofile := -1, ifile := false, calls := [] } ()

theorem environment_page :
    Environment pageOs id savingIo [] (lit "f") (lit "AB") where
  server :=
    { reads := fun _ _ => ⟨rfl, rfl⟩
      sends := fun _ _ => ⟨rfl, rfl⟩ }
  offers := fun _ => ⟨rfl, rfl⟩
  accessible := fun _ _ => rfl
  takes :=
    { linked := fun _ _ => rfl
      writable := fun _ _ _ => rfl
      opens := fun _ _ _ _ => rfl
      closes := fun _ _ _ _ => rfl }
  plain :=
    { fits := show _ ≤ _ by decide +kernel
      safe := .of_plain (plain_freshCfg []) plainDecoding_agreedPar
        (nameAhead_of_single (by decide +kernel))
      echoed :=
        { noZero := by decide
          noStart := by decide +kernel
          noEnd := by decide +kernel
          short := by decide +kernel } }

theorem askedAs_page :
    AskedAs (lit "f") where
  some := by decide +kernel
  plain := by decide +kernel

end Slate106.Kermit
