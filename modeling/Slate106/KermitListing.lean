import Slate106.KermitKinds

namespace Slate106.Kermit

open CBytes

/-!
# The transaction that serves a listing

A server and its client with two links between them that keep the order of the
frames and may lose any of them.  S, X and D all go out with the number 0, so
an ACK to a second copy of S or X is taken for the ACK to the packet after it.
-/

variable {σ : Type}

/--
The server, the frames in flight to the client, and the acknowledgments in
flight to the server, each as the packet that it acknowledges; `sent`, `acked`
and `heard` record the packets sent, received and acknowledged by the client,
and known to the server as acknowledged.
-/
structure Listing (σ : Type) where
  sys : Sys (Unix σ)
  rc : Int
  down : List (List UInt8)
  up : List (List UInt8)
  sent : List (List UInt8)
  acked : List (List UInt8)
  heard : List (List UInt8)

/-- What the server works on in a turn of its main loop. -/
def turnSys
    (rx : Rx)
    (s : Sys (Unix σ)) : Sys (Unix σ) :=
  receive rx (onK ok2rxd s)

/-- One turn of the server's main loop. -/
def serverTurn
    (os : Os σ)
    (rx : Rx)
    (n : Listing σ) : Listing σ :=
  let s := turnSys rx n.sys
  let done := kermit (unixio os) .run rx.ret [] s
  let frames := newTxds s.log done.2.log
  { n with
    sys := done.2
    rc := done.1
    down := n.down ++ frames
    sent := n.sent ++ frames }

/-- The number in a transmitted packet. -/
def frameSeq
    (frame : List UInt8) : Int :=
  (xunchar (peek frame 2)).toNat

/-- The server reads an acknowledgment of a number. -/
structure ReadsAck
    (seq : Int)
    (rx : Rx)
    (s : Sys (Unix σ)) : Prop where
  long : 4 ≤ rx.ret
  read :
    ∃ p buf, parse (turnSys rx s).k rx.ret = .good p buf ∧
      p.rtyp = ch 'Y' ∧ p.rseq = seq

/-- The client received and acknowledged the oldest frame in flight. -/
def clientTurn
    (frame : List UInt8)
    (rest : List (List UInt8))
    (n : Listing σ) : Listing σ :=
  { n with
    down := rest
    up := n.up ++ [frame]
    acked := frame :: n.acked }

/-- The oldest acknowledgment in flight has arrived. -/
def arrived
    (frame : List UInt8)
    (rest : List (List UInt8))
    (n : Listing σ) : Listing σ :=
  { n with up := rest, heard := frame :: n.heard }

/-- One step of the transaction; the server runs while it returns `X_OK`. -/
inductive ListingStep
    (os : Os σ) : Listing σ → Listing σ → Prop where
  | timeout
      (stored : List UInt8)
      (n : Listing σ)
      (going : n.rc = xOk) :
      ListingStep os n (serverTurn os { ret := 0, stored := stored } n)
  | lose
      (before after : List (List UInt8))
      (frame : List UInt8)
      (n : Listing σ)
      (flight : n.down = before ++ frame :: after) :
      ListingStep os n { n with down := before ++ after }
  | loseAck
      (before after : List (List UInt8))
      (frame : List UInt8)
      (n : Listing σ)
      (flight : n.up = before ++ frame :: after) :
      ListingStep os n { n with up := before ++ after }
  | client
      (frame : List UInt8)
      (rest : List (List UInt8))
      (n : Listing σ)
      (flight : n.down = frame :: rest)
      (whole : ∃ par typ seq data, frame = pktFrame par typ seq data) :
      ListingStep os n (clientTurn frame rest n)
  | ack
      (frame : List UInt8)
      (rest : List (List UInt8))
      (rx : Rx)
      (n : Listing σ)
      (going : n.rc = xOk)
      (flight : n.up = frame :: rest)
      (reads : ReadsAck (frameSeq frame) rx n.sys) :
      ListingStep os n (serverTurn os rx (arrived frame rest n))

/-- A server just after `K_REINIT`, with nothing in flight. -/
def waiting
    (s : Sys (Unix σ)) : Listing σ :=
  { sys := s, rc := xOk, down := [], up := [], sent := [], acked := [],
    heard := [] }

/-- The server has accepted a G packet. -/
structure Started
    (os : Os σ)
    (n : Listing σ) : Prop where
  begun :
    ∃ s msg rx p buf,
      Reachable (unixio os) s ∧
        4 ≤ rx.ret ∧
        parse
            (turnSys rx (kermit (unixio os) .reinit 0 msg s).2).k rx.ret =
          .good p buf ∧
        p.rtyp = ch 'G' ∧
        n = serverTurn os rx
          (waiting (kermit (unixio os) .reinit 0 msg s).2)
  accepted : n.rc = xOk

/-- The client has received and acknowledged the listing. -/
def ListingAcked
    (n : Listing σ) : Prop :=
  ∃ frame ∈ n.acked, frameType frame = ch 'D'

/-- The server has sent Z, or the transaction has ended with `X_DONE`. -/
def Concluded
    (n : Listing σ) : Prop :=
  (∃ frame ∈ n.sent, frameType frame = ch 'Z') ∨ n.rc = xDone

/--
No two of the acknowledgments that reached the server are for copies of S, or
for copies of X, and none is for a packet that asks for no acknowledgment.
-/
structure HeardOnce
    (heard : List (List UInt8)) : Prop where
  once :
    heard.Pairwise fun frame other =>
      frameType frame = frameType other →
        frameType frame ≠ ch 'S' ∧ frameType frame ≠ ch 'X'
  kept : ∀ frame ∈ heard, isUnslotted (frameType frame) = false

/-! ## What an acknowledgment makes the server send -/

/-- The types of the packets up to the listing. -/
def listingTypes : List UInt8 := [ch 'S', ch 'X', ch 'D']

/-- An acknowledgment was handled without going beyond the listing. -/
structure Advanced
    (next : List State)
    (s : Sys (Unix σ))
    (result : Int × Sys (Unix σ)) : Prop where
  emits : Emits listingTypes s result.2
  notDone : result.1 ≠ xDone
  goesOn :
    result.1 = xOk →
      result.2.k.what = s.k.what ∧ result.2.k.state ∈ next

section Server

variable {os : Os σ}
variable {s : Sys (Unix σ)}

theorem emits_listSlot
    (types : List UInt8)
    (s : Sys (Unix σ)) :
    Emits types s (onK (fun k => resetBct (takeSslot k).2) s) :=
  (emits_takeSslot s).and (emits_quiet rfl (Or.inl ⟨rfl, rfl⟩))

theorem emits_spktXdata
    {types : List UInt8}
    {typ : UInt8}
    (kind : isUnslotted typ = false)
    (listed : typ ∈ types)
    (s : Sys (Unix σ)) :
    Emits types s (spktXdata (unixio os) typ s).2 :=
  emits_spkt kind listed _ _ _ s

theorem emits_epkt
    (types : List UInt8)
    (msg : List UInt8)
    (s : Sys (Unix σ)) :
    Emits types s (epkt (unixio os) msg s) :=
  (chores_epkt msg s).emits

/-- The ACK to S: X is sent. -/
theorem advanced_dirAckInit
    (s : Sys (Unix σ)) :
    Advanced [.sText] s (dirAckInit (unixio os) s) := by
  have titled : Chores (unixio os) s (putTitle s) :=
    chores_scratch ⟨rfl, rfl, rfl, rfl, rfl, rfl, rfl, rfl, rfl, rfl, rfl⟩
  have encoded := titled.and (chores_encstr .obuf _)
  unfold dirAckInit
  dsimp only
  generalize (encstr (unixio os) .obuf (putTitle s)).2 = first at encoded
  have slotted := encoded.works.and (works_listSlot first)
  have emitted : Emits listingTypes s _ :=
    encoded.emits.and (emits_listSlot listingTypes first)
  generalize onK (fun k => resetBct (takeSslot k).2) first = second
    at slotted emitted
  have control := (slotted.and (works_spktXdata (ch 'X') second)).control
  have sent : Emits listingTypes s (spktXdata (unixio os) (ch 'X') second).2 :=
    emitted.and (emits_spktXdata (by decide) (by decide) second)
  split
  · exact
      ⟨sent.and (emits_epkt _ _ _), show xError ≠ xDone by decide,
        fun fine => absurd fine (show xError ≠ xOk by decide)⟩
  · exact
      ⟨sent.and (emits_quiet rfl (Or.inl ⟨rfl, rfl⟩)),
        show xOk ≠ xDone by decide,
        fun _ => ⟨control.what, List.mem_singleton.mpr rfl⟩⟩

/-- The ACK to X: D is sent, unless that fails without an end. -/
theorem advanced_dirAckText
    (p : Rcvd)
    {s : Sys (Unix σ)}
    (texted : s.k.state = .sText) :
    Advanced [.sText, .sData] s (dirAckText (unixio os) p s) := by
  have named :
      Chores (unixio os) (onK (fun k => (takeSslot k).2) s)
        (noteDirname p (onK (fun k => (takeSslot k).2) s)) :=
    chores_scratch ⟨rfl, rfl, rfl, rfl, rfl, rfl, rfl, rfl, rfl, rfl, rfl⟩
  have listed := named.then (.getdirdata _)
  have listedWorks := (works_takeSslot s).and listed.works
  have emitted : Emits listingTypes s _ :=
    (emits_takeSslot s).and listed.emits
  unfold dirAckText
  dsimp only
  generalize
    callGetdirdata (unixio os)
      (noteDirname p (onK (fun k => (takeSslot k).2) s)) = listing
    at listedWorks emitted
  split
  · exact
      ⟨emitted.and (emits_epkt _ _ _), show xError ≠ xDone by decide,
        fun fine => absurd fine (show xError ≠ xOk by decide)⟩
  · have put :
        Chores (unixio os) listing.2.2 (putListing p listing.2.1 listing.2.2) :=
      chores_scratch ⟨rfl, rfl, rfl, rfl, rfl, rfl, rfl, rfl, rfl, rfl, rfl⟩
    have works := listedWorks.and put.works
    have shown := emitted.and put.emits
    generalize putListing p listing.2.1 listing.2.2 = first at works shown
    have control := (works.and (works_spktXdata (ch 'D') first)).control
    have sent :
        Emits listingTypes s (spktXdata (unixio os) (ch 'D') first).2 :=
      shown.and (emits_spktXdata (by decide) (by decide) first)
    generalize spktXdata (unixio os) (ch 'D') first = last at control sent
    split
    · rename_i fine
      refine ⟨sent.and (emits_quiet rfl (Or.inl ⟨rfl, rfl⟩)), ?_, ?_⟩
      · rw [fine]
        exact show xOk ≠ xDone by decide
      · intro _
        exact ⟨control.what, List.mem_cons_of_mem _ (List.mem_singleton.mpr rfl)⟩
    · have told : Works (unixio os) last.2 (epkt (unixio os) _ last.2) :=
        works_epkt (lit "Cannot send D packet") last.2
      refine ⟨sent.and (emits_epkt _ _ _), show xOk ≠ xDone by decide, ?_⟩
      intro _
      refine ⟨told.control.what.trans control.what, ?_⟩
      rw [told.control.state.trans (control.state.trans texted)]
      exact List.mem_cons_self

theorem Advanced.after
    {next : List State}
    {s t : Sys (Unix σ)}
    {result : Int × Sys (Unix σ)}
    (advanced : Advanced next t result)
    (emits : Emits listingTypes s t)
    (what : t.k.what = s.k.what) :
    Advanced next s result := by
  refine ⟨emits.and advanced.emits, advanced.notDone, ?_⟩
  intro fine
  obtain ⟨kept, reached⟩ := advanced.goesOn fine
  exact ⟨kept.trans what, reached⟩

/-- An ACK before the listing has been sent, or for an unknown number. -/
theorem advanced_dirAck
    (p : Rcvd)
    (s : Sys (Unix σ)) :
    dirAck (unixio os) p s = (xOk, s) ∨
      ((s.k.state = .sInit →
          Advanced [.sText] s (dirAck (unixio os) p s)) ∧
        (s.k.state = .sText →
          Advanced [.sText, .sData] s (dirAck (unixio os) p s))) := by
  have acked :
      Emits listingTypes s (onK (acknowledge (s.k.win.sPw p.rseq)) s) :=
    emits_acknowledge _ s
  have control :
      SameControl s (onK (acknowledge (s.k.win.sPw p.rseq)) s) :=
    (Work.acknowledge _ s : Work (unixio os) s _).control
  unfold dirAck
  dsimp only
  generalize onK (acknowledge (s.k.win.sPw p.rseq)) s = t at acked control
  split
  · exact Or.inl rfl
  · refine Or.inr ⟨?_, ?_⟩
    · intro initial
      rw [control.state, initial]
      exact (advanced_dirAckInit t).after acked control.what
    · intro texted
      rw [control.state, texted]
      exact
        (advanced_dirAckText p (control.state.trans texted)).after acked
          control.what

/-- The callback that transmits reports success or an error. -/
theorem resend_rc
    (seq : Int)
    (s : Sys (Unix σ)) :
    (resend (unixio os) seq s).1 ≠ xDone := by
  have slotted (slot : Int) :
      (resendSlot (unixio os) slot s).1 ≠ xDone := by
    unfold resendSlot
    dsimp only
    split
    · exact show xError ≠ xDone by decide
    · split
      · exact show xOk ≠ xDone by decide
      · split
        · exact show xError ≠ xDone by decide
        · simp only [callTxd, unixio, ktxData]
          split <;> decide
  unfold resend
  dsimp only
  generalize (if seq < 0 then earliestSseq s.k else seq) = actual
  split
  · exact show xOk ≠ xDone by decide
  · split
    · split
      · exact show xOk ≠ xDone by decide
      · split
        · exact show xOk ≠ xDone by decide
        · exact slotted _
    · exact slotted _

/-- The route of a timeout while a listing is served. -/
theorem kermit_timeout
    (wf : Wf s.k)
    (set : s.k.state ≠ .rNone)
    (received : s.k.doRxd = true)
    (listing : s.k.what = .dir)
    (msg : List UInt8) :
    kermit (unixio os) .run 0 msg s = resend (unixio os) (-1) s := by
  unfold kermit
  rw [wf.testRslots]
  dsimp only
  unfold kermitRun
  rw [if_neg set, if_pos received]
  unfold rxStage
  rw [if_pos (by decide), if_neg (by rw [listing]; decide)]

/-- The route of an acknowledgment while a listing is served. -/
theorem kermit_dirAck
    (wf : Wf s.k)
    (set : s.k.state ≠ .rNone)
    (received : s.k.doRxd = true)
    (listing : s.k.what = .dir)
    {len : Int}
    (long : 4 ≤ len)
    {p : Rcvd}
    {buf : List UInt8}
    (good : parse s.k len = .good p buf)
    (ack : p.rtyp = ch 'Y')
    (msg : List UInt8) :
    kermit (unixio os) .run len msg s =
      dirAck (unixio os) p { s with k.ipktbuf := buf } := by
  have forced : forceBcta3 s.k = s.k := by
    simp [forceBcta3, wf.noForce]
  unfold kermit
  rw [wf.testRslots]
  dsimp only
  unfold kermitRun
  rw [if_neg set, if_pos received]
  unfold rxStage
  rw [if_neg (by omega), good]
  simp only [forced]
  unfold packetStage
  rw [if_pos ⟨ack, listing⟩]

end Server

/-! ## The invariant of a run -/

/-- Where the frames in flight and the acknowledgments come from. -/
structure Flow
    (n : Listing σ) : Prop where
  down : n.down ⊆ n.sent
  up : n.up ⊆ n.acked
  acked : n.acked ⊆ n.sent
  heard : n.heard ⊆ n.acked

/-- An acknowledgment of a packet of a type has reached the server. -/
def Heard
    (typ : UInt8)
    (n : Listing σ) : Prop :=
  ∃ frame ∈ n.heard, frameType frame = typ

/-- The types that can have been sent in a state. -/
def sentTypes
    (state : State) : List UInt8 :=
  if state = .sInit then [ch 'S'] else listingTypes

/-- Before the listing is acknowledged: the ACKs heard fit the state. -/
structure Unlisted
    (n : Listing σ) : Prop where
  wf : Wf n.sys.k
  what : n.sys.k.what = .dir
  phase :
    n.sys.k.state = .sInit ∨
      (n.sys.k.state = .sText ∧ Heard (ch 'S') n) ∨
      (n.sys.k.state = .sData ∧ Heard (ch 'S') n ∧
        (Heard (ch 'X') n ∨ Heard (ch 'D') n))
  slot : SlotKind (sentTypes n.sys.k.state) n.sys.k
  sent : ∀ frame ∈ n.sent, OfKind (sentTypes n.sys.k.state) frame

/-- What holds in every state of a run in which ACKs are heard once. -/
structure ListingInv
    (n : Listing σ) : Prop where
  flow : Flow n
  concluded :
    ListingAcked n ∨
      ((∀ frame ∈ n.sent, OfKind listingTypes frame) ∧
        n.rc ≠ xDone ∧ (n.rc = xOk → Unlisted n))

theorem OfKind.mono
    {types more : List UInt8}
    {frame : List UInt8}
    (kind : OfKind types frame)
    (subset : types ⊆ more) :
    OfKind more frame :=
  kind.imp_right (fun member => subset member)

theorem sentTypes_subset
    (state : State) :
    sentTypes state ⊆ listingTypes := by
  unfold sentTypes
  split
  · exact List.cons_subset_cons _ (List.nil_subset _)
  · exact List.Subset.refl _

section Turns

variable {os : Os σ}
variable {n : Listing σ}

theorem turnSys_core
    (rx : Rx)
    (s : Sys (Unix σ)) :
    SameCore s (turnSys rx s) :=
  ⟨rfl, rfl, rfl, rfl, rfl, rfl, rfl, rfl, rfl, rfl, rfl⟩

theorem turnSys_received
    {s : Sys (Unix σ)}
    {what : What}
    (doing : s.k.what = what)
    (served : what = .dir ∨ what = .recv)
    (rx : Rx) :
    (turnSys rx s).k.doRxd = true := by
  have notSend : ¬ (s.k.what = .send) := by
    rw [doing]
    rcases served with rfl | rfl <;> decide
  have notGet : ¬ (s.k.what = .get) := by
    rw [doing]
    rcases served with rfl | rfl <;> decide
  simp [turnSys, receive, onK, ok2rxd, notSend, notGet]

/-- The packets sent in a turn are of the kinds that the call emits. -/
theorem serverTurn_sent
    {types : List UInt8}
    {rx : Rx}
    (emits :
      Emits types (turnSys rx n.sys)
        (kermit (unixio os) .run rx.ret [] (turnSys rx n.sys)).2)
    (slot : SlotKind types n.sys.k)
    (sent : ∀ frame ∈ n.sent, OfKind types frame) :
    SlotKind types (serverTurn os rx n).sys.k ∧
      ∀ frame ∈ (serverTurn os rx n).sent, OfKind types frame := by
  obtain ⟨slotAfter, more, log, kinds⟩ := emits slot
  refine ⟨slotAfter, ?_⟩
  intro frame member
  rcases List.mem_append.mp member with earlier | later
  · exact sent frame earlier
  · change frame ∈ newTxds (turnSys rx n.sys).log _ at later
    rw [log, newTxds_append] at later
    exact kinds frame (List.mem_reverse.mp later)

theorem Flow.serverTurn
    (flow : Flow n)
    (os : Os σ)
    (rx : Rx) :
    Flow (serverTurn os rx n) := by
  refine ⟨?_, flow.up, ?_, flow.heard⟩
  · exact List.append_subset.mpr
      ⟨List.Subset.trans flow.down (List.subset_append_left _ _),
        List.subset_append_right _ _⟩
  · exact List.Subset.trans flow.acked (List.subset_append_left _ _)

theorem Unlisted.set
    (unlisted : Unlisted n) :
    n.sys.k.state ≠ .rNone := by
  intro unset
  rcases unlisted.phase with initial | ⟨texted, -⟩ | ⟨listed, -⟩
  · exact absurd (initial.symm.trans unset) (by decide)
  · exact absurd (texted.symm.trans unset) (by decide)
  · exact absurd (listed.symm.trans unset) (by decide)

/-- A timeout before the listing is acknowledged. -/
theorem inv_timeout
    (flow : Flow n)
    (unlisted : Unlisted n)
    (stored : List UInt8) :
    ListingInv (serverTurn os { ret := 0, stored := stored } n) := by
  refine ⟨flow.serverTurn os _, Or.inr ?_⟩
  have wf : Wf (turnSys { ret := 0, stored := stored } n.sys).k :=
    unlisted.wf.scratch (turnSys_core _ n.sys) (unixio os)
  have route :
      kermit (unixio os) .run 0 [] _ = _ :=
    kermit_timeout wf unlisted.set (turnSys_received unlisted.what (Or.inl rfl) _)
      unlisted.what []
  have steps :
      Works (unixio os) _ (resend (unixio os) (-1) _).2 :=
    works_resend (-1) (turnSys { ret := 0, stored := stored } n.sys)
  have emits :
      Emits (sentTypes n.sys.k.state) _ (resend (unixio os) (-1) _).2 :=
    emits_resend wf (-1)
  have notDone :
      (resend (unixio os) (-1)
        (turnSys { ret := 0, stored := stored } n.sys)).1 ≠ xDone :=
    resend_rc (-1) _
  rw [← route] at steps emits notDone
  obtain ⟨slot, sent⟩ := serverTurn_sent emits unlisted.slot unlisted.sent
  have state : (serverTurn os { ret := 0, stored := stored } n).sys.k.state =
      n.sys.k.state := steps.control.state
  refine ⟨?_, notDone, ?_⟩
  · intro frame member
    exact (sent frame member).mono (sentTypes_subset _)
  · intro _
    refine ⟨steps.wf wf, steps.control.what.trans unlisted.what, ?_, ?_, ?_⟩
    · rw [state]
      exact unlisted.phase
    · rw [state]
      exact slot
    · rw [state]
      exact sent

/-- The type of the packet an acknowledgment is for, after earlier ones. -/
theorem heard_type
    {frame : List UInt8}
    (once : HeardOnce (frame :: n.heard))
    {types : List UInt8}
    (kind : OfKind types frame) :
    frameType frame ∈ types ∧
      (Heard (ch 'S') n → frameType frame ≠ ch 'S') ∧
      (Heard (ch 'X') n → frameType frame ≠ ch 'X') := by
  have kept := once.kept frame List.mem_cons_self
  have distinct := (List.pairwise_cons.mp once.once).1
  refine ⟨?_, ?_, ?_⟩
  · rcases kind with unkept | listed
    · rw [kept] at unkept
      exact absurd unkept (by decide)
    · exact listed
  · rintro ⟨other, member, isS⟩ again
    exact (distinct other member (again.trans isS.symm)).1 again
  · rintro ⟨other, member, isX⟩ again
    exact (distinct other member (again.trans isX.symm)).2 again

theorem Heard.arrived
    {typ : UInt8}
    (heard : Heard typ n)
    (frame : List UInt8)
    (rest : List (List UInt8)) :
    Heard typ (arrived frame rest n) := by
  obtain ⟨other, member, isType⟩ := heard
  exact ⟨other, List.mem_cons_of_mem _ member, isType⟩

/-- An acknowledgment of X is not the one that concludes the listing. -/
theorem listingAcked_of_data
    (flow : Flow n)
    (unlisted : Unlisted n)
    (listed : n.sys.k.state = .sData)
    {frame : List UInt8}
    {rest : List (List UInt8)}
    (flight : n.up = frame :: rest)
    (once : HeardOnce (frame :: n.heard)) :
    ListingAcked n := by
  have acked : frame ∈ n.acked := by
    apply flow.up
    rw [flight]
    exact List.mem_cons_self
  have kind :=
    (unlisted.sent frame (flow.acked acked)).mono (sentTypes_subset _)
  obtain ⟨isType, notS, notX⟩ := heard_type once kind
  rcases unlisted.phase with initial | ⟨texted, -⟩ | ⟨-, heardS, heard⟩
  · exact absurd (initial.symm.trans listed) (by decide)
  · exact absurd (texted.symm.trans listed) (by decide)
  · rcases heard with heardX | ⟨other, member, isD⟩
    · have isD : frameType frame = ch 'D' := by
        simp only [listingTypes, List.mem_cons, List.not_mem_nil,
          or_false] at isType
        rcases isType with isS | isX | isD
        · exact absurd isS (notS heardS)
        · exact absurd isX (notX heardX)
        · exact isD
      exact ⟨frame, acked, isD⟩
    · exact ⟨other, flow.heard member, isD⟩

theorem Flow.arrived
    (flow : Flow n)
    {frame : List UInt8}
    {rest : List (List UInt8)}
    (flight : n.up = frame :: rest) :
    Flow (arrived frame rest n) := by
  have up := flow.up
  rw [flight] at up
  obtain ⟨acked, others⟩ := List.cons_subset.mp up
  exact ⟨flow.down, others, flow.acked,
    List.cons_subset.mpr ⟨acked, flow.heard⟩⟩

/-- The invariant after an acknowledgment, from what the server did. -/
theorem inv_answered
    (flow : Flow n)
    {types : List UInt8}
    (subset : types ⊆ listingTypes)
    {rx : Rx}
    (wf : Wf (turnSys rx n.sys).k)
    (emits :
      Emits types (turnSys rx n.sys)
        (kermit (unixio os) .run rx.ret [] (turnSys rx n.sys)).2)
    (slot : SlotKind types n.sys.k)
    (sent : ∀ frame ∈ n.sent, OfKind types frame)
    (notDone :
      (kermit (unixio os) .run rx.ret [] (turnSys rx n.sys)).1 ≠ xDone)
    (goesOn :
      (kermit (unixio os) .run rx.ret [] (turnSys rx n.sys)).1 = xOk →
        (serverTurn os rx n).sys.k.what = .dir ∧
          types ⊆ sentTypes (serverTurn os rx n).sys.k.state ∧
          ((serverTurn os rx n).sys.k.state = .sInit ∨
            ((serverTurn os rx n).sys.k.state = .sText ∧ Heard (ch 'S') n) ∨
            ((serverTurn os rx n).sys.k.state = .sData ∧ Heard (ch 'S') n ∧
              (Heard (ch 'X') n ∨ Heard (ch 'D') n)))) :
    ListingInv (serverTurn os rx n) := by
  obtain ⟨slotAfter, sentAfter⟩ := serverTurn_sent emits slot sent
  refine ⟨flow.serverTurn os rx, Or.inr ⟨?_, notDone, ?_⟩⟩
  · intro frame member
    exact (sentAfter frame member).mono subset
  · intro fine
    obtain ⟨what, covers, phase⟩ := goesOn fine
    refine ⟨wf.kermit .run rx.ret [], what, phase, ?_, ?_⟩
    · intro full fits
      exact (slotAfter full fits).mono covers
    · intro frame member
      exact (sentAfter frame member).mono covers

theorem arrived_sys
    (frame : List UInt8)
    (rest : List (List UInt8))
    (n : Listing σ) :
    (arrived frame rest n).sys = n.sys :=
  rfl

/-- An acknowledgment before the listing is acknowledged. -/
theorem inv_ack
    (flow : Flow n)
    (unlisted : Unlisted n)
    {frame : List UInt8}
    {rest : List (List UInt8)}
    (flight : n.up = frame :: rest)
    (once : HeardOnce (frame :: n.heard))
    {rx : Rx}
    (reads : ReadsAck (frameSeq frame) rx n.sys) :
    ListingInv (serverTurn os rx (arrived frame rest n)) := by
  have flowAfter := flow.arrived flight
  by_cases listed : n.sys.k.state = .sData
  · have acked : ListingAcked n :=
      listingAcked_of_data flow unlisted listed flight once
    exact ⟨flowAfter.serverTurn os rx, Or.inl acked⟩
  · have wf : Wf (turnSys rx n.sys).k :=
      unlisted.wf.scratch (turnSys_core rx n.sys) (unixio os)
    obtain ⟨p, buf, good, ack, -⟩ := reads.read
    have route :
        kermit (unixio os) .run rx.ret [] (turnSys rx n.sys) = _ :=
      kermit_dirAck wf unlisted.set
        (turnSys_received unlisted.what (Or.inl rfl) rx) unlisted.what
        reads.long good ack []
    have acked : frame ∈ n.acked := by
      apply flow.up
      rw [flight]
      exact List.mem_cons_self
    obtain ⟨isType, notS, -⟩ :=
      heard_type once (unlisted.sent frame (flow.acked acked))
    have heard : Heard (frameType frame) (arrived frame rest n) :=
      ⟨frame, List.mem_cons_self, rfl⟩
    have parsed (types : List UInt8) :
        Emits types (turnSys rx n.sys)
          { turnSys rx n.sys with k.ipktbuf := buf } :=
      emits_quiet rfl (Or.inl ⟨rfl, rfl⟩)
    have slot : SlotKind listingTypes n.sys.k :=
      fun full fits => (unlisted.slot full fits).mono (sentTypes_subset _)
    have sent : ∀ frame ∈ n.sent, OfKind listingTypes frame :=
      fun frame member =>
        (unlisted.sent frame member).mono (sentTypes_subset _)
    have acted :
        dirAck (unixio os) p { turnSys rx n.sys with k.ipktbuf := buf } =
            (xOk, { turnSys rx n.sys with k.ipktbuf := buf }) ∨ _ :=
      advanced_dirAck p { turnSys rx n.sys with k.ipktbuf := buf }
    rcases acted with
      unknown | ⟨initial, texted⟩
    · rw [unknown] at route
      refine inv_answered flowAfter (sentTypes_subset n.sys.k.state) wf ?_
        unlisted.slot unlisted.sent ?_ ?_
      · rw [arrived_sys, route]
        exact parsed _
      · rw [arrived_sys, route]
        exact show xOk ≠ xDone by decide
      · intro _
        unfold serverTurn
        dsimp only [arrived]
        rw [route]
        refine ⟨unlisted.what, List.Subset.refl _, ?_⟩
        rcases unlisted.phase with isInit | ⟨isText, heardS⟩ | ⟨isData, -⟩
        · exact Or.inl isInit
        · exact Or.inr (Or.inl ⟨isText, heardS.arrived frame rest⟩)
        · exact absurd isData listed
    · rcases unlisted.phase with isInit | ⟨isText, heardS⟩ | ⟨isData, -⟩
      · have advanced := initial isInit
        rw [← route] at advanced
        refine inv_answered flowAfter (List.Subset.refl _) wf
          ((parsed _).and advanced.emits) slot sent advanced.notDone ?_
        intro fine
        obtain ⟨what, reached⟩ := advanced.goesOn fine
        have isText := List.mem_singleton.mp reached
        have isS : frameType frame = ch 'S' := by
          rw [isInit] at isType
          exact List.mem_singleton.mp isType
        rw [isS] at heard
        unfold serverTurn
        dsimp only [arrived]
        rw [isText]
        exact ⟨what.trans unlisted.what, List.Subset.refl _,
          Or.inr (Or.inl ⟨rfl, heard⟩)⟩
      · have advanced := texted isText
        rw [← route] at advanced
        refine inv_answered flowAfter (List.Subset.refl _) wf
          ((parsed _).and advanced.emits) slot sent advanced.notDone ?_
        intro fine
        obtain ⟨what, reached⟩ := advanced.goesOn fine
        have listedHeard :
            Heard (ch 'X') (arrived frame rest n) ∨
              Heard (ch 'D') (arrived frame rest n) := by
          rw [isText] at isType
          have among : frameType frame ∈ listingTypes := isType
          simp only [listingTypes, List.mem_cons, List.not_mem_nil,
            or_false] at among
          rcases among with isS | isX | isD
          · exact absurd isS (notS heardS)
          · exact Or.inl (isX ▸ heard)
          · exact Or.inr (isD ▸ heard)
        unfold serverTurn
        dsimp only [arrived]
        simp only [List.mem_cons, List.not_mem_nil, or_false] at reached
        rcases reached with stays | isData
        · rw [stays]
          exact ⟨what.trans unlisted.what, List.Subset.refl _,
            Or.inr (Or.inl ⟨rfl, heardS.arrived frame rest⟩)⟩
        · rw [isData]
          exact ⟨what.trans unlisted.what, List.Subset.refl _,
            Or.inr (Or.inr ⟨rfl, heardS.arrived frame rest, listedHeard⟩)⟩
      · exact absurd isData listed

end Turns

/-- A G packet is answered by S, if it is answered at all. -/
theorem gPacket_started
    {os : Os σ}
    (p : Rcvd)
    (s : Sys (Unix σ))
    (accepted : (gPacket (unixio os) p s).1 = xOk) :
    Emits [ch 'S'] s (gPacket (unixio os) p s).2 ∧
      (gPacket (unixio os) p s).2.k.what = .dir ∧
      (gPacket (unixio os) p s).2.k.state = .sInit := by
  have listed (what : Action) (name : List UInt8) (t : Sys (Unix σ)) :
      Emits [ch 'S'] t
        { noteRequest what name t with k.filelist := [.xdatabuf] } :=
    emits_quiet rfl (Or.inl ⟨rfl, rfl⟩)
  have decoded :
      Emits [ch 'S'] s (decodeName (pdfMem p s) s).2 :=
    emits_quiet rfl (Or.inl ⟨rfl, rfl⟩)
  unfold gPacket answerRequest at accepted ⊢
  dsimp only at accepted ⊢
  generalize (decodeName (pdfMem p s) s).2 = t at accepted decoded ⊢
  split at accepted
  · exact absurd accepted (show xError ≠ xOk by decide)
  · rename_i generic
    rw [if_neg generic]
    have asked :=
      listed .dir (((cstr (pdfMem p t)).drop 1).takeWhile (· ≠ ch ' ')) t
    generalize
      { noteRequest .dir
          (((cstr (pdfMem p t)).drop 1).takeWhile (· ≠ ch ' ')) t with
        k.filelist := [.xdatabuf] } = u at accepted asked ⊢
    have sent : Emits [ch 'S'] u (rpar (unixio os) (ch 'S') u).2 :=
      emits_rpar (by decide) u
    split at accepted
    · exact absurd accepted (show xError ≠ xOk by decide)
    · rename_i fine
      rw [if_neg fine]
      generalize (rpar (unixio os) (ch 'S') u).2 = v at sent
      exact
        ⟨(decoded.and (asked.and sent)).and
          (emits_quiet rfl (Or.inl ⟨rfl, rfl⟩)), rfl, rfl⟩

/-- The route of a G packet to a server that waits. -/
theorem kermit_gPacket
    {os : Os σ}
    {s : Sys (Unix σ)}
    (wf : Wf s.k)
    (received : s.k.doRxd = true)
    (idle : s.k.state = .rWait)
    {len : Int}
    (long : 4 ≤ len)
    {p : Rcvd}
    {buf : List UInt8}
    (good : parse s.k len = .good p buf)
    (generic : p.rtyp = ch 'G')
    (msg : List UInt8) :
    kermit (unixio os) .run len msg s =
      gPacket (unixio os) p { s with k.ipktbuf := buf } := by
  have forced : forceBcta3 s.k = s.k := by
    simp [forceBcta3, wf.noForce]
  have notAck : p.rtyp ≠ ch 'Y' := by
    rw [generic]
    decide
  unfold kermit
  rw [wf.testRslots]
  dsimp only
  unfold kermitRun
  rw [if_neg (by rw [idle]; decide), if_pos received]
  unfold rxStage
  rw [if_neg (by omega), good]
  simp only [forced]
  unfold packetStage
  rw [if_neg (fun both => notAck both.1), if_neg (fun both => both.2 idle),
    if_pos generic]

/-- A server that has accepted a G packet. -/
theorem inv_started
    {os : Os σ}
    {n : Listing σ}
    (started : Started os n) :
    ListingInv n := by
  obtain ⟨s, msg, rx, p, buf, reachable, long, good, generic, begun⟩ :=
    started.begun
  have accepted := started.accepted
  have fresh : Reachable (unixio os) _ := .call .reinit 0 msg reachable
  have empty :
      ((kermit (unixio os) .reinit 0 msg s).2.k.win.opktinfo 0).len < 1 :=
    show (0 : Int) < 1 by decide
  have idle : (kermit (unixio os) .reinit 0 msg s).2.k.state = .rWait := rfl
  have doing : (kermit (unixio os) .reinit 0 msg s).2.k.what = .recv := rfl
  generalize (kermit (unixio os) .reinit 0 msg s).2 = first
    at good begun fresh empty idle doing
  have wf : Wf (turnSys rx first).k :=
    (reachable_wf fresh).scratch (turnSys_core rx first) (unixio os)
  have route :
      kermit (unixio os) .run rx.ret [] (turnSys rx first) = _ :=
    kermit_gPacket wf (turnSys_received doing (Or.inr rfl) rx) idle long good
      generic []
  have fine :
      (gPacket (unixio os) p
        { turnSys rx first with k.ipktbuf := buf }).1 = xOk := by
    rw [← route]
    rw [begun] at accepted
    exact accepted
  obtain ⟨emits, what, state⟩ := gPacket_started p _ fine
  have parsed :
      Emits [ch 'S'] (turnSys rx first)
        { turnSys rx first with k.ipktbuf := buf } :=
    emits_quiet rfl (Or.inl ⟨rfl, rfl⟩)
  rw [← route] at emits what state fine
  have flow : Flow (waiting first) :=
    ⟨List.Subset.refl _, List.Subset.refl _, List.Subset.refl _,
      List.Subset.refl _⟩
  rw [begun]
  refine inv_answered flow (List.cons_subset_cons _ (List.nil_subset _)) wf
    (parsed.and emits) (fun full => absurd full (by
      have emptied : ((waiting first).sys.k.win.opktinfo 0).len < 1 := empty
      omega)) (List.forall_mem_nil _) ?_ ?_
  · rw [show (waiting first).sys = first from rfl, fine]
    decide
  · intro _
    refine ⟨what, ?_, Or.inl state⟩
    rw [show (serverTurn os rx (waiting first)).sys.k.state = .sInit
      from state]
    exact List.Subset.refl _

/-- The server only ever hears more. -/
theorem ListingStep.heardOnce
    {os : Os σ}
    {n n' : Listing σ}
    (step : ListingStep os n n')
    (once : HeardOnce n'.heard) :
    HeardOnce n.heard := by
  cases step with
  | ack frame rest rx =>
      exact
        ⟨(List.pairwise_cons.mp once.once).2,
          fun other member =>
            once.kept other (List.mem_cons_of_mem frame member)⟩
  | _ =>
      exact once

/-- A step that leaves the server alone. -/
theorem Unlisted.same
    {n n' : Listing σ}
    (unlisted : Unlisted n)
    (sys : n'.sys = n.sys)
    (sent : n'.sent = n.sent)
    (heard : n'.heard = n.heard) :
    Unlisted n' := by
  cases n'
  cases sys
  cases sent
  cases heard
  exact ⟨unlisted.wf, unlisted.what, unlisted.phase, unlisted.slot,
    unlisted.sent⟩

theorem ListingInv.step
    {os : Os σ}
    {n n' : Listing σ}
    (inv : ListingInv n)
    (step : ListingStep os n n')
    (once : HeardOnce n'.heard) :
    ListingInv n' := by
  have flow := inv.flow
  cases step with
  | timeout stored _ going =>
      rcases inv.concluded with acked | ⟨-, -, unlisted⟩
      · exact ⟨flow.serverTurn os _, Or.inl acked⟩
      · exact inv_timeout flow (unlisted going) stored
  | lose before after frame _ flight =>
      refine ⟨⟨?_, flow.up, flow.acked, flow.heard⟩, ?_⟩
      · intro other member
        apply flow.down
        rw [flight]
        exact List.mem_append.mpr
          ((List.mem_append.mp member).imp_right (List.mem_cons_of_mem _))
      · rcases inv.concluded with acked | ⟨kinds, notDone, unlisted⟩
        · exact Or.inl acked
        · exact Or.inr
            ⟨kinds, notDone, fun fine => (unlisted fine).same rfl rfl rfl⟩
  | loseAck before after frame _ flight =>
      refine ⟨⟨flow.down, ?_, flow.acked, flow.heard⟩, ?_⟩
      · intro other member
        apply flow.up
        rw [flight]
        exact List.mem_append.mpr
          ((List.mem_append.mp member).imp_right (List.mem_cons_of_mem _))
      · rcases inv.concluded with acked | ⟨kinds, notDone, unlisted⟩
        · exact Or.inl acked
        · exact Or.inr
            ⟨kinds, notDone, fun fine => (unlisted fine).same rfl rfl rfl⟩
  | client frame rest _ flight whole =>
      have down := flow.down
      rw [flight] at down
      obtain ⟨sent, others⟩ := List.cons_subset.mp down
      refine ⟨⟨others, ?_, ?_, ?_⟩, ?_⟩
      · intro other member
        rcases List.mem_append.mp member with earlier | last
        · exact List.mem_cons_of_mem _ (flow.up earlier)
        · rw [List.mem_singleton.mp last]
          exact List.mem_cons_self
      · exact List.cons_subset.mpr ⟨sent, flow.acked⟩
      · exact List.Subset.trans flow.heard (List.subset_cons_self _ _)
      · rcases inv.concluded with
          ⟨other, member, isD⟩ | ⟨kinds, notDone, unlisted⟩
        · exact Or.inl ⟨other, List.mem_cons_of_mem _ member, isD⟩
        · exact Or.inr
            ⟨kinds, notDone, fun fine => (unlisted fine).same rfl rfl rfl⟩
  | ack frame rest rx _ going flight reads =>
      rcases inv.concluded with acked | ⟨-, -, unlisted⟩
      · have acked : ListingAcked (arrived frame rest n) := acked
        exact ⟨(flow.arrived flight).serverTurn os rx, Or.inl acked⟩
      · exact inv_ack flow (unlisted going) flight once reads

/--
As long as the server hears at most one acknowledgment of S and at most one of
X, it sends Z and ends with `X_DONE` only after the client has received and
acknowledged the listing.
-/
theorem listing_concluded_acked
    (os : Os σ)
    {start n : Listing σ}
    (started : Started os start)
    (run : Relation.ReflTransGen (ListingStep os) start n)
    (once : HeardOnce n.heard)
    (concluded : Concluded n) :
    ListingAcked n := by
  have inv : ListingInv n := by
    clear concluded
    induction run with
    | refl =>
        exact inv_started started
    | tail _ step inductionHypothesis =>
        exact (inductionHypothesis (step.heardOnce once)).step step once
  rcases inv.concluded with acked | ⟨kinds, notDone, -⟩
  · exact acked
  · rcases concluded with ⟨frame, member, isZ⟩ | done
    · have kind := kinds frame member
      unfold OfKind at kind
      rw [isZ] at kind
      exact absurd kind (by decide)
    · exact absurd done notDone

/-! ## Runs -/

/-- A server that has accepted a G packet for its directory. -/
def askedListing : Listing (List UInt8) :=
  serverTurn fileOs (packetOf (ch 'G') 0 (lit "D"))
    (waiting (kermit (unixio fileOs) .reinit 0 [] (idleServer fileOs [])).2)

/-- The G packet as the parser reads it. -/
def genericRcvd : Rcvd where
  rtyp := ch 'G'
  rseq := 0
  pdf := 3
  datalen := 1
  ackText := none

theorem askedListing_started :
    Started fileOs askedListing := by
  refine ⟨⟨_, [], _, genericRcvd, ?_, idleServer_reachable fileOs [], ?_, ?_,
    rfl, rfl⟩, by decide⟩
  · exact
      poke
        (turnSys (packetOf (ch 'G') 0 (lit "D"))
          (kermit (unixio fileOs) .reinit 0 []
            (idleServer fileOs [])).2).k.ipktbuf 4 [0]
  · decide
  · decide

/-- A packet numbered 0 of the transaction. -/
def listingFrame
    (typ : UInt8)
    (data : List UInt8) : List UInt8 :=
  pktFrame askedListing.sys.k.par typ 0 data

/-- S, as the server sends it. -/
def sFrame : List UInt8 :=
  listingFrame (ch 'S')
    (initString askedListing.sys.k.cfg askedListing.sys.k.par)

/-- X, as the server sends it. -/
def xFrame : List UInt8 :=
  listingFrame (ch 'X') (lit "DIRECTORY ")

/-- D, as the server sends it. -/
def dFrame : List UInt8 :=
  listingFrame (ch 'D') (lit "[]")

/-- The ACK to a packet numbered 0 reaches the server. -/
def ackTurn
    (frame : List UInt8)
    (rest : List (List UInt8))
    (n : Listing (List UInt8)) : Listing (List UInt8) :=
  serverTurn fileOs (packetOf (ch 'Y') 0 []) (arrived frame rest n)

/-- The ACK as the parser reads it. -/
def ackRcvd : Rcvd where
  rtyp := ch 'Y'
  rseq := 0
  pdf := 3
  datalen := 0
  ackText := none

/-- The runs from `askedListing`. -/
abbrev Run
    (n : Listing (List UInt8)) : Prop :=
  Relation.ReflTransGen (ListingStep fileOs) askedListing n

/-- An ACK to a packet numbered 0 reaches the server. -/
theorem Run.ack
    {frame : List UInt8}
    {rest : List (List UInt8)}
    {n : Listing (List UInt8)}
    (run : Run n)
    (going : n.rc = xOk)
    (flight : n.up = frame :: rest)
    (number : frameSeq frame = 0)
    (good :
      parse (turnSys (packetOf (ch 'Y') 0 []) n.sys).k 4 =
        .good ackRcvd
          (poke (turnSys (packetOf (ch 'Y') 0 []) n.sys).k.ipktbuf 3 [0])) :
    Run (ackTurn frame rest n) := by
  refine run.tail
    (.ack frame rest _ n going flight ⟨by decide, ackRcvd, _, good, rfl, ?_⟩)
  rw [number]
  rfl

/-- The client acknowledges a packet numbered 0. -/
theorem Run.client
    {typ : UInt8}
    {data : List UInt8}
    {rest : List (List UInt8)}
    {n : Listing (List UInt8)}
    (run : Run n)
    (flight : n.down = listingFrame typ data :: rest) :
    Run (clientTurn (listingFrame typ data) rest n) :=
  run.tail (.client _ rest n flight ⟨_, _, _, _, rfl⟩)

/-- A run without losses, up to Z. -/
def servedListing : Listing (List UInt8) :=
  ackTurn dFrame []
    (clientTurn dFrame []
      (ackTurn xFrame []
        (clientTurn xFrame []
          (ackTurn sFrame [] (clientTurn sFrame [] askedListing)))))

theorem servedListing_run :
    Run servedListing := by
  refine .ack (.client (.ack (.client (.ack (.client .refl ?_) ?_ ?_ ?_ ?_)
    ?_) ?_ ?_ ?_ ?_) ?_) ?_ ?_ ?_ ?_
  all_goals decide

theorem listing_concluded_acked_served :
    ListingAcked servedListing := by
  have once : HeardOnce servedListing.heard :=
    ⟨by decide, by decide⟩
  have concluded : Concluded servedListing :=
    Or.inl ⟨[19, 35, 33, 90, 64, 13], by decide, by decide⟩
  exact listing_concluded_acked fileOs askedListing_started
    servedListing_run once concluded

/--
S is sent twice, the two ACKs to it make the server send X and D, and the ACK
to X makes it send Z although D has not been received.
-/
def lostListing : Listing (List UInt8) :=
  ackTurn xFrame []
    (clientTurn xFrame [dFrame]
      (ackTurn sFrame []
        (ackTurn sFrame [sFrame]
          (clientTurn sFrame []
            (clientTurn sFrame [sFrame]
              (serverTurn fileOs { ret := 0, stored := [] }
                askedListing))))))

theorem lostListing_run :
    Run lostListing := by
  have waited :
      Run (serverTurn fileOs { ret := 0, stored := [] } askedListing) :=
    .single (.timeout [] _ (by decide))
  refine .ack (.client (.ack (.ack (.client (.client waited ?_) ?_)
    ?_ ?_ ?_ ?_) ?_ ?_ ?_ ?_) ?_) ?_ ?_ ?_ ?_
  all_goals decide

theorem listing_concluded_unacked :
    Started fileOs askedListing ∧
      Relation.ReflTransGen (ListingStep fileOs) askedListing lostListing ∧
      Concluded lostListing ∧
      ¬ ListingAcked lostListing := by
  refine ⟨askedListing_started, lostListing_run, ?_, ?_⟩
  · exact Or.inl ⟨[19, 35, 33, 90, 64, 13], by decide, by decide⟩
  · rintro ⟨frame, member, isD⟩
    have types : ∀ frame ∈ lostListing.acked, frameType frame ≠ ch 'D' := by
      decide
    exact types frame member isD

end Slate106.Kermit
