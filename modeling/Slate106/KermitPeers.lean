import Slate106.KermitOpening
import Slate106.LossyLink

namespace Slate106.Kermit

open CBytes

/-!
# A GET over a link that loses frames

A fresh server and a fresh client that has asked for a file, each in its main
loop, and a link that keeps the order of the frames and may lose any of them.
In every turn a side reads the frame that arrives first, or nothing that passes
the checks.
-/

variable {σ ω : Type}

/-- The two sides and the frames on their way, oldest first. -/
structure Peers (σ ω : Type) where
  server : Sys (Unix σ)
  serverRc : Int
  client : Sys ω
  clientRc : Int
  down : List (List UInt8)
  up : List (List UInt8)

/-- The main loop goes on. -/
def Going
    (rc : Int) : Prop :=
  rc ≠ xDone ∧ rc ≠ xError

/-- What is read in a turn, and the frames that are left. -/
inductive ReadsFrom
    (s : Sys ω) :
    List (List UInt8) → Rx → List (List UInt8) → Prop where
  | frame
      {frame : List UInt8}
      {rest : List (List UInt8)}
      {rx : Rx}
      (hears : Hears frame rx s) :
      ReadsFrom s (frame :: rest) rx rest
  | noise
      {frames : List (List UInt8)}
      {rx : Rx}
      (noise : Noise rx s) :
      ReadsFrom s frames rx frames

/-- A turn of the server. -/
def Peers.serverTurn
    (os : Os σ)
    (rx : Rx)
    (up : List (List UInt8))
    (n : Peers σ ω) : Peers σ ω :=
  let s := heardSys rx n.server
  let done := kermit (unixio os) .run rx.ret [] s
  { n with
    server := done.2
    serverRc := done.1
    down := n.down ++ newTxds s.log done.2.log
    up := up }

/-- A turn of the client. -/
def Peers.clientTurn
    (io : Io ω)
    (rx : Rx)
    (down : List (List UInt8))
    (n : Peers σ ω) : Peers σ ω :=
  let s := heardSys rx n.client
  let done := kermit io .run rx.ret [] s
  { n with
    client := done.2
    clientRc := done.1
    down := down
    up := n.up ++ newTxds s.log done.2.log }

/-- A turn of one side, or a loss. -/
inductive PeersStep
    (os : Os σ)
    (io : Io ω) : Peers σ ω → Peers σ ω → Prop where
  | server
      {n : Peers σ ω}
      (going : Going n.serverRc)
      {rx : Rx}
      {up : List (List UInt8)}
      (reads : ReadsFrom n.server n.up rx up) :
      PeersStep os io n (n.serverTurn os rx up)
  | client
      {n : Peers σ ω}
      (going : Going n.clientRc)
      {rx : Rx}
      {down : List (List UInt8)}
      (reads : ReadsFrom n.client n.down rx down) :
      PeersStep os io n (n.clientTurn io rx down)
  | lose
      {n : Peers σ ω}
      {down up : List (List UInt8)}
      (fewerDown : down.Sublist n.down)
      (fewerUp : up.Sublist n.up) :
      PeersStep os io n { n with down := down, up := up }

/-- The steps from one state of the two sides to another. -/
inductive PeersRun
    (os : Os σ)
    (io : Io ω) : Peers σ ω → Peers σ ω → Prop where
  | refl
      (n : Peers σ ω) :
      PeersRun os io n n
  | snoc
      {n n' n'' : Peers σ ω}
      (earlier : PeersRun os io n n')
      (step : PeersStep os io n' n'') :
      PeersRun os io n n''

/-- Both sides have been started, and the client has asked for a file. -/
def askedPeers
    (os : Os σ)
    (io : Io ω)
    (serverRoot clientRoot name : List UInt8)
    (w : Unix σ)
    (v : ω) : Peers σ ω where
  server := (answerer (unixio os) serverRoot w).sys
  serverRc := xOk
  client := (requester io clientRoot name v).sys
  clientRc := xOk
  down := []
  up := newTxds [] (requester io clientRoot name v).sys.log

/-! ## What holds at any time -/

/-- The packets of a file and their acknowledgments, on any link. -/
def fileProtocol
    (name : List UInt8) : LossyLink.Protocol Item Item where
  number := Item.seq
  answered := Item.seq
  answers := Replies name
  closing item := item.typ = ch 'Z'
  modulus := 64
  wide := by decide
  agrees := Replies.seq

/-- A client that has taken some packets, newest first. -/
inductive Accepting
    (rootPath name : List UInt8) : List Item → Sys ω → Prop where
  | asking
      {s : Sys ω}
      (asking : Asking rootPath name s) :
      Accepting rootPath name [] s
  | taking
      {s : Sys ω}
      {item : Item}
      {rest : List Item}
      (receives : Receives rootPath s.k)
      (what : s.k.what = .recv)
      (taking : Taking (item :: rest) s) :
      Accepting rootPath name (item :: rest) s

theorem Accepting.receives
    {rootPath name : List UInt8}
    {items : List Item}
    {s : Sys ω}
    (accepting : Accepting rootPath name items s) :
    Receives rootPath s.k := by
  cases accepting with
  | asking asking =>
      exact asking.receives
  | taking receives =>
      exact receives

/-- An acknowledgment that a server can read in any state. -/
structure Readily
    (answer : Item) : Prop where
  typ : answer.typ = ch 'Y'
  sendable : Sendable answer.typ answer.seq answer.data
  short : answer.data.length ≤ 60

/-- What the server and the client need from outside. -/
structure Environment
    (os : Os σ)
    (unread : σ → List UInt8)
    (io : Io ω)
    (serverRoot name file : List UInt8) : Prop where
  server : FileServer os unread
  offers :
    Offers os unread (kaddRootpath (freshCfg serverRoot).rootpath name) file
  accessible : Accessible os name
  takes : TakesFiles io
  plain : PlainName serverRoot name

/-- A server that has answered, and the frames since. -/
structure Shares
    (os : Os σ)
    (unread : σ → List UInt8)
    (serverRoot clientRoot name file : List UInt8)
    (l : LossyLink.Link Item Item)
    (n : Peers σ ω) : Prop where
  safe : LossyLink.Safe (fileProtocol name) l
  some : l.sent ≠ []
  down : n.down = l.down.map Item.frame
  up :
    ∃ early, n.up = List.replicate early (frameOf (ch 'R') 0 name) ++
        l.up.map Item.frame ∧
      (0 < early → ∃ item, l.sent = [item])
  answers : ∀ answer ∈ l.up, Readily answer
  comes :
    ∀ later item earlier, l.sent = later ++ item :: earlier →
      Comes earlier item
  genuine : ∀ item ∈ l.sent, Genuine name item
  front : content l.sent <+: file
  whole : (∃ item ∈ l.sent, item.typ = ch 'Z') → content l.sent = file
  server :
    Going n.serverRc → Offering os unread serverRoot name file l.sent n.server
  served :
    n.serverRc = xDone → ∃ item rest, l.sent = item :: rest ∧ item.typ = ch 'B'
  client : Accepting clientRoot name l.accepted n.client
  ended :
    ∀ item rest, l.accepted = item :: rest → item.typ = ch 'B' →
      n.clientRc = xDone
  done :
    n.clientRc = xDone →
      ∃ item rest, l.accepted = item :: rest ∧ item.typ = ch 'B'

/-- A server that has not received the request yet. -/
structure Unanswered
    (serverRoot clientRoot name : List UInt8)
    (n : Peers σ ω) : Prop where
  server : Idle serverRoot n.server
  serverRc : n.serverRc ≠ xDone
  client : Asking clientRoot name n.client
  clientRc : n.clientRc ≠ xDone
  down : n.down = []
  up : ∃ early, n.up = List.replicate early (frameOf (ch 'R') 0 name)

theorem newTxds_of
    {before after calls : List Call}
    (log : after = calls ++ before) :
    newTxds before after = (txds calls).reverse := by
  rw [log]
  exact newTxds_append before calls

/-- What is answered to a packet of a file can be read. -/
theorem Replies.readily
    {name : List UInt8}
    {answer item : Item}
    (replies : Replies name answer item)
    (fits : Genuine name item)
    (echoed : Echoed name) :
    Readily answer := by
  obtain ⟨typ, seq, data⟩ := replies
  have letter : ch 'Y' ∈ lit "YNFADZBXRGS" := by
    decide +kernel
  have clean : 0 ∉ answer.data ∧ packetStart ∉ answer.data ∧
      packetEnd ∉ answer.data ∧ answer.data.length ≤ 60 := by
    unfold Kermit.replies at data
    split at data
    · rw [List.mem_singleton.mp data]
      decide
    · split at data
      · rcases List.mem_pair.mp data with known | known
        · rw [known]
          exact ⟨echoed.noZero, echoed.noStart, echoed.noEnd, echoed.short⟩
        · rw [known]
          simp
      · split at data
        · rw [List.mem_singleton.mp data]
          decide +kernel
        · rw [List.mem_singleton.mp data]
          simp
  obtain ⟨noZero, noStart, noEnd, short⟩ := clean
  refine ⟨typ, ⟨typ ▸ letter, ?_, ?_, noZero, noStart, noEnd, ?_⟩, short⟩
  · rw [seq]
    exact fits.sendable.lower
  · rw [seq]
    exact fits.sendable.upper
  · omega

section Sharing

variable {os : Os σ}
variable {unread : σ → List UInt8}
variable {io : Io ω}
variable {serverRoot clientRoot name file : List UInt8}
variable {l : LossyLink.Link Item Item}
variable {n : Peers σ ω}

/-! ## Losses -/

/-- Whatever frames are lost. -/
theorem Shares.lose
    (shares : Shares os unread serverRoot clientRoot name file l n)
    {down up : List (List UInt8)}
    (fewerDown : down.Sublist n.down)
    (fewerUp : up.Sublist n.up) :
    ∃ l', l'.sent = l.sent ∧ l'.accepted = l.accepted ∧
      Shares os unread serverRoot clientRoot name file l'
        { n with down := down, up := up } := by
  obtain ⟨early, split, initial⟩ := shares.up
  rw [shares.down] at fewerDown
  rw [split] at fewerUp
  obtain ⟨items, fewerItems, rfl⟩ := List.sublist_map_iff.mp fewerDown
  obtain ⟨requests, acks, rfl, fewerRequests, fewerAcks⟩ :=
    List.sublist_append_iff.mp fewerUp
  obtain ⟨count, most, rfl⟩ := List.sublist_replicate_iff.mp fewerRequests
  obtain ⟨answers, fewerAnswers, rfl⟩ := List.sublist_map_iff.mp fewerAcks
  exact ⟨{ l with down := items, up := answers }, rfl, rfl,
    { safe := shares.safe.lose fewerItems fewerAnswers
      some := shares.some
      down := rfl
      up := ⟨count, rfl, fun some => initial (by omega)⟩
      answers := fun answer member =>
        shares.answers answer (fewerAnswers.subset member)
      comes := shares.comes
      genuine := shares.genuine
      front := shares.front
      whole := shares.whole
      server := shares.server
      served := shares.served
      client := shares.client
      ended := shares.ended
      done := shares.done }⟩

/-! ## The server -/

/-- The server repeats its packet, or does nothing. -/
theorem Shares.again
    (shares : Shares os unread serverRoot clientRoot name file l n)
    {result : Int × Sys (Unix σ)}
    (again :
      OffersAgain os unread serverRoot name file l.sent n.server result) :
    ∃ l', Shares os unread serverRoot clientRoot name file l'
      { n with
        server := result.2
        serverRc := result.1
        down := n.down ++ newTxds n.server.log result.2.log } := by
  have stays : ∀ {l' : LossyLink.Link Item Item},
      LossyLink.Safe (fileProtocol name) l' → l'.sent = l.sent →
      l'.accepted = l.accepted → l'.up = l.up →
      n.down ++ newTxds n.server.log result.2.log = l'.down.map Item.frame →
      Shares os unread serverRoot clientRoot name file l'
        { n with
          server := result.2
          serverRc := result.1
          down := n.down ++ newTxds n.server.log result.2.log } := by
    intro l' safe sent accepted up down
    exact
      { safe := safe
        some := sent ▸ shares.some
        down := down
        up := by
          rw [up, sent]
          exact shares.up
        answers := up ▸ shares.answers
        comes := sent ▸ shares.comes
        genuine := sent ▸ shares.genuine
        front := sent ▸ shares.front
        whole := sent ▸ shares.whole
        server := fun _ => sent ▸ again.offering
        served := fun done => absurd done again.going
        client := accepted ▸ shares.client
        ended := accepted ▸ shares.ended
        done := accepted ▸ shares.done }
  rcases again.sent with log | ⟨item, rest, rc, head, log⟩
  · refine ⟨l, stays shares.safe rfl rfl rfl ?_⟩
    rw [@newTxds_of _ _ [] log, shares.down]
    exact List.append_nil _
  · refine ⟨{ l with down := l.down ++ [item] }, stays
      (shares.safe.again head) rfl rfl rfl ?_⟩
    rw [@newTxds_of _ _ [.txd item.frame rc] log, shares.down,
      List.map_append]
    rfl

/-- Before B, no Z is behind the outstanding packet. -/
theorem Offering.unclosed
    {s : Sys (Unix σ)}
    {item : Item}
    {rest : List Item}
    (offering :
      Offering os unread serverRoot name file (item :: rest) s)
    (going : item.typ ≠ ch 'B') :
    ∀ other ∈ rest, other.typ ≠ ch 'Z' := by
  cases offering.stage with
  | start =>
      exact fun _ member => absurd member List.not_mem_nil
  | named _ _ _ _ _ unclosed | data _ _ _ _ _ _ unclosed =>
      exact fun other member => unclosed other (List.mem_cons_of_mem _ member)
  | eof _ _ _ _ _ unclosed =>
      exact unclosed
  | eot kind =>
      exact absurd kind going

theorem Comes.going
    {last item : Item}
    {rest : List Item}
    (comes : Comes (last :: rest) item) :
    last.typ ≠ ch 'B' := by
  cases comes with
  | name was | attributes was | nextData was | ending was | finished was =>
      rw [was]
      decide
  | firstData was | emptyFile was =>
      rcases was with was | was
      all_goals
        rw [was]
        decide

/-- The outstanding packet is acknowledged: the next one is sent. -/
theorem Shares.next
    (shares : Shares os unread serverRoot clientRoot name file l n)
    {item : Item}
    {rest : List Item}
    (head : l.sent = item :: rest)
    {answer : Item}
    {answers : List Item}
    (arrives : l.up = answer :: answers)
    (same : answer.seq = item.seq)
    (number : item.seq = n.server.k.sSeq)
    {up : List (List UInt8)}
    (left : up = answers.map Item.frame)
    {result : Int × Sys (Unix σ)}
    (offering : Offering os unread serverRoot name file l.sent n.server)
    {new : Item}
    (next :
      OffersNext os unread serverRoot name file l.sent n.server result new) :
    Shares os unread serverRoot clientRoot name file
      { l with
        sent := new :: item :: rest
        down := l.down ++ [new]
        up := answers }
      { n with
        server := result.2
        serverRc := result.1
        down := n.down ++ newTxds n.server.log result.2.log
        up := up } := by
  obtain ⟨fine, comes, follows, goesOn, calls, log, sent⟩ := next
  rw [head] at comes offering
  have unclosed := offering.unclosed comes.going
  have safe := shares.safe.next head arrives same
    (show new.seq = (item.seq + 1) % 64 by rw [follows, number]) unclosed
  refine
    { safe := safe
      some := List.cons_ne_nil _ _
      down := ?_
      up := ⟨0, left, fun none => absurd none (Nat.lt_irrefl 0)⟩
      answers := fun other member =>
        shares.answers other (by rw [arrives]; exact .tail _ member)
      comes := ?_
      genuine := ?_
      front := ?_
      whole := ?_
      server := fun _ => ?_
      served := fun done => ?_
      client := shares.client
      ended := shares.ended
      done := shares.done }
  · show n.down ++ newTxds n.server.log result.2.log = _
    rw [newTxds_of log, sent, shares.down, List.map_append]
    rfl
  · rintro (_ | ⟨first, later⟩) other earlier shape
    · obtain ⟨rfl, rfl⟩ := List.cons.inj shape
      exact comes
    · obtain ⟨-, behind⟩ := List.cons.inj shape
      exact shares.comes later other earlier (head.trans behind)
  · rw [← head]
    exact goesOn.genuine
  · rw [← head]
    exact goesOn.front
  · rw [← head]
    exact goesOn.whole
  · rw [← head]
    exact goesOn
  · exact absurd (show xOk = xDone from fine.symm.trans done) (by decide)

/-- The server reads any acknowledgment. -/
theorem Readily.parsed
    {answer : Item}
    (readily : Readily answer)
    {s : Sys (Unix σ)}
    {sent : List Item}
    (offering : Offering os unread serverRoot name file sent s)
    {rx : Rx}
    (hears : Hears answer.frame rx s) :
    ∃ p buf, HeardAs (ch 'Y') answer.seq answer.data rx s p buf := by
  rw [← readily.typ]
  exact hears.parsed readily.sendable offering.usual.framing
    ⟨by rw [offering.cfg]; rfl, offering.usual.framing.bct,
      by rw [readily.typ]; decide,
      fun _ => by rw [offering.what]; decide⟩
    (.inl (by have short := readily.short; omega))

/-- What the outstanding packet was answered with, or Z was accepted. -/
theorem Shares.known
    (shares : Shares os unread serverRoot clientRoot name file l n)
    {item answer : Item}
    {rest answers : List Item}
    (head : l.sent = item :: rest)
    (arrives : l.up = answer :: answers)
    (same : answer.seq = item.seq) :
    (∃ other ∈ l.sent, other.typ = ch 'Z') ∨
      answer.data ∈ replies name item.typ := by
  rcases shares.safe.answered head arrives same with
    ⟨other, member, isZ⟩ | ⟨-, answered, -⟩
  · exact .inl ⟨other, shares.safe.suffix.subset member, isZ⟩
  · exact .inr answered.data

/-- An acknowledgment arrives at the server. -/
theorem Shares.acked
    (environment : Environment os unread io serverRoot name file)
    (shares : Shares os unread serverRoot clientRoot name file l n)
    (going : Going n.serverRc)
    {answer : Item}
    {answers : List Item}
    (arrives : l.up = answer :: answers)
    (left : n.up = answer.frame :: answers.map Item.frame)
    {rx : Rx}
    (hears : Hears answer.frame rx n.server) :
    ∃ l', Shares os unread serverRoot clientRoot name file l'
      (n.serverTurn os rx (answers.map Item.frame)) := by
  have offering := shares.server going
  obtain ⟨item, rest, head, number, -⟩ := offering.outstanding
  have readily := shares.answers answer (arrives ▸ List.mem_cons_self)
  obtain ⟨p, buf, heardAs⟩ := readily.parsed offering hears
  obtain ⟨l', sent, accepted, lost⟩ := shares.lose
    (List.Sublist.refl n.down)
    (show (answers.map Item.frame).Sublist n.up from
      left ▸ List.sublist_cons_self _ _)
  by_cases same : answer.seq = n.server.k.sSeq
  · rw [same] at heardAs
    have known := shares.known head arrives (same.trans number.symm)
    rcases offering.acked environment.server environment.offers
      environment.plain head heardAs known with
      ⟨new, next⟩ | ⟨done, kind, log⟩
    · exact ⟨_, shares.next head arrives (same.trans number.symm) number rfl
        offering next⟩
    · refine ⟨l',
        { lost with
          server := fun going => absurd done going.1
          served := fun _ => ⟨item, rest, sent.trans head, kind⟩
          down := ?_ }⟩
      show n.down ++ newTxds n.server.log _ = _
      rw [@newTxds_of _ _ [] log]
      exact (List.append_nil _).trans lost.down
  · have late := offering.late environment.server heardAs same
    rw [← sent] at late
    exact lost.again late

theorem Comes.first
    {item : Item}
    (comes : Comes [] item) :
    item.typ = ch 'S' := by
  cases comes with
  | start kind =>
      exact kind

/-- The frame of a request can be read by any server. -/
theorem Echoed.request
    (echoed : Echoed name) :
    Sendable (ch 'R') 0 name where
  letter := by
    decide +kernel
  lower := Int.le_refl 0
  upper := show (0 : Int) ≤ 63 by decide
  noZero := echoed.noZero
  noStart := echoed.noStart
  noEnd := echoed.noEnd
  fits := by
    have short := echoed.short
    omega

/-- R arrives again at the server that has answered it. -/
theorem Shares.askedAgain
    (environment : Environment os unread io serverRoot name file)
    (shares : Shares os unread serverRoot clientRoot name file l n)
    (going : Going n.serverRc)
    {item : Item}
    (once : l.sent = [item])
    {rest : List (List UInt8)}
    (left : n.up = frameOf (ch 'R') 0 name :: rest)
    {rx : Rx}
    (hears : Hears (frameOf (ch 'R') 0 name) rx n.server) :
    ∃ l', Shares os unread serverRoot clientRoot name file l'
      (n.serverTurn os rx rest) := by
  have offering := shares.server going
  have echoed := environment.plain.echoed
  rw [once] at offering
  obtain ⟨p, buf, heardAs⟩ := hears.parsed echoed.request
    offering.usual.framing
    ⟨by rw [offering.cfg]; rfl, offering.usual.framing.bct,
      by decide, fun echo => absurd echo (by decide)⟩
    (.inl (by have short := echoed.short; omega))
  obtain ⟨fine, still, call, log, quiet⟩ := offering.askedAgain
    environment.accessible echoed.noZero
    (shares.comes [] item [] once).first heardAs []
  obtain ⟨l', sent, accepted, lost⟩ := shares.lose
    (List.Sublist.refl n.down)
    (show rest.Sublist n.up from left ▸ List.sublist_cons_self _ _)
  refine ⟨l',
    { lost with
      server := fun _ => by
        rw [sent, once]
        exact still
      served := fun done =>
        absurd (show xOk = xDone from fine.symm.trans done) (by decide)
      down := ?_ }⟩
  show n.down ++ newTxds n.server.log _ = _
  rw [@newTxds_of _ _ [call] log, quiet]
  exact (List.append_nil _).trans lost.down

/-- A turn of the server. -/
theorem Shares.serverTurn
    (environment : Environment os unread io serverRoot name file)
    (shares : Shares os unread serverRoot clientRoot name file l n)
    (going : Going n.serverRc)
    {rx : Rx}
    {up : List (List UInt8)}
    (reads : ReadsFrom n.server n.up rx up) :
    ∃ l', Shares os unread serverRoot clientRoot name file l'
      (n.serverTurn os rx up) := by
  obtain ⟨early, split, initial⟩ := shares.up
  generalize frames : n.up = queue at reads
  cases reads with
  | noise noise =>
      have again := (shares.server going).noise environment.server noise
      rw [← frames]
      exact shares.again again
  | frame hears =>
      cases early with
      | succ early =>
          obtain ⟨item, once⟩ := initial (Nat.succ_pos early)
          rw [frames, List.replicate_succ, List.cons_append] at split
          obtain ⟨rfl, rfl⟩ := List.cons.inj split
          exact shares.askedAgain environment going once frames hears
      | zero =>
          rw [List.replicate_zero, List.nil_append] at split
          cases arrives : l.up with
          | nil =>
              rw [frames, arrives] at split
              exact absurd split (List.cons_ne_nil _ _)
          | cons answer answers =>
              rw [frames, arrives, List.map_cons] at split
              obtain ⟨rfl, rfl⟩ := List.cons.inj split
              exact shares.acked environment going arrives frames hears

/-! ## The client -/

/-- Of the receiver states, a client that goes on is in one. -/
theorem Taking.receiving
    {s : Sys ω}
    {item : Item}
    {rest : List Item}
    (taking : Taking (item :: rest) s)
    (going : item.typ ≠ ch 'B') :
    s.k.state = .rFile ∨ s.k.state = .rAttr ∨ s.k.state = .rData := by
  cases taking with
  | greeted _ state | ended _ state =>
      exact .inl state
  | named _ state =>
      exact .inr (.inl state)
  | storing _ state =>
      exact .inr (.inr state)
  | finished kind =>
      exact absurd kind going

/-- The next packet is acknowledged. -/
theorem Shares.accepts
    (echoed : Echoed name)
    (shares : Shares os unread serverRoot clientRoot name file l n)
    {item : Item}
    {items : List Item}
    (arrives : l.down = item :: items)
    (ahead : l.sent = item :: l.accepted)
    {result : Int × Sys ω}
    (acknowledged :
      Acknowledged clientRoot name (item :: l.accepted) item n.client
        result) :
    ∃ answer, Replies name answer item ∧
      Shares os unread serverRoot clientRoot name file
        { l with
          down := items
          accepted := item :: l.accepted
          up := l.up ++ [answer] }
        { n with
          client := result.2
          clientRc := result.1
          down := items.map Item.frame
          up := n.up ++ newTxds n.client.log result.2.log } := by
  obtain ⟨fine, ⟨answer, replies, ⟨receives, what, calls, log, sent⟩⟩,
    taking⟩ := acknowledged
  have genuine := shares.genuine item (ahead ▸ List.mem_cons_self)
  obtain ⟨early, split, initial⟩ := shares.up
  refine ⟨answer, replies,
    { safe := shares.safe.accept arrives (shares.safe.follows ahead) replies
      some := shares.some
      down := rfl
      up := ⟨early, ?_, initial⟩
      answers := ?_
      comes := shares.comes
      genuine := shares.genuine
      front := shares.front
      whole := shares.whole
      server := shares.server
      served := shares.served
      client := .taking receives what taking
      ended := ?_
      done := fun done => ⟨item, l.accepted, rfl, ?_⟩ }⟩
  · show n.up ++ newTxds n.client.log result.2.log = _
    rw [newTxds_of log, sent, split, List.append_assoc, List.map_append]
    rfl
  · intro other member
    rcases List.mem_append.mp member with member | member
    · exact shares.answers other member
    · rw [List.mem_singleton.mp member]
      exact replies.readily genuine echoed
  · intro last rest shape kind
    obtain ⟨rfl, -⟩ := List.cons.inj shape
    exact fine.trans (if_pos kind)
  · by_contra other
    rw [if_neg other] at fine
    exact absurd (fine.symm.trans done) (by decide)

/-- The packet that was accepted last is acknowledged again. -/
theorem Shares.reaccepts
    (echoed : Echoed name)
    (shares : Shares os unread serverRoot clientRoot name file l n)
    {item : Item}
    {items rest : List Item}
    (arrives : l.down = item :: items)
    (last : l.accepted = item :: rest)
    (going : item.typ ≠ ch 'B')
    {result : Int × Sys ω}
    (acknowledged :
      Acknowledged clientRoot name (item :: rest) item n.client result) :
    ∃ l', Shares os unread serverRoot clientRoot name file l'
      { n with
        client := result.2
        clientRc := result.1
        down := items.map Item.frame
        up := n.up ++ newTxds n.client.log result.2.log } := by
  obtain ⟨fine, ⟨answer, replies, ⟨receives, what, calls, log, sent⟩⟩,
    taking⟩ := acknowledged
  rw [if_neg going] at fine
  have genuine := shares.genuine item
    (shares.safe.suffix.subset (last ▸ List.mem_cons_self))
  obtain ⟨early, split, initial⟩ := shares.up
  have fewer : items.Sublist l.down := arrives ▸ List.sublist_cons_self _ _
  have safe := (shares.safe.lose fewer (List.Sublist.refl l.up)).answer last
    replies
  refine ⟨_,
    { safe := safe
      some := shares.some
      down := rfl
      up := ⟨early, ?_, initial⟩
      answers := ?_
      comes := shares.comes
      genuine := shares.genuine
      front := shares.front
      whole := shares.whole
      server := shares.server
      served := shares.served
      client := ?_
      ended := ?_
      done := fun done => ?_ }⟩
  · show n.up ++ newTxds n.client.log result.2.log = _
    rw [newTxds_of log, sent, split, List.append_assoc, List.map_append]
    rfl
  · intro other member
    rcases List.mem_append.mp member with member | member
    · exact shares.answers other member
    · rw [List.mem_singleton.mp member]
      exact replies.readily genuine echoed
  · show Accepting clientRoot name l.accepted result.2
    rw [last]
    exact .taking receives what taking
  · intro head behind shape kind
    obtain ⟨rfl, -⟩ := List.cons.inj (last.symm.trans shape)
    exact absurd kind going
  · exact absurd (show xOk = xDone from fine.symm.trans done) (by decide)

theorem Comes.kind
    {earlier : List Item}
    {item : Item}
    (comes : Comes earlier item) :
    item.typ ∈ lit "SFADZB" := by
  cases comes with
  | start kind | name _ kind | attributes _ kind | firstData _ kind
  | nextData _ kind | emptyFile _ kind | ending _ kind | finished _ kind =>
      rw [kind]
      decide +kernel

/-- The frame of a packet of a file can be read by any client. -/
theorem parsed_item
    {rootPath : List UInt8}
    {s : Sys ω}
    {item : Item}
    {earlier : List Item}
    (comes : Comes earlier item)
    (genuine : Genuine name item)
    (receives : Receives rootPath s.k)
    (state : s.k.state ≠ .sInit ∧ s.k.state ≠ .sEot)
    {rx : Rx}
    (hears : Hears item.frame rx s) :
    ∃ p buf, HeardAs item.typ item.seq item.data rx s p buf := by
  have kinds : ∀ c ∈ lit "SFADZB", c ≠ ch 'N' ∧ c ≠ ch 'Y' := by
    decide +kernel
  obtain ⟨notNak, notAck⟩ := kinds item.typ comes.kind
  have framing := receives.plainly.par.framing
  refine hears.parsed genuine.sendable framing
    ⟨by rw [receives.plainly.cfg]; rfl, framing.bct, notNak,
      fun echo => absurd echo notAck⟩ ?_
  by_cases first : item.typ = ch 'S'
  · rw [(genuine.start first).2]
    exact .inl (show freshInit.length ≤ 91 by decide)
  · exact .inr ⟨first, state⟩

/-- A client that goes on acknowledges the next packet. -/
theorem Shares.acknowledges
    (environment : Environment os unread io serverRoot name file)
    (shares : Shares os unread serverRoot clientRoot name file l n)
    (going : Going n.clientRc)
    {item : Item}
    (ahead : l.sent = item :: l.accepted)
    {rx : Rx}
    (hears : Hears item.frame rx n.client) :
    Acknowledged clientRoot name (item :: l.accepted) item n.client
      (kermit io .run rx.ret [] (heardSys rx n.client)) := by
  have takes := environment.takes
  have genuine := shares.genuine item (ahead ▸ List.mem_cons_self)
  have comes := shares.comes [] item l.accepted ahead
  have client := shares.client
  generalize known : l.accepted = accepted at client comes ⊢
  cases client with
  | asking asking =>
      obtain ⟨p, buf, heardAs⟩ := parsed_item comes genuine asking.receives
        (by rw [asking.state]; decide) hears
      exact asking.greeted takes.linked genuine comes.first heardAs []
  | @taking _ last rest receives what taking =>
      have notOver : last.typ ≠ ch 'B' := fun finished =>
        going.1 (shares.ended last rest known finished)
      obtain ⟨p, buf, heardAs⟩ := parsed_item comes genuine receives
        (by rcases taking.receiving notOver with at' | at' | at' <;>
          rw [at'] <;> decide) hears
      exact taking.takes takes receives what environment.plain.echoed comes
        genuine heardAs []

/-- A packet arrives at the client. -/
theorem Shares.heard
    (environment : Environment os unread io serverRoot name file)
    (shares : Shares os unread serverRoot clientRoot name file l n)
    (going : Going n.clientRc)
    {item : Item}
    {items : List Item}
    (arrives : l.down = item :: items)
    {rx : Rx}
    (hears : Hears item.frame rx n.client) :
    ∃ l', Shares os unread serverRoot clientRoot name file l'
      (n.clientTurn io rx (items.map Item.frame)) := by
  have echoed := environment.plain.echoed
  rcases shares.safe.arrives arrives with ⟨rest, accepted⟩ | ahead
  · have notOver : item.typ ≠ ch 'B' := fun finished =>
      going.1 (shares.ended item rest accepted finished)
    obtain ⟨new, sent⟩ := shares.safe.suffix
    have comes := shares.comes new item rest (by rw [← sent, accepted])
    have genuine := shares.genuine item
      (shares.safe.suffix.subset (accepted ▸ List.mem_cons_self))
    have client := shares.client
    rw [accepted] at client
    cases client with
    | taking receives what taking =>
        obtain ⟨p, buf, heardAs⟩ := parsed_item comes genuine receives
          (by rcases taking.receiving notOver with at' | at' | at' <;>
            rw [at'] <;> decide) hears
        exact shares.reaccepts echoed arrives accepted notOver
          (taking.again notOver environment.takes receives what genuine
            heardAs [])
  · obtain ⟨_, -, next⟩ := shares.accepts echoed arrives ahead
      (shares.acknowledges environment going ahead hears)
    exact ⟨_, next⟩

/-- Nothing arrives at a client that still asks. -/
theorem Shares.asksOn
    (shares : Shares os unread serverRoot clientRoot name file l n)
    (nothing : l.accepted = [])
    {result : Int × Sys ω}
    (again : AsksAgain clientRoot name n.client result) :
    ∃ l', Shares os unread serverRoot clientRoot name file l'
      { n with
        client := result.2
        clientRc := result.1
        up := n.up ++ newTxds n.client.log result.2.log } := by
  obtain ⟨early, split, -⟩ := shares.up
  have quiet := shares.safe.quiet nothing
  have once : ∃ item, l.sent = [item] := by
    rcases shares.safe.ahead with same | ⟨item, one⟩
    · exact absurd (same.trans nothing) shares.some
    · exact ⟨item, one.trans (by rw [nothing])⟩
  have none : ∀ {item : Item} {rest : List Item}, l.accepted ≠ item :: rest :=
    fun accepted => absurd (nothing.symm.trans accepted).symm
      (List.cons_ne_nil _ _)
  refine ⟨l,
    { shares with
      up := ?_
      client := ?_
      ended := fun _ _ accepted => absurd accepted none
      done := fun done => absurd done again.going }⟩
  · rw [quiet] at split ⊢
    rcases again.sent with log | ⟨rc, log⟩
    · rw [@newTxds_of _ _ [] log]
      exact ⟨early, (List.append_nil _).trans split, fun _ => once⟩
    · rw [@newTxds_of _ _ [.txd _ rc] log, split]
      refine ⟨early + 1, ?_, fun _ => once⟩
      rw [List.replicate_succ', List.map_nil, List.append_nil,
        List.append_nil]
      rfl
  · rw [nothing]
    exact .asking again.asking

/-- Nothing arrives at a client that receives. -/
theorem Shares.waitsOn
    (shares : Shares os unread serverRoot clientRoot name file l n)
    {item : Item}
    {rest : List Item}
    (last : l.accepted = item :: rest)
    (going : item.typ ≠ ch 'B')
    (taking : Taking (item :: rest) n.client)
    {result : Int × Sys ω}
    (waits : WaitsOn clientRoot n.client result) :
    ∃ l', Shares os unread serverRoot clientRoot name file l'
      { n with
        client := result.2
        clientRc := result.1
        up := n.up ++ newTxds n.client.log result.2.log } := by
  obtain ⟨fine, receives, what, same, sent⟩ := waits
  have member : item ∈ l.sent :=
    shares.safe.suffix.subset (last ▸ List.mem_cons_self)
  have genuine := shares.genuine item member
  obtain ⟨early, split, initial⟩ := shares.up
  have client : Accepting clientRoot name l.accepted result.2 := by
    rw [last]
    exact .taking receives what (taking.same same)
  have ended : ∀ other behind, l.accepted = other :: behind →
      other.typ = ch 'B' → result.1 = xDone := by
    intro other behind shape kind
    obtain ⟨rfl, -⟩ := List.cons.inj (last.symm.trans shape)
    exact absurd kind going
  have done : result.1 = xDone →
      ∃ item rest, l.accepted = item :: rest ∧ item.typ = ch 'B' :=
    fun done => absurd (show xOk = xDone from fine.symm.trans done) (by decide)
  rcases sent with log | ⟨state, log⟩
  · refine ⟨l, { shares with
      up := ⟨early, ?_, initial⟩
      client := client
      ended := ended
      done := done }⟩
    rw [@newTxds_of _ _ [] log]
    exact (List.append_nil _).trans split
  · -- In `R_FILE` the init string is sent: as an answer to S, or behind Z.
    have safe : LossyLink.Safe (fileProtocol name)
        { l with up := l.up ++ [⟨ch 'Y', 0, freshInit⟩] } := by
      cases taking with
      | greeted kind =>
          obtain ⟨number, -⟩ := genuine.start kind
          refine shares.safe.answer last ⟨rfl, number.symm, ?_⟩
          rw [kind]
          exact List.mem_singleton_self _
      | named _ other | storing _ other =>
          exact absurd (other.symm.trans state) (by decide)
      | ended kind =>
          exact shares.safe.stray ⟨item, last ▸ List.mem_cons_self, kind⟩ _
      | finished kind =>
          exact absurd kind going
    refine ⟨{ l with up := l.up ++ [⟨ch 'Y', 0, freshInit⟩] },
      { shares with
        safe := safe
        up := ⟨early, ?_, initial⟩
        answers := ?_
        client := client
        ended := ended
        done := done }⟩
    · show n.up ++ newTxds n.client.log result.2.log = _
      rw [@newTxds_of _ _ [.txd _ xOk] log, split, List.append_assoc,
        List.map_append]
      rfl
    · intro other member
      rcases List.mem_append.mp member with member | member
      · exact shares.answers other member
      · rw [List.mem_singleton.mp member]
        exact ⟨rfl, ⟨by decide +kernel, Int.le_refl 0, by decide, by decide,
          by decide, by decide, by decide⟩, by decide⟩

/-- A turn of the client. -/
theorem Shares.clientTurn
    (environment : Environment os unread io serverRoot name file)
    (shares : Shares os unread serverRoot clientRoot name file l n)
    (going : Going n.clientRc)
    {rx : Rx}
    {down : List (List UInt8)}
    (reads : ReadsFrom n.client n.down rx down) :
    ∃ l', Shares os unread serverRoot clientRoot name file l'
      (n.clientTurn io rx down) := by
  have linked := environment.takes.linked
  generalize frames : n.down = queue at reads
  cases reads with
  | noise noise =>
      have client := shares.client
      generalize known : l.accepted = accepted at client
      rw [← frames]
      cases client with
      | asking asking =>
          exact shares.asksOn known (asking.noise linked noise [])
      | @taking _ last rest receives what taking =>
          have notOver : last.typ ≠ ch 'B' := fun finished =>
            going.1 (shares.ended last rest known finished)
          have set : n.client.k.state ≠ .rNone := by
            rcases taking.receiving notOver with at' | at' | at'
            all_goals
              rw [at']
              decide
          exact shares.waitsOn known notOver taking
            (kermit_waits linked receives what set noise [])
  | frame hears =>
      have split := shares.down
      cases arrives : l.down with
      | nil =>
          rw [frames, arrives] at split
          exact absurd split (List.cons_ne_nil _ _)
      | cons item items =>
          rw [frames, arrives, List.map_cons] at split
          obtain ⟨rfl, rfl⟩ := List.cons.inj split
          exact shares.heard environment going arrives hears

/-! ## Before the request arrives -/

/-- The request arrives, and the server answers with S. -/
theorem Unanswered.answered
    (environment : Environment os unread io serverRoot name file)
    (unanswered : Unanswered serverRoot clientRoot name n)
    {early : Nat}
    {rx : Rx}
    (hears : Hears (frameOf (ch 'R') 0 name) rx n.server) :
    (n.serverTurn os rx
        (List.replicate early (frameOf (ch 'R') 0 name))).serverRc = xOk ∧
      Shares os unread serverRoot clientRoot name file
        (LossyLink.started ⟨ch 'S', 0, freshInit⟩)
        (n.serverTurn os rx
          (List.replicate early (frameOf (ch 'R') 0 name))) := by
  obtain ⟨idle, -, asking, going, nothing, -⟩ := unanswered
  have echoed := environment.plain.echoed
  obtain ⟨ipktbuf, doRxd, k⟩ := idle.k
  have par : n.server.k.par = freshPar := by
    rw [k]
    rfl
  have framing : Framing n.server.k.par := by
    rw [par]
    exact Usual.framing (.inl rfl)
  obtain ⟨p, buf, heardAs⟩ := hears.parsed echoed.request framing
    ⟨by rw [k]; rfl, framing.bct, by decide,
      fun echo => absurd echo (by decide)⟩
    (.inl (by have short := echoed.short; omega))
  obtain ⟨fine, offering, calls, log, sent⟩ :=
    @Idle.asked _ os unread serverRoot name file _ _
      environment.server.served.linked environment.accessible
      echoed.noZero idle p buf heardAs []
  refine ⟨fine,
    { safe := LossyLink.safe_started _
      some := List.cons_ne_nil _ _
      down := ?_
      up := ⟨early, (List.append_nil _).symm, fun _ => ⟨_, rfl⟩⟩
      answers := fun _ member => absurd member List.not_mem_nil
      comes := ?_
      genuine := offering.genuine
      front := offering.front
      whole := offering.whole
      server := fun _ => offering
      served := fun done =>
        absurd (show xOk = xDone from fine.symm.trans done) (by decide)
      client := .asking asking
      ended := fun _ _ none => absurd none.symm (List.cons_ne_nil _ _)
      done := fun done => absurd done going }⟩
  · show n.down ++ newTxds n.server.log _ = _
    rw [newTxds_of log, sent, nothing]
    rfl
  · intro later item earlier shape
    obtain ⟨rfl, one⟩ | ⟨rest, -, behind⟩ :=
      List.cons_eq_append_iff.mp shape
    · obtain ⟨rfl, rfl⟩ := List.cons.inj one
      exact .start rfl
    · exact absurd behind (by simp)

theorem Unanswered.serverTurn
    (environment : Environment os unread io serverRoot name file)
    (unanswered : Unanswered serverRoot clientRoot name n)
    {rx : Rx}
    {up : List (List UInt8)}
    (reads : ReadsFrom n.server n.up rx up) :
    Unanswered serverRoot clientRoot name (n.serverTurn os rx up) ∨
      ∃ l, Shares os unread serverRoot clientRoot name file l
        (n.serverTurn os rx up) := by
  obtain ⟨early, split⟩ := unanswered.up
  generalize frames : n.up = queue at reads
  cases reads with
  | noise noise =>
      obtain ⟨idle, -, asking, going, nothing, -⟩ := unanswered
      obtain ⟨fine, still, log⟩ := @Idle.noise _ os _ _ _ idle noise []
      refine .inl ⟨still, ?_, asking, going, ?_, early, frames.symm.trans split⟩
      · exact fun done =>
          absurd (show xOk = xDone from fine.symm.trans done) (by decide)
      · show n.down ++ newTxds n.server.log _ = []
        rw [@newTxds_of _ _ [] log, nothing]
        rfl
  | frame hears =>
      cases early with
      | zero =>
          rw [frames] at split
          exact absurd split (List.cons_ne_nil _ _)
      | succ early =>
          rw [frames, List.replicate_succ] at split
          obtain ⟨rfl, rfl⟩ := List.cons.inj split
          exact .inr ⟨_, (unanswered.answered environment hears).2⟩

theorem Unanswered.clientTurn
    (linked : Linked io)
    (unanswered : Unanswered serverRoot clientRoot name n)
    {rx : Rx}
    {down : List (List UInt8)}
    (reads : ReadsFrom n.client n.down rx down) :
    Unanswered serverRoot clientRoot name (n.clientTurn io rx down) := by
  obtain ⟨idle, serverRc, asking, -, nothing, early, split⟩ := unanswered
  rw [nothing] at reads
  cases reads with
  | noise noise =>
      obtain ⟨going, still, sent⟩ := asking.noise linked noise []
      refine ⟨idle, serverRc, still, going, rfl, ?_⟩
      show ∃ early, n.up ++ newTxds n.client.log _ = _
      rcases sent with log | ⟨rc, log⟩
      · rw [@newTxds_of _ _ [] log]
        exact ⟨early, (List.append_nil _).trans split⟩
      · rw [@newTxds_of _ _ [.txd _ rc] log, split]
        exact ⟨early + 1, List.replicate_succ'.symm⟩

/-! ## Runs -/

/-- What is true of both sides at any time. -/
def PeersInv
    (os : Os σ)
    (unread : σ → List UInt8)
    (serverRoot clientRoot name file : List UInt8)
    (n : Peers σ ω) : Prop :=
  Unanswered serverRoot clientRoot name n ∨
    ∃ l, Shares os unread serverRoot clientRoot name file l n

theorem PeersStep.inv
    (environment : Environment os unread io serverRoot name file)
    {n' : Peers σ ω}
    (step : PeersStep os io n n')
    (inv : PeersInv os unread serverRoot clientRoot name file n) :
    PeersInv os unread serverRoot clientRoot name file n' := by
  rcases inv with unanswered | ⟨l, shares⟩
  · cases step with
    | server going reads =>
        exact unanswered.serverTurn environment reads
    | client going reads =>
        exact .inl (unanswered.clientTurn environment.takes.linked reads)
    | lose fewerDown fewerUp =>
        obtain ⟨idle, serverRc, asking, clientRc, nothing, early, split⟩ :=
          unanswered
        rw [nothing] at fewerDown
        rw [split] at fewerUp
        obtain ⟨count, -, left⟩ := List.sublist_replicate_iff.mp fewerUp
        exact .inl ⟨idle, serverRc, asking, clientRc,
          List.sublist_nil.mp fewerDown, count, left⟩
  · cases step with
    | server going reads =>
        exact .inr (shares.serverTurn environment going reads)
    | client going reads =>
        exact .inr (shares.clientTurn environment going reads)
    | lose fewerDown fewerUp =>
        obtain ⟨l', -, -, still⟩ := shares.lose fewerDown fewerUp
        exact .inr ⟨l', still⟩

theorem PeersRun.inv
    (environment : Environment os unread io serverRoot name file)
    {n' : Peers σ ω}
    (run : PeersRun os io n n')
    (inv : PeersInv os unread serverRoot clientRoot name file n) :
    PeersInv os unread serverRoot clientRoot name file n' := by
  induction run with
  | refl =>
      exact inv
  | snoc _ step inductionHypothesis =>
      exact step.inv environment inductionHypothesis

/-- A name that the R packet says as it is. -/
structure AskedAs
    (name : List UInt8) : Prop where
  some : name ≠ []
  plain : ∀ c ∈ name, ¬ IsQuoted c

/-- The client has asked, and the server has received nothing yet. -/
structure Starts
    (serverRoot clientRoot name : List UInt8)
    (n : Peers σ ω) : Prop where
  unanswered : Unanswered serverRoot clientRoot name n
  serverRc : n.serverRc = xOk
  clientRc : n.clientRc = xOk
  up : n.up = [frameOf (ch 'R') 0 name]

theorem starts_of
    {server : Sys (Unix σ)}
    {client : Sys ω}
    (idle : Idle serverRoot server)
    (asking : Asking clientRoot name client)
    (log : client.log = [.txd (frameOf (ch 'R') 0 name) xOk]) :
    Starts serverRoot clientRoot name
      { server := server
        serverRc := xOk
        client := client
        clientRc := xOk
        down := []
        up := newTxds [] client.log } := by
  have up : newTxds [] client.log = [frameOf (ch 'R') 0 name] := by
    rw [log]
    rfl
  rw [up]
  exact ⟨⟨idle, show xOk ≠ xDone by decide, asking,
    show xOk ≠ xDone by decide, rfl, 1, rfl⟩, rfl, rfl, rfl⟩

theorem askedPeers_starts
    (environment : Environment os unread io serverRoot name file)
    (asked : AskedAs name)
    (clientRoot : List UInt8)
    (w : Unix σ)
    (v : ω) :
    Starts serverRoot clientRoot name
      (askedPeers os io serverRoot clientRoot name w v) := by
  have echoed := environment.plain.echoed
  have same := (requestField_eq_iff echoed.noZero).mpr asked.plain
  have most : getpktMaxlen (freshData []).par = 990 := rfl
  have short := echoed.short
  obtain ⟨asking, log⟩ := requester_asks environment.takes.linked clientRoot v
    asked.some echoed.noZero (by rw [same]; omega)
  rw [same] at asking log
  exact starts_of (idle_answerer (unixio os) serverRoot w) asking log

theorem askedPeers_inv
    (environment : Environment os unread io serverRoot name file)
    (asked : AskedAs name)
    (clientRoot : List UInt8)
    (w : Unix σ)
    (v : ω) :
    PeersInv os unread serverRoot clientRoot name file
      (askedPeers os io serverRoot clientRoot name w v) :=
  .inl (askedPeers_starts environment asked clientRoot w v).unanswered

end Sharing

end Slate106.Kermit
