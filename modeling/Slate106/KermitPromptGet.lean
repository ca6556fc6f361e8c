import Slate106.KermitLossyGet

namespace Slate106.Kermit

open CBytes

/-!
# A GET in which nothing is lost

While every frame arrives and nobody is kept waiting, a GET comes to its end,
whatever the file is: both sides report success after at most two turns for
each packet.
-/

variable {σ ω : Type}

/-- A turn in which a side reads the frame that arrives first. -/
inductive PromptStep
    (os : Os σ)
    (io : Io ω) : Peers σ ω → Peers σ ω → Prop where
  | server
      {n : Peers σ ω}
      (going : Going n.serverRc)
      {frame : List UInt8}
      {rest : List (List UInt8)}
      (arrives : n.up = frame :: rest)
      {rx : Rx}
      (hears : Hears frame rx n.server) :
      PromptStep os io n (n.serverTurn os rx rest)
  | client
      {n : Peers σ ω}
      (going : Going n.clientRc)
      {frame : List UInt8}
      {rest : List (List UInt8)}
      (arrives : n.down = frame :: rest)
      {rx : Rx}
      (hears : Hears frame rx n.client) :
      PromptStep os io n (n.clientTurn io rx rest)

/-- A number of such turns. -/
inductive PromptRun
    (os : Os σ)
    (io : Io ω) : Nat → Peers σ ω → Peers σ ω → Prop where
  | refl
      (n : Peers σ ω) :
      PromptRun os io 0 n n
  | step
      {turns : Nat}
      {n n' n'' : Peers σ ω}
      (first : PromptStep os io n n')
      (later : PromptRun os io turns n' n'') :
      PromptRun os io (turns + 1) n n''

theorem PromptStep.step
    {os : Os σ}
    {io : Io ω}
    {n n' : Peers σ ω}
    (step : PromptStep os io n n') :
    PeersStep os io n n' := by
  cases step with
  | server going arrives hears =>
      exact .server going (arrives ▸ .frame hears)
  | client going arrives hears =>
      exact .client going (arrives ▸ .frame hears)

/-! ## How many packets there are -/

/-- How far a transfer has come with a packet, but for its data. -/
def rank
    (typ : UInt8) : Nat :=
  if typ = ch 'S' then 1
  else if typ = ch 'F' then 2
  else if typ = ch 'A' ∨ typ = ch 'D' then 3
  else if typ = ch 'Z' then 4
  else 5

theorem rank_le
    (typ : UInt8) :
    rank typ ≤ 5 := by
  unfold rank
  split_ifs <;> omega

/-- There are at most five packets more than there are bytes. -/
theorem length_sent
    {name : List UInt8}
    {item : Item}
    {rest : List Item}
    (comes :
      ∀ later other earlier, item :: rest = later ++ other :: earlier →
        Comes earlier other)
    (genuine : ∀ other ∈ item :: rest, Genuine name other) :
    (item :: rest).length ≤
      (content (item :: rest)).length + rank item.typ := by
  induction rest generalizing item with
  | nil =>
      have first := (comes [] item [] rfl).first
      rw [first]
      exact Nat.le_add_left 1 _
  | cons last rest inductionHypothesis =>
      have before := inductionHypothesis
        (fun later other earlier split =>
          comes (item :: later) other earlier (by rw [split]; rfl))
        (fun other member => genuine other (.tail _ member))
      have next := comes [] item (last :: rest) rfl
      have more : (content (last :: rest)).length + rank last.typ + 1 ≤
          (content (item :: last :: rest)).length + rank item.typ := by
        have grows : (content (last :: rest)).length ≤
            (content (item :: last :: rest)).length :=
          (content_front (List.suffix_cons item (last :: rest))).length_le
        have data : item.typ = ch 'D' →
            (content (last :: rest)).length + 1 ≤
              (content (item :: last :: rest)).length := by
          intro kind
          have decodes := List.length_pos_iff.mpr
            ((genuine item List.mem_cons_self).decodes kind)
          have split : content (item :: last :: rest) =
              content (last :: rest) ++ decodeMem agreedPar item.data := by
            rw [content, if_pos kind]
          rw [split, List.length_append]
          omega
        cases next with
        | name was kind | attributes was kind | ending was kind
        | finished was kind =>
            rw [was, kind, Nat.add_assoc]
            exact Nat.add_le_add grows (by decide)
        | firstData was kind =>
            have enough := data kind
            have before : rank last.typ ≤ rank (ch 'D') := by
              rcases was with was | was
              all_goals
                rw [was]
                decide
            rw [kind]
            omega
        | nextData was kind =>
            have enough := data kind
            rw [was, kind]
            omega
        | emptyFile was kind =>
            have before : rank last.typ + 1 ≤ rank (ch 'Z') := by
              rcases was with was | was
              all_goals
                rw [was]
                decide
            rw [kind]
            omega
      simp only [List.length_cons] at before ⊢
      omega

section Prompt

variable {os : Os σ}
variable {unread : σ → List UInt8}
variable {io : Io ω}
variable {serverRoot clientRoot name file : List UInt8}
variable {l : LossyLink.Link Item Item}
variable {n n' : Peers σ ω}

theorem Shares.length_sent
    (shares : Shares os unread serverRoot clientRoot name file l n) :
    l.sent.length ≤ file.length + 5 := by
  have comes := shares.comes
  have genuine := shares.genuine
  have front := shares.front.length_le
  have some := shares.some
  cases sent : l.sent with
  | nil =>
      exact absurd sent some
  | cons item rest =>
      rw [sent] at comes genuine front
      have few := Kermit.length_sent comes genuine
      have most := rank_le item.typ
      omega

/-! ## One frame on its way -/

/-- Which frame is on its way, after a number of turns. -/
inductive Prompt
    (os : Os σ)
    (unread : σ → List UInt8)
    (serverRoot clientRoot name file : List UInt8) :
    Nat → Peers σ ω → Prop where
  | request
      {n : Peers σ ω}
      (unanswered : Unanswered serverRoot clientRoot name n)
      (serverGoing : Going n.serverRc)
      (clientGoing : Going n.clientRc)
      (up : n.up = [frameOf (ch 'R') 0 name]) :
      Prompt os unread serverRoot clientRoot name file 0 n
  | packet
      {n : Peers σ ω}
      {l : LossyLink.Link Item Item}
      {item : Item}
      {turns : Nat}
      (shares : Shares os unread serverRoot clientRoot name file l n)
      (ahead : l.sent = item :: l.accepted)
      (down : l.down = [item])
      (up : n.up = [])
      (serverGoing : Going n.serverRc)
      (clientGoing : Going n.clientRc)
      (counted : turns + 1 = 2 * l.sent.length) :
      Prompt os unread serverRoot clientRoot name file turns n
  | answer
      {n : Peers σ ω}
      {l : LossyLink.Link Item Item}
      {item answer : Item}
      {rest : List Item}
      {turns : Nat}
      (shares : Shares os unread serverRoot clientRoot name file l n)
      (caught : l.accepted = l.sent)
      (head : l.sent = item :: rest)
      (down : l.down = [])
      (acks : l.up = [answer])
      (up : n.up = [answer.frame])
      (same : answer.seq = item.seq)
      (serverGoing : Going n.serverRc)
      (clientGoing : item.typ ≠ ch 'B' → Going n.clientRc)
      (counted : turns = 2 * l.sent.length) :
      Prompt os unread serverRoot clientRoot name file turns n
  | finished
      {n : Peers σ ω}
      {turns : Nat}
      (server : n.serverRc = xDone)
      (client : n.clientRc = xDone)
      (counted : turns ≤ 2 * file.length + 11) :
      Prompt os unread serverRoot clientRoot name file turns n

variable {turns : Nat}

theorem Prompt.few
    (prompt : Prompt os unread serverRoot clientRoot name file turns n) :
    turns ≤ 2 * file.length + 11 := by
  cases prompt with
  | request =>
      exact Nat.zero_le _
  | packet shares _ _ _ _ _ counted =>
      have few := shares.length_sent
      omega
  | answer shares _ _ _ _ _ _ _ _ counted =>
      have few := shares.length_sent
      omega
  | finished _ _ counted =>
      exact counted

/-- The packet on its way is acknowledged. -/
theorem Prompt.accepts
    (environment : Environment os unread io serverRoot name file)
    (shares : Shares os unread serverRoot clientRoot name file l n)
    {item : Item}
    (ahead : l.sent = item :: l.accepted)
    (down : l.down = [item])
    (up : n.up = [])
    (serverGoing : Going n.serverRc)
    (clientGoing : Going n.clientRc)
    (counted : turns + 1 = 2 * l.sent.length)
    {rx : Rx}
    (hears : Hears item.frame rx n.client) :
    Prompt os unread serverRoot clientRoot name file (turns + 1)
      (n.clientTurn io rx []) := by
  have acknowledged := shares.acknowledges environment clientGoing ahead hears
  obtain ⟨answer, replies, next⟩ :=
    shares.accepts environment.plain.echoed down ahead acknowledged
  have fine := acknowledged.fine
  have nothing : l.up = [] := by
    obtain ⟨early, split, -⟩ := shares.up
    rw [up] at split
    exact List.map_eq_nil_iff.mp
      (List.append_eq_nil_iff.mp split.symm).2
  have frames : (n.clientTurn io rx []).up = [answer.frame] := by
    obtain ⟨early, split, -⟩ := next.up
    obtain ⟨_, -, ⟨-, -, calls, log, sent⟩⟩ := acknowledged.replied
    have one : (n.clientTurn io rx []).up.length = 1 := by
      show (n.up ++ newTxds n.client.log _).length = 1
      rw [newTxds_of log, sent, up]
      rfl
    have split' : (n.clientTurn io rx []).up =
        List.replicate early (frameOf (ch 'R') 0 name) ++ [answer.frame] := by
      refine split.trans ?_
      rw [nothing]
      rfl
    rw [split', List.length_append, List.length_replicate,
      List.length_singleton] at one
    rw [split', show early = 0 by omega]
    rfl
  refine .answer next ahead.symm ahead rfl ?_ frames replies.seq serverGoing
    ?_ counted
  · show l.up ++ [answer] = _
    rw [nothing]
    rfl
  · intro other
    rw [if_neg other] at fine
    show Going (kermit io .run rx.ret [] (heardSys rx n.client)).1
    rw [fine]
    exact ⟨by decide, by decide⟩

/-- The acknowledgment on its way is followed by the next packet. -/
theorem Prompt.answered
    (environment : Environment os unread io serverRoot name file)
    (shares : Shares os unread serverRoot clientRoot name file l n)
    (caught : l.accepted = l.sent)
    {item answer : Item}
    {rest : List Item}
    (head : l.sent = item :: rest)
    (down : l.down = [])
    (acks : l.up = [answer])
    (same : answer.seq = item.seq)
    (serverGoing : Going n.serverRc)
    (clientGoing : item.typ ≠ ch 'B' → Going n.clientRc)
    (counted : turns = 2 * l.sent.length)
    {rx : Rx}
    (hears : Hears answer.frame rx n.server) :
    Prompt os unread serverRoot clientRoot name file (turns + 1)
      (n.serverTurn os rx []) := by
  have offering := shares.server serverGoing
  obtain ⟨other, behind, shape, number, -⟩ := offering.outstanding
  obtain ⟨rfl, rfl⟩ := List.cons.inj (head.symm.trans shape)
  have readily := shares.answers answer (acks ▸ List.mem_cons_self)
  obtain ⟨p, buf, heardAs⟩ := readily.parsed offering hears
  rw [same, number] at heardAs
  rcases offering.acked environment.server environment.offers
    environment.plain head heardAs (shares.known head acks same) with
    ⟨new, next⟩ | ⟨done, kind, -⟩
  · have shares' := shares.next head acks same number
      (show ([] : List (List UInt8)) = [].map Item.frame from rfl) offering next
    have notOver : item.typ ≠ ch 'B' := by
      have comes := next.comes
      rw [head] at comes
      exact comes.going
    have ahead : new :: item :: rest = new :: l.accepted := by
      rw [caught, head]
    refine .packet shares' ahead ?_ rfl ?_ (clientGoing notOver) ?_
    · show l.down ++ [new] = [new]
      rw [down]
      rfl
    · show Going (kermit (unixio os) .run rx.ret [] (heardSys rx n.server)).1
      rw [next.fine]
      exact ⟨by decide, by decide⟩
    · rw [counted, head]
      simp only [List.length_cons]
      omega
  · have few := shares.length_sent
    exact .finished done
      (shares.ended item rest (caught.trans head) kind) (by omega)

theorem Prompt.step
    (environment : Environment os unread io serverRoot name file)
    (prompt : Prompt os unread serverRoot clientRoot name file turns n)
    (step : PromptStep os io n n') :
    Prompt os unread serverRoot clientRoot name file (turns + 1) n' := by
  cases prompt with
  | request unanswered serverGoing clientGoing up =>
      cases step with
      | server _ arrives hears =>
          rw [up] at arrives
          obtain ⟨rfl, rfl⟩ := List.cons.inj arrives
          obtain ⟨fine, shares⟩ :=
            @Unanswered.answered _ _ _ _ _ _ _ _ _ _ environment unanswered 0
              _ hears
          refine .packet shares rfl rfl rfl ?_ clientGoing rfl
          have rc : (n.serverTurn os _ []).serverRc = xOk := fine
          rw [rc]
          exact ⟨by decide, by decide⟩
      | client _ arrives =>
          rw [unanswered.down] at arrives
          exact absurd arrives.symm (List.cons_ne_nil _ _)
  | packet shares ahead down up serverGoing clientGoing counted =>
      have frames := shares.down
      rw [down] at frames
      cases step with
      | server _ arrives =>
          rw [up] at arrives
          exact absurd arrives.symm (List.cons_ne_nil _ _)
      | client _ arrives hears =>
          rw [frames] at arrives
          obtain ⟨rfl, rfl⟩ := List.cons.inj arrives
          exact .accepts environment shares ahead down up serverGoing
            clientGoing counted hears
  | answer shares caught head down acks up same serverGoing clientGoing
      counted =>
      have frames := shares.down
      rw [down] at frames
      cases step with
      | server _ arrives hears =>
          rw [up] at arrives
          obtain ⟨rfl, rfl⟩ := List.cons.inj arrives
          exact .answered environment shares caught head down acks same
            serverGoing clientGoing counted hears
      | client _ arrives =>
          rw [frames] at arrives
          exact absurd arrives.symm (List.cons_ne_nil _ _)
  | finished server client counted =>
      cases step with
      | server going =>
          exact absurd server going.1
      | client going =>
          exact absurd client going.1

/-- While the transfer is not over, a turn is possible. -/
theorem Prompt.goesOn
    (environment : Environment os unread io serverRoot name file)
    (prompt : Prompt os unread serverRoot clientRoot name file turns n) :
    (n.serverRc = xDone ∧ n.clientRc = xDone) ∨
      ∃ n', PromptStep os io n n' := by
  cases prompt with
  | request unanswered serverGoing _ up =>
      obtain ⟨ipktbuf, doRxd, k⟩ := unanswered.server.k
      have par : n.server.k.par = freshPar := by
        rw [k]
        rfl
      have framing : Framing n.server.k.par := by
        rw [par]
        exact Usual.framing (.inl rfl)
      exact .inr ⟨_, .server serverGoing up
        (environment.plain.echoed.request.heard framing)⟩
  | @packet _ _ item _ shares ahead down _ _ clientGoing =>
      have frames := shares.down
      rw [down] at frames
      have receives := shares.client.receives
      have genuine := shares.genuine item (ahead ▸ List.mem_cons_self)
      exact .inr ⟨_, .client clientGoing frames
        (genuine.sendable.heard receives.plainly.par.framing)⟩
  | @answer _ _ _ answer _ _ shares _ _ _ acks up _ serverGoing =>
      have readily := shares.answers answer (acks ▸ List.mem_cons_self)
      exact .inr ⟨_, .server serverGoing up
        (readily.sendable.heard (shares.server serverGoing).usual.framing)⟩
  | finished server client =>
      exact .inl ⟨server, client⟩

theorem Prompt.run
    (environment : Environment os unread io serverRoot name file)
    (prompt : Prompt os unread serverRoot clientRoot name file turns n)
    {more : Nat}
    (run : PromptRun os io more n n') :
    Prompt os unread serverRoot clientRoot name file (turns + more) n' := by
  induction run generalizing turns with
  | refl =>
      exact prompt
  | step first _ inductionHypothesis =>
      have later := inductionHypothesis (prompt.step environment first)
      rw [Nat.add_assoc, Nat.add_comm 1] at later
      exact later

/-- The transfer can be brought to its end. -/
theorem Prompt.completes
    (environment : Environment os unread io serverRoot name file)
    {left : Nat}
    (prompt : Prompt os unread serverRoot clientRoot name file turns n)
    (enough : 2 * file.length + 11 < turns + left) :
    ∃ more n', PromptRun os io more n n' ∧
      n'.serverRc = xDone ∧ n'.clientRc = xDone := by
  induction left generalizing turns n with
  | zero =>
      have few := prompt.few
      omega
  | succ left inductionHypothesis =>
      rcases prompt.goesOn environment with finished | ⟨n', step⟩
      · exact ⟨0, n, .refl n, finished⟩
      · obtain ⟨more, n'', run, finished⟩ :=
          inductionHypothesis (prompt.step environment step) (by omega)
        exact ⟨more + 1, n'', .step step run, finished⟩

theorem Starts.prompt
    (starts : Starts serverRoot clientRoot name n) :
    Prompt os unread serverRoot clientRoot name file 0 n := by
  obtain ⟨unanswered, serverRc, clientRc, up⟩ := starts
  refine .request unanswered ?_ ?_ up
  · rw [serverRc]
    exact ⟨by decide, by decide⟩
  · rw [clientRc]
    exact ⟨by decide, by decide⟩

theorem PromptRun.inv
    (environment : Environment os unread io serverRoot name file)
    {turns : Nat}
    (run : PromptRun os io turns n n')
    (inv : PeersInv os unread serverRoot clientRoot name file n) :
    PeersInv os unread serverRoot clientRoot name file n' := by
  induction run with
  | refl =>
      exact inv
  | step first _ inductionHypothesis =>
      exact inductionHypothesis (first.step.inv environment inv)

end Prompt

/--
While nothing is lost and nobody is kept waiting, a GET of any file ends within
two turns for each byte and a few more, and it can always go on until both
sides report success; then the client has the file.
-/
theorem prompt_get_completes
    {os : Os σ}
    {unread : σ → List UInt8}
    {io : Io ω}
    {serverRoot name file : List UInt8}
    (environment : Environment os unread io serverRoot name file)
    (asked : AskedAs name)
    (clientRoot : List UInt8)
    (w : Unix σ)
    (v : ω)
    {turns : Nat}
    {n : Peers σ ω}
    (run :
      PromptRun os io turns
        (askedPeers os io serverRoot clientRoot name w v) n) :
    turns ≤ 2 * file.length + 11 ∧
      ∃ more n', PromptRun os io more n n' ∧
        n'.serverRc = xDone ∧ n'.clientRc = xDone ∧
        outputs n'.client.log = (file, 1) := by
  have starts := askedPeers_starts environment asked clientRoot w v
  have prompt := starts.prompt.run environment run
  rw [Nat.zero_add] at prompt
  obtain ⟨more, n', later, server, client⟩ :=
    @Prompt.completes _ _ _ _ _ _ _ _ _ _ _ environment
      (2 * file.length + 12) prompt (by omega)
  have inv := later.inv environment (run.inv environment
    (askedPeers_inv environment asked clientRoot w v))
  exact ⟨prompt.few, more, n', later, server, client,
    inv.output.2 (.inr (.inl server))⟩

theorem prompt_get_completes_page :
    ∃ turns n, PromptRun pageOs savingIo turns askedPage n ∧
      n.serverRc = xDone ∧ n.clientRc = xDone ∧
      outputs n.client.log = (lit "AB", 1) :=
  (prompt_get_completes environment_page askedAs_page [] _ _
    (.refl askedPage)).2

end Slate106.Kermit
