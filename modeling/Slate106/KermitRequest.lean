import Slate106.KermitNak

namespace Slate106.Kermit

open CBytes

/-!
# A request during a transaction

An R packet is answered in every state.  The client's retransmission of its
request does no harm while S is outstanding for the same file; in any other
state it starts a transaction in the middle of the running one.
-/

variable {ω : Type}

/-- The frame in `ipktbuf` is a valid R packet. -/
structure ValidRequest
    (k : KData)
    (len : Int)
    (p : Rcvd)
    (buf : List UInt8) : Prop where
  long : 4 ≤ len
  good : parse k len = .good p buf
  rtyp : p.rtyp = ch 'R'

/-- A call that opens, reads, writes or closes a file. -/
def onFile : Call → Bool
  | .openf .. | .readf .. | .writef .. | .closef .. => true
  | _ => false

/-- The running transaction goes on as if nothing had arrived. -/
structure GoesOn
    (s : Sys ω)
    (result : Int × Sys ω) : Prop where
  rc : result.1 = xOk
  state : result.2.k.state = s.k.state
  what : result.2.k.what = s.k.what
  filelist : result.2.k.filelist = s.k.filelist
  names :
    result.2.k.filelist.map (deref result.2) = s.k.filelist.map (deref s)
  filename : result.2.k.filename = s.k.filename
  zin : result.2.k.zin = s.k.zin
  file :
    ∃ more, result.2.log = more ++ s.log ∧ ∀ call ∈ more, !onFile call
  sSeq : result.2.k.sSeq = s.k.sSeq
  rSeq : result.2.k.rSeq = s.k.rSeq
  opktinfo : result.2.k.win.opktinfo = s.k.win.opktinfo
  sPw : result.2.k.win.sPw = s.k.win.sPw

/-- The session when the name of a request is looked for. -/
def requested
    (p : Rcvd)
    (buf : List UInt8)
    (s : Sys ω) : Sys ω :=
  noteRequest .get (cstr (buf.drop p.pdf))
    (decodeName (buf.drop p.pdf) { s with k.ipktbuf := buf }).2

/-- What is requested is what S was sent for, and S is still outstanding. -/
structure Repeated
    (io : Io ω)
    (p : Rcvd)
    (buf : List UInt8)
    (s : Sys ω) : Prop where
  state : s.k.state = .sInit
  what : s.k.what = .send
  filelist : s.k.filelist = [.xdatabuf]
  name : cstr s.k.enc.xdatabuf = cstr (buf.drop p.pdf)
  outstanding : 1 ≤ (s.k.win.opktinfo 0).len
  accessible :
    (callAccessf io (cstr (buf.drop p.pdf)) (requested p buf s)).1 = xOk

section Requests

variable {io : Io ω}
variable {s t : Sys ω}

/-- The route of an R packet, whatever the state. -/
theorem kermit_request
    (wf : Wf s.k)
    (set : s.k.state ≠ .rNone)
    (received : s.k.doRxd = true)
    {len : Int}
    {p : Rcvd}
    {buf : List UInt8}
    (request : ValidRequest s.k len p buf)
    (msg : List UInt8) :
    kermit io .run len msg s = rPacket io p { s with k.ipktbuf := buf } := by
  have forced : forceBcta3 s.k = s.k := by
    simp [forceBcta3, wf.noForce]
  have notShort : ¬ len < 4 := by
    have long := request.long
    omega
  have notAck : p.rtyp ≠ ch 'Y' := by
    rw [request.rtyp]
    decide
  have notGeneric : p.rtyp ≠ ch 'G' := by
    rw [request.rtyp]
    decide
  unfold kermit
  rw [wf.testRslots io]
  dsimp only
  unfold kermitRun
  rw [if_neg set, if_pos received]
  unfold rxStage
  rw [if_neg notShort, request.good]
  simp only [forced]
  unfold packetStage
  rw [if_neg (fun both => notAck both.1),
    if_neg (fun both => notGeneric both.1), if_neg notGeneric,
    if_pos request.rtyp]

/-- With the slot taken, `rpar()` for an S packet sends nothing. -/
theorem rpar_busy
    (busy : Busy t.k) :
    rpar io (ch 'S') t =
      (xOk,
        { t with
          k.par := { requestEbq t.k.par with bct := t.k.par.bct } }) := by
  have taken (par : Params) (wslots : par.wslots = t.k.par.wslots) :
      getSslot { t.k with par := par } = (-1, { t.k with par := par }) :=
    getSslot_full (wslots.trans busy.wf.window) busy.full
  have sameSlots :
      { requestEbq t.k.par with bct := rparBct t.k.cfg }.wslots =
        t.k.par.wslots := by
    unfold requestEbq
    split <;> rfl
  have sameBct : (requestEbq t.k.par).bct = t.k.par.bct := by
    unfold requestEbq
    split <;> rfl
  unfold rpar rparSend
  dsimp only [setBct]
  rw [if_neg (by decide), if_pos rfl, taken _ sameSlots,
    if_pos (show (-1 : Int) < 0 by decide),
    if_neg (by simp [busy.wf.noForce]), sameBct]

/-- A packet is kept in the slot unless it could not be built. -/
theorem spkt_stays
    (wf : Wf t.k)
    {typ : UInt8}
    (kind : isUnslotted typ = false)
    {seq len : Int}
    {text : Option (List UInt8)}
    (built : (spkt io typ seq len text t).1 ≠ xError) :
    1 ≤ ((spkt io typ seq len text t).2.k.win.opktinfo 0).len := by
  by_cases inRange : seq < 0 ∨ seq > 63
  · have out : (decide (seq < 0) || decide (seq > 63)) = true := by
      simpa using inRange
    unfold spkt spktWith at built
    rw [if_pos out] at built
    exact absurd rfl built
  by_cases full : 1 ≤ (t.k.win.opktinfo 0).len
  · exact absurd (busy_spkt ⟨wf, full⟩ kind seq len text) built
  have slot : (getSslot t.k).1 = 0 := by
    rw [getSslot_free wf.window (by omega)]
  have shape :
      spktWith io (spktConfused io) typ seq len text t = _ :=
    spktWith_slotted io (spktConfused io) kind (by omega) (by omega)
      (by omega)
  unfold spkt at built ⊢
  rw [shape] at built ⊢
  dsimp only at built ⊢
  split at built
  · exact absurd rfl built
  · split at built
    · exact absurd rfl built
    · rw [if_neg ‹_›, if_neg ‹_›]
      simp only [callTxd, loaded, filled, slot, put_same, sentFrame, pktFrame,
        List.length_cons]
      omega

/-- A packet that was sent is kept in the slot. -/
theorem spkt_kept
    (wf : Wf t.k)
    {typ : UInt8}
    (kind : isUnslotted typ = false)
    {seq len : Int}
    {text : Option (List UInt8)}
    (sent : (spkt io typ seq len text t).1 = xOk) :
    1 ≤ ((spkt io typ seq len text t).2.k.win.opktinfo 0).len := by
  apply spkt_stays wf kind
  rw [sent]
  decide

private theorem rparSend_kept
    (wf : Wf t.k)
    (free : (t.k.win.opktinfo 0).len < 1)
    (d : List UInt8)
    (sent : (rparSend io (ch 'S') d t).1 = xOk) :
    1 ≤ ((rparSend io (ch 'S') d t).2.k.win.opktinfo 0).len := by
  have taken : Works io t (onK (fun k => (takeSslot k).2) t) :=
    works_takeSslot t
  have slot : ¬ ((getSslot t.k).1 < 0) := by
    rw [getSslot_free wf.window free]
    exact show ¬ ((0 : Int) < 0) by decide
  unfold rparSend at sent ⊢
  dsimp only at sent ⊢
  rw [if_neg (by decide), if_pos rfl, if_neg slot] at sent ⊢
  exact spkt_kept (taken.wf wf) (by decide) sent

theorem setBct_win
    (bct : Nat)
    (s : Sys ω) :
    (setBct bct s).k.win = s.k.win :=
  rfl

/-- An S packet that was sent is kept in the slot. -/
theorem rpar_kept
    (wf : Wf t.k)
    (free : (t.k.win.opktinfo 0).len < 1)
    (sent : (rpar io (ch 'S') t).1 = xOk) :
    1 ≤ ((rpar io (ch 'S') t).2.k.win.opktinfo 0).len := by
  have asked :
      Wf (setBct (rparBct t.k.cfg)
        { t with k.par := requestEbq t.k.par }).k := by
    have steps :
        Chores io t
          (setBct (rparBct t.k.cfg) { t with k.par := requestEbq t.k.par }) :=
      (chores_requestEbq t).and (chores_setBct _ _)
    exact steps.works.wf wf
  unfold rpar at sent ⊢
  dsimp only at sent ⊢
  rw [setBct_win]
  exact rparSend_kept asked free _ sent

/-- The session after a request that is answered by an S packet. -/
def restarted
    (s : Sys ω) : Sys ω :=
  { setWhat .send (setState .sInit s) with k.recvget := 1 }

/-- The session when `rpar()` is called for a request. -/
def accessed
    (io : Io ω)
    (p : Rcvd)
    (buf : List UInt8)
    (s : Sys ω) : Sys ω :=
  { (callAccessf io (cstr (buf.drop p.pdf)) (requested p buf s)).2 with
    k.filelist := [.xdatabuf] }

/-- A request either fails, or it restarts the transaction. -/
theorem rPacket_cases
    (io : Io ω)
    (p : Rcvd)
    (buf : List UInt8)
    (s : Sys ω) :
    ((rPacket io p { s with k.ipktbuf := buf }).1 = xError ∧
        ((callAccessf io (cstr (buf.drop p.pdf))
            (requested p buf s)).1 = xOk →
          (rpar io (ch 'S') (accessed io p buf s)).1 ≠ xOk)) ∨
      ((callAccessf io (cstr (buf.drop p.pdf)) (requested p buf s)).1 = xOk ∧
        (rpar io (ch 'S') (accessed io p buf s)).1 = xOk ∧
        rPacket io p { s with k.ipktbuf := buf } =
          (xOk, restarted (rpar io (ch 'S') (accessed io p buf s)).2)) := by
  generalize fresh : { s with k.ipktbuf := buf } = t
  have mem : pdfMem p (decodeName (pdfMem p t) t).2 = buf.drop p.pdf := by
    rw [← fresh]
    rfl
  have noted :
      noteRequest .get (cstr (buf.drop p.pdf)) (decodeName (pdfMem p t) t).2 =
        requested p buf s := by
    rw [← fresh]
    rfl
  have listed :
      accessed io p buf s =
        { (callAccessf io (cstr (buf.drop p.pdf)) (requested p buf s)).2 with
          k.filelist := [.xdatabuf] } := rfl
  unfold rPacket
  dsimp only
  rw [mem, noted, listed]
  generalize
    callAccessf io (cstr (buf.drop p.pdf)) (requested p buf s) = access
  unfold answerRequest
  dsimp only
  generalize
    rpar io (ch 'S') { access.2 with k.filelist := [.xdatabuf] } = sent
  split
  · rename_i denied
    exact Or.inl ⟨rfl, fun accessible => absurd accessible denied⟩
  · rename_i accessible
    by_cases fine : sent.1 = xOk
    · rw [if_neg (not_not.mpr fine)]
      exact Or.inr ⟨not_not.mp accessible, fine, rfl⟩
    · rw [if_pos fine]
      exact Or.inl ⟨rfl, fun _ => fine⟩

theorem accessed_wf
    (wf : Wf s.k)
    (p : Rcvd)
    (buf : List UInt8) :
    Wf (accessed io p buf s).k :=
  ⟨wf.noForce, wf.oneSlot, wf.window, wf.noWindowing, wf.received, wf.kept,
    wf.mapped⟩

/-- The name that S is sent for after a request. -/
theorem restarted_name
    (p : Rcvd)
    (buf : List UInt8)
    (par : Params) :
    deref (restarted { accessed io p buf s with k.par := par }) .xdatabuf =
      cstr (buf.drop p.pdf) :=
  cstr_append_zero (zero_notMem_cstr _) []

end Requests

/--
A valid R packet leaves a running transaction alone exactly when it repeats
the request that S, still outstanding, was sent for.
-/
theorem request_goes_on_iff
    (io : Io ω)
    {s : Sys ω}
    (reachable : Reachable io s)
    (received : s.k.doRxd = true)
    {len : Int}
    {p : Rcvd}
    {buf : List UInt8}
    (request : ValidRequest s.k len p buf)
    (msg : List UInt8) :
    GoesOn s (kermit io .run len msg s) ↔ Repeated io p buf s := by
  have wf := reachable_wf reachable
  have accessedWf : Wf (accessed io p buf s).k := accessed_wf wf p buf
  rw [kermit_request wf (reachable_set reachable) received request msg]
  rcases rPacket_cases io p buf s with
    ⟨failed, refused⟩ | ⟨accessible, sent, shape⟩
  · constructor
    · intro goesOn
      exact absurd (failed.symm.trans goesOn.rc) (by decide)
    · intro repeated
      have busy : Busy (accessed io p buf s).k :=
        ⟨accessedWf, repeated.outstanding⟩
      have sent := congrArg Prod.fst (rpar_busy busy : rpar io (ch 'S') _ = _)
      exact absurd sent (refused repeated.accessible)
  · rw [shape]
    constructor
    · intro goesOn
      by_cases full : 1 ≤ (s.k.win.opktinfo 0).len
      · have busy : Busy (accessed io p buf s).k := ⟨accessedWf, full⟩
        rw [rpar_busy busy] at goesOn
        have filelist : [StrRef.xdatabuf] = s.k.filelist := goesOn.filelist
        have names := goesOn.names
        rw [← filelist] at names
        have name := List.head_eq_of_cons_eq names
        rw [restarted_name] at name
        exact ⟨goesOn.state.symm, goesOn.what.symm, filelist.symm,
          name.symm, full, accessible⟩
      · have kept := rpar_kept accessedWf (Int.not_le.mp full) sent
        have same := congrFun goesOn.opktinfo 0
        have held : 1 ≤ (s.k.win.opktinfo 0).len := by
          rw [← same]
          exact kept
        exact absurd held full
    · intro repeated
      have busy : Busy (accessed io p buf s).k :=
        ⟨accessedWf, repeated.outstanding⟩
      rw [rpar_busy busy]
      refine ⟨rfl, repeated.state.symm, repeated.what.symm,
        repeated.filelist.symm, ?_, rfl, rfl, ?_, rfl, rfl, rfl, rfl⟩
      · rw [repeated.filelist]
        have name :
            deref (restarted (accessed io p buf s)) .xdatabuf =
              cstr (buf.drop p.pdf) :=
          restarted_name p buf (accessed io p buf s).k.par
        exact congrArg (fun name => [name]) (name.trans repeated.name.symm)
      · refine ⟨[_], rfl, ?_⟩
        simp [onFile]

/-- The client of a request has sent the request again. -/
def repeatedSys : Sys (Unix (List UInt8)) :=
  receive (packetOf (ch 'R') 0 (lit "f"))
    (handled fileOs (packetOf (ch 'R') 0 (lit "f")) (idleServer fileOs []))

/-- The request as the parser reads it. -/
def requestRcvd : Rcvd where
  rtyp := ch 'R'
  rseq := 0
  pdf := 3
  datalen := 1
  ackText := none

theorem request_goes_on_iff_repeated :
    GoesOn repeatedSys (kermit (unixio fileOs) .run 5 [] repeatedSys) ↔
      Repeated (unixio fileOs) requestRcvd
        (poke repeatedSys.k.ipktbuf 4 [0]) repeatedSys := by
  have request :
      ValidRequest repeatedSys.k 5 requestRcvd
        (poke repeatedSys.k.ipktbuf 4 [0]) :=
    ⟨by decide, by decide, rfl⟩
  exact request_goes_on_iff (unixio fileOs)
    (.receive _ (handled_reachable _ (idleServer_reachable fileOs [])))
    (by decide) request []

/-- The client has received S and F, and its old request arrives again. -/
def lateSys : Sys (Unix (List UInt8)) :=
  receive (packetOf (ch 'R') 0 (lit "f"))
    (handled fileOs (packetOf (ch 'Y') 0 [])
      (handled fileOs (packetOf (ch 'R') 0 (lit "f")) (idleServer fileOs [])))

/--
The client's old request arrives while F is outstanding: the server goes back
to `S_INIT`, so that the ACK to F will be taken for the ACK to S.
-/
theorem late_request_restarts :
    Reachable (unixio fileOs) lateSys ∧
      lateSys.k.doRxd = true ∧
      lateSys.k.state = .sFile ∧
      (∃ p buf, ValidRequest lateSys.k 5 p buf) ∧
      (kermit (unixio fileOs) .run 5 [] lateSys).1 = xOk ∧
      (kermit (unixio fileOs) .run 5 [] lateSys).2.k.state = .sInit ∧
      ¬ GoesOn lateSys (kermit (unixio fileOs) .run 5 [] lateSys) := by
  have reachable : Reachable (unixio fileOs) lateSys :=
    .receive _
      (handled_reachable _
        (handled_reachable _ (idleServer_reachable fileOs [])))
  have request :
      ValidRequest lateSys.k 5 requestRcvd (poke lateSys.k.ipktbuf 4 [0]) :=
    ⟨by decide, by decide, rfl⟩
  have before : lateSys.k.state = .sFile := by
    decide
  have after :
      (kermit (unixio fileOs) .run 5 [] lateSys).2.k.state = .sInit := by
    decide
  refine ⟨reachable, by decide, before, ⟨_, _, request⟩, by decide, after, ?_⟩
  intro goesOn
  have same := goesOn.state
  rw [before, after] at same
  cases same

end Slate106.Kermit
