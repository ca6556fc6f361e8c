import Slate106.KermitGetName
import Slate106.KermitOffer

namespace Slate106.Kermit

open CBytes

/-!
# How a GET begins

A fresh client sends R and repeats it until S comes.  A fresh server answers
the first R with S, and takes R again as the same request while S is
outstanding.
-/

variable {ω σ : Type}

/-! ## The client -/

/-- A client that has asked for a file and waits for S. -/
structure Asking
    (rootPath name : List UInt8)
    (s : Sys ω) : Prop where
  receives : Receives rootPath s.k
  what : s.k.what = .get
  state : s.k.state = .rWait
  blank : Blank s
  request : slotPacket (s.k.win.opktinfo 0) = frameOf (ch 'R') 0 name

theorem takeSslot_ipktinfo
    (k : KData) :
    (takeSslot k).2.win.ipktinfo = k.win.ipktinfo := by
  show (getSslot k).2.win.ipktinfo = k.win.ipktinfo
  unfold getSslot
  split <;> rfl

theorem loaded_ipktinfo
    (typ : UInt8)
    (seq : Int)
    (data : List UInt8)
    (k : KData) :
    (loaded typ seq data k).win.ipktinfo = k.win.ipktinfo := by
  have forced : ∀ k : KData, (forceBcta3 k).win = k.win := by
    intro k
    unfold forceBcta3
    split <;> rfl
  show (forceBcta3 (takeSslot k).2).win.ipktinfo = _
  rw [forced, takeSslot_ipktinfo]

/-- A packet was sent and is outstanding; nothing else has changed. -/
structure Outs
    (frame : List UInt8)
    (s : Sys ω)
    (result : Int × Sys ω) : Prop where
  fine : result.1 = xOk
  k : ∃ win, result.2.k = { s.k with win := win }
  awaiting : Awaiting result.2.k
  ipktinfo : result.2.k.win.ipktinfo = s.k.win.ipktinfo
  held : slotPacket (result.2.k.win.opktinfo 0) = frame
  log : result.2.log = .txd frame xOk :: s.log

theorem spkt_outs
    {io : Io ω}
    (linked : Linked io)
    {s : Sys ω}
    (ready : Ready s.k)
    (framing : Framing s.k.par)
    {typ : UInt8}
    (kind : isUnslotted typ = false)
    {len : Int}
    {text : Option (List UInt8)}
    {data : List UInt8}
    (field : spktData len text = data)
    (short : data.length ≤ 991) :
    Outs (frameOf typ s.k.sSeq data) s (spkt io typ s.k.sSeq len text s) := by
  have noForce := ready.wf.noForce
  have check : inForce s.k = 1 := by
    simp [inForce, noForce, framing.bct]
  have forced : forceBcta3 s.k = s.k := by
    simp [forceBcta3, noForce]
  have frame : sentFrame typ s.k.sSeq data s.k =
      frameOf typ s.k.sSeq data := by
    rw [sentFrame, forced, framing.pktFrame]
  have header := length_pktHeader 1 typ s.k.sSeq data.length
  have length := length_sentFrame (.inl check) typ s.k.sSeq data
  rw [check, frame] at length
  have fits : (frameOf typ s.k.sSeq data).length < pBuflen := by
    rw [length]
    exact Nat.lt_of_le_of_lt (show _ ≤ 1000 by omega) (by decide)
  obtain ⟨win, route, awaiting, held, -⟩ := @spkt_ready _ io typ len text s
    kind ready (by rw [field, framing.pktFrame]; exact fits)
  obtain ⟨slot, -⟩ := ready.takeSslot
  have other := @spkt_slotted _ io typ s.k.sSeq len text s kind ready.lower
    ready.upper (Int.le_of_eq slot.symm) (by rw [field, frame]; exact fits)
  rw [field, framing.pktFrame] at route held
  rw [field, frame, route] at other
  have both : ({ s.k with win := win } : KData) =
      loaded typ s.k.sSeq data s.k :=
    congrArg (fun result : Int × Sys ω => result.2.k) other
  have ipktinfo : win.ipktinfo = s.k.win.ipktinfo :=
    (congrArg (fun k : KData => k.win.ipktinfo) both).trans
      (loaded_ipktinfo typ s.k.sSeq data s.k)
  have fine := linked s.w (frameOf typ s.k.sSeq data)
  rw [route]
  exact
    { fine := fine
      k := ⟨win, rfl⟩
      awaiting := awaiting
      ipktinfo := ipktinfo
      held := held
      log := by
        unfold callTxd
        dsimp only
        rw [fine] }

section Client

variable {io : Io ω}
variable {rootPath name : List UInt8}

/-- The client has sent R and waits. -/
theorem requester_asks
    (linked : Linked io)
    (rootPath : List UInt8)
    (w : ω)
    (nonempty : name ≠ [])
    (noNul : (0 : UInt8) ∉ name)
    (fits :
      ((requestField name).length : Int) ≤ getpktMaxlen (freshData []).par) :
    Asking rootPath (requestField name) (requester io rootPath name w).sys ∧
      (requester io rootPath name w).sys.log =
        [.txd (frameOf (ch 'R') 0 (requestField name)) xOk] := by
  have ready := requesting_ready rootPath name w
  have plain := requestField_plain noNul
  rw [requester_sys]
  unfold kermit
  rw [ready.wf.testRslots io]
  dsimp only
  unfold kermitGet encodeRequest
  rw [requestNames_one]
  obtain ⟨spells, tail, memory⟩ := @encstr_quotes _ io
    { requesting rootPath name w with
      k.obuf := poke (requesting rootPath name w).k.obuf 0 (name ++ [0])
      k.enc.xdata := .xdatabuf }
    name rfl rfl rfl (Nat.le_refl _)
    (by
      show cstr (poke _ 0 (name ++ [0])) = name
      rw [poke_zero, List.append_assoc]
      exact cstr_append_zero noNul _)
    nonempty fits
  change xdataMem _ = requestField name ++ 0 :: tail at memory
  generalize (encstr io .obuf
    { requesting rootPath name w with
      k.obuf := poke (requesting rootPath name w).k.obuf 0 (name ++ [0])
      k.enc.xdata := .xdatabuf }).2 = t at *
  obtain ⟨readyNow, number, log, win, cfg, par, recvdir⟩ : Ready t.k ∧
      t.k.sSeq = 0 ∧ t.log = [] ∧
      t.k.win.ipktinfo = (freshData rootPath).win.ipktinfo ∧
      t.k.cfg = freshCfg rootPath ∧ t.k.par = freshPar ∧
      t.k.recvdir = 0 := by
    obtain ⟨_, _, _, rfl, _⟩ := spells
    exact ⟨ready.same rfl rfl rfl rfl, rfl, rfl, rfl, rfl, rfl, rfl⟩
  obtain ⟨slot, -⟩ := readyNow.takeSslot
  have busy : ¬ (getSslot t.k).1 < 0 := by
    rw [show (getSslot t.k).1 = 0 from slot]
    decide
  rw [if_neg busy]
  obtain ⟨readyThen, -⟩ := readyNow.takeSlot
  obtain ⟨shape, win', taken⟩ := readyNow.takeSlot
  obtain ⟨u, known, asked⟩ : ∃ u : Sys ω,
      u = onK (fun k => resetBct (takeSslot k).2) t ∧
        u = { t with k.win := win' } := by
    refine ⟨_, rfl, ?_⟩
    show onK resetBct (onK (fun k => (takeSslot k).2) t) = _
    rw [taken]
    unfold onK resetBct
    dsimp only
    rw [cfg, par]
    rfl
  have ipktinfo : win'.ipktinfo = (freshData rootPath).win.ipktinfo := by
    have kept := takeSslot_ipktinfo t.k
    rw [show (takeSslot t.k).2 = _ from congrArg Sys.k taken] at kept
    exact kept.trans win
  rw [taken] at shape
  rw [← known]
  have readyU : Ready u.k := by
    rw [asked]
    exact shape
  have field : spktData (-1) (some (xdataMem u.k)) = requestField name := by
    have same : xdataMem u.k = xdataMem t.k := asked ▸ rfl
    rw [same, memory]
    exact cstr_append_zero (fun zero => (plain 0 zero).1 rfl) tail
  have framing : Framing u.k.par := by
    rw [asked]
    show Framing t.k.par
    rw [par]
    exact Usual.framing (.inl rfl)
  have most : getpktMaxlen (freshData []).par = 990 := rfl
  have outs := spkt_outs linked readyU framing
    (show isUnslotted (ch 'R') = false by decide) field (by omega)
  rw [show u.k.sSeq = 0 from asked ▸ number] at outs
  dsimp only
  rw [show u.k.sSeq = 0 from asked ▸ number]
  obtain ⟨fine, ⟨win'', k⟩, awaiting, kept, held, logged⟩ := outs
  rw [if_neg (not_not.mpr fine)]
  generalize (spkt io (ch 'R') 0 (-1) (some (xdataMem u.k)) u).2 = v at *
  have known : v.k = { t.k with win := win'' } := by
    rw [k, asked]
  have inputs : v.k.win.ipktinfo = (freshData rootPath).win.ipktinfo := by
    rw [kept, asked]
    exact ipktinfo
  have one : v.log = [.txd (frameOf (ch 'R') 0 (requestField name)) xOk] := by
    rw [logged, asked]
    exact congrArg _ log
  have wf := awaiting.wf
  refine ⟨⟨⟨⟨wf.noForce, wf.oneSlot, wf.window, wf.noWindowing, wf.received,
    wf.kept, wf.mapped⟩, ⟨?_, ?_⟩, ?_⟩, rfl, rfl, ⟨⟨?_, ?_⟩, ?_⟩, held⟩, one⟩
  · show v.k.cfg = _
    rw [known]
    exact cfg
  · show Usual v.k.par
    rw [known]
    exact .inl par
  · show v.k.recvdir = 0
    rw [known]
    exact recvdir
  · show (v.k.win.ipktinfo 0).len < 1
    rw [inputs]
    exact show (0 : Int) < 1 by decide
  · show (v.k.win.ipktinfo 0).seq = -1
    rw [inputs]
    rfl
  · show outputs v.log = _
    rw [one]
    rfl

/-- The packet in the slot may have been sent once more. -/
structure Repeats
    (s : Sys ω)
    (result : Int × Sys ω) : Prop where
  going : result.1 ≠ xDone
  k :
    ∃ opktinfo opktlen nresend,
      result.2.k =
        { s.k with
          win := { s.k.win with opktinfo := opktinfo, opktlen := opktlen }
          nresend := nresend } ∧
      slotPacket (opktinfo 0) = slotPacket (s.k.win.opktinfo 0)
  sent :
    result.2.log = s.log ∨
      ∃ rc,
        result.2.log = .txd (slotPacket (s.k.win.opktinfo 0)) rc :: s.log

theorem resend_repeats
    {s : Sys ω}
    (linked : Linked io)
    (wf : Wf s.k)
    (seq : Int) :
    Repeats s (resend io seq s) := by
  rcases resend_one wf io seq with nothing | slot
  · rw [nothing]
    exact ⟨show xOk ≠ xDone by decide, ⟨_, _, _, rfl, rfl⟩, .inl rfl⟩
  rw [slot]
  unfold resendSlot
  dsimp only
  split
  · exact ⟨show xError ≠ xDone by decide, ⟨_, _, _, rfl, rfl⟩, .inl rfl⟩
  rename_i inBounds
  simp only [Bool.or_eq_true, decide_eq_true_eq, not_or] at inBounds
  split
  · exact ⟨show xOk ≠ xDone by decide, ⟨_, _, _, rfl, rfl⟩, .inl rfl⟩
  have same : ∀ rtr, slotPacket (put s.k.win.opktinfo 0
      { s.k.win.opktinfo 0 with rtr := rtr } 0) =
        slotPacket (s.k.win.opktinfo 0) := by
    intro rtr
    rw [put_same]
    rfl
  split
  · exact ⟨show xError ≠ xDone by decide, ⟨_, _, _, rfl, same _⟩, .inl rfl⟩
  · have stored := wf.kept (by omega)
    have whole :
        (s.k.win.opktinfo 0).buf.takeD (s.k.win.opktinfo 0).len.toNat 0 =
          slotPacket (s.k.win.opktinfo 0) :=
      List.takeD_eq_take 0 (by omega)
    unfold callTxd
    dsimp only
    rw [linked, whole]
    exact ⟨show xOk ≠ xDone by decide, ⟨_, _, _, rfl, same _⟩, .inr ⟨_, rfl⟩⟩

/-- The client still asks; R may have been sent once more. -/
structure AsksAgain
    (rootPath name : List UInt8)
    (s : Sys ω)
    (result : Int × Sys ω) : Prop where
  going : result.1 ≠ xDone
  asking : Asking rootPath name result.2
  sent :
    result.2.log = s.log ∨
      ∃ rc, result.2.log = .txd (frameOf (ch 'R') 0 name) rc :: s.log

variable {s : Sys ω}
variable {rx : Rx}

/-- The client asks on. -/
theorem Asking.repeats
    (asking : Asking rootPath name s)
    {buf : List UInt8}
    {result : Int × Sys ω}
    (wf : Wf result.2.k)
    (repeats : Repeats (parsedSys rx buf s) result) :
    AsksAgain rootPath name s result := by
  obtain ⟨⟨-, plainly, recvdir⟩, what, state, blank, request⟩ := asking
  obtain ⟨going, ⟨opktinfo, opktlen, nresend, k, same⟩, sent⟩ := repeats
  have sent' : result.2.log = s.log ∨
      ∃ rc, result.2.log = .txd (frameOf (ch 'R') 0 name) rc :: s.log := by
    rcases sent with log | ⟨rc, log⟩
    · exact .inl log
    · exact .inr ⟨rc, by rw [log, ← request]; rfl⟩
  refine ⟨going, ⟨⟨wf, ⟨?_, ?_⟩, ?_⟩, ?_, ?_, blank.same ?_ ?_, ?_⟩, sent'⟩
  · rw [k]
    exact plainly.cfg
  · rw [k]
    exact plainly.par
  · rw [k]
    exact recvdir
  · rw [k]
    exact what
  · rw [k]
    exact state
  · rw [k]
    rfl
  · rcases sent with log | ⟨rc, log⟩
    all_goals
      rw [log]
      rfl
  · rw [k]
    exact same.trans request

/-- Without a packet the client asks on. -/
theorem Asking.noise
    (linked : Linked io)
    (asking : Asking rootPath name s)
    (noise : Noise rx s)
    (msg : List UInt8) :
    AsksAgain rootPath name s
      (kermit io .run rx.ret msg (heardSys rx s)) := by
  have receives := asking.receives
  have wfHeard : Wf (heardSys rx s).k :=
    (receives.heard rx (heardSys rx s).k.ipktbuf).wf
  have wf := @Wf.kermit _ io _ wfHeard .run rx.ret msg
  have received : (heardSys rx s).k.doRxd = true := by
    show (ok2rxd s.k).doRxd = true
    simp [ok2rxd, asking.state]
  have what : (heardSys rx s).k.what ≠ .recv := by
    show s.k.what ≠ .recv
    rw [asking.what]
    decide
  have waits : (heardSys rx s).k.state ≠ .rNone := by
    show s.k.state ≠ .rNone
    rw [asking.state]
    decide
  have forced : forceBcta3 (heardSys rx s).k = (heardSys rx s).k := by
    unfold forceBcta3
    rw [if_neg (not_not.mpr wfHeard.noForce)]
  have again : ∀ buf seq, Repeats (parsedSys rx buf s)
      (resend io seq (parsedSys rx buf s)) :=
    fun buf seq => resend_repeats linked (receives.heard rx buf).wf seq
  have asks : ∀ buf, resendUnlessRecv io
      { heardSys rx s with k := { (heardSys rx s).k with ipktbuf := buf } } =
        resend io (-1) (parsedSys rx buf s) := by
    intro buf
    unfold resendUnlessRecv
    exact if_neg what
  have silent : ∀ buf, Repeats (parsedSys rx buf s)
      (xOk, parsedSys rx buf s) :=
    fun _ => ⟨show xOk ≠ xDone by decide, ⟨_, _, _, rfl, rfl⟩, .inl rfl⟩
  obtain ⟨buf, repeats⟩ : ∃ buf, Repeats (parsedSys rx buf s)
      (kermit io .run rx.ret msg (heardSys rx s)) := by
    clear wf
    unfold kermit
    rw [wfHeard.testRslots io]
    dsimp only
    unfold kermitRun
    rw [if_neg waits, if_pos received]
    unfold rxStage
    by_cases few : rx.ret < 4
    · rw [if_pos few, if_neg what]
      exact ⟨_, again (heardSys rx s).k.ipktbuf (-1)⟩
    rw [if_neg few]
    have long := Int.not_lt.mp few
    cases parsed : parse (heardSys rx s).k rx.ret with
    | shortcut =>
        exact absurd parsed (noise.noShortcut long)
    | good p buf =>
        exact absurd parsed (noise.notGood p buf long)
    | tossed =>
        exact ⟨_, silent (heardSys rx s).k.ipktbuf⟩
    | badHeader buf =>
        dsimp only
        rw [asks]
        exact ⟨buf, again buf (-1)⟩
    | badLength =>
        dsimp only
        rw [forced]
        have more := again (heardSys rx s).k.ipktbuf (-1)
        rw [← asks] at more
        exact ⟨_, ⟨show xOk ≠ xDone by decide, more.k, more.sent⟩⟩
    | badCheck buf =>
        dsimp only
        rw [forced, asks]
        have more := again buf (-1)
        exact ⟨buf, ⟨show xOk ≠ xDone by decide, more.k, more.sent⟩⟩
  exact asking.repeats wf repeats

/-- S comes: it is acknowledged, and the client receives. -/
theorem Asking.greeted
    (linked : Linked io)
    (asking : Asking rootPath name s)
    {item : Item}
    {asked : List UInt8}
    (fits : Genuine asked item)
    (kind : item.typ = ch 'S')
    {p : Rcvd}
    {buf : List UInt8}
    (heard : HeardAs item.typ item.seq item.data rx s p buf)
    (msg : List UInt8) :
    Acknowledged rootPath asked [item] item s
      (kermit io .run rx.ret msg (heardSys rx s)) :=
  takes_start linked asking.receives (.inr asking.what) asking.state
    asking.blank fits kind heard msg

end Client

/-! ## The server -/

/-- A server that has received nothing yet. -/
structure Idle
    (rootPath : List UInt8)
    (s : Sys ω) : Prop where
  k :
    ∃ ipktbuf doRxd,
      s.k =
        { freshData rootPath with
          filelist := []
          ipktbuf := ipktbuf
          doRxd := doRxd }

theorem idle_answerer
    (io : Io ω)
    (rootPath : List UInt8)
    (w : ω) :
    Idle rootPath (answerer io rootPath w).sys := by
  rw [(answerer_sys io rootPath w).1]
  exact ⟨_, _, rfl⟩

/-- Such a server can send its first packet. -/
theorem Idle.emptied
    {rootPath : List UInt8}
    {s : Sys ω}
    (idle : Idle rootPath s) :
    Emptied s.k := by
  obtain ⟨ipktbuf, doRxd, k⟩ := idle.k
  have settled := settled_kermitInit rootPath
  have wf := Wf.reinitData settled.noForce settled.oneSlot
    settled.noWindowing
  rw [k]
  exact ⟨⟨⟨wf.noForce, wf.oneSlot, wf.window, wf.noWindowing, wf.received,
    wf.kept, wf.mapped⟩, ⟨Int.le_refl 0, show (0 : Int) ≤ 63 by decide⟩,
    ⟨settled.small, Nat.zero_le 6⟩⟩, show (0 : Int) < 1 by decide,
    fun _ => rfl⟩

/-- `rpar()` sends S with the init string. -/
theorem rpar_outs
    {io : Io ω}
    (linked : Linked io)
    {rootPath : List UInt8}
    {s : Sys ω}
    (ready : Ready s.k)
    (first : s.k.sSeq = 0)
    (plainly : Plainly rootPath s.k) :
    Outs (frameOf (ch 'S') 0 freshInit) s (rpar io (ch 'S') s) := by
  have framing := plainly.par.framing
  have noForce := ready.wf.noForce
  have init : initString s.k.cfg s.k.par = freshInit := by
    rw [plainly.cfg]
    exact plainly.par.initString rootPath
  have same : ∀ t : Sys ω, t.k.par.bct = 1 → setBct 1 t = t := by
    intro t one
    rw [← one]
    rfl
  obtain ⟨slot, -⟩ := ready.takeSslot
  obtain ⟨readyNow, win, taken⟩ := ready.takeSlot
  have kept := takeSslot_ipktinfo s.k
  rw [show (takeSslot s.k).2 = _ from congrArg Sys.k taken] at kept
  rw [taken] at readyNow
  have outs := @spkt_outs _ io linked { s with k.win := win } readyNow framing
    (ch 'S') (show isUnslotted (ch 'S') = false by decide) 13 (some freshInit)
    freshInit (by decide) (by decide)
  rw [show ({ s with k.win := win } : Sys ω).k.sSeq = 0 from first] at outs
  obtain ⟨fine, ⟨win', k⟩, awaiting, ipktinfo, held, log⟩ := outs
  have route : rpar io (ch 'S') s =
      spkt io (ch 'S') 0 13 (some freshInit) { s with k.win := win } := by
    have after : (spkt io (ch 'S') 0 13 (some freshInit)
        { s with k.win := win }).2.k.par.bct = 1 := by
      rw [k]
      exact framing.bct
    have mapped : ({ s with k := mapSseq (getSslot s.k).1 (getSslot s.k).2 } :
        Sys ω) = { s with k.win := win } := taken
    unfold rpar rparSend rparBct
    dsimp only
    rw [plainly.par.requestEbq, if_neg (not_not.mpr noForce),
      if_neg (not_not.mpr noForce), same s framing.bct,
      if_neg (show ch 'S' ≠ ch 'Y' by decide), if_pos rfl, init, framing.bct,
      if_neg (by rw [show (getSslot s.k).1 = 0 from slot]; decide), mapped,
      same _ after]
  rw [route]
  exact ⟨fine, ⟨win', k⟩, awaiting, ipktinfo.trans kept, held, log⟩

/-- The session when `rpar()` is called for a request that was heard. -/
theorem accessed_heard
    (io : Io ω)
    (rx : Rx)
    (p : Rcvd)
    (buf : List UInt8)
    (s : Sys ω) :
    (accessed io p buf (heardSys rx s)).k =
        { s.k with
          ipktbuf := buf
          enc := { s.k.enc with xdatabuf := cstr (buf.drop p.pdf) ++ [0] }
          filelist := [.xdatabuf]
          doRxd := (ok2rxd s.k).doRxd } ∧
      ∃ rc, (accessed io p buf (heardSys rx s)).log =
        .accessf (cstr (buf.drop p.pdf)) rc :: s.log := by
  have decoded : ∀ t : Sys ω,
      (decodeName (buf.drop p.pdf) t).2.k = t.k ∧
        (decodeName (buf.drop p.pdf) t).2.log = t.log := by
    intro t
    unfold decodeName
    exact ⟨rfl, rfl⟩
  unfold accessed requested noteRequest callAccessf
  dsimp only
  rw [(decoded _).1, (decoded _).2]
  exact ⟨rfl, _, rfl⟩

section Server

variable {os : Os σ}
variable {unread : σ → List UInt8}
variable {rootPath name file : List UInt8}
variable {s : Sys (Unix σ)}
variable {rx : Rx}

/-- Without a packet the server goes on waiting. -/
theorem Idle.noise
    (idle : Idle rootPath s)
    (noise : Noise rx s)
    (msg : List UInt8) :
    (kermit (unixio os) .run rx.ret msg (heardSys rx s)).1 = xOk ∧
      Idle rootPath
        (kermit (unixio os) .run rx.ret msg (heardSys rx s)).2 ∧
      (kermit (unixio os) .run rx.ret msg (heardSys rx s)).2.log = s.log := by
  have wf := idle.emptied.steady.wf
  obtain ⟨ipktbuf, doRxd, k⟩ := idle.k
  rcases @kermit_unheard _ (unixio os) _ _ wf (by rw [k]; rfl)
    (by rw [k]; exact show State.rWait ≠ .rNone by decide) noise msg with
    ⟨buf, called⟩ | ⟨file, -⟩
  · rw [called]
    have same : (parsedSys rx buf s).k =
        { s.k with ipktbuf := buf, doRxd := (ok2rxd s.k).doRxd } := rfl
    refine ⟨rfl, ⟨buf, (ok2rxd s.k).doRxd, ?_⟩, rfl⟩
    show (parsedSys rx buf s).k = _
    rw [same, k]
  · rw [k] at file
    exact absurd (show State.rWait = .rFile from file) (by decide)

/-- The file that is asked for can be read. -/
def Accessible
    (os : Os σ)
    (name : List UInt8) : Prop :=
  ∀ w k, (kaccessfile os w k name).1 = xOk

/-- The answer to a request: S is outstanding. -/
structure OffersFirst
    (os : Os σ)
    (unread : σ → List UInt8)
    (rootPath name file : List UInt8)
    (s : Sys (Unix σ))
    (result : Int × Sys (Unix σ)) : Prop where
  fine : result.1 = xOk
  offering :
    Offering os unread rootPath name file [⟨ch 'S', 0, freshInit⟩] result.2
  sent :
    ∃ calls, result.2.log = calls ++ s.log ∧
      txds calls = [frameOf (ch 'S') 0 freshInit]

/-- The first R is answered with S. -/
theorem Idle.asked
    (linked : Linked (unixio os))
    (accessible : Accessible os name)
    (noZero : 0 ∉ name)
    (idle : Idle rootPath s)
    {p : Rcvd}
    {buf : List UInt8}
    (heard : HeardAs (ch 'R') 0 name rx s p buf)
    (msg : List UInt8) :
    OffersFirst os unread rootPath name file s
      (kermit (unixio os) .run rx.ret msg (heardSys rx s)) := by
  have emptied : Emptied (heardSys rx s).k :=
    idle.emptied.aside (.of_ledger rfl)
  obtain ⟨ipktbuf, doRxd, k⟩ := idle.k
  have received : (heardSys rx s).k.doRxd = true := by
    show (ok2rxd s.k).doRxd = true
    rw [k]
    rfl
  have set : (heardSys rx s).k.state ≠ .rNone := by
    show s.k.state ≠ .rNone
    rw [k]
    exact show State.rWait ≠ .rNone by decide
  have called := @kermit_request _ (unixio os) (heardSys rx s)
    emptied.steady.wf set received rx.ret p buf
    ⟨heard.long, heard.good, heard.read.rtyp⟩ msg
  have asked : cstr (buf.drop p.pdf) = name := heard.read.text
  have emptiedNow :=
    emptied.aside (aside_accessed (unixio os) p buf (heardSys rx s))
  obtain ⟨now, rc, looked⟩ := accessed_heard (unixio os) rx p buf s
  rw [k, asked] at now
  rw [asked] at looked
  have zero : (accessed (unixio os) p buf (heardSys rx s)).k.sSeq = 0 := by
    rw [now]
    rfl
  have plainly : Plainly rootPath
      (accessed (unixio os) p buf (heardSys rx s)).k := by
    rw [now]
    exact ⟨rfl, .inl rfl⟩
  have outs := rpar_outs linked
    ⟨emptiedNow.steady.wf, emptiedNow.free, emptiedNow.steady.numbered.1,
      emptiedNow.steady.numbered.2⟩ zero plainly
  have filed := @rpar_files _ (unixio os) _ emptiedNow zero
  rcases rPacket_cases (unixio os) p buf (heardSys rx s) with
    ⟨-, failed⟩ | ⟨-, -, shape⟩
  · exact absurd outs.fine (failed (by rw [asked]; exact accessible _ _))
  rw [called, shape]
  obtain ⟨-, ⟨win, data⟩, awaiting, -, held, log⟩ := outs
  rw [now] at data
  rw [looked] at log
  generalize (rpar (unixio os) (ch 'S')
    (accessed (unixio os) p buf (heardSys rx s))).2 = t at *
  refine ⟨rfl, ⟨filed.aside (.of_ledger rfl), awaiting.restarted, rfl, ?_, ?_,
    ⟨_, [], rfl, ?_, held⟩, .start rfl rfl ?_ ?_ ?_ ?_⟩, ⟨[.txd _ _,
    .accessf _ _], log, rfl⟩⟩
  · show t.k.cfg = _
    rw [data]
    rfl
  · intro item member
    rw [List.mem_singleton.mp member]
    exact genuine_start name
  · show 0 = t.k.sSeq
    rw [data]
    rfl
  · show t.k.par = _
    rw [data]
    rfl
  · show t.k.filelist = _
    rw [data]
  · show t.k.enc.sRpt = 0
    rw [data]
    rfl
  · show cstr t.k.enc.xdatabuf = name
    rw [data]
    exact cstr_append_zero noZero []

/-- R once more, while S is outstanding: nothing is sent. -/
theorem Offering.askedAgain
    (accessible : Accessible os name)
    (noZero : 0 ∉ name)
    {item : Item}
    (kind : item.typ = ch 'S')
    (offering : Offering os unread rootPath name file [item] s)
    {p : Rcvd}
    {buf : List UInt8}
    (heard : HeardAs (ch 'R') 0 name rx s p buf)
    (msg : List UInt8) :
    (kermit (unixio os) .run rx.ret msg (heardSys rx s)).1 = xOk ∧
      Offering os unread rootPath name file [item]
        (kermit (unixio os) .run rx.ret msg (heardSys rx s)).2 ∧
      ∃ call,
        (kermit (unixio os) .run rx.ret msg (heardSys rx s)).2.log =
          call :: s.log ∧
        txds [call] = [] := by
  obtain ⟨filed, awaiting, what, cfg, genuine, ⟨_, _, shape, number, held⟩,
    stage⟩ := offering
  obtain ⟨rfl, rfl⟩ := List.cons.inj shape
  cases stage with
  | start _ state par filelist counted named =>
      have filedHeard : Filed (heardSys rx s).k :=
        filed.aside (.of_ledger rfl)
      have received := doRxd_awaiting awaiting
      have set : (heardSys rx s).k.state ≠ .rNone := by
        show s.k.state ≠ .rNone
        rw [state]
        decide
      have called := @kermit_request _ (unixio os) (heardSys rx s)
        filedHeard.steady.wf set received rx.ret p buf
        ⟨heard.long, heard.good, heard.read.rtyp⟩ msg
      have asked : cstr (buf.drop p.pdf) = name := heard.read.text
      have filedNow :=
        filedHeard.aside (aside_accessed (unixio os) p buf (heardSys rx s))
      have busy := @rpar_busy _ (unixio os)
        (accessed (unixio os) p buf (heardSys rx s))
        ⟨filedNow.steady.wf, filedNow.full⟩
      obtain ⟨data, rc, log⟩ := accessed_heard (unixio os) rx p buf s
      rcases rPacket_cases (unixio os) p buf (heardSys rx s) with
        ⟨-, failed⟩ | ⟨-, -, shape⟩
      · exact absurd (congrArg Prod.fst busy)
          (failed (by rw [asked]; exact accessible _ _))
      rw [called, shape, busy]
      clear called shape busy
      generalize accessed (unixio os) p buf (heardSys rx s) = u at *
      have same : { requestEbq u.k.par with bct := u.k.par.bct } =
          freshPar := by
        rw [data, show s.k.par = freshPar from par,
          Usual.requestEbq (.inl rfl)]
      rw [same, asked] at *
      have wf := awaiting.wf
      have outstanding := awaiting.outstanding
      obtain ⟨t, known⟩ : ∃ t : Sys (Unix σ),
          t = restarted { u with k.par := freshPar } := ⟨_, rfl⟩
      have now : t.k =
          { s.k with
            ipktbuf := buf
            enc := { s.k.enc with xdatabuf := name ++ [0] }
            par := freshPar
            filelist := [.xdatabuf]
            state := .sInit
            what := .send
            recvget := 1
            doRxd := (ok2rxd s.k).doRxd } := by
        rw [known]
        unfold restarted setWhat setState
        dsimp only
        rw [data]
      have logged : t.log = .accessf name rc :: s.log := by
        rw [known]
        exact log
      rw [← known]
      refine ⟨rfl, ⟨filed.aside (.of_ledger ?_), ?_, ?_, ?_, genuine,
        ⟨item, [], rfl, ?_, ?_⟩, .start kind ?_ ?_ ?_ ?_ ?_⟩,
        ⟨.accessf _ _, logged, rfl⟩⟩
      · show ledger t.k = _
        rw [now, ← par]
        rfl
      · show Awaiting t.k
        rw [now, ← par]
        exact ⟨⟨wf.noForce, wf.oneSlot, wf.window, wf.noWindowing,
          wf.received, wf.kept, wf.mapped⟩, ⟨outstanding.number,
          outstanding.lower, outstanding.mapped, outstanding.nonempty,
          outstanding.fits⟩, awaiting.upper⟩
      all_goals
        dsimp only
        rw [now]
      · exact cfg
      · exact number
      · exact held
      · exact counted
      · exact cstr_append_zero noZero []
  | named other | eof other | eot other =>
      rw [kind] at other
      exact absurd other (by decide)
  | data other =>
      rw [kind] at other
      exact absurd other (by decide)

end Server

end Slate106.Kermit
