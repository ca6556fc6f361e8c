import Slate106.KermitHears
import Slate106.KermitMain

namespace Slate106.Kermit

open CBytes

/-!
# What two fresh sessions agree on

Both sides start as `_EK_init` and `K_REINIT` leave them.  They send the same
init string, and `spar()` makes the same parameters of it on both sides, also
when it comes twice.
-/

variable {ω : Type}

/-- The configuration after `_EK_init`. -/
def freshCfg
    (rootPath : List UInt8) : Config :=
  (kermitInit (clearedData rootPath)).cfg

/-- The parameters after `_EK_init` and `K_REINIT`. -/
def freshPar : Params :=
  (reinitData (kermitInit (clearedData []))).par

/-- The parameters after the init string of a fresh session was received. -/
def agreedPar : Params :=
  { freshPar with rptflg := 1 }

/-- The init string of a fresh session. -/
def freshInit : List UInt8 :=
  initString (freshCfg []) freshPar

theorem freshInit_length :
    freshInit.length = 13 :=
  rfl

/-- The parameters are the default ones or the agreed ones. -/
def Usual
    (p : Params) : Prop :=
  p = freshPar ∨ p = agreedPar

theorem Usual.framing
    {p : Params}
    (usual : Usual p) :
    Framing p := by
  rcases usual with rfl | rfl
  all_goals exact ⟨rfl, rfl, rfl, rfl, rfl, rfl, rfl⟩

theorem Usual.initString
    {p : Params}
    (usual : Usual p)
    (rootPath : List UInt8) :
    initString (freshCfg rootPath) p = freshInit := by
  rcases usual with rfl | rfl
  all_goals rfl

theorem Usual.requestEbq
    {p : Params}
    (usual : Usual p) :
    requestEbq p = p := by
  rcases usual with rfl | rfl
  all_goals rfl

/-- `spar()` on the init string of a fresh session. -/
theorem Usual.sparParams
    {p : Params}
    (usual : Usual p)
    (rootPath : List UInt8)
    (fld : Nat → UInt8)
    (field :
      ∀ place, place < 13 → fld (place + 1) = peek freshInit place) :
    sparParams (freshCfg rootPath) fld 13 p = agreedPar := by
  have first := field 0 (by decide)
  have second := field 1 (by decide)
  have fifth := field 4 (by decide)
  have sixth := field 5 (by decide)
  have seventh := field 6 (by decide)
  have eighth := field 7 (by decide)
  have ninth := field 8 (by decide)
  have tenth := field 9 (by decide)
  have eleventh := field 10 (by decide)
  have twelfth := field 11 (by decide)
  have thirteenth := field 12 (by decide)
  have last : capasField fld 13 = 10 := by
    unfold capasField
    rw [if_pos (by decide), show (13 : Int).toNat = 12 + 1 from rfl]
    unfold capasEnd
    rw [tenth, if_neg (by decide)]
  show Kermit.sparParams (freshCfg []) fld 13 p = agreedPar
  unfold Kermit.sparParams sparCapas sparChecks sparEbq sparBasic
  simp only [last, first, second, fifth, sixth, seventh, eighth, ninth, tenth,
    eleventh, twelfth, thirteenth]
  rcases usual with rfl | rfl
  all_goals decide

/-- A session with the configuration of `_EK_init` and usual parameters. -/
structure Plainly
    (rootPath : List UInt8)
    (k : KData) : Prop where
  cfg : k.cfg = freshCfg rootPath
  par : Usual k.par

section Answering

variable {io : Io ω}
variable {rootPath : List UInt8}
variable {s : Sys ω}

/-- One frame was sent; of the session, only counters have changed. -/
structure Answered
    (io : Io ω)
    (frame : List UInt8)
    (s s' : Sys ω) : Prop where
  k :
    ∃ opktlen sSeq rSeq,
      s'.k =
        { s.k with
          win := { s.k.win with opktlen := opktlen }
          sSeq := sSeq
          rSeq := rSeq }
  r : s'.r = s.r
  w : s'.w = (io.txd s.w frame).2
  log : s'.log = .txd frame xOk :: s.log

/-- The text of an acknowledgment that fits its buffer. -/
structure AckText
    (text : Option (List UInt8)) : Prop where
  fits : (cstr (text.getD [])).length ≤ 60

theorem ackText_none :
    AckText none :=
  ⟨Nat.zero_le 60⟩

theorem cstr_getD
    (text : Option (List UInt8)) :
    (text.map cstr).getD [] = cstr (text.getD []) := by
  cases text with
  | none =>
      rfl
  | some bytes =>
      rfl

/-- `ack()` sends an ACK and counts it. -/
theorem ack_answers
    (linked : Linked io)
    (plainly : Plainly rootPath s.k)
    {seq : Int}
    (lower : 0 ≤ seq)
    (upper : seq ≤ 63)
    {text : Option (List UInt8)}
    (short : AckText text) :
    (ack io seq text s).1 = xOk ∧
      Answered io (frameOf (ch 'Y') seq (cstr (text.getD []))) s
        (ack io seq text s).2 := by
  have noForce : s.k.cfg.bcta3 = 0 := by
    rw [plainly.cfg]
    rfl
  have forced : forceBcta3 s.k = s.k := by
    simp [forceBcta3, noForce]
  have framing := plainly.par.framing
  have data : spktData ((text.map cstr).getD []).length (text.map cstr) =
      cstr (text.getD []) := by
    cases text with
    | none =>
        rfl
    | some bytes =>
        show (cstr bytes).takeD (cstr bytes).length 0 = cstr bytes
        rw [List.takeD_eq_take _ (Nat.le_refl _), List.take_length]
  have frame : sentFrame (ch 'Y') seq (cstr (text.getD [])) s.k =
      frameOf (ch 'Y') seq (cstr (text.getD [])) := by
    rw [sentFrame, forced, framing.pktFrame]
  have length : (frameOf (ch 'Y') seq (cstr (text.getD []))).length < 100 := by
    have bound := length_pktFrame_le s.k.par (ch 'Y') seq (cstr (text.getD []))
    have fits := short.fits
    rw [framing.pktFrame] at bound
    omega
  have sent := @spkt_unslotted _ io (ch 'Y') seq
    ((text.map cstr).getD []).length (text.map cstr) s (by decide) lower upper
    (by rw [data, frame]; exact length)
  rw [data, frame] at sent
  have fine := linked s.w (frameOf (ch 'Y') seq (cstr (text.getD [])))
  have announcedAs : announced (ch 'Y') seq (cstr (text.getD [])) s.k =
      { s.k with
        win :=
          { s.k.win with
            opktlen := (frameOf (ch 'Y') seq (cstr (text.getD []))).length }
        sSeq := seq } := by
    unfold announced
    dsimp only
    rw [forced, frame]
  unfold ack
  dsimp only
  rw [sent, announcedAs]
  unfold callTxd
  dsimp only
  rw [fine]
  split
  · exact ⟨rfl, ⟨⟨_, _, _, rfl⟩, rfl, rfl, rfl⟩⟩
  · exact ⟨rfl, ⟨⟨_, _, s.k.rSeq, rfl⟩, rfl, rfl, rfl⟩⟩

/-- `rpar(k, 'Y')` acknowledges S with the init string. -/
theorem rpar_answersS
    (linked : Linked io)
    (plainly : Plainly rootPath s.k) :
    (rpar io (ch 'Y') s).1 = xOk ∧
      Answered io (frameOf (ch 'Y') 0 freshInit) s
        (rpar io (ch 'Y') s).2 := by
  have bct := plainly.par.framing.bct
  have noForce : s.k.cfg.bcta3 = 0 := by
    rw [plainly.cfg]
    rfl
  have init : initString s.k.cfg s.k.par = freshInit := by
    rw [plainly.cfg]
    exact plainly.par.initString rootPath
  have same : ∀ t : Sys ω, t.k.par.bct = 1 → setBct 1 t = t := by
    intro t one
    rw [← one]
    rfl
  have text : cstr freshInit = freshInit := by
    decide
  have short : AckText (some freshInit) :=
    ⟨show (cstr freshInit).length ≤ 60 by rw [text]; decide⟩
  obtain ⟨fine, answered⟩ := ack_answers linked plainly (Int.le_refl 0)
    (show (0 : Int) ≤ 63 by decide) short
  have after : (ack io 0 (some freshInit) s).2.k.par.bct = 1 := by
    obtain ⟨⟨_, _, _, k⟩, -, -, -⟩ := answered
    rw [k]
    exact bct
  rw [show cstr ((some freshInit).getD []) = freshInit from text] at answered
  unfold rpar rparSend rparBct
  dsimp only
  rw [plainly.par.requestEbq, if_neg (not_not.mpr noForce),
    if_neg (not_not.mpr noForce), same s bct, if_pos rfl, init, bct,
    same _ after]
  exact ⟨fine, answered⟩

end Answering

end Slate106.Kermit
