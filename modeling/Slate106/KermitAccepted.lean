import Slate106.KermitParse

namespace Slate106.Kermit

open CBytes

/-!
# What a good packet is known to be

Inversion of the packet parser: the facts that every packet with a good block
check satisfies, whatever bytes were received.
-/

/-- The facts about a packet that the parser accepted. -/
structure Accepted
    (k : KData)
    (p : Rcvd)
    (buf : List UInt8) : Prop where
  lower : 0 ≤ p.rseq
  upper : p.rseq ≤ 63
  rtyp : p.rtyp = peek k.ipktbuf 2
  noEcho : ¬ (k.what = .recv ∧ (p.rtyp = ch 'N' ∨ p.rtyp = ch 'Y'))
  ackText : p.ackText = cancelText k
  header : 3 ≤ p.pdf
  shortText : (cstr (buf.drop p.pdf)).length < pBuflen

/-- A zero byte bounds the length of the string it ends. -/
private theorem length_cstr_drop
    {memory : List UInt8}
    {start count : Nat}
    (ended : peek memory (start + count) = 0) :
    (cstr (memory.drop start)).length ≤ count := by
  apply length_cstr_le
  rw [peek_drop]
  exact ended

/-- A good block check leaves a string that is shorter than its buffer. -/
private theorem parseCheck_good
    {chklen datalen : Nat}
    {p p' : Rcvd}
    {start buf : List UInt8}
    (inBounds : datalen + chklen + 1 < pBuflen)
    (good : parseCheck chklen datalen p start = .good p' buf) :
    p' = p ∧ (cstr (buf.drop p.pdf)).length < pBuflen := by
  unfold parseCheck at good
  dsimp only at good
  split at good
  · obtain ⟨rfl, rfl⟩ := Parsed.good.inj good
    refine ⟨rfl, ?_⟩
    have inside : 0 < ([0] : List UInt8).length := Nat.one_pos
    have ended :
        peek (poke start (p.pdf + datalen) [0]) (p.pdf + datalen) = 0 :=
      peek_poke_inside start (p.pdf + datalen) inside
    have bound := length_cstr_drop ended
    omega
  · split at good
    · split at good
      · obtain ⟨rfl, rfl⟩ := Parsed.good.inj good
        refine ⟨rfl, ?_⟩
        generalize start.drop (p.pdf + datalen) = checks
        generalize poke start (p.pdf + datalen) [0] = cut
        have stored : ((checks.takeD chklen 0).take (chklen - 1)).length =
            chklen - 1 := by
          simp
        have ended :
            peek
                (errorRetryBuf p.pdf datalen chklen
                  (checks.takeD chklen 0) cut)
                (p.pdf + (datalen + (chklen - 1))) =
              0 := by
          rw [errorRetryBuf, ← Nat.add_assoc, peek_poke_inside]
          · rw [peek_append_right (Nat.le_of_eq stored), stored,
              Nat.sub_self]
            rfl
          · rw [List.length_append, stored]
            exact Nat.lt_succ_self _
        have bound := length_cstr_drop ended
        omega
      · cases good
    · cases good

/-- Only the data length is filled in by the parser of the lengths. -/
private theorem parseLengths_good
    {k : KData}
    {rlen : UInt8}
    {p p' : Rcvd}
    {start buf : List UInt8}
    (good : parseLengths k rlen p start = .good p' buf) :
    ∃ datalen, p' = { p with datalen := datalen } ∧
      (cstr (buf.drop p.pdf)).length < pBuflen := by
  unfold parseLengths at good
  dsimp only at good
  split at good
  · cases good
  · rename_i inBounds
    rw [not_or] at inBounds
    obtain ⟨same, short⟩ := parseCheck_good (by omega) good
    exact ⟨_, same, short⟩

/-- What a packet with a good block check is known to be. -/
theorem parse_good
    {k : KData}
    {len : Int}
    {p : Rcvd}
    {buf : List UInt8}
    (good : parse k len = .good p buf) :
    Accepted k p buf := by
  unfold parse at good
  dsimp only at good
  split at good
  · cases good
  · split at good
    · cases good
    · rename_i inRange
      split at good
      · cases good
      · rename_i noEcho
        split at good
        · split at good
          · cases good
          · obtain ⟨datalen, rfl, short⟩ := parseLengths_good good
            exact
              { lower := Int.natCast_nonneg _
                upper := by simp only; omega
                rtyp := rfl
                noEcho := noEcho
                ackText := rfl
                header := by simp
                shortText := short }
        · obtain ⟨datalen, rfl, short⟩ := parseLengths_good good
          exact
            { lower := Int.natCast_nonneg _
              upper := by simp only; omega
              rtyp := rfl
              noEcho := noEcho
              ackText := rfl
              header := Nat.le_refl 3
              shortText := short }

/-- Only in `S_EOT` is a packet taken without its block check. -/
theorem parse_shortcut
    {k : KData}
    {len : Int}
    (shortcut : parse k len = .shortcut) :
    k.state = .sEot ∧ len = 4 ∧ xunchar (peek k.ipktbuf 1) = 0 ∧
      peek k.ipktbuf 2 = ch 'N' ∧ peek k.ipktbuf 3 = 0x33 := by
  have notCheck :
      ∀ {chklen datalen : Nat} {p : Rcvd} {buf : List UInt8},
        parseCheck chklen datalen p buf ≠ .shortcut := by
    intro chklen datalen p buf
    unfold parseCheck
    dsimp only
    split
    · exact Parsed.noConfusion
    · split
      · split
        · exact Parsed.noConfusion
        · exact Parsed.noConfusion
      · exact Parsed.noConfusion
  have notLengths :
      ∀ {rlen : UInt8} {p : Rcvd} {buf : List UInt8},
        parseLengths k rlen p buf ≠ .shortcut := by
    intro rlen p buf
    unfold parseLengths
    dsimp only
    split
    · exact Parsed.noConfusion
    · exact notCheck
  unfold parse at shortcut
  dsimp only at shortcut
  split at shortcut
  · rename_i facts
    obtain ⟨atEot, length, zero, nak, check⟩ := facts
    refine ⟨atEot, length, ?_, nak, check⟩
    rw [← UInt8.toNat_inj]
    exact Int.ofNat.inj zero
  · split at shortcut
    · cases shortcut
    · split at shortcut
      · cases shortcut
      · split at shortcut
        · split at shortcut
          · cases shortcut
          · exact absurd shortcut notLengths
        · exact absurd shortcut notLengths

end Slate106.Kermit
