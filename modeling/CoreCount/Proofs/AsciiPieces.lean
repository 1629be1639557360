import CoreCount.Text.Utf8
import Mathlib.Algebra.Group.Nat.Defs
import Mathlib.Tactic.Lemma
import Mathlib.Tactic.SplitIfs

/-!
# Bytes of ASCII among the pieces of a text

A byte of ASCII is a piece of its own. Any other byte begins a piece that is no character of ASCII:
the bounds of its next byte exclude the overlong forms of one.
-/

namespace CoreCount.Proofs
open Utf8

/-- A character beyond ASCII, or the zero character that stands for a number of no character. -/
def BeyondAscii (c : Char) : Prop :=
  c.toNat = 0 ∨ 128 ≤ c.toNat

lemma beyondAscii_ofNat {n : Nat} (h : 128 ≤ n) : BeyondAscii (Char.ofNat n) := by
  unfold BeyondAscii Char.ofNat
  by_cases hn : n.isValidChar
  · rw [dif_pos hn]
    exact .inr h
  · rw [dif_neg hn]
    exact .inl rfl

lemma pieces_cons_ascii {b : UInt8} (h : b < 0x80) (rest : Bytes) :
    pieces (b :: rest) = .char (Char.ofNat b.toNat) :: pieces rest := by
  simp [pieces, piecesFrom, begin, h]

/-- The least number that a part of a character can come to. -/
def leastNumber (p : Partial) : Nat :=
  (p.bits * 64 + (p.low.toNat - 0x80)) * 64 ^ (p.missing - 1)

lemma begin_beyond {b : UInt8} (h : ¬b < 0x80) :
    begin b = .inl .illFormed ∨ ∃ p, begin b = .inr p ∧ 128 ≤ leastNumber p := by
  unfold begin
  rw [if_neg h]
  simp only [UInt8.lt_iff_toNat_lt, UInt8.reduceToNat, ← UInt8.toNat_inj] at h ⊢
  split_ifs <;> simp [leastNumber] <;> omega

lemma push_beyond {p : Partial} {b : UInt8} (h : 128 ≤ leastNumber p) (hb : p.accepts b) :
    (∃ c, p.push b = .inl c ∧ BeyondAscii c) ∨
      ∃ p', p.push b = .inr p' ∧ 128 ≤ leastNumber p' := by
  have hlow : p.low.toNat ≤ b.toNat := by
    simp only [Partial.accepts, Bool.and_eq_true, decide_eq_true_eq, UInt8.le_iff_toNat_le] at hb
    exact hb.1
  have hbits : p.bits * 64 + (p.low.toNat - 0x80) ≤ p.bits * 64 + (b.toNat - 0x80) := by omega
  unfold Partial.push
  by_cases hlast : p.missing ≤ 1
  · have hone : p.missing - 1 = 0 := by omega
    rw [leastNumber, hone] at h
    exact .inl ⟨_, if_pos hlast, beyondAscii_ofNat (by omega)⟩
  · obtain ⟨m, hm⟩ : ∃ m, p.missing = m + 2 := ⟨p.missing - 2, by omega⟩
    refine .inr ⟨_, if_neg hlast, ?_⟩
    calc 128 ≤ leastNumber p := h
      _ ≤ (p.bits * 64 + (b.toNat - 0x80)) * 64 ^ (m + 1) := by
        rw [leastNumber, hm]
        exact Nat.mul_le_mul_right _ hbits
      _ = (p.bits * 64 + (b.toNat - 0x80)) * 64 * 64 ^ m := by rw [Nat.pow_succ', Nat.mul_assoc]
      _ = _ := by simp [leastNumber, hm]

/-- The first piece of a text that begins amid a character. -/
lemma piecesFrom_beyond {p : Partial} (h : 128 ≤ leastNumber p) (s : Bytes) :
    ∃ piece rest, piecesFrom (some p) s = piece :: rest ∧ ∀ c, piece = .char c → BeyondAscii c := by
  induction s generalizing p with
  | nil => exact ⟨.illFormed, [], rfl, by simp⟩
  | cons b s ih =>
    rw [piecesFrom]
    by_cases hb : p.accepts b
    · rw [if_pos hb]
      rcases push_beyond h hb with ⟨c, hc, hbeyond⟩ | ⟨p', hp', hleast⟩
      · rw [hc]
        refine ⟨.char c, _, rfl, fun d hd => ?_⟩
        rwa [← Piece.char.inj hd]
      · rw [hp']
        exact ih hleast
    · rw [if_neg hb]
      exact ⟨.illFormed, _, rfl, by simp⟩

lemma pieces_cons_beyond {b : UInt8} (h : ¬b < 0x80) (s : Bytes) :
    ∃ piece rest, pieces (b :: s) = piece :: rest ∧ ∀ c, piece = .char c → BeyondAscii c := by
  rw [pieces, piecesFrom]
  rcases begin_beyond h with hb | ⟨p, hp, hleast⟩
  · rw [hb]
    exact ⟨.illFormed, _, rfl, by simp⟩
  · rw [hp]
    exact piecesFrom_beyond hleast s

end CoreCount.Proofs
