import CoreCount.Arithmetic
import Mathlib.Tactic.Lemma

/-!
# Arithmetic that fails

In checked arithmetic an operation has a result only where its word holds the exact one. What a
computation comes to in checked arithmetic it also comes to in wrapping arithmetic, so a computation
that does not fail there never wraps around.
-/

namespace CoreCount.Proofs

/-- The word of 64 bits that holds an integer, if there is one. -/
def int64? (n : Int) : Option Int64 :=
  if Int64.minValue.toInt ≤ n ∧ n ≤ Int64.maxValue.toInt then some (Int64.ofInt n) else none

/-- The word of 32 bits that holds an integer, if there is one. -/
def int32? (n : Int) : Option Int32 :=
  if Int32.minValue.toInt ≤ n ∧ n ≤ Int32.maxValue.toInt then some (Int32.ofInt n) else none

/-- The quotient of two values, truncated toward zero, by a division that fails where there is none:
for a divisor of 0, and for the least value divided by -1, whose quotient 32 bits do not hold. -/
def quotient? (a b : Int32) : Option Int32 :=
  if b = 0 ∨ (a = Int32.minValue ∧ b = -1) then none else some (a / b)

def checked : Arithmetic Option where
  quotient := quotient?
  product a b := int64? (a.toInt * b.toInt)
  sum a b := int64? (a.toInt + b.toInt)
  negation a := int64? (-a.toInt)
  difference a b := if b ≤ a then some (a - b) else none
  narrowed a := int32? a.toInt

section Words
variable {n : Int}

lemma eq_of_int64? {a : Int64} (h : int64? n = some a) : a = Int64.ofInt n := by
  unfold int64? at h
  split at h
  · exact (Option.some.inj h).symm
  · contradiction

lemma eq_of_int32? {a : Int32} (h : int32? n = some a) : a = Int32.ofInt n := by
  unfold int32? at h
  split at h
  · exact (Option.some.inj h).symm
  · contradiction

/-- An integer within the bounds of 64 bits has a word that stands for it. -/
lemma exists_int64? (hlow : -9223372036854775808 ≤ n) (hhigh : n ≤ 9223372036854775807) :
    ∃ a, int64? n = some a ∧ a.toInt = n := by
  refine ⟨Int64.ofInt n, if_pos ⟨hlow, hhigh⟩, ?_⟩
  exact Int64.toInt_ofInt_of_le hlow (by omega)

lemma exists_int32? (hlow : -2147483648 ≤ n) (hhigh : n ≤ 2147483647) :
    ∃ a, int32? n = some a ∧ a.toInt = n := by
  refine ⟨Int32.ofInt n, if_pos ⟨hlow, hhigh⟩, ?_⟩
  exact Int32.toInt_ofInt_of_le hlow (by omega)

end Words

/-- If the first computation has a result, the second comes to it. -/
def Agrees {α : Type} (x : Option α) (y : Id α) : Prop :=
  ∀ a, x = some a → y.run = a

namespace Agrees
variable {α β : Type}

lemma pure (a : α) : Agrees (pure a) (pure a) :=
  fun _ h => Option.some.inj h

lemma bind {x : Option α} {y : Id α} {f : α → Option β} {g : α → Id β} (h : Agrees x y)
    (hf : ∀ a, Agrees (f a) (g a)) : Agrees (x >>= f) (y >>= g) := by
  intro b hb
  obtain ⟨a, ha, hfa⟩ := Option.bind_eq_some_iff.mp hb
  obtain rfl : y.run = a := h a ha
  exact hf _ b hfa

lemma foldlM {f : β → α → Option β} {g : β → α → Id β} (h : ∀ b a, Agrees (f b a) (g b a))
    (xs : List α) (b : β) : Agrees (xs.foldlM f b) (xs.foldlM g b) := by
  induction xs generalizing b with
  | nil => exact .pure b
  | cons a xs ih =>
    rw [List.foldlM_cons, List.foldlM_cons]
    exact (h b a).bind ih

end Agrees

/-- Two arithmetics of which the second comes to every result of the first. -/
structure ArithmeticsAgree (a : Arithmetic Option) (b : Arithmetic Id) : Prop where
  quotient : ∀ x y, Agrees (a.quotient x y) (b.quotient x y)
  product : ∀ x y, Agrees (a.product x y) (b.product x y)
  sum : ∀ x y, Agrees (a.sum x y) (b.sum x y)
  negation : ∀ x, Agrees (a.negation x) (b.negation x)
  difference : ∀ x y, Agrees (a.difference x y) (b.difference x y)
  narrowed : ∀ x, Agrees (a.narrowed x) (b.narrowed x)

theorem checked_agrees : ArithmeticsAgree checked .wrapping where
  quotient x y := by
    intro q h
    simp only [checked, quotient?] at h
    split at h
    · contradiction
    · exact Option.some.inj h
  product x y := by
    intro z h
    rw [eq_of_int64? h, Int64.ofInt_mul, Int64.ofInt_toInt, Int64.ofInt_toInt]
    rfl
  sum x y := by
    intro z h
    rw [eq_of_int64? h, Int64.ofInt_add, Int64.ofInt_toInt, Int64.ofInt_toInt]
    rfl
  negation x := by
    intro z h
    rw [eq_of_int64? h, Int64.ofInt_neg, Int64.ofInt_toInt]
    rfl
  difference x y := by
    intro z h
    simp only [checked] at h
    split at h
    · exact Option.some.inj h
    · contradiction
  narrowed x := by
    intro z h
    apply Int32.toInt_inj.mp
    rw [eq_of_int32? h, Int32.toInt_ofInt]
    exact Int64.toInt_toInt32 x

end CoreCount.Proofs
