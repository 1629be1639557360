import CoreCount.Cpuinfo.Number
import CoreCount.Proofs.CheckedArithmetic
import Mathlib.Data.List.Induction
import Mathlib.Data.Nat.Digits.Defs
import Mathlib.Tactic.Ring

/-!
# Numbers of any size at the start of a text

`leadingInteger` reads a text as an integer without a bound. The number that is read with 64-bit
words and a cap after every digit is that integer, or the nearest one of 32 bits, and in checked
arithmetic none of its operations fails.
-/

namespace CoreCount.Proofs
open Cpuinfo

def blanks : Bytes := [32, 9, 10, 13, 11, 12]

def digitsValue (digits : Bytes) : Nat :=
  Nat.ofDigits 10 (digits.map (fun b => b.toNat - 48)).reverse

/-- The integer that a text begins with, of any size. Blanks are skipped, one sign is allowed, and
no digits stand for 0. -/
def leadingInteger (s : Bytes) : Int :=
  match s.dropWhile (fun b => b ∈ blanks) with
  | 45 :: rest => -(digitsValue (rest.takeWhile isDigit) : Int)
  | 43 :: rest => digitsValue (rest.takeWhile isDigit)
  | rest => digitsValue (rest.takeWhile isDigit)

def nearestInt32 (n : Int) : Int :=
  max (-2147483648) (min n 2147483647)

lemma nearestInt32_bounds (n : Int) :
    -2147483648 ≤ nearestInt32 n ∧ nearestInt32 n ≤ 2147483647 := by
  unfold nearestInt32
  omega

theorem isBlank_eq (b : UInt8) : isBlank b = decide (b ∈ blanks) := by
  have h : ∀ n : Fin 256, isBlank (UInt8.ofFin n) = decide (UInt8.ofFin n ∈ blanks) := by
    decide +kernel
  exact h b.toFin

theorem digitsValue_append (digits : Bytes) (b : UInt8) :
    digitsValue (digits ++ [b]) = digitsValue digits * 10 + (b.toNat - 48) := by
  simp only [digitsValue, List.map_append, List.map_cons, List.map_nil, List.reverse_append,
    List.reverse_cons, List.reverse_nil, List.nil_append, List.cons_append, Nat.ofDigits_cons]
  ring

/-- The number at the start of a text, by arithmetic that may fail. -/
def leadingNumber? (s : Bytes) : Option Int32 :=
  leadingNumberIn checked s

section Agree
variable {a : Arithmetic Option} {b : Arithmetic Id} (h : ArithmeticsAgree a b)
include h

lemma appendDigitIn_agrees (value : Int64) (digit : UInt8) :
    Agrees (appendDigitIn a value digit) (appendDigitIn b value digit) := by
  refine (h.product value 10).bind fun shifted => ?_
  refine (h.difference digit 48).bind fun units => ?_
  exact (h.sum shifted (Int64.ofNat units.toNat)).bind fun next => .pure _

lemma applySignIn_agrees (negative : Bool) (magnitude : Int64) :
    Agrees (applySignIn a negative magnitude) (applySignIn b negative magnitude) := by
  cases negative with
  | true => exact h.negation magnitude
  | false => exact .pure magnitude

lemma leadingNumberIn_agrees (s : Bytes) :
    Agrees (leadingNumberIn a s) (leadingNumberIn b s) := by
  unfold leadingNumberIn
  refine (Agrees.foldlM (appendDigitIn_agrees h) _ 0).bind fun magnitude => ?_
  exact (applySignIn_agrees h _ magnitude).bind fun value => h.narrowed _

end Agree

/-- A digit is appended to a value of at most the cap without a product, difference or sum that its
word does not hold. -/
lemma exists_appendDigit {value : Int64} {b : UInt8} (hb : isDigit b) (h0 : 0 ≤ value.toInt)
    (hcap : value.toInt ≤ 2147483648) :
    ∃ next, appendDigitIn checked value b = some next ∧
      next.toInt = min (value.toInt * 10 + (b.toNat - 48 : Nat)) 2147483648 := by
  simp only [isDigit, Bool.and_eq_true, decide_eq_true_eq] at hb
  have hhigh : b.toNat ≤ 57 := UInt8.le_iff_toNat_le.mp hb.2
  have hunits : (b - 48).toNat = b.toNat - 48 := UInt8.toNat_sub_of_le b 48 hb.1
  have hdigit : (Int64.ofNat (b - 48).toNat).toInt = (b.toNat - 48 : Nat) := by
    rw [hunits]
    exact Int64.toInt_ofNat_of_lt (by omega)
  obtain ⟨shifted, hproduct, hshifted⟩ : ∃ shifted, checked.product value 10 = some shifted ∧
      shifted.toInt = value.toInt * 10 := exists_int64? (n := value.toInt * 10) (by omega) (by omega)
  have hdifference : checked.difference b 48 = some (b - 48) := if_pos hb.1
  obtain ⟨next, hsum, hnext⟩ : ∃ next,
      checked.sum shifted (Int64.ofNat (b - 48).toNat) = some next ∧
        next.toInt = shifted.toInt + (Int64.ofNat (b - 48).toNat).toInt :=
    exists_int64? (by omega) (by omega)
  have hm : magnitudeCap.toInt = 2147483648 := rfl
  refine ⟨if magnitudeCap < next then magnitudeCap else next, ?_, ?_⟩
  · simp only [appendDigitIn, hproduct, hdifference, hsum, Option.bind_eq_bind, Option.bind_some]
    rfl
  · split
    · rename_i hlt
      rw [Int64.lt_iff_toInt_lt] at hlt
      omega
    · rename_i hle
      rw [Int64.lt_iff_toInt_lt] at hle
      omega

/-- Once the value has reached the cap it stays there, so capping after every digit comes to the
same as capping the whole number. -/
theorem exists_magnitude (digits : Bytes) (h : ∀ b ∈ digits, isDigit b) :
    ∃ magnitude, digits.foldlM (appendDigitIn checked) 0 = some magnitude ∧
      magnitude.toInt = min (digitsValue digits : Int) 2147483648 := by
  induction digits using List.reverseRecOn with
  | nil => exact ⟨0, rfl, rfl⟩
  | append_singleton digits b ih =>
    obtain ⟨magnitude, hrun, hvalue⟩ := ih (fun c hc => h c (by simp [hc]))
    obtain ⟨next, hstep, hnext⟩ := exists_appendDigit (h b (by simp)) (by omega : 0 ≤ magnitude.toInt)
      (by omega)
    refine ⟨next, ?_, ?_⟩
    · rw [List.foldlM_append, hrun]
      simpa using hstep
    · rw [hnext, hvalue, digitsValue_append]
      push_cast
      omega

/-- The cap lies beyond the bounds of 32 bits on either side of zero. -/
lemma exists_applySign (negative : Bool) (n : Nat) {magnitude : Int64}
    (h : magnitude.toInt = min (n : Int) 2147483648) :
    ∃ value, applySignIn checked negative magnitude = some value ∧
      nearestInt32 value.toInt = nearestInt32 (if negative then -(n : Int) else n) := by
  cases negative with
  | true =>
    obtain ⟨value, hnegation, hvalue⟩ : ∃ value, checked.negation magnitude = some value ∧
        value.toInt = -magnitude.toInt := exists_int64? (by omega) (by omega)
    refine ⟨value, hnegation, ?_⟩
    simp only [if_true, nearestInt32]
    omega
  | false =>
    refine ⟨magnitude, rfl, ?_⟩
    simp only [Bool.false_eq_true, if_false, nearestInt32]
    omega

lemma toInt_clampTo32Bits (value : Int64) :
    (clampTo32Bits value).toInt = nearestInt32 value.toInt := by
  have hmin : Int32.minValue.toInt64.toInt = -2147483648 := rfl
  have hmax : Int32.maxValue.toInt64.toInt = 2147483647 := rfl
  unfold clampTo32Bits nearestInt32
  simp only [Int64.lt_iff_toInt_lt, hmin, hmax]
  split
  · omega
  · split <;> omega

lemma leadingInteger_eq (s : Bytes) :
    leadingInteger s =
      let (negative, rest) := takeSign (s.dropWhile isBlank)
      if negative then -(digitsValue (rest.takeWhile isDigit) : Int)
      else digitsValue (rest.takeWhile isDigit) := by
  have hb : isBlank = fun b => decide (b ∈ blanks) := funext isBlank_eq
  unfold leadingInteger takeSign
  rw [hb]
  split <;> simp_all

/-- No operation on the way to the number fails, however many digits there are. -/
theorem exists_leadingNumber (s : Bytes) :
    ∃ n, leadingNumber? s = some n ∧ n.toInt = nearestInt32 (leadingInteger s) := by
  rw [leadingInteger_eq]
  unfold leadingNumber? leadingNumberIn
  rcases takeSign (s.dropWhile isBlank) with ⟨negative, rest⟩
  have hdigits : ∀ b ∈ rest.takeWhile isDigit, isDigit b := List.all_eq_true.mp List.all_takeWhile
  obtain ⟨magnitude, hrun, hmagnitude⟩ := exists_magnitude _ hdigits
  obtain ⟨value, hsign, hvalue⟩ := exists_applySign negative _ hmagnitude
  have hclamp := toInt_clampTo32Bits value
  obtain ⟨hlow, hhigh⟩ := nearestInt32_bounds value.toInt
  obtain ⟨n, hnarrowed, hn⟩ : ∃ n, checked.narrowed (clampTo32Bits value) = some n ∧
      n.toInt = (clampTo32Bits value).toInt := exists_int32? (by omega) (by omega)
  refine ⟨n, ?_, ?_⟩
  · simp only [hrun, hsign, hnarrowed, Option.bind_eq_bind, Option.bind_some]
  · rw [hn, hclamp, hvalue]

theorem leadingNumber?_eq (s : Bytes) : leadingNumber? s = some (leadingNumber s) := by
  obtain ⟨n, hn, -⟩ := exists_leadingNumber s
  rw [hn, leadingNumber, leadingNumberIn_agrees checked_agrees s n hn]

theorem toInt_leadingNumber (s : Bytes) :
    (leadingNumber s).toInt = nearestInt32 (leadingInteger s) := by
  obtain ⟨n, hn, hvalue⟩ := exists_leadingNumber s
  rw [leadingNumber, leadingNumberIn_agrees checked_agrees s n hn, hvalue]

example : leadingNumber? (Bytes.ofString "\t-2147483648 kB\n") = some Int32.minValue ∧
    appendDigitIn checked Int64.maxValue 48 = none := by
  decide +kernel

end CoreCount.Proofs
