import CoreCount.Proofs.LineEnds
import CoreCount.Proofs.NumberParts
import Mathlib.Tactic.IntervalCases

/-!
# Numbers written in decimal

The decimal text of an integer, with blanks before it and no digit after it, has the parts of a
number of that value. So a value of 32 bits survives being written and read, the smallest one included.
The main result gathers what the number at the start of any text comes to.
-/

namespace CoreCount.Proofs
open Cpuinfo

lemma ofString_repr_of_lt {n : Nat} (h : n < 10) :
    Bytes.ofString n.repr = [UInt8.ofNat (48 + n)] := by
  interval_cases n <;> decide

/-- The last digit comes off the end, as it is read. -/
lemma ofString_repr_of_ge {n : Nat} (h : 10 ≤ n) :
    Bytes.ofString n.repr = Bytes.ofString (n / 10).repr ++ [UInt8.ofNat (48 + n % 10)] := by
  rw [Nat.repr_eq_repr_append_repr h, Bytes.ofString_append,
    ofString_repr_of_lt (Nat.mod_lt n (by omega))]

lemma isDigit_ofNat {d : Nat} (h : d < 10) : isDigit (UInt8.ofNat (48 + d)) := by
  interval_cases d <;> decide

lemma isDigit_repr (n : Nat) : ∀ b ∈ Bytes.ofString n.repr, isDigit b := by
  induction n using Nat.strong_induction_on with
  | _ n ih =>
    by_cases h : n < 10
    · rw [ofString_repr_of_lt h]
      simpa using isDigit_ofNat h
    · have hlast : isDigit (UInt8.ofNat (48 + n % 10)) := isDigit_ofNat (Nat.mod_lt n (by omega))
      rw [ofString_repr_of_ge (by omega)]
      intro b hb
      rcases List.mem_append.mp hb with hb | hb
      · exact ih (n / 10) (by omega) b hb
      · rw [List.mem_singleton.mp hb]
        exact hlast

lemma digitsValue_repr (n : Nat) : digitsValue (Bytes.ofString n.repr) = n := by
  have hdigit (d : Nat) (hd : d < 10) : (UInt8.ofNat (48 + d)).toNat - 48 = d := by
    interval_cases d <;> rfl
  induction n using Nat.strong_induction_on with
  | _ n ih =>
    by_cases h : n < 10
    · have hnil : digitsValue [] = 0 := rfl
      have hone := digitsValue_append [] (UInt8.ofNat (48 + n))
      rw [List.nil_append, hnil, hdigit n h] at hone
      rw [ofString_repr_of_lt h]
      omega
    · rw [ofString_repr_of_ge (by omega), digitsValue_append, ih (n / 10) (by omega),
        hdigit (n % 10) (Nat.mod_lt n (by omega))]
      omega

lemma ofString_repr_ne_nil (n : Nat) : Bytes.ofString n.repr ≠ [] := by
  by_cases h : n < 10
  · simp [ofString_repr_of_lt h]
  · simp [ofString_repr_of_ge (n := n) (by omega)]

lemma ofString_toString (n : Int) :
    Bytes.ofString (toString n) =
      (if n < 0 then [minusSign] else []) ++ Bytes.ofString n.natAbs.repr := by
  have hminus : Bytes.ofString "-" = [minusSign] := by decide
  rw [Int.toString_eq_repr, Int.repr_eq_if]
  by_cases h : n < 0
  · have habs : (-n).toNat = n.natAbs := by omega
    rw [if_neg (by omega), if_pos h, Bytes.ofString_append, hminus, habs]
  · have habs : n.toNat = n.natAbs := by omega
    rw [if_pos (by omega), if_neg h, List.nil_append, habs]

lemma isDigit_or_minusSign_toString (n : Int) :
    ∀ b ∈ Bytes.ofString (toString n), isDigit b ∨ b = minusSign := by
  rw [ofString_toString]
  intro b hb
  rcases List.mem_append.mp hb with hb | hb
  · split at hb
    · exact .inr (List.mem_singleton.mp hb)
    · simp at hb
  · exact .inl (isDigit_repr _ b hb)

/-- A decimal text begins with a digit, which is neither a blank nor a sign. -/
lemma head?_repr (n : Nat) (s : Bytes) :
    ∀ b ∈ (Bytes.ofString n.repr ++ s).head?, b ∉ blanks ∧ b ≠ plusSign ∧ b ≠ minusSign := by
  obtain ⟨c, rest, hrepr⟩ := List.exists_cons_of_ne_nil (ofString_repr_ne_nil n)
  have hc : isDigit c := isDigit_repr n c (by simp [hrepr])
  intro b hb
  obtain rfl : c = b := by simpa [hrepr] using hb
  refine ⟨fun hblank => not_isBlank_of_isDigit hc ((isBlank_iff c).mpr hblank), ?_, ?_⟩
  · rintro rfl
    contradiction
  · rintro rfl
    contradiction

namespace NumberParts
variable (spaces rest : Bytes) (hspaces : ∀ b ∈ spaces, b ∈ blanks)
  (hrest : ∀ b ∈ rest.head?, b ∉ decimals) (n : Int)

/-- An integer in decimal, between blanks and a text that begins with no digit. -/
def decimal : NumberParts where
  spaces := spaces
  sign := if n < 0 then .minus else .absent
  digits := Bytes.ofString n.natAbs.repr
  rest := rest
  spaces_blank := hspaces
  spaces_end := by
    split
    · have hminus : minusSign ∉ blanks := by decide
      intro b hb
      obtain rfl : minusSign = b := by simpa [Sign.text] using hb
      exact hminus
    · exact fun b hb => (head?_repr n.natAbs rest b hb).1
  sign_precedes := fun _ b hb => (head?_repr n.natAbs rest b hb).2
  digits_decimal := fun b hb => (isDigit_iff b).mp (isDigit_repr n.natAbs b hb)
  digits_end := hrest

lemma text_decimal :
    (decimal spaces rest hspaces hrest n).text =
      spaces ++ Bytes.ofString (toString n) ++ rest := by
  have hsign : (if n < 0 then Sign.minus else .absent).text = if n < 0 then [minusSign] else [] :=
    apply_ite Sign.text (n < 0) .minus .absent
  simp only [text, decimal, hsign, ofString_toString, List.append_assoc]

lemma value_decimal : (decimal spaces rest hspaces hrest n).value = n := by
  simp only [value, decimal, digitsValue_repr]
  split
  · simp only [Sign.apply]
    omega
  · simp only [Sign.apply]
    omega

end NumberParts

/-- A value of 32 bits is read back from its decimal text, whatever blanks stand before it and
whatever stands after it but a digit. -/
theorem leadingNumber_toString (before after : Bytes) (hbefore : ∀ b ∈ before, b ∈ blanks)
    (hafter : ∀ b ∈ after.head?, b ∉ decimals) (n : Int32) :
    leadingNumber (before ++ Bytes.ofString (toString n.toInt) ++ after) = n := by
  rw [← NumberParts.text_decimal before after hbefore hafter n.toInt]
  apply NumberParts.leadingNumber_text_of_value
  exact NumberParts.value_decimal before after hbefore hafter n.toInt

/-- Every text has one reading as blanks, a sign or none, digits and the rest, each as long as it can
be. The number that is read is the integer of sign and digits, or the nearest bound of 32 bits where
it lies beyond them. So no value of 32 bits is lost, and each of them is read from its decimal text,
in the place of the number of any text. No operation on the way has a result beyond its word. -/
theorem leadingNumber_exact (s : Bytes) :
    ∃ p : NumberParts, p.text = s ∧ (∀ q : NumberParts, q.text = s → q = p) ∧
      (leadingNumber s).toInt = max Int32.minValue.toInt (min p.value Int32.maxValue.toInt) ∧
      (∀ n : Int32, p.value = n.toInt → leadingNumber s = n) ∧
      (∀ n : Int32, leadingNumber (p.spaces ++ Bytes.ofString (toString n.toInt) ++ p.rest) = n) ∧
      leadingNumber? s = some (leadingNumber s) := by
  obtain ⟨p, rfl⟩ := NumberParts.exists_of_text s
  refine ⟨p, rfl, fun q hq => NumberParts.text_inj hq, p.toInt_leadingNumber_text, fun n hn => ?_,
    fun n => ?_, leadingNumber?_eq p.text⟩
  · exact p.leadingNumber_text_of_value hn
  · exact leadingNumber_toString p.spaces p.rest p.spaces_blank p.digits_end n

end CoreCount.Proofs
