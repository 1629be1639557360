import CoreCount.Proofs.LeadingNumber
import Mathlib.Data.List.TakeWhile

/-!
# The parts of a text that begins with a number

Every text is made, in one way, of blanks, a sign or none, digits and what follows them, where each
part is as long as it can be. The number that is read is the integer that sign and digits stand for,
or the nearest one of 32 bits.
-/

namespace CoreCount.Proofs
open Cpuinfo

def plusSign : UInt8 := 43

def minusSign : UInt8 := 45

def decimals : Bytes := [48, 49, 50, 51, 52, 53, 54, 55, 56, 57]

inductive Sign where
  | absent
  | plus
  | minus
  deriving DecidableEq

namespace Sign

def text : Sign → Bytes
  | .absent => []
  | .plus => [plusSign]
  | .minus => [minusSign]

def apply : Sign → Nat → Int
  | .minus, n => -n
  | _, n => n

/-- A sign is absent only where the text has none. -/
def Precedes (sign : Sign) (s : Bytes) : Prop :=
  sign = .absent → ∀ b ∈ s.head?, b ≠ plusSign ∧ b ≠ minusSign

end Sign

/-- Blanks, at most one sign, digits and the rest. No part could go on: the blanks end where no blank
stands, the sign is absent where none stands, and the digits end where no digit stands. -/
structure NumberParts where
  spaces : Bytes
  sign : Sign
  digits : Bytes
  rest : Bytes
  spaces_blank : ∀ b ∈ spaces, b ∈ blanks
  spaces_end : ∀ b ∈ (sign.text ++ (digits ++ rest)).head?, b ∉ blanks
  sign_precedes : sign.Precedes (digits ++ rest)
  digits_decimal : ∀ b ∈ digits, b ∈ decimals
  digits_end : ∀ b ∈ rest.head?, b ∉ decimals

namespace NumberParts

def text (p : NumberParts) : Bytes :=
  p.spaces ++ (p.sign.text ++ (p.digits ++ p.rest))

/-- The integer that sign and digits stand for, of any size. -/
def value (p : NumberParts) : Int :=
  p.sign.apply (digitsValue p.digits)

end NumberParts

section Runs
variable {p : UInt8 → Bool} {run rest : Bytes}

lemma takeWhile_append_of_head? (hrun : ∀ b ∈ run, p b) (hrest : ∀ b ∈ rest.head?, ¬p b) :
    (run ++ rest).takeWhile p = run := by
  rw [List.takeWhile_append_of_pos hrun]
  cases rest with
  | nil => simp
  | cons b rest => simp [hrest b rfl]

lemma dropWhile_append_of_head? (hrun : ∀ b ∈ run, p b) (hrest : ∀ b ∈ rest.head?, ¬p b) :
    (run ++ rest).dropWhile p = rest := by
  rw [List.dropWhile_append_of_pos hrun]
  cases rest with
  | nil => rfl
  | cons b rest => simp [hrest b rfl]

lemma head?_dropWhile (s : Bytes) : ∀ b ∈ (s.dropWhile p).head?, ¬p b := by
  intro b hb
  have h := List.head?_dropWhile_not p s
  rw [Option.mem_def.mp hb] at h
  simpa using h

end Runs

lemma isDigit_iff (b : UInt8) : isDigit b ↔ b ∈ decimals := by
  have h : ∀ n : Fin 256, isDigit (UInt8.ofFin n) ↔ UInt8.ofFin n ∈ decimals := by
    decide +kernel
  exact h b.toFin

lemma isBlank_iff (b : UInt8) : isBlank b ↔ b ∈ blanks := by
  rw [isBlank_eq, decide_eq_true_iff]

section Signs
variable {sign sign' : Sign} {s t : Bytes}

lemma Sign.text_inj (h : sign.text = sign'.text) : sign = sign' := by
  cases sign <;> cases sign' <;> first | rfl | contradiction

lemma takeSign_text (h : sign.Precedes s) :
    takeSign (sign.text ++ s) = (decide (sign = .minus), s) := by
  cases sign with
  | plus => rfl
  | minus => rfl
  | absent =>
    cases s with
    | nil => rfl
    | cons b s =>
      obtain ⟨hplus, hminus⟩ := h rfl b rfl
      simp only [Sign.text, List.nil_append, takeSign]
      split <;> simp_all [plusSign, minusSign]

/-- What follows the sign is what is left when it is taken, so only one sign fits. -/
lemma sign_unique (hs : sign.Precedes s) (ht : sign'.Precedes t)
    (h : sign.text ++ s = sign'.text ++ t) : sign = sign' ∧ s = t := by
  have hleft := takeSign_text hs
  rw [h, takeSign_text ht] at hleft
  obtain rfl : t = s := (Prod.mk.inj hleft).2
  exact ⟨Sign.text_inj (List.append_cancel_right h), rfl⟩

lemma exists_sign (s : Bytes) : ∃ sign t, s = Sign.text sign ++ t ∧ sign.Precedes t := by
  cases s with
  | nil => exact ⟨.absent, [], rfl, by simp [Sign.Precedes]⟩
  | cons b s =>
    by_cases hplus : b = plusSign
    · exact ⟨.plus, s, by rw [hplus]; rfl, by simp [Sign.Precedes]⟩
    · by_cases hminus : b = minusSign
      · exact ⟨.minus, s, by rw [hminus]; rfl, by simp [Sign.Precedes]⟩
      · exact ⟨.absent, b :: s, rfl, by simp [Sign.Precedes, hplus, hminus]⟩

end Signs

namespace NumberParts
variable {p q : NumberParts}

/-- The parts are found from left to right, each as far as it goes. -/
lemma exists_of_text (s : Bytes) : ∃ p : NumberParts, p.text = s := by
  obtain ⟨sign, t, hsign, hprecedes⟩ := exists_sign (s.dropWhile isBlank)
  have hnumber : t.takeWhile isDigit ++ t.dropWhile isDigit = t := List.takeWhile_append_dropWhile
  have htext : s.takeWhile isBlank ++
      (sign.text ++ (t.takeWhile isDigit ++ t.dropWhile isDigit)) = s := by
    rw [hnumber, ← hsign, List.takeWhile_append_dropWhile]
  refine ⟨{
    spaces := s.takeWhile isBlank
    sign := sign
    digits := t.takeWhile isDigit
    rest := t.dropWhile isDigit
    spaces_blank := fun b hb => (isBlank_iff b).mp (List.mem_takeWhile_imp hb)
    spaces_end := ?_
    sign_precedes := by rwa [hnumber]
    digits_decimal := fun b hb => (isDigit_iff b).mp (List.mem_takeWhile_imp hb)
    digits_end := fun b hb hd => head?_dropWhile t b hb ((isDigit_iff b).mpr hd) }, htext⟩
  intro b hb hblank
  rw [hnumber, ← hsign] at hb
  exact head?_dropWhile s b hb ((isBlank_iff b).mpr hblank)

section Reading
variable (p : NumberParts)

lemma isBlank_spaces : ∀ b ∈ p.spaces, isBlank b :=
  fun b hb => (isBlank_iff b).mpr (p.spaces_blank b hb)

lemma not_isBlank_after : ∀ b ∈ (p.sign.text ++ (p.digits ++ p.rest)).head?, ¬isBlank b :=
  fun b hb hblank => p.spaces_end b hb ((isBlank_iff b).mp hblank)

lemma takeWhile_text : p.text.takeWhile isBlank = p.spaces :=
  takeWhile_append_of_head? p.isBlank_spaces p.not_isBlank_after

lemma dropWhile_text : p.text.dropWhile isBlank = p.sign.text ++ (p.digits ++ p.rest) :=
  dropWhile_append_of_head? p.isBlank_spaces p.not_isBlank_after

lemma takeWhile_digits : (p.digits ++ p.rest).takeWhile isDigit = p.digits := by
  apply takeWhile_append_of_head?
  · exact fun b hb => (isDigit_iff b).mpr (p.digits_decimal b hb)
  · exact fun b hb hdigit => p.digits_end b hb ((isDigit_iff b).mp hdigit)

lemma leadingInteger_text : leadingInteger p.text = p.value := by
  rw [leadingInteger_eq, dropWhile_text, takeSign_text p.sign_precedes]
  simp only [takeWhile_digits, value]
  cases p.sign <;> rfl

end Reading

/-- Of a value beyond 32 bits the nearer bound is read. -/
theorem toInt_leadingNumber_text (p : NumberParts) :
    (leadingNumber p.text).toInt = max Int32.minValue.toInt (min p.value Int32.maxValue.toInt) := by
  rw [toInt_leadingNumber, p.leadingInteger_text]
  rfl

/-- A value of 32 bits is not changed. -/
lemma leadingNumber_text_of_value (p : NumberParts) {n : Int32} (h : p.value = n.toInt) :
    leadingNumber p.text = n := by
  have hlow := n.minValue_le_toInt
  have hhigh := n.toInt_le
  apply Int32.toInt_inj.mp
  rw [p.toInt_leadingNumber_text, h]
  omega

lemma text_inj (h : p.text = q.text) : p = q := by
  have hspaces : p.spaces = q.spaces := by rw [← p.takeWhile_text, ← q.takeWhile_text, h]
  have hafter : p.sign.text ++ (p.digits ++ p.rest) = q.sign.text ++ (q.digits ++ q.rest) := by
    rw [← p.dropWhile_text, ← q.dropWhile_text, h]
  obtain ⟨hsign, hnumber⟩ := sign_unique p.sign_precedes q.sign_precedes hafter
  have hdigits : p.digits = q.digits := by rw [← p.takeWhile_digits, ← q.takeWhile_digits, hnumber]
  have hrest : p.rest = q.rest := by
    rw [hdigits] at hnumber
    exact List.append_cancel_left hnumber
  cases p
  cases q
  simp_all

end NumberParts

end CoreCount.Proofs
