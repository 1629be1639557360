import CoreCount.Proofs.ParseMeaning
import Mathlib.Data.List.TakeWhile

/-!
# Blanks at the end of a line

A label ends with a letter, a blank is no separator, and a number is over where a blank stands. So
a line says the same with blanks after it, among them the newline that ends it.
-/

namespace CoreCount.Proofs
open Cpuinfo

lemma not_isBlank_of_isDigit {b : UInt8} (h : isDigit b) : ¬isBlank b := by
  have hall : ∀ n : Fin 256, isDigit (UInt8.ofFin n) → ¬isBlank (UInt8.ofFin n) := by
    decide +kernel
  exact hall b.toFin h

lemma takeWhile_isDigit_append (s blanks : Bytes) (h : ∀ b ∈ blanks, isBlank b) :
    (s ++ blanks).takeWhile isDigit = s.takeWhile isDigit := by
  have hnone : blanks.takeWhile isDigit = [] := by
    cases blanks with
    | nil => rfl
    | cons b blanks =>
      have hb : ¬isDigit b := fun hd => not_isBlank_of_isDigit hd (h b (by simp))
      simp [hb]
  rw [List.takeWhile_append]
  split
  · rename_i hlen
    rw [hnone, List.append_nil]
    exact ((List.takeWhile_prefix _).eq_of_length hlen).symm
  · rfl

lemma takeSign_append (b : UInt8) (s rest : Bytes) :
    takeSign (b :: s ++ rest) = ((takeSign (b :: s)).1, (takeSign (b :: s)).2 ++ rest) := by
  unfold takeSign
  split <;> simp_all

theorem leadingNumber_append_blanks (s blanks : Bytes) (h : ∀ b ∈ blanks, isBlank b) :
    leadingNumber (s ++ blanks) = leadingNumber s := by
  have hall : blanks.dropWhile isBlank = [] := List.dropWhile_eq_nil_iff.mpr h
  unfold leadingNumber leadingNumberIn
  rw [List.dropWhile_append]
  cases hs : s.dropWhile isBlank with
  | nil => simp [hall]
  | cons b rest =>
    simp only [List.isEmpty_cons, Bool.false_eq_true, if_false]
    rw [takeSign_append b rest blanks]
    simp only [takeWhile_isDigit_append _ blanks h]

lemma getLast?_label (f : Field) :
    ∃ b, (Bytes.ofString f.label).getLast? = some b ∧ ¬isBlank b := by
  cases f with
  | siblings => exact ⟨115, rfl, by decide⟩
  | cpuCores => exact ⟨115, rfl, by decide⟩

lemma gives_append_blanks (f : Field) (line blanks : Bytes) (h : ∀ b ∈ blanks, isBlank b) :
    Gives f (line ++ blanks) ↔ Gives f line := by
  have hline : line <+: line ++ blanks := List.prefix_append line blanks
  refine ⟨fun hg => ?_, fun hg => hg.trans hline⟩
  rcases List.prefix_or_prefix_of_prefix hg hline with hpre | ⟨more, hmore⟩
  · exact hpre
  · -- what the label has beyond the line would be blanks, and its last letter one of them
    have hsub : more <+: blanks := by
      unfold Gives at hg
      rw [← hmore] at hg
      exact (List.prefix_append_right_inj line).mp hg
    by_cases hne : more = []
    · subst hne
      rw [List.append_nil] at hmore
      exact hmore ▸ List.prefix_refl _
    · obtain ⟨b, hlast, hb⟩ := getLast?_label f
      rw [← hmore, List.getLast?_append_of_ne_nil _ hne] at hlast
      have hblank : isBlank b := h b (hsub.subset (List.mem_of_getLast? hlast))
      exact absurd hblank hb

lemma ofLine?_append_blanks (line blanks : Bytes) (h : ∀ b ∈ blanks, isBlank b) :
    Field.ofLine? (line ++ blanks) = Field.ofLine? line := by
  by_cases hg : ∃ f, Gives f line
  · obtain ⟨f, hf⟩ := hg
    rw [ofLine?_of_gives hf, ofLine?_of_gives ((gives_append_blanks f line blanks h).mpr hf)]
  · have hline : ∀ f, ¬Gives f line := fun f hf => hg ⟨f, hf⟩
    rw [ofLine?_of_gives_none hline, ofLine?_of_gives_none]
    exact fun f hf => hline f ((gives_append_blanks f line blanks h).mp hf)

lemma after?_append_of_notMem {b : UInt8} {more : Bytes} (h : b ∉ more) (s : Bytes) :
    Bytes.after? b (s ++ more) = (Bytes.after? b s).map (· ++ more) := by
  induction s with
  | nil => simp [after?_eq, h]
  | cons c s ih =>
    by_cases hc : c = b
    · simp [Bytes.after?, hc]
    · simp [Bytes.after?, hc, ih]

lemma isBlank_newline : ∀ b ∈ [Bytes.newline], isBlank b :=
  List.forall_mem_singleton.mpr (by decide)

/-- Blanks at the end of a line change nothing of what it says. -/
theorem readLine_append_blanks (t : Topology) (number : Nat) (line blanks : Bytes)
    (h : ∀ b ∈ blanks, isBlank b) :
    t.readLine number (line ++ blanks) = t.readLine number line := by
  have hsep : separator ∉ blanks := fun hmem => absurd (h separator hmem) (by decide)
  unfold Topology.readLine
  rw [ofLine?_append_blanks line blanks h, after?_append_of_notMem hsep]
  cases Field.ofLine? line with
  | none => rfl
  | some f =>
    cases Bytes.after? separator line with
    | none => rfl
    | some value => simp [leadingNumber_append_blanks value blanks h]

theorem readLines_append_blanks (t : Topology) (number : Nat) (before after : List Bytes)
    (line blanks : Bytes) (h : ∀ b ∈ blanks, isBlank b) :
    t.readLines number (before ++ (line ++ blanks) :: after) =
      t.readLines number (before ++ line :: after) := by
  rw [readLines_append, readLines_append]
  congr 1
  funext t'
  rw [Topology.readLines, Topology.readLines, readLine_append_blanks t' _ line blanks h]

end CoreCount.Proofs
