import CoreCount.Proofs.Delivery
import CoreCount.Proofs.LeadingNumber

/-!
# What a cpuinfo text means

The meaning of a text is read off its lines at once, without an order of reading: a field has the
value of the last line that gives it, and the text is malformed at the first line that gives a
field without a separator. Reading the lines in turn comes to this meaning.
-/

namespace CoreCount.Proofs
open Cpuinfo

/-- A line gives a field if it begins with the field's label, whatever comes after. -/
def Gives (f : Field) (line : Bytes) : Prop :=
  Bytes.ofString f.label <+: line

instance (f : Field) (line : Bytes) : Decidable (Gives f line) :=
  inferInstanceAs (Decidable (_ <+: _))

/-- Every field that a line gives has its separator. -/
def Separated (line : Bytes) : Prop :=
  ∀ f, Gives f line → separator ∈ line

/-- The number that stands after the first separator of a line. -/
def lineValue (line : Bytes) : Int :=
  nearestInt32 (leadingInteger (line.drop (line.idxOf separator + 1)))

/-- The value in the last of the lines that give a field, if there is one. -/
def lastValue (f : Field) (lines : List Bytes) : Option Int :=
  (lines.filter (fun line => Gives f line)).getLast?.map lineValue

lemma label_prefix_unique {f g : Field} (h : Bytes.ofString f.label <+: Bytes.ofString g.label) :
    f = g := by
  revert h
  cases f <;> cases g <;> decide

lemma Gives.unique {f g : Field} {line : Bytes} (hf : Gives f line) (hg : Gives g line) : f = g := by
  rcases List.prefix_or_prefix_of_prefix hf hg with h | h
  · exact label_prefix_unique h
  · exact (label_prefix_unique h).symm

lemma ofLine?_of_gives {f : Field} {line : Bytes} (h : Gives f line) :
    Field.ofLine? line = some f := by
  have hpre (g : Field) : (Bytes.ofString g.label).isPrefixOf line = decide (g = f) := by
    rw [Bool.eq_iff_iff, List.isPrefixOf_iff_prefix, decide_eq_true_iff]
    exact ⟨fun hg => Gives.unique hg h, fun he => he ▸ h⟩
  cases f <;> simp [Field.ofLine?, hpre]

lemma ofLine?_of_gives_none {line : Bytes} (h : ∀ f, ¬Gives f line) :
    Field.ofLine? line = none := by
  simp only [Field.ofLine?, List.find?_eq_none]
  intro f _ hpre
  exact h f (List.isPrefixOf_iff_prefix.mp hpre)

lemma after?_eq (b : UInt8) (s : Bytes) :
    Bytes.after? b s = if b ∈ s then some (s.drop (s.idxOf b + 1)) else none := by
  induction s with
  | nil => rfl
  | cons c s ih =>
    by_cases hc : c = b
    · simp [Bytes.after?, hc]
    · have hb : b ≠ c := fun he => hc he.symm
      simp [Bytes.after?, hc, hb, ih, List.idxOf_cons_ne]

lemma after?_of_notMem {b : UInt8} {s : Bytes} (h : b ∉ s) (rest : Bytes) :
    Bytes.after? b (s ++ b :: rest) = some rest := by
  have hidx : (s ++ b :: rest).idxOf b = s.length := by simp [List.idxOf_append_of_notMem h]
  rw [after?_eq, if_pos (by simp), hidx]
  simp

lemma readLine_none (t : Topology) (number : Nat) {line : Bytes} (h : ∀ f, ¬Gives f line) :
    t.readLine number line = .ok t := by
  simp [Topology.readLine, ofLine?_of_gives_none h]

lemma readLine_field (t : Topology) (number : Nat) {f : Field} {line : Bytes} (h : Gives f line)
    (hs : separator ∈ line) :
    ∃ value, t.readLine number line = .ok (t.set f value) ∧ value.toInt = lineValue line := by
  refine ⟨leadingNumber (line.drop (line.idxOf separator + 1)), ?_, toInt_leadingNumber _⟩
  simp [Topology.readLine, ofLine?_of_gives h, after?_eq, hs]

lemma readLine_fault (t : Topology) (number : Nat) {f : Field} {line : Bytes} (h : Gives f line)
    (hs : separator ∉ line) : t.readLine number line = .error ⟨number, f⟩ := by
  simp [Topology.readLine, ofLine?_of_gives h, after?_eq, hs]

lemma lastValue_cons (f : Field) (line : Bytes) (lines : List Bytes) :
    lastValue f (line :: lines) =
      (lastValue f lines).or (if Gives f line then some (lineValue line) else none) := by
  unfold lastValue
  rw [List.filter_cons]
  by_cases h : Gives f line
  · rw [if_pos (decide_eq_true h), List.getLast?_cons, if_pos h]
    cases (lines.filter (fun line => Gives f line)).getLast? <;> rfl
  · simp [h]

lemma lastValue_eq_none_iff {f : Field} {lines : List Bytes} :
    lastValue f lines = none ↔ ¬∃ line ∈ lines, Gives f line := by
  simp [lastValue]

/-- Lines with their separators are read to the end, and the last value of each field counts. -/
theorem readLines_separated (t : Topology) (number : Nat) (lines : List Bytes)
    (h : ∀ line ∈ lines, Separated line) :
    ∃ t', t.readLines number lines = .ok t' ∧
      ∀ f, (t'.get f).toInt = (lastValue f lines).getD (t.get f).toInt := by
  induction lines generalizing t number with
  | nil => exact ⟨t, rfl, fun f => rfl⟩
  | cons line lines ih =>
    have hlines : ∀ l ∈ lines, Separated l := fun l hl => h l (by simp [hl])
    by_cases hg : ∃ f, Gives f line
    · obtain ⟨f, hf⟩ := hg
      obtain ⟨value, hline, hvalue⟩ := readLine_field t number hf (h line (by simp) f hf)
      obtain ⟨t', hread, hget⟩ := ih (t.set f value) (number + 1) hlines
      refine ⟨t', by simp [Topology.readLines, hline, hread], fun g => ?_⟩
      rw [hget, lastValue_cons]
      by_cases hgf : g = f
      · subst hgf
        cases lastValue g lines <;> simp [hf, hvalue]
      · have hng : ¬Gives g line := fun hg => hgf (hg.unique hf)
        rw [Topology.get_set_of_ne t hgf]
        simp [hng]
    · have hnone : ∀ f, ¬Gives f line := fun f hf => hg ⟨f, hf⟩
      obtain ⟨t', hread, hget⟩ := ih t (number + 1) hlines
      refine ⟨t', by simp [Topology.readLines, readLine_none t number hnone, hread], fun g => ?_⟩
      rw [hget, lastValue_cons]
      simp [hnone g]

theorem readLines_append (t : Topology) (number : Nat) (first second : List Bytes) :
    t.readLines number (first ++ second) =
      (t.readLines number first).bind (fun t' => t'.readLines (number + first.length) second) := by
  induction first generalizing t number with
  | nil => rfl
  | cons line first ih =>
    rw [List.cons_append, Topology.readLines, Topology.readLines]
    cases t.readLine number line with
    | error e => rfl
    | ok t' =>
      dsimp only
      rw [ih, List.length_cons, Nat.add_right_comm, Nat.add_assoc]

/-- The first line without its separator ends the reading. -/
theorem readLines_fault (t : Topology) (number : Nat) (before after : List Bytes) {f : Field}
    {line : Bytes} (hb : ∀ l ∈ before, Separated l) (hf : Gives f line) (hs : separator ∉ line) :
    t.readLines number (before ++ line :: after) = .error ⟨number + before.length, f⟩ := by
  obtain ⟨t', hread, -⟩ := readLines_separated t number before hb
  rw [readLines_append, hread]
  simp [Except.bind, Topology.readLines, readLine_fault t' _ hf hs]

lemma exists_first_fault (lines : List Bytes) (h : ¬∀ line ∈ lines, Separated line) :
    ∃ before line after f, lines = before ++ line :: after ∧ (∀ l ∈ before, Separated l) ∧
      Gives f line ∧ separator ∉ line := by
  induction lines with
  | nil => simp at h
  | cons line lines ih =>
    by_cases hline : Separated line
    · have hlines : ¬∀ l ∈ lines, Separated l := by
        intro hall
        apply h
        simpa [hline] using hall
      obtain ⟨before, bad, after, f, rfl, hbefore, hfault⟩ := ih hlines
      exact ⟨line :: before, bad, after, f, rfl, by simpa [hline] using hbefore, hfault⟩
    · simp only [Separated, not_forall] at hline
      obtain ⟨f, hf, hs⟩ := hline
      exact ⟨[], line, lines, f, rfl, by simp, hf, hs⟩

lemma separated_of_readLines {t t' : Topology} {number : Nat} {lines : List Bytes}
    (h : t.readLines number lines = .ok t') : ∀ line ∈ lines, Separated line := by
  by_contra hall
  obtain ⟨before, line, after, f, rfl, hbefore, hf, hs⟩ := exists_first_fault lines hall
  rw [readLines_fault t number before after hbefore hf hs] at h
  contradiction

/-- What ends the reading is the first line without its separator. -/
lemma exists_fault_of_readLines {t : Topology} {number : Nat} {lines : List Bytes}
    {fault : MissingSeparator} (h : t.readLines number lines = .error fault) :
    ∃ before line after, lines = before ++ line :: after ∧ (∀ l ∈ before, Separated l) ∧
      Gives fault.field line ∧ separator ∉ line ∧ fault.line = number + before.length := by
  have hall : ¬∀ line ∈ lines, Separated line := by
    intro hall
    obtain ⟨t', hread, -⟩ := readLines_separated t number lines hall
    rw [h] at hread
    contradiction
  obtain ⟨before, line, after, f, rfl, hbefore, hf, hs⟩ := exists_first_fault lines hall
  rw [readLines_fault t number before after hbefore hf hs] at h
  obtain rfl := Except.error.inj h
  exact ⟨before, line, after, rfl, hbefore, hf, hs, rfl⟩

/-- Lines that are read to the end leave each field with its last value, or as it was. -/
theorem toInt_get_of_readLines {t t' : Topology} {number : Nat} {lines : List Bytes}
    (h : t.readLines number lines = .ok t') (f : Field) :
    (t'.get f).toInt = (lastValue f lines).getD (t.get f).toInt := by
  obtain ⟨u, hread, hget⟩ := readLines_separated t number lines (separated_of_readLines h)
  rw [h] at hread
  obtain rfl := Except.ok.inj hread
  exact hget f

/-- A text parses if and only if every line that gives a field has a separator. Then each field
has the value of the last line that gives it, or 0. Otherwise the error names the first line
without its separator, counted from 1, and the field it gives. -/
theorem parse_text (s : Bytes) :
    ((∃ t, parse [.data s] = .ok t) ↔ ∀ line ∈ textLines s, Separated line) ∧
    (∀ t, parse [.data s] = .ok t → ∀ f, (t.get f).toInt = (lastValue f (textLines s)).getD 0) ∧
    ((¬∀ line ∈ textLines s, Separated line) →
      ∃ before line after f, textLines s = before ++ line :: after ∧
        (∀ l ∈ before, Separated l) ∧ Gives f line ∧ separator ∉ line ∧
        parse [.data s] = .error (.malformed ⟨before.length + 1, f⟩)) := by
  have hparse := parse_data s
  by_cases h : ∀ line ∈ textLines s, Separated line
  · obtain ⟨t, hread, hget⟩ := readLines_separated {} 1 (textLines s) h
    rw [hread] at hparse
    refine ⟨⟨fun _ => h, fun _ => ⟨t, hparse⟩⟩, fun t' ht' f => ?_, fun hn => absurd h hn⟩
    have he : t' = t := by
      rw [hparse] at ht'
      exact (Except.ok.inj ht').symm
    rw [he, hget]
    cases f <;> rfl
  · obtain ⟨before, line, after, f, hlines, hbefore, hf, hs⟩ := exists_first_fault _ h
    have herror : parse [.data s] = .error (.malformed ⟨before.length + 1, f⟩) := by
      rw [hparse, hlines, readLines_fault {} 1 before after hbefore hf hs, Nat.add_comm]
      rfl
    refine ⟨⟨fun ⟨t, ht⟩ => ?_, fun hall => absurd hall h⟩, fun t ht => ?_, fun _ => ?_⟩
    · rw [herror] at ht
      contradiction
    · rw [herror] at ht
      contradiction
    · exact ⟨before, line, after, f, hlines, hbefore, hf, hs, herror⟩

end CoreCount.Proofs
