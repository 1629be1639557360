import CoreCount.Cpuinfo.Lines
import Mathlib.Data.List.SplitBy

/-!
# Lines of a text

`textLines` cuts a text after each newline, without a buffer and without an order of reading.
A buffer that has been given a text byte by byte holds exactly its lines: the complete ones are
those of the longest finished part, and ending the line in progress adds the rest. What is said of a
text by its lines is proved line by line, with `line_induction`.
-/

namespace CoreCount.Proofs
open Cpuinfo

/-- A text cut after each newline. Only the last line may lack one. -/
def textLines (s : Bytes) : List Bytes :=
  s.splitBy (fun b _ => b ≠ Bytes.newline)

def EndsLine (s : Bytes) : Prop :=
  ∀ b ∈ s.getLast?, b = Bytes.newline

/-- The longest part at the start of a text that is empty or ends with a newline. -/
structure LongestFinished (part s : Bytes) : Prop where
  start : part <+: s
  ends : EndsLine part
  longest : ∀ other, other <+: s → EndsLine other → other.length ≤ part.length

theorem textLines_append {s : Bytes} (hs : EndsLine s) (t : Bytes) :
    textLines (s ++ t) = textLines s ++ textLines t := by
  apply List.splitBy_append
  intro b hb c hc
  simp [hs b hb]

theorem textLines_singleton {s : Bytes} (hne : s ≠ []) (hs : Bytes.newline ∉ s.dropLast) :
    textLines s = [s] := by
  apply List.splitBy_of_isChain hne
  rw [List.isChain_iff_getElem]
  intro i hi
  have hmem : s[i] ∈ s.dropLast := by
    rw [← List.getElem_dropLast (by simp; omega)]
    exact List.getElem_mem _
  have hb : s[i] ≠ Bytes.newline := fun h => hs (h ▸ hmem)
  simp [hb]

lemma textLines_ended {s : Bytes} (h : Bytes.newline ∉ s) :
    textLines (s ++ [Bytes.newline]) = [s ++ [Bytes.newline]] := by
  apply textLines_singleton (by simp)
  simpa using h

lemma textLines_unended {s : Bytes} (hne : s ≠ []) (h : Bytes.newline ∉ s) : textLines s = [s] :=
  textLines_singleton hne (fun hmem => h (List.dropLast_subset _ hmem))

lemma textLines_cons_line {s : Bytes} (h : Bytes.newline ∉ s) (t : Bytes) :
    textLines (s ++ Bytes.newline :: t) = (s ++ [Bytes.newline]) :: textLines t := by
  have hsplit : s ++ Bytes.newline :: t = (s ++ [Bytes.newline]) ++ t := by simp
  rw [hsplit, textLines_append (by simp [EndsLine]), textLines_ended h]
  rfl

/-- Induction line by line: a text has no newline, or it is a line and a further text. -/
@[elab_as_elim]
theorem line_induction {motive : Bytes → Prop} (unended : ∀ s, Bytes.newline ∉ s → motive s)
    (line : ∀ content s, Bytes.newline ∉ content → motive s →
      motive (content ++ Bytes.newline :: s)) (s : Bytes) : motive s := by
  induction hn : s.length using Nat.strong_induction_on generalizing s with
  | _ n ih =>
    by_cases hs : Bytes.newline ∈ s
    · obtain ⟨content, rest, rfl, hcontent⟩ := List.eq_append_cons_of_mem hs
      apply line content rest hcontent
      apply ih rest.length _ rest rfl
      rw [← hn, List.length_append, List.length_cons]
      omega
    · exact unended s hs

lemma EndsLine.of_append {s t : Bytes} (h : EndsLine (s ++ t)) : EndsLine t := by
  by_cases ht : t = []
  · simp [EndsLine, ht]
  · intro b hb
    apply h
    rwa [List.getLast?_append_of_ne_nil _ ht]

lemma EndsLine.eq_nil {s : Bytes} (h : EndsLine s) (hs : Bytes.newline ∉ s) : s = [] := by
  by_contra hne
  have hlast : s.getLast hne = Bytes.newline :=
    h _ (List.getLast?_eq_some_getLast hne)
  exact hs (hlast ▸ List.getLast_mem hne)

/-- A text that ends its last line has as many lines as newlines. -/
theorem length_textLines {s : Bytes} (h : EndsLine s) :
    (textLines s).length = s.count Bytes.newline := by
  induction s using line_induction with
  | unended s hs => simp [h.eq_nil hs, textLines]
  | line content s hcontent ih =>
    have hrest : EndsLine s := EndsLine.of_append (s := content ++ [Bytes.newline]) (by simpa using h)
    rw [textLines_cons_line hcontent, List.length_cons, ih hrest, List.count_append,
      List.count_eq_zero_of_not_mem hcontent, List.count_cons_self, Nat.zero_add]

lemma textLines_flatten (contents : List Bytes) (h : ∀ s ∈ contents, Bytes.newline ∉ s) :
    textLines (contents.map (· ++ [Bytes.newline])).flatten =
      contents.map (· ++ [Bytes.newline]) := by
  induction contents with
  | nil => rfl
  | cons s contents ih =>
    have hcontents : ∀ r ∈ contents, Bytes.newline ∉ r := fun r hr => h r (by simp [hr])
    rw [List.map_cons, List.flatten_cons, textLines_append (by simp [EndsLine]),
      textLines_ended (h s (by simp)), ih hcontents]
    rfl

example : textLines (Bytes.ofString "a\n\nb") = ["a\n", "\n", "b"].map Bytes.ofString := by decide

lemma LongestFinished.unique {part other s : Bytes} (hp : LongestFinished part s)
    (ho : LongestFinished other s) : part = other := by
  have hle := hp.longest other ho.start ho.ends
  have hge := ho.longest part hp.start hp.ends
  exact (List.prefix_of_prefix_length_le hp.start ho.start hge).eq_of_length (by omega)

/-- What a buffer holds of a text: complete lines, and a rest without a newline. -/
structure Holds (buffer : LineBuffer) (s : Bytes) : Prop where
  text : buffer.lines.flatten ++ buffer.current.reverse = s
  cut : textLines buffer.lines.flatten = buffer.lines
  ends : EndsLine buffer.lines.flatten
  inProgress : Bytes.newline ∉ buffer.current

lemma holds_empty : Holds {} [] where
  text := rfl
  cut := rfl
  ends := by simp [EndsLine, LineBuffer.lines]
  inProgress := by simp

lemma lines_push_newline (buffer : LineBuffer) :
    (buffer.push Bytes.newline).lines =
      buffer.lines ++ [buffer.current.reverse ++ [Bytes.newline]] := by
  simp [LineBuffer.push, LineBuffer.lines]

lemma Holds.push {buffer : LineBuffer} {s : Bytes} (h : Holds buffer s) (b : UInt8) :
    Holds (buffer.push b) (s ++ [b]) := by
  by_cases hb : b = Bytes.newline
  · subst hb
    have hline : textLines (buffer.current.reverse ++ [Bytes.newline]) =
        [buffer.current.reverse ++ [Bytes.newline]] :=
      textLines_ended (by simpa using h.inProgress)
    refine ⟨?_, ?_, ?_, ?_⟩
    · rw [lines_push_newline, ← h.text]
      simp [LineBuffer.push]
    · rw [lines_push_newline, List.flatten_append, textLines_append h.ends, h.cut]
      simp [hline]
    · rw [lines_push_newline]
      simp [EndsLine]
    · simp [LineBuffer.push]
  · have hpush : buffer.push b = ⟨buffer.complete, b :: buffer.current⟩ := by
      simp [LineBuffer.push, hb]
    rw [hpush]
    refine ⟨?_, h.cut, h.ends, ?_⟩
    · rw [← h.text]
      simp [LineBuffer.lines]
    · simp only [List.mem_cons, not_or]
      exact ⟨fun he => hb he.symm, h.inProgress⟩

lemma Holds.push_all {buffer : LineBuffer} {s : Bytes} (h : Holds buffer s) (t : Bytes) :
    Holds (t.foldl .push buffer) (s ++ t) := by
  induction t generalizing buffer s with
  | nil => simpa using h
  | cons b t ih => simpa using ih (h.push b)

/-- Ending the line in progress leaves the lines of the whole text. -/
lemma Holds.lines_endLine {buffer : LineBuffer} {s : Bytes} (h : Holds buffer s) :
    buffer.endLine.lines = textLines s := by
  rw [← h.text, textLines_append h.ends, h.cut]
  by_cases hc : buffer.current = []
  · simp [LineBuffer.endLine, hc, textLines]
  · have hline : textLines buffer.current.reverse = [buffer.current.reverse] :=
      textLines_unended (by simpa using hc) (by simpa using h.inProgress)
    simp [LineBuffer.endLine, LineBuffer.lines, hc, hline]

lemma Holds.longestFinished {buffer : LineBuffer} {s : Bytes} (h : Holds buffer s) :
    LongestFinished buffer.lines.flatten s := by
  refine ⟨⟨_, h.text⟩, h.ends, fun other ho hends => ?_⟩
  by_contra hlt
  have hstart : buffer.lines.flatten <+: other :=
    List.prefix_of_prefix_length_le ⟨_, h.text⟩ ho (by omega)
  obtain ⟨more, rfl⟩ := hstart
  have hmore : more <+: buffer.current.reverse := by
    rw [← h.text] at ho
    exact (List.prefix_append_right_inj _).mp ho
  have hne : more ≠ [] := by
    rintro rfl
    simp at hlt
  -- the part beyond the complete lines would end with a newline of the line in progress
  have hlast : more.getLast hne = Bytes.newline := by
    apply hends
    rw [List.getLast?_append_of_ne_nil _ hne, List.getLast?_eq_getLast_of_ne_nil hne]
    rfl
  have hmem : Bytes.newline ∈ more := hlast ▸ List.getLast_mem hne
  exact h.inProgress (List.mem_reverse.mp (hmore.subset hmem))

lemma Holds.lines_eq {buffer : LineBuffer} {s part : Bytes} (h : Holds buffer s)
    (hp : LongestFinished part s) : buffer.lines = textLines part := by
  rw [← h.longestFinished.unique hp, h.cut]

end CoreCount.Proofs
