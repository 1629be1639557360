import CoreCount.Proofs.LineEnds

/-!
# Line breaks

A newline after the whole text, or a carriage return before every newline, leaves the lines of a text
as they are but for blanks at their ends. So it changes nothing of what the text is parsed to, and no
line has another number than before.
-/

namespace CoreCount.Proofs
open Cpuinfo

def carriageReturn : UInt8 := 13

/-- A text whose lines end with a carriage return and a newline instead of a newline. -/
def withReturns (s : Bytes) : Bytes :=
  s.flatMap (fun b => if b = Bytes.newline then [carriageReturn, Bytes.newline] else [b])

lemma withReturns_of_notMem {s : Bytes} (h : Bytes.newline ∉ s) : withReturns s = s := by
  induction s with
  | nil => rfl
  | cons b s ih =>
    simp only [List.mem_cons, not_or] at h
    have hb : b ≠ Bytes.newline := fun he => h.1 he.symm
    have hs : withReturns (b :: s) = b :: withReturns s := by simp [withReturns, hb]
    rw [hs, ih h.2]

lemma withReturns_cons_line {content : Bytes} (h : Bytes.newline ∉ content) (s : Bytes) :
    withReturns (content ++ Bytes.newline :: s) =
      (content ++ [carriageReturn]) ++ Bytes.newline :: withReturns s := by
  have happend : withReturns (content ++ Bytes.newline :: s) =
      withReturns content ++ carriageReturn :: Bytes.newline :: withReturns s := by
    simp [withReturns]
  rw [happend, withReturns_of_notMem h]
  simp

/-- Two texts are read alike if they come to the same after anything that has been read before. -/
def ReadAlike (s s' : Bytes) : Prop :=
  ∀ (t : Topology) (number : Nat),
    t.readLines number (textLines s) = t.readLines number (textLines s')

lemma ReadAlike.parse_eq {s s' : Bytes} (h : ReadAlike s s') :
    parse [.data s] = parse [.data s'] := by
  rw [parse_data, parse_data, h]

/-- A line may have blanks before its newline. -/
lemma ReadAlike.cons_line {s s' content : Bytes} (h : ReadAlike s s')
    (hcontent : Bytes.newline ∉ content) (blanks : Bytes) (hb : ∀ b ∈ blanks, isBlank b)
    (hblanks : Bytes.newline ∉ blanks) :
    ReadAlike ((content ++ blanks) ++ Bytes.newline :: s) (content ++ Bytes.newline :: s') := by
  intro t number
  have hends : ∀ b ∈ blanks ++ [Bytes.newline], isBlank b := by
    intro b hmem
    rcases List.mem_append.mp hmem with hmem | hmem
    · exact hb b hmem
    · exact isBlank_newline b hmem
  have hline : t.readLine number (content ++ blanks ++ [Bytes.newline]) =
      t.readLine number (content ++ [Bytes.newline]) := by
    rw [List.append_assoc, readLine_append_blanks t number content _ hends,
      readLine_append_blanks t number content _ isBlank_newline]
  rw [textLines_cons_line (by simp [hcontent, hblanks]), textLines_cons_line hcontent,
    Topology.readLines, Topology.readLines, hline]
  cases t.readLine number (content ++ [Bytes.newline]) with
  | error fault => rfl
  | ok t' => exact h t' (number + 1)

lemma readAlike_append_newline (s : Bytes) : ReadAlike (s ++ [Bytes.newline]) s := by
  induction s using line_induction with
  | unended s hs =>
    intro t number
    rw [textLines_ended hs]
    by_cases hne : s = []
    · subst hne
      exact readLines_append_blanks t number [] [] [] _ isBlank_newline
    · rw [textLines_unended hne hs]
      exact readLines_append_blanks t number [] [] s _ isBlank_newline
  | line content s hcontent ih =>
    have hcons := ih.cons_line hcontent [] (by simp) (by simp)
    simpa using hcons

lemma readAlike_withReturns (s : Bytes) : ReadAlike (withReturns s) s := by
  induction s using line_induction with
  | unended s hs =>
    rw [withReturns_of_notMem hs]
    exact fun t number => rfl
  | line content s hcontent ih =>
    rw [withReturns_cons_line hcontent]
    have hreturn : ∀ b ∈ [carriageReturn], isBlank b := List.forall_mem_singleton.mpr (by decide)
    exact ih.cons_line hcontent [carriageReturn] hreturn (by decide)

/-- A newline at the end of a text changes nothing, whether or not the text ends with one already,
and neither do carriage returns before all newlines: the text is parsed to the same fields, or to the
same malformed line and field. -/
theorem parse_line_breaks (s : Bytes) :
    parse [.data (s ++ [Bytes.newline])] = parse [.data s] ∧
      parse [.data (withReturns s)] = parse [.data s] :=
  ⟨(readAlike_append_newline s).parse_eq, (readAlike_withReturns s).parse_eq⟩

example : withReturns (Bytes.ofString "siblings\n\ncpu") = Bytes.ofString "siblings\r\n\r\ncpu" := by
  decide

end CoreCount.Proofs
