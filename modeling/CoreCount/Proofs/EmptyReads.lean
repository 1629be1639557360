import CoreCount.Proofs.LineByLine
import CoreCount.Proofs.LineEnds
import Mathlib.Data.List.DropRight

/-!
# Reads of nothing

A read of nothing that comes amid a line does what a newline would do there. One that comes where a
line begins is the end of all lines, and the reads that follow it are never made.
-/

namespace CoreCount.Proofs
open Cpuinfo

/-- What follows the last newline of a text. -/
def openLine (s : Bytes) : Bytes :=
  s.rtakeWhile (· ≠ Bytes.newline)

/-- The line in progress after some reads, of which `got` is what came in since the last read of
nothing. There is none if a failure or the end of all lines is met among the reads. -/
def lineAfter (got : Bytes) : List Os.Read → Option Bytes
  | [] => some (openLine got)
  | .data bytes :: reads => lineAfter (got ++ bytes) reads
  | .interrupted :: reads => lineAfter got reads
  | .failed _ :: _ => none
  | .nothing :: reads => if openLine got = [] then none else lineAfter [] reads

lemma current_foldl_push {buffer : LineBuffer} {got : Bytes}
    (h : buffer.current = (openLine got).reverse) (bytes : Bytes) :
    (bytes.foldl .push buffer).current = (openLine (got ++ bytes)).reverse := by
  induction bytes using List.reverseRecOn with
  | nil => simpa using h
  | append_singleton bytes b ih =>
    rw [List.foldl_append, List.foldl_cons, List.foldl_nil, ← List.append_assoc, openLine,
      List.rtakeWhile_concat]
    by_cases hb : b = Bytes.newline
    · simp [LineBuffer.push, hb]
    · simp [LineBuffer.push, hb, ih, openLine]

lemma current_endLine (buffer : LineBuffer) : buffer.endLine.current = (openLine []).reverse := by
  unfold LineBuffer.endLine
  split
  · rename_i h
    exact List.isEmpty_iff.mp h
  · rfl

lemma endLine_of_ne_nil (complete : List Bytes) {line : Bytes} (hne : line ≠ []) :
    LineBuffer.endLine ⟨complete, line.reverse⟩ = ⟨line :: complete, []⟩ := by
  simp [LineBuffer.endLine, hne]

/-- Reads that leave a line in progress are made to the last, and the next read finds that line. -/
lemma continueReads_of_lineAfter (buffer : LineBuffer) {got : Bytes}
    (h : buffer.current = (openLine got).reverse) {reads : List Os.Read} {line : Bytes}
    (hline : lineAfter got reads = some line) :
    ∃ complete, ∀ rest, Delivery.continueReads buffer (reads ++ rest) =
      Delivery.continueReads ⟨complete, line.reverse⟩ rest := by
  induction reads generalizing buffer got with
  | nil =>
    obtain rfl : openLine got = line := by simpa [lineAfter] using hline
    exact ⟨buffer.complete, fun rest => by rw [← h]; rfl⟩
  | cons r reads ih =>
    cases r with
    | data bytes => exact ih _ (current_foldl_push h bytes) hline
    | interrupted => exact ih buffer h hline
    | failed cause => simp [lineAfter] at hline
    | nothing =>
      rw [lineAfter] at hline
      split at hline
      · contradiction
      · rename_i hne
        have hcurrent : buffer.current.isEmpty = false := by simpa [h] using hne
        obtain ⟨complete, hrest⟩ := ih _ (current_endLine buffer) hline
        refine ⟨complete, fun rest => ?_⟩
        rw [← hrest rest, List.cons_append, Delivery.continueReads, hcurrent]
        rfl

/-- Reads that leave no line in progress have met what ends them, so none is made after them. -/
lemma continueReads_of_lineAfter_none (buffer : LineBuffer) {got : Bytes}
    (h : buffer.current = (openLine got).reverse) {reads : List Os.Read}
    (hline : lineAfter got reads = none) (rest : List Os.Read) :
    Delivery.continueReads buffer (reads ++ rest) = Delivery.continueReads buffer reads := by
  induction reads generalizing buffer got with
  | nil => simp [lineAfter] at hline
  | cons r reads ih =>
    cases r with
    | data bytes => exact ih _ (current_foldl_push h bytes) hline
    | interrupted => exact ih buffer h hline
    | failed cause => rfl
    | nothing =>
      rw [List.cons_append, Delivery.continueReads, Delivery.continueReads]
      by_cases hcurrent : buffer.current.isEmpty
      · simp [hcurrent]
      · have hne : openLine got ≠ [] := by simpa [h] using hcurrent
        rw [lineAfter, if_neg hne] at hline
        rw [if_neg hcurrent, if_neg hcurrent, ih _ (current_endLine buffer) hline]

lemma continueReads_complete (complete : List Bytes) (line : Bytes) (reads : List Os.Read) :
    Delivery.continueReads ⟨line :: complete, []⟩ reads =
      ⟨complete.reverse ++ line :: (Delivery.ofReads reads).lines,
        (Delivery.ofReads reads).failure?⟩ := by
  have htop := continueReads_onTop {} (line :: complete) reads
  rw [List.reverse_cons, List.append_assoc] at htop
  exact htop

lemma parse_amid_line (pre post : List Os.Read) {line : Bytes}
    (hline : lineAfter [] pre = some line) (hne : line ≠ []) :
    parse (pre ++ .nothing :: post) = parse (pre ++ .data [Bytes.newline] :: post) := by
  obtain ⟨complete, hrest⟩ := continueReads_of_lineAfter {} rfl hline
  have hnothing : Delivery.ofReads (pre ++ .nothing :: post) =
      Delivery.continueReads ⟨line :: complete, []⟩ post := by
    rw [Delivery.ofReads, hrest, Delivery.continueReads, endLine_of_ne_nil complete hne]
    simp [hne]
  have hnewline : Delivery.ofReads (pre ++ .data [Bytes.newline] :: post) =
      Delivery.continueReads ⟨(line ++ [Bytes.newline]) :: complete, []⟩ post := by
    rw [Delivery.ofReads, hrest, Delivery.continueReads]
    simp [LineBuffer.push]
  rw [parse_eq_conclude, parse_eq_conclude, hnothing, hnewline, continueReads_complete,
    continueReads_complete, readLines_append_blanks _ _ _ _ _ _ isBlank_newline]

lemma parse_between_lines (pre post : List Os.Read)
    (h : ∀ line, lineAfter [] pre = some line → line = []) :
    parse (pre ++ .nothing :: post) = parse pre := by
  have hreads : Delivery.ofReads (pre ++ .nothing :: post) = Delivery.ofReads pre := by
    cases hline : lineAfter [] pre with
    | none => exact continueReads_of_lineAfter_none {} rfl hline (.nothing :: post)
    | some line =>
      obtain rfl := h line hline
      obtain ⟨complete, hrest⟩ := continueReads_of_lineAfter {} rfl hline
      have hend := hrest []
      rw [List.append_nil] at hend
      rw [Delivery.ofReads, Delivery.ofReads, hrest, hend]
      rfl
  rw [parse_eq_conclude, parse_eq_conclude, hreads]

/-- A read of nothing, with any reads before and after it, failures and further reads of nothing
included. Where it finds a line in progress it comes to the same as a newline: to the same fields,
or to the same error at the same line. Where it finds none, or is never made, the reads before it
decide, and what follows has no influence. -/
theorem parse_read_nothing (pre post : List Os.Read) :
    (∀ line, lineAfter [] pre = some line → line ≠ [] →
      parse (pre ++ .nothing :: post) = parse (pre ++ .data [Bytes.newline] :: post)) ∧
    ((∀ line, lineAfter [] pre = some line → line = []) →
      parse (pre ++ .nothing :: post) = parse pre) := by
  constructor
  · intro line hline hne
    exact parse_amid_line pre post hline hne
  · intro h
    exact parse_between_lines pre post h

/-- The first read of nothing ends a line without a newline, the second all lines. -/
theorem parse_read_nothing_twice :
    let pre : List Os.Read := [.data (Bytes.ofString "\nsibli"), .interrupted,
      .data (Bytes.ofString "ngs: 16")]
    let post : List Os.Read := [.data (Bytes.ofString "cpu cores\n"), .failed .noSuchEntry]
    let ended : List Os.Read := pre ++ [.nothing]
    (lineAfter [] pre = some (Bytes.ofString "siblings: 16") ∧
      parse (pre ++ .nothing :: post) = parse (pre ++ .data [Bytes.newline] :: post) ∧
      parse (pre ++ .nothing :: post) = .error (.malformed ⟨3, .cpuCores⟩)) ∧
    lineAfter [] ended = some [] ∧ parse (ended ++ .nothing :: post) = parse ended ∧
      parse ended = .ok ⟨16, 0⟩ := by
  intro pre post ended
  have hline : lineAfter [] pre = some (Bytes.ofString "siblings: 16") := by decide
  have hended : lineAfter [] ended = some [] := by decide
  refine ⟨⟨hline, (parse_read_nothing pre post).1 _ hline (by decide), by rfl⟩, hended,
    (parse_read_nothing ended post).2 (fun line h => ?_), by rfl⟩
  rw [hended] at h
  exact (Option.some.inj h).symm

end CoreCount.Proofs
