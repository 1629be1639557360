import CoreCount.Proofs.Delivery

/-!
# Reading line by line

Parsing does not need all lines before it starts. `parseByLine` asks for one line at a time, reads
its field and goes on with the reads that are left; it stops at the first malformed line or failure
and asks for nothing more. It comes to the same result.
-/

namespace CoreCount.Proofs
open Cpuinfo

/-- The next line, which begins with the bytes got so far, and the reads that are left. No bytes
mean that there is no line. -/
def nextLine (got : Bytes) : List Os.Read → Except Os.Failure (Bytes × List Os.Read)
  | [] => .ok (got, [])
  | .data bytes :: reads =>
    if Bytes.newline ∈ bytes then
      let n := bytes.idxOf Bytes.newline + 1
      .ok (got ++ bytes.take n, .data (bytes.drop n) :: reads)
    else nextLine (got ++ bytes) reads
  | .interrupted :: reads => nextLine got reads
  | .failed cause :: _ => .error cause
  | .nothing :: reads => .ok (got, reads)

def readsSize : List Os.Read → Nat
  | [] => 0
  | r :: reads => (readBytes r).length + 1 + readsSize reads

lemma readsSize_nextLine (got line : Bytes) (reads rest : List Os.Read)
    (h : nextLine got reads = .ok (line, rest)) :
    readsSize rest ≤ readsSize reads ∧ (line ≠ got → readsSize rest < readsSize reads) := by
  induction reads generalizing got with
  | nil =>
    simp only [nextLine, Except.ok.injEq, Prod.mk.injEq] at h
    obtain ⟨rfl, rfl⟩ := h
    simp
  | cons r reads ih =>
    cases r with
    | data bytes =>
      rw [nextLine] at h
      split at h
      · rename_i hmem
        have hlt := List.idxOf_lt_length_of_mem hmem
        simp only [Except.ok.injEq, Prod.mk.injEq] at h
        obtain ⟨-, rfl⟩ := h
        simp only [readsSize, readBytes, List.length_drop]
        omega
      · have hi := (ih _ h).1
        simp only [readsSize, readBytes]
        omega
    | interrupted =>
      have hi := (ih got h).1
      simp only [readsSize, readBytes]
      omega
    | failed cause => simp [nextLine] at h
    | nothing =>
      simp only [nextLine, Except.ok.injEq, Prod.mk.injEq] at h
      obtain ⟨rfl, rfl⟩ := h
      simp only [readsSize, readBytes]
      omega

def parseByLine (t : Topology) (number : Nat) (reads : List Os.Read) : Except Error Topology :=
  match _h : nextLine [] reads with
  | .error cause => .error (.unreadable cause)
  | .ok (line, rest) =>
    if _hline : line = [] then .ok t
    else
      match t.readLine number line with
      | .error fault => .error (.malformed fault)
      | .ok t' => parseByLine t' (number + 1) rest
termination_by readsSize reads
decreasing_by exact (readsSize_nextLine [] line reads rest _h).2 _hline

lemma push_rest (complete : List Bytes) (current s : Bytes) (hs : Bytes.newline ∉ s) :
    s.foldl .push ⟨complete, current⟩ = (⟨complete, s.reverse ++ current⟩ : LineBuffer) := by
  induction s generalizing current with
  | nil => rfl
  | cons b s ih =>
    simp only [List.mem_cons, not_or] at hs
    have hb : b ≠ Bytes.newline := fun he => hs.1 he.symm
    simp [LineBuffer.push, hb, ih _ hs.2]

lemma push_line (complete : List Bytes) (current s : Bytes) (hs : Bytes.newline ∉ s) :
    (s ++ [Bytes.newline]).foldl .push ⟨complete, current⟩ =
      (⟨(current.reverse ++ s ++ [Bytes.newline]) :: complete, []⟩ : LineBuffer) := by
  rw [List.foldl_append, push_rest complete current s hs]
  simp [LineBuffer.push]

/-- A buffer with lines that were complete before. -/
def onTop (buffer : LineBuffer) (earlier : List Bytes) : LineBuffer :=
  ⟨buffer.complete ++ earlier, buffer.current⟩

lemma push_onTop (buffer : LineBuffer) (earlier : List Bytes) (b : UInt8) :
    (onTop buffer earlier).push b = onTop (buffer.push b) earlier := by
  unfold LineBuffer.push onTop
  split <;> rfl

lemma foldl_push_onTop (buffer : LineBuffer) (earlier : List Bytes) (s : Bytes) :
    s.foldl .push (onTop buffer earlier) = onTop (s.foldl .push buffer) earlier := by
  induction s generalizing buffer with
  | nil => rfl
  | cons b s ih => rw [List.foldl_cons, List.foldl_cons, push_onTop, ih]

lemma endLine_onTop (buffer : LineBuffer) (earlier : List Bytes) :
    (onTop buffer earlier).endLine = onTop buffer.endLine earlier := by
  unfold LineBuffer.endLine onTop
  dsimp only
  split <;> rfl

lemma lines_onTop (buffer : LineBuffer) (earlier : List Bytes) :
    (onTop buffer earlier).lines = earlier.reverse ++ buffer.lines := by
  simp [LineBuffer.lines, onTop]

lemma continueReads_onTop (buffer : LineBuffer) (earlier : List Bytes) (reads : List Os.Read) :
    Delivery.continueReads (onTop buffer earlier) reads =
      ⟨earlier.reverse ++ (Delivery.continueReads buffer reads).lines,
        (Delivery.continueReads buffer reads).failure?⟩ := by
  induction reads generalizing buffer with
  | nil => simp only [Delivery.continueReads, endLine_onTop, lines_onTop]
  | cons r reads ih =>
    cases r with
    | data bytes => simp only [Delivery.continueReads, foldl_push_onTop, ih]
    | interrupted => simp only [Delivery.continueReads, ih]
    | failed cause => simp only [Delivery.continueReads, lines_onTop]
    | nothing =>
      have hcurrent : (onTop buffer earlier).current = buffer.current := rfl
      simp only [Delivery.continueReads, hcurrent]
      split
      · rw [lines_onTop]
      · rw [endLine_onTop, ih]

/-- What is delivered, told from the next line on. -/
def deliverFrom : Except Os.Failure (Bytes × List Os.Read) → Delivery
  | .error cause => ⟨[], some cause⟩
  | .ok (line, rest) => if line = [] then ⟨[], none⟩ else Delivery.continueReads ⟨[line], []⟩ rest

lemma continueReads_eq_deliverFrom (got : Bytes) (hgot : Bytes.newline ∉ got)
    (reads : List Os.Read) :
    Delivery.continueReads ⟨[], got.reverse⟩ reads = deliverFrom (nextLine got reads) := by
  induction reads generalizing got with
  | nil =>
    by_cases h : got = []
    · subst h
      rfl
    · simp [nextLine, deliverFrom, Delivery.continueReads, LineBuffer.endLine, LineBuffer.lines, h]
  | cons r reads ih =>
    cases r with
    | data bytes =>
      by_cases hmem : Bytes.newline ∈ bytes
      · obtain ⟨first, rest, rfl, hfirst⟩ := List.eq_append_cons_of_mem hmem
        have hsplit : first ++ Bytes.newline :: rest = (first ++ [Bytes.newline]) ++ rest := by simp
        have hidx : (first ++ Bytes.newline :: rest).idxOf Bytes.newline + 1 =
            (first ++ [Bytes.newline]).length := by
          rw [List.idxOf_append_of_notMem hfirst]
          simp
        rw [nextLine, if_pos hmem]
        dsimp only
        rw [hidx, hsplit, List.take_left, List.drop_left, Delivery.continueReads,
          List.foldl_append, push_line [] got.reverse first hfirst]
        simp [deliverFrom, Delivery.continueReads]
      · have hi := ih (got ++ bytes) (by simp [hgot, hmem])
        rw [nextLine, if_neg hmem, ← hi, Delivery.continueReads,
          push_rest [] got.reverse bytes hmem, List.reverse_append]
    | interrupted => exact ih got hgot
    | failed cause => rfl
    | nothing =>
      by_cases h : got = []
      · subst h
        rfl
      · simp [nextLine, deliverFrom, Delivery.continueReads, LineBuffer.endLine, h]

theorem parseByLine_eq_conclude (t : Topology) (number : Nat) (reads : List Os.Read) :
    parseByLine t number reads =
      conclude (t.readLines number (Delivery.ofReads reads).lines)
        (Delivery.ofReads reads).failure? := by
  have hnext (reads : List Os.Read) :
      Delivery.ofReads reads = deliverFrom (nextLine [] reads) :=
    continueReads_eq_deliverFrom [] (by simp) reads
  have hline (line : Bytes) (rest : List Os.Read) :
      Delivery.continueReads ⟨[line], []⟩ rest =
        ⟨line :: (Delivery.ofReads rest).lines, (Delivery.ofReads rest).failure?⟩ :=
    continueReads_onTop {} [line] rest
  fun_induction parseByLine t number reads with
  | case1 t number reads cause h => simp [hnext, h, deliverFrom, Topology.readLines, conclude]
  | case2 t number reads rest h => simp [hnext, h, deliverFrom, Topology.readLines, conclude]
  | case3 t number reads line rest h hne fault hread =>
    simp [hnext reads, h, deliverFrom, hne, hline, Topology.readLines, hread, conclude]
  | case4 t number reads line rest h hne t' hread ih =>
    simp [hnext reads, h, deliverFrom, hne, hline, Topology.readLines, hread, ih]

/-- Parsing all lines that are delivered and parsing line by line come to the same. -/
theorem parse_eq_parseByLine (reads : List Os.Read) : parse reads = parseByLine {} 1 reads := by
  rw [parse_eq_conclude, parseByLine_eq_conclude]

end CoreCount.Proofs
