import CoreCount.Cpuinfo.Parser
import CoreCount.Proofs.Lines

/-!
# What reads deliver

Only the bytes of data reads matter: where one read ends and the next begins does not, nor do
interruptions. A failure keeps the lines that are complete by then, so a malformed line among
them comes before the failure, and what follows the failure is never seen.
-/

namespace CoreCount.Proofs
open Cpuinfo

/-- Reads that deliver bytes or are tried again: they neither fail nor come back empty-handed. -/
def passes : Os.Read → Bool
  | .data _ | .interrupted => true
  | .failed _ | .nothing => false

def readBytes : Os.Read → Bytes
  | .data bytes => bytes
  | .interrupted | .failed _ | .nothing => []

def deliveredBytes (reads : List Os.Read) : Bytes :=
  reads.flatMap readBytes

theorem continueReads_append (buffer : LineBuffer) (reads rest : List Os.Read)
    (h : ∀ r ∈ reads, passes r) :
    Delivery.continueReads buffer (reads ++ rest) =
      Delivery.continueReads ((deliveredBytes reads).foldl .push buffer) rest := by
  induction reads generalizing buffer with
  | nil => rfl
  | cons r reads ih =>
    have hr : passes r := h r (by simp)
    have hreads : ∀ q ∈ reads, passes q := fun q hq => h q (by simp [hq])
    rw [List.cons_append]
    cases r with
    | data bytes =>
      simp only [Delivery.continueReads]
      rw [ih _ hreads]
      simp [deliveredBytes, readBytes]
    | interrupted =>
      simp only [Delivery.continueReads]
      rw [ih _ hreads]
      simp [deliveredBytes, readBytes]
    | failed cause => simp [passes] at hr
    | nothing => simp [passes] at hr

lemma holds_delivered (reads : List Os.Read) :
    Holds ((deliveredBytes reads).foldl .push {}) (deliveredBytes reads) := by
  simpa using holds_empty.push_all (deliveredBytes reads)

theorem ofReads_passing (reads : List Os.Read) (h : ∀ r ∈ reads, passes r) :
    Delivery.ofReads reads = ⟨textLines (deliveredBytes reads), none⟩ := by
  have happend := continueReads_append {} reads [] h
  rw [List.append_nil] at happend
  rw [Delivery.ofReads, happend, Delivery.continueReads, (holds_delivered reads).lines_endLine]

theorem ofReads_failed (pre post : List Os.Read) (cause : Os.Failure) (part : Bytes)
    (h : ∀ r ∈ pre, passes r) (hp : LongestFinished part (deliveredBytes pre)) :
    Delivery.ofReads (pre ++ .failed cause :: post) = ⟨textLines part, some cause⟩ := by
  rw [Delivery.ofReads, continueReads_append {} pre _ h, Delivery.continueReads,
    (holds_delivered pre).lines_eq hp]

/-- The result of lines that are read to their end or to a fault, and of what broke them off. -/
def conclude : Except MissingSeparator Topology → Option Os.Failure → Except Error Topology
  | .error fault, _ => .error (.malformed fault)
  | .ok _, some cause => .error (.unreadable cause)
  | .ok t, none => .ok t

theorem parse_eq_conclude (reads : List Os.Read) :
    parse reads =
      conclude (Topology.readLines {} 1 (Delivery.ofReads reads).lines)
        (Delivery.ofReads reads).failure? := rfl

theorem parse_passing (reads : List Os.Read) (h : ∀ r ∈ reads, passes r) :
    parse reads = conclude (Topology.readLines {} 1 (textLines (deliveredBytes reads))) none := by
  rw [parse_eq_conclude, ofReads_passing reads h]

theorem parse_data (s : Bytes) :
    parse [.data s] = conclude (Topology.readLines {} 1 (textLines s)) none := by
  simpa [deliveredBytes, readBytes] using parse_passing [.data s] (by simp [passes])

lemma parse_data_eq_ok_iff {s : Bytes} {t : Topology} :
    parse [.data s] = .ok t ↔ Topology.readLines {} 1 (textLines s) = .ok t := by
  rw [parse_data]
  cases Topology.readLines {} 1 (textLines s) <;> simp [conclude]

lemma parse_data_eq_error_iff {s : Bytes} {e : Error} :
    parse [.data s] = .error e ↔
      ∃ fault, Topology.readLines {} 1 (textLines s) = .error fault ∧ e = .malformed fault := by
  rw [parse_data]
  cases Topology.readLines {} 1 (textLines s) with
  | error fault => simp [conclude, eq_comm]
  | ok t => simp [conclude]

/-- How the bytes are delivered does not matter: cut into any reads, empty ones included, with
interruptions anywhere, they are parsed as one piece. -/
theorem parse_eq_parse_whole (reads : List Os.Read) (h : ∀ r ∈ reads, passes r) :
    parse reads = parse [.data (deliveredBytes reads)] := by
  rw [parse_passing reads h, parse_data]

/-- A label, a number and the end of a line fall into different reads. -/
theorem parse_eq_parse_whole_scattered :
    let reads : List Os.Read := [.data (Bytes.ofString "sibli"), .interrupted,
      .data (Bytes.ofString "ngs\t"), .data [], .data (Bytes.ofString ": 1"), .interrupted,
      .data (Bytes.ofString "6"), .data (Bytes.ofString "\ncpu cores: 8")]
    (∀ r ∈ reads, passes r) ∧ parse reads = .ok ⟨16, 8⟩ ∧
      parse [.data (Bytes.ofString "siblings\t: 16\ncpu cores: 8")] = .ok ⟨16, 8⟩ := by
  intro reads
  have h : ∀ r ∈ reads, passes r := by decide
  have hwhole := parse_eq_parse_whole reads h
  have hbytes : deliveredBytes reads = Bytes.ofString "siblings\t: 16\ncpu cores: 8" := by decide
  have hparse : parse reads = .ok ⟨16, 8⟩ := by rfl
  exact ⟨h, hparse, by rw [← hbytes, ← hwhole, hparse]⟩

/-- A failed read comes after the complete lines before it. A malformed one among them is what is
reported; otherwise the failure is, whatever the fields, the line in progress and the reads that
follow hold. A failure leaves no topology. -/
theorem parse_failed (pre post : List Os.Read) (cause : Os.Failure) (part : Bytes)
    (h : ∀ r ∈ pre, passes r) (hp : LongestFinished part (deliveredBytes pre)) :
    (∀ fault, parse [.data part] = .error (.malformed fault) →
      parse (pre ++ .failed cause :: post) = .error (.malformed fault)) ∧
    ((∀ fault, parse [.data part] ≠ .error (.malformed fault)) →
      parse (pre ++ .failed cause :: post) = .error (.unreadable cause)) ∧
    ∀ t, parse (pre ++ .failed cause :: post) ≠ .ok t := by
  have hpart := parse_data part
  have hwhole := parse_eq_conclude (pre ++ .failed cause :: post)
  rw [ofReads_failed pre post cause part h hp] at hwhole
  cases hlines : Topology.readLines {} 1 (textLines part) with
  | error fault =>
    simp only [hlines, conclude] at hpart hwhole
    rw [hpart, hwhole]
    simp
  | ok t =>
    simp only [hlines, conclude] at hpart hwhole
    rw [hpart, hwhole]
    simp

/-- The complete line sets a field and the unfinished one lacks its separator: neither shows. -/
theorem parse_failed_unfinished :
    let pre : List Os.Read := [.data (Bytes.ofString "cpu cores: 2\nsib"), .interrupted,
      .data (Bytes.ofString "lings 8")]
    let cause : Os.Failure := .reported "device lost"
    (∀ r ∈ pre, passes r) ∧
      LongestFinished (Bytes.ofString "cpu cores: 2\n") (deliveredBytes pre) ∧
      parse [.data (Bytes.ofString "cpu cores: 2\n")] = .ok ⟨0, 2⟩ ∧
      parse (pre ++ [.failed cause, .data (Bytes.ofString "\n")]) = .error (.unreadable cause) := by
  intro pre cause
  have h : ∀ r ∈ pre, passes r := by decide
  have hp : LongestFinished (Bytes.ofString "cpu cores: 2\n") (deliveredBytes pre) :=
    (holds_delivered pre).longestFinished
  have hpart : parse [.data (Bytes.ofString "cpu cores: 2\n")] = .ok ⟨0, 2⟩ := by rfl
  refine ⟨h, hp, hpart, (parse_failed pre _ cause _ h hp).2.1 (fun fault hf => ?_)⟩
  rw [hpart] at hf
  contradiction

end CoreCount.Proofs
