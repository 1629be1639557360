import CoreCount.Proofs.ParseMeaning
import Mathlib.Order.Basic

/-!
# Texts joined where a line ends

A text that begins where a line of another ends is read as it is read alone, but for two things: its
lines are counted on, and the fields that none of its lines gives keep the values they have. So a block
of lines that is repeated gives what it gives once.
-/

namespace CoreCount.Proofs
open Cpuinfo

/-- Lines that can be read from the start can be read after anything: they set the fields that they
give, and leave the others. -/
lemma readLines_ok_after {m : Nat} {lines : List Bytes} {u : Topology}
    (h : Topology.readLines {} m lines = .ok u) (t : Topology) (number : Nat) :
    ∃ v, t.readLines number lines = .ok v ∧
      ∀ f, v.get f = if ∃ line ∈ lines, Gives f line then u.get f else t.get f := by
  obtain ⟨v, hread, hget⟩ := readLines_separated t number lines (separated_of_readLines h)
  refine ⟨v, hread, fun f => Int32.toInt_inj.mp ?_⟩
  have hu := toInt_get_of_readLines h f
  rw [hget f]
  cases hlast : lastValue f lines with
  | none => rw [if_neg (lastValue_eq_none_iff.mp hlast), Option.getD_none]
  | some value =>
    have hgives : ∃ line ∈ lines, Gives f line := by
      by_contra hnone
      rw [lastValue_eq_none_iff.mpr hnone] at hlast
      contradiction
    rw [if_pos hgives, hu, hlast, Option.getD_some, Option.getD_some]

/-- What is malformed is so after anything, as many lines further on as come before. -/
lemma readLines_error_after {t : Topology} {m : Nat} {lines : List Bytes}
    {fault : MissingSeparator} (h : t.readLines m lines = .error fault) (u : Topology) (k : Nat) :
    u.readLines (k + m) lines = .error ⟨k + fault.line, fault.field⟩ := by
  obtain ⟨before, line, after, rfl, hbefore, hf, hs, hline⟩ := exists_fault_of_readLines h
  rw [readLines_fault u (k + m) before after hbefore hf hs, hline, Nat.add_assoc]

section Joined
variable {a : Bytes} (ha : EndsLine a)
include ha

lemma parse_joined (b : Bytes) :
    parse [.data (a ++ b)] =
      conclude ((Topology.readLines {} 1 (textLines a)).bind
        (fun t => t.readLines (a.count Bytes.newline + 1) (textLines b))) none := by
  rw [parse_data, textLines_append ha, readLines_append, length_textLines ha, Nat.add_comm 1]

lemma parse_joined_of_error {e : Error} (h : parse [.data a] = .error e) (b : Bytes) :
    parse [.data (a ++ b)] = .error e := by
  obtain ⟨fault, hread, rfl⟩ := parse_data_eq_error_iff.mp h
  rw [parse_joined ha, hread]
  rfl

lemma parse_joined_of_malformed {t : Topology} {b : Bytes} {fault : MissingSeparator}
    (h : parse [.data a] = .ok t) (hb : parse [.data b] = .error (.malformed fault)) :
    parse [.data (a ++ b)] =
      .error (.malformed ⟨a.count Bytes.newline + fault.line, fault.field⟩) := by
  obtain ⟨_, hfault, he⟩ := parse_data_eq_error_iff.mp hb
  obtain rfl := Error.malformed.inj he
  rw [parse_joined ha, parse_data_eq_ok_iff.mp h]
  have hread := readLines_error_after hfault t (a.count Bytes.newline)
  simp only [Except.bind, hread, conclude]

lemma parse_joined_of_ok {t u : Topology} {b : Bytes} (h : parse [.data a] = .ok t)
    (hb : parse [.data b] = .ok u) :
    ∃ v, parse [.data (a ++ b)] = .ok v ∧
      ∀ f, v.get f = if ∃ line ∈ textLines b, Gives f line then u.get f else t.get f := by
  obtain ⟨v, hread, hget⟩ := readLines_ok_after (parse_data_eq_ok_iff.mp hb) t
    (a.count Bytes.newline + 1)
  refine ⟨v, ?_, hget⟩
  rw [parse_joined ha, parse_data_eq_ok_iff.mp h]
  simp only [Except.bind, hread, conclude]

/-- Each further copy of a block meets the fault that the block has, or sets the fields once more to
the values they have. -/
lemma parse_repeated {n : Nat} (hn : 1 ≤ n) :
    parse [.data (List.replicate n a).flatten] = parse [.data a] := by
  induction n, hn using Nat.le_induction with
  | base => simp
  | succ n hn ih =>
    rw [List.replicate_succ, List.flatten_cons]
    cases h : parse [.data a] with
    | error e => exact parse_joined_of_error ha h _
    | ok t =>
      rw [h] at ih
      obtain ⟨v, hread, hget⟩ := parse_joined_of_ok ha h ih
      have hv : v = t := by
        apply Topology.ext_get
        intro f
        rw [hget f, ite_self]
      rw [hread, hv]

end Joined

/-- A text `a` that is empty or ends its last line, joined with any text `b`. An error of `a` is the
error of both. Otherwise a malformed line of `b` is one of both, counted on from the newlines of `a`,
and if `b` has none both are parsed: a field has the value of `b` if a line of `b` gives it, be this
value 0, and the value of `a` if none does. So the copies of a block of lines, one or more of them,
are parsed to what the block is parsed to. -/
theorem parse_append {a : Bytes} (ha : EndsLine a) (b : Bytes) :
    (∀ e, parse [.data a] = .error e → parse [.data (a ++ b)] = .error e) ∧
    (∀ t fault, parse [.data a] = .ok t → parse [.data b] = .error (.malformed fault) →
      parse [.data (a ++ b)] =
        .error (.malformed ⟨a.count Bytes.newline + fault.line, fault.field⟩)) ∧
    (∀ t, parse [.data a] = .ok t → (∀ fault, parse [.data b] ≠ .error (.malformed fault)) →
      ∃ u v, parse [.data b] = .ok u ∧ parse [.data (a ++ b)] = .ok v ∧
        ∀ f, v.get f = if ∃ line ∈ textLines b, Gives f line then u.get f else t.get f) ∧
    ∀ n, 1 ≤ n → parse [.data (List.replicate n a).flatten] = parse [.data a] := by
  refine ⟨fun e h => parse_joined_of_error ha h b,
    fun t fault h hb => parse_joined_of_malformed ha h hb, fun t h hb => ?_,
    fun n hn => parse_repeated ha hn⟩
  cases hread : parse [.data b] with
  | error e =>
    obtain ⟨fault, -, rfl⟩ := parse_data_eq_error_iff.mp hread
    exact absurd hread (hb fault)
  | ok u =>
    obtain ⟨v, hjoined, hget⟩ := parse_joined_of_ok ha h hread
    exact ⟨u, v, rfl, hjoined, hget⟩

/-- A field that is set to 0, one that is not given, and a malformed line further on. -/
theorem parse_append_block :
    let block := Bytes.ofString "siblings: 4\ncpu cores: 2\n"
    let zero := Bytes.ofString "cpu cores: none"
    let malformed := Bytes.ofString "\nsiblings"
    EndsLine block ∧ parse [.data block] = .ok ⟨4, 2⟩ ∧
      parse [.data zero] = .ok ⟨0, 0⟩ ∧ parse [.data (block ++ zero)] = .ok ⟨4, 0⟩ ∧
      parse [.data malformed] = .error (.malformed ⟨2, .siblings⟩) ∧
      parse [.data (block ++ malformed)] = .error (.malformed ⟨4, .siblings⟩) ∧
      parse [.data (List.replicate 3 block).flatten] = .ok ⟨4, 2⟩ := by
  intro block zero malformed
  have ha : EndsLine block := by
    unfold EndsLine
    decide +kernel
  have hblock : parse [.data block] = .ok ⟨4, 2⟩ := by rfl
  have hzero : parse [.data zero] = .ok ⟨0, 0⟩ := by rfl
  have hmalformed : parse [.data malformed] = .error (.malformed ⟨2, .siblings⟩) := by rfl
  have hjoined : parse [.data (block ++ zero)] = .ok ⟨4, 0⟩ := by
    obtain ⟨u, v, hu, hv, hget⟩ := (parse_append ha zero).2.2.1 _ hblock (by simp [hzero])
    rw [hzero] at hu
    obtain rfl := Except.ok.inj hu
    rw [hv]
    congr 1
    apply Topology.ext_get
    intro f
    rw [hget f]
    cases f <;> decide +kernel
  exact ⟨ha, hblock, hzero, hjoined, hmalformed,
    (parse_append ha malformed).2.1 _ _ hblock hmalformed,
    ((parse_append ha zero).2.2.2 3 (by decide)).trans hblock⟩

end CoreCount.Proofs
