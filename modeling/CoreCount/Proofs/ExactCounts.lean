import CoreCount.Proofs.CoreMasks
import CoreCount.Proofs.StrategyOutcomes
import Mathlib.Algebra.Group.Int.Defs

/-!
# Counts are exact

A strategy counts the quantity that the host reports to it, as a number without a bound, or counts 1
where that quantity is no count. No word on the way is too short for it.
-/

namespace CoreCount.Proofs

/-- A count that can be used is the quantity; a quantity that is not used is no count. -/
structure Exact (finding : Finding) (quantity? : Option Int) : Prop where
  count : ∀ n, finding = .ok n → 1 ≤ n.toNat ∧ quantity? = some (n.toNat : Int)
  message : ∀ m, finding = .error m → ∀ q, quantity? = some q → q < 1

/-- A count is at least 1, is the quantity where this is a count, and is the fallback elsewhere. -/
structure CountsExactly (n : UInt64) (quantity? : Option Int) : Prop where
  positive : 1 ≤ n.toNat
  known : n = fallbackCount ∨ quantity? = some (n.toNat : Int)
  used : ∀ q, quantity? = some q → 1 ≤ q → (n.toNat : Int) = q

lemma Exact.countsExactly {finding : Finding} {quantity? : Option Int}
    (h : Exact finding quantity?) : CountsExactly (finding.countOr fallbackCount) quantity? := by
  cases hf : finding with
  | ok n =>
    obtain ⟨hpositive, hquantity⟩ := h.count n hf
    refine ⟨hpositive, .inr hquantity, fun q hq _ => ?_⟩
    rw [hquantity] at hq
    exact Option.some.inj hq
  | error m =>
    refine ⟨Nat.le_refl 1, .inl rfl, fun q hq hle => ?_⟩
    have hlt := h.message m hf q hq
    omega

lemma exact_ite {p : Prop} [Decidable p] {n : UInt64} {m : Message} {q : Int} (hp : p ↔ 1 ≤ q)
    (hn : 1 ≤ q → (n.toNat : Int) = q) : Exact (if p then .ok n else .error m) (some q) := by
  split
  · rename_i h
    have hcount := hn (hp.mp h)
    refine ⟨fun k hk => ?_, by simp⟩
    rw [← Except.ok.inj hk, hcount]
    exact ⟨by have := hp.mp h; omega, rfl⟩
  · rename_i h
    have hlt : ¬1 ≤ q := fun hle => h (hp.mpr hle)
    exact ⟨by simp, fun _ _ r hr => by rw [← Option.some.inj hr]; omega⟩

lemma exact_ite_not {p : Prop} [Decidable p] {n : UInt64} {m : Message} {q : Int} (hp : p ↔ q < 1)
    (hn : 1 ≤ q → (n.toNat : Int) = q) : Exact (if p then .error m else .ok n) (some q) := by
  rw [← ite_not]
  exact exact_ite (by rw [hp, Int.not_lt]) hn

lemma exact_error (m : Message) : Exact (.error m) none :=
  ⟨by simp, by simp⟩

section Words

lemma natAbs_toInt_le (a : Int32) : a.toInt.natAbs ≤ 2 ^ 31 := by
  have hlow := a.le_toInt
  have hhigh := a.toInt_lt
  omega

/-- The product of two 32-bit numbers is far within 64 bits. -/
lemma natAbs_mul_le (a b : Int32) : (a.toInt * b.toInt).natAbs ≤ 2 ^ 62 :=
  calc (a.toInt * b.toInt).natAbs = a.toInt.natAbs * b.toInt.natAbs := Int.natAbs_mul _ _
    _ ≤ 2 ^ 31 * 2 ^ 31 := Nat.mul_le_mul (natAbs_toInt_le a) (natAbs_toInt_le b)
    _ = 2 ^ 62 := rfl

lemma toInt_mul_toInt64 (a b : Int32) :
    (a.toInt64 * b.toInt64).toInt = a.toInt * b.toInt := by
  have hproduct := natAbs_mul_le a b
  rw [Int64.toInt_mul, Int32.toInt_toInt64, Int32.toInt_toInt64]
  exact Int.bmod_eq_of_le (by omega) (by omega)

lemma toNat_toUInt64 {n : Int64} (h : 1 ≤ n.toInt) : (n.toUInt64.toNat : Int) = n.toInt := by
  have hle : 0 ≤ n.toInt := by omega
  rw [Int64.toNat_toUInt64_of_le (Int64.le_iff_toInt_le.mpr hle)]
  exact Int.toNat_of_nonneg hle

lemma toInt_saturatedCount {n : Int64} (h : 1 ≤ n.toInt) :
    ((Strategy.saturatedCount n).toNat : Int) = n.toInt := by
  have hzero : (0 : Int64).toInt = 0 := rfl
  have hle : 0 ≤ n := Int64.le_iff_toInt_le.mpr (by omega)
  unfold Strategy.saturatedCount
  rw [if_pos hle]
  exact toNat_toUInt64 h

end Words

section Findings
variable (host : Host)

lemma exact_onlineFinding : Exact (onlineFinding host) (some host.onlineProcessors.toInt) :=
  exact_ite_not Int64.lt_iff_toInt_lt toNat_toUInt64

/-- The logical processors that the kernel tells of, if it does. -/
def logicalReported : Option Int :=
  (host.sysctl Os.SysctlKey.logicalProcessors).toOption.map Int32.toInt

lemma exact_logicalFinding : Exact (logicalFinding host) (logicalReported host) := by
  unfold logicalFinding logicalReported
  cases host.sysctl Os.SysctlKey.logicalProcessors with
  | error e => exact exact_error _
  | ok n =>
    refine exact_ite Int32.le_iff_toInt_le fun hle => ?_
    rw [← Int32.toInt_toInt64] at hle ⊢
    exact toNat_toUInt64 hle

/-- Cores times threads per core, or the cores alone where the threads are unknown. -/
def smpReported : Option Int :=
  match host.sysctl Os.SysctlKey.cores, host.sysctl Os.SysctlKey.threadsPerCore with
  | .ok cores, .ok perCore => some (cores.toInt * perCore.toInt)
  | .ok cores, .error _ => some cores.toInt
  | .error _, _ => none

lemma smpReported_eq : smpReported host = (smpAnswer host).toOption.map Int64.toInt := by
  unfold smpReported smpAnswer
  cases host.sysctl Os.SysctlKey.cores with
  | error e => rfl
  | ok cores =>
    cases host.sysctl Os.SysctlKey.threadsPerCore with
    | ok perCore => exact congrArg some (toInt_mul_toInt64 cores perCore).symm
    | error e => exact congrArg some (Int32.toInt_toInt64 cores).symm

lemma exact_smpFinding : Exact (smpFinding host) (smpReported host) := by
  rw [smpReported_eq]
  unfold smpFinding
  cases smpAnswer host with
  | error e => cases e <;> exact exact_error _
  | ok n => exact exact_ite Int64.le_iff_toInt_le toInt_saturatedCount

lemma exact_recordsFinding {records : List Os.LogicalProcessors} (h : records.length < 2 ^ 58) :
    Exact (recordsFinding records) (some (coreMaskBits records : Int)) := by
  have hcount := toNat_coreBits h
  refine exact_ite_not ?_ fun _ => by rw [hcount]
  rw [← UInt64.toNat_inj, hcount, UInt64.toNat_zero]
  omega

lemma countsExactly_systemCount :
    CountsExactly (systemCount host) (some (host.systemProcessorCount.toNat : Int)) := by
  let finding : Finding := if host.systemProcessorCount = 0
    then .error ⟨DisplayLevel.trace, Strategy.noRecordsText⟩
    else .ok host.systemProcessorCount.toUInt64
  have hexact : Exact finding (some (host.systemProcessorCount.toNat : Int)) := by
    refine exact_ite_not ?_ fun _ => by rw [UInt32.toNat_toUInt64]
    rw [← UInt32.toNat_inj, UInt32.toNat_zero]
    omega
  have hcount : systemCount host = finding.countOr fallbackCount := by
    unfold systemCount finding
    split <;> rfl
  rw [hcount]
  exact hexact.countsExactly

end Findings

/-- The quantity that a strategy goes by, if the host reports one to it. What the kernel of FreeBSD
tells of its cores is passed over where it is no count. -/
def reported (host : Host) : Strategy → Option Int
  | .linux _ | .sysconf => some host.onlineProcessors.toInt
  | .freeBsd => ((smpReported host).filter (1 ≤ ·)).or (some host.onlineProcessors.toInt)
  | .darwin => logicalReported host
  | .windows =>
    match host.logicalProcessors with
    | none => some (host.systemProcessorCount.toNat : Int)
    | some records => some (coreMaskBits records : Int)
  | .unknown => none

lemma countsExactly_freeBsd (host : Host) :
    CountsExactly (countOn host .freeBsd) (reported host .freeBsd) := by
  have hsmp := exact_smpFinding host
  unfold countOn reported
  cases hf : smpFinding host with
  | ok n =>
    obtain ⟨hpositive, hquantity⟩ := hsmp.count n hf
    have husable : (1 : Int) ≤ n.toNat := by omega
    rw [hquantity, Option.filter_some_pos (by simpa using husable)]
    exact ⟨hpositive, .inr rfl, fun q hq _ => Option.some.inj hq⟩
  | error m =>
    have hnone : (smpReported host).filter (1 ≤ ·) = none := by
      rw [Option.filter_eq_none_iff]
      intro q hq
      have hlt := hsmp.message m hf q hq
      simpa using hlt
    rw [hnone]
    exact (exact_onlineFinding host).countsExactly

lemma countsExactly_countOn {host : Host}
    (h : ∀ records, host.logicalProcessors = some records → records.length < 2 ^ 58)
    (strategy : Strategy) : CountsExactly (countOn host strategy) (reported host strategy) := by
  cases strategy with
  | linux path => exact (exact_onlineFinding host).countsExactly
  | sysconf => exact (exact_onlineFinding host).countsExactly
  | freeBsd => exact countsExactly_freeBsd host
  | darwin => exact (exact_logicalFinding host).countsExactly
  | windows =>
    unfold countOn reported
    cases hrecords : host.logicalProcessors with
    | none => exact countsExactly_systemCount host
    | some records => exact (exact_recordsFinding (h records hrecords)).countsExactly
  | unknown => exact ⟨Nat.le_refl 1, .inl rfl, by simp [reported]⟩

lemma smpReported_lt {host : Host} {q : Int} (h : smpReported host = some q) : q ≤ 2 ^ 62 := by
  unfold smpReported at h
  split at h
  · rename_i cores perCore _ _
    have hproduct := natAbs_mul_le cores perCore
    rw [← Option.some.inj h]
    omega
  · rename_i cores _ _ _
    have hcores := cores.toInt_lt
    rw [← Option.some.inj h]
    omega
  · cases h

/-- No count on FreeBSD comes near the largest count there is. -/
lemma countOn_freeBsd_lt (host : Host) : (countOn host .freeBsd).toNat < 2 ^ 63 := by
  rcases (countsExactly_freeBsd host).known with hone | hreported
  · rw [hone]
    decide
  · have honline := host.onlineProcessors.toInt_lt
    unfold reported at hreported
    rcases Option.or_eq_some_iff.mp hreported with hsmp | ⟨-, hsome⟩
    · have hle := smpReported_lt (Option.filter_eq_some_iff.mp hsmp).1
      omega
    · have heq := Option.some.inj hsome
      omega

/-- Every strategy counts at least 1. It counts the quantity that the host reports to it, as a number
without a bound, whenever that is at least 1, and the fallback otherwise. The product of cores and
threads, the sum over the records and each sum on the way to it are exact, and no count on FreeBSD
is one that had to be cut to the largest there is. -/
theorem counts_exact (host : Host)
    (h : ∀ records, host.logicalProcessors = some records → records.length < 2 ^ 58)
    (console : Console) :
    (∀ strategy : Strategy,
      let n := (strategy.count.execute host console).value
      1 ≤ n.toNat ∧ (n = fallbackCount ∨ reported host strategy = some (n.toNat : Int)) ∧
      ∀ q, reported host strategy = some q → 1 ≤ q → (n.toNat : Int) = q) ∧
    (∀ n, (Strategy.smpCount.execute host console).value = .ok n →
      smpReported host = some n.toInt) ∧
    (∀ records front, host.logicalProcessors = some records → front <+: records →
      (Strategy.coreBits front).toNat = coreMaskBits front) ∧
    (Strategy.freeBsd.count.execute host console).value ≠ Strategy.largestCount := by
  have hvalue (strategy : Strategy) :
      (strategy.count.execute host console).value = countOn host strategy := by
    rw [Probe.execute_eq, run_count]
  refine ⟨fun strategy => ?_, fun n hn => ?_, fun records front hrecords hfront => ?_, ?_⟩
  · dsimp only
    rw [hvalue]
    obtain ⟨hpositive, hknown, hused⟩ := countsExactly_countOn h strategy
    exact ⟨hpositive, hknown, hused⟩
  · rw [Probe.execute_eq, run_smpCount] at hn
    have hanswer : smpAnswer host = .ok n := hn
    rw [smpReported_eq, hanswer]
    rfl
  · have hlength := hfront.length_le
    have hbound := h records hrecords
    exact toNat_coreBits (by omega)
  · rw [hvalue]
    intro hlargest
    have hlt := countOn_freeBsd_lt host
    rw [hlargest] at hlt
    exact absurd hlt (by decide)

/-- The product of the two least numbers of 32 bits, and a mask in which every bit is set. -/
theorem counts_exact_extremes :
    let records : List Os.LogicalProcessors :=
      [⟨.processorCore, UInt64.ofNat (2 ^ 64 - 1)⟩, ⟨.cache, 7⟩, ⟨.processorCore, 3⟩]
    let host : Host := {
      onlineProcessors := -1
      sysctl := fun _ => .ok Int32.minValue
      logicalProcessors := some records
      systemProcessorCount := 0
      file := fun _ => .error .noSuchEntry }
    (∀ records, host.logicalProcessors = some records → records.length < 2 ^ 58) ∧
      ((Strategy.freeBsd.count.execute host {}).value.toNat : Int) = 2 ^ 62 ∧
      ((Strategy.windows.count.execute host {}).value.toNat : Int) = 66 ∧
      Strategy.sysconf.count.execute host {} = ⟨1, [.onlineProcessors], {}⟩ ∧
      (Strategy.freeBsd.count.execute host {}).value ≠ Strategy.largestCount := by
  intro records host
  have h : ∀ records, host.logicalProcessors = some records → records.length < 2 ^ 58 := by
    intro others hothers
    rw [← Option.some.inj hothers]
    decide
  have hfreeBsd : reported host .freeBsd = some (2 ^ 62) := by decide +kernel
  have hwindows : reported host .windows = some 66 := by decide +kernel
  obtain ⟨hcounts, -, -, hlargest⟩ := counts_exact host h {}
  exact ⟨h, (hcounts .freeBsd).2.2 _ hfreeBsd (by decide), (hcounts .windows).2.2 _ hwindows
    (by decide), by rfl, hlargest⟩

end CoreCount.Proofs
