import CoreCount.Proofs.CheckedArithmetic
import CoreCount.Proofs.Completion
import CoreCount.Proofs.ParseMeaning

/-!
# Threads per core

The ratio of a topology never divides by zero and never overflows, and where the siblings outnumber a
positive number of cores it is their exact quotient. The comparison does not ask for the cores to be
positive: a text whose number of cores is negative and below its number of siblings has a ratio of
zero or less, which a run prints and the count on Linux reports.
-/

namespace CoreCount.Proofs
open Cpuinfo

/-- The fields give a ratio: neither is 0, and the siblings outnumber the cores. -/
def GivesRatio (t : Topology) : Prop :=
  t.siblings ≠ 0 ∧ t.cpuCores ≠ 0 ∧ t.cpuCores < t.siblings

instance (t : Topology) : Decidable (GivesRatio t) :=
  inferInstanceAs (Decidable (_ ∧ _ ∧ _))

/-- The ratio, by a division that may fail. -/
def ratio? (t : Topology) : Option Int32 :=
  t.ratioIn checked

lemma toInt_of_quotient? {a b q : Int32} (h : quotient? a b = some q) :
    q.toInt = a.toInt.tdiv b.toInt := by
  unfold quotient? at h
  split at h
  · contradiction
  · rename_i hfits
    obtain rfl := Option.some.inj h
    by_cases ha : a = Int32.minValue
    · exact Int32.toInt_div_of_ne_right a b (fun hb => hfits (.inr ⟨ha, hb⟩))
    · exact Int32.toInt_div_of_ne_left a b ha

lemma ratioIn_eq {m : Type → Type} [Monad m] (arithmetic : Arithmetic m) (t : Topology) :
    t.ratioIn arithmetic =
      if GivesRatio t then arithmetic.quotient t.siblings t.cpuCores else pure 1 := rfl

lemma ratioIn_agrees {a : Arithmetic Option} {b : Arithmetic Id} (h : ArithmeticsAgree a b)
    (t : Topology) : Agrees (t.ratioIn a) (t.ratioIn b) := by
  rw [ratioIn_eq, ratioIn_eq]
  split
  · exact h.quotient t.siblings t.cpuCores
  · exact .pure 1

section Ratio
variable {t : Topology}

lemma givesRatio_iff :
    GivesRatio t ↔ t.siblings.toInt ≠ 0 ∧ t.cpuCores.toInt ≠ 0 ∧
      t.cpuCores.toInt < t.siblings.toInt := by
  have hzero (n : Int32) : n = 0 ↔ n.toInt = 0 := Int32.toInt_inj.symm
  simp only [GivesRatio, ne_eq, hzero, Int32.lt_iff_toInt_lt]

lemma ratio?_of_givesRatio (h : GivesRatio t) :
    ratio? t = quotient? t.siblings t.cpuCores := by
  rw [ratio?, ratioIn_eq, if_pos h]
  rfl

lemma ratio?_of_not_givesRatio (h : ¬GivesRatio t) : ratio? t = some 1 := by
  rw [ratio?, ratioIn_eq, if_neg h]
  rfl

/-- Siblings that outnumber anything are not the least value, so their division does not overflow. -/
lemma exists_ratio (t : Topology) : ∃ r, ratio? t = some r := by
  by_cases h : GivesRatio t
  · have hfits : ¬(t.cpuCores = 0 ∨ (t.siblings = Int32.minValue ∧ t.cpuCores = -1)) := by
      rintro (hzero | ⟨hleast, -⟩)
      · exact h.2.1 hzero
      · have hlt := Int32.lt_iff_toInt_lt.mp h.2.2
        have hge := Int32.minValue_le_toInt t.cpuCores
        rw [hleast] at hlt
        omega
    rw [ratio?_of_givesRatio h]
    exact ⟨t.siblings / t.cpuCores, if_neg hfits⟩
  · exact ⟨1, ratio?_of_not_givesRatio h⟩

lemma ratio?_eq (t : Topology) : ratio? t = some t.ratio := by
  obtain ⟨r, hr⟩ := exists_ratio t
  rw [hr, Topology.ratio, ratioIn_agrees checked_agrees t r hr]

lemma toInt_ratio_of_givesRatio (h : GivesRatio t) :
    t.ratio.toInt = t.siblings.toInt.tdiv t.cpuCores.toInt := by
  apply toInt_of_quotient?
  rw [← ratio?_of_givesRatio h, ratio?_eq]

lemma ratio_of_not_givesRatio (h : ¬GivesRatio t) : t.ratio = 1 := by
  have hone := ratio?_of_not_givesRatio h
  rw [ratio?_eq] at hone
  exact Option.some.inj hone

end Ratio

/-- A quotient of positive numbers, of which the dividend is the larger. -/
lemma tdiv_bounds {a b : Int} (hb : 0 < b) (hab : b < a) :
    1 ≤ a.tdiv b ∧ a.tdiv b * b ≤ a ∧ a < (a.tdiv b + 1) * b := by
  refine ⟨Int.le_tdiv_of_mul_le hb (by omega), ?_, Int.lt_tdiv_add_one_mul_self a hb⟩
  rw [Int.mul_comm]
  exact Int.mul_tdiv_self_le (by omega)

lemma tdiv_nonpos {a b : Int} (hb : b < 0) (hab : b < a) : a.tdiv b ≤ 0 := by
  by_cases ha : 0 ≤ a
  · exact Int.tdiv_nonpos_of_nonneg_of_nonpos ha (by omega)
  · -- both are negative, and the dividend is the smaller in size
    have hsize : (-a).tdiv (-b) = 0 := Int.tdiv_eq_zero_of_lt (by omega) (by omega)
    rw [Int.neg_tdiv_neg] at hsize
    omega

/-- For all values of the fields, the ratio comes out of a division that fails at 0 and at an
overflow: such a division is never made. Where the siblings outnumber a positive number of cores, the
ratio is at least 1, and it is as many whole times the cores as the siblings hold. It is 1 where the
siblings do not outnumber the cores or either is 0, and the truncated quotient everywhere else. -/
theorem ratio_exact (t : Topology) :
    let s := t.siblings.toInt
    let c := t.cpuCores.toInt
    let r := t.ratio.toInt
    ratio? t = some t.ratio ∧
    (0 < c → c < s → 1 ≤ r ∧ r * c ≤ s ∧ s < (r + 1) * c) ∧
    (s ≤ c ∨ s = 0 ∨ c = 0 → r = 1) ∧
    (¬(s ≤ c ∨ s = 0 ∨ c = 0) → r = s.tdiv c) := by
  intro s c r
  have hquotient : GivesRatio t → r = s.tdiv c := toInt_ratio_of_givesRatio
  refine ⟨ratio?_eq t, fun hc hcs => ?_, fun h => ?_, fun h => ?_⟩
  · rw [hquotient (givesRatio_iff.mpr ⟨by omega, by omega, hcs⟩)]
    exact tdiv_bounds hc hcs
  · have hnone : ¬GivesRatio t := by
      rw [givesRatio_iff]
      omega
    have hone : t.ratio = 1 := ratio_of_not_givesRatio hnone
    simp only [r, hone]
    rfl
  · apply hquotient
    rw [givesRatio_iff]
    omega

example : ratio? ⟨Int32.minValue, -1⟩ = some 1 ∧ quotient? Int32.minValue (-1) = none := by decide

/-- The value that a text gives a field, 0 where it gives none. -/
def textValue (f : Field) (s : Bytes) : Int :=
  (lastValue f (textLines s)).getD 0

/-- A text that gives a negative number of cores, and siblings that outnumber them and are not 0. -/
def NegativeCores (s : Bytes) : Prop :=
  textValue .cpuCores s < 0 ∧ textValue .cpuCores s < textValue .siblings s ∧
    textValue .siblings s ≠ 0

section Text
variable {s : Bytes} {t : Topology}

lemma toInt_get_of_parse (h : parse [.data s] = .ok t) (f : Field) :
    (t.get f).toInt = textValue f s := by
  rw [toInt_get_of_readLines (parse_data_eq_ok_iff.mp h) f]
  cases f <;> rfl

lemma negativeCores_iff (h : parse [.data s] = .ok t) :
    NegativeCores s ↔ t.cpuCores.toInt < 0 ∧ GivesRatio t := by
  have hsiblings : t.siblings.toInt = textValue .siblings s := toInt_get_of_parse h .siblings
  have hcores : t.cpuCores.toInt = textValue .cpuCores s := toInt_get_of_parse h .cpuCores
  rw [givesRatio_iff, NegativeCores, hsiblings, hcores]
  omega

lemma ratio_of_negativeCores (h : parse [.data s] = .ok t) (hs : NegativeCores s) :
    t.ratio.toInt = (textValue .siblings s).tdiv (textValue .cpuCores s) ∧ t.ratio.toInt ≤ 0 := by
  obtain ⟨hcores, hgives⟩ := (negativeCores_iff h).mp hs
  have hquotient := toInt_ratio_of_givesRatio hgives
  constructor
  · rw [hquotient, ← toInt_get_of_parse h .siblings, ← toInt_get_of_parse h .cpuCores]
    rfl
  · rw [hquotient]
    exact tdiv_nonpos hcores (givesRatio_iff.mp hgives).2.2

lemma one_le_ratio (h : parse [.data s] = .ok t) (hs : ¬NegativeCores s) : 1 ≤ t.ratio.toInt := by
  by_cases hgives : GivesRatio t
  · obtain ⟨-, hcores, hlt⟩ := givesRatio_iff.mp hgives
    have hnegative : ¬t.cpuCores.toInt < 0 := fun hlow => hs ((negativeCores_iff h).mpr ⟨hlow, hgives⟩)
    rw [toInt_ratio_of_givesRatio hgives]
    exact (tdiv_bounds (by omega) hlt).1
  · rw [ratio_of_not_givesRatio hgives]
    decide

end Text

/-- The ratio of a text that is parsed is a number of threads, at least 1, unless the text gives a
negative number of cores and siblings that outnumber them and are not 0. Then the ratio is their
truncated quotient, which is zero or negative. Either way it is what a run prints of a file that
holds this topology, and what the count on Linux reports of it. -/
theorem ratio_of_text {s : Bytes} {t : Topology} (h : parse [.data s] = .ok t) :
    (1 ≤ t.ratio.toInt ↔ ¬NegativeCores s) ∧
    (NegativeCores s → t.ratio.toInt = (textValue .siblings s).tdiv (textValue .cpuCores s) ∧
      t.ratio.toInt ≤ 0) ∧
    ∀ host path, topologyAt host path = .ok t →
      (∀ arguments o, CommandLine.parse arguments = .ok o → o.cpuinfo = some path →
        (transcript host arguments).stdout =
          s!"siblings  : {t.siblings.toInt}\n" ++ s!"cpu cores : {t.cpuCores.toInt}\n" ++
            s!"ratio     : {t.ratio.toInt}\n" ++ s!"{(hostCount host).toNat}\n") ∧
      (¬host.onlineProcessors < 1 → ((Strategy.linux path).count.run host).messages =
        [⟨DisplayLevel.trace,
          s!"cores: {t.siblings.toInt} siblings / {t.cpuCores.toInt} cpu cores, " ++
            s!"hyperthreading ratio {t.ratio.toInt} (not applied)\n"⟩]) := by
  refine ⟨⟨fun hone hs => ?_, one_le_ratio h⟩, ratio_of_negativeCores h,
    fun host path ht => ⟨fun arguments o hparse hpath => ?_, fun honline => ?_⟩⟩
  · have hnonpos := (ratio_of_negativeCores h hs).2
    omega
  · exact (transcript_with_file host hparse hpath ht).2
  · rw [messages_countLinux honline, topologyTrace, ht]
    rfl

/-- Two threads on each of four cores, and no whole thread on a negative number of cores. -/
theorem ratio_of_text_of_each_kind :
    let s := Bytes.ofString "siblings: 8\ncpu cores: 4\n"
    let negative := Bytes.ofString "siblings: 1\ncpu cores: -3\n"
    let t : Topology := ⟨8, 4⟩
    let u : Topology := ⟨1, -3⟩
    parse [.data s] = .ok t ∧ ¬NegativeCores s ∧ 1 ≤ t.ratio.toInt ∧
      parse [.data negative] = .ok u ∧ NegativeCores negative ∧ u.ratio.toInt ≤ 0 := by
  intro s negative t u
  have ht : parse [.data s] = .ok t := by rfl
  have hu : parse [.data negative] = .ok u := by rfl
  have hs : ¬NegativeCores s := by
    rw [negativeCores_iff ht]
    decide
  have hnegative : NegativeCores negative := by
    rw [negativeCores_iff hu]
    decide
  exact ⟨ht, hs, (ratio_of_text ht).1.mpr hs, hu, hnegative,
    ((ratio_of_text hu).2.1 hnegative).2⟩

/-- Eight siblings of -3 cores: what is shown is -2 threads per core. -/
theorem ratio_of_text_shown_negative :
    let path := Bytes.ofString "snapshot"
    let s := Bytes.ofString "siblings: 8\ncpu cores: -3\n"
    let host := hostOver 8 (({} : Os.FileSystem).makePath path (.file s))
    let t : Topology := ⟨8, -3⟩
    parse [.data s] = .ok t ∧ t.ratio = -2 ∧ ¬1 ≤ t.ratio.toInt ∧
      (transcript host (["--cpuinfo", "snapshot"].map Bytes.ofString)).stdout =
        "siblings  : 8\ncpu cores : -3\nratio     : -2\n8\n" ∧
      ((Strategy.linux path).count.run host).messages =
        [⟨DisplayLevel.trace,
          "cores: 8 siblings / -3 cpu cores, hyperthreading ratio -2 (not applied)\n"⟩] := by
  intro path s host t
  have ht : parse [.data s] = .ok t := by rfl
  exact ⟨ht, by decide, by decide, by decide +kernel, by decide +kernel⟩

end CoreCount.Proofs
