import CoreCount.Proofs.CoreMasks
import CoreCount.Proofs.StrategyOutcomes
import Mathlib.Data.Finset.Card
import Mathlib.Data.Finset.Range

/-!
# The processors of the cores

Windows lists its cores by records, each with the mask of the logical processors that the core has.
The count is the sum of the bits in these masks, and it takes a processor once for each core that
has it. So it is the number of processors of the cores where no two cores share one, and more than
that number everywhere else.
-/

namespace CoreCount.Proofs

/-- A record as the system lays it out: the code of a relationship and a mask. -/
structure RawRecord where
  code : UInt32
  mask : UInt64

def RawRecord.decoded (r : RawRecord) : Os.LogicalProcessors :=
  ⟨.ofCode r.code, r.mask⟩

/-- The code of the records that describe a core. -/
def coreCode : UInt32 := 0

/-- The masks of the records that describe a core. -/
def coreMasks (records : List RawRecord) : List UInt64 :=
  (records.filter (·.code = coreCode)).map (·.mask)

def bitSum : List UInt64 → Nat
  | [] => 0
  | mask :: masks => Os.setBits mask + bitSum masks

def unionMask : List UInt64 → UInt64
  | [] => 0
  | mask :: masks => mask ||| unionMask masks

/-- The logical processors that a mask covers. -/
def processors (mask : UInt64) : Finset Nat :=
  {i ∈ Finset.range 64 | mask.toNat.testBit i}

/-- The logical processors that some mask of a list covers. -/
def processorsOfAny (masks : List UInt64) : Finset Nat :=
  {i ∈ Finset.range 64 | ∃ mask ∈ masks, mask.toNat.testBit i}

section Masks
variable (a b mask : UInt64) (masks : List UInt64)

lemma card_processors : (processors mask).card = Os.setBits mask := by
  unfold processors Os.setBits
  rw [List.countP_eq_length_filter, Finset.card_def, Finset.filter_val, Finset.range_val,
    ← Multiset.coe_range, Multiset.filter_coe, Multiset.coe_card]
  simp

lemma processors_or : processors (a ||| b) = processors a ∪ processors b := by
  ext i
  simp only [processors, Finset.mem_union, Finset.mem_filter, UInt64.toNat_or, Nat.testBit_or,
    Bool.or_eq_true]
  exact and_or_left

lemma processors_and : processors (a &&& b) = processors a ∩ processors b := by
  ext i
  simp only [processors, Finset.mem_inter, Finset.mem_filter, UInt64.toNat_and, Nat.testBit_and,
    Bool.and_eq_true]
  exact and_and_left

/-- No bit of a mask lies beyond the 64 processors. -/
lemma processors_eq_empty : processors mask = ∅ ↔ mask = 0 := by
  constructor
  · intro hempty
    rw [← UInt64.toNat_inj]
    refine Nat.eq_of_testBit_eq fun i => ?_
    by_cases hi : i < 64
    · have hnot : i ∉ processors mask := by simp [hempty]
      simpa [processors, hi] using hnot
    · have hlt : mask.toNat < 2 ^ i :=
        Nat.lt_of_lt_of_le mask.toNat_lt (Nat.pow_le_pow_right (by decide) (by omega))
      rw [Nat.testBit_lt_two_pow hlt]
      simp
  · rintro rfl
    simp [processors]

lemma setBits_eq_zero : Os.setBits mask = 0 ↔ mask = 0 := by
  rw [← card_processors, Finset.card_eq_zero, processors_eq_empty]

/-- What two masks have in common is counted twice when both are counted. -/
lemma setBits_add : Os.setBits a + Os.setBits b = Os.setBits (a ||| b) + Os.setBits (a &&& b) := by
  simp only [← card_processors, processors_or, processors_and]
  exact (Finset.card_union_add_card_inter _ _).symm

lemma processors_unionMask : processors (unionMask masks) = processorsOfAny masks := by
  induction masks with
  | nil => simp [unionMask, processors, processorsOfAny]
  | cons mask masks ih =>
    rw [unionMask, processors_or, ih]
    ext i
    simp [processors, processorsOfAny, and_or_left]

lemma and_unionMask_eq_zero :
    mask &&& unionMask masks = 0 ↔ ∀ other ∈ masks, mask &&& other = 0 := by
  induction masks with
  | nil => simp [unionMask]
  | cons other masks ih =>
    simp only [← processors_eq_empty, processors_and] at ih ⊢
    rw [unionMask, processors_or, Finset.inter_union_distrib_left, Finset.union_eq_empty, ih,
      List.forall_mem_cons]

lemma setBits_unionMask_le : Os.setBits (unionMask masks) ≤ bitSum masks := by
  induction masks with
  | nil => exact Nat.le_refl 0
  | cons mask masks ih =>
    have hadd := setBits_add mask (unionMask masks)
    rw [unionMask, bitSum]
    omega

lemma bitSum_eq_iff_disjoint :
    bitSum masks = Os.setBits (unionMask masks) ↔ masks.Pairwise (fun a b => a &&& b = 0) := by
  induction masks with
  | nil => exact ⟨fun _ => .nil, fun _ => rfl⟩
  | cons mask masks ih =>
    have hadd := setBits_add mask (unionMask masks)
    have hle := setBits_unionMask_le masks
    -- what the first mask shares with the others and what these share among themselves both add
    -- to the sum, and nothing is taken from it
    have hsplit : bitSum (mask :: masks) = Os.setBits (unionMask (mask :: masks)) ↔
        Os.setBits (mask &&& unionMask masks) = 0 ∧
          bitSum masks = Os.setBits (unionMask masks) := by
      rw [bitSum, unionMask]
      omega
    rw [hsplit, setBits_eq_zero, and_unionMask_eq_zero, ih, List.pairwise_cons]

end Masks

lemma ofCode_eq_processorCore (code : UInt32) :
    Os.Relationship.ofCode code = .processorCore ↔ code = coreCode := by
  unfold Os.Relationship.ofCode coreCode
  grind

lemma decoded_isCore (r : RawRecord) :
    r.decoded.relationship = .processorCore ↔ r.code = coreCode :=
  ofCode_eq_processorCore r.code

lemma coreMaskBits_decoded (records : List RawRecord) :
    coreMaskBits (records.map RawRecord.decoded) = bitSum (coreMasks records) := by
  induction records with
  | nil => rfl
  | cons r records ih =>
    rw [List.map_cons, coreMaskBits, ih]
    by_cases hr : r.code = coreCode
    · have hmasks : coreMasks (r :: records) = r.mask :: coreMasks records := by
        simp [coreMasks, hr]
      rw [if_pos ((decoded_isCore r).mpr hr), hmasks, bitSum]
      rfl
    · have hmasks : coreMasks (r :: records) = coreMasks records := by
        simp [coreMasks, hr]
      rw [if_neg (fun h => hr ((decoded_isCore r).mp h)), hmasks, Nat.zero_add]

/-- Adds the bits of a mask to a sum of 64 bits. -/
def addBits (sum : UInt64) (mask : UInt64) : UInt64 :=
  sum + UInt64.ofNat (Os.setBits mask)

lemma coreBits_decoded (records : List RawRecord) :
    Strategy.coreBits (records.map RawRecord.decoded) = (coreMasks records).foldl addBits 0 := by
  have hfilter : (records.map RawRecord.decoded).filter (·.relationship = .processorCore) =
      (records.filter (·.code = coreCode)).map RawRecord.decoded := by
    rw [List.filter_map]
    congr 1
    exact List.filter_congr fun r _ => by simp [decoded_isCore]
  unfold Strategy.coreBits coreMasks
  rw [hfilter, List.foldl_map, List.foldl_map]
  rfl

instance : RightCommutative addBits where
  right_comm sum a b := by
    unfold addBits
    rw [UInt64.add_assoc, UInt64.add_assoc, UInt64.add_comm (UInt64.ofNat _)]

lemma coreBits_perm {records others : List RawRecord} (h : others.Perm records) :
    Strategy.coreBits (others.map RawRecord.decoded) =
      Strategy.coreBits (records.map RawRecord.decoded) := by
  rw [coreBits_decoded, coreBits_decoded]
  exact ((h.filter _).map _).foldl_eq 0

lemma coreBits_insert (front back : List RawRecord) {r : RawRecord} (h : r.code ≠ coreCode) :
    Strategy.coreBits ((front ++ r :: back).map RawRecord.decoded) =
      Strategy.coreBits ((front ++ back).map RawRecord.decoded) := by
  have hmasks : coreMasks (front ++ r :: back) = coreMasks (front ++ back) := by
    simp [coreMasks, h]
  rw [coreBits_decoded, coreBits_decoded, hmasks]

/-- A host that keeps these records of its logical processors. -/
def withRecords (host : Host) (records : List RawRecord) : Host :=
  { host with logicalProcessors := some (records.map RawRecord.decoded) }

section Counts
variable (host : Host) (console : Console)

/-- Of the records, only their sum has a part in the count and in what comes with it. -/
lemma execute_windows_congr {records others : List RawRecord}
    (h : Strategy.coreBits (others.map RawRecord.decoded) =
      Strategy.coreBits (records.map RawRecord.decoded)) :
    Strategy.windows.count.execute (withRecords host others) console =
      Strategy.windows.count.execute (withRecords host records) console := by
  rw [Probe.execute_eq, Probe.execute_eq, run_count, run_count]
  simp only [countOn, questionsOn, messagesOn, withRecords, recordsFinding, h]

lemma toNat_count_windows {records : List RawRecord} (h : records.length < 2 ^ 58) :
    (Strategy.windows.count.execute (withRecords host records) console).value.toNat =
      max 1 (bitSum (coreMasks records)) := by
  have hlength : (records.map RawRecord.decoded).length < 2 ^ 58 := by rwa [List.length_map]
  have hsum := toNat_coreBits hlength
  rw [coreMaskBits_decoded] at hsum
  rw [Probe.execute_eq, run_count, ← hsum]
  change ((recordsFinding (records.map RawRecord.decoded)).countOr fallbackCount).toNat = _
  have hone : fallbackCount.toNat = 1 := rfl
  unfold recordsFinding
  split
  · rename_i hzero
    rw [hzero, UInt64.toNat_zero]
    rfl
  · rename_i hne
    rw [← UInt64.toNat_inj, UInt64.toNat_zero] at hne
    change (Strategy.coreBits _).toNat = _
    omega

end Counts

/-- Windows counts the bits in the masks of the core records, or 1 where there are none. Neither the
order of the records matters nor a record of another kind, wherever it stands. The bits are no fewer
than the processors that the cores have, and as many exactly where no two cores share a processor;
then the count is the number of processors of the cores, and is at most 64. -/
theorem count_windows_core_processors (host : Host) (console : Console) :
    let count (records : List RawRecord) :=
      Strategy.windows.count.execute (withRecords host records) console
    (∀ records : List RawRecord, records.length < 2 ^ 58 →
      let masks := coreMasks records
      let disjoint := masks.Pairwise (fun a b => a &&& b = 0)
      (count records).value.toNat = max 1 (bitSum masks) ∧
      Os.setBits (unionMask masks) ≤ bitSum masks ∧
      (bitSum masks = Os.setBits (unionMask masks) ↔ disjoint) ∧
      Os.setBits (unionMask masks) = (processorsOfAny masks).card ∧
      (disjoint →
        (count records).value.toNat = max 1 (processorsOfAny masks).card ∧
        (count records).value.toNat ≤ 64)) ∧
    (∀ records others : List RawRecord, others.Perm records → count others = count records) ∧
    ∀ (front back : List RawRecord) (r : RawRecord), r.code ≠ coreCode →
      count (front ++ r :: back) = count (front ++ back) := by
  intro count
  refine ⟨fun records h => ?_, fun records others h => ?_, fun front back r h => ?_⟩
  · intro masks disjoint
    have hcount : (count records).value.toNat = max 1 (bitSum masks) :=
      toNat_count_windows host console h
    have hunion : Os.setBits (unionMask masks) = (processorsOfAny masks).card := by
      rw [← card_processors, processors_unionMask]
    refine ⟨hcount, setBits_unionMask_le masks, bitSum_eq_iff_disjoint masks, hunion,
      fun hdisjoint => ?_⟩
    have hsum := (bitSum_eq_iff_disjoint masks).mpr hdisjoint
    have hle := setBits_le (unionMask masks)
    rw [hcount, hsum, ← hunion]
    exact ⟨rfl, by omega⟩
  · exact execute_windows_congr host console (coreBits_perm h)
  · exact execute_windows_congr host console (coreBits_insert front back h)

/-- Two cores of two processors each, listed with a cache and in another order, and two cores that
share a processor, whose bit is counted twice. -/
theorem count_windows_core_processors_shared :
    let host : Host := {
      onlineProcessors := -1
      sysctl := fun _ => .error .notFound
      logicalProcessors := none
      systemProcessorCount := 0
      file := fun _ => .error .noSuchEntry }
    let count (records : List RawRecord) :=
      Strategy.windows.count.execute (withRecords host records) {}
    let apart : List RawRecord := [⟨0, 3⟩, ⟨0, 12⟩]
    let sharing : List RawRecord := [⟨0, 3⟩, ⟨0, 6⟩]
    apart.length < 2 ^ 58 ∧ (coreMasks apart).Pairwise (fun a b => a &&& b = 0) ∧
      (count apart).value.toNat = 4 ∧
      [⟨0, 12⟩, ⟨0, 3⟩].Perm apart ∧ count [⟨0, 12⟩, ⟨0, 3⟩] = count apart ∧
      (2 : UInt32) ≠ coreCode ∧ count [⟨0, 3⟩, ⟨2, 255⟩, ⟨0, 12⟩] = count apart ∧
      sharing.length < 2 ^ 58 ∧ (count sharing).value.toNat = 4 ∧
      (processorsOfAny (coreMasks sharing)).card = 3 := by
  intro host count apart sharing
  have hlength : apart.length < 2 ^ 58 := by decide
  have hdisjoint : (coreMasks apart).Pairwise (fun a b => a &&& b = 0) := by decide
  have hperm : [⟨0, 12⟩, ⟨0, 3⟩].Perm apart := .swap _ _ _
  have hkind : (2 : UInt32) ≠ coreCode := by decide
  have hcard : (processorsOfAny (coreMasks apart)).card = 4 := by decide +kernel
  have hshared : (processorsOfAny (coreMasks sharing)).card = 3 := by decide +kernel
  have hsum : bitSum (coreMasks sharing) = 4 := by decide +kernel
  obtain ⟨hcount, horder, hinsert⟩ := count_windows_core_processors host {}
  have hapart := ((hcount apart hlength).2.2.2.2 hdisjoint).1
  have hsharing := (hcount sharing (by decide)).1
  rw [hcard] at hapart
  rw [hsum] at hsharing
  exact ⟨hlength, hdisjoint, hapart, hperm, horder apart _ hperm, hkind,
    hinsert [⟨0, 3⟩] [⟨0, 12⟩] ⟨2, 255⟩ hkind, by decide, hsharing, hshared⟩

end CoreCount.Proofs
