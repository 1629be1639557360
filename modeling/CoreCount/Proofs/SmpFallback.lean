import CoreCount.Proofs.ExactCounts
import Mathlib.Data.Int.Order.Basic

/-!
# What FreeBSD falls back on

Where the kernel's numbers of cores and threads come to no count, FreeBSD counts as a system does
that has the number of online processors alone. The numbers are judged by their product, so two
negative ones pass for a count.
-/

namespace CoreCount.Proofs

/-- What is reported about the kernel's numbers: that the threads are unknown, and why the numbers
are not used. -/
def smpMessages (host : Host) : List Message :=
  threadsMessages host ++ (smpFinding host).messages

section Fallback
variable (host : Host) (console : Console)

lemma execute_countFreeBsd_of_ok {n : UInt64} (h : smpFinding host = .ok n) :
    Strategy.freeBsd.count.execute host console =
      ⟨n, smpQuestions host,
        ⟨console.level, console.written ++ Message.shown console.level (smpMessages host)⟩⟩ := by
  rw [Probe.execute_eq, run_count]
  simp [countOn, questionsOn, messagesOn, smpMessages, h, Finding.countOr, Finding.messages]

/-- What the count of the online processors alone leaves comes after what the kernel's numbers
have left. -/
lemma execute_countFreeBsd_of_error {m : Message} (h : smpFinding host = .error m) :
    Strategy.freeBsd.count.execute host console =
      let plain := Strategy.sysconf.count.execute host { level := console.level }
      ⟨plain.value, smpQuestions host ++ plain.queries,
        ⟨console.level, console.written ++ Message.shown console.level (smpMessages host) ++
          plain.console.written⟩⟩ := by
  rw [Probe.execute_eq, Probe.execute_eq, run_count, run_count]
  simp [countOn, questionsOn, messagesOn, smpMessages, h, Finding.countOr, Finding.messages,
    Message.shown_append, Message.shown, String.append_assoc]

lemma online_notMem_smpQuestions : .onlineProcessors ∉ smpQuestions host := by
  unfold smpQuestions
  cases host.sysctl Os.SysctlKey.cores <;> simp

/-- The number of online processors is asked for exactly where the kernel's numbers are not used. -/
lemma online_mem_iff :
    .onlineProcessors ∈ (Strategy.freeBsd.count.execute host console).queries ↔
      ∃ m, smpFinding host = .error m := by
  cases h : smpFinding host with
  | ok n =>
    rw [execute_countFreeBsd_of_ok host console h]
    simp [online_notMem_smpQuestions]
  | error m =>
    rw [execute_countFreeBsd_of_error host console h]
    simp [Probe.execute_eq, run_count, questionsOn]

lemma smpFinding_error_iff :
    (∃ m, smpFinding host = .error m) ↔ ∀ q, smpReported host = some q → q < 1 := by
  have hexact := exact_smpFinding host
  cases h : smpFinding host with
  | ok n =>
    obtain ⟨hpositive, hquantity⟩ := hexact.count n h
    constructor
    · rintro ⟨m, hm⟩
      cases hm
    · intro hlt
      have hn := hlt _ hquantity
      omega
  | error m => exact ⟨fun _ => hexact.message m h, fun _ => ⟨m, rfl⟩⟩

lemma toNat_online :
    (((onlineFinding host).countOr fallbackCount).toNat : Int) =
      max 1 host.onlineProcessors.toInt := by
  obtain ⟨hpositive, hknown, hused⟩ := (exact_onlineFinding host).countsExactly
  by_cases hle : 1 ≤ host.onlineProcessors.toInt
  · rw [hused _ rfl hle]
    omega
  · rcases hknown with hone | honline
    · rw [hone]
      have hfallback : fallbackCount.toNat = 1 := rfl
      omega
    · have hcount := Option.some.inj honline
      omega

/-- Where the kernel's numbers are used, they are the count, and nothing else is asked for. -/
lemma execute_countFreeBsd_of_reported {q : Int} (h : smpReported host = some q) (hq : 1 ≤ q) :
    (Strategy.freeBsd.count.execute host console).queries = smpQuestions host ∧
      ((Strategy.freeBsd.count.execute host console).value.toNat : Int) = q := by
  cases hf : smpFinding host with
  | ok n =>
    rw [execute_countFreeBsd_of_ok host console hf]
    have hquantity := ((exact_smpFinding host).count n hf).2
    rw [h] at hquantity
    exact ⟨rfl, (Option.some.inj hquantity).symm⟩
  | error m =>
    have hlt := (exact_smpFinding host).message m hf q h
    omega

end Fallback

/-- Wherever FreeBSD asks for the number of online processors, it counts as a system does that has
this number alone, asks the same after its questions to the kernel, and writes the same after its
reports on the answers to these. It asks for the number exactly where the kernel tells of no count
that is at least 1. So it does where the cores are unknown for whatever reason, without a question
about the threads; and it does not where the threads alone are unknown and there are cores, which
are then counted. -/
theorem count_freeBsd_falls_back (host : Host) (level : UInt32) :
    let freeBsd := Strategy.freeBsd.count.execute host { level := level }
    let plain := Strategy.sysconf.count.execute host { level := level }
    (.onlineProcessors ∈ freeBsd.queries →
      freeBsd.value = plain.value ∧ freeBsd.queries = smpQuestions host ++ plain.queries ∧
      freeBsd.console.written =
        Message.shown level (smpMessages host) ++ plain.console.written) ∧
    (∀ other : Host, other.sysctl = host.sysctl → smpMessages other = smpMessages host) ∧
    (.onlineProcessors ∈ freeBsd.queries ↔ ∀ q, smpReported host = some q → q < 1) ∧
    (∀ failure, host.sysctl Os.SysctlKey.cores = .error failure →
      freeBsd.queries = [.sysctl Os.SysctlKey.cores, .onlineProcessors]) ∧
    ∀ cores failure, host.sysctl Os.SysctlKey.cores = .ok cores →
      host.sysctl Os.SysctlKey.threadsPerCore = .error failure → 1 ≤ cores →
      .onlineProcessors ∉ freeBsd.queries ∧ (freeBsd.value.toNat : Int) = cores.toInt := by
  intro freeBsd plain
  have hasks : .onlineProcessors ∈ freeBsd.queries ↔ ∀ q, smpReported host = some q → q < 1 :=
    (online_mem_iff host _).trans (smpFinding_error_iff host)
  have hplain : .onlineProcessors ∈ freeBsd.queries →
      freeBsd.value = plain.value ∧ freeBsd.queries = smpQuestions host ++ plain.queries ∧
      freeBsd.console.written =
        Message.shown level (smpMessages host) ++ plain.console.written := by
    intro hmem
    obtain ⟨m, hm⟩ := (online_mem_iff host _).mp hmem
    have hrun : freeBsd = ⟨plain.value, smpQuestions host ++ plain.queries,
        ⟨level, "" ++ Message.shown level (smpMessages host) ++ plain.console.written⟩⟩ :=
      execute_countFreeBsd_of_error host { level := level } hm
    rw [hrun, String.empty_append]
    exact ⟨rfl, rfl, rfl⟩
  refine ⟨hplain, fun other hother => ?_, hasks, fun failure hcores => ?_,
    fun cores failure hcores hthreads hle => ?_⟩
  · unfold smpMessages threadsMessages smpFinding smpAnswer
    rw [hother]
  · have hreported : smpReported host = none := by simp [smpReported, hcores]
    have hquestions : smpQuestions host = [.sysctl Os.SysctlKey.cores] := by
      simp [smpQuestions, hcores]
    have honline : plain.queries = [.onlineProcessors] := by
      simp only [plain, Probe.execute_eq, run_count, questionsOn]
    have hmem := hasks.mpr (by simp [hreported])
    rw [(hplain hmem).2.1, hquestions, honline]
    rfl
  · have hreported : smpReported host = some cores.toInt := by
      simp [smpReported, hcores, hthreads]
    obtain ⟨hqueries, hvalue⟩ := execute_countFreeBsd_of_reported host { level := level } hreported
      (Int32.le_iff_toInt_le.mp hle)
    refine ⟨?_, hvalue⟩
    simp only [freeBsd, hqueries]
    exact online_notMem_smpQuestions host

/-- A host with values of the kernel and a number of online processors, and nothing else to tell. -/
def kernelHost (online : Int64) (sysctl : String → Except Os.SysctlFailure Int32) : Host where
  onlineProcessors := online
  sysctl := sysctl
  logicalProcessors := none
  systemProcessorCount := 0
  file := fun _ => .error .noSuchEntry

/-- A kernel that fails to tell of its cores where the number of online processors is unknown too, and
one that does not know of threads. -/
theorem count_freeBsd_falls_back_failures :
    let host := kernelHost (-1) (fun _ => .error (.code 5))
    let coresOnly := kernelHost (-1)
      (fun key => if key = Os.SysctlKey.cores then .ok 6 else .error .notFound)
    let console : Console := { level := DisplayLevel.trace }
    let freeBsd := Strategy.freeBsd.count.execute host console
    let plain := Strategy.sysconf.count.execute host console
    .onlineProcessors ∈ freeBsd.queries ∧ freeBsd.value = plain.value ∧
      freeBsd.queries = [.sysctl Os.SysctlKey.cores, .onlineProcessors] ∧
      freeBsd.console.written =
        "lz4-cores: can't get number of cpus: sysctl failed with errno 5\n" ++
          plain.console.written ∧
      .onlineProcessors ∉ (Strategy.freeBsd.count.execute coresOnly console).queries ∧
      ((Strategy.freeBsd.count.execute coresOnly console).value.toNat : Int) = 6 := by
  intro host coresOnly console freeBsd plain
  obtain ⟨hplain, -, -, hcores, -⟩ := count_freeBsd_falls_back host DisplayLevel.trace
  obtain ⟨-, -, -, -, hthreads⟩ := count_freeBsd_falls_back coresOnly DisplayLevel.trace
  have hqueries := hcores (.code 5) rfl
  have hmem : .onlineProcessors ∈ freeBsd.queries := by decide
  have hsix := hthreads 6 .notFound rfl rfl (by decide)
  exact ⟨hmem, (hplain hmem).1, hqueries, by rfl, hsix.1, hsix.2⟩

/-- The kernel tells a value below 1. -/
def ReadBelowOne (host : Host) (key : String) : Prop :=
  ∃ n, host.sysctl key = .ok n ∧ n < 1

/-- The kernel tells a negative number of cores and a negative number of threads. -/
def BothNegative (host : Host) : Prop :=
  ∃ cores perCore, host.sysctl Os.SysctlKey.cores = .ok cores ∧
    host.sysctl Os.SysctlKey.threadsPerCore = .ok perCore ∧ cores < 0 ∧ perCore < 0

section Reads
variable {host : Host}

lemma readBelowOne_iff {key : String} {n : Int32} (h : host.sysctl key = .ok n) :
    ReadBelowOne host key ↔ n.toInt < 1 := by
  have hone : n < 1 ↔ n.toInt < 1 := Int32.lt_iff_toInt_lt
  simp [ReadBelowOne, h, hone]

lemma not_readBelowOne {key : String} {e : Os.SysctlFailure} (h : host.sysctl key = .error e) :
    ¬ReadBelowOne host key := by
  simp [ReadBelowOne, h]

lemma bothNegative_iff {cores perCore : Int32} (hcores : host.sysctl Os.SysctlKey.cores = .ok cores)
    (hthreads : host.sysctl Os.SysctlKey.threadsPerCore = .ok perCore) :
    BothNegative host ↔ cores.toInt < 0 ∧ perCore.toInt < 0 := by
  have hzero (n : Int32) : n < 0 ↔ n.toInt < 0 := Int32.lt_iff_toInt_lt
  simp [BothNegative, hcores, hthreads, hzero]

lemma product_lt_one_iff {a b : Int} (h : a < 1 ∨ b < 1) : a * b < 1 ↔ ¬(a < 0 ∧ b < 0) := by
  have hpositive : 0 < a * b ↔ 0 < a ∧ 0 < b ∨ a < 0 ∧ b < 0 := Int.mul_pos_iff
  omega

lemma smpReported_lt_one_iff
    (h : ReadBelowOne host Os.SysctlKey.cores ∨ ReadBelowOne host Os.SysctlKey.threadsPerCore) :
    (∀ q, smpReported host = some q → q < 1) ↔ ¬BothNegative host := by
  cases hcores : host.sysctl Os.SysctlKey.cores with
  | error e => simp [smpReported, BothNegative, hcores]
  | ok cores =>
    rw [readBelowOne_iff hcores] at h
    cases hthreads : host.sysctl Os.SysctlKey.threadsPerCore with
    | error e =>
      have hlt : cores.toInt < 1 := h.resolve_right (not_readBelowOne hthreads)
      simp [smpReported, BothNegative, hcores, hthreads, hlt]
    | ok perCore =>
      rw [readBelowOne_iff hthreads] at h
      rw [bothNegative_iff hcores hthreads, ← product_lt_one_iff h]
      simp [smpReported, hcores, hthreads]

end Reads

/-- Where the kernel tells a number of cores or of threads below 1, FreeBSD asks for the number of
online processors and counts these, unless both numbers are negative. Then their product is the
count, and the online processors are not asked for. -/
theorem count_freeBsd_of_nonsense (host : Host) (console : Console)
    (h : ReadBelowOne host Os.SysctlKey.cores ∨ ReadBelowOne host Os.SysctlKey.threadsPerCore) :
    let freeBsd := Strategy.freeBsd.count.execute host console
    (.onlineProcessors ∈ freeBsd.queries ∧
        (freeBsd.value.toNat : Int) = max 1 host.onlineProcessors.toInt ↔ ¬BothNegative host) ∧
    ∀ cores perCore, host.sysctl Os.SysctlKey.cores = .ok cores →
      host.sysctl Os.SysctlKey.threadsPerCore = .ok perCore → cores < 0 → perCore < 0 →
      freeBsd.queries = [.sysctl Os.SysctlKey.cores, .sysctl Os.SysctlKey.threadsPerCore] ∧
      (freeBsd.value.toNat : Int) = cores.toInt * perCore.toInt := by
  intro freeBsd
  have hasks : .onlineProcessors ∈ freeBsd.queries ↔ ¬BothNegative host :=
    (online_mem_iff host console).trans
      ((smpFinding_error_iff host).trans (smpReported_lt_one_iff h))
  refine ⟨⟨fun hmem => hasks.mp hmem.1, fun hsigns => ?_⟩,
    fun cores perCore hcores hthreads hlt hlt' => ?_⟩
  · have hmem := hasks.mpr hsigns
    obtain ⟨m, hm⟩ := (online_mem_iff host console).mp hmem
    refine ⟨hmem, ?_⟩
    simp only [freeBsd, execute_countFreeBsd_of_error host console hm, Probe.execute_eq, run_count]
    exact toNat_online host
  · have hreported : smpReported host = some (cores.toInt * perCore.toInt) := by
      simp [smpReported, hcores, hthreads]
    have hquestions : smpQuestions host =
        [.sysctl Os.SysctlKey.cores, .sysctl Os.SysctlKey.threadsPerCore] := by
      simp [smpQuestions, hcores]
    have hproduct : 0 < cores.toInt * perCore.toInt :=
      Int.mul_pos_of_neg_of_neg (Int32.lt_iff_toInt_lt.mp hlt) (Int32.lt_iff_toInt_lt.mp hlt')
    rw [← hquestions]
    exact execute_countFreeBsd_of_reported host console hreported hproduct

/-- Cores without a thread to each of them, and a machine with a negative number of both. -/
theorem count_freeBsd_of_nonsense_threadless :
    let host := kernelHost 6 (fun key => .ok (if key = Os.SysctlKey.cores then 4 else 0))
    let negative := kernelHost 6 (fun _ => .ok Int32.minValue)
    ReadBelowOne host Os.SysctlKey.threadsPerCore ∧ ¬BothNegative host ∧
      ((Strategy.freeBsd.count.execute host {}).value.toNat : Int) = 6 ∧
      ReadBelowOne negative Os.SysctlKey.cores ∧
      ((Strategy.freeBsd.count.execute negative {}).value.toNat : Int) = 2 ^ 62 := by
  intro host negative
  have hcores : host.sysctl Os.SysctlKey.cores = .ok 4 := rfl
  have hthreads : host.sysctl Os.SysctlKey.threadsPerCore = .ok 0 := rfl
  have hread : ReadBelowOne host Os.SysctlKey.threadsPerCore := ⟨0, hthreads, by decide⟩
  have hsigns : ¬BothNegative host := by
    rw [bothNegative_iff hcores hthreads]
    decide
  have hnegative : ReadBelowOne negative Os.SysctlKey.cores := ⟨Int32.minValue, rfl, by decide⟩
  have hcount := ((count_freeBsd_of_nonsense host {} (.inr hread)).1.mpr hsigns).2
  have hproduct := ((count_freeBsd_of_nonsense negative {} (.inl hnegative)).2 _ _ rfl rfl
    (by decide) (by decide)).2
  exact ⟨hread, hsigns, hcount, hnegative, hproduct⟩

/-- Numbers below 1 are not passed over everywhere: two negative ones make a count of 6. -/
theorem count_freeBsd_two_negatives :
    let host := kernelHost 4 (fun key => .ok (if key = Os.SysctlKey.cores then -2 else -3))
    let freeBsd := Strategy.freeBsd.count.execute host {}
    ReadBelowOne host Os.SysctlKey.cores ∧ ReadBelowOne host Os.SysctlKey.threadsPerCore ∧
      freeBsd.queries = [.sysctl Os.SysctlKey.cores, .sysctl Os.SysctlKey.threadsPerCore] ∧
      freeBsd.value = 6 ∧
      ¬(.onlineProcessors ∈ freeBsd.queries ∧
        (freeBsd.value.toNat : Int) = max 1 host.onlineProcessors.toInt) := by
  intro host freeBsd
  have hqueries : freeBsd.queries =
      [.sysctl Os.SysctlKey.cores, .sysctl Os.SysctlKey.threadsPerCore] := by rfl
  refine ⟨⟨-2, rfl, by decide⟩, ⟨-3, rfl, by decide⟩, hqueries, by rfl, fun hfallback => ?_⟩
  have hmem := hfallback.1
  rw [hqueries] at hmem
  exact absurd hmem (by decide)

end CoreCount.Proofs
