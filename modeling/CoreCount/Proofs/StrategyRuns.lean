import CoreCount.Memo
import Mathlib.Tactic.Lemma

/-!
# Runs of the strategies

What the strategies come to on a host, told by the host's answers alone: the count, the questions
in the order in which they are asked, and the messages.
-/

namespace CoreCount.Proofs

@[simp] lemma run_onlineProcessors (host : Host) :
    Probe.onlineProcessors.run host =
      ⟨if host.onlineProcessors < 1 then none else some host.onlineProcessors.toUInt64,
        [.onlineProcessors], []⟩ := by
  unfold Probe.onlineProcessors
  rw [Probe.run_bind, Probe.run_askOnlineProcessors]
  rfl

/-- What a host has at a path, read as a cpuinfo file. -/
def topologyAt (host : Host) (path : Bytes) : Except Cpuinfo.Error Cpuinfo.Topology :=
  match host.file path with
  | .error cause => .error (.unreadable cause)
  | .ok reads => Cpuinfo.parse reads

@[simp] lemma run_cpuinfo (host : Host) (path : Bytes) :
    (Probe.cpuinfo path).run host = ⟨topologyAt host path, [.file path], []⟩ := by
  unfold Probe.cpuinfo topologyAt
  rw [Probe.run_bind, Probe.run_askFile]
  cases host.file path <;> rfl

/-- The trace of the topology at a path, or of the error met there. -/
def topologyTrace (host : Host) (path : Bytes) : String :=
  match topologyAt host path with
  | .ok t => Strategy.topologyText t
  | .error e => Strategy.topologyUnknownText path e

theorem run_countSysconf (host : Host) :
    Strategy.countSysconf.run host =
      if host.onlineProcessors < 1 then
        ⟨fallbackCount, [.onlineProcessors], [⟨DisplayLevel.trace, Strategy.onlineUnknownText⟩]⟩
      else ⟨host.onlineProcessors.toUInt64, [.onlineProcessors], []⟩ := by
  unfold Strategy.countSysconf
  rw [Probe.run_bind, run_onlineProcessors]
  by_cases h : host.onlineProcessors < 1
  · simp [h]
  · simp [h]

theorem run_countLinux (host : Host) (path : Bytes) :
    (Strategy.countLinux path).run host =
      if host.onlineProcessors < 1 then
        ⟨fallbackCount, [.onlineProcessors], [⟨DisplayLevel.trace, Strategy.onlineUnknownText⟩]⟩
      else
        ⟨host.onlineProcessors.toUInt64, [.onlineProcessors, .file path],
          [⟨DisplayLevel.trace, topologyTrace host path⟩]⟩ := by
  unfold Strategy.countLinux topologyTrace
  rw [Probe.run_bind, run_onlineProcessors]
  by_cases h : host.onlineProcessors < 1
  · simp [h]
  · simp only [h, if_false, Probe.run_bind, run_cpuinfo]
    cases topologyAt host path <;> simp

lemma messages_countLinux {host : Host} (h : ¬host.onlineProcessors < 1) (path : Bytes) :
    ((Strategy.linux path).count.run host).messages =
      [⟨DisplayLevel.trace, topologyTrace host path⟩] := by
  change ((Strategy.countLinux path).run host).messages = _
  rw [run_countLinux, if_neg h]

/-- The number of online processors is asked for exactly once. -/
theorem count_onlineProcessors_linux (host : Host) (path : Bytes) :
    ((Strategy.linux path).count.run host).queries.count .onlineProcessors = 1 := by
  change ((Strategy.countLinux path).run host).queries.count .onlineProcessors = 1
  rw [run_countLinux]
  split <;> simp

theorem count_onlineProcessors_sysconf (host : Host) :
    (Strategy.sysconf.count.run host).queries.count .onlineProcessors = 1 := by
  change (Strategy.countSysconf.run host).queries.count .onlineProcessors = 1
  rw [run_countSysconf]
  split <;> simp

/-- The machine's own count, which is what the memo is filled with. -/
def hostCount (host : Host) : UInt64 :=
  (countHost.run host).value

theorem toNat_hostCount (host : Host) :
    (hostCount host).toNat = max 1 (Strategy.host.count.run host).value.toNat := by
  have hone : fallbackCount.toNat = 1 := rfl
  simp only [hostCount, countHost, Probe.run_bind, Probe.run_pure]
  split
  · rename_i hlt
    rw [UInt64.lt_iff_toNat_lt] at hlt
    omega
  · rename_i hle
    rw [UInt64.lt_iff_toNat_lt] at hle
    omega

theorem queries_countHost (host : Host) :
    (countHost.run host).queries = (Strategy.host.count.run host).queries := by
  simp [countHost]

theorem messages_countHost (host : Host) :
    (countHost.run host).messages = (Strategy.host.count.run host).messages := by
  simp [countHost]

end CoreCount.Proofs
