import CoreCount.Session
import CoreCount.Proofs.StrategyRuns
import Mathlib.Data.List.Induction

/-!
# Threads that share a memo

Threads that ask for the count at once come to a single memoized count that each of them is
given, whatever the order of their steps. While the memo is empty nothing has happened but that one
thread may have begun to fill it; once it is full the machine is not questioned again.
-/

namespace CoreCount.Proofs

/-- What one memoized count comes to in a session. -/
def memoRun (rounds : Rounds) (s : Session) : Probe.Execution (UInt64 × Memo) :=
  s.memo.count.execute (rounds s.round) s.console

def memoNext (rounds : Rounds) (s : Session) : Session :=
  { s with
    memo := (memoRun rounds s).value.2
    round := if s.memo.value?.isSome then s.round else s.round + 1 }

lemma memoRun_of_full (rounds : Rounds) {s : Session} {n : UInt64} (h : s.memo.value? = some n) :
    memoRun rounds s = ⟨(n, s.memo), [], s.console⟩ := by
  unfold memoRun Memo.count
  rw [h]
  rfl

lemma memoRun_of_empty (rounds : Rounds) {s : Session} (h : s.memo.value? = none) :
    memoRun rounds s =
      ⟨(hostCount (rounds s.round), ⟨some (hostCount (rounds s.round))⟩),
        (countHost.run (rounds s.round)).queries,
        ⟨s.level, Message.shown s.level (countHost.run (rounds s.round)).messages⟩⟩ := by
  unfold memoRun Memo.count
  rw [h, Probe.execute_eq]
  simp [hostCount, Session.console]

lemma memoRun_memo (rounds : Rounds) (s : Session) :
    (memoRun rounds s).value.2 = ⟨some (memoRun rounds s).value.1⟩ := by
  cases h : s.memo.value? with
  | none => rw [memoRun_of_empty rounds h]
  | some n =>
    rw [memoRun_of_full rounds h]
    exact congrArg Memo.mk h

lemma memoRun_level (rounds : Rounds) (s : Session) :
    (memoRun rounds s).console.level = s.level := by
  rw [memoRun, Probe.execute_eq]
  rfl

theorem step_memoized (rounds : Rounds) (s : Session) :
    s.step rounds .memoized =
      (⟨[(memoRun rounds s).value.1], (memoRun rounds s).queries,
        (memoRun rounds s).console.written⟩, memoNext rounds s) := by
  cases h : s.memo.value? with
  | none =>
    have hlevel := memoRun_level rounds s
    simp only [Session.step, h, Session.ask, memoNext, Option.isSome_none]
    rw [← memoRun, hlevel]
    rfl
  | some n =>
    simp only [Session.step, h, memoNext, memoRun_of_full rounds h, Option.isSome_some, if_true]
    rfl

/-- Threads on an empty memo. Nothing has happened but that one of them may have begun to fill it. -/
def waiting (s : Session) (size : Nat) (filling : Option Nat) : Threads :=
  { s.threads size with filling := filling }

/-- The memo is full: one memoized count has run, and some threads have been given it. -/
structure Filled (rounds : Rounds) (s : Session) (size : Nat) (t : Threads) : Prop where
  memo : t.memo = (memoRun rounds s).value.2
  round : t.round = (memoNext rounds s).round
  queries : t.queries = (memoRun rounds s).queries
  console : t.console = (memoRun rounds s).console
  size_eq : t.counts.length = size
  given : ∀ c ∈ t.counts, c = none ∨ c = some (memoRun rounds s).value.1

lemma hasCount_iff (t : Threads) (k : Nat) :
    t.hasCount k ↔ ∃ n, t.counts[k]? = some (some n) := by
  cases h : t.counts[k]? with
  | none => simp [Threads.hasCount, h]
  | some c => cases c <;> simp [Threads.hasCount, h]

lemma step_of_full (rounds : Rounds) {t : Threads} {n : UInt64} (h : t.memo.value? = some n)
    (k : Nat) : t.step rounds k = t ∧ (t.counts.length ≤ k ∨ t.hasCount k) ∨
      t.step rounds k = { t with counts := t.counts.set k (some n) } ∧ k < t.counts.length := by
  by_cases hk : t.counts.length ≤ k ∨ t.hasCount k
  · exact .inl ⟨by simp [Threads.step, hk], hk⟩
  · refine .inr ⟨by simp [Threads.step, hk, h], ?_⟩
    simp only [not_or, Nat.not_le] at hk
    exact hk.1

/-- A thread that finds the memo full asks nothing and writes nothing. -/
lemma exists_counts_of_full (rounds : Rounds) {t : Threads} {n : UInt64}
    (h : t.memo.value? = some n) (k : Nat) : ∃ counts, t.step rounds k = { t with counts := counts } := by
  rcases step_of_full rounds h k with ⟨hstep, -⟩ | ⟨hstep, -⟩
  · exact ⟨t.counts, hstep⟩
  · exact ⟨t.counts.set k (some n), hstep⟩

lemma Filled.step {rounds : Rounds} {s : Session} {size : Nat} {t : Threads}
    (h : Filled rounds s size t) (k : Nat) :
    Filled rounds s size (t.step rounds k) ∧ (k < size → (t.step rounds k).hasCount k) ∧
      ∀ j, t.hasCount j → (t.step rounds k).hasCount j := by
  have hv : t.memo.value? = some (memoRun rounds s).value.1 := by rw [h.memo, memoRun_memo]
  rcases step_of_full rounds hv k with ⟨hstep, hk⟩ | ⟨hstep, hk⟩
  · rw [hstep]
    refine ⟨h, fun hlt => ?_, fun _ hj => hj⟩
    rw [h.size_eq] at hk
    exact hk.resolve_left (by omega)
  · rw [hstep]
    refine ⟨⟨h.memo, h.round, h.queries, h.console, ?_, ?_⟩, fun _ => ?_, fun j hj => ?_⟩
    · simpa using h.size_eq
    · intro c hc
      rcases List.mem_or_eq_of_mem_set hc with hc | hc
      · exact h.given c hc
      · exact .inr hc
    · rw [hasCount_iff]
      exact ⟨_, List.getElem?_set_self hk⟩
    · obtain ⟨n, hn⟩ := (hasCount_iff t j).mp hj
      rw [hasCount_iff]
      by_cases hjk : k = j
      · subst hjk
        exact ⟨_, List.getElem?_set_self hk⟩
      · exact ⟨n, by simpa [List.getElem?_set_ne hjk] using hn⟩

lemma Filled.steps {rounds : Rounds} {s : Session} {size : Nat} {t : Threads}
    (h : Filled rounds s size t) (schedule : List Nat) :
    Filled rounds s size (t.steps rounds schedule) ∧
      (∀ k ∈ schedule, k < size → (t.steps rounds schedule).hasCount k) ∧
      ∀ j, t.hasCount j → (t.steps rounds schedule).hasCount j := by
  induction schedule generalizing t with
  | nil => exact ⟨h, by simp, fun _ hj => hj⟩
  | cons k schedule ih =>
    obtain ⟨hfilled, hk, hkeep⟩ := h.step k
    obtain ⟨hfilled', hall, hkeep'⟩ := ih hfilled
    refine ⟨hfilled', fun j hj hlt => ?_, fun j hj => hkeep' j (hkeep j hj)⟩
    rcases List.mem_cons.mp hj with rfl | hj
    · exact hkeep' j (hk hlt)
    · exact hall j hj hlt

lemma hasCount_waiting (s : Session) (size : Nat) (filling : Option Nat) (k : Nat) :
    (waiting s size filling).hasCount k = false := by
  rw [Bool.eq_false_iff]
  intro hk
  obtain ⟨n, hn⟩ := (hasCount_iff _ k).mp hk
  have hmem : some n ∈ List.replicate size (none : Option UInt64) := List.mem_of_getElem? hn
  simp at hmem

lemma length_waiting (s : Session) (size : Nat) (filling : Option Nat) :
    (waiting s size filling).counts.length = size := by
  simp [waiting, Session.threads]

lemma step_waiting_outside (rounds : Rounds) (s : Session) {size k : Nat} (filling : Option Nat)
    (hk : size ≤ k) : (waiting s size filling).step rounds k = waiting s size filling := by
  simp [Threads.step, length_waiting, hk]

lemma step_waiting_begins (rounds : Rounds) {s : Session} (h : s.memo.value? = none) {size k : Nat}
    (hk : k < size) : (waiting s size none).step rounds k = waiting s size (some k) := by
  have hle : ¬size ≤ k := by omega
  have hmemo : (waiting s size none).memo.value? = none := h
  simp only [Threads.step, length_waiting, hasCount_waiting, hle, hmemo]
  rfl

lemma step_waiting_waits (rounds : Rounds) {s : Session} (h : s.memo.value? = none)
    {size filler k : Nat} (hk : k ≠ filler) :
    (waiting s size (some filler)).step rounds k = waiting s size (some filler) := by
  have hne : ¬filler = k := fun he => hk he.symm
  have hmemo : (waiting s size (some filler)).memo.value? = none := h
  have hfilling : (waiting s size (some filler)).filling = some filler := rfl
  simp [Threads.step, hmemo, hfilling, hne]

lemma step_waiting_fills (rounds : Rounds) {s : Session} (h : s.memo.value? = none)
    {size filler : Nat} (hf : filler < size) :
    Filled rounds s size ((waiting s size (some filler)).step rounds filler) ∧
      ((waiting s size (some filler)).step rounds filler).hasCount filler := by
  have hle : ¬size ≤ filler := by omega
  have hmemo : (waiting s size (some filler)).memo.value? = none := h
  have hfilling : (waiting s size (some filler)).filling = some filler := rfl
  have hstep : (waiting s size (some filler)).step rounds filler =
      { memo := (memoRun rounds s).value.2
        round := s.round + 1
        filling := some filler
        counts := (List.replicate size none).set filler (some (memoRun rounds s).value.1)
        queries := (memoRun rounds s).queries
        console := (memoRun rounds s).console } := by
    simp only [Threads.step, length_waiting, hasCount_waiting, hle, hmemo, hfilling, if_true]
    rfl
  rw [hstep]
  refine ⟨⟨rfl, ?_, rfl, rfl, by simp, fun c hc => ?_⟩, ?_⟩
  · simp [memoNext, h]
  · rcases List.mem_or_eq_of_mem_set hc with hc | hc
    · exact .inl (List.eq_of_mem_replicate hc)
    · exact .inr hc
  · rw [hasCount_iff]
    exact ⟨_, List.getElem?_set_self (by simpa using hf)⟩

lemma steps_waiting (rounds : Rounds) {s : Session} (h : s.memo.value? = none) {size filler : Nat}
    (hf : filler < size) (schedule : List Nat) :
    (waiting s size (some filler)).steps rounds schedule = waiting s size (some filler) ∧
        filler ∉ schedule ∨
      Filled rounds s size ((waiting s size (some filler)).steps rounds schedule) := by
  induction schedule with
  | nil => exact .inl ⟨rfl, by simp⟩
  | cons k schedule ih =>
    by_cases hk : k = filler
    · subst hk
      exact .inr ((step_waiting_fills rounds h hf).1.steps schedule).1
    · have hstep : (waiting s size (some filler)).steps rounds (k :: schedule) =
          (waiting s size (some filler)).steps rounds schedule := by
        rw [Threads.steps, List.foldl_cons, step_waiting_waits rounds h hk]
        rfl
      rw [hstep]
      refine ih.imp_left (fun ⟨hsame, hmem⟩ => ⟨hsame, ?_⟩)
      simpa [hmem] using fun he : filler = k => hk he.symm

/-- Threads that have taken some steps: nobody has a count yet, or the memo is full. -/
inductive Underway (rounds : Rounds) (s : Session) (size : Nat) : Threads → Prop where
  | unfilled (filling : Option Nat) (h : s.memo.value? = none)
      (hf : ∀ k, filling = some k → k < size) : Underway rounds s size (waiting s size filling)
  | filled {t : Threads} (h : Filled rounds s size t) : Underway rounds s size t

lemma underway_threads (rounds : Rounds) (s : Session) (size : Nat) :
    Underway rounds s size (s.threads size) := by
  cases h : s.memo.value? with
  | none => exact .unfilled none h (by simp)
  | some n =>
    have hrun := memoRun_of_full rounds h
    refine .filled ⟨?_, ?_, ?_, ?_, by simp [Session.threads], fun c hc => ?_⟩
    · rw [hrun]
      rfl
    · simp [memoNext, h, Session.threads]
    · rw [hrun]
      rfl
    · rw [hrun]
      rfl
    · exact .inl (List.eq_of_mem_replicate hc)

lemma Underway.step {rounds : Rounds} {s : Session} {size : Nat} {t : Threads}
    (h : Underway rounds s size t) (k : Nat) : Underway rounds s size (t.step rounds k) := by
  cases h with
  | unfilled filling h hf =>
    by_cases hk : size ≤ k
    · rw [step_waiting_outside rounds s filling hk]
      exact .unfilled filling h hf
    · cases filling with
      | none =>
        rw [step_waiting_begins rounds h (by omega)]
        refine .unfilled (some k) h (fun j hj => ?_)
        obtain rfl : k = j := Option.some.inj hj
        omega
      | some filler =>
        by_cases he : k = filler
        · subst he
          exact .filled (step_waiting_fills rounds h (hf k rfl)).1
        · rw [step_waiting_waits rounds h he]
          exact .unfilled (some filler) h hf
  | filled h => exact .filled (h.step k).1

theorem Underway.steps {rounds : Rounds} {s : Session} {size : Nat} {t : Threads}
    (h : Underway rounds s size t) (schedule : List Nat) :
    Underway rounds s size (t.steps rounds schedule) := by
  induction schedule generalizing t with
  | nil => exact h
  | cons k schedule ih => exact ih (h.step k)

lemma Underway.length_counts {rounds : Rounds} {s : Session} {size : Nat} {t : Threads}
    (h : Underway rounds s size t) : t.counts.length = size := by
  cases h with
  | unfilled filling => exact length_waiting s size filling
  | filled h => exact h.size_eq

lemma steps_range_succ (rounds : Rounds) (t : Threads) (size : Nat) :
    t.steps rounds (List.range (size + 1)) =
      (t.step rounds 0).steps rounds ((List.range size).map Nat.succ) := by
  rw [List.range_succ_eq_map]
  rfl

/-- After a pass over all threads the memo is full, or the first thread has begun to fill it. -/
lemma Underway.pass {rounds : Rounds} {s : Session} {size : Nat} {t : Threads}
    (h : Underway rounds s (size + 1) t) :
    Filled rounds s (size + 1) (t.steps rounds (List.range (size + 1))) ∨
      s.memo.value? = none ∧
        t.steps rounds (List.range (size + 1)) = waiting s (size + 1) (some 0) := by
  cases h with
  | unfilled filling h hf =>
    cases filling with
    | none =>
      rw [steps_range_succ, step_waiting_begins rounds h (by omega)]
      rcases steps_waiting rounds h (Nat.zero_lt_succ size) ((List.range size).map Nat.succ) with
        ⟨hsame, -⟩ | hfilled
      · exact .inr ⟨h, hsame⟩
      · exact .inl hfilled
    | some filler =>
      have hlt := hf filler rfl
      rcases steps_waiting rounds h hlt (List.range (size + 1)) with ⟨-, hnot⟩ | hfilled
      · exact absurd (List.mem_range.mpr hlt) hnot
      · exact .inl hfilled
  | filled h => exact .inl (h.steps _).1

lemma Underway.finish {rounds : Rounds} {s : Session} {size : Nat} {t : Threads}
    (h : Underway rounds s (size + 1) t) :
    Filled rounds s (size + 1) (t.finish rounds) ∧
      ∀ k, k < size + 1 → (t.finish rounds).hasCount k := by
  have hfinish : t.finish rounds =
      (t.steps rounds (List.range (size + 1))).steps rounds (List.range (size + 1)) := by
    simp only [Threads.finish, h.length_counts]
  rw [hfinish]
  rcases h.pass with hfilled | ⟨hempty, hbegun⟩
  · obtain ⟨hdone, hall, -⟩ := hfilled.steps (List.range (size + 1))
    exact ⟨hdone, fun k hk => hall k (List.mem_range.mpr hk) hk⟩
  · -- the first thread fills the memo, and whoever waited comes after it
    obtain ⟨hfilled, hzero⟩ := step_waiting_fills rounds hempty (Nat.zero_lt_succ size)
    obtain ⟨hdone, hall, hkeep⟩ := hfilled.steps ((List.range size).map Nat.succ)
    rw [hbegun, steps_range_succ]
    refine ⟨hdone, fun k hk => ?_⟩
    cases k with
    | zero => exact hkeep 0 hzero
    | succ k => exact hall (k + 1) (by simpa using hk) hk

lemma Filled.counts_eq {rounds : Rounds} {s : Session} {size : Nat} {t : Threads}
    (h : Filled rounds s size t) (hall : ∀ k, k < size → t.hasCount k) :
    t.counts = List.replicate size (some (memoRun rounds s).value.1) := by
  rw [List.eq_replicate_iff]
  refine ⟨h.size_eq, fun c hc => (h.given c hc).resolve_left ?_⟩
  rintro rfl
  obtain ⟨k, hk, hget⟩ := List.getElem_of_mem hc
  obtain ⟨n, hn⟩ := (hasCount_iff t k).mp (hall k (h.size_eq ▸ hk))
  rw [List.getElem?_eq_getElem hk, hget] at hn
  simp at hn

/-- Threads that ask at once come to one memoized count, which each of them is given, in any
interleaving of their steps. -/
theorem step_together (rounds : Rounds) (s : Session) (size : Nat) (schedule : List Nat) :
    s.step rounds (.together (size + 1) schedule) =
      (⟨List.replicate (size + 1) (memoRun rounds s).value.1, (memoRun rounds s).queries,
        (memoRun rounds s).console.written⟩, memoNext rounds s) := by
  have hunderway := (underway_threads rounds s (size + 1)).steps schedule
  obtain ⟨hfilled, hall⟩ := hunderway.finish
  simp only [Session.step, hfilled.counts_eq hall, hfilled.memo, hfilled.round, hfilled.queries,
    hfilled.console, memoRun_level]
  simp [memoNext]

theorem step_together_zero (rounds : Rounds) (s : Session) (schedule : List Nat) :
    s.step rounds (.together 0 schedule) = ({}, s) := by
  have hstep (k : Nat) : (s.threads 0).step rounds k = s.threads 0 := by
    simp [Threads.step, Session.threads]
  have hsteps (ks : List Nat) : (s.threads 0).steps rounds ks = s.threads 0 := by
    induction ks with
    | nil => rfl
    | cons k ks ih =>
      rw [Threads.steps, List.foldl_cons, hstep]
      exact ih
  simp only [Session.step, Threads.finish, hsteps]
  rfl

end CoreCount.Proofs
