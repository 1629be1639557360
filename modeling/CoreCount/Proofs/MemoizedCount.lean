import CoreCount.Proofs.SharedMemo

/-!
# The count that a process keeps

A process may set the display level, ask for the memoized count, alone or with several threads at
once, and question the machine anew, in any order and on a machine whose answers drift. The
machine is questioned once for all memoized counts, and they are all the same.
-/

namespace CoreCount.Proofs

/-- How many counts a call takes from the memo. -/
def memoizedCounts : Call → Nat
  | .memoized => 1
  | .together threads _ => threads
  | .setLevel _ | .uncached | .strategy _ => 0

def usesMemo (call : Call) : Bool :=
  0 < memoizedCounts call

/-- What a call runs that questions the machine anew. -/
def ownProbe? : Call → Option (Probe UInt64)
  | .uncached => some countHost
  | .strategy strategy => some strategy.count
  | .setLevel _ | .memoized | .together _ _ => none

def asksAnew (call : Call) : Bool :=
  (ownProbe? call).isSome

def levelAfter (level : UInt32) : List Call → UInt32
  | [] => level
  | .setLevel new :: rest => levelAfter new rest
  | _ :: rest => levelAfter level rest

/-- How many calls question the machine anew before the first that uses the memo. -/
def fillingRound (calls : List Call) : Nat :=
  (calls.takeWhile (fun call => !usesMemo call)).countP asksAnew

/-- How many rounds of questions calls come to: one for each that questions the machine anew, and
one for all that use the memo. -/
def roundsOf (calls : List Call) : Nat :=
  calls.countP asksAnew + if calls.any usesMemo then 1 else 0

def ownReply (probe : Probe UInt64) (host : Host) (level : UInt32) : Reply :=
  let o := probe.run host
  ⟨[o.value], o.queries, Message.shown level o.messages⟩

def sessionAfter (rounds : Rounds) (s : Session) (calls : List Call) : Session :=
  calls.foldl (fun s call => (s.step rounds call).2) s

def memoQueries (calls : List Call) (replies : List Reply) : List Query :=
  ((calls.zip replies).filter (fun p => usesMemo p.1)).flatMap (fun p => p.2.queries)

lemma step_usesMemo (rounds : Rounds) (s : Session) {call : Call} (h : usesMemo call) :
    s.step rounds call =
      (⟨List.replicate (memoizedCounts call) (memoRun rounds s).value.1,
        (memoRun rounds s).queries, (memoRun rounds s).console.written⟩, memoNext rounds s) := by
  cases call with
  | memoized => exact step_memoized rounds s
  | together threads schedule =>
    cases threads with
    | zero => simp [usesMemo, memoizedCounts] at h
    | succ size => exact step_together rounds s size schedule
  | setLevel level => simp [usesMemo, memoizedCounts] at h
  | uncached => simp [usesMemo, memoizedCounts] at h
  | strategy strategy => simp [usesMemo, memoizedCounts] at h

lemma step_ownProbe (rounds : Rounds) (s : Session) {call : Call} (probe : Probe UInt64)
    (h : ownProbe? call = some probe) :
    s.step rounds call =
      (ownReply probe (rounds s.round) s.level, { s with round := s.round + 1 }) := by
  have hask : s.ask rounds probe =
      (⟨(probe.run (rounds s.round)).value, (probe.run (rounds s.round)).queries,
        ⟨s.level, Message.shown s.level (probe.run (rounds s.round)).messages⟩⟩,
        { s with round := s.round + 1 }) := by
    simp [Session.ask, Probe.execute_eq, Session.console]
  cases call with
  | uncached =>
    obtain rfl : countHost = probe := by simpa [ownProbe?] using h
    simp [Session.step, hask, ownReply]
  | strategy strategy =>
    obtain rfl : strategy.count = probe := by simpa [ownProbe?] using h
    simp [Session.step, hask, ownReply]
  | setLevel level => simp [ownProbe?] at h
  | memoized => simp [ownProbe?] at h
  | together threads schedule => simp [ownProbe?] at h

lemma step_not_usesMemo (rounds : Rounds) (s : Session) {call : Call} (h : usesMemo call = false) :
    (s.step rounds call).2 =
      { s with
        level := levelAfter s.level [call]
        round := s.round + if asksAnew call then 1 else 0 } := by
  cases call with
  | setLevel level => rfl
  | memoized => simp [usesMemo, memoizedCounts] at h
  | uncached => rw [step_ownProbe rounds s countHost rfl]; rfl
  | strategy strategy => rw [step_ownProbe rounds s strategy.count rfl]; rfl
  | together threads schedule =>
    cases threads with
    | zero => rw [step_together_zero]; rfl
    | succ size => simp [usesMemo, memoizedCounts] at h

lemma step_keeps_memo (rounds : Rounds) (s : Session) {call : Call} (h : usesMemo call = false) :
    (s.step rounds call).2.memo = s.memo := by
  rw [step_not_usesMemo rounds s h]

lemma memoNext_of_full (rounds : Rounds) {s : Session} {n : UInt64} (h : s.memo.value? = some n) :
    memoNext rounds s = s := by
  simp [memoNext, memoRun_of_full rounds h, h]

lemma memoNext_of_empty (rounds : Rounds) {s : Session} (h : s.memo.value? = none) :
    memoNext rounds s =
      { s with memo := ⟨some (hostCount (rounds s.round))⟩, round := s.round + 1 } := by
  simp [memoNext, memoRun_of_empty rounds h, h]

lemma fillingRound_cons (call : Call) (calls : List Call) :
    fillingRound (call :: calls) =
      if usesMemo call then 0 else fillingRound calls + if asksAnew call then 1 else 0 := by
  unfold fillingRound
  cases h : usesMemo call with
  | true => simp [h]
  | false => simp [h, List.countP_cons]

lemma fillingRound_append (before rest : List Call) (h : before.any usesMemo) :
    fillingRound (before ++ rest) = fillingRound before := by
  induction before with
  | nil => simp at h
  | cons call before ih =>
    rw [List.cons_append, fillingRound_cons, fillingRound_cons]
    cases hc : usesMemo call with
    | true => rfl
    | false =>
      have hbefore : before.any usesMemo := by simpa [hc] using h
      rw [ih hbefore]

lemma fillingRound_first (before rest : List Call) {call : Call} (h : before.any usesMemo = false)
    (hcall : usesMemo call) : fillingRound (before ++ call :: rest) = roundsOf before := by
  induction before with
  | nil => simp [fillingRound_cons, hcall, roundsOf]
  | cons first before ih =>
    simp only [List.any_cons, Bool.or_eq_false_iff] at h
    rw [List.cons_append, fillingRound_cons, ih h.2]
    simp [roundsOf, h.1, h.2, List.countP_cons]

lemma levelAfter_cons (level : UInt32) (call : Call) (calls : List Call) :
    levelAfter level (call :: calls) = levelAfter (levelAfter level [call]) calls := by
  cases call <;> rfl

lemma levelAfter_usesMemo (level : UInt32) {call : Call} (h : usesMemo call) :
    levelAfter level [call] = level := by
  cases call <;> first | rfl | simp [usesMemo, memoizedCounts] at h

lemma asksAnew_usesMemo {call : Call} (h : usesMemo call) : asksAnew call = false := by
  cases call <;> first | rfl | simp [usesMemo, memoizedCounts] at h

lemma sessionAfter_cons (rounds : Rounds) (s : Session) (call : Call) (calls : List Call) :
    sessionAfter rounds s (call :: calls) = sessionAfter rounds (s.step rounds call).2 calls := rfl

lemma sessionAfter_of_full (rounds : Rounds) {s : Session} {n : UInt64}
    (h : s.memo.value? = some n) (calls : List Call) :
    sessionAfter rounds s calls =
      { s with level := levelAfter s.level calls, round := s.round + calls.countP asksAnew } := by
  induction calls generalizing s with
  | nil => rfl
  | cons call calls ih =>
    rw [sessionAfter_cons, levelAfter_cons, List.countP_cons]
    cases hc : usesMemo call with
    | true =>
      rw [step_usesMemo rounds s hc, memoNext_of_full rounds h, ih h, levelAfter_usesMemo _ hc,
        asksAnew_usesMemo hc]
      rfl
    | false =>
      rw [ih (step_keeps_memo rounds s hc ▸ h), step_not_usesMemo rounds s hc]
      simp only [Nat.add_assoc, Nat.add_comm (calls.countP asksAnew)]

/-- An empty memo is filled by the first call that uses it, and by no other. -/
lemma sessionAfter_of_empty (rounds : Rounds) {s : Session} (h : s.memo.value? = none)
    (calls : List Call) :
    sessionAfter rounds s calls =
      { level := levelAfter s.level calls
        memo := if calls.any usesMemo then ⟨some (hostCount (rounds (s.round + fillingRound calls)))⟩
          else s.memo
        round := s.round + roundsOf calls } := by
  induction calls generalizing s with
  | nil => rfl
  | cons call calls ih =>
    rw [sessionAfter_cons, levelAfter_cons, fillingRound_cons, List.any_cons]
    cases hc : usesMemo call with
    | true =>
      rw [step_usesMemo rounds s hc, memoNext_of_empty rounds h, sessionAfter_of_full rounds rfl,
        levelAfter_usesMemo _ hc]
      simp [roundsOf, hc, asksAnew_usesMemo hc]
      omega
    | false =>
      have hrounds : roundsOf (call :: calls) = (if asksAnew call then 1 else 0) + roundsOf calls := by
        simp only [roundsOf, List.countP_cons, List.any_cons, hc, Bool.false_or]
        omega
      rw [ih (step_keeps_memo rounds s hc ▸ h), step_not_usesMemo rounds s hc, hrounds]
      simp only [Bool.false_or, Bool.false_eq_true, if_false, Nat.add_assoc,
        Nat.add_comm (fillingRound calls)]

lemma getElem?_run (rounds : Rounds) (s : Session) (before : List Call) (call : Call)
    (after : List Call) :
    (s.run rounds (before ++ call :: after))[before.length]? =
      some ((sessionAfter rounds s before).step rounds call).1 := by
  induction before generalizing s with
  | nil => rfl
  | cons first before ih =>
    simp only [List.cons_append, Session.run, List.length_cons, List.getElem?_cons_succ]
    exact ih (s.step rounds first).2

lemma memoQueries_cons (call : Call) (calls : List Call) (reply : Reply) (replies : List Reply) :
    memoQueries (call :: calls) (reply :: replies) =
      (if usesMemo call then reply.queries else []) ++ memoQueries calls replies := by
  cases h : usesMemo call <;> simp [memoQueries, h]

lemma memoQueries_of_full (rounds : Rounds) {s : Session} {n : UInt64}
    (h : s.memo.value? = some n) (calls : List Call) :
    memoQueries calls (s.run rounds calls) = [] := by
  induction calls generalizing s with
  | nil => rfl
  | cons call calls ih =>
    rw [Session.run, memoQueries_cons]
    cases hc : usesMemo call with
    | true =>
      rw [step_usesMemo rounds s hc, memoNext_of_full rounds h, memoRun_of_full rounds h]
      simpa using ih h
    | false => simpa using ih (step_keeps_memo rounds s hc ▸ h)

lemma memoQueries_of_empty (rounds : Rounds) {s : Session} (h : s.memo.value? = none)
    (calls : List Call) :
    memoQueries calls (s.run rounds calls) =
      if calls.any usesMemo then
        (countHost.run (rounds (s.round + fillingRound calls))).queries
      else [] := by
  induction calls generalizing s with
  | nil => rfl
  | cons call calls ih =>
    rw [Session.run, memoQueries_cons, fillingRound_cons, List.any_cons]
    cases hc : usesMemo call with
    | true =>
      rw [step_usesMemo rounds s hc, memoNext_of_empty rounds h,
        memoQueries_of_full rounds rfl, memoRun_of_empty rounds h]
      simp
    | false =>
      rw [ih (step_keeps_memo rounds s hc ▸ h), step_not_usesMemo rounds s hc]
      simp only [Bool.false_or, Bool.false_eq_true, if_false, List.nil_append, Nat.add_assoc,
        Nat.add_comm (fillingRound calls)]

/-- Calls that run the machine's own strategy, or one that also rests on its number of online
processors. -/
def asksOnline : Call → Prop
  | .uncached | .strategy (.linux _) | .strategy .sysconf => True
  | _ => False

lemma count_onlineProcessors_ownProbe {call : Call} {probe : Probe UInt64} (h : asksOnline call)
    (hp : ownProbe? call = some probe) (host : Host) :
    (probe.run host).queries.count .onlineProcessors = 1 := by
  unfold asksOnline at h
  split at h
  · obtain rfl : countHost = probe := by simpa [ownProbe?] using hp
    rw [queries_countHost]
    exact count_onlineProcessors_linux host _
  · rename_i path
    obtain rfl : (Strategy.linux path).count = probe := by simpa [ownProbe?] using hp
    exact count_onlineProcessors_linux host path
  · obtain rfl : Strategy.sysconf.count = probe := by simpa [ownProbe?] using hp
    exact count_onlineProcessors_sysconf host
  · contradiction

lemma sessionAfter_fresh (rounds : Rounds) (calls : List Call) :
    sessionAfter rounds {} calls =
      { level := levelAfter DisplayLevel.normal calls
        memo := if calls.any usesMemo then ⟨some (hostCount (rounds (fillingRound calls)))⟩ else {}
        round := roundsOf calls } := by
  simpa only [Nat.zero_add] using sessionAfter_of_empty rounds (s := {}) rfl calls

/-- The memo is empty until the first call that uses it, and from then on it has the count of that
call's round. -/
lemma memo_sessionAfter_fresh (rounds : Rounds) (before after : List Call) :
    (sessionAfter rounds {} before).memo.value? =
      if before.any usesMemo then some (hostCount (rounds (fillingRound (before ++ after))))
      else none := by
  rw [sessionAfter_fresh]
  cases hb : before.any usesMemo with
  | true => simp [fillingRound_append before after hb]
  | false => rfl

lemma step_usesMemo_later (rounds : Rounds) (before after : List Call) {call : Call}
    (hcall : usesMemo call) (h : before.any usesMemo) :
    ((sessionAfter rounds {} before).step rounds call).1 =
      ⟨List.replicate (memoizedCounts call)
        (hostCount (rounds (fillingRound (before ++ call :: after)))), [], ""⟩ := by
  have hmemo := memo_sessionAfter_fresh rounds before (call :: after)
  rw [h, if_pos rfl] at hmemo
  rw [step_usesMemo rounds _ hcall, memoRun_of_full rounds hmemo]
  rfl

lemma step_usesMemo_first (rounds : Rounds) (before after : List Call) {call : Call}
    (hcall : usesMemo call) (h : before.any usesMemo = false) :
    let host := rounds (fillingRound (before ++ call :: after))
    ((sessionAfter rounds {} before).step rounds call).1 =
      ⟨List.replicate (memoizedCounts call) (hostCount host),
        (Strategy.host.count.run host).queries,
        Message.shown (levelAfter DisplayLevel.normal before)
          (Strategy.host.count.run host).messages⟩ := by
  intro host
  have hround : roundsOf before = fillingRound (before ++ call :: after) :=
    (fillingRound_first before after h hcall).symm
  have hmemo := memo_sessionAfter_fresh rounds before (call :: after)
  rw [h] at hmemo
  rw [step_usesMemo rounds _ hcall, memoRun_of_empty rounds hmemo, sessionAfter_fresh, hround,
    queries_countHost, messages_countHost]

/-- Whatever calls a fresh process makes, and however the answers of the machine drift from one
round of questions to the next: every count that uses the memo, in any thread, is the machine's own
count at the first such call, and at least 1. The memo is filled by that call and never changes. All
of these calls together question the machine once, if there are any. The first of them writes what
this one round of questions shows at its level, also where it is a call of several threads, and the
later ones write nothing, whatever the level by then: a thread that finds the memo full changes
nothing but who has the count. A call that questions the machine anew gets the answers of a round of
its own, whether the memo is full or not. -/
theorem memoized_counts_agree (rounds : Rounds) (calls : List Call) :
    let replies := Session.run rounds {} calls
    let host := rounds (fillingRound calls)
    let n := hostCount host
    1 ≤ n.toNat ∧ n.toNat = max 1 (Strategy.host.count.run host).value.toNat ∧
    (∀ before after, calls = before ++ after →
      (sessionAfter rounds {} before).memo.value? =
        if before.any usesMemo then some n else none) ∧
    (∀ before call after, calls = before ++ call :: after → usesMemo call →
      ∃ reply, replies[before.length]? = some reply ∧
        reply.counts = List.replicate (memoizedCounts call) n ∧
        (before.any usesMemo → reply.queries = [] ∧ reply.stderr = "") ∧
        (before.any usesMemo = false →
          reply.queries = (Strategy.host.count.run host).queries ∧
          reply.stderr = Message.shown (levelAfter DisplayLevel.normal before)
            (Strategy.host.count.run host).messages)) ∧
    (∀ (t : Threads) (thread : Nat) (kept : UInt64), t.memo.value? = some kept →
      ∃ counts, t.step rounds thread = { t with counts := counts }) ∧
    memoQueries calls replies =
      (if calls.any usesMemo then (Strategy.host.count.run host).queries else []) ∧
    (memoQueries calls replies).count .onlineProcessors =
      (if calls.any usesMemo then 1 else 0) ∧
    (∀ before call after probe, calls = before ++ call :: after → ownProbe? call = some probe →
      ∃ reply, replies[before.length]? = some reply ∧
        reply = ownReply probe (rounds (roundsOf before)) (levelAfter DisplayLevel.normal before) ∧
        (asksOnline call → reply.queries.count .onlineProcessors = 1)) := by
  intro replies host n
  have hn : n.toNat = max 1 (Strategy.host.count.run host).value.toNat := toNat_hostCount host
  have hqueries : memoQueries calls replies =
      if calls.any usesMemo then (Strategy.host.count.run host).queries else [] := by
    have hempty := memoQueries_of_empty rounds (s := {}) rfl calls
    rw [Nat.zero_add, queries_countHost] at hempty
    exact hempty
  refine ⟨by omega, hn, ?_, ?_, fun t thread kept hkept => ?_, hqueries, ?_, ?_⟩
  · intro before after hcalls
    rw [memo_sessionAfter_fresh rounds before after, ← hcalls]
  · intro before call after hcalls hcall
    refine ⟨_, hcalls ▸ getElem?_run rounds {} before call after, ?_⟩
    cases hany : before.any usesMemo with
    | true =>
      rw [step_usesMemo_later rounds before after hcall hany, ← hcalls]
      simp [n, host]
    | false =>
      rw [step_usesMemo_first rounds before after hcall hany, ← hcalls]
      simp [n, host]
  · exact exists_counts_of_full rounds hkept thread
  · rw [hqueries]
    split
    · exact count_onlineProcessors_linux host _
    · rfl
  · intro before call after probe hcalls hprobe
    refine ⟨_, hcalls ▸ getElem?_run rounds {} before call after, ?_, fun hasks => ?_⟩
    · rw [step_ownProbe rounds _ probe hprobe, sessionAfter_fresh]
    · rw [step_ownProbe rounds _ probe hprobe]
      exact count_onlineProcessors_ownProbe hasks hprobe _

end CoreCount.Proofs
