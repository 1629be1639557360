import CoreCount.Memo

/-!
The counts that one process asks for, on a machine whose answers may change from one round of
questions to the next. Counts that use the memo may also be asked for by several threads at
once, in any interleaving: one thread fills the memo and the others wait for it.
-/

namespace CoreCount

/-- The answers of a machine, one host for each round of questions. -/
abbrev Rounds := Nat → Host

structure Session where
  level : UInt32 := DisplayLevel.normal
  memo : Memo := {}
  /-- How many rounds of questions have been asked. -/
  round : Nat := 0

/-- What a process can do. -/
inductive Call where
  | setLevel (level : UInt32)
  | memoized
  | uncached
  | strategy (strategy : Strategy)
  /-- Threads that ask for the memoized count at once. The schedule says which thread takes the
  next step; when it ends, every thread runs to its end. -/
  | together (threads : Nat) (schedule : List Nat)

/-- The counts that a call gives, one for each thread, with the questions it asks and what it
writes to the error stream. -/
structure Reply where
  counts : List UInt64 := []
  queries : List Query := []
  stderr : String := ""

/-- Threads that share a memo. -/
structure Threads where
  memo : Memo
  round : Nat
  /-- The thread that fills the memo. -/
  filling : Option Nat := none
  /-- The count of each thread that has one. -/
  counts : List (Option UInt64)
  queries : List Query := []
  console : Console

namespace Threads

def hasCount (t : Threads) (thread : Nat) : Bool :=
  (t.counts[thread]?.join).isSome

/-- One step of a thread: it takes the count from the memo, begins to fill it, fills it, or
waits. -/
def step (rounds : Rounds) (t : Threads) (thread : Nat) : Threads :=
  if t.counts.length ≤ thread ∨ t.hasCount thread then t
  else
    match t.memo.value?, t.filling with
    | some n, _ => { t with counts := t.counts.set thread (some n) }
    | none, none => { t with filling := some thread }
    | none, some filler =>
      if filler = thread then
        let e := t.memo.count.execute (rounds t.round) t.console
        { t with
          memo := e.value.2
          round := t.round + 1
          counts := t.counts.set thread (some e.value.1)
          queries := t.queries ++ e.queries
          console := e.console }
      else t

def steps (rounds : Rounds) (t : Threads) (schedule : List Nat) : Threads :=
  schedule.foldl (step rounds) t

/-- Ends every thread in two passes over all of them. Unless the memo is full, some thread
fills it in the first pass or, being the first to begin, at the start of the second; whoever had
to wait takes the count in the second. -/
def finish (rounds : Rounds) (t : Threads) : Threads :=
  let all := List.range t.counts.length
  (t.steps rounds all).steps rounds all

end Threads

namespace Session

/-- A console that shows what one call writes. -/
def console (s : Session) : Console :=
  { level := s.level }

/-- Runs a probe in a round of its own. -/
def ask {α : Type} (rounds : Rounds) (s : Session) (probe : Probe α) :
    Probe.Execution α × Session :=
  let e := probe.execute (rounds s.round) s.console
  (e, { s with level := e.console.level, round := s.round + 1 })

/-- Threads at their start. -/
def threads (s : Session) (count : Nat) : Threads :=
  { memo := s.memo, round := s.round, counts := List.replicate count none, console := s.console }

/-- The reply to a call, and the session after it. -/
def step (rounds : Rounds) (s : Session) : Call → Reply × Session
  | .setLevel level => ({}, { s with level := level })
  | .memoized =>
    match s.memo.value? with
    | some n => ({ counts := [n] }, s)
    | none =>
      let (e, next) := s.ask rounds s.memo.count
      (⟨[e.value.1], e.queries, e.console.written⟩, { next with memo := e.value.2 })
  | .uncached =>
    let (e, next) := s.ask rounds countHost
    (⟨[e.value], e.queries, e.console.written⟩, next)
  | .strategy strategy =>
    let (e, next) := s.ask rounds strategy.count
    (⟨[e.value], e.queries, e.console.written⟩, next)
  | .together count schedule =>
    let t := ((s.threads count).steps rounds schedule).finish rounds
    (⟨t.counts.filterMap id, t.queries, t.console.written⟩,
      { s with level := t.console.level, memo := t.memo, round := t.round })

/-- The replies to calls in turn. -/
def run (rounds : Rounds) (s : Session) : List Call → List Reply
  | [] => []
  | call :: rest =>
    let (reply, next) := s.step rounds call
    reply :: next.run rounds rest

end Session

end CoreCount
