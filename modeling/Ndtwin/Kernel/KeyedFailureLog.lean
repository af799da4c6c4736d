import Ndtwin.ForStd.AssocMap

/-!
# The keyed failure log

`include/utils/KeyedFailureLog.hpp`: a caller records failures under a key during a
pass and closes the pass with `endPass`, which reports only the edges: a failure that
has persisted for `reportAfter`, and a reported failure that has been absent for
`forgetAfter`. Time points and durations are `Int`, in ticks of the steady clock.
`std::map` iterates in key order, so a loop over a map is a loop over `inKeyOrder`.
-/

namespace Ndtwin.Kernel

namespace KeyedFailureLog

/-- What is remembered of one failing key. -/
structure Entry where
  firstSeen : Int
  lastSeen : Int
  passes : UInt64
  reported : Bool
  deriving DecidableEq, Repr

/-- What `endPass` found. -/
structure Report where
  newFailures : List (String × String) := []
  recovered : List (String × UInt64) := []
  deriving DecidableEq, Repr

end KeyedFailureLog

open KeyedFailureLog in
structure KeyedFailureLog where
  /-- `m_thisPass`: key to message, recorded during the pass in progress. -/
  thisPass : AssocMap String String
  /-- `m_open` -/
  openEntries : AssocMap String Entry
  reportAfter : Int
  forgetAfter : Int

namespace KeyedFailureLog

/-- The constructor: `forgetAfter` defaults to twice `reportAfter`. -/
def create (reportAfter : Int) (forgetAfter : Option Int) : KeyedFailureLog where
  thisPass := ∅
  openEntries := ∅
  reportAfter := reportAfter
  forgetAfter := forgetAfter.getD (reportAfter * 2)

/-- The pairs of a `std::map`, in the order its iterators visit them. -/
def inKeyOrder {ν : Type} (m : AssocMap String ν) : List (String × ν) :=
  m.toPairs.insertionSort fun a b => a.1 ≤ b.1

def record (log : KeyedFailureLog) (key message : String) : KeyedFailureLog :=
  { log with thisPass := log.thisPass.insert key message }

/-- The first loop's test: the entry has been absent for `forgetAfter`. -/
def expired (log : KeyedFailureLog) (now : Int) (e : Entry) : Bool :=
  now - e.lastSeen ≥ log.forgetAfter ∧ log.forgetAfter > 0

/-- The third loop's test: not in this pass, and absent for `forgetAfter`. -/
def pruned (log : KeyedFailureLog) (now : Int) (key : String) (e : Entry) : Bool :=
  log.thisPass.lookup key = none ∧ now - e.lastSeen ≥ log.forgetAfter

/-- The erasing loops: the reported entries among the erased ones are recoveries. -/
def recoveries (gone : String → Entry → Bool) (m : AssocMap String Entry) :
    List (String × UInt64) :=
  (inKeyOrder m).filterMap fun (key, e) =>
    if gone key e ∧ e.reported then some (key, e.passes) else none

/-- The entry of a key recorded in this pass, before it is tested for a report. -/
def seen (now : Int) : Option Entry → Entry
  | none => { firstSeen := now, lastSeen := now, passes := 1, reported := false }
  | some e => { e with passes := e.passes + 1, lastSeen := now }

/-- Whether an entry just seen is to be reported. -/
def due (log : KeyedFailureLog) (now : Int) (e : Entry) : Bool :=
  !e.reported ∧ now - e.firstSeen ≥ log.reportAfter

/-- One pass of the recording loop. -/
def recordOne (log : KeyedFailureLog) (now : Int)
    (acc : AssocMap String Entry × List (String × String)) (kv : String × String) :
    AssocMap String Entry × List (String × String) :=
  let e := seen now (acc.1.lookup kv.1)
  if log.due now e then (acc.1.insert kv.1 { e with reported := true }, acc.2 ++ [kv])
  else (acc.1.insert kv.1 e, acc.2)

/-- Close the pass: expire, record, prune. -/
def endPass (log : KeyedFailureLog) (now : Int) : Report × KeyedFailureLog :=
  let recovered₁ := recoveries (fun _ e => log.expired now e) log.openEntries
  let open₁ := log.openEntries.filterPairs fun _ e => !log.expired now e
  let (open₂, newFailures) := (inKeyOrder log.thisPass).foldl (log.recordOne now) (open₁, [])
  let recovered₂ := recoveries (log.pruned now) open₂
  let open₃ := open₂.filterPairs fun key e => !log.pruned now key e
  ({ newFailures := newFailures, recovered := recovered₁ ++ recovered₂ },
    { log with thisPass := ∅, openEntries := open₃ })

/-- One whole pass: any records, then one `endPass`. -/
def pass (log : KeyedFailureLog) (now : Int) (records : List (String × String)) :
    Report × KeyedFailureLog :=
  (records.foldl (fun l r => l.record r.1 r.2) log).endPass now

end KeyedFailureLog

end Ndtwin.Kernel
