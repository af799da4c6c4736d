import Ndtwin.ForStd.AssocMap
import Ndtwin.ForStd.BoundedSearch
import Ndtwin.ForStd.EState
import Ndtwin.Kernel.FlowEntry

/-!
# The flow-table classifier

`src/ndt_core/collection/Classifier.cpp`: the rules polled from every switch, grouped into
subtables by mask and into buckets by masked value, and the lookup that visits subtables by
falling maximal priority. An update that throws leaves what it stored before the throw.

The interned masks are their bytes, and a rule's placement pointers are its table, mask and
masked value, from which they are computed on insertion and never change.
-/

namespace Ndtwin.Kernel

/-! ## Subtables -/

/-- `Subtable`: the rules of one mask. A bucket holds its rules by falling priority. -/
structure Subtable where
  mask : KeyBytes
  maxPriority : Int := -1
  buckets : AssocMap KeyBytes (List Rule) := ∅

namespace Subtable

/-- The larger of a maximum and the priority at the front of a bucket. -/
def raiseMax (mp : Int) (bucket : List Rule) : Int :=
  match bucket.head? with
  | some front => max front.priority mp
  | none => mp

/-- `recomputeMaxPriority` -/
def recomputeMaxPriority (st : Subtable) : Subtable :=
  { st with
    maxPriority := st.buckets.toPairs.foldl (fun mp bucket => raiseMax mp bucket.2) (-1) }

/-- A bucket with a rule put at its `std::lower_bound`: before the first rule whose priority
    is not higher. -/
def insertByPriority (r : Rule) (bucket : List Rule) : List Rule :=
  bucket.orderedInsert (fun a b => b.priority ≤ a.priority) r

/-- The rules of a bucket; none when there is no such bucket. -/
def bucket (st : Subtable) (value : KeyBytes) : List Rule :=
  (st.buckets.lookup value).getD []

/-- The part of `insertRuleIntoTables` inside the subtable. -/
def insertRule (st : Subtable) (r : Rule) : Subtable :=
  let bucket := insertByPriority r (st.bucket r.maskedValue)
  { st with
    buckets := st.buckets.insert r.maskedValue bucket
    maxPriority := raiseMax st.maxPriority bucket }

/-- The part of `removeRuleFromTables` inside the subtable: a bucket that becomes empty is
    erased. -/
def removeRule (st : Subtable) (r : Rule) : Subtable :=
  let buckets :=
    match st.buckets.lookup r.maskedValue with
    | none => st.buckets
    | some bucket =>
      if r ∈ bucket then
        if (bucket.erase r).isEmpty then st.buckets.erase r.maskedValue
        else st.buckets.insert r.maskedValue (bucket.erase r)
      else st.buckets
  { st with buckets := buckets }.recomputeMaxPriority

end Subtable

/-! ## Tables -/

/-- `TableClassifier`. The order holds the masks of the subtables it points to, so that it
    always sees their present maxima. -/
structure TableClassifier where
  byMask : AssocMap KeyBytes Subtable := ∅
  subtablesByPriority : List KeyBytes := []
  priorityOrderDirty : Bool := true

namespace TableClassifier

/-- The cached maximum of the subtable of a mask. -/
def maxPriorityOf (byMask : AssocMap KeyBytes Subtable) (mask : KeyBytes) : Int :=
  match byMask.lookup mask with
  | some st => st.maxPriority
  | none => -1

/-- `getOrCreateSubtable` -/
def getOrCreateSubtable (tc : TableClassifier) (mask : KeyBytes) : TableClassifier × Subtable :=
  match tc.byMask.lookup mask with
  | some st => (tc, st)
  | none =>
    let st : Subtable := { mask := mask }
    ({ tc with byMask := tc.byMask.insert mask st, priorityOrderDirty := true }, st)

/-- The part of `insertRuleIntoTables` inside the table. -/
def insertRule (tc : TableClassifier) (r : Rule) : TableClassifier :=
  let (tc, st) := tc.getOrCreateSubtable r.mask
  { tc with byMask := tc.byMask.insert r.mask (st.insertRule r), priorityOrderDirty := true }

/-- The part of `removeRuleFromTables` inside the table. -/
def removeRule (tc : TableClassifier) (r : Rule) : TableClassifier :=
  match tc.byMask.lookup r.mask with
  | none => tc
  | some st =>
    { tc with byMask := tc.byMask.insert r.mask (st.removeRule r), priorityOrderDirty := true }

/-- `rebuildPriorityOrderIfNeeded`, given the sort of the subtables. -/
def rebuildPriorityOrderIfNeeded (sort : AssocMap KeyBytes Subtable → List KeyBytes)
    (tc : TableClassifier) : TableClassifier :=
  if tc.priorityOrderDirty then
    { tc with subtablesByPriority := sort tc.byMask, priorityOrderDirty := false }
  else tc

/-- The rule a subtable offers for a key: the front of the bucket of the masked key. -/
def candidate (tc : TableClassifier) (keyBytes mask : KeyBytes) : Option Rule :=
  (tc.byMask.lookup mask).bind fun st => (st.bucket (keyBytes.bitAnd st.mask)).head?

end TableClassifier

/-- The sort of the subtables of a table. `std::sort` starts from the iteration order of a
    hash map keyed by addresses, so how it breaks ties is fixed by nothing in the program: it
    may differ for every switch, every epoch and every table. -/
structure SubtableOrder where
  sort : UInt64 → UInt64 → UInt8 → AssocMap KeyBytes Subtable → List KeyBytes
  perm : ∀ dpid epoch tableId byMask, (sort dpid epoch tableId byMask).Perm byMask.keys
  sorted : ∀ dpid epoch tableId byMask, (sort dpid epoch tableId byMask).Pairwise fun a b =>
    TableClassifier.maxPriorityOf byMask b ≤ TableClassifier.maxPriorityOf byMask a

/-! ## Switches -/

/-- A rule in `rulesById`, with the part of it that changes. -/
structure StoredRule where
  rule : Rule
  lastSeenEpoch : UInt64

/-- `SwitchClassifier` -/
structure SwitchClassifier where
  tables : AssocMap UInt8 TableClassifier := ∅
  rulesById : AssocMap RuleId StoredRule := ∅
  epoch : UInt64 := 0

namespace SwitchClassifier

/-- `getTable`: a table that is not there yet is created empty. -/
def getTable (sw : SwitchClassifier) (tableId : UInt8) : TableClassifier :=
  (sw.tables.lookup tableId).getD {}

/-- `insertRuleIntoTables` -/
def insertRuleIntoTables (sw : SwitchClassifier) (r : Rule) : SwitchClassifier :=
  { sw with tables := sw.tables.insert r.tableId ((sw.getTable r.tableId).insertRule r) }

/-- `removeRuleFromTables` -/
def removeRuleFromTables (sw : SwitchClassifier) (r : Rule) : SwitchClassifier :=
  { sw with tables := sw.tables.insert r.tableId ((sw.getTable r.tableId).removeRule r) }

/-- `upsertRule` -/
def upsertRule (sw : SwitchClassifier) (pr : Rule) : SwitchClassifier :=
  match sw.rulesById.lookup pr.id with
  | none =>
    let sw := sw.insertRuleIntoTables pr
    { sw with rulesById := sw.rulesById.insert pr.id ⟨pr, sw.epoch⟩ }
  -- a rule that is known keeps what it was stored as, whatever the new entry says
  | some stored =>
    { sw with rulesById := sw.rulesById.insert pr.id { stored with lastSeenEpoch := sw.epoch } }

/-- The ids of the rules the present epoch has not seen. -/
def toDelete (sw : SwitchClassifier) : List RuleId :=
  (sw.rulesById.toPairs.filter fun p => p.2.lastSeenEpoch ≠ sw.epoch).map Prod.fst

/-- One pass of the deletion loop of `updateOneSwitch`. -/
def deleteRule (sw : SwitchClassifier) (rid : RuleId) : SwitchClassifier :=
  match sw.rulesById.lookup rid with
  | none => sw
  | some stored =>
    let sw := sw.removeRuleFromTables stored.rule
    { sw with rulesById := sw.rulesById.erase rid }

/-- The rebuild loop of `updateOneSwitch`. -/
def rebuildPriorityOrders (ord : SubtableOrder) (dpid : UInt64) (sw : SwitchClassifier) :
    SwitchClassifier :=
  { sw with
    tables := sw.tables.mapVals fun tableId tc =>
      tc.rebuildPriorityOrderIfNeeded (ord.sort dpid sw.epoch tableId) }

/-- `sw.epoch++` -/
def nextEpoch (sw : SwitchClassifier) : SwitchClassifier :=
  { sw with epoch := sw.epoch + 1 }

/-- What `updateOneSwitch` does once every entry is parsed and marked. -/
def sweepAndRebuild (ord : SubtableOrder) (dpid : UInt64) (sw : SwitchClassifier) :
    SwitchClassifier :=
  (sw.toDelete.foldl deleteRule sw).rebuildPriorityOrders ord dpid

/-- `updateOneSwitch` -/
def updateOneSwitch (ord : SubtableOrder) (dpid : UInt64) (flowArray : List Json) :
    EStateM ParseError SwitchClassifier PUnit := do
  modify nextEpoch
  flowArray.forM (EState.storeParsed parseRuleFromJson upsertRule)
  modify (sweepAndRebuild ord dpid)

/-- `lookupInTableNoLock` -/
def lookupInTableNoLock (sw : SwitchClassifier) (tableId : UInt8) (key : FlowKey) :
    Option Rule :=
  match sw.tables.lookup tableId with
  | none => none
  | some tc =>
    BoundedSearch.search (TableClassifier.maxPriorityOf tc.byMask) (tc.candidate (packKey key))
      Rule.priority none (-1) tc.subtablesByPriority

end SwitchClassifier

/-! ## Public API -/

/-- `Classifier::Impl` -/
structure Classifier where
  switches : AssocMap UInt64 SwitchClassifier := ∅

namespace Classifier

/-- `switches[dpid]`: a switch that is not known yet is created empty. -/
def switch (c : Classifier) (dpid : UInt64) : SwitchClassifier :=
  (c.switches.lookup dpid).getD {}

/-- Run a program on one switch in place. -/
def onSwitch (dpid : UInt64) (m : EStateM ParseError SwitchClassifier PUnit) :
    EStateM ParseError Classifier PUnit := fun c =>
  match m (c.switch dpid) with
  | .ok _ sw => .ok ⟨⟩ { c with switches := c.switches.insert dpid sw }
  -- what was marked before the throw stays
  | .error e sw => .error e { c with switches := c.switches.insert dpid sw }

/-- The switch an entry of the polled array is about, and its flow array if that can be
    read. -/
def readEntry (entry : Json) : Except ParseError (UInt64 × Option (List Json)) := do
  let dpid ← (entry.atField "dpid").mapError .json >>= parseU64
  let flowNode ← (entry.atField "flows").mapError .json
  match extractFlowArray flowNode dpid with
  | some (.arr flows) => return (dpid, some flows)
  | _ => return (dpid, none)

/-- One pass of `updateFromQueriedTables`: a flow array that cannot be read is skipped, an
    empty one is applied. -/
def updateEntry (ord : SubtableOrder) (entry : Json) : EStateM ParseError Classifier PUnit := do
  match ← EState.ofExcept (readEntry entry) with
  | (dpid, some flows) => onSwitch dpid (SwitchClassifier.updateOneSwitch ord dpid flows)
  | (_, none) => return ⟨⟩

/-- `updateFromQueriedTables` -/
def updateFromQueriedTables (ord : SubtableOrder) (newTables : Json) :
    EStateM ParseError Classifier PUnit :=
  match newTables with
  | .arr entries => entries.forM (updateEntry ord)
  | _ => return ⟨⟩

/-- `knowsSwitch` -/
def knowsSwitch (c : Classifier) (dpid : UInt64) : Bool :=
  (c.switches.lookup dpid).isSome

/-- `lookup` -/
def lookup (c : Classifier) (dpid : UInt64) (key : FlowKey) (tableId : UInt8) :
    Option RuleEffect :=
  match c.switches.lookup dpid with
  | none => none
  | some sw => (sw.lookupInTableNoLock tableId key).map Rule.effect

/-- `getRuleCount` -/
def getRuleCount (c : Classifier) (dpid : UInt64) : Nat :=
  match c.switches.lookup dpid with
  | none => 0
  | some sw => sw.rulesById.keys.length

end Classifier

end Ndtwin.Kernel
