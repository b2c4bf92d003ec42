/-
# The retained sizes of the Go analyzer

`analyzer/go/internal/analysis/retained.go`: `CalculateRetainedHeap` on the nodes
of a `Graph`.  It is a port of the Python calculation, with slices where Python has
sets; sums are kept in `uint64` and wrap.

The loops without a bound take the number of rounds and fail with `diverged` when
it is used up.
-/

import Pydump.Go.Graph

namespace Pydump
namespace Go

/-- `RetainedHeap`. -/
structure RetainedHeap where
  objects : List ℕ
  threads : OrderedDict String ℕ

/-- `retainedCalculator`. -/
structure Calculator where
  heap : Heap
  graph : Graph
  subtreeRoots : List Bool
  objectRetained : List ℕ
  threadRetained : OrderedDict String ℕ

/-! ### `findStrictSubtrees` -/

/-- The fields that `findStrictSubtrees` fills, and the front it builds. -/
structure Subtrees where
  subtreeRoots : List Bool
  objectRetained : List ℕ
  front : Finset ℕ

/-- One round of the first loop. -/
def markLeaf (graph : Graph) (st : Subtrees) (entry : Object × ℕ) : Except AnalysisError Subtrees := do
  let index := entry.2 % 2 ^ 32
  let referents ← graph.objectReferents index
  if referents.length = 0 then do
    let count ← graph.inboundCount index
    if count < 2 then do
      let subtreeRoots ← setAt st.subtreeRoots index true
      let objectRetained ← setAt st.objectRetained index entry.1.size
      let parents ← graph.inboundReferences index
      pure ⟨subtreeRoots, objectRetained, st.front ∪ parents.toFinset⟩
    else pure st
  else pure st

/-- The loop that computes `allSubtrees`. -/
def allSubtrees (graph : Graph) (subtreeRoots : List Bool) : List ℕ → Except AnalysisError Bool
  | [] => pure true
  | referent :: rest =>
    if referent ≥ graph.objectCount then pure false
    else do
      let root ← getAt subtreeRoots referent
      if ¬root then pure false else allSubtrees graph subtreeRoots rest

/-- `retained += c.objectRetained[referent]`. -/
def addRetained (objectRetained : List ℕ) (retained referent : ℕ) : Except AnalysisError ℕ := do
  let more ← getAt objectRetained referent
  pure ((retained + more) % 2 ^ 64)

/-- One node of the front; the front of `st` is `next`. -/
def visitFront (heap : Heap) (graph : Graph) (st : Subtrees) (current : ℕ) : Except AnalysisError Subtrees := do
  let count ← graph.inboundCount current
  if count > 1 then pure st
  else do
    let referents ← graph.objectReferents current
    let all ← allSubtrees graph st.subtreeRoots referents
    if ¬all then pure { st with front := insert current st.front }
    else do
      let subtreeRoots ← setAt st.subtreeRoots current true
      let object ← getAt heap.objects current
      let retained ← referents.foldlM (addRetained st.objectRetained) object.size
      let objectRetained ← setAt st.objectRetained current retained
      let parents ← graph.inboundReferences current
      pure ⟨subtreeRoots, objectRetained, st.front ∪ parents.toFinset⟩

/-- `equalNodeSets`. -/
def equalNodeSets (left right : Finset ℕ) : Bool := left.card = right.card && decide (∀ item ∈ left, item ∈ right)

/-- The second loop, at most `rounds` times. -/
def growSubtrees (orders : Orders) (heap : Heap) (graph : Graph) : ℕ → Subtrees → Except AnalysisError Subtrees
  | 0, _ => .error .diverged
  | rounds + 1, st => do
    let next ← (orders.walk (.subtreeFront st.subtreeRoots st.front) st.front).foldlM
      (visitFront heap graph) { st with front := ∅ }
    if equalNodeSets st.front next.front then pure next else growSubtrees orders heap graph rounds next

def Calculator.findStrictSubtrees (orders : Orders) (rounds : ℕ) (c : Calculator) :
    Except AnalysisError Calculator := do
  let leaves ← c.heap.objects.zipIdx.foldlM (markLeaf c.graph) ⟨c.subtreeRoots, c.objectRetained, ∅⟩
  let st ← growSubtrees orders c.heap c.graph rounds leaves
  pure { c with subtreeRoots := st.subtreeRoots, objectRetained := st.objectRetained }

/-! ### `retained` -/

/-- The variables of `retained` and `deleteUnreferenced`. -/
structure Deletion where
  front : List ℕ
  inboundView : OrderedDict ℕ ℤ
  deleted : Finset ℕ
  retained : ℕ
  deletionHappened : Bool

/-- `inboundView[node]`. -/
def Deletion.count (st : Deletion) (node : ℕ) : ℤ := (st.inboundView.find? node).getD 0

/-- The count that a referent is decremented from. -/
def referentCount (graph : Graph) (st : Deletion) (referent : ℕ) : Except AnalysisError ℤ :=
  match st.inboundView.find? referent with
  | some count => .ok count
  | none => graph.inboundCount referent

/-- One round of the loop over the referents of a deleted object. -/
def decrement (graph : Graph) (st : Deletion) (referent : ℕ) : Except AnalysisError Deletion :=
  if referent ∈ st.deleted then pure st
  else do
    let count ← referentCount graph st referent
    pure { st with
      inboundView := st.inboundView.insert referent (count - 1)
      front := st.front ++ [referent] }

/-- The part of `deleteUnreferenced` that adds the size of an object and follows
its referents; a node that is no object adds nothing. -/
def followReferents (c : Calculator) (current : ℕ) (st : Deletion) : Except AnalysisError Deletion :=
  if current ≥ c.graph.objectCount then pure st
  else do
    let object ← getAt c.heap.objects current
    let referents ← c.graph.objectReferents current
    referents.foldlM (decrement c.graph) { st with retained := (st.retained + object.size) % 2 ^ 64 }

/-- The part of `deleteUnreferenced` after `deletionHappened = true`. -/
def deleteCurrent (c : Calculator) (useSubtrees : Bool) (current : ℕ) (st : Deletion) :
    Except AnalysisError Deletion :=
  if useSubtrees ∧ current < c.graph.objectCount then do
    let root ← getAt c.subtreeRoots current
    if root then do
      let retained ← getAt c.objectRetained current
      pure { st with retained := (st.retained + retained) % 2 ^ 64 }
    else followReferents c current st
  else followReferents c current st

/-- The loop of `deleteUnreferenced`, with `index + 1` indices still to come. -/
def deleteUnreferenced (c : Calculator) (useSubtrees : Bool) : ℕ → Deletion → Except AnalysisError Deletion
  | 0, st => pure st
  | index + 1, st => do
    let current ← getAt st.front index
    if st.count current > 0 then pure st
    else if current ∈ st.deleted then deleteUnreferenced c useSubtrees index st
    else do
      let st' ← deleteCurrent c useSubtrees current
        { st with
          front := st.front.eraseIdx index
          deleted := insert current st.deleted
          deletionHappened := true }
      deleteUnreferenced c useSubtrees index st'

/-- `sort.Slice(front, ...)`. -/
def sortFront (orders : Orders) (root : Root) (st : Deletion) : List ℕ :=
  orders.sort (.front root st.deleted) st.count st.front

/-- The loop of `retained`, at most `rounds` times; `retained` of the state is `result`. -/
def deletionPasses (orders : Orders) (c : Calculator) (useSubtrees : Bool) (root : Root) :
    ℕ → Deletion → Except AnalysisError ℕ
  | 0, _ => .error .diverged
  | rounds + 1, st => do
    let front := sortFront orders root st
    let st' ← deleteUnreferenced c useSubtrees front.length
      { st with front := front, retained := 0, deletionHappened := false }
    if ¬st'.deletionHappened then pure st.retained
    else do
      let next := { st' with retained := (st.retained + st'.retained) % 2 ^ 64 }
      deletionPasses orders c useSubtrees root rounds next

def Calculator.retained (orders : Orders) (rounds : ℕ) (c : Calculator) (root : Root) (inboundView : OrderedDict ℕ ℤ)
    (front : List ℕ) (useSubtrees : Bool) : Except AnalysisError ℕ :=
  deletionPasses orders c useSubtrees root rounds ⟨front, inboundView, ∅, 0, false⟩

/-- `retainedForObject`. -/
def Calculator.retainedForObject (orders : Orders) (rounds : ℕ) (c : Calculator) (object : ℕ) :
    Except AnalysisError ℕ :=
  c.retained orders rounds (.object object) (.ofPairs [(object, 0)]) [object] true

/-- One round of the loop over the objects in `CalculateRetainedHeap`. -/
def Calculator.calculateObject (orders : Orders) (rounds : ℕ) (c : Calculator) (object : ℕ) :
    Except AnalysisError Calculator := do
  let retained ← c.retainedForObject orders rounds object
  let objectRetained ← setAt c.objectRetained object retained
  pure { c with objectRetained := objectRetained }

/-- How many threads at other indices hold `address` in a frame. -/
def otherThreads (threadLocals : List (Finset ℕ)) (removedIndex address : ℕ) : ℕ :=
  ((threadLocals.zipIdx.filter fun other => other.2 ≠ removedIndex).filter fun other => address ∈ other.1).length

/-- `view` and `front` of a thread while they are filled. -/
structure Locals where
  view : OrderedDict ℕ ℤ
  front : List ℕ

/-- One round of the loop over the locals of the removed thread. -/
def addLocal (graph : Graph) (threadLocals : List (Finset ℕ)) (removedIndex : ℕ) (st : Locals) (address : ℕ) :
    Except AnalysisError Locals := do
  let node := (graph.addressIndex.find? address).getD 0
  let count ← graph.inboundCount node
  pure ⟨st.view.insert node (count + otherThreads threadLocals removedIndex address), st.front ++ [node]⟩

/-- One round of the loop over the threads. -/
def Calculator.calculateThread (orders : Orders) (rounds : ℕ) (threadLocals : List (Finset ℕ)) (c : Calculator)
    (entry : Thread × ℕ) : Except AnalysisError Calculator := do
  let removedLocals ← getAt threadLocals entry.2
  let locals ← (orders.walk (.locals entry.2) removedLocals).foldlM (addLocal c.graph threadLocals entry.2) ⟨.empty, []⟩
  let retained ← c.retained orders rounds (.thread entry.2) locals.view locals.front false
  pure { c with threadRetained := c.threadRetained.insert entry.1.name retained }

def Calculator.calculateThreads (orders : Orders) (rounds : ℕ) (c : Calculator) : Except AnalysisError Calculator :=
  c.heap.threads.zipIdx.foldlM
    (Calculator.calculateThread orders rounds (c.heap.threads.map Thread.localAddresses)) c

/-- `CalculateRetainedHeap`. -/
def calculateRetainedHeap (orders : Orders) (rounds : ℕ) (value : Heap) : Except AnalysisError RetainedHeap := do
  let graph ← buildGraph orders value
  let calculator ← Calculator.findStrictSubtrees orders rounds ⟨value, graph,
    List.replicate graph.objectCount false, List.replicate graph.objectCount 0, .empty⟩
  let calculator ← (List.range graph.objectCount).foldlM (Calculator.calculateObject orders rounds) calculator
  let calculator ← calculator.calculateThreads orders rounds
  pure ⟨calculator.objectRetained, calculator.threadRetained⟩

end Go
end Pydump
