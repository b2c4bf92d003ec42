/-
# The retained sizes of the Python analyzer

`analyzer/python/src/pydump_analyzer/retained.py`: `InboundReferences` and
`RetainedHeapCalculator`.  For every object and every thread the calculator
deletes the object, or the locals of the thread, and whatever loses its last
reference by that; strict subtrees are summed up beforehand.

Python fixes neither the order in which a set is walked nor, for the claim made
about it, the order that `list.sort` leaves equal keys in.  `Orders` holds both
choices, made anew at every place of a run (`Site`).  The `while True` loops take
a bound on the number of rounds and fail with `diverged` when it is used up.
-/

import Pydump.Analyzer.Model
import Pydump.Lib.OrderChoice

namespace Pydump
namespace Analyzer

/-- The exceptions that leave `calculate`.  `diverged` is not one of the source:
it marks a loop that was given too few rounds. -/
inductive RetainedError
  | keyError
  | indexError
  | valueError (message : String)
  | diverged
  deriving DecidableEq

/-- What a run of `_retained_heap` deletes. -/
inductive Root
  | object (address : ℕ)
  | thread (index : ℕ)

/-- A place of the computation at which Python chooses an order: the program
point, with the state that tells its visits apart. -/
inductive Site
  | inboundReferences (address : ℕ)
  | subtreeFront (subtreeRoots front : Finset ℕ)
  | subtreeSum (address : ℕ)
  | locals (thread : ℕ)
  | front (root : Root) (deleted : Finset ℕ)
  | newFront (root : Root) (deleted : Finset ℕ)

/-- The orders Python chooses. -/
abbrev Orders : Type := OrderChoice Site

/-- `d[key]`. -/
def getItem {K V : Type} [DecidableEq K] (d : OrderedDict K V) (key : K) : Except RetainedError V :=
  match d.find? key with
  | some value => .ok value
  | none => .error .keyError

/-! ### `InboundReferences` -/

/-- `inbound.setdefault(referent, set()).add(address)`. -/
def addInbound (address : ℕ) (inbound : OrderedDict ℕ (Finset ℕ)) (referent : ℕ) :
    OrderedDict ℕ (Finset ℕ) :=
  inbound.insert referent (insert address ((inbound.find? referent).getD ∅))

/-- One round of the loop of `InboundReferences.__init__`. -/
def addObject (orders : Orders) (inbound : OrderedDict ℕ (Finset ℕ)) (entry : ℕ × HeapObject) :
    OrderedDict ℕ (Finset ℕ) :=
  (orders.walk (.inboundReferences entry.1) entry.2.referents).foldl (addInbound entry.1)
    (inbound.insert entry.1 ((inbound.find? entry.1).getD ∅))

/-- `InboundReferences(heap)`. -/
def inboundReferences (orders : Orders) (heap : Heap) : OrderedDict ℕ (Finset ℕ) :=
  heap.objects.entries.foldl (addObject orders) .empty

/-! ### `_find_strict_subtrees` -/

/-- The state of `_find_strict_subtrees`: the fields it fills and the front it
builds. -/
structure Subtrees where
  subtreeRoots : Finset ℕ
  objectRetained : OrderedDict ℕ ℕ
  front : Finset ℕ

/-- One round of the first loop. -/
def markLeaf (inbound : OrderedDict ℕ (Finset ℕ)) (st : Subtrees) (entry : ℕ × HeapObject) :
    Except RetainedError Subtrees :=
  if entry.2.referents = ∅ then do
    let referrers ← getItem inbound entry.1
    if referrers.card < 2 then
      pure ⟨insert entry.1 st.subtreeRoots, st.objectRetained.insert entry.1 entry.2.size, st.front ∪ referrers⟩
    else pure st
  else pure st

/-- One address of the front; the front of `st` is `next_front`. -/
def visitFront (orders : Orders) (heap : Heap) (inbound : OrderedDict ℕ (Finset ℕ)) (st : Subtrees)
    (address : ℕ) : Except RetainedError Subtrees := do
  let obj ← getItem heap.objects address
  let referrers ← getItem inbound address
  if referrers.card > 1 then pure st
  else if obj.referents \ st.subtreeRoots ≠ ∅ then pure { st with front := insert address st.front }
  else do
    let sizes ← (orders.walk (.subtreeSum address) obj.referents).mapM (getItem st.objectRetained)
    pure ⟨insert address st.subtreeRoots, st.objectRetained.insert address (obj.size + sizes.sum),
      st.front ∪ referrers⟩

/-- The `while True` loop, at most `rounds` times. -/
def growSubtrees (orders : Orders) (heap : Heap) (inbound : OrderedDict ℕ (Finset ℕ)) :
    ℕ → Subtrees → Except RetainedError Subtrees
  | 0, _ => .error .diverged
  | rounds + 1, st => do
    let next ← (orders.walk (.subtreeFront st.subtreeRoots st.front) st.front).foldlM
      (visitFront orders heap inbound) { st with front := ∅ }
    if next.front = st.front then pure next else growSubtrees orders heap inbound rounds next

def findStrictSubtrees (orders : Orders) (rounds : ℕ) (heap : Heap) (inbound : OrderedDict ℕ (Finset ℕ)) :
    Except RetainedError Subtrees := do
  let leaves ← heap.objects.entries.foldlM (markLeaf inbound) ⟨∅, .empty, ∅⟩
  growSubtrees orders heap inbound rounds leaves

/-! ### `_retained_heap` -/

/-- What `_retained_heap` reads of the calculator; `subtreeRoots` is what
`use_subtrees` lets it see of the strict subtrees. -/
structure View where
  heap : Heap
  inbound : OrderedDict ℕ (Finset ℕ)
  subtreeRoots : Finset ℕ
  objectRetained : OrderedDict ℕ ℕ

/-- The variables of `_retained_heap` and `_delete_unreferenced`. -/
structure Deletion where
  front : List ℕ
  inboundView : OrderedDict ℕ ℤ
  deleted : Finset ℕ
  retained : ℕ
  deletionHappened : Bool

/-- One round of `_decrement_inbound`. -/
def decrementOne (inbound : OrderedDict ℕ (Finset ℕ)) (inboundView : OrderedDict ℕ ℤ) (address : ℕ) :
    Except RetainedError (OrderedDict ℕ ℤ) :=
  match inboundView.find? address with
  | some count => .ok (inboundView.insert address (count - 1))
  | none => do
    let referrers ← getItem inbound address
    pure (inboundView.insert address ((referrers.card : ℤ) - 1))

/-- The part of `_delete_unreferenced` after `deletion_happened = True`. -/
def deleteCurrent (orders : Orders) (view : View) (root : Root) (current : ℕ) (st : Deletion) :
    Except RetainedError Deletion :=
  if current ∈ view.subtreeRoots then do
    let retained ← getItem view.objectRetained current
    pure { st with retained := st.retained + retained }
  else
    match view.heap.objects.find? current with
    | none => pure st
    | some obj => do
      let newFront := orders.walk (.newFront root st.deleted) (obj.referents \ st.deleted)
      let inboundView ← newFront.foldlM (decrementOne view.inbound) st.inboundView
      pure { st with
        front := st.front ++ newFront
        inboundView := inboundView
        retained := st.retained + obj.size }

/-- The loop of `_delete_unreferenced`, with `index + 1` indices still to come. -/
def deleteUnreferenced (orders : Orders) (view : View) (root : Root) : ℕ → Deletion → Except RetainedError Deletion
  | 0, st => pure st
  | index + 1, st =>
    match st.front[index]? with
    | none => .error .indexError
    | some current => do
      let count ← getItem st.inboundView current
      if count > 0 then pure st
      else if current ∈ st.deleted then deleteUnreferenced orders view root index st
      else do
        let st' ← deleteCurrent orders view root current
          { st with
            front := st.front.eraseIdx index
            deleted := insert current st.deleted
            deletionHappened := true }
        deleteUnreferenced orders view root index st'

/-- `front.sort(key=inbound_view.__getitem__, reverse=True)`. -/
def sortFront (orders : Orders) (root : Root) (st : Deletion) : Except RetainedError (List ℕ) :=
  if ∀ address ∈ st.front, address ∈ st.inboundView.keys then
    .ok (orders.sort (.front root st.deleted) (fun address => (st.inboundView.find? address).getD 0) st.front)
  else .error .keyError

/-- The `while True` loop of `_retained_heap`, at most `rounds` times. -/
def deletionPasses (orders : Orders) (view : View) (root : Root) : ℕ → Deletion → Except RetainedError ℕ
  | 0, _ => .error .diverged
  | rounds + 1, st => do
    let front ← sortFront orders root st
    let st' ← deleteUnreferenced orders view root front.length
      { st with front := front, retained := 0, deletionHappened := false }
    if ¬st'.deletionHappened then pure st.retained
    else deletionPasses orders view root rounds { st' with retained := st.retained + st'.retained }

def retainedHeap (orders : Orders) (rounds : ℕ) (view : View) (root : Root) (inboundView : OrderedDict ℕ ℤ)
    (front : List ℕ) : Except RetainedError ℕ :=
  deletionPasses orders view root rounds ⟨front, inboundView, ∅, 0, false⟩

/-! ### `RetainedHeapCalculator` -/

/-- The fields of a `RetainedHeapCalculator`. -/
structure Calculator where
  heap : Heap
  inbound : OrderedDict ℕ (Finset ℕ)
  subtreeRoots : Finset ℕ
  objectRetained : OrderedDict ℕ ℕ
  threadRetained : OrderedDict String ℕ
  calculated : Bool

/-- `RetainedHeap`. -/
structure RetainedHeap where
  objects : OrderedDict ℕ ℕ
  threads : OrderedDict String ℕ

/-- `RetainedHeapCalculator(heap, inbound)`. -/
def Calculator.new (heap : Heap) (inbound : OrderedDict ℕ (Finset ℕ)) : Calculator :=
  ⟨heap, inbound, ∅, .empty, .empty, false⟩

/-- What `_retained_heap` reads. -/
def Calculator.view (c : Calculator) (useSubtrees : Bool) : View where
  heap := c.heap
  inbound := c.inbound
  subtreeRoots := if useSubtrees then c.subtreeRoots else ∅
  objectRetained := c.objectRetained

/-- `_retained_heap_for_object`. -/
def Calculator.retainedHeapForObject (orders : Orders) (rounds : ℕ) (c : Calculator) (address : ℕ) :
    Except RetainedError ℕ :=
  retainedHeap orders rounds (c.view true) (.object address) (.ofPairs [(address, 0)]) [address]

/-- One round of the loop over the objects in `calculate`. -/
def Calculator.calculateObject (orders : Orders) (rounds : ℕ) (c : Calculator) (address : ℕ) :
    Except RetainedError Calculator := do
  let retained ← c.retainedHeapForObject orders rounds address
  pure { c with objectRetained := c.objectRetained.insert address retained }

/-- `thread == other`: the generated `__eq__` compares all fields, and a `dict` of
locals without regard to its order. -/
def HeapThread.sameFields (thread other : HeapThread) : Bool :=
  thread.name = other.name && thread.isAlive = other.isAlive && thread.isDaemon = other.isDaemon &&
    thread.stackTrace.length = other.stackTrace.length &&
    (thread.stackTrace.zip other.stackTrace).all fun (frame, other) =>
      frame.fileName = other.fileName && frame.lineNumber = other.lineNumber &&
        frame.functionName = other.functionName &&
        frame.locals.entries.length = other.locals.entries.length &&
        frame.locals.entries.all fun entry => other.locals.find? entry.1 = some entry.2

/-- How many other threads hold `address` in a frame. -/
def otherThreads (threads : List HeapThread) (removedThread : HeapThread) (address : ℕ) : ℕ :=
  ((threads.filter fun thread => ¬thread.sameFields removedThread).filter fun thread =>
    address ∈ thread.locals).length

/-- The count that a local of the removed thread starts with. -/
def localCount (inbound : OrderedDict ℕ (Finset ℕ)) (threads : List HeapThread) (removedThread : HeapThread)
    (inboundView : OrderedDict ℕ ℤ) (address : ℕ) : Except RetainedError (OrderedDict ℕ ℤ) := do
  let referrers ← getItem inbound address
  pure (inboundView.insert address ((referrers.card : ℤ) + otherThreads threads removedThread address))

/-- One round of `_calculate_threads`. -/
def Calculator.calculateThread (orders : Orders) (rounds : ℕ) (c : Calculator) (entry : HeapThread × ℕ) :
    Except RetainedError Calculator := do
  let front := orders.walk (.locals entry.2) entry.1.locals
  let inboundView ← front.foldlM (localCount c.inbound c.heap.threads entry.1) .empty
  let retained ← retainedHeap orders rounds (c.view false) (.thread entry.2) inboundView front
  pure { c with threadRetained := c.threadRetained.insert entry.1.name retained }

def Calculator.calculateThreads (orders : Orders) (rounds : ℕ) (c : Calculator) : Except RetainedError Calculator :=
  c.heap.threads.zipIdx.foldlM (Calculator.calculateThread orders rounds) c

/-- `if self._calculated: raise ValueError(...)`. -/
def Calculator.checkFresh (c : Calculator) : Except RetainedError Unit :=
  if c.calculated then .error (.valueError "retained heap is already calculated") else pure ()

def Calculator.calculate (orders : Orders) (rounds : ℕ) (c : Calculator) :
    Except RetainedError (RetainedHeap × Calculator) := do
  c.checkFresh
  let subtrees ← findStrictSubtrees orders rounds c.heap c.inbound
  let c₁ ← c.heap.objects.keys.foldlM (Calculator.calculateObject orders rounds)
    { c with subtreeRoots := subtrees.subtreeRoots, objectRetained := subtrees.objectRetained }
  let c₂ ← c₁.calculateThreads orders rounds
  pure (⟨c₂.objectRetained, c₂.threadRetained⟩, { c₂ with calculated := true })

/-- `RetainedHeapCalculator(heap, InboundReferences(heap)).calculate()`. -/
def calculateRetained (orders : Orders) (rounds : ℕ) (heap : Heap) : Except RetainedError RetainedHeap := do
  let (result, _) ← (Calculator.new heap (inboundReferences orders heap)).calculate orders rounds
  pure result

end Analyzer
end Pydump
