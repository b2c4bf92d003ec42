/-
# What the Python analyzer takes from a cache entry

`RetainedHeapCache.load` asks no document whether it belongs to the heap.  Whatever
can be read as numbers is returned, and what is missing there is missing in the
result; `usedOnlyIfComplete_iff` says for which documents nothing is.
-/

import Pydump.Analyzer.Cache
import Pydump.Lib.ExceptLoop

namespace Pydump
namespace Analyzer

open ExceptLoop

variable {python : Interpreter} {doc : Json} {heap : Heap}

/-! ### The statement -/

/-- The items that a document has under `key`: what its last member of this name holds,
where both are objects. -/
def itemsOf (doc : Json) (key : String) : Option (OrderedDict JsonText Json) :=
  match doc with
  | .object members =>
    match (OrderedDict.ofPairs members).find? (.ofString key) with
    | some (.object items) => some (.ofPairs items)
    | _ => none
  | _ => none

/-- Every object address and every thread name of the heap has an entry, and an item of
the document that it was taken from. -/
structure CachedHeap.CompleteFor (python : Interpreter) (doc : Json) (heap : Heap) (retained : CachedHeap) : Prop where
  objects : ∀ address ∈ heap.objects.keys, ∃ items, itemsOf doc "objects" = some items ∧
    ∃ item ∈ items.entries, ∃ size, intOfText python item.1 = .ok (address : ℤ) ∧ intOf python item.2 = .ok size ∧
      retained.objects.find? (address : ℤ) = some size
  threads : ∀ thread ∈ heap.threads, ∃ items, itemsOf doc "threads" = some items ∧
    ∃ item ∈ items.entries, ∃ size, item.1 = .ofString thread.name ∧ intOf python item.2 = .ok size ∧
      retained.threads.find? (.ofString thread.name) = some size

/-- The document is rejected, or the result is complete. -/
def UsedOnlyIfComplete (python : Interpreter) (doc : Json) (heap : Heap) : Prop :=
  loadCache python (.document doc) = .ok none ∨
    ∃ retained, loadCache python (.document doc) = .ok (some retained) ∧ retained.CompleteFor python doc heap

/-- The conversions of a document in their order: the addresses and sizes of its objects,
then the sizes of its threads. -/
def conversions (doc : Json) : List (Option JsonText × Json) :=
  match itemsOf doc "objects" with
  | none => []
  | some objects =>
    (objects.entries.map fun item => (some item.1, item.2)) ++
      match itemsOf doc "threads" with
      | none => []
      | some threads => threads.entries.map fun item => (none, item.2)

/-- The address, where there is one, can be read. -/
def ReadsAddress (python : Interpreter) (conversion : Option JsonText × Json) : Prop :=
  ∀ text ∈ conversion.1, ∃ address, intOfText python text = .ok address

/-- The address and the size can be read. -/
def Converts (python : Interpreter) (conversion : Option JsonText × Json) : Prop :=
  ReadsAddress python conversion ∧ ∃ size, intOf python conversion.2 = .ok size

/-- The address can be read, and the size is a number too large for a float. -/
def Overflows (python : Interpreter) (conversion : Option JsonText × Json) : Prop :=
  ReadsAddress python conversion ∧ ∃ q, conversion.2 = .real q ∧ floatOfReal |q| = none

/-- The first conversion that fails does not fail for the size of a float. -/
def NoOverflowFirst (python : Interpreter) (doc : Json) : Prop :=
  ∀ before conversion after, conversions doc = before ++ conversion :: after →
    (∀ c ∈ before, Converts python c) → ¬Overflows python conversion

/-- The document has items for objects and threads, all of which can be read. -/
def Readable (python : Interpreter) (doc : Json) : Prop :=
  (itemsOf doc "objects").isSome ∧ (itemsOf doc "threads").isSome ∧ ∀ c ∈ conversions doc, Converts python c

/-- The document names every object address and every thread of the heap. -/
def NamesAll (python : Interpreter) (doc : Json) (heap : Heap) : Prop :=
  (∀ address ∈ heap.objects.keys, ∃ items, itemsOf doc "objects" = some items ∧
    ∃ item ∈ items.entries, intOfText python item.1 = .ok (address : ℤ)) ∧
  ∀ thread ∈ heap.threads, ∃ items, itemsOf doc "threads" = some items ∧ JsonText.ofString thread.name ∈ items.keys

/-- No nesting stops `json.load`; and a document without integers of too many digits has
no float of infinite size before another fault, and names everything if it has no
fault. -/
def SafeDocument (python : Interpreter) (doc : Json) (heap : Heap) : Prop :=
  doc.fault? python.allowsInteger python.recursionLimit ≠ some .tooDeep ∧
    (doc.fault? python.allowsInteger python.recursionLimit = none →
      NoOverflowFirst python doc ∧ (Readable python doc → NamesAll python doc heap))

/-! ### Conversions -/

/-- `int` of a string raises a `ValueError` only. -/
theorem intOfText_error {text : JsonText} {e : CacheError} (h : intOfText python text = .error e) :
    e = .valueError := by
  unfold intOfText at h
  dsimp only at h
  split at h
  · cases h
    rfl
  · split_ifs at h
    cases h
    rfl

/-- `int` of a value raises what is caught, but for a float that is too large. -/
theorem intOf_error {value : Json} {e : CacheError} (h : intOf python value = .error e) :
    e.caught = true ∧ (∀ q, value = .real q → floatOfReal |q| ≠ none) ∨
      e.caught = false ∧ ∃ q, value = .real q ∧ floatOfReal |q| = none := by
  cases value with
  | null =>
    cases h
    exact .inl ⟨rfl, fun q hq => nomatch hq⟩
  | bool b => cases h
  | integer negative magnitude => cases h
  | real q =>
    rw [intOf, intOfReal] at h
    split at h
    · rename_i hnone
      cases h
      exact .inr ⟨rfl, q, rfl, hnone⟩
    · cases h
  | string text =>
    rw [intOfText_error h]
    exact .inl ⟨rfl, fun q hq => nomatch hq⟩
  | array elements =>
    cases h
    exact .inl ⟨rfl, fun q hq => nomatch hq⟩
  | object members =>
    cases h
    exact .inl ⟨rfl, fun q hq => nomatch hq⟩

/-! ### The two comprehensions -/

/-- One item, whose name is read with `key`: the round of both comprehensions. -/
def loadItem {κ : Type} [DecidableEq κ] (python : Interpreter) (key : JsonText → Except CacheError κ)
    (result : OrderedDict κ ℤ) (item : JsonText × Json) : Except CacheError (OrderedDict κ ℤ) := do
  let k ← key item.1
  let size ← intOf python item.2
  pure (result.insert k size)

/-- The loop over the objects, with addresses as keys. -/
theorem loadObject_eq : loadObject python = loadItem python (intOfText python) := rfl

/-- The loop over the threads, with names as keys. -/
theorem loadThread_eq : loadThread python = loadItem python Except.ok := rfl

section

variable {κ : Type} [DecidableEq κ] {key : JsonText → Except CacheError κ} {item : JsonText × Json}
  {result result' : OrderedDict κ ℤ}

/-- An item that is loaded has a key and a size. -/
theorem loadItem_ok (h : loadItem python key result item = .ok result') :
    ∃ k size, key item.1 = .ok k ∧ intOf python item.2 = .ok size ∧ result' = result.insert k size := by
  rw [loadItem, bind_eq_ok] at h
  obtain ⟨k, hk, h⟩ := h
  rw [bind_eq_ok] at h
  obtain ⟨size, hsize, h⟩ := h
  cases h
  exact ⟨k, size, hk, hsize, rfl⟩

/-- **What a round raises** is caught, but for a float that is too large behind a name that
can be read. -/
theorem loadItem_error (hkey : ∀ text e, key text = .error e → e.caught = true) {e : CacheError}
    (h : loadItem python key result item = .error e) :
    e.caught = false ↔ (∃ k, key item.1 = .ok k) ∧ ∃ q, item.2 = .real q ∧ floatOfReal |q| = none := by
  rw [loadItem] at h
  cases hname : key item.1 with
  | error e' =>
    rw [bind_error hname] at h
    cases h
    refine iff_of_false (by rw [hkey _ _ hname]; decide) ?_
    rintro ⟨⟨k, hk⟩, -⟩
    cases hk
  | ok k =>
    rw [bind_ok hname] at h
    cases hsize : intOf python item.2 with
    | ok size =>
      rw [bind_ok hsize] at h
      cases h
    | error e' =>
      rw [bind_error hsize] at h
      cases h
      rcases intOf_error hsize with ⟨hcaught, hfloat⟩ | ⟨hcaught, hfloat⟩
      · refine iff_of_false (by rw [hcaught]; decide) ?_
        rintro ⟨-, q, hq, hnone⟩
        exact hfloat q hq hnone
      · exact iff_of_true hcaught ⟨⟨k, rfl⟩, hfloat⟩

/-- **A comprehension that runs to its end** has read every item, and every name that was
read has a size that was read with it. -/
theorem loadItems_ok {items : List (JsonText × Json)} (h : items.foldlM (loadItem python key) .empty = .ok result) :
    ∀ item ∈ items, (∃ size, intOf python item.2 = .ok size) ∧ ∃ k, key item.1 = .ok k ∧
      ∃ item' ∈ items, ∃ size, key item'.1 = .ok k ∧ intOf python item'.2 = .ok size ∧ result.find? k = some size := by
  refine foldlM_inv (fun seen result => ∀ item ∈ seen, (∃ size, intOf python item.2 = .ok size) ∧
    ∃ k, key item.1 = .ok k ∧ ∃ item' ∈ seen, ∃ size, key item'.1 = .ok k ∧ intOf python item'.2 = .ok size ∧
      result.find? k = some size) (fun _ h => absurd h List.not_mem_nil) ?_ h
  intro seen x s s' hseen hx item hitem
  obtain ⟨k, size, hk, hsize, rfl⟩ := loadItem_ok hx
  have hnew : x ∈ seen ++ [x] := List.mem_append_right seen (List.mem_singleton_self x)
  rcases List.mem_append.1 hitem with hold | hlast
  · obtain ⟨hitemSize, k', hk', item', hitem', size', hkey', hsize', hfind⟩ := hseen item hold
    refine ⟨hitemSize, k', hk', ?_⟩
    by_cases hkk : k = k'
    · -- the last item with this name counts
      exact ⟨x, hnew, size, hkk ▸ hk, hsize, by rw [OrderedDict.find?_insert, if_pos hkk]⟩
    · exact ⟨item', List.mem_append_left _ hitem', size', hkey', hsize', by
        rw [OrderedDict.find?_insert, if_neg hkk, hfind]⟩
  · obtain rfl := List.mem_singleton.1 hlast
    exact ⟨⟨size, hsize⟩, k, hk, item, hnew, size, hk, hsize, by rw [OrderedDict.find?_insert, if_pos rfl]⟩

end

/-! ### The whole document -/

/-- An object converts if and only if its key and its size do. -/
theorem converts_object {item : JsonText × Json} :
    Converts python (some item.1, item.2) ↔ (∃ a, intOfText python item.1 = .ok a) ∧
      ∃ size, intOf python item.2 = .ok size := by
  refine and_congr ⟨fun h => h item.1 rfl, fun h text ht => ?_⟩ Iff.rfl
  cases ht
  exact h

/-- An object overflows if and only if its size does, behind a key that converts. -/
theorem overflows_object {item : JsonText × Json} :
    Overflows python (some item.1, item.2) ↔
      (∃ a, intOfText python item.1 = .ok a) ∧ ∃ q, item.2 = .real q ∧ floatOfReal |q| = none := by
  refine and_congr ⟨fun h => h item.1 rfl, fun h text ht => ?_⟩ Iff.rfl
  cases ht
  exact h

/-- A thread converts if and only if its size does. -/
theorem converts_thread {item : JsonText × Json} :
    Converts python (none, item.2) ↔ ∃ size, intOf python item.2 = .ok size :=
  and_iff_right fun _ ht => nomatch ht

/-- A thread overflows if and only if its size does. -/
theorem overflows_thread {item : JsonText × Json} :
    Overflows python (none, item.2) ↔ ∃ q, item.2 = .real q ∧ floatOfReal |q| = none :=
  and_iff_right fun _ ht => nomatch ht

/-- What overflows does not convert. -/
theorem not_converts_of_overflows {c : Option JsonText × Json} (h : Overflows python c) : ¬Converts python c := by
  obtain ⟨-, q, hq, hnone⟩ := h
  rintro ⟨-, size, hsize⟩
  rw [hq, intOf, intOfReal, hnone] at hsize
  cases hsize

/-- Where everything converts, nothing overflows. -/
theorem noOverflowFirst_of_converts (h : ∀ c ∈ conversions doc, Converts python c) : NoOverflowFirst python doc := by
  intro before c after hsplit _ hoverflow
  refine not_converts_of_overflows hoverflow (h c ?_)
  rw [hsplit]
  exact List.mem_append_right before List.mem_cons_self

/-- **The first conversion that fails decides.** -/
theorem noOverflowFirst_iff {before after : List (Option JsonText × Json)} {c : Option JsonText × Json}
    (hsplit : conversions doc = before ++ c :: after) (hbefore : ∀ b ∈ before, Converts python b)
    (hc : ¬Converts python c) : NoOverflowFirst python doc ↔ ¬Overflows python c := by
  refine ⟨fun h => h before c after hsplit hbefore, fun h before' c' after' hsplit' hbefore' hoverflow => h ?_⟩
  rw [first_unique (hsplit.symm.trans hsplit') hbefore hc hbefore' (not_converts_of_overflows hoverflow)]
  exact hoverflow

variable {members : List (JsonText × Json)} {key : String}

/-- `value[key].items()`. -/
theorem items_ok {items' : OrderedDict JsonText Json} (h : itemsOf (.object members) key = some items') :
    (subscript (.ofPairs members) key >>= items) = .ok items' := by
  rw [subscript]
  dsimp only [itemsOf] at h
  split at h
  · rename_i hfind
    rw [hfind]
    exact congrArg Except.ok (Option.some.inj h)
  · cases h

/-- An entry without items is refused by an error that is caught. -/
theorem items_error (h : itemsOf (.object members) key = none) :
    ∃ e, (subscript (.ofPairs members) key >>= items) = .error e ∧ e.caught = true := by
  rw [subscript]
  dsimp only [itemsOf] at h
  cases hfind : (OrderedDict.ofPairs members).find? (.ofString key) with
  | none => exact ⟨.keyError, rfl, rfl⟩
  | some value =>
    rw [hfind] at h
    cases value with
    | object items' => cases h
    | null => exact ⟨.attributeError, rfl, rfl⟩
    | bool b => exact ⟨.attributeError, rfl, rfl⟩
    | integer negative magnitude => exact ⟨.attributeError, rfl, rfl⟩
    | real q => exact ⟨.attributeError, rfl, rfl⟩
    | string text => exact ⟨.attributeError, rfl, rfl⟩
    | array elements => exact ⟨.attributeError, rfl, rfl⟩

/-- The four ways that `load` can take. -/
inductive Loads (python : Interpreter) (members : List (JsonText × Json)) : Except CacheError CachedHeap → Prop
  | noItems {key : String} {e : CacheError} (missing : itemsOf (.object members) key = none)
    (converts : ∀ c ∈ conversions (.object members), Converts python c) (name : key = "objects" ∨ key = "threads")
    (caught : e.caught = true) : Loads python members (.error e)
  | stops {before after : List (Option JsonText × Json)} {c : Option JsonText × Json} {e : CacheError}
    (split : conversions (.object members) = before ++ c :: after) (converts : ∀ b ∈ before, Converts python b)
    (fails : ¬Converts python c) (caught : e.caught = false ↔ Overflows python c) : Loads python members (.error e)
  | reads {objects threads : OrderedDict JsonText Json} {retained : CachedHeap}
    (objectItems : itemsOf (.object members) "objects" = some objects)
    (threadItems : itemsOf (.object members) "threads" = some threads)
    (converts : ∀ c ∈ conversions (.object members), Converts python c)
    (loadObjects : objects.entries.foldlM (loadItem python (intOfText python)) .empty = .ok retained.objects)
    (loadThreads : threads.entries.foldlM (loadItem python Except.ok) .empty = .ok retained.threads) :
    Loads python members (.ok retained)

/-- The objects come first. -/
theorem conversions_of_items {objects : OrderedDict JsonText Json} (h : itemsOf doc "objects" = some objects) :
    ∃ rest, conversions doc = objects.entries.map (fun item => (some item.1, item.2)) ++ rest ∧
      (itemsOf doc "threads" = none → rest = []) ∧
      ∀ threads, itemsOf doc "threads" = some threads → rest = threads.entries.map fun item => (none, item.2) := by
  rw [conversions, h]
  refine ⟨_, rfl, fun hnone => ?_, fun threads hthreads => ?_⟩
  · rw [hnone]
  · rw [hthreads]

/-- Every item that has been loaded converts. -/
theorem converts_of_loaded {κ : Type} [DecidableEq κ] {key : JsonText → Except CacheError κ}
    {result : OrderedDict κ ℤ} {items : List (JsonText × Json)}
    (h : items.foldlM (loadItem python key) .empty = .ok result) {name : JsonText × Json → Option JsonText × Json}
    (hname : ∀ item, (∃ k, key item.1 = .ok k) → (∃ size, intOf python item.2 = .ok size) →
      Converts python (name item)) :
    ∀ c ∈ items.map name, Converts python c := by
  intro c hc
  obtain ⟨item, hitem, rfl⟩ := List.mem_map.1 hc
  obtain ⟨hsize, k, hk, -⟩ := loadItems_ok h item hitem
  exact hname item ⟨k, hk⟩ hsize

/-- **`RetainedHeap.load`** takes one of them. -/
theorem load_loads : Loads python members (CachedHeap.load python (.ofPairs members)) := by
  rw [CachedHeap.load, loadObject_eq, loadThread_eq]
  cases hobjects : itemsOf (.object members) "objects" with
  | none =>
    obtain ⟨e, hitems, hcaught⟩ := items_error hobjects
    rw [bind_error hitems]
    refine .noItems hobjects (fun c hc => ?_) (.inl rfl) hcaught
    rw [conversions, hobjects] at hc
    exact absurd hc List.not_mem_nil
  | some objects =>
    obtain ⟨rest, hconversions, hnone, hsome⟩ := conversions_of_items hobjects
    rw [bind_ok (items_ok hobjects)]
    rcases foldlM_cases (loadItem python (intOfText python)) objects.entries .empty with
      ⟨loaded, hloaded⟩ | ⟨before, item, after, loaded, e, hsplit, hbefore, hitem, hrun⟩
    · have hconverts := converts_of_loaded hloaded (fun item hk hsize => converts_object.2 ⟨hk, hsize⟩)
      rw [bind_ok hloaded]
      cases hthreads : itemsOf (.object members) "threads" with
      | none =>
        obtain ⟨e, hitems, hcaught⟩ := items_error hthreads
        rw [bind_error hitems]
        refine .noItems hthreads (fun c hc => ?_) (.inr rfl) hcaught
        rw [hconversions, hnone hthreads, List.append_nil] at hc
        exact hconverts c hc
      | some threads =>
        rw [hsome threads hthreads] at hconversions
        rw [bind_ok (items_ok hthreads)]
        rcases foldlM_cases (loadItem python Except.ok) threads.entries .empty with
          ⟨loaded', hloaded'⟩ | ⟨before, item, after, loaded', e, hsplit, hbefore, hitem, hrun⟩
        · rw [bind_ok hloaded']
          refine .reads hobjects hthreads (fun c hc => ?_) hloaded hloaded'
          rw [hconversions] at hc
          rcases List.mem_append.1 hc with hc | hc
          · exact hconverts c hc
          · exact converts_of_loaded hloaded' (fun item _ hsize => converts_thread.2 hsize) c hc
        · rw [bind_error hrun]
          rw [hsplit, List.map_append, List.map_cons, ← List.append_assoc] at hconversions
          refine .stops hconversions (fun c hc => ?_) (fun hc => ?_) ?_
          · rcases List.mem_append.1 hc with hc | hc
            · exact hconverts c hc
            · exact converts_of_loaded hbefore (fun item _ hsize => converts_thread.2 hsize) c hc
          · obtain ⟨size, hsize⟩ := converts_thread.1 hc
            rw [loadItem, bind_ok (rfl : Except.ok item.1 = Except.ok item.1), bind_ok hsize] at hitem
            cases hitem
          · rw [overflows_thread, loadItem_error (fun _ _ h => by cases h) hitem]
            exact and_iff_right ⟨item.1, rfl⟩
    · rw [bind_error hrun]
      rw [hsplit, List.map_append, List.map_cons, List.append_assoc, List.cons_append] at hconversions
      refine .stops hconversions (fun c hc => ?_) (fun hc => ?_) ?_
      · exact converts_of_loaded hbefore (fun item hk hsize => converts_object.2 ⟨hk, hsize⟩) c hc
      · obtain ⟨⟨a, ha⟩, size, hsize⟩ := converts_object.1 hc
        rw [loadItem, bind_ok ha, bind_ok hsize] at hitem
        cases hitem
      · rw [overflows_object, loadItem_error (fun _ _ h => by rw [intOfText_error h]; rfl) hitem]

/-- **What is loaded is complete** when the document names everything. -/
theorem completeFor_iff {objects threads : OrderedDict JsonText Json} {retained : CachedHeap}
    (hobjects : itemsOf doc "objects" = some objects) (hthreads : itemsOf doc "threads" = some threads)
    (hloaded : objects.entries.foldlM (loadItem python (intOfText python)) .empty = .ok retained.objects)
    (hloaded' : threads.entries.foldlM (loadItem python Except.ok) .empty = .ok retained.threads) :
    retained.CompleteFor python doc heap ↔ NamesAll python doc heap := by
  constructor
  · rintro ⟨hallObjects, hallThreads⟩
    refine ⟨fun address ha => ?_, fun thread ht => ?_⟩
    · obtain ⟨items, hitems, item, hitem, size, htext, -⟩ := hallObjects address ha
      exact ⟨items, hitems, item, hitem, htext⟩
    · obtain ⟨items, hitems, item, hitem, size, htext, -⟩ := hallThreads thread ht
      exact ⟨items, hitems, htext ▸ List.mem_map_of_mem hitem⟩
  · rintro ⟨hallObjects, hallThreads⟩
    refine ⟨fun address ha => ?_, fun thread ht => ?_⟩
    · obtain ⟨items, hitems, item, hitem, htext⟩ := hallObjects address ha
      cases hobjects.symm.trans hitems
      obtain ⟨-, k, hk, item', hitem', size, hkey, hsize, hfind⟩ := loadItems_ok hloaded item hitem
      cases htext.symm.trans hk
      exact ⟨objects, hobjects, item', hitem', size, hkey, hsize, hfind⟩
    · obtain ⟨items, hitems, hname⟩ := hallThreads thread ht
      cases hthreads.symm.trans hitems
      obtain ⟨item, hitem, hitemName⟩ := List.mem_map.1 hname
      obtain ⟨-, k, hk, item', hitem', size, hkey, hsize, hfind⟩ := loadItems_ok hloaded' item hitem
      cases hk
      rw [hitemName] at hfind
      exact ⟨threads, hthreads, item', hitem', size, (Except.ok.inj hkey).trans hitemName, hsize, hfind⟩

/-- What `RetainedHeapCache.load` makes of what `load` returns or raises. -/
theorem loadCache_object (hfault : (Json.object members).fault? python.allowsInteger python.recursionLimit = none) :
    loadCache python (.document (.object members)) =
      match CachedHeap.load python (.ofPairs members) with
      | .ok retained => .ok (some retained)
      | .error e => if e.caught then .ok none else .error e := by
  have hjson : jsonLoad python (.document (.object members)) = .ok (.object members) := by rw [jsonLoad, hfault]
  rw [loadCache, readCache, bind_ok hjson]
  dsimp only
  cases CachedHeap.load python (.ofPairs members) <;> rfl

/-- A document that is no object is rejected. -/
theorem loadCache_of_not_object (hfault : doc.fault? python.allowsInteger python.recursionLimit = none)
    (h : ∀ members, doc ≠ .object members) : loadCache python (.document doc) = .ok none := by
  have hjson : jsonLoad python (.document doc) = .ok doc := by rw [jsonLoad, hfault]
  rw [loadCache, readCache, bind_ok hjson]
  cases doc with
  | object members => exact absurd rfl (h members)
  | _ => rfl

/-- Only an object has items. -/
theorem itemsOf_of_not_object (h : ∀ members, doc ≠ .object members) (key : String) : itemsOf doc key = none := by
  cases doc with
  | object members => exact absurd rfl (h members)
  | _ => rfl

/-- A document is safe if and only if no number overflows first and a readable one names all. -/
theorem safeDocument_iff (hfault : doc.fault? python.allowsInteger python.recursionLimit = none) :
    SafeDocument python doc heap ↔ NoOverflowFirst python doc ∧ (Readable python doc → NamesAll python doc heap) := by
  rw [SafeDocument, hfault]
  exact ⟨fun h => h.2 rfl, fun h => ⟨(fun h => nomatch h), fun _ => h⟩⟩

/-- A document that `json.load` cannot read is rejected, unless it is too deep. -/
theorem usedOnlyIfComplete_of_fault {fault : Json.Fault}
    (hfault : doc.fault? python.allowsInteger python.recursionLimit = some fault) :
    UsedOnlyIfComplete python doc heap ↔ SafeDocument python doc heap := by
  cases fault with
  | tooDeep =>
    have hload : loadCache python (.document doc) = .error .recursionError := by
      rw [loadCache, readCache, jsonLoad, hfault]
      rfl
    refine iff_of_false ?_ fun h => h.1 hfault
    rintro (h | ⟨retained, h, -⟩) <;> rw [hload] at h <;> cases h
  | integer magnitude =>
    have hload : loadCache python (.document doc) = .ok none := by
      rw [loadCache, readCache, jsonLoad, hfault]
      rfl
    refine iff_of_true (.inl hload) ⟨?_, fun h => ?_⟩
    · rw [hfault]
      exact fun h => nomatch h
    · rw [hfault] at h
      cases h

/-- So is one that is no object. -/
theorem usedOnlyIfComplete_of_not_object (hfault : doc.fault? python.allowsInteger python.recursionLimit = none)
    (hobject : ∀ members, doc ≠ .object members) :
    UsedOnlyIfComplete python doc heap ↔ SafeDocument python doc heap := by
  rw [safeDocument_iff hfault]
  refine iff_of_true (.inl (loadCache_of_not_object hfault hobject)) ⟨?_, fun h => ?_⟩
  · refine noOverflowFirst_of_converts fun c hc => ?_
    rw [conversions, itemsOf_of_not_object hobject] at hc
    exact absurd hc List.not_mem_nil
  · have hitems := h.1
    rw [itemsOf_of_not_object hobject] at hitems
    cases hitems

/-- An object is safe by the way that `load` takes. -/
theorem usedOnlyIfComplete_of_object
    (hfault : (Json.object members).fault? python.allowsInteger python.recursionLimit = none) :
    UsedOnlyIfComplete python (.object members) heap ↔ SafeDocument python (.object members) heap := by
  have hload := loadCache_object hfault
  have hloads : Loads python members (CachedHeap.load python (.ofPairs members)) := load_loads
  rw [safeDocument_iff hfault, UsedOnlyIfComplete, hload]
  generalize CachedHeap.load python (.ofPairs members) = run at hloads ⊢
  cases hloads with
  | @noItems key e hmissing hconverts hname hcaught =>
    refine iff_of_true (.inl (if_pos hcaught)) ⟨noOverflowFirst_of_converts hconverts, fun h => ?_⟩
    rcases hname with rfl | rfl
    · have hitems := h.1
      rw [hmissing] at hitems
      cases hitems
    · have hitems := h.2.1
      rw [hmissing] at hitems
      cases hitems
  | @stops before after c e hsplit hconverts hfails hcaught =>
    have hnot : ¬Readable python (.object members) := fun h => by
      refine hfails (h.2.2 c ?_)
      rw [hsplit]
      exact List.mem_append_right before List.mem_cons_self
    have hright : (NoOverflowFirst python (.object members) ∧
        (Readable python (.object members) → NamesAll python (.object members) heap)) ↔ ¬Overflows python c :=
      (and_iff_left fun h => absurd h hnot).trans (noOverflowFirst_iff hsplit hconverts hfails)
    rw [hright, ← hcaught]
    dsimp only
    cases e.caught with
    | true => exact iff_of_true (.inl rfl) (by decide)
    | false =>
      refine iff_of_false ?_ (not_not.2 rfl)
      rintro (h | ⟨retained, h, -⟩) <;> cases h
  | @reads objects threads retained hobjects hthreads hconverts hloaded hloaded' =>
    have hreadable : Readable python (.object members) := by
      refine ⟨?_, ?_, hconverts⟩
      · rw [hobjects, Option.isSome_some]
      · rw [hthreads, Option.isSome_some]
    refine Iff.trans ?_ (and_iff_right (noOverflowFirst_of_converts hconverts)).symm
    rw [← completeFor_iff hobjects hthreads hloaded hloaded']
    constructor
    · rintro (h | ⟨retained', h, hcomplete⟩) _
      · cases h
      · cases h
        exact hcomplete
    · exact fun h => .inr ⟨retained, rfl, h hreadable⟩

/-- **For which documents the result is complete.** -/
theorem usedOnlyIfComplete_iff (python : Interpreter) (doc : Json) (heap : Heap) :
    UsedOnlyIfComplete python doc heap ↔ SafeDocument python doc heap := by
  cases hfault : doc.fault? python.allowsInteger python.recursionLimit with
  | some fault => exact usedOnlyIfComplete_of_fault hfault
  | none =>
    by_cases hobject : ∀ members, doc ≠ .object members
    · exact usedOnlyIfComplete_of_not_object hfault hobject
    · obtain ⟨members, hmembers⟩ := not_forall.1 hobject
      obtain rfl := not_not.1 hmembers
      exact usedOnlyIfComplete_of_object hfault

end Analyzer
end Pydump
