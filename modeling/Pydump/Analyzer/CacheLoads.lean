/-
# A cache entry that the Python analyzer is sure to load

`json.load` and `int` take every document with sizes of 64 bits, and
`RetainedHeap.load` makes of it the `dict` of these sizes, in the order of the
document.  So `RetainedHeapCache.load` returns what `RetainedHeapCache.store` was given.
-/

import Pydump.Analyzer.CacheEntries

namespace Pydump
namespace Analyzer

open ExceptLoop

/-- What holds for every interpreter that reads its own documents: `json.load` goes into
an object inside an object, and the limit of `int`, if there is one, cannot be set below
640 digits. -/
structure Interpreter.Sound (python : Interpreter) : Prop where
  recursion : 2 ≤ python.recursionLimit
  digits : ∀ most ∈ python.maxStrDigits, 640 ≤ most

/-- A size of 64 bits for every object and for every name of a thread, and for nothing
else. -/
structure RetainedHeap.Covers (retained : RetainedHeap) (heap : Heap) : Prop where
  addresses : retained.objects.keys.Perm heap.objects.keys
  names : ∀ name, name ∈ retained.threads.keys ↔ ∃ thread ∈ heap.threads, thread.name = name
  objectSizes : ∀ entry ∈ retained.objects.entries, entry.2 < 2 ^ 64
  threadSizes : ∀ entry ∈ retained.threads.entries, entry.2 < 2 ^ 64

/-- The items of a `dict` of objects that is loaded. -/
def loadedObjects (objects : List (ℕ × ℕ)) : List (ℤ × ℤ) := objects.map fun entry => (entry.1, entry.2)

/-- The items of a `dict` of threads that is loaded. -/
def loadedThreads (threads : List (String × ℕ)) : List (JsonText × ℤ) :=
  threads.map fun entry => (.ofString entry.1, entry.2)

variable {python : Interpreter}

/-! ### `json.load` -/

/-- An integer of 64 bits has at most 20 digits. -/
theorem Interpreter.Sound.allowsInteger (h : python.Sound) {magnitude : ℕ} (hm : magnitude < 2 ^ 64) :
    python.allowsInteger magnitude = true := by
  have hlength : (Nat.toDigits 10 magnitude).length ≤ 20 :=
    (Nat.length_toDigits_le_iff (by omega) (by omega)).2 (by omega)
  unfold Interpreter.allowsInteger Interpreter.allowsDigits
  split
  · rename_i most hmost
    have := h.digits most hmost
    rw [decide_eq_true_eq]
    omega
  · rfl

/-- An object of sizes has no fault. -/
theorem fault?_sizesObject {allowed : ℕ → Bool} {sizes : List (String × ℕ)}
    (h : ∀ entry ∈ sizes, allowed entry.2 = true)
    (limit : ℕ) : (sizesObject sizes).fault? allowed (limit + 1) = none := by
  rw [sizesObject, Json.fault?]
  induction sizes with
  | nil => rfl
  | cons entry sizes ih =>
    rw [List.map_cons, Json.faultMembers?, Json.fault?, if_pos (h entry List.mem_cons_self), Option.none_or]
    exact ih fun entry' hentry' => h entry' (List.mem_cons_of_mem entry hentry')

/-- A document with sizes has no fault. -/
theorem fault?_cacheEntry {allowed : ℕ → Bool} {objects threads : List (String × ℕ)}
    (hobjects : ∀ entry ∈ objects, allowed entry.2 = true) (hthreads : ∀ entry ∈ threads, allowed entry.2 = true)
    {limit : ℕ} (hlimit : 2 ≤ limit) : (cacheEntry objects threads).fault? allowed limit = none := by
  obtain ⟨more, rfl⟩ := Nat.exists_eq_add_of_le' hlimit
  rw [cacheEntry]
  simp only [Json.fault?, Json.faultMembers?, fault?_sizesObject hobjects, fault?_sizesObject hthreads, Option.none_or]

/-! ### `RetainedHeap.load` -/

/-- **A comprehension reads every size**, if it reads every name. -/
theorem loadItems_sizes {κ α : Type} [DecidableEq κ] {key : JsonText → Except CacheError κ} {text : α → JsonText}
    {name : α → κ} (hname : name.Injective) {sizes : List (α × ℕ)} (hnodup : (sizes.map Prod.fst).Nodup)
    (hkey : ∀ entry ∈ sizes, key (text entry.1) = .ok (name entry.1)) :
    ∃ result, (sizes.map fun entry => (text entry.1, Json.integer false entry.2)).foldlM (loadItem python key) .empty =
      .ok result ∧ result.entries = sizes.map fun entry => (name entry.1, (entry.2 : ℤ)) := by
  have hround : ∀ (result : OrderedDict κ ℤ), ∀ entry ∈ sizes,
      loadItem python key result (text entry.1, .integer false entry.2) =
        .ok (result.insert (name entry.1) (entry.2 : ℤ)) := by
    intro result entry hentry
    rw [loadItem, bind_ok (hkey entry hentry)]
    rfl
  refine ⟨.ofPairs (sizes.map fun entry => (name entry.1, (entry.2 : ℤ))), ?_, ?_⟩
  · rw [List.foldlM_map, OrderedDict.ofPairs, List.foldl_map]
    exact foldlM_eq_foldl hround _
  · exact OrderedDict.entries_ofPairs (OrderedDict.nodup_map_key hname Nat.cast hnodup)

/-- **Every document with sizes of 64 bits is loaded**, as the `dict`s of these sizes. -/
theorem loadCache_cacheEntry (hpython : python.Sound) (objects : OrderedDict ℕ ℕ) (threads : OrderedDict String ℕ)
    (haddresses : ∀ a ∈ objects.keys, a < 2 ^ 64) (hobjects : ∀ entry ∈ objects.entries, entry.2 < 2 ^ 64)
    (hthreads : ∀ entry ∈ threads.entries, entry.2 < 2 ^ 64) :
    ∃ loaded, loadCache python (.document
        (cacheEntry (objects.entries.map fun entry => (Nat.repr entry.1, entry.2)) threads.entries)) =
          .ok (some loaded) ∧
      loaded.objects.entries = loadedObjects objects.entries ∧
        loaded.threads.entries = loadedThreads threads.entries := by
  have hfault : (cacheEntry (objects.entries.map fun entry => (Nat.repr entry.1, entry.2)) threads.entries).fault?
      python.allowsInteger python.recursionLimit = none := by
    refine fault?_cacheEntry (fun entry hentry => ?_) (fun entry hentry => ?_) hpython.recursion
    · obtain ⟨entry', hentry', rfl⟩ := List.mem_map.1 hentry
      exact hpython.allowsInteger (hobjects entry' hentry')
    · exact hpython.allowsInteger (hthreads entry hentry)
  obtain ⟨loadedO, hloadO, hentriesO⟩ := @loadItems_sizes python ℤ ℕ _ (intOfText python)
    (fun a => .ofString (Nat.repr a)) (fun a => (a : ℤ)) Nat.cast_injective objects.entries objects.nodup
    fun entry hentry => by
      rw [intOfText_digits, if_pos (hpython.allowsInteger (haddresses _ (List.mem_map_of_mem hentry)))]
  obtain ⟨loadedT, hloadT, hentriesT⟩ := @loadItems_sizes python JsonText String _ Except.ok
    JsonText.ofString JsonText.ofString ofString_injective threads.entries threads.nodup fun entry hentry => rfl
  have hobjectItems := @entries_sizesObject ℕ Nat.repr objects repr_injective
  have hthreadItems := @entries_sizesObject String id threads Function.injective_id
  simp only [id, Prod.mk.eta, List.map_id'] at hthreadItems
  have hsubscripts : ∀ objects threads : Json,
      subscript (.ofPairs [(.ofString "objects", objects), (.ofString "threads", threads)]) "objects" = .ok objects ∧
      subscript (.ofPairs [(.ofString "objects", objects), (.ofString "threads", threads)]) "threads" = .ok threads :=
    fun _ _ => ⟨rfl, rfl⟩
  have hload : CachedHeap.load python (.ofPairs
      [(.ofString "objects", sizesObject (objects.entries.map fun entry => (Nat.repr entry.1, entry.2))),
        (.ofString "threads", sizesObject threads.entries)]) = .ok ⟨loadedO, loadedT⟩ := by
    rw [CachedHeap.load, (hsubscripts _ _).1, (hsubscripts _ _).2]
    show (do
      let objects ← (OrderedDict.ofPairs ((objects.entries.map fun entry : ℕ × ℕ => (Nat.repr entry.1, entry.2)).map
        fun entry : String × ℕ => (JsonText.ofString entry.1, Json.integer false entry.2))).entries.foldlM
          (loadObject python) .empty
      let threads ← (OrderedDict.ofPairs (threads.entries.map
        fun entry : String × ℕ => (JsonText.ofString entry.1, Json.integer false entry.2))).entries.foldlM
          (loadThread python) .empty
      pure (CachedHeap.mk objects threads)) = _
    rw [hobjectItems, hthreadItems, loadObject_eq, loadThread_eq, bind_ok hloadO, bind_ok hloadT]
    rfl
  refine ⟨⟨loadedO, loadedT⟩, ?_, hentriesO, hentriesT⟩
  rw [cacheEntry] at hfault ⊢
  rw [loadCache_object hfault, hload]

end Analyzer
end Pydump
