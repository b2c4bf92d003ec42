/-
# Cache entries exchanged between the analyzers

Both analyzers store the sizes of a heap at the same path, as the same kind of document:
Python by the addresses of its `dict`, Go by the addresses of the objects at its indices.
Each loads what the other has stored, and what it has stored itself, as the sizes that
were stored.
-/

import Pydump.Analyzer.CacheLoads
import Pydump.Go.CacheEntries
import Pydump.Go.ThreadAgreement

namespace Pydump
namespace Go

open ExceptLoop
open Analyzer (cacheEntry sizesObject loadedObjects loadedThreads)

/-- A size of 64 bits for every object and for every name of a thread, and for no other
name. -/
structure RetainedHeap.Covers (retained : RetainedHeap) (value : Heap) : Prop where
  objects : retained.objects.length = value.objects.length
  names : ∀ name, name ∈ retained.threads.keys ↔ ∃ thread ∈ value.threads, thread.name = name
  objectSizes : ∀ size ∈ retained.objects, size < 2 ^ 64
  threadSizes : ∀ entry ∈ retained.threads.entries, entry.2 < 2 ^ 64

variable {value : Heap}

/-! ### Decoding -/

/-- A size of 64 bits is decoded. -/
theorem decodeSize_integer {size : ℕ} (h : size < 2 ^ 64) : decodeSize (.integer false size) = .ok size := if_pos h

/-- An object of sizes is decoded as the map of these sizes. -/
theorem decodeMap_sizesObject {sizes : List (String × ℕ)} (h : ∀ entry ∈ sizes, entry.2 < 2 ^ 64) :
    decodeMap .empty (sizesObject sizes) = .ok (.ofPairs sizes) := by
  have hround : ∀ (current : OrderedDict String ℕ), ∀ entry ∈ sizes,
      decodeElement current (.ofString entry.1, .integer false entry.2) = .ok (current.insert entry.1 entry.2) := by
    intro current entry hentry
    rw [decodeElement, bind_ok (decodeSize_integer (h entry hentry)), goString_ofString]
    rfl
  show (sizes.map fun entry => (JsonText.ofString entry.1, Json.integer false entry.2)).foldlM decodeElement .empty = _
  rw [List.foldlM_map]
  exact foldlM_eq_foldl hround _

/-- The table of sizes is one level deep. -/
theorem depth_sizesObject (sizes : List (String × ℕ)) : (sizesObject sizes).depth = 1 := by
  rw [sizesObject, Json.depth]
  induction sizes with
  | nil => rfl
  | cons entry sizes ih =>
    have hinteger : (Json.integer false entry.2).depth = 0 := by simp [Json.depth]
    rw [List.map_cons, Json.depthMembers, hinteger]
    omega

/-- The entry is two levels deep. -/
theorem depth_cacheEntry (objects threads : List (String × ℕ)) : (cacheEntry objects threads).depth = 2 := by
  rw [cacheEntry]
  simp only [Json.depth, Json.depthMembers, depth_sizesObject]
  rfl

/-- **Every document with sizes of 64 bits is decoded**, as the maps of these sizes. -/
theorem decodeDocument_cacheEntry {objects threads : List (String × ℕ)} (hobjects : ∀ entry ∈ objects, entry.2 < 2 ^ 64)
    (hthreads : ∀ entry ∈ threads, entry.2 < 2 ^ 64) :
    decodeDocument (cacheEntry objects threads) = .ok ⟨.ofPairs objects, .ofPairs threads⟩ := by
  have hdepth : ¬maxNestingDepth < (cacheEntry objects threads).depth := by
    rw [depth_cacheEntry, maxNestingDepth]
    omega
  have hfield : ∀ document : CacheDocument, document.objects = .empty →
      decodeField document (.ofString "objects", sizesObject objects) =
        .ok { document with objects := .ofPairs objects } := by
    intro document hempty
    have hname : namesField "objects" (.ofString "objects") = true := by decide
    rw [decodeField, if_pos hname, hempty, bind_ok (decodeMap_sizesObject hobjects)]
    rfl
  have hfield' : ∀ document : CacheDocument, document.threads = .empty →
      decodeField document (.ofString "threads", sizesObject threads) =
        .ok { document with threads := .ofPairs threads } := by
    intro document hempty
    have hother : ¬namesField "objects" (.ofString "threads") = true := by decide
    have hname : namesField "threads" (.ofString "threads") = true := by decide
    rw [decodeField, if_neg hother, if_pos hname, hempty, bind_ok (decodeMap_sizesObject hthreads)]
    rfl
  unfold decodeDocument
  rw [if_neg hdepth]
  show [(JsonText.ofString "objects", sizesObject objects), (JsonText.ofString "threads", sizesObject threads)].foldlM
    decodeField ⟨.empty, .empty⟩ = _
  rw [List.foldlM_cons, bind_ok (hfield _ rfl), List.foldlM_cons, bind_ok (hfield' _ rfl)]
  rfl

/-! ### `loadRetainedCache` -/

/-- The digits of an address are parsed as the address. -/
theorem parseUint_digits {a : ℕ} (h : a < 2 ^ 64) : parseUint (Nat.repr a) = some a := by
  have hdigits : ¬((Nat.repr a).toList = [] ∨ ¬(Nat.repr a).toList.all Char.isDigit) := by
    rw [Nat.toList_repr, not_or, not_not, List.all_eq_true]
    exact ⟨Nat.toDigits_ne_nil, fun c hc => Nat.isDigit_of_mem_toDigits (by omega) (by omega) hc⟩
  rw [parseUint, if_neg hdigits, Nat.toList_repr, Nat.ofDigitChars_ten_toDigits, if_pos h]

/-- The loop keeps one size for every object. -/
theorem length_of_places {entries : List (String × ℕ)} {objects objects' : List ℕ}
    (h : entries.foldlM (placeSize value) objects = .ok objects') : objects'.length = objects.length := by
  refine foldlM_inv (fun _ current => current.length = objects.length) rfl ?_ h
  intro seen entry current current' hlen hentry
  obtain ⟨index, -, rfl⟩ := placeSize_eq_ok.1 hentry
  rw [List.length_set, hlen]

/-- **A document that names the addresses of the heap is loaded**, with one size for every
object. -/
theorem loadRetainedCache_cacheEntry (order : MapOrder) (hindexed : value.Indexed) (objects : OrderedDict ℕ ℕ)
    (threads : OrderedDict String ℕ) (hkeys : objects.keys.Perm (value.objects.map Object.address))
    (haddresses : ∀ a ∈ objects.keys, a < 2 ^ 64) (hobjects : ∀ entry ∈ objects.entries, entry.2 < 2 ^ 64)
    (hthreads : ∀ entry ∈ threads.entries, entry.2 < 2 ^ 64) :
    ∃ loaded, loadRetainedCache order (.document
        (cacheEntry (objects.entries.map fun entry => (Nat.repr entry.1, entry.2)) threads.entries)) value =
          .ok (some loaded) ∧ loaded.objects.length = value.objects.length := by
  have hdecode :=
    @decodeDocument_cacheEntry (objects.entries.map fun entry => (Nat.repr entry.1, entry.2)) threads.entries
    (fun entry hentry => by
      obtain ⟨entry', hentry', rfl⟩ := List.mem_map.1 hentry
      exact hobjects entry' hentry') hthreads
  have hentries : (OrderedDict.ofPairs (objects.entries.map fun entry => (Nat.repr entry.1, entry.2))).entries =
      objects.entries.map fun entry => (Nat.repr entry.1, entry.2) :=
    OrderedDict.entries_ofPairs (OrderedDict.nodup_map_key Analyzer.repr_injective id objects.nodup)
  -- every key is the address of an object
  have hplaces : ∀ entry ∈ order.walk (.ofPairs (objects.entries.map fun entry => (Nat.repr entry.1, entry.2))),
      ∃ index, placeOf value entry.1 = some index := by
    intro entry hentry
    rw [mem_walk, hentries] at hentry
    obtain ⟨entry', hentry', rfl⟩ := List.mem_map.1 hentry
    have ha : entry'.1 ∈ objects.keys := List.mem_map_of_mem hentry'
    rw [placeOf_iff]
    exact ⟨entry'.1, by rw [hindexed.keys]; exact hkeys.mem_iff.1 ha, parseUint_digits (haddresses _ ha)⟩
  obtain ⟨sizes, hrun⟩ := exists_of_places hplaces (List.replicate value.objects.length 0)
  refine ⟨⟨sizes, .ofPairs threads.entries⟩, (loadRetainedCache_eq_ok order hdecode).2 ⟨hrun, ?_, rfl⟩, ?_⟩
  · show (OrderedDict.ofPairs (objects.entries.map fun entry => (Nat.repr entry.1, entry.2))).keys.length = _
    rw [OrderedDict.keys, hentries, List.length_map, List.length_map]
    simpa [OrderedDict.keys] using hkeys.length_eq
  · rw [length_of_places hrun, List.length_replicate]

/-! ### Both directions -/

/-- What Go stores of a result, Python and Go alike find in the document. -/
theorem sizePairs_facts {retained : RetainedHeap} (h : retained.Covers value) :
    (sizePairs value retained).map Prod.fst = value.objects.map Object.address ∧
      ∀ entry ∈ sizePairs value retained, entry.2 < 2 ^ 64 := by
  constructor
  · rw [sizePairs, List.map_map]
    show (value.objects.zip retained.objects).map (Object.address ∘ Prod.fst) = _
    rw [← List.map_map, List.map_fst_zip (by rw [h.objects])]
  · intro entry hentry
    obtain ⟨pair, hpair, rfl⟩ := List.mem_map.1 hentry
    exact h.objectSizes _ (List.of_mem_zip hpair).2

/-- **The document of Go** names the addresses of the heap, with sizes of 64 bits. -/
theorem retainedDocument_facts (hindexed : value.Indexed) {retained : RetainedHeap} (h : retained.Covers value) :
    ∃ (objects : OrderedDict ℕ ℕ) (threads : OrderedDict String ℕ),
      retainedDocument value retained =
        cacheEntry (objects.entries.map fun entry => (Nat.repr entry.1, entry.2)) threads.entries ∧
      objects.entries.Perm (sizePairs value retained) ∧ threads.entries.Perm retained.threads.entries ∧
      objects.keys.Perm (value.objects.map Object.address) ∧ (∀ entry ∈ objects.entries, entry.2 < 2 ^ 64) ∧
      ∀ entry ∈ threads.entries, entry.2 < 2 ^ 64 := by
  obtain ⟨objects, threads, hdoc, hobjects, hthreads⟩ := retainedDocument_eq hindexed retained
  obtain ⟨hfirst, hsizes⟩ := sizePairs_facts h
  refine ⟨objects, threads, hdoc, hobjects, hthreads, ?_, fun entry hentry => hsizes entry (hobjects.mem_iff.1 hentry),
    fun entry hentry => h.threadSizes entry (hthreads.mem_iff.1 hentry)⟩
  rw [← hfirst]
  exact hobjects.map Prod.fst

/-- **Cache entries are exchangeable.**  For a heap that both analyzers have read, with
addresses of 64 bits: Go loads what Python stored as the same size for every object and
every name; Python loads what Go stored as the `dict`s of the same items; and each loads
its own entry as what it had stored. -/
theorem cache_exchangeable {python : Analyzer.Interpreter} (hpython : python.Sound) (order : MapOrder)
    {heap : Analyzer.Heap} (hsame : SameHeap heap value) (haddresses : ∀ a ∈ heap.objects.keys, a < 2 ^ 64)
    {retained : Analyzer.RetainedHeap} (hretained : retained.Covers heap) {goRetained : RetainedHeap}
    (hgo : goRetained.Covers value) :
    (∃ loaded, loadRetainedCache order (.document retained.dump) value = .ok (some loaded) ∧
      loaded.objects.length = value.objects.length ∧
      (∀ (i : ℕ) (object : Object), value.objects[i]? = some object →
        loaded.objects[i]? = retained.objects.find? object.address) ∧
      ∀ name, loaded.threads.find? name = retained.threads.find? name) ∧
    (∃ loaded, Analyzer.loadCache python (.document (retainedDocument value goRetained)) = .ok (some loaded) ∧
      loaded.objects.entries.Perm (loadedObjects (sizePairs value goRetained)) ∧
      loaded.threads.entries.Perm (loadedThreads goRetained.threads.entries)) ∧
    (∃ loaded, Analyzer.loadCache python (.document retained.dump) = .ok (some loaded) ∧
      loaded.objects.entries = loadedObjects retained.objects.entries ∧
      loaded.threads.entries = loadedThreads retained.threads.entries) ∧
    (∃ loaded, loadRetainedCache order (.document (retainedDocument value goRetained)) value = .ok (some loaded) ∧
      loaded.objects = goRetained.objects ∧ ∀ name, loaded.threads.find? name = goRetained.threads.find? name) := by
  have hindexed : value.Indexed := hsame.index
  have hkeys : retained.objects.keys.Perm (value.objects.map Object.address) := hsame.keys ▸ hretained.addresses
  have hrange : ∀ a ∈ retained.objects.keys, a < 2 ^ 64 := fun a ha => haddresses a (hretained.addresses.mem_iff.1 ha)
  obtain ⟨objects, threads, hdoc, hobjects, hthreads, hgoKeys, hgoObjects, hgoThreads⟩ :=
    retainedDocument_facts hindexed hgo
  have hgoRange : ∀ a ∈ objects.keys, a < 2 ^ 64 := by
    intro a ha
    rw [hgoKeys.mem_iff, ← hsame.keys] at ha
    exact haddresses a ha
  refine ⟨?_, ?_, ?_, ?_⟩
  · obtain ⟨loaded, hload, hlength⟩ :=
      loadRetainedCache_cacheEntry order hindexed retained.objects retained.threads hkeys
      hrange hretained.objectSizes hretained.threadSizes
    have hshows := shows_of_loadRetainedCache hindexed (Analyzer.holds_dump retained) hload
    exact ⟨loaded, hload, hlength, hshows.objects, fun name => congrFun hshows.threads name⟩
  · obtain ⟨loaded, hload, hloadedO, hloadedT⟩ :=
      Analyzer.loadCache_cacheEntry hpython objects threads hgoRange hgoObjects
      hgoThreads
    rw [← hdoc] at hload
    refine ⟨loaded, hload, ?_, ?_⟩
    · rw [hloadedO]
      exact hobjects.map _
    · rw [hloadedT]
      exact hthreads.map _
  · exact Analyzer.loadCache_cacheEntry hpython retained.objects retained.threads hrange hretained.objectSizes
      hretained.threadSizes
  · obtain ⟨loaded, hload, hlength⟩ :=
      loadRetainedCache_cacheEntry order hindexed objects threads hgoKeys hgoRange hgoObjects
      hgoThreads
    rw [← hdoc] at hload
    have hloaded := shows_of_loadRetainedCache hindexed (holds_retainedDocument hindexed) hload
    have hown : goRetained.Shows value (goRetained.sizes value) := hindexed.shows_sizes
    refine ⟨loaded, hload, List.ext_getElem? fun i => ?_, fun name => congrFun hloaded.threads name⟩
    cases hi : value.objects[i]? with
    | some object => rw [hloaded.objects i object hi, hown.objects i object hi]
    | none =>
      rw [List.getElem?_eq_none_iff] at hi
      rw [List.getElem?_eq_none (by omega), List.getElem?_eq_none (by rw [hgo.objects]; exact hi)]

/-! ### What is calculated can be exchanged -/

/-- **What `calculate` returns** has a size of 64 bits for every object and every name. -/
theorem covers_of_calculateRetained {heap : Analyzer.Heap} (hbounded : Bounded heap) {orders : Analyzer.Orders}
    {rounds : ℕ} (hrounds : heap.rounds ≤ rounds) {result : Analyzer.RetainedHeap}
    (hrun : Analyzer.calculateRetained orders rounds heap = .ok result) : result.Covers heap := by
  obtain ⟨result', hrun', hobjects, hthreads⟩ :=
    Analyzer.calculateRetained_ok orders (Analyzer.localsKnown_of_ok orders hrounds hrun) hrounds
  cases hrun.symm.trans hrun'
  have hkeys : ∀ a, a ∈ result.objects.keys ↔ a ∈ heap.objects.keys := by
    intro a
    rw [← Analyzer.mem_graph_objects, ← not_iff_not, ← OrderedDict.find?_eq_none, hobjects]
    split_ifs with ha
    · exact iff_of_false nofun (not_not.2 ha)
    · exact iff_of_true rfl ha
  refine ⟨(List.perm_ext_iff_of_nodup result.objects.keys_nodup heap.objects.keys_nodup).2 hkeys, fun name => ?_,
    fun entry hentry => ?_, fun entry hentry => ?_⟩
  · rw [hthreads, Analyzer.Heap.threadResults, OrderedDict.mem_keys_ofPairs, List.map_map, List.mem_map]
    rfl
  · have hfind := (hobjects entry.1).symm.trans (OrderedDict.find?_eq_some.2 hentry)
    split_ifs at hfind
    rw [← Option.some.inj hfind]
    exact hbounded.weight_lt _
  · rw [hthreads] at hentry
    obtain ⟨thread, -, rfl⟩ := List.mem_map.1 (OrderedDict.mem_of_mem_ofPairs hentry)
    rw [Analyzer.threadRetained_eq]
    exact hbounded.weight_lt _

/-- **What `CalculateRetainedHeap` returns** has a size of 64 bits for every object and every
name. -/
theorem covers_of_calculateRetainedHeap {R : ContentRelation} {heap : Analyzer.Heap} (hlike : LikeHeap R heap value)
    (hbounded : Bounded heap) {orders : Orders} {rounds : ℕ} (hrounds : value.rounds ≤ rounds) {result : RetainedHeap}
    (hrun : calculateRetainedHeap orders rounds value = .ok result) : result.Covers value := by
  obtain ⟨result', hrun', hobjects, hthreads⟩ := calculateRetainedHeap_ok hlike hbounded
    (fitsIndex_of_ok (hlike.wellFormed hbounded) hrun) orders hrounds
  cases hrun.symm.trans hrun'
  have hnames : value.threads.map Thread.name = heap.threads.map Analyzer.HeapThread.name :=
    (List.forall₂_eq_eq_eq ▸ List.forall₂_map_left_iff.2 (List.forall₂_map_right_iff.2
      (hlike.threads.imp fun _ _ ht => ht.name)) : heap.threads.map _ = value.threads.map _).symm
  refine ⟨?_, fun name => ?_, fun size hsize => ?_, fun entry hentry => ?_⟩
  · rw [hobjects, List.length_map, hlike.keys, List.length_map]
  · rw [hthreads, indexResults, OrderedDict.mem_keys_ofPairs, List.map_map, ← List.mem_map (f := Thread.name), hnames]
    show name ∈ heap.threads.zipIdx.map (Analyzer.HeapThread.name ∘ Prod.fst) ↔ _
    rw [← List.map_map, List.zipIdx_map_fst]
  · rw [hobjects] at hsize
    obtain ⟨a, -, rfl⟩ := List.mem_map.1 hsize
    exact hbounded.weight_lt _
  · rw [hthreads] at hentry
    obtain ⟨thread, -, rfl⟩ := List.mem_map.1 (OrderedDict.mem_of_mem_ofPairs hentry)
    rw [indexRetained_eq]
    exact hbounded.weight_lt _

/-! ### Two results exchanged -/

/-- Sizes of `cyclicHeap`, one of them the largest of 64 bits. -/
def cyclicRetained : Analyzer.RetainedHeap :=
  ⟨.ofPairs [(3, 30), (1, 2 ^ 64 - 1), (2, 50)], .ofPairs [("MainThread", 60)]⟩

/-- Other sizes of `cyclicHeap`, from the Go analyzer. -/
def goCyclicRetained : RetainedHeap := ⟨[2 ^ 64 - 1, 50, 30], .ofPairs [("MainThread", 0)]⟩

/-- The cache of the cyclic heap, in all four ways. -/
theorem cache_exchangeable_cyclic :
    (∃ loaded, loadRetainedCache .inserted (.document cyclicRetained.dump) cyclicHeap = .ok (some loaded) ∧
      loaded.objects.length = 3 ∧
      (∀ (i : ℕ) (object : Object), cyclicHeap.objects[i]? = some object →
        loaded.objects[i]? = cyclicRetained.objects.find? object.address) ∧
      ∀ name, loaded.threads.find? name = cyclicRetained.threads.find? name) ∧
    (∃ loaded, Analyzer.loadCache asciiPython (.document (retainedDocument cyclicHeap goCyclicRetained)) =
        .ok (some loaded) ∧
      loaded.objects.entries.Perm [(1, 2 ^ 64 - 1), (2, 50), (3, 30)] ∧
      loaded.threads.entries.Perm [(.ofString "MainThread", 0)]) ∧
    (∃ loaded, Analyzer.loadCache asciiPython (.document cyclicRetained.dump) = .ok (some loaded) ∧
      loaded.objects.entries = [(3, 30), (1, 2 ^ 64 - 1), (2, 50)] ∧
      loaded.threads.entries = [(.ofString "MainThread", 60)]) ∧
    (∃ loaded, loadRetainedCache .inserted (.document (retainedDocument cyclicHeap goCyclicRetained)) cyclicHeap =
        .ok (some loaded) ∧
      loaded.objects = [2 ^ 64 - 1, 50, 30] ∧
      ∀ name, loaded.threads.find? name = goCyclicRetained.threads.find? name) := by
  have hpython : asciiPython.Sound := ⟨by decide, by decide⟩
  have hnames : ∀ name, name ∈ ["MainThread"] ↔ ∃ thread ∈ Analyzer.cyclicHeap.threads, thread.name = name := by
    intro name
    simp [Analyzer.cyclicHeap, eq_comm]
  have hgoNames : ∀ name, name ∈ ["MainThread"] ↔ ∃ thread ∈ cyclicHeap.threads, thread.name = name := by
    intro name
    simp [cyclicHeap, eq_comm]
  have hretained : cyclicRetained.Covers Analyzer.cyclicHeap := ⟨by decide, hnames, by decide, by decide⟩
  have hgo : goCyclicRetained.Covers cyclicHeap := ⟨rfl, hgoNames, by decide, by decide⟩
  exact cache_exchangeable hpython .inserted cyclicHeap_same (by decide) hretained hgo

end Go
end Pydump
