/-
# A cache entry written and read back by the Go analyzer

The index of a heap that was loaded has every object under its address.  So what
`storeRetainedCache` writes holds the sizes of the objects by their addresses, and
`loadRetainedCache` reads an entry as the sizes it holds, whichever analyzer wrote it.
-/

import Pydump.Analyzer.CacheEntries
import Pydump.Go.CacheSpec
import Pydump.Go.ReaderShape

namespace Pydump
namespace Go

open ExceptLoop
open ByteParser (Returns)
open Analyzer (Sizes Holds cacheEntry sizesObject)

variable {value : Heap}

/-- The sizes in a `RetainedHeap`, for the objects of `value`. -/
def RetainedHeap.sizes (value : Heap) (retained : RetainedHeap) : Sizes where
  objects address := (value.objectByAddress.find? address).bind fun index => retained.objects[index]?
  threads := retained.threads.find?

/-- What is read for the objects of `value` has these sizes. -/
structure RetainedHeap.Shows (value : Heap) (retained : RetainedHeap) (sizes : Sizes) : Prop where
  objects : ∀ (i : ℕ) (object : Object), value.objects[i]? = some object →
    retained.objects[i]? = sizes.objects object.address
  threads : retained.threads.find? = sizes.threads

/-! ### The index -/

/-- The index that `objects` has filled so far. -/
def Objects.Indexed (objs : Objects) : Prop :=
  objs.byAddress.entries = objs.result.zipIdx.map fun entry => (entry.1.address, entry.2)

/-- A new object goes behind the others, under its address. -/
theorem Objects.Indexed.push {objs : Objects} (h : objs.Indexed) {object : Object}
    (hnew : object.address ∉ objs.byAddress.keys) : (objs.push object).Indexed := by
  unfold Objects.Indexed at h ⊢
  rw [Objects.push, OrderedDict.entries_insert_of_not_mem hnew, h, List.zipIdx_append, List.map_append,
    List.zipIdx_singleton, List.map_singleton, Nat.zero_add]

/-- The objects are read under their addresses. -/
theorem returns_objectsFrom (withStringRepr : Bool) (known : Analyzer.ContainerTypes) (frequent : List String)
    (commonTypes : Finset ℕ) (n : ℕ) {objs : Objects} (h : objs.Indexed) :
    Returns Objects.Indexed (objectsFrom withStringRepr known frequent commonTypes n objs) := by
  induction n generalizing objs with
  | zero => exact Returns.pure h
  | succ n ih => exact Returns.bind_any fun object => (Returns.ensure _).bind fun _ hnew => ih (h.push hnew)

/-- A heap that is read is indexed. -/
theorem returns_read : Returns Heap.Indexed read := by
  rw [read_eq]
  have hbody : Returns (fun body => body.2.2.1.Indexed) readBody := by
    refine Returns.bind_any fun head => Returns.bind_any fun known => Returns.bind_any fun ths => Returns.bind_any
      fun frequent => Returns.bind_any fun common => ?_
    have hobjects : Returns Objects.Indexed (objects head.withStringRepr known frequent common) :=
      Returns.bind_any fun count => returns_objectsFrom _ _ _ _ count rfl
    refine hobjects.bind fun objs hobjs => Returns.bind_any fun types => Returns.bind_any fun stop =>
      Returns.bind_any fun _ => ?_
    exact Returns.pure hobjs
  refine hbody.bind fun body hindexed => Returns.bind_any fun source => Returns.bind_any fun last => ?_
  exact Returns.bind_any fun _ => Returns.bind_any fun _ => Returns.pure hindexed

/-- **A heap that was loaded is indexed.** -/
theorem load_indexed {source : List UInt8} (h : load source = .ok value) : value.Indexed := by
  rw [load] at h
  cases hread : read source 0 with
  | error e =>
    rw [hread] at h
    cases h
  | ok r =>
    rw [hread] at h
    cases h
    exact returns_read source 0 r.1 r.2 hread

/-! ### Writing -/

/-- The addresses with their sizes. -/
def sizePairs (value : Heap) (retained : RetainedHeap) : List (ℕ × ℕ) :=
  (value.objects.zip retained.objects).map fun entry => (entry.1.address, entry.2)

variable {retained : RetainedHeap}

/-- An indexed heap has no address twice. -/
theorem Heap.Indexed.nodup (h : value.Indexed) : ((sizePairs value retained).map Prod.fst).Nodup := by
  have hsub : ((sizePairs value retained).map Prod.fst).Sublist (value.objects.map Object.address) := by
    rw [sizePairs, List.map_map]
    show ((value.objects.zip retained.objects).map (Object.address ∘ Prod.fst)).Sublist _
    rw [← List.map_map, List.zip_eq_zip_take_min, List.map_fst_zip (by rw [List.length_take, List.length_take]; omega)]
    exact (List.take_sublist _ _).map Object.address
  exact (h.keys ▸ value.objectByAddress.keys_nodup).sublist hsub

/-- An address has the size at its index. -/
theorem Heap.Indexed.lookup_sizePairs (h : value.Indexed) (address : ℕ) :
    OrderedDict.lookupEntries address (sizePairs value retained) = (retained.sizes value).objects address := by
  refine Option.ext fun size => ?_
  rw [OrderedDict.lookupEntries_eq_some h.nodup, RetainedHeap.sizes, Option.bind_eq_some_iff, sizePairs, List.mem_map]
  constructor
  · rintro ⟨⟨object, size'⟩, hentry, heq⟩
    cases heq
    obtain ⟨i, hi⟩ := List.mem_iff_getElem?.1 hentry
    obtain ⟨hobject, hsize⟩ := List.getElem?_zip_eq_some.1 hi
    exact ⟨i, h.find?_eq_some.2 ⟨object, hobject, rfl⟩, hsize⟩
  · rintro ⟨i, hfind, hsize⟩
    obtain ⟨object, hobject, rfl⟩ := h.find?_eq_some.1 hfind
    exact ⟨(object, size), List.mem_of_getElem? (List.getElem?_zip_eq_some.2 ⟨hobject, hsize⟩), rfl⟩

/-- **What `storeRetainedCache` writes** names every address once, with its size, and every
thread, in another order. -/
theorem retainedDocument_eq (h : value.Indexed) (retained : RetainedHeap) :
    ∃ (objects : OrderedDict ℕ ℕ) (threads : OrderedDict String ℕ),
      retainedDocument value retained =
        cacheEntry (objects.entries.map fun entry => (Nat.repr entry.1, entry.2)) threads.entries ∧
      objects.entries.Perm (sizePairs value retained) ∧ threads.entries.Perm retained.threads.entries := by
  have hperm := List.mergeSort_perm (sizePairs value retained) fun a b => decide (Nat.repr a.1 ≤ Nat.repr b.1)
  have hperm' := List.mergeSort_perm retained.threads.entries fun a b => decide (a.1 ≤ b.1)
  have hstored : (storedObjects value retained).entries =
      (sizePairs value retained).map fun entry => (Nat.repr entry.1, entry.2) := by
    have hmap : (value.objects.zip retained.objects).map (fun entry => (Nat.repr entry.1.address, entry.2)) =
        (sizePairs value retained).map fun entry => (Nat.repr entry.1, entry.2) := by
      rw [sizePairs, List.map_map]
      rfl
    rw [storedObjects, hmap]
    exact OrderedDict.entries_ofPairs (OrderedDict.nodup_map_key Analyzer.repr_injective id h.nodup)
  refine ⟨⟨_, (hperm.map Prod.fst).nodup_iff.2 h.nodup⟩, ⟨_, (hperm'.map Prod.fst).nodup_iff.2 retained.threads.nodup⟩,
    ?_, hperm, hperm'⟩
  rw [retainedDocument, sortedMembers, sortedMembers, hstored, List.map_mergeSort]
  intro a _ b _
  rfl

/-- The document of `storeRetainedCache` holds the sizes. -/
theorem holds_retainedDocument (h : value.Indexed) :
    Holds (retainedDocument value retained) (retained.sizes value) := by
  obtain ⟨objects, threads, hdoc, hobjects, hthreads⟩ := retainedDocument_eq h retained
  refine ⟨objects, threads, hdoc, funext fun address => ?_, funext fun name => ?_⟩
  · rw [OrderedDict.find?, OrderedDict.lookupEntries_perm hobjects objects.nodup, h.lookup_sizePairs]
  · exact OrderedDict.lookupEntries_perm hthreads threads.nodup name

/-- What was calculated has its own sizes. -/
theorem Heap.Indexed.shows_sizes (h : value.Indexed) : retained.Shows value (retained.sizes value) where
  objects i object hobject := by
    have hfind := h.find?_eq_some.2 ⟨object, hobject, rfl⟩
    show _ = (value.objectByAddress.find? object.address).bind fun index => retained.objects[index]?
    rw [hfind, Option.bind_some]
  threads := rfl

/-! ### Reading -/

/-- A string of JSON is read back. -/
theorem goString_ofString (s : String) : goString (.ofString s) = s := by
  rw [goString, JsonText.ofString, List.map_map]
  have hrune : ∀ c ∈ s.toList, (runeOf ∘ Char.toNat) c = id c := by
    intro c _
    show runeOf c.toNat = c
    have hvalid : c.toNat.isValidChar := c.valid
    rw [runeOf, if_pos hvalid, Char.ofNat_toNat]
  rw [List.map_congr_left hrune, List.map_id, String.ofList_toList]

/-- `ParseUint` undoes the digits of a number. -/
theorem parseUint_repr {a v : ℕ} (h : parseUint (Nat.repr a) = some v) : v = a := by
  unfold parseUint at h
  rw [Nat.toList_repr, Nat.ofDigitChars_ten_toDigits] at h
  split_ifs at h
  exact (Option.some.inj h).symm

variable {objects threads : List (String × ℕ)}

/-- The values of an entry. -/
theorem valuesOf_entry :
    valuesOf "objects" (cacheEntry objects threads) =
      .ofPairs (objects.map fun entry => (entry.1, .integer false entry.2)) ∧
    valuesOf "threads" (cacheEntry objects threads) =
      .ofPairs (threads.map fun entry => (entry.1, .integer false entry.2)) := by
  have hnames : namesField "objects" (.ofString "objects") = true ∧ namesField "objects" (.ofString "threads") = false ∧
      namesField "threads" (.ofString "objects") = false ∧ namesField "threads" (.ofString "threads") = true := by
        decide
  have hcollect : ∀ sizes : List (String × ℕ), (sizes.map fun entry =>
    (JsonText.ofString entry.1, Json.integer false entry.2)).foldl
      collectElement .empty = .ofPairs (sizes.map fun entry => (entry.1, .integer false entry.2)) := by
    intro sizes
    rw [OrderedDict.ofPairs, List.foldl_map, List.foldl_map]
    simp only [collectElement, goString_ofString]
  obtain ⟨h₁, h₂, h₃, h₄⟩ := hnames
  simp only [valuesOf, cacheEntry, List.foldl_cons, List.foldl_nil, collectField, h₁, h₂, h₃, h₄, if_true,
    Bool.false_eq_true, if_false, sizesObject, hcollect, and_self]

/-- The maps decoded from an entry are the ones written. -/
theorem decodeDocument_entry {document : CacheDocument}
    (h : decodeDocument (cacheEntry objects threads) = .ok document) :
    document.objects = .ofPairs objects ∧ document.threads = .ofPairs threads := by
  have hmap : ∀ sizes : List (String × ℕ),
      (OrderedDict.ofPairs (sizes.map fun entry => (entry.1, Json.integer false entry.2))).mapValues
        (fun _ => sizeOrZero) =
        .ofPairs sizes := by
    intro sizes
    rw [OrderedDict.mapValues_ofPairs, List.map_map]
    exact congrArg _ (List.map_id sizes)
  obtain ⟨hobjects, hthreads⟩ := decodeDocument_ok h
  rw [hobjects.sizes_eq, hthreads.sizes_eq, valuesOf_entry.1, valuesOf_entry.2, hmap, hmap]
  exact ⟨rfl, rfl⟩

/-- **An entry is read as the sizes it holds**, if it is read. -/
theorem shows_of_loadRetainedCache {order : MapOrder} {doc : Json} {sizes : Sizes} (hindexed : value.Indexed)
    (hholds : Holds doc sizes) (h : loadRetainedCache order (.document doc) value = .ok (some retained)) :
    retained.Shows value sizes := by
  obtain ⟨objects, threads, rfl, hobjects, hthreads⟩ := hholds
  cases hdecode : decodeDocument (cacheEntry (objects.entries.map fun entry => (Nat.repr entry.1, entry.2))
    threads.entries) with
  | error e =>
    simp only [loadRetainedCache] at h
    rw [bind_error hdecode] at h
    cases h
  | ok document =>
    obtain ⟨hrun, hcount, hretained⟩ := (loadRetainedCache_eq_ok order hdecode).1 h
    obtain ⟨hdocObjects, hdocThreads⟩ := decodeDocument_entry hdecode
    -- every key has the digits of the address it spells
    have hspelled : ∀ key ∈ document.objects.keys, ∃ a, key = Nat.repr a ∧ parseUint key = some a := by
      intro key hmem
      obtain ⟨a, -, hparse⟩ := known_of_places (places_of_ok hrun) key hmem
      rw [hdocObjects, OrderedDict.mem_keys_ofPairs, List.map_map] at hmem
      obtain ⟨entry, -, rfl⟩ := List.mem_map.1 hmem
      exact ⟨entry.1, rfl, parseUint_repr hparse ▸ hparse⟩
    refine ⟨fun i object hobject => ?_, ?_⟩
    · obtain ⟨key, size, hfind, hparse, hplaced⟩ := placed_of_spellings order hindexed hdecode h
        (fun key hmem key' hmem' heq => by
          obtain ⟨a, rfl, ha⟩ := hspelled key hmem
          obtain ⟨a', rfl, ha'⟩ := hspelled key' hmem'
          rw [Option.some.inj (ha.symm.trans (heq.trans ha'))]) i object hobject
      obtain ⟨a, rfl, ha⟩ := hspelled key (OrderedDict.mem_keys_of_find? hfind)
      obtain rfl := Option.some.inj (ha.symm.trans hparse)
      rw [hdocObjects] at hfind
      have hname := OrderedDict.find?_ofPairs_rename Analyzer.repr_injective id objects.nodup object.address
      rw [Option.map_id] at hname
      rw [hplaced, ← hobjects]
      exact hfind.symm.trans hname
    · rw [hretained, hdocThreads, ← hthreads]
      funext name
      rw [OrderedDict.find?, OrderedDict.entries_ofPairs threads.nodup]
      rfl

end Go
end Pydump
