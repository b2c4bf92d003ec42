/-
# What the analyzers take from a cache entry

`loadRetainedCache` counts: as many keys as the heap has objects, and every key the
address of one.  This leaves no object out as long as no two keys are spellings of one
address, which `strconv.ParseUint` does not exclude.  A size may be `null`, and the
threads are not looked at.

`cache_complete_iff` says for both analyzers which documents they may be given.
-/

import Pydump.Analyzer.CacheSpec
import Pydump.Go.Cache
import Pydump.Go.Reachability

namespace Pydump
namespace Go

open ExceptLoop
open Analyzer (CacheFile cacheEntry)

variable {doc : Json} {value : Heap} {document : CacheDocument}

/-! ### The statement -/

/-- One member of an object of the document, for a map that keeps the values of the
document. -/
def collectElement (current : OrderedDict String Json) (member : JsonText × Json) : OrderedDict String Json :=
  current.insert (goString member.1) member.2

/-- One member of the document, for the map of the field `name`. -/
def collectField (name : String) (current : OrderedDict String Json) (member : JsonText × Json) :
    OrderedDict String Json :=
  if namesField name member.1 then
    match member.2 with
    | .null => .empty
    | .object members => members.foldl collectElement current
    | _ => current
  else current

/-- The values that a document has for the keys of the field `name`: the last one for
each key. -/
def valuesOf (name : String) : Json → OrderedDict String Json
  | .object members => members.foldl (collectField name) .empty
  | _ => .empty

/-- Every object and every thread name of the heap has an entry, and a number of the
document that it was taken from. -/
structure RetainedHeap.CompleteFor (doc : Json) (value : Heap) (retained : RetainedHeap) : Prop where
  objects : ∀ (i : ℕ) (object : Object), value.objects[i]? = some object → ∃ key size,
    (valuesOf "objects" doc).find? key = some (.integer false size) ∧ parseUint key = some object.address ∧
      retained.objects[i]? = some size
  threads : ∀ thread ∈ value.threads, ∃ size,
    (valuesOf "threads" doc).find? thread.name = some (.integer false size) ∧
      retained.threads.find? thread.name = some size

/-- The document is rejected, or the result is complete. -/
def UsedOnlyIfComplete (order : MapOrder) (doc : Json) (value : Heap) : Prop :=
  ∀ retained, loadRetainedCache order (.document doc) value = .ok (some retained) → retained.CompleteFor doc value

/-- The checks of `loadRetainedCache`: every key is the address of an object, and there
are as many keys as objects. -/
def Accepted (doc : Json) (value : Heap) : Prop :=
  ∃ document, decodeDocument doc = .ok document ∧
    (∀ key ∈ document.objects.keys, ∃ address ∈ value.objectByAddress.keys, parseUint key = some address) ∧
    document.objects.keys.length = value.objects.length

/-- What the checks leave open: no two keys spell one address, no size is `null`, and
every thread of the heap has a size that is not `null`. -/
structure Unambiguous (doc : Json) (value : Heap) : Prop where
  spellings : ∀ key ∈ (valuesOf "objects" doc).keys, ∀ key' ∈ (valuesOf "objects" doc).keys,
    parseUint key = parseUint key' → key = key'
  sizes : ∀ key, (valuesOf "objects" doc).find? key ≠ some .null
  threads : ∀ thread ∈ value.threads, ∃ size, (valuesOf "threads" doc).find? thread.name = some size ∧ size ≠ .null

/-- The index of the heap is the one that the reader makes. -/
def Heap.Indexed (value : Heap) : Prop :=
  value.objectByAddress.entries = value.objects.zipIdx.map fun entry => (entry.1.address, entry.2)

/-! ### Decoding -/

/-- The number that is decoded from a value. -/
def sizeOrZero : Json → ℕ
  | .integer false magnitude => magnitude
  | _ => 0

/-- A size is null or a number of 64 bits. -/
theorem decodeSize_ok {j : Json} {size : ℕ} (h : decodeSize j = .ok size) :
    size = sizeOrZero j ∧ (j = .null ∨ j = .integer false size) := by
  cases j with
  | null =>
    cases h
    exact ⟨rfl, .inl rfl⟩
  | integer negative magnitude =>
    cases negative with
    | true => cases h
    | false =>
      rw [decodeSize] at h
      split_ifs at h
      cases h
      exact ⟨rfl, .inr rfl⟩
  | _ => cases h

/-- A map of numbers that is decoded from a map of values. -/
structure Decodes (values : OrderedDict String Json) (sizes : OrderedDict String ℕ) : Prop where
  sizes_eq : sizes = values.mapValues fun _ => sizeOrZero
  numbers : ∀ key j, values.find? key = some j → j = .null ∨ j = .integer false (sizeOrZero j)

variable {values : OrderedDict String Json} {sizes sizes' : OrderedDict String ℕ}

/-- Before the first member. -/
theorem decodes_empty : Decodes .empty .empty := ⟨rfl, fun _ _ h => nomatch h⟩

/-- One member more. -/
theorem Decodes.element (h : Decodes values sizes) {member : JsonText × Json}
    (hrun : decodeElement sizes member = .ok sizes') : Decodes (collectElement values member) sizes' := by
  rw [decodeElement, bind_eq_ok] at hrun
  obtain ⟨size, hsize, hrun⟩ := hrun
  cases hrun
  obtain ⟨rfl, hnumber⟩ := decodeSize_ok hsize
  refine ⟨?_, fun key j hfind => ?_⟩
  · rw [h.sizes_eq, collectElement, OrderedDict.mapValues_insert]
  · rw [collectElement, OrderedDict.find?_insert] at hfind
    split_ifs at hfind
    · cases hfind
      exact hnumber
    · exact h.numbers key j hfind

/-- What a field adds to a map of values. -/
theorem Decodes.map (h : Decodes values sizes) {name : String} {member : JsonText × Json}
    (hname : namesField name member.1 = true) (hrun : decodeMap sizes member.2 = .ok sizes') :
    Decodes (collectField name values member) sizes' := by
  obtain ⟨text, j⟩ := member
  rw [collectField, if_pos hname]
  cases j with
  | null =>
    cases hrun
    exact decodes_empty
  | object members =>
    exact foldlM_inv (fun seen sizes => Decodes (seen.foldl collectElement values) sizes) h
      (fun seen member s s' hseen hmember => by
        rw [List.foldl_append]
        exact hseen.element hmember) hrun
  | _ => cases hrun

/-- A member of another name. -/
theorem collectField_of_not {name : String} {member : JsonText × Json} (h : namesField name member.1 = false) :
    collectField name values member = values := by
  rw [collectField, if_neg (by rw [h]; decide)]

/-- No name is taken for both fields. -/
theorem not_both_fields {text : JsonText} (h : namesField "objects" text = true) :
    namesField "threads" text = false := by
  have hdiffer : "objects".toList.map foldRune ≠ "threads".toList.map foldRune := by decide
  rw [namesField, decide_eq_true_eq] at h
  rw [namesField, decide_eq_false_iff_not, h]
  exact hdiffer

/-- **The document** is decoded from the values it has for the two fields. -/
theorem decodeDocument_ok (h : decodeDocument doc = .ok document) :
    Decodes (valuesOf "objects" doc) document.objects ∧ Decodes (valuesOf "threads" doc) document.threads := by
  unfold decodeDocument at h
  split_ifs at h with hdepth
  cases doc with
  | null =>
    cases h
    exact ⟨decodes_empty, decodes_empty⟩
  | object members =>
    let inv (seen : List (JsonText × Json)) (document : CacheDocument) : Prop :=
      Decodes (seen.foldl (collectField "objects") .empty) document.objects ∧
        Decodes (seen.foldl (collectField "threads") .empty) document.threads
    have hstart : inv [] ⟨.empty, .empty⟩ := ⟨decodes_empty, decodes_empty⟩
    refine foldlM_inv inv hstart ?_ h
    rintro seen member document document' ⟨hobjects, hthreads⟩ hfield
    rw [decodeField] at hfield
    simp only [inv, List.foldl_append, List.foldl_cons, List.foldl_nil]
    split_ifs at hfield with hname hname'
    · obtain ⟨sizes, hsizes, hfield⟩ := bind_eq_ok.1 hfield
      cases hfield
      exact ⟨hobjects.map hname hsizes, by rwa [collectField_of_not (not_both_fields hname)]⟩
    · obtain ⟨sizes, hsizes, hfield⟩ := bind_eq_ok.1 hfield
      cases hfield
      exact ⟨by rwa [collectField_of_not (eq_false_of_ne_true hname)], hthreads.map hname' hsizes⟩
    · cases hfield
      rw [collectField_of_not (eq_false_of_ne_true hname), collectField_of_not (eq_false_of_ne_true hname')]
      exact ⟨hobjects, hthreads⟩
  | _ => cases h

/-- The sizes stand under the keys of the values. -/
theorem Decodes.keys (h : Decodes values sizes) : sizes.keys = values.keys := by
  rw [h.sizes_eq, OrderedDict.keys_mapValues]

/-- A size is that of the value under its key. -/
theorem Decodes.find? (h : Decodes values sizes) (key : String) :
    sizes.find? key = (values.find? key).map sizeOrZero := by
  rw [h.sizes_eq, OrderedDict.find?_mapValues]

/-- A value that is not `null` is the number decoded from it. -/
theorem Decodes.number (h : Decodes values sizes) {key : String} {j : Json} (hfind : values.find? key = some j)
    (hj : j ≠ .null) :
    values.find? key = some (.integer false (sizeOrZero j)) ∧ sizes.find? key = some (sizeOrZero j) := by
  have hnumber := (h.numbers key j hfind).resolve_left hj
  refine ⟨hnumber ▸ hfind, ?_⟩
  rw [h.find?, hfind, Option.map_some]

/-! ### Placing the sizes -/

/-- The place of the size for a key. -/
def placeOf (value : Heap) (key : String) : Option ℕ := (parseUint key).bind value.objectByAddress.find?

/-- A size is placed at the index of its address. -/
theorem placeSize_eq_ok {objects objects' : List ℕ} {entry : String × ℕ} :
    placeSize value objects entry = .ok objects' ↔
      ∃ index, placeOf value entry.1 = some index ∧ objects' = objects.set index entry.2 := by
  rw [placeSize, placeOf]
  cases parseUint entry.1 with
  | none => exact iff_of_false (fun h => nomatch h) fun ⟨_, h, _⟩ => nomatch h
  | some address =>
    rw [Option.bind_some]
    dsimp only
    cases value.objectByAddress.find? address with
    | none => exact iff_of_false (fun h => nomatch h) fun ⟨_, h, _⟩ => nomatch h
    | some index =>
      constructor
      · intro h
        cases h
        exact ⟨index, rfl, rfl⟩
      · rintro ⟨index', hindex, rfl⟩
        cases hindex
        rfl

/-- **The loop** succeeds when every key has a place, and where the places are different,
it puts every size there. -/
theorem placeSizes_ok {entries : List (String × ℕ)}
    (hplaces : ∀ entry ∈ entries, ∃ index, placeOf value entry.1 = some index)
    (hdiffer : (entries.map fun entry => placeOf value entry.1).Nodup) (objects : List ℕ)
    (hlen : ∀ entry ∈ entries, ∀ index, placeOf value entry.1 = some index → index < objects.length) :
    ∃ objects', entries.foldlM (placeSize value) objects = .ok objects' ∧
      ∀ entry ∈ entries, ∀ index, placeOf value entry.1 = some index → objects'[index]? = some entry.2 := by
  let inv (seen : List (String × ℕ)) (objects' : List ℕ) : Prop :=
    objects'.length = objects.length ∧
      ∀ entry ∈ seen, ∀ index, placeOf value entry.1 = some index → objects'[index]? = some entry.2
  have hstart : inv [] objects := ⟨rfl, fun _ h => absurd h List.not_mem_nil⟩
  have hround : ∀ seen entry rest objects₁, seen ++ entry :: rest = entries → inv seen objects₁ →
      ∃ objects₂, placeSize value objects₁ entry = .ok objects₂ ∧ inv (seen ++ [entry]) objects₂ := by
    rintro seen entry rest objects₁ hsplit ⟨hlen₁, hseen⟩
    have hentry : entry ∈ entries := hsplit ▸ List.mem_append_right seen List.mem_cons_self
    obtain ⟨index, hindex⟩ := hplaces entry hentry
    refine ⟨_, placeSize_eq_ok.2 ⟨index, hindex, rfl⟩, by rw [List.length_set, hlen₁],
      fun entry' hentry' index' hindex' => ?_⟩
    rcases List.mem_append.1 hentry' with hold | hlast
    · -- an earlier key has another place
      have hne : index ≠ index' := by
        rintro rfl
        rw [← hsplit, List.map_append, List.map_cons, List.nodup_middle] at hdiffer
        refine (List.nodup_cons.1 hdiffer).1 (List.mem_append_left _ ?_)
        rw [hindex, ← hindex']
        exact List.mem_map_of_mem hold
      rw [List.getElem?_set_ne hne]
      exact hseen entry' hold index' hindex'
    · obtain rfl := List.mem_singleton.1 hlast
      cases hindex.symm.trans hindex'
      rw [List.getElem?_set_self (by rw [hlen₁]; exact hlen entry' hentry index hindex)]
  obtain ⟨objects', hrun, -, hall⟩ := foldlM_ok inv hstart hround
  exact ⟨objects', hrun, hall⟩

/-- Where the loop succeeds, every key has a place. -/
theorem places_of_ok {entries : List (String × ℕ)} {objects objects' : List ℕ}
    (h : entries.foldlM (placeSize value) objects = .ok objects') :
    ∀ entry ∈ entries, ∃ index, placeOf value entry.1 = some index := by
  refine foldlM_inv (fun seen _ => ∀ entry ∈ seen, ∃ index, placeOf value entry.1 = some index)
    (fun _ h => absurd h List.not_mem_nil) ?_ h
  intro seen entry s s' hseen hentry entry' hentry'
  obtain ⟨index, hindex, -⟩ := placeSize_eq_ok.1 hentry
  rcases List.mem_append.1 hentry' with hold | hlast
  · exact hseen entry' hold
  · exact List.mem_singleton.1 hlast ▸ ⟨index, hindex⟩

/-- Sizes are placed for all keys, whatever they are. -/
theorem exists_of_places {entries : List (String × ℕ)}
    (h : ∀ entry ∈ entries, ∃ index, placeOf value entry.1 = some index)
    (objects : List ℕ) : ∃ objects', entries.foldlM (placeSize value) objects = .ok objects' := by
  have hround : ∀ seen entry rest objects₁, seen ++ entry :: rest = entries → True →
      ∃ objects₂, placeSize value objects₁ entry = .ok objects₂ ∧ True := by
    intro seen entry rest objects₁ hsplit _
    obtain ⟨index, hindex⟩ := h entry (hsplit ▸ List.mem_append_right seen List.mem_cons_self)
    exact ⟨_, placeSize_eq_ok.2 ⟨index, hindex, rfl⟩, trivial⟩
  obtain ⟨objects', hrun, -⟩ := foldlM_ok (fun _ _ => True) trivial hround
  exact ⟨objects', hrun⟩

/-! ### The index -/

/-- The index of an indexed heap knows each address. -/
theorem Heap.Indexed.find?_eq_some (h : value.Indexed) {address i : ℕ} :
    value.objectByAddress.find? address = some i ↔
      ∃ object, value.objects[i]? = some object ∧ object.address = address := by
  rw [OrderedDict.find?_eq_some, h, List.mem_map]
  constructor
  · rintro ⟨⟨object, j⟩, hmem, heq⟩
    cases heq
    exact ⟨object, List.mk_mem_zipIdx_iff_getElem?.1 hmem, rfl⟩
  · rintro ⟨object, hobject, rfl⟩
    exact ⟨(object, i), List.mk_mem_zipIdx_iff_getElem?.2 hobject, rfl⟩

/-- The keys of the index are the addresses. -/
theorem Heap.Indexed.keys (h : value.Indexed) : value.objectByAddress.keys = value.objects.map Object.address := by
  rw [OrderedDict.keys, h, List.map_map]
  conv_rhs => rw [← List.zipIdx_map_fst 0 value.objects, List.map_map]
  rfl

/-- A key with a place is the address of the object there. -/
theorem Heap.Indexed.placeOf_eq_some (h : value.Indexed) {key : String} {i : ℕ} :
    placeOf value key = some i ↔ ∃ object, value.objects[i]? = some object ∧ parseUint key = some object.address := by
  rw [placeOf, Option.bind_eq_some_iff]
  constructor
  · rintro ⟨address, hkey, hfind⟩
    obtain ⟨object, hobject, rfl⟩ := h.find?_eq_some.1 hfind
    exact ⟨object, hobject, hkey⟩
  · rintro ⟨object, hobject, hkey⟩
    exact ⟨object.address, hkey, h.find?_eq_some.2 ⟨object, hobject, rfl⟩⟩

/-! ### Counting -/

/-- The address that a key spells. -/
def addressOf (key : String) : ℕ := (parseUint key).getD 0

/-- The address of a key that is parsed. -/
theorem addressOf_eq {key : String} {address : ℕ} (h : parseUint key = some address) : addressOf key = address := by
  rw [addressOf, h, Option.getD_some]

/-- Known keys spell addresses of objects. -/
theorem mapsTo_addressOf {keys : List String}
    (hknown : ∀ key ∈ keys, ∃ address ∈ value.objectByAddress.keys, parseUint key = some address) :
    Set.MapsTo addressOf (keys.toFinset : Set String) (value.objectByAddress.keys.toFinset : Set ℕ) := by
  intro key hkey
  obtain ⟨address, ha, hparse⟩ := hknown key (List.mem_toFinset.1 hkey)
  rw [addressOf_eq hparse]
  exact List.mem_toFinset.2 ha

section Counting

variable {keys : List String} (hnodup : keys.Nodup) (hindexed : value.Indexed)
  (hknown : ∀ key ∈ keys, ∃ address ∈ value.objectByAddress.keys, parseUint key = some address)
  (hcount : keys.length = value.objects.length)

include hnodup hindexed hcount

/-- There are as many keys as addresses. -/
theorem card_keys : keys.toFinset.card = value.objectByAddress.keys.toFinset.card := by
  rw [List.toFinset_card_of_nodup hnodup, List.toFinset_card_of_nodup value.objectByAddress.keys_nodup, hcount,
    hindexed.keys, List.length_map]

include hknown

/-- **As many keys as objects**: when no two spell one address, every address is spelled. -/
theorem exists_key (hspellings : ∀ key ∈ keys, ∀ key' ∈ keys, parseUint key = parseUint key' → key = key')
    {address : ℕ} (ha : address ∈ value.objectByAddress.keys) : ∃ key ∈ keys, parseUint key = some address := by
  have hinj : Set.InjOn addressOf (keys.toFinset : Set String) := by
    intro key hkey key' hkey' heq
    obtain ⟨a, -, hparse⟩ := hknown key (List.mem_toFinset.1 hkey)
    obtain ⟨a', -, hparse'⟩ := hknown key' (List.mem_toFinset.1 hkey')
    rw [addressOf_eq hparse, addressOf_eq hparse'] at heq
    exact hspellings key (List.mem_toFinset.1 hkey) key' (List.mem_toFinset.1 hkey') (by rw [hparse, hparse', heq])
  have hsurj :=
    Finset.surjOn_of_injOn_of_card_le addressOf (mapsTo_addressOf hknown) hinj (card_keys hnodup hindexed hcount).ge
  obtain ⟨key, hkey, hspelled⟩ := hsurj (Finset.mem_coe.2 (List.mem_toFinset.2 ha))
  obtain ⟨a, -, hparse⟩ := hknown key (List.mem_toFinset.1 hkey)
  rw [addressOf_eq hparse] at hspelled
  exact ⟨key, List.mem_toFinset.1 hkey, hspelled ▸ hparse⟩

/-- And when every address is spelled, no two keys spell one. -/
theorem spellings_of_exists
    (hexists : ∀ address ∈ value.objectByAddress.keys, ∃ key ∈ keys, parseUint key = some address) :
    ∀ key ∈ keys, ∀ key' ∈ keys, parseUint key = parseUint key' → key = key' := by
  have hsurj : Set.SurjOn addressOf (keys.toFinset : Set String) (value.objectByAddress.keys.toFinset : Set ℕ) := by
    intro address ha
    obtain ⟨key, hkey, hparse⟩ := hexists address (List.mem_toFinset.1 ha)
    exact ⟨key, List.mem_toFinset.2 hkey, addressOf_eq hparse⟩
  have hinj :=
    Finset.injOn_of_surjOn_of_card_le addressOf (mapsTo_addressOf hknown) hsurj (card_keys hnodup hindexed hcount).le
  intro key hkey key' hkey' hparse
  exact hinj (List.mem_toFinset.2 hkey) (List.mem_toFinset.2 hkey') (by rw [addressOf, addressOf, hparse])

end Counting

/-! ### The two analyzers -/

/-- What `loadRetainedCache` returns, for a document that decodes. -/
theorem loadRetainedCache_eq_ok (order : MapOrder) {retained : RetainedHeap}
    (hdecode : decodeDocument doc = .ok document) :
    loadRetainedCache order (.document doc) value = .ok (some retained) ↔
      (order.walk document.objects).foldlM (placeSize value) (List.replicate value.objects.length 0) =
          .ok retained.objects ∧
        document.objects.keys.length = value.objects.length ∧ retained.threads = document.threads := by
  simp only [loadRetainedCache]
  rw [bind_ok hdecode, bind_eq_ok]
  constructor
  · rintro ⟨objects, hrun, hrest⟩
    obtain ⟨_, hcheck, hrest⟩ := bind_eq_ok.1 hrest
    cases hrest
    refine ⟨hrun, ?_, rfl⟩
    by_contra hcount
    cases (if_pos hcount).symm.trans hcheck
  · rintro ⟨hrun, hcount, hthreads⟩
    refine ⟨_, hrun, ?_⟩
    have hcheck : checkCount document value = .ok () := if_neg fun hne => hne hcount
    rw [bind_ok hcheck, ← hthreads]
    rfl

/-- A walk over a map goes over its entries. -/
theorem mem_walk (order : MapOrder) {map : OrderedDict String ℕ} {entry : String × ℕ} :
    entry ∈ order.walk map ↔ entry ∈ map.entries := (order.perm map).mem_iff

/-- The keys with a place are the addresses of objects. -/
theorem placeOf_iff {key : String} :
    (∃ index, placeOf value key = some index) ↔
      ∃ address ∈ value.objectByAddress.keys, parseUint key = some address := by
  constructor
  · rintro ⟨index, h⟩
    obtain ⟨address, hkey, hfind⟩ := Option.bind_eq_some_iff.1 h
    exact ⟨address, OrderedDict.mem_keys_of_find? hfind, hkey⟩
  · rintro ⟨address, ha, hkey⟩
    obtain ⟨index, hfind⟩ := OrderedDict.exists_find?_of_mem_keys ha
    exact ⟨index, Option.bind_eq_some_iff.2 ⟨address, hkey, hfind⟩⟩

/-- Where every entry has a place, every key is known. -/
theorem known_of_places {order : MapOrder} {map : OrderedDict String ℕ}
    (h : ∀ entry ∈ order.walk map, ∃ index, placeOf value entry.1 = some index) :
    ∀ key ∈ map.keys, ∃ address ∈ value.objectByAddress.keys, parseUint key = some address := by
  intro key hkey
  obtain ⟨entry, hentry, rfl⟩ := List.mem_map.1 hkey
  exact placeOf_iff.1 (h entry ((mem_walk order).2 hentry))

/-- **What is loaded has the sizes of the document** for every object, when no two keys
spell one address. -/
theorem placed_of_spellings (order : MapOrder) (hindexed : value.Indexed) {retained : RetainedHeap}
    (hdecode : decodeDocument doc = .ok document)
    (hload : loadRetainedCache order (.document doc) value = .ok (some retained))
    (hspellings : ∀ key ∈ document.objects.keys, ∀ key' ∈ document.objects.keys,
      parseUint key = parseUint key' → key = key') :
    ∀ (i : ℕ) (object : Object), value.objects[i]? = some object → ∃ key size,
      document.objects.find? key = some size ∧ parseUint key = some object.address ∧
        retained.objects[i]? = some size := by
  obtain ⟨hrun, hcount, -⟩ := (loadRetainedCache_eq_ok order hdecode).1 hload
  have hplaces := places_of_ok hrun
  have hknown := known_of_places hplaces
  have hdiffer : ((order.walk document.objects).map fun entry => placeOf value entry.1).Nodup := by
    refine ((order.perm document.objects).map _).nodup_iff.2 ?_
    rw [← Function.comp_def (placeOf value) Prod.fst, ← List.map_map]
    refine List.Nodup.map_on (fun key hkey key' hkey' heq => hspellings key hkey key' hkey' ?_)
      document.objects.keys_nodup
    obtain ⟨index, hindex⟩ := placeOf_iff.2 (hknown key hkey)
    obtain ⟨object, hobject, hparse⟩ := hindexed.placeOf_eq_some.1 hindex
    obtain ⟨object', hobject', hparse'⟩ := hindexed.placeOf_eq_some.1 (heq ▸ hindex)
    cases hobject.symm.trans hobject'
    rw [hparse, hparse']
  have hlen : ∀ entry ∈ order.walk document.objects, ∀ index, placeOf value entry.1 = some index →
      index < (List.replicate value.objects.length 0).length := by
    intro entry _ index hindex
    obtain ⟨object, hobject, -⟩ := hindexed.placeOf_eq_some.1 hindex
    rw [List.length_replicate]
    exact (List.getElem?_eq_some_iff.1 hobject).1
  obtain ⟨objects, hrun', hplaced⟩ := placeSizes_ok hplaces hdiffer _ hlen
  cases hrun.symm.trans hrun'
  intro i object hi
  have ha : object.address ∈ value.objectByAddress.keys := by
    rw [hindexed.keys]
    exact List.mem_map_of_mem (List.mem_of_getElem? hi)
  obtain ⟨key, hkey, hparse⟩ := exists_key document.objects.keys_nodup hindexed hknown hcount hspellings ha
  obtain ⟨size, hfind⟩ := OrderedDict.exists_find?_of_mem_keys hkey
  have hentry := (mem_walk order).2 (OrderedDict.find?_eq_some.1 hfind)
  exact ⟨key, size, hfind, hparse, hplaced _ hentry i (hindexed.placeOf_eq_some.2 ⟨object, hi, hparse⟩)⟩

/-- **What is accepted is complete** when it is unambiguous, and only then. -/
theorem goUsedOnlyIfComplete_iff (order : MapOrder) (hindexed : value.Indexed) :
    UsedOnlyIfComplete order doc value ↔ (Accepted doc value → Unambiguous doc value) := by
  constructor
  · rintro hused ⟨document, hdecode, hknown, hcount⟩
    obtain ⟨hobjects, hthreads⟩ := decodeDocument_ok hdecode
    have hplaces : ∀ entry ∈ order.walk document.objects, ∃ index, placeOf value entry.1 = some index :=
      fun entry hentry =>
      placeOf_iff.2 (hknown entry.1 (List.mem_map_of_mem ((mem_walk order).1 hentry)))
    obtain ⟨objects, hrun⟩ := exists_of_places hplaces (List.replicate value.objects.length 0)
    have hcomplete := hused ⟨objects, document.threads⟩ ((loadRetainedCache_eq_ok order hdecode).2 ⟨hrun, hcount, rfl⟩)
    -- every address has a key with a number
    have hexists : ∀ address ∈ value.objectByAddress.keys, ∃ key ∈ document.objects.keys, parseUint key = some address ∧
        ∃ size, (valuesOf "objects" doc).find? key = some (.integer false size) := by
      intro address ha
      rw [hindexed.keys] at ha
      obtain ⟨object, hobject, rfl⟩ := List.mem_map.1 ha
      obtain ⟨i, hi⟩ := List.mem_iff_getElem?.1 hobject
      obtain ⟨key, size, hfind, hkey, -⟩ := hcomplete.objects i object hi
      exact ⟨key, hobjects.keys ▸ OrderedDict.mem_keys_of_find? hfind, hkey, size, hfind⟩
    have hspellings := spellings_of_exists document.objects.keys_nodup hindexed hknown hcount fun address ha => by
      obtain ⟨key, hkey, hparse, -⟩ := hexists address ha
      exact ⟨key, hkey, hparse⟩
    refine ⟨?_, fun key hnull => ?_, fun thread ht => ?_⟩
    · rw [← hobjects.keys]
      exact hspellings
    · have hkey : key ∈ document.objects.keys := hobjects.keys ▸ OrderedDict.mem_keys_of_find? hnull
      obtain ⟨address, ha, hparse⟩ := hknown key hkey
      obtain ⟨key', hkey', hparse', size, hfind⟩ := hexists address ha
      rw [hspellings key hkey key' hkey' (hparse.trans hparse'.symm), hfind] at hnull
      cases hnull
    · obtain ⟨size, hfind, -⟩ := hcomplete.threads thread ht
      exact ⟨_, hfind, fun h => nomatch h⟩
  · intro hunambiguous retained hload
    cases hdecode : decodeDocument doc with
    | error e =>
      simp only [loadRetainedCache] at hload
      rw [bind_error hdecode] at hload
      cases hload
    | ok document =>
      obtain ⟨hobjects, hthreads⟩ := decodeDocument_ok hdecode
      obtain ⟨hrun, hcount, hretained⟩ := (loadRetainedCache_eq_ok order hdecode).1 hload
      have hknown := known_of_places (places_of_ok hrun)
      obtain ⟨hspellings, hnulls, hnames⟩ := hunambiguous ⟨document, hdecode, hknown, hcount⟩
      rw [← hobjects.keys] at hspellings
      refine ⟨fun i object hi => ?_, fun thread ht => ?_⟩
      · obtain ⟨key, size, hsize, hparse, hplaced⟩ :=
          placed_of_spellings order hindexed hdecode hload hspellings i object hi
        obtain ⟨j, hfind⟩ := OrderedDict.exists_find?_of_mem_keys (hobjects.keys ▸ OrderedDict.mem_keys_of_find? hsize)
        obtain ⟨hnumber, hsize'⟩ := hobjects.number hfind fun hj => hnulls key (hj ▸ hfind)
        cases hsize.symm.trans hsize'
        exact ⟨key, _, hnumber, hparse, hplaced⟩
      · obtain ⟨j, hfind, hj⟩ := hnames thread ht
        obtain ⟨hnumber, hsize⟩ := hthreads.number hfind hj
        exact ⟨_, hnumber, hretained ▸ hsize⟩

/-- **When a cache entry is used only if it is complete.**  The Python analyzer rejects a
document or returns a size for every object and thread exactly when the document is
safe; the Go analyzer exactly when what it accepts is unambiguous. -/
theorem cache_complete_iff (python : Analyzer.Interpreter) (order : MapOrder) (doc : Json) (heap : Analyzer.Heap)
    (value : Heap) (hindexed : value.Indexed) :
    (Analyzer.UsedOnlyIfComplete python doc heap ↔ Analyzer.SafeDocument python doc heap) ∧
      (UsedOnlyIfComplete order doc value ↔ (Accepted doc value → Unambiguous doc value)) :=
  ⟨Analyzer.usedOnlyIfComplete_iff python doc heap, goUsedOnlyIfComplete_iff order hindexed⟩

/-- An interpreter without knowledge of scripts beyond ASCII. -/
def asciiPython : Analyzer.Interpreter := ⟨1000, some 4300, fun _ => none, fun _ => false⟩

/-- A document with sizes for `cyclicHeap`. -/
def cyclicEntry : Json := cacheEntry [("1", 60), ("2", 50), ("3", 30)] [("MainThread", 60)]

/-- The index of `cyclicHeap` is the one that the reader makes. -/
theorem cyclicHeap_indexed : cyclicHeap.Indexed := by
  have h : cyclicHeap.objectByAddress.entries =
      cyclicHeap.objects.zipIdx.map fun entry => (entry.1.address, entry.2) := by decide
  exact h

/-- The document has numbers only, and names every object and every thread. -/
theorem cyclicEntry_safe : Analyzer.SafeDocument asciiPython cyclicEntry Analyzer.cyclicHeap := by
  have hfault : cyclicEntry.fault? asciiPython.allowsInteger asciiPython.recursionLimit = none := rfl
  have hconversions : Analyzer.conversions cyclicEntry =
      [(some (.ofString "1"), .integer false 60), (some (.ofString "2"), .integer false 50),
        (some (.ofString "3"), .integer false 30), (none, .integer false 60)] := rfl
  refine ⟨by rw [hfault]; exact nofun, fun _ => ⟨?_, fun _ => ⟨?_, ?_⟩⟩⟩
  · rintro before conversion after hsplit - ⟨-, q, hreal, -⟩
    have hmem : conversion ∈ Analyzer.conversions cyclicEntry := hsplit ▸ List.mem_append_right _ List.mem_cons_self
    rw [hconversions] at hmem
    have hall : ∀ c ∈ [(some (JsonText.ofString "1"), Json.integer false 60), (some (.ofString "2"), .integer false 50),
        (some (.ofString "3"), .integer false 30), (none, .integer false 60)], c.2 ≠ .real q := by simp
    exact hall _ hmem hreal
  · intro address ha
    refine ⟨_, rfl, ?_⟩
    have hkeys : ∀ a ∈ Analyzer.cyclicHeap.objects.keys, a = 1 ∨ a = 2 ∨ a = 3 := by decide
    obtain rfl | rfl | rfl := hkeys address ha
    · exact ⟨(.ofString "1", .integer false 60), .head _, rfl⟩
    · exact ⟨(.ofString "2", .integer false 50), .tail _ (.head _), rfl⟩
    · exact ⟨(.ofString "3", .integer false 30), .tail _ (.tail _ (.head _)), rfl⟩
  · intro thread ht
    obtain rfl := List.mem_singleton.1 ht
    exact ⟨_, rfl, List.mem_singleton_self _⟩

/-- The document has one number for each object and each thread. -/
theorem cyclicEntry_unambiguous : Unambiguous cyclicEntry cyclicHeap where
  spellings := by decide
  sizes key hnull := by
    have hall : ∀ entry ∈ [("1", Json.integer false 60), ("2", .integer false 50), ("3", .integer false 30)],
        entry.2 ≠ .null := by simp
    exact hall _ (OrderedDict.find?_eq_some.1 hnull) rfl
  threads thread ht := by
    obtain rfl := List.mem_singleton.1 ht
    exact ⟨.integer false 60, rfl, nofun⟩

/-- Both analyzers take the document, and what they take is complete. -/
theorem cache_complete_cyclic :
    (∃ retained, Analyzer.loadCache asciiPython (.document cyclicEntry) = .ok (some retained)) ∧
    (∃ retained, loadRetainedCache .inserted (.document cyclicEntry) cyclicHeap = .ok (some retained)) ∧
    Analyzer.UsedOnlyIfComplete asciiPython cyclicEntry Analyzer.cyclicHeap ∧
    UsedOnlyIfComplete .inserted cyclicEntry cyclicHeap := by
  obtain ⟨hpython, hgo⟩ :=
    cache_complete_iff asciiPython .inserted cyclicEntry Analyzer.cyclicHeap cyclicHeap cyclicHeap_indexed
  exact ⟨⟨_, rfl⟩, ⟨_, rfl⟩, hpython.2 cyclicEntry_safe, hgo.2 fun _ => cyclicEntry_unambiguous⟩

/-- **Incomplete entries are used**: the Python analyzer takes a document without any
object, the Go analyzer one with two spellings of the address 1, and reports 0 for the
object at 3. -/
theorem incomplete_used :
    (∃ retained, Analyzer.loadCache asciiPython (.document (cacheEntry [] [])) = .ok (some retained) ∧
      retained.objects.find? 1 = none) ∧
    (∃ retained, loadRetainedCache .inserted (.document (cacheEntry [("1", 10), ("01", 20), ("2", 30)] [])) goRingHeap =
      .ok (some retained) ∧ retained.objects = [20, 30, 0]) ∧
    ¬Analyzer.UsedOnlyIfComplete asciiPython (cacheEntry [] []) ringHeap ∧
    ¬UsedOnlyIfComplete .inserted (cacheEntry [("1", 10), ("01", 20), ("2", 30)] []) goRingHeap := by
  have hpython : Analyzer.loadCache asciiPython (.document (cacheEntry [] [])) = .ok (some ⟨.empty, .empty⟩) := rfl
  have hgo : ∃ retained, loadRetainedCache .inserted
      (.document (cacheEntry [("1", 10), ("01", 20), ("2", 30)] [])) goRingHeap = .ok (some retained) ∧
        retained.objects = [20, 30, 0] := ⟨_, rfl, rfl⟩
  refine ⟨⟨_, hpython, rfl⟩, hgo, ?_, fun h => ?_⟩
  · rintro (h | ⟨retained, h, hcomplete⟩)
    · cases hpython.symm.trans h
    · cases hpython.symm.trans h
      obtain ⟨items, -, item, -, size, -, -, hfind⟩ := hcomplete.objects 1 (by decide)
      cases hfind
  · obtain ⟨retained, hload, hobjects⟩ := hgo
    obtain ⟨key, size, hfind, hkey, hsize⟩ := (h retained hload).objects 2 goRingHeap.objects[2] rfl
    -- the document has no key for the address 3
    have hkeys : ∀ entry ∈ (valuesOf "objects" (cacheEntry [("1", 10), ("01", 20), ("2", 30)] [])).entries,
        parseUint entry.1 ≠ some 3 := by decide
    exact hkeys _ (OrderedDict.find?_eq_some.1 hfind) hkey

end Go
end Pydump
