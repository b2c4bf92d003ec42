/-
# What the report says

The rows of `types` are those of the types that occur, each with the number and the bytes of
its objects, in a strict order; the locals of a frame stand in the order of their names; the
objects at the top are the first of a ranking by retained size in which equal sizes stay in
the order of the artifact.  `_type_summaries`, `_thread_summary` and `_retained_summary`
compute these for every heap that was read.
-/

import Mathlib.Data.Prod.Lex
import Pydump.Analyzer.ReaderFacts
import Pydump.Analyzer.Report
import Pydump.Lib.ExceptLoop
import Pydump.Lib.Sorting
import Pydump.Lib.Tally

namespace Pydump
namespace Analyzer

open ExceptLoop
open Sorting (Lists)
open Tally (tally weightOf)

variable {source : List UInt8} {known : ContainerTypes} {heap : Heap}

/-! ### Rows -/

/-- A row of `types`, before its address is spelled. -/
structure TypeRow where
  address : ℕ
  name : String
  count : ℕ
  bytes : ℕ
  deriving DecidableEq

/-- The element of the report for a row. -/
def TypeRow.summary (row : TypeRow) : TypeSummary := ⟨hexAddress row.address, row.name, row.count, row.bytes⟩

/-- The order of the rows: bytes and count descend, name and address ascend. -/
def TypeRow.Before (a b : TypeRow) : Prop :=
  b.bytes < a.bytes ∨ b.bytes = a.bytes ∧ (b.count < a.count ∨ b.count = a.count ∧
    (a.name < b.name ∨ a.name = b.name ∧ a.address < b.address))

/-- What a heap has to say about its types. -/
structure TypeRows (heap : Heap) (rows : List TypeRow) : Prop where
  ordered : rows.Pairwise TypeRow.Before
  nodup : (rows.map TypeRow.address).Nodup
  occurs : ∀ address, address ∈ rows.map TypeRow.address ↔ ∃ obj ∈ heap.objects.values, obj.typeAddress = address
  named : ∀ row ∈ rows, heap.types.find? row.address = some row.name
  counted : ∀ row ∈ rows, row.count = (heap.objects.values.filter fun obj => obj.typeAddress = row.address).length
  weighed : ∀ row ∈ rows,
    row.bytes = ((heap.objects.values.filter fun obj => obj.typeAddress = row.address).map HeapObject.size).sum
  count : (rows.map TypeRow.count).sum = (heapSummary heap).objectCount
  bytes : (rows.map TypeRow.bytes).sum = (heapSummary heap).shallowSizeBytes

/-- The row of a type. -/
def typeRow (heap : Heap) (address : ℕ) : TypeRow :=
  ⟨address, (heap.types.find? address).getD "",
    weightOf HeapObject.typeAddress (fun _ => 1) heap.objects.values address,
    weightOf HeapObject.typeAddress HeapObject.size heap.objects.values address⟩

/-- The addresses of the types that occur. -/
def typeAddresses (heap : Heap) : List ℕ := (tally HeapObject.typeAddress (fun _ => 1) heap.objects.values).keys

/-- The addresses in the table are the types of the objects. -/
theorem mem_typeAddresses {address : ℕ} :
    address ∈ typeAddresses heap ↔ ∃ obj ∈ heap.objects.values, obj.typeAddress = address := Tally.mem_keys_tally

/-- The table names the types that occur. -/
theorem Heap.StoredIn.typeName (hstored : heap.StoredIn source known) {address : ℕ} (h : address ∈ typeAddresses heap) :
    heap.types.find? address = some (typeRow heap address).name := by
  obtain ⟨obj, hobj, rfl⟩ := mem_typeAddresses.1 h
  obtain ⟨name, hname⟩ := OrderedDict.exists_find?_of_mem_keys (hstored.typed obj hobj)
  rw [typeRow, hname, Option.getD_some]

/-- Both dictionaries have these keys. -/
theorem sum_typeAddresses (weight : HeapObject → ℕ) :
    ((typeAddresses heap).map (weightOf HeapObject.typeAddress weight heap.objects.values)).sum =
      (heap.objects.values.map weight).sum := by
  have hkeys : typeAddresses heap = (tally HeapObject.typeAddress weight heap.objects.values).keys :=
    Tally.keys_tally_eq _ _ _ _
  rw [hkeys, ← OrderedDict.values_eq_map fun _ hk => Tally.find?_tally hk, Tally.sum_values_tally]

/-- **Conservation**: the rows of the types that occur, in their order, say all of this. -/
theorem typeRows_of_lists (hstored : heap.StoredIn source known) {rows : List TypeRow}
    (h : Lists TypeRow.Before ((typeAddresses heap).map (typeRow heap)) rows) : TypeRows heap rows := by
  have haddresses : (rows.map TypeRow.address).Perm (typeAddresses heap) := by
    have hperm := h.perm.map TypeRow.address
    rw [List.map_map] at hperm
    exact hperm.trans (.of_eq (List.map_id _))
  have hrow : ∀ row ∈ rows, row.address ∈ typeAddresses heap ∧ row = typeRow heap row.address := by
    intro row hrow
    obtain ⟨address, haddress, rfl⟩ := List.mem_map.1 (h.perm.mem_iff.1 hrow)
    exact ⟨haddress, rfl⟩
  have hsum : ∀ weight : HeapObject → ℕ, ∀ column : TypeRow → ℕ,
      (∀ address, column (typeRow heap address) = weightOf HeapObject.typeAddress weight heap.objects.values address) →
      (rows.map column).sum = (heap.objects.values.map weight).sum := by
    intro weight column hcolumn
    have hcolumns : (typeAddresses heap).map (column ∘ typeRow heap) =
        (typeAddresses heap).map (weightOf HeapObject.typeAddress weight heap.objects.values) :=
      List.map_congr_left fun address _ => hcolumn address
    rw [(h.perm.map column).sum_eq, List.map_map, hcolumns, sum_typeAddresses]
  constructor
  · exact h.ordered
  · exact haddresses.nodup_iff.2 (OrderedDict.keys_nodup _)
  · intro address
    rw [haddresses.mem_iff, mem_typeAddresses]
  · intro row hmem
    obtain ⟨haddress, heq⟩ := hrow row hmem
    rw [heq]
    exact hstored.typeName haddress
  · intro row hmem
    rw [(hrow row hmem).2]
    simp [typeRow, weightOf]
  · intro row hmem
    rw [(hrow row hmem).2]
    rfl
  · rw [hsum (fun _ => 1) TypeRow.count fun _ => rfl]
    show (heap.objects.values.map fun _ => 1).sum = heap.objects.keys.length
    rw [List.map_const', List.sum_replicate_nat, mul_one, OrderedDict.values, OrderedDict.keys, List.length_map,
      List.length_map]
  · exact hsum HeapObject.size TypeRow.bytes fun _ => rfl

/-! ### The order of the rows -/

/-- What the rows are sorted by. -/
abbrev RowKey : Type := ℤ ×ₗ ℤ ×ₗ String ×ₗ ℕ

/-- The key as a tuple in the order of the report. -/
def TypeKey.key (k : TypeKey) : RowKey := toLex (k.shallowSize, toLex (k.count, toLex (k.name, k.address)))

/-- A comparison by the first component that differs. -/
theorem lexStep_iff {α : Type} [LinearOrder α] {a b : α} {less : Bool} :
    (if a ≠ b then decide (a < b) else less) = true ↔ a < b ∨ a = b ∧ less = true := by
  by_cases h : a = b
  · simp [h]
  · simp [h]

/-- The comparison of two keys. -/
theorem TypeKey.less_iff (a b : TypeKey) : TypeKey.less a b = true ↔ a.key < b.key := by
  simp only [TypeKey.less, TypeKey.key, Prod.Lex.toLex_lt_toLex, lexStep_iff, decide_eq_true_eq]

/-- The key of a row. -/
def TypeRow.typeKey (row : TypeRow) : TypeKey := ⟨-row.bytes, -row.count, row.name, row.address⟩

/-- The order of two rows is that of their keys. -/
theorem TypeRow.before_iff (a b : TypeRow) : a.Before b ↔ a.typeKey.key < b.typeKey.key := by
  simp only [TypeRow.Before, TypeRow.typeKey, TypeKey.key, Prod.Lex.toLex_lt_toLex, neg_lt_neg_iff, neg_inj,
    Nat.cast_lt, Nat.cast_inj, eq_comm]

/-- No row stands before one that stands before it. -/
theorem TypeRow.before_asymm (a b : TypeRow) (h : a.Before b) : ¬b.Before a := by
  rw [TypeRow.before_iff] at *
  exact lt_asymm h

/-! ### `_type_summaries` -/

/-- The loop fills two dictionaries of sums. -/
theorem foldl_countObject (objects : List HeapObject) : objects.foldl countObject (.empty, .empty) =
    (tally HeapObject.typeAddress (fun _ => 1) objects, tally HeapObject.typeAddress HeapObject.size objects) := by
  induction objects using List.reverseRecOn with
  | nil => rfl
  | append_singleton objects obj ih =>
    rw [List.foldl_append, ih, Tally.tally_concat, Tally.tally_concat]
    rfl

/-- The keys of the types, as they are sorted. -/
def sortedKeys (heap : Heap) : List TypeKey :=
  ((typeAddresses heap).map fun address => (typeRow heap address).typeKey).mergeSort fun a b => !TypeKey.less b a

/-- The sorted keys list the types in order. -/
theorem lists_sortedKeys (heap : Heap) : Lists (fun a b => a.key < b.key)
    ((typeAddresses heap).map fun address => (typeRow heap address).typeKey) (sortedKeys heap) := by
  refine Sorting.lists_mergeSort (fun a b => ?_) ?_
  · rw [Bool.not_eq_true', ← Bool.not_eq_true, TypeKey.less_iff, not_lt]
  · refine List.Nodup.of_map (fun k : RowKey => (ofLex (ofLex (ofLex k).2).2).2) ?_
    rw [List.map_map, List.map_map]
    exact (List.map_id (typeAddresses heap)).symm ▸ OrderedDict.keys_nodup _

/-- A sorted key is that of its row. -/
theorem mem_sortedKeys {k : TypeKey} (h : k ∈ sortedKeys heap) :
    k.address ∈ typeAddresses heap ∧ (typeRow heap k.address).typeKey = k := by
  obtain ⟨address, haddress, rfl⟩ := List.mem_map.1 ((lists_sortedKeys heap).perm.mem_iff.1 h)
  exact ⟨haddress, rfl⟩

/-- The rows in the order of their keys. -/
theorem lists_rows (heap : Heap) : Lists TypeRow.Before ((typeAddresses heap).map (typeRow heap))
    ((sortedKeys heap).map fun k => typeRow heap k.address) := by
  have hrows :=
    @Lists.map _ _ _ _ _ (fun k : TypeKey => typeRow heap k.address) TypeRow.Before (lists_sortedKeys heap) ?_
  · rwa [List.map_map] at hrows
  · intro a ha b hb hab
    rw [TypeRow.before_iff, (mem_sortedKeys ((lists_sortedKeys heap).perm.mem_iff.2 ha)).2,
      (mem_sortedKeys ((lists_sortedKeys heap).perm.mem_iff.2 hb)).2]
    exact hab

/-- **The types of the report** are the rows of the heap. -/
theorem typeSummaries_eq (hstored : heap.StoredIn source known) :
    typeSummaries heap = .ok ((sortedKeys heap).map fun k => (typeRow heap k.address).summary) := by
  have hcount : ∀ {address}, address ∈ typeAddresses heap →
      (tally HeapObject.typeAddress (fun _ => 1) heap.objects.values).find? address =
        some (typeRow heap address).count :=
    fun h => Tally.find?_tally h
  have hbytes : ∀ {address}, address ∈ typeAddresses heap →
      (tally HeapObject.typeAddress HeapObject.size heap.objects.values).find? address =
        some (typeRow heap address).bytes :=
    fun h => Tally.find?_tally (Tally.keys_tally_eq HeapObject.typeAddress _ _ _ ▸ h)
  have hname : ∀ {address}, address ∈ typeAddresses heap → typeName heap address = .ok (typeRow heap address).name := by
    intro address h
    rw [typeName, hstored.typeName h]
  have hkeys : (typeAddresses heap).mapM (typeKey heap (tally HeapObject.typeAddress (fun _ => 1) heap.objects.values)
      (tally HeapObject.typeAddress HeapObject.size heap.objects.values)) =
        .ok ((typeAddresses heap).map fun address => (typeRow heap address).typeKey) := by
    refine mapM_ok fun address h => ?_
    rw [typeKey, bind_ok (hname h), hcount h, hbytes h]
    rfl
  have hsummaries : ((sortedKeys heap).map TypeKey.address).mapM
      (typeSummary heap (tally HeapObject.typeAddress (fun _ => 1) heap.objects.values)
        (tally HeapObject.typeAddress HeapObject.size heap.objects.values)) =
          .ok (((sortedKeys heap).map TypeKey.address).map fun address => (typeRow heap address).summary) := by
    refine mapM_ok fun address haddress => ?_
    obtain ⟨k, hk, rfl⟩ := List.mem_map.1 haddress
    have h := (mem_sortedKeys hk).1
    rw [typeSummary, bind_ok (hname h), hcount h, hbytes h]
    rfl
  rw [List.map_map] at hsummaries
  unfold typeSummaries
  rw [foldl_countObject]
  exact (bind_ok hkeys).trans hsummaries

/-! ### Locals -/

/-- The element for an item of the locals. -/
def localSummary (heap : Heap) (item : String × ℕ) : LocalSummary :=
  ⟨item.1, hexAddress item.2, objectTypeName heap item.2⟩

/-- Items are ordered by name, then by address. -/
theorem itemLess_iff (a b : String × ℕ) : itemLess a b = true ↔ toLex a < toLex b := by
  simp only [itemLess, Prod.Lex.toLex_lt_toLex, lexStep_iff, decide_eq_true_eq]

/-- **The locals of a frame** in the order of their names. -/
theorem lists_localVariables (heap : Heap) (frame : HeapThreadFrame) : Lists (fun a b => a.name < b.name)
    (frame.locals.entries.map (localSummary heap)) (localVariables heap frame) := by
  have hsorted : Lists (fun a b => toLex a < toLex b) frame.locals.entries
      (frame.locals.entries.mergeSort fun a b => !itemLess b a) := by
    refine Sorting.lists_mergeSort (fun a b => ?_) ?_
    · rw [Bool.not_eq_true', ← Bool.not_eq_true, itemLess_iff, not_lt]
    · refine List.Nodup.of_map (fun item : String ×ₗ ℕ => (ofLex item).1) ?_
      rw [List.map_map]
      exact frame.locals.nodup
  refine hsorted.map fun a ha b hb hab => ?_
  rcases Prod.Lex.toLex_lt_toLex.1 hab with hname | ⟨hname, haddress⟩
  · exact hname
  · -- there is one address for a name
    have ha' := OrderedDict.find?_eq_some.2 ha
    rw [hname, OrderedDict.find?_eq_some.2 hb] at ha'
    exact absurd (Option.some.inj ha') (Nat.ne_of_gt haddress)

/-! ### The top objects -/

/-- An index comes before another: its size is larger, or the same and it is smaller. -/
def Ranks (size : ℕ → ℤ) (i j : ℕ) : Prop := size j < size i ∨ size i = size j ∧ i < j

/-- The indexes by their sizes. -/
def ranking (size : ℕ → ℤ) (n : ℕ) : List ℕ := (List.range n).mergeSort fun i j => decide (size j ≤ size i)

/-- The ranking lists the objects by size. -/
theorem lists_ranking (size : ℕ → ℤ) (n : ℕ) : Lists (Ranks size) (List.range n) (ranking size n) := by
  have hstable := @Sorting.lists_stable ℕ ℤ (· < ·) (List.range n) _ (fun i => -size i)
    (fun i j => decide (size j ≤ size i)) (fun i j => by rw [decide_eq_true_eq, neg_le_neg_iff])
    (fun i => Nat.lt_irrefl i) List.pairwise_lt_range
  refine ⟨hstable.perm, hstable.ordered.imp fun {i j} h => ?_⟩
  rwa [neg_lt_neg_iff, neg_inj] at h

/-- The element for the object at an index, but for its text. -/
structure TopRow (heap : Heap) (size : ℕ → ℤ) (i : ℕ) (row : RetainedObject) : Prop where
  object : ∃ obj, heap.objects.values[i]? = some obj ∧ row.objectAddress = hexAddress obj.address ∧
    heap.types.find? obj.typeAddress = some row.typeName ∧ row.shallowSizeBytes = obj.size
  retained : row.retainedSizeBytes = size i

/-- The first objects by size, of which those of one size stand in the order of the artifact. -/
structure TopObjects (heap : Heap) (size : ℕ → ℤ) (topN : ℕ) (top : List RetainedObject) : Prop where
  length : top.length = min topN heap.objects.keys.length
  rows : ∃ order, Lists (Ranks size) (List.range heap.objects.keys.length) order ∧
    List.Forall₂ (TopRow heap size) (order.take topN) top

/-- The rows along the ranking are the top objects. -/
theorem topObjects_of_ranking {size : ℕ → ℤ} {topN : ℕ} {top : List RetainedObject}
    (h : List.Forall₂ (TopRow heap size) ((ranking size heap.objects.keys.length).take topN) top) :
    TopObjects heap size topN top where
  length := by
    have hlength := (lists_ranking size heap.objects.keys.length).perm.length_eq
    rw [List.length_range] at hlength
    rw [← h.length_eq, List.length_take, hlength]
  rows := ⟨_, lists_ranking size _, h⟩

/-- An element without its text. -/
def RetainedObject.withoutText (row : RetainedObject) : RetainedObject := { row with stringRepresentation := none }

/-- Two rows of one object differ in their text only. -/
theorem TopRow.withoutText_eq {size : ℕ → ℤ} {i : ℕ} {row row' : RetainedObject} (h : TopRow heap size i row)
    (h' : TopRow heap size i row') : row.withoutText = row'.withoutText := by
  obtain ⟨⟨obj, hobj, haddress, hname, hsize⟩, hretained⟩ := h
  obtain ⟨⟨obj', hobj', haddress', hname', hsize'⟩, hretained'⟩ := h'
  cases hobj.symm.trans hobj'
  cases row
  cases row'
  simp only at haddress hname hsize hretained haddress' hname' hsize' hretained'
  simp only [RetainedObject.withoutText, RetainedObject.mk.injEq, and_true]
  exact ⟨haddress.trans haddress'.symm, Option.some.inj (hname.symm.trans hname'), hsize.trans hsize'.symm,
    hretained.trans hretained'.symm⟩

/-- **There is one such list**, but for the texts. -/
theorem TopObjects.unique {size : ℕ → ℤ} {topN : ℕ} {top top' : List RetainedObject} (h : TopObjects heap size topN top)
    (h' : TopObjects heap size topN top') :
    top.map RetainedObject.withoutText = top'.map RetainedObject.withoutText := by
  obtain ⟨order, horder, hrows⟩ := h.rows
  obtain ⟨order', horder', hrows'⟩ := h'.rows
  have hasymm : ∀ i j, Ranks size i j → ¬Ranks size j i := by
    intro i j hij hji
    unfold Ranks at hij hji
    omega
  cases horder.unique hasymm horder' (.refl _)
  refine List.ext_getElem ?_ fun i hi hi' => ?_
  · rw [List.length_map, List.length_map, h.length, h'.length]
  · rw [List.length_map] at hi hi'
    have hlt : i < (order.take topN).length := hrows.length_eq ▸ hi
    rw [List.getElem_map, List.getElem_map]
    exact (hrows.get hlt hi).withoutText_eq (hrows'.get hlt hi')

/-- The sizes of the objects by their indexes. -/
def SizesAt (heap : Heap) (retained : CachedHeap) (size : ℕ → ℤ) : Prop :=
  ∀ i address, heap.objects.keys[i]? = some address → (retained.getForObject address).getD 0 = size i

/-- `objects_sorted_by_retained_heap` is the ranking. -/
theorem objectsSortedByRetainedHeap_eq {retained : CachedHeap} {size : ℕ → ℤ} (hsize : SizesAt heap retained size) :
    objectsSortedByRetainedHeap heap retained =
      (ranking size heap.objects.keys.length).map fun i => (heap.objects.keys.getD i 0, size i) := by
  have hitems : (heap.objects.keys.map fun address => (address, (retained.getForObject address).getD 0)) =
      (List.range heap.objects.keys.length).map fun i => (heap.objects.keys.getD i 0, size i) := by
    refine List.ext_getElem (by simp) fun i hi _ => ?_
    have hlt : i < heap.objects.keys.length := by rwa [List.length_map] at hi
    have hkey := List.getElem?_eq_getElem hlt
    rw [List.getElem_map, List.getElem_map, List.getElem_range, List.getD_eq_getElem?_getD, hkey, Option.getD_some,
      hsize i _ hkey]
  rw [objectsSortedByRetainedHeap, hitems, ranking]
  exact (@List.map_mergeSort _ _ (fun i j => decide (size j ≤ size i)) (fun a b => decide (b.2 ≤ a.2))
    (fun i => (heap.objects.keys.getD i 0, size i)) _ fun _ _ _ _ => rfl).symm

/-- An object of a heap that was read has a text. -/
theorem objectString_ok (hstored : heap.StoredIn source known) (obj : HeapObject) :
    ∃ text, objectString heap obj = .ok text := by
  unfold objectString Heap.stringRepresentation
  rw [hstored.containers]
  split_ifs
  · cases heap.objects.find? obj.address with
    | none => exact ⟨_, rfl⟩
    | some _ => exact ⟨_, rfl⟩
  · exact ⟨_, rfl⟩

/-- The element for an object of the heap. -/
theorem retainedObject_ok (hstored : heap.StoredIn source known) (size : ℕ → ℤ) {i : ℕ}
    (hi : i < heap.objects.keys.length) :
    ∃ row, retainedObject heap (heap.objects.keys.getD i 0, size i) = .ok row ∧ TopRow heap size i row := by
  have hlt : i < heap.objects.entries.length := by rwa [OrderedDict.keys, List.length_map] at hi
  obtain ⟨⟨address, obj⟩, hentry⟩ : ∃ entry, heap.objects.entries[i] = entry := ⟨_, rfl⟩
  have hmem : (address, obj) ∈ heap.objects.entries := hentry ▸ List.getElem_mem hlt
  have hkey : heap.objects.keys.getD i 0 = address := by
    rw [List.getD_eq_getElem?_getD, OrderedDict.keys, List.getElem?_map, List.getElem?_eq_getElem hlt, hentry]
    rfl
  have hvalue : heap.objects.values[i]? = some obj := by
    rw [OrderedDict.values, List.getElem?_map, List.getElem?_eq_getElem hlt, hentry]
    rfl
  obtain ⟨name, hname⟩ := OrderedDict.exists_find?_of_mem_keys (hstored.typed obj (List.mem_of_getElem? hvalue))
  obtain ⟨text, htext⟩ := objectString_ok hstored obj
  have hrow : retainedObject heap (address, size i) = .ok ⟨hexAddress address, name, obj.size, size i, text⟩ := by
    simp only [retainedObject, OrderedDict.find?_eq_some.2 hmem, typeName, hname]
    exact bind_ok htext
  rw [hkey]
  refine ⟨_, hrow, ⟨obj, hvalue, ?_, hname, rfl⟩, rfl⟩
  rw [(hstored.stored _ hmem).1]

/-- **The top objects** are the first of the ranking. -/
theorem retainedSummary_eq (hstored : heap.StoredIn source known) {retained : CachedHeap} {size : ℕ → ℤ}
    (hsize : SizesAt heap retained size) (topN : ℕ) :
    ∃ top, retainedSummary heap (some retained) topN = .ok ⟨"complete", topN, top⟩ ∧ TopObjects heap size topN top := by
  have hrows : ∀ i ∈ (ranking size heap.objects.keys.length).take topN, ∃ row,
      retainedObject heap (heap.objects.keys.getD i 0, size i) = .ok row ∧ TopRow heap size i row := by
    intro i hi
    have hmem := (lists_ranking size heap.objects.keys.length).perm.mem_iff.1 (List.mem_of_mem_take hi)
    exact retainedObject_ok hstored size (List.mem_range.1 hmem)
  obtain ⟨top, htop, hforall⟩ := mapM_forall₂ hrows
  refine ⟨top, ?_, topObjects_of_ranking hforall⟩
  unfold retainedSummary
  dsimp only
  rw [objectsSortedByRetainedHeap_eq hsize, ← List.map_take, List.mapM_map]
  exact bind_ok htop

end Analyzer
end Pydump
