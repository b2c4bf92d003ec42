/-
# Both reports say the same

The types, the locals and the top objects in the report of the Go analyzer are those in the
report of the Python analyzer, in whatever order Go walks its maps and leaves equal keys when
it sorts.  No two rows have equal keys, so that nothing is left to the order; the sums of 64
bits do not wrap, because an artifact has fewer than `2 ^ 32` objects of 32 bits each; and
UTF-8 keeps the order of the code points.
-/

import Pydump.Analyzer.ReportSpec
import Pydump.Go.Rendering
import Pydump.Go.Report
import Pydump.Lib.Utf8Order

namespace Pydump
namespace Go

open ExceptLoop
open Analyzer (CachedHeap HeapObject LocalSummary RetainedObject SizesAt TopObjects TopRow TypeRow TypeRows hexAddress
  lexStep_iff localSummary ranking sortedKeys typeAddresses typeRow)
open Sorting (FreeSort Lists)
open Tally (tally weightOf)

variable {source : List UInt8} {known : Analyzer.ContainerTypes} {heap : Analyzer.Heap} {value : Heap}
  {R : ContentRelation} (order : RangeOrder) (sorter : FreeSort)

/-! ### Types -/

/-- What the objects of both heaps say about types. -/
theorem LikeHeap.weights (h : LikeHeap R heap value) :
    (heap.objects.values.map fun obj => (obj.typeAddress, obj.size)) =
      value.objects.map fun object => (object.typeAddress, object.size) := by
  rw [OrderedDict.values, List.map_map]
  exact List.forall₂_eq_eq_eq ▸ List.forall₂_map_left_iff.2 (List.forall₂_map_right_iff.2
    (h.objects.imp fun _ _ ho => Prod.ext ho.2.typeAddress ho.2.size))

/-- Every object counts once under its type. -/
theorem LikeHeap.ones (h : LikeHeap R heap value) :
    (heap.objects.values.map fun obj => (obj.typeAddress, 1)) =
      value.objects.map fun object => (object.typeAddress, 1) := by
  have hweights := congrArg (List.map fun p : ℕ × ℕ => (p.1, 1)) h.weights
  rwa [List.map_map, List.map_map] at hweights

/-- The sums of an artifact have 64 bits. -/
theorem sum_sizes_lt (hstored : heap.StoredIn source known) :
    heap.objects.values.length < 2 ^ 64 ∧ (heap.objects.values.map HeapObject.size).sum < 2 ^ 64 := by
  have hcount : heap.objects.values.length < 2 ^ 32 := by
    rw [OrderedDict.values, List.length_map]
    exact hstored.count
  have hsizes : ∀ size ∈ heap.objects.values.map HeapObject.size, size ≤ 2 ^ 32 - 1 := by
    intro size hsize
    obtain ⟨obj, hobj, rfl⟩ := List.mem_map.1 hsize
    have := (hstored.objects hobj).size
    omega
  have hsum := List.sum_le_card_nsmul _ _ hsizes
  rw [List.length_map, Nat.nsmul_eq_mul] at hsum
  have hproduct := Nat.mul_le_mul_right (2 ^ 32 - 1) hcount.le
  constructor
  · omega
  · omega

/-- The summary of a row. -/
def TypeSummary.ofRow (row : TypeRow) : TypeSummary := ⟨row.summary, row.address⟩

/-- The row of a summary. -/
def TypeSummary.row (summary : TypeSummary) : TypeRow :=
  ⟨summary.address, summary.typeName, summary.objectCount, summary.shallowSizeBytes⟩

/-- The summary of a type behind the objects `objects`. -/
def countedSummary (value : Heap) (objects : List Object) (address : ℕ) : TypeSummary :=
  ⟨⟨hexAddress address, (value.types.find? address).getD "",
    weightOf Object.typeAddress (fun _ => 1) objects address % 2 ^ 64,
    weightOf Object.typeAddress Object.size objects address % 2 ^ 64⟩, address⟩

/-- The loop keeps the sums of every type, modulo `2 ^ 64`. -/
theorem find?_byType (objects : List Object) (address : ℕ) :
    ((objects.foldl (addToType value) .empty).find? address).getD
      ⟨⟨hexAddress address, (value.types.find? address).getD "", 0, 0⟩, address⟩ =
        countedSummary value objects address := by
  induction objects using List.reverseRecOn with
  | nil => rfl
  | append_singleton objects object ih =>
    rw [List.foldl_append, List.foldl_cons, List.foldl_nil, addToType, OrderedDict.find?_insert, countedSummary,
      Tally.weightOf_concat, Tally.weightOf_concat]
    split_ifs with htype
    · subst htype
      rw [ih, Option.getD_some, countedSummary]
      simp only [Nat.mod_add_mod]
    · rw [ih, countedSummary, Nat.add_zero, Nat.add_zero]

/-- The types stand in the order of their first objects. -/
theorem keys_byType (objects : List Object) :
    (objects.foldl (addToType value) .empty).keys = (tally Object.typeAddress (fun _ => 1) objects).keys := by
  induction objects using List.reverseRecOn with
  | nil => rfl
  | append_singleton objects object ih =>
    rw [List.foldl_append, Tally.tally_concat, List.foldl_cons, List.foldl_nil, addToType, Tally.add,
      OrderedDict.keys_insert, OrderedDict.keys_insert, ih]

/-- **The map of the types** has the rows of the heap, none of which has wrapped. -/
theorem LikeHeap.values_byType (h : LikeHeap R heap value) (hstored : heap.StoredIn source known) :
    (value.objects.foldl (addToType value) .empty).values =
      (typeAddresses heap).map fun address => TypeSummary.ofRow (typeRow heap address) := by
  have hkeys : (value.objects.foldl (addToType value) .empty).keys = typeAddresses heap := by
    rw [keys_byType]
    exact (Tally.keys_tally_congr h.ones).symm
  obtain ⟨hcount, hsum⟩ := sum_sizes_lt hstored
  have hrow : ∀ address, countedSummary value value.objects address = .ofRow (typeRow heap address) := by
    intro address
    have hones := @Tally.weightOf_le_sum _ _ _ HeapObject.typeAddress (fun _ => 1) heap.objects.values address
    rw [List.map_const', List.sum_replicate_nat, mul_one] at hones
    have hsizes := @Tally.weightOf_le_sum _ _ _ HeapObject.typeAddress HeapObject.size heap.objects.values address
    rw [countedSummary, ← Tally.weightOf_congr h.ones, ← Tally.weightOf_congr h.weights, ← h.types,
      Nat.mod_eq_of_lt (by omega), Nat.mod_eq_of_lt (by omega)]
    rfl
  rw [← hkeys]
  refine OrderedDict.values_eq_map fun address haddress => ?_
  obtain ⟨summary, hsummary⟩ := OrderedDict.exists_find?_of_mem_keys haddress
  have hvalue := @find?_byType value value.objects address
  rw [hsummary, Option.getD_some, hrow] at hvalue
  rw [hsummary, hvalue]

/-- A comparison by the first component that differs, the larger one first. -/
theorem lexStep_gt_iff {a b : ℕ} {less : Bool} :
    (if a ≠ b then decide (b < a) else less) = true ↔ b < a ∨ b = a ∧ less = true := by
  by_cases h : a = b
  · simp [h]
  · simp [h, Ne.symm h]

/-- The comparison by bytes is that of the strings. -/
theorem stringLess_eq (a b : String) : stringLess a b = decide (a < b) := decide_eq_decide.2 Utf8.encode_lt_iff

/-- The comparison of two rows. -/
theorem TypeSummary.less_iff (left right : TypeSummary) :
    TypeSummary.less left right = true ↔ left.row.Before right.row := by
  simp only [TypeSummary.less, stringLess_eq, lexStep_gt_iff, lexStep_iff, decide_eq_true_eq, TypeRow.Before,
    TypeSummary.row]

/-- **The types of the report**, whatever the order of the map. -/
theorem LikeHeap.typeSummaries_eq (h : LikeHeap R heap value) (hstored : heap.StoredIn source known) :
    (typeSummaries order sorter value).map TypeSummary.toTypeSummary =
      (sortedKeys heap).map fun k => (typeRow heap k.address).summary := by
  have hperm : ((order.walk (value.objects.foldl (addToType value) .empty)).map Prod.snd).Perm
      ((typeAddresses heap).map fun address => TypeSummary.ofRow (typeRow heap address)) :=
    h.values_byType hstored ▸ (order.perm _).map Prod.snd
  have hnodup : (((order.walk (value.objects.foldl (addToType value) .empty)).map Prod.snd).map
      fun summary => summary.row.typeKey.key).Nodup := by
    refine List.Nodup.of_map (fun k : Analyzer.RowKey => (ofLex (ofLex (ofLex k).2).2).2) ?_
    rw [List.map_map, (hperm.map _).nodup_iff, List.map_map]
    exact (List.map_id (typeAddresses heap)).symm ▸ OrderedDict.keys_nodup _
  have hsorted : Lists (fun a b => a.row.typeKey.key < b.row.typeKey.key) _ (typeSummaries order sorter value) :=
    sorter.lists (fun a b => (TypeSummary.less_iff a b).trans (TypeRow.before_iff _ _)) hnodup
  -- the rows of the summaries are the rows of the heap
  have hrows : Lists TypeRow.Before _ ((typeSummaries order sorter value).map TypeSummary.row) :=
    hsorted.map fun a _ b _ hab => (TypeRow.before_iff _ _).2 hab
  have hpermRows := hperm.map TypeSummary.row
  rw [List.map_map (f := fun address => TypeSummary.ofRow (typeRow heap address))] at hpermRows
  have hsame := hrows.unique TypeRow.before_asymm (Analyzer.lists_rows heap) hpermRows
  have hspelled : ∀ summary ∈ typeSummaries order sorter value, summary.toTypeSummary = summary.row.summary := by
    intro summary hsummary
    obtain ⟨address, -, rfl⟩ := List.mem_map.1 (hperm.mem_iff.1 (hsorted.perm.mem_iff.1 hsummary))
    rfl
  have hsummaries := congrArg (List.map TypeRow.summary) hsame
  rw [List.map_map, List.map_map] at hsummaries
  exact (List.map_congr_left hspelled).trans hsummaries

/-! ### The heap -/

/-- The sums of references and of sizes, in words of 64 bits. -/
theorem foldl_addSizes (objects : List Object) : objects.foldl addSizes (0, 0) =
    ((objects.map fun object => object.referents.length).sum % 2 ^ 64, (objects.map Object.size).sum % 2 ^ 64) := by
  induction objects using List.reverseRecOn with
  | nil => rfl
  | append_singleton objects object ih =>
    rw [List.foldl_append, ih, List.map_append, List.map_append, List.sum_append, List.sum_append]
    simp [addSizes]

/-- **The totals of the heap**, which have not wrapped. -/
theorem LikeHeap.heapSummary_eq (h : LikeHeap R heap value) (hstored : heap.StoredIn source known) :
    (heapSummary value).objectCount = (Analyzer.heapSummary heap).objectCount ∧
      (heapSummary value).shallowSizeBytes = (Analyzer.heapSummary heap).shallowSizeBytes := by
  have hsizes := congrArg (List.map Prod.snd) h.weights
  rw [List.map_map, List.map_map] at hsizes
  have hsum : (value.objects.map Object.size).sum = (heap.objects.values.map HeapObject.size).sum :=
    congrArg List.sum hsizes.symm
  constructor
  · show value.objects.length = heap.objects.keys.length
    rw [h.keys, List.length_map]
  · show (value.objects.foldl addSizes (0, 0)).2 = (heap.objects.values.map HeapObject.size).sum
    rw [foldl_addSizes, hsum, Nat.mod_eq_of_lt (sum_sizes_lt hstored).2]

/-! ### Locals -/

/-- Both heaps name the type of an object alike. -/
theorem LikeHeap.objectTypeName_eq (h : LikeHeap R heap value) (hstored : heap.StoredIn source known) (address : ℕ) :
    objectTypeName value address = Analyzer.objectTypeName heap address := by
  unfold objectTypeName Analyzer.objectTypeName
  rcases h.lookup address with ⟨hnone, hgoNone⟩ | ⟨obj, index, object, hobj, hindex, hobject, hlike⟩
  · rw [hnone, hgoNone]
    rfl
  · have hvalue : obj ∈ heap.objects.values := List.mem_map_of_mem (OrderedDict.find?_eq_some.1 hobj)
    obtain ⟨name, hname⟩ := OrderedDict.exists_find?_of_mem_keys (hstored.typed obj hvalue)
    rw [hobj, hindex, Option.bind_some, Option.bind_some, hobject, Option.map_some, ← hlike.typeAddress, ← h.types,
      hname, Option.getD_some]

/-- The element for a name. -/
def localNamed (value : Heap) (frame : ThreadFrame) (name : String) : LocalSummary :=
  ⟨name, hexAddress ((frame.locals.find? name).getD 0), objectTypeName value ((frame.locals.find? name).getD 0)⟩

/-- **The locals of a frame**, whatever the order of the map. -/
theorem LikeHeap.localVariables_eq (h : LikeHeap R heap value) (hstored : heap.StoredIn source known)
    {frame : Analyzer.HeapThreadFrame} {other : ThreadFrame} (hframe : SameFrame frame other) :
    localVariables order sorter value other = Analyzer.localVariables heap frame := by
  have hperm : ((order.walk other.locals).map Prod.fst).Perm other.locals.keys := (order.perm _).map Prod.fst
  have hnames : Lists (· < ·) _ (sorter.sort stringLess ((order.walk other.locals).map Prod.fst)) :=
    @FreeSort.lists String String _ _ id sorter _ (fun a b => by rw [stringLess_eq, decide_eq_true_eq]; rfl)
      ((List.map_id _).symm ▸ hperm.nodup_iff.2 other.locals.keys_nodup)
  have helements : Lists (fun a b : LocalSummary => a.name < b.name) _ (localVariables order sorter value other) :=
    hnames.map (f := localNamed value other) fun a _ b _ hab => hab
  refine helements.unique (fun a b hab => lt_asymm hab) (Analyzer.lists_localVariables heap frame) ?_
  refine (hperm.map (localNamed value other)).trans (.of_eq ?_)
  rw [OrderedDict.keys, List.map_map, hframe.locals]
  refine List.map_congr_left fun entry hentry => ?_
  show localNamed value other entry.1 = Analyzer.localSummary heap entry
  simp only [localNamed, OrderedDict.find?_eq_some.2 hentry, Option.getD_some, h.objectTypeName_eq hstored,
    Analyzer.localSummary]

/-! ### The top objects -/

/-- Both analyzers have the same retained sizes of objects, `size` by their indexes. -/
structure SameSizes (heap : Analyzer.Heap) (retained : CachedHeap) (goRetained : RetainedHeap) (size : ℕ → ℤ) :
    Prop where
  python : SizesAt heap retained size
  go : ∀ i < heap.objects.keys.length, ∃ n : ℕ, goRetained.sizeAt i = .ok n ∧ n = size i

/-- A ranking of indexes that stand beside their sizes. -/
theorem mergeSort_sizes {g : ℕ → ℕ} {size : ℕ → ℤ} {n : ℕ} (hsize : ∀ i < n, (g i : ℤ) = size i) :
    (((List.range n).map fun i => (i, g i)).mergeSort fun left right => decide (right.2 ≤ left.2)).map Prod.fst =
      ranking size n := by
  have hsort : ∀ i ∈ List.range n, ∀ j ∈ List.range n,
      decide (size j ≤ size i) = decide ((j, g j).2 ≤ (i, g i).2) := by
    intro i hi j hj
    have hle : size j ≤ size i ↔ g j ≤ g i := by
      rw [← hsize i (List.mem_range.1 hi), ← hsize j (List.mem_range.1 hj), Nat.cast_le]
    exact decide_eq_decide.2 hle
  have hmap := @List.map_mergeSort _ _ (fun i j => decide (size j ≤ size i))
    (fun left right : ℕ × ℕ => decide (right.2 ≤ left.2)) (fun i => (i, g i)) _ hsort
  rw [← hmap, List.map_map, ranking]
  exact List.map_id _

/-- **The ranking of the objects**, where every one of them has a size. -/
theorem sortedIndexes_eq {goRetained : RetainedHeap} {size : ℕ → ℤ}
    (hsize : ∀ i < value.objects.length, ∃ n : ℕ, goRetained.sizeAt i = .ok n ∧ n = size i) :
    sortedIndexes value goRetained = .ok (ranking size value.objects.length) := by
  have hread : ∀ i ∈ List.range value.objects.length, indexedSize goRetained i = .ok (i, (size i).toNat) := by
    intro i hi
    obtain ⟨n, hn, hni⟩ := hsize i (List.mem_range.1 hi)
    rw [indexedSize, bind_ok hn, ← hni]
    rfl
  unfold sortedIndexes
  dsimp only
  split_ifs with hfew
  · -- with one object at most there is nothing to compare
    rw [List.length_range] at hfew
    have hranking : ranking size value.objects.length = List.range value.objects.length := by
      obtain hnone | hone : value.objects.length = 0 ∨ value.objects.length = 1 := by omega
      · rw [hnone]
        exact List.mergeSort_nil
      · rw [hone]
        exact List.mergeSort_singleton 0
    rw [hranking]
    rfl
  · rw [bind_ok (mapM_ok hread)]
    refine congrArg Except.ok (mergeSort_sizes fun i hi => ?_)
    obtain ⟨n, -, hni⟩ := hsize i hi
    rw [← hni]
    rfl

/-- An object of a heap that was read has a text. -/
theorem LikeHeap.representation_ok (h : LikeHeap BothContainers heap value) (hstored : heap.StoredIn source known)
    (object : Object) : ∃ text, representation value object = .ok text := by
  unfold representation
  split_ifs with hflag
  · obtain ⟨text, htext⟩ := h.render_ok hstored (h.header.withStringRepr.trans hflag) ∅ object.address
    refine ⟨some text, ?_⟩
    rw [Heap.stringRepresentation, if_neg (not_not.2 hflag), bind_ok htext]
    rfl
  · exact ⟨none, rfl⟩

/-- The row of a top object. -/
theorem LikeHeap.retainedObject_ok (h : LikeHeap BothContainers heap value) (hstored : heap.StoredIn source known)
    {retained : CachedHeap} {goRetained : RetainedHeap} {size : ℕ → ℤ} (hsize : SameSizes heap retained goRetained size)
    {i : ℕ} (hi : i < heap.objects.keys.length) :
    ∃ row, retainedObject value goRetained i = .ok row ∧ TopRow heap size i row := by
  have hlt : i < value.objects.length := by rwa [h.keys, List.length_map] at hi
  obtain ⟨obj, hentry, hlike⟩ := h.object (List.getElem?_eq_getElem hlt)
  have hvalue : heap.objects.values[i]? = some obj := by
    rw [OrderedDict.values, List.getElem?_map, hentry]
    rfl
  obtain ⟨name, hname⟩ := OrderedDict.exists_find?_of_mem_keys (hstored.typed obj (List.mem_of_getElem? hvalue))
  obtain ⟨text, htext⟩ := h.representation_ok hstored value.objects[i]
  obtain ⟨n, hn, hni⟩ := hsize.go i hi
  refine ⟨⟨hexAddress value.objects[i].address, name, value.objects[i].size, n, text⟩, ?_,
    ⟨obj, hvalue, ?_, hname, hlike.size.symm⟩, hni⟩
  · simp only [retainedObject, List.getElem?_eq_getElem hlt, ← hlike.typeAddress, ← h.types, hname, Option.getD_some]
    rw [bind_ok htext, bind_ok hn]
    rfl
  · rw [hlike.address]

/-- **The top objects.** -/
theorem LikeHeap.retainedObjects_eq (h : LikeHeap BothContainers heap value) (hstored : heap.StoredIn source known)
    {retained : CachedHeap} {goRetained : RetainedHeap} {size : ℕ → ℤ} (hsize : SameSizes heap retained goRetained size)
    (topN : ℕ) : ∃ top, retainedObjects value goRetained topN = .ok top ∧ TopObjects heap size topN top := by
  have hlength : heap.objects.keys.length = value.objects.length := by rw [h.keys, List.length_map]
  have hindexes : sortedIndexes value goRetained = .ok (ranking size heap.objects.keys.length) := by
    rw [hlength]
    exact sortedIndexes_eq fun i hi => hsize.go i (hlength ▸ hi)
  have hrows : ∀ i ∈ (ranking size heap.objects.keys.length).take topN, ∃ row,
      retainedObject value goRetained i = .ok row ∧ TopRow heap size i row := by
    intro i hi
    have hmem := (Analyzer.lists_ranking size heap.objects.keys.length).perm.mem_iff.1 (List.mem_of_mem_take hi)
    exact h.retainedObject_ok hstored hsize (List.mem_range.1 hmem)
  obtain ⟨top, htop, hforall⟩ := mapM_forall₂ hrows
  refine ⟨top, ?_, Analyzer.topObjects_of_ranking hforall⟩
  rw [retainedObjects, bind_ok hindexes]
  dsimp only
  split_ifs with hfewer
  · exact htop
  · rwa [List.take_of_length_le (by omega)] at htop

/-! ### The reports -/

/-- **The reports conserve the heap and are canonical.**  For an artifact that both readers
accept, in whatever order Go walks its maps and leaves equal keys: the types of both reports
are the rows of the types that occur, in a strict order, with the totals of the heap as their
sums, none of which wraps; the locals of a frame stand in the order of their names; and for
the same retained sizes the top objects are the first of the same ranking. -/
theorem reports_agree (hread : Analyzer.readHeap source = .ok heap) (hload : load source = .ok value) :
    (∃ rows, TypeRows heap rows ∧ Analyzer.typeSummaries heap = .ok (rows.map TypeRow.summary) ∧
      ∀ order sorter, (typeSummaries order sorter value).map TypeSummary.toTypeSummary = rows.map TypeRow.summary) ∧
    ((heapSummary value).objectCount = (Analyzer.heapSummary heap).objectCount ∧
      (heapSummary value).shallowSizeBytes = (Analyzer.heapSummary heap).shallowSizeBytes ∧
        (Analyzer.heapSummary heap).objectCount < 2 ^ 64 ∧ (Analyzer.heapSummary heap).shallowSizeBytes < 2 ^ 64) ∧
    List.Forall₂ (fun (thread : Analyzer.HeapThread) (other : Thread) =>
      List.Forall₂ (fun (frame : Analyzer.HeapThreadFrame) (otherFrame : ThreadFrame) =>
        Lists (fun a b => a.name < b.name) (frame.locals.entries.map (localSummary heap))
          (Analyzer.localVariables heap frame) ∧
        ∀ order sorter, localVariables order sorter value otherFrame = Analyzer.localVariables heap frame)
      thread.stackTrace other.stackTrace) heap.threads value.threads ∧
    ∀ retained goRetained size, SameSizes heap retained goRetained size → ∀ topN, ∃ top goTop,
      Analyzer.retainedSummary heap (some retained) topN = .ok ⟨"complete", topN, top⟩ ∧
        retainedObjects value goRetained topN = .ok goTop ∧ TopObjects heap size topN top ∧
          TopObjects heap size topN goTop ∧
            top.map RetainedObject.withoutText = goTop.map RetainedObject.withoutText := by
  have h := readers_alike hread hload
  obtain ⟨known, hstored⟩ := Analyzer.storedIn_of_readHeap hread
  refine ⟨⟨_, Analyzer.typeRows_of_lists hstored (Analyzer.lists_rows heap), ?_, fun order sorter => ?_⟩, ?_, ?_, ?_⟩
  · rw [Analyzer.typeSummaries_eq hstored, List.map_map]
    rfl
  · rw [h.typeSummaries_eq order sorter hstored, List.map_map]
    rfl
  · obtain ⟨hcount, hbytes⟩ := h.heapSummary_eq hstored
    have hfits := sum_sizes_lt hstored
    rw [OrderedDict.values, List.length_map] at hfits
    refine ⟨hcount, hbytes, ?_, hfits.2⟩
    show heap.objects.keys.length < 2 ^ 64
    rw [OrderedDict.keys, List.length_map]
    exact hfits.1
  · exact h.threads.imp fun thread other hthread => hthread.stackTrace.imp fun frame otherFrame hframe =>
      ⟨Analyzer.lists_localVariables heap frame, fun order sorter => h.localVariables_eq order sorter hstored hframe⟩
  · intro retained goRetained size hsize topN
    obtain ⟨top, htop, hfirst⟩ := Analyzer.retainedSummary_eq hstored hsize.python topN
    obtain ⟨goTop, hgoTop, hgoFirst⟩ := h.retainedObjects_eq hstored hsize topN
    exact ⟨top, goTop, htop, hgoTop, hfirst, hgoFirst, hfirst.unique hgoFirst⟩

/-- The rows of the fixture count its two objects. -/
theorem reports_agree_fixture :
    ∃ source heap value, ∃ rows : List TypeRow, Analyzer.readHeap source = .ok heap ∧ load source = .ok value ∧
      Analyzer.typeSummaries heap = .ok (rows.map TypeRow.summary) ∧
        (typeSummaries .inserted .stable value).map TypeSummary.toTypeSummary = rows.map TypeRow.summary ∧
          (rows.map TypeRow.count).sum = 2 := by
  have hencodable := Artifact.fixture_encodable
  obtain ⟨bytes, heap, hwrite, hrun, -, -, -, -, -, -, hkeys, -⟩ := Artifact.read_write hencodable ""
  cases hwrite.symm.trans (Artifact.write_eq hencodable "")
  have hread : Analyzer.readHeap (Artifact.fixture.layout ⟨0x1002, 0x1000, 0x1003, 0x1001⟩) = .ok heap :=
    congrArg (Except.map Prod.fst) hrun
  obtain ⟨value, hload⟩ := (readers_agree (containersDiffer_layout hencodable)).1.1 ⟨heap, hread⟩
  obtain ⟨⟨rows, hrows, hpython, hgo⟩, -⟩ := reports_agree hread hload
  refine ⟨_, heap, value, rows, hread, hload, hpython, hgo .inserted .stable, ?_⟩
  rw [hrows.count]
  show heap.objects.keys.length = 2
  rw [hkeys]
  rfl

end Go
end Pydump
