/-
# The heap as a reference graph

`Heap.graph` reads a heap as a `RefGraph`; `inboundReferences_spec` says that the
index `InboundReferences` builds holds the referrers of every object and every
referent, whatever order Python walks the sets in.
-/

import Pydump.Analyzer.Retained
import Pydump.Lib.RefGraph

namespace Pydump
namespace Analyzer

/-! ### The heap as a graph -/

/-- What the object at `address` refers to. -/
def Heap.referents (heap : Heap) (address : ℕ) : Finset ℕ :=
  match heap.objects.find? address with
  | some obj => obj.referents
  | none => ∅

/-- The size of the object at `address`, nothing for a dangling address. -/
def Heap.size (heap : Heap) (address : ℕ) : ℕ :=
  match heap.objects.find? address with
  | some obj => obj.size
  | none => 0

/-- The heap as a reference graph. -/
def Heap.graph (heap : Heap) : RefGraph ℕ where
  objects := heap.objects.keys.toFinset
  succ := heap.referents
  succ_eq_empty x hx := by
    rw [List.mem_toFinset, ← OrderedDict.find?_eq_none] at hx
    rw [Heap.referents, hx]

variable {heap : Heap}

/-- The objects of the graph are the keys. -/
theorem mem_graph_objects {address : ℕ} : address ∈ heap.graph.objects ↔ address ∈ heap.objects.keys :=
  List.mem_toFinset

/-- The graph has the referents of an object. -/
theorem graph_succ_of_find? {address : ℕ} {obj : HeapObject} (h : heap.objects.find? address = some obj) :
    heap.graph.succ address = obj.referents := by
  change heap.referents address = _
  rw [Heap.referents, h]

/-- The size of an object. -/
theorem size_of_find? {address : ℕ} {obj : HeapObject} (h : heap.objects.find? address = some obj) :
    heap.size address = obj.size := by
  rw [Heap.size, h]

/-- What is no object has no size. -/
theorem size_of_not_mem : ∀ x ∉ heap.graph.objects, heap.size x = 0 := by
  intro x hx
  rw [mem_graph_objects, ← OrderedDict.find?_eq_none] at hx
  rw [Heap.size, hx]

/-- A key that is there has its value. -/
theorem getItem_ok {K V : Type} [DecidableEq K] {d : OrderedDict K V} {key : K} {value : V}
    (h : d.find? key = some value) : getItem d key = .ok value := by
  rw [getItem, h]

/-! ### The inbound index -/

/-- The keys of `entries` whose object refers to `address`. -/
def referrersIn (entries : List (ℕ × HeapObject)) (address : ℕ) : Finset ℕ :=
  ((entries.filter fun entry => address ∈ entry.2.referents).map Prod.fst).toFinset

/-- The index after the objects `entries`: an address is in it when it is an object
or a referent, with its referrers. -/
def InboundSpec (entries : List (ℕ × HeapObject)) (inbound : OrderedDict ℕ (Finset ℕ)) : Prop :=
  ∀ address, inbound.find? address =
    if ∃ entry ∈ entries, address = entry.1 ∨ address ∈ entry.2.referents then
      some (referrersIn entries address) else none

/-- A source goes to each of its referents. -/
theorem find?_foldl_addInbound (source : ℕ) (referents : List ℕ) (inbound : OrderedDict ℕ (Finset ℕ))
    (address : ℕ) :
    (referents.foldl (addInbound source) inbound).find? address =
      if address ∈ referents then some (insert source ((inbound.find? address).getD ∅))
      else inbound.find? address := by
  induction referents generalizing inbound with
  | nil => simp
  | cons referent referents ih =>
    rw [List.foldl_cons, ih, addInbound, OrderedDict.find?_insert]
    by_cases h : referent = address
    · subst h
      simp
    · simp [h, Ne.symm h]

/-- An object goes to its referents, and has an entry of its own. -/
theorem find?_addObject (orders : Orders) (inbound : OrderedDict ℕ (Finset ℕ)) (entry : ℕ × HeapObject)
    (address : ℕ) :
    (addObject orders inbound entry).find? address =
      if address ∈ entry.2.referents then some (insert entry.1 ((inbound.find? address).getD ∅))
      else if address = entry.1 then some ((inbound.find? address).getD ∅) else inbound.find? address := by
  rw [addObject, find?_foldl_addInbound, OrderedDict.find?_insert]
  simp only [orders.mem_walk]
  by_cases h : address = entry.1
  · subst h
    simp
  · simp [h, Ne.symm h]

/-- **One more object** keeps the index right. -/
theorem inboundSpec_addObject (orders : Orders) {entries : List (ℕ × HeapObject)}
    {inbound : OrderedDict ℕ (Finset ℕ)} (h : InboundSpec entries inbound) (entry : ℕ × HeapObject) :
    InboundSpec (entries ++ [entry]) (addObject orders inbound entry) := by
  intro address
  have hreferrers : referrersIn (entries ++ [entry]) address =
      if address ∈ entry.2.referents then insert entry.1 (referrersIn entries address)
      else referrersIn entries address := by
    unfold referrersIn
    rw [List.filter_append, List.map_append, List.toFinset_append]
    by_cases hm : address ∈ entry.2.referents
    · simp [hm, Finset.union_comm]
    · simp [hm]
  have hget : (inbound.find? address).getD ∅ = referrersIn entries address := by
    rw [h address]
    split_ifs with hseen
    · rfl
    · rw [Option.getD_none, eq_comm, referrersIn, List.filter_eq_nil_iff.2]
      · rfl
      · exact fun e he hm => hseen ⟨e, he, .inr (of_decide_eq_true hm)⟩
  rw [find?_addObject, hget, hreferrers]
  simp only [List.mem_append, List.mem_singleton, or_and_right, exists_or, exists_eq_left]
  by_cases hm : address ∈ entry.2.referents
  · rw [if_pos hm, if_pos hm, if_pos (.inr (.inr hm))]
  · rw [if_neg hm, if_neg hm]
    by_cases he : address = entry.1
    · rw [if_pos he, if_pos (.inr (.inl he))]
    · rw [if_neg he, h address]
      simp only [hm, he, or_self, or_false]

/-- **The whole index.** -/
theorem inboundReferences_inboundSpec (orders : Orders) (heap : Heap) :
    InboundSpec heap.objects.entries (inboundReferences orders heap) := by
  have hall : ∀ rest entries : List (ℕ × HeapObject), ∀ inbound, InboundSpec entries inbound →
      InboundSpec (entries ++ rest) (rest.foldl (addObject orders) inbound) := by
    intro rest
    induction rest with
    | nil => intro entries inbound h; rwa [List.append_nil]
    | cons entry rest ih =>
      intro entries inbound h
      have := ih (entries ++ [entry]) _ (inboundSpec_addObject orders h entry)
      rwa [List.append_assoc] at this
  exact hall heap.objects.entries [] .empty fun address => by simp

/-- An address is in the index when it is an object or a referent. -/
theorem mem_of_inboundReferences (orders : Orders) {address : ℕ} {referrers : Finset ℕ}
    (h : (inboundReferences orders heap).find? address = some referrers) :
    address ∈ heap.graph.objects ∨ ∃ source, address ∈ heap.graph.succ source := by
  rw [inboundReferences_inboundSpec] at h
  split_ifs at h with hseen
  obtain ⟨⟨source, obj⟩, hentry, hm⟩ := hseen
  have hfind := OrderedDict.find?_eq_some.2 hentry
  rcases hm with rfl | hm
  · exact .inl (mem_graph_objects.2 (OrderedDict.mem_keys_of_find? hfind))
  · exact .inr ⟨source, by rwa [graph_succ_of_find? hfind]⟩

/-- **The inbound index holds the referrers** of every object and every referent. -/
theorem inboundReferences_spec (orders : Orders) {address : ℕ}
    (h : address ∈ heap.graph.objects ∨ ∃ source, address ∈ heap.graph.succ source) :
    (inboundReferences orders heap).find? address = some (heap.graph.inbound address) := by
  have hmem : ∀ {source : ℕ} {obj : HeapObject}, heap.objects.find? source = some obj ↔
      (source, obj) ∈ heap.objects.entries := OrderedDict.find?_eq_some
  have hseen : ∃ entry ∈ heap.objects.entries, address = entry.1 ∨ address ∈ entry.2.referents := by
    rcases h with h | ⟨source, h⟩
    · obtain ⟨obj, hobj⟩ := OrderedDict.exists_find?_of_mem_keys (mem_graph_objects.1 h)
      exact ⟨_, hmem.1 hobj, .inl rfl⟩
    · obtain ⟨obj, hobj⟩ := OrderedDict.exists_find?_of_mem_keys
        (mem_graph_objects.1 (RefGraph.mem_objects_of_succ h))
      rw [graph_succ_of_find? hobj] at h
      exact ⟨_, hmem.1 hobj, .inr h⟩
  rw [inboundReferences_inboundSpec, if_pos hseen]
  congr 1
  ext source
  rw [RefGraph.mem_inbound, referrersIn, List.mem_toFinset, List.mem_map]
  constructor
  · rintro ⟨⟨source, obj⟩, he, rfl⟩
    obtain ⟨he, hm⟩ := List.mem_filter.1 he
    rw [graph_succ_of_find? (hmem.2 he)]
    exact of_decide_eq_true hm
  · intro hs
    obtain ⟨obj, hobj⟩ := OrderedDict.exists_find?_of_mem_keys
      (mem_graph_objects.1 (RefGraph.mem_objects_of_succ hs))
    rw [graph_succ_of_find? hobj] at hs
    exact ⟨(source, obj), List.mem_filter.2 ⟨hmem.1 hobj, decide_eq_true hs⟩, rfl⟩

/-- The index answers for every object and every referent. -/
def IndexOf (heap : Heap) (inbound : OrderedDict ℕ (Finset ℕ)) : Prop :=
  ∀ address, (address ∈ heap.graph.objects ∨ ∃ source, address ∈ heap.graph.succ source) →
    inbound.find? address = some (heap.graph.inbound address)

/-- The references that are built index the heap. -/
theorem indexOf_inboundReferences (orders : Orders) : IndexOf heap (inboundReferences orders heap) :=
  fun _ => inboundReferences_spec orders

end Analyzer
end Pydump
