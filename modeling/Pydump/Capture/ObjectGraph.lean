/-
# Graphs of objects

What there is for a capture to find.  An `ObjectGraph` has finitely many addresses with
the facts of the object at each, and an object leads to its referents, to what it
contains and to its type.  `Reached` says what can be found from some addresses, which
may be null pointers or stand there more than once.

`Describes` compares an object with the graph.  An object that is described leads the
Collector exactly where the graph does, and it fits the artifact exactly where its
counts do.
-/

import Mathlib.Data.Finset.Image
import Pydump.Capture.Session

namespace Pydump
namespace Capture

open Artifact (Fits32 Fits64 ContentFits ObjectFits contentAddresses)
open Relation (ReflTransGen)

/-- What an object contains. -/
inductive Content
  | none
  | dict (entries : List (ℕ × ℕ))
  | list (items : List ℕ)
  | set (items : List ℕ)
  | tuple (items : List ℕ)
  deriving DecidableEq

namespace Content

/-- The items, or the keys and the values. -/
def addresses : Content → List ℕ
  | none => []
  | dict entries => entries.flatMap fun entry => [entry.1, entry.2]
  | list items | set items | tuple items => items

/-- The number of items or of entries. -/
def size : Content → ℕ
  | none => 0
  | dict entries => entries.length
  | list items | set items | tuple items => items.length

/-- The content of an object by its kind. -/
def of (obj : HeapObject) : Content :=
  match obj.contentKind with
  | .none => none
  | .dict => dict obj.dictContent
  | .list => list obj.sequenceContent
  | .set => set obj.sequenceContent
  | .tuple => tuple obj.sequenceContent

end Content

/-- What there is to say about an object. -/
structure ObjectFacts where
  typeAddress : ℕ
  content : Content
  referents : Finset ℕ

namespace ObjectFacts

/-- The addresses that the facts mention. -/
def Mentions (facts : ObjectFacts) (b : ℕ) : Prop :=
  b ∈ facts.referents ∨ b ∈ facts.content.addresses ∨ b = facts.typeAddress

/-- The counts have room in an artifact. -/
def Fits (facts : ObjectFacts) : Prop :=
  Fits32 facts.content.size ∧ Fits32 (facts.referents \ facts.content.addresses.toFinset).card

end ObjectFacts

/-- Finitely many objects at addresses of 64 bits.  What they mention are objects or null
pointers. -/
structure ObjectGraph where
  nodes : Finset ℕ
  facts : ℕ → ObjectFacts
  closed : ∀ a ∈ nodes, ∀ b, (facts a).Mentions b → b ≠ 0 → b ∈ nodes
  word : ∀ a ∈ nodes, a < 2 ^ 64

namespace ObjectGraph

/-- One object leads to another. -/
def Leads (graph : ObjectGraph) (a b : ℕ) : Prop := (graph.facts a).Mentions b ∧ b ≠ 0

/-- What can be found from `starts`. -/
def Reached (graph : ObjectGraph) (starts : List ℕ) (a : ℕ) : Prop :=
  ∃ root ∈ nonzero starts, ReflTransGen graph.Leads root a

/-- The object is as the graph says. -/
structure Describes (graph : ObjectGraph) (obj : HeapObject) : Prop where
  typeAddress : obj.typeAddress = (graph.facts obj.address).typeAddress
  content : Content.of obj = (graph.facts obj.address).content
  own : OwnContent obj
  referents : obj.referents = (graph.facts obj.address).referents

open Classical in
/-- The addresses that can be found. -/
noncomputable def reached (graph : ObjectGraph) (starts : List ℕ) : Finset ℕ :=
  graph.nodes.filter (graph.Reached starts)

/-- The counts that an artifact of what can be found has to hold. -/
structure Fits (graph : ObjectGraph) (starts wellKnown : List ℕ) : Prop where
  objects : ∀ a, graph.Reached starts a → (graph.facts a).Fits
  count : Fits32 (graph.reached starts).card
  types : Fits32 (wellKnown.toFinset ∪ (graph.reached starts).image fun a => (graph.facts a).typeAddress).card

variable {graph : ObjectGraph} {starts : List ℕ}

/-- **Whatever can be found is an object.** -/
theorem mem_nodes_of_reached (hstarts : ∀ a ∈ nonzero starts, a ∈ graph.nodes) {a : ℕ} (h : graph.Reached starts a) :
    a ∈ graph.nodes := by
  obtain ⟨root, hroot, hpath⟩ := h
  induction hpath with
  | refl => exact hstarts root hroot
  | tail _ hleads ih => exact graph.closed _ ih _ hleads.1 hleads.2

/-- The reached addresses are those that can be reached. -/
theorem mem_reached (hstarts : ∀ a ∈ nonzero starts, a ∈ graph.nodes) {a : ℕ} :
    a ∈ graph.reached starts ↔ graph.Reached starts a := by
  classical
  rw [reached, Finset.mem_filter]
  exact ⟨And.right, fun h => ⟨mem_nodes_of_reached hstarts h, h⟩⟩

/-- No more is reached than there is. -/
theorem card_reached_le (graph : ObjectGraph) (starts : List ℕ) : (graph.reached starts).card ≤ graph.nodes.card := by
  classical
  exact Finset.card_filter_le graph.nodes (graph.Reached starts)

/-- What an object mentions fits 64 bits. -/
theorem mentions_lt {a b : ℕ} (ha : a ∈ graph.nodes) (hb : (graph.facts a).Mentions b) : b < 2 ^ 64 := by
  by_cases hzero : b = 0
  · omega
  · exact graph.word b (graph.closed a ha b hb hzero)

end ObjectGraph

/-! ### Objects that are as the graph says -/

/-- The addresses of a content are those of its object. -/
theorem toFinset_addresses (obj : HeapObject) : (Content.of obj).addresses.toFinset = contentAddresses obj := by
  unfold Content.of contentAddresses
  cases obj.contentKind with
  | dict =>
    ext a
    simp only [Content.addresses, List.mem_toFinset, List.mem_flatMap, List.mem_cons, List.not_mem_nil, or_false,
      Finset.mem_union, List.mem_map]
    constructor
    · rintro ⟨entry, hentry, rfl | rfl⟩
      · exact .inl ⟨entry, hentry, rfl⟩
      · exact .inr ⟨entry, hentry, rfl⟩
    · rintro (⟨entry, hentry, rfl⟩ | ⟨entry, hentry, rfl⟩)
      · exact ⟨entry, hentry, .inl rfl⟩
      · exact ⟨entry, hentry, .inr rfl⟩
  | _ => rfl

/-- The Collector walks all the content of an object that has only its own. -/
theorem walkedItems_eq {obj : HeapObject} (h : OwnContent obj) : walkedItems obj = (Content.of obj).addresses := by
  unfold walkedItems Content.of
  cases hkind : obj.contentKind with
  | none =>
    have hnone : obj.sequenceContent = [] := by
      rcases h.2 with hmem | hnone
      · rw [hkind] at hmem
        exact absurd hmem (by decide)
      · exact hnone
    rw [if_neg (by simp), hnone]
    rfl
  | _ => rfl

namespace ObjectGraph.Describes

variable {graph : ObjectGraph} {obj : HeapObject}

/-- **An object leads the Collector where the graph does.** -/
theorem mem_discovered (h : graph.Describes obj) (hattributes : obj.attributes = []) (orders : OrderChoice ℕ) (b : ℕ) :
    b ∈ discovered orders obj ↔ graph.Leads obj.address b := by
  unfold discovered ObjectGraph.Leads ObjectFacts.Mentions
  rw [nonzero, List.mem_filter, hattributes, walkedItems_eq h.own, h.content, h.typeAddress]
  simp only [List.mem_append, orders.mem_walk, h.referents, List.map_nil, List.not_mem_nil, List.mem_singleton,
    false_or, decide_eq_true_eq]

/-- **An object fits where its counts do.** -/
theorem fits_iff (h : graph.Describes obj) (hattributes : obj.attributes = []) (hnode : obj.address ∈ graph.nodes) :
    ObjectFits obj ↔ (graph.facts obj.address).Fits := by
  have hmentions : ∀ b, (graph.facts obj.address).Mentions b → b < 2 ^ 64 := fun b => ObjectGraph.mentions_lt hnode
  have hcontent : ContentFits obj ↔ Fits32 (graph.facts obj.address).content.size := by
    have hitems : ∀ a ∈ (Content.of obj).addresses, Fits64 a := fun a ha => hmentions a (.inr (.inl (h.content ▸ ha)))
    rw [← h.content]
    unfold ContentFits Content.of at *
    cases hkind : obj.contentKind with
    | none => exact iff_of_true trivial (Nat.zero_le _)
    | dict =>
      rw [hkind] at hitems
      refine ⟨And.left, fun hlen => ⟨hlen, fun entry hentry => ⟨hitems _ ?_, hitems _ ?_⟩⟩⟩
      · exact List.mem_flatMap.2 ⟨entry, hentry, List.mem_cons_self⟩
      · exact List.mem_flatMap.2 ⟨entry, hentry, List.mem_cons_of_mem _ List.mem_cons_self⟩
    | list =>
      rw [hkind] at hitems
      exact ⟨And.left, fun hlen => ⟨hlen, hitems⟩⟩
    | set =>
      rw [hkind] at hitems
      exact ⟨And.left, fun hlen => ⟨hlen, hitems⟩⟩
    | tuple =>
      rw [hkind] at hitems
      exact ⟨And.left, fun hlen => ⟨hlen, hitems⟩⟩
  unfold ObjectFits ObjectFacts.Fits
  rw [hcontent, ← toFinset_addresses, h.content, h.referents, hattributes]
  constructor
  · rintro ⟨-, -, hsize, ⟨hcount, -⟩, -⟩
    exact ⟨hsize, hcount⟩
  · rintro ⟨hsize, hcount⟩
    refine ⟨graph.word _ hnode, ?_, hsize, ⟨hcount, fun a ha => ?_⟩, Nat.zero_le _, by simp⟩
    · exact hmentions _ (.inr (.inr h.typeAddress))
    · exact hmentions a (.inl (Finset.mem_sdiff.1 ha).1)

end ObjectGraph.Describes

end Capture
end Pydump
