/-
# What a string representation is

The text of an object: what is stored for it, or for a container its brackets around the
texts of what it holds, and around three dots where it is open already.  The items of a
set come in ascending order of their addresses, everything else as it is stored, and an
address without an object is unknown.

`Heap._string_representation` computes this text.  It goes by the type of an object where
the text goes by its content; the reader gives every object the content of its type.
-/

import Pydump.Analyzer.ReaderFacts
import Pydump.Lib.OpenCut

namespace Pydump
namespace Analyzer

open OpenCut (View)

/-! ### The text -/

/-- The brackets of a container. -/
def ObjectContent.brackets : ObjectContent → String × String
  | .list _ => ("[", "]")
  | .tuple _ => ("(", ")")
  | _ => ("\x7b", "\x7d")

/-- The texts between the brackets, given those of addresses. -/
def ObjectContent.parts (text : ℕ → String) : ObjectContent → List String
  | .dict content => content.entries.map fun entry => text entry.1 ++ ": " ++ text entry.2
  | .set content => (content.sort (· ≤ ·)).map text
  | .list content => content.map text
  | .tuple content => content.map text
  | .none => []

/-- What is shown of an object with the stored string `stored`. -/
def ObjectContent.view (stored : String) (content : ObjectContent) : View ℕ String :=
  match content with
  | .none => .leaf stored
  | _ => .node (content.brackets.1 ++ "..." ++ content.brackets.2) fun text =>
      content.brackets.1 ++ ", ".intercalate (content.parts text) ++ content.brackets.2

/-- What is shown at an address. -/
def Heap.view (heap : Heap) (address : ℕ) : View ℕ String :=
  match heap.objects.find? address with
  | none => .leaf "(unknown)"
  | some obj => obj.content.view (heap.readStringRepresentation obj)

/-- The objects of a heap, for what they show. -/
def Heap.picture (heap : Heap) : OpenCut.Graph ℕ String where
  view := heap.view
  nodes := heap.objects.keys.toFinset
  mem_nodes := by
    intro address cut build h
    unfold Heap.view at h
    split at h
    · cases h
    · rename_i obj hobj
      exact List.mem_toFinset.2 (OrderedDict.mem_keys_of_find? hobj)

/-- The text of an object. -/
def Heap.text (heap : Heap) (address : ℕ) : String := heap.picture.value ∅ address

/-- Where a value is shown, there is no object or one that is no container. -/
theorem Heap.view_eq_leaf {heap : Heap} {address : ℕ} {text : String} (h : heap.view address = .leaf text) :
    (heap.objects.find? address = none ∧ text = "(unknown)") ∨
      ∃ obj, heap.objects.find? address = some obj ∧ obj.content = .none ∧
        text = heap.readStringRepresentation obj := by
  unfold Heap.view at h
  split at h
  · rename_i hnone
    exact .inl ⟨hnone, (View.leaf.inj h).symm⟩
  · rename_i obj hobj
    unfold ObjectContent.view at h
    split at h
    · rename_i hcontent
      exact .inr ⟨obj, hobj, hcontent, (View.leaf.inj h).symm⟩
    · cases h

/-- Where a node is shown, there is a container. -/
theorem Heap.view_eq_node {heap : Heap} {address : ℕ} {cut : String} {build : (ℕ → String) → String}
    (h : heap.view address = .node cut build) :
    ∃ obj, heap.objects.find? address = some obj ∧ obj.content ≠ .none ∧
      cut = obj.content.brackets.1 ++ "..." ++ obj.content.brackets.2 ∧
        build = fun text => obj.content.brackets.1 ++ ", ".intercalate (obj.content.parts text) ++
          obj.content.brackets.2 := by
  unfold Heap.view at h
  split at h
  · cases h
  · rename_i obj hobj
    unfold ObjectContent.view at h
    split at h
    · cases h
    · rename_i hcontent
      cases h
      exact ⟨obj, hobj, hcontent, rfl, rfl⟩

/-! ### The content of a type -/

variable {source : List UInt8} {known : ContainerTypes} {heap : Heap} {obj : HeapObject}

/-- The brackets of the type are those of the content. -/
theorem HeapObject.Shaped.brackets (h : obj.Shaped known) (hdistinct : known.Distinct)
    (hcontent : obj.content ≠ .none) :
    known.Contains obj.typeAddress ∧ containerBrackets known obj.typeAddress = obj.content.brackets := by
  simp only [ContainerTypes.Distinct, List.nodup_cons, List.mem_cons, List.not_mem_nil, or_false, not_or] at hdistinct
  obtain ⟨⟨hdl, -, hdt⟩, ⟨hls, hlt⟩, hst, -⟩ := hdistinct
  unfold HeapObject.Shaped at h
  unfold ContainerTypes.Contains containerBrackets
  cases hkind : obj.content <;> rw [hkind] at h
  case dict => simp [h, hdl, hdt, ObjectContent.brackets]
  case list => simp [h.1, ObjectContent.brackets]
  case set => simp [h.1, Ne.symm hls, hst, ObjectContent.brackets]
  case tuple => simp [h.1, Ne.symm hlt, ObjectContent.brackets]
  case none => exact absurd hkind hcontent

/-! ### The computation -/

/-- An address without an object. -/
theorem Heap.render_of_missing {address : ℕ} (seen : Finset ℕ) (h : heap.objects.find? address = none) :
    heap.render known address seen = "(unknown)" := by
  rw [Heap.render]
  split
  · rfl
  · rename_i hsome
    cases h.symm.trans hsome

/-- A container renders as its brackets, around three dots or around its parts. -/
theorem Heap.render_of_container {address : ℕ} (seen : Finset ℕ) (h : heap.objects.find? address = some obj)
    (hc : known.Contains obj.typeAddress) {left right : String}
    (hbrackets : containerBrackets known obj.typeAddress = (left, right)) :
    heap.render known address seen =
      if address ∈ seen then left ++ "..." ++ right
      else left ++ ", ".intercalate (obj.content.parts fun child => heap.render known child (insert address seen)) ++
        right := by
  rw [Heap.render]
  split
  · rename_i hnone
    cases h.symm.trans hnone
  · rename_i obj' hsome
    cases h.symm.trans hsome
    rw [if_neg (not_not.2 hc)]
    simp only [hbrackets]
    split_ifs
    · rfl
    · cases obj.content <;> rfl

/-- **`_string_representation` computes the text**, behind whatever is open. -/
theorem Heap.render_eq (hdistinct : known.Distinct) (hshaped : ∀ obj ∈ heap.objects.values, obj.Shaped known)
    (seen : Finset ℕ) (address : ℕ) : heap.render known address seen = heap.picture.value seen address := by
  have hfound : ∀ {address obj}, heap.objects.find? address = some obj → obj.Shaped known := fun h =>
    hshaped _ (List.mem_map_of_mem (OrderedDict.find?_eq_some.1 h))
  have hnode : ∀ {address cut build}, heap.view address = .node cut build →
      ∃ obj left right, heap.objects.find? address = some obj ∧ known.Contains obj.typeAddress ∧
        containerBrackets known obj.typeAddress = (left, right) ∧ cut = left ++ "..." ++ right ∧
          build = fun text => left ++ ", ".intercalate (obj.content.parts text) ++ right := by
    intro address cut build h
    obtain ⟨obj, hobj, hcontent, hcut, hbuild⟩ := Heap.view_eq_node h
    obtain ⟨hc, hbrackets⟩ := (hfound hobj).brackets hdistinct hcontent
    exact ⟨obj, _, _, hobj, hc, hbrackets, hcut, hbuild⟩
  refine @OpenCut.Graph.eq_value _ _ _ heap.picture _ id (fun seen address => heap.render known address seen)
    ?_ ?_ ?_ seen address
  · intro seen address t h
    obtain ⟨hnone, rfl⟩ | ⟨obj, hobj, hcontent, rfl⟩ := Heap.view_eq_leaf h
    · exact Heap.render_of_missing seen hnone
    · have hshape := hfound hobj
      unfold HeapObject.Shaped at hshape
      rw [hcontent] at hshape
      exact Heap.render_of_not_container heap known seen hobj hshape
  · intro seen address cut build h hopen
    obtain ⟨obj, left, right, hobj, hc, hbrackets, rfl, -⟩ := hnode h
    exact (Heap.render_of_container seen hobj hc hbrackets).trans (if_pos hopen)
  · intro seen address cut build h hopen text htext
    obtain ⟨obj, left, right, hobj, hc, hbrackets, -, rfl⟩ := hnode h
    have hchildren : (fun child => heap.render known child (insert address seen)) = text := funext htext
    show heap.render known address seen = _
    rw [Heap.render_of_container seen hobj hc hbrackets, if_neg hopen, hchildren]
    rfl

/-! ### The whole artifact -/

/-- **`string_representation` returns the text** of an object of the heap. -/
theorem Heap.stringRepresentation_eq (hstored : heap.StoredIn source known) (hdistinct : known.Distinct)
    (hflag : heap.header.flags.withStrRepr = true) (hobj : heap.objects.find? obj.address = some obj) :
    heap.stringRepresentation obj = .ok (some (heap.text obj.address)) := by
  have htext := heap.render_eq hdistinct (fun _ hobj => (hstored.objects hobj).shaped) ∅ obj.address
  unfold Heap.stringRepresentation
  rw [if_neg (not_not.2 hflag), hobj, hstored.containers]
  exact congrArg (Except.ok ∘ some) htext

end Analyzer
end Pydump
