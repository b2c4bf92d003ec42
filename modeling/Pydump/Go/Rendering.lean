/-
# String representations of the Go analyzer

`analyzer/go/internal/heap/model.go`: `StringRepresentation`.  It goes by the kind of the
content where Python goes by the type, reads the stored strings from the file and may
fail.  On an artifact that both readers accept it does not, and returns the text that
Python returns.
-/

import Pydump.Analyzer.Rendering
import Pydump.Go.CacheSpec
import Pydump.Go.ReaderAgreement
import Pydump.Go.RetainedAgreement
import Pydump.Lib.ExceptLoop

namespace Pydump
namespace Go

open ExceptLoop
open Analyzer (ContainerTypes ObjectContent)

/-- What `StringRepresentation` returns an error for, and the panic of an index that leads
nowhere. -/
inductive StringError
  | message (text : String)
  | indexOutOfRange (index : ℕ)
  deriving DecidableEq

/-- `containerBrackets`. -/
def containerBrackets : ContentKind → String × String
  | .list => ("[", "]")
  | .tuple => ("(", ")")
  | _ => ("\x7b", "\x7d")

/-- `readStringAt`. -/
def Heap.readStringAt (value : Heap) (offset : ℤ) : Except StringError String :=
  match value.source with
  | none => .ok ""
  | some source =>
    if offset < 0 then .ok ""
    else
      let lengthBytes := (source.drop offset.toNat).take 2
      if lengthBytes.length < 2 then .error (.message s!"read string length at offset {offset}: EOF")
      else
        let length := BigEndian.decode lengthBytes
        let bytes := (source.drop (offset.toNat + 2)).take length
        if bytes.length ≠ length then
          .error (.message s!"truncated string at offset {offset}: read {bytes.length} of {length} bytes")
        else .ok (decodeUTF8BackslashReplace bytes)

/-- `stringRepresentation`. -/
def Heap.render (value : Heap) (address : ℕ) (seen : Finset ℕ) : Except StringError String :=
  match _hindex : value.objectByAddress.find? address with
  | none => .ok "(unknown)"
  | some index =>
    match value.objects[index]? with
    | none => .error (.indexOutOfRange index)
    | some object =>
      if object.contentKind = .none then value.readStringAt object.stringOffset
      else
        let (left, right) := containerBrackets object.contentKind
        if _hseen : address ∈ seen then .ok (left ++ "..." ++ right)
        else do
          let nested := insert address seen
          let parts ←
            if object.contentKind = .dict then object.dict.mapM fun entry => do
              let key ← value.render entry.1 nested
              let item ← value.render entry.2 nested
              pure (key ++ ": " ++ item)
            else object.sequence.mapM fun item => value.render item nested
          pure (left ++ ", ".intercalate parts ++ right)
termination_by (value.objectByAddress.keys.toFinset \ seen).card
decreasing_by
  all_goals
    exact OpenCut.card_sdiff_insert_lt (List.mem_toFinset.2 (OrderedDict.mem_keys_of_find? _hindex)) _hseen

/-- `StringRepresentation`. -/
def Heap.stringRepresentation (value : Heap) (address : ℕ) : Except StringError String :=
  if ¬value.header.withStringRepr then .ok "" else value.render address ∅

/-- No dictionary was read with one key twice. -/
def Heap.KeysDistinct (value : Heap) : Prop := ∀ object ∈ value.objects, (object.dict.map Prod.fst).Nodup

variable {heap : Analyzer.Heap} {value : Heap} {object : Object} {index : ℕ}

/-! ### `stringRepresentation`, case by case -/

/-- An address without an object. -/
theorem Heap.render_of_missing {address : ℕ} (seen : Finset ℕ) (h : value.objectByAddress.find? address = none) :
    value.render address seen = .ok "(unknown)" := by
  rw [Heap.render]
  split
  · rfl
  · rename_i hsome
    cases h.symm.trans hsome

/-- An object with a rendering of its own. -/
theorem Heap.render_of_stored {address : ℕ} (seen : Finset ℕ) (h : value.objectByAddress.find? address = some index)
    (hobject : value.objects[index]? = some object) (hkind : object.contentKind = .none) :
    value.render address seen = value.readStringAt object.stringOffset := by
  rw [Heap.render]
  split
  · rename_i hnone
    cases h.symm.trans hnone
  · rename_i index' hsome
    cases h.symm.trans hsome
    simp only [hobject, if_pos hkind]

/-- The texts of the parts of a container, given those of addresses. -/
def Object.parts (object : Object) (text : ℕ → Except StringError String) : Except StringError (List String) :=
  if object.contentKind = .dict then object.dict.mapM fun entry => do
    let key ← text entry.1
    let item ← text entry.2
    pure (key ++ ": " ++ item)
  else object.sequence.mapM text

/-- A container: the brackets around the renderings of its parts. -/
theorem Heap.render_of_container {address : ℕ} (seen : Finset ℕ) (h : value.objectByAddress.find? address = some index)
    (hobject : value.objects[index]? = some object) (hkind : object.contentKind ≠ .none) {left right : String}
    (hbrackets : containerBrackets object.contentKind = (left, right)) :
    value.render address seen =
      if address ∈ seen then .ok (left ++ "..." ++ right)
      else object.parts (fun child => value.render child (insert address seen)) >>= fun parts =>
        pure (left ++ ", ".intercalate parts ++ right) := by
  rw [Heap.render]
  split
  · rename_i hnone
    cases h.symm.trans hnone
  · rename_i index' hsome
    cases h.symm.trans hsome
    simp only [hobject, if_neg hkind, hbrackets]
    unfold Object.parts
    split_ifs <;> rfl

/-! ### The same text -/

/-- **A stored string** is read by both alike. -/
theorem LikeObject.readStringAt {R : ContentRelation} {obj : Analyzer.HeapObject} (h : LikeObject R obj object)
    {source : List UInt8} (hsource : heap.source = some source) (hgoSource : value.source = some source) {offset : ℕ}
    (hoffset : obj.stringRepresentationOffset = some offset) (hstring : Analyzer.StringAt source offset) :
    value.readStringAt object.stringOffset = .ok (heap.readStringRepresentation obj) := by
  obtain ⟨hfront, hback⟩ := hstring
  have hstart : object.stringOffset = (offset : ℤ) := by rw [h.stringOffset, hoffset]
  unfold Heap.readStringAt Analyzer.Heap.readStringRepresentation
  simp only [hgoSource, hsource, hstart, hoffset, Int.toNat_natCast]
  rw [if_neg (by omega), if_neg (by rw [List.length_take, List.length_drop]; omega),
    if_neg (by rw [List.length_take, List.length_drop]; omega), decodeUTF8BackslashReplace_eq]

/-- The brackets of a kind are those of the content. -/
theorem SameContent.brackets {content : ObjectContent} {kind : ContentKind} {sequence : List ℕ} {dict : List (ℕ × ℕ)}
    (h : SameContent content kind sequence dict) : containerBrackets kind = content.brackets := by
  cases content <;> obtain ⟨rfl, -⟩ := h <;> rfl

/-- Contents that agree have none together. -/
theorem SameContent.none_iff {content : ObjectContent} {kind : ContentKind} {sequence : List ℕ} {dict : List (ℕ × ℕ)}
    (h : SameContent content kind sequence dict) : kind = .none ↔ content = .none := by
  cases content <;> obtain ⟨rfl, -⟩ := h <;> simp

/-- **The parts of a container** are the same, where the texts of addresses are. -/
theorem SameObject.parts {obj : Analyzer.HeapObject} (h : SameObject obj object)
    (hkeys : (object.dict.map Prod.fst).Nodup) {run : ℕ → Except StringError String} {text : ℕ → String}
    (hrun : ∀ child, run child = .ok (text child)) : object.parts run = .ok (obj.content.parts text) := by
  have hsequence : object.sequence.mapM run = .ok (object.sequence.map text) := mapM_ok fun child _ => hrun child
  have hcontent := h.content
  unfold Object.parts
  cases hc : obj.content <;> rw [hc] at hcontent
  case dict content =>
    obtain ⟨hkind, -, rfl⟩ := hcontent
    rw [if_pos hkind, ObjectContent.parts, OrderedDict.entries_ofPairs hkeys]
    refine mapM_ok fun entry _ => ?_
    rw [bind_ok (hrun entry.1), bind_ok (hrun entry.2)]
    rfl
  case list content =>
    obtain ⟨hkind, rfl, -⟩ := hcontent
    rw [if_neg (by rw [hkind]; decide), hsequence]
    rfl
  case set content =>
    obtain ⟨hkind, ⟨hsorted, rfl⟩, -⟩ := hcontent
    have hsort : object.sequence.toFinset.sort (· ≤ ·) = object.sequence :=
      (List.toFinset_sort _ (hsorted.imp fun h => Nat.ne_of_lt h)).2 (hsorted.imp fun h => Nat.le_of_lt h)
    rw [if_neg (by rw [hkind]; decide), hsequence, ObjectContent.parts, hsort]
  case tuple content =>
    obtain ⟨hkind, rfl, -⟩ := hcontent
    rw [if_neg (by rw [hkind]; decide), hsequence]
    rfl
  case none =>
    obtain ⟨hkind, hempty, -⟩ := hcontent
    rw [if_neg (by rw [hkind]; decide), hsequence, hempty]
    rfl

/-- An address leads to one object in both heaps, or to none. -/
theorem LikeHeap.lookup {R : ContentRelation} (h : LikeHeap R heap value) (address : ℕ) :
    (heap.objects.find? address = none ∧ value.objectByAddress.find? address = none) ∨
      ∃ obj index object, heap.objects.find? address = some obj ∧ value.objectByAddress.find? address = some index ∧
        value.objects[index]? = some object ∧ LikeObject R obj object := by
  have hindexed : value.Indexed := h.index
  cases hfind : value.objectByAddress.find? address with
  | none =>
    refine .inl ⟨?_, rfl⟩
    rw [OrderedDict.find?_eq_none] at hfind ⊢
    rwa [h.keys, ← hindexed.keys]
  | some index =>
    obtain ⟨object, hobject, rfl⟩ := hindexed.find?_eq_some.1 hfind
    obtain ⟨obj, hentry, hlike⟩ := h.object hobject
    exact .inr ⟨obj, index, object, OrderedDict.find?_eq_some.2 (List.mem_of_getElem? hentry), rfl, hobject, hlike⟩

/-- An address that one heap does not know the other does not know. -/
theorem LikeHeap.lookup_none {R : ContentRelation} (h : LikeHeap R heap value) {address : ℕ}
    (hnone : heap.objects.find? address = none) : value.objectByAddress.find? address = none := by
  rcases h.lookup address with ⟨-, hgoNone⟩ | ⟨obj, -, -, hobj, -⟩
  · exact hgoNone
  · cases hnone.symm.trans hobj

/-- An object that one heap knows the other knows. -/
theorem LikeHeap.lookup_some {R : ContentRelation} (h : LikeHeap R heap value) {address : ℕ} {obj : Analyzer.HeapObject}
    (hobj : heap.objects.find? address = some obj) :
    ∃ index object, value.objectByAddress.find? address = some index ∧ value.objects[index]? = some object ∧
      LikeObject R obj object := by
  rcases h.lookup address with ⟨hnone, -⟩ | ⟨obj', index, object, hobj', hindex, hobject, hlike⟩
  · cases hnone.symm.trans hobj
  · cases hobj.symm.trans hobj'
    exact ⟨index, object, hindex, hobject, hlike⟩

/-- **`stringRepresentation` computes the text** that the Python heap shows, behind whatever
is open. -/
theorem SameHeap.render_eq (h : SameHeap heap value) {source : List UInt8} {known : ContainerTypes}
    (hstored : heap.StoredIn source known) (hflag : heap.header.flags.withStrRepr = true) (hkeys : value.KeysDistinct)
    (seen : Finset ℕ) (address : ℕ) : value.render address seen = .ok (heap.picture.value seen address) := by
  have hnode : ∀ {address cut build}, heap.view address = .node cut build →
      ∃ obj index object left right, value.objectByAddress.find? address = some index ∧
        value.objects[index]? = some object ∧ SameObject obj object ∧ object.contentKind ≠ .none ∧
          containerBrackets object.contentKind = (left, right) ∧ cut = left ++ "..." ++ right ∧
            build = fun text => left ++ ", ".intercalate (obj.content.parts text) ++ right := by
    intro address cut build hview
    obtain ⟨obj, hobj, hcontent, hcut, hbuild⟩ := Analyzer.Heap.view_eq_node hview
    obtain ⟨index, object, hindex, hobject, hsame⟩ := h.lookup_some hobj
    exact ⟨obj, index, object, _, _, hindex, hobject, hsame, hsame.content.none_iff.not.2 hcontent,
      hsame.content.brackets, hcut, hbuild⟩
  refine @OpenCut.Graph.eq_value _ _ _ heap.picture _ Except.ok (fun seen address => value.render address seen)
    ?_ ?_ ?_ seen address
  · intro seen address t hview
    obtain ⟨hnone, rfl⟩ | ⟨obj, hobj, hcontent, rfl⟩ := Analyzer.Heap.view_eq_leaf hview
    · exact Heap.render_of_missing seen (h.lookup_none hnone)
    · obtain ⟨index, object, hindex, hobject, hsame⟩ := h.lookup_some hobj
      obtain ⟨offset, hoffset, hstring⟩ := hstored.string_of_find? hflag hobj hcontent
      exact (Heap.render_of_stored seen hindex hobject (hsame.content.none_iff.2 hcontent)).trans
        (hsame.readStringAt hstored.source (h.source ▸ hstored.source) hoffset hstring)
  · intro seen address cut build hview hopen
    obtain ⟨obj, index, object, left, right, hindex, hobject, -, hkind, hbrackets, rfl, -⟩ := hnode hview
    exact (Heap.render_of_container seen hindex hobject hkind hbrackets).trans (if_pos hopen)
  · intro seen address cut build hview hopen text htext
    obtain ⟨obj, index, object, left, right, hindex, hobject, hsame, hkind, hbrackets, -, rfl⟩ := hnode hview
    have hparts := hsame.parts (hkeys object (List.mem_of_getElem? hobject)) htext
    show value.render address seen = _
    rw [Heap.render_of_container seen hindex hobject hkind hbrackets, if_neg hopen, bind_ok hparts]
    rfl

/-- The parts of a container have texts, where all addresses have. -/
theorem Object.parts_ok {run : ℕ → Except StringError String} (h : ∀ child, ∃ text, run child = .ok text) :
    ∃ parts, object.parts run = .ok parts := by
  choose text htext using h
  unfold Object.parts
  split_ifs
  · refine ⟨object.dict.map fun entry => text entry.1 ++ ": " ++ text entry.2, mapM_ok fun entry _ => ?_⟩
    rw [bind_ok (htext entry.1), bind_ok (htext entry.2)]
    rfl
  · exact ⟨object.sequence.map text, mapM_ok fun child _ => htext child⟩

/-- **`stringRepresentation` does not fail**, whatever the container types are. -/
theorem LikeHeap.render_ok (h : LikeHeap BothContainers heap value) {source : List UInt8} {known : ContainerTypes}
    (hstored : heap.StoredIn source known) (hflag : heap.header.flags.withStrRepr = true) (seen : Finset ℕ)
    (address : ℕ) : ∃ text, value.render address seen = .ok text := by
  have hnode : ∀ {address cut build}, heap.view address = .node cut build →
      ∃ index object, value.objectByAddress.find? address = some index ∧ value.objects[index]? = some object ∧
        object.contentKind ≠ .none := by
    intro address cut build hview
    obtain ⟨obj, hobj, hcontent, -⟩ := Analyzer.Heap.view_eq_node hview
    obtain ⟨index, object, hindex, hobject, hlike⟩ := h.lookup_some hobj
    exact ⟨index, object, hindex, hobject, hlike.content.not.1 hcontent⟩
  refine of_eq_true (@OpenCut.Graph.eq_value _ _ _ heap.picture _ (fun _ => True)
    (fun seen address => ∃ text, value.render address seen = .ok text) ?_ ?_ ?_ seen address)
  · intro seen address t hview
    obtain ⟨hnone, -⟩ | ⟨obj, hobj, hcontent, -⟩ := Analyzer.Heap.view_eq_leaf hview
    · exact eq_true ⟨_, Heap.render_of_missing seen (h.lookup_none hnone)⟩
    · obtain ⟨index, object, hindex, hobject, hlike⟩ := h.lookup_some hobj
      obtain ⟨offset, hoffset, hstring⟩ := hstored.string_of_find? hflag hobj hcontent
      exact eq_true ⟨_, (Heap.render_of_stored seen hindex hobject (hlike.content.1 hcontent)).trans
        (hlike.readStringAt hstored.source (h.source ▸ hstored.source) hoffset hstring)⟩
  · intro seen address cut build hview hopen
    obtain ⟨index, object, hindex, hobject, hkind⟩ := hnode hview
    exact eq_true ⟨_, (Heap.render_of_container seen hindex hobject hkind rfl).trans (if_pos hopen)⟩
  · intro seen address cut build hview hopen _ hchildren
    obtain ⟨index, object, hindex, hobject, hkind⟩ := hnode hview
    obtain ⟨parts, hparts⟩ := @Object.parts_ok object _ fun child => of_eq_true (hchildren child)
    have hrender := Heap.render_of_container seen hindex hobject hkind rfl
    rw [if_neg hopen, bind_ok hparts] at hrender
    exact eq_true ⟨_, hrender⟩

/-- The container types of an artifact that is read differ. -/
theorem ContainersDiffer.distinct {source : List UInt8} (hdiffer : ContainersDiffer source)
    (hread : Analyzer.readHeap source = .ok heap) {known : ContainerTypes}
    (hknown : ContainerTypes.ofKnown heap.header.wellKnownTypes = .ok known) : known.Distinct := by
  obtain ⟨off, hheader⟩ := Analyzer.readHeader_of_readHeap hread
  exact hdiffer _ off hheader known hknown

/-- **Both analyzers render alike.**  For an artifact with strings that both readers accept,
whose container types differ and whose dictionaries have no key twice, and for every object:
Python and Go return the text of the object. -/
theorem string_representations_agree {source : List UInt8} (hdiffer : ContainersDiffer source)
    (hread : Analyzer.readHeap source = .ok heap) (hload : load source = .ok value)
    (hflag : heap.header.flags.withStrRepr = true) (hkeys : value.KeysDistinct) {address : ℕ}
    {obj : Analyzer.HeapObject} (hobj : heap.objects.find? address = some obj) :
    heap.stringRepresentation obj = .ok (some (heap.text address)) ∧
      value.stringRepresentation address = .ok (heap.text address) := by
  have hsame := (readers_agree hdiffer).2 heap value hread hload
  obtain ⟨known, hstored⟩ := Analyzer.storedIn_of_readHeap hread
  have hdistinct : known.Distinct := hdiffer.distinct hread hstored.containers
  have haddress : obj.address = address := by
    exact (hstored.stored _ (OrderedDict.find?_eq_some.1 hobj)).1
  subst haddress
  refine ⟨heap.stringRepresentation_eq hstored hdistinct hflag hobj, ?_⟩
  have hgoFlag : value.header.withStringRepr = true := hsame.header.withStringRepr ▸ hflag
  rw [Heap.stringRepresentation, if_neg (not_not.2 hgoFlag)]
  exact hsame.render_eq hstored hflag hkeys ∅ obj.address

/-- The list of the fixture, which holds a plain object. -/
theorem string_representations_agree_fixture :
    ∃ source heap value obj, Analyzer.readHeap source = .ok heap ∧ load source = .ok value ∧
      heap.objects.find? 0x2000 = some obj ∧ obj.content = .list [0x3000] ∧
      heap.stringRepresentation obj = .ok (some (heap.text 0x2000)) ∧
      value.stringRepresentation 0x2000 = .ok (heap.text 0x2000) := by
  have hencodable := Artifact.fixture_encodable
  have hdiffer := containersDiffer_layout hencodable
  obtain ⟨bytes, heap, hwrite, hrun, -, -, hflag, -, -, -, hkeys, hobjects, -⟩ := Artifact.read_write hencodable ""
  cases hwrite.symm.trans (Artifact.write_eq hencodable "")
  have hread : Analyzer.readHeap (Artifact.fixture.layout ⟨0x1002, 0x1000, 0x1003, 0x1001⟩) = .ok heap :=
    congrArg (Except.map Prod.fst) hrun
  obtain ⟨hiff, hsame⟩ := readers_agree hdiffer
  obtain ⟨value, hload⟩ := hiff.1 ⟨heap, hread⟩
  have hcontents : ∀ obj ∈ Artifact.fixture.objects, Artifact.contentOf obj = .list [0x3000] ∨
      Artifact.contentOf obj = .none := by
    intro obj hobj
    simp only [Artifact.fixture, List.mem_cons, List.not_mem_nil, or_false] at hobj
    obtain rfl | rfl := hobj
    · exact .inl rfl
    · exact .inr rfl
  -- neither object is a dictionary
  have hdistinct : value.KeysDistinct := by
    intro object hobject
    obtain ⟨obj, hfind, hobj⟩ := (hsame heap value hread hload).object_of_mem hobject
    have haddress := OrderedDict.mem_keys_of_find? hfind
    rw [hkeys, List.mem_map] at haddress
    obtain ⟨stored, hstored, haddress⟩ := haddress
    obtain ⟨obj', hfind', -, -, -, -, hcontent, -⟩ := hobjects stored hstored
    rw [haddress] at hfind'
    cases hfind.symm.trans hfind'
    have hsameContent := hobj.content
    rw [hcontent] at hsameContent
    obtain h | h := hcontents stored hstored <;> rw [h] at hsameContent <;> obtain ⟨-, -, hempty⟩ := hsameContent <;>
      rw [hempty] <;> exact List.nodup_nil
  obtain ⟨obj, hobj, -, -, -, -, hcontent, -⟩ := hobjects _ (List.mem_cons_self)
  obtain ⟨hpython, hgo⟩ := string_representations_agree hdiffer hread hload hflag hdistinct hobj
  exact ⟨_, heap, value, obj, hread, hload, hobj, hcontent, hpython, hgo⟩

end Go
end Pydump
