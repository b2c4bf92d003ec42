/-
# The heap the Python analyzer works on

`analyzer/python/src/pydump_analyzer/model.py`: the dataclasses a `HeapReader`
fills, the local addresses of a thread, and `Heap.string_representation`, which
renders an object from the artifact's own bytes.

Addresses are Python integers, a `dict` is an `OrderedDict` and a `set` of
addresses a `Finset`.  `_string_representation` follows the content of
containers and stops at a container that is open on the current path; each
recursive call adds an object of the heap to `seen`, which bounds the recursion.
-/

import Mathlib.Data.Finset.Sort
import Mathlib.Data.Finset.Card
import Pydump.Lib.BigEndian
import Pydump.Lib.OrderedDict
import Pydump.Lib.Utf8

namespace Pydump
namespace Analyzer

/-- `HeapFlags`. -/
structure HeapFlags where
  withStrRepr : Bool
  deriving DecidableEq

/-- `HeapHeader`. -/
structure HeapHeader where
  version : ℕ
  createdAt : String
  flags : HeapFlags
  wellKnownTypes : OrderedDict String ℕ

/-- `HeapThreadFrame`. -/
structure HeapThreadFrame where
  fileName : String
  lineNumber : ℕ
  functionName : String
  locals : OrderedDict String ℕ

/-- `HeapThread`. -/
structure HeapThread where
  name : String
  isAlive : Bool
  isDaemon : Bool
  stackTrace : List HeapThreadFrame

/-- `HeapThread.locals`: every address a frame of the thread holds. -/
def HeapThread.locals (t : HeapThread) : Finset ℕ :=
  t.stackTrace.foldl (fun result frame => result ∪ frame.locals.values.toFinset) ∅

/-- `ObjectContent`: what a container holds, `none` for every other object. -/
inductive ObjectContent
  | dict (content : OrderedDict ℕ ℕ)
  | list (content : List ℕ)
  | set (content : Finset ℕ)
  | tuple (content : List ℕ)
  | none

/-- `HeapObject`. -/
structure HeapObject where
  address : ℕ
  typeAddress : ℕ
  size : ℕ
  referents : Finset ℕ
  content : ObjectContent
  stringRepresentationOffset : Option ℕ

/-- `Heap`; `source` is `None` after `close`. -/
structure Heap where
  header : HeapHeader
  threads : List HeapThread
  objects : OrderedDict ℕ HeapObject
  types : OrderedDict ℕ String
  source : Option (List UInt8)

/-- The addresses of the four container types, which the reader and the renderer
look up in the well-known table. -/
structure ContainerTypes where
  dict : ℕ
  list : ℕ
  set : ℕ
  tuple : ℕ
  deriving DecidableEq

/-- `type_address in {known["dict"], known["list"], known["set"], known["tuple"]}`. -/
def ContainerTypes.Contains (known : ContainerTypes) (typeAddress : ℕ) : Prop :=
  typeAddress = known.dict ∨ typeAddress = known.list ∨ typeAddress = known.set ∨
    typeAddress = known.tuple

instance (known : ContainerTypes) (typeAddress : ℕ) : Decidable (known.Contains typeAddress) :=
  inferInstanceAs (Decidable (_ ∨ _))

/-- The four addresses differ pairwise. -/
def ContainerTypes.Distinct (known : ContainerTypes) : Prop :=
  [known.dict, known.list, known.set, known.tuple].Nodup

/-- `known["dict"]`, `known["list"]`, `known["set"]`, `known["tuple"]`, in this
order; the error names the first key that is missing. -/
def ContainerTypes.ofKnown (known : OrderedDict String ℕ) : Except String ContainerTypes :=
  match known.find? "dict", known.find? "list", known.find? "set", known.find? "tuple" with
  | some dict, some list, some set, some tuple => .ok ⟨dict, list, set, tuple⟩
  | none, _, _, _ => .error "dict"
  | _, none, _, _ => .error "list"
  | _, _, none, _ => .error "set"
  | _, _, _, none => .error "tuple"

/-- The container types are known if and only if the four names are. -/
theorem ContainerTypes.ofKnown_eq_ok {m : OrderedDict String ℕ} {known : ContainerTypes} :
    ofKnown m = .ok known ↔ m.find? "dict" = some known.dict ∧ m.find? "list" = some known.list ∧
      m.find? "set" = some known.set ∧ m.find? "tuple" = some known.tuple := by
  obtain ⟨d, l, s, t⟩ := known
  unfold ofKnown
  split
  · rename_i hd hl hs ht
    rw [hd, hl, hs, ht, Except.ok.injEq, mk.injEq, Option.some.injEq, Option.some.injEq,
      Option.some.injEq, Option.some.injEq]
  -- one of the four names is missing: neither side holds
  all_goals simp_all

/-- `Heap.close`. -/
def Heap.close (heap : Heap) : Heap := { heap with source := none }

/-- `_container_brackets`. -/
def containerBrackets (known : ContainerTypes) (typeAddress : ℕ) : String × String :=
  if typeAddress = known.list then ("[", "]")
  else if typeAddress = known.tuple then ("(", ")")
  else ("\x7b", "\x7d")

/-- `_read_string_representation`: the string at the recorded offset.  `struct.unpack_from`
raises where two bytes are not left; the offsets that the reader records have them. -/
def Heap.readStringRepresentation (heap : Heap) (obj : HeapObject) : String :=
  match heap.source, obj.stringRepresentationOffset with
  | some source, some offset =>
    let length := BigEndian.decode ((source.drop offset).take 2)
    Utf8.decode ((source.drop (offset + 2)).take length)
  | _, _ => ""

/-- `_string_representation`. -/
def Heap.render (heap : Heap) (known : ContainerTypes) (address : ℕ) (seen : Finset ℕ) : String :=
  match _hobj : heap.objects.find? address with
  | none => "(unknown)"
  | some obj =>
    if ¬known.Contains obj.typeAddress then heap.readStringRepresentation obj
    else
      let (left, right) := containerBrackets known obj.typeAddress
      if _hseen : address ∈ seen then left ++ "..." ++ right
      else
        let nestedSeen := insert address seen
        let inner := match obj.content with
          | .dict content => content.entries.map fun e =>
              heap.render known e.1 nestedSeen ++ ": " ++ heap.render known e.2 nestedSeen
          | .set content => (content.sort (· ≤ ·)).map fun item => heap.render known item nestedSeen
          | .list content => content.map fun item => heap.render known item nestedSeen
          | .tuple content => content.map fun item => heap.render known item nestedSeen
          | .none => []
        left ++ ", ".intercalate inner ++ right
termination_by (heap.objects.keys.toFinset \ seen).card
decreasing_by
  -- `address` is an object that `seen` did not hold
  all_goals
    refine Finset.card_lt_card ⟨Finset.sdiff_subset_sdiff le_rfl (Finset.subset_insert _ _), fun h => ?_⟩
    have hmem : address ∈ heap.objects.keys.toFinset \ seen :=
      Finset.mem_sdiff.2 ⟨List.mem_toFinset.2 (OrderedDict.mem_keys_of_find? _hobj), _hseen⟩
    exact (Finset.mem_sdiff.1 (h hmem)).2 (Finset.mem_insert_self _ _)

/-- `Heap.string_representation`; the error is the key of a `KeyError`. -/
def Heap.stringRepresentation (heap : Heap) (obj : HeapObject) : Except String (Option String) :=
  if ¬heap.header.flags.withStrRepr then .ok none
  else
    match heap.objects.find? obj.address with
    | none => .ok (some "(unknown)")
    | some _ =>
      match ContainerTypes.ofKnown heap.header.wellKnownTypes with
      | .ok known => .ok (some (heap.render known obj.address ∅))
      | .error name => .error name

/-- An object that is no container renders as the string stored for it. -/
theorem Heap.render_of_not_container (heap : Heap) (known : ContainerTypes) {address : ℕ}
    {obj : HeapObject} (seen : Finset ℕ) (h : heap.objects.find? address = some obj)
    (hc : ¬known.Contains obj.typeAddress) :
    heap.render known address seen = heap.readStringRepresentation obj := by
  rw [Heap.render]
  split
  · rename_i hnone
    rw [h] at hnone
    cases hnone
  · rename_i obj' hsome
    rw [h] at hsome
    cases hsome
    rw [if_pos hc]

end Analyzer
end Pydump
