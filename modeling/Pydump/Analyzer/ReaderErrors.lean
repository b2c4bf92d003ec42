/-
# What malformed bytes do to the Python reader

`HeapFormatError` is what the reader raises for an artifact that cannot be decoded.
Counts, lengths and indexes out of range all end there, whatever the bytes are; so
do duplicate addresses and types the table does not name.  The container types are
looked up with `known["dict"]` and its siblings in a table that comes from the
artifact, and a table without one of the names ends in a bare `KeyError`.
-/

import Pydump.Analyzer.ReaderShape

namespace Pydump
namespace Analyzer

open ByteParser

/-- A `HeapFormatError`. -/
def IsHeapFormatError : ReadError → Prop
  | .heapFormat _ => True
  | .keyError _ => False

/-! ### What is returned is well formed -/

/-- Every object is stored under its own address. -/
def KeyedByAddress (objects : OrderedDict ℕ HeapObject) : Prop :=
  ∀ entry ∈ objects.entries, entry.2.address = entry.1

/-- The empty dictionary. -/
theorem keyedByAddress_empty : KeyedByAddress .empty := fun _ h => absurd h List.not_mem_nil

/-- A new object goes under its address. -/
theorem KeyedByAddress.insert {objects : OrderedDict ℕ HeapObject} (h : KeyedByAddress objects) {obj : HeapObject}
    (hnew : obj.address ∉ objects.keys) : KeyedByAddress (objects.insert obj.address obj) := by
  intro entry hentry
  rw [OrderedDict.entries_insert_of_not_mem hnew, List.mem_append, List.mem_singleton] at hentry
  rcases hentry with hold | rfl
  · exact h entry hold
  · rfl

/-- Stored under their own addresses, objects have different ones. -/
theorem KeyedByAddress.addresses_nodup {objects : OrderedDict ℕ HeapObject} (h : KeyedByAddress objects) :
    (objects.values.map fun obj => obj.address).Nodup := by
  have hkeys : objects.values.map (fun obj => obj.address) = objects.keys := by
    rw [OrderedDict.values, OrderedDict.keys, List.map_map]
    exact List.map_congr_left fun entry hentry => h entry hentry
  rw [hkeys]
  exact objects.keys_nodup

/-- **The loop over the objects** keeps them under their own addresses: the check for a
duplicate comes before the insertion. -/
theorem returns_readObjectsFrom (withStrRepr : Bool) (known : ContainerTypes) (frequentAttributes : List String)
    (commonTypes : Finset ℕ) (n : ℕ) {result : OrderedDict ℕ HeapObject} (h : KeyedByAddress result) :
    Returns KeyedByAddress (readObjectsFrom withStrRepr known frequentAttributes commonTypes n result) := by
  induction n generalizing result with
  | zero => exact Returns.pure h
  | succ n ih =>
    refine Returns.bind_any fun obj => (Returns.ensure _).bind fun _ hnew => ?_
    exact ih (h.insert hnew)

/-- The objects are read under their addresses. -/
theorem returns_readObjects (header : HeapHeader) (frequentAttributes : List String) (commonTypes : Finset ℕ) :
    Returns KeyedByAddress (readObjects header frequentAttributes commonTypes) :=
  Returns.bind_any fun _ => Returns.bind_any fun count => returns_readObjectsFrom _ _ _ _ count keyedByAddress_empty

/-- Object addresses are distinct, and every object's type address is in the type
table. -/
def Heap.WellFormed (heap : Heap) : Prop :=
  (heap.objects.values.map fun obj => obj.address).Nodup ∧
    ∀ obj ∈ heap.objects.values, obj.typeAddress ∈ heap.types.keys

/-- **Every heap that is returned is well formed.** -/
theorem returns_read : Returns Heap.WellFormed read := by
  have hback : ∀ front, Returns (fun sections : Sections => KeyedByAddress sections.objects ∧
      ∀ obj ∈ sections.objects.values, obj.typeAddress ∈ sections.types.keys) (readBack front) := by
    intro front
    refine (returns_readObjects _ _ _).bind fun objects hkeyed => Returns.bind_any fun types => ?_
    refine (Returns.ensureAll _ _).bind fun _ htypes => Returns.bind_any fun _ => Returns.bind_any fun _ => ?_
    exact Returns.pure ⟨hkeyed, htypes⟩
  have hsections : Returns (fun sections : Sections => KeyedByAddress sections.objects ∧
      ∀ obj ∈ sections.objects.values, obj.typeAddress ∈ sections.types.keys) readSections := by
    rw [readSections_eq]
    exact Returns.bind_any hback
  refine hsections.bind fun sections h => Returns.bind_any fun _ => Returns.bind_any fun _ =>
    Returns.bind_any fun _ => ?_
  exact Returns.pure ⟨h.1.addresses_nodup, h.2⟩

/-! ### Which exception is raised -/

/-- `read` behind the footer. -/
def readEnd (sections : Sections) : Reader Heap := do
  let source ← input
  let stop ← offset
  ensure (stop = source.length) (.heapFormat "unexpected data after PyHeap footer")
  pure ⟨sections.header, sections.threads, sections.objects, sections.types, some source⟩

/-- The reader goes through the front, the back and the end. -/
theorem read_eq : read = readFront >>= fun front => readBack front >>= readEnd := by
  have hread : read = readSections >>= readEnd := rfl
  rw [hread, readSections_eq, ByteParser.bind_assoc]

/-- The end raises format errors only. -/
theorem raises_readEnd (sections : Sections) : Raises IsHeapFormatError (readEnd sections) :=
  Raises.input.bind fun _ => Raises.offset.bind fun _ => (Built.ensure trivial).raises.bind fun _ => Raises.pure _

/-- Behind a table that names the containers, nothing but `HeapFormatError`s. -/
theorem raises_rest {front : Front} (h : ∀ name, ContainerTypes.ofKnown front.header.wellKnownTypes ≠ .error name) :
    Raises IsHeapFormatError (readBack front >>= readEnd) :=
  (built_readBack (fun _ => trivial) fun name hname => absurd hname (h name)).raises.bind raises_readEnd

/-- Behind a table without one of the names, its `KeyError`. -/
theorem rest_keyError {front : Front} {name : String}
    (h : ContainerTypes.ofKnown front.header.wellKnownTypes = .error name) (source : List UInt8) (off : ℕ) :
    (readBack front >>= readEnd) source off = .error (.keyError name) := by
  have hlookup : lookupContainerTypes front.header.wellKnownTypes source off = .error (.keyError name) := by
    rw [lookupContainerTypes, h]
    rfl
  exact bind_error (bind_error (bind_error hlookup))

/-- The well-known types that the bytes declare, where the sections before the objects
can be read. -/
def declaredTypes (source : List UInt8) : Option (OrderedDict String ℕ) :=
  match readFront source 0 with
  | .ok (front, _) => some front.header.wellKnownTypes
  | .error _ => none

/-- A table of well-known types names the four containers. -/
def NamesContainers (wellKnownTypes : OrderedDict String ℕ) : Prop :=
  ∀ name ∈ ["dict", "list", "set", "tuple"], name ∈ wellKnownTypes.keys

/-- The look-up of the container types raises for the other tables. -/
theorem namesContainers_iff {wellKnownTypes : OrderedDict String ℕ} :
    NamesContainers wellKnownTypes ↔ ∀ name, ContainerTypes.ofKnown wellKnownTypes ≠ .error name := by
  have hnames : NamesContainers wellKnownTypes ↔ ∃ known, ContainerTypes.ofKnown wellKnownTypes = .ok known := by
    simp only [NamesContainers, List.forall_mem_cons, ContainerTypes.ofKnown_eq_ok]
    constructor
    · rintro ⟨hdict, hlist, hset, htuple, -⟩
      obtain ⟨dict, hdict⟩ := OrderedDict.exists_find?_of_mem_keys hdict
      obtain ⟨list, hlist⟩ := OrderedDict.exists_find?_of_mem_keys hlist
      obtain ⟨set, hset⟩ := OrderedDict.exists_find?_of_mem_keys hset
      obtain ⟨tuple, htuple⟩ := OrderedDict.exists_find?_of_mem_keys htuple
      exact ⟨⟨dict, list, set, tuple⟩, hdict, hlist, hset, htuple⟩
    · rintro ⟨known, hdict, hlist, hset, htuple⟩
      exact ⟨OrderedDict.mem_keys_of_find? hdict, OrderedDict.mem_keys_of_find? hlist,
        OrderedDict.mem_keys_of_find? hset, OrderedDict.mem_keys_of_find? htuple, List.forall_mem_nil _⟩
  rw [hnames]
  cases ContainerTypes.ofKnown wellKnownTypes with
  | ok known =>
    refine iff_of_true ⟨known, rfl⟩ fun name h => ?_
    cases h
  | error name =>
    refine iff_of_false ?_ fun h => h name rfl
    rintro ⟨_, h⟩
    cases h

/-- `HeapReader(source).read()` returns a well-formed heap or raises a
`HeapFormatError`. -/
def FailsOnlyAsHeapFormatError (source : List UInt8) : Prop :=
  (∃ heap, readHeap source = .ok heap ∧ heap.WellFormed) ∨ ∃ message, readHeap source = .error (.heapFormat message)

/-- What `read` returns `readHeap` returns. -/
theorem readHeap_ok {source : List UInt8} {heap : Heap} {off : ℕ} (h : read source 0 = .ok (heap, off)) :
    readHeap source = .ok heap := by
  rw [readHeap, h]
  rfl

/-- What `read` raises `readHeap` raises. -/
theorem readHeap_error {source : List UInt8} {e : ReadError} (h : read source 0 = .error e) :
    readHeap source = .error e := by
  rw [readHeap, h]
  rfl

/-- All it needs is that `read` raises no `KeyError`. -/
theorem failsOnlyAsHeapFormatError_of_raises {source : List UInt8}
    (h : ∀ e, read source 0 = .error e → IsHeapFormatError e) : FailsOnlyAsHeapFormatError source := by
  cases hread : read source 0 with
  | ok r =>
    obtain ⟨heap, off⟩ := r
    exact Or.inl ⟨heap, readHeap_ok hread, returns_read source 0 heap off hread⟩
  | error e =>
    cases e with
    | heapFormat message => exact Or.inr ⟨message, readHeap_error hread⟩
    | keyError name => exact (h _ hread).elim

/-- A `KeyError` is neither. -/
theorem not_failsOnlyAsHeapFormatError {source : List UInt8} {name : String}
    (h : readHeap source = .error (.keyError name)) : ¬FailsOnlyAsHeapFormatError source := by
  rintro (⟨heap, hheap, -⟩ | ⟨message, hmessage⟩)
  · rw [h] at hheap
    cases hheap
  · rw [h] at hmessage
    cases hmessage

/-- **Malformed bytes fail as a `HeapFormatError`, but for the names of the containers.**
Where the sections before the objects can be read, their table of well-known types has
to name `dict`, `list`, `set` and `tuple`; that is all it takes. -/
theorem failsOnlyAsHeapFormatError_iff (source : List UInt8) :
    FailsOnlyAsHeapFormatError source ↔ ∀ table, declaredTypes source = some table → NamesContainers table := by
  cases hfront : readFront source 0 with
  | error e =>
    have hnone : declaredTypes source = none := by rw [declaredTypes, hfront]
    refine iff_of_true (failsOnlyAsHeapFormatError_of_raises fun e' he' => ?_) fun table h => ?_
    · rw [read_eq, bind_error hfront] at he'
      cases he'
      exact (built_readFront fun _ => trivial).raises source 0 e hfront
    · rw [hnone] at h
      cases h
  | ok r =>
    obtain ⟨front, off⟩ := r
    have hsome : declaredTypes source = some front.header.wellKnownTypes := by rw [declaredTypes, hfront]
    rw [hsome]
    constructor
    · rintro h table htable
      cases htable
      refine namesContainers_iff.2 fun name hname => ?_
      have hread : read source 0 = .error (.keyError name) := by
        rw [read_eq, bind_ok hfront]
        exact rest_keyError hname source off
      exact not_failsOnlyAsHeapFormatError (readHeap_error hread) h
    · intro h
      refine failsOnlyAsHeapFormatError_of_raises fun e he => ?_
      rw [read_eq, bind_ok hfront] at he
      exact raises_rest (namesContainers_iff.1 (h _ rfl)) source off e he

/-- The header, no thread, no frequent attribute, no common type, no object and no type:
an artifact that is complete but for the names of the containers. -/
def artifactWithoutNames : List UInt8 :=
  BigEndian.encode 8 MAGIC ++ BigEndian.encode 4 FORMAT_VERSION ++ BigEndian.encode 2 0 ++ BigEndian.encode 8 0 ++
    BigEndian.encode 4 0 ++ BigEndian.encode 4 0 ++ BigEndian.encode 4 0 ++ BigEndian.encode 4 0 ++
    BigEndian.encode 4 0 ++ BigEndian.encode 4 0 ++ BigEndian.encode 8 MAGIC

/-- **A `KeyError` escapes** for a table of well-known types that is empty. -/
theorem artifactWithoutNames_keyError : readHeap artifactWithoutNames = .error (.keyError "dict") ∧
    ¬FailsOnlyAsHeapFormatError artifactWithoutNames := by
  have hdict : (match readHeap artifactWithoutNames with | .ok _ => none | .error e => some e) =
      some (.keyError "dict") := by decide +kernel
  have hread : readHeap artifactWithoutNames = .error (.keyError "dict") := by
    split at hdict
    · cases hdict
    · rename_i e he
      rw [he, Option.some.inj hdict]
  exact ⟨hread, not_failsOnlyAsHeapFormatError hread⟩

end Analyzer
end Pydump
