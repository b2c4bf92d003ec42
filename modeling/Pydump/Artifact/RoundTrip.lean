/-
# The round trip of a PyHeap v1 artifact

`HeapWriter` from `write_header` to `finish`, then `HeapReader.read` on the bytes
that are left.  `Snapshot` is what one capture hands to the writer and
`Snapshot.Encodable` the contract between the two packages: every number fits its
field, no string is longer than its length field allows, and an object's content
kind is the one its type address announces.

`writeArtifact_eq` gives the bytes and `read_layoutArtifact` the heap, in terms of
`readBackHeap`; here both are put together and the heap is compared with the
snapshot field by field.
-/

import Pydump.Artifact.ReaderSpec
import Pydump.Artifact.WriterSpec

namespace Pydump
namespace Artifact

open Capture
open Analyzer (ContainerTypes)

/-- What a capture hands to the writer. -/
structure Snapshot where
  withStrRepr : Bool
  createdAt : String
  wellKnownTypes : OrderedDict String ℕ
  threads : List HeapThread
  objects : List HeapObject
  types : OrderedDict ℕ String

/-- The encoding of `s` takes at most `limit` bytes. -/
def ShortString (limit : ℕ) (s : String) : Prop := (Utf8.encode s).length ≤ limit

instance (limit : ℕ) (s : String) : Decidable (ShortString limit s) := inferInstanceAs (Decidable (_ ≤ _))

/-- The strings of a frame fit, and no local is listed twice. -/
structure FrameNames (frame : ThreadFrame) : Prop where
  filename : ShortString MAX_STRING_SIZE frame.filename
  function : ShortString MAX_STRING_SIZE frame.function
  locals : ∀ entry ∈ frame.locals, ShortString MAX_STRING_SIZE entry.1
  distinct : (frame.locals.map Prod.fst).Nodup

/-- The contract of a snapshot with the format. -/
structure Snapshot.Encodable (snapshot : Snapshot) (known : ContainerTypes) : Prop where
  createdAt : snapshot.createdAt ≠ "" ∧ ShortString MAX_STRING_SIZE snapshot.createdAt
  wellKnown : WellKnownFits snapshot.wellKnownTypes
  containers : ContainerTypes.ofKnown snapshot.wellKnownTypes = .ok known
  distinct : known.Distinct
  threads : ThreadsFit snapshot.threads
  threadNames : ∀ thread ∈ snapshot.threads, ShortString MAX_STRING_SIZE thread.name ∧
    ∀ frame ∈ thread.frames, FrameNames frame
  objectCount : Fits32 snapshot.objects.length
  objects : ∀ obj ∈ snapshot.objects, ObjectFits obj
  objectNames : ∀ obj ∈ snapshot.objects, ShortString MAX_STRING_SIZE obj.strRepr ∧
    ∀ attr ∈ obj.attributes, ShortString 0x7FFF attr.name
  kinds : ∀ obj ∈ snapshot.objects, KindAgrees known obj
  addresses : (snapshot.objects.map HeapObject.address).Nodup
  types : TypesFit snapshot.types
  typeNames : ∀ entry ∈ snapshot.types.entries, ShortString MAX_STRING_SIZE entry.2
  cover : ∀ obj ∈ snapshot.objects, obj.typeAddress ∈ snapshot.types.keys

/-- A snapshot through the writer. -/
def Snapshot.write (snapshot : Snapshot) (now : String) : Except CaptureError (List UInt8) :=
  writeArtifact snapshot.withStrRepr snapshot.wellKnownTypes (some snapshot.createdAt) now snapshot.threads
    snapshot.objects snapshot.types

/-! ### Strings and threads -/

/-- A thread of the reader as a thread of the writer. -/
def threadFacts (thread : Analyzer.HeapThread) : HeapThread where
  name := thread.name
  isAlive := thread.isAlive
  isDaemon := thread.isDaemon
  frames := thread.stackTrace.map fun frame =>
    ⟨frame.fileName, frame.lineNumber, frame.functionName, frame.locals.entries⟩

/-- A map that changes no element changes nothing. -/
theorem map_eq_self {α : Type} {f : α → α} {xs : List α} (h : ∀ x ∈ xs, f x = x) : xs.map f = xs := by
  conv_rhs => rw [← List.map_id xs]
  exact List.map_congr_left h

/-- The facts of a frame come back. -/
theorem frameFacts_readBackFrame {frame : ThreadFrame} (h : FrameNames frame) :
    (⟨(readBackFrame frame).fileName, (readBackFrame frame).lineNumber, (readBackFrame frame).functionName,
      (readBackFrame frame).locals.entries⟩ : ThreadFrame) = frame := by
  have hlocals : (frame.locals.map fun entry => (clip MAX_STRING_SIZE entry.1, entry.2)) = frame.locals :=
    map_eq_self fun entry he => by rw [clip_of_le (h.locals entry he)]
  simp only [readBackFrame, hlocals, OrderedDict.entries_ofPairs h.distinct, clip_of_le h.filename,
    clip_of_le h.function]

/-- **A thread comes back unchanged.** -/
theorem threadFacts_readBackThread {thread : HeapThread} (hname : ShortString MAX_STRING_SIZE thread.name)
    (hframes : ∀ frame ∈ thread.frames, FrameNames frame) : threadFacts (readBackThread thread) = thread := by
  obtain ⟨name, isAlive, isDaemon, frames⟩ := thread
  simp only [threadFacts, readBackThread, List.map_map, HeapThread.mk.injEq, true_and]
  exact ⟨clip_of_le hname, map_eq_self fun frame hf => frameFacts_readBackFrame (hframes frame hf)⟩

/-! ### The table of well-known types -/

/-- The well-known names come back. -/
theorem keys_readBackWellKnown (wellKnownTypes : OrderedDict String ℕ) :
    (readBackWellKnown wellKnownTypes).keys = WELL_KNOWN_TYPE_NAMES := by
  rw [readBackWellKnown, OrderedDict.keys, OrderedDict.entries_ofPairs] <;>
    simp only [WELL_KNOWN_TYPE_NAMES, List.map_cons, List.map_nil]
  decide

/-- The address of a well-known type comes back. -/
theorem find?_readBackWellKnown {wellKnownTypes : OrderedDict String ℕ} (h : WellKnownFits wellKnownTypes)
    {name : String} (hn : name ∈ WELL_KNOWN_TYPE_NAMES) :
    (readBackWellKnown wellKnownTypes).find? name = wellKnownTypes.find? name := by
  obtain ⟨address, ha, _⟩ := h name hn
  have hentries : (readBackWellKnown wellKnownTypes).entries =
      WELL_KNOWN_TYPE_NAMES.map fun name => (name, (wellKnownTypes.find? name).getD 0) := by
    refine OrderedDict.entries_ofPairs ?_
    simp only [WELL_KNOWN_TYPE_NAMES, List.map_cons, List.map_nil]
    decide
  rw [ha, OrderedDict.find?_eq_some, hentries]
  exact List.mem_map.2 ⟨name, hn, by rw [ha, Option.getD_some]⟩

/-! ### The type table -/

/-- **The type table comes back**, as a map. -/
theorem readBackTypes_same {types : OrderedDict ℕ String}
    (h : ∀ entry ∈ types.entries, ShortString MAX_STRING_SIZE entry.2) : (readBackTypes types).Same types := by
  have hclip : ((sortedTypes types).map fun entry => (entry.1, clip MAX_STRING_SIZE entry.2)) =
      sortedTypes types :=
    map_eq_self fun entry he => by rw [clip_of_le (h entry ((sortedTypes_perm types).mem_iff.1 he))]
  rw [readBackTypes, hclip]
  exact OrderedDict.same_ofPairs_of_perm (sortedTypes_perm types)

/-! ### Strings of objects -/

/-- **The string at an offset.**  Where a string was laid out, it is what
`_read_string_representation` finds. -/
theorem readStringRepresentation_eq {heap : Analyzer.Heap} {obj : Analyzer.HeapObject} {before after : List UInt8}
    {s : String} (hsource : heap.source = some (before ++ (layoutString MAX_STRING_SIZE s ++ after)))
    (hoffset : obj.stringRepresentationOffset = some before.length) :
    heap.readStringRepresentation obj = clip MAX_STRING_SIZE s := by
  set kept := (Utf8.encode s).take MAX_STRING_SIZE with hkept
  have hlen : kept.length < 256 ^ 2 :=
    lt_of_le_of_lt (length_kept_le MAX_STRING_SIZE s) (by norm_num [MAX_STRING_SIZE])
  have hbytes : before ++ (layoutString MAX_STRING_SIZE s ++ after) =
      (before ++ BigEndian.encode 2 kept.length) ++ (kept ++ after) := by
    simp only [layoutString, ← hkept, List.append_assoc]
  have hlength : BigEndian.decode (((before ++ (layoutString MAX_STRING_SIZE s ++ after)).drop
      before.length).take 2) = kept.length := by
    rw [List.drop_left, layoutString, ← hkept, List.append_assoc,
      List.take_left' (BigEndian.length_encode 2 _), BigEndian.decode_encode hlen]
  have hpos : before.length + 2 = (before ++ BigEndian.encode 2 kept.length).length := by
    rw [List.length_append, BigEndian.length_encode]
  simp only [Analyzer.Heap.readStringRepresentation, hsource, hoffset, hlength]
  rw [hbytes, hpos, List.drop_left, List.take_left, clip]

variable {snapshot : Snapshot} {known : ContainerTypes}

/-- The heap that a snapshot comes back as. -/
def Snapshot.heap (snapshot : Snapshot) (known : ContainerTypes) : Analyzer.Heap :=
  readBackHeap snapshot.withStrRepr snapshot.createdAt snapshot.wellKnownTypes known snapshot.threads
    snapshot.objects snapshot.types

/-- The bytes of a snapshot. -/
def Snapshot.layout (snapshot : Snapshot) (known : ContainerTypes) : List UInt8 :=
  layoutArtifact snapshot.withStrRepr snapshot.createdAt snapshot.wellKnownTypes known snapshot.threads
    snapshot.objects snapshot.types

/-- The writer accepts a snapshot that keeps the contract. -/
theorem write_eq (h : snapshot.Encodable known) (now : String) : snapshot.write now = .ok (snapshot.layout known) := by
  have hcreated : createdAtOr (some snapshot.createdAt) now = snapshot.createdAt := if_neg h.createdAt.1
  rw [Snapshot.write, writeArtifact_eq h.containers _ now h.wellKnown h.threads h.objectCount h.objects h.types,
    hcreated]
  rfl

/-- The reader accepts its bytes. -/
theorem read_layout (h : snapshot.Encodable known) :
    Analyzer.read (snapshot.layout known) 0 = .ok (snapshot.heap known, (snapshot.layout known).length) :=
  read_layoutArtifact h.containers h.wellKnown h.threads h.objectCount h.objects
    (fun obj hobj => (h.kinds obj hobj).kindRead)
    h.addresses h.types h.cover

/-- The objects come back under their addresses. -/
theorem keys_heap_objects (haddresses : (snapshot.objects.map HeapObject.address).Nodup) :
    (snapshot.heap known).objects.keys = snapshot.objects.map HeapObject.address := by
  rw [Snapshot.heap, readBackHeap, OrderedDict.keys, entries_readBackSections haddresses, List.map_map]
  exact map_address_readBackFrom _ _ _ _

/-- **Where an object of the heap comes from**: its bytes stand behind `before`,
which is also what its string offset counts from. -/
theorem find?_heap_objects (haddresses : (snapshot.objects.map HeapObject.address).Nodup) {obj : HeapObject}
    (hobj : obj ∈ snapshot.objects) : ∃ before after, (snapshot.heap known).source =
        some (before ++ (layoutObject snapshot.withStrRepr known obj ++ after)) ∧
      (snapshot.heap known).objects.find? obj.address =
        some (readBack snapshot.withStrRepr known before.length obj) := by
  set preamble := layoutPreamble snapshot.withStrRepr snapshot.createdAt snapshot.wellKnownTypes snapshot.threads ++
    BigEndian.encode 4 snapshot.objects.length with hpreamble
  obtain ⟨before, after, hbytes, hmem⟩ := @exists_readBackFrom
    snapshot.withStrRepr known preamble _ _ hobj
  refine ⟨preamble ++ before, after ++ layoutTypes snapshot.types, ?_, ?_⟩
  · simp only [Snapshot.heap, readBackHeap, layoutArtifact, layoutCounted, hbytes, hpreamble, List.append_assoc]
  · rw [OrderedDict.find?_eq_some, Snapshot.heap, readBackHeap, entries_readBackSections haddresses]
    rw [hpreamble, List.length_append, BigEndian.length_encode] at hmem
    exact List.mem_map.2 ⟨_, hmem, rfl⟩

/-- **What `string_representation` says about an object that is no container**:
the string it was written with, or nothing when strings were not captured. -/
theorem stringRepresentation_heap (h : snapshot.Encodable known) {obj : HeapObject}
    (hobj : obj ∈ snapshot.objects) {o : Analyzer.HeapObject}
    (ho : (snapshot.heap known).objects.find? obj.address = some o) (hkind : obj.contentKind = .none) :
    (snapshot.heap known).stringRepresentation o =
      .ok (if snapshot.withStrRepr then some obj.strRepr else none) := by
  obtain ⟨before, after, hsource, hfind⟩ := find?_heap_objects h.addresses hobj
  obtain rfl : o = _ := Option.some_inj.1 (ho.symm.trans hfind)
  have hflag : (snapshot.heap known).header.flags.withStrRepr = snapshot.withStrRepr := rfl
  have hknown : ContainerTypes.ofKnown (snapshot.heap known).header.wellKnownTypes = .ok known :=
    ofKnown_readBackWellKnown h.containers
  have hcontainer : ¬known.Contains obj.typeAddress := by
    obtain ⟨hd, hl, hs, ht⟩ := h.kinds obj hobj
    rw [hkind] at hd hl hs ht
    simp only [reduceCtorEq, false_iff] at hd hl hs ht
    simp only [ContainerTypes.Contains, hd, hl, hs, ht, or_self, not_false_iff]
  rw [Analyzer.Heap.stringRepresentation, hflag]
  by_cases hs : snapshot.withStrRepr = true
  · have hread : (snapshot.heap known).readStringRepresentation
        (readBack snapshot.withStrRepr known before.length obj) = obj.strRepr := by
      rw [layoutObject, layoutRepr, if_pos ⟨hs, hcontainer⟩] at hsource
      have hstored : (snapshot.heap known).source =
          some ((before ++ layoutFields obj) ++ (layoutString MAX_STRING_SIZE obj.strRepr ++ after)) := by
        rw [hsource]
        simp only [List.append_assoc]
      rw [readStringRepresentation_eq hstored]
      · exact clip_of_le (h.objectNames obj hobj).1
      · rw [readBack, if_pos ⟨hs, hcontainer⟩, List.length_append]
    have haddress : (readBack snapshot.withStrRepr known before.length obj).address = obj.address := rfl
    rw [if_neg (not_not.2 hs), haddress, hfind, hknown, if_pos hs]
    simp only [Analyzer.Heap.render_of_not_container _ known ∅ hfind hcontainer, hread]
  · rw [if_pos hs, if_neg hs]

/-- **Round trip.**  The writer accepts every snapshot that keeps the contract, the
reader consumes all the bytes, and what it returns is the snapshot: the header
with the thirteen well-known types, the threads, the objects in their order with
their facts, the type table, and the string of every object that is no
container. -/
theorem read_write (h : snapshot.Encodable known) (now : String) :
    ∃ bytes heap, snapshot.write now = .ok bytes ∧ Analyzer.read bytes 0 = .ok (heap, bytes.length) ∧
      heap.header.version = FORMAT_VERSION ∧ heap.header.createdAt = snapshot.createdAt ∧
      heap.header.flags.withStrRepr = snapshot.withStrRepr ∧
      heap.header.wellKnownTypes.keys = WELL_KNOWN_TYPE_NAMES ∧
      (∀ name ∈ WELL_KNOWN_TYPE_NAMES,
        heap.header.wellKnownTypes.find? name = snapshot.wellKnownTypes.find? name) ∧
      heap.threads.map threadFacts = snapshot.threads ∧
      heap.objects.keys = snapshot.objects.map HeapObject.address ∧
      (∀ obj ∈ snapshot.objects, ∃ o, heap.objects.find? obj.address = some o ∧
        o.address = obj.address ∧ o.typeAddress = obj.typeAddress ∧ o.size = clampSize obj.shallowSize ∧
        o.referents = obj.referents ∪ contentAddresses obj ∧ o.content = contentOf obj ∧
        (obj.contentKind = .none → heap.stringRepresentation o =
          .ok (if snapshot.withStrRepr then some obj.strRepr else none)) ∧
        (obj.contentKind ≠ .none → o.stringRepresentationOffset = none)) ∧
      heap.types.Same snapshot.types ∧ heap.source = some bytes := by
  refine ⟨_, snapshot.heap known, write_eq h now, read_layout h, rfl, clip_of_le h.createdAt.2, rfl,
    keys_readBackWellKnown _,
    fun name hn => find?_readBackWellKnown h.wellKnown hn, ?_, keys_heap_objects h.addresses, ?_,
    readBackTypes_same h.typeNames, rfl⟩
  · rw [Snapshot.heap, readBackHeap, List.map_map]
    exact map_eq_self fun thread ht =>
      threadFacts_readBackThread (h.threadNames thread ht).1 (h.threadNames thread ht).2
  · intro obj hobj
    obtain ⟨before, after, -, hfind⟩ := find?_heap_objects h.addresses hobj
    refine ⟨_, hfind, rfl, rfl, rfl, rfl, rfl, stringRepresentation_heap h hobj hfind, fun hkind => ?_⟩
    have hcontainer : known.Contains obj.typeAddress := by
      obtain ⟨hd, hl, hs, ht⟩ := h.kinds obj hobj
      unfold ContainerTypes.Contains
      cases hk : obj.contentKind with
      | none => exact absurd hk hkind
      | dict => exact .inl (hd.1 hk)
      | list => exact .inr (.inl (hl.1 hk))
      | set => exact .inr (.inr (.inl (hs.1 hk)))
      | tuple => exact .inr (.inr (.inr (ht.1 hk)))
    exact if_neg fun hn => hn.2 hcontainer

/-- The fixture of the analyzer's tests: a list that holds one plain object. -/
def fixtureTypes : OrderedDict String ℕ where
  entries := [("list", 0x1000), ("tuple", 0x1001), ("dict", 0x1002), ("set", 0x1003), ("str", 0x1004),
    ("bytes", 0x1005), ("bytearray", 0x1006), ("int", 0x1007), ("bool", 0x1008), ("float", 0x1009),
    ("object", 0x100a), ("type", 0x100b), ("NoneType", 0x100c)]
  nodup := by decide

/-- The snapshot of the fixture. -/
def fixture : Snapshot where
  withStrRepr := true
  createdAt := "2026-08-13T12:00:00+00:00"
  wellKnownTypes := fixtureTypes
  threads := [⟨"MainThread", true, false, [⟨"/app/main.py", 42, "run", [("payload", 0x2000)]⟩]⟩]
  objects :=
    [{ address := 0x2000, typeAddress := 0x1000, typeName := "list", shallowSize := 64, contentKind := .list
       sequenceContent := [0x3000], referents := {0x3000} },
     { address := 0x3000, typeAddress := 0x100a, typeName := "object", shallowSize := 16, contentKind := .none
       strRepr := "<object at 0x3000>" }]
  types := ⟨[(0x1000, "list"), (0x100a, "object")], by decide⟩

/-- The sample can be encoded. -/
theorem fixture_encodable : fixture.Encodable ⟨0x1002, 0x1000, 0x1003, 0x1001⟩ where
  createdAt := by decide +kernel
  wellKnown := by
    simp [WellKnownFits, WELL_KNOWN_TYPE_NAMES, fixture, fixtureTypes, OrderedDict.find?,
      OrderedDict.lookupEntries, Fits64]
  containers := by decide
  distinct := by simp [ContainerTypes.Distinct]
  threads := by simp [ThreadsFit, ThreadFits, FrameFits, Fits32, Fits64, fixture, MAX_UINT32]
  threadNames := by
    simp only [fixture, List.forall_mem_cons, List.not_mem_nil, false_implies, implies_true, and_true]
    exact ⟨by decide +kernel, by decide +kernel, by decide +kernel, by decide +kernel, by decide⟩
  objectCount := by simp [Fits32, fixture, MAX_UINT32]
  objects := by
    simp [fixture, ObjectFits, ContentFits, contentAddresses, Fits32, Fits64, MAX_UINT32]
  objectNames := by
    simp only [fixture, List.forall_mem_cons, List.not_mem_nil, false_implies, implies_true, and_true]
    exact ⟨by decide +kernel, by decide +kernel⟩
  kinds := by
    simp only [fixture, List.forall_mem_cons, List.not_mem_nil, false_implies, implies_true, and_true]
    exact ⟨⟨by decide, by decide, by decide, by decide⟩, ⟨by decide, by decide, by decide, by decide⟩⟩
  addresses := by decide
  types := by simp [TypesFit, fixture, Fits32, Fits64, MAX_UINT32, OrderedDict.keys]
  typeNames := by
    simp only [fixture, List.forall_mem_cons, List.not_mem_nil, false_implies, implies_true, and_true]
    exact ⟨by decide +kernel, by decide +kernel⟩
  cover := by decide

/-- The sample comes back with its two objects. -/
theorem read_write_fixture :
    ∃ bytes heap, fixture.write "" = .ok bytes ∧ Analyzer.read bytes 0 = .ok (heap, bytes.length) ∧
      heap.objects.keys = [0x2000, 0x3000] := by
  obtain ⟨bytes, heap, hwrite, hread, -, -, -, -, -, -, hkeys, -⟩ := read_write fixture_encodable ""
  exact ⟨bytes, heap, hwrite, hread, hkeys⟩

end Artifact
end Pydump
