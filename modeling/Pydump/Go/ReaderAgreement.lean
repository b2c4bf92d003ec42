/-
# The two readers accept the same artifacts

`HeapReader.read` in Python and `reader.read` in Go, method by method, in terms of
`ByteParser.Agree`: on every input both fail or both succeed at the same offset
with related values.  `SameObject` and `SameHeap` say what related means.

The methods correspond one to one but for two places.  Python looks the container
types up when it comes to the objects, Go right behind the header; and Python
checks the type table before the footer, Go after it.  Python asks for a tuple
before a set, Go for a set before a tuple, which is why the container types have
to differ.
-/

import Pydump.Artifact.RoundTrip
import Pydump.Go.Reader

namespace Pydump
namespace Go

open ByteParser
open Analyzer (ContainerTypes)

/-! ### Numbers and strings -/

/-- Both take bytes or fail. -/
theorem agree_readExact (n : ℕ) : Agree Eq (Analyzer.takeBytes n) (readExact n) := Agree.take _ _ n

/-- A number of fixed size. -/
theorem agree_unsigned (size : ℕ) : Agree Eq (Analyzer.unpack size) (unsigned size) :=
  (agree_readExact size).bind fun _ _ h => Agree.pure (congrArg BigEndian.decode h)

/-- A number of 32 bits. -/
theorem agree_u32 : Agree Eq Analyzer.readU32 u32 := agree_unsigned 4

/-- A number of 64 bits. -/
theorem agree_u64 : Agree Eq Analyzer.readU64 u64 := agree_unsigned 8

/-- A flag. -/
theorem agree_boolean : Agree Eq Analyzer.readBool boolean := by
  have h : Agree (fun value bytes => value = BigEndian.decode bytes) (Analyzer.unpack 1) (readExact 1) :=
    (agree_readExact 1).map_left BigEndian.decode fun _ _ h => congrArg BigEndian.decode h
  exact h.bind fun _ _ h => Agree.pure (by rw [h])

/-- A signed number of 16 bits. -/
theorem agree_i16 : Agree Eq Analyzer.readI16 i16 :=
  (agree_unsigned 2).bind fun _ _ h => Agree.pure (by rw [h])

/-- A string of known length. -/
theorem agree_string (n : ℕ) : Agree Eq (Analyzer.readString n) (string n) :=
  (agree_readExact n).bind fun _ _ h => Agree.pure (by rw [h, decodeUTF8BackslashReplace_eq])

/-- A string behind its length. -/
theorem agree_longString : Agree Eq Analyzer.readLongString longString :=
  (agree_unsigned 2).bind fun _ _ h => h ▸ agree_string _

/-- A string that is passed over. -/
theorem agree_skipLongString : Agree Eq Analyzer.skipLongString skipLongString :=
  (agree_unsigned 2).bind fun _ _ h => h ▸ (agree_readExact _).bind fun _ _ _ => Agree.pure rfl

/-- The name of an attribute, from the frequent ones or in full. -/
theorem agree_attributeName (frequent : List String) :
    Agree Eq (Analyzer.readAttributeName frequent) (attributeName frequent) := by
  refine agree_i16.bind fun n m h => ?_
  subst h
  by_cases hn : 0 ≤ n
  · simp only [if_pos hn]
    exact agree_string n.toNat
  · simp only [if_neg hn]
    cases frequent[(-(n + 1)).toNat]? with
    | some name => exact Agree.pure rfl
    | none => exact Agree.fail _ _

/-! ### Counted sections -/

/-- A list behind its count. -/
theorem agree_counted {α β : Type} {R : α → β → Prop} {step : Analyzer.Reader α} {step' : Reader β}
    (h : Agree R step step') : Agree (List.Forall₂ R) (Analyzer.readCounted step) (counted step') :=
  agree_u32.bind fun n _ hn => hn ▸ Agree.repeatN h n

/-- A list of equal items behind its count. -/
theorem agree_counted_eq {α : Type} {step : Analyzer.Reader α} {step' : Reader α} (h : Agree Eq step step') :
    Agree Eq (Analyzer.readCounted step) (counted step') :=
  (agree_counted h).mono fun _ _ hs => List.forall₂_eq_eq_eq ▸ hs

/-- The addresses by name. -/
theorem agree_stringAddressMap : Agree Eq Analyzer.readStringAddressMap stringAddressMap := by
  have hpair : Agree Eq Analyzer.readStringAddress stringAddress :=
    agree_longString.bind fun _ _ hn => agree_u64.bind fun _ _ ha => Agree.pure (by rw [hn, ha])
  exact (agree_counted_eq hpair).bind fun _ _ h => Agree.pure (by rw [h])

/-- The names by address. -/
theorem agree_addressStringMap : Agree Eq Analyzer.readAddressStringMap addressStringMap := by
  have hpair : Agree Eq Analyzer.readAddressString addressString :=
    agree_u64.bind fun _ _ ha => agree_longString.bind fun _ _ hn => Agree.pure (by rw [hn, ha])
  exact (agree_counted_eq hpair).bind fun _ _ h => Agree.pure (by rw [h])

/-- A list of strings. -/
theorem agree_stringList : Agree Eq Analyzer.readStringList stringList := agree_counted_eq agree_longString

/-! ### Threads -/

/-- The same frame in both models. -/
structure SameFrame (frame : Analyzer.HeapThreadFrame) (other : ThreadFrame) : Prop where
  fileName : frame.fileName = other.fileName
  lineNumber : frame.lineNumber = other.lineNumber
  functionName : frame.functionName = other.functionName
  locals : frame.locals = other.locals

/-- The same thread in both models. -/
structure SameThread (thread : Analyzer.HeapThread) (other : Thread) : Prop where
  name : thread.name = other.name
  isAlive : thread.isAlive = other.isAlive
  isDaemon : thread.isDaemon = other.isDaemon
  stackTrace : List.Forall₂ SameFrame thread.stackTrace other.stackTrace

/-- A frame of a thread. -/
theorem agree_frame : Agree SameFrame Analyzer.readFrame frame :=
  agree_longString.bind fun _ _ hfile => agree_u32.bind fun _ _ hline =>
    agree_longString.bind fun _ _ hfunction => agree_stringAddressMap.bind fun _ _ hlocals =>
      Agree.pure ⟨hfile, hline, hfunction, hlocals⟩

/-- A thread. -/
theorem agree_thread : Agree SameThread Analyzer.readThread thread :=
  agree_longString.bind fun _ _ hname => agree_boolean.bind fun _ _ halive =>
    agree_boolean.bind fun _ _ hdaemon => (agree_counted agree_frame).bind fun _ _ hframes =>
      Agree.pure ⟨hname, halive, hdaemon, hframes⟩

/-- The threads. -/
theorem agree_threads : Agree (List.Forall₂ SameThread) Analyzer.readThreads threads :=
  agree_counted agree_thread

/-! ### Attributes -/

/-- Attributes that are passed over. -/
theorem agree_skipAttributes (frequent : List String) :
    Agree Eq (Analyzer.skipAttributes frequent) (skipAttributes frequent) := by
  have hattribute : Agree Eq (Analyzer.skipAttribute frequent) (skipAttribute frequent) :=
    (agree_attributeName frequent).bind fun _ _ _ => agree_u64.bind fun _ _ _ => Agree.pure rfl
  exact (agree_counted_eq hattribute).bind fun _ _ _ => Agree.pure rfl

/-- The types with the frequent attributes. -/
theorem agree_commonTypes (frequent : List String) :
    Agree Eq (Analyzer.readCommonTypes frequent) (commonTypes frequent) := by
  have htype : Agree Eq (Analyzer.readCommonType frequent) (commonType frequent) :=
    agree_u64.bind fun _ _ ha => (agree_skipAttributes frequent).bind fun _ _ _ => Agree.pure ha
  exact (agree_counted_eq htype).bind fun _ _ h => Agree.pure (by rw [h])

/-- The attributes that an object has on its own. -/
theorem agree_ownAttributes (commonTypes : Finset ℕ) (frequent : List String) (typeAddress : ℕ) :
    Agree Eq (Analyzer.readOwnAttributes commonTypes frequent typeAddress)
      (ownAttributes commonTypes frequent typeAddress) := by
  unfold Analyzer.readOwnAttributes ownAttributes
  by_cases h : typeAddress ∉ commonTypes
  · rw [if_pos h, if_pos h]
    exact agree_skipAttributes frequent
  · rw [if_neg h, if_neg h]
    exact Agree.pure rfl

/-! ### Objects -/

/-- A sorted slice without duplicates for a set. -/
def Enumerates (values : List ℕ) (s : Finset ℕ) : Prop := values.Pairwise (· < ·) ∧ values.toFinset = s

/-- No value is lost. -/
theorem mem_dropRepeated {values : List ℕ} {x : ℕ} : x ∈ dropRepeated values ↔ x ∈ values := by
  induction values using dropRepeated.induct with
  | case1 => rfl
  | case2 => rfl
  | case3 value rest ih => simp [dropRepeated, ih]
  | case4 value next rest hne ih => simp [dropRepeated, hne, ih]

/-- A sorted list without repetitions is strictly sorted. -/
theorem pairwise_dropRepeated {values : List ℕ} (h : values.Pairwise (· ≤ ·)) :
    (dropRepeated values).Pairwise (· < ·) := by
  induction values using dropRepeated.induct with
  | case1 => exact List.Pairwise.nil
  | case2 => exact List.pairwise_singleton _ _
  | case3 value rest ih =>
    rw [dropRepeated, if_pos rfl]
    exact ih (List.pairwise_cons.1 h).2
  | case4 value next rest hne ih =>
    obtain ⟨hle, hrest⟩ := List.pairwise_cons.1 h
    rw [dropRepeated, if_neg hne]
    refine List.pairwise_cons.2 ⟨fun x hx => ?_, ih hrest⟩
    have hlt : value < next := lt_of_le_of_ne (hle next List.mem_cons_self) hne
    rcases List.mem_cons.1 (mem_dropRepeated.1 hx) with rfl | hx
    · exact hlt
    · exact lt_of_lt_of_le hlt ((List.pairwise_cons.1 hrest).1 x hx)

/-- **`uniqueSorted`** enumerates the set of its values. -/
theorem uniqueSorted_enumerates (values : List ℕ) : Enumerates (uniqueSorted values) values.toFinset := by
  have hsorted : (values.mergeSort fun a b => decide (a ≤ b)).Pairwise (· ≤ ·) := by
    have h := @List.pairwise_mergeSort _ (fun a b => decide (a ≤ b))
      (fun a b c hab hbc => by simp only [decide_eq_true_eq] at *; omega)
      (fun a b => by simp only [Bool.or_eq_true, decide_eq_true_eq]; omega) values
    exact h.imp fun hab => of_decide_eq_true hab
  refine ⟨pairwise_dropRepeated hsorted, ?_⟩
  ext x
  rw [List.mem_toFinset, uniqueSorted, mem_dropRepeated, List.mem_mergeSort, List.mem_toFinset]

/-- The same content in both models. -/
def SameContent (content : Analyzer.ObjectContent) (kind : ContentKind) (sequence : List ℕ)
    (dict : List (ℕ × ℕ)) : Prop :=
  match content with
  | .dict d => kind = .dict ∧ sequence = [] ∧ d = .ofPairs dict
  | .list l => kind = .list ∧ sequence = l ∧ dict = []
  | .set s => kind = .set ∧ Enumerates sequence s ∧ dict = []
  | .tuple l => kind = .tuple ∧ sequence = l ∧ dict = []
  | .none => kind = .none ∧ sequence = [] ∧ dict = []

/-- How the contents of an object in the two models may be related. -/
abbrev ContentRelation : Type := Analyzer.ObjectContent → ContentKind → List ℕ → List (ℕ × ℕ) → Prop

/-- Both contents are those of a container, or neither is. -/
def BothContainers : ContentRelation := fun content kind _ _ => content = .none ↔ kind = .none

/-- The same object in both models, but for its content. -/
structure LikeObject (R : ContentRelation) (obj : Analyzer.HeapObject) (other : Object) : Prop where
  address : obj.address = other.address
  typeAddress : obj.typeAddress = other.typeAddress
  size : obj.size = other.size
  referents : Enumerates other.referents obj.referents
  content : R obj.content other.contentKind other.sequence other.dict
  stringOffset : other.stringOffset = match obj.stringRepresentationOffset with
    | some offset => (offset : ℤ)
    | none => -1

/-- The same object in both models. -/
abbrev SameObject : Analyzer.HeapObject → Object → Prop := LikeObject SameContent

/-- The readers agree on the content of every type. -/
def AgreeOnContent (R : ContentRelation) (known : ContainerTypes) : Prop :=
  ∀ typeAddress, Agree (fun r c => R r.1 c.kind c.sequence c.dict ∧ r.2 = c.referents.toFinset)
    (Analyzer.readContent typeAddress known) (content typeAddress known)

/-- A key with its value. -/
theorem agree_dictEntry : Agree Eq Analyzer.readAddressPair dictEntry :=
  agree_u64.bind fun _ _ hk => agree_u64.bind fun _ _ hv => Agree.pure (by rw [hk, hv])

/-- The addresses in a dictionary. -/
theorem toFinset_flatMap_entries (pairs : List (ℕ × ℕ)) :
    (pairs.map Prod.fst).toFinset ∪ (pairs.map Prod.snd).toFinset =
      (pairs.flatMap fun entry => [entry.1, entry.2]).toFinset := by
  ext x
  simp only [Finset.mem_union, List.mem_toFinset, List.mem_map, List.mem_flatMap, List.mem_cons,
    List.not_mem_nil, or_false]
  constructor
  · rintro (⟨p, hp, rfl⟩ | ⟨p, hp, rfl⟩)
    · exact ⟨p, hp, .inl rfl⟩
    · exact ⟨p, hp, .inr rfl⟩
  · rintro ⟨p, hp, rfl | rfl⟩
    · exact .inl ⟨p, hp, rfl⟩
    · exact .inr ⟨p, hp, rfl⟩

/-- **The content**, where the readers make related contents of the same pairs and values:
they go by the same layouts, and differ in the order of their tests. -/
theorem agreeOnContent_of {R : ContentRelation} {known : ContainerTypes}
    (hdict : ∀ pairs, R (.dict (.ofPairs pairs)) .dict [] pairs)
    (htuple : ∀ values, known.set ≠ known.tuple → R (.tuple values) .tuple values [])
    (hset : ∀ values, known.set ≠ known.tuple → R (.set values.toFinset) .set (uniqueSorted values) [])
    (hboth : ∀ values, known.set = known.tuple → R (.tuple values) .set (uniqueSorted values) [])
    (hlist : ∀ values, R (.list values) .list values []) (hnone : R .none .none [] []) : AgreeOnContent R known := by
  intro typeAddress
  unfold Analyzer.readContent content
  by_cases hd : typeAddress = known.dict
  · rw [if_pos hd, if_pos hd]
    refine (agree_counted_eq agree_dictEntry).bind fun pairs _ h => ?_
    subst h
    exact Agree.pure ⟨hdict pairs, toFinset_flatMap_entries pairs⟩
  · rw [if_neg hd, if_neg hd]
    have hcontainer : (typeAddress = known.list ∨ typeAddress = known.tuple ∨ typeAddress = known.set) ↔
        (typeAddress = known.list ∨ typeAddress = known.set ∨ typeAddress = known.tuple) :=
      or_congr_right or_comm
    by_cases hc : typeAddress = known.list ∨ typeAddress = known.tuple ∨ typeAddress = known.set
    · rw [if_pos hc, if_pos (hcontainer.1 hc)]
      refine (agree_counted_eq agree_u64).bind fun values _ h => ?_
      subst h
      have hvalues := (uniqueSorted_enumerates values).2.symm
      by_cases hs : typeAddress = known.set
      · by_cases ht : typeAddress = known.tuple
        · rw [if_pos ht, if_pos hs]
          exact Agree.pure ⟨hboth values (hs.symm.trans ht), hvalues⟩
        · rw [if_neg ht, if_pos hs, if_pos hs]
          exact Agree.pure ⟨hset values fun h => ht (hs.trans h), hvalues⟩
      · by_cases ht : typeAddress = known.tuple
        · simp only [if_neg hs, if_pos ht]
          exact Agree.pure ⟨htuple values fun h => hs (ht.trans h.symm), rfl⟩
        · simp only [if_neg hs, if_neg ht]
          exact Agree.pure ⟨hlist values, rfl⟩
    · rw [if_neg hc, if_neg fun h => hc (hcontainer.2 h)]
      exact Agree.pure ⟨hnone, rfl⟩

/-- The contents are the same, for container types that differ. -/
theorem agreeOnContent_same {known : ContainerTypes} (hdistinct : known.Distinct) :
    AgreeOnContent SameContent known := by
  have hne : known.set ≠ known.tuple := by
    simp only [ContainerTypes.Distinct, List.nodup_cons, List.mem_cons, not_or] at hdistinct
    exact hdistinct.2.2.1.1
  exact agreeOnContent_of (fun _ => ⟨rfl, rfl, rfl⟩) (fun _ _ => ⟨rfl, rfl, rfl⟩)
    (fun values _ => ⟨rfl, uniqueSorted_enumerates values, rfl⟩) (fun _ h => absurd h hne) (fun _ => ⟨rfl, rfl, rfl⟩)
    ⟨rfl, rfl, rfl⟩

/-- The contents are those of containers or not, whatever the container types are. -/
theorem agreeOnContent_both (known : ContainerTypes) : AgreeOnContent BothContainers known :=
  agreeOnContent_of (fun _ => by simp [BothContainers]) (fun _ _ => by simp [BothContainers])
    (fun _ _ => by simp [BothContainers]) (fun _ _ => by simp [BothContainers]) (fun _ => by simp [BothContainers])
    (by simp [BothContainers])

/-- The offset of a rendering, which is -1 where there is none. -/
theorem agree_stringOffset (withStringRepr : Bool) (known : ContainerTypes) (typeAddress : ℕ) :
    Agree (fun o start => start = match o with | some offset => ((offset : ℕ) : ℤ) | none => -1)
      (Analyzer.readStringOffset withStringRepr known typeAddress)
      (stringOffset withStringRepr known typeAddress) := by
  unfold Analyzer.readStringOffset stringOffset
  split_ifs
  · exact Agree.offset.bind fun _ _ h => agree_skipLongString.bind fun _ _ _ => Agree.pure (by rw [h])
  · exact Agree.pure rfl

/-- **One object.** -/
theorem agree_object (withStringRepr : Bool) {R : ContentRelation} {known : ContainerTypes}
    (hcontent : AgreeOnContent R known) (frequent : List String) (commonTypes : Finset ℕ) :
    Agree (LikeObject R) (Analyzer.readObject withStringRepr known frequent commonTypes)
      (object withStringRepr known frequent commonTypes) := by
  refine agree_u64.bind fun address _ ha => agree_u64.bind fun typeAddress _ ht => ?_
  subst ha ht
  refine agree_u32.bind fun _ _ hsize => (hcontent typeAddress).bind fun r c hc => ?_
  have hextra : Agree (fun r extra => r = extra.toFinset) Analyzer.readAddressSet addresses :=
    (agree_counted_eq agree_u64).map_left List.toFinset fun _ _ h => congrArg List.toFinset h
  refine hextra.bind fun referents extra hr => ?_
  refine (agree_ownAttributes commonTypes frequent typeAddress).bind fun _ _ _ =>
    (agree_stringOffset withStringRepr known typeAddress).bind fun _ _ ho => Agree.pure ?_
  refine ⟨rfl, rfl, hsize, ?_, hc.1, ho⟩
  have henum := uniqueSorted_enumerates (extra ++ c.referents)
  rwa [List.toFinset_append, ← hr, ← hc.2] at henum

/-- The objects read so far, in both models. -/
structure SameObjects (R : ContentRelation) (result : OrderedDict ℕ Analyzer.HeapObject) (objs : Objects) : Prop where
  objects : List.Forall₂ (fun entry obj => entry.1 = obj.address ∧ LikeObject R entry.2 obj) result.entries objs.result
  index : objs.byAddress.entries = objs.result.zipIdx.map fun entry => (entry.1.address, entry.2)

/-- The objects stand under the same addresses. -/
theorem SameObjects.keys {R : ContentRelation} {result : OrderedDict ℕ Analyzer.HeapObject} {objs : Objects}
    (h : SameObjects R result objs) :
    result.keys = objs.byAddress.keys := by
  have hleft : result.keys = objs.result.map Object.address := by
    rw [OrderedDict.keys]
    exact List.forall₂_eq_eq_eq ▸ List.forall₂_map_left_iff.2 (List.forall₂_map_right_iff.2
      (h.objects.imp fun _ _ hs => hs.1))
  rw [hleft, OrderedDict.keys, h.index, List.map_map]
  conv_lhs => rw [← List.zipIdx_map_fst 0 objs.result, List.map_map]
  rfl

/-- Both append a new object. -/
theorem SameObjects.push {R : ContentRelation} {result : OrderedDict ℕ Analyzer.HeapObject} {objs : Objects}
    (h : SameObjects R result objs) {obj : Analyzer.HeapObject} {other : Object} (hobj : LikeObject R obj other)
    (hnew : obj.address ∉ result.keys) : SameObjects R (result.insert obj.address obj) (objs.push other) := by
  have hnew' : other.address ∉ objs.byAddress.keys := by
    rw [← h.keys, ← hobj.address]
    exact hnew
  constructor
  · rw [OrderedDict.entries_insert_of_not_mem hnew]
    exact List.rel_append h.objects (.cons ⟨hobj.address, hobj⟩ .nil)
  · rw [Objects.push, OrderedDict.entries_insert_of_not_mem hnew', h.index, List.zipIdx_append, List.map_append]
    simp

/-- **The object loop.** -/
theorem agree_objectsFrom (withStringRepr : Bool) {R : ContentRelation} {known : ContainerTypes}
    (hcontent : AgreeOnContent R known) (frequent : List String) (commonTypes : Finset ℕ) (n : ℕ)
    {result : OrderedDict ℕ Analyzer.HeapObject} {objs : Objects} (h : SameObjects R result objs) :
    Agree (SameObjects R) (Analyzer.readObjectsFrom withStringRepr known frequent commonTypes n result)
      (objectsFrom withStringRepr known frequent commonTypes n objs) := by
  induction n generalizing result objs with
  | zero => exact Agree.pure h
  | succ n ih =>
    refine (agree_object withStringRepr hcontent frequent commonTypes).bind fun obj other hobj => ?_
    by_cases hnew : obj.address ∈ result.keys
    · have hnew' : other.address ∈ objs.byAddress.keys := h.keys ▸ hobj.address ▸ hnew
      rw [ensure, ensure, if_neg (not_not.2 hnew), if_neg (not_not.2 hnew')]
      exact Agree.of_rejects ((Rejects.fail _).bind_left _) ((Rejects.fail _).bind_left _)
    · have hnew' : other.address ∉ objs.byAddress.keys := h.keys ▸ hobj.address ▸ hnew
      exact (Agree.ensure _ _ (iff_of_true hnew hnew')).bind fun _ _ _ => ih (h.push hobj hnew)

/-! ### The whole artifact -/

/-- The same header in both models. -/
structure SameHeader (header : Analyzer.HeapHeader) (other : Header) : Prop where
  version : header.version = other.version
  createdAt : header.createdAt = other.createdAt
  withStringRepr : header.flags.withStrRepr = other.withStringRepr
  wellKnownTypes : header.wellKnownTypes = other.wellKnownTypes

/-- The same heap in both models, but for the contents of the objects: the objects in the same
order, and the Go index leading from an address to its object. -/
structure LikeHeap (R : ContentRelation) (heap : Analyzer.Heap) (other : Heap) : Prop where
  header : SameHeader heap.header other.header
  threads : List.Forall₂ SameThread heap.threads other.threads
  objects : List.Forall₂ (fun entry obj => entry.1 = obj.address ∧ LikeObject R entry.2 obj)
    heap.objects.entries other.objects
  index : other.objectByAddress.entries = other.objects.zipIdx.map fun entry => (entry.1.address, entry.2)
  types : heap.types = other.types
  source : heap.source = other.source

/-- The same heap in both models. -/
abbrev SameHeap : Analyzer.Heap → Heap → Prop := LikeHeap SameContent

/-- The objects stand under the same addresses. -/
theorem LikeHeap.keys {R : ContentRelation} {heap : Analyzer.Heap} {other : Heap} (h : LikeHeap R heap other) :
    heap.objects.keys = other.objects.map Object.address := by
  rw [OrderedDict.keys]
  exact List.forall₂_eq_eq_eq ▸ List.forall₂_map_left_iff.2 (List.forall₂_map_right_iff.2
    (h.objects.imp fun _ _ ho => ho.1))

/-- The object of the Python heap for an object of the Go heap. -/
theorem LikeHeap.object {R : ContentRelation} {heap : Analyzer.Heap} {other : Heap} (h : LikeHeap R heap other) {i : ℕ}
    {object : Object} (hi : other.objects[i]? = some object) :
    ∃ obj, heap.objects.entries[i]? = some (object.address, obj) ∧ LikeObject R obj object := by
  obtain ⟨hlt, rfl⟩ := List.getElem?_eq_some_iff.1 hi
  have hlt' : i < heap.objects.entries.length := h.objects.length_eq ▸ hlt
  obtain ⟨hkey, hobj⟩ := h.objects.get hlt' hlt
  rw [List.get_eq_getElem, List.get_eq_getElem] at hkey hobj
  refine ⟨heap.objects.entries[i].2, ?_, hobj⟩
  rw [List.getElem?_eq_getElem hlt', ← hkey]

/-- The fields of the header. -/
theorem agree_headerFields : Agree SameHeader Analyzer.readHeader headerFields := by
  refine agree_u64.bind fun start _ h => ?_
  subst h
  refine (Agree.ensure _ _ Iff.rfl).bind fun _ _ _ => agree_u32.bind fun version _ h => ?_
  subst h
  refine (Agree.ensure _ _ Iff.rfl).bind fun _ _ _ => agree_longString.bind fun _ _ hcreated =>
    agree_u64.bind fun _ _ hflags => agree_stringAddressMap.bind fun _ _ hknown => Agree.pure ?_
  exact ⟨rfl, hcreated, by rw [hflags]; rfl, hknown⟩

/-- The objects that the type table names are the same. -/
theorem named_iff {R : ContentRelation} {result : OrderedDict ℕ Analyzer.HeapObject} {objs : Objects}
    (h : SameObjects R result objs) (types : OrderedDict ℕ String) :
    (∀ obj ∈ result.values, obj.typeAddress ∈ types.keys) ↔ ∀ obj ∈ objs.result, obj.typeAddress ∈ types.keys := by
  have hmap : result.values.map Analyzer.HeapObject.typeAddress = objs.result.map Object.typeAddress := by
    rw [OrderedDict.values, List.map_map]
    exact List.forall₂_eq_eq_eq ▸ List.forall₂_map_left_iff.2 (List.forall₂_map_right_iff.2
      (h.objects.imp fun _ _ hs => hs.2.typeAddress))
  calc (∀ obj ∈ result.values, obj.typeAddress ∈ types.keys)
      ↔ ∀ a ∈ result.values.map Analyzer.HeapObject.typeAddress, a ∈ types.keys := List.forall_mem_map.symm
    _ ↔ ∀ a ∈ objs.result.map Object.typeAddress, a ∈ types.keys := by rw [hmap]
    _ ↔ ∀ obj ∈ objs.result, obj.typeAddress ∈ types.keys := List.forall_mem_map

/-- **Behind the type table**: Python checks the table before the footer, Go after
it. -/
theorem agree_tail {R : ContentRelation} {header : Analyzer.HeapHeader} {other : Header}
    (hheader : SameHeader header other) {ths : List Analyzer.HeapThread} {ths' : List Thread}
    (hths : List.Forall₂ SameThread ths ths') {result : OrderedDict ℕ Analyzer.HeapObject} {objs : Objects}
    (hobjs : SameObjects R result objs) (types : OrderedDict ℕ String) :
    Agree (LikeHeap R)
      (do
        ensureAll (fun obj : Analyzer.HeapObject => obj.typeAddress ∈ types.keys) Analyzer.missingType result.values
        let footer ← Analyzer.readU64
        ensure (footer = Analyzer.MAGIC) (.heapFormat "invalid PyHeap footer magic value")
        let source ← input
        let stop ← offset
        ensure (stop = source.length) (.heapFormat "unexpected data after PyHeap footer")
        pure ⟨header, ths, result, types, some source⟩)
      (do
        let stop ← u64
        ensure (stop = magic) (.message s!"invalid PyHeap footer magic value: {stop}")
        let source ← input
        let last ← offset
        ensure (last = source.length) (.message "unexpected data after PyHeap footer")
        ensureAll (fun obj : Object => obj.typeAddress ∈ types.keys) missingType objs.result
        pure ⟨other, ths', objs.result, objs.byAddress, types, some source⟩) := by
  by_cases hnamed : ∀ obj ∈ result.values, obj.typeAddress ∈ types.keys
  · rw [ensureAll_of_forall _ hnamed, ensureAll_of_forall _ ((named_iff hobjs types).1 hnamed)]
    refine agree_u64.bind fun stop _ h => ?_
    subst h
    refine (Agree.ensure _ _ Iff.rfl).bind fun _ _ _ => Agree.input.bind fun source _ h => ?_
    subst h
    refine Agree.offset.bind fun last _ h => ?_
    subst h
    exact (Agree.ensure _ _ Iff.rfl).bind fun _ _ _ =>
      Agree.pure ⟨hheader, hths, hobjs.objects, hobjs.index, rfl, rfl⟩
  · refine Agree.of_rejects ((Rejects.ensureAll _ hnamed).bind_left _) ?_
    have hrejects := @Rejects.ensureAll ReadError _ (fun obj : Object => obj.typeAddress ∈ types.keys) _ missingType
      objs.result fun h => hnamed ((named_iff hobjs types).2 h)
    exact Rejects.bind fun _ => Rejects.bind fun _ => Rejects.bind fun _ => Rejects.bind fun _ =>
      Rejects.bind fun _ => hrejects.bind_left _

/-- **Behind the header**, once the container types are known. -/
theorem agree_body {R : ContentRelation} {header : Analyzer.HeapHeader} {other : Header}
    (hheader : SameHeader header other) {known : ContainerTypes}
    (hknown : ContainerTypes.ofKnown header.wellKnownTypes = .ok known) (hcontent : AgreeOnContent R known) :
    Agree (LikeHeap R)
      (do
        let ths ← Analyzer.readThreads
        let frequent ← Analyzer.readStringList
        let common ← Analyzer.readCommonTypes frequent
        let result ← Analyzer.readObjects header frequent common
        let types ← Analyzer.readAddressStringMap
        ensureAll (fun obj : Analyzer.HeapObject => obj.typeAddress ∈ types.keys) Analyzer.missingType result.values
        let footer ← Analyzer.readU64
        ensure (footer = Analyzer.MAGIC) (.heapFormat "invalid PyHeap footer magic value")
        let source ← input
        let stop ← offset
        ensure (stop = source.length) (.heapFormat "unexpected data after PyHeap footer")
        pure ⟨header, ths, result, types, some source⟩)
      (do
        let ths ← threads
        let frequent ← stringList
        let common ← commonTypes frequent
        let objs ← objects other.withStringRepr known frequent common
        let types ← addressStringMap
        let stop ← u64
        ensure (stop = magic) (.message s!"invalid PyHeap footer magic value: {stop}")
        let source ← input
        let last ← offset
        ensure (last = source.length) (.message "unexpected data after PyHeap footer")
        ensureAll (fun obj : Object => obj.typeAddress ∈ types.keys) missingType objs.result
        pure ⟨other, ths, objs.result, objs.byAddress, types, some source⟩) := by
  have hobjects : ∀ frequent common, Agree (SameObjects R) (Analyzer.readObjects header frequent common)
      (objects other.withStringRepr known frequent common) := by
    intro frequent common
    have hlookup : Analyzer.lookupContainerTypes header.wellKnownTypes = pure known := by
      rw [Analyzer.lookupContainerTypes, hknown]
    unfold Analyzer.readObjects objects
    rw [hlookup, ByteParser.pure_bind, hheader.withStringRepr]
    exact agree_u32.bind fun n _ hn => hn ▸ agree_objectsFrom other.withStringRepr hcontent frequent common n
      ⟨.nil, rfl⟩
  refine agree_threads.bind fun ths ths' hths => agree_stringList.bind fun frequent _ h => ?_
  subst h
  refine (agree_commonTypes frequent).bind fun common _ h => ?_
  subst h
  refine (hobjects frequent common).bind fun result objs hobjs => agree_addressStringMap.bind fun types _ h => ?_
  subst h
  exact agree_tail hheader hths hobjs types

/-- The condition under which the readers agree: if the table of well-known types
is parsed, the container types it names differ. -/
def ContainersDiffer (source : List UInt8) : Prop :=
  ∀ header off, Analyzer.readHeader source 0 = .ok (header, off) →
    ∀ known, ContainerTypes.ofKnown header.wellKnownTypes = .ok known → known.Distinct

/-- Without a well-known name the Python reader comes to no end. -/
theorem rejects_of_missing {header : Analyzer.HeapHeader} {name : String}
    (h : ContainerTypes.ofKnown header.wellKnownTypes = .error name) (frequent : List String) (common : Finset ℕ) :
    Rejects (Analyzer.readObjects header frequent common) := by
  have hlookup : Analyzer.lookupContainerTypes header.wellKnownTypes = fail (.keyError name) := by
    rw [Analyzer.lookupContainerTypes, h]
  unfold Analyzer.readObjects
  rw [hlookup]
  exact (Rejects.fail _).bind_left _

/-- **The readers agree** on every byte string on whose contents they agree. -/
theorem read_agree {R : ContentRelation} {source : List UInt8}
    (hcontent : ∀ header off, Analyzer.readHeader source 0 = .ok (header, off) →
      ∀ known, ContainerTypes.ofKnown header.wellKnownTypes = .ok known → AgreeOnContent R known) :
    (∃ heap other off, Analyzer.read source 0 = .ok (heap, off) ∧ read source 0 = .ok (other, off) ∧
      LikeHeap R heap other) ∨
    ((∃ e, Analyzer.read source 0 = .error e) ∧ ∃ e, read source 0 = .error e) := by
  have hheader := agree_headerFields source 0
  have hpython : ∀ {header off}, Analyzer.readHeader source 0 = .ok (header, off) → Analyzer.read source 0 =
      (do
        let ths ← Analyzer.readThreads
        let frequent ← Analyzer.readStringList
        let common ← Analyzer.readCommonTypes frequent
        let result ← Analyzer.readObjects header frequent common
        let types ← Analyzer.readAddressStringMap
        ensureAll (fun obj : Analyzer.HeapObject => obj.typeAddress ∈ types.keys) Analyzer.missingType result.values
        let footer ← Analyzer.readU64
        ensure (footer = Analyzer.MAGIC) (.heapFormat "invalid PyHeap footer magic value")
        let source ← input
        let stop ← offset
        ensure (stop = source.length) (.heapFormat "unexpected data after PyHeap footer")
        pure ⟨header, ths, result, types, some source⟩ : Analyzer.Reader Analyzer.Heap) source off := by
    intro header off h
    simp only [Analyzer.read, Analyzer.readSections, ByteParser.bind_assoc, ByteParser.pure_bind]
    rw [bind_ok h]
  split at hheader
  · rename_i header off other off' hp hg
    obtain ⟨rfl, hsame⟩ := hheader
    rw [hpython hp]
    cases hknown : ContainerTypes.ofKnown header.wellKnownTypes with
    | error name =>
      -- Go stops here, Python at the objects
      have hmissing : requireKnown other.wellKnownTypes =
          fail (.message s!"PyHeap header is missing well-known type \"{name}\"") := by
        rw [requireKnown, ← hsame.wellKnownTypes, hknown]
      refine .inr ⟨?_, ?_⟩
      · exact Rejects.bind (fun _ => Rejects.bind fun frequent => Rejects.bind fun common =>
          (rejects_of_missing hknown frequent common).bind_left _) source off
      · refine ⟨.message s!"PyHeap header is missing well-known type \"{name}\"", ?_⟩
        rw [read, bind_ok hg, hmissing]
        rfl
    | ok known =>
      have hrequire : requireKnown other.wellKnownTypes = pure known := by
        rw [requireKnown, ← hsame.wellKnownTypes, hknown]
      have hbody := agree_body hsame hknown (hcontent header off hp known hknown) source off
      rw [read, bind_ok hg, hrequire, ByteParser.pure_bind]
      split at hbody
      · rename_i heap stop other' stop' hph hgh
        obtain ⟨rfl, hheap⟩ := hbody
        exact .inl ⟨heap, other', stop, hph, hgh, hheap⟩
      · rename_i e e' hph hgh
        exact .inr ⟨⟨e, hph⟩, ⟨e', hgh⟩⟩
      · exact hbody.elim
  · rename_i e e' hp hg
    refine .inr ⟨⟨e, ?_⟩, ⟨e', ?_⟩⟩
    · simp only [Analyzer.read, Analyzer.readSections, ByteParser.bind_assoc]
      exact bind_error hp
    · exact bind_error hg
  · exact hheader.elim

/-- What the two readers return of a byte string on whose contents they agree. -/
theorem readers_like {R : ContentRelation} {source : List UInt8}
    (hcontent : ∀ header off, Analyzer.readHeader source 0 = .ok (header, off) →
      ∀ known, ContainerTypes.ofKnown header.wellKnownTypes = .ok known → AgreeOnContent R known) :
    ((∃ heap, Analyzer.readHeap source = .ok heap) ↔ ∃ other, load source = .ok other) ∧
      ∀ heap other, Analyzer.readHeap source = .ok heap → load source = .ok other → LikeHeap R heap other := by
  unfold Analyzer.readHeap load
  rcases read_agree hcontent with ⟨heap, other, off, hp, hg, hsame⟩ | ⟨⟨e, hp⟩, ⟨e', hg⟩⟩
  · rw [hp, hg]
    refine ⟨⟨fun _ => ⟨other, rfl⟩, fun _ => ⟨heap, rfl⟩⟩, ?_⟩
    rintro heap' other' h h'
    cases h
    cases h'
    exact hsame
  · rw [hp, hg]
    refine ⟨⟨?_, ?_⟩, ?_⟩
    · rintro ⟨heap, h⟩
      cases h
    · rintro ⟨other, h⟩
      cases h
    · intro heap other h
      cases h

/-- **One format.**  On every byte string whose container types differ the Python
reader succeeds exactly when the Go reader does, and both return the same heap. -/
theorem readers_agree {source : List UInt8} (hdiffer : ContainersDiffer source) :
    ((∃ heap, Analyzer.readHeap source = .ok heap) ↔ ∃ other, load source = .ok other) ∧
      ∀ heap other, Analyzer.readHeap source = .ok heap → load source = .ok other → SameHeap heap other := by
  exact readers_like fun header off hread known hknown => agreeOnContent_same (hdiffer header off hread known hknown)

/-- Whatever the container types are, the readers return the same heap but for what its
containers hold. -/
theorem readers_alike {source : List UInt8} {heap : Analyzer.Heap} {other : Heap}
    (hread : Analyzer.readHeap source = .ok heap) (hload : load source = .ok other) :
    LikeHeap BothContainers heap other :=
  (readers_like fun _ _ _ known _ => agreeOnContent_both known).2 heap other hread hload

/-- The container types of an artifact that a writer produced differ. -/
theorem containersDiffer_layout {snapshot : Artifact.Snapshot} {known : ContainerTypes}
    (h : snapshot.Encodable known) : ContainersDiffer (snapshot.layout known) := by
  intro header off hread known' hknown'
  rw [Artifact.readHeader_layoutArtifact h.wellKnown _ _ _ _ hread, Artifact.readBackHeader,
    Artifact.ofKnown_readBackWellKnown h.containers] at hknown'
  cases hknown'
  exact h.distinct

/-- Both readers read the same heap from the sample. -/
theorem readers_agree_fixture :
    ∃ bytes heap other, Artifact.fixture.write "" = .ok bytes ∧ Analyzer.readHeap bytes = .ok heap ∧
      load bytes = .ok other ∧ SameHeap heap other := by
  have h := Artifact.fixture_encodable
  obtain ⟨hiff, hsame⟩ := readers_agree (containersDiffer_layout h)
  have hread := congrArg (Except.map Prod.fst) (Artifact.read_layout h)
  obtain ⟨other, hload⟩ := hiff.1 ⟨_, hread⟩
  exact ⟨_, _, other, Artifact.write_eq h "", hread, hload, hsame _ other hread hload⟩

end Go
end Pydump
