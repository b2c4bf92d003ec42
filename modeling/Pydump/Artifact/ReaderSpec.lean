/-
# What the reader makes of the layout

`HeapReader` on the bytes of `Pydump.Artifact.Layout`, part by part, in terms of
`ByteParser.Reads`.  Every layout function has the value its reader returns: a
string comes back as the decoding of the bytes that were kept (`clip`), a list of
pairs as the dictionary it builds, an object as `readBack`.

What an object's reader expects follows from the type address, while the layout
followed the content kind; `KindAgrees` is the agreement of the two, and with it
`reads_object` needs nothing else about the object but that its numbers fit.
-/

import Pydump.Analyzer.Reader
import Pydump.Artifact.Layout

namespace Pydump
namespace Artifact

open Capture
open ByteParser (Reads bind_ok ensure ensureAll)
open Analyzer (ContainerTypes ObjectContent)

/-! ### Strings and counts -/

/-- The text that is left of `s` when its encoding is cut to `limit` bytes. -/
def clip (limit : ℕ) (s : String) : String := Utf8.decode ((Utf8.encode s).take limit)

/-- A string that fits comes back unchanged. -/
theorem clip_of_le {limit : ℕ} {s : String} (h : (Utf8.encode s).length ≤ limit) : clip limit s = s := by
  rw [clip, List.take_of_length_le h, Utf8.decode_encode]

variable {pre : List UInt8}

/-- Bytes are read as they stand. -/
theorem reads_takeBytes (bs : List UInt8) : Reads pre (Analyzer.takeBytes bs.length) bs bs :=
  Reads.take _ bs

/-- A number that fits its size is read back. -/
theorem reads_unpack {size value : ℕ} (h : value < 256 ^ size) :
    Reads pre (Analyzer.unpack size) (BigEndian.encode size value) value := by
  have htake := @reads_takeBytes pre (BigEndian.encode size value)
  rw [BigEndian.length_encode] at htake
  refine htake.bind_pure ?_
  rw [BigEndian.decode_encode h]
  exact Reads.pure value

/-- A number of 32 bits is read back. -/
theorem reads_u32 {value : ℕ} (h : Fits32 value) :
    Reads pre Analyzer.readU32 (BigEndian.encode 4 value) value :=
  reads_unpack (lt_of_le_of_lt h (by norm_num [MAX_UINT32]))

/-- A number of 64 bits is read back. -/
theorem reads_u64 {value : ℕ} (h : Fits64 value) :
    Reads pre Analyzer.readU64 (BigEndian.encode 8 value) value :=
  reads_unpack (lt_of_lt_of_eq h (by norm_num))

/-- A flag is read back. -/
theorem reads_bool (value : Bool) : Reads pre Analyzer.readBool (layoutBool value) value := by
  have h : Reads pre (Analyzer.unpack 1) (layoutBool value) (if value then 1 else 0) := by
    have hlt : (if value then 1 else 0) < 256 ^ 1 := by cases value <;> norm_num
    have := @reads_unpack pre 1 _ hlt
    cases value <;> exact this
  refine h.bind_pure ?_
  cases value <;> exact Reads.pure _

/-- A string is decoded. -/
theorem reads_string (bs : List UInt8) :
    Reads pre (Analyzer.readString bs.length) bs (Utf8.decode bs) :=
  (reads_takeBytes bs).bind_pure (Reads.pure _)

/-- What is kept of a string is within the limit. -/
theorem length_kept_le (limit : ℕ) (s : String) : ((Utf8.encode s).take limit).length ≤ limit := by
  rw [List.length_take]
  exact min_le_left _ _

/-- A string is read back up to the limit. -/
theorem reads_longString (s : String) :
    Reads pre Analyzer.readLongString (layoutString MAX_STRING_SIZE s) (clip MAX_STRING_SIZE s) :=
  (reads_unpack (lt_of_le_of_lt (length_kept_le _ s) (by norm_num [MAX_STRING_SIZE]))).bind
    (reads_string _)

/-- A string is passed over as a whole. -/
theorem reads_skipLongString (s : String) :
    Reads pre Analyzer.skipLongString (layoutString MAX_STRING_SIZE s) () :=
  (reads_unpack (lt_of_le_of_lt (length_kept_le _ s) (by norm_num [MAX_STRING_SIZE]))).bind
    ((reads_takeBytes _).bind_pure (Reads.pure ()))

/-- An attribute name is at most 32767 bytes long, so its length is never taken
for an index. -/
theorem reads_attributeName (frequentAttributes : List String) (s : String) :
    Reads pre (Analyzer.readAttributeName frequentAttributes) (layoutString 0x7FFF s) (clip 0x7FFF s) := by
  have hle := length_kept_le 0x7FFF s
  have hlen : Reads pre Analyzer.readI16
      (BigEndian.encode 2 ((Utf8.encode s).take 0x7FFF).length) (((Utf8.encode s).take 0x7FFF).length : ℤ) := by
    refine (reads_unpack (by omega)).bind_pure ?_
    rw [if_pos (by omega)]
    exact Reads.pure _
  refine hlen.bind ?_
  rw [if_pos (Int.natCast_nonneg _), Int.toNat_natCast]
  exact reads_string _

/-- **A counted section** is read element by element. -/
theorem reads_counted {α β : Type} {step : Analyzer.Reader α} (layout : β → List UInt8) (val : β → α)
    {xs : List β} (hcount : Fits32 xs.length)
    (h : ∀ x ∈ xs, ∀ pre, Reads pre step (layout x) (val x)) :
    Reads pre (Analyzer.readCounted step) (layoutCounted layout xs) (xs.map val) :=
  (reads_u32 hcount).bind (Reads.repeatN layout val xs h _)

/-! ### Header and threads -/

/-- A name with its address is read back. -/
theorem reads_stringAddress {name : String} {address : ℕ} (h : Fits64 address) :
    Reads pre Analyzer.readStringAddress
      (layoutString MAX_STRING_SIZE name ++ BigEndian.encode 8 address)
      (clip MAX_STRING_SIZE name, address) :=
  (reads_longString name).bind ((reads_u64 h).bind_pure (Reads.pure _))

/-- A frame as it comes back. -/
def readBackFrame (frame : ThreadFrame) : Analyzer.HeapThreadFrame where
  fileName := clip MAX_STRING_SIZE frame.filename
  lineNumber := frame.lineno
  functionName := clip MAX_STRING_SIZE frame.function
  locals := .ofPairs (frame.locals.map fun entry => (clip MAX_STRING_SIZE entry.1, entry.2))

/-- A thread as it comes back. -/
def readBackThread (thread : HeapThread) : Analyzer.HeapThread where
  name := clip MAX_STRING_SIZE thread.name
  isAlive := thread.isAlive
  isDaemon := thread.isDaemon
  stackTrace := thread.frames.map readBackFrame

/-- The locals of a frame are read back. -/
theorem reads_locals {locals : List (String × ℕ)} (hcount : Fits32 locals.length)
    (h : ∀ entry ∈ locals, Fits64 entry.2) :
    Reads pre Analyzer.readStringAddressMap (layoutCounted layoutLocal locals)
      (.ofPairs (locals.map fun entry => (clip MAX_STRING_SIZE entry.1, entry.2))) :=
  Reads.bind_pure (reads_counted layoutLocal (fun entry => (clip MAX_STRING_SIZE entry.1, entry.2)) hcount
    fun _ he _ => reads_stringAddress (h _ he)) (Reads.pure _)

/-- A frame is read back. -/
theorem reads_frame {frame : ThreadFrame} (h : FrameFits frame) :
    Reads pre Analyzer.readFrame (layoutFrame frame) (readBackFrame frame) :=
  (reads_longString _).bind ((reads_u32 h.1).bind ((reads_longString _).bind
    ((reads_locals h.2.1 h.2.2).bind_pure (Reads.pure _))))

/-- A thread is read back. -/
theorem reads_thread {thread : HeapThread} (h : ThreadFits thread) :
    Reads pre Analyzer.readThread (layoutThread thread) (readBackThread thread) :=
  (reads_longString _).bind ((reads_bool _).bind ((reads_bool _).bind
    ((reads_counted layoutFrame readBackFrame h.1 fun _ hf _ => reads_frame (h.2 _ hf)).bind_pure
      (Reads.pure _))))

/-- The threads are read back. -/
theorem reads_threads {threads : List HeapThread} (h : ThreadsFit threads) :
    Reads pre Analyzer.readThreads (layoutCounted layoutThread threads) (threads.map readBackThread) :=
  reads_counted layoutThread readBackThread h.1 fun _ ht _ => reads_thread (h.2 _ ht)

/-- The table of well-known types as it comes back. -/
def readBackWellKnown (wellKnownTypes : OrderedDict String ℕ) : OrderedDict String ℕ :=
  .ofPairs (WELL_KNOWN_TYPE_NAMES.map fun name => (name, (wellKnownTypes.find? name).getD 0))

/-- The header as it comes back. -/
def readBackHeader (withStrRepr : Bool) (createdAt : String) (wellKnownTypes : OrderedDict String ℕ) :
    Analyzer.HeapHeader where
  version := FORMAT_VERSION
  createdAt := clip MAX_STRING_SIZE createdAt
  flags := ⟨withStrRepr⟩
  wellKnownTypes := readBackWellKnown wellKnownTypes

/-- The well-known names are within the limit. -/
theorem clip_wellKnown {name : String} (h : name ∈ WELL_KNOWN_TYPE_NAMES) :
    clip MAX_STRING_SIZE name = name := by
  have hshort : ∀ name ∈ WELL_KNOWN_TYPE_NAMES, (Utf8.encode name).length ≤ MAX_STRING_SIZE := by
    decide +kernel
  exact clip_of_le (hshort name h)

/-- The well-known types are read back. -/
theorem reads_wellKnown {wellKnownTypes : OrderedDict String ℕ} (h : WellKnownFits wellKnownTypes) :
    Reads pre Analyzer.readStringAddressMap
      (layoutCounted (layoutWellKnown wellKnownTypes) WELL_KNOWN_TYPE_NAMES)
      (readBackWellKnown wellKnownTypes) := by
  have hcount : Fits32 WELL_KNOWN_TYPE_NAMES.length := by
    norm_num [Fits32, WELL_KNOWN_TYPE_NAMES, MAX_UINT32]
  have hrow : ∀ name ∈ WELL_KNOWN_TYPE_NAMES, ∀ pre, Reads pre Analyzer.readStringAddress
      (layoutWellKnown wellKnownTypes name) (name, (wellKnownTypes.find? name).getD 0) := by
    intro name hn pre
    obtain ⟨address, ha, hfits⟩ := h name hn
    have hread := @reads_stringAddress pre name address hfits
    rw [clip_wellKnown hn] at hread
    rw [layoutWellKnown, ha]
    exact hread
  exact Reads.bind_pure (reads_counted _ _ hcount hrow) (Reads.pure _)

/-- The header is read back. -/
theorem reads_header {withStrRepr : Bool} {wellKnownTypes : OrderedDict String ℕ} (createdAt : String)
    (h : WellKnownFits wellKnownTypes) :
    Reads pre Analyzer.readHeader (layoutHeader withStrRepr createdAt wellKnownTypes)
      (readBackHeader withStrRepr createdAt wellKnownTypes) := by
  have hmagic : Fits64 MAGIC := by norm_num [Fits64, MAGIC]
  have hversion : Fits32 FORMAT_VERSION := by norm_num [Fits32, FORMAT_VERSION, MAX_UINT32]
  have hflags : Fits64 (if withStrRepr then FLAG_WITH_STR_REPR else 0) := by
    cases withStrRepr <;> norm_num [Fits64, FLAG_WITH_STR_REPR]
  have hflag : decide ((if withStrRepr then FLAG_WITH_STR_REPR else 0) &&& Analyzer.FLAG_WITH_STR_REPR ≠ 0) =
      withStrRepr := by
    cases withStrRepr <;> decide
  refine (reads_u64 hmagic).bind ((Reads.ensure _ rfl).nil_bind ((reads_u32 hversion).bind
    ((Reads.ensure _ rfl).nil_bind ((reads_longString createdAt).bind ((reads_u64 hflags).bind
      ((reads_wellKnown h).bind_pure ?_))))))
  rw [hflag]
  exact Reads.pure _

/-! ### Objects -/

/-- The content kind is that of a container exactly when the type address is the
well-known one of that container. -/
structure KindAgrees (known : ContainerTypes) (obj : HeapObject) : Prop where
  dict : obj.contentKind = .dict ↔ obj.typeAddress = known.dict
  list : obj.contentKind = .list ↔ obj.typeAddress = known.list
  set : obj.contentKind = .set ↔ obj.typeAddress = known.set
  tuple : obj.contentKind = .tuple ↔ obj.typeAddress = known.tuple

/-- The content kind that the reader takes a type address for. -/
def kindRead (known : ContainerTypes) (typeAddress : ℕ) : ContentKind :=
  if typeAddress = known.dict then .dict
  else if typeAddress = known.tuple then .tuple
  else if typeAddress = known.set then .set
  else if typeAddress = known.list then .list
  else .none

/-- The kind of an object that agrees is the kind that is read. -/
theorem KindAgrees.kindRead {known : ContainerTypes} {obj : HeapObject} (h : KindAgrees known obj) :
    obj.contentKind = kindRead known obj.typeAddress := by
  obtain ⟨hdict, hlist, hset, htuple⟩ := h
  unfold Artifact.kindRead
  cases hk : obj.contentKind <;> rw [hk] at hdict hlist hset htuple <;>
    simp only [true_iff, reduceCtorEq, false_iff] at hdict hlist hset htuple
  case none => rw [if_neg hdict, if_neg htuple, if_neg hset, if_neg hlist]
  case dict => rw [if_pos hdict]
  case list => rw [if_neg hdict, if_neg htuple, if_neg hset, if_pos hlist]
  case set => rw [if_neg hdict, if_neg htuple, if_pos hset]
  case tuple => rw [if_neg hdict, if_pos htuple]

/-- The content of an object as it comes back. -/
def contentOf (obj : HeapObject) : ObjectContent :=
  match obj.contentKind with
  | .dict => .dict (.ofPairs obj.dictContent)
  | .list => .list obj.sequenceContent
  | .set => .set obj.sequenceContent.toFinset
  | .tuple => .tuple obj.sequenceContent
  | .none => .none

/-- **The container part** is what the reader expects there, once the two agree
on the kind. -/
theorem reads_content {known : ContainerTypes} {obj : HeapObject}
    (hkind : obj.contentKind = kindRead known obj.typeAddress) (h : ContentFits obj) :
    Reads pre (Analyzer.readContent obj.typeAddress known) (layoutContent obj)
      (contentOf obj, contentAddresses obj) := by
  unfold Analyzer.readContent layoutContent contentOf contentAddresses
  rw [ContentFits] at h
  rw [hkind] at h ⊢
  unfold kindRead at h ⊢
  by_cases hdict : obj.typeAddress = known.dict
  · simp only [if_pos hdict] at h ⊢
    have hpairs := @reads_counted pre _ _ Analyzer.readAddressPair layoutPair id obj.dictContent h.1
      fun entry he _ => (reads_u64 (h.2 entry he).1).bind ((reads_u64 (h.2 entry he).2).bind_pure (Reads.pure _))
    rw [List.map_id] at hpairs
    exact hpairs.bind_pure (Reads.pure _)
  simp only [if_neg hdict] at h ⊢
  have hsequence (hfits : Fits32 obj.sequenceContent.length ∧ ∀ address ∈ obj.sequenceContent, Fits64 address) :
      Reads pre (Analyzer.readCounted Analyzer.readU64) (layoutCounted (BigEndian.encode 8) obj.sequenceContent)
        obj.sequenceContent := by
    have hvalues := @reads_counted pre _ _ Analyzer.readU64 (BigEndian.encode 8) id obj.sequenceContent hfits.1
      fun address ha _ => reads_u64 (hfits.2 address ha)
    rwa [List.map_id] at hvalues
  by_cases htuple : obj.typeAddress = known.tuple
  · simp only [if_pos htuple] at h ⊢
    rw [if_pos (.inr (.inl htuple))]
    exact (hsequence h).bind_pure (Reads.pure _)
  simp only [if_neg htuple] at h ⊢
  by_cases hset : obj.typeAddress = known.set
  · simp only [if_pos hset] at h ⊢
    rw [if_pos (.inr (.inr hset))]
    exact (hsequence h).bind_pure (Reads.pure _)
  simp only [if_neg hset] at h ⊢
  by_cases hlist : obj.typeAddress = known.list
  · simp only [if_pos hlist] at h ⊢
    rw [if_pos (.inl hlist)]
    exact (hsequence h).bind_pure (Reads.pure _)
  · simp only [if_neg hlist]
    rw [if_neg (by simp only [hlist, htuple, hset, or_self, not_false_iff])]
    exact Reads.pure _

/-- An object that was laid out from the offset `start` on, as it comes back.  A
container's content joins its referents, and the size was clamped to 32 bits. -/
def readBack (withStrRepr : Bool) (known : ContainerTypes) (start : ℕ) (obj : HeapObject) :
    Analyzer.HeapObject where
  address := obj.address
  typeAddress := obj.typeAddress
  size := clampSize obj.shallowSize
  referents := obj.referents ∪ contentAddresses obj
  content := contentOf obj
  stringRepresentationOffset :=
    if withStrRepr ∧ ¬known.Contains obj.typeAddress then some (start + (layoutFields obj).length) else none

/-- The attributes are passed over as a whole. -/
theorem reads_skipAttributes (frequentAttributes : List String) {attributes : List HeapAttribute}
    (hcount : Fits32 attributes.length) (h : ∀ attr ∈ attributes, Fits64 attr.address) :
    Reads pre (Analyzer.skipAttributes frequentAttributes) (layoutCounted layoutAttribute attributes) () :=
  Reads.bind_pure (reads_counted layoutAttribute (fun _ => ()) hcount fun attr ha _ =>
    (reads_attributeName frequentAttributes attr.name).bind
      ((reads_u64 (h attr ha)).bind_pure (Reads.pure _))) (Reads.pure _)

/-- A set of addresses is read back. -/
theorem reads_addressSet {addresses : List ℕ} (hcount : Fits32 addresses.length)
    (h : ∀ address ∈ addresses, Fits64 address) :
    Reads pre Analyzer.readAddressSet (layoutCounted (BigEndian.encode 8) addresses) addresses.toFinset := by
  have hvalues := @reads_counted pre _ _ Analyzer.readU64 (BigEndian.encode 8) id addresses hcount
    fun address ha _ => reads_u64 (h address ha)
  rw [List.map_id] at hvalues
  exact hvalues.bind_pure (Reads.pure _)

/-- The offset of a rendering is where it stands. -/
theorem reads_stringOffset (withStrRepr : Bool) (known : ContainerTypes) (obj : HeapObject) :
    Reads pre (Analyzer.readStringOffset withStrRepr known obj.typeAddress) (layoutRepr withStrRepr known obj)
      (if withStrRepr ∧ ¬known.Contains obj.typeAddress then some pre.length else none) := by
  unfold Analyzer.readStringOffset layoutRepr
  by_cases h : withStrRepr = true ∧ ¬known.Contains obj.typeAddress
  · rw [if_pos h, if_pos h, if_pos h]
    refine Reads.offset.nil_bind ?_
    exact (reads_skipLongString obj.strRepr).bind_pure (Reads.pure _)
  · rw [if_neg h, if_neg h, if_neg h]
    exact Reads.pure _

/-- **One object.** -/
theorem reads_object (withStrRepr : Bool) {known : ContainerTypes} (frequentAttributes : List String)
    {obj : HeapObject} (hkind : obj.contentKind = kindRead known obj.typeAddress) (h : ObjectFits obj) :
    Reads pre (Analyzer.readObject withStrRepr known frequentAttributes ∅) (layoutObject withStrRepr known obj)
      (readBack withStrRepr known pre.length obj) := by
  obtain ⟨haddress, htype, hcontent, ⟨hcard, hreferents⟩, hattributes, hattribute⟩ := h
  have hsize : Fits32 (clampSize obj.shallowSize) := min_le_right _ _
  have hcount : Fits32 (remainingReferents obj).length := by
    rwa [remainingReferents, Finset.length_sort]
  have hremaining : ∀ address ∈ remainingReferents obj, Fits64 address := fun address ha =>
    hreferents address ((Finset.mem_sort _).1 ha)
  have hset : (remainingReferents obj).toFinset ∪ contentAddresses obj = obj.referents ∪ contentAddresses obj := by
    rw [remainingReferents, Finset.sort_toFinset, Finset.sdiff_union_self_eq_union]
  have hown : ∀ pre, Reads pre (Analyzer.readOwnAttributes ∅ frequentAttributes obj.typeAddress)
      (layoutCounted layoutAttribute obj.attributes) () := by
    intro pre
    rw [Analyzer.readOwnAttributes, if_pos (Finset.notMem_empty _)]
    exact reads_skipAttributes frequentAttributes hattributes hattribute
  rw [layoutObject, layoutFields, List.append_assoc, List.append_assoc, List.append_assoc, List.append_assoc,
    List.append_assoc]
  refine (reads_u64 haddress).bind ((reads_u64 htype).bind ((reads_u32 hsize).bind
    ((reads_content hkind hcontent).bind ((reads_addressSet hcount hremaining).bind ((hown _).bind
      ((reads_stringOffset withStrRepr known obj).bind_pure ?_))))))
  simp only [hset]
  convert Reads.pure _ using 1
  simp only [readBack, layoutFields, List.length_append, Nat.add_assoc]

/-- The objects that were laid out one behind the other from `start` on, as they
come back. -/
def readBackFrom (withStrRepr : Bool) (known : ContainerTypes) : ℕ → List HeapObject → List Analyzer.HeapObject
  | _, [] => []
  | start, obj :: objects =>
    readBack withStrRepr known start obj ::
      readBackFrom withStrRepr known (start + (layoutObject withStrRepr known obj).length) objects

/-- The objects are read back under their addresses. -/
theorem map_address_readBackFrom (withStrRepr : Bool) (known : ContainerTypes) (start : ℕ)
    (objects : List HeapObject) :
    (readBackFrom withStrRepr known start objects).map Analyzer.HeapObject.address =
      objects.map HeapObject.address := by
  induction objects generalizing start with
  | nil => rfl
  | cons obj objects ih => rw [readBackFrom, List.map_cons, List.map_cons, ih, readBack]

/-- Where each object that comes back was laid out. -/
theorem exists_readBackFrom {withStrRepr : Bool} {known : ContainerTypes} {pre : List UInt8}
    {objects : List HeapObject} {obj : HeapObject} (h : obj ∈ objects) :
    ∃ before after, objects.flatMap (layoutObject withStrRepr known) =
        before ++ (layoutObject withStrRepr known obj ++ after) ∧
      readBack withStrRepr known (pre ++ before).length obj ∈
        readBackFrom withStrRepr known pre.length objects := by
  induction objects generalizing pre with
  | nil => cases h
  | cons first objects ih =>
    rw [List.flatMap_cons, readBackFrom]
    rcases List.mem_cons.1 h with rfl | h
    · exact ⟨[], objects.flatMap (layoutObject withStrRepr known), rfl, by
        rw [List.append_nil]; exact List.mem_cons_self⟩
    · obtain ⟨before, after, hbytes, hmem⟩ := @ih (pre ++ layoutObject withStrRepr known first) h
      refine ⟨layoutObject withStrRepr known first ++ before, after, by rw [hbytes, List.append_assoc], ?_⟩
      simp only [List.length_append, Nat.add_assoc] at hmem ⊢
      exact List.mem_cons_of_mem _ hmem

/-- The entry of the object dictionary for an object read. -/
def objectEntry (obj : Analyzer.HeapObject) : ℕ × Analyzer.HeapObject := (obj.address, obj)

/-- **The object loop.**  Distinct addresses pass the check for duplicates. -/
theorem reads_objectsFrom (withStrRepr : Bool) {known : ContainerTypes} (frequentAttributes : List String)
    {objects : List HeapObject} (result : OrderedDict ℕ Analyzer.HeapObject)
    (hkind : ∀ obj ∈ objects, obj.contentKind = kindRead known obj.typeAddress)
    (hfits : ∀ obj ∈ objects, ObjectFits obj)
    (hnodup : (result.keys ++ objects.map HeapObject.address).Nodup) (pre : List UInt8) :
    Reads pre (Analyzer.readObjectsFrom withStrRepr known frequentAttributes ∅ objects.length result)
      (objects.flatMap (layoutObject withStrRepr known))
      (((readBackFrom withStrRepr known pre.length objects).map objectEntry).foldl
        (fun d p => d.insert p.1 p.2) result) := by
  induction objects generalizing result pre with
  | nil => exact Reads.pure _
  | cons obj objects ih =>
    have hnew : obj.address ∉ result.keys := fun hm =>
      (List.nodup_append.1 hnodup).2.2 _ hm _ List.mem_cons_self rfl
    have hkeys : (result.insert obj.address (readBack withStrRepr known pre.length obj)).keys =
        result.keys ++ [obj.address] := by
      rw [OrderedDict.keys_insert, if_neg hnew]
    have hrest := ih (result.insert obj.address (readBack withStrRepr known pre.length obj))
      (fun o ho => hkind o (List.mem_cons_of_mem obj ho)) (fun o ho => hfits o (List.mem_cons_of_mem obj ho))
      (by rw [hkeys, List.append_assoc]; exact hnodup) (pre ++ layoutObject withStrRepr known obj)
    rw [List.length_append] at hrest
    rw [List.flatMap_cons, readBackFrom, List.map_cons, List.foldl_cons]
    exact (reads_object withStrRepr frequentAttributes (hkind obj List.mem_cons_self)
      (hfits obj List.mem_cons_self)).bind ((Reads.ensure _ hnew).nil_bind hrest)

/-! ### The whole artifact -/

/-- The type table as it comes back. -/
def readBackTypes (types : OrderedDict ℕ String) : OrderedDict ℕ String :=
  .ofPairs ((sortedTypes types).map fun entry => (entry.1, clip MAX_STRING_SIZE entry.2))

/-- The sorted types are the entries. -/
theorem sortedTypes_perm (types : OrderedDict ℕ String) : (sortedTypes types).Perm types.entries :=
  List.mergeSort_perm _ _

/-- The types are read back under their addresses. -/
theorem mem_keys_readBackTypes {types : OrderedDict ℕ String} {address : ℕ} :
    address ∈ (readBackTypes types).keys ↔ address ∈ types.keys := by
  rw [readBackTypes, OrderedDict.mem_keys_ofPairs, List.map_map, OrderedDict.keys]
  exact ((sortedTypes_perm types).map Prod.fst).mem_iff

/-- The sections of the artifact as they come back. -/
def readBackSections (withStrRepr : Bool) (createdAt : String) (wellKnownTypes : OrderedDict String ℕ)
    (known : ContainerTypes) (threads : List HeapThread) (objects : List HeapObject)
    (types : OrderedDict ℕ String) : Analyzer.Sections where
  header := readBackHeader withStrRepr createdAt wellKnownTypes
  threads := threads.map readBackThread
  objects := .ofPairs ((readBackFrom withStrRepr known
    ((layoutPreamble withStrRepr createdAt wellKnownTypes threads).length + 4) objects).map objectEntry)
  types := readBackTypes types

/-- An object that comes back was laid out somewhere. -/
theorem exists_of_mem_readBackFrom {withStrRepr : Bool} {known : ContainerTypes} {start : ℕ}
    {objects : List HeapObject} {o : Analyzer.HeapObject}
    (h : o ∈ readBackFrom withStrRepr known start objects) :
    ∃ obj ∈ objects, ∃ offset, o = readBack withStrRepr known offset obj := by
  induction objects generalizing start with
  | nil => cases h
  | cons first objects ih =>
    rcases List.mem_cons.1 h with rfl | h
    · exact ⟨first, List.mem_cons_self, start, rfl⟩
    · obtain ⟨obj, hobj, offset, rfl⟩ := ih h
      exact ⟨obj, List.mem_cons_of_mem first hobj, offset, rfl⟩

/-- **The objects that come back**, in the order of the file. -/
theorem entries_readBackSections {withStrRepr : Bool} {createdAt : String}
    {wellKnownTypes : OrderedDict String ℕ} {known : ContainerTypes} {threads : List HeapThread}
    {objects : List HeapObject} {types : OrderedDict ℕ String}
    (hnodup : (objects.map HeapObject.address).Nodup) :
    (readBackSections withStrRepr createdAt wellKnownTypes known threads objects types).objects.entries =
      (readBackFrom withStrRepr known
        ((layoutPreamble withStrRepr createdAt wellKnownTypes threads).length + 4) objects).map objectEntry := by
  refine OrderedDict.entries_ofPairs ?_
  rw [List.map_map]
  exact (map_address_readBackFrom withStrRepr known _ objects).symm ▸ hnodup

/-- The table that comes back names the same container types. -/
theorem ofKnown_readBackWellKnown {wellKnownTypes : OrderedDict String ℕ} {known : ContainerTypes}
    (h : ContainerTypes.ofKnown wellKnownTypes = .ok known) :
    ContainerTypes.ofKnown (readBackWellKnown wellKnownTypes) = .ok known := by
  obtain ⟨hd, hl, hs, ht⟩ := ContainerTypes.ofKnown_eq_ok.1 h
  refine ContainerTypes.ofKnown_eq_ok.2 ⟨?_, ?_, ?_, ?_⟩
  all_goals
    rw [readBackWellKnown, OrderedDict.find?_ofPairs]
    simp [WELL_KNOWN_TYPE_NAMES, OrderedDict.lookupEntries, hd, hl, hs, ht]

/-- The type table is read back. -/
theorem reads_types {types : OrderedDict ℕ String} (h : TypesFit types) :
    Reads pre Analyzer.readAddressStringMap (layoutCounted layoutType (sortedTypes types))
      (readBackTypes types) := by
  have hcount : Fits32 (sortedTypes types).length := by
    rw [(sortedTypes_perm types).length_eq]
    exact h.1
  have hrow : ∀ entry ∈ sortedTypes types, ∀ pre, Reads pre Analyzer.readAddressString (layoutType entry)
      (entry.1, clip MAX_STRING_SIZE entry.2) := fun entry he _ =>
    (reads_u64 (h.2 _ (List.mem_map_of_mem ((sortedTypes_perm types).mem_iff.1 he)))).bind
      ((reads_longString entry.2).bind_pure (Reads.pure _))
  exact Reads.bind_pure (reads_counted _ _ hcount hrow) (Reads.pure _)

/-- **The object section** with its count. -/
theorem reads_objects {withStrRepr : Bool} {wellKnownTypes : OrderedDict String ℕ} {known : ContainerTypes}
    (h : ContainerTypes.ofKnown wellKnownTypes = .ok known) (createdAt : String)
    (frequentAttributes : List String) {objects : List HeapObject} (hcount : Fits32 objects.length)
    (hkind : ∀ obj ∈ objects, obj.contentKind = kindRead known obj.typeAddress)
    (hfits : ∀ obj ∈ objects, ObjectFits obj) (hnodup : (objects.map HeapObject.address).Nodup) (pre : List UInt8) :
    Reads pre
      (Analyzer.readObjects (readBackHeader withStrRepr createdAt wellKnownTypes) frequentAttributes ∅)
      (layoutCounted (layoutObject withStrRepr known) objects)
      (.ofPairs ((readBackFrom withStrRepr known (pre.length + 4) objects).map objectEntry)) := by
  have hlookup : Analyzer.lookupContainerTypes (readBackHeader withStrRepr createdAt wellKnownTypes).wellKnownTypes =
      pure known := by
    rw [Analyzer.lookupContainerTypes, readBackHeader, ofKnown_readBackWellKnown h]
  have hloop := reads_objectsFrom withStrRepr frequentAttributes .empty hkind hfits
    (by simpa [OrderedDict.keys, OrderedDict.empty] using hnodup) (pre ++ BigEndian.encode 4 objects.length)
  rw [List.length_append, BigEndian.length_encode] at hloop
  unfold Analyzer.readObjects
  rw [hlookup]
  exact (Reads.pure known).nil_bind ((reads_u32 hcount).bind hloop)

/-- **Every section comes back.** -/
theorem reads_sections {withStrRepr : Bool} {createdAt : String} {wellKnownTypes : OrderedDict String ℕ}
    {known : ContainerTypes} (h : ContainerTypes.ofKnown wellKnownTypes = .ok known)
    {threads : List HeapThread} {objects : List HeapObject} {types : OrderedDict ℕ String}
    (hwk : WellKnownFits wellKnownTypes) (hthreads : ThreadsFit threads) (hcount : Fits32 objects.length)
    (hfits : ∀ obj ∈ objects, ObjectFits obj)
    (hkind : ∀ obj ∈ objects, obj.contentKind = kindRead known obj.typeAddress)
    (hnodup : (objects.map HeapObject.address).Nodup) (htypes : TypesFit types)
    (hcover : ∀ obj ∈ objects, obj.typeAddress ∈ types.keys) :
    Reads [] Analyzer.readSections (layoutArtifact withStrRepr createdAt wellKnownTypes known threads objects types)
      (readBackSections withStrRepr createdAt wellKnownTypes known threads objects types) := by
  have hmagic : Fits64 MAGIC := by norm_num [Fits64, MAGIC]
  have hzero : Fits32 0 := Nat.zero_le _
  -- the two compression tables are empty
  have hfrequent : ∀ pre, Reads pre Analyzer.readStringList (BigEndian.encode 4 0) [] := fun pre =>
    (reads_u32 hzero).bind_pure (Reads.pure [])
  have hcommon : ∀ pre, Reads pre (Analyzer.readCommonTypes []) (BigEndian.encode 4 0) ∅ := fun pre =>
    Reads.bind_pure (Reads.bind_pure (reads_u32 hzero) (Reads.pure [])) (Reads.pure _)
  let objects' := (readBackSections withStrRepr createdAt wellKnownTypes known threads objects types).objects
  have hobjects : Reads ([] ++ layoutHeader withStrRepr createdAt wellKnownTypes ++
      layoutCounted layoutThread threads ++ BigEndian.encode 4 0 ++ BigEndian.encode 4 0)
      (Analyzer.readObjects (readBackHeader withStrRepr createdAt wellKnownTypes) [] ∅)
      (layoutCounted (layoutObject withStrRepr known) objects) objects' := by
    simp only [objects', readBackSections, layoutPreamble, List.nil_append, ← List.append_assoc]
    exact reads_objects h createdAt [] hcount hkind hfits hnodup _
  have hnamed : ∀ pre, Reads pre (ensureAll
      (fun obj : Analyzer.HeapObject => obj.typeAddress ∈ (readBackTypes types).keys) Analyzer.missingType
      objects'.values) [] () := by
    refine fun pre => Reads.ensureAll _ fun o ho => ?_
    rw [OrderedDict.values, entries_readBackSections hnodup, List.map_map] at ho
    obtain ⟨o', ho', rfl⟩ := List.mem_map.1 ho
    obtain ⟨obj, hobj, offset, rfl⟩ := exists_of_mem_readBackFrom ho'
    exact mem_keys_readBackTypes.2 (hcover obj hobj)
  rw [layoutArtifact, layoutPreamble, layoutTypes, List.append_assoc, List.append_assoc, List.append_assoc]
  exact (reads_header createdAt hwk).bind ((reads_threads hthreads).bind ((hfrequent _).bind
    ((hcommon _).bind (hobjects.bind ((reads_types htypes).bind ((hnamed _).nil_bind
      ((reads_u64 hmagic).bind_pure ((Reads.ensure _ rfl).nil_bind (Reads.pure _)))))))))

/-- The header is what is read first. -/
theorem readHeader_layoutArtifact {withStrRepr : Bool} {createdAt : String} {wellKnownTypes : OrderedDict String ℕ}
    (hwk : WellKnownFits wellKnownTypes) (known : ContainerTypes) (threads : List HeapThread)
    (objects : List HeapObject) (types : OrderedDict ℕ String) {header : Analyzer.HeapHeader} {off : ℕ}
    (h : Analyzer.readHeader (layoutArtifact withStrRepr createdAt wellKnownTypes known threads objects types) 0 =
      .ok (header, off)) : header = readBackHeader withStrRepr createdAt wellKnownTypes := by
  have hheader := @reads_header [] withStrRepr _ createdAt hwk
  rw [layoutArtifact, layoutPreamble, List.append_assoc] at h
  exact (Prod.mk.inj (Except.ok.inj (h.symm.trans (hheader _)))).1

/-- `read` adds the source and the check that nothing follows. -/
theorem read_of_readSections {source : List UInt8} {sections : Analyzer.Sections}
    (h : Analyzer.readSections source 0 = .ok (sections, source.length)) :
    Analyzer.read source 0 =
      .ok (⟨sections.header, sections.threads, sections.objects, sections.types, some source⟩, source.length) := by
  have hinput : (ByteParser.input : Analyzer.Reader _) source source.length = .ok (source, source.length) := rfl
  have hoffset : (ByteParser.offset : Analyzer.Reader ℕ) source source.length =
      .ok (source.length, source.length) := rfl
  rw [Analyzer.read, bind_ok h, bind_ok hinput, bind_ok hoffset, ensure, if_pos rfl]
  rfl

/-- The heap that comes back. -/
def readBackHeap (withStrRepr : Bool) (createdAt : String) (wellKnownTypes : OrderedDict String ℕ)
    (known : ContainerTypes) (threads : List HeapThread) (objects : List HeapObject)
    (types : OrderedDict ℕ String) : Analyzer.Heap where
  header := readBackHeader withStrRepr createdAt wellKnownTypes
  threads := threads.map readBackThread
  objects := (readBackSections withStrRepr createdAt wellKnownTypes known threads objects types).objects
  types := readBackTypes types
  source := some (layoutArtifact withStrRepr createdAt wellKnownTypes known threads objects types)

/-- **The reader takes the whole artifact** and returns the heap laid out in it. -/
theorem read_layoutArtifact {withStrRepr : Bool} {createdAt : String} {wellKnownTypes : OrderedDict String ℕ}
    {known : ContainerTypes} (h : ContainerTypes.ofKnown wellKnownTypes = .ok known)
    {threads : List HeapThread} {objects : List HeapObject} {types : OrderedDict ℕ String}
    (hwk : WellKnownFits wellKnownTypes) (hthreads : ThreadsFit threads) (hcount : Fits32 objects.length)
    (hfits : ∀ obj ∈ objects, ObjectFits obj)
    (hkind : ∀ obj ∈ objects, obj.contentKind = kindRead known obj.typeAddress)
    (hnodup : (objects.map HeapObject.address).Nodup) (htypes : TypesFit types)
    (hcover : ∀ obj ∈ objects, obj.typeAddress ∈ types.keys) :
    Analyzer.read (layoutArtifact withStrRepr createdAt wellKnownTypes known threads objects types) 0 =
      .ok (readBackHeap withStrRepr createdAt wellKnownTypes known threads objects types,
        (layoutArtifact withStrRepr createdAt wellKnownTypes known threads objects types).length) := by
  have hsections := (@reads_sections withStrRepr createdAt _ _ h _ _ _ hwk hthreads hcount hfits hkind hnodup
    htypes hcover).run
  exact read_of_readSections hsections

end Artifact
end Pydump
