/-
# How the Python reader is built

Every `_read_…` method of `HeapReader` takes bytes at its offset, and branches or
repeats on what it has read.  The exceptions it raises are `HeapFormatError`s; only
the look-up of the container types can raise something else, and it does so for a
table of well-known types that lacks one of their names.
-/

import Pydump.Analyzer.Reader

namespace Pydump
namespace Analyzer

open ByteParser

section

variable {E : ReadError → Prop} (hE : ∀ message, E (.heapFormat message))

include hE

/-- The bytes are taken or their error is raised. -/
theorem built_takeBytes (length : ℕ) : Built E (takeBytes length) := Built.take (fun _ => hE _) length

/-- A number of fixed size. -/
theorem built_unpack (size : ℕ) : Built E (unpack size) := (built_takeBytes hE size).bind fun _ => Built.pure _

/-- A string of known length. -/
theorem built_readString (length : ℕ) : Built E (readString length) :=
  (built_takeBytes hE length).bind fun _ => Built.pure _

/-- A string behind its length. -/
theorem built_readLongString : Built E readLongString := (built_unpack hE 2).bind (built_readString hE)

/-- A string that is passed over. -/
theorem built_skipLongString : Built E skipLongString :=
  (built_unpack hE 2).bind fun length => (built_takeBytes hE length).bind fun _ => Built.pure ()

/-- An index out of range is a `HeapFormatError` too. -/
theorem built_readAttributeName (frequentAttributes : List String) :
    Built E (readAttributeName frequentAttributes) := by
  have hindex : Built E readI16 := (built_unpack hE 2).bind fun _ => Built.pure _
  refine hindex.bind fun lengthOrIndex => Built.ite (built_readString hE _) ?_
  dsimp only
  split
  · exact Built.pure _
  · exact Built.fail (hE _)

/-- A list behind its count. -/
theorem built_readCounted {α : Type} {step : Reader α} (h : Built E step) : Built E (readCounted step) :=
  (built_unpack hE 4).bind fun count => Built.repeatN h count

/-- The addresses by name. -/
theorem built_readStringAddressMap : Built E readStringAddressMap :=
  (built_readCounted hE ((built_readLongString hE).bind fun _ => (built_unpack hE 8).bind fun _ => Built.pure _)).bind
    fun _ => Built.pure _

/-- The names by address. -/
theorem built_readAddressStringMap : Built E readAddressStringMap :=
  (built_readCounted hE ((built_unpack hE 8).bind fun _ => (built_readLongString hE).bind fun _ => Built.pure _)).bind
    fun _ => Built.pure _

/-- A frame of a thread. -/
theorem built_readFrame : Built E readFrame :=
  (built_readLongString hE).bind fun _ => (built_unpack hE 4).bind fun _ => (built_readLongString hE).bind fun _ =>
    (built_readStringAddressMap hE).bind fun _ => Built.pure _

/-- The threads. -/
theorem built_readThreads : Built E readThreads := by
  have hbool : Built E readBool := (built_unpack hE 1).bind fun _ => Built.pure _
  exact built_readCounted hE ((built_readLongString hE).bind fun _ => hbool.bind fun _ => hbool.bind fun _ =>
    (built_readCounted hE (built_readFrame hE)).bind fun _ => Built.pure _)

/-- A list of strings. -/
theorem built_readStringList : Built E readStringList := built_readCounted hE (built_readLongString hE)

/-- Attributes that are passed over. -/
theorem built_skipAttributes (frequentAttributes : List String) : Built E (skipAttributes frequentAttributes) :=
  (built_readCounted hE ((built_readAttributeName hE frequentAttributes).bind fun _ => (built_unpack hE 8).bind
    fun _ => Built.pure ())).bind fun _ => Built.pure ()

/-- The types with the frequent attributes. -/
theorem built_readCommonTypes (frequentAttributes : List String) : Built E (readCommonTypes frequentAttributes) :=
  (built_readCounted hE ((built_unpack hE 8).bind fun _ => (built_skipAttributes hE frequentAttributes).bind
    fun _ => Built.pure _)).bind fun _ => Built.pure _

/-- The content of an object. -/
theorem built_readContent (typeAddress : ℕ) (known : ContainerTypes) : Built E (readContent typeAddress known) := by
  refine Built.ite ?_ (Built.ite ?_ (Built.pure _))
  · have hpair : Built E readAddressPair :=
      (built_unpack hE 8).bind fun _ => (built_unpack hE 8).bind fun _ => Built.pure _
    exact (built_readCounted hE hpair).bind fun _ => Built.pure _
  · exact (built_readCounted hE (built_unpack hE 8)).bind fun _ =>
      Built.ite (Built.pure _) (Built.ite (Built.pure _) (Built.pure _))

/-- The attributes that an object has on its own. -/
theorem built_readOwnAttributes (commonTypes : Finset ℕ) (frequentAttributes : List String) (typeAddress : ℕ) :
    Built E (readOwnAttributes commonTypes frequentAttributes typeAddress) :=
  Built.ite (built_skipAttributes hE frequentAttributes) (Built.pure ())

/-- The offset of a rendering. -/
theorem built_readStringOffset (withStrRepr : Bool) (known : ContainerTypes) (typeAddress : ℕ) :
    Built E (readStringOffset withStrRepr known typeAddress) :=
  Built.ite (Built.offset.bind fun _ => (built_skipLongString hE).bind fun _ => Built.pure _) (Built.pure _)

/-- An object. -/
theorem built_readObject (withStrRepr : Bool) (known : ContainerTypes) (frequentAttributes : List String)
    (commonTypes : Finset ℕ) : Built E (readObject withStrRepr known frequentAttributes commonTypes) := by
  have hset : Built E readAddressSet := (built_readCounted hE (built_unpack hE 8)).bind fun _ => Built.pure _
  exact (built_unpack hE 8).bind fun _ => (built_unpack hE 8).bind fun typeAddress => (built_unpack hE 4).bind fun _ =>
    (built_readContent hE typeAddress known).bind fun _ => hset.bind fun _ =>
      (built_readOwnAttributes hE commonTypes frequentAttributes typeAddress).bind fun _ =>
        (built_readStringOffset hE withStrRepr known typeAddress).bind fun _ => Built.pure _

/-- The objects, from those before. -/
theorem built_readObjectsFrom (withStrRepr : Bool) (known : ContainerTypes) (frequentAttributes : List String)
    (commonTypes : Finset ℕ) (n : ℕ) (result : OrderedDict ℕ HeapObject) :
    Built E (readObjectsFrom withStrRepr known frequentAttributes commonTypes n result) := by
  induction n generalizing result with
  | zero => exact Built.pure result
  | succ n ih =>
    exact (built_readObject hE withStrRepr known frequentAttributes commonTypes).bind fun _ =>
      (Built.ensure (hE _)).bind fun _ => ih _

/-- The header. -/
theorem built_readHeader : Built E readHeader :=
  (built_unpack hE 8).bind fun _ => (Built.ensure (hE _)).bind fun _ => (built_unpack hE 4).bind fun _ =>
    (Built.ensure (hE _)).bind fun _ => (built_readLongString hE).bind fun _ => (built_unpack hE 8).bind fun _ =>
      (built_readStringAddressMap hE).bind fun _ => Built.pure _

end

/-! ### Before and after the container types are looked up -/

/-- What `HeapReader.read` has read when it comes to the objects. -/
structure Front where
  header : HeapHeader
  threads : List HeapThread
  frequentAttributes : List String
  commonTypes : Finset ℕ

/-- The sections before the objects. -/
def readFront : Reader Front := do
  let header ← readHeader
  let threads ← readThreads
  let frequentAttributes ← readStringList
  let commonTypes ← readCommonTypes frequentAttributes
  pure ⟨header, threads, frequentAttributes, commonTypes⟩

/-- The objects and what comes behind them, up to and including the footer. -/
def readBack (front : Front) : Reader Sections := do
  let objects ← readObjects front.header front.frequentAttributes front.commonTypes
  let types ← readAddressStringMap
  ensureAll (fun obj : HeapObject => obj.typeAddress ∈ types.keys) missingType objects.values
  let footer ← readU64
  ensure (footer = MAGIC) (.heapFormat "invalid PyHeap footer magic value")
  pure ⟨front.header, front.threads, objects, types⟩

/-- The sections are the front and the back. -/
theorem readSections_eq : readSections = readFront >>= readBack := by
  simp only [readSections, readFront, readBack, ByteParser.bind_assoc, ByteParser.pure_bind]

section

variable {E : ReadError → Prop} (hE : ∀ message, E (.heapFormat message))

include hE

/-- The front. -/
theorem built_readFront : Built E readFront :=
  (built_readHeader hE).bind fun _ => (built_readThreads hE).bind fun _ => (built_readStringList hE).bind
    fun frequentAttributes => (built_readCommonTypes hE frequentAttributes).bind fun _ => Built.pure _

/-- **Behind the look-up** there are only `HeapFormatError`s; the look-up raises the
`KeyError` of the name that is missing. -/
theorem built_readBack {front : Front}
    (h : ∀ name, ContainerTypes.ofKnown front.header.wellKnownTypes = .error name → E (.keyError name)) :
    Built E (readBack front) := by
  have hlookup : Built E (lookupContainerTypes front.header.wellKnownTypes) := by
    rw [lookupContainerTypes]
    split
    · exact Built.pure _
    · exact Built.fail (h _ ‹_›)
  have hobjects : Built E (readObjects front.header front.frequentAttributes front.commonTypes) :=
    hlookup.bind fun _ => (built_unpack hE 4).bind fun _ => built_readObjectsFrom hE _ _ _ _ _ _
  exact hobjects.bind fun _ => (built_readAddressStringMap hE).bind fun _ =>
    (Built.ensureAll (fun _ => hE _) _).bind fun _ => (built_unpack hE 8).bind fun _ =>
      (Built.ensure (hE _)).bind fun _ => Built.pure _

end

end Analyzer
end Pydump
