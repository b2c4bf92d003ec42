/-
# The Python reader of a PyHeap v1 artifact

`analyzer/python/src/pydump_analyzer/reader.py`, `HeapReader`: one pass over the
artifact with an offset.  Every `_read_…` method is a `ByteParser.Parser` whose
error says which exception leaves it: `HeapFormatError` with its text, or the
`KeyError` that `known["dict"]` raises when the artifact's own table of
well-known types has no such name.

A dict comprehension is `OrderedDict.ofPairs` of the pairs in reading order and
a set comprehension the `Finset` of the values read.
-/

import Pydump.Analyzer.Model
import Pydump.Lib.ByteParser

namespace Pydump
namespace Analyzer

open ByteParser

/-- The exceptions that leave `HeapReader.read`. -/
inductive ReadError
  | heapFormat (message : String)
  | keyError (name : String)
  deriving DecidableEq

/-- A method of `HeapReader`. -/
abbrev Reader (α : Type) : Type := Parser ReadError α

def MAGIC : ℕ := 123000321
def FORMAT_VERSION : ℕ := 1
def FLAG_WITH_STR_REPR : ℕ := 1

/-- `0x{n:x}`. -/
def hexAddress (n : ℕ) : String := "0x" ++ String.ofList (Nat.toDigits 16 n)

/-- `HeapFormatError(f"truncated PyHeap data at offset {offset}")`. -/
def truncated (offset : ℕ) : ReadError := .heapFormat s!"truncated PyHeap data at offset {offset}"

/-- `_take`, and the bytes `_unpack` looks at. -/
def takeBytes (length : ℕ) : Reader (List UInt8) := take truncated length

/-- `_unpack` of an unsigned big-endian struct of `size` bytes. -/
def unpack (size : ℕ) : Reader ℕ := do
  let bytes ← takeBytes size
  pure (BigEndian.decode bytes)

def readU16 : Reader ℕ := unpack 2
def readU32 : Reader ℕ := unpack 4
def readU64 : Reader ℕ := unpack 8

/-- `_read_bool`: any byte but zero is true. -/
def readBool : Reader Bool := do
  let value ← unpack 1
  pure (decide (value ≠ 0))

/-- `_read_i16`: two's complement. -/
def readI16 : Reader ℤ := do
  let value ← unpack 2
  pure (if value < 2 ^ 15 then value else (value : ℤ) - 2 ^ 16)

def readString (length : ℕ) : Reader String := do
  let bytes ← takeBytes length
  pure (Utf8.decode bytes)

def readLongString : Reader String := do
  let length ← readU16
  readString length

def skipLongString : Reader Unit := do
  let length ← readU16
  let _ ← takeBytes length
  pure ()

/-- `_read_attribute_name`: a short string, or an index into the table of
frequent attributes. -/
def readAttributeName (frequentAttributes : List String) : Reader String := do
  let lengthOrIndex ← readI16
  if 0 ≤ lengthOrIndex then readString lengthOrIndex.toNat
  else
    let index := (-(lengthOrIndex + 1)).toNat
    match frequentAttributes[index]? with
    | some name => pure name
    | none => fail (.heapFormat s!"invalid frequent attribute index: {index}")

/-- The loop `for _ in range(self._read_u32())` around `step`. -/
def readCounted {α : Type} (step : Reader α) : Reader (List α) := do
  let count ← readU32
  repeatN count step

def readStringAddress : Reader (String × ℕ) := do
  let name ← readLongString
  let address ← readU64
  pure (name, address)

def readAddressString : Reader (ℕ × String) := do
  let address ← readU64
  let name ← readLongString
  pure (address, name)

def readAddressPair : Reader (ℕ × ℕ) := do
  let key ← readU64
  let value ← readU64
  pure (key, value)

def readStringAddressMap : Reader (OrderedDict String ℕ) := do
  let pairs ← readCounted readStringAddress
  pure (.ofPairs pairs)

def readAddressStringMap : Reader (OrderedDict ℕ String) := do
  let pairs ← readCounted readAddressString
  pure (.ofPairs pairs)

def readStringList : Reader (List String) := readCounted readLongString

def readAddressSet : Reader (Finset ℕ) := do
  let values ← readCounted readU64
  pure values.toFinset

/-- One frame of `_read_threads`. -/
def readFrame : Reader HeapThreadFrame := do
  let fileName ← readLongString
  let lineNumber ← readU32
  let functionName ← readLongString
  let localVariables ← readStringAddressMap
  pure ⟨fileName, lineNumber, functionName, localVariables⟩

/-- One thread of `_read_threads`. -/
def readThread : Reader HeapThread := do
  let name ← readLongString
  let isAlive ← readBool
  let isDaemon ← readBool
  let frames ← readCounted readFrame
  pure ⟨name, isAlive, isDaemon, frames⟩

def readThreads : Reader (List HeapThread) := readCounted readThread

/-- One attribute that is read and dropped. -/
def skipAttribute (frequentAttributes : List String) : Reader Unit := do
  let _ ← readAttributeName frequentAttributes
  let _ ← readU64
  pure ()

def skipAttributes (frequentAttributes : List String) : Reader Unit := do
  let _ ← readCounted (skipAttribute frequentAttributes)
  pure ()

/-- One entry of `_read_common_types`. -/
def readCommonType (frequentAttributes : List String) : Reader ℕ := do
  let address ← readU64
  skipAttributes frequentAttributes
  pure address

def readCommonTypes (frequentAttributes : List String) : Reader (Finset ℕ) := do
  let addresses ← readCounted (readCommonType frequentAttributes)
  pure addresses.toFinset

/-- `_read_content`: the layout follows from the type address alone, tested in
the order dict, then tuple and set before list. -/
def readContent (typeAddress : ℕ) (known : ContainerTypes) : Reader (ObjectContent × Finset ℕ) :=
  if typeAddress = known.dict then do
    let pairs ← readCounted readAddressPair
    pure (.dict (.ofPairs pairs), (pairs.map Prod.fst).toFinset ∪ (pairs.map Prod.snd).toFinset)
  else if typeAddress = known.list ∨ typeAddress = known.tuple ∨ typeAddress = known.set then do
    let values ← readCounted readU64
    if typeAddress = known.tuple then pure (.tuple values, values.toFinset)
    else if typeAddress = known.set then pure (.set values.toFinset, values.toFinset)
    else pure (.list values, values.toFinset)
  else pure (.none, ∅)

/-- The attributes of an object, which those of a common type do not repeat. -/
def readOwnAttributes (commonTypes : Finset ℕ) (frequentAttributes : List String) (typeAddress : ℕ) :
    Reader Unit :=
  if typeAddress ∉ commonTypes then skipAttributes frequentAttributes else pure ()

/-- `string_offset`: where the string of an object that has one begins. -/
def readStringOffset (withStrRepr : Bool) (known : ContainerTypes) (typeAddress : ℕ) :
    Reader (Option ℕ) :=
  if withStrRepr ∧ ¬known.Contains typeAddress then do
    let stringOffset ← offset
    skipLongString
    pure (some stringOffset)
  else pure none

/-- One object of `_read_objects`. -/
def readObject (withStrRepr : Bool) (known : ContainerTypes) (frequentAttributes : List String)
    (commonTypes : Finset ℕ) : Reader HeapObject := do
  let address ← readU64
  let typeAddress ← readU64
  let size ← readU32
  let (content, contentReferents) ← readContent typeAddress known
  let referents ← readAddressSet
  readOwnAttributes commonTypes frequentAttributes typeAddress
  let stringOffset ← readStringOffset withStrRepr known typeAddress
  pure ⟨address, typeAddress, size, referents ∪ contentReferents, content, stringOffset⟩

/-- The loop of `_read_objects`: `n` objects still to come, `result` so far. -/
def readObjectsFrom (withStrRepr : Bool) (known : ContainerTypes) (frequentAttributes : List String)
    (commonTypes : Finset ℕ) : ℕ → OrderedDict ℕ HeapObject → Reader (OrderedDict ℕ HeapObject)
  | 0, result => pure result
  | n + 1, result => do
    let obj ← readObject withStrRepr known frequentAttributes commonTypes
    ensure (obj.address ∉ result.keys)
      (.heapFormat s!"duplicate object address {hexAddress obj.address}")
    readObjectsFrom withStrRepr known frequentAttributes commonTypes n (result.insert obj.address obj)

/-- `known["dict"]` and its three siblings. -/
def lookupContainerTypes (wellKnownTypes : OrderedDict String ℕ) : Reader ContainerTypes :=
  match ContainerTypes.ofKnown wellKnownTypes with
  | .ok known => pure known
  | .error name => fail (.keyError name)

def readObjects (header : HeapHeader) (frequentAttributes : List String) (commonTypes : Finset ℕ) :
    Reader (OrderedDict ℕ HeapObject) := do
  let known ← lookupContainerTypes header.wellKnownTypes
  let count ← readU32
  readObjectsFrom header.flags.withStrRepr known frequentAttributes commonTypes count .empty

/-- The part of `HeapReader.read` that fills the header. -/
def readHeader : Reader HeapHeader := do
  let start ← readU64
  ensure (start = MAGIC) (.heapFormat "invalid PyHeap magic value")
  let version ← readU32
  ensure (version = FORMAT_VERSION) (.heapFormat s!"unsupported PyHeap format version: {version}")
  let createdAt ← readLongString
  let flags ← readU64
  let wellKnownTypes ← readStringAddressMap
  pure ⟨version, createdAt, ⟨decide (flags &&& FLAG_WITH_STR_REPR ≠ 0)⟩, wellKnownTypes⟩

/-- `HeapFormatError` for an object whose type the type table does not name. -/
def missingType (obj : HeapObject) : ReadError :=
  .heapFormat s!"PyHeap type table is missing address {hexAddress obj.typeAddress} for object {hexAddress obj.address}"

/-- What `HeapReader.read` has read once the footer is checked. -/
structure Sections where
  header : HeapHeader
  threads : List HeapThread
  objects : OrderedDict ℕ HeapObject
  types : OrderedDict ℕ String

/-- `HeapReader.read` up to and including the footer. -/
def readSections : Reader Sections := do
  let header ← readHeader
  let threads ← readThreads
  let frequentAttributes ← readStringList
  let commonTypes ← readCommonTypes frequentAttributes
  let objects ← readObjects header frequentAttributes commonTypes
  let types ← readAddressStringMap
  ensureAll (fun obj : HeapObject => obj.typeAddress ∈ types.keys) missingType objects.values
  let footer ← readU64
  ensure (footer = MAGIC) (.heapFormat "invalid PyHeap footer magic value")
  pure ⟨header, threads, objects, types⟩

/-- `HeapReader.read`. -/
def read : Reader Heap := do
  let sections ← readSections
  let source ← input
  let stop ← offset
  ensure (stop = source.length) (.heapFormat "unexpected data after PyHeap footer")
  pure ⟨sections.header, sections.threads, sections.objects, sections.types, some source⟩

/-- `HeapReader(source).read()`. -/
def readHeap (source : List UInt8) : Except ReadError Heap :=
  (read source 0).map Prod.fst

end Analyzer
end Pydump
