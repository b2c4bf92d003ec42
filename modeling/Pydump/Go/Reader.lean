/-
# The Go reader of a PyHeap v1 artifact

`analyzer/go/internal/heap/reader.go`.  A method of `reader` is a
`ByteParser.Parser`; `readExact` and `io.CopyN` fail where fewer bytes are left
than they are to read, with the offset the method started at.  The well-known
names are checked in the header, and the type table after the footer.

`append(extra, contentReferents...)` never writes into the slice that becomes
`Sequence`: `extra` is exactly as long as its capacity, so a non-empty append
moves it.
-/

import Pydump.Go.Model
import Pydump.Lib.ByteParser

namespace Pydump
namespace Go

open ByteParser

/-- The errors of `read`: a text, or `truncated PyHeap data at offset …` with the
error of the stream behind it. -/
inductive ReadError
  | message (text : String)
  | truncated (offset : ℕ)
  deriving DecidableEq

/-- A method of `reader`. -/
abbrev Reader (α : Type) : Type := Parser ReadError α

def magic : ℕ := 123000321
def formatVersion : ℕ := 1
def flagWithStringRepr : ℕ := 1

/-- `readExact`. -/
def readExact (length : ℕ) : Reader (List UInt8) := take .truncated length

/-- `u16`, `u32` and `u64`: a big-endian integer of `size` bytes. -/
def unsigned (size : ℕ) : Reader ℕ := do
  let value ← readExact size
  pure (BigEndian.decode value)

def u16 : Reader ℕ := unsigned 2
def u32 : Reader ℕ := unsigned 4
def u64 : Reader ℕ := unsigned 8

/-- `i16`: `int16(value)`. -/
def i16 : Reader ℤ := do
  let value ← u16
  pure (if value < 2 ^ 15 then value else (value : ℤ) - 2 ^ 16)

/-- `boolean`. -/
def boolean : Reader Bool := do
  let value ← readExact 1
  pure (decide (BigEndian.decode value ≠ 0))

/-- `string`. -/
def string (length : ℕ) : Reader String := do
  let value ← readExact length
  pure (decodeUTF8BackslashReplace value)

def longString : Reader String := do
  let length ← u16
  string length

/-- `skipLongString`; `io.CopyN` fails like `readExact`. -/
def skipLongString : Reader Unit := do
  let length ← u16
  let _ ← readExact length
  pure ()

def attributeName (frequent : List String) : Reader String := do
  let lengthOrIndex ← i16
  if 0 ≤ lengthOrIndex then string lengthOrIndex.toNat
  else
    let index := (-(lengthOrIndex + 1)).toNat
    match frequent[index]? with
    | some name => pure name
    | none => fail (.message s!"invalid frequent attribute index: {index}")

/-- The loop `for range count` with its `u32` count. -/
def counted {α : Type} (step : Reader α) : Reader (List α) := do
  let count ← u32
  repeatN count step

def addresses : Reader (List ℕ) := counted u64

def stringList : Reader (List String) := counted longString

def stringAddress : Reader (String × ℕ) := do
  let name ← longString
  let address ← u64
  pure (name, address)

def stringAddressMap : Reader (OrderedDict String ℕ) := do
  let pairs ← counted stringAddress
  pure (.ofPairs pairs)

def addressString : Reader (ℕ × String) := do
  let address ← u64
  let name ← longString
  pure (address, name)

def addressStringMap : Reader (OrderedDict ℕ String) := do
  let pairs ← counted addressString
  pure (.ofPairs pairs)

/-- One frame of `threads`. -/
def frame : Reader ThreadFrame := do
  let fileName ← longString
  let line ← u32
  let function ← longString
  let localVariables ← stringAddressMap
  pure ⟨fileName, line, function, localVariables⟩

/-- One thread of `threads`. -/
def thread : Reader Thread := do
  let name ← longString
  let alive ← boolean
  let daemon ← boolean
  let frames ← counted frame
  pure ⟨name, alive, daemon, frames⟩

def threads : Reader (List Thread) := counted thread

/-- One attribute that is read and dropped. -/
def skipAttribute (frequent : List String) : Reader Unit := do
  let _ ← attributeName frequent
  let _ ← u64
  pure ()

/-- The attributes of an object or a common type. -/
def skipAttributes (frequent : List String) : Reader Unit := do
  let _ ← counted (skipAttribute frequent)
  pure ()

def commonType (frequent : List String) : Reader ℕ := do
  let address ← u64
  skipAttributes frequent
  pure address

/-- `commonTypes`: the keys of the result. -/
def commonTypes (frequent : List String) : Reader (Finset ℕ) := do
  let result ← counted (commonType frequent)
  pure result.toFinset

/-- Drop every element that equals the one before it. -/
def dropRepeated : List ℕ → List ℕ
  | [] => []
  | [value] => [value]
  | value :: next :: rest =>
    if value = next then dropRepeated (next :: rest) else value :: dropRepeated (next :: rest)

/-- `uniqueSorted`. -/
def uniqueSorted (values : List ℕ) : List ℕ := dropRepeated (values.mergeSort fun a b => decide (a ≤ b))

def dictEntry : Reader (ℕ × ℕ) := do
  let key ← u64
  let value ← u64
  pure (key, value)

/-- The four results of `content`. -/
structure Content where
  kind : ContentKind
  sequence : List ℕ
  dict : List (ℕ × ℕ)
  referents : List ℕ

/-- `content`. -/
def content (typeAddress : ℕ) (known : Analyzer.ContainerTypes) : Reader Content :=
  if typeAddress = known.dict then do
    let entries ← counted dictEntry
    pure ⟨.dict, [], entries, entries.flatMap fun entry => [entry.1, entry.2]⟩
  else if typeAddress = known.list ∨ typeAddress = known.set ∨ typeAddress = known.tuple then do
    let values ← addresses
    if typeAddress = known.set then pure ⟨.set, uniqueSorted values, [], uniqueSorted values⟩
    else if typeAddress = known.tuple then pure ⟨.tuple, values, [], values⟩
    else pure ⟨.list, values, [], values⟩
  else pure ⟨.none, [], [], []⟩

/-- The attributes of an object whose type is not common. -/
def ownAttributes (commonTypes : Finset ℕ) (frequent : List String) (typeAddress : ℕ) : Reader Unit :=
  if typeAddress ∉ commonTypes then skipAttributes frequent else pure ()

/-- `stringOffset`. -/
def stringOffset (withStringRepr : Bool) (known : Analyzer.ContainerTypes) (typeAddress : ℕ) : Reader ℤ :=
  if withStringRepr ∧ ¬known.Contains typeAddress then do
    let start ← offset
    skipLongString
    pure start
  else pure (-1)

/-- One object of `objects`, before the check for a duplicate. -/
def object (withStringRepr : Bool) (known : Analyzer.ContainerTypes) (frequent : List String)
    (commonTypes : Finset ℕ) : Reader Object := do
  let address ← u64
  let typeAddress ← u64
  let size ← u32
  let c ← content typeAddress known
  let extra ← addresses
  ownAttributes commonTypes frequent typeAddress
  let start ← stringOffset withStringRepr known typeAddress
  pure ⟨address, typeAddress, size, uniqueSorted (extra ++ c.referents), c.kind, c.sequence, c.dict, start⟩

/-- The slice and the index that `objects` fills. -/
structure Objects where
  result : List Object
  byAddress : OrderedDict ℕ ℕ

/-- Append an object. -/
def Objects.push (objs : Objects) (obj : Object) : Objects :=
  ⟨objs.result ++ [obj], objs.byAddress.insert obj.address objs.result.length⟩

/-- The loop of `objects`. -/
def objectsFrom (withStringRepr : Bool) (known : Analyzer.ContainerTypes) (frequent : List String)
    (commonTypes : Finset ℕ) : ℕ → Objects → Reader Objects
  | 0, objs => pure objs
  | n + 1, objs => do
    let obj ← object withStringRepr known frequent commonTypes
    ensure (obj.address ∉ objs.byAddress.keys)
      (.message s!"duplicate object address 0x{String.ofList (Nat.toDigits 16 obj.address)}")
    objectsFrom withStringRepr known frequent commonTypes n (objs.push obj)

/-- The lookups `known["dict"]` and so on, which `read` has checked. -/
def objects (withStringRepr : Bool) (known : Analyzer.ContainerTypes) (frequent : List String)
    (commonTypes : Finset ℕ) : Reader Objects := do
  let count ← u32
  objectsFrom withStringRepr known frequent commonTypes count ⟨[], .empty⟩

/-- The check of the well-known names. -/
def requireKnown (wellKnown : OrderedDict String ℕ) : Reader Analyzer.ContainerTypes :=
  match Analyzer.ContainerTypes.ofKnown wellKnown with
  | .ok known => pure known
  | .error name => fail (.message s!"PyHeap header is missing well-known type \"{name}\"")

/-- The fields of the header, before the well-known names are checked. -/
def headerFields : Reader Header := do
  let start ← u64
  ensure (start = magic) (.message s!"invalid PyHeap magic value: {start}")
  let version ← u32
  ensure (version = formatVersion) (.message s!"unsupported PyHeap format version: {version}")
  let createdAt ← longString
  let flags ← u64
  let wellKnown ← stringAddressMap
  pure ⟨version, createdAt, decide (flags &&& flagWithStringRepr ≠ 0), wellKnown⟩

/-- The error for an object whose type the table does not name. -/
def missingType (obj : Object) : ReadError :=
  .message ("PyHeap type table is missing address 0x" ++ String.ofList (Nat.toDigits 16 obj.typeAddress) ++
    " for object 0x" ++ String.ofList (Nat.toDigits 16 obj.address))

/-- `read`. -/
def read : Reader Heap := do
  let head ← headerFields
  let known ← requireKnown head.wellKnownTypes
  let ths ← threads
  let frequent ← stringList
  let common ← commonTypes frequent
  let objs ← objects head.withStringRepr known frequent common
  let types ← addressStringMap
  let stop ← u64
  ensure (stop = magic) (.message s!"invalid PyHeap footer magic value: {stop}")
  let source ← input
  let last ← offset
  ensure (last = source.length) (.message "unexpected data after PyHeap footer")
  ensureAll (fun obj : Object => obj.typeAddress ∈ types.keys) missingType objs.result
  pure ⟨head, ths, objs.result, objs.byAddress, types, some source⟩

/-- `Load` on a file with this content. -/
def load (source : List UInt8) : Except ReadError Heap :=
  (read source 0).map Prod.fst

end Go
end Pydump
