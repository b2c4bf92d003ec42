/-
# The streaming writer of a PyHeap v1 artifact

`capture/collector/src/pydump/heap_writer.py`, `HeapWriter`.  The state is the
file with its write position and the two counters of the class; a method is a
state transition that may raise.  Writes go where the position stands, so that
`finish`, which seeks back to the object count and forth again, is what it is in
the source.

`sync` only decides whether `finish` calls `os.fsync` and is left out; `now`
stands for `datetime.now().astimezone().isoformat()`.
-/

import Mathlib.Data.Finset.Sort
import Pydump.Capture.Model
import Pydump.Lib.BigEndian
import Pydump.Lib.OrderedDict
import Pydump.Lib.Utf8

namespace Pydump
namespace Capture

def MAGIC : ℕ := 123000321
def FORMAT_VERSION : ℕ := 1
def FLAG_WITH_STR_REPR : ℕ := 1
def MAX_STRING_SIZE : ℕ := 0xFFFF
def MAX_UINT32 : ℕ := 0xFFFFFFFF

/-- `WELL_KNOWN_TYPE_NAMES`. -/
def WELL_KNOWN_TYPE_NAMES : List String :=
  ["list", "tuple", "dict", "set", "str", "bytes", "bytearray", "int", "bool", "float", "object",
    "type", "NoneType"]

/-- The state of a `HeapWriter`: its file, the position in it, and its fields. -/
structure HeapWriter where
  file : List UInt8
  position : ℕ
  withStrRepr : Bool
  objectCountOffset : Option ℕ
  objectCount : ℕ

/-- `HeapWriter(file, with_str_repr=...)` on a fresh file. -/
def HeapWriter.new (withStrRepr : Bool) : HeapWriter := ⟨[], 0, withStrRepr, none, 0⟩

/-- A method of `HeapWriter`. -/
abbrev Writer (α : Type) : Type := StateT HeapWriter (Except CaptureError) α

/-- `self._file.write(bytes)`: overwrites from the position on. -/
def writeBytes (bytes : List UInt8) : Writer Unit := fun w =>
  .ok ((), { w with
    file := w.file.take w.position ++ bytes ++ w.file.drop (w.position + bytes.length)
    position := w.position + bytes.length })

/-- `self._file.seek(offset)`. -/
def seek (offset : ℕ) : Writer Unit := fun w => .ok ((), { w with position := offset })

/-- Leave the method with an exception. -/
def raise {α : Type} (e : CaptureError) : Writer α := fun _ => .error e

/-- `if not c: raise e`. -/
def check (c : Prop) [Decidable c] (e : CaptureError) : Writer Unit := if c then pure () else raise e

def writeU32 (value : ℕ) : Writer Unit :=
  if value ≤ MAX_UINT32 then writeBytes (BigEndian.encode 4 value)
  else raise (.pydumpError s!"value {value} does not fit in a v1 unsigned int")

/-- `_write_u64`; `struct` refuses what 64 bits do not hold. -/
def writeU64 (value : ℕ) : Writer Unit :=
  if value < 2 ^ 64 then writeBytes (BigEndian.encode 8 value) else raise .structError

/-- `_BOOL.pack(value)`. -/
def writeBool (value : Bool) : Writer Unit := writeBytes [if value then 1 else 0]

def writeShortString (value : String) : Writer Unit := do
  let encoded := (Utf8.encode value).take 0x7FFF
  writeBytes (BigEndian.encode 2 encoded.length)
  writeBytes encoded

def writeLongString (value : String) : Writer Unit := do
  let encoded := (Utf8.encode value).take MAX_STRING_SIZE
  writeBytes (BigEndian.encode 2 encoded.length)
  writeBytes encoded

/-- `well_known_types[name]`. -/
def lookup (wellKnownTypes : OrderedDict String ℕ) (name : String) : Writer ℕ :=
  match wellKnownTypes.find? name with
  | some address => pure address
  | none => raise (.keyError name)

/-- `created_at or datetime.now().astimezone().isoformat()`. -/
def createdAtOr (createdAt : Option String) (now : String) : String :=
  match createdAt with
  | some s => if s = "" then now else s
  | none => now

/-- One row of the well-known table. -/
def writeWellKnown (wellKnownTypes : OrderedDict String ℕ) (name : String) : Writer Unit := do
  writeLongString name
  let address ← lookup wellKnownTypes name
  writeU64 address

/-- `missing`: the well-known names that `well_known_types` lacks. -/
def missingTypes (wellKnownTypes : OrderedDict String ℕ) : List String :=
  WELL_KNOWN_TYPE_NAMES.filter (· ∉ wellKnownTypes.keys)

def writeHeader (wellKnownTypes : OrderedDict String ℕ) (createdAt : Option String) (now : String) :
    Writer Unit := do
  check (missingTypes wellKnownTypes = []) (.pydumpError ("agent omitted well-known types: " ++
    ", ".intercalate ((missingTypes wellKnownTypes).mergeSort fun a b => decide (a ≤ b))))
  writeU64 MAGIC
  writeU32 FORMAT_VERSION
  writeLongString (createdAtOr createdAt now)
  let w ← get
  writeU64 (if w.withStrRepr then FLAG_WITH_STR_REPR else 0)
  writeU32 WELL_KNOWN_TYPE_NAMES.length
  WELL_KNOWN_TYPE_NAMES.forM (writeWellKnown wellKnownTypes)

/-- One local variable of a frame. -/
def writeLocal (entry : String × ℕ) : Writer Unit := do
  writeLongString entry.1
  writeU64 entry.2

/-- One frame of `write_threads`. -/
def writeFrame (frame : ThreadFrame) : Writer Unit := do
  writeLongString frame.filename
  writeU32 frame.lineno
  writeLongString frame.function
  writeU32 frame.locals.length
  frame.locals.forM writeLocal

/-- One thread of `write_threads`. -/
def writeThread (thread : HeapThread) : Writer Unit := do
  writeLongString thread.name
  writeBool thread.isAlive
  writeBool thread.isDaemon
  writeU32 thread.frames.length
  thread.frames.forM writeFrame

def writeThreads (threads : List HeapThread) : Writer Unit := do
  writeU32 threads.length
  threads.forM writeThread

/-- `begin_objects`: two empty compression tables and a place for the count. -/
def beginObjects : Writer Unit := do
  writeU32 0
  writeU32 0
  modify fun w => { w with objectCountOffset := some w.position }
  writeU32 0

/-- `if self._object_count_offset is None: raise PydumpError(...)`. -/
def objectSection : Writer ℕ := do
  let w ← get
  match w.objectCountOffset with
  | some offset => pure offset
  | none => raise (.pydumpError "object section was not started")

/-- One key-value pair of a dictionary's content. -/
def writePair (entry : ℕ × ℕ) : Writer Unit := do
  writeU64 entry.1
  writeU64 entry.2

/-- The container part of `write_object`, chosen by `content_kind`; it returns
`container_addresses`. -/
def writeContent (obj : HeapObject) : Writer (Finset ℕ) :=
  match obj.contentKind with
  | .dict => do
    writeU32 obj.dictContent.length
    obj.dictContent.forM writePair
    pure ((obj.dictContent.map Prod.fst).toFinset ∪ (obj.dictContent.map Prod.snd).toFinset)
  | .list | .set | .tuple => do
    writeU32 obj.sequenceContent.length
    obj.sequenceContent.forM writeU64
    pure obj.sequenceContent.toFinset
  | .none => pure ∅

/-- One attribute of `write_object`. -/
def writeAttribute (attr : HeapAttribute) : Writer Unit := do
  writeShortString attr.name
  writeU64 attr.address

/-- `is_container`: the type address is one of the four well-known ones. -/
def isContainer (wellKnownTypes : OrderedDict String ℕ) (typeAddress : ℕ) : Writer Bool := do
  let dict ← lookup wellKnownTypes "dict"
  let list ← lookup wellKnownTypes "list"
  let set ← lookup wellKnownTypes "set"
  let tuple ← lookup wellKnownTypes "tuple"
  pure (typeAddress ∈ [dict, list, set, tuple])

/-- `min(max(obj.shallow_size, 0), MAX_UINT32)`. -/
def clampSize (shallowSize : ℤ) : ℕ := min shallowSize.toNat MAX_UINT32

/-- What `write_object` puts into the file for one object. -/
def writeFacts (obj : HeapObject) (wellKnownTypes : OrderedDict String ℕ) : Writer Unit := do
  writeU64 obj.address
  writeU64 obj.typeAddress
  writeU32 (clampSize obj.shallowSize)
  let containerAddresses ← writeContent obj
  let remainingReferents := obj.referents \ containerAddresses
  writeU32 remainingReferents.card
  (remainingReferents.sort (· ≤ ·)).forM writeU64
  writeU32 obj.attributes.length
  obj.attributes.forM writeAttribute
  let container ← isContainer wellKnownTypes obj.typeAddress
  let w ← get
  if w.withStrRepr ∧ ¬container then writeLongString obj.strRepr

def writeObject (obj : HeapObject) (wellKnownTypes : OrderedDict String ℕ) : Writer Unit := do
  let _ ← objectSection
  writeFacts obj wellKnownTypes
  modify fun w => { w with objectCount := w.objectCount + 1 }

/-- `sorted(types.items())`. -/
def sortedTypes (types : OrderedDict ℕ String) : List (ℕ × String) :=
  types.entries.mergeSort fun a b => decide (a.1 ≤ b.1)

/-- One row of the type table. -/
def writeType (entry : ℕ × String) : Writer Unit := do
  writeU64 entry.1
  writeLongString entry.2

/-- The type table and the footer, which `finish` puts behind the objects. -/
def writeTypes (types : OrderedDict ℕ String) : Writer Unit := do
  writeU32 types.entries.length
  (sortedTypes types).forM writeType
  writeU64 MAGIC

def finish (types : OrderedDict ℕ String) : Writer Unit := do
  let objectCountOffset ← objectSection
  let w ← get
  let endOffset := w.position
  seek objectCountOffset
  writeU32 w.objectCount
  seek endOffset
  writeTypes types

/-- `validate_artifact` on the bytes of the file at `path`. -/
def validateArtifact (path : String) (file : List UInt8) : Except CaptureError Unit :=
  if file.length < 16 then .error (.pydumpError s!"artifact {path} is too short")
  else if BigEndian.decode (file.take 8) ≠ MAGIC ∨
      BigEndian.decode (file.drop (file.length - 8)) ≠ MAGIC then
    .error (.pydumpError s!"artifact {path} has an invalid magic value")
  else .ok ()

end Capture
end Pydump
