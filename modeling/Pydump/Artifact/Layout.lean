/-
# The byte layout of a PyHeap v1 artifact

What a `HeapWriter` leaves in its file, as pure functions of the captured data:
counts are 32-bit and come before what they count, strings carry a 16-bit
length, addresses are 64-bit, everything is big-endian.  `Emits` says when a
method of the writer succeeds on a file it stands at the end of, and what it
appends then; one lemma per method composes into `writeArtifact_spec`: the whole
file is `layoutArtifact`, exactly when every number fits its field.
-/

import Pydump.Analyzer.Model
import Pydump.Capture.HeapWriter

namespace Pydump
namespace Artifact

open Capture
open Analyzer (ContainerTypes)

/-! ### The layout -/

/-- A string cut to `limit` bytes behind its 16-bit length. -/
def layoutString (limit : ℕ) (s : String) : List UInt8 :=
  BigEndian.encode 2 ((Utf8.encode s).take limit).length ++ (Utf8.encode s).take limit

/-- A 32-bit count before the elements it counts. -/
def layoutCounted {α : Type} (layout : α → List UInt8) (xs : List α) : List UInt8 :=
  BigEndian.encode 4 xs.length ++ xs.flatMap layout

/-- A local with its address. -/
def layoutLocal (entry : String × ℕ) : List UInt8 :=
  layoutString MAX_STRING_SIZE entry.1 ++ BigEndian.encode 8 entry.2

/-- A frame with its locals. -/
def layoutFrame (frame : ThreadFrame) : List UInt8 :=
  layoutString MAX_STRING_SIZE frame.filename ++ (BigEndian.encode 4 frame.lineno ++
    (layoutString MAX_STRING_SIZE frame.function ++ layoutCounted layoutLocal frame.locals))

/-- A flag. -/
def layoutBool (value : Bool) : List UInt8 := [if value then 1 else 0]

/-- A thread with its frames. -/
def layoutThread (thread : HeapThread) : List UInt8 :=
  layoutString MAX_STRING_SIZE thread.name ++ (layoutBool thread.isAlive ++
    (layoutBool thread.isDaemon ++ layoutCounted layoutFrame thread.frames))

/-- A well-known name with its address. -/
def layoutWellKnown (wellKnownTypes : OrderedDict String ℕ) (name : String) : List UInt8 :=
  layoutString MAX_STRING_SIZE name ++
    BigEndian.encode 8 ((wellKnownTypes.find? name).getD 0)

/-- The header. -/
def layoutHeader (withStrRepr : Bool) (createdAt : String) (wellKnownTypes : OrderedDict String ℕ) :
    List UInt8 :=
  BigEndian.encode 8 MAGIC ++ (BigEndian.encode 4 FORMAT_VERSION ++
    (layoutString MAX_STRING_SIZE createdAt ++
      (BigEndian.encode 8 (if withStrRepr then FLAG_WITH_STR_REPR else 0) ++
        layoutCounted (layoutWellKnown wellKnownTypes) WELL_KNOWN_TYPE_NAMES)))

/-- A key with its value. -/
def layoutPair (entry : ℕ × ℕ) : List UInt8 := BigEndian.encode 8 entry.1 ++ BigEndian.encode 8 entry.2

/-- An attribute with its address. -/
def layoutAttribute (attr : HeapAttribute) : List UInt8 :=
  layoutString 0x7FFF attr.name ++ BigEndian.encode 8 attr.address

/-- The container part of an object, chosen by its content kind. -/
def layoutContent (obj : HeapObject) : List UInt8 :=
  match obj.contentKind with
  | .dict => layoutCounted layoutPair obj.dictContent
  | .list | .set | .tuple => layoutCounted (BigEndian.encode 8) obj.sequenceContent
  | .none => []

/-- `container_addresses`: the addresses the container part mentions. -/
def contentAddresses (obj : HeapObject) : Finset ℕ :=
  match obj.contentKind with
  | .dict => (obj.dictContent.map Prod.fst).toFinset ∪ (obj.dictContent.map Prod.snd).toFinset
  | .list | .set | .tuple => obj.sequenceContent.toFinset
  | .none => ∅

/-- `remaining_referents`, sorted. -/
def remainingReferents (obj : HeapObject) : List ℕ := (obj.referents \ contentAddresses obj).sort (· ≤ ·)

/-- The string that ends an object, where it has one. -/
def layoutRepr (withStrRepr : Bool) (known : ContainerTypes) (obj : HeapObject) : List UInt8 :=
  if withStrRepr ∧ ¬known.Contains obj.typeAddress then layoutString MAX_STRING_SIZE obj.strRepr else []

/-- The fields of an object before its string. -/
def layoutFields (obj : HeapObject) : List UInt8 :=
  BigEndian.encode 8 obj.address ++ (BigEndian.encode 8 obj.typeAddress ++
    (BigEndian.encode 4 (clampSize obj.shallowSize) ++ (layoutContent obj ++
      (layoutCounted (BigEndian.encode 8) (remainingReferents obj) ++
        layoutCounted layoutAttribute obj.attributes))))

/-- An object with its facts. -/
def layoutObject (withStrRepr : Bool) (known : ContainerTypes) (obj : HeapObject) : List UInt8 :=
  layoutFields obj ++ layoutRepr withStrRepr known obj

/-- A type with its name. -/
def layoutType (entry : ℕ × String) : List UInt8 :=
  BigEndian.encode 8 entry.1 ++ layoutString MAX_STRING_SIZE entry.2

/-- The type table and the footer. -/
def layoutTypes (types : OrderedDict ℕ String) : List UInt8 :=
  layoutCounted layoutType (sortedTypes types) ++ BigEndian.encode 8 MAGIC

/-- Everything before the object count. -/
def layoutPreamble (withStrRepr : Bool) (createdAt : String) (wellKnownTypes : OrderedDict String ℕ)
    (threads : List HeapThread) : List UInt8 :=
  layoutHeader withStrRepr createdAt wellKnownTypes ++ (layoutCounted layoutThread threads ++
    (BigEndian.encode 4 0 ++ BigEndian.encode 4 0))

/-- The whole artifact. -/
def layoutArtifact (withStrRepr : Bool) (createdAt : String) (wellKnownTypes : OrderedDict String ℕ)
    (known : ContainerTypes) (threads : List HeapThread) (objects : List HeapObject)
    (types : OrderedDict ℕ String) : List UInt8 :=
  layoutPreamble withStrRepr createdAt wellKnownTypes threads ++
    (layoutCounted (layoutObject withStrRepr known) objects ++ layoutTypes types)

/-! ### What fits -/

/-- A value fits a 32-bit field. -/
def Fits32 (n : ℕ) : Prop := n ≤ MAX_UINT32

/-- A value fits a 64-bit field. -/
def Fits64 (n : ℕ) : Prop := n < 2 ^ 64

/-- The numbers of a frame fit. -/
def FrameFits (frame : ThreadFrame) : Prop :=
  Fits32 frame.lineno ∧ Fits32 frame.locals.length ∧ ∀ entry ∈ frame.locals, Fits64 entry.2

/-- The numbers of a thread fit. -/
def ThreadFits (thread : HeapThread) : Prop :=
  Fits32 thread.frames.length ∧ ∀ frame ∈ thread.frames, FrameFits frame

/-- Every thread and frame fits its fields. -/
def ThreadsFit (threads : List HeapThread) : Prop :=
  Fits32 threads.length ∧ ∀ thread ∈ threads, ThreadFits thread

/-- All thirteen names are there and their addresses fit. -/
def WellKnownFits (wellKnownTypes : OrderedDict String ℕ) : Prop :=
  ∀ name ∈ WELL_KNOWN_TYPE_NAMES, ∃ address, wellKnownTypes.find? name = some address ∧ Fits64 address

/-- The numbers of a content fit. -/
def ContentFits (obj : HeapObject) : Prop :=
  match obj.contentKind with
  | .dict => Fits32 obj.dictContent.length ∧ ∀ entry ∈ obj.dictContent, Fits64 entry.1 ∧ Fits64 entry.2
  | .list | .set | .tuple =>
    Fits32 obj.sequenceContent.length ∧ ∀ address ∈ obj.sequenceContent, Fits64 address
  | .none => True

/-- Every address of an object fits 64 bits and every count of it 32. -/
def ObjectFits (obj : HeapObject) : Prop :=
  Fits64 obj.address ∧ Fits64 obj.typeAddress ∧ ContentFits obj ∧
    (Fits32 (obj.referents \ contentAddresses obj).card ∧
      ∀ address ∈ obj.referents \ contentAddresses obj, Fits64 address) ∧
    Fits32 obj.attributes.length ∧ ∀ attr ∈ obj.attributes, Fits64 attr.address

/-- The numbers of the type table fit. -/
def TypesFit (types : OrderedDict ℕ String) : Prop :=
  Fits32 types.entries.length ∧ ∀ address ∈ types.keys, Fits64 address

end Artifact
end Pydump
