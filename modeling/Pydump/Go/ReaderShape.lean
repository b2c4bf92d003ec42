/-
# How the Go reader is built

Every method of `reader` takes bytes at its offset, and branches or repeats on what
it has read, as the Python reader does.
-/

import Pydump.Go.Reader

namespace Pydump
namespace Go

open ByteParser

/-- Any error of `reader`: all are returned as they are. -/
def Raised (_ : ReadError) : Prop := True

/-- The bytes are taken or their error is raised. -/
theorem built_readExact (length : ℕ) : Built Raised (readExact length) := Built.take (fun _ => trivial) length

/-- A number of fixed size. -/
theorem built_unsigned (size : ℕ) : Built Raised (unsigned size) := (built_readExact size).bind fun _ => Built.pure _

/-- A flag. -/
theorem built_boolean : Built Raised boolean := (built_readExact 1).bind fun _ => Built.pure _

/-- A string of known length. -/
theorem built_string (length : ℕ) : Built Raised (string length) := (built_readExact length).bind fun _ => Built.pure _

/-- A string behind its length. -/
theorem built_longString : Built Raised longString := (built_unsigned 2).bind built_string

/-- A string that is passed over. -/
theorem built_skipLongString : Built Raised skipLongString :=
  (built_unsigned 2).bind fun length => (built_readExact length).bind fun _ => Built.pure ()

/-- The name of an attribute. -/
theorem built_attributeName (frequent : List String) : Built Raised (attributeName frequent) := by
  refine ((built_unsigned 2).bind fun _ => Built.pure _).bind fun lengthOrIndex => Built.ite (built_string _) ?_
  dsimp only
  split
  · exact Built.pure _
  · exact Built.fail trivial

/-- A list behind its count. -/
theorem built_counted {α : Type} {step : Reader α} (h : Built Raised step) : Built Raised (counted step) :=
  (built_unsigned 4).bind fun count => Built.repeatN h count

/-- The addresses by name. -/
theorem built_stringAddressMap : Built Raised stringAddressMap :=
  (built_counted (built_longString.bind fun _ => (built_unsigned 8).bind fun _ => Built.pure _)).bind
    fun _ => Built.pure _

/-- The names by address. -/
theorem built_addressStringMap : Built Raised addressStringMap :=
  (built_counted ((built_unsigned 8).bind fun _ => built_longString.bind fun _ => Built.pure _)).bind
    fun _ => Built.pure _

/-- The threads. -/
theorem built_threads : Built Raised threads :=
  built_counted (built_longString.bind fun _ => built_boolean.bind fun _ => built_boolean.bind fun _ =>
    (built_counted (built_longString.bind fun _ => (built_unsigned 4).bind fun _ =>
      built_longString.bind fun _ => built_stringAddressMap.bind fun _ => Built.pure _)).bind
        fun _ => Built.pure _)

/-- Attributes that are passed over. -/
theorem built_skipAttributes (frequent : List String) : Built Raised (skipAttributes frequent) :=
  (built_counted ((built_attributeName frequent).bind fun _ => (built_unsigned 8).bind
    fun _ => Built.pure ())).bind fun _ => Built.pure ()

/-- The types with the frequent attributes. -/
theorem built_commonTypes (frequent : List String) : Built Raised (commonTypes frequent) :=
  (built_counted ((built_unsigned 8).bind fun _ => (built_skipAttributes frequent).bind
    fun _ => Built.pure _)).bind fun _ => Built.pure _

/-- The content of an object. -/
theorem built_content (typeAddress : ℕ) (known : Analyzer.ContainerTypes) :
    Built Raised (content typeAddress known) := by
  refine Built.ite ?_ (Built.ite ?_ (Built.pure _))
  · exact (built_counted ((built_unsigned 8).bind fun _ => (built_unsigned 8).bind fun _ => Built.pure _)).bind
      fun _ => Built.pure _
  · exact (built_counted (built_unsigned 8)).bind fun _ =>
      Built.ite (Built.pure _) (Built.ite (Built.pure _) (Built.pure _))

/-- An object. -/
theorem built_object (withStringRepr : Bool) (known : Analyzer.ContainerTypes) (frequent : List String)
    (commonTypes : Finset ℕ) : Built Raised (object withStringRepr known frequent commonTypes) := by
  refine (built_unsigned 8).bind fun address => (built_unsigned 8).bind fun typeAddress => (built_unsigned 4).bind
    fun size => (built_content typeAddress known).bind fun c => (built_counted (built_unsigned 8)).bind fun extra =>
      (?_ : Built Raised (ownAttributes commonTypes frequent typeAddress)).bind fun _ =>
        (?_ : Built Raised (stringOffset withStringRepr known typeAddress)).bind fun _ => Built.pure _
  · exact Built.ite (built_skipAttributes frequent) (Built.pure ())
  · exact Built.ite (Built.offset.bind fun _ => built_skipLongString.bind fun _ => Built.pure _) (Built.pure _)

/-- The objects, behind those before. -/
theorem built_objectsFrom (withStringRepr : Bool) (known : Analyzer.ContainerTypes) (frequent : List String)
    (commonTypes : Finset ℕ) (n : ℕ) (objs : Objects) :
    Built Raised (objectsFrom withStringRepr known frequent commonTypes n objs) := by
  induction n generalizing objs with
  | zero => exact Built.pure objs
  | succ n ih =>
    exact (built_object withStringRepr known frequent commonTypes).bind fun _ =>
      (Built.ensure trivial).bind fun _ => ih _

/-- The check of the well-known names. -/
theorem built_requireKnown (wellKnown : OrderedDict String ℕ) : Built Raised (requireKnown wellKnown) := by
  rw [requireKnown]
  split
  · exact Built.pure _
  · exact Built.fail trivial

/-- The header. -/
theorem built_headerFields : Built Raised headerFields :=
  (built_unsigned 8).bind fun _ => (Built.ensure trivial).bind fun _ => (built_unsigned 4).bind fun _ =>
    (Built.ensure trivial).bind fun _ => built_longString.bind fun _ => (built_unsigned 8).bind fun _ =>
      built_stringAddressMap.bind fun _ => Built.pure _

/-! ### Before and behind the footer -/

/-- `read` up to and including the footer: what it has read by then. -/
def readBody : Reader (Header × List Thread × Objects × OrderedDict ℕ String) := do
  let head ← headerFields
  let known ← requireKnown head.wellKnownTypes
  let ths ← threads
  let frequent ← stringList
  let common ← commonTypes frequent
  let objs ← objects head.withStringRepr known frequent common
  let types ← addressStringMap
  let stop ← u64
  ensure (stop = magic) (.message s!"invalid PyHeap footer magic value: {stop}")
  pure (head, ths, objs, types)

/-- `read` from there on. -/
def readEnd (body : Header × List Thread × Objects × OrderedDict ℕ String) : Reader Heap := do
  let source ← input
  let last ← offset
  ensure (last = source.length) (.message "unexpected data after PyHeap footer")
  ensureAll (fun obj : Object => obj.typeAddress ∈ body.2.2.2.keys) missingType body.2.2.1.result
  pure ⟨body.1, body.2.1, body.2.2.1.result, body.2.2.1.byAddress, body.2.2.2, some source⟩

/-- The reader goes through the body and the end. -/
theorem read_eq : read = readBody >>= readEnd := by
  simp only [read, readBody, ByteParser.bind_assoc, ByteParser.pure_bind]
  rfl

/-- The body. -/
theorem built_readBody : Built Raised readBody :=
  built_headerFields.bind fun _ => (built_requireKnown _).bind fun _ => built_threads.bind fun _ =>
    (built_counted built_longString).bind fun frequent => (built_commonTypes frequent).bind fun _ =>
      ((built_unsigned 4).bind fun _ => built_objectsFrom _ _ _ _ _ _).bind fun _ =>
        built_addressStringMap.bind fun _ => (built_unsigned 8).bind fun _ => (Built.ensure trivial).bind
          fun _ => Built.pure _

end Go
end Pydump
