/-
# The retained cache of the Go analyzer

`analyzer/go/internal/analysis/cache.go`: `loadRetainedCache`, on the document that the
decoder finds in the file, and the document that `storeRetainedCache` writes.

`encoding/json` decodes into a struct and into maps.  It takes a member for the field
whose name it folds to, member by member: a second one adds to the map of the first,
`null` clears it.  `null` for an element of a map leaves the zero that the element is
made with.  An error of type is remembered and returned at the end; nothing is then used
of what was decoded.
-/

import Pydump.Analyzer.Cache
import Pydump.Go.Retained

namespace Pydump
namespace Go

open Analyzer (CacheFile)

/-- What `loadRetainedCache` returns an error for; the text of the last three names what
they hold. -/
inductive CacheError
  | decode
  | address (text : String)
  | unknownObject (address : ℕ)
  | count (found expected : ℕ)
  deriving DecidableEq

/-- `cacheDocument`. -/
structure CacheDocument where
  objects : OrderedDict String ℕ
  threads : OrderedDict String ℕ

/-! ### `encoding/json` -/

/-- The nesting that the scanner of `encoding/json` accepts. -/
def maxNestingDepth : ℕ := 10000

/-- The rune for a code point: a surrogate becomes the replacement character. -/
def runeOf (c : ℕ) : Char := if c.isValidChar then Char.ofNat c else Char.ofNat 0xFFFD

/-- A string of the document as a string of Go. -/
def goString (text : JsonText) : String := String.ofList (text.map runeOf)

/-- `foldRune`, for the runes that fold to an ASCII letter. -/
def foldRune (c : Char) : Char :=
  if 'a' ≤ c ∧ c ≤ 'z' then Char.ofNat (c.toNat - 32)
  else if c.toNat = 0x17F then 'S'
  else if c.toNat = 0x212A then 'K'
  else c

/-- A member is taken for the field `name`. -/
def namesField (name : String) (text : JsonText) : Bool :=
  (goString text).toList.map foldRune = name.toList.map foldRune

/-- Decode into an element of a map, which is made with zero: `strconv.ParseUint` takes
no sign, fraction or exponent. -/
def decodeSize : Json → Except CacheError ℕ
  | .null => .ok 0
  | .integer false magnitude => if magnitude < 2 ^ 64 then .ok magnitude else .error .decode
  | _ => .error .decode

/-- One member of an object that is decoded into a map. -/
def decodeElement (current : OrderedDict String ℕ) (member : JsonText × Json) :
    Except CacheError (OrderedDict String ℕ) := do
  let size ← decodeSize member.2
  pure (current.insert (goString member.1) size)

/-- Decode into a map that holds `current`. -/
def decodeMap (current : OrderedDict String ℕ) : Json → Except CacheError (OrderedDict String ℕ)
  | .null => .ok .empty
  | .object members => members.foldlM decodeElement current
  | _ => .error .decode

/-- One member of an object that is decoded into a `cacheDocument`; other names are
skipped. -/
def decodeField (document : CacheDocument) (member : JsonText × Json) : Except CacheError CacheDocument :=
  if namesField "objects" member.1 then do
    let objects ← decodeMap document.objects member.2
    pure { document with objects }
  else if namesField "threads" member.1 then do
    let threads ← decodeMap document.threads member.2
    pure { document with threads }
  else .ok document

/-- `json.NewDecoder(file).Decode(&document)`. -/
def decodeDocument (value : Json) : Except CacheError CacheDocument :=
  if maxNestingDepth < value.depth then .error .decode
  else
    match value with
    | .null => .ok ⟨.empty, .empty⟩
    | .object members => members.foldlM decodeField ⟨.empty, .empty⟩
    | _ => .error .decode

/-! ### `loadRetainedCache` -/

/-- `strconv.ParseUint(text, 10, 64)`. -/
def parseUint (text : String) : Option ℕ :=
  if text.toList = [] ∨ ¬text.toList.all Char.isDigit then none
  else if Nat.ofDigitChars 10 text.toList 0 < 2 ^ 64 then some (Nat.ofDigitChars 10 text.toList 0)
  else none

/-- The order in which a map is walked. -/
structure MapOrder where
  walk : OrderedDict String ℕ → List (String × ℕ)
  perm : ∀ map, (walk map).Perm map.entries

/-- In the order of insertion. -/
def MapOrder.inserted : MapOrder := ⟨OrderedDict.entries, fun _ => .rfl⟩

/-- One round of the loop of `loadRetainedCache`. -/
def placeSize (value : Heap) (objects : List ℕ) (entry : String × ℕ) : Except CacheError (List ℕ) :=
  match parseUint entry.1 with
  | none => .error (.address entry.1)
  | some address =>
    match value.objectByAddress.find? address with
    | none => .error (.unknownObject address)
    | some index => .ok (objects.set index entry.2)

/-- `if len(document.Objects) != len(value.Objects)`. -/
def checkCount (document : CacheDocument) (value : Heap) : Except CacheError Unit :=
  if document.objects.keys.length ≠ value.objects.length then
    .error (.count document.objects.keys.length value.objects.length)
  else .ok ()

/-- `loadRetainedCache`; an error and `none` both have the sizes calculated. -/
def loadRetainedCache (order : MapOrder) (file : CacheFile) (value : Heap) : Except CacheError (Option RetainedHeap) :=
  match file with
  | .missing => .ok none
  | .malformed => .error .decode
  | .document doc => do
    let document ← decodeDocument doc
    let objects ← (order.walk document.objects).foldlM (placeSize value) (List.replicate value.objects.length 0)
    checkCount document value
    pure (some ⟨objects, document.threads⟩)

/-! ### `storeRetainedCache` -/

/-- The members of a map as the encoder writes them, which sorts the keys. -/
def sortedMembers (map : OrderedDict String ℕ) : List (String × ℕ) :=
  map.entries.mergeSort fun a b => decide (a.1 ≤ b.1)

/-- `document.Objects` of `storeRetainedCache`. -/
def storedObjects (value : Heap) (retained : RetainedHeap) : OrderedDict String ℕ :=
  .ofPairs ((value.objects.zip retained.objects).map fun entry => (Nat.repr entry.1.address, entry.2))

/-- The document that `storeRetainedCache` encodes. -/
def retainedDocument (value : Heap) (retained : RetainedHeap) : Json :=
  Analyzer.cacheEntry (sortedMembers (storedObjects value retained)) (sortedMembers retained.threads)

end Go
end Pydump
