/-
# The retained cache of the Python analyzer

`analyzer/python/src/pydump_analyzer/retained.py`: `RetainedHeap.load`,
`RetainedHeap.dump` and `RetainedHeapCache.load`, on the document that `json.load`
makes of the file.  The conversions `int(address)` and `int(size)` are those of the
language: a string may have spaces around it, a sign, underscores between digits and
the digits of any script; a float is truncated, a bool is 0 or 1.

`RetainedHeapCache.load` catches `OSError`, `ValueError`, `TypeError`, `KeyError` and
`AttributeError`.  The `OverflowError` of `int` for an infinite float is none of these,
nor is the `RecursionError` of `json.load`.
-/

import Mathlib.Algebra.Order.Floor.Ring
import Mathlib.Data.Int.Log
import Mathlib.Data.Rat.Floor
import Pydump.Analyzer.Retained
import Pydump.Lib.Json

namespace Pydump
namespace Analyzer

/-! ### The language -/

/-- What may differ between interpreters: how deep `json.load` recurses, how many digits
`int` takes, and the decimal digits and spaces of Unicode beyond ASCII. -/
structure Interpreter where
  recursionLimit : ℕ
  maxStrDigits : Option ℕ
  decimal : ℕ → Option ℕ
  isSpace : ℕ → Bool

/-- The exceptions that leave `RetainedHeap.load` or `json.load`. -/
inductive CacheError
  | osError
  | valueError
  | typeError
  | keyError
  | attributeError
  | overflowError
  | recursionError
  deriving DecidableEq

/-- The `except` clause of `RetainedHeapCache.load`. -/
def CacheError.caught : CacheError → Bool
  | .osError | .valueError | .typeError | .keyError | .attributeError => true
  | .overflowError | .recursionError => false

/-- So many digits are not too many for `int`. -/
def Interpreter.allowsDigits (python : Interpreter) (count : ℕ) : Bool :=
  match python.maxStrDigits with
  | some most => count ≤ most
  | none => true

/-- `int` and `json.load` read a literal of this value. -/
def Interpreter.allowsInteger (python : Interpreter) (magnitude : ℕ) : Bool :=
  python.allowsDigits (Nat.toDigits 10 magnitude).length

/-- The ASCII character that `int` sees in the place of a character. -/
def Interpreter.toAscii (python : Interpreter) (c : ℕ) : ℕ :=
  if c < 127 then c
  else if python.isSpace c then 32
  else
    match python.decimal c with
    | some digit => 48 + digit
    | none => 63

/-- The spaces of ASCII. -/
def isAsciiSpace (c : ℕ) : Bool := c = 32 || (9 ≤ c && c ≤ 13)

/-- A digit of ASCII. -/
def isAsciiDigit (c : ℕ) : Bool := 48 ≤ c && c ≤ 57

/-- The digits at the front, of which there has to be one, with single underscores
between them, and what follows. -/
def takeDigits : List ℕ → Option (List ℕ × List ℕ)
  | [] => none
  | c :: rest =>
    if isAsciiDigit c then
      match rest with
      | [] => some ([c - 48], [])
      | next :: rest' =>
        if next = 95 then (takeDigits rest').map fun found => ((c - 48) :: found.1, found.2)
        else if isAsciiDigit next then (takeDigits (next :: rest')).map fun found => ((c - 48) :: found.1, found.2)
        else some ([c - 48], next :: rest')
    else none

/-- The number with these digits. -/
def ofDecimalDigits (digits : List ℕ) : ℕ := digits.foldl (fun value digit => 10 * value + digit) 0

/-- The sign at the front, true for a minus, and what follows. -/
def takeSign : List ℕ → Bool × List ℕ
  | 45 :: rest => (true, rest)
  | 43 :: rest => (false, rest)
  | rest => (false, rest)

/-- `int(text)`. -/
def intOfText (python : Interpreter) (text : JsonText) : Except CacheError ℤ :=
  let (negative, body) := takeSign ((text.map python.toAscii).dropWhile isAsciiSpace)
  match takeDigits body with
  | none => .error .valueError
  | some (digits, rest) =>
    if rest.all isAsciiSpace && python.allowsDigits digits.length then
      .ok (if negative then -(ofDecimalDigits digits : ℤ) else ofDecimalDigits digits)
    else .error .valueError

/-- Rounding to the nearest integer, a half to the even one. -/
def roundHalfEven (q : ℚ) : ℤ :=
  if q - ⌊q⌋ < 1 / 2 then ⌊q⌋
  else if 1 / 2 < q - ⌊q⌋ then ⌊q⌋ + 1
  else if ⌊q⌋ % 2 = 0 then ⌊q⌋
  else ⌊q⌋ + 1

/-- `float` of a literal that is not negative: 53 bits from the leading one on, but no
bit below `2 ^ -1074`; none where it is infinite. -/
def floatOfReal (q : ℚ) : Option ℚ :=
  let unit : ℚ := 2 ^ max (Int.log 2 q - 52) (-1074)
  let rounded : ℚ := roundHalfEven (q / unit) * unit
  if rounded < 2 ^ (1024 : ℕ) then some rounded else none

/-- `int(float)` of a literal: the fraction is cut off. -/
def intOfReal (q : ℚ) : Except CacheError ℤ :=
  match floatOfReal |q| with
  | none => .error .overflowError
  | some value => .ok (if q < 0 then -⌊value⌋ else ⌊value⌋)

/-- `int(size)`. -/
def intOf (python : Interpreter) : Json → Except CacheError ℤ
  | .null => .error .typeError
  | .bool value => .ok (if value then 1 else 0)
  | .integer negative magnitude => .ok (if negative then -(magnitude : ℤ) else magnitude)
  | .real value => intOfReal value
  | .string text => intOfText python text
  | .array _ => .error .typeError
  | .object _ => .error .typeError

/-! ### `RetainedHeap.load` -/

/-- A `RetainedHeap` that comes from a document. -/
structure CachedHeap where
  objects : OrderedDict ℤ ℤ
  threads : OrderedDict JsonText ℤ

/-- `value[key]`. -/
def subscript (value : OrderedDict JsonText Json) (key : String) : Except CacheError Json :=
  match value.find? (.ofString key) with
  | some member => .ok member
  | none => .error .keyError

/-- `value.items()`, where an object of the document is the `dict` of its members. -/
def items : Json → Except CacheError (OrderedDict JsonText Json)
  | .object members => .ok (.ofPairs members)
  | _ => .error .attributeError

/-- One round of the comprehension for `objects`. -/
def loadObject (python : Interpreter) (result : OrderedDict ℤ ℤ) (item : JsonText × Json) :
    Except CacheError (OrderedDict ℤ ℤ) := do
  let address ← intOfText python item.1
  let size ← intOf python item.2
  pure (result.insert address size)

/-- One round of the comprehension for `threads`. -/
def loadThread (python : Interpreter) (result : OrderedDict JsonText ℤ) (item : JsonText × Json) :
    Except CacheError (OrderedDict JsonText ℤ) := do
  let size ← intOf python item.2
  pure (result.insert item.1 size)

/-- `RetainedHeap.load`. -/
def CachedHeap.load (python : Interpreter) (value : OrderedDict JsonText Json) : Except CacheError CachedHeap := do
  let objectItems ← subscript value "objects" >>= items
  let objects ← objectItems.entries.foldlM (loadObject python) .empty
  let threadItems ← subscript value "threads" >>= items
  let threads ← threadItems.entries.foldlM (loadThread python) .empty
  pure ⟨objects, threads⟩

/-! ### `RetainedHeap.dump` -/

/-- A `dict` of sizes as `json.dump` writes it. -/
def sizesObject (sizes : List (String × ℕ)) : Json :=
  .object (sizes.map fun entry => (.ofString entry.1, .integer false entry.2))

/-- A document with sizes for objects and threads. -/
def cacheEntry (objects threads : List (String × ℕ)) : Json :=
  .object [(.ofString "objects", sizesObject objects), (.ofString "threads", sizesObject threads)]

/-- What `json.dump` writes of `RetainedHeap.dump`: an address becomes its decimal
digits. -/
def RetainedHeap.dump (retained : RetainedHeap) : Json :=
  cacheEntry (retained.objects.entries.map fun entry => (Nat.repr entry.1, entry.2)) retained.threads.entries

/-! ### `RetainedHeapCache.load` -/

/-- What is found at the path of a cache entry. -/
inductive CacheFile
  | missing
  | malformed
  | document (value : Json)

/-- `json.load`: integers of too many digits are a `ValueError`. -/
def jsonLoad (python : Interpreter) : CacheFile → Except CacheError Json
  | .missing => .error .osError
  | .malformed => .error .valueError
  | .document value =>
    match value.fault? python.allowsInteger python.recursionLimit with
    | some (.integer _) => .error .valueError
    | some .tooDeep => .error .recursionError
    | none => .ok value

/-- The body of the `try` statement. -/
def readCache (python : Interpreter) (file : CacheFile) : Except CacheError (Option CachedHeap) := do
  let value ← jsonLoad python file
  match value with
  | .object members => do
    let retained ← CachedHeap.load python (.ofPairs members)
    pure (some retained)
  | _ => pure none

/-- `RetainedHeapCache.load`; `none` has the sizes calculated. -/
def loadCache (python : Interpreter) (file : CacheFile) : Except CacheError (Option CachedHeap) :=
  match readCache python file with
  | .ok retained => .ok retained
  | .error e => if e.caught then .ok none else .error e

end Analyzer
end Pydump
