/-
# JSON documents

The value that the text of a JSON document stands for, as far as readers of JSON can
tell texts apart: a number with a fraction or an exponent is another literal than an
integer, `-0` is another one than `0`, and an object may name a member twice.

A string is a list of code points.  An escape may put a surrogate there that is part
of no pair, so that not every string of a document is a `String`.
-/

import Mathlib.Data.Rat.Defs

/-- The code points of a JSON string. -/
abbrev JsonText : Type := List ℕ

/-- The text of a string. -/
def JsonText.ofString (s : String) : JsonText := s.toList.map Char.toNat

/-- A JSON document. -/
inductive Json
  | null
  | bool (value : Bool)
  | integer (negative : Bool) (magnitude : ℕ)
  | real (value : ℚ)
  | string (text : JsonText)
  | array (elements : List Json)
  | object (members : List (JsonText × Json))

namespace Json

mutual

/-- How deep arrays and objects are nested. -/
def depth : Json → ℕ
  | .array elements => depthElements elements + 1
  | .object members => depthMembers members + 1
  | _ => 0

def depthElements : List Json → ℕ
  | [] => 0
  | element :: elements => max element.depth (depthElements elements)

def depthMembers : List (JsonText × Json) → ℕ
  | [] => 0
  | (_, value) :: members => max value.depth (depthMembers members)

end

/-- What `limit` and a check of the integers let through, in the order of the text: an
array or an object takes one of the limit for what it holds. -/
inductive Fault
  | tooDeep
  | integer (magnitude : ℕ)

mutual

/-- The first fault of a document. -/
def fault? (allowed : ℕ → Bool) : Json → ℕ → Option Fault
  | .integer _ magnitude, _ => if allowed magnitude then none else some (.integer magnitude)
  | .array _, 0 => some .tooDeep
  | .array elements, limit + 1 => faultElements? allowed elements limit
  | .object _, 0 => some .tooDeep
  | .object members, limit + 1 => faultMembers? allowed members limit
  | _, _ => none

def faultElements? (allowed : ℕ → Bool) : List Json → ℕ → Option Fault
  | [], _ => none
  | element :: elements, limit => (fault? allowed element limit).or (faultElements? allowed elements limit)

def faultMembers? (allowed : ℕ → Bool) : List (JsonText × Json) → ℕ → Option Fault
  | [], _ => none
  | (_, value) :: members, limit => (fault? allowed value limit).or (faultMembers? allowed members limit)

end

end Json
