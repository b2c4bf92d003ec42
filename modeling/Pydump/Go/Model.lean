/-
# The heap the Go analyzer works on

`analyzer/go/internal/heap/model.go`.  Where the Python model has a `set` or a
`dict` of objects, the Go model has slices: the referents of an object are a
sorted slice without duplicates, its content is a slice whatever the container,
and the objects are a slice with an index by address.  A Go `map` is an
`OrderedDict` of which only lookups are used.

`utf8.DecodeRune` is documented to return the first rune and its width, and
`(RuneError, 1)` where the slice does not start with a valid encoding;
`Utf8.decodeChar?` decides which case it is.
-/

import Pydump.Analyzer.Model

namespace Pydump
namespace Go

/-- `ContentKind`. -/
inductive ContentKind
  | none
  | dict
  | list
  | set
  | tuple
  deriving DecidableEq

/-- `Header`. -/
structure Header where
  version : ℕ
  createdAt : String
  withStringRepr : Bool
  wellKnownTypes : OrderedDict String ℕ

/-- `ThreadFrame`. -/
structure ThreadFrame where
  fileName : String
  lineNumber : ℕ
  functionName : String
  locals : OrderedDict String ℕ

/-- `Thread`. -/
structure Thread where
  name : String
  isAlive : Bool
  isDaemon : Bool
  stackTrace : List ThreadFrame

/-- `LocalAddresses`: the keys of the result. -/
def Thread.localAddresses (t : Thread) : Finset ℕ :=
  t.stackTrace.foldl (fun result frame => result ∪ frame.locals.values.toFinset) ∅

/-- `Object`; a dictionary is the list of its entries as they were read. -/
structure Object where
  address : ℕ
  typeAddress : ℕ
  size : ℕ
  referents : List ℕ
  contentKind : ContentKind
  sequence : List ℕ
  dict : List (ℕ × ℕ)
  stringOffset : ℤ

/-- `Heap`; `source` is the file behind it. -/
structure Heap where
  header : Header
  threads : List Thread
  objects : List Object
  objectByAddress : OrderedDict ℕ ℕ
  types : OrderedDict ℕ String
  source : Option (List UInt8)

/-- `utf8.DecodeRune`: the rune and its width. -/
def decodeRune (value : List UInt8) : Char × ℕ :=
  match Utf8.decodeChar? value with
  | some c => (c, c.utf8Size)
  | none => (Char.ofNat 0xFFFD, 1)

/-- A decoded rune takes bytes. -/
theorem decodeRune_snd_pos (value : List UInt8) : 0 < (decodeRune value).2 := by
  unfold decodeRune
  split
  · exact Char.utf8Size_pos _
  · exact Nat.one_pos

/-- `decodeUTF8BackslashReplace`, rune by rune. -/
def decodeRunes (value : List UInt8) : List Char :=
  match value with
  | [] => []
  | b :: rest =>
    let (r, size) := decodeRune (b :: rest)
    if r = Char.ofNat 0xFFFD ∧ size = 1 then Utf8.escapeByte b ++ decodeRunes rest
    else r :: decodeRunes ((b :: rest).drop (decodeRune (b :: rest)).2)
termination_by value.length
decreasing_by
  · exact Nat.lt_succ_self _
  · have := decodeRune_snd_pos (b :: rest)
    rw [List.length_drop, List.length_cons]
    omega

/-- `decodeUTF8BackslashReplace`. -/
def decodeUTF8BackslashReplace (value : List UInt8) : String := String.ofList (decodeRunes value)

/-- **Both languages decode strings alike.** -/
theorem decodeUTF8BackslashReplace_eq (value : List UInt8) :
    decodeUTF8BackslashReplace value = Utf8.decode value := by
  have h : ∀ n (value : List UInt8), value.length ≤ n → decodeRunes value = Utf8.decodeFrom 0 value := by
    intro n
    induction n with
    | zero =>
      intro value hlen
      rw [List.length_eq_zero_iff.1 (Nat.le_zero.1 hlen), decodeRunes, Utf8.decodeFrom]
    | succ n ih =>
      intro value hlen
      cases value with
      | nil => rw [decodeRunes, Utf8.decodeFrom]
      | cons b rest =>
        have hrest : rest.length ≤ n := Nat.le_of_succ_le_succ hlen
        rw [decodeRunes, Utf8.decodeFrom, decodeRune]
        cases hc : Utf8.decodeChar? (b :: rest) with
        | none =>
          simp only [and_self, if_true]
          rw [ih rest hrest]
        | some c =>
          -- a rune of width one is the byte itself, never the replacement character
          have hne : ¬(c = Char.ofNat 0xFFFD ∧ c.utf8Size = 1) := by
            rintro ⟨rfl, hsize⟩
            revert hsize
            decide
          simp only
          rw [if_neg hne]
          obtain ⟨tail, htail⟩ := Utf8.decodeChar?_eq_some_iff.1 hc
          obtain ⟨x, xs, hx⟩ := List.exists_cons_of_ne_nil (@String.utf8EncodeChar_ne_nil c)
          have hlen' : xs.length + 1 = c.utf8Size := by
            rw [← String.length_utf8EncodeChar c, hx, List.length_cons]
          rw [hx, List.cons_append, List.cons.injEq] at htail
          obtain ⟨-, rfl⟩ := htail
          rw [← hlen', List.drop_succ_cons, List.drop_left, Nat.add_sub_cancel, Utf8.decodeFrom_append,
            ih tail (le_trans (by rw [List.length_append]; omega) hrest)]
  rw [decodeUTF8BackslashReplace, Utf8.decode, h value.length value le_rfl]

end Go
end Pydump
