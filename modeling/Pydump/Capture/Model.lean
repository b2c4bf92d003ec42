/-
# What the Collector captures

`capture/collector/src/pydump/model.py` and `errors.py`: the facts of one object
as the Agent reports them, the thread records of the artifact, and the
exceptions the capture code raises.
-/

import Mathlib.Data.Finset.Basic

namespace Pydump
namespace Capture

/-- The exceptions of the capture code.  `structError` is `struct.error`,
`osError` what a broken connection raises, `fileExistsError` what the exclusive
creation of a file raises, and `diverged` is no exception of the source: it marks
a loop of the model whose bound on the number of rounds was too small. -/
inductive CaptureError
  | pydumpError (message : String)
  | protocolError (message : String)
  | structError
  | keyError (name : String)
  | osError
  | fileExistsError
  | diverged
  deriving DecidableEq

/-- `ContentKind`. -/
inductive ContentKind
  | none
  | dict
  | list
  | set
  | tuple
  deriving DecidableEq

/-- The code of a content kind on the wire. -/
def ContentKind.toNat : ContentKind → ℕ
  | .none => 0
  | .dict => 1
  | .list => 2
  | .set => 3
  | .tuple => 4

/-- `ContentKind(value)`, which raises `ValueError` on an unknown code. -/
def ContentKind.ofNat? : ℕ → Option ContentKind
  | 0 => some .none
  | 1 => some .dict
  | 2 => some .list
  | 3 => some .set
  | 4 => some .tuple
  | _ => Option.none

/-- A kind is read back from its number. -/
theorem ContentKind.ofNat?_toNat (k : ContentKind) : ofNat? k.toNat = some k := by
  cases k <;> rfl

/-- `HeapAttribute`. -/
structure HeapAttribute where
  name : String
  address : ℕ
  deriving DecidableEq

/-- `HeapObject`: the facts of one object. -/
structure HeapObject where
  address : ℕ
  typeAddress : ℕ
  typeName : String
  shallowSize : ℤ
  contentKind : ContentKind
  sequenceContent : List ℕ := []
  dictContent : List (ℕ × ℕ) := []
  referents : Finset ℕ := ∅
  attributes : List HeapAttribute := []
  strRepr : String := ""
  deriving DecidableEq

/-- `ThreadFrame`. -/
structure ThreadFrame where
  filename : String
  lineno : ℕ
  function : String
  locals : List (String × ℕ)
  deriving DecidableEq

/-- `HeapThread`. -/
structure HeapThread where
  name : String
  isAlive : Bool
  isDaemon : Bool
  frames : List ThreadFrame
  deriving DecidableEq

end Capture
end Pydump
