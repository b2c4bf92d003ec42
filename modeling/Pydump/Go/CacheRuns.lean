/-
# Runs of the analyzers over one cache

`retained_heap_with_cache` of `retained.py` after `load_heap`, and
`RetainedHeapWithCache` of `cache.go` after `heap.Load`.  A run opens the heap path
several times: once to load the heap, and then to hash it, the Python analyzer for
the look-up and again to store, the Go analyzer for both at once.  A file that was
opened keeps its bytes, and so does a cache entry, which is written elsewhere and
renamed; so the steps between which others act are the opens and the renames.

-/

import Pydump.Go.CacheEntries
import Pydump.Go.RetainedAgreement
import Pydump.Lib.Interleaving

namespace Pydump
namespace Go

open Analyzer (CachedHeap CacheFile Interpreter loadCache readHeap)
open Interleaving (Program)

/-! ### The files -/

/-- The heap path and the cache entries of it, by what their names add to the path's. -/
structure Files where
  content : List UInt8
  entries : OrderedDict String Json

/-- `VERSION` and `cacheVersion`. -/
def cacheVersion : ℕ := 1

/-- `suffix`. -/
def cacheSuffix (digest : String) : String := "." ++ digest ++ ("." ++ Nat.repr cacheVersion ++ ".retained_heap")

/-- What is found under a digest. -/
def Files.entry (files : Files) (digest : String) : CacheFile :=
  match files.entries.find? (cacheSuffix digest) with
  | some document => .document document
  | none => .missing

/-- The directory with a new entry. -/
def Files.store (files : Files) (digest : String) (document : Json) : Files :=
  { files with entries := files.entries.insert (cacheSuffix digest) document }

/-! ### A run -/

/-- What the outside makes of a step: whether the calls of the file system succeed, which
interpreter runs and in which orders sets and maps are walked, and the bytes that
replace the path. -/
structure Answer where
  succeeds : Bool
  python : Interpreter
  orders : Analyzer.Orders
  goOrders : Orders
  mapOrder : MapOrder
  replacement : List UInt8

/-- The `RetainedHeap` that the Python analyzer returns. -/
inductive PythonResult
  | loaded (retained : CachedHeap)
  | calculated (retained : Analyzer.RetainedHeap)

/-- Where a Python run is. -/
inductive PythonRun
  | loading
  | hashing (heap : Analyzer.Heap)
  | lookingUp (heap : Analyzer.Heap) (digest : String)
  | calculating (heap : Analyzer.Heap)
  | hashingAgain (heap : Analyzer.Heap) (retained : Analyzer.RetainedHeap)
  | storing (heap : Analyzer.Heap) (retained : Analyzer.RetainedHeap) (digest : String)
  | returned (heap : Analyzer.Heap) (result : PythonResult)
  | raised

/-- Where a Go run is. -/
inductive GoRun
  | loading
  | hashing (value : Heap)
  | lookingUp (value : Heap) (digest : String)
  | calculating (value : Heap) (digest : String)
  | storing (value : Heap) (retained : RetainedHeap) (digest : String)
  | returned (value : Heap) (retained : RetainedHeap)
  | failed

/-- Whoever uses the path or the cache. -/
inductive Task
  | replacer
  | python (run : PythonRun)
  | go (run : GoRun)

section

variable (sha1 : List UInt8 → String)

/-- `cache.load()` behind the digest: a file that cannot be opened is an `OSError`. -/
def pythonEntry (answer : Answer) (files : Files) (digest : String) : Except Analyzer.CacheError (Option CachedHeap) :=
  loadCache answer.python (if answer.succeeds then files.entry digest else .missing)

/-- `loadRetainedCache` behind the digest. -/
def goEntry (answer : Answer) (files : Files) (value : Heap) (digest : String) :
    Except CacheError (Option RetainedHeap) :=
  loadRetainedCache answer.mapOrder (if answer.succeeds then files.entry digest else .missing) value

/-- `load_heap` and `retained_heap_with_cache`.  An `OSError` of the digest counts as a
missing entry in `load` and is suppressed in `store`, like all of `store`. -/
def PythonRun.act (answer : Answer) (files : Files) : PythonRun → Files × PythonRun
  | .loading =>
    match answer.succeeds, readHeap files.content with
    | true, .ok heap => (files, .hashing heap)
    | _, _ => (files, .raised)
  | .hashing heap => (files, if answer.succeeds then .lookingUp heap (sha1 files.content) else .calculating heap)
  | .lookingUp heap digest =>
    match pythonEntry answer files digest with
    | .ok (some retained) => (files, .returned heap (.loaded retained))
    | .ok none => (files, .calculating heap)
    | .error _ => (files, .raised)
  | .calculating heap =>
    match Analyzer.calculateRetained answer.orders heap.rounds heap with
    | .ok retained => (files, .hashingAgain heap retained)
    | .error _ => (files, .raised)
  | .hashingAgain heap retained =>
    (files, if answer.succeeds then .storing heap retained (sha1 files.content)
      else .returned heap (.calculated retained))
  | .storing heap retained digest =>
    (if answer.succeeds then files.store digest retained.dump else files, .returned heap (.calculated retained))
  | .returned heap result => (files, .returned heap result)
  | .raised => (files, .raised)

/-- `heap.Load` and `RetainedHeapWithCache`.  The error of `storeRetainedCache` is
dropped. -/
def GoRun.act (answer : Answer) (files : Files) : GoRun → Files × GoRun
  | .loading =>
    match answer.succeeds, load files.content with
    | true, .ok value => (files, .hashing value)
    | _, _ => (files, .failed)
  | .hashing value => (files, if answer.succeeds then .lookingUp value (sha1 files.content) else .failed)
  | .lookingUp value digest =>
    match goEntry answer files value digest with
    | .ok (some retained) => (files, .returned value retained)
    | _ => (files, .calculating value digest)
  | .calculating value digest =>
    match calculateRetainedHeap answer.goOrders value.rounds value with
    | .ok retained => (files, .storing value retained digest)
    | .error _ => (files, .failed)
  | .storing value retained digest =>
    (if answer.succeeds then files.store digest (retainedDocument value retained) else files, .returned value retained)
  | .returned value retained => (files, .returned value retained)
  | .failed => (files, .failed)

/-- One step. -/
def Task.act (answer : Answer) (files : Files) : Task → Files × List Task
  | .replacer => ({ files with content := answer.replacement }, [.replacer])
  | .python run => ((run.act sha1 answer files).1, [.python (run.act sha1 answer files).2])
  | .go run => ((run.act sha1 answer files).1, [.go (run.act sha1 answer files).2])

/-- How a task begins. -/
def Task.Begins : Task → Prop
  | .replacer => True
  | .python run => run = .loading
  | .go run => run = .loading

/-- The analyzers and those who replace the path. -/
def analyses : Program Files Task Answer := ⟨Task.act sha1, Task.Begins⟩

end

end Go
end Pydump
