/-
# The commands of both analyzers

`_summary` and `_retained_heap` of `cli.py`, and `runSummary`, `runRetained` and `analyze`
of `main.go`: a command loads the heap, asks for its retained sizes (`retained-heap` does,
`summary` does not), and makes the document.  `build_heap_analysis` and `BuildReport` open
the path once more for the SHA-256 and ask for its size before they look at the heap; so
these are steps of their own.

The options are taken as parsed, and the format is JSON.
-/

import Pydump.Analyzer.ThreadRows
import Pydump.Go.CacheRuns
import Pydump.Go.Report

namespace Pydump
namespace Go

open Analyzer (CachedHeap Report)
open Interleaving (Program)
open Sorting (FreeSort)

/-- The command with its options. -/
inductive Request
  | summary
  | retainedHeap (topN : ℕ)
  deriving DecidableEq

/-- `top_n`, which `summary` leaves at its default. -/
def Request.topN : Request → ℕ
  | .summary => 100
  | .retainedHeap topN => topN

/-- The orders in which Go walks maps and leaves equal keys, one for every occasion. -/
structure Walks where
  order : ℕ → RangeOrder
  sorter : ℕ → FreeSort

/-- What the outside makes of a step, and which occasion it is. -/
structure CommandAnswer extends Answer where
  occasion : ℕ

/-- What `build_heap_analysis` is given. -/
def PythonResult.toReport : PythonResult → CachedHeap
  | .loaded retained => retained
  | .calculated retained => retained.toReport

/-- Where a command of the Python analyzer is. -/
inductive PythonStage
  | analyzing (run : PythonRun)
  | hashing (heap : Analyzer.Heap) (retained : Option CachedHeap)
  | measuring (heap : Analyzer.Heap) (retained : Option CachedHeap) (sha256 : String)
  | printed (report : Report)
  | raised

/-- Where a command of the Go analyzer is. -/
inductive GoStage
  | analyzing (run : GoRun)
  | hashing (value : Heap) (retained : Option RetainedHeap)
  | measuring (value : Heap) (retained : Option RetainedHeap) (sha256 : String)
  | printed (report : Report)
  | failed

/-- A command that runs. -/
inductive Command
  | python (request : Request) (stage : PythonStage)
  | go (request : Request) (stage : GoStage)

/-- Behind a step of `load_heap` or `retained_heap_with_cache`: `summary` goes on when the
heap is loaded, `retained-heap` when the sizes are there. -/
def PythonStage.behind : Request → PythonRun → PythonStage
  | .summary, .hashing heap => .hashing heap none
  | _, .returned heap result => .hashing heap (some result.toReport)
  | _, .raised => .raised
  | _, run => .analyzing run

/-- Behind a step of `heap.Load` or `RetainedHeapWithCache`. -/
def GoStage.behind : Request → GoRun → GoStage
  | .summary, .hashing value => .hashing value none
  | _, .returned value retained => .hashing value (some retained)
  | _, .failed => .failed
  | _, run => .analyzing run

section

variable (sha1 sha256 : List UInt8 → String) (walks : Walks)

/-- `_summary` and `_retained_heap`. -/
def PythonStage.act (answer : CommandAnswer) (files : Files) (request : Request) : PythonStage → Files × PythonStage
  | .analyzing run => ((run.act sha1 answer.toAnswer files).1, .behind request (run.act sha1 answer.toAnswer files).2)
  | .hashing heap retained =>
    (files, if answer.succeeds then .measuring heap retained (sha256 files.content) else .raised)
  | .measuring heap retained digest =>
    match answer.succeeds, Analyzer.buildHeapAnalysis digest files.content.length heap retained request.topN with
    | true, .ok report => (files, .printed report)
    | _, _ => (files, .raised)
  | .printed report => (files, .printed report)
  | .raised => (files, .raised)

/-- `runSummary`, and `runRetained` with `analyze`. -/
def GoStage.act (answer : CommandAnswer) (files : Files) (request : Request) : GoStage → Files × GoStage
  | .analyzing run => ((run.act sha1 answer.toAnswer files).1, .behind request (run.act sha1 answer.toAnswer files).2)
  | .hashing value retained =>
    (files, if answer.succeeds then .measuring value retained (sha256 files.content) else .failed)
  | .measuring value retained digest =>
    match answer.succeeds, buildReport (walks.order answer.occasion) (walks.sorter answer.occasion) digest
      files.content.length value retained request.topN with
    | true, .ok report => (files, .printed report)
    | _, _ => (files, .failed)
  | .printed report => (files, .printed report)
  | .failed => (files, .failed)

/-- One step. -/
def Command.act (answer : CommandAnswer) (files : Files) : Command → Files × List Command
  | .python request stage =>
    ((stage.act sha1 sha256 answer files request).1, [.python request (stage.act sha1 sha256 answer files request).2])
  | .go request stage =>
    ((stage.act sha1 sha256 walks answer files request).1,
      [.go request (stage.act sha1 sha256 walks answer files request).2])

/-- How a command begins. -/
def Command.Begins : Command → Prop
  | .python _ stage => stage = .analyzing .loading
  | .go _ stage => stage = .analyzing .loading

/-- Any number of commands on one path. -/
def commands : Program Files Command CommandAnswer := ⟨Command.act sha1 sha256 walks, Command.Begins⟩

end

/-- What a command is asked for. -/
def Command.request : Command → Request
  | .python request _ => request
  | .go request _ => request

/-- The document that a command has printed. -/
def Command.printed : Command → Option Report
  | .python _ (.printed report) => some report
  | .go _ (.printed report) => some report
  | _ => none

/-- The command ends with an error. -/
def Command.failed : Command → Bool
  | .python _ .raised => true
  | .go _ .failed => true
  | _ => false

end Go
end Pydump
