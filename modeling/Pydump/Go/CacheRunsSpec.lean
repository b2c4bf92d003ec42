/-
# What the analyzers take from and leave in the cache

Nothing ties the digest to the heap that was loaded.  When the path is replaced before
it is hashed, the sizes of one heap are taken or stored under the digest of another
(`stale_entry`).  `cache_never_stale` says that nothing else goes wrong: the entries and
the results stay right as long as no run uses an entry under another digest than that of
the bytes it has loaded.
-/

import Pydump.Analyzer.ReaderErrors
import Pydump.Go.CacheRuns

namespace Pydump
namespace Go

open Analyzer (Holds Sizes loadCache readHeap)
open Interleaving (Any Config Run Step run_play)

/-! ### The statement -/

/-- One of the analyzers calculates these sizes for these bytes. -/
inductive Calculated (content : List UInt8) : Sizes → Prop
  | python {heap : Analyzer.Heap} {orders : Analyzer.Orders} {retained : Analyzer.RetainedHeap}
    (loads : readHeap content = .ok heap)
    (calculates : Analyzer.calculateRetained orders heap.rounds heap = .ok retained) : Calculated content retained.sizes
  | go {value : Heap} {orders : Orders} {retained : RetainedHeap} (loads : load content = .ok value)
    (calculates : calculateRetainedHeap orders value.rounds value = .ok retained) :
    Calculated content (retained.sizes value)

/-- Every entry under a digest holds the sizes that were calculated from bytes with this
digest. -/
def EntriesSound (sha1 : List UInt8 → String) (files : Files) : Prop :=
  ∀ digest document, files.entries.find? (cacheSuffix digest) = some document →
    ∃ content sizes, sha1 content = digest ∧ Calculated content sizes ∧ Holds document sizes

/-- The result has these sizes. -/
def PythonResult.Shows (sizes : Sizes) : PythonResult → Prop
  | .loaded retained => retained.Shows sizes
  | .calculated retained => retained.sizes = sizes

/-- What a run has returned was calculated from the bytes of the heap it had loaded. -/
def Task.ResultSound : Task → Prop
  | .python (.returned heap result) =>
    ∃ content sizes, heap.source = some content ∧ Calculated content sizes ∧ result.Shows sizes
  | .go (.returned value retained) =>
    ∃ content sizes, value.source = some content ∧ Calculated content sizes ∧ retained.Shows value sizes
  | _ => True

section

variable (sha1 : List UInt8 → String)

/-- Sizes were found. -/
def found {ε α : Type} : Except ε (Option α) → Bool
  | .ok (some _) => true
  | _ => false

/-- Where a step takes sizes from an entry or stores them there: the bytes that the heap was
read from, and the digest of the entry. -/
def Task.uses (answer : Answer) (files : Files) : Task → Option (Option (List UInt8) × String)
  | .python (.lookingUp heap digest) =>
    if found (pythonEntry answer files digest) then some (heap.source, digest) else none
  | .python (.storing heap _ digest) => if answer.succeeds then some (heap.source, digest) else none
  | .go (.lookingUp value digest) =>
    if found (goEntry answer files value digest) then some (value.source, digest) else none
  | .go (.storing value _ digest) => if answer.succeeds then some (value.source, digest) else none
  | _ => none

/-- The step uses no entry, or the one for the bytes that the heap was read from. -/
def OwnEntry (answer : Answer) (files : Files) (task : Task) : Prop :=
  ∀ use ∈ task.uses answer files, use.1.map sha1 = some use.2

instance (answer : Answer) (files : Files) (task : Task) : Decidable (OwnEntry sha1 answer files task) :=
  inferInstanceAs (Decidable (∀ use ∈ task.uses answer files, use.1.map sha1 = some use.2))

/-- No run has begun, and nothing is stored. -/
def started (content : List UInt8) : Config Files Task := ⟨⟨content, .empty⟩, []⟩

end

/-! ### What a heap was read from -/

/-- A value of what a parser that succeeds has returned. -/
theorem map_fst_eq_ok {ε α : Type} {run : Except ε (α × ℕ)} {a : α} (h : run.map Prod.fst = .ok a) :
    ∃ off, run = .ok (a, off) := by
  cases run with
  | error e => cases h
  | ok r =>
    cases h
    exact ⟨r.2, rfl⟩

/-- The heap that Python reads stems from the content. -/
theorem source_of_readHeap {content : List UInt8} {heap : Analyzer.Heap} (h : readHeap content = .ok heap) :
    heap.source = some content := by
  obtain ⟨off, hread⟩ := map_fst_eq_ok h
  rw [Analyzer.read_eq, ByteParser.bind_eq_ok] at hread
  obtain ⟨front, _, -, hread⟩ := hread
  obtain ⟨sections, stop, -, hread⟩ := ByteParser.bind_eq_ok.1 hread
  have hinput : (ByteParser.input : Analyzer.Reader _) content stop = .ok (content, stop) := rfl
  have hoffset : (ByteParser.offset : Analyzer.Reader _) content stop = .ok (stop, stop) := rfl
  rw [Analyzer.readEnd, ByteParser.bind_ok hinput, ByteParser.bind_ok hoffset, ByteParser.bind_eq_ok] at hread
  obtain ⟨_, _, -, hread⟩ := hread
  cases hread
  rfl

/-- The heap that Go reads stems from the content. -/
theorem source_of_load {content : List UInt8} {value : Heap} (h : load content = .ok value) :
    value.source = some content := by
  obtain ⟨off, hread⟩ := map_fst_eq_ok h
  rw [read_eq, ByteParser.bind_eq_ok] at hread
  obtain ⟨body, stop, -, hread⟩ := hread
  have hinput : (ByteParser.input : Reader _) content stop = .ok (content, stop) := rfl
  have hoffset : (ByteParser.offset : Reader _) content stop = .ok (stop, stop) := rfl
  rw [readEnd, ByteParser.bind_ok hinput, ByteParser.bind_ok hoffset, ByteParser.bind_eq_ok] at hread
  obtain ⟨_, _, -, hread⟩ := hread
  obtain ⟨_, _, -, hread⟩ := ByteParser.bind_eq_ok.1 hread
  cases hread
  rfl

/-! ### What holds of a run -/

/-- A run knows the bytes of its heap, and has calculated the sizes that it is about to
store from them. -/
def PythonRun.Sound : PythonRun → Prop
  | .hashing heap | .lookingUp heap _ | .calculating heap => ∃ content, readHeap content = .ok heap
  | .hashingAgain heap retained | .storing heap retained _ =>
    ∃ content, readHeap content = .ok heap ∧ Calculated content retained.sizes
  | .returned heap result => Task.ResultSound (.python (.returned heap result))
  | .loading | .raised => True

/-- What a run of Go holds stems from one content. -/
def GoRun.Sound : GoRun → Prop
  | .hashing value | .lookingUp value _ | .calculating value _ => ∃ content, load content = .ok value
  | .storing value retained _ => ∃ content, load content = .ok value ∧ Calculated content (retained.sizes value)
  | .returned value retained => Task.ResultSound (.go (.returned value retained))
  | .loading | .failed => True

/-- What a task holds stems from one content. -/
def Task.Sound : Task → Prop
  | .replacer => True
  | .python run => run.Sound
  | .go run => run.Sound

/-- What a sound task has taken is sound. -/
theorem Task.Sound.result {task : Task} (h : task.Sound) : task.ResultSound := by
  cases task with
  | replacer => trivial
  | python run =>
    cases run with
    | returned heap result => exact h
    | _ => trivial
  | go run =>
    cases run with
    | returned value retained => exact h
    | _ => trivial

/-! ### The entries -/

/-- The entries of the two analyzers have different names. -/
theorem cacheSuffix_injective : Function.Injective cacheSuffix := by
  intro digest digest' h
  have hlist := congrArg String.toList h
  simp only [cacheSuffix, String.toList_append, List.append_assoc] at hlist
  exact String.toList_injective (List.append_cancel_right (List.append_cancel_left hlist))

variable {sha1 : List UInt8 → String} {files : Files} {answer : Answer} {digest : String}

/-- A right entry joins the right ones. -/
theorem EntriesSound.store (h : EntriesSound sha1 files) {content : List UInt8} {sizes : Sizes} {document : Json}
    (hdigest : sha1 content = digest) (hcalculated : Calculated content sizes) (hholds : Holds document sizes) :
    EntriesSound sha1 (files.store digest document) := by
  intro digest' document' hfind
  rw [Files.store, OrderedDict.find?_insert] at hfind
  split_ifs at hfind with hsame
  · cases hfind
    exact ⟨content, sizes, hdigest.trans (cacheSuffix_injective hsame), hcalculated, hholds⟩
  · exact h digest' document' hfind

/-- **An entry under the digest of some bytes** holds sizes that were calculated from
them. -/
theorem EntriesSound.calculated (hsha1 : Function.Injective sha1) (h : EntriesSound sha1 files) {content : List UInt8}
    (hdigest : sha1 content = digest) {document : Json} (hentry : files.entry digest = .document document) :
    ∃ sizes, Calculated content sizes ∧ Holds document sizes := by
  rw [Files.entry] at hentry
  split at hentry
  · rename_i hfind
    cases hentry
    obtain ⟨content', sizes, hdigest', hcalculated, hholds⟩ := h digest document hfind
    obtain rfl := hsha1 (hdigest'.trans hdigest.symm)
    exact ⟨sizes, hcalculated, hholds⟩
  · cases hentry

/-- What is found was found in an entry. -/
theorem entry_of_pythonEntry {retained : Analyzer.CachedHeap}
    (h : pythonEntry answer files digest = .ok (some retained)) :
    ∃ document, files.entry digest = .document document ∧
      loadCache answer.python (.document document) = .ok (some retained) := by
  rw [pythonEntry] at h
  split_ifs at h
  · cases hentry : files.entry digest with
    | missing =>
      rw [hentry] at h
      cases h
    | malformed =>
      rw [hentry] at h
      cases h
    | document document => exact ⟨document, rfl, hentry ▸ h⟩
  · cases h

/-- An entry that Go takes is a document that it loads. -/
theorem entry_of_goEntry {value : Heap} {retained : RetainedHeap}
    (h : goEntry answer files value digest = .ok (some retained)) :
    ∃ document, files.entry digest = .document document ∧
      loadRetainedCache answer.mapOrder (.document document) value = .ok (some retained) := by
  rw [goEntry] at h
  split_ifs at h
  · cases hentry : files.entry digest with
    | missing =>
      rw [hentry] at h
      cases h
    | malformed =>
      rw [hentry] at h
      cases h
    | document document => exact ⟨document, rfl, hentry ▸ h⟩
  · cases h

/-! ### One step -/

/-- The digest of what was loaded. -/
theorem digest_of_source {source : Option (List UInt8)} {content : List UInt8} (hsource : source = some content)
    (h : source.map sha1 = some digest) : sha1 content = digest := by
  rw [hsource, Option.map_some] at h
  exact Option.some.inj h

/-- **A step of a Python run** keeps the entries right, and the run. -/
theorem PythonRun.Sound.act (hsha1 : Function.Injective sha1) {run : PythonRun} (h : run.Sound)
    (hown : OwnEntry sha1 answer files (.python run)) (hfiles : EntriesSound sha1 files) :
    EntriesSound sha1 (run.act sha1 answer files).1 ∧ (run.act sha1 answer files).2.Sound := by
  cases run with
  | loading =>
    rw [PythonRun.act]
    split
    · rename_i hloads
      exact ⟨hfiles, _, hloads⟩
    · exact ⟨hfiles, trivial⟩
  | hashing heap =>
    rw [PythonRun.act]
    split_ifs
    · exact ⟨hfiles, h⟩
    · exact ⟨hfiles, h⟩
  | lookingUp heap digest =>
    obtain ⟨content, hloads⟩ := h
    rw [PythonRun.act]
    split
    · rename_i retained hfound
      have hsource := source_of_readHeap hloads
      have hdigest := digest_of_source hsource (hown _ (by rw [Task.uses, hfound]; rfl))
      obtain ⟨document, hentry, hload⟩ := entry_of_pythonEntry hfound
      obtain ⟨sizes, hcalculated, hholds⟩ := hfiles.calculated hsha1 hdigest hentry
      exact ⟨hfiles, content, sizes, hsource, hcalculated, hholds.shows hload⟩
    · exact ⟨hfiles, content, hloads⟩
    · exact ⟨hfiles, trivial⟩
  | calculating heap =>
    obtain ⟨content, hloads⟩ := h
    rw [PythonRun.act]
    split
    · rename_i retained hcalculates
      exact ⟨hfiles, content, hloads, .python hloads hcalculates⟩
    · exact ⟨hfiles, trivial⟩
  | hashingAgain heap retained =>
    obtain ⟨content, hloads, hcalculated⟩ := h
    rw [PythonRun.act]
    split_ifs
    · exact ⟨hfiles, content, hloads, hcalculated⟩
    · exact ⟨hfiles, content, _, source_of_readHeap hloads, hcalculated, rfl⟩
  | storing heap retained digest =>
    obtain ⟨content, hloads, hcalculated⟩ := h
    have hsource := source_of_readHeap hloads
    rw [PythonRun.act]
    refine ⟨?_, content, _, hsource, hcalculated, rfl⟩
    split_ifs with hstored
    · exact hfiles.store (digest_of_source hsource (hown _ (by rw [Task.uses, if_pos hstored]; rfl))) hcalculated
        (Analyzer.holds_dump retained)
    · exact hfiles
  | returned heap result => exact ⟨hfiles, h⟩
  | raised => exact ⟨hfiles, trivial⟩

/-- **A step of a Go run** keeps the entries right, and the run. -/
theorem GoRun.Sound.act (hsha1 : Function.Injective sha1) {run : GoRun} (h : run.Sound)
    (hown : OwnEntry sha1 answer files (.go run)) (hfiles : EntriesSound sha1 files) :
    EntriesSound sha1 (run.act sha1 answer files).1 ∧ (run.act sha1 answer files).2.Sound := by
  cases run with
  | loading =>
    rw [GoRun.act]
    split
    · rename_i hloads
      exact ⟨hfiles, _, hloads⟩
    · exact ⟨hfiles, trivial⟩
  | hashing value =>
    rw [GoRun.act]
    split_ifs
    · exact ⟨hfiles, h⟩
    · exact ⟨hfiles, trivial⟩
  | lookingUp value digest =>
    obtain ⟨content, hloads⟩ := h
    rw [GoRun.act]
    split
    · rename_i retained hfound
      have hsource := source_of_load hloads
      have hdigest := digest_of_source hsource (hown _ (by rw [Task.uses, hfound]; rfl))
      obtain ⟨document, hentry, hload⟩ := entry_of_goEntry hfound
      obtain ⟨sizes, hcalculated, hholds⟩ := hfiles.calculated hsha1 hdigest hentry
      exact ⟨hfiles, content, sizes, hsource, hcalculated,
        shows_of_loadRetainedCache (load_indexed hloads) hholds hload⟩
    · exact ⟨hfiles, content, hloads⟩
  | calculating value digest =>
    obtain ⟨content, hloads⟩ := h
    rw [GoRun.act]
    split
    · rename_i retained hcalculates
      exact ⟨hfiles, content, hloads, .go hloads hcalculates⟩
    · exact ⟨hfiles, trivial⟩
  | storing value retained digest =>
    obtain ⟨content, hloads, hcalculated⟩ := h
    have hsource := source_of_load hloads
    have hindexed := load_indexed hloads
    rw [GoRun.act]
    refine ⟨?_, content, _, hsource, hcalculated, hindexed.shows_sizes⟩
    split_ifs with hstored
    · exact hfiles.store (digest_of_source hsource (hown _ (by rw [Task.uses, if_pos hstored]; rfl))) hcalculated
        (holds_retainedDocument hindexed)
    · exact hfiles
  | returned value retained => exact ⟨hfiles, h⟩
  | failed => exact ⟨hfiles, trivial⟩

/-! ### Every run -/

/-- **The cache never answers for different bytes**, as long as no run takes sizes from or
stores them in an entry under another digest than that of the bytes it has loaded. -/
theorem cache_never_stale (sha1 : List UInt8 → String) (hsha1 : Function.Injective sha1) (content : List UInt8)
    {c : Config Files Task} (h : Run (analyses sha1) (OwnEntry sha1) (started content) c) :
    EntriesSound sha1 c.shared ∧ ∀ task ∈ c.tasks, task.ResultSound := by
  obtain ⟨hentries, htasks⟩ := @Interleaving.Run.shared_and_tasks _ _ _ _ _ _ _ (EntriesSound sha1) Task.Sound h
    (fun task hbegins => by
      cases task with
      | replacer => trivial
      | python run => cases hbegins; trivial
      | go run => cases hbegins; trivial)
    (fun answer files task hown hfiles hsound => by
      cases task with
      | replacer => exact ⟨hfiles, fun task' htask' => by
          obtain rfl := List.mem_singleton.1 htask'
          trivial⟩
      | python run =>
        obtain ⟨hfiles', hrun⟩ := PythonRun.Sound.act hsha1 hsound hown hfiles
        refine ⟨hfiles', fun task' htask' => ?_⟩
        obtain rfl := List.mem_singleton.1 htask'
        exact hrun
      | go run =>
        obtain ⟨hfiles', hrun⟩ := GoRun.Sound.act hsha1 hsound hown hfiles
        refine ⟨hfiles', fun task' htask' => ?_⟩
        obtain rfl := List.mem_singleton.1 htask'
        exact hrun)
    (fun _ _ hfind => nomatch hfind) (fun _ htask => absurd htask List.not_mem_nil)
  exact ⟨hentries, fun task htask => (htasks task htask).result⟩

/-! ### Two artifacts -/

/-- The artifact of a heap with one object, of 8 bytes at `address`. -/
def intArtifact (address : ℕ) : List UInt8 :=
  BigEndian.encode 8 magic ++ BigEndian.encode 4 formatVersion ++ BigEndian.encode 2 0 ++ BigEndian.encode 8 0 ++
    (BigEndian.encode 4 4 ++ [("dict", 101), ("list", 102), ("set", 103), ("tuple", 104)].flatMap fun entry =>
      BigEndian.encode 2 entry.1.toUTF8.toList.length ++ entry.1.toUTF8.toList ++ BigEndian.encode 8 entry.2) ++
    -- no thread, no frequent attribute, no common type
    (BigEndian.encode 4 0 ++ BigEndian.encode 4 0 ++ BigEndian.encode 4 0) ++
    (BigEndian.encode 4 1 ++ BigEndian.encode 8 address ++ BigEndian.encode 8 105 ++ BigEndian.encode 4 8 ++
      BigEndian.encode 4 0 ++ BigEndian.encode 4 0) ++
    (BigEndian.encode 4 1 ++ BigEndian.encode 8 105 ++ BigEndian.encode 2 3 ++ "int".toUTF8.toList) ++
    BigEndian.encode 8 magic

/-- The SHA-1 of the two artifacts, and another digest for everything else. -/
def sampleSha1 (content : List UInt8) : String :=
  if content = intArtifact 1 then "bf8047029a06ea10aee65d2b27146c0e7a19bac9"
  else if content = intArtifact 2 then "e91b6f2d95762df898d13d7507fa74966502a473"
  else String.ofList ('-' :: content.map fun byte => Char.ofNat byte.toNat)

/-- The bytes with a digest. -/
def sampleContent (digest : String) : List UInt8 :=
  if digest = "bf8047029a06ea10aee65d2b27146c0e7a19bac9" then intArtifact 1
  else if digest = "e91b6f2d95762df898d13d7507fa74966502a473" then intArtifact 2
  else digest.toList.tail.map fun char => UInt8.ofNat char.toNat

/-- The sample digest tells contents apart. -/
theorem sampleSha1_injective : Function.Injective sampleSha1 := by
  refine Function.LeftInverse.injective (g := sampleContent) fun content => ?_
  have hother : ∀ digest : String, digest.toList.head? ≠ some '-' →
      String.ofList ('-' :: content.map fun byte => Char.ofNat byte.toNat) ≠ digest := by
    rintro digest hhead rfl
    exact hhead (by rw [String.toList_ofList, List.head?_cons])
  unfold sampleSha1
  split_ifs with h₁ h₂
  · rw [sampleContent, if_pos rfl, h₁]
  · rw [sampleContent, if_neg (by decide), if_pos rfl, h₂]
  · rw [sampleContent, if_neg (hother _ (by decide)), if_neg (hother _ (by decide)), String.toList_ofList,
      List.tail_cons, List.map_map]
    refine (List.map_congr_left fun byte _ => ?_).trans (List.map_id content)
    have hvalid : byte.toNat.isValidChar := .inl (by have := byte.toNat_lt; omega)
    have hchar : (Char.ofNat byte.toNat).toNat = byte.toNat := by
      rw [Char.ofNat, dif_pos hvalid]
      rfl
    show UInt8.ofNat (Char.ofNat byte.toNat).toNat = byte
    rw [hchar, UInt8.ofNat_toNat]

/-- A step that succeeds. -/
def calm : Answer := ⟨true, asciiPython, .ascending, .ascending, .inserted, []⟩

/-- The path is replaced by the second artifact. -/
def replaced : Answer := { calm with replacement := intArtifact 2 }

/-- Two runs begin at the first artifact, beside somebody who replaces the path. -/
def begun (first second : Task) : Config Files Task := ⟨⟨intArtifact 1, .empty⟩, [first, second, .replacer]⟩

/-- Two analyses begin. -/
theorem run_begun {allowed : Answer → Files → Task → Prop} {first second : Task} (hfirst : first.Begins)
    (hsecond : second.Begins) : Run (analyses sampleSha1) allowed (started (intArtifact 1)) (begun first second) := by
  have hreplacer : (analyses sampleSha1).enters .replacer := trivial
  exact ((Relation.ReflTransGen.single (.enter _ [] .replacer hreplacer)).tail (.enter _ _ second hsecond)).tail
    (.enter _ _ first hfirst)

/-- The bytes of the heap for which a run has returned sizes from an entry, with the size
of the object at `address`. -/
def Task.taken (address : ℕ) : Task → Option (Option (List UInt8) × Option ℤ)
  | .python (.returned heap (.loaded retained)) => some (heap.source, retained.objects.find? address)
  | _ => none

/-- The first run loads the heap before the path is replaced, and hashes it after. -/
def staleMoves : List (Answer × ℕ) :=
  [(calm, 0), (replaced, 2)] ++ List.replicate 5 (calm, 0) ++ List.replicate 3 (calm, 1)

/-- The end of the stale run. -/
def staleEnd : Config Files Task :=
  staleMoves.foldl (Interleaving.actAt (analyses sampleSha1) Any) (begun (.python .loading) (.python .loading))

/-- The first analysis was given the size of the second artifact. -/
theorem staleEnd_taken : staleEnd.tasks.map (Task.taken 1) = [none, some (some (intArtifact 2), some 8), none] := by
  decide +kernel

/-- The second artifact has no object at 1. -/
theorem calculated_second {sizes : Sizes} (h : Calculated (intArtifact 2) sizes) : sizes.objects 1 = none := by
  cases h with
  | @python heap orders retained hloads hcalculates =>
    have hkeys : (readHeap (intArtifact 2)).map (fun heap => heap.objects.keys) = .ok [2] := by decide +kernel
    rw [hloads] at hkeys
    have hkeys' : heap.objects.keys = [2] := Except.ok.inj hkeys
    obtain ⟨result, hrun, hobjects, -⟩ :=
      Analyzer.calculateRetained_ok orders (Analyzer.localsKnown_of_ok orders le_rfl hcalculates) le_rfl
    cases hcalculates.symm.trans hrun
    refine (hobjects 1).trans (if_neg fun hmem => ?_)
    rw [Analyzer.mem_graph_objects, hkeys'] at hmem
    revert hmem
    decide
  | @go value orders retained hloads hcalculates =>
    have hkeys : (load (intArtifact 2)).map (fun value => value.objectByAddress.keys) = .ok [2] := by decide +kernel
    rw [hloads] at hkeys
    have hkeys' : value.objectByAddress.keys = [2] := Except.ok.inj hkeys
    have hnone : value.objectByAddress.find? 1 = none := by
      rw [OrderedDict.find?_eq_none, hkeys']
      decide
    show (value.objectByAddress.find? 1).bind _ = none
    rw [hnone, Option.bind_none]

/-- The entry under the digest of the second artifact has a size for 1. -/
theorem staleEnd_entry :
    ∃ retained, pythonEntry calm staleEnd.shared (sampleSha1 (intArtifact 2)) = .ok (some retained) ∧
    retained.objects.find? 1 = some 8 := by
  have hfind : ((pythonEntry calm staleEnd.shared (sampleSha1 (intArtifact 2))).toOption.join.bind
      fun retained => retained.objects.find? 1) = some 8 := by decide +kernel
  obtain ⟨retained, hjoin, hfind⟩ := Option.bind_eq_some_iff.1 hfind
  refine ⟨retained, ?_, hfind⟩
  cases hentry : pythonEntry calm staleEnd.shared (sampleSha1 (intArtifact 2)) with
  | error e =>
    rw [hentry] at hjoin
    cases hjoin
  | ok found =>
    rw [hentry] at hjoin
    exact congrArg Except.ok (hjoin : found = some retained)

/-- **The cache answers for different bytes.**  The path is replaced between the loading
and the hashing of the first run: it stores the sizes of the first artifact under the
digest of the second, and another run on the second takes them. -/
theorem stale_entry :
    Function.Injective sampleSha1 ∧
      ∃ c, Run (analyses sampleSha1) Any (started (intArtifact 1)) c ∧ ¬EntriesSound sampleSha1 c.shared ∧
        ∃ task ∈ c.tasks, ¬task.ResultSound := by
  refine ⟨sampleSha1_injective, staleEnd, (@run_begun _ (.python .loading) (.python .loading) rfl rfl).trans
    (run_play staleMoves _), fun hsound => ?_, ?_⟩
  · obtain ⟨retained, hentry, hfind⟩ := staleEnd_entry
    obtain ⟨document, hdocument, hload⟩ := entry_of_pythonEntry hentry
    obtain ⟨sizes, hcalculated, hholds⟩ := hsound.calculated sampleSha1_injective rfl hdocument
    have hshows := (hholds.shows hload).objects 1
    rw [calculated_second hcalculated, Option.map_none] at hshows
    cases hfind.symm.trans hshows
  · have htaken : some (some (intArtifact 2), some 8) ∈ staleEnd.tasks.map (Task.taken 1) := by
      rw [staleEnd_taken]
      exact List.mem_cons_of_mem _ List.mem_cons_self
    obtain ⟨task, htask, htaken⟩ := List.mem_map.1 htaken
    refine ⟨task, htask, fun hsound => ?_⟩
    unfold Task.taken at htaken
    split at htaken
    · obtain ⟨content, sizes, hsource, hcalculated, hshows⟩ := hsound
      obtain ⟨hcontent, hfind⟩ := Prod.mk.inj (Option.some.inj htaken)
      obtain rfl := Option.some.inj (hsource.symm.trans hcontent)
      have hshows := hshows.objects 1
      rw [calculated_second hcalculated, Option.map_none] at hshows
      cases hfind.symm.trans hshows
    · cases htaken

/-- Without a replacement in between, a Python run stores what a Go run then takes. -/
def sharedMoves : List (Answer × ℕ) := List.replicate 6 (calm, 0) ++ List.replicate 3 (calm, 1) ++ [(replaced, 2)]

/-- The end of the shared run. -/
def sharedEnd : Config Files Task :=
  sharedMoves.foldl (Interleaving.actAt (analyses sampleSha1) (OwnEntry sampleSha1))
    (begun (.python .loading) (.go .loading))

/-- The sizes that a Go run has returned. -/
def Task.goSizes : Task → Option (List ℕ)
  | .go (.returned _ retained) => some retained.objects
  | _ => none

/-- Such a run. -/
theorem cache_never_stale_shared :
    sharedEnd.shared.entries.keys = [cacheSuffix (sampleSha1 (intArtifact 1))] ∧
      sharedEnd.tasks.map Task.goSizes = [none, some [8], none] ∧
      EntriesSound sampleSha1 sharedEnd.shared ∧ ∀ task ∈ sharedEnd.tasks, task.ResultSound :=
  ⟨by decide +kernel, by decide +kernel, cache_never_stale sampleSha1 sampleSha1_injective (intArtifact 1)
    ((@run_begun _ (.python .loading) (.go .loading) rfl rfl).trans (run_play sharedMoves _))⟩

end Go
end Pydump
