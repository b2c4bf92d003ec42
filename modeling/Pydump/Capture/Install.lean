/-
# Installing the Agent

`install_agent` of `loader/install.py`, called any number of times for one source and one
target root, step by step: the existence check, the open of the `.partial` file, which
empties it, the writes of `shutil.copyfile`, the `chmod` and the `os.replace`.

A file is an inode, which keeps its content whatever its name becomes: an open handle
writes to the inode it was opened on, and `os.replace` moves the inode that the `.partial`
name stands for at that time.  All calls share that name, so the file that a call
renames can be one that another call has emptied in the meantime
(`replaced_while_empty`).  This is the only way in which an installed file is not whole
(`installed_whole`).
-/

import Pydump.Lib.Interleaving

namespace Pydump
namespace Capture

open Interleaving (Any Config Program Run Step run_play)

/-! ### Files -/

/-- The contents of the inodes, and the inodes that `host_path` and the `.partial` name
stand for. -/
structure Files where
  contents : List (List UInt8)
  host : Option ℕ
  temporary : Option ℕ

/-- `open(temporary, "wb")`: the inode that is emptied, or a new one. -/
def Files.openTemporary (files : Files) : Files × ℕ :=
  match files.temporary with
  | some inode => ({ files with contents := files.contents.set inode [] }, inode)
  | none => ({ files with contents := files.contents ++ [[]], temporary := some files.contents.length },
      files.contents.length)

/-- A write at an offset, which zeros fill up to where the file is shorter. -/
def writeAt (offset : ℕ) (bytes content : List UInt8) : List UInt8 :=
  content.take offset ++ (List.replicate (offset - content.length) 0 ++ (bytes ++ content.drop (offset + bytes.length)))

/-- A write through a handle. -/
def Files.write (files : Files) (inode offset : ℕ) (bytes : List UInt8) : Files :=
  { files with contents := files.contents.modify inode (writeAt offset bytes) }

/-- `os.replace(temporary, host_path)`, where there is a `.partial` file. -/
def Files.replace (files : Files) (inode : ℕ) : Files := { files with host := some inode, temporary := none }

/-! ### A call -/

/-- What a step meets: whether the process dies, whether the call of the file system
succeeds, and how many bytes are read and written at once. -/
structure InstallAnswer where
  dies : Bool
  succeeds : Bool
  count : ℕ

/-- Where a call of `install_agent` is. -/
inductive InstallCall
  /-- `host_path.exists()` -/
  | checking
  /-- `open` in `shutil.copyfile` -/
  | opening
  /-- the copy, through a handle that stands at `offset` -/
  | copying (inode offset : ℕ)
  /-- `os.chmod` -/
  | permitting
  /-- `os.replace` -/
  | replacing
  /-- with the inode that `host_path` stood for when it was seen or put there -/
  | returned (inode : ℕ)
  /-- by an exception, or with its process -/
  | ended
  deriving DecidableEq

/-- A step of a call, whose copy reads `source`. -/
def InstallCall.act (source : List UInt8) (answer : InstallAnswer) (files : Files) (call : InstallCall) :
    Files × InstallCall :=
  match call with
  | .returned inode => (files, .returned inode)
  | .ended => (files, .ended)
  | .checking =>
    if answer.dies then (files, .ended)
    else
      match files.host with
      | some inode => (files, .returned inode)
      | none => (files, .opening)
  | .opening =>
    if answer.dies ∨ ¬answer.succeeds then (files, .ended)
    else (files.openTemporary.1, .copying files.openTemporary.2 0)
  | .copying inode offset =>
    if answer.dies ∨ ¬answer.succeeds then (files, .ended)
    else if source.length ≤ offset then (files, .permitting)
    else
      let bytes := (source.drop offset).take answer.count
      (files.write inode offset bytes, .copying inode (offset + bytes.length))
  | .permitting =>
    if answer.dies ∨ ¬answer.succeeds ∨ files.temporary = none then (files, .ended) else (files, .replacing)
  | .replacing =>
    if answer.dies ∨ ¬answer.succeeds then (files, .ended)
    else
      match files.temporary with
      | some inode => (files.replace inode, .returned inode)
      | none => (files, .ended)

/-- Any number of calls for one source. -/
def installs (source : List UInt8) : Program Files InstallCall InstallAnswer where
  act answer files call := ((call.act source answer files).1, [(call.act source answer files).2])
  enters call := call = .checking

/-! ### Whole files -/

variable {source : List UInt8} {files : Files} {inode : ℕ}

/-- The inode holds the source. -/
def Files.Complete (source : List UInt8) (files : Files) (inode : ℕ) : Prop := files.contents[inode]? = some source

/-- What `host_path` stands for is whole, and so is what a call has seen or put there. -/
structure Whole (source : List UInt8) (c : Config Files InstallCall) : Prop where
  host : ∀ inode, c.shared.host = some inode → c.shared.Complete source inode
  returned : ∀ inode, .returned inode ∈ c.tasks → c.shared.Complete source inode

/-- A replace moves a file that is complete: nobody has emptied it and not yet filled it
again. -/
def Undisturbed (source : List UInt8) (_ : InstallAnswer) (files : Files) (call : InstallCall) : Prop :=
  call = .replacing → ∀ inode, files.temporary = some inode → files.Complete source inode

instance (source : List UInt8) (files : Files) (inode : ℕ) : Decidable (files.Complete source inode) :=
  inferInstanceAs (Decidable (files.contents[inode]? = some source))

instance (source : List UInt8) (answer : InstallAnswer) (files : Files) (call : InstallCall) :
    Decidable (Undisturbed source answer files call) :=
  decidable_of_iff (call = .replacing → ∀ inode ∈ files.temporary, files.Complete source inode) Iff.rfl

/-- A whole file that no open empties any more. -/
structure Files.Published (source : List UInt8) (files : Files) (inode : ℕ) : Prop where
  complete : files.Complete source inode
  unnamed : files.temporary ≠ some inode

/-- What is written where it stands changes nothing. -/
theorem writeAt_self {offset : ℕ} (hoffset : offset ≤ source.length) (count : ℕ) :
    writeAt offset ((source.drop offset).take count) source = source := by
  have hzeros : offset - source.length = 0 := by omega
  unfold writeAt
  rw [hzeros, List.replicate_zero, List.nil_append, ← List.drop_drop]
  have hlen : ((source.drop offset).drop ((source.drop offset).take count).length) =
      (source.drop offset).drop count := by
    rw [List.length_take]
    rcases Nat.le_total count (source.drop offset).length with hle | hge
    · rw [Nat.min_eq_left hle]
    · rw [Nat.min_eq_right hge, List.drop_of_length_le hge, List.drop_length]
  rw [hlen, List.take_append_drop, List.take_append_drop]

/-- An open empties no published file. -/
theorem Files.Published.openTemporary (h : files.Published source inode) :
    files.openTemporary.1.Published source inode := by
  obtain ⟨hcomplete, hunnamed⟩ := h
  have hlt : inode < files.contents.length := (List.getElem?_eq_some_iff.1 hcomplete).1
  unfold Files.openTemporary
  split
  · rename_i other hother
    have hne : other ≠ inode := fun heq => hunnamed (heq ▸ hother)
    refine ⟨?_, by simpa [hother] using hne⟩
    show (files.contents.set other [])[inode]? = some source
    rw [List.getElem?_set_ne hne]
    exact hcomplete
  · refine ⟨?_, ?_⟩
    · show (files.contents ++ [[]])[inode]? = some source
      rw [List.getElem?_append_left hlt]
      exact hcomplete
    · simp only [ne_eq, Option.some.injEq]
      omega

/-- **A late write changes nothing**: what a copy writes into a whole file stands there. -/
theorem Files.Published.write (h : files.Published source inode) {offset : ℕ} (hoffset : offset ≤ source.length)
    (other count : ℕ) : (files.write other offset ((source.drop offset).take count)).Published source inode := by
  obtain ⟨hcomplete, hunnamed⟩ := h
  refine ⟨?_, hunnamed⟩
  show (files.contents.modify other _)[inode]? = some source
  rw [List.getElem?_modify, hcomplete, Option.map_eq_map, Option.map_some]
  split_ifs
  · rw [writeAt_self hoffset]
  · rfl

/-- A rename leaves a published file published. -/
theorem Files.Published.replace (h : files.Published source inode) (other : ℕ) :
    (files.replace other).Published source inode :=
  ⟨h.complete, by simp [Files.replace]⟩

/-- What holds of a call in a run: its handle stands within the source, and what it has
returned is published. -/
def InstallCall.Good (source : List UInt8) (files : Files) : InstallCall → Prop
  | .copying _ offset => offset ≤ source.length
  | .returned inode => files.Published source inode
  | _ => True

/-- What a step of a call can be. -/
inductive Moves (source : List UInt8) (files : Files) : InstallCall → Files → InstallCall → Prop
  | stay (call : InstallCall) : Moves source files call files call
  | goOn (call next : InstallCall) (h : next ∈ [.opening, .permitting, .replacing, .ended]) :
    Moves source files call files next
  | see (inode : ℕ) (h : files.host = some inode) : Moves source files .checking files (.returned inode)
  | empty : Moves source files .opening files.openTemporary.1 (.copying files.openTemporary.2 0)
  | write (inode offset count : ℕ) : Moves source files (.copying inode offset)
      (files.write inode offset ((source.drop offset).take count))
      (.copying inode (offset + ((source.drop offset).take count).length))
  | rename (inode : ℕ) (h : files.temporary = some inode) :
    Moves source files .replacing (files.replace inode) (.returned inode)

/-- What a step of a call does. -/
theorem InstallCall.moves (source : List UInt8) (answer : InstallAnswer) (files : Files) (call : InstallCall) :
    Moves source files call (call.act source answer files).1 (call.act source answer files).2 := by
  fun_cases InstallCall.act source answer files call with
  | case1 inode => exact .stay _
  | case2 => exact .stay _
  | case3 => exact .goOn _ _ (by simp)
  | case4 _ inode hhost => exact .see inode hhost
  | case5 => exact .goOn _ _ (by simp)
  | case6 => exact .goOn _ _ (by simp)
  | case7 => exact .empty
  | case8 => exact .goOn _ _ (by simp)
  | case9 => exact .goOn _ _ (by simp)
  | case10 inode offset => exact .write inode offset answer.count
  | case11 => exact .goOn _ _ (by simp)
  | case12 => exact .goOn _ _ (by simp)
  | case13 => exact .goOn _ _ (by simp)
  | case14 _ inode htemporary => exact .rename inode htemporary
  | case15 => exact .goOn _ _ (by simp)

variable {files' : Files} {call call' : InstallCall}

/-- **No step takes a published file back.** -/
theorem Files.Published.moves (h : files.Published source inode) (hgood : call.Good source files)
    (hmoves : Moves source files call files' call') : files'.Published source inode := by
  cases hmoves with
  | stay | goOn | see => exact h
  | empty => exact h.openTemporary
  | write other offset count => exact h.write hgood other count
  | rename other => exact h.replace other

/-- What `host_path` stands for is published. -/
def HostPublished (source : List UInt8) (files : Files) : Prop :=
  ∀ inode, files.host = some inode → files.Published source inode

/-- An open leaves `host_path`. -/
theorem host_openTemporary (files : Files) : files.openTemporary.1.host = files.host := by
  unfold Files.openTemporary
  split <;> rfl

/-- **A step of a call** that does not rename a disturbed file. -/
theorem published_moves (hhost : HostPublished source files) (hgood : call.Good source files)
    (hallowed : call = .replacing → ∀ inode, files.temporary = some inode → files.Complete source inode)
    (hmoves : Moves source files call files' call') : HostPublished source files' ∧ call'.Good source files' := by
  have hkeeps : ∀ inode, files.host = some inode → files'.Published source inode :=
    fun inode hinode => (hhost inode hinode).moves hgood hmoves
  cases hmoves with
  | stay => exact ⟨hhost, hgood⟩
  | goOn _ next hnext =>
    refine ⟨hhost, ?_⟩
    simp only [List.mem_cons, List.not_mem_nil, or_false] at hnext
    rcases hnext with rfl | rfl | rfl | rfl <;> trivial
  | see inode hinode => exact ⟨hhost, hhost inode hinode⟩
  | empty => exact ⟨fun inode hinode => hkeeps inode (host_openTemporary files ▸ hinode), Nat.zero_le _⟩
  | write other offset count =>
    refine ⟨hkeeps, ?_⟩
    have hoffset : offset ≤ source.length := hgood
    show offset + ((source.drop offset).take count).length ≤ source.length
    rw [List.length_take, List.length_drop]
    omega
  | rename other hother =>
    have hpublished : (files.replace other).Published source other :=
      ⟨hallowed rfl other hother, by simp [Files.replace]⟩
    refine ⟨fun inode hinode => ?_, hpublished⟩
    obtain rfl : other = inode := by simpa [Files.replace] using hinode
    exact hpublished

/-! ### Runs -/

/-- The invariant of a run. -/
structure Installing (source : List UInt8) (c : Config Files InstallCall) : Prop where
  host : HostPublished source c.shared
  calls : ∀ call ∈ c.tasks, call.Good source c.shared

/-- A step of a call leaves another call good. -/
theorem InstallCall.Good.moves {other : InstallCall} (h : other.Good source files) (hgood : call.Good source files)
    (hmoves : Moves source files call files' call') : other.Good source files' := by
  cases other with
  | copying => exact h
  | returned => exact Files.Published.moves h hgood hmoves
  | checking | opening | permitting | replacing | ended => trivial

/-- A step keeps the invariant. -/
theorem Installing.step {c c' : Config Files InstallCall} (h : Installing source c)
    (hstep : Step (installs source) (Undisturbed source) c c') : Installing source c' := by
  obtain ⟨hhost, hcalls⟩ := h
  rcases hstep with ⟨files, calls, call, henters⟩ | ⟨answer, files, before, call, after, hallowed⟩
  · refine ⟨hhost, fun other hother => ?_⟩
    rcases List.mem_cons.1 hother with rfl | hother
    · rw [show other = .checking from henters]
      trivial
    · exact hcalls other hother
  · have hgood : call.Good source files := hcalls call (by simp)
    have hmoves := call.moves source answer files
    obtain ⟨hhost', hgood'⟩ := published_moves hhost hgood hallowed hmoves
    refine ⟨hhost', fun other hother => ?_⟩
    rcases List.mem_append.1 hother with hother | hother
    · exact (hcalls other (List.mem_append_left _ hother)).moves hgood hmoves
    · rcases List.mem_cons.1 hother with rfl | hother
      · exact hgood'
      · exact (hcalls other (List.mem_append_right _ (List.mem_cons_of_mem call hother))).moves hgood hmoves

/-- Under the invariant files are whole. -/
theorem Installing.whole {c : Config Files InstallCall} (h : Installing source c) : Whole source c where
  host inode hinode := (h.host inode hinode).complete
  returned inode hinode := Files.Published.complete (h.calls (.returned inode) hinode)

/-- **Installed files are whole.**  Start with any `.partial` file and with a published Agent
or none.  In a run of any number of calls, in which a call renames the `.partial` file
only while it is complete, `host_path` stands for a whole file in every state, and every
call that has returned saw or put there a file that is whole and stays so.  A rename of a
file that is not complete leaves `host_path` with a file that is not whole. -/
theorem installed_whole (hhost : HostPublished source files) :
    (∀ c, Run (installs source) (Undisturbed source) ⟨files, []⟩ c → Whole source c) ∧
      ∀ answer files before after, answer.dies = false → answer.succeeds = true →
        ¬Undisturbed source answer files .replacing →
          ¬Whole source ⟨((installs source).act answer files .replacing).1,
            before ++ (((installs source).act answer files .replacing).2 ++ after)⟩ := by
  refine ⟨fun c hrun => ?_, fun answer files before after hlives hsucceeds hdisturbed hwhole => hdisturbed ?_⟩
  · have hstart : Installing source ⟨files, []⟩ := ⟨hhost, by simp⟩
    exact (hrun.invariant hstart fun _ _ hstep h => h.step hstep).whole
  · intro _ inode hinode
    have hact : ((installs source).act answer files .replacing).1 = files.replace inode := by
      simp [installs, InstallCall.act, hlives, hsucceeds, hinode]
    have hcomplete := hwhole.host inode (by rw [hact]; rfl)
    rw [hact] at hcomplete
    exact hcomplete

/-- The call of the file system succeeds, and a write takes up to ten bytes. -/
def success : InstallAnswer := ⟨false, true, 10⟩

/-- Who acts in a run of two calls: both see no file and open the `.partial` one, the
second copies and renames it, and the first then writes through its handle into the
installed file. -/
def lateWrite : List (InstallAnswer × ℕ) :=
  [1, 0, 1, 0, 0, 0, 0, 0, 1, 1, 1].map fun call => (success, call)

/-- Two calls at once that find the `.partial` file of one that died. -/
theorem installed_whole_leftover :
    lateWrite.foldl (Interleaving.actAt (installs [1, 2]) (Undisturbed [1, 2]))
        ⟨⟨[[9]], none, some 0⟩, [.checking, .checking]⟩ = ⟨⟨[[1, 2]], some 0, none⟩, [.returned 0, .ended]⟩ ∧
      Whole [1, 2] (lateWrite.foldl (Interleaving.actAt (installs [1, 2]) (Undisturbed [1, 2]))
        ⟨⟨[[9]], none, some 0⟩, [.checking, .checking]⟩) ∧
      ¬Whole [1, 2] ⟨((installs [1, 2]).act success ⟨[[9]], none, some 0⟩ .replacing).1,
        [] ++ (((installs [1, 2]).act success ⟨[[9]], none, some 0⟩ .replacing).2 ++ [.checking])⟩ := by
  have hnone : HostPublished [1, 2] ⟨[[9]], none, some 0⟩ := nofun
  have hfirst : Step (installs [1, 2]) (Undisturbed [1, 2]) ⟨⟨[[9]], none, some 0⟩, []⟩
      ⟨⟨[[9]], none, some 0⟩, [.checking]⟩ :=
    Step.enter _ [] InstallCall.checking rfl
  have henter := (Relation.ReflTransGen.single hfirst).tail (Step.enter _ _ InstallCall.checking rfl)
  refine ⟨rfl, (installed_whole hnone).1 _ (henter.trans (run_play lateWrite _)), ?_⟩
  exact (installed_whole hnone).2 success _ [] [.checking] rfl rfl (by decide)

/-- Two calls for a source of one byte: the second empties the file that the first is
about to rename. -/
theorem replaced_while_empty : ∃ c, Run (installs [1]) Any ⟨⟨[], none, none⟩, []⟩ c ∧
    c.shared.host = some 0 ∧ c.shared.contents = [[]] ∧ ¬Whole [1] c := by
  have hfirst : Step (installs [1]) Any ⟨⟨[], none, none⟩, []⟩ ⟨⟨[], none, none⟩, [.checking]⟩ :=
    Step.enter _ [] InstallCall.checking rfl
  have henter := (Relation.ReflTransGen.single hfirst).tail (Step.enter _ _ InstallCall.checking rfl)
  have hrun :=
    henter.trans (run_play [(success, 0), (success, 1), (success, 0), (success, 0), (success, 0), (success, 0),
    (success, 1), (success, 0)] _)
  exact ⟨_, hrun, rfl, rfl, fun h => absurd (h.host 0 rfl) (by decide)⟩

end Capture
end Pydump
