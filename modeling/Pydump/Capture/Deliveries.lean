/-
# Captures that share a directory

`Collector.capture` with the calls of the file system one by one, so that any number
of captures can take turns.  A capture probes names until one is free, creates the
temporary file, has `_capture` write it, validates it, replaces the final path with
it and asks for its size.  An exception has it unlink the temporary file.

Between the probe that finds a name free and the `os.replace` that takes it the name
can be taken by others, which `os.replace` overwrites.  `delivered_of_unclobbered` says
that nothing else goes wrong.
-/

import Pydump.Capture.Delivery
import Pydump.Lib.Interleaving

namespace Pydump
namespace Capture

open Interleaving (Any Config Keeps Program Run Separated run_play)

/-- Where a capture stands; `finalName` is the name of the final path and `written`
what `_capture` has written so far, which the code does not keep. -/
inductive Stage
  | probing (candidate : Option ℕ)
  | creating (finalName : String)
  | writing (finalName : String) (written : List UInt8)
  | validating (finalName : String) (count : ℕ) (written : List UInt8)
  | replacing (finalName : String) (count : ℕ) (written : List UInt8)
  | measuring (finalName : String) (count : ℕ) (written : List UInt8)
  | failing (finalName : String)
  | returned (finalName : String) (count : ℕ) (written : List UInt8)
  | raised

/-- A run of `Collector.capture`. -/
structure Delivery where
  requested : String
  nonce : List UInt8
  stage : Stage
  nonce_length : nonce.length = 16

/-- What the outside does: `_capture` writes, or it returns the number of objects; a
call succeeds, or it raises. -/
inductive Answer
  | wrote (bytes : List UInt8)
  | captured (count : ℕ)
  | succeeded
  | failed

/-- One act of a capture. -/
def Stage.act (answer : Answer) (directory : Directory) (requested : String) (nonce : List UInt8) :
    Stage → Directory × Stage
  | .probing candidate =>
    match answer with
    | .failed => (directory, .raised)
    | _ =>
      if directory.Exists (outputName requested candidate) then (directory, .probing (nextCandidate candidate))
      else (directory, .creating (outputName requested candidate))
  | .creating finalName =>
    match answer with
    | .failed => (directory, .failing finalName)
    | _ =>
      if directory.Exists (temporaryName finalName nonce) then (directory, .failing finalName)
      else (directory.insert (temporaryName finalName nonce) [], .writing finalName [])
  | .writing finalName written =>
    match answer with
    | .wrote bytes =>
      (directory.insert (temporaryName finalName nonce) (written ++ bytes), .writing finalName (written ++ bytes))
    | .captured count => (directory, .validating finalName count written)
    | .succeeded => (directory, .writing finalName written)
    | .failed => (directory, .failing finalName)
  | .validating finalName count written =>
    match answer, directory.find? (temporaryName finalName nonce) with
    | .failed, _ | _, none => (directory, .failing finalName)
    | _, some bytes =>
      match validateArtifact (temporaryName finalName nonce) bytes with
      | .ok () => (directory, .replacing finalName count written)
      | .error _ => (directory, .failing finalName)
  | .replacing finalName count written =>
    match answer, directory.find? (temporaryName finalName nonce) with
    | .failed, _ | _, none => (directory, .failing finalName)
    | _, some bytes =>
      ((directory.insert finalName bytes).erase (temporaryName finalName nonce), .measuring finalName count written)
  | .measuring finalName count written =>
    match answer with
    | .failed => (directory, .failing finalName)
    | _ =>
      if directory.Exists finalName then (directory, .returned finalName count written)
      else (directory, .failing finalName)
  | .failing finalName => (directory.erase (temporaryName finalName nonce), .raised)
  | .returned finalName count written => (directory, .returned finalName count written)
  | .raised => (directory, .raised)

/-- A step of a delivery. -/
def Delivery.act (answer : Answer) (directory : Directory) (delivery : Delivery) : Directory × List Delivery :=
  let r := delivery.stage.act answer directory delivery.requested delivery.nonce
  (r.1, [{ delivery with stage := r.2 }])

/-- All captures are there from the start. -/
def deliveries : Program Directory Delivery Answer := ⟨Delivery.act, fun _ => False⟩

/-- A capture before its first act. -/
def Delivery.Fresh (requested : String) (delivery : Delivery) : Prop :=
  delivery.requested = requested ∧ delivery.stage = .probing none

/-- Captures of one requested path with nonces of their own. -/
structure Started (requested : String) (before : Directory) (c : Config Directory Delivery) : Prop where
  shared : c.shared = before
  fresh : ∀ delivery ∈ c.tasks, delivery.Fresh requested
  nonces : (c.tasks.map Delivery.nonce).Nodup

/-- The `os.replace` that comes next overwrites a file. -/
def Delivery.clobbers (answer : Answer) (directory : Directory) (delivery : Delivery) : Bool :=
  match delivery.stage, answer with
  | .replacing _ _ _, .failed => false
  | .replacing finalName _ _, _ => decide (directory.Exists finalName)
  | _, _ => false

/-- No `os.replace` overwrites a file. -/
def Unclobbered (answer : Answer) (directory : Directory) (delivery : Delivery) : Prop :=
  delivery.clobbers answer directory = false

instance (answer : Answer) (directory : Directory) (delivery : Delivery) :
    Decidable (Unclobbered answer directory delivery) :=
  inferInstanceAs (Decidable (delivery.clobbers answer directory = false))

/-- Every capture that has returned a path finds there what it wrote. -/
def Delivered (c : Config Directory Delivery) : Prop :=
  ∀ delivery ∈ c.tasks, ∀ finalName count written, delivery.stage = .returned finalName count written →
    c.shared.find? finalName = some written

/-- The files that were there under the names of outputs are still there. -/
def Untouched (requested : String) (before directory : Directory) : Prop :=
  ∀ candidate bytes, before.find? (outputName requested candidate) = some bytes →
    directory.find? (outputName requested candidate) = some bytes

/-! ### What one act can do -/

/-- All that one act of a capture can do. -/
inductive Stage.Moves (directory : Directory) (requested : String) (nonce : List UInt8) :
    Stage → Directory → Stage → Prop
  | stopped {candidate} : Moves directory requested nonce (.probing candidate) directory .raised
  | next {candidate} :
      Moves directory requested nonce (.probing candidate) directory (.probing (nextCandidate candidate))
  | chosen {candidate} :
      Moves directory requested nonce (.probing candidate) directory (.creating (outputName requested candidate))
  | created {finalName} : Moves directory requested nonce (.creating finalName)
      (directory.insert (temporaryName finalName nonce) []) (.writing finalName [])
  | wrote {finalName written bytes} : Moves directory requested nonce (.writing finalName written)
      (directory.insert (temporaryName finalName nonce) (written ++ bytes)) (.writing finalName (written ++ bytes))
  | captured {finalName written count} :
      Moves directory requested nonce (.writing finalName written) directory (.validating finalName count written)
  | validated {finalName written count} : Moves directory requested nonce (.validating finalName count written)
      directory (.replacing finalName count written)
  | replaced {finalName written count bytes} (there : directory.find? (temporaryName finalName nonce) = some bytes) :
      Moves directory requested nonce (.replacing finalName count written)
        ((directory.insert finalName bytes).erase (temporaryName finalName nonce)) (.measuring finalName count written)
  | measured {finalName written count} : Moves directory requested nonce (.measuring finalName count written)
      directory (.returned finalName count written)
  | abandonedNew {finalName} : Moves directory requested nonce (.creating finalName) directory (.failing finalName)
  | abandoned {finalName written} :
      Moves directory requested nonce (.writing finalName written) directory (.failing finalName)
  | invalid {finalName written count} :
      Moves directory requested nonce (.validating finalName count written) directory (.failing finalName)
  | unreplaced {finalName written count} :
      Moves directory requested nonce (.replacing finalName count written) directory (.failing finalName)
  | unmeasured {finalName written count} :
      Moves directory requested nonce (.measuring finalName count written) directory (.failing finalName)
  | unlinked {finalName} : Moves directory requested nonce (.failing finalName)
      (directory.erase (temporaryName finalName nonce)) .raised
  | kept {stage} : Moves directory requested nonce stage directory stage

/-- What a step of a delivery does. -/
theorem Stage.act_moves (answer : Answer) (directory : Directory) (requested : String) (nonce : List UInt8)
    (stage : Stage) :
    stage.Moves directory requested nonce (stage.act answer directory requested nonce).1
      (stage.act answer directory requested nonce).2 := by
  cases stage with
  | probing candidate =>
    cases answer with
    | failed => exact .stopped
    | _ =>
      simp only [Stage.act]
      split_ifs
      · exact .next
      · exact .chosen
  | creating finalName =>
    cases answer with
    | failed => exact .abandonedNew
    | _ =>
      simp only [Stage.act]
      split_ifs
      · exact .abandonedNew
      · exact .created
  | writing finalName written =>
    cases answer with
    | wrote bytes => exact .wrote
    | captured count => exact .captured
    | succeeded => exact .kept
    | failed => exact .abandoned
  | validating finalName count written =>
    simp only [Stage.act]
    split
    · exact .invalid
    · exact .invalid
    · split
      · exact .validated
      · exact .invalid
  | replacing finalName count written =>
    simp only [Stage.act]
    split
    · exact .unreplaced
    · exact .unreplaced
    · rename_i bytes _ hthere
      exact .replaced hthere
  | measuring finalName count written =>
    cases answer with
    | failed => exact .unmeasured
    | _ =>
      simp only [Stage.act]
      split_ifs
      · exact .measured
      · exact .unmeasured
  | failing finalName => exact .unlinked
  | returned finalName count written => exact .kept
  | raised => exact .kept

/-! ### What holds of every capture -/

/-- A name that `available_output_path` can choose. -/
def IsOutput (requested finalName : String) : Prop := ∃ candidate, finalName = outputName requested candidate

/-- The temporary name is not an output name of any capture. -/
theorem temporaryName_ne_of_isOutput {requested finalName finalName' : String} (h : IsOutput requested finalName)
    (h' : IsOutput requested finalName') (nonce : List UInt8) : temporaryName finalName nonce ≠ finalName' := by
  obtain ⟨candidate, rfl⟩ := h
  obtain ⟨candidate', rfl⟩ := h'
  exact temporaryName_ne_outputName requested candidate candidate' nonce

/-- What holds of the directory where a capture stands. -/
def Stage.Good (requested : String) (nonce : List UInt8) (directory : Directory) : Stage → Prop
  | .probing _ | .raised => True
  | .creating finalName | .failing finalName => IsOutput requested finalName
  | .writing finalName written | .validating finalName _ written | .replacing finalName _ written =>
    IsOutput requested finalName ∧ directory.find? (temporaryName finalName nonce) = some written
  | .measuring finalName _ written | .returned finalName _ written =>
    IsOutput requested finalName ∧ directory.find? finalName = some written

/-- What holds of a capture of `requested`. -/
def Delivery.Good (requested : String) (directory : Directory) (delivery : Delivery) : Prop :=
  delivery.requested = requested ∧ delivery.stage.Good requested delivery.nonce directory

/-- **What a capture does to other files**: it leaves those that are neither its
temporary file nor an output that it overwrites. -/
theorem Stage.Moves.frame {directory directory' : Directory} {requested : String} {nonce : List UInt8}
    {stage stage' : Stage} (h : stage.Moves directory requested nonce directory' stage')
    (hgood : stage.Good requested nonce directory) (hclobbers : ∀ finalName count written,
      stage = .replacing finalName count written → stage' = .measuring finalName count written →
        ¬directory.Exists finalName) {name : String} {bytes : List UInt8}
    (hname : ∀ finalName, IsOutput requested finalName → temporaryName finalName nonce ≠ name)
    (hfind : directory.find? name = some bytes) : directory'.find? name = some bytes := by
  cases h with
  | created => rwa [OrderedDict.find?_insert, if_neg (hname _ hgood)]
  | wrote => rwa [OrderedDict.find?_insert, if_neg (hname _ hgood.1)]
  | @replaced finalName written count content there =>
    rw [OrderedDict.find?_erase, if_neg (hname _ hgood.1), OrderedDict.find?_insert, if_neg, hfind]
    rintro rfl
    refine hclobbers finalName count written rfl rfl ?_
    rw [Directory.Exists, hfind]
    rfl
  | unlinked => rwa [OrderedDict.find?_erase, if_neg (hname _ hgood)]
  | _ => exact hfind

/-- **What a capture does for itself.** -/
theorem Stage.Moves.good {directory directory' : Directory} {requested : String} {nonce : List UInt8}
    {stage stage' : Stage} (h : stage.Moves directory requested nonce directory' stage')
    (hgood : stage.Good requested nonce directory) : stage'.Good requested nonce directory' := by
  cases h with
  | stopped => trivial
  | next => trivial
  | chosen => exact ⟨_, rfl⟩
  | created => exact ⟨hgood, by rw [OrderedDict.find?_insert, if_pos rfl]⟩
  | wrote => exact ⟨hgood.1, by rw [OrderedDict.find?_insert, if_pos rfl]⟩
  | captured => exact hgood
  | validated => exact hgood
  | @replaced finalName written count content there =>
    have hcontent : content = written := Option.some.inj (there.symm.trans hgood.2)
    refine ⟨hgood.1, ?_⟩
    rw [OrderedDict.find?_erase, if_neg (temporaryName_ne_of_isOutput hgood.1 hgood.1 nonce),
      OrderedDict.find?_insert, if_pos rfl, hcontent]
  | measured => exact hgood
  | abandonedNew => exact hgood
  | abandoned => exact hgood.1
  | invalid => exact hgood.1
  | unreplaced => exact hgood.1
  | unmeasured => exact hgood.1
  | unlinked => trivial
  | kept => exact hgood

/-- An act that clobbers nothing replaces no file. -/
theorem not_exists_of_unclobbered {answer : Answer} {directory : Directory} {delivery : Delivery}
    (h : Unclobbered answer directory delivery) {finalName : String} {count : ℕ} {written : List UInt8}
    (hstage : delivery.stage = .replacing finalName count written)
    (hact : (delivery.stage.act answer directory delivery.requested delivery.nonce).2 =
      .measuring finalName count written) : ¬directory.Exists finalName := by
  rw [hstage] at hact
  intro hexists
  cases answer with
  | failed => cases hact
  | _ =>
    rw [Unclobbered] at h
    simp only [Delivery.clobbers, hstage, decide_eq_false_iff_not] at h
    exact h hexists

/-- The files that others leave alone. -/
theorem find?_act {answer : Answer} {directory : Directory} {delivery : Delivery} {requested : String}
    (hunclobbered : Unclobbered answer directory delivery) (hgood : delivery.Good requested directory) {name : String}
    {bytes : List UInt8}
    (hname : ∀ finalName, IsOutput requested finalName → temporaryName finalName delivery.nonce ≠ name)
    (hfind : directory.find? name = some bytes) : (delivery.act answer directory).1.find? name = some bytes := by
  obtain ⟨rfl, hstage⟩ := hgood
  refine (delivery.stage.act_moves answer directory delivery.requested delivery.nonce).frame hstage ?_ hname hfind
  exact fun _ _ _ => not_exists_of_unclobbered hunclobbered

/-- **What holds of every capture**, whoever acts next. -/
theorem keeps_good (requested : String) :
    Keeps deliveries Unclobbered (fun d e => d.nonce ≠ e.nonce) (fun directory d => d.Good requested directory) where
  enter := fun _ _ h => absurd h id
  own := by
    rintro answer directory d hunclobbered ⟨rfl, hgood⟩ d' hd'
    obtain rfl := List.mem_singleton.1 hd'
    exact ⟨rfl, (d.stage.act_moves answer directory d.requested d.nonce).good hgood⟩
  other := by
    rintro answer directory d e hunclobbered hgood ⟨hrequested, hother⟩ hnonces
    refine ⟨hrequested, ?_⟩
    -- the temporary file of `d` is neither that of `e` nor an output
    have htemporary : ∀ finalName finalName', temporaryName finalName d.nonce ≠ temporaryName finalName' e.nonce :=
      temporaryName_ne (d.nonce_length.trans e.nonce_length.symm) hnonces
    cases hstage : e.stage with
    | probing candidate => trivial
    | raised => trivial
    | creating finalName =>
      rw [hstage] at hother
      exact hother
    | failing finalName =>
      rw [hstage] at hother
      exact hother
    | writing finalName written =>
      rw [hstage] at hother
      exact ⟨hother.1, find?_act hunclobbered hgood (fun f _ => htemporary f finalName) hother.2⟩
    | validating finalName count written =>
      rw [hstage] at hother
      exact ⟨hother.1, find?_act hunclobbered hgood (fun f _ => htemporary f finalName) hother.2⟩
    | replacing finalName count written =>
      rw [hstage] at hother
      exact ⟨hother.1, find?_act hunclobbered hgood (fun f _ => htemporary f finalName) hother.2⟩
    | measuring finalName count written =>
      rw [hstage] at hother
      exact ⟨hother.1, find?_act hunclobbered hgood
        (fun f hf => temporaryName_ne_of_isOutput hf hother.1 d.nonce) hother.2⟩
    | returned finalName count written =>
      rw [hstage] at hother
      exact ⟨hother.1, find?_act hunclobbered hgood
        (fun f hf => temporaryName_ne_of_isOutput hf hother.1 d.nonce) hother.2⟩

/-- Captures with nonces of their own stay apart. -/
theorem Started.separated {requested : String} {before : Directory} {c d : Config Directory Delivery}
    (started : Started requested before c) {allowed : Answer → Directory → Delivery → Prop}
    (h : Run deliveries allowed c d) : Separated (fun d e : Delivery => d.nonce ≠ e.nonce) d := by
  refine Interleaving.separated_of_nodup ?_
  rw [h.map_eq (fun _ h => h) fun _ _ _ => rfl]
  exact started.nonces

/-- **Captures do not clobber each other where no `os.replace` overwrites a file.**
In every run in which none does, each capture that has returned finds at its path
what it wrote, and every file that was there under the name of an output is there
still. -/
theorem delivered_of_unclobbered {requested : String} {before : Directory} {c d : Config Directory Delivery}
    (started : Started requested before c) (h : Run deliveries Unclobbered c d) :
    Delivered d ∧ Untouched requested before d.shared := by
  have hfresh : ∀ delivery ∈ c.tasks, delivery.Good requested c.shared := by
    intro delivery hdelivery
    obtain ⟨hrequested, hstage⟩ := started.fresh delivery hdelivery
    exact ⟨hrequested, by rw [hstage]; trivial⟩
  have hseparated := fun e (he : Run deliveries Unclobbered c e) => started.separated he
  constructor
  · intro delivery hdelivery finalName count written hstage
    have hgood := ((keeps_good requested).run h hseparated hfresh delivery hdelivery).2
    rw [hstage] at hgood
    exact hgood.2
  · refine @Keeps.run_shared _ _ _ _ _ _ _ _ _ (keeps_good requested) h hseparated hfresh (Untouched requested before)
      ?_ ?_
    · intro answer directory delivery hunclobbered hgood huntouched candidate bytes hbefore
      exact find?_act hunclobbered hgood (fun finalName hf => temporaryName_ne_of_isOutput hf ⟨candidate, rfl⟩ _)
        (huntouched candidate bytes hbefore)
    · rw [started.shared]
      exact fun _ _ h => h

/-! ### Two captures -/

/-- A capture of `heap` whose nonce starts with `b`. -/
def sampleDelivery (b : UInt8) : Delivery := ⟨"heap", b :: List.replicate 15 0, .probing none, rfl⟩

/-- An artifact of the smallest size, with `bytes` in it. -/
def sampleArtifact (bytes : List UInt8) : List UInt8 := BigEndian.encode 8 MAGIC ++ (bytes ++ BigEndian.encode 8 MAGIC)

/-- Two captures of one name. -/
def sampleStart : Config Directory Delivery := ⟨.empty, [sampleDelivery 0, sampleDelivery 1]⟩

/-- The sample run has started. -/
theorem started_sampleStart : Started "heap" .empty sampleStart where
  shared := rfl
  fresh := by
    intro delivery hdelivery
    rcases List.mem_cons.1 hdelivery with rfl | hdelivery
    · exact ⟨rfl, rfl⟩
    · obtain rfl := List.mem_singleton.1 hdelivery
      exact ⟨rfl, rfl⟩
  nonces := by decide

/-- The capture at position `i` from its probe to the artifact in the temporary
file. -/
def captureMoves (i : ℕ) (bytes : List UInt8) : List (Answer × ℕ) :=
  [(.succeeded, i), (.succeeded, i), (.wrote (sampleArtifact bytes), i), (.captured 0, i)]

/-- The capture at position `i` from there to its return. -/
def deliverMoves (i : ℕ) : List (Answer × ℕ) := List.replicate 3 (.succeeded, i)

/-- Both captures find `heap` free before either delivers. -/
def clobberMoves : List (Answer × ℕ) :=
  captureMoves 0 [0] ++ (captureMoves 1 [1] ++ (deliverMoves 0 ++ deliverMoves 1))

/-- A capture that has returned or raised. -/
def Delivery.Ended (delivery : Delivery) : Prop :=
  delivery.stage = .raised ∨ ∃ finalName count written, delivery.stage = .returned finalName count written

/-- **Captures clobber each other.** -/
theorem captures_clobber :
    ¬∀ (requested : String) (before : Directory) (c d : Config Directory Delivery), Started requested before c →
      Run deliveries Any c d → (∀ delivery ∈ d.tasks, delivery.Ended) →
        Delivered d ∧ Untouched requested before d.shared := by
  intro h
  let d := clobberMoves.foldl (Interleaving.actAt deliveries Any) sampleStart
  have hrun : Run deliveries Any sampleStart d := run_play clobberMoves sampleStart
  have htasks : d.tasks = [{ sampleDelivery 0 with stage := .returned "heap" 0 (sampleArtifact [0]) },
      { sampleDelivery 1 with stage := .returned "heap" 0 (sampleArtifact [1]) }] := rfl
  have hfile : d.shared.find? "heap" = some (sampleArtifact [1]) := by decide
  have hended : ∀ delivery ∈ d.tasks, delivery.Ended := by
    intro delivery hdelivery
    rw [htasks] at hdelivery
    rcases List.mem_cons.1 hdelivery with rfl | hdelivery
    · exact .inr ⟨_, _, _, rfl⟩
    · obtain rfl := List.mem_singleton.1 hdelivery
      exact .inr ⟨_, _, _, rfl⟩
  have hdelivered := (h _ _ _ d started_sampleStart hrun hended).1 _ (htasks ▸ List.mem_cons_self) _ _ _ rfl
  rw [hfile] at hdelivered
  revert hdelivered
  decide

/-- The second capture finds `heap` taken and delivers to `heap.0`. -/
theorem delivered_of_unclobbered_sample :
    ∃ d, Run deliveries Unclobbered sampleStart d ∧ d.shared.find? "heap" = some (sampleArtifact [0]) ∧
      d.shared.find? "heap.0" = some (sampleArtifact [1]) ∧ Delivered d ∧ Untouched "heap" .empty d.shared := by
  have hrun := @run_play _ _ _ deliveries Unclobbered _ ((captureMoves 0 [0] ++ deliverMoves 0) ++
    ((.succeeded, 1) :: captureMoves 1 [1] ++ deliverMoves 1)) sampleStart
  exact ⟨_, hrun, by decide, by decide, delivered_of_unclobbered started_sampleStart hrun⟩

end Capture
end Pydump
