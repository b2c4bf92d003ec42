/-
# The helper and its clone children

`Inject` of `injector_linux.go` with `startClone` and `waitForCloneResult`, as a machine
of the helper and the two children it starts in the target.  The helper takes one step
for each call into the target, and any call may fail; what the outside makes of a step is
its `Answer`.  A child calls its function, stores the result word, returns through the
bootstrap code on the bootstrap stack, and exits.

The helper learns from the result word that the function has ended, not that the child
has: between the two lies the sleep of ten milliseconds in `waitForCloneResult`, which
here is a step like any other.  `prompt_or_unsafe` says that this sleep decides: if the
child is gone when the helper wakes, nothing is taken from a child that runs, and if not,
the helper can take it.
-/

import Pydump.Injector.Arguments
import Mathlib.Logic.Relation

namespace Pydump
namespace Injector

/-- The two clones, by what their child does. -/
inductive Clone
  | dlopen
  | schedule
  deriving DecidableEq

/-- Where the child of a clone is. -/
inductive Phase
  | notStarted
  /-- Its function runs. -/
  | calling
  /-- `mov %rax,(%rbx)` is done. -/
  | stored
  /-- `ret` is done, the exit of `cloneBootstrap` is not. -/
  | returned
  | exited
  deriving DecidableEq

/-- A child that was started and has not executed its exit. -/
def Phase.Running : Phase → Prop
  | .calling | .stored | .returned => True
  | .notStarted | .exited => False

instance : DecidablePred Phase.Running := fun phase => by cases phase <;> unfold Phase.Running <;> infer_instance

/-- Where the helper is in `Inject`. -/
inductive Helper
  | attaching
  | mapping
  | protecting
  /-- The arguments of a clone, up to `bootstrapInUse = true`. -/
  | arguing (clone : Clone)
  /-- `target.write(codeAddress, code)` in `startClone`. -/
  | coding (clone : Clone)
  /-- `executeRegisters` in `startClone`. -/
  | cloning (clone : Clone)
  /-- The loop of `waitForCloneResult`. -/
  | polling (clone : Clone)
  /-- Its sleep behind a result. -/
  | sleeping (clone : Clone) (result : UInt64)
  /-- `readMappings` and `findSymbolInPath`. -/
  | resolving
  /-- The deferred `munmap`. -/
  | unmapping
  /-- The deferred `detach`. -/
  | detaching
  | ended
  deriving DecidableEq

/-- The bootstrap region of the target, the children on it, and the helper. -/
structure State where
  helper : Helper
  bootstrapInUse : Bool
  mapped : Bool
  /-- Whose code the code page holds. -/
  code : Option Clone
  /-- Who used the child stack last. -/
  stack : Option Clone
  result : UInt64
  child : Clone → Phase

/-- Before `attach`. -/
def State.initial : State := ⟨.attaching, false, false, none, none, 0, fun _ => .notStarted⟩

/-- What a step of the helper meets: whether the call succeeds, how much a call that
fails has done, and what `clone` returns. -/
structure Answer where
  succeeds : Bool
  partly : Bool
  child : ℤ

/-- A child begins to run on the bootstrap stack. -/
def State.start (clone : Clone) (s : State) : State :=
  { s with stack := some clone, child := fun other => if other = clone then .calling else s.child other }

/-- Behind `waitForCloneResult`: the results that `Inject` goes on with. -/
def afterResult : Clone → UInt64 → Helper
  | .dlopen, handle => if handle = 0 then .unmapping else .resolving
  | .schedule, _ => .unmapping

/-- A step of `Inject`. -/
def State.helperStep (answer : Answer) (s : State) : State :=
  match s.helper with
  | .attaching => { s with helper := if answer.succeeds then .mapping else .ended }
  | .mapping =>
    if answer.succeeds then { s with mapped := true, bootstrapInUse := false, helper := .protecting }
    else { s with helper := .detaching }
  | .protecting => { s with helper := if answer.succeeds then .arguing .dlopen else .unmapping }
  | .arguing clone =>
    if answer.succeeds then { s with result := resultPending, bootstrapInUse := true, helper := .coding clone }
    else { s with result := if answer.partly then resultPending else s.result, helper := .unmapping }
  | .coding clone =>
    if answer.succeeds then { s with code := some clone, helper := .cloning clone }
    else { s with code := if answer.partly then none else s.code, helper := .unmapping }
  | .cloning clone =>
    if answer.succeeds then
      if answer.child ≤ 0 then { s with bootstrapInUse := false, helper := .unmapping }
      else { s.start clone with helper := .polling clone }
    else { (if answer.partly then s.start clone else s) with helper := .unmapping }
  | .polling clone =>
    -- a read that fails, or the deadline
    if ¬answer.succeeds then { s with bootstrapInUse := true, helper := .unmapping }
    else if s.result ≠ resultPending then { s with helper := .sleeping clone s.result }
    else s
  | .sleeping clone result => { s with bootstrapInUse := false, helper := afterResult clone result }
  | .resolving => { s with helper := if answer.succeeds then .arguing .schedule else .unmapping }
  | .unmapping =>
    if s.bootstrapInUse then { s with helper := .detaching }
    else { s with mapped := s.mapped && !(answer.succeeds || answer.partly), helper := .detaching }
  | .detaching => { s with helper := .ended }
  | .ended => s

/-- A step of a child, whose function may return any value. -/
def State.childStep (clone : Clone) (value : UInt64) (s : State) : State :=
  let become (phase : Phase) : Clone → Phase := fun other => if other = clone then phase else s.child other
  match s.child clone with
  | .calling => { s with result := value, child := become .stored }
  | .stored => { s with child := become .returned }
  | .returned => { s with child := become .exited }
  | .notStarted | .exited => s

/-- Who takes the next step. -/
inductive Action
  | helper (answer : Answer)
  | child (clone : Clone) (value : UInt64)

/-- A step of the helper or of a child. -/
def State.step (s : State) : Action → State
  | .helper answer => s.helperStep answer
  | .child clone value => s.childStep clone value

/-- Nothing is taken from a child that runs: the region is mapped, and code page and stack
are the child's own. -/
def State.Safe (s : State) : Prop :=
  ∀ clone, (s.child clone).Running → s.mapped = true ∧ s.code = some clone ∧ s.stack = some clone

/-- The helper is about to wake from the sleep behind a result whose child has not
executed its exit. -/
def State.WakesEarly (s : State) : Prop :=
  match s.helper with
  | .sleeping clone _ => (s.child clone).Running
  | _ => False

/-- A step that is taken, where the helper does not wake early. -/
def PromptStep (s s' : State) : Prop :=
  ∃ action, s' = s.step action ∧ ∀ answer, action = .helper answer → ¬s.WakesEarly

/-- Any step. -/
def AnyStep (s s' : State) : Prop := ∃ action, s' = s.step action

/-! ### Runs without an early waking -/

/-- The helper leaves the region to the child of this clone. -/
def Helper.Leaves (inUse : Bool) : Helper → Clone → Prop
  | .polling clone, other | .sleeping clone _, other => clone = other
  | .unmapping, _ => inUse = true
  | .detaching, _ | .ended, _ => True
  | _, _ => False

/-- The helper works on the region. -/
def Helper.Works : Helper → Prop
  | .attaching | .mapping | .unmapping | .detaching | .ended => False
  | _ => True

/-- What is known from where the helper stands. -/
structure Sound (s : State) : Prop where
  safe : s.Safe
  /-- A child runs only where the helper leaves the region to it. -/
  owner : ∀ clone, (s.child clone).Running → s.helper.Leaves s.bootstrapInUse clone
  mapped : s.helper.Works → s.mapped = true
  inUse : ∀ clone, s.helper = .cloning clone ∨ s.helper = .coding clone → s.bootstrapInUse = true
  coded : ∀ clone, s.helper = .cloning clone → s.code = some clone

/-- The initial state is sound. -/
theorem sound_initial : Sound .initial := by
  constructor <;> simp [State.initial, State.Safe, Phase.Running, Helper.Works]

/-- A state in which no child runs. -/
theorem sound_of_idle {s : State} (hidle : ∀ clone, ¬(s.child clone).Running)
    (hmapped : s.helper.Works → s.mapped = true)
    (hinUse : ∀ clone, s.helper = .cloning clone ∨ s.helper = .coding clone → s.bootstrapInUse = true)
    (hcoded : ∀ clone, s.helper = .cloning clone → s.code = some clone) : Sound s where
  safe clone hrunning := absurd hrunning (hidle clone)
  owner clone hrunning := absurd hrunning (hidle clone)
  mapped := hmapped
  inUse := hinUse
  coded := hcoded

/-- The helper goes where it leaves the region to the children that run. -/
theorem Sound.leave {s : State} (h : Sound s) {helper : Helper} {inUse : Bool}
    (hleaves : ∀ clone, (s.child clone).Running → helper.Leaves inUse clone) (hmapped : helper.Works → s.mapped = true)
    (hstart : ∀ clone, ¬(helper = .cloning clone ∨ helper = .coding clone)) :
    Sound { s with helper := helper, bootstrapInUse := inUse } where
  safe := h.safe
  owner := hleaves
  mapped := hmapped
  inUse clone hhelper := absurd hhelper (hstart clone)
  coded clone hhelper := absurd (.inl hhelper) (hstart clone)

/-- Where the helper does not leave the region, no child runs. -/
theorem Sound.idle {s : State} (h : Sound s) (hleaves : ∀ clone, ¬s.helper.Leaves s.bootstrapInUse clone)
    (clone : Clone) :
    ¬(s.child clone).Running :=
  fun hrunning => hleaves clone (h.owner clone hrunning)

/-- **A child starts** on a region that no child uses. -/
theorem Sound.start {s : State} (h : Sound s) {clone : Clone} (hhelper : s.helper = .cloning clone) {helper : Helper}
    (hleaves : helper = .polling clone ∨ helper = .unmapping) : Sound { s.start clone with helper := helper } := by
  have hidle := h.idle (fun other => by simp [hhelper, Helper.Leaves])
  have hmapped := h.mapped (by simp [hhelper, Helper.Works])
  have hinUse := h.inUse clone (.inl hhelper)
  have honly : ∀ other, ((s.start clone).child other).Running → other = clone := by
    intro other hrunning
    by_contra hne
    simp only [State.start, if_neg hne] at hrunning
    exact hidle other hrunning
  constructor
  · intro other hrunning
    obtain rfl := honly other hrunning
    exact ⟨hmapped, h.coded other hhelper, rfl⟩
  · intro other hrunning
    obtain rfl := honly other hrunning
    rcases hleaves with rfl | rfl
    · exact rfl
    · exact hinUse
  · exact fun _ => hmapped
  · rcases hleaves with rfl | rfl <;> simp
  · rcases hleaves with rfl | rfl <;> simp

/-- Behind a result no clone begins. -/
theorem afterResult_ne {clone : Clone} {result : UInt64} (other : Clone) :
    ¬(afterResult clone result = .cloning other ∨ afterResult clone result = .coding other) := by
  cases clone <;> simp only [afterResult]
  · split_ifs <;> simp
  · simp

/-- **A step of the helper** that does not wake early. -/
theorem sound_helperStep {s : State} (h : Sound s) (hprompt : ¬s.WakesEarly) (answer : Answer) :
    Sound (s.helperStep answer) := by
  have hidle := h.idle
  have hmapped := h.mapped
  have hinUse := h.inUse
  have howner := h.owner
  unfold State.helperStep
  unfold State.WakesEarly at hprompt
  split <;> rename_i hhelper <;> simp only [hhelper] at hidle hmapped hinUse howner hprompt
  -- up to the clone nothing runs
  case h_1 =>
    refine sound_of_idle (hidle fun _ => id) ?_ ?_ ?_ <;> split_ifs <;> simp [Helper.Works]
  case h_2 =>
    split_ifs <;> refine sound_of_idle (hidle fun _ => id) ?_ ?_ ?_ <;> simp [Helper.Works]
  case h_3 =>
    refine sound_of_idle (hidle fun _ => id) ?_ ?_ ?_ <;> split_ifs <;> simp [Helper.Works, hmapped trivial]
  case h_4 clone =>
    split_ifs <;> refine sound_of_idle (hidle fun _ => id) ?_ ?_ ?_ <;> simp [Helper.Works, hmapped trivial]
  case h_5 clone =>
    split_ifs <;> refine sound_of_idle (hidle fun _ => id) ?_ ?_ ?_ <;> simp [Helper.Works, hmapped trivial, hinUse]
  case h_6 clone =>
    split_ifs with hok hchild hpartly
    · exact sound_of_idle (hidle fun _ => id) (fun _ => hmapped trivial) (by simp) (by simp)
    · exact h.start hhelper (.inl rfl)
    · exact h.start hhelper (.inr rfl)
    · exact sound_of_idle (hidle fun _ => id) (fun _ => hmapped trivial) (by simp) (by simp)
  -- while the helper waits, the child may run
  case h_7 clone =>
    split_ifs
    · exact h.leave howner (fun _ => hmapped trivial) (by simp)
    · exact h
    · exact h.leave (fun _ _ => rfl) (fun _ => hmapped trivial) (by simp)
  case h_8 clone result =>
    refine sound_of_idle (fun other hrunning => hprompt ?_) ?_ ?_ ?_
    · have heq : clone = other := howner other hrunning
      exact heq ▸ hrunning
    · exact fun _ => hmapped trivial
    · exact fun other hother => absurd hother (afterResult_ne other)
    · exact fun other hother => absurd (.inl hother) (afterResult_ne other)
  case h_9 =>
    refine sound_of_idle (hidle fun _ => id) ?_ ?_ ?_ <;> split_ifs <;> simp [Helper.Works, hmapped trivial]
  -- the region goes where it is not in use
  case h_10 =>
    split_ifs with huse
    · exact h.leave (fun _ _ => trivial) (fun h => h.elim) (by simp)
    · refine sound_of_idle (hidle fun _ => huse) (fun h => h.elim) (by simp) (by simp)
  case h_11 => exact h.leave (fun _ _ => trivial) (fun h => h.elim) (by simp)
  case h_12 => exact h

/-- **A step of a child.**  A child that ran may have ended, and no other one has begun. -/
theorem sound_childStep {s : State} (h : Sound s) (clone : Clone) (value : UInt64) :
    Sound (s.childStep clone value) := by
  have hkeeps : ∀ result child, (∀ other, (child other).Running → (s.child other).Running) →
      Sound { s with result := result, child := child } := by
    intro result child hrunning
    exact ⟨fun other hother => h.safe other (hrunning other hother),
      fun other hother => h.owner other (hrunning other hother), h.mapped, h.inUse, h.coded⟩
  unfold State.childStep
  split <;> rename_i hphase
  case h_4 | h_5 => exact h
  all_goals
    refine hkeeps _ _ fun other hother => ?_
    dsimp only at hother
    split_ifs at hother with heq
    · rw [heq, hphase]
      trivial
    · exact hother

/-- Runs under a prompt kernel are sound. -/
theorem sound_of_run {s : State} (h : Relation.ReflTransGen PromptStep .initial s) : Sound s := by
  induction h with
  | refl => exact sound_initial
  | tail _ hstep ih =>
    obtain ⟨action, rfl, hprompt⟩ := hstep
    cases action with
    | helper answer => exact sound_helperStep ih (hprompt answer rfl) answer
    | child clone value => exact sound_childStep ih clone value

/-! ### An early waking -/

/-- A run that is played. -/
theorem run_play (actions : List Action) (s : State) :
    Relation.ReflTransGen AnyStep s (actions.foldl State.step s) := by
  induction actions generalizing s with
  | nil => exact Relation.ReflTransGen.refl
  | cons action actions ih => exact Relation.ReflTransGen.head ⟨action, rfl⟩ (ih _)

/-- A step of the helper in which the call succeeds. -/
def success : Action := .helper ⟨true, false, 1⟩

/-- **An early waking takes the region from the child**, if the child does not come to
run: the helper unmaps it, or writes the code of the second clone over that of the
first. -/
theorem unsafe_of_wakesEarly {s : State} (h : s.WakesEarly) : ∃ s', Relation.ReflTransGen AnyStep s s' ∧ ¬s'.Safe := by
  obtain ⟨helper, inUse, mapped, code, stack, result, child⟩ := s
  unfold State.WakesEarly at h
  split at h
  case h_2 => exact h.elim
  case h_1 clone handle hhelper =>
    simp only at hhelper h
    subst hhelper
    by_cases hnext : afterResult clone handle = .resolving
    · -- the first clone's code is replaced
      refine ⟨_, run_play [success, success, success, success] _, fun hsafe => ?_⟩
      have hcode := (hsafe clone (by simpa [success, State.step, State.helperStep, hnext] using h)).2.1
      cases clone with
      | dlopen => simp [success, State.step, State.helperStep, hnext] at hcode
      | schedule => simp [afterResult] at hnext
    · -- the region is unmapped
      refine ⟨_, run_play [success, success] _, fun hsafe => ?_⟩
      have hunmap : afterResult clone handle = .unmapping := by
        cases clone with
        | dlopen =>
          simp only [afterResult, ite_eq_right_iff, reduceCtorEq, imp_false, not_not] at hnext
          simp [afterResult, hnext]
        | schedule => rfl
      have hmapped := (hsafe clone (by simpa [success, State.step, State.helperStep, hunmap] using h)).1
      simp [success, State.step, State.helperStep, hunmap] at hmapped

/-- **The sleep decides.**  In a run in which the helper never wakes from the sleep behind
a result before that clone's child has executed its exit, nothing is taken from a child
that runs, whatever fails and in whatever order the steps are taken.  From every state in
which it is about to wake earlier, a run goes on to one where the code page is
overwritten or the region unmapped under the child. -/
theorem prompt_or_unsafe (s : State) :
    (Relation.ReflTransGen PromptStep .initial s → s.Safe) ∧
      (Relation.ReflTransGen AnyStep .initial s → s.WakesEarly →
        ∃ s', Relation.ReflTransGen AnyStep s s' ∧ ¬s'.Safe) :=
  ⟨fun h => (sound_of_run h).safe, fun _ h => unsafe_of_wakesEarly h⟩

/-- The actions up to the sleep behind the result of `dlopen`. -/
def untilSleep : List Action :=
  [success, success, success, success, success, success, .child .dlopen 0x7F0000001000, success]

/-- A run in which the child exits during the sleep, and one in which it does not. -/
theorem prompt_or_unsafe_dlopen :
    ((untilSleep ++ [.child .dlopen 0, .child .dlopen 0, success]).foldl State.step .initial).Safe ∧
      ∃ s', Relation.ReflTransGen AnyStep (untilSleep.foldl State.step .initial) s' ∧ ¬s'.Safe := by
  have hdecided := prompt_or_unsafe
  refine ⟨(hdecided _).1 ?_, (hdecided _).2 (run_play untilSleep _) trivial⟩
  iterate 6 refine Relation.ReflTransGen.head ⟨success, rfl, fun _ _ => id⟩ ?_
  refine Relation.ReflTransGen.head ⟨.child .dlopen 0x7F0000001000, rfl, fun _ _ => id⟩ ?_
  refine Relation.ReflTransGen.head ⟨success, rfl, fun _ _ => id⟩ ?_
  iterate 2 refine Relation.ReflTransGen.head ⟨.child .dlopen 0, rfl, nofun⟩ ?_
  exact Relation.ReflTransGen.single ⟨success, rfl, fun _ _ => id⟩

/-- The first child has stored its handle and is not scheduled for ten milliseconds, in
which the helper goes on to the second clone. -/
theorem code_overwritten : ∃ s, Relation.ReflTransGen AnyStep .initial s ∧ s.child .dlopen = .stored ∧
    s.mapped = true ∧ s.code = some .schedule ∧ ¬s.Safe := by
  have hrun := run_play (untilSleep ++ [success, success, success, success]) .initial
  exact ⟨_, hrun, rfl, rfl, rfl, fun h => absurd (h .dlopen trivial).2.1 (by decide)⟩

end Injector
end Pydump
