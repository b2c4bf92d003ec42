/-
# A clone in its target

Whatever turns the tasks of the target take, a clone goes through four stages: its child is on
the way to its function, in the function, on the way to its exit, or gone (`Launched.turn`).
Beside the clone, only the stack below the function's caller changes in the region.
-/

import Pydump.Injector.Target

namespace Pydump
namespace Injector

open ByteMemory (Holds Mapped Memory restrict)
open X64 (Passes loadWord)

variable {text : Set UInt64} {base : UInt64} {code block : List UInt8} {offset : ℕ} {call : Call} {events : List Event}
  {t t' : Target} {part : Memory} {region : Option UInt64}

/-! ### No child -/

/-- No child runs, and the region reads as `part`. -/
structure Quiet (text : Set UInt64) (region : Option UInt64) (part : Memory) (events : List Event) (t : Target) :
    Prop where
  mapping : t.region = region
  apart : ∀ x ∈ text, x ∉ own region
  reads : restrict (own region) t.memory = part
  no_child : t.children = []
  history : t.events = events

/-- A list of one element falls apart in one way. -/
theorem eq_of_singleton {α : Type} {a b : α} {front back : List α} (h : [a] = front ++ b :: back) :
    front = [] ∧ a = b ∧ back = [] := by
  cases front with
  | nil => simpa using h
  | cons => simp at h

/-- **Other tasks leave the region** as it is. -/
theorem Quiet.turn (h : Quiet text region part events t) (hturn : t.Turn text t') :
    Quiet text region part events t' := by
  obtain ⟨hregion, hapart, hpart, hchildren, hevents⟩ := h
  cases hturn with
  | others text_kept region_kept =>
    rw [hregion] at region_kept
    exact ⟨hregion, hapart, (ByteMemory.restrict_congr region_kept).trans hpart, hchildren, hevents⟩
  | runs child | calls child | works child | returns child | exits child => simp [hchildren] at child

/-- A quiet turn keeps the text. -/
theorem Quiet.text_kept (h : Quiet text region part events t) (hturn : t.Turn text t') :
    ∀ x ∈ text, t'.memory x = t.memory x := by
  cases hturn with
  | others text_kept => exact text_kept
  | runs child | calls child | works child | returns child | exits child => simp [h.no_child] at child

/-! ### One child -/

/-- A clone that calls a function: how its child gets to the call and from there to its exit. -/
structure Shell (base : UInt64) (code block : List UInt8) (offset : ℕ) (call : Call) : Prop where
  code_length : code.length ≤ pageSize
  block_length : block.length ≤ pageSize
  outside : ¬Inside base call.callee
  pending : ∀ {m : Memory}, Holds m base block → loadWord m 8 base = some resultPending
  enters : ∀ {regs : Amd64Registers} {m : Memory}, Ready base code m → Holds m base block → Started base regs →
    Passes (OnTheWay base code (· = resultPending)) (Calling base code block offset call) regs m
  leaves : ∀ {value : UInt64} {regs : Amd64Registers} {m : Memory}, Returned base code offset value regs m →
    Passes (OnTheWay base code fun word => word = resultPending ∨ word = value) (Exiting base code value) regs m

/-- The call that was made, with the memory at it. -/
structure Called (base : UInt64) (block : List UInt8) (call : Call) (entry : Amd64Registers) (m : Memory) : Prop where
  callee : entry.rip = call.callee
  first : entry.get .rdi = call.first
  second : entry.get .rsi = call.second
  rsp : entry.get .rsp = base + .ofNat (stackOffset - 24)
  block : Holds m base block

/-- The stages of a clone, where the region reads as `part`. -/
inductive Stage (base : UInt64) (code block : List UInt8) (offset : ℕ) (call : Call) (events : List Event)
    (part : Memory) :
    List Child → List Event → Prop
  | starting {regs : Amd64Registers}
    (way : Passes (OnTheWay base code (· = resultPending)) (Calling base code block offset call) regs part) :
    Stage base code block offset call events part [.running false regs] events
  | calling {entry : Amd64Registers} {m : Memory} (called : Called base block call entry m)
    (there : Calling base code block offset call entry part) :
    Stage base code block offset call events part [.calling entry] (events ++ [.called entry m])
  | finishing {regs entry : Amd64Registers} {m : Memory} {value : UInt64} (called : Called base block call entry m)
    (way : Passes (OnTheWay base code fun word => word = resultPending ∨ word = value) (Exiting base code value) regs
      part) :
    Stage base code block offset call events part [.running true regs] (events ++ [.called entry m, .returned value])
  | exited {entry : Amd64Registers} {m : Memory} {value : UInt64} (called : Called base block call entry m)
    (ready : Ready base code part) (result : loadWord part 8 base = some value) :
    Stage base code block offset call events part [] (events ++ [.called entry m, .returned value])

/-- A clone that was started. -/
structure Launched (text : Set UInt64) (base : UInt64) (code block : List UInt8) (offset : ℕ) (call : Call)
    (events : List Event) (t : Target) : Prop where
  mapping : t.region = some base
  apart : ∀ x ∈ text, x ∉ own (some base)
  stage : Stage base code block offset call events (restrict (own (some base)) t.memory) t.children t.events

/-- At every stage the region has its code. -/
theorem Stage.ready {children : List Child} {events' : List Event}
    (h : Stage base code block offset call events part children events') : Ready base code part := by
  cases h with
  | starting way => exact way.invariant_or_goal.elim (·.toReady) (·.toReady)
  | calling _ there => exact there.toReady
  | finishing _ way => exact way.invariant_or_goal.elim (·.toReady) (·.toReady)
  | exited _ ready => exact ready

/-- The offset of an address of the region. -/
theorem toNat_sub_base (base : UInt64) {offset : ℕ} (h : offset < 2 ^ 64) :
    (base + .ofNat offset - base).toNat = offset :=
  ByteMemory.add_ofNat_sub h

/-- What stands in the region and is spared stands there while a function works. -/
theorem holds_of_spared {entry : Amd64Registers} {m m' : Memory} {bs : List UInt8} {k : ℕ}
    (hentry : entry.get .rsp = base + .ofNat (stackOffset - 24))
    (hkept : ∀ x ∈ spared base entry, m' x = m x) (hk : k + bs.length ≤ bootstrapSize.toNat)
    (hspared : k + bs.length ≤ 2 * pageSize ∨ stackOffset - 24 ≤ k)
    (h : Holds (restrict (own (some base)) m) (base + .ofNat k) bs) :
    Holds (restrict (own (some base)) m') (base + .ofNat k) bs := by
  have hsize := bootstrapSize_eq
  have hstack : stackOffset = 2101248 := rfl
  have hpage : pageSize = 4096 := rfl
  intro i hi
  have hdistance : (base + .ofNat k + .ofNat i - base).toNat = k + i := by
    rw [ByteMemory.add_ofNat_add]
    exact toNat_sub_base base (by omega)
  have hin : base + .ofNat k + .ofNat i ∈ own (some base) := by
    change (base + .ofNat k + .ofNat i - base).toNat < bootstrapSize.toNat
    omega
  rw [← h i hi, ByteMemory.restrict_of_mem hin, ByteMemory.restrict_of_mem hin]
  refine hkept _ ⟨hin, ?_⟩
  rw [hdistance, hentry, toNat_sub_base base (by omega)]
  omega

/-- A call goes on while others write outside its part of the region. -/
theorem Calling.works {entry : Amd64Registers} {m m' : Memory} (hcode : code.length ≤ pageSize)
    (hblock : block.length ≤ pageSize) (h : Calling base code block offset call entry (restrict (own (some base)) m))
    (hkept : ∀ x ∈ spared base entry, m' x = m x) (hmapped : ∀ x ∈ own (some base), (m x).isSome → (m' x).isSome) :
    Calling base code block offset call entry (restrict (own (some base)) m') := by
  have hsize := bootstrapSize_eq
  have hstack : stackOffset = 2101248 := rfl
  have hpage : pageSize = 4096 := rfl
  have hword := fun value : UInt64 => LittleEndian.length_encode 8 value.toNat
  have hholds := fun {bs : List UInt8} {k : ℕ} => @holds_of_spared base entry m m' bs k h.rsp hkept
  refine ⟨⟨hholds (by omega) (by omega) h.code, fun i hi => ?_⟩, ?_, h.callee, h.first, h.second, h.rbx, h.rsp,
    hholds (by rw [hword]; omega) (by rw [hword]; omega) h.back,
      hholds (by rw [hword]; omega) (by rw [hword]; omega) h.home⟩
  · have hin : base + .ofNat i ∈ own (some base) := by
      change (base + .ofNat i - base).toNat < bootstrapSize.toNat
      rwa [toNat_sub_base base (by omega)]
    have hold := h.mapped i hi
    rw [ByteMemory.restrict_of_mem hin] at hold ⊢
    exact hmapped _ hin hold
  · exact ByteMemory.holds_add_zero.1 (hholds (by omega) (by omega) (ByteMemory.holds_add_zero.2 h.block))

/-- **The function returns** to the shellcode. -/
theorem Calling.returns {entry after : Amd64Registers} {m : Memory} (hshell : Shell base code block offset call)
    (h : Calling base code block offset call entry (restrict (own (some base)) m)) (hreturns : Returns m entry after) :
    Returned base code offset (after.get .rax) after (restrict (own (some base)) m) where
  toReady := h.toReady
  rip := by
    have hback : Holds m (base + .ofNat (stackOffset - 24))
        (LittleEndian.encode 8 (base + .ofNat (pageSize + offset) : UInt64).toNat) :=
          ByteMemory.Holds.of_restrict h.back
    have hload := X64.loadWord_of_holds hback (X64.toNat_lt_word _)
    rw [← h.rsp, hreturns.rip] at hload
    exact Option.some.inj hload
  rax := rfl
  rbx := (hreturns.kept .rbx (by decide)).trans h.rbx
  rsp := by
    rw [hreturns.rsp, h.rsp]
    exact add_eight base (stackOffset - 24)
  home := h.home
  pending := hshell.pending h.block

variable (hshell : Shell base code block offset call)
include hshell

/-- Where the call is made, the child leaves the region. -/
theorem Shell.not_inside {regs : Amd64Registers} {m : Memory} (h : Calling base code block offset call regs m) :
    ¬Inside base regs.rip := by
  rw [h.callee]
  exact hshell.outside

/-- An instruction of the child, which is on its way to the call or to its exit. -/
theorem Stage.runs {memory m : Memory} {children : List Child} {history : List Event} {front back : List Child}
    {returned : Bool} {regs after : Amd64Registers}
    (h : Stage base code block offset call events (restrict (own (some base)) memory) children history)
    (hchild : children = front ++ .running returned regs :: back) (hinside : Inside base regs.rip)
    (hstep : X64.step memory regs = .runs after m) :
    Stage base code block offset call events (restrict (own (some base)) m) (front ++ .running returned after :: back)
      history ∧
      ∀ x ∉ own (some base), m x = memory x := by
  cases h with
  | starting way =>
    obtain ⟨rfl, hchild, rfl⟩ := eq_of_singleton hchild
    cases hchild
    obtain ⟨after', m', hstep', hway, hkept⟩ := way.step_eq fun hgoal => hshell.not_inside hgoal hinside
    rw [hstep] at hstep'
    cases hstep'
    exact ⟨.starting hway, hkept⟩
  | calling => simpa using (eq_of_singleton hchild).2.1
  | @finishing _ _ _ value called way =>
    obtain ⟨rfl, hchild, rfl⟩ := eq_of_singleton hchild
    cases hchild
    have hgoal : ¬Exiting base code value _ (restrict (own (some base)) memory) := fun hgoal => by
      rw [hgoal.there.of_restrict.step] at hstep
      cases hstep
    obtain ⟨after', m', hstep', hway, hkept⟩ := way.step_eq hgoal
    rw [hstep] at hstep'
    cases hstep'
    exact ⟨.finishing called hway, hkept⟩
  | exited => simp at hchild

omit hshell in
/-- The child leaves the region, for the call. -/
theorem Stage.calls {memory : Memory} {children : List Child} {history : List Event} {front back : List Child}
    {regs : Amd64Registers}
    (h : Stage base code block offset call events (restrict (own (some base)) memory) children history)
    (hchild : children = front ++ .running false regs :: back) (houtside : ¬Inside base regs.rip) :
    Stage base code block offset call events (restrict (own (some base)) memory) (front ++ .calling regs :: back)
      (history ++ [.called regs memory]) := by
  cases h with
  | starting way =>
    obtain ⟨rfl, hchild, rfl⟩ := eq_of_singleton hchild
    cases hchild
    have hthere := way.invariant_or_goal.resolve_left fun hway => houtside hway.inside
    exact .calling ⟨hthere.callee, hthere.first, hthere.second, hthere.rsp, hthere.block.of_restrict⟩ hthere
  | calling | finishing => simpa using (eq_of_singleton hchild).2.1
  | exited => simp at hchild

/-- The child makes a system call, which is its exit. -/
theorem Stage.exits {memory : Memory} {children : List Child} {history : List Event} {front back : List Child}
    {returned : Bool} {regs after : Amd64Registers}
    (h : Stage base code block offset call events (restrict (own (some base)) memory) children history)
    (hchild : children = front ++ .running returned regs :: back) (hinside : Inside base regs.rip)
    (hstep : X64.step memory regs = .calls after) :
    Stage base code block offset call events (restrict (own (some base)) memory) (front ++ back) history := by
  cases h with
  | starting way =>
    obtain ⟨rfl, hchild, rfl⟩ := eq_of_singleton hchild
    cases hchild
    obtain ⟨after', m', hstep', -⟩ := way.step_eq fun hgoal => hshell.not_inside hgoal hinside
    rw [hstep] at hstep'
    cases hstep'
  | calling => simpa using (eq_of_singleton hchild).2.1
  | @finishing _ _ _ value called way =>
    obtain ⟨rfl, hchild, rfl⟩ := eq_of_singleton hchild
    cases hchild
    by_cases hgoal : Exiting base code value regs (restrict (own (some base)) memory)
    · exact .exited called hgoal.toReady hgoal.result
    · obtain ⟨after', m', hstep', -⟩ := way.step_eq hgoal
      rw [hstep] at hstep'
      cases hstep'
  | exited => simp at hchild

/-- **A turn of a task** leaves the clone in its stages. -/
theorem Launched.turn (h : Launched text base code block offset call events t) (hturn : t.Turn text t') :
    Launched text base code block offset call events t' := by
  obtain ⟨memory, region, children, history⟩ := t
  obtain ⟨hregion, hapart, hstage⟩ := h
  dsimp only at hregion hstage
  subst hregion
  cases hturn with
  | others text_kept region_kept =>
    refine ⟨rfl, hapart, ?_⟩
    dsimp only at region_kept ⊢
    rwa [ByteMemory.restrict_congr region_kept]
  | runs child inside step => exact ⟨rfl, hapart, (hstage.runs hshell child inside step).1⟩
  | calls child outside => exact ⟨rfl, hapart, hstage.calls child outside⟩
  | works child text_kept region_kept mapped =>
    refine ⟨rfl, hapart, ?_⟩
    dsimp only at child region_kept mapped ⊢
    cases hstage with
    | starting | finishing => simpa using (eq_of_singleton child).2.1
    | calling called there =>
      obtain ⟨rfl, hchild, rfl⟩ := eq_of_singleton child
      cases hchild
      exact .calling called (there.works hshell.code_length hshell.block_length (region_kept base rfl) mapped)
    | exited => simp at child
  | returns child back_home =>
    refine ⟨rfl, hapart, ?_⟩
    dsimp only at child back_home ⊢
    cases hstage with
    | starting | finishing => simpa using (eq_of_singleton child).2.1
    | calling called there =>
      obtain ⟨rfl, hchild, rfl⟩ := eq_of_singleton child
      cases hchild
      rw [List.append_assoc]
      exact .finishing called (hshell.leaves (there.returns hshell back_home))
    | exited => simp at child
  | exits child inside step number => exact ⟨rfl, hapart, hstage.exits hshell child inside step⟩

/-- No turn writes the text. -/
theorem Launched.text_kept (h : Launched text base code block offset call events t) (hturn : t.Turn text t') :
    ∀ x ∈ text, t'.memory x = t.memory x := by
  cases hturn with
  | others text_kept | works _ text_kept => exact text_kept
  | runs child inside step =>
    rw [h.mapping] at inside
    exact fun x hx => (h.stage.runs hshell child inside step).2 x (h.apart x hx)
  | calls | returns | exits => exact fun _ _ => rfl

end Injector
end Pydump
