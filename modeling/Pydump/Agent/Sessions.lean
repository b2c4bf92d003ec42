/-
# One session at a time

The guarantees of the Agent's entry points over all runs of callers, pending calls
and sessions.  At most one session lives, and `session_active` is set as long as it
does; a pending call starts its session with the arguments of the call that queued
it; and when everybody has left both flags are clear (`session_lifecycle`).

What is not guaranteed is that the target notices nothing: a pending call that is
refused returns -1 without an exception (`doomed_of_refused`), so that only the runs
in which none is refused leave the target alone (`invisible_iff_unrefused`).
-/

import Pydump.Agent.LifecycleSpec

namespace Pydump
namespace Agent
namespace Lifecycle

open Interleaving (Any Backed Config Held Keeps Owns Program Run Separated Step run_play)

variable {c : Config Shared Task}

/-! ### Every reachable state -/

/-- In a run the flag of the session is set while a session is owned. -/
theorem held_session (h : Run program Any loaded c) : Held Shared.sessionActive Task.ownsSession c :=
  owns_session.run h rfl

/-- In a run the flag of the schedule is set while the schedule is owned. -/
theorem held_schedule (h : Run program Any loaded c) : Held Shared.scheduleActive Task.ownsSchedule c :=
  owns_schedule.run h rfl

/-- In a run the schedule has one owner at most. -/
theorem separated_schedule (h : Run program Any loaded c) : Separated Apart c := (held_schedule h).separated

/-- In a run every task is good. -/
theorem good_of_run (h : Run program Any loaded c) : ∀ t ∈ c.tasks, t.Good c.shared :=
  keeps_good.run h (fun _ hd => separated_schedule hd) fun t ht => by cases ht

/-- The call of `pydump_schedule` that a pending call or a session comes from. -/
def Task.comesFrom : Task → Task → Prop
  | .pending origin _, w => w = .schedule (.accepted origin)
  | .session (some origin) _ _, w => w = .schedule (.accepted origin)
  | _, _ => False

/-- A task that comes from another stays backed by it. -/
theorem backed_comesFrom : Backed program Task.comesFrom where
  enter := by
    rintro t w (⟨path, nonceHex⟩ | ⟨path, nonceHex⟩) h <;> exact h
  own := by
    intro granted shared t
    show ∀ t' ∈ (Task.act granted shared t).2, ∀ w, t'.comesFrom w → w ∈ (Task.act granted shared t).2 ∨ t.comesFrom w
    cases t with
    | schedule call =>
      obtain ⟨shared', call', request, hmoves, hact⟩ := Task.act_schedule granted shared call
      rw [hact]
      intro t' ht' w hw
      rcases List.mem_cons.1 ht' with rfl | ht'
      · exact absurd hw id
      · obtain ⟨r, rfl, rfl⟩ := mem_newPending.1 ht'
        cases hmoves
        exact .inl (hw ▸ List.mem_cons_self)
    | start call =>
      obtain ⟨shared', call', args, hmoves, hact⟩ := Task.act_start granted shared call
      rw [hact]
      intro t' ht' w hw
      rcases List.mem_cons.1 ht' with rfl | ht'
      · exact absurd hw id
      · obtain ⟨a, -, rfl⟩ := mem_newSession.1 ht'
        exact absurd hw id
    | pending origin call =>
      obtain ⟨shared', call', args, hmoves, hact⟩ := Task.act_pending granted shared origin call
      rw [hact]
      intro t' ht' w hw
      refine .inr ?_
      rcases List.mem_cons.1 ht' with rfl | ht'
      · exact hw
      · obtain ⟨a, -, rfl⟩ := mem_newSession.1 ht'
        exact hw
    | session origin args thread =>
      intro t' ht' w hw
      obtain rfl := List.mem_singleton.1 ht'
      cases origin with
      | none => exact absurd hw id
      | some origin => exact .inr hw
  stays := by
    intro granted shared t w hw
    have hw' : ∃ origin, w = .schedule (.accepted origin) := by
      cases t with
      | schedule call => exact absurd hw id
      | start call => exact absurd hw id
      | pending origin call => exact ⟨origin, hw⟩
      | session origin args thread =>
        cases origin with
        | none => exact absurd hw id
        | some origin => exact ⟨origin, hw⟩
    obtain ⟨origin, rfl⟩ := hw'
    exact List.mem_cons_self

/-! ### The life of a session -/

/-- A session whose final clear of the flag is still to come. -/
def Task.isSession : Task → Bool
  | .session _ _ thread => thread.live
  | _ => false

/-- A call of one of the two entry points that has not returned. -/
def Task.isInside : Task → Bool
  | .schedule (.accepted _) | .schedule (.returned _) | .start (.returned _) => false
  | .schedule _ | .start _ => true
  | _ => false

/-- A pending call that has not returned. -/
def Task.isPending : Task → Bool
  | .pending _ call => call.outstanding
  | _ => false

/-- The next act of the task writes `scheduled_session`. -/
def Task.isWriting : Task → Bool
  | .schedule (.claimed _) | .schedule (.copied _) => true
  | _ => false

/-- A session owns the session. -/
theorem ownsSession_of_isSession {t : Task} (h : t.isSession = true) : t.ownsSession = true := by
  cases t with
  | session origin args thread => exact h
  | _ => cases h

/-- A pending call owns the schedule. -/
theorem ownsSchedule_of_isPending {t : Task} (h : t.isPending = true) : t.ownsSchedule = true := by
  cases t with
  | pending origin call => exact h
  | _ => cases h

/-- A call that writes the buffer owns the schedule. -/
theorem ownsSchedule_of_isWriting {t : Task} (h : t.isWriting = true) : t.ownsSchedule = true := by
  cases t with
  | schedule call =>
    cases call with
    | claimed request => rfl
    | copied request => rfl
    | _ => cases h
  | _ => cases h

/-- Only a task that writes changes the buffer. -/
theorem scheduled_of_not_writing (granted : Bool) (shared : Shared) (t : Task) (h : t.isWriting = false) :
    (t.act granted shared).1.scheduled = shared.scheduled := by
  cases howner : t.ownsSchedule with
  | false => exact scheduled_of_not_owner granted shared t howner
  | true =>
    cases t with
    | schedule call =>
      cases call with
      | claimed request => cases h
      | copied request => cases h
      | filled request => cases granted <;> rfl
      | failing code => rfl
      | _ => cases howner
    | pending origin call =>
      obtain ⟨shared', call', args, hmoves, hact⟩ := Task.act_pending granted shared origin call
      rw [hact]
      cases hmoves with
      | within running moves => cases moves <;> rfl
      | _ => rfl
    | _ => cases howner

/-- **No one writes while a pending call is outstanding.** -/
theorem not_writing_of_pending (h : Run program Any loaded c) {t u : Task} (ht : t ∈ c.tasks) (hu : u ∈ c.tasks)
    (hpending : t.isPending = true) : u.isWriting = false := by
  by_contra hwriting
  have hwrites := eq_true_of_ne_false hwriting
  have hne : u ≠ t := by
    rintro rfl
    cases u with
    | schedule call => cases hpending
    | _ => cases hwrites
  obtain ⟨as, bs, hsplit⟩ := List.append_of_mem ht
  have hother : u ∈ as ++ bs := by
    rw [hsplit] at hu
    rcases List.mem_append.1 hu with hu | hu
    · exact List.mem_append_left _ hu
    · rcases List.mem_cons.1 hu with rfl | hu
      · exact absurd rfl hne
      · exact List.mem_append_right _ hu
  have hnone := separated_schedule h as t bs hsplit u hother (ownsSchedule_of_isPending hpending)
  rw [ownsSchedule_of_isWriting hwrites] at hnone
  cases hnone

/-- **The life of a session.**  After every run of callers, pending calls and
sessions, in whatever order they act and whatever the system answers:
* one session lives at most, and `session_active` is set as long as it does;
* while a pending call is outstanding nobody is writing `scheduled_session`, and no
  step changes it;
* a session that a pending call started has the socket path and the nonce of a call
  of `pydump_schedule` that returned 0;
* when nobody is inside an entry point and no pending call and no session is left,
  both flags are clear. -/
theorem session_lifecycle (h : Run program Any loaded c) :
    c.tasks.countP Task.isSession ≤ 1 ∧
    (∀ t ∈ c.tasks, t.isSession = true → c.shared.sessionActive = true) ∧
    (∀ t ∈ c.tasks, t.isPending = true → (∀ u ∈ c.tasks, u.isWriting = false) ∧
      ∀ d, Step program Any c d → d.shared.scheduled = c.shared.scheduled) ∧
    (∀ origin args thread, Task.session (some origin) args thread ∈ c.tasks →
      Task.schedule (.accepted origin) ∈ c.tasks ∧ readString args.socketPath = origin.socketPath.bytes ∧
        decodeNonce origin.nonceHex.bytes SessionArgs.zero.nonce = (true, args.nonce)) ∧
    ((∀ t ∈ c.tasks, t.isInside = false ∧ t.isPending = false ∧ t.isSession = false) →
      c.shared.sessionActive = false ∧ c.shared.scheduleActive = false) := by
  refine ⟨?_, fun t ht hlive => ?_, fun t ht hpending => ⟨fun u hu => ?_, fun d hstep => ?_⟩,
    fun origin args thread hmem => ⟨?_, ?_⟩, fun hleft => ⟨?_, ?_⟩⟩
  · have hle : c.tasks.countP Task.isSession ≤ c.tasks.countP Task.ownsSession :=
      List.countP_mono_left fun t _ => ownsSession_of_isSession
    rw [held_session h] at hle
    exact Nat.le_trans hle (Bool.toNat_le _)
  · exact (held_session h).flag_of_mem ht (ownsSession_of_isSession hlive)
  · exact not_writing_of_pending h ht hu hpending
  · cases hstep with
    | enter s ts t' enters => rfl
    | act granted s as t' bs _ =>
      exact scheduled_of_not_writing granted s t'
        (not_writing_of_pending h ht (List.mem_append_right as List.mem_cons_self) hpending)
  · exact backed_comesFrom.run h (fun t ht => by cases ht) _ hmem _ rfl
  · have hgood : args.Of origin := good_of_run h _ hmem
    exact ⟨hgood.socketPath, hgood.nonce _⟩
  · refine (held_session h).clear fun t ht => ?_
    obtain ⟨hinside, hpending, hsession⟩ := hleft t ht
    cases t with
    | schedule call => rfl
    | start call =>
      cases call with
      | returned code => rfl
      | _ => cases hinside
    | pending origin call =>
      cases call with
      | returned value exception => rfl
      | _ => cases hpending
    | session origin args thread => exact hsession
  · refine (held_schedule h).clear fun t ht => ?_
    obtain ⟨hinside, hpending, -⟩ := hleft t ht
    cases t with
    | schedule call =>
      cases call with
      | accepted request => rfl
      | returned code => rfl
      | _ => cases hinside
    | start call => rfl
    | pending origin call => exact hpending
    | session origin args thread => rfl

/-- The socket path `/s` and the nonce of sixteen bytes `0x2a`. -/
def sampleRequest : Request where
  socketPath := ⟨[0x2F, 0x73], by decide⟩
  nonceHex := ⟨(List.replicate 16 [0x32, 0x61]).flatten, by decide⟩

/-- A request and a call of `pydump_start` have come in. -/
def sampleEntered : Config Shared Task :=
  ⟨loaded.shared, [.schedule (.entered (some sampleRequest.socketPath) (some sampleRequest.nonceHex)),
    .start (.entered (.string sampleRequest.socketPath) (some sampleRequest.nonceHex.bytes))]⟩

/-- The sample run goes through any steps. -/
theorem run_sampleEntered {allowed : Bool → Shared → Task → Prop} : Run program allowed loaded sampleEntered := by
  refine Relation.ReflTransGen.tail (Relation.ReflTransGen.single (Step.enter loaded.shared [] _ ?_))
    (Step.enter loaded.shared _ _ (.schedule _ _))
  exact .start (some sampleRequest.socketPath) (some sampleRequest.nonceHex)

/-- The request is scheduled, and the pending call starts the session. -/
def sampleMoves : List (Bool × ℕ) := List.replicate 5 (true, 0) ++ List.replicate 6 (true, 1)

/-- The arguments of the sample session. -/
def sampleArgs : SessionArgs :=
  ⟨copyString SessionArgs.zero.socketPath sampleRequest.socketPath.bytes, ⟨List.replicate 16 0x2A, rfl⟩⟩

/-- One request, from `pydump_schedule` to the session. -/
theorem session_lifecycle_sample :
    ∃ d, Run program Any loaded d ∧ Task.session (some sampleRequest) sampleArgs .running ∈ d.tasks ∧
      readString sampleArgs.socketPath = [0x2F, 0x73] ∧ d.tasks.countP Task.isSession ≤ 1 ∧
      d.shared.sessionActive = true := by
  have hrun : Run program Any loaded (sampleMoves.foldl (Interleaving.actAt program Any) sampleEntered) :=
    run_sampleEntered.trans (run_play sampleMoves sampleEntered)
  have hmem : Task.session (some sampleRequest) sampleArgs .running ∈
      (sampleMoves.foldl (Interleaving.actAt program Any) sampleEntered).tasks :=
    List.mem_cons_of_mem _ (List.mem_cons_of_mem _ List.mem_cons_self)
  obtain ⟨hone, hset, -, hargs, -⟩ := session_lifecycle hrun
  exact ⟨_, hrun, hmem, (hargs _ _ _ hmem).2.1, hone, hset _ hmem rfl⟩

/-! ### What the target notices -/

/-- The pending call is not about to be refused: no session is active when it comes
to `session_active`, and it finds memory and a thread. -/
def Task.unrefused (granted : Bool) (shared : Shared) : Task → Bool
  | .pending _ (.starting (.checked _ _)) => !shared.sessionActive
  | .pending _ (.starting (.claimed _ _)) | .pending _ (.starting (.filled _)) => granted
  | _ => true

/-- Only acts by which no pending call is refused. -/
def Unrefused (granted : Bool) (shared : Shared) (t : Task) : Prop := t.unrefused granted shared = true

instance (granted : Bool) (shared : Shared) (t : Task) : Decidable (Unrefused granted shared t) :=
  inferInstanceAs (Decidable (t.unrefused granted shared = true))

/-- Every execution of `start_scheduled_session` has returned 0, or has set an
exception. -/
def Invisible (c : Config Shared Task) : Prop :=
  ∀ origin value exception, Task.pending origin (.returned value exception) ∈ c.tasks → value = 0 ∨ exception = true

/-- The pending call is on its way to returning 0. -/
def Task.Quiet : Task → Prop
  | .pending _ (.starting (.failing _)) => False
  | .pending _ (.starting (.returned code)) => code = 0
  | .pending _ (.returned value _) => value = 0
  | _ => True

/-- **Within `pydump_start` an unrefused call does not fail**: its arguments were
checked by `pydump_schedule`. -/
theorem quiet_of_unrefused {granted : Bool} {shared shared' : Shared} {origin : Request} {call call' : Starting}
    {args : Option SessionArgs} (h : call.Moves granted shared (shared', call', args))
    (hunrefused : Unrefused granted shared (.pending origin (.starting call)))
    (hgood : (Task.pending origin (.starting call)).Good shared)
    (hquiet : (Task.pending origin (.starting call)).Quiet) : (Task.pending origin (.starting call')).Quiet := by
  obtain ⟨⟨hfits, hscheduled⟩, hcall⟩ := hgood
  cases h with
  | refused unfit =>
    obtain ⟨rfl, hex, rfl, -⟩ := hcall
    have hlong := unfit (readString shared.scheduled.socketPath) hex rfl rfl
    rw [hscheduled.socketPath] at hlong
    exact absurd hlong (Nat.not_le.2 hfits)
  | checked read fits => trivial
  | busy active =>
    have hidle : (!shared.sessionActive) = true := hunrefused
    rw [active] at hidle
    cases hidle
  | claimed idle => trivial
  | allocated memory => trivial
  | noMemory exhausted => exact absurd (exhausted.symm.trans hunrefused) (by decide)
  | filled decodes => trivial
  | badNonce undecodable => exact absurd hcall.2 (undecodable _)
  | started thread => rfl
  | noThread exhausted => exact absurd (exhausted.symm.trans hunrefused) (by decide)
  | cleared => exact absurd hquiet id
  | returned => exact hquiet

/-- Where nothing is refused a pending call stays on its way to returning 0. -/
theorem keeps_quiet : Keeps program Unrefused Apart (fun shared t => t.Good shared ∧ t.Quiet) where
  enter := by
    rintro shared t (⟨path, nonceHex⟩ | ⟨path, nonceHex⟩) <;> exact ⟨trivial, trivial⟩
  own := by
    intro granted shared t hunrefused ⟨hgood, hquiet⟩ t' ht'
    refine ⟨keeps_good.own granted shared t trivial hgood t' ht', ?_⟩
    replace ht' : t' ∈ (Task.act granted shared t).2 := ht'
    cases t with
    | schedule call =>
      obtain ⟨shared', call', request, hmoves, hact⟩ := Task.act_schedule granted shared call
      rw [hact] at ht'
      rcases List.mem_cons.1 ht' with rfl | ht'
      · trivial
      · obtain ⟨r, -, rfl⟩ := mem_newPending.1 ht'
        trivial
    | start call =>
      obtain ⟨shared', call', args, hmoves, hact⟩ := Task.act_start granted shared call
      rw [hact] at ht'
      rcases List.mem_cons.1 ht' with rfl | ht'
      · trivial
      · obtain ⟨a, -, rfl⟩ := mem_newSession.1 ht'
        trivial
    | pending origin call =>
      obtain ⟨shared', call', args, hmoves, hact⟩ := Task.act_pending granted shared origin call
      rw [hact] at ht'
      rcases List.mem_cons.1 ht' with rfl | ht'
      · cases hmoves with
        | begun decodes => trivial
        | @ended code =>
          obtain rfl : code = 0 := hquiet
          rfl
        | within running moves => exact quiet_of_unrefused moves hunrefused hgood hquiet
        | returned => exact hquiet
      · obtain ⟨a, -, rfl⟩ := mem_newSession.1 ht'
        trivial
    | session origin args thread =>
      obtain rfl := List.mem_singleton.1 ht'
      trivial
  other := fun granted shared t u _ ht hu hapart =>
    ⟨keeps_good.other granted shared t u trivial ht.1 hu.1 hapart, hu.2⟩

/-- A run in which nothing is refused is invisible. -/
theorem invisible_of_unrefused (h : Run program Unrefused loaded c) : Invisible c := by
  have hall := keeps_quiet.run h (fun _ hd => separated_schedule hd.any) fun t ht => by cases ht
  intro origin value exception hmem
  exact .inl (hall _ hmem).2

/-- The pending call was refused, and returns -1 without an exception. -/
def Task.Doomed : Task → Prop
  | .pending _ (.starting (.failing code)) | .pending _ (.starting (.returned code)) => code ≠ 0
  | .pending _ (.returned value exception) => value = -1 ∧ exception = false
  | _ => False

/-- **A refusal dooms the pending call.** -/
theorem doomed_of_refused {granted : Bool} {shared : Shared} {t : Task} (h : ¬Unrefused granted shared t) :
    ∃ t' ∈ (t.act granted shared).2, t'.Doomed := by
  cases t with
  | pending origin call =>
    cases call with
    | starting start =>
      cases start with
      | checked path nonceHex =>
        have hactive : shared.sessionActive = true := by
          simpa [Unrefused, Task.unrefused] using h
        have hact : Starting.act granted shared (.checked path nonceHex) = (shared, .returned 3, none) := if_pos hactive
        refine ⟨.pending origin (.starting (.returned 3)), ?_, Nat.succ_ne_zero 2⟩
        rw [Task.act, Pending.act, hact]
        · exact List.mem_cons_self
        · exact fun _ h => by cases h
      | claimed path nonceHex =>
        obtain rfl : granted = false := eq_false_of_ne_true h
        exact ⟨_, List.mem_cons_self, Nat.succ_ne_zero 3⟩
      | filled args =>
        obtain rfl : granted = false := eq_false_of_ne_true h
        exact ⟨_, List.mem_cons_self, Nat.succ_ne_zero 5⟩
      | _ => exact absurd rfl h
    | _ => exact absurd rfl h
  | _ => exact absurd rfl h

/-- A doomed call stays doomed. -/
theorem Task.Doomed.act {granted : Bool} {shared : Shared} {t : Task} (h : t.Doomed) :
    ∃ t' ∈ (t.act granted shared).2, t'.Doomed := by
  cases t with
  | pending origin call =>
    cases call with
    | starting start =>
      cases start with
      | failing code => exact ⟨_, List.mem_cons_self, h⟩
      | returned code =>
        refine ⟨_, List.mem_cons_self, ?_⟩
        show (if code = 0 then (0 : Int) else -1) = -1 ∧ false = false
        rw [if_neg h]
        exact ⟨rfl, rfl⟩
      | _ => exact absurd h id
    | returned value exception => exact ⟨_, List.mem_cons_self, h⟩
    | queued => exact absurd h id
  | _ => exact absurd h id

/-- What is doomed stays so. -/
theorem doomed_run {c d : Config Shared Task} (h : Run program Any c d) (hc : ∃ t ∈ c.tasks, t.Doomed) :
    ∃ t ∈ d.tasks, t.Doomed := by
  refine @Run.invariant _ _ _ program Any c d (fun c => ∃ t ∈ c.tasks, t.Doomed) h hc ?_
  rintro _ _ (⟨s, ts, t, enters⟩ | ⟨granted, s, as, t, bs, -⟩) ⟨u, hu, hdoomed⟩
  · exact ⟨u, List.mem_cons_of_mem t hu, hdoomed⟩
  · rcases List.mem_append.1 hu with hu | hu
    · exact ⟨u, List.mem_append_left _ hu, hdoomed⟩
    · rcases List.mem_cons.1 hu with rfl | hu
      · obtain ⟨t', ht', hdoomed'⟩ := @Task.Doomed.act granted s _ hdoomed
        exact ⟨t', List.mem_append_right _ (List.mem_append_left _ ht'), hdoomed'⟩
      · exact ⟨u, List.mem_append_right _ (List.mem_append_right _ hu), hdoomed⟩

/-- **The target notices nothing in the runs in which no pending call is refused**,
and in no others: once one was refused and every pending call has ended, one of them
has returned -1 without an exception. -/
theorem invisible_iff_unrefused (d : Config Shared Task) :
    (Run program Unrefused loaded d → Invisible d) ∧
      ∀ granted s as t bs, ¬Unrefused granted s t →
        Run program Any ⟨(t.act granted s).1, as ++ ((t.act granted s).2 ++ bs)⟩ d →
          (∀ u ∈ d.tasks, u.isPending = false) → ¬Invisible d := by
  refine ⟨fun h => invisible_of_unrefused h, fun granted s as t bs hrefused h hended hinvisible => ?_⟩
  obtain ⟨t', ht', hdoomed⟩ := doomed_of_refused hrefused
  obtain ⟨u, hu, hu'⟩ := doomed_run h ⟨t', List.mem_append_right _ (List.mem_append_left _ ht'), hdoomed⟩
  have hnot := hended u hu
  cases u with
  | pending origin call =>
    cases call with
    | returned value exception =>
      obtain ⟨rfl, rfl⟩ := hu'
      rcases hinvisible origin (-1) false hu with h | h <;> cases h
    | _ => cases hnot
  | _ => exact absurd hu' id

/-- A session is started, and the request is scheduled while it runs. -/
def busyMoves : List (Bool × ℕ) :=
  List.replicate 5 (true, 1) ++ (List.replicate 5 (true, 0) ++ List.replicate 4 (true, 1))

/-- **A refused session is not invisible.** -/
theorem refused_session_visible : ¬∀ d, Run program Any loaded d → Invisible d := by
  intro h
  have hrun : Run program Any loaded (busyMoves.foldl (Interleaving.actAt program Any) sampleEntered) :=
    run_sampleEntered.trans (run_play busyMoves sampleEntered)
  have hmem : Task.pending sampleRequest (.returned (-1) false) ∈
      (busyMoves.foldl (Interleaving.actAt program Any) sampleEntered).tasks :=
    List.mem_cons_of_mem _ List.mem_cons_self
  have hquiet := h _ hrun sampleRequest (-1) false hmem
  revert hquiet
  decide

/-- The pending call of a single request returns 0. -/
theorem invisible_iff_unrefused_sample :
    ∃ d, Run program Unrefused loaded d ∧ Task.pending sampleRequest (.returned 0 false) ∈ d.tasks ∧ Invisible d := by
  have hrun : Run program Unrefused loaded
      ((sampleMoves ++ [(true, 1)]).foldl (Interleaving.actAt program Unrefused) sampleEntered) :=
    run_sampleEntered.trans (run_play (sampleMoves ++ [(true, 1)]) sampleEntered)
  exact ⟨_, hrun, List.mem_cons_of_mem _ List.mem_cons_self, (invisible_iff_unrefused _).1 hrun⟩

end Lifecycle
end Agent
end Pydump
