/-
# What holds whoever acts next

Each flag has one owner or none: `session_active` the call of `pydump_start` that
set it and then the session it started, `schedule_active` the call of
`pydump_schedule` that set it and then the pending call it added.  Only the owner of
`schedule_active` touches `scheduled_session`, so what a pending call finds there is
what the call that queued it left (`Good`, `keeps_good`).
-/

import Pydump.Agent.Lifecycle

namespace Pydump
namespace Agent
namespace Lifecycle

open Interleaving (Any Backed Config Held Keeps Owns Program Run Separated Step run_play)

/-! ### Nonces -/

/-- A digit is read back. -/
theorem hexValue_hexDigit : ∀ value < 16, hexValue (hexDigit value) = some value := by decide

/-- The digits of any bytes are decoded to them. -/
theorem decodeDigits_encode (bytes : List UInt8) :
    decodeDigits (bytes.flatMap fun b => [hexDigit (b.toNat / 16), hexDigit (b.toNat % 16)]) = (true, bytes) := by
  induction bytes with
  | nil => rfl
  | cons b bytes ih =>
    have hb := b.toNat_lt
    rw [List.flatMap_cons, List.cons_append, List.singleton_append, decodeDigits, ih,
      hexValue_hexDigit _ (by omega), hexValue_hexDigit _ (by omega)]
    simp only [Nat.div_add_mod, UInt8.ofNat_toNat]

/-- A nonce that was decoded does not depend on what was there before. -/
def Decodes (hex : List UInt8) (nonce : Nonce) : Prop := ∀ before, decodeNonce hex before = (true, nonce)

/-- **A nonce survives the way through hexadecimal digits.** -/
theorem decodes_encode (nonce : Nonce) : Decodes (encodeNonce nonce) nonce := by
  intro before
  have hlen : (encodeNonce nonce).length = NONCE_SIZE * 2 := by
    rw [encodeNonce, List.length_flatMap, ← nonce.length_bytes]
    simp only [List.length_cons, List.length_nil, List.map_const', List.sum_replicate_nat]
  have hdecode : decodeDigits (encodeNonce nonce) = (true, nonce.bytes) := decodeDigits_encode nonce.bytes
  rw [decodeNonce, dif_neg (not_not.2 hlen)]
  refine Prod.ext (show (decodeDigits (encodeNonce nonce)).1 = true by rw [hdecode]) (Nonce.ext ?_)
  simp only [hdecode]
  rw [List.drop_eq_nil_of_le (Nat.le_of_eq (before.length_bytes.trans nonce.length_bytes.symm)), List.append_nil]

/-- All digits are decoded, or the loop stops. -/
theorem length_decodeDigits_of_ok {hex : List UInt8} (h : (decodeDigits hex).1 = true) (heven : hex.length % 2 = 0) :
    2 * (decodeDigits hex).2.length = hex.length := by
  fun_induction decodeDigits hex with
  | case1 high low hex h' l hhigh hlow r ih =>
    rw [List.length_cons, List.length_cons] at heven
    have hrest := ih h (by omega)
    show 2 * ((decodeDigits hex).2.length + 1) = hex.length + 2
    omega
  | case2 => cases h
  | case3 hex hshort =>
    cases hex with
    | nil => rfl
    | cons high hex =>
      cases hex with
      | nil => cases heven
      | cons low hex => exact absurd rfl (hshort high low hex)

/-- A nonce that is accepted was encoded. -/
theorem decodes_of_ok {hex : List UInt8} {before : Nonce} (h : (decodeNonce hex before).1 = true) :
    Decodes hex (decodeNonce hex before).2 := by
  intro other
  rw [decodeNonce] at h ⊢
  by_cases hlen : hex.length = NONCE_SIZE * 2
  · rw [dif_neg (not_not.2 hlen)] at h ⊢
    have hdigits := length_decodeDigits_of_ok h (by rw [hlen]; decide)
    rw [decodeNonce, dif_neg (not_not.2 hlen)]
    refine Prod.ext h (Nonce.ext ?_)
    show (decodeDigits hex).2 ++ other.bytes.drop _ = (decodeDigits hex).2 ++ before.bytes.drop _
    rw [List.drop_eq_nil_of_le (by rw [other.length_bytes]; omega),
      List.drop_eq_nil_of_le (by rw [before.length_bytes]; omega)]
  · rw [dif_pos hlen] at h
    cases h

/-- A string that is copied is read back. -/
theorem readString_copyString (array : List UInt8) (s : CString) : readString (copyString array s.bytes) = s.bytes := by
  have hall : ∀ b ∈ s.bytes, decide (b ≠ 0) = true := fun b hb => by
    simp only [decide_eq_true_eq]
    rintro rfl
    exact s.nonzero hb
  rw [readString, copyString, List.takeWhile_append_of_pos hall, List.takeWhile_cons_of_neg (by simp), List.append_nil]

/-! ### What an act can do -/

/-- All that one act of `pydump_start` can do. -/
inductive Starting.Moves (granted : Bool) (shared : Shared) : Starting → Shared × Starting × Option SessionArgs → Prop
  | refused {path nonceHex} (unfit : ∀ bytes hex, path.read shared = some bytes → nonceHex = some hex →
      SUN_PATH_SIZE ≤ bytes.length) : Moves granted shared (.entered path nonceHex) (shared, .returned 2, none)
  | checked {path nonceHex bytes} (read : path.read shared = some bytes) (fits : bytes.length < SUN_PATH_SIZE) :
      Moves granted shared (.entered path (some nonceHex)) (shared, .checked path nonceHex, none)
  | busy {path nonceHex} (active : shared.sessionActive = true) :
      Moves granted shared (.checked path nonceHex) (shared, .returned 3, none)
  | claimed {path nonceHex} (idle : shared.sessionActive = false) :
      Moves granted shared (.checked path nonceHex)
        ({ shared with sessionActive := true }, .claimed path nonceHex, none)
  | allocated {path nonceHex} (memory : granted = true) :
      Moves granted shared (.claimed path nonceHex) (shared, .allocated path nonceHex, none)
  | noMemory {path nonceHex} (exhausted : granted = false) :
      Moves granted shared (.claimed path nonceHex) (shared, .failing 4, none)
  | filled {path nonceHex nonce} (decodes : Decodes nonceHex nonce) :
      Moves granted shared (.allocated path nonceHex)
        (shared, .filled ⟨copyString SessionArgs.zero.socketPath ((path.read shared).getD []), nonce⟩, none)
  | badNonce {path nonceHex} (undecodable : ∀ nonce, ¬Decodes nonceHex nonce) :
      Moves granted shared (.allocated path nonceHex) (shared, .failing 5, none)
  | started {args} (thread : granted = true) : Moves granted shared (.filled args) (shared, .returned 0, some args)
  | noThread {args} (exhausted : granted = false) : Moves granted shared (.filled args) (shared, .failing 6, none)
  | cleared {code} : Moves granted shared (.failing code) ({ shared with sessionActive := false }, .returned code, none)
  | returned {code} : Moves granted shared (.returned code) (shared, .returned code, none)

/-- A nonce that is refused was not encoded. -/
theorem not_decodes_of_failed {hex : List UInt8} {before : Nonce} (h : (decodeNonce hex before).1 = false)
    (nonce : Nonce) :
    ¬Decodes hex nonce := by
  intro hdecodes
  rw [hdecodes before] at h
  cases h

/-- What a step of `start` does. -/
theorem Starting.act_moves (granted : Bool) (shared : Shared) (call : Starting) :
    call.Moves granted shared (call.act granted shared) := by
  cases call with
  | entered path nonceHex =>
    cases hread : path.read shared with
    | none =>
      have hact : Starting.act granted shared (.entered path nonceHex) = (shared, .returned 2, none) := by
        simp only [Starting.act, hread]
      rw [hact]
      exact .refused fun bytes hex h _ => by rw [hread] at h; cases h
    | some bytes =>
      cases nonceHex with
      | none =>
        have hact : Starting.act granted shared (.entered path none) = (shared, .returned 2, none) := by
          simp only [Starting.act, hread]
        rw [hact]
        exact .refused fun _ _ _ h => by cases h
      | some nonceHex =>
        simp only [Starting.act, hread]
        split_ifs with hlong
        · refine .refused fun bytes' _ h _ => ?_
          rw [hread] at h
          exact Option.some.inj h ▸ hlong
        · exact .checked hread (Nat.lt_of_not_le hlong)
  | checked path nonceHex =>
    rw [Starting.act]
    split_ifs with hactive
    · exact .busy hactive
    · exact .claimed (eq_false_of_ne_true hactive)
  | claimed path nonceHex =>
    cases granted with
    | false => exact .noMemory rfl
    | true => exact .allocated rfl
  | allocated path nonceHex =>
    simp only [Starting.act]
    split_ifs with hdecoded
    · exact .filled (decodes_of_ok hdecoded)
    · exact .badNonce (not_decodes_of_failed (eq_false_of_ne_true hdecoded))
  | filled args =>
    cases granted with
    | false => exact .noThread rfl
    | true => exact .started rfl
  | failing code => exact .cleared
  | returned code => exact .returned

/-- All that one act of `pydump_schedule` can do. -/
inductive Scheduling.Moves (granted : Bool) (shared : Shared) : Scheduling → Shared × Scheduling × Option Request → Prop
  | refused {path nonceHex} : Moves granted shared (.entered path nonceHex) (shared, .returned 2, none)
  | checked {path nonceHex} (fits : path.bytes.length < SUN_PATH_SIZE) :
      Moves granted shared (.entered (some path) (some nonceHex)) (shared, .checked ⟨path, nonceHex⟩, none)
  | busy {request} (active : shared.scheduleActive = true) :
      Moves granted shared (.checked request) (shared, .returned 3, none)
  | claimed {request} (idle : shared.scheduleActive = false) :
      Moves granted shared (.checked request) ({ shared with scheduleActive := true }, .claimed request, none)
  | copied {request : Request} {path} (copied : readString path = request.socketPath.bytes) :
      Moves granted shared (.claimed request)
        ({ shared with scheduled := { shared.scheduled with socketPath := path } }, .copied request, none)
  | filled {request : Request} {nonce} (decodes : Decodes request.nonceHex.bytes nonce) :
      Moves granted shared (.copied request)
        ({ shared with scheduled := { shared.scheduled with nonce := nonce } }, .filled request, none)
  | badNonce {request : Request} {nonce} : Moves granted shared (.copied request)
      ({ shared with scheduled := { shared.scheduled with nonce := nonce } }, .failing 5, none)
  | accepted {request} : Moves granted shared (.filled request) (shared, .accepted request, some request)
  | full {request} : Moves granted shared (.filled request) (shared, .failing 7, none)
  | cleared {code} :
    Moves granted shared (.failing code) ({ shared with scheduleActive := false }, .returned code, none)
  | kept {request} : Moves granted shared (.accepted request) (shared, .accepted request, none)
  | returned {code} : Moves granted shared (.returned code) (shared, .returned code, none)

/-- What a step of `schedule` does. -/
theorem Scheduling.act_moves (granted : Bool) (shared : Shared) (call : Scheduling) :
    call.Moves granted shared (call.act granted shared) := by
  cases call with
  | entered path nonceHex =>
    cases path with
    | none => exact .refused
    | some path =>
      cases nonceHex with
      | none => exact .refused
      | some nonceHex =>
        simp only [Scheduling.act]
        split_ifs with hlong
        · exact .refused
        · exact .checked (Nat.lt_of_not_le hlong)
  | checked request =>
    rw [Scheduling.act]
    split_ifs with hactive
    · exact .busy hactive
    · exact .claimed (eq_false_of_ne_true hactive)
  | claimed request => exact .copied (readString_copyString _ _)
  | copied request =>
    simp only [Scheduling.act]
    split_ifs with hdecoded
    · exact .filled (decodes_of_ok hdecoded)
    · exact .badNonce
  | filled request =>
    cases granted with
    | false => exact .full
    | true => exact .accepted
  | failing code => exact .cleared
  | accepted request => exact .kept
  | returned code => exact .returned

/-- All that one act of `start_scheduled_session` can do. -/
inductive Pending.Moves (granted : Bool) (shared : Shared) : Pending → Shared × Pending × Option SessionArgs → Prop
  | begun {hex} (decodes : Decodes hex shared.scheduled.nonce) :
      Moves granted shared .queued (shared, .starting (.entered .scheduled (some hex)), none)
  | ended {code} : Moves granted shared (.starting (.returned code))
      ({ shared with scheduleActive := false }, .returned (if code = 0 then 0 else -1) false, none)
  | within {start shared' start' args} (running : ∀ code, start ≠ .returned code)
      (moves : start.Moves granted shared (shared', start', args)) :
      Moves granted shared (.starting start) (shared', .starting start', args)
  | returned {value exception} :
      Moves granted shared (.returned value exception) (shared, .returned value exception, none)

/-- What a step of the pending call does. -/
theorem Pending.act_moves (granted : Bool) (shared : Shared) (call : Pending) :
    call.Moves granted shared (call.act granted shared) := by
  cases call with
  | queued => exact .begun (decodes_encode _)
  | starting start =>
    have hmoves := start.act_moves granted shared
    cases start with
    | returned code => exact .ended
    | entered path nonceHex => exact .within (fun _ h => by cases h) hmoves
    | checked path nonceHex => exact .within (fun _ h => by cases h) hmoves
    | claimed path nonceHex => exact .within (fun _ h => by cases h) hmoves
    | allocated path nonceHex => exact .within (fun _ h => by cases h) hmoves
    | filled args => exact .within (fun _ h => by cases h) hmoves
    | failing code => exact .within (fun _ h => by cases h) hmoves
  | returned value exception => exact .returned

/-! ### The two flags -/

/-- The call has set `session_active` and not yet passed it on. -/
def Starting.holds : Starting → Bool
  | .claimed _ _ | .allocated _ _ | .filled _ | .failing _ => true
  | _ => false

/-- The session has not yet cleared `session_active`. -/
def Session.live : Session → Bool
  | .ended => false
  | _ => true

/-- The task has set the flag of the session. -/
def Task.ownsSession : Task → Bool
  | .schedule _ => false
  | .start call => call.holds
  | .pending _ (.starting call) => call.holds
  | .pending _ _ => false
  | .session _ _ thread => thread.live

/-- The call has set `schedule_active` and not yet passed it on. -/
def Scheduling.holds : Scheduling → Bool
  | .claimed _ | .copied _ | .filled _ | .failing _ => true
  | _ => false

/-- The pending call has not yet cleared `schedule_active`. -/
def Pending.outstanding : Pending → Bool
  | .returned _ _ => false
  | _ => true

/-- The task has set the flag of the schedule. -/
def Task.ownsSchedule : Task → Bool
  | .schedule call => call.holds
  | .pending _ call => call.outstanding
  | _ => false

/-- The sessions among the tasks that were started. -/
theorem countP_newSession (origin : Option Request) (args : Option SessionArgs) :
    (newSession origin args).countP Task.ownsSession = args.toList.length := by
  cases args <;> rfl

/-- A new session does not own the schedule. -/
theorem countP_newSession_schedule (origin : Option Request) (args : Option SessionArgs) :
    (newSession origin args).countP Task.ownsSchedule = 0 := by
  cases args <;> rfl

variable {granted : Bool} {shared shared' : Shared}

/-- **`pydump_start` takes `session_active` where it is clear**, and passes it on to
the session or clears it.  It leaves everything else. -/
theorem Starting.Moves.flags {call call' : Starting} {args : Option SessionArgs}
    (h : call.Moves granted shared (shared', call', args)) (hset : call.holds = true → shared.sessionActive = true) :
    shared'.sessionActive.toNat + call.holds.toNat =
        shared.sessionActive.toNat + (args.toList.length + call'.holds.toNat) ∧
      shared'.scheduleActive = shared.scheduleActive ∧ shared'.scheduled = shared.scheduled := by
  cases h with
  | claimed idle =>
    rw [idle]
    exact ⟨rfl, rfl, rfl⟩
  | cleared =>
    rw [hset rfl]
    exact ⟨rfl, rfl, rfl⟩
  | _ => exact ⟨rfl, rfl, rfl⟩

/-- **`pydump_schedule` takes `schedule_active` where it is clear**, and passes it
on to the pending call or clears it. -/
theorem Scheduling.Moves.flags {call call' : Scheduling} {request : Option Request}
    (h : call.Moves granted shared (shared', call', request))
    (hset : call.holds = true → shared.scheduleActive = true) :
    shared'.scheduleActive.toNat + call.holds.toNat =
        shared.scheduleActive.toNat + (request.toList.length + call'.holds.toNat) ∧
      shared'.sessionActive = shared.sessionActive := by
  cases h with
  | claimed idle =>
    rw [idle]
    exact ⟨rfl, rfl⟩
  | cleared =>
    rw [hset rfl]
    exact ⟨rfl, rfl⟩
  | _ => exact ⟨rfl, rfl⟩

/-- A pending call acts, and may start a session. -/
theorem Task.act_pending (granted : Bool) (shared : Shared) (origin : Request) (call : Pending) :
    ∃ shared' call' args, call.Moves granted shared (shared', call', args) ∧
      Task.act granted shared (.pending origin call) =
        (shared', .pending origin call' :: newSession (some origin) args) :=
  ⟨_, _, _, call.act_moves granted shared, rfl⟩

/-- A call of `start` acts, and may start a session. -/
theorem Task.act_start (granted : Bool) (shared : Shared) (call : Starting) :
    ∃ shared' call' args, call.Moves granted shared (shared', call', args) ∧
      Task.act granted shared (.start call) = (shared', .start call' :: newSession none args) :=
  ⟨_, _, _, call.act_moves granted shared, rfl⟩

/-- The pending call that was added, if one was. -/
def newPending (request : Option Request) : List Task :=
  (request.map fun request => Task.pending request .queued).toList

/-- A call of `schedule` acts, and may leave a pending call. -/
theorem Task.act_schedule (granted : Bool) (shared : Shared) (call : Scheduling) :
    ∃ shared' call' request, call.Moves granted shared (shared', call', request) ∧
      Task.act granted shared (.schedule call) = (shared', .schedule call' :: newPending request) :=
  ⟨_, _, _, call.act_moves granted shared, rfl⟩

/-- A new pending call waits in the queue. -/
theorem mem_newPending {t : Task} {request : Option Request} :
    t ∈ newPending request ↔ ∃ r, request = some r ∧ t = .pending r .queued := by
  cases request <;> simp [newPending]

/-- A new session is running. -/
theorem mem_newSession {t : Task} {origin : Option Request} {args : Option SessionArgs} :
    t ∈ newSession origin args ↔ ∃ a, args = some a ∧ t = .session origin a .running := by
  cases args <;> simp [newSession]

/-- A new pending call does not own the session. -/
theorem countP_newPending (request : Option Request) : (newPending request).countP Task.ownsSession = 0 := by
  cases request <;> rfl

/-- A new pending call owns the schedule. -/
theorem countP_newPending_schedule (request : Option Request) :
    (newPending request).countP Task.ownsSchedule = request.toList.length := by
  cases request <;> rfl

/-- The owners among what a task becomes. -/
theorem countP_cons_toNat (p : Task → Bool) (t : Task) (ts : List Task) :
    (t :: ts).countP p = ts.countP p + (p t).toNat := by
  rw [List.countP_cons]
  cases p t <;> rfl

/-- **Who owns `session_active`.** -/
theorem owns_session : Owns program Shared.sessionActive Task.ownsSession where
  enter := by
    rintro t (⟨path, nonceHex⟩ | ⟨path, nonceHex⟩) <;> rfl
  act := by
    intro granted shared t h
    show (Task.act granted shared t).1.sessionActive.toNat + _ = _ + (Task.act granted shared t).2.countP _
    cases t with
    | schedule call =>
      obtain ⟨shared', call', request, hmoves, hact⟩ := Task.act_schedule granted shared call
      have hsame : shared'.sessionActive = shared.sessionActive := by cases hmoves <;> rfl
      rw [hact, countP_cons_toNat, countP_newPending, hsame]
      rfl
    | start call =>
      obtain ⟨shared', call', args, hmoves, hact⟩ := Task.act_start granted shared call
      rw [hact, countP_cons_toNat, countP_newSession]
      exact (hmoves.flags h).1
    | pending origin call =>
      obtain ⟨shared', call', args, hmoves, hact⟩ := Task.act_pending granted shared origin call
      rw [hact, countP_cons_toNat, countP_newSession]
      cases hmoves with
      | within running moves => exact (moves.flags h).1
      | _ => rfl
    | session origin args thread =>
      cases thread with
      | running => rfl
      | done =>
        rw [h rfl]
        rfl
      | ended => rfl

/-- **Who owns `schedule_active`.** -/
theorem owns_schedule : Owns program Shared.scheduleActive Task.ownsSchedule where
  enter := by
    rintro t (⟨path, nonceHex⟩ | ⟨path, nonceHex⟩) <;> rfl
  act := by
    intro granted shared t h
    show (Task.act granted shared t).1.scheduleActive.toNat + _ = _ + (Task.act granted shared t).2.countP _
    cases t with
    | schedule call =>
      obtain ⟨shared', call', request, hmoves, hact⟩ := Task.act_schedule granted shared call
      rw [hact, countP_cons_toNat, countP_newPending_schedule]
      exact (hmoves.flags h).1
    | start call =>
      obtain ⟨shared', call', args, hmoves, hact⟩ := Task.act_start granted shared call
      have hsame : shared'.scheduleActive = shared.scheduleActive := by cases hmoves <;> rfl
      rw [hact, countP_cons_toNat, countP_newSession_schedule, hsame]
      rfl
    | pending origin call =>
      obtain ⟨shared', call', args, hmoves, hact⟩ := Task.act_pending granted shared origin call
      rw [hact, countP_cons_toNat, countP_newSession_schedule]
      cases hmoves with
      | ended =>
        rw [h rfl]
        rfl
      | within running moves =>
        have hsame : shared'.scheduleActive = shared.scheduleActive := by cases moves <;> rfl
        rw [hsame]
        rfl
      | _ => rfl
    | session origin args thread => cases thread <;> rfl

/-! ### What a pending call finds -/

/-- The arguments are those of the request. -/
structure SessionArgs.Of (args : SessionArgs) (request : Request) : Prop where
  socketPath : readString args.socketPath = request.socketPath.bytes
  nonce : Decodes request.nonceHex.bytes args.nonce

/-- What holds where `start_scheduled_session` is within `pydump_start`. -/
def Starting.Good (scheduled : SessionArgs) (origin : Request) : Starting → Prop
  | .entered path nonceHex => path = .scheduled ∧ ∃ hex, nonceHex = some hex ∧ Decodes hex scheduled.nonce
  | .checked path hex | .claimed path hex | .allocated path hex => path = .scheduled ∧ Decodes hex scheduled.nonce
  | .filled args => args.Of origin
  | .failing _ | .returned _ => True

/-- The path fits the address of a socket. -/
def Request.Fits (request : Request) : Prop := request.socketPath.bytes.length < SUN_PATH_SIZE

/-- What holds of a task, given the static buffer. -/
def Task.Good (shared : Shared) : Task → Prop
  | .schedule (.checked request) | .schedule (.claimed request) => request.Fits
  | .schedule (.copied request) =>
    request.Fits ∧ readString shared.scheduled.socketPath = request.socketPath.bytes
  | .schedule (.filled request) => request.Fits ∧ shared.scheduled.Of request
  | .pending origin .queued => origin.Fits ∧ shared.scheduled.Of origin
  | .pending origin (.starting call) =>
    (origin.Fits ∧ shared.scheduled.Of origin) ∧ call.Good shared.scheduled origin
  | .session (some origin) args _ => args.Of origin
  | _ => True

/-- Only the owner of `schedule_active` depends on the buffer. -/
theorem Task.Good.frame {shared shared' : Shared} {t : Task} (h : t.Good shared)
    (hframe : t.ownsSchedule = true → shared'.scheduled = shared.scheduled) : t.Good shared' := by
  cases howner : t.ownsSchedule with
  | true =>
    have hsame := hframe howner
    cases t with
    | schedule call => cases call <;> simp only [Task.Good, hsame] at h ⊢ <;> exact h
    | start call => trivial
    | pending origin call => cases call <;> simp only [Task.Good, hsame] at h ⊢ <;> exact h
    | session origin args thread => cases origin <;> exact h
  | false =>
    cases t with
    | schedule call =>
      cases call with
      | copied request => cases howner
      | filled request => cases howner
      | checked request => exact h
      | claimed request => exact h
      | _ => trivial
    | start call => trivial
    | pending origin call =>
      cases call with
      | returned value exception => trivial
      | _ => cases howner
    | session origin args thread => cases origin <;> exact h

/-- An act that the task's own flag does not guard leaves the buffer. -/
theorem scheduled_of_not_owner (granted : Bool) (shared : Shared) (t : Task) (h : t.ownsSchedule = false) :
    (t.act granted shared).1.scheduled = shared.scheduled := by
  cases t with
  | schedule call =>
    obtain ⟨shared', call', request, hmoves, hact⟩ := Task.act_schedule granted shared call
    rw [hact]
    cases hmoves with
    | copied => cases h
    | filled => cases h
    | badNonce => cases h
    | _ => rfl
  | start call =>
    obtain ⟨shared', call', args, hmoves, hact⟩ := Task.act_start granted shared call
    rw [hact]
    cases hmoves <;> rfl
  | pending origin call =>
    obtain ⟨shared', call', args, hmoves, hact⟩ := Task.act_pending granted shared origin call
    rw [hact]
    cases hmoves with
    | within running moves => cases moves <;> rfl
    | _ => rfl
  | session origin args thread => cases thread <;> rfl

/-- Different owners are different tasks. -/
def Apart (t u : Task) : Prop := t.ownsSchedule = true → u.ownsSchedule = false

/-- **`pydump_start` uses what `pydump_schedule` left.** -/
theorem Starting.Moves.good {origin : Request} {call call' : Starting} {args : Option SessionArgs}
    (h : call.Moves granted shared (shared', call', args)) (hscheduled : shared.scheduled.Of origin)
    (hgood : call.Good shared.scheduled origin) :
    call'.Good shared.scheduled origin ∧ ∀ a ∈ args, a.Of origin := by
  cases h with
  | refused unfit => exact ⟨trivial, by simp⟩
  | checked read fits =>
    obtain ⟨hpath, hex, hhex, hdecodes⟩ := hgood
    obtain rfl := Option.some.inj hhex
    exact ⟨⟨hpath, hdecodes⟩, by simp⟩
  | busy active => exact ⟨trivial, by simp⟩
  | claimed idle => exact ⟨hgood, by simp⟩
  | allocated memory => exact ⟨hgood, by simp⟩
  | noMemory exhausted => exact ⟨trivial, by simp⟩
  | @filled path nonceHex nonce decodes =>
    obtain ⟨rfl, hdecodes⟩ := hgood
    have hnonce : nonce = shared.scheduled.nonce :=
      congrArg Prod.snd ((decodes SessionArgs.zero.nonce).symm.trans (hdecodes SessionArgs.zero.nonce))
    refine ⟨⟨?_, hnonce ▸ hscheduled.nonce⟩, by simp⟩
    show readString (copyString _ (readString shared.scheduled.socketPath)) = _
    rw [hscheduled.socketPath, readString_copyString]
  | badNonce undecodable => exact ⟨trivial, by simp⟩
  | started thread =>
    refine ⟨trivial, fun a ha => ?_⟩
    obtain rfl := Option.some.inj ha
    exact hgood
  | noThread exhausted => exact ⟨trivial, by simp⟩
  | cleared => exact ⟨trivial, by simp⟩
  | returned => exact ⟨trivial, by simp⟩

/-- The sessions that a pending call starts have the arguments of its request. -/
theorem good_newSession {origin : Request} {args : Option SessionArgs} (h : ∀ a ∈ args, a.Of origin) (shared : Shared) :
    ∀ t ∈ newSession (some origin) args, t.Good shared := by
  intro t ht
  obtain ⟨a, ha, rfl⟩ := mem_newSession.1 ht
  exact h a ha

/-- **What holds of every task** whoever acts next. -/
theorem keeps_good : Keeps program Any Apart (fun shared t => t.Good shared) where
  enter := by
    rintro shared t (⟨path, nonceHex⟩ | ⟨path, nonceHex⟩) <;> trivial
  own := by
    intro granted shared t _ hgood
    show ∀ t' ∈ (Task.act granted shared t).2, t'.Good (Task.act granted shared t).1
    cases t with
    | schedule call =>
      obtain ⟨shared', call', request, hmoves, hact⟩ := Task.act_schedule granted shared call
      rw [hact]
      have hnone : ∀ t', t' ∈ [Task.schedule call'] → (Task.schedule call').Good shared' → t'.Good shared' := by
        intro t' ht' h
        rwa [List.mem_singleton.1 ht']
      cases hmoves with
      | refused => exact fun t' ht' => hnone t' ht' trivial
      | checked fits => exact fun t' ht' => hnone t' ht' fits
      | busy active => exact fun t' ht' => hnone t' ht' trivial
      | claimed idle => exact fun t' ht' => hnone t' ht' hgood
      | copied copied => exact fun t' ht' => hnone t' ht' ⟨hgood, copied⟩
      | filled decodes => exact fun t' ht' => hnone t' ht' ⟨hgood.1, hgood.2, decodes⟩
      | badNonce => exact fun t' ht' => hnone t' ht' trivial
      | accepted =>
        intro t' ht'
        rcases List.mem_cons.1 ht' with rfl | ht'
        · trivial
        · rw [List.mem_singleton.1 ht']
          exact hgood
      | full => exact fun t' ht' => hnone t' ht' trivial
      | cleared => exact fun t' ht' => hnone t' ht' trivial
      | kept => exact fun t' ht' => hnone t' ht' trivial
      | returned => exact fun t' ht' => hnone t' ht' trivial
    | start call =>
      obtain ⟨shared', call', args, hmoves, hact⟩ := Task.act_start granted shared call
      rw [hact]
      intro t' ht'
      rcases List.mem_cons.1 ht' with rfl | ht'
      · trivial
      · obtain ⟨a, -, rfl⟩ := mem_newSession.1 ht'
        trivial
    | pending origin call =>
      obtain ⟨shared', call', args, hmoves, hact⟩ := Task.act_pending granted shared origin call
      rw [hact]
      intro t' ht'
      cases hmoves with
      | begun decodes =>
        rw [List.mem_singleton.1 ht']
        exact ⟨hgood, rfl, _, rfl, decodes⟩
      | ended =>
        rw [List.mem_singleton.1 ht']
        trivial
      | within running moves =>
        have hsame : shared'.scheduled = shared.scheduled := by cases moves <;> rfl
        obtain ⟨hcall, hargs⟩ := moves.good hgood.1.2 hgood.2
        rcases List.mem_cons.1 ht' with rfl | ht'
        · exact Task.Good.frame (show (Task.pending origin (.starting _)).Good shared from ⟨hgood.1, hcall⟩)
            fun _ => hsame
        · exact good_newSession hargs shared' t' ht'
      | returned =>
        rw [List.mem_singleton.1 ht']
        trivial
    | session origin args thread =>
      intro t' ht'
      obtain rfl := List.mem_singleton.1 ht'
      cases origin <;> exact hgood
  other := by
    intro granted shared t u _ _ hgood hapart
    refine hgood.frame fun howner => ?_
    refine scheduled_of_not_owner granted shared t ?_
    by_contra hboth
    rw [hapart (eq_true_of_ne_false hboth)] at howner
    cases howner

end Lifecycle
end Agent
end Pydump
