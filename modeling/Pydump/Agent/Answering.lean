/-
# The Agent, turn by turn

`openSession` is what `session_main` does between its first `recv` and the first request,
and `handleFrame` is one round of the loop of `handle_requests`.  `nativeAgent` is the
process with these turns as the other end of a socket: it takes what comes in and sends
what it has to say before it waits again.

The turns put together are the session.  `sessionMain_requests` runs `session_main` on the
requests as one stream of bytes, in whatever portions `recv` finds them, and ends where the
turns end.
-/

import Pydump.Agent.Roots
import Pydump.Agent.Sending
import Pydump.Capture.GraphWalk

namespace Pydump
namespace Agent

open Capture (packAddresses length_packAddresses requests)
open ExceptLoop (run_bind_ok run_bind_eq_ok run_bind_error)
open Protocol (Frame FrameKind Packet Peer Cut Carries wireBytes BULK_RECORD_KINDS)

/-! ### Turns -/

/-- What `session_main` does between its first `recv` and the first request: the result, or
`none` where it goes on. -/
def openSession (target : Target) : Duplex (Option Status) := do
  match ← receiveFrame OPTIONS_SIZE with
  | none => pure (some .failed)
  | some frame =>
    if frame.kind = FrameKind.helloAck.code ∧ frame.length = OPTIONS_SIZE then do
      match ← sending (malloc MAX_PAYLOAD) with
      | none => pure (some .failed)
      | some _ => do
        match ← sending (andThen (sendWellKnown target) (sendRoots target.gcObjects)) with
        | .failed => pure (some .failed)
        | .ok => do
          modify fun connection => { connection with session := { connection.session with batch := .new } }
          pure none
    else pure (some .failed)

/-- One round of the loop of `handle_requests`. -/
def handleFrame (target : Target) (capacity : ℕ) : Duplex (Option Status) := do
  match ← receiveFrame capacity with
  | none => pure (some .failed)
  | some frame =>
    if frame.kind = FrameKind.finish.code ∧ frame.length = 0 then do
      let status ← sending (sendFrame .complete [])
      pure (some status)
    else if frame.kind ≠ FrameKind.requestObjects.code ∨ frame.length % 8 ≠ 0 then do
      let _ ← sending (sendError "expected an object request batch")
      pure (some .failed)
    else do
      match ← sendRequested target frame.payload (requestOffsets frame.length) with
      | .failed => pure (some .failed)
      | .ok => do
        match ← sending (andThen flushRecordBatch (sendFrame .batchDone [])) with
        | .failed => pure (some .failed)
        | .ok => pure none

/-- One round of `handle_frames`. -/
theorem handleFrames_succ (target : Target) (capacity rounds : ℕ) :
    handleFrames target capacity (rounds + 1) = (do
      match ← handleFrame target capacity with
      | some status => pure status
      | none => handleFrames target capacity rounds) := by
  rw [handleFrames, handleFrame, bind_assoc]
  refine congrArg _ (funext fun frame => ?_)
  cases frame with
  | none => rfl
  | some frame =>
    dsimp only
    split_ifs
    · simp only [bind_assoc, pure_bind, bind_pure]
    · rw [bind_assoc]
      rfl
    · rw [bind_assoc]
      refine congrArg _ (funext fun status => ?_)
      cases status with
      | failed => rfl
      | ok =>
        dsimp only
        rw [bind_assoc]
        refine congrArg _ (funext fun status => ?_)
        cases status <;> rfl

/-- Where the Agent waits. -/
inductive Progress
  /-- For the answer to its `HELLO`. -/
  | waiting
  /-- For a request. -/
  | serving
  | ended
  deriving DecidableEq

/-- What happens to bytes on their way: the portions in which the Agent's calls of `recv`
find them, and the pieces in which the Collector's do. -/
structure Transport where
  arrivals : List UInt8 → List ReceiveOutcome
  cuts : List UInt8 → List (List UInt8)
  arrivals_eq : ∀ bytes, arrivingBytes (arrivals bytes) = bytes
  cuts_eq : ∀ bytes, Cut (cuts bytes) bytes

/-- What the Agent does when something comes in. -/
def Progress.routine (target : Target) : Progress → Duplex (Option Status)
  | .waiting => openSession target
  | .serving | .ended => handleFrame target MAX_PAYLOAD

/-- The turn from one `recv` of a header to the next, with the frame that reports a
failure. -/
def turn (target : Target) (progress : Progress) : Duplex Progress := do
  match ← progress.routine target with
  | none => pure .serving
  | some .ok => pure .ended
  | some .failed => do
    let _ ← sending (sendError "native agent session failed or timed out")
    pure .ended

/-- **The native Agent** as the other end of a socket.  The Collector sends one frame at a
time, so nothing is left over of what arrives. -/
def nativeAgent (target : Target) (transport : Transport) : Peer (Progress × Session) where
  respond state wire :=
    if state.1 = .ended then none
    else
      match turn target state.1 ⟨state.2, transport.arrivals wire⟩ with
      | .error _ => none
      | .ok (progress, connection) =>
        some ((progress, connection.session), transport.cuts (connection.session.wire.drop state.2.wire.length))

/-! ### The roots -/

/-- The chunks are the full ones and what is left. -/
theorem chunksFrom_eq_fullChunks (values addresses : List ℕ) : chunksFrom values addresses =
    (fullChunks values addresses).1 ++ chunksFrom (fullChunks values addresses).2 [] := by
  induction addresses generalizing values with
  | nil => rfl
  | cons a addresses ih =>
    rw [chunksFrom.eq_2, fullChunks]
    split_ifs
    · rw [ih, List.cons_append]
    · exact ih _

/-- The frames of the roots. -/
def rootFrames (objects : List ℕ) : List Frame := (chunksFrom [] objects).map (chunkFrame .rootBatch) ++ [ROOTS_DONE]

/-- The full chunks are handed over one by one. -/
theorem hands_sendChunks {chunks : List (List ℕ)} (h : ∀ chunk ∈ chunks, chunk.length = IO_BATCH) :
    Hands (sendChunks chunks) (chunks.map (chunkFrame .rootBatch)) := by
  induction chunks with
  | nil => exact hands_pure
  | cons chunk chunks ih =>
    have hfirst := @hands_chunk .rootBatch (by decide) chunk (h chunk List.mem_cons_self).le
    exact hfirst.andThen (ih fun c hc => h c (List.mem_cons_of_mem chunk hc))

/-- What was sent before makes no difference to the chunks. -/
theorem uniform_sendChunks (chunks : List (List ℕ)) : Uniform (sendChunks chunks) := by
  induction chunks with
  | nil => exact .pure _
  | cons chunk chunks ih => exact (uniform_appendRecordParts _ _ _).andThen ih

/-- **`send_roots`** where no call fails. -/
theorem sends_roots (objects : List ℕ) : Sends (sendRoots objects) (rootFrames objects) := by
  intro session hidle
  obtain ⟨-, hfull, hrest, -⟩ := @fullChunks_spec [] (by decide) objects
  let chunks := (fullChunks [] objects).1
  let rest := (fullChunks [] objects).2
  let started : Session := { session with batch := .new }
  have hstarted : Idle started := ⟨RecordBatch.holds_new, hidle.reliable, hidle.granted⟩
  have hhands : Hands (andThen (sendChunks chunks) (sendAddresses [] ⟨rest, .rootBatch⟩))
      (chunks.map (chunkFrame .rootBatch) ++ (chunksFrom rest []).map (chunkFrame .rootBatch)) :=
    (hands_sendChunks hfull).andThen (sendAddresses_hands (by decide) [] hrest)
  have huniform := (uniform_sendChunks chunks).andThen (uniform_sendAddresses [] ⟨rest, .rootBatch⟩)
  obtain ⟨session', packets, hrun, hidle', hwire, hframes⟩ :=
    @Hands.sends _ _ hhands huniform ROOTS_DONE (by decide) (by decide) started hstarted
  refine ⟨session', packets, ?_, hidle', hwire, ?_⟩
  · -- the chunks of the visit are sent, so that the stream keeps the rest
    obtain ⟨session₂, hrecords, hdone⟩ := andThen_eq_ok hrun
    obtain ⟨session₁, hchunks, hstream⟩ := andThen_eq_ok hrecords
    rw [sendRoots_eq hchunks, if_pos rfl, run_andThen hstream, if_pos rfl]
    exact hdone
  · rw [hframes, rootFrames, chunksFrom_eq_fullChunks [] objects, List.map_append]

/-! ### Requests -/

/-- A send that succeeds changes the sending half alone. -/
theorem sending_ok {α : Type} {routine : Routine α} {connection : Connection} {a : α} {session : Session}
    (h : routine connection.session = .ok (a, session)) :
    sending routine connection = .ok (a, { connection with session := session }) := by
  rw [sending, h]

/-- The objects one after another. -/
def sendObjects : List PyObject → Routine Status
  | [] => pure .ok
  | object :: objects => andThen (sendObject object) (sendObjects objects)

/-- The objects are handed over one by one. -/
theorem hands_sendObjects (objects : List PyObject) :
    Hands (sendObjects objects) (objects.flatMap PyObject.objectFrames) := by
  induction objects with
  | nil => exact hands_pure
  | cons object objects ih => exact (sendObject_hands object).andThen ih

/-- What was sent before makes no difference to the objects. -/
theorem uniform_sendObjects (objects : List PyObject) : Uniform (sendObjects objects) := by
  induction objects with
  | nil => exact .pure _
  | cons object objects ih => exact (uniform_sendObject object).andThen ih

/-- The addresses behind the first `n` stand behind `8 * n` bytes. -/
theorem drop_packAddresses (addresses : List ℕ) (n : ℕ) :
    (packAddresses addresses).drop (8 * n) = packAddresses (addresses.drop n) := by
  induction n generalizing addresses with
  | zero => rfl
  | succ n ih =>
    cases addresses with
    | nil => simp [packAddresses]
    | cons a addresses =>
      rw [List.drop_succ_cons, ← ih, Nat.mul_succ, Nat.add_comm, ← List.drop_drop]
      exact congrArg (List.drop (8 * n)) (List.drop_left' (BigEndian.length_encode 8 a))

/-- Address `n` is read back from the payload. -/
theorem loadAddress_pack {addresses : List ℕ} (h : ∀ a ∈ addresses, a < 2 ^ 64) {n a : ℕ} {rest : List ℕ}
    (hn : addresses.drop n = a :: rest) : loadAddress (packAddresses addresses) (8 * n) = pure a := by
  have hlen := congrArg List.length hn
  rw [List.length_drop, List.length_cons] at hlen
  have hmem : a ∈ addresses := List.mem_of_mem_drop (hn ▸ List.mem_cons_self)
  rw [loadAddress, if_pos (by rw [length_packAddresses]; omega), drop_packAddresses, hn]
  have htake : (packAddresses (a :: rest)).take 8 = BigEndian.encode 8 a :=
    List.take_left' (BigEndian.length_encode 8 a)
  rw [htake, BigEndian.decode_encode (by simpa using h a hmem)]

/-- **The loop over a request** sends the objects that are asked for. -/
theorem sendRequested_eq (target : Target) {addresses : List ℕ} (h : ∀ a ∈ addresses, a < 2 ^ 64) :
    sendRequested target (packAddresses addresses) (requestOffsets (packAddresses addresses).length) =
      sending (sendObjects (addresses.map target.objectAt)) := by
  have hoffsets : requestOffsets (packAddresses addresses).length = (List.range' 0 addresses.length).map (8 * ·) := by
    rw [requestOffsets, length_packAddresses, List.range_eq_range']
    congr 2
    omega
  suffices hfrom : ∀ rest n, addresses.drop n = rest →
      sendRequested target (packAddresses addresses) ((List.range' n rest.length).map (8 * ·)) =
        sending (sendObjects (rest.map target.objectAt)) by
    rw [hoffsets]
    exact hfrom addresses 0 rfl
  intro rest
  induction rest with
  | nil =>
    intro n _
    rfl
  | cons a rest ih =>
    intro n hn
    have hrest : addresses.drop (n + 1) = rest := by
      rw [← List.drop_drop, hn, List.drop_one, List.tail_cons]
    rw [List.length_cons, List.range'_succ, List.map_cons, sendRequested, loadAddress_pack h hn, pure_bind, ih _ hrest]
    funext connection
    rw [List.map_cons, sendObjects]
    cases hsend : sendObject (target.objectAt a) connection.session with
    | error fault =>
      have hfirst : sending (sendObject (target.objectAt a)) connection = .error (.send fault) := by
        rw [sending, hsend]
      rw [run_bind_error hfirst, sending, andThen, run_bind_error hsend]
    | ok r =>
      obtain ⟨status, session⟩ := r
      rw [run_bind_ok (sending_ok hsend), sending, run_andThen hsend]
      cases status <;> rfl

/-! ### The frames of a turn -/

/-- The payload of the `HELLO`. -/
def Target.helloPayload (target : Target) : List UInt8 := [target.pythonMajor, target.pythonMinor, 8, 1] ++ target.nonce

/-- A nonce of 16 bytes fits the greeting. -/
theorem Target.fits_helloPayload {target : Target} (hnonce : target.nonce.length ≤ 16) :
    target.helloPayload.length ≤ MAX_PAYLOAD := by
  simp only [Target.helloPayload, List.length_append, List.length_cons, List.length_nil, MAX_PAYLOAD]
  omega

/-- What the Agent says to the options. -/
def Target.openingFrames (target : Target) : List Frame :=
  ⟨.wellKnown, packAddresses target.wellKnown⟩ :: rootFrames target.gcObjects

/-- What the Agent says to a request. -/
def Target.answerFrames (target : Target) (batch : List ℕ) : List Frame :=
  (batch.map target.objectAt).flatMap PyObject.objectFrames ++ [⟨.batchDone, []⟩]

/-- From an idle session, the part takes a frame, sends others and is idle again, in
whatever portions the frame arrives. -/
def Replies {α : Type} (part : Duplex α) (frame : Frame) (frames : List Frame) (a : α) : Prop :=
  ∀ session, Idle session → ∃ session' packets, Idle session' ∧ session'.wire = session.wire ++ wireBytes packets ∧
    packets.flatMap Packet.frames = frames ∧
      ∀ receives more, arrivingBytes receives = frame.bytes ++ more →
        ∃ rest, part ⟨session, receives⟩ = .ok (a, ⟨session', rest⟩) ∧ arrivingBytes rest = more

/-- **The options are answered** by the well-known types and the roots. -/
theorem openSession_replies {target : Target} (hwellKnown : 8 * target.wellKnown.length ≤ MAX_PAYLOAD)
    {options : List UInt8} (hoptions : options.length = OPTIONS_SIZE) :
    Replies (openSession target) ⟨.helloAck, options⟩ target.openingFrames none := by
  intro session hidle
  have hsends : Sends (andThen (sendWellKnown target) (sendRoots target.gcObjects)) target.openingFrames :=
    (@sends_frame ⟨.wellKnown, packAddresses target.wellKnown⟩ (by simp) (by rwa [length_packAddresses])).andThen
      (sends_roots target.gcObjects)
  -- there is memory for the requests
  let granted : Session := { session with mallocs := session.mallocs.tail }
  have hgiven : session.mallocs.headD true = true := by
    cases hmallocs : session.mallocs with
    | nil => rfl
    | cons given mallocs => exact hidle.granted given (by rw [hmallocs]; exact List.mem_cons_self)
  have hmalloc : malloc MAX_PAYLOAD session = .ok (some (List.replicate MAX_PAYLOAD 0), granted) := by
    rw [malloc_eq, hgiven]
    rfl
  have hidle' : Idle granted :=
    ⟨hidle.holds, hidle.reliable, fun given hg => hidle.granted given (List.mem_of_mem_tail hg)⟩
  obtain ⟨session', packets, hrun, hdone, hwire, hframes⟩ := hsends granted hidle'
  refine ⟨{ session' with batch := .new }, packets, ⟨RecordBatch.holds_new, hdone.reliable, hdone.granted⟩,
    hwire, hframes, fun receives more harrives => ?_⟩
  obtain ⟨rest, hreceive, hrest⟩ := @receiveFrame_frame ⟨.helloAck, options⟩ (by rw [hoptions]; decide) OPTIONS_SIZE
    hoptions.le ⟨session, receives⟩ more harrives
  refine ⟨rest, ?_, hrest⟩
  rw [openSession, run_bind_ok hreceive]
  dsimp only
  rw [if_pos ⟨rfl, hoptions⟩]
  have hmemory := @sending_ok _ _ ⟨session, rest⟩ _ _ hmalloc
  have hsent := @sending_ok _ _ ⟨granted, rest⟩ _ _ hrun
  rw [run_bind_ok hmemory]
  exact run_bind_ok hsent

/-- **A request is answered** by the objects that are asked for. -/
theorem handleFrame_replies (target : Target) {batch : List ℕ} (hbatch : ∀ a ∈ batch, a < 2 ^ 64)
    (hfits : 8 * batch.length ≤ MAX_PAYLOAD) :
    Replies (handleFrame target MAX_PAYLOAD) ⟨.requestObjects, packAddresses batch⟩ (target.answerFrames batch)
      none := by
  intro session hidle
  obtain ⟨session', packets, hrun, hdone, hwire, hframes⟩ := @Hands.sends _ _
    (hands_sendObjects (batch.map target.objectAt)) (uniform_sendObjects _) ⟨.batchDone, []⟩ (by simp) (by decide)
    session hidle
  obtain ⟨session₁, hobjects, hcontrol⟩ := andThen_eq_ok hrun
  refine ⟨session', packets, hdone, hwire, hframes, fun receives more harrives => ?_⟩
  have hsize : (packAddresses batch).length ≤ MAX_PAYLOAD := by rwa [length_packAddresses]
  obtain ⟨rest, hreceive, hrest⟩ := @receiveFrame_frame ⟨.requestObjects, packAddresses batch⟩ hsize MAX_PAYLOAD hsize
    ⟨session, receives⟩ more harrives
  have hlength : ¬(FrameKind.requestObjects.code ≠ FrameKind.requestObjects.code ∨
      (packAddresses batch).length % 8 ≠ 0) := by
    rw [length_packAddresses]
    simp
  have hrequest : ¬(FrameKind.requestObjects.code = FrameKind.finish.code ∧ (packAddresses batch).length = 0) := by
    rintro ⟨hcode, -⟩
    revert hcode
    decide
  refine ⟨rest, ?_, hrest⟩
  rw [handleFrame, run_bind_ok hreceive]
  dsimp only
  rw [if_neg hrequest, if_neg hlength, sendRequested_eq target hbatch,
    run_bind_ok (@sending_ok _ _ ⟨session, rest⟩ _ _ hobjects)]
  exact run_bind_ok (@sending_ok _ _ ⟨session₁, rest⟩ _ _ hcontrol)

/-- **`FINISH` is answered** by `COMPLETE`. -/
theorem handleFrame_finishes (target : Target) :
    Replies (handleFrame target MAX_PAYLOAD) ⟨.finish, []⟩ [⟨.complete, []⟩] (some .ok) := by
  intro session hidle
  obtain ⟨session', packets, hrun, hdone, hwire, hframes⟩ :=
    @sends_frame ⟨.complete, []⟩ (by simp) (by decide) session hidle
  refine ⟨session', packets, hdone, hwire, hframes, fun receives more harrives => ?_⟩
  obtain ⟨rest, hreceive, hrest⟩ := @receiveFrame_frame ⟨.finish, []⟩ (by decide) MAX_PAYLOAD (by decide)
    ⟨session, receives⟩ more harrives
  refine ⟨rest, ?_, hrest⟩
  rw [handleFrame, run_bind_ok hreceive]
  dsimp only
  rw [if_pos ⟨rfl, rfl⟩]
  exact run_bind_ok (@sending_ok _ _ ⟨session, rest⟩ _ _ hrun)

/-! ### The Agent at the other end -/

/-- A routine that replies, as a turn of the process at the other end. -/
theorem respond_of_replies {target : Target} (transport : Transport) (progress : Progress) {next : Progress}
    {frame : Frame} {frames : List Frame} {result : Option Status}
    (h : Replies (progress.routine target) frame frames result) (hprogress : progress ≠ .ended)
    (hnext : (result = none ∧ next = .serving) ∨ (result = some .ok ∧ next = .ended)) {session : Session}
    (hidle : Idle session) : ∃ session' packets, Idle session' ∧ session'.wire = session.wire ++ wireBytes packets ∧
      packets.flatMap Packet.frames = frames ∧
      (∀ receives more, arrivingBytes receives = frame.bytes ++ more →
        ∃ rest, progress.routine target ⟨session, receives⟩ = .ok (result, ⟨session', rest⟩) ∧
          arrivingBytes rest = more) ∧
      (nativeAgent target transport).respond (progress, session) frame.bytes =
        some ((next, session'), transport.cuts (wireBytes packets)) := by
  obtain ⟨session', packets, hdone, hwire, hframes, hruns⟩ := h session hidle
  refine ⟨session', packets, hdone, hwire, hframes, hruns, ?_⟩
  have harrives : arrivingBytes (transport.arrivals frame.bytes) = frame.bytes ++ [] := by
    rw [transport.arrivals_eq, List.append_nil]
  obtain ⟨rest, hrun, -⟩ := hruns _ [] harrives
  have hturn : turn target progress ⟨session, transport.arrivals frame.bytes⟩ = .ok (next, ⟨session', rest⟩) := by
    rw [turn, run_bind_ok hrun]
    rcases hnext with ⟨rfl, rfl⟩ | ⟨rfl, rfl⟩ <;> rfl
  have hdrop : session'.wire.drop session.wire.length = wireBytes packets := by rw [hwire, List.drop_left]
  simp only [nativeAgent, if_neg hprogress, hturn, hdrop]

/-! ### Whole sessions -/

/-- A batch that one frame can ask for. -/
def Request (batch : List ℕ) : Prop := (∀ a ∈ batch, a < 2 ^ 64) ∧ 8 * batch.length ≤ MAX_PAYLOAD

/-- The requests behind the options, and the `FINISH`. -/
def requestFrames (batches : List (List ℕ)) : List Frame :=
  batches.map (fun batch => ⟨.requestObjects, packAddresses batch⟩) ++ [⟨.finish, []⟩]

/-- The Agent serves the requests from one session to another: turn by turn at the other
end of a socket, and in the loop of `handle_requests` over the requests as one stream. -/
structure ServesRequests (target : Target) (transport : Transport) (batches : List (List ℕ)) (session last : Session) :
    Prop where
  spoken : (nativeAgent target transport).Says (.serving, session) ((requestFrames batches).map Frame.bytes)
    (batches.flatMap target.answerFrames ++ [⟨.complete, []⟩]) (.ended, last)
  wire : ∃ packets, last.wire = session.wire ++ wireBytes packets ∧
    packets.flatMap Packet.frames = batches.flatMap target.answerFrames ++ [⟨.complete, []⟩]
  runs : ∀ receives rounds, arrivingBytes receives = (requestFrames batches).flatMap Frame.bytes →
    batches.length < rounds →
      ∃ rest, handleFrames target MAX_PAYLOAD rounds ⟨session, receives⟩ = .ok (.ok, ⟨last, rest⟩)

/-- **Any requests are served.** -/
theorem exists_servesRequests (target : Target) (transport : Transport) {batches : List (List ℕ)}
    (h : ∀ batch ∈ batches, Request batch) {session : Session} (hidle : Idle session) :
    ∃ last, ServesRequests target transport batches session last := by
  induction batches generalizing session with
  | nil =>
    obtain ⟨last, packets, -, hwire, hframes, hruns, hrespond⟩ :=
      respond_of_replies transport .serving (handleFrame_finishes target) (by decide)
        (.inr ⟨rfl, rfl⟩) hidle
    refine ⟨last, ⟨?_, ⟨packets, hwire, hframes⟩, fun receives rounds harrives hrounds => ?_⟩⟩
    · have hcarried : Carries (transport.cuts (wireBytes packets)) [⟨.complete, []⟩] :=
        ⟨packets, transport.cuts_eq _, hframes⟩
      have hspoken := Peer.Says.cons hrespond hcarried (.nil _)
      exact hspoken
    · obtain ⟨rounds, rfl⟩ := Nat.exists_eq_add_one_of_ne_zero (Nat.ne_zero_of_lt hrounds)
      obtain ⟨rest, hrun, -⟩ := hruns receives [] harrives
      rw [handleFrames_succ]
      exact ⟨rest, run_bind_ok hrun⟩
  | cons batch batches ih =>
    obtain ⟨hbatch, hbatches⟩ := List.forall_mem_cons.1 h
    obtain ⟨session₁, packets, hidle₁, hwire, hframes, hruns, hrespond⟩ :=
      respond_of_replies transport .serving (handleFrame_replies target hbatch.1 hbatch.2) (by decide)
        (.inl ⟨rfl, rfl⟩) hidle
    obtain ⟨last, hspoken, ⟨packets', hwire', hframes'⟩, hruns'⟩ := ih hbatches hidle₁
    refine ⟨last, ⟨?_, ⟨packets ++ packets', ?_, ?_⟩, fun receives rounds harrives hrounds => ?_⟩⟩
    · rw [List.flatMap_cons, List.append_assoc]
      exact .cons hrespond ⟨packets, transport.cuts_eq _, hframes⟩ hspoken
    · rw [hwire', hwire, Protocol.wireBytes_append, List.append_assoc]
    · rw [List.flatMap_append, hframes, hframes', List.flatMap_cons, List.append_assoc]
    · obtain ⟨rounds, rfl⟩ := Nat.exists_eq_add_one_of_ne_zero (Nat.ne_zero_of_lt hrounds)
      obtain ⟨rest, hrun, hrest⟩ := hruns receives ((requestFrames batches).flatMap Frame.bytes) harrives
      obtain ⟨rest', hrun'⟩ := hruns' rest rounds hrest (Nat.lt_of_succ_lt_succ hrounds)
      rw [handleFrames_succ]
      exact ⟨rest', (run_bind_ok hrun).trans hrun'⟩

/-- The memory that is found has the length asked for. -/
theorem length_of_malloc {length : ℕ} {bytes : List UInt8} {connection connection' : Connection}
    (h : sending (malloc length) connection = .ok (some bytes, connection')) : bytes.length = length := by
  rw [sending, malloc_eq] at h
  cases hgiven : connection.session.mallocs.headD true with
  | false =>
    rw [hgiven] at h
    cases h
  | true =>
    rw [hgiven] at h
    cases h
    exact List.length_replicate

/-- The session goes on from where the options are answered. -/
theorem sessionMain_of_openSession {target : Target} {session session₁ : Session} {receives : List ReceiveOutcome}
    {connection connection' : Connection} (hhello : sendHello target session = .ok (.ok, session₁))
    (hopen : openSession target ⟨session₁, receives⟩ = .ok (none, connection))
    (hframes : handleFrames target MAX_PAYLOAD ((arrivingBytes connection.receives).length + 1) connection =
      .ok (.ok, connection')) : sessionMain target ⟨session, receives⟩ = .ok ((), connection') := by
  have hgreeted := @sending_ok _ _ ⟨session, receives⟩ _ _ hhello
  obtain ⟨frame, connection₁, hreceive, hopen⟩ := run_bind_eq_ok.1 hopen
  cases frame with
  | none => cases hopen
  | some frame =>
    dsimp only at hopen
    split_ifs at hopen with haccepted
    · have hshaken : handshake target ⟨session, receives⟩ = .ok (true, connection₁) := by
        rw [handshake, run_bind_ok hgreeted]
        dsimp only
        rw [run_bind_ok hreceive]
        simp only [decide_eq_true haccepted]
        rfl
      obtain ⟨requested, connection₂, hmalloc, hopen⟩ := run_bind_eq_ok.1 hopen
      cases requested with
      | none => cases hopen
      | some requested =>
        obtain ⟨status, connection₃, hroots, hopen⟩ := run_bind_eq_ok.1 hopen
        cases status with
        | failed => cases hopen
        | ok =>
          cases hopen
          have hlength := length_of_malloc hmalloc
          have hserved : serve target connection₁ = .ok (.ok, connection') := by
            rw [serve, run_bind_ok hmalloc]
            dsimp only
            rw [run_bind_ok hroots, hlength]
            exact hframes
          rw [sessionMain, run_bind_ok hshaken]
          exact run_bind_ok hserved
    · cases hopen

/-- **A whole session**, turn by turn and at once.  The Agent has said `HELLO` and waits in
`waiting`; it is sent the options, the requests and the `FINISH`. -/
structure Converses (target : Target) (transport : Transport) (options : List UInt8) (batches : List (List ℕ))
    (session waiting last : Session) : Prop where
  hello : sendHello target session = .ok (.ok, waiting)
  spoken : (nativeAgent target transport).Says (.waiting, waiting)
    ((⟨.helloAck, options⟩ :: requestFrames batches : List Frame).map Frame.bytes)
    (target.openingFrames ++ (batches.flatMap target.answerFrames ++ [⟨.complete, []⟩])) (.ended, last)
  wire : ∃ packets, last.wire = session.wire ++ wireBytes packets ∧ packets.flatMap Packet.frames =
    ⟨.hello, target.helloPayload⟩ :: (target.openingFrames ++
      (batches.flatMap target.answerFrames ++ [⟨.complete, []⟩]))
  runs : ∀ receives,
    arrivingBytes receives = (⟨.helloAck, options⟩ :: requestFrames batches : List Frame).flatMap Frame.bytes →
      ∃ rest, sessionMain target ⟨session, receives⟩ = .ok ((), ⟨last, rest⟩)

/-- There are fewer requests than bytes on the wire. -/
theorem length_requestFrames_lt (batches : List (List ℕ)) :
    batches.length < ((requestFrames batches).flatMap Frame.bytes).length + 1 := by
  have hone : ∀ frames : List Frame, frames.length ≤ (frames.flatMap Frame.bytes).length := by
    intro frames
    induction frames with
    | nil => exact Nat.le_refl 0
    | cons frame frames ih =>
      have hheader : 12 ≤ frame.bytes.length := by
        rw [Frame.bytes, List.length_append, Protocol.length_packHeader]
        exact Nat.le_add_right 12 _
      rw [List.flatMap_cons, List.length_append, List.length_cons]
      omega
  have hall := hone (requestFrames batches)
  rw [requestFrames, List.length_append, List.length_map, List.length_singleton] at hall
  exact Nat.lt_succ_of_le (Nat.le_of_succ_le hall)

/-- **`sessionMain_requests`.**  `session_main` on the requests as one stream ends where the
turns end. -/
theorem sessionMain_requests {target : Target} (transport : Transport) (hnonce : target.nonce.length ≤ 16)
    (hwellKnown : 8 * target.wellKnown.length ≤ MAX_PAYLOAD) {options : List UInt8}
    (hoptions : options.length = OPTIONS_SIZE) {batches : List (List ℕ)} (h : ∀ batch ∈ batches, Request batch)
    {session : Session} (hidle : Idle session) :
    ∃ waiting last, Converses target transport options batches session waiting last := by
  obtain ⟨waiting, packets, hrun, hwaiting, hwire, hframes⟩ :=
    @sends_frame ⟨.hello, target.helloPayload⟩ (by simp) (Target.fits_helloPayload hnonce) session hidle
  obtain ⟨session₁, packets₁, hidle₁, hwire₁, hframes₁, hruns₁, hrespond₁⟩ :=
    respond_of_replies transport .waiting (openSession_replies hwellKnown hoptions) (by decide) (.inl ⟨rfl, rfl⟩)
      hwaiting
  obtain ⟨last, hspoken, ⟨packets₂, hwire₂, hframes₂⟩, hruns₂⟩ := exists_servesRequests target transport h hidle₁
  refine ⟨waiting, last, hrun, ?_, ⟨packets ++ (packets₁ ++ packets₂), ?_, ?_⟩, fun receives harrives => ?_⟩
  · exact .cons hrespond₁ ⟨packets₁, transport.cuts_eq _, hframes₁⟩ hspoken
  · rw [hwire₂, hwire₁, hwire, Protocol.wireBytes_append, Protocol.wireBytes_append, List.append_assoc,
      List.append_assoc]
  · rw [List.flatMap_append, List.flatMap_append, hframes, hframes₁, hframes₂]
    rfl
  · obtain ⟨rest, hopen, hrest⟩ := hruns₁ receives ((requestFrames batches).flatMap Frame.bytes) harrives
    obtain ⟨rest', hserved⟩ := hruns₂ rest ((arrivingBytes rest).length + 1) hrest
      (by rw [hrest]; exact length_requestFrames_lt batches)
    exact ⟨rest', sessionMain_of_openSession hrun hopen hserved⟩

end Agent
end Pydump
