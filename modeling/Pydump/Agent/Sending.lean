/-
# From one idle session to the next

Between two turns of a session no record waits in the batch.  `Sends` says which frames a
routine puts on the wire from there, and the turns of `session_main` are sequences of such
routines.

What a routine sends does not depend on what was sent before it (`Uniform`): every routine
of the sending half only adds to the wire.  So the bytes of a turn are the same whether the
session is taken as a whole or turn by turn.
-/

import Pydump.Agent.Batching
import Pydump.Agent.ReceiveSpec

namespace Pydump
namespace Agent

open ExceptLoop (run_bind_ok run_bind_error run_get_bind)
open Protocol (Frame FrameKind Packet wireBytes packHeader)

variable {α β : Type}

/-! ### What was sent before -/

/-- The session behind bytes that were sent before. -/
def Session.behind (earlier : List UInt8) (session : Session) : Session :=
  { session with wire := earlier ++ session.wire }

/-- The wire carries what was sent earlier in front. -/
@[simp] theorem Session.wire_behind (earlier : List UInt8) (session : Session) :
    (session.behind earlier).wire = earlier ++ session.wire := rfl

/-- What was sent earlier leaves the outcomes. -/
@[simp] theorem Session.sends_behind (earlier : List UInt8) (session : Session) :
    (session.behind earlier).sends = session.sends := rfl

/-- What was sent earlier leaves the allocations. -/
@[simp] theorem Session.mallocs_behind (earlier : List UInt8) (session : Session) :
    (session.behind earlier).mallocs = session.mallocs := rfl

/-- What was sent earlier leaves the batch. -/
@[simp] theorem Session.batch_behind (earlier : List UInt8) (session : Session) :
    (session.behind earlier).batch = session.batch := rfl

/-- What was sent before makes no difference to the routine. -/
def Uniform (routine : Routine α) : Prop :=
  ∀ earlier session, routine (session.behind earlier) = (routine session).map fun r => (r.1, r.2.behind earlier)

namespace Uniform

/-- A routine that does nothing. -/
protected theorem pure (a : α) : Uniform (pure a : Routine α) := fun _ _ => rfl

/-- One routine after another. -/
protected theorem bind {routine : Routine α} {next : α → Routine β} (h : Uniform routine)
    (hnext : ∀ a, Uniform (next a)) : Uniform (routine >>= next) := by
  intro earlier session
  have hfirst := h earlier session
  cases hrun : routine session with
  | error fault =>
    rw [hrun] at hfirst
    rw [run_bind_error hrun]
    exact run_bind_error hfirst
  | ok r =>
    rw [hrun] at hfirst
    rw [run_bind_ok hrun]
    exact (run_bind_ok hfirst).trans (hnext r.1 earlier r.2)

/-- A routine that reads the session, but not what was sent. -/
theorem get_bind {next : Session → Routine α} (hblind : ∀ earlier session, next (session.behind earlier) = next session)
    (hnext : ∀ session, Uniform (next session)) : Uniform (get >>= next) := by
  intro earlier session
  rw [run_get_bind, run_get_bind, hblind]
  exact hnext session earlier session

/-- One routine after another that succeeds. -/
theorem andThen {first second : Routine Status} (h : Uniform first) (h' : Uniform second) :
    Uniform (andThen first second) := by
  refine h.bind fun status => ?_
  cases status with
  | failed => exact .pure _
  | ok => exact h'

/-- A lifted result. -/
theorem lift (x : Except MemoryFault α) : Uniform (liftM x : Routine α) := by
  intro earlier session
  cases x <;> rfl

end Uniform

/-- The loop of `send_all` behind what was sent earlier. -/
theorem sendLoop_behind (earlier : List UInt8) (sends : List SendOutcome) (data wire : List UInt8) :
    sendLoop sends data (earlier ++ wire) =
      ((sendLoop sends data wire).1, (sendLoop sends data wire).2.1, earlier ++ (sendLoop sends data wire).2.2) := by
  fun_induction sendLoop sends data wire with
  | case1 sends wire => simp [sendLoop]
  | case2 data wire hne => simp [sendLoop]
  | case3 sends data wire hne ih => simpa [sendLoop] using ih
  | case4 sends data wire hne => simp [sendLoop]
  | case5 sends data wire hne => simp [sendLoop]
  | case6 count sends data wire hne hcount ih =>
    rw [← List.append_assoc] at ih
    simpa [sendLoop, hcount] using ih

/-- `send_all` does not look at the wire. -/
theorem uniform_sendAll (data : List UInt8) : Uniform (sendAll data) := by
  intro earlier session
  simp only [sendAll, Session.sends_behind, Session.wire_behind, sendLoop_behind]
  rfl

/-- A store does not look at the wire. -/
theorem uniform_store (offset : ℕ) (bytes : List UInt8) : Uniform (store offset bytes) := by
  intro earlier session
  rw [store, run_get_bind, run_get_bind, Session.batch_behind]
  cases memcpy session.batch.wire offset bytes <;> rfl

/-- A load does not look at the wire. -/
theorem uniform_load (length : ℕ) : Uniform (load length) := by
  refine Uniform.get_bind (fun _ _ => rfl) fun session => ?_
  split_ifs
  · exact .pure _
  · exact fun _ _ => rfl

/-- The length of the batch is set whatever is on the wire. -/
theorem uniform_setPayloadLength (length : ℕ) : Uniform (setPayloadLength length) := fun _ _ => rfl

/-- An allocation does not look at the wire. -/
theorem uniform_malloc (length : ℕ) : Uniform (malloc length) := by
  intro earlier session
  rw [malloc_eq, malloc_eq]
  rfl

/-- A frame is sent whatever is on the wire. -/
theorem uniform_sendFrame (kind : FrameKind) (payload : List UInt8) : Uniform (sendFrame kind payload) := by
  refine (uniform_sendAll _).andThen ?_
  split_ifs
  · exact .pure _
  · exact uniform_sendAll _

/-- A flush does not look at the wire. -/
theorem uniform_flushRecordBatch : Uniform flushRecordBatch := by
  refine Uniform.get_bind (fun _ _ => rfl) fun session => ?_
  dsimp only
  split_ifs
  · exact .pure _
  · exact (uniform_store _ _).bind fun _ => (uniform_load _).bind fun _ => (uniform_sendAll _).bind fun _ =>
      (uniform_setPayloadLength _).bind fun _ => .pure _

/-- A record is stored whatever is on the wire. -/
theorem uniform_storeRecord (kind : FrameKind) (payloadLength recordLength : ℕ) (first second : List UInt8) :
    Uniform (storeRecord kind payloadLength recordLength first second) := by
  intro earlier session
  rw [storeRecord, run_get_bind, run_get_bind, Session.batch_behind]
  cases copyRecord session.batch.wire (12 + session.batch.payloadLength) kind payloadLength first second <;> rfl

/-- A large record is sent whatever is on the wire. -/
theorem uniform_sendLargeRecord (kind : FrameKind) (payloadLength recordLength : ℕ) (first second : List UInt8) :
    Uniform (sendLargeRecord kind payloadLength recordLength first second) := by
  refine (uniform_malloc _).bind fun wire => ?_
  cases wire with
  | none => exact .pure _
  | some wire => exact (Uniform.lift _).bind fun _ => (Uniform.lift _).bind fun _ => uniform_sendAll _

/-- A record is appended whatever is on the wire. -/
theorem uniform_appendRecordParts (kind : FrameKind) (first second : List UInt8) :
    Uniform (appendRecordParts kind first second) := by
  unfold appendRecordParts
  dsimp only
  split_ifs
  · exact uniform_flushRecordBatch.andThen (uniform_sendLargeRecord _ _ _ _ _)
  · refine Uniform.get_bind (fun _ _ => rfl) fun session => ?_
    split_ifs
    · exact uniform_flushRecordBatch.andThen (uniform_storeRecord _ _ _ _ _)
    · exact uniform_storeRecord _ _ _ _ _

/-- The addresses left are flushed whatever is on the wire. -/
theorem uniform_flushAddresses (stream : AddressStream) : Uniform (flushAddresses stream) := by
  unfold flushAddresses
  split_ifs
  · exact .pure _
  · exact (uniform_appendRecordParts _ _ _).bind fun _ => .pure _

/-- An address is streamed whatever is on the wire. -/
theorem uniform_streamAddress (stream : AddressStream) (object : ℕ) : Uniform (streamAddress stream object) := by
  unfold streamAddress
  dsimp only
  split_ifs
  · exact uniform_flushAddresses _
  · exact .pure _
  · exact fun _ _ => rfl

/-- Addresses are streamed whatever is on the wire. -/
theorem uniform_streamAddresses (addresses : List ℕ) (stream : AddressStream) :
    Uniform (streamAddresses addresses stream) := by
  induction addresses generalizing stream with
  | nil => exact .pure _
  | cons address addresses ih =>
    refine (uniform_streamAddress stream address).bind fun r => ?_
    cases hstatus : r.1 with
    | ok => simpa [hstatus] using ih r.2
    | failed => simpa [hstatus] using Uniform.pure (Status.failed, r.2)

/-- Addresses are sent whatever is on the wire. -/
theorem uniform_sendAddresses (addresses : List ℕ) (stream : AddressStream) :
    Uniform (sendAddresses addresses stream) := by
  refine (uniform_streamAddresses _ _).bind fun r => ?_
  cases hstatus : r.1 with
  | ok => simpa [hstatus] using (uniform_flushAddresses r.2).bind fun r => .pure r.1
  | failed => simpa [hstatus] using Uniform.pure Status.failed

/-- An object is sent whatever is on the wire. -/
theorem uniform_sendObject (object : PyObject) : Uniform (sendObject object) := by
  refine (uniform_appendRecordParts _ _ _).andThen (Uniform.andThen ?_
    ((uniform_sendAddresses _ _).andThen (uniform_appendRecordParts _ _ _)))
  unfold sendContent
  split
  · exact uniform_sendAddresses _ _
  · exact uniform_sendAddresses _ _
  · exact uniform_sendAddresses _ _
  · exact uniform_sendAddresses _ _
  · exact .pure _

/-! ### What comes in -/

/-- A header that fits is accepted. -/
theorem acceptHeader_packHeader (kind : FrameKind) {size : ℕ} (h : size ≤ MAX_PAYLOAD) :
    acceptHeader (packHeader kind size) = some (kind.code, size) := by
  have hlength : BigEndian.decode (((packHeader kind size).drop 8).take 4) = size :=
    BigEndian.decode_encode (w := 4) (v := size) (by simp only [MAX_PAYLOAD] at h; omega)
  unfold acceptHeader
  dsimp only
  rw [hlength, if_neg]
  · rfl
  · simp only [not_or, not_not, not_lt]
    exact ⟨rfl, rfl, rfl, h⟩

/-- **A frame that arrives is received**, where the array holds its payload. -/
theorem receiveFrame_frame {frame : Frame} (hfits : frame.payload.length ≤ MAX_PAYLOAD) {capacity : ℕ}
    (hcapacity : frame.payload.length ≤ capacity) {connection : Connection} {more : List UInt8}
    (harrives : arrivingBytes connection.receives = frame.bytes ++ more) : ∃ rest,
      receiveFrame capacity connection = .ok (some ⟨frame.kind.code, frame.payload.length, frame.payload⟩,
        { connection with receives := rest }) ∧ arrivingBytes rest = more := by
  have hsize : FRAME_HEADER_SIZE = (packHeader frame.kind frame.payload.length).length := rfl
  rw [Frame.bytes, List.append_assoc] at harrives
  obtain ⟨rest, hheader, hrest⟩ := @receiveAll_ok FRAME_HEADER_SIZE connection FRAME_HEADER_SIZE
    (by rw [harrives, hsize, List.length_append]; omega) le_rfl
  rw [harrives, hsize, List.take_left] at hheader
  rw [harrives, hsize, List.drop_left] at hrest
  rw [receiveFrame, hsize, run_bind_ok hheader]
  dsimp only
  rw [acceptHeader_packHeader frame.kind hfits]
  dsimp only
  split_ifs with hzero
  · obtain hnil := List.length_eq_zero_iff.1 hzero
    rw [hnil, List.nil_append] at hrest
    exact ⟨rest, by rw [hnil]; rfl, hrest⟩
  · obtain ⟨rest', hpayload, hrest'⟩ :=
      @receiveAll_ok capacity { connection with receives := rest } frame.payload.length
      (by rw [hrest, List.length_append]; omega) hcapacity
    have harrived : arrivingBytes rest = frame.payload ++ more := hrest
    rw [show arrivingBytes ({ connection with receives := rest } : Connection).receives = frame.payload ++ more from
      hrest, List.take_left] at hpayload
    refine ⟨rest', ?_, ?_⟩
    · rw [run_bind_ok hpayload]
      rfl
    · rw [hrest', harrived, List.drop_left]

/-! ### Idle sessions -/

/-- **Inversion of a sequence that returns 0.** -/
theorem andThen_eq_ok {first second : Routine Status} {session session' : Session}
    (h : andThen first second session = .ok (.ok, session')) :
    ∃ session₁, first session = .ok (.ok, session₁) ∧ second session₁ = .ok (.ok, session') := by
  cases hrun : first session with
  | error fault =>
    rw [andThen, run_bind_error hrun] at h
    cases h
  | ok r =>
    obtain ⟨status, session₁⟩ := r
    rw [run_andThen hrun] at h
    cases status with
    | failed => cases h
    | ok => exact ⟨session₁, rfl, h⟩

/-- Between two turns no record waits.  No call fails from here on. -/
structure Idle (session : Session) : Prop where
  holds : session.batch.Holds []
  reliable : Reliable session.sends
  granted : Granted session.mallocs

/-- The routine sends the frames, on its own or in batches, and nothing waits then. -/
def Sends (routine : Routine Status) (frames : List Frame) : Prop :=
  ∀ session, Idle session → ∃ session' packets, routine session = .ok (.ok, session') ∧ Idle session' ∧
    session'.wire = session.wire ++ wireBytes packets ∧ packets.flatMap Packet.frames = frames

/-- One routine after another sends both lists of frames. -/
theorem Sends.andThen {first second : Routine Status} {xs ys : List Frame} (h : Sends first xs) (h' : Sends second ys) :
    Sends (andThen first second) (xs ++ ys) := by
  intro session hidle
  obtain ⟨session₁, packets, hrun, hidle₁, hwire, hframes⟩ := h session hidle
  obtain ⟨session₂, packets', hrun', hidle₂, hwire', hframes'⟩ := h' session₁ hidle₁
  refine ⟨session₂, packets ++ packets', ?_, hidle₂, ?_, ?_⟩
  · rw [run_andThen hrun, if_pos rfl, hrun']
  · rw [hwire', hwire, Protocol.wireBytes_append, List.append_assoc]
  · rw [List.flatMap_append, hframes, hframes']

/-- A frame of its own is sent as it is. -/
theorem sends_frame {frame : Frame} (other : frame.kind ≠ .bulkBatch) (fits : frame.payload.length ≤ MAX_PAYLOAD) :
    Sends (sendFrame frame.kind frame.payload) [frame] := by
  intro session hidle
  obtain ⟨status, session', hrun, hwire, hreliable, hbatch, hmallocs⟩ := sendFrame_spec session frame
  obtain ⟨rfl, hreliable'⟩ := hreliable hidle.reliable
  refine ⟨session', [.single frame other fits], hrun, ⟨hbatch ▸ hidle.holds, hreliable', hmallocs ▸ hidle.granted⟩, ?_,
    rfl⟩
  rw [hwire rfl, Protocol.wireBytes_singleton]
  rfl

/-- **Records and the control frame behind them.** -/
theorem Hands.sends {routine : Routine Status} {frames : List Frame} (h : Hands routine frames)
    (huniform : Uniform routine) {frame : Frame} (other : frame.kind ≠ .bulkBatch)
    (fits : frame.payload.length ≤ MAX_PAYLOAD) :
    Sends (Agent.andThen routine (sendControl frame.kind frame.payload)) (frames ++ [frame]) := by
  intro session hidle
  have hbehind : ({ session with wire := [] } : Session).behind session.wire = session := by
    simp [Session.behind]
  -- on its own, in front of an empty wire
  have hempty : Handed { session with wire := [] } [] := ⟨[], [], ⟨rfl, hidle.holds, by simp⟩, rfl⟩
  obtain ⟨status, session₁, hrun, hout⟩ := h _ _ hempty
  obtain ⟨rfl, hgranted⟩ := hout.granted hidle.reliable hidle.granted
  have hreliable := hout.reliable hidle.reliable
  obtain ⟨packets, records, hsent, hframes⟩ := hout.handed rfl
  obtain ⟨session₂, hflush, hok, hsends, hmallocs⟩ := hsent.flush
  rw [status_reliable hreliable] at hflush hok
  obtain ⟨packets', hsent', hall⟩ := hok rfl
  have hreliable₂ : Reliable session₂.sends := hsends ▸ reliable_after hreliable _
  obtain ⟨status, session₃, hsend, hwire, hsucceeds, hbatch, hmallocs'⟩ := sendFrame_spec session₂ frame
  obtain ⟨rfl, hreliable₃⟩ := hsucceeds hreliable₂
  have hcontrol : sendControl frame.kind frame.payload session₁ = .ok (.ok, session₃) := by
    rw [sendControl, run_bind_ok hflush]
    exact hsend
  have halone : Agent.andThen routine (sendControl frame.kind frame.payload) { session with wire := [] } =
      .ok (.ok, session₃) := by
    rw [run_andThen hrun, if_pos rfl, hcontrol]
  have hcontrolUniform : Uniform (sendControl frame.kind frame.payload) := by
    refine uniform_flushRecordBatch.bind fun status => ?_
    cases status with
    | failed => exact .pure _
    | ok => exact uniform_sendFrame _ _
  have hall' := huniform.andThen hcontrolUniform session.wire { session with wire := [] }
  rw [hbehind, halone] at hall'
  refine ⟨session₃.behind session.wire, packets' ++ [.single frame other fits], hall',
    ⟨hbatch ▸ hsent'.holds, hreliable₃, ?_⟩, ?_, ?_⟩
  · rw [Session.mallocs_behind, hmallocs', hmallocs]
    exact hgranted
  · rw [Session.wire_behind, hwire rfl, hsent'.wire, Protocol.wireBytes_append, Protocol.wireBytes_singleton]
    rfl
  · rw [List.flatMap_append, hall, hframes, List.nil_append]
    rfl

end Agent
end Pydump
