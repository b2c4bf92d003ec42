/-
# Record batching is transparent

The Agent appends records, flushes and sends control frames; the Collector calls
`receive`.  `Handed session frames` is the invariant in between: the packets on
the wire and the records that wait in the batch are `frames`.  `Hands` says what a
routine adds to them when it returns 0, and composes along the routines of a
session.  Every call keeps the invariant (`Call.hands`), so a run of calls does
(`runCalls_handed`), and what the packets carry is what `receive` returns
(`consumes_receiveMany`).
-/

import Pydump.Agent.SendSpec

namespace Pydump
namespace Agent

open Protocol (Frame FrameKind Packet BULK_RECORD_KINDS FramedSocket Cut Ready receive receiveMany
  consumes_receiveMany receive_exhausted wireBytes)
open ExceptLoop (run_bind_ok)

/-! ### Calls -/

/-- What a session calls: one of the two functions that append a record, a
flush, or a flush and a frame of its own. -/
inductive Call
  | appendRecord (kind : FrameKind) (payload : List UInt8) (bulk : kind ∈ BULK_RECORD_KINDS)
      (fits : payload.length + RECORD_HEADER_SIZE ≤ MAX_PAYLOAD)
  | appendRecordParts (kind : FrameKind) (first second : List UInt8) (bulk : kind ∈ BULK_RECORD_KINDS)
      (fits : (first ++ second).length + RECORD_HEADER_SIZE ≤ MAX_PAYLOAD)
  | flush
  | control (kind : FrameKind) (payload : List UInt8) (other : kind ≠ .bulkBatch)
      (fits : payload.length ≤ MAX_PAYLOAD)

/-- A control frame, sent directly after a flush. -/
def sendControl (kind : FrameKind) (payload : List UInt8) : Routine Status := do
  match ← flushRecordBatch with
  | .failed => pure .failed
  | .ok => sendFrame kind payload

/-- What the call runs. -/
def Call.run : Call → Routine Status
  | .appendRecord kind payload _ _ => Agent.appendRecord kind payload
  | .appendRecordParts kind first second _ _ => Agent.appendRecordParts kind first second
  | .flush => flushRecordBatch
  | .control kind payload _ _ => sendControl kind payload

/-- The frame that a call hands over, where it hands one over. -/
def Call.frames : Call → List Frame
  | .appendRecord kind payload _ _ => [⟨kind, payload⟩]
  | .appendRecordParts kind first second _ _ => [⟨kind, first ++ second⟩]
  | .flush => []
  | .control kind payload _ _ => [⟨kind, payload⟩]

/-- The calls one after another; the result are the frames of those that
returned 0. -/
def runCalls : List Call → Routine (List Frame)
  | [] => pure []
  | call :: calls => do
    let status ← call.run
    let frames ← runCalls calls
    pure ((if status = .ok then call.frames else []) ++ frames)

/-- The calls, and a flush at the end. -/
def runFlushed (calls : List Call) : Routine (List Frame) := do
  let frames ← runCalls calls
  let _ ← flushRecordBatch
  pure frames

/-- A session before its first call. -/
def Session.start (sends : List SendOutcome) (mallocs : List Bool) : Session := ⟨[], sends, mallocs, .new⟩

/-- Every `malloc` finds memory. -/
def Granted (mallocs : List Bool) : Prop := ∀ given ∈ mallocs, given = true

/-! ### One call -/

/-- The wire carries `packets`, and `records` wait in the batch. -/
structure Sent (session : Session) (packets : List Packet) (records : List Frame) : Prop where
  wire : session.wire = wireBytes packets
  holds : session.batch.Holds records
  kinds : ∀ r ∈ records, r.kind ∈ BULK_RECORD_KINDS

/-- The session has handed over `frames`, on the wire or in the batch. -/
def Handed (session : Session) (frames : List Frame) : Prop :=
  ∃ packets records, Sent session packets records ∧ packets.flatMap Packet.frames ++ records = frames

/-- A routine that started in `session`, where `before` had been handed over,
returned `status` in `session'`; where that is 0 it has handed over `frames`. -/
structure Outcome (session : Session) (before frames : List Frame) (status : Status) (session' : Session) :
    Prop where
  handed : status = .ok → Handed session' (before ++ frames)
  reliable : Reliable session.sends → Reliable session'.sends
  granted : Reliable session.sends → Granted session.mallocs → status = .ok ∧ Granted session'.mallocs

/-- The routine never leaves a buffer and hands over `frames` when it returns 0. -/
def Hands (routine : Routine Status) (frames : List Frame) : Prop :=
  ∀ session before, Handed session before →
    ∃ status session', routine session = .ok (status, session') ∧ Outcome session before frames status session'

/-- Moreover, where all calls of `send` succeed, a routine that does not return 0
has handed over nothing new and lost nothing. -/
def HandsOrKeeps (routine : Routine Status) (frames : List Frame) : Prop :=
  ∀ session before, Handed session before →
    ∃ status session', routine session = .ok (status, session') ∧ Outcome session before frames status session' ∧
      (Reliable session.sends → status = .failed → Handed session' before)

/-- What keeps the records on a failure hands them over. -/
theorem HandsOrKeeps.hands {routine : Routine Status} {frames : List Frame} (h : HandsOrKeeps routine frames) :
    Hands routine frames := by
  intro session before hbefore
  obtain ⟨status, session', hrun, hout, -⟩ := h session before hbefore
  exact ⟨status, session', hrun, hout⟩

/-- Records whose bytes fit a payload are a packet, if there are any. -/
theorem exists_batchPackets {records : List Frame} (kinds : ∀ r ∈ records, r.kind ∈ BULK_RECORD_KINDS)
    (fits : (records.flatMap Frame.recordBytes).length ≤ MAX_PAYLOAD) :
    ∃ packets, wireBytes packets = batchBytes records ∧ packets.flatMap Packet.frames = records := by
  by_cases hnil : records = []
  · subst hnil
    exact ⟨[], rfl, rfl⟩
  · refine ⟨[.bulk records hnil kinds fits], ?_, ?_⟩
    · rw [Protocol.wireBytes_singleton, batchBytes, if_neg hnil]
      rfl
    · rw [List.flatMap_singleton]
      rfl

/-- Where every send succeeds, so does `send_all`. -/
theorem status_reliable {session : Session} (h : Reliable session.sends) (data : List UInt8) :
    session.status data = .ok := (sendLoop_reliable h data session.wire).1

/-- Where every send succeeds, so do those behind it. -/
theorem reliable_after {session : Session} (h : Reliable session.sends) (data : List UInt8) :
    Reliable (session.after data).sends := (sendLoop_reliable h data session.wire).2

/-- The waiting records once they are sent. -/
theorem Sent.flushed {session : Session} {packets : List Packet} {records : List Frame}
    (h : Sent session packets records) (hstatus : session.status (batchBytes records) = .ok) :
    ∃ more, more.flatMap Packet.frames = records ∧
      (session.after (batchBytes records)).wire = wireBytes (packets ++ more) := by
  have hroom := h.holds.room
  simp only [BULK_PAYLOAD_SIZE] at hroom
  obtain ⟨more, hbytes, hframes⟩ := exists_batchPackets h.kinds (by
    simp only [MAX_PAYLOAD]
    omega)
  refine ⟨more, hframes, ?_⟩
  rw [wire_after hstatus, h.wire, Protocol.wireBytes_append, hbytes]

/-- **A flush** puts the waiting records on the wire. -/
theorem Sent.flush {session : Session} {packets : List Packet} {records : List Frame}
    (h : Sent session packets records) :
    ∃ session', flushRecordBatch session = .ok (session.status (batchBytes records), session') ∧
      (session.status (batchBytes records) = .ok → ∃ packets', Sent session' packets' [] ∧
        packets'.flatMap Packet.frames = packets.flatMap Packet.frames ++ records) ∧
      session'.sends = (session.after (batchBytes records)).sends ∧ session'.mallocs = session.mallocs := by
  obtain ⟨batch, hbatch, hflush⟩ := flushRecordBatch_spec h.holds
  refine ⟨_, hflush, fun hstatus => ?_, rfl, rfl⟩
  obtain ⟨more, hframes, hwire⟩ := h.flushed hstatus
  refine ⟨packets ++ more, ⟨hwire, hbatch, by simp⟩, ?_⟩
  rw [List.flatMap_append, hframes]

/-- A flush hands over nothing of its own. -/
theorem flush_hands : HandsOrKeeps flushRecordBatch [] := by
  rintro session _ ⟨packets, records, hsent, rfl⟩
  obtain ⟨session', hflush, hok, hsends, hmallocs⟩ := hsent.flush
  refine ⟨_, session', hflush, ⟨fun hstatus => ?_, fun hr => hsends ▸ reliable_after hr _, fun hr hg =>
    ⟨status_reliable hr _, hmallocs ▸ hg⟩⟩, fun hr hstatus => ?_⟩
  · obtain ⟨packets', hsent', hframes⟩ := hok hstatus
    exact ⟨packets', [], hsent', by rw [hframes, List.append_nil]⟩
  · rw [status_reliable hr] at hstatus
    cases hstatus

/-- **A frame of its own**, where no records wait. -/
theorem sendFrame_spec (session : Session) (frame : Frame) :
    ∃ status session', sendFrame frame.kind frame.payload session = .ok (status, session') ∧
      (status = .ok → session'.wire = session.wire ++ frame.bytes) ∧
      (Reliable session.sends → status = .ok ∧ Reliable session'.sends) ∧
      session'.batch = session.batch ∧ session'.mallocs = session.mallocs := by
  let header := writeFrameHeader frame.kind frame.payload.length
  have hrun : sendFrame frame.kind frame.payload session = if session.status header = .ok then
      (if frame.payload.length = 0 then pure .ok else sendAll frame.payload) (session.after header)
      else .ok (.failed, session.after header) := run_andThen (sendAll_eq session header)
  by_cases hheader : session.status header = .ok
  · rw [if_pos hheader] at hrun
    by_cases hnil : frame.payload.length = 0
    · rw [if_pos hnil] at hrun
      refine ⟨.ok, _, hrun, fun _ => ?_, fun hr => ⟨rfl, reliable_after hr _⟩, rfl, rfl⟩
      have hbytes : frame.bytes = header := by
        rw [Frame.bytes, List.length_eq_zero_iff.1 hnil, List.append_nil]
        simp only [header, List.length_eq_zero_iff.1 hnil]
        rfl
      rw [wire_after hheader, hbytes]
    · rw [if_neg hnil, sendAll_eq] at hrun
      refine ⟨_, _, hrun, fun hstatus => ?_, fun hr => ?_, rfl, rfl⟩
      · rw [wire_after hstatus, wire_after hheader, List.append_assoc]
        rfl
      · exact ⟨status_reliable (reliable_after hr _) _, reliable_after (reliable_after hr _) _⟩
  · rw [if_neg hheader] at hrun
    exact ⟨.failed, _, hrun, fun h => (by cases h), fun hr => absurd (status_reliable hr _) hheader, rfl, rfl⟩

/-- **A control frame** goes behind the waiting records. -/
theorem control_hands {kind : FrameKind} {payload : List UInt8} (other : kind ≠ .bulkBatch)
    (fits : payload.length ≤ MAX_PAYLOAD) : HandsOrKeeps (sendControl kind payload) [⟨kind, payload⟩] := by
  rintro session _ ⟨packets, records, hsent, rfl⟩
  obtain ⟨flushed, hflush, hok, hsends, hmallocs⟩ := hsent.flush
  have hrun : sendControl kind payload session = if session.status (batchBytes records) = .ok then
      sendFrame kind payload flushed else .ok (.failed, flushed) := run_andThen hflush
  by_cases hstatus : session.status (batchBytes records) = .ok
  · rw [if_pos hstatus] at hrun
    obtain ⟨packets', hsent', hframes⟩ := hok hstatus
    obtain ⟨status, session', hsend, hwire, hreliable, hbatch, hmallocs'⟩ := sendFrame_spec flushed ⟨kind, payload⟩
    refine ⟨status, session', hrun.trans hsend, ⟨fun hst => ?_, fun hr => ?_, fun hr hg => ?_⟩, fun hr hst => ?_⟩
    · refine ⟨packets' ++ [.single ⟨kind, payload⟩ other fits], [], ⟨?_, hbatch ▸ hsent'.holds, by simp⟩, ?_⟩
      · rw [hwire hst, hsent'.wire, Protocol.wireBytes_append, Protocol.wireBytes_singleton]
        rfl
      · rw [List.append_nil, List.flatMap_append, hframes, List.flatMap_singleton]
        rfl
    · exact (hreliable (hsends ▸ reliable_after hr _)).2
    · exact ⟨(hreliable (hsends ▸ reliable_after hr _)).1, by rw [hmallocs', hmallocs]; exact hg⟩
    · rw [(hreliable (hsends ▸ reliable_after hr _)).1] at hst
      cases hst
  · rw [if_neg hstatus] at hrun
    exact ⟨.failed, flushed, hrun, ⟨fun h => (by cases h), fun hr => hsends ▸ reliable_after hr _,
      fun hr _ => absurd (status_reliable hr _) hstatus⟩, fun hr _ => absurd (status_reliable hr _) hstatus⟩

/-- **A record** waits, or goes behind those that waited.  Where all calls of
`send` succeed it is lost only for want of memory, and nothing else with it. -/
theorem append_hands {frame : Frame} {first second : List UInt8} (hparts : first ++ second = frame.payload)
    (bulk : frame.kind ∈ BULK_RECORD_KINDS) (fits : frame.payload.length + RECORD_HEADER_SIZE ≤ MAX_PAYLOAD) :
    HandsOrKeeps (appendRecordParts frame.kind first second) [frame] := by
  rintro session _ ⟨packets, records, hsent, rfl⟩
  have hlen := Protocol.length_recordBytes frame
  have hframe : ∀ r ∈ [frame], r.kind ∈ BULK_RECORD_KINDS := by simpa using bulk
  by_cases hlarge : BULK_PAYLOAD_SIZE < frame.recordBytes.length
  · have hsize : frame.payload.length < 2 ^ 32 := by
      simp only [MAX_PAYLOAD] at fits
      omega
    obtain ⟨batch, hbatch, happend⟩ := appendRecordParts_large hsent.holds hparts hlarge hsize
    by_cases hflushed : session.status (batchBytes records) = .ok
    · rw [if_neg (not_not.2 hflushed)] at happend
      obtain ⟨more, hframes, hwire⟩ := hsent.flushed hflushed
      have hempty : Sent (session.emptied records batch) (packets ++ more) [] := ⟨hwire, hbatch, by simp⟩
      have htail : Granted session.mallocs → Granted session.mallocs.tail := fun hg given hgiven =>
        hg given (List.mem_of_mem_tail hgiven)
      cases hgiven : session.mallocs.headD true with
      | false =>
        rw [hgiven] at happend
        refine ⟨.failed, _, happend, ⟨fun h => (by cases h), fun hr => reliable_after hr _, fun _ hg => ?_⟩,
          fun _ _ => ⟨_, _, hempty, by rw [List.flatMap_append, hframes, List.append_nil]⟩⟩
        cases hm : session.mallocs with
        | nil =>
          rw [hm] at hgiven
          cases hgiven
        | cons given mallocs =>
          rw [hm] at hgiven hg
          exact absurd (hg given List.mem_cons_self) (by rw [show given = false from hgiven]; decide)
      | true =>
        rw [hgiven, if_pos rfl] at happend
        obtain ⟨last, hlast, hlastFrames⟩ := exists_batchPackets hframe (by
          rw [List.flatMap_singleton, hlen, Protocol.RECORD_HEADER_SIZE]
          simp only [RECORD_HEADER_SIZE] at fits
          omega)
        have hreliable : Reliable session.sends → Reliable (session.emptied records batch).sends :=
          fun hr => reliable_after hr _
        refine ⟨_, _, happend, ⟨fun hstatus => ⟨(packets ++ more) ++ last, [], ⟨?_, hbatch, by simp⟩, ?_⟩,
          fun hr => reliable_after (hreliable hr) _, fun hr hg => ⟨status_reliable (hreliable hr) _, htail hg⟩⟩,
          fun hr hstatus => ?_⟩
        · rw [wire_after hstatus, Protocol.wireBytes_append, hlast, ← hempty.wire]
        · rw [List.append_nil, List.flatMap_append, hlastFrames, List.flatMap_append, hframes]
        · rw [status_reliable (hreliable hr)] at hstatus
          cases hstatus
    · rw [if_pos hflushed] at happend
      exact ⟨.failed, _, happend, ⟨fun h => (by cases h), fun hr => reliable_after hr _,
        fun hr _ => absurd (status_reliable hr _) hflushed⟩, fun hr _ => absurd (status_reliable hr _) hflushed⟩
  · by_cases hfull : BULK_PAYLOAD_SIZE < (records.flatMap Frame.recordBytes).length + frame.recordBytes.length
    · obtain ⟨batch, hbatch, happend⟩ := appendRecordParts_flushed hsent.holds hparts (by omega) hfull
      refine ⟨_, _, happend, ⟨fun hstatus => ?_, fun hr => reliable_after hr _, fun hr hg =>
        ⟨status_reliable hr _, hg⟩⟩, fun hr hstatus => ?_⟩
      · rw [if_pos hstatus] at hbatch
        obtain ⟨more, hframes, hwire⟩ := hsent.flushed hstatus
        exact ⟨packets ++ more, [frame], ⟨hwire, hbatch, hframe⟩, by rw [List.flatMap_append, hframes]⟩
      · rw [status_reliable hr] at hstatus
        cases hstatus
    · obtain ⟨batch, hbatch, happend⟩ := appendRecordParts_stored hsent.holds hparts (by omega)
      refine ⟨.ok, _, happend, ⟨fun _ => ⟨packets, records ++ [frame], ⟨hsent.wire, hbatch, fun r hr => ?_⟩, ?_⟩,
        fun hr => hr, fun _ hg => ⟨rfl, hg⟩⟩, fun _ h => (by cases h)⟩
      · rcases List.mem_append.1 hr with hr | hr
        · exact hsent.kinds r hr
        · exact hframe r hr
      · rw [List.append_assoc]

/-- **In sequence.** -/
theorem Hands.andThen {first second : Routine Status} {xs ys : List Frame} (hfirst : Hands first xs)
    (hsecond : Hands second ys) : Hands (andThen first second) (xs ++ ys) := by
  intro session before h
  obtain ⟨status, session₁, hrun, hout⟩ := hfirst session before h
  have hboth := @run_andThen first second _ _ _ hrun
  cases status with
  | failed =>
    exact ⟨.failed, session₁, hboth, fun h => (by cases h), hout.reliable, fun hr hg =>
      absurd (hout.granted hr hg).1 (by decide)⟩
  | ok =>
    obtain ⟨status₂, session₂, hrun₂, hout₂⟩ := hsecond session₁ _ (hout.handed rfl)
    refine ⟨status₂, session₂, hboth.trans hrun₂, fun hst => ?_, fun hr => hout₂.reliable (hout.reliable hr),
      fun hr hg => hout₂.granted (hout.reliable hr) (hout.granted hr hg).2⟩
    rw [← List.append_assoc]
    exact hout₂.handed hst

/-- A routine that does nothing hands over nothing. -/
theorem hands_pure : Hands (pure .ok) [] :=
  fun session _ h => ⟨.ok, session, rfl, fun _ => by rw [List.append_nil]; exact h, id, fun _ hg => ⟨rfl, hg⟩⟩

/-- **One call.** -/
theorem Call.hands (call : Call) : HandsOrKeeps call.run call.frames := by
  cases call with
  | appendRecord kind payload bulk fits => exact @append_hands ⟨kind, payload⟩ _ _ (List.append_nil payload) bulk fits
  | appendRecordParts kind first second bulk fits => exact @append_hands ⟨kind, first ++ second⟩ _ _ rfl bulk fits
  | flush => exact flush_hands
  | control kind payload other fits => exact control_hands other fits

/-! ### Runs of calls -/

/-- **A run of calls.** -/
theorem runCalls_handed (calls : List Call) {session : Session} {before : List Frame} (h : Handed session before)
    (reliable : Reliable session.sends) :
    ∃ frames session', runCalls calls session = .ok (frames, session') ∧ Handed session' (before ++ frames) ∧
      Reliable session'.sends ∧
      (Granted session.mallocs → frames = calls.flatMap Call.frames ∧ Granted session'.mallocs) := by
  induction calls generalizing session before with
  | nil => exact ⟨[], session, rfl, by rwa [List.append_nil], reliable, fun hg => ⟨rfl, hg⟩⟩
  | cons call calls ih =>
    obtain ⟨status, session₁, hcall, hout, hkept⟩ := call.hands session before h
    have hhanded : Handed session₁ (before ++ if status = .ok then call.frames else []) := by
      cases status with
      | ok => exact hout.handed rfl
      | failed =>
        rw [if_neg (by decide), List.append_nil]
        exact hkept reliable rfl
    obtain ⟨rest, session₂, hrest, hhanded₂, hreliable, hgranted⟩ := ih hhanded (hout.reliable reliable)
    refine ⟨(if status = .ok then call.frames else []) ++ rest, session₂, ?_, ?_, hreliable, fun hg => ?_⟩
    · rw [runCalls, run_bind_ok hcall, run_bind_ok hrest]
      rfl
    · rw [← List.append_assoc]
      exact hhanded₂
    · obtain ⟨rfl, hg'⟩ := hout.granted reliable hg
      obtain ⟨hall, hg''⟩ := hgranted hg'
      rw [if_pos rfl, hall, List.flatMap_cons]
      exact ⟨rfl, hg''⟩

/-- A session starts with nothing handed over. -/
theorem handed_start (sends : List SendOutcome) (mallocs : List Bool) : Handed (.start sends mallocs) [] :=
  ⟨[], [], ⟨rfl, RecordBatch.holds_new, by simp⟩, rfl⟩

/-- A framed socket on which `pieces` arrive before the other end closes it. -/
def arriving (pieces : List (List UInt8)) : FramedSocket Unit := ⟨pieces, false, (), []⟩

/-- The carrier of every batch on the wire. -/
theorem batch_bounds (packet : Packet) (h : packet.carrier.kind = .bulkBatch) :
    packet.carrier.payload ≠ [] ∧ packet.carrier.payload.length ≤ MAX_PAYLOAD := by
  refine ⟨fun hnil => ?_, packet.length_carrier_le⟩
  cases packet with
  | single frame other _ => exact other h
  | bulk records nonempty _ _ =>
    have hlen := Protocol.length_le_recordBytes records
    rw [show records.flatMap Frame.recordBytes = [] from hnil] at hlen
    exact nonempty (List.length_eq_zero_iff.1 (Nat.le_zero.1 hlen))

/-- **Record batching is transparent.**  Whatever a session calls, as long as no
`send` fails, no access leaves its buffer; the wire carries frames of which every
`BULK_BATCH` is non-empty and at most `MAX_PAYLOAD` long; and however the bytes
are cut into pieces, `receive` returns the frames of the calls that returned 0, in
order, and then reports the end of the stream.  Every call returns 0 as long as
`malloc` finds memory for the records that no batch can hold. -/
theorem batching_transparent (calls : List Call) (sends : List SendOutcome) (mallocs : List Bool)
    (reliable : Reliable sends) :
    ∃ frames session, runFlushed calls (.start sends mallocs) = .ok (frames, session) ∧
      (Granted mallocs → frames = calls.flatMap Call.frames) ∧
      (∃ packets, session.wire = wireBytes packets ∧ ∀ packet ∈ packets, packet.carrier.kind = .bulkBatch →
        packet.carrier.payload ≠ [] ∧ packet.carrier.payload.length ≤ MAX_PAYLOAD) ∧
      ∀ pieces, Cut pieces session.wire →
        ∃ channel, receiveMany frames.length (arriving pieces) = .ok (frames, channel) ∧
          receive channel = .error (.protocolError "agent disconnected with 12 bytes pending") := by
  obtain ⟨frames, session, hrun, ⟨packets, records, hsent, hframes⟩, hreliable, hgranted⟩ :=
    runCalls_handed calls (handed_start sends mallocs) reliable
  obtain ⟨session', hflush, hok, -⟩ := hsent.flush
  obtain ⟨packets', hsent', hall⟩ := hok (status_reliable hreliable _)
  rw [hframes, List.nil_append] at hall
  refine ⟨frames, session', ?_, fun hg => (hgranted hg).1,
    ⟨packets', hsent'.wire, fun packet _ => batch_bounds packet⟩, fun pieces hcut => ?_⟩
  · rw [runFlushed, run_bind_ok hrun, run_bind_ok hflush]
    rfl
  · rw [hsent'.wire] at hcut
    have hready : Ready (arriving pieces) (frames ++ []) := ⟨packets', hcut, by rw [List.append_nil, hall]; rfl⟩
    obtain ⟨channel, hmany, hdone, -, hreset⟩ := consumes_receiveMany frames _ _ hready
    exact ⟨channel, hmany, receive_exhausted hdone hreset⟩

/-- A root batch, a record in two parts and the end of the roots. -/
def sampleCalls : List Call :=
  [.appendRecord .rootBatch [0, 0, 0, 0, 0, 0, 16, 0] (by decide) (by decide),
    .appendRecordParts .warning [104] [105] (by decide) (by decide),
    .control .rootsDone [] (by decide) (by decide)]

/-- A record, a warning and a fence over a socket that takes three bytes at first. -/
theorem batching_transparent_sample :
    ∃ frames session, runFlushed sampleCalls (.start [.sent 3, .interrupted] []) = .ok (frames, session) ∧
      frames = [⟨.rootBatch, [0, 0, 0, 0, 0, 0, 16, 0]⟩, ⟨.warning, [104, 105]⟩, ⟨.rootsDone, []⟩] ∧
      ∀ pieces, Cut pieces session.wire → ∃ channel, receiveMany 3 (arriving pieces) = .ok (frames, channel) := by
  obtain ⟨frames, session, hrun, hall, -, hreceive⟩ :=
    batching_transparent sampleCalls [.sent 3, .interrupted] [] (by decide)
  obtain rfl : frames = _ := hall (by simp [Granted])
  refine ⟨_, session, hrun, rfl, fun pieces hcut => ?_⟩
  obtain ⟨channel, hmany, -⟩ := hreceive pieces hcut
  exact ⟨channel, hmany⟩

end Agent
end Pydump
