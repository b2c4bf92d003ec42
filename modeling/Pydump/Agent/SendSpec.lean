/-
# What the sending routines do

One specification for each routine of the record batch.  `RecordBatch.Holds`
says which records wait in the buffer, and a routine either leaves its session as
`sendLoop` on known bytes leaves it, or adds to the waiting records:
`flushRecordBatch_spec`, `appendRecordParts_stored`, `appendRecordParts_flushed`
and `appendRecordParts_large`.  None of them raises a `MemoryFault`, so the cursor
never leaves the buffer.
-/

import Pydump.Agent.Model
import Pydump.Protocol.SocketSpec

namespace Pydump
namespace Agent

open Protocol (Frame FrameKind Packet BULK_RECORD_KINDS)
open ExceptLoop (run_bind_ok run_get_bind run_lift_bind)

/-- The second routine runs if and only if the first succeeds. -/
theorem run_andThen {first second : Routine Status} {session session' : Session} {status : Status}
    (h : first session = .ok (status, session')) :
    andThen first second session = if status = .ok then second session' else .ok (.failed, session') := by
  rw [andThen, run_bind_ok h]
  cases status <;> rfl

/-! ### `send_all` -/

/-- No call of `send` fails. -/
def Reliable (sends : List SendOutcome) : Prop := ∀ outcome ∈ sends, outcome ≠ .failed ∧ outcome ≠ .sent 0

instance (sends : List SendOutcome) : Decidable (Reliable sends) :=
  inferInstanceAs (Decidable (∀ outcome ∈ sends, _))

/-- **A `send_all` that returns 0 has sent everything.** -/
theorem sendLoop_ok {sends : List SendOutcome} {data wire : List UInt8}
    (h : (sendLoop sends data wire).1 = .ok) : (sendLoop sends data wire).2.2 = wire ++ data := by
  fun_induction sendLoop sends data wire with
  | case1 sends wire => rw [List.append_nil]
  | case2 data wire _ => rfl
  | case3 sends data wire _ ih => exact ih h
  | case4 sends data wire _ => cases h
  | case5 sends data wire _ => cases h
  | case6 count sends data wire _ _ ih => rw [ih h, List.append_assoc, List.take_append_drop]

/-- **A `send_all` that returns -1 has sent a proper prefix.** -/
theorem sendLoop_failed {sends : List SendOutcome} {data wire : List UInt8}
    (h : (sendLoop sends data wire).1 = .failed) :
    ∃ n, n < data.length ∧ (sendLoop sends data wire).2.2 = wire ++ data.take n := by
  fun_induction sendLoop sends data wire with
  | case1 sends wire => cases h
  | case2 data wire _ => cases h
  | case3 sends data wire _ ih => exact ih h
  | case4 sends data wire hne => exact ⟨0, List.length_pos_iff.2 hne, by simp⟩
  | case5 sends data wire hne => exact ⟨0, List.length_pos_iff.2 hne, by simp⟩
  | case6 count sends data wire _ _ ih =>
    obtain ⟨n, hn, hwire⟩ := ih h
    rw [List.length_drop] at hn
    refine ⟨count + n, by omega, ?_⟩
    rw [hwire, List.append_assoc, List.take_add]

/-- Where every send succeeds the loop sends all. -/
theorem sendLoop_reliable {sends : List SendOutcome} (h : Reliable sends) (data wire : List UInt8) :
    (sendLoop sends data wire).1 = .ok ∧ Reliable (sendLoop sends data wire).2.1 := by
  fun_induction sendLoop sends data wire with
  | case1 sends wire => exact ⟨rfl, h⟩
  | case2 data wire _ => exact ⟨rfl, h⟩
  | case3 sends data wire _ ih => exact ih fun o ho => h o (List.mem_cons_of_mem _ ho)
  | case4 sends data wire _ => exact absurd rfl (h _ List.mem_cons_self).1
  | case5 sends data wire _ => exact absurd rfl (h _ List.mem_cons_self).2
  | case6 count sends data wire _ _ ih => exact ih fun o ho => h o (List.mem_cons_of_mem _ ho)

/-- A session after a `send_all` of `data`. -/
def Session.after (session : Session) (data : List UInt8) : Session :=
  { session with
    sends := (sendLoop session.sends data session.wire).2.1
    wire := (sendLoop session.sends data session.wire).2.2 }

/-- What that `send_all` returns. -/
def Session.status (session : Session) (data : List UInt8) : Status :=
  (sendLoop session.sends data session.wire).1

/-- `send_all` has a status and leaves a session. -/
theorem sendAll_eq (session : Session) (data : List UInt8) :
    sendAll data session = .ok (session.status data, session.after data) := rfl

/-- To send nothing succeeds. -/
theorem status_nil (session : Session) : session.status [] = .ok := by
  rw [Session.status, sendLoop]

/-- To send nothing changes nothing. -/
theorem after_nil (session : Session) : session.after [] = session := by
  rw [Session.after, sendLoop]

/-- What is sent stands behind what was on the wire. -/
theorem wire_after {session : Session} {data : List UInt8} (h : session.status data = .ok) :
    (session.after data).wire = session.wire ++ data := sendLoop_ok h

/-- `send_all` leaves the batch. -/
@[simp] theorem batch_after (session : Session) (data : List UInt8) : (session.after data).batch = session.batch := rfl

/-- `send_all` leaves the allocations. -/
@[simp] theorem mallocs_after (session : Session) (data : List UInt8) :
    (session.after data).mallocs = session.mallocs := rfl

/-! ### Copies -/

/-- A copy behind the front of a buffer. -/
theorem memcpy_append {front rest bytes : List UInt8} {offset : ℕ} (hoffset : front.length = offset)
    (h : bytes.length ≤ rest.length) :
    memcpy (front ++ rest) offset bytes = .ok ((front ++ bytes) ++ rest.drop bytes.length) := by
  subst hoffset
  have hdrop : (front ++ rest).drop (front.length + bytes.length) = rest.drop bytes.length := by
    rw [← List.drop_drop, List.drop_left]
  rw [memcpy, if_pos (by rw [List.length_append]; omega), List.take_left, hdrop, List.append_assoc]

/-- A copy to the beginning of a buffer. -/
theorem memcpy_zero {buffer bytes : List UInt8} (h : bytes.length ≤ buffer.length) :
    memcpy buffer 0 bytes = .ok (bytes ++ buffer.drop bytes.length) :=
  memcpy_append (show ([] : List UInt8).length = 0 from rfl) h

/-- A store that fits changes the buffer alone. -/
theorem store_eq {session : Session} {offset : ℕ} {bytes wire : List UInt8}
    (h : memcpy session.batch.wire offset bytes = .ok wire) :
    store offset bytes session =
      .ok ((), { session with batch := { session.batch with wire := wire } }) := by
  rw [store, run_get_bind, h]
  rfl

/-- A load within the buffer. -/
theorem load_eq {session : Session} {length : ℕ} (h : length ≤ session.batch.wire.length) :
    load length session = .ok (session.batch.wire.take length, session) := by
  rw [load, run_get_bind, if_pos h]
  rfl

/-- **A record is copied behind what is there.** -/
theorem copyRecord_append {front rest : List UInt8} (frame : Frame) {first second : List UInt8} {offset : ℕ}
    (hoffset : front.length = offset) (hparts : first ++ second = frame.payload)
    (h : frame.recordBytes.length ≤ rest.length) :
    copyRecord (front ++ rest) offset frame.kind frame.payload.length first second =
      .ok ((front ++ frame.recordBytes) ++ rest.drop frame.recordBytes.length) := by
  have hlen : frame.recordBytes.length = 5 + (first.length + second.length) := by
    rw [Protocol.length_recordBytes, ← hparts, List.length_append, Protocol.RECORD_HEADER_SIZE]
  have hbytes : front ++ frame.recordBytes =
      (((front ++ [frame.kind.code]) ++ BigEndian.encode 4 frame.payload.length) ++ first) ++ second := by
    rw [Frame.recordBytes, Protocol.packRecordHeader, ← hparts]
    simp only [List.append_assoc, List.cons_append, List.nil_append]
  have henc : (BigEndian.encode 4 frame.payload.length).length = 4 := BigEndian.length_encode _ _
  rw [copyRecord, ExceptLoop.bind_ok (memcpy_append hoffset (by simp only [List.length_singleton]; omega)),
    ExceptLoop.bind_ok (memcpy_append (by simp [hoffset])
      (by simp only [List.length_drop, henc, List.length_singleton]; omega)),
    ExceptLoop.bind_ok (memcpy_append (by simp [hoffset, RECORD_HEADER_SIZE])
      (by simp only [List.length_drop, henc, List.length_singleton]; omega)),
    memcpy_append (by simp [hoffset, RECORD_HEADER_SIZE]; omega)
      (by simp only [List.length_drop, henc, List.length_singleton]; omega), hbytes, hlen]
  simp only [List.drop_drop, henc, List.length_singleton]
  congr 3
  omega

/-! ### The record batch -/

/-- The batch holds `records`, which may stand in a `BULK_BATCH`. -/
structure RecordBatch.Holds (batch : RecordBatch) (records : List Frame) : Prop where
  length : batch.payloadLength = (records.flatMap Frame.recordBytes).length
  layout : ∃ header rest, header.length = 12 ∧ batch.wire = header ++ (records.flatMap Frame.recordBytes ++ rest) ∧
    batch.wire.length = 12 + BULK_PAYLOAD_SIZE

/-- The records of a batch fit its buffer. -/
theorem RecordBatch.Holds.room {batch : RecordBatch} {records : List Frame} (h : batch.Holds records) :
    (records.flatMap Frame.recordBytes).length ≤ BULK_PAYLOAD_SIZE := by
  obtain ⟨header, rest, hheader, hwire, hsize⟩ := h.layout
  rw [hwire, List.length_append, List.length_append] at hsize
  omega

/-- A new batch holds no record. -/
theorem RecordBatch.holds_new : RecordBatch.new.Holds [] := by
  refine ⟨rfl, List.replicate 12 0, List.replicate BULK_PAYLOAD_SIZE 0, List.length_replicate, ?_, ?_⟩
  · rw [RecordBatch.new, List.flatMap_nil, List.nil_append, List.replicate_append_replicate]
  · rw [RecordBatch.new, List.length_replicate]

/-- The bytes of the `BULK_BATCH` that `flush_record_batch` sends. -/
def batchBytes (records : List Frame) : List UInt8 :=
  if records = [] then [] else (Frame.mk .bulkBatch (records.flatMap Frame.recordBytes)).bytes

/-- A batch is empty if and only if its length is zero. -/
theorem payloadLength_eq_zero {batch : RecordBatch} {records : List Frame} (h : batch.Holds records) :
    batch.payloadLength = 0 ↔ records = [] := by
  rw [h.length]
  constructor
  · intro hzero
    have := Protocol.length_le_recordBytes records
    exact List.length_eq_zero_iff.1 (by omega)
  · rintro rfl
    rfl

/-- **A flush sends the waiting records as one batch**, and nothing waits
afterwards, whether that succeeded or not. -/
theorem flushRecordBatch_spec {session : Session} {records : List Frame} (h : session.batch.Holds records) :
    ∃ batch, batch.Holds [] ∧ flushRecordBatch session =
      .ok (session.status (batchBytes records), { session.after (batchBytes records) with batch := batch }) := by
  by_cases hnil : records = []
  · subst hnil
    refine ⟨session.batch, h, ?_⟩
    rw [flushRecordBatch, run_get_bind, if_pos ((payloadLength_eq_zero h).2 rfl), batchBytes, if_pos rfl,
      status_nil, after_nil]
    rfl
  · obtain ⟨header, rest, hheader, hwire, hsize⟩ := h.layout
    have hframe : (writeFrameHeader .bulkBatch session.batch.payloadLength).length = 12 := rfl
    have hrecords : (records.flatMap Frame.recordBytes).length = session.batch.payloadLength := h.length.symm
    -- the header goes into its place
    have hcopy : memcpy session.batch.wire 0 (writeFrameHeader .bulkBatch session.batch.payloadLength) =
        .ok (writeFrameHeader .bulkBatch session.batch.payloadLength ++
          (records.flatMap Frame.recordBytes ++ rest)) := by
      rw [memcpy_zero (by rw [hframe, hsize]; omega), hframe, hwire, List.drop_left' hheader]
    -- and header and records are what is sent
    have htake : (writeFrameHeader .bulkBatch session.batch.payloadLength ++
        (records.flatMap Frame.recordBytes ++ rest)).take (12 + session.batch.payloadLength) =
          batchBytes records := by
      rw [batchBytes, if_neg hnil, Frame.bytes, ← List.append_assoc, List.take_left' (by
        rw [List.length_append, hframe, hrecords]), hrecords]
      rfl
    have hlen : (writeFrameHeader .bulkBatch session.batch.payloadLength ++
        (records.flatMap Frame.recordBytes ++ rest)).length = 12 + BULK_PAYLOAD_SIZE := by
      rw [← hsize, hwire, List.length_append, @List.length_append _ header, hframe, hheader]
    have hroom := h.room
    rw [hrecords] at hroom
    refine ⟨⟨writeFrameHeader .bulkBatch session.batch.payloadLength ++
      (records.flatMap Frame.recordBytes ++ rest), 0⟩, ⟨rfl, _, _, hframe, rfl, hlen⟩, ?_⟩
    rw [flushRecordBatch, run_get_bind, if_neg fun hzero => hnil ((payloadLength_eq_zero h).1 hzero),
      run_bind_ok (store_eq hcopy), run_bind_ok (load_eq (by rw [hlen]; omega)), htake]
    rfl

/-! ### Appending a record -/

/-- The size of a record as `append_record_parts` computes it. -/
theorem payloadLength_parts {frame : Frame} {first second : List UInt8} (hparts : first ++ second = frame.payload)
    (hsize : frame.payload.length < 2 ^ 32) : (first.length + second.length) % 2 ^ 32 = frame.payload.length := by
  rw [← List.length_append, hparts, Nat.mod_eq_of_lt hsize]

/-- The length of a record is that of its header and its payload. -/
theorem recordLength_eq (frame : Frame) : RECORD_HEADER_SIZE + frame.payload.length = frame.recordBytes.length :=
  (Protocol.length_recordBytes frame).symm

/-- A record that fits goes behind those of the batch. -/
theorem storeRecord_spec {session : Session} {records : List Frame} (h : session.batch.Holds records) (frame : Frame)
    {first second : List UInt8} (hparts : first ++ second = frame.payload)
    (hroom : (records.flatMap Frame.recordBytes).length + frame.recordBytes.length ≤ BULK_PAYLOAD_SIZE) :
    ∃ batch, batch.Holds (records ++ [frame]) ∧
      storeRecord frame.kind frame.payload.length frame.recordBytes.length first second session =
        .ok (.ok, { session with batch := batch }) := by
  obtain ⟨header, rest, hheader, hwire, hsize⟩ := h.layout
  have htotal : header.length + ((records.flatMap Frame.recordBytes).length + rest.length) =
      12 + BULK_PAYLOAD_SIZE := by
    rw [← hsize, hwire, List.length_append, List.length_append]
  have hrest : frame.recordBytes.length ≤ rest.length := by omega
  have hcursor : (header ++ records.flatMap Frame.recordBytes).length = 12 + session.batch.payloadLength := by
    rw [List.length_append, hheader, h.length]
  have hcontent : (records ++ [frame]).flatMap Frame.recordBytes =
      records.flatMap Frame.recordBytes ++ frame.recordBytes := by
    rw [List.flatMap_append, List.flatMap_singleton]
  have hcopy : copyRecord session.batch.wire (12 + session.batch.payloadLength) frame.kind frame.payload.length
      first second = .ok (header ++ ((records ++ [frame]).flatMap Frame.recordBytes ++
        rest.drop frame.recordBytes.length)) := by
    rw [hwire, ← List.append_assoc, copyRecord_append frame hcursor hparts hrest, hcontent]
    simp only [List.append_assoc]
  refine ⟨⟨_, session.batch.payloadLength + frame.recordBytes.length⟩, ⟨?_, header,
    rest.drop frame.recordBytes.length, hheader, rfl, ?_⟩, ?_⟩
  · rw [hcontent, List.length_append, h.length]
  · simp only [hcontent, List.length_append, List.length_drop, hheader]
    omega
  · rw [storeRecord, run_get_bind, hcopy]
    rfl

variable {session : Session} {records : List Frame} {frame : Frame} {first second : List UInt8}

/-- **A record that fits goes behind the waiting ones**, and nothing is sent. -/
theorem appendRecordParts_stored (h : session.batch.Holds records) (hparts : first ++ second = frame.payload)
    (hroom : (records.flatMap Frame.recordBytes).length + frame.recordBytes.length ≤ BULK_PAYLOAD_SIZE) :
    ∃ batch, batch.Holds (records ++ [frame]) ∧
      appendRecordParts frame.kind first second session = .ok (.ok, { session with batch := batch }) := by
  have hlen := Protocol.length_recordBytes frame
  have hsize : frame.payload.length < 2 ^ 32 := by
    simp only [BULK_PAYLOAD_SIZE] at hroom
    omega
  obtain ⟨batch, hbatch, hstore⟩ := storeRecord_spec h frame hparts hroom
  refine ⟨batch, hbatch, ?_⟩
  rw [appendRecordParts]
  simp only [payloadLength_parts hparts hsize, recordLength_eq]
  rw [if_neg (by omega), run_get_bind, h.length, if_neg (by omega), hstore]

/-- **A record that does not fit behind the waiting ones** has them sent first;
where that fails, the record is lost with them. -/
theorem appendRecordParts_flushed (h : session.batch.Holds records) (hparts : first ++ second = frame.payload)
    (hsmall : frame.recordBytes.length ≤ BULK_PAYLOAD_SIZE)
    (hfull : BULK_PAYLOAD_SIZE < (records.flatMap Frame.recordBytes).length + frame.recordBytes.length) :
    ∃ batch, batch.Holds (if session.status (batchBytes records) = .ok then [frame] else []) ∧
      appendRecordParts frame.kind first second session =
        .ok (session.status (batchBytes records), { session.after (batchBytes records) with batch := batch }) := by
  have hlen := Protocol.length_recordBytes frame
  have hsize : frame.payload.length < 2 ^ 32 := by
    simp only [BULK_PAYLOAD_SIZE] at hsmall
    omega
  obtain ⟨batch, hbatch, hflush⟩ := flushRecordBatch_spec h
  have hstart : appendRecordParts frame.kind first second session =
      if session.status (batchBytes records) = .ok then
        storeRecord frame.kind frame.payload.length frame.recordBytes.length first second
          { session.after (batchBytes records) with batch := batch }
      else .ok (.failed, { session.after (batchBytes records) with batch := batch }) := by
    rw [appendRecordParts]
    simp only [payloadLength_parts hparts hsize, recordLength_eq]
    rw [if_neg (by omega), run_get_bind, h.length, if_pos (by omega), run_andThen hflush]
  rw [hstart]
  cases hstatus : session.status (batchBytes records) with
  | failed => exact ⟨batch, hbatch, rfl⟩
  | ok =>
    let flushed : Session := { session.after (batchBytes records) with batch := batch }
    have hholds : flushed.batch.Holds [] := hbatch
    obtain ⟨batch', hbatch', hstore⟩ := storeRecord_spec hholds frame hparts (by simpa using hsmall)
    exact ⟨batch', hbatch', hstore⟩

/-- The `BULK_BATCH` of one record. -/
theorem batchBytes_singleton (frame : Frame) :
    batchBytes [frame] = (Frame.mk .bulkBatch frame.recordBytes).bytes := by
  rw [batchBytes, if_neg (List.cons_ne_nil _ _), List.flatMap_singleton]

/-- An allocation finds memory or not, as the next outcome says. -/
theorem malloc_eq (length : ℕ) (session : Session) :
    malloc length session = .ok (if session.mallocs.headD true then some (List.replicate length 0) else none,
      { session with mallocs := session.mallocs.tail }) := by
  rw [malloc, run_get_bind]
  cases hmallocs : session.mallocs with
  | nil =>
    obtain ⟨wire, sends, mallocs, batch⟩ := session
    obtain rfl : mallocs = [] := hmallocs
    rfl
  | cons given mallocs => cases given <;> rfl

/-- The session in which a large record is built. -/
def Session.emptied (session : Session) (records : List Frame) (batch : RecordBatch) : Session :=
  { session.after (batchBytes records) with batch := batch, mallocs := session.mallocs.tail }

/-- A large record: its allocation, then its frame of a batch with one record. -/
theorem sendLargeRecord_eq (frame : Frame) (hparts : first ++ second = frame.payload) (session : Session) :
    let started : Session := { session with mallocs := session.mallocs.tail }
    sendLargeRecord frame.kind frame.payload.length frame.recordBytes.length first second session =
      .ok (if session.mallocs.headD true then (started.status (batchBytes [frame]), started.after (batchBytes [frame]))
        else (.failed, started)) := by
  rw [sendLargeRecord, run_bind_ok (malloc_eq _ _)]
  cases hgiven : session.mallocs.headD true with
  | false =>
    simp only [Bool.false_eq_true, if_false]
    rfl
  | true =>
    have hframe : (writeFrameHeader .bulkBatch frame.recordBytes.length).length = 12 := rfl
    have hheader : memcpy (List.replicate (12 + frame.recordBytes.length) 0) 0
        (writeFrameHeader .bulkBatch frame.recordBytes.length) =
          .ok (writeFrameHeader .bulkBatch frame.recordBytes.length ++ List.replicate frame.recordBytes.length 0) := by
      rw [memcpy_zero (by rw [List.length_replicate, hframe]; omega), hframe, List.drop_replicate,
        Nat.add_sub_cancel_left]
    have hrecord := copyRecord_append frame hframe hparts
      (show frame.recordBytes.length ≤ (List.replicate frame.recordBytes.length 0).length by
        rw [List.length_replicate])
    have hbytes : (writeFrameHeader .bulkBatch frame.recordBytes.length ++ frame.recordBytes) ++
        (List.replicate frame.recordBytes.length (0 : UInt8)).drop frame.recordBytes.length =
          batchBytes [frame] := by
      rw [batchBytes_singleton, List.drop_replicate, Nat.sub_self, List.replicate_zero, List.append_nil]
      rfl
    rw [hbytes] at hrecord
    simp only [if_true]
    rw [run_lift_bind hheader, run_lift_bind hrecord]
    rfl

/-- **A record that no batch can hold goes out alone**, behind the waiting ones,
as long as there is memory for it. -/
theorem appendRecordParts_large (h : session.batch.Holds records) (hparts : first ++ second = frame.payload)
    (hlarge : BULK_PAYLOAD_SIZE < frame.recordBytes.length) (hsize : frame.payload.length < 2 ^ 32) :
    ∃ batch, batch.Holds [] ∧ appendRecordParts frame.kind first second session =
      .ok (if session.status (batchBytes records) ≠ .ok then
          (.failed, { session.after (batchBytes records) with batch := batch })
        else if session.mallocs.headD true then
          ((session.emptied records batch).status (batchBytes [frame]),
            (session.emptied records batch).after (batchBytes [frame]))
        else (.failed, session.emptied records batch)) := by
  obtain ⟨batch, hbatch, hflush⟩ := flushRecordBatch_spec h
  refine ⟨batch, hbatch, ?_⟩
  rw [appendRecordParts]
  simp only [payloadLength_parts hparts hsize, recordLength_eq]
  rw [if_pos hlarge, run_andThen hflush]
  by_cases hflushed : session.status (batchBytes records) = .ok
  · rw [if_pos hflushed, if_neg (not_not.2 hflushed)]
    exact sendLargeRecord_eq frame hparts _
  · rw [if_neg hflushed, if_pos hflushed]

end Agent
end Pydump
