/-
# When `ROOTS_DONE` certifies the roots

`send_roots` streams the visited objects in chunks of 256; fifteen chunks fill a
record batch, and the sixteenth sends it from within the callback of
`PyUnstable_GC_VisitObjects`.  Where that send fails, the visit ends, both buffers
are left empty and nobody is told, so that `ROOTS_DONE` goes out all the same.

`lostAt sends flushes` finds that failure in the outcomes of `send`.  Where there is
none all chunks are handed over (`sendChunks_kept`); where there is one the rest of
them is lost (`sendChunks_lost`), and what is received before `ROOTS_DONE` is short of
roots (`sendRoots_of_lost`).
-/

import Pydump.Agent.ObjectFacts

namespace Pydump
namespace Agent

open Protocol (Frame FrameKind Packet BULK_RECORD_KINDS Cut ReadyBefore wireBytes receivedFrames receivedFrames_short
  decodeAddresses)
open Capture (packAddresses)
open ExceptLoop (run_bind_ok)

/-- The objects a garbage collector tracks: each of them once. -/
structure GcObjects where
  addresses : List ℕ
  nodup : addresses.Nodup
  addresses_lt : ∀ a ∈ addresses, a < 2 ^ 64

/-! ### What a `send_all` leaves of the outcomes -/

/-- How a `send_all` of `length` bytes ends, and the outcomes it leaves. -/
def drain (sends : List SendOutcome) (length : ℕ) : Status × List SendOutcome :=
  ((sendLoop sends (List.replicate length 0) []).1, (sendLoop sends (List.replicate length 0) []).2.1)

/-- Only the number of bytes matters. -/
theorem sendLoop_eq_of_length (sends : List SendOutcome) {data data' : List UInt8} (h : data.length = data'.length)
    (wire wire' : List UInt8) :
    (sendLoop sends data wire).1 = (sendLoop sends data' wire').1 ∧
      (sendLoop sends data wire).2.1 = (sendLoop sends data' wire').2.1 := by
  induction sends generalizing data data' wire wire' with
  | nil =>
    cases data with
    | nil =>
      obtain rfl : data' = [] := List.length_eq_zero_iff.1 h.symm
      exact ⟨rfl, rfl⟩
    | cons a data =>
      cases data' with
      | nil => cases h
      | cons b data' => exact ⟨rfl, rfl⟩
  | cons outcome sends ih =>
    cases data with
    | nil =>
      obtain rfl : data' = [] := List.length_eq_zero_iff.1 h.symm
      exact ⟨rfl, rfl⟩
    | cons a data =>
      cases data' with
      | nil => cases h
      | cons b data' =>
        cases outcome with
        | failed => exact ⟨rfl, rfl⟩
        | interrupted => exact ih h wire wire'
        | sent count =>
          rw [sendLoop, sendLoop]
          split_ifs
          · exact ⟨rfl, rfl⟩
          · exact ih (by rw [List.length_drop, List.length_drop, h]) _ _
          · simp
          · simp

/-- `send_all` ends as the drain does. -/
theorem status_eq_drain (session : Session) (data : List UInt8) :
    session.status data = (drain session.sends data.length).1 :=
  (sendLoop_eq_of_length session.sends (by rw [List.length_replicate]) _ _).1

/-- `send_all` leaves the outcomes that the drain leaves. -/
theorem sends_after_eq_drain (session : Session) (data : List UInt8) :
    (session.after data).sends = (drain session.sends data.length).2 :=
  (sendLoop_eq_of_length session.sends (by rw [List.length_replicate]) _ _).2

/-- The size of the `BULK_BATCH` of fifteen chunks of 256 addresses. -/
def FULL_BATCH_SIZE : ℕ := 12 + 15 * (5 + 8 * 256)

/-- What is left of the outcomes after the first of `flushes` full batches that
cannot be sent, if there is one. -/
def lostAt : List SendOutcome → ℕ → Option (List SendOutcome)
  | _, 0 => none
  | sends, flushes + 1 =>
    match drain sends FULL_BATCH_SIZE with
    | (.failed, sends) => some sends
    | (.ok, sends) => lostAt sends flushes

/-- How many full batches are sent from within the callback for `count` objects. -/
def callbackFlushes (count : ℕ) : ℕ := (count / 256 - 1) / 15

/-! ### The chunks of the visit -/

/-- The full chunks among `values` and the addresses behind them, and the rest. -/
def fullChunks (values : List ℕ) : List ℕ → List (List ℕ) × List ℕ
  | [] => ([], values)
  | a :: addresses =>
    if values.length + 1 = IO_BATCH then
      ((values ++ [a]) :: (fullChunks [] addresses).1, (fullChunks [] addresses).2)
    else fullChunks (values ++ [a]) addresses

/-- The full chunks and what is left, which is less than a chunk. -/
theorem fullChunks_spec {values : List ℕ} (h : values.length < IO_BATCH) (addresses : List ℕ) :
    (fullChunks values addresses).1.flatten ++ (fullChunks values addresses).2 = values ++ addresses ∧
      (∀ chunk ∈ (fullChunks values addresses).1, chunk.length = IO_BATCH) ∧
      (fullChunks values addresses).2.length < IO_BATCH ∧
      (fullChunks values addresses).1.length = (values.length + addresses.length) / IO_BATCH := by
  fun_induction fullChunks values addresses with
  | case1 values =>
    refine ⟨by rw [List.flatten_nil, List.nil_append, List.append_nil], by simp, h, ?_⟩
    rw [List.length_nil, List.length_nil, Nat.add_zero, Nat.div_eq_of_lt h]
  | case2 values a addresses hfull ih =>
    obtain ⟨hflat, hchunks, hrest, hcount⟩ := ih (by decide)
    refine ⟨?_, fun chunk hchunk => ?_, hrest, ?_⟩
    · rw [List.flatten_cons, List.append_assoc, hflat, List.nil_append, List.append_assoc]
      rfl
    · rcases List.mem_cons.1 hchunk with rfl | hchunk
      · rw [List.length_append, List.length_singleton, hfull]
      · exact hchunks chunk hchunk
    · rw [List.length_cons, hcount, List.length_nil, Nat.zero_add, List.length_cons]
      have : values.length + (addresses.length + 1) = addresses.length + IO_BATCH := by omega
      rw [this, Nat.add_div_right _ (by decide)]
  | case3 values a addresses hmore ih =>
    obtain ⟨hflat, hchunks, hrest, hcount⟩ := ih (by rw [List.length_append, List.length_singleton]; omega)
    refine ⟨?_, hchunks, hrest, ?_⟩
    · rw [hflat, List.append_assoc]
      rfl
    · rw [hcount, List.length_append, List.length_singleton, List.length_cons]
      congr 1
      omega

/-- The full chunks, one record after another. -/
def sendChunks : List (List ℕ) → Routine Status
  | [] => pure .ok
  | chunk :: chunks => andThen (appendRecord .rootBatch (packAddresses chunk)) (sendChunks chunks)

/-- **The visit sends the full chunks**, and where that fails the stream is left
empty. -/
theorem visitObjects_eq {values : List ℕ} (h : values.length < IO_BATCH) (addresses : List ℕ)
    {session session' : Session}
    {status : Status} (hrun : sendChunks (fullChunks values addresses).1 session = .ok (status, session')) :
    visitObjects addresses ⟨values, .rootBatch⟩ session =
      .ok (⟨if status = .ok then (fullChunks values addresses).2 else [], .rootBatch⟩, session') := by
  induction addresses generalizing values session with
  | nil =>
    cases hrun
    rfl
  | cons a addresses ih =>
    rw [fullChunks] at hrun ⊢
    by_cases hfull : values.length + 1 = IO_BATCH
    · rw [if_pos hfull] at hrun ⊢
      have hstream : streamAddress ⟨values, .rootBatch⟩ a = (do
          let result ← appendRecord .rootBatch (packAddresses (values ++ [a]))
          pure (result, ⟨[], .rootBatch⟩) : Routine (Status × AddressStream)) := by
        rw [streamAddress]
        simp only [h, if_true, List.length_append, List.length_singleton, hfull, flushAddresses]
        rw [if_neg (by decide)]
        rfl
      have hbind : ∀ (x : Except MemoryFault (Status × Session)),
          appendRecord .rootBatch (packAddresses (values ++ [a])) session = x → ∃ r, x = .ok r := by
        intro x hx
        cases x with
        | ok r => exact ⟨r, rfl⟩
        | error e =>
          rw [sendChunks, andThen, ExceptLoop.run_bind_error hx] at hrun
          cases hrun
      obtain ⟨⟨first, session₁⟩, happend⟩ := hbind _ rfl
      rw [sendChunks, run_andThen happend] at hrun
      rw [visitObjects, hstream, bind_assoc, run_bind_ok happend]
      simp only [pure_bind]
      cases first with
      | failed =>
        cases hrun
        rfl
      | ok => exact ih (by decide) hrun
    · rw [if_neg hfull] at hrun ⊢
      have hstream : streamAddress ⟨values, .rootBatch⟩ a = pure (.ok, ⟨values ++ [a], .rootBatch⟩) := by
        rw [streamAddress]
        simp only [h, if_true, List.length_append, List.length_singleton, hfull, if_false]
      rw [visitObjects, hstream]
      simp only [pure_bind]
      exact ih (by rw [List.length_append, List.length_singleton]; omega) hrun

/-! ### The chunks in the record batch -/

/-- The record of a full chunk. -/
theorem length_chunkRecord {chunk : List ℕ} (h : chunk.length = IO_BATCH) :
    (chunkFrame .rootBatch chunk).recordBytes.length = 2053 := by
  rw [Protocol.length_recordBytes, chunkFrame, Capture.length_packAddresses, h]
  rfl

/-- The length of records that are full chunks. -/
theorem length_chunkRecords {records : List Frame} (h : ∀ r ∈ records, r.recordBytes.length = 2053) :
    (records.flatMap Frame.recordBytes).length = 2053 * records.length := by
  induction records with
  | nil => rfl
  | cons r records ih =>
    rw [List.flatMap_cons, List.length_append, h r List.mem_cons_self,
      ih fun r hr => h r (List.mem_cons_of_mem _ hr), List.length_cons]
    omega

/-- Fifteen chunks are a full batch. -/
theorem length_batchBytes_full {records : List Frame} (h : ∀ r ∈ records, r.recordBytes.length = 2053)
    (hfull : records.length = 15) : (batchBytes records).length = FULL_BATCH_SIZE := by
  have hnil : records ≠ [] := by
    rintro rfl
    cases hfull
  rw [batchBytes, if_neg hnil, Frame.bytes, List.length_append, Protocol.length_packHeader, length_chunkRecords h,
    hfull]
  rfl

/-- **A chunk in a batch that has room** waits there. -/
theorem append_chunk_room {session : Session} {packets : List Packet} {records : List Frame}
    (h : Sent session packets records) (hrecords : ∀ r ∈ records, r.recordBytes.length = 2053)
    (hroom : records.length < 15) {chunk : List ℕ} (hchunk : chunk.length = IO_BATCH) :
    ∃ session', appendRecord .rootBatch (packAddresses chunk) session = .ok (.ok, session') ∧
      Sent session' packets (records ++ [chunkFrame .rootBatch chunk]) ∧ session'.sends = session.sends := by
  have hlen := length_chunkRecord hchunk
  have hparts : packAddresses chunk ++ [] = (chunkFrame .rootBatch chunk).payload := List.append_nil _
  obtain ⟨batch, hholds, hrun⟩ := appendRecordParts_stored h.holds hparts (by
    rw [length_chunkRecords hrecords, hlen, BULK_PAYLOAD_SIZE]
    omega)
  refine ⟨_, hrun, ⟨h.wire, hholds, fun r hr => ?_⟩, rfl⟩
  rcases List.mem_append.1 hr with hr | hr
  · exact h.kinds r hr
  · rw [List.mem_singleton.1 hr]
    show FrameKind.rootBatch ∈ BULK_RECORD_KINDS
    decide

/-- **A chunk behind a full batch** has it sent. -/
theorem append_chunk_full {session : Session} {packets : List Packet} {records : List Frame}
    (h : Sent session packets records) (hrecords : ∀ r ∈ records, r.recordBytes.length = 2053)
    (hfull : records.length = 15) {chunk : List ℕ} (hchunk : chunk.length = IO_BATCH) :
    ∃ session', appendRecord .rootBatch (packAddresses chunk) session =
        .ok ((drain session.sends FULL_BATCH_SIZE).1, session') ∧
      session'.sends = (drain session.sends FULL_BATCH_SIZE).2 ∧
      ((drain session.sends FULL_BATCH_SIZE).1 = .ok → ∃ more, more.flatMap Packet.frames = records ∧
        Sent session' (packets ++ more) [chunkFrame .rootBatch chunk]) ∧
      ((drain session.sends FULL_BATCH_SIZE).1 = .failed → session'.batch.Holds [] ∧
        session'.wire = (session.after (batchBytes records)).wire) := by
  have hlen := length_chunkRecord hchunk
  have hparts : packAddresses chunk ++ [] = (chunkFrame .rootBatch chunk).payload := List.append_nil _
  have hsize := length_batchBytes_full hrecords hfull
  have hstatus := status_eq_drain session (batchBytes records)
  have hsends := sends_after_eq_drain session (batchBytes records)
  rw [hsize] at hstatus hsends
  obtain ⟨batch, hholds, hrun⟩ := appendRecordParts_flushed h.holds hparts
    (by rw [hlen, BULK_PAYLOAD_SIZE]; omega)
    (by rw [length_chunkRecords hrecords, hlen, hfull, BULK_PAYLOAD_SIZE]; omega)
  rw [hstatus] at hholds hrun
  refine ⟨_, hrun, hsends, fun hok => ?_, fun hfailed => ⟨?_, rfl⟩⟩
  · obtain ⟨more, hframes, hwire⟩ := h.flushed (hstatus.trans hok)
    rw [if_pos hok] at hholds
    refine ⟨more, hframes, hwire, hholds, fun r hr => ?_⟩
    rw [List.mem_singleton.1 hr]
    show FrameKind.rootBatch ∈ BULK_RECORD_KINDS
    decide
  · rwa [if_neg (by rw [hfailed]; decide)] at hholds

/-- How many batches are sent while `chunks` go behind `waiting` records. -/
def flushesFor (waiting chunks : ℕ) : ℕ := (waiting + chunks - 1) / 15

/-- A batch with room takes a chunk without a flush. -/
theorem flushesFor_room {waiting chunks : ℕ} : flushesFor (waiting + 1) chunks = flushesFor waiting (chunks + 1) := by
  rw [flushesFor, flushesFor]
  congr 1
  omega

/-- A full batch is flushed before it takes a chunk. -/
theorem flushesFor_full {chunks : ℕ} : flushesFor 15 (chunks + 1) = flushesFor 1 chunks + 1 := by
  rw [flushesFor, flushesFor]
  omega

variable {packets : List Packet} {records : List Frame} {session : Session} {chunks : List (List ℕ)}

/-- **Where no full batch is lost** all chunks are handed over. -/
theorem sendChunks_kept (h : Sent session packets records) (hrecords : ∀ r ∈ records, r.recordBytes.length = 2053)
    (hroom : records.length ≤ 15) (hchunks : ∀ chunk ∈ chunks, chunk.length = IO_BATCH)
    (hkept : lostAt session.sends (flushesFor records.length chunks.length) = none) :
    ∃ session', sendChunks chunks session = .ok (.ok, session') ∧
      Handed session' (packets.flatMap Packet.frames ++ records ++ chunks.map (chunkFrame .rootBatch)) := by
  induction chunks generalizing packets records session with
  | nil => exact ⟨session, rfl, packets, records, h, (List.append_nil _).symm⟩
  | cons chunk chunks ih =>
    obtain ⟨hchunk, hchunks⟩ := List.forall_mem_cons.1 hchunks
    have hnew := length_chunkRecord hchunk
    rcases Nat.lt_or_ge records.length 15 with hlt | hge
    · obtain ⟨session₁, happend, hsent, hsends⟩ := append_chunk_room h hrecords hlt hchunk
      have hlen : (records ++ [chunkFrame .rootBatch chunk]).length = records.length + 1 := by
        rw [List.length_append, List.length_singleton]
      obtain ⟨session', hrun, hhanded⟩ := ih hsent (by
        intro r hr
        rcases List.mem_append.1 hr with hr | hr
        · exact hrecords r hr
        · rwa [List.mem_singleton.1 hr]) (by omega) hchunks (by
        rwa [hsends, hlen, flushesFor_room])
      refine ⟨session', ?_, ?_⟩
      · rw [sendChunks, run_andThen happend]
        exact hrun
      · simp only [List.append_assoc, List.singleton_append] at hhanded
        rwa [List.append_assoc, List.map_cons]
    · have hfull : records.length = 15 := by omega
      obtain ⟨session₁, happend, hsends, hok, -⟩ := append_chunk_full h hrecords hfull hchunk
      rw [hfull, List.length_cons, flushesFor_full, lostAt] at hkept
      cases hdrain : drain session.sends FULL_BATCH_SIZE with
      | mk status sends =>
        rw [hdrain] at hkept happend hsends hok
        cases status with
        | failed => cases hkept
        | ok =>
          obtain ⟨more, hframes, hsent⟩ := hok rfl
          obtain ⟨session', hrun, hhanded⟩ := ih hsent (by simpa using hnew) (by simp) hchunks (by rwa [hsends])
          refine ⟨session', ?_, ?_⟩
          · rw [sendChunks, run_andThen happend]
            exact hrun
          · rw [List.flatMap_append, hframes, List.append_assoc _ [_]] at hhanded
            exact hhanded

/-- Of the frames `all`, the last of which are missing, the wire carries the first
and the start of another frame; nothing waits. -/
structure Lost (session : Session) (all : List Frame) : Prop where
  holds : session.batch.Holds []
  wire : ∃ (packets : List Packet) (lost : List Frame) (frame : Frame) (n : ℕ),
    session.wire = wireBytes packets ++ frame.bytes.take n ∧ n < frame.bytes.length ∧
    frame.payload.length ≤ Protocol.MAX_PAYLOAD ∧ packets.flatMap Packet.frames ++ lost = all ∧ lost ≠ []

/-- What a full batch leaves on the wire when it cannot be sent. -/
theorem lost_of_failed (h : Sent session packets records) (hrecords : ∀ r ∈ records, r.recordBytes.length = 2053)
    (hfull : records.length = 15) (hfailed : (drain session.sends FULL_BATCH_SIZE).1 = .failed) {session' : Session}
    (hholds : session'.batch.Holds []) (hwire : session'.wire = (session.after (batchBytes records)).wire)
    (others : List Frame) : Lost session' (packets.flatMap Packet.frames ++ records ++ others) := by
  have hnil : records ≠ [] := by
    rintro rfl
    cases hfull
  have hstatus : session.status (batchBytes records) = .failed := by
    rw [status_eq_drain, length_batchBytes_full hrecords hfull, hfailed]
  obtain ⟨n, hn, hsent⟩ := sendLoop_failed hstatus
  rw [batchBytes, if_neg hnil] at hn hsent
  refine ⟨hholds, packets, records ++ others, _, n, ?_, hn, ?_, (List.append_assoc _ _ _).symm, by simp [hnil]⟩
  · rw [hwire, ← h.wire, ← hsent, batchBytes, if_neg hnil]
    rfl
  · rw [length_chunkRecords hrecords, hfull]
    decide

/-- **Where a full batch is lost** the chunks end there, and nothing waits. -/
theorem sendChunks_lost (h : Sent session packets records) (hrecords : ∀ r ∈ records, r.recordBytes.length = 2053)
    (hroom : records.length ≤ 15) (hchunks : ∀ chunk ∈ chunks, chunk.length = IO_BATCH) {rest : List SendOutcome}
    (hlost : lostAt session.sends (flushesFor records.length chunks.length) = some rest) :
    ∃ session', sendChunks chunks session = .ok (.failed, session') ∧ session'.sends = rest ∧
      Lost session' (packets.flatMap Packet.frames ++ records ++ chunks.map (chunkFrame .rootBatch)) := by
  induction chunks generalizing packets records session with
  | nil =>
    have hzero : flushesFor records.length ([] : List (List ℕ)).length = 0 := by
      rw [flushesFor, List.length_nil]
      omega
    rw [hzero] at hlost
    cases hlost
  | cons chunk chunks ih =>
    obtain ⟨hchunk, hchunks⟩ := List.forall_mem_cons.1 hchunks
    have hnew := length_chunkRecord hchunk
    rcases Nat.lt_or_ge records.length 15 with hlt | hge
    · obtain ⟨session₁, happend, hsent, hsends⟩ := append_chunk_room h hrecords hlt hchunk
      have hlen : (records ++ [chunkFrame .rootBatch chunk]).length = records.length + 1 := by
        rw [List.length_append, List.length_singleton]
      obtain ⟨session', hrun, hrest, hgone⟩ := ih hsent (by
        intro r hr
        rcases List.mem_append.1 hr with hr | hr
        · exact hrecords r hr
        · rwa [List.mem_singleton.1 hr]) (by omega) hchunks (by rwa [hsends, hlen, flushesFor_room])
      refine ⟨session', ?_, hrest, ?_⟩
      · rw [sendChunks, run_andThen happend]
        exact hrun
      · simp only [List.append_assoc, List.singleton_append] at hgone
        rwa [List.append_assoc, List.map_cons]
    · have hfull : records.length = 15 := by omega
      obtain ⟨session₁, happend, hsends, hok, hfailed⟩ := append_chunk_full h hrecords hfull hchunk
      rw [hfull, List.length_cons, flushesFor_full, lostAt] at hlost
      cases hdrain : drain session.sends FULL_BATCH_SIZE with
      | mk status sends =>
        rw [hdrain] at hlost happend hsends hok hfailed
        cases status with
        | failed =>
          obtain ⟨hholds, hwire⟩ := hfailed rfl
          refine ⟨session₁, ?_, hsends.trans (Option.some.inj hlost), ?_⟩
          · rw [sendChunks, run_andThen happend]
            rfl
          · exact lost_of_failed h hrecords hfull (by rw [hdrain]) hholds hwire _
        | ok =>
          obtain ⟨more, hframes, hsent⟩ := hok rfl
          obtain ⟨session', hrun, hrest, hgone⟩ := ih hsent (by simpa using hnew) (by simp) hchunks (by rwa [hsends])
          refine ⟨session', ?_, hrest, ?_⟩
          · rw [sendChunks, run_andThen happend]
            exact hrun
          · rw [List.flatMap_append, hframes, List.append_assoc _ [_]] at hgone
            exact hgone

/-! ### The end of the roots -/

/-- The frame that ends the roots. -/
def ROOTS_DONE : Frame := ⟨.rootsDone, []⟩

/-- **After the chunks** the rest of the stream goes out, and `ROOTS_DONE`. -/
theorem sendRoots_eq {objects : List ℕ} {session session' : Session} {status : Status}
    (hrun : sendChunks (fullChunks [] objects).1 { session with batch := .new } = .ok (status, session')) :
    sendRoots objects session =
      andThen (sendAddresses [] ⟨if status = .ok then (fullChunks [] objects).2 else [], .rootBatch⟩)
        (sendControl .rootsDone []) session' := by
  have hvisit := visitObjects_eq (by decide) objects hrun
  have hmodify : (modify fun session => { session with batch := RecordBatch.new } : Routine Unit) session =
      .ok ((), { session with batch := .new }) := rfl
  have hend : ∀ stream, andThen (sendAddresses [] stream) (sendControl .rootsDone []) =
      flushAddresses stream >>= fun r => andThen (pure r.1) (sendControl .rootsDone []) := by
    intro stream
    rw [sendAddresses, streamAddresses, pure_bind, andThen, bind_assoc]
    rfl
  rw [sendRoots, run_bind_ok hmodify, run_bind_ok hvisit, hend]
  refine congrFun (congrArg (flushAddresses _ >>= ·) (funext fun r => ?_)) session'
  cases r.1 <;> rfl

/-- A control frame behind everything that was handed over. -/
theorem sendControl_wire {frames : List Frame} (h : Handed session frames) (frame : Frame) :
    ∃ status session', sendControl frame.kind frame.payload session = .ok (status, session') ∧
      (status = .ok → ∃ packets, session'.wire = wireBytes packets ++ frame.bytes ∧
        packets.flatMap Packet.frames = frames) := by
  obtain ⟨packets, records, hsent, hframes⟩ := h
  obtain ⟨flushed, hflush, hok, -⟩ := hsent.flush
  have hrun : sendControl frame.kind frame.payload session = if session.status (batchBytes records) = .ok then
      sendFrame frame.kind frame.payload flushed else .ok (.failed, flushed) := run_andThen hflush
  by_cases hstatus : session.status (batchBytes records) = .ok
  · rw [if_pos hstatus] at hrun
    obtain ⟨packets', hsent', hall⟩ := hok hstatus
    obtain ⟨status, session', hsend, hwire, -⟩ := sendFrame_spec flushed frame
    refine ⟨status, session', hrun.trans hsend, fun hst => ⟨packets', ?_, hall.trans hframes⟩⟩
    rw [hwire hst, hsent'.wire]
  · rw [if_neg hstatus] at hrun
    exact ⟨.failed, flushed, hrun, fun h => (by cases h)⟩

/-- **Where nothing waits** only `ROOTS_DONE` is sent. -/
theorem sendControl_empty (h : session.batch.Holds []) :
    ∃ session', sendControl .rootsDone [] session = .ok ((drain session.sends 12).1, session') ∧
      ((drain session.sends 12).1 = .ok → session'.wire = session.wire ++ ROOTS_DONE.bytes) := by
  obtain ⟨batch, -, hflush⟩ := flushRecordBatch_spec h
  have hnone : batchBytes [] = [] := rfl
  rw [hnone, status_nil, after_nil] at hflush
  let flushed : Session := { session with batch := batch }
  have hrun : sendControl .rootsDone [] session = sendFrame .rootsDone [] flushed := run_andThen hflush
  have hstatus : flushed.status ROOTS_DONE.bytes = (drain session.sends 12).1 := status_eq_drain _ _
  have hsend : sendFrame .rootsDone [] flushed =
      .ok (flushed.status ROOTS_DONE.bytes, flushed.after ROOTS_DONE.bytes) := by
    rw [sendFrame, run_andThen (sendAll_eq flushed _)]
    show (if flushed.status ROOTS_DONE.bytes = .ok then Except.ok (Status.ok, flushed.after ROOTS_DONE.bytes)
      else .ok (.failed, flushed.after ROOTS_DONE.bytes)) = _
    cases flushed.status ROOTS_DONE.bytes <;> rfl
  refine ⟨flushed.after ROOTS_DONE.bytes, ?_, fun hok => wire_after (hstatus.trans hok)⟩
  rw [hrun, hsend, hstatus]

/-! ### What is certified -/

/-- The roots in one frame. -/
def rootsOf (frame : Frame) : List ℕ :=
  if frame.kind = .rootBatch then (decodeAddresses frame.payload).toOption.getD [] else []

/-- `a` is among the roots that arrive when the wire carries `bytes`, in whatever
pieces. -/
def RootReceived (bytes : List UInt8) (a : ℕ) : Prop :=
  ∀ pieces, Cut pieces bytes → ∃ count, a ∈ (receivedFrames count (arriving pieces)).flatMap rootsOf

/-- When `send_roots` has put `ROOTS_DONE` on the wire, every object of the
collector has been received as a root from the bytes before it. -/
def Certifies (objects : GcObjects) (sends : List SendOutcome) (mallocs : List Bool) : Prop :=
  ∀ session, sendRoots objects.addresses (.start sends mallocs) = .ok (.ok, session) →
    ∃ sent, session.wire = sent ++ ROOTS_DONE.bytes ∧ ∀ a ∈ objects.addresses, RootReceived sent a

/-- The frames of the chunks announce the roots in them. -/
theorem rootsOf_chunkFrames {chunks : List (List ℕ)} (h : ∀ chunk ∈ chunks, ∀ a ∈ chunk, a < 2 ^ 64) :
    (chunks.map (chunkFrame .rootBatch)).flatMap rootsOf = chunks.flatten := by
  induction chunks with
  | nil => rfl
  | cons chunk chunks ih =>
    obtain ⟨hchunk, hchunks⟩ := List.forall_mem_cons.1 h
    have hone : rootsOf (chunkFrame .rootBatch chunk) = chunk := by
      rw [rootsOf, chunkFrame, if_pos rfl, Capture.decodeAddresses_pack hchunk]
      rfl
    rw [List.map_cons, List.flatMap_cons, hone, ih hchunks, List.flatten_cons]

/-- More receives do not lose a frame. -/
theorem receivedFrames_mono {π : Type} (count more : ℕ) (channel : Protocol.FramedSocket π) :
    ∀ f ∈ receivedFrames count channel, f ∈ receivedFrames (count + more) channel := by
  induction count generalizing channel with
  | zero => simp [receivedFrames]
  | succ count ih =>
    intro f hf
    rw [Nat.succ_add, receivedFrames]
    rw [receivedFrames] at hf
    cases hreceive : Protocol.receive channel with
    | error e =>
      rw [hreceive] at hf
      cases hf
    | ok r =>
      rw [hreceive] at hf
      rcases List.mem_cons.1 hf with rfl | hf
      · exact List.mem_cons_self
      · exact List.mem_cons_of_mem _ (ih _ f hf)

/-- Bytes can be cut into pieces. -/
theorem exists_cut (bytes : List UInt8) : ∃ pieces, Cut pieces bytes := by
  by_cases hnil : bytes = []
  · exact ⟨[], hnil ▸ Cut.nil⟩
  · exact ⟨[bytes], by simpa using hnil, List.flatten_singleton⟩

/-- **The roots behind packets and the start of another frame** are those of the
packets. -/
theorem rootReceived_iff {packets : List Packet} {frame : Frame} {n : ℕ} (hn : n < frame.bytes.length)
    (hsize : frame.payload.length ≤ Protocol.MAX_PAYLOAD) (a : ℕ) :
    RootReceived (wireBytes packets ++ frame.bytes.take n) a ↔
      a ∈ (packets.flatMap Packet.frames).flatMap rootsOf := by
  have hready : ∀ pieces, Cut pieces (wireBytes packets ++ frame.bytes.take n) →
      ReadyBefore (frame.bytes.take n) (arriving pieces) (packets.flatMap Packet.frames) :=
    fun pieces hcut => ⟨packets, hcut, (List.nil_append _).symm⟩
  constructor
  · intro h
    obtain ⟨pieces, hcut⟩ := exists_cut (wireBytes packets ++ frame.bytes.take n)
    obtain ⟨count, ha⟩ := h pieces hcut
    obtain ⟨f, hf, ha⟩ := List.mem_flatMap.1 ha
    have hall := receivedFrames_mono count (packets.flatMap Packet.frames).length _ f hf
    rw [receivedFrames_short hsize hn (by omega) (hready pieces hcut)] at hall
    exact List.mem_flatMap.2 ⟨f, hall, ha⟩
  · intro h pieces hcut
    refine ⟨(packets.flatMap Packet.frames).length, ?_⟩
    rwa [receivedFrames_short hsize hn (Nat.le_refl _) (hready pieces hcut)]

variable (objects : GcObjects) (sends : List SendOutcome) (mallocs : List Bool)

/-- A session starts with nothing on the wire. -/
theorem sent_start : Sent (.start sends mallocs) [] [] := ⟨rfl, RecordBatch.holds_new, by simp⟩

/-- There is a full chunk for every 256 objects. -/
theorem length_fullChunks : (fullChunks [] objects.addresses).1.length = objects.addresses.length / 256 := by
  rw [(fullChunks_spec (by decide) _).2.2.2, List.length_nil, Nat.zero_add]
  rfl

/-- The flushes of the objects are those of the callback. -/
theorem flushesFor_objects :
    flushesFor ([] : List Frame).length (fullChunks [] objects.addresses).1.length =
      callbackFlushes objects.addresses.length := by
  rw [flushesFor, length_fullChunks, callbackFlushes, List.length_nil, Nat.zero_add]

/-- **Where no full batch is lost**, `ROOTS_DONE` certifies the roots. -/
theorem certifies_of_kept (hkept : lostAt sends (callbackFlushes objects.addresses.length) = none) :
    Certifies objects sends mallocs := by
  obtain ⟨hflat, hfull, hrest, -⟩ := @fullChunks_spec [] (by decide) objects.addresses
  obtain ⟨session₁, hchunks, hhanded⟩ := sendChunks_kept (sent_start sends mallocs) (by simp) (by simp) hfull
    (by rwa [flushesFor_objects])
  intro session hrun
  rw [sendRoots_eq hchunks, if_pos rfl] at hrun
  obtain ⟨status, session₂, hstream, hout⟩ :=
    sendAddresses_hands (show FrameKind.rootBatch ∈ BULK_RECORD_KINDS by decide) [] hrest _ _ hhanded
  rw [run_andThen hstream] at hrun
  cases status with
  | failed => cases hrun
  | ok =>
    rw [if_pos rfl] at hrun
    obtain ⟨status, session₃, hdone, hwire⟩ := sendControl_wire (hout.handed rfl) ROOTS_DONE
    obtain ⟨rfl, rfl⟩ := Prod.mk.inj (Except.ok.inj (hdone.symm.trans hrun))
    obtain ⟨packets, hsent, hframes⟩ := hwire rfl
    refine ⟨wireBytes packets, hsent, fun a ha => ?_⟩
    have hreceived := (@rootReceived_iff packets ROOTS_DONE 0 (by decide) (by decide) a).2
    rw [List.take_zero, List.append_nil] at hreceived
    refine hreceived ?_
    -- the chunks of the visit and the rest are all objects
    have hchunked : packets.flatMap Packet.frames =
        ((fullChunks [] objects.addresses).1 ++ chunksFrom (fullChunks [] objects.addresses).2 []).map
          (chunkFrame .rootBatch) := by
      rw [hframes, List.map_append]
      rfl
    have hall : ((fullChunks [] objects.addresses).1 ++ chunksFrom (fullChunks [] objects.addresses).2 []).flatten =
        objects.addresses := by
      rw [List.flatten_append, flatten_chunksFrom, List.append_nil, hflat]
      rfl
    rw [hchunked, rootsOf_chunkFrames fun chunk hchunk b hb => objects.addresses_lt b (by
      rw [← hall]
      exact List.mem_flatten.2 ⟨chunk, hchunk, hb⟩), hall]
    exact ha

/-- **Where a full batch is lost**, `send_roots` returns what the send of
`ROOTS_DONE` returns, and does not certify anything. -/
theorem sendRoots_of_lost {rest : List SendOutcome}
    (hlost : lostAt sends (callbackFlushes objects.addresses.length) = some rest) :
    ∃ session, sendRoots objects.addresses (.start sends mallocs) = .ok ((drain rest 12).1, session) ∧
      ((drain rest 12).1 = .ok → ∃ sent, session.wire = sent ++ ROOTS_DONE.bytes ∧
        ∃ a ∈ objects.addresses, ¬RootReceived sent a) := by
  obtain ⟨hflat, hfull, -⟩ := @fullChunks_spec [] (by decide) objects.addresses
  obtain ⟨session₁, hchunks, hsends, hholds, packets, lost, frame, n, hwire, hn, hsize, hframes, hne⟩ :=
    sendChunks_lost (sent_start sends mallocs) (by simp) (by simp) hfull (by rwa [flushesFor_objects])
  obtain ⟨session₂, hdone, hsent⟩ := sendControl_empty hholds
  rw [hsends] at hdone hsent
  refine ⟨session₂, ?_, fun hok => ⟨session₁.wire, hsent hok, ?_⟩⟩
  · rw [sendRoots_eq hchunks, if_neg (by decide), sendAddresses_nil, if_pos rfl]
    exact hdone
  · rw [List.flatMap_nil, List.nil_append, List.nil_append] at hframes
    obtain ⟨received, gone, hsplit, hreceived, hgone⟩ := List.map_eq_append_iff.1 hframes.symm
    obtain ⟨chunk, gone', rfl⟩ : ∃ chunk gone', gone = chunk :: gone' := by
      cases gone with
      | nil => exact absurd hgone.symm hne
      | cons chunk gone' => exact ⟨chunk, gone', rfl⟩
    have hlen : chunk.length = IO_BATCH := hfull chunk (by rw [hsplit]; simp)
    obtain ⟨a, ha⟩ := List.exists_mem_of_length_pos (show 0 < chunk.length by rw [hlen]; decide)
    have hnodup := objects.nodup
    rw [List.nil_append] at hflat
    rw [← hflat, hsplit, List.flatten_append, List.append_assoc, List.flatten_cons, List.append_assoc] at hnodup
    have hlt : ∀ chunk ∈ received, ∀ b ∈ chunk, b < 2 ^ 64 := fun chunk hchunk b hb => objects.addresses_lt b (by
      rw [← hflat, hsplit]
      exact List.mem_append_left _ (List.mem_flatten.2 ⟨chunk, List.mem_append_left _ hchunk, hb⟩))
    refine ⟨a, ?_, fun h => ?_⟩
    · rw [← hflat, hsplit]
      exact List.mem_append_left _ (List.mem_flatten.2 ⟨chunk, by simp, ha⟩)
    · rw [hwire, rootReceived_iff hn hsize, ← hreceived, rootsOf_chunkFrames hlt] at h
      exact List.disjoint_of_nodup_append hnodup h (List.mem_append_left _ ha)

/-- Where a full batch is lost and `ROOTS_DONE` is sent, it certifies nothing. -/
theorem not_certifies_of_lost {rest : List SendOutcome}
    (hlost : lostAt sends (callbackFlushes objects.addresses.length) = some rest) (hdone : (drain rest 12).1 = .ok) :
    ¬Certifies objects sends mallocs := by
  intro h
  obtain ⟨session, hrun, hgone⟩ := sendRoots_of_lost objects sends mallocs hlost
  rw [hdone] at hrun
  obtain ⟨sent, hsent, a, ha, hmissing⟩ := hgone hdone
  obtain ⟨sent', hsent', hall⟩ := h session hrun
  rw [hsent] at hsent'
  obtain rfl := List.append_cancel_right hsent'
  exact hmissing (hall a ha)

/-- **`ROOTS_DONE` certifies a complete root set** exactly where every full batch
that goes out within the callback is sent, or `ROOTS_DONE` itself is not. -/
theorem certifies_iff :
    Certifies objects sends mallocs ↔
      ∀ rest, lostAt sends (callbackFlushes objects.addresses.length) = some rest → (drain rest 12).1 = .failed := by
  constructor
  · intro h rest hlost
    cases hdone : (drain rest 12).1 with
    | failed => rfl
    | ok => exact absurd h (not_certifies_of_lost objects sends mallocs hlost hdone)
  · intro h
    cases hlost : lostAt sends (callbackFlushes objects.addresses.length) with
    | none => exact certifies_of_kept objects sends mallocs hlost
    | some rest =>
      obtain ⟨session, hrun, -⟩ := sendRoots_of_lost objects sends mallocs hlost
      intro session' hrun'
      rw [hrun, h rest hlost] at hrun'
      cases hrun'

/-- `count` objects of 16 bytes from address 4096 on. -/
def manyObjects (count : ℕ) (h : count ≤ 2 ^ 32) : GcObjects where
  addresses := (List.range count).map fun i => 4096 + 16 * i
  nodup := List.nodup_range.map fun i j hij => by
    have : 4096 + 16 * i = 4096 + 16 * j := hij
    omega
  addresses_lt := by
    intro a ha
    obtain ⟨i, hi, rfl⟩ := List.mem_map.1 ha
    have := List.mem_range.1 hi
    omega

/-- One failing `send` within the callback, after which the socket recovers. -/
theorem roots_done_without_roots :
    ¬∀ objects sends mallocs, Certifies objects sends mallocs := by
  intro h
  have hcount : (manyObjects 4096 (by decide)).addresses.length = 4096 := by
    rw [manyObjects, List.length_map, List.length_range]
  have hlost : lostAt [.failed] (callbackFlushes (manyObjects 4096 (by decide)).addresses.length) = some [] := by
    rw [hcount]
    rfl
  exact not_certifies_of_lost (manyObjects 4096 (by decide)) [.failed] [] hlost rfl (h _ _ _)

end Agent
end Pydump
