/-
# The grammar of a `BULK_BATCH`

A payload is a batch when it is records one behind the other, each a kind of the nine,
four bytes of length and that many bytes.  `decodeRecords_cases` says what one round of
`decode_bulk_batch` can find in front of it; by induction the whole scan returns the
records of a batch and raises `ProtocolError` on anything else, and `bulkBatch_grammar`
adds that the records are the only ones and that `encode_bulk_batch` undoes the scan.
-/

import Pydump.Protocol.SocketSpec

namespace Pydump
namespace Protocol

open Capture (CaptureError)

/-- The payload is these records, one behind the other. -/
structure IsBatch (payload : List UInt8) (records : List Frame) : Prop where
  bytes : payload = records.flatMap Frame.recordBytes
  kinds : ∀ r ∈ records, r.kind ∈ BULK_RECORD_KINDS
  sizes : ∀ r ∈ records, r.payload.length < 2 ^ 32

/-- The empty payload is a batch without records. -/
theorem IsBatch.nil : IsBatch [] [] := ⟨rfl, by simp, by simp⟩

/-- A record before a batch makes a batch. -/
theorem IsBatch.cons {r : Frame} {rest : List UInt8} {records : List Frame} (hkind : r.kind ∈ BULK_RECORD_KINDS)
    (hsize : r.payload.length < 2 ^ 32) (h : IsBatch rest records) :
    IsBatch (r.recordBytes ++ rest) (r :: records) where
  bytes := by rw [h.bytes, List.flatMap_cons]
  kinds := by
    intro s hs
    rcases List.mem_cons.1 hs with rfl | hs
    · exact hkind
    · exact h.kinds s hs
  sizes := by
    intro s hs
    rcases List.mem_cons.1 hs with rfl | hs
    · exact hsize
    · exact h.sizes s hs

/-! ### Decoding -/

/-- A kind has the code that it was read from. -/
theorem FrameKind.code_of_ofCode? {code : UInt8} {kind : FrameKind} (h : ofCode? code = some kind) :
    kind.code = code := by
  simpa using List.find?_some h

/-- Five bytes and as many as they say are a record. -/
theorem eq_recordBytes {rest : List UInt8} {kind : FrameKind} {size : ℕ} (hheader : RECORD_HEADER_SIZE ≤ rest.length)
    (hkind : kind.code = rest.headD 0) (hsize : BigEndian.decode ((rest.drop 1).take 4) = size)
    (hroom : size ≤ (rest.drop RECORD_HEADER_SIZE).length) :
    rest = (Frame.mk kind ((rest.drop RECORD_HEADER_SIZE).take size)).recordBytes ++
      (rest.drop RECORD_HEADER_SIZE).drop size := by
  unfold RECORD_HEADER_SIZE at *
  cases rest with
  | nil => simp at hheader
  | cons b tail =>
    simp only [List.length_cons, List.drop_succ_cons, List.drop_zero, List.headD_cons] at *
    have hfour : (tail.take 4).length = 4 := List.length_take_of_le (by omega)
    have hencode : BigEndian.encode 4 size = tail.take 4 := by
      have h := BigEndian.encode_decode (tail.take 4)
      rwa [hfour, hsize] at h
    unfold Frame.recordBytes packRecordHeader
    rw [List.length_take_of_le hroom, hencode, hkind, List.cons_append, List.cons_append, List.append_assoc,
      List.take_append_drop, List.take_append_drop]

/-- Four bytes hold less than `2 ^ 32`. -/
theorem decode_take_lt (bytes : List UInt8) : BigEndian.decode (bytes.take 4) < 2 ^ 32 := by
  have hpow : 256 ^ (bytes.take 4).length ≤ 256 ^ 4 := Nat.pow_le_pow_right (by norm_num) (List.length_take_le 4 _)
  have hlt := BigEndian.decode_lt (bytes.take 4)
  omega

/-- **What one round finds**: the end, something it raises `ProtocolError` for, or a
record. -/
theorem decodeRecords_cases (rounds : ℕ) (rest : List UInt8) :
    (rest = [] ∧ decodeRecords (rounds + 1) rest = .ok []) ∨
      (∃ message, decodeRecords (rounds + 1) rest = .error (.protocolError message)) ∨
        ∃ r rest', rest = Frame.recordBytes r ++ rest' ∧ r.kind ∈ BULK_RECORD_KINDS ∧ r.payload.length < 2 ^ 32 := by
  rw [decodeRecords]
  by_cases hempty : rest.length = 0
  · exact .inl ⟨List.length_eq_zero_iff.1 hempty, if_pos hempty⟩
  rw [if_neg hempty]
  by_cases hheader : rest.length < RECORD_HEADER_SIZE
  · exact .inr (.inl ⟨_, if_pos hheader⟩)
  rw [if_neg hheader]
  dsimp only
  by_cases hroom : BigEndian.decode ((rest.drop 1).take 4) > (rest.drop RECORD_HEADER_SIZE).length
  · exact .inr (.inl ⟨_, if_pos hroom⟩)
  rw [if_neg hroom]
  cases hkind : FrameKind.ofCode? (rest.headD 0) with
  | none => exact .inr (.inl ⟨_, rfl⟩)
  | some kind =>
    by_cases hbulk : kind ∈ BULK_RECORD_KINDS
    · refine .inr (.inr ⟨_, _, eq_recordBytes (by omega) (FrameKind.code_of_ofCode? hkind) rfl (by omega), hbulk, ?_⟩)
      rw [List.length_take_of_le (by omega)]
      exact decode_take_lt _
    · exact .inr (.inl ⟨_, if_pos hbulk⟩)

/-- **The scan** returns the records of a batch, and raises `ProtocolError` where there
are none. -/
theorem decodeRecords_total {rounds : ℕ} {rest : List UInt8} (hrounds : rest.length < rounds) :
    (∃ records, IsBatch rest records ∧ decodeRecords rounds rest = .ok records) ∨
      ∃ message, decodeRecords rounds rest = .error (.protocolError message) := by
  induction rounds generalizing rest with
  | zero => omega
  | succ rounds ih =>
    rcases decodeRecords_cases rounds rest with ⟨rfl, hrun⟩ | herror | ⟨r, rest, rfl, hkind, hsize⟩
    · exact .inl ⟨[], .nil, hrun⟩
    · exact .inr herror
    · have hfewer : rest.length < rounds := by
        rw [List.length_append, length_recordBytes] at hrounds
        unfold RECORD_HEADER_SIZE at hrounds
        omega
      rw [decodeRecords_record rounds r rest hkind hsize]
      rcases ih hfewer with ⟨records, hbatch, hrun⟩ | ⟨message, hrun⟩
      · refine .inl ⟨r :: records, hbatch.cons hkind hsize, ?_⟩
        rw [hrun]
        rfl
      · refine .inr ⟨message, ?_⟩
        rw [hrun]
        rfl

/-- A batch is decoded to its records. -/
theorem IsBatch.decode {payload : List UInt8} {records : List Frame} (h : IsBatch payload records) :
    decodeBulkBatch payload = .ok records := by
  obtain ⟨rfl, kinds, sizes⟩ := h
  exact decodeRecords_eq records _ (Nat.lt_succ_of_le (length_le_recordBytes records)) kinds sizes

/-- A payload is decoded as a batch or refused as none. -/
theorem decodeBulkBatch_total (payload : List UInt8) :
    (∃ records, IsBatch payload records ∧ decodeBulkBatch payload = .ok records) ∨
      ∃ message, decodeBulkBatch payload = .error (.protocolError message) :=
  decodeRecords_total (Nat.lt_succ_self _)

/-! ### Encoding -/

/-- The rounds of `encode_bulk_batch` put the records one behind the other. -/
theorem foldlM_encodeRecord {records : List Frame} (kinds : ∀ r ∈ records, r.kind ∈ BULK_RECORD_KINDS)
    (sizes : ∀ r ∈ records, r.payload.length < 2 ^ 32) (payload : List UInt8) :
    records.foldlM encodeRecord payload = .ok (payload ++ records.flatMap Frame.recordBytes) := by
  induction records generalizing payload with
  | nil =>
    rw [List.flatMap_nil, List.append_nil]
    rfl
  | cons r records ih =>
    have hround : encodeRecord payload r = .ok (payload ++ r.recordBytes) := by
      unfold encodeRecord
      rw [if_neg (not_not.2 (kinds r List.mem_cons_self)), if_pos (sizes r List.mem_cons_self)]
      rfl
    rw [List.foldlM_cons, ExceptLoop.bind_ok hround, ih (fun s hs => kinds s (List.mem_cons_of_mem r hs))
      (fun s hs => sizes s (List.mem_cons_of_mem r hs)), List.flatMap_cons, List.append_assoc]

/-- A batch that fits is encoded. -/
theorem IsBatch.encode {payload : List UInt8} {records : List Frame} (h : IsBatch payload records)
    (fits : payload.length ≤ MAX_PAYLOAD) : encodeBulkBatch records = .ok payload := by
  obtain ⟨rfl, kinds, sizes⟩ := h
  unfold encodeBulkBatch
  rw [ExceptLoop.bind_ok (foldlM_encodeRecord kinds sizes []), List.nil_append, if_neg (not_lt.2 fits)]

/-- Records of the nine kinds that fit into a frame are a batch. -/
theorem isBatch_of_fits {records : List Frame} (kinds : ∀ r ∈ records, r.kind ∈ BULK_RECORD_KINDS)
    (fits : (records.flatMap Frame.recordBytes).length ≤ MAX_PAYLOAD) :
    IsBatch (records.flatMap Frame.recordBytes) records where
  bytes := rfl
  kinds := kinds
  sizes := by
    intro r hr
    have hle := payload_le_of_mem hr
    unfold MAX_PAYLOAD at fits
    omega

/-- **The grammar of a `BULK_BATCH` payload.**  `decode_bulk_batch` returns exactly the
records whose bytes the payload is, of which there are no others, and raises
`ProtocolError` where there are none.  `encode_bulk_batch` gives the payload back where
it fits into a frame, and what it makes of records is decoded to them. -/
theorem bulkBatch_grammar (payload : List UInt8) :
    (∀ records, decodeBulkBatch payload = .ok records ↔ IsBatch payload records) ∧
      (∀ records records', IsBatch payload records → IsBatch payload records' → records = records') ∧
      ((¬∃ records, IsBatch payload records) → ∃ message, decodeBulkBatch payload = .error (.protocolError message)) ∧
      (∀ records, decodeBulkBatch payload = .ok records → payload.length ≤ MAX_PAYLOAD →
        encodeBulkBatch records = .ok payload) ∧
      ∀ records : List Frame, (∀ r ∈ records, r.kind ∈ BULK_RECORD_KINDS) →
        (records.flatMap Frame.recordBytes).length ≤ MAX_PAYLOAD →
          encodeBulkBatch records = .ok (records.flatMap Frame.recordBytes) ∧
            decodeBulkBatch (records.flatMap Frame.recordBytes) = .ok records := by
  have hdecode : ∀ records, decodeBulkBatch payload = .ok records ↔ IsBatch payload records := by
    intro records
    constructor
    · intro h
      rcases decodeBulkBatch_total payload with ⟨records', hbatch, hrun⟩ | ⟨message, hrun⟩
      · obtain rfl := Except.ok.inj (h.symm.trans hrun)
        exact hbatch
      · simp [h] at hrun
    · exact IsBatch.decode
  refine ⟨hdecode, fun records records' h h' => ?_, fun hnone => ?_, fun records h fits => ?_,
    fun records kinds fits => ?_⟩
  · exact Except.ok.inj (h.decode.symm.trans h'.decode)
  · rcases decodeBulkBatch_total payload with ⟨records, hbatch, -⟩ | herror
    · exact absurd ⟨records, hbatch⟩ hnone
    · exact herror
  · exact ((hdecode records).1 h).encode fits
  · have hbatch := isBatch_of_fits kinds fits
    exact ⟨hbatch.encode fits, hbatch.decode⟩

/-- A record header without its last byte, and a kind that is none of the nine. -/
example : decodeBulkBatch [13, 0, 0, 0] = .error (.protocolError "BULK_BATCH ends in a partial record header") ∧
    decodeBulkBatch [20, 0, 0, 0, 0] = .error (.protocolError "BULK_BATCH contains invalid record BULK_BATCH") := by
  decide

end Protocol
end Pydump
