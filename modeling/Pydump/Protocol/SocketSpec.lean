/-
# What a framed socket receives

`Packet` is what may stand on the wire: a frame of its own, or a `BULK_BATCH`
that holds records.  `Ready channel frames` says that the socket still has packets
to deliver whose frames, behind the queued ones, are `frames`, however the bytes
are cut into pieces.  `receive_ready` is the step: `receive` returns the first
frame and leaves the socket ready for the others.
-/

import Pydump.Lib.ExceptLoop
import Pydump.Protocol.Socket

namespace Pydump
namespace Protocol

open Capture (CaptureError)
open ExceptLoop (run_bind_ok run_bind_error run_get_bind)

variable {π : Type}

/-! ### Packets -/

/-- A record of a `BULK_BATCH` as bytes. -/
def Frame.recordBytes (frame : Frame) : List UInt8 := packRecordHeader frame.kind frame.payload.length ++ frame.payload

/-- A frame as bytes. -/
def Frame.bytes (frame : Frame) : List UInt8 := packHeader frame.kind frame.payload.length ++ frame.payload

/-- What may stand on the wire: a frame, or a `BULK_BATCH` with its records. -/
inductive Packet
  | single (frame : Frame) (kind : frame.kind ≠ .bulkBatch) (fits : frame.payload.length ≤ MAX_PAYLOAD)
  | bulk (records : List Frame) (nonempty : records ≠ []) (kinds : ∀ r ∈ records, r.kind ∈ BULK_RECORD_KINDS)
      (fits : (records.flatMap Frame.recordBytes).length ≤ MAX_PAYLOAD)

/-- The frame that carries a packet. -/
def Packet.carrier : Packet → Frame
  | .single frame _ _ => frame
  | .bulk records _ _ _ => ⟨.bulkBatch, records.flatMap Frame.recordBytes⟩

/-- The frames that `receive` returns for a packet. -/
def Packet.frames : Packet → List Frame
  | .single frame _ _ => [frame]
  | .bulk records _ _ _ => records

/-- The bytes of some packets. -/
def wireBytes (packets : List Packet) : List UInt8 := packets.flatMap fun packet => packet.carrier.bytes

/-- Packets are sent one behind the other. -/
theorem wireBytes_append (as bs : List Packet) : wireBytes (as ++ bs) = wireBytes as ++ wireBytes bs :=
  List.flatMap_append

/-- A single packet. -/
theorem wireBytes_singleton (packet : Packet) : wireBytes [packet] = packet.carrier.bytes := List.flatMap_singleton ..

/-- A carrier fits a frame. -/
theorem Packet.length_carrier_le (packet : Packet) : packet.carrier.payload.length ≤ MAX_PAYLOAD := by
  cases packet with
  | single frame _ fits => exact fits
  | bulk records _ _ fits => exact fits

/-- Every packet carries a frame. -/
theorem Packet.frames_ne_nil (packet : Packet) : packet.frames ≠ [] := by
  cases packet with
  | single frame _ _ => exact List.cons_ne_nil _ _
  | bulk records nonempty _ _ => exact nonempty

/-! ### Records -/

/-- A record is its header and its payload. -/
theorem length_recordBytes (frame : Frame) :
    frame.recordBytes.length = RECORD_HEADER_SIZE + frame.payload.length := by
  rw [Frame.recordBytes, List.length_append, length_packRecordHeader]

/-- A payload is no longer than the batch it stands in. -/
theorem payload_le_of_mem {records : List Frame} {r : Frame} (hr : r ∈ records) :
    r.payload.length ≤ (records.flatMap Frame.recordBytes).length := by
  obtain ⟨as, bs, rfl⟩ := List.append_of_mem hr
  simp only [List.flatMap_append, List.flatMap_cons, List.length_append, length_recordBytes]
  omega

/-- One round of the loop on a record and whatever follows it. -/
theorem decodeRecords_record (rounds : ℕ) (r : Frame) (rest : List UInt8) (hkind : r.kind ∈ BULK_RECORD_KINDS)
    (hsize : r.payload.length < 2 ^ 32) :
    decodeRecords (rounds + 1) (r.recordBytes ++ rest) = (do
      let records ← decodeRecords rounds rest
      pure (r :: records)) := by
  have hbytes : r.recordBytes ++ rest =
      r.kind.code :: (BigEndian.encode 4 r.payload.length ++ (r.payload ++ rest)) := by
    rw [Frame.recordBytes, packRecordHeader, List.cons_append, List.cons_append, List.append_assoc]
  have hlen : (BigEndian.encode 4 r.payload.length).length = 4 := BigEndian.length_encode _ _
  have hread : BigEndian.decode (((r.kind.code ::
      (BigEndian.encode 4 r.payload.length ++ (r.payload ++ rest))).drop 1).take 4) = r.payload.length := by
    rw [List.drop_succ_cons, List.drop_zero, List.take_left' hlen]
    exact BigEndian.decode_encode (by simpa using hsize)
  have hdrop : (r.kind.code :: (BigEndian.encode 4 r.payload.length ++ (r.payload ++ rest))).drop
      RECORD_HEADER_SIZE = r.payload ++ rest := by
    rw [RECORD_HEADER_SIZE, List.drop_succ_cons, List.drop_left' hlen]
  have htotal : ¬(r.kind.code :: (BigEndian.encode 4 r.payload.length ++ (r.payload ++ rest))).length <
      RECORD_HEADER_SIZE := by
    simp only [RECORD_HEADER_SIZE, List.length_cons, List.length_append, hlen]
    omega
  have hroom : ¬r.payload.length > (r.payload ++ rest).length := by
    rw [List.length_append]
    omega
  rw [hbytes, decodeRecords, if_neg (by simp), if_neg htotal, hread, hdrop, if_neg hroom, List.headD_cons,
    FrameKind.ofCode?_code]
  simp only [hkind, not_true_eq_false, if_false, List.take_left, List.drop_left]

/-- **The records of a batch come back in order.** -/
theorem decodeRecords_eq (records : List Frame) (rounds : ℕ) (h : records.length < rounds)
    (kinds : ∀ r ∈ records, r.kind ∈ BULK_RECORD_KINDS) (sizes : ∀ r ∈ records, r.payload.length < 2 ^ 32) :
    decodeRecords rounds (records.flatMap Frame.recordBytes) = .ok records := by
  induction records generalizing rounds with
  | nil =>
    obtain ⟨rounds, rfl⟩ := Nat.exists_eq_succ_of_ne_zero (by omega : rounds ≠ 0)
    rfl
  | cons r records ih =>
    obtain ⟨rounds, rfl⟩ := Nat.exists_eq_succ_of_ne_zero (by omega : rounds ≠ 0)
    rw [List.flatMap_cons, decodeRecords_record rounds r _ (kinds r List.mem_cons_self)
      (sizes r List.mem_cons_self), ih rounds (by simpa using h) (fun s hs => kinds s (List.mem_cons_of_mem r hs))
      fun s hs => sizes s (List.mem_cons_of_mem r hs)]
    rfl

/-- A batch has no more records than bytes. -/
theorem length_le_recordBytes (records : List Frame) :
    records.length ≤ (records.flatMap Frame.recordBytes).length := by
  induction records with
  | nil => exact Nat.le_refl 0
  | cons r records ih =>
    rw [List.flatMap_cons, List.length_append, length_recordBytes, List.length_cons]
    simp only [RECORD_HEADER_SIZE]
    omega

/-- A batch that fits a frame is decoded to its records. -/
theorem decodeBulkBatch_eq {records : List Frame} (kinds : ∀ r ∈ records, r.kind ∈ BULK_RECORD_KINDS)
    (fits : (records.flatMap Frame.recordBytes).length ≤ MAX_PAYLOAD) :
    decodeBulkBatch (records.flatMap Frame.recordBytes) = .ok records := by
  refine decodeRecords_eq records _ (Nat.lt_succ_of_le (length_le_recordBytes records)) kinds fun r hr => ?_
  have := payload_le_of_mem hr
  simp only [MAX_PAYLOAD] at fits
  omega

/-! ### Bytes in pieces -/

/-- The pieces hold `bytes`, and none of them is empty. -/
def Cut (pieces : List (List UInt8)) (bytes : List UInt8) : Prop :=
  (∀ piece ∈ pieces, piece ≠ []) ∧ pieces.flatten = bytes

/-- Nothing is cut into no pieces. -/
theorem Cut.nil : Cut [] [] := ⟨by simp, rfl⟩

/-- Pieces of two parts are pieces of the whole. -/
theorem Cut.append {as bs : List (List UInt8)} {xs ys : List UInt8} (h : Cut as xs) (h' : Cut bs ys) :
    Cut (as ++ bs) (xs ++ ys) := by
  refine ⟨fun piece hp => ?_, by rw [List.flatten_append, h.2, h'.2]⟩
  rcases List.mem_append.1 hp with hp | hp
  · exact h.1 piece hp
  · exact h'.1 piece hp

/-- One `recv` on pieces that are not used up yet. -/
theorem recvInto_cut {channel : FramedSocket π} {bytes : List UInt8} (h : Cut channel.incoming bytes)
    (hne : bytes ≠ []) {size : ℕ} (hsize : 0 < size) :
    ∃ n pieces, 0 < n ∧ n ≤ size ∧ n ≤ bytes.length ∧
      recvInto size channel = .ok (bytes.take n, { channel with incoming := pieces }) ∧
      Cut pieces (bytes.drop n) := by
  obtain ⟨hpieces, hflat⟩ := h
  cases hin : channel.incoming with
  | nil =>
    rw [hin] at hflat
    exact absurd hflat.symm hne
  | cons piece pieces =>
    rw [hin] at hpieces hflat
    have hpiece : 0 < piece.length := List.length_pos_iff.2 (hpieces piece List.mem_cons_self)
    have htail : ∀ p ∈ pieces, p ≠ [] := fun p hp => hpieces p (List.mem_cons_of_mem piece hp)
    rw [List.flatten_cons] at hflat
    refine ⟨min piece.length size, if piece.length ≤ size then pieces else piece.drop size :: pieces, by omega,
      by omega, ?_, ?_, ?_⟩
    · rw [← hflat, List.length_append]
      omega
    · have htake : piece.take size = bytes.take (min piece.length size) := by
        rw [← hflat, List.take_append_of_le_length (Nat.min_le_left _ _), List.take_eq_take_iff, Nat.min_comm,
          Nat.min_right_comm, Nat.min_self]
      rw [recvInto, hin, ← htake]
    · split_ifs with hle
      · rw [Nat.min_eq_left hle, ← hflat, List.drop_left]
        exact ⟨htail, rfl⟩
      · rw [Nat.min_eq_right (by omega), ← hflat, List.drop_append_of_le_length (by omega)]
        refine ⟨fun p hp => ?_, rfl⟩
        rcases List.mem_cons.1 hp with rfl | hp
        · exact List.ne_nil_of_length_pos (by rw [List.length_drop]; omega)
        · exact htail p hp

/-- The loop of `_receive_exact` with the bytes it is to bring in front. -/
theorem receiveLoop_cut (rounds : ℕ) {bs rest : List UInt8} (hrounds : bs.length ≤ rounds)
    (chunks : List UInt8) {channel : FramedSocket π} (h : Cut channel.incoming (bs ++ rest)) :
    ∃ pieces, receiveLoop rounds bs.length chunks channel =
        .ok (chunks ++ bs, { channel with incoming := pieces }) ∧ Cut pieces rest := by
  induction rounds generalizing bs chunks channel with
  | zero =>
    obtain rfl := List.length_eq_zero_iff.1 (Nat.le_zero.1 hrounds)
    exact ⟨channel.incoming, by rw [List.append_nil]; rfl, h⟩
  | succ rounds ih =>
    rcases Nat.eq_zero_or_pos bs.length with hzero | hpos
    · obtain rfl := List.length_eq_zero_iff.1 hzero
      exact ⟨channel.incoming, by rw [List.append_nil]; rfl, h⟩
    · obtain ⟨missing, hmissing⟩ := Nat.exists_eq_succ_of_ne_zero hpos.ne'
      have hne : bs ++ rest ≠ [] := fun h' => by simp [List.append_eq_nil_iff.1 h'] at hpos
      obtain ⟨n, pieces, hn, hsize, -, hrecv, hcut⟩ := recvInto_cut h hne (Nat.succ_pos missing)
      have hnbs : n ≤ bs.length := by omega
      rw [List.take_append_of_le_length hnbs] at hrecv
      rw [List.drop_append_of_le_length hnbs] at hcut
      have hlen : (bs.take n).length = n := by rw [List.length_take]; omega
      have hleft : missing + 1 - n = (bs.drop n).length := by rw [List.length_drop, hmissing]
      have hfew : (bs.drop n).length ≤ rounds := by rw [List.length_drop]; omega
      obtain ⟨pieces', hloop, hcut'⟩ := ih hfew (chunks ++ bs.take n)
        (show Cut ({ channel with incoming := pieces } : FramedSocket π).incoming _ from hcut)
      refine ⟨pieces', ?_, hcut'⟩
      rw [hmissing]
      show receiveLoop (rounds + 1) (missing + 1) chunks channel = _
      rw [receiveLoop, run_bind_ok hrecv, hlen, if_neg (by omega), hleft, hloop, List.append_assoc,
        List.take_append_drop]

/-- **`_receive_exact` is blind to the cuts.** -/
theorem receiveExact_cut {bs rest : List UInt8} {channel : FramedSocket π}
    (h : Cut channel.incoming (bs ++ rest)) :
    ∃ pieces, receiveExact bs.length channel = .ok (bs, { channel with incoming := pieces }) ∧
      Cut pieces rest := by
  obtain ⟨pieces, hloop, hcut⟩ := receiveLoop_cut bs.length (Nat.le_refl _) [] h
  exact ⟨pieces, hloop, hcut⟩

/-! ### Frames -/

/-- After a header that `send` built, `_receive_wire_frame` reads the payload. -/
theorem receiveWireFrame_header {frame : Frame} (hsize : frame.payload.length ≤ MAX_PAYLOAD)
    {channel channel' : FramedSocket π}
    (hheader : receiveExact HEADER_SIZE channel = .ok (packHeader frame.kind frame.payload.length, channel')) :
    receiveWireFrame channel = (do
      let payload ← receiveExact frame.payload.length
      pure ⟨frame.kind, payload⟩ : Framed π Frame) channel' := by
  have hread : uintAt (packHeader frame.kind frame.payload.length) 8 12 = frame.payload.length := by
    have hbytes : bytesAt (packHeader frame.kind frame.payload.length) 8 12 =
        BigEndian.encode 4 frame.payload.length := rfl
    rw [uintAt, hbytes]
    refine BigEndian.decode_encode ?_
    simp only [MAX_PAYLOAD] at hsize
    omega
  have hkind : ((packHeader frame.kind frame.payload.length).drop 5).headD 0 = frame.kind.code := rfl
  have hmagic : bytesAt (packHeader frame.kind frame.payload.length) 0 4 = MAGIC := rfl
  have hversion : uintAt (packHeader frame.kind frame.payload.length) 4 5 = VERSION.toNat := rfl
  have hflags : uintAt (packHeader frame.kind frame.payload.length) 6 8 = 0 := rfl
  rw [receiveWireFrame, run_bind_ok hheader, hread]
  simp only [hmagic, hversion, hflags, hkind, ne_eq, not_true_eq_false, if_false, FrameKind.ofCode?_code,
    Nat.not_lt.2 hsize]

/-- **A frame on the wire is received as it was sent.** -/
theorem receiveWireFrame_cut {frame : Frame} (hsize : frame.payload.length ≤ MAX_PAYLOAD) {rest : List UInt8}
    {channel : FramedSocket π} (h : Cut channel.incoming (frame.bytes ++ rest)) :
    ∃ pieces, receiveWireFrame channel = .ok (frame, { channel with incoming := pieces }) ∧ Cut pieces rest := by
  rw [Frame.bytes, List.append_assoc] at h
  obtain ⟨pieces₁, hheader, hcut₁⟩ := receiveExact_cut h
  obtain ⟨pieces₂, hpayload, hcut₂⟩ := receiveExact_cut
    (show Cut ({ channel with incoming := pieces₁ } : FramedSocket π).incoming _ from hcut₁)
  refine ⟨pieces₂, ?_, hcut₂⟩
  rw [length_packHeader] at hheader
  rw [receiveWireFrame_header hsize hheader, run_bind_ok hpayload]
  rfl

/-- The socket has packets to deliver, in whatever pieces, whose frames behind
the queued ones are `frames`. -/
def Ready (channel : FramedSocket π) (frames : List Frame) : Prop :=
  ∃ packets, Cut channel.incoming (wireBytes packets) ∧ frames = channel.pending ++ packets.flatMap Packet.frames

/-- The same with `tail` behind the packets. -/
def ReadyBefore (tail : List UInt8) (channel : FramedSocket π) (frames : List Frame) : Prop :=
  ∃ packets, Cut channel.incoming (wireBytes packets ++ tail) ∧
    frames = channel.pending ++ packets.flatMap Packet.frames

/-- Nothing is left to be delivered first. -/
theorem readyBefore_nil {channel : FramedSocket π} {frames : List Frame} :
    ReadyBefore [] channel frames ↔ Ready channel frames := by
  simp only [ReadyBefore, Ready, List.append_nil]

/-- The pieces are packets with these frames. -/
def Carries (pieces : List (List UInt8)) (frames : List Frame) : Prop :=
  ∃ packets, Cut pieces (wireBytes packets) ∧ packets.flatMap Packet.frames = frames

/-- Frames that fit can arrive one by one. -/
theorem carries_bytes {frames : List Frame}
    (h : ∀ frame ∈ frames, frame.kind ≠ .bulkBatch ∧ frame.payload.length ≤ MAX_PAYLOAD) :
    Carries (frames.map Frame.bytes) frames := by
  induction frames with
  | nil => exact ⟨[], Cut.nil, rfl⟩
  | cons frame frames ih =>
    obtain ⟨hkind, hfits⟩ := h frame List.mem_cons_self
    obtain ⟨packets, ⟨hpieces, hbytes⟩, hframes⟩ := ih fun f hf => h f (List.mem_cons_of_mem frame hf)
    refine ⟨.single frame hkind hfits :: packets, ⟨?_, ?_⟩, ?_⟩
    · rw [List.map_cons, List.forall_mem_cons]
      exact ⟨List.append_ne_nil_of_left_ne_nil (List.cons_ne_nil _ _) _, hpieces⟩
    · rw [List.map_cons, List.flatten_cons, hbytes]
      rfl
    · rw [List.flatMap_cons, hframes]
      rfl

/-- More pieces come in behind those that are there. -/
theorem Ready.arrive {channel : FramedSocket π} {xs ys : List Frame} (h : Ready channel xs)
    {pieces : List (List UInt8)} (hpieces : Carries pieces ys) (peer : π) :
    Ready { channel with peer := peer, incoming := channel.incoming ++ pieces } (xs ++ ys) := by
  obtain ⟨packets, hcut, rfl⟩ := h
  obtain ⟨packets', hcut', rfl⟩ := hpieces
  refine ⟨packets ++ packets', ?_, ?_⟩
  · rw [wireBytes_append]
    exact hcut.append hcut'
  · rw [List.flatMap_append, List.append_assoc]

/-- **The next frame.**  `receive` returns it and is ready for the others. -/
theorem receive_readyBefore {tail : List UInt8} {channel : FramedSocket π} {frame : Frame} {frames : List Frame}
    (h : ReadyBefore tail channel (frame :: frames)) :
    ∃ pieces pending, receive channel = .ok (frame, { channel with incoming := pieces, pending := pending }) ∧
      ReadyBefore tail { channel with incoming := pieces, pending := pending } frames := by
  obtain ⟨packets, hcut, hframes⟩ := h
  cases hpending : channel.pending with
  | cons first pending =>
    rw [hpending, List.cons_append] at hframes
    obtain ⟨rfl, rfl⟩ := List.cons.inj hframes
    refine ⟨channel.incoming, pending, ?_, packets, hcut, rfl⟩
    rw [receive, run_get_bind]
    simp only [hpending]
    rfl
  | nil =>
    rw [hpending, List.nil_append] at hframes
    cases packets with
    | nil => exact absurd hframes (List.cons_ne_nil _ _)
    | cons packet packets =>
      rw [wireBytes, List.flatMap_cons, List.append_assoc] at hcut
      obtain ⟨pieces, hwire, hcut'⟩ := receiveWireFrame_cut packet.length_carrier_le hcut
      rw [receive, run_get_bind]
      simp only [hpending]
      rw [run_bind_ok hwire, handOut]
      rw [List.flatMap_cons] at hframes
      cases packet with
      | single only hkind _ =>
        obtain ⟨rfl, rfl⟩ := List.cons.inj hframes
        refine ⟨pieces, [], ?_, packets, hcut', rfl⟩
        rw [Packet.carrier, if_pos hkind, ← hpending]
        rfl
      | bulk records nonempty kinds fits =>
        obtain ⟨first, rest, rfl⟩ := List.exists_cons_of_ne_nil nonempty
        obtain ⟨rfl, rfl⟩ := List.cons.inj hframes
        refine ⟨pieces, rest, ?_, packets, hcut', rfl⟩
        have hdecode := decodeBulkBatch_eq kinds fits
        rw [Packet.carrier, if_neg (fun h => h rfl)]
        simp only [hdecode]
        rfl

/-- A ready frame is received, and the others stay ready. -/
theorem receive_ready {channel : FramedSocket π} {frame : Frame} {frames : List Frame}
    (h : Ready channel (frame :: frames)) :
    ∃ pieces pending, receive channel = .ok (frame, { channel with incoming := pieces, pending := pending }) ∧
      Ready { channel with incoming := pieces, pending := pending } frames := by
  obtain ⟨pieces, pending, hreceive, hready⟩ := receive_readyBefore (readyBefore_nil.2 h)
  exact ⟨pieces, pending, hreceive, readyBefore_nil.1 hready⟩

/-! ### Routines that receive -/

/-- On a socket that has `frames` to deliver before others, the routine succeeds
with `a` and takes exactly them. -/
def Consumes {α : Type} (routine : Framed π α) (frames : List Frame) (a : α) : Prop :=
  ∀ channel rest, Ready channel (frames ++ rest) →
    ∃ channel', routine channel = .ok (a, channel') ∧ Ready channel' rest ∧ channel'.peer = channel.peer ∧
      channel'.reset = channel.reset

/-- A receive consumes one frame. -/
theorem consumes_receive (frame : Frame) : Consumes (receive : Framed π Frame) [frame] frame := by
  intro channel rest h
  obtain ⟨pieces, pending, hreceive, hready⟩ := receive_ready h
  exact ⟨_, hreceive, hready, rfl, rfl⟩

namespace Consumes

variable {α β : Type} {xs ys : List Frame}

/-- `pure` consumes nothing. -/
protected theorem pure (a : α) : Consumes (pure a : Framed π α) [] a :=
  fun channel _ h => ⟨channel, rfl, h, rfl, rfl⟩

/-- A lifted result consumes nothing. -/
theorem lift {x : Except CaptureError α} {a : α} (h : x = .ok a) : Consumes (liftM x : Framed π α) [] a := by
  subst h
  exact fun channel _ h => ⟨channel, rfl, h, rfl, rfl⟩

/-- **In sequence.** -/
protected theorem bind {m : Framed π α} {f : α → Framed π β} {a : α} {b : β} (hm : Consumes m xs a)
    (hf : Consumes (f a) ys b) : Consumes (m >>= f) (xs ++ ys) b := by
  intro channel rest h
  rw [List.append_assoc] at h
  obtain ⟨channel₁, hrun₁, hready₁, hpeer₁, hreset₁⟩ := hm channel _ h
  obtain ⟨channel₂, hrun₂, hready₂, hpeer₂, hreset₂⟩ := hf channel₁ _ hready₁
  exact ⟨channel₂, (run_bind_ok hrun₁).trans hrun₂, hready₂, hpeer₂.trans hpeer₁, hreset₂.trans hreset₁⟩

/-- A last step that receives nothing. -/
theorem bind_nil {m : Framed π α} {f : α → Framed π β} {a : α} {b : β} (hm : Consumes m xs a)
    (hf : Consumes (f a) [] b) : Consumes (m >>= f) xs b := by
  have h := hm.bind hf
  rwa [List.append_nil] at h

/-- A frame that is received first. -/
theorem receive_bind {f : Frame → Framed π β} {frame : Frame} {b : β} (hf : Consumes (f frame) ys b) :
    Consumes (receive >>= f) (frame :: ys) b := (consumes_receive frame).bind hf

/-- A computation that receives nothing first. -/
theorem lift_bind {x : Except CaptureError α} {f : α → Framed π β} {a : α} {b : β} (h : x = .ok a)
    (hf : Consumes (f a) ys b) : Consumes ((liftM x : Framed π α) >>= f) ys b := (lift h).bind hf

end Consumes

/-- `count` calls of `receive`, one after another. -/
def receiveMany : ℕ → Framed π (List Frame)
  | 0 => pure []
  | count + 1 => do
    let frame ← receive
    let frames ← receiveMany count
    pure (frame :: frames)

/-- **Everything that is on the wire** is received, in order. -/
theorem consumes_receiveMany (frames : List Frame) :
    Consumes (receiveMany frames.length : Framed π (List Frame)) frames frames := by
  induction frames with
  | nil => exact Consumes.pure []
  | cons frame frames ih =>
    exact Consumes.receive_bind (ih.bind_nil (Consumes.pure (frame :: frames)))

/-! ### The end of the stream -/

/-- Nothing is received where too little is there. -/
theorem receiveLoop_short (rounds : ℕ) {missing : ℕ} (chunks : List UInt8) {bytes : List UInt8}
    {channel : FramedSocket π} (h : Cut channel.incoming bytes) (hshort : bytes.length < missing)
    (hrounds : missing ≤ rounds) : ∃ e, receiveLoop rounds missing chunks channel = .error e := by
  induction rounds generalizing missing chunks bytes channel with
  | zero => omega
  | succ rounds ih =>
    obtain ⟨missing, rfl⟩ := Nat.exists_eq_succ_of_ne_zero (by omega : missing ≠ 0)
    rcases Nat.eq_zero_or_pos bytes.length with hzero | hpos
    · have hflat : channel.incoming.flatten = [] := by rw [h.2, List.length_eq_zero_iff.1 hzero]
      have hincoming : channel.incoming = [] := by
        cases hin : channel.incoming with
        | nil => rfl
        | cons piece pieces =>
          rw [hin, List.flatten_cons] at hflat
          exact absurd (List.append_eq_nil_iff.1 hflat).1 (h.1 piece (by rw [hin]; exact List.mem_cons_self))
      show ∃ e, receiveLoop (rounds + 1) (missing + 1) chunks channel = .error e
      cases hreset : channel.reset with
      | true =>
        have hrecv : recvInto (missing + 1) channel = .error .osError := by
          rw [recvInto, hincoming]
          simp only [hreset, if_true]
        exact ⟨_, run_bind_error hrecv⟩
      | false =>
        have hrecv : recvInto (missing + 1) channel = .ok ([], channel) := by
          rw [recvInto, hincoming]
          simp only [hreset, Bool.false_eq_true, if_false]
        rw [receiveLoop, run_bind_ok hrecv]
        exact ⟨_, rfl⟩
    · obtain ⟨n, pieces, hn, -, hle, hrecv, hcut⟩ :=
        recvInto_cut h (List.length_pos_iff.1 hpos) (Nat.succ_pos missing)
      have hlen : (bytes.take n).length = n := by rw [List.length_take]; omega
      have hleft : (bytes.drop n).length < missing + 1 - n := by rw [List.length_drop]; omega
      show ∃ e, receiveLoop (rounds + 1) (missing + 1) chunks channel = .error e
      rw [receiveLoop, run_bind_ok hrecv, hlen, if_neg (by omega)]
      exact ih (chunks ++ bytes.take n)
        (show Cut ({ channel with incoming := pieces } : FramedSocket π).incoming _ from hcut) hleft (by omega)

/-- A read of more than is there raises. -/
theorem receiveExact_short {size : ℕ} {bytes : List UInt8} {channel : FramedSocket π}
    (h : Cut channel.incoming bytes) (hshort : bytes.length < size) : ∃ e, receiveExact size channel = .error e :=
  receiveLoop_short size [] h hshort (Nat.le_refl size)

/-- **A frame that breaks off is never received.** -/
theorem receiveWireFrame_short {frame : Frame} (hsize : frame.payload.length ≤ MAX_PAYLOAD) {n : ℕ}
    (hn : n < frame.bytes.length) {channel : FramedSocket π} (h : Cut channel.incoming (frame.bytes.take n)) :
    ∃ e, receiveWireFrame channel = .error e := by
  have hlen : frame.bytes.length = HEADER_SIZE + frame.payload.length := by
    rw [Frame.bytes, List.length_append, length_packHeader]
  rcases Nat.lt_or_ge n HEADER_SIZE with hheader | hheader
  · obtain ⟨e, he⟩ := receiveExact_short h (show (frame.bytes.take n).length < HEADER_SIZE by
      rw [List.length_take]
      omega)
    exact ⟨e, run_bind_error he⟩
  · have hsplit : frame.bytes.take n =
        packHeader frame.kind frame.payload.length ++ frame.payload.take (n - HEADER_SIZE) := by
      rw [Frame.bytes, List.take_append, length_packHeader, List.take_of_length_le (by
        rw [length_packHeader]
        exact hheader)]
    rw [hsplit] at h
    obtain ⟨pieces, hread, hcut⟩ := receiveExact_cut h
    rw [length_packHeader] at hread
    obtain ⟨e, he⟩ := receiveExact_short
      (show Cut ({ channel with incoming := pieces } : FramedSocket π).incoming _ from hcut)
      (show (frame.payload.take (n - HEADER_SIZE)).length < frame.payload.length by
        rw [List.length_take]
        omega)
    refine ⟨e, ?_⟩
    rw [receiveWireFrame_header hsize hread]
    exact run_bind_error he

/-- A frame that breaks off is not received. -/
theorem receive_short {frame : Frame} (hsize : frame.payload.length ≤ MAX_PAYLOAD) {n : ℕ}
    (hn : n < frame.bytes.length) {channel : FramedSocket π} (h : ReadyBefore (frame.bytes.take n) channel []) :
    ∃ e, receive channel = .error e := by
  obtain ⟨packets, hcut, hframes⟩ := h
  obtain ⟨hpending, hnone⟩ := List.append_eq_nil_iff.1 hframes.symm
  have hpackets : packets = [] := by
    cases packets with
    | nil => rfl
    | cons packet packets =>
      rw [List.flatMap_cons] at hnone
      exact absurd (List.append_eq_nil_iff.1 hnone).1 packet.frames_ne_nil
  subst hpackets
  obtain ⟨e, he⟩ := receiveWireFrame_short hsize hn hcut
  refine ⟨e, ?_⟩
  rw [receive, run_get_bind]
  simp only [hpending]
  exact run_bind_error he

/-- The frames that `receive` returns until it raises, at most `count` of them. -/
def receivedFrames : ℕ → FramedSocket π → List Frame
  | 0, _ => []
  | count + 1, channel =>
    match receive channel with
    | .ok (frame, channel) => frame :: receivedFrames count channel
    | .error _ => []

/-- **Of packets and the start of another frame only the packets are received.** -/
theorem receivedFrames_short {frame : Frame} (hsize : frame.payload.length ≤ MAX_PAYLOAD) {n : ℕ}
    (hn : n < frame.bytes.length) {frames : List Frame} {count : ℕ} (hcount : frames.length ≤ count)
    {channel : FramedSocket π} (h : ReadyBefore (frame.bytes.take n) channel frames) :
    receivedFrames count channel = frames := by
  induction frames generalizing count channel with
  | nil =>
    cases count with
    | zero => rfl
    | succ count =>
      obtain ⟨e, he⟩ := receive_short hsize hn h
      rw [receivedFrames, he]
  | cons first frames ih =>
    rw [List.length_cons] at hcount
    obtain ⟨count, rfl⟩ := Nat.exists_eq_succ_of_ne_zero (by omega : count ≠ 0)
    obtain ⟨pieces, pending, hreceive, hready⟩ := receive_readyBefore h
    rw [receivedFrames, hreceive]
    exact congrArg (first :: ·) (ih (by omega) hready)

/-- Nothing more is received once the packets are used up. -/
theorem receive_exhausted {channel : FramedSocket π} (h : Ready channel []) (hreset : channel.reset = false) :
    receive channel = .error (.protocolError "agent disconnected with 12 bytes pending") := by
  obtain ⟨packets, hcut, hframes⟩ := h
  obtain ⟨hpending, hnone⟩ := List.append_eq_nil_iff.1 hframes.symm
  have hpackets : packets = [] := by
    cases packets with
    | nil => rfl
    | cons packet packets =>
      rw [List.flatMap_cons] at hnone
      exact absurd (List.append_eq_nil_iff.1 hnone).1 packet.frames_ne_nil
  have hincoming : channel.incoming = [] := by
    subst hpackets
    cases hin : channel.incoming with
    | nil => rfl
    | cons piece pieces =>
      rw [hin] at hcut
      have hflat : piece ++ pieces.flatten = [] := hcut.2
      exact absurd (List.append_eq_nil_iff.1 hflat).1 (hcut.1 piece List.mem_cons_self)
  have hrecv : recvInto 12 channel = .ok ([], channel) := by
    rw [recvInto, hincoming]
    simp only [hreset]
    rfl
  have hexact : receiveExact HEADER_SIZE channel =
      .error (.protocolError "agent disconnected with 12 bytes pending") := by
    rw [receiveExact, HEADER_SIZE]
    show receiveLoop 12 12 [] channel = _
    rw [receiveLoop, run_bind_ok hrecv]
    rfl
  rw [receive, run_get_bind]
  simp only [hpending]
  rw [receiveWireFrame]
  exact run_bind_error (run_bind_error hexact)

end Protocol
end Pydump
