/-
# Object facts survive the wire

`send_object` cuts the addresses of an object into chunks of at most 256 and sends
each as a record between an `OBJECT_BEGIN` and an `OBJECT_END`; `_receive_object`
puts them together again.  `chunksFrom` are the chunks, `objectFrames` the records
of an object, `sendObject_hands` says that these are what `send_object` hands over,
and `receiveObject_objectFrames` what the Collector makes of them.
-/

import Pydump.Agent.Batching
import Pydump.Capture.ReceiveSpec

namespace Pydump
namespace Agent

open Protocol (Frame FrameKind BULK_RECORD_KINDS Cut Ready Consumes bytesAt uintAt pairUp receive receiveMany
  consumes_receiveMany receive_exhausted decodeObjectBegin)
open Capture (ContentKind HeapObject packAddresses placeholder receiveObject addFacts)

/-! ### Chunks -/

/-- The chunks in which `values` and the addresses behind them are sent. -/
def chunksFrom (values : List ℕ) : List ℕ → List (List ℕ)
  | [] => if values = [] then [] else [values]
  | a :: addresses =>
    if values.length + 1 = IO_BATCH then (values ++ [a]) :: chunksFrom [] addresses
    else chunksFrom (values ++ [a]) addresses

/-- The chunks hold every address in its order. -/
theorem flatten_chunksFrom (values addresses : List ℕ) :
    (chunksFrom values addresses).flatten = values ++ addresses := by
  fun_induction chunksFrom values addresses with
  | case1 => rfl
  | case2 values _ => rw [List.flatten_singleton, List.append_nil]
  | case3 values a addresses _ ih => rw [List.flatten_cons, ih, List.nil_append, List.append_assoc]; rfl
  | case4 values a addresses _ ih => rw [ih, List.append_assoc]; rfl

/-- A chunk is never larger than the array of the stream. -/
theorem length_le_of_mem_chunksFrom {values addresses : List ℕ} (h : values.length < IO_BATCH) :
    ∀ chunk ∈ chunksFrom values addresses, chunk.length ≤ IO_BATCH := by
  fun_induction chunksFrom values addresses with
  | case1 => simp
  | case2 values _ =>
    intro chunk hchunk
    rw [List.mem_singleton.1 hchunk]
    exact h.le
  | case3 values a addresses hfull ih =>
    intro chunk hchunk
    rcases List.mem_cons.1 hchunk with rfl | hchunk
    · rw [List.length_append, List.length_singleton]
      omega
    · exact ih (by decide) chunk hchunk
  | case4 values a addresses hmore ih =>
    exact ih (by rw [List.length_append, List.length_singleton]; omega)

/-- **A chunk of keys and values never has an odd length**: 256 is even. -/
theorem even_of_mem_chunksFrom {values : List ℕ} {pairs : List (ℕ × ℕ)} (h : values.length % 2 = 0)
    (hlt : values.length < IO_BATCH) :
    ∀ chunk ∈ chunksFrom values (keysAndValues pairs), chunk.length % 2 = 0 := by
  induction pairs generalizing values with
  | nil =>
    intro chunk hchunk
    rw [keysAndValues, List.flatMap_nil, chunksFrom] at hchunk
    split_ifs at hchunk
    · cases hchunk
    · rwa [List.mem_singleton.1 hchunk]
  | cons pair pairs ih =>
    intro chunk hchunk
    have hkeys : keysAndValues (pair :: pairs) = pair.1 :: pair.2 :: keysAndValues pairs := rfl
    -- after the key alone the count is odd, so the stream is not full
    have hkey : ¬values.length + 1 = IO_BATCH := by
      simp only [IO_BATCH]
      omega
    have hlen : (values ++ [pair.1]).length = values.length + 1 := by simp
    rw [hkeys, chunksFrom, if_neg hkey, chunksFrom, hlen] at hchunk
    split_ifs at hchunk with hfull
    · rcases List.mem_cons.1 hchunk with rfl | hchunk
      · simp only [List.length_append, List.length_singleton]
        omega
      · exact ih rfl (by decide) chunk hchunk
    · refine ih ?_ ?_ chunk hchunk
      · simp only [List.length_append, List.length_singleton]
        omega
      · simp only [List.length_append, List.length_singleton]
        omega

/-- A chunk holds addresses of the stream only. -/
theorem mem_of_mem_chunksFrom {values addresses chunk : List ℕ} (hchunk : chunk ∈ chunksFrom values addresses)
    {a : ℕ} (ha : a ∈ chunk) : a ∈ values ++ addresses := by
  rw [← flatten_chunksFrom]
  exact List.mem_flatten.2 ⟨chunk, hchunk, ha⟩

/-! ### The address stream -/

/-- The record of one chunk. -/
def chunkFrame (kind : FrameKind) (chunk : List ℕ) : Frame := ⟨kind, packAddresses chunk⟩

/-- At the end what is left goes into a record. -/
theorem sendAddresses_nil (values : List ℕ) (kind : FrameKind) :
    sendAddresses [] ⟨values, kind⟩ = if values = [] then pure .ok else appendRecord kind (packAddresses values) := by
  funext session
  rw [sendAddresses, streamAddresses]
  by_cases hnil : values = []
  · rw [if_pos hnil]
    simp only [pure_bind, flushAddresses, hnil, List.length_nil, if_true]
  · rw [if_neg hnil]
    simp only [pure_bind, flushAddresses, List.length_eq_zero_iff, hnil, if_false, bind_assoc]
    exact congrFun (bind_pure _) session

/-- A chunk that is not full takes one address more. -/
theorem sendAddresses_cons_more {values : List ℕ} (h : values.length + 1 < IO_BATCH) (kind : FrameKind) (a : ℕ)
    (addresses : List ℕ) :
    sendAddresses (a :: addresses) ⟨values, kind⟩ = sendAddresses addresses ⟨values ++ [a], kind⟩ := by
  have hroom : values.length < IO_BATCH := by omega
  have hmore : ¬values.length + 1 = IO_BATCH := by omega
  rw [sendAddresses, streamAddresses, streamAddress]
  simp only [hroom, if_true, List.length_append, List.length_singleton, hmore, if_false, pure_bind]
  rfl

/-- A full chunk goes into a record. -/
theorem sendAddresses_cons_full {values : List ℕ} (h : values.length + 1 = IO_BATCH) (kind : FrameKind) (a : ℕ)
    (addresses : List ℕ) :
    sendAddresses (a :: addresses) ⟨values, kind⟩ =
      andThen (appendRecord kind (packAddresses (values ++ [a]))) (sendAddresses addresses ⟨[], kind⟩) := by
  have hroom : values.length < IO_BATCH := by omega
  rw [sendAddresses, streamAddresses, streamAddress]
  simp only [hroom, if_true, List.length_append, List.length_singleton, h, flushAddresses]
  rw [if_neg (by decide)]
  simp only [bind_assoc, pure_bind]
  rw [andThen]
  refine congrArg _ (funext fun status => ?_)
  cases status <;> rfl

/-- A chunk is handed over as one frame. -/
theorem hands_chunk {kind : FrameKind} (bulk : kind ∈ BULK_RECORD_KINDS) {chunk : List ℕ}
    (h : chunk.length ≤ IO_BATCH) : Hands (appendRecord kind (packAddresses chunk)) [chunkFrame kind chunk] := by
  refine (@append_hands (chunkFrame kind chunk) _ _ (List.append_nil _) bulk ?_).hands
  simp only [chunkFrame, Capture.length_packAddresses, RECORD_HEADER_SIZE, MAX_PAYLOAD]
  simp only [IO_BATCH] at h
  omega

/-- **A stream hands over its chunks.** -/
theorem sendAddresses_hands {kind : FrameKind} (bulk : kind ∈ BULK_RECORD_KINDS) (addresses : List ℕ)
    {values : List ℕ} (h : values.length < IO_BATCH) :
    Hands (sendAddresses addresses ⟨values, kind⟩) ((chunksFrom values addresses).map (chunkFrame kind)) := by
  induction addresses generalizing values with
  | nil =>
    rw [sendAddresses_nil, chunksFrom]
    by_cases hnil : values = []
    · rw [if_pos hnil, if_pos hnil]
      exact hands_pure
    · rw [if_neg hnil, if_neg hnil]
      exact hands_chunk bulk h.le
  | cons a addresses ih =>
    rw [chunksFrom]
    by_cases hfull : values.length + 1 = IO_BATCH
    · rw [if_pos hfull, sendAddresses_cons_full hfull]
      exact (hands_chunk bulk (by rw [List.length_append, List.length_singleton]; omega)).andThen (ih (by decide))
    · rw [if_neg hfull, sendAddresses_cons_more (by omega)]
      exact ih (by rw [List.length_append, List.length_singleton]; omega)

/-! ### The records of an object -/

/-- The name of the type, as far as it is sent. -/
def PyObject.sentName (object : PyObject) : List UInt8 := object.typeName.take (min object.typeName.length UINT16_MAX)

/-- The fixed part of an `OBJECT_BEGIN`. -/
def PyObject.beginFields (object : PyObject) : List UInt8 :=
  BigEndian.encode 8 object.address ++ (BigEndian.encode 8 object.typeAddress ++
    (BigEndian.encode 4 object.size ++ (BigEndian.encode 1 object.kind.toNat ++
      BigEndian.encode 2 (min object.typeName.length UINT16_MAX))))

/-- The records of the content. -/
def PyObject.contentFrames (object : PyObject) : List Frame :=
  match object.kind with
  | .dict => (chunksFrom [] (keysAndValues object.pairs)).map (chunkFrame .dictContent)
  | .list | .set | .tuple => (chunksFrom [] object.items).map (chunkFrame .sequenceContent)
  | .none => []

/-- The records between the first and the last. -/
def PyObject.factFrames (object : PyObject) : List Frame :=
  object.contentFrames ++ (chunksFrom [] object.visited).map (chunkFrame .referents)

/-- **The record stream of an object.** -/
def PyObject.objectFrames (object : PyObject) : List Frame :=
  ⟨.objectBegin, object.beginFields ++ object.sentName⟩ :: (object.factFrames ++ [⟨.objectEnd, []⟩])

/-- The fields of `OBJECT_BEGIN` take 23 bytes. -/
theorem length_beginFields (object : PyObject) : object.beginFields.length = 23 := by
  simp only [PyObject.beginFields, List.length_append, BigEndian.length_encode]

/-- The content of an object is handed over. -/
theorem sendContent_hands (object : PyObject) : Hands (sendContent object) object.contentFrames := by
  unfold sendContent PyObject.contentFrames
  cases object.kind with
  | none => exact hands_pure
  | dict => exact sendAddresses_hands (by decide) _ (by decide)
  | list => exact sendAddresses_hands (by decide) _ (by decide)
  | set => exact sendAddresses_hands (by decide) _ (by decide)
  | tuple => exact sendAddresses_hands (by decide) _ (by decide)

/-- **`send_object` hands over the records of the object.** -/
theorem sendObject_hands (object : PyObject) : Hands (sendObject object) object.objectFrames := by
  have hbegin : Hands (sendObjectBegin object) [⟨.objectBegin, object.beginFields ++ object.sentName⟩] := by
    have bulk : FrameKind.objectBegin ∈ BULK_RECORD_KINDS := by decide
    refine (@append_hands ⟨.objectBegin, object.beginFields ++ object.sentName⟩ _ _ rfl bulk ?_).hands
    rw [List.length_append, length_beginFields, PyObject.sentName, List.length_take]
    simp only [RECORD_HEADER_SIZE, MAX_PAYLOAD, UINT16_MAX]
    omega
  have hend : Hands (appendRecord .objectEnd []) [⟨.objectEnd, []⟩] :=
    (@append_hands ⟨.objectEnd, []⟩ _ _ rfl (by decide) (by decide)).hands
  have hreferents : Hands (sendReferents object) ((chunksFrom [] object.visited).map (chunkFrame .referents)) :=
    sendAddresses_hands (by decide) _ (by decide)
  have hframes : object.objectFrames = [⟨.objectBegin, object.beginFields ++ object.sentName⟩] ++
      (object.contentFrames ++ ((chunksFrom [] object.visited).map (chunkFrame .referents) ++ [⟨.objectEnd, []⟩])) := by
    simp only [PyObject.objectFrames, PyObject.factFrames, List.append_assoc, List.cons_append, List.nil_append]
  rw [hframes]
  exact hbegin.andThen ((sendContent_hands object).andThen (hreferents.andThen hend))

/-! ### What the Collector makes of them -/

/-- The object that `_receive_object` returns. -/
def PyObject.received (object : PyObject) (strReprLen : ℤ) : HeapObject :=
  placeholder strReprLen {
    address := object.address
    typeAddress := object.typeAddress
    typeName := Utf8.decode object.sentName
    shallowSize := object.size
    contentKind := object.kind
    sequenceContent := if object.kind = .list ∨ object.kind = .set ∨ object.kind = .tuple then object.items else []
    dictContent := if object.kind = .dict then object.pairs else []
    referents := object.visited.toFinset }

/-- Bytes behind a front of known length. -/
theorem bytesAt_skip {xs : List UInt8} {n : ℕ} (h : xs.length = n) (ys : List UInt8) (a b : ℕ) :
    bytesAt (xs ++ ys) (n + a) (n + b) = bytesAt ys a b := by
  rw [bytesAt, bytesAt, ← List.drop_drop, List.drop_left' h, Nat.add_sub_add_left]

/-- The front of known length. -/
theorem bytesAt_front {xs : List UInt8} {n : ℕ} (h : xs.length = n) (ys : List UInt8) :
    bytesAt (xs ++ ys) 0 n = xs := by
  rw [bytesAt, List.drop_zero, Nat.sub_zero, List.take_left' h]

/-- **An `OBJECT_BEGIN` is read as it was written.** -/
theorem decodeObjectBegin_eq (object : PyObject) :
    decodeObjectBegin (object.beginFields ++ object.sentName) = .ok {
      address := object.address
      typeAddress := object.typeAddress
      shallowSize := object.size
      contentKind := object.kind.toNat
      typeName := Utf8.decode object.sentName } := by
  have hlen := length_beginFields object
  have hdrop : (object.beginFields ++ object.sentName).drop 23 = object.sentName := List.drop_left' hlen
  have hname : object.sentName.length = min object.typeName.length UINT16_MAX := by
    rw [PyObject.sentName, List.length_take, Nat.min_eq_left (Nat.min_le_left _ _)]
  have hkind : object.kind.toNat < 256 ^ 1 := by cases object.kind <;> decide
  have hnameLt : min object.typeName.length UINT16_MAX < 256 ^ 2 := by
    simp only [UINT16_MAX]
    omega
  -- the five fields follow each other
  have hfields : object.beginFields ++ object.sentName =
      BigEndian.encode 8 object.address ++ (BigEndian.encode 8 object.typeAddress ++
        (BigEndian.encode 4 object.size ++ (BigEndian.encode 1 object.kind.toNat ++
          (BigEndian.encode 2 (min object.typeName.length UINT16_MAX) ++ object.sentName)))) := by
    simp only [PyObject.beginFields, List.append_assoc]
  have h₁ : uintAt (object.beginFields ++ object.sentName) 0 8 = object.address := by
    rw [uintAt, hfields, bytesAt_front (BigEndian.length_encode _ _)]
    exact BigEndian.decode_encode (by simpa using object.address_lt)
  have h₂ : uintAt (object.beginFields ++ object.sentName) (8 + 0) (8 + 8) = object.typeAddress := by
    rw [uintAt, hfields, bytesAt_skip (BigEndian.length_encode _ _), bytesAt_front (BigEndian.length_encode _ _)]
    exact BigEndian.decode_encode (by simpa using object.typeAddress_lt)
  have h₃ : uintAt (object.beginFields ++ object.sentName) (8 + (8 + 0)) (8 + (8 + 4)) = object.size := by
    rw [uintAt, hfields, bytesAt_skip (BigEndian.length_encode _ _), bytesAt_skip (BigEndian.length_encode _ _),
      bytesAt_front (BigEndian.length_encode _ _)]
    exact BigEndian.decode_encode (by simpa using object.size_lt)
  have h₄ : uintAt (object.beginFields ++ object.sentName) (8 + (8 + (4 + 0))) (8 + (8 + (4 + 1))) =
      object.kind.toNat := by
    rw [uintAt, hfields, bytesAt_skip (BigEndian.length_encode _ _), bytesAt_skip (BigEndian.length_encode _ _),
      bytesAt_skip (BigEndian.length_encode _ _), bytesAt_front (BigEndian.length_encode _ _)]
    exact BigEndian.decode_encode hkind
  have h₅ : uintAt (object.beginFields ++ object.sentName) (8 + (8 + (4 + (1 + 0)))) (8 + (8 + (4 + (1 + 2)))) =
      min object.typeName.length UINT16_MAX := by
    rw [uintAt, hfields, bytesAt_skip (BigEndian.length_encode _ _), bytesAt_skip (BigEndian.length_encode _ _),
      bytesAt_skip (BigEndian.length_encode _ _), bytesAt_skip (BigEndian.length_encode _ _),
      bytesAt_front (BigEndian.length_encode _ _)]
    exact BigEndian.decode_encode hnameLt
  norm_num at h₂ h₃ h₄ h₅
  rw [decodeObjectBegin, Protocol.OBJECT_BEGIN_SIZE, hdrop, if_neg (by rw [List.length_append, hlen]; omega), h₅,
    h₁, h₂, h₃, h₄]
  exact if_neg (not_not.2 hname)

/-- Keys and values side by side are pairs again. -/
theorem pairUp_keysAndValues (pairs : List (ℕ × ℕ)) : pairUp (keysAndValues pairs) = pairs := by
  induction pairs with
  | nil => rfl
  | cons pair pairs ih =>
    show pairUp (pair.1 :: pair.2 :: keysAndValues pairs) = _
    rw [pairUp, ih]

/-- Every address of a dictionary has 64 bits. -/
theorem keysAndValues_lt (object : PyObject) : ∀ a ∈ keysAndValues object.pairs, a < 2 ^ 64 := by
  intro a ha
  obtain ⟨pair, hpair, ha⟩ := List.mem_flatMap.1 ha
  obtain ⟨hkey, hvalue⟩ := object.pairs_lt pair hpair
  rcases List.mem_cons.1 ha with rfl | ha
  · exact hkey
  · rw [List.mem_singleton.1 ha]
    exact hvalue

/-- The addresses of every chunk have 64 bits. -/
theorem chunks_lt {addresses : List ℕ} (h : ∀ a ∈ addresses, a < 2 ^ 64) :
    ∀ chunk ∈ chunksFrom [] addresses, ∀ a ∈ chunk, a < 2 ^ 64 :=
  fun _ hchunk _ ha => h _ (by simpa using mem_of_mem_chunksFrom hchunk ha)

/-- **The records between the first and the last** add the content and the
referents. -/
theorem factFrames_addFacts (object : PyObject) (obj : HeapObject) (hsequence : obj.sequenceContent = [])
    (hdict : obj.dictContent = []) (hreferents : obj.referents = ∅) :
    object.factFrames.foldlM addFacts obj = .ok { obj with
      sequenceContent := if object.kind = .list ∨ object.kind = .set ∨ object.kind = .tuple then object.items else []
      dictContent := if object.kind = .dict then object.pairs else []
      referents := object.visited.toFinset } := by
  obtain ⟨address, typeAddress, typeName, size, kind, sequence, dict, referents, attributes, strRepr⟩ := obj
  subst hsequence hdict hreferents
  have hcontent : object.contentFrames.foldlM addFacts
      ⟨address, typeAddress, typeName, size, kind, [], [], ∅, attributes, strRepr⟩ =
        .ok ⟨address, typeAddress, typeName, size, kind,
          if object.kind = .list ∨ object.kind = .set ∨ object.kind = .tuple then object.items else [],
          if object.kind = .dict then object.pairs else [], ∅, attributes, strRepr⟩ := by
    have hitems := Capture.addFacts_sequence (chunks_lt object.items_lt)
      ⟨address, typeAddress, typeName, size, kind, [], [], ∅, attributes, strRepr⟩
    have hpairs := Capture.addFacts_dict (fun chunk hchunk => ⟨chunks_lt (keysAndValues_lt object) chunk hchunk,
      even_of_mem_chunksFrom rfl (by decide) chunk hchunk⟩)
      ⟨address, typeAddress, typeName, size, kind, [], [], ∅, attributes, strRepr⟩
    simp only [flatten_chunksFrom, List.nil_append] at hitems
    simp only [flatten_chunksFrom, List.nil_append, pairUp_keysAndValues] at hpairs
    unfold PyObject.contentFrames
    cases object.kind with
    | none => rfl
    | dict => exact hpairs
    | list => exact hitems
    | set => exact hitems
    | tuple => exact hitems
  have hvisited := fun obj => Capture.addFacts_referents (chunks_lt object.visited_lt) obj
  rw [PyObject.factFrames, List.foldlM_append, ExceptLoop.bind_ok hcontent]
  refine (hvisited _).trans ?_
  simp only [flatten_chunksFrom, List.nil_append, Finset.empty_union]

/-- The frames of the facts are of three kinds. -/
theorem kind_of_mem_factFrames {object : PyObject} {frame : Frame} (h : frame ∈ object.factFrames) :
    frame.kind = .dictContent ∨ frame.kind = .sequenceContent ∨ frame.kind = .referents := by
  rw [PyObject.factFrames, List.mem_append] at h
  rcases h with h | h
  · unfold PyObject.contentFrames at h
    split at h
    · obtain ⟨chunk, -, rfl⟩ := List.mem_map.1 h
      exact Or.inl rfl
    · obtain ⟨chunk, -, rfl⟩ := List.mem_map.1 h
      exact Or.inr (Or.inl rfl)
    · obtain ⟨chunk, -, rfl⟩ := List.mem_map.1 h
      exact Or.inr (Or.inl rfl)
    · obtain ⟨chunk, -, rfl⟩ := List.mem_map.1 h
      exact Or.inr (Or.inl rfl)
    · cases h
  · obtain ⟨chunk, -, rfl⟩ := List.mem_map.1 h
    exact Or.inr (Or.inr rfl)

/-- **`_receive_object` takes the records of one object** and returns its facts. -/
theorem receiveObject_objectFrames {π : Type} (object : PyObject) (strReprLen : ℤ) {rounds : ℕ}
    (hrounds : object.factFrames.length < rounds) :
    Consumes (receiveObject strReprLen rounds object.address : Protocol.Framed π HeapObject) object.objectFrames
      (object.received strReprLen) := by
  refine Capture.receiveObject_consumes strReprLen (decodeObjectBegin_eq object)
    (ContentKind.ofNat?_toNat object.kind) object.factFrames []
    (factFrames_addFacts object _ rfl rfl rfl) (fun frame hframe => ?_) hrounds
  rcases kind_of_mem_factFrames hframe with h | h | h <;> rw [h] <;> decide

/-! ### On the wire -/

/-- Some calls, left with the first that fails. -/
def callAll : List Call → Routine Status
  | [] => pure .ok
  | call :: calls => andThen call.run (callAll calls)

/-- The calls hand over their frames in order. -/
theorem callAll_hands (calls : List Call) : Hands (callAll calls) (calls.flatMap Call.frames) := by
  induction calls with
  | nil => exact hands_pure
  | cons call calls ih =>
    rw [List.flatMap_cons]
    exact call.hands.hands.andThen ih

/-- A session that sends an object among other things and flushes at the end. -/
def sendAmong (before after : List Call) (object : PyObject) : Routine Status :=
  andThen (andThen (callAll before) (andThen (sendObject object) (callAll after))) flushRecordBatch

/-- The `DICT_CONTENT` records of an object hold whole pairs. -/
theorem dictContent_even {object : PyObject} {frame : Frame} (h : frame ∈ object.objectFrames)
    (hkind : frame.kind = .dictContent) : ∃ chunk, frame.payload = packAddresses chunk ∧ chunk.length % 2 = 0 := by
  have hmem : frame ∈ object.contentFrames := by
    rw [PyObject.objectFrames, List.mem_cons, List.mem_append, PyObject.factFrames, List.mem_append] at h
    rcases h with rfl | (h | h) | h
    · cases hkind
    · exact h
    · obtain ⟨chunk, -, rfl⟩ := List.mem_map.1 h
      cases hkind
    · rw [List.mem_singleton.1 h] at hkind
      cases hkind
  unfold PyObject.contentFrames at hmem
  split at hmem
  · obtain ⟨chunk, hchunk, rfl⟩ := List.mem_map.1 hmem
    exact ⟨chunk, rfl, even_of_mem_chunksFrom rfl (by decide) chunk hchunk⟩
  · obtain ⟨chunk, -, rfl⟩ := List.mem_map.1 hmem
    cases hkind
  · obtain ⟨chunk, -, rfl⟩ := List.mem_map.1 hmem
    cases hkind
  · obtain ⟨chunk, -, rfl⟩ := List.mem_map.1 hmem
    cases hkind
  · cases hmem

/-- **Object facts survive the wire.**  A session sends an object among other
records and control frames.  Where every `send` and every `malloc` succeeds it
returns 0, and whenever it does, the Collector, however the bytes are cut, first
receives what was sent before the object, then `_receive_object` returns an object
with its facts, and what is left is what was sent after it.  No `DICT_CONTENT`
record of the object holds an odd number of addresses. -/
theorem object_facts_survive (before after : List Call) (object : PyObject) (strReprLen : ℤ)
    (sends : List SendOutcome) (mallocs : List Bool) :
    ∃ status session, sendAmong before after object (.start sends mallocs) = .ok (status, session) ∧
      (Reliable sends → Granted mallocs → status = .ok) ∧
      (∀ frame ∈ object.objectFrames, frame.kind = .dictContent →
        ∃ chunk, frame.payload = packAddresses chunk ∧ chunk.length % 2 = 0) ∧
      ∀ pieces rounds, status = .ok → Cut pieces session.wire → object.factFrames.length < rounds →
        ∃ channel₁ obj channel₂ channel₃,
          receiveMany (before.flatMap Call.frames).length (arriving pieces) =
            .ok (before.flatMap Call.frames, channel₁) ∧
          receiveObject strReprLen rounds object.address channel₁ = .ok (obj, channel₂) ∧
          (obj.address = object.address ∧ obj.typeAddress = object.typeAddress ∧
            obj.shallowSize = object.size ∧ obj.contentKind = object.kind ∧
            obj.typeName = Utf8.decode (object.typeName.take (min object.typeName.length 65535)) ∧
            (object.kind = .list ∨ object.kind = .set ∨ object.kind = .tuple → obj.sequenceContent = object.items) ∧
            (object.kind = .dict → obj.dictContent = object.pairs) ∧
            obj.referents = object.visited.toFinset) ∧
          receiveMany (after.flatMap Call.frames).length channel₂ = .ok (after.flatMap Call.frames, channel₃) ∧
          receive channel₃ = .error (.protocolError "agent disconnected with 12 bytes pending") := by
  have hbody := (callAll_hands before).andThen ((sendObject_hands object).andThen (callAll_hands after))
  obtain ⟨status, session, hrun, hout⟩ := hbody _ [] (handed_start sends mallocs)
  cases status with
  | failed =>
    refine ⟨.failed, session, run_andThen hrun, fun hr hg => absurd (hout.granted hr hg).1 (by decide),
      fun frame => dictContent_even, fun _ _ h => (by cases h)⟩
  | ok =>
    obtain ⟨packets, records, hsent, hframes⟩ := hout.handed rfl
    obtain ⟨session', hflush, hok, -⟩ := hsent.flush
    refine ⟨_, session', (run_andThen hrun).trans hflush, fun hr _ => status_reliable (hout.reliable hr) _,
      fun frame => dictContent_even, fun pieces rounds hstatus hcut hrounds => ?_⟩
    obtain ⟨packets', hsent', hall⟩ := hok hstatus
    rw [hframes, List.nil_append] at hall
    rw [hsent'.wire] at hcut
    have hready : Ready (arriving pieces) (before.flatMap Call.frames ++
        (object.objectFrames ++ (after.flatMap Call.frames ++ []))) :=
      ⟨packets', hcut, by rw [hall, List.append_nil]; rfl⟩
    obtain ⟨channel₁, hrun₁, hready₁, -, hreset₁⟩ := consumes_receiveMany _ _ _ hready
    obtain ⟨channel₂, hrun₂, hready₂, -, hreset₂⟩ :=
      receiveObject_objectFrames object strReprLen hrounds _ _ hready₁
    obtain ⟨channel₃, hrun₃, hready₃, -, hreset₃⟩ := consumes_receiveMany _ _ _ hready₂
    have hreset : channel₃.reset = false := hreset₃.trans (hreset₂.trans hreset₁)
    refine ⟨channel₁, object.received strReprLen, channel₂, channel₃, hrun₁, hrun₂, ?_, hrun₃,
      receive_exhausted hready₃ hreset⟩
    obtain ⟨strRepr, hreceived⟩ := Capture.exists_placeholder strReprLen _
    rw [PyObject.received, hreceived]
    exact ⟨rfl, rfl, rfl, rfl, rfl, fun h => if_pos h, fun h => if_pos h, rfl⟩

end Agent
end Pydump
