/-
# What the Collector makes of frames

The payload codecs on what the Agent encodes, and `_receive_object` on the frames
of one object: `receiveFacts_consumes` says that the loop folds `addFacts` over
the frames before the `OBJECT_END` and takes no frame behind it.
-/

import Pydump.Capture.Collector
import Pydump.Protocol.SocketSpec

namespace Pydump
namespace Capture

open Protocol

variable {π : Type}

/-! ### Addresses -/

/-- Some addresses as a payload. -/
def packAddresses (addresses : List ℕ) : List UInt8 := addresses.flatMap (BigEndian.encode 8)

/-- An address takes eight bytes. -/
@[simp] theorem length_packAddresses (addresses : List ℕ) :
    (packAddresses addresses).length = 8 * addresses.length := by
  induction addresses with
  | nil => rfl
  | cons a addresses ih =>
    rw [packAddresses, List.flatMap_cons, List.length_append, BigEndian.length_encode, List.length_cons]
    rw [packAddresses] at ih
    omega

/-- Addresses of 64 bits are packed. -/
theorem encodeAddresses_eq {addresses : List ℕ} (h : ∀ a ∈ addresses, a < 2 ^ 64) :
    encodeAddresses addresses = .ok (packAddresses addresses) := if_pos h

/-- Packed addresses come back. -/
theorem unpackAddresses_pack {addresses : List ℕ} (h : ∀ a ∈ addresses, a < 2 ^ 64) :
    unpackAddresses addresses.length (packAddresses addresses) = addresses := by
  induction addresses with
  | nil => rfl
  | cons a addresses ih =>
    have hlen : (BigEndian.encode 8 a).length = ADDRESS_SIZE := BigEndian.length_encode _ _
    have ha : a < 256 ^ 8 := by simpa using h a List.mem_cons_self
    rw [packAddresses, List.flatMap_cons, List.length_cons, unpackAddresses, List.take_left' hlen,
      List.drop_left' hlen, BigEndian.decode_encode ha]
    exact congrArg (a :: ·) (ih fun b hb => h b (List.mem_cons_of_mem a hb))

/-- **Addresses survive the wire.** -/
theorem decodeAddresses_pack {addresses : List ℕ} (h : ∀ a ∈ addresses, a < 2 ^ 64) :
    decodeAddresses (packAddresses addresses) = .ok addresses := by
  rw [decodeAddresses, length_packAddresses, ADDRESS_SIZE, if_neg (by omega),
    Nat.mul_div_cancel_left _ (by decide), unpackAddresses_pack h]

/-- **So do pairs**, where none of them is cut. -/
theorem decodeDictEntries_pack {addresses : List ℕ} (h : ∀ a ∈ addresses, a < 2 ^ 64)
    (heven : addresses.length % 2 = 0) : decodeDictEntries (packAddresses addresses) = .ok (pairUp addresses) := by
  rw [decodeDictEntries, decodeAddresses_pack h]
  show (if addresses.length % 2 ≠ 0 then _ else _) = _
  rw [if_neg (not_not.2 heven)]

/-- Pairs behind an even number of values. -/
theorem pairUp_append {xs : List ℕ} (heven : xs.length % 2 = 0) (ys : List ℕ) :
    pairUp (xs ++ ys) = pairUp xs ++ pairUp ys := by
  fun_induction pairUp xs with
  | case1 key value rest ih =>
    simp only [List.length_cons] at heven
    rw [List.cons_append, List.cons_append, pairUp, ih (by omega), List.cons_append]
  | case2 xs hshort =>
    match xs with
    | [] => rfl
    | [a] => simp at heven
    | a :: b :: rest => exact absurd rfl (hshort a b rest)

/-! ### One object -/

/-- The placeholder only concerns the string. -/
theorem exists_placeholder (strReprLen : ℤ) (obj : HeapObject) :
    ∃ strRepr, placeholder strReprLen obj = { obj with strRepr := strRepr } := by
  unfold placeholder
  split_ifs
  · exact ⟨_, rfl⟩
  · exact ⟨obj.strRepr, rfl⟩

/-- `expect` consumes the frame it expects. -/
theorem consumes_expect {kind : FrameKind} (hkind : kind ≠ .error) (payload : List UInt8) :
    Consumes (expect kind : Framed π Frame) [⟨kind, payload⟩] ⟨kind, payload⟩ := by
  refine Consumes.receive_bind ?_
  rw [if_neg hkind, if_neg (not_not.2 rfl)]
  exact Consumes.pure _

/-- **The loop over the frames of an object.** -/
theorem receiveFacts_consumes (strReprLen : ℤ) (frames : List Frame) (payload : List UInt8) {obj obj' : HeapObject}
    (hfacts : frames.foldlM addFacts obj = .ok obj') (hkinds : ∀ frame ∈ frames, frame.kind ≠ .objectEnd)
    {rounds : ℕ} (hrounds : frames.length < rounds) :
    Consumes (receiveFacts strReprLen rounds obj : Framed π HeapObject) (frames ++ [⟨.objectEnd, payload⟩])
      (placeholder strReprLen obj') := by
  induction frames generalizing obj rounds with
  | nil =>
    obtain ⟨rounds, rfl⟩ := Nat.exists_eq_succ_of_ne_zero (by omega : rounds ≠ 0)
    cases hfacts
    refine Consumes.receive_bind ?_
    rw [if_pos rfl]
    exact Consumes.pure _
  | cons frame frames ih =>
    obtain ⟨rounds, rfl⟩ := Nat.exists_eq_succ_of_ne_zero (by omega : rounds ≠ 0)
    rw [List.foldlM_cons, ExceptLoop.bind_eq_ok] at hfacts
    obtain ⟨obj₁, hadd, hrest⟩ := hfacts
    rw [List.length_cons] at hrounds
    refine Consumes.receive_bind ?_
    rw [if_neg (hkinds frame List.mem_cons_self)]
    exact Consumes.lift_bind hadd (ih hrest (fun f hf => hkinds f (List.mem_cons_of_mem frame hf)) (by omega))

/-- **An object** whose frames start with its `OBJECT_BEGIN`. -/
theorem receiveObject_consumes (strReprLen : ℤ) {begin : ObjectBegin} {kind : ContentKind} {payload : List UInt8}
    (hbegin : decodeObjectBegin payload = .ok begin) (hkind : ContentKind.ofNat? begin.contentKind = some kind)
    (frames : List Frame) (last : List UInt8) {obj' : HeapObject}
    (hfacts : frames.foldlM addFacts {
      address := begin.address
      typeAddress := begin.typeAddress
      typeName := begin.typeName
      shallowSize := begin.shallowSize
      contentKind := kind } = .ok obj')
    (hkinds : ∀ frame ∈ frames, frame.kind ≠ .objectEnd) {rounds : ℕ} (hrounds : frames.length < rounds) :
    Consumes (receiveObject strReprLen rounds begin.address : Framed π HeapObject)
      (⟨.objectBegin, payload⟩ :: (frames ++ [⟨.objectEnd, last⟩])) (placeholder strReprLen obj') := by
  refine (consumes_expect (by decide) payload).bind (Consumes.lift_bind hbegin ?_)
  rw [if_neg (not_not.2 rfl), hkind]
  exact receiveFacts_consumes strReprLen frames last hfacts hkinds hrounds

/-! ### Runs of frames that add to one list -/

/-- Frames of one kind, each of which adds the addresses of its chunk. -/
theorem addFacts_chunks {kind : FrameKind} {add : HeapObject → List ℕ → HeapObject} {good : List ℕ → Prop}
    (hadd : ∀ obj chunk, good chunk → addFacts obj ⟨kind, packAddresses chunk⟩ = .ok (add obj chunk))
    (hnil : ∀ obj, add obj [] = obj)
    (happend : ∀ obj xs ys, good xs → add (add obj xs) ys = add obj (xs ++ ys))
    {chunks : List (List ℕ)} (h : ∀ chunk ∈ chunks, good chunk) (obj : HeapObject) :
    (chunks.map fun chunk => Frame.mk kind (packAddresses chunk)).foldlM addFacts obj =
      .ok (add obj chunks.flatten) := by
  induction chunks generalizing obj with
  | nil =>
    rw [List.flatten_nil, hnil]
    rfl
  | cons chunk chunks ih =>
    have hchunk := h chunk List.mem_cons_self
    rw [List.map_cons, List.foldlM_cons, ExceptLoop.bind_ok (hadd obj chunk hchunk),
      ih fun c hc => h c (List.mem_cons_of_mem chunk hc), List.flatten_cons, happend obj chunk _ hchunk]

/-- Frames of referents add them. -/
theorem addFacts_referents {chunks : List (List ℕ)} (h : ∀ chunk ∈ chunks, ∀ a ∈ chunk, a < 2 ^ 64)
    (obj : HeapObject) :
    (chunks.map fun chunk => Frame.mk .referents (packAddresses chunk)).foldlM addFacts obj =
      .ok { obj with referents := obj.referents ∪ chunks.flatten.toFinset } := by
  let add : HeapObject → List ℕ → HeapObject := fun obj xs => { obj with referents := obj.referents ∪ xs.toFinset }
  refine @addFacts_chunks _ add _ (fun obj chunk hchunk => ?_) (fun obj => ?_) (fun obj xs ys _ => ?_) _ h obj
  · rw [addFacts, decodeAddresses_pack hchunk]
    rfl
  · simp only [add, List.toFinset_nil, Finset.union_empty]
  · simp only [add, List.toFinset_append, Finset.union_assoc]

/-- Frames of a sequence add its items. -/
theorem addFacts_sequence {chunks : List (List ℕ)} (h : ∀ chunk ∈ chunks, ∀ a ∈ chunk, a < 2 ^ 64)
    (obj : HeapObject) :
    (chunks.map fun chunk => Frame.mk .sequenceContent (packAddresses chunk)).foldlM addFacts obj =
      .ok { obj with sequenceContent := obj.sequenceContent ++ chunks.flatten } := by
  let add : HeapObject → List ℕ → HeapObject := fun obj xs => { obj with sequenceContent := obj.sequenceContent ++ xs }
  refine @addFacts_chunks _ add _ (fun obj chunk hchunk => ?_) (fun obj => ?_) (fun obj xs ys _ => ?_) _ h obj
  · rw [addFacts, decodeAddresses_pack hchunk]
    rfl
  · simp only [add, List.append_nil]
  · simp only [add, List.append_assoc]

/-- Frames of a dict add its pairs. -/
theorem addFacts_dict {chunks : List (List ℕ)}
    (h : ∀ chunk ∈ chunks, (∀ a ∈ chunk, a < 2 ^ 64) ∧ chunk.length % 2 = 0) (obj : HeapObject) :
    (chunks.map fun chunk => Frame.mk .dictContent (packAddresses chunk)).foldlM addFacts obj =
      .ok { obj with dictContent := obj.dictContent ++ pairUp chunks.flatten } := by
  let add : HeapObject → List ℕ → HeapObject := fun obj xs => { obj with dictContent := obj.dictContent ++ pairUp xs }
  refine @addFacts_chunks _ add _ (fun obj chunk hchunk => ?_) (fun obj => ?_) (fun obj xs ys hxs => ?_) _ h obj
  · rw [addFacts, decodeDictEntries_pack hchunk.1 hchunk.2]
    rfl
  · simp only [add, pairUp, List.append_nil]
  · simp only [add, pairUp_append hxs.2, List.append_assoc]

end Capture
end Pydump
