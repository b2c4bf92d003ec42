/-
# Captures of graphs

What `_capture` returns with an Agent that is honest about a graph.  `Collects` is what is
promised of it; it holds where the counts of what can be reached have room in the 32 bits
of their fields, and elsewhere the capture raises.

`servant` is an Agent that is honest, for any process that stands still: it sends the
frames of the native Agent.
-/

import Pydump.Agent.ObjectFacts
import Pydump.Capture.GraphWalk
import Pydump.Capture.Outcome

namespace Pydump
namespace Capture

open Agent (PyObject)
open Artifact (Fits32)
open ExceptLoop (run_bind_ok run_bind_error run_lift_bind run_lift_error)
open Protocol

variable {π : Type}

/-! ### An Agent that serves -/

/-- The content that the Agent reads. -/
def contentOfObject (object : PyObject) : Content :=
  match object.kind with
  | .none => .none
  | .dict => .dict object.pairs
  | .list => .list object.items
  | .set => .set object.items
  | .tuple => .tuple object.items

/-- The facts that the graph has of a Python object. -/
def factsOf (object : PyObject) : ObjectFacts := ⟨object.typeAddress, contentOfObject object, object.visited.toFinset⟩

/-- A process that stands still. -/
structure Memory where
  nodes : Finset ℕ
  objectAt : ℕ → PyObject
  address_eq : ∀ a ∈ nodes, (objectAt a).address = a
  closed : ∀ a ∈ nodes, ∀ b, (factsOf (objectAt a)).Mentions b → b ≠ 0 → b ∈ nodes

/-- The objects of the process. -/
def Memory.graph (memory : Memory) : ObjectGraph where
  nodes := memory.nodes
  facts a := factsOf (memory.objectAt a)
  closed := memory.closed
  word := by
    intro a ha
    have hlt := (memory.objectAt a).address_lt
    rwa [memory.address_eq a ha] at hlt

/-- An object as the Agent says it. -/
def objectOf (object : PyObject) : HeapObject where
  address := object.address
  typeAddress := object.typeAddress
  typeName := Utf8.decode object.sentName
  shallowSize := object.size
  contentKind := object.kind
  sequenceContent := if object.kind = .list ∨ object.kind = .set ∨ object.kind = .tuple then object.items else []
  dictContent := if object.kind = .dict then object.pairs else []
  referents := object.visited.toFinset

/-- The frames of the native Agent. -/
def reportOf (object : PyObject) : Report where
  payload := object.beginFields ++ object.sentName
  begin := ⟨object.address, object.typeAddress, object.size, object.kind.toNat, Utf8.decode object.sentName⟩
  kind := object.kind
  facts := object.factFrames
  last := []
  object := objectOf object
  begin_eq := Agent.decodeObjectBegin_eq object
  kind_eq := ContentKind.ofNat?_toNat object.kind
  object_eq := Agent.factFrames_addFacts object _ rfl rfl rfl
  inside := by
    intro frame hframe
    rcases Agent.kind_of_mem_factFrames hframe with h | h | h <;> rw [h] <;> decide

/-- The content of an object is that of its Python object. -/
theorem content_objectOf (object : PyObject) : Content.of (objectOf object) = contentOfObject object := by
  unfold Content.of contentOfObject objectOf
  dsimp only
  cases object.kind <;> rfl

/-- An object has the content of its kind alone. -/
theorem own_objectOf (object : PyObject) : OwnContent (objectOf object) := by
  unfold OwnContent objectOf
  dsimp only
  cases object.kind <;> simp

/-- The graph of the memory describes its objects. -/
theorem describes_objectOf {memory : Memory} {a : ℕ} (ha : a ∈ memory.nodes) :
    memory.graph.Describes (objectOf (memory.objectAt a)) := by
  have haddress : (objectOf (memory.objectAt a)).address = a := memory.address_eq a ha
  constructor
  · rw [haddress]
    rfl
  · rw [haddress, content_objectOf]
    rfl
  · exact own_objectOf _
  · rw [haddress]
    rfl

/-- The frames fit the wire. -/
theorem sendable_objectFrames (object : PyObject) :
    ∀ frame ∈ object.objectFrames, frame.kind ≠ .bulkBatch ∧ frame.payload.length ≤ MAX_PAYLOAD := by
  have hchunks {kind : FrameKind} (hkind : kind ≠ .bulkBatch) (addresses : List ℕ) :
      ∀ frame ∈ (Agent.chunksFrom [] addresses).map (Agent.chunkFrame kind),
        frame.kind ≠ .bulkBatch ∧ frame.payload.length ≤ MAX_PAYLOAD := by
    intro frame hframe
    obtain ⟨chunk, hchunk, rfl⟩ := List.mem_map.1 hframe
    have hlen := Agent.length_le_of_mem_chunksFrom (by decide) chunk hchunk
    refine ⟨hkind, ?_⟩
    simp only [Agent.chunkFrame, length_packAddresses, Agent.IO_BATCH, MAX_PAYLOAD] at hlen ⊢
    omega
  intro frame hframe
  rw [PyObject.objectFrames, List.mem_cons, List.mem_append, PyObject.factFrames, List.mem_append,
    List.mem_singleton] at hframe
  rcases hframe with rfl | (hframe | hframe) | rfl
  · refine ⟨by simp, ?_⟩
    simp only [List.length_append, Agent.length_beginFields, PyObject.sentName, List.length_take, Agent.UINT16_MAX,
      MAX_PAYLOAD]
    omega
  · unfold PyObject.contentFrames at hframe
    split at hframe
    · exact hchunks (by decide) _ frame hframe
    · exact hchunks (by decide) _ frame hframe
    · exact hchunks (by decide) _ frame hframe
    · exact hchunks (by decide) _ frame hframe
    · exact absurd hframe List.not_mem_nil
  · exact hchunks (by decide) _ frame hframe
  · exact ⟨by simp, Nat.zero_le _⟩

/-- **An Agent for a process that stands still.**  It sends its opening, then for each
request the objects, and acknowledges the `FINISH`. -/
def servant (memory : Memory) (opening : Opening) : Peer Bool where
  respond serving wire :=
    if serving = false then
      some (true, (⟨.wellKnown, opening.wellKnownPayload⟩ :: opening.rootFrames).map Frame.bytes)
    else if wire = (Frame.mk .finish []).bytes then some (true, [(Frame.mk .complete []).bytes])
    else
      match decodeAddresses (wire.drop HEADER_SIZE) with
      | .ok batch =>
        some (true, (batch.flatMap (fun a => (memory.objectAt a).objectFrames) ++
          [Frame.mk .batchDone []]).map Frame.bytes)
      | .error _ => none

/-- **It is honest.** -/
theorem honest_servant (memory : Memory) (opening : Opening)
    (hfits : ∀ frame ∈ (⟨.wellKnown, opening.wellKnownPayload⟩ :: opening.rootFrames : List Frame),
      frame.payload.length ≤ MAX_PAYLOAD) :
    memory.graph.Honest opening (servant memory opening) (· = false) (· = true) where
  acknowledge := by
    rintro state options rfl
    refine ⟨true, rfl, _, rfl, carries_bytes fun frame hframe => ⟨?_, hfits frame hframe⟩⟩
    rcases List.mem_cons.1 hframe with rfl | hframe
    · simp
    · rcases List.mem_append.1 hframe with hframe | hframe
      · obtain ⟨payload, -, rfl⟩ := List.mem_map.1 hframe
        simp
      · rw [List.mem_singleton.1 hframe]
        simp
  answer := by
    rintro state batch rfl hbatch -
    let turn : Turn := ⟨batch.map fun a => reportOf (memory.objectAt a), []⟩
    have hobjects : turn.objects = batch.map fun a => objectOf (memory.objectAt a) := by
      rw [Turn.objects, List.map_map]
      rfl
    have hframes : turn.frames = (batch.flatMap fun a => (memory.objectAt a).objectFrames) ++ [⟨.batchDone, []⟩] := by
      rw [Turn.frames, List.flatMap_map]
      rfl
    refine ⟨turn, true, rfl, ?_, ?_, turn.frames.map Frame.bytes, ?_, carries_bytes fun frame hframe => ?_⟩
    · rw [hobjects, List.map_map]
      exact (List.map_congr_left fun a ha => memory.address_eq a (hbatch a ha)).trans (List.map_id batch)
    · rw [hobjects]
      intro obj hobj
      obtain ⟨a, ha, rfl⟩ := List.mem_map.1 hobj
      exact describes_objectOf (hbatch a ha)
    · have hother : (Frame.mk .requestObjects (packAddresses batch)).bytes ≠ (Frame.mk .finish []).bytes := by
        intro h
        -- the sixth byte is the kind
        have hkind := congrArg (fun bytes => bytes.getD 5 0) h
        exact absurd hkind (by decide : FrameKind.requestObjects.code ≠ FrameKind.finish.code)
      have hpayload : (Frame.mk .requestObjects (packAddresses batch)).bytes.drop HEADER_SIZE = packAddresses batch :=
        List.drop_left' (length_packHeader _ _)
      have hdecode := decodeAddresses_pack fun a ha => memory.graph.word a (hbatch a ha)
      simp only [servant, Bool.true_eq_false, if_false, if_neg hother, hpayload, hdecode, hframes]
    · rw [hframes] at hframe
      rcases List.mem_append.1 hframe with hframe | hframe
      · obtain ⟨a, -, hframe⟩ := List.mem_flatMap.1 hframe
        exact sendable_objectFrames _ frame hframe
      · rw [List.mem_singleton.1 hframe]
        exact ⟨by simp, Nat.zero_le _⟩
  complete := by
    rintro state rfl
    refine ⟨[], true, [(Frame.mk .complete []).bytes], ?_, @carries_bytes [⟨.complete, []⟩] (by decide)⟩
    simp only [servant, Bool.true_eq_false, if_false, if_true]

/-! ### A capture of a graph -/

/-- **What is promised.**  The capture returns, once its loops have rounds enough.  Its
artifact has each object that can be reached once and no other, what the objects mention
are objects with their types in the table, and no address was asked for twice. -/
def Collects (graph : ObjectGraph) (opening : Opening) (peer : Peer π) (orders : OrderChoice ℕ) (collector : Collector)
    (now : String) (channel : RecordedSocket π) : Prop :=
  ∃ (turns : List Turn) (last options : List UInt8) (batches : List (List ℕ))
    (channel' : RecordedSocket π) (bound : ℕ),
    (∀ rounds, bound < rounds → captureObjects (recording peer) orders collector now rounds channel =
      .ok (((opening.session turns last).artifact collector.strReprLen now,
        (opening.session turns last).objects.length), channel')) ∧
    Collected graph opening.starts (opening.session turns last).types (opening.session turns last).objects ∧
    channel'.peer.2 = (requests options batches).map Frame.bytes ∧ batches.flatten.Nodup

/-- The capture raises, and not for want of rounds. -/
def Raises (peer : Peer π) (orders : OrderChoice ℕ) (collector : Collector) (now : String)
    (channel : RecordedSocket π) : Prop :=
  ∃ bound : ℕ, ∀ rounds, bound < rounds →
    ∃ e, e ≠ .diverged ∧ captureObjects (recording peer) orders collector now rounds channel = .error e

/-- The options have an encoding. -/
def OptionsFit (collector : Collector) : Prop := -2 ^ 31 ≤ collector.strReprLen ∧ collector.strReprLen < 2 ^ 31

/-- Options that have no encoding are not sent. -/
theorem captureObjects_options {opening : Opening} {peer : Peer π} {collector : Collector}
    {channel channel' : FramedSocket π}
    (hreceive : receive channel = .ok (⟨.hello, opening.helloPayload⟩, channel'))
    (hgreeting : checkHello collector opening.hello = .ok ()) (hout : ¬OptionsFit collector) (orders : OrderChoice ℕ)
    (now : String) (rounds : ℕ) :
    ∃ e, e ≠ .diverged ∧ captureObjects peer orders collector now rounds channel = .error e := by
  cases hencode : encodeOptions collector.strReprLen collector.dumpAttributes with
  | ok options => exact absurd (options_range hencode) hout
  | error e =>
    refine ⟨e, ?_, ?_⟩
    · rintro rfl
      exact encodeOptions_ne_diverged _ _ hencode
    · have hgreet : greet peer collector channel = .error e := by
        rw [greet, run_bind_ok (expect_eq_ok (by decide) hreceive)]
        exact (run_lift_bind opening.hello_eq).trans
          ((run_lift_bind hgreeting).trans (run_bind_error (run_lift_error hencode)))
      exact run_bind_error hgreet

section

variable {graph : ObjectGraph} {opening : Opening} {peer : Peer π} {waiting serving : π → Prop}
  (honest : graph.Honest opening peer waiting serving) {collector : Collector}
  (hgreeting : checkHello collector opening.hello = .ok ())
  (hcount : opening.addresses.length = WELL_KNOWN_TYPE_NAMES.length)
  (hstarts : ∀ a ∈ nonzero opening.starts, a ∈ graph.nodes) (hone : 1 ≤ collector.batchSize)
  (hbatch : 8 * collector.batchSize ≤ MAX_PAYLOAD) {channel : RecordedSocket π}
  (hwaiting : waiting channel.peer.1) (hready : Ready channel [⟨.hello, opening.helloPayload⟩]) (orders : OrderChoice ℕ)
  (now : String)

include honest hgreeting hcount hstarts hone hbatch hwaiting hready

/-- **A graph that fits is collected.** -/
theorem collects_of_fits (hlog : channel.peer.2 = []) (hoptions : OptionsFit collector)
    (hfits : graph.Fits opening.starts opening.addresses) :
    Collects graph opening peer orders collector now channel := by
  obtain ⟨options, hencode⟩ := exists_options collector.dumpAttributes hoptions
  obtain ⟨turns, last, channel', hexplores, hdescribed, hrequests, hperf, hsaid⟩ :=
    honest.exists_session orders hone hbatch hstarts hwaiting hready (length_options hencode)
  have hproceeds : (opening.session turns last).Proceeds collector orders := ⟨hgreeting, hcount, hexplores, hrequests⟩
  refine ⟨turns, last, options, turns.map fun turn => turn.objects.map HeapObject.address, channel',
    (opening.session turns last).frames.length, fun rounds hrounds => ?_, ?_, ?_, ?_⟩
  · exact hproceeds.returns hencode ((Session.fits_iff hexplores hdescribed hcount hstarts).2 hfits) now
      (Session.within_of_length hrounds) hperf
  · exact Session.collected hexplores hdescribed hcount
  · rw [hsaid, hlog, List.nil_append, Session.said_events]
    rfl
  · have hobjects : (opening.session turns last).objects.map HeapObject.address =
        (turns.map fun turn => turn.objects.map HeapObject.address).flatten := by
      rw [← List.flatMap_def, ← List.map_flatMap]
      rfl
    rw [← hobjects]
    exact (Session.mem_iff_reached hexplores hdescribed).1

/-- **In front of another the capture raises.** -/
theorem raises_of_not_fits (hnot : ¬(OptionsFit collector ∧ graph.Fits opening.starts opening.addresses)) :
    Raises peer orders collector now channel := by
  by_cases hoptions : OptionsFit collector
  · obtain ⟨options, hencode⟩ := exists_options collector.dumpAttributes hoptions
    obtain ⟨turns, last, channel', hexplores, hdescribed, hrequests, hperf, -⟩ :=
      honest.exists_session orders hone hbatch hstarts hwaiting hready (length_options hencode)
    have hproceeds : (opening.session turns last).Proceeds collector orders := ⟨hgreeting, hcount, hexplores, hrequests⟩
    refine ⟨(opening.session turns last).frames.length, fun rounds hrounds => ?_⟩
    have hfits : ¬(opening.session turns last).Fits := fun h =>
      hnot ⟨hoptions, (Session.fits_iff hexplores hdescribed hcount hstarts).1 h⟩
    exact hproceeds.raises hencode hfits now (Session.within_of_length hrounds) hperf
  · refine ⟨0, fun rounds _ => ?_⟩
    obtain ⟨pieces, pending, hreceive, -⟩ := receive_ready hready
    exact captureObjects_options hreceive hgreeting hoptions orders now rounds

end

/-- **A capture of a graph** with an honest Agent ends, whatever the batches.  It keeps what
is promised where the options and the counts of what can be reached have room in their
fields, and raises elsewhere. -/
theorem capture_of_graph {graph : ObjectGraph} {opening : Opening} {peer : Peer π} {waiting serving : π → Prop}
    (honest : graph.Honest opening peer waiting serving) {collector : Collector}
    (hgreeting : checkHello collector opening.hello = .ok ())
    (hcount : opening.addresses.length = WELL_KNOWN_TYPE_NAMES.length)
    (hstarts : ∀ a ∈ nonzero opening.starts, a ∈ graph.nodes) (hone : 1 ≤ collector.batchSize)
    (hbatch : 8 * collector.batchSize ≤ MAX_PAYLOAD) {channel : RecordedSocket π}
    (hwaiting : waiting channel.peer.1) (hlog : channel.peer.2 = [])
    (hready : Ready channel [⟨.hello, opening.helloPayload⟩]) (orders : OrderChoice ℕ) (now : String) :
    (OptionsFit collector ∧ graph.Fits opening.starts opening.addresses →
      Collects graph opening peer orders collector now channel) ∧
    (¬(OptionsFit collector ∧ graph.Fits opening.starts opening.addresses) →
      Raises peer orders collector now channel) :=
  ⟨fun h => collects_of_fits honest hgreeting hcount hstarts hone hbatch hwaiting hready orders now hlog h.1 h.2,
    raises_of_not_fits honest hgreeting hcount hstarts hone hbatch hwaiting hready orders now⟩

/-! ### A list that contains itself -/

/-- A byte is an address. -/
theorem byte_lt (byte : UInt8) : byte.toNat < 2 ^ 64 := by
  have := byte.toNat_lt
  omega

/-- The sample size has 32 bits. -/
theorem size_lt_32 : 32 < 2 ^ 32 := by decide

/-- No address is too large. -/
theorem addresses_lt_nil : ∀ a ∈ ([] : List ℕ), a < 2 ^ 64 := by simp

/-- No pair is too large. -/
theorem pairs_lt_nil : ∀ pair ∈ ([] : List (ℕ × ℕ)), pair.1 < 2 ^ 64 ∧ pair.2 < 2 ^ 64 := by simp

/-- An object without content. -/
def plainObject (address typeAddress : UInt8) : PyObject where
  address := address.toNat
  typeAddress := typeAddress.toNat
  size := 32
  typeName := []
  kind := .none
  items := []
  pairs := []
  visited := []
  address_lt := byte_lt address
  typeAddress_lt := byte_lt typeAddress
  size_lt := size_lt_32
  items_lt := addresses_lt_nil
  pairs_lt := pairs_lt_nil
  visited_lt := addresses_lt_nil

/-- The sample items are addresses. -/
theorem items_lt_of {items : List ℕ} (h : ∀ item ∈ items, item = 0 ∨ item = 20) : ∀ item ∈ items, item < 2 ^ 64 := by
  intro item hitem
  rcases h item hitem with rfl | rfl <;> decide

/-- A list at 20 of null pointers and of itself. -/
def listObject (items : List ℕ) (h : ∀ item ∈ items, item = 0 ∨ item = 20) : PyObject :=
  { plainObject 20 1 with
    kind := .list
    items := items
    visited := [20]
    items_lt := items_lt_of h
    visited_lt := items_lt_of (by decide : ∀ item ∈ [20], item = 0 ∨ item = 20) }

/-- A process with the list and the well-known types. -/
def sampleMemory (items : List ℕ) (h : ∀ item ∈ items, item = 0 ∨ item = 20) : Memory where
  nodes := insert 20 ((Finset.range 14).erase 0)
  objectAt a := if a = 20 then listObject items h else plainObject (UInt8.ofNat a) 12
  address_eq := by
    intro a ha
    rw [Finset.mem_insert, Finset.mem_erase, Finset.mem_range] at ha
    by_cases hlist : a = 20
    · rw [if_pos hlist, hlist]
      rfl
    · rw [if_neg hlist]
      show a % 256 = a
      omega
  closed := by
    intro a _ b hb hzero
    rw [Finset.mem_insert, Finset.mem_erase, Finset.mem_range]
    by_cases hlist : a = 20
    · rw [if_pos hlist] at hb
      rcases hb with hb | hb | hb
      · have hb : b ∈ [20] := List.mem_toFinset.1 hb
        rw [List.mem_singleton] at hb
        omega
      · have hb := h b hb
        omega
      · have hb : b = 1 := hb
        omega
    · rw [if_neg hlist] at hb
      rcases hb with hb | hb | hb
      · exact absurd (List.mem_toFinset.1 hb) List.not_mem_nil
      · exact absurd hb List.not_mem_nil
      · have hb : b = 12 := hb
        omega

/-- The list is a root four times, and so is a null pointer. -/
def sampleOpening : Opening :=
  { sampleSession .list with
    rootPayloads := [packAddresses [20, 20], packAddresses [0, 20]]
    roots := [[20, 20], [0, 20]]
    roots_eq := by
      rw [List.mapM_cons, decodeAddresses_pack (by decide), List.mapM_cons, decodeAddresses_pack (by decide)]
      rfl }

/-- An Agent that has said `HELLO`. -/
def servantChannel : RecordedSocket Bool :=
  ⟨[(Frame.mk .hello sampleOpening.helloPayload).bytes], false, (false, []), []⟩

/-- The servant has said its greeting. -/
theorem ready_servantChannel : Ready servantChannel [⟨.hello, sampleOpening.helloPayload⟩] := by
  obtain ⟨packets, hcut, hframes⟩ := @carries_bytes [⟨.hello, sampleOpening.helloPayload⟩] (by decide)
  exact ⟨packets, hcut, hframes.symm⟩

section

variable (items : List ℕ) (h : ∀ item ∈ items, item = 0 ∨ item = 20)

/-- The servant is honest about the sample. -/
theorem honest_sample : (sampleMemory items h).graph.Honest sampleOpening (servant (sampleMemory items h) sampleOpening)
    (· = false) (· = true) := honest_servant _ _ (by decide)

/-- The sample starts at its nodes. -/
theorem starts_sample : ∀ a ∈ nonzero sampleOpening.starts, a ∈ (sampleMemory items h).graph.nodes := by
  show ∀ a ∈ nonzero sampleOpening.starts, a ∈ insert 20 ((Finset.range 14).erase 0)
  decide

/-- The graph fits where the list does. -/
theorem fits_sample :
    (sampleMemory items h).graph.Fits sampleOpening.starts sampleOpening.addresses ↔ Fits32 items.length := by
  constructor
  · intro hfits
    exact (hfits.objects 20 ⟨20, by decide, .refl⟩).1
  · intro hitems
    have hcount : ((sampleMemory items h).graph.reached sampleOpening.starts).card ≤ 14 :=
      (ObjectGraph.card_reached_le _ _).trans (by decide : (insert 20 ((Finset.range 14).erase 0)).card ≤ 14)
    refine ⟨fun a _ => ?_, hcount.trans (by decide), ?_⟩
    · show (factsOf (if a = 20 then listObject items h else plainObject (UInt8.ofNat a) 12)).Fits
      by_cases hlist : a = 20
      · rw [if_pos hlist]
        have hvisited : (factsOf (listObject items h)).referents.card ≤ MAX_UINT32 :=
          (by decide : [20].toFinset.card ≤ MAX_UINT32)
        exact ⟨hitems, (Finset.card_le_card Finset.sdiff_subset).trans hvisited⟩
      · rw [if_neg hlist]
        exact ⟨Nat.zero_le _, (Finset.card_le_card Finset.sdiff_subset).trans (Nat.zero_le _)⟩
    · refine (Finset.card_union_le _ _).trans ?_
      have himage := @Finset.card_image_le _ _ ((sampleMemory items h).graph.reached sampleOpening.starts)
        (fun a => ((sampleMemory items h).graph.facts a).typeAddress) _
      have hknown : sampleOpening.addresses.toFinset.card = 13 := by decide
      rw [hknown, MAX_UINT32]
      omega

end

/-- A list that holds itself and a null pointer. -/
theorem capture_of_cycle :
    Collects (sampleMemory [20, 0, 20] (by decide)).graph sampleOpening
      (servant (sampleMemory [20, 0, 20] (by decide)) sampleOpening) OrderChoice.ascending sampleCollector ""
      servantChannel :=
  (capture_of_graph (honest_sample [20, 0, 20] (by decide)) (by rfl) rfl (starts_sample _ _) (by decide) (by decide)
    rfl rfl ready_servantChannel OrderChoice.ascending "").1
    ⟨⟨by decide, by decide⟩, (fits_sample _ _).2 (by decide : 3 ≤ MAX_UINT32)⟩

/-- As many null pointers as a field of 32 bits cannot count. -/
@[irreducible] def manyItems : List ℕ := List.replicate (2 ^ 32) 0

/-- The list has one item more than 32 bits can count. -/
theorem length_manyItems : manyItems.length = 2 ^ 32 := by
  unfold manyItems
  exact List.length_replicate

/-- The items are null or the list. -/
theorem mem_manyItems : ∀ item ∈ manyItems, item = 0 ∨ item = 20 := by
  unfold manyItems
  exact fun item hitem => .inl (List.eq_of_mem_replicate hitem)

/-- **A list that is too long** for the artifact is never collected. -/
theorem capture_of_long_list :
    ¬∀ (π : Type) (graph : ObjectGraph) (opening : Opening) (peer : Peer π) (waiting serving : π → Prop)
      (collector : Collector) (channel : RecordedSocket π) (orders : OrderChoice ℕ) (now : String),
      graph.Honest opening peer waiting serving → checkHello collector opening.hello = .ok () →
        opening.addresses.length = WELL_KNOWN_TYPE_NAMES.length → (∀ a ∈ nonzero opening.starts, a ∈ graph.nodes) →
          1 ≤ collector.batchSize → 8 * collector.batchSize ≤ MAX_PAYLOAD → waiting channel.peer.1 →
            channel.peer.2 = [] → Ready channel [⟨.hello, opening.helloPayload⟩] → OptionsFit collector →
              Collects graph opening peer orders collector now channel := by
  intro h
  have honest := honest_sample manyItems mem_manyItems
  have hstarts := starts_sample manyItems mem_manyItems
  obtain ⟨_, _, _, _, _, bound, hreturns, -⟩ := h Bool _ sampleOpening _ _ _ sampleCollector servantChannel
    OrderChoice.ascending "" honest (by rfl) rfl hstarts (by decide) (by decide) rfl rfl ready_servantChannel
    ⟨by decide, by decide⟩
  have hnot : ¬(OptionsFit sampleCollector ∧
      (sampleMemory manyItems mem_manyItems).graph.Fits sampleOpening.starts sampleOpening.addresses) := by
    rintro ⟨-, hfits⟩
    have hlen := (fits_sample manyItems mem_manyItems).1 hfits
    rw [length_manyItems] at hlen
    exact absurd hlen (by decide : ¬2 ^ 32 ≤ MAX_UINT32)
  obtain ⟨bound', hraises⟩ := raises_of_not_fits honest (by rfl) rfl hstarts (by decide) (by decide) rfl
    ready_servantChannel OrderChoice.ascending "" hnot
  have hreturn := hreturns (bound + bound' + 1) (by omega)
  obtain ⟨e, -, hraise⟩ := hraises (bound + bound' + 1) (by omega)
  rw [hreturn] at hraise
  cases hraise

end Capture
end Pydump
