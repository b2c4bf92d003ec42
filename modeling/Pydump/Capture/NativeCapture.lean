/-
# A capture with the native Agent

Both ends of the socket together: the Collector, and the Agent's turns on the process that
it runs in, with the bytes in whatever portions the sockets deliver them.  The Agent is honest about
the process (`honest_nativeAgent`), so that the walk ends; what the Collector has received
is then what the Agent has sent (`Performs.heard`), each object that was asked for with its
name and its size.

`native_capture` puts the ends together with the file: what the reader finds in it are the
objects of the process that can be found from the roots.
-/

import Pydump.Agent.Answering
import Pydump.Capture.GraphCapture

namespace Pydump
namespace Capture

open Agent (Granted Idle OPTIONS_SIZE Progress PyObject ReceiveOutcome Reliable SendOutcome Transport chunksFrom
  nativeAgent sessionMain)
open Analyzer (ContainerTypes)
open Protocol

/-! ### The process -/

/-- `content_kind`, by the type of the object. -/
def contentKind (known : ContainerTypes) (typeAddress : ℕ) : ContentKind :=
  if typeAddress = known.dict then .dict
  else if typeAddress = known.list then .list
  else if typeAddress = known.set then .set
  else if typeAddress = known.tuple then .tuple
  else .none

/-- The reader asks in another order. -/
theorem contentKind_eq_kindRead {known : ContainerTypes} (h : known.Distinct) (typeAddress : ℕ) :
    contentKind known typeAddress = Artifact.kindRead known typeAddress := by
  simp only [ContainerTypes.Distinct, List.nodup_cons, List.mem_cons, List.not_mem_nil, or_false, not_or] at h
  obtain ⟨⟨-, -, -⟩, ⟨hlistSet, hlistTuple⟩, hsetTuple, -⟩ := h
  unfold contentKind Artifact.kindRead
  by_cases hdict : typeAddress = known.dict
  · rw [if_pos hdict, if_pos hdict]
  · rw [if_neg hdict, if_neg hdict]
    split_ifs <;> first | rfl | omega

/-- The types that `send_well_known` takes the containers for. -/
def containerTypes (wellKnown : List ℕ) : ContainerTypes :=
  ⟨wellKnown.getD 2 0, wellKnown.getD 0 0, wellKnown.getD 3 0, wellKnown.getD 1 0⟩

/-- A CPython process that stands still, as the Agent finds it. -/
structure Process where
  memory : Memory
  pythonMajor : UInt8
  pythonMinor : UInt8
  nonce : List UInt8
  wellKnown : List ℕ
  gcObjects : List ℕ
  nonce_length : nonce.length = 16
  wellKnown_length : wellKnown.length = WELL_KNOWN_TYPE_NAMES.length
  wellKnown_nodup : wellKnown.Nodup
  wellKnown_nodes : ∀ a ∈ wellKnown, a ∈ memory.nodes
  gcObjects_nodes : ∀ a ∈ gcObjects, a ∈ memory.nodes
  kind_eq : ∀ a ∈ memory.nodes,
    (memory.objectAt a).kind = contentKind (containerTypes wellKnown) (memory.objectAt a).typeAddress

namespace Process

variable (process : Process)

/-- The process as the Agent sees it. -/
def target : Agent.Target where
  pythonMajor := process.pythonMajor
  pythonMinor := process.pythonMinor
  nonce := process.nonce
  wellKnown := process.wellKnown
  gcObjects := process.gcObjects
  objectAt := process.memory.objectAt

/-- The greeting as it is decoded. -/
def hello : Hello := ⟨process.pythonMajor.toNat, process.pythonMinor.toNat, 8, true, process.nonce⟩

/-- The greeting of the process is decoded. -/
theorem decodeHello_target : decodeHello process.target.helloPayload = .ok process.hello := by
  have hlength : process.target.helloPayload.length = HELLO_SIZE := by
    rw [Agent.Target.helloPayload, List.length_append]
    exact congrArg (4 + ·) process.nonce_length
  have hnonce : bytesAt process.target.helloPayload 4 20 = process.nonce :=
    List.take_of_length_le process.nonce_length.le
  have hbyte : ∀ byte : UInt8, BigEndian.decode [byte] = byte.toNat :=
    fun byte => by simp [BigEndian.decode, BigEndian.decodeFrom]
  have hmajor : uintAt process.target.helloPayload 0 1 = process.pythonMajor.toNat := hbyte _
  have hminor : uintAt process.target.helloPayload 1 2 = process.pythonMinor.toNat := hbyte _
  have hpointer : uintAt process.target.helloPayload 2 3 = 8 := hbyte 8
  have horder : uintAt process.target.helloPayload 3 4 = 1 := hbyte 1
  rw [decodeHello, if_neg (not_not.2 hlength)]
  simp only [hnonce, hmajor, hminor, hpointer, horder]
  rfl

/-- An address of the graph has 64 bits. -/
theorem word_of_mem {a : ℕ} (ha : a ∈ process.memory.nodes) : a < 2 ^ 64 := process.memory.graph.word a ha

/-- What the Agent says first. -/
def opening : Opening where
  helloPayload := process.target.helloPayload
  hello := process.hello
  wellKnownPayload := packAddresses process.wellKnown
  addresses := process.wellKnown
  rootPayloads := (chunksFrom [] process.gcObjects).map packAddresses
  roots := chunksFrom [] process.gcObjects
  rootsDone := []
  hello_eq := process.decodeHello_target
  addresses_eq := decodeAddresses_pack fun a ha => process.word_of_mem (process.wellKnown_nodes a ha)
  roots_eq := by
    refine ExceptLoop.mapM_of_forall₂ (List.forall₂_map_left_iff.2 (List.forall₂_same.2 fun chunk hchunk => ?_))
    refine decodeAddresses_pack fun a ha => process.word_of_mem (process.gcObjects_nodes a ?_)
    rw [← List.nil_append process.gcObjects, ← Agent.flatten_chunksFrom]
    exact List.mem_flatten.2 ⟨chunk, hchunk, ha⟩

/-- Where the walk begins. -/
def starts : List ℕ := process.gcObjects ++ process.wellKnown

/-- The opening starts where the process does. -/
theorem starts_opening : process.opening.starts = process.starts :=
  congrArg (· ++ process.wellKnown) (Agent.flatten_chunksFrom [] process.gcObjects)

/-- The opening starts at nodes of the graph. -/
theorem mem_nodes_of_starts : ∀ a ∈ nonzero process.opening.starts, a ∈ process.memory.graph.nodes := by
  intro a ha
  have hstart := List.mem_of_mem_filter ha
  rw [starts_opening] at hstart
  rcases List.mem_append.1 hstart with hroot | hknown
  · exact process.gcObjects_nodes a hroot
  · exact process.wellKnown_nodes a hknown

/-- The frames of the opening, as the session has them. -/
theorem openingFrames_eq :
    process.target.openingFrames = ⟨.wellKnown, process.opening.wellKnownPayload⟩ :: process.opening.rootFrames := by
  rw [Agent.Target.openingFrames, Agent.rootFrames, Opening.rootFrames, opening]
  dsimp only
  rw [List.map_map]
  rfl

/-- The objects at some addresses, as the Agent says them. -/
def objects (batch : List ℕ) : List HeapObject := batch.map fun a => objectOf (process.memory.objectAt a)

/-- The answer to a request. -/
def turn (batch : List ℕ) : Turn := ⟨batch.map fun a => reportOf (process.memory.objectAt a), []⟩

/-- A turn reports the objects of its batch. -/
theorem objects_turn (batch : List ℕ) : (process.turn batch).objects = process.objects batch := by
  rw [Turn.objects, turn, List.map_map]
  rfl

/-- A turn has the frames of the answer. -/
theorem frames_turn (batch : List ℕ) : (process.turn batch).frames = process.target.answerFrames batch := by
  rw [Turn.frames, turn, Agent.Target.answerFrames, List.flatMap_map, List.flatMap_map]
  rfl

/-- A request for objects of the process. -/
theorem request {batch : List ℕ} (hbatch : ∀ a ∈ batch, a ∈ process.memory.nodes)
    (hfits : 8 * batch.length ≤ MAX_PAYLOAD) : Agent.Request batch :=
  ⟨fun a ha => process.word_of_mem (hbatch a ha), hfits⟩

/-- **The native Agent is honest** once it serves requests. -/
theorem honest_nativeAgent (transport : Transport) : process.memory.graph.Honest process.opening
    (nativeAgent process.target transport) (fun _ => False) (fun state => state.1 = .serving ∧ Idle state.2) where
  acknowledge := fun _ _ h => h.elim
  answer := by
    rintro ⟨progress, session⟩ batch ⟨rfl, hidle⟩ hbatch hfits
    obtain ⟨hword, -⟩ := process.request hbatch hfits
    obtain ⟨session', packets, hidle', -, hframes, -, hrespond⟩ := Agent.respond_of_replies transport .serving
      (Agent.handleFrame_replies process.target hword hfits) (by decide) (.inl ⟨rfl, rfl⟩) hidle
    refine ⟨process.turn batch, (.serving, session'), ⟨rfl, hidle'⟩, ?_, ?_, _, hrespond, packets, transport.cuts_eq _,
      ?_⟩
    · rw [objects_turn, objects, List.map_map]
      exact (List.map_congr_left fun a ha => process.memory.address_eq a (hbatch a ha)).trans (List.map_id batch)
    · rw [objects_turn]
      intro obj hobj
      obtain ⟨a, ha, rfl⟩ := List.mem_map.1 hobj
      exact describes_objectOf (hbatch a ha)
    · rw [hframes, frames_turn]
  complete := by
    rintro ⟨progress, session⟩ ⟨rfl, hidle⟩
    obtain ⟨session', packets, -, -, hframes, -, hrespond⟩ := Agent.respond_of_replies transport .serving
      (Agent.handleFrame_finishes process.target) (by decide) (.inr ⟨rfl, rfl⟩) hidle
    exact ⟨[], _, _, hrespond, packets, transport.cuts_eq _, hframes⟩

end Process

/-- The socket to an Agent that has said `HELLO` and waits in `waiting`. -/
def nativeChannel (transport : Transport) (session waiting : Agent.Session) :
    RecordedSocket (Progress × Agent.Session) where
  incoming := transport.cuts (waiting.wire.drop session.wire.length)
  reset := false
  peer := ((.waiting, waiting), [])
  pending := []

/-! ### A session -/

/-- **A session between the two ends**: the search goes through it, it takes place on the
socket, and what is received are the objects that were asked for. -/
structure Process.Holds (process : Process) (transport : Transport) (orders : OrderChoice ℕ) (batchSize : ℕ)
    (options : List UInt8) (session waiting : Agent.Session) (turns : List Turn) (last : List UInt8)
    (final : Agent.Session) (channel' : RecordedSocket (Progress × Agent.Session)) : Prop where
  explores : Frontier.Explores HeapObject.address (discovered orders) (batchOf batchSize) (restOf batchSize)
    (process.opening.session turns last).start (turns.map Turn.objects)
  described : ∀ obj ∈ (process.opening.session turns last).objects, process.memory.graph.Describes obj
  requests : ∀ turn ∈ turns, 8 * turn.objects.length ≤ MAX_PAYLOAD
  performs : Performs (recording (nativeAgent process.target transport)) (nativeChannel transport session waiting)
    ((process.opening.session turns last).events options) channel'
  peer : channel'.peer = ((.ended, final), said ((process.opening.session turns last).events options))
  objects : (process.opening.session turns last).objects =
    process.objects (turns.map fun turn => turn.objects.map HeapObject.address).flatten
  converses : Agent.Converses process.target transport options
    (turns.map fun turn => turn.objects.map HeapObject.address) session waiting final

/-- What the frames of a session report is what the Agent has sent. -/
theorem Process.objects_of_frames (process : Process) {turns : List Turn} {last : List UInt8} {batches : List (List ℕ)}
    {rest : List Frame} (h : ⟨.hello, process.target.helloPayload⟩ :: (process.target.openingFrames ++
      (batches.flatMap process.target.answerFrames ++ [⟨.complete, []⟩])) =
        (process.opening.session turns last).frames ++ rest) :
    (process.opening.session turns last).objects = process.objects batches.flatten := by
  have hsent : ⟨.hello, process.target.helloPayload⟩ :: (process.target.openingFrames ++
      (batches.flatMap process.target.answerFrames ++ [⟨.complete, []⟩])) =
        (process.opening.session (batches.map process.turn) []).frames ++ [] := by
    have hturns : (batches.map process.turn).flatMap Turn.frames = batches.flatMap process.target.answerFrames := by
      rw [List.flatMap_map]
      exact List.flatMap_congr fun batch _ => process.frames_turn batch
    rw [process.openingFrames_eq, List.append_nil, Session.frames, Opening.rootFrames, Opening.session]
    dsimp only
    rw [hturns]
    rfl
  have hobjects := congrArg reportedObjects (hsent.symm.trans h)
  rw [reportedObjects_frames, reportedObjects_frames] at hobjects
  rw [← hobjects, Session.objects, Opening.session, List.flatMap_map, Process.objects, List.map_flatten,
    List.flatMap_def]
  exact congrArg List.flatten (List.map_congr_left fun batch _ => process.objects_turn batch)

/-- The Agent says `HELLO` and waits. -/
theorem Process.exists_waiting (process : Process) (transport : Transport) {session : Agent.Session}
    (hidle : Idle session) :
    ∃ waiting, Agent.sendHello process.target session = .ok (.ok, waiting) ∧ Idle waiting ∧
      Ready (nativeChannel transport session waiting) [⟨.hello, process.opening.helloPayload⟩] := by
  have hfits : process.target.helloPayload.length ≤ MAX_PAYLOAD :=
    Agent.Target.fits_helloPayload process.nonce_length.le
  obtain ⟨waiting, packets, hrun, hwaiting, hwire, hframes⟩ :=
    @Agent.sends_frame ⟨.hello, process.target.helloPayload⟩ (by simp) hfits session hidle
  have hsent : waiting.wire.drop session.wire.length = wireBytes packets := by rw [hwire, List.drop_left]
  have hcut := transport.cuts_eq (waiting.wire.drop session.wire.length)
  exact ⟨waiting, hrun, hwaiting, packets, ⟨hcut.1, hcut.2.trans hsent⟩, hframes.symm⟩

/-- **A whole session takes place.** -/
theorem Process.exists_holds (process : Process) (transport : Transport) (orders : OrderChoice ℕ) {batchSize : ℕ}
    (hone : 1 ≤ batchSize) (hbatch : 8 * batchSize ≤ MAX_PAYLOAD) {options : List UInt8}
    (hoptions : options.length = OPTIONS_SIZE) {session waiting : Agent.Session} (hidle : Idle session)
    (hhello : Agent.sendHello process.target session = .ok (.ok, waiting)) (hwaiting : Idle waiting)
    (hready : Ready (nativeChannel transport session waiting) [⟨.hello, process.opening.helloPayload⟩]) :
    ∃ turns last final channel',
      process.Holds transport orders batchSize options session waiting turns last final channel' := by
  have hwellKnown : 8 * process.target.wellKnown.length ≤ MAX_PAYLOAD := by
    rw [show process.target.wellKnown.length = 13 from process.wellKnown_length]
    decide
  obtain ⟨channel₁, hgreeting, hready₁, hpeer₁⟩ :=
    @performs_receipts _ (recording (nativeAgent process.target transport)) [⟨.hello, process.opening.helloPayload⟩] []
      _ hready
  obtain ⟨session₁, packets₁, hidle₁, -, hframes₁, -, hrespond₁⟩ := Agent.respond_of_replies transport .waiting
    (Agent.openSession_replies hwellKnown hoptions) (by decide) (.inl ⟨rfl, rfl⟩) hwaiting
  have hanswers₁ : (nativeAgent process.target transport).Answers channel₁.peer.1 ⟨.helloAck, options⟩
      (⟨.wellKnown, process.opening.wellKnownPayload⟩ :: process.opening.rootFrames) (.serving, session₁) := by
    rw [hpeer₁, ← process.openingFrames_eq]
    exact ⟨_, hrespond₁, packets₁, transport.cuts_eq _, hframes₁⟩
  obtain ⟨channel₂, hopened, hready₂, hpeer₂⟩ := hanswers₁.performs (by rw [hoptions]; decide) hready₁
  have htracks : (Frontier.empty.visitAll (nonzero process.opening.starts)).Tracks [] :=
    Frontier.tracks_empty.visitAll _
  have hseen : ∀ a ∈ (Frontier.empty.visitAll (nonzero process.opening.starts)).seen,
      a ∈ process.memory.graph.nodes := by
    intro a ha
    rcases Frontier.mem_seen_visitAll.1 ha with ha | ha
    · exact absurd ha (Finset.notMem_empty a)
    · exact process.mem_nodes_of_starts a ha
  obtain ⟨turns, channel₃, hexplores, hserved⟩ :=
    (process.honest_nativeAgent transport).exists_serves orders hone hbatch
    htracks hseen (show channel₂.peer.1.1 = .serving ∧ Idle channel₂.peer.1.2 by rw [hpeer₂]; exact ⟨rfl, hidle₁⟩)
      hready₂
  obtain ⟨last, state', hcompletes⟩ := (process.honest_nativeAgent transport).complete _ hserved.serving
  obtain ⟨channel₄, hfinished, -, hpeer₄⟩ := hcompletes.performs (Nat.zero_le _) hserved.ready
  have hevents : (process.opening.session turns last).events options =
      receipts [⟨.hello, process.opening.helloPayload⟩] ++
        ((.sent .helloAck options ::
            receipts (⟨.wellKnown, process.opening.wellKnownPayload⟩ :: process.opening.rootFrames)) ++
          (turns.flatMap Turn.events ++ (.sent .finish [] :: receipts [⟨.complete, last⟩]))) := rfl
  have hperf : Performs (recording (nativeAgent process.target transport)) (nativeChannel transport session waiting)
      ((process.opening.session turns last).events options) channel₄ := by
    rw [hevents]
    exact hgreeting.append (hopened.append (hserved.performs.append hfinished))
  -- the Agent has gone through the turns for these requests
  let batches := turns.map fun turn => turn.objects.map HeapObject.address
  have hrequests : ∀ batch ∈ batches, Agent.Request batch := by
    intro batch hmem
    obtain ⟨turn, hturn, rfl⟩ := List.mem_map.1 hmem
    exact ⟨fun a ha => Turn.address_lt a ha, by rw [List.length_map]; exact hserved.requests turn hturn⟩
  obtain ⟨waiting', final, hconverses⟩ :=
    Agent.sessionMain_requests transport process.nonce_length.le hwellKnown hoptions hrequests hidle
  obtain rfl : waiting' = waiting := by
    have hsame := hconverses.hello.symm.trans hhello
    cases hsame
    rfl
  have hspoken := hconverses.spoken
  obtain ⟨hfinal, rest, hheard⟩ := hperf.heard (by
    rw [Session.said_events]
    exact hspoken) hready
  refine ⟨turns, last, final, channel₄, hexplores, hserved.described, hserved.requests, hperf, ?_, ?_, hconverses⟩
  · refine Prod.ext hfinal ?_
    rw [hpeer₄, hserved.log, hpeer₂, hpeer₁, hevents, said_append, said_append, said_append, said_receipts, said, said,
      said_receipts, said_receipts]
    simp only [nativeChannel, List.nil_append, List.append_assoc]
  · rw [Session.heard_events] at hheard
    exact process.objects_of_frames hheard

/-! ### The file -/

namespace Session

variable {session : Session}

/-- The well-known types stand at their positions. -/
theorem find?_wellKnown (hcount : session.addresses.length = WELL_KNOWN_TYPE_NAMES.length) {i : ℕ} {name : String}
    (hname : WELL_KNOWN_TYPE_NAMES[i]? = some name) :
    session.wellKnownTypes.find? name = some (session.addresses.getD i 0) := by
  have hnames : (WELL_KNOWN_TYPE_NAMES.zip session.addresses).map Prod.fst = WELL_KNOWN_TYPE_NAMES :=
    List.map_fst_zip (Nat.le_of_eq hcount.symm)
  have hentries : session.wellKnownTypes.entries = WELL_KNOWN_TYPE_NAMES.zip session.addresses :=
    OrderedDict.entries_ofPairs (by rw [hnames]; decide)
  have hlt : i < session.addresses.length := hcount ▸ (List.getElem?_eq_some_iff.1 hname).1
  rw [OrderedDict.find?_eq_some, hentries]
  refine List.mem_iff_getElem?.2 ⟨i, List.getElem?_zip_eq_some.2 ⟨hname, ?_⟩⟩
  rw [List.getD_eq_getElem?_getD, List.getElem?_eq_getElem hlt, Option.getD_some]

/-- The reader's container types are the Agent's. -/
theorem known_eq (hcount : session.addresses.length = WELL_KNOWN_TYPE_NAMES.length) :
    session.known = containerTypes session.addresses := by
  unfold known
  rw [@find?_wellKnown session hcount 2 "dict" rfl, @find?_wellKnown session hcount 0 "list" rfl,
    @find?_wellKnown session hcount 3 "set" rfl, @find?_wellKnown session hcount 1 "tuple" rfl]
  rfl

end Session

/-- The container types of the process are distinct. -/
theorem Process.distinct_containerTypes (process : Process) : (containerTypes process.wellKnown).Distinct := by
  have hlength : process.wellKnown.length = 13 := process.wellKnown_length
  have hne : ∀ i j, i < 13 → j < 13 → i ≠ j → process.wellKnown.getD i 0 ≠ process.wellKnown.getD j 0 := by
    intro i j hi hj hij h
    have hi' : i < process.wellKnown.length := hlength ▸ hi
    have hj' : j < process.wellKnown.length := hlength ▸ hj
    rw [List.getD_eq_getElem?_getD, List.getD_eq_getElem?_getD, List.getElem?_eq_getElem hi',
      List.getElem?_eq_getElem hj', Option.getD_some, Option.getD_some] at h
    exact hij (process.wellKnown_nodup.getElem_inj_iff.1 h)
  simp only [ContainerTypes.Distinct, containerTypes, List.nodup_cons, List.mem_cons, List.not_mem_nil, or_false,
    not_or, not_false_eq_true, List.nodup_nil, and_true]
  exact ⟨⟨hne 2 0 (by decide) (by decide) (by decide), hne 2 3 (by decide) (by decide) (by decide),
    hne 2 1 (by decide) (by decide) (by decide)⟩, ⟨hne 0 3 (by decide) (by decide) (by decide),
    hne 0 1 (by decide) (by decide) (by decide)⟩, hne 3 1 (by decide) (by decide) (by decide)⟩

/-- The kinds that the Agent says are those that the reader finds. -/
theorem Process.kindsAgree (process : Process) {turns : List Turn} {last : List UInt8} {batch : List ℕ}
    (hbatch : ∀ a ∈ batch, a ∈ process.memory.nodes)
    (hobjects : (process.opening.session turns last).objects = process.objects batch) :
    (process.opening.session turns last).KindsAgree := by
  intro obj hobj
  rw [hobjects] at hobj
  obtain ⟨a, ha, rfl⟩ := List.mem_map.1 hobj
  have hcount : (process.opening.session turns last).addresses.length = WELL_KNOWN_TYPE_NAMES.length :=
    process.wellKnown_length
  rw [Session.known_eq hcount]
  refine ⟨?_, own_objectOf _⟩
  show (process.memory.objectAt a).kind = Artifact.kindRead (containerTypes process.wellKnown) _
  rw [process.kind_eq a (hbatch a ha), contentKind_eq_kindRead process.distinct_containerTypes]
  rfl

/-! ### A capture -/

/-- **What is promised of a capture** with the native Agent.  The capture returns once its
loops have rounds enough, and the Agent has ended its session.  The file holds the objects
that can be found from the roots, each once and as the Agent knows it.  And the Agent would
have sent the same on the requests as one stream, in whatever portions they arrive. -/
structure Process.Captures (process : Process) (transport : Transport) (orders : OrderChoice ℕ) (collector : Collector)
    (now : String) (session waiting : Agent.Session) (options : List UInt8) (batches : List (List ℕ))
    (file : List UInt8) (final : Agent.Session) : Prop where
  returns : ∃ (channel' : RecordedSocket (Progress × Agent.Session)) (bound : ℕ),
    channel'.peer = ((.ended, final), (requests options batches).map Frame.bytes) ∧ ∀ rounds, bound < rounds →
      captureObjects (recording (nativeAgent process.target transport)) orders collector now rounds
        (nativeChannel transport session waiting) = .ok ((file, batches.flatten.length), channel')
  decodes : Decodes file (process.objects batches.flatten)
  threadless : ∀ heap, Analyzer.readHeap file = .ok heap → heap.threads = []
  nodup : batches.flatten.Nodup
  reached : ∀ a, a ∈ batches.flatten ↔ process.memory.graph.Reached process.starts a
  runs : ∀ receives, Agent.arrivingBytes receives = (requests options batches).flatMap Frame.bytes →
    ∃ rest, sessionMain process.target ⟨session, receives⟩ = .ok ((), ⟨final, rest⟩)

/-- The options have a fixed size. -/
theorem length_encodeOptions {strReprLen : ℤ} {dumpAttributes : Bool} {options : List UInt8}
    (h : encodeOptions strReprLen dumpAttributes = .ok options) : options.length = OPTIONS_SIZE := by
  rw [encodeOptions, if_pos (options_range h)] at h
  cases h
  rw [List.length_append, BigEndian.length_encode, List.length_singleton]
  rfl

/-- **What fits is captured.** -/
theorem Process.Holds.captures {process : Process} {transport : Transport} {orders : OrderChoice ℕ}
    {collector : Collector} {options : List UInt8} {session waiting : Agent.Session} {turns : List Turn}
    {last : List UInt8} {final : Agent.Session} {channel' : RecordedSocket (Progress × Agent.Session)}
    (h : process.Holds transport orders collector.batchSize options session waiting turns last final channel')
    (hencode : encodeOptions collector.strReprLen collector.dumpAttributes = .ok options)
    (hproceeds : (process.opening.session turns last).Proceeds collector orders)
    (hfits : (process.opening.session turns last).Fits) (now : String) :
    process.Captures transport orders collector now session waiting options
      (turns.map fun turn => turn.objects.map HeapObject.address)
      ((process.opening.session turns last).artifact collector.strReprLen now) final := by
  let batches := turns.map fun turn => turn.objects.map HeapObject.address
  have haddresses : (process.opening.session turns last).objects.map HeapObject.address = batches.flatten := by
    rw [← List.flatMap_def, ← List.map_flatMap]
    rfl
  obtain ⟨hnodup, hreached⟩ := Session.mem_iff_reached h.explores h.described
  have hstarts : (process.opening.session turns last).roots.flatten ++ (process.opening.session turns last).addresses =
      process.starts := process.starts_opening
  rw [haddresses] at hnodup
  rw [hstarts, haddresses] at hreached
  have hnodes : ∀ a ∈ batches.flatten, a ∈ process.memory.nodes := fun a ha =>
    ObjectGraph.mem_nodes_of_reached process.mem_nodes_of_starts
      (by rw [process.starts_opening]; exact (hreached a).1 ha)
  have hcount : (process.opening.session turns last).objects.length = batches.flatten.length := by
    rw [← haddresses, List.length_map]
  have hcompletes := hproceeds.completes hencode hfits
  have hkinds := process.kindsAgree hnodes h.objects
  refine ⟨⟨channel', (process.opening.session turns last).frames.length, ?_, fun rounds hrounds => ?_⟩, ?_,
    fun heap hread => ?_, hnodup, hreached, h.converses.runs⟩
  · rw [h.peer, Session.said_events]
    rfl
  · rw [← hcount]
    exact hproceeds.returns hencode hfits now (Session.within_of_length hrounds) h.performs
  · rw [← h.objects]
    exact Session.decodes_artifact hcompletes hkinds now
  · have hheap := congrArg (Except.map Prod.fst) (Session.read_artifact hcompletes hkinds now)
    cases hread.symm.trans hheap
    rfl

section

variable (process : Process) (transport : Transport) {session waiting : Agent.Session} (hidle : Idle session)
  (hhello : Agent.sendHello process.target session = .ok (.ok, waiting)) (hwaiting : Idle waiting)
  (hready : Ready (nativeChannel transport session waiting) [⟨.hello, process.opening.helloPayload⟩])
  {collector : Collector} (hgreeting : checkHello collector process.hello = .ok ()) (hone : 1 ≤ collector.batchSize)
  (hbatch : 8 * collector.batchSize ≤ MAX_PAYLOAD) (orders : OrderChoice ℕ) (hoptions : OptionsFit collector)

include hidle hhello hwaiting hready hgreeting hone hbatch hoptions

/-- Where the options have an encoding the Collector goes through a session. -/
theorem Process.exists_proceeds : ∃ options turns last final channel',
    encodeOptions collector.strReprLen collector.dumpAttributes = .ok options ∧
      process.Holds transport orders collector.batchSize options session waiting turns last final channel' ∧
        (process.opening.session turns last).Proceeds collector orders ∧
          ((process.opening.session turns last).Fits ↔
            process.memory.graph.Fits process.starts process.wellKnown) := by
  obtain ⟨options, hencode⟩ := exists_options collector.dumpAttributes hoptions
  obtain ⟨turns, last, final, channel', holds⟩ := process.exists_holds transport orders hone hbatch
    (length_encodeOptions hencode) hidle hhello hwaiting hready
  refine ⟨options, turns, last, final, channel', hencode, holds,
    ⟨hgreeting, process.wellKnown_length, holds.explores, holds.requests⟩, ?_⟩
  rw [← process.starts_opening]
  exact Session.fits_iff holds.explores holds.described process.wellKnown_length process.mem_nodes_of_starts

/-- **A process that fits is captured.** -/
theorem Process.exists_captures (now : String) (hfits : process.memory.graph.Fits process.starts process.wellKnown) :
    ∃ options batches file final,
      process.Captures transport orders collector now session waiting options batches file final := by
  obtain ⟨options, turns, last, final, channel', hencode, holds, hproceeds, hiff⟩ := process.exists_proceeds transport
    hidle hhello hwaiting hready hgreeting hone hbatch orders hoptions
  exact ⟨options, _, _, final, holds.captures hencode hproceeds (hiff.2 hfits) now⟩

end

/-- **A capture with the native Agent** ends, in whatever portions the sockets deliver the
bytes, as long as no `send` and no `malloc` of the Agent fails.  With a HELLO that is accepted
and batches that fit a request it keeps what is promised where the options and the counts of
what can be reached have room in their fields, and raises elsewhere. -/
theorem native_capture (process : Process) (transport : Transport) {session : Agent.Session} (hidle : Idle session)
    {collector : Collector} (hgreeting : checkHello collector process.hello = .ok ()) (hone : 1 ≤ collector.batchSize)
    (hbatch : 8 * collector.batchSize ≤ MAX_PAYLOAD) (orders : OrderChoice ℕ) (now : String) :
    ∃ waiting, Agent.sendHello process.target session = .ok (.ok, waiting) ∧
      (OptionsFit collector ∧ process.memory.graph.Fits process.starts process.wellKnown → ∃ options batches file final,
        process.Captures transport orders collector now session waiting options batches file final) ∧
      (¬(OptionsFit collector ∧ process.memory.graph.Fits process.starts process.wellKnown) →
        Raises (nativeAgent process.target transport) orders collector now
          (nativeChannel transport session waiting)) := by
  obtain ⟨waiting, hhello, hwaiting, hready⟩ := process.exists_waiting transport hidle
  refine ⟨waiting, hhello, fun h => ?_, fun hnot => ?_⟩
  · exact process.exists_captures transport hidle hhello hwaiting hready hgreeting hone hbatch orders h.1 now h.2
  · by_cases hoptions : OptionsFit collector
    · obtain ⟨options, turns, last, final, channel', hencode, holds, hproceeds, hiff⟩ :=
        process.exists_proceeds transport
        hidle hhello hwaiting hready hgreeting hone hbatch orders hoptions
      refine ⟨(process.opening.session turns last).frames.length, fun rounds hrounds => ?_⟩
      exact hproceeds.raises hencode (fun h => hnot ⟨hoptions, hiff.1 h⟩) now (Session.within_of_length hrounds)
        holds.performs
    · refine ⟨0, fun rounds _ => ?_⟩
      obtain ⟨pieces, pending, hreceive, -⟩ := receive_ready hready
      exact captureObjects_options hreceive hgreeting hoptions orders now rounds

/-! ### A process with a list -/

/-- Bytes that arrive one by one. -/
theorem arrivingBytes_single (bytes : List UInt8) :
    Agent.arrivingBytes (bytes.map fun byte => .received [byte]) = bytes := by
  induction bytes with
  | nil => rfl
  | cons byte bytes ih =>
    rw [List.map_cons, Agent.arrivingBytes, if_neg (List.cons_ne_nil byte []), ih]
    rfl

/-- Bytes cut into single ones. -/
theorem cut_single (bytes : List UInt8) : Cut (bytes.map fun byte => [byte]) bytes :=
  ⟨by simp, (List.flatMap_def ..).symm.trans (List.flatMap_singleton' bytes)⟩

/-- Every byte arrives on its own. -/
def byteByByte : Transport where
  arrivals bytes := bytes.map fun byte => .received [byte]
  cuts bytes := bytes.map fun byte => [byte]
  arrivals_eq := arrivingBytes_single
  cuts_eq := cut_single

/-- The items are null or the list. -/
theorem sampleItems : ∀ item ∈ [20, 0, 20], item = 0 ∨ item = 20 := by decide

/-- The nodes are the list and the small addresses. -/
theorem mem_sampleNodes {a : ℕ} : a ∈ (sampleMemory [20, 0, 20] sampleItems).nodes ↔ a = 20 ∨ 0 < a ∧ a < 14 := by
  show a ∈ insert 20 ((Finset.range 14).erase 0) ↔ _
  rw [Finset.mem_insert, Finset.mem_erase, Finset.mem_range, Nat.pos_iff_ne_zero]

/-- The addresses of the well-known types. -/
def sampleWellKnown : List ℕ := [1, 2, 3, 4, 5, 6, 7, 8, 9, 10, 11, 12, 13]

/-- The nonce has 16 bytes. -/
theorem length_sampleNonce : (List.replicate 16 (0 : UInt8)).length = 16 := List.length_replicate

/-- Each well-known type has an address. -/
theorem length_sampleWellKnown : sampleWellKnown.length = WELL_KNOWN_TYPE_NAMES.length := rfl

/-- The well-known types are distinct. -/
theorem sampleWellKnown_nodup : sampleWellKnown.Nodup := by decide

/-- The well-known types are nodes. -/
theorem sampleWellKnown_nodes : ∀ a ∈ sampleWellKnown, a ∈ (sampleMemory [20, 0, 20] sampleItems).nodes := by
  intro a ha
  rw [mem_sampleNodes]
  revert a
  decide

/-- The collected objects are nodes. -/
theorem sampleGcObjects_nodes : ∀ a ∈ [20], a ∈ (sampleMemory [20, 0, 20] sampleItems).nodes := by
  intro a ha
  exact mem_sampleNodes.2 (.inl (List.mem_singleton.1 ha))

/-- The objects have the kind of their type. -/
theorem sampleKind : ∀ a ∈ (sampleMemory [20, 0, 20] sampleItems).nodes,
    ((sampleMemory [20, 0, 20] sampleItems).objectAt a).kind =
      contentKind (containerTypes sampleWellKnown) ((sampleMemory [20, 0, 20] sampleItems).objectAt a).typeAddress := by
  intro a _
  by_cases hlist : a = 20
  · rw [hlist]
    rfl
  · have hplain : (sampleMemory [20, 0, 20] sampleItems).objectAt a = plainObject (UInt8.ofNat a) 12 := if_neg hlist
    rw [hplain]
    rfl

/-- A process with a list that holds itself and a null pointer. -/
def sampleProcess : Process where
  memory := sampleMemory [20, 0, 20] sampleItems
  pythonMajor := 3
  pythonMinor := 12
  nonce := List.replicate 16 0
  wellKnown := sampleWellKnown
  gcObjects := [20]
  nonce_length := length_sampleNonce
  wellKnown_length := length_sampleWellKnown
  wellKnown_nodup := sampleWellKnown_nodup
  wellKnown_nodes := sampleWellKnown_nodes
  gcObjects_nodes := sampleGcObjects_nodes
  kind_eq := sampleKind

/-- The numbers of the sample fit the artifact. -/
theorem fits_sampleProcess : sampleProcess.memory.graph.Fits sampleProcess.starts sampleProcess.wellKnown := by
  have hcard : sampleProcess.memory.graph.nodes.card ≤ 14 :=
    (by decide : (insert 20 ((Finset.range 14).erase 0)).card ≤ 14)
  have hcount := (ObjectGraph.card_reached_le sampleProcess.memory.graph sampleProcess.starts).trans hcard
  refine ⟨fun a _ => ?_, hcount.trans (by decide), ?_⟩
  · show (factsOf (if a = 20 then listObject [20, 0, 20] sampleItems else plainObject (UInt8.ofNat a) 12)).Fits
    by_cases hlist : a = 20
    · rw [if_pos hlist]
      exact ⟨(by decide : 3 ≤ MAX_UINT32),
        (Finset.card_le_card Finset.sdiff_subset).trans (by decide : [20].toFinset.card ≤ MAX_UINT32)⟩
    · rw [if_neg hlist]
      exact ⟨Nat.zero_le _, (Finset.card_le_card Finset.sdiff_subset).trans (Nat.zero_le _)⟩
  · refine (Finset.card_union_le _ _).trans ?_
    have himage := @Finset.card_image_le _ _ (sampleProcess.memory.graph.reached sampleProcess.starts)
      (fun a => (sampleProcess.memory.graph.facts a).typeAddress) _
    have hknown : sampleProcess.wellKnown.toFinset.card = 13 := by decide
    rw [hknown, MAX_UINT32]
    omega

/-- A session in which every call does what it is asked for. -/
def freshSession : Agent.Session := ⟨[], [], [], .new⟩

/-- The session starts with nothing to send. -/
theorem idle_freshSession : Idle freshSession := ⟨Agent.RecordBatch.holds_new, by simp [freshSession, Reliable], by
  simp [freshSession, Granted]⟩

/-- The capture of the sample list over a byte at a time. -/
theorem native_capture_of_list : ∃ waiting options batches file final,
    sampleProcess.Captures byteByByte OrderChoice.ascending sampleCollector "" freshSession waiting options batches file
      final := by
  obtain ⟨waiting, -, hcaptures, -⟩ := @native_capture sampleProcess byteByByte freshSession idle_freshSession
    sampleCollector (by rfl) (by decide) (by decide) OrderChoice.ascending ""
  exact ⟨waiting, hcaptures ⟨⟨by decide, by decide⟩, fits_sampleProcess⟩⟩

end Capture
end Pydump
