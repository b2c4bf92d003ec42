/-
# Complete sessions

What an Agent has to say for a capture to be completed, as data: the `Report` of one
object, the `Turn` that answers one request, the `Session` with everything up to the
`COMPLETE`.  Each carries what its payloads decode to, so a report whose frames the
Collector would refuse cannot be built.

`Session.Completes` says when the Collector goes through a session to its end.  Its
walk over the graph is a search with a worklist, `Frontier.Explores`: the turns report
the objects that are pending, and what an object leads to is `discovered`.
-/

import Pydump.Artifact.Layout
import Pydump.Capture.ReceiveSpec
import Pydump.Lib.Worklist
import Pydump.Protocol.Conversation

namespace Pydump
namespace Capture

open Analyzer (ContainerTypes)
open Artifact (Fits32 ObjectFits layoutArtifact)
open Protocol (Event Frame FrameKind Hello MAX_PAYLOAD ObjectBegin decodeAddresses decodeHello decodeObjectBegin
  heard receipts told)

/-! ### One object -/

/-- An object to which nothing has been added. -/
def freshObject (begin : ObjectBegin) (kind : ContentKind) : HeapObject where
  address := begin.address
  typeAddress := begin.typeAddress
  typeName := begin.typeName
  shallowSize := begin.shallowSize
  contentKind := kind

/-- The frames that report one object, and the object as they say it. -/
structure Report where
  payload : List UInt8
  begin : ObjectBegin
  kind : ContentKind
  facts : List Frame
  last : List UInt8
  object : HeapObject
  begin_eq : decodeObjectBegin payload = .ok begin
  kind_eq : ContentKind.ofNat? begin.contentKind = some kind
  object_eq : facts.foldlM addFacts (freshObject begin kind) = .ok object
  inside : ∀ frame ∈ facts, frame.kind ≠ .objectEnd

/-- The frames that report an object. -/
def Report.frames (report : Report) : List Frame :=
  ⟨.objectBegin, report.payload⟩ :: (report.facts ++ [⟨.objectEnd, report.last⟩])

/-- **What a frame can add to an object.** -/
theorem addFacts_frame {obj obj' : HeapObject} {frame : Frame} (h : addFacts obj frame = .ok obj') :
    frame.kind ∈ [.referents, .sequenceContent, .dictContent, .preview, .warning] ∧
      obj' = { obj with
        sequenceContent := obj'.sequenceContent
        dictContent := obj'.dictContent
        referents := obj'.referents
        strRepr := obj'.strRepr } := by
  unfold addFacts at h
  cases hkind : frame.kind <;> rw [hkind] at h
  case referents =>
    obtain ⟨addresses, -, hobj⟩ := ExceptLoop.bind_eq_ok.1 h
    cases hobj
    exact ⟨by simp, rfl⟩
  case sequenceContent =>
    obtain ⟨addresses, -, hobj⟩ := ExceptLoop.bind_eq_ok.1 h
    cases hobj
    exact ⟨by simp, rfl⟩
  case dictContent =>
    obtain ⟨entries, -, hobj⟩ := ExceptLoop.bind_eq_ok.1 h
    cases hobj
    exact ⟨by simp, rfl⟩
  case preview =>
    cases h
    exact ⟨by simp, rfl⟩
  case warning =>
    cases h
    exact ⟨by simp, rfl⟩
  all_goals cases h

/-- **What the frames of an object can add.** -/
theorem foldlM_addFacts_frame {facts : List Frame} {obj obj' : HeapObject} (h : facts.foldlM addFacts obj = .ok obj') :
    (∀ frame ∈ facts, frame.kind ∈ [.referents, .sequenceContent, .dictContent, .preview, .warning]) ∧
      obj' = { obj with
        sequenceContent := obj'.sequenceContent
        dictContent := obj'.dictContent
        referents := obj'.referents
        strRepr := obj'.strRepr } := by
  induction facts generalizing obj with
  | nil =>
    cases h
    exact ⟨fun frame hframe => absurd hframe List.not_mem_nil, rfl⟩
  | cons frame facts ih =>
    rw [List.foldlM_cons] at h
    obtain ⟨obj₁, hfirst, hrest⟩ := ExceptLoop.bind_eq_ok.1 h
    obtain ⟨hkind, hobj₁⟩ := addFacts_frame hfirst
    obtain ⟨hkinds, hobj'⟩ := ih hrest
    refine ⟨fun f hf => ?_, ?_⟩
    · rcases List.mem_cons.1 hf with rfl | hf
      · exact hkind
      · exact hkinds f hf
    · rw [hobj₁] at hobj'
      exact hobj'

/-- The object of a report, with the content that its facts add. -/
theorem Report.object_frame (report : Report) :
    report.object = { freshObject report.begin report.kind with
      sequenceContent := report.object.sequenceContent
      dictContent := report.object.dictContent
      referents := report.object.referents
      strRepr := report.object.strRepr } := (foldlM_addFacts_frame report.object_eq).2

/-- The address, the size and the kind of a report are those of its `OBJECT_BEGIN`. -/
theorem Report.address_eq (report : Report) : report.object.address = report.begin.address := by
  rw [report.object_frame]
  rfl

/-- The size of a reported object is the announced one. -/
theorem Report.size_eq (report : Report) : report.object.shallowSize = report.begin.shallowSize := by
  rw [report.object_frame]
  rfl

/-- A reported object has no attributes. -/
theorem Report.attributes_eq (report : Report) : report.object.attributes = [] := by
  rw [report.object_frame]
  rfl

/-- An object has no content of another kind than its own. -/
def OwnContent (obj : HeapObject) : Prop :=
  (obj.contentKind = .dict ∨ obj.dictContent = []) ∧
    (obj.contentKind ∈ [.list, .set, .tuple] ∨ obj.sequenceContent = [])

instance (obj : HeapObject) : Decidable (OwnContent obj) := inferInstanceAs (Decidable (_ ∧ _))

/-! ### Turns -/

/-- The answer to one request. -/
structure Turn where
  reports : List Report
  last : List UInt8

/-- The objects of a turn. -/
def Turn.objects (turn : Turn) : List HeapObject := turn.reports.map Report.object

/-- The frames of a turn. -/
def Turn.frames (turn : Turn) : List Frame := turn.reports.flatMap Report.frames ++ [⟨.batchDone, turn.last⟩]

/-- The request and its answer. -/
def Turn.events (turn : Turn) : List Event :=
  .sent .requestObjects (packAddresses (turn.objects.map HeapObject.address)) :: receipts turn.frames

/-- The addresses that are no null pointers. -/
def nonzero (addresses : List ℕ) : List ℕ := addresses.filter (· ≠ 0)

/-- The contents that are walked. -/
def walkedItems (obj : HeapObject) : List ℕ :=
  if obj.contentKind = .dict then obj.dictContent.flatMap fun entry => [entry.1, entry.2] else obj.sequenceContent

/-- What an object leads to. -/
def discovered (orders : OrderChoice ℕ) (obj : HeapObject) : List ℕ :=
  nonzero (orders.walk obj.address obj.referents ++ (walkedItems obj ++
    (obj.attributes.map HeapAttribute.address ++ [obj.typeAddress])))

/-- The pending addresses that are requested together. -/
def batchOf (batchSize : ℕ) (pending : List ℕ) : List ℕ := pending.reverse.take batchSize

/-- The others. -/
def restOf (batchSize : ℕ) (pending : List ℕ) : List ℕ := (pending.reverse.drop batchSize).reverse

/-- A batch and the rest are what is pending. -/
theorem perm_batchOf (batchSize : ℕ) (pending : List ℕ) :
    (batchOf batchSize pending ++ restOf batchSize pending).Perm pending := by
  have h : (batchOf batchSize pending ++ restOf batchSize pending).Perm
      (pending.reverse.take batchSize ++ pending.reverse.drop batchSize) :=
    (List.reverse_perm (pending.reverse.drop batchSize)).append_left _
  rw [List.take_append_drop] at h
  exact h.trans (List.reverse_perm pending)

/-- The type table with the types of some objects. -/
def nameTypes (types : OrderedDict ℕ String) (objects : List HeapObject) : OrderedDict ℕ String :=
  objects.foldl (fun types obj => types.insert obj.typeAddress obj.typeName) types

/-! ### Sessions -/

/-- What an Agent says before the first request. -/
structure Opening where
  helloPayload : List UInt8
  hello : Hello
  wellKnownPayload : List UInt8
  addresses : List ℕ
  rootPayloads : List (List UInt8)
  roots : List (List ℕ)
  rootsDone : List UInt8
  hello_eq : decodeHello helloPayload = .ok hello
  addresses_eq : decodeAddresses wellKnownPayload = .ok addresses
  roots_eq : rootPayloads.mapM decodeAddresses = .ok roots

/-- The frames with the roots. -/
def Opening.rootFrames (opening : Opening) : List Frame :=
  opening.rootPayloads.map (Frame.mk .rootBatch) ++ [⟨.rootsDone, opening.rootsDone⟩]

/-- The roots and the well-known types. -/
def Opening.starts (opening : Opening) : List ℕ := opening.roots.flatten ++ opening.addresses

/-- What an Agent says from its `HELLO` to its `COMPLETE`. -/
structure Session extends Opening where
  turns : List Turn
  last : List UInt8

/-- What follows an opening makes a session. -/
def Opening.session (opening : Opening) (turns : List Turn) (last : List UInt8) : Session :=
  { opening with turns := turns, last := last }

namespace Session

variable (session : Session)

/-- Every frame of the Agent, in its order. -/
def frames : List Frame :=
  [⟨.hello, session.helloPayload⟩, ⟨.wellKnown, session.wellKnownPayload⟩] ++ (session.rootFrames ++
    (session.turns.flatMap Turn.frames ++ [⟨.complete, session.last⟩]))

/-- The session with what a Collector says, which answers the `HELLO` with
`options`. -/
def events (options : List UInt8) : List Event :=
  .received ⟨.hello, session.helloPayload⟩ :: .sent .helloAck options ::
    .received ⟨.wellKnown, session.wellKnownPayload⟩ :: (receipts session.rootFrames ++
      (session.turns.flatMap Turn.events ++ [.sent .finish [], .received ⟨.complete, session.last⟩]))

/-- The objects as they are reported. -/
def objects : List HeapObject := session.turns.flatMap Turn.objects

/-- `well_known_types`. -/
def wellKnownTypes : OrderedDict String ℕ := .ofPairs (WELL_KNOWN_TYPE_NAMES.zip session.addresses)

/-- The addresses of the container types. -/
def known : ContainerTypes where
  dict := (session.wellKnownTypes.find? "dict").getD 0
  list := (session.wellKnownTypes.find? "list").getD 0
  set := (session.wellKnownTypes.find? "set").getD 0
  tuple := (session.wellKnownTypes.find? "tuple").getD 0

/-- `types` at the end. -/
def types : OrderedDict ℕ String :=
  nameTypes (.ofPairs (session.addresses.zip WELL_KNOWN_TYPE_NAMES)) session.objects

/-- What is pending when the walk begins. -/
def start : Frontier ℕ := Frontier.empty.visitAll (nonzero session.starts)

/-- A Collector goes through the session to its end: it accepts the greeting, every
turn reports the objects it asked for, and the numbers fit the fields of the
artifact. -/
structure Completes (collector : Collector) (orders : OrderChoice ℕ) : Prop where
  greeting : checkHello collector session.hello = .ok ()
  options : -2 ^ 31 ≤ collector.strReprLen ∧ collector.strReprLen < 2 ^ 31
  wellKnown : session.addresses.length = WELL_KNOWN_TYPE_NAMES.length
  explores : Frontier.Explores HeapObject.address (discovered orders) (batchOf collector.batchSize)
    (restOf collector.batchSize) session.start (session.turns.map Turn.objects)
  requests : ∀ turn ∈ session.turns, 8 * turn.objects.length ≤ MAX_PAYLOAD
  objects : ∀ obj ∈ session.objects, ObjectFits obj
  count : Fits32 session.objects.length
  types : Fits32 session.types.entries.length

/-- The objects as they are written, each with a string where strings are
captured. -/
def stored (strReprLen : ℤ) : List HeapObject := session.objects.map (placeholder strReprLen)

/-- The artifact of a session. -/
def artifact (strReprLen : ℤ) (now : String) : List UInt8 :=
  layoutArtifact (0 ≤ strReprLen) now session.wellKnownTypes session.known [] (session.stored strReprLen) session.types

end Session

/-! ### What frames report -/

/-- The objects that frames report up to a `COMPLETE`, where `current` is the object
whose frames have begun. -/
def reportedFrom : Option HeapObject → List Frame → List HeapObject
  | _, [] => []
  | none, frame :: frames =>
    match frame.kind with
    | .complete => []
    | .objectBegin =>
      match decodeObjectBegin frame.payload with
      | .ok begin =>
        reportedFrom ((ContentKind.ofNat? begin.contentKind).map (freshObject begin)) frames
      | .error _ => reportedFrom none frames
    | _ => reportedFrom none frames
  | some obj, frame :: frames =>
    if frame.kind = .objectEnd then obj :: reportedFrom none frames
    else
      match addFacts obj frame with
      | .ok obj => reportedFrom (some obj) frames
      | .error _ => reportedFrom none frames

/-- **The objects that frames report.** -/
def reportedObjects (frames : List Frame) : List HeapObject := reportedFrom none frames

/-- The facts up to the end make the object. -/
theorem reportedFrom_facts {facts : List Frame} {obj obj' : HeapObject} (h : facts.foldlM addFacts obj = .ok obj')
    (last : List UInt8) (rest : List Frame) :
    reportedFrom (some obj) (facts ++ (⟨.objectEnd, last⟩ :: rest)) = obj' :: reportedFrom none rest := by
  induction facts generalizing obj with
  | nil =>
    cases h
    rw [List.nil_append, reportedFrom, if_pos rfl]
  | cons frame facts ih =>
    rw [List.foldlM_cons] at h
    obtain ⟨obj₁, hfirst, hrest⟩ := ExceptLoop.bind_eq_ok.1 h
    have hkind : frame.kind ≠ .objectEnd := by
      intro hend
      have hmem := (addFacts_frame hfirst).1
      rw [hend] at hmem
      revert hmem
      decide
    rw [List.cons_append, reportedFrom, if_neg hkind]
    simp only [hfirst]
    exact ih hrest

/-- A report makes its object. -/
theorem reportedFrom_report (report : Report) (rest : List Frame) :
    reportedFrom none (report.frames ++ rest) = report.object :: reportedFrom none rest := by
  rw [Report.frames, List.cons_append, reportedFrom]
  simp only [report.begin_eq, report.kind_eq, Option.map_some]
  rw [List.append_assoc]
  exact reportedFrom_facts report.object_eq report.last rest

/-- Frames between the objects report nothing. -/
theorem reportedFrom_skip {frames : List Frame}
    (h : ∀ frame ∈ frames, frame.kind ≠ .complete ∧ frame.kind ≠ .objectBegin) (rest : List Frame) :
    reportedFrom none (frames ++ rest) = reportedFrom none rest := by
  induction frames with
  | nil => rfl
  | cons frame frames ih =>
    obtain ⟨hcomplete, hbegin⟩ := h frame List.mem_cons_self
    rw [List.cons_append, reportedFrom]
    split
    · exact absurd ‹_› hcomplete
    · exact absurd ‹_› hbegin
    · exact ih fun f hf => h f (List.mem_cons_of_mem frame hf)

/-- Reports make their objects. -/
theorem reportedFrom_reports (reports : List Report) (rest : List Frame) :
    reportedFrom none (reports.flatMap Report.frames ++ rest) =
      reports.map Report.object ++ reportedFrom none rest := by
  induction reports with
  | nil => rfl
  | cons report reports ih =>
    rw [List.flatMap_cons, List.append_assoc, reportedFrom_report, ih]
    rfl

/-- Turns make their objects. -/
theorem reportedFrom_turns (turns : List Turn) (rest : List Frame) :
    reportedFrom none (turns.flatMap Turn.frames ++ rest) = turns.flatMap Turn.objects ++ reportedFrom none rest := by
  induction turns with
  | nil => rfl
  | cons turn turns ih =>
    rw [List.flatMap_cons, List.append_assoc, Turn.frames, List.append_assoc, reportedFrom_reports,
      reportedFrom_skip (by simp), ih, List.flatMap_cons, List.append_assoc]
    rfl

/-- **What a session reports.** -/
theorem reportedObjects_frames (session : Session) (rest : List Frame) :
    reportedObjects (session.frames ++ rest) = session.objects := by
  have hroots : ∀ frame ∈ session.rootFrames, frame.kind ≠ .complete ∧ frame.kind ≠ .objectBegin := by
    intro frame hframe
    rcases List.mem_append.1 hframe with hframe | hframe
    · obtain ⟨payload, -, rfl⟩ := List.mem_map.1 hframe
      exact ⟨by simp, by simp⟩
    · rw [List.mem_singleton.1 hframe]
      exact ⟨by simp, by simp⟩
  rw [reportedObjects, Session.frames, List.append_assoc, reportedFrom_skip (by simp), List.append_assoc,
    reportedFrom_skip hroots, List.append_assoc, reportedFrom_turns, List.singleton_append, reportedFrom]
  exact List.append_nil _

/-! ### Frames and events -/

/-- In a turn its frames are heard. -/
theorem heard_flatMap_events (turns : List Turn) : heard (turns.flatMap Turn.events) = turns.flatMap Turn.frames := by
  induction turns with
  | nil => rfl
  | cons turn turns ih =>
    rw [List.flatMap_cons, List.flatMap_cons, Protocol.heard_append, ih, Turn.events, heard, Protocol.heard_receipts]

/-- In a turn one request is told. -/
theorem told_flatMap_events (turns : List Turn) : told (turns.flatMap Turn.events) = turns.length := by
  induction turns with
  | nil => rfl
  | cons turn turns ih =>
    rw [List.flatMap_cons, Protocol.told_append, ih, Turn.events, told, Protocol.told_receipts, List.length_cons]
    omega

/-- The parts of a session. -/
theorem Session.events_eq (session : Session) (options : List UInt8) : session.events options =
    [.received ⟨.hello, session.helloPayload⟩, .sent .helloAck options,
      .received ⟨.wellKnown, session.wellKnownPayload⟩] ++ (receipts session.rootFrames ++
        (session.turns.flatMap Turn.events ++ [.sent .finish [], .received ⟨.complete, session.last⟩])) := rfl

/-- In a session its frames are heard. -/
theorem Session.heard_events (session : Session) (options : List UInt8) :
    heard (session.events options) = session.frames := by
  simp only [Session.events, Session.frames, heard, Protocol.heard_append, Protocol.heard_receipts,
    heard_flatMap_events, List.cons_append, List.nil_append]

/-- A Collector answers the greeting, asks once for every turn, and finishes. -/
theorem Session.told_events (session : Session) (options : List UInt8) :
    told (session.events options) = session.turns.length + 2 := by
  simp only [Session.events, told, Protocol.told_append, Protocol.told_receipts, told_flatMap_events]
  omega

end Capture
end Pydump
