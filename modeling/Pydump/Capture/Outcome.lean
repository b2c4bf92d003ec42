/-
# What a capture leaves in the directory

`Collector.capture` by itself: the name it chooses, the temporary file it writes, and
what an exception leaves.  `Faithful` is what is promised of it: it raises and nothing
has changed, or there is one more file, in which the reader finds the objects as they
were received.

Two things can go wrong.  The writer goes by the content kind of an object and the
reader by its type, and nobody compares them.  And the file that an exception takes
away is not always one that the capture has made.  `capture_faithful_iff` says that
there is no third.  `capture_run` places the capture among those that share a
directory.
-/

import Pydump.Analyzer.ReaderFacts
import Pydump.Artifact.RoundTrip
import Pydump.Artifact.Strings
import Pydump.Capture.Deliveries
import Pydump.Capture.SessionSpec

namespace Pydump
namespace Capture

open Analyzer (ContainerTypes ObjectContent)
open Artifact (contentAddresses contentOf kindRead)
open Interleaving (Any Config Run)
open Protocol

/-- `Collector.capture` with a directory of its own.  What an exception has left in the
temporary file goes with it. -/
def capture {π : Type} (peer : Peer π) (orders : OrderChoice ℕ) (collector : Collector) (now : String) (rounds : ℕ)
    (requested : String) (directory : Directory) (channel : FramedSocket π) :
    Directory × Except CaptureError (String × ℕ) :=
  let finalPath := availableOutputPath directory requested
  let temporary := temporaryName finalPath collector.nonce
  -- `open("xb")` refuses a name that is taken
  if directory.Exists temporary then (directory.erase temporary, .error .fileExistsError)
  else
    match captureObjects peer orders collector now rounds channel with
    | .error e => ((directory.insert temporary []).erase temporary, .error e)
    | .ok ((file, count), _) =>
      match validateArtifact temporary file with
      | .error e => ((directory.insert temporary file).erase temporary, .error e)
      | .ok () => (((directory.insert temporary file).insert finalPath file).erase temporary, .ok (finalPath, count))

/-! ### What is promised -/

/-- The content that is read is the content that was received, in the form of its kind,
and no other was received. -/
def ContentKept (obj : HeapObject) (content : ObjectContent) : Prop :=
  match obj.contentKind with
  | .dict => content = .dict (.ofPairs obj.dictContent) ∧ obj.sequenceContent = []
  | .list => content = .list obj.sequenceContent ∧ obj.dictContent = []
  | .set => content = .set obj.sequenceContent.toFinset ∧ obj.dictContent = []
  | .tuple => content = .tuple obj.sequenceContent ∧ obj.dictContent = []
  | .none => content = .none ∧ obj.sequenceContent = [] ∧ obj.dictContent = []

/-- An object is read as it was received.  The addresses of its content count among its
referents. -/
structure SameObject (obj : HeapObject) (o : Analyzer.HeapObject) : Prop where
  address : o.address = obj.address
  typeAddress : o.typeAddress = obj.typeAddress
  size : (o.size : ℤ) = obj.shallowSize
  content : ContentKept obj o.content
  referents : o.referents = obj.referents ∪ contentAddresses obj

/-- `HeapReader.read` accepts the file and finds the received objects in it. -/
def Decodes (file : List UInt8) (received : List HeapObject) : Prop :=
  ∃ heap, Analyzer.readHeap file = .ok heap ∧ heap.objects.keys = received.map HeapObject.address ∧
    ∀ obj ∈ received, ∃ o, heap.objects.find? obj.address = some o ∧ SameObject obj o

/-- A capture raises and leaves the directory as it was, or it adds one file to it, with
the objects as they were received. -/
def Faithful (directory : Directory) (received : List HeapObject) :
    Directory × Except CaptureError (String × ℕ) → Prop
  | (after, .error e) => e ≠ .diverged ∧ after = directory
  | (after, .ok (path, _)) =>
    ¬directory.Exists path ∧ ∃ file, after = directory.insert path file ∧ Decodes file received

/-- Every object of a session is of the kind that its type announces, and has no content
of another. -/
def Session.KindsAgree (session : Session) : Prop :=
  ∀ obj ∈ session.objects, obj.contentKind = kindRead session.known obj.typeAddress ∧ OwnContent obj

/-- A content is kept if and only if it is that of the object's own kind. -/
theorem contentKept_iff {obj : HeapObject} {content : ObjectContent} :
    ContentKept obj content ↔ content = contentOf obj ∧ OwnContent obj := by
  unfold ContentKept contentOf OwnContent
  cases obj.contentKind <;> simp [and_comm]

/-! ### The temporary file -/

/-- A name that does not exist is no key. -/
theorem not_mem_keys_of_not_exists {directory : Directory} {name : String} (h : ¬directory.Exists name) :
    name ∉ directory.keys := fun hmem => h (OrderedDict.find?_isSome.2 hmem)

section

variable {π : Type} {peer : Peer π} {orders : OrderChoice ℕ} {collector : Collector} {now : String} {rounds : ℕ}
  {requested : String} {directory : Directory} {channel : FramedSocket π}

/-- A name that is taken is refused, and the file that has it is removed. -/
theorem capture_of_exists
    (h : directory.Exists (temporaryName (availableOutputPath directory requested) collector.nonce)) :
    capture peer orders collector now rounds requested directory channel =
      (directory.erase (temporaryName (availableOutputPath directory requested) collector.nonce),
        .error .fileExistsError) := if_pos h

variable (htemporary : ¬directory.Exists (temporaryName (availableOutputPath directory requested) collector.nonce))
include htemporary

/-- Where `_capture` raises, nothing is left. -/
theorem capture_of_error {e : CaptureError} (h : captureObjects peer orders collector now rounds channel = .error e) :
    capture peer orders collector now rounds requested directory channel = (directory, .error e) := by
  unfold capture
  dsimp only
  rw [if_neg htemporary, h]
  exact Prod.ext (OrderedDict.erase_insert_of_not_mem (not_mem_keys_of_not_exists htemporary) []) rfl

/-- Where `_capture` returns, its file is delivered if it is valid. -/
theorem capture_of_ok {file : List UInt8} {count : ℕ} {channel' : FramedSocket π}
    (h : captureObjects peer orders collector now rounds channel = .ok ((file, count), channel'))
    (hvalid : ∀ path, validateArtifact path file = .ok ()) :
    capture peer orders collector now rounds requested directory channel =
      (directory.insert (availableOutputPath directory requested) file,
        .ok (availableOutputPath directory requested, count)) := by
  unfold capture
  dsimp only
  rw [if_neg htemporary, h]
  dsimp only
  rw [hvalid]
  refine Prod.ext ?_ rfl
  show ((directory.insert _ file).insert _ file).erase _ = _
  rw [OrderedDict.erase_insert_of_ne _ (temporaryName_ne_availableOutputPath directory requested collector.nonce),
    OrderedDict.erase_insert_of_not_mem (not_mem_keys_of_not_exists htemporary)]

end

/-! ### A capture that is alone -/

/-- Nothing but one capture. -/
def alone (requested : String) (collector : Collector) (directory : Directory) (stage : Stage) :
    Config Directory Delivery :=
  ⟨directory, [⟨requested, collector.nonce, stage, collector.nonce_size⟩]⟩

/-- The run of a delivery goes on after one step. -/
theorem run_act (answer : Answer) (requested : String) (collector : Collector) (directory : Directory) (stage : Stage)
    {c : Config Directory Delivery} (h : Run deliveries Any (alone requested collector
      (stage.act answer directory requested collector.nonce).1 (stage.act answer directory requested collector.nonce).2)
        c) :
    Run deliveries Any (alone requested collector directory stage) c := by
  have hstep := @Interleaving.Step.act _ _ _ deliveries Any answer directory []
    ⟨requested, collector.nonce, stage, collector.nonce_size⟩ [] trivial
  exact Relation.ReflTransGen.head hstep h

/-- It probes names until one is free. -/
theorem run_probe (requested : String) (collector : Collector) {directory : Directory} (rounds : ℕ)
    (candidate : Option ℕ) (hfree : ¬directory.Exists (probe directory requested rounds candidate))
    {c : Config Directory Delivery} (h : Run deliveries Any
      (alone requested collector directory (.creating (probe directory requested rounds candidate))) c) :
    Run deliveries Any (alone requested collector directory (.probing candidate)) c := by
  induction rounds generalizing candidate with
  | zero =>
    refine run_act .succeeded requested collector directory _ ?_
    rw [probe] at hfree
    simp only [Stage.act, if_neg hfree]
    exact h
  | succ rounds ih =>
    refine run_act .succeeded requested collector directory _ ?_
    rw [probe] at hfree h
    by_cases htaken : directory.Exists (outputName requested candidate)
    · rw [if_pos htaken] at hfree h
      simp only [Stage.act, if_pos htaken]
      exact ih _ hfree h
    · rw [if_neg htaken] at h
      simp only [Stage.act, if_neg htaken]
      exact h

/-- An exception has the temporary file unlinked. -/
theorem run_failing (requested : String) (collector : Collector) (directory : Directory) (finalPath : String) :
    Run deliveries Any (alone requested collector directory (.failing finalPath))
      (alone requested collector (directory.erase (temporaryName finalPath collector.nonce)) .raised) :=
  run_act .succeeded requested collector directory (.failing finalPath) .refl

/-- A file that is written is validated and delivered, or removed. -/
theorem run_validating (requested : String) (collector : Collector) (directory : Directory) (finalPath : String)
    (count : ℕ) (file : List UInt8) :
    (∀ e, validateArtifact (temporaryName finalPath collector.nonce) file = .error e → Run deliveries Any
      (alone requested collector (directory.insert (temporaryName finalPath collector.nonce) file)
        (.validating finalPath count file))
      (alone requested collector ((directory.insert (temporaryName finalPath collector.nonce) file).erase
        (temporaryName finalPath collector.nonce)) .raised)) ∧
    (temporaryName finalPath collector.nonce ≠ finalPath →
      validateArtifact (temporaryName finalPath collector.nonce) file = .ok () → Run deliveries Any
        (alone requested collector (directory.insert (temporaryName finalPath collector.nonce) file)
          (.validating finalPath count file))
        (alone requested collector (((directory.insert (temporaryName finalPath collector.nonce) file).insert
          finalPath file).erase (temporaryName finalPath collector.nonce)) (.returned finalPath count file))) := by
  have hfound : (directory.insert (temporaryName finalPath collector.nonce) file).find?
      (temporaryName finalPath collector.nonce) = some file := by
    rw [OrderedDict.find?_insert, if_pos rfl]
  constructor
  · intro e hvalid
    refine run_act .succeeded requested collector _ _ ?_
    simp only [Stage.act, hfound, hvalid]
    exact run_failing requested collector _ finalPath
  · intro hne hvalid
    refine run_act .succeeded requested collector _ _ ?_
    simp only [Stage.act, hfound, hvalid]
    refine run_act .succeeded requested collector _ _ ?_
    simp only [Stage.act, hfound]
    have hdelivered : Directory.Exists (((directory.insert (temporaryName finalPath collector.nonce) file).insert
        finalPath file).erase (temporaryName finalPath collector.nonce)) finalPath := by
      rw [Directory.Exists, OrderedDict.find?_erase, if_neg hne, OrderedDict.find?_insert, if_pos rfl]
      rfl
    refine run_act .succeeded requested collector _ _ ?_
    simp only [Stage.act, if_pos hdelivered]
    exact .refl

/-- A capture that has come to its end in the stage that fits its result. -/
def Stage.EndsWith (stage : Stage) : Except CaptureError (String × ℕ) → Prop
  | .error _ => stage = .raised
  | .ok (path, count) => ∃ written, stage = .returned path count written

/-- **`capture` is a run of the captures that share a directory**, with one of them. -/
theorem capture_run {π : Type} (peer : Peer π) (orders : OrderChoice ℕ) (collector : Collector) (now : String)
    (rounds : ℕ) (requested : String) (directory : Directory) (channel : FramedSocket π) :
    ∃ stage : Stage, stage.EndsWith (capture peer orders collector now rounds requested directory channel).2 ∧
      Run deliveries Any (alone requested collector directory (.probing none)) (alone requested collector
        (capture peer orders collector now rounds requested directory channel).1 stage) := by
  have hprobed := fun {c} => @run_probe requested collector directory directory.entries.length none
    (not_exists_availableOutputPath directory requested) c
  have hne := temporaryName_ne_availableOutputPath directory requested collector.nonce
  unfold capture
  dsimp only
  unfold availableOutputPath at hne ⊢
  generalize probe directory requested directory.entries.length none = finalPath at hprobed hne
  by_cases htaken : directory.Exists (temporaryName finalPath collector.nonce)
  · rw [if_pos htaken]
    refine ⟨.raised, rfl, hprobed (run_act .succeeded requested collector directory _ ?_)⟩
    simp only [Stage.act, if_pos htaken]
    exact run_failing requested collector directory finalPath
  rw [if_neg htaken]
  have hcreated : ∀ {c}, Run deliveries Any (alone requested collector
      (directory.insert (temporaryName finalPath collector.nonce) []) (.writing finalPath [])) c →
      Run deliveries Any (alone requested collector directory (.probing none)) c := by
    intro c h
    refine hprobed (run_act .succeeded requested collector directory _ ?_)
    simp only [Stage.act, if_neg htaken]
    exact h
  cases captureObjects peer orders collector now rounds channel with
  | error e =>
    exact ⟨.raised, rfl, hcreated (run_act .failed requested collector _ _
      (run_failing requested collector _ finalPath))⟩
  | ok r =>
    obtain ⟨⟨file, count⟩, channel'⟩ := r
    dsimp only
    have hwritten : ∀ {c}, Run deliveries Any (alone requested collector
        (directory.insert (temporaryName finalPath collector.nonce) file) (.validating finalPath count file)) c →
        Run deliveries Any (alone requested collector directory (.probing none)) c := by
      intro c h
      refine hcreated (run_act (.wrote file) requested collector _ _
        (run_act (.captured count) requested collector _ _ ?_))
      simp only [Stage.act, List.nil_append, OrderedDict.insert_insert]
      exact h
    obtain ⟨hrefused, haccepted⟩ := run_validating requested collector directory finalPath count file
    cases hvalid : validateArtifact (temporaryName finalPath collector.nonce) file with
    | error e => exact ⟨.raised, rfl, hwritten (hrefused e hvalid)⟩
    | ok _ => exact ⟨.returned finalPath count file, ⟨file, rfl⟩, hwritten (haccepted hne hvalid)⟩

/-! ### What the reader finds -/

/-- The kind of an object that is read is the one that its type announces. -/
theorem kindRead_of_shaped {known : ContainerTypes} {obj : HeapObject} {o : Analyzer.HeapObject}
    (hshaped : o.Shaped known) (hcontent : o.content = contentOf obj) (htype : o.typeAddress = obj.typeAddress) :
    obj.contentKind = kindRead known obj.typeAddress := by
  unfold Analyzer.HeapObject.Shaped at hshaped
  unfold contentOf at hcontent
  unfold Artifact.kindRead
  rw [hcontent, htype] at hshaped
  cases hkind : obj.contentKind with
  | dict =>
    simp only [hkind] at hshaped
    rw [if_pos hshaped]
  | tuple =>
    simp only [hkind] at hshaped
    rw [if_neg hshaped.2, if_pos hshaped.1]
  | set =>
    simp only [hkind] at hshaped
    rw [if_neg hshaped.2.1, if_neg hshaped.2.2, if_pos hshaped.1]
  | list =>
    simp only [hkind] at hshaped
    rw [if_neg hshaped.2.1, if_neg hshaped.2.2.1, if_neg hshaped.2.2.2, if_pos hshaped.1]
  | none =>
    simp only [hkind, ContainerTypes.Contains, not_or] at hshaped
    rw [if_neg hshaped.1, if_neg hshaped.2.2.2, if_neg hshaped.2.2.1, if_neg hshaped.2.1]

namespace Session

variable {session : Session} {collector : Collector} {orders : OrderChoice ℕ}

/-- What a session hands to the writer. -/
def snapshot (session : Session) (strReprLen : ℤ) (now : String) : Artifact.Snapshot :=
  ⟨0 ≤ strReprLen, now, session.wellKnownTypes, [], session.stored strReprLen, session.types⟩

/-- The stored objects have the addresses of the session. -/
theorem map_address_stored (session : Session) (strReprLen : ℤ) :
    (session.stored strReprLen).map HeapObject.address = session.objects.map HeapObject.address := by
  rw [stored, List.map_map]
  exact List.map_congr_left fun obj _ => placeholder_address strReprLen obj

/-- The size of an object comes from a field of 32 bits. -/
theorem clampSize_eq {obj : HeapObject} (hobj : obj ∈ session.objects) :
    (clampSize obj.shallowSize : ℤ) = obj.shallowSize := by
  obtain ⟨turn, -, hturn⟩ := List.mem_flatMap.1 hobj
  obtain ⟨report, -, rfl⟩ := List.mem_map.1 hturn
  have hsize := (decodeObjectBegin_lt report.begin_eq).2.2
  rw [report.size_eq, clampSize, MAX_UINT32]
  omega

/-- The strings that stand in for missing previews are all that the writer adds. -/
theorem sameObject_readBack {obj : HeapObject} (hobj : obj ∈ session.objects) (hown : OwnContent obj) (strReprLen : ℤ)
    (offset : ℕ) :
    SameObject obj (Artifact.readBack (0 ≤ strReprLen) session.known offset (placeholder strReprLen obj)) := by
  have hsize := clampSize_eq hobj
  obtain ⟨strRepr, hplaceholder⟩ := exists_placeholder strReprLen obj
  rw [hplaceholder]
  exact ⟨rfl, rfl, hsize, contentKept_iff.2 ⟨rfl, hown⟩, rfl⟩

/-- What the reader returns of the artifact. -/
theorem read_artifact (h : session.Completes collector orders) (hkinds : session.KindsAgree) (now : String) :
    Analyzer.read (session.artifact collector.strReprLen now) 0 =
      .ok ((session.snapshot collector.strReprLen now).heap session.known,
        (session.artifact collector.strReprLen now).length) := by
  have haddresses : ((session.stored collector.strReprLen).map HeapObject.address).Nodup := by
    rw [map_address_stored]
    exact nodup_addresses h
  have hstored : ∀ stored ∈ session.stored collector.strReprLen, ∃ obj ∈ session.objects,
      ∃ strRepr, stored = { obj with strRepr := strRepr } := by
    intro stored hstored
    obtain ⟨obj, hobj, rfl⟩ := List.mem_map.1 hstored
    exact ⟨obj, hobj, exists_placeholder collector.strReprLen obj⟩
  refine Artifact.read_layoutArtifact (containers h.wellKnown) (wellKnownFits h.wellKnown)
    ⟨Nat.zero_le _, by simp⟩ ?_ ?_ ?_ haddresses (typesFit h) ?_
  · rw [stored, List.length_map]
    exact h.count
  · intro stored hmem
    obtain ⟨obj, hobj, strRepr, rfl⟩ := hstored stored hmem
    exact h.objects obj hobj
  · intro stored hmem
    obtain ⟨obj, hobj, strRepr, rfl⟩ := hstored stored hmem
    exact (hkinds obj hobj).1
  · intro stored hmem
    obtain ⟨obj, hobj, strRepr, rfl⟩ := hstored stored hmem
    exact (mem_keys_types h.wellKnown).2 (.inr ⟨obj, hobj, rfl⟩)

/-- **Where the kinds agree the reader finds what was received.** -/
theorem decodes_artifact (h : session.Completes collector orders) (hkinds : session.KindsAgree) (now : String) :
    Decodes (session.artifact collector.strReprLen now) session.objects := by
  have haddresses : ((session.stored collector.strReprLen).map HeapObject.address).Nodup := by
    rw [map_address_stored]
    exact nodup_addresses h
  refine ⟨_, congrArg (Except.map Prod.fst) (read_artifact h hkinds now), ?_, fun obj hobj => ?_⟩
  · rw [← map_address_stored session collector.strReprLen]
    exact @Artifact.keys_heap_objects (session.snapshot collector.strReprLen now) session.known haddresses
  · obtain ⟨before, -, -, hfind⟩ := @Artifact.find?_heap_objects (session.snapshot collector.strReprLen now)
      session.known haddresses (placeholder collector.strReprLen obj) (List.mem_map_of_mem hobj)
    rw [placeholder_address] at hfind
    exact ⟨_, hfind, sameObject_readBack hobj (hkinds obj hobj).2 collector.strReprLen before.length⟩

/-- **And only there.**  The reader goes by the types, for which it has the well-known
ones of the session. -/
theorem kindsAgree_of_decodes (h : session.Completes collector orders) {now : String}
    (hdecodes : Decodes (session.artifact collector.strReprLen now) session.objects) : session.KindsAgree := by
  obtain ⟨heap, hread, -, hobjects⟩ := hdecodes
  obtain ⟨known, hstored⟩ := Analyzer.storedIn_of_readHeap hread
  obtain ⟨off, hheader⟩ := Analyzer.readHeader_of_readHeap hread
  have hknown : known = session.known := by
    have hcontainers := hstored.containers
    rw [Artifact.readHeader_layoutArtifact (wellKnownFits h.wellKnown) _ _ _ _ hheader, Artifact.readBackHeader,
      Artifact.ofKnown_readBackWellKnown (containers h.wellKnown)] at hcontainers
    exact (Except.ok.inj hcontainers).symm
  intro obj hobj
  obtain ⟨o, hfind, hsame⟩ := hobjects obj hobj
  obtain ⟨hcontent, hown⟩ := contentKept_iff.1 hsame.content
  have hshaped := (hstored.stored _ (OrderedDict.find?_eq_some.1 hfind)).2.shaped
  rw [hknown] at hshaped
  exact ⟨kindRead_of_shaped hshaped hcontent hsame.typeAddress, hown⟩

/-- **The artifact of a session decodes to its objects where the kinds agree.** -/
theorem decodes_artifact_iff (h : session.Completes collector orders) (now : String) :
    Decodes (session.artifact collector.strReprLen now) session.objects ↔ session.KindsAgree :=
  ⟨kindsAgree_of_decodes h, fun hkinds => decodes_artifact h hkinds now⟩

/-- Sessions that the same frames begin with agree on their objects and their types. -/
theorem kindsAgree_of_frames {session session' : Session} {rest rest' : List Frame}
    (h : session.frames ++ rest = session'.frames ++ rest') (hkinds : session.KindsAgree) : session'.KindsAgree := by
  have hobjects : session.objects = session'.objects := by
    rw [← reportedObjects_frames session rest, h, reportedObjects_frames]
  have hpayload : session.wellKnownPayload = session'.wellKnownPayload := by
    simp only [frames, List.cons_append, List.nil_append, List.cons.injEq, Frame.mk.injEq, true_and] at h
    exact h.2.1
  have haddresses : session.addresses = session'.addresses := by
    have hdecode := session.addresses_eq
    rw [hpayload, session'.addresses_eq] at hdecode
    exact (Except.ok.inj hdecode).symm
  have hknown : session.known = session'.known := by
    unfold known wellKnownTypes
    rw [haddresses]
  unfold KindsAgree at hkinds ⊢
  rwa [← hobjects, ← hknown]

end Session

/-! ### The outcome of a capture -/

/-- A capture that goes through a session to its end. -/
theorem faithful_of_session {π : Type} {peer : Peer π} {orders : OrderChoice ℕ} {collector : Collector} {now : String}
    {rounds : ℕ} {requested : String} {directory : Directory} {channel channel' : FramedSocket π} {session : Session}
    (hcompletes : session.Completes collector orders)
    (htemporary : ¬directory.Exists (temporaryName (availableOutputPath directory requested) collector.nonce))
    {count : ℕ} (hrun : captureObjects peer orders collector now rounds channel =
      .ok ((session.artifact collector.strReprLen now, count), channel')) :
    Faithful directory session.objects (capture peer orders collector now rounds requested directory channel) ↔
      session.KindsAgree := by
  have hvalid (path : String) : validateArtifact path (session.artifact collector.strReprLen now) = .ok () :=
    Artifact.validateArtifact_layoutArtifact path _ _ _ _ _ _ _
  rw [capture_of_ok htemporary hrun hvalid, ← Session.decodes_artifact_iff hcompletes now]
  constructor
  · rintro ⟨-, file, hafter, hdecodes⟩
    -- the file that is there is the one that was written
    have hfile := congrArg (fun d => d.find? (availableOutputPath directory requested)) hafter
    simp only [OrderedDict.find?_insert, if_true, Option.some.injEq] at hfile
    rwa [← hfile] at hdecodes
  · intro hdecodes
    exact ⟨not_exists_availableOutputPath directory requested, _, rfl, hdecodes⟩

/-- **A capture keeps its promise exactly where the name of its temporary file is free and
the kinds agree** in the complete session that the frames begin with, if there is one.

The other end has said `frames`, of whatever kinds and with whatever payloads, before it
stops in front of a frame or inside one, and the connection takes as many frames of the
Collector as it will. -/
theorem capture_faithful_iff {tail : List UInt8} (htail : BreaksOff tail) {channel : FramedSocket ℕ}
    {frames : List Frame}
    (hready : ReadyBefore tail channel frames) (orders : OrderChoice ℕ) (collector : Collector) (now : String)
    {rounds : ℕ} (hrounds : frames.length < rounds) (requested : String) (directory : Directory) :
    Faithful directory (reportedObjects frames)
        (capture silent orders collector now rounds requested directory channel) ↔
      ¬directory.Exists (temporaryName (availableOutputPath directory requested) collector.nonce) ∧
        ∀ (session : Session) (rest : List Frame), frames = session.frames ++ rest →
          session.Completes collector orders → session.turns.length + 2 ≤ channel.peer → session.KindsAgree := by
  obtain ⟨hdiverged, hreturns⟩ := captureObjects_silent htail hready orders collector now hrounds
  by_cases htemporary : directory.Exists (temporaryName (availableOutputPath directory requested) collector.nonce)
  · rw [capture_of_exists htemporary]
    refine iff_of_false (fun hfaithful => ?_) fun h => h.1 htemporary
    -- the file that was there is gone
    have hgone := congrArg (fun d => d.find? (temporaryName (availableOutputPath directory requested) collector.nonce))
      hfaithful.2
    rw [Directory.Exists, ← hgone, OrderedDict.find?_erase, if_pos rfl] at htemporary
    cases htemporary
  cases hrun : captureObjects silent orders collector now rounds channel with
  | error e =>
    rw [capture_of_error htemporary hrun]
    refine iff_of_true ⟨fun he => hdiverged (he ▸ hrun), rfl⟩
      ⟨htemporary, fun session rest hframes hcompletes hsends => ?_⟩
    obtain ⟨channel', hok⟩ := (hreturns _ _).2 ⟨session, rest, hframes, hcompletes, hsends, rfl, rfl⟩
    cases hrun.symm.trans hok
  | ok r =>
    obtain ⟨⟨file, count⟩, channel'⟩ := r
    obtain ⟨session, rest, hframes, hcompletes, hsends, rfl, -⟩ := (hreturns file count).1 ⟨channel', hrun⟩
    have hreported : reportedObjects frames = session.objects := by rw [hframes, reportedObjects_frames]
    rw [hreported, faithful_of_session hcompletes htemporary hrun]
    constructor
    · intro hkinds
      exact ⟨htemporary, fun session' rest' hframes' _ _ =>
        Session.kindsAgree_of_frames (hframes.symm.trans hframes') hkinds⟩
    · rintro ⟨-, hkinds⟩
      exact hkinds session rest hframes hcompletes hsends

/-! ### A session with a list -/

/-- The beginning of an object without a name. -/
def sampleBegin (address typeAddress : UInt8) (kind : ContentKind) : ObjectBegin :=
  ⟨address.toNat, typeAddress.toNat, 32, kind.toNat, ""⟩

/-- The announcement of a sample object. -/
def samplePayload (address typeAddress : UInt8) (kind : ContentKind) : List UInt8 :=
  BigEndian.encode 8 address.toNat ++ (BigEndian.encode 8 typeAddress.toNat ++
    (BigEndian.encode 4 32 ++ (BigEndian.encode 1 kind.toNat ++ BigEndian.encode 2 0)))

/-- The sample announcement is decoded. -/
theorem decodeObjectBegin_samplePayload (address typeAddress : UInt8) (kind : ContentKind) :
    decodeObjectBegin (samplePayload address typeAddress kind) = .ok (sampleBegin address typeAddress kind) := by
  have haddress : address.toNat < 2 ^ 64 := by have := address.toNat_lt; omega
  have htype : typeAddress.toNat < 2 ^ 64 := by have := typeAddress.toNat_lt; omega
  have hkind : kind.toNat < 2 ^ 8 := by cases kind <;> decide
  have hencode : encodeObjectBegin (sampleBegin address typeAddress kind) =
    .ok (samplePayload address typeAddress kind) :=
    if_pos ⟨haddress, htype, (by decide : 32 < 2 ^ 32), hkind⟩
  rw [Artifact.objectBegin_reread hencode]
  rfl

/-- An object without content or referents. -/
def sampleReport (address typeAddress : UInt8) (kind : ContentKind) : Report where
  payload := samplePayload address typeAddress kind
  begin := sampleBegin address typeAddress kind
  kind := kind
  facts := []
  last := []
  object := freshObject (sampleBegin address typeAddress kind) kind
  begin_eq := decodeObjectBegin_samplePayload address typeAddress kind
  kind_eq := ContentKind.ofNat?_toNat kind
  object_eq := rfl
  inside := by simp

/-- The sample object fits the artifact. -/
theorem fits_sampleReport (address typeAddress : UInt8) (kind : ContentKind) :
    Artifact.ObjectFits (sampleReport address typeAddress kind).object := by
  have haddress : address.toNat < 2 ^ 64 := by have := address.toNat_lt; omega
  have htype : typeAddress.toNat < 2 ^ 64 := by have := typeAddress.toNat_lt; omega
  have hreferents : (sampleReport address typeAddress kind).object.referents = ∅ := rfl
  refine ⟨haddress, htype, ?_, ⟨?_, ?_⟩, Nat.zero_le _, ?_⟩
  · cases kind
    case none => trivial
    all_goals exact ⟨Nat.zero_le _, fun _ h => absurd h List.not_mem_nil⟩
  · rw [hreferents, Finset.empty_sdiff]
    exact Nat.zero_le _
  · rw [hreferents, Finset.empty_sdiff]
    exact fun a ha => absurd ha (Finset.notMem_empty a)
  · exact fun _ h => absurd h List.not_mem_nil

/-- The well-known types at the addresses from 1 to 13, and a list at 20 of which the Agent
says that its content is of a certain kind. -/
def sampleSession (kind : ContentKind) : Session where
  helloPayload := [3, 10, 8, 1] ++ List.replicate 16 0
  hello := ⟨3, 10, 8, true, List.replicate 16 0⟩
  wellKnownPayload := packAddresses [1, 2, 3, 4, 5, 6, 7, 8, 9, 10, 11, 12, 13]
  addresses := [1, 2, 3, 4, 5, 6, 7, 8, 9, 10, 11, 12, 13]
  rootPayloads := [packAddresses [20]]
  roots := [[20]]
  rootsDone := []
  turns := [⟨[13, 12, 11, 10, 9, 8, 7, 6, 5, 4, 3, 2, 1].map (sampleReport · 12 .none) ++ [sampleReport 20 1 kind], []⟩]
  last := []
  hello_eq := by decide
  addresses_eq := decodeAddresses_pack (by decide)
  roots_eq := by rw [List.mapM_cons, decodeAddresses_pack (by decide)]; rfl

/-- A Collector without renderings. -/
def sampleCollector : Collector := ⟨List.replicate 16 0, -1, false, 256, rfl⟩

/-- The sample session is completed. -/
theorem completes_sampleSession (kind : ContentKind) :
    (sampleSession kind).Completes sampleCollector OrderChoice.ascending where
  greeting := by rfl
  options := by decide
  wellKnown := rfl
  explores := by
    refine .turn ?_ ?_ (.done ?_)
    · show (sampleSession .none).start.pending ≠ []
      decide +kernel
    · cases kind <;> decide +kernel
    · cases kind <;> decide +kernel
  requests := by
    intro turn hturn
    obtain rfl := List.mem_singleton.1 hturn
    exact (by decide : 8 * 14 ≤ MAX_PAYLOAD)
  objects := by
    intro obj hobj
    obtain ⟨turn, hturn, hobj⟩ := List.mem_flatMap.1 hobj
    obtain ⟨report, hreport, rfl⟩ := List.mem_map.1 hobj
    obtain rfl := List.mem_singleton.1 hturn
    rcases List.mem_append.1 hreport with hreport | hreport
    · obtain ⟨address, -, rfl⟩ := List.mem_map.1 hreport
      exact fits_sampleReport address 12 .none
    · obtain rfl := List.mem_singleton.1 hreport
      exact fits_sampleReport 20 1 kind
  count := (by decide : 14 ≤ MAX_UINT32)
  types := by
    show (sampleSession kind).types.entries.length ≤ MAX_UINT32
    cases kind <;> decide +kernel

/-- The session on the wire, frame by frame, over a connection that lasts. -/
@[irreducible] def sampleChannel (kind : ContentKind) : FramedSocket ℕ :=
  ⟨(sampleSession kind).frames.map Frame.bytes, false, 3, []⟩

/-- The sample frames are ready. -/
theorem ready_sampleChannel (kind : ContentKind) : ReadyBefore [] (sampleChannel kind) (sampleSession kind).frames := by
  have hfits : ∀ frame ∈ (sampleSession kind).frames, frame.kind ≠ .bulkBatch ∧ frame.payload.length ≤ MAX_PAYLOAD := by
    cases kind <;> decide +kernel
  obtain ⟨packets, hcut, hframes⟩ := carries_bytes hfits
  unfold sampleChannel
  exact readyBefore_nil.2 ⟨packets, hcut, hframes.symm⟩

/-- The sample session is short. -/
theorem length_sampleSession (kind : ContentKind) : (sampleSession kind).frames.length < 100 := by
  cases kind <;> decide +kernel

/-- The sample session is captured. -/
theorem run_sampleSession (kind : ContentKind) :
    ∃ channel', captureObjects silent OrderChoice.ascending sampleCollector "" 100 (sampleChannel kind) =
      .ok (((sampleSession kind).artifact sampleCollector.strReprLen "", 14), channel') := by
  obtain ⟨-, hreturns⟩ := captureObjects_silent breaksOff_nil (ready_sampleChannel kind) OrderChoice.ascending
    sampleCollector "" (length_sampleSession kind)
  have hsends : (sampleSession kind).turns.length + 2 ≤ (sampleChannel kind).peer := by
    unfold sampleChannel
    exact Nat.le_refl 3
  exact (hreturns _ 14).2
    ⟨sampleSession kind, [], (List.append_nil _).symm, completes_sampleSession kind, hsends, rfl, rfl⟩

/-- **A list of which the Agent says that it is no container** is delivered in an artifact
that nobody can read as it was meant. -/
theorem capture_unfaithful :
    ¬∀ (tail : List UInt8) (channel : FramedSocket ℕ) (frames : List Frame) (orders : OrderChoice ℕ)
      (collector : Collector) (now : String) (rounds : ℕ) (requested : String) (directory : Directory),
      BreaksOff tail → ReadyBefore tail channel frames → frames.length < rounds →
        Faithful directory (reportedObjects frames)
          (capture silent orders collector now rounds requested directory channel) := by
  intro h
  obtain ⟨channel', hrun⟩ := run_sampleSession .none
  have hfaithful :=
    h [] (sampleChannel .none) _ OrderChoice.ascending sampleCollector "" 100 "heap" .empty breaksOff_nil
    (ready_sampleChannel .none) (length_sampleSession .none)
  have hreported : reportedObjects (sampleSession .none).frames = (sampleSession .none).objects := by
    rw [← List.append_nil (sampleSession .none).frames, reportedObjects_frames]
  rw [hreported, faithful_of_session (completes_sampleSession .none) (by decide) hrun] at hfaithful
  have hkind := (hfaithful (sampleReport 20 1 .none).object (by decide +kernel)).1
  revert hkind
  decide

/-- The list as it should be. -/
theorem capture_faithful_list :
    Faithful .empty (reportedObjects (sampleSession .list).frames)
      (capture silent OrderChoice.ascending sampleCollector "" 100 "heap" .empty (sampleChannel .list)) := by
  refine (capture_faithful_iff breaksOff_nil (ready_sampleChannel .list) _ _ _ (length_sampleSession .list) _ _).2
    ⟨by decide, ?_⟩
  intro session rest hframes _ _
  refine @Session.kindsAgree_of_frames (sampleSession .list) session [] rest ((List.append_nil _).trans hframes) ?_
  unfold Session.KindsAgree
  decide +kernel

end Capture
end Pydump
