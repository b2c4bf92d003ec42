/-
# What the Collector says and hears

The language of each routine of the Collector, `Protocol.Speaks`: an object is a
`Report`, a batch of pending addresses a `Turn`.  The routines that loop have an
induction on the bound of the loop; the others put the languages of their parts
together.

No exception of the source is `diverged`; the first part says so of the decoders and
of the writer.
-/

import Pydump.Capture.Session

namespace Pydump
namespace Capture

open ExceptLoop (Avoids)
open Protocol

/-! ### Computations that end -/

/-- Decoding addresses comes to an end. -/
theorem decodeAddresses_ne_diverged (payload : List UInt8) : decodeAddresses payload ≠ .error .diverged := by
  unfold decodeAddresses
  split_ifs
  · simp
  · simp

/-- Decoding pairs comes to an end. -/
theorem decodeDictEntries_ne_diverged (payload : List UInt8) : decodeDictEntries payload ≠ .error .diverged := by
  refine ExceptLoop.bind_ne_error (decodeAddresses_ne_diverged payload) fun addresses => ?_
  split_ifs
  · simp
  · simp

/-- Decoding the greeting comes to an end. -/
theorem decodeHello_ne_diverged (payload : List UInt8) : decodeHello payload ≠ .error .diverged := by
  unfold decodeHello
  dsimp only
  split_ifs
  · simp
  · simp
  · simp

/-- Decoding an announcement comes to an end. -/
theorem decodeObjectBegin_ne_diverged (payload : List UInt8) : decodeObjectBegin payload ≠ .error .diverged := by
  unfold decodeObjectBegin
  dsimp only
  split_ifs
  · simp
  · simp
  · simp

/-- Encoding the options comes to an end. -/
theorem encodeOptions_ne_diverged (strReprLen : ℤ) (dumpAttributes : Bool) :
    encodeOptions strReprLen dumpAttributes ≠ .error .diverged := by
  unfold encodeOptions
  by_cases h : -2 ^ 31 ≤ strReprLen ∧ strReprLen < 2 ^ 31
  · rw [if_pos h]
    exact fun h => by cases h
  · rw [if_neg h]
    exact fun h => by cases h

/-- Encoding addresses comes to an end. -/
theorem encodeAddresses_ne_diverged (addresses : List ℕ) : encodeAddresses addresses ≠ .error .diverged := by
  unfold encodeAddresses
  split_ifs
  · simp
  · simp

/-- Checking the greeting comes to an end. -/
theorem checkHello_ne_diverged (collector : Collector) (hello : Hello) :
    checkHello collector hello ≠ .error .diverged := by
  unfold checkHello
  split_ifs
  · simp
  · simp
  · simp
  · simp
  · simp

/-- An unexpected frame is a protocol error. -/
theorem unexpected_ne_diverged (frame : Frame) (stage : String) : unexpected frame stage ≠ .diverged := by
  unfold unexpected
  split_ifs
  · simp
  · simp

/-- Adding facts comes to an end. -/
theorem addFacts_ne_diverged (obj : HeapObject) (frame : Frame) : addFacts obj frame ≠ .error .diverged := by
  unfold addFacts
  split
  · exact ExceptLoop.bind_ne_error (decodeAddresses_ne_diverged _) fun _ h => by cases h
  · exact ExceptLoop.bind_ne_error (decodeAddresses_ne_diverged _) fun _ h => by cases h
  · exact ExceptLoop.bind_ne_error (decodeDictEntries_ne_diverged _) fun _ h => by cases h
  · exact fun h => by cases h
  · exact fun h => by cases h
  · exact fun h => unexpected_ne_diverged _ _ (Except.error.inj h)

/-! ### The writer -/

/-- A number of 32 bits is written or refused. -/
theorem avoids_writeU32 (value : ℕ) : Avoids .diverged (writeU32 value) :=
  Avoids.ite (fun _ h => by cases h) (Avoids.throw (by simp))

/-- A number of 64 bits is written or refused. -/
theorem avoids_writeU64 (value : ℕ) : Avoids .diverged (writeU64 value) :=
  Avoids.ite (fun _ h => by cases h) (Avoids.throw (by simp))

/-- Bytes are written. -/
theorem avoids_writeBytes (bytes : List UInt8) : Avoids .diverged (writeBytes bytes) := fun _ h => by cases h

/-- A string is written. -/
theorem avoids_writeLongString (value : String) : Avoids .diverged (writeLongString value) :=
  (avoids_writeBytes _).bind fun _ => avoids_writeBytes _

/-- A rendering is written. -/
theorem avoids_writeShortString (value : String) : Avoids .diverged (writeShortString value) :=
  (avoids_writeBytes _).bind fun _ => avoids_writeBytes _

/-- A look-up comes to an end. -/
theorem avoids_lookup (wellKnownTypes : OrderedDict String ℕ) (name : String) :
    Avoids .diverged (lookup wellKnownTypes name) := by
  unfold lookup
  split
  · exact Avoids.pure _
  · exact Avoids.throw (by simp)

/-- The section of the objects is begun. -/
theorem avoids_objectSection : Avoids .diverged objectSection := by
  refine Avoids.get.bind fun w => ?_
  split
  · exact Avoids.pure _
  · exact Avoids.throw (by simp)

/-- A content is written or refused. -/
theorem avoids_writeContent (obj : HeapObject) : Avoids .diverged (writeContent obj) := by
  have hsequence : Avoids .diverged (do
      writeU32 obj.sequenceContent.length
      obj.sequenceContent.forM writeU64
      pure obj.sequenceContent.toFinset) :=
    (avoids_writeU32 _).bind fun _ => (Avoids.forM _ avoids_writeU64).bind fun _ => Avoids.pure _
  unfold writeContent
  cases obj.contentKind with
  | none => exact Avoids.pure _
  | dict =>
    refine (avoids_writeU32 _).bind fun _ => (Avoids.forM _ fun entry => ?_).bind fun _ => Avoids.pure _
    exact (avoids_writeU64 _).bind fun _ => avoids_writeU64 _
  | list => exact hsequence
  | set => exact hsequence
  | tuple => exact hsequence

/-- The test for a container comes to an end. -/
theorem avoids_isContainer (wellKnownTypes : OrderedDict String ℕ) (typeAddress : ℕ) :
    Avoids .diverged (isContainer wellKnownTypes typeAddress) :=
  (avoids_lookup _ _).bind fun _ => (avoids_lookup _ _).bind fun _ => (avoids_lookup _ _).bind fun _ =>
    (avoids_lookup _ _).bind fun _ => Avoids.pure _

/-- The facts of an object are written or refused. -/
theorem avoids_writeFacts (obj : HeapObject) (wellKnownTypes : OrderedDict String ℕ) :
    Avoids .diverged (writeFacts obj wellKnownTypes) := by
  have hattribute : ∀ attr, Avoids .diverged (writeAttribute attr) := fun attr =>
    (avoids_writeShortString _).bind fun _ => avoids_writeU64 _
  exact (avoids_writeU64 _).bind fun _ => (avoids_writeU64 _).bind fun _ => (avoids_writeU32 _).bind fun _ =>
    (avoids_writeContent obj).bind fun _ => (avoids_writeU32 _).bind fun _ =>
      (Avoids.forM _ avoids_writeU64).bind fun _ =>
      (avoids_writeU32 _).bind fun _ => (Avoids.forM _ hattribute).bind fun _ =>
        (avoids_isContainer _ _).bind fun _ => Avoids.get.bind fun _ =>
          Avoids.ite (avoids_writeLongString _) (Avoids.pure _)

/-- An object is written or refused. -/
theorem avoids_writeObject (obj : HeapObject) (wellKnownTypes : OrderedDict String ℕ) :
    Avoids .diverged (writeObject obj wellKnownTypes) :=
  avoids_objectSection.bind fun _ => (avoids_writeFacts obj wellKnownTypes).bind fun _ => Avoids.modify _

/-- The header is written or refused. -/
theorem avoids_writeHeader (wellKnownTypes : OrderedDict String ℕ) (createdAt : Option String) (now : String) :
    Avoids .diverged (writeHeader wellKnownTypes createdAt now) := by
  have hrow : ∀ name, Avoids .diverged (writeWellKnown wellKnownTypes name) := fun name =>
    (avoids_writeLongString name).bind fun _ => (avoids_lookup _ _).bind fun _ => avoids_writeU64 _
  exact (Avoids.ite (Avoids.pure _) (Avoids.throw (by simp))).bind fun _ => (avoids_writeU64 _).bind fun _ =>
    (avoids_writeU32 _).bind fun _ => (avoids_writeLongString _).bind fun _ => Avoids.get.bind fun _ =>
      (avoids_writeU64 _).bind fun _ => (avoids_writeU32 _).bind fun _ => Avoids.forM _ hrow

/-- The end of the artifact is written or refused. -/
theorem avoids_finish (types : OrderedDict ℕ String) : Avoids .diverged (finish types) := by
  have hrow : ∀ entry, Avoids .diverged (writeType entry) := fun entry =>
    (avoids_writeU64 _).bind fun _ => avoids_writeLongString _
  have htypes : Avoids .diverged (writeTypes types) :=
    (avoids_writeU32 _).bind fun _ => (Avoids.forM _ hrow).bind fun _ => avoids_writeU64 _
  have hseek : ∀ offset, Avoids .diverged (seek offset) := fun _ _ h => by cases h
  exact avoids_objectSection.bind fun _ => Avoids.get.bind fun _ => (hseek _).bind fun _ =>
    (avoids_writeU32 _).bind fun _ => (hseek _).bind fun _ => htypes

/-- The artifact is opened or refused. -/
theorem openArtifact_ne_diverged (collector : Collector) (now : String) (wellKnownTypes : OrderedDict String ℕ) :
    openArtifact collector now wellKnownTypes ≠ .error .diverged := by
  have hthreads : Avoids .diverged (writeThreads []) :=
    (avoids_writeU32 _).bind fun _ => Avoids.pure _
  have hbegin : Avoids .diverged beginObjects :=
    (avoids_writeU32 _).bind fun _ => (avoids_writeU32 _).bind fun _ => (Avoids.modify _).bind fun _ =>
      avoids_writeU32 _
  exact ExceptLoop.bind_ne_error (((avoids_writeHeader wellKnownTypes none now).bind fun _ =>
    hthreads.bind fun _ => hbegin) _)
    fun _ h => by cases h

/-- An object is added or refused. -/
theorem addObject_ne_diverged (orders : OrderChoice ℕ) (wellKnownTypes : OrderedDict String ℕ) (walk : Walk)
    (obj : HeapObject) : addObject orders wellKnownTypes walk obj ≠ .error .diverged :=
  ExceptLoop.bind_ne_error (avoids_writeObject obj wellKnownTypes walk.writer) fun _ h => by cases h

/-! ### One object -/

variable {π : Type} {peer : Peer π}

/-- **An expected frame that is received first.** -/
theorem speaks_expect_bind {β : Type} {rounds : ℕ} {kind : FrameKind} (hkind : kind ≠ .error) {f : Frame → Framed π β}
    {M : List UInt8 → List Event → β → Prop} (hf : ∀ payload, Speaks peer rounds (f ⟨kind, payload⟩) (M payload)) :
    Speaks peer (rounds + 1) (expect kind >>= f) fun events b =>
      ∃ payload rest, events = .received ⟨kind, payload⟩ :: rest ∧ M payload rest b := by
  have hexpect : (expect kind : Framed π Frame) >>= f = receive >>= fun frame =>
      (if frame.kind = .error then throw (.pydumpError s!"agent failed: {decodeText frame.payload}")
      else if frame.kind ≠ kind then
        throw (.protocolError s!"expected {kind.name}, received {frame.kind.name}")
      else pure frame : Framed π Frame) >>= f := bind_assoc ..
  rw [hexpect]
  let Here : Frame → List Event → β → Prop := fun frame rest b => frame.kind = kind ∧ M frame.payload rest b
  have hnext : ∀ frame : Frame, Speaks peer rounds ((if frame.kind = .error then
      throw (.pydumpError s!"agent failed: {decodeText frame.payload}")
      else if frame.kind ≠ kind then
        throw (.protocolError s!"expected {kind.name}, received {frame.kind.name}")
      else pure frame : Framed π Frame) >>= f) (Here frame) := by
    rintro ⟨kind', payload⟩
    dsimp only [Here]
    by_cases herror : kind' = .error
    · rw [if_pos herror]
      refine (Speaks.throw (by simp : CaptureError.pydumpError _ ≠ .diverged)).congr fun events b => ?_
      rw [herror]
      exact ⟨False.elim, fun h => absurd h.1.symm hkind⟩
    · rw [if_neg herror]
      by_cases hsame : kind' = kind
      · rw [if_neg (not_not.2 hsame), hsame, pure_bind]
        exact (hf payload).congr fun events b => by simp
      · rw [if_pos hsame]
        refine (Speaks.throw (by simp : CaptureError.protocolError _ ≠ .diverged)).congr fun events b => ?_
        exact ⟨False.elim, fun h => absurd h.1 hsame⟩
  refine (Speaks.receive_bind hnext).congr fun events b => ⟨?_, ?_⟩
  · rintro ⟨⟨kind', payload⟩, rest, rfl, rfl, hrest⟩
    exact ⟨payload, rest, rfl, hrest⟩
  · rintro ⟨payload, rest, rfl, hrest⟩
    exact ⟨⟨kind, payload⟩, rest, rfl, rfl, hrest⟩
/-- The frames of an object behind its `OBJECT_BEGIN`, fewer than `rounds` before the
`OBJECT_END`. -/
def TellsFacts (strReprLen : ℤ) (rounds : ℕ) (obj : HeapObject) (events : List Event) (obj' : HeapObject) : Prop :=
  ∃ facts last added, events = receipts (facts ++ [⟨.objectEnd, last⟩]) ∧ facts.foldlM addFacts obj = .ok added ∧
    (∀ frame ∈ facts, frame.kind ≠ .objectEnd) ∧ facts.length < rounds ∧ obj' = placeholder strReprLen added

/-- **The loop over the frames of an object.** -/
theorem speaks_receiveFacts (strReprLen : ℤ) (rounds : ℕ) (obj : HeapObject) :
    Speaks peer rounds (receiveFacts strReprLen rounds obj : Framed π HeapObject)
      (TellsFacts strReprLen rounds obj) := by
  induction rounds generalizing obj with
  | zero =>
    refine ⟨fun channel a channel' => ⟨fun h => ?_, ?_⟩, fun channel _ => ⟨[], channel, Nat.zero_le _, .nil channel⟩⟩
    · cases h
    · rintro ⟨events, ⟨facts, last, added, -, -, -, hlen, -⟩, -⟩
      exact absurd hlen (Nat.not_lt_zero _)
  | succ rounds ih =>
    let Here : Frame → List Event → HeapObject → Prop := fun frame events obj' =>
      if frame.kind = .objectEnd then events = [] ∧ obj' = placeholder strReprLen obj
      else ∃ obj₁, addFacts obj frame = .ok obj₁ ∧ TellsFacts strReprLen rounds obj₁ events obj'
    have hnext : ∀ frame : Frame, Speaks peer rounds (if frame.kind = .objectEnd then pure (placeholder strReprLen obj)
        else do
          let obj ← (addFacts obj frame : Except CaptureError HeapObject)
          receiveFacts strReprLen rounds obj : Framed π HeapObject) (Here frame) := by
      intro frame
      dsimp only [Here]
      split_ifs with hend
      · exact Speaks.pure _
      · exact Speaks.lift_bind (addFacts_ne_diverged obj frame) fun obj₁ _ => ih obj₁
    refine (Speaks.receive_bind hnext).congr fun events obj' => ⟨?_, ?_⟩
    · rintro ⟨⟨kind, payload⟩, rest, rfl, hrest⟩
      dsimp only [Here] at hrest
      split_ifs at hrest with hend
      · obtain ⟨rfl, rfl⟩ := hrest
        exact ⟨[], payload, obj, by rw [hend]; rfl, rfl, by simp, Nat.succ_pos _, rfl⟩
      · obtain ⟨obj₁, hadd, facts, last, added, rfl, hfacts, hinside, hlen, rfl⟩ := hrest
        refine ⟨⟨kind, payload⟩ :: facts, last, added, rfl, ?_, ?_, Nat.succ_lt_succ hlen, rfl⟩
        · rw [List.foldlM_cons, ExceptLoop.bind_ok hadd, hfacts]
        · intro frame hframe
          rcases List.mem_cons.1 hframe with rfl | hframe
          · exact hend
          · exact hinside frame hframe
    · rintro ⟨facts, last, added, rfl, hfacts, hinside, hlen, rfl⟩
      cases facts with
      | nil =>
        cases hfacts
        exact ⟨⟨.objectEnd, last⟩, [], rfl, by dsimp only [Here]; rw [if_pos rfl]; exact ⟨rfl, rfl⟩⟩
      | cons frame facts =>
        rw [List.foldlM_cons] at hfacts
        obtain ⟨obj₁, hadd, hrest⟩ := ExceptLoop.bind_eq_ok.1 hfacts
        refine ⟨frame, receipts (facts ++ [⟨.objectEnd, last⟩]), rfl, ?_⟩
        dsimp only [Here]
        rw [if_neg (hinside frame List.mem_cons_self)]
        exact ⟨obj₁, hadd, facts, last, added, rfl, hrest, fun f hf => hinside f (List.mem_cons_of_mem frame hf),
          Nat.lt_of_succ_lt_succ hlen, rfl⟩

/-- **One object is one report.** -/
theorem speaks_receiveObject (strReprLen : ℤ) (rounds expectedAddress : ℕ) :
    Speaks peer rounds (receiveObject strReprLen rounds expectedAddress : Framed π HeapObject) fun events obj =>
      ∃ report : Report, report.object.address = expectedAddress ∧ report.facts.length < rounds ∧
        events = receipts report.frames ∧ obj = placeholder strReprLen report.object := by
  let Here : ObjectBegin → List Event → HeapObject → Prop := fun begin events obj =>
    begin.address = expectedAddress ∧ ∃ kind, ContentKind.ofNat? begin.contentKind = some kind ∧
      TellsFacts strReprLen rounds (freshObject begin kind) events obj
  have hobject : Speaks peer (rounds + 1) (receiveObject strReprLen rounds expectedAddress : Framed π HeapObject)
      fun events obj => ∃ payload rest, events = .received ⟨.objectBegin, payload⟩ :: rest ∧
        ∃ begin, decodeObjectBegin payload = .ok begin ∧ Here begin rest obj := by
    refine speaks_expect_bind (by decide) fun payload =>
      Speaks.lift_bind (decodeObjectBegin_ne_diverged payload) fun begin _ => ?_
    dsimp only [Here]
    by_cases haddress : begin.address = expectedAddress
    · rw [if_neg (not_not.2 haddress)]
      cases hkind : ContentKind.ofNat? begin.contentKind with
      | none =>
        refine (Speaks.throw (by simp : CaptureError.protocolError _ ≠ .diverged)).congr fun events obj => ?_
        simp
      | some kind =>
        refine (speaks_receiveFacts strReprLen rounds (freshObject begin kind)).congr fun events obj => ?_
        simp only [haddress, true_and, Option.some.injEq, exists_eq_left']
    · rw [if_pos haddress]
      refine (Speaks.throw (by simp : CaptureError.protocolError _ ≠ .diverged)).congr fun events obj => ?_
      simp only [haddress, false_and]
  refine (hobject.mono (Nat.le_succ rounds)).congr fun events obj => ⟨?_, ?_⟩
  · rintro ⟨payload, rest, rfl, begin, hbegin, rfl, kind, hkind, facts, last, added, rfl, hfacts, hinside, hlen, rfl⟩
    exact ⟨⟨payload, begin, kind, facts, last, added, hbegin, hkind, hfacts, hinside⟩, Report.address_eq _, hlen, rfl,
      rfl⟩
  · rintro ⟨report, rfl, hlen, rfl, rfl⟩
    exact ⟨report.payload, receipts (report.facts ++ [⟨.objectEnd, report.last⟩]), rfl, report.begin, report.begin_eq,
      report.address_eq.symm, report.kind, report.kind_eq, report.facts, report.last, report.object, rfl,
      report.object_eq, report.inside, hlen, rfl⟩

/-! ### Batches and roots -/

/-- Reports that are short enough for the bound on their frames. -/
def Turn.Within (rounds : ℕ) (turn : Turn) : Prop := ∀ report ∈ turn.reports, report.facts.length < rounds

/-- **The objects of a batch** are reported in the order in which they were asked
for. -/
theorem speaks_receiveBatch (orders : OrderChoice ℕ) (collector : Collector) (wellKnownTypes : OrderedDict String ℕ)
    (rounds : ℕ) (batch : List ℕ) (walk : Walk) :
    Speaks peer rounds (receiveBatch orders collector wellKnownTypes rounds batch walk : Framed π Walk)
      fun events walk' => ∃ reports : List Report, reports.map (fun report => report.object.address) = batch ∧
        (∀ report ∈ reports, report.facts.length < rounds) ∧ events = receipts (reports.flatMap Report.frames) ∧
          (reports.map fun report => placeholder collector.strReprLen report.object).foldlM
            (addObject orders wellKnownTypes) walk = .ok walk' := by
  induction batch generalizing walk with
  | nil =>
    refine (Speaks.pure walk).congr fun events walk' => ⟨?_, ?_⟩
    · rintro ⟨rfl, rfl⟩
      exact ⟨[], rfl, by simp, rfl, rfl⟩
    · rintro ⟨reports, hnone, -, rfl, hwalk⟩
      obtain rfl := List.map_eq_nil_iff.1 hnone
      cases hwalk
      exact ⟨rfl, rfl⟩
  | cons expectedAddress batch ih =>
    refine ((speaks_receiveObject collector.strReprLen rounds expectedAddress).bind fun obj =>
      Speaks.lift_bind (addObject_ne_diverged orders wellKnownTypes walk obj) fun walk₁ _ => ih walk₁).congr
        fun events walk' => ⟨?_, ?_⟩
    · rintro ⟨xs, ys, obj, rfl, ⟨report, haddress, hlen, rfl, rfl⟩, walk₁, hadd, reports, hbatch, hlens, rfl, hrest⟩
      refine ⟨report :: reports, by rw [List.map_cons, haddress, hbatch], fun r hr => ?_, ?_, ?_⟩
      · rcases List.mem_cons.1 hr with rfl | hr
        · exact hlen
        · exact hlens r hr
      · rw [List.flatMap_cons, receipts_append]
      · rw [List.map_cons, List.foldlM_cons, ExceptLoop.bind_ok hadd, hrest]
    · rintro ⟨reports, hbatch, hlens, rfl, hwalk⟩
      cases reports with
      | nil => cases hbatch
      | cons report reports =>
        obtain ⟨haddress, hbatch⟩ := List.cons.inj hbatch
        rw [List.map_cons, List.foldlM_cons] at hwalk
        obtain ⟨walk₁, hadd, hrest⟩ := ExceptLoop.bind_eq_ok.1 hwalk
        refine ⟨receipts report.frames, receipts (reports.flatMap Report.frames), _, ?_,
          ⟨report, haddress, hlens report List.mem_cons_self, rfl, rfl⟩, walk₁, hadd, reports, hbatch,
          fun r hr => hlens r (List.mem_cons_of_mem report hr), rfl, hrest⟩
        rw [List.flatMap_cons, receipts_append]

/-- Addresses may be scheduled in two parts. -/
theorem schedule_append (walk : Walk) (xs ys : List ℕ) : schedule walk (xs ++ ys) = schedule (schedule walk xs) ys :=
  List.foldl_append

/-- The root batches, fewer than `rounds` before the `ROOTS_DONE`. -/
def TellsRoots (rounds : ℕ) (walk : Walk) (events : List Event) (walk' : Walk) : Prop :=
  ∃ (payloads : List (List UInt8)) (last : List UInt8) (roots : List (List ℕ)),
    events = receipts (payloads.map (Frame.mk .rootBatch) ++ [⟨.rootsDone, last⟩]) ∧
      payloads.mapM decodeAddresses = .ok roots ∧ payloads.length < rounds ∧ walk' = schedule walk roots.flatten

/-- **The root enumeration.** -/
theorem speaks_receiveRoots (rounds : ℕ) (walk : Walk) :
    Speaks peer rounds (receiveRoots rounds walk : Framed π Walk) (TellsRoots rounds walk) := by
  induction rounds generalizing walk with
  | zero =>
    refine ⟨fun channel a channel' => ⟨fun h => ?_, ?_⟩, fun channel _ => ⟨[], channel, Nat.zero_le _, .nil channel⟩⟩
    · cases h
    · rintro ⟨events, ⟨payloads, last, roots, -, -, hlen, -⟩, -⟩
      exact absurd hlen (Nat.not_lt_zero _)
  | succ rounds ih =>
    let Here : Frame → List Event → Walk → Prop := fun frame events walk' =>
      (frame.kind = .rootsDone ∧ events = [] ∧ walk' = walk) ∨ (frame.kind = .rootBatch ∧
        ∃ addresses, decodeAddresses frame.payload = .ok addresses ∧
          TellsRoots rounds (schedule walk addresses) events walk')
    rw [receiveRoots]
    refine (Speaks.receive_bind (M := Here) fun frame => ?_).congr fun events walk' => ⟨?_, ?_⟩
    · dsimp only [Here]
      split
      · rename_i hkind
        refine (Speaks.lift_bind (decodeAddresses_ne_diverged frame.payload) fun addresses _ =>
          ih (schedule walk addresses)).congr fun events walk' => ?_
        simp only [hkind, reduceCtorEq, false_and, false_or, true_and]
      · rename_i hkind
        refine (Speaks.pure walk).congr fun events walk' => ?_
        simp only [hkind, reduceCtorEq, false_and, or_false, true_and]
      · rename_i hbatch hdone
        refine (Speaks.throw (unexpected_ne_diverged frame _)).congr fun events walk' => ?_
        constructor
        · exact False.elim
        · rintro (⟨hkind, -⟩ | ⟨hkind, -⟩)
          · exact hdone hkind
          · exact hbatch hkind
    · rintro ⟨⟨kind, payload⟩, rest, rfl, ⟨rfl, rfl, rfl⟩ |
        ⟨rfl, addresses, hdecode, payloads, last, roots, rfl, hroots, hlen, rfl⟩⟩
      · exact ⟨[], payload, [], rfl, rfl, Nat.succ_pos _, rfl⟩
      · refine ⟨payload :: payloads, last, addresses :: roots, rfl, ?_, Nat.succ_lt_succ hlen, ?_⟩
        · rw [List.mapM_cons, ExceptLoop.bind_ok hdecode, ExceptLoop.bind_ok hroots]
          rfl
        · rw [List.flatten_cons, schedule_append]
    · rintro ⟨payloads, last, roots, rfl, hroots, hlen, rfl⟩
      cases payloads with
      | nil =>
        cases hroots
        exact ⟨⟨.rootsDone, last⟩, [], rfl, .inl ⟨rfl, rfl, rfl⟩⟩
      | cons payload payloads =>
        rw [List.mapM_cons] at hroots
        obtain ⟨addresses, hdecode, hroots⟩ := ExceptLoop.bind_eq_ok.1 hroots
        obtain ⟨roots', hroots', hcons⟩ := ExceptLoop.bind_eq_ok.1 hroots
        cases hcons
        exact ⟨⟨.rootBatch, payload⟩, receipts (payloads.map (Frame.mk .rootBatch) ++ [⟨.rootsDone, last⟩]), rfl,
          .inr ⟨rfl, addresses, hdecode, payloads, last, roots', rfl, hroots', Nat.lt_of_succ_lt_succ hlen, by
            rw [List.flatten_cons, schedule_append]⟩⟩

/-! ### The walk -/

/-- The walk goes through the turns; the first number bounds the turns, the second
the frames of an object. -/
inductive Walks (orders : OrderChoice ℕ) (collector : Collector) (wellKnownTypes : OrderedDict String ℕ) (rounds : ℕ) :
    ℕ → Walk → List Turn → Walk → Prop
  | done {n walk} (pending : walk.pending = []) : Walks orders collector wellKnownTypes rounds (n + 1) walk [] walk
  | turn {n walk turn walk₁ turns walk₂} (pending : walk.pending ≠ [])
      (keys : turn.objects.map HeapObject.address = batchOf collector.batchSize walk.pending)
      (fits : ∀ address ∈ turn.objects.map HeapObject.address, address < 2 ^ 64) (within : turn.Within rounds)
      (added : (turn.objects.map (placeholder collector.strReprLen)).foldlM (addObject orders wellKnownTypes)
        { walk with pending := restOf collector.batchSize walk.pending } = .ok walk₁)
      (later : Walks orders collector wellKnownTypes rounds n walk₁ turns walk₂) :
      Walks orders collector wellKnownTypes rounds (n + 1) walk (turn :: turns) walk₂

/-- **The loop over the pending addresses.** -/
theorem speaks_receiveObjects (orders : OrderChoice ℕ) (collector : Collector) (wellKnownTypes : OrderedDict String ℕ)
    (rounds : ℕ) {batches : ℕ} (hbatches : batches ≤ rounds) (walk : Walk) :
    Speaks peer batches (receiveObjects peer orders collector wellKnownTypes rounds batches walk) fun events walk' =>
      ∃ turns, events = turns.flatMap Turn.events ∧
        Walks orders collector wellKnownTypes rounds batches walk turns walk' := by
  induction batches generalizing walk with
  | zero =>
    refine ⟨fun channel a channel' => ⟨fun h => ?_, ?_⟩, fun channel _ => ⟨[], channel, Nat.zero_le _, .nil channel⟩⟩
    · cases h
    · rintro ⟨events, ⟨turns, -, hwalks⟩, -⟩
      cases hwalks
  | succ batches ih =>
    by_cases hpending : walk.pending = []
    · rw [receiveObjects, if_pos hpending]
      refine (Speaks.pure walk).congr fun events walk' => ⟨?_, ?_⟩
      · rintro ⟨rfl, rfl⟩
        exact ⟨[], rfl, .done hpending⟩
      · rintro ⟨turns, rfl, hwalks⟩
        cases hwalks with
        | done _ => exact ⟨rfl, rfl⟩
        | turn pending _ _ _ _ _ => exact absurd hpending pending
    · rw [receiveObjects, if_neg hpending]
      have hdone (walk₁ : Walk) : Speaks peer (batches + 1) (do
          let _ ← expect .batchDone
          receiveObjects peer orders collector wellKnownTypes rounds batches walk₁ : Framed π Walk) fun events walk' =>
            ∃ last rest, events = .received ⟨.batchDone, last⟩ :: rest ∧ ∃ turns, rest = turns.flatMap Turn.events ∧
              Walks orders collector wellKnownTypes rounds batches walk₁ turns walk' :=
        speaks_expect_bind (by decide) fun last => ih (by omega) walk₁
      let walk₀ : Walk := { walk with pending := restOf collector.batchSize walk.pending }
      have hbatch := (speaks_receiveBatch orders collector wellKnownTypes rounds
        (batchOf collector.batchSize walk.pending) walk₀).mono hbatches |>.bind hdone
      refine (Speaks.lift_bind (encodeAddresses_ne_diverged (batchOf collector.batchSize walk.pending))
        fun request _ => @Speaks.send_bind _ _ _ _ .requestObjects request _ _ hbatch).congr
          fun events walk' => ⟨?_, ?_⟩
      · rintro ⟨request, hencode, ys, rfl, xs, zs, walk₁, rfl, ⟨reports, hkeys, hlens, rfl, hadded⟩, last, rest, rfl,
          turns, rfl, hwalks⟩
        rw [encodeAddresses] at hencode
        split_ifs at hencode with hfits
        cases hencode
        have hobjects : (Turn.mk reports last).objects.map HeapObject.address =
            batchOf collector.batchSize walk.pending := by
          rw [← hkeys, Turn.objects, List.map_map]
          rfl
        refine ⟨⟨reports, last⟩ :: turns, ?_, .turn hpending hobjects (by rw [hobjects]; exact hfits) hlens ?_ hwalks⟩
        · rw [List.flatMap_cons, Turn.events, hobjects, Turn.frames, receipts_append, List.cons_append,
            List.append_assoc]
          rfl
        · rw [Turn.objects, List.map_map]
          exact hadded
      · rintro ⟨turns, rfl, hwalks⟩
        cases hwalks with
        | done pending => exact absurd pending hpending
        | @turn _ _ turn walk₁ turns _ _ keys fits within added later =>
          refine ⟨packAddresses (turn.objects.map HeapObject.address), ?_,
            receipts turn.frames ++ turns.flatMap Turn.events,
            ?_, receipts (turn.reports.flatMap Report.frames),
              .received ⟨.batchDone, turn.last⟩ :: turns.flatMap Turn.events,
            walk₁, ?_, ⟨turn.reports, ?_, within, rfl, ?_⟩, turn.last, _, rfl, turns, rfl, later⟩
          · rw [← keys]
            exact encodeAddresses_eq fits
          · rw [List.flatMap_cons, Turn.events, List.cons_append]
          · rw [Turn.frames, receipts_append, List.append_assoc]
            rfl
          · rw [← keys, Turn.objects, List.map_map]
            rfl
          · rw [Turn.objects, List.map_map] at added
            exact added

/-! ### The whole capture -/

/-- **The handshake.** -/
theorem speaks_greet (collector : Collector) (rounds : ℕ) :
    Speaks peer rounds (greet peer collector) fun events addresses =>
      ∃ helloPayload hello options wellKnownPayload,
        events = [.received ⟨.hello, helloPayload⟩, .sent .helloAck options,
          .received ⟨.wellKnown, wellKnownPayload⟩] ∧
        decodeHello helloPayload = .ok hello ∧ checkHello collector hello = .ok () ∧
        encodeOptions collector.strReprLen collector.dumpAttributes = .ok options ∧
        decodeAddresses wellKnownPayload = .ok addresses ∧ addresses.length = WELL_KNOWN_TYPE_NAMES.length := by
  have hcount : ∀ addresses : List ℕ, Speaks peer rounds (if addresses.length ≠ WELL_KNOWN_TYPE_NAMES.length then
        throw (.protocolError
          s!"agent returned {addresses.length} well-known types, expected {WELL_KNOWN_TYPE_NAMES.length}")
      else pure addresses : Framed π (List ℕ)) fun events addresses' =>
        addresses.length = WELL_KNOWN_TYPE_NAMES.length ∧ events = [] ∧ addresses' = addresses := by
    intro addresses
    by_cases hlen : addresses.length = WELL_KNOWN_TYPE_NAMES.length
    · rw [if_neg (not_not.2 hlen)]
      exact (Speaks.pure addresses).congr fun events addresses' => by simp only [hlen, true_and]
    · rw [if_pos hlen]
      refine (Speaks.throw (by simp : CaptureError.protocolError _ ≠ .diverged)).congr fun events addresses' => ?_
      simp only [hlen, false_and]
  have hwellKnown : Speaks peer (rounds + 1) (do
      let frame ← expect .wellKnown
      let addresses ← (decodeAddresses frame.payload : Except CaptureError (List ℕ))
      if addresses.length ≠ WELL_KNOWN_TYPE_NAMES.length then
        throw (.protocolError
          s!"agent returned {addresses.length} well-known types, expected {WELL_KNOWN_TYPE_NAMES.length}")
      else pure addresses : Framed π (List ℕ)) fun events addresses' => ∃ payload rest,
        events = .received ⟨.wellKnown, payload⟩ :: rest ∧ ∃ addresses, decodeAddresses payload = .ok addresses ∧
          addresses.length = WELL_KNOWN_TYPE_NAMES.length ∧ rest = [] ∧ addresses' = addresses :=
    speaks_expect_bind (by decide) fun payload =>
      Speaks.lift_bind (decodeAddresses_ne_diverged payload) fun addresses _ => hcount addresses
  have hgreet : Speaks peer (rounds + 1 + 1) (greet peer collector) fun events addresses' => ∃ payload rest,
      events = .received ⟨.hello, payload⟩ :: rest ∧ ∃ hello, decodeHello payload = .ok hello ∧
        ∃ u : Unit, checkHello collector hello = .ok u ∧
          ∃ options, encodeOptions collector.strReprLen collector.dumpAttributes = .ok options ∧
            ∃ rest', rest = .sent .helloAck options :: rest' ∧ ∃ payload rest,
              rest' = .received ⟨.wellKnown, payload⟩ :: rest ∧ ∃ addresses, decodeAddresses payload = .ok addresses ∧
                addresses.length = WELL_KNOWN_TYPE_NAMES.length ∧ rest = [] ∧ addresses' = addresses :=
    speaks_expect_bind (by decide) fun payload => Speaks.lift_bind (decodeHello_ne_diverged payload) fun hello _ =>
      Speaks.lift_bind (checkHello_ne_diverged collector hello) fun _ _ =>
        Speaks.lift_bind (encodeOptions_ne_diverged _ _) fun options _ => Speaks.send_bind hwellKnown
  refine (hgreet.mono (by omega)).congr fun events addresses' => ⟨?_, ?_⟩
  · rintro ⟨payload, rest, rfl, hello, hhello, ⟨⟩, hcheck, options, hoptions, rest', rfl, wellKnownPayload, rest, rfl,
      addresses, haddresses, hlen, rfl, rfl⟩
    exact ⟨payload, hello, options, wellKnownPayload, rfl, hhello, hcheck, hoptions, haddresses, hlen⟩
  · rintro ⟨payload, hello, options, wellKnownPayload, rfl, hhello, hcheck, hoptions, haddresses, hlen⟩
    exact ⟨payload, _, rfl, hello, hhello, (), hcheck, options, hoptions, _, rfl, wellKnownPayload, _, rfl, addresses',
      haddresses, hlen, rfl, rfl⟩

/-- The walk before its first request, with a writer that stands behind the
preamble. -/
def Session.firstWalk (session : Session) (writer : HeapWriter) : Walk :=
  { schedule (schedule ⟨writer, ∅, [], .empty, 0⟩ session.roots.flatten) session.addresses with
    types := .ofPairs (session.addresses.zip WELL_KNOWN_TYPE_NAMES) }

/-- What `_capture` makes of a session. -/
structure Session.Captured (session : Session) (collector : Collector) (orders : OrderChoice ℕ) (now : String)
    (rounds : ℕ) (options bytes : List UInt8) (count : ℕ) : Prop where
  greeting : checkHello collector session.hello = .ok ()
  options : encodeOptions collector.strReprLen collector.dumpAttributes = .ok options
  wellKnown : session.addresses.length = WELL_KNOWN_TYPE_NAMES.length
  roots : session.rootPayloads.length < rounds
  written : ∃ writer walk writer', openArtifact collector now session.wellKnownTypes = .ok writer ∧
    Walks orders collector session.wellKnownTypes rounds rounds (session.firstWalk writer) session.turns walk ∧
      finish walk.types walk.writer = .ok ((), writer') ∧ bytes = writer'.file ∧ count = walk.completed

/-- **A capture is a session.** -/
theorem speaks_captureObjects (orders : OrderChoice ℕ) (collector : Collector) (now : String) (rounds : ℕ) :
    Speaks peer rounds (captureObjects peer orders collector now rounds) fun events result =>
      ∃ session : Session, ∃ options, events = session.events options ∧
        session.Captured collector orders now rounds options result.1 result.2 := by
  have hfinish (walk : Walk) : Speaks peer (rounds + 1) (do
      let _ ← expect .complete
      let written ← (finish walk.types walk.writer : Except CaptureError (Unit × HeapWriter))
      pure (written.2.file, walk.completed) : Framed π (List UInt8 × ℕ)) fun events result =>
        ∃ last rest, events = .received ⟨.complete, last⟩ :: rest ∧
          ∃ p : Unit × HeapWriter, finish walk.types walk.writer = .ok p ∧ rest = [] ∧
            result = (p.2.file, walk.completed) :=
    speaks_expect_bind (by decide) fun last =>
      Speaks.lift_bind (avoids_finish walk.types walk.writer) fun p _ => Speaks.pure _
  have hsend (walk : Walk) : Speaks peer rounds (do
      send peer .finish []
      let _ ← expect .complete
      let written ← (finish walk.types walk.writer : Except CaptureError (Unit × HeapWriter))
      pure (written.2.file, walk.completed) : Framed π (List UInt8 × ℕ)) fun events result =>
        ∃ rest', events = .sent .finish [] :: rest' ∧ ∃ last rest, rest' = .received ⟨.complete, last⟩ :: rest ∧
          ∃ p : Unit × HeapWriter, finish walk.types walk.writer = .ok p ∧ rest = [] ∧
            result = (p.2.file, walk.completed) :=
    Speaks.send_bind ((hfinish walk).mono (Nat.le_succ rounds))
  have hcapture := (speaks_greet collector rounds).bind fun wellKnownAddresses =>
    Speaks.lift_bind (openArtifact_ne_diverged collector now
      (OrderedDict.ofPairs (WELL_KNOWN_TYPE_NAMES.zip wellKnownAddresses))) fun writer _ =>
      (speaks_receiveRoots rounds ⟨writer, ∅, [], .empty, 0⟩).bind fun walk =>
        (speaks_receiveObjects orders collector (OrderedDict.ofPairs (WELL_KNOWN_TYPE_NAMES.zip wellKnownAddresses))
          rounds
          (Nat.le_refl rounds) { schedule walk wellKnownAddresses with
            types := OrderedDict.ofPairs (wellKnownAddresses.zip WELL_KNOWN_TYPE_NAMES) }).bind fun walk =>
          hsend walk
  refine hcapture.congr fun events result => ⟨?_, ?_⟩
  · rintro ⟨xs, ys, addresses, rfl, ⟨helloPayload, hello, options, wellKnownPayload, rfl, hhello, hcheck, hoptions,
      haddresses, hlen⟩, writer, hwriter, xs, ys, walk, rfl, ⟨payloads, rootsDone, roots, rfl, hroots, hfew, rfl⟩, xs,
        ys,
      walk, rfl, ⟨turns, rfl, hwalks⟩, ys, rfl, last, rest, rfl, ⟨⟨⟩, writer'⟩, hwritten, rfl, rfl⟩
    refine ⟨⟨⟨helloPayload, hello, wellKnownPayload, addresses, payloads, roots, rootsDone, hhello, haddresses, hroots⟩,
      turns, last⟩, options, rfl, hcheck, hoptions, hlen, hfew, writer, walk, writer', hwriter, hwalks, hwritten,
      rfl, rfl⟩
  · rintro ⟨session, options, rfl, hcheck, hoptions, hlen, hfew, writer, walk, writer', hwriter, hwalks, hwritten,
      hbytes, hcount⟩
    refine ⟨_, _, session.addresses, ?_, ⟨session.helloPayload, session.hello, options, session.wellKnownPayload, rfl,
      session.hello_eq, hcheck, hoptions, session.addresses_eq, hlen⟩, writer, hwriter, receipts session.rootFrames, _,
        _,
      rfl, ⟨session.rootPayloads, session.rootsDone, session.roots, rfl, session.roots_eq, hfew, rfl⟩,
      session.turns.flatMap Turn.events, _, walk, rfl, ⟨session.turns, rfl, hwalks⟩, _, rfl, session.last, [], rfl,
      ((), writer'), hwritten, rfl, Prod.ext hbytes hcount⟩
    rfl

end Capture
end Pydump
