/-
# Sessions that take place

What `_capture` makes of a session that the other end goes through with it, where the
numbers of the session may be too large for the artifact.  A session that fits is
written; in front of one that does not, the routine raises: at the first object that
does not fit, or at the end for the number of objects or of types.
-/

import Pydump.Capture.SessionSpec

namespace Pydump
namespace Capture

open Analyzer (ContainerTypes)
open Artifact (Fits32 ObjectFits TypesFit layoutPreamble objectState)
open ExceptLoop (run_bind_ok run_bind_error run_lift_bind run_lift_error)
open Protocol

variable {π : Type} {peer : Peer π} {orders : OrderChoice ℕ} {collector : Collector}

/-! ### Frames that are there -/

/-- The frame that is expected is received. -/
theorem expect_eq_ok {kind : FrameKind} (hkind : kind ≠ .error) {payload : List UInt8}
    {channel channel' : FramedSocket π} (h : receive channel = .ok (⟨kind, payload⟩, channel')) :
    expect kind channel = .ok (⟨kind, payload⟩, channel') := by
  rw [expect, run_bind_ok h, if_neg hkind, if_neg (not_not.2 rfl)]
  rfl

/-- An object is received as it is reported. -/
theorem receiveObject_eq_ok (strReprLen : ℤ) {rounds : ℕ} {report : Report} (hwithin : report.facts.length < rounds)
    {channel channel' : FramedSocket π} (h : Performs peer channel (receipts report.frames) channel') :
    receiveObject strReprLen rounds report.object.address channel =
      .ok (placeholder strReprLen report.object, channel') :=
  ((speaks_receiveObject strReprLen rounds _).returns _ _ _).2 ⟨_, ⟨report, rfl, hwithin, rfl, rfl⟩, h⟩

/-! ### Objects that do not fit -/

/-- **A batch raises** what the writer raises at one of its objects. -/
theorem receiveBatch_raises {wellKnownTypes : OrderedDict String ℕ} {rounds : ℕ} {reports : List Report}
    (hwithin : ∀ report ∈ reports, report.facts.length < rounds) {walk : Walk} {e : CaptureError}
    (hadd : (reports.map fun report => placeholder collector.strReprLen report.object).foldlM
      (addObject orders wellKnownTypes) walk = .error e) {channel channel' : FramedSocket π}
    (h : Performs peer channel (receipts (reports.flatMap Report.frames)) channel') :
    receiveBatch orders collector wellKnownTypes rounds (reports.map fun report => report.object.address) walk channel =
      .error e := by
  induction reports generalizing walk channel with
  | nil => cases hadd
  | cons report reports ih =>
    rw [List.flatMap_cons, receipts_append] at h
    obtain ⟨channel₁, hfirst, hrest⟩ := Performs.append_iff.1 h
    have hobject := receiveObject_eq_ok collector.strReprLen (hwithin report List.mem_cons_self) hfirst
    rw [List.map_cons, receiveBatch, run_bind_ok hobject]
    rw [List.map_cons, List.foldlM_cons] at hadd
    cases hone : addObject orders wellKnownTypes walk (placeholder collector.strReprLen report.object) with
    | error e' =>
      rw [ExceptLoop.bind_error hone] at hadd
      cases hadd
      exact run_bind_error (run_lift_error rfl)
    | ok walk₁ =>
      rw [ExceptLoop.bind_ok hone] at hadd
      exact (run_lift_bind rfl).trans (ih (fun r hr => hwithin r (List.mem_cons_of_mem report hr)) hadd hrest)

/-- Objects are added or refused. -/
theorem foldlM_addObject_ne_diverged (wellKnownTypes : OrderedDict String ℕ) (objects : List HeapObject) (walk : Walk) :
    objects.foldlM (addObject orders wellKnownTypes) walk ≠ .error .diverged := by
  rcases ExceptLoop.foldlM_cases (addObject orders wellKnownTypes) objects walk with
    ⟨walk', hrun⟩ | ⟨_, obj, _, walk', e, -, -, hraised, hrun⟩
  · rw [hrun]
    exact fun h => by cases h
  · rw [hrun]
    intro h
    cases h
    exact addObject_ne_diverged orders wellKnownTypes walk' obj hraised

/-- A reported address fits 64 bits. -/
theorem Turn.address_lt {turn : Turn} : ∀ address ∈ turn.objects.map HeapObject.address, address < 2 ^ 64 := by
  intro address haddress
  obtain ⟨obj, hobj, rfl⟩ := List.mem_map.1 haddress
  obtain ⟨report, -, rfl⟩ := List.mem_map.1 hobj
  rw [report.address_eq]
  exact (decodeObjectBegin_lt report.begin_eq).1

/-- A turn requests the addresses of its objects. -/
theorem Turn.batch_eq (turn : Turn) :
    (turn.reports.map fun report => report.object.address) = turn.objects.map HeapObject.address := by
  rw [Turn.objects, List.map_map]
  rfl

/-- A turn stores its objects. -/
theorem Turn.stored_eq (turn : Turn) {strReprLen : ℤ} : turn.objects.map (placeholder strReprLen) =
    turn.reports.map fun report => placeholder strReprLen report.object := by
  rw [Turn.objects, List.map_map]
  rfl

/-- One round of the loop over the pending addresses, up to its answer. -/
theorem receiveObjects_turn {wellKnownTypes : OrderedDict String ℕ} {rounds n : ℕ} {walk : Walk} {turn : Turn}
    (pending : walk.pending ≠ [])
    (keys : turn.objects.map HeapObject.address = batchOf collector.batchSize walk.pending)
    {channel channel₁ : FramedSocket π}
    (hsend : send peer .requestObjects (packAddresses (turn.objects.map HeapObject.address)) channel =
      .ok ((), channel₁)) :
    receiveObjects peer orders collector wellKnownTypes rounds (n + 1) walk channel = (do
      let walk ← receiveBatch orders collector wellKnownTypes rounds
        (turn.reports.map fun report => report.object.address)
        { walk with pending := restOf collector.batchSize walk.pending }
      let _ ← expect .batchDone
      receiveObjects peer orders collector wellKnownTypes rounds n walk : Framed π Walk) channel₁ := by
  have hencode : encodeAddresses (batchOf collector.batchSize walk.pending) =
      .ok (packAddresses (turn.objects.map HeapObject.address)) := by
    rw [← keys]
    exact encodeAddresses_eq Turn.address_lt
  rw [receiveObjects, if_neg pending, turn.batch_eq, keys]
  exact (run_lift_bind hencode).trans (run_bind_ok hsend)

section

variable {wellKnownTypes : OrderedDict String ℕ} {known : ContainerTypes}
  (h : ContainerTypes.ofKnown wellKnownTypes = .ok known) (withStrRepr : Bool) (preamble : List UInt8)
  (objects : List HeapObject) (frontier : Frontier ℕ) (types : OrderedDict ℕ String) {rounds n : ℕ}

include h

/-- A turn whose objects fit leads to the next round. -/
theorem receiveObjects_turn_fits {turn : Turn} (pending : frontier.pending ≠ [])
    (keys : turn.objects.map HeapObject.address = batchOf collector.batchSize frontier.pending)
    (hwithin : turn.Within rounds) (hfits : ∀ obj ∈ turn.objects, ObjectFits obj) {channel channel' : FramedSocket π}
    (hperf : Performs peer channel turn.events channel') :
    receiveObjects peer orders collector wellKnownTypes rounds (n + 1)
        (walkAt withStrRepr preamble known objects frontier types) channel =
      receiveObjects peer orders collector wellKnownTypes rounds n
        (walkAt withStrRepr preamble known (objects ++ turn.objects.map (placeholder collector.strReprLen))
          (Frontier.visitAll ⟨frontier.seen, restOf collector.batchSize frontier.pending⟩
            (turn.objects.flatMap (discovered orders))) (nameTypes types turn.objects)) channel' := by
  cases hperf with
  | sent hsend hframes =>
    rw [Turn.frames, receipts_append] at hframes
    obtain ⟨channel₁, hreports, hdone⟩ := Performs.append_iff.1 hframes
    have hadd := (@foldlM_addObject_turn orders _ _ h withStrRepr preamble objects
      ⟨frontier.seen, restOf collector.batchSize frontier.pending⟩ types collector.strReprLen turn.objects _).2
        ⟨hfits, rfl⟩
    rw [turn.stored_eq] at hadd
    have hreceived := ((speaks_receiveBatch orders collector wellKnownTypes rounds _ _).returns _ _ _).2
      ⟨_, ⟨turn.reports, rfl, hwithin, rfl, hadd⟩, hreports⟩
    rw [receiveObjects_turn pending keys hsend]
    refine (run_bind_ok hreceived).trans ?_
    cases hdone with
    | received hreceive hnil =>
      rw [run_bind_ok (expect_eq_ok (by decide) hreceive), ← Performs.nil_iff.1 hnil, turn.stored_eq]

/-- Another turn raises. -/
theorem receiveObjects_turn_raises {turn : Turn} (pending : frontier.pending ≠ [])
    (keys : turn.objects.map HeapObject.address = batchOf collector.batchSize frontier.pending)
    (hwithin : turn.Within rounds) (hfits : ¬∀ obj ∈ turn.objects, ObjectFits obj) {channel channel' : FramedSocket π}
    (hperf : Performs peer channel turn.events channel') :
    ∃ e, e ≠ .diverged ∧ receiveObjects peer orders collector wellKnownTypes rounds (n + 1)
      (walkAt withStrRepr preamble known objects frontier types) channel = .error e := by
  have hspec := @foldlM_addObject_turn orders _ _ h withStrRepr preamble objects
    ⟨frontier.seen, restOf collector.batchSize frontier.pending⟩ types collector.strReprLen turn.objects
  cases hperf with
  | sent hsend hframes =>
    rw [Turn.frames, receipts_append] at hframes
    obtain ⟨channel₁, hreports, -⟩ := Performs.append_iff.1 hframes
    rw [receiveObjects_turn pending keys hsend]
    cases hadd : (turn.objects.map (placeholder collector.strReprLen)).foldlM (addObject orders wellKnownTypes)
      (walkAt withStrRepr preamble known objects ⟨frontier.seen, restOf collector.batchSize frontier.pending⟩ types)
        with
    | ok walk' => exact absurd ((hspec walk').1 hadd).1 hfits
    | error e =>
      refine ⟨e, ?_, ?_⟩
      · rintro rfl
        exact foldlM_addObject_ne_diverged wellKnownTypes _ _ hadd
      · rw [turn.stored_eq] at hadd
        exact run_bind_error (receiveBatch_raises hwithin hadd hreports)

/-- **The walk raises** at the first object that does not fit. -/
theorem receiveObjects_raises {turns : List Turn} (hn : turns.length < n) (hwithin : ∀ turn ∈ turns, turn.Within rounds)
    (hexplores : Frontier.Explores HeapObject.address (discovered orders) (batchOf collector.batchSize)
      (restOf collector.batchSize) frontier (turns.map Turn.objects))
    (hfits : ¬∀ obj ∈ turns.flatMap Turn.objects, ObjectFits obj) {channel channel' : FramedSocket π}
    (hperf : Performs peer channel (turns.flatMap Turn.events) channel') :
    ∃ e, e ≠ .diverged ∧ receiveObjects peer orders collector wellKnownTypes rounds n
      (walkAt withStrRepr preamble known objects frontier types) channel = .error e := by
  induction turns generalizing objects frontier types n channel with
  | nil => exact absurd (by simp) hfits
  | cons turn turns ih =>
    obtain ⟨n, rfl⟩ := Nat.exists_eq_add_one_of_ne_zero (Nat.ne_zero_of_lt hn)
    obtain ⟨hturn, hturns⟩ := List.forall_mem_cons.1 hwithin
    rw [List.flatMap_cons] at hperf hfits
    obtain ⟨channel₁, hevents, hrest⟩ := Performs.append_iff.1 hperf
    rw [List.map_cons] at hexplores
    cases hexplores with
    | turn pending keys later =>
      by_cases hgood : ∀ obj ∈ turn.objects, ObjectFits obj
      · rw [receiveObjects_turn_fits h withStrRepr preamble objects frontier types pending keys hturn hgood hevents]
        exact ih _ _ _ (Nat.lt_of_succ_lt_succ hn) hturns later
          (fun hlater => hfits (List.forall_mem_append.2 ⟨hgood, hlater⟩)) hrest
      · exact receiveObjects_turn_raises h withStrRepr preamble objects frontier types pending keys hturn hgood hevents

end

/-! ### Whole sessions -/

namespace Session

variable {session : Session}

/-- The numbers of a session fit the fields of the artifact. -/
structure Fits (session : Session) : Prop where
  objects : ∀ obj ∈ session.objects, ObjectFits obj
  count : Fits32 session.objects.length
  types : Fits32 session.types.entries.length

/-- A Collector goes through the session, apart from its numbers. -/
structure Proceeds (session : Session) (collector : Collector) (orders : OrderChoice ℕ) : Prop where
  greeting : checkHello collector session.hello = .ok ()
  wellKnown : session.addresses.length = WELL_KNOWN_TYPE_NAMES.length
  explores : Frontier.Explores HeapObject.address (discovered orders) (batchOf collector.batchSize)
    (restOf collector.batchSize) session.start (session.turns.map Turn.objects)
  requests : ∀ turn ∈ session.turns, 8 * turn.objects.length ≤ MAX_PAYLOAD

/-- A session that proceeds and fits is completed. -/
theorem Proceeds.completes (h : session.Proceeds collector orders) {options : List UInt8}
    (hoptions : encodeOptions collector.strReprLen collector.dumpAttributes = .ok options) (hfits : session.Fits) :
    session.Completes collector orders :=
  ⟨h.greeting, options_range hoptions, h.wellKnown, h.explores, h.requests, hfits.objects, hfits.count, hfits.types⟩

/-- **A session that fits is written.** -/
theorem Proceeds.returns (h : session.Proceeds collector orders) {options : List UInt8}
    (hoptions : encodeOptions collector.strReprLen collector.dumpAttributes = .ok options) (hfits : session.Fits)
    (now : String) {rounds : ℕ} (hwithin : session.Within rounds) {channel channel' : FramedSocket π}
    (hperf : Performs peer channel (session.events options) channel') :
    captureObjects peer orders collector now rounds channel =
      .ok ((session.artifact collector.strReprLen now, session.objects.length), channel') := by
  have hcaptured : session.Captured collector orders now rounds options _ _ :=
    (captured_iff hoptions h.requests).2 ⟨h.completes hoptions hfits, hwithin, rfl, rfl⟩
  exact ((speaks_captureObjects orders collector now rounds).returns _ _ _).2
    ⟨_, ⟨session, options, rfl, hcaptured⟩, hperf⟩

/-- The routine from the first request on. -/
theorem captureObjects_opening {now : String} {rounds : ℕ} {channel channel₁ channel₂ : FramedSocket π}
    {writer : HeapWriter}
    (hgreet : greet peer collector channel = .ok (session.addresses, channel₁))
    (hopen : openArtifact collector now session.wellKnownTypes = .ok writer)
    (hroots : ∀ walk, receiveRoots rounds walk channel₁ = .ok (schedule walk session.roots.flatten, channel₂)) :
    captureObjects peer orders collector now rounds channel = (do
      let walk ← receiveObjects peer orders collector session.wellKnownTypes rounds rounds (session.firstWalk writer)
      send peer .finish []
      let _ ← expect .complete
      let written ← (finish walk.types walk.writer : Except CaptureError (Unit × HeapWriter))
      pure (written.2.file, walk.completed) : Framed π (List UInt8 × ℕ)) channel₂ := by
  rw [captureObjects, run_bind_ok hgreet]
  exact (run_lift_bind hopen).trans (run_bind_ok (hroots _))

/-- **In front of a session that does not fit `_capture` raises.** -/
theorem Proceeds.raises (h : session.Proceeds collector orders) {options : List UInt8}
    (hoptions : encodeOptions collector.strReprLen collector.dumpAttributes = .ok options) (hfits : ¬session.Fits)
    (now : String) {rounds : ℕ} (hwithin : session.Within rounds) {channel channel' : FramedSocket π}
    (hperf : Performs peer channel (session.events options) channel') :
    ∃ e, e ≠ .diverged ∧ captureObjects peer orders collector now rounds channel = .error e := by
  rw [events_eq] at hperf
  obtain ⟨channel₁, hgreeting, hperf⟩ := Performs.append_iff.1 hperf
  obtain ⟨channel₂, hroots, hperf⟩ := Performs.append_iff.1 hperf
  obtain ⟨channel₃, hturns, hend⟩ := Performs.append_iff.1 hperf
  have hgreet : greet peer collector channel = .ok (session.addresses, channel₁) :=
    ((speaks_greet collector rounds).returns _ _ _).2 ⟨_, ⟨session.helloPayload, session.hello, options,
      session.wellKnownPayload, rfl, session.hello_eq, h.greeting, hoptions, session.addresses_eq, h.wellKnown⟩,
      hgreeting⟩
  have hreceived (walk : Walk) :
      receiveRoots rounds walk channel₁ = .ok (schedule walk session.roots.flatten, channel₂) :=
    ((speaks_receiveRoots rounds walk).returns _ _ _).2 ⟨_, ⟨session.rootPayloads, session.rootsDone, session.roots,
      rfl, session.roots_eq, hwithin.roots, rfl⟩, hroots⟩
  rw [captureObjects_opening hgreet (openArtifact_eq_ok (wellKnownFits h.wellKnown) session.known) hreceived,
    firstWalk_eq]
  by_cases hobjects : ∀ obj ∈ session.objects, ObjectFits obj
  · have hwalks := (walks_iff (containers h.wellKnown) (0 ≤ collector.strReprLen)
      (layoutPreamble (0 ≤ collector.strReprLen) now session.wellKnownTypes []) [] session.start
      (.ofPairs (session.addresses.zip WELL_KNOWN_TYPE_NAMES)) rounds rounds session.turns _).2
      ⟨hwithin.turns, hwithin.reports, h.explores, hobjects, rfl⟩
    have hwalked := ((speaks_receiveObjects orders collector session.wellKnownTypes rounds (Nat.le_refl rounds)
      _).returns channel₂ _ channel₃).2 ⟨_, ⟨session.turns, rfl, hwalks⟩, hturns⟩
    rw [run_bind_ok hwalked]
    cases hend with
    | sent hsend hcomplete =>
      cases hcomplete with
      | received hreceive hnil =>
        rw [run_bind_ok hsend, run_bind_ok (expect_eq_ok (by decide) hreceive)]
        have hstored :
            ([] ++ session.objects.map (placeholder collector.strReprLen)).length = session.objects.length := by
          rw [List.nil_append, List.length_map]
        obtain ⟨e, hfinish⟩ := (Artifact.finish_spec (0 ≤ collector.strReprLen)
          (layoutPreamble (0 ≤ collector.strReprLen) now session.wellKnownTypes []) session.known
          ([] ++ session.objects.map (placeholder collector.strReprLen)) session.types).2 fun hnumbers =>
            hfits ⟨hobjects, hstored ▸ hnumbers.1, hnumbers.2.1⟩
        refine ⟨e, ?_, run_bind_error (run_lift_error hfinish)⟩
        rintro rfl
        exact avoids_finish session.types _ hfinish
  · obtain ⟨e, he, hraised⟩ := receiveObjects_raises (containers h.wellKnown) (0 ≤ collector.strReprLen)
      (layoutPreamble (0 ≤ collector.strReprLen) now session.wellKnownTypes []) [] session.start
      (.ofPairs (session.addresses.zip WELL_KNOWN_TYPE_NAMES)) hwithin.turns hwithin.reports h.explores hobjects hturns
    exact ⟨e, he, run_bind_error hraised⟩

end Session

end Capture
end Pydump
