/-
# What a session leaves behind

`_capture` on a session: it returns exactly after a session that `Completes`, and the
file is then `Session.artifact`.  `walks_iff` is the walk, which is a search with a
worklist in front of a writer that appends every object; `captured_iff` adds the
preamble and the type table.
-/

import Mathlib.Data.List.Flatten
import Pydump.Artifact.WriterSpec
import Pydump.Capture.SessionLanguage

namespace Pydump
namespace Capture

open Analyzer (ContainerTypes)
open Artifact (Fits32 Fits64 ObjectFits TypesFit WellKnownFits layoutArtifact layoutPreamble objectState)
open Protocol

/-! ### The walk and its writer -/

/-- A walk whose writer has written `objects` behind a preamble. -/
def walkAt (withStrRepr : Bool) (preamble : List UInt8) (known : ContainerTypes) (objects : List HeapObject)
    (frontier : Frontier ℕ) (types : OrderedDict ℕ String) : Walk :=
  ⟨objectState withStrRepr preamble known objects, frontier.seen, frontier.pending, types, objects.length⟩

/-- `schedule` is a search that passes over null pointers. -/
theorem schedule_eq (walk : Walk) (addresses : List ℕ) :
    schedule walk addresses = { walk with
      scheduled := (Frontier.visitAll ⟨walk.scheduled, walk.pending⟩ (nonzero addresses)).seen
      pending := (Frontier.visitAll ⟨walk.scheduled, walk.pending⟩ (nonzero addresses)).pending } := by
  induction addresses generalizing walk with
  | nil => rfl
  | cons address addresses ih =>
    have hcons : schedule walk (address :: addresses) = schedule (scheduleOne walk address) addresses := rfl
    rw [hcons, ih]
    by_cases hzero : address = 0
    · have hone : scheduleOne walk address = walk := if_neg fun h => h.1 hzero
      have hfilter : nonzero (address :: addresses) = nonzero addresses := by simp [nonzero, hzero]
      rw [hone, hfilter]
    · have hfilter : nonzero (address :: addresses) = address :: nonzero addresses := by simp [nonzero, hzero]
      rw [hfilter, Frontier.visitAll_cons]
      unfold scheduleOne Frontier.visit
      dsimp only
      by_cases hseen : address ∈ walk.scheduled
      · rw [if_neg fun h => h.2 hseen, if_pos hseen]
      · rw [if_pos ⟨hzero, hseen⟩, if_neg hseen]

/-- Scheduling visits the addresses and leaves the rest of the walk. -/
theorem schedule_walkAt (withStrRepr : Bool) (preamble : List UInt8) (known : ContainerTypes)
    (objects : List HeapObject) (frontier : Frontier ℕ) (types : OrderedDict ℕ String) (addresses : List ℕ) :
    schedule (walkAt withStrRepr preamble known objects frontier types) addresses =
      walkAt withStrRepr preamble known objects (frontier.visitAll (nonzero addresses)) types := by
  rw [schedule_eq]
  rfl

variable {orders : OrderChoice ℕ} {wellKnownTypes : OrderedDict String ℕ} {known : ContainerTypes}

/-- An object that could be written: what it leads to is scheduled. -/
theorem addObject_eq {walk : Walk} {obj : HeapObject} {writer : HeapWriter}
    (h : writeObject obj wellKnownTypes walk.writer = .ok ((), writer)) :
    addObject orders wellKnownTypes walk obj = .ok { schedule { walk with
        writer := writer
        types := walk.types.insert obj.typeAddress obj.typeName } (orders.walk obj.address obj.referents ++
          (walkedItems obj ++ (obj.attributes.map HeapAttribute.address ++ [obj.typeAddress]))) with
      completed := walk.completed + 1 } := by
  unfold addObject
  rw [ExceptLoop.bind_ok h]
  have hcount (walk : Walk) (xs : List ℕ) : (schedule walk xs).completed = walk.completed := by rw [schedule_eq]
  by_cases hdict : obj.contentKind = .dict
  · simp only [walkedItems, if_pos hdict, schedule_append, hcount]
    rfl
  · simp only [walkedItems, if_neg hdict, schedule_append, hcount]
    rfl

/-- **One object**: it is written where it fits, and what it leads to is visited. -/
theorem addObject_walkAt (h : ContainerTypes.ofKnown wellKnownTypes = .ok known) (withStrRepr : Bool)
    (preamble : List UInt8) (objects : List HeapObject) (frontier : Frontier ℕ) (types : OrderedDict ℕ String)
    (obj : HeapObject) (walk' : Walk) :
    addObject orders wellKnownTypes (walkAt withStrRepr preamble known objects frontier types) obj = .ok walk' ↔
      ObjectFits obj ∧ walk' = walkAt withStrRepr preamble known (objects ++ [obj])
        (frontier.visitAll (discovered orders obj)) (types.insert obj.typeAddress obj.typeName) := by
  obtain ⟨hok, herror⟩ := Artifact.writeObject_spec withStrRepr preamble h objects obj
  by_cases hfits : ObjectFits obj
  · have hlen : (objects ++ [obj]).length = objects.length + 1 := by rw [List.length_append, List.length_singleton]
    have hrun : addObject orders wellKnownTypes (walkAt withStrRepr preamble known objects frontier types) obj =
      .ok _ :=
      addObject_eq (hok hfits)
    rw [hrun, Except.ok.injEq, schedule_eq]
    simp only [hfits, true_and, walkAt, hlen]
    exact eq_comm
  · obtain ⟨e, he⟩ := herror hfits
    have hrun : addObject orders wellKnownTypes (walkAt withStrRepr preamble known objects frontier types) obj =
        .error e := ExceptLoop.bind_error he
    rw [hrun]
    simp only [reduceCtorEq, hfits, false_and]

/-- **The objects of a batch.** -/
theorem foldlM_addObject_walkAt (h : ContainerTypes.ofKnown wellKnownTypes = .ok known) (withStrRepr : Bool)
    (preamble : List UInt8) (objects : List HeapObject) (frontier : Frontier ℕ) (types : OrderedDict ℕ String)
    (added : List HeapObject) (walk' : Walk) :
    added.foldlM (addObject orders wellKnownTypes) (walkAt withStrRepr preamble known objects frontier types) =
      .ok walk' ↔
      (∀ obj ∈ added, ObjectFits obj) ∧ walk' = walkAt withStrRepr preamble known (objects ++ added)
        (frontier.visitAll (added.flatMap (discovered orders))) (nameTypes types added) := by
  induction added generalizing objects frontier types with
  | nil =>
    rw [List.foldlM_nil, List.append_nil]
    exact ⟨fun hrun => ⟨by simp, (Except.ok.inj hrun).symm⟩, fun ⟨_, hwalk⟩ => by rw [hwalk]; rfl⟩
  | cons obj added ih =>
    rw [List.foldlM_cons, ExceptLoop.bind_eq_ok]
    simp only [addObject_walkAt h, and_assoc, List.forall_mem_cons, List.flatMap_cons,
      Frontier.visitAll_append]
    constructor
    · rintro ⟨walk₁, hfits, rfl, hrest⟩
      rw [ih, List.append_assoc] at hrest
      exact ⟨hfits, hrest⟩
    · rintro ⟨hfits, hrest⟩
      refine ⟨_, hfits, rfl, ?_⟩
      rw [ih, List.append_assoc]
      exact hrest

/-! ### The string of an object -/

/-- A placeholder has the address of its object. -/
theorem placeholder_address (strReprLen : ℤ) (obj : HeapObject) :
    (placeholder strReprLen obj).address = obj.address := by
  obtain ⟨strRepr, hobj⟩ := exists_placeholder strReprLen obj
  rw [hobj]

/-- A placeholder fits if and only if its object does. -/
theorem placeholder_fits (strReprLen : ℤ) (obj : HeapObject) :
    ObjectFits (placeholder strReprLen obj) ↔ ObjectFits obj := by
  obtain ⟨strRepr, hobj⟩ := exists_placeholder strReprLen obj
  rw [hobj]
  rfl

/-- A placeholder discovers what its object does. -/
theorem placeholder_discovered (strReprLen : ℤ) (obj : HeapObject) :
    discovered orders (placeholder strReprLen obj) = discovered orders obj := by
  obtain ⟨strRepr, hobj⟩ := exists_placeholder strReprLen obj
  rw [hobj]
  rfl

/-- Types are named in two parts. -/
theorem nameTypes_append (types : OrderedDict ℕ String) (xs ys : List HeapObject) :
    nameTypes types (xs ++ ys) = nameTypes (nameTypes types xs) ys := List.foldl_append

/-- A placeholder names the type of its object. -/
theorem nameTypes_placeholder (strReprLen : ℤ) (types : OrderedDict ℕ String) (objects : List HeapObject) :
    nameTypes types (objects.map (placeholder strReprLen)) = nameTypes types objects := by
  rw [nameTypes, nameTypes, List.foldl_map]
  congr
  funext types obj
  obtain ⟨strRepr, hobj⟩ := exists_placeholder strReprLen obj
  rw [hobj]

/-! ### Turns -/

/-- The objects of a turn, with their strings. -/
theorem foldlM_addObject_turn (h : ContainerTypes.ofKnown wellKnownTypes = .ok known) (withStrRepr : Bool)
    (preamble : List UInt8) (objects : List HeapObject) (frontier : Frontier ℕ) (types : OrderedDict ℕ String)
    (strReprLen : ℤ) (added : List HeapObject) (walk' : Walk) :
    (added.map (placeholder strReprLen)).foldlM (addObject orders wellKnownTypes)
        (walkAt withStrRepr preamble known objects frontier types) = .ok walk' ↔
      (∀ obj ∈ added, ObjectFits obj) ∧
        walk' = walkAt withStrRepr preamble known (objects ++ added.map (placeholder strReprLen))
          (frontier.visitAll (added.flatMap (discovered orders))) (nameTypes types added) := by
  rw [foldlM_addObject_walkAt h, nameTypes_placeholder]
  simp only [List.forall_mem_map, placeholder_fits, List.flatMap_map, placeholder_discovered]

/-- **The walk is a search** in front of a writer that appends every object. -/
theorem walks_iff (h : ContainerTypes.ofKnown wellKnownTypes = .ok known) {collector : Collector} (withStrRepr : Bool)
    (preamble : List UInt8) (objects : List HeapObject) (frontier : Frontier ℕ) (types : OrderedDict ℕ String)
    (rounds n : ℕ) (turns : List Turn) (walk' : Walk) :
    Walks orders collector wellKnownTypes rounds n (walkAt withStrRepr preamble known objects frontier types) turns
      walk' ↔
      turns.length < n ∧ (∀ turn ∈ turns, turn.Within rounds) ∧
        Frontier.Explores HeapObject.address (discovered orders) (batchOf collector.batchSize)
          (restOf collector.batchSize) frontier (turns.map Turn.objects) ∧
        (∀ obj ∈ turns.flatMap Turn.objects, ObjectFits obj) ∧
        walk' = walkAt withStrRepr preamble known
          (objects ++ (turns.flatMap Turn.objects).map (placeholder collector.strReprLen))
          (frontier.afterTurns (discovered orders) (restOf collector.batchSize) (turns.map Turn.objects))
          (nameTypes types (turns.flatMap Turn.objects)) := by
  induction turns generalizing objects frontier types n with
  | nil =>
    simp only [List.flatMap_nil, List.map_nil, List.append_nil]
    constructor
    · intro hwalks
      cases hwalks with
      | done pending => exact ⟨Nat.succ_pos _, by simp, .done pending, by simp, rfl⟩
    · rintro ⟨hn, -, hexplores, -, rfl⟩
      obtain ⟨n, rfl⟩ := Nat.exists_eq_add_one_of_ne_zero (Nat.ne_zero_of_lt hn)
      cases hexplores with
      | done pending => exact .done pending
  | cons turn turns ih =>
    rw [List.flatMap_cons, List.map_append, ← List.append_assoc, nameTypes_append, List.map_cons]
    constructor
    · intro hwalks
      cases hwalks with
      | @turn n _ _ walk₁ _ _ pending keys fits within added later =>
        obtain ⟨hfits, rfl⟩ := (foldlM_addObject_turn h withStrRepr preamble objects
          ⟨frontier.seen, restOf collector.batchSize frontier.pending⟩ types collector.strReprLen turn.objects walk₁).1
            added
        obtain ⟨hn, hwithin, hexplores, hlater, hwalk⟩ := (ih _ _ _ _).1 later
        exact ⟨Nat.succ_lt_succ hn, List.forall_mem_cons.2 ⟨within, hwithin⟩, .turn pending keys hexplores,
          List.forall_mem_append.2 ⟨hfits, hlater⟩, hwalk⟩
    · rintro ⟨hn, hwithin, hexplores, hfits, hwalk⟩
      obtain ⟨n, rfl⟩ := Nat.exists_eq_add_one_of_ne_zero (Nat.ne_zero_of_lt hn)
      obtain ⟨hturn, hlater⟩ := List.forall_mem_append.1 hfits
      obtain ⟨hwithin, hwithinLater⟩ := List.forall_mem_cons.1 hwithin
      cases hexplores with
      | turn pending keys later =>
        refine .turn pending keys (fun address haddress => ?_) hwithin
          ((foldlM_addObject_turn h withStrRepr preamble objects
            ⟨frontier.seen, restOf collector.batchSize frontier.pending⟩
            types collector.strReprLen turn.objects _).2 ⟨hturn, rfl⟩)
          ((ih _ _ _ _).2 ⟨Nat.lt_of_succ_lt_succ hn, hwithinLater, later, hlater, hwalk⟩)
        obtain ⟨obj, hobj, rfl⟩ := List.mem_map.1 haddress
        exact (hturn obj hobj).1

/-! ### What payloads hold -/

/-- Unpacked addresses have 64 bits. -/
theorem unpackAddresses_lt (count : ℕ) (payload : List UInt8) : ∀ a ∈ unpackAddresses count payload, a < 2 ^ 64 := by
  induction count generalizing payload with
  | zero => simp [unpackAddresses]
  | succ count ih =>
    rw [unpackAddresses, List.forall_mem_cons]
    refine ⟨lt_of_lt_of_le (BigEndian.decode_lt _) ?_, ih _⟩
    have hpow : 256 ^ (payload.take ADDRESS_SIZE).length ≤ 256 ^ 8 :=
      Nat.pow_le_pow_right (by omega) (List.length_take_le _ _)
    omega

/-- Decoded addresses have 64 bits. -/
theorem decodeAddresses_lt {payload : List UInt8} {addresses : List ℕ} (h : decodeAddresses payload = .ok addresses) :
    ∀ a ∈ addresses, a < 2 ^ 64 := by
  unfold decodeAddresses at h
  split_ifs at h
  cases h
  exact unpackAddresses_lt _ _

/-- A number is bounded by its bytes. -/
theorem uintAt_lt (bytes : List UInt8) (a b : ℕ) : uintAt bytes a b < 256 ^ (b - a) :=
  lt_of_lt_of_le (BigEndian.decode_lt _) (Nat.pow_le_pow_right (by omega) (List.length_take_le _ _))

/-- The numbers of an `OBJECT_BEGIN`. -/
theorem decodeObjectBegin_lt {payload : List UInt8} {begin : ObjectBegin} (h : decodeObjectBegin payload = .ok begin) :
    begin.address < 2 ^ 64 ∧ begin.typeAddress < 2 ^ 64 ∧ begin.shallowSize < 2 ^ 32 := by
  unfold decodeObjectBegin at h
  dsimp only at h
  split_ifs at h
  cases h
  exact ⟨uintAt_lt payload 0 8, uintAt_lt payload 8 16, uintAt_lt payload 16 20⟩

/-! ### The tables -/

namespace Session

variable {session : Session}

/-- Every well-known type has one of the addresses. -/
theorem find?_wellKnownTypes (hcount : session.addresses.length = WELL_KNOWN_TYPE_NAMES.length) {name : String}
    (hname : name ∈ WELL_KNOWN_TYPE_NAMES) :
    ∃ address ∈ session.addresses, session.wellKnownTypes.find? name = some address := by
  have hnames : (WELL_KNOWN_TYPE_NAMES.zip session.addresses).map Prod.fst = WELL_KNOWN_TYPE_NAMES :=
    List.map_fst_zip (Nat.le_of_eq hcount.symm)
  have hentries : session.wellKnownTypes.entries = WELL_KNOWN_TYPE_NAMES.zip session.addresses :=
    OrderedDict.entries_ofPairs (by rw [hnames]; decide)
  obtain ⟨address, hfind⟩ := OrderedDict.exists_find?_of_mem_keys (d := session.wellKnownTypes) (k := name)
    (by rwa [OrderedDict.keys, hentries, hnames])
  have hmem := OrderedDict.find?_eq_some.1 hfind
  rw [hentries] at hmem
  exact ⟨address, (List.of_mem_zip hmem).2, hfind⟩

/-- All thirteen addresses fit. -/
theorem wellKnownFits (hcount : session.addresses.length = WELL_KNOWN_TYPE_NAMES.length) :
    WellKnownFits session.wellKnownTypes := by
  intro name hname
  obtain ⟨address, haddress, hfind⟩ := find?_wellKnownTypes hcount hname
  exact ⟨address, hfind, decodeAddresses_lt session.addresses_eq address haddress⟩

/-- The container types are among the thirteen. -/
theorem containers (hcount : session.addresses.length = WELL_KNOWN_TYPE_NAMES.length) :
    ContainerTypes.ofKnown session.wellKnownTypes = .ok session.known := by
  have hfind : ∀ name ∈ WELL_KNOWN_TYPE_NAMES,
      session.wellKnownTypes.find? name = some ((session.wellKnownTypes.find? name).getD 0) := by
    intro name hname
    obtain ⟨address, -, hfind⟩ := find?_wellKnownTypes hcount hname
    rw [hfind, Option.getD_some]
  exact ContainerTypes.ofKnown_eq_ok.2 ⟨hfind _ (by decide), hfind _ (by decide), hfind _ (by decide),
    hfind _ (by decide)⟩

end Session

/-- The named types are those before and those of the objects. -/
theorem mem_keys_nameTypes {types : OrderedDict ℕ String} {objects : List HeapObject} {address : ℕ} :
    address ∈ (nameTypes types objects).keys ↔
      address ∈ types.keys ∨ ∃ obj ∈ objects, obj.typeAddress = address := by
  induction objects generalizing types with
  | nil => simp [nameTypes]
  | cons obj objects ih =>
    have hcons : nameTypes types (obj :: objects) = nameTypes (types.insert obj.typeAddress obj.typeName) objects := rfl
    have hinsert : address ∈ (types.insert obj.typeAddress obj.typeName).keys ↔
        address ∈ types.keys ∨ obj.typeAddress = address := by
      rw [OrderedDict.keys_insert]
      split_ifs with hold
      · constructor
        · exact .inl
        · rintro (h | rfl)
          · exact h
          · exact hold
      · simp [eq_comm]
    rw [hcons, ih, hinsert]
    simp only [List.exists_mem_cons_iff, or_assoc]

/-- The keys of the type table. -/
theorem Session.mem_keys_types {session : Session} {address : ℕ}
    (hcount : session.addresses.length = WELL_KNOWN_TYPE_NAMES.length) : address ∈ session.types.keys ↔
      address ∈ session.addresses ∨ ∃ obj ∈ session.objects, obj.typeAddress = address := by
  rw [Session.types, mem_keys_nameTypes, OrderedDict.mem_keys_ofPairs, List.map_fst_zip (Nat.le_of_eq hcount)]

namespace Session

variable {session : Session} {collector : Collector}

/-- The type table of a complete session fits. -/
theorem typesFit (h : session.Completes collector orders) : TypesFit session.types := by
  refine ⟨h.types, fun address haddress => ?_⟩
  rcases (mem_keys_types h.wellKnown).1 haddress with haddress | ⟨obj, hobj, rfl⟩
  · exact decodeAddresses_lt session.addresses_eq address haddress
  · exact (h.objects obj hobj).2.1

/-- **No object is reported twice.** -/
theorem nodup_addresses (h : session.Completes collector orders) : (session.objects.map HeapObject.address).Nodup := by
  have htracks : session.start.Tracks [] := Frontier.tracks_empty.visitAll _
  obtain ⟨hnodup, -, -⟩ := h.explores.result (perm_batchOf collector.batchSize) htracks
  rwa [List.nil_append, ← List.flatMap_def] at hnodup

end Session

/-! ### The whole file -/

/-- The writer in front of the first object. -/
theorem openArtifact_eq_ok {collector : Collector} {now : String} {wellKnownTypes : OrderedDict String ℕ}
    (hfits : WellKnownFits wellKnownTypes) (known : ContainerTypes) :
    openArtifact collector now wellKnownTypes =
      .ok (objectState (0 ≤ collector.strReprLen) (layoutPreamble (0 ≤ collector.strReprLen) now wellKnownTypes [])
        known []) := by
  have hthreads : Artifact.ThreadsFit [] := ⟨Nat.zero_le _, by simp⟩
  have hrun :=
    (Artifact.writePreamble_spec (0 ≤ collector.strReprLen) wellKnownTypes known none now []).1 ⟨hfits, hthreads⟩
  exact ExceptLoop.bind_ok hrun

/-- What holds once `finish` has returned. -/
theorem finish_eq_ok {withStrRepr : Bool} {preamble : List UInt8} {known : ContainerTypes} {objects : List HeapObject}
    {types : OrderedDict ℕ String} {writer : HeapWriter}
    (h : finish types (objectState withStrRepr preamble known objects) = .ok ((), writer)) :
    (Fits32 objects.length ∧ TypesFit types) ∧
      writer.file = preamble ++ (Artifact.layoutCounted (Artifact.layoutObject withStrRepr known) objects ++
        Artifact.layoutTypes types) := by
  obtain ⟨hok, herror⟩ := Artifact.finish_spec withStrRepr preamble known objects types
  by_cases hfits : Fits32 objects.length ∧ TypesFit types
  · obtain ⟨writer', hrun, hfile⟩ := hok hfits
    cases hrun.symm.trans h
    exact ⟨hfits, hfile⟩
  · obtain ⟨e, hrun⟩ := herror hfits
    cases hrun.symm.trans h

/-- Options that are sent have a length that fits. -/
theorem options_range {strReprLen : ℤ} {dumpAttributes : Bool} {options : List UInt8}
    (h : encodeOptions strReprLen dumpAttributes = .ok options) : -2 ^ 31 ≤ strReprLen ∧ strReprLen < 2 ^ 31 := by
  by_contra hout
  rw [encodeOptions, if_neg hout] at h
  cases h

/-- Options within range are encoded. -/
theorem exists_options {strReprLen : ℤ} (dumpAttributes : Bool) (h : -2 ^ 31 ≤ strReprLen ∧ strReprLen < 2 ^ 31) :
    ∃ options, encodeOptions strReprLen dumpAttributes = .ok options := ⟨_, if_pos h⟩

namespace Session

variable {session : Session}

/-- The walk of a session begins with its roots and the well-known types. -/
theorem firstWalk_eq (withStrRepr : Bool) (preamble : List UInt8) (known : ContainerTypes) :
    session.firstWalk (objectState withStrRepr preamble known []) =
      walkAt withStrRepr preamble known [] session.start
        (.ofPairs (session.addresses.zip WELL_KNOWN_TYPE_NAMES)) := by
  have hfirst : schedule (schedule ⟨objectState withStrRepr preamble known [], ∅, [], .empty, 0⟩ session.roots.flatten)
      session.addresses = walkAt withStrRepr preamble known [] session.start .empty := by
    rw [← schedule_append]
    exact schedule_walkAt withStrRepr preamble known [] Frontier.empty .empty
      (session.roots.flatten ++ session.addresses)
  rw [firstWalk, hfirst]
  rfl

/-- The bounds of the loops, the number of turns and of root batches and the length of
every report. -/
structure Within (session : Session) (rounds : ℕ) : Prop where
  roots : session.rootPayloads.length < rounds
  turns : session.turns.length < rounds
  reports : ∀ turn ∈ session.turns, turn.Within rounds

/-- **What `_capture` makes of a session**: it goes through the sessions that are
complete, and what it leaves is their artifact. -/
theorem captured_iff {collector : Collector} {orders : OrderChoice ℕ} {now : String} {rounds : ℕ}
    {options bytes : List UInt8}
    {count : ℕ} (hoptions : encodeOptions collector.strReprLen collector.dumpAttributes = .ok options)
    (hrequests : ∀ turn ∈ session.turns, 8 * turn.objects.length ≤ MAX_PAYLOAD) :
    session.Captured collector orders now rounds options bytes count ↔
      session.Completes collector orders ∧ session.Within rounds ∧
        bytes = session.artifact collector.strReprLen now ∧ count = session.objects.length := by
  have hstored : ([] ++ session.objects.map (placeholder collector.strReprLen)).length = session.objects.length := by
    rw [List.nil_append, List.length_map]
  constructor
  · rintro ⟨hgreeting, -, hcount, hroots, writer, walk, writer', hopen, hwalks, hfinish, rfl, rfl⟩
    rw [openArtifact_eq_ok (wellKnownFits hcount) session.known, Except.ok.injEq] at hopen
    rw [← hopen, firstWalk_eq, walks_iff (containers hcount)] at hwalks
    obtain ⟨hturns, hwithin, hexplores, hfits, rfl⟩ := hwalks
    obtain ⟨hnumbers, hfile⟩ := finish_eq_ok hfinish
    rw [← hstored]
    exact ⟨⟨hgreeting, options_range hoptions, hcount, hexplores, hrequests, hfits, hstored ▸ hnumbers.1, hnumbers.2.1⟩,
      ⟨hroots, hturns, hwithin⟩, hfile, rfl⟩
  · rintro ⟨hcompletes, ⟨hroots, hturns, hwithin⟩, rfl, rfl⟩
    obtain ⟨writer', hfinish, hfile⟩ := (Artifact.finish_spec (0 ≤ collector.strReprLen)
      (layoutPreamble (0 ≤ collector.strReprLen) now session.wellKnownTypes []) session.known
      ([] ++ session.objects.map (placeholder collector.strReprLen)) session.types).1
        ⟨hstored ▸ hcompletes.count, typesFit hcompletes⟩
    have hwalks := (walks_iff (containers hcompletes.wellKnown) (0 ≤ collector.strReprLen)
      (layoutPreamble (0 ≤ collector.strReprLen) now session.wellKnownTypes []) [] session.start
      (.ofPairs (session.addresses.zip WELL_KNOWN_TYPE_NAMES)) rounds rounds session.turns _).2
      ⟨hturns, hwithin, hcompletes.explores, hcompletes.objects, rfl⟩
    rw [← firstWalk_eq] at hwalks
    exact ⟨hcompletes.greeting, hoptions, hcompletes.wellKnown, hroots, _, _, writer',
      openArtifact_eq_ok (wellKnownFits hcompletes.wellKnown) session.known, hwalks, hfinish, hfile.symm, hstored.symm⟩

end Session

/-! ### Frames that were all said beforehand -/

/-- Events may be sent in two parts. -/
theorem sendable_append {xs ys : List Event} : Sendable (xs ++ ys) ↔ Sendable xs ∧ Sendable ys := by
  unfold Sendable
  simp only [List.mem_append, or_imp, forall_and]

/-- Receipts send nothing. -/
theorem sendable_receipts (frames : List Frame) : Sendable (receipts frames) := by
  intro kind payload hmem
  obtain ⟨frame, -, hframe⟩ := List.mem_map.1 hmem
  cases hframe

/-- Turns can be sent if and only if each request fits. -/
theorem sendable_turns {turns : List Turn} : Sendable (turns.flatMap Turn.events) ↔
    ∀ turn ∈ turns, 8 * turn.objects.length ≤ MAX_PAYLOAD := by
  induction turns with
  | nil => simp [Sendable]
  | cons turn turns ih =>
    have hturn : Sendable turn.events ↔ 8 * turn.objects.length ≤ MAX_PAYLOAD := by
      constructor
      · intro h
        have hrequest := h _ _ List.mem_cons_self
        rwa [length_packAddresses, List.length_map] at hrequest
      · intro h kind payload hmem
        rcases List.mem_cons.1 hmem with hmem | hmem
        · cases hmem
          rwa [length_packAddresses, List.length_map]
        · exact sendable_receipts _ kind payload hmem
    rw [List.flatMap_cons, sendable_append, hturn, ih, List.forall_mem_cons]

/-- The options fit a frame. -/
theorem length_options {strReprLen : ℤ} {dumpAttributes : Bool} {options : List UInt8}
    (h : encodeOptions strReprLen dumpAttributes = .ok options) : options.length ≤ MAX_PAYLOAD := by
  rw [encodeOptions, if_pos (options_range h)] at h
  cases h
  rw [List.length_append, BigEndian.length_encode, List.length_singleton]
  decide

namespace Session

variable {session : Session} {options : List UInt8}

/-- What a Collector says in a session is short enough where its requests are. -/
theorem sendable_events (hoptions : options.length ≤ MAX_PAYLOAD) : Sendable (session.events options) ↔
    ∀ turn ∈ session.turns, 8 * turn.objects.length ≤ MAX_PAYLOAD := by
  have hgreeting : Sendable [.received ⟨.hello, session.helloPayload⟩, .sent .helloAck options,
      .received ⟨.wellKnown, session.wellKnownPayload⟩] := by
    intro kind payload hmem
    simp only [List.mem_cons, List.not_mem_nil, reduceCtorEq, Event.sent.injEq, false_or, or_false] at hmem
    rwa [hmem.2]
  have hfinish : Sendable [.sent .finish [], .received ⟨.complete, session.last⟩] := by
    intro kind payload hmem
    simp only [List.mem_cons, List.not_mem_nil, reduceCtorEq, Event.sent.injEq, or_false] at hmem
    rw [hmem.2]
    exact Nat.zero_le _
  rw [events_eq, sendable_append, sendable_append, sendable_append, sendable_turns]
  simp only [hgreeting, hfinish, sendable_receipts, true_and, and_true]

/-- A session has more frames than any of its loops has rounds. -/
theorem within_of_length {rounds : ℕ} (h : session.frames.length < rounds) : session.Within rounds := by
  have hframes : session.frames.length = 2 + (session.rootPayloads.length + 1 +
      ((session.turns.flatMap Turn.frames).length + 1)) := by
    simp only [frames, Opening.rootFrames, List.length_append, List.length_cons, List.length_nil, List.length_map]
  have hsome : ∀ turns : List Turn, turns.length ≤ (turns.flatMap Turn.frames).length := by
    intro turns
    induction turns with
    | nil => exact Nat.le_refl 0
    | cons turn turns ih =>
      rw [List.flatMap_cons, List.length_append, Turn.frames, List.length_append, List.length_singleton,
        List.length_cons]
      omega
  have hturns := hsome session.turns
  refine ⟨by omega, by omega, fun turn hturn report hreport => ?_⟩
  have hturnFrames := ((List.singleton_sublist.2 hturn).flatMap Turn.frames).length_le
  have hreportFrames := ((List.singleton_sublist.2 hreport).flatMap Report.frames).length_le
  rw [List.flatMap_singleton] at hturnFrames hreportFrames
  rw [Turn.frames, List.length_append] at hturnFrames
  rw [Report.frames, List.length_cons, List.length_append] at hreportFrames
  omega

end Session

/-- **A capture with a peer that has said everything beforehand.**  It raises, or the
frames begin with a complete session, for which the connection has lasted. -/
theorem captureObjects_silent {tail : List UInt8} (htail : BreaksOff tail) {channel : FramedSocket ℕ}
    {frames : List Frame}
    (hready : ReadyBefore tail channel frames) (orders : OrderChoice ℕ) (collector : Collector) (now : String)
    {rounds : ℕ} (hrounds : frames.length < rounds) :
    captureObjects silent orders collector now rounds channel ≠ .error .diverged ∧
      ∀ bytes count, (∃ channel', captureObjects silent orders collector now rounds channel =
        .ok ((bytes, count), channel')) ↔
        ∃ (session : Session) (rest : List Frame), frames = session.frames ++ rest ∧
          session.Completes collector orders ∧
          session.turns.length + 2 ≤ channel.peer ∧ bytes = session.artifact collector.strReprLen now ∧
            count = session.objects.length := by
  have hspeaks := @speaks_captureObjects _ silent orders collector now rounds
  refine ⟨hspeaks.ne_diverged htail hready hrounds, fun bytes count => ⟨?_, ?_⟩⟩
  · rintro ⟨channel', hrun⟩
    obtain ⟨events, ⟨session, options, rfl, hcaptured⟩, hperf⟩ := (hspeaks.returns _ _ _).1 hrun
    obtain ⟨hsend, hpeer, rest, hframes, -⟩ := hperf.of_silent htail hready
    rw [Session.sendable_events (length_options hcaptured.options)] at hsend
    obtain ⟨hcompletes, -, hbytes, hcount⟩ := (Session.captured_iff hcaptured.options hsend).1 hcaptured
    rw [Session.heard_events] at hframes
    rw [Session.told_events] at hpeer
    exact ⟨session, rest, hframes, hcompletes, by omega, hbytes, hcount⟩
  · rintro ⟨session, rest, rfl, hcompletes, hpeer, hbytes, hcount⟩
    obtain ⟨options, hoptions⟩ := exists_options collector.dumpAttributes hcompletes.options
    have hwithin : session.Within rounds := by
      refine Session.within_of_length ?_
      rw [List.length_append] at hrounds
      omega
    have hcaptured : session.Captured collector orders now rounds options bytes count :=
      (Session.captured_iff hoptions hcompletes.requests).2 ⟨hcompletes, hwithin, hbytes, hcount⟩
    rw [← session.told_events options] at hpeer
    rw [← session.heard_events options] at hready
    obtain ⟨channel', hperf⟩ :=
      performs_silent ((Session.sendable_events (length_options hoptions)).2 hcompletes.requests)
      hpeer hready
    exact ⟨channel', (hspeaks.returns _ _ _).2 ⟨_, ⟨session, options, rfl, hcaptured⟩, hperf⟩⟩

end Capture
end Pydump
