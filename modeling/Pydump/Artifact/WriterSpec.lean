/-
# What the writer appends

`Emits withStrRepr m P bs v` is the specification of one method `m` of
`HeapWriter`: standing at the end of the file it succeeds exactly when `P`
holds, returns `v` then and appends `bs`.  It composes along sequencing
(`Emits.bind`) and loops (`Emits.forM`), so every `_write_…` method gets one
lemma, and `writeArtifact_spec` is their assembly with the back-patched count.
-/

import Pydump.Artifact.Layout

namespace Pydump
namespace Artifact

open Capture
open Analyzer (ContainerTypes)

/-- The position is the end of the file. -/
def AtEnd (w : HeapWriter) : Prop := w.position = w.file.length

/-- The writer after `bs` went to the end of its file. -/
def append (w : HeapWriter) (bs : List UInt8) : HeapWriter :=
  { w with file := w.file ++ bs, position := w.position + bs.length }

/-- At the end an append stays there. -/
theorem atEnd_append {w : HeapWriter} (h : AtEnd w) (bs : List UInt8) : AtEnd (append w bs) := by
  rw [AtEnd, append, List.length_append, h]

/-- To append nothing changes nothing. -/
@[simp] theorem append_nil (w : HeapWriter) : append w [] = w := by
  simp [append]

/-- One append behind another. -/
theorem append_append (w : HeapWriter) (as bs : List UInt8) :
    append (append w as) bs = append w (as ++ bs) := by
  simp only [append, List.append_assoc, List.length_append, Nat.add_assoc]

/-- A sequence whose first part succeeds. -/
theorem run_bind_ok {α β : Type} {m : Writer α} {f : α → Writer β} {w w' : HeapWriter} {a : α}
    (h : m w = .ok (a, w')) : (m >>= f) w = f a w' := by
  change (m w >>= fun p => f p.1 p.2) = f a w'
  rw [h]
  rfl

/-- A sequence whose first part raises. -/
theorem run_bind_error {α β : Type} {m : Writer α} {f : α → Writer β} {w : HeapWriter}
    {e : CaptureError} (h : m w = .error e) : (m >>= f) w = .error e := by
  change (m w >>= fun p => f p.1 p.2) = .error e
  rw [h]
  rfl

/-- At the end of a file, `m` succeeds exactly under `P`, returns `v` and
appends `bs`. -/
def Emits {α : Type} (withStrRepr : Bool) (m : Writer α) (P : Prop) (bs : List UInt8) (v : α) : Prop :=
  ∀ w, AtEnd w → w.withStrRepr = withStrRepr →
    (P → m w = .ok (v, append w bs)) ∧ (¬P → ∃ e, m w = .error e)

namespace Emits

variable {α β γ : Type} {s : Bool} {P Q : Prop} {bs bs' : List UInt8}

/-- An equivalent condition. -/
theorem congr {m : Writer α} {v : α} (h : Emits s m P bs v) (hPQ : P ↔ Q) : Emits s m Q bs v :=
  fun w hw hs => ⟨fun hQ => (h w hw hs).1 (hPQ.2 hQ), fun hQ => (h w hw hs).2 fun hP => hQ (hPQ.1 hP)⟩

/-- `pure` writes nothing. -/
protected theorem pure (v : α) : Emits s (pure v) True [] v :=
  fun w _ _ => ⟨fun _ => by rw [append_nil]; rfl, fun h => absurd trivial h⟩

/-- **Sequencing.**  Both parts have to succeed, and their bytes follow each
other. -/
protected theorem bind {m : Writer α} {f : α → Writer β} {a : α} {b : β} (hm : Emits s m P bs a)
    (hf : Emits s (f a) Q bs' b) : Emits s (m >>= f) (P ∧ Q) (bs ++ bs') b := by
  intro w hw hs
  obtain ⟨hok, herr⟩ := hm w hw hs
  by_cases hP : P
  · obtain ⟨hok', herr'⟩ := hf (append w bs) (atEnd_append hw bs) hs
    rw [run_bind_ok (hok hP)]
    refine ⟨fun h => by rw [hok' h.2, append_append], fun h => herr' fun hQ => h ⟨hP, hQ⟩⟩
  · obtain ⟨e, he⟩ := herr hP
    exact ⟨fun h => absurd h.1 hP, fun _ => ⟨e, run_bind_error he⟩⟩

/-- Sequencing where the first part returns nothing. -/
theorem seq {m : Writer Unit} {m' : Writer β} {b : β} (hm : Emits s m P bs ())
    (hm' : Emits s m' Q bs' b) : Emits s (m >>= fun _ => m') (P ∧ Q) (bs ++ bs') b :=
  hm.bind hm'

/-- Reading the writer's flag. -/
theorem get_bind {f : HeapWriter → Writer β} {b : β}
    (hf : ∀ w, w.withStrRepr = s → Emits s (f w) P bs b) : Emits s (get >>= f) P bs b := by
  intro w hw hs
  rw [show (get >>= f) w = f w w from run_bind_ok rfl]
  exact hf w hs w hw hs

/-- **A loop appends what its rounds append**, as long as all of them succeed. -/
theorem forM {step : γ → Writer Unit} {ok : γ → Prop} {layout : γ → List UInt8} (xs : List γ)
    (h : ∀ x ∈ xs, Emits s (step x) (ok x) (layout x) ()) :
    Emits s (xs.forM step) (∀ x ∈ xs, ok x) (xs.flatMap layout) () := by
  induction xs with
  | nil => exact (Emits.pure ()).congr (by simp)
  | cons x xs ih =>
    have hx := h x List.mem_cons_self
    have hxs := ih fun y hy => h y (List.mem_cons_of_mem x hy)
    rw [List.flatMap_cons]
    exact (hx.bind hxs).congr List.forall_mem_cons.symm

/-- Bytes are written as they are. -/
theorem writeBytes (bs : List UInt8) : Emits s (writeBytes bs) True bs () := by
  intro w hw _
  refine ⟨fun _ => ?_, fun h => absurd trivial h⟩
  have htake : w.file.take w.position = w.file := List.take_of_length_le (by rw [hw])
  have hdrop : w.file.drop (w.position + bs.length) = [] := List.drop_of_length_le (by rw [hw]; omega)
  rw [Capture.writeBytes, htake, hdrop, List.append_nil]
  rfl

/-- What raises writes nothing. -/
theorem raise {e : CaptureError} {v : α} : Emits s (raise e) False bs v :=
  fun _ _ _ => ⟨False.elim, fun _ => ⟨e, rfl⟩⟩

/-- A number of 32 bits is written. -/
theorem writeU32 (n : ℕ) : Emits s (writeU32 n) (Fits32 n) (BigEndian.encode 4 n) () := by
  rw [Capture.writeU32]
  split_ifs with h
  · exact (Emits.writeBytes _).congr (by simp only [Fits32, h])
  · exact Emits.raise.congr (by simp only [Fits32, h])

/-- A number of 64 bits is written. -/
theorem writeU64 (n : ℕ) : Emits s (writeU64 n) (Fits64 n) (BigEndian.encode 8 n) () := by
  rw [Capture.writeU64]
  split_ifs with h
  · exact (Emits.writeBytes _).congr (by simp only [Fits64, h])
  · exact Emits.raise.congr (by simp only [Fits64, h])

/-- A string is written up to its limit. -/
theorem writeLongString (str : String) :
    Emits s (writeLongString str) True (layoutString MAX_STRING_SIZE str) () :=
  ((Emits.writeBytes _).bind (Emits.writeBytes _)).congr (and_self_iff)

/-- A rendering is written up to its limit. -/
theorem writeShortString (str : String) :
    Emits s (writeShortString str) True (layoutString 0x7FFF str) () :=
  ((Emits.writeBytes _).bind (Emits.writeBytes _)).congr (and_self_iff)

/-- A count and the loop over what it counts. -/
theorem counted {step : γ → Writer Unit} {ok : γ → Prop} {layout : γ → List UInt8} (xs : List γ)
    (h : ∀ x, Emits s (step x) (ok x) (layout x) ()) :
    Emits s (Capture.writeU32 xs.length >>= fun _ => xs.forM step)
      (Fits32 xs.length ∧ ∀ x ∈ xs, ok x) (layoutCounted layout xs) () :=
  (Emits.writeU32 _).bind (Emits.forM xs fun x _ => h x)

/-- A local is written with its address. -/
theorem writeLocal (entry : String × ℕ) :
    Emits s (writeLocal entry) (Fits64 entry.2) (layoutLocal entry) () :=
  ((Emits.writeLongString _).bind (Emits.writeU64 _)).congr (iff_of_eq (true_and _))

/-- A frame is written. -/
theorem writeFrame (frame : ThreadFrame) :
    Emits s (writeFrame frame) (FrameFits frame) (layoutFrame frame) () :=
  ((Emits.writeLongString _).bind ((Emits.writeU32 _).bind ((Emits.writeLongString _).bind
    (Emits.counted _ Emits.writeLocal)))).congr (by simp only [FrameFits, true_and])

/-- A flag is written. -/
theorem writeBool (b : Bool) : Emits s (writeBool b) True (layoutBool b) () := Emits.writeBytes _

/-- A thread is written. -/
theorem writeThread (thread : HeapThread) :
    Emits s (writeThread thread) (ThreadFits thread) (layoutThread thread) () :=
  ((Emits.writeLongString _).bind ((Emits.writeBool _).bind ((Emits.writeBool _).bind
    (Emits.counted _ Emits.writeFrame)))).congr (by simp only [ThreadFits, true_and])

/-- The threads are written behind their count. -/
theorem writeThreads (threads : List HeapThread) :
    Emits s (writeThreads threads) (ThreadsFit threads) (layoutCounted layoutThread threads) () :=
  Emits.counted threads Emits.writeThread

/-- A lookup of a name that is there writes nothing. -/
theorem lookup_bind {wellKnownTypes : OrderedDict String ℕ} {name : String} {address : ℕ}
    {f : ℕ → Writer α} {v : α} (h : wellKnownTypes.find? name = some address)
    (hf : Emits s (f address) P bs v) : Emits s (Capture.lookup wellKnownTypes name >>= f) P bs v := by
  rw [Capture.lookup, h]
  exact hf

/-- An attribute is written with its address. -/
theorem writeAttribute (attr : HeapAttribute) :
    Emits s (writeAttribute attr) (Fits64 attr.address) (layoutAttribute attr) () :=
  ((Emits.writeShortString _).bind (Emits.writeU64 _)).congr (iff_of_eq (true_and _))

/-- A key is written with its value. -/
theorem writePair (entry : ℕ × ℕ) :
    Emits s (writePair entry) (Fits64 entry.1 ∧ Fits64 entry.2) (layoutPair entry) () :=
  (Emits.writeU64 _).bind (Emits.writeU64 _)

/-- A type is written with its name. -/
theorem writeType (entry : ℕ × String) :
    Emits s (writeType entry) (Fits64 entry.1) (layoutType entry) () :=
  ((Emits.writeU64 _).bind (Emits.writeLongString _)).congr (iff_of_eq (and_true _))

/-- A loop whose value is fixed beforehand. -/
theorem thenReturn {m : Writer Unit} (h : Emits s m P bs ()) (v : α) :
    Emits s (m >>= fun _ => pure v) P bs v := by
  have hseq : Emits s (m >>= fun _ => pure v) (P ∧ True) (bs ++ []) v := h.bind (Emits.pure v)
  rw [List.append_nil] at hseq
  exact hseq.congr (iff_of_eq (and_true _))

/-- A count and the loop over what it counts, before a value that was fixed
beforehand. -/
theorem countedReturn {step : γ → Writer Unit} {ok : γ → Prop} {layout : γ → List UInt8} (xs : List γ)
    (h : ∀ x, Emits s (step x) (ok x) (layout x) ()) (v : α) :
    Emits s (do Capture.writeU32 xs.length; xs.forM step; pure v)
      (Fits32 xs.length ∧ ∀ x ∈ xs, ok x) (layoutCounted layout xs) v :=
  (Emits.writeU32 _).bind ((Emits.forM xs fun x _ => h x).thenReturn v)

/-- A content is written, and its addresses are returned. -/
theorem writeContent (obj : HeapObject) :
    Emits s (writeContent obj) (ContentFits obj) (layoutContent obj) (contentAddresses obj) := by
  unfold Capture.writeContent ContentFits layoutContent contentAddresses
  cases obj.contentKind with
  | none => exact Emits.pure ∅
  | dict => exact Emits.countedReturn obj.dictContent Emits.writePair _
  | list => exact Emits.countedReturn obj.sequenceContent Emits.writeU64 _
  | set => exact Emits.countedReturn obj.sequenceContent Emits.writeU64 _
  | tuple => exact Emits.countedReturn obj.sequenceContent Emits.writeU64 _

/-- The four container types are told apart. -/
theorem isContainer {wellKnownTypes : OrderedDict String ℕ} {known : ContainerTypes}
    (h : ContainerTypes.ofKnown wellKnownTypes = .ok known) (typeAddress : ℕ) :
    Emits s (isContainer wellKnownTypes typeAddress) True [] (decide (known.Contains typeAddress)) := by
  obtain ⟨hd, hl, hs, ht⟩ := ContainerTypes.ofKnown_eq_ok.1 h
  have hdec : (decide (typeAddress ∈ [known.dict, known.list, known.set, known.tuple]) : Bool) =
      decide (known.Contains typeAddress) :=
    decide_eq_decide.2 (by simp [ContainerTypes.Contains])
  rw [← hdec]
  exact lookup_bind hd (lookup_bind hl (lookup_bind hs (lookup_bind ht (Emits.pure _))))

/-- The loop over the remaining referents, sorted. -/
theorem writeReferents (obj : HeapObject) :
    Emits s ((remainingReferents obj).forM Capture.writeU64)
      (∀ address ∈ obj.referents \ contentAddresses obj, Fits64 address)
      ((remainingReferents obj).flatMap (BigEndian.encode 8)) () :=
  (Emits.forM _ fun address _ => Emits.writeU64 address).congr
    (by simp only [remainingReferents, Finset.mem_sort])

/-- **One object.** -/
theorem writeFacts {wellKnownTypes : OrderedDict String ℕ} {known : ContainerTypes}
    (h : ContainerTypes.ofKnown wellKnownTypes = .ok known) (obj : HeapObject) :
    Emits s (writeFacts obj wellKnownTypes) (ObjectFits obj) (layoutObject s known obj) () := by
  have hsize : Fits32 (clampSize obj.shallowSize) := min_le_right _ _
  have hcard : (remainingReferents obj).length = (obj.referents \ contentAddresses obj).card :=
    Finset.length_sort _
  have hrepr : Emits s (do
      let container ← Capture.isContainer wellKnownTypes obj.typeAddress
      let w ← get
      if w.withStrRepr ∧ ¬container then Capture.writeLongString obj.strRepr)
      (True ∧ True) ([] ++ layoutRepr s known obj) () := by
    refine (Emits.isContainer h obj.typeAddress).bind (Emits.get_bind fun w hw => ?_)
    rw [layoutRepr, hw]
    simp only [decide_eq_true_eq]
    split_ifs
    · exact Emits.writeLongString obj.strRepr
    · exact Emits.pure ()
  have hbytes : layoutObject s known obj =
      BigEndian.encode 8 obj.address ++ (BigEndian.encode 8 obj.typeAddress ++
        (BigEndian.encode 4 (clampSize obj.shallowSize) ++ (layoutContent obj ++
          (BigEndian.encode 4 (obj.referents \ contentAddresses obj).card ++
            ((remainingReferents obj).flatMap (BigEndian.encode 8) ++
              (BigEndian.encode 4 obj.attributes.length ++
                (obj.attributes.flatMap layoutAttribute ++ ([] ++ layoutRepr s known obj)))))))) := by
    simp only [layoutObject, layoutFields, layoutCounted, hcard, List.append_assoc, List.nil_append]
  rw [hbytes]
  refine Emits.congr (Emits.bind (Emits.writeU64 _) (Emits.bind (Emits.writeU64 _)
    (Emits.bind (Emits.writeU32 _) (Emits.bind (Emits.writeContent obj) (Emits.bind (Emits.writeU32 _)
      (Emits.bind (Emits.writeReferents obj) (Emits.bind (Emits.writeU32 _)
        (Emits.bind (Emits.forM _ fun attr _ => Emits.writeAttribute attr) hrepr)))))))) ?_
  simp only [ObjectFits, hsize, and_true, true_and, and_assoc]

/-- A check writes nothing. -/
theorem check {c : Prop} [Decidable c] (e : CaptureError) : Emits s (check c e) c [] () := by
  rw [Capture.check]
  by_cases h : c
  · rw [if_pos h]
    exact (Emits.pure ()).congr (by simp only [h])
  · rw [if_neg h]
    exact Emits.raise.congr (by simp only [h])

/-- A well-known type is written if it is known. -/
theorem writeWellKnown (wellKnownTypes : OrderedDict String ℕ) (name : String) :
    Emits s (writeWellKnown wellKnownTypes name)
      (∃ address, wellKnownTypes.find? name = some address ∧ Fits64 address)
      (layoutWellKnown wellKnownTypes name) () := by
  unfold Capture.writeWellKnown layoutWellKnown Capture.lookup
  cases hname : wellKnownTypes.find? name with
  | none =>
    exact ((Emits.writeLongString name).bind Emits.raise).congr (by simp)
  | some address =>
    exact ((Emits.writeLongString name).bind (Emits.writeU64 address)).congr (by simp)

/-- No type is missing if and only if each name is known. -/
theorem missingTypes_eq_nil {wellKnownTypes : OrderedDict String ℕ} :
    missingTypes wellKnownTypes = [] ↔
      ∀ name ∈ WELL_KNOWN_TYPE_NAMES, name ∈ wellKnownTypes.keys := by
  simp [missingTypes, List.filter_eq_nil_iff]

/-- **The header.** -/
theorem writeHeader (wellKnownTypes : OrderedDict String ℕ) (createdAt : Option String) (now : String) :
    Emits s (writeHeader wellKnownTypes createdAt now) (WellKnownFits wellKnownTypes)
      (layoutHeader s (createdAtOr createdAt now) wellKnownTypes) () := by
  have hmagic : Fits64 MAGIC := by norm_num [Fits64, MAGIC]
  have hversion : Fits32 FORMAT_VERSION := by norm_num [Fits32, FORMAT_VERSION, MAX_UINT32]
  have hflags : Fits64 (if s then FLAG_WITH_STR_REPR else 0) := by
    cases s <;> norm_num [Fits64, FLAG_WITH_STR_REPR]
  have hcount : Fits32 WELL_KNOWN_TYPE_NAMES.length := by
    norm_num [Fits32, WELL_KNOWN_TYPE_NAMES, MAX_UINT32]
  have hkeys : WellKnownFits wellKnownTypes → missingTypes wellKnownTypes = [] := fun h =>
    missingTypes_eq_nil.2 fun name hn =>
      let ⟨_, ha, _⟩ := h name hn
      OrderedDict.mem_keys_of_find? ha
  unfold Capture.writeHeader
  rw [← List.nil_append (layoutHeader _ _ _)]
  refine Emits.congr (Emits.bind (Emits.check _) (Emits.bind (Emits.writeU64 _)
    (Emits.bind (Emits.writeU32 _) (Emits.bind (Emits.writeLongString _) (Emits.get_bind fun w hw => ?_)))))
    (?_ : _ ∧ _ ∧ _ ∧ _ ∧ (Fits64 (if s then FLAG_WITH_STR_REPR else 0) ∧
      Fits32 WELL_KNOWN_TYPE_NAMES.length ∧ WellKnownFits wellKnownTypes) ↔ _)
  · rw [hw]
    exact Emits.bind (Emits.writeU64 _) (Emits.bind (Emits.writeU32 _)
      (Emits.forM _ fun name _ => Emits.writeWellKnown wellKnownTypes name))
  · simp only [hmagic, hversion, hflags, hcount, true_and]
    exact ⟨And.right, fun h => ⟨hkeys h, h⟩⟩

/-- The type table is written. -/
theorem writeTypes (types : OrderedDict ℕ String) :
    Emits s (writeTypes types) (TypesFit types) (layoutTypes types) () := by
  have hmagic : Fits64 MAGIC := by norm_num [Fits64, MAGIC]
  have hlen : (sortedTypes types).length = types.entries.length := List.length_mergeSort _
  have hmem : (∀ entry ∈ sortedTypes types, Fits64 entry.1) ↔ ∀ address ∈ types.keys, Fits64 address := by
    simp [sortedTypes, OrderedDict.keys]
  have hbytes : layoutTypes types = BigEndian.encode 4 types.entries.length ++
      ((sortedTypes types).flatMap layoutType ++ BigEndian.encode 8 MAGIC) := by
    rw [layoutTypes, layoutCounted, hlen, List.append_assoc]
  rw [hbytes]
  refine Emits.congr (Emits.bind (Emits.writeU32 _) (Emits.bind
    (Emits.forM _ fun entry _ => Emits.writeType entry) (Emits.writeU64 _))) ?_
  rw [hmem]
  simp only [TypesFit, hmagic, and_true]

end Emits

/-! ### The object section -/

/-- The writer after the preamble and the objects `objects`. -/
def objectState (withStrRepr : Bool) (preamble : List UInt8) (known : ContainerTypes)
    (objects : List HeapObject) : HeapWriter where
  file := preamble ++ (BigEndian.encode 4 0 ++ objects.flatMap (layoutObject withStrRepr known))
  position := (preamble ++ (BigEndian.encode 4 0 ++ objects.flatMap (layoutObject withStrRepr known))).length
  withStrRepr := withStrRepr
  objectCountOffset := some preamble.length
  objectCount := objects.length

/-- `write_header`, `write_threads` and `begin_objects` on a fresh file. -/
def writePreamble (wellKnownTypes : OrderedDict String ℕ) (createdAt : Option String) (now : String)
    (threads : List HeapThread) : Writer Unit := do
  writeHeader wellKnownTypes createdAt now
  writeThreads threads
  beginObjects

/-- **The object section is open** after the three first calls, and they succeed
exactly when the header and the threads fit. -/
theorem writePreamble_spec (withStrRepr : Bool) (wellKnownTypes : OrderedDict String ℕ)
    (known : ContainerTypes) (createdAt : Option String) (now : String) (threads : List HeapThread) :
    (WellKnownFits wellKnownTypes ∧ ThreadsFit threads →
      writePreamble wellKnownTypes createdAt now threads (HeapWriter.new withStrRepr) =
        .ok ((), objectState withStrRepr
          (layoutPreamble withStrRepr (createdAtOr createdAt now) wellKnownTypes threads) known [])) ∧
    (¬(WellKnownFits wellKnownTypes ∧ ThreadsFit threads) →
      ∃ e, writePreamble wellKnownTypes createdAt now threads (HeapWriter.new withStrRepr) = .error e) := by
  have hzero : Fits32 0 := Nat.zero_le _
  -- the writes before the offset is noted, and the one after it
  have htables := (@Emits.writeHeader withStrRepr wellKnownTypes createdAt now).seq
    ((Emits.writeThreads threads).seq ((Emits.writeU32 0).seq (Emits.writeU32 0)))
  obtain ⟨hok, herr⟩ := htables (HeapWriter.new withStrRepr) rfl rfl
  have hsplit : writePreamble wellKnownTypes createdAt now threads =
      (writeHeader wellKnownTypes createdAt now >>= fun _ => writeThreads threads >>= fun _ =>
        writeU32 0 >>= fun _ => writeU32 0) >>= fun _ =>
          modify (fun w => { w with objectCountOffset := some w.position }) >>= fun _ => writeU32 0 := by
    simp only [writePreamble, beginObjects, bind_assoc]
  rw [hsplit]
  constructor
  · rintro ⟨hwk, hth⟩
    rw [run_bind_ok (hok ⟨hwk, hth, hzero, hzero⟩)]
    refine (run_bind_ok rfl).trans (((Emits.writeU32 0) _ ?_ rfl).1 hzero |>.trans ?_)
    · simp only [AtEnd, append, HeapWriter.new, List.nil_append, Nat.zero_add]
    · simp only [append, objectState, layoutPreamble, HeapWriter.new, List.nil_append, Nat.zero_add,
        List.flatMap_nil, List.append_nil, List.length_append, List.length_nil, List.append_assoc, Nat.add_assoc]
  · intro h
    obtain ⟨e, he⟩ := herr fun h' => h ⟨h'.1, h'.2.1⟩
    exact ⟨e, run_bind_error he⟩

/-- **One more object**: `write_object` succeeds exactly when the object fits,
and then appends its layout and counts it. -/
theorem writeObject_spec (withStrRepr : Bool) (preamble : List UInt8)
    {wellKnownTypes : OrderedDict String ℕ} {known : ContainerTypes}
    (h : ContainerTypes.ofKnown wellKnownTypes = .ok known) (objects : List HeapObject) (obj : HeapObject) :
    (ObjectFits obj →
      writeObject obj wellKnownTypes (objectState withStrRepr preamble known objects) =
        .ok ((), objectState withStrRepr preamble known (objects ++ [obj]))) ∧
    (¬ObjectFits obj →
      ∃ e, writeObject obj wellKnownTypes (objectState withStrRepr preamble known objects) = .error e) := by
  obtain ⟨hok, herr⟩ := Emits.writeFacts h obj (objectState withStrRepr preamble known objects) rfl rfl
  have hstart : writeObject obj wellKnownTypes (objectState withStrRepr preamble known objects) =
      (writeFacts obj wellKnownTypes >>= fun _ =>
        modify fun w => { w with objectCount := w.objectCount + 1 })
        (objectState withStrRepr preamble known objects) := rfl
  rw [hstart]
  constructor
  · intro hfits
    rw [run_bind_ok (hok hfits)]
    simp only [modify, modifyGet, MonadStateOf.modifyGet, StateT.modifyGet, append, objectState,
      List.flatMap_append, List.flatMap_cons, List.flatMap_nil, List.append_nil, List.append_assoc,
      List.length_append, List.length_cons, List.length_nil, Nat.add_assoc]
    rfl
  · intro hfits
    obtain ⟨e, he⟩ := herr hfits
    exact ⟨e, run_bind_error he⟩

/-- Overwriting the four bytes behind `pre`. -/
theorem patch_eq {pre old new post : List UInt8} (h : old.length = new.length) :
    (pre ++ (old ++ post)).take pre.length ++ new ++ (pre ++ (old ++ post)).drop (pre.length + new.length) =
      pre ++ (new ++ post) := by
  rw [List.take_left, ← h, ← List.drop_drop, List.drop_left, List.drop_left, List.append_assoc]

/-- **The finished file.**  `finish` puts the number of objects in its place and
the type table and the footer at the end. -/
theorem finish_spec (withStrRepr : Bool) (preamble : List UInt8) (known : ContainerTypes)
    (objects : List HeapObject) (types : OrderedDict ℕ String) :
    (Fits32 objects.length ∧ TypesFit types →
      ∃ w, finish types (objectState withStrRepr preamble known objects) = .ok ((), w) ∧
        w.file = preamble ++ (layoutCounted (layoutObject withStrRepr known) objects ++
          layoutTypes types)) ∧
    (¬(Fits32 objects.length ∧ TypesFit types) →
      ∃ e, finish types (objectState withStrRepr preamble known objects) = .error e) := by
  set w₀ := objectState withStrRepr preamble known objects with hw₀
  let patched : HeapWriter := { w₀ with
    file := preamble ++ (BigEndian.encode 4 objects.length ++
      objects.flatMap (layoutObject withStrRepr known)) }
  have hend : AtEnd patched := by
    simp only [AtEnd, patched, hw₀, objectState, List.length_append, BigEndian.length_encode]
  have hstart : finish types w₀ =
      (writeU32 objects.length >>= fun _ => seek w₀.position >>= fun _ => writeTypes types)
        { w₀ with position := preamble.length } := rfl
  rw [hstart]
  by_cases hcount : Fits32 objects.length
  · have hpatch : writeU32 objects.length { w₀ with position := preamble.length } =
        .ok ((), { patched with position := preamble.length + 4 }) := by
      rw [writeU32, if_pos (show objects.length ≤ MAX_UINT32 from hcount), writeBytes]
      simp only [hw₀, objectState, patched]
      rw [patch_eq (by simp), BigEndian.length_encode]
    obtain ⟨hok, herr⟩ := Emits.writeTypes types patched hend rfl
    rw [run_bind_ok hpatch]
    have hseek : (seek w₀.position >>= fun _ => writeTypes types)
        { patched with position := preamble.length + 4 } = writeTypes types patched := rfl
    rw [hseek]
    refine ⟨fun h => ⟨_, hok h.2, ?_⟩, fun h => herr fun ht => h ⟨hcount, ht⟩⟩
    simp only [append, patched, layoutCounted, List.append_assoc]
  · have hraise : ∃ e, writeU32 objects.length { w₀ with position := preamble.length } = .error e := by
      rw [writeU32, if_neg (show ¬objects.length ≤ MAX_UINT32 from hcount)]
      exact ⟨_, rfl⟩
    obtain ⟨e, he⟩ := hraise
    exact ⟨fun h => absurd h.1 hcount, fun _ => ⟨e, run_bind_error he⟩⟩

/-! ### The whole artifact -/

/-- A writer from `write_header` to `finish`, as the collector and the fixture
generator drive it: the bytes of the file. -/
def writeArtifact (withStrRepr : Bool) (wellKnownTypes : OrderedDict String ℕ) (createdAt : Option String)
    (now : String) (threads : List HeapThread) (objects : List HeapObject)
    (types : OrderedDict ℕ String) : Except CaptureError (List UInt8) :=
  ((do
    writePreamble wellKnownTypes createdAt now threads
    objects.forM fun obj => writeObject obj wellKnownTypes
    finish types : Writer Unit) (HeapWriter.new withStrRepr)).map fun p => p.2.file

/-- **The object loop.** -/
theorem writeObjects_spec (withStrRepr : Bool) (preamble : List UInt8)
    {wellKnownTypes : OrderedDict String ℕ} {known : ContainerTypes}
    (h : ContainerTypes.ofKnown wellKnownTypes = .ok known) (done objects : List HeapObject)
    (hfits : ∀ obj ∈ objects, ObjectFits obj) :
    (objects.forM fun obj => writeObject obj wellKnownTypes)
        (objectState withStrRepr preamble known done) =
      .ok ((), objectState withStrRepr preamble known (done ++ objects)) := by
  induction objects generalizing done with
  | nil =>
    rw [List.append_nil]
    rfl
  | cons obj objects ih =>
    have hobj := (writeObject_spec withStrRepr preamble h done obj).1 (hfits obj List.mem_cons_self)
    have hrest := ih (done ++ [obj]) fun o ho => hfits o (List.mem_cons_of_mem obj ho)
    rw [List.append_assoc, List.singleton_append] at hrest
    exact (run_bind_ok hobj).trans hrest

/-- **What a complete run of the writer produces.** -/
theorem writeArtifact_eq {withStrRepr : Bool} {wellKnownTypes : OrderedDict String ℕ}
    {known : ContainerTypes} (h : ContainerTypes.ofKnown wellKnownTypes = .ok known)
    (createdAt : Option String) (now : String) {threads : List HeapThread} {objects : List HeapObject}
    {types : OrderedDict ℕ String} (hwk : WellKnownFits wellKnownTypes) (hthreads : ThreadsFit threads)
    (hcount : Fits32 objects.length) (hobjects : ∀ obj ∈ objects, ObjectFits obj) (htypes : TypesFit types) :
    writeArtifact withStrRepr wellKnownTypes createdAt now threads objects types =
      .ok (layoutArtifact withStrRepr (createdAtOr createdAt now) wellKnownTypes known threads objects
        types) := by
  have hpre := (writePreamble_spec withStrRepr wellKnownTypes known createdAt now threads).1 ⟨hwk, hthreads⟩
  have hobjs := writeObjects_spec withStrRepr
    (layoutPreamble withStrRepr (createdAtOr createdAt now) wellKnownTypes threads) h [] objects hobjects
  obtain ⟨w, hfin, hfile⟩ := (finish_spec withStrRepr
    (layoutPreamble withStrRepr (createdAtOr createdAt now) wellKnownTypes threads) known objects types).1
    ⟨hcount, htypes⟩
  rw [List.nil_append] at hobjs
  rw [writeArtifact, run_bind_ok hpre, run_bind_ok hobjs, hfin, Except.map, hfile, layoutArtifact]

/-! ### Validation -/

/-- The two magic values are all that `validate_artifact` looks at. -/
theorem validateArtifact_framed (path : String) (bytes : List UInt8) :
    validateArtifact path (BigEndian.encode 8 MAGIC ++ (bytes ++ BigEndian.encode 8 MAGIC)) = .ok () := by
  have hmagic : MAGIC < 256 ^ 8 := by norm_num [MAGIC]
  have hlen : (BigEndian.encode 8 MAGIC ++ (bytes ++ BigEndian.encode 8 MAGIC)).length = 8 + (bytes.length + 8) := by
    simp only [List.length_append, BigEndian.length_encode]
  have hend : (BigEndian.encode 8 MAGIC ++ (bytes ++ BigEndian.encode 8 MAGIC)).drop (8 + (bytes.length + 8) - 8) =
      BigEndian.encode 8 MAGIC := by
    rw [← List.append_assoc]
    exact List.drop_left' (by rw [List.length_append, BigEndian.length_encode]; omega)
  unfold validateArtifact
  rw [hlen, if_neg (by omega), hend, List.take_left' (BigEndian.length_encode 8 MAGIC), BigEndian.decode_encode hmagic,
    if_neg (by simp)]

/-- **`validate_artifact` accepts whatever a writer leaves.** -/
theorem validateArtifact_layoutArtifact (path : String) (withStrRepr : Bool) (createdAt : String)
    (wellKnownTypes : OrderedDict String ℕ) (known : ContainerTypes) (threads : List HeapThread)
    (objects : List HeapObject) (types : OrderedDict ℕ String) :
    validateArtifact path (layoutArtifact withStrRepr createdAt wellKnownTypes known threads objects types) =
      .ok () := by
  obtain ⟨front, hfront⟩ : ∃ front, layoutPreamble withStrRepr createdAt wellKnownTypes threads =
      BigEndian.encode 8 MAGIC ++ front := ⟨_, by rw [layoutPreamble, layoutHeader, List.append_assoc]⟩
  rw [layoutArtifact, hfront, layoutTypes, List.append_assoc,
    ← List.append_assoc (layoutCounted (layoutObject withStrRepr known) objects), ← List.append_assoc front]
  exact validateArtifact_framed path _

end Artifact
end Pydump
