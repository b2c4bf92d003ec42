/-
# What the Python reader makes of an artifact

The objects that `HeapReader.read` returns: each under its own address, with the content
of its type, a size of 32 bits, a type that the table names, and where the artifact has
strings, a string in the file for every object that is no container.
-/

import Pydump.Analyzer.ReaderShape

namespace Pydump
namespace Analyzer

open ByteParser

/-- An object has the content of its type, which is the first of those that it is. -/
def HeapObject.Shaped (known : ContainerTypes) (obj : HeapObject) : Prop :=
  match obj.content with
  | .dict _ => obj.typeAddress = known.dict
  | .tuple _ => obj.typeAddress = known.tuple ∧ obj.typeAddress ≠ known.dict
  | .set _ => obj.typeAddress = known.set ∧ obj.typeAddress ≠ known.dict ∧ obj.typeAddress ≠ known.tuple
  | .list _ => obj.typeAddress = known.list ∧ obj.typeAddress ≠ known.dict ∧ obj.typeAddress ≠ known.tuple ∧
      obj.typeAddress ≠ known.set
  | .none => ¬known.Contains obj.typeAddress

/-- There is a string at an offset: two bytes with its length, and as many bytes behind
them. -/
def StringAt (source : List UInt8) (offset : ℕ) : Prop :=
  offset + 2 ≤ source.length ∧ offset + 2 + BigEndian.decode ((source.drop offset).take 2) ≤ source.length

/-- An object as the reader makes it of an artifact: of 32 bits, and one that is no
container has its string there, if the artifact has strings. -/
structure HeapObject.StoredIn (source : List UInt8) (withStrRepr : Bool) (known : ContainerTypes) (obj : HeapObject) :
    Prop where
  shaped : obj.Shaped known
  size : obj.size < 2 ^ 32
  string : withStrRepr = true → obj.content = .none →
    ∃ offset, obj.stringRepresentationOffset = some offset ∧ StringAt source offset

/-- Objects as the reader makes them of an artifact, each under its own address. -/
def ObjectsStored (source : List UInt8) (withStrRepr : Bool) (known : ContainerTypes)
    (objects : OrderedDict ℕ HeapObject) : Prop :=
  ∀ entry ∈ objects.entries, entry.2.address = entry.1 ∧ entry.2.StoredIn source withStrRepr known

/-- A heap as the reader makes it of an artifact. -/
structure Heap.StoredIn (source : List UInt8) (known : ContainerTypes) (heap : Heap) : Prop where
  containers : ContainerTypes.ofKnown heap.header.wellKnownTypes = .ok known
  stored : ObjectsStored source heap.header.flags.withStrRepr known heap.objects
  count : heap.objects.entries.length < 2 ^ 32
  typed : ∀ obj ∈ heap.objects.values, obj.typeAddress ∈ heap.types.keys
  source : heap.source = some source

/-- Every object of a stored heap is stored. -/
theorem Heap.StoredIn.objects {source : List UInt8} {known : ContainerTypes} {heap : Heap}
    (h : heap.StoredIn source known) {obj : HeapObject} (hobj : obj ∈ heap.objects.values) :
    obj.StoredIn source heap.header.flags.withStrRepr known := by
  obtain ⟨entry, hentry, rfl⟩ := List.mem_map.1 hobj
  exact (h.stored entry hentry).2

/-- There is a string for an object that is no container. -/
theorem Heap.StoredIn.string_of_find? {source : List UInt8} {known : ContainerTypes} {heap : Heap}
    (h : heap.StoredIn source known) (hflag : heap.header.flags.withStrRepr = true) {address : ℕ} {obj : HeapObject}
    (hobj : heap.objects.find? address = some obj) (hcontent : obj.content = .none) :
    ∃ offset, obj.stringRepresentationOffset = some offset ∧ StringAt source offset :=
  (h.objects (List.mem_map_of_mem (OrderedDict.find?_eq_some.1 hobj))).string hflag hcontent

variable {source : List UInt8}

/-- `_read_content` makes the content of the type. -/
theorem shaped_readContent (typeAddress : ℕ) (known : ContainerTypes) :
    Returns (fun r => ∀ obj : HeapObject, obj.typeAddress = typeAddress → obj.content = r.1 → obj.Shaped known)
      (readContent typeAddress known) := by
  have hmade : ∀ {content : ObjectContent} {referents : Finset ℕ},
      (∀ obj : HeapObject, obj.typeAddress = typeAddress → obj.content = content → obj.Shaped known) →
      Returns (fun r => ∀ obj : HeapObject, obj.typeAddress = typeAddress → obj.content = r.1 → obj.Shaped known)
        (pure (content, referents) : Reader (ObjectContent × Finset ℕ)) := fun h => Returns.pure h
  unfold readContent
  by_cases hdict : typeAddress = known.dict
  · rw [if_pos hdict]
    refine Returns.bind_any fun pairs => hmade fun obj htype hcontent => ?_
    rw [HeapObject.Shaped, hcontent]
    exact htype.trans hdict
  · rw [if_neg hdict]
    by_cases hsequence : typeAddress = known.list ∨ typeAddress = known.tuple ∨ typeAddress = known.set
    · rw [if_pos hsequence]
      refine Returns.bind_any fun values => ?_
      by_cases htuple : typeAddress = known.tuple
      · rw [if_pos htuple]
        refine hmade fun obj htype hcontent => ?_
        rw [HeapObject.Shaped, hcontent, htype]
        exact ⟨htuple, hdict⟩
      · rw [if_neg htuple]
        by_cases hset : typeAddress = known.set
        · rw [if_pos hset]
          refine hmade fun obj htype hcontent => ?_
          rw [HeapObject.Shaped, hcontent, htype]
          exact ⟨hset, hdict, htuple⟩
        · rw [if_neg hset]
          refine hmade fun obj htype hcontent => ?_
          rw [HeapObject.Shaped, hcontent, htype]
          show typeAddress = known.list ∧ typeAddress ≠ known.dict ∧ typeAddress ≠ known.tuple ∧ typeAddress ≠ known.set
          omega
    · rw [if_neg hsequence]
      refine hmade fun obj htype hcontent => ?_
      rw [HeapObject.Shaped, hcontent, htype]
      show ¬known.Contains typeAddress
      unfold ContainerTypes.Contains
      omega

/-- The offset of a string that the reader has skipped. -/
theorem stringAt_readStringOffset (withStrRepr : Bool) (known : ContainerTypes) (typeAddress : ℕ) :
    ReturnsOn source (fun found => withStrRepr = true → ¬known.Contains typeAddress →
      ∃ offset, found = some offset ∧ StringAt source offset) (readStringOffset withStrRepr known typeAddress) := by
  unfold readStringOffset
  split_ifs with h
  · intro off found off' hrun _ _
    obtain ⟨start, off₁, hstart, hrun⟩ := bind_eq_ok.1 hrun
    cases hstart
    obtain ⟨_, off₂, hskip, hrun⟩ := bind_eq_ok.1 hrun
    cases hrun
    obtain ⟨length, off₃, hlength, hskip⟩ := bind_eq_ok.1 hskip
    obtain ⟨bytes, off₄, htake, hdecode⟩ := bind_eq_ok.1 hlength
    cases hdecode
    obtain ⟨hfront, rfl, rfl⟩ := take_eq_ok.1 htake
    obtain ⟨_, off₅, htake', -⟩ := bind_eq_ok.1 hskip
    exact ⟨off, rfl, hfront, (take_eq_ok.1 htake').1⟩
  · exact ReturnsOn.pure fun hwith hc => absurd ⟨hwith, hc⟩ h

/-- An integer of four bytes. -/
theorem lt_readU32 : Returns (fun value => value < 2 ^ 32) readU32 := by
  intro src off value off' hrun
  obtain ⟨bytes, off₁, htake, hdecode⟩ := bind_eq_ok.1 hrun
  cases hdecode
  obtain ⟨hfront, rfl, -⟩ := take_eq_ok.1 htake
  have hlt := BigEndian.decode_lt ((src.drop off).take 4)
  rw [List.length_take_of_le (by rw [List.length_drop]; omega)] at hlt
  exact hlt

/-- An object that is read is stored. -/
theorem storedIn_readObject (withStrRepr : Bool) (known : ContainerTypes) (frequentAttributes : List String)
    (commonTypes : Finset ℕ) :
    ReturnsOn source (HeapObject.StoredIn source withStrRepr known)
      (readObject withStrRepr known frequentAttributes commonTypes) := by
  refine ReturnsOn.bind_any fun address => ReturnsOn.bind_any fun typeAddress => ?_
  refine (ReturnsOn.of_returns lt_readU32).bind fun size hsize => ?_
  refine (ReturnsOn.of_returns (shaped_readContent typeAddress known)).bind fun r hshaped => ?_
  refine ReturnsOn.bind_any fun referents => ReturnsOn.bind_any fun _ => ?_
  refine (stringAt_readStringOffset withStrRepr known typeAddress).bind fun found hfound => ReturnsOn.pure ?_
  refine ⟨hshaped _ rfl rfl, hsize, fun hwith hcontent => hfound hwith ?_⟩
  have hshape := hshaped ⟨address, typeAddress, size, referents ∪ r.2, r.1, found⟩ rfl rfl
  unfold HeapObject.Shaped at hshape
  rwa [hcontent] at hshape

/-- The objects that are read are stored, and counted. -/
theorem storedIn_readObjectsFrom (withStrRepr : Bool) (known : ContainerTypes) (frequentAttributes : List String)
    (commonTypes : Finset ℕ) (n : ℕ) {result : OrderedDict ℕ HeapObject}
    (h : ObjectsStored source withStrRepr known result) :
    ReturnsOn source (fun objects => ObjectsStored source withStrRepr known objects ∧
      objects.entries.length = result.entries.length + n)
      (readObjectsFrom withStrRepr known frequentAttributes commonTypes n result) := by
  induction n generalizing result with
  | zero => exact ReturnsOn.pure ⟨h, rfl⟩
  | succ n ih =>
    refine (storedIn_readObject withStrRepr known frequentAttributes commonTypes).bind fun obj hobj => ?_
    refine (ReturnsOn.of_returns (Returns.ensure _)).bind fun _ hnew => ?_
    have hentries := OrderedDict.entries_insert_of_not_mem (v := obj) hnew
    have hstored : ObjectsStored source withStrRepr known (result.insert obj.address obj) := by
      intro entry hentry
      rw [hentries, List.mem_append, List.mem_singleton] at hentry
      rcases hentry with hentry | rfl
      · exact h entry hentry
      · exact ⟨rfl, hobj⟩
    intro off objects off' hrun
    obtain ⟨hobjects, hlength⟩ := ih hstored off objects off' hrun
    rw [hentries, List.length_append, List.length_singleton] at hlength
    exact ⟨hobjects, by omega⟩

/-- The objects, for the container types of the header. -/
theorem storedIn_readObjects (header : HeapHeader) (frequentAttributes : List String) (commonTypes : Finset ℕ) :
    ReturnsOn source (fun objects : OrderedDict ℕ HeapObject => ∃ known,
      ContainerTypes.ofKnown header.wellKnownTypes = .ok known ∧
        ObjectsStored source header.flags.withStrRepr known objects ∧ objects.entries.length < 2 ^ 32)
      (readObjects header frequentAttributes commonTypes) := by
  unfold readObjects lookupContainerTypes
  split
  · rename_i known hknown
    refine (ReturnsOn.pure (V := fun found => found = known) rfl).bind fun found hfound => ?_
    subst hfound
    refine (ReturnsOn.of_returns lt_readU32).bind fun count hcount => ?_
    intro off objects off' hrun
    obtain ⟨hstored, hlength⟩ := storedIn_readObjectsFrom _ found frequentAttributes commonTypes count
      (fun entry hentry => absurd hentry List.not_mem_nil) off objects off' hrun
    exact ⟨found, hknown, hstored, hlength ▸ (Nat.zero_add count).symm ▸ hcount⟩
  · exact (ReturnsOn.of_returns (Returns.fail (V := fun _ => False) _)).bind fun _ h => h.elim

/-- **What the reader makes of an artifact.** -/
theorem storedIn_of_readHeap {heap : Heap} (h : readHeap source = .ok heap) : ∃ known, heap.StoredIn source known := by
  have hread : ReturnsOn source (fun heap => ∃ known, Heap.StoredIn source known heap) read := by
    have hsections : ReturnsOn source (fun sections => ∃ known,
        ContainerTypes.ofKnown sections.header.wellKnownTypes = .ok known ∧
          ObjectsStored source sections.header.flags.withStrRepr known sections.objects ∧
            sections.objects.entries.length < 2 ^ 32 ∧
              ∀ obj ∈ sections.objects.values, obj.typeAddress ∈ sections.types.keys) readSections := by
      refine ReturnsOn.bind_any fun header => ReturnsOn.bind_any fun _ => ReturnsOn.bind_any fun frequentAttributes =>
        ReturnsOn.bind_any fun commonTypes => (storedIn_readObjects header frequentAttributes commonTypes).bind
          fun objects ⟨known, hknown, hstored, hcount⟩ => ReturnsOn.bind_any fun types => ?_
      refine (ReturnsOn.of_returns (Returns.ensureAll _ _)).bind fun _ htyped => ReturnsOn.bind_any fun _ =>
        ReturnsOn.bind_any fun _ => ReturnsOn.pure ⟨known, hknown, hstored, hcount, htyped⟩
    refine hsections.bind fun sections ⟨known, hknown, hstored, hcount, htyped⟩ => ?_
    refine ReturnsOn.input.bind fun found hfound => ReturnsOn.bind_any fun _ => ReturnsOn.bind_any fun _ => ?_
    exact ReturnsOn.pure ⟨known, hknown, hstored, hcount, htyped, congrArg some hfound⟩
  unfold readHeap at h
  cases hrun : read source 0 with
  | error e =>
    rw [hrun] at h
    cases h
  | ok r =>
    rw [hrun] at h
    cases h
    exact hread 0 r.1 r.2 hrun

/-- The header of a heap is what was read first. -/
theorem readHeader_of_readHeap (h : readHeap source = .ok heap) :
    ∃ off, readHeader source 0 = .ok (heap.header, off) := by
  unfold readHeap at h
  cases hrun : read source 0 with
  | error e =>
    rw [hrun] at h
    cases h
  | ok r =>
    rw [hrun] at h
    cases h
    obtain ⟨sections, off₁, hsections, hrest⟩ := bind_eq_ok.1 hrun
    obtain ⟨header, off₂, hheader, hbody⟩ := bind_eq_ok.1 hsections
    -- what is read later leaves the header alone
    have hkept : Returns (fun sections => sections.header = header) (do
        let threads ← readThreads
        let frequentAttributes ← readStringList
        let commonTypes ← readCommonTypes frequentAttributes
        let objects ← readObjects header frequentAttributes commonTypes
        let types ← readAddressStringMap
        ensureAll (fun obj : HeapObject => obj.typeAddress ∈ types.keys) missingType objects.values
        let footer ← readU64
        ensure (footer = MAGIC) (.heapFormat "invalid PyHeap footer magic value")
        pure ⟨header, threads, objects, types⟩ : Reader Sections) :=
      Returns.bind_any fun _ => Returns.bind_any fun _ => Returns.bind_any fun _ => Returns.bind_any fun _ =>
        Returns.bind_any fun _ => Returns.bind_any fun _ => Returns.bind_any fun _ => Returns.bind_any fun _ =>
          Returns.pure rfl
    have hsame := hkept source off₂ sections off₁ hbody
    obtain ⟨_, _, _, hrest⟩ := bind_eq_ok.1 hrest
    obtain ⟨_, _, _, hrest⟩ := bind_eq_ok.1 hrest
    obtain ⟨_, _, _, hrest⟩ := bind_eq_ok.1 hrest
    cases hrest
    exact ⟨off₂, hsame ▸ hheader⟩

/-! ### Addresses -/

/-- An integer of eight bytes. -/
theorem lt_readU64 : Returns (fun value => value < 2 ^ 64) readU64 := by
  intro src off value off' hrun
  obtain ⟨bytes, off₁, htake, hdecode⟩ := bind_eq_ok.1 hrun
  cases hdecode
  obtain ⟨hfront, rfl, -⟩ := take_eq_ok.1 htake
  have hlt := BigEndian.decode_lt ((src.drop off).take 8)
  rw [List.length_take_of_le (by rw [List.length_drop]; omega)] at hlt
  exact hlt

/-- An address that is read has 64 bits. -/
theorem lt_readObject (withStrRepr : Bool) (known : ContainerTypes) (frequentAttributes : List String)
    (commonTypes : Finset ℕ) :
    Returns (fun obj => obj.address < 2 ^ 64) (readObject withStrRepr known frequentAttributes commonTypes) :=
  lt_readU64.bind fun _ haddress => Returns.bind_any fun _ => Returns.bind_any fun _ => Returns.bind_any fun _ =>
    Returns.bind_any fun _ => Returns.bind_any fun _ => Returns.bind_any fun _ => Returns.pure haddress

/-- The addresses that are read have 64 bits. -/
theorem lt_readObjectsFrom (withStrRepr : Bool) (known : ContainerTypes) (frequentAttributes : List String)
    (commonTypes : Finset ℕ) (n : ℕ) {result : OrderedDict ℕ HeapObject}
    (h : ∀ address ∈ result.keys, address < 2 ^ 64) :
    Returns (fun objects => ∀ address ∈ objects.keys, address < 2 ^ 64)
      (readObjectsFrom withStrRepr known frequentAttributes commonTypes n result) := by
  induction n generalizing result with
  | zero => exact Returns.pure h
  | succ n ih =>
    refine (lt_readObject withStrRepr known frequentAttributes commonTypes).bind fun obj hobj => ?_
    refine (Returns.ensure _).bind fun _ hnew => ih fun address haddress => ?_
    rw [OrderedDict.keys_insert, if_neg hnew, List.mem_append, List.mem_singleton] at haddress
    rcases haddress with haddress | rfl
    · exact h address haddress
    · exact hobj

/-- **The addresses of the objects** have 64 bits. -/
theorem address_lt_of_readHeap {heap : Heap} (h : readHeap source = .ok heap) :
    ∀ address ∈ heap.objects.keys, address < 2 ^ 64 := by
  have hread : Returns (fun heap : Heap => ∀ address ∈ heap.objects.keys, address < 2 ^ 64) read := by
    have hsections : Returns (fun sections => ∀ address ∈ sections.objects.keys, address < 2 ^ 64) readSections := by
      refine Returns.bind_any fun header => Returns.bind_any fun _ => Returns.bind_any fun frequentAttributes =>
        Returns.bind_any fun commonTypes => ?_
      have hobjects : Returns (fun objects => ∀ address ∈ objects.keys, address < 2 ^ 64)
          (readObjects header frequentAttributes commonTypes) :=
        Returns.bind_any fun known => Returns.bind_any fun count =>
          lt_readObjectsFrom _ known _ _ count fun _ haddress => absurd haddress List.not_mem_nil
      exact hobjects.bind fun objects haddresses => Returns.bind_any fun _ => Returns.bind_any fun _ =>
        Returns.bind_any fun _ => Returns.bind_any fun _ => Returns.pure haddresses
    exact hsections.bind fun sections haddresses => Returns.bind_any fun _ => Returns.bind_any fun _ =>
      Returns.bind_any fun _ => Returns.pure haddresses
  unfold readHeap at h
  cases hrun : read source 0 with
  | error e =>
    rw [hrun] at h
    cases h
  | ok r =>
    rw [hrun] at h
    cases h
    exact hread source 0 r.1 r.2 hrun

/-! ### How many referents there are -/

/-- Whatever is raised. -/
def AnyError (_ : ReadError) : Prop := True

/-- Every format error is an error. -/
theorem anyError (message : String) : AnyError (.heapFormat message) := trivial

/-- A number takes bytes. -/
theorem costs_readU64 : Costs (fun _ => 1) readU64 :=
  (Costs.take truncated 8).bind fun _ => Costs.pure rfl

/-- A counted list takes the bytes of its items. -/
theorem costs_readCounted {α : Type} {cost : α → ℕ} {step : Reader α} (h : Costs cost step) :
    Costs (fun values => (values.map cost).sum) (readCounted step) :=
  Costs.bind_any (built_unpack anyError 4) fun count => Costs.repeatN h count

/-- Every address that is read takes its place in the artifact. -/
theorem costs_addresses : Costs (fun values : List ℕ => values.toFinset.card) (readCounted readU64) := by
  refine (costs_readCounted costs_readU64).mono fun values => ?_
  rw [List.map_const', List.sum_replicate_nat, mul_one]
  exact List.toFinset_card_le values

/-- A content takes a byte for each referent. -/
theorem costs_readContent (typeAddress : ℕ) (known : ContainerTypes) :
    Costs (fun r : ObjectContent × Finset ℕ => r.2.card) (readContent typeAddress known) := by
  unfold readContent
  by_cases hdict : typeAddress = known.dict
  · rw [if_pos hdict]
    have hpair : Costs (fun _ => 2) readAddressPair :=
      costs_readU64.bind fun _ => costs_readU64.bind fun _ => Costs.pure rfl
    refine (costs_readCounted hpair).bind fun pairs => Costs.pure ?_
    have hunion := Finset.card_union_le (pairs.map Prod.fst).toFinset (pairs.map Prod.snd).toFinset
    have hkeys := List.toFinset_card_le (pairs.map Prod.fst)
    have hvalues := List.toFinset_card_le (pairs.map Prod.snd)
    rw [List.length_map] at hkeys hvalues
    simp only [List.map_const', List.sum_replicate_nat]
    omega
  · rw [if_neg hdict]
    by_cases hsequence : typeAddress = known.list ∨ typeAddress = known.tuple ∨ typeAddress = known.set
    · rw [if_pos hsequence]
      refine costs_addresses.bind fun values => ?_
      by_cases htuple : typeAddress = known.tuple
      · rw [if_pos htuple]
        exact Costs.pure (Nat.sub_self _)
      · rw [if_neg htuple]
        by_cases hset : typeAddress = known.set
        · rw [if_pos hset]
          exact Costs.pure (Nat.sub_self _)
        · rw [if_neg hset]
          exact Costs.pure (Nat.sub_self _)
    · rw [if_neg hsequence]
      exact Costs.pure rfl

/-- An object takes a byte for each referent. -/
theorem costs_readObject (withStrRepr : Bool) (known : ContainerTypes) (frequentAttributes : List String)
    (commonTypes : Finset ℕ) : Costs (fun obj => obj.referents.card)
      (readObject withStrRepr known frequentAttributes commonTypes) := by
  refine Costs.bind_any (built_unpack anyError 8) fun _ => Costs.bind_any (built_unpack anyError 8) fun typeAddress =>
    Costs.bind_any (built_unpack anyError 4) fun _ => (costs_readContent typeAddress known).bind fun r => ?_
  refine (costs_addresses.bind fun values => Costs.pure (Nat.sub_self values.toFinset.card) :
    Costs Finset.card readAddressSet).bind fun referents => ?_
  refine Costs.bind_any (built_readOwnAttributes anyError commonTypes frequentAttributes typeAddress) fun _ =>
    Costs.bind_any (built_readStringOffset anyError withStrRepr known typeAddress) fun _ => Costs.pure ?_
  have hunion := Finset.card_union_le referents r.2
  show (referents ∪ r.2).card - r.2.card - referents.card = 0
  omega

/-- The referents of all objects. -/
def referentCount (objects : OrderedDict ℕ HeapObject) : ℕ := (objects.values.map fun obj => obj.referents.card).sum

/-- The objects take a byte for each referent that they add. -/
theorem costs_readObjectsFrom (withStrRepr : Bool) (known : ContainerTypes) (frequentAttributes : List String)
    (commonTypes : Finset ℕ) (n : ℕ) (result : OrderedDict ℕ HeapObject) :
    Costs (fun objects => referentCount objects - referentCount result)
      (readObjectsFrom withStrRepr known frequentAttributes commonTypes n result) := by
  induction n generalizing result with
  | zero => exact Costs.pure (Nat.sub_self _)
  | succ n ih =>
    refine (costs_readObject withStrRepr known frequentAttributes commonTypes).bind fun obj => ?_
    intro src off objects off' hrun
    obtain ⟨_, off₁, hnew, hrest⟩ := bind_eq_ok.1 hrun
    have hforward := Costs.of_built (Built.ensure (anyError _)) src off _ off₁ hnew
    have hpaid : off₁ + (referentCount objects - referentCount (result.insert obj.address obj)) ≤ off' :=
      ih (result.insert obj.address obj) src off₁ objects off' hrest
    have hinsert : referentCount (result.insert obj.address obj) = referentCount result + obj.referents.card := by
      rw [referentCount, OrderedDict.values, OrderedDict.entries_insert_of_not_mem (ensure_eq_ok hnew)]
      simp [referentCount, OrderedDict.values]
    show off + (referentCount objects - referentCount result - obj.referents.card) ≤ off'
    omega

/-- The section of the objects takes a byte for each referent. -/
theorem costs_readObjects (header : HeapHeader) (frequentAttributes : List String) (commonTypes : Finset ℕ) :
    Costs referentCount (readObjects header frequentAttributes commonTypes) := by
  unfold readObjects lookupContainerTypes
  split
  · exact Costs.bind_any (Built.pure (E := AnyError) _) fun known =>
      Costs.bind_any (built_unpack anyError 4) fun count => costs_readObjectsFrom _ known _ _ count .empty
  · exact Costs.bind_any (Built.fail (E := AnyError) trivial) fun known =>
      Costs.bind_any (built_unpack anyError 4) fun count => costs_readObjectsFrom _ known _ _ count .empty

/-- **An artifact has a byte for every referent.** -/
theorem referentCount_le {heap : Heap} (h : readHeap source = .ok heap) :
    referentCount heap.objects ≤ source.length := by
  have hsections : Costs (fun sections => referentCount sections.objects) readSections := by
    rw [readSections_eq]
    refine Costs.bind_any (built_readFront anyError) fun front => (costs_readObjects _ _ _).bind fun objects => ?_
    refine Costs.bind_any (built_readAddressStringMap anyError) fun types =>
      Costs.bind_any (Built.ensureAll (fun _ => anyError _) _) fun _ =>
        Costs.bind_any (built_unpack anyError 8) fun _ => Costs.bind_any (Built.ensure (anyError _)) fun _ =>
          Costs.pure (Nat.sub_self _)
  unfold readHeap at h
  cases hrun : read source 0 with
  | error e =>
    rw [hrun] at h
    cases h
  | ok r =>
    rw [hrun] at h
    cases h
    obtain ⟨sections, stop, hfront, hrest⟩ := bind_eq_ok.1 hrun
    obtain ⟨_, _, hinput, hrest⟩ := bind_eq_ok.1 hrest
    cases hinput
    obtain ⟨_, _, hoffset, hrest⟩ := bind_eq_ok.1 hrest
    cases hoffset
    obtain ⟨_, _, hend, hrest⟩ := bind_eq_ok.1 hrest
    cases hrest
    have hpaid := hsections source 0 sections stop hfront
    rw [ensure_eq_ok hend, Nat.zero_add] at hpaid
    exact hpaid

end Analyzer
end Pydump
