/-
# Finite maps that remember insertion order

A Python `dict` is a finite map whose keys are listed in the order in which they
first came in: assigning to a key that is present keeps its place.  The entries
are an association list whose keys are distinct, and the structure carries that
fact, so a dictionary with a repeated key cannot be built.  Where only lookups
matter (a Go `map`), the same structure serves and `Same` is the equality.
-/

import Mathlib.Data.List.Nodup

/-- A finite map with its keys in insertion order. -/
structure OrderedDict (K V : Type*) where
  /-- The key-value pairs, in insertion order. -/
  entries : List (K × V)
  /-- No key is listed twice. -/
  nodup : (entries.map Prod.fst).Nodup

namespace OrderedDict

variable {K V : Type*}

/-- A dictionary is its entries in their order. -/
@[ext] theorem ext {d d' : OrderedDict K V} (h : d.entries = d'.entries) : d = d' := by
  cases d
  cases d'
  cases h
  rfl

/-- The keys, in insertion order. -/
def keys (d : OrderedDict K V) : List K := d.entries.map Prod.fst

/-- The values, in the order of their keys. -/
def values (d : OrderedDict K V) : List V := d.entries.map Prod.snd

/-- The dictionary without entries. -/
def empty : OrderedDict K V := ⟨[], List.nodup_nil⟩

/-- No key stands twice. -/
theorem keys_nodup (d : OrderedDict K V) : d.keys.Nodup := d.nodup

variable [DecidableEq K]

/-- The value of the first entry with key `k`. -/
def lookupEntries (k : K) : List (K × V) → Option V
  | [] => none
  | (k', v) :: es => if k' = k then some v else lookupEntries k es

/-- `d.get(k)`. -/
def find? (d : OrderedDict K V) (k : K) : Option V := lookupEntries k d.entries

/-- Assignment in an association list: in place when the key is there, at the
end otherwise. -/
def insertEntries (k : K) (v : V) : List (K × V) → List (K × V)
  | [] => [(k, v)]
  | (k', v') :: es => if k' = k then (k', v) :: es else (k', v') :: insertEntries k v es

/-- An insertion keeps the keys, or puts a new one behind them. -/
theorem map_fst_insertEntries (k : K) (v : V) (es : List (K × V)) :
    (insertEntries k v es).map Prod.fst =
      if k ∈ es.map Prod.fst then es.map Prod.fst else es.map Prod.fst ++ [k] := by
  induction es with
  | nil => rfl
  | cons e es ih =>
    obtain ⟨k', v'⟩ := e
    rw [insertEntries]
    by_cases hk : k' = k
    · simp [hk]
    · rw [if_neg hk, List.map_cons, ih, List.map_cons]
      by_cases hm : k ∈ es.map Prod.fst
      · rw [if_pos hm, if_pos (List.mem_cons_of_mem k' hm)]
      · rw [if_neg hm, if_neg (List.not_mem_cons_of_ne_of_not_mem (Ne.symm hk) hm), List.cons_append]

/-- `d[k] = v`. -/
def insert (d : OrderedDict K V) (k : K) (v : V) : OrderedDict K V where
  entries := insertEntries k v d.entries
  nodup := by
    rw [map_fst_insertEntries]
    split_ifs with h
    · exact d.nodup
    · exact List.nodup_append.2 ⟨d.nodup, List.nodup_singleton k, fun a ha b hb hab =>
        h (List.mem_singleton.1 hb ▸ hab ▸ ha)⟩

/-- The dictionary that a sequence of assignments builds. -/
def ofPairs (ps : List (K × V)) : OrderedDict K V := ps.foldl (fun d p => d.insert p.1 p.2) empty

/-- Equality of the maps, the order of insertion left out. -/
def Same (d d' : OrderedDict K V) : Prop := ∀ k, d.find? k = d'.find? k

/-- An insertion keeps the keys, or puts a new one behind them. -/
theorem keys_insert (d : OrderedDict K V) (k : K) (v : V) :
    (d.insert k v).keys = if k ∈ d.keys then d.keys else d.keys ++ [k] :=
  map_fst_insertEntries k v d.entries

/-- After an insertion its key has the new value, and every other key its own. -/
theorem lookupEntries_insertEntries (k k' : K) (v : V) (es : List (K × V)) :
    lookupEntries k' (insertEntries k v es) = if k = k' then some v else lookupEntries k' es := by
  induction es with
  | nil => simp [insertEntries, lookupEntries]
  | cons e es ih =>
    obtain ⟨a, b⟩ := e
    rw [insertEntries]
    by_cases ha : a = k
    · subst ha
      simp only [if_true, lookupEntries]
      split_ifs <;> rfl
    · simp only [if_neg ha, lookupEntries, ih]
      split_ifs with h₁ h₂
      · exact absurd (h₁.trans h₂.symm) ha
      · rfl
      · rfl
      · rfl

/-- After an insertion its key has the new value, and every other key its own. -/
theorem find?_insert (d : OrderedDict K V) (k k' : K) (v : V) :
    (d.insert k v).find? k' = if k = k' then some v else d.find? k' :=
  lookupEntries_insertEntries k k' v d.entries

/-- Every value replaced by one that may depend on the key. -/
def mapValues {W : Type*} (f : K → V → W) (d : OrderedDict K V) : OrderedDict K W where
  entries := d.entries.map fun entry => (entry.1, f entry.1 entry.2)
  nodup := by
    rw [List.map_map]
    exact d.nodup

omit [DecidableEq K] in
/-- Mapped values stand under the same keys. -/
theorem keys_mapValues {W : Type*} (f : K → V → W) (d : OrderedDict K V) : (d.mapValues f).keys = d.keys := by
  rw [keys, mapValues, List.map_map]
  rfl

/-- A mapped value is looked up by its key. -/
theorem find?_mapValues {W : Type*} (f : K → V → W) (d : OrderedDict K V) (k : K) :
    (d.mapValues f).find? k = (d.find? k).map (f k) := by
  obtain ⟨entries, nodup⟩ := d
  simp only [find?, mapValues]
  clear nodup
  induction entries with
  | nil => rfl
  | cons entry entries ih =>
    rw [List.map_cons, lookupEntries, lookupEntries]
    split_ifs with h
    · rw [h, Option.map_some]
    · exact ih

/-- An insertion before the values are mapped is one after. -/
theorem mapValues_insert {W : Type*} (f : V → W) (d : OrderedDict K V) (k : K) (v : V) :
    (d.insert k v).mapValues (fun _ => f) = (d.mapValues fun _ => f).insert k (f v) := by
  ext1
  obtain ⟨entries, nodup⟩ := d
  simp only [insert, mapValues]
  clear nodup
  induction entries with
  | nil => rfl
  | cons entry entries ih =>
    rw [insertEntries, List.map_cons, insertEntries]
    split_ifs
    · rfl
    · rw [List.map_cons, ih]

/-- Pairs may be mapped before they are put in. -/
theorem mapValues_ofPairs {W : Type*} (f : V → W) (ps : List (K × V)) :
    (ofPairs ps).mapValues (fun _ => f) = ofPairs (ps.map fun p => (p.1, f p.2)) := by
  suffices hfrom : ∀ d : OrderedDict K V, (ps.foldl (fun d p => d.insert p.1 p.2) d).mapValues (fun _ => f) =
      (ps.map fun p => (p.1, f p.2)).foldl (fun d p => d.insert p.1 p.2) (d.mapValues fun _ => f) from hfrom empty
  induction ps with
  | nil => exact fun _ => rfl
  | cons p ps ih =>
    intro d
    rw [List.foldl_cons, ih, mapValues_insert]
    rfl

/-- `del d[k]`, where the key is there. -/
def erase (d : OrderedDict K V) (k : K) : OrderedDict K V where
  entries := d.entries.filter fun e => decide (e.1 ≠ k)
  nodup := d.nodup.sublist (List.filter_sublist.map Prod.fst)

/-- What a filter by the key leaves out is not found. -/
theorem lookupEntries_filter (k k' : K) (es : List (K × V)) :
    lookupEntries k' (es.filter fun e => decide (e.1 ≠ k)) = if k = k' then none else lookupEntries k' es := by
  induction es with
  | nil => rw [List.filter_nil, lookupEntries, ite_self]
  | cons e es ih =>
    obtain ⟨key, v⟩ := e
    rw [List.filter_cons]
    by_cases hkey : key = k
    · rw [if_neg (by simpa using hkey), ih, lookupEntries]
      by_cases hk : k = k'
      · rw [if_pos hk, if_pos hk]
      · rw [if_neg hk, if_neg hk, if_neg fun h => hk (hkey.symm.trans h)]
    · rw [if_pos (by simpa using hkey), lookupEntries, lookupEntries, ih]
      by_cases hk : k = k'
      · rw [if_pos hk, if_pos hk, if_neg fun h => hkey (h.trans hk.symm)]
      · rw [if_neg hk, if_neg hk]

/-- After `erase` its key is not found, and every other key as before. -/
theorem find?_erase (d : OrderedDict K V) (k k' : K) :
    (d.erase k).find? k' = if k = k' then none else d.find? k' := lookupEntries_filter k k' d.entries

/-- The empty dictionary holds no key. -/
@[simp] theorem find?_empty (k : K) : (empty : OrderedDict K V).find? k = none := rfl

/-- A key is found if and only if it is there. -/
theorem lookupEntries_isSome {k : K} {es : List (K × V)} :
    (lookupEntries k es).isSome ↔ k ∈ es.map Prod.fst := by
  induction es with
  | nil => simp [lookupEntries]
  | cons e es ih =>
    obtain ⟨a, b⟩ := e
    rw [lookupEntries, List.map_cons, List.mem_cons, ← ih]
    by_cases h : a = k
    · simp [h]
    · simp [h, Ne.symm h]

/-- A key is found if and only if it is there. -/
theorem find?_isSome {d : OrderedDict K V} {k : K} : (d.find? k).isSome ↔ k ∈ d.keys :=
  lookupEntries_isSome

/-- A key is not found if and only if it is not there. -/
theorem find?_eq_none {d : OrderedDict K V} {k : K} : d.find? k = none ↔ k ∉ d.keys := by
  rw [← find?_isSome, Option.not_isSome_iff_eq_none]

/-- Among distinct keys an entry is found if and only if it is there. -/
theorem lookupEntries_eq_some {k : K} {v : V} {es : List (K × V)} (hnd : (es.map Prod.fst).Nodup) :
    lookupEntries k es = some v ↔ (k, v) ∈ es := by
  induction es with
  | nil => simp [lookupEntries]
  | cons e es ih =>
    obtain ⟨a, b⟩ := e
    rw [List.map_cons, List.nodup_cons] at hnd
    rw [lookupEntries, List.mem_cons, Prod.mk.injEq]
    by_cases h : a = k
    · subst h
      have hout : (a, v) ∉ es := fun hm => hnd.1 (List.mem_map.2 ⟨(a, v), hm, rfl⟩)
      simp [hout, eq_comm]
    · simp [h, Ne.symm h, ih hnd.2]

/-- A value is found if and only if its entry is there. -/
theorem find?_eq_some {d : OrderedDict K V} {k : K} {v : V} : d.find? k = some v ↔ (k, v) ∈ d.entries :=
  lookupEntries_eq_some d.nodup

/-- A key that is found is there. -/
theorem mem_keys_of_find? {d : OrderedDict K V} {k : K} {v : V} (h : d.find? k = some v) : k ∈ d.keys :=
  find?_isSome.1 (by rw [h]; rfl)

/-- A key that is there is found. -/
theorem exists_find?_of_mem_keys {d : OrderedDict K V} {k : K} (h : k ∈ d.keys) :
    ∃ v, d.find? k = some v :=
  Option.isSome_iff_exists.1 (find?_isSome.2 h)

/-- A dictionary is its keys with the values that are found for them. -/
theorem entries_eq_map {d : OrderedDict K V} {f : K → V} (h : ∀ k ∈ d.keys, d.find? k = some (f k)) :
    d.entries = d.keys.map fun k => (k, f k) := by
  have hentry : ∀ entry ∈ d.entries, entry = (entry.1, f entry.1) := by
    intro entry hentry
    have hfind := h entry.1 (List.mem_map_of_mem hentry)
    have hvalue := Option.some.inj ((find?_eq_some.2 hentry).symm.trans hfind)
    exact Prod.ext rfl hvalue
  rw [keys, List.map_map]
  conv_lhs => rw [← List.map_id d.entries]
  exact List.map_congr_left hentry

/-- The values in the order of the keys. -/
theorem values_eq_map {d : OrderedDict K V} {f : K → V} (h : ∀ k ∈ d.keys, d.find? k = some (f k)) :
    d.values = d.keys.map f := by
  rw [values, entries_eq_map h, List.map_map]
  rfl

/-- After many insertions the last one of a key counts. -/
theorem find?_foldl_insert (ps : List (K × V)) (d : OrderedDict K V) (k : K) :
    (ps.foldl (fun d p => d.insert p.1 p.2) d).find? k =
      (lookupEntries k ps.reverse).or (d.find? k) := by
  induction ps generalizing d with
  | nil => simp [lookupEntries]
  | cons p ps ih =>
    have happ : ∀ es : List (K × V), lookupEntries k (es ++ [p]) =
        (lookupEntries k es).or (if p.1 = k then some p.2 else none) := by
      intro es
      induction es with
      | nil => simp [lookupEntries]
      | cons e es ihe =>
        rw [List.cons_append, lookupEntries, lookupEntries, ihe]
        split_ifs <;> rfl
    rw [List.foldl_cons, ih, find?_insert, List.reverse_cons, happ, Option.or_assoc]
    congr 1
    split_ifs <;> rfl

/-- **A key holds the last value assigned to it.** -/
theorem find?_ofPairs (ps : List (K × V)) (k : K) :
    (ofPairs ps).find? k = lookupEntries k ps.reverse := by
  rw [ofPairs, find?_foldl_insert, find?_empty, Option.or_none]

/-- A key holds the value of the last element it belongs to. -/
theorem find?_ofPairs_map {α : Type*} (xs : List α) (key : α → K) (f : α → V) (k : K) :
    (ofPairs (xs.map fun x => (key x, f x))).find? k = (xs.reverse.find? fun x => key x = k).map f := by
  rw [find?_ofPairs, ← List.map_reverse]
  induction xs.reverse with
  | nil => rfl
  | cons x xs ih =>
    rw [List.map_cons, lookupEntries, ih, List.find?_cons]
    by_cases h : key x = k
    · rw [if_pos h, decide_eq_true h]
      rfl
    · rw [if_neg h, decide_eq_false h]

/-- An entry that is found is there. -/
theorem mem_of_lookupEntries {k : K} {v : V} {es : List (K × V)} (h : lookupEntries k es = some v) : (k, v) ∈ es := by
  induction es with
  | nil => cases h
  | cons e es ih =>
    obtain ⟨a, b⟩ := e
    rw [lookupEntries] at h
    split_ifs at h with hk
    · rw [← hk, ← Option.some.inj h]
      exact List.mem_cons_self
    · exact List.mem_cons_of_mem _ (ih h)

/-- What a dictionary of pairs holds is one of the pairs. -/
theorem mem_of_mem_ofPairs {ps : List (K × V)} {entry : K × V} (h : entry ∈ (ofPairs ps).entries) : entry ∈ ps := by
  have hfind : (ofPairs ps).find? entry.1 = some entry.2 := find?_eq_some.2 h
  rw [find?_ofPairs] at hfind
  exact List.mem_reverse.1 (mem_of_lookupEntries hfind)

/-- **Every pair is found** if and only if no key has two values. -/
theorem find?_ofPairs_iff {ps : List (K × V)} :
    (∀ p ∈ ps, (ofPairs ps).find? p.1 = some p.2) ↔ ∀ p ∈ ps, ∀ q ∈ ps, p.1 = q.1 → p.2 = q.2 := by
  constructor
  · intro h p hp q hq hkey
    have hfind := h p hp
    rw [hkey, h q hq] at hfind
    exact (Option.some.inj hfind).symm
  · intro h p hp
    have hsome : (lookupEntries p.1 ps.reverse).isSome := by
      rw [lookupEntries_isSome, List.map_reverse, List.mem_reverse]
      exact List.mem_map_of_mem hp
    obtain ⟨v, hv⟩ := Option.isSome_iff_exists.1 hsome
    have hmem := List.mem_reverse.1 (mem_of_lookupEntries hv)
    rw [find?_ofPairs, hv, h p hp (p.1, v) hmem rfl]

/-- The keys of the pairs are the keys of the dictionary. -/
theorem mem_keys_ofPairs {ps : List (K × V)} {k : K} : k ∈ (ofPairs ps).keys ↔ k ∈ ps.map Prod.fst := by
  rw [← find?_isSome, find?_ofPairs, lookupEntries_isSome, List.map_reverse, List.mem_reverse]

/-- A new key goes behind the others. -/
theorem insertEntries_of_not_mem {k : K} {v : V} {es : List (K × V)} (h : k ∉ es.map Prod.fst) :
    insertEntries k v es = es ++ [(k, v)] := by
  induction es with
  | nil => rfl
  | cons e es ih =>
    rw [List.map_cons, List.mem_cons, not_or] at h
    rw [insertEntries, if_neg (Ne.symm h.1), ih h.2, List.cons_append]

/-- A new key goes behind the others. -/
theorem entries_insert_of_not_mem {d : OrderedDict K V} {k : K} {v : V} (h : k ∉ d.keys) :
    (d.insert k v).entries = d.entries ++ [(k, v)] :=
  insertEntries_of_not_mem h

/-- The second insertion of a key replaces the first. -/
theorem insert_insert (d : OrderedDict K V) (k : K) (v v' : V) : (d.insert k v).insert k v' = d.insert k v' := by
  refine ext ?_
  show insertEntries k v' (insertEntries k v d.entries) = insertEntries k v' d.entries
  induction d.entries with
  | nil => exact if_pos rfl
  | cons e es ih =>
    obtain ⟨key, value⟩ := e
    by_cases hkey : key = k
    · simp only [insertEntries, if_pos hkey]
    · simp only [insertEntries, if_neg hkey, ih]

/-- A new key that is erased again leaves no trace. -/
theorem erase_insert_of_not_mem {d : OrderedDict K V} {k : K} (h : k ∉ d.keys) (v : V) :
    (d.insert k v).erase k = d := by
  have hkept : ∀ e ∈ d.entries, decide (e.1 ≠ k) = true := fun e he => decide_eq_true fun hk =>
    h (hk ▸ List.mem_map_of_mem he)
  refine ext ?_
  show (d.insert k v).entries.filter (fun e => decide (e.1 ≠ k)) = d.entries
  rw [entries_insert_of_not_mem h, List.filter_append, List.filter_eq_self.2 hkept]
  simp

/-- Insertion and `erase` of different keys commute. -/
theorem erase_insert_of_ne (d : OrderedDict K V) {k k' : K} (h : k ≠ k') (v : V) :
    (d.insert k' v).erase k = (d.erase k).insert k' v := by
  refine ext ?_
  show (insertEntries k' v d.entries).filter (fun e => decide (e.1 ≠ k)) =
    insertEntries k' v (d.entries.filter fun e => decide (e.1 ≠ k))
  induction d.entries with
  | nil => simp [insertEntries, h.symm]
  | cons e es ih =>
    obtain ⟨key, value⟩ := e
    rw [insertEntries, List.filter_cons]
    by_cases hkey : key = k'
    · subst hkey
      rw [if_pos rfl, List.filter_cons, if_pos (by simpa using h.symm), if_pos (by simpa using h.symm), insertEntries,
        if_pos rfl]
    · rw [if_neg hkey, List.filter_cons, ih]
      by_cases hold : key = k
      · rw [if_neg (by simpa using hold), if_neg (by simpa using hold)]
      · rw [if_pos (by simpa using hold), if_pos (by simpa using hold), insertEntries, if_neg hkey]

/-- Insertions of new keys put the pairs behind the entries. -/
theorem entries_foldl_insert (ps : List (K × V)) (d : OrderedDict K V)
    (h : (d.keys ++ ps.map Prod.fst).Nodup) :
    (ps.foldl (fun d p => d.insert p.1 p.2) d).entries = d.entries ++ ps := by
  induction ps generalizing d with
  | nil => simp
  | cons p ps ih =>
    have hp : p.1 ∉ d.keys := fun hm =>
      (List.nodup_append.1 h).2.2 _ hm _ (by rw [List.map_cons]; exact List.mem_cons_self ..) rfl
    rw [List.foldl_cons, ih, entries_insert_of_not_mem hp, List.append_assoc, List.singleton_append]
    rw [keys_insert, if_neg hp, List.append_assoc]
    exact h

/-- **Distinct keys are listed as they came.** -/
theorem entries_ofPairs {ps : List (K × V)} (h : (ps.map Prod.fst).Nodup) : (ofPairs ps).entries = ps := by
  rw [ofPairs, entries_foldl_insert ps empty (by simpa [keys, empty] using h)]
  rfl

/-- Keys may be renamed by an injection before the look-up. -/
theorem lookupEntries_map {A W : Type*} [DecidableEq A] {f : A → K} (hf : f.Injective) (g : V → W) (es : List (A × V))
    (a : A) : lookupEntries (f a) (es.map fun entry => (f entry.1, g entry.2)) = (lookupEntries a es).map g := by
  induction es with
  | nil => rfl
  | cons entry es ih =>
    rw [List.map_cons, lookupEntries, lookupEntries]
    split_ifs with h h' h'
    · rfl
    · exact absurd (hf h) h'
    · exact absurd (congrArg f h') h
    · exact ih

omit [DecidableEq K] in
/-- Keys renamed by an injection stay distinct. -/
theorem nodup_map_key {A W : Type*} {f : A → K} (hf : f.Injective) (g : V → W) {es : List (A × V)}
    (hnd : (es.map Prod.fst).Nodup) : ((es.map fun entry => (f entry.1, g entry.2)).map Prod.fst).Nodup := by
  rw [List.map_map]
  show (es.map (f ∘ Prod.fst)).Nodup
  rw [← List.map_map]
  exact hnd.map hf

/-- **Other names for the keys**, different ones for different keys. -/
theorem find?_ofPairs_rename {A W : Type*} [DecidableEq A] {f : A → K} (hf : f.Injective) (g : V → W)
    {es : List (A × V)} (hnd : (es.map Prod.fst).Nodup) (a : A) :
    (ofPairs (es.map fun entry => (f entry.1, g entry.2))).find? (f a) = (lookupEntries a es).map g := by
  rw [find?, entries_ofPairs (nodup_map_key hf g hnd), lookupEntries_map hf]

/-- The order of distinct keys does not matter to a look-up. -/
theorem lookupEntries_perm {es es' : List (K × V)} (h : es.Perm es') (hnd : (es.map Prod.fst).Nodup)
    (k : K) : lookupEntries k es = lookupEntries k es' := by
  have hnd' : (es'.map Prod.fst).Nodup := (h.map Prod.fst).nodup_iff.1 hnd
  refine Option.ext fun v => ?_
  rw [lookupEntries_eq_some hnd, lookupEntries_eq_some hnd']
  exact h.mem_iff

/-- Assigning the entries of `d` in another order gives the same map. -/
theorem same_ofPairs_of_perm {d : OrderedDict K V} {ps : List (K × V)} (h : ps.Perm d.entries) :
    (ofPairs ps).Same d := by
  intro k
  have hnd : (ps.map Prod.fst).Nodup := (h.map Prod.fst).nodup_iff.2 d.nodup
  rw [find?_ofPairs]
  exact lookupEntries_perm ((List.reverse_perm ps).trans h)
    (by rw [List.map_reverse]; exact List.nodup_reverse.2 hnd) k

example : (ofPairs [(1, 10), (2, 20), (1, 30)]).entries = [(1, 30), (2, 20)] := by decide

end OrderedDict
