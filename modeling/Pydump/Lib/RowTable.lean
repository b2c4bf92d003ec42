/-
# Rows laid out one behind another

A table of rows kept in one array, with the positions at which the rows start
(the compressed sparse row format).  `getElem?_prefixSums` gives the starts from
the lengths, `slice_flatten` cuts a row out and `flatten_set` writes into one.

`Scattered` is about filling such a table out of order: entries with the number
of their row come in one after another, and each goes to the first free place of
its row, for which a cursor is kept (`Scattered.place`).  In the end every row
holds its entries in the order in which they came.  With the entries `edgesOf` of
a table whose rows hold row numbers this transposes the table.
-/

import Mathlib.Data.List.Basic
import Mathlib.Algebra.Ring.Nat
import Mathlib.Algebra.BigOperators.Group.List.Basic

namespace RowTable

variable {α : Type}

/-! ### Starts and rows -/

/-- Where row `i` starts. -/
def start (rows : List (List α)) (i : ℕ) : ℕ := (rows.take i).flatten.length

/-- The entries from `a` up to `b`. -/
def slice (xs : List α) (a b : ℕ) : List α := (xs.drop a).take (b - a)

/-- A row stands between the rows before and those behind it. -/
theorem flatten_split {rows : List (List α)} {i : ℕ} {row : List α} (h : rows[i]? = some row) :
    rows.flatten = (rows.take i).flatten ++ (row ++ (rows.drop (i + 1)).flatten) := by
  obtain ⟨hi, rfl⟩ := List.getElem?_eq_some_iff.1 h
  conv_lhs => rw [← List.take_append_drop i rows, List.drop_eq_getElem_cons hi]
  rw [List.flatten_append, List.flatten_cons]

/-- The next row starts where the row ends. -/
theorem start_succ {rows : List (List α)} {i : ℕ} {row : List α} (h : rows[i]? = some row) :
    start rows (i + 1) = start rows i + row.length := by
  obtain ⟨hi, rfl⟩ := List.getElem?_eq_some_iff.1 h
  rw [start, start, List.take_succ_eq_append_getElem hi, List.flatten_append, List.length_append]
  simp

/-- An entry of a row stands within the table. -/
theorem start_add_lt {rows : List (List α)} {i j : ℕ} {row : List α} (h : rows[i]? = some row)
    (hj : j < row.length) : start rows i + j < rows.flatten.length := by
  rw [flatten_split h, List.length_append, List.length_append, start]
  omega

/-- **Between its start and the next one** stands the row. -/
theorem slice_flatten {rows : List (List α)} {i : ℕ} {row : List α} (h : rows[i]? = some row) :
    slice rows.flatten (start rows i) (start rows (i + 1)) = row := by
  rw [slice, start_succ h, Nat.add_sub_cancel_left, flatten_split h, start, List.drop_left, List.take_left]

/-- **Writing into the array** is writing into a row. -/
theorem flatten_set {rows : List (List α)} {i j : ℕ} {row : List α} (h : rows[i]? = some row)
    (hj : j < row.length) (x : α) :
    rows.flatten.set (start rows i + j) x = (rows.set i (row.set j x)).flatten := by
  obtain ⟨hi, -⟩ := List.getElem?_eq_some_iff.1 h
  have hset : (rows.set i (row.set j x))[i]? = some (row.set j x) := by
    rw [List.getElem?_set_self hi]
  rw [flatten_split h, flatten_split hset, List.take_set_of_le (Nat.le_refl i),
    List.drop_set_of_lt (Nat.lt_succ_self i),
    start, List.set_append_right _ _ (Nat.le_add_right _ _), Nat.add_sub_cancel_left, List.set_append_left _ _ hj]

/-- Rows of bounded length. -/
theorem length_flatten_le {rows : List (List α)} {n : ℕ} (h : ∀ row ∈ rows, row.length ≤ n) :
    rows.flatten.length ≤ rows.length * n := by
  induction rows with
  | nil => simp
  | cons row rows ih =>
    have hrow := h row List.mem_cons_self
    have hrows := ih fun r hr => h r (List.mem_cons_of_mem row hr)
    rw [List.flatten_cons, List.length_append, List.length_cons, Nat.succ_mul]
    omega

/-- The sums that a loop keeps in numbers below `M`. -/
def prefixSums (M : ℕ) (counts : List ℕ) : List ℕ := counts.scanl (fun total count => (total + count) % M) 0

/-- There is one sum more than there are counts. -/
theorem length_prefixSums (M : ℕ) (counts : List ℕ) : (prefixSums M counts).length = counts.length + 1 :=
  List.length_scanl ..

/-- Below the limit the sums do not wrap around. -/
theorem getElem?_scanl_mod (M : ℕ) (counts : List ℕ) (total : ℕ) (h : total + counts.sum < M) {i : ℕ}
    (hi : i ≤ counts.length) :
    (counts.scanl (fun total count => (total + count) % M) total)[i]? = some (total + (counts.take i).sum) := by
  induction counts generalizing total i with
  | nil =>
    obtain rfl : i = 0 := Nat.le_zero.1 hi
    rfl
  | cons count counts ih =>
    rw [List.sum_cons] at h
    cases i with
    | zero => rw [List.take_zero, List.sum_nil, Nat.add_zero, List.getElem?_scanl_zero]
    | succ i =>
      have hmod : (total + count) % M = total + count := Nat.mod_eq_of_lt (by omega)
      rw [List.scanl_cons, List.getElem?_cons_succ, hmod, ih (total + count) (by omega) (Nat.le_of_succ_le_succ hi),
        List.take_succ_cons, List.sum_cons, Nat.add_assoc]

/-- **The sums of the lengths are the starts**, as long as they fit. -/
theorem getElem?_prefixSums {M : ℕ} {rows : List (List α)} (h : rows.flatten.length < M) {i : ℕ}
    (hi : i ≤ rows.length) : (prefixSums M (rows.map List.length))[i]? = some (start rows i) := by
  rw [prefixSums, getElem?_scanl_mod M _ 0 (by rw [Nat.zero_add, ← List.length_flatten]; exact h)
    (by rw [List.length_map]; exact hi), Nat.zero_add, ← List.map_take, ← List.length_flatten, start]

variable [Inhabited α]

/-! ### Filling an array from its beginning -/

/-- What holds of an array of `total` places once `entries` are in. -/
def Filled (total : ℕ) (entries data : List α) : Prop :=
  data = entries ++ List.replicate (total - entries.length) default

/-- An array begins without entries. -/
theorem Filled.init (total : ℕ) : Filled total [] (List.replicate total (default : α)) := rfl

/-- An array keeps its length. -/
theorem Filled.length {total : ℕ} {entries data : List α} (h : Filled total entries data)
    (hle : entries.length ≤ total) : data.length = total := by
  rw [h, List.length_append, List.length_replicate]
  omega

/-- The next entry goes to the first free place. -/
theorem Filled.write {total : ℕ} {entries data : List α} (h : Filled total entries data)
    (hlt : entries.length < total) (x : α) : Filled total (entries ++ [x]) (data.set entries.length x) := by
  obtain ⟨k, hk⟩ := Nat.exists_eq_add_of_lt hlt
  have hfree : total - entries.length = k + 1 := by omega
  rw [Filled, h, hfree, List.replicate_succ, List.set_append_right _ _ (Nat.le_refl _), Nat.sub_self,
    List.set_cons_zero, List.length_append, List.length_singleton, Nat.sub_add_eq, hfree, Nat.add_sub_cancel,
    List.append_assoc, List.singleton_append]

/-- A full array holds the entries. -/
theorem Filled.full {total : ℕ} {entries data : List α} (h : Filled total entries data)
    (hlen : entries.length = total) : data = entries := by
  rw [h, hlen, Nat.sub_self, List.replicate_zero, List.append_nil]

/-! ### Filling the rows out of order -/

/-- The entries for row `v`. -/
def entriesOf (entries : List (α × ℕ)) (v : ℕ) : List α :=
  (entries.filter fun entry => entry.2 = v).map Prod.fst

/-- Row `v` once `seen` of the entries `all` are in. -/
def paddedRow (all seen : List (α × ℕ)) (v : ℕ) : List α :=
  entriesOf seen v ++ List.replicate ((entriesOf all v).length - (entriesOf seen v).length) default

/-- The `n` rows once `seen` of the entries `all` are in. -/
def table (all : List (α × ℕ)) (n : ℕ) (seen : List (α × ℕ)) : List (List α) :=
  (List.range n).map (paddedRow all seen)

omit [Inhabited α] in
/-- The entries for a row, part by part. -/
theorem entriesOf_append (xs ys : List (α × ℕ)) (v : ℕ) :
    entriesOf (xs ++ ys) v = entriesOf xs v ++ entriesOf ys v := by
  rw [entriesOf, List.filter_append, List.map_append]
  rfl

omit [Inhabited α] in
/-- A single entry belongs to one row. -/
theorem entriesOf_singleton (x : α) (t v : ℕ) : entriesOf [(x, t)] v = if t = v then [x] else [] := by
  by_cases h : t = v <;> simp [entriesOf, h]

omit [Inhabited α] in
/-- What is in so far is no more than all. -/
theorem entriesOf_le {all seen rest : List (α × ℕ)} (h : seen ++ rest = all) (v : ℕ) :
    (entriesOf seen v).length ≤ (entriesOf all v).length := by
  rw [← h, entriesOf_append, List.length_append]
  exact Nat.le_add_right _ _

/-- What holds of the `n` counters, which started with `base`, once `seen` are counted. -/
def Counted (n : ℕ) (base : ℕ → ℕ) (seen : List (α × ℕ)) (counts : List ℕ) : Prop :=
  counts = (List.range n).map fun v => base v + (entriesOf seen v).length

omit [Inhabited α] in
/-- **One more entry is counted.** -/
theorem Counted.count {n : ℕ} {base : ℕ → ℕ} {seen : List (α × ℕ)} {counts : List ℕ}
    (h : Counted n base seen counts) {t : ℕ} (ht : t < n) (x : α) :
    counts[t]? = some (base t + (entriesOf seen t).length) ∧
      Counted n base (seen ++ [(x, t)]) (counts.set t (base t + (entriesOf seen t).length + 1)) := by
  rw [Counted] at h ⊢
  subst h
  refine ⟨by rw [List.getElem?_map, List.getElem?_range ht, Option.map_some], ?_⟩
  refine List.ext_getElem? fun v => ?_
  rw [List.getElem?_set, List.getElem?_map, List.getElem?_map]
  by_cases htv : t = v
  · subst htv
    simp [ht, entriesOf_append, entriesOf_singleton, Nat.add_assoc]
  · rw [if_neg htv]
    rcases Nat.lt_or_ge v n with hv | hv
    · simp [hv, htv, entriesOf_append, entriesOf_singleton]
    · simp [Nat.not_lt.2 hv]

/-- A row has its full length from the beginning. -/
theorem length_paddedRow {all seen rest : List (α × ℕ)} (h : seen ++ rest = all) (v : ℕ) :
    (paddedRow all seen v).length = (entriesOf all v).length := by
  have hfilled : Filled (entriesOf all v).length (entriesOf seen v) (paddedRow all seen v) := rfl
  exact hfilled.length (entriesOf_le h v)

/-- A row with all its entries has no padding. -/
theorem paddedRow_all (all : List (α × ℕ)) (v : ℕ) : paddedRow all all v = entriesOf all v := by
  rw [paddedRow, Nat.sub_self, List.replicate_zero, List.append_nil]

/-- The table holds row `v`. -/
theorem getElem?_table {all seen : List (α × ℕ)} {n v : ℕ} (hv : v < n) :
    (table all n seen)[v]? = some (paddedRow all seen v) := by
  rw [table, List.getElem?_map, List.getElem?_range hv, Option.map_some]

/-- The lengths of the rows do not depend on what is in. -/
theorem lengths_table {all seen rest : List (α × ℕ)} (h : seen ++ rest = all) (n : ℕ) :
    (table all n seen).map List.length = (List.range n).map fun v => (entriesOf all v).length := by
  rw [table, List.map_map]
  exact List.map_congr_left fun v _ => length_paddedRow h v

/-- The starts of the rows do not move while they are filled. -/
theorem start_table {all seen rest : List (α × ℕ)} (h : seen ++ rest = all) (n i : ℕ) :
    start (table all n seen) i = start (table all n all) i := by
  rw [start, start, List.length_flatten, List.length_flatten, List.map_take, List.map_take, lengths_table h,
    lengths_table (List.append_nil all)]

omit [Inhabited α] in
/-- There is a free place for the next entry of a row. -/
theorem entriesOf_lt {all seen rest : List (α × ℕ)} {x : α} {t : ℕ} (h : seen ++ (x, t) :: rest = all) :
    (entriesOf seen t).length < (entriesOf all t).length := by
  have hle := @entriesOf_le _ all (seen ++ [(x, t)]) rest (by rw [List.append_assoc]; exact h) t
  rwa [entriesOf_append, entriesOf_singleton, if_pos rfl, List.length_append, List.length_singleton] at hle

/-- **The next entry of a row** goes to the first free place. -/
theorem paddedRow_snoc {all seen rest : List (α × ℕ)} {x : α} {t : ℕ} (h : seen ++ (x, t) :: rest = all) (v : ℕ) :
    paddedRow all (seen ++ [(x, t)]) v =
      if t = v then (paddedRow all seen v).set (entriesOf seen v).length x else paddedRow all seen v := by
  have hfilled : Filled (entriesOf all v).length (entriesOf seen v) (paddedRow all seen v) := rfl
  rw [paddedRow, entriesOf_append, entriesOf_singleton]
  split_ifs with htv
  · subst htv
    exact (hfilled.write (entriesOf_lt h) x).symm
  · rw [List.append_nil]
    rfl

/-- The next entry goes to the first free place of its row. -/
theorem table_snoc {all seen rest : List (α × ℕ)} {x : α} {t : ℕ} (h : seen ++ (x, t) :: rest = all) (n : ℕ) :
    table all n (seen ++ [(x, t)]) =
      (table all n seen).set t ((paddedRow all seen t).set (entriesOf seen t).length x) := by
  refine List.ext_getElem? fun v => ?_
  rw [table, List.getElem?_map, List.getElem?_set]
  rcases Nat.lt_or_ge v n with hv | hv
  · rw [List.getElem?_range hv, Option.map_some, paddedRow_snoc h]
    by_cases htv : t = v
    · subst htv
      rw [if_pos rfl, if_pos rfl, if_pos (by rw [table, List.length_map, List.length_range]; exact hv)]
    · rw [if_neg htv, if_neg htv, getElem?_table hv]
  · rw [List.getElem?_eq_none (by rw [List.length_range]; exact hv)]
    split_ifs with htv hlt
    · rw [table, List.length_map, List.length_range] at hlt
      omega
    · rfl
    · rw [table, List.getElem?_map, List.getElem?_eq_none (by rw [List.length_range]; exact hv)]
      rfl

/-- What holds of the array and the cursors once `seen` of the entries `all` are in. -/
structure Scattered (all : List (α × ℕ)) (n : ℕ) (seen : List (α × ℕ)) (data : List α) (cursor : List ℕ) : Prop where
  data : data = (table all n seen).flatten
  cursor : Counted n (start (table all n all)) seen cursor

/-- At first every place is free. -/
theorem Scattered.init (all : List (α × ℕ)) (n : ℕ) :
    Scattered all n [] (List.replicate (table all n all).flatten.length default)
      ((List.range n).map (start (table all n all))) where
  data := by
    have hrow : ∀ v, paddedRow all [] v = List.replicate (paddedRow all all v).length default := fun v => by
      rw [length_paddedRow (List.append_nil all)]
      rfl
    rw [table, table]
    induction List.range n with
    | nil => rfl
    | cons v vs ih =>
      rw [List.map_cons, List.flatten_cons, List.map_cons, List.flatten_cons, ← ih, hrow, List.length_append,
        List.replicate_add]
  cursor := rfl

/-- **One more entry.** -/
theorem Scattered.place {all seen rest : List (α × ℕ)} {n : ℕ} {data : List α} {cursor : List ℕ} {x : α} {t : ℕ}
    (h : Scattered all n seen data cursor) (hall : seen ++ (x, t) :: rest = all) (ht : t < n) :
    ∃ position, cursor[t]? = some position ∧ position < data.length ∧
      Scattered all n (seen ++ [(x, t)]) (data.set position x) (cursor.set t (position + 1)) := by
  have hrow := @getElem?_table _ _ all seen n t ht
  have hfree : (entriesOf seen t).length < (paddedRow all seen t).length := by
    rw [length_paddedRow hall]
    exact entriesOf_lt hall
  have hstart := @start_table _ _ all seen _ hall n t
  obtain ⟨hcursor, hcounted⟩ := h.cursor.count ht x
  refine ⟨_, hcursor, ?_, ?_, hcounted⟩
  · rw [h.data, ← hstart]
    exact start_add_lt hrow hfree
  · rw [h.data, ← hstart, flatten_set hrow hfree, table_snoc hall]

/-! ### The transposed table -/

/-- The entries of a table with the number of the row they stand in; an entry is
itself the number of a row. -/
def edgesOf (rows : List (List ℕ)) : List (ℕ × ℕ) :=
  rows.zipIdx.flatMap fun row => row.1.map fun target => (row.2, target)

/-- A row without repetition has at most one entry for `v`. -/
theorem entriesOf_row {row : List ℕ} (h : row.Nodup) (i v : ℕ) :
    entriesOf (row.map fun target => (i, target)) v = if v ∈ row then [i] else [] := by
  induction row with
  | nil => rfl
  | cons t row ih =>
    obtain ⟨ht, hrow⟩ := List.nodup_cons.1 h
    have hcons : entriesOf ((i, t) :: row.map fun target => (i, target)) v =
        entriesOf [(i, t)] v ++ entriesOf (row.map fun target => (i, target)) v :=
      entriesOf_append [(i, t)] _ v
    rw [List.map_cons, hcons, ih hrow, entriesOf_singleton]
    by_cases htv : t = v
    · subst htv
      rw [if_pos rfl, if_neg ht, if_pos List.mem_cons_self, List.append_nil]
    · simp [htv, Ne.symm htv]

/-- **The transposed row** of `v` lists the rows that hold `v`. -/
theorem entriesOf_edgesOf {rows : List (List ℕ)} (h : ∀ row ∈ rows, row.Nodup) (v : ℕ) :
    entriesOf (edgesOf rows) v = (rows.zipIdx.filter fun row => v ∈ row.1).map Prod.snd := by
  have hrows : ∀ row ∈ rows.zipIdx, row.1.Nodup := fun row hr => h row.1 (List.fst_mem_of_mem_zipIdx hr)
  rw [edgesOf]
  generalize rows.zipIdx = numbered at hrows
  induction numbered with
  | nil => rfl
  | cons row numbered ih =>
    rw [List.flatMap_cons, entriesOf_append, ih fun r hr => hrows r (List.mem_cons_of_mem _ hr),
      entriesOf_row (hrows row List.mem_cons_self), List.filter_cons]
    by_cases hv : v ∈ row.1 <;> simp [hv]

/-- The entries for `v` are the numbers of the rows that hold `v`. -/
theorem mem_entriesOf_edgesOf {rows : List (List ℕ)} (h : ∀ row ∈ rows, row.Nodup) {i v : ℕ} :
    i ∈ entriesOf (edgesOf rows) v ↔ ∃ row, rows[i]? = some row ∧ v ∈ row := by
  rw [entriesOf_edgesOf h, List.mem_map]
  constructor
  · rintro ⟨⟨row, i⟩, hm, rfl⟩
    obtain ⟨hm, hv⟩ := List.mem_filter.1 hm
    exact ⟨row, List.mk_mem_zipIdx_iff_getElem?.1 hm, of_decide_eq_true hv⟩
  · rintro ⟨row, hi, hv⟩
    exact ⟨(row, i), List.mem_filter.2 ⟨List.mk_mem_zipIdx_iff_getElem?.2 hi, decide_eq_true hv⟩, rfl⟩

/-- **The transposed rows ascend.** -/
theorem pairwise_entriesOf_edgesOf {rows : List (List ℕ)} (h : ∀ row ∈ rows, row.Nodup) (v : ℕ) :
    (entriesOf (edgesOf rows) v).Pairwise (· < ·) := by
  rw [entriesOf_edgesOf h]
  refine List.Pairwise.sublist (List.filter_sublist.map _) ?_
  rw [List.zipIdx_map_snd]
  exact List.pairwise_lt_range'

/-- No row number stands twice. -/
theorem nodup_entriesOf_edgesOf {rows : List (List ℕ)} (h : ∀ row ∈ rows, row.Nodup) (v : ℕ) :
    (entriesOf (edgesOf rows) v).Nodup :=
  (pairwise_entriesOf_edgesOf h v).imp Nat.ne_of_lt

/-- There are at most as many entries as rows. -/
theorem length_entriesOf_edgesOf_le {rows : List (List ℕ)} (h : ∀ row ∈ rows, row.Nodup) (v : ℕ) :
    (entriesOf (edgesOf rows) v).length ≤ rows.length := by
  rw [entriesOf_edgesOf h, List.length_map, ← @List.length_zipIdx _ rows 0]
  exact List.length_filter_le ..

/-- A further row adds its entries behind the others. -/
theorem edgesOf_append_row (rows : List (List ℕ)) (row : List ℕ) :
    edgesOf (rows ++ [row]) = edgesOf rows ++ row.map fun target => (rows.length, target) := by
  rw [edgesOf, List.zipIdx_append, List.flatMap_append, edgesOf, List.zipIdx_singleton, List.flatMap_singleton,
    Nat.zero_add]

/-- The edges of a row stand behind those of the rows before it. -/
theorem edgesOf_split {rows : List (List ℕ)} {i : ℕ} {row : List ℕ} (h : rows[i]? = some row) :
    ∃ rest, edgesOf (rows.take i) ++ ((row.map fun target => (i, target)) ++ rest) = edgesOf rows := by
  obtain ⟨hi, rfl⟩ := List.getElem?_eq_some_iff.1 h
  refine ⟨((rows.drop (i + 1)).zipIdx (i + 1)).flatMap fun row => row.1.map fun target => (row.2, target), ?_⟩
  have hrows : rows = rows.take i ++ (rows[i] :: rows.drop (i + 1)) := by
    rw [← List.drop_eq_getElem_cons hi, List.take_append_drop]
  have hlen : (rows.take i).length = i := List.length_take_of_le (Nat.le_of_lt hi)
  conv_rhs => rw [hrows, edgesOf, List.zipIdx_append, List.flatMap_append, List.zipIdx_cons, List.flatMap_cons,
    Nat.zero_add, hlen]
  rfl

/-- The next row adds its entries behind the others. -/
theorem edgesOf_take_succ {rows : List (List ℕ)} {i : ℕ} {row : List ℕ} (h : rows[i]? = some row) :
    edgesOf (rows.take (i + 1)) = edgesOf (rows.take i) ++ row.map fun target => (i, target) := by
  obtain ⟨hi, rfl⟩ := List.getElem?_eq_some_iff.1 h
  rw [List.take_succ_eq_append_getElem hi, edgesOf_append_row, List.length_take_of_le (Nat.le_of_lt hi)]

end RowTable
