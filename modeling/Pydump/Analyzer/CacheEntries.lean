/-
# A cache entry read back by the Python analyzer

What `RetainedHeap.dump` writes of sizes, and whatever else names every address once
by its decimal digits, `RetainedHeap.load` reads as the same sizes: `int` undoes the
digits, and no two addresses or thread names are written alike.
-/

import Pydump.Analyzer.CacheSpec

namespace Pydump
namespace Analyzer

open ExceptLoop

/-- Sizes for object addresses and thread names. -/
structure Sizes where
  objects : ℕ → Option ℕ
  threads : String → Option ℕ

/-- The document that has these sizes: every address by its decimal digits, in some
order. -/
def Holds (doc : Json) (sizes : Sizes) : Prop :=
  ∃ (objects : OrderedDict ℕ ℕ) (threads : OrderedDict String ℕ),
    doc = cacheEntry (objects.entries.map fun entry => (Nat.repr entry.1, entry.2)) threads.entries ∧
      objects.find? = sizes.objects ∧ threads.find? = sizes.threads

/-- The sizes in a `RetainedHeap`. -/
def RetainedHeap.sizes (retained : RetainedHeap) : Sizes := ⟨retained.objects.find?, retained.threads.find?⟩

/-- What is read has these sizes. -/
structure CachedHeap.Shows (retained : CachedHeap) (sizes : Sizes) : Prop where
  objects : ∀ address : ℕ, retained.objects.find? address = (sizes.objects address).map Nat.cast
  threads : ∀ name : String, retained.threads.find? (.ofString name) = (sizes.threads name).map Nat.cast

/-- What is dumped holds the sizes. -/
theorem holds_dump (retained : RetainedHeap) : Holds retained.dump retained.sizes :=
  ⟨retained.objects, retained.threads, rfl, rfl, rfl⟩

/-! ### Decimal digits -/

/-- Different numbers have different texts. -/
theorem repr_injective : Function.Injective Nat.repr := fun a b h => by
  have hdigits := congrArg String.toList h
  rw [Nat.toList_repr, Nat.toList_repr] at hdigits
  calc a = Nat.ofDigitChars 10 (Nat.toDigits 10 a) 0 := Nat.ofDigitChars_ten_toDigits.symm
    _ = Nat.ofDigitChars 10 (Nat.toDigits 10 b) 0 := by rw [hdigits]
    _ = b := Nat.ofDigitChars_ten_toDigits

/-- Different strings are different texts of JSON. -/
theorem ofString_injective : Function.Injective JsonText.ofString := fun _ _ h =>
  String.toList_injective (List.map_injective_iff.2 (fun _ _ hc => Char.toNat_inj.1 hc) h)

/-- A decimal digit of `int` that is one of ASCII. -/
theorem digit_of_mem_repr {a c : ℕ} (h : c ∈ JsonText.ofString (Nat.repr a)) : 48 ≤ c ∧ c ≤ 57 := by
  obtain ⟨char, hchar, rfl⟩ := List.mem_map.1 h
  rw [Nat.toList_repr] at hchar
  have hdigit := Nat.isDigit_of_mem_toDigits (by decide) (by decide) hchar
  rw [Char.isDigit_iff_toNat] at hdigit
  exact hdigit

/-- The digits of a string of digits. -/
theorem takeDigits_digits {text : List ℕ} (hne : text ≠ []) (h : ∀ c ∈ text, 48 ≤ c ∧ c ≤ 57) :
    takeDigits text = some (text.map (· - 48), []) := by
  induction text with
  | nil => exact absurd rfl hne
  | cons c rest ih =>
    have hc : isAsciiDigit c = true := by
      have := h c List.mem_cons_self
      rw [isAsciiDigit, Bool.and_eq_true, decide_eq_true_eq, decide_eq_true_eq]
      exact this
    cases rest with
    | nil =>
      rw [takeDigits, if_pos hc]
      rfl
    | cons next rest' =>
      have hnext := h next (List.mem_cons_of_mem c List.mem_cons_self)
      have hdigit : isAsciiDigit next = true := by
        rw [isAsciiDigit, Bool.and_eq_true, decide_eq_true_eq, decide_eq_true_eq]
        exact hnext
      have hrest := ih (List.cons_ne_nil _ _) fun d hd => h d (List.mem_cons_of_mem c hd)
      rw [takeDigits, if_pos hc, if_neg (by omega), if_pos hdigit, hrest]
      rfl

/-- The digits of a number, from their codes. -/
theorem ofDecimalDigits_map (chars : List Char) :
    ofDecimalDigits (chars.map fun c => c.toNat - 48) = Nat.ofDigitChars 10 chars 0 := by
  rw [ofDecimalDigits, List.foldl_map, Nat.ofDigitChars_eq_foldl]
  rfl

/-- **`int` undoes the digits of a number**, unless they are too many. -/
theorem intOfText_digits (python : Interpreter) (a : ℕ) :
    intOfText python (.ofString (Nat.repr a)) = if python.allowsInteger a then .ok (a : ℤ) else .error .valueError := by
  have hdigits : ∀ c ∈ JsonText.ofString (Nat.repr a), 48 ≤ c ∧ c ≤ 57 := fun c hc => digit_of_mem_repr hc
  have hne : JsonText.ofString (Nat.repr a) ≠ [] := by
    rw [JsonText.ofString, Nat.toList_repr]
    exact List.map_eq_nil_iff.not.2 Nat.toDigits_ne_nil
  have hlength : (JsonText.ofString (Nat.repr a)).length = (Nat.toDigits 10 a).length := by
    rw [JsonText.ofString, List.length_map, Nat.toList_repr]
  have hascii : (JsonText.ofString (Nat.repr a)).map python.toAscii = JsonText.ofString (Nat.repr a) := by
    refine (List.map_congr_left fun c hc => ?_).trans (List.map_id _)
    obtain ⟨-, hle⟩ := hdigits c hc
    rw [Interpreter.toAscii, if_pos (by omega)]
    rfl
  have htake := takeDigits_digits hne hdigits
  have hvalue : ofDecimalDigits ((JsonText.ofString (Nat.repr a)).map (· - 48)) = a := by
    rw [JsonText.ofString, List.map_map]
    refine (ofDecimalDigits_map _).trans ?_
    rw [Nat.toList_repr, Nat.ofDigitChars_ten_toDigits]
  -- the first character is neither a space nor a sign
  obtain ⟨c, rest, htext⟩ := List.exists_cons_of_ne_nil hne
  have hc := hdigits c (by rw [htext]; exact List.mem_cons_self)
  have hspace : (JsonText.ofString (Nat.repr a)).dropWhile isAsciiSpace = JsonText.ofString (Nat.repr a) := by
    rw [htext, List.dropWhile_cons_of_neg]
    unfold isAsciiSpace
    rw [Bool.or_eq_true, Bool.and_eq_true, decide_eq_true_eq, decide_eq_true_eq, decide_eq_true_eq]
    omega
  have hsign : takeSign (JsonText.ofString (Nat.repr a)) = (false, JsonText.ofString (Nat.repr a)) := by
    rw [htext]
    unfold takeSign
    split
    · rename_i heq
      have := (List.cons.inj heq).1
      omega
    · rename_i heq
      have := (List.cons.inj heq).1
      omega
    · rfl
  unfold intOfText
  rw [hascii, hspace, hsign]
  dsimp only
  rw [htake]
  simp only [List.all_nil, Bool.true_and, List.length_map, hlength, hvalue, Bool.false_eq_true, if_false]
  rfl

/-- `int` reads the text of a number back. -/
theorem intOfText_repr {python : Interpreter} {a : ℕ} {value : ℤ}
    (h : intOfText python (.ofString (Nat.repr a)) = .ok value) : value = a := by
  rw [intOfText_digits] at h
  split_ifs at h
  exact (Except.ok.inj h).symm

/-! ### Both comprehensions -/

section

variable {python : Interpreter} {κ α : Type} [DecidableEq κ] {key : JsonText → Except CacheError κ}
  {result : OrderedDict κ ℤ}

/-- **A comprehension builds the map of what it reads.** -/
theorem loadItems_eq {item : α → JsonText × Json} {read : α → κ × ℤ}
    (hread : ∀ x k size, key (item x).1 = .ok k → intOf python (item x).2 = .ok size → read x = (k, size))
    {xs : List α} {start : OrderedDict κ ℤ} (h : (xs.map item).foldlM (loadItem python key) start = .ok result) :
    result = (xs.map read).foldl (fun d p => d.insert p.1 p.2) start := by
  induction xs generalizing start with
  | nil =>
    cases h
    rfl
  | cons x xs ih =>
    rw [List.map_cons, List.foldlM_cons, bind_eq_ok] at h
    obtain ⟨next, hitem, hrest⟩ := h
    obtain ⟨k, size, hk, hsize, rfl⟩ := loadItem_ok hitem
    rw [List.map_cons, List.foldl_cons, hread x k size hk hsize]
    exact ih hrest

variable [DecidableEq α] {text : α → String} {name : α → κ} {sizes : OrderedDict α ℕ}

omit [DecidableEq α] in
/-- An object of sizes as `items` has it. -/
theorem entries_sizesObject (htext : text.Injective) :
    (OrderedDict.ofPairs ((sizes.entries.map fun entry => (text entry.1, entry.2)).map
      fun entry => (JsonText.ofString entry.1, Json.integer false entry.2))).entries =
    sizes.entries.map fun entry => (JsonText.ofString (text entry.1), Json.integer false entry.2) := by
  rw [List.map_map]
  exact OrderedDict.entries_ofPairs
    (OrderedDict.nodup_map_key (ofString_injective.comp htext) (Json.integer false) sizes.nodup)

/-- **An object of sizes is read as these sizes**, under the names that `key` makes of
theirs. -/
theorem find?_loaded (hname : name.Injective) (hkey : ∀ a k, key (.ofString (text a)) = .ok k → k = name a)
    (h : (sizes.entries.map fun entry => (JsonText.ofString (text entry.1), Json.integer false entry.2)).foldlM
      (loadItem python key) .empty = .ok result) (a : α) :
    result.find? (name a) = (sizes.find? a).map Nat.cast := by
  have hread : ∀ (entry : α × ℕ) k size, key (.ofString (text entry.1)) = .ok k →
      intOf python (.integer false entry.2) = .ok size → (name entry.1, (entry.2 : ℤ)) = (k, size) := by
    rintro ⟨a, n⟩ k size hk hsize
    cases hsize
    rw [hkey a k hk]
    rfl
  rw [loadItems_eq hread h]
  exact OrderedDict.find?_ofPairs_rename hname Nat.cast sizes.nodup a

end

/-! ### The whole entry -/

variable {python : Interpreter} {doc : Json} {sizes : Sizes} {retained : CachedHeap}

/-- Where `RetainedHeapCache.load` returns sizes, `RetainedHeap.load` read them. -/
theorem loads_of_loadCache {members : List (JsonText × Json)}
    (h : loadCache python (.document (.object members)) = .ok (some retained)) :
    Loads python members (.ok retained) := by
  have hloads : Loads python members (CachedHeap.load python (.ofPairs members)) := load_loads
  cases hfault : (Json.object members).fault? python.allowsInteger python.recursionLimit with
  | some fault =>
    rw [loadCache, readCache, jsonLoad, hfault] at h
    cases fault <;> cases h
  | none =>
    rw [loadCache_object hfault] at h
    cases hload : CachedHeap.load python (.ofPairs members) with
    | ok retained' =>
      rw [hload] at h hloads
      cases h
      exact hloads
    | error e =>
      rw [hload] at h
      dsimp only at h
      split_ifs at h
      cases h

/-- **An entry is read as the sizes it holds**, if it is read. -/
theorem Holds.shows (hholds : Holds doc sizes) (h : loadCache python (.document doc) = .ok (some retained)) :
    retained.Shows sizes := by
  obtain ⟨objects, threads, rfl, hobjects, hthreads⟩ := hholds
  cases loads_of_loadCache h with
  | @reads objectItems threadItems _ hobjectItems hthreadItems _ hloaded hloaded' =>
    cases hobjectItems
    cases hthreadItems
    have hobjectEntries := @entries_sizesObject ℕ Nat.repr objects repr_injective
    have hthreadEntries := @entries_sizesObject String id threads Function.injective_id
    simp only [id, Prod.mk.eta, List.map_id'] at hthreadEntries
    rw [hobjectEntries] at hloaded
    rw [hthreadEntries] at hloaded'
    refine ⟨fun address => ?_, fun name => ?_⟩
    · rw [← hobjects]
      exact find?_loaded Nat.cast_injective (fun a k hk => intOfText_repr hk) hloaded address
    · rw [← hthreads]
      exact @find?_loaded _ _ _ _ _ _ _ id _ threads ofString_injective (fun _ _ hk => (Except.ok.inj hk).symm)
        hloaded' name

end Analyzer
end Pydump
