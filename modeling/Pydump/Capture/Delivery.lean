/-
# Where an artifact goes

The names and the files that `Collector.capture` of
`capture/collector/src/pydump/collector.py` deals with: the final path, which
`available_output_path` chooses by what exists, and the temporary file next to it.

Everything happens in one directory, so that a path is a name and the directory a
finite map from names to contents.
-/

import Mathlib.Data.List.Nodup
import Mathlib.Data.List.Range
import Pydump.Capture.HeapWriter

namespace Pydump
namespace Capture

/-- The files of the output directory. -/
abbrev Directory : Type := OrderedDict String (List UInt8)

/-- `path.exists()`. -/
def Directory.Exists (directory : Directory) (name : String) : Prop := (directory.find? name).isSome

instance (directory : Directory) (name : String) : Decidable (directory.Exists name) :=
  inferInstanceAs (Decidable ((directory.find? name).isSome = true))

/-! ### Names -/

/-- The names that `available_output_path` tries: the requested one, and that with
an index. -/
def outputName (requested : String) : Option ℕ → String
  | none => requested
  | some index => requested ++ "." ++ toString index

/-- The name that is tried next. -/
def nextCandidate : Option ℕ → Option ℕ
  | none => some 0
  | some index => some (index + 1)

/-- `nonce.hex()`. -/
def hexDigits (nonce : List UInt8) : List Char :=
  nonce.flatMap fun b => [Utf8.hexDigit (b.toNat / 16), Utf8.hexDigit (b.toNat % 16)]

/-- The name of the temporary file. -/
def temporaryName (finalName : String) (nonce : List UInt8) : String :=
  "." ++ finalName ++ "." ++ String.ofList (hexDigits nonce) ++ ".partial"

/-- The loop of `available_output_path`: the first name that no file has. -/
def probe (directory : Directory) (requested : String) : ℕ → Option ℕ → String
  | 0, candidate => outputName requested candidate
  | rounds + 1, candidate =>
    if directory.Exists (outputName requested candidate) then
      probe directory requested rounds (nextCandidate candidate)
    else outputName requested candidate

/-- `available_output_path`.  No more names are taken than there are files. -/
def availableOutputPath (directory : Directory) (requested : String) : String :=
  probe directory requested directory.entries.length none

/-- Different digits are written differently. -/
theorem hexDigit_injective : ∀ m < 16, ∀ n < 16, Utf8.hexDigit m = Utf8.hexDigit n → m = n := by decide

/-- Different nonces are written differently. -/
theorem hexDigits_injective {nonce nonce' : List UInt8} (h : hexDigits nonce = hexDigits nonce') : nonce = nonce' := by
  induction nonce generalizing nonce' with
  | nil =>
    cases nonce' with
    | nil => rfl
    | cons b nonce' => cases h
  | cons a nonce ih =>
    cases nonce' with
    | nil => cases h
    | cons b nonce' =>
      have ha := a.toNat_lt
      have hb := b.toNat_lt
      have hcons : Utf8.hexDigit (a.toNat / 16) = Utf8.hexDigit (b.toNat / 16) ∧
          Utf8.hexDigit (a.toNat % 16) = Utf8.hexDigit (b.toNat % 16) ∧ hexDigits nonce = hexDigits nonce' := by
        simpa [hexDigits] using h
      have hhigh := hexDigit_injective _ (by omega) _ (by omega) hcons.1
      have hlow := hexDigit_injective _ (by omega) _ (by omega) hcons.2.1
      rw [ih hcons.2.2, UInt8.toNat_inj.1 (show a.toNat = b.toNat by omega)]

/-- A byte is written with two digits. -/
theorem length_hexDigits (nonce : List UInt8) : (hexDigits nonce).length = 2 * nonce.length := by
  induction nonce with
  | nil => rfl
  | cons b nonce ih =>
    have hcons : hexDigits (b :: nonce) = Utf8.hexDigit (b.toNat / 16) :: Utf8.hexDigit (b.toNat % 16) ::
      hexDigits nonce := rfl
    rw [hcons, List.length_cons, List.length_cons, List.length_cons, ih]
    omega

/-- The characters of the temporary name. -/
theorem toList_temporaryName (finalName : String) (nonce : List UInt8) :
    (temporaryName finalName nonce).toList =
      (('.' :: finalName.toList) ++ ['.']) ++ (hexDigits nonce ++ ".partial".toList) := by
  simp [temporaryName]

/-- **Different nonces give different temporary files.** -/
theorem temporaryName_ne {nonce nonce' : List UInt8} (hlen : nonce.length = nonce'.length) (hne : nonce ≠ nonce')
    (finalName finalName' : String) : temporaryName finalName nonce ≠ temporaryName finalName' nonce' := by
  intro h
  have hlist := congrArg String.toList h
  rw [toList_temporaryName, toList_temporaryName] at hlist
  obtain ⟨-, hend⟩ := List.append_inj' hlist (by
    rw [List.length_append, List.length_append, length_hexDigits, length_hexDigits, hlen])
  exact hne (hexDigits_injective (List.append_cancel_right hend))

/-- **A temporary file is never an output**: `.partial` is no index. -/
theorem temporaryName_ne_outputName (requested : String) (candidate candidate' : Option ℕ) (nonce : List UInt8) :
    temporaryName (outputName requested candidate) nonce ≠ outputName requested candidate' := by
  intro h
  have hlist := congrArg String.toList h
  rw [toList_temporaryName] at hlist
  cases candidate' with
  | none =>
    have hlen := congrArg List.length hlist
    have hname : requested.toList.length ≤ (outputName requested candidate).toList.length := by
      cases candidate with
      | none => exact Nat.le_refl _
      | some index =>
        simp only [outputName, String.toList_append, List.length_append]
        omega
    simp only [List.length_append, List.length_cons, outputName] at hlen hname
    omega
  | some index =>
    have hlast := congrArg List.getLast? hlist
    have hdigits : (toString index).toList = Nat.toDigits 10 index := by
      rw [Nat.toString_eq_ofList_toDigits, String.toList_ofList]
    obtain ⟨front, digit, hsplit⟩ : ∃ front digit, Nat.toDigits 10 index = front ++ [digit] :=
      ⟨_, _, (List.dropLast_append_getLast Nat.toDigits_ne_nil).symm⟩
    have hdigit : digit.isDigit = true :=
      @Nat.isDigit_of_mem_toDigits 10 index digit (by decide) (by decide) (by rw [hsplit]; simp)
    have hr : (outputName requested (some index)).toList.getLast? = some digit := by
      rw [outputName, String.toList_append, hdigits, hsplit, ← List.append_assoc, List.getLast?_concat]
    have hl : ((('.' :: (outputName requested candidate).toList) ++ ['.']) ++
        (hexDigits nonce ++ ".partial".toList)).getLast? = some 'l' := by
      rw [show ".partial".toList = ['.', 'p', 'a', 'r', 't', 'i', 'a'] ++ ['l'] from rfl, ← List.append_assoc,
        ← List.append_assoc, List.getLast?_concat]
    rw [hl, hr] at hlast
    obtain rfl := Option.some.inj hlast
    cases hdigit

/-! ### The name that is chosen -/

/-- The candidates in their order. -/
def candidateAt : ℕ → Option ℕ
  | 0 => none
  | n + 1 => some n

/-- The candidates are numbered in order. -/
theorem nextCandidate_candidateAt (n : ℕ) : nextCandidate (candidateAt n) = candidateAt (n + 1) := by
  cases n with
  | zero => rfl
  | succ n => rfl

/-- Different candidates have different names. -/
theorem outputName_candidateAt_injective (requested : String) :
    Function.Injective fun n => outputName requested (candidateAt n) := by
  have hindexed : ∀ index, requested ≠ outputName requested (some index) := by
    intro index h
    have hlen := congrArg (fun name => name.toList.length) h
    simp only [outputName, String.toList_append, List.length_append] at hlen
    have hdot : ".".toList.length = 1 := rfl
    omega
  intro m n h
  cases m with
  | zero =>
    cases n with
    | zero => rfl
    | succ n => exact absurd h (hindexed n)
  | succ m =>
    cases n with
    | zero => exact absurd h.symm (hindexed m)
    | succ n =>
      have hlist := congrArg String.toList h
      simp only [outputName, candidateAt, String.toList_append] at hlist
      have hdigits := List.append_cancel_left hlist
      rw [Nat.toString_eq_ofList_toDigits, Nat.toString_eq_ofList_toDigits, String.toList_ofList,
        String.toList_ofList] at hdigits
      rw [← @Nat.ofDigitChars_ten_toDigits m, hdigits, Nat.ofDigitChars_ten_toDigits]

/-- Where the candidates before are taken, the loop ends at one that is free, as long as
it goes on for more rounds than there are other files. -/
theorem not_exists_probe {directory : Directory} {requested : String} {rounds n : ℕ}
    (hrounds : directory.entries.length ≤ n + rounds)
    (htaken : ∀ m < n, directory.Exists (outputName requested (candidateAt m))) :
    ¬directory.Exists (probe directory requested rounds (candidateAt n)) := by
  induction rounds generalizing n with
  | zero =>
    intro hexists
    -- more names are taken than there are files
    have hsub : (List.range (n + 1)).map (fun m => outputName requested (candidateAt m)) ⊆ directory.keys := by
      intro name hname
      obtain ⟨m, hm, rfl⟩ := List.mem_map.1 hname
      refine OrderedDict.find?_isSome.1 ?_
      rcases Nat.lt_succ_iff_lt_or_eq.1 (List.mem_range.1 hm) with hlt | rfl
      · exact htaken m hlt
      · exact hexists
    have hnodup := (@List.nodup_range (n + 1)).map (outputName_candidateAt_injective requested)
    have hle := (List.subperm_of_subset hnodup hsub).length_le
    rw [List.length_map, List.length_range, OrderedDict.keys, List.length_map] at hle
    omega
  | succ rounds ih =>
    rw [probe]
    split_ifs with hexists
    · rw [nextCandidate_candidateAt]
      refine ih (by omega) fun m hm => ?_
      rcases Nat.lt_succ_iff_lt_or_eq.1 hm with hlt | rfl
      · exact htaken m hlt
      · exact hexists
    · exact hexists

/-- **The name that `available_output_path` returns is free.** -/
theorem not_exists_availableOutputPath (directory : Directory) (requested : String) :
    ¬directory.Exists (availableOutputPath directory requested) :=
  @not_exists_probe directory requested directory.entries.length 0 (by omega) fun m hm => absurd hm (Nat.not_lt_zero m)

/-- The probe returns the name of a candidate. -/
theorem exists_probe (directory : Directory) (requested : String) (rounds : ℕ) (candidate : Option ℕ) :
    ∃ candidate', probe directory requested rounds candidate = outputName requested candidate' := by
  induction rounds generalizing candidate with
  | zero => exact ⟨candidate, rfl⟩
  | succ rounds ih =>
    rw [probe]
    split_ifs
    · exact ih _
    · exact ⟨candidate, rfl⟩

/-- The temporary name is not the output name. -/
theorem temporaryName_ne_availableOutputPath (directory : Directory) (requested : String) (nonce : List UInt8) :
    temporaryName (availableOutputPath directory requested) nonce ≠ availableOutputPath directory requested := by
  obtain ⟨candidate, h⟩ := exists_probe directory requested directory.entries.length none
  rw [availableOutputPath, h]
  exact temporaryName_ne_outputName requested candidate candidate nonce

end Capture
end Pydump
