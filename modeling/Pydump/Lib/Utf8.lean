/-
# UTF-8 with `backslashreplace`

`bytes.decode("utf-8", "backslashreplace")` keeps every well-formed UTF-8
sequence, reading from the left, and writes every other byte `b` as the four
characters `\xNN`.  Which byte lists are well formed, and the scalar value they
stand for, is core's `ByteArray.utf8DecodeChar?`; `Utf8.decodeChar?_eq_some_iff`
restates it as "the list starts with the encoding of `c`".

A Lean `String` is a sequence of Unicode scalar values, so it is a text string
without surrogates, and `Utf8.encode` is its plain UTF-8 encoding.
-/

import Mathlib.Data.List.Basic
import Mathlib.Tactic.NormNum

namespace Utf8

/-- `str.encode("utf-8")` of a string without surrogates. -/
def encode (s : String) : List UInt8 := s.toList.flatMap String.utf8EncodeChar

/-- The scalar value whose UTF-8 encoding the byte list starts with. -/
def decodeChar? (bs : List UInt8) : Option Char := bs.toByteArray.utf8DecodeChar? 0

/-- A lower-case hexadecimal digit. -/
def hexDigit (n : ℕ) : Char := if n < 10 then Char.ofNat (48 + n) else Char.ofNat (87 + n)

/-- The text `\xNN` that `backslashreplace` puts in place of a byte. -/
def escapeByte (b : UInt8) : List Char := ['\\', 'x', hexDigit (b.toNat / 16), hexDigit (b.toNat % 16)]

/-- Decoding from the left; the first argument counts the bytes of the current
sequence that are still to be passed over. -/
def decodeFrom : ℕ → List UInt8 → List Char
  | _, [] => []
  | k + 1, _ :: bs => decodeFrom k bs
  | 0, b :: bs =>
    match decodeChar? (b :: bs) with
    | some c => c :: decodeFrom (c.utf8Size - 1) bs
    | none => escapeByte b ++ decodeFrom 0 bs

/-- `bytes.decode("utf-8", "backslashreplace")`. -/
def decode (bs : List UInt8) : String := String.ofList (decodeFrom 0 bs)

/-- **Which lists decode.**  A byte list starts with a well-formed sequence for
`c` exactly when it starts with the encoding of `c`. -/
theorem decodeChar?_eq_some_iff {bs : List UInt8} {c : Char} :
    decodeChar? bs = some c ↔ ∃ rest, bs = String.utf8EncodeChar c ++ rest := by
  constructor
  · intro h
    obtain ⟨l, hl⟩ := ByteArray.exists_of_utf8DecodeChar?_eq_some h
    refine ⟨l.data.toList, List.toByteArray_inj.1 ?_⟩
    rw [hl, List.toByteArray_append]
    congr 1
    apply ByteArray.ext
    simp [List.data_toByteArray]
  · rintro ⟨rest, rfl⟩
    rw [decodeChar?, List.toByteArray_append]
    exact ByteArray.utf8DecodeChar?_utf8EncodeChar_append

/-- The bytes of the current sequence are passed over. -/
theorem decodeFrom_append (xs bs : List UInt8) : decodeFrom xs.length (xs ++ bs) = decodeFrom 0 bs := by
  induction xs with
  | nil => rfl
  | cons x xs ih => rw [List.length_cons, List.cons_append, decodeFrom, ih]

/-- The encoding of `c` decodes to `c`, whatever follows it. -/
theorem decodeFrom_encodeChar (c : Char) (bs : List UInt8) :
    decodeFrom 0 (String.utf8EncodeChar c ++ bs) = c :: decodeFrom 0 bs := by
  have hsome : decodeChar? (String.utf8EncodeChar c ++ bs) = some c :=
    decodeChar?_eq_some_iff.2 ⟨bs, rfl⟩
  have hlen := String.length_utf8EncodeChar c
  cases henc : String.utf8EncodeChar c with
  | nil => exact absurd henc String.utf8EncodeChar_ne_nil
  | cons x xs =>
    rw [henc, List.cons_append] at hsome
    rw [henc, List.length_cons] at hlen
    rw [List.cons_append, decodeFrom, hsome]
    simp only [← hlen, Nat.add_sub_cancel, decodeFrom_append]

/-- Encoded characters come back. -/
theorem decodeFrom_flatMap (cs : List Char) (bs : List UInt8) :
    decodeFrom 0 (cs.flatMap String.utf8EncodeChar ++ bs) = cs ++ decodeFrom 0 bs := by
  induction cs with
  | nil => rfl
  | cons c cs ih => rw [List.flatMap_cons, List.append_assoc, decodeFrom_encodeChar, ih, List.cons_append]

/-- **Decoding undoes encoding.** -/
@[simp] theorem decode_encode (s : String) : decode (encode s) = s := by
  have h := decodeFrom_flatMap s.toList []
  rw [List.append_nil] at h
  rw [decode, encode, h, decodeFrom, List.append_nil, String.ofList_toList]

/-! ### Cutting an encoding -/

/-- A string is encoded part by part. -/
@[simp] theorem encode_append (front back : String) : encode (front ++ back) = encode front ++ encode back := by
  simp [encode]

/-- No encoding of a character begins with the encoding of another. -/
theorem eq_of_encodeChar_append {c d : Char} (h : String.utf8EncodeChar d <+: String.utf8EncodeChar c) : d = c := by
  obtain ⟨rest, hrest⟩ := h
  have hc : decodeChar? (String.utf8EncodeChar c) = some c := decodeChar?_eq_some_iff.2 ⟨[], by simp⟩
  have hd : decodeChar? (String.utf8EncodeChar c) = some d := decodeChar?_eq_some_iff.2 ⟨rest, hrest.symm⟩
  simpa [hc] using hd.symm

/-- **A sequence cut short begins with an escape.**  What is decoded of a character that
was cut inside starts with a backslash, and the character is none. -/
theorem decodeFrom_cutChar {c : Char} {k : ℕ} (hpos : 0 < k) (hk : k < (String.utf8EncodeChar c).length) :
    ∃ cs, decodeFrom 0 ((String.utf8EncodeChar c).take k) = '\\' :: cs ∧ '\\' ≠ c := by
  have hnone : decodeChar? ((String.utf8EncodeChar c).take k) = none := by
    rw [Option.eq_none_iff_forall_ne_some]
    intro d hd
    obtain ⟨rest, hrest⟩ := decodeChar?_eq_some_iff.1 hd
    have hprefix : String.utf8EncodeChar d <+: String.utf8EncodeChar c :=
      (List.prefix_append _ rest).trans (hrest ▸ List.take_prefix k _)
    have hlen := congrArg List.length hrest
    rw [eq_of_encodeChar_append hprefix, List.length_append, List.length_take] at hlen
    omega
  have hne : '\\' ≠ c := by
    rintro rfl
    have : (String.utf8EncodeChar '\\').length = 1 := by decide
    omega
  obtain ⟨b, bs, hbs⟩ : ∃ b bs, (String.utf8EncodeChar c).take k = b :: bs := by
    apply List.exists_cons_of_ne_nil
    rw [← List.length_pos_iff_ne_nil, List.length_take]
    omega
  rw [hbs] at hnone ⊢
  exact ⟨_, by rw [decodeFrom, hnone]; rfl, hne⟩

/-- `limit` falls between two characters of `s`, or behind the last one. -/
def Between (limit : ℕ) (s : String) : Prop :=
  ∃ front back, s = front ++ back ∧ (encode front).length = min limit (encode s).length

/-- A limit behind the end falls between characters. -/
theorem between_of_le {limit : ℕ} {s : String} (h : (encode s).length ≤ limit) : Between limit s :=
  ⟨s, "", by simp, by omega⟩

/-- **Where a cut falls**: between two characters, or inside one. -/
theorem between_or_inside (limit : ℕ) (cs : List Char) :
    Between limit (String.ofList cs) ∨
      ∃ front c back k, cs = front ++ c :: back ∧ 0 < k ∧ k < (String.utf8EncodeChar c).length ∧
        (cs.flatMap String.utf8EncodeChar).take limit =
          front.flatMap String.utf8EncodeChar ++ (String.utf8EncodeChar c).take k := by
  induction cs generalizing limit with
  | nil => exact .inl (between_of_le (by simp [encode]))
  | cons c cs ih =>
    by_cases hfits : (String.utf8EncodeChar c).length ≤ limit
    · obtain ⟨front, back, heq, hlen⟩ | ⟨front, d, back, k, rfl, hpos, hk, htake⟩ :=
        ih (limit - (String.utf8EncodeChar c).length)
      · refine .inl ⟨String.ofList [c] ++ front, back, ?_, ?_⟩
        · rw [String.append_assoc, ← heq, ← String.ofList_append, List.singleton_append]
        · simp only [encode, String.toList_append, String.toList_ofList, List.flatMap_append, List.flatMap_cons,
            List.flatMap_nil, List.append_nil, List.length_append] at hlen ⊢
          omega
      · refine .inr ⟨c :: front, d, back, k, rfl, hpos, hk, ?_⟩
        rw [List.flatMap_cons, List.take_append, List.take_of_length_le hfits, htake, List.flatMap_cons,
          List.append_assoc]
    · rcases Nat.eq_zero_or_pos limit with rfl | hpos
      · exact .inl ⟨"", String.ofList (c :: cs), by simp, by simp [encode]⟩
      · refine .inr ⟨[], c, cs, limit, rfl, hpos, by omega, ?_⟩
        rw [List.flatMap_cons, List.take_append_of_le_length (by omega), List.flatMap_nil, List.nil_append]

/-- A cut between two characters leaves the characters before it. -/
theorem decode_take_of_between {limit : ℕ} {s : String} (h : Between limit s) :
    ∃ back, s = decode ((encode s).take limit) ++ back := by
  obtain ⟨front, back, rfl, hlen⟩ := h
  refine ⟨back, ?_⟩
  have htake : (encode (front ++ back)).take limit = encode front := by
    rw [encode_append, List.length_append] at hlen
    rw [encode_append, List.take_append]
    rcases Nat.lt_or_ge limit ((encode front).length) with hlt | hge
    · omega
    · have hnil : (encode back).take (limit - (encode front).length) = [] := by
        rw [← List.length_eq_zero_iff, List.length_take]
        omega
      rw [List.take_of_length_le hge, hnil, List.append_nil]
  rw [htake, decode_encode]

/-- **A cut keeps a beginning of the text exactly when it falls between two
characters.** -/
theorem decode_take_prefix_iff {limit : ℕ} {s : String} :
    (decode ((encode s).take limit)).toList <+: s.toList ↔ Between limit s := by
  constructor
  · intro hprefix
    have hcases := between_or_inside limit s.toList
    rw [String.ofList_toList] at hcases
    rcases hcases with h | ⟨front, c, back, k, hs, hpos, hk, htake⟩
    · exact h
    · -- the escape would have to be the character that was cut
      obtain ⟨cs, hcs, hne⟩ := decodeFrom_cutChar hpos hk
      rw [decode, encode, htake, String.toList_ofList, decodeFrom_flatMap, hcs, hs, List.prefix_append_right_inj,
        List.cons_prefix_cons] at hprefix
      exact absurd hprefix.1 hne
  · intro h
    obtain ⟨back, hback⟩ := decode_take_of_between h
    refine ⟨back.toList, ?_⟩
    conv_rhs => rw [hback]
    rw [String.toList_append]

/-- `b"\xe2\x82A"`: a sequence cut short is replaced byte by byte. -/
example : decode [0xe2, 0x82, 0x41] = "\\xe2\\x82A" := by decide +kernel

end Utf8
