/-
# UTF-8 keeps the order of strings

The bytes of two strings compare as their code points do, from the left: the encoding of a
larger character is larger, whatever follows either.
-/

import Mathlib.Data.String.Basic
import Pydump.Lib.Utf8

namespace Utf8

/-- The value of a lead byte. -/
theorem toNat_lead {x m k : ℕ} (hm : 0 < m) (hk : m + k ≤ 256) : (UInt8.ofNat (x % m + k)).toNat = x % m + k := by
  have := Nat.mod_lt x hm
  rw [UInt8.toNat_ofNat', Nat.mod_eq_of_lt (by omega)]

/-- **A larger character has larger bytes**, before anything that follows. -/
theorem encodeChar_lt {c d : Char} (h : c < d) (front back : List UInt8) :
    String.utf8EncodeChar c ++ front < String.utf8EncodeChar d ++ back := by
  have hlt : c.val.toNat < d.val.toNat := h
  have hd : d.val.toNat < 0x110000 := by
    have hvalid : d.val.toNat.isValidChar := d.valid
    unfold Nat.isValidChar at hvalid
    omega
  unfold String.utf8EncodeChar
  dsimp only
  generalize c.val.toNat = v at *
  generalize d.val.toNat = w at *
  have hv₁ : v / 4096 = v / 64 / 64 := by omega
  have hv₂ : v / 262144 = v / 64 / 64 / 64 := by omega
  have hw₁ : w / 4096 = w / 64 / 64 := by omega
  have hw₂ : w / 262144 = w / 64 / 64 / 64 := by omega
  have hcontinuation : ∀ x, (UInt8.ofNat (x % 64 + 128)).toNat = x % 64 + 128 :=
    fun x => toNat_lead (by omega) (by omega)
  have hlead : ∀ x, x < 0x110000 → (UInt8.ofNat (x / 64 / 64 / 64 % 8 + 240)).toNat = x / 64 / 64 / 64 + 240 := by
    intro x hx
    rw [toNat_lead (by omega) (by omega)]
    omega
  rw [hv₁, hv₂, hw₁, hw₂]
  -- one length of the encoding after the other
  split_ifs <;> simp only [List.cons_append, List.nil_append, List.cons_lt_cons_iff, UInt8.lt_iff_toNat_lt,
    ← UInt8.toNat_inj, hcontinuation, hlead v (by omega), hlead w hd] <;>
    (try simp only [UInt8.toNat_ofNat']) <;> omega

/-- Encoding keeps the lexicographic order. -/
theorem flatMap_lt {cs ds : List Char} (h : cs < ds) :
    cs.flatMap String.utf8EncodeChar < ds.flatMap String.utf8EncodeChar := by
  induction cs generalizing ds with
  | nil =>
    cases ds with
    | nil => exact absurd h (List.not_lt_nil _)
    | cons d ds =>
      obtain ⟨b, bs, hbytes⟩ := List.exists_cons_of_ne_nil (@String.utf8EncodeChar_ne_nil d)
      rw [List.flatMap_nil, List.flatMap_cons, hbytes, List.cons_append]
      exact List.nil_lt_cons b _
  | cons c cs ih =>
    cases ds with
    | nil => exact absurd h (List.not_lt_nil _)
    | cons d ds =>
      rw [List.flatMap_cons, List.flatMap_cons]
      rcases List.cons_lt_cons_iff.1 h with hlt | ⟨rfl, hrest⟩
      · exact encodeChar_lt hlt _ _
      · exact List.append_left_lt (ih hrest)

/-- **Byte order is code-point order.** -/
theorem encode_lt_iff {s t : String} : encode s < encode t ↔ s < t := by
  have hmono : ∀ {s t : String}, s < t → encode s < encode t := fun h => flatMap_lt (String.lt_iff_toList_lt.1 h)
  constructor
  · intro h
    rcases lt_trichotomy s t with hlt | rfl | hlt
    · exact hlt
    · exact absurd h (List.lt_irrefl _)
    · exact absurd h (List.lt_asymm (hmono hlt))
  · exact hmono

end Utf8
