/-
# Big-endian integers of a fixed width

`struct.pack("!…")` and `binary.BigEndian` lay an unsigned integer out as its
base-256 digits, the most significant one first.  `BigEndian.encode w v` is that
layout in `w` bytes and `BigEndian.decode` reads a byte list of any length back;
on `w` bytes the two are inverse to each other.
-/

import Mathlib.Data.List.Basic
import Mathlib.Tactic.Ring

namespace BigEndian

/-- The `w` base-256 digits of `v`, most significant first. -/
def encode : ℕ → ℕ → List UInt8
  | 0, _ => []
  | w + 1, v => UInt8.ofNat (v / 256 ^ w) :: encode w v

/-- The value of a digit list, most significant first, continuing from `acc`. -/
def decodeFrom (acc : ℕ) : List UInt8 → ℕ
  | [] => acc
  | b :: bs => decodeFrom (acc * 256 + b.toNat) bs

/-- The value of a digit list, most significant first. -/
def decode (bs : List UInt8) : ℕ := decodeFrom 0 bs

/-- `w` bytes are written. -/
@[simp] theorem length_encode (w v : ℕ) : (encode w v).length = w := by
  induction w with
  | zero => rfl
  | succ w ih => simp [encode, ih]

/-- What is decoded so far stands before the value of the rest. -/
theorem decodeFrom_eq (acc : ℕ) (bs : List UInt8) :
    decodeFrom acc bs = acc * 256 ^ bs.length + decode bs := by
  induction bs generalizing acc with
  | nil => simp [decodeFrom, decode]
  | cons b bs ih =>
    rw [decode, decodeFrom, decodeFrom, ih, ih (0 * 256 + b.toNat), List.length_cons, pow_succ]
    ring

/-- The first byte has the highest weight. -/
theorem decode_cons (b : UInt8) (bs : List UInt8) :
    decode (b :: bs) = b.toNat * 256 ^ bs.length + decode bs := by
  rw [decode, decodeFrom, decodeFrom_eq, Nat.zero_mul, Nat.zero_add]

/-- A digit list of length `w` is below `256 ^ w`. -/
theorem decode_lt (bs : List UInt8) : decode bs < 256 ^ bs.length := by
  induction bs with
  | nil => simp [decode, decodeFrom]
  | cons b bs ih =>
    rw [decode_cons, List.length_cons, pow_succ]
    have hb : b.toNat ≤ 255 := Nat.le_of_lt_succ b.toNat_lt
    have := Nat.mul_le_mul_right (256 ^ bs.length) hb
    omega

/-- Reading `w` digits back keeps `v` modulo `256 ^ w`. -/
theorem decode_encode_mod (w v : ℕ) : decode (encode w v) = v % 256 ^ w := by
  induction w with
  | zero => simp [encode, decode, decodeFrom, Nat.mod_one]
  | succ w ih =>
    have hsplit : v % 256 ^ (w + 1) = v % 256 ^ w + 256 ^ w * (v / 256 ^ w % 256) := by
      rw [pow_succ, Nat.mod_mul]
    rw [encode, decode_cons, ih, length_encode, UInt8.toNat_ofNat', hsplit, Nat.add_comm,
      Nat.mul_comm]

/-- **Round trip of a value that fits.** -/
theorem decode_encode {w v : ℕ} (h : v < 256 ^ w) : decode (encode w v) = v := by
  rw [decode_encode_mod, Nat.mod_eq_of_lt h]

/-- The `w` lowest digits do not see a multiple of `256 ^ k`, `w ≤ k`. -/
theorem encode_mod {w k : ℕ} (h : w ≤ k) (v : ℕ) : encode w (v % 256 ^ k) = encode w v := by
  induction w with
  | zero => rfl
  | succ w ih =>
    obtain ⟨j, rfl⟩ := Nat.exists_eq_add_of_le h
    rw [encode, encode, ih (by omega)]
    congr 1
    rw [← UInt8.toNat_inj, UInt8.toNat_ofNat', UInt8.toNat_ofNat',
      show 256 ^ (w + 1 + j) = 256 ^ w * (2 ^ 8 * 256 ^ j) by ring, Nat.mod_mul_right_div_self,
      Nat.mod_mul_right_mod]

/-- **Round trip of a digit list.** -/
theorem encode_decode (bs : List UInt8) : encode bs.length (decode bs) = bs := by
  induction bs with
  | nil => rfl
  | cons b bs ih =>
    have hlt := decode_lt bs
    have htail : encode bs.length (decode (b :: bs)) = bs := by
      rw [← encode_mod le_rfl, decode_cons, Nat.mul_comm, Nat.mul_add_mod, Nat.mod_eq_of_lt hlt, ih]
    rw [List.length_cons, encode, htail, decode_cons, Nat.mul_comm,
      Nat.mul_add_div (Nat.pow_pos (by decide)), Nat.div_eq_of_lt hlt, Nat.add_zero,
      UInt8.ofNat_toNat]

example : encode 4 0x01020304 = [1, 2, 3, 4] := by decide

end BigEndian
