/-
# Little-endian integers of a fixed width

`binary.LittleEndian` and the memory of the target lay an unsigned integer out with its
least significant digit first: the digits of `BigEndian` in the other order.
-/

import Pydump.Lib.BigEndian

namespace LittleEndian

/-- The `w` base-256 digits of `v`, least significant first. -/
def encode (w v : ℕ) : List UInt8 := (BigEndian.encode w v).reverse

/-- The value of a digit list, least significant first. -/
def decode (bs : List UInt8) : ℕ := BigEndian.decode bs.reverse

/-- `w` bytes are written. -/
@[simp] theorem length_encode (w v : ℕ) : (encode w v).length = w := by
  simp [encode]

/-- **Round trip of a value that fits.** -/
theorem decode_encode {w v : ℕ} (h : v < 256 ^ w) : decode (encode w v) = v := by
  rw [decode, encode, List.reverse_reverse, BigEndian.decode_encode h]

example : encode 4 0x01020304 = [4, 3, 2, 1] := by decide

end LittleEndian
