/-
# The bootstrap arguments arrive

`write_eq` reduces the word by word copy of `tracee.write` to one `ByteMemory.write` of
the block, whatever its length modulo eight.  `dlopenArguments_eq` and
`scheduleArguments_eq` give the blocks as their fields one behind the other, and
`ByteMemory.Holds` carries every field from there to the place where the shellcode reads
it.
-/

import Pydump.Injector.Arguments

namespace Pydump
namespace Injector

open ByteMemory (Memory Holds Mapped)

variable {memory : Memory} {address dataAddress : UInt64} {data : List UInt8}

/-! ### The copy into the target -/

/-- A write of nothing changes nothing. -/
theorem write_nil : write address [] memory = .ok memory := by
  unfold write
  rw [dif_pos rfl]

/-- Data poked into mapped memory stands there. -/
theorem pokeData_eq (h : Mapped memory address data.length) :
    pokeData memory address data = .ok (ByteMemory.write memory address data) := by
  obtain ⟨bs, -, -, hread⟩ := h.read
  unfold pokeData
  rw [hread]

/-- A full word is poked as it is. -/
theorem write_word (h : Mapped memory address 8) (hlong : 8 ≤ data.length) :
    write address data memory =
      write (address + .ofNat 8) (data.drop 8) (ByteMemory.write memory address (data.take 8)) := by
  have hne : data ≠ [] := List.ne_nil_of_length_pos (by omega)
  have hlen : (data.take 8).length = 8 := by
    rw [List.length_take]
    omega
  conv_lhs => unfold write
  rw [dif_neg hne, Nat.min_eq_right hlong, if_neg (by omega), pure_bind]
  exact ExceptLoop.bind_ok (pokeData_eq (by rwa [hlen]))

/-- The last bytes are poked in front of what stands behind them. -/
theorem write_rest (h : Mapped memory address 8) (hshort : data.length < 8) :
    write address data memory = .ok (ByteMemory.write memory address data) := by
  by_cases hnil : data = []
  · rw [hnil, write_nil, ByteMemory.write_nil]
  obtain ⟨word, hword, hholds, hread⟩ := h.read
  have hpeek : peekData memory address = .ok word := by
    unfold peekData
    rw [hread]
  have hlen : (data ++ word.drop data.length).length = 8 := by
    rw [List.length_append, List.length_drop]
    omega
  unfold write
  rw [dif_neg hnil, Nat.min_eq_left (by omega), if_pos hshort, List.take_length, List.drop_length,
    ExceptLoop.bind_ok hpeek, pure_bind]
  refine (ExceptLoop.bind_ok (pokeData_eq (by rwa [hlen]))).trans ?_
  rw [write_nil, ByteMemory.write_keep hholds]

/-- **`tracee.write` writes the block**, where all words it touches are mapped. -/
theorem write_eq {words : ℕ} (hmapped : Mapped memory address (8 * words)) (hlen : data.length ≤ 8 * words)
    (hwords : 8 * words < 2 ^ 64) : write address data memory = .ok (ByteMemory.write memory address data) := by
  induction words generalizing memory address data with
  | zero =>
    obtain rfl : data = [] := List.length_eq_zero_iff.1 (by omega)
    rw [write_nil, ByteMemory.write_nil]
  | succ words ih =>
    have hfirst : Mapped memory address 8 := hmapped.mono (by omega)
    rcases Nat.lt_or_ge data.length 8 with hshort | hlong
    · exact write_rest hfirst hshort
    · have hrest : Mapped memory (address + .ofNat 8) (8 * words) := by
        apply Mapped.drop
        rwa [Nat.add_comm, ← Nat.mul_succ]
      have htake : (data.take 8).length = 8 := by
        rw [List.length_take]
        omega
      have hjoin := @ByteMemory.write_append memory address (data.take 8) (data.drop 8)
        (by rw [htake, List.length_drop]; omega) (by omega)
      rw [htake, List.take_append_drop] at hjoin
      rw [write_word hfirst hlong, ih hrest.write (by rw [List.length_drop]; omega) (by omega), hjoin]

/-! ### The blocks, field by field -/

/-- Bytes put over a front of their length. -/
theorem put_zero {bytes old back : List UInt8} (hlen : bytes.length = old.length) :
    put 0 bytes (old ++ back) = bytes ++ back := by
  unfold put
  rw [List.take_zero, List.nil_append, Nat.zero_add, hlen, List.drop_left]

/-- Bytes put behind a front. -/
theorem put_skip {front bytes back : List UInt8} {n k : ℕ} (hfront : front.length = k) :
    put (n + k) bytes (front ++ back) = front ++ put n bytes back := by
  unfold put
  have hdrop : n + k + bytes.length = front.length + (n + bytes.length) := by omega
  rw [Nat.add_comm n k, ← hfront, List.take_length_add_append, Nat.add_comm front.length n, hfront, hdrop,
    List.drop_length_add_append]
  simp only [List.append_assoc]

/-- **The block for `dlopen`**: the result word, the function, its flags with four bytes
of padding, and the path with its end. -/
theorem dlopenArguments_eq {path : List UInt8} (h : path.length + 25 ≤ pageSize) :
    dlopenArguments address path = .ok (LittleEndian.encode 8 resultPending.toNat ++
      (LittleEndian.encode 8 address.toNat ++ (LittleEndian.encode 4 rtldNow ++
        (List.replicate 4 0 ++ (path ++ [0]))))) := by
  have hlen := LittleEndian.length_encode
  have hzeros : List.replicate (24 + path.length + 1) (0 : UInt8) = List.replicate 8 0 ++ (List.replicate 8 0 ++
      (List.replicate 4 0 ++ (List.replicate 4 0 ++ (List.replicate path.length 0 ++ [0])))) := by
    rw [← List.replicate_one]
    simp only [List.replicate_append_replicate]
    congr 1
    omega
  unfold dlopenArguments
  rw [if_neg (by omega)]
  simp only [putUint64, putUint32]
  rw [hzeros, put_zero (by simp), put_skip (n := 0) (hlen 8 _), put_zero (by simp),
    put_skip (n := 8) (hlen 8 _), put_skip (n := 0) (hlen 8 _), put_zero (by simp),
    put_skip (n := 16) (hlen 8 _), put_skip (n := 8) (hlen 8 _), put_skip (n := 4) (hlen 4 _),
    put_skip (n := 0) (k := 4) (by simp), put_zero (by simp)]

/-- The block for `pydump_schedule`: the result word, the function, the addresses of the
two strings, and the strings with their ends. -/
theorem scheduleArguments_eq {socketPath nonce : List UInt8}
    (h : stringsOffset + socketPath.length + 1 + nonce.length + 1 ≤ pageSize) :
    scheduleArguments address dataAddress socketPath nonce = .ok (LittleEndian.encode 8 resultPending.toNat ++
      (LittleEndian.encode 8 address.toNat ++
        (LittleEndian.encode 8 (dataAddress + .ofNat stringsOffset).toNat ++
          (LittleEndian.encode 8 (dataAddress + .ofNat (stringsOffset + socketPath.length + 1)).toNat ++
            ((socketPath ++ [0]) ++ (nonce ++ [0])))))) := by
  have hlen := LittleEndian.length_encode
  have hzeros : List.replicate (32 + socketPath.length + 1 + nonce.length + 1) (0 : UInt8) =
      List.replicate 8 0 ++ (List.replicate 8 0 ++ (List.replicate 8 0 ++ (List.replicate 8 0 ++
        (List.replicate socketPath.length 0 ++ ([0] ++ (List.replicate nonce.length 0 ++ [0])))))) := by
    rw [← List.replicate_one]
    simp only [List.replicate_append_replicate]
    congr 1
    omega
  have hfits : ¬stringsOffset + socketPath.length + 1 + nonce.length + 1 > pageSize := by omega
  unfold scheduleArguments
  dsimp only
  rw [if_neg hfits]
  simp only [putUint64, show stringsOffset = 32 from rfl]
  rw [hzeros, put_zero (by simp), put_skip (n := 0) (hlen 8 _), put_zero (by simp),
    put_skip (n := 8) (hlen 8 _), put_skip (n := 0) (hlen 8 _), put_zero (by simp),
    put_skip (n := 16) (hlen 8 _), put_skip (n := 8) (hlen 8 _), put_skip (n := 0) (hlen 8 _), put_zero (by simp),
    put_skip (n := 24) (hlen 8 _), put_skip (n := 16) (hlen 8 _), put_skip (n := 8) (hlen 8 _),
    put_skip (n := 0) (hlen 8 _), put_zero (by simp)]
  -- the nonce, behind the path and its end
  rw [show 32 + socketPath.length + 1 = 0 + 1 + socketPath.length + 8 + 8 + 8 + 8 by omega, put_skip (hlen 8 _),
    put_skip (hlen 8 _), put_skip (hlen 8 _), put_skip (hlen 8 _), put_skip rfl, put_skip (by simp), put_zero (by simp)]
  simp only [List.append_assoc]

/-- Arguments that are made fit the page. -/
theorem fits_of_dlopenArguments {path : List UInt8} (h : dlopenArguments address path = .ok data) :
    path.length + 25 ≤ pageSize := by
  by_contra hlong
  unfold dlopenArguments at h
  rw [if_pos (by omega)] at h
  simp at h

/-- Arguments that are made fit the page. -/
theorem fits_of_scheduleArguments {socketPath nonce : List UInt8}
    (h : scheduleArguments address dataAddress socketPath nonce = .ok data) :
    stringsOffset + socketPath.length + 1 + nonce.length + 1 ≤ pageSize := by
  by_contra hlong
  unfold scheduleArguments at h
  dsimp only at h
  rw [if_pos (by omega)] at h
  simp at h

/-- The block of `dlopen` fits the page. -/
theorem dlopenArguments_length {path : List UInt8} (h : dlopenArguments address path = .ok data) :
    data.length ≤ pageSize := by
  have hfits := fits_of_dlopenArguments h
  rw [dlopenArguments_eq hfits] at h
  cases h
  simp only [List.length_append, LittleEndian.length_encode, List.length_replicate, List.length_singleton]
  omega

/-- The block of `pydump_schedule` fits the page. -/
theorem scheduleArguments_length {socketPath nonce : List UInt8}
    (h : scheduleArguments address dataAddress socketPath nonce = .ok data) : data.length ≤ pageSize := by
  have hfits := fits_of_scheduleArguments h
  rw [scheduleArguments_eq hfits] at h
  cases h
  unfold stringsOffset at hfits
  simp only [List.length_append, LittleEndian.length_encode, List.length_singleton]
  omega

/-! ### What the shellcodes read -/

/-- A number is read where its bytes stand. -/
theorem uintAt_of_holds {w value : ℕ} (h : Holds memory address (LittleEndian.encode w value))
    (hvalue : value < 256 ^ w) : uintAt memory w address = some value := by
  have hread := h.read
  rw [LittleEndian.length_encode] at hread
  rw [uintAt, hread, Option.map_some, LittleEndian.decode_encode hvalue]

/-- The shellcode of `dlopen`. -/
theorem decode_dlopenShellcode : decode dlopenShellcode =
    some [.pushRbx, .movRdiRbx, .loadEsi 16, .leaRdi 24, .call 8, .storeRax, .popRbx, .ret] := rfl

/-- The shellcode of `pydump_schedule`. -/
theorem decode_scheduleShellcode : decode scheduleShellcode =
    some [.pushRbx, .movRdiRbx, .loadRdi 16, .loadRsi 24, .call 8, .storeRax, .popRbx, .ret] := rfl

/-- What `dlopenShellcode` finds in the page: the result word, the function, its flags and
the path; and the call it makes of them. -/
structure DlopenBlock (memory : Memory) (dataAddress address : UInt64) (path : List UInt8) : Prop where
  pending : uintAt memory 8 dataAddress = some resultPending.toNat
  callee : uintAt memory 8 (dataAddress + .ofNat 8) = some address.toNat
  flags : uintAt memory 4 (dataAddress + .ofNat 16) = some rtldNow
  path : ByteMemory.cString memory pageSize (dataAddress + .ofNat 24) = some path
  call : callOf dlopenShellcode memory dataAddress =
    some ⟨address, dataAddress + .ofNat 24, .ofNat rtldNow, dataAddress⟩

/-- What `scheduleShellcode` finds in the page: the result word, the function and two
addresses, at which the strings are; and the call it makes of them. -/
structure ScheduleBlock (memory : Memory) (dataAddress address : UInt64) (socketPath nonce : List UInt8)
    (socketAddress nonceAddress : UInt64) : Prop where
  pending : uintAt memory 8 dataAddress = some resultPending.toNat
  callee : uintAt memory 8 (dataAddress + .ofNat 8) = some address.toNat
  first : uintAt memory 8 (dataAddress + .ofNat 16) = some socketAddress.toNat
  second : uintAt memory 8 (dataAddress + .ofNat 24) = some nonceAddress.toNat
  socketPath : ByteMemory.cString memory pageSize socketAddress = some socketPath
  nonce : ByteMemory.cString memory pageSize nonceAddress = some nonce
  call : callOf scheduleShellcode memory dataAddress = some ⟨address, socketAddress, nonceAddress, dataAddress⟩

/-- The block of `dlopen` is where its bytes are. -/
theorem dlopenBlock_of_holds {path : List UInt8} (hzero : 0 ∉ path) (hfits : path.length + 25 ≤ pageSize)
    (h : Holds memory dataAddress (LittleEndian.encode 8 resultPending.toNat ++
      (LittleEndian.encode 8 address.toNat ++ (LittleEndian.encode 4 rtldNow ++
        (List.replicate 4 0 ++ (path ++ [0])))))) : DlopenBlock memory dataAddress address path := by
  have hlen := LittleEndian.length_encode
  have h8 := h.right (hlen 8 _)
  have h16 := h8.right (hlen 8 _)
  have h20 := h16.right (hlen 4 _)
  have h24 := h20.right (n := 4) (by simp)
  simp only [ByteMemory.add_ofNat_add] at h16 h20 h24
  have pending := uintAt_of_holds h.left resultPending.toNat_lt
  have callee := uintAt_of_holds h8.left address.toNat_lt
  have flags := uintAt_of_holds h16.left (by unfold rtldNow; omega)
  refine ⟨pending, callee, flags, h24.cString hzero (by omega), ?_⟩
  have hcallee : uintAt memory 8 (displaced dataAddress 8) = some address.toNat := callee
  have hflags : uintAt memory 4 (displaced dataAddress 16) = some rtldNow := flags
  simp only [callOf, decode_dlopenShellcode, runToCall, Option.bind_eq_bind, Option.bind_some, hcallee, hflags,
    UInt64.ofNat_toNat, Option.pure_def]
  rfl

/-- The block of `pydump_schedule` is where its bytes are. -/
theorem scheduleBlock_of_holds {socketPath nonce : List UInt8} (hsocket : 0 ∉ socketPath) (hnonce : 0 ∉ nonce)
    (hfits : stringsOffset + socketPath.length + 1 + nonce.length + 1 ≤ pageSize)
    (h : Holds memory dataAddress (LittleEndian.encode 8 resultPending.toNat ++
      (LittleEndian.encode 8 address.toNat ++
        (LittleEndian.encode 8 (dataAddress + .ofNat stringsOffset).toNat ++
          (LittleEndian.encode 8 (dataAddress + .ofNat (stringsOffset + socketPath.length + 1)).toNat ++
            ((socketPath ++ [0]) ++ (nonce ++ [0]))))))) :
    ScheduleBlock memory dataAddress address socketPath nonce (dataAddress + .ofNat stringsOffset)
      (dataAddress + .ofNat (stringsOffset + socketPath.length + 1)) := by
  have hlen := LittleEndian.length_encode
  have h8 := h.right (hlen 8 _)
  have h16 := h8.right (hlen 8 _)
  have h24 := h16.right (hlen 8 _)
  have h32 := h24.right (hlen 8 _)
  have hlast := h32.right (n := socketPath.length + 1) (by simp)
  simp only [ByteMemory.add_ofNat_add] at h16 h24 h32 hlast
  have pending := uintAt_of_holds h.left resultPending.toNat_lt
  have callee := uintAt_of_holds h8.left address.toNat_lt
  have first := uintAt_of_holds h16.left (UInt64.toNat_lt _)
  have second := uintAt_of_holds h24.left (UInt64.toNat_lt _)
  refine ⟨pending, callee, first, second, h32.left.cString hsocket (by omega), hlast.cString hnonce (by omega), ?_⟩
  have hcallee : uintAt memory 8 (displaced dataAddress 8) = some address.toNat := callee
  have hfirst : uintAt memory 8 (displaced dataAddress 16) = some (dataAddress + .ofNat stringsOffset).toNat := first
  have hsecond : uintAt memory 8 (displaced dataAddress 24) =
      some (dataAddress + .ofNat (stringsOffset + socketPath.length + 1)).toNat := second
  simp only [callOf, decode_scheduleShellcode, runToCall, Option.bind_eq_bind, Option.bind_some, hcallee, hfirst,
    hsecond, UInt64.ofNat_toNat, Option.pure_def]

/-! ### The page around a block -/

/-- The write of a block into the page at `dataAddress`: the block lies in the page, and
nothing but its bytes has changed. -/
structure Confined (dataAddress : UInt64) (length : ℕ) (memory memory' : Memory) : Prop where
  inside : ∀ i < length, (dataAddress + .ofNat i).toNat = dataAddress.toNat + i ∧ i < pageSize
  frame : ∀ x : UInt64, x.toNat < dataAddress.toNat ∨ dataAddress.toNat + length ≤ x.toNat → memory' x = memory x

/-- A write of a block stays within its page. -/
theorem confined_write (haligned : dataAddress.toNat % pageSize = 0) (hlen : data.length ≤ pageSize) :
    Confined dataAddress data.length memory (ByteMemory.write memory dataAddress data) := by
  have hlt := dataAddress.toNat_lt
  have hpage : pageSize = 4096 := rfl
  rw [hpage] at haligned
  constructor
  · intro i hi
    rw [UInt64.toNat_add, UInt64.toNat_ofNat']
    omega
  · intro x hx
    have hxlt := x.toNat_lt
    refine ByteMemory.write_frame ?_
    rw [UInt64.toNat_sub]
    omega

/-- A block that fits into the page is written as a whole. -/
theorem write_block (hmapped : Mapped memory dataAddress pageSize) (hlen : data.length ≤ pageSize) :
    write dataAddress data memory = .ok (ByteMemory.write memory dataAddress data) ∧
      Holds (ByteMemory.write memory dataAddress data) dataAddress data := by
  unfold pageSize at *
  have hwords : Mapped memory dataAddress (8 * 512) := hmapped
  exact ⟨write_eq hwords hlen (by omega), ByteMemory.holds_write (by omega)⟩

/-- **The argument blocks arrive.**  Whatever stood in the data page, also what an earlier
block and its child left there, after `tracee.write` of a block that was accepted the
shellcode reads the result word, the function and the arguments that were given, and calls
with them.  The block with the ends of its strings lies in the page, and no byte beside it
has changed. -/
theorem arguments_arrive {dataAddress : UInt64} (haligned : dataAddress.toNat % pageSize = 0) {memory : Memory}
    (hmapped : Mapped memory dataAddress pageSize) :
    (∀ address path data, 0 ∉ path → dlopenArguments address path = .ok data → ∃ memory',
      write dataAddress data memory = .ok memory' ∧ Confined dataAddress data.length memory memory' ∧
        data.length = 24 + path.length + 1 ∧ DlopenBlock memory' dataAddress address path) ∧
      ∀ address socketPath nonce data, 0 ∉ socketPath → 0 ∉ nonce →
        scheduleArguments address dataAddress socketPath nonce = .ok data →
          ∃ memory', write dataAddress data memory = .ok memory' ∧
            Confined dataAddress data.length memory memory' ∧
            data.length = 32 + (socketPath.length + 1) + (nonce.length + 1) ∧
            ScheduleBlock memory' dataAddress address socketPath nonce (dataAddress + .ofNat 32)
              (dataAddress + .ofNat (32 + (socketPath.length + 1))) := by
  constructor
  · intro address path data hzero h
    have hfits := fits_of_dlopenArguments h
    obtain rfl := Except.ok.inj (h.symm.trans (dlopenArguments_eq hfits))
    generalize hdata : (LittleEndian.encode 8 resultPending.toNat ++ _ : List UInt8) = data at *
    have hlen : data.length = 24 + path.length + 1 := by
      simp only [← hdata, List.length_append, LittleEndian.length_encode, List.length_replicate, List.length_singleton]
      omega
    have hpage : data.length ≤ pageSize := by omega
    obtain ⟨hwrite, hholds⟩ := write_block hmapped hpage
    exact ⟨_, hwrite, confined_write haligned hpage, hlen, dlopenBlock_of_holds hzero hfits (hdata ▸ hholds)⟩
  · intro address socketPath nonce data hsocket hnonce h
    have hfits := fits_of_scheduleArguments h
    obtain rfl := Except.ok.inj (h.symm.trans (scheduleArguments_eq hfits))
    generalize hdata : (LittleEndian.encode 8 resultPending.toNat ++ _ : List UInt8) = data at *
    have hlen : data.length = 32 + (socketPath.length + 1) + (nonce.length + 1) := by
      simp only [← hdata, List.length_append, LittleEndian.length_encode, List.length_singleton]
      omega
    have hpage : data.length ≤ pageSize := by
      unfold stringsOffset at hfits
      omega
    obtain ⟨hwrite, hholds⟩ := write_block hmapped hpage
    exact ⟨_, hwrite, confined_write haligned hpage, hlen,
      scheduleBlock_of_holds hsocket hnonce hfits (hdata ▸ hholds)⟩

/-- A data page that an earlier block of sevens filled: a path of five bytes, and a path and
a nonce of seven and three. -/
theorem arguments_arrive_sevens :
    (∃ memory' : Memory, write 0x1000 (LittleEndian.encode 8 (2 ^ 64 - 1) ++ LittleEndian.encode 8 0x12345678 ++
        [2, 0, 0, 0, 0, 0, 0, 0, 47, 97, 46, 115, 111, 0]) (fun _ => some 7) = .ok memory' ∧
      Confined 0x1000 30 (fun _ => some 7) memory' ∧ 30 = 24 + 5 + 1 ∧
      DlopenBlock memory' 0x1000 0x12345678 [47, 97, 46, 115, 111]) ∧
      ∃ memory' : Memory, write 0x1000 (LittleEndian.encode 8 (2 ^ 64 - 1) ++ LittleEndian.encode 8 0x12345678 ++
          LittleEndian.encode 8 0x1020 ++ LittleEndian.encode 8 0x1028 ++
          [47, 99, 46, 115, 111, 99, 107, 0, 48, 49, 50, 0]) (fun _ => some 7) = .ok memory' ∧
        Confined 0x1000 44 (fun _ => some 7) memory' ∧ 44 = 32 + (7 + 1) + (3 + 1) ∧
        ScheduleBlock memory' 0x1000 0x12345678 [47, 99, 46, 115, 111, 99, 107] [48, 49, 50] (0x1000 + .ofNat 32)
          (0x1000 + .ofNat (32 + (7 + 1))) := by
  have harrive := @arguments_arrive 0x1000 (by decide) (fun _ => some 7) fun _ _ => rfl
  exact ⟨harrive.1 0x12345678 [47, 97, 46, 115, 111] _ (by decide) (by decide),
    harrive.2 0x12345678 [47, 99, 46, 115, 111, 99, 107] [48, 49, 50] _ (by decide) (by decide) (by decide)⟩

end Injector
end Pydump
