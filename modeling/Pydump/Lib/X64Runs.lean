/-
# Following machine code

`At` says which instruction stands where a thread is, whatever comes behind it.  What a thread
does in a part of the memory it does in the whole (`exec_restrict`), so that code can be
followed on the memory that belongs to it while other threads change the rest: `Passes I G`
follows it up to `G` with `I` on the way, and `Passes.step_eq` takes one step of it in the
whole memory.
-/

import Pydump.Lib.X64

namespace X64

open ByteMemory (Holds Mapped Memory restrict)

variable {m : Memory} {a : UInt64} {bs : List UInt8} {regs after : Registers} {instruction : Instruction} {length n : ℕ}
  {owned : Set UInt64}

/-! ### Registers -/

namespace Registers

variable (regs : Registers) (register other : Register) (value address : UInt64)

/-- A write to a register is read back there, and there alone. -/
@[simp] theorem get_set : (regs.set register value).get other = if other = register then value else regs.get other := by
  cases register <;> cases other <;> rfl

/-- A write to a register leaves `rip`. -/
@[simp] theorem rip_set : (regs.set register value).rip = regs.rip := by
  cases register <;> rfl

/-- A write to a register leaves the zero flag. -/
@[simp] theorem zero_set : (regs.set register value).zero = regs.zero := by
  cases register <;> rfl

/-- A jump leaves the registers. -/
@[simp] theorem get_goto : (regs.goto address).get register = regs.get register := by
  cases register <;> rfl

/-- A jump sets `rip`. -/
@[simp] theorem rip_goto : (regs.goto address).rip = address := rfl

/-- A jump leaves the zero flag. -/
@[simp] theorem zero_goto : (regs.goto address).zero = regs.zero := rfl

/-- A comparison leaves the registers. -/
@[simp] theorem get_setZero : (regs.setZero value).get register = regs.get register := by
  cases register <;> rfl

/-- A comparison leaves `rip`. -/
@[simp] theorem rip_setZero : (regs.setZero value).rip = regs.rip := rfl

end Registers


/-- A flag that is set reads as set. -/
theorem or_and_self (flags mask : UInt64) : (flags ||| mask) &&& mask = mask := by
  apply UInt64.toBitVec_inj.1
  ext i hi
  simp only [UInt64.toBitVec_and, UInt64.toBitVec_or, BitVec.getElem_and, BitVec.getElem_or]
  cases mask.toBitVec[i] <;> simp

/-- The zero flag says whether the result is zero. -/
@[simp] theorem Registers.zero_setZero (result : UInt64) : (regs.setZero result).zero = decide (result = 0) := by
  unfold zero setZero
  by_cases h : result = 0
  · simp [h, or_and_self]
  · simp [h, UInt64.and_assoc]

/-! ### Fetching -/

/-- A fetch begins with the bytes that stand there. -/
theorem fetch_of_holds (h : Holds m a bs) (hn : bs.length ≤ n) : ∃ rest, fetch m n a = bs ++ rest := by
  induction bs generalizing a n with
  | nil => exact ⟨_, rfl⟩
  | cons b bs ih =>
    obtain ⟨n, rfl⟩ := Nat.exists_eq_add_one_of_ne_zero (Nat.ne_zero_of_lt hn)
    have hb : m a = some b := by simpa using h 0 (by simp)
    have hbs : Holds m (a + 1) bs := by
      intro i hi
      have hat := h (i + 1) (by simpa using hi)
      rw [ByteMemory.add_one, hat, List.getElem?_cons_succ]
    obtain ⟨rest, hrest⟩ := ih hbs (by simpa using hn)
    exact ⟨rest, by simp only [fetch, hb, hrest, List.cons_append]⟩

/-- The instruction stands at `rip`, with its length. -/
def At (m : Memory) (regs : Registers) (instruction : Instruction) (length : ℕ) : Prop :=
  ∃ bs : List UInt8, bs.length ≤ maxLength ∧ Holds m regs.rip bs ∧
    ∀ rest, decode (bs ++ rest) = some (instruction, length)

/-- A step executes the instruction at `rip`. -/
theorem At.step (h : At m regs instruction length) :
    step m regs = exec instruction (regs.goto (regs.rip + .ofNat length)) m := by
  obtain ⟨bs, hlen, hholds, hdecode⟩ := h
  obtain ⟨rest, hfetch⟩ := fetch_of_holds hholds hlen
  rw [X64.step, hfetch, hdecode]

/-- What stands in owned memory stands in the whole. -/
theorem At.of_restrict (h : At (restrict owned m) regs instruction length) : At m regs instruction length := by
  obtain ⟨bs, hlen, hholds, hdecode⟩ := h
  exact ⟨bs, hlen, hholds.of_restrict, hdecode⟩

/-- An instruction of a block of code. -/
theorem at_of_holds {code rest : List UInt8} {k : ℕ} (bs : List UInt8) (h : Holds m a code)
    (hcode : code.drop k = bs ++ rest) (hrip : regs.rip = a + .ofNat k) (hlen : bs.length ≤ maxLength)
    (hpos : 0 < bs.length)
    (hdecode : ∀ rest, decode (bs ++ rest) = some (instruction, length)) : At m regs instruction length := by
  refine ⟨bs, hlen, ?_, hdecode⟩
  have hk : k ≤ code.length := by
    by_contra hlong
    rw [List.drop_of_length_le (by omega)] at hcode
    have hnil := (List.append_eq_nil_iff.1 hcode.symm).1
    simp [hnil] at hpos
  have hsplit : code = code.take k ++ (bs ++ rest) := by rw [← hcode, List.take_append_drop]
  rw [hsplit] at h
  rw [hrip]
  exact (h.right (by rw [List.length_take, Nat.min_eq_left hk])).left

/-! ### Words -/

/-- A word is read where its bytes stand. -/
theorem loadWord_of_holds {width : ℕ} {value : UInt64} (h : Holds m a (LittleEndian.encode width value.toNat))
    (hwidth : value.toNat < 256 ^ width) : loadWord m width a = some value := by
  have hread := h.read
  rw [LittleEndian.length_encode] at hread
  rw [loadWord, hread, Option.map_some, LittleEndian.decode_encode hwidth, UInt64.ofNat_toNat]

/-- Eight bytes hold a word. -/
theorem toNat_lt_word (value : UInt64) : value.toNat < 256 ^ 8 := value.toNat_lt

/-- A word is written where eight bytes are mapped. -/
theorem storeWord_of_mapped (h : Mapped m a 8) (value : UInt64) :
    storeWord m a value = some (ByteMemory.write m a (LittleEndian.encode 8 value.toNat)) := by
  obtain ⟨bs, -, -, hread⟩ := h.read
  rw [storeWord, hread, Option.map_some]

/-- What is loaded from owned memory is loaded from the whole. -/
theorem loadWord_restrict {width : ℕ} {value : UInt64} (h : loadWord (restrict owned m) width a = some value) :
    loadWord m width a = some value := by
  obtain ⟨bs, hread, rfl⟩ := Option.map_eq_some_iff.1 h
  rw [loadWord, ByteMemory.read_of_restrict hread, Option.map_some]

/-- A store to what is owned. -/
theorem storeWord_restrict {value : UInt64} {m' : Memory} (h : storeWord (restrict owned m) a value = some m') :
    ∃ m'', storeWord m a value = some m'' ∧ restrict owned m'' = m' ∧ ∀ x, x ∉ owned → m'' x = m x := by
  obtain ⟨bs, hread, rfl⟩ := Option.map_eq_some_iff.1 h
  have hmapped : Mapped (restrict owned m) a (LittleEndian.encode 8 value.toNat).length := by
    rw [LittleEndian.length_encode]
    exact ByteMemory.mapped_of_read hread
  refine ⟨_, ?_, ByteMemory.restrict_write hmapped, fun x hx => ByteMemory.write_of_not_mem hmapped hx⟩
  rw [storeWord, ByteMemory.read_of_restrict hread, Option.map_some]

/-! ### A part of the memory -/

/-- An effect that runs on has a result. -/
theorem runs_of_option {x : Option (Registers × Memory)} {m' : Memory} (h : Effect.ofOption x = .runs after m') :
    x = some (after, m') := by
  cases x with
  | none => cases h
  | some pair =>
    cases h
    rfl

/-- A push into owned memory is one into the whole, and leaves the rest. -/
theorem pushed_restrict {value : UInt64} {m' : Memory} (h : pushed regs (restrict owned m) value = some (after, m')) :
    ∃ m'', pushed regs m value = some (after, m'') ∧ restrict owned m'' = m' ∧ ∀ x, x ∉ owned → m'' x = m x := by
  obtain ⟨stored, hstored, hpair⟩ := Option.map_eq_some_iff.1 h
  cases hpair
  obtain ⟨m'', hwhole, hpart, hrest⟩ := storeWord_restrict hstored
  exact ⟨m'', by rw [pushed, hwhole, Option.map_some], hpart, hrest⟩

/-- **What runs in a part of the memory runs in the whole**, and changes this part only. -/
theorem exec_restrict {m' : Memory} (h : exec instruction regs (restrict owned m) = .runs after m') :
    ∃ m'', exec instruction regs m = .runs after m'' ∧ restrict owned m'' = m' ∧ ∀ x, x ∉ owned → m'' x = m x := by
  cases instruction with
  | mov | movImmediate | lea | test | jumpZero | xor32 =>
    cases h
    exact ⟨m, rfl, rfl, fun _ _ => rfl⟩
  | load target base disp | load32 target base disp =>
    obtain ⟨value, hload, hpair⟩ := Option.map_eq_some_iff.1 (runs_of_option h)
    cases hpair
    exact ⟨m, by simp only [exec, loadWord_restrict hload, Option.map_some, Effect.ofOption], rfl, fun _ _ => rfl⟩
  | pop | ret =>
    obtain ⟨_, hpopped, hpair⟩ := Option.map_eq_some_iff.1 (runs_of_option h)
    obtain ⟨value, hload, rfl⟩ := Option.map_eq_some_iff.1 hpopped
    cases hpair
    exact ⟨m, by simp only [exec, popped, loadWord_restrict hload, Option.map_some, Effect.ofOption], rfl,
      fun _ _ => rfl⟩
  | push source =>
    obtain ⟨m'', hwhole, hpart, hrest⟩ := pushed_restrict (runs_of_option h)
    exact ⟨m'', by simp only [exec, hwhole, Effect.ofOption], hpart, hrest⟩
  | store base source =>
    obtain ⟨stored, hstored, hpair⟩ := Option.map_eq_some_iff.1 (runs_of_option h)
    cases hpair
    obtain ⟨m'', hwhole, hpart, hrest⟩ := storeWord_restrict hstored
    exact ⟨m'', by simp only [exec, hwhole, Option.map_some, Effect.ofOption], hpart, hrest⟩
  | call target =>
    obtain ⟨⟨behind, stored⟩, hpushed, hpair⟩ := Option.map_eq_some_iff.1 (runs_of_option h)
    cases hpair
    obtain ⟨m'', hwhole, hpart, hrest⟩ := pushed_restrict hpushed
    exact ⟨m'', by simp only [exec, hwhole, Option.map_some, Effect.ofOption], hpart, hrest⟩
  | callAt base disp =>
    obtain ⟨callee, hload, hcall⟩ := Option.bind_eq_some_iff.1 (runs_of_option h)
    obtain ⟨⟨behind, stored⟩, hpushed, hpair⟩ := Option.map_eq_some_iff.1 hcall
    cases hpair
    obtain ⟨m'', hwhole, hpart, hrest⟩ := pushed_restrict hpushed
    refine ⟨m'', ?_, hpart, hrest⟩
    simp only [exec, loadWord_restrict hload, Option.bind_some, hwhole, Option.map_some, Effect.ofOption]
  | syscall | int3 | ud2 => cases h

/-! ### Up to a goal -/

/-- The thread runs up to a state with `G`, with `I` in every state before it. -/
inductive Passes (I G : Registers → Memory → Prop) : Registers → Memory → Prop
  | done {regs : Registers} {m : Memory} (goal : G regs m) : Passes I G regs m
  | step {regs after : Registers} {m m' : Memory} {instruction : Instruction} {length : ℕ} (invariant : I regs m)
      (there : At m regs instruction length)
      (run : exec instruction (regs.goto (regs.rip + .ofNat length)) m = .runs after m')
      (rest : Passes I G after m') : Passes I G regs m

variable {I G : Registers → Memory → Prop}

/-- The state is before the goal or at it. -/
theorem Passes.invariant_or_goal (h : Passes I G regs m) : I regs m ∨ G regs m := by
  cases h with
  | done goal => exact .inr goal
  | step invariant => exact .inl invariant

/-- **A step on the way**, in the whole memory. -/
theorem Passes.step_eq (h : Passes I G regs (restrict owned m)) (hgoal : ¬G regs (restrict owned m)) :
    ∃ after m', X64.step m regs = .runs after m' ∧ Passes I G after (restrict owned m') ∧ ∀ x, x ∉ owned →
      m' x = m x := by
  generalize hpart : restrict owned m = part at h hgoal
  cases h with
  | done goal => exact absurd goal hgoal
  | step invariant there run rest =>
    subst hpart
    obtain ⟨m'', hwhole, rfl, hrest⟩ := exec_restrict run
    exact ⟨_, m'', there.of_restrict.step.trans hwhole, rest, hrest⟩

end X64
