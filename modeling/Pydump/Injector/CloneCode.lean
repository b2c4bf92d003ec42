/-
# The code of a clone

What the child of a clone does with the bootstrap region, instruction by instruction, on amd64:
`cloneBootstrap` hands the data page to the shellcode, which reads a function and its arguments
there and calls the function on a stack that is aligned as the calling convention asks for it
(`passes_call`).  When the function has returned, the shellcode stores the result in the data
page and goes back to `cloneBootstrap`, which exits (`passes_exit`).  What is called is what
`callOf` reads off the block.
-/

import Pydump.Injector.ArgumentsSpec
import Pydump.Injector.Tracee
import Pydump.Lib.X64Runs

namespace Pydump
namespace Injector

open ByteMemory (Holds Mapped Memory)
open X64 (At Passes at_of_holds displace exec loadWord loadWord_of_holds maxLength storeWord_of_mapped)

/-! ### The region -/

/-- Where `childStack` is in the region. -/
def stackOffset : ℕ := 2101248

/-- `childStack` is one page below the end of the region. -/
theorem bootstrapSize_eq : bootstrapSize.toNat = stackOffset + pageSize := rfl

/-- The region with the code of a clone. -/
structure Ready (base : UInt64) (code : List UInt8) (m : Memory) : Prop where
  code : Holds m (base + .ofNat pageSize) code
  mapped : Mapped m base bootstrapSize.toNat

/-- A thread in the region. -/
def Inside (base x : UInt64) : Prop := (x - base).toNat < bootstrapSize.toNat

/-- On the way of a child: its code is there, and the result word has one of these values. -/
structure OnTheWay (base : UInt64) (code : List UInt8) (results : UInt64 → Prop) (regs : Amd64Registers) (m : Memory) :
    Prop extends Ready base code m where
  inside : Inside base regs.rip
  result : ∃ value, loadWord m 8 base = some value ∧ results value

variable {base : UInt64} {code block shellcode : List UInt8} {results : UInt64 → Prop} {regs : Amd64Registers}
    {m : Memory}
  {G : Amd64Registers → Memory → Prop}

/-- A push to the stack keeps the region ready. -/
theorem Ready.push {offset : ℕ} (h : Ready base code m) (hcode : code.length ≤ pageSize) (hlow : 2 * pageSize ≤ offset)
    (hhigh : offset + 8 ≤ stackOffset) (value : UInt64) :
    Ready base code (ByteMemory.write m (base + .ofNat offset) (LittleEndian.encode 8 value.toNat)) := by
  have hpage : pageSize = 4096 := rfl
  have hstack : stackOffset = 2101248 := rfl
  refine ⟨h.code.write_beside (by omega) ?_ ?_, h.mapped.write⟩ <;> rw [LittleEndian.length_encode] <;> omega

/-- **One instruction of the code**, at its offset. -/
theorem Ready.passes {rest : List UInt8} {instruction : X64.Instruction} {after : Amd64Registers} {m' : Memory}
    (k : ℕ) (bs : List UInt8) (h : Ready base code m)
    (hresult : ∃ value, loadWord m 8 base = some value ∧ results value)
    (hrip : regs.rip = base + .ofNat (pageSize + k)) (hk : k ≤ pageSize) (hcode : code.drop k = bs ++ rest)
    (hlen : 0 < bs.length ∧ bs.length ≤ maxLength)
    (hdecode : ∀ rest, X64.decode (bs ++ rest) = some (instruction, bs.length))
    (hrun : exec instruction (regs.goto (base + .ofNat (pageSize + (k + bs.length)))) m = .runs after m')
    (hnext : Passes (OnTheWay base code results) G after m') : Passes (OnTheWay base code results) G regs m := by
  have hpage : pageSize = 4096 := rfl
  have hat : At m regs instruction bs.length :=
    at_of_holds bs h.code hcode (by rw [hrip, ByteMemory.add_ofNat_add]) hlen.2 hlen.1 hdecode
  refine Passes.step ⟨h, ?_, hresult⟩ hat ?_ hnext
  · rw [Inside, hrip, ByteMemory.add_ofNat_sub (by omega), bootstrapSize_eq]
    unfold stackOffset
    omega
  · rw [hrip, ByteMemory.add_ofNat_add, Nat.add_assoc]
    exact hrun

/-! ### Up to the call -/

/-- A word of the stack. -/
def StackWord (base : UInt64) (offset : ℕ) (value : UInt64) (m : Memory) : Prop :=
  Holds m (base + .ofNat offset) (LittleEndian.encode 8 value.toNat)

/-- The child behind the system call, with the registers that `prepareClone` has given it. -/
structure Started (base : UInt64) (regs : Amd64Registers) : Prop where
  rip : regs.rip = base + .ofNat (pageSize + 7)
  rax : regs.get .rax = 0
  rsp : regs.get .rsp = base + .ofNat stackOffset
  r12 : regs.get .r12 = base + .ofNat (pageSize + Amd64.cloneBootstrap.length)
  r13 : regs.get .r13 = base

/-- The child at the first instruction of the shellcode. -/
structure Entered (base : UInt64) (regs : Amd64Registers) (m : Memory) : Prop where
  rip : regs.rip = base + .ofNat (pageSize + Amd64.cloneBootstrap.length)
  rsp : regs.get .rsp = base + .ofNat (stackOffset - 8)
  rdi : regs.get .rdi = base
  back : StackWord base (stackOffset - 8) (base + .ofNat (pageSize + 19)) m

/-- Eight bytes below an offset. -/
theorem sub_eight (base : UInt64) {offset : ℕ} (h : 8 ≤ offset) :
    base + .ofNat offset - 8 = base + .ofNat (offset - 8) := by
  obtain ⟨k, rfl⟩ := Nat.exists_eq_add_of_le' h
  rw [Nat.add_sub_cancel, UInt64.ofNat_add, ← UInt64.add_assoc]
  exact UInt64.add_sub_cancel _ _

/-- **A push** onto the stack of the region. -/
theorem pushed_eq {offset : ℕ} (h : Mapped m base bootstrapSize.toNat) (hrsp : regs.get .rsp = base + .ofNat offset)
    (hlow : 8 ≤ offset) (hhigh : offset ≤ stackOffset) (value : UInt64) :
    X64.pushed regs m value = some (regs.set .rsp (base + .ofNat (offset - 8)),
      ByteMemory.write m (base + .ofNat (offset - 8)) (LittleEndian.encode 8 value.toNat)) := by
  have hsize := bootstrapSize_eq
  have hmapped : Mapped m (base + .ofNat (offset - 8)) 8 := (h.mono (k := offset - 8 + 8) (by omega)).drop
  rw [X64.pushed, hrsp, sub_eight base hlow, storeWord_of_mapped hmapped, Option.map_some]

/-- A block in the data page stands under a push. -/
theorem block_push {offset : ℕ} (h : Holds m base block) (hlen : block.length ≤ pageSize) (hlow : 2 * pageSize ≤ offset)
    (hhigh : offset + 8 ≤ stackOffset) (value : UInt64) :
    Holds (ByteMemory.write m (base + .ofNat offset) (LittleEndian.encode 8 value.toNat)) base block := by
  have hpage : pageSize = 4096 := rfl
  have hstack : stackOffset = 2101248 := rfl
  rw [← ByteMemory.holds_add_zero] at h ⊢
  exact h.write_beside (by omega) (by rw [LittleEndian.length_encode]; omega) (by omega)

/-- A word of the stack stands under a push below it. -/
theorem StackWord.push {offset below : ℕ} {value : UInt64} (h : StackWord base offset value m)
    (hbelow : below + 8 ≤ offset) (hhigh : offset + 8 ≤ stackOffset) (pushed : UInt64) :
    StackWord base offset value (ByteMemory.write m (base + .ofNat below) (LittleEndian.encode 8 pushed.toNat)) := by
  have hstack : stackOffset = 2101248 := rfl
  refine ByteMemory.Holds.write_beside h ?_ ?_ ?_ <;> rw [LittleEndian.length_encode]
  · omega
  · omega
  · rw [LittleEndian.length_encode]
    omega

/-- A word that is written stands on the stack. -/
theorem stackWord_write (base : UInt64) (offset : ℕ) (value : UInt64) (m : Memory) :
    StackWord base offset value (ByteMemory.write m (base + .ofNat offset) (LittleEndian.encode 8 value.toNat)) :=
  ByteMemory.holds_write (by rw [LittleEndian.length_encode]; omega)

/-- The child gets from its entry to the shellcode. -/
theorem passes_entered (hready : Ready base (Amd64.cloneBootstrap ++ shellcode) m)
    (hlen : (Amd64.cloneBootstrap ++ shellcode).length ≤ pageSize) (hblock : Holds m base block)
    (hblockLen : block.length ≤ pageSize)
    (hresult : ∀ m, Holds m base block → ∃ value, loadWord m 8 base = some value ∧ results value)
    (hstarted : Started base regs)
    (hnext : ∀ after m', Entered base after m' → Ready base (Amd64.cloneBootstrap ++ shellcode) m' →
      Holds m' base block →
      Passes (OnTheWay base (Amd64.cloneBootstrap ++ shellcode) results) G after m') :
    Passes (OnTheWay base (Amd64.cloneBootstrap ++ shellcode) results) G regs m := by
  obtain ⟨hrip, hrax, hrsp, hr12, hr13⟩ := hstarted
  have hres := hresult m hblock
  obtain ⟨r₁, hrun₁, hrip₁, hzero₁, hrsp₁, hr12₁, hr13₁⟩ : ∃ r,
      exec (.test .rax .rax) (regs.goto (base + .ofNat (pageSize + 10))) m = .runs r m ∧
        r.rip = base + .ofNat (pageSize + 10) ∧ r.zero = true ∧ r.get .rsp = regs.get .rsp ∧
          r.get .r12 = regs.get .r12 ∧ r.get .r13 = regs.get .r13 :=
    ⟨_, rfl, by simp [hrax]⟩
  refine hready.passes 7 [0x48, 0x85, 0xC0] hres hrip (by decide) rfl (by decide) (fun _ => rfl) hrun₁ ?_
  obtain ⟨r₂, hrun₂, hrip₂, hrsp₂, hr12₂, hr13₂⟩ : ∃ r,
      exec (.jumpZero 1) (r₁.goto (base + .ofNat (pageSize + 12))) m = .runs r m ∧
        r.rip = base + .ofNat (pageSize + 13) ∧ r.get .rsp = regs.get .rsp ∧ r.get .r12 = regs.get .r12 ∧
          r.get .r13 = regs.get .r13 := by
    have hjump : displace (base + .ofNat (pageSize + 12)) 1 = base + .ofNat (pageSize + 13) :=
      ByteMemory.add_ofNat_add base (pageSize + 12) 1
    refine ⟨_, rfl, ?_⟩
    rw [X64.Registers.zero_goto, hzero₁, if_pos rfl, X64.Registers.rip_goto, X64.Registers.rip_goto, hjump]
    simp [hrsp₁, hr12₁, hr13₁]
  refine hready.passes 10 [0x74, 0x01] hres hrip₁ (by decide) rfl (by decide) (fun _ => rfl) hrun₂ ?_
  obtain ⟨r₃, hrun₃, hrip₃, hrsp₃, hr12₃, hrdi₃⟩ : ∃ r,
      exec (.mov .rdi .r13) (r₂.goto (base + .ofNat (pageSize + 16))) m = .runs r m ∧
        r.rip = base + .ofNat (pageSize + 16) ∧ r.get .rsp = regs.get .rsp ∧ r.get .r12 = regs.get .r12 ∧
          r.get .rdi = base :=
    ⟨_, rfl, by simp [hrsp₂, hr12₂, hr13₂, hr13]⟩
  refine hready.passes 13 [0x4C, 0x89, 0xEF] hres hrip₂ (by decide) rfl (by decide) (fun _ => rfl) hrun₃ ?_
  -- the call of the shellcode
  have hpage : pageSize = 4096 := rfl
  have hstack : stackOffset = 2101248 := rfl
  let m' := ByteMemory.write m (base + .ofNat (stackOffset - 8))
    (LittleEndian.encode 8 (base + .ofNat (pageSize + 19) : UInt64).toNat)
  obtain ⟨r₄, hrun₄, hentered⟩ : ∃ r,
      exec (.call .r12) (r₃.goto (base + .ofNat (pageSize + 19))) m = .runs r m' ∧ Entered base r m' := by
    have hrsp' : (r₃.goto (base + .ofNat (pageSize + 19))).get .rsp = base + .ofNat stackOffset := by simp [hrsp₃, hrsp]
    have hpushed := pushed_eq hready.mapped hrsp' (by omega) (Nat.le_refl _) (base + .ofNat (pageSize + 19))
    refine ⟨_, by simp only [exec, X64.Registers.rip_goto, hpushed, Option.map_some, X64.Effect.ofOption]; rfl, ?_⟩
    exact ⟨by simp [hr12₃, hr12], by simp, by simp [hrdi₃], stackWord_write _ _ _ _⟩
  refine hready.passes 16 [0x41, 0xFF, 0xD4] hres hrip₃ (by decide) rfl (by decide) (fun _ => rfl) hrun₄ ?_
  exact hnext r₄ m' hentered (hready.push hlen (by omega) (by omega) _)
    (block_push hblock hblockLen (by omega) (by omega) _)

/-- The child in the shellcode, with the data page in `%rbx`. -/
structure InShellcode (base : UInt64) (offset : ℕ) (regs : Amd64Registers) (m : Memory) : Prop where
  rip : regs.rip = base + .ofNat (pageSize + offset)
  rsp : regs.get .rsp = base + .ofNat (stackOffset - 16)
  rbx : regs.get .rbx = base
  back : StackWord base (stackOffset - 8) (base + .ofNat (pageSize + 19)) m

/-- The child at the first instruction of the function that it calls, which returns to the
offset `back` of the code. -/
structure Calling (base : UInt64) (code block : List UInt8) (back : ℕ) (called : Call) (regs : Amd64Registers)
    (m : Memory) :
    Prop extends Ready base code m where
  block : Holds m base block
  callee : regs.rip = called.callee
  first : regs.get .rdi = called.first
  second : regs.get .rsi = called.second
  rbx : regs.get .rbx = base
  rsp : regs.get .rsp = base + .ofNat (stackOffset - 24)
  back : StackWord base (stackOffset - 24) (base + .ofNat (pageSize + back)) m
  home : StackWord base (stackOffset - 8) (base + .ofNat (pageSize + 19)) m

variable {called : Call}

/-- A word that is read is loaded. -/
theorem loadWord_of_uintAt {width n : ℕ} {address : UInt64} (h : uintAt m width address = some n) :
    loadWord m width address = some (.ofNat n) := by
  obtain ⟨bs, hread, rfl⟩ := Option.map_eq_some_iff.1 h
  rw [loadWord, hread, Option.map_some]

section

variable (hcode : (Amd64.cloneBootstrap ++ shellcode).length ≤ pageSize) (hblockLen : block.length ≤ pageSize)
  (hresult : ∀ m, Holds m base block → ∃ value, loadWord m 8 base = some value ∧ results value)
include hcode hblockLen hresult

/-- `push %rbx` and `mov %rdi,%rbx` -/
theorem passes_prologue {rest : List UInt8} (hshellcode : shellcode = 0x53 :: 0x48 :: 0x89 :: 0xFB :: rest)
    (hready : Ready base (Amd64.cloneBootstrap ++ shellcode) m) (hblock : Holds m base block)
    (hentered : Entered base regs m)
    (hnext : ∀ after m', InShellcode base 34 after m' → Ready base (Amd64.cloneBootstrap ++ shellcode) m' →
      Holds m' base block → Passes (OnTheWay base (Amd64.cloneBootstrap ++ shellcode) results) G after m') :
    Passes (OnTheWay base (Amd64.cloneBootstrap ++ shellcode) results) G regs m := by
  have hpage : pageSize = 4096 := rfl
  have hstack : stackOffset = 2101248 := rfl
  obtain ⟨hrip, hrsp, hrdi, hback⟩ := hentered
  subst hshellcode
  let m' := ByteMemory.write m (base + .ofNat (stackOffset - 16)) (LittleEndian.encode 8 (regs.get .rbx).toNat)
  obtain ⟨r₁, hrun₁, hrip₁, hrsp₁, hrdi₁⟩ : ∃ r,
    exec (.push .rbx) (regs.goto (base + .ofNat (pageSize + 31))) m = .runs r m' ∧
      r.rip = base + .ofNat (pageSize + 31) ∧ r.get .rsp = base + .ofNat (stackOffset - 16) ∧ r.get .rdi = base := by
    have hrsp' : (regs.goto (base + .ofNat (pageSize + 31))).get .rsp = base + .ofNat (stackOffset - 8) := by
      simp [hrsp]
    have hpushed := pushed_eq hready.mapped hrsp' (by omega) (by omega) (regs.get .rbx)
    refine ⟨_, by simp only [exec, X64.Registers.get_goto, hpushed, X64.Effect.ofOption]; rfl, ?_⟩
    refine ⟨by rw [X64.Registers.rip_set, X64.Registers.rip_goto], ?_, by simp [hrdi]⟩
    rw [X64.Registers.get_set, if_pos rfl]
    rfl
  refine hready.passes 30 [0x53] (hresult m hblock) hrip (by decide) rfl (by decide) (fun _ => rfl) hrun₁ ?_
  have hready' : Ready base _ m' := hready.push hcode (by omega) (by omega) (regs.get .rbx)
  have hblock' : Holds m' base block := block_push hblock hblockLen (by omega) (by omega) (regs.get .rbx)
  obtain ⟨r₂, hrun₂, hinside⟩ : ∃ r, exec (.mov .rbx .rdi) (r₁.goto (base + .ofNat (pageSize + 34))) m' = .runs r m' ∧
      InShellcode base 34 r m' := by
    refine ⟨_, rfl, ⟨by rw [X64.Registers.rip_set, X64.Registers.rip_goto], ?_, by simp [hrdi₁], ?_⟩⟩
    · rw [X64.Registers.get_set, if_neg (by decide), X64.Registers.get_goto, hrsp₁]
    · exact hback.push (by omega) (by omega) _
  refine hready'.passes 31 [0x48, 0x89, 0xFB] (hresult m' hblock') hrip₁ (by decide) rfl (by decide) (fun _ => rfl)
    hrun₂ ?_
  exact hnext r₂ m' hinside hready' hblock'

/-- `call *8(%rbx)` -/
theorem passes_callAt {k : ℕ} {rest : List UInt8} (hk : k + 3 ≤ pageSize)
    (hdrop : (Amd64.cloneBootstrap ++ shellcode).drop k = 0xFF :: 0x53 :: 0x08 :: rest)
    (hready : Ready base (Amd64.cloneBootstrap ++ shellcode) m) (hblock : Holds m base block)
    (hinside : InShellcode base k regs m) (hcallee : loadWord m 8 (displace base 8) = some called.callee)
    (hfirst : regs.get .rdi = called.first) (hsecond : regs.get .rsi = called.second) :
    Passes (OnTheWay base (Amd64.cloneBootstrap ++ shellcode) results)
      (Calling base (Amd64.cloneBootstrap ++ shellcode) block (k + 3) called) regs m := by
  have hpage : pageSize = 4096 := rfl
  have hstack : stackOffset = 2101248 := rfl
  obtain ⟨hrip, hrsp, hrbx, hback⟩ := hinside
  let m' := ByteMemory.write m (base + .ofNat (stackOffset - 24))
    (LittleEndian.encode 8 (base + .ofNat (pageSize + (k + 3)) : UInt64).toNat)
  have hexec : exec (.callAt .rbx 8) (regs.goto (base + .ofNat (pageSize + (k + 3)))) m =
      .runs (((regs.goto (base + .ofNat (pageSize + (k + 3)))).set .rsp (base + .ofNat (stackOffset - 24))).goto
        called.callee) m' := by
    have hrsp' : (regs.goto (base + .ofNat (pageSize + (k + 3)))).get .rsp = base + .ofNat (stackOffset - 16) := by
      rw [X64.Registers.get_goto, hrsp]
    have hpushed := pushed_eq hready.mapped hrsp' (by omega) (by omega) (base + .ofNat (pageSize + (k + 3)))
    simp only [exec, X64.Registers.get_goto, X64.Registers.rip_goto, hrbx, hcallee, Option.bind_some, hpushed,
      Option.map_some, X64.Effect.ofOption]
    rfl
  refine hready.passes k [0xFF, 0x53, 0x08] (hresult m hblock) hrip (by omega) hdrop (by decide) (fun _ => rfl) hexec ?_
  refine Passes.done ⟨hready.push hcode (by omega) (by omega) _, block_push hblock hblockLen (by omega) (by omega) _,
    X64.Registers.rip_goto _ _, ?_, ?_, ?_, ?_, stackWord_write _ _ _ _, hback.push (by omega) (by omega) _⟩
  · rw [X64.Registers.get_goto, X64.Registers.get_set, if_neg (by decide), X64.Registers.get_goto, hfirst]
  · rw [X64.Registers.get_goto, X64.Registers.get_set, if_neg (by decide), X64.Registers.get_goto, hsecond]
  · rw [X64.Registers.get_goto, X64.Registers.get_set, if_neg (by decide), X64.Registers.get_goto, hrbx]
  · rw [X64.Registers.get_goto, X64.Registers.get_set, if_pos rfl]

end

/-- Both displacements are the same. -/
theorem displace_eq_displaced (disp : UInt8) : displace base disp = displaced base disp := rfl

section

variable (hblockLen : block.length ≤ pageSize)
  (hresult : ∀ m, Holds m base block → ∃ value, loadWord m 8 base = some value ∧ results value)
include hblockLen hresult

/-- **The child of the first clone calls what `callOf` reads off its block.** -/
theorem passes_dlopen (hcall : ∀ m, Holds m base block → callOf dlopenShellcode m base = some called)
    (hready : Ready base (Amd64.cloneBootstrap ++ dlopenShellcode) m) (hblock : Holds m base block)
    (hstarted : Started base regs) : Passes (OnTheWay base (Amd64.cloneBootstrap ++ dlopenShellcode) results)
      (Calling base (Amd64.cloneBootstrap ++ dlopenShellcode) block 44 called) regs m := by
  have hcode : (Amd64.cloneBootstrap ++ dlopenShellcode).length ≤ pageSize := by decide
  refine passes_entered hready hcode hblock hblockLen hresult hstarted fun r₁ m₁ hentered hready₁ hblock₁ => ?_
  refine passes_prologue hcode hblockLen hresult rfl hready₁ hblock₁ hentered fun r₂ m₂ hinside hready₂ hblock₂ => ?_
  obtain ⟨hrip, hrsp, hrbx, hback⟩ := hinside
  have hreads := hcall m₂ hblock₂
  simp only [callOf, decode_dlopenShellcode, runToCall, Option.bind_eq_bind, Option.bind_some, Option.bind_eq_some_iff,
    Option.pure_def, Option.some.injEq] at hreads
  obtain ⟨flags, hflags, callee, hcallee, rfl⟩ := hreads
  obtain ⟨r₃, hrun₃, hrip₃, hrsp₃, hrbx₃, hrsi₃⟩ : ∃ r,
      exec (.load32 .rsi .rbx 16) (r₂.goto (base + .ofNat (pageSize + 37))) m₂ = .runs r m₂ ∧
        r.rip = base + .ofNat (pageSize + 37) ∧ r.get .rsp = base + .ofNat (stackOffset - 16) ∧ r.get .rbx = base ∧
          r.get .rsi = .ofNat flags := by
    refine ⟨_, by rw [exec, X64.Registers.get_goto, hrbx, displace_eq_displaced, loadWord_of_uintAt hflags]; rfl, ?_⟩
    refine ⟨by rw [X64.Registers.rip_set, X64.Registers.rip_goto], ?_, by simp [hrbx], by simp⟩
    rw [X64.Registers.get_set, if_neg (by decide), X64.Registers.get_goto, hrsp]
  refine hready₂.passes 34 [0x8B, 0x73, 0x10] (hresult m₂ hblock₂) hrip (by decide) rfl (by decide) (fun _ => rfl) hrun₃
    ?_
  obtain ⟨r₄, hrun₄, hinside, hrdi₄, hrsi₄⟩ : ∃ r,
      exec (.lea .rdi .rbx 24) (r₃.goto (base + .ofNat (pageSize + 41))) m₂ = .runs r m₂ ∧ InShellcode base 41 r m₂ ∧
        r.get .rdi = displaced base 24 ∧ r.get .rsi = .ofNat flags := by
    refine ⟨_, rfl, ⟨by rw [X64.Registers.rip_set, X64.Registers.rip_goto], ?_, by simp [hrbx₃], hback⟩, ?_,
      by simp [hrsi₃]⟩
    · rw [X64.Registers.get_set, if_neg (by decide), X64.Registers.get_goto, hrsp₃]
    · rw [X64.Registers.get_set, if_pos rfl, X64.Registers.get_goto, hrbx₃, displace_eq_displaced]
  refine hready₂.passes 37 [0x48, 0x8D, 0x7B, 0x18] (hresult m₂ hblock₂) hrip₃ (by decide) rfl (by decide)
    (fun _ => rfl)
    hrun₄ ?_
  exact passes_callAt hcode hblockLen hresult (by decide) rfl hready₂ hblock₂ hinside (loadWord_of_uintAt hcallee) hrdi₄
    hrsi₄

/-- **So does the child of the second clone.** -/
theorem passes_schedule (hcall : ∀ m, Holds m base block → callOf scheduleShellcode m base = some called)
    (hready : Ready base (Amd64.cloneBootstrap ++ scheduleShellcode) m) (hblock : Holds m base block)
    (hstarted : Started base regs) : Passes (OnTheWay base (Amd64.cloneBootstrap ++ scheduleShellcode) results)
      (Calling base (Amd64.cloneBootstrap ++ scheduleShellcode) block 45 called) regs m := by
  have hcode : (Amd64.cloneBootstrap ++ scheduleShellcode).length ≤ pageSize := by decide
  refine passes_entered hready hcode hblock hblockLen hresult hstarted fun r₁ m₁ hentered hready₁ hblock₁ => ?_
  refine passes_prologue hcode hblockLen hresult rfl hready₁ hblock₁ hentered fun r₂ m₂ hinside hready₂ hblock₂ => ?_
  obtain ⟨hrip, hrsp, hrbx, hback⟩ := hinside
  have hreads := hcall m₂ hblock₂
  simp only [callOf, decode_scheduleShellcode, runToCall, Option.bind_eq_bind, Option.bind_some,
    Option.bind_eq_some_iff, Option.pure_def, Option.some.injEq] at hreads
  obtain ⟨first, hfirst, second, hsecond, callee, hcallee, rfl⟩ := hreads
  obtain ⟨r₃, hrun₃, hrip₃, hrsp₃, hrbx₃, hrdi₃⟩ : ∃ r,
      exec (.load .rdi .rbx 16) (r₂.goto (base + .ofNat (pageSize + 38))) m₂ = .runs r m₂ ∧
        r.rip = base + .ofNat (pageSize + 38) ∧ r.get .rsp = base + .ofNat (stackOffset - 16) ∧ r.get .rbx = base ∧
          r.get .rdi = .ofNat first := by
    refine ⟨_, by rw [exec, X64.Registers.get_goto, hrbx, displace_eq_displaced, loadWord_of_uintAt hfirst]; rfl, ?_⟩
    refine ⟨by rw [X64.Registers.rip_set, X64.Registers.rip_goto], ?_, by simp [hrbx], by simp⟩
    rw [X64.Registers.get_set, if_neg (by decide), X64.Registers.get_goto, hrsp]
  refine hready₂.passes 34 [0x48, 0x8B, 0x7B, 0x10] (hresult m₂ hblock₂) hrip (by decide) rfl (by decide) (fun _ => rfl)
    hrun₃ ?_
  obtain ⟨r₄, hrun₄, hinside, hrdi₄, hrsi₄⟩ : ∃ r,
      exec (.load .rsi .rbx 24) (r₃.goto (base + .ofNat (pageSize + 42))) m₂ = .runs r m₂ ∧ InShellcode base 42 r m₂ ∧
        r.get .rdi = .ofNat first ∧ r.get .rsi = .ofNat second := by
    refine ⟨_, by rw [exec, X64.Registers.get_goto, hrbx₃, displace_eq_displaced, loadWord_of_uintAt hsecond]; rfl, ?_⟩
    refine ⟨⟨by rw [X64.Registers.rip_set, X64.Registers.rip_goto], ?_, by simp [hrbx₃], hback⟩, by simp [hrdi₃],
      by simp⟩
    rw [X64.Registers.get_set, if_neg (by decide), X64.Registers.get_goto, hrsp₃]
  refine hready₂.passes 38 [0x48, 0x8B, 0x73, 0x18] (hresult m₂ hblock₂) hrip₃ (by decide) rfl (by decide)
    (fun _ => rfl)
    hrun₄ ?_
  exact passes_callAt hcode hblockLen hresult (by decide) rfl hready₂ hblock₂ hinside (loadWord_of_uintAt hcallee) hrdi₄
    hrsi₄

end

/-! ### Behind the call -/

/-- The child behind the function, which has returned a value. -/
structure Returned (base : UInt64) (code : List UInt8) (offset : ℕ) (value : UInt64) (regs : Amd64Registers)
    (m : Memory) :
    Prop extends Ready base code m where
  rip : regs.rip = base + .ofNat (pageSize + offset)
  rax : regs.get .rax = value
  rbx : regs.get .rbx = base
  rsp : regs.get .rsp = base + .ofNat (stackOffset - 16)
  home : StackWord base (stackOffset - 8) (base + .ofNat (pageSize + 19)) m
  pending : loadWord m 8 base = some resultPending

/-- The child at its exit, with the value in the result word. -/
structure Exiting (base : UInt64) (code : List UInt8) (value : UInt64) (regs : Amd64Registers) (m : Memory) : Prop
    extends Ready base code m where
  there : At m regs .syscall 2
  number : regs.get .rax = 60
  result : loadWord m 8 base = some value

/-- Eight bytes above an offset. -/
theorem add_eight (base : UInt64) (offset : ℕ) : base + .ofNat offset + 8 = base + .ofNat (offset + 8) :=
  ByteMemory.add_ofNat_add base offset 8

/-- **The result word is written** in front of the code and the stack. -/
theorem Holds.write_result {bytes : List UInt8} {offset : ℕ} (h : Holds m (base + .ofNat offset) bytes)
    (hlow : 8 ≤ offset) (hhigh : offset + bytes.length ≤ 2 ^ 64) (value : UInt64) :
    Holds (ByteMemory.write m base (LittleEndian.encode 8 value.toNat)) (base + .ofNat offset) bytes := by
  have hbeside : Holds (ByteMemory.write m (base + .ofNat 0) (LittleEndian.encode 8 value.toNat)) (base + .ofNat offset)
    bytes :=
    h.write_beside hhigh (by rw [LittleEndian.length_encode]; omega) (.inr (by rw [LittleEndian.length_encode]; omega))
  rwa [show base + .ofNat 0 = base from UInt64.add_zero base] at hbeside

/-- A word that is written is loaded. -/
theorem loadWord_write (base value : UInt64) (m : Memory) :
    loadWord (ByteMemory.write m base (LittleEndian.encode 8 value.toNat)) 8 base = some value :=
  loadWord_of_holds (ByteMemory.holds_write (by rw [LittleEndian.length_encode]; omega)) (X64.toNat_lt_word value)

/-- From the return of the shellcode to the exit. -/
theorem passes_home (hready : Ready base (Amd64.cloneBootstrap ++ shellcode) m)
    (hrip : regs.rip = base + .ofNat (pageSize + 19)) {value : UInt64} (hresult : loadWord m 8 base = some value)
    (hvalue : results value) :
    Passes (OnTheWay base (Amd64.cloneBootstrap ++ shellcode) results)
      (Exiting base (Amd64.cloneBootstrap ++ shellcode) value) regs m := by
  have hres : ∃ value, loadWord m 8 base = some value ∧ results value := ⟨value, hresult, hvalue⟩
  obtain ⟨r₁, hrun₁, hrip₁, hrax₁⟩ : ∃ r, exec (.movImmediate .rax 60) (regs.goto (base + .ofNat (pageSize + 24))) m =
    .runs r m ∧
      r.rip = base + .ofNat (pageSize + 24) ∧ r.get .rax = 60 :=
    ⟨_, rfl, by simp⟩
  refine hready.passes 19 [0xB8, 0x3C, 0, 0, 0] hres hrip (by decide) rfl (by decide) (fun _ => rfl) hrun₁ ?_
  obtain ⟨r₂, hrun₂, hrip₂, hrax₂⟩ : ∃ r, exec (.xor32 .rdi .rdi) (r₁.goto (base + .ofNat (pageSize + 26))) m =
    .runs r m ∧
      r.rip = base + .ofNat (pageSize + 26) ∧ r.get .rax = 60 :=
    ⟨_, rfl, by simp [hrax₁]⟩
  refine hready.passes 24 [0x31, 0xFF] hres hrip₁ (by decide) rfl (by decide) (fun _ => rfl) hrun₂ ?_
  refine Passes.done ⟨hready, ?_, hrax₂, hresult⟩
  exact at_of_holds (k := 26) [0x0F, 0x05] hready.code rfl (by rw [hrip₂, ByteMemory.add_ofNat_add]) (by decide)
    (by decide)
    fun _ => rfl

/-- **The child stores the result and exits.**  Until then the result word is as the helper
has left it, or the value. -/
theorem passes_exit {offset : ℕ} {rest : List UInt8} {value : UInt64} (hoffset : offset + 5 ≤ pageSize)
    (hcode : (Amd64.cloneBootstrap ++ shellcode).length ≤ pageSize)
    (hdrop : (Amd64.cloneBootstrap ++ shellcode).drop offset = 0x48 :: 0x89 :: 0x03 :: 0x5B :: 0xC3 :: rest)
    (h : Returned base (Amd64.cloneBootstrap ++ shellcode) offset value regs m) :
    Passes (OnTheWay base (Amd64.cloneBootstrap ++ shellcode) fun word => word = resultPending ∨ word = value)
      (Exiting base (Amd64.cloneBootstrap ++ shellcode) value) regs m := by
  obtain ⟨hready, hrip, hrax, hrbx, hrsp, hhome, hpending⟩ := h
  have hpage : pageSize = 4096 := rfl
  have hstack : stackOffset = 2101248 := rfl
  have hsize := bootstrapSize_eq
  have hdrop' : ∀ k, (Amd64.cloneBootstrap ++ shellcode).drop (offset + k) =
      (0x48 :: 0x89 :: 0x03 :: 0x5B :: 0xC3 :: rest).drop k := fun k => by rw [← List.drop_drop, hdrop]
  -- the result
  let m' := ByteMemory.write m base (LittleEndian.encode 8 value.toNat)
  have hready' : Ready base (Amd64.cloneBootstrap ++ shellcode) m' :=
    ⟨Holds.write_result hready.code (by omega) (by omega) value, hready.mapped.write⟩
  have hhome' : StackWord base (stackOffset - 8) (base + .ofNat (pageSize + 19)) m' :=
    Holds.write_result hhome (by omega) (by rw [LittleEndian.length_encode]; omega) value
  have hresult : loadWord m' 8 base = some value := loadWord_write base value m
  have hres : ∃ word, loadWord m' 8 base = some word ∧ (word = resultPending ∨ word = value) :=
    ⟨value, hresult, .inr rfl⟩
  obtain ⟨r₁, hrun₁, hrip₁, hrsp₁⟩ : ∃ r, exec (.store .rbx .rax) (regs.goto (base + .ofNat (pageSize + (offset + 3))))
    m = .runs r m' ∧
      r.rip = base + .ofNat (pageSize + (offset + 3)) ∧ r.get .rsp = base + .ofNat (stackOffset - 16) := by
    have hmapped : Mapped m base 8 := hready.mapped.mono (by omega)
    refine ⟨_, ?_, X64.Registers.rip_goto _ _, by rw [X64.Registers.get_goto, hrsp]⟩
    rw [exec, X64.Registers.get_goto, X64.Registers.get_goto, hrbx, hrax, storeWord_of_mapped hmapped]
    rfl
  refine hready.passes offset [0x48, 0x89, 0x03] ⟨_, hpending, .inl rfl⟩ hrip (by omega) hdrop (by decide)
    (fun _ => rfl)
    hrun₁ ?_
  -- the register of the caller
  obtain ⟨r₂, hrun₂, hrip₂, hrsp₂⟩ : ∃ r, exec (.pop .rbx) (r₁.goto (base + .ofNat (pageSize + (offset + 4)))) m' =
    .runs r m' ∧
      r.rip = base + .ofNat (pageSize + (offset + 4)) ∧ r.get .rsp = base + .ofNat (stackOffset - 8) := by
    have hmapped : Mapped m' (base + .ofNat (stackOffset - 16)) 8 :=
      (hready'.mapped.mono (k := stackOffset - 16 + 8) (by omega)).drop
    obtain ⟨bs, -, -, hread⟩ := hmapped.read
    refine ⟨_, by rw [exec, X64.popped, X64.Registers.get_goto, hrsp₁, loadWord, hread]; rfl, ?_, ?_⟩
    · rw [X64.Registers.rip_set, X64.Registers.rip_set, X64.Registers.rip_goto]
    · rw [X64.Registers.get_set, if_neg (by decide), X64.Registers.get_set, if_pos rfl]
      exact add_eight base (stackOffset - 16)
  refine hready'.passes (offset + 3) [0x5B] hres hrip₁ (by omega) (hdrop' 3) (by decide) (fun _ => rfl) hrun₂ ?_
  -- back in the bootstrap
  obtain ⟨r₃, hrun₃, hrip₃⟩ : ∃ r, exec .ret (r₂.goto (base + .ofNat (pageSize + (offset + 5)))) m' = .runs r m' ∧
      r.rip = base + .ofNat (pageSize + 19) := by
    have hload : loadWord m' 8 (base + .ofNat (stackOffset - 8)) = some (base + .ofNat (pageSize + 19)) :=
      loadWord_of_holds hhome' (X64.toNat_lt_word _)
    refine ⟨_, by rw [exec, X64.popped, X64.Registers.get_goto, hrsp₂, hload]; rfl, X64.Registers.rip_goto _ _⟩
  refine hready'.passes (offset + 4) [0xC3] hres hrip₂ (by omega) (hdrop' 4) (by decide) (fun _ => rfl) hrun₃ ?_
  exact passes_home hready' hrip₃ hresult (.inr rfl)

end Injector
end Pydump
