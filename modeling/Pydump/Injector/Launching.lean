/-
# What the helper launches

Where `Inject` returns without an error on amd64, the target has called `dlopen` with the path
of the Agent and then `pydump_schedule` with the socket's path and the nonce, both once, on a
stack as the calling convention asks for it; the first has returned a handle and the second
zero, the children have exited and the region is unmapped (`inject_launches`).  So it is for
every order of turns of the tasks in the target, as long as a child whose function has
returned gets to its exit while the helper sleeps.
-/

import Pydump.Injector.Cloning
import Mathlib.Data.Nat.Bitwise

namespace Pydump
namespace Injector

open ByteMemory (Holds Mapped Memory)
open Deferred (Ensures Yields closing keepFirst outcome)

section

variable {κ α : Type} {kernel : Kernel κ Amd64Registers} {world : κ → World} {text : Set UInt64} {options : Options}
  {ghost : Tracee κ Amd64Registers} {base : UInt64} {events : List Event}

/-! ### A call in the target -/

/-- The call of `dlopen` for the Agent. -/
structure DlopenCall (dlopen : RemoteSymbol) (path : List UInt8) (entry : Amd64Registers) (m : Memory) : Prop where
  callee : entry.rip = dlopen.address
  path : ByteMemory.cString m pageSize (entry.get .rdi) = some path
  flags : entry.get .rsi = .ofNat rtldNow
  aligned : (entry.get .rsp + 8).toNat % 16 = 0

/-- The call of `pydump_schedule`. -/
structure ScheduleCall (schedule : RemoteSymbol) (socketPath nonce : List UInt8) (entry : Amd64Registers) (m : Memory) :
    Prop where
  callee : entry.rip = schedule.address
  socketPath : ByteMemory.cString m pageSize (entry.get .rdi) = some socketPath
  nonce : ByteMemory.cString m pageSize (entry.get .rsi) = some nonce
  aligned : (entry.get .rsp + 8).toNat % 16 = 0

/-- The symbol that the helper has found for `dlopen`. -/
def FoundDlopen (kernel : Kernel κ Amd64Registers) (dlopen : RemoteSymbol) : Prop :=
  ∃ s content s', kernel.readMaps s = (.ok content, s') ∧
    findSymbol (kernel.elfFile s') (parseMappings content) ["dlopen", "__libc_dlopen_mode"] = .ok dlopen

/-- … and the one for `pydump_schedule`, in the Agent. -/
def FoundSchedule (kernel : Kernel κ Amd64Registers) (path : List UInt8) (schedule : RemoteSymbol) : Prop :=
  ∃ s content s', kernel.readMaps s = (.ok content, s') ∧
    findSymbolInPath (kernel.elfFile s') (parseMappings content) path "pydump_schedule" = .ok schedule

/-! ### The two clones -/

/-- The stack at the call is aligned. -/
theorem aligned_of_called {block : List UInt8} {call : Call} {entry : Amd64Registers} {m : Memory}
    (haligned : base.toNat % pageSize = 0) (h : Called base block call entry m) :
    (entry.get .rsp + 8).toNat % 16 = 0 := by
  have hstack : stackOffset = 2101248 := rfl
  have hpage : pageSize = 4096 := rfl
  have hbase := base.toNat_lt
  rw [hpage] at haligned
  rw [h.rsp, add_eight, UInt64.toNat_add, UInt64.toNat_ofNat']
  omega

/-- The word says that the result is pending. -/
theorem loadWord_of_pending {m : Memory} (h : uintAt m 8 base = some resultPending.toNat) :
    X64.loadWord m 8 base = some resultPending := by
  rw [loadWord_of_uintAt h, UInt64.ofNat_toNat]

/-- The first clone, with the block for `dlopen`. -/
theorem dlopen_shell {dlopen : RemoteSymbol} {path data : List UInt8} (hzero : 0 ∉ path)
    (hdata : dlopenArguments dlopen.address path = .ok data) (houtside : ¬Inside base dlopen.address) :
    Shell base (Amd64.cloneBootstrap ++ dlopenShellcode) data 44
      ⟨dlopen.address, base + .ofNat 24, .ofNat rtldNow, base⟩ := by
  have hfits := fits_of_dlopenArguments hdata
  have hlen := dlopenArguments_length hdata
  rw [dlopenArguments_eq hfits] at hdata
  have hblock : ∀ {m : Memory}, Holds m base data → DlopenBlock m base dlopen.address path := by
    intro m hm
    cases hdata
    exact dlopenBlock_of_holds hzero hfits hm
  have hcode : (Amd64.cloneBootstrap ++ dlopenShellcode).length ≤ pageSize := by decide
  refine ⟨hcode, hlen, houtside, fun hm => loadWord_of_pending (hblock hm).pending, fun hready hm hstarted => ?_,
    fun hreturned => ?_⟩
  · exact passes_dlopen hlen (fun m hm => ⟨_, loadWord_of_pending (hblock hm).pending, rfl⟩)
      (fun m hm => (hblock hm).call)
      hready hm hstarted
  · exact passes_exit (by decide) hcode rfl hreturned

/-- The second, with the block for `pydump_schedule`. -/
theorem schedule_shell {schedule : RemoteSymbol} {socketPath nonce data : List UInt8} (hsocket : 0 ∉ socketPath)
    (hnonce : 0 ∉ nonce) (hdata : scheduleArguments schedule.address base socketPath nonce = .ok data)
    (houtside : ¬Inside base schedule.address) :
    Shell base (Amd64.cloneBootstrap ++ scheduleShellcode) data 45 ⟨schedule.address, base + .ofNat stringsOffset,
      base + .ofNat (stringsOffset + socketPath.length + 1), base⟩ := by
  have hfits := fits_of_scheduleArguments hdata
  have hlen := scheduleArguments_length hdata
  rw [scheduleArguments_eq hfits] at hdata
  have hblock : ∀ {m : Memory}, Holds m base data → ScheduleBlock m base schedule.address socketPath nonce
      (base + .ofNat stringsOffset) (base + .ofNat (stringsOffset + socketPath.length + 1)) := by
    intro m hm
    cases hdata
    exact scheduleBlock_of_holds hsocket hnonce hfits hm
  have hcode : (Amd64.cloneBootstrap ++ scheduleShellcode).length ≤ pageSize := by decide
  refine ⟨hcode, hlen, houtside, fun hm => loadWord_of_pending (hblock hm).pending, fun hready hm hstarted => ?_,
    fun hreturned => ?_⟩
  · exact passes_schedule hlen (fun m hm => ⟨_, loadWord_of_pending (hblock hm).pending, rfl⟩)
      (fun m hm => (hblock hm).call)
      hready hm hstarted
  · exact passes_exit (by decide) hcode rfl hreturned

/-- The call with the block of `dlopen` is one of `dlopen`. -/
theorem dlopenCall_of_called {dlopen : RemoteSymbol} {path data : List UInt8} {entry : Amd64Registers} {m : Memory}
    (haligned : base.toNat % pageSize = 0) (hzero : 0 ∉ path) (hdata : dlopenArguments dlopen.address path = .ok data)
    (h : Called base data ⟨dlopen.address, base + .ofNat 24, .ofNat rtldNow, base⟩ entry m) :
    DlopenCall dlopen path entry m := by
  have hfits := fits_of_dlopenArguments hdata
  rw [dlopenArguments_eq hfits] at hdata
  cases hdata
  exact ⟨h.callee, by rw [h.first]; exact (dlopenBlock_of_holds hzero hfits h.block).path, h.second,
    aligned_of_called haligned h⟩

/-- The call with the block of `pydump_schedule` is one of it. -/
theorem scheduleCall_of_called {schedule : RemoteSymbol} {socketPath nonce data : List UInt8} {entry : Amd64Registers}
    {m : Memory} (haligned : base.toNat % pageSize = 0) (hsocket : 0 ∉ socketPath) (hnonce : 0 ∉ nonce)
    (hdata : scheduleArguments schedule.address base socketPath nonce = .ok data)
    (h : Called base data ⟨schedule.address, base + .ofNat stringsOffset,
      base + .ofNat (stringsOffset + socketPath.length + 1), base⟩ entry m) :
    ScheduleCall schedule socketPath nonce entry m := by
  have hfits := fits_of_scheduleArguments hdata
  rw [scheduleArguments_eq hfits] at hdata
  cases hdata
  have hblock := scheduleBlock_of_holds hsocket hnonce hfits h.block
  exact ⟨h.callee, by rw [h.first]; exact hblock.socketPath, by rw [h.second]; exact hblock.nonce,
    aligned_of_called haligned h⟩

/-! ### The ways of `Inject` -/

/-- A note of the helper changes nothing else. -/
theorem yields_setInUse {P : World → Prop} (inUse : Bool) :
    Yields (Seen world ghost P) (setInUse inUse) fun _ => Seen world { ghost with bootstrapInUse := inUse } P :=
  Ensures.modify fun t h => ⟨by rw [h.frame], h.view⟩

/-- A block is made or refused. -/
theorem yields_block {x : Except InjectorError (List UInt8)} {P : Tracee κ Amd64Registers → Prop} :
    Yields P (block x : Injection κ Amd64Registers (List UInt8)) fun data t => P t ∧ x = .ok data :=
  yields_returned.mono (fun _ => id) (fun data t h => ⟨h.1, by cases x <;> simp_all [Except.mapError]⟩) fun _ _ => id

/-- **A clone from its start to the end of its child.** -/
theorem yields_runClone (hkernel : kernel.Drives world text) (hprompt : kernel.Prompt world)
    {shellcode data : List UInt8}
    {offset : ℕ} {called : Call} (hshell : Shell base (Amd64.cloneBootstrap ++ shellcode) data offset called)
    (starting refused : String) {wait : Injection κ Amd64Registers UInt64 → Injection κ Amd64Registers UInt64}
    (hwait : ∀ {m : Injection κ Amd64Registers UInt64} {P : Tracee κ Amd64Registers → Prop}
      {Q : UInt64 → Tracee κ Amd64Registers → Prop}, Yields P m Q → Yields P (wait m) Q) (cloneAddress : UInt64) :
    Yields (Seen world ghost (Settled ghost.regs (Written text base data events)))
      (runClone kernel (Amd64.platform kernel options.pid) options starting refused wait cloneAddress
        (base + .ofNat pageSize) (base + .ofNat stackOffset) base shellcode)
      fun value => Seen world { ghost with bootstrapInUse := false }
        (Settled ghost.regs (Ended text base data called events value)) := by
  let used : Tracee κ Amd64Registers := { ghost with bootstrapInUse := true }
  have hstart : Yields (Seen world used (Settled used.regs (Written text base data events)))
      (Amd64.startClone kernel options.pid (base + .ofNat pageSize) (base + .ofNat stackOffset) base shellcode)
      fun value => Seen world used
        (Settled used.regs (Cloned text base (Amd64.cloneBootstrap ++ shellcode) data offset called events value)) :=
    yields_startClone hkernel hshell
  have hpoll : Yields
      (Seen world used (Settled used.regs (Launched text base (Amd64.cloneBootstrap ++ shellcode) data offset called
        events)))
      (waitForCloneResult kernel base options.timeout)
      fun value => Seen world used (Settled used.regs (Ended text base data called events value)) :=
    yields_pollResult hkernel hprompt hshell options.timeout (pollRounds options.timeout)
  refine (yields_setInUse true).bind fun _ => hstart.wrapping_const.bind fun child => ?_
  refine Ensures.ite (fun _ => (yields_setInUse false).bind fun _ => Yields.throw) fun hchild => ?_
  refine ((hwait hpoll).mono (fun t h => ?_) (fun _ _ => id) fun _ _ => id).bind fun value => ?_
  · refine ⟨h.frame, h.view.mode, ?_⟩
    rcases h.view.target with ⟨herror, -⟩ | ⟨-, hlaunched⟩
    · exact absurd herror.1.le hchild
    · exact hlaunched
  · exact (yields_setInUse false).bind fun _ => Ensures.pure fun t h => h

/-- The mappings are those of the system behind them. -/
theorem yields_readMappings {P : World → Prop}
    (hP : ∀ s content s', P (world s) → kernel.readMaps s = (.ok content, s') → P (world s')) :
    Yields (Seen world ghost P) (readMappings kernel options.pid) fun maps t =>
      Seen world ghost P t ∧ ∃ s content, kernel.readMaps s = (.ok content, t.system) ∧
        maps = parseMappings content := by
  refine Ensures.bind (Q := fun content t => Seen world ghost P t ∧ ∃ s, kernel.readMaps s = (.ok content, t.system))
    (Ensures.wrapping_const ?_) fun content => Ensures.pure fun t ⟨h, s, hs⟩ => ⟨h, s, content, hs, rfl⟩
  refine ensures_call (fun t content s ht hrun => ⟨⟨?_, hP _ _ _ ht.view hrun⟩, t.system, hrun⟩)
    fun _ _ _ _ _ => trivial
  rw [ht.frame]

/-- A symbol is what the search in the files finds. -/
theorem yields_searched {P : Tracee κ Amd64Registers → Prop}
    (find : (List UInt8 → Option ElfFile) → Except Failure RemoteSymbol) :
    Yields P (searched kernel find) fun symbol t => P t ∧ find (kernel.elfFile t.system) = .ok symbol := by
  refine Ensures.get_bind fun s hs => yields_returned.mono (fun _ => id) (fun symbol t h => ?_) fun _ _ => id
  obtain ⟨rfl, hfind⟩ := h
  exact ⟨hs, hfind⟩

/-- A block is written to the data page. -/
theorem yields_writeBlock (hkernel : kernel.Drives world text) {data : List UInt8} (hlen : data.length ≤ pageSize) :
    Yields (Seen world ghost (Settled ghost.regs (Fresh text base events))) (writeTarget kernel base data)
      fun _ => Seen world ghost (Settled ghost.regs (Written text base data events)) := by
  have hpage : pageSize = 4096 := rfl
  have hsize := bootstrapSize_eq
  refine Ensures.mono (P := fun t => ∃ part,
    Seen world ghost (Settled ghost.regs (Quiet text (some base) part events)) t ∧
    Mapped part base bootstrapSize.toNat) (Ensures.choosing fun part => Ensures.assuming fun hmapped => ?_)
    (fun t ⟨hframe, hmode, part, hmapped, hquiet⟩ => ⟨part, ⟨hframe, hmode, hquiet⟩, hmapped⟩) (fun _ _ => id)
      fun _ _ => id
  refine (yields_writeTarget hkernel 512 (by omega) (by omega) (hmapped.mono (by omega))).mono (fun _ => id)
    (fun _ t h => ?_)
    fun _ _ => id
  exact ⟨h.frame, h.view.mode, _, ⟨hmapped.write, ByteMemory.holds_write (by omega)⟩, h.view.target⟩

/-- An aligned address has no low bits. -/
theorem and_not_fifteen {x : UInt64} (h : x.toNat % 16 = 0) : x &&& ~~~15 = x := by
  obtain ⟨k, hk⟩ := Nat.dvd_of_mod_eq_zero h
  apply UInt64.toBitVec_inj.1
  ext i hi
  have hx : x.toBitVec[i] = (decide (4 ≤ i) && k.testBit (i - 4)) := by
    rw [← BitVec.getLsbD_eq_getElem, BitVec.getLsbD, UInt64.toNat_toBitVec, hk, show 16 * k = 2 ^ 4 * k from rfl,
      Nat.testBit_two_pow_mul]
  have hmask : (15 : UInt64).toBitVec[i] = decide (i < 4) := by
    rw [← BitVec.getLsbD_eq_getElem, BitVec.getLsbD]
    exact Nat.testBit_two_pow_sub_one 4 i
  simp only [UInt64.toBitVec_and, UInt64.toBitVec_not, BitVec.getElem_and, BitVec.getElem_not, hx, hmask]
  by_cases hlow : i < 4
  · simp [hlow]
  · simp [hlow]

/-- The stack of a child: a page below the end of the region. -/
theorem childStack_eq (haligned : base.toNat % pageSize = 0) :
    (base + bootstrapSize - pageBytes) &&& ~~~15 = base + .ofNat stackOffset := by
  have hpage : pageSize = 4096 := rfl
  have hstack : stackOffset = 2101248 := rfl
  have hbase := base.toNat_lt
  have hsub : base + bootstrapSize - pageBytes = base + .ofNat stackOffset := by
    rw [show bootstrapSize = .ofNat stackOffset + pageBytes from rfl, ← UInt64.add_assoc]
    exact UInt64.add_sub_cancel _ _
  rw [hsub]
  have hmod : (base + .ofNat stackOffset).toNat % 16 = 0 := by
    rw [hpage] at haligned
    rw [UInt64.toNat_add, UInt64.toNat_ofNat']
    omega
  exact and_not_fifteen hmod

/-- What the children have called, behind what there was before. -/
inductive Launches (kernel : Kernel κ Amd64Registers) (options : Options) (dlopen : RemoteSymbol)
    (before : List Event) :
    List Event → Prop
  | intro {schedule : RemoteSymbol} {entry entry' : Amd64Registers} {m m' : Memory} {handle : UInt64}
    (found : FoundSchedule kernel options.agentPath schedule) (opened : DlopenCall dlopen options.agentPath entry m)
    (handle_ne : handle ≠ 0) (scheduled : ScheduleCall schedule options.socketPath options.nonce entry' m') :
    Launches kernel options dlopen before
      (before ++ [.called entry m, .returned handle] ++ [.called entry' m', .returned 0])

section

variable (hkernel : kernel.Drives world text) (hprompt : kernel.Prompt world) (hlocates : kernel.Locates world text)
  (hpath : 0 ∉ options.agentPath) (hsocket : 0 ∉ options.socketPath) (hnonce : 0 ∉ options.nonce)
include hkernel hprompt hlocates hpath hsocket hnonce

omit hpath in
/-- `Inject` behind the result of `dlopen`. -/
theorem yields_schedule (haligned : base.toNat % pageSize = 0) {dlopen : RemoteSymbol} {entry : Amd64Registers}
    {m : Memory}
    {handle : UInt64} (hhandle : handle ≠ 0) (hopened : DlopenCall dlopen options.agentPath entry m)
    (cloneAddress : UInt64) :
    Yields (Seen world ghost (Settled ghost.regs (Fresh text base (events ++ [.called entry m, .returned handle]))))
      (do
        let loadedMaps ← readMappings kernel options.pid
        let schedule ← within "resolve pydump_schedule"
          (searched kernel fun files => findSymbolInPath files loadedMaps options.agentPath "pydump_schedule")
        let scheduleData ← block (scheduleArguments schedule.address base options.socketPath options.nonce)
        within "write schedule arguments" (writeTarget kernel base scheduleData)
        let status ← runClone kernel (Amd64.platform kernel options.pid) options "start schedule thread"
          "schedule clone returned" (within "wait for Agent schedule") cloneAddress (base + .ofNat pageSize)
          (base + .ofNat stackOffset) base scheduleShellcode
        if status ≠ 0 then raise s!"pydump_schedule returned {status.toNat}" else pure ())
      fun _ => Seen world { ghost with bootstrapInUse := false }
        (Settled ghost.regs fun t => ∃ events', Launches kernel options dlopen events events' ∧
          Fresh text base events' t) := by
  refine (yields_readMappings fun s content s' hP hrun => hP.turns fresh_enduring (hkernel.readMaps _ _ _ hrun)).bind
    fun loadedMaps => ?_
  refine (yields_searched _).wrapping_const.bind fun schedule => ?_
  refine Ensures.mono (P := fun t => Seen world ghost (Settled ghost.regs
      (Fresh text base (events ++ [.called entry m, .returned handle]))) t ∧
      FoundSchedule kernel options.agentPath schedule ∧ ¬Inside base schedule.address)
        (Ensures.assuming fun hfound => ?_)
    (fun t h => ⟨h.1.1, ?_⟩) (fun _ _ => id) fun _ _ => id
  · refine yields_block.bind fun scheduleData => Ensures.assuming fun hdata => ?_
    refine (yields_writeBlock hkernel (scheduleArguments_length hdata)).wrapping_const.bind fun _ => ?_
    refine (yields_runClone hkernel hprompt (schedule_shell hsocket hnonce hdata hfound.2) "start schedule thread"
      "schedule clone returned" Ensures.wrapping_const cloneAddress).bind fun status =>
        yields_ite_raise fun hstatus => ?_
    refine Ensures.pure fun t h => ⟨h.frame, h.view.mode, ?_⟩
    obtain ⟨entry', m', hcalled, hfresh⟩ := h.view.target
    rw [not_not.1 hstatus] at hfresh
    exact ⟨_, .intro hfound.1 hopened hhandle (scheduleCall_of_called haligned hsocket hnonce hdata hcalled), hfresh⟩
  · obtain ⟨⟨hseen, s, content, hmaps, rfl⟩, hfind⟩ := h
    refine ⟨⟨s, content, t.system, hmaps, hfind⟩, fun hinside => ?_⟩
    obtain ⟨part, -, hquiet⟩ := hseen.view.target
    refine hlocates.schedule s content t.system _ _ hmaps hfind ?_
    rw [hquiet.mapping]
    exact hinside

/-- `bootstrap` runs `dlopen` in a clone. -/
theorem yields_bootstrap (haligned : base.toNat % pageSize = 0)
    (hcode : ∀ i < Amd64.syscallStub.length, ghost.code + .ofNat i ∈ text)
    {dlopen : RemoteSymbol} (houtside : ¬Inside base dlopen.address) (clone : RemoteSymbol) :
    Yields (Seen world ghost (Settled ghost.regs (Fresh text base events)))
      (bootstrap kernel (Amd64.platform kernel options.pid) options base dlopen clone)
      fun _ => Seen world { ghost with stackTop := base + bootstrapSize, bootstrapInUse := false }
        (Settled ghost.regs fun t => ∃ events', Launches kernel options dlopen events events' ∧
          Fresh text base events' t) := by
  let raised : Tracee κ Amd64Registers := { ghost with stackTop := base + bootstrapSize }
  have hcode : ∀ i < Amd64.syscallStub.length, raised.code + .ofNat i ∈ text := hcode
  have hprotect : Yields (Seen world raised (Settled raised.regs (Fresh text base events)))
      (mprotect kernel Amd64.arch options.pid (base + pageBytes) pageBytes (protRead ||| protExec))
      fun _ => Seen world raised (Settled raised.regs (Fresh text base events)) := yields_mprotect hkernel hcode _ _ _
  have hwrite : ∀ data : List UInt8, data.length ≤ pageSize →
      Yields (Seen world raised (Settled raised.regs (Fresh text base events))) (writeTarget kernel base data)
        fun _ => Seen world raised (Settled raised.regs (Written text base data events)) := fun data hlen =>
    yields_writeBlock hkernel hlen
  refine Ensures.bind (Q := fun _ => Seen world raised (Settled raised.regs (Fresh text base events)))
    (Ensures.modify fun t h => ⟨by rw [h.frame], h.view⟩) fun _ => ?_
  refine hprotect.wrapping_const.bind fun _ => yields_block.bind fun arguments => Ensures.assuming fun hdata => ?_
  refine (hwrite arguments (dlopenArguments_length hdata)).wrapping_const.bind fun _ => yields_get_bind fun t ht => ?_
  have htop : t.stackTop = base + bootstrapSize := by rw [ht]
  have hshell := dlopen_shell hpath hdata houtside
  have hclone : Yields (Seen world raised (Settled raised.regs (Written text base arguments events)))
      (runClone kernel (Amd64.platform kernel options.pid) options "start dlopen thread" "clone returned" id
        clone.address
        (base + .ofNat pageSize) (base + .ofNat stackOffset) base dlopenShellcode)
      fun value => Seen world { raised with bootstrapInUse := false }
        (Settled raised.regs (Ended text base arguments _ events value)) :=
    yields_runClone hkernel hprompt hshell "start dlopen thread" "clone returned" (fun h => h) clone.address
  dsimp only
  rw [htop, childStack_eq haligned, pageBytes_eq]
  refine hclone.bind fun handle => yields_ite_raise fun hhandle => ?_
  refine Ensures.mono (P := fun t => ∃ entry m, Seen world { raised with bootstrapInUse := false }
      (Settled ghost.regs (Fresh text base (events ++ [.called entry m, .returned handle]))) t ∧
      DlopenCall dlopen options.agentPath entry m) (Ensures.choosing fun entry => Ensures.choosing fun m =>
        Ensures.assuming fun hopened => ?_) (fun t h => ?_) (fun _ _ => id) fun _ _ => id
  · exact yields_schedule hkernel hprompt hlocates hsocket hnonce haligned hhandle hopened clone.address
  · obtain ⟨entry, m, hcalled, hfresh⟩ := h.view.target
    exact ⟨entry, m, ⟨h.frame, h.view.mode, hfresh⟩, dlopenCall_of_called haligned hpath hdata hcalled⟩

/-- `injectAttached` runs both clones, one behind the other. -/
theorem yields_injectAttached (hcode : ∀ i < Amd64.syscallStub.length, ghost.code + .ofNat i ∈ text)
    {dlopen : RemoteSymbol} (htext : dlopen.address ∈ text) (clone : RemoteSymbol) :
    Yields (Seen world ghost (Settled ghost.regs (Quiet text none nothing events)))
      (injectAttached kernel (Amd64.platform kernel options.pid) options dlopen clone)
      fun _ t => ∃ ghost', Seen world ghost' (Settled ghost'.regs fun t =>
        ∃ events', Launches kernel options dlopen events events' ∧ Quiet text none nothing events' t) t := by
  refine (yields_mmap hkernel hcode).wrapping_const.bind fun base => Ensures.assuming fun haligned => ?_
  refine (yields_setInUse false).bind fun _ => ?_
  refine Ensures.mono (P := fun t => Seen world { ghost with bootstrapInUse := false }
      (Settled ghost.regs (Fresh text base events)) t ∧ ¬Inside base dlopen.address)
        (Ensures.assuming fun houtside => ?_)
    (fun t h => ⟨h, ?_⟩) (fun _ _ => id) fun _ _ => id
  · let ready : Tracee κ Amd64Registers := { ghost with bootstrapInUse := false }
    let raised : Tracee κ Amd64Registers := { ready with stackTop := base + bootstrapSize }
    have hcode : ∀ i < Amd64.syscallStub.length, ready.code + .ofNat i ∈ text := hcode
    have hbootstrap : Yields (Seen world ready (Settled ready.regs (Fresh text base events)))
        (bootstrap kernel (Amd64.platform kernel options.pid) options base dlopen clone)
        fun _ => Seen world raised (Settled raised.regs fun t =>
          ∃ events', Launches kernel options dlopen events events' ∧ Fresh text base events' t) :=
      yields_bootstrap hkernel hprompt hlocates hpath hsocket hnonce haligned hcode houtside clone
    refine Yields.closing hbootstrap fun _ => yields_get_bind fun t ht => ?_
    have hfree : t.bootstrapInUse = false := by rw [ht]
    rw [hfree, if_neg (by decide)]
    refine Ensures.mono (P := fun t => ∃ events', Seen world raised (Settled raised.regs (Fresh text base events')) t ∧
        Launches kernel options dlopen events events')
          (Ensures.choosing fun events' => Ensures.assuming fun hlaunches => ?_)
      (fun t h => ?_) (fun _ _ => id) fun _ _ => id
    · have hcode : ∀ i < Amd64.syscallStub.length, raised.code + .ofNat i ∈ text := hcode
      refine (yields_munmap hkernel hcode).wrapping_const.mono (fun _ => id) (fun _ t h => ?_) fun _ _ => id
      exact ⟨raised, h.frame, h.view.mode, events', hlaunches, h.view.target⟩
    · obtain ⟨events', hlaunches, hfresh⟩ := h.view.target
      exact ⟨events', ⟨h.frame, h.view.mode, hfresh⟩, hlaunches⟩
  · obtain ⟨part, -, hquiet⟩ := h.view.target
    exact hquiet.apart _ htext

end

/-! ### Attaching and detaching -/

/-- The traced thread does not run for the helper. -/
structure Idle (B : Target → Prop) (w : World) : Prop where
  mode : ∀ regs, w.mode ≠ .running regs
  target : B w.target

/-- An idle thread stays idle. -/
theorem Idle.turns {B : Target → Prop} {w w' : World} (hB : Enduring text B) (h : Idle B w)
    (hturns : World.Turns text w w') :
    Idle B w' := by
  induction hturns with
  | refl => exact h
  | tail _ hturn ih =>
    obtain ⟨hmode, htarget⟩ := ih
    cases hturn with
    | tasks turn => exact ⟨hmode, hB.turn htarget turn⟩
    | runs | calls | traps | stops => exact absurd rfl (hmode _)
    | attached => exact ⟨nofun, htarget⟩

variable {B : Target → Prop}

/-- `awaitStop` settles the thread. -/
theorem yields_awaitStop (hkernel : kernel.Drives world text) (hB : Enduring text B) :
    Yields (Seen world ghost (Idle B)) (awaitStop kernel options.pid)
      fun _ t => ∃ regs, Seen world { ghost with regs := regs } (Settled regs B) t := by
  refine Ensures.bind (Q := fun status => Seen world ghost fun w => Idle B w ∧ (stopped status → w.mode.halted.isSome))
    (Ensures.wrapping_const (yields_call fun s status s' hP hrun => ?_)) fun status =>
      yields_ite_raise fun hstopped => ?_
  · exact ⟨hP.turns hB (hkernel.wait s status s' hrun), hkernel.waited s status s' hrun⟩
  refine Ensures.bind (Q := fun regs => Seen world ghost (Settled regs B))
    (Ensures.wrapping_const (yields_call fun s regs s' hP hrun => ?_)) fun regs =>
      Ensures.modify fun t h => ⟨regs, by rw [h.frame], h.view⟩
  obtain ⟨hturns, hmode⟩ := hkernel.getRegisters s regs s' hrun
  exact ⟨hmode, (hP.1.turns hB hturns).target⟩

/-- `attach` settles the thread. -/
theorem yields_attach (hkernel : kernel.Drives world text) (hB : Enduring text B) :
    Yields (Seen world ghost (Idle B)) (attach kernel options.pid)
      fun _ t => ∃ regs, Seen world { ghost with attached := true, regs := regs } (Settled regs B) t := by
  let held : Tracee κ Amd64Registers := { ghost with attached := true }
  have hawait : Yields (Seen world held (Idle B)) (awaitStop kernel options.pid)
      fun _ t => ∃ regs, Seen world { held with regs := regs } (Settled regs B) t := yields_awaitStop hkernel hB
  refine Ensures.bind (Q := fun _ => Seen world ghost (Idle B))
    (Ensures.wrapping_const (yields_call fun s a s' hP hrun => hP.turns hB (hkernel.attach s s' hrun))) fun _ => ?_
  refine Ensures.bind (Q := fun _ => Seen world held (Idle B)) (Ensures.modify fun t h => ⟨by rw [h.frame], h.view⟩)
    fun _ => ?_
  refine hawait.deferred (fun _ => Ensures.pure fun t h => h) fun e => Yields.of_returns fun s a s' _ hrun => ?_
  simp only [abandon, outcome] at hrun
  split at hrun <;> cases hrun

/-- `resolve` leaves the thread as it is and finds `dlopen`. -/
theorem yields_resolve (hkernel : kernel.Drives world text) (hB : Enduring text B) :
    Yields (Seen world ghost (Idle B)) (resolve kernel (Amd64.platform kernel options.pid) options)
      fun found t => Seen world ghost (Idle B) t ∧ FoundDlopen kernel found.1 := by
  refine yields_ite_raise fun _ => ?_
  refine (yields_readMappings fun s content s' hP hrun => hP.turns hB (hkernel.readMaps _ _ _ hrun)).bind fun maps => ?_
  refine (yields_searched _).wrapping_const.bind fun dlopen => ?_
  refine Ensures.bind (Q := fun _ t => Seen world ghost (Idle B) t ∧ FoundDlopen kernel dlopen)
    (Ensures.wrapping_const (Ensures.pure fun t h => ?_)) fun clone => Ensures.pure fun t h => h
  obtain ⟨⟨hseen, s, content, hmaps, rfl⟩, hfind⟩ := h
  exact ⟨hseen, s, content, t.system, hmaps, hfind⟩

/-- `detach` leaves the process as it is. -/
theorem yields_detach (hkernel : kernel.Drives world text) (hB : Enduring text B) :
    Yields (Seen world ghost (Settled ghost.regs B)) (detach kernel options.pid) fun _ t =>
      B (world t.system).target := by
  refine Ensures.get_bind fun s hs => Ensures.ite (fun _ => ?_) fun _ => Ensures.pure fun t ht => ?_
  · refine Ensures.bind (Q := fun _ t => B (world t.system).target) (Ensures.wrapping_const
      (ensures_call (fun t a s' ht hrun => ?_) fun _ _ _ _ _ => trivial)) fun _ => Ensures.modify fun t h => h
    subst ht
    obtain ⟨w, hto, hfrom⟩ := hkernel.detach _ _ hrun
    have hfree : Idle B ⟨.free, w.target⟩ := ⟨nofun, (hs.view.turns hB hto).target⟩
    exact (hfree.turns hB hfrom).target
  · subst ht
    exact hs.view.target

/-- **What `Inject` has done where it returns without an error.** -/
theorem inject_launches (hkernel : kernel.Drives world text) (hprompt : kernel.Prompt world)
    (hlocates : kernel.Locates world text) (hpath : 0 ∉ options.agentPath) (hsocket : 0 ∉ options.socketPath)
    (hnonce : 0 ∉ options.nonce) {t t' : Tracee κ Amd64Registers} (hfree : (world t.system).mode = .free)
    (hregion : (world t.system).target.region = none) (hchildren : (world t.system).target.children = [])
    (hrun : outcome (inject kernel (Amd64.platform kernel options.pid) options) t = (.ok (), t')) :
    ∃ dlopen, FoundDlopen kernel dlopen ∧
      Launches kernel options dlopen (world t.system).target.events (world t'.system).target.events ∧
      (world t'.system).target.children = [] ∧ (world t'.system).target.region = none := by
  let events := (world t.system).target.events
  have hquiet : Enduring text (Quiet text none nothing events) := quiet_enduring
  have hinject : Yields (Seen world t (Idle (Quiet text none nothing events)))
      (inject kernel (Amd64.platform kernel options.pid) options) fun _ t => ∃ dlopen, FoundDlopen kernel dlopen ∧
        ∃ events', Launches kernel options dlopen events events' ∧
          Quiet text none nothing events' (world t.system).target := by
    refine Ensures.bind (Q := fun found t => (∃ ghost,
      Seen world ghost (Settled ghost.regs (Quiet text none nothing events)) t ∧
      ghost.code = found.1.entry) ∧ FoundDlopen kernel found.1) ?_ fun found => Ensures.assuming fun hfound =>
        Ensures.choosing fun ghost => Ensures.assuming fun hentry => ?_
    · refine (yields_resolve hkernel hquiet).bind fun found => Ensures.assuming fun hfound => ?_
      let entered : Tracee κ Amd64Registers := { t with code := found.1.entry, stackTop := 0, attached := false }
      have hattach : Yields (Seen world entered (Idle (Quiet text none nothing events))) (attach kernel options.pid)
          fun _ s => ∃ regs, Seen world { entered with attached := true, regs := regs }
            (Settled regs (Quiet text none nothing events)) s := yields_attach hkernel hquiet
      refine Ensures.bind (Q := fun _ => Seen world entered (Idle (Quiet text none nothing events)))
        (Ensures.modify fun s h => ⟨by rw [h.frame], h.view⟩) fun _ => ?_
      refine hattach.bind fun _ => Ensures.pure fun s h => ?_
      obtain ⟨regs, hseen⟩ := h
      exact ⟨⟨_, hseen, rfl⟩, hfound⟩
    · obtain ⟨s, content, s', hmaps, hfind⟩ := hfound
      obtain ⟨htext, hcode⟩ := hlocates.dlopen s content s' found.1 hmaps hfind
      rw [← hentry] at hcode
      refine Yields.closing (yields_injectAttached hkernel hprompt hlocates hpath hsocket hnonce hcode htext found.2)
        fun _ =>
        Ensures.choosing fun ghost' => ?_
      refine (yields_detach hkernel (Enduring.exists fun events' => quiet_enduring.given _)).mono (fun _ => id)
        (fun _ t h => ⟨found.1, ⟨s, content, s', hmaps, hfind⟩, h⟩) fun _ _ => id
  have hstart : Seen world t (Idle (Quiet text none nothing events)) t :=
    ⟨rfl, ⟨fun regs hmode => (nofun : Mode.free ≠ .running regs) (hfree.symm.trans hmode),
      ⟨hregion, fun _ _ => id, restrict_own_none _, hchildren, rfl⟩⟩⟩
  obtain ⟨dlopen, hfound, events', hlaunches, hend⟩ := hinject.returns t () t' hstart hrun
  rw [hend.history]
  exact ⟨dlopen, hfound, hlaunches, hend.no_child, hend.mapping⟩

end

/-! ### A machine -/

/-- A function, again and again as long as it has a value. -/
def Machine.follow {α : Type} (next : α → Option α) : ℕ → α → α
  | 0, a => a
  | fuel + 1, a =>
    match next a with
    | some b => follow next fuel b
    | none => a

namespace Machine

def inside (region : Option UInt64) (x : UInt64) : Bool :=
  match region with
  | some base => (x - base).toNat < bootstrapSize.toNat
  | none => false

/-- `dlopen` returns 1 and `pydump_schedule` returns 0, to where they were called from. -/
def comeBack (m : Memory) (entry : Amd64Registers) : Option Amd64Registers :=
  (X64.loadWord m 8 (entry.get .rsp)).map fun address =>
    ((entry.set .rsp (entry.get .rsp + 8)).set .rax (if entry.rip = 0x7F0000000200 then 1 else 0)).goto address

/-- The next turn of the only child. -/
def childTurn (t : Target) : Option Target :=
  match t.children with
  | [.running returned regs] =>
    if inside t.region regs.rip then
      match X64.step t.memory regs with
      | .runs after m => some { t with memory := m, children := [.running returned after] }
      | .calls after => if after.get .rax = 60 then some { t with children := [] } else none
      | _ => none
    else if returned then none
    else some { t with children := [.calling regs], events := t.events ++ [.called regs t.memory] }
  | [.calling entry] =>
    (comeBack t.memory entry).map fun after =>
      { t with children := [.running true after], events := t.events ++ [.returned (after.get .rax)] }
  | _ => none

/-- A system call of the traced thread. -/
def answer (regs : Amd64Registers) (t : Target) : Amd64Registers × Target :=
  if regs.get .rax = 9 ∧ regs.get .rsi = bootstrapSize ∧ t.region = none then
    (regs.set .rax Simulated.region, { t with
      memory := fun x => if inside (some Simulated.region) x then some 0 else t.memory x
      region := some Simulated.region })
  else if regs.get .rax = 10 then (regs.set .rax 0, t)
  else if regs.get .rax = 11 ∧ t.region = some (regs.get .rdi) ∧ regs.get .rsi = bootstrapSize then
    (regs.set .rax 0, { t with region := none })
  else if regs.get .rax = Amd64.SYS_CLONE ∧ regs.get .rdi = cloneVM then
    (regs.set .rax 2, { t with children := t.children ++
      [.running false ((regs.set .rsp (regs.get .rsi)).set .rax 0)] })
  else (regs.set .rax 0xFFFFFFFFFFFFFFFF, t)

/-- The next turn of the traced thread. -/
def threadTurn (w : World) : Option World :=
  match w.mode with
  | .running regs =>
    match X64.step w.target.memory regs with
    | .runs after m => some ⟨.running after, { w.target with memory := m }⟩
    | .calls behind => some ⟨.running (answer behind w.target).1, (answer behind w.target).2⟩
    | .traps behind => some ⟨.trapped behind, w.target⟩
    | .faults => none
  | _ => none

/-- Between two calls of the kernel there is no child that has begun. -/
def resting (w : World) : Bool :=
  (w.target.region.all fun base => base = Simulated.region) &&
    match w.target.children with
    | [] | [.running false _] => true
    | _ => false

end Machine

/-- A process and the symbols of its files, for the kernel to act on. -/
structure Machine where
  world : World
  rests : Machine.resting world = true

namespace Machine

/-- The answer, where the kernel can go on from there. -/
def reply {α : Type} (s : Machine) (a : α) (w : World) : Except Failure α × Machine :=
  if h : resting w then (.ok a, ⟨w, h⟩) else (.error (.errno 3), s)

def refuse {α : Type} (s : Machine) : Except Failure α × Machine := (.error (.errno 3), s)

/-- The registers that the thread is stopped with. -/
def first : Amd64Registers :=
  ⟨1, 2, 3, 4, 5, 6, 7, 8, 9, 10, 11, 12, 13, 14, 15, 16, 17, 18, 19, 20, 21, 22, 23, 24, 25, 26, 27⟩

/-- A kernel that runs the process between two calls. -/
def kernel : Kernel Machine Amd64Registers where
  readMaps s := (.ok (Utf8.encode Simulated.maps), s)
  elfFile _ := Simulated.elfFile
  attach s :=
    match s.world.mode with
    | .free => reply s () ⟨.stopped first, s.world.target⟩
    | _ => refuse s
  wait s :=
    match s.world.mode with
    | .stopped _ => (.ok 0x137F, s)
    | .trapped _ => (.ok 0x057F, s)
    | _ => refuse s
  getRegisters s :=
    match s.world.mode.halted with
    | some regs => (.ok regs, s)
    | none => refuse s
  setRegisters regs s :=
    match s.world.mode.halted with
    | some _ => reply s () ⟨.stopped regs, s.world.target⟩
    | none => refuse s
  cont s :=
    match s.world.mode.halted with
    | some regs => reply s () (follow threadTurn 8 ⟨.running regs, s.world.target⟩)
    | none => refuse s
  peek address n s :=
    match ByteMemory.read s.world.target.memory address n with
    | some data => (.ok data, s)
    | none => refuse s
  poke address data s :=
    match ByteMemory.read s.world.target.memory address data.length with
    | some _ =>
      reply s () ⟨s.world.mode, { s.world.target with memory := ByteMemory.write s.world.target.memory address data }⟩
    | none => refuse s
  detach s := reply s () ⟨.free, s.world.target⟩
  early s := (true, s)
  sleep s := (reply s () ⟨s.world.mode, follow childTurn 32 s.world.target⟩).2

/-- The helper before its first call. -/
def start : Tracee Machine Amd64Registers :=
  ⟨⟨⟨.free, ⟨fun _ => some 7, none, [], []⟩⟩, rfl⟩, 0, 0, first, false, false⟩

/-- The text of the libc. -/
def libc : Set UInt64 := {x | (x - 0x7F0000000000).toNat < 0x1000}

variable {text : Set UInt64}

/-- To follow a function is a run of its steps. -/
theorem follow_turns {α : Type} {next : α → Option α} {R : α → α → Prop} (h : ∀ a b, next a = some b → R a b) (fuel : ℕ)
    (a : α) :
    Relation.ReflTransGen R a (follow next fuel a) := by
  induction fuel generalizing a with
  | zero => exact Relation.ReflTransGen.refl
  | succ fuel ih =>
    rw [follow]
    split
    · next b hb => exact Relation.ReflTransGen.head (h a b hb) (ih b)
    · exact Relation.ReflTransGen.refl

/-- The test for the region. -/
theorem inside_iff {region : Option UInt64} {x : UInt64} : inside region x = true ↔ x ∈ own region := by
  cases region with
  | none => simp [inside, own]
  | some base => simp [inside, own, Inside]

/-- A function that comes back has returned. -/
theorem returns_of_comeBack {m : Memory} {entry after : Amd64Registers} (h : comeBack m entry = some after) :
    Returns m entry after := by
  obtain ⟨address, hload, rfl⟩ := Option.map_eq_some_iff.1 h
  refine ⟨by rw [hload, X64.Registers.rip_goto], by simp, fun register hregister => ?_⟩
  simp only [List.mem_cons, List.not_mem_nil, or_false] at hregister
  rcases hregister with rfl | rfl | rfl | rfl | rfl | rfl <;> simp

/-- A turn of the child is a turn. -/
theorem turn_of_childTurn {t t' : Target} (h : childTurn t = some t') : t.Turn text t' := by
  unfold childTurn at h
  split at h
  · next returned regs hchildren =>
    have hchild : t.children = [] ++ .running returned regs :: [] := hchildren
    split_ifs at h with hinside hreturned
    · split at h
      · next after m hstep =>
        cases h
        exact .runs hchild (inside_iff.1 hinside) hstep
      · next after hstep =>
        split_ifs at h with hnumber
        cases h
        exact .exits hchild (inside_iff.1 hinside) hstep hnumber
      · cases h
    · cases h
      obtain rfl : returned = false := by simpa using hreturned
      exact .calls hchild fun hown => hinside (inside_iff.2 hown)
  · next entry hchildren =>
    obtain ⟨after, hback, rfl⟩ := Option.map_eq_some_iff.1 h
    have hchild : t.children = [] ++ .calling entry :: [] := hchildren
    exact .returns hchild (returns_of_comeBack hback)
  · cases h

/-- An answer in `%rax` is an answer. -/
theorem answers_set (regs : Amd64Registers) (value : UInt64) : Answers regs value (regs.set .rax value) :=
  ⟨X64.Registers.rip_set _ _ _, by simp, fun register hregister => by
    rw [X64.Registers.get_set, if_neg]
    rintro rfl
    exact hregister (by decide)⟩

/-- The libc is not in the region. -/
theorem far_of_libc {x : UInt64} (h : x ∈ libc) : x ∉ own (some Simulated.region) := by
  have hregion : Simulated.region.toNat = 0x10000 := rfl
  have hlibc : (0x7F0000000000 : UInt64).toNat = 0x7F0000000000 := rfl
  have hsize : bootstrapSize.toNat = 2105344 := rfl
  have hx := x.toNat_lt
  intro hown
  have hinside : (x - Simulated.region).toNat < bootstrapSize.toNat := hown
  simp only [libc, Set.mem_ofPred_eq, UInt64.toNat_sub, hlibc] at h
  rw [UInt64.toNat_sub, hregion, hsize] at hinside
  omega

/-- What the simulated kernel answers is a system call. -/
theorem syscall_answer (regs : Amd64Registers) (t : Target) :
    Syscall libc regs t (answer regs t).1 (answer regs t).2 := by
  unfold answer
  split_ifs with hmmap hmprotect hmunmap hclone
  · refine .mmap hmmap.1 hmmap.2.1 hmmap.2.2 (by decide) (fun x => far_of_libc) (fun i hi => ?_) (fun x hx => ?_)
      (answers_set _ _)
    · have hin : inside (some Simulated.region) (Simulated.region + .ofNat i) = true := by
        rw [inside_iff]
        change (Simulated.region + .ofNat i - Simulated.region).toNat < bootstrapSize.toNat
        have hsize : bootstrapSize.toNat < 2 ^ 64 := bootstrapSize.toNat_lt
        rwa [toNat_sub_base _ (by omega)]
      rw [if_pos hin]
      rfl
    · rw [if_neg fun hin => hx (inside_iff.1 hin)]
  · exact .mprotect hmprotect (answers_set _ _)
  · exact .munmap hmunmap.1 hmunmap.2.1 hmunmap.2.2 (fun _ _ => rfl) (answers_set _ _)
  · exact .clone hclone.1 hclone.2 (by decide) (answers_set _ _) (answers_set _ _)
  · exact .fails (answers_set _ _) ⟨by decide, by decide⟩

/-- A turn of the thread is a turn. -/
theorem turn_of_threadTurn (w w' : World) (h : threadTurn w = some w') : World.Turn libc w w' := by
  obtain ⟨mode, t⟩ := w
  unfold threadTurn at h
  split at h
  · next regs hmode =>
    dsimp only at hmode
    subst hmode
    split at h
    · next hstep =>
      cases h
      exact .runs hstep
    · next hstep =>
      cases h
      exact .calls hstep (syscall_answer _ _)
    · next hstep =>
      cases h
      exact .traps hstep
    · cases h
  · cases h

/-- Where the kernel replies, the world is the one that it replies with. -/
theorem eq_of_reply {α : Type} {s s' : Machine} {a b : α} {w : World} (h : reply s a w = (.ok b, s')) :
    a = b ∧ s'.world = w := by
  unfold reply at h
  split_ifs at h
  · cases h
    exact ⟨rfl, rfl⟩
  · cases h

/-- A refusal is no answer. -/
theorem not_refuse {α : Type} {s s' : Machine} {a : α} : refuse s ≠ (.ok a, s') := nofun

/-- Turns of the children are turns. -/
theorem turns_of_children (mode : Mode) {t t' : Target} (h : Relation.ReflTransGen (Target.Turn text) t t') :
    World.Turns text ⟨mode, t⟩ ⟨mode, t'⟩ := by
  induction h with
  | refl => exact Relation.ReflTransGen.refl
  | tail _ hturn ih => exact ih.tail (.tasks hturn)

/-- The simulated kernel drives its process. -/
theorem drives : kernel.Drives Machine.world libc where
  readMaps s content s' h := by
    obtain ⟨-, rfl⟩ := Prod.mk.inj h
    exact Relation.ReflTransGen.refl
  attach s s' h := by
    simp only [kernel] at h
    split at h
    · next hmode =>
      have hfree : s.world = ⟨.free, s.world.target⟩ := by rw [← hmode]
      rw [(eq_of_reply h).2, hfree]
      exact Relation.ReflTransGen.single .attached
    · exact absurd h not_refuse
  wait s status s' h := by
    simp only [kernel] at h
    split at h <;> cases h <;> exact Relation.ReflTransGen.refl
  waited s status s' h hstopped := by
    simp only [kernel] at h
    split at h
    · next hmode =>
      cases h
      rw [hmode]
      rfl
    · next hmode =>
      cases h
      rw [hmode]
      rfl
    · cases h
  trapped s status s' h hsignal := by
    simp only [kernel] at h
    split at h
    · cases h
      exact absurd hsignal (by decide)
    · next regs hmode =>
      cases h
      exact ⟨regs, hmode⟩
    · cases h
  getRegisters s regs s' h := by
    simp only [kernel] at h
    split at h
    · next hmode =>
      cases h
      exact ⟨Relation.ReflTransGen.refl, hmode⟩
    · cases h
  setRegisters regs s s' h := by
    simp only [kernel] at h
    split at h
    · next hmode =>
      rw [(eq_of_reply h).2]
      exact ⟨_, Relation.ReflTransGen.refl, by rw [hmode]; rfl, Relation.ReflTransGen.refl⟩
    · exact absurd h not_refuse
  cont s s' h := by
    simp only [kernel] at h
    split at h
    · next regs hmode =>
      rw [(eq_of_reply h).2]
      exact ⟨_, regs, Relation.ReflTransGen.refl, hmode, follow_turns turn_of_threadTurn 8 _⟩
    · exact absurd h not_refuse
  peek address n s data s' h := by
    simp only [kernel] at h
    split at h
    · next hread =>
      cases h
      exact ⟨_, Relation.ReflTransGen.refl, hread, Relation.ReflTransGen.refl⟩
    · cases h
  poke address data s s' h := by
    simp only [kernel] at h
    split at h
    · next hread =>
      rw [(eq_of_reply h).2]
      exact ⟨_, Relation.ReflTransGen.refl, ByteMemory.mapped_of_read hread, Relation.ReflTransGen.refl⟩
    · exact absurd h not_refuse
  detach s s' h := by
    rw [(eq_of_reply h).2]
    exact ⟨_, Relation.ReflTransGen.refl, Relation.ReflTransGen.refl⟩
  early s := Relation.ReflTransGen.refl
  sleep s := by
    simp only [kernel, reply]
    split_ifs
    · exact turns_of_children s.world.mode (follow_turns (fun _ _ => turn_of_childTurn) 32 s.world.target)
    · exact Relation.ReflTransGen.refl

/-- The simulated kernel is prompt. -/
theorem prompt : kernel.Prompt Machine.world := by
  intro s hfinishing
  have hchildren : s.world.target.children = [] := by
    have hfits := s.rests
    simp only [resting, Bool.and_eq_true] at hfits
    split at hfits
    · next hnil => exact hnil
    · next regs hone =>
      rw [hone] at hfinishing
      obtain ⟨regs', hregs⟩ := hfinishing _ (List.mem_singleton.2 rfl)
      cases hregs
    · exact absurd hfits.2 (by decide)
  have hstays : follow childTurn 32 s.world.target = s.world.target := by
    rw [follow, childTurn, hchildren]
  simp only [kernel, reply, hstays]
  split_ifs <;> exact hchildren

/-- The simulated files locate the symbols. -/
theorem locates : kernel.Locates Machine.world libc where
  dlopen s content s' symbol h hfind := by
    obtain ⟨rfl, rfl⟩ : Utf8.encode Simulated.maps = content ∧ s = s' := by simpa [kernel] using h
    have hfound : findSymbol Simulated.elfFile (parseMappings (Utf8.encode Simulated.maps))
      ["dlopen", "__libc_dlopen_mode"] =
        .ok ⟨0x7F0000000200, 0x7F0000000100⟩ := by decide +kernel
    cases hfound.symm.trans hfind
    refine ⟨(by decide : (0x7F0000000200 - 0x7F0000000000 : UInt64).toNat < 0x1000), fun i hi => ?_⟩
    have hentry : ∀ i : Fin 3, (0x7F0000000100 + .ofNat i - 0x7F0000000000 : UInt64).toNat < 0x1000 := by decide
    exact hentry ⟨i, hi⟩
  schedule s content s' path symbol h hfind := by
    obtain ⟨rfl, rfl⟩ : Utf8.encode Simulated.maps = content ∧ s = s' := by simpa [kernel] using h
    have hagent : ∀ mapped ∈ uniquePaths (parseMappings (Utf8.encode Simulated.maps)),
        (symbolFromModule (Simulated.elfFile mapped) (parseMappings (Utf8.encode Simulated.maps)) mapped
          ["pydump_schedule"]).all fun symbol => symbol.address = 0x7F1000000300 := by decide +kernel
    have haddress : symbol.address = 0x7F1000000300 := by
      unfold findSymbolInPath at hfind
      dsimp only at hfind
      split at hfind
      · next found hfound =>
        cases hfind
        obtain ⟨mapped, hmapped, hmodule⟩ := List.exists_of_findSome?_eq_some hfound
        split_ifs at hmodule
        have hall := hagent mapped hmapped
        rw [show symbolFromModule (Simulated.elfFile mapped) _ mapped _ = some symbol from hmodule] at hall
        simpa using hall
      · cases hfind
    have hrests := s.rests
    simp only [resting, Bool.and_eq_true] at hrests
    rw [haddress]
    cases hregion : s.world.target.region with
    | none => exact id
    | some base =>
      rw [hregion] at hrests
      obtain rfl : base = Simulated.region := by simpa using hrests.1
      exact (by decide : ¬(0x7F1000000300 - Simulated.region).toNat < bootstrapSize.toNat)

/-- The simulated injection succeeds. -/
theorem runs : ∃ t', outcome (inject kernel (Amd64.platform kernel Simulated.options.pid) Simulated.options) start =
    (.ok (), t') := by
  have h : (match (outcome (inject kernel (Amd64.platform kernel Simulated.options.pid) Simulated.options) start).1 with
      | .ok _ => true
      | .error _ => false) = true := by decide +kernel
  rcases hrun : outcome (inject kernel (Amd64.platform kernel Simulated.options.pid) Simulated.options) start with
    ⟨result | _, t'⟩ <;> rw [hrun] at h
  · cases h
  · exact ⟨t', rfl⟩

end Machine

/-- The machine has called `dlopen` and `pydump_schedule` of its files. -/
theorem inject_launches_machine : ∃ t',
    outcome (inject Machine.kernel (Amd64.platform Machine.kernel Simulated.options.pid) Simulated.options)
      Machine.start =
      (.ok (), t') ∧
    ∃ dlopen, FoundDlopen Machine.kernel dlopen ∧
      Launches Machine.kernel Simulated.options dlopen [] t'.system.world.target.events ∧
      t'.system.world.target.children = [] ∧ t'.system.world.target.region = none := by
  obtain ⟨t', hrun⟩ := Machine.runs
  exact ⟨t', hrun, inject_launches Machine.drives Machine.prompt Machine.locates (by decide +kernel) (by decide +kernel)
    (by decide +kernel) rfl rfl rfl hrun⟩

end Injector
end Pydump
