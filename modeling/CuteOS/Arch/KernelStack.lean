/-
  Arch/KernelStack.lean --- the kernel stack that traps from user mode run on.

  Source: `.Lret_user` and `.Lfrom_user` of `arch/riscv/entry.S`, the stack size of
  `arch/riscv/include/arch/task.h` and `task_kernel_trap_frame` of
  `arch/riscv/include/arch/task_access.h`.  The assembly adds its own constant to
  `kstack`; the C side works with `KSTACK_SIZE`, which the buddy order fixes.  The
  order is a parameter here, so that the two can be compared.
-/
import CuteOS.Arch.Trap

set_option autoImplicit false

namespace CuteOS.Arch

open Lib.Rv64

/-- `ARCH_KSTACK_ORDER`. -/
def archKstackOrder : Nat := 2

/-- `KSTACK_SIZE` for stacks of a buddy order: `PAGE_SIZE << order`. -/
def kstackSize (order : Nat) : Nat := 4096 <<< order

/-- `task_kernel_trap_frame` of a task whose stack starts at `kstack`. -/
def taskKernelTrapFrame (order : Nat) (kstack : Word) : Word :=
  kstack + BitVec.ofNat 64 (kstackSize order) - trapFrameAllocSize

/-- The call of `trap_handler` in machine `c` runs on the whole stack at `kstack`: the
frame is the one that C code expects, inside the stack, and the rest of the stack
lies below it. -/
structure OnWholeStack (order : Nat) (kstack : Word) (c : Machine) : Prop where
  frame : c.get .a0 = taskKernelTrapFrame order kstack
  low : kstack.toNat ≤ (c.get .a0).toNat
  high : (c.get .a0).toNat + trapFrameAllocSize.toNat ≤ kstack.toNat + kstackSize order
  below : (c.get .sp).toNat - kstack.toNat = kstackSize order - trapFrameAllocSize.toNat

/-- A trap of `u` calls `trap_handler` in machine `c`, with the registers and CSRs of `u`
in the frame, and goes on at `__trapret` from what the handler leaves. -/
structure TrapCalls (img : Image) (stvec cause tval : Word) (u c : Machine) : Prop where
  run : ∀ trapHandler, takeTrap img trapHandler stvec cause tval u =
    ((entryCode img).run trapHandler 3 .trapret (trapHandler c)).map
      fun out => { out with calls := c :: out.calls }
  holds : FrameHolds c.mem (c.get .a0) u.get (u.trap stvec cause tval).csr

/-- Machine `m` at `__trapret` returns to user mode with the end of the current task's
stack in `sscratch`, and every next trap from user mode, whatever the user code did
before it, calls `trap_handler` on the whole stack. -/
def UsesWholeStack (img : Image) (order : Nat) (m : Machine) : Prop :=
  ∃ f, (∀ trapHandler, (entryCode img).run trapHandler 3 .trapret m =
      some { final := f, calls := [] }) ∧ f.mode = .user ∧
    f.csr .sscratch = currentKstack img m.mem + BitVec.ofNat 64 (kstackSize order) ∧
    ∀ u : Machine, u.mode = .user → u.csr .sscratch = f.csr .sscratch →
      ∀ stvec cause tval, ∃ c, TrapCalls img stvec cause tval u c ∧
        OnWholeStack order (currentKstack img m.mem) c

section Return

variable (img : Image) {order : Nat} {m : Machine}

/-- The next trap from user mode builds its frame below the address in `sscratch`. -/
theorem takeTrap_calls {u : Machine} (hscratch : u.csr .sscratch ≠ 0)
    (stvec cause tval : Word) : ∃ c, TrapCalls img stvec cause tval u c ∧
      c.get .a0 = u.csr .sscratch - trapFrameAllocSize ∧ c.get .sp = c.get .a0 := by
  obtain ⟨c, hentry, hentered⟩ := takeTrap_of_user img stvec cause tval hscratch
  have ha0 : ((c.set .a0 (c.get .sp)).set .ra img.afterCall).get .a0 =
      u.csr .sscratch - trapFrameAllocSize := by
    simp [hentered.sp]
  refine ⟨(c.set .a0 (c.get .sp)).set .ra img.afterCall, ⟨fun trapHandler => ?_, ?_⟩, ha0, ?_⟩
  · rw [hentry]
    exact Program.run_call _ _ rfl rfl
  · rw [ha0]
    exact hentered.holds
  · simp

theorem kstackSize_one : kstackSize 1 = 8192 := rfl

/-- A frame of a stack of order one, as `.Lfrom_user` places it. -/
theorem onWholeStack_one {kstack : Word} {c : Machine}
    (hfits : kstack.toNat + kstackSize 1 < 2 ^ 64)
    (ha0 : c.get .a0 = kstack + 8192 - trapFrameAllocSize) (hsp : c.get .sp = c.get .a0) :
    OnWholeStack 1 kstack c := by
  rw [kstackSize_one] at hfits
  have htop : (c.get .a0).toNat = kstack.toNat + (8192 - 288) := by
    rw [ha0, trapFrameAllocSize]
    bv_omega
  have halloc : trapFrameAllocSize.toNat = 288 := rfl
  refine ⟨ha0, ?_, ?_, ?_⟩
  · omega
  · rw [kstackSize_one]
    omega
  · rw [hsp, kstackSize_one]
    omega

variable (hspp : loadDword m.mem (field (m.get .sp) tfSstatus) &&& sppBit = 0)
include hspp

/-- Every machine at `__trapret` whose frame names user mode gets there, with the
constant of `.Lret_user` in `sscratch`. -/
theorem run_trapret_sscratch :
    ∃ f, (∀ trapHandler, (entryCode img).run trapHandler 3 .trapret m =
        some { final := f, calls := [] }) ∧ f.mode = .user ∧
      f.csr .sscratch = currentKstack img m.mem + 8192 := by
  -- the values that the frame holds, whatever code filled it
  let regs : Reg → Word := fun r => loadDword m.mem (field (m.get .sp) r.index)
  let csr : Csr → Word := fun c => loadDword m.mem
    (field (m.get .sp) (if c = .sepc then tfSepc else tfSstatus))
  have hm : Entered m (m.get .sp) regs csr := ⟨rfl, fun _ _ => rfl, rfl, rfl⟩
  obtain ⟨f, hrun, hresumed, hscratch⟩ := run_trapret_user img hm hspp
  refine ⟨f, fun trapHandler => hrun trapHandler 0, ?_, hscratch⟩
  rw [hresumed.mode]
  exact if_pos hspp

/-- The constant of the assembly is the size of a stack of order one. -/
theorem order_of_usesWholeStack
    (hfits : (currentKstack img m.mem).toNat + kstackSize order < 2 ^ 64)
    (huses : UsesWholeStack img order m) : order = 1 := by
  obtain ⟨f, hrun, -, hscratch, -⟩ := huses
  obtain ⟨f', hrun', -, hscratch'⟩ := run_trapret_sscratch img hspp
  obtain rfl : f = f' := by
    simpa using (hrun id).symm.trans (hrun' id)
  have hsame : BitVec.ofNat 64 (kstackSize order) = 8192 :=
    add_left_cancel (hscratch.symm.trans hscratch')
  have hsize : kstackSize order = 8192 := by
    have hnat := congrArg BitVec.toNat hsame
    rwa [BitVec.toNat_ofNat, Nat.mod_eq_of_lt (by omega)] at hnat
  rw [kstackSize, Nat.shiftLeft_eq] at hsize
  have hpow : 2 ^ order = 2 ^ 1 := by omega
  exact Nat.pow_right_injective (le_refl 2) hpow

/-- Traps from user mode use the whole kernel stack exactly when the stacks have order
one. -/
theorem usesWholeStack_iff
    (hfits : (currentKstack img m.mem).toNat + kstackSize order < 2 ^ 64) :
    UsesWholeStack img order m ↔ order = 1 := by
  refine ⟨order_of_usesWholeStack img hspp hfits, ?_⟩
  rintro rfl
  obtain ⟨f, hrun, hmode, hscratch⟩ := run_trapret_sscratch img hspp
  refine ⟨f, hrun, hmode, hscratch, fun u _ hu stvec cause tval => ?_⟩
  rw [hscratch] at hu
  have hne : u.csr .sscratch ≠ 0 := by
    rw [kstackSize_one] at hfits
    rw [hu]
    bv_omega
  obtain ⟨c, hcall, ha0, hsp⟩ := takeTrap_calls img hne stvec cause tval
  rw [hu] at ha0
  exact ⟨c, hcall, onWholeStack_one hfits ha0 hsp⟩

end Return

/-- A kernel about to return to user mode: the current task is at `0x80500000` and its
stack at `0x80600000`. -/
def returningMachine : Machine :=
  { kernelMachine with
    mem := storeDword (storeDword (fun _ => 0) 0x80400018 0x80500000) 0x80500078 0x80600000 }

theorem currentKstack_returningMachine :
    currentKstack sampleImage returningMachine.mem = 0x80600000 := by
  decide +kernel

theorem returningMachine_spp :
    loadDword returningMachine.mem (field (returningMachine.get .sp) tfSstatus) &&& sppBit = 0 := by
  decide +kernel

theorem usesWholeStack_order_one : UsesWholeStack sampleImage 1 returningMachine := by
  have hfits : (currentKstack sampleImage returningMachine.mem).toNat + kstackSize 1 < 2 ^ 64 := by
    rw [currentKstack_returningMachine]
    decide
  exact (usesWholeStack_iff sampleImage returningMachine_spp hfits).mpr rfl

/-- With the order that the kernel is built with, `sscratch` is the middle of the
stack. -/
theorem trapret_leaves_half_stack :
    kstackSize archKstackOrder = 16384 ∧
      currentKstack sampleImage returningMachine.mem = 0x80600000 ∧
      (∃ f, (entryCode sampleImage).run id 3 .trapret returningMachine =
        some { final := f, calls := [] } ∧ f.mode = .user ∧ f.csr .sscratch = 0x80602000) ∧
      ¬ UsesWholeStack sampleImage archKstackOrder returningMachine := by
  refine ⟨rfl, currentKstack_returningMachine, ?_, fun huses => ?_⟩
  · obtain ⟨f, hrun, hmode, hscratch⟩ := run_trapret_sscratch sampleImage returningMachine_spp
    rw [currentKstack_returningMachine] at hscratch
    exact ⟨f, hrun id, hmode, hscratch⟩
  · have hone := order_of_usesWholeStack sampleImage returningMachine_spp
      (by rw [currentKstack_returningMachine]; decide) huses
    exact absurd hone (by decide)

end CuteOS.Arch
