/-
  Arch/Trap.lean --- trap entry and exit.

  Source: `arch/riscv/entry.S` with the offsets of
  `arch/riscv/include/asm/asm_offsets.h`.  A `struct trap_frame` is a register
  image: register `xn` stands in its field `n`, `sepc` in the field of `x0`, and
  `scause`, `stval` and `sstatus` in the three fields after `x31`.

  The kernel half of the address space is mapped alike in every page table, so
  the write to `satp` on the way to user mode does not change the memory that the
  code reads.
-/
import CuteOS.Lib.Rv64

set_option autoImplicit false

namespace CuteOS.Arch

open Lib.Rv64
open Machine (get_set_self setCsr get_set_ne set_set get_setMem csr_set csr_setMem mem_set
  mem_setMem get_setCsr mem_setCsr)
open Function (update update_self update_of_ne update_eq_self update_eq_self_iff)

/-! ## The code of `entry.S` -/

inductive Label where
  | alltraps
  | fromUser
  | callHandler
  | trapret
  | retUser
  | retUserNoswitch
  | retSupervisor
  deriving DecidableEq, Repr

/-- Field numbers of `struct trap_frame`: `TF_SEPC`, `TF_SP`, `TF_T0`, `TF_SCAUSE`,
`TF_STVAL` and `TF_SSTATUS` are eight times these. -/
def tfSepc : Nat := 0
def tfSp : Nat := 2
def tfT0 : Nat := 5
def tfScause : Nat := 32
def tfStval : Nat := 33
def tfSstatus : Nat := 34

/-- `TRAP_FRAME_ALLOC_SIZE`. -/
def trapFrameAllocSize : Word := 36 * 8

/-- `TRAP_SCRATCH_OFFSET`. -/
def trapScratchOffset : Word := trapFrameAllocSize - 8

def cpuCurrentTask : Word := 24
def taskKstack : Word := 120
def taskSatp : Word := 128

/-- The registers that both save sequences and the restore sequence list after
`t0`, in this order. -/
def commonRegs : List Reg :=
  [.t1, .t2, .s0, .s1, .a0, .a1, .a2, .a3, .a4, .a5, .a6, .a7, .s2, .s3, .s4, .s5, .s6, .s7,
    .s8, .s9, .s10, .s11, .t3, .t4, .t5, .t6]

/-- Addresses fixed by the linker: `cpu_table`, and the instruction after the call
of `trap_handler`. -/
structure Image where
  cpuTable : Word
  afterCall : Word

/-- `csrr scratch, csr; sd scratch, TF_x(sp)` for the four CSRs of the frame. -/
def saveCsrs (scratch : Reg) : List (Instr Label) :=
  saveCsr scratch .sepc tfSepc .sp ++ (saveCsr scratch .scause tfScause .sp ++
    (saveCsr scratch .stval tfStval .sp ++ saveCsr scratch .sstatus tfSstatus .sp))

/-- The first instructions of `__alltraps`, on the way to the save sequence of the
kernel path. -/
def kernelPrologue : List (Instr Label) :=
  [.csrrw .t0 .sscratch .t0,
    .bnez .t0 .fromUser,
    .csrr .t0 .sscratch,
    .csrw .sscratch .zero,
    .addi .sp .sp (-trapFrameAllocSize),
    .addi .t1 .sp trapFrameAllocSize,
    .sd .t1 (fieldOffset tfSp) .sp]

/-- `__alltraps` up to `.Lfrom_user`. -/
def alltraps : List (Instr Label) :=
  kernelPrologue ++ ((.ra :: .gp :: .tp :: .t0 :: commonRegs).map (save .sp) ++
    (saveCsrs .t1 ++ [.j .callHandler]))

def userPrologue : List (Instr Label) :=
  [.sd .sp (-8) .t0,
    .mv .sp .t0,
    .addi .sp .sp (-trapFrameAllocSize),
    .ld .t0 trapScratchOffset .sp,
    .sd .t0 (fieldOffset tfSp) .sp,
    .csrr .t0 .sscratch,
    .sd .t0 (fieldOffset tfT0) .sp,
    .csrw .sscratch .zero]

/-- `.Lfrom_user`. -/
def fromUser : List (Instr Label) :=
  userPrologue ++ ((.ra :: .gp :: .tp :: commonRegs).map (save .sp) ++ saveCsrs .t0)

/-- `.Lcall_handler`. -/
def callHandler (img : Image) : List (Instr Label) :=
  [.mv .a0 .sp, .call img.afterCall]

/-- `__trapret`. -/
def trapret : List (Instr Label) :=
  restoreCsr .t0 .sepc tfSepc .sp ++ (restoreCsr .t0 .scause tfScause .sp ++
    (restoreCsr .t0 .stval tfStval .sp ++ (restoreCsr .t0 .sstatus tfSstatus .sp ++
      ((.ra :: .gp :: .tp :: commonRegs).map (restore .sp) ++
        [.csrr .t0 .sstatus, .andi .t0 .t0 0x100, .bnez .t0 .retSupervisor]))))

/-- The current task's `kstack`, plus 8192, into `t0`. -/
def loadKstackTop (img : Image) : List (Instr Label) :=
  [.la .t0 img.cpuTable,
    .ld .t0 cpuCurrentTask .t0,
    .ld .t0 taskKstack .t0,
    .addi .t0 .t0 2047,
    .addi .t0 .t0 2047,
    .addi .t0 .t0 2047,
    .addi .t0 .t0 2047,
    .addi .t0 .t0 4]

/-- The current task's `satp` into `t0`. -/
def loadTaskSatp (img : Image) : List (Instr Label) :=
  [.la .t0 img.cpuTable,
    .ld .t0 cpuCurrentTask .t0,
    .ld .t0 taskSatp .t0]

/-- `.Lret_user`. -/
def retUser (img : Image) : List (Instr Label) :=
  loadKstackTop img ++ (.csrw .sscratch .t0 :: (loadTaskSatp img ++
    [.beqz .t0 .retUserNoswitch, .csrw .satp .t0, .sfenceVma]))

/-- `.Lret_user_noswitch`. -/
def retUserNoswitch : List (Instr Label) :=
  [.ld .t0 (fieldOffset tfT0) .sp, .ld .sp (fieldOffset tfSp) .sp, .sret]

/-- `.Lret_supervisor`. -/
def retSupervisor : List (Instr Label) :=
  [.csrw .sscratch .zero,
    .ld .t0 (fieldOffset tfT0) .sp,
    .addi .sp .sp trapFrameAllocSize,
    .sret]

def entryCode (img : Image) : Program Label where
  body
    | .alltraps => alltraps
    | .fromUser => fromUser
    | .callHandler => callHandler img
    | .trapret => trapret
    | .retUser => retUser img
    | .retUserNoswitch => retUserNoswitch
    | .retSupervisor => retSupervisor
  following
    | .alltraps => some .fromUser
    | .fromUser => some .callHandler
    | .callHandler => some .trapret
    | .trapret => some .retUser
    | .retUser => some .retUserNoswitch
    | .retUserNoswitch => some .retSupervisor
    | .retSupervisor => none

/-- The interrupted machine takes a trap and runs the entry code until `sret`.  The
longest path visits six blocks. -/
def takeTrap (img : Image) (trapHandler : Machine → Machine) (stvec cause tval : Word)
    (m : Machine) : Option Outcome :=
  (entryCode img).run trapHandler 6 .alltraps (m.trap stvec cause tval)

/-! ## Entry -/

/-- Memory `mem` holds at `frame` the register values `regs` and the four CSRs. -/
structure FrameHolds (mem : Mem) (frame : Word) (regs : Reg → Word) (csr : Csr → Word) :
    Prop where
  reg : ∀ r, r ≠ .zero → loadDword mem (field frame r.index) = regs r
  sepc : loadDword mem (field frame tfSepc) = csr .sepc
  sstatus : loadDword mem (field frame tfSstatus) = csr .sstatus

/-- The four CSR stores fill their own fields and no register field. -/
theorem execBlock_saveCsrs {s : Reg} (hzero : s ≠ .zero) (hsp : .sp ≠ s)
    (rest : List (Instr Label)) (m : Machine) :
    ∃ m', execBlock (saveCsrs s ++ rest) m = execBlock rest m' ∧ m'.get .sp = m.get .sp ∧
      (∀ r : Reg, r ≠ .zero → loadDword m'.mem (field (m.get .sp) r.index) =
        loadDword m.mem (field (m.get .sp) r.index)) ∧
      loadDword m'.mem (field (m.get .sp) tfSepc) = m.csr .sepc ∧
      loadDword m'.mem (field (m.get .sp) tfSstatus) = m.csr .sstatus := by
  unfold saveCsrs
  simp only [List.append_assoc, execBlock_saveCsr hzero hsp]
  refine ⟨_, rfl, by simp [hsp], fun r hr => ?_, ?_, ?_⟩
  · have hlt := r.index_lt
    have hpos : r.index ≠ 0 := fun heq => hr (Reg.index_injective heq)
    simp (disch := omega) [loadDword_storeDword_field, tfSepc, tfScause, tfStval, tfSstatus, hpos,
       show r.index ≠ 32 by omega, show r.index ≠ 33 by omega, show r.index ≠ 34 by omega]
  all_goals simp [hsp, loadDword_storeDword_field, tfSepc, tfScause, tfStval, tfSstatus]

/-- The kernel prologue reserves the frame and stores the old stack pointer; `t1` is
overwritten with that stack pointer on the way. -/
theorem execBlock_kernelPrologue (rest : List (Instr Label)) (m : Machine)
    (hscratch : m.csr .sscratch = 0) :
    ∃ m', execBlock (kernelPrologue ++ rest) m = execBlock rest m' ∧
      m'.get .sp = m.get .sp - trapFrameAllocSize ∧
      m'.get .t1 = m.get .sp ∧
      (∀ r, r ≠ .sp → r ≠ .t1 → m'.get r = m.get r) ∧
      (∀ c, c ≠ .sscratch → m'.csr c = m.csr c) ∧
      loadDword m'.mem (field (m.get .sp - trapFrameAllocSize) tfSp) = m.get .sp := by
  unfold kernelPrologue
  rw [List.cons_append, List.cons_append, List.cons_append, List.cons_append,
    execBlock_next rfl, execBlock_bnez, if_pos (by
      rw [get_set_self _ _ _ (by decide), hscratch]),
    execBlock_next rfl, execBlock_next rfl, Machine.get_zero]
  -- up to here every register is as it was and `sscratch` is cleared
  generalize hm1 : setCsr _ .sscratch 0 = m1
  have hget1 : ∀ r, m1.get r = m.get r := by
    intro r
    rw [← hm1]
    by_cases hr : r = .t0 <;> simp [hr]
  have hcsr1 : ∀ c, c ≠ .sscratch → m1.csr c = m.csr c := by
    intro c hc
    simp [← hm1, hc]
  rw [List.cons_append, List.cons_append, List.cons_append, List.nil_append, execBlock_next rfl,
    execBlock_next rfl, execBlock_next rfl, get_set_self _ _ _ (by decide),
    get_set_ne _ _ (by decide), hget1, ← sub_eq_add_neg, sub_add_cancel]
  refine ⟨_, rfl, ?_, ?_, fun r hsp ht1 => ?_, fun c hc => ?_, ?_⟩
  · simp
  · simp
  · simp [hsp, ht1, hget1]
  · simp [hcsr1 c hc]
  · exact loadDword_storeDword_self _ _ _

/-- The user prologue moves to the kernel stack whose top is in `t0`, passing the
user stack pointer through the scratch slot below that top. -/
theorem execBlock_userPrologue (rest : List (Instr Label)) (m : Machine) :
    ∃ m', execBlock (userPrologue ++ rest) m = execBlock rest m' ∧
      m'.get .sp = m.get .t0 - trapFrameAllocSize ∧
      (∀ r, r ≠ .sp → r ≠ .t0 → m'.get r = m.get r) ∧
      (∀ c, c ≠ .sscratch → m'.csr c = m.csr c) ∧
      loadDword m'.mem (field (m.get .t0 - trapFrameAllocSize) tfSp) = m.get .sp ∧
      loadDword m'.mem (field (m.get .t0 - trapFrameAllocSize) tfT0) = m.csr .sscratch := by
  have hslot : m.get .t0 - trapFrameAllocSize + trapScratchOffset = m.get .t0 + -8 := by
    rw [trapScratchOffset, sub_add_sub_cancel, sub_eq_add_neg]
  unfold userPrologue
  -- `sd; mv; addi`: the frame is reserved below the scratch slot
  rw [List.cons_append, List.cons_append, List.cons_append, execBlock_next rfl, execBlock_next rfl,
    execBlock_next rfl, get_set_self _ _ _ (by decide), set_set, get_setMem,
    ← sub_eq_add_neg _ trapFrameAllocSize]
  generalize hm1 : Machine.set _ .sp _ = m1
  have hsp1 : m1.get .sp = m.get .t0 - trapFrameAllocSize := by
    rw [← hm1, get_set_self _ _ _ (by decide)]
  have hget1 : ∀ r, r ≠ .sp → m1.get r = m.get r := by
    intro r hr
    rw [← hm1, get_set_ne _ _ hr, get_setMem]
  have hcsr1 : m1.csr = m.csr := by
    rw [← hm1, csr_set, csr_setMem]
  have hslot1 : loadDword m1.mem (m.get .t0 + -8) = m.get .sp := by
    rw [← hm1, mem_set, mem_setMem, loadDword_storeDword_self]
  -- `ld; sd`: the user stack pointer goes from the scratch slot into the frame
  rw [List.cons_append, List.cons_append, execBlock_next rfl, execBlock_next rfl, hsp1, hslot,
    hslot1, get_set_self _ _ _ (by decide), get_set_ne _ _ (by decide), hsp1]
  generalize hm2 : Machine.setMem _ _ = m2
  have hget2 : ∀ r, r ≠ .t0 → m2.get r = m1.get r := by
    intro r hr
    rw [← hm2, get_setMem, get_set_ne _ _ hr]
  have hcsr2 : m2.csr = m.csr := by
    rw [← hm2, csr_setMem, csr_set, hcsr1]
  have hload2 : loadDword m2.mem (field (m.get .t0 - trapFrameAllocSize) tfSp) = m.get .sp := by
    rw [← hm2, mem_setMem]
    exact loadDword_storeDword_self _ _ _
  rw [List.cons_append, List.cons_append, List.cons_append, List.nil_append, execBlock_next rfl,
    execBlock_next rfl, execBlock_next rfl, get_set_self _ _ _ (by decide),
    get_set_ne _ _ (by decide), hget2 _ (by decide), hsp1, hcsr2]
  refine ⟨_, rfl, ?_, fun r hsp ht0 => ?_, fun c hc => ?_, ?_, ?_⟩
  · rw [get_setCsr, get_setMem, get_set_ne _ _ (by decide), hget2 _ (by decide), hsp1]
  · rw [get_setCsr, get_setMem, get_set_ne _ _ ht0, hget2 r ht0, hget1 r hsp]
  · rw [Machine.csr_setCsr, update_of_ne hc, csr_setMem, csr_set, hcsr2]
  · exact (loadDword_storeDword_field _ _ _ (by decide) (by decide)).trans
      ((if_neg (by decide)).trans hload2)
  · exact loadDword_storeDword_self _ _ _

/-- The machine that the two entry paths hand to `.Lcall_handler`: the frame is at
`sp` and holds the register values `regs` and the CSRs of the trap. -/
structure Entered (c : Machine) (frame : Word) (regs : Reg → Word) (csr : Csr → Word) :
    Prop where
  sp : c.get .sp = frame
  holds : FrameHolds c.mem frame regs csr

/-- A prologue that leaves the frame base in `sp` and the values of the registers
`early` in the frame, followed by the saves of the remaining registers and of the
CSRs, builds the whole frame. -/
theorem entered_of_saves {late : List Reg} {s : Reg} (hzero : s ≠ .zero) (hsp : .sp ≠ s)
    {m1 : Machine} {regs : Reg → Word} {csr : Csr → Word} (rest : List (Instr Label))
    (hlate : ∀ r ∈ late, m1.get r = regs r)
    (hearly : ∀ r, r ≠ .zero → r ∉ late → loadDword m1.mem (field (m1.get .sp) r.index) = regs r)
    (hsepc : m1.csr .sepc = csr .sepc) (hsstatus : m1.csr .sstatus = csr .sstatus) :
    ∃ c, execBlock (late.map (save .sp) ++ (saveCsrs s ++ rest)) m1 = execBlock rest c ∧
      Entered c (m1.get .sp) regs csr := by
  rw [execBlock_saves]
  obtain ⟨c, hexec, hsp', hreg, hsepc', hsstatus'⟩ := execBlock_saveCsrs hzero hsp rest
    (m1.setMem (saveAll m1 (m1.get .sp) late m1.mem))
  rw [get_setMem] at hsp' hreg hsepc' hsstatus'
  rw [mem_setMem] at hreg
  refine ⟨c, hexec, hsp', fun r hr => ?_, hsepc'.trans hsepc, hsstatus'.trans hsstatus⟩
  rw [hreg r hr]
  have hlt := r.index_lt
  by_cases hmem : r ∈ late
  · rw [loadDword_saveAll _ _ _ _ hmem, hlate r hmem]
  · have hother : ∀ r' ∈ late, r'.index ≠ r.index := by
      intro r' hr' heq
      exact hmem (Reg.index_injective heq ▸ hr')
    rw [loadDword_saveAll_other _ _ _ _ (by omega) hother, hearly r hr hmem]

/-- The kernel path stores the old stack pointer as the value of `t1`. -/
theorem entered_of_kernel (m : Machine) (hscratch : m.csr .sscratch = 0) :
    ∃ c, execBlock alltraps m = (c, .goto .callHandler) ∧ Entered c (m.get .sp - trapFrameAllocSize)
        (update m.get .t1 (m.get .sp)) m.csr := by
  obtain ⟨m1, hexec1, hsp1, ht1, hget1, hcsr1, hload1⟩ := execBlock_kernelPrologue
    ((.ra :: .gp :: .tp :: .t0 :: commonRegs).map (save .sp) ++
      (saveCsrs .t1 ++ [.j .callHandler])) m hscratch
  have hlate : ∀ r ∈ Reg.ra :: .gp :: .tp :: .t0 :: commonRegs,
      m1.get r = update m.get .t1 (m.get .sp) r := by
    intro r hr
    by_cases hrt1 : r = .t1
    · subst hrt1
      rw [ht1, update_self]
    · have hsp : r ≠ .sp := by
        rintro rfl
        exact absurd hr (by decide)
      rw [hget1 r hsp hrt1, update_of_ne hrt1]
  have hearly : ∀ r, r ≠ .zero → r ∉ Reg.ra :: .gp :: .tp :: .t0 :: commonRegs →
      loadDword m1.mem (field (m1.get .sp) r.index) =
        update m.get .t1 (m.get .sp) r := by
    intro r hzero hr
    have hsp : r = .sp := by
      cases r <;> first | rfl | contradiction
    subst hsp
    rw [hsp1]
    exact hload1
  obtain ⟨c, hexec, hentered⟩ := entered_of_saves (s := .t1) (by decide) (by decide)
    [.j .callHandler] hlate hearly (hcsr1 .sepc (by decide)) (hcsr1 .sstatus (by decide))
  rw [hsp1] at hentered
  refine ⟨c, ?_, hentered⟩
  rw [alltraps, hexec1, hexec]
  rfl

/-- The user path stores every register. -/
theorem entered_of_user (m : Machine) (hscratch : m.csr .sscratch ≠ 0) :
    ∃ m1 c, execBlock alltraps m = (m1, .goto .fromUser) ∧ execBlock fromUser m1 = (c, .next) ∧
      Entered c (m.csr .sscratch - trapFrameAllocSize) m.get m.csr := by
  let m1 := (m.setCsr .sscratch (m.get .t0)).set .t0 (m.csr .sscratch)
  have ht0 : m1.get .t0 = m.csr .sscratch := by simp [m1]
  have hother : ∀ r, r ≠ .t0 → m1.get r = m.get r := fun r hr => by simp [m1, hr]
  have hcsr : ∀ c, c ≠ .sscratch → m1.csr c = m.csr c := fun c hc => by simp [m1, hc]
  have hscratch1 : m1.csr .sscratch = m.get .t0 := by simp [m1]
  have hexec1 : execBlock alltraps m = (m1, .goto .fromUser) := by
    rw [alltraps, kernelPrologue, List.cons_append, List.cons_append, execBlock_next rfl]
    exact (execBlock_bnez ..).trans (if_neg (by rwa [ht0]))
  clear_value m1
  obtain ⟨m2, hexec2, hsp2, hget2, hcsr2, hloadSp, hloadT0⟩ := execBlock_userPrologue
    ((.ra :: .gp :: .tp :: commonRegs).map (save .sp) ++ (saveCsrs .t0 ++ [])) m1
  rw [ht0] at hsp2 hloadSp hloadT0
  have hlate : ∀ r ∈ Reg.ra :: .gp :: .tp :: commonRegs, m2.get r = m.get r := by
    intro r hr
    have hsp : r ≠ .sp := by
      rintro rfl
      exact absurd hr (by decide)
    have hrt0 : r ≠ .t0 := by
      rintro rfl
      exact absurd hr (by decide)
    rw [hget2 r hsp hrt0, hother r hrt0]
  have hearly : ∀ r, r ≠ .zero → r ∉ Reg.ra :: .gp :: .tp :: commonRegs →
      loadDword m2.mem (field (m2.get .sp) r.index) = m.get r := by
    intro r hzero hr
    have hcases : r = .sp ∨ r = .t0 := by
      cases r <;> first | exact .inl rfl | exact .inr rfl | contradiction
    rw [hsp2]
    rcases hcases with rfl | rfl
    · rw [← hother .sp (by decide)]
      exact hloadSp
    · rw [← hscratch1]
      exact hloadT0
  obtain ⟨c, hexec, hentered⟩ := entered_of_saves (s := .t0) (by decide) (by decide)
    [] hlate hearly ((hcsr2 .sepc (by decide)).trans (hcsr .sepc (by decide)))
    ((hcsr2 .sstatus (by decide)).trans (hcsr .sstatus (by decide)))
  rw [hsp2] at hentered
  refine ⟨m1, c, hexec1, ?_, hentered⟩
  rw [List.append_nil] at hexec2 hexec
  rw [fromUser, hexec2, hexec]
  rfl

/-! ## Exit -/

variable {m : Machine}

section Exit

variable {frame : Word} {regs : Reg → Word} {csr : Csr → Word}

/-- `__trapret` takes the CSRs and all registers but `sp` and `t0` from the frame
and chooses the exit by `SPP`. -/
theorem execBlock_trapret (hm : Entered m frame regs csr) : ∃ e, execBlock trapret m =
        (e, if csr .sstatus &&& sppBit = 0 then .next else .goto .retSupervisor) ∧
      e.get .sp = frame ∧ e.mem = m.mem ∧
      (∀ r, r ∉ [Reg.zero, .sp, .t0] → e.get r = regs r) ∧
      e.csr .sepc = csr .sepc ∧ e.csr .sstatus = csr .sstatus := by
  have hsp : ∀ (m : Machine) (v : Word), (m.set .t0 v).get .sp = m.get .sp :=
    fun m v => get_set_ne _ _ (by decide)
  unfold trapret
  rw [execBlock_restoreCsr (by decide), execBlock_restoreCsr (by decide),
    execBlock_restoreCsr (by decide), execBlock_restoreCsr (by decide)]
  simp only [mem_setCsr, mem_set, get_setCsr, hsp, hm.sp, hm.holds.sepc, hm.holds.sstatus]
  generalize hm1 : setCsr _ .sstatus _ = m1
  have hsp1 : m1.get .sp = frame := by simp [← hm1, hm.sp]
  have hmem1 : m1.mem = m.mem := by simp [← hm1]
  have hsepc1 : m1.csr .sepc = csr .sepc := by simp [← hm1]
  have hsstatus1 : m1.csr .sstatus = csr .sstatus := by simp [← hm1]
  clear hm1
  rw [execBlock_restores (by decide), hsp1]
  generalize hm2 : restoreAll frame _ m1 = m2
  have hsp2 : m2.get .sp = frame := by
    rw [← hm2, get_restoreAll_other _ (by decide), hsp1]
  have hmem2 : m2.mem = m.mem := by
    rw [← hm2, mem_restoreAll, hmem1]
  have hcsr2 : m2.csr = m1.csr := by
    rw [← hm2, csr_restoreAll]
  have hget2 : ∀ r, r ∉ [Reg.zero, .sp, .t0] → m2.get r = regs r := by
    intro r hr
    have hmem : r ∈ Reg.ra :: .gp :: .tp :: commonRegs := by
      cases r <;> first | decide | contradiction
    have hzero : r ≠ .zero := by
      rintro rfl
      exact hr (by decide)
    rw [← hm2, get_restoreAll _ hmem hzero, hmem1, hm.holds.reg r hzero]
  rw [execBlock_next rfl, execBlock_next rfl, get_set_self _ _ _ (by decide),
    set_set, hcsr2, hsstatus1, show (0x100 : Word) = sppBit from rfl]
  refine ⟨m2.set .t0 (csr .sstatus &&& sppBit), ?_, ?_, ?_, fun r hr => ?_, ?_, ?_⟩
  · rw [execBlock_bnez, get_set_self _ _ _ (by decide)]
    split_ifs <;> rfl
  · rw [hsp, hsp2]
  · rw [mem_set, hmem2]
  · rw [get_set_ne _ _ (by rintro rfl; exact hr (by decide)), hget2 r hr]
  · rw [csr_set, hcsr2, hsepc1]
  · rw [csr_set, hcsr2, hsstatus1]

/-- Machine `e` differs from `m` only in `t0` and in CSRs that `sret` does not
read. -/
structure OnlyT0 (e m : Machine) : Prop where
  get : ∀ r, r ≠ .t0 → e.get r = m.get r
  mem : e.mem = m.mem
  sepc : e.csr .sepc = m.csr .sepc
  sstatus : e.csr .sstatus = m.csr .sstatus

variable {e : Machine}

theorem OnlyT0.set (h : OnlyT0 e m) (v : Word) : OnlyT0 (e.set .t0 v) m where
  get r hr := by simp [hr, h.get]
  mem := h.mem
  sepc := h.sepc
  sstatus := h.sstatus

theorem OnlyT0.setCsr (h : OnlyT0 e m) {c : Csr} (hsepc : Csr.sepc ≠ c)
    (hsstatus : Csr.sstatus ≠ c) (v : Word) : OnlyT0 (e.setCsr c v) m where
  get := h.get
  mem := h.mem
  sepc := by simp [hsepc, h.sepc]
  sstatus := by simp [hsstatus, h.sstatus]

/-- The `kstack` of the task that `cpu_table` names as current. -/
def currentKstack (img : Image) (mem : Mem) : Word :=
  loadDword mem (loadDword mem (img.cpuTable + cpuCurrentTask) + taskKstack)

theorem execBlock_loadKstackTop (img : Image) (rest : List (Instr Label)) (m : Machine) :
    execBlock (loadKstackTop img ++ rest) m =
      execBlock rest (m.set .t0 (currentKstack img m.mem + 8192)) := by
  have hsum : (2047 + 2047 + 2047 + 2047 + 4 : Word) = 8192 := by decide
  rw [← hsum, ← add_assoc, ← add_assoc, ← add_assoc, ← add_assoc]
  simp only [loadKstackTop, List.cons_append, List.nil_append]
  rw [execBlock_next rfl, execBlock_next rfl, execBlock_next rfl, execBlock_next rfl,
    execBlock_next rfl, execBlock_next rfl, execBlock_next rfl, execBlock_next rfl]
  simp [currentKstack]

/-- `.Lret_user` works with `t0` alone, leaves its stack top in `sscratch` and always
goes on to `.Lret_user_noswitch`. -/
theorem execBlock_retUser (img : Image) (m : Machine) :
    ∃ e flow, execBlock (retUser img) m = (e, flow) ∧
      (flow = .next ∨ flow = .goto .retUserNoswitch) ∧ OnlyT0 e m ∧
      e.csr .sscratch = currentKstack img m.mem + 8192 := by
  have hself : OnlyT0 m m := ⟨fun _ _ => rfl, rfl, rfl, rfl⟩
  have hsatp : ∀ i ∈ loadTaskSatp img, i.writesOnly .t0 = true := by
    simp [loadTaskSatp, Instr.writesOnly]
  unfold retUser
  rw [execBlock_loadKstackTop, execBlock_next rfl, get_set_self _ _ _ (by decide)]
  generalize currentKstack img m.mem + 8192 = top
  obtain ⟨satp, hexec2⟩ := execBlock_writesOnly hsatp (by simp [loadTaskSatp])
    [.beqz .t0 .retUserNoswitch, .csrw .satp .t0, .sfenceVma] ((m.set .t0 top).setCsr .sscratch top)
  have hm : OnlyT0 (((m.set .t0 top).setCsr .sscratch top).set .t0 satp) m :=
    OnlyT0.set (OnlyT0.setCsr (hself.set top) (by decide) (by decide) top) satp
  rw [hexec2, execBlock_beqz]
  split_ifs with hzero
  · exact ⟨_, _, rfl, .inr rfl, hm, rfl⟩
  · exact ⟨_, _, rfl, .inl rfl, OnlyT0.setCsr hm (by decide) (by decide) _, rfl⟩

/-- The machine after `sret` has the registers `regs` and resumes at the saved
`sepc` in the mode that `SPP` names. -/
structure Resumed (f : Machine) (regs : Reg → Word) (csr : Csr → Word) : Prop where
  get : ∀ r, r ≠ .zero → f.get r = regs r
  pc : f.pc = csr .sepc
  mode : f.mode = if csr .sstatus &&& sppBit = 0 then .user else .supervisor

/-- The last steps of both exits: a machine that has every other register, takes
`t0` and `sp` and executes `sret`. -/
theorem resumed_of_sret (sp : Word) (hget : ∀ r, r ∉ [Reg.zero, .sp, .t0] → e.get r = regs r)
    (hsepc : e.csr .sepc = csr .sepc) (hsstatus : e.csr .sstatus = csr .sstatus) :
    Resumed ((e.set .t0 (regs .t0)).set .sp sp).sret (update regs .sp sp) csr := by
  refine ⟨fun r hr => ?_, hsepc, ?_⟩
  · by_cases hrsp : r = .sp
    · simp [hrsp]
    · by_cases hrt0 : r = .t0
      · simp [hrt0]
      · simp [hrsp, hrt0, hget r (by simp [hr, hrsp, hrt0])]
  · rw [Machine.sret, csr_set, csr_set, hsstatus]

variable (img : Image) (trapHandler : Machine → Machine) (fuel : Nat)

/-- To user mode: the stack pointer comes from the frame, and the next trap finds the
stack top of `.Lret_user` in `sscratch`. -/
theorem run_trapret_user (hm : Entered m frame regs csr) (hspp : csr .sstatus &&& sppBit = 0) :
    ∃ f, (∀ trapHandler fuel, (entryCode img).run trapHandler (fuel + 3) .trapret m =
        some { final := f, calls := [] }) ∧ Resumed f regs csr ∧
      f.csr .sscratch = currentKstack img m.mem + 8192 := by
  obtain ⟨e1, hexec1, hsp1, hmem1, hget1, hsepc1, hsstatus1⟩ := execBlock_trapret hm
  rw [if_pos hspp] at hexec1
  obtain ⟨e2, flow, hexec2, hflow, he2, htop⟩ := execBlock_retUser img e1
  have hsp2 : e2.get .sp = frame := (he2.get .sp (by decide)).trans hsp1
  have hload : ∀ r : Reg, r ≠ .zero →
      loadDword e2.mem (field frame r.index) = regs r := by
    intro r hr
    rw [he2.mem, hmem1, hm.holds.reg r hr]
  have hexec3 : execBlock retUserNoswitch e2 =
      (((e2.set .t0 (regs .t0)).set .sp (regs .sp)).sret, .stop) := by
    have ht0 : loadDword e2.mem (frame + fieldOffset tfT0) = regs .t0 := hload .t0 (by decide)
    have hsp : loadDword e2.mem (frame + fieldOffset tfSp) = regs .sp := hload .sp (by decide)
    rw [retUserNoswitch, execBlock_next rfl, execBlock_next rfl, hsp2, ht0,
      mem_set, get_set_ne _ _ (by decide), hsp2, hsp]
    rfl
  have hresumed := resumed_of_sret (regs .sp)
    (fun r hr => (he2.get r (by rintro rfl; exact hr (by decide))).trans (hget1 r hr))
    (he2.sepc.trans hsepc1) (he2.sstatus.trans hsstatus1)
  rw [update_eq_self] at hresumed
  rw [hmem1] at htop
  refine ⟨_, fun trapHandler fuel => ?_, hresumed, htop⟩
  have hlast : (entryCode img).run trapHandler (fuel + 2) .retUser e1 =
      (entryCode img).run trapHandler (fuel + 1) .retUserNoswitch e2 := by
    rcases hflow with rfl | rfl
    · exact Program.run_next _ _ hexec2 rfl
    · exact Program.run_goto _ _ hexec2
  have htrapret : (entryCode img).run trapHandler (fuel + 3) .trapret m =
      (entryCode img).run trapHandler (fuel + 2) .retUser e1 :=
    Program.run_next _ _ hexec1 rfl
  rw [htrapret, hlast]
  exact Program.run_stop _ _ hexec3

/-- To supervisor mode: the stack pointer is the end of the frame. -/
theorem run_trapret_supervisor (hm : Entered m frame regs csr)
    (hspp : csr .sstatus &&& sppBit ≠ 0) :
    ∃ f, (entryCode img).run trapHandler (fuel + 2) .trapret m =
        some { final := f, calls := [] } ∧
      Resumed f (update regs .sp (frame + trapFrameAllocSize)) csr := by
  obtain ⟨e, hexec1, hsp, hmem, hget, hsepc, hsstatus⟩ := execBlock_trapret hm
  rw [if_neg hspp] at hexec1
  have hexec2 : execBlock retSupervisor e = ((((e.setCsr .sscratch 0).set .t0 (regs .t0)).set .sp
      (frame + trapFrameAllocSize)).sret, .stop) := by
    have ht0 : loadDword e.mem (frame + fieldOffset tfT0) = regs .t0 := by
      rw [hmem]
      exact hm.holds.reg .t0 (by decide)
    rw [retSupervisor, execBlock_next rfl, execBlock_next rfl, execBlock_next rfl,
      get_setCsr, mem_setCsr, hsp, ht0, get_set_ne _ _ (by decide),
      get_setCsr, hsp]
    rfl
  have hresumed := resumed_of_sret (e := e.setCsr .sscratch 0) (frame + trapFrameAllocSize)
    hget hsepc hsstatus
  refine ⟨_, ?_, hresumed⟩
  have htrapret : (entryCode img).run trapHandler (fuel + 2) .trapret m =
      (entryCode img).run trapHandler (fuel + 1) .retSupervisor e :=
    Program.run_goto _ _ hexec1
  rw [htrapret]
  exact Program.run_stop _ _ hexec2

end Exit

/-! ## Transparency -/

/-- The convention under which the interrupted code runs: `sscratch` is zero in
kernel mode and the top of the kernel stack in user mode. -/
def SscratchOk (m : Machine) : Prop :=
  match m.mode with
  | .supervisor => m.csr .sscratch = 0
  | .user => m.csr .sscratch ≠ 0

/-- `trap_handler` returns on the stack it was called on and leaves the trap frame
that it received in `a0` as it was. -/
structure TrapFrameKept (trapHandler : Machine → Machine) : Prop where
  sp : ∀ c, (trapHandler c).get .sp = c.get .sp
  frame : ∀ c, ∀ k ≤ tfSstatus, loadDword (trapHandler c).mem (field (c.get .a0) k) =
    loadDword c.mem (field (c.get .a0) k)

/-- The trap is invisible to the interrupted code, and the one frame passed to
`trap_handler` records its registers and its program counter. -/
structure Transparent (m : Machine) (out : Outcome) : Prop where
  recorded : ∃ c, out.calls = [c] ∧
    (∀ r, r ≠ .zero → loadDword c.mem (field (c.get .a0) r.index) = m.get r) ∧
    loadDword c.mem (field (c.get .a0) tfSepc) = m.pc
  get : ∀ r, out.final.get r = m.get r
  pc : out.final.pc = m.pc
  mode : out.final.mode = m.mode

section Transparency

variable (img : Image) {trapHandler : Machine → Machine} (fuel : Nat)
variable {c : Machine} {frame : Word} {regs : Reg → Word} {csr : Csr → Word}

/-- The call of `trap_handler`: its argument is the frame, and the machine it
returns is again one from which `__trapret` starts. -/
theorem run_callHandler (hkept : TrapFrameKept trapHandler) (hc : Entered c frame regs csr) :
    ∃ c1, (entryCode img).run trapHandler (fuel + 1) .callHandler c =
        ((entryCode img).run trapHandler fuel .trapret (trapHandler c1)).map
          (fun out => { out with calls := c1 :: out.calls }) ∧
      c1.get .a0 = frame ∧ FrameHolds c1.mem frame regs csr ∧
      Entered (trapHandler c1) frame regs csr := by
  let c1 := (c.set .a0 (c.get .sp)).set .ra img.afterCall
  have hexec : execBlock (callHandler img) c = (c1, .call) := rfl
  have ha0 : c1.get .a0 = frame := by
    simp [c1, hc.sp]
  have hsp : c1.get .sp = frame := by
    simp [c1, hc.sp]
  have hholds : FrameHolds c1.mem frame regs csr := hc.holds
  have hframe : ∀ k ≤ tfSstatus, loadDword (trapHandler c1).mem (field frame k) =
      loadDword c1.mem (field frame k) := by
    intro k hk
    have := hkept.frame c1 k hk
    rwa [ha0] at this
  refine ⟨c1, Program.run_call _ _ hexec rfl, ha0, hholds, (hkept.sp c1).trans hsp,
    fun r hr => ?_, ?_, ?_⟩
  · have hlt := r.index_lt
    rw [hframe r.index (le_of_lt (lt_trans hlt (by decide))), hholds.reg r hr]
  · rw [hframe tfSepc (by decide), hholds.sepc]
  · rw [hframe tfSstatus (by decide), hholds.sstatus]

/-- A trap from user mode fills a frame below the address in `sscratch` and goes on to
the call of `trap_handler`. -/
theorem takeTrap_of_user (stvec cause tval : Word) (hscratch : m.csr .sscratch ≠ 0) :
    ∃ c, (∀ trapHandler, takeTrap img trapHandler stvec cause tval m =
        (entryCode img).run trapHandler 4 .callHandler c) ∧
      Entered c (m.csr .sscratch - trapFrameAllocSize) m.get (m.trap stvec cause tval).csr := by
  obtain ⟨m1, c, hexec1, hexec2, hentered⟩ := entered_of_user (m.trap stvec cause tval) hscratch
  refine ⟨c, fun trapHandler => ?_, hentered⟩
  have hentry : takeTrap img trapHandler stvec cause tval m =
      (entryCode img).run trapHandler 5 .fromUser m1 := Program.run_goto _ _ hexec1
  rw [hentry]
  exact Program.run_next _ _ hexec2 rfl

/-- The register values that a trap saves and restores. -/
def savedRegs (m : Machine) : Reg → Word :=
  match m.mode with
  | .supervisor => update m.get .t1 (m.get .sp)
  | .user => m.get

/-- What the entry code does on every trap. -/
theorem takeTrap_spec (hkept : TrapFrameKept trapHandler) (stvec cause tval : Word)
    (hscratch : SscratchOk m) :
    ∃ out c, takeTrap img trapHandler stvec cause tval m = some out ∧ out.calls = [c] ∧
      FrameHolds c.mem (c.get .a0) (savedRegs m) (m.trap stvec cause tval).csr ∧
      Resumed out.final (savedRegs m) (m.trap stvec cause tval).csr := by
  have hspp := trapStatus_spp m.mode (m.csr .sstatus)
  rw [← Machine.csr_trap_sstatus m stvec cause tval] at hspp
  cases hmode : m.mode with
  | supervisor =>
    rw [SscratchOk, hmode] at hscratch
    rw [hmode] at hspp
    obtain ⟨c, hexec, hentered⟩ := entered_of_kernel (m.trap stvec cause tval) hscratch
    obtain ⟨c1, hcall, ha0, hholds, hreturned⟩ := run_callHandler img 4 hkept hentered
    obtain ⟨f, hrun, hresumed⟩ := run_trapret_supervisor img trapHandler 2 hreturned
      (by rw [hspp]; decide)
    have hsaved : savedRegs m = update m.get .t1 (m.get .sp) := by
      rw [savedRegs, hmode]
    have hsp : update (savedRegs m) .sp
        (m.get .sp - trapFrameAllocSize + trapFrameAllocSize) = savedRegs m := by
      rw [sub_add_cancel, hsaved, update_eq_self_iff]
      rw [update_of_ne (by decide)]
    refine ⟨{ final := f, calls := [c1] }, c1, ?_, rfl, ?_, ?_⟩
    · have hentry : takeTrap img trapHandler stvec cause tval m =
          (entryCode img).run trapHandler 5 .callHandler c := Program.run_goto _ _ hexec
      rw [hentry, hcall, hrun]
      rfl
    · rw [ha0, hsaved]
      exact hholds
    · rw [← hsp, hsaved]
      exact hresumed
  | user =>
    rw [SscratchOk, hmode] at hscratch
    rw [hmode] at hspp
    obtain ⟨c, hentry, hentered⟩ := takeTrap_of_user img stvec cause tval hscratch
    obtain ⟨c1, hcall, ha0, hholds, hreturned⟩ := run_callHandler img 3 hkept hentered
    obtain ⟨f, hrun, hresumed, -⟩ := run_trapret_user img hreturned hspp
    have hsaved : savedRegs m = m.get := by
      rw [savedRegs, hmode]
    refine ⟨{ final := f, calls := [c1] }, c1, ?_, rfl, ?_, ?_⟩
    · rw [hentry, hcall, hrun]
      rfl
    · rw [ha0, hsaved]
      exact hholds
    · rw [hsaved]
      exact hresumed

/-- The saved values are the interrupted ones unless the kernel was interrupted with
a live `t1`. -/
theorem savedRegs_eq_iff : (∀ r, r ≠ .zero → savedRegs m r = m.get r) ↔
      m.mode = .user ∨ m.get .t1 = m.get .sp := by
  cases hmode : m.mode with
  | user => simp [savedRegs, hmode]
  | supervisor =>
    have hsaved : savedRegs m = update m.get .t1 (m.get .sp) := by
      rw [savedRegs, hmode]
    rw [hsaved]
    constructor
    · intro hsame
      have ht1 := hsame .t1 (by decide)
      exact .inr ht1.symm
    · rintro (huser | ht1) r -
      · exact absurd huser (by decide)
      · rw [← ht1, update_eq_self]

/-- A trap is transparent exactly when it comes from user mode or finds the stack
pointer in `t1`. -/
theorem transparent_iff (hkept : TrapFrameKept trapHandler) (stvec cause tval : Word)
    {m : Machine} (hscratch : SscratchOk m) :
    (∃ out, takeTrap img trapHandler stvec cause tval m = some out ∧ Transparent m out) ↔
      m.mode = .user ∨ m.get .t1 = m.get .sp := by
  obtain ⟨out, c, hrun, hcalls, hholds, hresumed⟩ :=
    takeTrap_spec img hkept stvec cause tval hscratch
  rw [← savedRegs_eq_iff]
  constructor
  · rintro ⟨out', hrun', htransparent⟩ r hr
    obtain rfl : out = out' := Option.some.inj (hrun.symm.trans hrun')
    rw [← htransparent.get r, hresumed.get r hr]
  · intro hsame
    refine ⟨out, hrun, ⟨c, hcalls, fun r hr => ?_, hholds.sepc⟩, fun r => ?_, hresumed.pc, ?_⟩
    · rw [hholds.reg r hr, hsame r hr]
    · by_cases hr : r = .zero
      · subst hr
        rfl
      · rw [hresumed.get r hr, hsame r hr]
    · rw [hresumed.mode, Machine.csr_trap_sstatus, trapStatus_spp]
      cases m.mode <;> decide

end Transparency

/-- A handler that clobbers two caller-saved registers and nothing else. -/
def quietHandler (c : Machine) : Machine := (c.set .a0 0).set .t1 0

theorem quietHandler_kept : TrapFrameKept quietHandler where
  sp c := by simp [quietHandler]
  frame _ _ _ := rfl

/-- Kernel code at `0x80201000`, interrupted with `5` in `t1` and its stack pointer at
`0x80300000`. -/
def kernelMachine : Machine where
  regs r := if r = .t1 then 5 else if r = .sp then 0x80300000 else 0
  csr _ := 0
  mem _ := 0
  pc := 0x80201000
  mode := .supervisor

/-- The same register contents in user mode; the kernel stack top is in `sscratch`. -/
def userMachine : Machine :=
  { kernelMachine with
    csr := fun c => if c = .sscratch then 0x80380000 else 0
    mode := .user }

/-- The addresses of `cpu_table` and of the instruction after the call. -/
def sampleImage : Image := { cpuTable := 0x80400000, afterCall := 0x80200100 }

theorem transparent_userMachine : TrapFrameKept quietHandler ∧ SscratchOk userMachine ∧
      ∃ out, takeTrap sampleImage quietHandler 0x80200000 8 0 userMachine = some out ∧
        Transparent userMachine out := by
  have hscratch : SscratchOk userMachine := by
    show userMachine.csr .sscratch ≠ 0
    decide
  exact ⟨quietHandler_kept, hscratch,
    (transparent_iff sampleImage quietHandler_kept 0x80200000 8 0 hscratch).mpr (.inl rfl)⟩

/-- A timer interrupt of that kernel code resumes it with the stack pointer in `t1`. -/
theorem not_transparent_kernelMachine : TrapFrameKept quietHandler ∧ SscratchOk kernelMachine ∧
      (∃ out, takeTrap sampleImage quietHandler 0x80200000 0x8000000000000005 0 kernelMachine =
        some out ∧ out.final.get .t1 = 0x80300000) ∧
      ¬ ∃ out, takeTrap sampleImage quietHandler 0x80200000 0x8000000000000005 0 kernelMachine =
        some out ∧ Transparent kernelMachine out := by
  have hscratch : SscratchOk kernelMachine := rfl
  obtain ⟨out, c, hrun, -, -, hresumed⟩ := takeTrap_spec sampleImage quietHandler_kept
    0x80200000 0x8000000000000005 0 hscratch
  have ht1 : out.final.get .t1 = 0x80300000 := hresumed.get .t1 (by decide)
  refine ⟨quietHandler_kept, hscratch, ⟨out, hrun, ht1⟩, ?_⟩
  rintro ⟨out', hrun', htransparent⟩
  obtain rfl : out = out' := Option.some.inj (hrun.symm.trans hrun')
  rw [htransparent.get .t1] at ht1
  exact absurd ht1 (by decide)

end CuteOS.Arch
