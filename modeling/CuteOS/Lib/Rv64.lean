/-
  Lib/Rv64.lean --- a fragment of the RV64 privileged machine.

  The fragment has the integer registers, the supervisor CSRs of trap handling,
  byte-addressed little-endian memory and the instructions that assembly entry
  code is made of.  Code is a map from labels to straight-line blocks; a run
  records the machine at every call into compiled code.  Nothing here belongs to
  a particular kernel.
-/
import Mathlib.Data.BitVec

set_option autoImplicit false

namespace CuteOS.Lib.Rv64

/-- A 64-bit register value or address. -/
abbrev Word := BitVec 64

/-! ## Memory -/

/-- Memory as the running mode sees it. -/
abbrev Mem := Word → BitVec 8

/-- Byte `k` of a doubleword, counted from the least significant one. -/
def byteAt (v : Word) (k : Nat) : BitVec 8 := BitVec.ofNat 8 (v.toNat / 256 ^ k)

/-- Store the eight bytes of `v` at `addr`. -/
def storeDword (mem : Mem) (addr v : Word) : Mem := fun x =>
  if (x - addr).toNat < 8 then byteAt v (x - addr).toNat else mem x

/-- Load eight bytes, least significant first. -/
def loadDword (mem : Mem) (addr : Word) : Word :=
  let byte := fun k : Nat => (mem (addr + BitVec.ofNat 64 k)).toNat
  BitVec.ofNat 64 (byte 0 + 256 * (byte 1 + 256 * (byte 2 + 256 * (byte 3 + 256 *
    (byte 4 + 256 * (byte 5 + 256 * (byte 6 + 256 * byte 7)))))))

variable {k : Nat}

theorem storeDword_apply_self (mem : Mem) (addr v : Word) (hk : k < 8) :
    storeDword mem addr v (addr + BitVec.ofNat 64 k) = byteAt v k := by
  have hsub : (addr + BitVec.ofNat 64 k - addr).toNat = k := by
    rw [add_sub_cancel_left, BitVec.toNat_ofNat]
    omega
  unfold storeDword
  rw [hsub, if_pos hk]

theorem storeDword_apply_other (mem : Mem) {addr x : Word} (v : Word)
    (hfar : 8 ≤ (x - addr).toNat) : storeDword mem addr v x = mem x := by
  unfold storeDword
  rw [if_neg (by omega)]

@[simp] theorem loadDword_storeDword_self (mem : Mem) (addr v : Word) :
    loadDword (storeDword mem addr v) addr = v := by
  apply BitVec.eq_of_toNat_eq
  simp only [loadDword, storeDword_apply_self mem addr v (show 0 < 8 by decide),
    storeDword_apply_self mem addr v (show 1 < 8 by decide),
    storeDword_apply_self mem addr v (show 2 < 8 by decide),
    storeDword_apply_self mem addr v (show 3 < 8 by decide),
    storeDword_apply_self mem addr v (show 4 < 8 by decide),
    storeDword_apply_self mem addr v (show 5 < 8 by decide),
    storeDword_apply_self mem addr v (show 6 < 8 by decide),
    storeDword_apply_self mem addr v (show 7 < 8 by decide),
    byteAt, BitVec.toNat_ofNat]
  omega

/-- A store leaves every doubleword alone that does not overlap it. -/
theorem loadDword_storeDword_of_far (mem : Mem) {addr x : Word} (v : Word)
    (hlow : 8 ≤ (x - addr).toNat) (hhigh : (x - addr).toNat + 8 ≤ 2 ^ 64) :
    loadDword (storeDword mem addr v) x = loadDword mem x := by
  have hbyte : ∀ k < 8, storeDword mem addr v (x + BitVec.ofNat 64 k) =
      mem (x + BitVec.ofNat 64 k) := by
    intro k hk
    apply storeDword_apply_other
    have hsum : x + BitVec.ofNat 64 k - addr = (x - addr) + BitVec.ofNat 64 k := by
      rw [BitVec.sub_eq_add_neg, BitVec.sub_eq_add_neg, BitVec.add_assoc, BitVec.add_assoc,
        BitVec.add_comm (BitVec.ofNat 64 k)]
    rw [hsum, BitVec.toNat_add, BitVec.toNat_ofNat]
    omega
  unfold loadDword
  simp only [hbyte 0 (by decide), hbyte 1 (by decide), hbyte 2 (by decide),
    hbyte 3 (by decide), hbyte 4 (by decide), hbyte 5 (by decide), hbyte 6 (by decide),
    hbyte 7 (by decide)]

-- Everything below reads memory through the two lemmas above.
attribute [irreducible] storeDword loadDword

/-! ### Records of doublewords -/

/-- Address of the `k`-th doubleword of the record at `base`. -/
def field (base : Word) (k : Nat) : Word := base + BitVec.ofNat 64 (8 * k)

/-- Fields of one record do not overlap. -/
theorem loadDword_storeDword_field (mem : Mem) (base v : Word) {j : Nat}
    (hj : j < 1024) (hk : k < 1024) :
    loadDword (storeDword mem (field base j) v) (field base k) =
      if k = j then v else loadDword mem (field base k) := by
  by_cases hjk : k = j
  · subst hjk
    rw [if_pos rfl, loadDword_storeDword_self]
  · rw [if_neg hjk]
    have hsub : (field base k - field base j).toNat = (2 ^ 64 - 8 * j + 8 * k) % 2 ^ 64 := by
      unfold field
      rw [add_sub_add_left_eq_sub, BitVec.toNat_sub, BitVec.toNat_ofNat, BitVec.toNat_ofNat,
        Nat.mod_eq_of_lt (show 8 * j < 2 ^ 64 by omega),
        Nat.mod_eq_of_lt (show 8 * k < 2 ^ 64 by omega)]
    apply loadDword_storeDword_of_far
    · rw [hsub]; omega
    · rw [hsub]; omega

/-! ## Registers and machine states -/

/-- The integer registers under their ABI names. -/
inductive Reg where
  | zero | ra | sp | gp | tp | t0 | t1 | t2
  | s0 | s1 | a0 | a1 | a2 | a3 | a4 | a5
  | a6 | a7 | s2 | s3 | s4 | s5 | s6 | s7
  | s8 | s9 | s10 | s11 | t3 | t4 | t5 | t6
  deriving DecidableEq, Repr

/-- The number `n` of register `xn`. -/
def Reg.index (r : Reg) : Nat := r.ctorIdx

theorem Reg.index_lt (r : Reg) : r.index < 32 := by
  cases r <;> decide

variable {r : Reg}

theorem Reg.index_injective {r' : Reg} (h : r.index = r'.index) : r = r' := by
  rw [← Reg.ofNat_ctorIdx r, ← Reg.ofNat_ctorIdx r']
  exact congrArg Reg.ofNat h

inductive Csr where
  | sscratch
  | sepc
  | scause
  | stval
  | sstatus
  | satp
  deriving DecidableEq, Repr

inductive Mode where
  | user
  | supervisor
  deriving DecidableEq, Repr

structure Machine where
  regs : Reg → Word
  csr : Csr → Word
  mem : Mem
  pc : Word
  mode : Mode

/-- Read a register; `zero` reads as zero whatever was written to it. -/
def Machine.get (m : Machine) (r : Reg) : Word := if r = .zero then 0 else m.regs r

def Machine.set (m : Machine) (r : Reg) (v : Word) : Machine :=
  { m with regs := Function.update m.regs r v }

def Machine.setCsr (m : Machine) (c : Csr) (v : Word) : Machine :=
  { m with csr := Function.update m.csr c v }

def Machine.setMem (m : Machine) (mem : Mem) : Machine := { m with mem := mem }

section MachineLemmas

variable (m : Machine) (r r' : Reg) (c c' : Csr) (v : Word) (mem : Mem)

@[simp] theorem Machine.get_zero : m.get .zero = 0 := rfl

@[simp] theorem Machine.get_set_self (hzero : r ≠ .zero) : (m.set r v).get r = v := by
  simp [Machine.get, Machine.set, hzero]

variable {r r'} in
@[simp] theorem Machine.get_set_ne (hne : r' ≠ r) : (m.set r v).get r' = m.get r' := by
  simp [Machine.get, Machine.set, hne]

@[simp] theorem Machine.set_set (w : Word) : (m.set r v).set r w = m.set r w := by
  simp [Machine.set]

@[simp] theorem Machine.get_setCsr : (m.setCsr c v).get r = m.get r := rfl

@[simp] theorem Machine.get_setMem : (m.setMem mem).get r = m.get r := rfl

@[simp] theorem Machine.csr_set : (m.set r v).csr = m.csr := rfl

@[simp] theorem Machine.csr_setCsr : (m.setCsr c v).csr = Function.update m.csr c v := rfl

@[simp] theorem Machine.csr_setMem : (m.setMem mem).csr = m.csr := rfl

@[simp] theorem Machine.mem_set : (m.set r v).mem = m.mem := rfl

@[simp] theorem Machine.mem_setCsr : (m.setCsr c v).mem = m.mem := rfl

@[simp] theorem Machine.mem_setMem : (m.setMem mem).mem = mem := rfl

end MachineLemmas

/-! ## `sstatus` and the trap transitions -/

/-- `sstatus.SPP`. -/
def sppBit : Word := 0x100

/-- `sstatus.SPIE`. -/
def spieBit : Word := 0x20

/-- `sstatus.SIE`. -/
def sieBit : Word := 0x2

/-- `sstatus` on trap entry: `SPP` records the interrupted mode, `SPIE` the
interrupt enable, and interrupts are disabled. -/
def trapStatus (mode : Mode) (status : Word) : Word :=
  let spp := if mode = .supervisor then sppBit else 0
  let spie := if status &&& sieBit = 0 then 0 else spieBit
  (status &&& ~~~(sppBit ||| spieBit ||| sieBit)) ||| spp ||| spie

/-- `sstatus` after `sret`. -/
def sretStatus (status : Word) : Word :=
  let sie := if status &&& spieBit = 0 then 0 else sieBit
  (status &&& ~~~(sppBit ||| sieBit)) ||| spieBit ||| sie

/-- The hardware's part of a trap: control passes to the code at `stvec` in
supervisor mode. -/
def Machine.trap (m : Machine) (stvec cause tval : Word) : Machine :=
  { (((m.setCsr .sepc m.pc).setCsr .scause cause).setCsr .stval tval).setCsr .sstatus
      (trapStatus m.mode (m.csr .sstatus)) with
    pc := stvec
    mode := .supervisor }

/-- `sret`. -/
def Machine.sret (m : Machine) : Machine :=
  { m.setCsr .sstatus (sretStatus (m.csr .sstatus)) with
    pc := m.csr .sepc
    mode := if m.csr .sstatus &&& sppBit = 0 then .user else .supervisor }

/-- The trap records the interrupted mode in `SPP`. -/
theorem trapStatus_spp (mode : Mode) (status : Word) :
    trapStatus mode status &&& sppBit = if mode = .supervisor then sppBit else 0 := by
  have hclear : (status &&& ~~~(sppBit ||| spieBit ||| sieBit)) &&& sppBit = 0 := by
    have hmask : ~~~(sppBit ||| spieBit ||| sieBit) &&& sppBit = 0 := by decide
    rw [BitVec.and_assoc, hmask]
    exact BitVec.and_zero
  have hspie : (if status &&& sieBit = 0 then 0 else spieBit) &&& sppBit = 0 := by
    split_ifs <;> decide
  have hspp : (if mode = .supervisor then sppBit else 0) &&& sppBit =
      if mode = .supervisor then sppBit else 0 := by
    split_ifs <;> decide
  unfold trapStatus
  rw [BitVec.and_or_distrib_right, BitVec.and_or_distrib_right, hclear, hspie, hspp]
  simp

section TrapLemmas

variable (m : Machine) (stvec cause tval : Word)

theorem Machine.csr_trap_sstatus :
    (m.trap stvec cause tval).csr .sstatus = trapStatus m.mode (m.csr .sstatus) := rfl

@[simp] theorem Machine.get_sret (r : Reg) : m.sret.get r = m.get r := rfl

end TrapLemmas

/-! ## Instructions -/

/-- The instructions of the fragment over the label type `L`.  Immediates and
offsets are given sign-extended. -/
inductive Instr (L : Type) where
  | csrrw (rd : Reg) (c : Csr) (rs : Reg)
  | csrr (rd : Reg) (c : Csr)
  | csrw (c : Csr) (rs : Reg)
  | addi (rd rs : Reg) (imm : Word)
  | andi (rd rs : Reg) (imm : Word)
  | mv (rd rs : Reg)
  | la (rd : Reg) (addr : Word)
  | ld (rd : Reg) (offset : Word) (base : Reg)
  | sd (rs : Reg) (offset : Word) (base : Reg)
  | sfenceVma
  | bnez (r : Reg) (target : L)
  | beqz (r : Reg) (target : L)
  | j (target : L)
  /-- `jal ra, f` for a compiled function `f`; `link` is the return address. -/
  | call (link : Word)
  | sret
  deriving DecidableEq, Repr

/-- Where control goes after an instruction or a block. -/
inductive Flow (L : Type) where
  | next
  | goto (target : L)
  | call
  | stop
  deriving DecidableEq, Repr

variable {L : Type}

def Instr.step (m : Machine) : Instr L → Machine × Flow L
  | .csrrw rd c rs => ((m.setCsr c (m.get rs)).set rd (m.csr c), .next)
  | .csrr rd c => (m.set rd (m.csr c), .next)
  | .csrw c rs => (m.setCsr c (m.get rs), .next)
  | .addi rd rs imm => (m.set rd (m.get rs + imm), .next)
  | .andi rd rs imm => (m.set rd (m.get rs &&& imm), .next)
  | .mv rd rs => (m.set rd (m.get rs), .next)
  | .la rd addr => (m.set rd addr, .next)
  | .ld rd offset base => (m.set rd (loadDword m.mem (m.get base + offset)), .next)
  | .sd rs offset base =>
    (m.setMem (storeDword m.mem (m.get base + offset) (m.get rs)), .next)
  | .sfenceVma => (m, .next)
  | .bnez r target => (m, if m.get r = 0 then .next else .goto target)
  | .beqz r target => (m, if m.get r = 0 then .goto target else .next)
  | .j target => (m, .goto target)
  | .call link => (m.set .ra link, .call)
  | .sret => (m.sret, .stop)

/-- Execute a block up to its end or to the first instruction that leaves it. -/
def execBlock : List (Instr L) → Machine → Machine × Flow L
  | [], m => (m, .next)
  | i :: rest, m =>
    match i.step m with
    | (m, .next) => execBlock rest m
    | out => out

/-- Labelled blocks, each with the label that follows it in memory. -/
structure Program (L : Type) where
  body : L → List (Instr L)
  following : L → Option L

/-- The end of a run: the machine after `sret` and the machines at the calls into
compiled code, oldest first. -/
structure Outcome where
  final : Machine
  calls : List Machine

/-- Run from a label until `sret`; `callee` is the effect of the compiled function. -/
def Program.run (prog : Program L) (callee : Machine → Machine) :
    Nat → L → Machine → Option Outcome
  | 0, _, _ => none
  | fuel + 1, label, m =>
    match execBlock (prog.body label) m with
    | (m, .next) => (prog.following label).bind fun l => prog.run callee fuel l m
    | (m, .goto target) => prog.run callee fuel target m
    | (m, .call) => (prog.following label).bind fun l =>
      (prog.run callee fuel l (callee m)).map fun out => { out with calls := m :: out.calls }
    | (m, .stop) => some { final := m, calls := [] }

/-- An instruction that does not leave the block. -/
theorem execBlock_next {i : Instr L} {m m' : Machine} (h : i.step m = (m', .next))
    (rest : List (Instr L)) : execBlock (i :: rest) m = execBlock rest m' := by
  rw [execBlock, h]

section Branch

variable (r : Reg) (target : L) (rest : List (Instr L)) (m : Machine)

theorem execBlock_bnez : execBlock (.bnez r target :: rest) m =
    if m.get r = 0 then execBlock rest m else (m, .goto target) := by
  rw [execBlock, Instr.step]
  split_ifs <;> rfl

theorem execBlock_beqz : execBlock (.beqz r target :: rest) m =
    if m.get r = 0 then (m, .goto target) else execBlock rest m := by
  rw [execBlock, Instr.step]
  split_ifs <;> rfl

end Branch

section Run

variable {prog : Program L} (callee : Machine → Machine) (fuel : Nat) {label label' : L}
  {m m' : Machine}

theorem Program.run_next (hexec : execBlock (prog.body label) m = (m', .next))
    (hfollow : prog.following label = some label') :
    prog.run callee (fuel + 1) label m = prog.run callee fuel label' m' := by
  rw [Program.run, hexec, hfollow]
  rfl

theorem Program.run_goto (hexec : execBlock (prog.body label) m = (m', .goto label')) :
    prog.run callee (fuel + 1) label m = prog.run callee fuel label' m' := by
  rw [Program.run, hexec]

theorem Program.run_call (hexec : execBlock (prog.body label) m = (m', .call))
    (hfollow : prog.following label = some label') :
    prog.run callee (fuel + 1) label m = (prog.run callee fuel label' (callee m')).map fun out =>
        { out with calls := m' :: out.calls } := by
  rw [Program.run, hexec, hfollow]
  rfl

theorem Program.run_stop (hexec : execBlock (prog.body label) m = (m', .stop)) :
    prog.run callee (fuel + 1) label m = some { final := m', calls := [] } := by
  rw [Program.run, hexec]

end Run

/-! ### Frame rule -/

/-- The instructions whose only effect is to write `rd`. -/
def Instr.writesOnly (rd : Reg) : Instr L → Bool
  | .csrr r _ | .addi r _ _ | .andi r _ _ | .mv r _ | .la r _ | .ld r _ _ => r = rd
  | _ => false

theorem Instr.step_of_writesOnly {rd : Reg} {i : Instr L} (hi : i.writesOnly rd = true)
    (m : Machine) : ∃ v, i.step m = (m.set rd v, .next) := by
  cases i with
  | csrr r c => exact ⟨m.csr c, by rw [← of_decide_eq_true hi]; rfl⟩
  | addi r rs imm => exact ⟨m.get rs + imm, by rw [← of_decide_eq_true hi]; rfl⟩
  | andi r rs imm => exact ⟨m.get rs &&& imm, by rw [← of_decide_eq_true hi]; rfl⟩
  | mv r rs => exact ⟨m.get rs, by rw [← of_decide_eq_true hi]; rfl⟩
  | la r addr => exact ⟨addr, by rw [← of_decide_eq_true hi]; rfl⟩
  | ld r offset base =>
    exact ⟨loadDword m.mem (m.get base + offset), by rw [← of_decide_eq_true hi]; rfl⟩
  | _ => exact absurd hi (by simp [Instr.writesOnly])

/-- A sequence of such instructions amounts to one write of `rd`. -/
theorem execBlock_writesOnly {rd : Reg} {code : List (Instr L)}
    (hcode : ∀ i ∈ code, i.writesOnly rd = true) (hne : code ≠ []) (rest : List (Instr L))
    (m : Machine) : ∃ v, execBlock (code ++ rest) m = execBlock rest (m.set rd v) := by
  induction code generalizing m with
  | nil => exact absurd rfl hne
  | cons i code ih =>
    obtain ⟨v, hstep⟩ := Instr.step_of_writesOnly (hcode i List.mem_cons_self) m
    have hcons : execBlock (i :: code ++ rest) m = execBlock (code ++ rest) (m.set rd v) := by
      rw [List.cons_append, execBlock, hstep]
    rw [hcons]
    cases code with
    | nil => exact ⟨v, rfl⟩
    | cons i' code =>
      obtain ⟨w, hw⟩ := ih (fun i hi => hcode i (List.mem_cons_of_mem _ hi)) (by simp) (m.set rd v)
      exact ⟨w, by rw [hw, Machine.set_set]⟩

/-! ### Saving and restoring CSRs -/

/-- `8k`, the offset of field `k`. -/
def fieldOffset (k : Nat) : Word := BitVec.ofNat 64 (8 * k)

@[simp] theorem add_fieldOffset (base : Word) (k : Nat) : base + fieldOffset k = field base k :=
  rfl

/-- `csrr s, c; sd s, 8k(base)`. -/
def saveCsr (s : Reg) (c : Csr) (k : Nat) (base : Reg) : List (Instr L) :=
  [.csrr s c, .sd s (fieldOffset k) base]

/-- `ld s, 8k(base); csrw c, s`. -/
def restoreCsr (s : Reg) (c : Csr) (k : Nat) (base : Reg) : List (Instr L) :=
  [.ld s (fieldOffset k) base, .csrw c s]

theorem execBlock_saveCsr {s base : Reg} (hzero : s ≠ .zero) (hbase : base ≠ s) (c : Csr)
    (k : Nat) (rest : List (Instr L)) (m : Machine) :
    execBlock (saveCsr s c k base ++ rest) m = execBlock rest ((m.set s (m.csr c)).setMem
        (storeDword m.mem (field (m.get base) k) (m.csr c))) := by
  simp [saveCsr, execBlock, Instr.step, hzero, hbase]

theorem execBlock_restoreCsr {s : Reg} (hzero : s ≠ .zero) (base : Reg) (c : Csr)
    (k : Nat) (rest : List (Instr L)) (m : Machine) :
    execBlock (restoreCsr s c k base ++ rest) m =
      execBlock rest ((m.set s (loadDword m.mem (field (m.get base) k))).setCsr c
        (loadDword m.mem (field (m.get base) k))) := by
  simp [restoreCsr, execBlock, Instr.step, hzero]

/-! ### Register images

A register image is a record that holds register `xn` in field `n`. -/

/-- `sd r, 8n(base)` for register `r = xn`. -/
def save (base r : Reg) : Instr L := .sd r (fieldOffset r.index) base

/-- `ld r, 8n(base)` for register `r = xn`. -/
def restore (base r : Reg) : Instr L := .ld r (fieldOffset r.index) base

/-- Memory after the registers of a list were saved into the image at `base`. -/
def saveAll (m : Machine) (base : Word) : List Reg → Mem → Mem
  | [], mem => mem
  | r :: rest, mem => saveAll m base rest (storeDword mem (field base r.index) (m.get r))

theorem execBlock_saves (base : Reg) (regs : List Reg) (rest : List (Instr L)) (m : Machine) :
    execBlock (regs.map (save base) ++ rest) m =
      execBlock rest (m.setMem (saveAll m (m.get base) regs m.mem)) := by
  suffices hmem : ∀ mem, execBlock (regs.map (save base) ++ rest) (m.setMem mem) =
      execBlock rest (m.setMem (saveAll m (m.get base) regs mem)) from hmem m.mem
  induction regs with
  | nil => intro mem; rfl
  | cons r regs ih =>
    intro mem
    rw [saveAll, ← ih]
    rfl

theorem loadDword_saveAll_other (m : Machine) (base : Word) (regs : List Reg) (mem : Mem)
    (hk : k < 1024) (hother : ∀ r ∈ regs, r.index ≠ k) :
    loadDword (saveAll m base regs mem) (field base k) = loadDword mem (field base k) := by
  induction regs generalizing mem with
  | nil => rfl
  | cons r regs ih =>
    rw [saveAll, ih _ fun r' hr' => hother r' (List.mem_cons_of_mem _ hr')]
    have hr := r.index_lt
    rw [loadDword_storeDword_field mem base (m.get r) (by omega) hk,
      if_neg (hother r List.mem_cons_self).symm]

/-- Every saved register can be read back from the image. -/
theorem loadDword_saveAll (m : Machine) (base : Word) (regs : List Reg) (mem : Mem)
    (hr : r ∈ regs) :
    loadDword (saveAll m base regs mem) (field base r.index) = m.get r := by
  have hlt := r.index_lt
  induction regs generalizing mem with
  | nil => simp at hr
  | cons head regs ih =>
    rw [saveAll]
    by_cases hmem : r ∈ regs
    · exact ih _ hmem
    · have hhead : r = head := (List.mem_cons.mp hr).resolve_right hmem
      subst hhead
      have hother : ∀ r' ∈ regs, r'.index ≠ r.index := by
        intro r' hr' heq
        exact hmem (Reg.index_injective heq ▸ hr')
      rw [loadDword_saveAll_other m base regs _ (by omega) hother,
        loadDword_storeDword_field mem base (m.get r) (by omega) (by omega), if_pos rfl]

/-- The machine after the registers of a list were restored from the image at
`base`. -/
def restoreAll (base : Word) : List Reg → Machine → Machine
  | [], m => m
  | r :: rest, m => restoreAll base rest (m.set r (loadDword m.mem (field base r.index)))

variable {regs : List Reg}

theorem execBlock_restores {base : Reg} (hbase : base ∉ regs)
    (rest : List (Instr L)) (m : Machine) :
    execBlock (regs.map (restore base) ++ rest) m =
      execBlock rest (restoreAll (m.get base) regs m) := by
  induction regs generalizing m with
  | nil => rfl
  | cons r regs ih =>
    rw [List.mem_cons, not_or] at hbase
    have hrest := ih hbase.2 (m.set r (loadDword m.mem (field (m.get base) r.index)))
    simpa [restoreAll, restore, execBlock, Instr.step, hbase.1] using hrest

variable (base : Word)
include base

@[simp] theorem mem_restoreAll (regs : List Reg) (m : Machine) :
    (restoreAll base regs m).mem = m.mem := by
  induction regs generalizing m with
  | nil => rfl
  | cons r regs ih => rw [restoreAll, ih, Machine.mem_set]

@[simp] theorem csr_restoreAll (regs : List Reg) (m : Machine) :
    (restoreAll base regs m).csr = m.csr := by
  induction regs generalizing m with
  | nil => rfl
  | cons r regs ih => rw [restoreAll, ih, Machine.csr_set]

theorem get_restoreAll_other (hr : r ∉ regs)
    (m : Machine) : (restoreAll base regs m).get r = m.get r := by
  induction regs generalizing m with
  | nil => rfl
  | cons head regs ih =>
    rw [List.mem_cons, not_or] at hr
    simp [restoreAll, ih hr.2, hr.1]

theorem get_restoreAll (hr : r ∈ regs) (hzero : r ≠ .zero) (m : Machine) :
    (restoreAll base regs m).get r = loadDword m.mem (field base r.index) := by
  induction regs generalizing m with
  | nil => simp at hr
  | cons head regs ih =>
    rw [restoreAll]
    by_cases hmem : r ∈ regs
    · rw [ih hmem, Machine.mem_set]
    · have hhead : r = head := (List.mem_cons.mp hr).resolve_right hmem
      subst hhead
      simp [get_restoreAll_other base hmem, hzero]

end CuteOS.Lib.Rv64
