/-
  Mm/Vma.lean --- operations on the fixed VMA array.

  Source: `mm/vma.c`, the inline helpers of `mm/internal.h`, and `find_vma` of
  `mm/mmap.c`.  Every function keeps the name and the statement order of its
  source; a pointer into the array is a `Slot`.
-/
import CuteOS.Mm.Layout

set_option autoImplicit false

namespace CuteOS.Mm

/-! ## Inline helpers -/

/-- `vma_offset_at`, with the wrap-around of `uint64_t`. -/
def vmaOffsetAt (v : VmArea) (va : Nat) : Nat :=
  (v.vmOffset + (va + wordModulus - v.vmStart)) % wordModulus

/-- The test that `find_vma` makes on one slot. -/
def vmaContains (v : VmArea) (addr : Nat) : Bool :=
  v.used && decide (addr ≥ v.vmStart) && decide (addr < v.vmEnd)

@[simp] theorem vmaContains_iff {v : VmArea} {addr : Nat} :
    vmaContains v addr = true ↔ v.used = true ∧ v.vmStart ≤ addr ∧ addr < v.vmEnd := by
  simp [vmaContains, and_assoc]

/-- Inside the area, and away from wrap-around of the subtraction, the offset
advances with the address. -/
theorem vmaOffsetAt_of_le {v : VmArea} {va : Nat} (h : v.vmStart ≤ va) :
    vmaOffsetAt v va = (v.vmOffset + (va - v.vmStart)) % wordModulus := by
  have hsub : va + wordModulus - v.vmStart = (va - v.vmStart) + wordModulus := by omega
  rw [vmaOffsetAt, hsub, ← Nat.add_assoc, Nat.add_mod_right]

/-! ## Slots -/

/-- `find_vma`. -/
def findVma (mm : MmStruct) (addr : Nat) : Option Slot :=
  slots.find? fun i => vmaContains (mm.vma i) addr

/-- `vma_free_slot`. -/
def vmaFreeSlot (mm : MmStruct) (i : Slot) : MmStruct :=
  (mm.filePut (mm.vma i).vmFile).setSlot i {}

/-! ## Merging -/

/-- `vma_can_merge` on the slots `i` and `j`. -/
def vmaCanMerge (mm : MmStruct) (i j : Slot) : Bool :=
  let a := mm.vma i
  let b := mm.vma j
  if i = j then false
  else if !a.used || !b.used then false
  else if a.vmFlags ≠ b.vmFlags ∨ a.vmType ≠ b.vmType then false
  else if a.vmFile ≠ b.vmFile ∨ a.vmShared ≠ b.vmShared then false
  else if a.vmFile.isSome then
    if a.vmEnd = b.vmStart then vmaOffsetAt a a.vmEnd == b.vmOffset
    else if b.vmEnd = a.vmStart then vmaOffsetAt b b.vmEnd == a.vmOffset
    else false
  else decide (a.vmEnd = b.vmStart) || decide (b.vmEnd = a.vmStart)

/-- The pair on which the two nested loops of `vma_merge_all` stop. -/
def vmaMergePick (mm : MmStruct) : Option (Slot × Slot) :=
  slots.findSome? fun i => (slots.find? fun j => vmaCanMerge mm i j).map fun j => (i, j)

/-- The body of the inner loop: slot `i` absorbs slot `j`.  Only one bound of
slot `i` is assigned; its `vm_offset` is not. -/
def vmaMergeInto (mm : MmStruct) (i j : Slot) : MmStruct :=
  let a := mm.vma i
  let b := mm.vma j
  let mm :=
    if a.vmEnd = b.vmStart then mm.setSlot i { a with vmEnd := b.vmEnd }
    else mm.setSlot i { a with vmStart := b.vmStart }
  vmaFreeSlot mm j

/-- The `do … while (merged)` loop, cut off after `fuel` merges. -/
def vmaMergeLoop : Nat → MmStruct → MmStruct
  | 0, mm => mm
  | fuel + 1, mm =>
    match vmaMergePick mm with
    | none => mm
    | some (i, j) => vmaMergeLoop fuel (vmaMergeInto mm i j)

/-- `vma_merge_all`.  Every merge clears a used slot, so `NR_VMA` rounds reach the
round that finds nothing (`vmaMergePick_vmaMergeAll`). -/
def vmaMergeAll (mm : MmStruct) : MmStruct := vmaMergeLoop nrVma mm

end CuteOS.Mm
