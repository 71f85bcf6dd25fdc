/-
  Mm/Layout.lean --- VMAs and `mm_struct`.

  Sources: `mm/internal.h`, `include/uapi/mman.h`.
-/
import CuteOS.Kernel.Types

set_option autoImplicit false

namespace CuteOS.Mm

/-- `VM_READ`, `VM_WRITE` and `VM_EXEC`: the bits of `vm_flags`. -/
structure VmFlags where
  read : Bool := false
  write : Bool := false
  exec : Bool := false
  deriving DecidableEq, Repr, Inhabited

/-- `VMA_CODE`, `VMA_HEAP`, `VMA_STACK`, `VMA_MMAP`; `unset` is the zero of a
cleared slot. -/
inductive VmType where
  | unset
  | code
  | heap
  | stack
  | mmap
  deriving DecidableEq, Repr, Inhabited

/-- A `struct file *`; the null pointer is `none`. -/
abbrev FileId := Nat

/-- `struct vm_area_struct`. -/
structure VmArea where
  vmStart : Nat := 0
  vmEnd : Nat := 0
  vmFlags : VmFlags := {}
  vmType : VmType := .unset
  vmFile : Option FileId := none
  vmOffset : Nat := 0
  vmShared : Bool := false
  used : Bool := false
  deriving DecidableEq, Repr, Inhabited

/-- `NR_VMA`. -/
def nrVma : Nat := 16

instance : NeZero nrVma := ⟨by decide⟩

/-- An index into the fixed VMA array. -/
abbrev Slot := Fin nrVma

/-- The order in which every `for (int i = 0; i < NR_VMA; i++)` visits the array. -/
def slots : List Slot := List.finRange nrVma

/-- `struct mm_struct`.  `fileRefs` counts, for every file, the `file_get` minus
the `file_put` calls made on behalf of this address space.  The page table, the reference
count, the lock and the membarrier registrations play no part in the modelled functions. -/
structure MmStruct where
  brk : Nat := 0
  codeStart : Nat := 0
  codeEnd : Nat := 0
  vma : Slot → VmArea := fun _ => {}
  fileRefs : FileId → Int := fun _ => 0

/-- Store `v` into slot `i`. -/
def MmStruct.setSlot (mm : MmStruct) (i : Slot) (v : VmArea) : MmStruct :=
  { mm with vma := Function.update mm.vma i v }

/-- `file_put`; a null pointer is ignored. -/
def MmStruct.filePut (mm : MmStruct) (file : Option FileId) : MmStruct :=
  match file with
  | none => mm
  | some f => { mm with fileRefs := Function.update mm.fileRefs f (mm.fileRefs f - 1) }

@[simp] theorem MmStruct.setSlot_vma (mm : MmStruct) (i : Slot) (v : VmArea) :
    (mm.setSlot i v).vma = Function.update mm.vma i v := rfl

@[simp] theorem MmStruct.filePut_vma (mm : MmStruct) (file : Option FileId) :
    (mm.filePut file).vma = mm.vma := by
  cases file <;> rfl

end CuteOS.Mm
