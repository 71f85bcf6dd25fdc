/-
  Mm/View.lean --- what an address is mapped to.

  The VMA array is an implementation of a partial map from addresses to
  attributes: protection, kind, backing file, sharing and, for file mappings, the
  file offset of the byte.  `MmStruct.view` is that map as the code computes it,
  through `find_vma`.  On arrays whose areas are non-empty and pairwise disjoint
  the order of the slots is irrelevant to it (`view_eq_some_iff`).
-/
import CuteOS.Lib.Slots
import CuteOS.Mm.Vma

set_option autoImplicit false

namespace CuteOS.Mm

/-! ## Well-formed arrays -/

/-- The used areas are non-empty intervals of 64-bit addresses and pairwise
disjoint. -/
structure VmasOk (mm : MmStruct) : Prop where
  nonempty : ∀ i, (mm.vma i).used = true → (mm.vma i).vmStart < (mm.vma i).vmEnd
  bounded : ∀ i, (mm.vma i).used = true → (mm.vma i).vmEnd < wordModulus
  disjoint : ∀ i j, i ≠ j → (mm.vma i).used = true → (mm.vma j).used = true →
    (mm.vma i).vmEnd ≤ (mm.vma j).vmStart ∨ (mm.vma j).vmEnd ≤ (mm.vma i).vmStart

variable {mm : MmStruct}

theorem vmasOk_iff : VmasOk mm ↔ (∀ i, (mm.vma i).used = true →
        (mm.vma i).vmStart < (mm.vma i).vmEnd ∧ (mm.vma i).vmEnd < wordModulus) ∧
      ∀ i j, i ≠ j → (mm.vma i).used = true → (mm.vma j).used = true →
        (mm.vma i).vmEnd ≤ (mm.vma j).vmStart ∨ (mm.vma j).vmEnd ≤ (mm.vma i).vmStart :=
  ⟨fun h => ⟨fun i hi => ⟨h.nonempty i hi, h.bounded i hi⟩, h.disjoint⟩,
    fun h => ⟨fun i hi => (h.1 i hi).1, fun i hi => (h.1 i hi).2, h.2⟩⟩

instance (mm : MmStruct) : Decidable (VmasOk mm) := decidable_of_iff _ vmasOk_iff.symm

variable {va : Nat} {i j : Slot}

/-- An address lies in at most one area. -/
theorem VmasOk.unique (h : VmasOk mm)
    (hi : vmaContains (mm.vma i) va = true) (hj : vmaContains (mm.vma j) va = true) :
    i = j := by
  by_contra hne
  rw [vmaContains_iff] at hi hj
  have := h.disjoint i j hne hi.1 hj.1
  omega

section

variable (h : VmasOk mm) (hi : (mm.vma i).used = true) (hj : (mm.vma j).used = true)
include h hi hj

/-- Two areas with the same lower bound are the same slot. -/
theorem VmasOk.eq_of_vmStart_eq (heq : (mm.vma i).vmStart = (mm.vma j).vmStart) : i = j := by
  have hni := h.nonempty i hi
  have hnj := h.nonempty j hj
  have hin : vmaContains (mm.vma i) (mm.vma i).vmStart = true :=
    vmaContains_iff.mpr ⟨hi, by omega, by omega⟩
  exact h.unique hin (vmaContains_iff.mpr ⟨hj, by omega, by omega⟩)

/-- Two areas with the same upper bound are the same slot. -/
theorem VmasOk.eq_of_vmEnd_eq (heq : (mm.vma i).vmEnd = (mm.vma j).vmEnd) : i = j := by
  have hni := h.nonempty i hi
  have hnj := h.nonempty j hj
  have hin : vmaContains (mm.vma i) ((mm.vma i).vmEnd - 1) = true :=
    vmaContains_iff.mpr ⟨hi, by omega, by omega⟩
  exact h.unique hin (vmaContains_iff.mpr ⟨hj, by omega, by omega⟩)

end

/-! ## The address map -/

/-- What the kernel knows about a mapped address. -/
structure Mapping where
  flags : VmFlags
  type : VmType
  file : Option FileId
  shared : Bool
  /-- The file offset of the byte; only file mappings have one. -/
  offset : Option Nat
  deriving DecidableEq, Repr

/-- The attributes that area `v` gives to the address `va`. -/
def vmaMapping (v : VmArea) (va : Nat) : Mapping :=
  { flags := v.vmFlags
    type := v.vmType
    file := v.vmFile
    shared := v.vmShared
    offset := if v.vmFile.isSome then some (vmaOffsetAt v va) else none }

/-- The address map of an address space. -/
def MmStruct.view (mm : MmStruct) (va : Nat) : Option Mapping :=
  (findVma mm va).map fun i => vmaMapping (mm.vma i) va

theorem findVma_eq_some_iff (h : VmasOk mm) :
    findVma mm va = some i ↔ vmaContains (mm.vma i) va = true :=
  Lib.find?_finRange_eq_some_iff_of_unique fun _ _ hi hj => h.unique hi hj

theorem findVma_eq_none_iff : findVma mm va = none ↔ ∀ i, vmaContains (mm.vma i) va = false :=
  Lib.find?_finRange_eq_none_iff

theorem view_eq_some_iff (h : VmasOk mm) {m : Mapping} : mm.view va = some m ↔
      ∃ i, vmaContains (mm.vma i) va = true ∧ vmaMapping (mm.vma i) va = m := by
  simp only [MmStruct.view, Option.map_eq_some_iff, findVma_eq_some_iff h]

theorem view_eq_none_iff : mm.view va = none ↔ ∀ i, vmaContains (mm.vma i) va = false := by
  rw [MmStruct.view, Option.map_eq_none_iff, findVma_eq_none_iff]

theorem view_of_contains (h : VmasOk mm) (hi : vmaContains (mm.vma i) va = true) :
    mm.view va = some (vmaMapping (mm.vma i) va) :=
  (view_eq_some_iff h).mpr ⟨i, hi, rfl⟩

/-- Two well-formed arrays map an address alike when every area that contains it
in the first has a counterpart in the second, and conversely. -/
theorem view_congr {mm' : MmStruct} (h : VmasOk mm) (h' : VmasOk mm')
    (hto : ∀ i, vmaContains (mm.vma i) va = true → ∃ j, vmaContains (mm'.vma j) va = true ∧
        vmaMapping (mm'.vma j) va = vmaMapping (mm.vma i) va)
    (hfrom : ∀ j, vmaContains (mm'.vma j) va = true → ∃ i, vmaContains (mm.vma i) va = true) :
    mm'.view va = mm.view va := by
  cases hview : mm.view va with
  | none =>
    rw [view_eq_none_iff] at hview ⊢
    intro j
    by_contra hj
    obtain ⟨i, hi⟩ := hfrom j (by simpa using hj)
    rw [hview i] at hi
    exact absurd hi (by simp)
  | some m =>
    obtain ⟨i, hi, hm⟩ := (view_eq_some_iff h).mp hview
    obtain ⟨j, hj, hmap⟩ := hto i hi
    rw [view_of_contains h' hj, hmap, hm]

end CuteOS.Mm
