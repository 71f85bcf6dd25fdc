/-
  Mm/Merge.lean --- what `vma_merge_all` does to the address map.

  Two areas can be merged when one continues the other.  The loop keeps the slot
  with the smaller index and assigns one of its bounds.  If the kept slot is the
  lower area, no address changes its meaning.  If it is the upper area of a file
  mapping, `vm_start` moves down while `vm_offset` stays, and every address of the
  kept area is afterwards mapped to a file offset that is too large.
-/
import CuteOS.Mm.View

set_option autoImplicit false

namespace CuteOS.Mm

/-! ## Neighbouring areas -/

/-- Area `b` continues area `a`: it starts where `a` ends, has the same
attributes and, for a file mapping, the file offset goes on as well. -/
structure Continues (a b : VmArea) : Prop where
  usedLeft : a.used = true
  usedRight : b.used = true
  flags : a.vmFlags = b.vmFlags
  type : a.vmType = b.vmType
  file : a.vmFile = b.vmFile
  shared : a.vmShared = b.vmShared
  adjacent : a.vmEnd = b.vmStart
  offset : a.vmFile.isSome = true → vmaOffsetAt a a.vmEnd = b.vmOffset

variable {mm : MmStruct} {i j : Slot}

theorem Continues.ne (h : VmasOk mm) (hc : Continues (mm.vma i) (mm.vma j)) : i ≠ j := by
  rintro rfl
  exact absurd (h.nonempty i hc.usedLeft) (by rw [hc.adjacent]; exact lt_irrefl _)

theorem vmaCanMerge_iff (h : VmasOk mm) : vmaCanMerge mm i j = true ↔
      Continues (mm.vma i) (mm.vma j) ∨ Continues (mm.vma j) (mm.vma i) := by
  constructor
  · intro hmerge
    unfold vmaCanMerge at hmerge
    simp only [Bool.or_eq_true, Bool.not_eq_true'] at hmerge
    split_ifs at hmerge with hij hused hattr hfile hsome hadj hadj'
    all_goals simp only [not_or, Bool.not_eq_false, ne_eq, not_not] at hused hattr hfile
    · exact .inl ⟨hused.1, hused.2, hattr.1, hattr.2, hfile.1, hfile.2, hadj,
        fun _ => by simpa using hmerge⟩
    · exact .inr ⟨hused.2, hused.1, hattr.1.symm, hattr.2.symm, hfile.1.symm, hfile.2.symm,
        hadj', fun _ => by simpa using hmerge⟩
    · rcases (Bool.or_eq_true _ _).mp hmerge with hadj | hadj
      · exact .inl ⟨hused.1, hused.2, hattr.1, hattr.2, hfile.1, hfile.2,
          of_decide_eq_true hadj, fun hs => absurd hs hsome⟩
      · exact .inr ⟨hused.2, hused.1, hattr.1.symm, hattr.2.symm, hfile.1.symm,
          hfile.2.symm, of_decide_eq_true hadj, fun hs => absurd (hfile.1 ▸ hs) hsome⟩
  · rintro (hc | hc)
    · simp [vmaCanMerge, hc.ne h, hc.usedLeft, hc.usedRight, hc.flags, hc.type, hc.shared,
        ← hc.file, hc.adjacent]
      rw [or_iff_not_imp_left, ← hc.adjacent]
      exact fun hs => hc.offset (Option.isSome_iff_ne_none.mpr hs)
    · have hni := h.nonempty i hc.usedRight
      have hnj := h.nonempty j hc.usedLeft
      have hadj := hc.adjacent
      have hback : (mm.vma i).vmEnd ≠ (mm.vma j).vmStart := by omega
      simp [vmaCanMerge, (hc.ne h).symm, hc.usedLeft, hc.usedRight, hc.flags, hc.type,
        hc.shared, hc.file, hback, hc.adjacent]
      rw [or_iff_not_imp_left, ← hc.adjacent, ← hc.file]
      exact fun hs => hc.offset (Option.isSome_iff_ne_none.mpr hs)

theorem vmaCanMerge_comm (h : VmasOk mm)
    (hmerge : vmaCanMerge mm i j = true) : vmaCanMerge mm j i = true :=
  (vmaCanMerge_iff h).mpr ((vmaCanMerge_iff h).mp hmerge).symm

variable {k : Slot}

/-- An area has at most one upper neighbour. -/
theorem Continues.right_unique (h : VmasOk mm)
    (hj : Continues (mm.vma i) (mm.vma j)) (hk : Continues (mm.vma i) (mm.vma k)) : j = k :=
  h.eq_of_vmStart_eq hj.usedRight hk.usedRight (hj.adjacent.symm.trans hk.adjacent)

/-- An area has at most one lower neighbour. -/
theorem Continues.left_unique (h : VmasOk mm)
    (hj : Continues (mm.vma j) (mm.vma i)) (hk : Continues (mm.vma k) (mm.vma i)) : j = k :=
  h.eq_of_vmEnd_eq hj.usedLeft hk.usedLeft (hj.adjacent.trans hk.adjacent.symm)

/-- Two areas do not continue each other both ways round. -/
theorem Continues.not_symm (h : VmasOk mm)
    (hc : Continues (mm.vma i) (mm.vma j)) : ¬ Continues (mm.vma j) (mm.vma i) := by
  intro hback
  have hni := h.nonempty i hc.usedLeft
  have hnj := h.nonempty j hc.usedRight
  have hup := hc.adjacent
  have hdown := hback.adjacent
  omega

variable {a b : VmArea} {va : Nat}

/-- Past the common bound both areas compute the same file offset. -/
theorem Continues.vmaOffsetAt_eq (hc : Continues a b)
    (hfile : a.vmFile.isSome = true) (ha : a.vmStart ≤ a.vmEnd)
    (hva : b.vmStart ≤ va) : vmaOffsetAt a va = vmaOffsetAt b va := by
  have hadj := hc.adjacent
  rw [vmaOffsetAt_of_le hva, ← hc.offset hfile, vmaOffsetAt_of_le ha, Nat.mod_add_mod,
    vmaOffsetAt_of_le (show a.vmStart ≤ va by omega)]
  congr 1
  omega

theorem vmaMapping_congr (hflags : a.vmFlags = b.vmFlags)
    (htype : a.vmType = b.vmType) (hfile : a.vmFile = b.vmFile)
    (hshared : a.vmShared = b.vmShared)
    (hoffset : a.vmFile.isSome = true → vmaOffsetAt a va = vmaOffsetAt b va) :
    vmaMapping a va = vmaMapping b va := by
  unfold vmaMapping
  rw [hflags, htype, hshared]
  by_cases hs : a.vmFile.isSome = true
  · rw [hoffset hs, hfile]
  · rw [if_neg hs, if_neg (hfile ▸ hs), hfile]

/-! ## One merge -/

/-- Slot `i` after it has absorbed slot `j`. -/
def mergedArea (a b : VmArea) : VmArea :=
  if a.vmEnd = b.vmStart then { a with vmEnd := b.vmEnd } else { a with vmStart := b.vmStart }

theorem vmaMergeInto_vma (mm : MmStruct) (i j : Slot) : (vmaMergeInto mm i j).vma =
      Function.update (Function.update mm.vma i (mergedArea (mm.vma i) (mm.vma j))) j {} := by
  by_cases hadj : (mm.vma i).vmEnd = (mm.vma j).vmStart <;>
    simp [vmaMergeInto, mergedArea, vmaFreeSlot, hadj]

@[simp] theorem vmaMergeInto_vma_absorbed (mm : MmStruct) (i j : Slot) :
    (vmaMergeInto mm i j).vma j = {} := by
  simp [vmaMergeInto_vma]

theorem vmaMergeInto_vma_kept (mm : MmStruct) (hij : i ≠ j) :
    (vmaMergeInto mm i j).vma i = mergedArea (mm.vma i) (mm.vma j) := by
  simp [vmaMergeInto_vma, hij]

theorem vmaMergeInto_vma_other (mm : MmStruct) (hi : k ≠ i) (hj : k ≠ j) :
    (vmaMergeInto mm i j).vma k = mm.vma k := by
  simp [vmaMergeInto_vma, hi, hj]

theorem mergedArea_of_continues (hc : Continues a b) :
    mergedArea a b = { a with vmEnd := b.vmEnd } := by
  rw [mergedArea, if_pos hc.adjacent]

/-- The merged area spans both areas and keeps every attribute of the first. -/
structure Spans (a b m : VmArea) : Prop where
  used : m.used = true
  flags : m.vmFlags = a.vmFlags
  type : m.vmType = a.vmType
  file : m.vmFile = a.vmFile
  shared : m.vmShared = a.vmShared
  offset : m.vmOffset = a.vmOffset
  start : m.vmStart = min a.vmStart b.vmStart
  stop : m.vmEnd = max a.vmEnd b.vmEnd
  touching : a.vmEnd = b.vmStart ∨ b.vmEnd = a.vmStart

/-- The slots in use. -/
def usedSlots (mm : MmStruct) : Finset Slot := Finset.univ.filter fun i => (mm.vma i).used = true

@[simp] theorem mem_usedSlots :
    i ∈ usedSlots mm ↔ (mm.vma i).used = true := by
  simp [usedSlots]

/-- A slot used after the merge is the kept slot or one that was not touched. -/
theorem used_vmaMergeInto (hk : ((vmaMergeInto mm i j).vma k).used = true) :
    k ≠ j ∧ (k ≠ i → (vmaMergeInto mm i j).vma k = mm.vma k) := by
  have hkj : k ≠ j := by
    rintro rfl
    simp at hk
  exact ⟨hkj, fun hki => vmaMergeInto_vma_other mm hki hkj⟩

section

variable (h : VmasOk mm) (hmerge : vmaCanMerge mm i j = true)
include h hmerge

theorem mergedArea_spans :
    Spans (mm.vma i) (mm.vma j) (mergedArea (mm.vma i) (mm.vma j)) := by
  rcases (vmaCanMerge_iff h).mp hmerge with hc | hc
  · have hni := h.nonempty i hc.usedLeft
    have hnj := h.nonempty j hc.usedRight
    have hadj := hc.adjacent
    rw [mergedArea_of_continues hc]
    exact ⟨hc.usedLeft, rfl, rfl, rfl, rfl, rfl, by simp only; omega, by simp only; omega,
      .inl hadj⟩
  · have hni := h.nonempty i hc.usedRight
    have hnj := h.nonempty j hc.usedLeft
    have hadj := hc.adjacent
    rw [mergedArea, if_neg (by omega)]
    exact ⟨hc.usedRight, rfl, rfl, rfl, rfl, rfl, by simp only; omega, by simp only; omega,
      .inr hadj⟩

theorem vmaCanMerge_used :
    i ≠ j ∧ (mm.vma i).used = true ∧ (mm.vma j).used = true := by
  rcases (vmaCanMerge_iff h).mp hmerge with hc | hc
  · exact ⟨hc.ne h, hc.usedLeft, hc.usedRight⟩
  · exact ⟨(hc.ne h).symm, hc.usedRight, hc.usedLeft⟩

theorem VmasOk.vmaMergeInto : VmasOk (vmaMergeInto mm i j) := by
  obtain ⟨hij, hui, huj⟩ := vmaCanMerge_used h hmerge
  have hspan := mergedArea_spans h hmerge
  rw [← vmaMergeInto_vma_kept mm hij] at hspan
  have hni := h.nonempty i hui
  have hbi := h.bounded i hui
  have hbj := h.bounded j huj
  have hstart := hspan.start
  have hstop := hspan.stop
  have htouch := hspan.touching
  -- the union of two touching areas meets no third one
  have hkept : ∀ k, k ≠ i → k ≠ j → (mm.vma k).used = true →
      ((CuteOS.Mm.vmaMergeInto mm i j).vma i).vmEnd ≤ (mm.vma k).vmStart ∨
        (mm.vma k).vmEnd ≤ ((CuteOS.Mm.vmaMergeInto mm i j).vma i).vmStart := by
    intro k hki hkj huk
    have hdi := h.disjoint k i hki huk hui
    have hdj := h.disjoint k j hkj huk huj
    have hnk := h.nonempty k huk
    omega
  refine ⟨fun k hk => ?_, fun k hk => ?_, fun k l hkl hk hl => ?_⟩
  · obtain ⟨hkj, hother⟩ := used_vmaMergeInto hk
    by_cases hki : k = i
    · subst hki; omega
    · rw [hother hki] at hk ⊢; exact h.nonempty k hk
  · obtain ⟨hkj, hother⟩ := used_vmaMergeInto hk
    by_cases hki : k = i
    · subst hki; omega
    · rw [hother hki] at hk ⊢; exact h.bounded k hk
  · obtain ⟨hkj, hkother⟩ := used_vmaMergeInto hk
    obtain ⟨hlj, hlother⟩ := used_vmaMergeInto hl
    by_cases hki : k = i
    · subst hki
      have hlk : l ≠ k := hkl.symm
      rw [hlother hlk] at hl ⊢
      exact hkept l hlk hlj hl
    · rw [hkother hki] at hk ⊢
      by_cases hli : l = i
      · subst hli; exact (hkept k hki hkj hk).symm
      · rw [hlother hli] at hl ⊢
        exact h.disjoint k l hkl hk hl

/-- After a merge an address lies in the kept slot exactly when it lay in one of
the two, and in any other slot exactly when it lay there before. -/
theorem vmaContains_vmaMergeInto : vmaContains ((vmaMergeInto mm i j).vma k) va = true ↔
      (k = i ∧ (vmaContains (mm.vma i) va = true ∨ vmaContains (mm.vma j) va = true)) ∨
        (k ≠ i ∧ k ≠ j ∧ vmaContains (mm.vma k) va = true) := by
  obtain ⟨hij, hui, huj⟩ := vmaCanMerge_used h hmerge
  by_cases hki : k = i
  · subst hki
    have hspan := mergedArea_spans h hmerge
    have htouch := hspan.touching
    rw [vmaMergeInto_vma_kept mm hij]
    simp only [vmaContains_iff, hspan.used, hspan.start, hspan.stop, hui, huj, true_and,
      ne_eq, not_true_eq_false, false_and, or_false]
    omega
  · by_cases hkj : k = j
    · subst hkj
      simp [hki]
    · rw [vmaMergeInto_vma_other mm hki hkj]
      simp [hki, hkj]

/-- The merge that keeps the lower area, and every merge of anonymous areas, gives
each address the attributes it had. -/
theorem view_vmaMergeInto (hgood : Continues (mm.vma i) (mm.vma j) ∨ (mm.vma i).vmFile = none)
    (va : Nat) : (vmaMergeInto mm i j).view va = mm.view va := by
  obtain ⟨hij, hui, huj⟩ := vmaCanMerge_used h hmerge
  have hspan := mergedArea_spans h hmerge
  have hkept := vmaMergeInto_vma_kept mm hij
  refine view_congr h (h.vmaMergeInto hmerge) (fun k hk => ?_) (fun k hk => ?_)
  · by_cases hkij : k = i ∨ k = j
    · refine ⟨i, (vmaContains_vmaMergeInto h hmerge).mpr (.inl ⟨rfl, ?_⟩), ?_⟩
      · rcases hkij with rfl | rfl
        · exact .inl hk
        · exact .inr hk
      rw [hkept]
      have hattr : (mm.vma k).vmFlags = (mm.vma i).vmFlags ∧
          (mm.vma k).vmType = (mm.vma i).vmType ∧ (mm.vma k).vmFile = (mm.vma i).vmFile ∧
          (mm.vma k).vmShared = (mm.vma i).vmShared := by
        rcases hkij with rfl | rfl
        · exact ⟨rfl, rfl, rfl, rfl⟩
        · rcases (vmaCanMerge_iff h).mp hmerge with hc | hc
          · exact ⟨hc.flags.symm, hc.type.symm, hc.file.symm, hc.shared.symm⟩
          · exact ⟨hc.flags, hc.type, hc.file, hc.shared⟩
      refine vmaMapping_congr (hspan.flags.trans hattr.1.symm)
        (hspan.type.trans hattr.2.1.symm) (hspan.file.trans hattr.2.2.1.symm)
        (hspan.shared.trans hattr.2.2.2.symm) fun hfile => ?_
      rw [hspan.file] at hfile
      rcases hgood with hc | hanon
      · -- the kept slot is the lower one: the offset runs on from slot `i` to slot `j`
        rw [mergedArea_of_continues hc]
        rcases hkij with rfl | rfl
        · rfl
        · exact hc.vmaOffsetAt_eq hfile (h.nonempty i hui).le (vmaContains_iff.mp hk).2.1
      · simp [hanon] at hfile
    · rw [not_or] at hkij
      exact ⟨k, (vmaContains_vmaMergeInto h hmerge).mpr (.inr ⟨hkij.1, hkij.2, hk⟩),
        by rw [vmaMergeInto_vma_other mm hkij.1 hkij.2]⟩
  · rcases (vmaContains_vmaMergeInto h hmerge).mp hk with ⟨-, hi | hj⟩ | ⟨-, -, hk⟩
    · exact ⟨i, hi⟩
    · exact ⟨j, hj⟩
    · exact ⟨k, hk⟩

/-- A merge empties exactly the absorbed slot. -/
theorem usedSlots_vmaMergeInto : usedSlots (vmaMergeInto mm i j) = (usedSlots mm).erase j := by
  obtain ⟨hij, hui, -⟩ := vmaCanMerge_used h hmerge
  ext k
  by_cases hkj : k = j
  · subst hkj; simp
  · by_cases hki : k = i
    · subst hki
      simp [vmaMergeInto_vma_kept mm hij, (mergedArea_spans h hmerge).used, hui, hij]
    · simp [vmaMergeInto_vma_other mm hki hkj, hkj]

theorem card_usedSlots_vmaMergeInto :
    (usedSlots (vmaMergeInto mm i j)).card + 1 = (usedSlots mm).card := by
  rw [usedSlots_vmaMergeInto h hmerge]
  exact Finset.card_erase_add_one (mem_usedSlots.mpr (vmaCanMerge_used h hmerge).2.2)

end

/-! ## The loop -/

/-- The loop stops on the least slot that has a partner at all. -/
theorem vmaMergePick_eq_some (hpick : vmaMergePick mm = some (i, j)) :
    vmaCanMerge mm i j = true ∧ ∀ a < i, ∀ b, vmaCanMerge mm a b = false := by
  obtain ⟨hfind, hbefore⟩ := Lib.findSome?_finRange_eq_some hpick
  exact ⟨(Lib.find?_finRange_eq_some_iff.mp hfind).1, hbefore⟩

theorem vmaMergePick_eq_none_iff : vmaMergePick mm = none ↔ ∀ i j, vmaCanMerge mm i j = false :=
  Lib.findSome?_finRange_eq_none_iff

/-- The absorbed slot always has the larger index. -/
theorem lt_of_vmaMergePick (h : VmasOk mm) (hpick : vmaMergePick mm = some (i, j)) : i < j := by
  obtain ⟨hmerge, hleast⟩ := vmaMergePick_eq_some hpick
  obtain ⟨hij, -, -⟩ := vmaCanMerge_used h hmerge
  by_contra hnot
  have hji : j < i := lt_of_le_of_ne (not_lt.mp hnot) hij.symm
  have hback := vmaCanMerge_comm h hmerge
  rw [hleast j hji i] at hback
  exact absurd hback (by simp)

theorem card_usedSlots_le (mm : MmStruct) : (usedSlots mm).card ≤ nrVma :=
  (Finset.card_le_univ _).trans_eq (Fintype.card_fin nrVma)

/-- As many rounds as there are used slots reach the round that finds no pair. -/
theorem vmaMergePick_vmaMergeLoop (h : VmasOk mm) (fuel : Nat)
    (hfuel : (usedSlots mm).card ≤ fuel) : vmaMergePick (vmaMergeLoop fuel mm) = none := by
  induction fuel generalizing mm with
  | zero =>
    have hempty : usedSlots mm = ∅ := Finset.card_eq_zero.mp (Nat.le_zero.mp hfuel)
    rw [vmaMergeLoop, vmaMergePick_eq_none_iff]
    intro i j
    by_contra hmerge
    have hui := (vmaCanMerge_used h (by simpa using hmerge)).2.1
    rw [← mem_usedSlots, hempty] at hui
    simp at hui
  | succ fuel ih =>
    rw [vmaMergeLoop]
    cases hpick : vmaMergePick mm with
    | none => exact hpick
    | some pair =>
      have hmerge := (vmaMergePick_eq_some hpick).1
      have hcard := card_usedSlots_vmaMergeInto h hmerge
      exact ih (h.vmaMergeInto hmerge) (by omega)

/-! ## Slot order

The merges that go wrong are those whose kept slot is the upper area of a file
mapping.  Whether one occurs is decided by the array at the start: the areas that
can be merged form chains of neighbours, and the slot of a chain that absorbs the
others is the one with the least index. -/

/-- Slot `j` holds the upper neighbour of the file area in slot `i`. -/
def FileContinues (mm : MmStruct) (i j : Slot) : Prop :=
  Continues (mm.vma i) (mm.vma j) ∧ (mm.vma i).vmFile.isSome = true

/-- Slots `i` and `j` belong to the same chain of mergeable file areas. -/
def SameChain (mm : MmStruct) : Slot → Slot → Prop :=
  Relation.EqvGen (FileContinues mm)

/-- In every chain of mergeable file areas the slot with the least index holds the
lowest area: a slot with a lower neighbour is not the least of its chain. -/
def MergeOrderOk (mm : MmStruct) : Prop :=
  ∀ i j, FileContinues mm j i → ∃ k < i, SameChain mm i k

theorem FileContinues.vmaCanMerge (h : VmasOk mm)
    (hc : FileContinues mm i j) : vmaCanMerge mm i j = true :=
  (vmaCanMerge_iff h).mpr (.inl hc.1)

/-- Two different slots of one chain both have a partner. -/
theorem SameChain.partner (h : VmasOk mm) (hchain : SameChain mm i j) :
    i = j ∨ ((∃ k, vmaCanMerge mm i k = true) ∧ ∃ k, vmaCanMerge mm j k = true) := by
  induction hchain with
  | rel x y hxy =>
    exact .inr ⟨⟨y, hxy.vmaCanMerge h⟩, ⟨x, vmaCanMerge_comm h (hxy.vmaCanMerge h)⟩⟩
  | refl x => exact .inl rfl
  | symm x y _ ih =>
    rcases ih with rfl | ⟨hx, hy⟩
    · exact .inl rfl
    · exact .inr ⟨hy, hx⟩
  | trans x y z _ _ ihxy ihyz =>
    rcases ihxy with rfl | ⟨hx, hy⟩
    · exact ihyz
    · rcases ihyz with rfl | ⟨-, hz⟩
      · exact .inr ⟨hx, hy⟩
      · exact .inr ⟨hx, hz⟩

variable {mm' : MmStruct}

/-- A map of slots that respects neighbours up to chains respects chains. -/
theorem SameChain.map (f : Slot → Slot)
    (hf : ∀ x y, FileContinues mm x y → SameChain mm' (f x) (f y))
    (hchain : SameChain mm i j) : SameChain mm' (f i) (f j) := by
  induction hchain with
  | rel x y hxy => exact hf x y hxy
  | refl x => exact .refl _
  | symm x y _ ih => exact ih.symm
  | trans x y z _ _ ihxy ihyz => exact ihxy.trans _ _ _ ihyz

/-- Under a correct order the loop only keeps lower areas of file mappings. -/
theorem MergeOrderOk.pick_good (h : VmasOk mm) (horder : MergeOrderOk mm)
    (hpick : vmaMergePick mm = some (i, j)) :
    Continues (mm.vma i) (mm.vma j) ∨ (mm.vma i).vmFile = none := by
  obtain ⟨hmerge, hleast⟩ := vmaMergePick_eq_some hpick
  rcases (vmaCanMerge_iff h).mp hmerge with hc | hc
  · exact .inl hc
  · refine .inr (Option.not_isSome_iff_eq_none.mp fun hfile => ?_)
    rw [← hc.file] at hfile
    obtain ⟨k, hki, hchain⟩ := horder i j ⟨hc, hfile⟩
    rcases hchain.partner h with rfl | ⟨-, b, hkb⟩
    · exact absurd hki (lt_irrefl _)
    · rw [hleast k hki b] at hkb
      exact absurd hkb (by simp)

/-! ### Neighbours across a merge -/

/-- What an area shows to a neighbour at one of its bounds. -/
structure Face where
  used : Bool
  addr : Nat
  mapping : Mapping
  deriving DecidableEq

def upperFace (v : VmArea) : Face := ⟨v.used, v.vmEnd, vmaMapping v v.vmEnd⟩

def lowerFace (v : VmArea) : Face :=
  ⟨v.used, v.vmStart, { vmaMapping v v.vmStart with
    offset := if v.vmFile.isSome then some v.vmOffset else none }⟩

theorem fileContinues_iff : FileContinues mm i j ↔
      upperFace (mm.vma i) = lowerFace (mm.vma j) ∧ (upperFace (mm.vma i)).used = true ∧
        (upperFace (mm.vma i)).mapping.file.isSome = true := by
  constructor
  · rintro ⟨hc, hfile⟩
    refine ⟨?_, hc.usedLeft, hfile⟩
    simp [upperFace, lowerFace, vmaMapping, hc.usedLeft, hc.usedRight, hc.flags, hc.type, ← hc.file,
      hc.shared, hc.adjacent, ← hc.offset hfile]
  · rintro ⟨hface, hused, hfile⟩
    simp only [upperFace, lowerFace, vmaMapping, Face.mk.injEq, Mapping.mk.injEq] at hface hused hfile
    obtain ⟨hu, haddr, hflags, htype, hfiles, hshared, hoffset⟩ := hface
    refine ⟨⟨hused, hu ▸ hused, hflags, htype, hfiles, hshared, haddr, fun _ => ?_⟩, hfile⟩
    rw [if_pos hfile, if_pos (hfiles ▸ hfile)] at hoffset
    exact Option.some.inj hoffset

instance (mm : MmStruct) (i j : Slot) : Decidable (FileContinues mm i j) :=
  decidable_of_iff _ fileContinues_iff.symm

section LowerKept

variable {x : Slot}

/-- After the lower file area has absorbed its neighbour, slot `i` shows its own
face below and the face of slot `j` above. -/
theorem faces_vmaMergeInto (h : VmasOk mm) (hc : FileContinues mm i j) (hx : x ≠ j) :
    lowerFace ((vmaMergeInto mm i j).vma x) = lowerFace (mm.vma x) ∧
      upperFace ((vmaMergeInto mm i j).vma x) =
        upperFace (mm.vma (if x = i then j else x)) := by
  by_cases hxi : x = i
  · subst hxi
    rw [if_pos rfl, vmaMergeInto_vma_kept mm (hc.1.ne h), mergedArea_of_continues hc.1]
    refine ⟨rfl, ?_⟩
    have hoffset := hc.1.vmaOffsetAt_eq hc.2 (h.nonempty x hc.1.usedLeft).le
      (h.nonempty j hc.1.usedRight).le
    have hmap : vmaMapping { mm.vma x with vmEnd := (mm.vma j).vmEnd } (mm.vma j).vmEnd =
        vmaMapping (mm.vma j) (mm.vma j).vmEnd :=
      vmaMapping_congr hc.1.flags hc.1.type hc.1.file hc.1.shared fun _ => hoffset
    exact Face.mk.injEq .. ▸ ⟨hc.1.usedLeft.trans hc.1.usedRight.symm, rfl, hmap⟩
  · rw [if_neg hxi, vmaMergeInto_vma_other mm hxi hx]
    exact ⟨rfl, rfl⟩

variable {y : Slot}

theorem FileContinues.ne_absorbed (hxy : FileContinues (vmaMergeInto mm i j) x y) : x ≠ j ∧ y ≠ j :=
  ⟨(used_vmaMergeInto hxy.1.usedLeft).1, (used_vmaMergeInto hxy.1.usedRight).1⟩

variable (h : VmasOk mm) (hc : FileContinues mm i j)
include h hc

/-- Neighbours after the merge were neighbours before it, slot `j` standing in for
slot `i` below its upper neighbour. -/
theorem fileContinues_before_merge (hxy : FileContinues (vmaMergeInto mm i j) x y) :
    FileContinues mm (if x = i then j else x) y := by
  obtain ⟨hx, hy⟩ := hxy.ne_absorbed
  rw [fileContinues_iff] at hxy ⊢
  rwa [(faces_vmaMergeInto h hc hx).2, (faces_vmaMergeInto h hc hy).1] at hxy

/-- Neighbours before the merge are the merged pair itself or are still
neighbours, slot `i` standing in for slot `j`. -/
theorem fileContinues_after_merge (hxy : FileContinues mm x y) :
    (x = i ∧ y = j) ∨ (y ≠ j ∧ FileContinues (vmaMergeInto mm i j) (if x = j then i else x) y) := by
  by_cases hyj : y = j
  · subst hyj
    exact .inl ⟨hxy.1.left_unique h hc.1, rfl⟩
  have hxi : x ≠ i := by
    rintro rfl
    exact hyj (hxy.1.right_unique h hc.1)
  have hij := hc.1.ne h
  have hx : (if x = j then i else x) ≠ j := by
    split_ifs with hxj
    · exact hij
    · exact hxj
  refine .inr ⟨hyj, ?_⟩
  rw [fileContinues_iff] at hxy ⊢
  rw [(faces_vmaMergeInto h hc hx).2, (faces_vmaMergeInto h hc hyj).1]
  have hback : (if (if x = j then i else x) = i then j else if x = j then i else x) = x := by
    by_cases hxj : x = j
    · simp [hxj]
    · simp [hxj, hxi]
  rwa [hback]

/-- Whether the slot order is right is not changed by a merge that keeps the lower
file area in the smaller slot. -/
theorem mergeOrderOk_vmaMergeInto_file
    (hlt : i < j) : MergeOrderOk (vmaMergeInto mm i j) ↔ MergeOrderOk mm := by
  have hpair : SameChain mm i j := .rel _ _ hc
  constructor
  · intro horder x y hyx
    have hback : ∀ a b, FileContinues (vmaMergeInto mm i j) a b → SameChain mm a b := by
      intro a b hab
      have hbefore := fileContinues_before_merge h hc hab
      by_cases hai : a = i
      · subst hai
        rw [if_pos rfl] at hbefore
        exact hpair.trans _ _ _ (.rel _ _ hbefore)
      · rw [if_neg hai] at hbefore
        exact .rel _ _ hbefore
    rcases fileContinues_after_merge h hc hyx with ⟨rfl, rfl⟩ | ⟨-, hafter⟩
    · exact ⟨y, hlt, hpair.symm⟩
    · obtain ⟨k, hk, hchain⟩ := horder x _ hafter
      exact ⟨k, hk, SameChain.map id hback hchain⟩
  · intro horder x y hyx
    obtain ⟨k, hk, hchain⟩ := horder x _ (fileContinues_before_merge h hc hyx)
    have hfwd : ∀ a b, FileContinues mm a b →
        SameChain (vmaMergeInto mm i j) (if a = j then i else a) (if b = j then i else b) := by
      intro a b hab
      rcases fileContinues_after_merge h hc hab with ⟨rfl, rfl⟩ | ⟨hb, hafter⟩
      · rw [if_neg (hc.1.ne h), if_pos rfl]
        exact .refl _
      · rw [if_neg hb]
        exact .rel _ _ hafter
    have hchain' := SameChain.map (fun a => if a = j then i else a) hfwd hchain
    simp only [if_neg hyx.ne_absorbed.2] at hchain'
    refine ⟨_, ?_, hchain'⟩
    split_ifs with hkj
    · exact hlt.trans (hkj ▸ hk)
    · exact hk

end LowerKept

/-- A merge of anonymous areas does not touch the chains of file areas. -/
theorem mergeOrderOk_vmaMergeInto_anon (h : VmasOk mm)
    (hmerge : vmaCanMerge mm i j = true) (hanon : (mm.vma i).vmFile = none) :
    MergeOrderOk (vmaMergeInto mm i j) ↔ MergeOrderOk mm := by
  obtain ⟨hij, hui, huj⟩ := vmaCanMerge_used h hmerge
  have hanonj : (mm.vma j).vmFile = none := by
    rcases (vmaCanMerge_iff h).mp hmerge with hc | hc
    · rw [← hc.file, hanon]
    · rw [hc.file, hanon]
  have hsame : FileContinues (vmaMergeInto mm i j) = FileContinues mm := by
    have hnone : ((vmaMergeInto mm i j).vma i).vmFile = none := by
      rw [vmaMergeInto_vma_kept mm hij, (mergedArea_spans h hmerge).file, hanon]
    have hfree : ((vmaMergeInto mm i j).vma j).vmFile = none := by simp
    funext x y
    by_cases hx : x = i ∨ x = j
    · rcases hx with rfl | rfl <;> simp [FileContinues, *]
    · by_cases hy : y = i ∨ y = j
      · have hno : ∀ mm' : MmStruct, (mm'.vma y).vmFile = none → ¬ FileContinues mm' x y := by
          rintro mm' hnone' ⟨hc, hfile⟩
          rw [hc.file, hnone'] at hfile
          simp at hfile
        rcases hy with rfl | rfl
        · simp [hno _ hnone, hno _ hanon]
        · simp [hno _ hfree, hno _ hanonj]
      · rw [not_or] at hx hy
        unfold FileContinues
        rw [vmaMergeInto_vma_other mm hx.1 hx.2, vmaMergeInto_vma_other mm hy.1 hy.2]
  unfold MergeOrderOk SameChain
  rw [hsame]

/-- The merge that the loop picks keeps the upper of two file areas, or it does not
affect whether the slot order is right. -/
theorem mergeOrderOk_vmaMergeInto (h : VmasOk mm) (hpick : vmaMergePick mm = some (i, j)) :
    ((Continues (mm.vma i) (mm.vma j) ∨ (mm.vma i).vmFile = none) ∧
        (MergeOrderOk (vmaMergeInto mm i j) ↔ MergeOrderOk mm)) ∨
      FileContinues mm j i := by
  have hmerge := (vmaMergePick_eq_some hpick).1
  cases hfile : (mm.vma i).vmFile with
  | none => exact .inl ⟨.inr rfl, mergeOrderOk_vmaMergeInto_anon h hmerge hfile⟩
  | some f =>
    rcases (vmaCanMerge_iff h).mp hmerge with hc | hc
    · exact .inl ⟨.inl hc, mergeOrderOk_vmaMergeInto_file h ⟨hc, by simp [hfile]⟩
        (lt_of_vmaMergePick h hpick)⟩
    · exact .inr ⟨hc, by simp [hc.file, hfile]⟩

theorem mergeOrderOk_of_pick_none (h : VmasOk mm)
    (hpick : vmaMergePick mm = none) : MergeOrderOk mm := by
  intro i j hc
  have hmerge := hc.vmaCanMerge h
  rw [vmaMergePick_eq_none_iff.mp hpick j i] at hmerge
  exact absurd hmerge (by simp)

/-! ## The address map across the loop -/

/-- Some file area of `mm` is mapped by `mm'` to offsets that are too large: those of
an area with the same `vm_offset` that starts lower. -/
def Shifted (mm mm' : MmStruct) : Prop :=
  ∃ k s, (mm.vma k).used = true ∧ (mm.vma k).vmFile.isSome = true ∧ s < (mm.vma k).vmStart ∧
    ∀ va, vmaContains (mm.vma k) va = true →
      ∃ m, mm'.view va = some m ∧
        m.offset = some (((mm.vma k).vmOffset + (va - s)) % wordModulus)

/-- A shifted area really changes its meaning. -/
theorem Shifted.view_ne (h : VmasOk mm) (hshift : Shifted mm mm') :
    ∃ va, mm'.view va ≠ mm.view va := by
  obtain ⟨k, s, huk, hfile, hs, hview⟩ := hshift
  have hnk := h.nonempty k huk
  have hbk := h.bounded k huk
  have hmem : vmaContains (mm.vma k) (mm.vma k).vmStart = true :=
    vmaContains_iff.mpr ⟨huk, le_refl _, hnk⟩
  obtain ⟨m, hm, hoffset⟩ := hview _ hmem
  refine ⟨(mm.vma k).vmStart, fun heq => ?_⟩
  rw [hm, view_of_contains h hmem] at heq
  rw [Option.some.inj heq] at hoffset
  simp only [vmaMapping, hfile, if_true, Option.some.injEq] at hoffset
  rw [vmaOffsetAt_of_le (le_refl _)] at hoffset
  -- the two offsets differ by `vm_start - s`, which is positive and below `2 ^ 64`
  unfold wordModulus at hoffset hbk
  omega

theorem Shifted.congr {mm'' : MmStruct} (hshift : Shifted mm mm')
    (hview : ∀ va, mm''.view va = mm'.view va) : Shifted mm mm'' := by
  obtain ⟨k, s, huk, hfile, hs, hoffset⟩ := hshift
  exact ⟨k, s, huk, hfile, hs, fun va hva => by rw [hview va]; exact hoffset va hva⟩

/-- A shift after one merge is a shift before it: the kept slot only grows and keeps
its `vm_offset`. -/
theorem Shifted.of_vmaMergeInto (h : VmasOk mm)
    (hmerge : vmaCanMerge mm i j = true) (hshift : Shifted (vmaMergeInto mm i j) mm') :
    Shifted mm mm' := by
  obtain ⟨hij, hui, -⟩ := vmaCanMerge_used h hmerge
  obtain ⟨k, s, huk, hfile, hs, hview⟩ := hshift
  obtain ⟨hkj, hother⟩ := used_vmaMergeInto huk
  by_cases hki : k = i
  · subst hki
    have hspan := mergedArea_spans h hmerge
    rw [← vmaMergeInto_vma_kept mm hij] at hspan
    have hstart := hspan.start
    rw [hspan.file] at hfile
    rw [hspan.offset] at hview
    exact ⟨k, s, hui, hfile, by omega, fun va hva =>
      hview va ((vmaContains_vmaMergeInto h hmerge).mpr (.inl ⟨rfl, .inl hva⟩))⟩
  · rw [hother hki] at huk hfile hs hview
    exact ⟨k, s, huk, hfile, hs, hview⟩

/-- A merge that keeps the upper file area shifts it. -/
theorem shifted_of_upper_kept (h : VmasOk mm)
    (hmerge : vmaCanMerge mm i j = true) (hc : FileContinues mm j i) :
    Shifted mm (vmaMergeInto mm i j) := by
  obtain ⟨hij, hui, huj⟩ := vmaCanMerge_used h hmerge
  have hfile : (mm.vma i).vmFile.isSome = true := hc.1.file ▸ hc.2
  have hnj := h.nonempty j huj
  have hadj := hc.1.adjacent
  have hspan := mergedArea_spans h hmerge
  rw [← vmaMergeInto_vma_kept mm hij] at hspan
  have hstart : ((vmaMergeInto mm i j).vma i).vmStart = (mm.vma j).vmStart := by
    have := hspan.start; omega
  refine ⟨i, (mm.vma j).vmStart, hui, hfile, by omega, fun va hva => ?_⟩
  have hin : vmaContains ((vmaMergeInto mm i j).vma i) va = true :=
    (vmaContains_vmaMergeInto h hmerge).mpr (.inl ⟨rfl, .inl hva⟩)
  refine ⟨_, view_of_contains (h.vmaMergeInto hmerge) hin, ?_⟩
  simp only [vmaMapping, hspan.file, hfile, if_true]
  rw [vmaOffsetAt_of_le (vmaContains_iff.mp hin).2.1, hspan.offset, hstart]

/-- The whole loop: with the right slot order every address keeps its meaning, with
the wrong one some file area is shifted. -/
theorem view_vmaMergeLoop (h : VmasOk mm) (fuel : Nat) (hfuel : (usedSlots mm).card ≤ fuel) :
    (MergeOrderOk mm → ∀ va, (vmaMergeLoop fuel mm).view va = mm.view va) ∧
      (¬ MergeOrderOk mm → Shifted mm (vmaMergeLoop fuel mm)) := by
  -- the last merge that keeps an upper file area is the one whose shift stays visible
  suffices hcases : (MergeOrderOk mm ∧ ∀ va, (vmaMergeLoop fuel mm).view va = mm.view va) ∨
      (¬ MergeOrderOk mm ∧ Shifted mm (vmaMergeLoop fuel mm)) by
    rcases hcases with ⟨horder, hview⟩ | ⟨horder, hshift⟩
    · exact ⟨fun _ => hview, fun hno => absurd horder hno⟩
    · exact ⟨fun hyes => absurd hyes horder, fun _ => hshift⟩
  induction fuel generalizing mm with
  | zero =>
    have hpick := vmaMergePick_vmaMergeLoop h 0 hfuel
    exact .inl ⟨mergeOrderOk_of_pick_none h hpick, fun _ => rfl⟩
  | succ fuel ih =>
    rw [vmaMergeLoop]
    cases hpick : vmaMergePick mm with
    | none => exact .inl ⟨mergeOrderOk_of_pick_none h hpick, fun _ => rfl⟩
    | some pair =>
      have hmerge := (vmaMergePick_eq_some hpick).1
      have hcard := card_usedSlots_vmaMergeInto h hmerge
      have hrest := ih (h.vmaMergeInto hmerge) (by omega)
      rcases mergeOrderOk_vmaMergeInto h hpick with ⟨hgood, hiff⟩ | hbad
      · have hview := view_vmaMergeInto h hmerge hgood
        rcases hrest with ⟨horder, hsame⟩ | ⟨horder, hshift⟩
        · exact .inl ⟨hiff.mp horder, fun va => (hsame va).trans (hview va)⟩
        · exact .inr ⟨fun hno => horder (hiff.mpr hno), hshift.of_vmaMergeInto h hmerge⟩
      · have hno : ¬ MergeOrderOk mm := fun horder => by
          rcases horder.pick_good h hpick with hc | hanon
          · exact hc.not_symm h hbad.1
          · exact absurd hbad.2 (by simp [hbad.1.file, hanon])
        refine .inr ⟨hno, ?_⟩
        rcases hrest with ⟨-, hsame⟩ | ⟨-, hshift⟩
        · exact (shifted_of_upper_kept h hmerge hbad).congr hsame
        · exact hshift.of_vmaMergeInto h hmerge

/-- `vma_merge_all` preserves the meaning of every address exactly when, in every
chain of mergeable file areas, the slot with the least index holds the lowest
area. -/
theorem view_vmaMergeAll_iff {mm : MmStruct} (h : VmasOk mm) :
    (∀ va, (vmaMergeAll mm).view va = mm.view va) ↔ MergeOrderOk mm := by
  obtain ⟨hright, hwrong⟩ := view_vmaMergeLoop h nrVma (card_usedSlots_le mm)
  refine ⟨fun hview => ?_, hright⟩
  by_contra horder
  obtain ⟨va, hne⟩ := (hwrong horder).view_ne h
  exact hne (hview va)

/-- Two adjacent pages of one file, at file offsets 0 and 0x1000. -/
def twoFilePages (lower upper : Slot) : MmStruct :=
  let page : VmArea :=
    { vmStart := 0x10000, vmEnd := 0x11000, vmFlags := { read := true }, vmType := .mmap
      vmFile := some 3, vmOffset := 0, used := true }
  (({} : MmStruct).setSlot lower page).setSlot upper
    { page with vmStart := 0x11000, vmEnd := 0x12000, vmOffset := 0x1000 }

theorem view_vmaMergeAll_twoFilePages : VmasOk (twoFilePages 0 1) ∧
      ∀ va, (vmaMergeAll (twoFilePages 0 1)).view va = (twoFilePages 0 1).view va := by
  have hok : VmasOk (twoFilePages 0 1) := by decide +kernel
  refine ⟨hok, (view_vmaMergeAll_iff hok).mpr fun i j hc => ?_⟩
  have honly : ∀ i j, FileContinues (twoFilePages 0 1) j i → i = 1 ∧ j = 0 := by
    decide +kernel
  obtain ⟨rfl, rfl⟩ := honly i j hc
  exact ⟨0, by decide, (Relation.EqvGen.rel _ _ hc).symm⟩

/-- With the upper page in the smaller slot, the address `0x11000`, file offset
`0x1000` before the merge, is mapped to file offset `0x2000` after it. -/
theorem vmaMergeAll_upper_kept : VmasOk (twoFilePages 1 0) ∧
      (vmaMergeAll (twoFilePages 1 0)).view 0x11000 ≠ (twoFilePages 1 0).view 0x11000 := by
  decide +kernel

end CuteOS.Mm
