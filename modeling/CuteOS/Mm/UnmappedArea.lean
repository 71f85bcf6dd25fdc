/-
  Mm/UnmappedArea.lean --- the search for a free range of addresses.

  Sources: `find_unmapped_area` of `mm/mmap.c`, `vma_range_overlaps` of
  `mm/vma.c`, `user_map_reserved_overlaps` of `mm/user_map.c` and the inline
  helpers of `mm/internal.h`.

  `Place` says what a caller may expect of the start of a new mapping.  The scan
  goes down page by page from the stack area; it returns the greatest place, and
  it returns zero only when there is none.
-/
import CuteOS.Mm.Layout
import Mathlib.Order.Bounds.Basic

set_option autoImplicit false

namespace CuteOS.Mm

/-! ## The code -/

/-- `mm_page_align_up`, with the wrap-around of `uintptr_t`. -/
def mmPageAlignUp (addr : Nat) : Nat :=
  (addr + (pageSize - 1)) % wordModulus / pageSize * pageSize

/-- `vma_overlaps`. -/
def vmaOverlaps (v : VmArea) (start stop : Nat) : Bool :=
  v.used && decide (start < v.vmEnd) && decide (stop > v.vmStart)

/-- `vma_range_overlaps`. -/
def vmaRangeOverlaps (mm : MmStruct) (start stop : Nat) : Bool :=
  slots.any fun i => vmaOverlaps (mm.vma i) start stop

/-- `NR_USER_MAPS`. -/
def nrUserMaps : Nat := 4

/-- The reserved range of a `struct user_map`; its name and its mapping function
play no part here. -/
structure UserMap where
  reservedStart : Nat := 0
  reservedEnd : Nat := 0

/-- `user_map_reserved_overlaps`; the registry `user_maps[]` is an argument. -/
def userMapReservedOverlaps (maps : Fin nrUserMaps → UserMap) (start stop : Nat) : Bool :=
  if start ≥ stop then false
  else (List.finRange nrUserMaps).any fun i =>
    decide ((maps i).reservedEnd ≠ 0) && decide (start < (maps i).reservedEnd) &&
      decide (stop > (maps i).reservedStart)

/-- The test that `find_unmapped_area` makes on one candidate. -/
def unmapped (mm : MmStruct) (maps : Fin nrUserMaps → UserMap) (len start : Nat) : Bool :=
  !userMapReservedOverlaps maps start (start + len) && !vmaRangeOverlaps mm start (start + len)

/-- The `while` loop of `find_unmapped_area`. -/
def scanDown (free : Nat → Bool) (low : Nat) : Nat → Nat → Nat
  | 0, _ => 0
  | fuel + 1, start =>
      if start < low then 0
      else if free start then start
      else if start < low + pageSize then 0
      else scanDown free low fuel (start - pageSize)

/-- `find_unmapped_area`. -/
def findUnmappedArea (mm : MmStruct) (maps : Fin nrUserMaps → UserMap) (length : Nat) : Nat :=
  let low := mmPageAlignUp mm.brk
  if length > taskSize then 0
  else
    let len := mmPageAlignUp length
    if len = 0 ∨ len ≥ userStackBase then 0
    else
      let low := if low < pageSize then pageSize else low
      let start := (userStackBase - len) / pageSize * pageSize
      scanDown (unmapped mm maps len) low (start / pageSize + 1) start

/-! ## What it is for -/

/-- The least multiple of the page size that is not below `n`. -/
def pageRound (n : Nat) : Nat := (n + (pageSize - 1)) / pageSize * pageSize

/-- A mapping of `length` bytes may start here. -/
structure Place (mm : MmStruct) (maps : Fin nrUserMaps → UserMap) (length start : Nat) :
    Prop where
  aligned : pageSize ∣ start
  page : pageSize ≤ start
  brk : pageRound mm.brk ≤ start
  below : start + pageRound length ≤ userStackBase
  vmas : ∀ i, (mm.vma i).used = true →
    start + pageRound length ≤ (mm.vma i).vmStart ∨ (mm.vma i).vmEnd ≤ start
  maps : ∀ i, start + pageRound length ≤ (maps i).reservedStart ∨ (maps i).reservedEnd ≤ start

/-! ## The tests -/

variable {mm : MmStruct} {maps : Fin nrUserMaps → UserMap} {start len : Nat}

theorem mmPageAlignUp_eq {n : Nat} (hn : n + pageSize ≤ wordModulus) :
    mmPageAlignUp n = pageRound n := by
  rw [mmPageAlignUp, Nat.mod_eq_of_lt, pageRound]
  simp only [pageSize] at *
  omega

variable {stop low length : Nat}

theorem vmaRangeOverlaps_eq_false_iff :
    vmaRangeOverlaps mm start stop = false ↔ ∀ i, (mm.vma i).used = true →
      stop ≤ (mm.vma i).vmStart ∨ (mm.vma i).vmEnd ≤ start := by
  simp only [vmaRangeOverlaps, slots, List.any_eq_false, vmaOverlaps]
  refine forall_congr' fun i => ?_
  cases (mm.vma i).used <;> simp
  omega

theorem userMapReservedOverlaps_eq_false_iff (hlt : start < stop) :
    userMapReservedOverlaps maps start stop = false ↔
      ∀ i, stop ≤ (maps i).reservedStart ∨ (maps i).reservedEnd ≤ start := by
  simp only [userMapReservedOverlaps, if_neg (not_le.mpr hlt), List.any_eq_false, List.mem_finRange]
  refine forall_congr' fun i => ?_
  simp
  omega

theorem unmapped_iff (hlen : 0 < len) : unmapped mm maps len start = true ↔
      (∀ i, start + len ≤ (maps i).reservedStart ∨ (maps i).reservedEnd ≤ start) ∧
      ∀ i, (mm.vma i).used = true →
        start + len ≤ (mm.vma i).vmStart ∨ (mm.vma i).vmEnd ≤ start := by
  rw [unmapped, Bool.and_eq_true, Bool.not_eq_true', Bool.not_eq_true',
    userMapReservedOverlaps_eq_false_iff (by omega), vmaRangeOverlaps_eq_false_iff]

/-! ## The scan -/

/-- The candidates of the scan from `start` down to `low`. -/
def candidates (free : Nat → Bool) (low start : Nat) : Set Nat :=
  {t | pageSize ∣ t ∧ low ≤ t ∧ t ≤ start ∧ free t = true}

variable {free : Nat → Bool}

/-- A candidate that is refused is left out without losing any other: the aligned
numbers below it are at most one page further down. -/
theorem candidates_step (haligned : pageSize ∣ start) (hfree : free start = false) :
    candidates free low start = {t ∈ candidates free low (start - pageSize) | t < start} := by
  ext t
  constructor
  · rintro ⟨hdvd, hlow, hle, ht⟩
    have hne : t ≠ start := by
      rintro rfl
      rw [hfree] at ht
      contradiction
    have hgap := Nat.le_of_dvd (by omega) (Nat.dvd_sub haligned hdvd)
    exact ⟨⟨hdvd, hlow, by omega, ht⟩, by omega⟩
  · rintro ⟨⟨hdvd, hlow, -, ht⟩, hlt⟩
    exact ⟨hdvd, hlow, hlt.le, ht⟩

/-- The loop returns the greatest candidate, or zero when there is none. -/
theorem scanDown_spec (hlow : 0 < low) (fuel : Nat) :
    ∀ start, pageSize ∣ start → start < fuel * pageSize → (scanDown free low fuel start ≠ 0 →
        IsGreatest (candidates free low start) (scanDown free low fuel start)) ∧
      (scanDown free low fuel start = 0 → candidates free low start = ∅) := by
  induction fuel with
  | zero =>
    omega
  | succ fuel ih =>
    intro start haligned hfuel
    rw [scanDown]
    split_ifs with hbelow hfree hlast
    · refine ⟨fun h => absurd rfl h, fun _ => Set.eq_empty_of_forall_notMem fun t ht => ?_⟩
      have := ht.2.1
      have := ht.2.2.1
      omega
    · refine ⟨fun _ => ⟨⟨haligned, by omega, le_rfl, hfree⟩, fun t ht => ht.2.2.1⟩, fun h => ?_⟩
      omega
    · -- the candidate one page further down would be below `low`
      refine ⟨fun h => absurd rfl h, fun _ => Set.eq_empty_of_forall_notMem fun t ht => ?_⟩
      rw [candidates_step haligned (by simpa using hfree)] at ht
      have := ht.1.2.1
      have := ht.1.2.2.1
      omega
    · have hsame : candidates free low start = candidates free low (start - pageSize) := by
        rw [candidates_step haligned (by simpa using hfree), Set.sep_eq_self_iff_mem_true]
        intro t ht
        have := ht.2.2.1
        simp only [pageSize] at *
        omega
      rw [hsame]
      refine ih _ (Nat.dvd_sub haligned (Nat.dvd_refl _)) ?_
      rw [Nat.succ_mul] at hfuel
      omega

/-! ## The search -/

/-- The places are the candidates of the scan that the code makes. -/
theorem places_eq (hlen : 0 < length) : {t | Place mm maps length t} =
      candidates (unmapped mm maps (pageRound length)) (max pageSize (pageRound mm.brk))
        (userStackBase - pageRound length) := by
  have hpos : pageSize ≤ pageRound length := by
    simp only [pageRound, pageSize]
    omega
  ext t
  simp only [candidates,
    unmapped_iff (show 0 < pageRound length by simp only [pageSize] at hpos; omega)]
  constructor
  · intro h
    have := h.below
    exact ⟨h.aligned, Nat.max_le.mpr ⟨h.page, h.brk⟩, by omega, h.maps, h.vmas⟩
  · rintro ⟨haligned, hlow, hle, hmaps, hvmas⟩
    rw [Nat.max_le] at hlow
    simp only [pageSize] at hlow
    exact ⟨haligned, hlow.1, hlow.2, by omega, hvmas, hmaps⟩

/-- No place ends above the stack area. -/
theorem places_eq_empty (hlong : userStackBase ≤ pageRound length) :
    {t | Place mm maps length t} = ∅ := by
  refine Set.eq_empty_of_forall_notMem fun t ht => ?_
  have hbelow := Place.below ht
  have hpage := Place.page ht
  simp only [pageSize] at hpage
  omega

/-- A start that is found is the greatest place, and zero is returned only when
there is no place.  `mm_brk` keeps `brk` at or below `TASK_SIZE`, where rounding
does not wrap. -/
theorem findUnmappedArea_isGreatest (mm : MmStruct) (maps : Fin nrUserMaps → UserMap)
    {length : Nat} (hlen : 0 < length) (hbrk : mm.brk ≤ taskSize) :
    (findUnmappedArea mm maps length ≠ 0 →
      IsGreatest {t | Place mm maps length t} (findUnmappedArea mm maps length)) ∧
    (findUnmappedArea mm maps length = 0 → {t | Place mm maps length t} = ∅) := by
  have hlow : mmPageAlignUp mm.brk = pageRound mm.brk :=
    mmPageAlignUp_eq (by simp only [taskSize, pageSize, wordModulus] at *; omega)
  have hmax : (if pageRound mm.brk < pageSize then pageSize else pageRound mm.brk) =
      max pageSize (pageRound mm.brk) := by
    split <;> omega
  simp only [findUnmappedArea, hlow, hmax]
  split_ifs with hlong hfits
  · refine ⟨fun h => absurd rfl h, fun _ => places_eq_empty ?_⟩
    simp only [pageRound, userStackBase, userStackTop, pageSize] at *
    omega
  all_goals rw [mmPageAlignUp_eq (by simp only [taskSize, pageSize, wordModulus] at *; omega)] at *
  · refine ⟨fun h => absurd rfl h, fun _ => places_eq_empty ?_⟩
    simp only [pageRound, userStackBase, taskSize, pageSize] at *
    omega
  · -- the stack area starts at a page boundary, so the first candidate loses nothing
    have hstart : (userStackBase - pageRound length) / pageSize * pageSize =
        userStackBase - pageRound length := by
      simp only [pageRound, userStackBase, userStackTop, userStackSize, taskSize, pageSize]
      omega
    rw [hstart, places_eq hlen]
    refine scanDown_spec (by simp [pageSize]) _ _ ?_ ?_
    · exact ⟨_, by rw [Nat.mul_comm, hstart]⟩
    · rw [Nat.succ_mul, hstart]
      simp [pageSize]

/-- With a page-unaligned break and the guard page reserved, one byte goes to the
page below the guard. -/
theorem findUnmappedArea_isGreatest_guard :
    IsGreatest {t | Place { brk := 0x5001 } (fun _ => ⟨userStackGuardBase, userStackBase⟩) 1 t}
      signalTrampolineAddr :=
  have hfound : findUnmappedArea { brk := 0x5001 }
      (fun _ => ⟨userStackGuardBase, userStackBase⟩) 1 = signalTrampolineAddr := by decide +kernel
  hfound ▸ (findUnmappedArea_isGreatest _ _ (by decide) (by decide)).1 (by rw [hfound]; decide)

end CuteOS.Mm
