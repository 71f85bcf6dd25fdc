/-
  Kernel/Bitmap.lean --- word-wise bitmap operations.

  Source: `include/kernel/bitmap.h`.  `size_t` values are natural numbers; only
  `BITMAP_WORDS` can wrap.  The storage is the memory from `words` on, so that a write
  outside the bitmap would show.  The operations on set and on clear bits are one
  definition each.
-/
import Mathlib.Data.BitVec

set_option autoImplicit false

namespace CuteOS.Kernel

open Function (update update_apply)
open BitVec (allOnes getLsbD_not getLsbD_and getLsbD_or)

abbrev Word := BitVec 64

/-- `struct bitmap`. -/
structure Bitmap where
  words : Nat → Word
  nbits : Nat
  nwords : Nat

namespace Bitmap

/-- `bitmap_init`, with `BITMAP_WORDS`. -/
def init (words : Nat → Word) (nbits : Nat) : Bitmap :=
  ⟨words, nbits, (nbits + 63) % 2 ^ 64 / 64⟩

def maskLo (bits : Nat) : Word :=
  if bits = 0 then 0 else if bits ≥ 64 then allOnes 64 else (1#64 <<< bits) - 1

def maskHi (bit : Nat) : Word := ~~~maskLo bit

def tailMask (nbits : Nat) : Word :=
  if nbits % 64 = 0 then allOnes 64 else maskLo (nbits % 64)

/-- `bitmap_set_range` and `bitmap_clear_range`: `put` changes the bits of a mask, and
the words in the middle become `full`. -/
def range (put : Word → Word → Word) (full : Word) (map : Bitmap)
    (start count : Nat) : Nat → Word :=
  if count = 0 ∨ start ≥ map.nbits then map.words
  else
    let stop := start + min count (map.nbits - start)
    let first := start / 64
    let last := (stop - 1) / 64
    let lastMask := if stop % 64 = 0 then allOnes 64 else maskLo (stop % 64)
    if first = last then
      update map.words first (put (map.words first) (maskHi (start % 64) &&& lastMask))
    else
      let words := update map.words first (put (map.words first) (maskHi (start % 64)))
      let words := (List.range' (first + 1) (last - (first + 1))).foldl
        (fun words i => update words i full) words
      update words last (put (words last) lastMask)

def setRange : Bitmap → Nat → Nat → Nat → Word :=
  range (fun word mask => word ||| mask) (allOnes 64)

def clearRange : Bitmap → Nat → Nat → Nat → Word :=
  range (fun word mask => word &&& ~~~mask) 0

/-- The last word loses its unused bits. -/
def trim (map : Bitmap) (i : Nat) (word : Word) : Word :=
  if i + 1 = map.nwords then word &&& tailMask map.nbits else word

variable (read : Word → Word) (map : Bitmap)

/-- The loop of the searches at word `i`, with `n` words left. -/
def findLoop : Nat → Nat → Nat
  | 0, _ => map.nbits
  | n + 1, i =>
    if map.trim i (read (map.words i)) ≠ 0 then
      i * 64 + (map.trim i (read (map.words i))).ctz.toNat
    else findLoop n (i + 1)

def findFirst : Nat := findLoop read map map.nwords 0

def findNext (start : Nat) : Nat :=
  if start ≥ map.nbits then map.nbits
  else
    let i := start / 64
    let word := map.trim i (read (map.words i) &&& maskHi (start % 64))
    if word ≠ 0 then i * 64 + word.ctz.toNat
    else findLoop read map (map.nwords - (i + 1)) (i + 1)

def findFirstSet : Nat := map.findFirst id
def findFirstZero : Nat := map.findFirst fun word => ~~~word
def findNextSet : Nat → Nat := map.findNext id
def findNextZero : Nat → Nat := map.findNext fun word => ~~~word

/-- `popcountl`. -/
def popcount (word : Word) : Nat := (List.range 64).countP word.getLsbD

def weight : Nat :=
  (List.range map.nwords).foldl (fun count i => count + popcount (map.trim i (map.words i))) 0

/-! ## One bit at a time -/

/-- Bit `j` of the storage. -/
def bit (words : Nat → Word) (j : Nat) : Bool := (words (j / 64)).getLsbD (j % 64)

/-- `r` is the least index from `start` on, below `n`, at which `p` holds, or `n`. -/
structure FirstFrom (p : Nat → Bool) (start n r : Nat) : Prop where
  found : r = n ∨ start ≤ r ∧ r < n ∧ p r = true
  least : ∀ j, start ≤ j → j < r → p j = false

/-- What the operations are bit by bit. -/
structure Bitwise (start count : Nat) : Prop where
  setRange : ∀ j, bit (map.setRange start count) j =
    if start ≤ j ∧ j < min (start + count) map.nbits then true else bit map.words j
  clearRange : ∀ j, bit (map.clearRange start count) j =
    if start ≤ j ∧ j < min (start + count) map.nbits then false else bit map.words j
  firstSet : FirstFrom (bit map.words) 0 map.nbits map.findFirstSet
  firstZero : FirstFrom (fun j => !bit map.words j) 0 map.nbits map.findFirstZero
  nextSet : FirstFrom (bit map.words) start map.nbits (map.findNextSet start)
  nextZero : FirstFrom (fun j => !bit map.words j) start map.nbits (map.findNextZero start)
  weight : map.weight = (List.range map.nbits).countP (bit map.words)

variable {j : Nat}

theorem getLsbD_maskLo (bits : Nat) (hj : j < 64) :
    (maskLo bits).getLsbD j = decide (j < bits) := by
  unfold maskLo
  split_ifs with hzero hall
  · rw [BitVec.ofNat_eq_ofNat, BitVec.getLsbD_zero, hzero]
    rfl
  · rw [BitVec.getLsbD_allOnes, decide_eq_decide]
    omega
  · have hpow : 2 ^ bits < 2 ^ 64 := Nat.pow_lt_pow_right (by decide) (Nat.not_le.mp hall)
    have hone : (1#64 <<< bits).toNat = 2 ^ bits := by
      rw [BitVec.toNat_shiftLeft, Nat.shiftLeft_eq, BitVec.toNat_ofNat]
      omega
    have hmask : (1#64 <<< bits - 1).toNat = 2 ^ bits - 1 := by
      have hpos := Nat.two_pow_pos bits
      bv_omega
    rw [BitVec.getLsbD, hmask, Nat.testBit_two_pow_sub_one]

theorem getLsbD_maskHi (bit : Nat) (hj : j < 64) : (maskHi bit).getLsbD j = decide (bit ≤ j) := by
  rw [maskHi, getLsbD_not, getLsbD_maskLo bit hj, ← decide_not, ← Bool.decide_and,
    decide_eq_decide]
  omega

/-- The mask of the word in which `n` bits end. -/
theorem getLsbD_tailMask {i n : Nat} (hi : i = (n - 1) / 64) (hn : 0 < n) (hj : j < 64) :
    (tailMask n).getLsbD j = decide (i * 64 + j < n) := by
  unfold tailMask
  split_ifs with htail
  · rw [BitVec.getLsbD_allOnes, decide_eq_decide]
    omega
  · rw [getLsbD_maskLo _ hj, decide_eq_decide]
    omega

/-! ### Ranges -/

theorem foldl_update (full : Word) (a n : Nat) (words : Nat → Word) (i : Nat) :
    (List.range' a n).foldl (fun words i => update words i full) words i =
      if a ≤ i ∧ i < a + n then full else words i := by
  induction n generalizing a words with
  | zero => simp
  | succ n ih =>
    rw [List.range'_succ, List.foldl_cons, ih, update_apply]
    split_ifs <;> first | rfl | omega

theorem bit_range {put : Word → Word → Word} {full : Word} {value : Bool}
    (hput : ∀ word mask : Word, ∀ j < 64, (put word mask).getLsbD j =
      if mask.getLsbD j then value else word.getLsbD j)
    (hfull : ∀ j < 64, full.getLsbD j = value) (start count j : Nat) :
    bit (range put full map start count) j =
      if start ≤ j ∧ j < min (start + count) map.nbits then value else bit map.words j := by
  have hj : j % 64 < 64 := Nat.mod_lt j (by decide)
  unfold range
  by_cases hnone : count = 0 ∨ start ≥ map.nbits
  · rw [if_pos hnone, if_neg (by omega)]
  rw [if_neg hnone]
  dsimp only
  have hstop : min (start + count) map.nbits = start + min count (map.nbits - start) := by omega
  rw [hstop]
  generalize start + min count (map.nbits - start) = stop at hstop ⊢
  have hlast := @getLsbD_tailMask (j % 64) ((stop - 1) / 64) stop rfl (by omega) hj
  unfold tailMask at hlast
  generalize (if stop % 64 = 0 then allOnes 64 else maskLo (stop % 64)) = lastMask at hlast ⊢
  have hfirst := getLsbD_maskHi (start % 64) hj
  unfold bit
  split_ifs
  all_goals
    simp only [update_apply, foldl_update]
    split_ifs
  -- the words that were written, bit by bit
  all_goals try simp only [hput _ _ _ hj, hfull _ hj, getLsbD_and, hfirst, hlast,
    Bool.and_eq_true, decide_eq_true_eq]
  all_goals try split_ifs
  all_goals first | rfl | omega | (congr 2; omega)

/-! ### Searches -/

variable {map} {p : Nat → Bool} {start n r i : Nat}

/-- A word whose bits tell where `p` holds, and the search after it. -/
theorem FirstFrom.word {w : Word} (hw : ∀ k < 64, w.getLsbD k =
      (p (i * 64 + k) && decide (start ≤ i * 64 + k ∧ i * 64 + k < n)))
    (hlow : i * 64 ≤ start) (hhigh : start < (i + 1) * 64)
    (hrest : FirstFrom p ((i + 1) * 64) n r) :
    FirstFrom p start n (if w ≠ 0 then i * 64 + w.ctz.toNat else r) := by
  -- a bit of the word that is clear
  have hclear : ∀ j, start ≤ j → j < n → j < (i + 1) * 64 →
      w.getLsbD (j - i * 64) = false → p j = false := by
    intro j hstart hn hj hbit
    rw [hw _ (by omega), Nat.add_sub_cancel' (by omega)] at hbit
    simpa [hstart, hn] using hbit
  split_ifs with hzero
  · have hbit := BitVec.getLsbD_true_ctz_of_ne_zero hzero
    have hlt := BitVec.lt_of_getLsbD hbit
    rw [hw _ hlt, Bool.and_eq_true, decide_eq_true_eq] at hbit
    refine ⟨.inr ⟨hbit.2.1, hbit.2.2, hbit.1⟩, fun j hstart hj => ?_⟩
    exact hclear j hstart (by omega) (by omega) (BitVec.getLsbD_false_of_lt_ctz (by omega))
  · obtain ⟨hfound, hleast⟩ := hrest
    rw [not_not] at hzero
    refine ⟨hfound.imp_right fun h => ⟨by omega, h.2⟩, fun j hstart hj => ?_⟩
    by_cases hnext : j < (i + 1) * 64
    · exact hclear j hstart (by omega) hnext (by simp [hzero])
    · exact hleast j (by omega) hj

theorem getLsbD_eq_bit (words : Nat → Word) (i : Nat) (hj : j < 64) :
    (words i).getLsbD j = bit words (i * 64 + j) := by
  have hdiv : (i * 64 + j) / 64 = i := by omega
  have hmod : (i * 64 + j) % 64 = j := by omega
  rw [bit, hdiv, hmod]

section Spec

variable (hwords : map.nwords = (map.nbits + 63) / 64)
include hwords

theorem getLsbD_trim (hi : i < map.nwords) (word : Word) (hj : j < 64) :
    (map.trim i word).getLsbD j = (word.getLsbD j && decide (i * 64 + j < map.nbits)) := by
  unfold trim
  split_ifs with hlast
  · rw [getLsbD_and, @getLsbD_tailMask j i map.nbits (by omega) (by omega) hj]
  · rw [decide_eq_true (by omega), Bool.and_true]

section

variable {read : Word → Word}
  (hread : ∀ i, ∀ k < 64, (read (map.words i)).getLsbD k = p (i * 64 + k))
include hread

theorem firstFrom_findLoop (hn : i + n = map.nwords) :
    FirstFrom p (i * 64) map.nbits (findLoop read map n i) := by
  induction n generalizing i with
  | zero => exact ⟨.inl rfl, fun j _ (hj : j < map.nbits) => by omega⟩
  | succ n ih =>
    refine FirstFrom.word (fun k hk => ?_) (le_refl _) (by omega) (ih (by omega))
    rw [getLsbD_trim hwords (by omega) _ hk, hread i k hk]
    simp

theorem firstFrom_findFirst : FirstFrom p 0 map.nbits (findFirst read map) := by
  have hloop := @firstFrom_findLoop _ _ _ 0 hwords _ hread (Nat.zero_add _)
  rwa [Nat.zero_mul] at hloop

theorem firstFrom_findNext (start : Nat) :
    FirstFrom p start map.nbits (findNext read map start) := by
  unfold findNext
  split_ifs with hbeyond
  · exact ⟨.inl rfl, fun j _ hj => by omega⟩
  · refine FirstFrom.word (fun k hk => ?_) (by omega) (by omega)
      (firstFrom_findLoop hwords hread (by omega))
    rw [getLsbD_trim hwords (by omega) _ hk, getLsbD_and, hread _ k hk,
      getLsbD_maskHi _ hk, Bool.and_assoc, ← Bool.decide_and]
    congr 2
    rw [eq_iff_iff]
    omega

end

/-! ### Counting -/

theorem foldl_popcount (hn : n ≤ map.nwords) :
    (List.range n).foldl (fun count i => count + popcount (map.trim i (map.words i))) 0 =
      (List.range (n * 64)).countP fun j => bit map.words j && decide (j < map.nbits) := by
  induction n with
  | zero => simp
  | succ n ih =>
    rw [List.range_succ, List.foldl_append, ih (by omega), Nat.succ_mul, List.range_add,
      List.countP_append, List.countP_map]
    refine congrArg _ (List.countP_congr fun k hk => ?_)
    rw [getLsbD_trim hwords hn _ (List.mem_range.mp hk), getLsbD_eq_bit _ _ (List.mem_range.mp hk)]
    rfl

theorem weight_eq : map.weight = (List.range map.nbits).countP (bit map.words) := by
  rw [weight, foldl_popcount hwords (le_refl _)]
  obtain ⟨d, hd⟩ := Nat.exists_eq_add_of_le (show map.nbits ≤ map.nwords * 64 by omega)
  have hnone : ((List.range d).map (map.nbits + ·)).countP
      (fun j => bit map.words j && decide (j < map.nbits)) = 0 := by
    simp
  rw [hd, List.range_add, List.countP_append, hnone]
  refine List.countP_congr fun j hj => ?_
  simp [List.mem_range.mp hj]

end Spec

/-- The operations of a bitmap whose words can be counted are the operations on its bits. -/
theorem bitwise_of_size {nbits : Nat} (hsize : nbits + 63 < 2 ^ 64) (words : Nat → Word)
    (start count : Nat) : (init words nbits).Bitwise start count := by
  have hwords : (init words nbits).nwords = (nbits + 63) / 64 := by
    rw [init, Nat.mod_eq_of_lt hsize]
  have hset : ∀ i, ∀ k < 64, (id (words i)).getLsbD k = bit words (i * 64 + k) :=
    fun i k hk => getLsbD_eq_bit words i hk
  have hzero : ∀ i, ∀ k < 64, (~~~words i).getLsbD k = !bit words (i * 64 + k) := by
    intro i k hk
    rw [getLsbD_not, decide_eq_true hk, Bool.true_and, getLsbD_eq_bit words i hk]
  refine ⟨fun j => bit_range _ (fun word mask j _ => ?_) ?_ .., fun j =>
    bit_range _ (fun word mask j hj => ?_) ?_ .., firstFrom_findFirst hwords hset,
    firstFrom_findFirst hwords hzero, firstFrom_findNext hwords hset start,
    firstFrom_findNext hwords hzero start, weight_eq hwords⟩
  · rw [getLsbD_or]
    cases mask.getLsbD j <;> simp
  · exact fun j hj => by rw [BitVec.getLsbD_allOnes, decide_eq_true hj]
  · rw [getLsbD_and, getLsbD_not]
    cases mask.getLsbD j <;> simp [hj]
  · simp

theorem bitwise_sparse : (2 : Nat) ^ 20 + 63 < 2 ^ 64 ∧
    (init (fun i => if i = 3 then 5 else 0) (2 ^ 20)).Bitwise 7 (2 ^ 64 - 1) :=
  ⟨by decide, bitwise_of_size (by decide) _ _ _⟩

/-- A size near the end of `size_t` needs no words, and no bit of it is found. -/
theorem not_bitwise_wrapped : (init (fun _ => 1) (2 ^ 64 - 1)).nwords = 0 ∧
    ¬ (init (fun _ => 1) (2 ^ 64 - 1)).Bitwise 0 0 := by
  have hwords : (init (fun _ => 1) (2 ^ 64 - 1)).nwords = 0 := by decide
  refine ⟨hwords, fun h => ?_⟩
  have hfirst := h.firstSet.least 0 (le_refl 0)
  rw [findFirstSet, findFirst, hwords] at hfirst
  exact absurd (hfirst (by decide)) (by decide)

end Bitmap

end CuteOS.Kernel
