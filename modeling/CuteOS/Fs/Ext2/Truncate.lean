/-
  Fs/Ext2/Truncate.lean --- shrinking and extending an ext2 file.

  Source: `fs/ext2/inode.c`.  The results say which blocks a shrinking gives back, that
  the parts of the file below the new end keep their blocks, and that the inode owns
  its blocks again.  As before, page-cache reads succeed and device writes may fail.
-/
import CuteOS.Fs.Ext2.BlockMap

set_option autoImplicit false

namespace CuteOS.Fs.Ext2

open Lib.PtrTree
open Volume (Quiet pageCacheGetBlock inodeBlocks quiet_nextTick setPage)

/-! ## The code -/

/-- `ext2_branch_span`: the parts of a file that a tree of this depth holds. -/
def ext2BranchSpan (depth : Nat) : Nat := ptrsPerBlock ^ depth

/-- `ext2_count_tree_blocks`. -/
def ext2CountTreeBlocks : Nat → Volume → Nat → Nat × Volume
  | 0, fs, block => (if block = 0 then 0 else 1, fs)
  | depth + 1, fs, block =>
    if block = 0 then (0, fs)
    else
      match fs.pageCacheGetBlock with
      | (false, fs) => (1, fs)
      | (true, fs) =>
        (List.range ptrsPerBlock).foldl
          (fun (total, fs) i =>
            if fs.word block i = 0 then (total, fs)
            else
              match ext2CountTreeBlocks depth fs (fs.word block i) with
              | (blocks, fs) => ((total + blocks) % uint32Modulus, fs)) (1, fs)

/-- `ext2_inode_tree_blocks`. -/
def ext2InodeTreeBlocks (fs : Volume) (inode : Inode) : Nat × Volume :=
  (List.range nBlocks).foldl
    (fun (total, fs) i =>
      match ext2CountTreeBlocks (slotDepth i) fs (inode.iBlock i) with
      | (blocks, fs) => ((total + blocks) % uint32Modulus, fs)) (0, fs)

/-- The loop of `ext2_truncate_branch_slot` over the words `entries[i]`; `child` is the
call for one of them.  The last component is `all_zero`. -/
def truncateEntries (child : Volume → Nat → Nat → Except Errno Unit × Volume × Nat)
    (block span : Nat) : List Nat → Volume → Nat → Bool → Except Errno Unit × Volume × Bool
  | [], fs, _, allZero => (.ok (), fs, allZero)
  | i :: rest, fs, remaining, allZero =>
    let childKeep := if remaining > span then span else remaining
    match child fs (fs.word block i) childKeep with
    | (ret, fs, entry) =>
      let fs := fs.setWord block i entry
      match ret with
      | .error e => (.error e, fs, allZero)
      | .ok () =>
        truncateEntries child block span rest fs (remaining - childKeep)
          (allZero && entry == 0)

/-- What `ext2_truncate_branch_slot` does after the loop: a block without pointers is
given back, another one is written. -/
def finishBranch (slot : Nat) : Except Errno Unit × Volume × Bool →
    Except Errno Unit × Volume × Nat
  | (.error e, fs, _) => (.error e, fs, slot)
  | (.ok (), fs, true) => (.ok (), ext2FreeBlock fs slot, 0)
  | (.ok (), fs, false) =>
    match fs.pageCacheSyncPage with
    | (false, fs) => (.error .eio, fs, slot)
    | (true, fs) => (.ok (), fs, slot)

/-- `ext2_truncate_branch_slot`; the last component is what `*slot` then holds. -/
def ext2TruncateBranchSlot : Nat → Volume → Nat → Nat → Except Errno Unit × Volume × Nat
  | 0, fs, slot, keep =>
    if slot = 0 then (.ok (), fs, slot)
    else if keep = 0 then (.ok (), ext2FreeIndirectChain 0 fs slot, 0)
    else (.ok (), fs, slot)
  | depth + 1, fs, slot, keep =>
    if slot = 0 then (.ok (), fs, slot)
    else if keep = 0 then (.ok (), ext2FreeIndirectChain (depth + 1) fs slot, 0)
    else
      match fs.pageCacheGetBlock with
      | (false, fs) => (.error .eio, fs, slot)
      | (true, fs) =>
        finishBranch slot (truncateEntries (ext2TruncateBranchSlot depth) slot
          (ext2BranchSpan depth) (List.range ptrsPerBlock) fs keep true)

/-- `ext2_truncate_branch`. -/
def ext2TruncateBranch (index depth keep : Nat) : InodeOp Unit := fun fs inode =>
  match ext2TruncateBranchSlot depth fs (inode.iBlock index) keep with
  | (.error e, fs, _) => (.error e, fs, inode)
  | (.ok (), fs, slot) =>
    (.ok (), fs, { inode with iBlock := Function.update inode.iBlock index slot })

/-- The calls of `ext2_truncate_branch` in `ext2_truncate_inode`, for the words of
`i_block[]` one after the other. -/
def truncateSlots : List Nat → Nat → InodeOp Unit
  | [], _, fs, inode => (.ok (), fs, inode)
  | slot :: rest, remaining, fs, inode =>
    let childKeep :=
      if slot < ndirBlocks then (if remaining = 0 then 0 else 1) else remaining
    match ext2TruncateBranch slot (slotDepth slot) childKeep fs inode with
    | (.error e, fs, inode) => (.error e, fs, inode)
    | (.ok (), fs, inode) =>
      truncateSlots rest (remaining - ext2BranchSpan (slotDepth slot)) fs inode

/-- `page_cache_get_mapping` with `PAGE_CACHE_READ` alone, down to
`ext2_resolve_block`. -/
def pageCacheReadMapping (fs : Volume) (inode : Inode) (index : Nat) :
    Except Errno Nat × Volume :=
  if index > ext2MaxFileIndex then (.error .efbig, fs)
  else
    match ext2BmapReadonly fs inode index with
    | (0, fs) => (.error .enodata, fs)
    | (pblock + 1, fs) =>
      match fs.pageCacheGetBlock with
      | (false, fs) => (.error .eio, fs)
      | (true, fs) => (.ok (pblock + 1), fs)

/-- The bytes of a page with those from `offset` on set to zero. -/
def zeroFrom (offset : Nat) (bytes : Nat → UInt8) : Nat → UInt8 :=
  fun off => if offset ≤ off ∧ off < blockSize then 0 else bytes off

/-- The page of the part that byte `size` is in becomes zero from there on.  This is
`ext2_zero_extend_tail`. -/
def ext2ZeroExtendTail (size : Nat) (fs : Volume) (inode : Inode) : Except Errno Unit × Volume :=
  if size = 0 ∨ size % blockSize = 0 then (.ok (), fs)
  else
    match ext2BmapReadonly fs inode (size / blockSize) with
    | (0, fs) => (.ok (), fs)
    | (_ + 1, fs) =>
      match pageCacheReadMapping fs inode (size / blockSize) with
      | (.error _, fs) => (.error .eio, fs)
      | (.ok pblock, fs) =>
        (.ok (), fs.setPage pblock (zeroFrom (size % blockSize) (fs.page pblock)))

/-- `ext2_zero_truncate_tail`: the same, and the page is written. -/
def ext2ZeroTruncateTail (size : Nat) (fs : Volume) (inode : Inode) :
    Except Errno Unit × Volume :=
  if size = 0 ∨ size % blockSize = 0 then (.ok (), fs)
  else
    match ext2BmapReadonly fs inode (size / blockSize) with
    | (0, fs) => (.ok (), fs)
    | (_ + 1, fs) =>
      match pageCacheReadMapping fs inode (size / blockSize) with
      | (.error _, fs) => (.error .eio, fs)
      | (.ok pblock, fs) =>
        match (fs.setPage pblock
            (zeroFrom (size % blockSize) (fs.page pblock))).pageCacheSyncPage with
        | (false, fs) => (.error .eio, fs)
        | (true, fs) => (.ok (), fs)

/-- Ghost: the blocks that have been given back are no longer owned. -/
def Inode.dropFreed (fs : Volume) (inode : Inode) : Inode :=
  { inode with owned := inode.owned.filter fun b => decide (fs.BlockUsed b) }

/-- The end of `ext2_truncate_inode`. -/
def setSizeAndWrite (size : Nat) : InodeOp Unit := fun fs inode =>
  match ext2InodeTreeBlocks fs inode with
  | (blocks, fs) =>
    ext2WriteInode fs { inode with
      iSize := size
      iBlocks := blocks * 8 % uint32Modulus }

/-- `ext2_truncate_inode`. -/
def ext2TruncateInode (size : Nat) : InodeOp Unit := fun fs inode =>
  if size > uint32Modulus - 1 then (.error .einval, fs, inode)
  else if size = inode.iSize then (.ok (), fs, inode)
  else if size = 0 then
    match ext2FreeInodeBlocks fs inode with
    | (fs, inode) => ext2WriteInode fs (inode.dropFreed fs)
  else if size < inode.iSize then
    match ext2ZeroTruncateTail size fs inode with
    | (.error e, fs) => (.error e, fs, inode)
    | (.ok (), fs) =>
      match truncateSlots (List.range nBlocks) ((size + blockSize - 1) / blockSize) fs inode with
      | (.error e, fs, inode) => (.error e, fs, inode.dropFreed fs)
      | (.ok (), fs, inode) => setSizeAndWrite size fs (inode.dropFreed fs)
  else
    match ext2ZeroExtendTail inode.iSize fs inode with
    | (.error e, fs) => (.error e, fs, inode)
    | (.ok (), fs) => setSizeAndWrite size fs inode

/-! ## Cutting a tree -/

/-- The number of a leaf among the leaves of its tree. -/
def pathIndex : List Nat → Nat
  | [] => 0
  | i :: path => i * ptrsPerBlock ^ path.length + pathIndex path

variable {path : List Nat}

theorem pathIndex_lt {depth : Nat} (hpath : IsPath ptrsPerBlock depth path) :
    pathIndex path < ptrsPerBlock ^ path.length := by
  induction path generalizing depth with
  | nil => exact Nat.one_pos
  | cons i path ih =>
    obtain ⟨d, rfl, hi, hrest⟩ := hpath.cons
    have hlt := ih hrest
    calc i * ptrsPerBlock ^ path.length + pathIndex path
        < i * ptrsPerBlock ^ path.length + ptrsPerBlock ^ path.length := by omega
      _ = (i + 1) * ptrsPerBlock ^ path.length := by rw [Nat.succ_mul]
      _ ≤ ptrsPerBlock * ptrsPerBlock ^ path.length := Nat.mul_le_mul_right _ hi
      _ = ptrsPerBlock ^ path.length * ptrsPerBlock := Nat.mul_comm _ _

/-- A leaf stays, or it is beyond what is kept and goes. -/
def LeafCut (beyond : Prop) (ret : Except Errno Unit) (old new : Nat) : Prop :=
  (new = old ∨ new = 0 ∧ beyond) ∧ (ret = .ok () → beyond → new = 0)

variable {ret : Except Errno Unit}

theorem LeafCut.mono {beyond beyond' : Prop} {ret' : Except Errno Unit} {old new : Nat}
    (h : LeafCut beyond ret old new) (hret : ret' = .ok () → ret = .ok ())
    (hbeyond : beyond ↔ beyond') : LeafCut beyond' ret' old new :=
  ⟨h.1.imp id fun hnew => ⟨hnew.1, hbeyond.mp hnew.2⟩,
    fun hok hb => h.2 (hret hok) (hbeyond.mpr hb)⟩

/-- What cutting the tree below `slot` does; `freed` are the blocks given back. -/
structure Cut (depth keep : Nat) (fs : Volume) (slot : Nat) (ret : Except Errno Unit)
    (fs' : Volume) (slot' : Nat) (freed : List Nat) : Prop where
  sb : fs'.sb = fs.sb
  inodeBitmap : fs'.inodeBitmap = fs.inodeBitmap
  answers : fs'.io.answers = fs.io.answers
  page : ∀ b, b ∉ inner fs.word ptrsPerBlock depth slot → fs'.page b = fs.page b
  used : ∀ b, fs'.BlockUsed b ↔ fs.BlockUsed b ∧ b ∉ freed
  freed_mem : ∀ b ∈ freed, b ∈ nodes fs.word ptrsPerBlock depth slot
  count : ∀ x, (nodes fs'.word ptrsPerBlock depth slot').count x =
    if x ∈ freed then 0 else (nodes fs.word ptrsPerBlock depth slot).count x
  slot_eq : slot' = slot ∨ slot' = 0
  kept : ret ≠ .ok () → slot' = slot
  leaf : ∀ path, IsPath ptrsPerBlock depth path → path.length = depth →
    LeafCut (keep ≤ pathIndex path) ret (nodeAt fs.word slot path) (nodeAt fs'.word slot' path)

/-- What cutting the trees below the pointers `ptr first .. ptr (first + n - 1)` does.
The leaves of tree `i` are numbered from `start i` on, and `home` are the blocks that
hold the pointers themselves. -/
structure CutMany (home : Nat → Prop) (depth start : Nat → Nat) (first n keep : Nat)
    (fs : Volume) (ptr : Nat → Nat) (ret : Except Errno Unit) (fs' : Volume) (ptr' : Nat → Nat)
    (freed : List Nat) : Prop where
  sb : fs'.sb = fs.sb
  inodeBitmap : fs'.inodeBitmap = fs.inodeBitmap
  answers : fs'.io.answers = fs.io.answers
  page : ∀ b, ¬ home b → (∀ i, first ≤ i → i < first + n →
    b ∉ inner fs.word ptrsPerBlock (depth i) (ptr i)) → fs'.page b = fs.page b
  used : ∀ b, fs'.BlockUsed b ↔ fs.BlockUsed b ∧ b ∉ freed
  freed_mem : ∀ b ∈ freed, ∃ i, first ≤ i ∧ i < first + n ∧
    b ∈ nodes fs.word ptrsPerBlock (depth i) (ptr i)
  other : ∀ i, i < first ∨ first + n ≤ i → ptr' i = ptr i
  count : ∀ i, first ≤ i → i < first + n →
    ∀ x, (nodes fs'.word ptrsPerBlock (depth i) (ptr' i)).count x =
      if x ∈ freed then 0 else (nodes fs.word ptrsPerBlock (depth i) (ptr i)).count x
  leaf : ∀ i, first ≤ i → i < first + n →
    ∀ path, IsPath ptrsPerBlock (depth i) path → path.length = depth i →
      LeafCut (keep ≤ start i + pathIndex path) ret (nodeAt fs.word (ptr i) path)
        (nodeAt fs'.word (ptr' i) path)

/-- The trees are without repetition and have no block in common. -/
structure Apart (home : Nat → Prop) (depth : Nat → Nat) (first n : Nat) (fs : Volume)
    (ptr : Nat → Nat) : Prop where
  nodup : ∀ i, first ≤ i → i < first + n →
    (nodes fs.word ptrsPerBlock (depth i) (ptr i)).Nodup
  home : ∀ i, first ≤ i → i < first + n →
    ∀ x ∈ nodes fs.word ptrsPerBlock (depth i) (ptr i), ¬ home x
  disjoint : ∀ i j, first ≤ i → i < first + n → first ≤ j → j < first + n → i ≠ j →
    ∀ x ∈ nodes fs.word ptrsPerBlock (depth i) (ptr i),
      x ∉ nodes fs.word ptrsPerBlock (depth j) (ptr j)

variable {i entry slot' : Nat}

section Cut

variable {fs fs1 fs2 fs' : Volume} {depth keep slot slot' block first n remaining : Nat}
  {ret : Except Errno Unit} {freed freed' : List Nat}

theorem word_lt (fs : Volume) (block i : Nat) : fs.word block i < uint32Modulus := by
  have h0 := (fs.page block (4 * i)).toNat_lt
  have h1 := (fs.page block (4 * i + 1)).toNat_lt
  have h2 := (fs.page block (4 * i + 2)).toNat_lt
  have h3 := (fs.page block (4 * i + 3)).toNat_lt
  have hmod : uint32Modulus = 4294967296 := rfl
  rw [Volume.word]
  omega

/-- A tree depends on its blocks of pointers. -/
theorem tree_same (hpage : ∀ m ∈ inner fs.word ptrsPerBlock depth slot, fs'.page m = fs.page m) :
    nodes fs'.word ptrsPerBlock depth slot = nodes fs.word ptrsPerBlock depth slot ∧
      inner fs'.word ptrsPerBlock depth slot = inner fs.word ptrsPerBlock depth slot ∧
      ∀ path, IsPath ptrsPerBlock depth path →
        nodeAt fs'.word slot path = nodeAt fs.word slot path := by
  have hsame : ∀ m ∈ inner fs.word ptrsPerBlock depth slot, ∀ i < ptrsPerBlock,
      fs'.word m i = fs.word m i := fun m hm i _ => word_congr (hpage m hm) i
  obtain ⟨hnodes, hinner, -⟩ := tree_congr hsame
  exact ⟨hnodes, hinner, fun path hpath => nodeAt_congr hpath hsame⟩

/-- What is still in a tree was in it before. -/
theorem mem_of_count {l l' : List Nat} {x : Nat}
    (h : l'.count x = if x ∈ freed then 0 else l.count x) (hx : x ∈ l') : x ∈ l := by
  have hpos := List.count_pos_iff.mpr hx
  rw [h] at hpos
  split_ifs at hpos with hfreed
  · exact absurd hpos (Nat.lt_irrefl 0)
  · exact List.count_pos_iff.mp hpos

/-- Nothing happens. -/
theorem Cut.refl (fs : Volume) (depth keep slot : Nat) (ret : Except Errno Unit)
    (hleaf : ∀ path, IsPath ptrsPerBlock depth path → path.length = depth →
      keep ≤ pathIndex path → nodeAt fs.word slot path = 0) :
    Cut depth keep fs slot ret fs slot [] where
  sb := rfl
  inodeBitmap := rfl
  answers := rfl
  page _ _ := rfl
  used b := by simp
  freed_mem b hb := by cases hb
  count x := by simp
  slot_eq := .inl rfl
  kept _ := rfl
  leaf path hpath hlen := ⟨.inl rfl, fun _ => hleaf path hpath hlen⟩

/-- The whole tree is given back. -/
theorem Cut.free (hio : fs.PagesAvailable) (depth slot : Nat) :
    Cut depth 0 fs slot (.ok ()) (ext2FreeIndirectChain depth fs slot) 0
      (nodes fs.word ptrsPerBlock depth slot) := by
  have hfreed := freed_ext2FreeIndirectChain depth hio slot
  exact
    { sb := hfreed.sb
      inodeBitmap := hfreed.inodeBitmap
      answers := hfreed.answers
      page := fun b _ => by rw [hfreed.page]
      used := hfreed.used
      freed_mem := fun _ hb => hb
      count := fun x => by
        rw [nodes_null]
        split_ifs with hx
        · rfl
        · exact (List.count_eq_zero_of_not_mem hx).symm
      slot_eq := .inr rfl
      kept := fun hret => absurd rfl hret
      leaf := fun path _ _ => by
        rw [nodeAt_null]
        exact ⟨.inr ⟨rfl, Nat.zero_le _⟩, fun _ _ => rfl⟩ }

end Cut

section Many

variable {home : Nat → Prop} {depth start : Nat → Nat} {first n keep : Nat}
  {fs fs1 fs2 fs' : Volume} {ptr ptr2 ptr' : Nat → Nat} {ret ret' : Except Errno Unit}
  {freed freed' : List Nat}

/-- Nothing happens: there are no trees, or a call failed before. -/
theorem CutMany.idle (fs : Volume) (ptr : Nat → Nat) (hidle : ret = .ok () → n = 0) :
    CutMany home depth start first n keep fs ptr ret fs ptr [] where
  sb := rfl
  inodeBitmap := rfl
  answers := rfl
  page _ _ _ := rfl
  used b := by simp
  freed_mem b hb := by cases hb
  other _ _ := rfl
  count i _ _ x := by simp
  leaf i hi hlt path _ _ := by
    refine ⟨.inl rfl, fun hok => ?_⟩
    have hnone := hidle hok
    omega

/-- One tree is cut and its pointer stored; `fs₂` is the volume after that. -/
theorem CutMany.one {childKeep : Nat} (hapart : Apart home depth first (n + 1) fs ptr)
    (h : Cut (depth first) childKeep fs (ptr first) ret fs1 slot' freed) (hsb : fs2.sb = fs1.sb)
    (hinodeBitmap : fs2.inodeBitmap = fs1.inodeBitmap) (hanswers : fs2.io.answers = fs1.io.answers)
    (hpage : ∀ b, ¬ home b → fs2.page b = fs1.page b)
    (hused : ∀ b, fs2.BlockUsed b ↔ fs1.BlockUsed b) (hfirst : ptr2 first = slot')
    (hother : ∀ i, i ≠ first → ptr2 i = ptr i)
    (hkeep : ∀ path, IsPath ptrsPerBlock (depth first) path → path.length = depth first →
      (childKeep ≤ pathIndex path ↔ keep ≤ start first + pathIndex path)) :
    CutMany home depth start first 1 keep fs ptr ret fs2 ptr2 freed := by
  -- below the new pointer, the volume is as the call left it
  have hsame : ∀ m ∈ inner fs1.word ptrsPerBlock (depth first) slot', fs2.page m = fs1.page m :=
    fun m hm => hpage m
      (hapart.home first le_rfl (by omega) m (mem_of_count (h.count m) (mem_nodes.mpr (.inr hm))))
  have htree := tree_same hsame
  refine ⟨hsb.trans h.sb, hinodeBitmap.trans h.inodeBitmap, hanswers.trans h.answers, ?_,
    fun b => (hused b).trans (h.used b), ?_, fun i hi => hother i (by omega), ?_, ?_⟩
  · intro b hb hinner
    rw [hpage b hb, h.page b (hinner first le_rfl (by omega))]
  · exact fun b hb => ⟨first, le_rfl, by omega, h.freed_mem b hb⟩
  · intro i hi hlt x
    obtain rfl : i = first := by omega
    rw [hfirst, htree.1]
    exact h.count x
  · intro i hi hlt path hpath hlen
    obtain rfl : i = first := by omega
    rw [hfirst, htree.2.2 path hpath]
    exact (h.leaf path hpath hlen).mono id (hkeep path hpath hlen)

/-- All trees together lose what is given back. -/
theorem CutMany.count_gather (h : CutMany home depth start 0 n keep fs ptr ret fs' ptr' freed)
    (x : Nat) : (gather n fun i => nodes fs'.word ptrsPerBlock (depth i) (ptr' i)).count x =
      if x ∈ freed then 0
      else (gather n fun i => nodes fs.word ptrsPerBlock (depth i) (ptr i)).count x := by
  have hsum := fun i (hi : i ∈ Finset.range n) =>
    h.count i (Nat.zero_le i) (by have := Finset.mem_range.mp hi; omega) x
  rw [Lib.PtrTree.count_gather, Lib.PtrTree.count_gather, Finset.sum_congr rfl hsum]
  split_ifs
  · rw [Finset.sum_const_zero]
  · rfl

section

variable (hapart : Apart home depth first (n + 1) fs ptr)
  (h : CutMany home depth start first 1 keep fs ptr ret fs2 ptr2 freed)
include hapart h

/-- After the first tree, the trees still to come are as they were. -/
theorem CutMany.tail (hi : first + 1 ≤ i) (hlt : i < first + 1 + n) :
    nodes fs2.word ptrsPerBlock (depth i) (ptr2 i) = nodes fs.word ptrsPerBlock (depth i) (ptr i) ∧
      inner fs2.word ptrsPerBlock (depth i) (ptr2 i) =
        inner fs.word ptrsPerBlock (depth i) (ptr i) ∧
      ∀ path, IsPath ptrsPerBlock (depth i) path →
        nodeAt fs2.word (ptr2 i) path = nodeAt fs.word (ptr i) path := by
  rw [h.other i (by omega)]
  apply tree_same
  intro m hm
  have hnode := mem_nodes.mpr (.inr hm)
  apply h.page m (hapart.home i (by omega) (by omega) m hnode)
  intro j hj hjlt hinner
  exact hapart.disjoint i j (by omega) (by omega) hj (by omega) (by omega) m hnode
    (mem_nodes.mpr (.inr hinner))

theorem Apart.tail : Apart home depth (first + 1) n fs2 ptr2 := by
  have htail := fun i hi hlt => h.tail (i := i) hapart hi hlt
  refine ⟨fun i hi hlt => ?_, fun i hi hlt => ?_, fun i j hi hil hj hjl hij => ?_⟩
  · rw [(htail i hi hlt).1]
    exact hapart.nodup i (by omega) (by omega)
  · rw [(htail i hi hlt).1]
    exact hapart.home i (by omega) (by omega)
  · rw [(htail i hi hil).1, (htail j hj hjl).1]
    exact hapart.disjoint i j (by omega) (by omega) (by omega) (by omega) hij

end

section

variable (hapart : Apart home depth first (n + 1) fs ptr)
  (h1 : CutMany home depth start first 1 keep fs ptr ret fs2 ptr2 freed)
  (h2 : CutMany home depth start (first + 1) n keep fs2 ptr2 ret' fs' ptr' freed')
include hapart h1 h2

/-- The trees behind the first one are cut without touching what is left of it. -/
theorem CutMany.head_page {m : Nat}
    (hm : m ∈ inner fs2.word ptrsPerBlock (depth first) (ptr2 first)) :
    fs'.page m = fs2.page m := by
  have hnode := mem_of_count (h1.count first le_rfl (by omega) m) (mem_nodes.mpr (.inr hm))
  apply h2.page m (hapart.home first le_rfl (by omega) m hnode)
  intro i hi hlt hinner
  rw [(h1.tail hapart hi hlt).2.1] at hinner
  exact hapart.disjoint first i le_rfl (by omega) (by omega) (by omega) (by omega) m hnode
    (mem_nodes.mpr (.inr hinner))

theorem CutMany.append (hret : ret' = .ok () → ret = .ok ()) :
    CutMany home depth start first (n + 1) keep fs ptr ret' fs' ptr' (freed ++ freed') := by
  have htail := fun i hi hlt => h1.tail (i := i) hapart hi hlt
  have hfreed : ∀ b ∈ freed, b ∈ nodes fs.word ptrsPerBlock (depth first) (ptr first) := by
    intro b hb
    obtain ⟨i, hi, hlt, hmem⟩ := h1.freed_mem b hb
    obtain rfl : i = first := by omega
    exact hmem
  have hfreed' : ∀ b ∈ freed', ∃ i, first + 1 ≤ i ∧ i < first + 1 + n ∧
      b ∈ nodes fs.word ptrsPerBlock (depth i) (ptr i) := by
    intro b hb
    obtain ⟨i, hi, hlt, hmem⟩ := h2.freed_mem b hb
    rw [(htail i hi hlt).1] at hmem
    exact ⟨i, hi, hlt, hmem⟩
  -- the rest leaves the first tree alone
  have hfirst := @tree_same fs2 fs' (depth first) (ptr2 first) fun m hm =>
    h1.head_page hapart h2 hm
  have hfirstPtr : ptr' first = ptr2 first := h2.other first (by omega)
  refine ⟨h2.sb.trans h1.sb, h2.inodeBitmap.trans h1.inodeBitmap, h2.answers.trans h1.answers,
    ?_, ?_, ?_, ?_, ?_, ?_⟩
  · intro b hb hinner
    rw [h2.page b hb, h1.page b hb fun i hi hlt => hinner i hi (by omega)]
    intro i hi hlt
    rw [(htail i hi hlt).2.1]
    exact hinner i (by omega) (by omega)
  · intro b
    rw [h2.used, h1.used, List.mem_append, not_or, and_assoc]
  · intro b hb
    rcases List.mem_append.mp hb with hb | hb
    · exact ⟨first, le_rfl, by omega, hfreed b hb⟩
    · obtain ⟨i, hi, hlt, hmem⟩ := hfreed' b hb
      exact ⟨i, by omega, by omega, hmem⟩
  · intro i hi
    rw [h2.other i (by omega), h1.other i (by omega)]
  · intro i hi hlt x
    by_cases hfi : i = first
    · subst hfi
      rw [hfirstPtr, hfirst.1, h1.count i le_rfl (by omega)]
      by_cases hx : x ∈ freed
      · rw [if_pos hx, if_pos (List.mem_append_left _ hx)]
      split_ifs with hall
      · obtain ⟨j, hj, hjlt, hmem⟩ := hfreed' x ((List.mem_append.mp hall).resolve_left hx)
        exact List.count_eq_zero_of_not_mem
          (hapart.disjoint j i (by omega) (by omega) le_rfl (by omega) (by omega) x hmem)
      · rfl
    · rw [h2.count i (by omega) (by omega), (htail i (by omega) (by omega)).1]
      by_cases hx : x ∈ freed'
      · rw [if_pos hx, if_pos (List.mem_append_right _ hx)]
      rw [if_neg hx]
      split_ifs with hall
      · exact List.count_eq_zero_of_not_mem
          (hapart.disjoint first i le_rfl (by omega) (by omega) (by omega) (by omega) x
            (hfreed x ((List.mem_append.mp hall).resolve_right hx)))
      · rfl
  · intro i hi hlt path hpath hlen
    by_cases hfi : i = first
    · subst hfi
      rw [hfirstPtr, hfirst.2.2 path hpath]
      exact (h1.leaf i le_rfl (by omega) path hpath hlen).mono hret Iff.rfl
    · have hleaf := h2.leaf i (by omega) (by omega) path hpath hlen
      rwa [(htail i (by omega) (by omega)).2.2 path hpath] at hleaf

end

end Many

variable {inode inode' : Inode}

section Branch

variable {fs fs1 fs' : Volume} {depth keep slot slot' block : Nat} {ret : Except Errno Unit}
  {freed : List Nat}

/-- The trees below the words of a block. -/
abbrev CutEntries (depth block first n keep : Nat) (fs : Volume) (ret : Except Errno Unit)
    (fs' : Volume) (freed : List Nat) : Prop :=
  CutMany (· = block) (fun _ => depth) (fun i => i * ext2BranchSpan depth) first n keep
    fs (fs.word block) ret fs' (fs'.word block) freed

variable {first n : Nat}

/-- One round of the loop over the words of a block: the tree is cut and the word stored. -/
theorem truncateEntries_one
    (hapart : Apart (· = block) (fun _ => depth) first (n + 1) fs (fs.word block))
    (hcut : Cut depth (if keep - first * ext2BranchSpan depth > ext2BranchSpan depth
      then ext2BranchSpan depth else keep - first * ext2BranchSpan depth) fs (fs.word block first)
      ret fs1 entry freed) :
    (fs1.setWord block first entry).word = link fs1.word block first entry ∧
      CutEntries depth block first 1 keep fs ret (fs1.setWord block first entry) freed := by
  have hlt : entry < uint32Modulus := by
    rcases hcut.slot_eq with heq | heq
    · rw [heq]
      exact word_lt fs block first
    · rw [heq]
      decide
  have hlink := word_setWord fs1 block first hlt
  have hblock : fs1.page block = fs.page block := by
    apply hcut.page
    intro hmem
    exact hapart.home first le_rfl (by omega) block (mem_nodes.mpr (.inr hmem)) rfl
  refine ⟨hlink, .one hapart hcut rfl rfl rfl (fun b hb => Function.update_of_ne hb ..)
    (fun _ => Iff.rfl) (by rw [hlink, link_self]) (fun i hi => ?_) fun path hpath hlen => ?_⟩
  · rw [hlink, link_ne (.inr hi), word_congr hblock]
  · have hbound := pathIndex_lt hpath
    rw [hlen, ← ext2BranchSpan] at hbound
    split_ifs <;> omega

/-- What a round leaves for the ones after it. -/
theorem remaining_after (keep first span : Nat) :
    keep - first * span - (if keep - first * span > span then span else keep - first * span) =
      keep - (first + 1) * span := by
  rw [Nat.succ_mul]
  split_ifs <;> omega

/-- The loop over the words of a block, given what the calls do. -/
theorem truncateEntries_cut {child : Volume → Nat → Nat → Except Errno Unit × Volume × Nat}
    (hchild : ∀ fs slot keep ret fs' slot', fs.PagesAvailable →
      (nodes fs.word ptrsPerBlock depth slot).Nodup → child fs slot keep = (ret, fs', slot') →
      (∃ freed, Cut depth keep fs slot ret fs' slot' freed) ∧ (fs.NoErrors → ret = .ok ()))
    (n : Nat) {allZero zero : Bool} (hio : fs.PagesAvailable)
    (hapart : Apart (· = block) (fun _ => depth) first n fs (fs.word block))
    (hrun : truncateEntries child block (ext2BranchSpan depth) (List.range' first n) fs
      (keep - first * ext2BranchSpan depth) allZero = (ret, fs', zero)) :
    (∃ freed, CutEntries depth block first n keep fs ret fs' freed ∧
      (ret = .ok () → zero = true →
        allZero = true ∧ ∀ i, first ≤ i → i < first + n → fs'.word block i = 0)) ∧
      (fs.NoErrors → ret = .ok ()) := by
  induction n generalizing first fs allZero with
  | zero =>
    cases hrun
    refine ⟨⟨[], .idle _ _ fun _ => rfl, fun _ hz => ⟨hz, fun i hi hlt => ?_⟩⟩, fun _ => rfl⟩
    omega
  | succ n ih =>
    rw [List.range'_succ, truncateEntries] at hrun
    generalize hcall : child fs (fs.word block first) _ = r at hrun
    obtain ⟨ret1, fs1, entry⟩ := r
    obtain ⟨⟨freed, hcut⟩, hclean⟩ :=
      hchild _ _ _ _ _ _ hio (hapart.nodup first le_rfl (by omega)) hcall
    obtain ⟨hlink, hone⟩ := truncateEntries_one hapart hcut
    cases ret1 with
    | error e =>
      cases hrun
      refine ⟨⟨freed ++ [], .append hapart hone (.idle _ _ fun h => by cases h) id, ?_⟩, hclean⟩
      intro hok
      cases hok
    | ok u =>
      have hio2 : (fs1.setWord block first entry).PagesAvailable := hio.of_answers hone.answers
      rw [remaining_after] at hrun
      obtain ⟨⟨freed', hrest, hzero⟩, hclean⟩ := ih hio2 (hapart.tail hone) hrun
      refine ⟨⟨freed ++ freed', .append hapart hone hrest fun _ => rfl, fun hok hz => ?_⟩,
        fun hno => hclean (hno.of_answers hone.answers)⟩
      have hentry : fs'.word block first = entry := by
        rw [hrest.other first (by omega), hlink, link_self]
      obtain ⟨hflag, hlater⟩ := hzero hok hz
      rw [Bool.and_eq_true, beq_iff_eq] at hflag
      refine ⟨hflag.1, fun i hi hlt => ?_⟩
      by_cases hfi : i = first
      · rw [hfi, hentry, hflag.2]
      · exact hlater i (by omega) (by omega)

/-- The trees below the words of a block of pointers. -/
theorem apart_of_nodup (hslot : slot ≠ 0)
    (hnodup : (nodes fs.word ptrsPerBlock (depth + 1) slot).Nodup) :
    Apart (· = slot) (fun _ => depth) 0 ptrsPerBlock fs (fs.word slot) := by
  rw [nodes_succ hslot, List.nodup_append] at hnodup
  obtain ⟨hgather, -, hself⟩ := hnodup
  refine ⟨fun i _ hlt => nodup_of_gather hgather (by omega), fun i _ hlt x hmem hx => ?_,
    fun i j _ hi _ hj hij x hx hxj => hij (eq_of_mem_gather hgather (by omega) (by omega) hx hxj)⟩
  exact hself x (mem_gather.mpr ⟨i, by omega, hmem⟩) slot (List.mem_singleton_self slot) hx

theorem not_mem_inner_succ {b : Nat} (hslot : slot ≠ 0)
    (hb : b ∉ inner fs.word ptrsPerBlock (depth + 1) slot) :
    b ≠ slot ∧ ∀ i < ptrsPerBlock, b ∉ inner fs.word ptrsPerBlock depth (fs.word slot i) := by
  constructor
  · rintro rfl
    exact hb (self_mem_inner hslot depth)
  · exact fun i hi hmem => hb (inner_child_subset hslot hi depth hmem)

/-- The words of the block have been dealt with, and the block stays. -/
theorem CutEntries.cut (hslot : slot ≠ 0)
    (hself : ∀ i < ptrsPerBlock, slot ∉ nodes fs.word ptrsPerBlock depth (fs.word slot i))
    (h : CutEntries depth slot 0 ptrsPerBlock keep fs ret fs' freed) :
    Cut (depth + 1) keep fs slot ret fs' slot freed where
  sb := h.sb
  inodeBitmap := h.inodeBitmap
  answers := h.answers
  page b hb := by
    obtain ⟨hne, hinner⟩ := not_mem_inner_succ hslot hb
    exact h.page b hne fun i _ hlt => hinner i (by omega)
  used := h.used
  freed_mem b hb := by
    obtain ⟨i, -, hlt, hmem⟩ := h.freed_mem b hb
    rw [nodes_succ hslot]
    exact List.mem_append_left _ (mem_gather.mpr ⟨i, by omega, hmem⟩)
  count x := by
    have hone : slot ∉ freed := by
      intro hfreed
      obtain ⟨i, -, hlt, hmem⟩ := h.freed_mem slot hfreed
      exact hself i (by omega) hmem
    rw [nodes_succ hslot, nodes_succ hslot, List.count_append, List.count_append,
      h.count_gather, count_single]
    split_ifs with hx hxs
    · exact absurd (hxs ▸ hx) hone
    · rfl
    · rfl
    · rfl
  slot_eq := .inl rfl
  kept _ := rfl
  leaf path hpath hlen := by
    cases path with
    | nil => cases hlen
    | cons i path =>
      obtain ⟨d, hd, hi, hpath⟩ := hpath.cons
      cases hd
      have hlen' : path.length = depth := Nat.succ.inj hlen
      rw [nodeAt_cons hslot, nodeAt_cons hslot, pathIndex, hlen']
      exact h.leaf i (Nat.zero_le i) (by omega) path hpath hlen'

/-- No word is left, and the block is given back too. -/
theorem CutEntries.cut_all (hio : fs.PagesAvailable) (hslot : slot ≠ 0)
    (h : CutEntries depth slot 0 ptrsPerBlock keep fs (.ok ()) fs' freed)
    (hzero : ∀ i < ptrsPerBlock, fs'.word slot i = 0) :
    Cut (depth + 1) keep fs slot (.ok ()) (ext2FreeBlock fs' slot) 0 (freed ++ [slot]) := by
  have hio' : fs'.PagesAvailable := hio.of_answers h.answers
  have hfree := freed_ext2FreeBlock hio' slot
  refine ⟨hfree.sb.trans h.sb, hfree.inodeBitmap.trans h.inodeBitmap,
    hfree.answers.trans h.answers, ?_, ?_, ?_, ?_, .inr rfl, fun hret => absurd rfl hret, ?_⟩
  · intro b hb
    obtain ⟨hne, hinner⟩ := not_mem_inner_succ hslot hb
    rw [hfree.page]
    exact h.page b hne fun i _ hlt => hinner i (by omega)
  · intro b
    rw [hfree.used, h.used, List.mem_append, not_or, and_assoc]
  · intro b hb
    rw [nodes_succ hslot]
    rcases List.mem_append.mp hb with hb | hb
    · obtain ⟨i, -, hlt, hmem⟩ := h.freed_mem b hb
      exact List.mem_append_left _ (mem_gather.mpr ⟨i, by omega, hmem⟩)
    · exact List.mem_append_right _ hb
  · intro x
    split_ifs with hx
    · rfl
    · rw [List.mem_append, not_or] at hx
      symm
      apply List.count_eq_zero_of_not_mem
      rw [nodes_succ hslot]
      intro hmem
      obtain ⟨i, hi, hmem⟩ := mem_gather.mp ((List.mem_append.mp hmem).resolve_right hx.2)
      have hcount := h.count i (Nat.zero_le i) (by omega) x
      rw [hzero i hi, nodes_null, if_neg hx.1, List.count_nil] at hcount
      have hpos := List.count_pos_iff.mpr hmem
      omega
  · intro path hpath hlen
    cases path with
    | nil => cases hlen
    | cons i path =>
      obtain ⟨d, hd, hi, hpath⟩ := hpath.cons
      cases hd
      have hlen' : path.length = depth := Nat.succ.inj hlen
      have hleaf := h.leaf i (Nat.zero_le i) (by omega) path hpath hlen'
      rw [hzero i hi, nodeAt_null] at hleaf
      rw [nodeAt_cons hslot, pathIndex, hlen']
      exact hleaf

/-- A read before the cut changes nothing. -/
theorem Cut.of_nextTick (h : Cut depth keep fs.nextTick slot ret fs' slot' freed) :
    Cut depth keep fs slot ret fs' slot' freed :=
  ⟨h.sb, h.inodeBitmap, h.answers, h.page, h.used, h.freed_mem, h.count, h.slot_eq, h.kept, h.leaf⟩

/-- Nor does the write of the block of pointers after it, whatever its result. -/
theorem Cut.nextTick (h : Cut depth keep fs slot (.ok ()) fs' slot freed)
    (ret : Except Errno Unit) : Cut depth keep fs slot ret fs'.nextTick slot freed :=
  ⟨h.sb, h.inodeBitmap, h.answers, h.page, h.used, h.freed_mem, h.count, h.slot_eq, fun _ => rfl,
    fun path hpath hlen => (h.leaf path hpath hlen).mono (fun _ => rfl) Iff.rfl⟩

/-- The calls that do not look into a block of pointers. -/
theorem ext2TruncateBranchSlot_stop (hio : fs.PagesAvailable) (hstop : slot = 0 ∨ keep = 0)
    (hrun : ext2TruncateBranchSlot depth fs slot keep = (ret, fs', slot')) :
    (∃ freed, Cut depth keep fs slot ret fs' slot' freed) ∧ (fs.NoErrors → ret = .ok ()) := by
  have hcases : ext2TruncateBranchSlot depth fs slot keep =
      if slot = 0 then (.ok (), fs, slot) else (.ok (), ext2FreeIndirectChain depth fs slot, 0) := by
    cases depth <;> grind [ext2TruncateBranchSlot]
  rw [hcases] at hrun
  split_ifs at hrun with hslot
  · cases hrun
    rw [hslot]
    exact ⟨⟨[], .refl fs depth keep 0 _ fun path _ _ _ => nodeAt_null path⟩, fun _ => rfl⟩
  · cases hrun
    rw [hstop.resolve_left hslot]
    exact ⟨⟨_, Cut.free hio depth slot⟩, fun _ => rfl⟩

/-- `ext2_truncate_branch_slot` cuts the tree below the slot, and only an I/O error stops it. -/
theorem ext2TruncateBranchSlot_cut (depth : Nat) (hio : fs.PagesAvailable)
    (hnodup : (nodes fs.word ptrsPerBlock depth slot).Nodup)
    (hrun : ext2TruncateBranchSlot depth fs slot keep = (ret, fs', slot')) :
    (∃ freed, Cut depth keep fs slot ret fs' slot' freed) ∧ (fs.NoErrors → ret = .ok ()) := by
  by_cases hstop : slot = 0 ∨ keep = 0
  · exact ext2TruncateBranchSlot_stop hio hstop hrun
  obtain ⟨hslot, hkeep⟩ := not_or.mp hstop
  induction depth generalizing fs slot keep ret fs' slot' with
  | zero =>
    rw [ext2TruncateBranchSlot, if_neg hslot, if_neg hkeep] at hrun
    cases hrun
    refine ⟨⟨[], .refl fs 0 keep slot _ fun path _ hlen hbeyond => ?_⟩, fun _ => rfl⟩
    rw [List.length_eq_zero_iff.mp hlen] at hbeyond
    exact absurd (Nat.le_zero.mp hbeyond) hkeep
  | succ depth ih =>
    rw [ext2TruncateBranchSlot, if_neg hslot, if_neg hkeep] at hrun
    rw [pageCacheGetBlock, hio] at hrun
    dsimp only at hrun
    have hio0 : fs.nextTick.PagesAvailable := hio
    have hapart : Apart (· = slot) (fun _ => depth) 0 ptrsPerBlock fs.nextTick
        (fs.nextTick.word slot) := apart_of_nodup hslot hnodup
    have hself : ∀ i < ptrsPerBlock,
        slot ∉ nodes fs.nextTick.word ptrsPerBlock depth (fs.nextTick.word slot i) :=
      fun i hi hmem => hapart.home i (Nat.zero_le i) (by omega) slot hmem rfl
    generalize hloop : truncateEntries (ext2TruncateBranchSlot depth) slot
      (ext2BranchSpan depth) (List.range ptrsPerBlock) fs.nextTick keep true = r at hrun
    obtain ⟨ret1, fs1, zero⟩ := r
    have hloop' : truncateEntries (ext2TruncateBranchSlot depth) slot (ext2BranchSpan depth)
        (List.range' 0 ptrsPerBlock) fs.nextTick (keep - 0 * ext2BranchSpan depth) true =
          (ret1, fs1, zero) := by
      rw [Nat.zero_mul, ← List.range_eq_range']
      exact hloop
    obtain ⟨⟨freed, hentries, hzero⟩, hclean⟩ := truncateEntries_cut
      (fun fs slot keep ret fs' slot' hio hnodup hrun => by
        by_cases hstop : slot = 0 ∨ keep = 0
        · exact ext2TruncateBranchSlot_stop hio hstop hrun
        · exact ih hio hnodup hrun hstop (not_or.mp hstop).1 (not_or.mp hstop).2)
      ptrsPerBlock hio0 hapart hloop'
    cases ret1 with
    | error e =>
      cases hrun
      exact ⟨⟨freed, .of_nextTick (hentries.cut hslot hself)⟩,
        fun hno => hclean (hno.of_answers rfl)⟩
    | ok u =>
      cases zero with
      | true =>
        cases hrun
        have hwords := (hzero rfl rfl).2
        exact ⟨⟨freed ++ [slot], .of_nextTick (hentries.cut_all hio hslot
          fun i hi => hwords i (Nat.zero_le i) (by omega))⟩, fun _ => rfl⟩
      | false =>
        have hcut := Cut.of_nextTick (hentries.cut hslot hself)
        rw [finishBranch, Volume.pageCacheSyncPage] at hrun
        cases hsync : fs1.io.syncOk fs1.io.tick with
        | false =>
          rw [hsync] at hrun
          cases hrun
          refine ⟨⟨freed, hcut.nextTick _⟩, fun hno => ?_⟩
          have hno1 : fs1.NoErrors := hno.of_answers hcut.answers
          cases hsync.symm.trans (hno1.syncs _)
        | true =>
          rw [hsync] at hrun
          cases hrun
          exact ⟨⟨freed, hcut.nextTick _⟩, fun _ => rfl⟩

/-! ## Shrinking an inode -/

/-- The first part of the file below word `slot` of `i_block[]`. -/
def slotStart (slot : Nat) : Nat :=
  if slot ≤ indBlock then slot
  else if slot = dindBlock then ndirBlocks + ptrsPerBlock
  else if slot = tindBlock then ndirBlocks + ptrsPerBlock + ptrsPerBlock ^ 2
  else ndirBlocks + ptrsPerBlock + ptrsPerBlock ^ 2 + ptrsPerBlock ^ 3

theorem slotStart_succ (hslot : slot < nBlocks) :
    slotStart (slot + 1) = slotStart slot + ext2BranchSpan (slotDepth slot) := by
  have hcases : ∀ k < nBlocks,
      slotStart (k + 1) = slotStart k + ext2BranchSpan (slotDepth k) := by decide
  exact hcases slot hslot

theorem blockPlace_index {index : Nat} (h : blockPlace index = some (slot, path)) :
    index = slotStart slot + pathIndex path := by
  have hndir : ndirBlocks = 12 := rfl
  unfold blockPlace at h
  split_ifs at h with hdirect hsingle hbeyond
  · cases h
    have hle : slot ≤ indBlock := hdirect.le
    rw [slotStart, if_pos hle]
    rfl
  · cases h
    change index = 12 + ((index - ndirBlocks) * 1 + 0)
    omega
  · cases h
    have hdiv := Nat.div_add_mod (index - ndirBlocks - ptrsPerBlock) ptrsPerBlock
    change index = ndirBlocks + ptrsPerBlock +
      ((index - ndirBlocks - ptrsPerBlock) / ptrsPerBlock * ptrsPerBlock ^ 1 +
        ((index - ndirBlocks - ptrsPerBlock) % ptrsPerBlock * 1 + 0))
    rw [Nat.pow_one, Nat.mul_comm (_ / _)]
    omega

/-- The trees below the words of `i_block[]`. -/
abbrev CutSlots (first n keep : Nat) (fs : Volume) (inode : Inode) (ret : Except Errno Unit)
    (fs' : Volume) (inode' : Inode) (freed : List Nat) : Prop :=
  CutMany (fun _ => False) slotDepth slotStart first n keep fs inode.iBlock ret fs' inode'.iBlock
    freed

/-- One call of `ext2_truncate_branch`. -/
theorem truncateSlots_one (hapart : Apart (fun _ => False) slotDepth first (n + 1) fs inode.iBlock)
    (hcut : Cut (slotDepth first) (if first < ndirBlocks then
      (if keep - slotStart first = 0 then 0 else 1) else keep - slotStart first) fs
      (inode.iBlock first) ret fs1 slot' freed) :
    CutMany (fun _ => False) slotDepth slotStart first 1 keep fs inode.iBlock ret fs1
      (Function.update inode.iBlock first slot') freed := by
  refine .one hapart hcut rfl rfl rfl (fun _ _ => rfl) (fun _ => Iff.rfl)
    (Function.update_self ..) (fun i hi => Function.update_of_ne hi ..) fun path hpath hlen => ?_
  split_ifs with hdirect hzero
  · omega
  · -- a direct pointer is a leaf by itself
    rw [slotDepth, if_pos hdirect] at hlen
    rw [List.length_eq_zero_iff.mp hlen, pathIndex]
    omega
  · omega

theorem truncateSlots_cut (n : Nat) (hn : first + n ≤ nBlocks) (hio : fs.PagesAvailable)
    (hapart : Apart (fun _ => False) slotDepth first n fs inode.iBlock)
    (hrun : truncateSlots (List.range' first n) (keep - slotStart first) fs inode =
      (ret, fs', inode')) :
    (∃ freed, CutSlots first n keep fs inode ret fs' inode' freed) ∧
      inode' = { inode with iBlock := inode'.iBlock } ∧ (fs.NoErrors → ret = .ok ()) := by
  induction n generalizing first fs inode with
  | zero =>
    cases hrun
    exact ⟨⟨[], .idle _ _ fun _ => rfl⟩, rfl, fun _ => rfl⟩
  | succ n ih =>
    rw [List.range'_succ, truncateSlots, ext2TruncateBranch] at hrun
    generalize hcall : ext2TruncateBranchSlot (slotDepth first) fs (inode.iBlock first) _ = r
      at hrun
    obtain ⟨ret1, fs1, slot'⟩ := r
    obtain ⟨⟨freed, hcut⟩, hclean⟩ := ext2TruncateBranchSlot_cut (slotDepth first) hio
      (hapart.nodup first le_rfl (by omega)) hcall
    have hone := truncateSlots_one hapart hcut
    cases ret1 with
    | error e =>
      have hsame : Function.update inode.iBlock first slot' = inode.iBlock := by
        rw [hcut.kept fun h => by cases h]
        exact Function.update_eq_self first inode.iBlock
      rw [hsame] at hone
      cases hrun
      exact ⟨⟨freed ++ [], .append hapart hone (.idle _ _ fun h => by cases h) id⟩, rfl, hclean⟩
    | ok u =>
      have hio1 : fs1.PagesAvailable := hio.of_answers hone.answers
      rw [Nat.sub_sub, ← slotStart_succ (by omega)] at hrun
      obtain ⟨⟨freed', hrest⟩, hinode, hclean⟩ := ih (by omega) hio1 (hapart.tail hone) hrun
      exact ⟨⟨freed ++ freed', .append hapart hone hrest fun _ => rfl⟩, hinode,
        fun hno => hclean (hno.of_answers hone.answers)⟩

/-- What cutting the trees of an inode comes to. -/
structure Shrinks (keep : Nat) (fs : Volume) (inode : Inode) (ret : Except Errno Unit)
    (fs' : Volume) (inode' : Inode) : Prop where
  sb : fs'.sb = fs.sb
  inodeBitmap : fs'.inodeBitmap = fs.inodeBitmap
  answers : fs'.io.answers = fs.io.answers
  owns : Owns fs' inode'
  used : ∀ b, fs'.BlockUsed b ↔ fs.BlockUsed b ∧ (b ∈ inode.owned → b ∈ inode'.owned)
  owned : ∀ b ∈ inode'.owned, b ∈ inode.owned
  page : ∀ b, b ∉ fs.inodeInner inode → fs'.page b = fs.page b
  part : ∀ index, LeafCut (keep ≤ index) ret (fs.blockAt inode index) (fs'.blockAt inode' index)

theorem apart_of_inodeBlocks (hnodup : (fs.inodeBlocks inode).Nodup) :
    Apart (fun _ => False) slotDepth 0 nBlocks fs inode.iBlock := by
  refine ⟨fun i _ hlt => nodup_of_gather hnodup (by omega), fun _ _ _ _ _ => id,
    fun i j _ hi _ hj hij x hx hxj => hij (eq_of_mem_gather hnodup (by omega) (by omega) hx hxj)⟩

theorem CutMany.count_inodeBlocks
    (hcut : CutSlots 0 nBlocks keep fs inode ret fs' inode' freed) (x : Nat) :
    (fs'.inodeBlocks inode').count x = if x ∈ freed then 0 else (fs.inodeBlocks inode).count x :=
  hcut.count_gather x

/-- All words of `i_block[]` have been dealt with. -/
theorem CutMany.shrinks (h : Owns fs inode)
    (hcut : CutSlots 0 nBlocks keep fs inode ret fs' inode' freed)
    (howned : inode'.owned = inode.owned) :
    Shrinks keep fs inode ret fs' (inode'.dropFreed fs') := by
  have hfreed : ∀ b ∈ freed, b ∈ inode.owned := by
    intro b hb
    obtain ⟨i, -, hi, hmem⟩ := hcut.freed_mem b hb
    exact (h.mem_iff b).mp (mem_gather.mpr ⟨i, by omega, hmem⟩)
  have hkept : ∀ b, b ∈ (inode'.dropFreed fs').owned ↔ b ∈ inode.owned ∧ b ∉ freed := by
    intro b
    rw [Inode.dropFreed, List.mem_filter, decide_eq_true_iff, howned, hcut.used]
    exact ⟨fun hb => ⟨hb.1, hb.2.2⟩, fun hb => ⟨hb.1, h.used b hb.1, hb.2⟩⟩
  refine ⟨hcut.sb, hcut.inodeBitmap, hcut.answers, ⟨?_, ?_, ?_⟩, ?_, ?_, ?_, ?_⟩
  · intro x
    have hcount : (fs'.inodeBlocks (inode'.dropFreed fs')).count x = _ := hcut.count_inodeBlocks x
    rw [hcount, h.count]
    by_cases hx : x ∈ (inode'.dropFreed fs').owned
    · obtain ⟨hmem, hnot⟩ := (hkept x).mp hx
      have hused : fs'.BlockUsed x := (hcut.used x).mpr ⟨h.used x hmem, hnot⟩
      have hfilter : (inode'.dropFreed fs').owned.count x = inode'.owned.count x :=
        List.count_filter (decide_eq_true hused)
      rw [if_neg hnot, hfilter, howned]
    · rw [List.count_eq_zero_of_not_mem hx]
      split_ifs with hgone
      · rfl
      · exact List.count_eq_zero_of_not_mem fun hmem => hx ((hkept x).mpr ⟨hmem, hgone⟩)
  · rw [Inode.dropFreed, howned]
    exact h.nodup.filter _
  · intro b hb
    obtain ⟨hmem, hnot⟩ := (hkept b).mp hb
    exact (hcut.used b).mpr ⟨h.used b hmem, hnot⟩
  · intro b
    rw [hcut.used, hkept]
    constructor
    · exact fun hb => ⟨hb.1, fun hmem => ⟨hmem, hb.2⟩⟩
    · exact fun hb => ⟨hb.1, fun hgone => (hb.2 (hfreed b hgone)).2 hgone⟩
  · exact fun b hb => ((hkept b).mp hb).1
  · intro b hb
    exact hcut.page b id fun i _ hlt hmem => hb (mem_gather.mpr ⟨i, by omega, hmem⟩)
  · intro index
    have hdrop : fs'.blockAt (inode'.dropFreed fs') index = fs'.blockAt inode' index := rfl
    rw [hdrop]
    rcases blockAt_cases fs inode index with ⟨hnone, hzero⟩ | ⟨slot, path, hplace, heq⟩
    · have hzero' : fs'.blockAt inode' index = 0 := by rw [Volume.blockAt, hnone]
      rw [hzero, hzero']
      exact ⟨.inl rfl, fun _ _ => rfl⟩
    · obtain ⟨hvalid, hlen⟩ := blockPlace_isPlace hplace
      rw [heq, blockAt_of_place hplace, blockPlace_index hplace]
      exact hcut.leaf slot (Nat.zero_le slot) (by have := hvalid.slot_lt; omega) path
        hvalid.isPath hlen

end Branch

section

variable {fs : Volume} (h : Owns fs inode) (hio : fs.PagesAvailable)
include h hio

/-- The calls of `ext2_truncate_branch` cut the file behind part `keep`. -/
theorem truncateSlots_shrinks (keep : Nat) {fs' : Volume}
    (hrun : truncateSlots (List.range nBlocks) keep fs inode = (ret, fs', inode')) :
    Shrinks keep fs inode ret fs' (inode'.dropFreed fs') ∧
      inode' = { inode with iBlock := inode'.iBlock } ∧ (fs.NoErrors → ret = .ok ()) := by
  obtain ⟨⟨freed, hcut⟩, hrest⟩ := truncateSlots_cut nBlocks le_rfl hio
    (apart_of_inodeBlocks h.nodup_inodeBlocks) hrun
  exact ⟨hcut.shrinks h (by rw [hrest.1]), hrest⟩

/-- `ext2_free_inode_blocks` cuts everything. -/
theorem ext2FreeInodeBlocks_shrinks (ret : Except Errno Unit) :
    Shrinks 0 fs inode ret (ext2FreeInodeBlocks fs inode).1
      ((ext2FreeInodeBlocks fs inode).2.dropFreed (ext2FreeInodeBlocks fs inode).1) := by
  have hfreed := freed_ext2FreeInodeBlocks hio inode
  have hslot : ∀ k, (ext2FreeInodeBlocks fs inode).2.iBlock k =
      if k < nBlocks then 0 else inode.iBlock k := fun _ => rfl
  have howned : (ext2FreeInodeBlocks fs inode).2.owned = inode.owned := rfl
  generalize ext2FreeInodeBlocks fs inode = r at hfreed hslot howned ⊢
  obtain ⟨fs', inode'⟩ := r
  have hnull : ∀ k, k < 0 + nBlocks → inode'.iBlock k = 0 :=
    fun k hk => by rw [hslot, if_pos (by omega)]
  have hcut : CutSlots 0 nBlocks 0 fs inode ret fs' inode' (fs.inodeBlocks inode) := by
    refine ⟨hfreed.sb, hfreed.inodeBitmap, hfreed.answers, fun b _ _ => by rw [hfreed.page],
      hfreed.used, fun b hb => ?_, fun i hi => ?_, fun i _ hi x => ?_,
      fun i _ hi path _ _ => ?_⟩
    · obtain ⟨i, hi, hmem⟩ := mem_gather.mp hb
      exact ⟨i, Nat.zero_le i, by omega, hmem⟩
    · rw [hslot, if_neg (by omega)]
    · rw [hnull i hi, nodes_null]
      split_ifs with hx
      · rfl
      · exact (List.count_eq_zero_of_not_mem fun hmem =>
          hx (mem_gather.mpr ⟨i, by omega, hmem⟩)).symm
    · rw [hnull i hi, nodeAt_null]
      exact ⟨.inr ⟨rfl, Nat.zero_le _⟩, fun _ _ => rfl⟩
  exact hcut.shrinks h howned

end

/-! ## The tail of a file -/

/-- What zeroing the part behind `size` does: the page in question changes, if there is
one and `size` is inside it. -/
def TailZeroed (size : Nat) (fs : Volume) (inode : Inode) (fs' : Volume) : Prop :=
  (Quiet fs fs' ∧ (size % blockSize = 0 ∨ fs.blockAt inode (size / blockSize) = 0)) ∨
    (fs.blockAt inode (size / blockSize) ≠ 0 ∧ size % blockSize ≠ 0 ∧
      Quiet (fs.setPage (fs.blockAt inode (size / blockSize))
        (zeroFrom (size % blockSize) (fs.page (fs.blockAt inode (size / blockSize))))) fs')

section Tail

variable {fs : Volume} {inode : Inode}

/-- The page that is read holds the block of the part, unless something fails. -/
theorem pageCacheReadMapping_cases (fs : Volume) (inode : Inode) (index : Nat) :
    Quiet fs (pageCacheReadMapping fs inode index).2 ∧
      ((pageCacheReadMapping fs inode index).1 = (if index > ext2MaxFileIndex then .error .efbig
          else if fs.blockAt inode index = 0 then .error .enodata
          else .ok (fs.blockAt inode index)) ∨
        (∃ e, (pageCacheReadMapping fs inode index).1 = .error e) ∧ ¬ fs.PagesAvailable) := by
  unfold pageCacheReadMapping
  by_cases hbig : index > ext2MaxFileIndex
  · rw [if_pos hbig, if_pos hbig]
    exact ⟨.refl fs, .inl rfl⟩
  rw [if_neg hbig, if_neg hbig]
  obtain ⟨hquiet, hblock⟩ := ext2BmapReadonly_spec fs inode index
  generalize ext2BmapReadonly fs inode index = r at hquiet hblock ⊢
  obtain ⟨block, fs1⟩ := r
  cases block with
  | zero =>
    refine ⟨hquiet, hblock.imp (fun hzero => ?_) fun hfail => ⟨⟨_, rfl⟩, hfail.2⟩⟩
    rw [← hzero, if_pos rfl]
  | succ b =>
    have hread := hquiet.trans (quiet_nextTick fs1)
    have hblock := hblock.resolve_right fun hfail => Nat.succ_ne_zero b hfail.1
    dsimp only [pageCacheGetBlock]
    cases hget : fs1.io.pageOk fs1.io.tick with
    | false =>
      refine ⟨hread, .inr ⟨⟨_, rfl⟩, fun hio => ?_⟩⟩
      rw [hio.of_answers hquiet.answers] at hget
      cases hget
    | true => exact ⟨hread, .inl (by rw [← hblock, if_neg (Nat.succ_ne_zero b)])⟩

section

variable (hio : fs.PagesAvailable)
include hio

theorem pageCacheReadMapping_spec (inode : Inode) (index : Nat) :
    Quiet fs (pageCacheReadMapping fs inode index).2 ∧
      (pageCacheReadMapping fs inode index).1 = if index > ext2MaxFileIndex then .error .efbig
        else if fs.blockAt inode index = 0 then .error .enodata
        else .ok (fs.blockAt inode index) := by
  obtain ⟨hquiet, hret⟩ := pageCacheReadMapping_cases fs inode index
  exact ⟨hquiet, hret.resolve_right fun hfail => hfail.2 hio⟩

variable {size : Nat}

/-- The search for the page, which both tail functions begin with. -/
theorem tail_page (hsize : size < uint32Modulus) (hzero : fs.blockAt inode (size / blockSize) ≠ 0) :
    ∃ b fs1 fs2, ext2BmapReadonly fs inode (size / blockSize) = (b + 1, fs1) ∧
      pageCacheReadMapping fs1 inode (size / blockSize) =
        (.ok (fs.blockAt inode (size / blockSize)), fs2) ∧ Quiet fs fs2 := by
  have hindex : ¬ size / blockSize > ext2MaxFileIndex := by
    have hmax : ext2MaxFileIndex = 1048575 := rfl
    have hmod : uint32Modulus = 4294967296 := rfl
    have hbs : blockSize = 4096 := rfl
    rw [hbs]
    omega
  have hquiet := quiet_ext2BmapReadonly fs inode (size / blockSize)
  have hblock := ext2BmapReadonly_eq hio inode (size / blockSize)
  generalize ext2BmapReadonly fs inode (size / blockSize) = r at hquiet hblock ⊢
  obtain ⟨block, fs1⟩ := r
  dsimp only at hquiet hblock
  have hio1 : fs1.PagesAvailable := hio.of_answers hquiet.answers
  obtain ⟨hread, hret⟩ := pageCacheReadMapping_spec hio1 inode (size / blockSize)
  rw [if_neg hindex, hquiet.blockAt, if_neg hzero] at hret
  obtain ⟨b, hb⟩ := Nat.exists_eq_succ_of_ne_zero hzero
  refine ⟨b, fs1, (pageCacheReadMapping fs1 inode (size / blockSize)).2, ?_, ?_, hquiet.trans hread⟩
  · rw [hblock, hb]
  · rw [← hret]

theorem tail_none (hzero : fs.blockAt inode (size / blockSize) = 0) :
    ∃ fs1, ext2BmapReadonly fs inode (size / blockSize) = (0, fs1) ∧ Quiet fs fs1 := by
  refine ⟨(ext2BmapReadonly fs inode (size / blockSize)).2, ?_,
    quiet_ext2BmapReadonly fs inode (size / blockSize)⟩
  rw [← hzero, ← ext2BmapReadonly_eq hio]

end

theorem quiet_setPage {fs1 : Volume} (h : Quiet fs fs1) (block : Nat)
    (bytes : Nat → UInt8) : Quiet (fs.setPage block bytes) (fs1.setPage block bytes) where
  sb := h.sb
  blockBitmap := h.blockBitmap
  inodeBitmap := h.inodeBitmap
  page := by
    rw [setPage, setPage, h.page]
  answers := h.answers

section

variable {size : Nat} (hio : fs.PagesAvailable) (hsize : size < uint32Modulus)
include hio hsize

theorem ext2ZeroExtendTail_spec : (ext2ZeroExtendTail size fs inode).1 = .ok () ∧
      TailZeroed size fs inode (ext2ZeroExtendTail size fs inode).2 := by
  unfold ext2ZeroExtendTail
  split_ifs with hnone
  · refine ⟨rfl, .inl ⟨.refl fs, ?_⟩⟩
    rcases hnone with rfl | halign
    · exact .inl rfl
    · exact .inl halign
  by_cases hzero : fs.blockAt inode (size / blockSize) = 0
  · obtain ⟨fs1, hbmap, hquiet⟩ := tail_none hio hzero
    rw [hbmap]
    exact ⟨rfl, .inl ⟨hquiet, .inr hzero⟩⟩
  · obtain ⟨b, fs1, fs2, hbmap, hread, hquiet⟩ := tail_page hio hsize hzero
    rw [hbmap]
    dsimp only
    rw [hread]
    refine ⟨rfl, .inr ⟨hzero, fun halign => hnone (.inr halign), ?_⟩⟩
    rw [← hquiet.page]
    exact quiet_setPage hquiet _ _

theorem ext2ZeroTruncateTail_spec :
    TailZeroed size fs inode (ext2ZeroTruncateTail size fs inode).2 ∧
      (fs.NoErrors → (ext2ZeroTruncateTail size fs inode).1 = .ok ()) := by
  unfold ext2ZeroTruncateTail
  split_ifs with hnone
  · refine ⟨.inl ⟨.refl fs, ?_⟩, fun _ => rfl⟩
    rcases hnone with rfl | halign
    · exact .inl rfl
    · exact .inl halign
  by_cases hzero : fs.blockAt inode (size / blockSize) = 0
  · obtain ⟨fs1, hbmap, hquiet⟩ := tail_none hio hzero
    rw [hbmap]
    exact ⟨.inl ⟨hquiet, .inr hzero⟩, fun _ => rfl⟩
  · obtain ⟨b, fs1, fs2, hbmap, hread, hquiet⟩ := tail_page hio hsize hzero
    rw [hbmap]
    dsimp only
    rw [hread]
    dsimp only [Volume.pageCacheSyncPage]
    have hsetPage := quiet_setPage hquiet (fs.blockAt inode (size / blockSize))
      (zeroFrom (size % blockSize) (fs.page (fs.blockAt inode (size / blockSize))))
    rw [hquiet.page]
    generalize fs2.setPage _ _ = fs3 at hsetPage ⊢
    have hsynced := hsetPage.trans (quiet_nextTick fs3)
    cases hsync : fs3.io.syncOk fs3.io.tick with
    | false =>
      refine ⟨.inr ⟨hzero, fun halign => hnone (.inr halign), hsynced⟩, fun hok => ?_⟩
      have hsyncs := (hok.of_answers hsetPage.answers).syncs fs3.io.tick
      rw [hsync] at hsyncs
      cases hsyncs
    | true => exact ⟨.inr ⟨hzero, fun halign => hnone (.inr halign), hsynced⟩, fun _ => rfl⟩

end

/-! ## The end of `ext2_truncate_inode` -/

theorem quiet_ext2CountTreeBlocks (depth : Nat) (fs : Volume) (block : Nat) :
    Quiet fs (ext2CountTreeBlocks depth fs block).2 := by
  induction depth generalizing fs block with
  | zero => exact .refl fs
  | succ depth ih =>
    rw [ext2CountTreeBlocks]
    split_ifs
    · exact .refl fs
    dsimp only [pageCacheGetBlock]
    cases fs.io.pageOk fs.io.tick with
    | false => exact quiet_nextTick fs
    | true =>
      refine (quiet_nextTick fs).trans ?_
      refine List.foldlRecOn (motive := fun r : Nat × Volume => Quiet fs.nextTick r.2)
        _ _ (.refl _) fun r hr i _ => ?_
      split_ifs
      · exact hr
      · exact hr.trans (ih r.2 _)

theorem quiet_ext2InodeTreeBlocks (fs : Volume) (inode : Inode) :
    Quiet fs (ext2InodeTreeBlocks fs inode).2 :=
  List.foldlRecOn (motive := fun r : Nat × Volume => Quiet fs r.2) _ _ (.refl fs)
    fun r hr _ _ => hr.trans (quiet_ext2CountTreeBlocks _ r.2 _)

end Tail

end CuteOS.Fs.Ext2
