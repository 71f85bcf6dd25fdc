/-
  Fs/Ext2/Inode.lean --- the blocks of an ext2 inode.

  Source: `fs/ext2/inode.c`.

  `i_block[]` holds twelve direct pointers and the roots of trees of depth one, two
  and three.  The ghost field `owned` of an inode lists the blocks that
  `ext2_alloc_bmap_block` has returned for it; `Owns` says that they are exactly the
  blocks of its trees.  The specifications assume that page-cache reads succeed;
  device writes may fail.
-/
import CuteOS.Fs.Ext2.Balloc
import CuteOS.Lib.PtrTree

set_option autoImplicit false

namespace CuteOS.Fs.Ext2

open Lib.PtrTree

/-! ## Words of a block -/

/-- The number of `uint32_t` words in a block. -/
def ptrsPerBlock : Nat := 1024

/-- `ext2_block_words(page)[i]`. -/
def Volume.word (fs : Volume) (block i : Nat) : Nat :=
  (fs.page block (4 * i)).toNat + 256 * (fs.page block (4 * i + 1)).toNat +
    65536 * (fs.page block (4 * i + 2)).toNat + 16777216 * (fs.page block (4 * i + 3)).toNat

/-- `ext2_block_words(page)[i] = value`. -/
def Volume.setWord (fs : Volume) (block i value : Nat) : Volume :=
  fs.setPage block fun off =>
    if off / 4 = i then UInt8.ofNat (value / 256 ^ (off % 4)) else fs.page block off

theorem word_setWord (fs : Volume) (block i : Nat) {value : Nat} (hvalue : value < uint32Modulus) :
    (fs.setWord block i value).word = link fs.word block i value := by
  funext n j
  by_cases hn : n = block
  · subst hn
    by_cases hj : j = i
    · subst hj
      have hdiv : ∀ k < 4, (4 * j + k) / 4 = j ∧ (4 * j + k) % 4 = k := by
        omega
      have hvalue' : value < 4294967296 := hvalue
      simp only [link_self, Volume.word, Volume.setWord, Volume.setPage, Function.update_self,
        hdiv 1 (by omega), hdiv 2 (by omega), hdiv 3 (by omega), Nat.mul_div_cancel_left j,
        Nat.mul_mod_right, Nat.succ_pos, if_true, UInt8.toNat_ofNat']
      omega
    · have hdiv : ∀ k < 4, (4 * j + k) / 4 = j := by
        omega
      rw [link_ne (.inr hj)]
      simp only [Volume.word, Volume.setWord, Volume.setPage, Function.update_self,
        hdiv 1 (by omega), hdiv 2 (by omega), hdiv 3 (by omega),
        Nat.mul_div_cancel_left j (Nat.succ_pos 3), hj, if_false]
  · rw [link_ne (.inl hn)]
    simp only [Volume.word, Volume.setWord, Volume.setPage, Function.update_of_ne hn]

variable {fs : Volume} {block : Nat}

theorem word_eq_zero (hzero : fs.page block = fun _ => 0) (i : Nat) : fs.word block i = 0 := by
  simp [Volume.word, hzero]

theorem word_congr {fs' : Volume} (hpage : fs'.page block = fs.page block) (i : Nat) :
    fs'.word block i = fs.word block i := by
  rw [Volume.word, Volume.word, hpage]

/-! ## Inodes -/

/-- The file type bits of `i_mode`. -/
inductive FileType where
  | zero
  | fifo
  | chr
  | dir
  | blk
  | reg
  | lnk
  | sock
  | other
  deriving DecidableEq, Repr

/-- `EXT2_N_BLOCKS`. -/
def nBlocks : Nat := 15

/-- `EXT2_NDIR_BLOCKS`. -/
def ndirBlocks : Nat := 12

/-- `EXT2_IND_BLOCK`, `EXT2_DIND_BLOCK` and `EXT2_TIND_BLOCK`. -/
def indBlock : Nat := 12

@[inherit_doc indBlock]
def dindBlock : Nat := 13

@[inherit_doc indBlock]
def tindBlock : Nat := 14

/-- `struct inode` with its `raw_inode`. -/
structure Inode where
  ino : Nat
  iType : FileType
  iNlink : Nat
  iSize : Nat
  iBlocks : Nat
  iRdev : Nat
  iBlock : Nat → Nat
  /-- Ghost: the blocks allocated for the inode. -/
  owned : List Nat

/-- A device node keeps its number in `i_block[0]`. -/
def Inode.isDevice (inode : Inode) : Bool :=
  inode.iType == .chr || inode.iType == .blk

/-- The depth of the tree below `i_block[slot]`. -/
def slotDepth (slot : Nat) : Nat :=
  if slot < ndirBlocks then 0
  else if slot = indBlock then 1
  else if slot = dindBlock then 2
  else 3

/-- The blocks that `i_block[]` leads to, in the order in which they are freed. -/
def Volume.inodeBlocks (fs : Volume) (inode : Inode) : List Nat :=
  rootNodes fs.word ptrsPerBlock nBlocks slotDepth inode.iBlock

/-- The blocks of pointers among them. -/
def Volume.inodeInner (fs : Volume) (inode : Inode) : List Nat :=
  rootInner fs.word ptrsPerBlock nBlocks slotDepth inode.iBlock

/-- The blocks of data among them. -/
def Volume.inodeLeaves (fs : Volume) (inode : Inode) : List Nat :=
  rootLeaves fs.word ptrsPerBlock nBlocks slotDepth inode.iBlock

/-! ## Freeing -/

/-- `ext2_free_indirect_chain`. -/
def ext2FreeIndirectChain : Nat → Volume → Nat → Volume
  | 0, fs, block => if block = 0 then fs else ext2FreeBlock fs block
  | depth + 1, fs, block =>
    if block = 0 then fs
    else
      let fs :=
        match fs.pageCacheGetBlock with
        | (false, fs) => fs
        | (true, fs) =>
          (List.range ptrsPerBlock).foldl
            (fun fs i =>
              if fs.word block i = 0 then fs
              else ext2FreeIndirectChain depth fs (fs.word block i)) fs
      ext2FreeBlock fs block

/-- `ext2_free_inode_blocks`. -/
def ext2FreeInodeBlocks (fs : Volume) (inode : Inode) : Volume × Inode :=
  let fs := (List.range ndirBlocks).foldl
    (fun fs i => if inode.iBlock i = 0 then fs else ext2FreeBlock fs (inode.iBlock i)) fs
  let fs := ext2FreeIndirectChain 1 fs (inode.iBlock indBlock)
  let fs := ext2FreeIndirectChain 2 fs (inode.iBlock dindBlock)
  let fs := ext2FreeIndirectChain 3 fs (inode.iBlock tindBlock)
  (fs, { inode with
    iBlock := fun i => if i < nBlocks then 0 else inode.iBlock i
    iBlocks := 0
    iSize := 0 })

/-- A loop over the words of an array frees what its rounds free, if each round frees
a list that depends on the block contents only. -/
theorem freed_foldl (hio : fs.PagesAvailable) {step : Volume → Nat → Volume}
    {blocks : Nat → List Nat} (n : Nat)
    (hstep : ∀ fs' i, fs'.page = fs.page → fs'.PagesAvailable → i < n →
      Freed fs' (blocks i) (step fs' i)) :
    Freed fs (gather n blocks) ((List.range n).foldl step fs) := by
  induction n with
  | zero => exact .of_quiet (.refl fs)
  | succ n ih =>
    have hfirst := ih fun fs' i hpage hio' hi => hstep fs' i hpage hio' (by omega)
    have hlast := hstep _ n hfirst.page (hfirst.pagesAvailable hio) (Nat.lt_succ_self n)
    have hgather : gather (n + 1) blocks = gather n blocks ++ blocks n := by
      simp [gather, List.range_succ]
    rw [hgather, List.range_succ, List.foldl_append]
    exact hfirst.append hlast

theorem freed_ext2FreeIndirectChain (depth : Nat) (hio : fs.PagesAvailable) (block : Nat) :
    Freed fs (nodes fs.word ptrsPerBlock depth block) (ext2FreeIndirectChain depth fs block) := by
  induction depth generalizing fs block with
  | zero =>
    rw [ext2FreeIndirectChain, nodes]
    split_ifs with hblock
    · exact .of_quiet (.refl fs)
    · exact freed_ext2FreeBlock hio block
  | succ depth ih =>
    rw [ext2FreeIndirectChain]
    split_ifs with hblock
    · rw [hblock]
      exact .of_quiet (.refl fs)
    rw [nodes_succ hblock, Volume.pageCacheGetBlock, hio]
    have hio' : fs.nextTick.PagesAvailable := hio
    have hread : Freed fs [] fs.nextTick := .of_quiet (Volume.quiet_nextTick fs)
    have hchildren : Freed fs.nextTick
        (gather ptrsPerBlock fun i => nodes fs.word ptrsPerBlock depth (fs.word block i))
        ((List.range ptrsPerBlock).foldl (fun fs i => if fs.word block i = 0 then fs
            else ext2FreeIndirectChain depth fs (fs.word block i)) fs.nextTick) := by
      apply freed_foldl hio'
      intro fs' i hpage hfs' _
      have hword : fs'.word = fs.word := by
        funext n j
        exact word_congr (congrFun hpage n) j
      rw [← hword]
      split_ifs with hnull
      · rw [hnull, nodes_null]
        exact .of_quiet (.refl fs')
      · exact ih hfs' _
    have hall := hread.append (hchildren.append
      (freed_ext2FreeBlock (hchildren.pagesAvailable hio') block))
    rwa [List.nil_append] at hall

/-- `ext2_free_inode_blocks` frees the blocks that `i_block[]` leads to. -/
theorem freed_ext2FreeInodeBlocks (hio : fs.PagesAvailable) (inode : Inode) :
    Freed fs (fs.inodeBlocks inode) (ext2FreeInodeBlocks fs inode).1 := by
  have hdirect : Freed fs
      (gather ndirBlocks fun i => nodes fs.word ptrsPerBlock (slotDepth i) (inode.iBlock i))
      ((List.range ndirBlocks).foldl
        (fun fs i => if inode.iBlock i = 0 then fs else ext2FreeBlock fs (inode.iBlock i)) fs) := by
    apply freed_foldl hio
    intro fs' i _ hfs' hi
    rw [slotDepth, if_pos hi, nodes]
    split_ifs with hnull
    · exact .of_quiet (.refl fs')
    · exact freed_ext2FreeBlock hfs' _
  have hsplit : fs.inodeBlocks inode =
      gather ndirBlocks (fun i => nodes fs.word ptrsPerBlock (slotDepth i) (inode.iBlock i)) ++
        nodes fs.word ptrsPerBlock 1 (inode.iBlock indBlock) ++
        nodes fs.word ptrsPerBlock 2 (inode.iBlock dindBlock) ++
        nodes fs.word ptrsPerBlock 3 (inode.iBlock tindBlock) := by
    have hrange : List.range nBlocks =
        List.range ndirBlocks ++ [indBlock] ++ [dindBlock] ++ [tindBlock] := by decide
    simp only [Volume.inodeBlocks, rootNodes, gather, hrange, List.flatMap_append,
      List.flatMap_singleton]
    rfl
  rw [hsplit]
  have hword : ∀ {l fs'}, Freed fs l fs' → fs.word = fs'.word := by
    intro l fs' hfreed
    funext n j
    exact (word_congr (congrFun hfreed.page n) j).symm
  have hind := freed_ext2FreeIndirectChain 1 (hdirect.pagesAvailable hio) (inode.iBlock indBlock)
  rw [← hword hdirect] at hind
  have hind := hdirect.append hind
  have hdind := freed_ext2FreeIndirectChain 2 (hind.pagesAvailable hio) (inode.iBlock dindBlock)
  rw [← hword hind] at hdind
  have hdind := hind.append hdind
  have htind := freed_ext2FreeIndirectChain 3 (hdind.pagesAvailable hio) (inode.iBlock tindBlock)
  rw [← hword hdind] at htind
  exact hdind.append htind

end CuteOS.Fs.Ext2
