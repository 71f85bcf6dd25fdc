/-
  Fs/Ext2/Space.lean --- finding blocks does not depend on the data.

  Two volumes are alike when they differ in the contents of data blocks and in the
  questions asked so far only.  Without I/O errors, mapping the parts of a file goes the
  same way on both; so whether a range can be mapped at all can be asked beforehand.
-/
import CuteOS.Fs.Ext2.File

set_option autoImplicit false

namespace CuteOS.Fs.Ext2

open Lib.PtrTree
open Function (update update_self update_of_ne)

/-- The same volume after other questions. -/
def Volume.atTick (fs : Volume) (tick : Nat) : Volume :=
  { fs with io := { fs.io with tick := tick } }

/-- `gs` differs from `fs` in the blocks `data` and in the questions asked only. -/
structure Alike (data : Nat → Prop) (fs gs : Volume) : Prop where
  sb : gs.sb = fs.sb
  blockBitmap : gs.blockBitmap = fs.blockBitmap
  bgFreeBlocksCount : gs.bgFreeBlocksCount = fs.bgFreeBlocksCount
  page : ∀ b, ¬ data b → gs.page b = fs.page b
  fsOk : fs.NoErrors
  gsOk : gs.NoErrors

namespace Alike

variable {data data' : Nat → Prop} {fs gs : Volume}

section

variable (h : Alike data fs gs)
include h

theorem atTick (t t' : Nat) : Alike data (fs.atTick t) (gs.atTick t') :=
  ⟨h.sb, h.blockBitmap, h.bgFreeBlocksCount, h.page, h.fsOk.of_answers rfl, h.gsOk.of_answers rfl⟩

theorem setPage (block : Nat) (bytes : Nat → UInt8) :
    Alike data (fs.setPage block bytes) (gs.setPage block bytes) := by
  refine ⟨h.sb, h.blockBitmap, h.bgFreeBlocksCount, fun b hb => ?_, h.fsOk.of_answers rfl,
    h.gsOk.of_answers rfl⟩
  change update gs.page block bytes b = update fs.page block bytes b
  by_cases heq : b = block
  · rw [heq, update_self, update_self]
  · rw [update_of_ne heq, update_of_ne heq, h.page b hb]

/-- A block of data is filled on one side. -/
theorem fill {block : Nat} (hblock : data block) (bytes : Nat → UInt8) :
    Alike data fs (gs.setPage block bytes) := by
  refine ⟨h.sb, h.blockBitmap, h.bgFreeBlocksCount, fun b hb => ?_, h.fsOk, h.gsOk.of_answers rfl⟩
  rw [← h.page b hb]
  apply update_of_ne
  rintro rfl
  exact hb hblock

theorem mono (hdata : ∀ b, data b → data' b) : Alike data' fs gs :=
  { h with page := fun b hb => h.page b fun hc => hb (hdata b hc) }

variable {block : Nat} (hblock : ¬ data block)
include hblock

theorem word (i : Nat) : gs.word block i = fs.word block i :=
  word_congr (h.page block hblock) i

theorem setWord (i value : Nat) :
    Alike data (fs.setWord block i value) (gs.setWord block i value) := by
  rw [Volume.setWord, Volume.setWord, h.page block hblock]
  exact h.setPage block _

end

end Alike

/-! ## Allocation -/

section Alloc

variable {data : Nat → Prop} {fs gs : Volume}

theorem syncMetadataCopy_eq (h : fs.NoErrors) :
    syncMetadataCopy fs = (.ok (), fs.atTick (fs.io.tick + 2)) := by
  have hsync : fs.nextTick.io.syncOk fs.nextTick.io.tick = true := h.syncs _
  rw [syncMetadataCopy, Volume.pageCacheGetBlock, h.pages]
  dsimp only [Volume.pageCacheSyncPage]
  rw [hsync]
  rfl

theorem Alike.commit (h : Alike data fs gs) (group : Nat) :
    Alike data (ext2CommitBitmap fs group (countBlockTaken group))
      (ext2CommitBitmap gs group (countBlockTaken group)) := by
  have hcounted : Alike data (countBlockTaken group fs.pageCacheSyncPage.2)
      (countBlockTaken group gs.pageCacheSyncPage.2) := by
    refine ⟨h.sb, h.blockBitmap, ?_, h.page, h.fsOk.of_answers rfl, h.gsOk.of_answers rfl⟩
    change update gs.bgFreeBlocksCount group (gs.bgFreeBlocksCount group - 1) = _
    rw [h.bgFreeBlocksCount]
    rfl
  have hsynced : ∀ {fs gs}, Alike data fs gs →
      Alike data (syncMetadataCopy fs).2 (syncMetadataCopy gs).2 := by
    intro fs gs h
    rw [syncMetadataCopy_eq h.fsOk, syncMetadataCopy_eq h.gsOk]
    exact h.atTick _ _
  exact hsynced (hsynced hcounted)

theorem Alike.zeroBlock (h : Alike data fs gs) (block : Nat) :
    Alike data (ext2ZeroBlock fs block) (ext2ZeroBlock gs block) := by
  rw [ext2ZeroBlock, ext2ZeroBlock, Volume.pageCacheGetBlock, Volume.pageCacheGetBlock,
    h.fsOk.pages, h.gsOk.pages]
  exact ((h.atTick _ _).setPage block _).atTick _ _

theorem Alike.takeBlock (h : Alike data fs gs) (group bit : Nat) :
    (ext2TakeBlock gs group bit).1 = (ext2TakeBlock fs group bit).1 ∧
      Alike data (ext2TakeBlock fs group bit).2 (ext2TakeBlock gs group bit).2 := by
  have hmarked : Alike data { fs with blockBitmap := setBit fs.blockBitmap group bit true }
      { gs with blockBitmap := setBit gs.blockBitmap group bit true } := by
    refine ⟨h.sb, ?_, h.bgFreeBlocksCount, h.page, h.fsOk.of_answers rfl, h.gsOk.of_answers rfl⟩
    rw [h.blockBitmap]
  have hcommitted := hmarked.commit group
  unfold ext2TakeBlock
  dsimp only
  rw [hcommitted.sb]
  exact ⟨rfl, hcommitted.zeroBlock _⟩

theorem Alike.allocBlockFrom (groups : List Nat) (h : Alike data fs gs) :
    (ext2AllocBlockFrom groups gs).1 = (ext2AllocBlockFrom groups fs).1 ∧
      Alike data (ext2AllocBlockFrom groups fs).2 (ext2AllocBlockFrom groups gs).2 := by
  induction groups generalizing fs gs with
  | nil => exact ⟨rfl, h⟩
  | cons group rest ih =>
    have hread : Alike data fs.nextTick gs.nextTick := h.atTick _ _
    rw [ext2AllocBlockFrom, ext2AllocBlockFrom, Volume.pageCacheGetBlock,
      Volume.pageCacheGetBlock, h.fsOk.pages, h.gsOk.pages, h.bgFreeBlocksCount]
    dsimp only
    rw [hread.sb, hread.blockBitmap]
    split_ifs with hnone
    · exact ih h
    · cases (List.range (fs.nextTick.sb.groupBlocks group)).find?
          (fun bit => !fs.nextTick.blockBitmap group bit) with
      | none => exact ih hread
      | some bit => exact hread.takeBlock group bit

theorem Alike.allocBlock (h : Alike data fs gs) (ino : Nat) :
    (ext2AllocBlock gs ino).1 = (ext2AllocBlock fs ino).1 ∧
      Alike data (ext2AllocBlock fs ino).2 (ext2AllocBlock gs ino).2 := by
  rw [ext2AllocBlock, h.sb]
  exact h.allocBlockFrom _

/-- Two calls that return the same and leave alike volumes and the same inode. -/
def SameWay {α : Type} (data : Nat → Prop) (r r' : α × Volume × Inode) : Prop :=
  ∃ ret fs gs inode, r = (ret, fs, inode) ∧ r' = (ret, gs, inode) ∧ Alike data fs gs

section

variable (h : Alike data fs gs) (inode : Inode)
include h inode

theorem Alike.allocBmapBlock :
    SameWay data (ext2AllocBmapBlock fs inode) (ext2AllocBmapBlock gs inode) := by
  obtain ⟨hblock, halloc⟩ := h.allocBlock inode.ino
  unfold ext2AllocBmapBlock
  generalize ext2AllocBlock fs inode.ino = r at hblock halloc ⊢
  generalize ext2AllocBlock gs inode.ino = r' at hblock halloc ⊢
  obtain ⟨block, fs1⟩ := r
  obtain ⟨block', gs1⟩ := r'
  obtain rfl : block' = block := hblock
  cases block' with
  | zero => exact ⟨0, fs1, gs1, inode, rfl, rfl, halloc⟩
  | succ block => exact ⟨block + 1, fs1, gs1, _, rfl, rfl, halloc⟩

theorem Alike.writeInode : SameWay data (ext2WriteInode fs inode) (ext2WriteInode gs inode) := by
  unfold ext2WriteInode ext2InodeLocation
  dsimp only
  rw [h.sb]
  split
  · exact ⟨_, fs, gs, _, rfl, rfl, h⟩
  · rw [syncMetadataCopy_eq h.fsOk, syncMetadataCopy_eq h.gsOk]
    exact ⟨_, _, _, _, rfl, rfl, h.atTick _ _⟩

theorem Alike.bmapSlot (slot : Nat) (create : Bool) :
    SameWay data (ext2BmapSlot fs inode slot create) (ext2BmapSlot gs inode slot create) := by
  unfold ext2BmapSlot
  split_ifs
  · obtain ⟨block, fs1, gs1, inode1, hfs, hgs, halloc⟩ := h.allocBmapBlock inode
    rw [hfs, hgs]
    cases block with
    | zero => exact ⟨_, fs1, gs1, inode1, rfl, rfl, halloc⟩
    | succ block =>
      obtain ⟨ret, fs2, gs2, inode2, hfs, hgs, hwritten⟩ := halloc.writeInode
        { inode1 with iBlock := update inode1.iBlock slot (block + 1) }
      dsimp only
      rw [hfs, hgs]
      cases ret with
      | error | ok => exact ⟨_, fs2, gs2, inode2, rfl, rfl, hwritten⟩
  · exact ⟨_, fs, gs, inode, rfl, rfl, h⟩

theorem Alike.indBmap {ind : Nat} (hind : ind ≠ 0 → ¬ data ind) (index : Nat) (create : Bool) :
    SameWay data (ext2IndBmap fs inode ind index create)
      (ext2IndBmap gs inode ind index create) := by
  have hread : Alike data fs.nextTick gs.nextTick := h.atTick _ _
  unfold ext2IndBmap
  by_cases hzero : ind = 0
  · rw [if_pos hzero, if_pos hzero]
    exact ⟨_, fs, gs, inode, rfl, rfl, h⟩
  have hind := hind hzero
  rw [Volume.pageCacheGetBlock, Volume.pageCacheGetBlock, h.fsOk.pages, h.gsOk.pages]
  dsimp only
  rw [hread.word hind]
  split_ifs
  · obtain ⟨block, fs1, gs1, inode1, hfs, hgs, halloc⟩ := hread.allocBmapBlock inode
    rw [hfs, hgs]
    cases block with
    | zero => exact ⟨_, fs1, gs1, inode1, rfl, rfl, halloc⟩
    | succ block =>
      have hstored := halloc.setWord hind index (block + 1)
      have hsynced : Alike data (fs1.setWord ind index (block + 1)).nextTick
          (gs1.setWord ind index (block + 1)).nextTick := hstored.atTick _ _
      obtain ⟨ret, fs2, gs2, inode2, hfs, hgs, hwritten⟩ := hsynced.writeInode inode1
      dsimp only [Volume.pageCacheSyncPage]
      rw [hstored.fsOk.syncs, hstored.gsOk.syncs]
      dsimp only
      rw [hfs, hgs]
      cases ret with
      | error | ok => exact ⟨_, fs2, gs2, inode2, rfl, rfl, hwritten⟩
  · exact ⟨_, _, _, inode, rfl, rfl, hread⟩

end

end Alloc

/-! ## Mapping -/

section Mapping

variable {fs gs : Volume} {inode : Inode}

/-- The blocks that hold data of the inode. -/
def DataOf (fs : Volume) (inode : Inode) (b : Nat) : Prop :=
  ∃ i, fs.blockAt inode i = b ∧ b ≠ 0

variable {slot : Nat} {path : List Nat}

/-- A block of pointers holds no data. -/
theorem not_dataOf_of_inner (h : Owns fs inode) (hplace : IsPlace slot path)
    (hlen : path.length < slotDepth slot) (hne : fs.blockAtPlace inode slot path ≠ 0) :
    ¬ DataOf fs inode (fs.blockAtPlace inode slot path) := by
  rintro ⟨i, hi, -⟩
  rw [← hi] at hne
  have hleaf := blockAt_mem_leaves hne
  rw [hi] at hleaf hne
  exact not_mem_rootInner_of_leaf h.nodup_inodeBlocks hleaf (blockAtPlace_mem_inner hplace hlen hne)

variable {fs' : Volume} {inode' : Inode}

theorem Fills.dataOf (h : Fills slot path fs inode fs' inode')
    (hlen : path.length < slotDepth slot) :
    DataOf fs' inode' = DataOf fs inode := by
  funext b
  rw [DataOf, DataOf]
  simp only [(h.inner hlen).1]

theorem Maps.dataOf {index : Nat} (h : Maps index fs inode fs' inode') (b : Nat)
    (hb : DataOf fs inode b) :
    DataOf fs' inode' b := by
  obtain ⟨i, hi, hne⟩ := hb
  refine ⟨i, ?_, hne⟩
  by_cases hindex : i = index
  · subst hindex
    rcases h.here with hsame | ⟨hzero, -⟩
    · rw [hsame, hi]
    · exact absurd (hi.symm.trans hzero) hne
  · rw [h.other i hindex, hi]

/-- `ext2_bmap` goes the same way on alike volumes. -/
theorem Alike.bmap (h : Alike (DataOf fs inode) fs gs) (howns : Owns fs inode)
    (hdev : inode.isDevice = false) (index : Nat) (create : Bool) :
    SameWay (DataOf fs inode) (ext2Bmap fs inode index create)
      (ext2Bmap gs inode index create) := by
  unfold ext2Bmap
  split_ifs with hdirect hsingle hbeyond
  · exact h.bmapSlot inode index create
  · obtain ⟨ret, fs1, gs1, inode1, hfs, hgs, h1⟩ := h.bmapSlot inode indBlock create
    rw [hfs, hgs]
    obtain ⟨hfills, hroot⟩ := ext2BmapSlot_fills howns h.fsOk.pages hdev (by decide) hfs
    cases ret with
    | error e => exact ⟨_, fs1, gs1, inode1, rfl, rfl, h1⟩
    | ok ind =>
      refine h1.indBmap inode1 (fun hne => ?_) _ create
      rw [← hfills.dataOf (by decide), ← hroot ind rfl]
      exact not_dataOf_of_inner hfills.owns (isPlace_slot (by decide)) (by decide)
        (by rwa [hroot ind rfl])
  · exact ⟨_, fs, gs, inode, rfl, rfl, h⟩
  · have hplace : IsPlace dindBlock
        ([] ++ [(index - ndirBlocks - ptrsPerBlock) / ptrsPerBlock]) := by
      refine ⟨by decide, Nat.le_succ 1, fun i hi => ?_⟩
      rw [List.mem_singleton.mp hi]
      exact Nat.div_lt_of_lt_mul (by omega)
    generalize (index - ndirBlocks - ptrsPerBlock) / ptrsPerBlock = first at hplace ⊢
    obtain ⟨ret, fs1, gs1, inode1, hfs, hgs, h1⟩ := h.bmapSlot inode dindBlock create
    rw [hfs, hgs]
    obtain ⟨hfills, hroot⟩ := ext2BmapSlot_fills howns h.fsOk.pages hdev (by decide) hfs
    have hsame := hfills.dataOf (by decide)
    cases ret with
    | error e => exact ⟨_, fs1, gs1, inode1, rfl, rfl, h1⟩
    | ok dind =>
      have hdev1 : inode1.isDevice = false := by rw [Inode.isDevice, hfills.iType]; exact hdev
      have hdind : dind ≠ 0 → ¬ DataOf fs inode dind := by
        intro hne
        rw [← hsame, ← hroot dind rfl]
        rw [← hroot dind rfl] at hne
        exact not_dataOf_of_inner hfills.owns (isPlace_slot (by decide)) (by decide) hne
      obtain ⟨ret, fs2, gs2, inode2, hfs2, hgs2, h2⟩ :=
        h1.indBmap inode1 hdind first create
      dsimp only
      rw [hfs2, hgs2]
      obtain ⟨hfills2, hmid⟩ := ext2IndBmap_fills hfills.owns h1.fsOk.pages hdev1 hplace
        (hroot dind rfl) hfs2
      cases ret with
      | error e => exact ⟨_, fs2, gs2, inode2, rfl, rfl, h2⟩
      | ok ind =>
        refine h2.indBmap inode2 (fun hne => ?_) _ create
        rw [← hsame, ← hfills2.dataOf (Nat.lt_succ_self 1), ← hmid ind rfl]
        exact not_dataOf_of_inner hfills2.owns hplace (Nat.lt_succ_self 1) (by rwa [hmid ind rfl])

end Mapping

end CuteOS.Fs.Ext2
