/-
  Fs/Ext2/Bmap.lean --- mapping the blocks of an inode.

  Source: `fs/ext2/inode.c`.  The results say which blocks an inode owns after a
  block has been mapped, and what the mapping leaves alone.
-/
import CuteOS.Fs.Ext2.Inode

set_option autoImplicit false

namespace CuteOS.Fs.Ext2

open Lib.PtrTree
open Volume (inodeBlocks Quiet inodeInner quiet_nextTick)
open Function (update update_self update_of_ne)

/-! ## The code -/

/-- `ext2_encode_dev`. -/
def ext2EncodeDev (dev : Nat) : Nat := dev / 2 ^ 20 * 256 + dev % 256

/-- `ext2_inode_location`: whether the inode has a place on the disk. -/
def ext2InodeLocation (fs : Volume) (ino : Nat) : Except Errno Unit :=
  if ino = 0 then .error .einval
  else if (ino - 1) / fs.sb.inodesPerGroup ≥ fs.sb.groupsCount then .error .einval
  else .ok ()

/-- `ext2_write_inode`.  The device number goes into `i_block[0]` before anything can
fail; the record that is written is the inode itself. -/
def ext2WriteInode (fs : Volume) (inode : Inode) : Except Errno Unit × Volume × Inode :=
  let inode :=
    if inode.isDevice then
      { inode with iBlock := update inode.iBlock 0 (ext2EncodeDev inode.iRdev) }
    else inode
  match ext2InodeLocation fs inode.ino with
  | .error e => (.error e, fs, inode)
  | .ok () =>
    match syncMetadataCopy fs with
    | (ret, fs) => (ret, fs, inode)

/-- `ext2_alloc_bmap_block`. -/
def ext2AllocBmapBlock (fs : Volume) (inode : Inode) : Nat × Volume × Inode :=
  match ext2AllocBlock fs inode.ino with
  | (0, fs) => (0, fs, inode)
  | (block + 1, fs) =>
    (block + 1, fs, { inode with
      iBlocks := (inode.iBlocks + 8) % uint32Modulus
      owned := (block + 1) :: inode.owned })

/-- The part of `ext2_bmap` that reads, or fills, one word of `i_block[]`. -/
def ext2BmapSlot (fs : Volume) (inode : Inode) (slot : Nat) (create : Bool) :
    Except Errno Nat × Volume × Inode :=
  if inode.iBlock slot = 0 ∧ create = true then
    match ext2AllocBmapBlock fs inode with
    | (0, fs, inode) => (.ok 0, fs, inode)
    | (block + 1, fs, inode) =>
      match ext2WriteInode fs
          { inode with iBlock := update inode.iBlock slot (block + 1) } with
      | (.error e, fs, inode) => (.error e, fs, inode)
      | (.ok (), fs, inode) => (.ok (block + 1), fs, inode)
  else (.ok (inode.iBlock slot), fs, inode)

/-- `ext2_ind_bmap`. -/
def ext2IndBmap (fs : Volume) (inode : Inode) (ind index : Nat) (create : Bool) :
    Except Errno Nat × Volume × Inode :=
  if ind = 0 then (.ok 0, fs, inode)
  else
    match fs.pageCacheGetBlock with
    | (false, fs) => (.error .eio, fs, inode)
    | (true, fs) =>
      if fs.word ind index = 0 ∧ create = true then
        match ext2AllocBmapBlock fs inode with
        | (0, fs, inode) => (.ok 0, fs, inode)
        | (block + 1, fs, inode) =>
          match (fs.setWord ind index (block + 1)).pageCacheSyncPage with
          | (false, fs) => (.error .eio, fs, inode)
          | (true, fs) =>
            match ext2WriteInode fs inode with
            | (.error e, fs, inode) => (.error e, fs, inode)
            | (.ok (), fs, inode) => (.ok (block + 1), fs, inode)
      else (.ok (fs.word ind index), fs, inode)

/-- `ext2_bmap`.  What the double indirect block goes through there is the code of
`ext2_ind_bmap`; a triple indirect block is never made. -/
def ext2Bmap (fs : Volume) (inode : Inode) (block : Nat) (create : Bool) :
    Except Errno Nat × Volume × Inode :=
  if block < ndirBlocks then ext2BmapSlot fs inode block create
  else if block - ndirBlocks < ptrsPerBlock then
    match ext2BmapSlot fs inode indBlock create with
    | (.error e, fs, inode) => (.error e, fs, inode)
    | (.ok ind, fs, inode) => ext2IndBmap fs inode ind (block - ndirBlocks) create
  else if block - ndirBlocks - ptrsPerBlock ≥ ptrsPerBlock * ptrsPerBlock then
    (.ok 0, fs, inode)
  else
    match ext2BmapSlot fs inode dindBlock create with
    | (.error e, fs, inode) => (.error e, fs, inode)
    | (.ok dind, fs, inode) =>
      match ext2IndBmap fs inode dind
          ((block - ndirBlocks - ptrsPerBlock) / ptrsPerBlock) create with
      | (.error e, fs, inode) => (.error e, fs, inode)
      | (.ok ind, fs, inode) =>
        ext2IndBmap fs inode ind
          ((block - ndirBlocks - ptrsPerBlock) % ptrsPerBlock) create

/-- `ext2_ind_bmap_readonly`: the cached page, or a second try that copies the block. -/
def ext2IndBmapReadonly (fs : Volume) (ind index : Nat) : Nat × Volume :=
  if ind = 0 then (0, fs)
  else
    match fs.pageCacheGetBlock with
    | (true, fs) => (fs.word ind index, fs)
    | (false, fs) =>
      match fs.pageCacheGetBlock with
      | (true, fs) => (fs.word ind index, fs)
      | (false, fs) => (0, fs)

/-- `ext2_bmap_readonly`. -/
def ext2BmapReadonly (fs : Volume) (inode : Inode) (block : Nat) : Nat × Volume :=
  if block < ndirBlocks then (inode.iBlock block, fs)
  else if block - ndirBlocks < ptrsPerBlock then
    ext2IndBmapReadonly fs (inode.iBlock indBlock) (block - ndirBlocks)
  else if block - ndirBlocks - ptrsPerBlock ≥ ptrsPerBlock * ptrsPerBlock then (0, fs)
  else
    match ext2IndBmapReadonly fs (inode.iBlock dindBlock)
        ((block - ndirBlocks - ptrsPerBlock) / ptrsPerBlock) with
    | (first, fs) =>
      ext2IndBmapReadonly fs first ((block - ndirBlocks - ptrsPerBlock) % ptrsPerBlock)

/-! ## Ownership -/

/-- The blocks of the inode's trees are the blocks allocated for it, each once. -/
structure Owns (fs : Volume) (inode : Inode) : Prop where
  count : ∀ x, (fs.inodeBlocks inode).count x = inode.owned.count x
  nodup : inode.owned.Nodup
  used : ∀ b ∈ inode.owned, fs.BlockUsed b

namespace Owns

variable {fs fs' : Volume} {inode inode' : Inode}

section

variable (h : Owns fs inode)
include h

theorem mem_iff (b : Nat) : b ∈ fs.inodeBlocks inode ↔ b ∈ inode.owned := by
  rw [← List.count_pos_iff, ← List.count_pos_iff, h.count]

theorem nodup_inodeBlocks : (fs.inodeBlocks inode).Nodup := by
  rw [List.nodup_iff_count_le_one]
  intro x
  rw [h.count]
  exact List.nodup_iff_count_le_one.mp h.nodup x

theorem inner_mem {n : Nat} (hn : n ∈ fs.inodeInner inode) : n ∈ inode.owned :=
  (h.mem_iff n).mp (mem_rootNodes.mpr (.inr hn))

theorem leaf_mem {n : Nat} (hn : n ∈ fs.inodeLeaves inode) : n ∈ inode.owned :=
  (h.mem_iff n).mp (mem_rootNodes.mpr (.inl hn))

/-- Ownership depends on the blocks of pointers and on the bits of the owned blocks. -/
theorem congr (hblock : inode'.iBlock = inode.iBlock) (howned : inode'.owned = inode.owned)
    (hpage : ∀ n ∈ fs.inodeInner inode, fs'.page n = fs.page n)
    (hused : ∀ b ∈ inode.owned, fs'.BlockUsed b) : Owns fs' inode' where
  count x := by
    rw [inodeBlocks, hblock, howned, (root_congr fun n hn i _ => word_congr (hpage n hn) i).1]
    exact h.count x
  nodup := howned ▸ h.nodup
  used b hb := hused b (howned ▸ hb)

theorem quiet (hq : Quiet fs fs') : Owns fs' inode :=
  h.congr rfl rfl (fun n _ => by rw [hq.page]) fun b hb => (hq.blockUsed b).mpr (h.used b hb)

end

theorem empty (fs : Volume) (hblock : ∀ i, inode.iBlock i = 0) (howned : inode.owned = []) :
    Owns fs inode where
  count x := by
    rw [inodeBlocks, rootNodes, gather_eq_nil fun i _ => by rw [hblock, nodes_null], howned]
  nodup := by
    rw [howned]
    exact List.nodup_nil
  used b hb := by
    rw [howned] at hb
    cases hb

end Owns

/-! ## What mapping a block leaves alone -/

/-- What work on one inode may do: blocks that are in use stay in use, and those of
other inodes keep their contents. -/
structure Touches (fs : Volume) (inode : Inode) (fs' : Volume) (inode' : Inode) : Prop where
  sb : fs'.sb = fs.sb
  inodeBitmap : fs'.inodeBitmap = fs.inodeBitmap
  answers : fs'.io.answers = fs.io.answers
  ino : inode'.ino = inode.ino
  iType : inode'.iType = inode.iType
  keeps : ∀ b, fs.BlockUsed b → fs'.BlockUsed b
  page : ∀ b, fs.BlockUsed b → b ∉ inode.owned → fs'.page b = fs.page b
  owned : ∀ b ∈ inode.owned, b ∈ inode'.owned
  fresh : ∀ b ∈ inode'.owned, b ∈ inode.owned ∨ ¬ fs.BlockUsed b

theorem Touches.refl (fs : Volume) (inode : Inode) : Touches fs inode fs inode :=
  ⟨rfl, rfl, rfl, rfl, rfl, fun _ h => h, fun _ _ _ => rfl, fun _ h => h, fun _ => .inl⟩

variable {fs : Volume}

theorem Touches.trans {fs1 fs2 : Volume} {inode inode1 inode2 : Inode}
    (h1 : Touches fs inode fs1 inode1) (h2 : Touches fs1 inode1 fs2 inode2) :
    Touches fs inode fs2 inode2 where
  sb := h2.sb.trans h1.sb
  inodeBitmap := h2.inodeBitmap.trans h1.inodeBitmap
  answers := h2.answers.trans h1.answers
  ino := h2.ino.trans h1.ino
  iType := h2.iType.trans h1.iType
  keeps b hb := h2.keeps b (h1.keeps b hb)
  page b hb hnot := by
    have hnot1 : b ∉ inode1.owned := fun hmem =>
      (h1.fresh b hmem).elim hnot fun hunused => hunused hb
    rw [h2.page b (h1.keeps b hb) hnot1, h1.page b hb hnot]
  owned b hb := h2.owned b (h1.owned b hb)
  fresh b hb := by
    rcases h2.fresh b hb with hb | hunused
    · exact h1.fresh b hb
    · exact .inr fun hused => hunused (h1.keeps b hused)

variable {fs' : Volume} {inode' : Inode}

theorem Touches.pagesAvailable {inode : Inode}
    (h : Touches fs inode fs' inode') (hio : fs.PagesAvailable) : fs'.PagesAvailable :=
      hio.of_answers h.answers

theorem Touches.of_quiet (h : Quiet fs fs') (inode : Inode) : Touches fs inode fs' inode where
  sb := h.sb
  inodeBitmap := h.inodeBitmap
  answers := h.answers
  ino := rfl
  iType := rfl
  keeps b hb := (h.blockUsed b).mpr hb
  page b _ _ := by rw [h.page]
  owned _ hb := hb
  fresh _ := .inl

/-- What a step of `ext2_bmap` does: the inode still owns its blocks. -/
structure BmapStep (fs : Volume) (inode : Inode) (fs' : Volume) (inode' : Inode) : Prop
    extends Touches fs inode fs' inode' where
  iNlink : inode'.iNlink = inode.iNlink
  owns : Owns fs' inode'

namespace BmapStep

variable {fs1 fs2 : Volume} {inode inode1 inode2 : Inode}

theorem refl (h : Owns fs inode) : BmapStep fs inode fs inode :=
  { Touches.refl fs inode with
    iNlink := rfl
    owns := h }

theorem trans (h1 : BmapStep fs inode fs1 inode1) (h2 : BmapStep fs1 inode1 fs2 inode2) :
    BmapStep fs inode fs2 inode2 :=
  { h1.toTouches.trans h2.toTouches with
    iNlink := h2.iNlink.trans h1.iNlink
    owns := h2.owns }

theorem of_quiet (h : Owns fs inode) (hq : Quiet fs fs') : BmapStep fs inode fs' inode :=
  { Touches.of_quiet hq inode with
    iNlink := rfl
    owns := h.quiet hq }

end BmapStep

/-! ## The steps -/

section Steps

variable {inode : Inode}

theorem quiet_ext2WriteInode (fs : Volume) (inode : Inode) :
    Quiet fs (ext2WriteInode fs inode).2.1 := by
  unfold ext2WriteInode
  dsimp only
  split
  · exact .refl fs
  · exact quiet_syncMetadataCopy fs

theorem ext2WriteInode_inode (fs : Volume) (inode : Inode) (hdev : inode.isDevice = false) :
    (ext2WriteInode fs inode).2.2 = inode := by
  unfold ext2WriteInode
  rw [hdev]
  dsimp only
  split <;> rfl

theorem ext2WriteInode_spec (fs : Volume) (inode : Inode) (hdev : inode.isDevice = false) :
    ∃ ret fs', ext2WriteInode fs inode = (ret, fs', inode) ∧ Quiet fs fs' :=
  ⟨_, _, Prod.ext rfl (Prod.ext rfl (ext2WriteInode_inode fs inode hdev)),
    quiet_ext2WriteInode fs inode⟩

/-- What `ext2_alloc_bmap_block` does to the inode. -/
theorem ext2AllocBmapBlock_spec (hio : fs.PagesAvailable) (inode : Inode) :
    ∃ block fs', Allocated fs block fs' ∧ ext2AllocBmapBlock fs inode = (block, fs',
        if block = 0 then inode
        else { inode with
          iBlocks := (inode.iBlocks + 8) % uint32Modulus
          owned := block :: inode.owned }) := by
  have halloc := allocated_ext2AllocBlock hio inode.ino
  unfold ext2AllocBmapBlock
  generalize ext2AllocBlock fs inode.ino = r at halloc ⊢
  obtain ⟨block, fs'⟩ := r
  refine ⟨block, fs', halloc, ?_⟩
  cases block <;> rfl

variable {block : Nat}

theorem Owns.of_allocated (h : Owns fs inode) (ha : Allocated fs block fs') : Owns fs' inode :=
  h.congr rfl rfl (fun n hn => ha.page n (h.used n (h.inner_mem hn)))
    fun b hb => ha.keeps b (h.used b hb)

/-- The frame of an allocation, whatever happens to the inode and to blocks that were
not in use or are its own. -/
theorem Touches.of_allocated {fs1 : Volume} (ha : Allocated fs block fs1) (hsb : fs'.sb = fs1.sb)
    (hinodeBitmap : fs'.inodeBitmap = fs1.inodeBitmap)
    (hblockBitmap : fs'.blockBitmap = fs1.blockBitmap)
    (hanswers : fs'.io.answers = fs1.io.answers)
    (hpage : ∀ b, b ∉ inode.owned → fs'.page b = fs1.page b)
    (hino : inode'.ino = inode.ino) (hiType : inode'.iType = inode.iType)
    (howned : inode'.owned = if block = 0 then inode.owned else block :: inode.owned) :
    Touches fs inode fs' inode' where
  sb := hsb.trans ha.sb
  inodeBitmap := hinodeBitmap.trans ha.inodeBitmap
  answers := hanswers.trans ha.answers
  ino := hino
  iType := hiType
  keeps b hb := by
    have hb1 := ha.keeps b hb
    rwa [Volume.BlockUsed, ← hsb, ← hblockBitmap] at hb1
  page b hb hnot := by rw [hpage b hnot, ha.page b hb]
  owned b hb := by
    rw [howned]
    split_ifs
    · exact hb
    · exact List.mem_cons_of_mem _ hb
  fresh b hb := by
    rw [howned] at hb
    split_ifs at hb with hblock
    · exact .inl hb
    · rcases List.mem_cons.mp hb with rfl | hb
      · exact .inr (ha.fresh hblock).1
      · exact .inl hb

/-- An allocation that found no block. -/
theorem BmapStep.of_none (h : Owns fs inode) (ha : Allocated fs 0 fs') :
    BmapStep fs inode fs' inode :=
  { Touches.of_allocated ha rfl rfl rfl rfl (fun _ _ => rfl) rfl rfl rfl with
    iNlink := rfl
    owns := h.of_allocated ha }

section

variable (h : Owns fs inode) (ha : Allocated fs block fs') (hblock : block ≠ 0)
include h ha hblock

/-- A fresh block goes into an empty word of `i_block[]`. -/
theorem BmapStep.attach_slot {slot : Nat} (hslot : slot < nBlocks)
    (hnull : inode.iBlock slot = 0) (iBlocks : Nat) :
    BmapStep fs inode fs' { inode with
      iBlock := update inode.iBlock slot block
      iBlocks := iBlocks
      owned := block :: inode.owned } := by
  obtain ⟨hunused, hused, hzero⟩ := ha.fresh hblock
  have howns := h.of_allocated ha
  have htouches : Touches fs inode fs' { inode with
      owned := block :: inode.owned } :=
    .of_allocated ha rfl rfl rfl rfl (fun _ _ => rfl) rfl rfl (if_neg hblock).symm
  exact { htouches with
      iNlink := rfl
      owns :=
        { count := by
            intro x
            have hcount := howns.count x
            rw [inodeBlocks] at hcount ⊢
            rw [count_rootNodes_update hblock (fun j _ => word_eq_zero hzero j) hslot hnull,
              hcount, count_cons_ite]
          nodup := List.nodup_cons.mpr ⟨fun hb => hunused (h.used block hb), h.nodup⟩
          used := by
            intro b hb
            rcases List.mem_cons.mp hb with rfl | hb
            · exact hused
            · exact howns.used b hb } }

/-- A fresh block goes into an empty word of a block of pointers. -/
theorem BmapStep.attach_word {ind index : Nat} (hind : ind ∈ fs.inodeInner inode)
    (hindex : index < ptrsPerBlock) (hnull : fs.word ind index = 0) (iBlocks : Nat) :
    BmapStep fs inode (fs'.setWord ind index block) { inode with
      iBlocks := iBlocks
      owned := block :: inode.owned } := by
  obtain ⟨hunused, hused, hzero⟩ := ha.fresh hblock
  have howns := h.of_allocated ha
  have hindUsed := h.used ind (h.inner_mem hind)
  have hne : ind ≠ block := fun he => hunused (he ▸ hindUsed)
  have hlt : block < uint32Modulus := hused.1.2.1.trans fs'.sb.blocksCount_lt
  have hpage : ∀ b, b ∉ inode.owned → (fs'.setWord ind index block).page b = fs'.page b := by
    intro b hb
    apply update_of_ne
    rintro rfl
    exact hb (h.inner_mem hind)
  have hone : (fs'.inodeInner inode).count ind = 1 := by
    have hinner : fs'.inodeInner inode = fs.inodeInner inode :=
      (root_congr fun n hn i _ => word_congr (ha.page n (h.used n (h.inner_mem hn))) i).2.1
    have hpos : 0 < (fs'.inodeInner inode).count ind := by
      rw [hinner]
      exact List.count_pos_iff.mpr hind
    have hle := List.nodup_iff_count_le_one.mp howns.nodup_inodeBlocks ind
    rw [inodeBlocks, count_rootNodes] at hle
    have hle' : (fs'.inodeInner inode).count ind ≤ 1 := by
      rw [inodeInner]
      omega
    omega
  have hnull' : fs'.word ind index = 0 := by
    rw [word_congr (ha.page ind hindUsed), hnull]
  have htouches : Touches fs inode (fs'.setWord ind index block) { inode with
      iBlocks := iBlocks
      owned := block :: inode.owned } :=
    .of_allocated ha rfl rfl rfl rfl hpage rfl rfl (if_neg hblock).symm
  exact { htouches with
      iNlink := rfl
      owns :=
        { count := by
            intro x
            have hcount := howns.count x
            rw [inodeBlocks] at hcount ⊢
            rw [word_setWord fs' ind index hlt,
              count_rootNodes_link hblock (fun j _ => word_eq_zero hzero j) hne hindex hnull',
              hcount, count_cons_ite]
            rw [inodeInner] at hone
            rw [hone]
          nodup := List.nodup_cons.mpr ⟨fun hb => hunused (h.used block hb), h.nodup⟩
          used := by
            intro b hb
            rcases List.mem_cons.mp hb with rfl | hb
            · exact hused
            · exact howns.used b hb } }

end

/-- What `ext2_alloc_bmap_block` leaves in the inode. -/
def Inode.withBlock (inode : Inode) (block : Nat) : Inode :=
  { inode with
    iBlocks := (inode.iBlocks + 8) % uint32Modulus
    owned := block :: inode.owned }

section

variable {create : Bool} {ret : Except Errno Nat} (hio : fs.PagesAvailable)
  (hdev : inode.isDevice = false)
include hio hdev

/-- The two ends of `ext2_bmap` on a word of `i_block[]`: it stays as it is, or it was
empty and gets a fresh block. -/
theorem ext2BmapSlot_cases {slot : Nat}
    (hrun : ext2BmapSlot fs inode slot create = (ret, fs', inode')) :
    (Allocated fs 0 fs' ∧ inode' = inode ∧ ret = .ok (inode.iBlock slot)) ∨
      ∃ block fs1, block ≠ 0 ∧ Allocated fs block fs1 ∧ inode.iBlock slot = 0 ∧ Quiet fs1 fs' ∧
        inode' = { inode.withBlock block with
          iBlock := update inode.iBlock slot block } ∧
        (ret = .ok block ∨ ∃ e, ret = .error e) := by
  unfold ext2BmapSlot at hrun
  split_ifs at hrun with hcreate
  · obtain ⟨block, fs1, ha, halloc⟩ := ext2AllocBmapBlock_spec hio inode
    rw [halloc] at hrun
    cases block with
    | zero =>
      cases hrun
      exact .inl ⟨ha, rfl, by rw [hcreate.1]⟩
    | succ block =>
      refine .inr ⟨block + 1, fs1, Nat.succ_ne_zero block, ha, hcreate.1, ?_⟩
      rw [if_neg (Nat.succ_ne_zero block)] at hrun
      dsimp only at hrun
      obtain ⟨wret, fs2, hwrite, hquiet⟩ := ext2WriteInode_spec fs1
        { inode.withBlock (block + 1) with
          iBlock := update inode.iBlock slot (block + 1) } hdev
      rw [Inode.withBlock] at hwrite
      rw [hwrite] at hrun
      cases wret with
      | error e =>
        cases hrun
        exact ⟨hquiet, rfl, .inr ⟨e, rfl⟩⟩
      | ok u =>
        cases hrun
        exact ⟨hquiet, rfl, .inl rfl⟩
  · cases hrun
    exact .inl ⟨.none (.refl _), rfl, rfl⟩

/-- The two ends of `ext2_ind_bmap`, in the same way. -/
theorem ext2IndBmap_cases {ind index : Nat}
    (hrun : ext2IndBmap fs inode ind index create = (ret, fs', inode')) :
    (Allocated fs 0 fs' ∧ inode' = inode ∧ ret = .ok (if ind = 0 then 0 else fs.word ind index)) ∨
      ∃ block fs1, block ≠ 0 ∧ Allocated fs block fs1 ∧ ind ≠ 0 ∧ fs.word ind index = 0 ∧
        Quiet (fs1.setWord ind index block) fs' ∧ inode' = inode.withBlock block ∧
        (ret = .ok block ∨ ∃ e, ret = .error e) := by
  unfold ext2IndBmap at hrun
  split_ifs at hrun with hzero
  · cases hrun
    exact .inl ⟨.none (.refl _), rfl, by rw [if_pos hzero]⟩
  have hread := quiet_nextTick fs
  have hio' : fs.nextTick.PagesAvailable := hio
  rw [Volume.pageCacheGetBlock, hio] at hrun
  dsimp only at hrun
  split_ifs at hrun with hcreate
  · have hnull : fs.word ind index = 0 := hcreate.1
    obtain ⟨block, fs1, ha, halloc⟩ := ext2AllocBmapBlock_spec hio' inode
    rw [halloc] at hrun
    cases block with
    | zero =>
      cases hrun
      exact .inl ⟨.of_quiet hread ha, rfl, by rw [if_neg hzero, hnull]⟩
    | succ block =>
      refine .inr ⟨block + 1, fs1, Nat.succ_ne_zero block, .of_quiet hread ha, hzero, hnull, ?_⟩
      rw [if_neg (Nat.succ_ne_zero block)] at hrun
      dsimp only [Volume.pageCacheSyncPage] at hrun
      generalize fs1.setWord ind index (block + 1) = fs2 at hrun ⊢
      have hsynced := quiet_nextTick fs2
      cases hsync : fs2.io.syncOk fs2.io.tick with
      | false =>
        rw [hsync] at hrun
        cases hrun
        exact ⟨hsynced, rfl, .inr ⟨.eio, rfl⟩⟩
      | true =>
        rw [hsync] at hrun
        dsimp only at hrun
        obtain ⟨wret, fs3, hwrite, hquiet⟩ := ext2WriteInode_spec fs2.nextTick
          (inode.withBlock (block + 1)) hdev
        rw [Inode.withBlock] at hwrite
        rw [hwrite] at hrun
        cases wret with
        | error e =>
          cases hrun
          exact ⟨hsynced.trans hquiet, rfl, .inr ⟨e, rfl⟩⟩
        | ok u =>
          cases hrun
          exact ⟨hsynced.trans hquiet, rfl, .inl rfl⟩
  · cases hrun
    exact .inl ⟨.none hread, rfl, by rw [if_neg hzero]; rfl⟩

end

theorem ext2IndBmapReadonly_spec (fs : Volume) (ind index : Nat) :
    Quiet fs (ext2IndBmapReadonly fs ind index).2 ∧
      ((ext2IndBmapReadonly fs ind index).1 = (if ind = 0 then 0 else fs.word ind index) ∨
        (ext2IndBmapReadonly fs ind index).1 = 0 ∧ ¬ fs.PagesAvailable) := by
  have hone := quiet_nextTick fs
  unfold ext2IndBmapReadonly Volume.pageCacheGetBlock
  split_ifs
  · exact ⟨.refl fs, .inl rfl⟩
  cases hget : fs.io.pageOk fs.io.tick with
  | true => exact ⟨hone, .inl rfl⟩
  | false =>
    dsimp only
    cases fs.nextTick.io.pageOk fs.nextTick.io.tick with
    | true => exact ⟨hone.trans (quiet_nextTick _), .inl rfl⟩
    | false =>
      refine ⟨hone.trans (quiet_nextTick _), .inr ⟨rfl, fun hio => ?_⟩⟩
      rw [hio] at hget
      cases hget

/-- Data written into a block of data of the inode. -/
theorem Owns.setPage_leaf (h : Owns fs inode)
    (hleaf : block ∈ fs.inodeLeaves inode) (bytes : Nat → UInt8) :
    Owns (fs.setPage block bytes) inode ∧ Touches fs inode (fs.setPage block bytes) inode := by
  have hpage : ∀ b, b ≠ block → (fs.setPage block bytes).page b = fs.page b :=
    fun b hb => update_of_ne hb ..
  have hnot := not_mem_rootInner_of_leaf h.nodup_inodeBlocks hleaf
  constructor
  · refine h.congr rfl rfl (fun n hn => hpage n ?_) h.used
    rintro rfl
    exact hnot hn
  · refine ⟨rfl, rfl, rfl, rfl, rfl, fun _ hb => hb, fun b _ hb => hpage b ?_,
      fun _ hb => hb, fun _ => .inl⟩
    rintro rfl
    exact hb (h.leaf_mem hleaf)

end Steps

/-! ## Link counts -/

section LinkCount

variable (fs : Volume) (inode : Inode)

/-- The inode that `ext2_write_inode` leaves: a device node gets its number into
`i_block[]`. -/
theorem ext2WriteInode_inode_eq : (ext2WriteInode fs inode).2.2 = if inode.isDevice then
      { inode with iBlock := update inode.iBlock 0 (ext2EncodeDev inode.iRdev) }
    else inode := by
  unfold ext2WriteInode
  dsimp only
  split <;> rfl

theorem ext2WriteInode_iNlink : (ext2WriteInode fs inode).2.2.iNlink = inode.iNlink := by
  rw [ext2WriteInode_inode_eq]
  split_ifs <;> rfl

end LinkCount

end CuteOS.Fs.Ext2
