/-
  Fs/Ext2/Balloc.lean --- allocation of ext2 blocks and inodes.

  Sources: `fs/ext2/balloc.c`, and the geometry that `fs/ext2/super.c` computes.

  The file system is its geometry, the two bitmaps, the counters and the contents of
  the cached blocks.  The bitmaps stand apart from the block contents.  Three streams
  of answers say which page-cache reads, device writes and allocations succeed.
-/
import CuteOS.Kernel.Types

set_option autoImplicit false

namespace CuteOS.Fs.Ext2

open Function (update update_self update_of_ne)

/-- The modulus of `uint32_t`. -/
def uint32Modulus : Nat := 2 ^ 32

/-- The modulus of `uint16_t`. -/
def uint16Modulus : Nat := 2 ^ 16

/-- `BLOCK_SIZE`. -/
def blockSize : Nat := 4096

/-- `div_round_up_u32`. -/
def divRoundUpU32 (value divisor : Nat) : Nat :=
  (value + divisor - 1) % uint32Modulus / divisor

/-- The geometry in `struct ext2_sb_info`, with what `ext2_check_super_block` checks,
and with inode numbers that fit their type. -/
structure SbInfo where
  inodesCount : Nat
  blocksCount : Nat
  firstDataBlock : Nat
  blocksPerGroup : Nat
  inodesPerGroup : Nat
  blocksPerGroup_pos : 0 < blocksPerGroup
  inodesPerGroup_pos : 0 < inodesPerGroup
  firstDataBlock_lt : firstDataBlock < blocksCount
  blocksCount_lt : blocksCount < uint32Modulus
  inodes_lt : divRoundUpU32 (blocksCount - firstDataBlock) blocksPerGroup * inodesPerGroup <
    uint32Modulus

variable {block group : Nat}

namespace SbInfo

/-- `s_groups_count`. -/
def groupsCount (sb : SbInfo) : Nat :=
  divRoundUpU32 (sb.blocksCount - sb.firstDataBlock) sb.blocksPerGroup

/-- `ext2_group_first_block`; below `s_blocks_count` for every group, so it does not
overflow. -/
def groupFirstBlock (sb : SbInfo) (group : Nat) : Nat :=
  sb.firstDataBlock + group * sb.blocksPerGroup

/-- `ext2_group_blocks`. -/
def groupBlocks (sb : SbInfo) (group : Nat) : Nat :=
  if sb.blocksCount - sb.groupFirstBlock group > sb.blocksPerGroup then sb.blocksPerGroup
  else sb.blocksCount - sb.groupFirstBlock group

/-- The group that `ext2_free_block` computes. -/
def blockGroup (sb : SbInfo) (block : Nat) : Nat :=
  (block - sb.firstDataBlock) / sb.blocksPerGroup

/-- The bit that `ext2_free_block` computes. -/
def blockBit (sb : SbInfo) (block : Nat) : Nat :=
  block - sb.groupFirstBlock (sb.blockGroup block)

/-- The block numbers that `ext2_free_block` accepts. -/
def HasBlock (sb : SbInfo) (block : Nat) : Prop :=
  sb.firstDataBlock ≤ block ∧ block < sb.blocksCount ∧ sb.blockGroup block < sb.groupsCount

instance (sb : SbInfo) (block : Nat) : Decidable (sb.HasBlock block) :=
  inferInstanceAs (Decidable (_ ∧ _ ∧ _))

section Position

variable {sb : SbInfo} {bit : Nat}

section

variable (hbit : bit < sb.groupBlocks group)
include hbit

theorem bit_lt : bit < sb.blocksPerGroup := by
  unfold groupBlocks at hbit
  split at hbit <;> omega

theorem blockGroup_eq : sb.blockGroup (sb.groupFirstBlock group + bit) = group := by
  have hlt := bit_lt hbit
  rw [blockGroup, groupFirstBlock, Nat.add_assoc, Nat.add_sub_cancel_left, Nat.add_comm,
    Nat.add_mul_div_right _ _ sb.blocksPerGroup_pos, Nat.div_eq_of_lt hlt, Nat.zero_add]

theorem blockBit_eq : sb.blockBit (sb.groupFirstBlock group + bit) = bit := by
  rw [blockBit, blockGroup_eq hbit, Nat.add_sub_cancel_left]

end

theorem hasBlock_of_bit (hgroup : group < sb.groupsCount) (hbit : bit < sb.groupBlocks group) :
    sb.HasBlock (sb.groupFirstBlock group + bit) := by
  have hge : sb.firstDataBlock ≤ sb.groupFirstBlock group := Nat.le_add_right _ _
  refine ⟨by omega, ?_, by rw [blockGroup_eq hbit]; exact hgroup⟩
  unfold groupBlocks at hbit
  split at hbit <;> omega

/-- A block is determined by its group and bit. -/
theorem block_eq (hblock : sb.HasBlock block) :
    block = sb.groupFirstBlock (sb.blockGroup block) + sb.blockBit block := by
  have hmul : sb.blockGroup block * sb.blocksPerGroup ≤ block - sb.firstDataBlock :=
    Nat.div_mul_le_self _ _
  have hge := hblock.1
  have hle : sb.groupFirstBlock (sb.blockGroup block) ≤ block := by
    rw [groupFirstBlock]
    omega
  rw [blockBit]
  omega

end Position

end SbInfo

/-! ## State -/

/-- The answers of the page cache, the device and the allocator; `tick` counts the
questions asked so far. -/
structure Io where
  pageOk : Nat → Bool
  syncOk : Nat → Bool
  memOk : Nat → Bool
  tick : Nat := 0

/-- The answers that are to come, whatever has been asked so far. -/
def Io.answers (io : Io) : (Nat → Bool) × (Nat → Bool) × (Nat → Bool) :=
  (io.pageOk, io.syncOk, io.memOk)

theorem Io.pageOk_of_answers {io io' : Io} (h : io'.answers = io.answers) :
    io'.pageOk = io.pageOk :=
  congrArg Prod.fst h

structure Volume where
  sb : SbInfo
  /-- Group and bit. -/
  blockBitmap : Nat → Nat → Bool
  inodeBitmap : Nat → Nat → Bool
  bgFreeBlocksCount : Nat → Nat
  bgFreeInodesCount : Nat → Nat
  bgUsedDirsCount : Nat → Nat
  sFreeBlocksCount : Nat
  sFreeInodesCount : Nat
  /-- The bytes of each block. -/
  page : Nat → Nat → UInt8
  io : Io

/-- The bit of a block or inode becomes `value`. -/
def setBit (bitmap : Nat → Nat → Bool) (group bit : Nat) (value : Bool) : Nat → Nat → Bool :=
  fun g b => if g = group ∧ b = bit then value else bitmap g b

variable {fs' : Volume}

namespace Volume

def nextTick (fs : Volume) : Volume :=
  { fs with io := { fs.io with tick := fs.io.tick + 1 } }

/-- `page_cache_get_block` finds the page or can read it. -/
def pageCacheGetBlock (fs : Volume) : Bool × Volume := (fs.io.pageOk fs.io.tick, fs.nextTick)

/-- `page_cache_sync_page`. -/
def pageCacheSyncPage (fs : Volume) : Bool × Volume := (fs.io.syncOk fs.io.tick, fs.nextTick)

/-- `kmalloc`. -/
def kmalloc (fs : Volume) : Bool × Volume := (fs.io.memOk fs.io.tick, fs.nextTick)

/-- The contents of a block become `bytes`. -/
def setPage (fs : Volume) (block : Nat) (bytes : Nat → UInt8) : Volume :=
  { fs with page := update fs.page block bytes }

/-- Every page-cache read succeeds. -/
def PagesAvailable (fs : Volume) : Prop := ∀ t, fs.io.pageOk t = true

variable {fs : Volume}

theorem PagesAvailable.of_answers (hio : fs.PagesAvailable)
    (h : fs'.io.answers = fs.io.answers) : fs'.PagesAvailable := by
  intro t
  rw [Io.pageOk_of_answers h]
  exact hio t

/-- Every read and every write succeeds. -/
structure NoErrors (fs : Volume) : Prop where
  pages : fs.PagesAvailable
  syncs : ∀ t, fs.io.syncOk t = true

theorem NoErrors.of_answers (h : fs.NoErrors)
    (hanswers : fs'.io.answers = fs.io.answers) : fs'.NoErrors where
  pages := h.pages.of_answers hanswers
  syncs t := by
    have hsync : fs'.io.syncOk = fs.io.syncOk := congrArg (fun a => a.2.1) hanswers
    rw [hsync]
    exact h.syncs t

/-- `block` is a block of the file system whose bit is set. -/
def BlockUsed (fs : Volume) (block : Nat) : Prop :=
  fs.sb.HasBlock block ∧ fs.blockBitmap (fs.sb.blockGroup block) (fs.sb.blockBit block) = true

instance (fs : Volume) (block : Nat) : Decidable (fs.BlockUsed block) :=
  inferInstanceAs (Decidable (_ ∧ _))

/-- The bit of inode `ino` is set; inodes are numbered from one. -/
def InodeUsed (fs : Volume) (ino : Nat) : Prop :=
  ino ≠ 0 ∧
    fs.inodeBitmap ((ino - 1) / fs.sb.inodesPerGroup) ((ino - 1) % fs.sb.inodesPerGroup) = true

/-- `fs'` differs from `fs` in counters and in the questions asked only. -/
structure Quiet (fs fs' : Volume) : Prop where
  sb : fs'.sb = fs.sb
  blockBitmap : fs'.blockBitmap = fs.blockBitmap
  inodeBitmap : fs'.inodeBitmap = fs.inodeBitmap
  page : fs'.page = fs.page
  answers : fs'.io.answers = fs.io.answers

theorem Quiet.refl (fs : Volume) : Quiet fs fs := ⟨rfl, rfl, rfl, rfl, rfl⟩

theorem Quiet.trans {fs'' : Volume} (h : Quiet fs fs') (h' : Quiet fs' fs'') : Quiet fs fs'' where
  sb := h'.sb.trans h.sb
  blockBitmap := h'.blockBitmap.trans h.blockBitmap
  inodeBitmap := h'.inodeBitmap.trans h.inodeBitmap
  page := h'.page.trans h.page
  answers := h'.answers.trans h.answers

theorem quiet_nextTick (fs : Volume) : Quiet fs fs.nextTick := ⟨rfl, rfl, rfl, rfl, rfl⟩

theorem Quiet.blockUsed (h : Quiet fs fs') (block : Nat) :
    fs'.BlockUsed block ↔ fs.BlockUsed block := by
  rw [BlockUsed, BlockUsed, h.sb, h.blockBitmap]

theorem Quiet.inodeUsed (h : Quiet fs fs') (ino : Nat) : fs'.InodeUsed ino ↔ fs.InodeUsed ino := by
  rw [InodeUsed, InodeUsed, h.sb, h.inodeBitmap]

end Volume

/-! ## Blocks -/

/-- A copy into a metadata page that is then written; what the page holds is part of
the state already. -/
def syncMetadataCopy (fs : Volume) : Except Errno Unit × Volume :=
  match fs.pageCacheGetBlock with
  | (false, fs) => (.error .eio, fs)
  | (true, fs) =>
    match fs.pageCacheSyncPage with
    | (false, fs) => (.error .eio, fs)
    | (true, fs) => (.ok (), fs)

/-- `ext2_sync_super`. -/
def ext2SyncSuper (fs : Volume) : Except Errno Unit × Volume := syncMetadataCopy fs

/-- `ext2_sync_group_desc`. -/
def ext2SyncGroupDesc (fs : Volume) (_group : Nat) : Except Errno Unit × Volume := syncMetadataCopy fs

/-- `ext2_zero_block`: nothing happens when the page cannot be had. -/
def ext2ZeroBlock (fs : Volume) (block : Nat) : Volume :=
  match fs.pageCacheGetBlock with
  | (false, fs) => fs
  | (true, fs) => (fs.setPage block fun _ => 0).pageCacheSyncPage.2

/-- The end of every bitmap change: write the bitmap, count, write the descriptor and
the super block.  No write is checked. -/
def ext2CommitBitmap (fs : Volume) (group : Nat) (count : Volume → Volume) : Volume :=
  let fs := count fs.pageCacheSyncPage.2
  let fs := (ext2SyncGroupDesc fs group).2
  (ext2SyncSuper fs).2

/-- One block fewer is free in `group`. -/
def countBlockTaken (group : Nat) (fs : Volume) : Volume :=
  { fs with
    bgFreeBlocksCount :=
      update fs.bgFreeBlocksCount group (fs.bgFreeBlocksCount group - 1)
    sFreeBlocksCount := (fs.sFreeBlocksCount + uint32Modulus - 1) % uint32Modulus }

/-- One block more is free in `group`. -/
def countBlockFreed (group : Nat) (fs : Volume) : Volume :=
  { fs with
    bgFreeBlocksCount := update fs.bgFreeBlocksCount group
      ((fs.bgFreeBlocksCount group + 1) % uint16Modulus)
    sFreeBlocksCount := (fs.sFreeBlocksCount + 1) % uint32Modulus }

/-- The bit is found clear: mark it, count it and hand out the block. -/
def ext2TakeBlock (fs : Volume) (group bit : Nat) : Nat × Volume :=
  let fs := ext2CommitBitmap { fs with blockBitmap := setBit fs.blockBitmap group bit true } group
    (countBlockTaken group)
  let block := fs.sb.groupFirstBlock group + bit
  (block, ext2ZeroBlock fs block)

/-- The passes of `ext2_alloc_block` over `groups`. -/
def ext2AllocBlockFrom : List Nat → Volume → Nat × Volume
  | [], fs => (0, fs)
  | group :: rest, fs =>
    if fs.bgFreeBlocksCount group = 0 then ext2AllocBlockFrom rest fs
    else
      match fs.pageCacheGetBlock with
      | (false, fs) => (0, fs)
      | (true, fs) =>
        match (List.range (fs.sb.groupBlocks group)).find?
            fun bit => !fs.blockBitmap group bit with
        | none => ext2AllocBlockFrom rest fs
        | some bit => ext2TakeBlock fs group bit

/-- `ext2_alloc_block` for inode `ino`; zero means no block. -/
def ext2AllocBlock (fs : Volume) (ino : Nat) : Nat × Volume :=
  let preferred := if ino > 0 then (ino - 1) / fs.sb.inodesPerGroup else 0
  ext2AllocBlockFrom
    ((List.range fs.sb.groupsCount).map fun pass =>
      (preferred + pass) % uint32Modulus % fs.sb.groupsCount) fs

/-- `ext2_free_block`. -/
def ext2FreeBlock (fs : Volume) (block : Nat) : Volume :=
  if block < fs.sb.firstDataBlock ∨ block ≥ fs.sb.blocksCount then fs
  else
    let group := fs.sb.blockGroup block
    let bit := fs.sb.blockBit block
    if group ≥ fs.sb.groupsCount then fs
    else
      match fs.pageCacheGetBlock with
      | (false, fs) => fs
      | (true, fs) =>
        if fs.blockBitmap group bit then
          ext2CommitBitmap { fs with blockBitmap := setBit fs.blockBitmap group bit false } group
            (countBlockFreed group)
        else fs

/-! ## Inodes -/

/-- One inode fewer is free in `group`. -/
def countInodeTaken (isDir : Bool) (group : Nat) (fs : Volume) : Volume :=
  { fs with
    bgFreeInodesCount :=
      update fs.bgFreeInodesCount group (fs.bgFreeInodesCount group - 1)
    bgUsedDirsCount :=
      if isDir then
        update fs.bgUsedDirsCount group ((fs.bgUsedDirsCount group + 1) % uint16Modulus)
      else fs.bgUsedDirsCount
    sFreeInodesCount := (fs.sFreeInodesCount + uint32Modulus - 1) % uint32Modulus }

/-- One inode more is free in `group`; the directory counter stays. -/
def countInodeFreed (group : Nat) (fs : Volume) : Volume :=
  { fs with
    bgFreeInodesCount := update fs.bgFreeInodesCount group
      ((fs.bgFreeInodesCount group + 1) % uint16Modulus)
    sFreeInodesCount := (fs.sFreeInodesCount + 1) % uint32Modulus }

/-- The bit is found clear: mark it, count it and hand out the inode. -/
def ext2TakeInode (fs : Volume) (isDir : Bool) (group bit : Nat) : Nat × Volume :=
  let ino := (group * fs.sb.inodesPerGroup + bit + 1) % uint32Modulus
  (ino, ext2CommitBitmap { fs with inodeBitmap := setBit fs.inodeBitmap group bit true } group
    (countInodeTaken isDir group))

/-- The passes of `ext2_alloc_inode` over `groups`. -/
def ext2AllocInodeFrom (isDir : Bool) : List Nat → Volume → Nat × Volume
  | [], fs => (0, fs)
  | group :: rest, fs =>
    if fs.bgFreeInodesCount group = 0 then ext2AllocInodeFrom isDir rest fs
    else
      match fs.pageCacheGetBlock with
      | (false, fs) => (0, fs)
      | (true, fs) =>
        match (List.range fs.sb.inodesPerGroup).find?
            fun bit => !fs.inodeBitmap group bit with
        | none => ext2AllocInodeFrom isDir rest fs
        | some bit => ext2TakeInode fs isDir group bit

/-- `ext2_alloc_inode`; zero means no inode. -/
def ext2AllocInode (fs : Volume) (isDir : Bool) : Nat × Volume :=
  ext2AllocInodeFrom isDir (List.range fs.sb.groupsCount) fs

/-- `ext2_free_inode`. -/
def ext2FreeInode (fs : Volume) (ino : Nat) : Volume :=
  if ino = 0 ∨ ino > fs.sb.inodesCount then fs
  else
    let group := (ino - 1) / fs.sb.inodesPerGroup
    let bit := (ino - 1) % fs.sb.inodesPerGroup
    if group ≥ fs.sb.groupsCount then fs
    else
      match fs.pageCacheGetBlock with
      | (false, fs) => fs
      | (true, fs) =>
        if fs.inodeBitmap group bit then
          ext2CommitBitmap { fs with inodeBitmap := setBit fs.inodeBitmap group bit false } group
            (countInodeFreed group)
        else fs

/-! ## What the operations do to the bitmaps and the blocks -/

section Specs

open Volume

variable {fs : Volume}

theorem quiet_syncMetadataCopy (fs : Volume) : Quiet fs (syncMetadataCopy fs).2 := by
  unfold syncMetadataCopy pageCacheGetBlock
  cases fs.io.pageOk fs.io.tick with
  | false => exact quiet_nextTick fs
  | true =>
    dsimp only [pageCacheSyncPage]
    cases fs.nextTick.io.syncOk fs.nextTick.io.tick with
    | false | true => exact (quiet_nextTick fs).trans (quiet_nextTick _)

theorem quiet_countBlockTaken (group : Nat) (fs : Volume) : Quiet fs (countBlockTaken group fs) :=
  ⟨rfl, rfl, rfl, rfl, rfl⟩

theorem quiet_countBlockFreed (group : Nat) (fs : Volume) : Quiet fs (countBlockFreed group fs) :=
  ⟨rfl, rfl, rfl, rfl, rfl⟩

theorem quiet_countInodeTaken (isDir : Bool) (group : Nat) (fs : Volume) :
    Quiet fs (countInodeTaken isDir group fs) :=
  ⟨rfl, rfl, rfl, rfl, rfl⟩

theorem quiet_countInodeFreed (group : Nat) (fs : Volume) : Quiet fs (countInodeFreed group fs) :=
  ⟨rfl, rfl, rfl, rfl, rfl⟩

theorem quiet_ext2CommitBitmap (fs : Volume) (group : Nat) {count : Volume → Volume}
    (hcount : ∀ fs, Quiet fs (count fs)) : Quiet fs (ext2CommitBitmap fs group count) := by
  have hsync : Quiet fs fs.pageCacheSyncPage.2 := quiet_nextTick fs
  have hgroup := quiet_syncMetadataCopy (count fs.pageCacheSyncPage.2)
  exact (hsync.trans (hcount _)).trans (hgroup.trans (quiet_syncMetadataCopy _))

theorem setBit_self (bitmap : Nat → Nat → Bool) (group bit : Nat) (value : Bool) :
    setBit bitmap group bit value group bit = value := by
  simp [setBit]

variable {bit : Nat}

theorem setBit_ne {bitmap : Nat → Nat → Bool} {g b : Nat} {value : Bool}
    (hne : ¬ (g = group ∧ b = bit)) : setBit bitmap group bit value g b = bitmap g b :=
  if_neg hne

/-- What handing out `block` does; block zero stands for failure. -/
structure Allocated (fs : Volume) (block : Nat) (fs' : Volume) : Prop where
  sb : fs'.sb = fs.sb
  inodeBitmap : fs'.inodeBitmap = fs.inodeBitmap
  answers : fs'.io.answers = fs.io.answers
  keeps : ∀ b, fs.BlockUsed b → fs'.BlockUsed b
  page : ∀ b, fs.BlockUsed b → fs'.page b = fs.page b
  fresh : block ≠ 0 → ¬ fs.BlockUsed block ∧ fs'.BlockUsed block ∧ fs'.page block = fun _ => 0

theorem Allocated.none (h : Quiet fs fs') : Allocated fs 0 fs' where
  sb := h.sb
  inodeBitmap := h.inodeBitmap
  answers := h.answers
  keeps b hb := (h.blockUsed b).mpr hb
  page b _ := by rw [h.page]
  fresh h0 := absurd rfl h0

variable {fs1 : Volume}

theorem Allocated.of_quiet (h : Quiet fs fs1)
    (ha : Allocated fs1 block fs') : Allocated fs block fs' where
  sb := ha.sb.trans h.sb
  inodeBitmap := ha.inodeBitmap.trans h.inodeBitmap
  answers := ha.answers.trans h.answers
  keeps b hb := ha.keeps b ((h.blockUsed b).mpr hb)
  page b hb := by rw [ha.page b ((h.blockUsed b).mpr hb), h.page]
  fresh h0 := by
    obtain ⟨hnot, hused, hzero⟩ := ha.fresh h0
    exact ⟨fun hb => hnot ((h.blockUsed block).mpr hb), hused, hzero⟩

theorem allocated_ext2TakeBlock (hio : fs.PagesAvailable)
    (hgroup : group < fs.sb.groupsCount) (hbit : bit < fs.sb.groupBlocks group)
    (hclear : fs.blockBitmap group bit = false) :
    Allocated fs (ext2TakeBlock fs group bit).1 (ext2TakeBlock fs group bit).2 := by
  unfold ext2TakeBlock
  dsimp only
  have hquiet := quiet_ext2CommitBitmap
    { fs with blockBitmap := setBit fs.blockBitmap group bit true } group
    (quiet_countBlockTaken group)
  generalize ext2CommitBitmap _ group _ = fs1 at hquiet ⊢
  have hsb : fs1.sb = fs.sb := hquiet.sb
  have hbitmap : fs1.blockBitmap = setBit fs.blockBitmap group bit true := hquiet.blockBitmap
  have hpage : fs1.page = fs.page := hquiet.page
  have hanswers : fs1.io.answers = fs.io.answers := hquiet.answers
  rw [hsb]
  have hhas := SbInfo.hasBlock_of_bit hgroup hbit
  have hzero : ext2ZeroBlock fs1 (fs.sb.groupFirstBlock group + bit) =
      (fs1.nextTick.setPage (fs.sb.groupFirstBlock group + bit) fun _ => 0).nextTick := by
    rw [ext2ZeroBlock, pageCacheGetBlock, Io.pageOk_of_answers hanswers, hio]
    rfl
  rw [hzero]
  have hunused : ¬ fs.BlockUsed (fs.sb.groupFirstBlock group + bit) := by
    rintro ⟨-, hset⟩
    rw [SbInfo.blockGroup_eq hbit, SbInfo.blockBit_eq hbit, hclear] at hset
    cases hset
  refine ⟨hsb, hquiet.inodeBitmap, hanswers, ?_, ?_, ?_⟩
  · rintro b ⟨hb, hset⟩
    refine ⟨by rw [← hsb] at hb; exact hb, ?_⟩
    change fs1.blockBitmap (fs1.sb.blockGroup b) (fs1.sb.blockBit b) = true
    rw [hsb, hbitmap, setBit]
    split
    · rfl
    · exact hset
  · intro b hb
    have hne : b ≠ fs.sb.groupFirstBlock group + bit := fun he => hunused (he ▸ hb)
    change update fs1.page _ _ b = _
    rw [update_of_ne hne, hpage]
  · intro _
    refine ⟨hunused, ⟨?_, ?_⟩, ?_⟩
    · change fs1.sb.HasBlock _
      rw [hsb]
      exact hhas
    · change fs1.blockBitmap (fs1.sb.blockGroup _) (fs1.sb.blockBit _) = true
      rw [hsb, hbitmap, SbInfo.blockGroup_eq hbit, SbInfo.blockBit_eq hbit, setBit_self]
    · exact update_self ..

theorem allocated_ext2AllocBlockFrom (groups : List Nat) (hio : fs.PagesAvailable)
    (hgroups : ∀ g ∈ groups, g < fs.sb.groupsCount) :
    Allocated fs (ext2AllocBlockFrom groups fs).1 (ext2AllocBlockFrom groups fs).2 := by
  induction groups generalizing fs with
  | nil => exact .none (.refl fs)
  | cons group rest ih =>
    have hrest : ∀ g ∈ rest, g < fs.sb.groupsCount :=
      fun g hg => hgroups g (List.mem_cons_of_mem _ hg)
    have hquiet := quiet_nextTick fs
    rw [ext2AllocBlockFrom, pageCacheGetBlock, hio]
    dsimp only
    split_ifs with hnone
    · exact ih hio hrest
    · cases hfind : (List.range (fs.nextTick.sb.groupBlocks group)).find?
          (fun bit => !fs.nextTick.blockBitmap group bit) with
      | none => exact .of_quiet hquiet (ih hio hrest)
      | some bit =>
        have hclear := List.find?_some hfind
        have hmem := List.mem_range.mp (List.mem_of_find?_eq_some hfind)
        rw [Bool.not_eq_true'] at hclear
        have hio' : fs.nextTick.PagesAvailable := hio
        exact .of_quiet hquiet
          (allocated_ext2TakeBlock hio' (hgroups group List.mem_cons_self) hmem hclear)

/-- `ext2_alloc_block` hands out a block that nobody uses, filled with zeros. -/
theorem allocated_ext2AllocBlock (hio : fs.PagesAvailable) (ino : Nat) :
    Allocated fs (ext2AllocBlock fs ino).1 (ext2AllocBlock fs ino).2 := by
  apply allocated_ext2AllocBlockFrom _ hio
  intro g hg
  obtain ⟨pass, hpass, rfl⟩ := List.mem_map.mp hg
  exact Nat.mod_lt _ (Nat.zero_lt_of_lt (List.mem_range.mp hpass))

/-- What freeing the blocks of a list does. -/
structure Freed (fs : Volume) (blocks : List Nat) (fs' : Volume) : Prop where
  sb : fs'.sb = fs.sb
  inodeBitmap : fs'.inodeBitmap = fs.inodeBitmap
  answers : fs'.io.answers = fs.io.answers
  page : fs'.page = fs.page
  used : ∀ b, fs'.BlockUsed b ↔ fs.BlockUsed b ∧ b ∉ blocks

theorem Freed.of_quiet (h : Quiet fs fs') : Freed fs [] fs' where
  sb := h.sb
  inodeBitmap := h.inodeBitmap
  answers := h.answers
  page := h.page
  used b := by simp [h.blockUsed b]

theorem Freed.append {fs2 : Volume} {l1 l2 : List Nat} (h1 : Freed fs l1 fs1)
    (h2 : Freed fs1 l2 fs2) : Freed fs (l1 ++ l2) fs2 where
  sb := h2.sb.trans h1.sb
  inodeBitmap := h2.inodeBitmap.trans h1.inodeBitmap
  answers := h2.answers.trans h1.answers
  page := h2.page.trans h1.page
  used b := by rw [h2.used, h1.used, List.mem_append, not_or, and_assoc]

theorem Freed.pagesAvailable {l : List Nat} (h : Freed fs l fs')
    (hio : fs.PagesAvailable) : fs'.PagesAvailable := hio.of_answers h.answers

/-- A block that is not in use is freed by doing nothing. -/
theorem Freed.of_not_used (h : Quiet fs fs')
    (hblock : ¬ fs.BlockUsed block) : Freed fs [block] fs' where
  sb := h.sb
  inodeBitmap := h.inodeBitmap
  answers := h.answers
  page := h.page
  used b := by
    rw [h.blockUsed b, List.mem_singleton]
    refine ⟨fun hb => ⟨hb, ?_⟩, fun hb => hb.1⟩
    rintro rfl
    exact hblock hb

theorem freed_ext2FreeBlock (hio : fs.PagesAvailable) (block : Nat) :
    Freed fs [block] (ext2FreeBlock fs block) := by
  unfold ext2FreeBlock
  dsimp only
  split_ifs with hrange hgroup
  · refine .of_not_used (.refl fs) ?_
    rintro ⟨⟨hge, hlt, -⟩, -⟩
    omega
  · refine .of_not_used (.refl fs) ?_
    rintro ⟨⟨-, -, hlt⟩, -⟩
    omega
  rw [pageCacheGetBlock, hio]
  dsimp only
  have hhas : fs.sb.HasBlock block := ⟨by omega, by omega, by omega⟩
  split_ifs with hset
  · have hquiet := quiet_ext2CommitBitmap
      { fs.nextTick with blockBitmap := setBit fs.nextTick.blockBitmap (fs.sb.blockGroup block)
                                          (fs.sb.blockBit block) false } (fs.sb.blockGroup block)
      (quiet_countBlockFreed (fs.sb.blockGroup block))
    generalize ext2CommitBitmap _ (fs.sb.blockGroup block) _ = fs1 at hquiet ⊢
    have hsb : fs1.sb = fs.sb := hquiet.sb
    have hbitmap : fs1.blockBitmap = setBit fs.blockBitmap (fs.sb.blockGroup block)
        (fs.sb.blockBit block) false := hquiet.blockBitmap
    refine ⟨hsb, hquiet.inodeBitmap, hquiet.answers, hquiet.page, fun b => ?_⟩
    rw [BlockUsed, hsb, hbitmap, List.mem_singleton]
    by_cases hb : b = block
    · subst hb
      simp [setBit_self]
    · -- the bit of another block stands elsewhere
      have hkeep : fs.sb.HasBlock b → setBit fs.blockBitmap (fs.sb.blockGroup block)
          (fs.sb.blockBit block) false (fs.sb.blockGroup b) (fs.sb.blockBit b) =
          fs.blockBitmap (fs.sb.blockGroup b) (fs.sb.blockBit b) := by
        intro hhas'
        apply setBit_ne
        rintro ⟨hg, hbit⟩
        apply hb
        rw [SbInfo.block_eq hhas', SbInfo.block_eq hhas, hg, hbit]
      constructor
      · rintro ⟨hhas', hbit⟩
        rw [hkeep hhas'] at hbit
        exact ⟨⟨hhas', hbit⟩, hb⟩
      · rintro ⟨⟨hhas', hbit⟩, -⟩
        rw [← hkeep hhas'] at hbit
        exact ⟨hhas', hbit⟩
  · refine .of_not_used (quiet_nextTick fs) ?_
    rintro ⟨-, hbit⟩
    exact hset hbit

/-- What handing out inode `ino` does; zero stands for failure. -/
structure InodeTaken (fs : Volume) (ino : Nat) (fs' : Volume) : Prop where
  sb : fs'.sb = fs.sb
  blockBitmap : fs'.blockBitmap = fs.blockBitmap
  page : fs'.page = fs.page
  answers : fs'.io.answers = fs.io.answers
  keeps : ∀ i, fs.InodeUsed i → fs'.InodeUsed i
  fresh : ino ≠ 0 → ¬ fs.InodeUsed ino ∧ fs'.InodeUsed ino
  group : ino ≠ 0 → (ino - 1) / fs.sb.inodesPerGroup < fs.sb.groupsCount

theorem InodeTaken.none (h : Quiet fs fs') : InodeTaken fs 0 fs' where
  sb := h.sb
  blockBitmap := h.blockBitmap
  page := h.page
  answers := h.answers
  keeps i hi := (h.inodeUsed i).mpr hi
  fresh h0 := absurd rfl h0
  group h0 := absurd rfl h0

theorem InodeTaken.of_quiet {ino : Nat} (h : Quiet fs fs1)
    (ht : InodeTaken fs1 ino fs') : InodeTaken fs ino fs' where
  sb := ht.sb.trans h.sb
  blockBitmap := ht.blockBitmap.trans h.blockBitmap
  page := ht.page.trans h.page
  answers := ht.answers.trans h.answers
  keeps i hi := ht.keeps i ((h.inodeUsed i).mpr hi)
  fresh h0 := by
    obtain ⟨hnot, hused⟩ := ht.fresh h0
    exact ⟨fun hi => hnot ((h.inodeUsed ino).mpr hi), hused⟩
  group h0 := by
    rw [← h.sb]
    exact ht.group h0

/-- The number of bit `bit` of group `group`, and back. -/
theorem inode_position (sb : SbInfo) (hgroup : group < sb.groupsCount)
    (hbit : bit < sb.inodesPerGroup) :
    (group * sb.inodesPerGroup + bit + 1) % uint32Modulus = group * sb.inodesPerGroup + bit + 1 ∧
      (group * sb.inodesPerGroup + bit + 1 - 1) / sb.inodesPerGroup = group ∧
      (group * sb.inodesPerGroup + bit + 1 - 1) % sb.inodesPerGroup = bit := by
  have hall : (group + 1) * sb.inodesPerGroup ≤ sb.groupsCount * sb.inodesPerGroup :=
    Nat.mul_le_mul_right _ hgroup
  have hlt : sb.groupsCount * sb.inodesPerGroup < uint32Modulus := sb.inodes_lt
  rw [Nat.succ_mul] at hall
  refine ⟨Nat.mod_eq_of_lt (by omega), ?_, ?_⟩
  · rw [Nat.add_sub_cancel, Nat.add_comm, Nat.add_mul_div_right _ _ sb.inodesPerGroup_pos,
      Nat.div_eq_of_lt hbit, Nat.zero_add]
  · rw [Nat.add_sub_cancel, Nat.add_comm, Nat.add_mul_mod_self_right, Nat.mod_eq_of_lt hbit]

theorem inodeTaken_ext2TakeInode (isDir : Bool)
    (hgroup : group < fs.sb.groupsCount) (hbit : bit < fs.sb.inodesPerGroup)
    (hclear : fs.inodeBitmap group bit = false) :
    InodeTaken fs (ext2TakeInode fs isDir group bit).1 (ext2TakeInode fs isDir group bit).2 := by
  unfold ext2TakeInode
  have hquiet := quiet_ext2CommitBitmap
    { fs with inodeBitmap := setBit fs.inodeBitmap group bit true } group
    (quiet_countInodeTaken isDir group)
  generalize ext2CommitBitmap _ group _ = fs1 at hquiet ⊢
  obtain ⟨hino, hdiv, hmod⟩ := inode_position fs.sb hgroup hbit
  have hsb : fs1.sb = fs.sb := hquiet.sb
  have hbitmap : fs1.inodeBitmap = setBit fs.inodeBitmap group bit true := hquiet.inodeBitmap
  rw [hino]
  refine ⟨hsb, hquiet.blockBitmap, hquiet.page, hquiet.answers, ?_,
    fun _ => ⟨?_, Nat.succ_ne_zero _, ?_⟩, fun _ => by rw [hdiv]; exact hgroup⟩
  · rintro i ⟨hi, hset⟩
    refine ⟨hi, ?_⟩
    rw [hsb, hbitmap, setBit]
    split
    · rfl
    · exact hset
  · rintro ⟨-, hset⟩
    rw [hdiv, hmod, hclear] at hset
    cases hset
  · rw [hsb, hbitmap, hdiv, hmod, setBit_self]

theorem inodeTaken_ext2AllocInodeFrom (isDir : Bool) (groups : List Nat)
    (hgroups : ∀ g ∈ groups, g < fs.sb.groupsCount) :
    InodeTaken fs (ext2AllocInodeFrom isDir groups fs).1
      (ext2AllocInodeFrom isDir groups fs).2 := by
  induction groups generalizing fs with
  | nil => exact .none (.refl fs)
  | cons group rest ih =>
    have hrest : ∀ g ∈ rest, g < fs.sb.groupsCount :=
      fun g hg => hgroups g (List.mem_cons_of_mem _ hg)
    have hquiet := quiet_nextTick fs
    rw [ext2AllocInodeFrom, pageCacheGetBlock]
    split_ifs with hnone
    · exact ih hrest
    cases fs.io.pageOk fs.io.tick with
    | false => exact .none hquiet
    | true =>
      dsimp only
      cases hfind : (List.range fs.nextTick.sb.inodesPerGroup).find?
          (fun bit => !fs.nextTick.inodeBitmap group bit) with
      | none => exact .of_quiet hquiet (ih hrest)
      | some bit =>
        have hclear := List.find?_some hfind
        have hbit := List.mem_range.mp (List.mem_of_find?_eq_some hfind)
        rw [Bool.not_eq_true'] at hclear
        exact .of_quiet hquiet (inodeTaken_ext2TakeInode isDir
          (hgroups group List.mem_cons_self) hbit hclear)

/-- `ext2_alloc_inode` hands out an inode whose bit was clear. -/
theorem inodeTaken_ext2AllocInode (isDir : Bool) :
    InodeTaken fs (ext2AllocInode fs isDir).1 (ext2AllocInode fs isDir).2 :=
  inodeTaken_ext2AllocInodeFrom isDir _ fun _ hg => List.mem_range.mp hg

/-- What freeing inode `ino` does not touch. -/
structure InodeFreed (fs : Volume) (ino : Nat) (fs' : Volume) : Prop where
  sb : fs'.sb = fs.sb
  blockBitmap : fs'.blockBitmap = fs.blockBitmap
  page : fs'.page = fs.page
  answers : fs'.io.answers = fs.io.answers
  keeps : ∀ i, i ≠ ino → fs.InodeUsed i → fs'.InodeUsed i

theorem InodeFreed.of_quiet {ino : Nat} (h : Quiet fs fs') : InodeFreed fs ino fs' where
  sb := h.sb
  blockBitmap := h.blockBitmap
  page := h.page
  answers := h.answers
  keeps i _ hi := (h.inodeUsed i).mpr hi

theorem inodeFreed_ext2FreeInode (fs : Volume) (ino : Nat) :
    InodeFreed fs ino (ext2FreeInode fs ino) := by
  unfold ext2FreeInode
  dsimp only [pageCacheGetBlock]
  split_ifs with hrange hgroup
  · exact .of_quiet (.refl fs)
  · exact .of_quiet (.refl fs)
  cases fs.io.pageOk fs.io.tick with
  | false => exact .of_quiet (quiet_nextTick fs)
  | true =>
    dsimp only
    split_ifs with hset
    · have hquiet := quiet_ext2CommitBitmap { fs.nextTick with
          inodeBitmap := setBit fs.nextTick.inodeBitmap ((ino - 1) / fs.sb.inodesPerGroup)
            ((ino - 1) % fs.sb.inodesPerGroup) false }
        ((ino - 1) / fs.sb.inodesPerGroup)
        (quiet_countInodeFreed ((ino - 1) / fs.sb.inodesPerGroup))
      generalize ext2CommitBitmap _ ((ino - 1) / fs.sb.inodesPerGroup) _ = fs1 at hquiet ⊢
      have hsb : fs1.sb = fs.sb := hquiet.sb
      have hbitmap : fs1.inodeBitmap = setBit fs.inodeBitmap
          ((ino - 1) / fs.sb.inodesPerGroup) ((ino - 1) % fs.sb.inodesPerGroup) false :=
        hquiet.inodeBitmap
      refine ⟨hsb, hquiet.blockBitmap, hquiet.page, hquiet.answers, ?_⟩
      rintro i hne ⟨hi, hbit⟩
      refine ⟨hi, ?_⟩
      rw [hsb, hbitmap, setBit_ne, hbit]
      -- two inode numbers with one position are equal
      rintro ⟨hdiv, hmod⟩
      have hi' := Nat.div_add_mod (i - 1) fs.sb.inodesPerGroup
      have hino := Nat.div_add_mod (ino - 1) fs.sb.inodesPerGroup
      rw [hdiv] at hi'
      omega
    · exact .of_quiet (quiet_nextTick fs)

end Specs

end CuteOS.Fs.Ext2
