/-
  Fs/Ext2/Geometry.lean --- the geometry of a mounted ext2 file system.

  Sources: `fs/ext2/super.c` (`ext2_check_super_block`, `ext2_read_bgdt`, `ext2_read_super`),
  `fs/ext2/inode.c` (`ext2_inode_location`), `fs/ext2/balloc.c` (`ext2_group_blocks` and the
  bits that the allocators visit).

  Superblock and group descriptors are untrusted.  The check bounds neither the bits of a
  group nor the number of inodes, and asks for no divisor of the block size.
-/
import CuteOS.Fs.Ext2.Balloc

set_option autoImplicit false

namespace CuteOS.Fs.Ext2

/-! ## Mounting -/

/-- The fields of `struct ext2_super_block` that are checked or give the geometry. -/
structure SuperBlock where
  inodesCount : UInt32
  blocksCount : UInt32
  firstDataBlock : UInt32
  logBlockSize : UInt32
  blocksPerGroup : UInt32
  inodesPerGroup : UInt32
  magic : UInt16
  revLevel : UInt32
  inodeSize : UInt16
  featureCompat : UInt32
  featureIncompat : UInt32
  featureRoCompat : UInt32
  deriving DecidableEq, Repr

namespace SuperBlock

/-- The size of an inode on disk; `EXT2_GOOD_OLD_REV` has no field for it. -/
def recordSize (es : SuperBlock) : Nat := if es.revLevel = 0 then 128 else es.inodeSize.toNat

/-- The blocks of all groups. -/
def dataBlocks (es : SuperBlock) : Nat := es.blocksCount.toNat - es.firstDataBlock.toNat

/-- The number of groups, over the natural numbers. -/
def groups (es : SuperBlock) : Nat :=
  (es.dataBlocks + es.blocksPerGroup.toNat - 1) / es.blocksPerGroup.toNat

/-- The inodes of a group up to `s_inodes_count`. -/
def groupInodes (es : SuperBlock) (group : Nat) : Nat :=
  min es.inodesPerGroup.toNat (es.inodesCount.toNat - group * es.inodesPerGroup.toNat)

end SuperBlock

/-- `ext2_check_super_block`. -/
def ext2CheckSuperBlock (es : SuperBlock) : Except Errno Unit :=
  if es.magic ≠ 0xef53 then .error .enodev
  else if es.featureCompat ≠ 0 then .error .einval
  else if es.featureIncompat &&& ~~~2 ≠ 0 ∨ es.featureIncompat &&& 2 = 0 then .error .einval
  else if es.featureRoCompat &&& ~~~1 ≠ 0 then .error .einval
  else if es.logBlockSize ≠ 2 then .error .einval
  else if es.recordSize < 128 ∨ blockSize < es.recordSize then .error .einval
  else if es.blocksPerGroup = 0 ∨ es.inodesPerGroup = 0 ∨ es.blocksCount ≤ es.firstDataBlock then
    .error .einval
  else .ok ()

/-- `struct ext2_sb_info`: the size of `s_group_desc` in bytes, and of its contents
`bg_inode_table`. -/
structure SuperInfo where
  es : SuperBlock
  inodeSize : Nat
  groupsCount : Nat
  descBytes : Nat
  inodeTable : Nat → UInt32

/-- Which sizes `vmalloc` finds room for, and which blocks of the device can be read. -/
structure MountEnv where
  vmalloc : Nat → Bool
  readable : Nat → Bool

/-- `ext2_read_bgdt`: the size of the descriptor array.  `vmalloc` has nothing of size 0. -/
def ext2ReadBgdt (es : SuperBlock) (groupsCount : Nat) (env : MountEnv) : Except Errno Nat :=
  let bytes := groupsCount * 32 % uint32Modulus
  if bytes = 0 ∨ env.vmalloc bytes = false then .error .enomem
  else if (List.range (divRoundUpU32 groupsCount (blockSize / 32))).all fun block =>
      env.readable ((es.firstDataBlock.toNat + 1 + block) % uint32Modulus) then .ok bytes
  else .error .eio

/-- `ext2_read_super` of a superblock that has been read, with the descriptors on disk. -/
def ext2ReadSuper (es : SuperBlock) (env : MountEnv) (inodeTable : Nat → UInt32) :
    Except Errno SuperInfo :=
  match ext2CheckSuperBlock es with
  | .error .enodev => .error .einval
  | .error e => .error e
  | .ok () =>
    let groupsCount := divRoundUpU32 es.dataBlocks es.blocksPerGroup.toNat
    match ext2ReadBgdt es groupsCount env with
    | .error e => .error e
    | .ok descBytes => .ok ⟨es, es.recordSize, groupsCount, descBytes, inodeTable⟩

namespace SuperInfo

/-- `ext2_inode_location`: the block of an inode and the offset in it. -/
def inodeLocation (sbi : SuperInfo) (ino : Nat) : Except Errno (Nat × Nat) :=
  let group := (ino - 1) / sbi.es.inodesPerGroup.toNat
  let byteOffset := (ino - 1) % sbi.es.inodesPerGroup.toNat * sbi.inodeSize % uint32Modulus
  if ino = 0 ∨ sbi.groupsCount ≤ group then .error .einval
  else .ok (((sbi.inodeTable group).toNat + byteOffset / blockSize) % uint32Modulus,
    byteOffset % blockSize)

/-- `ext2_group_first_block`. -/
def groupFirstBlock (sbi : SuperInfo) (group : Nat) : Nat :=
  (sbi.es.firstDataBlock.toNat + group * sbi.es.blocksPerGroup.toNat) % uint32Modulus

/-- `ext2_group_blocks`. -/
def groupBlocks (sbi : SuperInfo) (group : Nat) : Nat :=
  min ((sbi.es.blocksCount.toNat + uint32Modulus - sbi.groupFirstBlock group) % uint32Modulus)
    sbi.es.blocksPerGroup.toNat

/-- The inode numbers up to `s_inodes_count`. -/
def HasInode (sbi : SuperInfo) (ino : Nat) : Prop := 0 < ino ∧ ino ≤ sbi.es.inodesCount.toNat

/-- The bits that the allocators test in the bitmap of a group. -/
inductive UsesBit (sbi : SuperInfo) : Nat → Prop
  /-- `ext2_alloc_block` -/
  | allocBlock {group bit : Nat} (hgroup : group < sbi.groupsCount)
      (hbit : bit < sbi.groupBlocks group) : UsesBit sbi bit
  /-- `ext2_free_block` -/
  | freeBlock {block group : Nat} (hfirst : sbi.es.firstDataBlock.toNat ≤ block)
      (hlast : block < sbi.es.blocksCount.toNat)
      (hdiv : group = (block - sbi.es.firstDataBlock.toNat) / sbi.es.blocksPerGroup.toNat)
      (hgroup : group < sbi.groupsCount) :
      UsesBit sbi ((block + uint32Modulus - sbi.groupFirstBlock group) % uint32Modulus)
  /-- `ext2_alloc_inode` -/
  | allocInode {group bit : Nat} (hgroup : group < sbi.groupsCount)
      (hbit : bit < sbi.es.inodesPerGroup.toNat) : UsesBit sbi bit
  /-- `ext2_free_inode` -/
  | freeInode {ino : Nat} (hino : sbi.HasInode ino)
      (hgroup : (ino - 1) / sbi.es.inodesPerGroup.toNat < sbi.groupsCount) :
      UsesBit sbi ((ino - 1) % sbi.es.inodesPerGroup.toNat)

/-- The geometry can be used. -/
structure Usable (sbi : SuperInfo) : Prop where
  groups : sbi.groupsCount = sbi.es.groups
  descriptors : sbi.groupsCount * 32 ≤ sbi.descBytes
  located : ∀ ino, sbi.HasInode ino → ∃ block offset,
    sbi.inodeLocation ino = .ok (block, offset) ∧ offset + sbi.inodeSize ≤ blockSize
  apart : ∀ ino ino' block offset offset', sbi.HasInode ino → sbi.HasInode ino' → ino ≠ ino' →
    sbi.inodeLocation ino = .ok (block, offset) → sbi.inodeLocation ino' = .ok (block, offset') →
      offset + sbi.inodeSize ≤ offset' ∨ offset' + sbi.inodeSize ≤ offset
  bits : ∀ bit, sbi.UsesBit bit → bit < 8 * blockSize

end SuperInfo

/-- The fields on disk fit each other: the descriptors fill less than `2 ^ 32` bytes, the groups
have room for the inodes, an inode fits its block, a group fits its bitmap, and the inode tables
lie apart. -/
structure SuperBlock.Regular (es : SuperBlock) (inodeTable : Nat → UInt32) : Prop where
  descriptors : es.groups * 32 < uint32Modulus
  inodes : es.inodesCount.toNat ≤ es.groups * es.inodesPerGroup.toNat
  records : es.recordSize ∣ blockSize ∨ es.groupInodes 0 * es.recordSize ≤ blockSize
  blockBits : min es.dataBlocks es.blocksPerGroup.toNat ≤ 8 * blockSize
  inodeBits : es.inodesPerGroup.toNat ≤ 8 * blockSize
  tables : ∀ group group' k k', group ≠ group' →
    k * blockSize < es.groupInodes group * es.recordSize →
    k' * blockSize < es.groupInodes group' * es.recordSize →
      ((inodeTable group).toNat + k) % uint32Modulus ≠
        ((inodeTable group').toNat + k') % uint32Modulus

/-! ## What a mount says about the superblock -/

/-- What the check and the size of the descriptor array leave. -/
structure SuperBlock.Mounted (es : SuperBlock) : Prop where
  groups_pos : 0 < es.groups
  size : 128 ≤ es.recordSize ∧ es.recordSize ≤ blockSize
  blocksPerGroup_pos : 0 < es.blocksPerGroup.toNat
  inodesPerGroup_pos : 0 < es.inodesPerGroup.toNat
  firstDataBlock_lt : es.firstDataBlock.toNat < es.blocksCount.toNat

/-- A mount without wrap-around in the number of groups. -/
def SuperBlock.info (es : SuperBlock) (inodeTable : Nat → UInt32) : SuperInfo :=
  ⟨es, es.recordSize, es.groups, es.groups * 32 % uint32Modulus, inodeTable⟩

variable {es : SuperBlock} {env : MountEnv} {inodeTable : Nat → UInt32} {sbi : SuperInfo}

/-- A sum that wraps gives no group at all, and no descriptor array. -/
theorem divRoundUpU32_eq {value divisor : Nat} (hvalue : value < uint32Modulus)
    (hdivisor : divisor < uint32Modulus) (hne : divRoundUpU32 value divisor ≠ 0) :
    divRoundUpU32 value divisor = (value + divisor - 1) / divisor := by
  unfold divRoundUpU32 at hne ⊢
  by_cases hwrap : value + divisor - 1 < uint32Modulus
  · rw [Nat.mod_eq_of_lt hwrap]
  · have hmod : (value + divisor - 1) % uint32Modulus = value + divisor - 1 - uint32Modulus := by
      rw [Nat.mod_eq_sub_mod (Nat.not_lt.mp hwrap)]
      exact Nat.mod_eq_of_lt (by omega)
    exact absurd (Nat.div_eq_of_lt (by omega)) hne

theorem mounted_of_readSuper (hmount : ext2ReadSuper es env inodeTable = .ok sbi) :
    es.Mounted ∧ sbi = es.info inodeTable := by
  unfold ext2ReadSuper at hmount
  split at hmount
  · cases hmount
  · cases hmount
  · rename_i hcheck
    unfold ext2CheckSuperBlock at hcheck
    split_ifs at hcheck with _ _ _ _ _ hsize hgeometry
    simp only [not_or, Nat.not_lt, UInt32.not_le] at hsize hgeometry
    obtain ⟨hblocks, hinodes, hfirst⟩ := hgeometry
    have hpos : ∀ {x : UInt32}, x ≠ 0 → 0 < x.toNat := fun hx =>
      Nat.pos_of_ne_zero fun heq => hx (UInt32.toNat_inj.mp heq)
    dsimp only at hmount
    split at hmount
    · cases hmount
    · rename_i bytes hbytes
      cases hmount
      unfold ext2ReadBgdt at hbytes
      dsimp only at hbytes
      split_ifs at hbytes with hroom
      cases hbytes
      have hgroups : divRoundUpU32 es.dataBlocks es.blocksPerGroup.toNat = es.groups := by
        refine divRoundUpU32_eq ?_ es.blocksPerGroup.toNat_lt fun hzero => hroom (.inl ?_)
        · exact lt_of_le_of_lt (Nat.sub_le _ _) es.blocksCount.toNat_lt
        · rw [hzero, Nat.zero_mod]
      rw [hgroups] at hroom ⊢
      refine ⟨⟨Nat.pos_of_ne_zero fun hzero => hroom (.inl ?_), hsize, hpos hblocks,
        hpos hinodes, hfirst⟩, rfl⟩
      rw [hzero, Nat.zero_mod]

namespace SuperBlock.Mounted

variable (h : es.Mounted)
include h

/-- The first block of a group does not wrap. -/
theorem groupFirstBlock_eq (inodeTable : Nat → UInt32) {group : Nat} (hgroup : group < es.groups) :
    (es.info inodeTable).groupFirstBlock group =
        es.firstDataBlock.toNat + group * es.blocksPerGroup.toNat ∧
      group * es.blocksPerGroup.toNat < es.dataBlocks := by
  have hmul := (Nat.le_div_iff_mul_le h.blocksPerGroup_pos).mp (Nat.succ_le_of_lt hgroup)
  rw [Nat.succ_mul] at hmul
  have hpos := h.blocksPerGroup_pos
  have hlt : group * es.blocksPerGroup.toNat < es.dataBlocks := by omega
  refine ⟨Nat.mod_eq_of_lt ?_, hlt⟩
  have hcount := es.blocksCount.toNat_lt
  unfold dataBlocks at hlt
  dsimp only [info, uint32Modulus]
  omega

/-- The allocators use the bits of the first group, and no others. -/
theorem usesBit_iff (bit : Nat) : (es.info inodeTable).UsesBit bit ↔
    bit < min es.dataBlocks es.blocksPerGroup.toNat ∨ bit < es.inodesPerGroup.toNat := by
  have hcount := es.blocksCount.toNat_lt
  have hwrap : ∀ {x y : Nat}, y ≤ x → x < 2 ^ 32 →
      (x + uint32Modulus - y) % uint32Modulus = x - y := by
    unfold uint32Modulus
    omega
  constructor
  · intro huse
    cases huse with
    | @allocBlock group bit hgroup hbit =>
      obtain ⟨heq, hlt⟩ := h.groupFirstBlock_eq inodeTable hgroup
      rw [SuperInfo.groupBlocks, heq] at hbit
      dsimp only [info] at hbit
      unfold dataBlocks at hlt ⊢
      rw [hwrap (by omega) hcount] at hbit
      exact .inl (by omega)
    | @freeBlock block group hfirst hlast hdiv hgroup =>
      obtain ⟨heq, hlt⟩ := h.groupFirstBlock_eq inodeTable hgroup
      have hmod := Nat.mod_lt (block - es.firstDataBlock.toNat) h.blocksPerGroup_pos
      have hsum := Nat.div_add_mod' (block - es.firstDataBlock.toNat) es.blocksPerGroup.toNat
      dsimp only [info] at hdiv hfirst hlast
      rw [← hdiv] at hsum
      unfold dataBlocks
      rw [hwrap (by omega) (by omega)]
      exact .inl (by omega)
    | allocInode hgroup hbit => exact .inr hbit
    | freeInode hino hgroup => exact .inr (Nat.mod_lt _ h.inodesPerGroup_pos)
  · rintro (hbit | hbit)
    · refine .allocBlock h.groups_pos ?_
      rw [SuperInfo.groupBlocks, (h.groupFirstBlock_eq inodeTable h.groups_pos).1, Nat.zero_mul,
        Nat.add_zero]
      dsimp only [info]
      rw [hwrap h.firstDataBlock_lt.le hcount]
      exact hbit
    · exact .allocInode h.groups_pos hbit

theorem hasInode_iff (ino : Nat) : (es.info inodeTable).HasInode ino ↔ ∃ group index,
    index < es.groupInodes group ∧ ino = group * es.inodesPerGroup.toNat + index + 1 := by
  dsimp only [SuperInfo.HasInode, info]
  constructor
  · rintro ⟨hpos, hle⟩
    have hsum := Nat.div_add_mod' (ino - 1) es.inodesPerGroup.toNat
    have hmod := Nat.mod_lt (ino - 1) h.inodesPerGroup_pos
    refine ⟨(ino - 1) / es.inodesPerGroup.toNat, (ino - 1) % es.inodesPerGroup.toNat, ?_, by omega⟩
    exact Nat.lt_min.mpr ⟨hmod, by omega⟩
  · rintro ⟨group, index, hindex, rfl⟩
    have hlt := (Nat.lt_min.mp hindex).2
    exact ⟨Nat.succ_pos _, by omega⟩

/-- The group of an inode number. -/
theorem group_eq {group index : Nat} (hindex : index < es.groupInodes group) :
    (group * es.inodesPerGroup.toNat + index) / es.inodesPerGroup.toNat = group := by
  rw [Nat.mul_comm, Nat.mul_add_div h.inodesPerGroup_pos,
    Nat.div_eq_of_lt (Nat.lt_min.mp hindex).1, Nat.add_zero]

/-- Where an inode lies if its group fits a bitmap. -/
theorem inodeLocation_eq (hbits : es.inodesPerGroup.toNat ≤ 8 * blockSize) {group index : Nat}
    (hindex : index < es.groupInodes group) :
    (es.info inodeTable).inodeLocation (group * es.inodesPerGroup.toNat + index + 1) =
      if es.groups ≤ group then .error .einval
      else .ok (((inodeTable group).toNat + index * es.recordSize / blockSize) % uint32Modulus,
        index * es.recordSize % blockSize) := by
  have hlt := (Nat.lt_min.mp hindex).1
  have hmod : (group * es.inodesPerGroup.toNat + index) % es.inodesPerGroup.toNat = index := by
    rw [Nat.mul_comm, Nat.mul_add_mod, Nat.mod_eq_of_lt hlt]
  have hsmall : index * es.recordSize < uint32Modulus :=
    lt_of_le_of_lt (Nat.mul_le_mul (hlt.le.trans hbits) h.size.2) (by decide)
  dsimp only [SuperInfo.inodeLocation, info]
  rw [Nat.add_sub_cancel, h.group_eq hindex, hmod, Nat.mod_eq_of_lt hsmall]
  simp

end SuperBlock.Mounted

/-! ## The geometry of regular superblocks -/

section Records

variable {size index index' k n : Nat}

/-- A record of a size that divides the block size does not cross the end of a block. -/
theorem record_le (hdvd : size ∣ blockSize) (index : Nat) :
    index * size % blockSize + size ≤ blockSize := by
  obtain ⟨n, hn⟩ := hdvd
  rw [hn, Nat.mul_comm size n, Nat.mul_mod_mul_right]
  have hpos : 0 < n := by
    refine Nat.pos_of_ne_zero fun hzero => ?_
    simp [hzero, blockSize] at hn
  calc index % n * size + size = (index % n + 1) * size := (Nat.succ_mul _ _).symm
    _ ≤ n * size := Nat.mul_le_mul_right size (Nat.mod_lt index hpos)

/-- Different records that start in one block of a table do not overlap. -/
theorem records_apart (hlt : index < index')
    (hblock : index * size / blockSize = index' * size / blockSize) :
    index * size % blockSize + size ≤ index' * size % blockSize := by
  have hstep : index * size + size ≤ index' * size := by
    rw [← Nat.succ_mul]
    exact Nat.mul_le_mul_right size hlt
  have hsum := Nat.div_add_mod (index * size) blockSize
  have hsum' := Nat.div_add_mod (index' * size) blockSize
  rw [← hblock] at hsum'
  omega

/-- Every block of a table starts with a record. -/
theorem exists_record_at (hdvd : size ∣ blockSize ∨ n * size ≤ blockSize)
    (hk : k * blockSize < n * size) : ∃ index < n, index * size = k * blockSize := by
  rcases hdvd with ⟨q, hq⟩ | hle
  · refine ⟨k * q, ?_, by rw [hq, Nat.mul_assoc, Nat.mul_comm q]⟩
    rw [hq, Nat.mul_comm size, ← Nat.mul_assoc] at hk
    exact Nat.lt_of_mul_lt_mul_right hk
  · have hzero : k = 0 := by
      by_contra hne
      have := Nat.le_mul_of_pos_left blockSize (Nat.pos_of_ne_zero hne)
      omega
    subst hzero
    refine ⟨0, Nat.pos_of_ne_zero fun hn => ?_, by simp⟩
    simp [hn] at hk

end Records

namespace SuperBlock

theorem groupInodes_le (es : SuperBlock) (group : Nat) :
    es.groupInodes group ≤ es.groupInodes 0 := by
  unfold groupInodes
  omega

/-- Each part of a usable geometry asks for its part of a regular superblock. -/
theorem Mounted.regular (h : es.Mounted) (hu : (es.info inodeTable).Usable) :
    es.Regular inodeTable := by
  have hbits := fun bit hbit => hu.bits bit ((h.usesBit_iff bit).mpr hbit)
  have hinodeBits : es.inodesPerGroup.toNat ≤ 8 * blockSize := by
    by_contra hgt
    exact absurd (hbits (8 * blockSize) (.inr (Nat.not_le.mp hgt))) (Nat.lt_irrefl _)
  have hblockBits : min es.dataBlocks es.blocksPerGroup.toNat ≤ 8 * blockSize := by
    by_contra hgt
    exact absurd (hbits (8 * blockSize) (.inl (Nat.not_le.mp hgt))) (Nat.lt_irrefl _)
  have hlocated : ∀ {group index}, index < es.groupInodes group → group < es.groups ∧
      index * es.recordSize % blockSize + es.recordSize ≤ blockSize := by
    intro group index hindex
    obtain ⟨block, offset, heq, hfit⟩ :=
      hu.located _ ((h.hasInode_iff _).mpr ⟨group, index, hindex, rfl⟩)
    rw [h.inodeLocation_eq hinodeBits hindex] at heq
    split_ifs at heq with hgroup
    cases heq
    exact ⟨Nat.not_le.mp hgroup, hfit⟩
  have hrecords : es.recordSize ∣ blockSize ∨ es.groupInodes 0 * es.recordSize ≤ blockSize := by
    by_contra hnot
    rw [not_or, Nat.not_le] at hnot
    -- the last record that starts in the first block would have to end there
    have hindex : blockSize / es.recordSize < es.groupInodes 0 :=
      Nat.div_lt_of_lt_mul (by rw [Nat.mul_comm]; exact hnot.2)
    have hfit := (hlocated hindex).2
    have hsum := Nat.div_add_mod' blockSize es.recordSize
    have hlt := Nat.mod_lt blockSize (Nat.lt_of_lt_of_le (by decide) h.size.1)
    rw [Nat.mod_eq_of_lt (by omega)] at hfit
    omega
  refine ⟨?_, ?_, hrecords, hblockBits, hinodeBits, ?_⟩
  · exact Nat.lt_of_le_of_lt hu.descriptors (Nat.mod_lt _ (by decide))
  · by_contra hgt
    have hlast : (es.info inodeTable).HasInode es.inodesCount.toNat := ⟨by omega, Nat.le_refl _⟩
    obtain ⟨group, index, hindex, heq⟩ := (h.hasInode_iff _).mp hlast
    have hmul := Nat.mul_le_mul_right es.inodesPerGroup.toNat (hlocated hindex).1
    rw [Nat.succ_mul] at hmul
    have hlt := (Nat.lt_min.mp hindex).1
    omega
  · intro group group' k k' hne hk hk' heq
    have hstart : ∀ {group k}, k * blockSize < es.groupInodes group * es.recordSize →
        ∃ index < es.groupInodes group, (es.info inodeTable).inodeLocation
          (group * es.inodesPerGroup.toNat + index + 1) =
            .ok (((inodeTable group).toNat + k) % uint32Modulus, 0) := by
      intro group k hk
      obtain ⟨index, hindex, hat⟩ := exists_record_at
        (hrecords.imp_right (Nat.mul_le_mul_right _ (es.groupInodes_le group)).trans) hk
      refine ⟨index, hindex, ?_⟩
      rw [h.inodeLocation_eq hinodeBits hindex, if_neg (Nat.not_le.mpr (hlocated hindex).1), hat,
        Nat.mul_div_cancel _ (by decide), Nat.mul_mod_left]
    obtain ⟨index, hindex, hloc⟩ := hstart hk
    obtain ⟨index', hindex', hloc'⟩ := hstart hk'
    rw [← heq] at hloc'
    have hino : group * es.inodesPerGroup.toNat + index + 1 ≠
        group' * es.inodesPerGroup.toNat + index' + 1 := by
      intro hsame
      refine hne ?_
      rw [← h.group_eq hindex, Nat.succ.inj hsame, h.group_eq hindex']
    have hsize := h.size.1
    rcases hu.apart _ _ _ 0 0 ((h.hasInode_iff _).mpr ⟨group, index, hindex, rfl⟩)
      ((h.hasInode_iff _).mpr ⟨group', index', hindex', rfl⟩) hino hloc hloc' with hle | hle
    · exact absurd hle (by dsimp only [info]; omega)
    · exact absurd hle (by dsimp only [info]; omega)

theorem Mounted.usable (h : es.Mounted) (hr : es.Regular inodeTable) :
    (es.info inodeTable).Usable := by
  have hsize : 0 < es.recordSize := Nat.lt_of_lt_of_le (by decide) h.size.1
  have hlocated : ∀ {group index}, index < es.groupInodes group →
      (es.info inodeTable).inodeLocation (group * es.inodesPerGroup.toNat + index + 1) =
        .ok (((inodeTable group).toNat + index * es.recordSize / blockSize) % uint32Modulus,
          index * es.recordSize % blockSize) := by
    intro group index hindex
    rw [h.inodeLocation_eq hr.inodeBits hindex, if_neg fun hge => ?_]
    have hmul := Nat.mul_le_mul_right es.inodesPerGroup.toNat hge
    have hinodes := hr.inodes
    have hlt := (Nat.lt_min.mp hindex).2
    omega
  refine ⟨rfl, ?_, fun ino hino => ?_, ?_, fun bit huse => ?_⟩
  · exact Nat.le_of_eq (Nat.mod_eq_of_lt hr.descriptors).symm
  · obtain ⟨group, index, hindex, rfl⟩ := (h.hasInode_iff ino).mp hino
    refine ⟨_, _, hlocated hindex, ?_⟩
    rcases hr.records with hdvd | hle
    · exact record_le hdvd index
    · have hmul := Nat.mul_le_mul_right es.recordSize
        (Nat.succ_le_of_lt (Nat.lt_of_lt_of_le hindex (es.groupInodes_le group)))
      rw [Nat.succ_mul] at hmul
      rw [Nat.mod_eq_of_lt (by omega)]
      exact hmul.trans hle
  · intro ino ino' block offset offset' hino hino' hne hloc hloc'
    obtain ⟨group, index, hindex, rfl⟩ := (h.hasInode_iff ino).mp hino
    obtain ⟨group', index', hindex', rfl⟩ := (h.hasInode_iff ino').mp hino'
    rw [hlocated hindex] at hloc
    rw [hlocated hindex'] at hloc'
    simp only [Except.ok.injEq, Prod.mk.injEq] at hloc hloc'
    obtain ⟨hblock, rfl⟩ := hloc
    obtain ⟨hblock', rfl⟩ := hloc'
    by_cases hgroup : group = group'
    · -- one table, which is too short to wrap
      subst hgroup
      have hshort : ∀ {index}, index < es.groupInodes group →
          index * es.recordSize / blockSize ≤ 8 * blockSize := by
        intro index hindex
        refine Nat.div_le_of_le_mul ?_
        rw [Nat.mul_comm]
        exact Nat.mul_le_mul h.size.2 ((Nat.lt_min.mp hindex).1.le.trans hr.inodeBits)
      have hsame : index * es.recordSize / blockSize = index' * es.recordSize / blockSize := by
        have hle := hshort hindex
        have hle' := hshort hindex'
        have heq := hblock.trans hblock'.symm
        generalize index * es.recordSize / blockSize = k at *
        generalize index' * es.recordSize / blockSize = k' at *
        simp only [uint32Modulus, blockSize] at heq hle hle'
        omega
      have hother : index ≠ index' := fun heq => hne (by rw [heq])
      rcases Nat.lt_or_gt_of_ne hother with hlt | hgt
      · exact .inl (records_apart hlt hsame)
      · exact .inr (records_apart hgt hsame.symm)
    · refine absurd (hblock.trans hblock'.symm) (hr.tables group group' _ _ hgroup ?_ ?_)
      · exact Nat.lt_of_le_of_lt (Nat.div_mul_le_self _ _) (Nat.mul_lt_mul_of_pos_right hindex hsize)
      · exact Nat.lt_of_le_of_lt (Nat.div_mul_le_self _ _) (Nat.mul_lt_mul_of_pos_right hindex' hsize)
  · rcases (h.usesBit_iff bit).mp huse with hbit | hbit
    · exact Nat.lt_of_lt_of_le hbit hr.blockBits
    · exact Nat.lt_of_lt_of_le hbit hr.inodeBits

end SuperBlock

/-- A mounted file system has a usable geometry exactly when the fields on disk fit each
other. -/
theorem usable_iff_regular (hmount : ext2ReadSuper es env inodeTable = .ok sbi) :
    sbi.Usable ↔ es.Regular inodeTable := by
  obtain ⟨h, rfl⟩ := mounted_of_readSuper hmount
  exact ⟨h.regular, h.usable⟩

/-- Memory and the device do not fail. -/
def calmEnv : MountEnv := ⟨fun _ => true, fun _ => true⟩

/-- One group of 1024 blocks with 64 inodes. -/
def smallSuper : SuperBlock where
  inodesCount := 64
  blocksCount := 1024
  firstDataBlock := 0
  logBlockSize := 2
  blocksPerGroup := 32768
  inodesPerGroup := 64
  magic := 0xef53
  revLevel := 1
  inodeSize := 128
  featureCompat := 0
  featureIncompat := 2
  featureRoCompat := 1

theorem usable_smallSuper : ext2ReadSuper smallSuper calmEnv (fun _ => 4) =
      .ok (smallSuper.info fun _ => 4) ∧ (smallSuper.info fun _ => 4).Usable := by
  have hmount : ext2ReadSuper smallSuper calmEnv (fun _ => 4) =
      .ok (smallSuper.info fun _ => 4) := rfl
  refine ⟨hmount, (usable_iff_regular hmount).mpr ⟨by decide, by decide, ?_, by decide, by decide,
    fun group group' k k' hne hk hk' => ?_⟩⟩
  · exact .inl ⟨32, rfl⟩
  · -- only the first group has inodes
    have hinodes : ∀ group, smallSuper.groupInodes group = min 64 (64 - group * 64) := fun _ => rfl
    rw [hinodes] at hk hk'
    rcases Nat.eq_zero_or_pos group with rfl | hpos
    · rw [Nat.sub_eq_zero_of_le (by omega)] at hk'
      exact absurd hk' (Nat.not_lt_zero _)
    · rw [Nat.sub_eq_zero_of_le (by omega)] at hk
      exact absurd hk (Nat.not_lt_zero _)

/-- Groups of 65536 blocks, and inodes of 3000 bytes. -/
def oddSuper : SuperBlock :=
  { smallSuper with blocksCount := 65536, blocksPerGroup := 65536, inodeSize := 3000 }

/-- The mount succeeds, inode 2 crosses the end of its block, and bit 32768 lies behind the
bitmap. -/
theorem oddSuper_not_usable : ∃ sbi, ext2ReadSuper oddSuper calmEnv (fun _ => 4) = .ok sbi ∧
    sbi.inodeLocation 2 = .ok (4, 3000) ∧ sbi.inodeSize = 3000 ∧ sbi.UsesBit 32768 ∧
      ¬ sbi.Usable := by
  have hbit : (oddSuper.info fun _ => 4).UsesBit 32768 :=
    @SuperInfo.UsesBit.allocBlock _ 0 _ (by decide) (by decide)
  refine ⟨oddSuper.info fun _ => 4, rfl, rfl, rfl, hbit, fun hu => ?_⟩
  exact absurd (hu.bits _ hbit) (by decide)

end CuteOS.Fs.Ext2
