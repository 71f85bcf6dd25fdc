/-
  Fs/Ext2/Evict.lean --- freeing an inode frees the blocks it owns.

  In a consistent system no two inodes own a block, and an inode whose `i_block[]`
  holds pointers owns the blocks that these lead to.  Every operation keeps a system
  consistent, except the freeing of an inode whose `i_block[]` holds something else:
  `ext2_evict_inode` then takes the words for block numbers.
-/
import CuteOS.Fs.Ext2.BlockMap

set_option autoImplicit false

namespace CuteOS.Fs.Ext2

open Volume (Quiet quiet_nextTick kmalloc InodeUsed BlockUsed)

/-! ## Inodes that hold pointers -/

/-- `i_block[]` holds block pointers: the inode is no device node and no symbolic link
with the target inside, which `ext2_readlink` recognises by `i_blocks == 0`. -/
def Inode.holdsPointers (inode : Inode) : Bool :=
  !inode.isDevice && !(inode.iType == .lnk && inode.iBlocks == 0)

/-- Only the inode and its blocks change.  Unlike what `Touches` says, it may give blocks
back. -/
structure Confined (fs : Volume) (inode : Inode) (fs' : Volume) (inode' : Inode) : Prop where
  sb : fs'.sb = fs.sb
  inodeBitmap : fs'.inodeBitmap = fs.inodeBitmap
  answers : fs'.io.answers = fs.io.answers
  ino : inode'.ino = inode.ino
  iType : inode'.iType = inode.iType
  keeps : ∀ b, fs.BlockUsed b → b ∉ inode.owned → fs'.BlockUsed b
  page : ∀ b, fs.BlockUsed b → b ∉ inode.owned → fs'.page b = fs.page b
  fresh : ∀ b ∈ inode'.owned, b ∈ inode.owned ∨ ¬ fs.BlockUsed b

variable {inode : Inode}
variable {inode' a : Inode}

theorem Touches.confined {fs fs' : Volume} (h : Touches fs inode fs' inode') :
    Confined fs inode fs' inode' :=
  ⟨h.sb, h.inodeBitmap, h.answers, h.ino, h.iType, fun b hb _ => h.keeps b hb, h.page, h.fresh⟩

/-- What an inode owns: the blocks its pointers lead to, or nothing. -/
structure Sound (fs : Volume) (inode : Inode) : Prop where
  mapped : inode.holdsPointers = true → Owns fs inode
  plain : inode.holdsPointers = false → inode.owned = []

namespace Sound

variable {fs fs' : Volume}

theorem used (h : Sound fs inode) (b : Nat) (hb : b ∈ inode.owned) : fs.BlockUsed b := by
  cases hholds : inode.holdsPointers with
  | true => exact (h.mapped hholds).used b hb
  | false =>
    rw [h.plain hholds] at hb
    cases hb

theorem congr (h : Sound fs inode) (hiType : inode'.iType = inode.iType)
    (hiBlocks : inode'.iBlocks = inode.iBlocks)
    (hiBlock : inode.isDevice = false → inode'.iBlock = inode.iBlock)
    (howned : inode'.owned = inode.owned)
    (hpage : ∀ b ∈ inode.owned, fs'.page b = fs.page b)
    (hused : ∀ b ∈ inode.owned, fs'.BlockUsed b) : Sound fs' inode' := by
  have hholds : inode'.holdsPointers = inode.holdsPointers := by
    rw [Inode.holdsPointers, Inode.holdsPointers, Inode.isDevice, Inode.isDevice, hiType, hiBlocks]
  constructor
  · intro htrue
    rw [hholds] at htrue
    have howns := h.mapped htrue
    have hdev : inode.isDevice = false := by
      rw [Inode.holdsPointers, Bool.and_eq_true, Bool.not_eq_true'] at htrue
      exact htrue.1
    exact howns.congr (hiBlock hdev) howned (fun n hn => hpage n (howns.inner_mem hn)) hused
  · intro hfalse
    rw [hholds] at hfalse
    rw [howned, h.plain hfalse]

theorem of_owns (h : Owns fs inode) (hholds : inode.holdsPointers = true) : Sound fs inode :=
  ⟨fun _ => h, fun hfalse => by simp [hholds] at hfalse⟩

theorem quiet (h : Sound fs inode) (hq : Quiet fs fs') : Sound fs' inode :=
  h.congr rfl rfl (fun _ => rfl) rfl (fun b _ => by rw [hq.page])
    fun b hb => (hq.blockUsed b).mpr (h.used b hb)

end Sound

theorem Inode.holdsPointers_of_dir (hdir : inode.iType = .dir) :
    inode.holdsPointers = true ∧ inode.isDevice = false := by
  rw [Inode.holdsPointers, Inode.isDevice, hdir]
  exact ⟨rfl, rfl⟩

theorem Inode.holdsPointers_of_isFile (hfile : inode.isFile = true) :
    inode.holdsPointers = true ∧ inode.isDevice = false := by
  cases htype : inode.iType <;>
    simp [Inode.isFile, Inode.holdsPointers, Inode.isDevice, htype] at hfile ⊢

/-! ## Operations on one inode -/

/-- The operation touches only the inode, and leaves it sound. -/
def Works (fs : Volume) (inode : Inode) (fs' : Volume) (inode' : Inode) : Prop :=
  Touches fs inode fs' inode' ∧ Sound fs' inode'

variable {ret : Except Errno Nat}

section InodeOps

variable {fs fs1 fs2 : Volume} {inode1 inode2 : Inode}

theorem Works.trans (h1 : Works fs inode fs1 inode1) (h2 : Works fs1 inode1 fs2 inode2) :
    Works fs inode fs2 inode2 :=
  ⟨h1.1.trans h2.1, h2.2⟩

theorem Works.refl (h : Sound fs inode) : Works fs inode fs inode := ⟨.refl fs inode, h⟩

/-- Fields that ownership does not depend on change. -/
theorem works_of_fields (h : Sound fs inode) (hino : inode1.ino = inode.ino)
    (hiType : inode1.iType = inode.iType) (hiBlocks : inode1.iBlocks = inode.iBlocks)
    (hiBlock : inode.isDevice = false → inode1.iBlock = inode.iBlock)
    (howned : inode1.owned = inode.owned) : Works fs inode fs inode1 := by
  refine ⟨⟨rfl, rfl, rfl, hino, hiType, fun _ hb => hb, fun _ _ _ => rfl, ?_, ?_⟩,
    h.congr hiType hiBlocks hiBlock howned (fun _ _ => rfl) h.used⟩
  · intro b hb
    rw [howned]
    exact hb
  · intro b hb
    rw [howned] at hb
    exact .inl hb

/-- What the calls do to one inode: they work on it alone, and take no block from a
file. -/
structure Serves (fs : Volume) (inode : Inode) (fs' : Volume) (inode' : Inode) : Prop where
  works : Works fs inode fs' inode'
  kept : inode.isFile = true → ∀ index, fs.blockAt inode index ≠ 0 →
    fs'.blockAt inode' index = fs.blockAt inode index

theorem Touches.isFile (h : Touches fs inode fs1 inode1) : inode1.isFile = inode.isFile := by
  rw [Inode.isFile, Inode.isFile, h.iType]

theorem Serves.trans (h1 : Serves fs inode fs1 inode1) (h2 : Serves fs1 inode1 fs2 inode2) :
    Serves fs inode fs2 inode2 := by
  refine ⟨h1.works.trans h2.works, fun hfile index hne => ?_⟩
  have hfirst := h1.kept hfile index hne
  rw [h2.kept (h1.works.1.isFile.trans hfile) index (hfirst ▸ hne), hfirst]

/-- Work on an inode that is no file. -/
theorem Works.serves (h : Works fs inode fs1 inode1) (hnot : inode.isFile = false) :
    Serves fs inode fs1 inode1 := by
  refine ⟨h, fun hfile => ?_⟩
  rw [hnot] at hfile
  cases hfile

theorem Serves.refl (h : Sound fs inode) : Serves fs inode fs inode :=
  ⟨.refl h, fun _ _ _ => rfl⟩

/-- Fields change that say nothing about blocks. -/
theorem serves_of_fields (h : Sound fs inode) (hino : inode1.ino = inode.ino)
    (hiType : inode1.iType = inode.iType) (hiBlocks : inode1.iBlocks = inode.iBlocks)
    (hiBlock : inode1.iBlock = inode.iBlock) (howned : inode1.owned = inode.owned) :
    Serves fs inode fs inode1 :=
  ⟨works_of_fields h hino hiType hiBlocks (fun _ => hiBlock) howned,
    fun _ index _ => blockAt_congr hiBlock (fun _ _ => rfl) index⟩

theorem serves_ext2WriteInode (h : Sound fs inode) :
    Serves fs inode (ext2WriteInode fs inode).2.1 (ext2WriteInode fs inode).2.2 := by
  have hquiet := quiet_ext2WriteInode fs inode
  have hfields : Works fs inode fs (ext2WriteInode fs inode).2.2 := by
    rw [ext2WriteInode_inode_eq]
    split_ifs with hdev
    · refine works_of_fields h rfl rfl rfl ?_ rfl
      intro hnot
      rw [hdev] at hnot
      cases hnot
    · exact .refl h
  refine ⟨hfields.trans ⟨.of_quiet hquiet _, hfields.2.quiet hquiet⟩, fun hfile index _ => ?_⟩
  rw [ext2WriteInode_inode fs inode (Inode.holdsPointers_of_isFile hfile).2]
  exact hquiet.blockAt inode index

theorem serves_setNlink (count : Nat → Nat) (h : Sound fs inode) :
    Serves fs inode (setNlink count fs inode).2.1 (setNlink count fs inode).2.2 :=
  serves_of_fields h rfl rfl rfl rfl rfl

/-- Change a size and write the inode. -/
theorem serves_resize (h : Sound fs inode) (iSize : Nat) :
    Serves fs inode (ext2WriteInode fs { inode with iSize := iSize }).2.1
      (ext2WriteInode fs { inode with iSize := iSize }).2.2 := by
  have hfields : Serves fs inode fs { inode with iSize := iSize } :=
    serves_of_fields h rfl rfl rfl rfl rfl
  exact hfields.trans (serves_ext2WriteInode hfields.works.2)

/-- What is left to do after the blocks have been settled: a block of data is filled. -/
theorem storePage_spec (h : Owns fs inode) {block : Nat} (hleaf : block ∈ fs.inodeLeaves inode)
    (bytes : Nat → UInt8) :
    Owns (storePage fs block bytes).2 inode ∧
      Touches fs inode (storePage fs block bytes).2 inode := by
  obtain ⟨howns, htouch⟩ := h.setPage_leaf hleaf bytes
  have hquiet : Quiet (fs.setPage block bytes) (storePage fs block bytes).2 := by
    unfold storePage Volume.pageCacheSyncPage
    cases (fs.setPage block bytes).io.syncOk (fs.setPage block bytes).io.tick with
    | false | true => exact quiet_nextTick _
  exact ⟨howns.quiet hquiet, htouch.trans (.of_quiet hquiet inode)⟩

theorem ext2NewBlock_spec (h : Owns fs inode) (hio : fs.PagesAvailable)
    (hdev : inode.isDevice = false) (block : Nat) (bytes : Nat → UInt8) :
    Touches fs inode (ext2NewBlock block bytes fs inode).2.1
        (ext2NewBlock block bytes fs inode).2.2 ∧
      Owns (ext2NewBlock block bytes fs inode).2.1 (ext2NewBlock block bytes fs inode).2.2 ∧
      (ext2NewBlock block bytes fs inode).2.2 = (ext2Bmap fs inode block true).2.2 := by
  unfold ext2NewBlock
  generalize hrun : ext2Bmap fs inode block true = r
  obtain ⟨ret, fs1, inode1⟩ := r
  obtain ⟨hmaps, hblock⟩ := ext2Bmap_maps h hio hdev hrun
  cases ret with
  | error e => exact ⟨hmaps.toTouches, hmaps.owns, rfl⟩
  | ok b =>
    cases b with
    | zero => exact ⟨hmaps.toTouches, hmaps.owns, rfl⟩
    | succ b =>
      have hquiet := quiet_nextTick fs1
      have htouch := hmaps.toTouches.trans (.of_quiet hquiet inode1)
      have howns := hmaps.owns.quiet hquiet
      have hleaf := mem_leaves_of_blockAt (hblock _ rfl) (Nat.succ_ne_zero b)
      dsimp only [kmalloc]
      cases fs1.io.memOk fs1.io.tick with
      | false => exact ⟨htouch, howns, rfl⟩
      | true =>
        obtain ⟨howns2, htouch2⟩ := storePage_spec howns hleaf bytes
        exact ⟨htouch.trans htouch2, howns2, rfl⟩

section

variable (h : Sound fs inode)
include h

theorem works_ext2ChangeBlock (hholds : inode.holdsPointers = true)
    (lblock : Nat) (bytes : Nat → UInt8) :
    Works fs inode (ext2ChangeBlock lblock bytes fs inode).2.1
      (ext2ChangeBlock lblock bytes fs inode).2.2 := by
  unfold ext2ChangeBlock
  have hquiet := quiet_ext2BmapReadonly fs inode lblock
  have hblock := @ext2BmapReadonly_block lblock fs inode
  generalize ext2BmapReadonly fs inode lblock = r at hquiet hblock ⊢
  obtain ⟨b, fs1⟩ := r
  have htouch : Touches fs inode fs1 inode := .of_quiet hquiet inode
  cases b with
  | zero => exact ⟨htouch, h.quiet hquiet⟩
  | succ b =>
    have howns := (h.mapped hholds).quiet hquiet
    have hleaf1 : b + 1 ∈ fs1.inodeLeaves inode := by
      have hsame : fs1.inodeLeaves inode = fs.inodeLeaves inode :=
        (Lib.PtrTree.root_congr fun n _ i _ => word_congr (congrFun hquiet.page n) i).2.2
      rw [hsame]
      exact mem_leaves_of_blockAt (hblock (Nat.succ_ne_zero b)).symm (Nat.succ_ne_zero b)
    obtain ⟨howns2, htouch2⟩ := storePage_spec howns hleaf1 bytes
    exact ⟨htouch.trans htouch2, .of_owns howns2 hholds⟩

/-- A new block of an inode that holds pointers for good, by its type. -/
theorem works_ext2NewBlock (hio : fs.PagesAvailable)
    (hdir : inode.iType = .dir) (block : Nat) (bytes : Nat → UInt8) :
    Works fs inode (ext2NewBlock block bytes fs inode).2.1
      (ext2NewBlock block bytes fs inode).2.2 := by
  obtain ⟨hholds, hdev⟩ := Inode.holdsPointers_of_dir hdir
  obtain ⟨htouch, howns, -⟩ := ext2NewBlock_spec (h.mapped hholds) hio hdev block bytes
  exact ⟨htouch, .of_owns howns (Inode.holdsPointers_of_dir (htouch.iType.trans hdir)).1⟩

theorem works_ext2AddEntry (hio : fs.PagesAvailable)
    (hdir : inode.iType = .dir) (scan : EntryScan) :
    Works fs inode (ext2AddEntry scan fs inode).2.1 (ext2AddEntry scan fs inode).2.2 := by
  cases scan with
  | found | unreadable => exact .refl h
  | room lblock bytes =>
    exact works_ext2ChangeBlock h (Inode.holdsPointers_of_dir hdir).1 lblock bytes
  | full bytes =>
    unfold ext2AddEntry
    dsimp only
    have hnew := works_ext2NewBlock h hio hdir ((inode.iSize + blockSize - 1) / blockSize) bytes
    generalize ext2NewBlock _ bytes fs inode = r at hnew ⊢
    obtain ⟨ret, fs1, inode1⟩ := r
    cases ret with
    | error e => exact hnew
    | ok u => exact hnew.trans (serves_resize hnew.2 _).works

theorem works_ext2DeleteEntry (hdir : inode.iType = .dir) (entry : Option (Nat × (Nat → UInt8))) :
    Works fs inode (ext2DeleteEntry entry fs inode).2.1 (ext2DeleteEntry entry fs inode).2.2 := by
  cases entry with
  | none => exact .refl h
  | some place => exact works_ext2ChangeBlock h (Inode.holdsPointers_of_dir hdir).1 place.1 place.2

theorem works_ext2MakeEmptyDir (hio : fs.PagesAvailable)
    (hdir : inode.iType = .dir) (bytes : Nat → UInt8) :
    Works fs inode (ext2MakeEmptyDir bytes fs inode).2.1 (ext2MakeEmptyDir bytes fs inode).2.2 := by
  unfold ext2MakeEmptyDir
  have hnew := works_ext2NewBlock h hio hdir 0 bytes
  generalize ext2NewBlock 0 bytes fs inode = r at hnew ⊢
  obtain ⟨ret, fs1, inode1⟩ := r
  cases ret with
  | error e => exact hnew
  | ok u => exact hnew.trans (serves_resize hnew.2 _).works

end

/-- A new symbolic link: either the target is inside and no block is owned, or the
first block makes `i_blocks` positive. -/
theorem works_storeTarget (hio : fs.PagesAvailable) (hlnk : inode.iType = .lnk)
    (hiBlocks : inode.iBlocks = 0) (hiBlock : ∀ i, inode.iBlock i = 0)
    (howned : inode.owned = []) (target : List UInt8) :
    Works fs inode (storeTarget target fs inode).2.1 (storeTarget target fs inode).2.2 := by
  have hdev : inode.isDevice = false := by
    rw [Inode.isDevice, hlnk]
    rfl
  unfold storeTarget
  split_ifs
  · refine ⟨⟨rfl, rfl, rfl, rfl, rfl, fun _ hb => hb, fun _ _ _ => rfl, fun _ hb => hb,
      fun _ => .inl⟩, fun htrue => ?_, fun _ => howned⟩
    rw [Inode.holdsPointers, hlnk, hiBlocks, Bool.and_eq_true] at htrue
    cases htrue.2
  · have hempty := Owns.empty fs hiBlock howned
    obtain ⟨htouch, howns, hinode⟩ := ext2NewBlock_spec hempty hio hdev 0
      (fun off => target.getD off 0)
    refine ⟨htouch, fun _ => howns, fun hfalse => ?_⟩
    generalize hrun : ext2BmapSlot fs inode 0 true = r
    obtain ⟨ret, fs1, inode1⟩ := r
    have hblocks : inode1.owned = inode.owned ∨
        inode1.iBlocks = (inode.iBlocks + 8) % uint32Modulus := by
      rcases ext2BmapSlot_cases hio hdev hrun with ⟨-, rfl, -⟩ | ⟨block, fs2, -, -, -, -, rfl, -⟩
      · exact .inl rfl
      · exact .inr rfl
    have hbmap : ext2Bmap fs inode 0 true = (ret, fs1, inode1) := hrun
    rw [hbmap] at hinode
    rw [hinode] at hfalse ⊢
    rcases hblocks with hsame | hgrown
    · rw [hsame, howned]
    · rw [hiBlocks] at hgrown
      rw [Inode.holdsPointers, ← Bool.not_eq_true, Bool.and_eq_true, not_and] at hfalse
      exfalso
      have hdev1 : inode1.isDevice = false := by
        have hiType : inode1.iType = inode.iType := by
          rw [← htouch.iType, hinode]
        rw [Inode.isDevice, hiType]
        exact hdev
      refine hfalse (by rw [hdev1]; rfl) ?_
      rw [hgrown, Bool.not_eq_true', Bool.and_eq_false_iff]
      exact .inr rfl

/-! ### Work on files -/

variable {index : Nat}

theorem serves_pageCacheGetMapping (h : Sound fs inode) (hio : fs.PagesAvailable)
    (hfile : inode.isFile = true) (hrun : pageCacheGetMapping index fs inode = (ret, fs2, inode2)) :
    Serves fs inode fs2 inode2 ∧ ∀ b, ret = .ok b → b ≠ 0 ∧ fs2.blockAt inode2 index = b := by
  obtain ⟨hholds, hdev⟩ := Inode.holdsPointers_of_isFile hfile
  rcases pageCacheGetMapping_cases (h.mapped hholds) hio hdev hrun with
    ⟨⟨e, rfl⟩, rfl, rfl⟩ | ⟨fs1, hmaps, hquiet, hblock⟩
  · exact ⟨.refl h, fun b hb => by cases hb⟩
  refine ⟨⟨⟨hmaps.toTouches.trans (.of_quiet hquiet inode2), .of_owns (hmaps.owns.quiet hquiet)
    (Inode.holdsPointers_of_isFile (hmaps.toTouches.isFile.trans hfile)).1⟩, fun _ j hne => ?_⟩,
    hblock⟩
  rw [hquiet.blockAt]
  by_cases hj : j = index
  · subst hj
    exact hmaps.here.resolve_right fun hhole => hne hhole.1
  · exact hmaps.other j hj

/-- Bytes are stored in a block of a file. -/
theorem serves_setPage (h : Sound fs inode) (hfile : inode.isFile = true)
    (hne : fs.blockAt inode index ≠ 0) (bytes : Nat → UInt8) :
    Serves fs inode (fs.setPage (fs.blockAt inode index) bytes) inode := by
  have hholds := (Inode.holdsPointers_of_isFile hfile).1
  have howns := h.mapped hholds
  have hleaf := blockAt_mem_leaves hne
  obtain ⟨howns1, htouch⟩ := howns.setPage_leaf hleaf bytes
  exact ⟨⟨htouch, .of_owns howns1 hholds⟩, fun _ j _ => howns.blockAt_setPage hleaf bytes j⟩

theorem serves_ext2WriteLoop (buf : Nat → UInt8) (count pos fuel done : Nat)
    (h : Sound fs inode) (hio : fs.PagesAvailable) (hfile : inode.isFile = true) :
    Serves fs inode (ext2WriteLoop buf count pos fuel done fs inode).2.1
      (ext2WriteLoop buf count pos fuel done fs inode).2.2 := by
  induction fuel generalizing done fs inode with
  | zero => exact .refl h
  | succ fuel ih =>
    rw [ext2WriteLoop]
    by_cases hmore : done < count
    · rw [if_pos hmore]
      generalize hget : pageCacheGetMapping ((pos + done) / blockSize) fs inode = r
      obtain ⟨ret, fs1, inode1⟩ := r
      obtain ⟨hserves, hblock⟩ := serves_pageCacheGetMapping h hio hfile hget
      cases ret with
      | error e => exact hserves
      | ok pblock =>
        obtain ⟨hne, rfl⟩ := hblock pblock rfl
        have hfile1 := hserves.works.1.isFile.trans hfile
        have hstored := fun bytes =>
          hserves.trans (serves_setPage hserves.works.2 hfile1 hne bytes)
        exact (hstored _).trans
          (ih _ (hstored _).works.2 ((hstored _).works.1.pagesAvailable hio) hfile1)
    · rw [if_neg hmore]
      by_cases hgrow : pos + done > inode.iSize
      · rw [if_pos hgrow]
        have hwrite := serves_resize h (pos + done)
        generalize ext2WriteInode fs _ = r at hwrite ⊢
        obtain ⟨ret, fs1, inode1⟩ := r
        cases ret with
        | error | ok => exact hwrite
      · rw [if_neg hgrow]
        exact .refl h

theorem serves_ext2WriteFile (h : Sound fs inode) (hio : fs.PagesAvailable)
    (buf : Nat → UInt8) (count pos : Nat) :
    Serves fs inode (ext2WriteFile buf count pos fs inode).2.1
      (ext2WriteFile buf count pos fs inode).2.2 := by
  unfold ext2WriteFile
  cases hfile : inode.isFile with
  | false => exact .refl h
  | true =>
    by_cases hpos : pos ≥ ext2MaxFileSize
    · rw [if_pos hpos]
      exact .refl h
    · rw [if_neg hpos]
      exact serves_ext2WriteLoop buf _ pos _ 0 h hio hfile

end InodeOps

/-! ## Consistent systems -/

/-- Every inode is sound, and no two of them own a block. -/
structure Consistent (s : System) : Prop where
  sound : ∀ ino inode, s.inodes ino = some inode → Sound s.fs inode
  disjoint : ∀ i j a b, i ≠ j → s.inodes i = some a → s.inodes j = some b →
    ∀ x ∈ a.owned, x ∉ b.owned
  number : ∀ ino inode, s.inodes ino = some inode → inode.ino = ino
  bit : ∀ ino inode, s.inodes ino = some inode → s.fs.InodeUsed ino

/-- The freed blocks are the blocks that the inode owned. -/
def Eviction.Exact (e : Eviction) : Prop :=
  ∀ b, (e.before.BlockUsed b ∧ ¬ e.after.BlockUsed b) ↔ b ∈ e.inode.owned

/-- The words of `i_block[]` are pointers, or name no block in use. -/
def Eviction.Ok (e : Eviction) : Prop :=
  e.inode.holdsPointers = true ∨
    ∀ b ∈ e.before.inodeBlocks e.inode, ¬ e.before.BlockUsed b

def AllOk (evictions : List Eviction) : Prop := ∀ e ∈ evictions, e.Ok

theorem setInode_self (s : System) (ino : Nat) (inode : Option Inode) :
    (s.setInode ino inode).inodes ino = inode :=
  Function.update_self ..

variable {i ino : Nat}

theorem setInode_ne (s : System) (hne : i ≠ ino) (inode : Option Inode) :
    (s.setInode ino inode).inodes i = s.inodes i :=
  Function.update_of_ne hne ..

namespace Consistent

variable {s s' : System}

/-- An inode of `s` has kept its blocks and its bit in the volume `fs'`. -/
def Spared (fs fs' : Volume) (ino : Nat) (inode : Inode) : Prop :=
  fs'.InodeUsed ino ∧ ∀ b ∈ inode.owned, fs'.page b = fs.page b ∧ fs'.BlockUsed b

variable (h : Consistent s)
include h

/-- Every inode was spared, except for `ino`, which may have become a sound inode that
owns no block of another. -/
theorem change (ino : Nat)
    (hcases : ∀ i a, s'.inodes i = some a → (s.inodes i = some a ∧ Spared s.fs s'.fs i a) ∨
      i = ino ∧ Sound s'.fs a ∧ a.ino = ino ∧ s'.fs.InodeUsed ino ∧
        ∀ j other, j ≠ ino → s.inodes j = some other → ∀ x ∈ other.owned, x ∉ a.owned) :
    Consistent s' := by
  refine ⟨fun i a ha => ?_, fun i j a b hij ha hb x hx hxb => ?_, fun i a ha => ?_,
    fun i a ha => ?_⟩
  · rcases hcases i a ha with ⟨hold, -, hkept⟩ | ⟨-, hsound, -⟩
    · exact (h.sound i a hold).congr rfl rfl (fun _ => rfl) rfl (fun b hb => (hkept b hb).1)
        fun b hb => (hkept b hb).2
    · exact hsound
  · rcases hcases i a ha with ⟨holdA, -⟩ | ⟨hi, -, -, -, hapartA⟩
    · rcases hcases j b hb with ⟨holdB, -⟩ | ⟨hj, -, -, -, hapartB⟩
      · exact h.disjoint i j a b hij holdA holdB x hx hxb
      · exact hapartB i a (fun heq => hij (heq.trans hj.symm)) holdA x hx hxb
    · rcases hcases j b hb with ⟨holdB, -⟩ | ⟨hj, -⟩
      · exact hapartA j b (fun heq => hij (hi.trans heq.symm)) holdB x hxb hx
      · exact hij (hi.trans hj.symm)
  · rcases hcases i a ha with ⟨hold, -⟩ | ⟨hi, -, hino, -⟩
    · exact h.number i a hold
    · rw [hino, hi]
  · rcases hcases i a ha with ⟨-, hbit, -⟩ | ⟨hi, -, -, hbit, -⟩
    · exact hbit
    · rw [hi]
      exact hbit

theorem put {fs' : Volume} (hinode : s.inodes ino = some inode)
    (hconf : Confined s.fs inode fs' inode') (hsound : Sound fs' inode') :
    Consistent ({ s with fs := fs' }.setInode ino (some inode')) := by
  have hbit : ∀ i a, s.inodes i = some a → fs'.InodeUsed i := by
    intro i a ha
    rw [InodeUsed, hconf.sb, hconf.inodeBitmap]
    exact h.bit i a ha
  refine h.change ino fun i a ha => ?_
  by_cases hne : i = ino
  · rw [hne, setInode_self] at ha
    cases ha
    refine .inr ⟨hne, hsound, hconf.ino.trans (h.number ino inode hinode), hbit ino inode hinode,
      fun j other hj hother x hx hmem => ?_⟩
    rcases hconf.fresh x hmem with hold | hunused
    · exact h.disjoint j ino other inode hj hother hinode x hx hold
    · exact hunused ((h.sound j other hother).used x hx)
  · rw [setInode_ne _ hne] at ha
    refine .inl ⟨ha, hbit i a ha, fun b hb => ?_⟩
    have hused := (h.sound i a ha).used b hb
    have hapart := h.disjoint i ino a inode hne ha hinode b hb
    exact ⟨hconf.page b hused hapart, hconf.keeps b hused hapart⟩

/-- The volume changes, and all inodes are spared. -/
theorem of_spared
    (hkept : ∀ i a, s'.inodes i = some a → s.inodes i = some a ∧ Spared s.fs s'.fs i a) :
    Consistent s' :=
  h.change 0 fun i a ha => .inl (hkept i a ha)

end Consistent

/-! ## Freeing one inode -/

variable {s s' : System}

section Evicting

variable {fs : Volume}

/-- The eviction of `inode`. -/
def evictionOf (fs : Volume) (inode : Inode) : Eviction :=
  ⟨fs, inode, (ext2FreeInodeBlocks fs inode).1⟩

/-- Freeing a sound inode is exact when its words are pointers, and otherwise just when
they name no block in use. -/
theorem evictionOf_exact_iff (h : Sound fs inode) (hio : fs.PagesAvailable) :
    (evictionOf fs inode).Exact ↔ (evictionOf fs inode).Ok := by
  have hfreed := freed_ext2FreeInodeBlocks hio inode
  have hgone : ∀ b, (fs.BlockUsed b ∧ ¬ (ext2FreeInodeBlocks fs inode).1.BlockUsed b) ↔
      fs.BlockUsed b ∧ b ∈ fs.inodeBlocks inode := by
    intro b
    rw [hfreed.used, not_and, not_not]
    exact ⟨fun hb => ⟨hb.1, hb.2 hb.1⟩, fun hb => ⟨hb.1, fun _ => hb.2⟩⟩
  cases hholds : inode.holdsPointers with
  | true =>
    have howns := h.mapped hholds
    refine iff_of_true (fun b => ?_) (.inl hholds)
    refine (hgone b).trans ?_
    rw [howns.mem_iff]
    exact ⟨fun hb => hb.2, fun hb => ⟨howns.used b hb, hb⟩⟩
  | false =>
    have hnone := h.plain hholds
    constructor
    · intro hexact
      refine .inr fun b hb hused => ?_
      have hmem := (hexact b).mp ((hgone b).mpr ⟨hused, hb⟩)
      change b ∈ inode.owned at hmem
      rw [hnone] at hmem
      cases hmem
    · rintro (hyes | hunused) b
      · exact absurd (hholds.symm.trans hyes) Bool.false_ne_true
      · change _ ↔ b ∈ inode.owned
        rw [hnone]
        refine (hgone b).trans ⟨fun hb => ?_, fun hb => by cases hb⟩
        exact absurd hb.1 (hunused b hb.2)

/-- What the forgetting of an inode does: the inode goes, and with `i_nlink == 0` also its
bit and the blocks that its words lead to. -/
structure Forgets (ino : Nat) (s s' : System) : Prop where
  inodes : s'.inodes = Function.update s.inodes ino none
  sb : s'.fs.sb = s.fs.sb
  page : s'.fs.page = s.fs.page
  answers : s'.fs.io.answers = s.fs.io.answers
  bits : ∀ i, i ≠ ino → s.fs.InodeUsed i → s'.fs.InodeUsed i
  keeps : ∀ b, s.fs.BlockUsed b → (∀ inode, s.inodes ino = some inode → inode.iNlink = 0 →
    b ∉ s.fs.inodeBlocks inode) → s'.fs.BlockUsed b

theorem forgets_inodeForget (h : Consistent s) (hio : s.fs.PagesAvailable)
    (ino : Nat) : Forgets ino s (inodeForget s ino) := by
  cases hinode : s.inodes ino with
  | none =>
    rw [inodeForget, hinode]
    refine ⟨?_, rfl, rfl, rfl, fun _ _ => id, fun _ hb _ => hb⟩
    exact (Function.update_eq_self_iff.mpr hinode.symm).symm
  | some inode =>
    rw [inodeForget, hinode]
    dsimp only
    rw [ext2EvictInode]
    split_ifs with hnlink
    · have hfreed := freed_ext2FreeInodeBlocks hio inode
      have hbits := inodeFreed_ext2FreeInode (ext2FreeInodeBlocks s.fs inode).1 inode.ino
      refine ⟨rfl, hbits.sb.trans hfreed.sb, hbits.page.trans hfreed.page,
        hbits.answers.trans hfreed.answers, fun i hne hi => ?_, fun b hb hnot => ?_⟩
      · refine hbits.keeps i (by rw [h.number ino inode hinode]; exact hne) ?_
        rw [InodeUsed, hfreed.sb, hfreed.inodeBitmap]
        exact hi
      · change (ext2FreeInode (ext2FreeInodeBlocks s.fs inode).1 inode.ino).BlockUsed b
        rw [BlockUsed, hbits.sb, hbits.blockBitmap]
        exact (hfreed.used b).mpr ⟨hb, hnot inode hinode hnlink⟩
    · exact ⟨rfl, rfl, rfl, rfl, fun _ _ => id, fun _ hb _ => hb⟩

theorem Forgets.inode_of (h : Forgets ino s s') (ha : s'.inodes i = some a) :
    i ≠ ino ∧ s.inodes i = some a := by
  rw [h.inodes, Function.update_apply] at ha
  split_ifs at ha with hne
  exact ⟨hne, ha⟩

/-- The record gets the inode that is freed. -/
theorem evictions_inodeForget (s : System) (ino : Nat) :
    (inodeForget s ino).evictions = s.evictions ∧
        (∀ inode, s.inodes ino = some inode → inode.iNlink ≠ 0) ∨
      ∃ inode, s.inodes ino = some inode ∧
        (inodeForget s ino).evictions = evictionOf s.fs inode :: s.evictions := by
  cases hinode : s.inodes ino with
  | none =>
    rw [inodeForget, hinode]
    exact .inl ⟨rfl, fun inode hsome => by cases hsome⟩
  | some inode =>
    rw [inodeForget, hinode]
    dsimp only
    rw [ext2EvictInode]
    split_ifs with hnlink
    · exact .inr ⟨inode, rfl, rfl⟩
    · refine .inl ⟨rfl, fun inode' hsome => ?_⟩
      cases hsome
      exact hnlink

/-- An inode that is fit to be freed goes. -/
theorem Forgets.consistent (h : Forgets ino s s') (hs : Consistent s)
    (hok : ∀ inode, s.inodes ino = some inode → inode.iNlink = 0 → (evictionOf s.fs inode).Ok) :
    Consistent s' := by
  refine hs.of_spared fun i a ha => ?_
  obtain ⟨hne, ha⟩ := h.inode_of ha
  refine ⟨ha, h.bits i hne (hs.bit i a ha), fun b hb => ⟨congrFun h.page b, ?_⟩⟩
  have hused := (hs.sound i a ha).used b hb
  refine h.keeps b hused fun inode hinode hnlink hmem => ?_
  rcases hok inode hinode hnlink with hholds | hunused
  · rw [((hs.sound ino inode hinode).mapped hholds).mem_iff] at hmem
    exact hs.disjoint i ino a inode hne ha hinode b hb hmem
  · exact hunused b hmem hused

end Evicting

/-! ## Whole calls -/

/-- As long as every inode freed so far was fit to be freed, the system is consistent;
and each freeing was judged rightly by `Eviction.Ok` if the ones before it were fit. -/
structure Inv (s : System) : Prop where
  good : AllOk s.evictions → Consistent s ∧ s.fs.PagesAvailable
  judged : ∀ newer e older, s.evictions = newer ++ e :: older → AllOk older →
    (e.Exact ↔ e.Ok)

variable {α : Type}

namespace Inv

theorem step (h : Inv s) (hlog : s'.evictions = s.evictions)
    (hstep : Consistent s → s.fs.PagesAvailable → Consistent s' ∧ s'.fs.PagesAvailable) :
    Inv s' where
  good hok := by
    rw [hlog] at hok
    obtain ⟨hcons, hio⟩ := h.good hok
    exact hstep hcons hio
  judged := by
    rw [hlog]
    exact h.judged

theorem onInode (h : Inv s) (ino : Nat) {op : InodeOp α}
    (hop : AllOk s.evictions → ∀ inode, s.inodes ino = some inode → Consistent s →
      s.fs.PagesAvailable → Confined s.fs inode (op s.fs inode).2.1 (op s.fs inode).2.2 ∧
        Sound (op s.fs inode).2.1 (op s.fs inode).2.2) :
    Inv (s.onInode ino op).2 := by
  unfold System.onInode
  cases hinode : s.inodes ino with
  | none => exact h
  | some inode =>
    refine ⟨fun hok => ?_, h.judged⟩
    obtain ⟨hcons, hio⟩ := h.good hok
    obtain ⟨hconf, hsound⟩ := hop hok inode hinode hcons hio
    exact ⟨hcons.put hinode hconf hsound, hio.of_answers hconf.answers⟩

/-- The one step that adds to the record. -/
theorem forget (h : Inv s) (ino : Nat) : Inv (inodeForget s ino) := by
  rcases evictions_inodeForget s ino with ⟨hlog, hnlink⟩ | ⟨inode, hinode, hlog⟩
  · refine h.step hlog fun hcons hio => ?_
    have hforgets := forgets_inodeForget hcons hio ino
    exact ⟨hforgets.consistent hcons fun a ha hzero => absurd hzero (hnlink a ha),
      hio.of_answers hforgets.answers⟩
  · constructor
    · intro hok
      rw [hlog] at hok
      obtain ⟨hcons, hio⟩ := h.good fun e he => hok e (List.mem_cons_of_mem _ he)
      have hforgets := forgets_inodeForget hcons hio ino
      refine ⟨hforgets.consistent hcons fun a ha _ => ?_, hio.of_answers hforgets.answers⟩
      rw [hinode] at ha
      cases ha
      exact hok _ List.mem_cons_self
    · intro newer e older hsplit hold
      rw [hlog] at hsplit
      cases newer with
      | nil =>
        cases hsplit
        obtain ⟨hcons, hio⟩ := h.good hold
        exact evictionOf_exact_iff (hcons.sound ino inode hinode) hio
      | cons head newer =>
        rw [List.cons_append, List.cons.injEq] at hsplit
        exact h.judged newer e older hsplit.2 hold

end Inv

theorem quiet_igetResources (fs : Volume) : Quiet fs (igetResources fs).2 := by
  have hone := quiet_nextTick fs
  have htwo := hone.trans (quiet_nextTick _)
  dsimp only [igetResources, kmalloc, Volume.pageCacheGetBlock]
  cases fs.io.memOk fs.io.tick with
  | false => exact hone
  | true =>
    dsimp only
    cases fs.nextTick.io.memOk fs.nextTick.io.tick with
    | false => exact htwo
    | true => exact htwo.trans (quiet_nextTick _)

/-- The inode that `ext2_create`, `ext2_symlink` and `ext2_mkdir` begin with. -/
def freshInode (ino : Nat) (iType : FileType) (iNlink iSize : Nat) (owned : List Nat) : Inode :=
  { ino := ino, iType := iType, iNlink := iNlink, iSize := iSize, iBlocks := 0, iRdev := 0,
    iBlock := fun _ => 0, owned := owned }

/-- What the making of an inode does, successful or not: no block is touched, the
number is one that was free, and no bit of another inode is lost. -/
structure MakesInode (iType : FileType) (iNlink iSize : Nat) (s : System)
    (ret : Except Errno Nat) (s' : System) : Prop where
  evictions : s'.evictions = s.evictions
  sb : s'.fs.sb = s.fs.sb
  page : s'.fs.page = s.fs.page
  blockUsed : ∀ b, s'.fs.BlockUsed b ↔ s.fs.BlockUsed b
  answers : s'.fs.io.answers = s.fs.io.answers
  bits : ∀ i, s.fs.InodeUsed i → s'.fs.InodeUsed i
  failed : ∀ e, ret = .error e → s'.inodes = s.inodes
  located : ∀ ino, ret = .ok ino → ext2InodeLocation s.fs ino = .ok ()
  made : ∀ ino, ret = .ok ino → ¬ s.fs.InodeUsed ino ∧ s'.fs.InodeUsed ino ∧
    s'.inodes = Function.update s.inodes ino (some (freshInode ino iType iNlink iSize
      (match s.inodes ino with | none => [] | some old => old.owned)))

variable {iType : FileType} {iNlink iSize : Nat}

theorem makesInode_ext2NewInode (hrun : ext2NewInode s iType iNlink iSize = (ret, s')) :
    MakesInode iType iNlink iSize s ret s' := by
  unfold ext2NewInode at hrun
  have htaken : InodeTaken s.fs (ext2AllocInode s.fs (iType == .dir)).1
      (ext2AllocInode s.fs (iType == .dir)).2 := inodeTaken_ext2AllocInode _
  generalize ext2AllocInode s.fs (iType == .dir) = r at hrun htaken
  obtain ⟨ino, fs1⟩ := r
  have hblock : ∀ b, fs1.BlockUsed b ↔ s.fs.BlockUsed b := by
    intro b
    rw [BlockUsed, BlockUsed, htaken.sb, htaken.blockBitmap]
  cases ino with
  | zero =>
    cases hrun
    exact ⟨rfl, htaken.sb, htaken.page, hblock, htaken.answers, htaken.keeps, fun _ _ => rfl,
      (fun ino hret => by cases hret), fun ino hret => by cases hret⟩
  | succ ino =>
    dsimp only at hrun
    have hquiet := quiet_igetResources fs1
    generalize igetResources fs1 = r at hrun hquiet
    obtain ⟨ok, fs2⟩ := r
    obtain ⟨hunused, hnow⟩ := htaken.fresh (Nat.succ_ne_zero ino)
    have hbits : ∀ i, s.fs.InodeUsed i → fs2.InodeUsed i :=
      fun i hi => (hquiet.inodeUsed i).mpr (htaken.keeps i hi)
    cases ok with
    | false =>
      cases hrun
      have hfreed := inodeFreed_ext2FreeInode fs2 (ino + 1)
      refine ⟨rfl, hfreed.sb.trans (hquiet.sb.trans htaken.sb),
        hfreed.page.trans (hquiet.page.trans htaken.page), fun b => ?_,
        hfreed.answers.trans (hquiet.answers.trans htaken.answers), fun i hi => ?_,
        fun _ _ => rfl, (fun ino hret => by cases hret), fun ino hret => by cases hret⟩
      · rw [BlockUsed, hfreed.sb, hfreed.blockBitmap]
        exact (hquiet.blockUsed b).trans (hblock b)
      · refine hfreed.keeps i ?_ (hbits i hi)
        rintro rfl
        exact hunused hi
    | true =>
      cases hrun
      refine ⟨rfl, hquiet.sb.trans htaken.sb, hquiet.page.trans htaken.page,
        fun b => (hquiet.blockUsed b).trans (hblock b), hquiet.answers.trans htaken.answers,
        hbits, (fun e hret => by cases hret), fun ino' hret => ?_, fun ino' hret => ?_⟩
      · cases hret
        have hgroup := htaken.group (Nat.succ_ne_zero ino)
        rw [ext2InodeLocation, if_neg (Nat.succ_ne_zero ino), if_neg (Nat.not_le.mpr hgroup)]
      cases hret
      exact ⟨hunused, (hquiet.inodeUsed _).mpr hnow, rfl⟩

section Making

variable (h : MakesInode iType iNlink iSize s ret s') (hcons : Consistent s)
include h hcons

/-- The number of a new inode was not in use. -/
theorem MakesInode.none (hret : ret = .ok ino) : s.inodes ino = none := by
  cases hsome : s.inodes ino with
  | none => rfl
  | some a => exact absurd (hcons.bit ino a hsome) (h.made ino hret).1

/-- The new inode has no blocks. -/
theorem MakesInode.eq_setInode (hret : ret = .ok ino) :
    s'.inodes = Function.update s.inodes ino (some (freshInode ino iType iNlink iSize [])) := by
  have hinodes := (h.made ino hret).2.2
  rwa [h.none hcons hret] at hinodes

/-- The inodes that there are after the making of one. -/
theorem MakesInode.inode_cases (ha : s'.inodes i = some a) :
    s.inodes i = some a ∨ ret = .ok i ∧ a = freshInode i iType iNlink iSize [] := by
  cases ret with
  | error e =>
    rw [h.failed e rfl] at ha
    exact .inl ha
  | ok ino =>
    rw [h.eq_setInode hcons rfl, Function.update_apply] at ha
    split_ifs at ha with hi
    · cases ha
      exact .inr ⟨by rw [hi], by rw [hi]⟩
    · exact .inl ha

theorem MakesInode.consistent : Consistent s' := by
  have hspared : ∀ i a, s.inodes i = some a → Consistent.Spared s.fs s'.fs i a := fun i a ha =>
    ⟨h.bits i (hcons.bit i a ha), fun b hb =>
      ⟨congrFun h.page b, (h.blockUsed b).mpr ((hcons.sound i a ha).used b hb)⟩⟩
  cases hret : ret with
  | error e =>
    refine hcons.of_spared fun i a ha => ?_
    rw [h.failed e hret] at ha
    exact ⟨ha, hspared i a ha⟩
  | ok ino =>
    refine hcons.change ino fun i a ha => ?_
    rcases h.inode_cases hcons ha with hold | ⟨hi, rfl⟩
    · exact .inl ⟨hold, hspared i a hold⟩
    · cases hret.symm.trans hi
      exact .inr ⟨rfl, ⟨fun _ => .empty _ (fun _ => rfl) rfl, fun _ => rfl⟩, rfl,
        (h.made _ hret).2.1, fun _ _ _ _ _ _ => List.not_mem_nil⟩

end Making

theorem Inv.newInode (hs : Inv s) (h : MakesInode iType iNlink iSize s ret s') : Inv s' :=
  hs.step h.evictions fun hcons hio => ⟨h.consistent hcons, hio.of_answers h.answers⟩

/-! ### The calls -/

/-- What has to be shown for `P` to be kept by every call: a rule for each of the three
things that calls are made of.  `drop` tells which inodes may be forgotten, and `make`
which types of inodes may be made. -/
structure Rules (P : System → Prop) (drop : Nat → Prop) (make : FileType → Prop) : Prop where
  onInode : ∀ {s : System} {α : Type} {ino : Nat} {op : InodeOp α}, P s →
    (AllOk s.evictions → ∀ inode, s.inodes ino = some inode → Consistent s →
      s.fs.PagesAvailable → Serves s.fs inode (op s.fs inode).2.1 (op s.fs inode).2.2) →
    P (s.onInode ino op).2
  forget : ∀ {s : System} {ino : Nat}, P s → drop ino → P (inodeForget s ino)
  newInode : ∀ {s s' : System} {iType : FileType} {iNlink iSize : Nat} {ret : Except Errno Nat},
    P s → make iType → MakesInode iType iNlink iSize s ret s' → P s' ∧
      ∀ ino, ret = .ok ino → drop ino ∧ (AllOk s'.evictions →
        s'.inodes ino = some (freshInode ino iType iNlink iSize []))

/-- The inodes that a call forgets and the types that it makes. -/
def Op.Allowed (drop : Nat → Prop) (make : FileType → Prop) : Op → Prop
  | .create _ _ iType => make (if iType = .zero then .reg else iType)
  | .mknod _ _ iType _ _ _ => make (if iType = .zero then .reg else iType)
  | .symlink .. => make .lnk
  | .mkdir .. => make .dir
  | .unlink _ ino _ last => last = true → drop ino
  | .rmdir _ ino _ _ last => last = true → drop ino
  | .iput ino last => last = true → drop ino
  | .link .. => True
  | .write .. => True

namespace Rules

variable {P : System → Prop} {drop : Nat → Prop} {make : FileType → Prop}
variable {β : Type}

/-- The rule for `onResult`. -/
theorem next {r : Except Errno α × System} (h : P r.2)
    {fail : Errno → System → Except Errno β × System} {next : α → System → Except Errno β × System}
    (hfail : ∀ e s, r = (.error e, s) → P s → P (fail e s).2)
    (hnext : ∀ a s, r = (.ok a, s) → P s → P (next a s).2) :
    P (onResult r fail next).2 := by
  obtain ⟨ret, s⟩ := r
  cases ret with
  | error e => exact hfail e s rfl h
  | ok a => exact hnext a s rfl h

theorem giveUp (e : Errno) (h : P s) : P (Ext2.giveUp e s : Except Errno β × System).2 := h

variable (hP : Rules P drop make) (h : P s)
include hP h

/-- An operation that is right for every sound inode. -/
theorem onSound (ino : Nat) {op : InodeOp α}
    (hop : ∀ {fs inode}, Sound fs inode → fs.PagesAvailable →
      Serves fs inode (op fs inode).2.1 (op fs inode).2.2) : P (s.onInode ino op).2 :=
  hP.onInode h fun _ inode hinode hcons hio => hop (hcons.sound ino inode hinode) hio

theorem onDir (ino : Nat) {op : InodeOp α}
    (hop : ∀ {fs inode}, Sound fs inode → fs.PagesAvailable → inode.iType = .dir →
      Works fs inode (op fs inode).2.1 (op fs inode).2.2) : P (s.onDir ino op).2 := by
  apply hP.onSound h
  intro fs inode hsound hio
  split_ifs with hdir
  · exact (hop hsound hio hdir).serves (by rw [Inode.isFile, hdir])
  · exact .refl hsound

theorem writeInode (ino : Nat) : P (s.onInode ino ext2WriteInode).2 :=
  hP.onSound h ino fun hsound _ => serves_ext2WriteInode hsound

theorem writeDir (ino : Nat) : P (s.onDir ino ext2WriteInode).2 :=
  hP.onDir h ino fun hsound _ _ => (serves_ext2WriteInode hsound).works

theorem nlink (ino : Nat) (count : Nat → Nat) : P (s.onInode ino (setNlink count)).2 :=
  hP.onSound h ino fun hsound _ => serves_setNlink count hsound

theorem nlinkDir (ino : Nat) (count : Nat → Nat) : P (s.onDir ino (setNlink count)).2 :=
  hP.onDir h ino fun hsound _ _ => (serves_setNlink count hsound).works

theorem addEntry (ino : Nat) (scan : EntryScan) : P (s.onDir ino (ext2AddEntry scan)).2 :=
  hP.onDir h ino fun hsound hio hdir => works_ext2AddEntry hsound hio hdir scan

theorem deleteEntry (ino : Nat)
    (entry : Option (Nat × (Nat → UInt8))) : P (s.onDir ino (ext2DeleteEntry entry)).2 :=
  hP.onDir h ino fun hsound _ hdir => works_ext2DeleteEntry hsound hdir entry

variable {last : Bool}

theorem iput (hdrop : last = true → drop ino) : P (Ext2.iput s ino last) := by
  unfold Ext2.iput
  cases s.inodes ino with
  | none => exact h
  | some inode =>
    dsimp only
    split_ifs with hlast
    · exact hP.forget h (hdrop hlast.1)
    · exact h

theorem rollback (hdrop : drop ino) : P (ext2RollbackNewInode s ino) :=
  hP.forget (hP.nlink h ino _) hdrop

/-- The rule for the inode that a call begins with. -/
theorem making (hmake : make iType) (iNlink iSize : Nat)
    {next : Nat → System → Except Errno β × System}
    (hnext : ∀ ino s', P s' → drop ino → (AllOk s'.evictions →
      s'.inodes ino = some (freshInode ino iType iNlink iSize [])) → P (next ino s').2) :
    P (onResult (ext2NewInode s iType iNlink iSize) Ext2.giveUp next).2 := by
  generalize hrun : ext2NewInode s iType iNlink iSize = r
  obtain ⟨ret, s'⟩ := r
  obtain ⟨h', hnew⟩ := hP.newInode h hmake (makesInode_ext2NewInode hrun)
  cases ret with
  | error e => exact h'
  | ok ino => exact hnext ino s' h' (hnew ino rfl).1 (hnew ino rfl).2

section

variable (dir : Nat)
include dir

theorem ext2Create (scan : EntryScan) (hmake : make (if iType = .zero then .reg else iType)) :
    P (Ext2.ext2Create s dir scan iType).2 ∧
      ∀ ino, (Ext2.ext2Create s dir scan iType).1 = .ok ino → drop ino := by
  unfold Ext2.ext2Create
  split
  · exact ⟨h, fun ino hret => by cases hret⟩
  generalize hrun : ext2NewInode s (if iType = .zero then .reg else iType) 1 0 = r
  obtain ⟨ret, s'⟩ := r
  obtain ⟨h', hnew⟩ := hP.newInode h hmake (makesInode_ext2NewInode hrun)
  cases ret with
  | error e => exact ⟨h', fun ino hret => by cases hret⟩
  | ok ino =>
    obtain ⟨hdrop, -⟩ := hnew ino rfl
    constructor
    · refine next (hP.writeInode h' ino) (fun e s _ h => hP.rollback h hdrop) fun _ s _ h => ?_
      refine next (hP.addEntry h dir scan) (fun e s _ h => hP.rollback h hdrop) fun _ s _ h => ?_
      exact h
    · intro ino' hret
      have heq : ino = ino' := by
        dsimp only [onResult] at hret
        split at hret
        · cases hret
        · split at hret
          · cases hret
          · cases hret
            rfl
      exact heq ▸ hdrop

theorem ext2Symlink (scan : EntryScan)
    (target : List UInt8) (undo : Option (Nat × (Nat → UInt8))) (hmake : make .lnk) :
    P (Ext2.ext2Symlink s dir scan target undo).2 := by
  unfold Ext2.ext2Symlink
  split_ifs
  · exact h
  · exact h
  split
  · exact h
  refine hP.making h hmake _ _ fun ino s1 h1 hdrop hfresh => ?_
  have h2 : P (s1.onInode ino (storeTarget target)).2 := by
    refine hP.onInode h1 fun hok inode hinode hcons hio => ?_
    rw [hfresh hok] at hinode
    cases hinode
    exact (works_storeTarget hio rfl rfl (fun _ => rfl) rfl target).serves rfl
  refine next h2 (fun e s _ h => hP.rollback h hdrop) fun _ s _ h => ?_
  refine next (hP.writeInode h ino) (fun e s _ h => hP.rollback h hdrop) fun _ s _ h => ?_
  refine next (hP.addEntry h dir scan) (fun e s _ h => hP.rollback h hdrop) fun _ s _ h => ?_
  refine next (hP.writeDir h dir) (fun e s _ h => hP.rollback (hP.deleteEntry h dir undo) hdrop)
    fun _ s _ h => ?_
  exact h

theorem ext2Mkdir (scan : EntryScan)
    (bytes : Nat → UInt8) (hmake : make .dir) : P (Ext2.ext2Mkdir s dir scan bytes).2 := by
  unfold Ext2.ext2Mkdir
  split
  · exact h
  refine hP.making h hmake _ _ fun ino s h hdrop _ => ?_
  refine next (hP.writeInode h ino) (fun e s _ h => hP.rollback h hdrop) fun _ s _ h => ?_
  have hempty : P (s.onDir ino (ext2MakeEmptyDir bytes)).2 :=
    hP.onDir h ino fun hsound hio hdir => works_ext2MakeEmptyDir hsound hio hdir bytes
  refine next hempty (fun e s _ h => hP.rollback h hdrop) fun _ s _ h => ?_
  refine next (hP.addEntry h dir scan) (fun e s _ h => hP.rollback h hdrop) fun _ s _ h => ?_
  refine next (hP.writeDir (hP.nlinkDir h dir _) dir) (fun e s _ h => giveUp e h) fun _ s _ h => ?_
  exact h

theorem ext2Unlink (entry : Option (Nat × (Nat → UInt8))) (hdrop : last = true → drop ino) :
    P (Ext2.ext2Unlink s dir ino entry last).2 := by
  unfold Ext2.ext2Unlink
  cases s.inodes ino with
  | none => exact h
  | some inode =>
    dsimp only
    split_ifs
    · exact h
    refine next (hP.deleteEntry h dir entry) (fun e s _ h => giveUp e h) fun _ s _ h => ?_
    exact hP.iput (hP.writeInode (hP.nlink h ino _) ino) hdrop

theorem ext2Rmdir (empty : Bool) (entry : Option (Nat × (Nat → UInt8)))
    (hdrop : last = true → drop ino) :
    P (Ext2.ext2Rmdir s dir ino empty entry last).2 := by
  unfold Ext2.ext2Rmdir
  cases s.inodes ino with
  | none => exact h
  | some inode =>
    dsimp only
    split_ifs
    · exact h
    · exact h
    refine next (hP.deleteEntry h dir entry) (fun e s _ h => giveUp e h) fun _ s _ h => ?_
    have h1 := hP.nlink (hP.nlinkDir h dir fun n => if n > 0 then n - 1 else n) ino fun _ => 0
    exact next (hP.writeInode h1 ino) (fun e s _ h => hP.iput h hdrop)
      fun _ s _ h => hP.iput (hP.writeDir h dir) hdrop

theorem vfsMknodAtPath (scan : EntryScan) (dev : Nat) (entry : Option (Nat × (Nat → UInt8)))
    (last : Bool) (hmake : make (if iType = .zero then .reg else iType)) :
    P (Ext2.vfsMknodAtPath s dir scan iType dev entry last).2 := by
  unfold Ext2.vfsMknodAtPath
  split_ifs
  · obtain ⟨h1, hnew⟩ := hP.ext2Create h dir scan hmake
    refine next h1 (fun e s _ h => giveUp e h) fun ino s hret h => ?_
    have hdrop : drop ino := hnew ino (by rw [hret])
    refine next (hP.writeInode h ino) (fun e s _ h => hP.ext2Unlink h dir entry fun _ => hdrop)
      fun _ s _ h => ?_
    apply hP.onSound h
    intro fs inode hsound hio
    have hfields : Serves fs inode fs { inode with iRdev := dev } :=
      serves_of_fields hsound rfl rfl rfl rfl rfl
    exact hfields.trans (serves_ext2WriteInode hfields.works.2)
  · exact h

end

theorem undoLink (dir ino : Nat)
    (undo : Option (Nat × (Nat → UInt8))) (e : Errno) : P (Ext2.undoLink dir ino undo e s).2 := by
  refine next (hP.writeInode (hP.nlink (hP.deleteEntry h dir undo) ino (· - 1)) ino)
    (fun e s _ h => giveUp e h) fun _ s _ h => ?_
  exact h

theorem ext2Link (dir ino : Nat) (scan : EntryScan)
    (undo : Option (Nat × (Nat → UInt8))) : P (Ext2.ext2Link s dir ino scan undo).2 := by
  unfold Ext2.ext2Link
  cases s.inodes ino with
  | none => exact h
  | some inode =>
    dsimp only
    split_ifs
    · exact h
    refine next (hP.addEntry h dir scan) (fun e s _ h => giveUp e h) fun _ s _ h => ?_
    refine next (hP.writeInode (hP.nlink h ino (· + 1)) ino)
      (fun e s _ h => hP.undoLink h dir ino undo e) fun _ s _ h => ?_
    refine next (hP.writeDir h dir) (fun e s _ h => hP.undoLink h dir ino undo e) fun _ s _ h => ?_
    exact h

/-- Every call keeps `P`. -/
theorem exec {op : Op} (hop : op.Allowed drop make) :
    P (s.exec op) := by
  cases op with
  | create dir scan iType => exact (hP.ext2Create h dir scan hop).1
  | mknod dir scan iType dev entry last =>
    exact hP.vfsMknodAtPath h dir scan dev entry last hop
  | symlink dir scan target undo => exact hP.ext2Symlink h dir scan target undo hop
  | mkdir dir scan bytes => exact hP.ext2Mkdir h dir scan bytes hop
  | link dir ino scan undo => exact hP.ext2Link h dir ino scan undo
  | unlink dir ino entry last => exact hP.ext2Unlink h dir entry hop
  | rmdir dir ino empty entry last => exact hP.ext2Rmdir h dir empty entry hop
  | write ino buf count pos =>
    exact hP.onSound h ino fun hsound hio => serves_ext2WriteFile hsound hio buf count pos
  | iput ino last => exact hP.iput h hop

end Rules

theorem rules_inv : Rules Inv (fun _ => True) fun _ => True where
  onInode h hop := h.onInode _ fun hok inode hinode hcons hio =>
    have hserves := hop hok inode hinode hcons hio
    ⟨hserves.works.1.confined, hserves.works.2⟩
  forget h _ := h.forget _
  newInode h _ hmakes := by
    refine ⟨h.newInode hmakes, fun ino hret => ⟨trivial, fun hok => ?_⟩⟩
    rw [hmakes.evictions] at hok
    rw [hmakes.eq_setInode (h.good hok).1 hret]
    exact Function.update_self ..

theorem inv_run (h : Inv s) (ops : List Op) : Inv (s.run ops) := by
  induction ops generalizing s with
  | nil => exact h
  | cons op ops ih =>
    apply ih
    apply rules_inv.exec h
    cases op <;> simp [Op.Allowed]

/-- One group of 128 blocks and 32 inodes; the blocks from 120 on are free. -/
def smallVolume : Volume where
  sb :=
    { inodesCount := 32, blocksCount := 128, firstDataBlock := 0, blocksPerGroup := 128,
      inodesPerGroup := 32, blocksPerGroup_pos := by decide, inodesPerGroup_pos := by decide,
      firstDataBlock_lt := by decide, blocksCount_lt := by decide, inodes_lt := by decide }
  blockBitmap _ bit := decide (bit < 120)
  inodeBitmap _ bit := decide (bit < 2)
  bgFreeBlocksCount _ := 8
  bgFreeInodesCount _ := 30
  bgUsedDirsCount _ := 1
  sFreeBlocksCount := 8
  sFreeInodesCount := 30
  page _ _ := 0
  io := { pageOk := fun _ => true, syncOk := fun _ => true, memOk := fun _ => true }

/-- `EXT2_ROOT_INO`, without entries. -/
def rootDir : Inode :=
  { ino := 2, iType := .dir, iNlink := 2, iSize := 0, iBlocks := 0, iRdev := 0,
    iBlock := fun _ => 0, owned := [] }

/-- The volume with its root directory. -/
def smallSystem : System where
  fs := smallVolume
  inodes ino := if ino = 2 then some rootDir else none
  evictions := []

theorem consistent_smallSystem : Consistent smallSystem := by
  have hroot : ∀ ino inode, smallSystem.inodes ino = some inode → ino = 2 ∧ inode = rootDir := by
    intro ino inode hinode
    unfold smallSystem at hinode
    dsimp only at hinode
    split_ifs at hinode with hino
    cases hinode
    exact ⟨hino, rfl⟩
  refine ⟨?_, ?_, ?_, ?_⟩
  · intro ino inode hinode
    rw [(hroot ino inode hinode).2]
    exact ⟨fun _ => .empty _ (fun _ => rfl) rfl, fun _ => rfl⟩
  · intro i j a b hij ha hb
    exact absurd ((hroot i a ha).1.trans (hroot j b hb).1.symm) hij
  · intro ino inode hinode
    obtain ⟨rfl, rfl⟩ := hroot ino inode hinode
    rfl
  · intro ino inode hinode
    obtain ⟨rfl, rfl⟩ := hroot ino inode hinode
    exact ⟨by decide, by decide⟩

end CuteOS.Fs.Ext2
