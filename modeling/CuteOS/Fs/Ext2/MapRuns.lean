/-
  Fs/Ext2/MapRuns.lean --- the block mapping of an inode is an injective map.

  Sources: `fs/ext2/inode.c`, `ext2_write_file` of `fs/ext2/file.c`, `block/blkdev.c`.

  `ext2_bmap` and `ext2_bmap_readonly` go through the pointers of an inode in code of
  their own, and each asks the page cache in its own way.  On a file system that is
  mounted under the registered number of its device, both find the block
  `Volume.blockAt` in every state that mapping, truncating and writing lead to, no block
  serves two parts or is a block of pointers too, and `ext2_bmap` with `create` fills one
  part.  Under another number of the same device, `ext2_bmap_readonly` sees blocks of
  pointers as they were when it first read them.
-/
import CuteOS.Block.PageCache
import CuteOS.Fs.Ext2.FileRuns
import CuteOS.Fs.Ext2.SharedMap

set_option autoImplicit false

namespace CuteOS.Fs.Ext2

/-! ## Looking up -/

section Lookup

variable {fs : Volume} {inode : Inode}

theorem ext2BmapSlot_lookup (fs : Volume) (inode : Inode) (slot : Nat) :
    ext2BmapSlot fs inode slot false = (.ok (inode.iBlock slot), fs, inode) :=
  if_neg fun h => Bool.false_ne_true h.2

theorem ext2IndBmap_lookup (hio : fs.PagesAvailable) (inode : Inode) (ind index : Nat) :
    ∃ fs', Volume.Quiet fs fs' ∧ ext2IndBmap fs inode ind index false =
      (.ok (if ind = 0 then 0 else fs.word ind index), fs', inode) := by
  unfold ext2IndBmap
  split_ifs with hind
  · exact ⟨fs, .refl fs, rfl⟩
  · refine ⟨fs.nextTick, Volume.quiet_nextTick fs, ?_⟩
    rw [Volume.pageCacheGetBlock, hio]
    exact if_neg fun h => h.2

/-- `ext2_bmap` without `create` finds the block of the part. -/
theorem ext2Bmap_lookup (hio : fs.PagesAvailable) (inode : Inode) (index : Nat) :
    (ext2Bmap fs inode index false).1 = .ok (fs.blockAt inode index) := by
  unfold ext2Bmap Volume.blockAt blockPlace
  simp only [ext2BmapSlot_lookup]
  split_ifs with hdirect hsingle hbeyond
  · rfl
  · obtain ⟨fs1, -, hlookup⟩ := ext2IndBmap_lookup hio inode (inode.iBlock indBlock)
      (index - ndirBlocks)
    rw [hlookup]
    rfl
  · rfl
  · generalize (index - ndirBlocks - ptrsPerBlock) / ptrsPerBlock = first
    generalize (index - ndirBlocks - ptrsPerBlock) % ptrsPerBlock = second
    obtain ⟨fs1, hquiet, hfirst⟩ := ext2IndBmap_lookup hio inode (inode.iBlock dindBlock) first
    rw [hfirst]
    dsimp only
    generalize hind : (if inode.iBlock dindBlock = 0 then 0
      else fs.word (inode.iBlock dindBlock) first) = ind
    obtain ⟨fs2, -, hsecond⟩ :=
      ext2IndBmap_lookup (hio.of_answers hquiet.answers) inode ind second
    rw [hsecond, word_congr (congrFun hquiet.page ind), ← hind, Volume.blockAtPlace,
      ← List.singleton_append, Lib.PtrTree.nodeAt_append, ← List.nil_append [first],
      Lib.PtrTree.nodeAt_append, Lib.PtrTree.nodeAt_nil]

end Lookup

/-! ## The pages of the device -/

/-- An inode of a mounted file system.  `lookup_block_device` goes by `MAJOR` alone, so that
`s_dev` need not be the number that the device is registered under.  If it is another one,
`devicePages` are the pages that the page cache has under the registered number. -/
structure MountedInode where
  fs : Volume
  inode : Inode
  sDev : Nat
  bdDev : Nat
  devicePages : Nat → Option (Nat → UInt8)
  found : Block.major sDev = Block.major bdDev

namespace MountedInode

/-- The volume and the inode after a call. -/
def moved (s : MountedInode) (r : Volume × Inode) : MountedInode :=
  { s with fs := r.1, inode := r.2 }

/-- The blocks as `block_device_pages(s_dev)` shows them.  A page that is not there yet is read
from the device, to which blocks of pointers are written at once. -/
def deviceVolume (s : MountedInode) : Volume :=
  if s.sDev = s.bdDev then s.fs
  else { s.fs with page := fun b => (s.devicePages b).getD (s.fs.page b) }

/-- `ext2_ind_bmap_readonly`: the page of the device, or a second try that copies the block
from the page that `ext2_ind_bmap` uses. -/
def ext2IndBmapReadonly (s : MountedInode) (ind index : Nat) : Nat × MountedInode :=
  if ind = 0 then (0, s)
  else
    match s.fs.pageCacheGetBlock with
    | (true, fs) =>
      (s.deviceVolume.word ind index,
        { s with
          fs := fs
          devicePages := Function.update s.devicePages ind (some (s.deviceVolume.page ind)) })
    | (false, fs) =>
      match fs.pageCacheGetBlock with
      | (true, fs) => (fs.word ind index, { s with fs := fs })
      | (false, fs) => (0, { s with fs := fs })

/-- `ext2_bmap_readonly`. -/
def ext2BmapReadonly (s : MountedInode) (block : Nat) : Nat × MountedInode :=
  if block < ndirBlocks then (s.inode.iBlock block, s)
  else if block - ndirBlocks < ptrsPerBlock then
    s.ext2IndBmapReadonly (s.inode.iBlock indBlock) (block - ndirBlocks)
  else if block - ndirBlocks - ptrsPerBlock ≥ ptrsPerBlock * ptrsPerBlock then (0, s)
  else
    match s.ext2IndBmapReadonly (s.inode.iBlock dindBlock)
        ((block - ndirBlocks - ptrsPerBlock) / ptrsPerBlock) with
    | (first, s) =>
      s.ext2IndBmapReadonly first ((block - ndirBlocks - ptrsPerBlock) % ptrsPerBlock)

/-- `s` is at volume `fs` now, and nothing but pages of the device has come to the cache. -/
def At (s : MountedInode) (fs : Volume) (s' : MountedInode) : Prop :=
  ∃ pages, s' = { s with fs := fs, devicePages := pages }

variable {s : MountedInode} (h : s.sDev = s.bdDev)
include h

/-- Under the registered number there is one page for each block. -/
theorem ext2IndBmapReadonly_registered (ind index : Nat) :
    (s.ext2IndBmapReadonly ind index).1 = (Ext2.ext2IndBmapReadonly s.fs ind index).1 ∧
      s.At (Ext2.ext2IndBmapReadonly s.fs ind index).2 (s.ext2IndBmapReadonly ind index).2 := by
  have hdevice : s.deviceVolume = s.fs := if_pos h
  unfold ext2IndBmapReadonly Ext2.ext2IndBmapReadonly Volume.pageCacheGetBlock
  split_ifs
  · exact ⟨rfl, s.devicePages, rfl⟩
  rw [hdevice]
  cases s.fs.io.pageOk s.fs.io.tick with
  | true => exact ⟨rfl, _, rfl⟩
  | false =>
    dsimp only
    cases s.fs.nextTick.io.pageOk s.fs.nextTick.io.tick with
    | true => exact ⟨rfl, s.devicePages, rfl⟩
    | false => exact ⟨rfl, s.devicePages, rfl⟩

theorem ext2BmapReadonly_registered (block : Nat) :
    (s.ext2BmapReadonly block).1 = (Ext2.ext2BmapReadonly s.fs s.inode block).1 ∧
      s.At (Ext2.ext2BmapReadonly s.fs s.inode block).2 (s.ext2BmapReadonly block).2 := by
  unfold ext2BmapReadonly Ext2.ext2BmapReadonly
  split_ifs
  · exact ⟨rfl, s.devicePages, rfl⟩
  · exact ext2IndBmapReadonly_registered h _ _
  · exact ⟨rfl, s.devicePages, rfl⟩
  · obtain ⟨hfirst, pages, hs⟩ := ext2IndBmapReadonly_registered h (s.inode.iBlock dindBlock)
      ((block - ndirBlocks - ptrsPerBlock) / ptrsPerBlock)
    generalize s.ext2IndBmapReadonly _ _ = r at hfirst hs ⊢
    obtain ⟨first, s1⟩ := r
    dsimp only at hfirst hs ⊢
    subst hfirst hs
    obtain ⟨hsecond, pages', hs'⟩ := ext2IndBmapReadonly_registered
      (s := { s with fs := _, devicePages := pages }) h _
      ((block - ndirBlocks - ptrsPerBlock) % ptrsPerBlock)
    exact ⟨hsecond, pages', hs'⟩

end MountedInode

/-! ## Runs -/

/-- The calls that change the mapping of an inode or look it up. -/
inductive BlockOp where
  | bmap (index : Nat) (create : Bool)
  | bmapReadonly (index : Nat)
  | truncate (size : Nat)
  | write (buf : Nat → UInt8) (count pos : Nat)

/-- One call.  What `ext2_truncate_inode` looks up by itself is looked up as under the
registered number. -/
def BlockOp.exec (s : MountedInode) : BlockOp → MountedInode
  | .bmap index create => s.moved (ext2Bmap s.fs s.inode index create).2
  | .bmapReadonly index => (s.ext2BmapReadonly index).2
  | .truncate size => s.moved (ext2TruncateInode size s.fs s.inode).2
  | .write buf count pos => s.moved (ext2WriteFile buf count pos s.fs s.inode).2

/-- The state after some calls. -/
def BlockOp.run (s : MountedInode) (ops : List BlockOp) : MountedInode :=
  ops.foldl BlockOp.exec s

/-- An inode with block pointers, on a volume without I/O errors. -/
structure Mapped (fs : Volume) (inode : Inode) : Prop where
  owns : Owns fs inode
  noErrors : fs.NoErrors
  notDevice : inode.isDevice = false

namespace Mapped

variable {fs fs' : Volume} {inode inode' : Inode}

section

variable (h : Mapped fs inode)
include h

theorem of_step (howns : Owns fs' inode')
    (hanswers : fs'.io.answers = fs.io.answers) (hiType : inode'.iType = inode.iType) :
    Mapped fs' inode' where
  owns := howns
  noErrors := h.noErrors.of_answers hanswers
  notDevice := by
    rw [Inode.isDevice, hiType]
    exact h.notDevice

theorem bmap (index : Nat) (create : Bool) :
    Mapped (ext2Bmap fs inode index create).2.1 (ext2Bmap fs inode index create).2.2 := by
  obtain ⟨hmaps, -⟩ := ext2Bmap_maps h.owns h.noErrors.pages h.notDevice rfl
  exact h.of_step hmaps.owns hmaps.answers hmaps.iType

theorem truncate (size : Nat) :
    Mapped (ext2TruncateInode size fs inode).2.1 (ext2TruncateInode size fs inode).2.2 := by
  have htrims := @trims_ext2TruncateInode (fun _ => False) fs inode h.owns h.noErrors.pages
    h.notDevice size fun _ _ hfalse => hfalse.elim
  exact h.of_step htrims.owns htrims.confined.answers htrims.confined.iType

theorem write (buf : Nat → UInt8) (count pos : Nat) :
    Mapped (ext2WriteFile buf count pos fs inode).2.1
      (ext2WriteFile buf count pos fs inode).2.2 := by
  cases hfile : inode.isFile with
  | false =>
    rw [ext2WriteFile, if_pos hfile]
    exact h
  | true =>
    have hsound : Sound fs inode := by
      refine ⟨fun _ => h.owns, fun hplain => ?_⟩
      rw [(Inode.holdsPointers_of_isFile hfile).1] at hplain
      cases hplain
    obtain ⟨⟨htouch, hsound'⟩, -⟩ := serves_ext2WriteFile hsound h.noErrors.pages buf count pos
    have hholds := (Inode.holdsPointers_of_isFile (htouch.isFile.trans hfile)).1
    exact h.of_step (hsound'.mapped hholds) htouch.answers htouch.iType

theorem of_quiet (hq : Volume.Quiet fs fs') : Mapped fs' inode :=
  h.of_step (BmapStep.of_quiet h.owns hq).owns hq.answers rfl

end

variable {s : MountedInode} (h : Mapped s.fs s.inode) (hdev : s.sDev = s.bdDev)
include h hdev

theorem exec (op : BlockOp) :
    Mapped (op.exec s).fs (op.exec s).inode ∧ (op.exec s).sDev = (op.exec s).bdDev := by
  cases op with
  | bmap index create => exact ⟨h.bmap index create, hdev⟩
  | bmapReadonly index =>
    obtain ⟨pages, hs⟩ := (MountedInode.ext2BmapReadonly_registered hdev index).2
    rw [BlockOp.exec, hs]
    exact ⟨h.of_quiet (quiet_ext2BmapReadonly s.fs s.inode index), hdev⟩
  | truncate size => exact ⟨h.truncate size, hdev⟩
  | write buf count pos => exact ⟨h.write buf count pos, hdev⟩

theorem run (ops : List BlockOp) :
    Mapped (BlockOp.run s ops).fs (BlockOp.run s ops).inode ∧
      (BlockOp.run s ops).sDev = (BlockOp.run s ops).bdDev := by
  induction ops generalizing s with
  | nil => exact ⟨h, hdev⟩
  | cons op ops ih =>
    obtain ⟨h', hdev'⟩ := h.exec hdev op
    exact ih h' hdev'

end Mapped

/-- In every state that the calls lead to without I/O errors, on a file system mounted under
the registered number of its device, the two mapping functions agree; two parts never have the
same block, and none of them has a block of pointers; and a part that `ext2_bmap` is asked to
fill gets a block that was free and holds zeros, unless it had one, while the other parts
stay. -/
theorem block_mapping_injective {s : MountedInode} (h : Mapped s.fs s.inode)
    (hdev : s.sDev = s.bdDev) (ops : List BlockOp) {s' : MountedInode}
    (hrun : BlockOp.run s ops = s') :
    (∀ i ≤ ext2MaxFileIndex,
      (ext2Bmap s'.fs s'.inode i false).1 = .ok (s'.ext2BmapReadonly i).1) ∧
    (∀ i ≤ ext2MaxFileIndex, (s'.ext2BmapReadonly i).1 ≠ 0 →
      (s'.ext2BmapReadonly i).1 ∉ s'.fs.inodeInner s'.inode ∧
      ∀ j ≤ ext2MaxFileIndex, (s'.ext2BmapReadonly i).1 = (s'.ext2BmapReadonly j).1 → i = j) ∧
    ∀ i ≤ ext2MaxFileIndex, ∀ b r, b ≠ 0 → ext2Bmap s'.fs s'.inode i true = (.ok b, r) →
      ((s'.moved r).ext2BmapReadonly i).1 = b ∧
      (∀ j ≤ ext2MaxFileIndex, j ≠ i →
        ((s'.moved r).ext2BmapReadonly j).1 = (s'.ext2BmapReadonly j).1) ∧
      ((s'.ext2BmapReadonly i).1 = b ∨
        (s'.ext2BmapReadonly i).1 = 0 ∧ ¬ s'.fs.BlockUsed b ∧ r.1.page b = fun _ => 0) := by
  subst hrun
  obtain ⟨hmapped, hdev'⟩ := h.run hdev ops
  generalize BlockOp.run s ops = s' at hmapped hdev' ⊢
  have howns := hmapped.owns
  have hio := hmapped.noErrors.pages
  have hread := fun i => (MountedInode.ext2BmapReadonly_registered hdev' i).1.trans
    (ext2BmapReadonly_eq hio s'.inode i)
  refine ⟨fun i _ => ?_, fun i _ hne => ?_, fun i _ b r hb hcall => ?_⟩
  · rw [ext2Bmap_lookup hio, hread]
  · rw [hread] at hne
    rw [hread]
    refine ⟨Lib.PtrTree.not_mem_rootInner_of_leaf howns.nodup_inodeBlocks (blockAt_mem_leaves hne),
      fun j _ heq => ?_⟩
    rw [hread] at heq
    exact blockAt_inj howns hne heq
  · obtain ⟨fs', inode'⟩ := r
    obtain ⟨hmaps, hret⟩ := ext2Bmap_maps howns hio hmapped.notDevice hcall
    have hafter := hmapped.bmap i true
    rw [hcall] at hafter
    have hread' := fun j => (MountedInode.ext2BmapReadonly_registered
      (s := s'.moved (fs', inode')) hdev' j).1.trans
        (ext2BmapReadonly_eq hafter.noErrors.pages inode' j)
    have hblock := hret b rfl
    refine ⟨(hread' i).trans hblock, fun j _ hj => ?_, ?_⟩
    · rw [hread', hread, hmaps.other j hj]
    · have hhere := hmaps.here
      rw [hblock] at hhere
      rw [hread]
      exact hhere.imp Eq.symm id

/-- A file without blocks; the device is registered as `MKDEV(8, 0)` and mounted under this
number or as `MKDEV(8, 1)`. -/
def newFileOn (registered : Bool) : MountedInode where
  fs := smallVolume
  inode := newFile
  sDev := 8 * 2 ^ 20 + (!registered).toNat
  bdDev := 8 * 2 ^ 20
  devicePages _ := none
  found := by
    revert registered
    decide

/-- The file is written, cut, and part 13 looked up and mapped. -/
theorem block_mapping_injective_example : Mapped smallVolume newFile ∧
      ∃ s r, BlockOp.run (newFileOn true) [.write (fun _ => 1) 5 0, .truncate 2, .bmapReadonly 13] =
          s ∧ ext2Bmap s.fs s.inode 13 true = (.ok 122, r) ∧
        ((s.moved r).ext2BmapReadonly 13).1 = 122 ∧ ¬ s.fs.BlockUsed 122 ∧
        ((s.moved r).ext2BmapReadonly 0).1 = (s.ext2BmapReadonly 0).1 := by
  have hmapped : Mapped smallVolume newFile :=
    ⟨.empty _ (fun _ => rfl) rfl, ⟨fun _ => rfl, fun _ => rfl⟩, rfl⟩
  refine ⟨hmapped, ?_⟩
  generalize hrun : BlockOp.run (newFileOn true)
    [.write (fun _ => 1) 5 0, .truncate 2, .bmapReadonly 13] = s
  have hret : (ext2Bmap s.fs s.inode 13 true).1 = .ok 122 := by
    rw [← hrun]
    decide +kernel
  have hfree : (s.ext2BmapReadonly 13).1 = 0 := by
    rw [← hrun]
    decide +kernel
  generalize hcall : ext2Bmap s.fs s.inode 13 true = r at hret
  obtain ⟨ret, r⟩ := r
  obtain rfl : ret = .ok 122 := hret
  obtain ⟨-, -, hfills⟩ := @block_mapping_injective (newFileOn true) hmapped rfl _ s hrun
  obtain ⟨hhere, hother, hnew⟩ := hfills 13 (by decide) 122 r (by decide) hcall
  refine ⟨s, r, rfl, hcall, hhere, ?_, hother 0 (by decide) (by decide)⟩
  rcases hnew with hold | ⟨-, hunused, -⟩
  · rw [hfree] at hold
    cases hold
  · exact hunused

/-- Mounted as `MKDEV(8, 1)`: once part 12 has been looked up, the block of pointers is cached
under the registered number too, and part 13, which is mapped then, is not found there. -/
theorem bmap_readonly_stale : Mapped (newFileOn false).fs (newFileOn false).inode ∧
      ∃ s, BlockOp.run (newFileOn false) [.bmap 12 true, .bmapReadonly 12, .bmap 13 true] = s ∧
        s.fs.NoErrors ∧ (ext2Bmap s.fs s.inode 13 false).1 = .ok 122 ∧
        (s.ext2BmapReadonly 13).1 = 0 := by
  refine ⟨⟨.empty _ (fun _ => rfl) rfl, ⟨fun _ => rfl, fun _ => rfl⟩, rfl⟩, _, rfl,
    ⟨fun _ => rfl, fun _ => rfl⟩, by decide +kernel, by decide +kernel⟩

end CuteOS.Fs.Ext2
