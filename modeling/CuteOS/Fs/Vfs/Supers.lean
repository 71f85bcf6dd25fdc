/-
  Fs/Vfs/Supers.lean --- super blocks and in-memory inodes of mounted devices.

  Source: `fs/vfs/mount.c`, `fs/vfs/inode.c` and `fs/ext2/super.c`.

  The blocks of a device are in the page cache, once for each device number and block;
  numbers with one `MAJOR` name one device.  A super block keeps copies of the counters in
  the super block and in the group descriptors, and an inode in memory a copy of its record;
  both are read once and then only written.  A volume seen through a super block consists of
  the blocks of the device and of the counters of the super block, and an operation of ext2
  works on that volume and on inodes in memory.  A mount and its super block are in use as
  long as something has a reference to the mount, also when it has been taken off the list.
-/
import CuteOS.Block.PageCache
import CuteOS.Fs.Vfs.Reachable
import CuteOS.Fs.Ext2.Evict

set_option autoImplicit false

namespace CuteOS.Fs.Vfs

open Block (major)
open Function (update update_self update_of_ne)

/-- What the page cache has under the number of a block device. -/
structure Device where
  /-- The bitmaps and blocks, and the counters as they stand in the blocks. -/
  stored : Ext2.Volume
  inodeTable : Nat → Ext2.Inode

/-- `struct super_block` with its `struct ext2_sb_info`. -/
structure SuperBlock where
  sDev : Nat
  bgFreeBlocksCount : Nat → Nat
  bgFreeInodesCount : Nat → Nat
  bgUsedDirsCount : Nat → Nat
  sFreeBlocksCount : Nat
  sFreeInodesCount : Nat

/-- The mounts whose `mnt_refcount` is not zero, of those that were made: those of the list,
those that a held path is in, and those that another one in use sits on. -/
inductive Namespace.InUse (ns : Namespace) (made : List VfsMount) : VfsMount → Prop where
  | listed {m : VfsMount} (hm : m ∈ ns.mountList) : InUse ns made m
  | held {m : VfsMount} {p : Path} (hm : m ∈ made) (hp : p ∈ ns.held) (hid : p.mnt = m.id) :
      InUse ns made m
  | under {m k : VfsMount} (hk : k ∈ made) (hm : InUse ns made m)
      (hparent : m.mntParent = some k.id) : InUse ns made k

/-- `struct inode` in the inode cache; `iSb` names the super block. -/
structure MemInode where
  iSb : Nat
  iIno : Nat
  inode : Ext2.Inode

/-- The mounts, the devices and what is cached of them. -/
structure VfsState where
  ns : Namespace
  /-- Every mount that was made. -/
  made : List VfsMount
  devices : Nat → Device
  supers : Nat → SuperBlock
  icache : List MemInode

namespace VfsState

variable (s : VfsState)

abbrev InUse (m : VfsMount) : Prop := s.ns.InUse s.made m

/-! ## Reading -/

/-- A super block with the counters of a volume. -/
def counters (fs : Ext2.Volume) (dev : Nat) : SuperBlock where
  sDev := dev
  bgFreeBlocksCount := fs.bgFreeBlocksCount
  bgFreeInodesCount := fs.bgFreeInodesCount
  bgUsedDirsCount := fs.bgUsedDirsCount
  sFreeBlocksCount := fs.sFreeBlocksCount
  sFreeInodesCount := fs.sFreeInodesCount

/-- `ext2_read_super`. -/
def ext2ReadSuper (dev : Nat) : SuperBlock := counters (s.devices dev).stored dev

/-- The volume that a super block stands for. -/
def volumeOf (sb : Nat) : Ext2.Volume :=
  let super := s.supers sb
  { (s.devices super.sDev).stored with
    bgFreeBlocksCount := super.bgFreeBlocksCount
    bgFreeInodesCount := super.bgFreeInodesCount
    bgUsedDirsCount := super.bgUsedDirsCount
    sFreeBlocksCount := super.sFreeBlocksCount
    sFreeInodesCount := super.sFreeInodesCount }

/-- The search of `iget` through the hash table. -/
def icacheFind (sb ino : Nat) : Option MemInode :=
  s.icache.find? fun i => i.iSb == sb && i.iIno == ino

/-- The inode that `iget` returns: the cached one, or a copy of its record. -/
def inodeOf (sb ino : Nat) : Ext2.Inode :=
  match s.icacheFind sb ino with
  | some i => i.inode
  | none => (s.devices (s.supers sb).sDev).inodeTable ino

/-- `iget`. -/
def iget (sb ino : Nat) : VfsState :=
  match s.icacheFind sb ino with
  | some _ => s
  | none => { s with icache := s.icache ++ [⟨sb, ino, s.inodeOf sb ino⟩] }

/-! ## Operations -/

/-- What stands in the blocks after the counters that changed have been written. -/
def written {α : Type} [DecidableEq α] (stored seen now : α) : α :=
  if now = seen then stored else now

/-- Store the volume that an operation through `sb` leaves: `ext2_sync_group_desc` and
`ext2_sync_super` copy the counters that it changed. -/
def storeVolume (sb : Nat) (fs : Ext2.Volume) : VfsState :=
  let super := s.supers sb
  let device := s.devices super.sDev
  { s with
    supers := update s.supers sb (counters fs super.sDev)
    devices := update s.devices super.sDev
      { device with
        stored :=
          { fs with
            bgFreeBlocksCount := fun g => written (device.stored.bgFreeBlocksCount g)
              (super.bgFreeBlocksCount g) (fs.bgFreeBlocksCount g)
            bgFreeInodesCount := fun g => written (device.stored.bgFreeInodesCount g)
              (super.bgFreeInodesCount g) (fs.bgFreeInodesCount g)
            bgUsedDirsCount := fun g => written (device.stored.bgUsedDirsCount g)
              (super.bgUsedDirsCount g) (fs.bgUsedDirsCount g)
            sFreeBlocksCount := written device.stored.sFreeBlocksCount super.sFreeBlocksCount
              fs.sFreeBlocksCount
            sFreeInodesCount := written device.stored.sFreeInodesCount super.sFreeInodesCount
              fs.sFreeInodesCount } } }

/-- Change an inode in memory, and write its record. -/
def storeInode (sb ino : Nat) (inode : Ext2.Inode) : VfsState :=
  let device := s.devices (s.supers sb).sDev
  { s with
    icache := s.icache.map fun i => if i.iSb = sb ∧ i.iIno = ino then { i with inode := inode } else i
    devices := update s.devices (s.supers sb).sDev
      { device with inodeTable := update device.inodeTable ino inode } }

/-- An operation on an inode. -/
def work (sb ino : Nat) (op : Ext2.InodeOp Unit) : VfsState :=
  let s := s.iget sb ino
  match op (s.volumeOf sb) (s.inodeOf sb ino) with
  | (_, fs, inode) => (s.storeVolume sb fs).storeInode sb ino inode

/-- `inode_forget`. -/
def inodeForget (sb ino : Nat) : VfsState :=
  { s with icache := s.icache.filter fun i => !(i.iSb == sb && i.iIno == ino) }

/-! ## Runs -/

/-- A call on the name space, or a file operation through a super block: on an inode, on
the bitmaps alone, or one that drops an inode.  The pages under a number that is not mounted
can be dropped, and read again after the device has changed under another number. -/
inductive Action where
  | call (c : Call)
  | work (sb ino : Nat) (op : Ext2.InodeOp Unit)
  | volume (sb : Nat) (op : Ext2.Volume → Ext2.Volume)
  | forget (sb ino : Nat)
  | pages (dev : Nat) (device : Device)

/-- `EXT2_ROOT_INO`. -/
def rootIno : Nat := 2

/-- `vfs_mount`: `ext2_mount` always reads a super block of its own. -/
def mount (p : Path) (dev : Nat) (fs : Except Errno Unit) : VfsState :=
  match s.ns.vfsMount p dev fs with
  | (.error _, ns) => { s with ns := ns }
  | (.ok (), ns) =>
    ({ s with
      ns := ns
      made := s.made ++ [s.ns.newMount p dev]
      supers := update s.supers s.ns.nextMount (s.ext2ReadSuper dev) } : VfsState).iget
      s.ns.nextMount rootIno

def next : Action → VfsState
  | .call (.mount p dev fs) => s.mount p dev fs
  | .call c => { s with ns := s.ns.next c }
  | .work sb ino op => s.work sb ino op
  | .volume sb op => s.storeVolume sb (op (s.volumeOf sb))
  | .forget sb ino => s.inodeForget sb ino
  | .pages dev device => { s with devices := update s.devices dev device }

/-- Paths lead into mounts in use, and file operations go through their super blocks. -/
def Possible : Action → Prop
  | .call (.mount p _ _) | .call (.get p) => ∃ m, s.InUse m ∧ m.id = p.mnt
  | .work sb _ _ | .volume sb _ | .forget sb _ => ∃ m, s.InUse m ∧ m.mntSb = sb
  | .pages dev _ => ∀ m, s.InUse m → m.mntDev ≠ dev
  | .call _ => True

/-- One step of a run. -/
def Step (s : VfsState) (a : Action) (s' : VfsState) : Prop := s.Possible a ∧ s' = s.next a

/-- The state of `vfs_mount_root` after `ext2_read_super`. -/
def bootSuper (devices : Nat → Device) (dev : Nat) : VfsState where
  ns := .boot dev
  made := (Namespace.boot dev).mountList
  devices := devices
  supers _ := counters (devices dev).stored dev
  icache := []

/-- After `vfs_mount_root`. -/
def boot (devices : Nat → Device) (dev : Nat) : VfsState := (bootSuper devices dev).iget 0 rootIno

end VfsState

/-! ## One file system -/

namespace VfsState

/-- An inode in memory whose super block belongs to a mount in use. -/
def Live (s : VfsState) (i : MemInode) : Prop := ∃ m, s.InUse m ∧ m.mntSb = i.iSb

/-- Mounts of one device share the super block, and so the counters and the inodes, and
no two live inodes stand for one inode of a device. -/
structure OneFileSystem (s : VfsState) : Prop where
  super : ∀ m m', s.InUse m → s.InUse m' → major m.mntDev = major m'.mntDev → m.mntSb = m'.mntSb
  inode : s.icache.Pairwise fun i j => s.Live i → s.Live j →
    major (s.supers i.iSb).sDev = major (s.supers j.iSb).sDev → i.iIno ≠ j.iIno
  view : ∀ m m', s.InUse m → s.InUse m' → major m.mntDev = major m'.mntDev →
    s.volumeOf m.mntSb = s.volumeOf m'.mntSb ∧ ∀ ino, s.inodeOf m.mntSb ino = s.inodeOf m'.mntSb ino

/-- The invariant: one mount of a device is in use. -/
structure SupersOk (s : VfsState) : Prop where
  listed : s.ns.mountList ⊆ s.made
  idLt : ∀ m ∈ s.made, m.id < s.ns.nextMount
  idInj : ∀ m ∈ s.made, ∀ m' ∈ s.made, m.id = m'.id → m = m'
  sb : ∀ m ∈ s.made, m.mntSb = m.id ∧ (s.supers m.mntSb).sDev = m.mntDev
  once : ∀ m m', s.InUse m → s.InUse m' → major m.mntDev = major m'.mntDev → m = m'
  cachedLt : ∀ i ∈ s.icache, i.iSb < s.ns.nextMount
  cached : s.icache.Pairwise fun i j => ¬ (i.iSb = j.iSb ∧ i.iIno = j.iIno)

variable {s : VfsState}

section

variable (h : SupersOk s)
include h

theorem SupersOk.mem_made {m : VfsMount} (hm : s.InUse m) : m ∈ s.made := by
  cases hm with
  | listed hm => exact h.listed hm
  | held hm => exact hm
  | under hm => exact hm

theorem SupersOk.oneFileSystem : OneFileSystem s where
  super m m' hm hm' hdev := by rw [h.once m m' hm hm' hdev]
  inode := by
    refine h.cached.imp ?_
    rintro i j hne ⟨m, hm, hi⟩ ⟨m', hm', hj⟩ hdev hino
    rw [← hi, ← hj, (h.sb m (h.mem_made hm)).2, (h.sb m' (h.mem_made hm')).2] at hdev
    rw [h.once m m' hm hm' hdev] at hi
    exact hne ⟨hi.symm.trans hj, hino⟩
  view m m' hm hm' hdev := by
    rw [h.once m m' hm hm' hdev]
    exact ⟨rfl, fun _ => rfl⟩

/-! ## Steps -/

theorem SupersOk.iget {sb : Nat} (hsb : sb < s.ns.nextMount) (ino : Nat) :
    SupersOk (s.iget sb ino) := by
  unfold VfsState.iget
  cases hfind : s.icacheFind sb ino with
  | some i => exact h
  | none =>
    refine ⟨h.listed, h.idLt, h.idInj, h.sb, h.once, ?_, ?_⟩
    · intro i hi
      rcases List.mem_append.mp hi with hi | hi
      · exact h.cachedLt i hi
      · rw [List.mem_singleton.mp hi]
        exact hsb
    · refine List.pairwise_append.mpr ⟨h.cached, List.pairwise_singleton _ _, ?_⟩
      intro i hi j hj
      rw [List.mem_singleton.mp hj]
      rintro ⟨hisb, hiino⟩
      rw [icacheFind, List.find?_eq_none] at hfind
      exact hfind i hi (by rw [hisb, hiino]; simp)

theorem SupersOk.storeVolume (sb : Nat) (fs : Ext2.Volume) : SupersOk (s.storeVolume sb fs) := by
  refine ⟨h.listed, h.idLt, h.idInj, fun m hm => ⟨(h.sb m hm).1, ?_⟩, h.once, h.cachedLt, h.cached⟩
  rw [← (h.sb m hm).2]
  by_cases hsb : m.mntSb = sb
  · change (update s.supers sb _ m.mntSb).sDev = _
    rw [hsb, update_self]
    rfl
  · exact congrArg SuperBlock.sDev (update_of_ne hsb ..)

theorem SupersOk.storeInode (sb ino : Nat) (inode : Ext2.Inode) :
    SupersOk (s.storeInode sb ino inode) := by
  have hkey : ∀ i : MemInode, (if i.iSb = sb ∧ i.iIno = ino then { i with inode := inode } else i).iSb
      = i.iSb ∧ (if i.iSb = sb ∧ i.iIno = ino then { i with inode := inode } else i).iIno = i.iIno := by
    intro i
    split_ifs <;> exact ⟨rfl, rfl⟩
  refine ⟨h.listed, h.idLt, h.idInj, h.sb, h.once, ?_, ?_⟩
  · intro i hi
    obtain ⟨j, hj, rfl⟩ := List.mem_map.mp hi
    rw [(hkey j).1]
    exact h.cachedLt j hj
  · refine List.pairwise_map.mpr (h.cached.imp ?_)
    intro i j hne
    rw [(hkey i).1, (hkey i).2, (hkey j).1, (hkey j).2]
    exact hne

theorem SupersOk.work {sb : Nat} (hsb : sb < s.ns.nextMount) (ino : Nat)
    (op : Ext2.InodeOp Unit) : SupersOk (s.work sb ino op) :=
  ((h.iget hsb ino).storeVolume sb _).storeInode sb ino _

theorem SupersOk.inodeForget (sb ino : Nat) : SupersOk (s.inodeForget sb ino) :=
  ⟨h.listed, h.idLt, h.idInj, h.sb, h.once, fun i hi => h.cachedLt i (List.mem_filter.mp hi).1,
    h.cached.filter _⟩

/-- Calls other than `vfs_mount` bring no mount into use. -/
theorem SupersOk.of_ns {ns : Namespace} (hnext : ns.nextMount = s.ns.nextMount)
    (hlist : ns.mountList ⊆ s.ns.mountList)
    (huse : ∀ m, ns.InUse s.made m → s.InUse m) : SupersOk { s with ns := ns } where
  listed := fun _ hm => h.listed (hlist hm)
  idLt m hm := by
    rw [hnext]
    exact h.idLt m hm
  idInj := h.idInj
  sb := h.sb
  once m m' hm hm' := h.once m m' (huse m hm) (huse m' hm')
  cachedLt i hi := by
    rw [hnext]
    exact h.cachedLt i hi
  cached := h.cached

end

end VfsState

/-! ### The mount list -/

namespace Namespace

variable {ns : Namespace}

/-- What calls other than `vfs_mount` do to the mount list and the held paths. -/
structure Shrinks (c : Call) (ns ns' : Namespace) : Prop where
  nextMount : ns'.nextMount = ns.nextMount
  mountList : ns'.mountList ⊆ ns.mountList
  held : ∀ p ∈ ns'.held, p ∈ ns.held ∨ c = .get p

theorem Shrinks.of_eq {c : Call} {ns' : Namespace} (hnext : ns'.nextMount = ns.nextMount)
    (hlist : ns'.mountList = ns.mountList) (hheld : ns'.held = ns.held) : Shrinks c ns ns' :=
  ⟨hnext, by rw [hlist]; exact List.Subset.refl _, fun p hp => .inl (hheld ▸ hp)⟩

theorem shrinks_next (ns : Namespace) {c : Call} (hc : ∀ p dev fs, c ≠ .mount p dev fs) :
    Shrinks c ns (ns.next c) := by
  cases c with
  | lookup dir name isDir =>
    simp only [next, vfsLookupOne]
    repeat' split
    all_goals exact .of_eq rfl rfl rfl
  | unlink dir name fs =>
    simp only [next, vfsUnlink]
    repeat' split
    all_goals exact .of_eq rfl rfl rfl
  | rmdir dir name empty fs =>
    simp only [next, vfsRmdir]
    repeat' split
    all_goals exact .of_eq rfl rfl rfl
  | rename r =>
    simp only [next, vfsRename]
    repeat' split
    all_goals exact .of_eq rfl rfl rfl
  | mount p dev fs => exact absurd rfl (hc p dev fs)
  | umount p =>
    simp only [next, vfsUmount]
    repeat' split
    · exact .of_eq rfl rfl rfl
    · exact .of_eq rfl rfl rfl
    · exact ⟨rfl, fun m hm => (mem_mountDel.mp hm).1, fun _ hp => .inl hp⟩
  | get p =>
    simp only [next, pathGet]
    split
    · refine ⟨rfl, List.Subset.refl _, fun q hq => ?_⟩
      rcases List.mem_cons.mp hq with rfl | hq
      · exact .inr rfl
      · exact .inl hq
    · exact .of_eq rfl rfl rfl
  | put p =>
    simp only [next, pathPut]
    split
    · exact ⟨rfl, List.Subset.refl _, fun q hq => .inl (List.mem_of_mem_erase hq)⟩
    · exact .of_eq rfl rfl rfl

end Namespace

namespace VfsState

variable {s : VfsState}

/-- The condition: a device is mounted only if no mount of it is in use. -/
def ActionOk (s : VfsState) : Action → Prop
  | .call (.mount _ dev _) => ∀ m, s.InUse m → major m.mntDev ≠ major dev
  | _ => True

section

variable (h : SupersOk s)
include h

/-- What a call that is no `vfs_mount` brings into use was in use. -/
theorem SupersOk.inUse_next {c : Call} {m : VfsMount} (hposs : s.Possible (.call c))
    (hc : ∀ p dev fs, c ≠ .mount p dev fs) (hm : (s.ns.next c).InUse s.made m) : s.InUse m := by
  have hshrinks := s.ns.shrinks_next hc
  induction hm with
  | listed hm => exact .listed (hshrinks.mountList hm)
  | @held m p hm hp hid =>
    rcases hshrinks.held p hp with hp | rfl
    · exact .held hm hp hid
    · obtain ⟨k, hk, hkid⟩ := hposs
      rwa [h.idInj m hm k (h.mem_made hk) (hid.symm.trans hkid.symm)]
  | under hk _ hparent ih => exact .under hk ih hparent

/-- A new mount is the only one that `mount_add` brings into use. -/
theorem SupersOk.inUse_mountAdd {p : Path} {dev : Nat} {m : VfsMount}
    (hp : ∃ m, s.InUse m ∧ m.id = p.mnt)
    (hm : (s.ns.mountAdd p dev).InUse (s.made ++ [s.ns.newMount p dev]) m) :
    s.InUse m ∨ m = s.ns.newMount p dev := by
  induction hm with
  | listed hm => exact (Namespace.mem_mountAdd.mp hm).imp .listed id
  | @held m q hm hq hid =>
    rcases List.mem_append.mp hm with hm | hm
    · exact .inl (.held hm hq hid)
    · exact .inr (List.mem_singleton.mp hm)
  | @under m k hk _ hparent ih =>
    rcases List.mem_append.mp hk with hk | hk
    · rcases ih with hm | rfl
      · exact .inl (.under hk hm hparent)
      · obtain ⟨k', hk', hid⟩ := hp
        rw [h.idInj k hk k' (h.mem_made hk') ((Option.some.inj hparent).symm.trans hid.symm)]
        exact .inl hk'
    · exact .inr (List.mem_singleton.mp hk)

theorem SupersOk.mountAdd {p : Path} {dev : Nat} (hp : ∃ m, s.InUse m ∧ m.id = p.mnt)
    (hdev : ∀ m, s.InUse m → major m.mntDev ≠ major dev) :
    SupersOk { s with
      ns := s.ns.mountAdd p dev
      made := s.made ++ [s.ns.newMount p dev]
      supers := update s.supers s.ns.nextMount (s.ext2ReadSuper dev) } := by
  have hall {P : VfsMount → Prop} (hold : ∀ m ∈ s.made, P m) (hnew : P (s.ns.newMount p dev)) :
      ∀ m ∈ s.made ++ [s.ns.newMount p dev], P m :=
    List.forall_mem_append.mpr ⟨hold, List.forall_mem_singleton.mpr hnew⟩
  refine ⟨?_, ?_, ?_, ?_, fun m m' hm hm' hsame => ?_, ?_, h.cached⟩
  · intro m hm
    exact (Namespace.mem_mountAdd.mp hm).elim (fun hm => List.mem_append_left _ (h.listed hm))
      fun hm => List.mem_append_right _ (List.mem_singleton.mpr hm)
  · exact hall (fun m hm => Nat.lt_succ_of_lt (h.idLt m hm)) (Nat.lt_succ_self _)
  · refine hall (fun m hm => hall (h.idInj m hm) fun heq => ?_)
      (hall (fun m hm heq => ?_) fun _ => rfl)
    · exact absurd heq (Nat.ne_of_lt (h.idLt m hm))
    · exact absurd heq.symm (Nat.ne_of_lt (h.idLt m hm))
  · refine hall (fun m hm => ⟨(h.sb m hm).1, ?_⟩) ⟨rfl, ?_⟩
    · dsimp only
      rw [update_of_ne, (h.sb m hm).2]
      rw [(h.sb m hm).1]
      exact Nat.ne_of_lt (h.idLt m hm)
    · dsimp only [Namespace.newMount]
      rw [update_self]
      rfl
  · rcases h.inUse_mountAdd hp hm with hm | rfl
    · rcases h.inUse_mountAdd hp hm' with hm' | rfl
      · exact h.once m m' hm hm' hsame
      · exact absurd hsame (hdev m hm)
    · rcases h.inUse_mountAdd hp hm' with hm' | rfl
      · exact absurd hsame.symm (hdev m' hm')
      · rfl
  · exact fun i hi => Nat.lt_succ_of_lt (h.cachedLt i hi)

theorem SupersOk.mount {p : Path} {dev : Nat} (fs : Except Errno Unit)
    (hp : ∃ m, s.InUse m ∧ m.id = p.mnt) (hdev : ∀ m, s.InUse m → major m.mntDev ≠ major dev) :
    SupersOk (s.mount p dev fs) := by
  unfold VfsState.mount Namespace.vfsMount
  by_cases hdir : (!s.ns.isDir p.dentry) = true
  · rw [if_pos hdir]
    exact h
  rw [if_neg hdir]
  by_cases hbusy : (s.ns.mountFindByMountpoint p).isSome = true
  · rw [if_pos hbusy]
    exact h
  rw [if_neg hbusy]
  cases fs with
  | error e => exact h
  | ok u => exact (h.mountAdd hp hdev).iget (Nat.lt_succ_self _) rootIno

theorem SupersOk.sb_lt {sb : Nat} (hsb : ∃ m, s.InUse m ∧ m.mntSb = sb) : sb < s.ns.nextMount := by
  obtain ⟨m, hm, rfl⟩ := hsb
  rw [(h.sb m (h.mem_made hm)).1]
  exact h.idLt m (h.mem_made hm)

theorem SupersOk.next {a : Action} (hposs : s.Possible a) (hok : ActionOk s a) :
    SupersOk (s.next a) := by
  cases a with
  | call c =>
    by_cases hmount : ∃ p dev fs, c = .mount p dev fs
    · obtain ⟨p, dev, fs, rfl⟩ := hmount
      exact h.mount fs hposs hok
    · have hc : ∀ p dev fs, c ≠ .mount p dev fs := fun p dev fs heq => hmount ⟨p, dev, fs, heq⟩
      have hshrinks := s.ns.shrinks_next hc
      have hnext : s.next (.call c) = { s with ns := s.ns.next c } := by
        cases c with
        | mount p dev fs => exact absurd rfl (hc p dev fs)
        | _ => rfl
      rw [hnext]
      exact h.of_ns hshrinks.nextMount hshrinks.mountList fun m hm => h.inUse_next hposs hc hm
  | work sb ino op => exact h.work (h.sb_lt hposs) ino op
  | volume sb op => exact h.storeVolume sb _
  | forget sb ino => exact h.inodeForget sb ino
  | pages dev device => exact ⟨h.listed, h.idLt, h.idInj, h.sb, h.once, h.cachedLt, h.cached⟩

end

theorem supersOk_boot (devices : Nat → Device) (dev : Nat) : SupersOk (boot devices dev) := by
  have hmem : ∀ m ∈ (Namespace.boot dev).mountList, m = ⟨0, none, 0, 0, 0, dev, true⟩ :=
    fun m hm => List.mem_singleton.mp hm
  have huse {m : VfsMount} (hm : (bootSuper devices dev).InUse m) :
      m = ⟨0, none, 0, 0, 0, dev, true⟩ := by
    cases hm with
    | listed hm => exact hmem m hm
    | held hm => exact hmem m hm
    | under hm => exact hmem m hm
  have hstart : SupersOk (bootSuper devices dev) := by
    refine ⟨List.Subset.refl _, fun m hm => ?_, fun m hm m' hm' _ => ?_, fun m hm => ?_,
      fun m m' hm hm' _ => ?_, List.forall_mem_nil _, List.Pairwise.nil⟩
    · rw [hmem m hm]
      exact Nat.zero_lt_one
    · rw [hmem m hm, hmem m' hm']
    · rw [hmem m hm]
      exact ⟨rfl, rfl⟩
    · rw [huse hm, huse hm']
  exact hstart.iget Nat.zero_lt_one rootIno

/-- In every state of a run that mounts no device twice, the mounts of a device are one
file system. -/
theorem oneFileSystem_of_run (devices : Nat → Device) (dev : Nat) {s : VfsState}
    (hrun : Lib.Runs Step ActionOk (boot devices dev) s) : OneFileSystem s := by
  have hok : SupersOk s := by
    refine hrun.induct (supersOk_boot devices dev) ?_
    rintro s a s' h hok ⟨hposs, rfl⟩
    exact h.next hposs hok
  exact hok.oneFileSystem

/-- A device with the root directory and an empty file. -/
def smallDevice : Device where
  stored := { Ext2.smallVolume with inodeBitmap := fun _ bit => decide (bit < 3) }
  inodeTable ino :=
    if ino = 3 then
      { ino := 3, iType := .reg, iNlink := 1, iSize := 0, iBlocks := 0, iRdev := 0,
        iBlock := fun _ => 0, owned := [] }
    else Ext2.rootDir

/-- `echo` of five bytes into a file. -/
def writeFive : Ext2.InodeOp Unit := fun fs inode =>
  match Ext2.ext2WriteFile (fun _ => 1) 5 0 fs inode with
  | (ret, fs, inode) => (ret.map fun _ => (), fs, inode)

/-- The root device has a directory `a`. -/
def withDir : VfsState := (boot (fun _ => smallDevice) 0).next (.call (.lookup 0 [97] true))

/-- Another device is mounted on `/a`. -/
def withOther : VfsState := withDir.next (.call (.mount ⟨0, 1⟩ (2 ^ 20) (.ok ())))

/-- A file there is written, and the mount is taken off. -/
def takenOff : VfsState := (withOther.next (.work 1 3 writeFive)).next (.call (.umount ⟨1, 2⟩))

/-- The device is mounted again, under another of its numbers. -/
def remounted : VfsState := takenOff.next (.call (.mount ⟨0, 1⟩ (2 ^ 20 + 1) (.ok ())))

theorem oneFileSystem_remounted :
    remounted.ns.mountList.length = 2 ∧ OneFileSystem remounted := by
  let root : VfsMount := ⟨0, none, 0, 0, 0, 0, true⟩
  have hroot (s : VfsState) (hlist : s.ns.mountList = [root]) : ∃ m, s.InUse m ∧ m.id = 0 :=
    ⟨root, .listed (by rw [hlist]; exact List.mem_singleton_self _), rfl⟩
  -- while nothing else is mounted and no path is held, the root is in use alone
  have halone (s : VfsState) (dev : Nat) (hdev : major dev = 1) (hlist : s.ns.mountList = [root])
      (hheld : s.ns.held = []) (m : VfsMount) (hm : s.InUse m) : major m.mntDev ≠ major dev := by
    have heq : m = root := by
      induction hm with
      | listed hm =>
        rw [hlist] at hm
        exact List.mem_singleton.mp hm
      | held _ hp =>
        rw [hheld] at hp
        cases hp
      | under _ _ hparent ih =>
        rw [ih] at hparent
        cases hparent
    rw [heq, hdev]
    decide
  have hlist1 : withDir.ns.mountList = [root] := by decide +kernel
  have hlist2 : takenOff.ns.mountList = [root] := by decide +kernel
  have hused : withOther.InUse ⟨1, some 0, 1, 2, 1, 2 ^ 20, false⟩ := .listed (by decide +kernel)
  have hmount1 : ActionOk withDir (.call (.mount ⟨0, 1⟩ (2 ^ 20) (.ok ()))) :=
    halone withDir _ (by decide) hlist1 (by decide +kernel)
  have hmount2 : ActionOk takenOff (.call (.mount ⟨0, 1⟩ (2 ^ 20 + 1) (.ok ()))) :=
    halone takenOff _ (by decide) hlist2 (by decide +kernel)
  have hrun : Lib.Runs Step ActionOk (boot (fun _ => smallDevice) 0) remounted :=
    .head ⟨.call (.lookup 0 [97] true), trivial, trivial, rfl⟩
      (.head ⟨_, hmount1, hroot withDir hlist1, rfl⟩
        (.head ⟨.work 1 3 writeFive, trivial, ⟨_, hused, rfl⟩, rfl⟩
          (.head ⟨.call (.umount ⟨1, 2⟩), trivial, trivial, rfl⟩
            (.single ⟨_, hmount2, hroot takenOff hlist2, rfl⟩))))
  exact ⟨by decide +kernel, oneFileSystem_of_run _ 0 hrun⟩

/-- The root device is mounted a second time on `/a`, the file is looked up there, and
then written through the first mount. -/
def mountedTwice : VfsState :=
  [.call (.lookup 0 [97] true), .call (.mount ⟨0, 1⟩ 0 (.ok ())),
    .work 1 3 fun fs inode => (.ok (), fs, inode), .work 0 3 writeFive].foldl next
    (boot (fun _ => smallDevice) 0)

/-- The two mounts of the device disagree on the size of the file and on the number of
free blocks. -/
theorem mountedTwice_disagrees :
    mountedTwice.ns.mountList.map (fun m => (m.mntDev, m.mntSb)) = [(0, 0), (0, 1)] ∧
      (mountedTwice.inodeOf 0 3).iSize = 5 ∧ (mountedTwice.inodeOf 1 3).iSize = 0 ∧
      (mountedTwice.volumeOf 0).sFreeBlocksCount = 7 ∧
      (mountedTwice.volumeOf 1).sFreeBlocksCount = 8 ∧ ¬ OneFileSystem mountedTwice := by
  have hlist : mountedTwice.ns.mountList =
      [⟨0, none, 0, 0, 0, 0, true⟩, ⟨1, some 0, 1, 2, 1, 0, false⟩] := by decide +kernel
  refine ⟨by rw [hlist]; rfl, by decide +kernel, by decide +kernel, by decide +kernel,
    by decide +kernel, fun h => ?_⟩
  have hsb := h.super ⟨0, none, 0, 0, 0, 0, true⟩ ⟨1, some 0, 1, 2, 1, 0, false⟩
    (.listed (by rw [hlist]; decide)) (.listed (by rw [hlist]; decide)) rfl
  cases hsb

end VfsState

end CuteOS.Fs.Vfs
