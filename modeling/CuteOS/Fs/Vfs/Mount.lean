/-
  Fs/Vfs/Mount.lean --- the mount table and the name space.

  Source: `fs/vfs/mount.c`, `fs/vfs/namei.c`, `fs/vfs/namei_mutation.c` and
  `fs/vfs/dentry.c`.

  Dentries and mounts are numbered in the order of their allocation, and none is ever
  freed.  A call that changes the name space is given the directories that its path
  walks end in, so symbolic links, `..` and relative paths need no cases of their own.
  A name that is on the disk and not yet in the dentry cache is entered by
  `vfsLookupOne`, like a name that is created.
-/
import CuteOS.Kernel.Types
import CuteOS.Lib.Forest
import Mathlib.Data.List.Range

set_option autoImplicit false

namespace CuteOS.Fs.Vfs

open Lib.Forest

/-! ## The state -/

/-- `struct path`. -/
structure Path where
  mnt : Nat
  dentry : Nat
  deriving DecidableEq, Repr

/-- `struct dentry`. -/
structure Dentry where
  dParent : Nat
  dName : Name
  dSb : Nat
  /-- The inode, or what is of interest of it here: whether it is a directory. -/
  dInode : Option Bool
  hashed : Bool
  deriving DecidableEq, Repr

/-- `struct vfsmount`; `id` stands for its address. -/
structure VfsMount where
  id : Nat
  mntParent : Option Nat
  mntMountpoint : Nat
  mntRoot : Nat
  mntSb : Nat
  mntDev : Nat
  mntIsRoot : Bool
  deriving DecidableEq, Repr

/-- The dentries, `mount_list`, and the counters of the mounts. -/
structure Namespace where
  dentries : Nat → Dentry
  nextDentry : Nat
  mountList : List VfsMount
  nextMount : Nat
  mntActiveRefs : Nat → Nat
  /-- Ghost: the paths that open files and working directories hold. -/
  held : List Path

namespace Namespace

variable (ns : Namespace)

def parent (d : Nat) : Nat := (ns.dentries d).dParent

def linked (d : Nat) : Prop := (ns.dentries d).hashed = true

def isDir (d : Nat) : Bool := (ns.dentries d).dInode == some true

/-! ## Path walks -/

/-- `mount_find_by_mountpoint`. -/
def mountFindByMountpoint (p : Path) : Option VfsMount :=
  ns.mountList.find? fun m => m.mntParent == some p.mnt && m.mntMountpoint == p.dentry

/-- `mount_find_by_root`. -/
def mountFindByRoot (p : Path) : Option VfsMount :=
  ns.mountList.find? fun m => m.id == p.mnt && m.mntRoot == p.dentry

/-- `dcache_lookup`; there is at most one hashed dentry of a name in a directory. -/
def dcacheLookup (dir : Nat) (name : Name) : Option Nat :=
  (List.range ns.nextDentry).find? fun d =>
    (ns.dentries d).hashed && (ns.dentries d).dParent == dir && (ns.dentries d).dName == name

/-- `vfs_follow_mount`. -/
def vfsFollowMount (p : Path) : Path :=
  match ns.mountFindByMountpoint p with
  | some m => if m.id ≠ p.mnt ∨ m.mntRoot ≠ p.dentry then ⟨m.id, m.mntRoot⟩ else p
  | none => p

/-- `walk_path` over a list of names. -/
def walkPath : Path → List Name → Option Path
  | cur, [] => some cur
  | cur, name :: rest =>
    if ns.isDir cur.dentry then
      match ns.dcacheLookup cur.dentry name with
      | some d => walkPath (ns.vfsFollowMount ⟨cur.mnt, d⟩) rest
      | none => none
    else none

/-- The root of the name space. -/
def rootPath : Option Path :=
  (ns.mountList.find? fun m => m.mntIsRoot).map fun m => ⟨m.id, m.mntRoot⟩

/-- `path_lookupat_path` of an absolute path. -/
def pathLookup (names : List Name) : Option Path :=
  ns.rootPath.bind fun p => ns.walkPath (ns.vfsFollowMount p) names

/-! ## Changes of the name space -/

def setDentry (d : Nat) (dentry : Dentry) : Namespace :=
  { ns with dentries := Function.update ns.dentries d dentry }

/-- `dentry_alloc` and `dcache_insert`. -/
def dentryAdd (dir : Nat) (name : Name) (isDir : Bool) : Namespace :=
  { ns.setDentry ns.nextDentry ⟨dir, name, (ns.dentries dir).dSb, some isDir, true⟩ with
    nextDentry := ns.nextDentry + 1 }

/-- `dcache_invalidate`. -/
def dcacheInvalidate (d : Nat) : Namespace :=
  ns.setDentry d { ns.dentries d with dInode := none, hashed := false }

/-- `dcache_move`. -/
def dcacheMove (d dir : Nat) (name : Name) : Namespace :=
  ns.setDentry d { ns.dentries d with
    dParent := dir, dName := name, dSb := (ns.dentries dir).dSb, hashed := true }

/-- A name that is created, or that `vfs_lookup_one` finds on the disk. -/
def vfsLookupOne (dir : Nat) (name : Name) (isDir : Bool) : Except Errno Unit × Namespace :=
  if !ns.isDir dir then (.error .enotdir, ns)
  else
    match ns.dcacheLookup dir name with
    | some _ => (.error .eexist, ns)
    | none => (.ok (), ns.dentryAdd dir name isDir)

/-- `vfs_unlink_at_path` without `AT_REMOVEDIR`; `fs` is the result of the file system. -/
def vfsUnlink (dir : Nat) (name : Name) (fs : Except Errno Unit) : Except Errno Unit × Namespace :=
  if !ns.isDir dir then (.error .enotdir, ns)
  else
    match ns.dcacheLookup dir name with
    | none => (.error .enoent, ns)
    | some d =>
      if ns.isDir d then (.error .eisdir, ns)
      else
        match fs with
        | .error e => (.error e, ns)
        | .ok () => (.ok (), ns.dcacheInvalidate d)

/-- `vfs_unlink_at_path` with `AT_REMOVEDIR`; `empty` is the answer of `ext2_dir_is_empty`,
which reads the disk: the dentry cache may know names in the directory that are gone. -/
def vfsRmdir (dir : Nat) (name : Name) (empty : Bool) (fs : Except Errno Unit) :
    Except Errno Unit × Namespace :=
  if !ns.isDir dir then (.error .enotdir, ns)
  else
    match ns.dcacheLookup dir name with
    | none => (.error .enoent, ns)
    | some d =>
      if !ns.isDir d then (.error .enotdir, ns)
      else if !empty then (.error .enotempty, ns)
      else
        match fs with
        | .error e => (.error e, ns)
        | .ok () => (.ok (), ns.dcacheInvalidate d)

/-- The checks of `ext2_rename` on an existing target. -/
def renameTarget (old : Nat) (new : Option Nat) (noReplace empty : Bool) : Except Errno Unit :=
  match new with
  | none => .ok ()
  | some new =>
    if noReplace then .error .eexist
    else if !ns.isDir old && ns.isDir new then .error .eisdir
    else if ns.isDir old && !ns.isDir new then .error .enotdir
    else if ns.isDir new && !empty then .error .enotempty
    else .ok ()

/-- The arguments of `vfs_rename_at_path` after the path walks, and what the file system
says. -/
structure Rename where
  oldDir : Nat
  oldName : Name
  newDir : Nat
  newName : Name
  noReplace : Bool
  empty : Bool
  fs : Except Errno Unit

/-- `vfs_rename_at_path`. -/
def vfsRename (r : Rename) : Except Errno Unit × Namespace :=
  if !ns.isDir r.oldDir || !ns.isDir r.newDir then (.error .enotdir, ns)
  else if (ns.dentries r.oldDir).dSb ≠ (ns.dentries r.newDir).dSb then (.error .exdev, ns)
  else
    match ns.dcacheLookup r.oldDir r.oldName with
    | none => (.error .enoent, ns)
    | some old =>
      let new := ns.dcacheLookup r.newDir r.newName
      if new = some old then (if r.noReplace then .error .eexist else .ok (), ns)
      else if ns.isDir old && isAncestor ns.parent ns.nextDentry old r.newDir then
        (.error .einval, ns)
      else
        match ns.renameTarget old new r.noReplace r.empty with
        | .error e => (.error e, ns)
        | .ok () =>
          match r.fs with
          | .error e => (.error e, ns)
          | .ok () =>
            let ns := match new with
              | some new => ns.dcacheInvalidate new
              | none => ns
            (.ok (), ns.dcacheMove old r.newDir r.newName)

/-! ## Mounts -/

/-- The mount that `mount_add` makes of a file system that `fs_type->mount` has just
read: its super block and its root dentry are new, too. -/
def newMount (p : Path) (dev : Nat) : VfsMount where
  id := ns.nextMount
  mntParent := some p.mnt
  mntMountpoint := p.dentry
  mntRoot := ns.nextDentry
  mntSb := ns.nextMount
  mntDev := dev
  mntIsRoot := false

/-- `mount_add`. -/
def mountAdd (p : Path) (dev : Nat) : Namespace :=
  { ns.setDentry ns.nextDentry ⟨ns.nextDentry, [47], ns.nextMount, some true, false⟩ with
    nextDentry := ns.nextDentry + 1
    mountList := ns.mountList ++ [ns.newMount p dev]
    nextMount := ns.nextMount + 1
    mntActiveRefs := Function.update ns.mntActiveRefs ns.nextMount 0 }

/-- `vfs_mount` after its path walks; `fs` is the result of `fs_type->mount`. -/
def vfsMount (p : Path) (dev : Nat) (fs : Except Errno Unit) : Except Errno Unit × Namespace :=
  if !ns.isDir p.dentry then (.error .enotdir, ns)
  else if (ns.mountFindByMountpoint p).isSome then (.error .ebusy, ns)
  else
    match fs with
    | .error e => (.error e, ns)
    | .ok () => (.ok (), ns.mountAdd p dev)

/-- `list_del(&mnt->mnt_list)`. -/
def mountDel (m : VfsMount) : Namespace :=
  { ns with mountList := ns.mountList.filter fun m' => m'.id != m.id }

/-- `vfs_umount` after its path walk. -/
def vfsUmount (p : Path) : Except Errno Unit × Namespace :=
  match ns.mountFindByRoot p with
  | none => (.error .einval, ns)
  | some m =>
    if m.mntIsRoot || ns.mntActiveRefs m.id > 0 then (.error .ebusy, ns)
    else (.ok (), ns.mountDel m)

/-- `path_get`, by a file that is opened or a task that changes its directory.  Through `..`
a walk also gets into a mount that has been taken off the list. -/
def pathGet (p : Path) : Namespace :=
  if p.mnt < ns.nextMount then
    { ns with
      mntActiveRefs := Function.update ns.mntActiveRefs p.mnt (ns.mntActiveRefs p.mnt + 1)
      held := p :: ns.held }
  else ns

/-- `path_put` of a path that is held. -/
def pathPut (p : Path) : Namespace :=
  if p ∈ ns.held then
    { ns with
      mntActiveRefs := Function.update ns.mntActiveRefs p.mnt (ns.mntActiveRefs p.mnt - 1)
      held := ns.held.erase p }
  else ns

end Namespace

/-! ## Runs -/

/-- The calls. -/
inductive Call where
  | lookup (dir : Nat) (name : Name) (isDir : Bool)
  | unlink (dir : Nat) (name : Name) (fs : Except Errno Unit)
  | rmdir (dir : Nat) (name : Name) (empty : Bool) (fs : Except Errno Unit)
  | rename (r : Namespace.Rename)
  | mount (p : Path) (dev : Nat) (fs : Except Errno Unit)
  | umount (p : Path)
  | get (p : Path)
  | put (p : Path)

/-- The state after a call. -/
def Namespace.next (ns : Namespace) : Call → Namespace
  | .lookup dir name isDir => (ns.vfsLookupOne dir name isDir).2
  | .unlink dir name fs => (ns.vfsUnlink dir name fs).2
  | .rmdir dir name empty fs => (ns.vfsRmdir dir name empty fs).2
  | .rename r => (ns.vfsRename r).2
  | .mount p dev fs => (ns.vfsMount p dev fs).2
  | .umount p => (ns.vfsUmount p).2
  | .get p => ns.pathGet p
  | .put p => ns.pathPut p

/-- After `vfs_mount_root`. -/
def Namespace.boot (dev : Nat) : Namespace where
  dentries d := if d = 0 then ⟨0, [47], 0, some true, false⟩ else ⟨d, [], 0, none, false⟩
  nextDentry := 1
  mountList := [⟨0, none, 0, 0, 0, dev, true⟩]
  nextMount := 1
  mntActiveRefs _ := 0
  held := []

end CuteOS.Fs.Vfs
