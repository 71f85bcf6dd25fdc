/-
  Fs/Vfs/Dcache.lean --- the dentry cache over an ext2 volume.

  Sources: `fs/vfs/dentry.c`, `fs/vfs/namei.c`, `fs/vfs/namei_mutation.c`.

  The calls are modelled from the point on where the path has been resolved to the
  dentry of a directory and a name.  A dentry is never freed, so its number stands for
  its address.  References to inodes are not counted: `last` says whether the reference
  that a call gives back is the last one.
-/
import CuteOS.Fs.Ext2.Lookup
import CuteOS.Lib.NameCache

set_option autoImplicit false

namespace CuteOS.Fs.Vfs

open Lib.NameCache Ext2

/-! ## The cache -/

/-- `VFS_NAME_MAX`. -/
def vfsNameMax : Nat := 255

/-- `DCACHE_HASH_SIZE`. -/
def dcacheHashSize : Nat := 2 ^ 7

/-- `dentry_hash`. -/
def dentryHash (parent : Nat) (name : Name) : Nat :=
  name.foldl (fun key byte => (key * 33 % wordModulus) ^^^ byte.toNat) parent % dcacheHashSize

/-- The dentries; number 0 is the root of the volume. -/
abbrev Dcache := Cache Nat Name

namespace Dcache

/-- `dentry_alloc`. -/
def dentryAlloc (c : Dcache) (parent : Nat) (name : Name) (memory : Bool) : Option (Nat × Dcache) :=
  if name.length > vfsNameMax then none
  else if memory = false then none
  else some (c.fresh, c.add parent name)

/-- `dcache_lookup`. -/
def dcacheLookup (c : Dcache) (parent : Nat) (name : Name) : Option Nat :=
  if name.length > vfsNameMax then none else c.find (dentryHash parent name) parent name

/-- `dcache_insert`. -/
def dcacheInsert (c : Dcache) (dentry : Nat) : Dcache :=
  c.hash (dentryHash (c.node dentry).parent (c.node dentry).name) dentry

/-- `dcache_invalidate`. -/
def dcacheInvalidate (c : Dcache) (dentry : Nat) : Dcache := (c.setInode dentry none).unhash dentry

/-- `dcache_move`. -/
def dcacheMove (c : Dcache) (dentry newParent : Nat) (newName : Name) : Dcache :=
  if newName.length > vfsNameMax then c
  else dcacheInsert ((c.unhash dentry).setPlace dentry newParent newName) dentry

/-- `dentry_is_ancestor`, for so many rounds. -/
def dentryIsAncestor (c : Dcache) (ancestor : Nat) : Nat → Nat → Bool
  | 0, _ => false
  | rounds + 1, dentry =>
    if dentry = ancestor then true
    else if (c.node dentry).parent = dentry then false
    else dentryIsAncestor c ancestor rounds (c.node dentry).parent

/-- The cache of a volume that has just been mounted. -/
def mounted : Dcache where
  node := Function.update (fun _ => ⟨[], 0, none⟩) 0 ⟨[47], 0, some ext2RootIno⟩
  fresh := 1
  table := []

end Dcache

/-! ## Lookups -/

/-- A volume and the dentries. -/
structure Cached where
  disk : Disk
  dcache : Dcache

namespace Cached

open Dcache

/-- `d_inode`. -/
def dInode (v : Cached) (dentry : Nat) : Option Nat := (v.dcache.node dentry).inode

/-- `vfs_lookup_one_any`.  Only directories have `i_op->lookup`, and what `ext2_lookup`
finds goes into the new dentry. -/
def vfsLookupOneAny (v : Cached) (parent : Nat) (name : Name) (luck : Luck) : Option Nat × Cached :=
  match dcacheLookup v.dcache parent name with
  | some dentry => (some dentry, v)
  | none =>
    match v.dInode parent with
    | none => (none, v)
    | some dir =>
      if v.disk.isDir dir = false then (none, v)
      else
        match dentryAlloc v.dcache parent name luck.dentryOk with
        | none => (none, v)
        | some (dentry, dcache) =>
          match v.disk.ext2Lookup dir name luck with
          | (found, disk) =>
            (some dentry, ⟨disk, dcacheInsert (dcache.setInode dentry found) dentry⟩)

/-- `vfs_lookup_one`: the same, where a dentry without an inode does not count. -/
def vfsLookupOne (v : Cached) (parent : Nat) (name : Name) (luck : Luck) : Option Nat × Cached :=
  match v.vfsLookupOneAny parent name luck with
  | (none, v) => (none, v)
  | (some dentry, v) => (if (v.dInode dentry).isSome then some dentry else none, v)

/-! ## The calls that change names -/

/-- `struct create_target`, with the inode of the parent. -/
structure CreateTarget where
  dir : Nat
  dentry : Nat
  newDentry : Bool

/-- `prepare_create_target`, once the path has been resolved. -/
def prepareCreateTarget (v : Cached) (parent : Nat) (name : Name) (memory : Bool) :
    Except Errno CreateTarget × Cached :=
  match v.dInode parent with
  | none => (.error .enotdir, v)
  | some dir =>
    if v.disk.isDir dir = false then (.error .enotdir, v)
    else
      match dcacheLookup v.dcache parent name with
      | some dentry =>
        if (v.dInode dentry).isSome then (.error .eexist, v)
        else (.ok ⟨dir, dentry, false⟩, v)
      | none =>
        match dentryAlloc v.dcache parent name memory with
        | none => (.error .enomem, v)
        | some (dentry, dcache) => (.ok ⟨dir, dentry, true⟩, { v with dcache := dcache })

/-- `if (new_dentry) dcache_insert(dentry)`. -/
def insertNew (c : Dcache) (target : CreateTarget) : Dcache :=
  if target.newDentry then dcacheInsert c target.dentry else c

/-- `unlink` or `rmdir` of a dentry, which is invalid afterwards. -/
def removeDentry (v : Cached) (dir dentry : Nat) (directory last : Bool) :
    Except Errno Unit × Cached :=
  match v.dInode dentry with
  | none => (.error .enoent, v)
  | some ino =>
    let name := (v.dcache.node dentry).name
    let dcache :=
      if v.disk.removeClears dir ino name directory then v.dcache.setInode dentry none
      else v.dcache
    match v.disk.remove dir ino name directory last with
    | (.error e, disk) => (.error e, ⟨disk, dcache⟩)
    | (.ok (), disk) => (.ok (), ⟨disk, dcacheInvalidate dcache dentry⟩)

/-- `vfs_create_at_path`, `vfs_symlink_at_path` and `vfs_mkdir_at_path`; `make` is the call
of the file system. -/
def vfsMake (v : Cached) (parent : Nat) (name : Name) (memory directory last : Bool)
    (make : Disk → Nat → Except Errno Nat × Disk) : Except Errno Unit × Cached :=
  match v.prepareCreateTarget parent name memory with
  | (.error e, v) => (.error e, v)
  | (.ok target, v) =>
    match make v.disk target.dir with
    | (.error e, disk) => (.error e, { v with disk := disk })
    | (.ok ino, disk) =>
      let dcache := v.dcache.setInode target.dentry (some ino)
      -- `vfs_init_inode_owner`
      match disk.writeInode ino with
      | (.ok (), disk) => (.ok (), ⟨disk, insertNew dcache target⟩)
      | (.error e, disk) =>
        -- `rollback_create_target`
        (.error e, (removeDentry ⟨disk, dcache⟩ target.dir target.dentry directory last).2)

/-- `vfs_create_at_path`. -/
def vfsCreate (v : Cached) (parent : Nat) (name : Name) (iType : FileType) (memory last : Bool) :
    Except Errno Unit × Cached :=
  v.vfsMake parent name memory false last fun m dir => m.ext2Create dir name iType

/-- `vfs_symlink_at_path`. -/
def vfsSymlink (v : Cached) (parent : Nat) (name : Name) (target : List UInt8)
    (memory last : Bool) : Except Errno Unit × Cached :=
  if target.length = 0 then (.error .enoent, v)
  else v.vfsMake parent name memory false last fun m dir => m.ext2Symlink dir name target

/-- `vfs_mkdir_at_path`. -/
def vfsMkdir (v : Cached) (parent : Nat) (name : Name) (memory last : Bool) :
    Except Errno Unit × Cached :=
  v.vfsMake parent name memory true last fun m dir => m.ext2Mkdir dir name

/-- `vfs_link_at_path`. -/
def vfsLink (v : Cached) (oldDentry parent : Nat) (name : Name) (memory : Bool) :
    Except Errno Unit × Cached :=
  match v.dInode oldDentry with
  | none => (.error .enoent, v)
  | some ino =>
    if v.disk.isDir ino then (.error .eperm, v)
    else
      match v.prepareCreateTarget parent name memory with
      | (.error e, v) => (.error e, v)
      | (.ok target, v) =>
        match v.disk.ext2Link ino target.dir name with
        | (.error e, disk) => (.error e, { v with disk := disk })
        | (.ok (), disk) =>
          (.ok (), ⟨disk, insertNew (v.dcache.setInode target.dentry (some ino)) target⟩)

/-- Device nodes have no `i_op`. -/
def hasInodeOps (v : Cached) (ino : Nat) : Bool :=
  match v.disk.sys.inodes ino with
  | none => false
  | some inode => !inode.isDevice

/-- `vfs_unlink_at_path`; `directory` is `AT_REMOVEDIR`. -/
def vfsUnlink (v : Cached) (parent : Nat) (name : Name) (luck : Luck) (directory last : Bool) :
    Except Errno Unit × Cached :=
  match v.dInode parent with
  | none => (.error .enotdir, v)
  | some dir =>
    if v.hasInodeOps dir = false then (.error .enotdir, v)
    else
      match v.vfsLookupOne parent name luck with
      | (none, v) => (.error .enoent, v)
      | (some dentry, v) => v.removeDentry dir dentry directory last

/-- The end of `vfs_rename_at_path`. -/
def renameDentry (v : Cached) (oldDir oldDentry newParent newDir newDentry : Nat) (newName : Name)
    (noReplace last : Bool) : Except Errno Unit × Cached :=
  match v.dInode oldDentry with
  | none => (.error .enoent, v)
  | some oldIno =>
    let oldName := (v.dcache.node oldDentry).name
    let newIno := v.dInode newDentry
    let dcache :=
      if v.disk.renameClears oldDir oldIno oldName newDir newName newIno noReplace last then
        v.dcache.setInode newDentry none
      else v.dcache
    match v.disk.ext2Rename oldDir oldIno oldName newDir newName newIno noReplace last with
    | (.error e, disk) => (.error e, ⟨disk, dcache⟩)
    | (.ok (), disk) =>
      (.ok (),
        ⟨disk, dcacheMove (dcacheInvalidate dcache newDentry) oldDentry newParent newName⟩)

/-- The inode of the dentry is a directory. -/
def dentryIsDir (v : Cached) (dentry : Nat) : Bool :=
  match v.dInode dentry with
  | none => false
  | some ino => v.disk.isDir ino

/-- `vfs_rename_at_path`. -/
def vfsRename (v : Cached) (oldParent : Nat) (oldName : Name) (newParent : Nat) (newName : Name)
    (luck luck' : Luck) (noReplace last : Bool) : Except Errno Unit × Cached :=
  match v.dInode oldParent, v.dInode newParent with
  | some oldDir, some newDir =>
    if v.hasInodeOps oldDir = false ∨ v.hasInodeOps newDir = false then (.error .enotdir, v)
    else if v.disk.isDir oldDir = false then (.error .einval, v)
    else
      match v.vfsLookupOne oldParent oldName luck with
      | (none, v) => (.error .enoent, v)
      | (some oldDentry, v) =>
        match v.vfsLookupOneAny newParent newName luck' with
        | (none, v) => (.error .enomem, v)
        | (some newDentry, v) =>
          if oldDentry = newDentry then
            (if noReplace then .error .eexist else .ok (), v)
          else if v.dentryIsDir oldDentry &&
              dentryIsAncestor v.dcache oldDentry v.dcache.fresh newParent then
            (.error .einval, v)
          else
            v.renameDentry oldDir oldDentry newParent newDir newDentry newName noReplace last
  | _, _ => (.error .enotdir, v)

/-! ## Runs -/

/-- One call.  `forget` is the end of the last reference to an inode that has no name. -/
inductive Op where
  | lookup (parent : Nat) (name : Name) (luck : Luck)
  | create (parent : Nat) (name : Name) (iType : FileType) (memory last : Bool)
  | symlink (parent : Nat) (name : Name) (target : List UInt8) (memory last : Bool)
  | mkdir (parent : Nat) (name : Name) (memory last : Bool)
  | link (oldDentry parent : Nat) (name : Name) (memory : Bool)
  | unlink (parent : Nat) (name : Name) (luck : Luck) (directory last : Bool)
  | rename (oldParent : Nat) (oldName : Name) (newParent : Nat) (newName : Name)
      (luck luck' : Luck) (noReplace last : Bool)
  | forget (ino : Nat)

/-- The state after a call. -/
def exec (v : Cached) : Op → Cached
  | .lookup parent name luck => (v.vfsLookupOne parent name luck).2
  | .create parent name iType memory last => (v.vfsCreate parent name iType memory last).2
  | .symlink parent name target memory last => (v.vfsSymlink parent name target memory last).2
  | .mkdir parent name memory last => (v.vfsMkdir parent name memory last).2
  | .link oldDentry parent name memory => (v.vfsLink oldDentry parent name memory).2
  | .unlink parent name luck directory last => (v.vfsUnlink parent name luck directory last).2
  | .rename oldParent oldName newParent newName luck luck' noReplace last =>
    (v.vfsRename oldParent oldName newParent newName luck luck' noReplace last).2
  | .forget ino => { v with disk := v.disk.iput ino true }

end Cached

end CuteOS.Fs.Vfs
