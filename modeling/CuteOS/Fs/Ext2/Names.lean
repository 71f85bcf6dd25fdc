/-
  Fs/Ext2/Names.lean --- the calls that make, move and remove names.

  Sources: `fs/ext2/dir.c`, `fs/vfs/namei_mutation.c`.

  Unlike in `Fs/Ext2/Dir.lean` the calls search and change the records of the
  directories themselves.  The answers of the page cache, the device and the allocator
  come in two streams, one for the work on the records of directories and one for all
  other work.

  What a dentry says is what a search of the directory finds.  A dentry can differ in two
  ways.  One that still says that there is no such name makes its call fail before
  anything is changed, since `ext2_add_entry` searches the directory too.  One that names
  another inode than the directory is left only by an `ext2_rename` that fails after its
  entries were changed, and then only by a failing `ext2_write_inode`.
-/
import CuteOS.Fs.Ext2.Dotdot

set_option autoImplicit false

namespace CuteOS.Fs.Ext2

/-- The system with other answers to come. -/
def System.withIo (s : System) (io : Io) : System := { s with fs := { s.fs with io := io } }

/-- A volume in use, and the answers to come for the records of directories. -/
structure Disk where
  sys : System
  records : Io

/-- `ret = ...; if (ret < 0) { fail } next`. -/
def andThen {σ α β : Type} (r : Except Errno α × σ) (fail : Errno → σ → Except Errno β × σ)
    (next : α → σ → Except Errno β × σ) : Except Errno β × σ :=
  match r with
  | (.error e, s) => fail e s
  | (.ok a, s) => next a s

namespace Disk

open Directory

/-! ## Work on one inode -/

def onInode {α : Type} (m : Disk) (ino : Nat) (op : InodeOp α) : Except Errno α × Disk :=
  match m.sys.onInode ino op with
  | (ret, s) => (ret, { m with sys := s })

/-- Work on the records of directory `dir`. -/
def onRecords {α : Type} (m : Disk) (dir : Nat) (op : InodeOp α) : Except Errno α × Disk :=
  match (m.sys.withIo m.records).onDir dir op with
  | (ret, s) => (ret, ⟨s.withIo m.sys.fs.io, s.fs.io⟩)

/-- Assign `i_nlink`. -/
def setNlink (m : Disk) (ino : Nat) (count : Nat → Nat) : Disk :=
  (m.onInode ino (Ext2.setNlink count)).2

/-- `ext2_write_inode`. -/
def writeInode (m : Disk) (ino : Nat) : Except Errno Unit × Disk := m.onInode ino ext2WriteInode

def iput (m : Disk) (ino : Nat) (last : Bool) : Disk :=
  { m with sys := Ext2.iput m.sys ino last }

/-- `return ret`. -/
def giveUp {β : Type} (e : Errno) (m : Disk) : Except Errno β × Disk := (.error e, m)

/-- Roll back a new inode and `return ret`. -/
def rollBack {β : Type} (ino : Nat) (e : Errno) (m : Disk) : Except Errno β × Disk :=
  (.error e, { m with sys := ext2RollbackNewInode m.sys ino })

/-- `ext2_find_entry`, of which the callers use the inode number. -/
def findName (name : Name) : InodeOp (Option Nat) := fun fs dir =>
  match Directory.ext2FindEntry name fs dir with
  | (none, fs) => (.ok none, fs, dir)
  | (some (pblock, offset), fs) => (.ok (some (direntAt (fs.page pblock) offset).inode), fs, dir)

/-- `ext2_dir_is_empty`. -/
def isEmpty : InodeOp Bool := fun fs dir =>
  match ext2DirIsEmpty fs dir with
  | (empty, fs) => (.ok empty, fs, dir)

/-- The inode of the dentry `name` below `dir`. -/
def lookup (m : Disk) (dir : Nat) (name : Name) : Except Errno (Option Nat) × Disk :=
  m.onRecords dir (findName name)

/-- `i_mode` says that this is a directory. -/
def isDir (m : Disk) (ino : Nat) : Bool :=
  match m.sys.inodes ino with
  | none => false
  | some inode => inode.iType == .dir

/-- A directory that has not been removed; the dentry of one that has been removed has no
inode. -/
def linked (m : Disk) (dir : Nat) : Bool :=
  match m.sys.inodes dir with
  | none => false
  | some inode => inode.iType == .dir && inode.iNlink != 0

/-- `ext2_file_type`. -/
def ext2FileType : FileType → UInt8
  | .dir => 2
  | .chr => 3
  | .blk => 4
  | .fifo => 5
  | .lnk => 7
  | .sock => 6
  | _ => 1

/-- `ext2_file_type` of the mode of inode `ino`. -/
def fileTypeOf (m : Disk) (ino : Nat) : UInt8 :=
  match m.sys.inodes ino with
  | none => ext2FileType .zero
  | some inode => ext2FileType inode.iType

/-- What `ext2_create`, `ext2_symlink` and `ext2_mkdir` begin with. -/
def newInode (m : Disk) (iType : FileType) (iNlink iSize : Nat) : Except Errno Nat × Disk :=
  match ext2NewInode m.sys iType iNlink iSize with
  | (ret, s) => (ret, { m with sys := s })

/-! ## The calls -/

/-- `n++` for a link count. -/
def more (n : Nat) : Nat := (n + 1) % 2 ^ 32

/-- `n--` for a link count. -/
def fewer (n : Nat) : Nat := (n + (2 ^ 32 - 1)) % 2 ^ 32

/-- `if (n > 0) n--`. -/
def less (n : Nat) : Nat := if n > 0 then n - 1 else n

/-- `ext2_create`; the inode goes to the dentry. -/
def ext2Create (m : Disk) (dir : Nat) (name : Name) (iType : FileType) :
    Except Errno Nat × Disk :=
  andThen (m.lookup dir name) giveUp fun found m =>
  if found.isSome then (.error .eexist, m)
  else
    let iType := if iType = .zero then .reg else iType
    andThen (m.newInode iType 1 0) giveUp fun ino m =>
    andThen (m.writeInode ino) (rollBack ino) fun _ m =>
    andThen (m.onRecords dir (Directory.ext2AddEntry name ino (ext2FileType iType))) (rollBack ino)
      fun _ m => (.ok ino, m)

/-- `ext2_symlink`. -/
def ext2Symlink (m : Disk) (dir : Nat) (name : Name) (target : List UInt8) :
    Except Errno Nat × Disk :=
  if target.length = 0 then (.error .enoent, m)
  else if target.length > blockSize then (.error .enametoolong, m)
  else
    andThen (m.lookup dir name) giveUp fun found m =>
    if found.isSome then (.error .eexist, m)
    else
      andThen (m.newInode .lnk 1 target.length) giveUp fun ino m =>
      andThen (m.onInode ino (storeTarget target)) (rollBack ino) fun _ m =>
      andThen (m.writeInode ino) (rollBack ino) fun _ m =>
      andThen (m.onRecords dir (Directory.ext2AddEntry name ino (ext2FileType .lnk))) (rollBack ino)
        fun _ m =>
      andThen (m.writeInode dir)
        (fun e m => rollBack ino e (m.onRecords dir (Directory.ext2DeleteEntry name)).2) fun _ m =>
      (.ok ino, m)

/-- How `ext2_link` takes the new name back after error `e`. -/
def undoLink (dir ino : Nat) (name : Name) (e : Errno) (m : Disk) : Except Errno Unit × Disk :=
  let m := (m.onRecords dir (Directory.ext2DeleteEntry name)).2
  andThen ((m.setNlink ino fewer).writeInode ino) giveUp fun _ m => (.error e, m)

/-- `ext2_link`. -/
def ext2Link (m : Disk) (ino dir : Nat) (name : Name) : Except Errno Unit × Disk :=
  if m.isDir ino then (.error .eperm, m)
  else
    andThen (m.onRecords dir (Directory.ext2AddEntry name ino (m.fileTypeOf ino))) giveUp fun _ m =>
    andThen ((m.setNlink ino more).writeInode ino) (undoLink dir ino name) fun _ m =>
    andThen (m.writeInode dir) (undoLink dir ino name) fun _ m =>
    (.ok (), m)

/-- `ext2_mkdir`. -/
def ext2Mkdir (m : Disk) (dir : Nat) (name : Name) : Except Errno Nat × Disk :=
  andThen (m.lookup dir name) giveUp fun found m =>
  if found.isSome then (.error .eexist, m)
  else
    andThen (m.newInode .dir 2 0) giveUp fun ino m =>
    andThen (m.writeInode ino) (rollBack ino) fun _ m =>
    andThen (m.onInode ino (ext2MakeEmptyDir (emptyDirBlock ino dir))) (rollBack ino) fun _ m =>
    andThen (m.onRecords dir (Directory.ext2AddEntry name ino (ext2FileType .dir))) (rollBack ino)
      fun _ m =>
    andThen ((m.setNlink dir more).writeInode dir) giveUp fun _ m => (.ok ino, m)

/-- `ext2_unlink`. -/
def ext2Unlink (m : Disk) (dir ino : Nat) (name : Name) (last : Bool) : Except Errno Unit × Disk :=
  if m.isDir ino then (.error .eisdir, m)
  else
    andThen (m.onRecords dir (Directory.ext2DeleteEntry name)) giveUp fun _ m =>
    match (m.setNlink ino less).writeInode ino with
    | (ret, m) => (ret, m.iput ino last)

/-- `ext2_rmdir`. -/
def ext2Rmdir (m : Disk) (dir ino : Nat) (name : Name) (last : Bool) : Except Errno Unit × Disk :=
  if m.isDir ino = false then (.error .enotdir, m)
  else
    andThen (m.onRecords ino isEmpty) giveUp fun empty m =>
    if empty = false then (.error .enotempty, m)
    else
      andThen (m.onRecords dir (Directory.ext2DeleteEntry name)) giveUp fun _ m =>
      andThen (((m.setNlink dir less).setNlink ino fun _ => 0).writeInode ino)
        (fun e m => (.error e, m.iput ino last)) fun _ m =>
      match m.writeInode dir with
      | (ret, m) => (ret, m.iput ino last)

/-- `ext2_unlink` or `ext2_rmdir`. -/
def remove (m : Disk) (dir ino : Nat) (name : Name) (directory last : Bool) :
    Except Errno Unit × Disk :=
  if directory then m.ext2Rmdir dir ino name last else m.ext2Unlink dir ino name last

/-- The call gets to `dentry->d_inode = NULL`. -/
def removeClears (m : Disk) (dir ino : Nat) (name : Name) (directory : Bool) : Bool :=
  if directory then
    m.isDir ino &&
      match m.onRecords ino isEmpty with
      | (.ok true, m) => (m.onRecords dir (Directory.ext2DeleteEntry name)).1.isOk
      | _ => false
  else !m.isDir ino && (m.onRecords dir (Directory.ext2DeleteEntry name)).1.isOk

/-- `rollback_new` of `ext2_rename`. -/
def rollbackNew (newDir : Nat) (newName : Name) (replaced : Option Nat) (e : Errno) (m : Disk) :
    Except Errno Unit × Disk :=
  match replaced with
  | some newIno =>
    (.error e, (m.onRecords newDir
      (Directory.ext2ReplaceEntry newName newIno (m.fileTypeOf newIno))).2)
  | none => (.error e, (m.onRecords newDir (Directory.ext2DeleteEntry newName)).2)

/-- The part of `ext2_rename` that changes entries. -/
def renameEntries (m : Disk) (oldDir oldIno : Nat) (oldName : Name) (newDir : Nat) (newName : Name)
    (replaced : Option Nat) (crossDir : Bool) : Except Errno Unit × Disk :=
  let ftype := m.fileTypeOf oldIno
  andThen
    (match replaced with
    | some _ => m.onRecords newDir (Directory.ext2ReplaceEntry newName oldIno ftype)
    | none => m.onRecords newDir (Directory.ext2AddEntry newName oldIno ftype)) giveUp fun _ m =>
  andThen (if crossDir then m.onRecords oldIno (ext2SetDotdot newDir) else (.ok (), m))
    (rollbackNew newDir newName replaced) fun _ m =>
  andThen (m.onRecords oldDir (Directory.ext2DeleteEntry oldName))
    (fun e m => rollbackNew newDir newName replaced e
      (if crossDir then (m.onRecords oldIno (ext2SetDotdot oldDir)).2 else m)) fun _ m =>
  (.ok (), m)

/-- The part of `ext2_rename` that drops the inode whose name was taken. -/
def dropReplaced (m : Disk) (newDir newIno : Nat) (last : Bool) : Except Errno Unit × Disk :=
  andThen
    (if m.isDir newIno then ((m.setNlink newIno fun _ => 0).setNlink newDir less).writeInode newDir
      else (.ok (), m.setNlink newIno less)) giveUp fun _ m =>
  andThen (m.writeInode newIno) giveUp fun _ m => (.ok (), m.iput newIno last)

/-- The end of `ext2_rename`: a directory has changed places. -/
def countMoved (m : Disk) (oldDir newDir : Nat) : Except Errno Unit × Disk :=
  andThen (((m.setNlink oldDir less).setNlink newDir more).writeInode oldDir) giveUp fun _ m =>
  m.writeInode newDir

/-- The part of `ext2_rename` up to `new_dentry->d_inode = NULL`. -/
def renameNames (m : Disk) (oldDir oldIno : Nat) (oldName : Name) (newDir : Nat) (newName : Name)
    (newIno : Option Nat) (crossDir last : Bool) : Except Errno Unit × Disk :=
  andThen
    (match newIno with
    | none => (.ok (), m)
    | some ino =>
      if m.isDir oldIno = false ∧ m.isDir ino = true then (.error .eisdir, m)
      else if m.isDir oldIno = true ∧ m.isDir ino = false then (.error .enotdir, m)
      else if m.isDir ino then
        andThen (m.onRecords ino isEmpty) giveUp fun empty m =>
        if empty then (.ok (), m) else (.error .enotempty, m)
      else (.ok (), m)) giveUp fun _ m =>
  andThen (m.renameEntries oldDir oldIno oldName newDir newName newIno crossDir) giveUp fun _ m =>
  match newIno with
  | none => (.ok (), m)
  | some ino => m.dropReplaced newDir ino last

/-- `ext2_rename`, given the inodes of the two dentries. -/
def ext2Rename (m : Disk) (oldDir oldIno : Nat) (oldName : Name) (newDir : Nat) (newName : Name)
    (newIno : Option Nat) (noReplace last : Bool) : Except Errno Unit × Disk :=
  let crossDir := m.isDir oldIno && oldDir != newDir
  if noReplace && newIno.isSome then (.error .eexist, m)
  else if newIno = some oldIno then (.ok (), m)
  else
    andThen (m.renameNames oldDir oldIno oldName newDir newName newIno crossDir last) giveUp
      fun _ m =>
    if crossDir then m.countMoved oldDir newDir else (.ok (), m)

/-- `ext2_rename` gets to `new_dentry->d_inode = NULL`. -/
def renameClears (m : Disk) (oldDir oldIno : Nat) (oldName : Name) (newDir : Nat) (newName : Name)
    (newIno : Option Nat) (noReplace last : Bool) : Bool :=
  !(noReplace && newIno.isSome) && newIno != some oldIno &&
    (m.renameNames oldDir oldIno oldName newDir newName newIno
      (m.isDir oldIno && oldDir != newDir) last).1.isOk

/-! ## Through the paths -/

/-- The names that `path_parent_lookupat_path` gives to the calls. -/
def properName (name : Name) : Bool :=
  decide (name ≠ [] ∧ name.length ≤ 255 ∧ name ≠ dot ∧ name ≠ dotdot)

/-- One call.  `last` says that the dentry has the last reference to the inode that goes,
and `forget` is the end of such a reference elsewhere. -/
inductive Call where
  | create (dir : Nat) (name : Name) (iType : FileType)
  | symlink (dir : Nat) (name : Name) (target : List UInt8)
  | link (oldDir : Nat) (oldName : Name) (dir : Nat) (name : Name)
  | mkdir (dir : Nat) (name : Name)
  | unlink (dir : Nat) (name : Name) (last : Bool)
  | rmdir (dir : Nat) (name : Name) (last : Bool)
  | rename (oldDir : Nat) (oldName : Name) (newDir : Nat) (newName : Name) (noReplace last : Bool)
  | forget (ino : Nat)

/-- A call below directory `dir`, once the path has been resolved. -/
def below (m : Disk) (dir : Nat) (name : Name) (call : Except Errno Unit × Disk) :
    Except Errno Unit × Disk :=
  if properName name = true ∧ m.linked dir = true then call else (.error .enoent, m)

/-- A call for the inode of the dentry `name` below `dir`. -/
def onDentry (m : Disk) (dir : Nat) (name : Name) (call : Nat → Disk → Except Errno Unit × Disk) :
    Except Errno Unit × Disk :=
  andThen (m.lookup dir name) giveUp fun found m =>
  match found with
  | none => (.error .enoent, m)
  | some ino => call ino m

/-- Only whether a call succeeds. -/
def returns (r : Except Errno Nat × Disk) : Except Errno Unit × Disk :=
  andThen r giveUp fun _ m => (.ok (), m)

def exec (m : Disk) : Call → Except Errno Unit × Disk
  | .create dir name iType => m.below dir name (returns (m.ext2Create dir name iType))
  | .symlink dir name target => m.below dir name (returns (m.ext2Symlink dir name target))
  | .link oldDir oldName dir name =>
    m.below oldDir oldName (m.below dir name
      (m.onDentry oldDir oldName fun ino m => m.ext2Link ino dir name))
  | .mkdir dir name => m.below dir name (returns (m.ext2Mkdir dir name))
  | .unlink dir name last =>
    m.below dir name (m.onDentry dir name fun ino m => m.ext2Unlink dir ino name last)
  | .rmdir dir name last =>
    m.below dir name (m.onDentry dir name fun ino m => m.ext2Rmdir dir ino name last)
  | .rename oldDir oldName newDir newName noReplace last =>
    m.below oldDir oldName (m.below newDir newName
      (m.onDentry oldDir oldName fun oldIno m =>
        andThen (m.lookup newDir newName) giveUp fun newIno m =>
        m.ext2Rename oldDir oldIno oldName newDir newName newIno noReplace last))
  | .forget ino => (.ok (), m.iput ino true)

end Disk

end CuteOS.Fs.Ext2
