/-
  Fs/Ext2/Dir.lean --- creating, writing and removing ext2 files.

  Sources: `fs/ext2/dir.c`, `fs/ext2/file.c`, `ext2_evict_inode` of
  `fs/ext2/super.c`, `fs/vfs/inode.c`, `vfs_mknod_at_path` of
  `fs/vfs/namei_mutation.c`.

  The system is a volume with its inodes.  What the directory entries say is left
  open: a search of a directory is given by its outcome, together with the bytes that
  the change leaves in the directory block.  `evictions` records every inode that was
  freed, with the volume before and after.
-/
import CuteOS.Fs.Ext2.Bmap

set_option autoImplicit false

namespace CuteOS.Fs.Ext2

/-- `ext2_free_inode_blocks` ran for `inode`. -/
structure Eviction where
  before : Volume
  inode : Inode
  after : Volume

/-- A mounted volume and the inodes in use. -/
structure System where
  fs : Volume
  inodes : Nat → Option Inode
  /-- Ghost: the inodes freed so far, the latest first. -/
  evictions : List Eviction

/-- An operation on one inode. -/
abbrev InodeOp (α : Type) := Volume → Inode → Except Errno α × Volume × Inode

namespace System

def setInode (s : System) (ino : Nat) (inode : Option Inode) : System :=
  { s with inodes := Function.update s.inodes ino inode }

/-- Run an operation on inode `ino`; the callers hold a reference to it. -/
def onInode {α : Type} (s : System) (ino : Nat) (op : InodeOp α) : Except Errno α × System :=
  match s.inodes ino with
  | none => (.error .enoent, s)
  | some inode =>
    match op s.fs inode with
    | (ret, fs, inode) => (ret, { s with fs := fs }.setInode ino (some inode))

/-- Run an operation on a directory; path lookup has checked that it is one. -/
def onDir {α : Type} (s : System) (ino : Nat) (op : InodeOp α) : Except Errno α × System :=
  s.onInode ino fun fs dir =>
    if dir.iType = .dir then op fs dir else (.error .enotdir, fs, dir)

end System

/-- `ret = ...; if (ret < 0) { fail } next`. -/
def onResult {α β : Type} (r : Except Errno α × System)
    (fail : Errno → System → Except Errno β × System)
    (next : α → System → Except Errno β × System) : Except Errno β × System :=
  match r with
  | (.error e, s) => fail e s
  | (.ok a, s) => next a s

/-- `return ret`. -/
def giveUp {β : Type} (e : Errno) (s : System) : Except Errno β × System := (.error e, s)

/-! ## Dropping inodes -/

/-- `ext2_evict_inode`. -/
def ext2EvictInode (s : System) (inode : Inode) : System :=
  if inode.iNlink = 0 then
    let fs := (ext2FreeInodeBlocks s.fs inode).1
    { fs := ext2FreeInode fs inode.ino
      inodes := s.inodes
      evictions := ⟨s.fs, inode, fs⟩ :: s.evictions }
  else s

/-- `inode_forget`. -/
def inodeForget (s : System) (ino : Nat) : System :=
  match s.inodes ino with
  | none => s
  | some inode => (ext2EvictInode s inode).setInode ino none

/-- `iput`; `last` says that this was the last reference. -/
def iput (s : System) (ino : Nat) (last : Bool) : System :=
  match s.inodes ino with
  | none => s
  | some inode => if last = true ∧ inode.iNlink = 0 then inodeForget s ino else s

/-- Assign `i_nlink`. -/
def setNlink (count : Nat → Nat) : InodeOp Unit :=
  fun fs inode => (.ok (), fs, { inode with iNlink := count inode.iNlink })

/-- `ext2_rollback_new_inode`. -/
def ext2RollbackNewInode (s : System) (ino : Nat) : System :=
  inodeForget (s.onInode ino (setNlink fun _ => 0)).2 ino

/-- Roll back and `return ret`. -/
def rollBack {β : Type} (ino : Nat) (e : Errno) (s : System) : Except Errno β × System :=
  (.error e, ext2RollbackNewInode s ino)

/-! ## Directory entries -/

/-- What `ext2_find_entry` and the scan of `ext2_add_entry` come to: the name is there;
a page cannot be read; there is room in block `lblock`; there is none, so a block is
added.  `bytes` is what the block then holds. -/
inductive EntryScan where
  | found
  | unreadable
  | room (lblock : Nat) (bytes : Nat → UInt8)
  | full (bytes : Nat → UInt8)

/-- Store `bytes` in a page and write it, as `ext2_sync_dir_page` does. -/
def storePage (fs : Volume) (block : Nat) (bytes : Nat → UInt8) : Except Errno Unit × Volume :=
  match (fs.setPage block bytes).pageCacheSyncPage with
  | (false, fs) => (.error .eio, fs)
  | (true, fs) => (.ok (), fs)

/-- `ext2_bmap` for a page that is to be filled: `ext2_new_inode_page` after it needs
memory for the page. -/
def ext2NewBlock (block : Nat) (bytes : Nat → UInt8) : InodeOp Unit := fun fs inode =>
  match ext2Bmap fs inode block true with
  | (.error e, fs, inode) => (.error e, fs, inode)
  | (.ok 0, fs, inode) => (.error .enospc, fs, inode)
  | (.ok (pblock + 1), fs, inode) =>
    match fs.kmalloc with
    | (false, fs) => (.error .eio, fs, inode)
    | (true, fs) =>
      match storePage fs (pblock + 1) bytes with
      | (ret, fs) => (ret, fs, inode)

/-- A change inside a block that the inode has. -/
def ext2ChangeBlock (lblock : Nat) (bytes : Nat → UInt8) : InodeOp Unit := fun fs inode =>
  match ext2BmapReadonly fs inode lblock with
  | (0, fs) => (.error .eio, fs, inode)
  | (pblock + 1, fs) =>
    match storePage fs (pblock + 1) bytes with
    | (ret, fs) => (ret, fs, inode)

/-- Add to `i_size` and write the inode. -/
def growAndWrite : InodeOp Unit := fun fs inode =>
  ext2WriteInode fs { inode with iSize := inode.iSize + blockSize }

/-- `ext2_add_entry`. -/
def ext2AddEntry (scan : EntryScan) : InodeOp Unit := fun fs dir =>
  match scan with
  | .found => (.error .eexist, fs, dir)
  | .unreadable => (.error .eio, fs, dir)
  | .room lblock bytes => ext2ChangeBlock lblock bytes fs dir
  | .full bytes =>
    match ext2NewBlock ((dir.iSize + blockSize - 1) / blockSize) bytes fs dir with
    | (.error e, fs, dir) => (.error e, fs, dir)
    | (.ok (), fs, dir) => growAndWrite fs dir

/-- `ext2_delete_entry`; `none` when the name is not found. -/
def ext2DeleteEntry (entry : Option (Nat × (Nat → UInt8))) : InodeOp Unit := fun fs dir =>
  match entry with
  | none => (.error .enoent, fs, dir)
  | some (lblock, bytes) => ext2ChangeBlock lblock bytes fs dir

/-! ## Making inodes -/

/-- `iget` for a number just allocated: memory for the inode and for its private part,
and the page that holds it. -/
def igetResources (fs : Volume) : Bool × Volume :=
  match fs.kmalloc with
  | (false, fs) => (false, fs)
  | (true, fs) =>
    match fs.kmalloc with
    | (false, fs) => (false, fs)
    | (true, fs) => fs.pageCacheGetBlock

/-- What `ext2_create`, `ext2_symlink` and `ext2_mkdir` begin with: a number, the inode
in memory, and `raw_inode` cleared. -/
def ext2NewInode (s : System) (iType : FileType) (iNlink iSize : Nat) :
    Except Errno Nat × System :=
  match ext2AllocInode s.fs (iType == .dir) with
  | (0, fs) => (.error .enospc, { s with fs := fs })
  | (ino + 1, fs) =>
    match igetResources fs with
    | (false, fs) => (.error .eio, { s with fs := ext2FreeInode fs (ino + 1) })
    | (true, fs) =>
      let inode : Inode :=
        { ino := ino + 1
          iType := iType
          iNlink := iNlink
          iSize := iSize
          iBlocks := 0
          iRdev := 0
          iBlock := fun _ => 0
          -- an inode of this number that is in memory would be found by `iget`
          owned := match s.inodes (ino + 1) with
            | none => []
            | some old => old.owned }
      (.ok (ino + 1), { s with fs := fs }.setInode (ino + 1) (some inode))

/-- `ext2_create`; the type zero means a regular file. -/
def ext2Create (s : System) (dir : Nat) (scan : EntryScan) (iType : FileType) :
    Except Errno Nat × System :=
  match scan with
  | .found => (.error .eexist, s)
  | _ =>
    onResult (ext2NewInode s (if iType = .zero then .reg else iType) 1 0) giveUp fun ino s =>
    onResult (s.onInode ino ext2WriteInode) (rollBack ino) fun _ s =>
    onResult (s.onDir dir (ext2AddEntry scan)) (rollBack ino) fun _ s =>
    (.ok ino, s)

/-- The bytes of a target that does not fill the word end with zeros. -/
def inlineWord (target : List UInt8) (i : Nat) : Nat :=
  (target.getD (4 * i) 0).toNat + 256 * (target.getD (4 * i + 1) 0).toNat +
    65536 * (target.getD (4 * i + 2) 0).toNat + 16777216 * (target.getD (4 * i + 3) 0).toNat

/-- Where `ext2_symlink` puts the target: into `i_block[]` if it fits there, else into
the first block. -/
def storeTarget (target : List UInt8) : InodeOp Unit := fun fs inode =>
  if target.length ≤ 4 * nBlocks then
    (.ok (), fs, { inode with iBlock := inlineWord target })
  else ext2NewBlock 0 (fun off => target.getD off 0) fs inode

/-- `ext2_symlink`; `undo` is the entry that is deleted again when the directory cannot
be written at the end. -/
def ext2Symlink (s : System) (dir : Nat) (scan : EntryScan) (target : List UInt8)
    (undo : Option (Nat × (Nat → UInt8))) : Except Errno Nat × System :=
  if target.length = 0 then (.error .enoent, s)
  else if target.length > blockSize then (.error .enametoolong, s)
  else
    match scan with
    | .found => (.error .eexist, s)
    | _ =>
      onResult (ext2NewInode s .lnk 1 target.length) giveUp fun ino s =>
      onResult (s.onInode ino (storeTarget target)) (rollBack ino) fun _ s =>
      onResult (s.onInode ino ext2WriteInode) (rollBack ino) fun _ s =>
      onResult (s.onDir dir (ext2AddEntry scan)) (rollBack ino) fun _ s =>
      onResult (s.onDir dir ext2WriteInode)
        (fun e s => rollBack ino e (s.onDir dir (ext2DeleteEntry undo)).2) fun _ s =>
      (.ok ino, s)

/-- `ext2_make_empty_dir`. -/
def ext2MakeEmptyDir (bytes : Nat → UInt8) : InodeOp Unit := fun fs inode =>
  match ext2NewBlock 0 bytes fs inode with
  | (.error e, fs, inode) => (.error e, fs, inode)
  | (.ok (), fs, inode) => ext2WriteInode fs { inode with iSize := blockSize }

/-- `ext2_mkdir`. -/
def ext2Mkdir (s : System) (dir : Nat) (scan : EntryScan) (bytes : Nat → UInt8) :
    Except Errno Nat × System :=
  match scan with
  | .found => (.error .eexist, s)
  | _ =>
    onResult (ext2NewInode s .dir 2 0) giveUp fun ino s =>
    onResult (s.onInode ino ext2WriteInode) (rollBack ino) fun _ s =>
    onResult (s.onDir ino (ext2MakeEmptyDir bytes)) (rollBack ino) fun _ s =>
    onResult (s.onDir dir (ext2AddEntry scan)) (rollBack ino) fun _ s =>
    onResult ((s.onDir dir (setNlink (· + 1))).2.onDir dir ext2WriteInode) giveUp fun _ s =>
    (.ok ino, s)

/-! ## Removing names -/

/-- `ext2_unlink`; `entry` is where the name stands and `last` the answer of `iput`. -/
def ext2Unlink (s : System) (dir ino : Nat) (entry : Option (Nat × (Nat → UInt8)))
    (last : Bool) : Except Errno Unit × System :=
  match s.inodes ino with
  | none => (.error .enoent, s)
  | some inode =>
    if inode.iType = .dir then (.error .eisdir, s)
    else
      onResult (s.onDir dir (ext2DeleteEntry entry)) giveUp fun _ s =>
      let s := (s.onInode ino (setNlink fun n => if n > 0 then n - 1 else n)).2
      match s.onInode ino ext2WriteInode with
      | (ret, s) => (ret, iput s ino last)

/-- `ext2_rmdir`; `empty` is the answer of `ext2_dir_is_empty`. -/
def ext2Rmdir (s : System) (dir ino : Nat) (empty : Bool)
    (entry : Option (Nat × (Nat → UInt8))) (last : Bool) : Except Errno Unit × System :=
  match s.inodes ino with
  | none => (.error .enoent, s)
  | some inode =>
    if inode.iType ≠ .dir then (.error .enotdir, s)
    else if empty = false then (.error .enotempty, s)
    else
      onResult (s.onDir dir (ext2DeleteEntry entry)) giveUp fun _ s =>
      let s := (s.onDir dir (setNlink fun n => if n > 0 then n - 1 else n)).2
      let s := (s.onInode ino (setNlink fun _ => 0)).2
      onResult (s.onInode ino ext2WriteInode) (fun e s => (.error e, iput s ino last)) fun _ s =>
      match s.onDir dir ext2WriteInode with
      | (ret, s) => (ret, iput s ino last)

/-- `vfs_mknod_at_path`: a file whose type and number are set after its creation.  When
the owner cannot be written, `rollback_create_target` unlinks the name again. -/
def vfsMknodAtPath (s : System) (dir : Nat) (scan : EntryScan) (iType : FileType) (dev : Nat)
    (entry : Option (Nat × (Nat → UInt8))) (last : Bool) : Except Errno Unit × System :=
  if iType = .zero ∨ iType = .reg ∨ iType = .chr ∨ iType = .blk then
    onResult (ext2Create s dir scan iType) giveUp fun ino s =>
    onResult (s.onInode ino ext2WriteInode)
      (fun e s => (.error e, (ext2Unlink s dir ino entry last).2)) fun _ s =>
    s.onInode ino fun fs inode => ext2WriteInode fs { inode with iRdev := dev }
  else (.error .einval, s)

/-- How `ext2_link` takes the new name back after error `e`. -/
def undoLink (dir ino : Nat) (undo : Option (Nat × (Nat → UInt8))) (e : Errno) (s : System) :
    Except Errno Unit × System :=
  let s := (s.onDir dir (ext2DeleteEntry undo)).2
  let s := (s.onInode ino (setNlink (· - 1))).2
  onResult (s.onInode ino ext2WriteInode) giveUp fun _ s => (.error e, s)

/-- `ext2_link`; `undo` is the entry that is deleted again when an inode cannot be
written. -/
def ext2Link (s : System) (dir ino : Nat) (scan : EntryScan)
    (undo : Option (Nat × (Nat → UInt8))) : Except Errno Unit × System :=
  match s.inodes ino with
  | none => (.error .enoent, s)
  | some inode =>
    if inode.iType = .dir then (.error .eperm, s)
    else
      onResult (s.onDir dir (ext2AddEntry scan)) giveUp fun _ s =>
      let s := (s.onInode ino (setNlink (· + 1))).2
      onResult (s.onInode ino ext2WriteInode) (undoLink dir ino undo) fun _ s =>
      onResult (s.onDir dir ext2WriteInode) (undoLink dir ino undo) fun _ s =>
      (.ok (), s)

/-! ## Writing -/

/-- `EXT2_MAX_FILE_SIZE`. -/
def ext2MaxFileSize : Nat := uint32Modulus - 1

/-- `EXT2_MAX_FILE_INDEX`. -/
def ext2MaxFileIndex : Nat := (ext2MaxFileSize - 1) / blockSize

/-- `page_cache_get_mapping` with `PAGE_CACHE_CREATE`, down to `ext2_resolve_block`.  A
page that is in the cache has its block, so that resolving it again changes
nothing. -/
def pageCacheGetMapping (index : Nat) : InodeOp Nat := fun fs inode =>
  if index > ext2MaxFileIndex then (.error .efbig, fs, inode)
  else
    match ext2Bmap fs inode index true with
    | (.error e, fs, inode) => (.error e, fs, inode)
    | (.ok 0, fs, inode) => (.error .enospc, fs, inode)
    | (.ok (pblock + 1), fs, inode) =>
      match fs.pageCacheGetBlock with
      | (false, fs) => (.error .enomem, fs, inode)
      | (true, fs) => (.ok (pblock + 1), fs, inode)

/-- The loop of `ext2_write_file` and what follows it.  Every round moves a byte, so
`count` rounds are enough. -/
def ext2WriteLoop (buf : Nat → UInt8) (count pos : Nat) : Nat → Nat → InodeOp Nat
  | 0, done, fs, inode => (.ok done, fs, inode)
  | fuel + 1, done, fs, inode =>
    if done < count then
      let offset := (pos + done) % blockSize
      let chunk := if blockSize - offset > count - done then count - done else blockSize - offset
      match pageCacheGetMapping ((pos + done) / blockSize) fs inode with
      | (.error e, fs, inode) => (if done ≠ 0 then .ok done else .error e, fs, inode)
      | (.ok pblock, fs, inode) =>
        let fs := fs.setPage pblock fun off =>
          if offset ≤ off ∧ off < offset + chunk then buf (done + (off - offset))
          else fs.page pblock off
        ext2WriteLoop buf count pos fuel (done + chunk) fs inode
    else if pos + done > inode.iSize then
      match ext2WriteInode fs { inode with iSize := pos + done } with
      | (.error e, fs, inode) => (.error e, fs, inode)
      | (.ok (), fs, inode) => (.ok done, fs, inode)
    else (.ok done, fs, inode)

/-- The types for which `ext2_init_inode_ops` installs `ext2_file_operations`. -/
def Inode.isFile (inode : Inode) : Bool :=
  match inode.iType with
  | .dir | .lnk | .chr | .blk => false
  | _ => true

/-- `ext2_write_file` through `ext2_file_write`. -/
def ext2WriteFile (buf : Nat → UInt8) (count pos : Nat) : InodeOp Nat := fun fs inode =>
  if inode.isFile = false then (.error .einval, fs, inode)
  else if pos ≥ ext2MaxFileSize then
    (if count = 0 then .ok 0 else .error .efbig, fs, inode)
  else
    let count := if count > ext2MaxFileSize - pos then ext2MaxFileSize - pos else count
    ext2WriteLoop buf count pos (count + 1) 0 fs inode

/-! ## Runs -/

/-- One call, with what the directories contain as far as it matters and with the
answers that reference counts give. -/
inductive Op where
  | create (dir : Nat) (scan : EntryScan) (iType : FileType)
  | mknod (dir : Nat) (scan : EntryScan) (iType : FileType) (dev : Nat)
      (entry : Option (Nat × (Nat → UInt8))) (last : Bool)
  | symlink (dir : Nat) (scan : EntryScan) (target : List UInt8)
      (undo : Option (Nat × (Nat → UInt8)))
  | mkdir (dir : Nat) (scan : EntryScan) (bytes : Nat → UInt8)
  | link (dir ino : Nat) (scan : EntryScan) (undo : Option (Nat × (Nat → UInt8)))
  | unlink (dir ino : Nat) (entry : Option (Nat × (Nat → UInt8))) (last : Bool)
  | rmdir (dir ino : Nat) (empty : Bool) (entry : Option (Nat × (Nat → UInt8))) (last : Bool)
  | write (ino : Nat) (buf : Nat → UInt8) (count pos : Nat)
  | iput (ino : Nat) (last : Bool)

def System.exec (s : System) : Op → System
  | .create dir scan iType => (ext2Create s dir scan iType).2
  | .mknod dir scan iType dev entry last => (vfsMknodAtPath s dir scan iType dev entry last).2
  | .symlink dir scan target undo => (ext2Symlink s dir scan target undo).2
  | .mkdir dir scan bytes => (ext2Mkdir s dir scan bytes).2
  | .link dir ino scan undo => (ext2Link s dir ino scan undo).2
  | .unlink dir ino entry last => (ext2Unlink s dir ino entry last).2
  | .rmdir dir ino empty entry last => (ext2Rmdir s dir ino empty entry last).2
  | .write ino buf count pos => (s.onInode ino (ext2WriteFile buf count pos)).2
  | .iput ino last => iput s ino last

def System.run (s : System) (ops : List Op) : System := ops.foldl System.exec s

end CuteOS.Fs.Ext2
