/-
  Fs/Vfs/Open.lean --- opening a file by its path.

  Source: `fs/vfs/file.c`, `fs/vfs/namei_mutation.c`, `fs/vfs/fdtable.c` and
  `fs/vfs/inode.c`; `ext2_create` and `ext2_unlink` of `fs/ext2/dir.c` are taken as
  what they do to the entries and inodes of the volume.

  A record `Replies` says how everything that may fail does fail: the two path walks,
  memory, device writes and drivers.  The result is the exact condition under which a
  failing `vfs_openat_path` leaves no trace.
-/
import CuteOS.Kernel.Types

set_option autoImplicit false

namespace CuteOS.Fs.Vfs

open Function (update update_self update_of_ne update_eq_self)

/-! ## Flags and modes -/

/-- `O_ACCMODE`. -/
def oAccmode : Nat := 0o3

/-- `O_CREAT`. -/
def oCreat : Nat := 0o100

/-- `O_EXCL`. -/
def oExcl : Nat := 0o200

/-- `O_TRUNC`. -/
def oTrunc : Nat := 0o1000

/-- `O_DIRECTORY`. -/
def oDirectory : Nat := 0o200000

/-- `O_CLOEXEC`. -/
def oCloexec : Nat := 0o2000000

/-- `flags & flag`. -/
def hasFlag (flags flag : Nat) : Bool := flags &&& flag != 0

/-- `S_IFMT`. -/
def sIfmt : Nat := 0o170000

/-- `S_IFREG`. -/
def sIfreg : Nat := 0o100000

/-- `S_IFDIR`. -/
def sIfdir : Nat := 0o40000

/-- `S_IFCHR`. -/
def sIfchr : Nat := 0o20000

/-- `S_IFBLK`. -/
def sIfblk : Nat := 0o60000

/-- `FMODE_READ` and `FMODE_WRITE`. -/
structure Fmode where
  read : Bool
  write : Bool
  deriving DecidableEq, Repr

/-- The `switch` over `flags & O_ACCMODE`. -/
def fmodeOf (flags : Nat) : Option Fmode :=
  match flags &&& oAccmode with
  | 0 => some ⟨true, false⟩
  | 1 => some ⟨false, true⟩
  | 2 => some ⟨true, true⟩
  | _ => none

/-! ## The volume and the descriptor table -/

/-- `struct inode`. -/
structure Node where
  iMode : Nat
  iUid : Nat := 0
  iGid : Nat := 0
  iRdev : Nat := 0
  iSize : Nat := 0
  deriving DecidableEq, Repr

namespace Node

def fileType (node : Node) : Nat := node.iMode &&& sIfmt

/-- Whether `i_op->truncate` is there: device nodes have no `i_op`. -/
def hasTruncate (node : Node) : Bool :=
  node.fileType != sIfchr && node.fileType != sIfblk

end Node

/-- The directory entries, and the inodes in use. -/
structure Tree where
  entries : Nat → Name → Option Nat
  inodes : Nat → Option Node

variable {dir ino : Nat} {name : Name}

namespace Tree

def setEntry (t : Tree) (dir : Nat) (name : Name) (ino : Option Nat) : Tree :=
  { t with
    entries := update t.entries dir (update (t.entries dir) name ino) }

def setInode (t : Tree) (ino : Nat) (node : Option Node) : Tree :=
  { t with inodes := update t.inodes ino node }

@[simp] theorem setInode_inodes_self (t : Tree) (ino : Nat) (node : Option Node) :
    (t.setInode ino node).inodes ino = node :=
  update_self ..

theorem setInode_inodes_ne (t : Tree) {i : Nat} (hne : i ≠ ino) (node : Option Node) :
    (t.setInode ino node).inodes i = t.inodes i :=
  update_of_ne hne ..

@[simp] theorem setEntry_entries_self (t : Tree) (dir : Nat) (name : Name) (ino : Option Nat) :
    (t.setEntry dir name ino).entries dir name = ino := by
  simp [setEntry]

/-- An entry that was not there is made and taken away. -/
theorem setEntry_setEntry_none {t : Tree} (hnone : t.entries dir name = none) (ino : Option Nat) :
    ((t.setEntry dir name ino).setEntry dir name none).entries = t.entries := by
  have hname : update (t.entries dir) name none = t.entries dir := by
    rw [← hnone, update_eq_self]
  simp [setEntry, hname]

end Tree

/-- `NR_OPEN`. -/
def nrOpen : Nat := 32

/-- `struct file`. -/
structure File where
  fInode : Nat
  fFlags : Nat
  fMode : Fmode
  deriving DecidableEq, Repr

/-- `struct files_struct`. -/
structure FilesStruct where
  fd : Fin nrOpen → Option File
  closeOnExec : Fin nrOpen → Bool

/-- What a call may change: the volume, and the descriptors of the task, if it has a
table. -/
structure World where
  tree : Tree
  files : Option FilesStruct

/-! ## Replies -/

/-- How `ext2_add_entry` ends: the entry is there, nothing has changed, or the entry
is there and the page or the inode of the directory could not be written. -/
inductive AddReply where
  | added
  | refused (e : Errno)
  | addedNotWritten
  deriving DecidableEq, Repr

/-- Everything that a call of `vfs_openat_path` on `t` asks for and may be refused. -/
structure Replies (t : Tree) where
  /-- `path_lookupat_path`. -/
  found : Except Errno {ino : Nat // (t.inodes ino).isSome}
  /-- `prepare_create_target`: the directory and the name of the new entry. -/
  target : Except Errno (Nat × Name)
  /-- `ext2_alloc_inode`. -/
  newIno : Option {ino : Nat // t.inodes ino = none}
  /-- `iget` of the new inode. -/
  iget : Bool
  /-- `ext2_write_inode` of the new inode. -/
  writeNew : Except Errno Unit
  addEntry : AddReply
  /-- `vfs_inode_writeback` in `vfs_init_inode_owner`. -/
  writeOwner : Except Errno Unit
  /-- Whether `ext2_delete_entry`, called to undo the creation, can read the directory. -/
  deleteEntry : Bool
  /-- `task_uid` and `task_gid`. -/
  uid : Nat
  gid : Nat
  /-- The device numbers that `vfs_chrdev_fops` knows. -/
  chrdev : Nat → Bool
  /-- `kmalloc` in `file_alloc`. -/
  kmalloc : Bool
  /-- `f_op->open`. -/
  fopOpen : Bool
  /-- `ext2_write_inode` after a truncation. -/
  writeTruncated : Except Errno Unit

/-! ## The code -/

/-- `vfs_inode_permission`; `want` is the bit of `VFS_MAY_READ` or `VFS_MAY_WRITE` in the
permissions. -/
def vfsInodePermission (uid gid : Nat) (node : Node) (want : Nat) : Bool :=
  if uid = 0 then true
  else
    let perm :=
      if uid = node.iUid then node.iMode >>> 6 &&& 7
      else if gid = node.iGid then node.iMode >>> 3 &&& 7
      else node.iMode &&& 7
    perm &&& want == want

/-- `inode_mode` in `ext2_create`; the mask is `~EXT2_S_IFMT`. -/
def createMode (mode : Nat) : Nat :=
  (if mode &&& sIfmt = 0 then sIfreg else mode &&& sIfmt) ||| (mode &&& 0xffff0fff)

section Code

variable {t : Tree} (io : Replies t)

/-- `ext2_create`. -/
def ext2Create (dir : Nat) (name : Name) (mode : Nat) : Except Errno Nat × Tree :=
  if (t.entries dir name).isSome then (.error .eexist, t)
  else
    match io.newIno with
    | none => (.error .enospc, t)
    | some ino =>
      if io.iget = false then (.error .eio, t)
      else
        match io.writeNew with
        | .error e => (.error e, t)
        | .ok () =>
          match io.addEntry with
          | .refused e => (.error e, t)
          -- `ext2_rollback_new_inode` frees the inode again; the entry stays
          | .addedNotWritten => (.error .eio, t.setEntry dir name (some ino))
          | .added =>
            (.ok ino, (t.setInode ino (some { iMode := createMode mode })).setEntry dir name
              (some ino))

/-- The inode as `vfs_init_inode_owner` leaves it. -/
def ownedNode (mode : Nat) : Node :=
  { iMode := createMode mode, iUid := io.uid, iGid := io.gid }

/-- Whether `rollback_create_target` takes the entry away: `ext2_unlink` refuses an inode of
type directory. -/
def rollsBack (mode : Nat) : Bool := (ownedNode io mode).fileType != sIfdir && io.deleteEntry

/-- `vfs_create_at_path`. -/
def vfsCreateAtPath (mode : Nat) : Except Errno Nat × Tree :=
  match io.target with
  | .error e => (.error e, t)
  | .ok (dir, name) =>
    match ext2Create io dir name mode with
    | (.error e, t) => (.error e, t)
    | (.ok ino, t) =>
      let t := t.setInode ino (some (ownedNode io mode))
      match io.writeOwner with
      | .ok () => (.ok ino, t)
      | .error e =>
        if rollsBack io mode then (.error e, (t.setEntry dir name none).setInode ino none)
        else (.error e, t)

/-- `file_alloc_path`. -/
def fileAllocPath (ino : Nat) (node : Node) (flags : Nat) (fmode : Fmode) : Option File :=
  if node.fileType = sIfchr ∧ io.chrdev node.iRdev = false then none
  else if io.kmalloc = false then none
  else if io.fopOpen = false then none
  else some ⟨ino, flags, fmode⟩

/-- `vfs_truncate_file(file, 0)`. -/
def vfsTruncateFile (tree : Tree) (ino : Nat) (node : Node) : Except Errno Unit × Tree :=
  if node.hasTruncate = false then (.error .einval, tree)
  else if node.iSize = 0 then (.ok (), tree)
  else (io.writeTruncated, tree.setInode ino (some { node with iSize := 0 }))

/-- The first free descriptor. -/
def FilesStruct.freeSlot (files : FilesStruct) : Option (Fin nrOpen) :=
  (List.finRange nrOpen).find? fun fd => (files.fd fd).isNone

/-- `fd_alloc_flags`. -/
def fdAllocFlags (files : Option FilesStruct) (file : File) (flags : Nat) :
    Except Errno (Fin nrOpen) × Option FilesStruct :=
  match files with
  | none => (.error .ebadf, none)
  | some files =>
    match files.freeSlot with
    | none => (.error .emfile, some files)
    | some fd =>
      (.ok fd, some {
        fd := update files.fd fd (some file)
        closeOnExec := update files.closeOnExec fd (hasFlag flags oCloexec) })

/-- The end of `vfs_openat_path`: the truncation, and the descriptor. -/
def installFile (w : World) (node : Node) (file : File) :
    Except Errno (Fin nrOpen) × World :=
  match
      if hasFlag file.fFlags oTrunc && file.fMode.write then
        vfsTruncateFile io w.tree file.fInode node
      else (.ok (), w.tree) with
  | (.error e, tree) => (.error e, { w with tree := tree })
  | (.ok (), tree) =>
    match fdAllocFlags w.files file file.fFlags with
    | (fd, files) => (fd, { tree := tree, files := files })

/-- The part of `vfs_openat_path` after the inode is there. -/
def openInode (w : World) (ino : Nat) (node : Node) (flags : Nat) :
    Except Errno (Fin nrOpen) × World :=
  if hasFlag flags oDirectory && node.fileType != sIfdir then (.error .enotdir, w)
  else
    match fmodeOf flags with
    | none => (.error .einval, w)
    | some fmode =>
      if fmode.read && !vfsInodePermission io.uid io.gid node 4 then (.error .eacces, w)
      else if fmode.write && !vfsInodePermission io.uid io.gid node 2 then (.error .eacces, w)
      else
        match fileAllocPath io ino node flags fmode with
        | none => (.error .enomem, w)
        | some file => installFile io w node file

end Code

/-- The part of `vfs_openat_path` that creates the file. -/
def openNew (w : World) (io : Replies w.tree) (flags mode : Nat) :
    Except Errno (Fin nrOpen) × World :=
  match vfsCreateAtPath io mode with
  | (.error e, tree) => (.error e, { w with tree := tree })
  | (.ok ino, tree) => openInode io { w with tree := tree } ino (ownedNode io mode) flags

/-- `vfs_openat_path`. -/
def vfsOpenatPath (w : World) (io : Replies w.tree) (flags mode : Nat) :
    Except Errno (Fin nrOpen) × World :=
  match io.found with
  | .error e =>
    if hasFlag flags oCreat && e == .enoent then openNew w io flags mode
    else (.error e, w)
  | .ok ino =>
    if hasFlag flags oCreat && hasFlag flags oExcl then (.error .eexist, w)
    else openInode io w ino ((w.tree.inodes ino).get ino.property) flags

/-! ## Leaving no trace -/

/-- No entry was made, no file lost its contents and no descriptor was installed. -/
structure SameFiles (w w' : World) : Prop where
  entries : w'.tree.entries = w.tree.entries
  size : ∀ ino node, w.tree.inodes ino = some node →
    ∃ node', w'.tree.inodes ino = some node' ∧ node'.iSize = node.iSize
  files : w'.files = w.files

/-- A call that fails changes nothing. -/
def AllOrNothing (w : World) (r : Except Errno (Fin nrOpen) × World) : Prop :=
  ∀ e, r.1 = .error e → SameFiles w r.2

/-- A descriptor is free. -/
def HasSlot (files : Option FilesStruct) : Prop := ∃ fs fd, files = some fs ∧ fs.fd fd = none

/-- The checks on type, access mode and permissions, and the allocation of the file. -/
structure MayOpen {t : Tree} (io : Replies t) (node : Node) (flags : Nat) (fmode : Fmode) :
    Prop where
  type : hasFlag flags oDirectory = true → node.fileType = sIfdir
  accmode : fmodeOf flags = some fmode
  read : fmode.read = true → vfsInodePermission io.uid io.gid node 4 = true
  write : fmode.write = true → vfsInodePermission io.uid io.gid node 2 = true
  driver : node.fileType = sIfchr → io.chrdev node.iRdev = true
  kmalloc : io.kmalloc = true
  fopOpen : io.fopOpen = true

section Open

variable {t : Tree} (io : Replies t) (w : World) {node : Node} {flags : Nat}

theorem fdAllocFlags_hasSlot {files : Option FilesStruct} (h : HasSlot files) (file : File)
    (flags : Nat) : ∃ fd, (fdAllocFlags files file flags).1 = .ok fd := by
  obtain ⟨fs, slot, rfl, hslot⟩ := h
  have hfree : fs.freeSlot ≠ none := by
    rw [FilesStruct.freeSlot, Ne, List.find?_eq_none]
    intro hall
    exact hall slot (List.mem_finRange slot) (by rw [hslot]; rfl)
  obtain ⟨fd, hfd⟩ := Option.ne_none_iff_exists'.mp hfree
  refine ⟨fd, ?_⟩
  rw [fdAllocFlags, hfd]

theorem fdAllocFlags_full {files : Option FilesStruct} (h : ¬ HasSlot files) (file : File)
    (flags : Nat) : ∃ e, fdAllocFlags files file flags = (.error e, files) := by
  cases files with
  | none => exact ⟨_, rfl⟩
  | some fs =>
    have hfree : fs.freeSlot = none := by
      rw [FilesStruct.freeSlot, List.find?_eq_none]
      intro fd _ hfd
      exact h ⟨fs, fd, rfl, Option.isNone_iff_eq_none.mp hfd⟩
    refine ⟨.emfile, ?_⟩
    rw [fdAllocFlags, hfree]

/-- A file that the checks turn away. -/
theorem openInode_refused (ino : Nat) (h : ∀ fmode, ¬ MayOpen io node flags fmode) :
    ∃ e, openInode io w ino node flags = (.error e, w) := by
  unfold openInode
  split_ifs with htype
  · exact ⟨_, rfl⟩
  cases hmode : fmodeOf flags with
  | none => exact ⟨_, rfl⟩
  | some fmode =>
    dsimp only
    split_ifs with hread hwrite
    · exact ⟨_, rfl⟩
    · exact ⟨_, rfl⟩
    unfold fileAllocPath
    split_ifs with hdriver hmemory hopen
    · exact ⟨_, rfl⟩
    · exact ⟨_, rfl⟩
    · exact ⟨_, rfl⟩
    exfalso
    refine h fmode ⟨?_, hmode, ?_, ?_, ?_, ?_, ?_⟩ <;> simp_all

/-- A file that they let pass. -/
theorem openInode_admitted {fmode : Fmode} (h : MayOpen io node flags fmode) :
    openInode io w ino node flags = installFile io w node ⟨ino, flags, fmode⟩ := by
  have htype : (hasFlag flags oDirectory && node.fileType != sIfdir) = false := by
    cases hflag : hasFlag flags oDirectory with
    | false => rfl
    | true => simp [h.type hflag]
  have hread : (fmode.read && !vfsInodePermission io.uid io.gid node 4) = false := by
    cases hr : fmode.read with
    | false => rfl
    | true => simp [h.read hr]
  have hwrite : (fmode.write && !vfsInodePermission io.uid io.gid node 2) = false := by
    cases hw : fmode.write with
    | false => rfl
    | true => simp [h.write hw]
  have hdriver : ¬ (node.fileType = sIfchr ∧ io.chrdev node.iRdev = false) := by
    rintro ⟨hchr, hnone⟩
    exact absurd (h.driver hchr) (by rw [hnone]; decide)
  rw [openInode, htype, h.accmode]
  dsimp only
  rw [hread, hwrite, fileAllocPath, if_neg hdriver, h.kmalloc, h.fopOpen]
  rfl

/-- The file is truncated: the flag is set and the file is open for writing. -/
def Truncates (file : File) : Prop := (hasFlag file.fFlags oTrunc && file.fMode.write) = true

/-- The truncation takes bytes away. -/
def TakesAway (node : Node) (file : File) : Prop :=
  Truncates file ∧ node.hasTruncate = true ∧ node.iSize ≠ 0

theorem installFile_ok_iff (file : File) : (∃ fd, (installFile io w node file).1 = .ok fd) ↔
      (Truncates file → node.hasTruncate = true ∧ (node.iSize = 0 ∨ io.writeTruncated = .ok ())) ∧
        HasSlot w.files := by
  unfold installFile Truncates vfsTruncateFile
  by_cases hslot : HasSlot w.files
  · obtain ⟨fd, hfd⟩ := fdAllocFlags_hasSlot hslot file file.fFlags
    split_ifs with htrunc hop hsize <;> (try split) <;> simp_all
  · obtain ⟨e, he⟩ := fdAllocFlags_full hslot file file.fFlags
    split_ifs with htrunc hop hsize <;> (try split) <;> simp_all

variable {file : File}

theorem installFile_files {e : Errno} (h : (installFile io w node file).1 = .error e) :
    (installFile io w node file).2.files = w.files := by
  unfold installFile at h ⊢
  generalize (if hasFlag file.fFlags oTrunc && file.fMode.write then
    vfsTruncateFile io w.tree file.fInode node else (.ok (), w.tree)) = r at h ⊢
  obtain ⟨ret, tree⟩ := r
  cases ret with
  | error e => rfl
  | ok u =>
    by_cases hslot : HasSlot w.files
    · obtain ⟨fd, hfd⟩ := fdAllocFlags_hasSlot hslot file file.fFlags
      exact absurd (hfd.symm.trans h) (by simp)
    · obtain ⟨e, he⟩ := fdAllocFlags_full hslot file file.fFlags
      rw [he]

theorem installFile_tree_of_takesAway (h : TakesAway node file) :
    (installFile io w node file).2.tree =
      w.tree.setInode file.fInode (some { node with iSize := 0 }) := by
  obtain ⟨htrunc, hop, hsize⟩ := h
  rw [Truncates] at htrunc
  rw [installFile, if_pos htrunc, vfsTruncateFile, hop, if_neg hsize]
  cases io.writeTruncated <;> rfl

theorem installFile_tree_of_not_takesAway (h : ¬ TakesAway node file) :
    (installFile io w node file).2.tree = w.tree := by
  unfold installFile vfsTruncateFile
  split_ifs with htrunc hop hsize
  · rfl
  · rfl
  · exact absurd ⟨htrunc, by simpa using hop, hsize⟩ h
  · rfl

/-- An open file that is there already: only a truncation can be a trace. -/
theorem allOrNothing_installFile_iff (hnode : w.tree.inodes file.fInode = some node) :
    AllOrNothing w (installFile io w node file) ↔
      (TakesAway node file → io.writeTruncated = .ok () ∧ HasSlot w.files) := by
  by_cases haway : TakesAway node file
  · have htree := installFile_tree_of_takesAway io w haway
    constructor
    · intro hall _
      by_contra hnot
      have herr : ¬ ∃ fd, (installFile io w node file).1 = .ok fd := by
        rw [installFile_ok_iff io w file]
        rintro ⟨hok, hslot⟩
        exact hnot ⟨(hok haway.1).2.resolve_left haway.2.2, hslot⟩
      cases hret : (installFile io w node file).1 with
      | ok fd => exact herr ⟨fd, hret⟩
      | error e =>
        obtain ⟨node', hnode', hsize⟩ := (hall e hret).size file.fInode node hnode
        rw [htree, Tree.setInode_inodes_self] at hnode'
        cases hnode'
        exact haway.2.2 hsize.symm
    · intro hok e he
      obtain ⟨hwrite, hslot⟩ := hok haway
      obtain ⟨fd, hfd⟩ := (installFile_ok_iff io w file).mpr
        ⟨fun _ => ⟨haway.2.1, .inr hwrite⟩, hslot⟩
      exact absurd (hfd.symm.trans he) (by simp)
  · refine iff_of_true (fun e he => ?_) fun h => absurd h haway
    have htree := installFile_tree_of_not_takesAway io w haway
    exact ⟨by rw [htree], fun ino a ha => ⟨a, by rw [htree]; exact ha, rfl⟩,
      installFile_files io w he⟩

theorem openInode_entries (ino : Nat) (node : Node) (flags : Nat) :
    (openInode io w ino node flags).2.tree.entries = w.tree.entries := by
  by_cases hmay : ∃ fmode, MayOpen io node flags fmode
  · obtain ⟨fmode, hmay⟩ := hmay
    rw [openInode_admitted io w hmay]
    by_cases haway : TakesAway node ⟨ino, flags, fmode⟩
    · rw [installFile_tree_of_takesAway io w haway]
      rfl
    · rw [installFile_tree_of_not_takesAway io w haway]
  · obtain ⟨e, he⟩ := openInode_refused io w ino (not_exists.mp hmay)
    rw [he]

theorem openInode_ok_iff (ino : Nat) (node : Node) (flags : Nat) :
    (∃ fd, (openInode io w ino node flags).1 = .ok fd) ↔ ∃ fmode, MayOpen io node flags fmode ∧
        (Truncates ⟨ino, flags, fmode⟩ →
          node.hasTruncate = true ∧ (node.iSize = 0 ∨ io.writeTruncated = .ok ())) ∧
        HasSlot w.files := by
  constructor
  · rintro ⟨fd, hfd⟩
    by_cases hmay : ∃ fmode, MayOpen io node flags fmode
    · obtain ⟨fmode, hmay⟩ := hmay
      rw [openInode_admitted io w hmay] at hfd
      exact ⟨fmode, hmay, (installFile_ok_iff io w _).mp ⟨fd, hfd⟩⟩
    · obtain ⟨e, he⟩ := openInode_refused io w ino (not_exists.mp hmay)
      rw [he] at hfd
      cases hfd
  · rintro ⟨fmode, hmay, hok⟩
    rw [openInode_admitted io w hmay]
    exact (installFile_ok_iff io w _).mpr hok

/-! ## When `open` is all or nothing -/

/-- A file that exists: if it passes the checks and would lose bytes, the truncation is
written and a descriptor is free. -/
def ExistingOk (files : Option FilesStruct) (ino : Nat) (node : Node) (flags : Nat) : Prop :=
  ∀ fmode, MayOpen io node flags fmode → TakesAway node ⟨ino, flags, fmode⟩ →
    io.writeTruncated = .ok () ∧ HasSlot files

/-- A file that was created passes the checks, may be truncated if it has to be, and
gets a descriptor. -/
def CreatedOk (files : Option FilesStruct) (ino : Nat) (node : Node) (flags : Nat) : Prop :=
  ∃ fmode, MayOpen io node flags fmode ∧
    (Truncates ⟨ino, flags, fmode⟩ → node.hasTruncate = true) ∧ HasSlot files

/-- `ext2_create` comes to the point where it adds the entry. -/
structure Adds (dir : Nat) (name : Name) (ino : {ino : Nat // t.inodes ino = none}) : Prop where
  target : io.target = .ok (dir, name)
  absent : t.entries dir name = none
  newIno : io.newIno = some ino
  iget : io.iget = true
  writeNew : io.writeNew = .ok ()

/-- Where `ext2_create` adds the entry, it does not report it as a failure; and once the
entry is there, the rest of the call succeeds, or fails at the owner and the entry is
taken away. -/
def CreationOk (files : Option FilesStruct) (flags mode : Nat) : Prop :=
  ∀ dir name ino, Adds io dir name ino →
    io.addEntry ≠ .addedNotWritten ∧
      (io.addEntry = .added →
        (io.writeOwner = .ok () → CreatedOk io files ino (ownedNode io mode) flags) ∧
        (io.writeOwner ≠ .ok () → rollsBack io mode = true))

theorem vfsCreateAtPath_refused (h : ∀ dir name ino, ¬ Adds io dir name ino) (mode : Nat) :
    ∃ e, vfsCreateAtPath io mode = (.error e, t) := by
  unfold vfsCreateAtPath
  cases htarget : io.target with
  | error e => exact ⟨e, rfl⟩
  | ok target =>
    obtain ⟨dir, name⟩ := target
    have hcreate : ∃ e, ext2Create io dir name mode = (.error e, t) := by
      unfold ext2Create
      by_cases hthere : (t.entries dir name).isSome
      · exact ⟨_, if_pos hthere⟩
      rw [if_neg hthere]
      cases hino : io.newIno with
      | none => exact ⟨_, rfl⟩
      | some ino =>
        dsimp only
        by_cases hget : io.iget = false
        · exact ⟨_, if_pos hget⟩
        rw [if_neg hget]
        cases hnew : io.writeNew with
        | error e => exact ⟨e, rfl⟩
        | ok u =>
          exact absurd ⟨htarget, by simpa using hthere, hino, by simpa using hget, hnew⟩
            (h dir name ino)
    obtain ⟨e, he⟩ := hcreate
    refine ⟨e, ?_⟩
    dsimp only
    rw [he]

theorem ext2Create_adds {ino : {ino : Nat // t.inodes ino = none}}
    (h : Adds io dir name ino) (mode : Nat) :
    ext2Create io dir name mode = match io.addEntry with
      | .refused e => (.error e, t)
      | .addedNotWritten => (.error .eio, t.setEntry dir name (some ino))
      | .added =>
        (.ok ino, (t.setInode ino (some { iMode := createMode mode })).setEntry dir name
          (some ino)) := by
  rw [ext2Create, h.absent, h.newIno]
  dsimp only [Option.isSome_none]
  rw [if_neg (by decide), h.iget, if_neg (by decide), h.writeNew]

end Open

/-- The condition: an existing file is truncated only if the call succeeds, and a file is
created only if the rest of the call succeeds or undoes it. -/
def OpenOk (w : World) (io : Replies w.tree) (flags mode : Nat) : Prop :=
  match io.found with
  | .ok ino => (hasFlag flags oCreat && hasFlag flags oExcl) = false →
      ExistingOk io w.files ino ((w.tree.inodes ino).get ino.property) flags
  | .error e => (hasFlag flags oCreat && e == .enoent) = true → CreationOk io w.files flags mode

theorem allOrNothing_same (w : World) (e : Errno) : AllOrNothing w (.error e, w) :=
  fun _ _ => ⟨rfl, fun _ node hnode => ⟨node, hnode, rfl⟩, rfl⟩

/-- An error after the entry of a new file was made. -/
theorem not_allOrNothing_of_entry {w : World} {r : Except Errno (Fin nrOpen) × World}
    (habsent : w.tree.entries dir name = none)
    (hthere : r.2.tree.entries dir name = some ino) :
    AllOrNothing w r ↔ ∃ fd, r.1 = .ok fd := by
  constructor
  · intro hall
    cases hret : r.1 with
    | ok fd => exact ⟨fd, rfl⟩
    | error e =>
      rw [(hall e hret).entries, habsent] at hthere
      cases hthere
  · rintro ⟨fd, hfd⟩ e he
    rw [hfd] at he
    cases he

theorem allOrNothing_existing_iff (w : World) (io : Replies w.tree) (flags : Nat)
    {node : Node} (hnode : w.tree.inodes ino = some node) :
    AllOrNothing w (openInode io w ino node flags) ↔ ExistingOk io w.files ino node flags := by
  by_cases hmay : ∃ fmode, MayOpen io node flags fmode
  · obtain ⟨fmode, hmay⟩ := hmay
    rw [openInode_admitted io w hmay, allOrNothing_installFile_iff io w hnode]
    constructor
    · intro h fmode' hmay' haway
      have hsame : fmode' = fmode := by
        rw [← Option.some_inj, ← hmay'.accmode, hmay.accmode]
      exact h (hsame ▸ haway)
    · intro h
      exact h fmode hmay
  · obtain ⟨e, he⟩ := openInode_refused io w ino (not_exists.mp hmay)
    rw [he]
    exact iff_of_true (allOrNothing_same w e) fun fmode h => absurd ⟨fmode, h⟩ hmay

section New

variable {w : World} {io : Replies w.tree} {ino : {ino : Nat // w.tree.inodes ino = none}}

section

variable (h : Adds io dir name ino) (hadded : io.addEntry = .added)
include h hadded

/-- The entry of the new file is there when its owner is set. -/
theorem vfsCreateAtPath_added (mode : Nat) : ∃ tree : Tree, tree.entries dir name = some ino.val ∧
      (tree.setEntry dir name none).entries = w.tree.entries ∧
      (∀ i, i ≠ ino.val → tree.inodes i = w.tree.inodes i) ∧
      vfsCreateAtPath io mode = match io.writeOwner with
        | .ok () => (.ok ino.val, tree)
        | .error e =>
          if rollsBack io mode then (.error e, (tree.setEntry dir name none).setInode ino none)
          else (.error e, tree) := by
  refine ⟨((w.tree.setInode ino (some { iMode := createMode mode })).setEntry dir name
    (some ino.val)).setInode ino (some (ownedNode io mode)), Tree.setEntry_entries_self ..,
    Tree.setEntry_setEntry_none h.absent (some ino.val), ?_, ?_⟩
  · intro i hi
    rw [Tree.setInode_inodes_ne _ hi]
    exact Tree.setInode_inodes_ne _ hi _
  · rw [vfsCreateAtPath, h.target]
    dsimp only
    rw [ext2Create_adds io h, hadded]

theorem allOrNothing_openNew_owned (howner : io.writeOwner = .ok ()) (flags mode : Nat) :
    AllOrNothing w (openNew w io flags mode) ↔
      CreatedOk io w.files ino (ownedNode io mode) flags := by
  obtain ⟨tree, hentry, -, -, hcreate⟩ := vfsCreateAtPath_added h hadded mode
  rw [howner] at hcreate
  rw [openNew, hcreate]
  rw [not_allOrNothing_of_entry h.absent (by rw [openInode_entries]; exact hentry),
    openInode_ok_iff]
  constructor
  · rintro ⟨fmode, hmay, htrunc, hslot⟩
    exact ⟨fmode, hmay, fun h => (htrunc h).1, hslot⟩
  · rintro ⟨fmode, hmay, htrunc, hslot⟩
    exact ⟨fmode, hmay, fun h => ⟨htrunc h, .inl rfl⟩, hslot⟩

theorem allOrNothing_openNew_undone {e : Errno} (howner : io.writeOwner = .error e)
    (flags mode : Nat) : AllOrNothing w (openNew w io flags mode) ↔ rollsBack io mode = true := by
  obtain ⟨tree, hentry, hundone, hinodes, hcreate⟩ := vfsCreateAtPath_added h hadded mode
  rw [howner] at hcreate
  rw [openNew, hcreate]
  cases rollsBack io mode with
  | true =>
    refine iff_of_true (fun _ _ => ⟨hundone, fun i node hnode => ⟨node, ?_, rfl⟩, rfl⟩) rfl
    have hne : i ≠ ino.val := by
      rintro rfl
      rw [ino.property] at hnode
      cases hnode
    change ((tree.setEntry dir name none).setInode ino none).inodes i = some node
    rw [Tree.setInode_inodes_ne _ hne, ← hnode]
    exact hinodes i hne
  | false =>
    refine iff_of_false (fun hall => ?_) Bool.false_ne_true
    obtain ⟨fd, hfd⟩ := (not_allOrNothing_of_entry h.absent hentry).mp hall
    cases hfd

end

theorem allOrNothing_openNew_iff (h : Adds io dir name ino) (flags mode : Nat) :
    AllOrNothing w (openNew w io flags mode) ↔ CreationOk io w.files flags mode := by
  have hcond : CreationOk io w.files flags mode ↔ io.addEntry ≠ .addedNotWritten ∧
        (io.addEntry = .added →
          (io.writeOwner = .ok () → CreatedOk io w.files ino (ownedNode io mode) flags) ∧
          (io.writeOwner ≠ .ok () → rollsBack io mode = true)) := by
    constructor
    · intro hall
      exact hall dir name ino h
    · intro hone dir' name' ino' h'
      exact hone
  rw [hcond]
  cases hadd : io.addEntry with
  | added =>
    cases howner : io.writeOwner with
    | ok u =>
      rw [allOrNothing_openNew_owned h hadd howner]
      simp
    | error e =>
      rw [allOrNothing_openNew_undone h hadd howner]
      simp
  | refused e =>
    have hcreate : vfsCreateAtPath io mode = (.error e, w.tree) := by
      rw [vfsCreateAtPath, h.target]
      dsimp only
      rw [ext2Create_adds io h, hadd]
    rw [openNew, hcreate]
    exact iff_of_true (allOrNothing_same w e) (by simp)
  | addedNotWritten =>
    have hcreate : vfsCreateAtPath io mode =
        (.error .eio, w.tree.setEntry dir name (some ino.val)) := by
      rw [vfsCreateAtPath, h.target]
      dsimp only
      rw [ext2Create_adds io h, hadd]
    rw [openNew, hcreate]
    refine iff_of_false (fun hall => ?_) (by simp)
    obtain ⟨fd, hfd⟩ := (not_allOrNothing_of_entry h.absent (Tree.setEntry_entries_self ..)).mp hall
    cases hfd

end New

/-- `vfs_openat_path` is all or nothing just when the condition holds. -/
theorem vfsOpenatPath_allOrNothing_iff (w : World) (io : Replies w.tree) (flags mode : Nat) :
    AllOrNothing w (vfsOpenatPath w io flags mode) ↔ OpenOk w io flags mode := by
  unfold vfsOpenatPath OpenOk
  cases hfound : io.found with
  | ok ino =>
    dsimp only
    cases hexcl : hasFlag flags oCreat && hasFlag flags oExcl with
    | true => exact iff_of_true (allOrNothing_same w _) fun h => by cases h
    | false =>
      rw [if_neg (by decide), allOrNothing_existing_iff w io flags (Option.some_get _).symm]
      exact ⟨fun h _ => h, fun h => h rfl⟩
  | error e =>
    dsimp only
    cases hcreat : hasFlag flags oCreat && e == .enoent with
    | false => exact iff_of_true (allOrNothing_same w _) fun h => by cases h
    | true =>
      rw [if_pos rfl]
      by_cases hadds : ∃ dir name ino, Adds io dir name ino
      · obtain ⟨dir, name, ino, hadds⟩ := hadds
        rw [allOrNothing_openNew_iff hadds]
        exact ⟨fun h _ => h, fun h => h rfl⟩
      · obtain ⟨e', he⟩ := vfsCreateAtPath_refused io
          (fun dir name ino h => hadds ⟨dir, name, ino, h⟩) mode
        rw [openNew, he]
        exact iff_of_true (allOrNothing_same w e') fun _ dir name ino h =>
          absurd ⟨dir, name, ino, h⟩ hadds

/-! ## Two failing calls that leave a trace -/

/-- A root directory, and a file of five bytes in it. -/
def smallTree : Tree where
  entries dir name := if dir = 2 ∧ name = [97] then some 11 else none
  inodes ino :=
    if ino = 2 then some { iMode := sIfdir ||| 0o755, iSize := 4096 }
    else if ino = 11 then some { iMode := sIfreg ||| 0o644, iSize := 5 }
    else none

/-- A task of the superuser with `n` descriptors in use. -/
def smallWorld (n : Nat) : World where
  tree := smallTree
  files := some {
    fd := fun fd => if fd < n then some ⟨11, 0, ⟨true, false⟩⟩ else none
    closeOnExec := fun _ => false }

/-- Nothing is refused; the name that is not there is `b`. -/
def smallReplies (found : Except Errno {ino : Nat // (smallTree.inodes ino).isSome}) :
    Replies smallTree where
  found := found
  target := .ok (2, [98])
  newIno := some ⟨12, by decide⟩
  iget := true
  writeNew := .ok ()
  addEntry := .added
  writeOwner := .ok ()
  deleteEntry := true
  uid := 0
  gid := 0
  chrdev _ := false
  kmalloc := true
  fopOpen := true
  writeTruncated := .ok ()

/-- `open("b", O_CREAT | 3)` creates the file and returns `EINVAL`; with all descriptors
in use, `open("a", O_WRONLY | O_TRUNC)` empties the file and returns `EMFILE`. -/
theorem vfsOpenatPath_leaves_traces :
    (let r := vfsOpenatPath (smallWorld 3) (smallReplies (.error .enoent)) (oCreat ||| 3) 0o644
     r.1 = .error .einval ∧ r.2.tree.entries 2 [98] = some 12 ∧ ¬ AllOrNothing (smallWorld 3) r) ∧
    (let r := vfsOpenatPath (smallWorld 32) (smallReplies (.ok ⟨11, by decide⟩)) (1 ||| oTrunc) 0
     r.1 = .error .emfile ∧ (r.2.tree.inodes 11).map Node.iSize = some 0 ∧
       ¬ AllOrNothing (smallWorld 32) r) := by
  refine ⟨⟨by decide, by decide, fun hall => ?_⟩, by decide, by decide, fun hall => ?_⟩
  · have hentries := congrFun (congrFun (hall .einval (by decide)).entries 2) [98]
    exact absurd hentries (by decide)
  · obtain ⟨node, hnode, hsize⟩ := (hall .emfile (by decide)).size 11 _ rfl
    have hgone : (some node).map Node.iSize = some 0 := by
      rw [← hnode]
      decide
    rw [Option.map_some, hsize] at hgone
    cases hgone

end CuteOS.Fs.Vfs
