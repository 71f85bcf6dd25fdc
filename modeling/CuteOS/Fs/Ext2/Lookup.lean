/-
  Fs/Ext2/Lookup.lean --- `ext2_lookup` when reading may fail.

  Source: `fs/ext2/dir.c`.

  `ext2_find_entry` skips the pages that cannot be read, so a search that meets a failure
  may miss a name, but it never finds one that is not there.
-/
import CuteOS.Fs.Ext2.LinkCounts

set_option autoImplicit false

namespace CuteOS.Fs.Ext2

open Lib Lib.LinkTree Lib.PtrTree Directory

/-! ## Searching with failures -/

section Search

variable {fs : Volume} {inode dir : Inode}

/-- Whatever fails, a record that is found has the name. -/
theorem Directory.DirOk.find_failing (h : DirOk fs dir) (name : Name) (io : Io) :
    ∃ found fs', Disk.findName name { fs with io := io } dir = (.ok found, fs', dir) ∧
      Volume.Quiet { fs with io := io } fs' ∧
      (∀ ino, found = some ino → (dirMap fs dir name).map Prod.fst = some ino) ∧
      ((∀ t, io.pageOk t = true) → found = none → dirMap fs dir name = none) := by
  obtain ⟨hblocks, hmax⟩ := h.dirBlocks
  obtain ⟨hcases, hq⟩ := scanBlocks_spec true (findInBlock name)
    (List.range (dir.iSize / blockSize)) { fs with io := io } dir
  rw [Disk.findName, ext2FindEntry, hblocks]
  generalize scanBlocks true (findInBlock name) _ _ dir = r at hcases hq ⊢
  obtain ⟨ret, fs'⟩ := r
  simp only [ScanResult, List.mem_range] at hcases
  rcases hcases with ⟨i, hi, offset, hne, hfind, rfl⟩ | ⟨rfl, hall⟩ | ⟨-, hskip, -⟩
  · have htiled := h.tiled i hi hne
    refine ⟨_, fs', rfl, hq, fun ino hino => ?_, fun _ hnone =>
      absurd hnone (Option.some_ne_none _)⟩
    rcases findInBlock_spec htiled name with ⟨hnone, -⟩ | ⟨mid, hsome, a, de, b, hsplit, ha, hmatch⟩
    · cases hnone.symm.trans hfind
    cases hsome.symm.trans hfind
    obtain ⟨hat, hvalue⟩ := h.dirMap_eq hi hne hsplit ha hmatch
    have hpage : fs'.page = fs.page := hq.page
    have hino : some (direntAt (fs'.page (fs.blockAt dir i)) offset).inode = some ino := hino
    rw [hpage, hat] at hino
    rw [hvalue]
    exact hino
  · refine ⟨none, fs', rfl, hq, fun _ hsome => absurd hsome (Option.some_ne_none _).symm,
      fun hio _ => dirMap_eq_none fun i hi hne => ?_⟩
    have hfind : findInBlock name (fs.page (fs.blockAt dir i)) = none :=
      hall hio (by omega) i hi hne
    rcases findInBlock_spec (h.tiled i hi hne) name with ⟨-, hnone⟩ | ⟨mid, hsome, -⟩
    · exact hnone
    · cases hfind.symm.trans hsome
  · cases hskip

end Search

/-! ## Only a name that is there exists -/

section Exists

variable {fs : Volume} {inode : Inode} {e : Errno}

theorem ext2WriteInode_ne_eexist (h : (ext2WriteInode fs inode).1 = .error e) : e ≠ .eexist := by
  rintro rfl
  unfold ext2WriteInode ext2InodeLocation syncMetadataCopy at h
  dsimp only at h
  split_ifs at h <;> dsimp only at h <;> repeat' split at h
  all_goals cases h

theorem ext2BmapSlot_ne_eexist {slot : Nat} {create : Bool}
    (h : (ext2BmapSlot fs inode slot create).1 = .error e) : e ≠ .eexist := by
  unfold ext2BmapSlot at h
  split_ifs at h
  split at h
  · cases h
  · split at h
    · rename_i hwrite
      cases h
      exact ext2WriteInode_ne_eexist (congrArg Prod.fst hwrite)
    · cases h

theorem ext2IndBmap_ne_eexist {ind index : Nat} {create : Bool}
    (h : (ext2IndBmap fs inode ind index create).1 = .error e) : e ≠ .eexist := by
  unfold ext2IndBmap at h
  split_ifs at h
  split at h
  · cases h
    nofun
  · split_ifs at h
    split at h
    · cases h
    · split at h
      · cases h
        nofun
      · split at h
        · rename_i hwrite
          cases h
          exact ext2WriteInode_ne_eexist (congrArg Prod.fst hwrite)
        · cases h

theorem ext2Bmap_ne_eexist {block : Nat} {create : Bool}
    (h : (ext2Bmap fs inode block create).1 = .error e) : e ≠ .eexist := by
  unfold ext2Bmap at h
  split_ifs at h
  · exact ext2BmapSlot_ne_eexist h
  · split at h
    · rename_i hslot
      cases h
      exact ext2BmapSlot_ne_eexist (congrArg Prod.fst hslot)
    · exact ext2IndBmap_ne_eexist h
  · split at h
    · rename_i hslot
      cases h
      exact ext2BmapSlot_ne_eexist (congrArg Prod.fst hslot)
    · split at h
      · rename_i hind
        cases h
        exact ext2IndBmap_ne_eexist (congrArg Prod.fst hind)
      · exact ext2IndBmap_ne_eexist h

theorem storePage_ne_eexist {block : Nat} {bytes : Nat → UInt8}
    (h : (storePage fs block bytes).1 = .error e) : e ≠ .eexist := by
  unfold storePage at h
  split at h
  · cases h
    nofun
  · cases h

theorem appendBlock_ne_eexist {lblock : Nat} {bytes : Bytes}
    (h : (appendBlock lblock bytes fs inode).1 = .error e) : e ≠ .eexist := by
  unfold appendBlock at h
  split at h
  · rename_i hbmap
    cases h
    exact ext2Bmap_ne_eexist (congrArg Prod.fst hbmap)
  · cases h
    nofun
  · split_ifs at h
    · cases h
      nofun
    · split at h
      · cases h
        nofun
      · split at h
        · rename_i hstore
          cases h
          exact storePage_ne_eexist (congrArg Prod.fst hstore)
        · exact ext2WriteInode_ne_eexist h

theorem scanBlocks_ne_eexist {β : Type} {skip : Bool} {visit : Bytes → Option β}
    {lblocks : List Nat} (h : (scanBlocks skip visit lblocks fs inode).1 = .error e) :
    e ≠ .eexist := by
  obtain ⟨hcases, -⟩ := scanBlocks_spec skip visit lblocks fs inode
  rw [h] at hcases
  rcases hcases with ⟨i, -, answer, -, -, hret⟩ | ⟨hret, -⟩ | ⟨hret, -⟩
  · cases hret
  · cases hret
  · cases hret
    decide

/-- A name that is not found can be added as far as `-EEXIST` goes. -/
theorem ext2AddEntry_ne_eexist {name : Name} {ino : Nat} {type : UInt8}
    (hnone : (ext2FindEntry name fs inode).1 = none)
    (h : (Directory.ext2AddEntry name ino type fs inode).1 = .error e) : e ≠ .eexist := by
  unfold Directory.ext2AddEntry at h
  split at h
  · rename_i hfind
    rw [hfind] at hnone
    cases hnone
  · split at h
    · rename_i hscan
      cases h
      exact scanBlocks_ne_eexist (congrArg Prod.fst hscan)
    · exact storePage_ne_eexist h
    · exact appendBlock_ne_eexist h

end Exists

/-! ## Lookups -/

/-- What one search meets: the answers of the page cache, whether `iget` gets the inode, and
whether there is memory for a dentry. -/
structure Luck where
  io : Io
  inodeOk : Bool
  dentryOk : Bool

/-- The directory and the inode can be read. -/
structure Luck.Reads (luck : Luck) : Prop where
  pages : ∀ t, luck.io.pageOk t = true
  inode : luck.inodeOk = true

/-- Nothing fails. -/
structure Luck.Good (luck : Luck) : Prop extends Luck.Reads luck where
  dentry : luck.dentryOk = true

namespace Disk

/-- `ext2_lookup`: the inode that the dentry gets. -/
def ext2Lookup (m : Disk) (dir : Nat) (name : Name) (luck : Luck) : Option Nat × Disk :=
  if m.isDir dir = false then (none, m)
  else
    match { m with records := luck.io }.lookup dir name with
    | (.ok (some ino), m') =>
      (if luck.inodeOk then some ino else none, { m' with records := m.records })
    | (.ok none, m') => (none, { m' with records := m.records })
    | (.error _, m') => (none, { m' with records := m.records })

theorem kind_of_isDir {m : Disk} {d : Nat} (hdir : m.isDir d = true) :
    m.sys.tree.kind d = some true := by
  cases hinode : m.sys.inodes d with
  | none =>
    rw [isDir, hinode] at hdir
    cases hdir
  | some inode =>
    rw [isDir, hinode] at hdir
    exact (tree_some hinode).1.trans (congrArg some hdir)

/-- What is not a directory says nothing. -/
theorem names_of_file {m : Disk} {d : Nat} (hfile : m.isDir d = false) (name : Name) :
    m.sys.tree.names (d, name) = none := by
  cases hinode : m.sys.inodes d with
  | none => exact (tree_none hinode).2.2 name
  | some inode =>
    rw [isDir, hinode] at hfile
    dsimp only at hfile
    change namesOf m.sys d name = none
    rw [namesOf, hinode]
    refine if_neg fun hdir => ?_
    rw [hdir] at hfile
    cases hfile

end Disk

namespace View

variable {c : Setting} {m : Disk} {T : Tree Nat Name} {d : Nat} {name : Name}

/-- A name that is found is there, and without a failure every name is found. -/
theorem ext2Lookup (h : View c m T) (d : Nat) (name : Name) (luck : Luck) :
    ∃ found m', m.ext2Lookup d name luck = (found, m') ∧ View c m' T ∧
      (∀ i, found = some i → T.names (d, name) = some i) ∧
      (luck.Reads → found = T.names (d, name)) := by
  rw [Disk.ext2Lookup]
  cases hdir : m.isDir d with
  | false =>
    refine ⟨none, m, rfl, h, nofun, fun _ => ?_⟩
    rw [← h.tree]
    exact (Disk.names_of_file hdir name).symm
  | true =>
    have hkind : T.kind d = some true := by
      rw [← h.tree]
      exact Disk.kind_of_isDir hdir
    obtain ⟨dir, hinode, hiType, hok, -, hnames⟩ := h.dirOk hkind
    obtain ⟨found, fs', hop, hq, hfound, hall⟩ := hok.find_failing name luck.io
    obtain ⟨m', hrun, -, hview⟩ := h.searchWith hinode hiType hop hq
    rw [Disk.lookup, hrun]
    cases found with
    | none =>
      refine ⟨none, _, rfl, hview, nofun, fun hreads => ?_⟩
      rw [hnames, show dirMap _ dir name = none from hall hreads.pages rfl]
      rfl
    | some i =>
      have hname : T.names (d, name) = some i := (hnames name).trans (hfound i rfl)
      refine ⟨_, _, rfl, hview, fun j hj => ?_, fun hreads => ?_⟩
      · split_ifs at hj
        rw [← hj]
        exact hname
      · rw [hreads.inode, hname]
        rfl

/-! ## Names that are free -/

theorem addEntry_ne_eexist (h : View c m T) (hkind : T.kind d = some true)
    (hfree : T.names (d, name) = none) {ino : Nat} {type : UInt8} {e : Errno}
    (hret : (m.onRecords d (Directory.ext2AddEntry name ino type)).1 = .error e) :
    e ≠ .eexist := by
  obtain ⟨m', hrun, -⟩ := h.lookup hkind name
  obtain ⟨dir, hinode, hdir, -⟩ := h.dirOk hkind
  rw [onRecords_eq hinode hdir] at hret
  refine ext2AddEntry_ne_eexist ?_ hret
  have hfound := congrArg Prod.fst hrun
  rw [Disk.lookup, onRecords_eq hinode hdir, Disk.findName, hfree] at hfound
  split at hfound
  · rename_i hfind
    rw [hfind]
  · cases hfound

theorem newInode_ne_eexist {iType : FileType} {iNlink iSize : Nat} {e : Errno}
    (h : (m.newInode iType iNlink iSize).1 = .error e) : e ≠ .eexist := by
  unfold Disk.newInode ext2NewInode at h
  dsimp only at h
  split at h
  · cases h
    nofun
  · split at h
    · cases h
      nofun
    · cases h

theorem writeInode_ne_eexist {ino : Nat} {e : Errno} (h : (m.writeInode ino).1 = .error e) :
    e ≠ .eexist := by
  unfold Disk.writeInode Disk.onInode System.onInode at h
  dsimp only at h
  split at h
  · cases h
    nofun
  · exact ext2WriteInode_ne_eexist h

/-- A name that the directory does not have can be given to a new file. -/
theorem create_ne_eexist (h : View c m T) (hd : T.Linked d) (hfree : T.names (d, name) = none)
    (iType : FileType) : (m.ext2Create d name iType).1 ≠ .error .eexist := by
  obtain ⟨m1, hrun, h1⟩ := h.lookup hd.1 name
  have hsize : (if iType = .zero then FileType.reg else iType) = .dir → 0 = 0 := fun _ => rfl
  rw [Disk.ext2Create, hrun, hfree]
  dsimp only [andThen]
  have hnew := @newInode_ne_eexist m1 (if iType = .zero then FileType.reg else iType) 1 0
  rcases h1.newInode (if iType = .zero then FileType.reg else iType) 1 hsize with
    ⟨e, m2, hrun, -⟩ | ⟨i, m2, hrun, hkind, -, h2⟩
  · rw [hrun] at hnew ⊢
    exact fun heq => hnew rfl (Except.error.inj heq)
  rw [hrun]
  dsimp only
  have hne : d ≠ i := by
    rintro rfl
    rw [hd.1] at hkind
    cases hkind
  obtain ⟨ret, m3, hrun, h3, -, -⟩ := h2.writeInode withNode_kind
  have hwrite := @writeInode_ne_eexist m2 i
  rw [hrun] at hwrite ⊢
  cases ret with
  | error e => exact fun heq => hwrite rfl (Except.error.inj heq)
  | ok u =>
    dsimp only
    have hadd := fun {e} => @addEntry_ne_eexist _ _ _ _ name h3 (withNode_dir hd hne) hfree i
      (Disk.ext2FileType (if iType = .zero then FileType.reg else iType)) e
    generalize m3.onRecords d (Directory.ext2AddEntry name i
      (Disk.ext2FileType (if iType = .zero then FileType.reg else iType))) = r at hadd ⊢
    obtain ⟨ret, m4⟩ := r
    cases ret with
    | error e => exact fun heq => hadd rfl (Except.error.inj heq)
    | ok u => nofun

end View

end CuteOS.Fs.Ext2
