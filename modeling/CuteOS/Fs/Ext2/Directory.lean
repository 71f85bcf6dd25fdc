/-
  Fs/Ext2/Directory.lean --- an ext2 directory is a finite map.

  Source: `fs/ext2/dir.c`.

  The functions that search and change the entries of a directory, over the blocks
  that `ext2_bmap` gives it.  A directory stands for the map from names to inode numbers
  and types that its records spell out, whatever the order and the lengths of the
  records; blocks that are not there say nothing.
-/
import CuteOS.Fs.Ext2.Dirent
import CuteOS.Fs.Ext2.Evict
import CuteOS.Fs.Ext2.File
import CuteOS.Lib.Assoc

set_option autoImplicit false

namespace CuteOS.Fs.Ext2

open Lib Lib.Bytes
open Volume (Quiet kmalloc)
open Function (update update_self update_of_ne)

namespace Directory

/-! ## The functions of `dir.c` -/

/-- The number of blocks that the size of a directory covers. -/
def dirBlocks (dir : Inode) : Nat := (dir.iSize + blockSize - 1) / blockSize % uint32Modulus

/-- The loop over the blocks of a directory: the first answer of `visit`, with the block
it is about.  `ext2_find_entry` skips a page that cannot be read, the others give
up. -/
def scanBlocks {β : Type} (skip : Bool) (visit : Bytes → Option β) :
    List Nat → Volume → Inode → Except Errno (Option (Nat × β)) × Volume
  | [], fs, _ => (.ok none, fs)
  | lblock :: rest, fs, dir =>
    match ext2BmapReadonly fs dir lblock with
    | (0, fs) => scanBlocks skip visit rest fs dir
    | (_ + 1, fs) =>
      match pageCacheReadMapping fs dir lblock with
      | (.error _, fs) => if skip then scanBlocks skip visit rest fs dir else (.error .eio, fs)
      | (.ok pblock, fs) =>
        match visit (fs.page pblock) with
        | some answer => (.ok (some (pblock, answer)), fs)
        | none => scanBlocks skip visit rest fs dir

/-- `ext2_find_entry`: the block and the offset of the record. -/
def ext2FindEntry (name : Name) (fs : Volume) (dir : Inode) : Option (Nat × Nat) × Volume :=
  match scanBlocks true (findInBlock name) (List.range (dirBlocks dir)) fs dir with
  | (.ok found, fs) => (found, fs)
  | (.error _, fs) => (none, fs)

/-- A change of a block that is in the cache. -/
def storeBlock (pblock : Nat) (bytes : Bytes) : InodeOp Unit := fun fs dir =>
  match storePage fs pblock bytes with
  | (ret, fs) => (ret, fs, dir)

/-- The end of `ext2_add_entry`: a block is added.  `ext2_new_inode_page` asks
`ext2_resolve_block` for the page, which knows no index beyond `EXT2_MAX_FILE_INDEX`,
and needs memory. -/
def appendBlock (lblock : Nat) (bytes : Bytes) : InodeOp Unit := fun fs dir =>
  match ext2Bmap fs dir lblock true with
  | (.error e, fs, dir) => (.error e, fs, dir)
  | (.ok 0, fs, dir) => (.error .enospc, fs, dir)
  | (.ok (pblock + 1), fs, dir) =>
    if lblock > ext2MaxFileIndex then (.error .eio, fs, dir)
    else
      match fs.kmalloc with
      | (false, fs) => (.error .eio, fs, dir)
      | (true, fs) =>
        match storePage fs (pblock + 1) bytes with
        | (.error e, fs) => (.error e, fs, dir)
        | (.ok (), fs) => growAndWrite fs dir

/-- `ext2_add_entry`. -/
def ext2AddEntry (name : Name) (ino : Nat) (type : UInt8) : InodeOp Unit := fun fs dir =>
  match ext2FindEntry name fs dir with
  | (some _, fs) => (.error .eexist, fs, dir)
  | (none, fs) =>
    match scanBlocks false (addInBlock name ino type) (List.range (dirBlocks dir)) fs dir with
    | (.error e, fs) => (.error e, fs, dir)
    | (.ok (some (pblock, bytes)), fs) => storeBlock pblock bytes fs dir
    | (.ok none, fs) =>
      appendBlock (dirBlocks dir)
        (ext2DirentInit (fun _ => 0) 0 ⟨ino, blockSize, type, name⟩) fs dir

/-- `ext2_delete_entry`. -/
def ext2DeleteEntry (name : Name) : InodeOp Unit := fun fs dir =>
  match scanBlocks false (deleteInBlock name) (List.range (dirBlocks dir)) fs dir with
  | (.error e, fs) => (.error e, fs, dir)
  | (.ok (some (pblock, bytes)), fs) => storeBlock pblock bytes fs dir
  | (.ok none, fs) => (.error .enoent, fs, dir)

/-- `ext2_replace_entry`. -/
def ext2ReplaceEntry (name : Name) (ino : Nat) (type : UInt8) : InodeOp Unit := fun fs dir =>
  match ext2FindEntry name fs dir with
  | (none, fs) => (.error .enoent, fs, dir)
  | (some (pblock, offset), fs) =>
    storeBlock pblock (setFileType (setDeInode (fs.page pblock) offset ino) offset type) fs dir

/-! ## The map -/

/-- What the records of one part say. -/
def partEntries (fs : Volume) (dir : Inode) (index : Nat) : List (Name × Nat × UInt8) :=
  if fs.blockAt dir index = 0 then []
  else entries (blockRecords (fs.page (fs.blockAt dir index)))

/-- What the records of a directory say. -/
def dirEntries (fs : Volume) (dir : Inode) : List (Name × Nat × UInt8) :=
  (List.range (dir.iSize / blockSize)).flatMap (partEntries fs dir)

/-- The directory as a map. -/
def dirMap (fs : Volume) (dir : Inode) : Name → Option (Nat × UInt8) :=
  fun name => (dirEntries fs dir).lookup name

/-- A directory in order, on a volume without I/O errors.  The size comes from a field
of 32 bits and grows by blocks. -/
structure DirOk (fs : Volume) (dir : Inode) : Prop where
  owns : Owns fs dir
  noErrors : fs.NoErrors
  isDir : dir.iType = .dir
  located : ext2InodeLocation fs dir.ino = .ok ()
  aligned : dir.iSize % blockSize = 0
  size_le : dir.iSize ≤ uint32Modulus
  tiled : ∀ index < dir.iSize / blockSize, fs.blockAt dir index ≠ 0 →
    Tiled (fs.page (fs.blockAt dir index))
  unique : UniqueKeys (dirEntries fs dir)

/-- A record of the directory that is not in use has the name. -/
def DeadIn (fs : Volume) (dir : Inode) (name : Name) : Prop :=
  ∃ i < dir.iSize / blockSize, fs.blockAt dir i ≠ 0 ∧
    DeadName (blockRecords (fs.page (fs.blockAt dir i))) name

/-- What is true of every change of a directory: it touches the directory only and
leaves its link count, and a name in a record that is not in use was in such a record
before, or is one of `gone`. -/
structure Edit (gone : Name → Prop) (fs : Volume) (dir : Inode) (fs' : Volume) (dir' : Inode) :
    Prop where
  touches : Touches fs dir fs' dir'
  iNlink : dir'.iNlink = dir.iNlink
  dead : ∀ n, DeadIn fs' dir' n → DeadIn fs dir n ∨ gone n

/-- The parts of two directories are the same. -/
structure SameParts (fs : Volume) (dir : Inode) (fs' : Volume) (dir' : Inode) : Prop where
  iSize : dir'.iSize = dir.iSize
  block : ∀ index < dir.iSize / blockSize, fs'.blockAt dir' index = fs.blockAt dir index
  page : ∀ index < dir.iSize / blockSize, fs.blockAt dir index ≠ 0 →
    fs'.page (fs.blockAt dir index) = fs.page (fs.blockAt dir index)

/-- The block of part `index` gets other bytes. -/
structure Refills (fs : Volume) (dir : Inode) (index : Nat) (bytes : Bytes) (fs' : Volume) :
    Prop where
  owns : Owns fs' dir
  touches : Touches fs dir fs' dir
  block : ∀ j, fs'.blockAt dir j = fs.blockAt dir j
  self : fs'.page (fs.blockAt dir index) = bytes
  other : ∀ j, j ≠ index → fs.blockAt dir j ≠ 0 →
    fs'.page (fs.blockAt dir j) = fs.page (fs.blockAt dir j)

/-- `op` gives a name another value, and fails if the name is not there. -/
def Rewrites (gone : Name → Prop) (name : Name) (value : Nat × UInt8 → Option (Nat × UInt8))
    (op : InodeOp Unit) (fs : Volume) (dir : Inode) : Prop :=
  ∃ ret fs', op fs dir = (ret, fs', dir) ∧ DirOk fs' dir ∧ Edit gone fs dir fs' dir ∧
    match dirMap fs dir name with
    | none => ret = .error .enoent ∧ dirMap fs' dir = dirMap fs dir
    | some old => ret = .ok () ∧ dirMap fs' dir = update (dirMap fs dir) name (value old)

section Map

variable {fs fs₁ fs' : Volume} {dir dir' : Inode} {index : Nat} {name : Name}

theorem DirOk.notDevice (h : DirOk fs dir) : dir.isDevice = false := by
  rw [Inode.isDevice, h.isDir]
  rfl

theorem DirOk.dirBlocks (h : DirOk fs dir) :
    dirBlocks dir = dir.iSize / blockSize ∧ dir.iSize / blockSize ≤ ext2MaxFileIndex + 1 := by
  have haligned := h.aligned
  have hsize := h.size_le
  have hbs : blockSize = 4096 := rfl
  have hmod : uint32Modulus = 4294967296 := rfl
  have hmax : ext2MaxFileIndex = 1048575 := rfl
  rw [hbs] at haligned
  rw [Directory.dirBlocks, hbs, hmod]
  omega

theorem partEntries_congr (hblock : fs'.blockAt dir' index = fs.blockAt dir index)
    (hpage : fs.blockAt dir index ≠ 0 →
      fs'.page (fs.blockAt dir index) = fs.page (fs.blockAt dir index)) :
    partEntries fs' dir' index = partEntries fs dir index := by
  rw [partEntries, partEntries, hblock]
  split_ifs with hzero
  · rfl
  · rw [hpage hzero]

namespace SameParts

theorem of_quiet (hq : Quiet fs fs') (dir : Inode) : SameParts fs dir fs' dir :=
  ⟨rfl, fun index _ => hq.blockAt dir index, fun _ _ _ => congrFun hq.page _⟩

variable (hs : SameParts fs dir fs' dir')
include hs

theorem dirEntries : dirEntries fs' dir' = dirEntries fs dir := by
  rw [Directory.dirEntries, hs.iSize]
  refine List.flatMap_congr fun index hindex => ?_
  rw [List.mem_range] at hindex
  exact partEntries_congr (hs.block index hindex) (hs.page index hindex)

theorem dirMap : dirMap fs' dir' = dirMap fs dir := by
  funext name
  rw [Directory.dirMap, Directory.dirMap, hs.dirEntries]

theorem tiled (htiled : ∀ index < dir.iSize / blockSize, fs.blockAt dir index ≠ 0 →
    Tiled (fs.page (fs.blockAt dir index))) :
    ∀ index < dir'.iSize / blockSize, fs'.blockAt dir' index ≠ 0 →
      Tiled (fs'.page (fs'.blockAt dir' index)) := by
  rw [hs.iSize]
  intro index hindex
  rw [hs.block index hindex]
  intro hne
  rw [hs.page index hindex hne]
  exact htiled index hindex hne

theorem dead (hdead : DeadIn fs' dir' name) : DeadIn fs dir name := by
  obtain ⟨i, hi, hne, hrecord⟩ := hdead
  rw [hs.iSize] at hi
  rw [hs.block i hi] at hne hrecord
  rw [hs.page i hi hne] at hrecord
  exact ⟨i, hi, hne, hrecord⟩

end SameParts

/-- The parts of a directory stay as they are. -/
theorem DirOk.same (h : DirOk fs dir) (hs : SameParts fs dir fs' dir') (howns : Owns fs' dir')
    (hsb : fs'.sb = fs.sb) (hanswers : fs'.io.answers = fs.io.answers) (hino : dir'.ino = dir.ino)
    (hiType : dir'.iType = dir.iType) : DirOk fs' dir' where
  owns := howns
  noErrors := h.noErrors.of_answers hanswers
  isDir := hiType.trans h.isDir
  located := hino ▸ located_congr hsb h.located
  aligned := hs.iSize ▸ h.aligned
  size_le := hs.iSize ▸ h.size_le
  tiled := hs.tiled h.tiled
  unique := hs.dirEntries ▸ h.unique

theorem DirOk.quiet (h : DirOk fs dir) (hq : Quiet fs fs') : DirOk fs' dir :=
  h.same (.of_quiet hq dir) (h.owns.quiet hq) hq.sb hq.answers rfl rfl

theorem DirOk.quiet_map (h : DirOk fs dir) (hq : Quiet fs fs') :
    DirOk fs' dir ∧ dirMap fs' dir = dirMap fs dir :=
  ⟨h.quiet hq, (SameParts.of_quiet hq dir).dirMap⟩

section Edits

variable {gone : Name → Prop} {fs₂ : Volume} {dir₁ dir₂ : Inode}

theorem Edit.of_quiet (hq : Quiet fs fs') (dir : Inode) : Edit gone fs dir fs' dir :=
  ⟨.of_quiet hq dir, rfl, fun _ hdead => .inl ((SameParts.of_quiet hq dir).dead hdead)⟩

theorem Edit.trans (h1 : Edit gone fs dir fs₁ dir₁) (h2 : Edit gone fs₁ dir₁ fs₂ dir₂) :
    Edit gone fs dir fs₂ dir₂ :=
  ⟨h1.touches.trans h2.touches, h2.iNlink.trans h1.iNlink, fun n hdead =>
    (h2.dead n hdead).elim (h1.dead n) .inr⟩

end Edits

/-- The entries of one part and those of the others. -/
theorem dirEntries_split (hindex : index < dir.iSize / blockSize) :
    (dirEntries fs dir).Perm (partEntries fs dir index ++
      ((List.range (dir.iSize / blockSize)).erase index).flatMap (partEntries fs dir)) :=
  (List.perm_cons_erase (List.mem_range.mpr hindex)).flatMap_right _

/-! ### A block with other records -/

variable {gone : Name → Prop}

namespace Refills

variable {bytes : Bytes} (hr : Refills fs dir index bytes fs')
include hr

theorem blockAt (size j : Nat) :
    fs'.blockAt { dir with iSize := size } j = fs.blockAt dir j :=
  hr.block j

theorem part_other (size : Nat) {j : Nat} (hj : j ≠ index) :
    partEntries fs' { dir with iSize := size } j = partEntries fs dir j :=
  partEntries_congr (hr.block j) (hr.other j hj)

variable {records : List Dirent} (htiles : Tiles bytes 0 records blockSize)
include htiles

theorem part_self (hne : fs.blockAt dir index ≠ 0) (size : Nat) :
    partEntries fs' { dir with iSize := size } index = entries records := by
  rw [partEntries, hr.blockAt, if_neg hne, hr.self, htiles.blockRecords.2]

-- the part may be a new one, behind the others
variable {size : Nat} (hparts : ∀ j < size / blockSize, j ≠ index → j < dir.iSize / blockSize)
include hparts

theorem dirOk (h : DirOk fs dir) (haligned : size % blockSize = 0) (hle : size ≤ uint32Modulus)
    (hunique : UniqueKeys (dirEntries fs' { dir with iSize := size })) :
    DirOk fs' { dir with iSize := size } := by
  refine ⟨hr.owns.congr rfl rfl (fun _ _ => rfl) hr.owns.used,
    h.noErrors.of_answers hr.touches.answers, h.isDir, located_congr hr.touches.sb h.located,
    haligned, hle, fun j hj hjne => ?_, hunique⟩
  rw [hr.blockAt] at hjne ⊢
  by_cases hji : j = index
  · rw [hji, hr.self]
    exact htiles.blockRecords.1
  · rw [hr.other j hji hjne]
    exact h.tiled j (hparts j hj hji) hjne

theorem edit (hgone : ∀ n, DeadName records n → DeadIn fs dir n ∨ gone n) :
    Edit gone fs dir fs' { dir with iSize := size } := by
  refine ⟨hr.touches.trans ⟨rfl, rfl, rfl, rfl, rfl, fun _ hb => hb, fun _ _ _ => rfl,
    fun _ hb => hb, fun _ => .inl⟩, rfl, ?_⟩
  rintro n ⟨j, hj, hjne, hdead⟩
  rw [hr.blockAt] at hjne hdead
  by_cases hji : j = index
  · rw [hji, hr.self, htiles.blockRecords.2] at hdead
    exact hgone n hdead
  · rw [hr.other j hji hjne] at hdead
    exact .inl ⟨j, hparts j hj hji, hjne, hdead⟩

end Refills

/-- A block of the directory is filled after a search. -/
theorem DirOk.fill (h : DirOk fs dir) (hq : Quiet fs fs₁) (hne : fs.blockAt dir index ≠ 0)
    (bytes : Bytes) :
    ∃ fs', storePage fs₁ (fs.blockAt dir index) bytes = (.ok (), fs') ∧
      Refills fs dir index bytes fs' := by
  have hblock := hq.blockAt dir
  rw [← hblock index] at hne ⊢
  have hleaf := blockAt_mem_leaves hne
  have h1 := h.quiet hq
  obtain ⟨howns, htouch⟩ := h1.owns.setPage_leaf hleaf bytes
  have hq' := Volume.quiet_nextTick (fs₁.setPage (fs₁.blockAt dir index) bytes)
  have hsync : (fs₁.setPage (fs₁.blockAt dir index) bytes).NoErrors :=
    h1.noErrors.of_answers rfl
  refine ⟨(fs₁.setPage (fs₁.blockAt dir index) bytes).nextTick, ?_, howns.quiet hq',
    ((Touches.of_quiet hq dir).trans htouch).trans (.of_quiet hq' dir),
    fun j => (h1.owns.blockAt_setPage hleaf bytes j).trans (hblock j), ?_, fun j hj hjne => ?_⟩
  · rw [storePage, Volume.pageCacheSyncPage, hsync.syncs]
  · rw [← hblock index]
    exact update_self ..
  · rw [← hblock j] at hjne ⊢
    rw [← hq.page]
    exact update_of_ne (fun heq => hj (blockAt_inj h1.owns hjne heq)) ..

variable {bytes : Bytes}

/-- Storing a block of the directory after a search. -/
theorem DirOk.store (h : DirOk fs dir) (hq : Quiet fs fs₁) (hindex : index < dir.iSize / blockSize)
    (hne : fs.blockAt dir index ≠ 0) {records : List Dirent}
    (htiles : Tiles bytes 0 records blockSize) :
    ∃ fs' rest, storeBlock (fs.blockAt dir index) bytes fs₁ dir = (.ok (), fs', dir) ∧
      (dirEntries fs dir).Perm (entries (blockRecords (fs.page (fs.blockAt dir index))) ++ rest) ∧
      (dirEntries fs' dir).Perm (entries records ++ rest) ∧
      (UniqueKeys (dirEntries fs' dir) → DirOk fs' dir) ∧
      ∀ gone, Buries gone (blockRecords (fs.page (fs.blockAt dir index))) records →
        Edit gone fs dir fs' dir := by
  obtain ⟨fs', hstore, hr⟩ := h.fill hq hne bytes
  have hparts : ∀ j < dir.iSize / blockSize, j ≠ index → j < dir.iSize / blockSize :=
    fun _ hj _ => hj
  have hold : partEntries fs dir index =
      entries (blockRecords (fs.page (fs.blockAt dir index))) := if_neg hne
  have hrest : ((List.range (dir.iSize / blockSize)).erase index).flatMap (partEntries fs' dir) =
      ((List.range (dir.iSize / blockSize)).erase index).flatMap (partEntries fs dir) :=
    List.flatMap_congr fun j hj =>
      hr.part_other dir.iSize ((List.nodup_range).mem_erase_iff.mp hj).1
  refine ⟨fs', _, by rw [storeBlock, hstore], hold ▸ dirEntries_split hindex, ?_,
    hr.dirOk htiles hparts h h.aligned h.size_le, fun gone hgone =>
      hr.edit htiles hparts fun n hn => (hgone n hn).imp_left fun hdead =>
        ⟨index, hindex, hne, hdead⟩⟩
  rw [← hr.part_self htiles hne dir.iSize, ← hrest]
  exact dirEntries_split hindex

/-! ## Searching -/

/-- What a scan of the blocks may return: the first answer, or none if it could read them
all, or a failure. -/
def ScanResult {β : Type} (skip : Bool) (visit : Bytes → Option β) (lblocks : List Nat)
    (fs : Volume) (dir : Inode) (ret : Except Errno (Option (Nat × β))) : Prop :=
  (∃ i ∈ lblocks, ∃ answer, fs.blockAt dir i ≠ 0 ∧
      visit (fs.page (fs.blockAt dir i)) = some answer ∧
      ret = .ok (some (fs.blockAt dir i, answer))) ∨
    (ret = .ok none ∧ (fs.PagesAvailable → (∀ i ∈ lblocks, i ≤ ext2MaxFileIndex) →
      ∀ i ∈ lblocks, fs.blockAt dir i ≠ 0 → visit (fs.page (fs.blockAt dir i)) = none)) ∨
    ret = .error .eio ∧ skip = false ∧
      (fs.PagesAvailable → ¬ ∀ i ∈ lblocks, i ≤ ext2MaxFileIndex)

variable {β : Type}

/-- A round without an answer leaves the search to the rest. -/
theorem ScanResult.next {skip : Bool} {visit : Bytes → Option β} {lblock : Nat} {rest : List Nat}
    {fs₁ : Volume} {ret : Except Errno (Option (Nat × β))}
    (h : ScanResult skip visit rest fs₁ dir ret) (hq : Quiet fs fs₁)
    (hnone : fs.PagesAvailable → lblock ≤ ext2MaxFileIndex → fs.blockAt dir lblock ≠ 0 →
      visit (fs.page (fs.blockAt dir lblock)) = none) :
    ScanResult skip visit (lblock :: rest) fs dir ret := by
  have hsame := hq.blockAt dir
  have hio : fs.PagesAvailable → fs₁.PagesAvailable := fun hio => hio.of_answers hq.answers
  simp only [ScanResult, hsame, hq.page] at h
  rcases h with ⟨i, hi, answer, hfound⟩ | ⟨hret, hall⟩ | ⟨hret, hskip, hfail⟩
  · exact .inl ⟨i, List.mem_cons_of_mem _ hi, answer, hfound⟩
  · refine .inr (.inl ⟨hret, fun hpages hmax => ?_⟩)
    rw [List.forall_mem_cons] at hmax ⊢
    exact ⟨hnone hpages hmax.1, hall (hio hpages) hmax.2⟩
  · exact .inr (.inr ⟨hret, hskip, fun hpages hmax =>
      hfail (hio hpages) (List.forall_mem_cons.mp hmax).2⟩)

theorem scanBlocks_spec (skip : Bool) (visit : Bytes → Option β) (lblocks : List Nat) (fs : Volume)
    (dir : Inode) :
    ScanResult skip visit lblocks fs dir (scanBlocks skip visit lblocks fs dir).1 ∧
      Quiet fs (scanBlocks skip visit lblocks fs dir).2 := by
  induction lblocks generalizing fs with
  | nil => exact ⟨.inr (.inl ⟨rfl, fun _ _ i hi => by cases hi⟩), .refl fs⟩
  | cons lblock rest ih =>
    rw [scanBlocks]
    obtain ⟨hquiet, hblock⟩ := ext2BmapReadonly_spec fs dir lblock
    generalize ext2BmapReadonly fs dir lblock = r at hquiet hblock ⊢
    obtain ⟨block, fs₁⟩ := r
    cases block with
    | zero =>
      refine ⟨(ih fs₁).1.next hquiet fun hio _ hne => ?_, hquiet.trans (ih fs₁).2⟩
      exact absurd (hblock.resolve_right fun hfail => hfail.2 hio).symm hne
    | succ b =>
      have hblock := hblock.resolve_right fun hfail => Nat.succ_ne_zero b hfail.1
      have hne : fs.blockAt dir lblock ≠ 0 := by
        rw [← hblock]
        exact Nat.succ_ne_zero b
      obtain ⟨hread, hret⟩ := pageCacheReadMapping_cases fs₁ dir lblock
      rw [hquiet.blockAt, if_neg hne] at hret
      dsimp only
      generalize pageCacheReadMapping fs₁ dir lblock = r at hread hret ⊢
      obtain ⟨ret, fs₂⟩ := r
      have hquiet2 := hquiet.trans hread
      cases ret with
      | error e =>
        have hfail : fs.PagesAvailable → ¬ lblock ≤ ext2MaxFileIndex := by
          intro hio hmax
          have hok := hret.resolve_right fun hfail => hfail.2 (hio.of_answers hquiet.answers)
          rw [if_neg (Nat.not_lt.mpr hmax)] at hok
          cases hok
        cases skip with
        | true =>
          exact ⟨(ih fs₂).1.next hquiet2 fun hio hmax => absurd hmax (hfail hio),
            hquiet2.trans (ih fs₂).2⟩
        | false =>
          exact ⟨.inr (.inr ⟨rfl, rfl, fun hio hmax =>
            hfail hio (hmax lblock List.mem_cons_self)⟩), hquiet2⟩
      | ok pblock =>
        obtain rfl : pblock = fs.blockAt dir lblock := by
          rcases hret with hok | ⟨⟨e, herror⟩, -⟩
          · split_ifs at hok
            exact Except.ok.inj hok
          · cases herror
        dsimp only
        rw [hquiet2.page]
        cases hvisit : visit (fs.page (fs.blockAt dir lblock)) with
        | some answer =>
          exact ⟨.inl ⟨lblock, List.mem_cons_self, answer, hne, hvisit, rfl⟩, hquiet2⟩
        | none => exact ⟨(ih fs₂).1.next hquiet2 fun _ _ _ => hvisit, hquiet2.trans (ih fs₂).2⟩

/-- A scan of a directory in order: `hspec` tells what `visit` answers about the records
of a block. -/
theorem DirOk.scanBlocks_cases (h : DirOk fs dir) (skip : Bool) {visit : Bytes → Option β}
    {Absent : List Dirent → Prop} {Answer : Bytes → List Dirent → β → Prop}
    (hspec : ∀ {data records}, Tiles data 0 records blockSize →
      (visit data = none ∧ Absent records) ∨
        ∃ answer, visit data = some answer ∧ Answer data records answer) :
    ∃ fs', Quiet fs fs' ∧
      ((scanBlocks skip visit (List.range (Directory.dirBlocks dir)) fs dir = (.ok none, fs') ∧
          ∀ i < dir.iSize / blockSize, fs.blockAt dir i ≠ 0 →
            Absent (blockRecords (fs.page (fs.blockAt dir i)))) ∨
        ∃ i < dir.iSize / blockSize, ∃ answer, fs.blockAt dir i ≠ 0 ∧
          Answer (fs.page (fs.blockAt dir i)) (blockRecords (fs.page (fs.blockAt dir i))) answer ∧
          scanBlocks skip visit (List.range (Directory.dirBlocks dir)) fs dir =
            (.ok (some (fs.blockAt dir i, answer)), fs')) := by
  obtain ⟨hblocks, hmax⟩ := h.dirBlocks
  rw [hblocks]
  obtain ⟨hcases, hq⟩ := scanBlocks_spec skip visit (List.range (dir.iSize / blockSize)) fs dir
  generalize scanBlocks skip visit _ fs dir = r at hcases hq ⊢
  obtain ⟨ret, fs'⟩ := r
  have hmax : ∀ i < dir.iSize / blockSize, i ≤ ext2MaxFileIndex := by omega
  simp only [ScanResult, List.mem_range] at hcases
  refine ⟨fs', hq, ?_⟩
  rcases hcases with ⟨i, hi, answer, hne, hvisit, rfl⟩ | ⟨rfl, hall⟩ | ⟨-, -, hfail⟩
  · refine .inr ⟨i, hi, answer, hne, ?_, rfl⟩
    rcases hspec (h.tiled i hi hne) with ⟨hnone, -⟩ | ⟨answer', hsome, hanswer⟩
    · cases hnone.symm.trans hvisit
    · cases hsome.symm.trans hvisit
      exact hanswer
  · refine .inl ⟨rfl, fun i hi hne => ?_⟩
    rcases hspec (h.tiled i hi hne) with ⟨-, habsent⟩ | ⟨answer, hsome, -⟩
    · exact habsent
    · cases (hall h.noErrors.pages hmax i hi hne).symm.trans hsome
  · exact absurd hmax (hfail h.noErrors.pages)

/-- A name is in the map if a record has it. -/
theorem mem_dirEntries {entry : Name × Nat × UInt8} :
    entry ∈ dirEntries fs dir ↔ ∃ i < dir.iSize / blockSize, fs.blockAt dir i ≠ 0 ∧
      entry ∈ entries (blockRecords (fs.page (fs.blockAt dir i))) := by
  rw [dirEntries, List.mem_flatMap]
  constructor
  · rintro ⟨i, hi, hmem⟩
    rw [partEntries] at hmem
    split_ifs at hmem with hzero
    · cases hmem
    · exact ⟨i, List.mem_range.mp hi, hzero, hmem⟩
  · rintro ⟨i, hi, hne, hmem⟩
    refine ⟨i, List.mem_range.mpr hi, ?_⟩
    rw [partEntries, if_neg hne]
    exact hmem

/-- No record with the name: it is not in the map. -/
theorem dirMap_eq_none (hnone : ∀ i < dir.iSize / blockSize, fs.blockAt dir i ≠ 0 →
    ∀ de ∈ blockRecords (fs.page (fs.blockAt dir i)), ext2Match de name = false) :
    dirMap fs dir name = none := by
  apply lookup_eq_none_of_not_mem
  intro hmem
  obtain ⟨entry, hentry, hname⟩ := List.mem_map.mp hmem
  obtain ⟨i, hi, hne, hentry⟩ := mem_dirEntries.mp hentry
  obtain ⟨de, hde, hsome⟩ := List.mem_filterMap.mp hentry
  rw [Dirent.entry] at hsome
  split_ifs at hsome with hlive
  cases hsome
  have hmatch : ext2Match de name = true := ext2Match_iff.mpr ⟨hlive, hname⟩
  rw [hnone i hi hne de hde] at hmatch
  cases hmatch

variable {a b : List Dirent} {de : Dirent} {offset ino : Nat}

/-- The value of a name is in the record that has it. -/
theorem DirOk.dirMap_eq (h : DirOk fs dir) (hi : index < dir.iSize / blockSize)
    (hne : fs.blockAt dir index ≠ 0)
    (hsplit : blockRecords (fs.page (fs.blockAt dir index)) = a ++ de :: b)
    (ha : Tiles (fs.page (fs.blockAt dir index)) 0 a offset) (hmatch : ext2Match de name = true) :
    direntAt (fs.page (fs.blockAt dir index)) offset = de ∧
      dirMap fs dir name = some (de.inode, de.fileType) := by
  have htiled := h.tiled index hi hne
  rw [Tiled, hsplit] at htiled
  obtain ⟨hlive, hname⟩ := ext2Match_iff.mp hmatch
  refine ⟨(tiles_at htiled ha).1,
    (lookup_eq_some_iff h.unique).mpr (mem_dirEntries.mpr ⟨index, hi, hne, ?_⟩)⟩
  rw [hsplit, ← hname]
  exact (perm_entries_middle hlive a b).mem_iff.mpr List.mem_cons_self

/-- `ext2_find_entry` finds the record of a name just when the map has it. -/
theorem DirOk.find_cases (h : DirOk fs dir) (name : Name) : ∃ fs', Quiet fs fs' ∧
      ((ext2FindEntry name fs dir = (none, fs') ∧ dirMap fs dir name = none) ∨
        ∃ i < dir.iSize / blockSize, ∃ a de b offset, fs.blockAt dir i ≠ 0 ∧
          blockRecords (fs.page (fs.blockAt dir i)) = a ++ de :: b ∧
          Tiles (fs.page (fs.blockAt dir i)) 0 a offset ∧ ext2Match de name = true ∧
          ext2FindEntry name fs dir = (some (fs.blockAt dir i, offset), fs') ∧
          direntAt (fs.page (fs.blockAt dir i)) offset = de ∧
          dirMap fs dir name = some (de.inode, de.fileType)) := by
  obtain ⟨fs', hq, ⟨hscan, hall⟩ | ⟨i, hi, offset, hne, ⟨a, de, b, hsplit, ha, hmatch⟩, hscan⟩⟩ :=
    h.scanBlocks_cases true fun htiles => findInBlock_spec htiles name
  · exact ⟨fs', hq, .inl ⟨by rw [ext2FindEntry, hscan], dirMap_eq_none hall⟩⟩
  · exact ⟨fs', hq, .inr ⟨i, hi, a, de, b, offset, hne, hsplit, ha, hmatch,
      by rw [ext2FindEntry, hscan], h.dirMap_eq hi hne hsplit ha hmatch⟩⟩

/-! ## Changing -/

section

variable (h : DirOk fs dir)
include h

variable {value : Nat × UInt8 → Option (Nat × UInt8)} {op : InodeOp Unit}

/-- The name is not there. -/
theorem DirOk.rewrites_absent (hq : Quiet fs fs') (hrun : op fs dir = (.error .enoent, fs', dir))
    (hnone : dirMap fs dir name = none) :
    Rewrites gone name value op fs dir := by
  obtain ⟨hok, hmap⟩ := h.quiet_map hq
  refine ⟨.error .enoent, fs', hrun, hok, .of_quiet hq dir, ?_⟩
  rw [hnone]
  exact ⟨rfl, hmap⟩

/-- `ext2_delete_entry` takes the name out of the map. -/
theorem DirOk.delete_spec (name : Name) :
    Rewrites (· = name) name (fun _ => none) (ext2DeleteEntry name) fs dir := by
  obtain ⟨fs₁, hq, ⟨hscan, hall⟩ | ⟨i, hi, bytes, hne, ⟨records', value, htiles, hperm, hdead⟩,
    hscan⟩⟩ := h.scanBlocks_cases false fun htiles => deleteInBlock_spec htiles name
  · exact h.rewrites_absent hq (by rw [ext2DeleteEntry, hscan]) (dirMap_eq_none hall)
  · obtain ⟨fs', rest, hstore, hold, hnew, hfine, hedit⟩ := h.store hq hi hne htiles
    have hall : (dirEntries fs dir).Perm ((name, value) :: dirEntries fs' dir) :=
      hold.trans ((hperm.append_right rest).trans (.cons _ hnew.symm))
    have hunique := uniqueKeys_cons.mp (h.unique.perm hall)
    have hvalue : dirMap fs dir name = some value :=
      (lookup_eq_some_iff h.unique).mpr (hall.mem_iff.mpr List.mem_cons_self)
    refine ⟨.ok (), fs', ?_, hfine hunique.2, hedit _ hdead, ?_⟩
    · rw [ext2DeleteEntry, hscan]
      exact hstore
    · rw [hvalue]
      exact ⟨rfl, lookup_erase h.unique hall⟩

/-- The record of a name gets another value. -/
theorem DirOk.rewrites_record (hq : Quiet fs fs₁) (hi : index < dir.iSize / blockSize)
    (hne : fs.blockAt dir index ≠ 0)
    (hsplit : blockRecords (fs.page (fs.blockAt dir index)) = a ++ de :: b)
    (ha : Tiles (fs.page (fs.blockAt dir index)) 0 a offset) (hmatch : ext2Match de name = true)
    (hpos : ino ≠ 0) (hino : ino < 2 ^ 32) {type : UInt8}
    (hto : value (de.inode, de.fileType) = some (ino, type))
    (hrun : op fs dir = storeBlock (fs.blockAt dir index) (setFileType
      (setDeInode (fs.page (fs.blockAt dir index)) offset ino) offset type) fs₁ dir) :
    Rewrites (fun _ => False) name value op fs dir := by
  have hvalue := (h.dirMap_eq hi hne hsplit ha hmatch).2
  have htiled := h.tiled index hi hne
  rw [Tiled, hsplit] at htiled
  obtain ⟨records', rest', htiles, hperm, hperm', hdead⟩ :=
    Ext2.replace_spec htiled ha hmatch type hpos hino
  obtain ⟨fs', rest, hstore, hold, hnew, hfine, hedit⟩ := h.store hq hi hne htiles
  rw [hsplit] at hold hedit
  have hbefore : (dirEntries fs dir).Perm ((name, de.inode, de.fileType) :: (rest' ++ rest)) :=
    hold.trans (hperm.append_right rest)
  have hafter : (dirEntries fs' dir).Perm ((name, ino, type) :: (rest' ++ rest)) :=
    hnew.trans (hperm'.append_right rest)
  obtain ⟨hunique, hmap⟩ := lookup_replace h.unique hbefore hafter
  refine ⟨.ok (), fs', hrun.trans hstore, hfine hunique, hedit _ hdead, ?_⟩
  rw [hvalue]
  dsimp only
  rw [hto]
  exact ⟨rfl, hmap⟩

/-- `ext2_replace_entry` gives the name another value. -/
theorem DirOk.replace_spec (name : Name) (type : UInt8) (hpos : ino ≠ 0) (hino : ino < 2 ^ 32) :
    Rewrites (fun _ => False) name (fun _ => some (ino, type)) (ext2ReplaceEntry name ino type)
      fs dir := by
  obtain ⟨fs₁, hq, ⟨hfind, hnone⟩ | ⟨i, hi, a, de, b, offset, hne, hsplit, ha, hmatch, hfind, -⟩⟩ :=
    h.find_cases name
  · exact h.rewrites_absent hq (by rw [ext2ReplaceEntry, hfind]) hnone
  · refine h.rewrites_record hq hi hne hsplit ha hmatch hpos hino rfl ?_
    rw [ext2ReplaceEntry, hfind]
    dsimp only
    rw [hq.page]

end

/-- No record of the directory has room for `need` bytes more. -/
def NoRoom (fs : Volume) (dir : Inode) (need : Nat) : Prop :=
  ∀ i < dir.iSize / blockSize, fs.blockAt dir i ≠ 0 →
    ∀ de ∈ blockRecords (fs.page (fs.blockAt dir i)), ¬ de.HasRoom need

/-- A block cannot be added: `ext2_bmap` has none, the directory is as large as a file
can be, or there is no memory. -/
def CannotGrow (fs : Volume) (dir : Inode) : Prop :=
  ∃ fs₁, Quiet fs fs₁ ∧ ∀ b fs₂ dir₂,
    ext2Bmap fs₁ dir (dir.iSize / blockSize) true = (.ok b, fs₂, dir₂) → b ≠ 0 →
      dir.iSize / blockSize > ext2MaxFileIndex ∨ fs₂.kmalloc.1 = false

/-- What comes of a try to add a block with one record. -/
def Appends (fs : Volume) (dir : Inode) (de : Dirent) (r : Except Errno Unit × Volume × Inode) :
    Prop :=
  DirOk r.2.1 r.2.2 ∧ Edit (fun _ => False) fs dir r.2.1 r.2.2 ∧
    ((r.1 = .ok () ∧ dirMap r.2.1 r.2.2 =
        update (dirMap fs dir) de.name (some (de.inode, de.fileType))) ∨
      ∃ e, r.1 = .error e ∧ dirMap r.2.1 r.2.2 = dirMap fs dir ∧ CannotGrow fs dir)

variable (h : DirOk fs dir)
include h

/-- Writing a directory inode succeeds. -/
theorem DirOk.write : ∃ fs', ext2WriteInode fs dir = (.ok (), fs', dir) ∧ Quiet fs fs' :=
  ext2WriteInode_ok h.noErrors h.notDevice h.located

/-- A name that is not in the map comes in addition. -/
theorem DirOk.unique_insert (hnone : dirMap fs dir name = none)
    {value : Nat × UInt8} {all : List (Name × Nat × UInt8)}
    (hperm : all.Perm ((name, value) :: dirEntries fs dir)) : UniqueKeys all := by
  have hnotMem : name ∉ (dirEntries fs dir).map Prod.fst := by
    intro hmem
    obtain ⟨⟨name', value⟩, hentry, hname⟩ := List.mem_map.mp hmem
    obtain rfl : name' = name := hname
    rw [dirMap, (lookup_eq_some_iff h.unique).mpr hentry] at hnone
    cases hnone
  exact UniqueKeys.perm (uniqueKeys_cons.mpr ⟨hnotMem, h.unique⟩) hperm.symm

/-- A new block with one record behind the others. -/
theorem DirOk.grow (hne : fs.blockAt dir (dir.iSize / blockSize) ≠ 0)
    (hmax : dir.iSize / blockSize ≤ ext2MaxFileIndex) (hlive : de.inode ≠ 0)
    (htiles : Tiles bytes 0 [de] blockSize) (hnone : dirMap fs dir de.name = none) :
    ∃ fs₁ fs' dir', storePage fs (fs.blockAt dir (dir.iSize / blockSize)) bytes = (.ok (), fs₁) ∧
      growAndWrite fs₁ dir = (.ok (), fs', dir') ∧ DirOk fs' dir' ∧
      Edit (fun _ => False) fs dir fs' dir' ∧
      dirMap fs' dir' =
        update (dirMap fs dir) de.name (some (de.inode, de.fileType)) := by
  have hbs : blockSize = 4096 := rfl
  obtain ⟨fs₁, hstore, hr⟩ := h.fill (.refl fs) hne bytes
  have hcount : (dir.iSize + blockSize) / blockSize = dir.iSize / blockSize + 1 :=
    Nat.add_div_right _ (by decide)
  have hparts : ∀ j < (dir.iSize + blockSize) / blockSize, j ≠ dir.iSize / blockSize →
      j < dir.iSize / blockSize := by
    omega
  -- the new part has one entry
  have hentries : dirEntries fs₁ { dir with iSize := dir.iSize + blockSize } =
      dirEntries fs dir ++ [(de.name, de.inode, de.fileType)] := by
    rw [dirEntries, hcount, List.range_succ, List.flatMap_append,
      List.flatMap_congr fun j hj => hr.part_other _ (Nat.ne_of_lt (List.mem_range.mp hj)),
      List.flatMap_singleton, hr.part_self htiles hne, entries_cons, entry_live hlive]
    rfl
  have hperm : (dirEntries fs₁ { dir with iSize := dir.iSize + blockSize }).Perm
      ((de.name, de.inode, de.fileType) :: dirEntries fs dir) := by
    rw [hentries]
    exact List.perm_append_singleton _ _
  have hunique := h.unique_insert hnone hperm
  have hle : dir.iSize + blockSize ≤ uint32Modulus := by
    have haligned := h.aligned
    have hmod : uint32Modulus = 4294967296 := rfl
    have hindex : ext2MaxFileIndex = 1048575 := rfl
    rw [hbs] at haligned hmax ⊢
    omega
  have hok := hr.dirOk htiles hparts h (by rw [Nat.add_mod_right, h.aligned]) hle hunique
  have hedit : Edit (fun _ => False) fs dir fs₁ { dir with iSize := dir.iSize + blockSize } := by
    refine hr.edit htiles hparts fun n hdead => ?_
    obtain ⟨de', hde', hzero, -⟩ := hdead
    rw [List.mem_singleton.mp hde'] at hzero
    exact absurd hzero hlive
  obtain ⟨fs', hwrite, hq'⟩ := hok.write
  obtain ⟨hok', hmap'⟩ := hok.quiet_map hq'
  refine ⟨fs₁, fs', _, hstore, hwrite, hok', hedit.trans (.of_quiet hq' _), ?_⟩
  rw [hmap']
  exact lookup_insert hunique hperm

/-- The end of `ext2_add_entry`. -/
theorem DirOk.append_spec (hlive : de.inode ≠ 0) (htiles : Tiles bytes 0 [de] blockSize)
    (hnone : dirMap fs dir de.name = none) :
    Appends fs dir de (appendBlock (dir.iSize / blockSize) bytes fs dir) := by
  rw [appendBlock]
  generalize hbmap : ext2Bmap fs dir (dir.iSize / blockSize) true = r
  obtain ⟨ret1, fs₁, dir₁⟩ := r
  obtain ⟨hmaps, hblock⟩ := ext2Bmap_maps h.owns h.noErrors.pages h.notDevice hbmap
  -- the parts that were there have not moved
  have hs : SameParts fs dir fs₁ dir₁ :=
    ⟨hmaps.iSize, fun i hi => hmaps.other i (Nat.ne_of_lt hi), fun i _ hne => hmaps.data i hne⟩
  have hok := h.same hs hmaps.owns hmaps.sb hmaps.answers hmaps.ino hmaps.iType
  have hmap := hs.dirMap
  have hedit : Edit (fun _ => False) fs dir fs₁ dir₁ :=
    ⟨hmaps.toTouches, hmaps.iNlink, fun n hdead => .inl (hs.dead hdead)⟩
  have hfail : ∀ e, (∀ b, ret1 = .ok b → b ≠ 0 →
      dir.iSize / blockSize > ext2MaxFileIndex ∨ fs₁.kmalloc.1 = false) →
      ∀ fs', Quiet fs₁ fs' → Appends fs dir de (.error e, fs', dir₁) := by
    intro e hwhy fs' hq
    obtain ⟨hok', hmap'⟩ := hok.quiet_map hq
    refine ⟨hok', hedit.trans (.of_quiet hq dir₁),
      .inr ⟨e, rfl, hmap'.trans hmap, fs, .refl fs, fun b fs₂ dir₂ hcall hb => ?_⟩⟩
    rw [hbmap] at hcall
    cases hcall
    exact hwhy b rfl hb
  cases ret1 with
  | error e => exact hfail e (fun b hb => by cases hb) _ (.refl _)
  | ok block =>
    cases block with
    | zero =>
      exact hfail .enospc (fun b hb hne => by cases hb; exact absurd rfl hne) _ (.refl _)
    | succ block =>
      dsimp only
      by_cases hbig : dir.iSize / blockSize > ext2MaxFileIndex
      · rw [if_pos hbig]
        exact hfail .eio (fun _ _ _ => .inl hbig) _ (.refl _)
      rw [if_neg hbig]
      have hq := Volume.quiet_nextTick fs₁
      cases hmem : fs₁.io.memOk fs₁.io.tick with
      | false =>
        rw [kmalloc, hmem]
        exact hfail .eio (fun _ _ _ => .inr hmem) _ hq
      | true =>
        rw [kmalloc, hmem]
        dsimp only
        obtain ⟨hok2, hmap2⟩ := hok.quiet_map hq
        have hsize : dir₁.iSize = dir.iSize := hmaps.iSize
        have hat : fs₁.nextTick.blockAt dir₁ (dir₁.iSize / blockSize) = block + 1 := by
          rw [hsize]
          exact hblock _ rfl
        obtain ⟨fs₂, fs₃, dir₃, hstore, hgrow, hfine, hedit3, hmap3⟩ := hok2.grow
          (by rw [hat]; exact Nat.succ_ne_zero block) (by rw [hsize]; omega) hlive htiles
          (by rw [hmap2, hmap]; exact hnone)
        rw [← hat, hstore]
        dsimp only
        rw [hgrow]
        refine ⟨hfine, (hedit.trans (.of_quiet hq dir₁)).trans hedit3, .inl ⟨rfl, ?_⟩⟩
        rw [hmap3, hmap2, hmap]

/-- `ext2_add_entry` adds a name that is not in the map, unless there is no room. -/
theorem DirOk.add_spec (type : UInt8) (hname : name.length < 256) (hpos : ino ≠ 0)
    (hino : ino < 2 ^ 32) :
    ∃ ret fs' dir', ext2AddEntry name ino type fs dir = (ret, fs', dir') ∧ DirOk fs' dir' ∧
      Edit (fun _ => False) fs dir fs' dir' ∧
      match dirMap fs dir name with
      | some _ => ret = .error .eexist ∧ dirMap fs' dir' = dirMap fs dir
      | none =>
        (ret = .ok () ∧ dirMap fs' dir' = update (dirMap fs dir) name (some (ino, type))) ∨
        ∃ e, ret = .error e ∧ dirMap fs' dir' = dirMap fs dir ∧
          NoRoom fs dir (ext2DirRecLen name.length) ∧ CannotGrow fs dir := by
  obtain ⟨fs₁, hq, ⟨hfind, hnone⟩ | ⟨i, hi, a, de, b, offset, hne, hsplit, ha, hmatch, hfind, -,
    hvalue⟩⟩ := h.find_cases name
  swap
  · obtain ⟨hok, hmap⟩ := h.quiet_map hq
    refine ⟨.error .eexist, fs₁, dir, by rw [ext2AddEntry, hfind], hok, .of_quiet hq dir, ?_⟩
    rw [hvalue]
    exact ⟨rfl, hmap⟩
  rw [hnone]
  have hs := SameParts.of_quiet hq dir
  have h1 := h.quiet hq
  obtain ⟨fs₂, hq2, ⟨hscan, hall⟩ | ⟨i, hi, bytes, hne, ⟨records', htiles, hperm, hdead⟩, hscan⟩⟩ :=
    h1.scanBlocks_cases false fun htiles => addInBlock_spec htiles type hname hpos hino
  · -- no block has room
    obtain ⟨h2, hmap2⟩ := h1.quiet_map hq2
    have hmap : dirMap fs₂ dir = dirMap fs dir := hmap2.trans hs.dirMap
    have hroom : NoRoom fs dir (ext2DirRecLen name.length) := by
      intro i hi
      rw [← hq.blockAt, ← hq.page]
      exact hall i hi
    have hrecord : Tiles (ext2DirentInit (fun _ => 0) 0 ⟨ino, blockSize, type, name⟩) 0
        [⟨ino, blockSize, type, name⟩] blockSize := by
      refine ⟨direntAt_init ⟨hino, by change 4096 < 2 ^ 16; omega, hname⟩, ?_, Nat.zero_add _⟩
      exact (ext2DirRecLen_le hname).trans (by change 264 ≤ 4096; omega)
    have happends := h2.append_spec hpos hrecord (by rw [hmap]; exact hnone)
    generalize hrun : appendBlock _ _ fs₂ dir = r at happends
    obtain ⟨ret, fs', dir'⟩ := r
    obtain ⟨hfine, hedit, hcases⟩ := happends
    refine ⟨ret, fs', dir', ?_, hfine, (Edit.of_quiet (hq.trans hq2) dir).trans hedit, ?_⟩
    · rw [ext2AddEntry, hfind]
      dsimp only
      rw [hscan, h.dirBlocks.1]
      exact hrun
    · rw [hmap] at hcases
      rcases hcases with hadded | ⟨e, hret, hsame, fs₃, hq3, hstuck⟩
      · exact .inl hadded
      · exact .inr ⟨e, hret, hsame, hroom, fs₃, (hq.trans hq2).trans hq3, hstuck⟩
  · -- a block has room
    obtain ⟨fs', rest, hstore, hold, hnew, hfine, hedit⟩ := h1.store hq2 hi hne htiles
    rw [hs.dirEntries] at hold
    have hall : (dirEntries fs' dir).Perm ((name, ino, type) :: dirEntries fs dir) :=
      hnew.trans ((hperm.append_right rest).trans (.cons _ hold.symm))
    have hunique := h.unique_insert hnone hall
    refine ⟨.ok (), fs', dir, ?_, hfine hunique, (Edit.of_quiet hq dir).trans (hedit _ hdead),
      .inl ⟨rfl, lookup_insert hunique hall⟩⟩
    rw [ext2AddEntry, hfind]
    dsimp only
    rw [hscan]
    exact hstore

end Map

theorem dirOk_rootDir : DirOk smallVolume rootDir where
  owns := .empty _ (fun _ => rfl) rfl
  noErrors := ⟨fun _ => rfl, fun _ => rfl⟩
  isDir := rfl
  located := by decide
  aligned := rfl
  size_le := by decide
  tiled index hindex := absurd hindex (Nat.not_lt_zero index)
  unique := List.nodup_nil

end Directory

end CuteOS.Fs.Ext2
