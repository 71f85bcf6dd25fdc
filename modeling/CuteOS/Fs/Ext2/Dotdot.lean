/-
  Fs/Ext2/Dotdot.lean --- the records `.` and `..` of an ext2 directory.

  Source: `fs/ext2/dir.c`.

  `ext2_set_dotdot`, `ext2_dir_is_empty` and `ext2_make_empty_dir`, and what they do to
  the map of a directory.  `ext2_set_dotdot` goes by the name alone: it would also use
  a record that is not in use.
-/
import CuteOS.Fs.Ext2.Directory

set_option autoImplicit false

namespace CuteOS.Fs.Ext2.Directory

open Lib Lib.Bytes

/-! ## The functions of `dir.c` -/

/-- The name `.`. -/
def dot : Name := [46]

/-- The name `..`. -/
def dotdot : Name := [46, 46]

/-- `EXT2_FT_DIR`. -/
def ext2FtDir : UInt8 := 2

/-- A round of `ext2_set_dotdot`. -/
def setDotdotAt (ino : Nat) (data : Bytes) (_prev : Option Nat) (offset : Nat) : Option Bytes :=
  if (direntAt data offset).name = dotdot then some (setDeInode data offset ino) else none

/-- The search of `ext2_set_dotdot` in a block. -/
def setDotdotInBlock (ino : Nat) (data : Bytes) : Option Bytes :=
  scanRecords data (setDotdotAt ino data) scanFuel none 0

/-- `ext2_set_dotdot`. -/
def ext2SetDotdot (ino : Nat) : InodeOp Unit := fun fs dir =>
  match scanBlocks false (setDotdotInBlock ino) (List.range (dirBlocks dir)) fs dir with
  | (.error e, fs) => (.error e, fs, dir)
  | (.ok (some (pblock, bytes)), fs) => storeBlock pblock bytes fs dir
  | (.ok none, fs) => (.error .enoent, fs, dir)

/-- A round of `ext2_dir_is_empty`: an entry that counts. -/
def otherAt (data : Bytes) (_prev : Option Nat) (offset : Nat) : Option Unit :=
  let de := direntAt data offset
  if de.inode ≠ 0 ∧ ¬ (de.name = dot ∨ de.name = dotdot) then some () else none

/-- The search of `ext2_dir_is_empty` in a block. -/
def otherInBlock (data : Bytes) : Option Unit := scanRecords data (otherAt data) scanFuel none 0

/-- `ext2_dir_is_empty`. -/
def ext2DirIsEmpty (fs : Volume) (dir : Inode) : Bool × Volume :=
  match scanBlocks false otherInBlock (List.range (dirBlocks dir)) fs dir with
  | (.ok none, fs) => (true, fs)
  | (_, fs) => (false, fs)

/-- The block that `ext2_make_empty_dir` fills. -/
def emptyDirBlock (ino parent : Nat) : Bytes :=
  ext2DirentInit
    (ext2DirentInit (fun _ => 0) 0 ⟨ino, ext2DirRecLen 1, ext2FtDir, dot⟩) (ext2DirRecLen 1)
    ⟨parent, blockSize - ext2DirRecLen 1, ext2FtDir, dotdot⟩

/-! ## `..` -/

section Dotdot

variable {fs fs' : Volume} {dir : Inode} {data : Bytes} {records : List Dirent} {ino : Nat}

theorem setDotdotInBlock_spec (h : Tiles data 0 records blockSize) (ino : Nat) :
    (setDotdotInBlock ino data = none ∧ ∀ de ∈ records, de.name ≠ dotdot) ∨
      ∃ bytes, setDotdotInBlock ino data = some bytes ∧ ∃ a de b mid, records = a ++ de :: b ∧
        Tiles data 0 a mid ∧ de.name = dotdot ∧ bytes = setDeInode data mid ino := by
  rcases scanRecords_cases (setDotdotAt ino data) none h (length_lt_scanFuel h) with
    ⟨hnone, hall⟩ | ⟨a, de, b, mid, before, answer, rfl, ha, hanswer, hscan, -⟩
  · refine .inl ⟨hnone, fun de hde => ?_⟩
    obtain ⟨-, before, mid, rfl, hvisit⟩ := hall de hde
    unfold setDotdotAt at hvisit
    split_ifs at hvisit with hname
    exact hname
  · right
    unfold setDotdotAt at hanswer
    split_ifs at hanswer with hname
    cases hanswer
    rw [(tiles_at h ha).1] at hname
    exact ⟨_, hscan, a, de, b, mid, rfl, ha, hname, rfl⟩

/-- Storing the type that is there changes nothing. -/
theorem setFileType_same (data : Bytes) (offset ino : Nat) :
    setFileType (setDeInode data offset ino) offset (direntAt data offset).fileType =
      setDeInode data offset ino := by
  funext x
  by_cases hx : x = offset + 7
  · subst hx
    have hin := @put_in (setDeInode data offset ino) (offset + 7)
      [(direntAt data offset).fileType] 0 Nat.one_pos
    refine Eq.trans hin (Eq.symm (put_out (.inr ?_)))
    rw [length_toLe]
    omega
  · refine put_out ?_
    rw [List.length_singleton]
    omega

/-- `ext2_set_dotdot` gives `..` another directory, when every record of that name is in
use. -/
theorem DirOk.setDotdot_spec (h : DirOk fs dir) (hdead : ¬ DeadIn fs dir dotdot) (hpos : ino ≠ 0)
    (hino : ino < 2 ^ 32) :
    Rewrites (fun _ => False) dotdot (fun old => some (ino, old.2)) (ext2SetDotdot ino) fs dir := by
  obtain ⟨fs1, hq, ⟨hscan, hall⟩ | ⟨i, hi, bytes, hne, ⟨a, de, b, mid, hsplit, ha, hname, rfl⟩,
    hscan⟩⟩ := h.scanBlocks_cases false fun htiles => setDotdotInBlock_spec htiles ino
  · refine h.rewrites_absent hq (by rw [ext2SetDotdot, hscan])
      (dirMap_eq_none fun i hi hne de hde => ?_)
    rw [← Bool.not_eq_true, ext2Match_iff]
    exact fun hmatch => hall i hi hne de hde hmatch.2
  · have hlive : de.inode ≠ 0 := by
      intro hzero
      refine hdead ⟨i, hi, hne, de, ?_, hzero, hname⟩
      rw [hsplit]
      simp
    have hmatch : ext2Match de dotdot = true := ext2Match_iff.mpr ⟨hlive, hname⟩
    refine h.rewrites_record hq hi hne hsplit ha hmatch hpos hino rfl ?_
    rw [← (h.dirMap_eq hi hne hsplit ha hmatch).1, setFileType_same, ext2SetDotdot, hscan]

/-! ## Empty directories -/

theorem otherInBlock_spec (h : Tiles data 0 records blockSize) :
    (otherInBlock data = none ∧ ∀ de ∈ records, de.inode ≠ 0 → de.name = dot ∨ de.name = dotdot) ∨
      ∃ answer, otherInBlock data = some answer ∧
        ∃ de ∈ records, de.inode ≠ 0 ∧ ¬(de.name = dot ∨ de.name = dotdot) := by
  rcases scanRecords_cases (otherAt data) none h (length_lt_scanFuel h) with
    ⟨hnone, hall⟩ | ⟨a, de, b, mid, before, answer, rfl, ha, hvisit, hscan, -⟩
  · refine .inl ⟨hnone, fun de hde hlive => ?_⟩
    obtain ⟨-, before, mid, rfl, hvisit⟩ := hall de hde
    unfold otherAt at hvisit
    dsimp only at hvisit
    split_ifs at hvisit with hother
    by_contra hnot
    exact hother ⟨hlive, hnot⟩
  · unfold otherAt at hvisit
    dsimp only at hvisit
    split_ifs at hvisit with hother
    rw [(tiles_at h ha).1] at hother
    exact .inr ⟨answer, hscan, de, by simp, hother⟩

/-- When `ext2_dir_is_empty` says so, there are no names but `.` and `..`. -/
theorem DirOk.isEmpty_spec (h : DirOk fs dir) :
    ∃ empty fs', ext2DirIsEmpty fs dir = (empty, fs') ∧ Volume.Quiet fs fs' ∧
      (empty = true → ∀ n, dirMap fs dir n ≠ none → n = dot ∨ n = dotdot) := by
  obtain ⟨fs1, hq, ⟨hscan, hall⟩ | ⟨i, hi, answer, hne, -, hscan⟩⟩ :=
    h.scanBlocks_cases false otherInBlock_spec
  · refine ⟨true, fs1, by rw [ext2DirIsEmpty, hscan], hq, fun _ n hn => ?_⟩
    obtain ⟨value, hvalue⟩ := Option.ne_none_iff_exists'.mp hn
    obtain ⟨i, hi, hne, hmem⟩ := mem_dirEntries.mp ((lookup_eq_some_iff h.unique).mp hvalue)
    obtain ⟨de, hde, hentry⟩ := List.mem_filterMap.mp hmem
    rw [Dirent.entry] at hentry
    split_ifs at hentry with hlive
    cases hentry
    exact hall i hi hne de hde hlive
  · exact ⟨false, fs1, by rw [ext2DirIsEmpty, hscan], hq, fun hfalse => by cases hfalse⟩

end Dotdot

/-! ## Directories in order -/

/-- The records of a directory are in order, and `..` is in use wherever it stands. -/
structure DirShape (fs : Volume) (dir : Inode) : Prop where
  aligned : dir.iSize % blockSize = 0
  size_le : dir.iSize ≤ uint32Modulus
  tiled : ∀ index < dir.iSize / blockSize, fs.blockAt dir index ≠ 0 →
    Tiled (fs.page (fs.blockAt dir index))
  unique : UniqueKeys (dirEntries fs dir)
  dotdotLive : ¬ DeadIn fs dir dotdot

section Shapes

variable {fs fs' : Volume} {dir dir' : Inode}

theorem DirOk.shape (h : DirOk fs dir) (hdead : ¬ DeadIn fs dir dotdot) : DirShape fs dir :=
  ⟨h.aligned, h.size_le, h.tiled, h.unique, hdead⟩

/-- A change that takes away another name than `..` leaves the directory in order. -/
theorem DirShape.edit (h : DirShape fs dir) {gone : Name → Prop}
    (hedit : Edit gone fs dir fs' dir') (hok : DirOk fs' dir') (hgone : ¬ gone dotdot) :
    DirShape fs' dir' :=
  hok.shape fun hdead => (hedit.dead dotdot hdead).elim h.dotdotLive hgone

/-- The blocks of the directory stay as they are. -/
theorem DirShape.same (h : DirShape fs dir) (howns : Owns fs dir)
    (hpage : ∀ b ∈ dir.owned, fs'.page b = fs.page b) (hsize : dir'.iSize = dir.iSize)
    (hiBlock : dir'.iBlock = dir.iBlock) :
    DirShape fs' dir' ∧ dirMap fs' dir' = dirMap fs dir := by
  have hs : SameParts fs dir fs' dir' := ⟨hsize,
    fun index _ => blockAt_congr hiBlock (fun n hn => hpage n (howns.inner_mem hn)) index,
    fun index _ hne => hpage _ (howns.leaf_mem (blockAt_mem_leaves hne))⟩
  exact ⟨⟨hsize ▸ h.aligned, hsize ▸ h.size_le, hs.tiled h.tiled, hs.dirEntries ▸ h.unique,
    fun hdead => h.dotdotLive (hs.dead hdead)⟩, hs.dirMap⟩

theorem dirEntries_of_zero (hsize : dir.iSize = 0) : dirEntries fs dir = [] := by
  rw [dirEntries, hsize]
  rfl

/-- A directory without blocks. -/
theorem DirShape.of_zero (hsize : dir.iSize = 0) : DirShape fs dir := by
  have hnone : ∀ index, ¬ index < dir.iSize / blockSize := by
    intro index
    rw [hsize]
    exact Nat.not_lt_zero index
  refine ⟨by rw [hsize]; rfl, by rw [hsize]; exact Nat.zero_le _, fun index hindex =>
    absurd hindex (hnone index), ?_, ?_⟩
  · rw [dirEntries_of_zero hsize]
    exact List.nodup_nil
  · rintro ⟨index, hindex, -⟩
    exact hnone index hindex

theorem tiles_emptyDirBlock {ino parent : Nat} (hino : ino < 2 ^ 32) (hparent : parent < 2 ^ 32) :
    Tiles (emptyDirBlock ino parent) 0 [⟨ino, ext2DirRecLen 1, ext2FtDir, dot⟩,
        ⟨parent, blockSize - ext2DirRecLen 1, ext2FtDir, dotdot⟩] blockSize := by
  have hlen : ext2DirRecLen 1 = 12 := rfl
  have hbs : blockSize = 4096 := rfl
  have hfirst : Dirent.Fits ⟨ino, ext2DirRecLen 1, ext2FtDir, dot⟩ := by
    refine ⟨hino, ?_, ?_⟩
    · change ext2DirRecLen 1 < 2 ^ 16
      omega
    · change dot.length < 256
      decide
  have hsecond : Dirent.Fits ⟨parent, blockSize - ext2DirRecLen 1, ext2FtDir, dotdot⟩ := by
    refine ⟨hparent, ?_, ?_⟩
    · change blockSize - ext2DirRecLen 1 < 2 ^ 16
      omega
    · change dotdot.length < 256
      decide
  refine ⟨?_, le_rfl, ?_, ?_, ?_⟩
  · have hinit := @direntAt_init (fun _ => 0) 0 _ hfirst
    refine Eq.trans (direntAt_congr fun x _ hhigh => put_out (.inl ?_)) hinit
    change x < 0 + 8 + dot.length at hhigh
    rw [show dot.length = 1 from rfl] at hhigh
    omega
  · exact direntAt_init hsecond
  · change ext2DirRecLen dotdot.length ≤ blockSize - ext2DirRecLen 1
    rw [show ext2DirRecLen dotdot.length = 12 from rfl]
    omega
  · change 0 + ext2DirRecLen 1 + (blockSize - ext2DirRecLen 1) = blockSize
    omega

/-- The map of a new directory. -/
def emptyDirMap (ino parent : Nat) : Name → Option (Nat × UInt8) := fun n =>
  if n = dot then some (ino, ext2FtDir) else if n = dotdot then some (parent, ext2FtDir) else none

/-- A directory of one block, filled by `ext2_make_empty_dir`. -/
theorem emptyDir_shape {ino parent : Nat} (hpos : ino ≠ 0) (hino : ino < 2 ^ 32)
    (hparentPos : parent ≠ 0) (hparent : parent < 2 ^ 32) (hsize : dir.iSize = blockSize)
    (hne : fs.blockAt dir 0 ≠ 0) (hpage : fs.page (fs.blockAt dir 0) = emptyDirBlock ino parent) :
    DirShape fs dir ∧ dirMap fs dir = emptyDirMap ino parent := by
  obtain ⟨htiled, hrecords⟩ := (tiles_emptyDirBlock hino hparent).blockRecords
  have hcount : dir.iSize / blockSize = 1 := by rw [hsize]; rfl
  have hentries : dirEntries fs dir = [(dot, ino, ext2FtDir), (dotdot, parent, ext2FtDir)] := by
    rw [dirEntries, hcount]
    change partEntries fs dir 0 ++ [] = _
    rw [List.append_nil, partEntries, if_neg hne, hpage, hrecords, entries_cons, entries_cons,
      entry_live hpos, entry_live hparentPos]
    rfl
  refine ⟨⟨by rw [hsize]; rfl, by rw [hsize]; decide, ?_, ?_, ?_⟩, ?_⟩
  · intro index hindex _
    rw [hcount, Nat.lt_one_iff] at hindex
    rw [hindex, hpage]
    exact htiled
  · rw [hentries]
    exact (by decide : [dot, dotdot].Nodup)
  · rintro ⟨index, hindex, -, de, hde, hzero, -⟩
    rw [hcount, Nat.lt_one_iff] at hindex
    rw [hindex, hpage, hrecords] at hde
    rcases List.mem_cons.mp hde with rfl | hde
    · exact hpos hzero
    · rw [List.mem_singleton.mp hde] at hzero
      exact hparentPos hzero
  · funext n
    rw [dirMap, hentries, emptyDirMap]
    by_cases hdot : n = dot
    · rw [hdot, lookup_cons_self, if_pos rfl]
    · rw [lookup_cons_ne hdot, if_neg hdot]
      by_cases hdotdot : n = dotdot
      · rw [hdotdot, lookup_cons_self, if_pos rfl]
      · rw [lookup_cons_ne hdotdot, if_neg hdotdot]
        rfl

/-- `ext2_make_empty_dir` on a directory without blocks. -/
theorem makeEmptyDir_spec (howns : Owns fs dir) (hio : fs.PagesAvailable) (hdir : dir.iType = .dir)
    (hsize : dir.iSize = 0) {ino parent : Nat} (hpos : ino ≠ 0) (hino : ino < 2 ^ 32)
    (hparentPos : parent ≠ 0) (hparent : parent < 2 ^ 32) {ret : Except Errno Unit}
    (hrun : ext2MakeEmptyDir (emptyDirBlock ino parent) fs dir = (ret, fs', dir')) :
    dir'.iNlink = dir.iNlink ∧ DirShape fs' dir' ∧
      (ret = .ok () → dirMap fs' dir' = emptyDirMap ino parent) := by
  have hdev := (Inode.holdsPointers_of_dir hdir).2
  rw [ext2MakeEmptyDir, ext2NewBlock] at hrun
  generalize hbmap : ext2Bmap fs dir 0 true = r at hrun
  obtain ⟨ret1, fs1, dir1⟩ := r
  obtain ⟨hmaps, hblock⟩ := ext2Bmap_maps howns hio hdev hbmap
  have hsize1 : dir1.iSize = 0 := hmaps.iSize.trans hsize
  -- as long as the size is zero there are no records
  have hfail : ∀ e fs2, (.error e, fs2, dir1) = (ret, fs', dir') →
      dir'.iNlink = dir.iNlink ∧ DirShape fs' dir' ∧
        (ret = .ok () → dirMap fs' dir' = emptyDirMap ino parent) := by
    intro e fs2 heq
    cases heq
    exact ⟨hmaps.iNlink, .of_zero hsize1, fun hret => by cases hret⟩
  cases ret1 with
  | error e => exact hfail e fs1 hrun
  | ok block =>
    cases block with
    | zero => exact hfail .enospc fs1 hrun
    | succ block =>
      dsimp only [Volume.kmalloc, storePage, Volume.pageCacheSyncPage] at hrun
      cases hmem : fs1.io.memOk fs1.io.tick with
      | false =>
        rw [hmem] at hrun
        exact hfail .eio _ hrun
      | true =>
        rw [hmem] at hrun
        dsimp only at hrun
        generalize hsync : (fs1.nextTick.setPage (block + 1)
          (emptyDirBlock ino parent)).io.syncOk _ = ok at hrun
        cases ok with
        | false => exact hfail .eio _ hrun
        | true =>
          dsimp only at hrun
          have hleaf := mem_leaves_of_blockAt (hblock _ rfl) (Nat.succ_ne_zero block)
          have hat := hmaps.owns.blockAt_setPage hleaf (emptyDirBlock ino parent) 0
          rw [hblock _ rfl] at hat
          have hself : (fs1.setPage (block + 1) (emptyDirBlock ino parent)).page (block + 1) =
              emptyDirBlock ino parent := Function.update_self ..
          have hdev1 : dir1.isDevice = false :=
            (Inode.holdsPointers_of_dir (hmaps.iType.trans hdir)).2
          obtain ⟨wret, fs2, hwrite, hquiet⟩ := ext2WriteInode_spec
            (fs1.nextTick.setPage (block + 1) (emptyDirBlock ino parent)).nextTick
            { dir1 with iSize := blockSize } hdev1
          cases hwrite.symm.trans hrun
          have hpage : fs'.page =
              (fs1.setPage (block + 1) (emptyDirBlock ino parent)).page := hquiet.page
          have hat' : fs'.blockAt { dir1 with iSize := blockSize } 0 = block + 1 :=
            (blockAt_congr rfl (fun n _ => congrFun hpage n) 0).trans hat
          obtain ⟨hshape, hmap⟩ := @emptyDir_shape fs' { dir1 with iSize := blockSize }
            ino parent hpos hino hparentPos hparent rfl
            (by rw [hat']; exact Nat.succ_ne_zero block)
            (by rw [hat', hpage, hself])
          exact ⟨hmaps.iNlink, hshape, fun _ => hmap⟩

end Shapes

end CuteOS.Fs.Ext2.Directory
