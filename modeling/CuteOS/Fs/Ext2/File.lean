/-
  Fs/Ext2/File.lean --- the bytes of an ext2 regular file.

  Sources: `fs/ext2/file.c`, `ext2_fallocate_inode` of `fs/ext2/inode.c`.

  `Holds fs inode f` says that the inode has the size and the bytes of the byte array
  `f`.  The results say, for a volume without I/O errors, what each call makes of the
  array.  A call that finds no free block is part of that.
-/
import CuteOS.Fs.Ext2.Truncate
import CuteOS.Lib.ByteFile

set_option autoImplicit false

namespace CuteOS.Fs.Ext2

open Lib (ByteFile)

/-! ## The code -/

/-- The loop of `ext2_read_file`; `buf` is what has been copied so far.  Every round
copies a byte, so `count` rounds are enough. -/
def ext2ReadLoop (count pos : Nat) :
    Nat → List UInt8 → Volume → Inode → Except Errno (List UInt8) × Volume
  | 0, buf, fs, _ => (.ok buf, fs)
  | fuel + 1, buf, fs, inode =>
    if buf.length < count then
      let offset := (pos + buf.length) % blockSize
      let chunk :=
        if blockSize - offset > count - buf.length then count - buf.length
        else blockSize - offset
      match pageCacheReadMapping fs inode ((pos + buf.length) / blockSize) with
      | (.error .enodata, fs) =>
        ext2ReadLoop count pos fuel (buf ++ List.replicate chunk 0) fs inode
      | (.error _, fs) => (if buf.length ≠ 0 then .ok buf else .error .eio, fs)
      | (.ok pblock, fs) =>
        ext2ReadLoop count pos fuel
          (buf ++ (List.range chunk).map fun i => fs.page pblock (offset + i)) fs inode
    else (.ok buf, fs)

/-- `ext2_read_file` through `ext2_file_read`. -/
def ext2ReadFile (count pos : Nat) (fs : Volume) (inode : Inode) :
    Except Errno (List UInt8) × Volume :=
  let readable := if inode.iSize > ext2MaxFileSize then ext2MaxFileSize else inode.iSize
  if inode.isFile = false then (.error .einval, fs)
  else if pos ≥ readable then (.ok [], fs)
  else
    let count := if count > readable - pos then readable - pos else count
    ext2ReadLoop count pos (count + 1) [] fs inode

/-- The loop of `ext2_fallocate_inode` over the parts of the file. -/
def ext2MapBlocks : List Nat → InodeOp Unit
  | [], fs, inode => (.ok (), fs, inode)
  | block :: rest, fs, inode =>
    match ext2Bmap fs inode block true with
    | (.error e, fs, inode) => (.error e, fs, inode)
    | (.ok 0, fs, inode) => (.error .enospc, fs, inode)
    | (.ok (_ + 1), fs, inode) => ext2MapBlocks rest fs inode

/-- The parts that the bytes `pos .. pos + count - 1` are in. -/
def partsOf (count pos : Nat) : List Nat :=
  List.range' (pos / blockSize) ((pos + count - 1) / blockSize + 1 - pos / blockSize)

/-- `ext2_fallocate_inode`. -/
def ext2FallocateInode (mode offset len : Nat) : InodeOp Unit := fun fs inode =>
  if mode ≠ 0 then (.error .einval, fs, inode)
  else if len = 0 ∨ offset > ext2MaxFileSize ∨ len > ext2MaxFileSize - offset then
    (.error .efbig, fs, inode)
  else
    match ext2MapBlocks (partsOf len offset) fs inode with
    | (.error e, fs, inode) => (.error e, fs, inode)
    | (.ok (), fs, inode) =>
      if offset + len > inode.iSize then
        match ext2ZeroExtendTail inode.iSize fs inode with
        | (.error e, fs) => (.error e, fs, inode)
        | (.ok (), fs) => ext2WriteInode fs { inode with iSize := offset + len }
      else ext2WriteInode fs inode

/-! ## Bytes -/

/-- The byte at position `pos`; a hole reads as zeros. -/
def Volume.fileByte (fs : Volume) (inode : Inode) (pos : Nat) : UInt8 :=
  if fs.blockAt inode (pos / blockSize) = 0 then 0
  else fs.page (fs.blockAt inode (pos / blockSize)) (pos % blockSize)

/-- A regular file in use on a volume without I/O errors. -/
structure FileOk (fs : Volume) (inode : Inode) : Prop where
  owns : Owns fs inode
  noErrors : fs.NoErrors
  isFile : inode.isFile = true
  located : ext2InodeLocation fs inode.ino = .ok ()
  size_le : inode.iSize ≤ ext2MaxFileSize

section Bytes

variable {fs fs' : Volume} {inode inode' : Inode} {index : Nat}

theorem FileOk.notDevice (h : FileOk fs inode) : inode.isDevice = false := by
  have hfile := h.isFile
  cases htype : inode.iType <;> simp [Inode.isFile, Inode.isDevice, htype] at hfile ⊢

theorem located_congr (hsb : fs'.sb = fs.sb) {ino : Nat}
    (hlocated : ext2InodeLocation fs ino = .ok ()) : ext2InodeLocation fs' ino = .ok () := by
  rw [ext2InodeLocation] at hlocated ⊢
  rwa [hsb]

theorem FileOk.step (h : FileOk fs inode) (howns : Owns fs' inode') (hsb : fs'.sb = fs.sb)
    (hanswers : fs'.io.answers = fs.io.answers) (hino : inode'.ino = inode.ino)
    (hiType : inode'.iType = inode.iType) (hsize : inode'.iSize ≤ ext2MaxFileSize) :
    FileOk fs' inode' where
  owns := howns
  noErrors := h.noErrors.of_answers hanswers
  isFile := by
    rw [Inode.isFile, hiType]
    exact h.isFile
  located := hino ▸ located_congr hsb h.located
  size_le := hsize

theorem FileOk.quiet (h : FileOk fs inode) (hq : Volume.Quiet fs fs') : FileOk fs' inode :=
  h.step (h.owns.quiet hq) hq.sb hq.answers rfl rfl h.size_le

variable {size count pos done chunk : Nat}

theorem FileOk.withSize (h : FileOk fs inode) (hsize : size ≤ ext2MaxFileSize) (iBlocks : Nat) :
    FileOk fs { inode with iSize := size, iBlocks := iBlocks } :=
  h.step (h.owns.congr rfl rfl (fun _ _ => rfl) h.owns.used) rfl rfl rfl rfl hsize

theorem fileByte_quiet (hq : Volume.Quiet fs fs') (inode : Inode) (pos : Nat) :
    fs'.fileByte inode pos = fs.fileByte inode pos := by
  rw [Volume.fileByte, Volume.fileByte, hq.blockAt, hq.page]

theorem ext2WriteInode_ret (hno : fs.NoErrors)
    (hlocated : ext2InodeLocation fs inode.ino = .ok ()) : (ext2WriteInode fs inode).1 = .ok () := by
  have hsync : (syncMetadataCopy fs).1 = .ok () := by
    rw [syncMetadataCopy, Volume.pageCacheGetBlock, hno.pages]
    dsimp only [Volume.pageCacheSyncPage]
    rw [(hno.of_answers rfl : fs.nextTick.NoErrors).syncs]
  have hino : (if inode.isDevice then
      { inode with iBlock := Function.update inode.iBlock 0 (ext2EncodeDev inode.iRdev) }
      else inode).ino = inode.ino := by
    split_ifs <;> rfl
  unfold ext2WriteInode
  dsimp only
  rw [hino, hlocated]
  exact hsync

/-- Writing an inode succeeds and changes nothing. -/
theorem ext2WriteInode_ok (hno : fs.NoErrors) (hdev : inode.isDevice = false)
    (hlocated : ext2InodeLocation fs inode.ino = .ok ()) :
    ∃ fs', ext2WriteInode fs inode = (.ok (), fs', inode) ∧ Volume.Quiet fs fs' := by
  refine ⟨(ext2WriteInode fs inode).2.1, ?_, quiet_ext2WriteInode fs inode⟩
  rw [← ext2WriteInode_ret hno hlocated]
  exact Prod.ext rfl (Prod.ext rfl (ext2WriteInode_inode fs inode hdev))

theorem FileOk.write (h : FileOk fs inode) :
    ∃ fs', ext2WriteInode fs inode = (.ok (), fs', inode) ∧ Volume.Quiet fs fs' :=
  ext2WriteInode_ok h.noErrors h.notDevice h.located

theorem FileOk.maps (h : FileOk fs inode) (hmaps : Maps index fs inode fs' inode') :
    FileOk fs' inode' :=
  h.step hmaps.owns hmaps.sb hmaps.answers hmaps.ino hmaps.iType (hmaps.iSize ▸ h.size_le)

/-- Mapping a part changes no byte. -/
theorem Maps.fileByte (h : Maps index fs inode fs' inode') (pos : Nat) :
    fs'.fileByte inode' pos = fs.fileByte inode pos := by
  have hsame : fs'.blockAt inode' (pos / blockSize) = fs.blockAt inode (pos / blockSize) →
      fs'.fileByte inode' pos = fs.fileByte inode pos := by
    intro heq
    rw [Volume.fileByte, Volume.fileByte, heq]
    split_ifs with hzero
    · rfl
    · rw [h.data _ hzero]
  by_cases hindex : pos / blockSize = index
  · rcases h.here with heq | ⟨hhole, -, hfresh⟩
    · exact hsame (hindex ▸ heq)
    · rw [Volume.fileByte, Volume.fileByte, hindex, hfresh]
      split_ifs <;> rfl
  · exact hsame (h.other _ hindex)

/-- Storing bytes in the block of a part. -/
theorem FileOk.setPage (h : FileOk fs inode) (hblock : fs.blockAt inode index ≠ 0)
    (bytes : Nat → UInt8) :
    FileOk (fs.setPage (fs.blockAt inode index) bytes) inode ∧
      ∀ pos, (fs.setPage (fs.blockAt inode index) bytes).fileByte inode pos =
        if pos / blockSize = index then bytes (pos % blockSize) else fs.fileByte inode pos := by
  have hleaf := blockAt_mem_leaves hblock
  obtain ⟨howns, htouch⟩ := h.owns.setPage_leaf hleaf bytes
  refine ⟨h.step howns htouch.sb htouch.answers rfl rfl h.size_le, fun pos => ?_⟩
  rw [Volume.fileByte, Volume.fileByte, h.owns.blockAt_setPage hleaf]
  by_cases hindex : pos / blockSize = index
  · rw [if_pos hindex, hindex, if_neg hblock]
    exact congrFun (Function.update_self ..) _
  · split_ifs with hzero
    · rfl
    · have hne : fs.blockAt inode (pos / blockSize) ≠ fs.blockAt inode index :=
        fun heq => hindex (blockAt_inj h.owns hzero heq)
      exact congrFun (Function.update_of_ne hne ..) _

/-! ## Writing -/

/-- `page_cache_get_mapping` for writing gives the part its block and changes no
byte. -/
theorem pageCacheGetMapping_spec (h : FileOk fs inode) {ret : Except Errno Nat}
    (hrun : pageCacheGetMapping index fs inode = (ret, fs', inode')) :
    FileOk fs' inode' ∧ inode'.iSize = inode.iSize ∧
      (∀ pos, fs'.fileByte inode' pos = fs.fileByte inode pos) ∧
      ∀ b, ret = .ok b → b ≠ 0 ∧ fs'.blockAt inode' index = b := by
  rcases pageCacheGetMapping_cases h.owns h.noErrors.pages h.notDevice hrun with
    ⟨⟨e, rfl⟩, rfl, rfl⟩ | ⟨fs1, hmaps, hquiet, hblock⟩
  · exact ⟨h, rfl, fun _ => rfl, fun b hb => by cases hb⟩
  refine ⟨(h.maps hmaps).quiet hquiet, hmaps.iSize, fun pos => ?_, hblock⟩
  rw [fileByte_quiet hquiet, hmaps.fileByte]

/-- A round of the loops moves bytes up to the end of the block or of the range. -/
theorem chunk_fits (hmore : done < count)
    (hchunk : (if blockSize - (pos + done) % blockSize > count - done then count - done
      else blockSize - (pos + done) % blockSize) = chunk) :
    0 < chunk ∧ done + chunk ≤ count ∧ (pos + done) % blockSize + chunk ≤ blockSize := by
  have hoff : (pos + done) % blockSize < blockSize := Nat.mod_lt _ (by decide)
  rw [← hchunk]
  split_ifs <;> omega

theorem not_beyond_maxFileIndex (hmore : done < count) (hmax : pos + count ≤ ext2MaxFileSize) :
    ¬ (pos + done) / blockSize > ext2MaxFileIndex := by
  have hle : (pos + done) / blockSize ≤ (ext2MaxFileSize - 1) / blockSize :=
    Nat.div_le_div_right (by omega)
  rw [ext2MaxFileIndex]
  omega

/-- The bytes after one round of the loop of `ext2_write_file`. -/
theorem storeChunk_spec (h : FileOk fs inode) (buf : Nat → UInt8)
    (hblock : fs.blockAt inode ((pos + done) / blockSize) ≠ 0)
    (hfit : (pos + done) % blockSize + chunk ≤ blockSize) :
    FileOk (fs.setPage (fs.blockAt inode ((pos + done) / blockSize)) fun off =>
        if (pos + done) % blockSize ≤ off ∧ off < (pos + done) % blockSize + chunk then
          buf (done + (off - (pos + done) % blockSize))
        else fs.page (fs.blockAt inode ((pos + done) / blockSize)) off) inode ∧
      ∀ p, (fs.setPage (fs.blockAt inode ((pos + done) / blockSize)) fun off =>
        if (pos + done) % blockSize ≤ off ∧ off < (pos + done) % blockSize + chunk then
          buf (done + (off - (pos + done) % blockSize))
        else fs.page (fs.blockAt inode ((pos + done) / blockSize)) off).fileByte inode p =
        if pos + done ≤ p ∧ p < pos + (done + chunk) then buf (p - pos)
        else fs.fileByte inode p := by
  obtain ⟨hok, hbytes⟩ := h.setPage hblock fun off =>
    if (pos + done) % blockSize ≤ off ∧ off < (pos + done) % blockSize + chunk then
      buf (done + (off - (pos + done) % blockSize))
    else fs.page (fs.blockAt inode ((pos + done) / blockSize)) off
  refine ⟨hok, fun p => ?_⟩
  rw [hbytes]
  have hdiv := Nat.div_add_mod (pos + done) blockSize
  have hp := Nat.div_add_mod p blockSize
  by_cases hindex : p / blockSize = (pos + done) / blockSize
  · rw [if_pos hindex]
    rw [hindex] at hp
    by_cases hin : pos + done ≤ p ∧ p < pos + (done + chunk)
    · rw [if_pos hin, if_pos (by omega)]
      congr 1
      omega
    · rw [if_neg hin, if_neg (by omega), Volume.fileByte, hindex, if_neg hblock]
  · rw [if_neg hindex, if_neg]
    rintro ⟨hge, hend⟩
    apply hindex
    have hsplit : p = blockSize * ((pos + done) / blockSize) +
        ((pos + done) % blockSize + (p - (pos + done))) := by omega
    have hsmall : (pos + done) % blockSize + (p - (pos + done)) < blockSize := by omega
    rw [hsplit, Nat.mul_add_div (by decide), Nat.div_eq_of_lt hsmall, Nat.add_zero]

/-- What `ext2_write_file` has done when it returns, from a state in which `done` bytes
were written. -/
def WriteResult (buf : Nat → UInt8) (count pos done : Nat) (fs : Volume) (inode : Inode) :
    Except Errno Nat × Volume × Inode → Prop
  | (.ok n, fs', inode') =>
    FileOk fs' inode' ∧ done ≤ n ∧ n ≤ count ∧
      (∀ p, fs'.fileByte inode' p =
        if pos + done ≤ p ∧ p < pos + n then buf (p - pos) else fs.fileByte inode p) ∧
      inode'.iSize = if n = count then max inode.iSize (pos + n) else inode.iSize
  | (.error _, fs', inode') =>
    FileOk fs' inode' ∧ done = 0 ∧ (∀ p, fs'.fileByte inode' p = fs.fileByte inode p) ∧
      inode'.iSize = inode.iSize

theorem ext2WriteLoop_result (buf : Nat → UInt8) (fuel : Nat) (h : FileOk fs inode)
    (hdone : done ≤ count) (hfuel : count - done < fuel) (hmax : pos + count ≤ ext2MaxFileSize) :
    WriteResult buf count pos done fs inode (ext2WriteLoop buf count pos fuel done fs inode) := by
  induction fuel generalizing done fs inode with
  | zero => omega
  | succ fuel ih =>
    rw [ext2WriteLoop]
    by_cases hmore : done < count
    · rw [if_pos hmore]
      generalize hget : pageCacheGetMapping ((pos + done) / blockSize) fs inode = r
      obtain ⟨ret, fs1, inode1⟩ := r
      obtain ⟨hok, hsize, hbytes, hret⟩ := pageCacheGetMapping_spec h hget
      cases ret with
      | error e =>
        dsimp only
        by_cases hzero : done = 0
        · rw [if_neg (not_not.mpr hzero)]
          exact ⟨hok, hzero, hbytes, hsize⟩
        · rw [if_pos hzero]
          refine ⟨hok, le_rfl, hdone, fun p => ?_, ?_⟩
          · rw [if_neg (by omega), hbytes]
          · rw [if_neg (by omega), hsize]
      | ok pblock =>
        dsimp only
        obtain ⟨hpblock, hblock⟩ := hret pblock rfl
        rw [← hblock] at hpblock ⊢
        generalize hchunk : (if _ > count - done then count - done else _) = chunk
        have hle := chunk_fits hmore hchunk
        obtain ⟨hok2, hround⟩ := storeChunk_spec hok buf hpblock hle.2.2
        have hrest := ih hok2 hle.2.1 (by omega)
        generalize ext2WriteLoop buf count pos fuel (done + chunk) _ inode1 = r at hrest ⊢
        obtain ⟨ret, fs', inode'⟩ := r
        cases ret with
        | error e =>
          obtain ⟨-, hzero, -⟩ := hrest
          omega
        | ok n =>
          obtain ⟨hok', hdone', hn, hbytes', hsize'⟩ := hrest
          refine ⟨hok', by omega, hn, fun p => ?_, by rw [hsize', hsize]⟩
          rw [hbytes', hround, hbytes]
          split_ifs <;> first | rfl | omega
    · rw [if_neg hmore]
      obtain rfl : done = count := by omega
      by_cases hgrow : pos + done > inode.iSize
      · rw [if_pos hgrow]
        have hok : FileOk fs { inode with iSize := pos + done } := h.withSize hmax inode.iBlocks
        obtain ⟨fs', hwrite, hq⟩ := hok.write
        rw [hwrite]
        refine ⟨hok.quiet hq, le_rfl, le_rfl, fun p => ?_, ?_⟩
        · rw [if_neg (by omega), fileByte_quiet hq]
          rfl
        · rw [if_pos rfl, max_eq_right (by omega)]
      · rw [if_neg hgrow]
        refine ⟨h, le_rfl, le_rfl, fun p => ?_, ?_⟩
        · rw [if_neg (by omega)]
        · rw [if_pos rfl, max_eq_left (by omega)]

/-! ## Reading -/

/-- The bytes from `pos` on. -/
def Volume.fileBytes (fs : Volume) (inode : Inode) (pos n : Nat) : List UInt8 :=
  (List.range n).map fun i => fs.fileByte inode (pos + i)

open Volume (Quiet fileByte fileBytes)

theorem length_fileBytes (fs : Volume) (inode : Inode) (pos n : Nat) :
    (fs.fileBytes inode pos n).length = n := by
  rw [fileBytes, List.length_map, List.length_range]

theorem fileBytes_quiet (hq : Quiet fs fs') (inode : Inode) (pos n : Nat) :
    fs'.fileBytes inode pos n = fs.fileBytes inode pos n :=
  List.map_congr_left fun i _ => fileByte_quiet hq inode (pos + i)

/-- The bytes that follow `done` bytes, as far as they are in one block. -/
theorem fileBytes_append (fs : Volume) (inode : Inode)
    (hfit : (pos + done) % blockSize + chunk ≤ blockSize) :
    fs.fileBytes inode pos (done + chunk) = fs.fileBytes inode pos done ++
      (List.range chunk).map fun i =>
        if fs.blockAt inode ((pos + done) / blockSize) = 0 then 0
        else fs.page (fs.blockAt inode ((pos + done) / blockSize))
          ((pos + done) % blockSize + i) := by
  rw [fileBytes, List.range_add, List.map_append, List.map_map]
  congr 1
  apply List.map_congr_left
  intro i hi
  have hi := List.mem_range.mp hi
  have hsplit : pos + (done + i) = blockSize * ((pos + done) / blockSize) +
      ((pos + done) % blockSize + i) := by
    have hdiv := Nat.div_add_mod (pos + done) blockSize
    omega
  have hlt : (pos + done) % blockSize + i < blockSize := by omega
  rw [Function.comp_apply, hsplit, fileByte, Nat.mul_add_div (by decide),
    Nat.mul_add_mod, Nat.div_eq_of_lt hlt, Nat.mod_eq_of_lt hlt, Nat.add_zero]

theorem ext2ReadLoop_spec (fuel done : Nat) (h : FileOk fs inode) (hdone : done ≤ count)
    (hfuel : count - done < fuel) (hmax : pos + count ≤ ext2MaxFileSize) :
    (ext2ReadLoop count pos fuel (fs.fileBytes inode pos done) fs inode).1 =
        .ok (fs.fileBytes inode pos count) ∧
      Quiet fs (ext2ReadLoop count pos fuel (fs.fileBytes inode pos done) fs inode).2 := by
  induction fuel generalizing done fs with
  | zero => omega
  | succ fuel ih =>
    rw [ext2ReadLoop, length_fileBytes]
    by_cases hmore : done < count
    · rw [if_pos hmore]
      dsimp only
      generalize hchunk : (if _ > count - done then count - done else _) = chunk
      have hle := chunk_fits hmore hchunk
      obtain ⟨hquiet, hret⟩ :=
        pageCacheReadMapping_spec h.noErrors.pages inode ((pos + done) / blockSize)
      rw [if_neg (not_beyond_maxFileIndex hmore hmax)] at hret
      generalize pageCacheReadMapping fs inode ((pos + done) / blockSize) = r at hquiet hret ⊢
      obtain ⟨ret, fs1⟩ := r
      have happend := fileBytes_append fs inode hle.2.2
      have hbytes := fileBytes_quiet hquiet inode pos
      have hrest := ih (done + chunk) (h.quiet hquiet) hle.2.1 (by omega)
      rw [hbytes, hbytes, happend] at hrest
      by_cases hzero : fs.blockAt inode ((pos + done) / blockSize) = 0
      · rw [if_pos hzero] at hret
        subst hret
        simp only [hzero, if_true, List.map_const', List.length_range] at hrest
        exact ⟨hrest.1, hquiet.trans hrest.2⟩
      · rw [if_neg hzero] at hret
        subst hret
        simp only [hzero] at hrest
        dsimp only
        rw [hquiet.page]
        exact ⟨hrest.1, hquiet.trans hrest.2⟩
    · rw [if_neg hmore]
      obtain rfl : done = count := by omega
      exact ⟨rfl, .refl fs⟩

section

variable (h : FileOk fs inode)
include h

/-- `ext2_read_file` returns the bytes of the file and changes nothing. -/
theorem ext2ReadFile_spec (count pos : Nat) : (ext2ReadFile count pos fs inode).1 =
        .ok (fs.fileBytes inode pos (min count (inode.iSize - pos))) ∧
      Quiet fs (ext2ReadFile count pos fs inode).2 := by
  have hsize := h.size_le
  unfold ext2ReadFile
  rw [if_neg (by omega : ¬ inode.iSize > ext2MaxFileSize), h.isFile, if_neg (by decide)]
  split_ifs with hend hclip
  · have hnone : min count (inode.iSize - pos) = 0 := by omega
    rw [hnone]
    exact ⟨rfl, .refl fs⟩
  · have hclip : min count (inode.iSize - pos) = inode.iSize - pos := by omega
    rw [hclip]
    exact ext2ReadLoop_spec _ 0 h (Nat.zero_le _) (by omega) (by omega)
  · have hall : min count (inode.iSize - pos) = count := by omega
    rw [hall]
    exact ext2ReadLoop_spec _ 0 h (Nat.zero_le _) (by omega) (by omega)

/-! ## Shrinking and extending -/

/-- Zeroing the part behind `size` clears the bytes of that block from `size` on. -/
theorem TailZeroed.spec (htail : TailZeroed size fs inode fs') :
    FileOk fs' inode ∧ ∀ p, fs'.fileByte inode p =
      if size ≤ p ∧ p / blockSize = size / blockSize ∧ size % blockSize ≠ 0 then 0
      else fs.fileByte inode p := by
  rcases htail with ⟨hquiet, hnone⟩ | ⟨hblock, halign, hquiet⟩
  · refine ⟨h.quiet hquiet, fun p => ?_⟩
    rw [fileByte_quiet hquiet]
    split_ifs with hp
    · rw [fileByte, hp.2.1, if_pos (hnone.resolve_left hp.2.2)]
    · rfl
  · obtain ⟨hok, hbytes⟩ := h.setPage hblock
      (zeroFrom (size % blockSize) (fs.page (fs.blockAt inode (size / blockSize))))
    refine ⟨hok.quiet hquiet, fun p => ?_⟩
    rw [fileByte_quiet hquiet, hbytes]
    have hp := Nat.div_add_mod p blockSize
    have hs := Nat.div_add_mod size blockSize
    have hlt : p % blockSize < blockSize := Nat.mod_lt _ (by decide)
    by_cases hindex : p / blockSize = size / blockSize
    · rw [if_pos hindex, zeroFrom]
      rw [hindex] at hp
      by_cases hbehind : size ≤ p
      · rw [if_pos (by omega), if_pos ⟨hbehind, hindex, halign⟩]
      · rw [if_neg (by omega), if_neg fun hc => hbehind hc.1, fileByte, hindex, if_neg hblock]
    · rw [if_neg hindex, if_neg fun hc => hindex hc.2.1]

/-- Cutting the trees of the inode behind part `keep`. -/
theorem Shrinks.spec {keep : Nat} (hshrinks : Shrinks keep fs inode (.ok ()) fs' inode')
    (hino : inode'.ino = inode.ino) (hiType : inode'.iType = inode.iType)
    (hsize : inode'.iSize ≤ ext2MaxFileSize) :
    FileOk fs' inode' ∧ ∀ p, fs'.fileByte inode' p =
      if p / blockSize < keep then fs.fileByte inode p else 0 := by
  refine ⟨h.step hshrinks.owns hshrinks.sb hshrinks.answers hino hiType hsize, fun p => ?_⟩
  obtain ⟨hleaf, hgone⟩ := hshrinks.part (p / blockSize)
  rw [fileByte]
  split_ifs with hzero hin hin
  · -- a hole among the kept parts was one before
    have hold : fs.blockAt inode (p / blockSize) = 0 := by
      rcases hleaf with heq | ⟨-, hbeyond⟩
      · rw [← heq, hzero]
      · omega
    rw [fileByte, if_pos hold]
  · rfl
  · have hsame := hleaf.resolve_right fun hc => hzero hc.1
    rw [hsame] at hzero ⊢
    have hnotInner := Lib.PtrTree.not_mem_rootInner_of_leaf h.owns.nodup_inodeBlocks
      (blockAt_mem_leaves hzero)
    rw [fileByte, if_neg hzero, hshrinks.page _ hnotInner]
  · exact absurd (hgone rfl (by omega)) hzero

/-- The end of `ext2_truncate_inode` stores the size. -/
theorem setSizeAndWrite_spec (hsize : size ≤ ext2MaxFileSize) :
    ∃ fs' iBlocks, setSizeAndWrite size fs inode =
        (.ok (), fs', { inode with iSize := size, iBlocks := iBlocks }) ∧
      Quiet fs fs' := by
  unfold setSizeAndWrite
  have hquiet := quiet_ext2InodeTreeBlocks fs inode
  generalize ext2InodeTreeBlocks fs inode = r at hquiet ⊢
  obtain ⟨blocks, fs1⟩ := r
  have hok : FileOk fs1 { inode with iSize := size, iBlocks := blocks * 8 % uint32Modulus } :=
    (h.quiet hquiet).withSize hsize _
  obtain ⟨fs', hwrite, hq⟩ := hok.write
  exact ⟨fs', _, hwrite, hquiet.trans hq⟩

variable {ret : Except Errno Unit}

/-- What `ext2_truncate_inode` returns and makes of the bytes. -/
theorem ext2TruncateInode_spec (hblank : ∀ p, inode.iSize ≤ p → fs.fileByte inode p = 0)
    (hrun : ext2TruncateInode size fs inode = (ret, fs', inode')) :
    (ret = .error .einval ∧ fs' = fs ∧ inode' = inode) ∨
      (ret = .ok () ∧ FileOk fs' inode' ∧ inode'.iSize = size ∧
        ∀ p, fs'.fileByte inode' p = if p < size then fs.fileByte inode p else 0) := by
  have hbs : blockSize = 4096 := rfl
  have hmax : ext2MaxFileSize = uint32Modulus - 1 := rfl
  unfold ext2TruncateInode at hrun
  split_ifs at hrun with hbig hsame hzero hshrink
  · cases hrun
    exact .inl ⟨rfl, rfl, rfl⟩
  · cases hrun
    refine .inr ⟨rfl, h, hsame.symm, fun p => ?_⟩
    split_ifs with hp
    · rfl
    · exact hblank p (by omega)
  · subst hzero
    have hshrinks := ext2FreeInodeBlocks_shrinks h.owns h.noErrors.pages (.ok ())
    have hfields : (ext2FreeInodeBlocks fs inode).2.ino = inode.ino ∧
        (ext2FreeInodeBlocks fs inode).2.iType = inode.iType ∧
        (ext2FreeInodeBlocks fs inode).2.iSize = 0 := ⟨rfl, rfl, rfl⟩
    generalize ext2FreeInodeBlocks fs inode = r at hrun hshrinks hfields
    obtain ⟨hok, hbytes⟩ := hshrinks.spec h hfields.1 hfields.2.1
      (hfields.2.2.trans_le (Nat.zero_le _))
    obtain ⟨fs2, hwrite, hq⟩ := hok.write
    dsimp only at hrun
    rw [hwrite] at hrun
    cases hrun
    refine .inr ⟨rfl, hok.quiet hq, hfields.2.2, fun p => ?_⟩
    rw [fileByte_quiet hq, hbytes, if_neg (Nat.not_lt_zero _), if_neg (Nat.not_lt_zero _)]
  · obtain ⟨htail, htailOk⟩ := @ext2ZeroTruncateTail_spec fs inode size h.noErrors.pages (by omega)
    generalize ext2ZeroTruncateTail size fs inode = r at hrun htail htailOk
    obtain ⟨ret1, fs1⟩ := r
    obtain rfl : ret1 = .ok () := htailOk h.noErrors
    obtain ⟨hok1, hbytes1⟩ := htail.spec h
    dsimp only at hrun
    generalize hslots : truncateSlots (List.range nBlocks) _ fs1 inode = r at hrun
    obtain ⟨ret2, fs2, inode2⟩ := r
    obtain ⟨hshrinks, hinode, hclean⟩ :=
      truncateSlots_shrinks hok1.owns hok1.noErrors.pages _ hslots
    obtain rfl := hclean hok1.noErrors
    have hfields : inode2.ino = inode.ino ∧ inode2.iType = inode.iType ∧
        inode2.iSize = inode.iSize := by
      rw [hinode]
      exact ⟨rfl, rfl, rfl⟩
    obtain ⟨hok2, hbytes2⟩ := hshrinks.spec hok1 hfields.1 hfields.2.1
      (hfields.2.2.trans_le h.size_le)
    obtain ⟨fs3, iBlocks, hend, hq⟩ := setSizeAndWrite_spec hok2 (by omega : size ≤ _)
    dsimp only at hrun
    rw [hend] at hrun
    cases hrun
    refine .inr ⟨rfl, (hok2.quiet hq).withSize (by omega) iBlocks, rfl, fun p => ?_⟩
    have hbyte : fs'.fileByte { inode2.dropFreed fs2 with iSize := size, iBlocks := iBlocks } p =
        fs'.fileByte (inode2.dropFreed fs2) p := rfl
    rw [hbyte, fileByte_quiet hq, hbytes2, hbytes1, hbs]
    split_ifs <;> first | rfl | omega
  · obtain ⟨htailOk, htail⟩ := @ext2ZeroExtendTail_spec fs inode inode.iSize h.noErrors.pages
      (by omega)
    generalize ext2ZeroExtendTail inode.iSize fs inode = r at hrun htail htailOk
    obtain ⟨ret1, fs1⟩ := r
    obtain rfl : ret1 = .ok () := htailOk
    obtain ⟨hok1, hbytes1⟩ := htail.spec h
    obtain ⟨fs2, iBlocks, hend, hq⟩ := setSizeAndWrite_spec hok1 (by omega : size ≤ _)
    dsimp only at hrun
    rw [hend] at hrun
    cases hrun
    refine .inr ⟨rfl, (hok1.quiet hq).withSize (by omega) iBlocks, rfl, fun p => ?_⟩
    have hbyte : fs'.fileByte { inode with iSize := size, iBlocks := iBlocks } p =
        fs'.fileByte inode p := rfl
    rw [hbyte, fileByte_quiet hq, hbytes1]
    split_ifs with hclear hp hp
    · exact (hblank p hclear.1).symm
    · rfl
    · rfl
    · exact hblank p (by omega)

/-! ## Reserving space -/

theorem ext2MapBlocks_spec (blocks : List Nat)
    (hrun : ext2MapBlocks blocks fs inode = (ret, fs', inode')) :
    FileOk fs' inode' ∧ inode'.iSize = inode.iSize ∧
      ∀ pos, fs'.fileByte inode' pos = fs.fileByte inode pos := by
  induction blocks generalizing fs inode with
  | nil =>
    cases hrun
    exact ⟨h, rfl, fun _ => rfl⟩
  | cons block rest ih =>
    rw [ext2MapBlocks] at hrun
    generalize hbmap : ext2Bmap fs inode block true = r at hrun
    obtain ⟨ret1, fs1, inode1⟩ := r
    obtain ⟨hmaps, -⟩ := ext2Bmap_maps h.owns h.noErrors.pages h.notDevice hbmap
    have hok := h.maps hmaps
    cases ret1 with
    | error e =>
      cases hrun
      exact ⟨hok, hmaps.iSize, hmaps.fileByte⟩
    | ok mapped =>
      cases mapped with
      | zero =>
        cases hrun
        exact ⟨hok, hmaps.iSize, hmaps.fileByte⟩
      | succ mapped =>
        obtain ⟨hok', hsize, hbytes⟩ := ih hok hrun
        refine ⟨hok', hsize.trans hmaps.iSize, fun pos => ?_⟩
        rw [hbytes, hmaps.fileByte]

/-- What `ext2_fallocate_inode` makes of the size and the bytes. -/
theorem ext2FallocateInode_spec (hblank : ∀ p, inode.iSize ≤ p → fs.fileByte inode p = 0)
    {mode offset len : Nat}
    (hrun : ext2FallocateInode mode offset len fs inode = (ret, fs', inode')) :
    FileOk fs' inode' ∧ (∀ p, fs'.fileByte inode' p = fs.fileByte inode p) ∧
      inode'.iSize = if ret = .ok () then max inode.iSize (offset + len) else inode.iSize := by
  unfold ext2FallocateInode at hrun
  split_ifs at hrun with hmode hrange
  · cases hrun
    exact ⟨h, fun _ => rfl, rfl⟩
  · cases hrun
    exact ⟨h, fun _ => rfl, rfl⟩
  generalize hmap : ext2MapBlocks (partsOf len offset) fs inode = r at hrun
  obtain ⟨ret1, fs1, inode1⟩ := r
  obtain ⟨hok, hsize, hbytes⟩ := ext2MapBlocks_spec h _ hmap
  cases ret1 with
  | error e =>
    cases hrun
    exact ⟨hok, hbytes, hsize⟩
  | ok u =>
    dsimp only at hrun
    split_ifs at hrun with hgrow
    · have hmod : inode1.iSize < uint32Modulus := by
        have hmax : ext2MaxFileSize = uint32Modulus - 1 := rfl
        have hmod : uint32Modulus = 4294967296 := rfl
        omega
      obtain ⟨htailOk, htail⟩ := @ext2ZeroExtendTail_spec fs1 inode1 _ hok.noErrors.pages hmod
      generalize ext2ZeroExtendTail inode1.iSize fs1 inode1 = r at hrun htail htailOk
      obtain ⟨ret2, fs2⟩ := r
      obtain rfl : ret2 = .ok () := htailOk
      obtain ⟨hok2, hbytes2⟩ := htail.spec hok
      have hresized : FileOk fs2 { inode1 with iSize := offset + len } :=
        hok2.withSize (by omega) inode1.iBlocks
      obtain ⟨fs3, hwrite, hq⟩ := hresized.write
      dsimp only at hrun
      rw [hwrite] at hrun
      cases hrun
      refine ⟨hresized.quiet hq, fun p => ?_, ?_⟩
      · have hbyte : fs'.fileByte { inode1 with iSize := offset + len } p =
            fs'.fileByte inode1 p := rfl
        rw [hbyte, fileByte_quiet hq, hbytes2]
        split_ifs with hclear
        · exact (hblank p (hsize ▸ hclear.1)).symm
        · exact hbytes p
      · rw [if_pos rfl]
        change offset + len = _
        omega
    · obtain ⟨fs2, hwrite, hq⟩ := hok.write
      rw [hwrite] at hrun
      cases hrun
      refine ⟨hok.quiet hq, fun p => by rw [fileByte_quiet hq, hbytes], ?_⟩
      rw [if_pos rfl]
      omega

end

end Bytes

end CuteOS.Fs.Ext2
