/-
  Fs/Ext2/FileRuns.lean --- an ext2 regular file as one growing byte array.

  The calls of `fs/ext2/file.c` and `fs/ext2/inode.c` on one inode, in any order, with
  the work of other inodes on the same volume in between.  Every call is compared with
  the operation on byte arrays that it stands for.

  A write that the volume cannot hold as a whole is where they part: when
  `ext2_write_file` runs out of blocks after some bytes, it returns their number and
  leaves `i_size` as it was.
-/
import CuteOS.Fs.Ext2.Evict
import CuteOS.Fs.Ext2.Space
import CuteOS.Lib.Runs

set_option autoImplicit false

namespace CuteOS.Fs.Ext2

open Lib (ByteFile Runs)

/-! ## Writes that are not cut short -/

section Full

variable {fs gs : Volume} {inode : Inode}

/-- The parts still to come, seen from byte `done` on. -/
def partsFrom (count pos done : Nat) : List Nat :=
  List.range' ((pos + done) / blockSize) ((pos + count - 1) / blockSize + 1 - (pos + done) / blockSize)

variable {count pos done : Nat}

theorem partsFrom_cons (hdone : done < count) :
    partsFrom count pos done = (pos + done) / blockSize ::
      List.range' ((pos + done) / blockSize + 1)
        ((pos + count - 1) / blockSize - (pos + done) / blockSize) := by
  have hle : (pos + done) / blockSize ≤ (pos + count - 1) / blockSize :=
    Nat.div_le_div_right (by omega)
  rw [partsFrom, Nat.sub_add_comm hle, List.range'_succ]

/-- A chunk that is not the last one ends with its block. -/
theorem partsFrom_next {chunk : Nat}
    (hchunk : (if blockSize - (pos + done) % blockSize > count - done then count - done
      else blockSize - (pos + done) % blockSize) = chunk) (hleft : done + chunk < count) :
    partsFrom count pos (done + chunk) = List.range' ((pos + done) / blockSize + 1)
      ((pos + count - 1) / blockSize - (pos + done) / blockSize) := by
  have hoff : (pos + done) % blockSize < blockSize := Nat.mod_lt _ (by decide)
  have hdiv := Nat.div_add_mod (pos + done) blockSize
  have hend : pos + (done + chunk) = blockSize * ((pos + done) / blockSize + 1) := by
    rw [Nat.mul_succ, ← hchunk]
    split_ifs at hchunk ⊢ <;> omega
  rw [partsFrom, hend, Nat.mul_div_cancel_left _ (by decide)]
  congr 1
  omega

/-- If the parts of the range can be mapped one after the other, then the loop of
`ext2_write_file` reaches the end.  `fs` is the volume that they are mapped on, `gs` the
one that the bytes are written to. -/
theorem ext2WriteLoop_full (buf : Nat → UInt8) (fuel : Nat) (hfs : FileOk fs inode)
    (hgs : FileOk gs inode) (halike : Alike (DataOf fs inode) fs gs) (hdone : done ≤ count)
    (hfuel : count - done < fuel) (hmax : pos + count ≤ ext2MaxFileSize)
    (hmap : done < count → (ext2MapBlocks (partsFrom count pos done) fs inode).1 = .ok ()) :
    (ext2WriteLoop buf count pos fuel done gs inode).1 = .ok count := by
  induction fuel generalizing done fs gs inode with
  | zero => omega
  | succ fuel ih =>
    rw [ext2WriteLoop]
    by_cases hmore : done < count
    · rw [if_pos hmore]
      have hmap := hmap hmore
      rw [partsFrom_cons hmore, ext2MapBlocks] at hmap
      have hindex := not_beyond_maxFileIndex hmore hmax
      obtain ⟨ret, fs1, gs1, inode1, hfbmap, hgbmap, halike1⟩ :=
        halike.bmap hfs.owns hfs.notDevice ((pos + done) / blockSize) true
      obtain ⟨hmaps, hblock⟩ :=
        ext2Bmap_maps hfs.owns hfs.noErrors.pages hfs.notDevice hfbmap
      rw [hfbmap] at hmap
      cases ret with
      | error e => cases hmap
      | ok block =>
        cases block with
        | zero => cases hmap
        | succ block =>
          have hget : pageCacheGetMapping ((pos + done) / blockSize) gs inode =
              (.ok (block + 1), gs1.nextTick, inode1) := by
            rw [pageCacheGetMapping, if_neg hindex, hgbmap]
            dsimp only
            rw [Volume.pageCacheGetBlock, halike1.gsOk.pages]
          obtain ⟨hok, -, -, hret⟩ := pageCacheGetMapping_spec hgs hget
          obtain ⟨hne, hgblock⟩ := hret _ rfl
          rw [hget]
          dsimp only at hmap ⊢
          generalize hchunk : (if _ > count - done then count - done else _) = chunk
          have hle := chunk_fits hmore hchunk
          have hdata : DataOf fs1 inode1 (block + 1) :=
            ⟨_, hblock _ rfl, Nat.succ_ne_zero block⟩
          have hread : Alike (DataOf fs1 inode1) fs1 gs1.nextTick :=
            (halike1.mono hmaps.dataOf).atTick fs1.io.tick (gs1.io.tick + 1)
          rw [← hgblock] at hne hdata ⊢
          obtain ⟨hok2, -⟩ := storeChunk_spec hok buf hne hle.2.2
          refine ih (hfs.maps hmaps) hok2 (hread.fill hdata _) hle.2.1 (by omega) fun hleft => ?_
          rw [partsFrom_next hchunk hleft]
          exact hmap
    · rw [if_neg hmore]
      obtain rfl : done = count := by omega
      by_cases hgrow : pos + done > inode.iSize
      · rw [if_pos hgrow]
        have hok : FileOk gs { inode with iSize := pos + done } :=
          hgs.withSize hmax inode.iBlocks
        obtain ⟨gs', hwrite, -⟩ := hok.write
        rw [hwrite]
      · rw [if_neg hgrow]

end Full

/-! ## Calls -/

/-- A volume and a regular file on it. -/
structure FileState where
  fs : Volume
  inode : Inode

/-- A call on the file, or work on other inodes that leaves `fs`. -/
inductive FileOp where
  | write (buf : Nat → UInt8) (count pos : Nat)
  | read (count pos : Nat)
  | truncate (size : Nat)
  | fallocate (mode offset len : Nat)
  | others (fs : Volume)

namespace FileState

def next (s : FileState) : FileOp → FileState
  | .write buf count pos =>
    ⟨(ext2WriteFile buf count pos s.fs s.inode).2.1,
      (ext2WriteFile buf count pos s.fs s.inode).2.2⟩
  | .read count pos => ⟨(ext2ReadFile count pos s.fs s.inode).2, s.inode⟩
  | .truncate size =>
    ⟨(ext2TruncateInode size s.fs s.inode).2.1, (ext2TruncateInode size s.fs s.inode).2.2⟩
  | .fallocate mode offset len =>
    ⟨(ext2FallocateInode mode offset len s.fs s.inode).2.1,
      (ext2FallocateInode mode offset len s.fs s.inode).2.2⟩
  | .others fs => ⟨fs, s.inode⟩

/-- Other inodes take and give back blocks, but not those of the file. -/
structure Others (s : FileState) (fs : Volume) : Prop where
  sb : fs.sb = s.fs.sb
  answers : fs.io.answers = s.fs.io.answers
  used : ∀ b ∈ s.inode.owned, fs.BlockUsed b
  page : ∀ b ∈ s.inode.owned, fs.page b = s.fs.page b

/-- One call, or what others do. -/
def Step (s : FileState) (op : FileOp) (s' : FileState) : Prop :=
  s' = s.next op ∧ ∀ fs, op = .others fs → s.Others fs

/-- The file has the size and the bytes of `f`. -/
def Shows (s : FileState) (f : ByteFile) : Prop :=
  s.inode.iSize = f.size ∧ ∀ pos, s.fs.fileByte s.inode pos = f.byte pos

/-- The file is in order and shows some byte array. -/
def Good (s : FileState) : Prop :=
  FileOk s.fs s.inode ∧ ∃ f, s.Shows f

/-- What the call has to do to a file that shows `f`. -/
def Behaves (s : FileState) (f : ByteFile) : FileOp → Prop
  | .write buf count pos =>
    match (ext2WriteFile buf count pos s.fs s.inode).1 with
    | .ok n => n ≤ count ∧ (s.next (.write buf count pos)).Shows (f.write buf n pos)
    | .error _ => (s.next (.write buf count pos)).Shows f
  | .read count pos =>
    (ext2ReadFile count pos s.fs s.inode).1 = .ok (f.read count pos) ∧
      (s.next (.read count pos)).Shows f
  | .truncate size =>
    match (ext2TruncateInode size s.fs s.inode).1 with
    | .ok () => (s.next (.truncate size)).Shows (f.resize size)
    | .error _ => (s.next (.truncate size)).Shows f
  | .fallocate mode offset len =>
    match (ext2FallocateInode mode offset len s.fs s.inode).1 with
    | .ok () => (s.next (.fallocate mode offset len)).Shows (f.reserve (offset + len))
    | .error _ => (s.next (.fallocate mode offset len)).Shows f
  | .others fs => s.Others fs → (s.next (.others fs)).Shows f

/-- A write ends inside the file, or all its parts can be mapped; a write of no bytes only
has to start before the end of the largest file.  Nothing is asked of the other calls. -/
def Fits (s : FileState) : FileOp → Prop
  | .write _ count pos =>
    if pos ≥ ext2MaxFileSize then count = 0 → pos ≤ s.inode.iSize
    else
      count = 0 ∨ pos + min count (ext2MaxFileSize - pos) ≤ s.inode.iSize ∨
        (ext2MapBlocks (partsOf (min count (ext2MaxFileSize - pos)) pos) s.fs s.inode).1 = .ok ()
  | _ => True

end FileState

/-! ## One call -/

variable {fs : Volume}

section OneCall

variable {s : FileState} {f : ByteFile}

theorem FileState.Shows.blank (h : s.Shows f) (p : Nat) (hp : s.inode.iSize ≤ p) :
    s.fs.fileByte s.inode p = 0 := by
  rw [h.2]
  exact f.blank p (h.1 ▸ hp)

section

variable (hok : FileOk s.fs s.inode) (h : s.Shows f)
include hok h

theorem write_behaves (buf : Nat → UInt8)
    (count pos : Nat) (hfits : s.Fits (.write buf count pos)) :
    s.Behaves f (.write buf count pos) ∧
      FileOk (s.next (.write buf count pos)).fs (s.next (.write buf count pos)).inode := by
  obtain ⟨hsize, hbyte⟩ := h
  rw [FileState.Fits] at hfits
  dsimp only [FileState.Behaves, FileState.next]
  unfold ext2WriteFile
  rw [hok.isFile, if_neg (by decide)]
  by_cases hbeyond : pos ≥ ext2MaxFileSize
  · rw [if_pos hbeyond] at hfits ⊢
    by_cases hzero : count = 0
    · rw [if_pos hzero]
      refine ⟨⟨Nat.zero_le _, ?_, fun p => ?_⟩, hok⟩
      · change s.inode.iSize = max f.size (pos + 0)
        omega
      · change _ = if pos ≤ p ∧ p < pos + 0 then buf (p - pos) else f.byte p
        rw [if_neg (by omega), hbyte]
    · rw [if_neg hzero]
      exact ⟨⟨hsize, hbyte⟩, hok⟩
  · rw [if_neg hbeyond] at hfits ⊢
    have hclip : (if count > ext2MaxFileSize - pos then ext2MaxFileSize - pos else count) =
        min count (ext2MaxFileSize - pos) := by
      split_ifs <;> omega
    rw [hclip]
    have hmax : pos + min count (ext2MaxFileSize - pos) ≤ ext2MaxFileSize := by omega
    have hcount : min count (ext2MaxFileSize - pos) ≤ count := Nat.min_le_left ..
    have hfits : 0 < min count (ext2MaxFileSize - pos) →
        pos + min count (ext2MaxFileSize - pos) ≤ s.inode.iSize ∨ (ext2MapBlocks (partsOf
          (min count (ext2MaxFileSize - pos)) pos) s.fs s.inode).1 = .ok () :=
      fun hsome => hfits.resolve_left (by omega)
    generalize min count (ext2MaxFileSize - pos) = n at hfits hmax hcount ⊢
    have hresult := ext2WriteLoop_result buf (n + 1) hok (Nat.zero_le n) (by omega) hmax
    have hfull : ¬ pos + n ≤ s.inode.iSize →
        (ext2WriteLoop buf n pos (n + 1) 0 s.fs s.inode).1 = .ok n := by
      intro hpast
      have halike : Alike (DataOf s.fs s.inode) s.fs s.fs :=
        ⟨rfl, rfl, rfl, fun _ _ => rfl, hok.noErrors, hok.noErrors⟩
      exact ext2WriteLoop_full buf (n + 1) hok hok halike (Nat.zero_le n) (by omega) hmax
        fun hsome => (hfits hsome).resolve_left hpast
    generalize ext2WriteLoop buf n pos (n + 1) 0 s.fs s.inode = r at hresult hfull ⊢
    obtain ⟨ret, fs', inode'⟩ := r
    cases ret with
    | error e =>
      obtain ⟨hok', -, hbytes, hsize'⟩ := hresult
      exact ⟨⟨hsize'.trans hsize, fun p => (hbytes p).trans (hbyte p)⟩, hok'⟩
    | ok m =>
      obtain ⟨hok', -, hm, hbytes, hsize'⟩ := hresult
      refine ⟨⟨hm.trans hcount, ?_, fun p => ?_⟩, hok'⟩
      · change inode'.iSize = max f.size (pos + m)
        rw [hsize', ← hsize]
        split_ifs with hall
        · rfl
        · -- cut short, but before the end of the file
          have hinside : pos + n ≤ s.inode.iSize := by
            by_contra hpast
            exact hall (Except.ok.inj (hfull hpast))
          omega
      · rw [hbytes, hbyte]
        rfl

theorem read_behaves (count pos : Nat) : s.Behaves f (.read count pos) ∧
      FileOk (s.next (.read count pos)).fs (s.next (.read count pos)).inode := by
  obtain ⟨hret, hquiet⟩ := ext2ReadFile_spec hok count pos
  refine ⟨⟨?_, h.1, fun p => ?_⟩, hok.quiet hquiet⟩
  · rw [hret, h.1]
    exact congrArg Except.ok (List.map_congr_left fun i _ => h.2 (pos + i))
  · exact (fileByte_quiet hquiet s.inode p).trans (h.2 p)

theorem truncate_behaves (size : Nat) : s.Behaves f (.truncate size) ∧
      FileOk (s.next (.truncate size)).fs (s.next (.truncate size)).inode := by
  dsimp only [FileState.Behaves, FileState.next]
  generalize hrun : ext2TruncateInode size s.fs s.inode = r
  obtain ⟨ret, fs', inode'⟩ := r
  rcases ext2TruncateInode_spec hok h.blank hrun with
    ⟨rfl, rfl, rfl⟩ | ⟨rfl, hok', hsize, hbytes⟩
  · exact ⟨h, hok⟩
  · refine ⟨⟨hsize, fun p => ?_⟩, hok'⟩
    rw [hbytes, h.2]
    rfl

theorem fallocate_behaves (mode offset len : Nat) : s.Behaves f (.fallocate mode offset len) ∧
      FileOk (s.next (.fallocate mode offset len)).fs
        (s.next (.fallocate mode offset len)).inode := by
  dsimp only [FileState.Behaves, FileState.next]
  generalize hrun : ext2FallocateInode mode offset len s.fs s.inode = r
  obtain ⟨ret, fs', inode'⟩ := r
  obtain ⟨hok', hbytes, hsize⟩ := ext2FallocateInode_spec hok h.blank hrun
  have hbyte : ∀ p, fs'.fileByte inode' p = f.byte p := fun p => (hbytes p).trans (h.2 p)
  cases ret with
  | error | ok =>
    rw [h.1] at hsize
    exact ⟨⟨hsize, hbyte⟩, hok'⟩

theorem others_behaves (hothers : s.Others fs) :
    (s.next (.others fs)).Shows f ∧ FileOk fs s.inode := by
  have hpage : ∀ n ∈ s.fs.inodeInner s.inode, fs.page n = s.fs.page n :=
    fun n hn => hothers.page n (hok.owns.inner_mem hn)
  refine ⟨⟨h.1, fun p => ?_⟩, hok.step (hok.owns.congr rfl rfl hpage hothers.used) hothers.sb
    hothers.answers rfl rfl hok.size_le⟩
  rw [← h.2 p]
  have hblock : fs.blockAt s.inode (p / blockSize) = s.fs.blockAt s.inode (p / blockSize) :=
    blockAt_congr rfl hpage _
  change fs.fileByte s.inode p = s.fs.fileByte s.inode p
  rw [Volume.fileByte, Volume.fileByte, hblock]
  split_ifs with hzero
  · rfl
  · rw [hothers.page _ (hok.owns.leaf_mem (blockAt_mem_leaves hzero))]

/-- Every call that fits does what it has to do, and leaves the file in order. -/
theorem op_behaves (op : FileOp) (hfits : s.Fits op) :
    s.Behaves f op ∧ ((∀ fs, op = .others fs → s.Others fs) →
      FileOk (s.next op).fs (s.next op).inode) := by
  cases op with
  | write buf count pos =>
    obtain ⟨hbehaves, hok'⟩ := write_behaves hok h buf count pos hfits
    exact ⟨hbehaves, fun _ => hok'⟩
  | read count pos =>
    obtain ⟨hbehaves, hok'⟩ := read_behaves hok h count pos
    exact ⟨hbehaves, fun _ => hok'⟩
  | truncate size =>
    obtain ⟨hbehaves, hok'⟩ := truncate_behaves hok h size
    exact ⟨hbehaves, fun _ => hok'⟩
  | fallocate mode offset len =>
    obtain ⟨hbehaves, hok'⟩ := fallocate_behaves hok h mode offset len
    exact ⟨hbehaves, fun _ => hok'⟩
  | others fs =>
    exact ⟨fun hothers => (others_behaves hok h hothers).1,
      fun hothers => (others_behaves hok h (hothers fs rfl)).2⟩

end

/-- A call that behaves leaves a file that shows some byte array. -/
theorem FileState.Behaves.shows {op : FileOp} (hbehaves : s.Behaves f op)
    (hothers : ∀ fs, op = .others fs → s.Others fs) : ∃ g, (s.next op).Shows g := by
  cases op with
  | read count pos => exact ⟨f, hbehaves.2⟩
  | others fs => exact ⟨f, hbehaves (hothers fs rfl)⟩
  | write buf count pos =>
    dsimp only [FileState.Behaves] at hbehaves
    split at hbehaves
    · exact ⟨_, hbehaves.2⟩
    · exact ⟨f, hbehaves⟩
  | truncate | fallocate =>
    dsimp only [FileState.Behaves] at hbehaves
    split at hbehaves <;> exact ⟨_, hbehaves⟩

end OneCall

/-! ## Runs -/

/-- In a run of calls that fit, the file is a byte array in every state, every further
call that fits does to the array what it has to do, and what a shrinking cut off is zero
after an extension. -/
theorem file_is_byteFile {s s' : FileState} {f : ByteFile} (hok : FileOk s.fs s.inode)
    (hshows : s.Shows f) (hrun : Runs FileState.Step FileState.Fits s s') :
    ∃ g, s'.Shows g ∧ (∀ op, s'.Fits op → s'.Behaves g op) ∧ ∀ small large p, small ≤ p →
        (ext2TruncateInode small s'.fs s'.inode).1 = .ok () →
        (ext2TruncateInode large (s'.next (.truncate small)).fs
          (s'.next (.truncate small)).inode).1 = .ok () →
        ((s'.next (.truncate small)).next (.truncate large)).fs.fileByte
          ((s'.next (.truncate small)).next (.truncate large)).inode p = 0 := by
  have hgood : s'.Good := by
    refine hrun.induct (⟨hok, f, hshows⟩ : s.Good) ?_
    rintro t op _ ⟨hok, g, hshows⟩ hfits ⟨rfl, hothers⟩
    obtain ⟨hbehaves, hok'⟩ := op_behaves hok hshows op hfits
    exact ⟨hok' hothers, hbehaves.shows hothers⟩
  obtain ⟨hok', g, hshows'⟩ := hgood
  refine ⟨g, hshows', fun op hfits => (op_behaves hok' hshows' op hfits).1, ?_⟩
  intro small large p hp hsmall hlarge
  obtain ⟨hbehaves, hok1⟩ := truncate_behaves hok' hshows' small
  dsimp only [FileState.Behaves] at hbehaves
  rw [hsmall] at hbehaves
  have hbehaves2 := (truncate_behaves hok1 hbehaves large).1
  dsimp only [FileState.Behaves] at hbehaves2
  rw [hlarge] at hbehaves2
  rw [hbehaves2.2]
  exact g.resize_resize_byte hp

/-- A regular file without bytes. -/
def newFile : Inode :=
  { ino := 3, iType := .reg, iNlink := 1, iSize := 0, iBlocks := 0, iRdev := 0,
    iBlock := fun _ => 0, owned := [] }

theorem newFile_ok (hno : fs.NoErrors) (hlocated : ext2InodeLocation fs newFile.ino = .ok ()) :
    FileOk fs newFile ∧ (⟨fs, newFile⟩ : FileState).Shows ByteFile.empty := by
  refine ⟨⟨.empty fs (fun _ => rfl) rfl, hno, rfl, hlocated, by decide⟩, rfl, fun p => ?_⟩
  rcases blockAt_cases fs newFile (p / blockSize) with ⟨-, hzero⟩ | ⟨slot, path, -, heq⟩
  · exact if_pos hzero
  · apply if_pos
    rw [heq]
    exact Lib.PtrTree.nodeAt_null path

/-- Five bytes are written and three of them cut off again. -/
theorem file_is_byteFile_example :
    ∃ g, (((⟨smallVolume, newFile⟩ : FileState).next (.write (fun _ => 1) 5 0)).next
        (.truncate 2)).Shows g ∧ g.size = 2 := by
  have hno : smallVolume.NoErrors := ⟨fun _ => rfl, fun _ => rfl⟩
  obtain ⟨hok, hshows⟩ := newFile_ok hno (by decide)
  have hfits : (⟨smallVolume, newFile⟩ : FileState).Fits (.write (fun _ => 1) 5 0) := by
    have hmap : (ext2MapBlocks (partsOf 5 0) smallVolume newFile).1 = .ok () := by decide +kernel
    exact .inr (.inr hmap)
  have hrun : Runs FileState.Step FileState.Fits ⟨smallVolume, newFile⟩
      (((⟨smallVolume, newFile⟩ : FileState).next (.write (fun _ => 1) 5 0)).next
        (.truncate 2)) := by
    refine Relation.ReflTransGen.tail (Relation.ReflTransGen.single ?_)
      ⟨.truncate 2, trivial, rfl, fun fs hc => by cases hc⟩
    exact ⟨.write (fun _ => 1) 5 0, hfits, rfl, fun fs hc => by cases hc⟩
  obtain ⟨g, hg, -⟩ := file_is_byteFile hok hshows hrun
  refine ⟨g, hg, ?_⟩
  rw [← hg.1]
  decide +kernel

/-- A volume with one free block. -/
def tightVolume : Volume :=
  { smallVolume with
    blockBitmap := fun _ bit => decide (bit < 127)
    bgFreeBlocksCount := fun _ => 1
    sFreeBlocksCount := 1 }

/-- Two blocks are written to an empty file where only one is free: 4096 bytes are
reported as written, and the file is still empty. -/
theorem write_cut_short : (ext2WriteFile (fun _ => 1) 8192 0 tightVolume newFile).1 = .ok 4096 ∧
      (ext2WriteFile (fun _ => 1) 8192 0 tightVolume newFile).2.2.iSize = 0 ∧
      ¬ (⟨tightVolume, newFile⟩ : FileState).Behaves ByteFile.empty
        (.write (fun _ => 1) 8192 0) := by
  have hret : (ext2WriteFile (fun _ => 1) 8192 0 tightVolume newFile).1 = .ok 4096 := by
    decide +kernel
  have hsize : (ext2WriteFile (fun _ => 1) 8192 0 tightVolume newFile).2.2.iSize = 0 := by
    decide +kernel
  refine ⟨hret, hsize, fun hbehaves => ?_⟩
  have hgrown : (ext2WriteFile (fun _ => 1) 8192 0 tightVolume newFile).2.2.iSize =
      max 0 (0 + 4096) := hbehaves.2.1
  cases hgrown

end CuteOS.Fs.Ext2
