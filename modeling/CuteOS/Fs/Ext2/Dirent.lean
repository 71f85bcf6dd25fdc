/-
  Fs/Ext2/Dirent.lean --- the records of a directory block.

  Source: `fs/ext2/dir.c`.

  A block of a directory is tiled by records `struct ext2_dir_entry_2`.  All functions
  that look at directories go through them with the same loop, `scanRecords`.  A search
  with it gives the block that the change leaves; what the change does to the records
  is proved from the tiling, and `entries` are what the records say.
-/
import CuteOS.Fs.Ext2.Balloc
import CuteOS.Lib.Bytes

set_option autoImplicit false

namespace CuteOS.Fs.Ext2

open Lib Lib.Bytes

/-! ## Records -/

/-- `struct ext2_dir_entry_2`; the length of `name` is `name_len`. -/
structure Dirent where
  inode : Nat
  recLen : Nat
  fileType : UInt8
  name : Name
deriving DecidableEq

/-- `(struct ext2_dir_entry_2 *)(data + offset)`. -/
def direntAt (data : Bytes) (offset : Nat) : Dirent where
  inode := ofLe (slice data offset 4)
  recLen := ofLe (slice data (offset + 4) 2)
  fileType := data (offset + 7)
  name := slice data (offset + 8) (data (offset + 6)).toNat

/-- The bytes of a record. -/
def Dirent.encode (de : Dirent) : List UInt8 :=
  toLe 4 de.inode ++ toLe 2 de.recLen ++ [UInt8.ofNat de.name.length, de.fileType] ++ de.name

/-- The values fit into the fields. -/
structure Dirent.Fits (de : Dirent) : Prop where
  inode : de.inode < 2 ^ 32
  recLen : de.recLen < 2 ^ 16
  name : de.name.length < 256

/-- `EXT2_DIR_REC_LEN`. -/
def ext2DirRecLen (nameLen : Nat) : Nat := (nameLen + 8 + 3) / 4 * 4

/-- `ext2_match`. -/
def ext2Match (de : Dirent) (name : Name) : Bool :=
  if de.inode = 0 ∨ de.name.length ≠ name.length then false else de.name == name

/-- `ext2_dirent_init`. -/
def ext2DirentInit (data : Bytes) (offset : Nat) (de : Dirent) : Bytes :=
  put data offset de.encode

/-- `de->rec_len = recLen`. -/
def setRecLen (data : Bytes) (offset recLen : Nat) : Bytes := put data (offset + 4) (toLe 2 recLen)

/-- `de->inode = ino`. -/
def setDeInode (data : Bytes) (offset ino : Nat) : Bytes := put data offset (toLe 4 ino)

/-- `de->file_type = type`. -/
def setFileType (data : Bytes) (offset : Nat) (type : UInt8) : Bytes := put data (offset + 7) [type]

variable {ino fuel : Nat}

section Fields

variable {data data' : Bytes} {offset : Nat} {de : Dirent}

theorem ext2DirRecLen_ge (n : Nat) : 8 + n ≤ ext2DirRecLen n := by
  rw [ext2DirRecLen]
  omega

theorem ext2DirRecLen_le {n : Nat} (h : n < 256) : ext2DirRecLen n ≤ 264 := by
  rw [ext2DirRecLen]
  omega

theorem ext2Match_iff {name : Name} : ext2Match de name = true ↔ de.inode ≠ 0 ∧ de.name = name := by
  rw [ext2Match]
  split_ifs with h
  · refine iff_of_false not_false fun hboth => ?_
    rcases h with h | h
    · exact hboth.1 h
    · exact h (congrArg _ hboth.2)
  · rw [not_or] at h
    rw [beq_iff_eq]
    exact ⟨fun heq => ⟨h.1, heq⟩, fun hboth => hboth.2⟩

theorem Dirent.length_encode (de : Dirent) : de.encode.length = 8 + de.name.length := by
  simp only [Dirent.encode, List.length_append, length_toLe, List.length_cons, List.length_nil]

theorem fits_direntAt (data : Bytes) (offset : Nat) : (direntAt data offset).Fits where
  inode := by
    have hlt := ofLe_lt (slice data offset 4)
    rw [length_slice] at hlt
    exact hlt
  recLen := by
    have hlt := ofLe_lt (slice data (offset + 4) 2)
    rw [length_slice] at hlt
    exact hlt
  name := by
    have hlt := (data (offset + 6)).toNat_lt
    rw [direntAt, length_slice]
    exact hlt

/-- A record depends on its own bytes only. -/
theorem direntAt_congr (h : ∀ x, offset ≤ x → x < offset + 8 + (direntAt data offset).name.length →
    data' x = data x) : direntAt data' offset = direntAt data offset := by
  have hlen : (direntAt data offset).name.length = (data (offset + 6)).toNat := by
    rw [direntAt, length_slice]
  rw [direntAt, direntAt, h (offset + 6) (by omega) (by omega), h (offset + 7) (by omega) (by omega),
    slice_congr fun x hlow hhigh => h x (by omega) (by omega),
    slice_congr fun x hlow hhigh => h x (by omega) (by omega),
    slice_congr fun x hlow hhigh => h x (by omega) (by omega)]

/-- Storing the bytes of a record gives the record. -/
theorem direntAt_init (hfits : de.Fits) : direntAt (ext2DirentInit data offset de) offset = de := by
  have hlen := de.length_encode
  have hsix : put data offset de.encode (offset + 6) = UInt8.ofNat de.name.length := by
    rw [put_in (by omega)]
    simp [Dirent.encode]
  have hseven : put data offset de.encode (offset + 7) = de.fileType := by
    rw [put_in (by omega)]
    simp [Dirent.encode]
  have hinode : slice (put data offset de.encode) offset 4 = toLe 4 de.inode := by
    have h := slice_put data offset [] (toLe 4 de.inode)
      (toLe 2 de.recLen ++ [UInt8.ofNat de.name.length, de.fileType] ++ de.name)
    simpa [Dirent.encode] using h
  have hrecLen : slice (put data offset de.encode) (offset + 4) 2 = toLe 2 de.recLen := by
    have h := slice_put data offset (toLe 4 de.inode) (toLe 2 de.recLen)
      ([UInt8.ofNat de.name.length, de.fileType] ++ de.name)
    simpa [Dirent.encode] using h
  have hname : slice (put data offset de.encode) (offset + 8) de.name.length = de.name := by
    have h := slice_put data offset
      (toLe 4 de.inode ++ toLe 2 de.recLen ++ [UInt8.ofNat de.name.length, de.fileType]) de.name []
    simpa [Dirent.encode] using h
  have hmod : (UInt8.ofNat de.name.length).toNat = de.name.length := by
    exact Nat.mod_eq_of_lt hfits.name
  rw [direntAt, ext2DirentInit, hsix, hseven, hinode, hrecLen, hmod, hname, ofLe_toLe hfits.inode,
    ofLe_toLe hfits.recLen]

/-- The header fields can be stored one by one. -/
theorem direntAt_setRecLen {recLen : Nat} (hlt : recLen < 2 ^ 16) :
    direntAt (setRecLen data offset recLen) offset =
      { direntAt data offset with recLen := recLen } := by
  have hlen := length_toLe 2 recLen
  rw [direntAt, direntAt, setRecLen, ofLe_slice_put hlt, slice_put_out (by omega),
    put_out (by omega), put_out (by omega), slice_put_out (by omega)]

theorem direntAt_setDeInode (hlt : ino < 2 ^ 32) :
    direntAt (setDeInode data offset ino) offset = { direntAt data offset with inode := ino } := by
  have hlen := length_toLe 4 ino
  rw [direntAt, direntAt, setDeInode, ofLe_slice_put hlt, slice_put_out (by omega),
    put_out (by omega), put_out (by omega), slice_put_out (by omega)]

theorem direntAt_setFileType (data : Bytes) (offset : Nat) (type : UInt8) :
    direntAt (setFileType data offset type) offset =
      { direntAt data offset with fileType := type } := by
  have hlen : [type].length = 1 := rfl
  have hself : put data (offset + 7) [type] (offset + 7) = type :=
    @put_in data (offset + 7) [type] 0 Nat.one_pos
  rw [direntAt, direntAt, setFileType, hself, slice_put_out (by omega), slice_put_out (by omega),
    put_out (by omega), slice_put_out (by omega)]

end Fields

/-! ## Going through a block -/

/-- The loop over the records of a block: the first answer of `visit`, which gets the
offset of the record and the one before it.  A record is no shorter than eight bytes,
so `fuel` of more than 512 is enough. -/
def scanRecords {β : Type} (data : Bytes) (visit : Option Nat → Nat → Option β) :
    Nat → Option Nat → Nat → Option β
  | 0, _, _ => none
  | fuel + 1, prev, offset =>
    if offset + 8 ≤ blockSize then
      if (direntAt data offset).recLen < 8 ∨
          offset + (direntAt data offset).recLen > blockSize then none
      else
        match visit prev offset with
        | some answer => some answer
        | none =>
          scanRecords data visit fuel (some offset) (offset + (direntAt data offset).recLen)
    else none

/-- The rounds that a block takes at most. -/
def scanFuel : Nat := blockSize / 8 + 1

/-- A round of `ext2_find_entry`. -/
def findAt (name : Name) (data : Bytes) (_prev : Option Nat) (offset : Nat) : Option Nat :=
  if ext2Match (direntAt data offset) name then some offset else none

/-- A round of `ext2_add_entry`: the block with the new record, if there is room. -/
def addAt (name : Name) (ino : Nat) (type : UInt8) (data : Bytes) (_prev : Option Nat)
    (offset : Nat) : Option Bytes :=
  let need := ext2DirRecLen name.length
  let de := direntAt data offset
  if de.inode = 0 ∧ de.recLen ≥ need then
    some (ext2DirentInit data offset ⟨ino, de.recLen, type, name⟩)
  else
    let used := ext2DirRecLen de.name.length
    let spare := (de.recLen + uint16Modulus - used) % uint16Modulus
    if spare ≥ need then
      some (ext2DirentInit (setRecLen data offset used) (offset + used) ⟨ino, spare, type, name⟩)
    else none

/-- A round of `ext2_delete_entry`: the block without the record. -/
def deleteAt (name : Name) (data : Bytes) (prev : Option Nat) (offset : Nat) : Option Bytes :=
  let de := direntAt data offset
  if ext2Match de name then
    match prev with
    | some before =>
      some (setRecLen data before (((direntAt data before).recLen + de.recLen) % uint16Modulus))
    | none => some (setDeInode data offset 0)
  else none

/-- The search of `ext2_find_entry` in a block: the offset of the record. -/
def findInBlock (name : Name) (data : Bytes) : Option Nat :=
  scanRecords data (findAt name data) scanFuel none 0

/-- The search of `ext2_add_entry` in a block. -/
def addInBlock (name : Name) (ino : Nat) (type : UInt8) (data : Bytes) : Option Bytes :=
  scanRecords data (addAt name ino type data) scanFuel none 0

/-- The search of `ext2_delete_entry` in a block. -/
def deleteInBlock (name : Name) (data : Bytes) : Option Bytes :=
  scanRecords data (deleteAt name data) scanFuel none 0

/-! ## Tilings -/

/-- The records from `offset` to `stop`. -/
def Tiles (data : Bytes) : Nat → List Dirent → Nat → Prop
  | offset, [], stop => offset = stop
  | offset, de :: rest, stop =>
    direntAt data offset = de ∧ ext2DirRecLen de.name.length ≤ de.recLen ∧
      Tiles data (offset + de.recLen) rest stop

section Tilings

variable {data data' : Bytes} {offset stop : Nat} {a b records : List Dirent} {de : Dirent}

theorem Tiles.bounds (h : Tiles data offset records stop) :
    offset + 8 * records.length ≤ stop := by
  induction records generalizing offset with
  | nil =>
    obtain rfl : offset = stop := h
    exact le_rfl
  | cons de rest ih =>
    obtain ⟨-, hlen, hrest⟩ := h
    have hle := ih hrest
    have hge := ext2DirRecLen_ge de.name.length
    rw [List.length_cons]
    omega

theorem tiles_append :
    Tiles data offset (a ++ b) stop ↔ ∃ mid, Tiles data offset a mid ∧ Tiles data mid b stop := by
  induction a generalizing offset with
  | nil =>
    constructor
    · exact fun h => ⟨offset, rfl, h⟩
    · rintro ⟨mid, hmid, h⟩
      obtain rfl : offset = mid := hmid
      exact h
  | cons de rest ih =>
    constructor
    · rintro ⟨hat, hlen, h⟩
      obtain ⟨mid, hleft, hright⟩ := ih.mp h
      exact ⟨mid, ⟨hat, hlen, hleft⟩, hright⟩
    · rintro ⟨mid, ⟨hat, hlen, hleft⟩, hright⟩
      exact ⟨hat, hlen, ih.mpr ⟨mid, hleft, hright⟩⟩

/-- A tiling depends on the bytes that it covers. -/
theorem Tiles.congr (h : Tiles data offset records stop)
    (hsame : ∀ x, offset ≤ x → x < stop → data' x = data x) : Tiles data' offset records stop := by
  induction records generalizing offset with
  | nil => exact h
  | cons de rest ih =>
    obtain ⟨rfl, hlen, hrest⟩ := h
    have hge := ext2DirRecLen_ge (direntAt data offset).name.length
    have hle := hrest.bounds
    refine ⟨direntAt_congr fun x hlow hhigh => hsame x hlow (by omega), hlen,
      ih hrest fun x hlow hhigh => hsame x (by omega) hhigh⟩

theorem Tiles.stop_unique {stop' : Nat} (h : Tiles data offset records stop)
    (h' : Tiles data offset records stop') : stop = stop' := by
  induction records generalizing offset with
  | nil =>
    have heq : offset = stop := h
    have heq' : offset = stop' := h'
    rw [← heq, heq']
  | cons de rest ih => exact ih h.2.2 h'.2.2

/-- What a scan of a tiled block comes to: `visit` has no answer for any record, or it
answers for one of them. -/
theorem scanRecords_cases {β : Type} (visit : Option Nat → Nat → Option β) (prev : Option Nat)
    (h : Tiles data offset records blockSize) (hfuel : records.length < fuel) :
    (scanRecords data visit fuel prev offset = none ∧
      ∀ de ∈ records, ext2DirRecLen de.name.length ≤ de.recLen ∧
        ∃ before mid, direntAt data mid = de ∧ visit before mid = none) ∨
    ∃ a de b mid before answer, records = a ++ de :: b ∧ Tiles data offset a mid ∧
      visit before mid = some answer ∧
      scanRecords data visit fuel prev offset = some answer ∧
      ((a = [] ∧ before = prev) ∨
        ∃ a' last mid', a = a' ++ [last] ∧ Tiles data offset a' mid' ∧ before = some mid') := by
  induction records generalizing offset fuel prev with
  | nil =>
    obtain rfl : offset = blockSize := h
    refine .inl ⟨?_, List.forall_mem_nil _⟩
    cases fuel with
    | zero => rfl
    | succ fuel => rw [scanRecords, if_neg (by omega)]
  | cons de rest ih =>
    obtain ⟨hat, hlen, hrest⟩ := h
    have hge := ext2DirRecLen_ge de.name.length
    have hle := hrest.bounds
    cases fuel with
    | zero => cases hfuel
    | succ fuel =>
      have hstep : scanRecords data visit (fuel + 1) prev offset = match visit prev offset with
          | some answer => some answer
          | none => scanRecords data visit fuel (some offset) (offset + de.recLen) := by
        rw [scanRecords, if_pos (by omega), hat, if_neg (by omega)]
      rw [hstep]
      cases hvisit : visit prev offset with
      | some answer =>
        right
        exact ⟨[], de, rest, offset, prev, answer, rfl, rfl, hvisit, rfl, .inl ⟨rfl, rfl⟩⟩
      | none =>
        rw [List.length_cons] at hfuel
        rcases @ih fuel (offset + de.recLen) (some offset) hrest (by omega) with
          ⟨hnone, hall⟩ | ⟨a, d, b, mid, before, answer, rfl, ha, hanswer, hscan, hprev⟩
        · exact .inl ⟨hnone, List.forall_mem_cons.mpr ⟨⟨hlen, prev, offset, hat, hvisit⟩, hall⟩⟩
        · right
          refine ⟨de :: a, d, b, mid, before, answer, rfl, ⟨hat, hlen, ha⟩, hanswer, hscan, .inr ?_⟩
          rcases hprev with ⟨rfl, rfl⟩ | ⟨a', last, mid', rfl, ha', rfl⟩
          · exact ⟨[], de, offset, rfl, rfl, rfl⟩
          · exact ⟨de :: a', last, mid', rfl, ⟨hat, hlen, ha'⟩, rfl⟩

end Tilings

/-- The records of a block that is tiled. -/
def recordsFrom (data : Bytes) : Nat → Nat → List Dirent
  | 0, _ => []
  | fuel + 1, offset =>
    if offset + 8 ≤ blockSize then
      if (direntAt data offset).recLen < 8 ∨
          offset + (direntAt data offset).recLen > blockSize then []
      else
        direntAt data offset :: recordsFrom data fuel (offset + (direntAt data offset).recLen)
    else []

def blockRecords (data : Bytes) : List Dirent := recordsFrom data scanFuel 0

/-- A block of records, each with room for its name. -/
def Tiled (data : Bytes) : Prop := Tiles data 0 (blockRecords data) blockSize

section

variable {data : Bytes} {records : List Dirent}

theorem recordsFrom_of_tiles {offset : Nat} (h : Tiles data offset records blockSize)
    (hfuel : records.length < fuel) : recordsFrom data fuel offset = records := by
  induction records generalizing offset fuel with
  | nil =>
    obtain rfl : offset = blockSize := h
    cases fuel with
    | zero => rfl
    | succ fuel => rw [recordsFrom, if_neg (by omega)]
  | cons de rest ih =>
    obtain ⟨hat, hlen, hrest⟩ := h
    have hge := ext2DirRecLen_ge de.name.length
    have hle := hrest.bounds
    cases fuel with
    | zero => cases hfuel
    | succ fuel =>
      rw [List.length_cons] at hfuel
      rw [recordsFrom, if_pos (by omega), hat, if_neg (by omega), ih hrest (by omega)]

variable (h : Tiles data 0 records blockSize)
include h

theorem length_lt_scanFuel : records.length < scanFuel := by
  have hle := h.bounds
  have hbs : blockSize = 4096 := rfl
  have hfuel : scanFuel = 513 := rfl
  omega

theorem Tiles.blockRecords : Tiled data ∧ blockRecords data = records := by
  have heq : Ext2.blockRecords data = records := recordsFrom_of_tiles h (length_lt_scanFuel h)
  refine ⟨?_, heq⟩
  rw [Tiled, heq]
  exact h

end

/-! ## What the records say -/

/-- A record in use. -/
def Dirent.entry (de : Dirent) : Option (Name × Nat × UInt8) :=
  if de.inode = 0 then none else some (de.name, de.inode, de.fileType)

def entries (records : List Dirent) : List (Name × Nat × UInt8) := records.filterMap Dirent.entry

/-- A record that is not in use still has the name. -/
def DeadName (records : List Dirent) (name : Name) : Prop :=
  ∃ de ∈ records, de.inode = 0 ∧ de.name = name

/-- A name in a record of `records'` that is not in use was in such a record of `records`,
or is one of `gone`. -/
def Buries (gone : Name → Prop) (records records' : List Dirent) : Prop :=
  ∀ n, DeadName records' n → DeadName records n ∨ gone n

/-- Room for a record of length `need`. -/
def Dirent.HasRoom (de : Dirent) (need : Nat) : Prop :=
  (de.inode = 0 ∧ need ≤ de.recLen) ∨ ext2DirRecLen de.name.length + need ≤ de.recLen

section Entries

variable {data data' : Bytes} {records a b new : List Dirent} {de : Dirent} {name : Name}
  {mid stop : Nat}

@[simp] theorem entries_append : entries (a ++ b) = entries a ++ entries b :=
  List.filterMap_append

theorem entries_cons : entries (de :: b) = de.entry.toList ++ entries b := by
  rw [entries, List.filterMap_cons]
  cases de.entry <;> rfl

theorem entry_live (h : de.inode ≠ 0) : de.entry = some (de.name, de.inode, de.fileType) :=
  if_neg h

theorem entry_dead (h : de.inode = 0) : de.entry = none := if_pos h

/-- A record in the middle of a tiling. -/
theorem tiles_at (h : Tiles data 0 (a ++ de :: b) blockSize) (ha : Tiles data 0 a mid) :
    direntAt data mid = de ∧ ext2DirRecLen de.name.length ≤ de.recLen ∧
      Tiles data (mid + de.recLen) b blockSize := by
  obtain ⟨mid', ha', hrest⟩ := tiles_append.mp h
  obtain rfl := ha'.stop_unique ha
  exact hrest

/-- Some records in the middle are exchanged for others of the same length together. -/
theorem tiles_splice (ha : Tiles data 0 a mid) (hb : Tiles data stop b blockSize)
    (hnew : Tiles data' mid new stop)
    (hout : ∀ x, x < mid ∨ stop ≤ x → data' x = data x) :
    Tiles data' 0 (a ++ (new ++ b)) blockSize := by
  refine tiles_append.mpr ⟨mid, ha.congr fun x _ hx => hout x (.inl hx),
    tiles_append.mpr ⟨stop, hnew, hb.congr fun x hx _ => hout x (.inr hx)⟩⟩

/-- A record in use is exchanged for another, or loses its name. -/
theorem perm_entries_middle (h : de.inode ≠ 0) (a b : List Dirent) :
    (entries (a ++ de :: b)).Perm ((de.name, de.inode, de.fileType) :: entries (a ++ b)) := by
  rw [entries_append, entries_append, entries_cons, entry_live h]
  exact List.perm_middle

variable {gone : Name → Prop}

/-- Only the new records can have lost their inode. -/
theorem buries_splice (hsub : a ++ b ⊆ records)
    (hnew : ∀ d ∈ new, d.inode = 0 → DeadName records d.name ∨ gone d.name) :
    Buries gone records (a ++ (new ++ b)) := by
  rintro n ⟨d, hd, hdead, rfl⟩
  rw [List.mem_append, List.mem_append] at hd
  rcases hd with hd | hd | hd
  · exact .inl ⟨d, hsub (List.mem_append_left b hd), hdead, rfl⟩
  · exact hnew d hd hdead
  · exact .inl ⟨d, hsub (List.mem_append_right a hd), hdead, rfl⟩

/-- The new record is in use. -/
theorem buries_splice_live {new : Dirent} (hnew : new.inode ≠ 0) :
    Buries gone (a ++ de :: b) (a ++ ([new] ++ b)) := by
  refine buries_splice (by simp) fun d hd hdead => ?_
  rw [List.mem_singleton.mp hd] at hdead
  exact absurd hdead hnew

section

variable (h : Tiles data 0 records blockSize)
include h

theorem findInBlock_spec (name : Name) :
    (findInBlock name data = none ∧ ∀ de ∈ records, ext2Match de name = false) ∨
      ∃ mid, findInBlock name data = some mid ∧ ∃ a de b, records = a ++ de :: b ∧
        Tiles data 0 a mid ∧ ext2Match de name = true := by
  rcases scanRecords_cases (findAt name data) none h (length_lt_scanFuel h) with
    ⟨hnone, hall⟩ | ⟨a, de, b, mid, before, answer, rfl, ha, hanswer, hscan, -⟩
  · refine .inl ⟨hnone, fun de hde => ?_⟩
    obtain ⟨-, before, mid, rfl, hvisit⟩ := hall de hde
    unfold findAt at hvisit
    simpa using hvisit
  · right
    unfold findAt at hanswer
    split_ifs at hanswer with hmatch
    cases hanswer
    rw [(tiles_at h ha).1] at hmatch
    exact ⟨mid, hscan, a, de, b, rfl, ha, hmatch⟩

theorem deleteInBlock_spec (name : Name) :
    (deleteInBlock name data = none ∧ ∀ de ∈ records, ext2Match de name = false) ∨
      ∃ data', deleteInBlock name data = some data' ∧ ∃ records' value,
        Tiles data' 0 records' blockSize ∧
        (entries records).Perm ((name, value) :: entries records') ∧
        Buries (· = name) records records' := by
  rcases scanRecords_cases (deleteAt name data) none h (length_lt_scanFuel h) with
    ⟨hnone, hall⟩ | ⟨a, de, b, mid, before, answer, rfl, ha, hanswer, hscan, hprev⟩
  · refine .inl ⟨hnone, fun de hde => ?_⟩
    obtain ⟨-, before, mid, rfl, hvisit⟩ := hall de hde
    unfold deleteAt at hvisit
    dsimp only at hvisit
    split_ifs at hvisit with hmatch
    · cases before <;> cases hvisit
    · simpa using hmatch
  · right
    obtain ⟨hat, hlen, hb⟩ := tiles_at h ha
    have hge := ext2DirRecLen_ge de.name.length
    have hstop := hb.bounds
    have hbs : blockSize = 4096 := rfl
    have hmod : uint16Modulus = 2 ^ 16 := rfl
    unfold deleteAt at hanswer
    dsimp only at hanswer
    rw [hat] at hanswer
    split_ifs at hanswer with hmatch
    obtain ⟨hlive, hname⟩ := ext2Match_iff.mp hmatch
    have hperm := perm_entries_middle hlive a b
    rw [hname] at hperm
    rcases hprev with ⟨rfl, rfl⟩ | ⟨a', last, mid', rfl, ha', rfl⟩
    · -- the first record of the block stays, without an inode
      cases hanswer
      obtain rfl : 0 = mid := ha
      refine ⟨_, hscan, [] ++ ([{ de with inode := 0 }] ++ b), (de.inode, de.fileType), ?_, hperm,
        ?_⟩
      · refine tiles_splice rfl hb ⟨?_, hlen, rfl⟩ fun x hx => ?_
        · rw [direntAt_setDeInode (by decide), hat]
        · apply put_out
          rw [length_toLe]
          omega
      · refine buries_splice (by simp) fun d hd _ => .inr ?_
        rw [List.mem_singleton.mp hd]
        exact hname
    · -- the record before it takes its bytes
      cases hanswer
      obtain ⟨mid'', ha'', hlast⟩ := tiles_append.mp ha
      obtain rfl := ha''.stop_unique ha'
      obtain ⟨hlastAt, hlastLen, hlastStop⟩ := hlast
      obtain rfl : mid'' + last.recLen = mid := hlastStop
      rw [hlastAt, Nat.mod_eq_of_lt (by omega)] at hscan
      refine ⟨_, hscan, a' ++ ([{ last with recLen := last.recLen + de.recLen }] ++ b),
        (de.inode, de.fileType), ?_, ?_, ?_⟩
      · refine tiles_splice ha' hb ⟨?_, ?_, ?_⟩ fun x hx => ?_
        · rw [direntAt_setRecLen (by omega), hlastAt]
        · exact hlastLen.trans (Nat.le_add_right _ _)
        · change mid'' + (last.recLen + de.recLen) = mid'' + last.recLen + de.recLen
          rw [Nat.add_assoc]
        · apply put_out
          rw [length_toLe]
          omega
      · refine hperm.trans (.cons _ ?_)
        rw [entries_append, entries_append, entries_append, entries_append, List.append_assoc]
        exact .refl _
      · refine buries_splice (by grind) fun d hd hdead => .inl ?_
        rw [List.mem_singleton.mp hd] at hdead ⊢
        exact ⟨last, by simp, hdead, rfl⟩

theorem addInBlock_spec (type : UInt8) (hname : name.length < 256) (hpos : ino ≠ 0)
    (hino : ino < 2 ^ 32) :
    (addInBlock name ino type data = none ∧
        ∀ de ∈ records, ¬ de.HasRoom (ext2DirRecLen name.length)) ∨
      ∃ data', addInBlock name ino type data = some data' ∧ ∃ records',
        Tiles data' 0 records' blockSize ∧
        (entries records').Perm ((name, ino, type) :: entries records) ∧
        Buries (fun _ => False) records records' := by
  have hmod : uint16Modulus = 65536 := rfl
  have hneed := ext2DirRecLen_ge name.length
  -- the length that is left over does not wrap around
  have hspare : ∀ de : Dirent, de.Fits → ext2DirRecLen de.name.length ≤ de.recLen →
      (de.recLen + uint16Modulus - ext2DirRecLen de.name.length) % uint16Modulus =
        de.recLen - ext2DirRecLen de.name.length := by
    intro de hfits hlen
    have hlt := hfits.recLen
    rw [hmod]
    omega
  rcases scanRecords_cases (addAt name ino type data) none h (length_lt_scanFuel h) with
    ⟨hnone, hall⟩ | ⟨a, de, b, mid, before, answer, rfl, ha, hanswer, hscan, -⟩
  · refine .inl ⟨hnone, fun de hde => ?_⟩
    obtain ⟨hlen, before, mid, hat, hvisit⟩ := hall de hde
    unfold addAt at hvisit
    dsimp only at hvisit
    rw [hat, hspare de (hat ▸ fits_direntAt data mid) hlen] at hvisit
    split_ifs at hvisit with hdead hroom
    rintro (hdead' | hroom')
    · exact hdead hdead'
    · omega
  · right
    obtain ⟨hat, hlen, hb⟩ := tiles_at h ha
    have hfits := hat ▸ fits_direntAt data mid
    have hge := ext2DirRecLen_ge de.name.length
    have hlt := hfits.recLen
    unfold addAt at hanswer
    dsimp only at hanswer
    rw [hat, hspare de hfits hlen] at hanswer
    split_ifs at hanswer with hdead hroom
    · -- a record without an inode is used again
      cases hanswer
      refine ⟨_, hscan, a ++ ([⟨ino, de.recLen, type, name⟩] ++ b), ?_, ?_, buries_splice_live hpos⟩
      · refine tiles_splice ha hb ⟨direntAt_init ⟨hino, hlt, hname⟩, hdead.2, rfl⟩ fun x hx => ?_
        apply put_out
        rw [Dirent.length_encode]
        change x < mid ∨ mid + (8 + name.length) ≤ x
        omega
      · have hleft : entries (a ++ ([⟨ino, de.recLen, type, name⟩] ++ b)) =
            entries a ++ (name, ino, type) :: entries b := by
          rw [entries_append, List.singleton_append, entries_cons,
            @entry_live ⟨ino, de.recLen, type, name⟩ hpos]
          rfl
        have hright : entries (a ++ de :: b) = entries a ++ entries b := by
          rw [entries_append, entries_cons, entry_dead hdead.1]
          rfl
        rw [hleft, hright]
        exact List.perm_middle
    · -- a record is split behind its name
      cases hanswer
      refine ⟨_, hscan, a ++ ([{ de with recLen := ext2DirRecLen de.name.length },
          ⟨ino, de.recLen - ext2DirRecLen de.name.length, type, name⟩] ++ b), ?_, ?_, ?_⟩
      · refine tiles_splice ha hb ⟨?_, le_rfl, direntAt_init ⟨hino, ?_, hname⟩, hroom, ?_⟩
          fun x hx => ?_
        · rw [← hat, ← direntAt_setRecLen (by rw [hat]; omega)]
          refine direntAt_congr fun x hlow hhigh => put_out (.inl ?_)
          rw [direntAt_setRecLen (by rw [hat]; omega), hat] at hhigh
          rw [hat]
          change x < mid + 8 + de.name.length at hhigh
          omega
        · change de.recLen - ext2DirRecLen de.name.length < 2 ^ 16
          omega
        · change mid + ext2DirRecLen de.name.length +
            (de.recLen - ext2DirRecLen de.name.length) = mid + de.recLen
          omega
        · rw [ext2DirentInit, put_out, setRecLen, put_out]
          · rw [length_toLe]
            omega
          · rw [Dirent.length_encode]
            change x < mid + ext2DirRecLen de.name.length ∨
              mid + ext2DirRecLen de.name.length + (8 + name.length) ≤ x
            omega
      · have hleft : entries (a ++ ([{ de with recLen := ext2DirRecLen de.name.length },
            ⟨ino, de.recLen - ext2DirRecLen de.name.length, type, name⟩] ++ b)) =
            (entries a ++ de.entry.toList) ++ (name, ino, type) :: entries b := by
          rw [entries_append, List.cons_append, List.singleton_append, entries_cons, entries_cons,
            @entry_live ⟨ino, _, type, name⟩ hpos, List.append_assoc]
          rfl
        have hright : entries (a ++ de :: b) = (entries a ++ de.entry.toList) ++ entries b := by
          rw [entries_append, entries_cons, List.append_assoc]
        rw [hleft, hright]
        exact List.perm_middle
      · refine buries_splice (by simp) fun d hd hdead' => .inl ?_
        rw [List.mem_cons, List.mem_singleton] at hd
        rcases hd with rfl | rfl
        · exact ⟨de, by simp, hdead', rfl⟩
        · exact absurd hdead' hpos

end

theorem replace_spec (h : Tiles data 0 (a ++ de :: b) blockSize) (ha : Tiles data 0 a mid)
    (hmatch : ext2Match de name = true) (type : UInt8) (hpos : ino ≠ 0) (hino : ino < 2 ^ 32) :
    ∃ records' rest, Tiles (setFileType (setDeInode data mid ino) mid type) 0 records' blockSize ∧
      (entries (a ++ de :: b)).Perm ((name, de.inode, de.fileType) :: rest) ∧
      (entries records').Perm ((name, ino, type) :: rest) ∧
      Buries (fun _ => False) (a ++ de :: b) records' := by
  obtain ⟨hat, hlen, hb⟩ := tiles_at h ha
  obtain ⟨hlive, rfl⟩ := ext2Match_iff.mp hmatch
  have hge := ext2DirRecLen_ge de.name.length
  refine ⟨a ++ ([{ de with inode := ino, fileType := type }] ++ b), entries (a ++ b), ?_,
    perm_entries_middle hlive a b, ?_, buries_splice_live hpos⟩
  · refine tiles_splice ha hb ⟨?_, hlen, rfl⟩ fun x hx => ?_
    · rw [direntAt_setFileType, direntAt_setDeInode hino, hat]
    · rw [setFileType, put_out, setDeInode, put_out]
      · rw [length_toLe]
        omega
      · rw [List.length_singleton]
        omega
  · have hpos' : ({ de with inode := ino, fileType := type } : Dirent).inode ≠ 0 := hpos
    exact perm_entries_middle hpos' a b

end Entries

end CuteOS.Fs.Ext2
