/-
  Fs/Ext2/SharedMap.lean --- cache pages of files in shared mappings.

  Sources: `fault_in_user_page_locked` of `mm/page_fault.c`, `mm/mmap.c`,
  `block/page_cache.c`, `fs/ext2/inode.c`.

  A page of the cache belongs to a block, not to a file, and a page table entry keeps
  its page until it is removed.  `ext2_truncate_inode` gives blocks back without
  looking for entries that show them; as long as it spares the pages that are mapped,
  every entry shows a block of its own file.
-/
import CuteOS.Fs.Ext2.Evict
import CuteOS.Fs.Ext2.Truncate
import CuteOS.Lib.Runs

set_option autoImplicit false

namespace CuteOS.Fs.Ext2

open Lib (Runs)

/-! ## The model -/

/-- A shared mapping of a file: `vm_file->f_inode`, `VM_WRITE`, and what its page table
entries show, as pairs of a page index and the block of the cache page. -/
structure Mapping where
  ino : Nat
  writable : Bool
  ptes : List (Nat × Nat)
deriving DecidableEq

/-- The volume with its inodes, and all shared mappings of all processes. -/
structure MapState where
  sys : System
  mappings : List Mapping

inductive MapOp where
  | call (op : Op)
  | truncate (ino size : Nat)
  | mmap (ino : Nat) (writable : Bool)
  | fault (k index : Nat)
  | mprotect (k : Nat) (writable : Bool)
  | fork (k : Nat)
  | unmapPage (k index : Nat)
  | munmap (k : Nat) (last : Bool)

/-- `last` can only be the answer of `iput` when nothing else refers to the inode. -/
def Op.holding (held : Nat → Bool) : Op → Op
  | .unlink dir ino entry last => .unlink dir ino entry (last && !held ino)
  | .rmdir dir ino empty entry last => .rmdir dir ino empty entry (last && !held ino)
  | .iput ino last => .iput ino (last && !held ino)
  | op => op

/-- The page that a fault maps; a mapping without `VM_WRITE` asks for no block. -/
def faultPage (writable : Bool) (index : Nat) : InodeOp Nat := fun fs inode =>
  if writable then pageCacheGetMapping index fs inode
  else
    match pageCacheReadMapping fs inode index with
    | (ret, fs) => (ret, fs, inode)

/-- `ext2_truncate_inode` of a file. -/
def truncateFile (size : Nat) : InodeOp Unit := fun fs inode =>
  if inode.isFile then ext2TruncateInode size fs inode else (.error .einval, fs, inode)

namespace MapState

/-- A mapping refers to the inode. -/
def mapped (s : MapState) (ino : Nat) : Bool := s.mappings.any fun m => m.ino == ino

/-- Change one mapping. -/
def onMapping (s : MapState) (k : Nat) (change : Mapping → Mapping) : MapState :=
  match s.mappings[k]? with
  | none => s
  | some m => { s with mappings := s.mappings.set k (change m) }

/-- `mm_mmap_file` with `MAP_SHARED`, which asks for `S_ISREG`. -/
def mmap (s : MapState) (ino : Nat) (writable : Bool) : MapState :=
  match s.sys.inodes ino with
  | none => s
  | some inode =>
    if inode.iType = .reg then { s with mappings := s.mappings ++ [⟨ino, writable, []⟩] }
    else s

/-- `fault_in_user_page_locked` at page `index` of a mapping. -/
def fault (s : MapState) (k index : Nat) : MapState :=
  match s.mappings[k]? with
  | none => s
  | some m =>
    if m.ptes.any (fun pte => pte.1 == index) then s
    else
      match s.sys.onInode m.ino (faultPage m.writable index) with
      -- after `-ENODATA` the entry shows a page of zeros that is in no cache
      | (.error _, sys) => { s with sys := sys }
      | (.ok block, sys) =>
        ⟨sys, s.mappings.set k { m with ptes := (index, block) :: m.ptes }⟩

/-- `dup_mm` copies the area and leaves its pages to later faults. -/
def fork (s : MapState) (k : Nat) : MapState :=
  match s.mappings[k]? with
  | none => s
  | some m => { s with mappings := s.mappings ++ [{ m with ptes := [] }] }

/-- `mm_munmap` of a whole area, which puts its file. -/
def munmap (s : MapState) (k : Nat) (last : Bool) : MapState :=
  match s.mappings[k]? with
  | none => s
  | some m =>
    let rest : MapState := { s with mappings := s.mappings.eraseIdx k }
    { rest with sys := iput s.sys m.ino (last && !rest.mapped m.ino) }

def exec (s : MapState) : MapOp → MapState
  | .call op => { s with sys := s.sys.exec (op.holding s.mapped) }
  | .truncate ino size => { s with sys := (s.sys.onInode ino (truncateFile size)).2 }
  | .mmap ino writable => s.mmap ino writable
  | .fault k index => s.fault k index
  | .mprotect k writable => s.onMapping k fun m => { m with writable := writable }
  | .fork k => s.fork k
  | .unmapPage k index =>
    s.onMapping k fun m => { m with ptes := m.ptes.filter fun pte => pte.1 != index }
  | .munmap k last => s.munmap k last

def Step (s : MapState) (op : MapOp) (s' : MapState) : Prop := s' = s.exec op

end MapState

/-- The types whose inodes have `i_block[]` for block pointers, whatever their size. -/
def FileType.isPlain : FileType → Bool
  | .lnk | .chr | .blk => false
  | _ => true

namespace MapState

/-- No entry shows a block that another inode has, that is a pointer block, or that is
one of `metadata`: if an inode has the block at all, it is the inode of the mapping, and
at the page of the entry. -/
def Isolated (metadata : Nat → Prop) (s : MapState) : Prop :=
  ∀ m ∈ s.mappings, ∀ pte ∈ m.ptes, ¬ metadata pte.2 ∧
    ∀ ino inode, s.sys.inodes ino = some inode → pte.2 ∈ inode.owned →
      ino = m.ino ∧ s.sys.fs.blockAt inode pte.1 = pte.2 ∧ pte.2 ∉ s.sys.fs.inodeInner inode

/-- Truncation spares the pages that are mapped; and no inode is made or dropped whose
`i_block[]` holds something else than block pointers. -/
def Spares (s : MapState) : MapOp → Prop
  | .call op =>
    op.Allowed (fun ino => ∀ inode, s.sys.inodes ino = some inode → inode.iType.isPlain = true)
      fun iType => iType.isPlain = true
  | .truncate ino size =>
    ∀ inode, s.sys.inodes ino = some inode → size < inode.iSize →
      ∀ m ∈ s.mappings, m.ino = ino → ∀ pte ∈ m.ptes, pte.1 * blockSize < size
  | _ => True

end MapState

/-! ## What the calls leave alone -/

namespace System

/-- Inode `ino` is a file with `block` at part `index`. -/
def FileBlock (s : System) (ino index block : Nat) : Prop :=
  ∃ inode, s.inodes ino = some inode ∧ inode.isFile = true ∧ s.fs.blockAt inode index = block

/-- The block is in use, but not by an inode. -/
def Reserved (s : System) (block : Nat) : Prop :=
  s.fs.BlockUsed block ∧ ∀ ino inode, s.inodes ino = some inode → block ∉ inode.owned

end System

variable {inode : Inode}

theorem FileType.holdsPointers (h : inode.iType.isPlain = true) : inode.holdsPointers = true := by
  cases htype : inode.iType <;>
    simp [FileType.isPlain, Inode.holdsPointers, Inode.isDevice, htype] at h ⊢

variable {fs fs' : Volume} {inode' : Inode}

theorem Confined.isFile (h : Confined fs inode fs' inode') : inode'.isFile = inode.isFile := by
  rw [Inode.isFile, Inode.isFile, h.iType]

variable {index block size : Nat}

/-- Blocks stay where the pages stay. -/
theorem System.FileBlock.congr {s s' : System} {ino : Nat} (h : s.FileBlock ino index block)
    (hinodes : s'.inodes ino = s.inodes ino) (hpage : s'.fs.page = s.fs.page) :
    s'.FileBlock ino index block := by
  obtain ⟨a, ha, hfile, rfl⟩ := h
  exact ⟨a, hinodes.trans ha, hfile, blockAt_congr rfl (fun n _ => congrFun hpage n) index⟩

section Put

variable {s : System} {ino : Nat} {inode inode' : Inode} {fs' : Volume}
  (hinode : s.inodes ino = some inode) (hconf : Confined s.fs inode fs' inode')
include hinode hconf

/-- Work on an inode leaves the types. -/
theorem iType_put {i : Nat} {a : Inode} (ha : s.inodes i = some a) :
    ∃ a', ({ s with fs := fs' }.setInode ino (some inode')).inodes i = some a' ∧
      a'.iType = a.iType := by
  by_cases hne : i = ino
  · rw [hne, hinode] at ha
    cases ha
    exact ⟨inode', by rw [hne]; exact setInode_self .., hconf.iType⟩
  · exact ⟨a, (setInode_ne _ hne _).trans ha, rfl⟩

/-- Work on an inode leaves the parts of other files where they are. -/
theorem fileBlock_put (hcons : Consistent s) {i : Nat} (h : s.FileBlock i index block)
    (hkept : i = ino → inode.isFile = true → s.fs.blockAt inode index = block →
      fs'.blockAt inode' index = block) :
    ({ s with fs := fs' }.setInode ino (some inode')).FileBlock i index block := by
  obtain ⟨a, ha, hfile, hblock⟩ := h
  by_cases hne : i = ino
  · rw [hne, hinode] at ha
    cases ha
    exact ⟨inode', by rw [hne]; exact setInode_self .., hconf.isFile.trans hfile,
      hkept hne hfile hblock⟩
  · refine ⟨a, by rw [setInode_ne _ hne, ha], hfile, ?_⟩
    have hsound := hcons.sound i a ha
    rw [← hblock]
    apply blockAt_congr rfl
    intro n hn
    have hmem := (hsound.mapped (Inode.holdsPointers_of_isFile hfile).1).inner_mem hn
    exact hconf.page n (hsound.used n hmem) (hcons.disjoint i ino a inode hne ha hinode n hmem)

/-- Work on an inode takes no reserved block. -/
theorem reserved_put {b : Nat} (h : s.Reserved b) :
    ({ s with fs := fs' }.setInode ino (some inode')).Reserved b := by
  obtain ⟨hused, hnone⟩ := h
  refine ⟨hconf.keeps b hused (hnone ino inode hinode), fun i a ha => ?_⟩
  by_cases hne : i = ino
  · rw [hne, setInode_self] at ha
    cases ha
    intro hmem
    exact (hconf.fresh b hmem).elim (hnone ino inode hinode) fun hunused => hunused hused
  · rw [setInode_ne _ hne] at ha
    exact hnone i a ha

end Put

/-- What is kept while calls run that do not drop the inodes in `keep`.  All other
inodes have block pointers, so that dropping them is sound. -/
structure Held (keep : Nat → Prop) (s₀ s : System) : Prop where
  inv : Inv s
  allOk : AllOk s.evictions
  live : ∀ ino, keep ino → ∃ inode₀ inode, s₀.inodes ino = some inode₀ ∧
    s.inodes ino = some inode ∧ inode.iType = inode₀.iType
  plain : ∀ ino inode, ¬ keep ino → s.inodes ino = some inode → inode.iType.isPlain = true
  blocks : ∀ ino index block, keep ino → block ≠ 0 → s₀.FileBlock ino index block →
    s.FileBlock ino index block
  reserved : ∀ b, s₀.Reserved b → s.Reserved b

variable {ino : Nat}
variable {ret : Except Errno Nat}

namespace Held

variable {keep : Nat → Prop} {s₀ s s' : System}

variable (h : Held keep s₀ s)
include h

/-- Work on one inode that takes no part from it. -/
theorem put (hinode : s.inodes ino = some inode) (hconf : Confined s.fs inode fs' inode')
    (hsound : Sound fs' inode')
    (hkept : inode.isFile = true → ∀ index, s.fs.blockAt inode index ≠ 0 →
      fs'.blockAt inode' index = s.fs.blockAt inode index) :
    Held keep s₀ ({ s with fs := fs' }.setInode ino (some inode')) := by
  obtain ⟨hcons, hio⟩ := h.inv.good h.allOk
  refine ⟨⟨fun _ => ⟨hcons.put hinode hconf hsound, hio.of_answers hconf.answers⟩,
    h.inv.judged⟩, h.allOk, fun i hi => ?_, fun i a hi ha => ?_, fun i index block hi hne hold => ?_,
    fun b hb => reserved_put hinode hconf (h.reserved b hb)⟩
  · obtain ⟨a0, a, ha0, ha, htype⟩ := h.live i hi
    obtain ⟨a', ha', htype'⟩ := iType_put hinode hconf ha
    exact ⟨a0, a', ha0, ha', htype'.trans htype⟩
  · by_cases hne : i = ino
    · rw [hne, setInode_self] at ha
      cases ha
      rw [hconf.iType]
      exact h.plain ino inode (hne ▸ hi) hinode
    · rw [setInode_ne _ hne] at ha
      exact h.plain i a hi ha
  · refine fileBlock_put hinode hconf hcons (h.blocks i index block hi hne hold)
      fun _ hfile hblock => ?_
    rw [← hblock] at hne ⊢
    exact hkept hfile index hne

/-- An inode that is not kept goes. -/
theorem forget (hdrop : ¬ keep ino) :
    Held keep s₀ (inodeForget s ino) := by
  obtain ⟨hcons, hio⟩ := h.inv.good h.allOk
  have hforgets := forgets_inodeForget hcons hio ino
  have hholds := fun inode hinode => FileType.holdsPointers (h.plain ino inode hdrop hinode)
  have hother : ∀ i, keep i → (inodeForget s ino).inodes i = s.inodes i := by
    intro i hi
    have hne : i ≠ ino := fun heq => hdrop (heq ▸ hi)
    rw [hforgets.inodes, Function.update_of_ne hne]
  refine ⟨h.inv.forget ino, ?_, fun i hi => ?_,
    fun i a hi ha => h.plain i a hi (hforgets.inode_of ha).2,
    fun i index block hi hne hold => ?_, fun b hb => ?_⟩
  · rcases evictions_inodeForget s ino with ⟨hlog, -⟩ | ⟨inode, hinode, hlog⟩
    · rw [hlog]
      exact h.allOk
    · rw [hlog]
      exact List.forall_mem_cons.mpr ⟨.inl (hholds inode hinode), h.allOk⟩
  · rw [hother i hi]
    exact h.live i hi
  · exact (h.blocks i index block hi hne hold).congr (hother i hi) hforgets.page
  · obtain ⟨hused, hnone⟩ := h.reserved b hb
    refine ⟨hforgets.keeps b hused fun inode hinode _ hmem => hnone ino inode hinode ?_,
      fun i a ha => hnone i a (hforgets.inode_of ha).2⟩
    exact (((hcons.sound ino inode hinode).mapped (hholds inode hinode)).mem_iff b).mp hmem

/-- A new inode has a number that is not kept. -/
theorem newInode {iType : FileType} {iNlink iSize : Nat} (hplain : iType.isPlain = true)
    (hmakes : MakesInode iType iNlink iSize s ret s') :
    Held keep s₀ s' ∧ ∀ ino, ret = .ok ino → ¬ keep ino ∧ (AllOk s'.evictions →
      s'.inodes ino = some (freshInode ino iType iNlink iSize [])) := by
  obtain ⟨hcons, hio⟩ := h.inv.good h.allOk
  have hnot : ∀ ino, ret = .ok ino → ¬ keep ino := by
    intro ino hret hkeep
    obtain ⟨-, a, -, ha, -⟩ := h.live ino hkeep
    rw [hmakes.none hcons hret] at ha
    cases ha
  have hfresh : ∀ ino, ret = .ok ino →
      s'.inodes ino = some (freshInode ino iType iNlink iSize []) := by
    intro ino hret
    rw [hmakes.eq_setInode hcons hret]
    exact Function.update_self ..
  -- the inodes that were there are there
  have hold : ∀ i, (∃ a, s.inodes i = some a) → s'.inodes i = s.inodes i := by
    rintro i ⟨a, ha⟩
    cases ret with
    | error e => rw [hmakes.failed e rfl]
    | ok ino =>
      rw [hmakes.eq_setInode hcons rfl]
      apply Function.update_of_ne
      rintro rfl
      rw [hmakes.none hcons rfl] at ha
      cases ha
  refine ⟨⟨h.inv.newInode hmakes, ?_, fun i hi => ?_, fun i a hi ha => ?_,
    fun i index block hi hne hblock => ?_, fun b hb => ?_⟩,
    fun ino hret => ⟨hnot ino hret, fun _ => hfresh ino hret⟩⟩
  · rw [hmakes.evictions]
    exact h.allOk
  · obtain ⟨a0, a, ha0, ha, htype⟩ := h.live i hi
    exact ⟨a0, a, ha0, by rw [hold i ⟨a, ha⟩, ha], htype⟩
  · rcases hmakes.inode_cases hcons ha with ha | ⟨-, rfl⟩
    · exact h.plain i a hi ha
    · exact hplain
  · have hnow := h.blocks i index block hi hne hblock
    exact hnow.congr (hold i ⟨_, hnow.choose_spec.1⟩) hmakes.page
  · obtain ⟨hused, hnone⟩ := h.reserved b hb
    refine ⟨(hmakes.blockUsed b).mpr hused, fun i a ha => ?_⟩
    rcases hmakes.inode_cases hcons ha with ha | ⟨-, rfl⟩
    · exact hnone i a ha
    · exact List.not_mem_nil

end Held

theorem rules_held (keep : Nat → Prop) (s₀ : System) :
    Rules (Held keep s₀) (fun ino => ¬ keep ino) fun iType => iType.isPlain = true where
  onInode {s} _ ino op h hop := by
    unfold System.onInode
    cases hinode : s.inodes ino with
    | none => exact h
    | some inode =>
      obtain ⟨hcons, hio⟩ := h.inv.good h.allOk
      have hserves := hop h.allOk inode hinode hcons hio
      exact h.put hinode hserves.works.1.confined hserves.works.2
        fun hfile index hne => hserves.kept hfile index hne
  forget h hdrop := h.forget hdrop
  newInode h hplain hmakes := h.newInode hplain hmakes

/-! ## Truncation -/

/-- Work on one inode that leaves the parts in `stays` where they are. -/
structure Trims (stays : Nat → Prop) (fs : Volume) (inode : Inode) (fs' : Volume)
    (inode' : Inode) : Prop where
  confined : Confined fs inode fs' inode'
  owns : Owns fs' inode'
  kept : ∀ index, stays index → fs.blockAt inode index ≠ 0 →
    fs'.blockAt inode' index = fs.blockAt inode index

section Truncating

variable {stays : Nat → Prop} {fs fs1 fs' : Volume} {inode inode₁ inode' : Inode}

theorem Trims.trans (h1 : Trims stays fs inode fs1 inode₁)
    (h2 : Trims stays fs1 inode₁ fs' inode') : Trims stays fs inode fs' inode' := by
  have hconf := h1.confined
  have hconf' := h2.confined
  -- a block in use that the inode does not own is still of this kind in between
  have hout : ∀ b, fs.BlockUsed b → b ∉ inode.owned → fs1.BlockUsed b ∧ b ∉ inode₁.owned :=
    fun b hb hnot => ⟨hconf.keeps b hb hnot, fun hmem =>
      (hconf.fresh b hmem).elim hnot fun hunused => hunused hb⟩
  refine ⟨⟨hconf'.sb.trans hconf.sb, hconf'.inodeBitmap.trans hconf.inodeBitmap,
    hconf'.answers.trans hconf.answers, hconf'.ino.trans hconf.ino,
    hconf'.iType.trans hconf.iType, fun b hb hnot => ?_, fun b hb hnot => ?_, fun b hb => ?_⟩,
    h2.owns, fun index hstays hne => ?_⟩
  · obtain ⟨hb1, hnot1⟩ := hout b hb hnot
    exact hconf'.keeps b hb1 hnot1
  · obtain ⟨hb1, hnot1⟩ := hout b hb hnot
    rw [hconf'.page b hb1 hnot1, hconf.page b hb hnot]
  · rcases hconf'.fresh b hb with hmem | hunused
    · exact hconf.fresh b hmem
    · by_cases hmem : b ∈ inode.owned
      · exact .inl hmem
      · exact .inr fun hused => hunused (hout b hused hmem).1
  · have hfirst := h1.kept index hstays hne
    rw [h2.kept index hstays (hfirst ▸ hne), hfirst]

/-- Fields change that say nothing about blocks. -/
theorem trims_of_quiet (h : Owns fs inode) (hq : Volume.Quiet fs fs')
    (hino : inode'.ino = inode.ino := by rfl) (hiType : inode'.iType = inode.iType := by rfl)
    (hiBlock : inode'.iBlock = inode.iBlock := by rfl)
    (howned : inode'.owned = inode.owned := by rfl) : Trims stays fs inode fs' inode' where
  confined := by
    refine ⟨hq.sb, hq.inodeBitmap, hq.answers, hino, hiType,
      fun b hb _ => (hq.blockUsed b).mpr hb, fun b _ _ => congrFun hq.page b, fun b hb => ?_⟩
    rw [howned] at hb
    exact .inl hb
  owns := h.congr hiBlock howned (fun n _ => congrFun hq.page n)
    fun b hb => (hq.blockUsed b).mpr (h.used b hb)
  kept index _ _ := blockAt_congr hiBlock (fun n _ => congrFun hq.page n) index

theorem Shrinks.trims {keep : Nat} {ret : Except Errno Unit}
    (hshrinks : Shrinks keep fs inode ret fs' inode') (h : Owns fs inode)
    (hino : inode'.ino = inode.ino) (hiType : inode'.iType = inode.iType)
    (hkeep : ∀ index, stays index → index < keep) : Trims stays fs inode fs' inode' where
  confined := by
    refine ⟨hshrinks.sb, hshrinks.inodeBitmap, hshrinks.answers, hino, hiType,
      fun b hb hnot => (hshrinks.used b).mpr ⟨hb, fun hmem => absurd hmem hnot⟩,
      fun b _ hnot => hshrinks.page b fun hinner => hnot (h.inner_mem hinner),
      fun b hb => .inl (hshrinks.owned b hb)⟩
  owns := hshrinks.owns
  kept index hstays _ :=
    (hshrinks.part index).1.resolve_right fun hgone => Nat.not_le.mpr (hkeep index hstays) hgone.2

theorem TailZeroed.trims (htail : TailZeroed size fs inode fs') (h : Owns fs inode) :
    Trims stays fs inode fs' inode := by
  rcases htail with ⟨hq, -⟩ | ⟨hne, -, hq⟩
  · exact trims_of_quiet h hq
  · have hleaf := blockAt_mem_leaves hne
    obtain ⟨howns, htouch⟩ := h.setPage_leaf hleaf
      (zeroFrom (size % blockSize) (fs.page (fs.blockAt inode (size / blockSize))))
    have hstore : Trims stays fs inode (fs.setPage (fs.blockAt inode (size / blockSize))
        (zeroFrom (size % blockSize) (fs.page (fs.blockAt inode (size / blockSize))))) inode :=
      ⟨htouch.confined, howns, fun index _ _ => h.blockAt_setPage hleaf _ index⟩
    exact hstore.trans (trims_of_quiet howns hq)

variable (h : Owns fs inode)
include h

theorem trims_ext2WriteInode (hdev : inode.isDevice = false) :
    Trims stays fs inode (ext2WriteInode fs inode).2.1 (ext2WriteInode fs inode).2.2 := by
  rw [ext2WriteInode_inode fs inode hdev]
  exact trims_of_quiet h (quiet_ext2WriteInode fs inode)

theorem trims_setSizeAndWrite (hdev : inode.isDevice = false) (size : Nat) :
    Trims stays fs inode (setSizeAndWrite size fs inode).2.1
      (setSizeAndWrite size fs inode).2.2 := by
  unfold setSizeAndWrite
  have hquiet := quiet_ext2InodeTreeBlocks fs inode
  generalize ext2InodeTreeBlocks fs inode = r at hquiet ⊢
  obtain ⟨blocks, fs1⟩ := r
  have hfields : Trims stays fs inode fs1 { inode with
      iSize := size
      iBlocks := blocks * 8 % uint32Modulus } := trims_of_quiet h hquiet
  exact hfields.trans (trims_ext2WriteInode hfields.owns hdev)

/-- `ext2_truncate_inode` of a file, whatever it returns, leaves the parts below the new
size. -/
theorem trims_ext2TruncateInode (hio : fs.PagesAvailable)
    (hdev : inode.isDevice = false) (size : Nat)
    (hstays : size < inode.iSize → ∀ index, stays index → index * blockSize < size) :
    Trims stays fs inode (ext2TruncateInode size fs inode).2.1
      (ext2TruncateInode size fs inode).2.2 := by
  have hrefl : Trims stays fs inode fs inode := trims_of_quiet h (.refl fs)
  unfold ext2TruncateInode
  split_ifs with hbig hsame hzero hshrink
  · exact hrefl
  · exact hrefl
  · have hnone : ∀ index, stays index → index < 0 := by
      intro index hindex
      have hlt := hstays (by omega) index hindex
      omega
    have hshrinks := ext2FreeInodeBlocks_shrinks h hio (.ok ())
    have hdev' : ((ext2FreeInodeBlocks fs inode).2.dropFreed
        (ext2FreeInodeBlocks fs inode).1).isDevice = false := hdev
    have hcut : Trims stays fs inode _ _ := hshrinks.trims h rfl rfl hnone
    exact hcut.trans (trims_ext2WriteInode hcut.owns hdev')
  · have hkeep : ∀ index, stays index → index < (size + blockSize - 1) / blockSize := by
      intro index hindex
      have hlt := hstays hshrink index hindex
      have hbs : blockSize = 4096 := rfl
      rw [hbs] at hlt ⊢
      omega
    obtain ⟨htail, -⟩ := @ext2ZeroTruncateTail_spec fs inode size hio (by omega)
    have htrim : Trims stays fs inode _ inode := htail.trims h
    generalize ext2ZeroTruncateTail size fs inode = r at htrim ⊢
    obtain ⟨ret1, fs1⟩ := r
    cases ret1 with
    | error e => exact htrim
    | ok u =>
      dsimp only
      generalize hslots : truncateSlots (List.range nBlocks)
        ((size + blockSize - 1) / blockSize) fs1 inode = r
      obtain ⟨ret2, fs2, inode₂⟩ := r
      obtain ⟨hshrinks, hinode, -⟩ := truncateSlots_shrinks htrim.owns
        (hio.of_answers htrim.confined.answers) _ hslots
      have hcut : Trims stays fs inode fs2 (inode₂.dropFreed fs2) :=
        htrim.trans (hshrinks.trims htrim.owns (by rw [hinode]; rfl) (by rw [hinode]; rfl) hkeep)
      cases ret2 with
      | error e => exact hcut
      | ok u =>
        have hdev2 : (inode₂.dropFreed fs2).isDevice = false := by
          rw [Inode.isDevice, hcut.confined.iType]
          exact hdev
        exact hcut.trans (trims_setSizeAndWrite hcut.owns hdev2 size)
  · obtain ⟨-, htail⟩ := @ext2ZeroExtendTail_spec fs inode inode.iSize hio (by omega)
    have htrim : Trims stays fs inode _ inode := htail.trims h
    generalize ext2ZeroExtendTail inode.iSize fs inode = r at htrim ⊢
    obtain ⟨ret1, fs1⟩ := r
    cases ret1 with
    | error e => exact htrim
    | ok u => exact htrim.trans (trims_setSizeAndWrite htrim.owns hdev size)

end Truncating

/-! ## Runs -/

variable {op : MapOp}

namespace MapState

/-- Every entry shows the block that its own file has at the page of the entry. -/
structure Good (metadata : Nat → Prop) (s : MapState) : Prop where
  inv : Inv s.sys
  allOk : AllOk s.sys.evictions
  live : ∀ m ∈ s.mappings, ∃ inode, s.sys.inodes m.ino = some inode ∧ inode.iType = .reg
  shows : ∀ m ∈ s.mappings, ∀ pte ∈ m.ptes, pte.2 ≠ 0 ∧ s.sys.FileBlock m.ino pte.1 pte.2
  reserved : ∀ b, metadata b → s.sys.Reserved b

variable {metadata : Nat → Prop} {s s' : MapState}

section

variable (h : Good metadata s)
include h

theorem Good.isolated : s.Isolated metadata := by
  intro m hm pte hpte
  obtain ⟨hcons, -⟩ := h.inv.good h.allOk
  obtain ⟨hne, a, ha, hfile, hblock⟩ := h.shows m hm pte hpte
  have howns := (hcons.sound m.ino a ha).mapped (Inode.holdsPointers_of_isFile hfile).1
  rw [← hblock] at hne
  have hleaf := blockAt_mem_leaves hne
  have hmem := howns.leaf_mem hleaf
  rw [hblock] at hleaf hmem
  refine ⟨fun hmeta => (h.reserved _ hmeta).2 m.ino a ha hmem, fun ino inode hinode hown => ?_⟩
  by_cases hino : ino = m.ino
  · subst hino
    rw [ha] at hinode
    cases hinode
    exact ⟨rfl, hblock, Lib.PtrTree.not_mem_rootInner_of_leaf howns.nodup_inodeBlocks hleaf⟩
  · exact absurd hmem (hcons.disjoint ino m.ino inode a hino hinode ha _ hown)

variable {mappings : List Mapping}

/-- Only the list of mappings changes, and by entries that may be there. -/
theorem Good.remap (hmappings : ∀ m ∈ mappings,
      (∃ inode, s.sys.inodes m.ino = some inode ∧ inode.iType = .reg) ∧
        ∀ pte ∈ m.ptes, pte.2 ≠ 0 ∧ s.sys.FileBlock m.ino pte.1 pte.2) :
    Good metadata { s with mappings := mappings } :=
  ⟨h.inv, h.allOk, fun m hm => (hmappings m hm).1, fun m hm => (hmappings m hm).2, h.reserved⟩

/-- Mappings that show nothing that was not shown before. -/
theorem Good.fewer (hsub : ∀ m ∈ mappings, ∃ m' ∈ s.mappings, m.ino = m'.ino ∧ m.ptes ⊆ m'.ptes) :
    Good metadata { s with mappings := mappings } := by
  refine h.remap fun m hm => ?_
  obtain ⟨m', hm', hino, hptes⟩ := hsub m hm
  rw [hino]
  exact ⟨h.live m' hm', fun pte hpte => h.shows m' hm' pte (hptes hpte)⟩

/-- Work on one inode that leaves it the parts that are mapped. -/
theorem Good.put
    (hinode : s.sys.inodes ino = some inode) (hconf : Confined s.sys.fs inode fs' inode')
    (hsound : Sound fs' inode')
    (hkept : inode.isFile = true → ∀ m ∈ s.mappings, m.ino = ino → ∀ pte ∈ m.ptes,
      s.sys.fs.blockAt inode pte.1 ≠ 0 →
      fs'.blockAt inode' pte.1 = s.sys.fs.blockAt inode pte.1) :
    Good metadata { s with sys := { s.sys with fs := fs' }.setInode ino (some inode') } := by
  obtain ⟨hcons, hio⟩ := h.inv.good h.allOk
  refine ⟨⟨fun _ => ⟨hcons.put hinode hconf hsound, hio.of_answers hconf.answers⟩,
    h.inv.judged⟩, h.allOk, fun m hm => ?_, fun m hm pte hpte => ?_,
    fun b hb => reserved_put hinode hconf (h.reserved b hb)⟩
  · obtain ⟨a, ha, htype⟩ := h.live m hm
    obtain ⟨a', ha', htype'⟩ := iType_put hinode hconf ha
    exact ⟨a', ha', htype'.trans htype⟩
  · obtain ⟨hne, hold⟩ := h.shows m hm pte hpte
    refine ⟨hne, fileBlock_put hinode hconf hcons hold fun hino hfile hblock => ?_⟩
    rw [← hblock] at hne ⊢
    exact hkept hfile m hm hino pte hpte hne

end

/-- The inodes that the calls of one step must not drop. -/
def Keep (s : MapState) (ino : Nat) : Prop :=
  s.mapped ino = true ∨ ∃ inode, s.sys.inodes ino = some inode ∧ inode.iType.isPlain = false

theorem mapped_of_mem {m : Mapping} (hm : m ∈ s.mappings) : s.mapped m.ino = true :=
  List.any_eq_true.mpr ⟨m, hm, beq_self_eq_true m.ino⟩

theorem Good.held (h : Good metadata s) : Held s.Keep s.sys s.sys where
  inv := h.inv
  allOk := h.allOk
  live ino hkeep := by
    rcases hkeep with hmapped | ⟨inode, hinode, -⟩
    · obtain ⟨m, hm, heq⟩ := List.any_eq_true.mp hmapped
      obtain ⟨inode, hinode, -⟩ := h.live m hm
      rw [beq_iff_eq] at heq
      rw [heq] at hinode
      exact ⟨inode, inode, hinode, hinode, rfl⟩
    · exact ⟨inode, inode, hinode, hinode, rfl⟩
  plain ino inode hkeep hinode := by
    rw [← Bool.not_eq_false]
    exact fun hnot => hkeep (.inr ⟨inode, hinode, hnot⟩)
  blocks _ _ _ _ _ hold := hold
  reserved _ hb := hb

/-- Calls that drop no inode with a mapping. -/
theorem Good.of_held (h : Good metadata s) {sys : System} (hheld : Held s.Keep s.sys sys) :
    Good metadata { s with sys := sys } where
  inv := hheld.inv
  allOk := hheld.allOk
  live m hm := by
    obtain ⟨a0, a, ha0, ha, htype⟩ := hheld.live m.ino (.inl (mapped_of_mem hm))
    obtain ⟨b, hb, hreg⟩ := h.live m hm
    rw [hb] at ha0
    cases ha0
    exact ⟨a, ha, htype.trans hreg⟩
  shows m hm pte hpte := by
    obtain ⟨hne, hold⟩ := h.shows m hm pte hpte
    exact ⟨hne, hheld.blocks m.ino pte.1 pte.2 (.inl (mapped_of_mem hm)) hne hold⟩
  reserved b hb := hheld.reserved b (h.reserved b hb)

theorem not_keep (hmapped : s.mapped ino = false)
    (hplain : ∀ inode, s.sys.inodes ino = some inode → inode.iType.isPlain = true) :
    ¬ s.Keep ino := by
  rintro (hyes | ⟨inode, hinode, hnot⟩)
  · rw [hmapped] at hyes
    cases hyes
  · rw [hplain inode hinode] at hnot
    cases hnot

theorem allowed_holding {op : Op}
    (hop : op.Allowed (fun ino => ∀ inode, s.sys.inodes ino = some inode →
      inode.iType.isPlain = true) fun iType => iType.isPlain = true) :
    (op.holding s.mapped).Allowed (fun ino => ¬ s.Keep ino) fun iType => iType.isPlain = true := by
  have hdrop : ∀ ino last, (last = true → ∀ inode, s.sys.inodes ino = some inode →
      inode.iType.isPlain = true) → (last && !s.mapped ino) = true → ¬ s.Keep ino := by
    intro ino last hlast hboth
    rw [Bool.and_eq_true, Bool.not_eq_true'] at hboth
    exact not_keep hboth.2 (hlast hboth.1)
  cases op with
  | unlink dir ino entry last | rmdir dir ino empty entry last | iput ino last =>
    exact hdrop ino last hop
  | create | mknod | symlink | mkdir | link | write => exact hop

theorem Good.truncate (h : Good metadata s) (hspares : s.Spares (.truncate ino size)) :
    Good metadata (s.exec (.truncate ino size)) := by
  change Good metadata { s with sys := (s.sys.onInode ino (truncateFile size)).2 }
  unfold System.onInode
  cases hinode : s.sys.inodes ino with
  | none => exact h
  | some inode =>
    obtain ⟨hcons, hio⟩ := h.inv.good h.allOk
    have hsound := hcons.sound ino inode hinode
    dsimp only
    unfold truncateFile
    split_ifs with hfile
    · obtain ⟨hholds, hdev⟩ := Inode.holdsPointers_of_isFile hfile
      have htrims := @trims_ext2TruncateInode
        (fun index => ∃ m ∈ s.mappings, m.ino = ino ∧ ∃ pte ∈ m.ptes, pte.1 = index)
        s.sys.fs inode (hsound.mapped hholds) hio hdev size (by
          rintro hlt index ⟨m, hm, hino, pte, hpte, rfl⟩
          exact hspares inode hinode hlt m hm hino pte hpte)
      have hsound' : Sound (ext2TruncateInode size s.sys.fs inode).2.1
          (ext2TruncateInode size s.sys.fs inode).2.2 :=
        .of_owns htrims.owns (Inode.holdsPointers_of_isFile (htrims.confined.isFile.trans hfile)).1
      exact h.put hinode htrims.confined hsound' fun _ m hm hino pte hpte hne =>
        htrims.kept pte.1 ⟨m, hm, hino, pte, hpte, rfl⟩ hne
    · exact h.put hinode (Touches.refl _ _).confined hsound fun _ _ _ _ _ _ _ => rfl

theorem faultPage_spec (hsound : Sound fs inode) (hio : fs.PagesAvailable)
    (hfile : inode.isFile = true) {writable : Bool}
    (hrun : faultPage writable index fs inode = (ret, fs', inode')) :
    Serves fs inode fs' inode' ∧ ∀ b, ret = .ok b → b ≠ 0 ∧ fs'.blockAt inode' index = b := by
  unfold faultPage at hrun
  split_ifs at hrun with hwrite
  · exact serves_pageCacheGetMapping hsound hio hfile hrun
  · obtain ⟨hquiet, hret⟩ := pageCacheReadMapping_spec hio inode index
    generalize pageCacheReadMapping fs inode index = r at hrun hquiet hret
    cases hrun
    have hsame := hquiet.blockAt inode
    refine ⟨⟨⟨.of_quiet hquiet inode, hsound.quiet hquiet⟩, fun _ j _ => hsame j⟩, fun b hb => ?_⟩
    rw [hb] at hret
    split_ifs at hret with hbig hzero
    cases hret
    exact ⟨hzero, hsame index⟩

section

variable (h : Good metadata s)
include h

theorem Good.fault (k index : Nat) : Good metadata (s.exec (.fault k index)) := by
  change Good metadata (s.fault k index)
  unfold MapState.fault
  cases hm : s.mappings[k]? with
  | none => exact h
  | some m =>
    dsimp only
    split_ifs
    · exact h
    have hmem := List.mem_of_getElem? hm
    obtain ⟨inode, hinode, hreg⟩ := h.live m hmem
    have hfile : inode.isFile = true := by
      rw [Inode.isFile, hreg]
    obtain ⟨hcons, hio⟩ := h.inv.good h.allOk
    have hrun : s.sys.onInode m.ino (faultPage m.writable index) =
        ((faultPage m.writable index s.sys.fs inode).1,
          { s.sys with fs := (faultPage m.writable index s.sys.fs inode).2.1 }.setInode m.ino
            (some (faultPage m.writable index s.sys.fs inode).2.2)) := by
      unfold System.onInode
      rw [hinode]
    rw [hrun]
    generalize hpage : faultPage m.writable index s.sys.fs inode = r
    obtain ⟨ret, fs', inode'⟩ := r
    obtain ⟨hserves, hblock⟩ :=
      faultPage_spec (hcons.sound m.ino inode hinode) hio hfile hpage
    have hput := h.put hinode hserves.works.1.confined hserves.works.2
      fun _ _ _ _ pte _ hne => hserves.kept hfile pte.1 hne
    cases ret with
    | error e => exact hput
    | ok block =>
      obtain ⟨hne, hat⟩ := hblock block rfl
      have hfile' : inode'.isFile = true := hserves.works.1.isFile.trans hfile
      refine hput.remap fun m' hm' => ?_
      rcases List.mem_or_eq_of_mem_set hm' with hold | rfl
      · exact ⟨hput.live m' hold, hput.shows m' hold⟩
      · exact ⟨hput.live m hmem, List.forall_mem_cons.mpr
          ⟨⟨hne, inode', setInode_self .., hfile', hat⟩, hput.shows m hmem⟩⟩

/-- A mapping gets other flags or loses entries. -/
theorem Good.onMapping (k : Nat) {change : Mapping → Mapping}
    (hchange : ∀ m, (change m).ino = m.ino ∧ (change m).ptes ⊆ m.ptes) :
    Good metadata (s.onMapping k change) := by
  unfold MapState.onMapping
  cases hm : s.mappings[k]? with
  | none => exact h
  | some m =>
    refine h.fewer fun m' hm' => ?_
    rcases List.mem_or_eq_of_mem_set hm' with hold | rfl
    · exact ⟨m', hold, rfl, fun _ => id⟩
    · exact ⟨m, List.mem_of_getElem? hm, hchange m⟩

theorem Good.mmap (ino : Nat) (writable : Bool) : Good metadata (s.mmap ino writable) := by
  unfold MapState.mmap
  cases hinode : s.sys.inodes ino with
  | none => exact h
  | some inode =>
    dsimp only
    split_ifs with hreg
    · refine h.remap fun m hm => ?_
      rcases List.mem_append.mp hm with hm | hm
      · exact ⟨h.live m hm, h.shows m hm⟩
      · rw [List.mem_singleton.mp hm]
        exact ⟨⟨inode, hinode, hreg⟩, fun _ hpte => by cases hpte⟩
    · exact h

theorem Good.fork (k : Nat) : Good metadata (s.fork k) := by
  unfold MapState.fork
  cases hm : s.mappings[k]? with
  | none => exact h
  | some m =>
    refine h.fewer fun m' hm' => ?_
    rcases List.mem_append.mp hm' with hm' | hm'
    · exact ⟨m', hm', rfl, fun _ => id⟩
    · rw [List.mem_singleton.mp hm']
      exact ⟨m, List.mem_of_getElem? hm, rfl, List.nil_subset _⟩

theorem Good.munmap (k : Nat) (last : Bool) : Good metadata (s.munmap k last) := by
  unfold MapState.munmap
  cases hm : s.mappings[k]? with
  | none => exact h
  | some m =>
    have hrest : Good metadata { s with mappings := s.mappings.eraseIdx k } :=
      h.fewer fun m' hm' => ⟨m', List.mem_of_mem_eraseIdx hm', rfl, fun _ => id⟩
    refine hrest.of_held ((rules_held _ _).iput hrest.held fun hlast => ?_)
    rw [Bool.and_eq_true, Bool.not_eq_true'] at hlast
    refine not_keep hlast.2 fun inode hinode => ?_
    obtain ⟨a, ha, hreg⟩ := h.live m (List.mem_of_getElem? hm)
    rw [show s.sys.inodes m.ino = some inode from hinode] at ha
    cases ha
    rw [hreg]
    rfl

theorem Good.exec (hop : s.Spares op) : Good metadata (s.exec op) := by
  cases op with
  | call op =>
    exact h.of_held ((rules_held s.Keep s.sys).exec h.held (allowed_holding hop))
  | truncate ino size => exact h.truncate hop
  | mmap ino writable => exact h.mmap ino writable
  | fault k index => exact h.fault k index
  | mprotect k writable => exact h.onMapping k fun m => ⟨rfl, fun _ => id⟩
  | fork k => exact h.fork k
  | unmapPage k index => exact h.onMapping k fun m => ⟨rfl, fun _ => List.mem_of_mem_filter⟩
  | munmap k last => exact h.munmap k last

end

end MapState

/-- The volume with its root directory, without mappings. -/
def unmapped : MapState := ⟨smallSystem, []⟩

/-- A file of five bytes is mapped and its page faulted in. -/
def mapFile : List MapOp :=
  [.call (.create 2 (.full fun _ => 0) .reg), .call (.write 3 (fun _ => 1) 5 0),
    .mmap 3 true, .fault 0 0]

/-- A second file of five bytes. -/
def secondFile : List MapOp :=
  [.call (.create 2 (.room 0 fun _ => 0) .reg), .call (.write 4 (fun _ => 2) 5 0)]

def MapState.run (s : MapState) (ops : List MapOp) : MapState := ops.foldl MapState.exec s

theorem MapState.runs_cons {s : MapState} {ops : List MapOp} (hop : s.Spares op)
    (hrest : Runs MapState.Step MapState.Spares (s.exec op) ((s.exec op).run ops)) :
    Runs MapState.Step MapState.Spares s (s.run (op :: ops)) :=
  .head ⟨op, hop, rfl⟩ hrest

theorem reserved_unmapped (b : Nat) (hb : b < 120) : unmapped.sys.Reserved b := by
  have hused : ∀ b < 120, smallVolume.BlockUsed b := by decide +kernel
  refine ⟨hused b hb, fun ino inode hinode => ?_⟩
  change (if ino = 2 then some rootDir else none) = some inode at hinode
  split_ifs at hinode
  cases hinode
  exact List.not_mem_nil

end CuteOS.Fs.Ext2
