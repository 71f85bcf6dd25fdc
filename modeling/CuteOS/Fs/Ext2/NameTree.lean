/-
  Fs/Ext2/NameTree.lean --- the tree that the directories of a volume spell out.

  `View` says that a volume in use is in order and which tree its directories spell
  out.  For each thing that the calls are made of, a lemma tells what it does to that
  tree.  Work that may fail does so without changing the tree, as long as the records of
  directories can be read and written.
-/
import CuteOS.Fs.Ext2.Names
import CuteOS.Lib.LinkTree

set_option autoImplicit false

namespace CuteOS.Fs.Ext2

open Lib Lib.LinkTree Directory
open Function (update update_self update_apply update_of_ne update_eq_self)

/-! ## Volumes in order -/

/-- Freeing the inode frees no block but its own: `i_block[]` holds pointers, or its direct
words name no block of the volume and the others, whose blocks `ext2_free_indirect_chain`
would read, are zero. -/
def Inode.Harmless (sb : SbInfo) (inode : Inode) : Prop :=
  inode.holdsPointers = true ∨
    (∀ i < ndirBlocks, inode.iBlock i = 0 ∨ ¬ sb.HasBlock (inode.iBlock i)) ∧
      (∀ i < nBlocks, ndirBlocks ≤ i → inode.iBlock i = 0) ∧
      (inode.isDevice = true →
        ext2EncodeDev inode.iRdev = 0 ∨ ¬ sb.HasBlock (ext2EncodeDev inode.iRdev))

/-- The words that a short target leaves in `i_block[]` name no block of the volume, and those
after the direct ones are zero. -/
def HarmlessTarget (sb : SbInfo) (target : List UInt8) : Prop :=
  target.length ≤ 4 * nBlocks →
    (∀ i < ndirBlocks, inlineWord target i = 0 ∨ ¬ sb.HasBlock (inlineWord target i)) ∧
      ∀ i < nBlocks, ndirBlocks ≤ i → inlineWord target i = 0

variable {inode : Inode}

theorem Inode.Harmless.writeInode {sb : SbInfo} (h : inode.Harmless sb)
    (fs : Volume) : (ext2WriteInode fs inode).2.2.Harmless sb := by
  rw [ext2WriteInode_inode_eq]
  split_ifs with hdev
  · rcases h with hholds | ⟨hdirect, hindirect, hrdev⟩
    · rw [Inode.holdsPointers, hdev] at hholds
      cases hholds
    · refine .inr ⟨fun i hi => ?_, fun i hi hle => ?_, hrdev⟩
      · change update inode.iBlock 0 _ i = 0 ∨ ¬ sb.HasBlock (update inode.iBlock 0 _ i)
        by_cases hzero : i = 0
        · rw [hzero]
          exact hrdev hdev
        · rw [update_of_ne hzero]
          exact hdirect i hi
      · change update inode.iBlock 0 _ i = 0
        have hne : i ≠ 0 := by
          rintro rfl
          exact absurd hle (by decide)
        rw [update_of_ne hne]
        exact hindirect i hi hle
  · exact h

theorem Inode.Harmless.evictionOk {fs : Volume} (h : inode.Harmless fs.sb) :
    (evictionOf fs inode).Ok := by
  rcases h with hholds | ⟨hdirect, hindirect, -⟩
  · exact .inl hholds
  refine .inr fun b hb hused => ?_
  obtain ⟨slot, hslot, hmem⟩ := Lib.PtrTree.mem_gather.mp hb
  by_cases hlow : slot < ndirBlocks
  · rw [slotDepth, if_pos hlow, Lib.PtrTree.nodes] at hmem
    split_ifs at hmem with hzero
    · cases hmem
    · rw [List.mem_singleton] at hmem
      rcases hdirect slot hlow with hnull | hnone
      · exact hzero hnull
      · exact hnone (hmem ▸ hused.1)
  · change b ∈ Lib.PtrTree.nodes _ _ _ (inode.iBlock slot) at hmem
    rw [hindirect slot hslot (Nat.not_lt.mp hlow), Lib.PtrTree.nodes_null] at hmem
    cases hmem

/-- A volume whose inodes and directories are in order. -/
structure Fine (s : System) : Prop where
  consistent : Consistent s
  pages : s.fs.PagesAvailable
  located : ∀ i inode, s.inodes i = some inode → ext2InodeLocation s.fs i = .ok ()
  harmless : ∀ i inode, s.inodes i = some inode → inode.Harmless s.fs.sb
  dirs : ∀ i inode, s.inodes i = some inode → inode.iType = .dir → DirShape s.fs inode

namespace Fine

variable {s : System} {fs' : Volume} {i : Nat} {inode inode' : Inode}

section

variable (h : Fine s) (hinode : s.inodes i = some inode)
include h hinode

theorem number_pos : i ≠ 0 := by
  have hloc := h.located i inode hinode
  rw [ext2InodeLocation] at hloc
  split_ifs at hloc with hzero
  exact hzero

/-- Numbers of inodes fit into the records. -/
theorem number_lt : i < 2 ^ 32 := by
  have hloc := h.located i inode hinode
  rw [ext2InodeLocation] at hloc
  split_ifs at hloc with hzero hgroup
  have hall : (i - 1) / s.fs.sb.inodesPerGroup + 1 ≤ s.fs.sb.groupsCount := by omega
  have hmul := Nat.mul_le_mul_right s.fs.sb.inodesPerGroup hall
  have hlt : s.fs.sb.groupsCount * s.fs.sb.inodesPerGroup < uint32Modulus := s.fs.sb.inodes_lt
  have hmod : uint32Modulus = 2 ^ 32 := rfl
  have hdiv := @Nat.lt_div_mul_add (i - 1) _ s.fs.sb.inodesPerGroup_pos
  rw [Nat.succ_mul] at hmul
  omega

/-- A directory whose blocks are left alone. -/
theorem dir_same (hdir : inode.iType = .dir) (hpage : ∀ b ∈ inode.owned, fs'.page b = s.fs.page b) :
    DirShape fs' inode ∧ dirMap fs' inode = dirMap s.fs inode :=
  (h.dirs i inode hinode hdir).same
    ((h.consistent.sound i inode hinode).mapped (Inode.holdsPointers_of_dir hdir).1) hpage rfl rfl

end

theorem withIo (h : Fine s) {io : Io} (hio : ∀ t, io.pageOk t = true) : Fine (s.withIo io) :=
  ⟨h.consistent.of_spared fun i inode hinode => ⟨hinode, h.consistent.bit i inode hinode,
      fun b hb => ⟨rfl, (h.consistent.sound i inode hinode).used b hb⟩⟩,
    hio, h.located, h.harmless,
    fun _ _ hinode hdir =>
      (@dir_same s (s.withIo io).fs _ _ h hinode hdir fun _ _ => rfl).1⟩

end Fine

/-! ## The tree -/

/-- What directory `d` says. -/
def namesOf (s : System) (d : Nat) (name : Name) : Option Nat :=
  match s.inodes d with
  | none => none
  | some dir => if dir.iType = .dir then (dirMap s.fs dir name).map Prod.fst else none

/-- The tree that inodes and directories spell out. -/
def System.tree (s : System) : Tree Nat Name where
  kind i := (s.inodes i).map fun inode => inode.iType == .dir
  nlink i :=
    match s.inodes i with
    | none => 0
    | some inode => inode.iNlink
  names k := namesOf s k.1 k.2

/-- The names of node `i` become `row`. -/
def setRow (names : Nat × Name → Option Nat) (i : Nat) (row : Name → Option Nat) :
    Nat × Name → Option Nat :=
  fun k => if k.1 = i then row k.2 else names k

theorem setRow_same (names : Nat × Name → Option Nat) (i : Nat) :
    setRow names i (fun n => names (i, n)) = names := by
  funext k
  obtain ⟨d, n⟩ := k
  rw [setRow]
  split_ifs with hd
  · rw [show d = i from hd]
  · rfl

theorem setRow_update (names : Nat × Name → Option Nat) (i : Nat) (n : Name) (v : Option Nat) :
    setRow names i (update (fun n => names (i, n)) n v) =
      update names (i, n) v := by
  funext k
  obtain ⟨d, m⟩ := k
  rw [setRow, update_pair]
  by_cases hd : d = i
  · rw [if_pos hd, update_apply, hd]
    by_cases hm : m = n
    · rw [if_pos hm, if_pos ⟨rfl, hm⟩]
    · rw [if_neg hm, if_neg fun hboth => hm hboth.2]
  · rw [if_neg hd, if_neg fun hboth => hd hboth.1]

section Trees

variable {s : System} {fs' : Volume} {i : Nat} {inode inode' : Inode}

theorem tree_none (h : s.inodes i = none) :
    s.tree.kind i = none ∧ s.tree.nlink i = 0 ∧ ∀ n, s.tree.names (i, n) = none := by
  refine ⟨?_, ?_, fun n => ?_⟩
  · change (s.inodes i).map _ = none
    rw [h]
    rfl
  · change (match s.inodes i with | none => 0 | some inode => inode.iNlink) = 0
    rw [h]
  · change namesOf s i n = none
    rw [namesOf, h]

theorem tree_some (h : s.inodes i = some inode) :
    s.tree.kind i = some (inode.iType == .dir) ∧ s.tree.nlink i = inode.iNlink := by
  refine ⟨?_, ?_⟩
  · change (s.inodes i).map _ = _
    rw [h]
    rfl
  · change (match s.inodes i with | none => 0 | some inode => inode.iNlink) = _
    rw [h]

theorem tree_names (h : s.inodes i = some inode) (hdir : inode.iType = .dir) (n : Name) :
    s.tree.names (i, n) = (dirMap s.fs inode n).map Prod.fst := by
  change namesOf s i n = _
  rw [namesOf, h]
  exact if_pos hdir

theorem exists_of_kind {isDir : Bool} (h : s.tree.kind i = some isDir) :
    ∃ inode, s.inodes i = some inode ∧ (inode.iType == .dir) = isDir :=
  Option.map_eq_some_iff.mp h

theorem exists_dir_of_kind (h : s.tree.kind i = some true) :
    ∃ dir, s.inodes i = some dir ∧ dir.iType = .dir := by
  obtain ⟨dir, hdir, hiType⟩ := exists_of_kind h
  exact ⟨dir, hdir, by simpa using hiType⟩

/-- Inodes and directories other than `i` stay as they are. -/
theorem Fine.elsewhere (h : Fine s) {s' : System} (hcons : Consistent s')
    (hsb : s'.fs.sb = s.fs.sb) (hanswers : s'.fs.io.answers = s.fs.io.answers)
    (hother : ∀ j, j ≠ i → s'.inodes j = s.inodes j)
    (hpage : ∀ j other, j ≠ i → s.inodes j = some other →
      ∀ b ∈ other.owned, s'.fs.page b = s.fs.page b)
    (hself : ∀ inode, s'.inodes i = some inode → ext2InodeLocation s.fs i = .ok () ∧
      inode.Harmless s.fs.sb ∧ (inode.iType = .dir → DirShape s'.fs inode)) :
    Fine s' ∧ s'.tree =
      { kind := update s.tree.kind i (s'.tree.kind i)
        nlink := update s.tree.nlink i (s'.tree.nlink i)
        names := setRow s.tree.names i fun n => s'.tree.names (i, n) } := by
  have hback : ∀ j other, j ≠ i → s'.inodes j = some other → s.inodes j = some other :=
    fun j other hne hj => (hother j hne).symm.trans hj
  constructor
  · refine ⟨hcons, h.pages.of_answers hanswers, fun j other hj => ?_, fun j other hj => ?_,
      fun j other hj hdir => ?_⟩
    · rw [ext2InodeLocation, hsb]
      by_cases hne : j = i
      · subst hne
        exact (hself other hj).1
      · exact h.located j other (hback j other hne hj)
    · rw [hsb]
      by_cases hne : j = i
      · subst hne
        exact (hself other hj).2.1
      · exact h.harmless j other (hback j other hne hj)
    · by_cases hne : j = i
      · subst hne
        exact (hself other hj).2.2 hdir
      · exact (h.dir_same (hback j other hne hj) hdir (hpage j other hne (hback j other hne hj))).1
  · apply Tree.ext
    · funext j
      dsimp only
      by_cases hne : j = i
      · rw [hne, update_self]
      · rw [update_of_ne hne]
        change (s'.inodes j).map _ = (s.inodes j).map _
        rw [hother j hne]
    · funext j
      dsimp only
      by_cases hne : j = i
      · rw [hne, update_self]
      · rw [update_of_ne hne]
        simp only [System.tree, hother j hne]
    · funext k
      obtain ⟨j, n⟩ := k
      dsimp only [setRow]
      by_cases hne : j = i
      · rw [if_pos hne, hne]
      · rw [if_neg hne]
        change namesOf s' j n = namesOf s j n
        rw [namesOf, namesOf, hother j hne]
        cases hj : s.inodes j with
        | none => rfl
        | some other =>
          dsimp only
          split_ifs with hdir
          · rw [(h.dir_same hj hdir (hpage j other hne hj)).2]
          · rfl

/-- The row of an inode. -/
def rowOf (fs : Volume) (inode : Inode) (n : Name) : Option Nat :=
  if inode.iType = .dir then (dirMap fs inode n).map Prod.fst else none

theorem tree_row (h : s.inodes i = some inode) :
    (fun n => s.tree.names (i, n)) = rowOf s.fs inode := by
  funext n
  change namesOf s i n = rowOf s.fs inode n
  rw [namesOf, h]
  rfl

theorem Fine.put (h : Fine s) (hinode : s.inodes i = some inode)
    (hconf : Confined s.fs inode fs' inode') (hsound : Sound fs' inode')
    (hharmless : inode'.Harmless s.fs.sb)
    (hshape : inode'.iType = .dir → DirShape fs' inode') :
    Fine ({ s with fs := fs' }.setInode i (some inode')) ∧
      ({ s with fs := fs' }.setInode i (some inode')).tree =
        { kind := s.tree.kind
          nlink := update s.tree.nlink i inode'.iNlink
          names := setRow s.tree.names i (rowOf fs' inode') } := by
  have hself : ({ s with fs := fs' }.setInode i (some inode')).inodes i = some inode' :=
    setInode_self ..
  obtain ⟨hfine, htree⟩ := @Fine.elsewhere s i h ({ s with fs := fs' }.setInode i (some inode'))
    (h.consistent.put hinode hconf hsound) hconf.sb hconf.answers
    (fun j hne => setInode_ne _ hne _)
    (fun j other hne hj b hb => hconf.page b ((h.consistent.sound j other hj).used b hb)
      (h.consistent.disjoint j i other inode hne hj hinode b hb))
    (fun other hother => by
      rw [hself] at hother
      cases hother
      exact ⟨h.located i inode hinode, hharmless, hshape⟩)
  refine ⟨hfine, ?_⟩
  rw [tree_row hself, (tree_some hself).1, (tree_some hself).2, hconf.iType,
    ← (tree_some hinode).1, update_eq_self] at htree
  exact htree

end Trees

/-! ## Views -/

/-- The geometry of a volume, and whether all its writing succeeds. -/
structure Setting where
  sb : SbInfo
  strict : Bool

/-- The volume is in order and spells out the tree `T`.  The records of directories can be
read and written. -/
structure View (c : Setting) (m : Disk) (T : Tree Nat Name) : Prop where
  fine : Fine m.sys
  tree : m.sys.tree = T
  sb : m.sys.fs.sb = c.sb
  recordPages : ∀ t, m.records.pageOk t = true
  recordSyncs : ∀ t, m.records.syncOk t = true
  writes : c.strict = true → m.sys.fs.NoErrors

theorem tree_withIo (s : System) (io : Io) : (s.withIo io).tree = s.tree := rfl

namespace View

open Disk

variable {c : Setting} {m : Disk} {T : Tree Nat Name} {i d : Nat} {name : Name}

section

variable (h : View c m T)
include h

theorem absent (hkind : T.kind i = none) :
    T.nlink i = 0 ∧ ∀ n, T.names (i, n) = none := by
  rw [← h.tree] at hkind ⊢
  exact (tree_none (Option.map_eq_none_iff.mp hkind)).2

theorem exists_inode (hkind : T.kind i ≠ none) :
    ∃ inode, m.sys.inodes i = some inode ∧ T.nlink i = inode.iNlink := by
  obtain ⟨isDir, hisDir⟩ := Option.ne_none_iff_exists'.mp hkind
  rw [← h.tree] at hisDir ⊢
  obtain ⟨inode, hinode, -⟩ := exists_of_kind hisDir
  exact ⟨inode, hinode, (tree_some hinode).2⟩

theorem isDir_eq (isDir : Bool) (hkind : T.kind i = some isDir) : m.isDir i = isDir := by
  rw [← h.tree] at hkind
  obtain ⟨inode, hinode, hiType⟩ := exists_of_kind hkind
  rw [Disk.isDir, hinode]
  exact hiType

theorem linked_iff : m.linked d = true ↔ T.Linked d := by
  rw [Disk.linked, Tree.Linked]
  cases hd : m.sys.inodes d with
  | none =>
    have hnone := tree_none hd
    rw [h.tree] at hnone
    simp [hnone.1]
  | some dir =>
    have hsome := tree_some hd
    rw [h.tree] at hsome
    simp [hsome.1, hsome.2]

end

variable {fs' : Volume}

section

variable (h : View c m T)
include h

theorem onInode {α : Type} (hinode : m.sys.inodes i = some inode)
    {op : InodeOp α} {ret : Except Errno α} {inode' : Inode}
    (hop : op m.sys.fs inode = (ret, fs', inode')) (hworks : Works m.sys.fs inode fs' inode')
    (hharmless : inode'.Harmless m.sys.fs.sb) (hshape : inode'.iType = .dir → DirShape fs' inode') :
    ∃ m', m.onInode i op = (ret, m') ∧ m'.sys.inodes i = some inode' ∧ View c m'
        { kind := T.kind
          nlink := update T.nlink i inode'.iNlink
          names := setRow T.names i (rowOf fs' inode') } := by
  have hconf := hworks.1.confined
  have hrun : m.onInode i op =
      (ret, { m with sys := { m.sys with fs := fs' }.setInode i (some inode') }) := by
    rw [Disk.onInode, System.onInode, hinode]
    dsimp only
    rw [hop]
  refine ⟨_, hrun, setInode_self .., ?_⟩
  obtain ⟨hfine, htree⟩ := h.fine.put hinode hconf hworks.2 hharmless hshape
  refine ⟨hfine, ?_, hconf.sb.trans h.sb, h.recordPages, h.recordSyncs,
    fun hstrict => (h.writes hstrict).of_answers hconf.answers⟩
  rw [htree, h.tree]

/-- An inode keeps what it says when its blocks and the fields that lead to them stay. -/
theorem row_same {inode' : Inode}
    (hinode : m.sys.inodes i = some inode) (hiType : inode'.iType = inode.iType)
    (hsize : inode'.iSize = inode.iSize)
    (hiBlock : inode.isDevice = false → inode'.iBlock = inode.iBlock)
    (hpage : ∀ b ∈ inode.owned, fs'.page b = m.sys.fs.page b) :
    rowOf fs' inode' = (fun n => T.names (i, n)) ∧ (inode'.iType = .dir → DirShape fs' inode') := by
  by_cases hdir : inode.iType = .dir
  · obtain ⟨hholds, hdev⟩ := Inode.holdsPointers_of_dir hdir
    obtain ⟨hshape, hmap⟩ := (h.fine.dirs i inode hinode hdir).same
      ((h.fine.consistent.sound i inode hinode).mapped hholds) hpage hsize (hiBlock hdev)
    refine ⟨?_, fun _ => hshape⟩
    funext n
    rw [rowOf, hiType, if_pos hdir, hmap, ← h.tree, tree_names hinode hdir]
  · refine ⟨?_, fun hdir' => absurd (hiType.symm.trans hdir') hdir⟩
    funext n
    rw [rowOf, hiType, if_neg hdir, ← h.tree]
    change _ = namesOf m.sys i n
    rw [namesOf, hinode]
    exact (if_neg hdir).symm

theorem writeInode (hkind : T.kind i ≠ none) :
    ∃ ret m', m.writeInode i = (ret, m') ∧ View c m' T ∧ (c.strict = true → ret = .ok ()) ∧
      ∀ inode, m.sys.inodes i = some inode → inode.isDevice = false →
        m'.sys.inodes i = some inode := by
  obtain ⟨inode, hinode, hnlink⟩ := h.exists_inode hkind
  have hsound := h.fine.consistent.sound i inode hinode
  have hquiet := quiet_ext2WriteInode m.sys.fs inode
  have hfields := ext2WriteInode_inode_eq m.sys.fs inode
  have hworks := (serves_ext2WriteInode hsound).works
  have hnlink' := ext2WriteInode_iNlink m.sys.fs inode
  have hharmless := (h.fine.harmless i inode hinode).writeInode m.sys.fs
  have hret : c.strict = true → (ext2WriteInode m.sys.fs inode).1 = .ok () := by
    intro hstrict
    have hno := h.writes hstrict
    have hloc := h.fine.located i inode hinode
    rw [← h.fine.consistent.number i inode hinode] at hloc
    exact ext2WriteInode_ret hno hloc
  generalize hop : ext2WriteInode m.sys.fs inode = r at hquiet hfields hworks hnlink' hharmless hret
  obtain ⟨ret, fs', inode'⟩ := r
  dsimp only at hquiet hfields hworks hnlink' hharmless hret
  have hsize : inode'.iSize = inode.iSize := by
    rw [hfields]
    split_ifs <;> rfl
  have hsame : inode.isDevice = false → inode' = inode := by
    intro hdev
    rw [hfields, hdev]
    rfl
  obtain ⟨hrow, hshape⟩ := h.row_same hinode hworks.1.iType hsize
    (fun hdev => by rw [hsame hdev]) fun b _ => congrFun hquiet.page b
  obtain ⟨m', hrun, hget, hview⟩ := h.onInode hinode hop hworks hharmless hshape
  rw [hrow, setRow_same, hnlink', ← hnlink, update_eq_self] at hview
  refine ⟨ret, m', hrun, hview, hret, fun inode1 hinode1 hdev => ?_⟩
  rw [hinode] at hinode1
  cases hinode1
  rw [hget, hsame hdev]

theorem setNlink (hkind : T.kind i ≠ none) (count : Nat → Nat) :
    View c (m.setNlink i count) { T with nlink := update T.nlink i (count (T.nlink i)) } := by
  obtain ⟨inode, hinode, hnlink⟩ := h.exists_inode hkind
  have hsound := h.fine.consistent.sound i inode hinode
  have hop : Ext2.setNlink count m.sys.fs inode =
      (.ok (), m.sys.fs, { inode with iNlink := count inode.iNlink }) := rfl
  obtain ⟨hrow, hshape⟩ := @row_same inode _ _ _ _ m.sys.fs h
    { inode with iNlink := count inode.iNlink } hinode rfl rfl (fun _ => rfl) fun b _ => rfl
  obtain ⟨m', hrun, -, hview⟩ := h.onInode hinode hop
    (serves_setNlink count hsound).works (h.fine.harmless i inode hinode) hshape
  rw [hrow, setRow_same] at hview
  rw [Disk.setNlink, hrun, hnlink]
  exact hview

end

/-! ### Records of directories -/

/-- A directory is in order for work on its records. -/
theorem dirOk (h : View c m T) (hkind : T.kind d = some true) :
    ∃ dir, m.sys.inodes d = some dir ∧ dir.iType = .dir ∧
      DirOk (m.sys.withIo m.records).fs dir ∧ DirShape (m.sys.withIo m.records).fs dir ∧
      ∀ n, T.names (d, n) = (dirMap (m.sys.withIo m.records).fs dir n).map Prod.fst := by
  rw [← h.tree] at hkind
  obtain ⟨dir, hinode, hdir⟩ := exists_dir_of_kind hkind
  have hfine := h.fine.withIo h.recordPages
  have hshape := hfine.dirs d dir hinode hdir
  have hsound := hfine.consistent.sound d dir hinode
  have hloc := hfine.located d dir hinode
  rw [← hfine.consistent.number d dir hinode] at hloc
  refine ⟨dir, hinode, hdir, ⟨hsound.mapped (Inode.holdsPointers_of_dir hdir).1,
    ⟨h.recordPages, h.recordSyncs⟩, hdir, hloc, hshape.aligned, hshape.size_le, hshape.tiled,
    hshape.unique⟩, hshape, fun n => ?_⟩
  rw [← h.tree]
  exact tree_names hinode hdir n

variable {dir : Inode}

theorem onRecords_eq {α : Type} (hinode : m.sys.inodes d = some dir) (hdir : dir.iType = .dir)
    (op : InodeOp α) :
    m.onRecords d op = ((op (m.sys.withIo m.records).fs dir).1,
      ⟨({ m.sys.withIo m.records with fs := (op (m.sys.withIo m.records).fs dir).2.1 }.setInode d
        (some (op (m.sys.withIo m.records).fs dir).2.2)).withIo m.sys.fs.io,
        (op (m.sys.withIo m.records).fs dir).2.1.io⟩) := by
  have hinode' : (m.sys.withIo m.records).inodes d = some dir := hinode
  rw [Disk.onRecords, System.onDir, System.onInode, hinode']
  dsimp only
  rw [if_pos hdir]
  rfl

theorem answered (h : View c m T) {io : Io} (hanswers : io.answers = m.records.answers) :
    (∀ t, io.pageOk t = true) ∧ ∀ t, io.syncOk t = true := by
  refine ⟨fun t => ?_, fun t => ?_⟩
  · rw [Io.pageOk_of_answers hanswers]
    exact h.recordPages t
  · rw [show io.syncOk = m.records.syncOk from congrArg (fun a => a.2.1) hanswers]
    exact h.recordSyncs t

section

variable {α : Type} {op : InodeOp α} {ret : Except Errno α} (h : View c m T)
  (hinode : m.sys.inodes d = some dir) (hdir : dir.iType = .dir)
include h hinode hdir

section

variable {dir' : Inode} {gone : Name → Prop}
  (hop : op (m.sys.withIo m.records).fs dir = (ret, fs', dir')) (hok : DirOk fs' dir')
  (hedit : Edit gone (m.sys.withIo m.records).fs dir fs' dir') (hgone : ¬ gone dotdot)
include hop hok hedit hgone

/-- A change of the records of a directory. -/
theorem edit {row : Name → Option Nat} (hrow : ∀ n, (dirMap fs' dir' n).map Prod.fst = row n) :
    ∃ m', m.onRecords d op = (ret, m') ∧
      View c m' { T with names := setRow T.names d row } := by
  have hfine := h.fine.withIo h.recordPages
  have hconf := hedit.touches.confined
  have hshape := (hfine.dirs d dir hinode hdir).edit hedit hok hgone
  have hsound : Sound fs' dir' := by
    refine ⟨fun _ => hok.owns, fun hfalse => ?_⟩
    rw [(Inode.holdsPointers_of_dir hok.isDir).1] at hfalse
    cases hfalse
  obtain ⟨hput, htree⟩ := hfine.put hinode hconf hsound
    (.inl (Inode.holdsPointers_of_dir hok.isDir).1) fun _ => hshape
  rw [tree_withIo, h.tree] at htree
  have hrun := onRecords_eq hinode hdir op
  rw [hop] at hrun
  have hrecords := h.answered hconf.answers
  refine ⟨_, hrun, hput.withIo h.fine.pages, ?_, hconf.sb.trans h.sb, hrecords.1, hrecords.2,
    fun hstrict => (h.writes hstrict).of_answers rfl⟩
  rw [tree_withIo, htree, Tree.mk.injEq]
  refine ⟨rfl, ?_, ?_⟩
  · have hnlink := (tree_some hinode).2
    rw [h.tree] at hnlink
    rw [hedit.iNlink, ← hnlink, update_eq_self]
  · congr 1
    funext n
    rw [rowOf, if_pos hok.isDir, hrow]

/-- One name of a directory gets another value. -/
theorem editName {v : Option (Nat × UInt8)}
    (hmap : dirMap fs' dir' = update (dirMap (m.sys.withIo m.records).fs dir) name v) :
    ∃ m', m.onRecords d op = (ret, m') ∧
      View c m' { T with names := update T.names (d, name) (v.map Prod.fst) } := by
  rw [← setRow_update]
  refine h.edit hinode hdir hop hok hedit hgone fun n => ?_
  rw [hmap]
  by_cases hn : n = name
  · rw [hn, update_self, update_self]
  · rw [update_of_ne hn, update_of_ne hn, ← h.tree]
    exact (tree_names hinode hdir n).symm

end

/-- A search of the records, with any answers. -/
theorem searchWith {io : Io} (hop : op (m.sys.withIo io).fs dir = (ret, fs', dir))
    (hq : Volume.Quiet (m.sys.withIo io).fs fs') :
    ∃ m', { m with records := io }.onRecords d op = (ret, m') ∧ m'.records = fs'.io ∧
      View c { m' with records := m.records } T := by
  have hq' : Volume.Quiet m.sys.fs { fs' with io := m.sys.fs.io } :=
    ⟨hq.sb, hq.blockBitmap, hq.inodeBitmap, hq.page, rfl⟩
  have hpage : ∀ b ∈ dir.owned, { fs' with io := m.sys.fs.io }.page b = m.sys.fs.page b :=
    fun b _ => congrFun hq.page b
  obtain ⟨hshape, hmap⟩ := h.fine.dir_same hinode hdir hpage
  have hsound := h.fine.consistent.sound d dir hinode
  obtain ⟨hput, htree⟩ := h.fine.put hinode (Touches.of_quiet hq' dir).confined
    (hsound.quiet hq') (h.fine.harmless d dir hinode) fun _ => hshape
  have hrun := @onRecords_eq { m with records := io } d dir α hinode hdir op
  rw [hop] at hrun
  refine ⟨_, hrun, rfl, hput, ?_, hq.sb.trans h.sb, h.recordPages, h.recordSyncs,
    fun hstrict => (h.writes hstrict).of_answers rfl⟩
  have hnlink := (tree_some hinode).2
  have hrow := tree_row hinode
  rw [h.tree] at htree hnlink hrow
  have hsame : rowOf { fs' with io := m.sys.fs.io } dir = fun n => T.names (d, n) := by
    rw [hrow]
    funext n
    rw [rowOf, rowOf, hmap]
  rw [hsame, setRow_same, ← hnlink, update_eq_self] at htree
  exact htree

theorem search (hop : op (m.sys.withIo m.records).fs dir = (ret, fs', dir))
    (hq : Volume.Quiet (m.sys.withIo m.records).fs fs') :
    ∃ m', m.onRecords d op = (ret, m') ∧ View c m' T := by
  obtain ⟨m', hrun, hio, hview⟩ := h.searchWith hinode hdir hop hq
  have hrecords := h.answered (hio ▸ hq.answers)
  exact ⟨m', hrun, hview.fine, hview.tree, hview.sb, hrecords.1, hrecords.2, hview.writes⟩

end

/-- A lookup finds what the directory says. -/
theorem lookup (h : View c m T) (hkind : T.kind d = some true) (name : Name) :
    ∃ m', m.lookup d name = (.ok (T.names (d, name)), m') ∧ View c m' T := by
  obtain ⟨dir, hinode, hdir, hok, -, hnames⟩ := h.dirOk hkind
  obtain ⟨fs', hop, hq⟩ : ∃ fs', findName name (m.sys.withIo m.records).fs dir =
      (.ok (T.names (d, name)), fs', dir) ∧ Volume.Quiet (m.sys.withIo m.records).fs fs' := by
    obtain ⟨fs', hq, ⟨hfind, hnone⟩ | ⟨i, hi, a, de, b, offset, -, -, -, -, hfind, hat, hvalue⟩⟩ :=
      hok.find_cases name
    · refine ⟨fs', ?_, hq⟩
      rw [findName, hfind, hnames, hnone]
      rfl
    · refine ⟨fs', ?_, hq⟩
      rw [findName, hfind, hnames, hvalue]
      dsimp only
      rw [hq.page, hat]
      rfl
  exact h.search hinode hdir hop hq

theorem isEmpty (h : View c m T) (hkind : T.kind d = some true) :
    ∃ empty m', m.onRecords d Disk.isEmpty = (.ok empty, m') ∧ View c m' T ∧
      (empty = true → ∀ n, T.names (d, n) ≠ none → n = dot ∨ n = dotdot) := by
  obtain ⟨dir, hinode, hdir, hok, -, hnames⟩ := h.dirOk hkind
  obtain ⟨empty, fs', hrun, hq, hempty⟩ := hok.isEmpty_spec
  have hop : Disk.isEmpty (m.sys.withIo m.records).fs dir = (.ok empty, fs', dir) := by
    rw [Disk.isEmpty, hrun]
  obtain ⟨m', hrun, hview⟩ := h.search hinode hdir hop hq
  refine ⟨empty, m', hrun, hview, fun htrue n hn => hempty htrue n fun hnone => hn ?_⟩
  rw [hnames, hnone]
  rfl

section

variable (h : View c m T) (hkind : T.kind d = some true)
include h hkind

theorem addEntry (hname : name.length < 256) (hi : T.kind i ≠ none) (type : UInt8) :
    ∃ ret m', m.onRecords d (Directory.ext2AddEntry name i type) = (ret, m') ∧
      ((ret = .ok () ∧ T.names (d, name) = none ∧
        View c m' { T with names := update T.names (d, name) (some i) }) ∨
        ∃ e, ret = .error e ∧ View c m' T) := by
  obtain ⟨dir, hinode, hdir, hok, -, hnames⟩ := h.dirOk hkind
  obtain ⟨inode, hi, -⟩ := h.exists_inode hi
  obtain ⟨ret, fs', dir', hop, hok', hedit, hcases⟩ := @DirOk.add_spec _ _ name i hok type hname
    (h.fine.number_pos hi) (h.fine.number_lt hi)
  have hfailed : ∀ e, ret = .error e → dirMap fs' dir' = dirMap (m.sys.withIo m.records).fs dir →
      ∃ m', m.onRecords d (Directory.ext2AddEntry name i type) = (.error e, m') ∧ View c m' T := by
    rintro e rfl hmap
    have hrow : ∀ n, (dirMap fs' dir' n).map Prod.fst = (fun n => T.names (d, n)) n := by
      intro n
      rw [hmap]
      exact (hnames n).symm
    obtain ⟨m', hrun, hview⟩ := h.edit hinode hdir hop hok' hedit not_false hrow
    rw [setRow_same] at hview
    exact ⟨m', hrun, hview⟩
  cases hvalue : dirMap (m.sys.withIo m.records).fs dir name with
  | some value =>
    rw [hvalue] at hcases
    obtain ⟨m', hrun, hview⟩ := hfailed _ hcases.1 hcases.2
    exact ⟨_, m', hrun, .inr ⟨_, rfl, hview⟩⟩
  | none =>
    rw [hvalue] at hcases
    rcases hcases with ⟨rfl, hmap⟩ | ⟨e, he, hmap, -⟩
    · obtain ⟨m', hrun, hview⟩ := h.editName hinode hdir hop hok' hedit not_false hmap
      have hfree : T.names (d, name) = none := by
        rw [hnames, hvalue]
        rfl
      exact ⟨.ok (), m', hrun, .inl ⟨rfl, hfree, hview⟩⟩
    · obtain ⟨m', hrun, hview⟩ := hfailed e he hmap
      exact ⟨_, m', hrun, .inr ⟨e, rfl, hview⟩⟩

/-- The functions that give a name that is there another value. -/
theorem rewriteName {op : InodeOp Unit} {gone : Name → Prop}
    {value : Nat × UInt8 → Option (Nat × UInt8)} {v : Option Nat}
    (hop : ∀ dir, DirOk (m.sys.withIo m.records).fs dir → DirShape (m.sys.withIo m.records).fs dir →
      Rewrites gone name value op (m.sys.withIo m.records).fs dir)
    (hgone : ¬ gone dotdot) (hold : T.names (d, name) ≠ none)
    (hv : ∀ old, (value old).map Prod.fst = v) :
    ∃ m', m.onRecords d op = (.ok (), m') ∧
      View c m' { T with names := update T.names (d, name) v } := by
  obtain ⟨dir, hinode, hdir, hok, hshape, hnames⟩ := h.dirOk hkind
  obtain ⟨ret, fs', hop, hok', hedit, hcases⟩ := hop dir hok hshape
  rw [hnames, Ne, Option.map_eq_none_iff] at hold
  obtain ⟨old, hvalue⟩ := Option.ne_none_iff_exists'.mp hold
  rw [hvalue] at hcases
  obtain ⟨rfl, hmap⟩ := hcases
  rw [← hv old]
  exact h.editName hinode hdir hop hok' hedit hgone hmap

theorem deleteEntry (hold : T.names (d, name) ≠ none) (hname : name ≠ dotdot) :
    ∃ m', m.onRecords d (Directory.ext2DeleteEntry name) = (.ok (), m') ∧
      View c m' { T with names := update T.names (d, name) none } :=
  h.rewriteName hkind (fun _ hok _ => hok.delete_spec name) (Ne.symm hname) hold fun _ => rfl

theorem replaceEntry (hold : T.names (d, name) ≠ none) (hi : T.kind i ≠ none) (type : UInt8) :
    ∃ m', m.onRecords d (Directory.ext2ReplaceEntry name i type) = (.ok (), m') ∧
      View c m' { T with names := update T.names (d, name) (some i) } := by
  obtain ⟨inode, hi, -⟩ := h.exists_inode hi
  exact h.rewriteName hkind (fun _ hok _ => hok.replace_spec name type (h.fine.number_pos hi)
    (h.fine.number_lt hi)) not_false hold fun _ => rfl

theorem setDotdot (hold : T.names (d, dotdot) ≠ none) (hi : T.kind i ≠ none) :
    ∃ m', m.onRecords d (ext2SetDotdot i) = (.ok (), m') ∧
      View c m' { T with names := update T.names (d, dotdot) (some i) } := by
  obtain ⟨inode, hi, -⟩ := h.exists_inode hi
  exact h.rewriteName hkind (fun _ hok hshape => hok.setDotdot_spec hshape.dotdotLive
    (h.fine.number_pos hi) (h.fine.number_lt hi)) not_false hold fun _ => rfl

end

/-! ### Making and forgetting inodes -/

/-- `T₁` is `T` but for what it says about node `i`. -/
structure Beside (i : Nat) (T T₁ : Tree Nat Name) : Prop where
  kind : ∀ j, j ≠ i → T₁.kind j = T.kind j
  nlink : ∀ j, j ≠ i → T₁.nlink j = T.nlink j
  names : ∀ j n, j ≠ i → T₁.names (j, n) = T.names (j, n)

/-- The inode that a call begins with. -/
theorem newInode (h : View c m T) (iType : FileType) (iNlink : Nat) {iSize : Nat}
    (hsize : iType = .dir → iSize = 0) :
    (∃ e m', m.newInode iType iNlink iSize = (.error e, m') ∧ View c m' T) ∨
      ∃ ino m', m.newInode iType iNlink iSize = (.ok ino, m') ∧ T.kind ino = none ∧
        m'.sys.inodes ino = some (freshInode ino iType iNlink iSize []) ∧
        View c m'
          { kind := update T.kind ino (some (iType == .dir))
            nlink := update T.nlink ino iNlink
            names := T.names } := by
  rw [Disk.newInode]
  generalize hrun : ext2NewInode m.sys iType iNlink iSize = r
  obtain ⟨ret, s'⟩ := r
  have hmakes := makesInode_ext2NewInode hrun
  have hcons := hmakes.consistent h.fine.consistent
  have hwrites : c.strict = true → s'.fs.NoErrors :=
    fun hstrict => (h.writes hstrict).of_answers hmakes.answers
  have hpage : ∀ b, s'.fs.page b = m.sys.fs.page b := congrFun hmakes.page
  cases ret with
  | error e =>
    have hinodes := hmakes.failed e rfl
    -- there is no inode with the number zero
    have hzero : m.sys.inodes 0 = none := by
      cases hinode : m.sys.inodes 0 with
      | none => rfl
      | some inode => exact absurd rfl (h.fine.number_pos hinode)
    have hzero' : s'.inodes 0 = none := by rw [hinodes, hzero]
    obtain ⟨hfine, htree⟩ := h.fine.elsewhere hcons hmakes.sb hmakes.answers
      (fun j _ => congrFun hinodes j) (fun _ _ _ _ b _ => hpage b)
      (fun inode hinode => by rw [hzero'] at hinode; cases hinode)
    refine .inl ⟨e, _, rfl, hfine, ?_, hmakes.sb.trans h.sb, h.recordPages, h.recordSyncs, hwrites⟩
    have hnone := tree_none hzero
    have hnone' := tree_none hzero'
    rw [hnone'.1.trans hnone.1.symm, hnone'.2.1.trans hnone.2.1.symm,
      show (fun n => s'.tree.names (0, n)) = fun n => m.sys.tree.names (0, n) from
        funext fun n => (hnone'.2.2 n).trans (hnone.2.2 n).symm,
      update_eq_self, update_eq_self, setRow_same, h.tree] at htree
    exact htree
  | ok ino =>
    have hinodes := hmakes.eq_setInode h.fine.consistent rfl
    have hnone := tree_none (hmakes.none h.fine.consistent rfl)
    have hself : s'.inodes ino = some (freshInode ino iType iNlink iSize []) := by
      rw [hinodes, update_self]
    obtain ⟨hfine, htree⟩ := h.fine.elsewhere hcons hmakes.sb hmakes.answers
      (fun j hne => by rw [hinodes, update_of_ne hne]) (fun _ _ _ _ b _ => hpage b)
      (fun inode hinode => by
        rw [hself] at hinode
        cases hinode
        exact ⟨hmakes.located ino rfl, .inr ⟨fun _ _ => .inl rfl, fun _ _ _ => rfl,
          fun _ => .inl (by simp [freshInode, ext2EncodeDev])⟩, fun hdir => .of_zero (hsize hdir)⟩)
    rw [h.tree] at hnone htree
    refine .inr ⟨ino, _, rfl, hnone.1, hself, hfine, ?_, hmakes.sb.trans h.sb, h.recordPages,
      h.recordSyncs, hwrites⟩
    have hrow : (fun n => s'.tree.names (ino, n)) = fun n => T.names (ino, n) := by
      rw [tree_row hself]
      funext n
      rw [hnone.2.2 n, rowOf]
      split_ifs with hdir
      · rw [dirMap, dirEntries_of_zero (hsize hdir)]
        rfl
      · rfl
    rw [hrow, setRow_same, (tree_some hself).1, (tree_some hself).2] at htree
    exact htree

/-- Forgetting an inode that has no name. -/
theorem forget (h : View c m T) (hi : T.nlink i = 0) :
    View c { m with sys := inodeForget m.sys i } (T.without i) := by
  have hrow : setRow T.names i (fun _ => none) = Tree.visible (· ≠ i) T.names := by
    funext k
    obtain ⟨j, n⟩ := k
    rw [setRow, Tree.visible]
    by_cases hne : j = i
    · rw [if_pos hne, if_neg (not_not.mpr hne)]
    · rw [if_neg hne, if_pos hne]
  have hforgets := forgets_inodeForget h.fine.consistent h.fine.pages i
  have hcons := hforgets.consistent h.fine.consistent fun inode hinode _ =>
    (h.fine.harmless i inode hinode).evictionOk
  have hself : (inodeForget m.sys i).inodes i = none := by
    rw [hforgets.inodes, update_self]
  obtain ⟨hfine, htree⟩ := h.fine.elsewhere hcons hforgets.sb hforgets.answers
    (fun j hne => by rw [hforgets.inodes, update_of_ne hne])
    (fun _ _ _ _ b _ => congrFun hforgets.page b)
    (fun inode hinode => by rw [hself] at hinode; cases hinode)
  refine ⟨hfine, ?_, hforgets.sb.trans h.sb, h.recordPages, h.recordSyncs,
    fun hstrict => (h.writes hstrict).of_answers hforgets.answers⟩
  have hnone := tree_none hself
  rw [hnone.1, hnone.2.1, funext hnone.2.2, h.tree, hrow, ← hi, update_eq_self] at htree
  exact htree

/-- A new inode is taken back. -/
theorem rollBack {T₁ : Tree Nat Name} (h : View c m T₁) (hbeside : Beside i T T₁)
    (hi : T₁.kind i ≠ none) (hkind : T.kind i = none) (hnlink : T.nlink i = 0)
    (hnames : ∀ n, T.names (i, n) = none) {β : Type} (e : Errno) :
    ∃ m', (Disk.rollBack i e m : Except Errno β × Disk) = (.error e, m') ∧ View c m' T := by
  have hzero := h.setNlink hi fun _ => 0
  have hforget := @forget _ _ _ i hzero (update_self ..)
  refine ⟨_, rfl, hforget.fine, hforget.tree.trans ?_, hforget.sb, hforget.recordPages,
    hforget.recordSyncs, hforget.writes⟩
  apply Tree.ext
  · funext j
    dsimp only [Tree.without]
    by_cases hne : j = i
    · rw [hne, update_self, hkind]
    · rw [update_of_ne hne, hbeside.kind j hne]
  · funext j
    dsimp only [Tree.without]
    by_cases hne : j = i
    · rw [hne, update_self, hnlink]
    · rw [update_of_ne hne, hbeside.nlink j hne]
  · funext k
    obtain ⟨j, n⟩ := k
    dsimp only [Tree.without, Tree.visible]
    by_cases hne : j = i
    · rw [if_neg (not_not.mpr hne), hne, hnames]
    · rw [if_pos hne, hbeside.names j n hne]

variable (h : View c m T)
include h

theorem iput (i : Nat) (last : Bool) : View c (m.iput i last) T ∨
      T.nlink i = 0 ∧ View c (m.iput i last) (T.without i) := by
  rw [Disk.iput, Ext2.iput]
  cases hinode : m.sys.inodes i with
  | none => exact .inl h
  | some inode =>
    dsimp only
    split_ifs with hlast
    · have hzero : T.nlink i = 0 := by
        rw [← h.tree, (tree_some hinode).2, hlast.2]
      exact .inr ⟨hzero, h.forget hzero⟩
    · exact .inl h

/-- The target of a new symbolic link is stored. -/
theorem storeTarget {iNlink iSize : Nat}
    (hinode : m.sys.inodes i = some (freshInode i .lnk iNlink iSize [])) {target : List UInt8}
    (htarget : HarmlessTarget c.sb target) :
    ∃ ret m', m.onInode i (Ext2.storeTarget target) = (ret, m') ∧ View c m' T := by
  rw [← h.sb] at htarget
  have hzero : ∀ j, (freshInode i .lnk iNlink iSize []).iBlock j = 0 := fun _ => rfl
  have hworks := @works_storeTarget (freshInode i .lnk iNlink iSize []) m.sys.fs h.fine.pages rfl
    rfl hzero rfl target
  have hfields : (Ext2.storeTarget target m.sys.fs (freshInode i .lnk iNlink iSize [])).2.2.iNlink =
        iNlink ∧
      (Ext2.storeTarget target m.sys.fs (freshInode i .lnk iNlink iSize [])).2.2.Harmless
        m.sys.fs.sb := by
    rw [Ext2.storeTarget]
    split_ifs with hshort
    · exact ⟨rfl, .inr ⟨(htarget hshort).1, (htarget hshort).2, fun hdev => by cases hdev⟩⟩
    · obtain ⟨-, -, hsame⟩ := @ext2NewBlock_spec (freshInode i .lnk iNlink iSize []) m.sys.fs
        (.empty _ hzero rfl) h.fine.pages rfl 0 fun off => target.getD off 0
      rw [hsame]
      generalize hrun : ext2Bmap m.sys.fs (freshInode i .lnk iNlink iSize []) 0 true = r
      obtain ⟨ret, fs1, inode1⟩ := r
      have hslot : ext2BmapSlot m.sys.fs (freshInode i .lnk iNlink iSize []) 0 true =
          (ret, fs1, inode1) := hrun
      rcases ext2BmapSlot_cases h.fine.pages rfl hslot with
        ⟨-, rfl, -⟩ | ⟨block, fs2, -, -, -, -, rfl, -⟩
      · exact ⟨rfl, .inr ⟨fun _ _ => .inl rfl, fun _ _ _ => rfl, fun hdev => by cases hdev⟩⟩
      · exact ⟨rfl, .inl rfl⟩
  generalize hop : Ext2.storeTarget target m.sys.fs (freshInode i .lnk iNlink iSize []) = r
    at hworks hfields
  obtain ⟨ret, fs', inode'⟩ := r
  have hlnk : inode'.iType ≠ .dir := by
    rw [hworks.1.iType]
    exact fun heq => by cases heq
  have hrow : rowOf fs' inode' = fun n => T.names (i, n) := by
    rw [← h.tree, tree_row hinode]
    funext n
    rw [rowOf, if_neg hlnk, rowOf, if_neg (fun heq => by cases heq)]
  have hnlink := (tree_some hinode).2
  rw [h.tree] at hnlink
  obtain ⟨m', hrun, -, hview⟩ := h.onInode hinode hop hworks hfields.2 fun hdir => absurd hdir hlnk
  refine ⟨ret, m', hrun, ?_⟩
  rw [hrow, setRow_same, hfields.1, ← show T.nlink i = iNlink from hnlink, update_eq_self] at hview
  exact hview

/-- A new directory gets its first records. -/
theorem makeEmptyDir {iNlink : Nat}
    (hinode : m.sys.inodes i = some (freshInode i .dir iNlink 0 [])) (hd : T.kind d ≠ none) :
    ∃ ret m' row, m.onInode i (ext2MakeEmptyDir (emptyDirBlock i d)) = (ret, m') ∧
      View c m' { T with names := setRow T.names i row } ∧
      (ret = .ok () → row = update (update (fun _ => none) dot (some i))
        dotdot (some d)) := by
  obtain ⟨parent, hparent, -⟩ := h.exists_inode hd
  have hsound := h.fine.consistent.sound i _ hinode
  have hholds := (@Inode.holdsPointers_of_dir (freshInode i .dir iNlink 0 []) rfl).1
  have hworks := works_ext2MakeEmptyDir hsound h.fine.pages rfl (emptyDirBlock i d)
  generalize hop : ext2MakeEmptyDir (emptyDirBlock i d) m.sys.fs (freshInode i .dir iNlink 0 []) = r
    at hworks
  obtain ⟨ret, fs', inode'⟩ := r
  obtain ⟨hiNlink, hshape, hmap⟩ := makeEmptyDir_spec (hsound.mapped hholds) h.fine.pages rfl rfl
    (h.fine.number_pos hinode) (h.fine.number_lt hinode) (h.fine.number_pos hparent)
    (h.fine.number_lt hparent) hop
  have hdir : inode'.iType = .dir := hworks.1.iType
  have hnlink := (tree_some hinode).2
  rw [h.tree] at hnlink
  obtain ⟨m', hrun, -, hview⟩ := h.onInode hinode hop hworks
    (.inl (Inode.holdsPointers_of_dir hdir).1) fun _ => hshape
  rw [hiNlink, ← show T.nlink i = (freshInode i .dir iNlink 0 []).iNlink from hnlink,
    update_eq_self] at hview
  refine ⟨ret, m', _, hrun, hview, fun hret => ?_⟩
  funext n
  rw [rowOf, if_pos hdir, hmap hret, emptyDirMap]
  by_cases hdotdot : n = dotdot
  · rw [hdotdot, if_neg (by decide), if_pos rfl]
    rfl
  · rw [update_of_ne hdotdot, if_neg hdotdot]
    by_cases hdot : n = dot
    · rw [hdot]
      rfl
    · rw [if_neg hdot, update_of_ne hdot]
      rfl

end View

end CuteOS.Fs.Ext2
