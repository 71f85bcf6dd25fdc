/-
  Fs/Ext2/NameRuns.lean --- runs of the calls that make, move and remove names.

  In a volume that is in order link counts stay exact, and no call that fails leaves an
  entry that dangles.  Both rest on directory records that can be read and written, and
  on symbolic links whose targets name no block when they are freed.
-/
import CuteOS.Fs.Ext2.LinkCounts
import CuteOS.Lib.Runs

set_option autoImplicit false

namespace CuteOS.Fs.Ext2

open Lib Lib.LinkTree Directory Disk

namespace Disk

/-- The volume is in order, and the records of its directories can be read and written. -/
structure InOrder (m : Disk) : Prop where
  fine : Fine m.sys
  recordPages : ∀ t, m.records.pageOk t = true
  recordSyncs : ∀ t, m.records.syncOk t = true

/-- The link count of every inode is the number of entries that name it, `.` names the
directory itself, and `..` names the directory that has its name. -/
def LinksExact (m : Disk) : Prop := Exact m.sys.tree

/-- A call, and the answers that it gets. -/
structure Attempt where
  call : Call
  io : Io
  records : Io

/-- The volume, with the answers that the call will get. -/
def meets (m : Disk) (a : Attempt) : Disk := ⟨m.sys.withIo a.io, a.records⟩

def attempt (m : Disk) (a : Attempt) : Except Errno Unit × Disk := (m.meets a).exec a.call

/-- Pages can be read during the call, and records of directories also written.  The call is
harmless, and every link count has room for one more link. -/
structure Admits (m : Disk) (a : Attempt) : Prop where
  harmless : a.call.Harmless m.sys.fs.sb
  fits : ∀ i inode, m.sys.inodes i = some inode → Fits inode.iNlink
  pages : ∀ t, a.io.pageOk t = true
  recordPages : ∀ t, a.records.pageOk t = true
  recordSyncs : ∀ t, a.records.syncOk t = true

/-- Nothing fails during a rename. -/
structure AdmitsAny (m : Disk) (a : Attempt) : Prop extends Admits m a where
  strict : a.call.Renames → (m.meets a).sys.fs.NoErrors

/-- A successful call. -/
def Success (m : Disk) (a : Attempt) (m' : Disk) : Prop := m.attempt a = (.ok (), m')

/-- A call, whatever it returns. -/
def Step (m : Disk) (a : Attempt) (m' : Disk) : Prop := (m.attempt a).2 = m'

section Runs

variable {m m' : Disk} {a : Attempt}

theorem InOrder.view (h : InOrder m) (strict : Bool)
    (hstrict : strict = true → m.sys.fs.NoErrors) : View ⟨m.sys.fs.sb, strict⟩ m m.sys.tree :=
  ⟨h.fine, rfl, rfl, h.recordPages, h.recordSyncs, hstrict⟩

theorem fits_tree (h : ∀ i inode, m.sys.inodes i = some inode → Fits inode.iNlink) (i : Nat) :
    Fits (m.sys.tree.nlink i) := by
  cases hinode : m.sys.inodes i with
  | none =>
    rw [(tree_none hinode).2.1]
    decide
  | some inode =>
    rw [(tree_some hinode).2]
    exact h i inode hinode

theorem Admits.fits_tree (h : Admits m a) (i : Nat) : Fits ((m.meets a).sys.tree.nlink i) :=
  Disk.fits_tree h.fits i

theorem Admits.inOrder (h : Admits m a) (horder : InOrder m) : InOrder (m.meets a) :=
  ⟨horder.fine.withIo h.pages, h.recordPages, h.recordSyncs⟩

theorem exact_reaches {T T' : Tree Nat Name} (hT : Exact T) (hreach : Reaches T T') : Exact T' := by
  induction hreach with
  | refl => exact hT
  | tail _ hchange ih => exact ih.change (by decide) hchange

theorem exact_of_keeps {c : Setting} {T : Tree Nat Name} {r : Except Errno Unit × Disk}
    (hT : Exact T) (hkeeps : Keeps c T r) : InOrder r.2 ∧ LinksExact r.2 := by
  obtain ⟨T', h, hreach⟩ := hkeeps
  refine ⟨⟨h.fine, h.recordPages, h.recordSyncs⟩, ?_⟩
  rw [LinksExact, h.tree]
  exact exact_reaches hT hreach

theorem exact_success (h : InOrder m ∧ LinksExact m) (hadmits : Admits m a)
    (hstep : Success m a m') : InOrder m' ∧ LinksExact m' := by
  have hview := (hadmits.inOrder h.1).view false fun hfalse => absurd hfalse Bool.false_ne_true
  have hkeeps := hview.exec h.2 hadmits.fits_tree hadmits.harmless
    fun _ => .inr (congrArg Prod.fst hstep)
  have hafter := exact_of_keeps h.2 hkeeps
  rwa [show (m.meets a).exec a.call = (.ok (), m') from hstep] at hafter

theorem exact_step (h : InOrder m ∧ LinksExact m) (hadmits : AdmitsAny m a)
    (hstep : Step m a m') : InOrder m' ∧ LinksExact m' := by
  subst hstep
  have horder := hadmits.inOrder h.1
  by_cases hrenames : a.call.Renames
  · have hview := horder.view true fun _ => hadmits.strict hrenames
    exact exact_of_keeps h.2 (hview.exec h.2 hadmits.fits_tree hadmits.harmless fun _ => .inl rfl)
  · have hview := horder.view false fun hfalse => absurd hfalse Bool.false_ne_true
    exact exact_of_keeps h.2 (hview.exec h.2 hadmits.fits_tree hadmits.harmless
      fun hyes => absurd hyes hrenames)

/-- An entry that `ext2_find_entry` finds in a directory names an inode that is in use,
with its blocks, and that counts all its names. -/
def NoDangling (m : Disk) : Prop :=
  ∀ dir name ino, m.linked dir = true → (m.lookup dir name).1 = .ok (some ino) →
    ∃ inode, m.sys.inodes ino = some inode ∧ m.sys.fs.InodeUsed ino ∧
      (holders m.sys.tree.entry ino).encard ≤ inode.iNlink ∧
      (inode.holdsPointers = true → ∀ b ∈ m.sys.fs.inodeBlocks inode, m.sys.fs.BlockUsed b)

theorem noDangling_of_exact (horder : InOrder m) (hexact : LinksExact m) : NoDangling m := by
  intro dir name ino hlinked hfound
  have hview := horder.view false fun hfalse => absurd hfalse Bool.false_ne_true
  have hdir := hview.linked_iff.mp hlinked
  obtain ⟨m1, hrun, -⟩ := hview.lookup hdir.1 name
  rw [hrun] at hfound
  have hentry := entry_eq_some.mpr ⟨hdir, Except.ok.inj hfound⟩
  have hkind := hexact.live _ ino hentry
  obtain ⟨inode, hinode, hnlink⟩ := hview.exists_inode hkind
  have hcount := hexact.exact ino hkind
  rw [hnlink] at hcount
  refine ⟨inode, hinode, horder.fine.consistent.bit ino inode hinode, hcount.le, ?_⟩
  intro hholds b hb
  have howns := (horder.fine.consistent.sound ino inode hinode).mapped hholds
  exact howns.used b ((howns.mem_iff b).mp hb)

end Runs

/-! ## A small tree -/

/-- The small volume with `.` and `..` in its root directory. -/
def treeVolume : Volume :=
  { smallVolume with page := Function.update smallVolume.page 119 (emptyDirBlock 2 2) }

def treeRoot : Inode :=
  { rootDir with
    iSize := blockSize
    iBlocks := 8
    iBlock := Function.update (fun _ => 0) 0 119
    owned := [119] }

def treeDisk : Disk where
  sys :=
    { fs := treeVolume
      inodes := fun ino => if ino = 2 then some treeRoot else none
      evictions := [] }
  records := smallVolume.io

theorem treeDisk_inode {ino : Nat} {inode : Inode} (h : treeDisk.sys.inodes ino = some inode) :
    ino = 2 ∧ inode = treeRoot := by
  change (if ino = 2 then some treeRoot else none) = some inode at h
  split_ifs at h with hino
  cases h
  exact ⟨hino, rfl⟩

theorem owns_treeRoot : Owns treeVolume treeRoot where
  count x := by
    rfl
  nodup := List.nodup_singleton 119
  used b hb := by
    rw [List.mem_singleton.mp hb]
    decide

theorem treeRoot_shape :
    DirShape treeVolume treeRoot ∧ dirMap treeVolume treeRoot = emptyDirMap 2 2 := by
  have hat : treeVolume.blockAt treeRoot 0 = 119 := by decide +kernel
  have hpage : treeVolume.page (treeVolume.blockAt treeRoot 0) = emptyDirBlock 2 2 := by
    exact Function.update_self 119 (emptyDirBlock 2 2) smallVolume.page
  exact emptyDir_shape (by decide) (by decide) (by decide) (by decide) rfl (by rw [hat]; decide)
    hpage

theorem inOrder_treeDisk : InOrder treeDisk where
  fine :=
    { consistent :=
        { sound := by
            intro ino inode hinode
            obtain ⟨-, rfl⟩ := treeDisk_inode hinode
            exact ⟨fun _ => owns_treeRoot, fun hfalse => nomatch hfalse⟩
          disjoint := fun i j a b hij ha hb =>
            absurd ((treeDisk_inode ha).1.trans (treeDisk_inode hb).1.symm) hij
          number := by
            intro ino inode hinode
            obtain ⟨rfl, rfl⟩ := treeDisk_inode hinode
            rfl
          bit := by
            intro ino inode hinode
            obtain ⟨rfl, -⟩ := treeDisk_inode hinode
            exact ⟨by decide, by decide⟩ }
      pages := fun _ => rfl
      located := by
        intro ino inode hinode
        obtain ⟨rfl, -⟩ := treeDisk_inode hinode
        decide
      harmless := by
        intro ino inode hinode
        obtain ⟨-, rfl⟩ := treeDisk_inode hinode
        exact .inl rfl
      dirs := by
        intro ino inode hinode _
        obtain ⟨-, rfl⟩ := treeDisk_inode hinode
        exact treeRoot_shape.1 }
  recordPages _ := rfl
  recordSyncs _ := rfl

theorem linked_treeDisk {d : Nat} : treeDisk.sys.tree.Linked d ↔ d = 2 := by
  refine ⟨fun hd => ?_, fun hd => ?_⟩
  · obtain ⟨inode, hinode, -⟩ := exists_of_kind hd.1
    exact (treeDisk_inode hinode).1
  · rw [hd]
    exact ⟨rfl, by decide⟩

theorem entry_treeDisk {k : Nat × Name} {i : Nat} :
    treeDisk.sys.tree.entry k = some i ↔ i = 2 ∧ (k = (2, dot) ∨ k = (2, dotdot)) := by
  obtain ⟨d, n⟩ := k
  rw [entry_eq_some, linked_treeDisk]
  have hrow : treeDisk.sys.tree.names (2, n) = (emptyDirMap 2 2 n).map Prod.fst := by
    rw [← treeRoot_shape.2]
    rfl
  constructor
  · rintro ⟨hd, hnames⟩
    dsimp only at hd
    rw [hd] at hnames ⊢
    rw [hrow, emptyDirMap] at hnames
    split_ifs at hnames with hdot hdotdot
    · rw [hdot]
      exact ⟨(Option.some.inj hnames).symm, .inl rfl⟩
    · rw [hdotdot]
      exact ⟨(Option.some.inj hnames).symm, .inr rfl⟩
    · cases hnames
  · rintro ⟨rfl, hk⟩
    rcases hk with hk | hk
    · obtain ⟨rfl, rfl⟩ := Prod.mk.inj hk
      exact ⟨rfl, hrow⟩
    · obtain ⟨rfl, rfl⟩ := Prod.mk.inj hk
      exact ⟨rfl, hrow⟩

theorem linksExact_treeDisk : LinksExact treeDisk := by
  have hdots : dot ≠ dotdot := by decide
  refine ⟨⟨linked_treeDisk.mpr rfl, ?_, ?_, ?_, ?_, ?_, ?_⟩, ?_⟩
  · intro k i hk
    rw [(entry_treeDisk.mp hk).1]
    exact Option.some_ne_none true
  · intro d hd
    rw [linked_treeDisk.mp hd]
    exact entry_treeDisk.mpr ⟨rfl, .inl rfl⟩
  · intro d n i hn hk _
    rcases (entry_treeDisk.mp hk).2 with hsame | hsame
    · exact absurd (Prod.mk.inj hsame).2 hn.1
    · exact absurd (Prod.mk.inj hsame).2 hn.2
  · intro i d hk hroot
    rcases (entry_treeDisk.mp hk).2 with hsame | hsame
    · exact absurd (Prod.mk.inj hsame).1 hroot
    · exact absurd (Prod.mk.inj hsame).1 hroot
  · intro d hk
    exact (entry_treeDisk.mp hk).1
  · intro d n n' i hn _ hk _ _
    rcases (entry_treeDisk.mp hk).2 with hsame | hsame
    · exact absurd (Prod.mk.inj hsame).2 hn.1
    · exact absurd (Prod.mk.inj hsame).2 hn.2
  · intro i hkind
    obtain ⟨isDir, hisDir⟩ := Option.ne_none_iff_exists'.mp hkind
    obtain ⟨inode, hinode, -⟩ := exists_of_kind hisDir
    rw [(treeDisk_inode hinode).1]
    have hset : holders treeDisk.sys.tree.entry 2 = {(2, dot), (2, dotdot)} := by
      ext k
      simp [holders, entry_treeDisk]
    rw [Counts, hset, Set.encard_pair (fun hsame => hdots (Prod.mk.inj hsame).2)]
    rfl

/-! ## Link counts -/

/-- A call during which nothing fails. -/
def calmly (call : Call) : Attempt := ⟨call, smallVolume.io, smallVolume.io⟩

theorem admits_treeDisk (a : Attempt) (hharmless : a.call.Harmless treeDisk.sys.fs.sb)
    (hpages : ∀ t, a.io.pageOk t = true) (hrecords : a.records = smallVolume.io) :
    Admits treeDisk a := by
  refine ⟨hharmless, fun i inode hinode => ?_, hpages, fun _ => ?_, fun _ => ?_⟩
  · rw [(treeDisk_inode hinode).2]
    decide
  · rw [hrecords]
    rfl
  · rw [hrecords]
    rfl

/-- The state after a successful call. -/
def next (m : Disk) (a : Attempt) : Option Disk :=
  match m.attempt a with
  | (.ok (), m') => some m'
  | (.error _, _) => none

theorem success_of_next (m : Disk) (a : Attempt) (m' : Disk) (h : m.next a = some m') :
    Success m a m' := by
  rw [next] at h
  split at h
  · rename_i heq
    rw [Success, heq, Option.some.inj h]
  · cases h

/-- A file, a symbolic link to `w` that is removed again, and a directory. -/
def unluckyCalls : List Attempt :=
  [calmly (.create 2 [102] .reg), calmly (.symlink 2 [115] [119]),
    calmly (.unlink 2 [115] true), calmly (.mkdir 2 [100])]

/-- The answers of a device that can be read but not written. -/
def deafIo : Io := { smallVolume.io with syncOk := fun _ => false }

/-- A file is to be created; only records of directories can be written. -/
def deafCreate : Attempt := ⟨.create 2 [102] .reg, deafIo, smallVolume.io⟩

/-- A file is to be created; records of directories cannot be written. -/
def deafRecords : Attempt := ⟨.create 2 [102] .reg, smallVolume.io, deafIo⟩

end Disk

end CuteOS.Fs.Ext2
