/-
  Fs/Ext2/LinkCounts.lean --- the calls keep link counts exact.

  Every call changes the tree that the directories spell out by complete changes, or
  not at all, as long as the records of directories can be read and written and no
  inode is freed that names blocks of others.
-/
import CuteOS.Fs.Ext2.NameTree

set_option autoImplicit false

namespace CuteOS.Fs.Ext2

open Lib Lib.LinkTree Directory Disk
open Function (update update_comm update_idem update_self update_apply update_of_ne update_eq_self)
open Option (some_ne_none ne_none_iff_exists')

/-- `EXT2_ROOT_INO`. -/
def ext2RootIno : Nat := 2

/-- The link counts of the tree are exact. -/
abbrev Exact (T : Tree Nat Name) : Prop := LinkTree.Inv ext2RootIno dot dotdot T

/-- Complete changes, one after the other. -/
abbrev Reaches (T T' : Tree Nat Name) : Prop := Relation.ReflTransGen (Change dot dotdot) T T'

/-- The call leaves a volume in order whose tree comes from `T` by complete changes. -/
def Keeps {α : Type} (c : Setting) (T : Tree Nat Name) (r : Except Errno α × Disk) : Prop :=
  ∃ T', View c r.2 T' ∧ Reaches T T'

/-- The same, with what a call that succeeds has done.  One that fails leaves the names, if no
write fails. -/
def Does {α : Type} (c : Setting) (T : Tree Nat Name) (post : α → Tree Nat Name → Prop)
    (r : Except Errno α × Disk) : Prop :=
  ∃ T', View c r.2 T' ∧ Reaches T T' ∧
    match r.1 with
    | .ok a => post a T'
    | .error _ => c.strict = true → Edits dot dotdot T T' T.entry none none

variable {T : Tree Nat Name}
variable {α : Type} {c : Setting}

theorem Does.keeps {post : α → Tree Nat Name → Prop} {r : Except Errno α × Disk}
    (h : Does c T post r) : Keeps c T r := by
  obtain ⟨T', hview, hreach, -⟩ := h
  exact ⟨T', hview, hreach⟩

/-- What depends on the names only. -/
def Visible (post : Tree Nat Name → Prop) : Prop :=
  ∀ T₁ T₂, post T₁ → T₂.Linked = T₁.Linked → T₂.entry = T₁.entry → post T₂

theorem visible_edits (T : Tree Nat Name) (names : Nat × Name → Option Nat)
    (gone new : Option Nat) : Visible fun T' => Edits dot dotdot T T' names gone new := by
  intro T₁ T₂ hedits hlinked hentry
  exact hedits.then hlinked fun x m _ hsame => by rw [hentry, hsame]

/-- Node `i` is new, and `name` below `d` is its name. -/
def Made (T : Tree Nat Name) (d : Nat) (name : Name) (new : Nat → Option Nat) (i : Nat)
    (T' : Tree Nat Name) : Prop :=
  T.kind i = none ∧ T.names (d, name) = none ∧
    Edits dot dotdot T T' (update T.entry (d, name) (some i)) none (new i)

/-- Node `i` has got the name, which was free. -/
def Named (T : Tree Nat Name) (d i : Nat) (name : Name) (T' : Tree Nat Name) : Prop :=
  T.names (d, name) = none ∧
    Edits dot dotdot T T' (update T.entry (d, name) (some i)) none none

/-- Directory `i` is empty. -/
def Empty (T : Tree Nat Name) (i : Nat) : Prop :=
  ∀ n, Proper dot dotdot n → T.entry (i, n) = none

/-- The name of `i` has gone, and with it `i` if that was an empty directory. -/
def Removed (T : Tree Nat Name) (d i : Nat) (name : Name) (directory : Bool) (T' : Tree Nat Name) :
    Prop :=
  T.kind i = some directory ∧ (directory = true → Empty T i) ∧
    Edits dot dotdot T T' (update T.entry (d, name) none)
      (if directory then some i else none) none

/-- `name` below `d`, the name of `i`, has become `name'` below `d'`, unless both are names of
`i`.  An empty directory may have had the name. -/
def Renamed (T : Tree Nat Name) (d i : Nat) (name : Name) (d' : Nat) (name' : Name)
    (T' : Tree Nat Name) : Prop :=
  T.names (d', name') = some i ∧ Edits dot dotdot T T' T.entry none none ∨
    T.names (d', name') ≠ some i ∧ ∃ gone,
      (∀ j, gone = some j → T.entry (d', name') = some j ∧ T.kind j = some true ∧ Empty T j) ∧
      (∀ j, T.entry (d', name') = some j → T.kind j = some true → gone = some j) ∧
      Edits dot dotdot T T'
        (update (update T.entry (d', name') (some i)) (d, name) none) gone none

theorem Removed.visible (T : Tree Nat Name) (d i : Nat) (name : Name) (directory : Bool) :
    Visible (Removed T d i name directory) := fun T₁ T₂ h hlinked hentry =>
  ⟨h.1, h.2.1, visible_edits _ _ _ _ T₁ T₂ h.2.2 hlinked hentry⟩

theorem andThen_isOk {r : Except Errno Unit × Disk} (h : r.1.isOk = true) :
    (andThen r Disk.giveUp fun _ m => (.ok (), m)).1 = .ok () := by
  obtain ⟨ret, m⟩ := r
  cases ret with
  | error e => cases h
  | ok u => rfl

theorem properName_iff {name : Name} (h : properName name = true) :
    name.length < 256 ∧ Proper dot dotdot name := by
  rw [properName, decide_eq_true_eq] at h
  exact ⟨Nat.lt_succ_of_le h.2.1, h.2.2⟩

variable {isDir : Bool}

theorem kind_ne_none {i : Nat} (h : T.kind i = some isDir) : T.kind i ≠ none := by
  rw [h]
  exact some_ne_none isDir

theorem update_ne_none (names : Nat × Name → Option Nat) (k : Nat × Name) (i : Nat) :
    update names k (some i) k ≠ none := by
  rw [update_self]
  exact some_ne_none i

/-- A name that is made and deleted again. -/
theorem update_undo {names : Nat × Name → Option Nat} {k : Nat × Name} (hfree : names k = none)
    (i : Nat) : update (update names k (some i)) k none = names := by
  rw [update_idem, ← hfree, update_eq_self]

theorem less_eq (n : Nat) : less n = n - 1 := by
  rw [less]
  split_ifs <;> omega

/-- A link count that fits into `i_links_count`, and one more. -/
abbrev Fits (n : Nat) : Prop := n + 1 < 2 ^ 16

variable {n : Nat}

theorem more_eq (h : Fits n) : more n = n + 1 := Nat.mod_eq_of_lt (by omega)

theorem fewer_succ (h : Fits n) : fewer (n + 1) = n := by
  rw [fewer, show n + 1 + (2 ^ 32 - 1) = n + 2 ^ 32 by omega, Nat.add_mod_right]
  exact Nat.mod_eq_of_lt (by omega)

namespace View

variable {c : Setting} {m : Disk} {T : Tree Nat Name} {d i : Nat} {name : Name}

theorem keeps {ret : Except Errno α} (h : View c m T) : Keeps c T (ret, m) :=
  ⟨T, h, .refl⟩

theorem fails (h : View c m T) (e : Errno) {post : α → Tree Nat Name → Prop} :
    Does c T post (.error e, m) :=
  ⟨T, h, .refl, fun _ => .refl T⟩

/-- What is beside the new inode when it has been made. -/
theorem beside_new (kind : Option Bool) (nlink : Nat) :
    Beside i T ⟨update T.kind i kind, update T.nlink i nlink, T.names⟩ :=
  ⟨fun _ hne => update_of_ne hne .., fun _ hne => update_of_ne hne .., fun _ _ _ => rfl⟩

variable {T₁ : Tree Nat Name}

/-- The end of a call that has to give up its new inode. -/
theorem does_rollBack (h : View c m T) {m1 : Disk} (h1 : View c m1 T₁) (hbeside : Beside i T T₁)
    (hi : T₁.kind i ≠ none) (hkind : T.kind i = none) (e : Errno)
    {post : α → Tree Nat Name → Prop} :
    Does c T post (Disk.rollBack i e m1 : Except Errno α × Disk) := by
  obtain ⟨hnlink, hnames⟩ := h.absent hkind
  obtain ⟨m', hrun, hview⟩ := @rollBack c m1 T i T₁ h1 hbeside hi hkind hnlink hnames α e
  rw [hrun]
  exact hview.fails e

/-- The tree with the new node `i`. -/
abbrev withNode (T : Tree Nat Name) (i : Nat) (isDir : Bool) (iNlink : Nat) : Tree Nat Name :=
  ⟨update T.kind i (some isDir), update T.nlink i iNlink, T.names⟩

variable {post : Nat → Tree Nat Name → Prop}

/-- What `ext2_create`, `ext2_symlink` and `ext2_mkdir` begin with. -/
theorem making (h : View c m T) (hd : T.Linked d) (name : Name) (iType : FileType) (iNlink : Nat)
    {iSize : Nat} (hsize : iType = .dir → iSize = 0) {next : Nat → Disk → Except Errno Nat × Disk}
    (hnext : ∀ i m1, T.names (d, name) = none → T.kind i = none → d ≠ i →
      m1.sys.inodes i = some (freshInode i iType iNlink iSize []) →
      View c m1 (withNode T i (iType == .dir) iNlink) → Does c T post (next i m1)) :
    Does c T post (andThen (m.lookup d name) Disk.giveUp fun found m =>
      if found.isSome then (.error .eexist, m)
      else andThen (m.newInode iType iNlink iSize) Disk.giveUp next) := by
  obtain ⟨m1, hrun, h1⟩ := h.lookup hd.1 name
  rw [hrun]
  dsimp only [andThen]
  split_ifs with hfound
  · exact h1.fails _
  rcases h1.newInode iType iNlink hsize with ⟨e, m2, hrun, h2⟩ | ⟨i, m2, hrun, hkind, hinode, h2⟩
  · rw [hrun]
    exact h2.fails e
  · rw [hrun]
    refine hnext i m2 (Option.not_isSome_iff_eq_none.mp hfound) hkind ?_ hinode h2
    rintro rfl
    rw [hd.1] at hkind
    cases hkind

variable {m' : Disk}

section New

variable {i iNlink : Nat} {isDir : Bool} {m1 : Disk}

theorem withNode_kind : (withNode T i isDir iNlink).kind i ≠ none := by
  rw [show (withNode T i isDir iNlink).kind i = some isDir from update_self ..]
  exact some_ne_none isDir

theorem withNode_dir (hd : T.Linked d) (hne : d ≠ i) :
    (withNode T i isDir iNlink).kind d = some true := by
  rw [← hd.1]
  exact update_of_ne hne ..

/-- A new inode is written, or given up. -/
theorem writeNew (h : View c m T) (h1 : View c m1 (withNode T i isDir iNlink))
    (hkind : T.kind i = none) {next : Unit → Disk → Except Errno Nat × Disk}
    (hnext : ∀ m2, View c m2 (withNode T i isDir iNlink) →
      (∀ inode, m1.sys.inodes i = some inode → inode.isDevice = false →
        m2.sys.inodes i = some inode) → Does c T post (next () m2)) :
    Does c T post (andThen (m1.writeInode i) (Disk.rollBack i) next) := by
  obtain ⟨ret, m2, hrun, h2, -, hinode⟩ := h1.writeInode withNode_kind
  rw [hrun]
  cases ret with
  | error e => exact h.does_rollBack h2 (beside_new ..) withNode_kind hkind e
  | ok u => exact hnext m2 h2 hinode

/-- A new file gets its name. -/
theorem madeFile (hd : T.Linked d) (hproper : Proper dot dotdot name)
    (hfree : T.names (d, name) = none) (hkind : T.kind i = none)
    (h' : View c m' { withNode T i false 1 with
      names := update T.names (d, name) (some i) }) :
    Does c T (Made T d name fun _ => none) (.ok i, m') := by
  exact ⟨_, h', .single (.create hproper hd hfree hkind), hkind, hfree,
    edits_file (by simp [hkind]) rfl rfl rfl hd⟩

end New

section

variable (h : View c m T) (hd : T.Linked d) (hname : properName name = true)
include h hd hname

theorem create {iType : FileType} (hiType : iType ≠ .dir) :
    Does c T (Made T d name fun _ => none) (m.ext2Create d name iType) := by
  obtain ⟨hlen, hproper⟩ := properName_iff hname
  refine h.making hd name _ 1 (fun _ => rfl) fun i m1 hfree hkind hne _ h1 => ?_
  have hfile : ((if iType = .zero then FileType.reg else iType) == .dir) = false := by
    split_ifs
    · rfl
    · simpa using hiType
  rw [hfile] at h1
  refine h.writeNew h1 hkind fun m2 h2 _ => ?_
  obtain ⟨ret, m3, hrun, ⟨rfl, -, h3⟩ | ⟨e, rfl, h3⟩⟩ := h2.addEntry (withNode_dir hd hne) hlen
    withNode_kind (ext2FileType (if iType = .zero then FileType.reg else iType))
  · rw [hrun]
    exact madeFile hd hproper hfree hkind h3
  · rw [hrun]
    exact h.does_rollBack h3 (beside_new ..) withNode_kind hkind e

theorem symlink {target : List UInt8} (htarget : HarmlessTarget c.sb target) :
    Does c T (Made T d name fun _ => none) (m.ext2Symlink d name target) := by
  obtain ⟨hlen, hproper⟩ := properName_iff hname
  rw [Disk.ext2Symlink]
  split_ifs
  · exact h.fails _
  · exact h.fails _
  refine h.making hd name .lnk 1 (fun hdir => by cases hdir)
    fun i m1 hfree hkind hne hinode h1 => ?_
  obtain ⟨ret, m2, hrun, h2⟩ := h1.storeTarget hinode htarget
  rw [hrun]
  cases ret with
  | error e => exact h.does_rollBack h2 (beside_new ..) withNode_kind hkind e
  | ok u =>
    refine h.writeNew h2 hkind fun m3 h3 _ => ?_
    obtain ⟨ret, m4, hrun, ⟨rfl, -, h4⟩ | ⟨e, rfl, h4⟩⟩ := h3.addEntry (withNode_dir hd hne)
      hlen withNode_kind (ext2FileType .lnk)
    swap
    · rw [hrun]
      exact h.does_rollBack h4 (beside_new ..) withNode_kind hkind e
    rw [hrun]
    have hdir := @withNode_dir T d i 1 false hd hne
    obtain ⟨ret, m5, hrun, h5, -, -⟩ := h4.writeInode (kind_ne_none hdir)
    dsimp only [andThen]
    rw [hrun]
    cases ret with
    | ok u => exact madeFile hd hproper hfree hkind h5
    | error e =>
      -- the name goes again
      dsimp only
      obtain ⟨m6, hrun, h6⟩ := h5.deleteEntry hdir (update_ne_none T.names (d, name) i) hproper.2
      rw [hrun]
      rw [update_undo hfree] at h6
      exact h.does_rollBack h6 (beside_new ..) withNode_kind hkind e

theorem mkdir (hfits : Fits (T.nlink d)) : Does c T (Made T d name some) (m.ext2Mkdir d name) := by
  obtain ⟨hlen, hproper⟩ := properName_iff hname
  refine h.making hd name .dir 2 (fun _ => rfl) fun i m1 hfree hkind hne hinode h1 => ?_
  refine h.writeNew h1 hkind fun m2 h2 hkept => ?_
  have hdir := @withNode_dir T d i 2 true hd hne
  obtain ⟨ret, m3, row, hrun, h3, hrow⟩ := h2.makeEmptyDir (hkept _ hinode rfl) (kind_ne_none hdir)
  have hnew := @withNode_kind T i 2 true
  have hbeside : Beside i T { withNode T i true 2 with names := setRow T.names i row } :=
    ⟨fun _ hj => update_of_ne hj .., fun _ hj => update_of_ne hj .., fun _ _ hj => if_neg hj⟩
  rw [hrun]
  cases ret with
  | error e => exact h.does_rollBack h3 hbeside hnew hkind e
  | ok u =>
    dsimp only [andThen]
    have hempty := (h.absent hkind).2
    -- the records of the new directory
    have hrows : setRow T.names i row =
        update (update T.names (i, dot) (some i)) (i, dotdot) (some d) := by
      rw [hrow rfl]
      funext k
      obtain ⟨j, n⟩ := k
      rw [update_pair, update_pair]
      dsimp only [setRow]
      by_cases hj : j = i
      · rw [if_pos hj, update_apply, update_apply, hj, hempty]
        simp only [true_and]
      · rw [if_neg hj, if_neg (fun hboth => hj hboth.1), if_neg (fun hboth => hj hboth.1)]
    obtain ⟨ret, m4, hrun, ⟨rfl, -, h4⟩ | ⟨e, rfl, h4⟩⟩ := h3.addEntry hdir hlen hnew
      (ext2FileType .dir)
    · rw [hrun]
      dsimp only
      have h5 := h4.setNlink (kind_ne_none hdir) more
      obtain ⟨ret, m6, hrun, h6, hok, -⟩ := h5.writeInode (kind_ne_none hdir)
      rw [hrun]
      dsimp only at h6
      rw [hrows, update_of_ne hne, more_eq hfits] at h6
      have hchange : Change dot dotdot T _ := .mkdir hproper hd hfree hkind hempty
      cases ret with
      | error e => exact ⟨_, h6, .single hchange, fun hstrict => nomatch hok hstrict⟩
      | ok u =>
        exact ⟨_, h6, .single hchange, hkind, hfree, edits_mkdir hd hkind hempty rfl rfl rfl⟩
    · rw [hrun]
      exact h.does_rollBack h4 hbeside hnew hkind e

end

variable {T' : Tree Nat Name}

/-- Node `j` may have been forgotten. -/
def Dropped (j : Nat) (T T' : Tree Nat Name) : Prop := T' = T ∨ T.nlink j = 0 ∧ T' = T.without j

theorem dropped_iput (h : View c m T) (j : Nat) (last : Bool) :
    ∃ T', View c (m.iput j last) T' ∧ Dropped j T T' := by
  rcases h.iput j last with h1 | ⟨hzero, h1⟩
  · exact ⟨T, h1, .inl rfl⟩
  · exact ⟨T.without j, h1, .inr ⟨hzero, rfl⟩⟩

theorem Dropped.same {j : Nat} (h : Dropped j T₁ T') : T'.Linked = T₁.Linked ∧ T'.entry = T₁.entry := by
  rcases h with rfl | ⟨hzero, rfl⟩
  · exact ⟨rfl, rfl⟩
  · exact entry_drop hzero

theorem reaches_dropped {j : Nat} (hreach : Reaches T T₁) (hdropped : Dropped j T₁ T') : Reaches T T' := by
  rcases hdropped with rfl | ⟨hzero, rfl⟩
  · exact hreach
  · exact hreach.tail (.drop hzero)

variable {post : Unit → Tree Nat Name → Prop}

theorem does_iput {ret : Except Errno Unit} (h : Does c T post (ret, m'))
    (hpost : Visible (post ())) (i : Nat) (last : Bool) :
    Does c T post (ret, m'.iput i last) := by
  obtain ⟨T₁, h1, hreach, hdone⟩ := h
  obtain ⟨T', h', hdropped⟩ := h1.dropped_iput i last
  obtain ⟨hlinked, hentry⟩ := hdropped.same
  refine ⟨T', h', reaches_dropped hreach hdropped, ?_⟩
  cases ret with
  | error e => exact fun hstrict => visible_edits _ _ _ _ T₁ T' (hdone hstrict) hlinked hentry
  | ok u => exact hpost T₁ T' hdone hlinked hentry

/-- The end of a call that has only to write an inode. -/
theorem does_write {ret : Except Errno Unit} (h : View c m' T') (hreach : Reaches T T')
    (hok : c.strict = true → ret = .ok ()) (hpost : post () T') : Does c T post (ret, m') := by
  refine ⟨T', h, hreach, ?_⟩
  cases ret with
  | error e => exact fun hstrict => nomatch hok hstrict
  | ok u => exact hpost

theorem empty_of_names (hempty : ∀ n, T.names (i, n) ≠ none → n = dot ∨ n = dotdot) :
    Empty T i := by
  intro n hn
  refine entry_eq_none ?_
  by_contra hsome
  exact (hempty n hsome).elim hn.1 hn.2

section

variable (h : View c m T) (hT : Exact T) (hname : properName name = true)
  (hentry : T.entry (d, name) = some i)
include h hT hname hentry

theorem unlink (last : Bool) :
    Does c T (fun _ => Removed T d i name false) (m.ext2Unlink d i name last) ∧
      (c.strict = true → m.removeClears d i name false = true →
        (m.ext2Unlink d i name last).1 = .ok ()) := by
  obtain ⟨-, hproper⟩ := properName_iff hname
  obtain ⟨hd, hnames⟩ := entry_eq_some.mp hentry
  have hi := hT.live (d, name) i hentry
  obtain ⟨isDir, hkind⟩ := ne_none_iff_exists'.mp hi
  rw [Disk.ext2Unlink, Disk.removeClears, if_neg Bool.false_ne_true, h.isDir_eq isDir hkind]
  split_ifs with hdir
  · rw [hdir]
    exact ⟨h.fails _, fun _ hclears => nomatch hclears⟩
  rw [Bool.not_eq_true] at hdir
  subst hdir
  obtain ⟨m1, hrun, h1⟩ := h.deleteEntry hd.1 (by rw [hnames]; exact some_ne_none i)
    hproper.2
  rw [hrun]
  dsimp only [andThen]
  have h2 := h1.setNlink hi less
  obtain ⟨ret, m3, hrun, h3, hok, -⟩ := h2.writeInode hi
  rw [hrun]
  rw [less_eq] at h3
  exact ⟨does_iput (h3.does_write (.single (.unlink hproper hentry hkind)) hok ⟨hkind,
    fun hfalse => (nomatch hfalse), edits_file (by simp [hkind]) (kind_file hkind) rfl rfl hd⟩)
    (Removed.visible T d i name false) i last, fun hstrict _ => hok hstrict⟩

theorem rmdir (last : Bool) :
    Does c T (fun _ => Removed T d i name true) (m.ext2Rmdir d i name last) ∧
      (c.strict = true → m.removeClears d i name true = true →
        (m.ext2Rmdir d i name last).1 = .ok ()) := by
  obtain ⟨-, hproper⟩ := properName_iff hname
  obtain ⟨hd, hnames⟩ := entry_eq_some.mp hentry
  have hi := hT.live (d, name) i hentry
  obtain ⟨isDir, hkind⟩ := ne_none_iff_exists'.mp hi
  rw [Disk.ext2Rmdir, Disk.removeClears, if_pos rfl, h.isDir_eq isDir hkind]
  split_ifs with hdir
  · rw [hdir]
    exact ⟨h.fails _, fun _ hclears => nomatch hclears⟩
  rw [Bool.not_eq_false] at hdir
  subst hdir
  obtain ⟨empty, m1, hrun, h1, hempty⟩ := h.isEmpty hkind
  rw [hrun]
  dsimp only [andThen]
  split_ifs with hfull
  · rw [hfull]
    exact ⟨h1.fails _, fun _ hclears => nomatch hclears⟩
  rw [Bool.not_eq_false] at hfull
  obtain ⟨m2, hrun, h2⟩ := h1.deleteEntry hd.1 (by rw [hnames]; exact some_ne_none i)
    hproper.2
  rw [hrun]
  dsimp only
  have h3 := (h2.setNlink (kind_ne_none hd.1) less).setNlink hi fun _ => 0
  rw [less_eq] at h3
  have hchange := Change.rmdir hproper hentry hkind (hempty hfull)
  obtain ⟨ret, m4, hrun, h4, hok, -⟩ := h3.writeInode hi
  rw [hrun]
  cases ret with
  | error e =>
    exact ⟨does_iput ⟨_, h4, .single hchange, fun hstrict => nomatch hok hstrict⟩
      (Removed.visible T d i name true) i last, fun hstrict => nomatch hok hstrict⟩
  | ok u =>
    dsimp only
    obtain ⟨ret, m5, hrun, h5, hok, -⟩ := h4.writeInode (kind_ne_none hd.1)
    rw [hrun]
    exact ⟨does_iput (h5.does_write (.single hchange) hok ⟨hkind,
      fun _ => empty_of_names (hempty hfull),
      hT.edits_rmdir (by decide) hproper hentry hkind (hempty hfull) rfl rfl rfl⟩)
      (Removed.visible T d i name true) i last, fun hstrict _ => hok hstrict⟩

theorem remove (directory last : Bool) :
    Does c T (fun _ => Removed T d i name directory) (m.remove d i name directory last) ∧
      (c.strict = true → m.removeClears d i name directory = true →
        (m.remove d i name directory last).1 = .ok ()) := by
  cases directory with
  | false => exact h.unlink hT hname hentry last
  | true => exact h.rmdir hT hname hentry last

end

theorem undoLink
    (h : View c m ⟨T.kind, update T.nlink i (T.nlink i + 1), update T.names (d, name) (some i)⟩)
    (hd : T.kind d = some true) (hname : name ≠ dotdot) (hfree : T.names (d, name) = none)
    (hi : T.kind i ≠ none) (hfits : Fits (T.nlink i)) (e : Errno) :
    Does c T post (Disk.undoLink d i name e m) := by
  obtain ⟨m1, hrun, h1⟩ := h.deleteEntry hd (update_ne_none T.names (d, name) i) hname
  have h2 := h1.setNlink hi fewer
  obtain ⟨ret, m3, hrun', h3, -, -⟩ := h2.writeInode hi
  dsimp only at h3
  rw [update_undo hfree, update_idem, update_self, fewer_succ hfits, update_eq_self] at h3
  rw [Disk.undoLink, hrun, hrun']
  cases ret with
  | error e' => exact h3.fails e'
  | ok u => exact h3.fails e

theorem link (h : View c m T) (hd : T.Linked d)
    (hname : properName name = true) (hi : T.kind i ≠ none) (hfits : Fits (T.nlink i)) :
    Does c T (fun _ => Named T d i name) (m.ext2Link i d name) := by
  obtain ⟨hlen, hproper⟩ := properName_iff hname
  obtain ⟨isDir, hkind⟩ := ne_none_iff_exists'.mp hi
  rw [Disk.ext2Link, h.isDir_eq isDir hkind]
  split_ifs with hdir
  · exact h.fails _
  rw [Bool.not_eq_true] at hdir
  subst hdir
  obtain ⟨ret, m1, hrun, ⟨rfl, hfree, h1⟩ | ⟨e, rfl, h1⟩⟩ := h.addEntry hd.1 hlen hi
    (m.fileTypeOf i)
  swap
  · rw [hrun]
    exact h1.fails e
  rw [hrun]
  dsimp only [andThen]
  have h2 := h1.setNlink hi more
  rw [more_eq hfits] at h2
  obtain ⟨ret, m3, hrun, h3, -, -⟩ := h2.writeInode hi
  rw [hrun]
  cases ret with
  | error e => exact h3.undoLink hd.1 hproper.2 hfree hi hfits e
  | ok u =>
    dsimp only
    obtain ⟨ret, m4, hrun, h4, -, -⟩ := h3.writeInode (kind_ne_none hd.1)
    rw [hrun]
    cases ret with
    | error e => exact h4.undoLink hd.1 hproper.2 hfree hi hfits e
    | ok u =>
      exact ⟨_, h4, .single (.link hproper hd hfree hkind), hfree,
        edits_file (by simp [hkind]) (kind_file hkind) rfl rfl hd⟩

/-! ## Renaming -/

section Renaming

variable {d' : Nat} {name' : Name}

/-- The names when directory `i` has come below `d'`. -/
def withDotdot (names : Nat × Name → Option Nat) (i d' : Nat) (crossDir : Bool) :
    Nat × Name → Option Nat :=
  if crossDir then update names (i, dotdot) (some d') else names

/-- The names when `name` has become `name'`. -/
def movedNames (T : Tree Nat Name) (d i : Nat) (name : Name) (d' : Nat) (name' : Name)
    (crossDir : Bool) : Nat × Name → Option Nat :=
  update (withDotdot (update T.names (d', name') (some i)) i d' crossDir)
    (d, name) none

theorem withDotdot_proper (names : Nat × Name → Option Nat) (i d' : Nat) (crossDir : Bool) {x : Nat}
    (hn : name ≠ dotdot) : withDotdot names i d' crossDir (x, name) = names (x, name) := by
  rw [withDotdot]
  split_ifs
  · exact update_of_ne (fun hsame => hn (congrArg Prod.snd hsame)) ..
  · rfl

/-- The link counts when a directory has changed places. -/
def movedCounts (T : Tree Nat Name) (d d' : Nat) (crossDir : Bool) : Nat → Nat :=
  if crossDir then update (update T.nlink d (T.nlink d - 1)) d' (T.nlink d' + 1)
  else T.nlink

/-- The tree when `name` has become `name'`. -/
def moved (T : Tree Nat Name) (d i : Nat) (name : Name) (d' : Nat) (name' : Name)
    (crossDir : Bool) : Tree Nat Name :=
  ⟨T.kind, movedCounts T d d' crossDir, movedNames T d i name d' name' crossDir⟩

theorem change_moved (hn : Proper dot dotdot name) (hn' : Proper dot dotdot name')
    (hentry : T.entry (d, name) = some i) (hd' : T.Linked d') (hfree : T.names (d', name') = none)
    (hkind : T.kind i = some isDir) :
    Change dot dotdot T (moved T d i name d' name' (isDir && d != d')) := by
  cases hcross : isDir && d != d' with
  | false =>
    refine .move hn hn' hentry hd' hfree ?_
    rw [Bool.and_eq_false_iff, bne_eq_false_iff_eq] at hcross
    rcases hcross with rfl | rfl
    · exact .inl hkind
    · exact .inr rfl
  | true =>
    rw [Bool.and_eq_true, bne_iff_ne] at hcross
    obtain ⟨rfl, hne⟩ := hcross
    exact .moveDir hn hn' hentry hd' hfree hkind hne.symm

variable {crossDir : Bool}

/-- The proper names when `name` has become `name'`. -/
theorem entry_moved (hT : Exact T) (hn : Proper dot dotdot name)
    (hentry : T.entry (d, name) = some i) (hd' : T.Linked d')
    (hcross : crossDir = true → T.kind i = some true) :
    (moved T d i name d' name' crossDir).Linked = T.Linked ∧
      ∀ x n, Proper dot dotdot n → (moved T d i name d' name' crossDir).entry (x, n) =
        update (update T.entry (d', name') (some i)) (d, name) none (x, n) := by
  have hd := (entry_eq_some.mp hentry).1
  cases crossDir with
  | false =>
    obtain ⟨hlinked, hentry'⟩ := @entry_move _ _ _ _ T (moved T d i name d' name' false) d d' i
      name name' hd' rfl rfl rfl hd
    exact ⟨hlinked, fun x n _ => by rw [hentry']⟩
  | true =>
    obtain ⟨hlinked, hentry'⟩ := @Inv.entry_moveDir _ _ _ _ ext2RootIno dot dotdot T
      (moved T d i name d' name' true) d d' i name name' hT (by decide) hn hentry hd' (hcross rfl)
      rfl rfl rfl
    refine ⟨hlinked, fun x n hproper => ?_⟩
    rw [hentry']
    simp only [update_pair, hproper.2, and_false, if_false]

section Entries

variable {isDir crossDir : Bool} {m1 : Disk}

/-- The end of `ext2_rename`. -/
theorem countMoved (h : View c m T) (hd : T.kind d ≠ none) (hd' : T.kind d' ≠ none)
    (hcross : crossDir = true → d ≠ d') (hfits : Fits (T.nlink d')) :
    ∃ ret m', (if crossDir then m.countMoved d d' else (.ok (), m)) = (ret, m') ∧
      View c m' { T with nlink := movedCounts T d d' crossDir } ∧
      (c.strict = true → ret = .ok ()) := by
  cases crossDir with
  | false => exact ⟨_, m, rfl, h, fun _ => rfl⟩
  | true =>
    have h1 := (h.setNlink hd less).setNlink hd' more
    dsimp only at h1
    rw [less_eq, update_of_ne (hcross rfl).symm, more_eq hfits] at h1
    obtain ⟨ret, m2, hrun, h2, hok, -⟩ := h1.writeInode hd
    rw [Disk.countMoved, hrun]
    cases ret with
    | error e => exact ⟨_, m2, rfl, h2, fun hstrict => nomatch hok hstrict⟩
    | ok u =>
      obtain ⟨ret, m3, hrun, h3, hok, -⟩ := h2.writeInode hd'
      exact ⟨ret, m3, hrun, h3, hok⟩

/-- The part of `ext2_rename` after the new name. -/
theorem moveEntries (h1 : View c m1 ⟨T.kind, T.nlink, update T.names (d', name') (some i)⟩)
    (hT : Exact T) (hn : Proper dot dotdot name) (hn' : Proper dot dotdot name')
    (hentry : T.entry (d, name) = some i) (hd' : T.kind d' ≠ none)
    (hne : T.names (d', name') ≠ some i) (hcross : crossDir = true → T.kind i = some true)
    (undo undo' : Errno → Disk → Except Errno Unit × Disk) :
    ∃ m', andThen (if crossDir then m1.onRecords i (ext2SetDotdot d') else (.ok (), m1)) undo
        (fun _ m => andThen (m.onRecords d (Directory.ext2DeleteEntry name)) undo' fun _ m =>
          (.ok (), m)) = (.ok (), m') ∧
      View c m' ⟨T.kind, T.nlink, movedNames T d i name d' name' crossDir⟩ := by
  obtain ⟨hd, hnames⟩ := entry_eq_some.mp hentry
  obtain ⟨m2, hrun, h2⟩ : ∃ m2,
      (if crossDir then m1.onRecords i (ext2SetDotdot d') else (.ok (), m1)) = (.ok (), m2) ∧
      View c m2 ⟨T.kind, T.nlink,
        withDotdot (update T.names (d', name') (some i)) i d' crossDir⟩ := by
    cases crossDir with
    | false => exact ⟨m1, rfl, h1⟩
    | true =>
      have hkind := hcross rfl
      obtain ⟨-, hparent⟩ := entry_eq_some.mp (hT.parent d name i hn hentry hkind).2
      refine h1.setDotdot hkind ?_ hd'
      dsimp only
      rw [update_of_ne (fun hsame => hn'.2 (congrArg Prod.snd hsame).symm), hparent]
      exact some_ne_none d
  have hkey : (d, name) ≠ (d', name') := by
    intro hsame
    rw [← hsame] at hne
    exact hne hnames
  have hold : withDotdot (update T.names (d', name') (some i)) i d' crossDir (d, name) ≠
      none := by
    rw [withDotdot_proper _ _ _ _ hn.2, update_of_ne hkey, hnames]
    exact some_ne_none i
  obtain ⟨m3, hrun', h3⟩ := h2.deleteEntry hd.1 hold hn.2
  exact ⟨m3, by rw [hrun, andThen, hrun', andThen], h3⟩

variable (h : View c m T) (hT : Exact T) (hn : Proper dot dotdot name)
  (hn' : Proper dot dotdot name') (hlen : name'.length < 256)
  (hentry : T.entry (d, name) = some i) (hd' : T.Linked d')
include h hT hn hn' hlen hentry hd'

/-- Only a new name can fail. -/
theorem renameEntries {old : Option Nat} (hold : T.names (d', name') = old) (hne : old ≠ some i)
    (hcross : crossDir = true → T.kind i = some true) :
    ∃ ret m', m.renameEntries d i name d' name' old crossDir = (ret, m') ∧
      ((ret = .ok () ∧ View c m' ⟨T.kind, T.nlink, movedNames T d i name d' name' crossDir⟩) ∨
        ∃ e, ret = .error e ∧ View c m' T) := by
  have hi := hT.live _ i hentry
  have hlive := kind_ne_none hd'.1
  rw [← hold] at hne
  unfold Disk.renameEntries
  cases old with
  | some j =>
    obtain ⟨m1, hrun, h1⟩ := h.replaceEntry hd'.1 (by rw [hold]; exact some_ne_none j) hi
      (m.fileTypeOf i)
    obtain ⟨m2, hmove, h2⟩ := h1.moveEntries hT hn hn' hentry hlive hne hcross _ _
    dsimp only
    rw [hrun]
    exact ⟨_, m2, hmove, .inl ⟨rfl, h2⟩⟩
  | none =>
    obtain ⟨ret, m1, hrun, ⟨rfl, -, h1⟩ | ⟨e, rfl, h1⟩⟩ := h.addEntry hd'.1 hlen hi (m.fileTypeOf i)
    · obtain ⟨m2, hmove, h2⟩ := h1.moveEntries hT hn hn' hentry hlive hne hcross _ _
      dsimp only
      rw [hrun]
      exact ⟨_, m2, hmove, .inl ⟨rfl, h2⟩⟩
    · dsimp only
      rw [hrun]
      exact ⟨_, m1, rfl, .inr ⟨e, rfl, h1⟩⟩

theorem rename_fresh (hfree : T.names (d', name') = none) (hfits : Fits (T.nlink d'))
    (noReplace last : Bool) :
    Does c T (fun _ => Renamed T d i name d' name')
        (m.ext2Rename d i name d' name' none noReplace last) ∧
      (c.strict = true → m.renameClears d i name d' name' none noReplace last = true →
        (m.ext2Rename d i name d' name' none noReplace last).1 = .ok ()) := by
  obtain ⟨isDir, hkind⟩ := ne_none_iff_exists'.mp (hT.live _ i hentry)
  have hd := (entry_eq_some.mp hentry).1
  have hother := (some_ne_none i).symm
  rw [Disk.ext2Rename, Disk.renameClears, h.isDir_eq isDir hkind, Option.isSome_none,
    Bool.and_false, if_neg Bool.false_ne_true, Disk.renameNames]
  dsimp only [andThen]
  have hcross : (isDir && d != d') = true → T.kind i = some true ∧ d ≠ d' := by
    intro hboth
    rw [Bool.and_eq_true, bne_iff_ne] at hboth
    rw [hkind, hboth.1]
    exact ⟨rfl, hboth.2⟩
  obtain ⟨ret, m1, hrun, ⟨rfl, h1⟩ | ⟨e, rfl, h1⟩⟩ := h.renameEntries hT hn hn' hlen hentry hd'
    hfree hother fun hboth => (hcross hboth).1
  · rw [hrun]
    obtain ⟨ret, m2, hrun, h2, hok⟩ := h1.countMoved (kind_ne_none hd.1) (kind_ne_none hd'.1)
      (fun hboth => (hcross hboth).2) hfits
    dsimp only
    rw [hrun]
    refine ⟨h2.does_write (.single (change_moved hn hn' hentry hd' hfree hkind)) hok ?_,
      fun hstrict _ => hok hstrict⟩
    obtain ⟨hlinked, hnames⟩ := @entry_moved T d i name d' name'
      (isDir && d != d') hT hn hentry hd' fun hboth => (hcross hboth).1
    refine .inr ⟨hfree ▸ hother, none, fun _ hfalse => (nomatch hfalse), fun j hj => ?_,
      .of_linked hlinked hnames⟩
    rw [entry_eq_none hfree] at hj
    cases hj
  · rw [hrun]
    refine ⟨h1.fails e, fun _ hclears => ?_⟩
    rw [Bool.and_eq_true] at hclears
    cases hclears.2

end Entries

variable {j : Nat}

theorem dropReplaced_file (h : View c m T) (hj : T.kind j = some false) (last : Bool) :
    ∃ ret m' T', m.dropReplaced d' j last = (ret, m') ∧ View c m' T' ∧
      Dropped j ⟨T.kind, update T.nlink j (T.nlink j - 1), T.names⟩ T' ∧
      (c.strict = true → ret = .ok ()) := by
  have h1 := h.setNlink (kind_ne_none hj) less
  rw [less_eq] at h1
  obtain ⟨ret, m2, hrun, h2, hok, -⟩ := h1.writeInode (kind_ne_none hj)
  rw [Disk.dropReplaced, h.isDir_eq false hj, if_neg Bool.false_ne_true, andThen, hrun]
  cases ret with
  | error e => exact ⟨_, m2, _, rfl, h2, .inl rfl, fun hstrict => nomatch hok hstrict⟩
  | ok u =>
    obtain ⟨T', h3, hdropped⟩ := h2.dropped_iput j last
    exact ⟨_, _, T', rfl, h3, hdropped, fun _ => rfl⟩

/-- Both inodes are written. -/
theorem dropReplaced_dir (h : View c m T) (hj : T.kind j = some true)
    (hd' : T.kind d' ≠ none) (hne : d' ≠ j) (last : Bool) :
    (c.strict = false ∧ ∃ e m', m.dropReplaced d' j last = (.error e, m')) ∨
      ∃ m' T', m.dropReplaced d' j last = (.ok (), m') ∧ View c m' T' ∧
        Dropped j ⟨T.kind, update (update T.nlink d' (T.nlink d' - 1)) j 0, T.names⟩ T' := by
  have h1 := (h.setNlink (kind_ne_none hj) fun _ => 0).setNlink hd' less
  dsimp only at h1
  rw [less_eq, update_of_ne hne, update_comm hne.symm] at h1
  have hfailed : ∀ {ret : Except Errno Unit} {e : Errno}, (c.strict = true → ret = .ok ()) →
      ret = .error e → c.strict = false := by
    rintro ret e hok rfl
    exact Bool.eq_false_iff.mpr fun htrue => nomatch hok htrue
  obtain ⟨ret, m2, hrun, h2, hok, -⟩ := h1.writeInode hd'
  rw [Disk.dropReplaced, h.isDir_eq true hj, if_pos rfl, hrun]
  cases ret with
  | error e => exact .inl ⟨hfailed hok rfl, e, m2, rfl⟩
  | ok u =>
    obtain ⟨ret, m3, hrun, h3, hok, -⟩ := h2.writeInode (kind_ne_none hj)
    rw [andThen, hrun]
    cases ret with
    | error e => exact .inl ⟨hfailed hok rfl, e, m3, rfl⟩
    | ok u =>
      obtain ⟨T', h4, hdropped⟩ := h3.dropped_iput j last
      exact .inr ⟨_, T', rfl, h4, hdropped⟩

section Replacing

variable {j : Nat}

section

variable (hT : Exact T) (hn : Proper dot dotdot name) (hn' : Proper dot dotdot name')
  (hentry : T.entry (d, name) = some i) (hentry' : T.entry (d', name') = some j) (hne : j ≠ i)
include hT hn hn' hentry hentry' hne

/-- Node `i` takes the name of `j`, which loses it first. -/
theorem renamed_over (hi : T.kind i = some isDir) (hj : T.kind j = some isDir)
    (hempty : isDir = true → Empty T j) {nlink : Nat → Nat}
    (hchange : Change dot dotdot T ⟨T.kind, nlink, update T.names (d', name') none⟩)
    (hkept : nlink d ≠ 0) (hkept' : nlink d' ≠ 0)
    (hedits : Edits dot dotdot T ⟨T.kind, nlink, update T.names (d', name') none⟩
      (update T.entry (d', name') none) (if isDir then some j else none) none)
    (hdropped : Dropped j ⟨T.kind,
      movedCounts ⟨T.kind, nlink, update T.names (d', name') none⟩ d d' (isDir && d != d'),
      movedNames T d i name d' name' (isDir && d != d')⟩ T') :
    Reaches T T' ∧ Renamed T d i name d' name' T' := by
  obtain ⟨hd, hnames⟩ := entry_eq_some.mp hentry
  obtain ⟨hd', hnames'⟩ := entry_eq_some.mp hentry'
  have hother : T.names (d', name') ≠ some i := by
    rw [hnames']
    exact fun hsame => hne (Option.some.inj hsame)
  generalize hT1 : Tree.mk T.kind nlink (update T.names (d', name') none) = T₁ at *
  have hkind1 : T₁.kind = T.kind := by rw [← hT1]
  have hnames1 : T₁.names = update T.names (d', name') none := by rw [← hT1]
  have hentry1 : T₁.entry (d, name) = some i := by
    subst hT1
    refine entry_eq_some.mpr ⟨⟨hd.1, hkept⟩, ?_⟩
    dsimp only
    rw [update_of_ne, hnames]
    intro hsame
    rw [← hsame] at hother
    exact hother hnames
  have hd1 : T₁.Linked d' := by
    subst hT1
    exact ⟨hd'.1, hkept'⟩
  rw [← hkind1] at hi
  have hmove := change_moved hn hn' hentry1 hd1 (by rw [hnames1, update_self]) hi
  -- a taken name does not matter after the move
  have hdropped' : Dropped j (moved T₁ d i name d' name' (isDir && d != d')) T' := by
    rw [moved, hkind1, movedNames, hnames1, update_idem]
    exact hdropped
  obtain ⟨hlinked, hentries⟩ := @entry_moved T₁ d i name d' name' (isDir && d != d')
    (hT.change (by decide) hchange) hn hentry1 hd1 fun hcross => by
      rw [hi, (Bool.and_eq_true_iff.mp hcross).1]
  obtain ⟨hlinked', hentries'⟩ := hdropped'.same
  refine ⟨reaches_dropped (.tail (.single hchange) hmove) hdropped', .inr ⟨hother, _,
    fun x hx => ?_, fun x hx hdir => ?_,
    hedits.then (hlinked'.trans hlinked) fun x n hproper hx => ?_⟩⟩
  · rw [Option.ite_none_right_eq_some] at hx
    obtain ⟨rfl, hx⟩ := hx
    cases hx
    exact ⟨hentry', hj, hempty rfl⟩
  · obtain rfl := Option.some.inj (hentry'.symm.trans hx)
    rw [hj] at hdir
    cases hdir
    rfl
  · rw [hentries', hentries x n hproper, update_pair, update_pair, update_pair, update_pair, hx,
      update_pair]
    split_ifs <;> rfl

variable (h : View c m T) (hlen : name'.length < 256)
include h hlen

/-- A file takes the name of a file. -/
theorem rename_file (hi : T.kind i = some false) (hj : T.kind j = some false) (last : Bool) :
    Does c T (fun _ => Renamed T d i name d' name')
      (andThen (andThen (m.renameEntries d i name d' name' (some j) false) Disk.giveUp fun _ m =>
        m.dropReplaced d' j last) Disk.giveUp fun _ m => (.ok (), m)) := by
  have hd := (entry_eq_some.mp hentry).1
  obtain ⟨hd', hnames'⟩ := entry_eq_some.mp hentry'
  obtain ⟨ret, m1, hrun, ⟨rfl, h1⟩ | ⟨e, rfl, h1⟩⟩ := @renameEntries c m T d i name d' name' false h
    hT hn hn' hlen hentry hd' _ hnames' (fun hsame => hne (Option.some.inj hsame))
    fun hfalse => absurd hfalse Bool.false_ne_true
  swap
  · rw [hrun]
    exact h1.fails e
  rw [hrun]
  dsimp only [andThen]
  obtain ⟨ret, m2, T', hrun, h2, hdropped, hok⟩ := @dropReplaced_file c m1 _ d' j h1 hj last
  have hkept : ∀ x, T.Linked x → update T.nlink j (T.nlink j - 1) x ≠ 0 := by
    rintro x ⟨hx, hpos⟩
    rw [update_of_ne]
    · exact hpos
    · rintro rfl
      rw [hx] at hj
      cases hj
  obtain ⟨hreach, hrenamed⟩ := renamed_over hT hn hn' hentry hentry' hne hi hj
    (fun hfalse => absurd hfalse Bool.false_ne_true) (.unlink hn' hentry' hj) (hkept d hd)
    (hkept d' hd') (edits_file (by simp [hj]) (kind_file hj) rfl rfl hd') hdropped
  rw [hrun]
  cases ret with
  | error e => exact ⟨T', h2, hreach, fun hstrict => nomatch hok hstrict⟩
  | ok u => exact ⟨T', h2, hreach, hrenamed⟩

/-- A directory takes the name of an empty one. -/
theorem rename_dir (hi : T.kind i = some true) (hj : T.kind j = some true)
    (hempty : ∀ n, T.names (j, n) ≠ none → n = dot ∨ n = dotdot) (hfits : Fits (T.nlink d'))
    {last : Bool} {r1 r : Except Errno Unit × Disk}
    (hr1 : r1 = andThen (m.renameEntries d i name d' name' (some j) (d != d')) Disk.giveUp
      fun _ m => m.dropReplaced d' j last)
    (hr : r = andThen r1 Disk.giveUp fun _ m => if d != d' then m.countMoved d d' else (.ok (), m))
    (hstrict : c.strict = true ∨ r.1 = .ok ()) :
    Does c T (fun _ => Renamed T d i name d' name') r ∧
      (c.strict = true → r1.1.isOk = true → r.1 = .ok ()) := by
  obtain ⟨hd, hnames⟩ := entry_eq_some.mp hentry
  obtain ⟨hd', hnames'⟩ := entry_eq_some.mp hentry'
  -- the directory that goes has no proper names
  have hnot : ∀ x n v, Proper dot dotdot n → T.names (x, n) = some v → x ≠ j := by
    rintro x n v hproper hv rfl
    exact (hempty n (by rw [hv]; exact some_ne_none v)).elim hproper.1 hproper.2
  have hdj := hnot d name i hn hnames
  have hdj' := hnot d' name' j hn' hnames'
  obtain ⟨ret, m1, hrun, ⟨rfl, h1⟩ | ⟨e, rfl, h1⟩⟩ := @renameEntries c m T d i name d' name'
    (d != d') h hT hn hn' hlen hentry hd' _ hnames' (fun hsame => hne (Option.some.inj hsame))
    fun _ => hi
  swap
  · rw [hrun] at hr1
    rw [hr, hr1]
    exact ⟨h1.fails e, fun _ hfalse => absurd hfalse Bool.false_ne_true⟩
  rw [hrun] at hr1
  dsimp only [andThen] at hr1
  obtain ⟨hfails, e, m2, hrun⟩ | ⟨m2, T', hrun, h2, hdropped⟩ :=
    h1.dropReplaced_dir hj (kind_ne_none hd'.1) hdj' last
  · rw [hr1, hrun] at hr
    subst hr
    rcases hstrict with hstrict | hok
    · rw [hfails] at hstrict
      cases hstrict
    · cases hok
  rw [hr1, hrun] at hr
  dsimp only [andThen] at hdropped hr
  -- its `..` and the `.` of the directory above
  have htwo : 2 ≤ T.nlink d' := (hT.exact d' (kind_ne_none hd'.1)).two_le
    (fun hsame : (j, dotdot) = (d', dot) => hdj' (congrArg Prod.fst hsame).symm) (hT.self d' hd')
    (hT.parent d' name' j hn' hentry' hj).2
  have hkept : ∀ x, x ≠ j → T.Linked x →
      update (update T.nlink d' (T.nlink d' - 1)) j 0 x ≠ 0 := by
    rintro x hx ⟨-, hpos⟩
    rw [update_of_ne hx, update_apply]
    split_ifs <;> omega
  have hkinds : ∀ x, x ≠ j → T.kind x ≠ none → T'.kind x ≠ none := by
    intro x hx hkind
    rcases hdropped with rfl | ⟨-, rfl⟩
    · exact hkind
    · exact (update_of_ne hx ..).trans_ne hkind
  have hfits' : Fits (T'.nlink d') := by
    have hcount : T'.nlink d' = T.nlink d' - 1 := by
      rcases hdropped with rfl | ⟨-, rfl⟩
      · exact (update_of_ne hdj' ..).trans (update_self ..)
      · exact (update_of_ne hdj' ..).trans (update_self ..)
    omega
  obtain ⟨ret, m3, hrun, h3, hok⟩ := @countMoved c m2 T' d d' (d != d') h2
    (hkinds d hdj (kind_ne_none hd.1)) (hkinds d' hdj' (kind_ne_none hd'.1)) bne_iff_ne.mp hfits'
  have hdropped' : Dropped j ⟨T.kind, movedCounts ⟨T.kind,
      update (update T.nlink d' (T.nlink d' - 1)) j 0, update T.names (d', name') none⟩ d d'
      (d != d'), movedNames T d i name d' name' (d != d')⟩
      { T' with nlink := movedCounts T' d d' (d != d') } := by
    rcases hdropped with rfl | ⟨hzero, rfl⟩
    · exact .inl rfl
    · refine .inr ⟨?_, rfl⟩
      dsimp only [movedCounts]
      split_ifs
      · rw [update_of_ne hdj'.symm, update_of_ne hdj.symm]
        exact hzero
      · exact hzero
  obtain ⟨hreach, hrenamed⟩ := renamed_over hT hn hn' hentry hentry' hne hi hj
    (fun _ => empty_of_names hempty) (.rmdir hn' hentry' hj hempty) (hkept d hdj hd)
    (hkept d' hdj' hd') (hT.edits_rmdir (by decide) hn' hentry' hj hempty rfl rfl rfl) hdropped'
  rw [hr, hrun]
  exact ⟨h3.does_write hreach hok hrenamed, fun hstrict _ => hok hstrict⟩

end

end Replacing

theorem rename (h : View c m T) (hT : Exact T) (hname : properName name = true)
    (hname' : properName name' = true) (hentry : T.entry (d, name) = some i) (hd' : T.Linked d')
    (hfits : Fits (T.nlink d')) (noReplace last : Bool)
    (hstrict : ∀ j, T.names (d', name') = some j → T.kind j = some true → c.strict = true ∨
      (m.ext2Rename d i name d' name' (some j) noReplace last).1 = .ok ()) :
    Does c T (fun _ => Renamed T d i name d' name')
        (m.ext2Rename d i name d' name' (T.names (d', name')) noReplace last) ∧
      (c.strict = true →
        m.renameClears d i name d' name' (T.names (d', name')) noReplace last = true →
        (m.ext2Rename d i name d' name' (T.names (d', name')) noReplace last).1 = .ok ()) := by
  obtain ⟨-, hn⟩ := properName_iff hname
  obtain ⟨hlen, hn'⟩ := properName_iff hname'
  cases hnames' : T.names (d', name') with
  | none => exact h.rename_fresh hT hn hn' hlen hentry hd' hnames' hfits noReplace last
  | some j =>
    have hentry' := entry_eq_some.mpr ⟨hd', hnames'⟩
    obtain ⟨isDir, hi⟩ := ne_none_iff_exists'.mp (hT.live _ i hentry)
    obtain ⟨isDir', hj⟩ := ne_none_iff_exists'.mp (hT.live _ j hentry')
    have hstrict' := hstrict j hnames'
    rw [Disk.ext2Rename] at hstrict' ⊢
    rw [Disk.renameClears]
    by_cases hkeep : (noReplace && (some j).isSome) = true
    · rw [hkeep]
      exact ⟨h.fails _, fun _ hfalse => absurd hfalse Bool.false_ne_true⟩
    by_cases hsame : some j = some i
    · rw [if_neg hkeep, if_pos hsame]
      exact ⟨⟨T, h, .refl, .inl ⟨hnames'.trans hsame, .refl T⟩⟩, fun _ _ => rfl⟩
    have hne : j ≠ i := fun heq => hsame (congrArg some heq)
    have hnot : ∀ {b : Bool} {p : Prop}, (b && false) = true → p := by
      intro b p hfalse
      rw [Bool.and_false] at hfalse
      cases hfalse
    rw [if_neg hkeep, if_neg hsame, Disk.renameNames, h.isDir_eq isDir hi,
      h.isDir_eq isDir' hj] at hstrict' ⊢
    cases isDir with
    | false =>
      cases isDir' with
      | true => exact ⟨h.fails _, fun _ hfalse => hnot hfalse⟩
      | false =>
        refine ⟨rename_file hT hn hn' hentry hentry' hne h hlen hi hj last, fun _ hclears => ?_⟩
        rw [Bool.and_eq_true] at hclears
        exact andThen_isOk hclears.2
    | true =>
      cases isDir' with
      | false => exact ⟨h.fails _, fun _ hfalse => hnot hfalse⟩
      | true =>
        obtain ⟨empty, m1, hrun, h1, hempty⟩ := h.isEmpty hj
        rw [hrun] at hstrict' ⊢
        cases empty with
        | false => exact ⟨h1.fails _, fun _ hfalse => hnot hfalse⟩
        | true =>
          obtain ⟨hdoes, hok⟩ := rename_dir hT hn hn' hentry hentry' hne h1 hlen hi hj
            (hempty rfl) hfits rfl rfl (hstrict' hj)
          refine ⟨hdoes, fun hstrict hclears => hok hstrict ?_⟩
          rw [Bool.and_eq_true] at hclears
          exact hclears.2

end Renaming

/-! ## Every call -/

theorem keeps_returns {r : Except Errno Nat × Disk} (h : Keeps c T r) : Keeps c T (returns r) := by
  obtain ⟨ret, m⟩ := r
  cases ret with
  | error | ok => exact h

theorem below (h : View c m T) {call : Except Errno Unit × Disk}
    (hcall : properName name = true → T.Linked d → m.below d name call = call → Keeps c T call) :
    Keeps c T (m.below d name call) := by
  by_cases hboth : properName name = true ∧ m.linked d = true
  · have heq : m.below d name call = call := if_pos hboth
    rw [heq]
    exact hcall hboth.1 (h.linked_iff.mp hboth.2) heq
  · rw [Disk.below, if_neg hboth]
    exact h.keeps

theorem onDentry (h : View c m T) (hd : T.Linked d) {call : Nat → Disk → Except Errno Unit × Disk}
    (hcall : ∀ i m', T.entry (d, name) = some i → View c m' T →
      m.onDentry d name call = call i m' → Keeps c T (call i m')) :
    Keeps c T (m.onDentry d name call) := by
  obtain ⟨m1, hrun, h1⟩ := h.lookup hd.1 name
  cases hnames : T.names (d, name) with
  | none =>
    rw [Disk.onDentry, hrun, hnames]
    exact h1.keeps
  | some i =>
    have heq : m.onDentry d name call = call i m1 := by
      rw [Disk.onDentry, hrun, hnames]
      rfl
    rw [heq]
    exact hcall i m1 (entry_eq_some.mpr ⟨hd, hnames⟩) h1 heq

end View

/-- The target of a symbolic link is harmless, and `ext2_create` is not asked for a directory,
which it would make without records of its own. -/
def Disk.Call.Harmless (sb : SbInfo) : Disk.Call → Prop
  | .create _ _ iType => iType ≠ .dir
  | .symlink _ _ target => HarmlessTarget sb target
  | _ => True

def Disk.Call.Renames : Disk.Call → Prop
  | .rename .. => True
  | _ => False

theorem View.exec {m : Disk} (h : View c m T) (hT : Exact T) (hfits : ∀ i, Fits (T.nlink i))
    {call : Disk.Call} (hharmless : call.Harmless c.sb)
    (hstrict : call.Renames → c.strict = true ∨ (m.exec call).1 = .ok ()) :
    Keeps c T (m.exec call) := by
  cases call with
  | create dir name iType =>
    exact h.below fun hname hd _ => keeps_returns (h.create hd hname hharmless).keeps
  | symlink dir name target => 
      exact h.below fun hname hd _ => keeps_returns (h.symlink hd hname hharmless).keeps
  | link oldDir oldName dir name =>
    refine h.below fun _ hold _ => h.below fun hname hd _ => ?_
    refine h.onDentry hold fun i m' hentry h' _ => ?_
    exact (h'.link hd hname (hT.live _ i hentry) (hfits i)).keeps
  | mkdir dir name => 
      exact h.below fun hname hd _ => keeps_returns (h.mkdir hd hname (hfits dir)).keeps
  | unlink dir name last =>
    refine h.below fun hname hd _ => h.onDentry hd fun i m' hentry h' _ => ?_
    exact (h'.unlink hT hname hentry last).1.keeps
  | rmdir dir name last =>
    refine h.below fun hname hd _ => h.onDentry hd fun i m' hentry h' _ => ?_
    exact (h'.rmdir hT hname hentry last).1.keeps
  | rename oldDir oldName newDir newName noReplace last =>
    rw [Disk.exec] at hstrict
    refine h.below fun hname hd heq => ?_
    rw [heq] at hstrict
    refine h.below fun hname' hd' heq => ?_
    rw [heq] at hstrict
    refine h.onDentry hd fun i m1 hentry h1 heq => ?_
    rw [heq] at hstrict
    obtain ⟨m2, hrun, h2⟩ := h1.lookup hd'.1 newName
    rw [hrun] at hstrict ⊢
    refine (h2.rename hT hname hname' hentry hd' (hfits newDir) noReplace last
      fun j hnames _ => ?_).1.keeps
    rw [← hnames]
    exact hstrict trivial
  | forget ino =>
    obtain ⟨T', h', hdropped⟩ := h.dropped_iput ino true
    exact ⟨T', h', reaches_dropped .refl hdropped⟩

end CuteOS.Fs.Ext2
