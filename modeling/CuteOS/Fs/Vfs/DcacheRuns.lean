/-
  Fs/Vfs/DcacheRuns.lean --- what the dentry cache says in every run.

  As long as no search for a name that is there meets a failure, every dentry in the hash
  table says what its directory says.  A search that fails leaves a dentry without an
  inode, which is taken for the answer from then on.
-/
import CuteOS.Fs.Ext2.NameRuns
import CuteOS.Fs.Vfs.Dcache

set_option autoImplicit false

namespace CuteOS.Fs.Vfs

open Lib Lib.LinkTree Lib.NameCache Ext2 Ext2.Directory Dcache
open Cached (dInode CreateTarget insertNew)
open Cache (parent_setInode name_setInode node_add_self node_add_of_ne node_hash hashed_hash find
  find_some node_unhash hashed_unhash)
open Ext2.Disk (properName treeDisk inOrder_treeDisk linksExact_treeDisk treeDisk_inode fits_tree
  LinksExact exact_reaches)

/-! ## Coherence with a volume -/

/-- The cache says what the tree says. -/
abbrev Honest (T : LinkTree.Tree Nat Name) (c : Dcache) : Prop :=
  Coherent dentryHash ext2RootIno dot dotdot T c

/-- A volume in order on which no writing fails, and an honest cache. -/
structure Truthful (c : Setting) (v : Cached) (T : LinkTree.Tree Nat Name) : Prop where
  view : View c v.disk T
  exact : Exact T
  honest : Honest T v.dcache

theorem honest_mounted (T : LinkTree.Tree Nat Name) : Honest T mounted := by
  have hnot : ∀ e, ¬ mounted.Hashed e := fun e he => by cases he
  have hinode : ∀ e i, (mounted.node e).inode = some i → e = 0 := by
    intro e i hi
    by_contra hne
    dsimp only [mounted] at hi
    rw [Function.update_of_ne hne] at hi
    cases hi
  exact
    { home := ⟨Nat.one_pos, rfl, hnot 0⟩
      made := fun e he => absurd he (hnot e)
      placed := fun b e hmem => by cases hmem
      unique := fun e _ he => absurd he (hnot e)
      proper := fun e he => absurd he (hnot e)
      apart := fun e he => absurd he (hnot e)
      held := fun e i hi => .inl (hinode e i hi)
      truth := fun e _ he => absurd he (hnot e)
      orphan := fun e he => absurd he (hnot e)
      single := fun e e' d _ he he' => (hinode e d he).trans (hinode e' d he').symm }

/-- Dentries are added, and those that are there stay as they are. -/
structure Grows (c c' : Dcache) : Prop where
  fresh : c.fresh ≤ c'.fresh
  node : ∀ e < c.fresh, c'.node e = c.node e
  hashed : ∀ e, c.Hashed e → c'.Hashed e

theorem Grows.refl (c : Dcache) : Grows c c := ⟨le_refl _, fun _ _ => rfl, fun _ he => he⟩

variable {T : LinkTree.Tree Nat Name} {e i : Nat}

/-- Dentries with an inode are there. -/
theorem Honest.lt_fresh {c : Dcache} (h : Honest T c)
    (hi : (c.node e).inode = some i) : e < c.fresh := by
  rcases h.held e i hi with rfl | he
  · exact h.home.1
  · exact (h.made e he).1

theorem dcacheInsert_setInode (c : Dcache) (e : Nat) (inode : Option Nat) :
    dcacheInsert (c.setInode e inode) e = (dcacheInsert c e).setInode e inode := by
  rw [dcacheInsert, dcacheInsert, parent_setInode, name_setInode, Cache.hash_setInode]

/-- A new dentry with the answer of its directory. -/
theorem Honest.insert {c : Dcache} (h : Honest T c) (hT : Exact T)
    {parent d : Nat} {name : Name} (hd : (c.node parent).inode = some d) (hlinked : T.Linked d)
    (hn : Proper dot dotdot name) (hnone : c.find (dentryHash parent name) parent name = none) :
    Honest T (dcacheInsert ((c.add parent name).setInode c.fresh (T.entry (d, name))) c.fresh) ∧
      Grows c
        (dcacheInsert ((c.add parent name).setInode c.fresh (T.entry (d, name))) c.fresh) := by
  have hmade := Honest.lt_fresh h hd
  have hself := @node_add_self _ _ c parent name
  have hup : (c.add parent name).node parent = c.node parent := node_add_of_ne hmade.ne
  have hbelow : ∀ x, c.Hashed x → (c.add parent name).node x = c.node x :=
    fun x hx => node_add_of_ne (h.ne_fresh hx).1
  have hins := (h.add parent name).insert hT (fun hx => (h.ne_fresh hx).1 rfl) h.home.1.ne'
    (by rw [hself]; exact ⟨Nat.lt_succ_self _, Nat.lt_succ_of_lt hmade⟩) (by rw [hself])
    (fun x hx => by rw [hbelow x hx]; exact (h.ne_fresh hx).2)
    (by rw [hself]; dsimp only; rw [hup]; exact hd) hlinked (by rw [hself]; exact hn)
    (fun x hx hparent => by
      rw [hself, hbelow x hx] at hparent ⊢
      exact h.not_hashed hnone hx hparent)
  rw [dcacheInsert, parent_setInode, name_setInode, hself]
  rw [hself] at hins
  refine ⟨hins, ?_, fun e he => ?_, fun e he => ?_⟩
  · rw [Cache.fresh_hash]
    exact Nat.le_succ _
  · rw [node_hash]
    exact (Function.update_of_ne he.ne ..).trans (node_add_of_ne he.ne)
  · exact hashed_hash.mpr (.inr he)

/-! ## Lookups -/

namespace Cached

/-- A search for a name that is there meets no failure. -/
def Fair (v : Cached) (parent : Nat) (name : Name) (luck : Luck) : Prop :=
  ∀ dir, v.dInode parent = some dir → v.disk.sys.tree.names (dir, name) ≠ none → luck.Reads

end Cached

namespace Truthful

variable {c : Setting} {v : Cached} {T : LinkTree.Tree Nat Name} {parent : Nat} {name : Name}
    {luck : Luck}

theorem linked (h : Truthful c v T) (hi : v.dInode e = some i)
    (hdir : v.disk.isDir i = true) : T.Linked i := by
  obtain ⟨isDir, hkind⟩ := Option.ne_none_iff_exists'.mp (h.honest.kind_ne_none h.exact hi)
  rw [h.view.isDir_eq isDir hkind] at hdir
  rw [hdir] at hkind
  exact h.honest.linked h.exact hi hkind

theorem dcacheLookup_eq (hname : properName name = true) (d : Dcache) :
    dcacheLookup d parent name = d.find (dentryHash parent name) parent name := by
  have hlen := (properName_iff hname).1
  refine if_neg ?_
  rw [vfsNameMax]
  omega

theorem dentryAlloc_false (d : Dcache) : dentryAlloc d parent name false = none := by
  rw [dentryAlloc, if_pos rfl, ite_self]

theorem dentryAlloc_eq (hname : properName name = true) (d : Dcache) :
    dentryAlloc d parent name true = some (d.fresh, d.add parent name) := by
  have hlen := (properName_iff hname).1
  rw [dentryAlloc, if_neg, if_neg (by decide)]
  rw [vfsNameMax]
  omega

/-- The dentry of a directory is still there after a lookup. -/
theorem dInode_grows {v' : Cached} (h : Truthful c v T) (hgrows : Grows v.dcache v'.dcache)
    (hi : v.dInode e = some i) : v'.dInode e = some i := by
  rw [dInode, hgrows.node e (Honest.lt_fresh h.honest hi)]
  exact hi

/-- What a directory in use says about a name. -/
theorem entry_eq (h : Truthful c v T) {d : Nat} (hd : T.Linked d) :
    T.entry (d, name) = v.disk.sys.tree.names (d, name) := by
  rw [h.view.tree]
  cases hnames : T.names (d, name) with
  | none => exact entry_eq_none hnames
  | some i => exact entry_eq_some.mpr ⟨hd, hnames⟩

section

variable (h : Truthful c v T) (hname : properName name = true) (hfair : v.Fair parent name luck)
include h hname hfair

/-- A lookup finds a dentry with the name, unless there is no directory or no memory. -/
theorem lookupAny : ∃ found v', v.vfsLookupOneAny parent name luck = (found, v') ∧ Truthful c v' T ∧
      Grows v.dcache v'.dcache ∧
      (∀ e, found = some e → v'.dcache.Hashed e ∧ (v'.dcache.node e).parent = parent ∧
        (v'.dcache.node e).name = name) ∧
      (found = none → ∀ dir, v.dInode parent = some dir →
        v.disk.isDir dir = false ∨ luck.dentryOk = false) := by
  rw [Cached.vfsLookupOneAny, dcacheLookup_eq hname]
  cases hfind : find v.dcache (dentryHash parent name) parent name with
  | some e =>
    refine ⟨some e, v, rfl, h, .refl _, fun x hx => ?_, nofun⟩
    cases hx
    exact find_some hfind
  | none =>
    cases hd : v.dInode parent with
    | none => exact ⟨none, v, rfl, h, .refl _, nofun, fun _ _ hfalse => nomatch hfalse⟩
    | some d =>
      dsimp only
      cases hdir : v.disk.isDir d with
      | false =>
        refine ⟨none, v, rfl, h, .refl _, nofun, fun _ dir hsome => .inl ?_⟩
        rw [← Option.some.inj hsome]
        exact hdir
      | true =>
        cases hmem : luck.dentryOk with
        | false =>
          rw [dentryAlloc_false]
          exact ⟨none, v, rfl, h, .refl _, nofun, fun _ _ _ => .inr rfl⟩
        | true =>
          rw [dentryAlloc_eq hname]
          have hlinked := h.linked hd hdir
          obtain ⟨found, m', hrun, hview, hsound, hall⟩ := h.view.ext2Lookup d name luck
          have hfound : found = T.entry (d, name) := by
            rw [h.entry_eq hlinked, h.view.tree]
            by_cases hnames : T.names (d, name) = none
            · rw [hnames, Option.eq_none_iff_forall_ne_some]
              intro i hi
              rw [hsound i hi] at hnames
              cases hnames
            · exact hall (hfair d hd (by rw [h.view.tree]; exact hnames))
          obtain ⟨hhonest, hgrows⟩ := h.honest.insert h.exact hd hlinked
            (properName_iff hname).2 hfind
          rw [hrun, hfound]
          refine ⟨_, _, rfl, ⟨hview, h.exact, hhonest⟩, hgrows, fun x hx => ?_, nofun⟩
          cases hx
          have hself := @node_add_self _ _ v.dcache parent name
          refine ⟨hashed_hash.mpr (.inl rfl), ?_, ?_⟩
          · rw [dcacheInsert, node_hash, parent_setInode, hself]
          · rw [dcacheInsert, node_hash, name_setInode, hself]

theorem lookupOne : ∃ found v', v.vfsLookupOne parent name luck = (found, v') ∧ Truthful c v' T ∧
      Grows v.dcache v'.dcache ∧
      (∀ e, found = some e → v'.dcache.Hashed e ∧ (v'.dcache.node e).parent = parent ∧
        (v'.dcache.node e).name = name ∧ v'.dInode e ≠ none) ∧
      (luck.Good → ∀ dir, v.dInode parent = some dir →
        found.bind v'.dInode = v.disk.sys.tree.names (dir, name)) := by
  obtain ⟨found, v', hrun, h', hgrows, hfound, hnone⟩ := h.lookupAny hname hfair
  rw [Cached.vfsLookupOne, hrun]
  cases found with
  | none =>
    refine ⟨none, v', rfl, h', hgrows, nofun, fun hgood dir hdir => ?_⟩
    rcases hnone rfl dir hdir with hfile | hmem
    · exact (Disk.names_of_file hfile name).symm
    · rw [hgood.dentry] at hmem
      cases hmem
  | some e =>
    obtain ⟨hhashed, hparent, hkey⟩ := hfound e rfl
    refine ⟨_, v', rfl, h', hgrows, fun x hx => ?_, fun hgood dir hdir => ?_⟩
    · split_ifs at hx with hsome
      cases hx
      exact ⟨hhashed, hparent, hkey, Option.ne_none_iff_isSome.mpr hsome⟩
    · have hup := h.dInode_grows hgrows hdir
      obtain ⟨hlinked, hentry⟩ := h'.honest.truth e dir hhashed (by rw [hparent]; exact hup)
      rw [hkey, h'.entry_eq hlinked, h'.view.tree, ← h.view.tree] at hentry
      rw [hentry]
      change _ = v'.dInode e
      cases hinode : v'.dInode e with
      | none => rfl
      | some i => exact hinode

end

/-! ## Calls that make names -/

variable {T' : LinkTree.Tree Nat Name}

/-- What a call does to the volume does not matter to the cache. -/
theorem elsewhere (h : Truthful c v T) {m' : Disk} (hview : View c m' T')
    (hreach : Reaches T T') (hedits : Edits dot dotdot T T' T.entry none none) :
    Truthful c ⟨m', v.dcache⟩ T' :=
  ⟨hview, exact_reaches h.exact hreach,
    h.honest.retree hedits (fun _ _ _ => (Option.some_ne_none _).symm) fun _ _ _ _ => rfl⟩

/-- A dentry that can be given an inode, if the name is free. -/
structure Ready (T : LinkTree.Tree Nat Name) (v : Cached) (parent : Nat) (name : Name)
    (target : CreateTarget) : Prop where
  dir : T.Linked target.dir
  up : (v.dcache.node parent).inode = some target.dir
  node : v.dcache.node target.dentry = ⟨name, parent, none⟩
  hashed : (insertNew v.dcache target).Hashed target.dentry
  free : T.names (target.dir, name) = none → Honest T (insertNew v.dcache target)

theorem prepare (h : Truthful c v T) (hname : properName name = true) (memory : Bool) :
    ∃ ret v', v.prepareCreateTarget parent name memory = (ret, v') ∧ Truthful c v' T ∧
      (∀ target, ret = .ok target → Ready T v' parent name target) ∧
      ∀ dir, v.dInode parent = some dir → (∀ target, ret = .ok target → target.dir = dir) ∧
        (T.names (dir, name) = none → ret ≠ .error .eexist) := by
  rw [Cached.prepareCreateTarget]
  cases hd : v.dInode parent with
  | none => exact ⟨_, v, rfl, h, nofun, nofun⟩
  | some d =>
    dsimp only
    cases hdir : v.disk.isDir d with
    | false => exact ⟨_, v, rfl, h, nofun, fun _ _ => ⟨nofun, fun _ => nofun⟩⟩
    | true =>
      rw [if_neg (by decide), dcacheLookup_eq hname]
      have hlinked := h.linked hd hdir
      cases hfind : find v.dcache (dentryHash parent name) parent name with
      | some e =>
        dsimp only
        obtain ⟨hhashed, hparent, hkey⟩ := find_some hfind
        split_ifs with hsome
        · refine ⟨_, v, rfl, h, nofun, fun dir hdir' => ⟨nofun, fun hfree => ?_⟩⟩
          obtain rfl := Option.some.inj hdir'
          -- a dentry with an inode says that the directory has the name
          have hentry := (h.honest.truth e d hhashed (by rw [hparent]; exact hd)).2
          rw [hkey, entry_eq_none hfree] at hentry
          rw [dInode, ← hentry] at hsome
          cases hsome
        refine ⟨_, v, rfl, h, fun target htarget => ?_, fun dir hdir' => ⟨?_, fun _ => nofun⟩⟩
        swap
        · rintro target ⟨rfl⟩
          exact Option.some.inj hdir'
        cases htarget
        refine ⟨hlinked, hd, ?_, hhashed, fun _ => h.honest⟩
        rw [← hparent, ← hkey, ← Option.not_isSome_iff_eq_none.mp hsome]
        rfl
      | none =>
        cases memory with
        | false =>
          rw [dentryAlloc_false]
          exact ⟨_, v, rfl, h, nofun, fun _ _ => ⟨nofun, fun _ => nofun⟩⟩
        | true =>
          rw [dentryAlloc_eq hname]
          refine ⟨_, _, rfl, ⟨h.view, h.exact, h.honest.add parent name⟩,
            fun target htarget => ?_, fun dir hdir' => ⟨?_, fun _ => nofun⟩⟩
          swap
          · rintro target ⟨rfl⟩
            exact Option.some.inj hdir'
          cases htarget
          have hself := @node_add_self _ _ v.dcache parent name
          refine ⟨hlinked, ?_, hself, hashed_hash.mpr (.inl rfl), fun hfree => ?_⟩
          · rw [node_add_of_ne (Honest.lt_fresh h.honest hd).ne]
            exact hd
          · have hins := (h.honest.insert h.exact hd hlinked (properName_iff hname).2 hfind).1
            rw [show T.entry (d, name) = none from entry_eq_none hfree,
              Cache.setInode_same (congrArg Node.inode hself)] at hins
            exact hins

/-- The dentry gets the inode that the call has made or found. -/
theorem filled (h : Truthful c v T) {target : CreateTarget}
    (hready : Ready T v parent name target) {m' : Disk}
    (hview : View c m' T') (hreach : Reaches T T') {new : Option Nat}
    (hfree : T.names (target.dir, name) = none)
    (hi : T.kind i = none ∧ (new = none ∨ new = some i) ∨ T.kind i = some false ∧ new = none)
    (hedits : Edits dot dotdot T T' (Function.update T.entry (target.dir, name) (some i))
      none new) :
    Truthful c ⟨m', insertNew (v.dcache.setInode target.dentry (some i)) target⟩ T' := by
  have hnode : (insertNew v.dcache target).node = v.dcache.node := by
    rw [insertNew]
    split_ifs
    · exact node_hash
    · rfl
  have hfill := (hready.free hfree).fill h.exact hready.hashed (i := i) (d := target.dir)
    (by rw [hnode, hready.node]) (by rw [hnode, hready.node]; exact hready.up) hi
    (by rw [hnode, hready.node]; exact hedits)
  have hsame : insertNew (v.dcache.setInode target.dentry (some i)) target =
      (insertNew v.dcache target).setInode target.dentry (some i) := by
    rw [insertNew, insertNew]
    split_ifs
    · exact dcacheInsert_setInode ..
    · rfl
  refine ⟨hview, exact_reaches h.exact hreach, ?_⟩
  rw [hsame]
  exact hfill

section

variable (h : Truthful c v T) (hstrict : c.strict = true) (hname : properName name = true)
include h hstrict hname

/-- `vfs_create_at_path`, `vfs_symlink_at_path` and `vfs_mkdir_at_path`. -/
theorem make (new : Nat → Option Nat) (hnew : ∀ i, new i = none ∨ new i = some i)
    {make : Disk → Nat → Except Errno Nat × Disk}
    (hmake : ∀ m d, View c m T → T.Linked d → Does c T (Made T d name new) (make m d))
    (memory directory last : Bool) :
    ∃ T', Truthful c (v.vfsMake parent name memory directory last make).2 T' := by
  obtain ⟨ret, v1, hrun, h1, hready, -⟩ := @prepare c v T parent name h hname memory
  rw [Cached.vfsMake, hrun]
  cases ret with
  | error e => exact ⟨T, h1⟩
  | ok target =>
    have hready := hready target rfl
    dsimp only
    obtain ⟨T', hview, hreach, hpost⟩ := hmake v1.disk target.dir h1.view hready.dir
    generalize make v1.disk target.dir = r at hview hpost
    obtain ⟨ret, m2⟩ := r
    cases ret with
    | error e => exact ⟨T', h1.elsewhere hview hreach (hpost hstrict)⟩
    | ok i =>
      obtain ⟨hkind, hfree, hedits⟩ := hpost
      have hfilled := h1.filled hready hview hreach hfree (.inl ⟨hkind, hnew i⟩) hedits
      -- the new inode is written once more
      have hi : T'.kind i ≠ none := by
        refine hfilled.exact.live (target.dir, name) i ?_
        rw [hedits.names _ _ (properName_iff hname).2, Function.update_self]
      obtain ⟨ret, m3, hwrite, h3, hok, -⟩ := hview.writeInode hi
      obtain rfl := hok hstrict
      dsimp only
      rw [hwrite]
      exact ⟨T', h3, hfilled.exact, hfilled.honest⟩

theorem link (hfits : ∀ i, Fits (T.nlink i)) (oldDentry : Nat) (memory : Bool) :
    ∃ T', Truthful c (v.vfsLink oldDentry parent name memory).2 T' := by
  rw [Cached.vfsLink]
  cases hi : v.dInode oldDentry with
  | none => exact ⟨T, h⟩
  | some i =>
    dsimp only
    have hlive := h.honest.kind_ne_none h.exact hi
    obtain ⟨isDir, hkind⟩ := Option.ne_none_iff_exists'.mp hlive
    rw [h.view.isDir_eq isDir hkind]
    cases isDir with
    | true => exact ⟨T, h⟩
    | false =>
      obtain ⟨ret, v1, hrun, h1, hready, -⟩ := @prepare c v T parent name h hname memory
      rw [hrun]
      cases ret with
      | error e => exact ⟨T, h1⟩
      | ok target =>
        have hready := hready target rfl
        dsimp only
        obtain ⟨T', hview, hreach, hpost⟩ :=
          h1.view.link hready.dir hname hlive (hfits i)
        generalize v1.disk.ext2Link i target.dir name = r at hview hpost
        obtain ⟨ret, m2⟩ := r
        cases ret with
        | error e => exact ⟨T', h1.elsewhere hview hreach (hpost hstrict)⟩
        | ok u =>
          exact ⟨T', h1.filled hready hview hreach hpost.1 (.inr ⟨hkind, rfl⟩) hpost.2⟩

end

/-! ## Calls that remove and move names -/

theorem dcacheInvalidate_clear (d : Dcache) (e : Nat) (clears : Bool) :
    dcacheInvalidate (if clears then d.setInode e none else d) e = dcacheInvalidate d e := by
  rw [dcacheInvalidate, dcacheInvalidate]
  split_ifs
  · rw [Cache.setInode_idem]
  · rfl

/-- Nothing below a dentry whose inode has been removed, or is not a directory, has an
inode. -/
theorem below (h : Truthful c v T) (hi : v.dInode e = some i)
    (hempty : T.kind i = some true → Empty T i) {x : Nat} (hx : v.dcache.Hashed x)
    (hparent : (v.dcache.node x).parent = e) : (v.dcache.node x).inode = none := by
  obtain ⟨hlinked, hentry⟩ := h.honest.truth x i hx (by rw [hparent]; exact hi)
  rw [← hentry]
  exact hempty hlinked.1 _ (h.honest.proper x hx)

/-- What is known once dentry `e` is gone. -/
theorem inode_dropped {d : Dcache} {x : Nat}
    (hx : (((d.setInode e none).unhash e).node x).inode = some i) :
    x ≠ e ∧ (d.node x).inode = some i := by
  rw [node_unhash, Cache.inode_setInode] at hx
  split_ifs at hx with hxe
  exact ⟨hxe, hx⟩

theorem remove (h : Truthful c v T) (hstrict : c.strict = true) {dir : Nat}
    (he : v.dcache.Hashed e) (hname : properName (v.dcache.node e).name = true)
    (hdir : v.dInode (v.dcache.node e).parent = some dir) (directory last : Bool) :
    ∃ T', Truthful c (v.removeDentry dir e directory last).2 T' := by
  rw [Cached.removeDentry]
  cases hi : v.dInode e with
  | none => exact ⟨T, h⟩
  | some i =>
    have hentry : T.entry (dir, (v.dcache.node e).name) = some i :=
      (h.honest.truth e dir he hdir).2.trans hi
    obtain ⟨⟨T', hview, hreach, hpost⟩, hok⟩ := h.view.remove h.exact hname hentry directory last
    dsimp only
    generalize v.disk.remove dir i (v.dcache.node e).name directory last = r at hview hpost hok
    obtain ⟨ret, m'⟩ := r
    cases ret with
    | error err =>
      have hclears : v.disk.removeClears dir i (v.dcache.node e).name directory = false :=
        Bool.eq_false_iff.mpr fun htrue => nomatch hok hstrict htrue
      rw [hclears]
      exact ⟨T', h.elsewhere hview hreach (hpost hstrict)⟩
    | ok u =>
      obtain ⟨hkind, hempty, hedits⟩ := hpost
      refine ⟨T', hview, exact_reaches h.exact hreach, ?_⟩
      rw [dcacheInvalidate_clear]
      have hdropped := h.honest.drop he fun x hx hparent =>
        h.below hi (fun hkind' => hempty (Option.some.inj (hkind.symm.trans hkind'))) hx hparent
      refine hdropped.retree hedits (fun x d hx hgone => ?_) fun x d hx hd => ?_
      · split_ifs at hgone with hdirectory
        cases hgone
        obtain ⟨hxe, hx⟩ := inode_dropped hx
        rw [hdirectory] at hkind
        exact hxe (h.honest.single x e i (h.honest.linked h.exact hi hkind) hx hi)
      · obtain ⟨hxe, hx⟩ := hashed_unhash.mp hx
        rw [node_unhash, parent_setInode] at hd
        rw [node_unhash, name_setInode, update_pair, if_neg]
        rintro ⟨rfl, hsame⟩
        exact hxe (h.honest.eq_of_place hx he (inode_dropped hd).2 hdir hsame)

section Renaming

variable {oldDir e i newParent newDir e' : Nat} {newName : Name} (h : Truthful c v T)
  (he : v.dcache.Hashed e) (hi : v.dInode e = some i)
  (hdir : v.dInode (v.dcache.node e).parent = some oldDir) (he' : v.dcache.Hashed e')
  (hparent : (v.dcache.node e').parent = newParent) (hnewName : (v.dcache.node e').name = newName)
  (hdir' : v.dInode newParent = some newDir) (hne : e ≠ e') (hself : newParent ≠ e)
include h he hi hdir he' hparent hnewName hdir' hne hself

/-- The dentry of the new name is given up, and the dentry of the old name takes its
place. -/
theorem moved (hbelow : ∀ x, v.dcache.Hashed x → (v.dcache.node x).parent = e' →
      (v.dcache.node x).inode = none)
    {names : Nat × Name → Option Nat} {gone : Option Nat}
    (hedits : Edits dot dotdot T T' names gone none)
    (hgone : ∀ j, gone = some j → v.dInode e' = some j ∧ T.Linked j)
    (hnew : names (newDir, newName) = some i)
    (hnames : ∀ k, k ≠ (oldDir, (v.dcache.node e).name) → k ≠ (newDir, newName) →
      names k = T.entry k) (hlen : ¬ newName.length > vfsNameMax) :
    Honest T' (dcacheMove (dcacheInvalidate v.dcache e') e newParent newName) := by
  have hkeeps : ∀ x, x ≠ e' →
      (((v.dcache.setInode e' none).unhash e').node x).inode = (v.dcache.node x).inode := by
    intro x hx
    rw [node_unhash, Cache.inode_setInode, if_neg hx]
  have hup : (v.dcache.node e).parent ≠ e' := by
    intro hsame
    have hnone := hbelow e he hsame
    rw [show (v.dcache.node e).inode = some i from hi] at hnone
    cases hnone
  have hup' : newParent ≠ e' := by
    intro hsame
    exact h.honest.apart e' he' (hparent.trans hsame)
  have hlinked := (h.honest.truth e' newDir he' (by rw [hparent]; exact hdir')).1
  have hlt : newParent < v.dcache.fresh := Honest.lt_fresh h.honest hdir'
  have hmove := (h.honest.drop he' hbelow).move (e := e) (i := i) (d := oldDir) (p := newParent)
    (hashed_unhash.mpr ⟨hne, he⟩) ((hkeeps e hne).trans hi)
    (by rw [node_unhash, parent_setInode]; exact (hkeeps _ hup).trans hdir)
    ((hkeeps _ hup').trans hdir')
    hlt hlinked (hnewName ▸ h.honest.proper e' he') hself
    (fun x hxe hx hxp hxn => by
      obtain ⟨hxe', hx⟩ := hashed_unhash.mp hx
      rw [node_unhash, parent_setInode] at hxp
      rw [node_unhash, name_setInode] at hxn
      exact hxe' (h.honest.unique x e' hx he' (hxp.trans hparent.symm) (hxn.trans hnewName.symm)))
    hedits
    (fun x j hx hj => by
      obtain ⟨hxe', hx⟩ := inode_dropped hx
      obtain ⟨hj, hlinked⟩ := hgone j hj
      exact hxe' (h.honest.single x e' j hlinked hx hj))
    hnew
    (by rw [node_unhash, name_setInode]; exact hnames)
  rw [dcacheMove, if_neg hlen, dcacheInsert, Cache.parent_setPlace, Cache.name_setPlace,
    if_pos rfl, if_pos rfl]
  exact hmove

theorem renameDentry (hstrict : c.strict = true) (hfits : ∀ i, Fits (T.nlink i))
    (hname : properName (v.dcache.node e).name = true) (hname' : properName newName = true)
    (noReplace last : Bool) :
    ∃ T', Truthful c (v.renameDentry oldDir e newParent newDir e' newName noReplace last).2 T' := by
  obtain ⟨hd, hentry⟩ := h.honest.truth e oldDir he hdir
  obtain ⟨hd', hentry'⟩ := h.honest.truth e' newDir he' (by rw [hparent]; exact hdir')
  rw [hnewName] at hentry'
  have hnames' : T.names (newDir, newName) = v.dInode e' := by
    rw [dInode, ← hentry', h.entry_eq hd', h.view.tree]
  have hlen : ¬ newName.length > vfsNameMax := by
    have := (properName_iff hname').1
    rw [vfsNameMax]
    omega
  have hplace : (newDir, newName) ≠ (oldDir, (v.dcache.node e).name) := by
    intro hsame
    obtain ⟨rfl, hkey⟩ := Prod.mk.inj hsame
    refine hne (h.honest.eq_of_place he he' hdir (by rw [hparent]; exact hdir') ?_)
    rw [hnewName, hkey]
  obtain ⟨⟨T', hview, hreach, hpost⟩, hok⟩ := h.view.rename h.exact hname hname'
    (hentry.trans hi) hd' (hfits newDir) noReplace last fun _ _ _ => .inl hstrict
  rw [hnames'] at hview hpost hok
  rw [Cached.renameDentry, hi]
  dsimp only
  generalize v.disk.ext2Rename oldDir i (v.dcache.node e).name newDir newName (v.dInode e')
    noReplace last = r at hview hpost hok
  obtain ⟨ret, m'⟩ := r
  cases ret with
  | error err =>
    have hclears : v.disk.renameClears oldDir i (v.dcache.node e).name newDir newName
        (v.dInode e') noReplace last = false :=
      Bool.eq_false_iff.mpr fun htrue => nomatch hok hstrict htrue
    rw [hclears]
    exact ⟨T', h.elsewhere hview hreach (hpost hstrict)⟩
  | ok u =>
    refine ⟨T', hview, exact_reaches h.exact hreach, ?_⟩
    rw [dcacheInvalidate_clear]
    rcases hpost with ⟨hsame, hedits⟩ | ⟨hother, gone, hgone, hreplaced, hedits⟩
    · -- two names of a file: the old one is only forgotten
      rw [hnames'] at hsame
      have hfile : T.kind i ≠ some true := by
        intro hkind
        obtain ⟨hdirs, hsame⟩ := Coherent.same_place h.exact (h.honest.proper e he)
          (properName_iff hname').2 hkind (hentry.trans hi) (hentry'.trans hsame)
        exact hplace (Prod.ext hdirs.symm hsame.symm)
      exact h.moved he hi hdir he' hparent hnewName hdir' hne hself
        (fun x => h.below hsame fun hkind => absurd hkind hfile) hedits nofun
        (hentry'.trans hsame) (fun _ _ _ => rfl) hlen
    · refine h.moved he hi hdir he' hparent hnewName hdir' hne hself (fun x hx hxp => ?_) hedits
        (fun j hj => ?_) ?_ (fun k hk hk' => ?_) hlen
      · cases hinode : v.dInode e' with
        | none => exact (h.honest.orphan x hx (by rw [hxp]; exact hinode)).1
        | some j =>
          refine h.below hinode (fun hkind => ?_) hx hxp
          exact (hgone j (hreplaced j (hentry'.trans hinode) hkind)).2.2
      · obtain ⟨hj, hkind, -⟩ := hgone j hj
        have hinode : v.dInode e' = some j := hentry'.symm.trans hj
        exact ⟨hinode, h.honest.linked h.exact hinode hkind⟩
      · rw [Function.update_of_ne hplace, Function.update_self]
      · rw [Function.update_of_ne hk, Function.update_of_ne hk']

end Renaming

theorem unlink (h : Truthful c v T) (hstrict : c.strict = true) (hname : properName name = true)
    (hfair : v.Fair parent name luck) (directory last : Bool) :
    ∃ T', Truthful c (v.vfsUnlink parent name luck directory last).2 T' := by
  rw [Cached.vfsUnlink]
  cases hd : v.dInode parent with
  | none => exact ⟨T, h⟩
  | some d =>
    dsimp only
    split_ifs
    · exact ⟨T, h⟩
    obtain ⟨found, v1, hrun, h1, hgrows, hfound, -⟩ := h.lookupOne hname hfair
    rw [hrun]
    cases found with
    | none => exact ⟨T, h1⟩
    | some e =>
      obtain ⟨hhashed, hparent, hkey, -⟩ := hfound e rfl
      exact h1.remove hstrict hhashed (by rw [hkey]; exact hname)
        (by rw [hparent]; exact h.dInode_grows hgrows hd) directory last

/-- The walk begins with the dentry itself. -/
theorem dentryIsAncestor_self (d : Dcache) (e : Nat) {rounds : Nat} (hpos : 0 < rounds) :
    dentryIsAncestor d e rounds e = true := by
  cases rounds with
  | zero => cases hpos
  | succ n => rw [dentryIsAncestor, if_pos rfl]

theorem rename (h : Truthful c v T) (hstrict : c.strict = true) (hfits : ∀ i, Fits (T.nlink i))
    (hname : properName name = true) (hfair : v.Fair parent name luck) {parent' : Nat}
    {name' : Name} {luck' : Luck} (hname' : properName name' = true)
    (hfair' : v.Fair parent' name' luck') (noReplace last : Bool) :
    ∃ T', Truthful c (v.vfsRename parent name parent' name' luck luck' noReplace last).2 T' := by
  rw [Cached.vfsRename]
  cases hd : v.dInode parent with
  | none => exact ⟨T, h⟩
  | some d =>
    cases hd' : v.dInode parent' with
    | none => exact ⟨T, h⟩
    | some d' =>
      dsimp only
      by_cases hops : v.hasInodeOps d = false ∨ v.hasInodeOps d' = false
      · rw [if_pos hops]
        exact ⟨T, h⟩
      by_cases hfile : v.disk.isDir d = false
      · rw [if_neg hops, if_pos hfile]
        exact ⟨T, h⟩
      rw [if_neg hops, if_neg hfile]
      obtain ⟨found, v1, hrun, h1, hgrows, hfound, -⟩ := h.lookupOne hname hfair
      rw [hrun]
      cases found with
      | none => exact ⟨T, h1⟩
      | some e =>
        obtain ⟨hhashed, hparent, hkey, hsome⟩ := hfound e rfl
        dsimp only
        have hd1 := h.dInode_grows hgrows hd
        have hd1' := h.dInode_grows hgrows hd'
        have hfair1 : v1.Fair parent' name' luck' := by
          intro dir hdir hnames
          rw [h1.view.tree, ← h.view.tree] at hnames
          rw [hd1', ← hd'] at hdir
          exact hfair' dir hdir hnames
        obtain ⟨found, v2, hrun, h2, hgrows', hfound', -⟩ := h1.lookupAny hname' hfair1
        rw [hrun]
        cases found with
        | none => exact ⟨T, h2⟩
        | some e' =>
          obtain ⟨hhashed', hparent', hkey'⟩ := hfound' e' rfl
          obtain ⟨i, hi⟩ := Option.ne_none_iff_exists'.mp hsome
          have hi2 := h1.dInode_grows hgrows' hi
          have hnode := hgrows'.node e (h1.honest.made e hhashed).1
          have hd2' := h1.dInode_grows hgrows' hd1'
          dsimp only
          split_ifs with hsame hkeep hancestor
          · exact ⟨T, h2⟩
          · exact ⟨T, h2⟩
          · exact ⟨T, h2⟩
          refine h2.renameDentry (hgrows'.hashed e hhashed) hi2 ?_ hhashed' hparent' hkey' hd2' hsame ?_
            hstrict hfits (by rw [hnode, hkey]; exact hname) hname' noReplace last
          · rw [hnode, hparent]
            exact h1.dInode_grows hgrows' hd1
          · rintro rfl
            -- a directory cannot be moved into itself
            obtain rfl := Option.some.inj (hd2'.symm.trans hi2)
            have hlinked := (h2.honest.truth e' _ hhashed' (by rw [hparent']; exact hd2')).1
            rw [dentryIsAncestor_self _ _ h2.honest.home.1, Bool.and_true,
              Cached.dentryIsDir, hi2] at hancestor
            exact hancestor (h2.view.isDir_eq true hlinked.1)

/-- The end of a reference. -/
theorem forget (h : Truthful c v T) (ino : Nat) :
    ∃ T', Truthful c ⟨v.disk.iput ino true, v.dcache⟩ T' := by
  rcases h.view.iput ino true with h1 | ⟨hzero, h1⟩
  · exact ⟨T, h1, h.exact, h.honest⟩
  · obtain ⟨hlinked, hentry⟩ := entry_drop hzero
    exact ⟨_, h.elsewhere h1 (.single (.drop hzero))
      (.of_linked hlinked fun x n _ => by rw [hentry])⟩

end Truthful

/-! ## Every run -/

namespace Cached

/-- The names that a call is given. -/
def Op.names : Op → List Name
  | .lookup _ name _ => [name]
  | .create _ name _ _ _ => [name]
  | .symlink _ name _ _ _ => [name]
  | .mkdir _ name _ _ => [name]
  | .link _ _ name _ => [name]
  | .unlink _ name _ _ _ => [name]
  | .rename _ oldName _ newName _ _ _ _ => [oldName, newName]
  | .forget _ => []

/-- The searches that a call may make. -/
def Op.searches : Op → List (Nat × Name × Luck)
  | .lookup parent name luck => [(parent, name, luck)]
  | .unlink parent name luck _ _ => [(parent, name, luck)]
  | .rename oldParent oldName newParent newName luck luck' _ _ =>
    [(oldParent, oldName, luck), (newParent, newName, luck')]
  | _ => []

/-- The target of a symbolic link is harmless, and no directory is asked of `ext2_create`. -/
def Op.Harmless (sb : SbInfo) : Op → Prop
  | .create _ _ iType _ _ => iType ≠ .dir
  | .symlink _ _ target _ _ => HarmlessTarget sb target
  | _ => True

/-- Names are components of paths other than `.` and `..`, no search for a name that is there
meets a failure, the call is harmless, and link counts have room. -/
structure Admits (v : Cached) (op : Op) : Prop where
  names : ∀ name ∈ op.names, properName name = true
  fair : ∀ search ∈ op.searches, v.Fair search.1 search.2.1 search.2.2
  harmless : op.Harmless v.disk.sys.fs.sb
  fits : ∀ i inode, v.disk.sys.inodes i = some inode → Fits inode.iNlink

def Step (v : Cached) (op : Op) (v' : Cached) : Prop := v.exec op = v'

/-- A volume in order that has just been mounted, on which nothing fails but lookups. -/
structure Start (v : Cached) : Prop where
  order : v.disk.InOrder
  writes : v.disk.sys.fs.NoErrors
  exact : v.disk.LinksExact
  cache : v.dcache = mounted

variable {v : Cached}

theorem Start.truthful (h : Start v) : Truthful ⟨v.disk.sys.fs.sb, true⟩ v v.disk.sys.tree :=
  ⟨h.order.view true fun _ => h.writes, h.exact, by rw [h.cache]; exact honest_mounted _⟩

theorem truthful_exec {c : Setting} (hstrict : c.strict = true) {op : Op}
    (h : ∃ T, Truthful c v T) (hadmits : Admits v op) : ∃ T, Truthful c (v.exec op) T := by
  obtain ⟨T, h⟩ := h
  have hfits := fits_tree hadmits.fits
  rw [h.view.tree] at hfits
  have hharmless := hadmits.harmless
  rw [h.view.sb] at hharmless
  cases op with
  | lookup parent name luck =>
    obtain ⟨found, v', hrun, h', -⟩ := h.lookupOne (hadmits.names name List.mem_cons_self)
      (hadmits.fair (parent, name, luck) List.mem_cons_self)
    rw [exec, hrun]
    exact ⟨T, h'⟩
  | create parent name iType memory last =>
    have hname := hadmits.names name List.mem_cons_self
    exact h.make hstrict hname (fun _ => none) (fun _ => .inl rfl)
      (fun m d hview hd => hview.create hd hname hharmless) memory false last
  | symlink parent name target memory last =>
    have hname := hadmits.names name List.mem_cons_self
    rw [exec, vfsSymlink]
    split_ifs
    · exact ⟨T, h⟩
    · exact h.make hstrict hname (fun _ => none) (fun _ => .inl rfl)
        (fun m d hview hd => hview.symlink hd hname hharmless) memory false last
  | mkdir parent name memory last =>
    have hname := hadmits.names name List.mem_cons_self
    exact h.make hstrict hname some (fun _ => .inr rfl)
      (fun m d hview hd => hview.mkdir hd hname (hfits d)) memory true last
  | link oldDentry parent name memory =>
    exact h.link hstrict (hadmits.names name List.mem_cons_self) hfits oldDentry memory
  | unlink parent name luck directory last =>
    exact h.unlink hstrict (hadmits.names name List.mem_cons_self)
      (hadmits.fair (parent, name, luck) List.mem_cons_self) directory last
  | rename oldParent oldName newParent newName luck luck' noReplace last =>
    have hfair := hadmits.fair
    exact h.rename hstrict hfits (hadmits.names oldName List.mem_cons_self)
      (hfair (oldParent, oldName, luck) List.mem_cons_self)
      (hadmits.names newName (List.mem_cons_of_mem _ List.mem_cons_self))
      (hfair (newParent, newName, luck') (List.mem_cons_of_mem _ List.mem_cons_self))
      noReplace last
  | forget ino => exact h.forget ino

theorem truthful_run {v' : Cached} (hstart : Start v) (hrun : Runs Step Admits v v') :
    ∃ T, Truthful ⟨v.disk.sys.fs.sb, true⟩ v' T := by
  refine @Runs.induct _ _ Step Admits v v' (fun v' => ∃ T, Truthful ⟨v.disk.sys.fs.sb, true⟩ v' T)
    hrun ⟨_, hstart.truthful⟩ fun v1 op v2 h hadmits hstep => ?_
  rw [← hstep]
  exact truthful_exec rfl h hadmits

/-- A name that the cache and the directory do not have can be created. -/
theorem create_free {c : Setting} (h : Truthful c v T)
    {parent dir : Nat} {name : Name} (hname : properName name = true)
    (hparent : v.dInode parent = some dir) (hfree : T.names (dir, name) = none)
    (iType : FileType) (memory last : Bool) :
    (v.vfsCreate parent name iType memory last).1 ≠ .error .eexist := by
  obtain ⟨ret, v1, hrun, h1, hready, hret⟩ := @Truthful.prepare c v T parent name h hname memory
  rw [vfsCreate, vfsMake, hrun]
  cases ret with
  | error e =>
    exact fun heq => (hret dir hparent).2 hfree (congrArg Except.error (Except.error.inj heq))
  | ok target =>
    have hready := hready target rfl
    obtain rfl := (hret dir hparent).1 target rfl
    dsimp only
    have hne := h1.view.create_ne_eexist hready.dir hfree iType
    generalize v1.disk.ext2Create target.dir name iType = r at hne ⊢
    obtain ⟨ret, m2⟩ := r
    cases ret with
    | error e => exact fun heq => hne (congrArg Except.error (Except.error.inj heq))
    | ok i =>
      dsimp only
      have hwrite := @View.writeInode_ne_eexist m2 i
      generalize m2.writeInode i = r at hwrite ⊢
      obtain ⟨ret, m3⟩ := r
      cases ret with
      | error e => exact fun heq => hwrite rfl (Except.error.inj heq)
      | ok u => nofun

/-- The small tree with the file `f`. -/
def fileDisk : Disk := (treeDisk.exec (.create 2 [102] .reg)).2

/-- Nothing fails. -/
def goodLuck : Luck := ⟨smallVolume.io, true, true⟩

/-- There is no memory for the inode. -/
def noInode : Luck := { goodLuck with inodeOk := false }

theorem fits_treeDisk (i : Nat) (inode : Inode) (hinode : treeDisk.sys.inodes i = some inode) :
    Fits inode.iNlink := by
  rw [(treeDisk_inode hinode).2]
  decide

theorem reg_ne_dir : FileType.reg ≠ .dir := by decide

theorem start_fileDisk : Start ⟨fileDisk, mounted⟩ := by
  have hview := inOrder_treeDisk.view true fun _ => ⟨fun _ => rfl, fun _ => rfl⟩
  obtain ⟨T, h, hreach⟩ : Keeps _ _ (treeDisk.exec (.create 2 [102] .reg)) :=
    hview.exec linksExact_treeDisk (fits_tree fits_treeDisk) reg_ne_dir False.elim
  refine ⟨⟨h.fine, h.recordPages, h.recordSyncs⟩, h.writes rfl, ?_, rfl⟩
  have htree : fileDisk.sys.tree = T := h.tree
  change Exact fileDisk.sys.tree
  rw [htree]
  exact exact_reaches linksExact_treeDisk hreach

end Cached

end CuteOS.Fs.Vfs
