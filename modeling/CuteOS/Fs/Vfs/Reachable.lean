/-
  Fs/Vfs/Reachable.lean --- mounted file systems stay reachable.

  The invariant says that the mount list is a tree: every mount but the root sits on a
  directory of a mount of the list that was made earlier, and the way from the root of
  that mount to the directory meets no other mountpoint.  Each call keeps it under a
  condition that the code does not check.
-/
import CuteOS.Fs.Vfs.Mount
import CuteOS.Lib.Runs

set_option autoImplicit false

namespace CuteOS.Fs.Vfs

open Lib.Forest
open Function (update update_self update_of_ne)

namespace Namespace

variable (ns : Namespace)

/-- Something is mounted on `d` in mount `k`. -/
def Covered (k d : Nat) : Prop :=
  ∃ m ∈ ns.mountList, m.mntParent = some k ∧ m.mntMountpoint = d

/-- A walk inside mount `k` gets to `d` without crossing a mountpoint on the way. -/
def ClearIn (k : VfsMount) (d : Nat) : Prop :=
  Clear ns.parent ns.linked (ns.Covered k.id) k.mntRoot d

/-- The mount `m` sits on a directory of mount `k`. -/
structure SitsOn (m k : VfsMount) : Prop where
  parent : m.mntParent = some k.id
  later : k.id < m.id
  linked : ns.linked m.mntMountpoint
  isDir : ns.isDir m.mntMountpoint = true
  clear : ns.ClearIn k m.mntMountpoint

/-! ## The invariant -/

/-- The dentries are trees. -/
structure DentriesOk : Prop where
  bound : ∀ d, ns.linked d → d < ns.nextDentry
  closed : ∀ d < ns.nextDentry, ns.parent d < ns.nextDentry
  unique : ∀ d d', ns.linked d → ns.linked d' → ns.parent d = ns.parent d' →
    (ns.dentries d).dName = (ns.dentries d').dName → d = d'
  noLoop : ∀ d, ns.linked d → ns.parent d ≠ d
  inDir : ∀ d, ns.linked d → ns.linked (ns.parent d) → ns.isDir (ns.parent d) = true
  blank : ∀ d, ns.nextDentry ≤ d → ns.isDir d = false

/-- The mounts are a tree. -/
structure MountsOk : Prop where
  idLt : ∀ m ∈ ns.mountList, m.id < ns.nextMount
  idInj : ∀ m ∈ ns.mountList, ∀ m' ∈ ns.mountList, m.id = m'.id → m = m'
  root : ∃ r ∈ ns.mountList, r.mntIsRoot = true ∧ r.mntParent = none ∧
    ∀ m ∈ ns.mountList, m.mntIsRoot = true → m = r
  rootLt : ∀ m ∈ ns.mountList, m.mntRoot < ns.nextDentry
  rootDir : ∀ m ∈ ns.mountList, ns.isDir m.mntRoot = true
  rootUnlinked : ∀ m ∈ ns.mountList, ¬ ns.linked m.mntRoot
  sits : ∀ m ∈ ns.mountList, m.mntIsRoot = false → ∃ k ∈ ns.mountList, ns.SitsOn m k
  single : ∀ m ∈ ns.mountList, ∀ m' ∈ ns.mountList, ∀ k, m.mntParent = some k →
    m'.mntParent = some k → m.mntMountpoint = m'.mntMountpoint → m = m'

/-- The counters count the held paths. -/
structure HeldOk : Prop where
  active : ∀ k, ns.mntActiveRefs k = ns.held.countP fun p => p.mnt == k
  lt : ∀ p ∈ ns.held, p.mnt < ns.nextMount

structure Wf : Prop where
  dentries : ns.DentriesOk
  mounts : ns.MountsOk
  held : ns.HeldOk

end Namespace

namespace Namespace

variable {ns ns' : Namespace}

/-! ## Lookups -/

/-- A search for what one element alone has. -/
theorem find?_of_unique {α : Type} {l : List α} {p : α → Bool} {a : α} (ha : a ∈ l)
    (hp : p a = true) (hunique : ∀ b ∈ l, p b = true → b = a) : l.find? p = some a := by
  obtain ⟨b, hb⟩ := Option.isSome_iff_exists.mp (List.find?_isSome.mpr ⟨a, ha, hp⟩)
  rw [hb, hunique b (List.mem_of_find?_eq_some hb) (List.find?_some hb)]

variable {d : Nat}

theorem DentriesOk.dcacheLookup_eq (h : ns.DentriesOk) (hd : ns.linked d) :
    ns.dcacheLookup (ns.parent d) (ns.dentries d).dName = some d := by
  have hpred : ∀ e, ((ns.dentries e).hashed && (ns.dentries e).dParent == ns.parent d &&
      (ns.dentries e).dName == (ns.dentries d).dName) = true ↔ e = d := by
    intro e
    simp only [Bool.and_eq_true, beq_iff_eq]
    constructor
    · rintro ⟨⟨hhashed, hparent⟩, hname⟩
      exact h.unique e d hhashed hd hparent hname
    · rintro rfl
      exact ⟨⟨hd, rfl⟩, rfl⟩
  exact find?_of_unique (List.mem_range.mpr (h.bound d hd)) ((hpred d).mpr rfl) fun e _ => (hpred e).mp

variable {dir : Nat} {name : Name}

theorem dcacheLookup_some (h : ns.dcacheLookup dir name = some d) :
    ns.linked d ∧ ns.parent d = dir ∧ (ns.dentries d).dName = name := by
  have hd := List.find?_some h
  simp only [Bool.and_eq_true, beq_iff_eq] at hd
  exact ⟨hd.1.1, hd.1.2, hd.2⟩

theorem dcacheLookup_none (hok : ns.DentriesOk)
    (h : ns.dcacheLookup dir name = none) (hd : ns.linked d) (hparent : ns.parent d = dir) :
    (ns.dentries d).dName ≠ name := by
  rintro rfl
  rw [← hparent, hok.dcacheLookup_eq hd] at h
  cases h

/-! ## Walks -/

variable {p : Path}

theorem walkPath_trans {q : Path} {names : List Name} (h : ns.walkPath p names = some q)
    (rest : List Name) : ns.walkPath p (names ++ rest) = ns.walkPath q rest := by
  induction names generalizing p with
  | nil =>
    rw [walkPath, Option.some_inj] at h
    rw [h]
    rfl
  | cons first names ih =>
    rw [walkPath] at h
    rw [List.cons_append, walkPath]
    split_ifs at h ⊢
    split at h
    · exact ih h
    · cases h

theorem vfsFollowMount_of_not_covered (h : ¬ ns.Covered p.mnt p.dentry) :
    ns.vfsFollowMount p = p := by
  have hnone : ns.mountFindByMountpoint p = none := by
    rw [mountFindByMountpoint, List.find?_eq_none]
    intro m hm hmatch
    rw [Bool.and_eq_true, beq_iff_eq, beq_iff_eq] at hmatch
    exact h ⟨m, hm, hmatch.1, hmatch.2⟩
  rw [vfsFollowMount, hnone]

variable {m : VfsMount}

variable {k : VfsMount}

theorem MountsOk.vfsFollowMount_mountpoint (h : ns.MountsOk)
    (hm : m ∈ ns.mountList) (hsits : ns.SitsOn m k) :
    ns.vfsFollowMount ⟨k.id, m.mntMountpoint⟩ = ⟨m.id, m.mntRoot⟩ := by
  have hfind : ns.mountFindByMountpoint ⟨k.id, m.mntMountpoint⟩ = some m := by
    refine find?_of_unique hm (by simp [hsits.parent]) fun m' hmem hmatch => ?_
    rw [Bool.and_eq_true, beq_iff_eq, beq_iff_eq] at hmatch
    exact h.single m' hmem m hm k.id hmatch.1 hsits.parent hmatch.2
  rw [vfsFollowMount, hfind]
  exact if_pos (.inl (Nat.ne_of_gt hsits.later))

/-- A way inside a mount leads through directories. -/
theorem Wf.isDir_clear (h : ns.Wf) (hk : k ∈ ns.mountList) (hd : ns.linked d)
    (hclear : ns.ClearIn k (ns.parent d)) : ns.isDir (ns.parent d) = true := by
  by_cases heq : ns.parent d = k.mntRoot
  · rw [heq]
    exact h.mounts.rootDir k hk
  · exact h.dentries.inDir d hd (hclear.of_ne_root heq).1

/-- One step of a walk inside a mount. -/
theorem Wf.walkPath_child (h : ns.Wf) (hk : k ∈ ns.mountList) (hd : ns.linked d)
    (hclear : ns.ClearIn k (ns.parent d)) :
    ns.walkPath ⟨k.id, ns.parent d⟩ [(ns.dentries d).dName] =
      some (ns.vfsFollowMount ⟨k.id, d⟩) := by
  rw [walkPath, h.isDir_clear hk hd hclear, h.dentries.dcacheLookup_eq hd]
  rfl

theorem Wf.walkPath_clear (h : ns.Wf) (hk : k ∈ ns.mountList) (hclear : ns.ClearIn k d)
    (hfree : ¬ ns.Covered k.id d) :
    ∃ names, ns.walkPath ⟨k.id, k.mntRoot⟩ names = some ⟨k.id, d⟩ := by
  induction hclear with
  | root => exact ⟨[], rfl⟩
  | @up d hd hclear hup ih =>
    obtain ⟨names, hnames⟩ := ih hup
    refine ⟨names ++ [(ns.dentries d).dName], ?_⟩
    rw [walkPath_trans hnames, h.walkPath_child hk hd hclear, vfsFollowMount_of_not_covered hfree]

/-- From the root of a mount to the root of a mount that sits on it. -/
theorem Wf.walkPath_sitsOn (h : ns.Wf) (hm : m ∈ ns.mountList)
    (hk : k ∈ ns.mountList) (hsits : ns.SitsOn m k) :
    ∃ names, ns.walkPath ⟨k.id, k.mntRoot⟩ names = some ⟨m.id, m.mntRoot⟩ := by
  have hne : m.mntMountpoint ≠ k.mntRoot := by
    intro heq
    exact h.mounts.rootUnlinked k hk (heq ▸ hsits.linked)
  obtain ⟨hd, hup, hfree⟩ := hsits.clear.of_ne_root hne
  obtain ⟨names, hnames⟩ := h.walkPath_clear hk hup hfree
  refine ⟨names ++ [(ns.dentries m.mntMountpoint).dName], ?_⟩
  rw [walkPath_trans hnames, h.walkPath_child hk hd hup,
    h.mounts.vfsFollowMount_mountpoint hm hsits]

theorem MountsOk.not_root (h : ns.MountsOk) (hm : m ∈ ns.mountList) {k : Nat}
    (hparent : m.mntParent = some k) : m.mntIsRoot = false := by
  obtain ⟨r, _, _, hnone, hunique⟩ := h.root
  rw [← Bool.not_eq_true]
  intro htrue
  rw [hunique m hm htrue, hnone] at hparent
  cases hparent

theorem MountsOk.not_covered_root (h : ns.MountsOk) (hm : m ∈ ns.mountList)
    (k : Nat) : ¬ ns.Covered k m.mntRoot := by
  rintro ⟨m', hm', hparent, hpoint⟩
  obtain ⟨k', _, hsits⟩ := h.sits m' hm' (h.not_root hm' hparent)
  exact h.rootUnlinked m hm (hpoint ▸ hsits.linked)

/-- A walk from `/` reaches every mount. -/
theorem Wf.pathLookup_mount (h : ns.Wf) (hm : m ∈ ns.mountList) :
    ∃ names, ns.pathLookup names = some ⟨m.id, m.mntRoot⟩ := by
  obtain ⟨r, hr, hroot, _, hunique⟩ := h.mounts.root
  have hstart : ns.rootPath = some ⟨r.id, r.mntRoot⟩ := by
    rw [rootPath, find?_of_unique hr hroot hunique]
    rfl
  have hlookup : ∀ names, ns.pathLookup names = ns.walkPath ⟨r.id, r.mntRoot⟩ names := by
    intro names
    rw [pathLookup, hstart, Option.bind_some,
      vfsFollowMount_of_not_covered (h.mounts.not_covered_root hr r.id)]
  -- induction on the number: a mount sits on an earlier one
  induction hid : m.id using Nat.strong_induction_on generalizing m with
  | _ id ih =>
    subst hid
    cases hisRoot : m.mntIsRoot with
    | true =>
      refine ⟨[], ?_⟩
      rw [hlookup, hunique m hm hisRoot]
      rfl
    | false =>
      obtain ⟨k, hk, hsits⟩ := h.mounts.sits m hm hisRoot
      obtain ⟨names, hnames⟩ := ih k.id hsits.later hk rfl
      obtain ⟨rest, hrest⟩ := h.walkPath_sitsOn hm hk hsits
      rw [hlookup] at hnames
      refine ⟨names ++ rest, ?_⟩
      rw [hlookup, walkPath_trans hnames, hrest]

/-! ## Changes of the dentries -/

/-- The mounts stay a tree if their roots and mountpoints are left alone. -/
theorem MountsOk.change (h : ns.MountsOk) (hlist : ns'.mountList = ns.mountList)
    (hmount : ns'.nextMount = ns.nextMount) (hdentry : ns.nextDentry ≤ ns'.nextDentry)
    (hroot : ∀ m ∈ ns.mountList, ns'.isDir m.mntRoot = true ∧ ¬ ns'.linked m.mntRoot)
    (hsits : ∀ m ∈ ns.mountList, ∀ k ∈ ns.mountList, ns.SitsOn m k → ns'.SitsOn m k) :
    ns'.MountsOk := by
  refine ⟨?_, ?_, ?_, ?_, ?_, ?_, ?_, ?_⟩ <;> rw [hlist]
  · rw [hmount]
    exact h.idLt
  · exact h.idInj
  · exact h.root
  · exact fun m hm => Nat.lt_of_lt_of_le (h.rootLt m hm) hdentry
  · exact fun m hm => (hroot m hm).1
  · exact fun m hm => (hroot m hm).2
  · intro m hm hnot
    obtain ⟨k, hk, hold⟩ := h.sits m hm hnot
    exact ⟨k, hk, hsits m hm k hk hold⟩
  · exact h.single

theorem HeldOk.change (h : ns.HeldOk) (hactive : ns'.mntActiveRefs = ns.mntActiveRefs)
    (hheld : ns'.held = ns.held) (hmount : ns.nextMount ≤ ns'.nextMount) : ns'.HeldOk where
  active := by
    rw [hactive, hheld]
    exact h.active
  lt := by
    rw [hheld]
    exact fun p hp => Nat.lt_of_lt_of_le (h.lt p hp) hmount

theorem DentriesOk.lt_of_isDir (h : ns.DentriesOk) (hd : ns.isDir d = true) :
    d < ns.nextDentry := by
  by_contra hge
  rw [h.blank d (Nat.le_of_not_lt hge)] at hd
  cases hd

theorem DentriesOk.changeOne (hok : ns.DentriesOk) {x : Nat}
    (hsame : ∀ d, d ≠ x → ns'.dentries d = ns.dentries d) (hnext : ns.nextDentry ≤ ns'.nextDentry)
    (hlt : ∀ d < ns'.nextDentry, d ≠ x → d < ns.nextDentry) (hx : x < ns'.nextDentry)
    (hparent : ns'.parent x < ns'.nextDentry)
    (hchild : ns'.linked x → ∀ d, ns.linked d → ns.parent d = x → ns'.isDir x = true)
    (hnew : ns'.linked x → ns'.isDir (ns'.parent x) = true ∧ ns'.parent x ≠ x ∧
      ∀ d, ns.linked d → ns.parent d = ns'.parent x →
        (ns.dentries d).dName ≠ (ns'.dentries x).dName) : ns'.DentriesOk := by
  have hold : ∀ {d}, d ≠ x → ns'.linked d → ns.linked d := by
    intro d hne hd
    rwa [linked, hsame d hne] at hd
  have hup : ∀ {d}, d ≠ x → ns'.parent d = ns.parent d := by
    intro d hne
    rw [parent, hsame d hne]
    rfl
  -- no other dentry has the parent and the name of `x`
  have hother : ∀ {d}, d ≠ x → ns'.linked x → ns'.linked d → ns'.parent d = ns'.parent x →
      (ns'.dentries d).dName ≠ (ns'.dentries x).dName := by
    intro d hne hlinked hd hparents
    rw [hup hne] at hparents
    rw [hsame d hne]
    exact (hnew hlinked).2.2 d (hold hne hd) hparents
  refine ⟨fun d hd => ?_, fun d hd => ?_, fun d d' hd hd' hparents hnames => ?_, fun d hd => ?_,
    fun d hd hdir => ?_, fun d hd => ?_⟩
  · by_cases hne : d = x
    · rw [hne]
      exact hx
    · exact (hok.bound d (hold hne hd)).trans_le hnext
  · by_cases hne : d = x
    · rw [hne]
      exact hparent
    · rw [hup hne]
      exact (hok.closed d (hlt d hd hne)).trans_le hnext
  · by_cases hne : d = x
    · by_cases hne' : d' = x
      · rw [hne, hne']
      · subst hne
        exact absurd hnames.symm (hother hne' hd hd' hparents.symm)
    · by_cases hne' : d' = x
      · subst hne'
        exact absurd hnames (hother hne hd' hd hparents)
      · rw [hup hne, hup hne'] at hparents
        rw [hsame d hne, hsame d' hne'] at hnames
        exact hok.unique d d' (hold hne hd) (hold hne' hd') hparents hnames
  · by_cases hne : d = x
    · rw [hne] at hd ⊢
      exact (hnew hd).2.1
    · rw [hup hne]
      exact hok.noLoop d (hold hne hd)
  · by_cases hne : d = x
    · subst hne
      exact (hnew hd).1
    · have hlink := hold hne hd
      rw [hup hne] at hdir ⊢
      by_cases hin : ns.parent d = x
      · rw [hin] at hdir ⊢
        exact hchild hdir d hlink hin
      · rw [isDir, hsame _ hin]
        exact hok.inDir d hlink (hold hin hdir)
  · rw [isDir, hsame d (by omega)]
    exact hok.blank d (hnext.trans hd)

section SetDentry

variable {e : Nat} {dentry : Dentry}

theorem dentries_setDentry_self : (ns.setDentry d dentry).dentries d = dentry :=
  update_self ..

theorem dentries_setDentry_ne (hne : e ≠ d) : (ns.setDentry d dentry).dentries e = ns.dentries e :=
  update_of_ne hne ..

end SetDentry

/-! ### One dentry more -/

/-- The dentries are as before, but for the one that was allocated. -/
structure Extends (ns ns' : Namespace) : Prop where
  nextDentry : ns'.nextDentry = ns.nextDentry + 1
  same : ∀ d, d ≠ ns.nextDentry → ns'.dentries d = ns.dentries d

namespace Extends

section

variable (h : Extends ns ns') (hok : ns.DentriesOk)
include h hok

theorem of_linked (hd : ns.linked d) : ns'.dentries d = ns.dentries d :=
  h.same d (Nat.ne_of_lt (hok.bound d hd))

theorem linked (hd : ns.linked d) : ns'.linked d := by
  rw [Namespace.linked, h.of_linked hok hd]
  exact hd

theorem parent (hd : ns.linked d) : ns'.parent d = ns.parent d := by
  rw [Namespace.parent, h.of_linked hok hd]
  rfl

theorem isDir (hd : ns.isDir d = true) : ns'.isDir d = true := by
  rw [Namespace.isDir, h.same d (Nat.ne_of_lt (hok.lt_of_isDir hd))]
  exact hd

theorem dentriesOk (hparent : ns'.parent ns.nextDentry ≤ ns.nextDentry)
    (hnew : ns'.linked ns.nextDentry → ns.isDir (ns'.parent ns.nextDentry) = true ∧
      ∀ d, ns.linked d → ns.parent d = ns'.parent ns.nextDentry →
        (ns.dentries d).dName ≠ (ns'.dentries ns.nextDentry).dName) : ns'.DentriesOk := by
  have hnext := h.nextDentry
  refine hok.changeOne h.same (by omega) (by omega) (by omega) (by omega) (fun _ d hd hin => ?_)
    fun hlinked => ⟨h.isDir hok (hnew hlinked).1, ?_, (hnew hlinked).2⟩
  · have hlt := hok.closed d (hok.bound d hd)
    omega
  · exact Nat.ne_of_lt (hok.lt_of_isDir (hnew hlinked).1)

theorem sitsOn (hsits : ns.SitsOn m k)
    (hclear : Clear ns.parent ns.linked (ns'.Covered k.id) k.mntRoot m.mntMountpoint) :
    ns'.SitsOn m k where
  parent := hsits.parent
  later := hsits.later
  linked := h.linked hok hsits.linked
  isDir := h.isDir hok hsits.isDir
  clear := hclear.mono (fun _ => h.linked hok) (fun _ => h.parent hok) fun _ hd => hd

end

theorem mountRoot (h : Extends ns ns') (hok : ns.MountsOk)
    (hm : m ∈ ns.mountList) : ns'.isDir m.mntRoot = true ∧ ¬ ns'.linked m.mntRoot := by
  have hsame := h.same m.mntRoot (Nat.ne_of_lt (hok.rootLt m hm))
  rw [Namespace.isDir, Namespace.linked, hsame]
  exact ⟨hok.rootDir m hm, hok.rootUnlinked m hm⟩

end Extends

theorem Wf.dentryAdd (h : ns.Wf) (isDir : Bool)
    (hdir : ns.isDir dir = true) (habsent : ns.dcacheLookup dir name = none) :
    (ns.dentryAdd dir name isDir).Wf := by
  have hself : (ns.dentryAdd dir name isDir).dentries ns.nextDentry =
      ⟨dir, name, (ns.dentries dir).dSb, some isDir, true⟩ := dentries_setDentry_self
  have hext : Extends ns (ns.dentryAdd dir name isDir) := ⟨rfl, fun d hd => dentries_setDentry_ne hd⟩
  have hparent : (ns.dentryAdd dir name isDir).parent ns.nextDentry = dir := by
    rw [parent, hself]
  refine ⟨hext.dentriesOk h.dentries ?_ fun _ => ⟨?_, ?_⟩, ?_, h.held.change rfl rfl le_rfl⟩
  · rw [hparent]
    exact Nat.le_of_lt (h.dentries.lt_of_isDir hdir)
  · rw [hparent]
    exact hdir
  · intro d hd hsame
    rw [hparent] at hsame
    rw [hself]
    exact dcacheLookup_none h.dentries habsent hd hsame
  · exact h.mounts.change rfl rfl (Nat.le_succ _) (fun m hm => hext.mountRoot h.mounts hm)
      fun m _ k _ hsits => hext.sitsOn h.dentries hsits hsits.clear

/-! ### A dentry goes -/

section Invalidate

variable {e : Nat}

theorem dcacheInvalidate_ne (he : e ≠ d) : (ns.dcacheInvalidate d).dentries e = ns.dentries e :=
  dentries_setDentry_ne he

theorem dcacheInvalidate_self : (ns.dcacheInvalidate d).dentries d =
    { ns.dentries d with dInode := none, hashed := false } :=
  dentries_setDentry_self

theorem parent_dcacheInvalidate : (ns.dcacheInvalidate d).parent = ns.parent := by
  funext e
  by_cases he : e = d
  · rw [he, parent, dcacheInvalidate_self]
    rfl
  · rw [parent, dcacheInvalidate_ne he]
    rfl

theorem linked_dcacheInvalidate : (ns.dcacheInvalidate d).linked e ↔ ns.linked e ∧ e ≠ d := by
  by_cases he : e = d
  · subst he
    rw [linked, dcacheInvalidate_self]
    simp
  · rw [linked, dcacheInvalidate_ne he]
    exact ⟨fun hlink => ⟨hlink, he⟩, fun hlink => hlink.1⟩

theorem isDir_dcacheInvalidate (he : e ≠ d) : (ns.dcacheInvalidate d).isDir e = ns.isDir e := by
  rw [isDir, dcacheInvalidate_ne he]
  rfl

theorem clearIn_dcacheInvalidate (h : ns.ClearIn k e) (he : ¬ Below ns.parent ns.linked d e) :
    (ns.dcacheInvalidate d).ClearIn k e :=
  h.stays (fun _ _ => by rw [parent_dcacheInvalidate])
    (fun _ hne he => linked_dcacheInvalidate.mpr ⟨he, hne⟩) he

end Invalidate

theorem Wf.dcacheInvalidate (h : ns.Wf) (hd : ns.linked d)
    (hfree : ∀ m ∈ ns.mountList, m.mntIsRoot = false →
      ¬ Below ns.parent ns.linked d m.mntMountpoint) : (ns.dcacheInvalidate d).Wf := by
  have hlt := h.dentries.bound d hd
  refine ⟨h.dentries.changeOne (fun e he => dcacheInvalidate_ne he) le_rfl (fun e he _ => he) hlt
    ?_ (fun hlink => absurd rfl (linked_dcacheInvalidate.mp hlink).2)
    fun hlink => absurd rfl (linked_dcacheInvalidate.mp hlink).2, ?_, h.held.change rfl rfl le_rfl⟩
  · rw [parent_dcacheInvalidate]
    exact h.dentries.closed d hlt
  · refine h.mounts.change rfl rfl le_rfl (fun m hm => ?_) fun m hm k hk hsits => ?_
    · have hne : m.mntRoot ≠ d := by
        rintro rfl
        exact h.mounts.rootUnlinked m hm hd
      rw [isDir_dcacheInvalidate hne, linked_dcacheInvalidate]
      exact ⟨h.mounts.rootDir m hm, fun hlink => h.mounts.rootUnlinked m hm hlink.1⟩
    · have hfar := hfree m hm (h.mounts.not_root hm hsits.parent)
      have hne : m.mntMountpoint ≠ d := fun heq => hfar (heq ▸ .here)
      refine ⟨hsits.parent, hsits.later, linked_dcacheInvalidate.mpr ⟨hsits.linked, hne⟩, ?_, ?_⟩
      · rw [isDir_dcacheInvalidate hne]
        exact hsits.isDir
      · exact clearIn_dcacheInvalidate hsits.clear hfar

/-! ### A dentry moves -/

theorem Wf.dcacheMove (h : ns.Wf) {x : Nat} (hx : ns.linked x) (hdir : ns.isDir dir = true)
    (habsent : ∀ d, ns.linked d → ns.parent d = dir → (ns.dentries d).dName ≠ name)
    (hnot : ¬ Below ns.parent ns.linked x dir)
    (hclear : ∀ m ∈ ns.mountList, ∀ k ∈ ns.mountList, m.mntParent = some k.id →
      Below ns.parent ns.linked x m.mntMountpoint → ns.ClearIn k dir ∧ ¬ ns.Covered k.id dir) :
    (ns.dcacheMove x dir name).Wf := by
  have hself : (ns.dcacheMove x dir name).dentries x = { ns.dentries x with
        dParent := dir, dName := name, dSb := (ns.dentries dir).dSb, hashed := true } :=
    dentries_setDentry_self
  have hother : ∀ e, e ≠ x → (ns.dcacheMove x dir name).dentries e = ns.dentries e :=
    fun e he => dentries_setDentry_ne he
  have hparentSelf : (ns.dcacheMove x dir name).parent x = dir := by
    rw [parent, hself]
  have hparent : ∀ e, e ≠ x → (ns.dcacheMove x dir name).parent e = ns.parent e :=
    fun e he => by rw [parent, hother e he]; rfl
  have hlinked : ∀ e, (ns.dcacheMove x dir name).linked e ↔ ns.linked e := by
    intro e
    by_cases he : e = x
    · subst he
      rw [linked, hself]
      exact ⟨fun _ => hx, fun _ => rfl⟩
    · rw [linked, hother e he]
      rfl
  have hisDir : ∀ e, (ns.dcacheMove x dir name).isDir e = ns.isDir e := by
    intro e
    by_cases he : e = x
    · subst he
      rw [isDir, hself]
      rfl
    · rw [isDir, hother e he]
      rfl
  refine ⟨h.dentries.changeOne hother le_rfl (fun e he _ => he) (h.dentries.bound x hx) ?_
    (fun _ e he hin => ?_) fun _ => ⟨?_, ?_, fun e he hsame => ?_⟩, ?_, h.held.change rfl rfl le_rfl⟩
  · rw [hparentSelf]
    exact h.dentries.lt_of_isDir hdir
  · rw [hisDir, ← hin]
    exact h.dentries.inDir e he (hin ▸ hx)
  · rw [hisDir, hparentSelf]
    exact hdir
  · rw [hparentSelf]
    exact fun heq => hnot (heq ▸ .here)
  · rw [hparentSelf] at hsame
    rw [hself]
    exact habsent e he hsame
  · refine h.mounts.change rfl rfl le_rfl (fun m hm => ?_) fun m hm k hk hsits => ?_
    · rw [hisDir, hlinked]
      exact ⟨h.mounts.rootDir m hm, h.mounts.rootUnlinked m hm⟩
    · refine ⟨hsits.parent, hsits.later, (hlinked _).mpr hsits.linked, ?_, ?_⟩
      · rw [hisDir]
        exact hsits.isDir
      · exact Clear.moves hparent hsits.clear (fun e => (hlinked e).mpr) hparentSelf hnot
          (hclear m hm k hk hsits.parent)

/-! ## Mounting and unmounting -/

/-- The target of a mount can be reached, is not the root of a mount, and has no
mountpoint below it. -/
structure TargetOk (ns : Namespace) (k : VfsMount) (d : Nat) : Prop where
  linked : ns.linked d
  clear : ns.ClearIn k d
  above : ∀ m ∈ ns.mountList, m.mntParent = some k.id →
    ¬ Below ns.parent ns.linked d (ns.parent m.mntMountpoint)

theorem mem_mountAdd {dev : Nat} :
    m ∈ (ns.mountAdd p dev).mountList ↔ m ∈ ns.mountList ∨ m = ns.newMount p dev := by
  change m ∈ ns.mountList ++ [ns.newMount p dev] ↔ _
  rw [List.mem_append, List.mem_singleton]

/-- What is true of every mount of the list before and of the new one. -/
theorem forall_mountAdd {dev : Nat} {P : VfsMount → Prop}
    (hold : ∀ m ∈ ns.mountList, P m) (hnew : P (ns.newMount p dev)) :
    ∀ m ∈ (ns.mountAdd p dev).mountList, P m := by
  intro m hm
  rcases mem_mountAdd.mp hm with hm | rfl
  · exact hold m hm
  · exact hnew

section MountAdd

variable {dev : Nat}

theorem extends_mountAdd (ns : Namespace) (p : Path) (dev : Nat) : Extends ns (ns.mountAdd p dev) :=
  ⟨rfl, fun _ he => dentries_setDentry_ne he⟩

theorem dentries_mountAdd (ns : Namespace) (p : Path) (dev : Nat) :
    (ns.mountAdd p dev).dentries ns.nextDentry =
      ⟨ns.nextDentry, [47], ns.nextMount, some true, false⟩ :=
  dentries_setDentry_self

theorem covered_mountAdd {c e : Nat} (h : (ns.mountAdd ⟨k.id, d⟩ dev).Covered c e) :
    ns.Covered c e ∨ c = k.id ∧ e = d := by
  obtain ⟨m, hm, hparent, hpoint⟩ := h
  rcases mem_mountAdd.mp hm with hm | rfl
  · exact .inl ⟨m, hm, hparent, hpoint⟩
  · cases hparent
    exact .inr ⟨rfl, hpoint.symm⟩

/-- A way stays clear unless it goes through the new mountpoint. -/
theorem clear_mountAdd {c : VfsMount} {e : Nat} (h : ns.ClearIn c e)
    (hnot : c.id = k.id → ns.linked e → ¬ Below ns.parent ns.linked d (ns.parent e)) :
    Clear ns.parent ns.linked ((ns.mountAdd ⟨k.id, d⟩ dev).Covered c.id) c.mntRoot e := by
  by_cases hck : c.id = k.id
  · exact h.block (fun e he => (covered_mountAdd he).imp id And.right) (hnot hck)
  · refine h.mono (fun _ he => he) (fun _ _ => rfl) fun e he => ?_
    exact (covered_mountAdd he).elim id fun hnew => absurd hnew.1 hck

section

variable (h : ns.Wf) (hk : k ∈ ns.mountList) (hd : ns.isDir d = true)
include h hk hd

theorem Wf.sitsOn_newMount (htarget : TargetOk ns k d) :
    (ns.mountAdd ⟨k.id, d⟩ dev).SitsOn (ns.newMount ⟨k.id, d⟩ dev) k := by
  have hext := extends_mountAdd ns ⟨k.id, d⟩ dev
  have hway : Clear ns.parent ns.linked ((ns.mountAdd ⟨k.id, d⟩ dev).Covered k.id) k.mntRoot d :=
    clear_mountAdd htarget.clear fun _ hlink =>
      htarget.clear.isBelow.not_parent (h.mounts.rootUnlinked k hk) hlink
  exact ⟨rfl, h.mounts.idLt k hk, hext.linked h.dentries htarget.linked, hext.isDir h.dentries hd,
    hway.mono (fun _ => hext.linked h.dentries) (fun _ => hext.parent h.dentries) fun _ he => he⟩

theorem Wf.mountsOk_mountAdd (hbusy : ¬ ns.Covered k.id d) (htarget : TargetOk ns k d) :
    (ns.mountAdd ⟨k.id, d⟩ dev).MountsOk := by
  have hext := extends_mountAdd ns ⟨k.id, d⟩ dev
  have hself := dentries_mountAdd ns ⟨k.id, d⟩ dev
  obtain ⟨r, hr, hroot, hnone, hunique⟩ := h.mounts.root
  refine ⟨?_, ?_, ⟨r, mem_mountAdd.mpr (.inl hr), hroot, hnone, ?_⟩, ?_, ?_, ?_, ?_, ?_⟩
  · exact forall_mountAdd (fun m hm => Nat.lt_succ_of_lt (h.mounts.idLt m hm)) (Nat.lt_succ_self _)
  · refine forall_mountAdd (fun m hm => ?_) ?_
    · refine forall_mountAdd (h.mounts.idInj m hm) fun heq => ?_
      exact absurd heq (Nat.ne_of_lt (h.mounts.idLt m hm))
    · refine forall_mountAdd (fun m hm heq => ?_) fun _ => rfl
      exact absurd heq.symm (Nat.ne_of_lt (h.mounts.idLt m hm))
  · exact forall_mountAdd hunique fun hfalse => by cases hfalse
  · exact forall_mountAdd (fun m hm => Nat.lt_succ_of_lt (h.mounts.rootLt m hm))
      (Nat.lt_succ_self _)
  · refine forall_mountAdd (fun m hm => (hext.mountRoot h.mounts hm).1) ?_
    rw [newMount, isDir, hself]
    rfl
  · refine forall_mountAdd (fun m hm => (hext.mountRoot h.mounts hm).2) ?_
    rw [newMount, linked, hself]
    exact Bool.false_ne_true
  · refine forall_mountAdd (fun m hm hnotRoot => ?_) fun _ => ?_
    · obtain ⟨c, hc, hsits⟩ := h.mounts.sits m hm hnotRoot
      refine ⟨c, mem_mountAdd.mpr (.inl hc), hext.sitsOn h.dentries hsits ?_⟩
      refine clear_mountAdd hsits.clear fun hck _ => htarget.above m hm ?_
      rw [hsits.parent, hck]
    · exact ⟨k, mem_mountAdd.mpr (.inl hk), h.sitsOn_newMount hk hd htarget⟩
  · have hnew : ∀ m ∈ ns.mountList, ∀ c, m.mntParent = some c → some k.id = some c →
        m.mntMountpoint = d → False := by
      intro m hm c hparent hc hpoint
      cases hc
      exact hbusy ⟨m, hm, hparent, hpoint⟩
    refine forall_mountAdd (fun m hm => ?_) ?_
    · refine forall_mountAdd (h.mounts.single m hm) fun c hparent hc hpoint => ?_
      exact absurd hpoint fun hpoint => hnew m hm c hparent hc hpoint
    · refine forall_mountAdd (fun m hm c hc hparent hpoint => ?_) fun _ _ _ _ => rfl
      exact absurd hpoint.symm fun hpoint => hnew m hm c hparent hc hpoint

end

theorem Wf.mountAdd (h : ns.Wf) (dev : Nat) (hk : k ∈ ns.mountList) (hd : ns.isDir d = true)
    (hbusy : ¬ ns.Covered k.id d) (htarget : TargetOk ns k d) :
    (ns.mountAdd ⟨k.id, d⟩ dev).Wf := by
  have hself := dentries_mountAdd ns ⟨k.id, d⟩ dev
  refine ⟨(extends_mountAdd ns _ dev).dentriesOk h.dentries ?_ fun hlink => ?_,
    h.mountsOk_mountAdd hk hd hbusy htarget, ?_, ?_⟩
  · rw [parent, hself]
  · rw [linked, hself] at hlink
    cases hlink
  · intro c
    change update ns.mntActiveRefs ns.nextMount 0 c = ns.held.countP fun p => p.mnt == c
    by_cases hc : c = ns.nextMount
    · subst hc
      rw [update_self, eq_comm, List.countP_eq_zero]
      intro p hp heq
      exact absurd (beq_iff_eq.mp heq) (Nat.ne_of_lt (h.held.lt p hp))
    · rw [update_of_ne hc]
      exact h.held.active c
  · exact fun p hp => Nat.lt_succ_of_lt (h.held.lt p hp)

end MountAdd

theorem mem_mountDel {m' : VfsMount} :
    m' ∈ (ns.mountDel m).mountList ↔ m' ∈ ns.mountList ∧ m'.id ≠ m.id := by
  change m' ∈ ns.mountList.filter _ ↔ _
  rw [List.mem_filter, bne_iff_ne]

/-- A mount that nothing sits on goes. -/
theorem Wf.mountDel (h : ns.Wf) (hm : m ∈ ns.mountList)
    (hroot : m.mntIsRoot = false) (hleaf : ∀ m' ∈ ns.mountList, m'.mntParent ≠ some m.id) :
    (ns.mountDel m).Wf := by
  have hold : ∀ {m'}, m' ∈ (ns.mountDel m).mountList → m' ∈ ns.mountList :=
    fun hm' => (mem_mountDel.mp hm').1
  obtain ⟨r, hr, hisRoot, hnone, hunique⟩ := h.mounts.root
  have hrmem : r ∈ (ns.mountDel m).mountList := by
    refine mem_mountDel.mpr ⟨hr, fun heq => ?_⟩
    rw [h.mounts.idInj r hr m hm heq, hroot] at hisRoot
    cases hisRoot
  refine ⟨⟨h.dentries.bound, h.dentries.closed, h.dentries.unique, h.dentries.noLoop,
    h.dentries.inDir, h.dentries.blank⟩, ⟨?_, ?_, ⟨r, hrmem, hisRoot, hnone, ?_⟩, ?_, ?_, ?_, ?_, ?_⟩,
    h.held.change rfl rfl le_rfl⟩
  · exact fun m' hm' => h.mounts.idLt m' (hold hm')
  · exact fun m1 h1 m2 h2 => h.mounts.idInj m1 (hold h1) m2 (hold h2)
  · exact fun m' hm' => hunique m' (hold hm')
  · exact fun m' hm' => h.mounts.rootLt m' (hold hm')
  · exact fun m' hm' => h.mounts.rootDir m' (hold hm')
  · exact fun m' hm' => h.mounts.rootUnlinked m' (hold hm')
  · intro m' hm' hnotRoot
    obtain ⟨c, hc, hsits⟩ := h.mounts.sits m' (hold hm') hnotRoot
    have hne : c.id ≠ m.id := by
      intro heq
      exact hleaf m' (hold hm') (by rw [hsits.parent, heq])
    refine ⟨c, mem_mountDel.mpr ⟨hc, hne⟩, hsits.parent, hsits.later, hsits.linked, hsits.isDir, ?_⟩
    refine hsits.clear.mono (fun _ he => he) (fun _ _ => rfl) ?_
    rintro e ⟨m1, h1, hparent, hpoint⟩
    exact ⟨m1, hold h1, hparent, hpoint⟩
  · exact fun m1 h1 m2 h2 => h.mounts.single m1 (hold h1) m2 (hold h2)

/-! ## Holding paths -/

theorem Wf.of_held (h : ns.Wf) {active : Nat → Nat} {held : List Path}
    (hactive : ∀ k, active k = held.countP fun p => p.mnt == k)
    (hlt : ∀ p ∈ held, p.mnt < ns.nextMount) :
    ({ ns with mntActiveRefs := active, held := held } : Namespace).Wf where
  dentries := ⟨h.dentries.bound, h.dentries.closed, h.dentries.unique, h.dentries.noLoop,
    h.dentries.inDir, h.dentries.blank⟩
  mounts := h.mounts.change rfl rfl le_rfl
    (fun m hm => ⟨h.mounts.rootDir m hm, h.mounts.rootUnlinked m hm⟩)
    fun _ _ _ _ hsits => ⟨hsits.parent, hsits.later, hsits.linked, hsits.isDir, hsits.clear⟩
  held := ⟨hactive, hlt⟩

theorem Wf.pathGet (h : ns.Wf) (p : Path) : (ns.pathGet p).Wf := by
  unfold Namespace.pathGet
  split_ifs with hmount
  · refine h.of_held (fun k => ?_) fun q hq => ?_
    · rw [List.countP_cons, ← h.held.active k]
      by_cases hk : p.mnt = k
      · subst hk
        rw [update_self, if_pos (beq_self_eq_true _)]
      · rw [update_of_ne (Ne.symm hk), if_neg (by rw [beq_iff_eq]; exact hk)]
        rfl
    · rcases List.mem_cons.mp hq with rfl | hq
      · exact hmount
      · exact h.held.lt q hq
  · exact h

theorem Wf.pathPut (h : ns.Wf) (p : Path) : (ns.pathPut p).Wf := by
  unfold Namespace.pathPut
  split_ifs with hheld
  · refine h.of_held (fun k => ?_) fun q hq => h.held.lt q (List.mem_of_mem_erase hq)
    have hcount := h.held.active k
    have hcons : ns.held.countP (fun p => p.mnt == k) =
        (p :: ns.held.erase p).countP fun p => p.mnt == k :=
      (List.perm_cons_erase hheld).countP_eq _
    rw [List.countP_cons] at hcons
    by_cases hk : p.mnt = k
    · subst hk
      rw [if_pos (beq_self_eq_true _)] at hcons
      rw [update_self]
      omega
    · rw [if_neg (by rw [beq_iff_eq]; exact hk)] at hcons
      rw [update_of_ne (Ne.symm hk)]
      omega
  · exact h

/-! ## Calls -/

/-- What the calls would have to check.  No mountpoint is at or below a directory that is
removed or replaced; a directory with mounts below it moves to a place that can be reached; a
mount is made at a place that can be reached, is not the root of a mount and has no
mountpoint below it; and a mount is removed only if no other sits on it. -/
def CallOk (ns : Namespace) : Call → Prop
  | .rmdir dir name _ _ => ∀ d, ns.dcacheLookup dir name = some d →
      ∀ m ∈ ns.mountList, m.mntIsRoot = false → ¬ Below ns.parent ns.linked d m.mntMountpoint
  | .rename r =>
    (∀ d, ns.dcacheLookup r.newDir r.newName = some d → ∀ m ∈ ns.mountList,
      m.mntIsRoot = false → ¬ Below ns.parent ns.linked d m.mntMountpoint) ∧
    ∀ d, ns.dcacheLookup r.oldDir r.oldName = some d →
      ∀ m ∈ ns.mountList, ∀ k ∈ ns.mountList, m.mntParent = some k.id →
        Below ns.parent ns.linked d m.mntMountpoint →
        ns.ClearIn k r.newDir ∧ ¬ ns.Covered k.id r.newDir
  | .mount p _ _ => ∃ k ∈ ns.mountList, k.id = p.mnt ∧ TargetOk ns k p.dentry
  | .umount p => ∀ m ∈ ns.mountList, m.mntParent ≠ some p.mnt
  | _ => True

section

variable (h : ns.Wf)
include h

theorem Wf.vfsUnlink (dir : Nat) (name : Name) (fs : Except Errno Unit) :
    (ns.vfsUnlink dir name fs).2.Wf := by
  unfold Namespace.vfsUnlink
  split_ifs
  · exact h
  cases hlookup : ns.dcacheLookup dir name with
  | none => exact h
  | some d =>
    dsimp only
    split_ifs with hdir
    · exact h
    cases fs with
    | error e => exact h
    | ok u =>
      have hd := (dcacheLookup_some hlookup).1
      refine h.dcacheInvalidate hd fun m hm hroot hbelow => ?_
      -- what is not a directory has nothing below it
      obtain ⟨k, _, hsits⟩ := h.mounts.sits m hm hroot
      rcases hbelow.eq_or_child with heq | ⟨e, he, rfl⟩
      · exact hdir (heq ▸ hsits.isDir)
      · exact hdir (h.dentries.inDir e he hd)

theorem Wf.vfsRmdir (dir : Nat) (name : Name) (empty : Bool) (fs : Except Errno Unit)
    (hok : CallOk ns (.rmdir dir name empty fs)) : (ns.vfsRmdir dir name empty fs).2.Wf := by
  unfold Namespace.vfsRmdir
  split
  · exact h
  cases hlookup : ns.dcacheLookup dir name with
  | none => exact h
  | some d =>
    dsimp only
    split_ifs
    · exact h
    · exact h
    cases fs with
    | error e => exact h
    | ok u => exact h.dcacheInvalidate (dcacheLookup_some hlookup).1 (hok d hlookup)

/-- The old name is not above the new directory. -/
theorem Wf.rename_not_below {old : Nat} (hlink : ns.linked old) (hdir : ns.isDir dir = true)
    (hcheck : ¬ (ns.isDir old && isAncestor ns.parent ns.nextDentry old dir) = true) :
    ¬ Below ns.parent ns.linked old dir := by
  intro hbelow
  have hanc := isAncestor_of_below h.dentries.closed (h.dentries.lt_of_isDir hdir) hbelow
  rw [hanc, Bool.and_true] at hcheck
  rcases hbelow.eq_or_child with heq | ⟨e, he, rfl⟩
  · exact hcheck (heq ▸ hdir)
  · exact hcheck (h.dentries.inDir e he hlink)

theorem Wf.vfsRename (r : Rename) (hok : CallOk ns (.rename r)) : (ns.vfsRename r).2.Wf := by
  obtain ⟨hnewOk, holdOk⟩ := hok
  unfold Namespace.vfsRename
  by_cases hdirs : (!ns.isDir r.oldDir || !ns.isDir r.newDir) = true
  · rw [if_pos hdirs]
    exact h
  rw [if_neg hdirs]
  have hdir : ns.isDir r.newDir = true := by
    rw [Bool.or_eq_true, not_or] at hdirs
    simpa using hdirs.2
  by_cases hsb : (ns.dentries r.oldDir).dSb ≠ (ns.dentries r.newDir).dSb
  · rw [if_pos hsb]
    exact h
  rw [if_neg hsb]
  cases hold : ns.dcacheLookup r.oldDir r.oldName with
  | none => exact h
  | some old =>
    obtain ⟨hlink, -, -⟩ := dcacheLookup_some hold
    dsimp only
    by_cases hsame : ns.dcacheLookup r.newDir r.newName = some old
    · rw [if_pos hsame]
      exact h
    rw [if_neg hsame]
    by_cases hanc : (ns.isDir old && isAncestor ns.parent ns.nextDentry old r.newDir) = true
    · rw [if_pos hanc]
      exact h
    rw [if_neg hanc]
    have hbelow := h.rename_not_below hlink hdir hanc
    cases htarget : ns.renameTarget old (ns.dcacheLookup r.newDir r.newName) r.noReplace
        r.empty with
    | error e => exact h
    | ok u =>
      cases r.fs with
      | error e => exact h
      | ok u =>
        cases hnew : ns.dcacheLookup r.newDir r.newName with
        | none =>
          exact h.dcacheMove hlink hdir (fun d hd => dcacheLookup_none h.dentries hnew hd)
            hbelow (holdOk old hold)
        | some v =>
          rw [hnew] at hsame
          obtain ⟨hv, hvparent, hvname⟩ := dcacheLookup_some hnew
          have hne : old ≠ v := fun heq => hsame (by rw [heq])
          have hdirNe : r.newDir ≠ v := hvparent ▸ h.dentries.noLoop v hv
          refine (h.dcacheInvalidate hv (hnewOk v hnew)).dcacheMove
            (linked_dcacheInvalidate.mpr ⟨hlink, hne⟩) ?_ ?_ ?_ ?_
          · rw [isDir_dcacheInvalidate hdirNe]
            exact hdir
          · intro d hd hparent hname
            obtain ⟨hd, hdv⟩ := linked_dcacheInvalidate.mp hd
            rw [parent_dcacheInvalidate] at hparent
            rw [dcacheInvalidate_ne hdv] at hname
            exact hdv (h.dentries.unique d v hd hv (hparent.trans hvparent.symm)
              (hname.trans hvname.symm))
          · intro hbelow'
            exact hbelow (hbelow'.mono (fun _ he => (linked_dcacheInvalidate.mp he).1)
              fun _ _ => by rw [parent_dcacheInvalidate])
          · intro m hm k hk hparent hbelow'
            obtain ⟨hclear, hfree⟩ := holdOk old hold m hm k hk hparent
              (hbelow'.mono (fun _ he => (linked_dcacheInvalidate.mp he).1)
                fun _ _ => by rw [parent_dcacheInvalidate])
            rw [← hvparent] at hclear ⊢
            have hroot := h.mounts.rootUnlinked k hk
            exact ⟨clearIn_dcacheInvalidate hclear
              (Below.not_parent (.up hv hclear.isBelow) hroot hv), hvparent ▸ hfree⟩

theorem Wf.vfsMount (p : Path) (dev : Nat) (fs : Except Errno Unit)
    (hok : CallOk ns (.mount p dev fs)) : (ns.vfsMount p dev fs).2.Wf := by
  obtain ⟨k, hk, hid, htarget⟩ := hok
  obtain ⟨mnt, d⟩ := p
  subst hid
  unfold Namespace.vfsMount
  split_ifs with hdir hbusy
  · exact h
  · exact h
  cases fs with
  | error e => exact h
  | ok u =>
    refine h.mountAdd dev hk (by simpa using hdir) ?_ htarget
    rintro ⟨m, hm, hparent, hpoint⟩
    refine hbusy (List.find?_isSome.mpr ⟨m, hm, ?_⟩)
    simp [hparent, hpoint]

end

/-- What `vfs_umount` has found if it succeeds. -/
theorem vfsUmount_spec (ns : Namespace) (p : Path) : (∃ e, ns.vfsUmount p = (.error e, ns)) ∨
    ∃ m ∈ ns.mountList, m.id = p.mnt ∧ m.mntIsRoot = false ∧ ns.mntActiveRefs m.id = 0 ∧
      ns.vfsUmount p = (.ok (), ns.mountDel m) := by
  unfold Namespace.vfsUmount
  cases hfind : ns.mountFindByRoot p with
  | none => exact .inl ⟨_, rfl⟩
  | some m =>
    dsimp only
    split_ifs with hbusy
    · exact .inl ⟨_, rfl⟩
    rw [Bool.or_eq_true, not_or, Bool.not_eq_true, decide_eq_true_eq] at hbusy
    have hmatch := List.find?_some hfind
    rw [Bool.and_eq_true, beq_iff_eq] at hmatch
    exact .inr ⟨m, List.mem_of_find?_eq_some hfind, hmatch.1, hbusy.1, by omega, rfl⟩

theorem Wf.vfsUmount (h : ns.Wf) (p : Path) (hok : CallOk ns (.umount p)) :
    (ns.vfsUmount p).2.Wf := by
  rcases ns.vfsUmount_spec p with ⟨e, hret⟩ | ⟨m, hm, hid, hroot, -, hret⟩
  · rw [hret]
    exact h
  · rw [hret]
    exact h.mountDel hm hroot (by rw [hid]; exact hok)

theorem Wf.vfsLookupOne (h : ns.Wf) (dir : Nat) (name : Name) (isDir : Bool) :
    (ns.vfsLookupOne dir name isDir).2.Wf := by
  unfold Namespace.vfsLookupOne
  split_ifs with hdir
  · exact h
  cases hlookup : ns.dcacheLookup dir name with
  | some d => exact h
  | none => exact h.dentryAdd isDir (by simpa using hdir) hlookup

theorem Wf.next (h : ns.Wf) (call : Call) (hok : CallOk ns call) : (ns.next call).Wf := by
  cases call with
  | lookup dir name isDir => exact h.vfsLookupOne dir name isDir
  | unlink dir name fs => exact h.vfsUnlink dir name fs
  | rmdir dir name empty fs => exact h.vfsRmdir dir name empty fs hok
  | rename r => exact h.vfsRename r hok
  | mount p dev fs => exact h.vfsMount p dev fs hok
  | umount p => exact h.vfsUmount p hok
  | get p => exact h.pathGet p
  | put p => exact h.pathPut p

theorem wf_boot (dev : Nat) : (boot dev).Wf := by
  have hlinked : ∀ d, ¬ (boot dev).linked d := by
    intro d hd
    rw [linked, boot] at hd
    dsimp only at hd
    split_ifs at hd
  have hmem : ∀ m ∈ (boot dev).mountList, m = ⟨0, none, 0, 0, 0, dev, true⟩ :=
    fun m hm => List.mem_singleton.mp hm
  refine ⟨⟨fun d hd => absurd hd (hlinked d), ?_, fun d _ hd => absurd hd (hlinked d),
    fun d hd => absurd hd (hlinked d), fun d hd => absurd hd (hlinked d), ?_⟩, ⟨?_, ?_, ?_, ?_, ?_, ?_, ?_, ?_⟩, ?_, ?_⟩
  · intro d hd
    obtain rfl : d = 0 := Nat.lt_one_iff.mp hd
    exact Nat.zero_lt_one
  · intro d hd
    have hne : d ≠ 0 := fun heq => by rw [heq] at hd; cases hd
    rw [isDir, boot]
    dsimp only
    rw [if_neg hne]
    rfl
  · intro m hm
    rw [hmem m hm]
    exact Nat.zero_lt_one
  · intro m hm m' hm' _
    rw [hmem m hm, hmem m' hm']
  · exact ⟨_, List.mem_singleton_self _, rfl, rfl, fun m hm _ => hmem m hm⟩
  · intro m hm
    rw [hmem m hm]
    exact Nat.zero_lt_one
  · intro m hm
    rw [hmem m hm]
    rfl
  · exact fun m _ => hlinked _
  · intro m hm hroot
    rw [hmem m hm] at hroot
    cases hroot
  · intro m hm m' hm' k hparent
    rw [hmem m hm] at hparent
    cases hparent
  · exact fun k => rfl
  · intro p hp
    cases hp

/-! ## Reachable mounts -/

/-- The mount sits on a live directory of a mount of the list, below its root; a walk
from `/` reaches it, and `vfs_umount` on what the walk yields removes it when it is not
in use. -/
structure Reachable (ns : Namespace) (m : VfsMount) : Prop where
  parent : ∃ k ∈ ns.mountList, m.mntParent = some k.id ∧
    Below ns.parent ns.linked k.mntRoot m.mntMountpoint
  live : (ns.dentries m.mntMountpoint).dInode = some true
  walk : ∃ names, ns.pathLookup names = some ⟨m.id, m.mntRoot⟩
  umount : ns.mntActiveRefs m.id = 0 → (ns.vfsUmount ⟨m.id, m.mntRoot⟩).1 = .ok () ∧
    m ∉ (ns.vfsUmount ⟨m.id, m.mntRoot⟩).2.mountList

/-- No path that is held leads into the mount, and no mount sits on it. -/
def Unused (ns : Namespace) (mnt : Nat) : Prop :=
  (∀ p ∈ ns.held, p.mnt ≠ mnt) ∧ ∀ m ∈ ns.mountList, m.mntParent ≠ some mnt

theorem Wf.reachable (h : ns.Wf) (hm : m ∈ ns.mountList)
    (hroot : m.mntIsRoot = false) : ns.Reachable m := by
  obtain ⟨k, hk, hsits⟩ := h.mounts.sits m hm hroot
  refine ⟨⟨k, hk, hsits.parent, hsits.clear.isBelow⟩, beq_iff_eq.mp hsits.isDir,
    h.pathLookup_mount hm, fun hidle => ?_⟩
  have hfind : ns.mountFindByRoot ⟨m.id, m.mntRoot⟩ = some m := by
    refine find?_of_unique hm (by simp) fun m' hmem hmatch => ?_
    rw [Bool.and_eq_true, beq_iff_eq] at hmatch
    exact h.mounts.idInj m' hmem m hm hmatch.1
  have humount : ns.vfsUmount ⟨m.id, m.mntRoot⟩ = (.ok (), ns.mountDel m) := by
    rw [Namespace.vfsUmount, hfind]
    dsimp only
    rw [hroot, hidle]
    rfl
  rw [humount]
  exact ⟨rfl, fun hin => (mem_mountDel.mp hin).2 rfl⟩

/-- In every state of a run whose calls meet the condition, every mount can be reached,
and a call of `vfs_umount` that meets it succeeds only on a mount that is not used. -/
theorem mounts_reachable (dev : Nat) {ns : Namespace}
    (hrun : Lib.Runs (fun ns call ns' => ns' = ns.next call) CallOk (boot dev) ns) :
    (∀ m ∈ ns.mountList, m.mntIsRoot = false → ns.Reachable m) ∧
      ∀ p, CallOk ns (.umount p) → (ns.vfsUmount p).1 = .ok () → ns.Unused p.mnt := by
  have hwf : ns.Wf := hrun.induct (wf_boot dev) fun ns call ns' h hok hnext => by
    rw [hnext]
    exact h.next call hok
  refine ⟨fun m hm hroot => hwf.reachable hm hroot, fun p hok hret => ⟨?_, hok⟩⟩
  obtain ⟨e, herror⟩ | ⟨m, -, hid, -, hidle, -⟩ := ns.vfsUmount_spec p
  · rw [herror] at hret
    cases hret
  rw [hid, hwf.held.active, List.countP_eq_zero] at hidle
  exact fun q hq heq => hidle q hq (beq_iff_eq.mpr heq)

/-- A directory `a` of the root, and a file system mounted on it. -/
theorem mounts_reachable_example :
    ∃ m ∈ (((boot 0).next (.lookup 0 [97] true)).next (.mount ⟨0, 1⟩ 1 (.ok ()))).mountList,
      m.mntIsRoot = false ∧
        (((boot 0).next (.lookup 0 [97] true)).next (.mount ⟨0, 1⟩ 1 (.ok ()))).Reachable m := by
  have hok : CallOk ((boot 0).next (.lookup 0 [97] true)) (.mount ⟨0, 1⟩ 1 (.ok ())) := by
    refine ⟨⟨0, none, 0, 0, 0, 0, true⟩, List.mem_singleton_self _, rfl, rfl, ?_, ?_⟩
    · refine Clear.up rfl .root ?_
      rintro ⟨m, hm, hparent, -⟩
      rw [List.mem_singleton.mp hm] at hparent
      cases hparent
    · intro m hm hparent
      rw [List.mem_singleton.mp hm] at hparent
      cases hparent
  have hrun : Lib.Runs (fun ns call ns' => ns' = ns.next call) CallOk (boot 0)
      (((boot 0).next (.lookup 0 [97] true)).next (.mount ⟨0, 1⟩ 1 (.ok ()))) :=
    (Relation.ReflTransGen.single ⟨.lookup 0 [97] true, trivial, rfl⟩).tail ⟨_, hok, rfl⟩
  exact ⟨_, List.mem_cons_of_mem _ (List.mem_singleton_self _), rfl,
    (mounts_reachable 0 hrun).1 _ (List.mem_cons_of_mem _ (List.mem_singleton_self _)) rfl⟩

/-- A file system is mounted on `/a` and a second one on `/a/b`. -/
def nested : Namespace :=
  [.lookup 0 [97] true, .mount ⟨0, 1⟩ 1 (.ok ()), .lookup 2 [98] true,
    .mount ⟨1, 3⟩ 2 (.ok ())].foldl next (boot 0)

/-- `vfs_umount` of `/a` succeeds with a mount below it, which stays in the list and
cannot be reached; and `rmdir` removes the directory that a file system is mounted on. -/
theorem nested_not_reachable : ((nested.vfsUmount ⟨1, 2⟩).1 = .ok () ∧ ¬ nested.Unused 1 ∧
      ∃ m ∈ (nested.vfsUmount ⟨1, 2⟩).2.mountList, m.mntIsRoot = false ∧
        ¬ (nested.vfsUmount ⟨1, 2⟩).2.Reachable m) ∧
    ((nested.vfsRmdir 0 [97] true (.ok ())).1 = .ok () ∧
      ∃ m ∈ (nested.vfsRmdir 0 [97] true (.ok ())).2.mountList, m.mntIsRoot = false ∧
        ¬ (nested.vfsRmdir 0 [97] true (.ok ())).2.Reachable m) := by
  refine ⟨⟨by decide, fun hunused => ?_, ⟨2, some 1, 3, 4, 2, 2, false⟩, by decide, rfl, ?_⟩,
    by decide, ⟨1, some 0, 1, 2, 1, 1, false⟩, by decide, rfl, ?_⟩
  · exact hunused.2 ⟨2, some 1, 3, 4, 2, 2, false⟩ (by decide) rfl
  · rintro ⟨⟨k, hk, hparent, -⟩, -, -, -⟩
    revert k
    decide
  · intro h
    exact absurd h.live (by decide)

end Namespace

end CuteOS.Fs.Vfs
