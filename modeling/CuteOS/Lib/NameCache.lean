/-
  Lib/NameCache.lean --- caches of the names of a directory tree.

  A cache has a node for each name that has been asked for, with the node of the
  directory above and what the name stands for, if anything.  A hash table leads from the
  directory and the name to the node.  The cache is coherent with a tree if every node
  that can be found says what its directory says.  The rules below are the changes of the
  cache that keep it so while the tree changes.
-/
import CuteOS.Lib.LinkTree

set_option autoImplicit false

namespace CuteOS.Lib.NameCache

open LinkTree
open Function (update update_idem update_self update_apply update_of_ne update_eq_self)

/-! ## Caches -/

structure Node (ι ν : Type) where
  name : ν
  parent : Nat
  inode : Option ι

/-- Nodes below `fresh` have been made.  A cell of the table is a bucket and a node. -/
structure Cache (ι ν : Type) where
  node : Nat → Node ι ν
  fresh : Nat
  table : List (Nat × Nat)

namespace Cache

variable {ι ν : Type} (c : Cache ι ν)

def hashed (e : Nat) : Bool := c.table.any fun cell => cell.2 == e

/-- The first node of the bucket with this name. -/
def find [DecidableEq ν] (bucket parent : Nat) (name : ν) : Option Nat :=
  (c.table.find? fun cell => cell.1 == bucket && (c.node cell.2).parent == parent &&
    (c.node cell.2).name == name).map Prod.snd

/-- A new node that stands for nothing and is not in the table. -/
def add (parent : Nat) (name : ν) : Cache ι ν :=
  { c with
    node := update c.node c.fresh ⟨name, parent, none⟩
    fresh := c.fresh + 1 }

def hash (bucket e : Nat) : Cache ι ν :=
  if c.hashed e then c else { c with table := (bucket, e) :: c.table }

def unhash (e : Nat) : Cache ι ν := { c with table := c.table.filter fun cell => cell.2 != e }

def setInode (e : Nat) (inode : Option ι) : Cache ι ν :=
  { c with node := update c.node e ⟨(c.node e).name, (c.node e).parent, inode⟩ }

/-- The node gets another place. -/
def setPlace (e parent : Nat) (name : ν) : Cache ι ν :=
  { c with node := update c.node e ⟨name, parent, (c.node e).inode⟩ }

/-- The node is in the table. -/
def Hashed (e : Nat) : Prop := c.hashed e = true

section Fields

variable {c} {e x parent bucket : Nat} {name : ν} {inode : Option ι}

theorem hashed_iff : c.Hashed e ↔ ∃ b, (b, e) ∈ c.table := by
  simp [Hashed, hashed]

@[simp] theorem hashed_setInode : (c.setInode e inode).Hashed x ↔ c.Hashed x := Iff.rfl

@[simp] theorem hashed_setPlace : (c.setPlace e parent name).Hashed x ↔ c.Hashed x := Iff.rfl

@[simp] theorem hashed_hash : (c.hash bucket e).Hashed x ↔ x = e ∨ c.Hashed x := by
  rw [hash]
  split_ifs with he
  · refine ⟨.inr, fun hx => hx.elim (fun heq => ?_) id⟩
    rw [heq]
    exact he
  · simp only [hashed_iff, List.mem_cons, Prod.mk.injEq]
    exact ⟨fun ⟨b, hb⟩ => hb.imp And.right fun hb => ⟨b, hb⟩,
      fun hx => hx.elim (fun heq => ⟨bucket, .inl ⟨rfl, heq⟩⟩) fun ⟨b, hb⟩ => ⟨b, .inr hb⟩⟩

@[simp] theorem hashed_unhash : (c.unhash e).Hashed x ↔ x ≠ e ∧ c.Hashed x := by
  simp only [hashed_iff, unhash, List.mem_filter, bne_iff_ne]
  exact ⟨fun ⟨b, hb, hne⟩ => ⟨hne, b, hb⟩, fun ⟨hne, b, hb⟩ => ⟨b, hb, hne⟩⟩

theorem mem_hash {cell : Nat × Nat} (h : cell ∈ (c.hash bucket e).table) :
    cell = (bucket, e) ∨ cell ∈ c.table := by
  rw [hash] at h
  split_ifs at h
  · exact .inr h
  · exact List.mem_cons.mp h

@[simp] theorem node_hash : (c.hash bucket e).node = c.node := by
  rw [hash]
  split_ifs <;> rfl

@[simp] theorem fresh_hash : (c.hash bucket e).fresh = c.fresh := by
  rw [hash]
  split_ifs <;> rfl

@[simp] theorem fresh_setInode : (c.setInode e inode).fresh = c.fresh := rfl

@[simp] theorem fresh_setPlace : (c.setPlace e parent name).fresh = c.fresh := rfl

@[simp] theorem node_unhash : (c.unhash e).node = c.node := rfl

@[simp] theorem fresh_unhash : (c.unhash e).fresh = c.fresh := rfl

theorem hash_setInode :
    (c.setInode e inode).hash bucket x = (c.hash bucket x).setInode e inode := by
  rw [hash, hash]
  change (if c.hashed x then c.setInode e inode else _) = _
  split_ifs <;> rfl

theorem setInode_same (h : (c.node e).inode = inode) : c.setInode e inode = c := by
  subst h
  exact congrArg (fun node => { c with node := node }) (update_eq_self e c.node)

theorem setInode_idem : (c.setInode e inode).setInode e none = c.setInode e none := by
  simp only [setInode, update_self, update_idem]

theorem node_add_self : (c.add parent name).node c.fresh = ⟨name, parent, none⟩ :=
  update_self ..

theorem node_add_of_ne (h : x ≠ c.fresh) : (c.add parent name).node x = c.node x :=
  update_of_ne h ..

@[simp] theorem inode_setInode :
    ((c.setInode e inode).node x).inode = if x = e then inode else (c.node x).inode := by
  dsimp only [setInode]
  rw [update_apply]
  split_ifs <;> rfl

@[simp] theorem parent_setInode : ((c.setInode e inode).node x).parent = (c.node x).parent := by
  dsimp only [setInode]
  rw [update_apply]
  split_ifs with h
  · rw [h]
  · rfl

@[simp] theorem name_setInode : ((c.setInode e inode).node x).name = (c.node x).name := by
  dsimp only [setInode]
  rw [update_apply]
  split_ifs with h
  · rw [h]
  · rfl

@[simp] theorem inode_setPlace : ((c.setPlace e parent name).node x).inode = (c.node x).inode := by
  dsimp only [setPlace]
  rw [update_apply]
  split_ifs with h
  · rw [h]
  · rfl

@[simp] theorem parent_setPlace :
    ((c.setPlace e parent name).node x).parent = if x = e then parent else (c.node x).parent := by
  dsimp only [setPlace]
  rw [update_apply]
  split_ifs <;> rfl

@[simp] theorem name_setPlace :
    ((c.setPlace e parent name).node x).name = if x = e then name else (c.node x).name := by
  dsimp only [setPlace]
  rw [update_apply]
  split_ifs <;> rfl

/-- A node that is found has the name. -/
theorem find_some [DecidableEq ν] (h : c.find bucket parent name = some e) :
    c.Hashed e ∧ (c.node e).parent = parent ∧ (c.node e).name = name := by
  obtain ⟨⟨b, x⟩, hfind, rfl⟩ := Option.map_eq_some_iff.mp h
  have hkey := List.find?_some hfind
  simp only [Bool.and_eq_true, beq_iff_eq] at hkey
  exact ⟨hashed_iff.mpr ⟨b, List.mem_of_find?_eq_some hfind⟩, hkey.1.2, hkey.2⟩

theorem find_none [DecidableEq ν] (h : c.find bucket parent name = none) {b : Nat}
    (hmem : (b, e) ∈ c.table) (hb : b = bucket) (hparent : (c.node e).parent = parent) :
    (c.node e).name ≠ name := by
  intro hname
  have hnone := List.find?_eq_none.mp (Option.map_eq_none_iff.mp h) (b, e) hmem
  simp [hb, hparent, hname] at hnone

end Fields

end Cache

/-! ## Coherence -/

variable {ι ν : Type}

/-- What the cache says is what the tree says.  A node whose directory has been removed stands
for nothing, and no directory has two nodes. -/
structure Coherent (bucket : Nat → ν → Nat) (root : ι) (dot dotdot : ν) (T : Tree ι ν)
    (c : Cache ι ν) : Prop where
  home : 0 < c.fresh ∧ (c.node 0).inode = some root ∧ ¬ c.Hashed 0
  made : ∀ e, c.Hashed e → e < c.fresh ∧ (c.node e).parent < c.fresh
  placed : ∀ b e, (b, e) ∈ c.table → b = bucket (c.node e).parent (c.node e).name
  unique : ∀ e e', c.Hashed e → c.Hashed e' → (c.node e).parent = (c.node e').parent →
    (c.node e).name = (c.node e').name → e = e'
  proper : ∀ e, c.Hashed e → Proper dot dotdot (c.node e).name
  apart : ∀ e, c.Hashed e → (c.node e).parent ≠ e
  held : ∀ e i, (c.node e).inode = some i → e = 0 ∨ c.Hashed e
  truth : ∀ e d, c.Hashed e → (c.node (c.node e).parent).inode = some d →
    T.Linked d ∧ T.entry (d, (c.node e).name) = (c.node e).inode
  orphan : ∀ e, c.Hashed e → (c.node (c.node e).parent).inode = none →
    (c.node e).inode = none ∧ ¬ c.Hashed (c.node e).parent
  single : ∀ e e' d, T.Linked d → (c.node e).inode = some d → (c.node e').inode = some d → e = e'

namespace Coherent

variable {bucket : Nat → ν → Nat} {root : ι} {dot dotdot : ν} {T T' : Tree ι ν} {c : Cache ι ν}
  {e p : Nat} {n : ν} {d i : ι}

section

variable (h : Coherent bucket root dot dotdot T c)
include h

/-- Where the cache finds nothing no node has the name. -/
theorem not_hashed [DecidableEq ν] (hnone : c.find (bucket p n) p n = none) (he : c.Hashed e)
    (hp : (c.node e).parent = p) : (c.node e).name ≠ n := by
  intro hn
  obtain ⟨b, hb⟩ := Cache.hashed_iff.mp he
  refine Cache.find_none hnone hb ?_ hp hn
  rw [h.placed b e hb, hp, hn]

/-- A node that stands for something has a name in the tree. -/
theorem named (he : c.Hashed e) (hi : (c.node e).inode = some i) :
    ∃ d, (c.node (c.node e).parent).inode = some d ∧ T.Linked d ∧
      T.entry (d, (c.node e).name) = some i := by
  cases hd : (c.node (c.node e).parent).inode with
  | none =>
    rw [(h.orphan e he hd).1] at hi
    cases hi
  | some d =>
    obtain ⟨hlinked, hentry⟩ := h.truth e d he hd
    exact ⟨d, rfl, hlinked, hentry.trans hi⟩

variable (hT : Inv root dot dotdot T) (hi : (c.node e).inode = some i)
include hT hi

theorem kind_ne_none : T.kind i ≠ none := by
  rcases h.held e i hi with rfl | he
  · rw [h.home.2.1] at hi
    obtain rfl := Option.some.inj hi
    rw [hT.home.1]
    exact Option.some_ne_none true
  · obtain ⟨d, -, -, hentry⟩ := h.named he hi
    exact hT.live _ i hentry

/-- Directories in the cache have not been removed. -/
theorem linked (hkind : T.kind i = some true) : T.Linked i := by
  rcases h.held e i hi with rfl | he
  · rw [h.home.2.1] at hi
    obtain rfl := Option.some.inj hi
    exact hT.home
  · obtain ⟨d, -, -, hentry⟩ := h.named he hi
    refine ⟨hkind, (hT.exact i ?_).ne_zero hentry⟩
    rw [hkind]
    exact Option.some_ne_none true

end

/-- No directory has two names. -/
theorem same_place (hT : Inv root dot dotdot T) {d' : ι} {n' : ν} (hn : Proper dot dotdot n)
    (hn' : Proper dot dotdot n') (hkind : T.kind i = some true) (hentry : T.entry (d, n) = some i)
    (hentry' : T.entry (d', n') = some i) : d = d' ∧ n = n' := by
  have hup := (hT.parent d n i hn hentry hkind).2
  rw [(hT.parent d' n' i hn' hentry' hkind).2] at hup
  obtain rfl := Option.some.inj hup
  exact ⟨rfl, hT.one d' n n' i hn hn' hentry hentry' hkind⟩

/-! ### A new node -/

section

variable (h : Coherent bucket root dot dotdot T c)
include h

/-- The node that is made next plays no part. -/
theorem ne_fresh {x : Nat} (hx : c.Hashed x) : x ≠ c.fresh ∧ (c.node x).parent ≠ c.fresh :=
  ⟨(h.made x hx).1.ne, (h.made x hx).2.ne⟩

theorem add (p : Nat) (n : ν) : Coherent bucket root dot dotdot T (c.add p n) := by
  have hsame : ∀ x, c.Hashed x → (c.add p n).node x = c.node x ∧
      (c.add p n).node (c.node x).parent = c.node (c.node x).parent := fun x hx =>
    ⟨Cache.node_add_of_ne (h.ne_fresh hx).1, Cache.node_add_of_ne (h.ne_fresh hx).2⟩
  have hinode : ∀ x i, ((c.add p n).node x).inode = some i → (c.node x).inode = some i := by
    intro x i hx
    by_cases hxf : x = c.fresh
    · rw [hxf, Cache.node_add_self] at hx
      cases hx
    · rwa [Cache.node_add_of_ne hxf] at hx
  constructor
  case home =>
    refine ⟨Nat.succ_pos _, ?_, h.home.2.2⟩
    rw [Cache.node_add_of_ne h.home.1.ne]
    exact h.home.2.1
  case made =>
    intro x hx
    rw [(hsame x hx).1]
    exact ⟨Nat.lt_succ_of_lt (h.made x hx).1, Nat.lt_succ_of_lt (h.made x hx).2⟩
  case placed =>
    intro b x hx
    rw [(hsame x (Cache.hashed_iff.mpr ⟨b, hx⟩)).1]
    exact h.placed b x hx
  case unique =>
    intro x y hx hy
    rw [(hsame x hx).1, (hsame y hy).1]
    exact h.unique x y hx hy
  case proper =>
    intro x hx
    rw [(hsame x hx).1]
    exact h.proper x hx
  case apart =>
    intro x hx
    rw [(hsame x hx).1]
    exact h.apart x hx
  case held => exact fun x i hx => h.held x i (hinode x i hx)
  case truth =>
    intro x d hx hd
    rw [(hsame x hx).1] at hd ⊢
    rw [(hsame x hx).2] at hd
    exact h.truth x d hx hd
  case orphan =>
    intro x hx hd
    rw [(hsame x hx).1] at hd ⊢
    rw [(hsame x hx).2] at hd
    exact h.orphan x hx hd
  case single => exact fun x y d hd hx hy => h.single x y d hd (hinode x d hx) (hinode y d hy)

/-- A node that is not in the table goes there with what the tree says. -/
theorem insert (hT : Inv root dot dotdot T) (he : ¬ c.Hashed e) (hzero : e ≠ 0)
    (hmade : e < c.fresh ∧ (c.node e).parent < c.fresh) (hnone : (c.node e).inode = none)
    (hchild : ∀ x, c.Hashed x → (c.node x).parent ≠ e)
    (hd : (c.node (c.node e).parent).inode = some d) (hlinked : T.Linked d)
    (hn : Proper dot dotdot (c.node e).name)
    (hfree : ∀ x, c.Hashed x → (c.node x).parent = (c.node e).parent →
      (c.node x).name ≠ (c.node e).name) :
    Coherent bucket root dot dotdot T ((c.setInode e (T.entry (d, (c.node e).name))).hash
        (bucket (c.node e).parent (c.node e).name) e) := by
  constructor
  case home =>
    have hhome := h.home
    simp
    grind
  case made =>
    intro x hx
    have hmade' := h.made x
    simp at hx ⊢
    grind
  case placed =>
    intro b x hx
    rcases Cache.mem_hash hx with hcell | hx
    · obtain ⟨rfl, rfl⟩ := Prod.mk.inj hcell
      simp
    · simp
      exact h.placed b x hx
  case unique =>
    intro x y hx hy hparent hname
    have hunique := h.unique x y
    simp at hx hy hparent hname
    grind
  case proper =>
    intro x hx
    have hproper := h.proper x
    simp at hx ⊢
    grind
  case apart =>
    intro x hx
    have hapart := h.apart x
    simp at hx ⊢
    grind
  case held =>
    intro x i hx
    have hheld := h.held x i
    simp at hx ⊢
    grind
  case truth =>
    intro x d' hx hd'
    have htruth := h.truth x d'
    simp at hx hd' ⊢
    grind
  case orphan =>
    intro x hx hd'
    have horphan := h.orphan x
    simp at hx hd' ⊢
    grind
  case single =>
    -- a directory that the new node stands for has no other node
    have hother : ∀ x d', T.Linked d' → T.entry (d, (c.node e).name) = some d' →
        (c.node x).inode ≠ some d' := by
      intro x d' hd' hentry hx
      rcases h.held x d' hx with rfl | hhashed
      · rw [h.home.2.1] at hx
        exact (hT.parent d _ d' hn hentry hd'.1).1 (Option.some.inj hx).symm
      · obtain ⟨d'', hup, hlinked', hentry'⟩ := h.named hhashed hx
        obtain ⟨rfl, hname⟩ := same_place hT hn (h.proper x hhashed) hd'.1 hentry hentry'
        exact hfree x hhashed (h.single _ _ d hlinked hup hd) hname.symm
    intro x y d' hd' hx hy
    have hsingle := h.single x y d' hd'
    simp at hx hy
    grind

/-- Two nodes for one name of the tree. -/
theorem eq_of_place {x : Nat} (hx : c.Hashed x) (he : c.Hashed e)
    (hup : (c.node (c.node x).parent).inode = some d)
    (hd : (c.node (c.node e).parent).inode = some d) (hname : (c.node x).name = (c.node e).name) :
    x = e :=
  h.unique x e hx he (h.single _ _ d (h.truth x d hx hup).1 hup hd) hname

/-- The name of a node that stands for nothing is given to `i`. -/
theorem fill [DecidableEq ι] [DecidableEq ν] (hT : Inv root dot dotdot T) (he : c.Hashed e)
    (hnone : (c.node e).inode = none) (hd : (c.node (c.node e).parent).inode = some d)
    {new : Option ι}
    (hi : T.kind i = none ∧ (new = none ∨ new = some i) ∨ T.kind i = some false ∧ new = none)
    (hedits : Edits dot dotdot T T' (update T.entry (d, (c.node e).name) (some i))
      none new) : Coherent bucket root dot dotdot T' (c.setInode e (some i)) := by
  -- what stands for nothing has nothing below it
  have hchild : ∀ x, c.Hashed x → (c.node x).parent ≠ e := by
    rintro x hx rfl
    exact (h.orphan x hx hnone).2 he
  have hlinked := fun x => hedits.linked x
  constructor
  case home =>
    have hhome := h.home
    simp
    grind
  case made => simpa using h.made
  case placed =>
    intro b x hx
    simp
    exact h.placed b x hx
  case unique => simpa using h.unique
  case proper => simpa using h.proper
  case apart => simpa using h.apart
  case held =>
    intro x j hx
    have hheld := h.held x j
    simp at hx ⊢
    grind
  case truth =>
    intro x d' hx hd'
    simp only [Cache.parent_setInode, Cache.name_setInode, Cache.inode_setInode] at hx hd' ⊢
    rw [if_neg (hchild x hx)] at hd'
    obtain ⟨hlink, hentry⟩ := h.truth x d' hx hd'
    refine ⟨(hlinked d').mpr (.inr ⟨hlink, (Option.some_ne_none d').symm⟩), ?_⟩
    rw [hedits.names d' _ (h.proper x hx), update_pair, hentry]
    by_cases hxe : x = e
    · subst hxe
      rw [hd] at hd'
      rw [if_pos rfl, if_pos ⟨(Option.some.inj hd').symm, rfl⟩]
    · rw [if_neg hxe, if_neg]
      rintro ⟨rfl, hname⟩
      exact hxe (h.eq_of_place hx he hd' hd hname)
  case orphan =>
    intro x hx hd'
    simp only [Cache.parent_setInode, Cache.inode_setInode] at hx hd' ⊢
    rw [if_neg (hchild x hx)] at hd'
    obtain ⟨hinode, hnot⟩ := h.orphan x hx hd'
    rw [if_neg]
    · exact ⟨hinode, hnot⟩
    · rintro rfl
      rw [hd] at hd'
      cases hd'
  case single =>
    have hkinds := fun x j (hx : (c.node x).inode = some j) => h.kind_ne_none hT hx
    intro x y d' hd' hx hy
    have hsingle := h.single x y d'
    rw [hlinked, Tree.Linked] at hd'
    simp only [Cache.inode_setInode] at hx hy
    rw [Tree.Linked] at hsingle
    grind

/-! ### Fewer nodes -/

/-- A node below which nothing stands for anything leaves the table. -/
theorem drop (he : c.Hashed e)
    (hchild : ∀ x, c.Hashed x → (c.node x).parent = e → (c.node x).inode = none) :
    Coherent bucket root dot dotdot T ((c.setInode e none).unhash e) := by
  constructor
  case home =>
    have hhome := h.home
    simp
    grind
  case made =>
    intro x hx
    have hmade := h.made x
    simp at hx ⊢
    exact hmade hx.2
  case placed =>
    intro b x hx
    have hplaced := h.placed b x (List.mem_filter.mp hx).1
    simp
    exact hplaced
  case unique =>
    intro x y hx hy hparent hname
    simp at hx hy hparent hname
    exact h.unique x y hx.2 hy.2 hparent hname
  case proper =>
    intro x hx
    simp at hx ⊢
    exact h.proper x hx.2
  case apart =>
    intro x hx
    simp at hx ⊢
    exact h.apart x hx.2
  case held =>
    intro x i hx
    have hheld := h.held x i
    simp at hx ⊢
    grind
  case truth =>
    intro x d hx hd
    have htruth := h.truth x d
    simp at hx hd ⊢
    grind
  case orphan =>
    intro x hx hd
    have horphan := h.orphan x
    simp at hx hd ⊢
    grind
  case single =>
    intro x y d hd hx hy
    have hsingle := h.single x y d hd
    simp at hx hy
    grind

/-- The tree changes where the cache does not know it. -/
theorem retree {names : ι × ν → Option ι} {gone : Option ι}
    (hedits : Edits dot dotdot T T' names gone none)
    (hgone : ∀ x d, (c.node x).inode = some d → gone ≠ some d)
    (hnames : ∀ x d, c.Hashed x → (c.node (c.node x).parent).inode = some d →
      names (d, (c.node x).name) = T.entry (d, (c.node x).name)) :
    Coherent bucket root dot dotdot T' c := by
  have hlinked : ∀ d, T'.Linked d ↔ T.Linked d ∧ gone ≠ some d := fun d =>
    (hedits.linked d).trans ⟨fun hd => hd.elim nofun id, .inr⟩
  refine { h with truth := fun x d hx hd => ?_, single := fun x y d hd => ?_ }
  · obtain ⟨hlink, hentry⟩ := h.truth x d hx hd
    refine ⟨(hlinked d).mpr ⟨hlink, hgone _ d hd⟩, ?_⟩
    rw [hedits.names d _ (h.proper x hx), hnames x d hx hd, hentry]
  · exact h.single x y d ((hlinked d).mp hd).1

/-! ### A node that moves -/

/-- Node `e` takes a place that no other node has. -/
theorem move {names : ι × ν → Option ι} {gone : Option ι} {d' : ι} (he : c.Hashed e)
    (hi : (c.node e).inode = some i) (hd : (c.node (c.node e).parent).inode = some d)
    (hp : (c.node p).inode = some d') (hmade : p < c.fresh) (hlinked : T.Linked d')
    (hn : Proper dot dotdot n) (hpe : p ≠ e)
    (hfree : ∀ x, x ≠ e → c.Hashed x → (c.node x).parent = p → (c.node x).name ≠ n)
    (hedits : Edits dot dotdot T T' names gone none)
    (hgone : ∀ x d, (c.node x).inode = some d → gone ≠ some d) (hself : names (d', n) = some i)
    (hnames : ∀ k, k ≠ (d, (c.node e).name) → k ≠ (d', n) → names k = T.entry k) :
    Coherent bucket root dot dotdot T' (((c.unhash e).setPlace e p n).hash (bucket p n) e) := by
  have hlinked' : ∀ d, T'.Linked d ↔ T.Linked d ∧ gone ≠ some d := fun d =>
    (hedits.linked d).trans ⟨fun hd => hd.elim nofun id, .inr⟩
  constructor
  case home =>
    have hhome := h.home
    simp
    grind
  case made =>
    intro x hx
    have hmade' := h.made x
    simp at hx ⊢
    grind
  case placed =>
    intro b x hx
    rcases Cache.mem_hash hx with hcell | hx
    · obtain ⟨rfl, rfl⟩ := Prod.mk.inj hcell
      simp
    · obtain ⟨hx, hne⟩ := List.mem_filter.mp hx
      rw [bne_iff_ne] at hne
      have hplaced := h.placed b x hx
      simp [show x ≠ e from hne]
      exact hplaced
  case unique =>
    intro x y hx hy hparent hname
    have hunique := h.unique x y
    simp at hx hy hparent hname
    grind
  case proper =>
    intro x hx
    have hproper := h.proper x
    simp at hx ⊢
    grind
  case apart =>
    intro x hx
    have hapart := h.apart x
    simp at hx ⊢
    grind
  case held =>
    intro x j hx
    have hheld := h.held x j
    simp at hx ⊢
    grind
  case truth =>
    intro x d'' hx hd''
    simp only [Cache.node_hash, Cache.inode_setPlace, Cache.parent_setPlace, Cache.name_setPlace,
      Cache.node_unhash, Cache.hashed_hash, Cache.hashed_setPlace, Cache.hashed_unhash] at hx hd'' ⊢
    by_cases hxe : x = e
    · rw [if_pos hxe] at hd'' ⊢
      rw [hp] at hd''
      obtain rfl := Option.some.inj hd''
      refine ⟨(hlinked' d').mpr ⟨hlinked, hgone p d' hp⟩, ?_⟩
      rw [hedits.names d' n hn, hself, hxe, hi]
    · rw [if_neg hxe] at hd'' ⊢
      have hx' := (hx.resolve_left hxe).2
      obtain ⟨hlink, hentry⟩ := h.truth x d'' hx' hd''
      refine ⟨(hlinked' d'').mpr ⟨hlink, hgone _ d'' hd''⟩, ?_⟩
      rw [hedits.names d'' _ (h.proper x hx'), hnames, hentry]
      · intro hsame
        obtain ⟨rfl, hname⟩ := Prod.mk.inj hsame
        exact hxe (h.eq_of_place hx' he hd'' hd hname)
      · intro hsame
        obtain ⟨rfl, hname⟩ := Prod.mk.inj hsame
        exact hfree x hxe hx' (h.single _ _ d'' hlinked hd'' hp) hname
  case orphan =>
    intro x hx hd''
    have horphan := h.orphan x
    simp only [Cache.node_hash, Cache.inode_setPlace, Cache.parent_setPlace, Cache.node_unhash,
      Cache.hashed_hash, Cache.hashed_setPlace, Cache.hashed_unhash] at hx hd'' ⊢
    grind
  case single =>
    intro x y d'' hd'' hx hy
    simp at hx hy
    exact h.single x y d'' ((hlinked' d'').mp hd'').1 hx hy

end

end Coherent

end CuteOS.Lib.NameCache
