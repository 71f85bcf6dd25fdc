/-
  Lib/LinkTree.lean --- directory trees with link counts.

  Nodes are files or directories; a directory gives names to nodes.  The link count of
  a node is the number of names it has, where `.` names the directory itself and `..`
  the one above.  A directory whose count is zero has been removed: it may still be
  there, but what it says does not count.

  `Change` lists the changes of a tree that are complete, and `Inv.change` says that
  they keep every count exact.
-/
import Mathlib.Data.Set.Card

set_option autoImplicit false

namespace CuteOS.Lib.LinkTree

open Function (update update_self update_apply update_of_ne update_eq_self)

/-! ## Counting -/

section Counting

variable {κ ι : Type} {f : κ → Option ι} {i : ι} {c c' : Nat}

/-- The keys with value `i`. -/
def holders (f : κ → Option ι) (i : ι) : Set κ := {k | f k = some i}

/-- There are `c` keys with value `i`. -/
def Counts (f : κ → Option ι) (i : ι) (c : Nat) : Prop := (holders f i).encard = c

/-- One key gets another value. -/
theorem Counts.set [DecidableEq κ] [DecidableEq ι] (h : Counts f i c) (k : κ) (v : Option ι)
    (hc : c + (if v = some i then 1 else 0) = c' + (if f k = some i then 1 else 0)) :
    Counts (update f k v) i c' := by
  have hmem : ∀ x, x ∈ holders (update f k v) i ↔
      (x = k ∧ v = some i) ∨ (x ≠ k ∧ x ∈ holders f i) := by
    intro x
    by_cases hx : x = k
    · subst hx
      simp [holders]
    · simp [holders, hx]
  have hsame : (f k = some i ↔ v = some i) → holders (update f k v) i = holders f i := by
    intro hiff
    ext x
    rw [hmem]
    by_cases hx : x = k
    · subst hx
      simp [holders, hiff]
    · simp [hx]
  by_cases hold : f k = some i
  · rw [if_pos hold] at hc
    by_cases hnew : v = some i
    · rw [if_pos hnew, Nat.add_right_cancel_iff] at hc
      rw [Counts, hsame (iff_of_true hold hnew), ← hc]
      exact h
    · rw [if_neg hnew, Nat.add_zero] at hc
      have hdiff : holders (update f k v) i = holders f i \ {k} := by
        ext x
        rw [hmem]
        simp [hnew, and_comm]
      have hcard := Set.encard_sdiff_singleton_add_one (show k ∈ holders f i from hold)
      rw [h, hc] at hcard
      rw [Counts, hdiff]
      exact WithTop.add_right_cancel WithTop.one_ne_top (by exact_mod_cast hcard)
  · rw [if_neg hold, Nat.add_zero] at hc
    by_cases hnew : v = some i
    · rw [if_pos hnew] at hc
      have hinsert : holders (update f k v) i = insert k (holders f i) := by
        ext x
        rw [hmem]
        by_cases hx : x = k
        · simp [hx, hnew]
        · simp [hx]
      rw [Counts, hinsert, Set.encard_insert_of_notMem (show k ∉ holders f i from hold), h, ← hc]
      rfl
    · rw [if_neg hnew] at hc
      rw [Counts, hsame (iff_of_false hold hnew), ← hc]
      exact h

theorem Counts.ne_zero (h : Counts f i c) {k : κ} (hk : f k = some i) : c ≠ 0 := by
  rintro rfl
  have hempty : holders f i = ∅ := Set.encard_eq_zero.mp h
  exact absurd (show k ∈ holders f i from hk) (hempty ▸ Set.notMem_empty k)

theorem counts_zero (h : ∀ k, f k ≠ some i) : Counts f i 0 :=
  Set.encard_eq_zero.mpr (Set.eq_empty_of_forall_notMem h)

theorem Counts.le_of_key [DecidableEq ι] (h : Counts f i c) {k : κ} {a : ι}
    (hk : f k = some a) : (if a = i then 1 else 0) ≤ c := by
  split_ifs with ha
  · exact Nat.one_le_iff_ne_zero.mpr (h.ne_zero (ha ▸ hk))
  · exact Nat.zero_le c

section Updating

variable [DecidableEq κ] [DecidableEq ι] {k : κ} {a : ι}

variable (h : Counts f i c)
include h

theorem Counts.add (hk : f k = none) (a : ι) :
    Counts (update f k (some a)) i (c + if a = i then 1 else 0) := by
  refine h.set k (some a) ?_
  rw [hk]
  simp only [Option.some.injEq, reduceCtorEq, if_false, Nat.add_zero]

theorem Counts.change (hk : f k = some a) (b : ι) :
    Counts (update f k (some b)) i (c - (if a = i then 1 else 0) + if b = i then 1 else 0) := by
  refine h.set k (some b) ?_
  rw [hk]
  simp only [Option.some.injEq]
  have hle := h.le_of_key hk
  omega

theorem Counts.erase (hk : f k = some a) :
    Counts (update f k none) i (c - if a = i then 1 else 0) := by
  refine h.set k none ?_
  rw [hk]
  simp only [Option.some.injEq, reduceCtorEq, if_false]
  have hle := h.le_of_key hk
  omega

/-- Two keys count twice. -/
theorem Counts.two_le {k' : κ} (hne : k' ≠ k) (hk : f k = some i)
    (hk' : f k' = some i) : 2 ≤ c := by
  have hless := h.erase hk
  rw [if_pos rfl] at hless
  have hpos' := @Counts.ne_zero _ _ _ _ _ hless k' (by rw [update_of_ne hne, hk'])
  omega

end Updating

end Counting

/-! ## Trees -/

/-- Nodes `ι` and names `ν`.  `kind` tells the nodes that are there, and among them the
directories. -/
@[ext]
structure Tree (ι ν : Type) where
  kind : ι → Option Bool
  nlink : ι → Nat
  names : ι × ν → Option ι

section Trees

variable {ι ν : Type}

namespace Tree

/-- A directory that has not been removed. -/
def Linked (T : Tree ι ν) (d : ι) : Prop := T.kind d = some true ∧ T.nlink d ≠ 0

open Classical in
/-- `names`, as far as the directories in `live` go. -/
noncomputable def visible (live : ι → Prop) (names : ι × ν → Option ι) : ι × ν → Option ι :=
  fun k => if live k.1 then names k else none

/-- The tree without node `i`. -/
noncomputable def without [DecidableEq ι] (T : Tree ι ν) (i : ι) : Tree ι ν where
  kind := update T.kind i none
  nlink := T.nlink
  names := visible (· ≠ i) T.names

/-- What the directories say. -/
noncomputable def entry (T : Tree ι ν) : ι × ν → Option ι := visible T.Linked T.names

end Tree

open CuteOS.Lib.LinkTree.Tree

theorem visible_eq_some {live : ι → Prop} {names : ι × ν → Option ι} {k : ι × ν} {i : ι} :
    visible live names k = some i ↔ live k.1 ∧ names k = some i := by
  rw [visible]
  split_ifs with h
  · exact ⟨fun hk => ⟨h, hk⟩, fun hk => hk.2⟩
  · exact ⟨fun hk => (by cases hk), fun hk => absurd hk.1 h⟩

theorem visible_congr {live live' : ι → Prop} (names : ι × ν → Option ι) {k : ι × ν}
    (h : live' k.1 ↔ live k.1) : visible live' names k = visible live names k := by
  rw [visible, visible]
  by_cases hk : live k.1
  · rw [if_pos hk, if_pos (h.mpr hk)]
  · rw [if_neg hk, if_neg (mt h.mp hk)]

theorem visible_update [DecidableEq ι] [DecidableEq ν] {live : ι → Prop} (names : ι × ν → Option ι)
    {k : ι × ν} (hk : live k.1) (v : Option ι) :
    visible live (update names k v) = update (visible live names) k v := by
  funext x
  by_cases hx : x = k
  · subst hx
    rw [visible, if_pos hk, update_self, update_self]
  · rw [visible, update_of_ne hx, update_of_ne hx, visible]

/-- A name other than `.` and `..`. -/
abbrev Proper (dot dotdot n : ν) : Prop := n ≠ dot ∧ n ≠ dotdot

/-- Names lead to nodes that are there, `.` to the directory itself, and `..` to the
directory that has a directory's name, which is one. -/
structure Shape (root : ι) (dot dotdot : ν) (T : Tree ι ν) : Prop where
  home : T.Linked root
  live : ∀ k i, T.entry k = some i → T.kind i ≠ none
  self : ∀ d, T.Linked d → T.entry (d, dot) = some d
  parent : ∀ d n i, Proper dot dotdot n → T.entry (d, n) = some i → T.kind i = some true →
    i ≠ root ∧ T.entry (i, dotdot) = some d
  child : ∀ i d, T.entry (i, dotdot) = some d → i ≠ root →
    ∃ n, Proper dot dotdot n ∧ T.entry (d, n) = some i
  top : ∀ d, T.entry (root, dotdot) = some d → d = root
  one : ∀ d n n' i, Proper dot dotdot n → Proper dot dotdot n' → T.entry (d, n) = some i →
    T.entry (d, n') = some i → T.kind i = some true → n = n'

/-- The link counts are exact. -/
structure Inv (root : ι) (dot dotdot : ν) (T : Tree ι ν) : Prop
    extends Shape root dot dotdot T where
  exact : ∀ i, T.kind i ≠ none → Counts T.entry i (T.nlink i)

/-- The complete changes of a tree. -/
inductive Change [DecidableEq ι] [DecidableEq ν] (dot dotdot : ν) (T : Tree ι ν) : Tree ι ν → Prop
  /-- A new file. -/
  | create {d i : ι} {n : ν} (hn : Proper dot dotdot n) (hd : T.Linked d)
      (hfree : T.names (d, n) = none) (hi : T.kind i = none) :
      Change dot dotdot T
        { kind := update T.kind i (some false)
          nlink := update T.nlink i 1
          names := update T.names (d, n) (some i) }
  /-- Another name for a file. -/
  | link {d i : ι} {n : ν} (hn : Proper dot dotdot n) (hd : T.Linked d)
      (hfree : T.names (d, n) = none) (hi : T.kind i = some false) :
      Change dot dotdot T
        { kind := T.kind
          nlink := update T.nlink i (T.nlink i + 1)
          names := update T.names (d, n) (some i) }
  /-- A new directory. -/
  | mkdir {d i : ι} {n : ν} (hn : Proper dot dotdot n) (hd : T.Linked d)
      (hfree : T.names (d, n) = none) (hi : T.kind i = none) (hempty : ∀ m, T.names (i, m) = none) :
      Change dot dotdot T
        { kind := update T.kind i (some true)
          nlink := update (update T.nlink i 2) d (T.nlink d + 1)
          names := update (update (update T.names (i, dot) (some i))
            (i, dotdot) (some d)) (d, n) (some i) }
  /-- A name of a file goes. -/
  | unlink {d i : ι} {n : ν} (hn : Proper dot dotdot n) (hentry : T.entry (d, n) = some i)
      (hi : T.kind i = some false) :
      Change dot dotdot T
        { kind := T.kind
          nlink := update T.nlink i (T.nlink i - 1)
          names := update T.names (d, n) none }
  /-- An empty directory goes. -/
  | rmdir {d i : ι} {n : ν} (hn : Proper dot dotdot n) (hentry : T.entry (d, n) = some i)
      (hi : T.kind i = some true)
      (hempty : ∀ m, T.names (i, m) ≠ none → m = dot ∨ m = dotdot) :
      Change dot dotdot T
        { kind := T.kind
          nlink := update (update T.nlink d (T.nlink d - 1)) i 0
          names := update T.names (d, n) none }
  /-- A file gets another name, or a directory inside the same one. -/
  | move {d d' i : ι} {n n' : ν} (hn : Proper dot dotdot n) (hn' : Proper dot dotdot n')
      (hentry : T.entry (d, n) = some i) (hd' : T.Linked d') (hfree : T.names (d', n') = none)
      (hi : T.kind i = some false ∨ d' = d) :
      Change dot dotdot T
        { kind := T.kind
          nlink := T.nlink
          names := update (update T.names (d', n') (some i)) (d, n) none }
  /-- A directory moves to another one. -/
  | moveDir {d d' i : ι} {n n' : ν} (hn : Proper dot dotdot n) (hn' : Proper dot dotdot n')
      (hentry : T.entry (d, n) = some i) (hd' : T.Linked d') (hfree : T.names (d', n') = none)
      (hi : T.kind i = some true) (hne : d' ≠ d) :
      Change dot dotdot T
        { kind := T.kind
          nlink := update (update T.nlink d (T.nlink d - 1)) d' (T.nlink d' + 1)
          names := update (update (update T.names (d', n') (some i))
            (i, dotdot) (some d')) (d, n) none }
  /-- A node without names is forgotten. -/
  | drop {i : ι} (hi : T.nlink i = 0) : Change dot dotdot T (T.without i)

section Keeping

variable [DecidableEq ι] [DecidableEq ν] {root : ι} {dot dotdot : ν} {T T' : Tree ι ν} {d d' i : ι}
  {n n' : ν}

omit [DecidableEq ι] [DecidableEq ν] in
theorem entry_eq_some {k : ι × ν} :
    T.entry k = some i ↔ T.Linked k.1 ∧ T.names k = some i := visible_eq_some

omit [DecidableEq ι] [DecidableEq ν] in
theorem entry_eq_none {k : ι × ν} (h : T.names k = none) : T.entry k = none := by
  rw [entry, visible, h, ite_self]

omit [DecidableEq ι] [DecidableEq ν] in
theorem kind_of_entry (x : ι) (m : ν) (j : ι) (h : T.entry (x, m) = some j) :
    T.kind x = some true :=
  (entry_eq_some.mp h).1.1

theorem update_pair {α : Type} (f : ι × ν → α) (v : α) (x : ι) (m : ν) :
    update f (d, n) v (x, m) = if x = d ∧ m = n then v else f (x, m) := by
  rw [update_apply]
  simp only [Prod.mk.injEq]

/-! ### What the directories say after a change -/

/-- The proper names after some changes are `names`, a directory has gone and a new one has
come. -/
structure Edits (dot dotdot : ν) (T T' : Tree ι ν) (names : ι × ν → Option ι)
    (gone new : Option ι) : Prop where
  linked : ∀ x, T'.Linked x ↔ new = some x ∨ T.Linked x ∧ gone ≠ some x
  names : ∀ x m, Proper dot dotdot m → T'.entry (x, m) = names (x, m)

omit [DecidableEq ι] [DecidableEq ν] in
/-- The directories stay. -/
theorem Edits.of_linked {names : ι × ν → Option ι} (hlinked : T'.Linked = T.Linked)
    (hnames : ∀ x m, Proper dot dotdot m → T'.entry (x, m) = names (x, m)) :
    Edits dot dotdot T T' names none none := by
  refine ⟨fun x => ?_, hnames⟩
  rw [hlinked]
  exact ⟨fun hx => .inr ⟨hx, (Option.some_ne_none x).symm⟩, fun hx => hx.elim nofun And.left⟩

omit [DecidableEq ι] [DecidableEq ν] in
theorem Edits.refl (T : Tree ι ν) : Edits dot dotdot T T T.entry none none :=
  .of_linked rfl fun _ _ _ => rfl

omit [DecidableEq ι] [DecidableEq ν] in
/-- What changes the names of an edited tree but not its directories. -/
theorem Edits.then {T1 : Tree ι ν} {names names' : ι × ν → Option ι} {gone new : Option ι}
    (h : Edits dot dotdot T T1 names gone new) (hlinked : T'.Linked = T1.Linked)
    (hnames : ∀ x m, Proper dot dotdot m → T1.entry (x, m) = names (x, m) →
      T'.entry (x, m) = names' (x, m)) : Edits dot dotdot T T' names' gone new :=
  ⟨fun x => by rw [hlinked]; exact h.linked x, fun x m hm => hnames x m hm (h.names x m hm)⟩

/-- Names that are not proper do not count. -/
theorem update_dots {f : ι × ν → Option ι} {u v : Option ι} {x : ι} {m : ν}
    (hm : Proper dot dotdot m) :
    update (update f (i, dot) u) (i, dotdot) v (x, m) = f (x, m) := by
  rw [update_pair, update_pair, if_neg fun hboth => hm.2 hboth.2, if_neg fun hboth => hm.1 hboth.2]

/-- The directory above a directory keeps its own `.`. -/
theorem Inv.two_le (h : Inv root dot dotdot T) (hdots : dot ≠ dotdot) (hn : Proper dot dotdot n)
    (hold : T.entry (d, n) = some i) (hi : T.kind i = some true) : 2 ≤ T.nlink d := by
  have hd := (entry_eq_some.mp hold).1
  exact (h.exact d (by rw [hd.1]; simp)).two_le
    (show (d, dot) ≠ (i, dotdot) from fun heq => hdots (congrArg Prod.snd heq))
    (h.parent d n i hn hold hi).2 (h.self d hd)

/-! ### A file, its link count and a name -/

omit [DecidableEq ν] in
theorem kind_file (hi : T.kind i = some false) : T.kind = update T.kind i (some false) := by
  rw [← hi, update_eq_self]

section File

variable {b c : Nat} {v : Option ι} (hi : T.kind i ≠ some true)
  (hkind : T'.kind = update T.kind i (some false)) (hnlink : T'.nlink = update T.nlink i c)
  (hnames : T'.names = update T.names (d, n) v)
include hi hkind hnlink hnames

theorem entry_file (hd : T.Linked d) :
    T'.Linked = T.Linked ∧ T'.entry = update T.entry (d, n) v := by
  have hlinked : T'.Linked = T.Linked := by
    funext x
    by_cases hx : x = i
    · subst hx
      simp [Linked, hkind, hi]
    · simp [Linked, hkind, hnlink, hx]
  refine ⟨hlinked, ?_⟩
  rw [entry, hlinked, hnames, visible_update _ hd]
  rfl

theorem edits_file (hd : T.Linked d) :
    Edits dot dotdot T T' (update T.entry (d, n) v) none none := by
  obtain ⟨hlinked, hentry⟩ := entry_file hi hkind hnlink hnames hd
  exact .of_linked hlinked fun x m _ => by rw [hentry]

variable (h : Inv root dot dotdot T) (hn : Proper dot dotdot n)
include h hn

/-- A new file, or another name for a file that has `b` names. -/
theorem Inv.link (hd : T.Linked d)
    (hfree : T.names (d, n) = none) (hb : Counts T.entry i b) (hc : c = b + 1) (hv : v = some i) :
    Inv root dot dotdot T' := by
  subst hc hv
  obtain ⟨hlinked, hentry⟩ := entry_file hi hkind hnlink hnames hd
  have hnone := entry_eq_none hfree
  refine ⟨?_, fun j hj => ?_⟩
  · obtain ⟨hhome, hlive, hself, hparent, hchild, htop, hone⟩ := h.toShape
    have hat := fun x m => (congrFun hentry (x, m)).trans (update_pair T.entry (some i) x m)
    have hkindAt := fun x => (congrFun hkind x).trans (update_apply ..)
    have hlinkedAt := congrFun hlinked
    constructor
    case live =>
      rintro ⟨x, m⟩ j hxm
      grind
    all_goals grind
  · rw [hentry, hnlink]
    by_cases hji : j = i
    · subst hji
      have hcount := hb.add hnone j
      rw [if_pos rfl] at hcount
      rw [update_self]
      exact hcount
    · rw [hkind, update_of_ne hji] at hj
      have hcount := (h.exact j hj).add hnone i
      rw [if_neg (Ne.symm hji)] at hcount
      rw [update_of_ne hji]
      exact hcount

theorem Inv.unlink (hold : T.entry (d, n) = some i) (hc : c = T.nlink i - 1) (hv : v = none) :
    Inv root dot dotdot T' := by
  subst hc hv
  obtain ⟨hlinked, hentry⟩ := entry_file hi hkind hnlink hnames (entry_eq_some.mp hold).1
  refine ⟨?_, fun j hj => ?_⟩
  · obtain ⟨hhome, hlive, hself, hparent, hchild, htop, hone⟩ := h.toShape
    have hat := fun x m => (congrFun hentry (x, m)).trans (update_pair T.entry none x m)
    have hdir := @kind_of_entry _ _ T
    have hkindAt := fun x => (congrFun hkind x).trans (update_apply ..)
    have hlinkedAt := congrFun hlinked
    constructor
    all_goals grind
  · have hlive := h.live _ i hold
    rw [hkind, update_apply] at hj
    have hcount := (h.exact j (by grind)).erase hold
    rw [hentry, hnlink]
    grind

end File

/-! ### Another name -/

section Move

variable (hd' : T.Linked d') (hkind : T'.kind = T.kind) (hnlink : T'.nlink = T.nlink)
  (hnames : T'.names = update (update T.names (d', n') (some i)) (d, n) none)
include hd' hkind hnlink hnames

theorem entry_move (hd : T.Linked d) : T'.Linked = T.Linked ∧
    T'.entry = update (update T.entry (d', n') (some i)) (d, n) none := by
  have hlinked : T'.Linked = T.Linked := by
    funext x
    simp [Linked, hkind, hnlink]
  refine ⟨hlinked, ?_⟩
  rw [entry, hlinked, hnames, visible_update _ hd, visible_update _ hd']
  rfl

theorem Inv.move (h : Inv root dot dotdot T) (hn : Proper dot dotdot n)
    (hn' : Proper dot dotdot n') (hold : T.entry (d, n) = some i)
    (hfree : T.names (d', n') = none) (hi : T.kind i = some false ∨ d' = d) :
    Inv root dot dotdot T' := by
  obtain ⟨hlinked, hentry⟩ := entry_move hd' hkind hnlink hnames (entry_eq_some.mp hold).1
  have hnone := entry_eq_none hfree
  have hne : (d, n) ≠ (d', n') := by
    intro heq
    rw [heq, hnone] at hold
    cases hold
  refine ⟨?_, fun j hj => ?_⟩
  · obtain ⟨hhome, hlive, hself, hparent, hchild, htop, hone⟩ := h.toShape
    have hat : ∀ x m, T'.entry (x, m) = if x = d ∧ m = n then none
        else if x = d' ∧ m = n' then some i else T.entry (x, m) := by
      intro x m
      rw [hentry, update_pair, update_pair]
    have hdir := @kind_of_entry _ _ T
    have hlinkedAt := congrFun hlinked
    have hkindAt := congrFun hkind
    constructor
    case live =>
      rintro ⟨x, m⟩ j hxm
      grind
    all_goals grind
  · rw [hkind] at hj
    have hcount := ((h.exact j hj).add hnone i).erase
      (show update T.entry (d', n') (some i) (d, n) = some i by
        rw [update_of_ne hne, hold])
    rw [hentry, hnlink]
    rw [Nat.add_sub_cancel] at hcount
    exact hcount

end Move

/-! ### A new directory -/

section Mkdir

variable (hd : T.Linked d) (hi : T.kind i = none) (hempty : ∀ m, T.names (i, m) = none)
  (hkind : T'.kind = update T.kind i (some true))
  (hnlink : T'.nlink = update (update T.nlink i 2) d (T.nlink d + 1))
  (hnames : T'.names =
    update (update (update T.names (i, dot) (some i))
    (i, dotdot) (some d)) (d, n) (some i))
include hd hi hempty hkind hnlink hnames

theorem entry_mkdir : (∀ x, T'.Linked x ↔ x = i ∨ T.Linked x) ∧
    T'.entry = update (update (update T.entry (i, dot) (some i))
      (i, dotdot) (some d)) (d, n) (some i) := by
  have hid : i ≠ d := by
    rintro rfl
    rw [hd.1] at hi
    cases hi
  have hlinked : ∀ x, T'.Linked x ↔ x = i ∨ T.Linked x := by
    intro x
    rw [Linked, Linked, hkind, hnlink]
    by_cases hx : x = i
    · subst hx
      simp [update_of_ne hid]
    · by_cases hxd : x = d
      · subst hxd
        simp [update_of_ne hx, hd.1, hd.2]
      · simp [update_of_ne hxd, hx]
  have hvisible : visible T'.Linked T.names = T.entry := by
    funext k
    obtain ⟨x, m⟩ := k
    by_cases hx : x = i
    · subst hx
      rw [entry, visible, visible, hempty, ite_self, ite_self]
    · refine visible_congr T.names ((hlinked x).trans ?_)
      rw [or_iff_right hx]
  have hi' : T'.Linked i := (hlinked i).mpr (.inl rfl)
  have hd' : T'.Linked d := (hlinked d).mpr (.inr hd)
  refine ⟨hlinked, ?_⟩
  rw [entry, hnames, visible_update _ hd', visible_update _ hi', visible_update _ hi', hvisible]

theorem edits_mkdir :
    Edits dot dotdot T T' (update T.entry (d, n) (some i)) none (some i) := by
  obtain ⟨hlinked, hentry⟩ := entry_mkdir hd hi hempty hkind hnlink hnames
  refine ⟨fun x => ?_, fun x m hm => ?_⟩
  · rw [hlinked]
    exact ⟨fun hx => hx.imp (fun heq => congrArg some heq.symm)
        fun hx => ⟨hx, (Option.some_ne_none x).symm⟩,
      fun hx => hx.imp (fun heq => (Option.some.inj heq).symm) And.left⟩
  · rw [hentry, update_pair, update_dots hm, update_pair]

theorem Inv.mkdir (h : Inv root dot dotdot T) (hdots : dot ≠ dotdot) (hn : Proper dot dotdot n)
    (hfree : T.names (d, n) = none) : Inv root dot dotdot T' := by
  have hid : i ≠ d := by
    rintro rfl
    rw [hd.1] at hi
    cases hi
  obtain ⟨hlinked, hentry⟩ := entry_mkdir hd hi hempty hkind hnlink hnames
  have hat : ∀ x m, T'.entry (x, m) = if x = d ∧ m = n then some i
      else if x = i ∧ m = dotdot then some d else if x = i ∧ m = dot then some i
      else T.entry (x, m) := by
    intro x m
    rw [hentry, update_pair, update_pair, update_pair]
  have hnot : ∀ k, T.entry k ≠ some i := fun k hk => h.live k i hk hi
  have hnone : ∀ m, T.entry (i, m) = none := fun m => entry_eq_none (hempty m)
  have hfree' := entry_eq_none hfree
  refine ⟨?_, fun j hj => ?_⟩
  · obtain ⟨hhome, hlive, hself, hparent, hchild, htop, hone⟩ := h.toShape
    have hkindAt := fun x => (congrFun hkind x).trans (update_apply ..)
    constructor
    case live =>
      rintro ⟨x, m⟩ j hxm
      grind
    all_goals grind
  · -- the new directory has two names, the one above it one more
    have hbase : Counts T.entry j (if j = i then 0 else T.nlink j) := by
      split_ifs with hji
      · subst hji
        exact counts_zero hnot
      · rw [hkind, update_of_ne hji] at hj
        exact h.exact j hj
    have hcount := ((hbase.add (hnone dot) i).add
      (show update T.entry (i, dot) (some i) (i, dotdot) = none by
        rw [update_pair, if_neg (fun heq => hdots heq.2.symm), hnone]) d).add
      (show update (update T.entry (i, dot) (some i)) (i, dotdot) (some d) (d, n) = none by
        rw [update_pair, update_pair, if_neg (fun heq => hid heq.1.symm),
          if_neg (fun heq => hid heq.1.symm), hfree']) i
    rw [hentry, hnlink]
    convert hcount using 1
    by_cases hji : j = i
    · subst hji
      rw [update_of_ne hid, update_self, if_pos rfl, if_pos rfl, if_neg (Ne.symm hid)]
    · by_cases hjd : j = d
      · subst hjd
        rw [update_self, if_neg hji, if_neg (Ne.symm hji), if_pos rfl]
      · rw [update_of_ne hjd, update_of_ne hji, if_neg hji, if_neg (Ne.symm hji),
          if_neg (Ne.symm hjd)]
        rfl

end Mkdir

/-! ### An empty directory goes -/

section Rmdir

variable (h : Inv root dot dotdot T) (hdots : dot ≠ dotdot) (hn : Proper dot dotdot n)
  (hold : T.entry (d, n) = some i) (hi : T.kind i = some true)
  (hempty : ∀ m, T.names (i, m) ≠ none → m = dot ∨ m = dotdot) (hkind : T'.kind = T.kind)
  (hnlink : T'.nlink = update (update T.nlink d (T.nlink d - 1)) i 0)
  (hnames : T'.names = update T.names (d, n) none)

omit [DecidableEq ι] [DecidableEq ν] in
include hn hold hempty in
theorem ne_of_rmdir : i ≠ d := by
  rintro rfl
  rcases hempty n (by rw [(entry_eq_some.mp hold).2]; simp) with heq | heq
  · exact hn.1 heq
  · exact hn.2 heq

include h hdots hn hold hi hempty hkind hnlink hnames

theorem Inv.entry_rmdir : (∀ x, T'.Linked x ↔ x ≠ i ∧ T.Linked x) ∧
    T'.entry = update (update (update T.entry (i, dot) none) (i, dotdot) none) (d, n) none := by
  have hd := (entry_eq_some.mp hold).1
  have hid := ne_of_rmdir hn hold hempty
  have htwo := h.two_le hdots hn hold hi
  have hpos : T.nlink d - 1 ≠ 0 := by omega
  have hlinked : ∀ x, T'.Linked x ↔ x ≠ i ∧ T.Linked x := by
    intro x
    rw [Linked, Linked, hkind, hnlink]
    by_cases hx : x = i
    · subst hx
      simp
    · by_cases hxd : x = d
      · subst hxd
        simp [hx, hd.2, hpos]
      · rw [update_of_ne hx, update_of_ne hxd]
        simp [hx]
  refine ⟨hlinked, ?_⟩
  have hd' : T'.Linked d := (hlinked d).mpr ⟨Ne.symm hid, hd⟩
  rw [entry, hnames, visible_update _ hd']
  congr 1
  funext k
  obtain ⟨x, m⟩ := k
  rw [update_pair, update_pair]
  by_cases hx : x = i
  · subst hx
    have hnot : ¬ T'.Linked x := fun hlinked' => ((hlinked x).mp hlinked').1 rfl
    rw [visible, if_neg hnot]
    by_cases hm : T.names (x, m) = none
    · rw [entry_eq_none hm, ite_self, ite_self]
    · rcases hempty m hm with rfl | rfl
      · simp
      · simp
  · simp only [hx]
    refine visible_congr T.names ((hlinked x).trans ?_)
    rw [and_iff_right hx]

theorem Inv.edits_rmdir :
    Edits dot dotdot T T' (update T.entry (d, n) none) (some i) none := by
  obtain ⟨hlinked, hentry⟩ := h.entry_rmdir hdots hn hold hi hempty hkind hnlink hnames
  refine ⟨fun x => ?_, fun x m hm => ?_⟩
  · rw [hlinked]
    exact ⟨fun hx => .inr ⟨hx.2, fun heq => hx.1 (Option.some.inj heq).symm⟩,
      fun hx => hx.elim nofun fun hx => ⟨fun heq => hx.2 (heq ▸ rfl), hx.1⟩⟩
  · rw [hentry, update_pair, update_dots hm, update_pair]

theorem Inv.rmdir : Inv root dot dotdot T' := by
  obtain ⟨hroot, hup⟩ := h.parent d n i hn hold hi
  have hself := h.self i (entry_eq_some.mp hup).1
  have hid := ne_of_rmdir hn hold hempty
  obtain ⟨hlinked, hentry⟩ := h.entry_rmdir hdots hn hold hi hempty hkind hnlink hnames
  have hat : ∀ x m, T'.entry (x, m) = if x = d ∧ m = n then none
      else if x = i ∧ m = dotdot then none else if x = i ∧ m = dot then none
      else T.entry (x, m) := by
    intro x m
    rw [hentry, update_pair, update_pair, update_pair]
  have hnames' : ∀ m j, T.entry (i, m) = some j → m = dot ∨ m = dotdot := by
    intro m j hm
    refine hempty m ?_
    rw [(entry_eq_some.mp hm).2]
    simp
  obtain ⟨hhome, hlive, hself', hparent, hchild, htop, hone⟩ := h.toShape
  -- a name of the directory is in the one above it, its own `.`, or the `..` of one below
  have hgone : ∀ k, T'.entry k ≠ some i := by
    rintro ⟨x, m⟩ hxm
    rw [hat] at hxm
    split_ifs at hxm with hname hdotdot hdot
    by_cases hm : m = dot
    · subst hm
      rw [hself' x (entry_eq_some.mp hxm).1, Option.some.injEq] at hxm
      exact hdot ⟨hxm, rfl⟩
    by_cases hm' : m = dotdot
    · subst hm'
      have hx : x ≠ root := by
        rintro rfl
        exact hroot (htop i hxm)
      obtain ⟨w, hw, hbelow⟩ := hchild x i hxm hx
      rcases hnames' w x hbelow with heq | heq
      · exact hw.1 heq
      · exact hw.2 heq
    · have habove := (hparent x m i ⟨hm, hm'⟩ hxm hi).2
      rw [hup, Option.some.injEq] at habove
      subst habove
      exact hname ⟨rfl, hone d m n i ⟨hm, hm'⟩ hn hxm hold hi⟩
  refine ⟨?_, fun j hj => ?_⟩
  · have hkindAt := congrFun hkind
    constructor
    case live =>
      rintro ⟨x, m⟩ j hxm
      grind
    all_goals grind
  · by_cases hji : j = i
    · subst hji
      rw [hnlink, update_self]
      exact counts_zero hgone
    rw [hkind] at hj
    have hcount := (((h.exact j hj).erase hself).erase
      (show update T.entry (i, dot) none (i, dotdot) = some d by
        rw [update_pair, if_neg (fun heq => hdots heq.2.symm), hup])).erase
      (show update (update T.entry (i, dot) none) (i, dotdot) none (d, n) = some i by
        rw [update_pair, update_pair, if_neg (fun heq => hid heq.1.symm),
          if_neg (fun heq => hid heq.1.symm), hold])
    rw [hentry, hnlink, update_of_ne hji]
    rw [if_neg (Ne.symm hji), Nat.sub_zero] at hcount
    by_cases hjd : j = d
    · subst hjd
      rw [if_pos rfl] at hcount
      rw [update_self]
      exact hcount
    · rw [if_neg (Ne.symm hjd)] at hcount
      rw [update_of_ne hjd]
      exact hcount

end Rmdir

/-! ### A directory moves -/

section MoveDir

variable (h : Inv root dot dotdot T) (hdots : dot ≠ dotdot) (hn : Proper dot dotdot n)
  (hold : T.entry (d, n) = some i) (hd' : T.Linked d') (hi : T.kind i = some true)
  (hkind : T'.kind = T.kind)
  (hnlink : T'.nlink =
    update (update T.nlink d (T.nlink d - 1)) d' (T.nlink d' + 1))
  (hnames : T'.names =
    update (update (update T.names (d', n') (some i))
    (i, dotdot) (some d')) (d, n) none)
include h hdots hn hold hd' hi hkind hnlink hnames

theorem Inv.entry_moveDir : T'.Linked = T.Linked ∧
    T'.entry = update (update (update T.entry (d', n') (some i))
      (i, dotdot) (some d')) (d, n) none := by
  have hd := (entry_eq_some.mp hold).1
  have hlinkedi := (entry_eq_some.mp (h.parent d n i hn hold hi).2).1
  have htwo := h.two_le hdots hn hold hi
  have hpos : T.nlink d - 1 ≠ 0 := by omega
  have hlinked : T'.Linked = T.Linked := by
    funext x
    rw [Linked, Linked, hkind, hnlink]
    by_cases hx : x = d'
    · subst hx
      simp [hd'.2]
    · rw [update_of_ne hx]
      by_cases hxd : x = d
      · subst hxd
        simp [hd.2, hpos]
      · rw [update_of_ne hxd]
  refine ⟨hlinked, ?_⟩
  rw [entry, hlinked, hnames, visible_update _ hd, visible_update _ hlinkedi, visible_update _ hd']
  rfl

theorem Inv.moveDir (hn' : Proper dot dotdot n') (hfree : T.names (d', n') = none)
    (hne : d' ≠ d) : Inv root dot dotdot T' := by
  obtain ⟨hroot, hup⟩ := h.parent d n i hn hold hi
  obtain ⟨hlinked, hentry⟩ := h.entry_moveDir hdots hn hold hd' hi hkind hnlink hnames
  have hat : ∀ x m, T'.entry (x, m) = if x = d ∧ m = n then none
      else if x = i ∧ m = dotdot then some d' else if x = d' ∧ m = n' then some i
      else T.entry (x, m) := by
    intro x m
    rw [hentry, update_pair, update_pair, update_pair]
  have hnone := entry_eq_none hfree
  refine ⟨?_, fun j hj => ?_⟩
  · obtain ⟨hhome, hlive, hself, hparent, hchild, htop, hone⟩ := h.toShape
    have hkindAt := congrFun hkind
    have hlinkedAt := congrFun hlinked
    constructor
    case live =>
      rintro ⟨x, m⟩ j hxm
      grind
    all_goals grind
  · rw [hkind] at hj
    have hcount := (((h.exact j hj).add hnone i).change
      (show update T.entry (d', n') (some i) (i, dotdot) = some d by
        rw [update_pair, if_neg (fun heq => hn'.2 heq.2.symm), hup]) d').erase
      (show update (update T.entry (d', n') (some i)) (i, dotdot) (some d') (d, n) = some i by
        rw [update_pair, update_pair, if_neg (fun heq => hn.2 heq.2),
          if_neg (fun heq => hne heq.1.symm), hold])
    rw [hentry, hnlink]
    convert hcount using 1
    by_cases hjd' : j = d'
    · subst hjd'
      rw [update_self, if_neg (Ne.symm hne), if_pos rfl]
      omega
    · rw [update_of_ne hjd', if_neg (Ne.symm hjd')]
      by_cases hjd : j = d
      · subst hjd
        rw [update_self, if_pos rfl]
        omega
      · rw [update_of_ne hjd, if_neg (Ne.symm hjd)]
        omega

end MoveDir

/-! ### A node is forgotten -/

omit [DecidableEq ν] in
theorem entry_drop (hi : T.nlink i = 0) :
    (T.without i).Linked = T.Linked ∧ (T.without i).entry = T.entry := by
  have hkind : (T.without i).kind = update T.kind i none := rfl
  have hnlink : (T.without i).nlink = T.nlink := rfl
  have hnames : (T.without i).names = visible (· ≠ i) T.names := rfl
  generalize T.without i = T' at hkind hnlink hnames ⊢
  have hlinked : T'.Linked = T.Linked := by
    funext x
    rw [Linked, Linked, hkind, hnlink]
    by_cases hx : x = i
    · subst hx
      simp [hi]
    · rw [update_of_ne hx]
  refine ⟨hlinked, ?_⟩
  funext k
  obtain ⟨x, m⟩ := k
  rw [entry, entry, hlinked, hnames, visible, visible, visible]
  by_cases hx : x = i
  · subst hx
    have hnot : ¬ T.Linked x := fun hl => hl.2 hi
    rw [if_neg hnot, if_neg hnot]
  · rw [if_pos hx]

omit [DecidableEq ν] in
theorem Inv.drop (h : Inv root dot dotdot T) (hi : T.nlink i = 0) :
    Inv root dot dotdot (T.without i) := by
  obtain ⟨hlinked, hentry⟩ := @entry_drop ι ν _ T i hi
  have hkind : (T.without i).kind = update T.kind i none := rfl
  have hnlink : (T.without i).nlink = T.nlink := rfl
  generalize T.without i = T' at hkind hnlink hlinked hentry ⊢
  have hnot : ∀ k, T.kind i ≠ none → T.entry k ≠ some i := by
    intro k hlive hk
    exact (h.exact i hlive).ne_zero hk hi
  refine ⟨?_, fun j hj => ?_⟩
  · obtain ⟨hhome, hlive, hself, hparent, hchild, htop, hone⟩ := h.toShape
    have hkindAt := fun x => (congrFun hkind x).trans (update_apply ..)
    have hat := congrFun hentry
    have hlinkedAt := congrFun hlinked
    clear hkind hnlink hentry hlinked
    constructor
    all_goals grind
  · rw [hentry, hnlink]
    refine h.exact j fun hnone => hj ?_
    rw [hkind]
    by_cases hji : j = i
    · rw [hji, update_self]
    · rw [update_of_ne hji, hnone]

/-! ### Changes -/

/-- Complete changes keep the counts exact. -/
theorem Inv.change (hdots : dot ≠ dotdot) (h : Inv root dot dotdot T)
    (hchange : Change dot dotdot T T') : Inv root dot dotdot T' := by
  cases hchange with
  | create hn hd hfree hi =>
    have hnot := counts_zero fun k hk => h.live k _ hk hi
    exact h.link (by simp [hi]) rfl rfl rfl hn hd hfree hnot rfl rfl
  | link hn hd hfree hi =>
    have hkind := kind_file hi
    exact h.link (by simp [hi]) hkind rfl rfl hn hd hfree (h.exact _ (by simp [hi])) rfl rfl
  | mkdir hn hd hfree hi hempty =>
    exact h.mkdir hd hi hempty rfl rfl rfl hdots hn hfree
  | unlink hn hentry hi =>
    have hkind := kind_file hi
    exact h.unlink (by simp [hi]) hkind rfl rfl hn hentry rfl rfl
  | rmdir hn hentry hi hempty => exact h.rmdir hdots hn hentry hi hempty rfl rfl rfl
  | move hn hn' hentry hd' hfree hi => exact h.move hd' rfl rfl rfl hn hn' hentry hfree hi
  | moveDir hn hn' hentry hd' hfree hi hne =>
    exact h.moveDir hdots hn hentry hd' hi rfl rfl rfl hn' hfree hne
  | drop hi => exact h.drop hi

end Keeping

end Trees

end CuteOS.Lib.LinkTree
