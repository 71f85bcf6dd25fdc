/-
  Lib/PtrTree.lean --- trees of pointers kept in numbered blocks.

  A block of a tree holds `fanout` pointers, a pointer is a block number, and zero
  points nowhere.  The tree below a pointer is determined by its depth: at depth
  zero the pointer names a leaf, above it a block of pointers.  Blocks may occur
  several times in a tree that is not well formed, so what an update does is stated
  with multiplicities.
-/
import Mathlib.Algebra.BigOperators.Ring.Finset
import Mathlib.Algebra.Order.BigOperators.Group.Finset

set_option autoImplicit false

namespace CuteOS.Lib.PtrTree

open Finset (range mem_range sum_add_distrib)

/-! ## Lists gathered from the children of a block -/

/-- The lists of children `0 .. n - 1`, one after the other. -/
def gather (n : Nat) (f : Nat → List Nat) : List Nat :=
  (List.range n).flatMap f

variable {n x r i b m : Nat} {f : Nat → List Nat}

theorem mem_gather :
    x ∈ gather n f ↔ ∃ i < n, x ∈ f i := by
  simp [gather]

theorem gather_congr {g : Nat → List Nat} (hfg : ∀ i < n, f i = g i) : gather n f = gather n g :=
  List.flatMap_congr fun i hi => hfg i (List.mem_range.mp hi)

theorem gather_eq_nil (hf : ∀ i < n, f i = []) : gather n f = [] :=
  List.flatMap_eq_nil_iff.mpr fun i hi => hf i (List.mem_range.mp hi)

theorem count_gather (n : Nat) (f : Nat → List Nat) (x : Nat) :
    (gather n f).count x = ∑ i ∈ range n, (f i).count x := by
  induction n with
  | zero => rfl
  | succ n ih =>
    rw [Finset.sum_range_succ, ← ih]
    simp [gather, List.range_succ]

theorem count_cons_ite (b : Nat) (l : List Nat) (x : Nat) :
    (b :: l).count x = l.count x + if x = b then 1 else 0 := by
  rw [List.count_cons]
  by_cases hx : x = b
  · rw [hx, if_pos rfl, if_pos (beq_self_eq_true b)]
  · rw [if_neg hx, if_neg fun h => hx (beq_iff_eq.mp h).symm]

theorem count_single (b x : Nat) : [b].count x = if x = b then 1 else 0 := by
  rw [count_cons_ite, List.count_nil, Nat.zero_add]

theorem mem_iff_of_count {l l₁ l₂ : List Nat} (h : ∀ x, l.count x = l₁.count x + l₂.count x) :
    x ∈ l ↔ x ∈ l₁ ∨ x ∈ l₂ := by
  rw [← List.count_pos_iff, h, Nat.add_pos_iff_pos_or_pos, List.count_pos_iff, List.count_pos_iff]

/-! ## The blocks of a tree -/

section Tree

variable (child : Nat → Nat → Nat) (fanout : Nat)

/-- All blocks of the tree below pointer `r`, children first. -/
def nodes : Nat → Nat → List Nat
  | 0, r => if r = 0 then [] else [r]
  | depth + 1, r =>
    if r = 0 then [] else gather fanout (fun i => nodes depth (child r i)) ++ [r]

/-- The blocks of pointers. -/
def inner : Nat → Nat → List Nat
  | 0, _ => []
  | depth + 1, r =>
    if r = 0 then [] else gather fanout (fun i => inner depth (child r i)) ++ [r]

/-- The blocks at depth zero. -/
def leaves : Nat → Nat → List Nat
  | 0, r => if r = 0 then [] else [r]
  | depth + 1, r => if r = 0 then [] else gather fanout fun i => leaves depth (child r i)

end Tree

variable {child child' : Nat → Nat → Nat} {fanout : Nat}

@[simp] theorem nodes_null (depth : Nat) : nodes child fanout depth 0 = [] := by
  cases depth <;> rfl

@[simp] theorem inner_null (depth : Nat) : inner child fanout depth 0 = [] := by
  cases depth <;> rfl

@[simp] theorem leaves_null (depth : Nat) : leaves child fanout depth 0 = [] := by
  cases depth <;> rfl

section

variable (hr : r ≠ 0) (depth : Nat)
include hr depth

theorem nodes_succ : nodes child fanout (depth + 1) r =
      gather fanout (fun i => nodes child fanout depth (child r i)) ++ [r] :=
  if_neg hr

theorem inner_succ : inner child fanout (depth + 1) r =
      gather fanout (fun i => inner child fanout depth (child r i)) ++ [r] :=
  if_neg hr

theorem leaves_succ : leaves child fanout (depth + 1) r =
      gather fanout (fun i => leaves child fanout depth (child r i)) :=
  if_neg hr

end

theorem count_nodes (depth r x : Nat) : (nodes child fanout depth r).count x =
      (leaves child fanout depth r).count x + (inner child fanout depth r).count x := by
  induction depth generalizing r with
  | zero => rfl
  | succ depth ih =>
    by_cases hr : r = 0
    · subst hr
      simp
    · rw [nodes_succ hr, leaves_succ hr, inner_succ hr, List.count_append, List.count_append,
        count_gather, count_gather, count_gather]
      simp only [ih, sum_add_distrib]
      omega

theorem mem_nodes {depth : Nat} : x ∈ nodes child fanout depth r ↔
      x ∈ leaves child fanout depth r ∨ x ∈ inner child fanout depth r :=
  mem_iff_of_count (count_nodes depth r)

/-- A block without pointers is a tree by itself. -/
theorem nodes_eq_singleton (hr : r ≠ 0) (hempty : ∀ i < fanout, child r i = 0) (depth : Nat) :
    nodes child fanout depth r = [r] := by
  cases depth with
  | zero => exact if_neg hr
  | succ depth =>
    rw [nodes_succ hr, gather_eq_nil fun i hi => by rw [hempty i hi, nodes_null]]
    rfl

/-! ## Only the blocks of pointers are read -/

theorem inner_child_subset (hr : r ≠ 0) (hi : i < fanout) (depth : Nat) :
    inner child fanout depth (child r i) ⊆ inner child fanout (depth + 1) r := by
  intro x hx
  rw [inner_succ hr]
  exact List.mem_append_left _ (mem_gather.mpr ⟨i, hi, hx⟩)

theorem self_mem_inner (hr : r ≠ 0) (depth : Nat) :
    r ∈ inner child fanout (depth + 1) r := by
  rw [inner_succ hr]
  exact List.mem_append_right _ (List.mem_singleton_self r)

theorem mem_leaves_child (hr : r ≠ 0) (hi : i < fanout) {depth : Nat}
    (hx : x ∈ leaves child fanout depth (child r i)) :
    x ∈ leaves child fanout (depth + 1) r := by
  rw [leaves_succ hr]
  exact mem_gather.mpr ⟨i, hi, hx⟩

theorem tree_congr {depth : Nat}
    (hsame : ∀ n ∈ inner child fanout depth r, ∀ i < fanout, child' n i = child n i) :
    nodes child' fanout depth r = nodes child fanout depth r ∧
      inner child' fanout depth r = inner child fanout depth r ∧
      leaves child' fanout depth r = leaves child fanout depth r := by
  induction depth generalizing r with
  | zero => exact ⟨rfl, rfl, rfl⟩
  | succ depth ih =>
    by_cases hr : r = 0
    · subst hr
      simp
    · have hchild : ∀ i < fanout, child' r i = child r i := hsame r (self_mem_inner hr depth)
      have hsub : ∀ i < fanout,
          nodes child' fanout depth (child' r i) = nodes child fanout depth (child r i) ∧
          inner child' fanout depth (child' r i) = inner child fanout depth (child r i) ∧
          leaves child' fanout depth (child' r i) = leaves child fanout depth (child r i) := by
        intro i hi
        rw [hchild i hi]
        exact ih fun n hn => hsame n (inner_child_subset hr hi depth hn)
      rw [nodes_succ hr, nodes_succ hr, inner_succ hr, inner_succ hr, leaves_succ hr,
        leaves_succ hr]
      rw [gather_congr fun i hi => (hsub i hi).1, gather_congr fun i hi => (hsub i hi).2.1,
        gather_congr fun i hi => (hsub i hi).2.2]
      exact ⟨rfl, rfl, rfl⟩

/-! ## Storing a pointer -/

/-- Pointer `i` of block `n` becomes `b`. -/
def link (child : Nat → Nat → Nat) (n i b : Nat) : Nat → Nat → Nat :=
  fun n' i' => if n' = n ∧ i' = i then b else child n' i'

@[simp] theorem link_self (n i b : Nat) : link child n i b n i = b := by
  simp [link]

theorem link_ne {n' i' : Nat} (hne : n' ≠ n ∨ i' ≠ i) :
    link child n i b n' i' = child n' i' := by
  apply if_neg
  rintro ⟨hn, hi⟩
  exact hne.elim (fun h => h hn) (fun h => h hi)

/-- A null pointer that is set to an empty block adds this block wherever the block
with the pointer occurs. -/
theorem count_nodes_link (hb : b ≠ 0) (hempty : ∀ j < fanout, child b j = 0) (hnb : n ≠ b)
    (hi : i < fanout) (hnull : child n i = 0) (depth r x : Nat) :
    (nodes (link child n i b) fanout depth r).count x = (nodes child fanout depth r).count x +
        if x = b then (inner child fanout depth r).count n else 0 := by
  have hsingle : ∀ depth, nodes (link child n i b) fanout depth b = [b] :=
    nodes_eq_singleton hb fun j hj => by rw [link_ne (.inl hnb.symm), hempty j hj]
  induction depth generalizing r with
  | zero => simp [nodes, inner]
  | succ depth ih =>
    by_cases hr : r = 0
    · subst hr
      simp
    · rw [nodes_succ hr, nodes_succ hr, inner_succ hr]
      simp only [List.count_append, count_gather, count_single]
      -- what child `j` adds: the recursive gain, and the new block at its own place
      have hsub : ∀ j ∈ range fanout,
          (nodes (link child n i b) fanout depth (link child n i b r j)).count x =
            (nodes child fanout depth (child r j)).count x +
            ((if x = b then (inner child fanout depth (child r j)).count n else 0) +
              if j = i then (if x = b ∧ r = n then 1 else 0) else 0) := by
        intro j _
        by_cases hplace : r = n ∧ j = i
        · obtain ⟨rfl, rfl⟩ := hplace
          rw [link_self, hsingle, hnull, count_single]
          simp
        · rw [link_ne (by by_cases h : r = n <;> simp_all)]
          by_cases hj : j = i <;> by_cases hrn : r = n <;> simp_all
      rw [Finset.sum_congr rfl hsub, sum_add_distrib, sum_add_distrib,
        Finset.sum_ite_eq' (range fanout) i, if_pos (Finset.mem_range.mpr hi)]
      by_cases hx : x = b <;> by_cases hrn : n = r <;> simp [hx, eq_comm] <;> omega

/-! ## Several trees -/

/-- The blocks of the trees below the pointers `ptr 0 .. ptr (n - 1)`. -/
def rootNodes (child : Nat → Nat → Nat) (fanout n : Nat) (depth ptr : Nat → Nat) : List Nat :=
  gather n fun k => nodes child fanout (depth k) (ptr k)

def rootInner (child : Nat → Nat → Nat) (fanout n : Nat) (depth ptr : Nat → Nat) : List Nat :=
  gather n fun k => inner child fanout (depth k) (ptr k)

def rootLeaves (child : Nat → Nat → Nat) (fanout n : Nat) (depth ptr : Nat → Nat) : List Nat :=
  gather n fun k => leaves child fanout (depth k) (ptr k)

variable {depth ptr : Nat → Nat}

theorem count_rootNodes (x : Nat) : (rootNodes child fanout n depth ptr).count x =
      (rootLeaves child fanout n depth ptr).count x +
        (rootInner child fanout n depth ptr).count x := by
  simp only [rootNodes, rootLeaves, rootInner, count_gather, count_nodes, sum_add_distrib]

theorem mem_rootNodes : x ∈ rootNodes child fanout n depth ptr ↔
      x ∈ rootLeaves child fanout n depth ptr ∨ x ∈ rootInner child fanout n depth ptr :=
  mem_iff_of_count count_rootNodes

/-- In trees without repetition a leaf is not a block of pointers. -/
theorem not_mem_rootInner_of_leaf (hnodup : (rootNodes child fanout n depth ptr).Nodup)
    (hleaf : x ∈ rootLeaves child fanout n depth ptr) :
    x ∉ rootInner child fanout n depth ptr := by
  intro hinner
  have hone := List.nodup_iff_count_le_one.mp hnodup x
  have hl := List.count_pos_iff.mpr hleaf
  have hi := List.count_pos_iff.mpr hinner
  rw [count_rootNodes] at hone
  omega

theorem root_congr
    (hsame : ∀ m ∈ rootInner child fanout n depth ptr, ∀ i < fanout, child' m i = child m i) :
    rootNodes child' fanout n depth ptr = rootNodes child fanout n depth ptr ∧
      rootInner child' fanout n depth ptr = rootInner child fanout n depth ptr ∧
      rootLeaves child' fanout n depth ptr = rootLeaves child fanout n depth ptr := by
  have htree : ∀ k < n,
      nodes child' fanout (depth k) (ptr k) = nodes child fanout (depth k) (ptr k) ∧
      inner child' fanout (depth k) (ptr k) = inner child fanout (depth k) (ptr k) ∧
      leaves child' fanout (depth k) (ptr k) = leaves child fanout (depth k) (ptr k) :=
    fun k hk => tree_congr fun m hm => hsame m (mem_gather.mpr ⟨k, hk, hm⟩)
  exact ⟨gather_congr fun k hk => (htree k hk).1, gather_congr fun k hk => (htree k hk).2.1,
    gather_congr fun k hk => (htree k hk).2.2⟩

/-- A null pointer in a block is set to an empty block. -/
theorem count_rootNodes_link (hb : b ≠ 0) (hempty : ∀ j < fanout, child b j = 0) (hmb : m ≠ b)
    (hi : i < fanout) (hnull : child m i = 0) (x : Nat) :
    (rootNodes (link child m i b) fanout n depth ptr).count x =
      (rootNodes child fanout n depth ptr).count x +
        if x = b then (rootInner child fanout n depth ptr).count m else 0 := by
  simp only [rootNodes, rootInner, count_gather, count_nodes_link hb hempty hmb hi hnull,
    sum_add_distrib]
  by_cases hx : x = b <;> simp [hx]

/-- A null root pointer is set to an empty block. -/
theorem count_rootNodes_update {k : Nat} (hb : b ≠ 0) (hempty : ∀ j < fanout, child b j = 0)
    (hk : k < n) (hnull : ptr k = 0) (x : Nat) :
    (rootNodes child fanout n depth (Function.update ptr k b)).count x =
      (rootNodes child fanout n depth ptr).count x + if x = b then 1 else 0 := by
  have hsub : ∀ j ∈ range n,
      (nodes child fanout (depth j) (Function.update ptr k b j)).count x =
        (nodes child fanout (depth j) (ptr j)).count x +
          if j = k then (if x = b then 1 else 0) else 0 := by
    intro j _
    by_cases hj : j = k
    · subst hj
      rw [Function.update_self, nodes_eq_singleton hb hempty, hnull, count_single]
      simp
    · rw [Function.update_of_ne hj, if_neg hj]
      rfl
  rw [rootNodes, rootNodes, count_gather, count_gather, Finset.sum_congr rfl hsub,
    sum_add_distrib, Finset.sum_ite_eq' (range n) k,
    if_pos (Finset.mem_range.mpr hk)]

/-! ## Following a path -/

/-- The block at the end of a path of child numbers; zero if a pointer on the way is. -/
def nodeAt (child : Nat → Nat → Nat) : Nat → List Nat → Nat
  | r, [] => r
  | r, i :: path => if r = 0 then 0 else nodeAt child (child r i) path

@[simp] theorem nodeAt_nil (r : Nat) : nodeAt child r [] = r := rfl

@[simp] theorem nodeAt_null (path : List Nat) : nodeAt child 0 path = 0 := by
  cases path <;> rfl

theorem nodeAt_cons (hr : r ≠ 0) (i : Nat) (path : List Nat) :
    nodeAt child r (i :: path) = nodeAt child (child r i) path :=
  if_neg hr

variable {path : List Nat}

theorem ne_zero_of_nodeAt (h : nodeAt child r path ≠ 0) : r ≠ 0 := by
  rintro rfl
  exact h (nodeAt_null path)

/-- A path into a tree of depth `depth`. -/
def IsPath (fanout depth : Nat) (path : List Nat) : Prop :=
  path.length ≤ depth ∧ ∀ i ∈ path, i < fanout

theorem IsPath.cons {depth : Nat} (h : IsPath fanout depth (i :: path)) :
    ∃ d, depth = d + 1 ∧ i < fanout ∧ IsPath fanout d path := by
  obtain ⟨hlen, hlt⟩ := h
  cases depth with
  | zero => simp at hlen
  | succ d =>
    refine ⟨d, rfl, hlt i List.mem_cons_self, Nat.le_of_succ_le_succ hlen, fun j hj => ?_⟩
    exact hlt j (List.mem_cons_of_mem i hj)

section

variable {depth : Nat} (hpath : IsPath fanout depth path)
include hpath

theorem nodeAt_mem_leaves (hlen : path.length = depth) (hne : nodeAt child r path ≠ 0) :
    nodeAt child r path ∈ leaves child fanout depth r := by
  induction path generalizing depth r with
  | nil =>
    subst hlen
    simpa [leaves] using hne
  | cons i path ih =>
    have hr := ne_zero_of_nodeAt hne
    obtain ⟨d, rfl, hi, hpath⟩ := hpath.cons
    rw [nodeAt_cons hr] at hne ⊢
    exact mem_leaves_child hr hi (ih hpath (Nat.succ.inj hlen) hne)

theorem nodeAt_mem_inner (hlen : path.length < depth) (hne : nodeAt child r path ≠ 0) :
    nodeAt child r path ∈ inner child fanout depth r := by
  induction path generalizing depth r with
  | nil =>
    cases depth with
    | zero => exact absurd hlen (Nat.lt_irrefl 0)
    | succ depth => exact self_mem_inner hne depth
  | cons i path ih =>
    have hr := ne_zero_of_nodeAt hne
    obtain ⟨d, rfl, hi, hpath⟩ := hpath.cons
    rw [nodeAt_cons hr] at hne ⊢
    exact inner_child_subset hr hi d (ih hpath (Nat.lt_of_succ_lt_succ hlen) hne)

theorem nodeAt_mem_nodes (hne : nodeAt child r path ≠ 0) :
    nodeAt child r path ∈ nodes child fanout depth r := by
  rcases hpath.1.eq_or_lt with hlen | hlen
  · exact mem_nodes.mpr (.inl (nodeAt_mem_leaves hpath hlen hne))
  · exact mem_nodes.mpr (.inr (nodeAt_mem_inner hpath hlen hne))

theorem nodeAt_congr
    (hsame : ∀ n ∈ inner child fanout depth r, ∀ i < fanout, child' n i = child n i) :
    nodeAt child' r path = nodeAt child r path := by
  induction path generalizing depth r with
  | nil => rfl
  | cons i path ih =>
    by_cases hr : r = 0
    · rw [hr, nodeAt_null, nodeAt_null]
    · obtain ⟨d, rfl, hi, hpath⟩ := hpath.cons
      rw [nodeAt_cons hr, nodeAt_cons hr, hsame r (self_mem_inner hr d) i hi]
      exact ih hpath fun n hn => hsame n (inner_child_subset hr hi d hn)

end

section

variable (h : (gather n f).Nodup)
include h

theorem nodup_of_gather {i : Nat} (hi : i < n) : (f i).Nodup :=
  (List.nodup_flatMap.mp h).1 i (List.mem_range.mpr hi)

/-- Lists gathered without repetition have no common element. -/
theorem eq_of_mem_gather {j : Nat} (hi : i < n) (hj : j < n) (hxi : x ∈ f i) (hxj : x ∈ f j) :
    i = j := by
  by_contra hij
  have hone := List.nodup_iff_count_le_one.mp h x
  have hsub : ({i, j} : Finset Nat) ⊆ range n := by
    intro k hk
    rcases Finset.mem_insert.mp hk with rfl | hk
    · exact Finset.mem_range.mpr hi
    · rw [Finset.mem_singleton.mp hk]
      exact Finset.mem_range.mpr hj
  have hsum := Finset.sum_le_sum_of_subset (f := fun k => (f k).count x) hsub
  rw [Finset.sum_pair hij, ← count_gather] at hsum
  have hci := List.count_pos_iff.mpr hxi
  have hcj := List.count_pos_iff.mpr hxj
  omega

end

/-- In a tree without repetition a block is at the end of one path. -/
theorem nodeAt_inj {depth : Nat} {path' : List Nat} (hnodup : (nodes child fanout depth r).Nodup)
    (hpath : IsPath fanout depth path) (hpath' : IsPath fanout depth path')
    (hne : nodeAt child r path ≠ 0) (heq : nodeAt child r path = nodeAt child r path') :
    path = path' := by
  induction path generalizing depth r path' with
  | nil =>
    cases path' with
    | nil => rfl
    | cons j path' =>
      have hr : r ≠ 0 := hne
      obtain ⟨d, rfl, hj, hpath'⟩ := hpath'.cons
      rw [nodeAt_nil, nodeAt_cons hr] at heq
      rw [nodes_succ hr, List.nodup_append] at hnodup
      refine absurd rfl (hnodup.2.2 r ?_ r (List.mem_singleton_self r))
      refine mem_gather.mpr ⟨j, hj, ?_⟩
      have hmem := nodeAt_mem_nodes hpath' (heq ▸ hr)
      rwa [← heq] at hmem
  | cons i path ih =>
    have hr := ne_zero_of_nodeAt hne
    obtain ⟨d, rfl, hi, hpath⟩ := hpath.cons
    rw [nodeAt_cons hr] at hne heq
    rw [nodes_succ hr, List.nodup_append] at hnodup
    cases path' with
    | nil =>
      refine absurd rfl (hnodup.2.2 r ?_ r (List.mem_singleton_self r))
      refine mem_gather.mpr ⟨i, hi, ?_⟩
      have hmem := nodeAt_mem_nodes hpath hne
      rwa [heq] at hmem
    | cons j path' =>
      obtain ⟨d', hd, hj, hrest⟩ := hpath'.cons
      cases hd
      rw [nodeAt_cons hr] at heq
      have hmem := nodeAt_mem_nodes hpath hne
      have hmem' := nodeAt_mem_nodes hrest (heq ▸ hne)
      rw [← heq] at hmem'
      obtain rfl := eq_of_mem_gather hnodup.1 hi hj hmem hmem'
      rw [ih (nodup_of_gather hnodup.1 hi) hpath hrest hne heq]

/-- A null pointer of block `m` is set to an empty block: only the path that ends with
this pointer changes. -/
theorem nodeAt_link (hm : m ≠ 0) (hb : b ≠ 0) (hmb : m ≠ b) (hempty : ∀ j, child b j = 0)
    (hnull : child m i = 0) (r : Nat) (path : List Nat) :
    (∃ q, path = q ++ [i] ∧ nodeAt child r q = m ∧ nodeAt (link child m i b) r path = b) ∨
      (¬ ∃ q, path = q ++ [i] ∧ nodeAt child r q = m) ∧
        nodeAt (link child m i b) r path = nodeAt child r path := by
  induction path generalizing r with
  | nil =>
    refine .inr ⟨?_, rfl⟩
    rintro ⟨q, hq, -⟩
    simp at hq
  | cons j path ih =>
    by_cases hr : r = 0
    · subst hr
      refine .inr ⟨?_, by rw [nodeAt_null, nodeAt_null]⟩
      rintro ⟨q, -, hq⟩
      rw [nodeAt_null] at hq
      exact hm hq.symm
    rw [nodeAt_cons hr, nodeAt_cons hr]
    by_cases hplace : r = m ∧ j = i
    · obtain ⟨rfl, rfl⟩ := hplace
      rw [link_self, hnull, nodeAt_null]
      cases path with
      | nil => exact .inl ⟨[], rfl, rfl, rfl⟩
      | cons k path =>
        refine .inr ⟨?_, ?_⟩
        · rintro ⟨q, hq, hnode⟩
          cases q with
          | nil => simp at hq
          | cons k' q =>
            rw [List.cons_append, List.cons.injEq] at hq
            obtain ⟨rfl, -⟩ := hq
            rw [nodeAt_cons hr, hnull, nodeAt_null] at hnode
            exact hr hnode.symm
        · rw [nodeAt_cons hb, link_ne (.inl (Ne.symm hmb)), hempty, nodeAt_null]
    · have hne : r ≠ m ∨ j ≠ i := by
        rwa [← not_and_or]
      rw [link_ne hne]
      rcases ih (child r j) with ⟨q, rfl, hnode, hval⟩ | ⟨hnot, hval⟩
      · exact .inl ⟨j :: q, rfl, by rw [nodeAt_cons hr]; exact hnode, hval⟩
      · refine .inr ⟨?_, hval⟩
        rintro ⟨q, hq, hnode⟩
        cases q with
        | nil =>
          rw [List.nil_append, List.cons.injEq] at hq
          exact hplace ⟨hnode, hq.1⟩
        | cons j' q =>
          obtain ⟨rfl, rfl⟩ := hq
          rw [nodeAt_cons hr] at hnode
          exact hnot ⟨q, rfl, hnode⟩

theorem nodeAt_of_empty (hempty : ∀ j, child b j = 0) (hpath : path ≠ []) :
    nodeAt child b path = 0 := by
  cases path with
  | nil => exact absurd rfl hpath
  | cons i path =>
    rw [nodeAt, hempty, nodeAt_null]
    split_ifs <;> rfl

theorem nodeAt_append (q : List Nat) (i : Nat) : nodeAt child r (q ++ [i]) =
      if nodeAt child r q = 0 then 0 else child (nodeAt child r q) i := by
  induction q generalizing r with
  | nil => rfl
  | cons j q ih =>
    by_cases hr : r = 0
    · rw [hr, nodeAt_null, nodeAt_null, if_pos rfl]
    · rw [List.cons_append, nodeAt_cons hr, nodeAt_cons hr, ih]

end CuteOS.Lib.PtrTree
