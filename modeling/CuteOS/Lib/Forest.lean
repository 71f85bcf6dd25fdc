/-
  Lib/Forest.lean --- trees given by parent pointers.

  Nodes are numbers and every node has a parent; the parent pointer of a node counts
  only while the node is linked.  `Below a d` says that `d` is `a` or a descendant of
  it.  `Clear r d` says that the way from the root `r` down to `d` meets no blocked
  node before `d`.
-/
import Mathlib.Data.Finset.Card
import Mathlib.Data.Nat.Find

set_option autoImplicit false

namespace CuteOS.Lib.Forest

section

variable (parent : Nat → Nat) (linked blocked : Nat → Prop)

/-- The node `d` is `a` or below it. -/
inductive Below (a : Nat) : Nat → Prop where
  | here : Below a a
  | up {d : Nat} (hd : linked d) (hup : Below a (parent d)) : Below a d

/-- The nodes between the root and `d`, the root included and `d` excluded, are not
blocked. -/
inductive Clear (root : Nat) : Nat → Prop where
  | root : Clear root root
  | up {d : Nat} (hd : linked d) (hup : Clear root (parent d)) (hfree : ¬ blocked (parent d)) :
      Clear root d

/-- Walk up from `d`, at most `bound` nodes, and look for `a`. -/
def isAncestor (bound a d : Nat) : Bool :=
  (List.range bound).any fun n => parent^[n] d == a

end

variable {parent parent' : Nat → Nat} {linked linked' blocked blocked' : Nat → Prop}

/-! ## Searching for an ancestor -/

variable {a d : Nat}

theorem Below.exists_iterate (h : Below parent linked a d) : ∃ n, parent^[n] d = a := by
  induction h with
  | here => exact ⟨0, rfl⟩
  | up _ _ ih =>
    obtain ⟨n, hn⟩ := ih
    exact ⟨n + 1, hn⟩

section

variable {bound : Nat} (hclosed : ∀ d < bound, parent d < bound) (hd : d < bound)
include hclosed hd

/-- Among `bound` nodes a walk that finds `a` finds it within `bound` steps: a shortest
walk does not repeat a node. -/
theorem exists_iterate_lt (hfound : ∃ n, parent^[n] d = a) : ∃ n < bound, parent^[n] d = a := by
  refine ⟨Nat.find hfound, ?_, Nat.find_spec hfound⟩
  have hmem : ∀ n, parent^[n] d < bound := by
    intro n
    induction n with
    | zero => exact hd
    | succ n ih =>
      rw [Function.iterate_succ_apply']
      exact hclosed _ ih
  have hinj : Set.InjOn (fun n => parent^[n] d) (Finset.range (Nat.find hfound + 1)) := by
    intro i hi j hj heq
    by_contra hne
    -- a repeated node could be cut out
    have hcut : ∀ i j, i < j → j ≤ Nat.find hfound → parent^[i] d = parent^[j] d → False := by
      intro i j hij hj heq
      refine Nat.find_min hfound (m := Nat.find hfound - j + i) (by omega) ?_
      rw [Function.iterate_add_apply, heq, ← Function.iterate_add_apply, Nat.sub_add_cancel hj]
      exact Nat.find_spec hfound
    rw [Finset.coe_range, Set.mem_Iio] at hi hj
    rcases Nat.lt_or_gt_of_ne hne with hlt | hgt
    · exact hcut i j hlt (by omega) heq
    · exact hcut j i hgt (by omega) heq.symm
  have hcard := Finset.card_le_card_of_injOn (t := Finset.range bound) _
    (fun n _ => Finset.mem_coe.mpr (Finset.mem_range.mpr (hmem n))) hinj
  rw [Finset.card_range, Finset.card_range] at hcard
  omega

theorem isAncestor_of_below (h : Below parent linked a d) : isAncestor parent bound a d = true := by
  obtain ⟨n, hn, heq⟩ := exists_iterate_lt hclosed hd h.exists_iterate
  exact List.any_eq_true.mpr ⟨n, List.mem_range.mpr hn, beq_iff_eq.mpr heq⟩

end

/-! ## No cycles below an unlinked root -/

variable (parent linked) in
/-- The number of steps from a node up to a node that is not linked. -/
inductive Height : Nat → Nat → Prop where
  | zero {d : Nat} (hd : ¬ linked d) : Height d 0
  | succ {d n : Nat} (hd : linked d) (hup : Height (parent d) n) : Height d (n + 1)

theorem Height.unique {n m : Nat} (hn : Height parent linked d n)
    (hm : Height parent linked d m) : n = m := by
  induction hn generalizing m with
  | zero hd =>
    cases hm with
    | zero => rfl
    | succ hd' => exact absurd hd' hd
  | succ hd _ ih =>
    cases hm with
    | zero hd' => exact absurd hd hd'
    | succ _ hup => rw [ih hup]

theorem Height.of_below {n : Nat} (h : Below parent linked a d)
    (hd : Height parent linked d n) : ∃ m ≤ n, Height parent linked a m := by
  induction h generalizing n with
  | here => exact ⟨n, le_rfl, hd⟩
  | up hlink _ ih =>
    cases hd with
    | zero hnot => exact absurd hlink hnot
    | succ _ hup =>
      obtain ⟨m, hm, ha⟩ := ih hup
      exact ⟨m, by omega, ha⟩

variable {root : Nat}

section

variable (h : Below parent linked root d) (hroot : ¬ linked root)
include h hroot

theorem Below.exists_height : ∃ n, Height parent linked d n := by
  induction h with
  | here => exact ⟨0, .zero hroot⟩
  | up hd _ ih =>
    obtain ⟨n, hn⟩ := ih
    exact ⟨n + 1, .succ hd hn⟩

/-- A linked node below an unlinked root is not above its own parent. -/
theorem Below.not_parent (hd : linked d) : ¬ Below parent linked d (parent d) := by
  intro hcycle
  obtain ⟨n, hn⟩ := h.exists_height hroot
  cases hn with
  | zero hnot => exact hnot hd
  | @succ _ n hlink hup =>
    obtain ⟨m, hm, hagain⟩ := Height.of_below hcycle hup
    have heq := hagain.unique (.succ hlink hup)
    omega

end

/-! ## Ways that stay clear -/

section

variable (h : Clear parent linked blocked root d)
include h

theorem Clear.isBelow : Below parent linked root d := by
  induction h with
  | root => exact .here
  | up hd _ _ ih => exact .up hd ih

theorem Clear.of_ne_root (hne : d ≠ root) :
    linked d ∧ Clear parent linked blocked root (parent d) ∧ ¬ blocked (parent d) := by
  cases h with
  | root => exact absurd rfl hne
  | up hd hup hfree => exact ⟨hd, hup, hfree⟩

/-- More links and fewer blocked nodes. -/
theorem Clear.mono
    (hlinked : ∀ d, linked d → linked' d) (hparent : ∀ d, linked d → parent' d = parent d)
    (hblocked : ∀ d, blocked' d → blocked d) : Clear parent' linked' blocked' root d := by
  induction h with
  | root => exact .root
  | up hd _ hfree ih =>
    refine .up (hlinked _ hd) ?_ ?_
    · rw [hparent _ hd]
      exact ih
    · rw [hparent _ hd]
      exact fun h => hfree (hblocked _ h)

/-- One more node is blocked, and it is not above `d`. -/
theorem Clear.block {x : Nat} (hblocked : ∀ d, blocked' d → blocked d ∨ d = x)
    (hx : linked d → ¬ Below parent linked x (parent d)) : Clear parent linked blocked' root d := by
  induction h with
  | root => exact .root
  | up hd _ hfree ih =>
    refine .up hd (ih fun hup habove => hx hd (.up hup habove)) fun hnow => ?_
    rcases hblocked _ hnow with hold | heq
    · exact hfree hold
    · exact hx hd (heq ▸ .here)

end

/-! ## Moving and removing nodes -/

/-- A node with something below it has a child, or is that thing. -/
theorem Below.eq_or_child (h : Below parent linked a d) :
    d = a ∨ ∃ e, linked e ∧ parent e = a := by
  induction h with
  | here => exact .inl rfl
  | @up d hd _ ih =>
    rcases ih with heq | hchild
    · exact .inr ⟨d, hd, heq⟩
    · exact .inr hchild

theorem Below.mono (h : Below parent linked a d) (hlinked : ∀ d, linked d → linked' d)
    (hparent : ∀ d, linked d → parent' d = parent d) : Below parent' linked' a d := by
  induction h with
  | here => exact .here
  | up hd _ ih => exact .up (hlinked _ hd) (by rw [hparent _ hd]; exact ih)

section Move

variable {x np : Nat} (hparent : ∀ d, d ≠ x → parent' d = parent d)
  (h : Clear parent linked blocked root d)

include hparent h

/-- A node that is not below `x` keeps its way when `x` moves or goes. -/
theorem Clear.stays (hlinked : ∀ d, d ≠ x → linked d → linked' d)
    (hx : ¬ Below parent linked x d) : Clear parent' linked' blocked root d := by
  induction h with
  | root => exact .root
  | @up d hlink _ hfree ih =>
    have hne : d ≠ x := fun heq => hx (heq ▸ .here)
    have hup := ih fun habove => hx (.up hlink habove)
    refine .up (hlinked d hne hlink) ?_ ?_
    · rw [hparent d hne]
      exact hup
    · rw [hparent d hne]
      exact hfree

/-- A node below `x` moves with it, to a new parent that is not below `x`. -/
theorem Clear.moves (hlinked : ∀ d, linked d → linked' d) (hx : parent' x = np)
    (hnp : ¬ Below parent linked x np)
    (hnpClear : Below parent linked x d → Clear parent linked blocked root np ∧ ¬ blocked np) :
    Clear parent' linked' blocked root d := by
  induction h with
  | root => exact .root
  | @up d hlink _ hfree ih =>
    by_cases hdx : d = x
    · subst hdx
      obtain ⟨hclear, hnpFree⟩ := hnpClear .here
      refine .up (hlinked d hlink) ?_ ?_
      · rw [hx]
        exact hclear.stays hparent (fun d _ => hlinked d) hnp
      · rw [hx]
        exact hnpFree
    · have hup := ih fun habove => hnpClear (.up hlink habove)
      refine .up (hlinked d hlink) ?_ ?_
      · rw [hparent d hdx]
        exact hup
      · rw [hparent d hdx]
        exact hfree

end Move

end CuteOS.Lib.Forest
