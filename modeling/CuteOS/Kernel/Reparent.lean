/-
  Kernel/Reparent.lean --- the loop that gives the children of a dead task away.

  Source: `kernel/task.c` (`task_reparent_children_locked`), `include/kernel/list.h`.

  The loop walks the list of children with a saved next pointer and puts each child at
  the tail of another list.  When the dead task is the one that adopts, the list it walks
  is the list it extends.
-/
import CuteOS.Kernel.Exit

set_option autoImplicit false

namespace CuteOS.Kernel.System

/-- `node->next` in a list of children; `none` is the head of the list. -/
def nextNode (children : List TaskId) : Option TaskId → Option TaskId
  | none => children.head?
  | some child => (children.dropWhile (· != child)).tail.head?

/-- `init_task ? init_task : &idle_task`. -/
def adopter (s : System) : TaskId := s.initTask.getD 0

/-- The body of the loop, for one child of `dead`. -/
def giveAway (s : System) (dead child : TaskId) : System :=
  let s := s.setTask dead fun task => { task with children := task.children.erase child }
  reparentChild s.adopter s child

/-- `list_for_each_safe (pos, next, &dead->links.children)`. -/
def reparentLoop (dead : TaskId) : Nat → Option TaskId → Option TaskId → System → Option System
  | 0, _, _, _ => none
  | _ + 1, none, _, s => some s
  | fuel + 1, some child, next, s =>
    let s := s.giveAway dead child
    reparentLoop dead fuel next (nextNode (s.task dead).children next) s

/-- `task_reparent_children_locked`, given `fuel` turns. -/
def taskReparentChildren (s : System) (dead : TaskId) (fuel : Nat) : Option System :=
  let first := nextNode (s.task dead).children none
  reparentLoop dead fuel first (nextNode (s.task dead).children first) s

/-- Each child of the task is in its list once and in no other list. -/
def OwnsChildren (s : System) (t : TaskId) : Prop :=
  ∀ child ∈ (s.task t).children, ∀ q,
    (s.task q).children.count child = if q = t then 1 else 0

/-- The former children of `dead` have a parent that is not dead, and are in its list. -/
def NoOrphan (s s' : System) (dead : TaskId) : Prop :=
  ∀ child ∈ (s.task dead).children, ∃ parent,
    (s'.task child).parent = some parent ∧ parent ≠ dead ∧ (s'.task parent).state ≠ .zombie ∧
      ∀ q, (s'.task q).children.count child = if q = parent then 1 else 0

variable {s s' : System} {dead : TaskId}

theorem nextNode_head (children : List TaskId) :
    nextNode children children.head? = children.tail.head? := by
  cases children with
  | nil => rfl
  | cons a rest => simp [nextNode]

theorem taskReparentChildren_eq (fuel : Nat) : s.taskReparentChildren dead fuel =
    reparentLoop dead fuel (s.task dead).children.head? (s.task dead).children.tail.head? s := by
  rw [← nextNode_head]
  rfl

/-- More turns do not change the result. -/
theorem reparentLoop_mono {fuel more : Nat} {pos next : Option TaskId} (hle : fuel ≤ more)
    (h : reparentLoop dead fuel pos next s = some s') :
    reparentLoop dead more pos next s = some s' := by
  induction fuel generalizing more pos next s with
  | zero => cases h
  | succ fuel ih =>
    cases more with
    | zero => exact absurd hle (Nat.not_succ_le_zero fuel)
    | succ more =>
      cases pos with
      | none => exact h
      | some child =>
        rw [reparentLoop] at h ⊢
        exact ih (Nat.le_of_succ_le_succ hle) h

/-! ## The body of the loop -/

theorem giveAway_state (child u : TaskId) :
    ((s.giveAway dead child).task u).state = (s.task u).state := by
  simp only [giveAway, reparentChild, setTask_task]
  split_ifs <;> simp_all

theorem giveAway_parent (child u : TaskId) : ((s.giveAway dead child).task u).parent =
    if u = child then some s.adopter else (s.task u).parent := by
  simp only [giveAway, reparentChild, adopter, setTask_task, setTask_initTask]
  split_ifs <;> simp_all

theorem giveAway_children (child q : TaskId) : ((s.giveAway dead child).task q).children =
    (if q = dead then (s.task q).children.erase child else (s.task q).children) ++
      if q = s.adopter then [child] else [] := by
  simp only [giveAway, reparentChild, adopter, setTask_task, setTask_initTask]
  split_ifs <;> simp_all

/-! ## Another task adopts

The list that is walked loses its first node in each turn, so the loop ends. -/

/-- What the loop leaves behind when it walks `children`. -/
structure Adopted (dead : TaskId) (children : List TaskId) (s s' : System) : Prop where
  state : ∀ u, (s'.task u).state = (s.task u).state
  parent : ∀ u, (s'.task u).parent = if u ∈ children then some s.adopter else (s.task u).parent
  count : ∀ q child, (s'.task q).children.count child =
    if q = dead then 0
    else (s.task q).children.count child + if q = s.adopter then children.count child else 0

theorem giveAway_head {a : TaskId} {rest : List TaskId} (hne : s.adopter ≠ dead)
    (hlist : (s.task dead).children = a :: rest) :
    ((s.giveAway dead a).task dead).children = rest := by
  rw [giveAway_children, if_pos rfl, if_neg hne.symm, hlist, List.erase_cons_head, List.append_nil]

theorem reparentLoop_adopted {children : List TaskId} (hne : s.adopter ≠ dead)
    (hlist : (s.task dead).children = children) :
    ∃ s', reparentLoop dead (children.length + 1) children.head? children.tail.head? s = some s' ∧
      Adopted dead children s s' := by
  induction children generalizing s with
  | nil =>
    refine ⟨s, rfl, fun _ => rfl, fun _ => rfl, fun q child => ?_⟩
    split_ifs with hq
    · rw [hq, hlist, List.count_nil]
    · rw [List.count_nil, Nat.add_zero]
    · rw [Nat.add_zero]
  | cons a rest ih =>
    have hrest := giveAway_head hne hlist
    obtain ⟨s', hloop, hs'⟩ := ih (s := s.giveAway dead a) hne hrest
    refine ⟨s', ?_, ?_, ?_, ?_⟩
    · change reparentLoop dead (rest.length + 1) rest.head? (nextNode _ rest.head?) _ = some s'
      rw [hrest, nextNode_head]
      exact hloop
    · exact fun u => (hs'.state u).trans (giveAway_state a u)
    · intro u
      rw [hs'.parent, giveAway_parent]
      change (if u ∈ rest then some s.adopter else _) = _
      split_ifs <;> simp_all
    · intro q child
      rw [hs'.count, giveAway_children]
      change (if q = dead then 0 else _ + if q = s.adopter then rest.count child else 0) = _
      split_ifs with hq hadopter
      · rfl
      · simp only [List.count_append, List.count_cons, List.count_nil]
        omega
      · rw [List.append_nil]

/-- A turn commutes with emptying the list of `dead`. -/
theorem giveAway_emptied (hne : s.adopter ≠ dead) (child : TaskId) :
    (s.giveAway dead child).setTask dead (fun task => { task with children := [] }) =
      reparentChild s.adopter (s.setTask dead fun task => { task with children := [] }) child := by
  simp only [giveAway, reparentChild, adopter, setTask, Function.update_apply] at hne ⊢
  congr 1
  funext u
  grind

/-- So the loop does what `reparentChildren` does. -/
theorem taskReparentChildren_fold (hne : s.adopter ≠ dead) :
    s.taskReparentChildren dead ((s.task dead).children.length + 1) =
      some (s.reparentChildren dead) := by
  rw [taskReparentChildren_eq, reparentChildren, setTask_initTask, ← adopter]
  generalize hlist : (s.task dead).children = children
  induction children generalizing s with
  | nil =>
    have hsame : { s.task dead with children := [] } = s.task dead := by rw [← hlist]
    rw [setTask, hsame, Function.update_eq_self]
    rfl
  | cons a rest ih =>
    have hrest := giveAway_head hne hlist
    have hturn := ih (s := s.giveAway dead a) hne hrest
    rw [giveAway_emptied hne] at hturn
    change reparentLoop dead (rest.length + 1) rest.head? (nextNode _ rest.head?) _ = _
    rw [hrest, nextNode_head]
    exact hturn

/-! ## The dead task adopts

Every turn moves the first node to the tail: with two nodes the saved next pointer never
is the head. -/

theorem reparentLoop_self (hself : s.adopter = dead) {a b : TaskId} {rest : List TaskId}
    (hlist : (s.task dead).children = a :: b :: rest) (fuel : Nat) :
    reparentLoop dead fuel (some a) (some b) s = none := by
  induction fuel generalizing s a b rest with
  | zero => rfl
  | succ fuel ih =>
    have hmoved : ((s.giveAway dead a).task dead).children = b :: (rest ++ [a]) := by
      rw [giveAway_children, if_pos rfl, if_pos hself.symm, hlist, List.erase_cons_head]
      rfl
    obtain ⟨c, tail, hc⟩ : ∃ c tail, rest ++ [a] = c :: tail :=
      List.exists_cons_of_ne_nil (by simp)
    rw [hc] at hmoved
    have hnext : nextNode ((s.giveAway dead a).task dead).children (some b) = some c := by
      rw [hmoved]
      simp [nextNode]
    change reparentLoop dead fuel (some b) (nextNode _ (some b)) _ = none
    rw [hnext]
    exact ih (s := s.giveAway dead a) hself hmoved

/-! ## The result -/

/-- The loop ends and leaves no orphan exactly when there is no child, or the adopting task
is not the dead one and not a zombie. -/
theorem reparent_leaves_no_orphan_iff (s : System) (dead : TaskId) (howns : s.OwnsChildren dead) :
    (∃ fuel s', s.taskReparentChildren dead fuel = some s' ∧ NoOrphan s s' dead) ↔
      (s.task dead).children = [] ∨ (s.adopter ≠ dead ∧ (s.task s.adopter).state ≠ .zombie) := by
  simp only [taskReparentChildren_eq]
  constructor
  · rintro ⟨fuel, s', hloop, hno⟩
    cases hlist : (s.task dead).children with
    | nil => exact .inl rfl
    | cons a rest =>
      right
      rw [hlist] at hloop
      obtain ⟨parent, hparent, hdead, hzombie, -⟩ := hno a (by simp [hlist])
      by_cases hself : s.adopter = dead
      · cases rest with
        | nil =>
          have hone : reparentLoop dead 2 (some a) none s = some (s.giveAway dead a) := rfl
          have hsame := (reparentLoop_mono (Nat.le_max_left fuel 2) hloop).symm.trans
            (reparentLoop_mono (Nat.le_max_right fuel 2) hone)
          cases hsame
          rw [giveAway_parent, if_pos rfl, hself] at hparent
          exact absurd (Option.some.inj hparent).symm hdead
        | cons b rest =>
          have hnever := reparentLoop_self hself hlist fuel
          exact absurd (hnever.symm.trans hloop) (Option.some_ne_none _).symm
      · obtain ⟨t, hends, ht⟩ := reparentLoop_adopted hself hlist
        have hsame := (reparentLoop_mono (Nat.le_max_left fuel _) hloop).symm.trans
          (reparentLoop_mono (Nat.le_max_right fuel _) hends)
        cases hsame
        rw [ht.parent, if_pos List.mem_cons_self] at hparent
        cases hparent
        rw [ht.state] at hzombie
        exact ⟨hself, hzombie⟩
  · rintro (hnil | ⟨hne, hzombie⟩)
    · exact ⟨1, s, by rw [hnil]; rfl, fun child hchild => by rw [hnil] at hchild; cases hchild⟩
    · obtain ⟨s', hloop, hs'⟩ := reparentLoop_adopted hne rfl
      refine ⟨_, s', hloop, fun child hchild => ⟨s.adopter, ?_, hne, ?_, fun q => ?_⟩⟩
      · rw [hs'.parent, if_pos hchild]
      · rw [hs'.state]
        exact hzombie
      · rw [hs'.count, howns child hchild q, howns child hchild dead, if_pos rfl]
        split_ifs <;> simp_all

/-- Task 2 has two children. -/
def familySystem (init : TaskId) : System where
  task t := if t = 2 then { groupLeader := 2, children := [3, 4] } else { groupLeader := t }
  tasks := [1, 2, 3, 4]
  nextTask := 5
  current := 2
  initTask := some init
  objects _ := Lib.RefTable.empty

theorem familySystem_ownsChildren (init : TaskId) : (familySystem init).OwnsChildren 2 := by
  intro child hchild q
  have hcount : ∀ child ∈ [3, 4], List.count child [3, 4] = 1 := by decide
  by_cases hq : q = 2
  · subst hq
    exact hcount child hchild
  · simp [familySystem, hq]

theorem reparent_leaves_no_orphan_pair : ∃ fuel s',
    (familySystem 1).taskReparentChildren 2 fuel = some s' ∧ NoOrphan (familySystem 1) s' 2 :=
  (reparent_leaves_no_orphan_iff (familySystem 1) 2 (familySystem_ownsChildren 1)).mpr
    (.inr (by decide))

/-- Init exits with two children: the loop does not end. -/
theorem reparent_never_ends : (∀ fuel, (familySystem 2).taskReparentChildren 2 fuel = none) ∧
      ¬∃ fuel s', (familySystem 2).taskReparentChildren 2 fuel = some s' ∧
        NoOrphan (familySystem 2) s' 2 := by
  have hnever : ∀ fuel, (familySystem 2).taskReparentChildren 2 fuel = none :=
    fun fuel => reparentLoop_self (s := familySystem 2) rfl rfl fuel
  refine ⟨hnever, ?_⟩
  rintro ⟨fuel, s', hends, -⟩
  exact absurd ((hnever fuel).symm.trans hends) (Option.some_ne_none _).symm

end CuteOS.Kernel.System
