/-
  Kernel/ChildReports.lean --- what `wait4` reports about stops and continues.

  Sources: `kernel/task.c` (`task_child_event_publish_locked`,
  `task_child_event_claim_next`, `task_child_event_commit`, `task_child_event_abort`,
  `task_child_release_zombie`), `kernel/exit.c` (`kernel_wait4`, `kernel_wait4_finish`).

  One child and the calls of its parent.  The changes of the child are queued, and a call
  takes the oldest record of a kind that it asks for, which may be older than the state
  the child is in.
-/
import CuteOS.Kernel.Signal
import CuteOS.Lib.Runs

set_option autoImplicit false

namespace CuteOS.Kernel

/-- `struct task_child_event_record`, with its sequence number. -/
structure EventRecord where
  type : ChildEventType
  sequence : Nat
  claimed : Bool := false

/-- `event_mask`. -/
abbrev EventMask := ChildEventType → Bool

/-- `wait4_event_mask`. -/
def wait4EventMask (untraced continued : Bool) : EventMask
  | .exit => true
  | .stop => untraced
  | .continue => continued

/-- `struct task_child_event_claim`, with the mask of the call. -/
structure Report where
  type : ChildEventType
  sequence : Nat
  mask : EventMask

/-- The child, and the call of its parent that has claimed a record.  `history` and
`reports` are not in the code: all the changes of the child, and what has been reported
with the newest report first. -/
structure WaitedChild where
  state : TaskState := .running
  nextSequence : Nat := 0
  childEvents : List EventRecord := []
  claim : Option Report := none
  history : List ChildEventType := []
  reports : List Report := []

namespace WaitedChild

inductive Act where
  /-- `stop_current`. -/
  | stop
  /-- `SIGCONT` for a stopped child. -/
  | cont
  /-- `SIGKILL` wakes a stopped child. -/
  | kill
  /-- `task_child_publish_exit`. -/
  | exit
  /-- `kernel_wait4` finds a record. -/
  | wait4 (mask : EventMask)
  /-- `kernel_wait4_finish`. -/
  | finish
  /-- `kernel_wait4_abort`. -/
  | abort

/-- `task_child_event_publish_locked`. -/
def publish (c : WaitedChild) (type : ChildEventType) (state : TaskState) : WaitedChild :=
  { c with
    state := state
    nextSequence := c.nextSequence + 1
    childEvents := c.childEvents ++ [⟨type, c.nextSequence + 1, false⟩]
    history := c.history ++ [type] }

/-- Set the claimer of the record with a number. -/
def setClaimed (c : WaitedChild) (sequence : Nat) (claimed : Bool) : List EventRecord :=
  c.childEvents.map fun e => if e.sequence = sequence then { e with claimed := claimed } else e

/-- `task_child_event_find_locked`. -/
def findEvent (c : WaitedChild) (mask : EventMask) : Option EventRecord :=
  c.childEvents.find? fun e => !e.claimed && mask e.type

/-- One step; a parent has one call in progress. -/
def next (c : WaitedChild) : Act → Option WaitedChild
  | .stop => if c.state = .running then some (c.publish .stop .stopped) else none
  | .cont => if c.state = .stopped then some (c.publish .continue .running) else none
  | .kill => if c.state = .stopped then some { c with state := .running } else none
  | .exit => if c.state = .running then some (c.publish .exit .zombie) else none
  | .wait4 mask =>
    if c.claim.isSome then none
    else (c.findEvent mask).map fun e =>
      { c with
        childEvents := c.setClaimed e.sequence true
        claim := some ⟨e.type, e.sequence, mask⟩ }
  | .finish => c.claim.map fun r =>
    let c := { c with claim := none, reports := r :: c.reports }
    if r.type = .exit then { c with state := .dead, childEvents := [] }
    else { c with childEvents := c.childEvents.filter (·.sequence ≠ r.sequence) }
  | .abort => c.claim.map fun r =>
    { c with claim := none, childEvents := c.setClaimed r.sequence false }

/-- The changes of the child with their numbers. -/
def changes (c : WaitedChild) : List (ChildEventType × Nat) := c.history.zipIdx 1

/-- The numbers that have been reported. -/
def reported (c : WaitedChild) : List Nat := c.reports.map (·.sequence)

/-- Each report came after those of all the earlier changes that its call asked for. -/
def Ordered (changes : List (ChildEventType × Nat)) : List Report → Prop
  | [] => True
  | r :: before => Ordered changes before ∧ ∀ k ∈ changes, k.2 < r.sequence → r.mask k.1 = true →
      k.2 ∈ before.map (·.sequence)

/-- What the parent is told. -/
structure Faithful (c : WaitedChild) : Prop where
  happened : ∀ r ∈ c.reports, (r.type, r.sequence) ∈ c.changes ∧ r.mask r.type = true
  once : c.reported.Nodup
  ordered : Ordered c.changes c.reports
  gone : (∃ r ∈ c.reports, r.type = .exit) → c.childEvents = []

/-- What a record stands for. -/
def EventRecord.change (e : EventRecord) : ChildEventType × Nat := (e.type, e.sequence)

/-- What holds of the child and of the call in progress. -/
structure Inv (c : WaitedChild) : Prop where
  happened : ∀ r ∈ c.reports, (r.type, r.sequence) ∈ c.changes ∧ r.mask r.type = true
  once : c.reported.Nodup
  ordered : Ordered c.changes c.reports
  alive : c.state ≠ .dead → ∀ r ∈ c.reports, r.type ≠ .exit
  numbered : c.nextSequence = c.history.length
  queued : c.childEvents.map EventRecord.change =
    if c.state = .dead then [] else c.changes.filter fun k => k.2 ∉ c.reported
  owned : ∀ e ∈ c.childEvents, e.claimed = true → ∃ r, c.claim = some r ∧ r.sequence = e.sequence
  claimed : ∀ r, c.claim = some r → r.mask r.type = true ∧
    (r.type, r.sequence) ∈ c.childEvents.map EventRecord.change ∧
    ∀ k ∈ c.changes, k.2 < r.sequence → r.mask k.1 = true → k.2 ∈ c.reported

variable {c c' : WaitedChild}

theorem Inv.faithful (h : c.Inv) : c.Faithful := by
  refine ⟨h.happened, h.once, h.ordered, ?_⟩
  rintro ⟨r, hr, hexit⟩
  by_cases hdead : c.state = .dead
  · have hqueued := h.queued
    rw [if_pos hdead] at hqueued
    exact List.map_eq_nil_iff.mp hqueued
  · exact absurd hexit (h.alive hdead r hr)

variable {k : ChildEventType × Nat}

/-- A queued record is a change that has not been reported, of a child that has not been
released. -/
theorem Inv.of_mem (h : c.Inv) (hk : k ∈ c.childEvents.map EventRecord.change) :
    c.state ≠ .dead ∧ k ∈ c.changes ∧ k.2 ∉ c.reported := by
  rw [h.queued] at hk
  split_ifs at hk with hdead
  · cases hk
  · obtain ⟨hmem, hnew⟩ := List.mem_filter.mp hk
    exact ⟨hdead, hmem, of_decide_eq_true hnew⟩

theorem le_of_mem_changes (h : k ∈ c.changes) : k.2 ≤ c.history.length := by
  have hlt := List.snd_lt_add_of_mem_zipIdx h
  omega

/-- The records are queued in the order of the changes. -/
theorem Inv.sorted (h : c.Inv) : c.childEvents.Pairwise fun e f => e.sequence < f.sequence := by
  have hall : c.changes.Pairwise fun k l => k.2 < l.2 := by
    rw [← List.pairwise_map (f := Prod.snd), changes, List.zipIdx_map_snd]
    exact List.pairwise_lt_range'
  have hkeys : (c.childEvents.map EventRecord.change).Pairwise fun k l => k.2 < l.2 := by
    rw [h.queued]
    split
    · exact .nil
    · exact hall.filter _
  exact (List.pairwise_map (f := EventRecord.change)).mp hkeys

theorem Ordered.publish {changes : List (ChildEventType × Nat)} {reports : List Report}
    (h : Ordered changes reports) (hk : ∀ r ∈ reports, r.sequence ≤ k.2) :
    Ordered (changes ++ [k]) reports := by
  induction reports with
  | nil => trivial
  | cons r before ih =>
    refine ⟨ih h.1 fun r hr => hk r (List.mem_cons_of_mem _ hr), fun l hl hlt hmask => ?_⟩
    rcases List.mem_append.mp hl with hl | hl
    · exact h.2 l hl hlt hmask
    · obtain rfl := List.mem_singleton.mp hl
      exact absurd hlt (Nat.not_lt.mpr (hk r List.mem_cons_self))

theorem map_change_setClaimed (c : WaitedChild) (sequence : Nat) (claimed : Bool) :
    (c.setClaimed sequence claimed).map EventRecord.change =
      c.childEvents.map EventRecord.change := by
  rw [setClaimed, List.map_map]
  refine List.map_congr_left fun e _ => ?_
  simp only [Function.comp_apply]
  split_ifs <;> rfl

/-! ## What a step keeps -/

section

variable (h : c.Inv)
include h

theorem Inv.publish (halive : c.state ≠ .dead) (type : ChildEventType)
    {state : TaskState} (hstate : state ≠ .dead) : (c.publish type state).Inv := by
  have hchanges : (c.publish type state).changes = c.changes ++ [(type, c.nextSequence + 1)] := by
    simp [changes, WaitedChild.publish, List.zipIdx_append, h.numbered, Nat.add_comm]
  have hold : ∀ k ∈ c.changes, k.2 ≤ c.nextSequence := by
    intro k hk
    rw [h.numbered]
    exact le_of_mem_changes hk
  have hreported : ∀ r ∈ c.reports, r.sequence ≤ c.nextSequence :=
    fun r hr => hold _ (h.happened r hr).1
  constructor
  · intro r hr
    rw [hchanges]
    exact ⟨List.mem_append_left _ (h.happened r hr).1, (h.happened r hr).2⟩
  · exact h.once
  · rw [hchanges]
    exact h.ordered.publish fun r hr => Nat.le_succ_of_le (hreported r hr)
  · exact fun _ => h.alive halive
  · simp [WaitedChild.publish, h.numbered]
  · have hnew : c.nextSequence + 1 ∉ c.reported := by
      intro hmem
      obtain ⟨r, hr, heq⟩ := List.mem_map.mp hmem
      have hle := hreported r hr
      omega
    have hqueued := h.queued
    rw [if_neg halive] at hqueued
    rw [hchanges]
    change List.map _ (c.childEvents ++ _) = if state = .dead then []
      else List.filter (fun k : ChildEventType × Nat => k.2 ∉ c.reported) _
    rw [if_neg hstate, List.map_append, hqueued]
    simp [EventRecord.change, hnew]
  · intro e he hclaimed
    rcases List.mem_append.mp he with he | he
    · exact h.owned e he hclaimed
    · rw [List.mem_singleton.mp he] at hclaimed
      cases hclaimed
  · intro r hr
    obtain ⟨hmask, hmem, horder⟩ := h.claimed r hr
    refine ⟨hmask, ?_, ?_⟩
    · simp only [WaitedChild.publish, List.map_append]
      exact List.mem_append_left _ hmem
    · intro k hk hlt
      rw [hchanges] at hk
      rcases List.mem_append.mp hk with hk | hk
      · exact horder k hk hlt
      · have hle := hold _ (h.of_mem hmem).2.1
        rw [List.mem_singleton.mp hk] at hlt
        exact absurd hlt (Nat.not_lt.mpr (Nat.le_succ_of_le hle))

theorem Inv.wait4 {mask : EventMask} (hnone : c.claim = none) {e : EventRecord}
    (hfind : c.findEvent mask = some e) :
    Inv { c with
      childEvents := c.setClaimed e.sequence true
      claim := some ⟨e.type, e.sequence, mask⟩ } := by
  have hunclaimed : ∀ e ∈ c.childEvents, e.claimed = false := by
    intro e he
    cases hclaimed : e.claimed with
    | false => rfl
    | true =>
      obtain ⟨r, hr, -⟩ := h.owned e he hclaimed
      exact absurd (hnone.symm.trans hr) (Option.some_ne_none r).symm
  obtain ⟨hmatch, before, after, hsplit, hfirst⟩ := List.find?_eq_some_iff_append.mp hfind
  have hmem : e ∈ c.childEvents := List.mem_of_find?_eq_some hfind
  refine ⟨h.happened, h.once, h.ordered, h.alive, h.numbered, ?_, ?_, ?_⟩
  · exact (map_change_setClaimed c _ _).trans h.queued
  · intro f hf hclaimed
    obtain ⟨f, hin, rfl⟩ := List.mem_map.mp hf
    split_ifs at hclaimed ⊢ with hsame
    · exact ⟨_, rfl, hsame.symm⟩
    · rw [hunclaimed f hin] at hclaimed
      cases hclaimed
  · rintro r ⟨⟩
    refine ⟨(Bool.and_eq_true_iff.mp hmatch).2, ?_, ?_⟩
    · rw [map_change_setClaimed]
      exact List.mem_map_of_mem hmem
    · intro k hk hlt hmask
      by_contra hnew
      have hqueued : k ∈ c.childEvents.map EventRecord.change := by
        rw [h.queued, if_neg (h.of_mem (List.mem_map_of_mem hmem)).1]
        exact List.mem_filter.mpr ⟨hk, decide_eq_true hnew⟩
      obtain ⟨f, hf, rfl⟩ := List.mem_map.mp hqueued
      -- an older record that the mask selects would have been found first
      have hsorted := h.sorted
      rw [hsplit] at hsorted hf
      rcases List.mem_append.mp hf with hf | hf
      · have hskip := hfirst f hf
        rw [hunclaimed f (hsplit ▸ List.mem_append_left _ hf)] at hskip
        simp [EventRecord.change] at hmask
        simp [hmask] at hskip
      · rcases List.mem_cons.mp hf with rfl | hf
        · exact absurd hlt (Nat.lt_irrefl _)
        · have hlater := (List.pairwise_append.mp hsorted).2.1
          exact absurd hlt (Nat.lt_asymm ((List.pairwise_cons.mp hlater).1 f hf))

variable {r : Report}

theorem Inv.finish (hr : c.claim = some r) (hnext : c.next .finish = some c') : c'.Inv := by
  obtain ⟨hmask, hmem, horder⟩ := h.claimed r hr
  obtain ⟨halive, hchange, hnew⟩ := h.of_mem hmem
  have hqueued := h.queued
  rw [if_neg halive] at hqueued
  have hhappened : ∀ s ∈ r :: c.reports,
      (s.type, s.sequence) ∈ c.changes ∧ s.mask s.type = true := by
    intro s hs
    rcases List.mem_cons.mp hs with rfl | hs
    · exact ⟨hchange, hmask⟩
    · exact h.happened s hs
  have honce : (r.sequence :: c.reported).Nodup := List.nodup_cons.mpr ⟨hnew, h.once⟩
  rw [next, hr] at hnext
  simp only [Option.map_some] at hnext
  split_ifs at hnext with hexit
  · cases hnext
    refine ⟨hhappened, honce, ⟨h.ordered, horder⟩, ?_, h.numbered, rfl, ?_, ?_⟩
    · exact fun hdead => absurd rfl hdead
    · rintro e ⟨⟩
    · rintro r ⟨⟩
  · cases hnext
    refine ⟨hhappened, honce, ⟨h.ordered, horder⟩, ?_, h.numbered, ?_, ?_, ?_⟩
    · intro _ s hs
      rcases List.mem_cons.mp hs with rfl | hs
      · exact hexit
      · exact h.alive halive s hs
    · have hkeep : c.changes.filter (fun k => k.2 ∉ r.sequence :: c.reported) =
          (c.changes.filter fun k => k.2 ∉ c.reported).filter fun k => k.2 ≠ r.sequence := by
        simp [not_or]
      refine Eq.trans ?_ (if_neg halive).symm
      refine Eq.trans ?_ hkeep.symm
      rw [← hqueued, List.filter_map]
      rfl
    · intro e he hclaimed
      obtain ⟨hin, hne⟩ := List.mem_filter.mp he
      obtain ⟨s, hs, heq⟩ := h.owned e hin hclaimed
      cases hr.symm.trans hs
      exact absurd heq.symm (of_decide_eq_true hne)
    · rintro r ⟨⟩

theorem Inv.abort (hr : c.claim = some r) :
    Inv { c with claim := none, childEvents := c.setClaimed r.sequence false } := by
  refine ⟨h.happened, h.once, h.ordered, h.alive, h.numbered, ?_, ?_, ?_⟩
  · exact (map_change_setClaimed c _ _).trans h.queued
  · intro f hf hclaimed
    obtain ⟨f, hin, rfl⟩ := List.mem_map.mp hf
    split_ifs at hclaimed with hsame
    obtain ⟨s, hs, heq⟩ := h.owned f hin hclaimed
    cases hr.symm.trans hs
    exact absurd heq.symm hsame
  · rintro r ⟨⟩

theorem Inv.next {a : Act} (hnext : c.next a = some c') : c'.Inv := by
  cases a with
  | stop | cont | exit =>
    rw [WaitedChild.next] at hnext
    split_ifs at hnext with hstate
    cases hnext
    exact h.publish (by rw [hstate]; decide) _ (by decide)
  | kill =>
    rw [WaitedChild.next] at hnext
    split_ifs at hnext with hstate
    cases hnext
    have halive : c.state ≠ .dead := by rw [hstate]; decide
    exact { h with
      alive := fun _ => h.alive halive
      queued := h.queued.trans (if_neg halive) }
  | wait4 mask =>
    rw [WaitedChild.next] at hnext
    split_ifs at hnext with hclaim
    obtain ⟨e, hfind, rfl⟩ := Option.map_eq_some_iff.mp hnext
    exact h.wait4 (by simpa using hclaim) hfind
  | finish =>
    obtain ⟨r, hr, -⟩ := Option.map_eq_some_iff.mp hnext
    exact h.finish hr hnext
  | abort =>
    obtain ⟨r, hr, rfl⟩ := Option.map_eq_some_iff.mp hnext
    exact h.abort hr

end

/-- Over every run, each report is of a change that happened and that the call asked for,
no change is reported twice, older changes that a call asks for are reported first, and
nothing is left once the exit has been reported. -/
theorem child_reports_faithful {c : WaitedChild}
    (hrun : Lib.Runs (fun c a c' => c.next a = some c') (fun _ _ => True) {} c) : c.Faithful := by
  have hstart : Inv ({} : WaitedChild) := by
    constructor <;> simp [changes, reported, Ordered]
  exact (hrun.induct hstart fun _ _ _ h _ hnext => h.next hnext).faithful

theorem child_reports_faithful_stop : ∃ c : WaitedChild,
    c.reports.map (·.type) = [.stop] ∧ c.Faithful := by
  have hrun : (Lib.runAll next (fun _ _ => true)
      [.stop, .wait4 (wait4EventMask true false), .finish] {}).any
        (fun c => decide (c.reports.map (·.type) = [.stop])) = true := by decide
  obtain ⟨c, hc, hreports⟩ := (Option.any_eq_true _ _).mp hrun
  exact ⟨c, of_decide_eq_true hreports,
    child_reports_faithful (.of_runAll (fun _ _ _ heq => heq) (fun _ _ _ => trivial) hc)⟩

/-- The child has been continued when its stop is reported. -/
theorem stale_stop_reported : ∃ c c' : WaitedChild,
    Lib.Runs (fun c a c' => c.next a = some c') (fun _ _ => True) {} c ∧
      c.next .finish = some c' ∧ c.state = .running ∧ c'.reports.map (·.type) = [.stop] := by
  have hrun : (Lib.runAll next (fun _ _ => true)
      [.stop, .cont, .wait4 (wait4EventMask true false)] {}).any
        (fun c => decide (c.state = .running) && (c.next .finish).any
          fun c => decide (c.reports.map (·.type) = [.stop])) = true := by decide
  obtain ⟨c, hc, hstale⟩ := (Option.any_eq_true _ _).mp hrun
  rw [Bool.and_eq_true, decide_eq_true_iff] at hstale
  obtain ⟨c', hfinish, hreports⟩ := (Option.any_eq_true _ _).mp hstale.2
  exact ⟨c, c', .of_runAll (fun _ _ _ heq => heq) (fun _ _ _ => trivial) hc, hfinish, hstale.1,
    of_decide_eq_true hreports⟩

/-! ## The child in the whole system -/

/-- Task `t` of the system is this child. -/
structure Shows (c : WaitedChild) (s : System) (t : TaskId) : Prop where
  state : (s.task t).state = c.state
  events : (s.task t).childEvents.map (fun e => (e.type, e.claimer.isSome)) =
    c.childEvents.map fun e => (e.type, e.claimed)

variable {s : System} {t : TaskId}

theorem Shows.publish (h : c.Shows s t) {event : ChildEvent} (hnew : event.claimer = none)
    (state : TaskState) :
    (c.publish event.type state).Shows ((s.setState t state).recordChildEvent t event) t := by
  constructor
  · simp [WaitedChild.publish, System.recordChildEvent, System.setState]
  · simp [WaitedChild.publish, System.recordChildEvent, System.setState, h.events, hnew]

/-- The record that `taskChildEventObserve` finds is the one of `findEvent`. -/
theorem Shows.findEvent (h : c.Shows s t) (mask : EventMask) :
    ((s.task t).childEvents.find? fun e => e.claimer.isNone && mask e.type).map (·.type) =
      (c.findEvent mask).map (·.type) := by
  have hfind := congrArg (List.find? fun k : ChildEventType × Bool => !k.2 && mask k.1) h.events
  rw [List.find?_map, List.find?_map] at hfind
  have htype := congrArg (Option.map Prod.fst) hfind
  simpa [Function.comp_def, WaitedChild.findEvent] using htype

end WaitedChild

end CuteOS.Kernel
