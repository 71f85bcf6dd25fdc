/-
  Jobs/Groups.lean --- thread groups, process groups and the console, without the rest.

  The abstract model of job control: who leads whom, the numbers of process groups and
  sessions, and who owns the console.  `next_does` says what every step of the table does
  to it: threads go, one of a few moves is made, and threads go again.  Invariants of job
  control are shown for these moves.
-/
import CuteOS.Jobs.Table
import CuteOS.Lib.Runs

set_option autoImplicit false

namespace CuteOS.Jobs

open Function (update update_self update_of_ne update_eq_self)
open Relation (ReflTransGen)
open Option (map_eq_some_iff bind_eq_some_iff)

/-! ## The abstract model -/

/-- What job control knows of a task. -/
structure Member where
  leader : Pid
  pgid : Pid
  sid : Pid
  zombie : Bool
  threads : List Pid

abbrev Members := Pid → Option Member

/-- The members, the threads that wait to be released, and the console. -/
structure Roster where
  member : Members
  exited : List Pid
  console : Console

/-- A process, which may have exited. -/
def Members.Leads (V : Members) (p : Pid) : Prop := ∃ m, V p = some m ∧ m.leader = p

/-- A task of the group and session that is alive. -/
def Members.LiveMember (V : Members) (pgid sid : Pid) (ignored : Option Pid) : Prop :=
  ∃ p m, V p = some m ∧ ignored ≠ some p ∧ m.pgid = pgid ∧ m.sid = sid ∧ m.zombie = false

/-- The tasks of one process get another group, and perhaps another session. -/
def Members.setIds (V : Members) (l : Pid) (threads : List Pid) (pgid : Pid)
    (sid : Option Pid) : Members := fun p =>
  if p = l ∨ p ∈ threads then (V p).map fun m => { m with pgid := pgid, sid := sid.getD m.sid }
  else V p

variable {l pgid : Pid} {sid : Option Pid}
variable {V : Members} {p : Pid} {threads : List Pid}

/-- Other numbers leave the groups as they are. -/
theorem Members.setIds_eq_some {m' : Member} (h : V.setIds l threads pgid sid p = some m') :
    ∃ m, V p = some m ∧ m'.zombie = m.zombie ∧ m'.threads = m.threads ∧
      (m'.pgid = m.pgid ∧ m'.sid = m.sid ∧ p ≠ l ∧ p ∉ threads ∨
        m'.pgid = pgid ∧ m'.sid = sid.getD m.sid) := by
  unfold Members.setIds at h
  split_ifs at h with hin
  · obtain ⟨m, hm, rfl⟩ := map_eq_some_iff.mp h
    exact ⟨m, hm, rfl, rfl, .inr ⟨rfl, rfl⟩⟩
  · obtain ⟨hne, hnotin⟩ := not_or.mp hin
    exact ⟨m', h, rfl, rfl, .inl ⟨rfl, rfl, hne, hnotin⟩⟩

variable {m : Member}

/-- Every task is still there. -/
theorem Members.setIds_of_some (h : V p = some m) :
    ∃ m', V.setIds l threads pgid sid p = some m' ∧ m'.leader = m.leader ∧
      m'.zombie = m.zombie ∧ (p = l → m'.pgid = pgid ∧ m'.sid = sid.getD m.sid) ∧
      (p ≠ l → p ∉ threads → m' = m) := by
  simp only [Members.setIds, h]
  split_ifs with hin
  · refine ⟨_, rfl, rfl, rfl, fun _ => ⟨rfl, rfl⟩, fun hne hnotin => ?_⟩
    exact absurd hin (not_or.mpr ⟨hne, hnotin⟩)
  · exact ⟨m, rfl, rfl, rfl, fun heq => absurd (.inl heq) hin, fun _ _ => rfl⟩

/-- The console after a look at a group that may have become empty. -/
def Tidied (V : Members) (c c' : Console) (pgid sid : Pid) (ignored : Option Pid) : Prop :=
  c'.session = c.session ∧
    (c'.foregroundPgid = 0 ∨ c'.foregroundPgid = c.foregroundPgid ∧
      (c.session = sid → c.foregroundPgid = pgid → sid ≠ 0 → pgid ≠ 0 →
        V.LiveMember pgid sid ignored))

/-- A thread that leads no group ends, or is released. -/
inductive ThreadMove : Roster → Roster → Prop
  | ends {j : Roster} {u : Pid} {x y : Member} (exited : List Pid) (hu : j.member u = some x)
      (hthread : x.leader ≠ u) (hlive : x.zombie = false) (hy : j.member x.leader = some y)
      (hexited : exited = j.exited ∨ exited = j.exited ++ [u]) :
      ThreadMove j ⟨update
        (update j.member x.leader (some { y with threads := y.threads.erase u })) u
        (some { x with zombie := true }), exited, j.console⟩
  | goes {j : Roster} {u : Pid} {x : Member} (hu : j.member u = some x)
      (hthread : x.leader ≠ u) (hzombie : x.zombie = true) :
      ThreadMove j ⟨update j.member u none, j.exited.erase u, j.console⟩

/-- The other moves.  A process is released under `R`, and ends before its threads
under `Q`. -/
inductive Move (R Q : Roster → Pid → Prop) : Roster → Roster → Prop
  | forks {j : Roster} {p child : Pid} {m : Member} {c : Console} (hp : j.member p = some m)
      (hfree : j.member child = none) (hlt : child < pidCount)
      (hsession : c.session = j.console.session)
      (hforeground : c.foregroundPgid = j.console.foregroundPgid) :
      Move R Q j ⟨update j.member child (some ⟨child, m.pgid, m.sid, false, []⟩),
        j.exited, c⟩
  | clones {j : Roster} {l child p : Pid} {m x : Member} (hl : j.member l = some m)
      (hleads : m.leader = l) (hlive : m.zombie = false) (hfree : j.member child = none)
      (hlt : child < pidCount) (hp : j.member p = some x) (hcaller : x.leader = l)
      (hruns : p ≠ 0 ∧ x.zombie = false) :
      Move R Q j ⟨update
        (update j.member l (some { m with threads := m.threads ++ [child] })) child
        (some ⟨l, m.pgid, m.sid, false, []⟩), j.exited, j.console⟩
  | setsIds {j : Roster} {l pgid : Pid} {sid : Option Pid} {m : Member} {c : Console}
      (hl : j.member l = some m) (hleads : m.leader = l)
      (hpgid : pgid = l ∨ ∃ q x, j.member q = some x ∧ x.pgid = pgid)
      (hsid : sid = none ∨ sid = some l)
      (hc : Tidied (j.member.setIds l m.threads pgid sid) j.console c m.pgid m.sid none) :
      Move R Q j ⟨j.member.setIds l m.threads pgid sid, j.exited, c⟩
  | frees {j : Roster} {c : Console} (hsession : c.session = 0)
      (hforeground : c.foregroundPgid = 0) :
      Move R Q j ⟨j.member, j.exited, c⟩
  | tidies {j : Roster} {c : Console} (hsession : c.session = j.console.session)
      (hforeground : c.foregroundPgid = 0 ∨ c.foregroundPgid = j.console.foregroundPgid) :
      Move R Q j ⟨j.member, j.exited, c⟩
  | acquires {j : Roster} {l : Pid} {m : Member} {c : Console} (hl : j.member l = some m)
      (hleads : m.leader = l) (hlive : m.zombie = false) (hsid : m.sid = l) (hpos : l ≠ 0)
      (hsession : c.session = l) (hforeground : c.foregroundPgid = m.pgid) :
      Move R Q j ⟨j.member, j.exited, c⟩
  | shows {j : Roster} {c : Console} (hpos : j.console.session ≠ 0)
      (hsession : c.session = j.console.session)
      (hmember : j.member.LiveMember c.foregroundPgid c.session none) :
      Move R Q j ⟨j.member, j.exited, c⟩
  | ends {j : Roster} {l : Pid} {m : Member} {c : Console} (hl : j.member l = some m)
      (hleads : m.leader = l) (hlive : m.zombie = false) (hthreads : m.threads = [] ∨ Q j l)
      (hc : c.session = 0 ∧ c.foregroundPgid = 0 ∨ (m.sid = l → j.console.session = l → l = 0) ∧
        Tidied j.member j.console c m.pgid m.sid (some l)) :
      Move R Q j ⟨update j.member l (some { m with zombie := true }), j.exited, c⟩
  | goes {j : Roster} {l : Pid} {m : Member} (hl : j.member l = some m)
      (hleads : m.leader = l) (hzombie : m.zombie = true) (hthreads : m.threads = [])
      (hr : R j l) :
      Move R Q j ⟨update j.member l none, j.exited.erase l, j.console⟩

/-! ## Well-formed groups -/

/-- The threads of a group and its leader know each other. -/
structure Grouped (j : Roster) : Prop where
  bound : ∀ u m, j.member u = some m → u < pidCount
  thread : ∀ u x, j.member u = some x → x.leader ≠ u → x.zombie = false →
    ∃ y, j.member x.leader = some y ∧ y.leader = x.leader ∧ u ∈ y.threads ∧
      x.pgid = y.pgid ∧ x.sid = y.sid
  threads : ∀ l y u, j.member l = some y → u ∈ y.threads → y.leader = l ∧ u ≠ l ∧
    ∃ x, j.member u = some x ∧ x.leader = l ∧ x.zombie = false
  nodup : ∀ l y, j.member l = some y → y.threads.Nodup
  exited : ∀ u ∈ j.exited, ∃ x, j.member u = some x ∧ x.zombie = true ∧ x.leader ≠ u
  once : j.exited.Nodup

/-- A process that has exited has no threads, but for one that is just going. -/
def Alive (j : Roster) (going : Option Pid := none) : Prop :=
  ∀ l y, j.member l = some y → going ≠ some l → y.zombie = true → y.threads = []

variable {u : Pid}

variable {j : Roster}
variable {x : Member}

/-- The leader of a thread that is alive is alive. -/
theorem Grouped.leader_alive (h : Grouped j) (ha : Alive j) (hu : j.member u = some x)
    (hlive : x.zombie = false) :
    ∃ y, j.member x.leader = some y ∧ y.leader = x.leader ∧ y.zombie = false ∧
      x.pgid = y.pgid ∧ x.sid = y.sid := by
  by_cases hself : x.leader = u
  · exact ⟨x, by rw [hself, hu], rfl, hlive, rfl, rfl⟩
  · obtain ⟨y, hy, hleads, hmem, hpgid, hsid⟩ := h.thread u x hu hself hlive
    refine ⟨y, hy, hleads, ?_, hpgid, hsid⟩
    rw [Bool.eq_false_iff]
    intro hz
    rw [ha _ y hy (Option.some_ne_none _).symm hz] at hmem
    cases hmem

variable {j' : Roster}

/-- Only leaders have threads. -/
theorem Grouped.no_threads (h : Grouped j) (hu : j.member u = some x) (hne : x.leader ≠ u) :
    x.threads = [] :=
  List.eq_nil_iff_forall_not_mem.mpr fun v hv => hne (h.threads u x v hu hv).1

/-- The list of exited threads has no task that is alive. -/
theorem Grouped.not_exited (h : Grouped j) (hu : j.member u = some x) (hlive : x.zombie = false) :
    u ∉ j.exited := by
  intro hmem
  obtain ⟨m, hm, hzombie, -⟩ := h.exited u hmem
  cases hu.symm.trans hm
  cases hlive.symm.trans hzombie

/-- A number is in no list if nobody alive has it. -/
theorem Grouped.not_listed (h : Grouped j) (hu : ∀ x, j.member u = some x → x.zombie = true)
    {y : Member} (hl : j.member l = some y) : u ∉ y.threads := by
  intro hmem
  obtain ⟨-, -, x, hx, -, hlive⟩ := h.threads l y u hl hmem
  cases hlive.symm.trans (hu x hx)

/-- A zombie without threads can be released. -/
theorem Grouped.release (h : Grouped j) (hu : j.member u = some x) (hzombie : x.zombie = true)
    (hthreads : x.threads = []) :
    Grouped ⟨update j.member u none, j.exited.erase u, j.console⟩ := by
  have hlook : ∀ v m, update j.member u none v = some m ↔ v ≠ u ∧ j.member v = some m := by
    grind
  -- it is in no list, and leads no task that is alive
  have hlisted : ∀ l y, j.member l = some y → u ∉ y.threads := by
    intro l y
    apply h.not_listed
    grind
  have hleads : ∀ v m, j.member v = some m → m.leader ≠ v → m.zombie = false → m.leader ≠ u := by
    intro v m hv hne hlive hlead
    obtain ⟨y, hy, -, hmem, -⟩ := h.thread v m hv hne hlive
    grind
  refine ⟨fun v m hv => h.bound v m ((hlook v m).mp hv).2, fun v m hv hne hlive => ?_,
    fun l y v hl hmem => ?_, fun l y hl => h.nodup l y ((hlook l y).mp hl).2, fun v hv => ?_,
    h.once.erase u⟩
  · have hv := ((hlook v m).mp hv).2
    obtain ⟨y, hy, hrest⟩ := h.thread v m hv hne hlive
    exact ⟨y, (hlook _ y).mpr ⟨hleads v m hv hne hlive, hy⟩, hrest⟩
  · have hl := ((hlook l y).mp hl).2
    obtain ⟨hself, hne, m, hm, hrest⟩ := h.threads l y v hl hmem
    exact ⟨hself, hne, m, (hlook v m).mpr ⟨fun heq => hlisted l y hl (heq ▸ hmem), hm⟩, hrest⟩
  · obtain ⟨hne, hmem⟩ := h.once.mem_erase_iff.mp hv
    obtain ⟨m, hm, hrest⟩ := h.exited v hmem
    exact ⟨m, (hlook v m).mpr ⟨hne, hm⟩, hrest⟩

theorem ThreadMove.grouped (h : ThreadMove j j') (hg : Grouped j) : Grouped j' := by
  have hbound := hg.bound
  cases h with
  | goes hu hthread hzombie => exact hg.release hu hzombie (hg.no_threads hu hthread)
  | @ends u x y exited hu hthread hlive hy hexited =>
    -- the thread moves from the list of its leader to the one of the exited threads
    have hnone := hg.no_threads hu hthread
    have hfresh := hg.not_exited hu hlive
    have hlist : ∀ v, v ∈ y.threads.erase u ↔ v ≠ u ∧ v ∈ y.threads :=
      fun v => (hg.nodup _ y hy).mem_erase_iff
    constructor
    case bound => grind
    case thread => grind [hg.thread]
    case threads => grind [hg.threads]
    case nodup => grind [hg.nodup]
    case exited => grind [hg.exited]
    case once => grind [hg.once]

theorem Move.grouped {R Q : Roster → Pid → Prop} (h : Move R Q j j')
    (hg : Grouped j) : Grouped j' := by
  have hbound := hg.bound
  cases h with
  | frees | tidies | acquires | shows =>
    exact ⟨hbound, hg.thread, hg.threads, hg.nodup, hg.exited, hg.once⟩
  | goes hl hleads hzombie hthreads hr => exact hg.release hl hzombie hthreads
  | @forks p child m c hp hfree hlt hsession hforeground =>
    -- the child leads itself, and was in no list
    have hnew := fun l y => hg.not_listed (u := child) (l := l) (y := y) (by simp [hfree])
    constructor
    case bound => grind
    case thread => grind [hg.thread]
    case threads => grind [hg.threads]
    case nodup => grind [hg.nodup]
    case exited => grind [hg.exited]
    case once => exact hg.once
  | @clones l child p m x hl hleads hlive hfree hlt hp hcaller hruns =>
    -- the child takes the numbers of the leader, and no list has it twice
    have hnew := fun l y => hg.not_listed (u := child) (l := l) (y := y) (by simp [hfree])
    have hnodup : (m.threads ++ [child]).Nodup := by grind [hg.nodup]
    constructor
    case bound => grind
    case thread => grind [hg.thread]
    case threads => grind [hg.threads]
    case nodup => grind [hg.nodup]
    case exited => grind [hg.exited]
    case once => exact hg.once
  | @setsIds l pgid sid m c hl hleads hpgid hsid hc =>
    -- the leader and its threads are changed together
    constructor
    case bound =>
      intro v x hv
      obtain ⟨y, hy, -⟩ := Members.setIds_eq_some hv
      exact hbound v y hy
    case thread => grind [Members.setIds, hg.thread, hg.threads]
    case threads => grind [Members.setIds, hg.threads]
    case nodup =>
      intro v x hv
      obtain ⟨y, hy, -, hthreads, -⟩ := Members.setIds_eq_some hv
      exact hthreads ▸ hg.nodup v y hy
    case exited => grind [Members.setIds, hg.exited]
    case once => exact hg.once
  | @ends l m c hl hleads hlive hthreads hc =>
    -- a leader is in no list
    constructor
    case bound => grind
    case thread => grind [hg.thread]
    case threads => grind [hg.threads]
    case nodup => grind [hg.nodup]
    case exited => grind [hg.exited]
    case once => exact hg.once

/-! ## What is left of a group -/

variable {going : Option Pid}

theorem ThreadMove.alive (h : ThreadMove j j') (hg : Grouped j) (ha : Alive j going) :
    Alive j' going := by
  unfold Alive at ha ⊢
  cases h with
  | ends exited hu hne hlive hy hexited =>
    have hnone := hg.no_threads hu hne
    grind
  | goes hu hne hzombie => grind

/-- A move keeps the groups alive unless a leader ends before its threads. -/
theorem Move.alive {R : Roster → Pid → Prop} (h : Move R (fun _ _ => False) j j')
    (ha : Alive j) : Alive j' := by
  unfold Alive at ha ⊢
  cases h with
  | frees | tidies | acquires | shows => exact ha
  | setsIds hl hleads hpgid hsid hc =>
    intro p y hy hgoing hzombie
    obtain ⟨m, hm, hz, hthreads, -⟩ := Members.setIds_eq_some hy
    rw [hthreads]
    exact ha p m hm hgoing (hz ▸ hzombie)
  | forks | clones | ends | goes => grind

variable {I : Roster → Prop}

/-- Threads that go leave well-formed groups, and what each of them keeps. -/
theorem threads_induct (hkeep : ∀ j j', Grouped j → I j → ThreadMove j j' → I j')
    (h : ReflTransGen ThreadMove j j') (hg : Grouped j) (hi : I j) :
    Grouped j' ∧ I j' := by
  induction h with
  | refl => exact ⟨hg, hi⟩
  | tail _ hlast ih => exact ⟨hlast.grouped ih.1, hkeep _ _ ih.1 ih.2 hlast⟩

section

variable (h : ReflTransGen ThreadMove j j') (hg : Grouped j)
include h hg

theorem threads_alive (ha : Alive j going) : Grouped j' ∧ Alive j' going :=
  threads_induct (fun _ _ hg ha hmove => hmove.alive hg ha) h hg ha

theorem threads_keep : Grouped j' :=
  (threads_induct (I := fun _ => True) (fun _ _ _ hi _ => hi) h hg trivial).1

end

/-! ## What a step does -/

/-- Threads go, at most one other move is made, and threads go again. -/
def Does (R Q : Roster → Pid → Prop) (j j' : Roster) : Prop :=
  ∃ j₁ j₂, ReflTransGen ThreadMove j j₁ ∧ (j₂ = j₁ ∨ Move R Q j₁ j₂) ∧
    ReflTransGen ThreadMove j₂ j'

namespace Does

variable {R Q : Roster → Pid → Prop}

theorem refl (j : Roster) : Does R Q j j := ⟨j, j, .refl, .inl rfl, .refl⟩

theorem of_eq (h : j' = j) : Does R Q j j' := h ▸ refl j'

theorem of_move (h : Move R Q j j') : Does R Q j j' := ⟨j, j', .refl, .inr h, .refl⟩

theorem of_threads (h : ReflTransGen ThreadMove j j') : Does R Q j j' :=
  ⟨j', j', h, .inl rfl, .refl⟩

/-- What holds before a step, what its move makes of it, and what the threads that go
leave of both. -/
theorem induct {J : Roster → Prop} (h : Does R Q j j') (hg : Grouped j) (ha : Alive j) (hi : I j)
    (hbefore : ∀ j j', Grouped j → I j → ThreadMove j j' → I j') (hstay : ∀ j, I j → J j)
    (hmove : ∀ j j', Grouped j → Alive j → I j → Move R Q j j' → J j')
    (hafter : ∀ j j', Grouped j → J j → ThreadMove j j' → J j') : J j' := by
  obtain ⟨j₁, j₂, hfirst, hmid, hlast⟩ := h
  obtain ⟨hg1, hi1⟩ := threads_induct hbefore hfirst hg hi
  rcases hmid with rfl | hmid
  · exact (threads_induct hafter hlast hg1 (hstay _ hi1)).2
  · have hj := hmove _ _ hg1 (threads_alive hfirst hg ha).2 hi1 hmid
    exact (threads_induct hafter hlast (hmid.grouped hg1) hj).2

theorem grouped (h : Does R Q j j') (hg : Grouped j) : Grouped j' := by
  obtain ⟨j₁, j₂, hbefore, hmove, hafter⟩ := h
  have hg1 := threads_keep hbefore hg
  rcases hmove with rfl | hmove
  · exact threads_keep hafter hg1
  · exact threads_keep hafter (hmove.grouped hg1)

theorem alive (h : Does R (fun _ _ => False) j j') (hg : Grouped j) (ha : Alive j) : Alive j' :=
  h.induct hg ha ha (fun _ _ hg ha hmove => hmove.alive hg ha) (fun _ ha => ha)
    (fun _ _ _ ha _ hmove => hmove.alive ha) fun _ _ hg ha hmove => hmove.alive hg ha

end Does

/-! ## The table and its roster -/

def Proc.member (t : Proc) : Member := ⟨t.leader, t.pgid, t.sid, t.zombie, t.threadGroup⟩

namespace Table

/-- Job control of a table. -/
def roster (s : Table) : Roster := ⟨fun p => (s.task p).map Proc.member, s.exitedThreads, s.console⟩

variable {s : Table} {p q : Pid} {t : Proc}

theorem roster_member (h : s.task p = some t) : s.roster.member p = some t.member := by
  simp [roster, h]

theorem roster_member_none (h : s.task p = none) : s.roster.member p = none := by
  simp [roster, h]

theorem roster_eq_some (h : s.roster.member p = some m) :
    ∃ t, s.task p = some t ∧ t.member = m := map_eq_some_iff.mp h

theorem roster_update (x : Option Proc) (exited : List Pid) (c : Console) :
    roster ⟨update s.task p x, exited, c⟩ =
      ⟨update s.roster.member p (x.map Proc.member), exited, c⟩ := by
  unfold roster
  congr 1
  funext q
  dsimp only
  by_cases hq : q = p
  · rw [hq, update_self, update_self]
  · rw [update_of_ne hq, update_of_ne hq]

variable {f : Proc → Proc}

/-- A change of what job control does not know. -/
theorem roster_modify (hf : ∀ t, (f t).member = t.member) : (s.modify p f).roster = s.roster := by
  have hrow : ((s.task p).map f).map Proc.member = s.roster.member p := by
    rw [Option.map_map]
    exact Option.map_congr fun t _ => hf t
  rw [modify, roster_update, hrow, update_eq_self]
  rfl

/-- A change of one task that job control knows of. -/
theorem roster_modify_of (h : s.task p = some t) : (s.modify p f).roster =
    ⟨update s.roster.member p (some (f t).member), s.exitedThreads, s.console⟩ := by
  rw [modify, roster_update, h]
  rfl

theorem allocPid_spec (h : s.allocPid = some p) : p < pidCount ∧ s.task p = none := by
  have hfree := List.find?_some h
  exact ⟨List.mem_range.mp (List.mem_of_find?_eq_some h), Option.isNone_iff_eq_none.mp hfree⟩

theorem runs_spec (h : s.runs p = some t) : p ≠ 0 ∧ s.task p = some t ∧ t.zombie = false := by
  unfold runs at h
  split_ifs at h with hp
  obtain ⟨htask, hlive⟩ := Option.filter_eq_some_iff.mp h
  exact ⟨hp, htask, by simpa using hlive⟩

theorem calls_spec (h : s.calls p = some t) :
    p ≠ 0 ∧ s.task p = some t ∧ t.zombie = false :=
  runs_spec (Option.filter_eq_some_iff.mp h).1

/-- A live member that was found is there. -/
theorem liveMember_of_found {sid : Pid} {ignored : Option Pid}
    (h : s.taskPgidHasLiveMemberExcept pgid sid ignored = true) :
    s.roster.member.LiveMember pgid sid ignored := by
  obtain ⟨p, -, hp⟩ := List.any_eq_true.mp h
  obtain ⟨-, hvisit⟩ := Bool.and_eq_true_iff.mp hp
  obtain ⟨t, htask, hmatch⟩ := (Option.any_eq_true ..).mp hvisit
  simp only [Bool.and_eq_true, decide_eq_true_eq, Bool.not_eq_true'] at hmatch
  obtain ⟨⟨⟨hne, hpgid⟩, hsid⟩, hlive⟩ := hmatch
  exact ⟨p, _, roster_member htask, hne, hpgid, hsid, hlive⟩

theorem roster_sessionClearEmptyForeground (s : Table) (sid pgid : Pid) (ignored : Option Pid) :
    ∃ c, (s.sessionClearEmptyForeground sid pgid ignored).roster =
      ⟨s.roster.member, s.exitedThreads, c⟩ ∧
      Tidied s.roster.member s.console c pgid sid ignored := by
  unfold sessionClearEmptyForeground
  split_ifs with hkeep
  · refine ⟨s.console, rfl, rfl, .inr ⟨rfl, fun _ _ hsid hpgid => ?_⟩⟩
    exact liveMember_of_found ((hkeep.resolve_left hsid).resolve_left hpgid)
  · refine ⟨ttyCttyClearForegroundIf s.console sid pgid, rfl, ?_⟩
    unfold ttyCttyClearForegroundIf
    split_ifs with hmatch
    · exact ⟨rfl, .inl rfl⟩
    · exact ⟨rfl, .inr ⟨rfl, fun hsid hpgid => absurd ⟨hsid, hpgid⟩ hmatch⟩⟩

/-- The leader of a task that is alive. -/
theorem leader_of (hg : Grouped s.roster) (ha : Alive s.roster) (h : s.task p = some t)
    (hlive : t.zombie = false) : ∃ l, s.task t.leader = some l ∧ l.leader = t.leader ∧
      l.zombie = false ∧ t.pgid = l.pgid ∧ t.sid = l.sid := by
  obtain ⟨m, hm, hleader⟩ := hg.leader_alive ha (roster_member h) hlive
  obtain ⟨l, hl, rfl⟩ := roster_eq_some hm
  exact ⟨l, hl, hleader⟩

/-! ### Tasks come -/

section Steps

variable {R Q : Roster → Pid → Prop} {s' : Table}

theorem does_fork (h : s.task p = some t) (hfork : s.fork p t = some s') :
    Does R Q s.roster s'.roster := by
  unfold fork at hfork
  split at hfork
  · cases hfork
    exact .refl _
  · rename_i child halloc
    obtain ⟨console, hclone, rfl⟩ := map_eq_some_iff.mp hfork
    obtain ⟨hlt, hfree⟩ := allocPid_spec halloc
    have howner : console.session = s.console.session ∧
        console.foregroundPgid = s.console.foregroundPgid := by
      unfold ttyCttyCloneAttachment at hclone
      split at hclone
      · cases hclone
        exact ⟨rfl, rfl⟩
      · split_ifs at hclone
        cases hclone
        exact ⟨rfl, rfl⟩
    have hkeep : (s.modify p fun t => { t with children := t.children ++ [child] }).roster =
        s.roster := roster_modify fun _ => rfl
    rw [roster_update, hkeep]
    exact .of_move (.forks (roster_member h) (roster_member_none hfree) hlt howner.1 howner.2)

theorem does_cloneThread (hg : Grouped s.roster) (ha : Alive s.roster) (h : s.task p = some t)
    (hlive : t.zombie = false) (hp : p ≠ 0) : Does R Q s.roster (s.cloneThread t).roster := by
  unfold cloneThread
  split
  · exact .refl _
  · rename_i child halloc
    obtain ⟨hlt, hfree⟩ := allocPid_spec halloc
    obtain ⟨l, hl, hleads, hzombie, hpgid, hsid⟩ := leader_of hg ha h hlive
    rw [roster_update, roster_modify_of hl, hpgid, hsid]
    exact .of_move (.clones (roster_member hl) hleads hzombie (roster_member_none hfree) hlt
      (roster_member h) rfl ⟨hp, hlive⟩)

/-! ### Numbers and the console -/

section

variable (h : s.task p = some t)
include h

theorem roster_taskSetPgidAll (pgid : Pid) : (s.taskSetPgidAll p pgid).roster =
      ⟨s.roster.member.setIds p t.threadGroup pgid none, s.exitedThreads, s.console⟩ := by
  unfold taskSetPgidAll roster Members.setIds
  rw [h]
  congr 1
  funext q
  dsimp only [Option.map_some, Option.getD_some]
  split_ifs
  · rw [Option.map_map, Option.map_map]
    rfl
  · rfl

theorem roster_setBoth (sid pgid : Pid) : ((s.taskSetSidAll p sid).taskSetPgidAll p pgid).roster =
      ⟨s.roster.member.setIds p t.threadGroup pgid (some sid), s.exitedThreads, s.console⟩ := by
  have hsid : (s.taskSetSidAll p sid).task p = some { t with sid := sid } := by
    simp [taskSetSidAll, h]
  rw [roster_taskSetPgidAll hsid]
  unfold taskSetSidAll roster Members.setIds
  rw [h]
  congr 1
  funext q
  dsimp only [Option.map_some, Option.getD_some]
  split_ifs
  · rw [Option.map_map, Option.map_map, Option.map_map]
    rfl
  · rfl

/-- A process gets other numbers, and the group it leaves is looked at. -/
theorem does_setIds (hleads : t.leader = p)
    (hpgid : pgid = p ∨ ∃ q x, s.roster.member q = some x ∧ x.pgid = pgid)
    (hsid : sid = none ∨ sid = some p)
    (hmember : s'.roster.member = s.roster.member.setIds p t.threadGroup pgid sid)
    (hexited : s'.exitedThreads = s.exitedThreads)
    (hsession : s'.console.session = s.console.session)
    (hforeground : s'.console.foregroundPgid = s.console.foregroundPgid) :
    Does R Q s.roster (s'.sessionClearEmptyForeground t.sid t.pgid none).roster := by
  obtain ⟨c, hroster, hsame, htidy⟩ := roster_sessionClearEmptyForeground s' t.sid t.pgid none
  rw [hroster, hmember, hexited]
  rw [hmember, hsession, hforeground] at htidy
  exact .of_move (.setsIds (roster_member h) hleads hpgid hsid ⟨hsame.trans hsession, htidy⟩)

end

/-- What `tty_ctty_remove_task` leaves of the console. -/
theorem ttyCttyRemoveTask_cases (c : Console) (leader sid : Pid) (revoke : Bool) :
    (revoke = true ∧ c.session = sid ∧ (ttyCttyRemoveTask c leader sid revoke).1 ≠ 0 ∧
        (ttyCttyRemoveTask c leader sid revoke).2 = ⟨0, 0, []⟩) ∨
      ((ttyCttyRemoveTask c leader sid revoke).1 = 0 ∧ (revoke = true → c.session = sid → sid = 0) ∧
        (ttyCttyRemoveTask c leader sid revoke).2.session = c.session ∧
        (ttyCttyRemoveTask c leader sid revoke).2.foregroundPgid = c.foregroundPgid) := by
  unfold ttyCttyRemoveTask
  split_ifs with hrevoke hpos
  · exact .inl ⟨hrevoke.1, hrevoke.2, Nat.ne_of_gt hpos, rfl⟩
  · exact .inr ⟨rfl, fun _ hsid => Nat.eq_zero_of_not_pos (hsid ▸ hpos), rfl, rfl⟩
  · refine .inr ⟨rfl, fun hr hsid => absurd ⟨hr, hsid⟩ hrevoke, ?_⟩
    unfold ttyDropAttachment
    split
    · exact ⟨rfl, rfl⟩
    · split_ifs <;> exact ⟨rfl, rfl⟩

theorem ttyCttyRemoveTask_leave (c : Console) (leader sid : Pid) :
    (ttyCttyRemoveTask c leader sid false).2.session = c.session ∧
      (ttyCttyRemoveTask c leader sid false).2.foregroundPgid = c.foregroundPgid := by
  rcases ttyCttyRemoveTask_cases c leader sid false with ⟨hrevoke, -⟩ | ⟨-, -, hsame⟩
  · cases hrevoke
  · exact hsame

theorem does_setsid (hg : Grouped s.roster) (ha : Alive s.roster) (h : s.task p = some t)
    (hlive : t.zombie = false) : Does R Q s.roster (s.sessionProcessSetsid t).roster := by
  obtain ⟨l, hl, hleads, -⟩ := leader_of hg ha h hlive
  unfold sessionProcessSetsid
  rw [hl]
  split_ifs
  · exact .refl _
  · have hboth := roster_setBoth hl t.leader t.leader
    refine does_setIds hl hleads (.inl rfl) (.inr rfl) (congrArg Roster.member hboth) rfl ?_ ?_
    · exact (ttyCttyRemoveTask_leave ..).1
    · exact (ttyCttyRemoveTask_leave ..).2

theorem does_setpgid (s : Table) (t : Proc) (pid pgid : Pid) :
    Does R Q s.roster (s.sessionProcessSetpgid t pid pgid).roster := by
  unfold sessionProcessSetpgid
  dsimp only
  generalize (if pid = 0 then t.leader else pid) = target
  generalize (if pgid = 0 then target else pgid) = newPgid
  split
  · rename_i self x hself hx
    split_ifs with hmay
    · rw [Bool.and_eq_true] at hmay
      obtain ⟨hmove, hgroup⟩ := hmay
      have hset := roster_taskSetPgidAll hx newPgid
      refine does_setIds hx ?_ ?_ (.inl rfl) (congrArg Roster.member hset) rfl rfl rfl
      · unfold mayMove at hmove
        simp only [Bool.and_eq_true, decide_eq_true_eq] at hmove
        exact hmove.1.1
      · rcases (Bool.or_eq_true ..).mp hgroup with hnew | hold
        · exact .inl (of_decide_eq_true hnew)
        · obtain ⟨q, -, hq⟩ := List.any_eq_true.mp hold
          obtain ⟨-, hvisit⟩ := Bool.and_eq_true_iff.mp hq
          obtain ⟨y, hy, hmatch⟩ := (Option.any_eq_true ..).mp hvisit
          simp only [Bool.and_eq_true, decide_eq_true_eq] at hmatch
          exact .inr ⟨q, _, roster_member hy, hmatch.1⟩
    · exact .refl _
  · exact .refl _

theorem does_acquire (hg : Grouped s.roster) (ha : Alive s.roster) (h : s.task p = some t)
    (hlive : t.zombie = false) (mayTake : Bool) :
    Does R Q s.roster (s.sessionConsoleAcquire t mayTake).roster := by
  obtain ⟨l, hl, hleads, hzombie, -⟩ := leader_of hg ha h hlive
  unfold sessionConsoleAcquire
  rw [hl]
  dsimp only
  split_ifs with hsid howner hzero
  · exact .refl _
  · exact .refl _
  · exact .refl _
  · rw [not_or] at hzero
    have hclaim : (ttyCttyClaim s.console t.leader l.sid l.pgid).session = l.sid ∧
        (ttyCttyClaim s.console t.leader l.sid l.pgid).foregroundPgid = l.pgid := by
      unfold ttyCttyClaim
      dsimp only
      split <;> exact ⟨rfl, rfl⟩
    rw [not_not] at hsid
    refine .of_move (.acquires (roster_member hl) hleads hzombie hsid ?_ ?_ hclaim.2)
    · exact hsid ▸ hzero.1
    · exact hclaim.1.trans hsid

theorem does_release (s : Table) (t : Proc) :
    Does R Q s.roster (s.sessionConsoleRelease t).roster := by
  unfold sessionConsoleRelease
  split
  · exact .refl _
  · rename_i l hl
    split_ifs
    · rcases ttyCttyRemoveTask_cases s.console t.leader l.sid (l.sid = t.leader) with
        ⟨-, -, -, hfree⟩ | ⟨-, -, hsession, hforeground⟩
      · exact .of_move (.frees (congrArg Console.session hfree)
          (congrArg Console.foregroundPgid hfree))
      · exact .of_move (.tidies hsession (.inr hforeground))
    · exact .refl _

theorem does_setForeground (s : Table) (t : Proc) (pgid : Pid) :
    Does R Q s.roster (s.sessionConsoleSetForegroundPgid t pgid).roster := by
  unfold sessionConsoleSetForegroundPgid
  split
  · exact .refl _
  · rename_i l hl
    split_ifs with hmay
    · simp only [Bool.and_eq_true, decide_eq_true_eq, ttyCttyOwnedBy] at hmay
      obtain ⟨⟨⟨⟨⟨-, hpos⟩, hsession⟩, -⟩, -⟩, hlive⟩ := hmay
      refine .of_move (.shows (Nat.pos_iff_ne_zero.mp hpos) rfl ?_)
      rw [hsession]
      exact liveMember_of_found hlive
    · exact .refl _

/-! ### Tasks go -/

variable {x y : Proc}

theorem roster_threadExit (hu : s.task u = some x) (hne : x.leader ≠ u)
    (hy : s.task x.leader = some y) (current : Bool) : (s.threadExit u x current).roster =
      ⟨update (update s.roster.member x.leader
        (some { y.member with threads := y.threadGroup.erase u })) u
        (some { x.member with zombie := true }),
        if current then s.exitedThreads ++ [u] else s.exitedThreads, s.console⟩ := by
  have hu' : (s.modify x.leader fun leader =>
      { leader with threadGroup := leader.threadGroup.erase u }).task u = some x := by
    rw [modify_task_of_ne _ _ hne.symm, hu]
  have hroster := @roster_modify_of _ u x (fun t => { t with zombie := true }) hu'
  rw [roster_modify_of hy] at hroster
  cases current with
  | false => exact hroster
  | true =>
    exact congrArg (fun r : Roster => Roster.mk r.member (s.exitedThreads ++ [u]) r.console) hroster

theorem roster_releaseTask (h : s.task p = some t) : (s.releaseTask p).roster =
    ⟨update s.roster.member p none, s.exitedThreads.erase p, s.console⟩ := by
  unfold releaseTask
  rw [h]
  rw [roster_update]
  split
  · rfl
  · rename_i parent _
    have hkeep : (s.modify parent fun q => { q with children := q.children.erase p }).roster =
        s.roster := roster_modify fun _ => rfl
    rw [hkeep]
    rfl

section

variable (hu : s.task u = some x) (hne : x.leader ≠ u) (hlive : x.zombie = false)
include hu hne hlive

theorem finishTaskExit_thread (status : Nat) (current : Bool) :
    s.finishTaskExit u status current = s.threadExit u x current := by
  unfold finishTaskExit sessionProcessCleanup
  rw [hu]
  simp [hlive, hne]

theorem thread_finishThread (hl : s.task x.leader = some y) (status : Nat) (current : Bool) :
    ThreadMove s.roster (s.finishTaskExit u status current).roster := by
  rw [finishTaskExit_thread hu hne hlive, roster_threadExit hu hne hl]
  refine .ends _ (roster_member hu) hne hlive (roster_member hl) ?_
  cases current with
  | false => exact .inl rfl
  | true => exact .inr rfl

end

variable {current : Pid}

/-- A thread that is not the last to go ends and is released. -/
theorem threads_reapThread (hu : s.task u = some x) (hlead : x.leader = l) (hne : u ≠ l)
    (hlive : x.zombie = false) (hl : s.task l = some y) (hcurrent : u ≠ current) (status : Nat) :
    ReflTransGen ThreadMove s.roster (reapThread current status s u).roster ∧
      ∃ y', (reapThread current status s u).task l = some y' ∧
        y'.member = { y.member with threads := y.threadGroup.erase u } := by
  subst hlead
  have hends := roster_threadExit hu hne.symm hl false
  rw [reapThread, if_neg hcurrent, finishTaskExit_thread hu hne.symm hlive]
  have hzombie : (s.threadExit u x false).roster.member u =
      some { x.member with zombie := true } := by
    rw [hends]
    exact update_self ..
  obtain ⟨x', hx', hmember⟩ := roster_eq_some hzombie
  have hgoes := roster_releaseTask hx'
  have hmove1 := @ThreadMove.ends s.roster u x.member y.member s.exitedThreads (roster_member hu)
    hne.symm hlive (roster_member hl) (.inl rfl)
  have hmove2 := @ThreadMove.goes (s.threadExit u x false).roster u _ hzombie hne.symm rfl
  rw [hends] at hmove2
  refine ⟨?_, roster_eq_some ?_⟩
  · rw [hgoes]
    rw [hends]
    exact (ReflTransGen.single hmove1).tail hmove2
  · rw [hgoes]
    dsimp only
    rw [update_of_ne hne.symm, hends]
    dsimp only
    rw [update_of_ne hne.symm, update_self]

/-- `reap_other_threads`: at most the calling thread is left. -/
theorem threads_reapOtherThreads (status : Nat) {pre rest : List Pid} (hl : s.task l = some y)
    (hg : Grouped s.roster) (hthreads : y.threadGroup = pre ++ rest)
    (hpre : ∀ u ∈ pre, u = current) :
    ReflTransGen ThreadMove s.roster (rest.foldl (reapThread current status) s).roster ∧
      ∃ y', (rest.foldl (reapThread current status) s).task l = some y' ∧
        y'.member = { y.member with threads := y'.threadGroup } ∧
        ∀ u, u ∈ y'.threadGroup ↔ u ∈ y.threadGroup ∧ u = current := by
  induction rest generalizing s y pre with
  | nil =>
    refine ⟨.refl, y, hl, rfl, fun u => ⟨fun hu => ⟨hu, hpre u ?_⟩, And.left⟩⟩
    rwa [hthreads, List.append_nil] at hu
  | cons a rest ih =>
    rw [List.foldl_cons]
    by_cases ha : a = current
    · have hskip : reapThread current status s a = s := if_pos ha
      rw [hskip]
      refine @ih s y (pre ++ [a]) hl hg (by rw [hthreads, List.append_assoc]; rfl) fun u hu => ?_
      rcases List.mem_append.mp hu with hu | hu
      · exact hpre u hu
      · exact (List.mem_singleton.mp hu).trans ha
    · have hmem : a ∈ y.threadGroup := by
        rw [hthreads]
        exact List.mem_append_right _ List.mem_cons_self
      obtain ⟨-, hne, m, hm, hlead, hlive⟩ := hg.threads l y.member a (roster_member hl) hmem
      obtain ⟨x, hx, rfl⟩ := roster_eq_some hm
      obtain ⟨hmoves, y', hy', hmember⟩ := threads_reapThread hx hlead hne hlive hl ha status
      have herase : y'.threadGroup = y.threadGroup.erase a := congrArg Member.threads hmember
      have hleft : y'.threadGroup = pre ++ rest := by
        have hapre : a ∉ pre := fun hin => ha (hpre a hin)
        rw [herase, hthreads, List.erase_append_right _ hapre, List.erase_cons_head]
      obtain ⟨hmoves', z, hz, hzm, hzt⟩ :=
        @ih _ y' pre hy' (threads_keep hmoves hg) hleft hpre
      refine ⟨hmoves.trans hmoves', z, hz, by rw [hzm, hmember], fun u => ?_⟩
      rw [hzt u, herase]
      refine and_congr_left fun hu => List.mem_erase_of_ne fun hua => ha ?_
      rw [← hua, hu]

/-- The console after `session_process_cleanup`. -/
theorem roster_sessionProcessCleanup (s : Table) (hleads : y.leader = l) :
    ∃ c, (s.sessionProcessCleanup l y).roster = ⟨s.roster.member, s.exitedThreads, c⟩ ∧
      (c.session = 0 ∧ c.foregroundPgid = 0 ∨ (y.sid = l → s.console.session = l → l = 0) ∧
        Tidied s.roster.member s.console c y.pgid y.sid (some l)) := by
  unfold sessionProcessCleanup
  rw [if_neg (not_not.mpr hleads)]
  rcases ttyCttyRemoveTask_cases s.console l y.sid (y.sid = l) with
    ⟨-, -, hdetached, hfree⟩ | ⟨hdetached, hrevoke, hsession, hforeground⟩
  · dsimp only
    rw [if_neg hdetached, hfree]
    exact ⟨⟨0, 0, []⟩, rfl, .inl ⟨rfl, rfl⟩⟩
  · dsimp only
    rw [if_pos hdetached]
    generalize ttyCttyRemoveTask s.console l y.sid (y.sid = l) = r at hsession hforeground
    obtain ⟨c, hroster, hsame, htidy⟩ :=
      roster_sessionClearEmptyForeground { s with console := r.2 } y.sid y.pgid (some l)
    refine ⟨c, hroster, .inr ⟨fun hsid hl => ?_, hsame.trans hsession, ?_⟩⟩
    · rw [← hsid]
      exact hrevoke (decide_eq_true hsid) (hl.trans hsid.symm)
    · rw [← hsession, ← hforeground]
      exact htidy

theorem roster_taskReparentChildren (s : Table) (dead : Pid) (children : List Pid) :
    (s.taskReparentChildren dead children).roster = s.roster := by
  have hfold : ∀ (children : List Pid) (s : Table),
      (children.foldl reparentChild s).roster = s.roster := by
    intro children
    induction children with
    | nil => exact fun _ => rfl
    | cons child rest ih =>
      intro s
      rw [List.foldl_cons, ih, reparentChild]
      refine (roster_modify ?_).trans (roster_modify ?_)
      · exact fun _ => rfl
      · exact fun _ => rfl
  rw [taskReparentChildren, hfold]
  exact roster_modify fun _ => rfl

section

variable (hl : s.task l = some y) (hleads : y.leader = l) (hlive : y.zombie = false)
include hl hleads hlive

theorem roster_finishLeader (status : Nat) (current : Bool) :
    ∃ c, (s.finishTaskExit l status current).roster =
      ⟨update s.roster.member l (some { y.member with zombie := true }), s.exitedThreads, c⟩ ∧
      (c.session = 0 ∧ c.foregroundPgid = 0 ∨ (y.sid = l → s.console.session = l → l = 0) ∧
        Tidied s.roster.member s.console c y.pgid y.sid (some l)) := by
  have hfinish : s.finishTaskExit l status current =
      (s.sessionProcessCleanup l y).taskChildPublishExit l y status := by
    unfold finishTaskExit
    rw [hl]
    simp [hlive, hleads]
  obtain ⟨c, hroster, hc⟩ := roster_sessionProcessCleanup s hleads
  rw [← roster_taskReparentChildren _ l y.children] at hroster
  have hmember := congrFun (congrArg Roster.member hroster) l
  rw [roster_member hl] at hmember
  obtain ⟨z, hz, hzm⟩ := roster_eq_some hmember
  have hends : Proc.member (Proc.publish { z with zombie := true } .exit status) =
      { y.member with zombie := true } :=
    congrArg (fun m : Member => { m with zombie := true }) hzm
  have hexited : Table.exitedThreads _ = s.exitedThreads := congrArg Roster.exited hroster
  have hconsole : Table.console _ = c := congrArg Roster.console hroster
  refine ⟨c, ?_, hc⟩
  rw [hfinish, taskChildPublishExit, roster_modify_of hz, hends, hexited, hconsole, hroster]

theorem move_finishLeader (hthreads : y.threadGroup = [] ∨ Q s.roster l) (status : Nat)
    (current : Bool) : Move R Q s.roster (s.finishTaskExit l status current).roster := by
  obtain ⟨c, hroster, hc⟩ := roster_finishLeader hl hleads hlive status current
  rw [hroster]
  exact .ends (roster_member hl) hleads hlive hthreads hc

end

section

variable (hg : Grouped s.roster) (ha : Alive s.roster) (h : s.task p = some t)
  (hlive : t.zombie = false) (status : Nat)
include hg ha h hlive status

omit ha in
theorem does_exit : Does R Q s.roster (s.doExitStatus p t status).roster := by
  unfold doExitStatus
  split_ifs with hleads
  · -- the other threads go first, and the leader last
    unfold reapOtherThreads
    rw [h]
    obtain ⟨hmoves, y, hy, hmember, hthreads⟩ := @threads_reapOtherThreads p s t p status []
      t.threadGroup h hg rfl fun _ hu => absurd hu List.not_mem_nil
    have hnone : y.threadGroup = [] := List.eq_nil_iff_forall_not_mem.mpr fun u hu =>
      have hu := (hthreads u).mp hu
      (hg.threads p t.member u (roster_member h) hu.1).2.1 hu.2
    have hylead : y.leader = p := (congrArg Member.leader hmember).trans hleads
    have hylive : y.zombie = false := (congrArg Member.zombie hmember).trans hlive
    refine ⟨_, _, hmoves, .inr ?_, .refl⟩
    exact move_finishLeader hy hylead hylive (.inl hnone) status true
  · obtain ⟨y, hy, -⟩ := hg.thread p t.member (roster_member h) hleads hlive
    obtain ⟨l, hl, rfl⟩ := roster_eq_some hy
    exact .of_threads (.single (thread_finishThread h hleads hlive hl status true))

theorem does_exitGroup (hq : t.leader ≠ p → Q s.roster t.leader) :
    Does R Q s.roster (s.doExitGroup p t status).roster ∧
      Alive (s.doExitGroup p t status).roster := by
  by_cases hleads : t.leader = p
  · have hsame : s.doExitGroup p t status = s.doExitStatus p t status := by
      simp [doExitGroup, doExitStatus, hleads]
    have hquiet : Does (fun _ _ => True) (fun _ _ => False) s.roster _ :=
      does_exit hg h hlive status
    rw [hsame]
    exact ⟨does_exit hg h hlive status, hquiet.alive hg ha⟩
  -- the leader goes first, the other threads follow, and the caller is the last
  obtain ⟨y, hy, hylead, hylive, -⟩ := leader_of hg ha h hlive
  obtain ⟨c, hroster, -⟩ := roster_finishLeader hy hylead hylive status false
  have hmove := @move_finishLeader t.leader s R Q y hy hylead hylive (.inr (hq hleads)) status false
  have hmem : p ∈ y.threadGroup := by
    obtain ⟨y', hy', -, hmem, -⟩ := hg.thread p t.member (roster_member h) hleads hlive
    rw [show t.member.leader = t.leader from rfl, roster_member hy] at hy'
    cases hy'
    exact hmem
  unfold doExitGroup reapOtherThreads
  rw [if_neg hleads]
  generalize s.finishTaskExit t.leader status false = s1 at hroster hmove
  have hg1 := hmove.grouped hg
  have hmember : s1.roster.member t.leader = some { y.member with zombie := true } := by
    rw [hroster]
    exact update_self ..
  have ha1 : Alive s1.roster (some t.leader) := by
    intro l m hl hgoing hzombie
    have hne : l ≠ t.leader := fun heq => hgoing (heq ▸ rfl)
    rw [hroster] at hl
    exact ha l m ((update_of_ne hne ..).symm.trans hl) (Option.some_ne_none _).symm hzombie
  obtain ⟨y1, hy1, hy1m⟩ := roster_eq_some hmember
  have hthreads1 : y1.threadGroup = y.threadGroup := congrArg Member.threads hy1m
  obtain ⟨hmoves, y2, hy2, hy2m, hleft⟩ := @threads_reapOtherThreads t.leader s1 y1 p status []
    y1.threadGroup hy1 hg1 rfl fun _ hu => absurd hu List.not_mem_nil
  dsimp only
  rw [hy1]
  dsimp only [Option.map_some, Option.getD_some]
  generalize y1.threadGroup.foldl (reapThread p status) s1 = s2 at hmoves hy2
  obtain ⟨hg2, ha2⟩ := threads_alive hmoves hg1 ha1
  have hin : p ∈ y2.threadGroup := (hleft p).mpr ⟨hthreads1 ▸ hmem, rfl⟩
  obtain ⟨-, hne, x, hx, hxlead, hxlive⟩ := hg2.threads t.leader y2.member p (roster_member hy2) hin
  obtain ⟨t2, ht2, rfl⟩ := roster_eq_some hx
  replace hxlead : t2.leader = t.leader := hxlead
  have hne2 : t2.leader ≠ p := fun heq => hleads (hxlead.symm.trans heq)
  have hy2' : s2.task t2.leader = some y2 := by rw [hxlead, hy2]
  have hlast := thread_finishThread ht2 hne2 hxlive hy2' status true
  have hfinal := roster_threadExit ht2 hne2 hy2' true
  rw [← finishTaskExit_thread ht2 hne2 hxlive status] at hfinal
  refine ⟨⟨_, _, .refl, .inr hmove, hmoves.tail hlast⟩, ?_⟩
  intro l m hl _ hzombie
  by_cases hll : l = t.leader
  · -- the leader has no thread left
    subst hll
    rw [hfinal] at hl
    dsimp only at hl
    rw [update_of_ne hleads, hxlead, update_self] at hl
    cases hl
    refine List.eq_nil_iff_forall_not_mem.mpr fun u hu => ?_
    have hnodup := hg2.nodup t.leader y2.member (roster_member hy2)
    obtain ⟨hup, hu2⟩ := (List.Nodup.mem_erase_iff hnodup).mp hu
    exact hup ((hleft u).mp hu2).2
  · exact hlast.alive hg2 ha2 l m hl (fun heq => hll (Option.some.inj heq).symm) hzombie

end

/-- `session_process_cleanup` of a child that was never published. -/
theorem does_cleanup (s : Table) {child : Pid} (hleads : y.leader = child) :
    Does R Q s.roster (s.sessionProcessCleanup child y).roster := by
  obtain ⟨c, hroster, hc⟩ := roster_sessionProcessCleanup s hleads
  rw [hroster]
  rcases hc with ⟨hsession, hforeground⟩ | ⟨-, hsession, hforeground⟩
  · exact .of_move (.frees hsession hforeground)
  · exact .of_move (.tidies hsession (hforeground.imp_right And.left))

/-- A task that is a zombie is released. -/
theorem does_releaseTask (h : s.task p = some t) (hzombie : t.zombie = true)
    (hthreads : t.threadGroup = []) (hr : t.leader = p → R s.roster p) :
    Does R Q s.roster (s.releaseTask p).roster := by
  rw [roster_releaseTask h]
  by_cases hleads : t.leader = p
  · exact .of_move (.goes (roster_member h) hleads hzombie hthreads (hr hleads))
  · exact .of_threads (.single (.goes (roster_member h) hleads hzombie))

theorem does_wait4Finish {q : Proc} {r : Wait4Result}
    (hfinish : s.kernelWait4Finish p q r = some s') (hr : r.type = .exit → R s.roster r.child) :
    Does R Q s.roster s'.roster := by
  unfold kernelWait4Finish at hfinish
  split at hfinish
  · cases hfinish
  · rename_i t event hclaimed
    dsimp only at hfinish
    have hcommit : ((s.modify r.child fun t =>
        { t with childEvents := t.childEvents.erase event }).modify p fun q =>
        { q with wait := none }).roster = s.roster := by
      refine (roster_modify ?_).trans (roster_modify ?_)
      · exact fun _ => rfl
      · exact fun _ => rfl
    generalize ((s.modify r.child fun t =>
        { t with childEvents := t.childEvents.erase event }).modify p fun q =>
        { q with wait := none }) = s1 at hfinish hcommit
    rw [← hcommit] at hr ⊢
    split at hfinish
    · rename_i htype
      split_ifs at hfinish with hrelease
      cases hfinish
      have hadd : (s1.modify q.leader fun l =>
          { l with childCputime := l.childCputime.add r.cputime }).roster = s1.roster :=
        roster_modify fun _ => rfl
      obtain ⟨t1, ht1, hok⟩ := (Option.any_eq_true ..).mp hrelease
      have hmember := congrFun (congrArg Roster.member hadd) r.child
      rw [roster_member ht1] at hmember
      obtain ⟨t2, ht2, hsame⟩ := roster_eq_some hmember
      simp only [Proc.releasable, Bool.and_eq_true, List.isEmpty_iff] at hok
      rw [← hadd] at hr ⊢
      refine does_releaseTask ht2 ?_ ?_ fun _ => hr htype
      · exact (congrArg Member.zombie hsame).trans hok.1.1
      · exact (congrArg Member.threads hsame).trans hok.2
    · cases hfinish
      exact .refl _

theorem roster_setClaimer (s : Table) (child : Pid) (sequence : Nat) (claimer : Option Pid) :
    (s.setClaimer child sequence claimer).roster = s.roster :=
  roster_modify fun _ => rfl

theorem roster_claimEvent (s : Table) (p child : Pid) (t : Proc) (event : ChildEvent) :
    (s.claimEvent p child t event).roster = s.roster := by
  refine (roster_modify ?_).trans (roster_setClaimer ..)
  exact fun _ => rfl

theorem roster_kernelWait4Abort (s : Table) (p : Pid) (r : Wait4Result) :
    (s.kernelWait4Abort p r).roster = s.roster := by
  unfold kernelWait4Abort
  split
  · exact roster_modify fun _ => rfl
  · refine (roster_modify ?_).trans (roster_setClaimer ..)
    exact fun _ => rfl

/-- The condition under which a step is taken. -/
def Guarded (R Q : Roster → Pid → Prop) (s : Table) : Act → Prop
  | .wait4Finish p => ∀ q ∈ s.task p, ∀ r ∈ q.wait, r.type = .exit → R s.roster r.child
  | .exitGroup p _ => ∀ t ∈ s.task p, t.leader ≠ p → Q s.roster t.leader
  | _ => True

instance [∀ j l, Decidable (R j l)] [∀ j l, Decidable (Q j l)] :
    ∀ a, Decidable (Guarded R Q s a)
  | .wait4Finish p => inferInstanceAs (Decidable (∀ q ∈ s.task p, ∀ r ∈ q.wait, _ → _))
  | .exitGroup p _ => inferInstanceAs (Decidable (∀ t ∈ s.task p, _ → _))
  | .fork _ | .forkFails .. | .cloneThread _ | .exit .. | .wait4 .. | .wait4Abort _ | .setsid _
  | .setpgid .. | .acquire .. | .release _ | .setForeground .. | .publish .. | .tick ..
  | .reap _ => inferInstanceAs (Decidable True)

theorem guarded_true (s : Table) (a : Act) :
    Guarded (fun _ _ => True) (fun _ _ => True) s a := by
  cases a with
  | wait4Finish p => exact fun _ _ _ _ _ => trivial
  | exitGroup p status => exact fun _ _ _ => trivial
  | _ => exact trivial

variable (hg : Grouped s.roster) (ha : Alive s.roster)
include hg ha

variable {a : Act}

/-- What a step does to job control. -/
theorem next_does (hguard : Guarded R Q s a) (hnext : s.next a = some s') :
    Does R Q s.roster s'.roster := by
  cases a
  case fork p =>
    obtain ⟨t, hcalls, hfork⟩ := bind_eq_some_iff.mp hnext
    split_ifs at hfork
    · exact does_fork (calls_spec hcalls).2.1 hfork
    · cases hfork
      exact .refl _
  case exit p status =>
    obtain ⟨t, hcalls, hexit⟩ := bind_eq_some_iff.mp hnext
    obtain ⟨-, htask, hlive⟩ := calls_spec hcalls
    split_ifs at hexit
    cases hexit
    exact does_exit hg htask hlive status
  case exitGroup p status =>
    obtain ⟨t, hcalls, hexit⟩ := bind_eq_some_iff.mp hnext
    obtain ⟨-, htask, hlive⟩ := calls_spec hcalls
    split_ifs at hexit
    cases hexit
    exact (does_exitGroup hg ha htask hlive status (hguard t htask)).1
  case wait4Finish p =>
    obtain ⟨q, hruns, hwait⟩ := bind_eq_some_iff.mp hnext
    obtain ⟨r, hr, hfinish⟩ := bind_eq_some_iff.mp hwait
    exact does_wait4Finish hfinish (hguard q (runs_spec hruns).2.1 r hr)
  case wait4Abort p =>
    obtain ⟨q, hruns, hwait⟩ := bind_eq_some_iff.mp hnext
    obtain ⟨r, -, rfl⟩ := map_eq_some_iff.mp hwait
    exact .of_eq (roster_kernelWait4Abort s p r)
  case reap thread =>
    simp only [next] at hnext
    split_ifs at hnext with hin
    cases hnext
    obtain ⟨m, hm, hzombie, hne⟩ := hg.exited thread hin
    obtain ⟨x, hx, rfl⟩ := roster_eq_some hm
    exact does_releaseTask hx hzombie (hg.no_threads hm hne) fun hleads => absurd hleads hne
  all_goals obtain ⟨t, hcalls, rfl⟩ := map_eq_some_iff.mp hnext
  case forkFails p named =>
    unfold forkFails
    split
    · exact .refl _
    · rename_i child _
      split_ifs
      · exact does_cleanup s rfl
      · exact does_cleanup s rfl
  case cloneThread p =>
    obtain ⟨hp, htask, hlive⟩ := calls_spec hcalls
    exact does_cloneThread hg ha htask hlive hp
  case wait4 p selector mask =>
    split
    · exact .of_eq (roster_claimEvent s p ..)
    · exact .refl _
  case setsid p =>
    obtain ⟨-, htask, hlive⟩ := calls_spec hcalls
    exact does_setsid hg ha htask hlive
  case setpgid p pid pgid =>
    exact does_setpgid s t pid pgid
  case acquire p mayTake =>
    obtain ⟨-, htask, hlive⟩ := calls_spec hcalls
    exact does_acquire hg ha htask hlive mayTake
  case release p =>
    exact does_release s t
  case setForeground p pgid =>
    exact does_setForeground s t pgid
  case publish p type status =>
    split_ifs
    · exact .of_eq (roster_modify fun _ => rfl)
    · exact .refl _
  case tick p user =>
    exact .of_eq (roster_modify fun _ => rfl)

/-- Between steps every process that has exited is without threads. -/
theorem next_alive (hnext : s.next a = some s') : Alive s'.roster := by
  have hquiet : Guarded (fun _ _ => True) (fun _ _ => False) s a → Alive s'.roster :=
    fun hguard => (next_does hg ha hguard hnext).alive hg ha
  cases a with
  | exitGroup p status =>
    obtain ⟨t, hcalls, hexit⟩ := bind_eq_some_iff.mp hnext
    obtain ⟨-, htask, hlive⟩ := calls_spec hcalls
    split_ifs at hexit
    cases hexit
    exact (@does_exitGroup s p t (fun _ _ => True) (fun _ _ => True) hg ha htask hlive status
      fun _ => trivial).2
  | wait4Finish p => exact hquiet fun _ _ _ _ _ => trivial
  | _ => exact hquiet trivial

end Steps

/-! ## Runs -/

/-- The steps of the table. -/
def Step (s : Table) (a : Act) (s' : Table) : Prop := s.next a = some s'

section Runs

variable {R Q : Roster → Pid → Prop}

/-- After boot every task is alive, leads itself and has no threads. -/
theorem boot_member (h : boot.roster.member u = some m) :
    u < 4 ∧ m = ⟨u, u, u, false, []⟩ := by
  obtain ⟨t, ht, rfl⟩ := roster_eq_some h
  unfold boot at ht
  dsimp only at ht
  split at ht
  all_goals cases ht
  all_goals exact ⟨by decide, rfl⟩

theorem boot_grouped : Grouped boot.roster where
  bound u m hu := (boot_member hu).1.trans (by decide)
  thread u x hu hne := absurd (congrArg Member.leader (boot_member hu).2) hne
  threads l y u hl hmem := by
    rw [(boot_member hl).2] at hmem
    cases hmem
  nodup l y hl := by
    rw [(boot_member hl).2]
    exact List.nodup_nil
  exited u hu := by cases hu
  once := List.nodup_nil

theorem boot_alive : Alive boot.roster := fun l y hl _ _ => by rw [(boot_member hl).2]

/-- What boot establishes and every move keeps holds in every run. -/
theorem runs_keep (hboot : I boot.roster)
    (hthread : ∀ j j', Grouped j → I j → ThreadMove j j' → I j')
    (hmove : ∀ j j', Grouped j → Alive j → I j → Move R Q j j' → I j')
    (hrun : Lib.Runs Step (Guarded R Q) boot s) :
    Grouped s.roster ∧ Alive s.roster ∧ I s.roster := by
  refine @Lib.Runs.induct _ _ _ _ _ _ (fun s => Grouped s.roster ∧ Alive s.roster ∧ I s.roster)
    hrun ⟨boot_grouped, boot_alive, hboot⟩ ?_
  rintro s a s' ⟨hg, ha, hi⟩ hguard hstep
  have hdoes := next_does hg ha hguard hstep
  exact ⟨hdoes.grouped hg, next_alive hg ha hstep,
    hdoes.induct hg ha hi hthread (fun _ hi => hi) hmove hthread⟩

/-- In every run a live task has a live leader, which is in the same group and session and
lists the task, and all that it lists are live tasks it leads. -/
theorem live_task_has_leader (hrun : Lib.Runs Step (fun _ _ => True) boot s)
    (hu : s.task u = some t) (hlive : t.zombie = false) :
    ∃ l, s.task t.leader = some l ∧ l.zombie = false ∧ l.pgid = t.pgid ∧ l.sid = t.sid ∧
      (t.leader ≠ u → u ∈ l.threadGroup) ∧
      ∀ v ∈ l.threadGroup, ∃ x, s.task v = some x ∧ x.leader = t.leader ∧ x.zombie = false := by
  have hguarded : Lib.Runs Step (Guarded (fun _ _ => True) fun _ _ => True) boot s :=
    hrun.lift id fun _ _ ⟨a, _, hstep⟩ => ⟨a, guarded_true _ a, hstep⟩
  obtain ⟨hg, ha, -⟩ := runs_keep (I := fun _ => True) trivial (fun _ _ _ _ _ => trivial)
    (fun _ _ _ _ _ _ => trivial) hguarded
  obtain ⟨y, hy, -, hylive, hpgid, hsid⟩ := hg.leader_alive ha (roster_member hu) hlive
  obtain ⟨l, hl, rfl⟩ := roster_eq_some hy
  refine ⟨l, hl, hylive, hpgid.symm, hsid.symm, fun hne => ?_, fun v hv => ?_⟩
  · obtain ⟨z, hz, -, hmem, -⟩ := hg.thread u _ (roster_member hu) hne hlive
    cases hy.symm.trans hz
    exact hmem
  · obtain ⟨-, -, x, hx, hleads, hxlive⟩ := hg.threads _ _ v hy hv
    obtain ⟨x, hv, rfl⟩ := roster_eq_some hx
    exact ⟨x, hv, hleads, hxlive⟩

/-- A child of init starts a session and a thread. -/
theorem live_task_has_leader_thread : ∃ s l, Lib.Runs Step (fun _ _ => True) boot s ∧
      s.task 4 = some l ∧ l.zombie = false ∧ l.sid = 4 ∧ 5 ∈ l.threadGroup := by
  have hrun : (Lib.runAll next (fun _ _ => true) [.fork 1, .setsid 4, .cloneThread 4] boot).any
      (fun s => (s.task 5).any fun t => decide (t.leader = 4 ∧ t.zombie = false ∧ t.sid = 4)) =
      true := by decide +kernel
  obtain ⟨s, heq, hthread⟩ := (Option.any_eq_true _ _).mp hrun
  obtain ⟨t, ht, hstate⟩ := (Option.any_eq_true _ _).mp hthread
  obtain ⟨hleader, hlive, hsid⟩ := of_decide_eq_true hstate
  have hreach : Lib.Runs Step (fun _ _ => True) boot s :=
    Lib.Runs.of_runAll (fun _ _ _ h => h) (fun _ _ _ => trivial) heq
  obtain ⟨l, hl, hlive, -, hlsid, hlists, -⟩ := live_task_has_leader hreach ht hlive
  rw [hleader] at hl hlists
  exact ⟨s, l, hreach, hl, hlive, hlsid.trans hsid, hlists (by decide)⟩

end Runs

end Table

end CuteOS.Jobs
