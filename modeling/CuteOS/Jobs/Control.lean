/-
  Jobs/Control.lean --- numbers of groups and sessions, and the foreground of the console.

  Sources: `kernel/pid.c`, `kernel/session.c`, `kernel/exit.c`.

  A number stays in use as long as its process is in the table.  `wait4` releases a process
  without a look at the groups, so other tasks can keep its number (`reused_group`).
  `do_exit_group` ends the leader before the threads, so the group of the leader looks
  alive when the console is cleaned up (`stale_foreground`).
-/
import CuteOS.Jobs.Groups

set_option autoImplicit false

namespace CuteOS.Jobs

/-! ## Fresh numbers -/

/-- No other task is in the group or in the session of the number. -/
def Deserted (j : Roster) (l : Pid) : Prop :=
  ∀ q < pidCount, q ≠ l → ∀ m ∈ j.member q, m.pgid ≠ l ∧ m.sid ≠ l

instance (j : Roster) (l : Pid) : Decidable (Deserted j l) := by
  unfold Deserted
  infer_instance

/-- Every group and every session has the number of a process in the table. -/
def Numbered (j : Roster) : Prop :=
  ∀ q m, j.member q = some m → j.member.Leads m.pgid ∧ j.member.Leads m.sid

/-- Nobody is in a group or in a session of the number. -/
def Unused (j : Roster) (p : Pid) : Prop := ∀ q m, j.member q = some m → m.pgid ≠ p ∧ m.sid ≠ p

variable {l p pgid : Pid}
variable {V : Members} {sid ignored : Option Pid}

/-- Other numbers leave the processes where they are. -/
theorem Members.Leads.setIds {threads : List Pid} (h : V.Leads p) :
    (V.setIds l threads pgid sid).Leads p := by
  obtain ⟨m, hm, hleads⟩ := h
  obtain ⟨m', hm', hsame, -⟩ := Members.setIds_of_some hm
  exact ⟨m', hm', hsame.trans hleads⟩

variable {j j' : Roster}

theorem ThreadMove.numbered (h : ThreadMove j j') (hn : Numbered j) :
    Numbered j' := by
  unfold Numbered Members.Leads at hn ⊢
  cases h with
  | ends | goes => grind

variable {Q R : Roster → Pid → Prop}

theorem Move.numbered (h : Move Deserted Q j j') (hg : Grouped j) (hn : Numbered j) :
    Numbered j' := by
  have hbound := hg.bound
  unfold Numbered at hn ⊢
  cases h with
  | clones hl hleads hlive hfree hlt hp hcaller hruns =>
    clear hp hcaller hruns
    grind [Members.Leads]
  | setsIds hl hleads hpgid hsid hc =>
    intro q x hx
    rename_i l pgid sid m c
    have hself : j.member.Leads l := ⟨m, hl, hleads⟩
    have hgroup : j.member.Leads pgid := by
      rcases hpgid with rfl | ⟨u, y, hu, rfl⟩
      · exact hself
      · exact (hn u y hu).1
    obtain ⟨y, hy, -, -, ⟨hxp, hxs, -⟩ | ⟨hxp, hxs⟩⟩ := Members.setIds_eq_some hx
    · rw [hxp, hxs]
      exact ⟨(hn q y hy).1.setIds, (hn q y hy).2.setIds⟩
    · rw [hxp, hxs]
      refine ⟨hgroup.setIds, Members.Leads.setIds ?_⟩
      rcases hsid with rfl | rfl
      · exact (hn q y hy).2
      · exact hself
  | frees | tidies | acquires | shows => exact hn
  | forks | ends => grind [Members.Leads]
  | goes => grind [Members.Leads, Deserted]

/-- A number that no task has is in no group. -/
theorem Numbered.unused (hn : Numbered j) (hfree : j.member p = none) :
    Unused j p := by
  intro q m hm
  obtain ⟨⟨x, hx, -⟩, y, hy, -⟩ := hn q m hm
  constructor
  · rintro rfl
    cases hfree.symm.trans hx
  · rintro rfl
    cases hfree.symm.trans hy

theorem ThreadMove.unused (h : ThreadMove j j') (hu : Unused j p) : Unused j' p := by
  unfold Unused at hu ⊢
  cases h with
  | ends | goes => grind

theorem ThreadMove.free (h : ThreadMove j j') (hfree : j.member p = none) : j'.member p = none := by
  cases h with
  | ends | goes => grind

/-- Only a process takes its number for a group that nobody is in. -/
theorem Move.unused (h : Move R Q j j') (hfree : j.member p = none) (hu : Unused j p) :
    Unused j' p := by
  unfold Unused at hu ⊢
  cases h with
  | setsIds hl hleads hpgid hsid hc =>
    intro q x hx
    rename_i l pgid sid m c
    have hself : l ≠ p := by
      rintro rfl
      cases hfree.symm.trans hl
    obtain ⟨y, hy, -, -, ⟨hxp, hxs, -⟩ | ⟨hxp, hxs⟩⟩ := Members.setIds_eq_some hx
    · rw [hxp, hxs]
      exact hu q y hy
    · rw [hxp, hxs]
      constructor
      · rcases hpgid with rfl | ⟨u, z, hz, rfl⟩
        · exact hself
        · exact (hu u z hz).1
      · rcases hsid with rfl | rfl
        · exact (hu q y hy).2
        · exact hself
  | frees | tidies | acquires | shows => exact hu
  | forks | clones | ends | goes => grind

namespace Table

/-- In every run that releases a process only after its group and its session are left, a
pid for a new task is the number of no group and no session, neither before the step that
takes it nor after. -/
theorem fresh_numbers {s : Table} (hrun : Lib.Runs Step (Guarded Deserted fun _ _ => True) boot s)
    {p : Pid} (halloc : s.allocPid = some p) :
    Unused s.roster p ∧ ∀ a s', s.next a = some s' → Unused s'.roster p := by
  have hfree : s.roster.member p = none := roster_member_none (allocPid_spec halloc).2
  have hboot : Numbered boot.roster := by
    intro q m hm
    obtain ⟨-, rfl⟩ := boot_member hm
    exact ⟨⟨_, hm, rfl⟩, _, hm, rfl⟩
  obtain ⟨hg, ha, hn⟩ := runs_keep hboot (fun _ _ _ hn hmove => hmove.numbered hn)
    (fun _ _ hg _ hn hmove => hmove.numbered hg hn) hrun
  have hunused := hn.unused hfree
  refine ⟨hunused, fun a s' hnext => ?_⟩
  -- threads may go before the task comes, and the pid stays free meanwhile
  refine Does.induct (I := fun j => j.member p = none ∧ Unused j p) (J := fun j => Unused j p)
    (next_does hg ha (guarded_true s a) hnext) hg ha ⟨hfree, hunused⟩ ?_ (fun _ h => h.2) ?_ ?_
  · exact fun _ _ _ h hmove => ⟨hmove.free h.1, hmove.unused h.2⟩
  · exact fun _ _ _ _ h hmove => hmove.unused h.1 h.2
  · exact fun _ _ _ h hmove => hmove.unused h

/-- Init forks, and its child ends and is waited for. -/
theorem fresh_numbers_after_wait :
    ∃ s, Lib.Runs Step (Guarded Deserted fun _ _ => True) boot s ∧ s.allocPid = some 4 ∧
      Unused s.roster 4 := by
  have hrun : (Lib.runAll next (fun s a => decide (Guarded Deserted (fun _ _ => True) s a))
      [.fork 1, .exit 4 7, .wait4 1 none fun _ => true, .wait4Finish 1] boot).any
      (fun s => decide (s.allocPid = some 4)) = true := by decide +kernel
  obtain ⟨s, heq, halloc⟩ := (Option.any_eq_true _ _).mp hrun
  have hreach : Lib.Runs Step (Guarded Deserted fun _ _ => True) boot s :=
    Lib.Runs.of_runAll (fun _ _ _ h => h) (fun _ _ hok => of_decide_eq_true hok) heq
  have halloc := of_decide_eq_true halloc
  exact ⟨s, hreach, halloc, (fresh_numbers hreach halloc).1⟩

/-- A child of init makes a group, forks and ends.  After init has waited for it, its pid is
free while its own child is alive in the group; the next child of init gets the number. -/
theorem reused_group : ∃ s s' x y, Lib.Runs Step (fun _ _ => True) boot s ∧ s.allocPid = some 4 ∧
      s.next (.fork 1) = some s' ∧ s.task 4 = none ∧ s'.task 4 = some x ∧ x.pgid = 1 ∧
      s'.task 5 = some y ∧ s.task 5 = some y ∧ y.zombie = false ∧ y.pgid = 4 := by
  have hrun : ((Lib.runAll next (fun _ _ => true) [.fork 1, .setpgid 4 0 0, .fork 4, .exit 4 0,
      .wait4 1 none fun _ => true, .wait4Finish 1] boot).any fun s =>
        decide (s.allocPid = some 4) && decide (s.task 4 = none) &&
        ((s.next (.fork 1)).any fun s' => (s'.task 4).any (fun x => decide (x.pgid = 1)) &&
          decide (s'.task 5 = s.task 5)) &&
        (s.task 5).any fun y => decide (y.zombie = false) && decide (y.pgid = 4)) = true := by
    decide +kernel
  obtain ⟨s, heq, hstate⟩ := (Option.any_eq_true _ _).mp hrun
  simp only [Bool.and_eq_true, decide_eq_true_eq, Option.any_eq_true] at hstate
  obtain ⟨⟨⟨halloc, hfree⟩, s', hnext, ⟨x, hx, hxp⟩, hsame⟩, y, hy, hlive, hyp⟩ := hstate
  exact ⟨s, s', x, y, Lib.Runs.of_runAll (fun _ _ _ h => h) (fun _ _ _ => trivial) heq, halloc,
    hnext, hfree, hx, hxp, hsame.trans hy, hy, hlive, hyp⟩

end Table

/-! ## The foreground of the console -/

/-- A process of the group and session that is alive. -/
def Members.LiveProcess (V : Members) (q pgid sid : Pid) : Prop :=
  ∃ m ∈ V q, m.leader = q ∧ m.zombie = false ∧ m.pgid = pgid ∧ m.sid = sid

/-- The session that owns the console has its leader alive, and the foreground has a process
of that session. -/
structure ConsoleOk (j : Roster) : Prop where
  owner : j.console.session = 0 ∨
    ∃ pgid, j.member.LiveProcess j.console.session pgid j.console.session
  foreground : j.console.foregroundPgid = 0 ∨ j.console.session ≠ 0 ∧
    ∃ q, j.member.LiveProcess q j.console.foregroundPgid j.console.session

/-- A process that a thread ends is not in the foreground, leads the session of the console,
or leaves another process in its group. -/
def Replaced (j : Roster) (l : Pid) : Prop :=
  ∀ m ∈ j.member l, j.console.session = m.sid → j.console.foregroundPgid = m.pgid →
    m.sid = l ∨ ∃ q < pidCount, q ≠ l ∧ j.member.LiveProcess q m.pgid m.sid

instance (j : Roster) (l : Pid) : Decidable (Replaced j l) := by
  unfold Replaced Members.LiveProcess
  infer_instance

/-- Where a task of a group is alive, its leader is, in the same group. -/
theorem Grouped.liveProcess (hg : Grouped j) (ha : Alive j) {sid : Pid}
    (h : j.member.LiveMember pgid sid ignored) :
    ∃ u x, j.member u = some x ∧ ignored ≠ some u ∧ x.zombie = false ∧
      j.member.LiveProcess x.leader pgid sid := by
  obtain ⟨u, x, hu, hne, rfl, rfl, hlive⟩ := h
  obtain ⟨y, hy, hleads, hylive, hpgid, hsid⟩ := hg.leader_alive ha hu hlive
  exact ⟨u, x, hu, hne, hlive, y, hy, hleads, hylive, hpgid.symm, hsid.symm⟩

/-- A live process stays one when another task changes, or when it keeps its numbers. -/
theorem Members.LiveProcess.update {q u sid : Pid} {a : Option Member}
    (h : V.LiveProcess q pgid sid)
    (ha : ∀ m, V u = some m → m.leader = u → m.zombie = false →
      ∃ x, a = some x ∧ x.leader = u ∧ x.zombie = false ∧ x.pgid = m.pgid ∧ x.sid = m.sid) :
    Members.LiveProcess (Function.update V u a) q pgid sid := by
  obtain ⟨m, hm, hleads, hlive, rfl, rfl⟩ := h
  unfold Members.LiveProcess
  by_cases hq : q = u
  · subst hq
    rw [Function.update_self]
    exact ha m hm hleads hlive
  · rw [Function.update_of_ne hq]
    exact ⟨m, hm, hleads, hlive, rfl, rfl⟩

/-- Nothing is lost as long as the live processes keep their groups. -/
theorem ConsoleOk.mono (hok : ConsoleOk j) (hsession : j'.console.session = j.console.session)
    (hforeground : j'.console.foregroundPgid = 0 ∨
      j'.console.foregroundPgid = j.console.foregroundPgid)
    (hkeep : ∀ q pgid sid, j.member.LiveProcess q pgid sid → j'.member.LiveProcess q pgid sid) :
    ConsoleOk j' := by
  constructor
  case owner =>
    rw [hsession]
    exact hok.owner.imp_right fun ⟨pgid, howner⟩ => ⟨pgid, hkeep _ _ _ howner⟩
  case foreground =>
    rw [hsession]
    rcases hforeground with hnone | hsame
    · exact .inl hnone
    · rw [hsame]
      exact hok.foreground.imp_right fun ⟨hpos, q, hq⟩ => ⟨hpos, q, hkeep _ _ _ hq⟩

theorem ThreadMove.consoleOk (h : ThreadMove j j') (hok : ConsoleOk j) :
    ConsoleOk j' := by
  cases h with
  | ends exited hu hne hlive hy hexited =>
    refine hok.mono rfl (.inr rfl) fun q pgid sid hq => (hq.update ?_).update ?_
    · grind
    · grind
  | goes hu hne hzombie =>
    refine hok.mono rfl (.inr rfl) fun q pgid sid hq => hq.update ?_
    grind

variable {c : Console} {m : Member}

/-- One process leaves a group that was looked at: where it was in the foreground, another
process is found there or the foreground is cleared. -/
theorem foreground_passes {V' W : Members} {c' : Console} (hl : V l = some m)
    (hforeground : c.foregroundPgid = 0 ∨ c.session ≠ 0 ∧
      ∃ q, V.LiveProcess q c.foregroundPgid c.session)
    (hkeep : ∀ {q pgid sid}, q ≠ l → V.LiveProcess q pgid sid → V'.LiveProcess q pgid sid)
    (hc : Tidied W c c' m.pgid m.sid ignored)
    (hother : c.session = m.sid → c.foregroundPgid = m.pgid → m.sid ≠ 0 →
      W.LiveMember m.pgid m.sid ignored → ∃ q, V'.LiveProcess q m.pgid m.sid) :
    c'.foregroundPgid = 0 ∨ c'.session ≠ 0 ∧
      ∃ q, V'.LiveProcess q c'.foregroundPgid c'.session := by
  obtain ⟨hsession, hnone | ⟨hsame, hlooked⟩⟩ := hc
  · exact .inl hnone
  rw [hsession, hsame]
  refine or_iff_not_imp_left.mpr fun hshown => ?_
  obtain ⟨hpos, q, hlive⟩ := hforeground.resolve_left hshown
  refine ⟨hpos, ?_⟩
  by_cases hq : q = l
  · obtain ⟨x, hx, -, -, hpgid, hsid⟩ := hlive
    rw [hq, hl] at hx
    cases hx
    rw [← hsid] at hpos
    rw [← hpgid] at hshown
    have hfound := hlooked hsid.symm hpgid.symm hpos hshown
    rw [← hpgid, ← hsid]
    exact hother hsid.symm hpgid.symm hpos hfound
  · exact ⟨q, hkeep hq hlive⟩

/-- A process that ends: another process takes its place in the foreground, or the
foreground is cleared. -/
theorem consoleOk_ends (hg : Grouped j)
    (ha : Alive j) (hok : ConsoleOk j) (hl : j.member l = some m)
    (hthreads : m.threads = [] ∨ Replaced j l)
    (howner : m.sid = l → j.console.session = l → l = 0)
    (hc : Tidied j.member j.console c m.pgid m.sid (some l)) :
    ConsoleOk ⟨Function.update j.member l (some { m with zombie := true }), j.exited, c⟩ := by
  have hkeep : ∀ {q pgid sid}, q ≠ l → j.member.LiveProcess q pgid sid →
      Members.LiveProcess (Function.update j.member l (some { m with zombie := true })) q pgid
        sid := by
    rintro q pgid sid hne ⟨x, hx, hrest⟩
    exact ⟨x, (Function.update_of_ne hne ..).trans hx, hrest⟩
  constructor
  case owner =>
    rw [hc.1]
    rcases hok.owner with hnone | ⟨pgid, hlive⟩
    · exact .inl hnone
    · refine or_iff_not_imp_left.mpr fun hpos => ⟨pgid, hkeep (fun heq => hpos ?_) hlive⟩
      -- the leader of the session that owns the console would have given it up
      obtain ⟨x, hx, -, -, -, hsid⟩ := hlive
      rw [heq, hl] at hx
      cases hx
      exact heq.trans (howner (hsid.trans heq) heq)
  case foreground =>
    refine foreground_passes hl hok.foreground hkeep hc fun hsid hpgid hpos hfound => ?_
    rcases hthreads with hnone | hreplaced
    · -- a task that was found leads, or follows, another process
      obtain ⟨u, x, hu, hne, hxlive, hlive⟩ := hg.liveProcess ha hfound
      refine ⟨x.leader, hkeep (fun hxl => ?_) hlive⟩
      obtain ⟨y, hy, -, hmem, -⟩ := hg.thread u x hu (fun heq => hne (hxl ▸ heq ▸ rfl)) hxlive
      rw [hxl, hl] at hy
      cases hy
      rw [hnone] at hmem
      cases hmem
    · rcases hreplaced m hl hsid hpgid with hself | ⟨u, -, hne, hlive⟩
      · exact absurd (hself.trans (howner hself (hsid.trans hself))) hpos
      · exact ⟨u, hkeep hne hlive⟩

/-- A process that moves to another group: a process that stays takes its place, or the
foreground is cleared. -/
theorem consoleOk_setIds (hg : Grouped j) (hok : ConsoleOk j) (hl : j.member l = some m)
    (hsid : sid = none ∨ sid = some l)
    (hc : Tidied (j.member.setIds l m.threads pgid sid) j.console c m.pgid m.sid none)
    (hg' : Grouped ⟨j.member.setIds l m.threads pgid sid, j.exited, c⟩)
    (ha' : Alive ⟨j.member.setIds l m.threads pgid sid, j.exited, c⟩) :
    ConsoleOk ⟨j.member.setIds l m.threads pgid sid, j.exited, c⟩ := by
  have hkeep : ∀ {q pgid' sid'}, q ≠ l → j.member.LiveProcess q pgid' sid' →
      (j.member.setIds l m.threads pgid sid).LiveProcess q pgid' sid' := by
    rintro q pgid' sid' hne ⟨x, hx, hleads, hrest⟩
    obtain ⟨x', hx', -, -, -, hsame⟩ := Members.setIds_of_some hx
    refine ⟨x, ?_, hleads, hrest⟩
    rw [Option.mem_def, hx', hsame hne fun hin => ?_]
    obtain ⟨-, -, y, hy, hyl, -⟩ := hg.threads l m q hl hin
    rw [hx] at hy
    cases hy
    exact hne (hleads.symm.trans hyl)
  constructor
  case owner =>
    rw [hc.1]
    refine hok.owner.imp_right fun ⟨pgid', hlive⟩ => ?_
    by_cases howner : j.console.session = l
    · -- a session leader that moves stays in its session
      obtain ⟨x, hx, hleads, hxlive, -, hxsid⟩ := hlive
      obtain ⟨x', hx', hsame, hzombie, hids, -⟩ := Members.setIds_of_some hx
      refine ⟨pgid, x', hx', hsame.trans hleads, hzombie.trans hxlive, (hids howner).1, ?_⟩
      rw [(hids howner).2]
      rcases hsid with rfl | rfl
      · exact hxsid
      · exact howner.symm
    · exact ⟨pgid', hkeep howner hlive⟩
  case foreground =>
    refine foreground_passes hl hok.foreground hkeep hc fun _ _ _ hfound => ?_
    obtain ⟨u, x, -, -, -, hlive⟩ := hg'.liveProcess ha' hfound
    exact ⟨x.leader, hlive⟩

theorem Move.consoleOk (h : Move R Replaced j j') (hg : Grouped j) (ha : Alive j)
    (hok : ConsoleOk j) : ConsoleOk j' := by
  have hg' := h.grouped hg
  cases h with
  | forks hp hfree hlt hsession hforeground =>
    refine hok.mono hsession (.inr hforeground) fun q pgid sid hq => hq.update ?_
    grind
  | clones hl hleads hlive hfree hlt hp hcaller hruns =>
    refine hok.mono rfl (.inr rfl) fun q pgid sid hq => (hq.update ?_).update ?_
    · grind
    · grind
  | setsIds hl hleads hpgid hsid hc =>
    have ha' := (@Move.setsIds R (fun _ _ => False) j _ _ _ _ _ hl hleads hpgid hsid hc).alive ha
    exact consoleOk_setIds hg hok hl hsid hc hg' ha'
  | frees hsession hforeground => exact ⟨.inl hsession, .inl hforeground⟩
  | tidies hsession hforeground => exact hok.mono hsession hforeground fun _ _ _ hq => hq
  | acquires hl hleads hlive hsid hpos hsession hforeground =>
    rename_i l m c
    have hself : j.member.LiveProcess l m.pgid l := ⟨m, hl, hleads, hlive, rfl, hsid⟩
    constructor
    case owner =>
      refine .inr ⟨m.pgid, ?_⟩
      rw [hsession]
      exact hself
    case foreground =>
      refine .inr ⟨hsession ▸ hpos, l, ?_⟩
      rw [hsession, hforeground]
      exact hself
  | shows hpos hsession hmember =>
    obtain ⟨u, x, -, -, -, hlive⟩ := hg.liveProcess ha hmember
    constructor
    case owner =>
      rw [hsession]
      exact hok.owner
    case foreground => exact .inr ⟨hsession ▸ hpos, x.leader, hlive⟩
  | ends hl hleads hlive hq hc =>
    rcases hc with ⟨hsession, hforeground⟩ | ⟨howner, hc⟩
    · exact ⟨.inl hsession, .inl hforeground⟩
    · exact consoleOk_ends hg ha hok hl hq howner hc
  | goes hl hleads hzombie hnone hr =>
    refine hok.mono rfl (.inr rfl) fun q pgid sid hq => hq.update ?_
    grind

namespace Table

/-- In every run in which `exit_group` of a thread takes no last process out of the
foreground, the foreground has a live process of the session that owns the console. -/
theorem foreground_live {s : Table}
    (hrun : Lib.Runs Step (Guarded (fun _ _ => True) Replaced) boot s) : ConsoleOk s.roster :=
  (runs_keep ⟨.inl rfl, .inl rfl⟩ (fun _ _ _ hok hmove => hmove.consoleOk hok)
    (fun _ _ hg ha hok hmove => hmove.consoleOk hg ha hok) hrun).2.2

/-- The leader of a session shows a job on the console, and the job leaves. -/
theorem foreground_live_job :
    ∃ s, Lib.Runs Step (Guarded (fun _ _ => True) Replaced) boot s ∧ s.console.session = 4 ∧
      ConsoleOk s.roster := by
  have hrun : (Lib.runAll next (fun s a => decide (Guarded (fun _ _ => True) Replaced s a))
      [.fork 1, .setsid 4, .acquire 4 false, .fork 4, .setpgid 5 0 0, .setForeground 4 5,
        .cloneThread 5, .exit 6 0, .exitGroup 5 0] boot).any
      (fun s => decide (s.console.session = 4)) = true := by decide +kernel
  obtain ⟨s, heq, hsession⟩ := (Option.any_eq_true _ _).mp hrun
  have hreach : Lib.Runs Step (Guarded (fun _ _ => True) Replaced) boot s :=
    Lib.Runs.of_runAll (fun _ _ _ h => h) (fun _ _ hok => of_decide_eq_true hok) heq
  exact ⟨s, hreach, of_decide_eq_true hsession, foreground_live hreach⟩

/-- A thread of the job in the foreground calls `exit_group`: the foreground stays, and
nobody is in it. -/
theorem stale_foreground : ∃ s, Lib.Runs Step (fun _ _ => True) boot s ∧ s.console.session = 4 ∧
      s.console.foregroundPgid = 5 ∧
      ∀ q x, s.task q = some x → x.zombie = false → x.pgid ≠ 5 := by
  have hrun : (Lib.runAll next (fun _ _ => true)
      [.fork 1, .setsid 4, .acquire 4 false, .fork 4, .setpgid 5 0 0, .setForeground 4 5,
        .cloneThread 5, .exitGroup 6 0] boot).any
      (fun s => decide (s.console.session = 4) && decide (s.console.foregroundPgid = 5) &&
        decide (∀ q < pidCount, ∀ x ∈ s.task q, x.zombie = false → x.pgid ≠ 5)) = true := by
    decide +kernel
  obtain ⟨s, heq, hstate⟩ := (Option.any_eq_true _ _).mp hrun
  simp only [Bool.and_eq_true, decide_eq_true_eq] at hstate
  obtain ⟨⟨hsession, hforeground⟩, hnobody⟩ := hstate
  have hguarded : Lib.Runs Step (Guarded (fun _ _ => True) fun _ _ => True) boot s :=
    Lib.Runs.of_runAll (fun _ _ _ h => h) (fun s a _ => guarded_true s a) heq
  have hgrouped := (runs_keep (I := fun _ => True) trivial (fun _ _ _ _ _ => trivial)
    (fun _ _ _ _ _ _ => trivial) hguarded).1
  refine ⟨s, Lib.Runs.of_runAll (fun _ _ _ h => h) (fun _ _ _ => trivial) heq, hsession,
    hforeground, fun q x hq => hnobody q (hgrouped.bound q _ (roster_member hq)) x hq⟩

end Table

end CuteOS.Jobs
