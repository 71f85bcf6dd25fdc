/-
  Jobs/Table.lean --- pids, process groups, sessions and the console they own.

  Sources: `kernel/pid.c`, `kernel/task.c`, `kernel/fork.c`, `kernel/exit.c`,
  `kernel/session.c`, `kernel/tty.c`.

  A task is known by its pid: `task_alloc` takes one and `task_destroy` gives it back, so
  there is at most one `task_struct` for a pid.  References that other functions take are
  given back before they return, so `release_task` frees the pid at once.  The kernel
  switches tasks when one of them sleeps, ends or returns to user mode; `wait4` copies its
  results out between the claim of an event and its commit, and may sleep there.

  What these functions do to signals, files, memory and wait queues is left out.
-/
import CuteOS.Kernel.Task

set_option autoImplicit false

namespace CuteOS.Jobs

open Kernel (ChildEventType)

/-- `pid_t`, for a task that exists. -/
abbrev Pid := Nat

/-- `PID_COUNT`. -/
def pidCount : Nat := 256

/-- `init_task`; `set_init_task` insists on pid 1. -/
def initTask : Pid := 1

/-- `struct task_cputime`. -/
structure CpuTime where
  utime : Nat := 0
  stime : Nat := 0
  deriving DecidableEq, Repr

/-- `cputime_add`. -/
def CpuTime.add (dst src : CpuTime) : CpuTime := ⟨dst.utime + src.utime, dst.stime + src.stime⟩

/-- `struct task_child_event_record`. -/
structure ChildEvent where
  type : ChildEventType
  status : Nat
  sequence : Nat
  claimer : Option Pid := none
  deriving DecidableEq, Repr

/-- `struct wait4_result`, for a call that has claimed an event. -/
structure Wait4Result where
  child : Pid
  sequence : Nat
  type : ChildEventType
  status : Nat
  cputime : CpuTime
  deriving DecidableEq, Repr

/-- `struct task_struct`; `wait` is the result of the `wait4` call the task is in. -/
structure Proc where
  leader : Pid
  pgid : Pid
  sid : Pid
  zombie : Bool := false
  parent : Option Pid := none
  children : List Pid := []
  threadGroup : List Pid := []
  childEvents : List ChildEvent := []
  nextChildEventSequence : Nat := 0
  cputime : CpuTime := {}
  childCputime : CpuTime := {}
  wait : Option Wait4Result := none
  deriving DecidableEq, Repr

/-- `task_cputime_total`. -/
def Proc.cputimeTotal (t : Proc) : CpuTime := t.cputime.add t.childCputime

/-- `task_child_event_publish_locked`. -/
def Proc.publish (t : Proc) (type : ChildEventType) (status : Nat) : Proc :=
  { t with
    nextChildEventSequence := t.nextChildEventSequence + 1
    childEvents := t.childEvents ++ [⟨type, status, t.nextChildEventSequence + 1, none⟩] }

/-- `task_child_event_find_locked`. -/
def Proc.findEvent (t : Proc) (mask : ChildEventType → Bool) : Option ChildEvent :=
  t.childEvents.find? fun event => event.claimer.isNone && mask event.type

/-- What `release_task` insists on. -/
def Proc.releasable (t : Proc) : Bool := t.zombie && t.children.isEmpty && t.threadGroup.isEmpty

/-- `struct tty_process_attachment`. -/
structure Attachment where
  leaderPid : Pid
  session : Pid
  deriving DecidableEq, Repr

/-- `console_tty`. -/
structure Console where
  session : Pid := 0
  foregroundPgid : Pid := 0
  attachments : List Attachment := []
  deriving DecidableEq, Repr

/-- The tasks by pid, `exited_threads` and the console. -/
structure Table where
  task : Pid → Option Proc
  exitedThreads : List Pid := []
  console : Console := {}

namespace Table

/-- Write to one `task_struct`. -/
def modify (s : Table) (p : Pid) (f : Proc → Proc) : Table :=
  { s with task := Function.update s.task p ((s.task p).map f) }

section Modify

variable (s : Table) {p q : Pid} (f : Proc → Proc)

@[simp] theorem modify_task_of_ne (h : q ≠ p) : (s.modify p f).task q = s.task q := by
  simp [modify, h]

end Modify

/-! ## Process groups and sessions -/

/-- `alloc_pid`. -/
def allocPid (s : Table) : Option Pid := (List.range pidCount).find? fun p => (s.task p).isNone

/-- `pid_visit_published`. -/
def pidVisitPublished (s : Table) (visit : Pid → Proc → Bool) : Bool :=
  (List.range pidCount).any fun p => p ≠ 0 && (s.task p).any (visit p)

/-- `task_pgid_exists_locked`. -/
def taskPgidExists (s : Table) (pgid : Pid) : Bool :=
  s.pidVisitPublished fun _ t => t.pgid = pgid

/-- `task_pgid_in_session_locked`. -/
def taskPgidInSession (s : Table) (pgid sid : Pid) : Bool :=
  s.pidVisitPublished fun _ t => t.pgid = pgid && t.sid = sid

/-- `task_pgid_has_live_member_except`. -/
def taskPgidHasLiveMemberExcept (s : Table) (pgid sid : Pid) (ignored : Option Pid) : Bool :=
  s.pidVisitPublished fun p t => ignored ≠ some p && t.pgid = pgid && t.sid = sid && !t.zombie

/-- `task_set_pgid_all`. -/
def taskSetPgidAll (s : Table) (leader pgid : Pid) : Table :=
  let threads := ((s.task leader).map Proc.threadGroup).getD []
  { s with task := fun p =>
      if p = leader ∨ p ∈ threads then (s.task p).map fun t => { t with pgid := pgid }
      else s.task p }

/-- `task_set_sid_all`. -/
def taskSetSidAll (s : Table) (leader sid : Pid) : Table :=
  let threads := ((s.task leader).map Proc.threadGroup).getD []
  { s with task := fun p =>
      if p = leader ∨ p ∈ threads then (s.task p).map fun t => { t with sid := sid }
      else s.task p }

/-! ## The console -/

/-- `tty_find_attachment_locked`. -/
def ttyFindAttachment (c : Console) (leader : Pid) : Option Attachment :=
  c.attachments.find? fun a => a.leaderPid = leader

/-- `tty_ctty_owned_by_locked`. -/
def ttyCttyOwnedBy (c : Console) (leader sid : Pid) : Bool :=
  sid > 0 && c.session > 0 && c.session = sid &&
    (ttyFindAttachment c leader).any fun a => a.session = sid

/-- `tty_ctty_clone_attachment`; `none` is the `BUG_ON` for an attachment left over. -/
def ttyCttyCloneAttachment (c : Console) (parent child : Pid) : Option Console :=
  match ttyFindAttachment c parent with
  | none => some c
  | some a =>
    if (ttyFindAttachment c child).isSome then none
    else some { c with attachments := c.attachments ++ [⟨child, a.session⟩] }

/-- The attachment of a process that leaves a session is removed. -/
def ttyDropAttachment (c : Console) (leader sid : Pid) : Console :=
  match ttyFindAttachment c leader with
  | none => c
  | some a => if a.session = sid then { c with attachments := c.attachments.erase a } else c

/-- `tty_ctty_remove_task` with the session it has detached, 0 for none. -/
def ttyCttyRemoveTask (c : Console) (leader sid : Pid) (revoke : Bool) : Pid × Console :=
  if revoke ∧ c.session = sid then
    -- tty_detach_session_locked
    if c.session > 0 then (c.session, ⟨0, 0, []⟩) else (0, c)
  else (0, ttyDropAttachment c leader sid)

/-- `tty_ctty_claim`. -/
def ttyCttyClaim (c : Console) (leader sid pgid : Pid) : Console :=
  let c := if c.session > 0 ∧ c.session ≠ sid then (⟨0, 0, []⟩ : Console) else c
  match ttyFindAttachment c leader with
  | none => ⟨sid, pgid, c.attachments ++ [⟨leader, sid⟩]⟩
  | some a =>
    ⟨sid, pgid, c.attachments.map fun b => if b = a then { b with session := sid } else b⟩

/-- `tty_ctty_clear_foreground_if`. -/
def ttyCttyClearForegroundIf (c : Console) (sid pgid : Pid) : Console :=
  if c.session = sid ∧ c.foregroundPgid = pgid then { c with foregroundPgid := 0 } else c

/-- `session_clear_empty_foreground`. -/
def sessionClearEmptyForeground (s : Table) (sid pgid : Pid) (exclude : Option Pid) : Table :=
  if sid = 0 ∨ pgid = 0 ∨ s.taskPgidHasLiveMemberExcept pgid sid exclude then s
  else { s with console := ttyCttyClearForegroundIf s.console sid pgid }

/-- `session_process_cleanup` of a group leader; the signals it sends are left out. -/
def sessionProcessCleanup (s : Table) (p : Pid) (t : Proc) : Table :=
  if t.leader ≠ p then s
  else
    let (detached, console) := ttyCttyRemoveTask s.console p t.sid (t.sid = p)
    let s := { s with console := console }
    if detached = 0 then s.sessionClearEmptyForeground t.sid t.pgid (some p) else s

/-! ## `setsid`, `setpgid` and the console calls -/

/-- `session_process_setsid`; a call that is refused changes nothing. -/
def sessionProcessSetsid (s : Table) (caller : Proc) : Table :=
  match s.task caller.leader with
  | none => s
  | some leader =>
    if s.taskPgidExists caller.leader then s
    else
      let s := (s.taskSetSidAll caller.leader caller.leader).taskSetPgidAll caller.leader
        caller.leader
      let (_, console) := ttyCttyRemoveTask s.console caller.leader leader.sid false
      { s with console := console }.sessionClearEmptyForeground leader.sid leader.pgid none

/-- Whether `task_process_setpgid` lets `self` move `target`. -/
def mayMove (self target : Pid) (s t : Proc) : Bool :=
  t.leader = target && (target = self || t.parent = some self && t.sid = s.sid) && t.sid ≠ target

/-- `session_process_setpgid`. -/
def sessionProcessSetpgid (s : Table) (caller : Proc) (pid pgid : Pid) : Table :=
  let target := if pid = 0 then caller.leader else pid
  let newPgid := if pgid = 0 then target else pgid
  match s.task caller.leader, s.task target with
  | some self, some t =>
    if mayMove caller.leader target self t &&
        (newPgid = target || s.taskPgidInSession newPgid t.sid) then
      (s.taskSetPgidAll target newPgid).sessionClearEmptyForeground t.sid t.pgid none
    else s
  | _, _ => s

/-- `session_console_acquire`; `mayTake` is `steal == 1` and uid 0. -/
def sessionConsoleAcquire (s : Table) (caller : Proc) (mayTake : Bool) : Table :=
  match s.task caller.leader with
  | none => s
  | some leader =>
    if leader.sid ≠ caller.leader then s
    else if s.console.session > 0 ∧ s.console.session ≠ leader.sid ∧ mayTake = false then s
    else if leader.sid = 0 ∨ leader.pgid = 0 then s
    else { s with console := ttyCttyClaim s.console caller.leader leader.sid leader.pgid }

/-- `session_console_release`. -/
def sessionConsoleRelease (s : Table) (caller : Proc) : Table :=
  match s.task caller.leader with
  | none => s
  | some leader =>
    if ttyCttyOwnedBy s.console caller.leader leader.sid then
      { s with
        console := (ttyCttyRemoveTask s.console caller.leader leader.sid
          (leader.sid = caller.leader)).2 }
    else s

/-- `session_console_set_foreground_pgid`. -/
def sessionConsoleSetForegroundPgid (s : Table) (caller : Proc) (pgid : Pid) : Table :=
  match s.task caller.leader with
  | none => s
  | some leader =>
    if ttyCttyOwnedBy s.console caller.leader leader.sid && pgid > 0 &&
        s.taskPgidHasLiveMemberExcept pgid leader.sid none then
      { s with console := { s.console with foregroundPgid := pgid } }
    else s

/-! ## Tasks come -/

/-- A process that is its own leader, as `task_alloc` makes it. -/
def taskAlloc (p : Pid) : Proc := { leader := p, pgid := p, sid := p }

/-- `kernel_clone` without `CLONE_THREAD`, for a caller that leads its group: `none` when
the kernel stops, and an unchanged table when there is no pid. -/
def fork (s : Table) (p : Pid) (t : Proc) : Option Table :=
  match s.allocPid with
  | none => some s
  | some child =>
    (ttyCttyCloneAttachment s.console t.leader child).map fun console =>
      let s := s.modify p fun t => { t with children := t.children ++ [child] }
      { s with
        task := Function.update s.task child (some
          { taskAlloc child with pgid := t.pgid, sid := t.sid, parent := some p })
        console := console }

/-- `child_cleanup` of a clone that fails; `named` when `session_process_clone_prepare` has
given the child the numbers of its parent. -/
def forkFails (s : Table) (t : Proc) (named : Bool) : Table :=
  match s.allocPid with
  | none => s
  | some child =>
    s.sessionProcessCleanup child
      (if named then { taskAlloc child with pgid := t.pgid, sid := t.sid } else taskAlloc child)

/-- `kernel_clone` with `CLONE_THREAD`. -/
def cloneThread (s : Table) (t : Proc) : Table :=
  match s.allocPid with
  | none => s
  | some child =>
    let s := s.modify t.leader fun leader =>
      { leader with threadGroup := leader.threadGroup ++ [child] }
    { s with task := Function.update s.task child (some
        { leader := t.leader, pgid := t.pgid, sid := t.sid, parent := some t.leader }) }

/-! ## Tasks go -/

/-- One turn of `task_reparent_children_locked`. -/
def reparentChild (s : Table) (child : Pid) : Table :=
  let s := s.modify child fun t =>
    { t with
      parent := some initTask
      childEvents := t.childEvents.map fun event => { event with claimer := none } }
  s.modify initTask fun t => { t with children := t.children ++ [child] }

/-- `task_reparent_children_locked`. -/
def taskReparentChildren (s : Table) (dead : Pid) (children : List Pid) : Table :=
  children.foldl reparentChild (s.modify dead fun t => { t with children := [] })

/-- `task_child_publish_exit`. -/
def taskChildPublishExit (s : Table) (p : Pid) (t : Proc) (status : Nat) : Table :=
  (s.taskReparentChildren p t.children).modify p fun t =>
    Proc.publish { t with zombie := true } .exit status

/-- The end of `finish_task_exit` for a thread that is no leader. -/
def threadExit (s : Table) (p : Pid) (t : Proc) (current : Bool) : Table :=
  let s := s.modify t.leader fun leader =>
    { leader with threadGroup := leader.threadGroup.erase p }
  let s := s.modify p fun t => { t with zombie := true }
  if current then { s with exitedThreads := s.exitedThreads ++ [p] } else s

/-- `finish_task_exit`. -/
def finishTaskExit (s : Table) (p : Pid) (status : Nat) (current : Bool) : Table :=
  match s.task p with
  | none => s
  | some t =>
    if t.zombie then s
    else
      let s := s.sessionProcessCleanup p t
      if t.leader = p then s.taskChildPublishExit p t status else s.threadExit p t current

/-- `release_task`: the pid is free again. -/
def releaseTask (s : Table) (p : Pid) : Table :=
  match s.task p with
  | none => s
  | some t =>
    let s := match t.parent with
      | none => s
      | some parent => s.modify parent fun q => { q with children := q.children.erase p }
    { s with
      task := Function.update s.task p none
      exitedThreads := s.exitedThreads.erase p }

/-- One turn of `reap_other_threads`. -/
def reapThread (current : Pid) (status : Nat) (s : Table) (thread : Pid) : Table :=
  if thread = current then s else (s.finishTaskExit thread status false).releaseTask thread

/-- `reap_other_threads`. -/
def reapOtherThreads (s : Table) (leader current : Pid) (status : Nat) : Table :=
  (((s.task leader).map Proc.threadGroup).getD []).foldl (reapThread current status) s

/-- `do_exit_status`. -/
def doExitStatus (s : Table) (p : Pid) (t : Proc) (status : Nat) : Table :=
  if t.leader = p then (s.reapOtherThreads p p status).finishTaskExit p status true
  else s.finishTaskExit p status true

/-- `do_exit_group`. -/
def doExitGroup (s : Table) (p : Pid) (t : Proc) (status : Nat) : Table :=
  let s := if t.leader = p then s else s.finishTaskExit t.leader status false
  (s.reapOtherThreads t.leader p status).finishTaskExit p status true

/-! ## `wait4` -/

/-- `task_child_matches`; no selector stands for pid -1. -/
def taskChildMatches (s : Table) (selector : Option Pid) (child : Pid) : Bool :=
  (s.task child).any fun t => t.leader = child && (selector = none || selector = some child)

/-- `enum task_child_wait_state`, with the event that was found. -/
inductive WaitState where
  | event (child : Pid) (t : Proc) (event : ChildEvent)
  | noEvent
  | noChild

/-- The first event of the children that match. -/
def firstEvent (s : Table) (selector : Option Pid) (mask : ChildEventType → Bool) :
    List Pid → Option (Pid × Proc × ChildEvent)
  | [] => none
  | child :: rest =>
    match if s.taskChildMatches selector child then s.task child else none with
    | none => firstEvent s selector mask rest
    | some t =>
      match t.findEvent mask with
      | none => firstEvent s selector mask rest
      | some event => some (child, t, event)

/-- `task_child_event_observe_locked`. -/
def taskChildEventObserve (s : Table) (parent : Proc) (selector : Option Pid)
    (mask : ChildEventType → Bool) : WaitState :=
  match s.firstEvent selector mask parent.children with
  | some (child, t, event) => .event child t event
  | none => if parent.children.any (s.taskChildMatches selector) then .noEvent else .noChild

/-- The event of a task with a sequence number gets another claimer. -/
def setClaimer (s : Table) (child : Pid) (sequence : Nat) (claimer : Option Pid) : Table :=
  s.modify child fun t =>
    { t with childEvents := t.childEvents.map fun event =>
        if event.sequence = sequence then { event with claimer := claimer } else event }

/-- `task_child_event_claim_next` in `kernel_wait4`, for an event that was found. -/
def claimEvent (s : Table) (p child : Pid) (t : Proc) (event : ChildEvent) : Table :=
  (s.setClaimer child event.sequence (some p)).modify p fun q =>
    { q with wait := some ⟨child, event.sequence, event.type, event.status, t.cputimeTotal⟩ }

/-- The event a claim is for, if the claim still holds. -/
def claimed (s : Table) (p : Pid) (r : Wait4Result) : Option (Proc × ChildEvent) :=
  (s.task r.child).bind fun t =>
    ((t.childEvents.find? fun event => event.sequence = r.sequence).filter
      fun event => event.claimer = some p).map (t, ·)

/-- `kernel_wait4_finish`; `none` when one of its `BUG_ON`s, or of `release_task`, holds. -/
def kernelWait4Finish (s : Table) (p : Pid) (q : Proc) (r : Wait4Result) : Option Table :=
  match s.claimed p r with
  | none => none
  | some (_, event) =>
    let s := s.modify r.child fun t => { t with childEvents := t.childEvents.erase event }
    let s := s.modify p fun q => { q with wait := none }
    match r.type with
    | .exit =>
      if (s.task r.child).any Proc.releasable then
        let s := s.modify q.leader fun l =>
          { l with childCputime := l.childCputime.add r.cputime }
        some (s.releaseTask r.child)
      else none
    | _ => some s

/-- `kernel_wait4_abort`. -/
def kernelWait4Abort (s : Table) (p : Pid) (r : Wait4Result) : Table :=
  let s := match s.claimed p r with
    | none => s
    | some _ => s.setClaimer r.child r.sequence none
  s.modify p fun q => { q with wait := none }

/-! ## Steps -/

/-- What a task can do; all but the last three are system calls. -/
inductive Act where
  | fork (p : Pid)
  | forkFails (p : Pid) (named : Bool)
  | cloneThread (p : Pid)
  | exit (p : Pid) (status : Nat)
  | exitGroup (p : Pid) (status : Nat)
  | wait4 (p : Pid) (selector : Option Pid) (mask : ChildEventType → Bool)
  | wait4Finish (p : Pid)
  | wait4Abort (p : Pid)
  | setsid (p : Pid)
  | setpgid (p pid pgid : Pid)
  | acquire (p : Pid) (mayTake : Bool)
  | release (p : Pid)
  | setForeground (p pgid : Pid)
  /-- A signal stops or continues the task. -/
  | publish (p : Pid) (type : ChildEventType) (status : Nat)
  /-- A timer tick while the task runs. -/
  | tick (p : Pid) (user : Bool)
  /-- `reap_exited_threads`, one thread of the list. -/
  | reap (thread : Pid)

/-- A task that can run; task 0 idles. -/
def runs (s : Table) (p : Pid) : Option Proc :=
  if p = 0 then none else (s.task p).filter fun t => !t.zombie

/-- A task that can make a system call: it is not inside of `wait4`. -/
def calls (s : Table) (p : Pid) : Option Proc := (s.runs p).filter fun t => t.wait.isNone

/-- `task_reparent_children_locked` never ends when init itself goes with children. -/
def hangs (s : Table) (t : Proc) : Bool :=
  t.leader = initTask && (s.task t.leader).any fun l => !l.children.isEmpty

def next (s : Table) : Act → Option Table
  | .fork p => (s.calls p).bind fun t => if t.leader = p then s.fork p t else some s
  | .forkFails p named => (s.calls p).map fun t => s.forkFails t named
  | .cloneThread p => (s.calls p).map s.cloneThread
  | .exit p status =>
    (s.calls p).bind fun t =>
      if t.leader = p ∧ s.hangs t then none else some (s.doExitStatus p t status)
  | .exitGroup p status =>
    (s.calls p).bind fun t => if s.hangs t then none else some (s.doExitGroup p t status)
  | .wait4 p selector mask =>
    (s.calls p).map fun t =>
      match s.taskChildEventObserve t selector mask with
      | .event child c event => s.claimEvent p child c event
      | _ => s
  | .wait4Finish p => (s.runs p).bind fun q => q.wait.bind (s.kernelWait4Finish p q)
  | .wait4Abort p => (s.runs p).bind fun q => q.wait.map (s.kernelWait4Abort p)
  | .setsid p => (s.calls p).map s.sessionProcessSetsid
  | .setpgid p pid pgid => (s.calls p).map fun t => s.sessionProcessSetpgid t pid pgid
  | .acquire p mayTake => (s.calls p).map fun t => s.sessionConsoleAcquire t mayTake
  | .release p => (s.calls p).map s.sessionConsoleRelease
  | .setForeground p pgid => (s.calls p).map fun t => s.sessionConsoleSetForegroundPgid t pgid
  | .publish p type status =>
    (s.runs p).map fun t =>
      if t.leader = p ∧ type ≠ .exit then s.modify p fun t => t.publish type status else s
  | .tick p user =>
    (s.runs p).map fun _ => s.modify p fun t =>
      { t with cputime := t.cputime.add (if user then ⟨1, 0⟩ else ⟨0, 1⟩) }
  | .reap thread => if thread ∈ s.exitedThreads then some (s.releaseTask thread) else none

/-- After boot: the idle task, init, and the kernel threads for the console and for
writing back. -/
def boot : Table where
  task p :=
    match p with
    | 0 => some { taskAlloc 0 with children := [1, 2, 3] }
    | 1 | 2 | 3 => some { taskAlloc p with parent := some 0 }
    | _ => none

end Table

end CuteOS.Jobs
