/-
  Kernel/ForcedExit.lean --- what is left of a blocked thread that another thread ends.

  Sources: `kernel/exit.c` (`finish_task_exit`, `release_task`), `kernel/futex.c`
  (`futex_wait`), `kernel/mutex.c`, `kernel/printk.c` (`printk_log_read`), `kernel/fork.c`
  (`clone_wait_for_vfork`), `kernel/signal.c`, `fs/pipe.c`, `fs/vfs/eventpoll.c`,
  `fs/vfs/fdtable.c`, `syscall/sys_file_io.c`, `syscall/sys_file_poll.c`,
  `syscall/sys_time.c`.

  A system call that blocks has taken things that only the rest of its code gives back:
  references to files, mutexes, the node of `struct futex_waiter` in its bucket.  A thread
  that `reap_other_threads` or `do_exit_group` ends does not run that code.  The exit undoes
  the wait session (`wait_cancel_task`) and drops the structures that the thread shares with
  others (`close_files`, `exit_fs`, `release_task_mm`).

  References are kept with the holder of each: the count of the source is the length of the
  list.  A task is a `struct task_struct`, so the number of a released one does not come back.
  Between two events a system call does not lose the processor, so an event is either a whole
  non-blocking piece of work or the way into or out of `wait_for`.
-/
import CuteOS.Kernel.WaitQueue
import CuteOS.Lib.Runs

set_option autoImplicit false

namespace CuteOS.Kernel.ForcedExit

open CuteOS.Lib
open Function (update update_self update_of_ne)

/-! ## Blocking system calls -/

/-- The objects with a reference count. -/
inductive Object where
  | file (n : Nat)
  | path (n : Nat)
  | page (n : Nat)
  | inode (n : Nat)
  | task (n : Nat)
  deriving DecidableEq, Repr

/-- Who has to give a reference back: a system call, by the kernel stack it runs on, or a
`files_struct`, `fs_struct` or `mm_struct`. -/
inductive Holder where
  | stack (t : TaskId)
  | table (n : Nat)
  deriving DecidableEq, Repr

inductive Mutex where
  /-- `printk_ring.read_lock` -/
  | printkReadLock
  | other (n : Nat)
  deriving DecidableEq, Repr

inductive Channel where
  /-- `mutex->wait` -/
  | mutex (mx : Mutex)
  /-- `waiter.wait` of the `struct futex_waiter` on the stack of the thread -/
  | futexWaiter (t : TaskId)
  /-- `task->links.wait_child_queue` -/
  | childQueue (t : TaskId)
  /-- `child->vfork.completion_wait` -/
  | vforkCompletion (child : TaskId)
  /-- `printk_ring.read_wait` -/
  | printkReadWait
  /-- `console_input.readable` -/
  | consoleReadable
  /-- `pipe->readers_wq`, `pipe->writers_wq` -/
  | pipeReaders (n : Nat)
  | pipeWriters (n : Nat)
  /-- `ep->waitq` -/
  | eventpoll (n : Nat)
  deriving DecidableEq, Repr

/-- `struct futex_key` -/
structure FutexKey where
  mm : Nat
  uaddr : Nat
  deriving DecidableEq, Repr

/-- `struct futex_waiter`, with the thread on whose stack it lies. -/
structure FutexWaiter where
  task : TaskId
  key : FutexKey
  deriving DecidableEq, Repr

/-- `futex_bucket_for`, with `FUTEX_BUCKETS` of 32. -/
def futexBucketFor (key : FutexKey) : Fin 32 :=
  Fin.ofNat 32 ((key.mm >>> 3) ^^^ (key.uaddr >>> 2))

/-- The calls of `wait_for` that a user thread can be blocked in, with the data that say what
the system call has taken and what it waits for. -/
inductive BlockedCall where
  /-- `sys_nanosleep`, `sys_clock_nanosleep` -/
  | nanosleep
  /-- `signal_sigsuspend` -/
  | sigsuspend
  /-- `signal_wait_pending` -/
  | sigtimedwait (timed : Bool)
  /-- `kernel_wait4` -/
  | wait4
  /-- `clone_wait_for_vfork` -/
  | vfork (child : TaskId)
  /-- `futex_wait` -/
  | futexWait (key : FutexKey) (timed : Bool)
  /-- `pipe_read`, `pipe_write` and `console_read`, from `read`, `write`, `readv` and `writev` -/
  | fileWait (file : Nat) (ch : Channel)
  /-- The same from `sendfile` and `splice`. -/
  | copyWait (inFile outFile : Nat) (ch : Channel)
  /-- `poll_wait`, from `ppoll` and `pselect6`: the files of the valid descriptors -/
  | poll (files : List Nat) (channels : List Channel) (timed : Bool)
  /-- `eventpoll_wait`: the epoll file and the files of its items -/
  | epollWait (epfile ep : Nat) (items : List Nat) (channels : List Channel) (timed : Bool)
  /-- `printk_log_read` -/
  | printkLogRead
  /-- `mutex_lock`, with the mutexes and references of the code that called it -/
  | mutexLock (mx : Mutex) (held : List Mutex) (refs : List Object)
  deriving DecidableEq, Repr

/-- What a system call has to give back before it returns. -/
structure Holds where
  refs : List Object
  mutexes : List Mutex
  futexKey : Option FutexKey
  deriving DecidableEq, Repr

def Holds.nothing : Holds := ⟨[], [], none⟩

namespace BlockedCall

def holds : BlockedCall → Holds
  | nanosleep | sigsuspend | sigtimedwait _ | wait4 | vfork _ => .nothing
  | futexWait key _ => ⟨[], [], some key⟩
  | fileWait file _ => ⟨[.file file], [], none⟩
  | copyWait inFile outFile _ => ⟨[.file inFile, .file outFile], [], none⟩
  | poll files _ _ => ⟨files.map .file, [], none⟩
  | epollWait epfile _ items _ _ => ⟨.file epfile :: items.map .file, [], none⟩
  | printkLogRead => ⟨[], [.printkReadLock], none⟩
  | mutexLock _ held refs => ⟨refs, held, none⟩

/-- The channels that the check of the request watches. -/
def channels (t : TaskId) : BlockedCall → List Channel
  | nanosleep | sigsuspend | sigtimedwait _ => []
  | wait4 => [.childQueue t]
  | vfork child => [.vforkCompletion child]
  | futexWait _ _ => [.futexWaiter t]
  | fileWait _ ch | copyWait _ _ ch => [ch]
  | poll _ chs _ => chs
  | epollWait _ ep _ chs _ => .eventpoll ep :: chs
  | printkLogRead => [.printkReadWait]
  | mutexLock mx _ _ => [.mutex mx]

/-- `channel_limit`, with `WAIT_SESSION_MAX_CHANNELS` of 64. -/
def channelLimit : BlockedCall → Nat
  | poll .. | epollWait .. => 64
  | _ => 1

/-- `deadline->active` -/
def timed : BlockedCall → Bool
  | nanosleep => true
  | sigtimedwait timed | futexWait _ timed | poll _ _ timed | epollWait _ _ _ _ timed => timed
  | _ => false

/-- The sleeping calls, `wait4` and the wait for a `vfork` child; `ppoll` and `pselect6` of
no valid descriptor; `mutex_lock` where the caller holds neither a mutex nor a reference. -/
def HoldsNothing : BlockedCall → Prop
  | nanosleep | sigsuspend | sigtimedwait _ | wait4 | vfork _ => True
  | futexWait .. | fileWait .. | copyWait .. | epollWait .. | printkLogRead => False
  | poll files _ _ => files = []
  | mutexLock _ held refs => held = [] ∧ refs = []

theorem holds_eq_nothing_iff (c : BlockedCall) : c.holds = .nothing ↔ c.HoldsNothing := by
  cases c <;> simp [holds, HoldsNothing, Holds.nothing, and_comm]

end BlockedCall

/-! ## Taking and giving back -/

/-- `file_get` and its like, for every object of a list. -/
def takeRefs (holder : Holder) (refs : Object → List Holder) (os : List Object) :
    Object → List Holder :=
  os.foldl (fun refs o => update refs o (holder :: refs o)) refs

/-- `file_put` and its like, for every object of a list. -/
def giveRefs (holder : Holder) (refs : Object → List Holder) (os : List Object) :
    Object → List Holder :=
  os.foldl (fun refs o => update refs o ((refs o).erase holder)) refs

/-- `mutex_lock` of free mutexes, one after the other. -/
def lockAll (t : TaskId) (owner : Mutex → Option TaskId) : List Mutex →
    Option (Mutex → Option TaskId)
  | [] => some owner
  | mx :: rest =>
    if owner mx = none then lockAll t (update owner mx (some t)) rest else none

/-- The owners after `mutex_unlock` of every mutex of a list. -/
def unlockAll (owner : Mutex → Option TaskId) (mxs : List Mutex) : Mutex → Option TaskId :=
  fun mx => if mx ∈ mxs then none else owner mx

/-- `list_add_tail` of `waiter.node` -/
def queueWaiter (t : TaskId) (buckets : Fin 32 → List FutexWaiter) : Option FutexKey →
    Fin 32 → List FutexWaiter
  | none => buckets
  | some key =>
    update buckets (futexBucketFor key) (buckets (futexBucketFor key) ++ [⟨t, key⟩])

/-- `list_del_init` of `waiter.node` -/
def unqueueWaiter (t : TaskId) (buckets : Fin 32 → List FutexWaiter) : Option FutexKey →
    Fin 32 → List FutexWaiter
  | none => buckets
  | some key =>
    update buckets (futexBucketFor key)
      ((buckets (futexBucketFor key)).filter fun w => w.task ≠ t)

section

variable {holder other : Holder} {t u : TaskId}

section

variable (refs : Object → List Holder) (os : List Object) (o : Object)
include refs os o

theorem foldl_update (f : List Holder → List Holder) :
    os.foldl (fun refs o => update refs o (f (refs o))) refs o = f^[os.count o] (refs o) := by
  induction os generalizing refs with
  | nil => rfl
  | cons first rest ih =>
    rw [List.foldl_cons, ih]
    by_cases ho : o = first
    · rw [ho, update_self, List.count_cons_self, Function.iterate_succ_apply]
    · rw [update_of_ne ho, List.count_cons_of_ne (Ne.symm ho)]

theorem count_takeRefs : (takeRefs holder refs os o).count other =
      (refs o).count other + if holder = other then os.count o else 0 := by
  rw [takeRefs, foldl_update]
  induction os.count o with
  | zero => simp
  | succ n ih =>
    rw [Function.iterate_succ_apply', List.count_cons, ih]
    grind

theorem count_giveRefs : (giveRefs holder refs os o).count other =
      (refs o).count other - if holder = other then os.count o else 0 := by
  rw [giveRefs, foldl_update _ _ _ fun holders => holders.erase holder]
  induction os.count o with
  | zero => simp
  | succ n ih =>
    rw [Function.iterate_succ_apply', List.count_erase, ih]
    grind

end

/-- The mutexes were free, and now they are owned by the thread. -/
theorem lockAll_eq_some {owner owner' : Mutex → Option TaskId} {mxs : List Mutex}
    (heq : lockAll t owner mxs = some owner') (mx : Mutex) :
    (mx ∈ mxs → owner mx = none) ∧ owner' mx = if mx ∈ mxs then some t else owner mx := by
  induction mxs generalizing owner with
  | nil =>
    cases heq
    simp
  | cons first rest ih =>
    unfold lockAll at heq
    split at heq
    · rename_i hfree
      obtain ⟨hrest, howner⟩ := ih heq
      by_cases hmx : mx = first
      · subst hmx
        -- a second entry of the list would find the mutex taken
        have hnot : mx ∉ rest := fun hmem => by simp at hrest; exact hrest hmem
        simp [hfree, howner, hnot]
      · simp only [update_of_ne hmx] at hrest howner
        simp only [List.mem_cons, hmx, false_or]
        exact ⟨hrest, howner⟩
    · cases heq

variable (buckets : Fin 32 → List FutexWaiter) (key : Option FutexKey) (b : Fin 32)
include buckets key b

theorem exists_mem_queueWaiter : (∃ w ∈ queueWaiter t buckets key b, w.task = u) ↔
      (∃ w ∈ buckets b, w.task = u) ∨ u = t ∧ ∃ k, key = some k ∧ futexBucketFor k = b := by
  cases key with
  | none => simp [queueWaiter]
  | some k =>
    by_cases hb : b = futexBucketFor k
    · subst hb
      simp [queueWaiter, or_and_right, exists_or, eq_comm]
    · simp [queueWaiter, update_of_ne hb, Ne.symm hb]

theorem exists_mem_unqueueWaiter : (∃ w ∈ unqueueWaiter t buckets key b, w.task = u) ↔
      (∃ w ∈ buckets b, w.task = u) ∧ ¬ (u = t ∧ ∃ k, key = some k ∧ futexBucketFor k = b) := by
  cases key with
  | none => simp [unqueueWaiter]
  | some k =>
    by_cases hb : b = futexBucketFor k
    · subst hb
      simp only [unqueueWaiter, update_self, List.mem_filter, Option.some.injEq,
        exists_eq_left', and_true, decide_eq_true_eq]
      constructor
      · rintro ⟨w, ⟨hmem, hne⟩, rfl⟩
        exact ⟨⟨w, hmem, rfl⟩, hne⟩
      · rintro ⟨⟨w, hmem, rfl⟩, hne⟩
        exact ⟨w, ⟨hmem, hne⟩, rfl⟩
    · simp [unqueueWaiter, update_of_ne hb, Ne.symm hb]

end

/-! ## The machine -/

/-- Whether a `struct task_struct` is in use. -/
inductive Life where
  | unborn
  | alive
  | zombie
  | dead
  deriving DecidableEq, Repr

/-- A `files_struct`, `fs_struct` or `mm_struct`: its reference count and the objects that it
refers to. -/
structure Table where
  users : Nat
  objects : List Object
  deriving DecidableEq, Repr

structure Machine where
  queues : WaitQueues Channel
  buckets : Fin 32 → List FutexWaiter
  owner : Mutex → Option TaskId
  refs : Object → List Holder
  tables : Nat → Table
  shared : TaskId → List Nat
  calls : TaskId → Option BlockedCall
  life : TaskId → Life

namespace Machine

/-- The way of a system call to the place where it sleeps in `wait_for`. -/
def enterCall (m : Machine) (t : TaskId) (c : BlockedCall) : Option Machine :=
  (lockAll t m.owner c.holds.mutexes).bind fun owner =>
    (m.queues.waitForBlock t (c.channels t) c.channelLimit c.timed).map fun queues =>
      { m with
        queues
        owner
        refs := takeRefs (.stack t) m.refs c.holds.refs
        buckets := queueWaiter t m.buckets c.holds.futexKey
        calls := update m.calls t (some c) }

/-- The way from `wait_for` to the end of the system call.  Every `mutex_unlock` wakes a thread
that waits for the mutex. -/
def leaveCall (m : Machine) (t : TaskId) (c : BlockedCall) : Machine :=
  { m with
    queues := (c.holds.mutexes.map .mutex).foldl WaitQueues.waitChannelWakeOne
      (m.queues.waitForReturn t)
    owner := unlockAll m.owner c.holds.mutexes
    refs := giveRefs (.stack t) m.refs c.holds.refs
    buckets := unqueueWaiter t m.buckets c.holds.futexKey
    calls := update m.calls t none }

/-- `files_put` and its like: the last user gives the references of the structure back. -/
def putTable (m : Machine) (i : Nat) : Machine :=
  if (m.tables i).users ≤ 1 then
    { m with
      tables := update m.tables i ⟨0, []⟩
      refs := giveRefs (.table i) m.refs (m.tables i).objects }
  else
    { m with
      tables := update m.tables i { m.tables i with users := (m.tables i).users - 1 } }

/-- `finish_task_exit`.  The channels of `wakes` are those that its notifications wake: the
futex words of the robust list and of `clear_child_tid`, the `vfork` parent, the parent that
waits for children, and the other ends of the pipes that it closes. -/
def finishTaskExit (m : Machine) (t : TaskId) (wakes : List Channel) : Machine :=
  if m.life t = .zombie ∨ m.life t = .dead then m
  else
    let m := { m with queues := wakes.foldl WaitQueues.waitChannelWakeAll
                        (m.queues.waitCancelTask t) }
    let m := (m.shared t).foldl putTable m
    { m with
      calls := update m.calls t none
      shared := update m.shared t []
      life := update m.life t .zombie }

/-- `release_task` -/
def releaseTask (m : Machine) (t : TaskId) : Machine :=
  { m with life := update m.life t .dead }

inductive Event where
  /-- A system call blocks. -/
  | block (t : TaskId) (c : BlockedCall)
  /-- A thread that was woken finds that it has to wait on. -/
  | again (t : TaskId)
  /-- A thread that was woken ends its system call. -/
  | leave (t : TaskId)
  /-- `wait_channel_wake_one` -/
  | wake (ch : Channel)
  /-- A wait timer expires. -/
  | timer (t : TaskId)
  /-- `sched_wake_task` by a signal -/
  | signal (t : TaskId)
  /-- `clone`: the child takes a reference to each of its structures. -/
  | clone (parent child : TaskId) (shared : List Nat)
  /-- A structure takes a reference, such as a new descriptor. -/
  | install (i : Nat) (o : Object)
  /-- A structure gives a reference back, such as a closed descriptor. -/
  | remove (i : Nat) (o : Object)
  /-- `finish_task_exit` of any thread, blocked or not -/
  | exit (t : TaskId) (wakes : List Channel)
  | release (t : TaskId)
  deriving DecidableEq, Repr

def next (m : Machine) : Event → Option Machine
  | .block t c => if m.life t = .alive ∧ m.calls t = none then m.enterCall t c else none
  | .again t =>
    match m.calls t with
    | none => none
    | some c =>
      if m.queues.sleeping t then none
      else (m.queues.waitForPass t (c.channels t) c.timed).map fun queues => { m with queues }
  | .leave t =>
    match m.calls t with
    | none => none
    | some c => if m.queues.sleeping t then none else some (m.leaveCall t c)
  | .wake ch => some { m with queues := m.queues.waitChannelWakeOne ch }
  | .timer t =>
    if t ∈ m.queues.timers then some { m with queues := m.queues.waitTimerFire t } else none
  | .signal t => some { m with queues := m.queues.setSleeping t false }
  | .clone parent child shared =>
    if m.life parent = .alive ∧ m.life child = .unborn then
      some { m with
        tables := shared.foldl (fun tables i => update tables i
          { tables i with users := (tables i).users + 1 }) m.tables
        shared := update m.shared child shared
        life := update m.life child .alive }
    else none
  | .install i o =>
    some { m with
      tables := update m.tables i
        { m.tables i with objects := o :: (m.tables i).objects }
      refs := takeRefs (.table i) m.refs [o] }
  | .remove i o =>
    if o ∈ (m.tables i).objects then
      some { m with
        tables := update m.tables i
          { m.tables i with objects := (m.tables i).objects.erase o }
        refs := giveRefs (.table i) m.refs [o] }
    else none
  | .exit t wakes => if m.life t = .alive then some (m.finishTaskExit t wakes) else none
  | .release t => if m.life t = .zombie then some (m.releaseTask t) else none

/-- The first user process. -/
def boot : Machine where
  queues := ⟨fun _ => [], [], fun _ => none, fun _ => false⟩
  buckets := fun _ => []
  owner := fun _ => none
  refs := fun _ => []
  tables := fun i => if i = 0 then ⟨1, []⟩ else ⟨0, []⟩
  shared := fun t => if t = 1 then [0] else []
  calls := fun _ => none
  life := fun t => if t = 1 then .alive else .unborn

/-- The machines that the system can come to. -/
def Reachable : Machine → Prop :=
  Runs (fun m e m' => m.next e = some m') (fun _ _ => True) boot

/-- The thread sleeps in `wait_for`. -/
def Blocked (m : Machine) (t : TaskId) (c : BlockedCall) : Prop :=
  m.calls t = some c ∧ m.queues.sleeping t = true

/-- No channel, timer, futex bucket or mutex refers to the thread, and no reference that a
system call took on its stack is outstanding. -/
structure LeavesNothing (m : Machine) (t : TaskId) : Prop where
  queues : m.queues.Forgets t
  buckets : ∀ b, ¬ ∃ w ∈ m.buckets b, w.task = t
  owner : ∀ mx, m.owner mx ≠ some t
  refs : ∀ o, .stack t ∉ m.refs o

/-! ## What the objects say about a thread is what its call holds -/

/-- The objects refer to the thread as a call with these holds makes them. -/
structure Holding (m : Machine) (t : TaskId) (h : Holds) : Prop where
  refs : ∀ o, (m.refs o).count (.stack t) = h.refs.count o
  owner : ∀ mx, m.owner mx = some t ↔ mx ∈ h.mutexes
  bucket : ∀ b, (∃ w ∈ m.buckets b, w.task = t) ↔
    ∃ key, h.futexKey = some key ∧ futexBucketFor key = b

def holdsOf (m : Machine) (t : TaskId) : Holds :=
  (m.calls t).elim .nothing BlockedCall.holds

/-- Sessions belong to calls and calls to live threads, and the objects account for every
thread that has not exited. -/
structure Accounted (m : Machine) : Prop where
  registered : m.queues.Registered
  session : ∀ t, (m.queues.activeWait t).isSome → (m.calls t).isSome
  alive : ∀ t, (m.calls t).isSome → m.life t = .alive
  holding : ∀ t, m.life t = .alive ∨ m.life t = .unborn → m.Holding t (m.holdsOf t)

variable {m m' : Machine} {t u : TaskId} {c : BlockedCall}

theorem holdsOf_of_call (hcall : m.calls t = some c) : m.holdsOf t = c.holds := by
  simp [holdsOf, hcall]

theorem holdsOf_of_none (hcall : m.calls t = none) : m.holdsOf t = .nothing := by
  simp [holdsOf, hcall]

/-- Only a call that holds nothing is not seen in the objects. -/
theorem Holding.eq_nothing_iff {h : Holds} (hm : m.Holding t h) :
    h = .nothing ↔ (∀ b, ¬ ∃ w ∈ m.buckets b, w.task = t) ∧ (∀ mx, m.owner mx ≠ some t) ∧
      ∀ o, .stack t ∉ m.refs o := by
  constructor
  · rintro rfl
    refine ⟨fun b hb => ?_, fun mx howner => ?_, fun o => ?_⟩
    · obtain ⟨key, hkey, -⟩ := (hm.bucket b).mp hb
      cases hkey
    · exact List.not_mem_nil ((hm.owner mx).mp howner)
    · exact List.count_eq_zero.mp (hm.refs o)
  · rintro ⟨hbuckets, howner, hrefs⟩
    have hkey : h.futexKey = none := by
      cases hkey : h.futexKey with
      | none => rfl
      | some key => exact absurd ((hm.bucket _).mpr ⟨key, hkey, rfl⟩) (hbuckets _)
    have hmutexes : h.mutexes = [] :=
      List.eq_nil_iff_forall_not_mem.mpr fun mx hmem => howner mx ((hm.owner mx).mpr hmem)
    have hobjects : h.refs = [] := by
      refine List.eq_nil_iff_forall_not_mem.mpr fun o => List.count_eq_zero.mp ?_
      rw [← hm.refs o]
      exact List.count_eq_zero.mpr (hrefs o)
    obtain ⟨refs, mutexes, key⟩ := h
    simp_all [Holds.nothing]

/-! ## Every event keeps the account -/

theorem Holding.congr {h : Holds} (hm : m.Holding t h)
    (hrefs : ∀ o, (m'.refs o).count (.stack t) = (m.refs o).count (.stack t))
    (howner : m'.owner = m.owner) (hbuckets : m'.buckets = m.buckets) : m'.Holding t h where
  refs o := (hrefs o).trans (hm.refs o)
  owner := howner ▸ hm.owner
  bucket := hbuckets ▸ hm.bucket

/-- Events that neither begin nor end a call, nor touch what calls hold. -/
theorem Accounted.of_same (hm : m.Accounted) (hregistered : m'.queues.Registered)
    (hsession : ∀ t, (m'.queues.activeWait t).isSome = (m.queues.activeWait t).isSome)
    (hcalls : m'.calls = m.calls) (halive : ∀ t, m.life t = .alive → m'.life t = .alive)
    (hpresent : ∀ t, m'.life t = .alive ∨ m'.life t = .unborn →
      m.life t = .alive ∨ m.life t = .unborn)
    (hrefs : ∀ t o, (m'.refs o).count (.stack t) = (m.refs o).count (.stack t))
    (howner : m'.owner = m.owner) (hbuckets : m'.buckets = m.buckets) : m'.Accounted where
  registered := hregistered
  session t hsome := by
    rw [hsession] at hsome
    rw [hcalls]
    exact hm.session t hsome
  alive t hsome := halive t (hm.alive t (hcalls ▸ hsome))
  holding t hlife := by
    have hsame : m'.holdsOf t = m.holdsOf t := by simp only [holdsOf, hcalls]
    rw [hsame]
    exact (hm.holding t (hpresent t hlife)).congr (hrefs t) howner hbuckets

theorem Accounted.setQueues {queues : WaitQueues Channel} (hm : m.Accounted)
    (hkeeps : m.queues.Keeps queues) : { m with queues }.Accounted :=
  hm.of_same (hkeeps.registered hm.registered) hkeeps.session rfl (fun _ => id) (fun _ => id)
    (fun _ _ => rfl) rfl rfl

/-- Thread `t` begins or ends a call, and the objects say of the others what they said. -/
theorem Accounted.setCall {call : Option BlockedCall} (hm : m.Accounted)
    (hregistered : m'.queues.Registered) (hcalls : m'.calls = update m.calls t call)
    (hsession : ∀ u ≠ t, (m'.queues.activeWait u).isSome → (m.queues.activeWait u).isSome)
    (hown : (m'.queues.activeWait t).isSome → call.isSome) (hlife : ∀ u ≠ t, m'.life u = m.life u)
    (halive : call.isSome → m'.life t = .alive)
    (ht : m'.life t = .alive ∨ m'.life t = .unborn →
      m'.Holding t (call.elim .nothing BlockedCall.holds))
    (hothers : ∀ u ≠ t, ∀ h, m.Holding u h → m'.Holding u h) : m'.Accounted := by
  have hself : m'.calls t = call := by rw [hcalls, update_self]
  have hcall : ∀ u ≠ t, m'.calls u = m.calls u := fun u hu => by rw [hcalls, update_of_ne hu]
  refine ⟨hregistered, fun u hsome => ?_, fun u hsome => ?_, fun u hpresent => ?_⟩ <;>
    by_cases hu : u = t
  · subst hu
    exact hself ▸ hown hsome
  · exact hcall u hu ▸ hm.session u (hsession u hu hsome)
  · subst hu
    exact halive (hself ▸ hsome)
  · exact hlife u hu ▸ hm.alive u (hcall u hu ▸ hsome)
  · subst hu
    rw [holdsOf, hself]
    exact ht hpresent
  · rw [holdsOf, hcall u hu]
    exact hothers u hu _ (hm.holding u (hlife u hu ▸ hpresent))

theorem Holding.enterCall (hm : m.Holding t .nothing) (heq : m.enterCall t c = some m') :
    m'.Holding t c.holds := by
  obtain ⟨owner, hlock, hmap⟩ := Option.bind_eq_some_iff.mp heq
  obtain ⟨queues, -, rfl⟩ := Option.map_eq_some_iff.mp hmap
  refine ⟨fun o => ?_, fun mx => ?_, fun b => ?_⟩
  · have hnone : (m.refs o).count (.stack t) = 0 := hm.refs o
    rw [count_takeRefs, if_pos rfl, hnone, Nat.zero_add]
  · have hnone : m.owner mx ≠ some t := fun howner =>
      List.not_mem_nil ((hm.owner mx).mp howner)
    dsimp only
    rw [(lockAll_eq_some hlock mx).2]
    split
    · simp [*]
    · simp [*]
  · have hnone : ¬ ∃ w ∈ m.buckets b, w.task = t := fun hmem => by
      obtain ⟨key, hkey, -⟩ := (hm.bucket b).mp hmem
      cases hkey
    rw [exists_mem_queueWaiter]
    simp [hnone]

theorem Holding.enterCall_other {h : Holds} (hm : m.Holding u h) (hu : u ≠ t)
    (heq : m.enterCall t c = some m') : m'.Holding u h := by
  obtain ⟨owner, hlock, hmap⟩ := Option.bind_eq_some_iff.mp heq
  obtain ⟨queues, -, rfl⟩ := Option.map_eq_some_iff.mp hmap
  refine ⟨fun o => ?_, fun mx => ?_, fun b => ?_⟩
  · rw [count_takeRefs, if_neg (by simp [hu.symm])]
    exact hm.refs o
  · dsimp only
    rw [← hm.owner mx, (lockAll_eq_some hlock mx).2]
    split
    · rename_i hmem
      simp [(lockAll_eq_some hlock mx).1 hmem, hu.symm]
    · rfl
  · rw [exists_mem_queueWaiter, ← hm.bucket b]
    simp [hu]

theorem Accounted.enterCall (hm : m.Accounted) (hlife : m.life t = .alive)
    (hcall : m.calls t = none) (heq : m.enterCall t c = some m') : m'.Accounted := by
  have heq' := heq
  obtain ⟨owner, hlock, hmap⟩ := Option.bind_eq_some_iff.mp heq'
  obtain ⟨queues, hqueues, rfl⟩ := Option.map_eq_some_iff.mp hmap
  have hholding := hm.holding t (.inl hlife)
  rw [holdsOf_of_none hcall] at hholding
  obtain ⟨hregistered, hsession⟩ := hm.registered.waitForBlock hqueues
  exact hm.setCall hregistered rfl (fun u hu hsome => hsession u hu ▸ hsome) (fun _ => rfl)
    (fun _ _ => rfl) (fun _ => hlife) (fun _ => hholding.enterCall heq)
    fun u hu h hother => hother.enterCall_other hu heq

theorem Holding.leaveCall (hm : m.Holding t c.holds) : (m.leaveCall t c).Holding t .nothing := by
  refine ⟨fun o => ?_, fun mx => ?_, fun b => ?_⟩
  · change (giveRefs _ _ _ o).count _ = 0
    rw [count_giveRefs, if_pos rfl, hm.refs o, Nat.sub_self]
  · change unlockAll _ _ mx = some t ↔ mx ∈ []
    have howner := hm.owner mx
    unfold unlockAll
    split <;> simp_all
  · change (∃ w ∈ unqueueWaiter _ _ _ b, w.task = t) ↔ ∃ key, none = some key ∧ _
    rw [exists_mem_unqueueWaiter, hm.bucket b]
    simp

/-- A thread gives back only what it holds itself. -/
theorem Holding.leaveCall_other {h : Holds} (hm : m.Holding u h) (ht : m.Holding t c.holds)
    (hu : u ≠ t) : (m.leaveCall t c).Holding u h := by
  refine ⟨fun o => ?_, fun mx => ?_, fun b => ?_⟩
  · change (giveRefs _ _ _ o).count _ = _
    rw [count_giveRefs, if_neg (by simp [hu.symm])]
    exact hm.refs o
  · change unlockAll _ _ mx = some u ↔ _
    rw [← hm.owner mx]
    unfold unlockAll
    split
    · rename_i hmem
      simp [(ht.owner mx).mpr hmem, hu.symm]
    · rfl
  · change (∃ w ∈ unqueueWaiter _ _ _ b, w.task = u) ↔ _
    rw [exists_mem_unqueueWaiter, ← hm.bucket b]
    simp [hu]

/-- Wake-ups of any channels. -/
theorem keeps_foldl {f : WaitQueues Channel → Channel → WaitQueues Channel}
    (hf : ∀ q ch, WaitQueues.Keeps q (f q ch)) (q : WaitQueues Channel) (wakes : List Channel) :
    q.Keeps (wakes.foldl f q) := by
  induction wakes generalizing q with
  | nil => exact .refl q
  | cons ch rest ih => exact (hf q ch).trans (ih (f q ch))

theorem keeps_leaveCall (m : Machine) (t : TaskId) (c : BlockedCall) :
    (m.queues.waitCancelTask t).Keeps (m.leaveCall t c).queues :=
  (WaitQueues.keeps_setSleeping false).trans (keeps_foldl WaitQueues.keeps_waitChannelWakeOne _ _)

theorem Accounted.leaveCall (hm : m.Accounted) (hcall : m.calls t = some c) :
    (m.leaveCall t c).Accounted := by
  have hlife : m.life t = .alive := hm.alive t (by simp [hcall])
  have ht : m.Holding t c.holds := by
    have hholding := hm.holding t (.inl hlife)
    rwa [holdsOf_of_call hcall] at hholding
  have hkeeps := keeps_leaveCall m t c
  refine hm.setCall (hkeeps.registered hm.registered.waitCancelTask) rfl (fun u hu hsome => ?_)
    (fun hsome => ?_) (fun _ _ => rfl) (fun hsome => by cases hsome) (fun _ => ht.leaveCall)
    fun u hu h hother => hother.leaveCall_other ht hu
  · rwa [hkeeps.session, WaitQueues.activeWait_waitCancelTask, update_of_ne hu] at hsome
  · rwa [hkeeps.session, WaitQueues.activeWait_waitCancelTask, update_self] at hsome

/-! ## An exit -/

/-- What the drop of shared structures leaves alone: it gives back references of the
structures only. -/
structure SameStacks (m m' : Machine) : Prop where
  queues : m'.queues = m.queues
  buckets : m'.buckets = m.buckets
  owner : m'.owner = m.owner
  refs : ∀ t o, (m'.refs o).count (.stack t) = (m.refs o).count (.stack t)
  calls : m'.calls = m.calls
  life : m'.life = m.life

theorem sameStacks_putTable (m : Machine) (i : Nat) : SameStacks m (m.putTable i) := by
  unfold putTable
  split
  · refine ⟨rfl, rfl, rfl, fun t o => ?_, rfl, rfl⟩
    rw [count_giveRefs, if_neg (by simp), Nat.sub_zero]
  · exact ⟨rfl, rfl, rfl, fun _ _ => rfl, rfl, rfl⟩

theorem sameStacks_foldl_putTable (m : Machine) (tables : List Nat) :
    SameStacks m (tables.foldl putTable m) := by
  induction tables generalizing m with
  | nil => exact ⟨rfl, rfl, rfl, fun _ _ => rfl, rfl, rfl⟩
  | cons i rest ih =>
    have hfirst := sameStacks_putTable m i
    have hrest := ih (m.putTable i)
    exact ⟨hrest.queues.trans hfirst.queues, hrest.buckets.trans hfirst.buckets,
      hrest.owner.trans hfirst.owner, fun t o => (hrest.refs t o).trans (hfirst.refs t o),
      hrest.calls.trans hfirst.calls, hrest.life.trans hfirst.life⟩

/-- What `finish_task_exit` does to a live thread: the session is undone, the call is gone,
and what the call held is as before. -/
structure Exited (m m' : Machine) (t : TaskId) : Prop where
  registered : m'.queues.Registered
  session : ∀ u, (m'.queues.activeWait u).isSome =
    (update m.queues.activeWait t none u).isSome
  buckets : m'.buckets = m.buckets
  owner : m'.owner = m.owner
  refs : ∀ u o, (m'.refs o).count (.stack u) = (m.refs o).count (.stack u)
  calls : m'.calls = update m.calls t none
  life : m'.life = update m.life t .zombie

section

variable (hm : m.Accounted) (hlife : m.life t = .alive) (wakes : List Channel)
include hm hlife wakes

theorem Accounted.exited :
    Exited m (m.finishTaskExit t wakes) t := by
  have hkeeps := keeps_foldl WaitQueues.keeps_waitChannelWakeAll (m.queues.waitCancelTask t) wakes
  have hsame := sameStacks_foldl_putTable
    { m with queues := wakes.foldl WaitQueues.waitChannelWakeAll (m.queues.waitCancelTask t) }
    (m.shared t)
  unfold finishTaskExit
  rw [if_neg (by simp [hlife])]
  refine ⟨?_, fun u => ?_, hsame.buckets, hsame.owner, hsame.refs, ?_, ?_⟩
  · rw [hsame.queues]
    exact hkeeps.registered hm.registered.waitCancelTask
  · rw [hsame.queues]
    rw [hkeeps.session, WaitQueues.activeWait_waitCancelTask]
  · dsimp only
    rw [hsame.calls]
  · dsimp only
    rw [hsame.life]

theorem Accounted.finishTaskExit : (m.finishTaskExit t wakes).Accounted := by
  have hexit := hm.exited hlife wakes
  refine hm.setCall hexit.registered hexit.calls (fun u hu hsome => ?_) (fun hsome => ?_)
    (fun u hu => by rw [hexit.life, update_of_ne hu]) (fun hsome => by cases hsome)
    (fun hpresent => ?_) fun u _ h hother => hother.congr (hexit.refs u) hexit.owner hexit.buckets
  · rwa [hexit.session, update_of_ne hu] at hsome
  · simp [hexit.session] at hsome
  · simp [hexit.life] at hpresent

end

/-! ## Runs -/

theorem accounted_boot : boot.Accounted where
  registered := ⟨fun _ _ hmem => absurd hmem List.not_mem_nil,
    fun _ hmem => absurd hmem List.not_mem_nil⟩
  session _ hsome := nomatch hsome
  alive _ hsome := nomatch hsome
  holding _ _ := by
    refine ⟨fun o => rfl, fun mx => ?_, fun b => ?_⟩
    · simp [boot, holdsOf, Holds.nothing]
    · simp [boot, holdsOf, Holds.nothing]

theorem Accounted.next {e : Event} (hm : m.Accounted) (hstep : m.next e = some m') :
    m'.Accounted := by
  cases e with
  | block t c =>
    obtain ⟨hguard, henter⟩ := Option.ite_none_right_eq_some.mp hstep
    exact hm.enterCall hguard.1 hguard.2 henter
  | again t =>
    simp only [Machine.next] at hstep
    split at hstep
    · cases hstep
    · obtain ⟨-, hmap⟩ := Option.ite_none_left_eq_some.mp hstep
      obtain ⟨queues, hqueues, rfl⟩ := Option.map_eq_some_iff.mp hmap
      exact hm.setQueues (WaitQueues.keeps_waitForPass hqueues)
  | leave t =>
    simp only [Machine.next] at hstep
    split at hstep
    · cases hstep
    · rename_i c hcall
      obtain ⟨-, hleave⟩ := Option.ite_none_left_eq_some.mp hstep
      cases hleave
      exact hm.leaveCall hcall
  | wake ch =>
    cases hstep
    exact hm.setQueues (WaitQueues.keeps_waitChannelWakeOne _ ch)
  | timer t =>
    obtain ⟨-, rfl⟩ := Option.ite_some_none_eq_some.mp hstep
    exact hm.setQueues WaitQueues.keeps_waitTimerFire
  | signal t =>
    cases hstep
    exact hm.setQueues (WaitQueues.keeps_setSleeping false)
  | clone parent child shared =>
    obtain ⟨hguard, rfl⟩ := Option.ite_some_none_eq_some.mp hstep
    refine hm.of_same hm.registered (fun _ => rfl) rfl (fun u hu => ?_) (fun u hu => ?_)
      (fun _ _ => rfl) rfl rfl
    · dsimp only
      by_cases hchild : u = child
      · simp [hchild]
      · rwa [update_of_ne hchild]
    · dsimp only at hu
      by_cases hchild : u = child
      · exact .inr (hchild ▸ hguard.2)
      · rwa [update_of_ne hchild] at hu
  | install i o =>
    cases hstep
    refine hm.of_same hm.registered (fun _ => rfl) rfl (fun _ => id) (fun _ => id)
      (fun u o' => ?_) rfl rfl
    rw [count_takeRefs, if_neg (by simp), Nat.add_zero]
  | remove i o =>
    obtain ⟨-, rfl⟩ := Option.ite_some_none_eq_some.mp hstep
    refine hm.of_same hm.registered (fun _ => rfl) rfl (fun _ => id) (fun _ => id)
      (fun u o' => ?_) rfl rfl
    rw [count_giveRefs, if_neg (by simp), Nat.sub_zero]
  | exit t wakes =>
    obtain ⟨hlife, rfl⟩ := Option.ite_some_none_eq_some.mp hstep
    exact hm.finishTaskExit hlife wakes
  | release t =>
    obtain ⟨hzombie, rfl⟩ := Option.ite_some_none_eq_some.mp hstep
    refine hm.of_same hm.registered (fun _ => rfl) rfl (fun u hu => ?_) (fun u hu => ?_)
      (fun _ _ => rfl) rfl rfl
    · have hne : u ≠ t := by
        rintro rfl
        simp [hzombie] at hu
      exact (update_of_ne hne ..).trans hu
    · change update m.life t .dead u = _ ∨ update m.life t .dead u = _ at hu
      have hne : u ≠ t := by
        rintro rfl
        simp at hu
      rwa [update_of_ne hne] at hu

theorem Reachable.accounted (hm : m.Reachable) : m.Accounted :=
  hm.induct accounted_boot fun _ _ _ hm _ hstep => hm.next hstep

/-- In every machine that the system can come to, the forced exit of a blocked thread leaves
nothing behind exactly when the call that it interrupts holds nothing. -/
theorem leavesNothing_after_exit_iff (hm : m.Reachable) (hblocked : m.Blocked t c)
    (wakes : List Channel) :
    ((m.finishTaskExit t wakes).releaseTask t).LeavesNothing t ↔ c.HoldsNothing := by
  have hm := hm.accounted
  have hlife : m.life t = .alive := hm.alive t (by simp [hblocked.1])
  have hholding := hm.holding t (.inl hlife)
  have hexit := hm.exited hlife wakes
  generalize m.finishTaskExit t wakes = m' at hexit
  -- the objects still say of the thread what they said when it was blocked
  have hholding' : m'.Holding t c.holds := by
    rw [holdsOf_of_call hblocked.1] at hholding
    exact hholding.congr (hexit.refs t) hexit.owner hexit.buckets
  rw [← BlockedCall.holds_eq_nothing_iff, hholding'.eq_nothing_iff]
  constructor
  · intro hnothing
    exact ⟨hnothing.buckets, hnothing.owner, hnothing.refs⟩
  · rintro ⟨hbuckets, howner, hrefs⟩
    have hsession : m'.queues.activeWait t = none := by
      refine Option.not_isSome_iff_eq_none.mp ?_
      rw [hexit.session t]
      simp
    exact ⟨hexit.registered.forgets hsession, hbuckets, howner, hrefs⟩

/-- One process with three more threads, which wait for a futex, for a pipe and for the log of
the kernel. -/
def threeBlocked : List Event :=
  [.clone 1 2 [0], .clone 1 3 [0], .clone 1 4 [0], .install 0 (.file 7),
    .block 2 (.futexWait ⟨64, 4096⟩ false), .block 3 (.fileWait 7 (.pipeReaders 0)),
    .block 4 .printkLogRead]

theorem reachable_of_runAll {events : List Event}
    (heq : runAll next (fun _ _ => true) events boot = some m) : m.Reachable :=
  Runs.of_runAll (fun _ _ _ hstep => hstep) (fun _ _ _ => trivial) heq

/-- The bucket still has the waiter of a thread that waited for a futex, the pipe still has the
reference of a thread that read from it, and the lock of the log still belongs to the thread
that read the log. -/
theorem exit_of_blocked_threads_leaves_holds : ∃ m : Machine, m.Reachable ∧
      (m.Blocked 2 (.futexWait ⟨64, 4096⟩ false) ∧
        ¬ ((m.finishTaskExit 2 []).releaseTask 2).LeavesNothing 2) ∧
      (m.Blocked 3 (.fileWait 7 (.pipeReaders 0)) ∧
        ¬ ((m.finishTaskExit 3 []).releaseTask 3).LeavesNothing 3) ∧
      m.Blocked 4 .printkLogRead ∧ ¬ ((m.finishTaskExit 4 []).releaseTask 4).LeavesNothing 4 := by
  have hrun : (runAll next (fun _ _ => true) threeBlocked boot).any (fun m =>
      (decide (m.calls 2 = some (.futexWait ⟨64, 4096⟩ false)) && m.queues.sleeping 2 &&
        decide (⟨2, ⟨64, 4096⟩⟩ ∈ ((m.finishTaskExit 2 []).releaseTask 2).buckets 8)) &&
      (decide (m.calls 3 = some (.fileWait 7 (.pipeReaders 0))) && m.queues.sleeping 3 &&
        decide (.stack 3 ∈ ((m.finishTaskExit 3 []).releaseTask 3).refs (.file 7))) &&
      (decide (m.calls 4 = some .printkLogRead) && m.queues.sleeping 4 &&
        decide (((m.finishTaskExit 4 []).releaseTask 4).owner .printkReadLock = some 4)))
      = true := by decide +kernel
  obtain ⟨m, heq, hchecks⟩ := (Option.any_eq_true _ _).mp hrun
  simp only [Bool.and_eq_true, decide_eq_true_eq] at hchecks
  obtain ⟨⟨⟨⟨hcall2, hsleep2⟩, hbucket⟩, ⟨hcall3, hsleep3⟩, href⟩, ⟨hcall4, hsleep4⟩, howner⟩ :=
    hchecks
  exact ⟨m, reachable_of_runAll heq,
    ⟨⟨hcall2, hsleep2⟩, fun hnothing => hnothing.buckets 8 ⟨_, hbucket, rfl⟩⟩,
    ⟨⟨hcall3, hsleep3⟩, fun hnothing => hnothing.refs (.file 7) href⟩,
    ⟨hcall4, hsleep4⟩, fun hnothing => hnothing.owner .printkReadLock howner⟩

/-- A thread in `nanosleep` leaves nothing behind, although its timer was in the queue. -/
theorem exit_of_sleeping_thread_leavesNothing :
    ∃ m : Machine, m.Reachable ∧ m.Blocked 2 .nanosleep ∧ 2 ∈ m.queues.timers ∧
      ((m.finishTaskExit 2 []).releaseTask 2).LeavesNothing 2 := by
  have hrun : (runAll next (fun _ _ => true) [.clone 1 2 [0], .block 2 .nanosleep] boot).any
      (fun m => decide (m.calls 2 = some .nanosleep) && m.queues.sleeping 2 &&
        decide (2 ∈ m.queues.timers)) = true := by decide +kernel
  obtain ⟨m, heq, hchecks⟩ := (Option.any_eq_true _ _).mp hrun
  simp only [Bool.and_eq_true, decide_eq_true_eq] at hchecks
  obtain ⟨⟨hcall, hsleep⟩, htimer⟩ := hchecks
  have hreachable := reachable_of_runAll heq
  exact ⟨m, hreachable, ⟨hcall, hsleep⟩, htimer,
    (leavesNothing_after_exit_iff hreachable ⟨hcall, hsleep⟩ []).mpr trivial⟩

end Machine

end CuteOS.Kernel.ForcedExit
