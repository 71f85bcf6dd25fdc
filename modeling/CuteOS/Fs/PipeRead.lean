/-
  Fs/PipeRead.lean --- `read` on a pipe.

  `pipe_read` hands out the oldest bytes and removes them at once.
  `read_user_buffer_pos` calls it for 256 bytes at a time, and copies each piece to
  user space only afterwards.  A piece that cannot be stored is lost, and so is
  everything read before a call that finds the pipe empty and returns an error.
-/
import CuteOS.Fs.Pipe

set_option autoImplicit false

namespace CuteOS.Fs

/-! ## What `pipe_read` takes -/

/-- The call has removed `bytes` from the front of the pipe and done nothing else. -/
structure Took (p p' : PipeEnd) (bytes : List UInt8) : Prop where
  contents : bytes ++ p'.pipe.ring.contents = p.pipe.ring.contents
  taken : p'.taken = p.taken ++ bytes
  writers : p'.pipe.writers = p.pipe.writers
  nonblock : p'.nonblock = p.nonblock
  replies : p'.replies = p.replies
  waits : p'.waits = p.waits

theorem Took.refl (p : PipeEnd) : Took p p [] :=
  ⟨rfl, (List.append_nil _).symm, rfl, rfl, rfl, rfl⟩

variable {p p' : PipeEnd}

theorem Took.trans {p'' : PipeEnd} {xs ys : List UInt8} (h : Took p p' xs)
    (h' : Took p' p'' ys) : Took p p'' (xs ++ ys) where
  contents := by rw [List.append_assoc, h'.contents, h.contents]
  taken := by rw [h'.taken, h.taken, List.append_assoc]
  writers := h'.writers.trans h.writers
  nonblock := h'.nonblock.trans h.nonblock
  replies := h'.replies.trans h.replies
  waits := h'.waits.trans h.waits

variable {bytes : List UInt8}

theorem Took.used (h : Took p p' bytes) : bytes.length + p'.pipe.ring.used = p.pipe.ring.used := by
  have hlen := congrArg List.length h.contents
  simpa using hlen

theorem pipeTake_took (p : PipeEnd) (wanted : Nat) :
    Took p (pipeTake p wanted).2 (pipeTake p wanted).1 where
  contents := p.pipe.ring.window_append_contents (pipeReadChunk_le_linearTail p wanted)
    (pipeReadChunk_le_used p wanted)
  taken := rfl
  writers := rfl
  nonblock := rfl
  replies := rfl
  waits := rfl

theorem length_pipeTake (p : PipeEnd) (wanted : Nat) :
    (pipeTake p wanted).1.length = pipeReadChunk p wanted := by
  simp [pipeTake]

theorem pipeReadChunk_pos {wanted : Nat} (hwanted : 0 < wanted)
    (hused : 0 < p.pipe.ring.used) : 0 < pipeReadChunk p wanted := by
  have hlinear := p.pipe.ring.linearTail_pos hused
  unfold pipeReadChunk
  split_ifs <;> omega

theorem pipeReadChunk_le_wanted (p : PipeEnd) (wanted : Nat) :
    pipeReadChunk p wanted ≤ wanted := by
  unfold pipeReadChunk
  split_ifs <;> omega

variable {fuel : Nat}
variable {count addr size n : Nat}

/-- Once there is something to read or something has been read, the loop takes what
is there, up to the request, and does not sleep. -/
theorem pipeReadLoop_took (buf : List UInt8) (p : PipeEnd)
    (hready : 0 < buf.length ∨ 0 < p.pipe.ring.used) (hfuel : count - buf.length < fuel) :
    ∃ bytes p', pipeReadLoop count fuel buf p = some (.ok (buf ++ bytes), p') ∧
      Took p p' bytes ∧ bytes.length = min (count - buf.length) p.pipe.ring.used := by
  induction fuel generalizing buf p with
  | zero => omega
  | succ fuel ih =>
    rw [pipeReadLoop]
    by_cases hmore : buf.length < count
    · rw [if_pos hmore]
      by_cases hempty : p.pipe.ring.used = 0
      · have hbuf : 0 < buf.length := hready.resolve_right (by omega)
        rw [if_pos hempty, if_pos (.inr hbuf)]
        exact ⟨[], p, by rw [List.append_nil], .refl p, by simp [hempty]⟩
      · rw [if_neg hempty]
        have htook := pipeTake_took p (count - buf.length)
        have hlen := length_pipeTake p (count - buf.length)
        have hpos := pipeReadChunk_pos (p := p) (show 0 < count - buf.length by omega)
        have hle := pipeReadChunk_le_wanted p (count - buf.length)
        have hused := htook.used
        obtain ⟨bytes, p', hloop, htook', hbytes⟩ :=
          ih (buf ++ (pipeTake p (count - buf.length)).1) (pipeTake p (count - buf.length)).2
            (.inl (by rw [List.length_append]; omega))
            (by rw [List.length_append]; omega)
        refine ⟨(pipeTake p (count - buf.length)).1 ++ bytes, p', ?_, htook.trans htook', ?_⟩
        · rw [← List.append_assoc]
          exact hloop
        · rw [List.length_append, hbytes, List.length_append]
          omega
    · rw [if_neg hmore]
      exact ⟨[], p, by rw [List.append_nil], .refl p, by simp; omega⟩

/-- On a pipe that is not empty `pipe_read` takes the oldest bytes. -/
theorem pipeRead_took (hused : 0 < p.pipe.ring.used) (count : Nat) :
    ∃ bytes p', pipeRead p count = some (.ok bytes, p') ∧ Took p p' bytes ∧
      bytes.length = min count p.pipe.ring.used := by
  have hfuel : count - ([] : List UInt8).length < count + p.replies.length + 1 := by
    omega
  obtain ⟨bytes, p', hloop, htook, hlen⟩ := pipeReadLoop_took [] p (.inr hused) hfuel
  exact ⟨bytes, p', hloop, htook, by simpa using hlen⟩

/-- On an empty pipe the first round decides. -/
theorem pipeRead_empty (hused : p.pipe.ring.used = 0) (hcount : 0 < count) :
    (p.pipe.writers = 0 → pipeRead p count = some (.ok [], p)) ∧
      (p.pipe.writers ≠ 0 → p.nonblock = true → pipeRead p count = some (.error .eagain, p)) ∧
      (p.pipe.writers ≠ 0 → p.nonblock = false → ∀ pipe rest, p.replies = .signal pipe :: rest →
        pipeRead p count = some (.error .eintr,
          { p with pipe := pipe, replies := rest, waits := p.waits + 1 })) := by
  have hloop : pipeRead p count = pipeReadLoop count (count + p.replies.length + 1) [] p := rfl
  rw [hloop, pipeReadLoop]
  refine ⟨fun hw => ?_, fun hw hn => ?_, fun hw hn pipe rest hreplies => ?_⟩
  · simp [hcount, hused, hw]
  · simp [hcount, hused, hw, hn]
  · simp [hcount, hused, hw, hn, pipeWait, hreplies]

/-! ## User memory -/

theorem accessOk_iff (hsize : size < wordModulus) :
    accessOk addr size = true ↔ size = 0 ∨ addr + size ≤ taskSize := by
  unfold accessOk taskSize wordModulus at *
  split_ifs <;> simp_all <;> omega

variable {done : Nat}

/-- A range inside an accessible buffer passes the range check again. -/
theorem accessOk_mono {buf len : Nat} (hlen : len < wordModulus) (hok : accessOk buf len = true)
    (hn : done + n ≤ len) :
    accessOk (buf + done) n = true := by
  rw [accessOk_iff hlen] at hok
  rw [accessOk_iff (by omega)]
  omega

theorem userRangeProbe_iff {access : Nat → Bool} (hok : accessOk addr size = true) :
    userRangeProbe access addr size = true ↔ ∀ a, addr ≤ a → a < addr + size → access a = true := by
  unfold userRangeProbe
  rw [hok, Bool.true_and, Bool.or_eq_true, beq_iff_eq, List.all_eq_true]
  constructor
  · rintro (hzero | hall) a hlow hhigh
    · omega
    · have := hall (a - addr) (List.mem_range.mpr (by omega))
      rwa [Nat.add_sub_cancel' hlow] at this
  · intro hall
    exact .inr fun i hi => hall _ (by omega) (by have := List.mem_range.mp hi; omega)

/-- Storing two pieces one after the other is storing their concatenation. -/
theorem UserMem.store_store (m : UserMem) (dst : Nat) (xs ys : List UInt8) :
    (m.store dst xs).store (dst + xs.length) ys = m.store dst (xs ++ ys) := by
  unfold UserMem.store
  congr 1
  funext a
  dsimp only
  by_cases hlow : dst ≤ a
  · by_cases hhigh : dst + xs.length ≤ a
    · rw [if_pos hhigh, if_pos hlow, if_pos hlow, List.getD_eq_default xs _ (by omega),
        List.getD_append_right _ _ _ _ (by omega), Nat.sub_add_eq]
    · rw [if_neg hhigh, if_pos hlow, if_pos hlow, List.getD_append _ _ _ _ (by omega)]
  · rw [if_neg (by omega), if_neg hlow, if_neg hlow]

/-! ## Rounds of the read loop -/

section Rounds

variable {buf len : Nat} {s : IoState PipeEnd}

/-- The bytes of `[buf + done, buf + done + n)` can be written. -/
def WritableAt (m : UserMem) (start n : Nat) : Prop :=
  ∀ a, start ≤ a → a < start + n → m.writable a = true

theorem vfsRead_pipeOps {file : File PipeEnd} (hmode : file.fmodeRead = true) (count : Nat) :
    vfsRead pipeOps file count = match pipeRead file.dev count with
      | none => none
      | some (.error e, dev) => some (.error e, { file with dev := dev })
      | some (.ok bytes, dev) =>
        some (.ok bytes, { file with dev := dev, fPos := file.fPos + bytes.length }) := by
  rw [vfsRead, if_neg (by simp [hmode])]
  dsimp only [pipeOps]
  rcases pipeRead file.dev count with _ | ⟨_ | _, _⟩ <;> rfl

/-- One round on a pipe that is not empty: the piece that the round takes, stored if
its place is writable and lost otherwise. -/
theorem readUserLoop_round (hlen : len < wordModulus) (hok : accessOk buf len = true)
    (hmode : s.file.fmodeRead = true) (hused : 0 < s.file.dev.pipe.ring.used)
    (hdone : done < len) (fuel : Nat) :
    ∃ bytes p', Took s.file.dev p' bytes ∧
      bytes.length = min (min (len - done) sysFileBufSize) s.file.dev.pipe.ring.used ∧
      let file' := { s.file with dev := p', fPos := s.file.fPos + bytes.length }
      (WritableAt s.mem (buf + done) bytes.length → readUserLoop pipeOps buf len (fuel + 1) done s =
          if bytes.length < min (len - done) sysFileBufSize then
            some (.ok (done + bytes.length),
              { mem := s.mem.store (buf + done) bytes, file := file' })
          else readUserLoop pipeOps buf len fuel (done + bytes.length)
            { mem := s.mem.store (buf + done) bytes, file := file' }) ∧
      (¬ WritableAt s.mem (buf + done) bytes.length →
        readUserLoop pipeOps buf len (fuel + 1) done s =
          some (if done ≠ 0 then .ok done else .error .efault,
            { mem := s.mem, file := { file' with fPos := s.file.fPos } })) := by
  have hchunk : (if len - done > sysFileBufSize then sysFileBufSize else len - done) =
      min (len - done) sysFileBufSize := by
    split_ifs <;> omega
  have hpos : 0 < min (len - done) sysFileBufSize := by
    have : 0 < sysFileBufSize := by decide
    omega
  obtain ⟨bytes, p', hread, htook, hbytes⟩ :=
    pipeRead_took hused (min (len - done) sysFileBufSize)
  have hvfs : vfsRead pipeOps s.file (min (len - done) sysFileBufSize) =
      some (.ok bytes, { s.file with dev := p', fPos := s.file.fPos + bytes.length }) := by
    rw [vfsRead_pipeOps hmode, hread]
  have hne : bytes ≠ [] := by
    rintro rfl
    simp only [List.length_nil] at hbytes
    omega
  have hprobe : userRangeProbe s.mem.writable (buf + done) bytes.length = true ↔
      WritableAt s.mem (buf + done) bytes.length :=
    userRangeProbe_iff (accessOk_mono hlen hok (by omega))
  refine ⟨bytes, p', htook, hbytes, fun hw => ?_, fun hw => ?_⟩
  · have hcopy : copyToUser s.mem (buf + done) bytes = (0, s.mem.store (buf + done) bytes) := by
      rw [copyToUser, if_pos (hprobe.mpr hw)]
    rw [readUserLoop, if_pos hdone]
    simp [hchunk, hvfs, hne, hcopy]
  · have hcopy : copyToUser s.mem (buf + done) bytes = (bytes.length, s.mem) := by
      rw [copyToUser, if_neg (fun h => hw (hprobe.mp h))]
    rw [readUserLoop, if_pos hdone]
    simp [hchunk, hvfs, hne, hcopy, vfsRewindPos]

theorem readUserLoop_done (hdone : len ≤ done) :
    readUserLoop pipeOps buf len fuel done s = some (.ok done, s) := by
  cases fuel with
  | zero => rfl
  | succ fuel => rw [readUserLoop, if_neg (by omega)]

/-- The state after the loop has moved `bytes` from the pipe to user space. -/
def movedState (s : IoState PipeEnd) (dst : Nat) (bytes : List UInt8) (p' : PipeEnd) :
    IoState PipeEnd :=
  { mem := s.mem.store dst bytes
    file := { s.file with dev := p', fPos := s.file.fPos + bytes.length } }

theorem movedState_movedState (s : IoState PipeEnd) (dst : Nat) (xs ys : List UInt8)
    (p' p'' : PipeEnd) :
    movedState (movedState s dst xs p') (dst + xs.length) ys p'' =
      movedState s dst (xs ++ ys) p'' := by
  simp [movedState, UserMem.store_store, Nat.add_assoc]

variable {m : UserMem}

theorem WritableAt.mono {start k : Nat} (h : WritableAt m start n) (hk : k ≤ n) :
    WritableAt m start k :=
  fun a hlow hhigh => h a hlow (by omega)

theorem writableAt_add {start j k : Nat} :
    WritableAt m start (j + k) ↔ WritableAt m start j ∧ WritableAt m (start + j) k := by
  constructor
  · intro h
    exact ⟨h.mono (by omega), fun a hlow hhigh => h a (by omega) (by omega)⟩
  · rintro ⟨hj, hk⟩ a hlow hhigh
    by_cases ha : a < start + j
    · exact hj a hlow ha
    · exact hk a (by omega) (by omega)

section

variable (hlen : len < wordModulus) (hok : accessOk buf len = true)
include hlen hok

/-- With room to store them, the loop moves all bytes it can get.  It ends there unless
the pipe ran empty exactly at the end of a full piece; then it starts another round. -/
theorem readUserLoop_drain (s : IoState PipeEnd) (done : Nat) (hmode : s.file.fmodeRead = true)
    (hused : 0 < s.file.dev.pipe.ring.used) (hfuel : len - done ≤ fuel) (hdone : done < len)
    (hw : WritableAt s.mem (buf + done) (min (len - done) s.file.dev.pipe.ring.used)) :
    ∃ bytes p', Took s.file.dev p' bytes ∧
      bytes.length = min (len - done) s.file.dev.pipe.ring.used ∧
      if s.file.dev.pipe.ring.used < len - done ∧
          s.file.dev.pipe.ring.used % sysFileBufSize = 0 then
        ∃ fuel', len - (done + bytes.length) ≤ fuel' ∧ readUserLoop pipeOps buf len fuel done s =
            readUserLoop pipeOps buf len fuel' (done + bytes.length)
              (movedState s (buf + done) bytes p')
      else
        readUserLoop pipeOps buf len fuel done s =
          some (.ok (done + bytes.length), movedState s (buf + done) bytes p') := by
  induction fuel generalizing done s with
  | zero => omega
  | succ fuel ih =>
    obtain ⟨xs, p1, htook, hxs, hround, -⟩ :=
      readUserLoop_round hlen hok hmode hused hdone fuel
    have hround := hround (hw.mono (by omega))
    have hrest := htook.used
    have hsize : sysFileBufSize = 256 := rfl
    rw [hsize] at hxs hround ih ⊢
    by_cases hshort : xs.length < min (len - done) 256
    · -- the pipe ran empty inside a piece
      rw [if_pos hshort] at hround
      refine ⟨xs, p1, htook, by omega, ?_⟩
      rw [if_neg (by omega)]
      exact hround
    · rw [if_neg hshort] at hround
      by_cases hend : done + xs.length = len
      · refine ⟨xs, p1, htook, by omega, ?_⟩
        rw [if_neg (by omega), hround]
        exact readUserLoop_done (by omega)
      · by_cases hempty : p1.pipe.ring.used = 0
        · refine ⟨xs, p1, htook, by omega, ?_⟩
          rw [if_pos (by omega)]
          exact ⟨fuel, by omega, hround⟩
        · have hsplit : min (len - done) s.file.dev.pipe.ring.used =
              xs.length + min (len - (done + xs.length)) p1.pipe.ring.used := by omega
          rw [hsplit, writableAt_add, Nat.add_assoc] at hw
          obtain ⟨ys, p2, htook2, hys, hloop⟩ :=
            ih (movedState s (buf + done) xs p1) (done + xs.length) hmode
              (Nat.pos_of_ne_zero hempty) (by omega) (by omega) hw.2
          have hys' : ys.length = min (len - (done + xs.length)) p1.pipe.ring.used := hys
          have hcond : (p1.pipe.ring.used < len - (done + xs.length) ∧
              p1.pipe.ring.used % 256 = 0) ↔
              (s.file.dev.pipe.ring.used < len - done ∧ s.file.dev.pipe.ring.used % 256 = 0) := by
            omega
          refine ⟨xs ++ ys, p2, htook.trans htook2, ?_, ?_⟩
          · rw [List.length_append]
            omega
          · rw [← Nat.add_assoc, movedState_movedState] at hloop
            rw [List.length_append, ← Nat.add_assoc, hround]
            by_cases hagain : s.file.dev.pipe.ring.used < len - done ∧
                s.file.dev.pipe.ring.used % 256 = 0
            · rw [if_pos hagain]
              exact (if_pos (hcond.mpr hagain)).mp hloop
            · rw [if_neg hagain]
              exact (if_neg (fun h => hagain (hcond.mp h))).mp hloop

/-- Where the place of some byte cannot be written, the piece around it is removed
from the pipe and neither stored nor counted. -/
theorem readUserLoop_fault (s : IoState PipeEnd) (done : Nat) (hmode : s.file.fmodeRead = true)
    (hused : 0 < s.file.dev.pipe.ring.used) (hfuel : len - done ≤ fuel) (hdone : done < len)
    (hw : ¬ WritableAt s.mem (buf + done) (min (len - done) s.file.dev.pipe.ring.used)) :
    ∃ bytes ret s', readUserLoop pipeOps buf len fuel done s = some (ret, s') ∧
      Took s.file.dev s'.file.dev bytes ∧ bytes ≠ [] ∧
      ∀ n, ret = .ok n → n < done + bytes.length := by
  induction fuel generalizing done s with
  | zero => omega
  | succ fuel ih =>
    obtain ⟨xs, p1, htook, hxs, hstored, hlost⟩ :=
      readUserLoop_round hlen hok hmode hused hdone fuel
    have hrest := htook.used
    have hsize : sysFileBufSize = 256 := rfl
    have hne : xs ≠ [] := by
      rintro rfl
      simp only [List.length_nil] at hxs
      omega
    by_cases hxw : WritableAt s.mem (buf + done) xs.length
    · -- this piece is stored, so the bad byte belongs to a later one
      have hmore : xs.length < min (len - done) s.file.dev.pipe.ring.used := by
        by_contra hnot
        exact hw (hxw.mono (by omega))
      have hstored := hstored hxw
      rw [if_neg (by omega)] at hstored
      have hsplit : min (len - done) s.file.dev.pipe.ring.used =
          xs.length + min (len - (done + xs.length)) p1.pipe.ring.used := by omega
      rw [hsplit, writableAt_add, Nat.add_assoc] at hw
      obtain ⟨ys, ret, s', hloop, htook2, -, hret⟩ :=
        ih (movedState s (buf + done) xs p1) (done + xs.length) hmode
          (show 0 < p1.pipe.ring.used by omega) (by omega) (by omega)
          (fun h => hw ⟨hxw, h⟩)
      refine ⟨xs ++ ys, ret, s', hstored.trans hloop, htook.trans htook2, by simp [hne], ?_⟩
      intro n hn
      have := hret n hn
      rw [List.length_append]
      omega
    · refine ⟨xs, _, _, hlost hxw, htook, hne, fun n hn => ?_⟩
      by_cases hzero : done = 0
      · simp [hzero] at hn
      · simp [hzero] at hn
        omega

end

/-- A round on the empty pipe ends the loop: with what was moved before if there is no
writer, with an error otherwise. -/
theorem readUserLoop_empty (hmode : s.file.fmodeRead = true)
    (hempty : s.file.dev.pipe.ring.used = 0) (hdone : done < len)
    (hfuel : 0 < fuel) :
    (s.file.dev.pipe.writers = 0 → readUserLoop pipeOps buf len fuel done s = some (.ok done, s)) ∧
    (s.file.dev.pipe.writers ≠ 0 → s.file.dev.nonblock = true →
      readUserLoop pipeOps buf len fuel done s = some (.error .eagain, s)) ∧
    (s.file.dev.pipe.writers ≠ 0 → s.file.dev.nonblock = false → ∀ pipe rest,
      s.file.dev.replies = .signal pipe :: rest →
      ∃ s', readUserLoop pipeOps buf len fuel done s = some (.error .eintr, s') ∧
        s'.file.dev.taken = s.file.dev.taken) := by
  obtain ⟨fuel, rfl⟩ : ∃ k, fuel = k + 1 := ⟨fuel - 1, by omega⟩
  have hchunk : 0 < if len - done > sysFileBufSize then sysFileBufSize else len - done := by
    split_ifs
    · decide
    · omega
  obtain ⟨heof, hagain, hintr⟩ := pipeRead_empty hempty hchunk
  rw [readUserLoop, if_pos hdone]
  dsimp only
  refine ⟨fun hwriters => ?_, fun hwriters hnonblock => ?_,
    fun hwriters hnonblock pipe rest hreplies => ?_⟩
  · rw [vfsRead_pipeOps hmode, heof hwriters]
    rfl
  · rw [vfsRead_pipeOps hmode, hagain hwriters hnonblock]
  · refine ⟨{ s with file := { s.file with dev := { s.file.dev with
      pipe := pipe, replies := rest, waits := s.file.dev.waits + 1 } } }, ?_, rfl⟩
    rw [vfsRead_pipeOps hmode, hintr hwriters hnonblock pipe rest hreplies]

end Rounds

/-! ## `sys_read` -/

/-- A task about to read: its memory, and the read end of `pipe`. -/
def pipeReader (mem : UserMem) (pipe : PipeBuffer) (nonblock : Bool) (fPos : Nat)
    (replies : List WaitReply) : IoState PipeEnd :=
  { mem := mem
    file := { dev := { pipe := pipe, nonblock := nonblock, replies := replies }
              fPos := fPos
              fmodeRead := true } }

/-- A read that returned lost no byte: what it removed are the oldest bytes, it
removed as many as it returned and stored them in order, and nothing if it failed.
A buffer that can be written as a whole is filled without sleeping. -/
structure ReadLossless (mem : UserMem) (pipe : PipeBuffer) (buf len : Nat)
    (ret : Except Errno Nat) (s : IoState PipeEnd) : Prop where
  returned : ∀ n, ret = .ok n →
    s.file.dev.taken.length = n ∧ s.mem = mem.store buf s.file.dev.taken
  failed : ∀ e, ret = .error e → s.file.dev.taken = []
  oldest : s.file.dev.taken <+: pipe.ring.contents ∨ pipe.ring.contents <+: s.file.dev.taken
  removed : s.file.dev.waits = 0 →
    s.file.dev.pipe.ring.contents = pipe.ring.contents.drop s.file.dev.taken.length
  whole : accessOk buf len = true → WritableAt mem buf len →
    ret = .ok (min pipe.ring.used len) ∧ s.file.dev.waits = 0

/-- The same for a read that may sleep for ever, which it must not do when the whole
buffer can be written. -/
def Lossless (mem : UserMem) (pipe : PipeBuffer) (buf len : Nat) :
    Call Nat (IoState PipeEnd) → Prop
  | none => ¬ (accessOk buf len = true ∧ WritableAt mem buf len)
  | some (ret, s) => ReadLossless mem pipe buf len ret s

section SysRead

variable {mem : UserMem} {pipe : PipeBuffer} {nonblock : Bool} {fPos buf len : Nat}
  {replies : List WaitReply}

theorem sysRead_pipeReader (hok : accessOk buf len = true) :
    sysRead pipeOps (pipeReader mem pipe nonblock fPos replies) buf len =
      readUserLoop pipeOps buf len len 0 (pipeReader mem pipe nonblock fPos replies) := by
  simp [sysRead, readUserBuffer, pipeReader, hok]

/-- Bytes that were taken without sleeping and stored make a lossless read. -/
theorem readLossless_of_moved
    (htook : Took (pipeReader mem pipe nonblock fPos replies).file.dev p' bytes)
    (hbytes : bytes.length = min len pipe.ring.used) :
    ReadLossless mem pipe buf len (.ok bytes.length)
      (movedState (pipeReader mem pipe nonblock fPos replies) buf bytes p') := by
  have htaken : p'.taken = bytes := by
    rw [htook.taken]
    rfl
  have hcontents : bytes ++ p'.pipe.ring.contents = pipe.ring.contents := htook.contents
  refine ⟨?_, ?_, ?_, ?_, ?_⟩
  · intro n hn
    cases hn
    exact ⟨by rw [movedState, htaken], by rw [movedState, htaken]; rfl⟩
  · intro e he
    cases he
  · rw [movedState, htaken]
    exact .inl ⟨_, hcontents⟩
  · intro _
    rw [movedState, htaken, ← hcontents, List.drop_left]
  · intro _ _
    exact ⟨by rw [hbytes, min_comm], htook.waits⟩

/-- A buffer outside user space is refused before the pipe is touched. -/
theorem lossless_of_not_accessOk (hok : accessOk buf len = false) : Lossless mem pipe buf len
      (sysRead pipeOps (pipeReader mem pipe nonblock fPos replies) buf len) := by
  have hread : sysRead pipeOps (pipeReader mem pipe nonblock fPos replies) buf len =
      some (.error .efault, pipeReader mem pipe nonblock fPos replies) := by
    simp [sysRead, readUserBuffer, pipeReader, hok]
  rw [hread]
  refine ⟨?_, fun _ _ => rfl, .inl List.nil_prefix, fun _ => rfl, ?_⟩
  · intro n hn
    cases hn
  · intro hyes
    rw [hok] at hyes
    cases hyes

/-- How the loop of `sys_read` goes when the bytes it can get have a place. -/
theorem sysRead_drain (nonblock : Bool) (fPos : Nat) (replies : List WaitReply)
    (hlen : len < wordModulus) (hpos : 0 < len)
    (hused : 0 < pipe.ring.used) (hok : accessOk buf len = true)
    (hw : WritableAt mem buf (min len pipe.ring.used)) :
    ∃ bytes p', Took (pipeReader mem pipe nonblock fPos replies).file.dev p' bytes ∧
      bytes.length = min len pipe.ring.used ∧
      if pipe.ring.used < len ∧ pipe.ring.used % sysFileBufSize = 0 then
        p'.pipe.ring.used = 0 ∧ ∃ fuel, 0 < fuel ∧
          sysRead pipeOps (pipeReader mem pipe nonblock fPos replies) buf len =
            readUserLoop pipeOps buf len fuel bytes.length
              (movedState (pipeReader mem pipe nonblock fPos replies) buf bytes p')
      else
        sysRead pipeOps (pipeReader mem pipe nonblock fPos replies) buf len =
          some (.ok bytes.length,
            movedState (pipeReader mem pipe nonblock fPos replies) buf bytes p') := by
  rw [sysRead_pipeReader hok]
  obtain ⟨bytes, p', htook, hbytes, hloop⟩ := readUserLoop_drain hlen hok
    (pipeReader mem pipe nonblock fPos replies) 0 rfl hused (le_refl (len - 0)) hpos hw
  have hbytes' : bytes.length = min len pipe.ring.used := hbytes
  have hall : bytes.length + p'.pipe.ring.used = pipe.ring.used := htook.used
  refine ⟨bytes, p', htook, hbytes', ?_⟩
  rw [Nat.zero_add] at hloop
  by_cases hagain : pipe.ring.used < len ∧ pipe.ring.used % sysFileBufSize = 0
  · rw [if_pos hagain]
    obtain ⟨fuel, hfuel, hloop⟩ := (if_pos hagain).mp hloop
    exact ⟨by omega, fuel, by omega, hloop⟩
  · rw [if_neg hagain]
    exact (if_neg hagain).mp hloop

/-- The condition is enough: every round finds something to read, and the last one
knows that it is the last. -/
theorem lossless_of_writable (hlen : len < wordModulus) (hpos : 0 < len)
    (hused : 0 < pipe.ring.used) (hok : accessOk buf len = true)
    (hw : WritableAt mem buf (min len pipe.ring.used))
    (hend : len ≤ pipe.ring.used ∨ pipe.ring.used % sysFileBufSize ≠ 0 ∨ pipe.writers = 0) :
    Lossless mem pipe buf len
      (sysRead pipeOps (pipeReader mem pipe nonblock fPos replies) buf len) := by
  obtain ⟨bytes, p', htook, hbytes, hread⟩ :=
    sysRead_drain nonblock fPos replies hlen hpos hused hok hw
  have hlossless : ReadLossless mem pipe buf len (.ok bytes.length)
      (movedState (pipeReader mem pipe nonblock fPos replies) buf bytes p') :=
    readLossless_of_moved htook hbytes
  by_cases hagain : pipe.ring.used < len ∧ pipe.ring.used % sysFileBufSize = 0
  · -- the extra round on the empty pipe returns zero bytes: there is no writer
    rw [if_pos hagain] at hread
    obtain ⟨hempty, fuel, hfuel, hread⟩ := hread
    have hwriters : p'.pipe.writers = 0 := by
      rw [htook.writers]
      exact (hend.resolve_left (by omega)).resolve_left (by simp [hagain.2])
    rw [hread, (readUserLoop_empty rfl hempty (by omega) hfuel).1 hwriters]
    exact hlossless
  · rw [if_neg hagain] at hread
    rw [hread]
    exact hlossless

/-- The condition is needed: a byte that has no place is lost, and so is everything
that was moved before a round that finds the pipe empty. -/
theorem exists_not_lossless (nonblock : Bool) (fPos : Nat) (hlen : len < wordModulus)
    (hpos : 0 < len)
    (hused : 0 < pipe.ring.used) (hok : accessOk buf len = true)
    (hbad : ¬ (WritableAt mem buf (min len pipe.ring.used) ∧
      (len ≤ pipe.ring.used ∨ pipe.ring.used % sysFileBufSize ≠ 0 ∨ pipe.writers = 0))) :
    ∃ replies, ¬ Lossless mem pipe buf len
      (sysRead pipeOps (pipeReader mem pipe nonblock fPos replies) buf len) := by
  by_cases hw : WritableAt mem buf (min len pipe.ring.used)
  · -- the caller comes back to an empty pipe that still has a writer
    have hcase : (pipe.ring.used < len ∧ pipe.ring.used % sysFileBufSize = 0) ∧
        pipe.writers ≠ 0 := by
      rw [not_and, not_or, not_or, not_not] at hbad
      obtain ⟨hmore, hfull, hwriters⟩ := hbad hw
      exact ⟨⟨by omega, hfull⟩, hwriters⟩
    refine ⟨[.signal pipe], fun hlossless => ?_⟩
    obtain ⟨bytes, p', htook, hbytes, hread⟩ :=
      sysRead_drain nonblock fPos [.signal pipe] hlen hpos hused hok hw
    rw [if_pos hcase.1] at hread
    obtain ⟨hempty, fuel, hfuel, hread⟩ := hread
    have hne : bytes ≠ [] := List.ne_nil_of_length_pos (by omega)
    have htaken : p'.taken = bytes := by
      rw [htook.taken]
      rfl
    have hwriters : p'.pipe.writers ≠ 0 := by
      rw [htook.writers]
      exact hcase.2
    obtain ⟨-, hagain, hintr⟩ := readUserLoop_empty (s := movedState
      (pipeReader mem pipe nonblock fPos [.signal pipe]) buf bytes p') rfl hempty
      (show bytes.length < len by omega) hfuel
    rw [hread] at hlossless
    cases hmode : nonblock with
    | true =>
      have hnonblock : p'.nonblock = true := by
        rw [htook.nonblock]
        exact hmode
      rw [hagain hwriters hnonblock] at hlossless
      exact hne (htaken ▸ hlossless.failed _ rfl)
    | false =>
      have hnonblock : p'.nonblock = false := by
        rw [htook.nonblock]
        exact hmode
      obtain ⟨s', hloop, htaken'⟩ := hintr hwriters hnonblock pipe [] htook.replies
      rw [hloop] at hlossless
      have hlost := hlossless.failed _ rfl
      rw [htaken'] at hlost
      exact hne (htaken ▸ hlost)
  · refine ⟨[], fun hlossless => ?_⟩
    rw [sysRead_pipeReader hok] at hlossless
    obtain ⟨bytes, ret, s', hloop, htook, hne, hret⟩ := readUserLoop_fault hlen hok
      (pipeReader mem pipe nonblock fPos []) 0 rfl hused (le_refl (len - 0)) hpos hw
    have htaken : s'.file.dev.taken = bytes := by
      rw [htook.taken]
      rfl
    have hloop' : readUserLoop pipeOps buf len len 0 (pipeReader mem pipe nonblock fPos []) =
        some (ret, s') := hloop
    rw [hloop'] at hlossless
    cases ret with
    | ok n =>
      have hcount := (hlossless.returned n rfl).1
      have hfewer := hret n rfl
      rw [htaken] at hcount
      omega
    | error e => exact hne (htaken ▸ hlossless.failed e rfl)

/-- `sys_read` on a pipe with buffered bytes loses none, whatever the other tasks do,
exactly when the buffer is refused outright, or the bytes that can be read have a
place in it and the read does not come back to an empty pipe. -/
theorem sysRead_lossless_iff (mem : UserMem) (pipe : PipeBuffer) (nonblock : Bool) (fPos : Nat)
    (hlen : len < wordModulus) (hpos : 0 < len) (hused : 0 < pipe.ring.used) :
    (∀ replies, Lossless mem pipe buf len
      (sysRead pipeOps (pipeReader mem pipe nonblock fPos replies) buf len)) ↔
    accessOk buf len = false ∨ (WritableAt mem buf (min len pipe.ring.used) ∧
        (len ≤ pipe.ring.used ∨ pipe.ring.used % sysFileBufSize ≠ 0 ∨ pipe.writers = 0)) := by
  cases hok : accessOk buf len with
  | false => exact iff_of_true (fun _ => lossless_of_not_accessOk hok) (.inl rfl)
  | true =>
    constructor
    · intro hall
      by_contra hbad
      obtain ⟨replies, hlost⟩ := exists_not_lossless nonblock fPos hlen hpos hused hok
        (fun h => hbad (.inr h))
      exact hlost (hall replies)
    · rintro (hno | ⟨hw, hend⟩) replies
      · cases hno
      · exact lossless_of_writable hlen hpos hused hok hw hend

end SysRead

/-- User memory that is writable throughout. -/
def openMem : UserMem := ⟨fun _ => 0, fun _ => true, fun _ => true⟩

/-- A pipe with `n` zero bytes, one reader and one writer. -/
def zeroPipe (n : Nat) (hn : n < pipeSize) : PipeBuffer where
  ring := { data := fun _ => 0, head := n, tail := 0, used := n, tail_lt := by decide,
            used_le := hn.le, head_eq := by rw [Nat.zero_add, Nat.mod_eq_of_lt hn] }
  readers := 1
  writers := 1

/-- Three bytes are read into a larger buffer. -/
theorem sysRead_lossless_zeroPipe : (zeroPipe 3 (by decide)).ring.used = 3 ∧ ∀ replies,
    Lossless openMem (zeroPipe 3 (by decide)) 0x10000 10
      (sysRead pipeOps (pipeReader openMem (zeroPipe 3 (by decide)) false 0 replies)
        0x10000 10) := by
  refine ⟨rfl, ?_⟩
  exact (sysRead_lossless_iff openMem (zeroPipe 3 (by decide)) false 0 (by decide) (by decide)
    (by decide)).mpr (.inr ⟨fun _ _ _ => rfl, .inr (.inl (by decide))⟩)

/-- A full piece is taken and stored, the next `pipe_read` finds the pipe empty, and its
`-EAGAIN` replaces the count. -/
theorem sysRead_lost_piece :
    ∃ s, sysRead pipeOps (pipeReader openMem (zeroPipe 256 (by decide)) true 0 []) 0x10000 512 =
        some (.error .eagain, s) ∧
      s.file.dev.taken.length = 256 ∧ s.file.dev.pipe.ring.used = 0 ∧
      ¬ Lossless openMem (zeroPipe 256 (by decide)) 0x10000 512 (some (.error .eagain, s)) := by
  have hread : (sysRead pipeOps (pipeReader openMem (zeroPipe 256 (by decide)) true 0 [])
      0x10000 512).map (fun r => (r.1, r.2.file.dev.taken.length, r.2.file.dev.pipe.ring.used)) =
      some (.error .eagain, 256, 0) := by decide +kernel
  obtain ⟨⟨ret, s⟩, hsome, heq⟩ := Option.map_eq_some_iff.mp hread
  simp only [Prod.mk.injEq] at heq
  obtain ⟨hret, htaken, hused⟩ := heq
  subst hret
  refine ⟨s, hsome, htaken, hused, fun hlossless => ?_⟩
  rw [hlossless.failed _ rfl, List.length_nil] at htaken
  omega

end CuteOS.Fs
