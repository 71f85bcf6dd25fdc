/-
  Fs/Pipe.lean --- pipes.

  Source: `fs/pipe.c`.  Other tasks touch the pipe only while the caller sleeps in
  `pipe_wait`; what they do there is described by a list of replies, one for each
  wait of the call.  `waits` and `taken` record what the call did: how often it
  slept, and which bytes it removed.
-/
import CuteOS.Fs.FileIo
import CuteOS.Lib.Ring

set_option autoImplicit false

namespace CuteOS.Fs

/-- `PIPE_SIZE`. -/
def pipeSize : Nat := 4096

/-- `PIPE_BUF`. -/
def pipeBuf : Nat := 4096

/-- `struct pipe_buffer`. -/
structure PipeBuffer where
  ring : Lib.Ring UInt8 pipeSize
  readers : Nat
  writers : Nat

/-- How a sleep in `pipe_wait` ends: with a pending signal, with the pipe's event, or
without sleeping because the wait could not be set up.  The pipe is what the other
tasks left. -/
inductive WaitReply where
  | signal (pipe : PipeBuffer)
  | event (pipe : PipeBuffer)
  | fail (e : Errno)

/-- One end of a pipe in the hands of one system call. -/
structure PipeEnd where
  pipe : PipeBuffer
  nonblock : Bool
  replies : List WaitReply
  waits : Nat := 0
  taken : List UInt8 := []
  /-- How often the call has sent itself `SIGPIPE`. -/
  sigpipes : Nat := 0

/-- `pipe_wait`. -/
def pipeWait (p : PipeEnd) : Call Unit PipeEnd :=
  match p.replies with
  | [] => none
  | .signal pipe :: rest =>
    some (.error .eintr, { p with pipe := pipe, replies := rest, waits := p.waits + 1 })
  | .event pipe :: rest =>
    some (.ok (), { p with pipe := pipe, replies := rest, waits := p.waits + 1 })
  | .fail e :: rest => some (.error e, { p with replies := rest, waits := p.waits + 1 })

/-- The piece that one round of `pipe_read` copies. -/
def pipeReadChunk (p : PipeEnd) (wanted : Nat) : Nat :=
  if wanted > p.pipe.ring.linearTail then p.pipe.ring.linearTail else wanted

theorem pipeReadChunk_le_linearTail (p : PipeEnd) (wanted : Nat) :
    pipeReadChunk p wanted ≤ p.pipe.ring.linearTail := by
  unfold pipeReadChunk
  split_ifs <;> omega

theorem pipeReadChunk_le_used (p : PipeEnd) (wanted : Nat) :
    pipeReadChunk p wanted ≤ p.pipe.ring.used :=
  (pipeReadChunk_le_linearTail p wanted).trans p.pipe.ring.linearTail_le_used

/-- `memcpy` and `pipe_commit_read_locked`: the bytes copied and the pipe end
without them. -/
def pipeTake (p : PipeEnd) (wanted : Nat) : List UInt8 × PipeEnd :=
  let chunk := pipeReadChunk p wanted
  let bytes := p.pipe.ring.window chunk
  (bytes, { p with
    pipe := { p.pipe with ring := p.pipe.ring.commitRead chunk (pipeReadChunk_le_used p wanted) }
    taken := p.taken ++ bytes })

/-- The loop of `pipe_read`; `buf` holds the bytes copied so far. -/
def pipeReadLoop (count : Nat) : Nat → List UInt8 → PipeEnd → Call (List UInt8) PipeEnd
  | 0, buf, p => some (.ok buf, p)
  | fuel + 1, buf, p =>
    if buf.length < count then
      if p.pipe.ring.used = 0 then
        if p.pipe.writers = 0 ∨ buf.length > 0 then some (.ok buf, p)
        else if p.nonblock then some (.error .eagain, p)
        else
          match pipeWait p with
          | none => none
          | some (.error e, p) => some (if buf.length ≠ 0 then .ok buf else .error e, p)
          | some (.ok (), p) => pipeReadLoop count fuel buf p
      else
        let (bytes, p) := pipeTake p (count - buf.length)
        pipeReadLoop count fuel (buf ++ bytes) p
    else some (.ok buf, p)

/-- `pipe_read`.  Every round takes a byte or uses up a reply, so the loop ends before
its fuel does. -/
def pipeRead (p : PipeEnd) (count : Nat) : Call (List UInt8) PipeEnd :=
  pipeReadLoop count (count + p.replies.length + 1) [] p

/-! ## Writing -/

/-- `pipe_commit_write_locked`. -/
def pipePut (p : PipeEnd) (bytes : List UInt8) : PipeEnd :=
  { p with pipe := { p.pipe with ring := p.pipe.ring.push bytes.length bytes } }

/-- The loop of `pipe_write`; `done` bytes of `buf` are in the pipe. -/
def pipeWriteLoop (buf : List UInt8) : Nat → Nat → PipeEnd → Call Nat PipeEnd
  | 0, done, p => some (.ok done, p)
  | fuel + 1, done, p =>
    let count := buf.length
    let atomic := count ≤ pipeBuf
    let minSpace := if count ≤ pipeBuf then count else 1
    if done < count then
      if p.pipe.readers = 0 then
        if done = 0 then some (.error .epipe, { p with sigpipes := p.sigpipes + 1 })
        else some (.ok done, p)
      else
        let space := pipeSize - p.pipe.ring.used
        if space < minSpace then
          if p.nonblock then some (if done ≠ 0 then .ok done else .error .eagain, p)
          else
            match pipeWait p with
            | none => none
            | some (.error e, p) => some (if done ≠ 0 then .ok done else .error e, p)
            | some (.ok (), p) => pipeWriteLoop buf fuel done p
        else if atomic then some (.ok count, pipePut p buf)
        else
          let space := if space > count - done then count - done else space
          pipeWriteLoop buf fuel (done + space) (pipePut p ((buf.drop done).take space))
    else some (.ok done, p)

/-- `pipe_write`. -/
def pipeWrite (p : PipeEnd) (buf : List UInt8) : Call Nat PipeEnd :=
  if buf.length = 0 then some (.ok 0, p)
  else pipeWriteLoop buf (buf.length + p.replies.length + 1) 0 p

/-- `pipe_read_fops` and `pipe_write_fops`; a pipe has no position. -/
def pipeOps : FileOps PipeEnd where
  read p _ count := pipeRead p count
  write p _ bytes := pipeWrite p bytes

end CuteOS.Fs
