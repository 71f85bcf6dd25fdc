/-
  Fs/PipeStream.lean --- one pipe in the hands of any number of readers and writers.

  Source: `fs/pipe.c`.  The loops of `pipe_read` and `pipe_write` hold the lock of the
  pipe for one turn at a time, so calls interleave turn by turn.  A call keeps a
  reference to its end of the pipe, and `pipe_release` runs when the last one is gone.
-/
import CuteOS.Fs.Pipe
import CuteOS.Lib.Fifo
import CuteOS.Lib.Runs

set_option autoImplicit false

namespace CuteOS.Fs

open Lib Lib.Fifo

/-! ## One turn under the lock -/

/-- How a turn of a loop ends: the call returns, sleeps in `pipe_wait`, or goes on. -/
inductive Next (α : Type) where
  | finish (r : Except Errno α)
  | sleep
  | loop

/-- A turn: the bytes that were moved, and the pipe after it. -/
structure Turn (α : Type) where
  next : Next α
  pipe : PipeBuffer
  piece : List UInt8 := []
  /-- `send_current_signal(SIGPIPE)`. -/
  sigpipe : Bool := false

/-- The body of the loop of `pipe_read`. -/
def pipeReadTurn (nonblock : Bool) (count : Nat) (buf : List UInt8) (pipe : PipeBuffer) :
    Turn (List UInt8) :=
  if buf.length < count then
    if pipe.ring.used = 0 then
      if pipe.writers = 0 ∨ buf.length > 0 then ⟨.finish (.ok buf), pipe, [], false⟩
      else if nonblock then ⟨.finish (.error .eagain), pipe, [], false⟩
      else ⟨.sleep, pipe, [], false⟩
    else
      let (bytes, p) := pipeTake ⟨pipe, nonblock, [], 0, [], 0⟩ (count - buf.length)
      ⟨.loop, p.pipe, bytes, false⟩
  else ⟨.finish (.ok buf), pipe, [], false⟩

/-- What `pipe_read` returns when its wait fails. -/
def pipeReadFail (buf : List UInt8) (e : Errno) : Except Errno (List UInt8) :=
  if buf.length ≠ 0 then .ok buf else .error e

/-- The body of the loop of `pipe_write`. -/
def pipeWriteTurn (nonblock : Bool) (buf : List UInt8) (done : Nat) (pipe : PipeBuffer) :
    Turn Nat :=
  let count := buf.length
  let atomic := count ≤ pipeBuf
  let minSpace := if count ≤ pipeBuf then count else 1
  if done < count then
    if pipe.readers = 0 then
      if done = 0 then ⟨.finish (.error .epipe), pipe, [], true⟩
      else ⟨.finish (.ok done), pipe, [], false⟩
    else
      let space := pipeSize - pipe.ring.used
      if space < minSpace then
        if nonblock then ⟨.finish (if done ≠ 0 then .ok done else .error .eagain), pipe, [], false⟩
        else ⟨.sleep, pipe, [], false⟩
      else if atomic then
        ⟨.finish (.ok count), { pipe with ring := pipe.ring.push count buf }, buf, false⟩
      else
        let space := if space > count - done then count - done else space
        let piece := (buf.drop done).take space
        ⟨.loop, { pipe with ring := pipe.ring.push piece.length piece }, piece, false⟩
  else ⟨.finish (.ok done), pipe, [], false⟩

/-- What `pipe_write` returns when its wait fails. -/
def pipeWriteFail (done : Nat) (e : Errno) : Except Errno Nat :=
  if done ≠ 0 then .ok done else .error e

/-! ## The loops are their turns -/

/-- The end of the pipe after a turn in which the call has taken these bytes. -/
def PipeEnd.after {α : Type} (p : PipeEnd) (turn : Turn α) (taken : List UInt8) : PipeEnd :=
  { p with
    pipe := turn.pipe
    taken := p.taken ++ taken
    sigpipes := p.sigpipes + turn.sigpipe.toNat }

/-- What a loop makes of a turn; `again` is the rest of it. -/
def Turn.resume {α : Type} (turn : Turn α) (p p' : PipeEnd) (fail : Errno → Except Errno α)
    (again : List UInt8 → PipeEnd → Call α PipeEnd) : Call α PipeEnd :=
  match turn.next with
  | .finish r => some (r, p')
  | .loop => again turn.piece p'
  | .sleep =>
    match pipeWait p with
    | none => none
    | some (.error e, p) => some (fail e, p)
    | some (.ok (), p) => again [] p

theorem pipeReadLoop_turn (count fuel : Nat) (buf : List UInt8) (p : PipeEnd) (turn)
    (hturn : pipeReadTurn p.nonblock count buf p.pipe = turn) :
    pipeReadLoop count (fuel + 1) buf p = turn.resume p (p.after turn turn.piece)
      (pipeReadFail buf) fun piece => pipeReadLoop count fuel (buf ++ piece) := by
  subst hturn
  obtain ⟨pipe, nonblock, replies, waits, taken, sigpipes⟩ := p
  rw [pipeReadLoop, pipeReadTurn]
  rcases hwait : pipeWait ⟨pipe, nonblock, replies, waits, taken, sigpipes⟩ with _ | ⟨_ | _, _⟩
  all_goals
    split_ifs
    all_goals simp_all [Turn.resume, PipeEnd.after, pipeReadFail, pipeTake, pipeReadChunk]

theorem pipeWriteLoop_turn (buf : List UInt8) (fuel done : Nat) (p : PipeEnd) (turn)
    (hturn : pipeWriteTurn p.nonblock buf done p.pipe = turn) :
    pipeWriteLoop buf (fuel + 1) done p = turn.resume p (p.after turn [])
      (pipeWriteFail done) fun piece => pipeWriteLoop buf fuel (done + piece.length) := by
  subst hturn
  obtain ⟨pipe, nonblock, replies, waits, taken, sigpipes⟩ := p
  rw [pipeWriteLoop, pipeWriteTurn]
  dsimp only
  rcases hwait : pipeWait ⟨pipe, nonblock, replies, waits, taken, sigpipes⟩ with _ | ⟨_ | _, _⟩
  all_goals
    split_ifs
    all_goals simp_all [Turn.resume, PipeEnd.after, pipeWriteFail, pipePut]

/-! ## What a turn can do -/

/-- A turn of `pipe_read` that has copied `buf` so far. -/
inductive ReadTurn (count : Nat) (buf : List UInt8) (pipe : PipeBuffer) :
    Turn (List UInt8) → Prop where
  | full (hfull : count ≤ buf.length) : ReadTurn count buf pipe ⟨.finish (.ok buf), pipe, [], false⟩
  | ended (hused : pipe.ring.used = 0) (hend : pipe.writers = 0 ∨ buf ≠ []) :
      ReadTurn count buf pipe ⟨.finish (.ok buf), pipe, [], false⟩
  | again (hnil : buf = []) : ReadTurn count buf pipe ⟨.finish (.error .eagain), pipe, [], false⟩
  | sleeps : ReadTurn count buf pipe ⟨.sleep, pipe, [], false⟩
  | takes (pipe' : PipeBuffer) (piece : List UInt8) (hne : piece ≠ [])
      (hcount : buf.length + piece.length ≤ count)
      (hcontents : piece ++ pipe'.ring.contents = pipe.ring.contents)
      (hreaders : pipe'.readers = pipe.readers) (hwriters : pipe'.writers = pipe.writers) :
      ReadTurn count buf pipe ⟨.loop, pipe', piece, false⟩

theorem pipeReadTurn_spec (nonblock : Bool) (count : Nat) (buf : List UInt8)
    (pipe : PipeBuffer) : ReadTurn count buf pipe (pipeReadTurn nonblock count buf pipe) := by
  unfold pipeReadTurn
  split_ifs with hlt hused hend hnb
  · exact .ended hused (hend.imp_right List.ne_nil_of_length_pos)
  · exact .again (List.eq_nil_of_length_eq_zero (by omega))
  · exact .sleeps
  · generalize hp : (⟨pipe, nonblock, [], 0, [], 0⟩ : PipeEnd) = p
    have hpipe : p.pipe = pipe := hp ▸ rfl
    have hchunk : pipeReadChunk p (count - buf.length) ≤ count - buf.length := by
      unfold pipeReadChunk
      split_ifs <;> omega
    have hlen := p.pipe.ring.length_window (pipeReadChunk p (count - buf.length))
    have hpos : 0 < pipeReadChunk p (count - buf.length) := by
      have hlinear := p.pipe.ring.linearTail_pos (by rw [hpipe]; omega)
      unfold pipeReadChunk
      split_ifs <;> omega
    rw [← hpipe]
    refine .takes _ _ (List.ne_nil_of_length_pos (hlen.symm ▸ hpos)) (by rw [hlen]; omega) ?_
      rfl rfl
    exact p.pipe.ring.window_append_contents (pipeReadChunk_le_linearTail p _)
      (pipeReadChunk_le_used p _)
  · exact .full (by omega)

/-- A turn of `pipe_write` that has put `done` bytes of `data` into the pipe. -/
inductive WriteTurn (data : List UInt8) (done : Nat) (pipe : PipeBuffer) : Turn Nat → Prop where
  | full (hfull : data.length ≤ done) :
      WriteTurn data done pipe ⟨.finish (.ok done), pipe, [], false⟩
  | cut (hdone : done ≠ 0) : WriteTurn data done pipe ⟨.finish (.ok done), pipe, [], false⟩
  | refused (e : Errno) (sigpipe : Bool) (hdone : done = 0) :
      WriteTurn data done pipe ⟨.finish (.error e), pipe, [], sigpipe⟩
  | sleeps : WriteTurn data done pipe ⟨.sleep, pipe, [], false⟩
  | whole (pipe' : PipeBuffer) (hne : data ≠ []) (hsmall : data.length ≤ pipeBuf)
      (hcontents : pipe'.ring.contents = pipe.ring.contents ++ data)
      (hreaders : pipe'.readers = pipe.readers) (hwriters : pipe'.writers = pipe.writers) :
      WriteTurn data done pipe ⟨.finish (.ok data.length), pipe', data, false⟩
  | part (pipe' : PipeBuffer) (piece : List UInt8) (hlarge : pipeBuf < data.length)
      (hpiece : data.take done ++ piece = data.take (done + piece.length))
      (hdone : done + piece.length ≤ data.length)
      (hcontents : pipe'.ring.contents = pipe.ring.contents ++ piece)
      (hreaders : pipe'.readers = pipe.readers) (hwriters : pipe'.writers = pipe.writers) :
      WriteTurn data done pipe ⟨.loop, pipe', piece, false⟩

theorem pipeWriteTurn_spec (nonblock : Bool) (data : List UInt8) (done : Nat)
    (pipe : PipeBuffer) : WriteTurn data done pipe (pipeWriteTurn nonblock data done pipe) := by
  unfold pipeWriteTurn
  dsimp only
  have hpart : ∀ n ≤ data.length - done, n ≤ pipeSize - pipe.ring.used →
      pipeBuf < data.length → done < data.length → WriteTurn data done pipe ⟨.loop,
        { pipe with ring := pipe.ring.push ((data.drop done).take n).length
                      ((data.drop done).take n) }, (data.drop done).take n, false⟩ := by
    intro n hn hspace hlarge hlt
    have hlen : ((data.drop done).take n).length = n :=
      List.length_take_of_le (by rwa [List.length_drop])
    refine .part _ _ hlarge ?_ ?_ (Ring.contents_push _ le_rfl (by rwa [hlen])) rfl rfl
    · rw [hlen, List.take_add]
    · omega
  split_ifs with hlt hreaders hzero hsmall hspace hnb hdone hspace hnb hdone hmore
  · exact .refused _ _ hzero
  · exact .cut hzero
  · exact .cut hdone
  · exact .refused _ _ (not_not.mp hdone)
  · exact .sleeps
  · exact .whole _ (List.ne_nil_of_length_pos (by omega)) hsmall
      (Ring.contents_push _ le_rfl (by omega)) rfl rfl
  · exact .cut hdone
  · exact .refused _ _ (not_not.mp hdone)
  · exact .sleeps
  · exact hpart _ le_rfl (by omega) (by omega) hlt
  · exact hpart _ (by omega) le_rfl (by omega) hlt
  · exact .full (by omega)

/-! ## Interleaving -/

/-- A call of `pipe_read` or `pipe_write`: on its way, perhaps asleep in `pipe_wait`, or
with what it has returned. -/
inductive PipeCall where
  | reading (count : Nat) (buf : List UInt8) (asleep : Bool)
  | writing (data : List UInt8) (done : Nat) (asleep : Bool)
  | read (count : Nat) (r : Except Errno (List UInt8))
  | wrote (data : List UInt8) (r : Except Errno Nat)

namespace PipeCall

/-- A call that holds a reference to the read end. -/
def isReading : PipeCall → Bool
  | .reading .. => true
  | _ => false

/-- A call that holds a reference to the write end. -/
def isWriting : PipeCall → Bool
  | .writing .. => true
  | _ => false

/-- A reader after a turn. -/
def afterRead (count : Nat) (buf : List UInt8) (turn : Turn (List UInt8)) : PipeCall :=
  match turn.next with
  | .finish r => .read count r
  | .sleep => .reading count buf true
  | .loop => .reading count (buf ++ turn.piece) false

/-- A writer after a turn. -/
def afterWrite (data : List UInt8) (done : Nat) (turn : Turn Nat) : PipeCall :=
  match turn.next with
  | .finish r => .wrote data r
  | .sleep => .writing data done true
  | .loop => .writing data (done + turn.piece.length) false

/-- A sleeper after its wait. -/
def afterWait (call : PipeCall) (reply : Option Errno) : Option PipeCall :=
  match call, reply with
  | .reading count buf true, none => some (.reading count buf false)
  | .reading count buf true, some e => some (.read count (pipeReadFail buf e))
  | .writing data done true, none => some (.writing data done false)
  | .writing data done true, some e => some (.wrote data (pipeWriteFail done e))
  | _, _ => none

end PipeCall

/-- A pipe with all calls on it, in the order in which they started, and the bytes they
moved, in the order of the commits. -/
structure Traffic where
  pipe : PipeBuffer
  calls : List PipeCall
  puts : History Nat UInt8
  takes : History Nat UInt8

inductive PipeEvent where
  | startRead (count : Nat)
  | startWrite (data : List UInt8)
  /-- The lock is taken for one turn; `nonblock` is `O_NONBLOCK` of the file by then. -/
  | turn (k : Nat) (nonblock : Bool)
  /-- A wait ends: with the event, or with an error, `-EINTR` for a signal. -/
  | wake (k : Nat) (reply : Option Errno)
  /-- `pipe_release`. -/
  | releaseRead
  | releaseWrite

namespace Traffic

/-- `do_pipe2`: a page of arbitrary content. -/
def fresh (data : Nat → UInt8) : Traffic where
  pipe := ⟨⟨data, 0, 0, 0, Nat.zero_lt_succ 4095, Nat.zero_le _, rfl⟩, 1, 1⟩
  calls := []
  puts := []
  takes := []

def next (s : Traffic) : PipeEvent → Option Traffic
  | .startRead count =>
    if s.pipe.readers = 0 then none
    else some { s with calls := s.calls ++ [.reading count [] false] }
  | .startWrite data =>
    if s.pipe.writers = 0 then none
    else some { s with calls := s.calls ++
      [if data.length = 0 then .wrote data (.ok 0) else .writing data 0 false] }
  | .turn k nonblock =>
    match s.calls[k]? with
    | some (.reading count buf false) =>
      let turn := pipeReadTurn nonblock count buf s.pipe
      some { s with
        pipe := turn.pipe
        calls := s.calls.set k (.afterRead count buf turn)
        takes := record s.takes k turn.piece }
    | some (.writing data done false) =>
      let turn := pipeWriteTurn nonblock data done s.pipe
      some { s with
        pipe := turn.pipe
        calls := s.calls.set k (.afterWrite data done turn)
        puts := record s.puts k turn.piece }
    | _ => none
  | .wake k reply =>
    (s.calls[k]?.bind (·.afterWait reply)).map fun call =>
      { s with calls := s.calls.set k call }
  | .releaseRead =>
    if s.pipe.readers = 0 ∨ s.calls.any PipeCall.isReading then none
    else some { s with pipe := { s.pipe with readers := s.pipe.readers - 1 } }
  | .releaseWrite =>
    if s.pipe.writers = 0 ∨ s.calls.any PipeCall.isWriting then none
    else some { s with pipe := { s.pipe with writers := s.pipe.writers - 1 } }

/-- The states that a new pipe can reach. -/
def Reachable (data : Nat → UInt8) : Traffic → Prop :=
  Runs (fun s a s' => s.next a = some s') (fun _ _ => True) (fresh data)

end Traffic

/-! ## The invariant -/

/-- No byte is left, and none will come. -/
def PipeBuffer.Ended (pipe : PipeBuffer) : Prop := pipe.ring.used = 0 ∧ pipe.writers = 0

/-- A call has moved what it says; `taken` and `put` are its pieces. -/
def PipeCall.Honest (pipe : PipeBuffer) (taken put : List (List UInt8)) : PipeCall → Prop
  | .reading count buf _ => buf.length ≤ count ∧ taken.flatten = buf ∧ put = []
  | .read count (.ok bytes) =>
    bytes.length ≤ count ∧ taken.flatten = bytes ∧ put = [] ∧
      (bytes = [] → count ≠ 0 → pipe.Ended)
  | .read _ (.error _) => taken.flatten = [] ∧ put = []
  | .writing data done _ =>
    done ≤ data.length ∧ put.flatten = data.take done ∧ taken = [] ∧
      (done = 0 → put = []) ∧ (data.length ≤ pipeBuf → done = 0)
  | .wrote data (.ok n) =>
    n ≤ data.length ∧ put.flatten = data.take n ∧ taken = [] ∧
      (data.length ≤ pipeBuf → n = data.length ∧ (data ≠ [] → put = [data]))
  | .wrote _ (.error _) => put = [] ∧ taken = []

variable {pipe' : PipeBuffer} {call : PipeCall}

theorem PipeCall.Honest.mono {pipe : PipeBuffer} {taken put : List (List UInt8)}
    (h : call.Honest pipe taken put) (hended : pipe.Ended → pipe'.Ended) :
    call.Honest pipe' taken put := by
  cases call with
  | read count r =>
    cases r with
    | ok bytes => exact ⟨h.1, h.2.1, h.2.2.1, fun hnil hcount => hended (h.2.2.2 hnil hcount)⟩
    | error e => exact h
  | reading | writing => exact h
  | wrote _ r => cases r <;> exact h

namespace Traffic

/-- The bytes leave in the order in which they came, and every call has moved what it says. -/
structure Sound (s : Traffic) : Prop where
  ordered : Ordered s.puts s.takes s.pipe.ring.contents
  calls : ∀ (k : Nat) (call : PipeCall), s.calls[k]? = some call →
    call.Honest s.pipe (piecesOf s.takes k) (piecesOf s.puts k)
  unborn : ∀ k, s.calls.length ≤ k → piecesOf s.takes k = [] ∧ piecesOf s.puts k = []
  /-- A writer keeps its end open. -/
  writing : s.pipe.writers = 0 → ∀ call ∈ s.calls, call.isWriting = false

theorem sound_fresh (data : Nat → UInt8) : Sound (fresh data) where
  ordered := rfl
  calls _ _ h := by cases h
  unborn _ _ := ⟨rfl, rfl⟩
  writing h := by cases h

variable {s : Traffic}

section

variable (h : Sound s)
include h

theorem Sound.start (hhonest : call.Honest s.pipe [] [])
    (hwriting : s.pipe.writers = 0 → call.isWriting = false) :
    Sound { s with calls := s.calls ++ [call] } where
  ordered := h.ordered
  calls k c hk := by
    rcases Nat.lt_or_ge k s.calls.length with hold | hnew
    · rw [List.getElem?_append_left hold] at hk
      exact h.calls k c hk
    · rw [List.getElem?_append_right hnew, List.getElem?_singleton] at hk
      split_ifs at hk
      obtain ⟨htake, hput⟩ := h.unborn k hnew
      cases hk
      rwa [htake, hput]
  unborn k hk := h.unborn k (by
    rw [List.length_append, List.length_singleton] at hk
    omega)
  writing hzero c hc := by
    rcases List.mem_append.mp hc with hold | hnew
    · exact h.writing hzero c hold
    · rw [List.mem_singleton.mp hnew]
      exact hwriting hzero

variable {k : Nat}

theorem Sound.advance {call' : PipeCall} (hk : s.calls[k]? = some call) (taken put : List UInt8)
    (hordered : Ordered (record s.puts k put) (record s.takes k taken) pipe'.ring.contents)
    (hhonest : call'.Honest pipe' (piecesOf (record s.takes k taken) k)
      (piecesOf (record s.puts k put) k)) (hended : s.pipe.Ended → pipe'.Ended)
    (hwriters : pipe'.writers = s.pipe.writers)
    (hkind : call.isWriting = false → call'.isWriting = false) :
    Sound ⟨pipe', s.calls.set k call', record s.puts k put, record s.takes k taken⟩ where
  ordered := hordered
  calls j c hj := by
    by_cases hjk : j = k
    · subst hjk
      rw [List.getElem?_set_self (List.getElem?_eq_some_iff.mp hk).1] at hj
      cases hj
      exact hhonest
    · rw [List.getElem?_set_ne (Ne.symm hjk)] at hj
      rw [piecesOf_record_of_ne _ hjk, piecesOf_record_of_ne _ hjk]
      exact (h.calls j c hj).mono hended
  unborn j hj := by
    rw [List.length_set] at hj
    have hjk : j ≠ k := by
      have := (List.getElem?_eq_some_iff.mp hk).1
      omega
    rw [piecesOf_record_of_ne _ hjk, piecesOf_record_of_ne _ hjk]
    exact h.unborn j hj
  writing hzero c hc := by
    have hnone := h.writing (hwriters ▸ hzero)
    rcases List.mem_or_eq_of_mem_set hc with hold | rfl
    · exact hnone c hold
    · exact hkind (hnone call (List.mem_of_getElem? hk))

/-- A call moves nothing. -/
theorem Sound.stay {call' : PipeCall} (hk : s.calls[k]? = some call)
    (hhonest : call'.Honest s.pipe (piecesOf s.takes k) (piecesOf s.puts k))
    (hkind : call.isWriting = false → call'.isWriting = false) :
    Sound { s with calls := s.calls.set k call' } :=
  h.advance hk [] [] h.ordered hhonest id rfl hkind

theorem Sound.readTurn {count : Nat} {buf : List UInt8}
    (hk : s.calls[k]? = some (.reading count buf false)) {turn : Turn (List UInt8)}
    (hturn : ReadTurn count buf s.pipe turn) :
    Sound ⟨turn.pipe, s.calls.set k (.afterRead count buf turn), s.puts,
      record s.takes k turn.piece⟩ := by
  obtain ⟨hcount, htaken, hput⟩ := h.calls k _ hk
  cases hturn with
  | full hfull =>
    refine h.stay hk ?_ fun _ => rfl
    refine ⟨hcount, htaken, hput, fun hnil hne => absurd ?_ hne⟩
    rw [hnil, List.length_nil] at hfull
    omega
  | ended hused hend =>
    refine h.stay hk ?_ fun _ => rfl
    exact ⟨hcount, htaken, hput, fun hnil _ => ⟨hused, hend.resolve_right (not_not.mpr hnil)⟩⟩
  | again hnil =>
    refine h.stay hk ?_ fun _ => rfl
    exact ⟨htaken.trans hnil, hput⟩
  | sleeps =>
    refine h.stay hk ?_ fun _ => rfl
    exact ⟨hcount, htaken, hput⟩
  | takes pipe' piece hne hless hcontents hreaders hwriters =>
    refine h.advance hk piece [] ?_ ?_ ?_ hwriters fun _ => rfl
    · exact h.ordered.take k hcontents
    · refine ⟨?_, ?_, hput⟩
      · rwa [List.length_append]
      · rw [flatten_piecesOf_record_self, htaken]
    · -- a pipe that has ended holds no piece
      intro hended
      have hlen := congrArg List.length hcontents
      rw [List.length_append, Ring.length_contents, Ring.length_contents, hended.1] at hlen
      exact absurd (List.eq_nil_of_length_eq_zero (by omega)) hne

theorem Sound.writeTurn {done : Nat} {data : List UInt8}
    (hk : s.calls[k]? = some (.writing data done false)) {turn : Turn Nat}
    (hturn : WriteTurn data done s.pipe turn) :
    Sound ⟨turn.pipe, s.calls.set k (.afterWrite data done turn), record s.puts k turn.piece,
      s.takes⟩ := by
  obtain ⟨hdone, hput, htaken, hnone, hsmall⟩ := h.calls k _ hk
  have hopen : ¬ s.pipe.Ended := fun hended =>
    absurd (h.writing hended.2 _ (List.mem_of_getElem? hk)) Bool.true_eq_false_eq_False
  cases hturn with
  | full hfull =>
    refine h.stay hk ?_ fun _ => rfl
    refine ⟨hdone, hput, htaken, fun hle => ⟨by omega, fun hne => absurd ?_ hne⟩⟩
    exact List.eq_nil_of_length_eq_zero (by have := hsmall hle; omega)
  | cut hpos =>
    refine h.stay hk ?_ fun _ => rfl
    exact ⟨hdone, hput, htaken, fun hle => absurd (hsmall hle) hpos⟩
  | refused e sigpipe hzero =>
    refine h.stay hk ?_ fun _ => rfl
    exact ⟨hnone hzero, htaken⟩
  | sleeps =>
    refine h.stay hk ?_ id
    exact ⟨hdone, hput, htaken, hnone, hsmall⟩
  | whole pipe' hne hle hcontents hreaders hwriters =>
    refine h.advance hk [] data ?_ ?_ (fun hended => absurd hended hopen) hwriters fun _ => rfl
    · rw [hcontents]
      exact h.ordered.put k data
    · rw [piecesOf_record_self _ _ hne, hnone (hsmall hle)]
      exact ⟨le_rfl, by simp, htaken, fun _ => ⟨rfl, fun _ => rfl⟩⟩
  | part pipe' piece hlarge hpiece hdone' hcontents hreaders hwriters =>
    refine h.advance hk [] piece ?_ ?_ (fun hended => absurd hended hopen) hwriters fun hw => hw
    · rw [hcontents]
      exact h.ordered.put k piece
    · refine ⟨hdone', ?_, htaken, fun hzero => ?_, fun hle => absurd hle (by omega)⟩
      · rw [flatten_piecesOf_record_self, hput, hpiece]
      · replace hzero : done + piece.length = 0 := hzero
        rw [List.eq_nil_of_length_eq_zero (by omega : piece.length = 0)]
        exact hnone (by omega)

theorem Sound.afterWait {call' : PipeCall} {reply : Option Errno} (hk : s.calls[k]? = some call)
    (hwait : call.afterWait reply = some call') :
    Sound { s with calls := s.calls.set k call' } := by
  have hhonest := h.calls k call hk
  suffices hkeep : call'.Honest s.pipe (piecesOf s.takes k) (piecesOf s.puts k) ∧
      (call.isWriting = false → call'.isWriting = false) from h.stay hk hkeep.1 hkeep.2
  unfold PipeCall.afterWait at hwait
  split at hwait
  · cases hwait
    exact ⟨hhonest, fun _ => rfl⟩
  · obtain ⟨hcount, htaken, hput⟩ := hhonest
    cases hwait
    refine ⟨?_, fun _ => rfl⟩
    unfold pipeReadFail
    split_ifs with hne
    · exact ⟨hcount, htaken, hput, fun hnil => absurd (congrArg List.length hnil) hne⟩
    · exact ⟨htaken.trans (List.eq_nil_of_length_eq_zero (not_not.mp hne)), hput⟩
  · cases hwait
    exact ⟨hhonest, id⟩
  · obtain ⟨hdone, hput, htaken, hnone, hsmall⟩ := hhonest
    cases hwait
    refine ⟨?_, fun _ => rfl⟩
    unfold pipeWriteFail
    split_ifs with hne
    · exact ⟨hdone, hput, htaken, fun hle => absurd (hsmall hle) hne⟩
    · exact ⟨hnone (not_not.mp hne), htaken⟩
  · cases hwait

theorem Sound.release (hring : pipe'.ring = s.pipe.ring)
    (hwriters : s.pipe.writers = 0 → pipe'.writers = 0)
    (hwriting : pipe'.writers = 0 → s.pipe.writers ≠ 0 → ∀ call ∈ s.calls, call.isWriting = false) :
    Sound { s with pipe := pipe' } where
  ordered := by
    rw [hring]
    exact h.ordered
  calls k call hk := (h.calls k call hk).mono fun hended => ⟨hring ▸ hended.1, hwriters hended.2⟩
  unborn := h.unborn
  writing hzero := by
    by_cases hclosed : s.pipe.writers = 0
    · exact h.writing hclosed
    · exact hwriting hzero hclosed

theorem sound_next {a : PipeEvent} {s' : Traffic} (hnext : s.next a = some s') :
    Sound s' := by
  cases a
  case wake k reply =>
    obtain ⟨call', hwait, rfl⟩ := Option.map_eq_some_iff.mp hnext
    obtain ⟨call, hk, hafter⟩ := Option.bind_eq_some_iff.mp hwait
    exact h.afterWait hk hafter
  all_goals simp only [next] at hnext
  case startRead count =>
    split_ifs at hnext
    cases hnext
    exact h.start ⟨Nat.zero_le _, rfl, rfl⟩ fun _ => rfl
  case startWrite data =>
    rw [Option.ite_none_left_eq_some] at hnext
    obtain ⟨hopen, hnext⟩ := hnext
    cases hnext
    refine h.start ?_ fun hzero => absurd hzero hopen
    split_ifs with hlen
    · have hnil : data = [] := List.eq_nil_of_length_eq_zero hlen
      exact ⟨Nat.zero_le _, rfl, rfl, fun _ => ⟨hlen.symm, fun hne => absurd hnil hne⟩⟩
    · exact ⟨Nat.zero_le _, rfl, rfl, fun _ => rfl, fun _ => rfl⟩
  case turn k nonblock =>
    split at hnext
    · rename_i hk
      cases hnext
      exact h.readTurn hk (pipeReadTurn_spec nonblock _ _ s.pipe)
    · rename_i hk
      cases hnext
      exact h.writeTurn hk (pipeWriteTurn_spec nonblock _ _ s.pipe)
    · cases hnext
  case releaseRead =>
    split_ifs at hnext
    cases hnext
    exact h.release rfl id fun hzero hopen => absurd hzero hopen
  case releaseWrite =>
    split_ifs at hnext with hbusy
    cases hnext
    refine h.release rfl (fun hzero => by rw [hzero]) fun _ _ call hcall => ?_
    rw [not_or, List.any_eq_true] at hbusy
    exact Bool.eq_false_iff.mpr fun hw => hbusy.2 ⟨call, hcall, hw⟩

end

/-- Every pipe, whoever uses it and in whatever order. -/
theorem Reachable.sound {data : Nat → UInt8} (h : Reachable data s) : Sound s :=
  Runs.induct h (sound_fresh data) fun _ _ _ hsound _ hnext => sound_next hsound hnext

/-! ## A stream of bytes -/

/-- What a pipe promises its users. -/
structure Delivers (s : Traffic) : Prop where
  /-- What was taken out is the front of what was put in. -/
  inOrder : elems s.takes <+: elems s.puts
  /-- A read returns the bytes it has taken, and one that fails has taken none. -/
  reads : ∀ (k count : Nat) (bytes : List UInt8), s.calls[k]? = some (.read count (.ok bytes)) →
    (piecesOf s.takes k).flatten = bytes ∧ bytes.length ≤ count
  failedReads : ∀ (k count : Nat) (e : Errno), s.calls[k]? = some (.read count (.error e)) →
    (piecesOf s.takes k).flatten = []
  /-- A write returns how many of its bytes it has put in. -/
  writes : ∀ (k n : Nat) (data : List UInt8), s.calls[k]? = some (.wrote data (.ok n)) →
    (piecesOf s.puts k).flatten = data.take n ∧ n ≤ data.length
  failedWrites : ∀ (k : Nat) (data : List UInt8) (e : Errno),
    s.calls[k]? = some (.wrote data (.error e)) → piecesOf s.puts k = []
  /-- A small write is put in as one piece: not before it returns, and all of it then. -/
  waits : ∀ (k done : Nat) (data : List UInt8) (asleep : Bool), data.length ≤ pipeBuf →
    s.calls[k]? = some (.writing data done asleep) → piecesOf s.puts k = []
  atomic : ∀ (k n : Nat) (data : List UInt8), data ≠ [] → data.length ≤ pipeBuf →
    s.calls[k]? = some (.wrote data (.ok n)) → n = data.length ∧ piecesOf s.puts k = [data] ∧
      ∃ front back, elems s.puts = front ++ data ++ back
  room : s.pipe.ring.used ≤ pipeSize
  /-- A read of at least one byte returns none only at the end. -/
  eof : ∀ k count : Nat, count ≠ 0 → s.calls[k]? = some (.read count (.ok [])) →
    s.pipe.ring.used = 0 ∧ s.pipe.writers = 0

theorem pipe_delivers {data : Nat → UInt8} (h : Reachable data s) : Delivers s where
  inOrder := h.sound.ordered.taken_is_front
  reads k _ _ hk := ⟨(h.sound.calls k _ hk).2.1, (h.sound.calls k _ hk).1⟩
  failedReads k _ _ hk := (h.sound.calls k _ hk).1
  writes k _ _ hk := ⟨(h.sound.calls k _ hk).2.1, (h.sound.calls k _ hk).1⟩
  failedWrites k _ _ hk := (h.sound.calls k _ hk).1
  waits k _ _ _ hsmall hk := by
    obtain ⟨-, -, -, hnone, hzero⟩ := h.sound.calls k _ hk
    exact hnone (hzero hsmall)
  atomic k _ _ hne hsmall hk := by
    obtain ⟨-, -, -, hwhole⟩ := h.sound.calls k _ hk
    obtain ⟨hn, hone⟩ := hwhole hsmall
    exact ⟨hn, hone hne, elems_of_piecesOf (hone hne)⟩
  room := s.pipe.ring.used_le
  eof k _ hne hk := (h.sound.calls k _ hk).2.2.2 rfl hne

/-- One byte of two is read back. -/
theorem pipe_delivers_byte : ∃ s : Traffic, Reachable (fun _ => 0) s ∧
    s.calls = [.wrote [1, 2] (.ok 2), .read 1 (.ok [1])] ∧ Delivers s := by
  have hrun := @Runs.of_runAll _ _ (fun s a s' => Traffic.next s a = some s') (fun _ _ => True)
    (fresh fun _ => 0) _ Traffic.next (fun _ _ => true)
    [.startWrite [1, 2], .turn 0 false, .startRead 1, .turn 1 false, .turn 1 false]
    (fun _ _ _ h => h) (fun _ _ _ => trivial) rfl
  exact ⟨_, hrun, rfl, pipe_delivers hrun⟩

/-- A read of no byte returns none, with a byte in the pipe and a writer. -/
theorem empty_read_is_no_end : ∃ s : Traffic, Reachable (fun _ => 0) s ∧
    s.calls[1]? = some (.read 0 (.ok [])) ∧ s.pipe.ring.used = 1 ∧ s.pipe.writers = 1 := by
  have hrun := @Runs.of_runAll _ _ (fun s a s' => Traffic.next s a = some s') (fun _ _ => True)
    (fresh fun _ => 0) _ Traffic.next (fun _ _ => true)
    [.startWrite [1], .turn 0 false, .startRead 0, .turn 1 false]
    (fun _ _ _ h => h) (fun _ _ _ => trivial) rfl
  exact ⟨_, hrun, rfl, rfl, rfl⟩

end Traffic

end CuteOS.Fs
