import Peinit.Control.Connection
import Peinit.Lib.Run

/-!
# How much a control connection buffers

The limit is applied when a request is taken from the buffer, after a read has filled it. As long as
the same turn decides about every byte it reads, the buffer holds at most one request of the largest
size, its newline and one read. The requests of a buffer are answered in the order in which they were
sent.
-/

namespace Peinit

open ControlConnectionState List

variable {buffer rest : List UInt8} {frame : ControlFrameTurn}
  {connection next : ControlConnectionState} {fuel : ℕ} {done : List ControlFrameTurn}
  {client : ControlClient} {write : ControlSocketWrite}

/-- The bytes after the last newline: a request that has not ended. -/
def unfinished (buffer : List UInt8) : List UInt8 := buffer.rtakeWhile (· != newline)

theorem unfinished_eq_self (none : newline ∉ buffer) : unfinished buffer = buffer := by
  rw [unfinished, rtakeWhile_eq_self_iff]
  intro byte mem
  rw [bne_iff_ne]
  rintro rfl
  exact none mem

theorem unfinished_append_newline (front back : List UInt8) :
    unfinished (front ++ newline :: back) = unfinished back := by
  induction back using List.reverseRecOn with
  | nil => exact rtakeWhile_concat_neg _ _ _ (by decide)
  | append_singleton back byte ih =>
    simp only [unfinished] at ih ⊢
    rw [← cons_append, ← append_assoc, rtakeWhile_concat, rtakeWhile_concat, ih]

theorem unfinished_append {front back : List UInt8} (ends : newline ∈ back) :
    unfinished (front ++ back) = unfinished back := by
  obtain ⟨before, after, rfl⟩ := append_of_mem ends
  rw [← append_assoc, unfinished_append_newline, unfinished_append_newline]

/-! ## One request -/

/-- What becomes of the read buffer when a request is taken from it. -/
inductive FrameCases (maxRequestBytes : ℕ) (buffer : List UInt8) :
    ControlFrameTurn → List UInt8 → Prop
  | incomplete (none : newline ∉ buffer) (small : buffer.length ≤ maxRequestBytes) :
      FrameCases maxRequestBytes buffer .incomplete buffer
  | rejected {reason : ControlFrameRejectReason} {responseLine : List UInt8} :
      FrameCases maxRequestBytes buffer (.rejectedFrame reason responseLine) []
  | taken {frame : ControlFrameTurn} {body rest : List UInt8}
      (split : buffer = body ++ newline :: rest) : FrameCases maxRequestBytes buffer frame rest

theorem split_of_findIdx? {index : ℕ} (got : buffer.findIdx? (· == newline) = some index) :
    buffer = buffer.take index ++ newline :: buffer.drop (index + 1) := by
  obtain ⟨inside, isNewline, -⟩ := findIdx?_eq_some_iff_getElem.mp got
  have here : buffer[index] = newline := by simpa using isNewline
  rw [← here, ← drop_eq_getElem_cons inside, take_append_drop]

theorem not_mem_of_findIdx? (got : buffer.findIdx? (· == newline) = none) : newline ∉ buffer := by
  intro mem
  have := findIdx?_eq_none_iff.mp got newline mem
  simp at this

section

variable {σ : Type} {server : ControlServer σ} {maxRequestBytes : ℕ}

theorem processNextControlFrame_cases {supervisor after : σ}
    (ran : processNextControlFrame server maxRequestBytes supervisor buffer = .ok (after, frame, rest)) :
    FrameCases maxRequestBytes buffer frame rest := by
  rw [processNextControlFrame, controlFrameDecision] at ran
  cases got : buffer.findIdx? (· == newline) with
  | none =>
    rw [got] at ran
    by_cases long : buffer.length > maxRequestBytes
    · simp only [if_pos long] at ran
      cases ran
      exact .rejected
    · simp only [if_neg long] at ran
      cases ran
      exact .incomplete (not_mem_of_findIdx? got) (not_lt.mp long)
  | some index =>
    rw [got] at ran
    by_cases long : index > maxRequestBytes
    · simp only [if_pos long] at ran
      cases ran
      exact .rejected
    by_cases empty : index = 0
    · simp only [if_neg long, if_pos empty] at ran
      cases ran
      exact .rejected
    simp only [if_neg long, if_neg empty] at ran
    obtain ⟨left, consumed, ran⟩ := bind_eq_ok.mp ran
    have same : left = buffer.drop (index + 1) := by
      rw [consume] at consumed
      split_ifs at consumed
      exact (Except.ok.inj consumed).symm
    have kept : rest = left := by
      cases answer : (server.runBody supervisor (buffer.take index)).2 <;>
        (simp only [answer] at ran; cases ran; rfl)
    rw [kept, same]
    exact .taken (split_of_findIdx? got)

@[simp] theorem ControlConnectionState.record_readBuffer (conn : ControlConnectionState)
    (frame : ControlFrameTurn) : (conn.record frame).readBuffer = conn.readBuffer := by
  rw [record]
  cases frame.responseLine <;> cases frame.wait <;> rfl

theorem processNextControlConnectionFrame_ok {supervisor after : σ}
    (ran : processNextControlConnectionFrame server maxRequestBytes supervisor connection =
      .ok (after, frame, next)) :
    ∃ rest, FrameCases maxRequestBytes connection.readBuffer frame rest ∧
      next = { connection with readBuffer := rest }.record frame := by
  obtain ⟨⟨_, _, rest⟩, taken, ran⟩ := bind_eq_ok.mp ran
  cases ran
  exact ⟨rest, processNextControlFrame_cases taken, rfl⟩

theorem FrameCases.shrinks (step : FrameCases maxRequestBytes buffer frame rest) :
    rest.length ≤ buffer.length ∧ (unfinished rest).length ≤ (unfinished buffer).length := by
  cases step with
  | incomplete => exact ⟨le_rfl, le_rfl⟩
  | rejected => exact ⟨Nat.zero_le _, Nat.zero_le _⟩
  | taken split =>
    subst split
    rw [unfinished_append_newline, length_append, length_cons]
    exact ⟨by omega, le_rfl⟩

theorem FrameCases.decided
    (step : FrameCases maxRequestBytes buffer frame rest) (none : newline ∉ buffer) :
    rest.length ≤ maxRequestBytes := by
  cases step with
  | incomplete _ small => exact small
  | rejected => exact Nat.zero_le _
  | taken split => exact absurd (by simp [split]) none

/-! ## The loop of a turn -/

theorem processFrames_shrinks {supervisor after : σ} {frames : List ControlFrameTurn}
    (ran : processFrames server maxRequestBytes fuel supervisor frames connection =
      .ok (after, done, next)) :
    next.readBuffer.length ≤ connection.readBuffer.length ∧
      (unfinished next.readBuffer).length ≤ (unfinished connection.readBuffer).length := by
  induction fuel generalizing supervisor frames connection with
  | zero =>
    cases ran
    exact ⟨le_rfl, le_rfl⟩
  | succ fuel ih =>
    rw [processFrames] at ran
    split_ifs at ran
    · obtain ⟨⟨_, frame, middle⟩, first, ran⟩ := bind_eq_ok.mp ran
      obtain ⟨rest, step, rfl⟩ := processNextControlConnectionFrame_ok first
      obtain ⟨shorter, tail⟩ := step.shrinks
      have later := ih ran
      rw [record_readBuffer] at later
      exact ⟨later.1.trans shorter, later.2.trans tail⟩
    · cases ran
      exact ⟨le_rfl, le_rfl⟩

/-- The first round of a turn decides about a buffer without a newline. -/
theorem processFrames_decided {supervisor after : σ} (takes : takesFrame [] connection = true)
    (none : newline ∉ connection.readBuffer)
    (ran : processFrames server maxRequestBytes (fuel + 1) supervisor [] connection =
      .ok (after, done, next)) : next.readBuffer.length ≤ maxRequestBytes := by
  rw [processFrames, if_pos takes] at ran
  obtain ⟨⟨_, frame, middle⟩, first, ran⟩ := bind_eq_ok.mp ran
  obtain ⟨rest, step, rfl⟩ := processNextControlConnectionFrame_ok first
  have later := (processFrames_shrinks ran).1
  rw [record_readBuffer] at later
  exact later.trans (step.decided none)

/-! ## Requests in their order -/

/-- The bytes of requests, each with its newline. -/
def requestLines (bodies : List (List UInt8)) : List UInt8 := bodies.flatMap (· ++ [newline])

theorem length_le_requestLines (bodies : List (List UInt8)) :
    bodies.length ≤ (requestLines bodies).length := by
  induction bodies with
  | nil => exact le_rfl
  | cons body bodies ih =>
    simp only [requestLines, flatMap_cons, length_append, length_cons, length_nil] at ih ⊢
    omega

variable (server maxRequestBytes) in
/-- What becomes of one request. -/
def answer (supervisor : σ) (body : List UInt8) : σ × ControlFrameTurn :=
  if body.length > maxRequestBytes then
    (supervisor, .rejectedFrame .requestTooLarge (server.frameRejectResponseLine .requestTooLarge))
  else if body = [] then
    (supervisor, .rejectedFrame .malformedRequest (server.frameRejectResponseLine .malformedRequest))
  else match server.runBody supervisor body with
    | (after, .accepted responseLine wait) => (after, .commandAccepted responseLine wait)
    | (after, .rejected responseLine) => (after, .commandRejected responseLine)

variable (server maxRequestBytes) in
/-- Requests answered one after another, until one sends the client away, which drops what it sent
after it, or has it wait: the supervisor after them, the answers and the bytes left. -/
def answerInOrder (tail : List UInt8) :
    σ → List (List UInt8) → σ × List ControlFrameTurn × List UInt8
  | supervisor, [] => (supervisor, [], tail)
  | supervisor, body :: bodies =>
      let (after, frame) := answer server maxRequestBytes supervisor body
      if frame.closeAfterResponse then (after, [frame], [])
      else if frame.wait.isSome then (after, [frame], requestLines bodies ++ tail)
      else
        let (last, frames, left) := answerInOrder tail after bodies
        (last, frame :: frames, left)

theorem findIdx?_request {body : List UInt8} (whole : newline ∉ body) (rest : List UInt8) :
    (body ++ newline :: rest).findIdx? (· == newline) = some body.length := by
  have before : body.findIdx? (· == newline) = none := by
    rw [findIdx?_eq_none_iff]
    rintro byte mem
    rw [beq_eq_false_iff_ne]
    rintro rfl
    exact whole mem
  rw [findIdx?_append, before, findIdx?_cons]
  simp

theorem processNextControlFrame_eq_answer {body : List UInt8} (whole : newline ∉ body)
    (rest : List UInt8) (supervisor : σ) :
    processNextControlFrame server maxRequestBytes supervisor (body ++ newline :: rest) =
      .ok ((answer server maxRequestBytes supervisor body).1,
        (answer server maxRequestBytes supervisor body).2,
        if (answer server maxRequestBytes supervisor body).2.closeAfterResponse then [] else rest) := by
  have after : (body ++ newline :: rest).drop (body.length + 1) = rest := by
    rw [← drop_drop, drop_left, drop_one, tail_cons]
  rw [processNextControlFrame, controlFrameDecision, findIdx?_request whole, answer]
  by_cases long : body.length > maxRequestBytes
  · simp [long, ControlFrameTurn.closeAfterResponse]
  by_cases empty : body = []
  · simp [empty, ControlFrameTurn.closeAfterResponse]
  · rw [← length_eq_zero_iff] at empty
    rcases response : server.runBody supervisor body with ⟨_, _ | _⟩ <;>
      simp [long, empty, consume, after, response, bind, Except.bind,
        ControlFrameTurn.closeAfterResponse, ← length_eq_zero_iff]

/-- The bytes of the answers that are still to be written. -/
def ControlWriteBuffer.unwritten (buffer : ControlWriteBuffer) : List UInt8 :=
  buffer.bytes.drop buffer.written

theorem ControlWriteBuffer.unwritten_enqueue (buffer : ControlWriteBuffer) (bytes : List UInt8) :
    (buffer.enqueue bytes).unwritten = buffer.unwritten ++ bytes := by
  have within := buffer.compactIfEmpty.within
  have kept : buffer.compactIfEmpty.unwritten = buffer.unwritten := by
    unfold compactIfEmpty
    split_ifs with ended
    · simp [unwritten, ended]
    · rfl
  rw [unwritten, enqueue, drop_append_of_le_length within, ← kept, unwritten]

theorem ControlConnectionState.record_spec (conn : ControlConnectionState)
    (frame : ControlFrameTurn) (free : conn.pendingWait = none) (stays : conn.closeAfterWrite = false) :
    (conn.record frame).writeBuffer.unwritten = conn.writeBuffer.unwritten ++ frame.responseLine.getD [] ∧
    (conn.record frame).pendingWait = frame.wait ∧
    (conn.record frame).closeAfterWrite = frame.closeAfterResponse := by
  rw [record]
  rcases frame with _ | _ | ⟨_ | _, _ | _⟩ | _ <;>
    simp [ControlFrameTurn.responseLine, ControlFrameTurn.wait, ControlFrameTurn.closeAfterResponse,
      enqueueResponse, ControlWriteBuffer.unwritten_enqueue, free, stays]

/-- A connection on which requests are taken, and what its buffer holds. -/
structure Holds (connection : ControlConnectionState) (bodies : List (List UInt8))
    (tail : List UInt8) : Prop where
  free : connection.pendingWait = none
  stays : connection.closeAfterWrite = false
  whole : ∀ body ∈ bodies, newline ∉ body
  unended : newline ∉ tail
  buffered : connection.readBuffer = requestLines bodies ++ tail

variable (server maxRequestBytes) in
/-- What the loop of a turn comes to when it answers all it can. -/
structure AnsweredInOrder (supervisor : σ) (connection : ControlConnectionState)
    (bodies : List (List UInt8)) (tail : List UInt8) (after : σ) (frames : List ControlFrameTurn)
    (next : ControlConnectionState) : Prop where
  answers : answerInOrder server maxRequestBytes tail supervisor bodies = (after, frames, next.readBuffer)
  written : next.writeBuffer.unwritten =
    connection.writeBuffer.unwritten ++ (frames.filterMap (·.responseLine)).flatten

theorem processFrames_stops {frames : List ControlFrameTurn} (stops : takesFrame frames connection = false)
    (fuel : ℕ) (supervisor : σ) :
    processFrames server maxRequestBytes fuel supervisor frames connection =
      .ok (supervisor, frames, connection) := by
  cases fuel with
  | zero => rfl
  | succ fuel => rw [processFrames, stops, if_neg Bool.false_ne_true]

variable (server maxRequestBytes) in
/-- The loop answers the requests in the buffer in their order; a round for each is enough. -/
theorem processFrames_inOrder {bodies : List (List UInt8)} {tail : List UInt8} (supervisor : σ)
    (frames : List ControlFrameTurn) (holds : Holds connection bodies tail) (begun : frames = [] → bodies ≠ [])
    (enough : bodies.length ≤ fuel) :
    ∃ after done next, AnsweredInOrder server maxRequestBytes supervisor connection bodies tail
        after done next ∧
      processFrames server maxRequestBytes fuel supervisor frames connection =
        .ok (after, frames ++ done, next) := by
  induction bodies generalizing fuel supervisor frames connection with
  | nil =>
    have stops : takesFrame frames connection = false := by
      have some : frames.isEmpty = false := by simpa using begun
      simp [takesFrame, holdsCompleteFrame, holds.buffered, requestLines, holds.unended, some]
    refine ⟨supervisor, [], connection, ⟨?_, by simp⟩, ?_⟩
    · rw [answerInOrder, holds.buffered, requestLines, flatMap_nil, nil_append]
    · rw [processFrames_stops stops, append_nil]
  | cons body bodies ih =>
    obtain ⟨fuel, rfl⟩ : ∃ less, fuel = less + 1 := ⟨fuel - 1, by simp at enough; omega⟩
    have takes : takesFrame frames connection = true := by
      simp [takesFrame, holdsCompleteFrame, holds.buffered, requestLines, holds.free, holds.stays]
    have split : connection.readBuffer = body ++ newline :: (requestLines bodies ++ tail) := by
      rw [holds.buffered]
      simp [requestLines]
    rw [processFrames, if_pos takes, processNextControlConnectionFrame, split,
      processNextControlFrame_eq_answer (holds.whole body mem_cons_self)]
    rcases first : answer server maxRequestBytes supervisor body with ⟨after, frame⟩
    generalize left : (if frame.closeAfterResponse then [] else requestLines bodies ++ tail) = rest
    obtain ⟨unwritten, wait, close⟩ :=
      record_spec { connection with readBuffer := rest } frame holds.free holds.stays
    by_cases heldUp : frame.closeAfterResponse = true ∨ frame.wait.isSome = true
    · -- the client is sent away or waits: the loop ends with this request
      have stops : takesFrame (frames ++ [frame])
          ({ connection with readBuffer := rest }.record frame) = false := by
        rcases heldUp with closes | waits
        · simp [takesFrame, close, closes]
        · obtain ⟨pending, waits⟩ := Option.isSome_iff_exists.mp waits
          simp [takesFrame, wait, waits]
      refine ⟨after, [frame], _, ⟨?_, ?_⟩, processFrames_stops stops fuel after⟩
      · simp only [answerInOrder, first, record_readBuffer, ← left]
        rcases heldUp with closes | waits
        · simp [closes]
        · cases closes : frame.closeAfterResponse <;> simp [waits]
      · rw [unwritten]
        cases line : frame.responseLine <;> simp [line]
    · rw [not_or, Bool.not_eq_true, Bool.not_eq_true] at heldUp
      rw [heldUp.1, if_neg Bool.false_ne_true] at left
      have none : frame.wait = none := by simpa using heldUp.2
      have held : Holds ({ connection with readBuffer := rest }.record frame) bodies tail :=
        ⟨wait.trans none, by rw [close, heldUp.1],
          fun other mem => holds.whole other (mem_cons_of_mem body mem), holds.unended,
          by rw [record_readBuffer, ← left]⟩
      obtain ⟨last, done, next, answered, ran⟩ := ih after (frames ++ [frame]) held
        (by simp) (Nat.le_of_succ_le_succ enough)
      refine ⟨last, frame :: done, next, ⟨?_, ?_⟩, ?_⟩
      · simp [answerInOrder, first, heldUp.1, none, answered.answers]
      · rw [answered.written, unwritten, append_assoc]
        cases line : frame.responseLine <;> simp [line]
      · rw [append_cons]
        exact ran

end

/-! ## Turns -/

section

variable {σ : Type} (server : ControlServer σ) (limits : ControlLimits)

/-- The most a read buffer is to hold: a request, its newline and one read. -/
def readBound : ℕ := limits.maxRequestBytes + 1 + limits.maxReadBytes

/-- The bytes a turn reads are ones it decides about: nothing holds the connection up, no request is
left over in its buffer, and what follows the last request read is no larger than a request and its
newline. -/
def ReadsDecided (connection : ControlConnectionState) (client : ControlClient) : Prop :=
  match readControl client limits.maxReadBytes with
  | .ok (.bytes read) =>
      connection.pendingWait = none ∧ connection.closeAfterWrite = false ∧
        newline ∉ connection.readBuffer ∧
        (newline ∈ read → (unfinished read).length ≤ limits.maxRequestBytes + 1)
  | _ => True

instance (connection : ControlConnectionState) (client : ControlClient) :
    Decidable (ReadsDecided limits connection client) := by
  unfold ReadsDecided
  split <;> infer_instance

/-- What every turn leaves behind. -/
structure ReadBounded (connection : ControlConnectionState) : Prop where
  within : connection.readBuffer.length ≤ readBound limits
  tail : (unfinished connection.readBuffer).length ≤ limits.maxRequestBytes + 1

variable {limits} {server}

theorem ReadBounded.congr
    (bounded : ReadBounded limits connection) (same : next.readBuffer = connection.readBuffer) :
    ReadBounded limits next :=
  ⟨same ▸ bounded.within, same ▸ bounded.tail⟩

theorem readControl_length {maxBytes : ℕ} {read : List UInt8}
    (got : readControl client maxBytes = .ok (.bytes read)) : read.length ≤ maxBytes := by
  cases client with
  | sent bytes =>
    rw [readControl] at got
    split_ifs at got
    · cases got
    · cases got
      exact length_take_le _ _
  | quiet => cases got
  | hungUp => cases got
  | broken => cases got

theorem ReadBounded.read {read : ControlSocketRead} (bounded : ReadBounded limits connection)
    (decided : ReadsDecided limits connection client)
    (got : readControl client limits.maxReadBytes = .ok read) :
    (readControlConnection read connection).readBuffer.length ≤ readBound limits := by
  cases read with
  | bytes read =>
    rw [ReadsDecided, got] at decided
    obtain ⟨-, -, none, -⟩ := decided
    have short := bounded.tail
    rw [unfinished_eq_self none] at short
    have few := readControl_length got
    rw [readControlConnection, length_append, readBound]
    omega
  | eof => exact bounded.within
  | wouldBlock => exact bounded.within

theorem ReadBounded.frames {read : ControlSocketRead} {supervisor after : σ}
    (bounded : ReadBounded limits connection) (decided : ReadsDecided limits connection client)
    (got : readControl client limits.maxReadBytes = .ok read)
    (ran : processReadFrames server limits.maxRequestBytes read supervisor
      (readControlConnection read connection) = .ok (after, done, next)) :
    ReadBounded limits next := by
  have within := bounded.read decided got
  rw [processReadFrames] at ran
  split_ifs at ran with ended
  · subst ended
    cases ran
    exact bounded
  obtain ⟨shorter, tail⟩ := processFrames_shrinks ran
  refine ⟨shorter.trans within, ?_⟩
  cases read with
  | eof => exact absurd rfl ended
  | wouldBlock => exact tail.trans bounded.tail
  | bytes read =>
    rw [ReadsDecided, got] at decided
    obtain ⟨free, staysOpen, none, whole⟩ := decided
    by_cases ends : newline ∈ read
    · rw [readControlConnection, unfinished_append ends] at tail
      exact tail.trans (whole ends)
    · -- no request has ended: the first round decides about all there is
      have takes : takesFrame [] (readControlConnection (.bytes read) connection) = true := by
        simp [takesFrame, readControlConnection, free, staysOpen]
      have small := processFrames_decided takes (by simp [readControlConnection, none, ends]) ran
      exact (rtakeWhile_suffix _ _).length_le.trans (small.trans (Nat.le_succ _))

theorem flushControlConnection_readBuffer {turn : ControlConnectionWriteTurn}
    (ran : flushControlConnection write connection = .ok (turn, next)) :
    next.readBuffer = connection.readBuffer := by
  unfold flushControlConnection at ran
  split_ifs at ran
  · cases ran
    rfl
  cases write with
  | wouldBlock =>
    cases ran
    rfl
  | broken => cases ran
  | _ =>
    obtain ⟨buffer, -, ran⟩ := bind_eq_ok.mp ran
    cases ran
    rfl

theorem ReadBounded.turn {supervisor after : σ} {close : Bool}
    (bounded : ReadBounded limits connection) (decided : ReadsDecided limits connection client)
    (ran : processControlConnectionTurn server limits client write supervisor connection =
      .ok (after, next, close)) : ReadBounded limits next := by
  obtain ⟨read, got, ran⟩ := bind_eq_ok.mp ran
  obtain ⟨⟨_, _, middle⟩, took, ran⟩ := bind_eq_ok.mp ran
  obtain ⟨⟨_, last⟩, wrote, ran⟩ := bind_eq_ok.mp ran
  cases ran
  exact (bounded.frames decided got took).congr (flushControlConnection_readBuffer wrote)

theorem ReadBounded.waitEnded {responseLine : List UInt8} (bounded : ReadBounded limits connection)
    (ran : flushTerminalControlWait responseLine write connection = .ok next) :
    ReadBounded limits next := by
  rw [flushTerminalControlWait] at ran
  split_ifs at ran
  · cases ran
    exact bounded
  · obtain ⟨⟨_, last⟩, wrote, ran⟩ := bind_eq_ok.mp ran
    cases ran
    exact bounded.congr ((flushControlConnection_readBuffer wrote).trans rfl)

/-! ## Runs -/

variable (limits) in
/-- In a turn the bytes read are decided about; other events need nothing. -/
def ControlSession.InOrder (session : ControlSession σ) : ControlEvent σ → Prop
  | .turn client _ => ∀ connection ∈ session.connection, ReadsDecided limits connection client
  | _ => True

instance (session : ControlSession σ) : DecidablePred (session.InOrder limits)
  | .turn .. => inferInstanceAs (Decidable (∀ _ ∈ _, _))
  | .waitEnded .. | .idleTimeout | .elsewhere _ => inferInstanceAs (Decidable True)

theorem ControlSession.handle_bounded {session : ControlSession σ} {event : ControlEvent σ}
    (bounded : ∀ connection ∈ session.connection, ReadBounded limits connection)
    (ordered : session.InOrder limits event) :
    ∀ connection ∈ (session.handle server limits event).connection, ReadBounded limits connection := by
  cases here : session.connection with
  | none =>
    have gone : (session.handle server limits event).connection = none := by
      cases event <;> simp [ControlSession.handle, here]
    simp [gone]
  | some before =>
    have held := bounded before here
    intro connection mem
    cases event with
    | elsewhere supervisor => exact bounded connection mem
    | idleTimeout => simp [ControlSession.handle, here] at mem
    | waitEnded responseLine write =>
      simp only [ControlSession.handle, here] at mem
      exact held.waitEnded (toOption_eq_some.mp mem)
    | turn client write =>
      simp only [ControlSession.handle, here] at mem
      split at mem
      next supervisor after close ran =>
        split_ifs at mem
        · cases mem
        · cases mem
          exact held.turn (ordered before here) ran
      next => cases mem

/-- In every run in which each turn decides about the bytes it reads, the read buffer stays within the
bound, after every event and also within a turn, between the read and the first request taken. -/
theorem read_buffer_within_bound (server : ControlServer σ) (limits : ControlLimits) (supervisor : σ)
    (events : List (ControlEvent σ))
    (ordered : Admissible (ControlSession.handle server limits) (ControlSession.InOrder limits)
      { supervisor := supervisor } events) :
    ∀ connection ∈ (runCalls (ControlSession.handle server limits)
        { supervisor := supervisor } events).connection,
      connection.readBuffer.length ≤ readBound limits ∧
      ∀ client read, ReadsDecided limits connection client →
        readControl client limits.maxReadBytes = .ok read →
        (readControlConnection read connection).readBuffer.length ≤ readBound limits := by
  have initial : ∀ connection ∈ (some {} : Option ControlConnectionState),
      ReadBounded limits connection := by
    rintro connection ⟨⟩
    exact ⟨Nat.zero_le _, Nat.zero_le _⟩
  have bounded := invariant_of_step
    (fun session => ∀ connection ∈ session.connection, ReadBounded limits connection)
    (fun session event inv ok => session.handle_bounded inv ok) events initial ordered
  intro connection listed
  exact ⟨(bounded connection listed).within, fun client read decided got =>
    (bounded connection listed).read decided got⟩

end

/-- A supervisor that takes every request and has its client wait for an operation. -/
def waitingServer : ControlServer Unit where
  runBody := fun _ _ => ((), .accepted none (some (.operation ⟨1⟩ "web")))
  frameRejectResponseLine := fun _ => []

def smallLimits : ControlLimits := { maxRequestBytes := 4, maxReadBytes := 4 }

/-- Two requests in three reads; the second is read when the wait of the first is over. -/
def orderlyEvents : List (ControlEvent Unit) :=
  [.turn (.sent [103, 111, 10]) .complete, .waitEnded [111, 107, 10] .complete,
    .turn (.sent [103]) .complete, .turn (.sent [111, 10]) .complete]

theorem read_buffer_within_bound_orderly :
    (∃ connection ∈ (runCalls (ControlSession.handle waitingServer smallLimits)
        { supervisor := () } orderlyEvents).connection, connection.pendingWait.isSome = true) ∧
    ∀ connection ∈ (runCalls (ControlSession.handle waitingServer smallLimits)
        { supervisor := () } orderlyEvents).connection,
      connection.readBuffer.length ≤ readBound smallLimits ∧
      ∀ client read, ReadsDecided smallLimits connection client →
        readControl client smallLimits.maxReadBytes = .ok read →
        (readControlConnection read connection).readBuffer.length ≤ readBound smallLimits :=
  ⟨by decide +kernel, read_buffer_within_bound waitingServer smallLimits () orderlyEvents
    ⟨by decide +kernel, by decide +kernel, by decide +kernel, by decide +kernel, trivial⟩⟩

/-- A turn answers every request its connection holds, in the order in which they were sent, up to
the first that sends the client away or has it wait, and adds their answers to what is to be written.
-/
theorem requests_answered_in_order {σ : Type} (server : ControlServer σ) (maxRequestBytes : ℕ)
    (read : ControlSocketRead) (supervisor : σ) (connection : ControlConnectionState)
    (bodies : List (List UInt8)) (tail : List UInt8) (goesOn : read ≠ .eof)
    (some : bodies ≠ []) (holds : Holds connection bodies tail) :
    ∃ after frames next,
      processReadFrames server maxRequestBytes read supervisor connection = .ok (after, frames, next) ∧
      AnsweredInOrder server maxRequestBytes supervisor connection bodies tail after frames next := by
  have rounds := length_le_requestLines bodies
  have enough : bodies.length ≤ connection.readBuffer.length + 2 := by
    rw [holds.buffered, length_append]
    omega
  obtain ⟨after, frames, next, answered, ran⟩ :=
    processFrames_inOrder server maxRequestBytes supervisor [] holds (fun _ => some) enough
  exact ⟨after, frames, next, by rw [processReadFrames, if_neg goesOn, ran, nil_append], answered⟩

/-- A supervisor that answers every request with its body, and has the client of a long one wait. -/
def echoingServer : ControlServer ℕ where
  runBody := fun count body =>
    (count + 1, .accepted (some body) (if body.length > 1 then some (.operation ⟨1⟩ "web") else none))
  frameRejectResponseLine := fun _ => []

theorem requests_answered_in_order_until_wait : (∃ after frames next,
      processReadFrames echoingServer 4 .wouldBlock 0
          { readBuffer := [103, 10, 97, 97, 10, 98, 10, 99] } = .ok (after, frames, next) ∧
      AnsweredInOrder echoingServer 4 0 { readBuffer := [103, 10, 97, 97, 10, 98, 10, 99] }
        [[103], [97, 97], [98]] [99] after frames next) ∧
    (answerInOrder echoingServer 4 [99] 0 [[103], [97, 97], [98]]).2.2 = [98, 10, 99] :=
  ⟨requests_answered_in_order echoingServer 4 .wouldBlock 0 _ [[103], [97, 97], [98]] [99]
    (by decide) (by decide) ⟨rfl, rfl, by decide, by decide, rfl⟩, by decide⟩

/-- A client that waits for an operation and keeps sending. -/
def sendingEvents : List (ControlEvent Unit) :=
  .turn (.sent [103, 111, 10]) .complete :: List.replicate 3 (.turn (.sent [97, 97, 97, 97]) .complete)

/-- Nothing is decided while a wait is pending, and every turn reads. -/
theorem read_buffer_grows_during_wait :
    ¬ ∀ (limits : ControlLimits) (server : ControlServer Unit) (events : List (ControlEvent Unit)),
      ∀ connection ∈ (runCalls (ControlSession.handle server limits)
        { supervisor := () } events).connection,
        connection.readBuffer.length ≤ readBound limits := by
  intro always
  have bounded := always smallLimits waitingServer sendingEvents
  revert bounded
  decide +kernel

end Peinit
