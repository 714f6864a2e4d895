import Peinit.Ids
import Peinit.Lib.Fallible

/-!
# Control connections

A client sends requests, one a line, and reads answers. The connection keeps what it has read and not
taken as a request, and what it has answered and not written. A turn reads once, takes requests and
writes once. What the supervisor does with a request (`ControlServer`), the client and the socket are
parameters.
-/

namespace Peinit

/-- The byte that ends a request. -/
def newline : UInt8 := 10

inductive ControlFrameRejectReason where
  | requestTooLarge
  | malformedRequest
  deriving DecidableEq

inductive ControlFrameDecision where
  | incomplete
  | reject (reason : ControlFrameRejectReason)
  | complete (body : List UInt8) (consumed : ℕ)
  deriving DecidableEq

def controlFrameDecision (buffer : List UInt8) (maxRequestBytes : ℕ) : ControlFrameDecision :=
  match buffer.findIdx? (· == newline) with
  | some newlineIndex =>
      if newlineIndex > maxRequestBytes then .reject .requestTooLarge
      else if newlineIndex = 0 then .reject .malformedRequest
      else .complete (buffer.take newlineIndex) (newlineIndex + 1)
  | none =>
      if buffer.length > maxRequestBytes then .reject .requestTooLarge
      else .incomplete

def holdsCompleteFrame (buffer : List UInt8) : Bool := buffer.contains newline

/-- Why a turn fails.  The event loop ends with it. -/
inductive ControlTurnError where
  | read
  | tooMany (requested available : ℕ)
  | socket
  | advancePastEnd (written pending : ℕ)
  deriving DecidableEq

/-- Take the first bytes off the read buffer. -/
def consume (buffer : List UInt8) (count : ℕ) : Except ControlTurnError (List UInt8) :=
  if count > buffer.length then .error (.tooMany count buffer.length) else .ok (buffer.drop count)

/-- The answers of a connection, and how many of their bytes are written. -/
structure ControlWriteBuffer where
  bytes : List UInt8 := []
  written : ℕ := 0
  within : written ≤ bytes.length := by decide

namespace ControlWriteBuffer

def compactIfEmpty (buffer : ControlWriteBuffer) : ControlWriteBuffer :=
  if buffer.written = buffer.bytes.length then {} else buffer

def enqueue (buffer : ControlWriteBuffer) (bytes : List UInt8) : ControlWriteBuffer :=
  let compacted := buffer.compactIfEmpty
  { bytes := compacted.bytes ++ bytes
    written := compacted.written
    within := by
      rw [List.length_append]
      exact Nat.le_add_right_of_le compacted.within }

def pendingLen (buffer : ControlWriteBuffer) : ℕ := (buffer.bytes.drop buffer.written).length

def isEmpty (buffer : ControlWriteBuffer) : Bool := buffer.pendingLen = 0

def advanceWritten (buffer : ControlWriteBuffer) (count : ℕ) :
    Except ControlTurnError ControlWriteBuffer :=
  if enough : count ≤ buffer.pendingLen then
    .ok (compactIfEmpty
      { bytes := buffer.bytes
        written := buffer.written + count
        within := by
          have within := buffer.within
          rw [pendingLen, List.length_drop] at enough
          omega })
  else .error (.advancePastEnd count buffer.pendingLen)

end ControlWriteBuffer

/-- What a connection is held up by: the outcome of an operation, or the end of a submitted job. -/
inductive ControlPendingWait where
  | operation (operationId : OperationId) (service : String)
  | job (jobId : JobId)
  deriving DecidableEq

structure ControlConnectionState where
  readBuffer : List UInt8 := []
  writeBuffer : ControlWriteBuffer := {}
  closeAfterWrite : Bool := false
  pendingWait : Option ControlPendingWait := none

/-- What the supervisor answers to the body of a request. -/
inductive ControlBodyResponse where
  | accepted (responseLine : Option (List UInt8)) (wait : Option ControlPendingWait)
  | rejected (responseLine : List UInt8)
  deriving DecidableEq

/-- The supervisor behind the socket: how it runs the body of a request, and its line for a request
it does not take. -/
structure ControlServer (σ : Type) where
  runBody : σ → List UInt8 → σ × ControlBodyResponse
  frameRejectResponseLine : ControlFrameRejectReason → List UInt8

structure ControlLimits where
  maxRequestBytes : ℕ
  maxReadBytes : ℕ
  deriving DecidableEq

inductive ControlFrameTurn where
  | incomplete
  | rejectedFrame (reason : ControlFrameRejectReason) (responseLine : List UInt8)
  | commandAccepted (responseLine : Option (List UInt8)) (wait : Option ControlPendingWait)
  | commandRejected (responseLine : List UInt8)
  deriving DecidableEq

namespace ControlFrameTurn

def responseLine : ControlFrameTurn → Option (List UInt8)
  | incomplete => none
  | rejectedFrame _ responseLine | commandRejected responseLine => some responseLine
  | commandAccepted responseLine _ => responseLine

def wait : ControlFrameTurn → Option ControlPendingWait
  | commandAccepted _ wait => wait
  | incomplete | rejectedFrame .. | commandRejected _ => none

def closeAfterResponse : ControlFrameTurn → Bool
  | rejectedFrame .. => true
  | incomplete | commandAccepted .. | commandRejected _ => false

end ControlFrameTurn

namespace ControlConnectionState

def enqueueResponse (connection : ControlConnectionState) (responseLine : List UInt8)
    (closeAfterResponse : Bool) : ControlConnectionState :=
  { connection with
    writeBuffer := connection.writeBuffer.enqueue responseLine
    closeAfterWrite := connection.closeAfterWrite || closeAfterResponse }

/-- Put the answer to a request in the write buffer, and the wait it asks for on the connection. -/
def record (connection : ControlConnectionState) (frame : ControlFrameTurn) :
    ControlConnectionState :=
  let answered := match frame.responseLine with
    | some responseLine => connection.enqueueResponse responseLine frame.closeAfterResponse
    | none => connection
  match frame.wait with
  | some wait => { answered with pendingWait := some wait }
  | none => answered

end ControlConnectionState

section

variable {σ : Type} (server : ControlServer σ)

/-- Take the next request from the read buffer: the supervisor after it, what became of it, and the
rest of the buffer. -/
def processNextControlFrame (maxRequestBytes : ℕ) (supervisor : σ) (buffer : List UInt8) :
    Except ControlTurnError (σ × ControlFrameTurn × List UInt8) :=
  match controlFrameDecision buffer maxRequestBytes with
  | .incomplete => .ok (supervisor, .incomplete, buffer)
  | .reject reason =>
      .ok (supervisor, .rejectedFrame reason (server.frameRejectResponseLine reason), [])
  | .complete body consumed => do
      let rest ← consume buffer consumed
      let (supervisor, response) := server.runBody supervisor body
      match response with
      | .accepted responseLine wait => .ok (supervisor, .commandAccepted responseLine wait, rest)
      | .rejected responseLine => .ok (supervisor, .commandRejected responseLine, rest)

def processNextControlConnectionFrame (maxRequestBytes : ℕ) (supervisor : σ)
    (connection : ControlConnectionState) :
    Except ControlTurnError (σ × ControlFrameTurn × ControlConnectionState) := do
  let (supervisor, frame, rest) ←
    processNextControlFrame server maxRequestBytes supervisor connection.readBuffer
  .ok (supervisor, frame, { connection with readBuffer := rest }.record frame)

/-- The loop of a turn goes round once more. -/
def takesFrame (frames : List ControlFrameTurn) (connection : ControlConnectionState) : Bool :=
  connection.pendingWait.isNone && !connection.closeAfterWrite &&
    (frames.isEmpty || holdsCompleteFrame connection.readBuffer)

/-- The loop of a turn, cut off after `fuel` rounds. -/
def processFrames (maxRequestBytes : ℕ) : ℕ → σ → List ControlFrameTurn → ControlConnectionState →
    Except ControlTurnError (σ × List ControlFrameTurn × ControlConnectionState)
  | 0, supervisor, frames, connection => .ok (supervisor, frames, connection)
  | fuel + 1, supervisor, frames, connection =>
      if takesFrame frames connection then do
        let (supervisor, frame, connection) ←
          processNextControlConnectionFrame server maxRequestBytes supervisor connection
        processFrames maxRequestBytes fuel supervisor (frames ++ [frame]) connection
      else .ok (supervisor, frames, connection)

/-- What stands at the client's end of the socket when a turn reads. -/
inductive ControlClient where
  | sent (bytes : List UInt8)
  | quiet
  | hungUp
  | broken
  deriving DecidableEq

inductive ControlSocketRead where
  | bytes (read : List UInt8)
  | eof
  | wouldBlock
  deriving DecidableEq

/-- At most `maxBytes` of what the client has sent.  No byte at all is the end of the stream. -/
def readControl (client : ControlClient) (maxBytes : ℕ) :
    Except ControlTurnError ControlSocketRead :=
  match client with
  | .sent bytes =>
      if (bytes.take maxBytes).isEmpty then .ok .eof else .ok (.bytes (bytes.take maxBytes))
  | .quiet => .ok .wouldBlock
  | .hungUp => .ok .eof
  | .broken => .error .read

def readControlConnection (read : ControlSocketRead) (connection : ControlConnectionState) :
    ControlConnectionState :=
  match read with
  | .bytes read => { connection with readBuffer := connection.readBuffer ++ read }
  | .eof | .wouldBlock => connection

inductive ControlSocketWrite where
  | complete
  | partly (written : ℕ)
  | wouldBlock
  | broken
  deriving DecidableEq

inductive ControlConnectionWriteTurn where
  | idle
  | complete
  | partly
  | wouldBlock
  deriving DecidableEq

def flushControlConnection (write : ControlSocketWrite) (connection : ControlConnectionState) :
    Except ControlTurnError (ControlConnectionWriteTurn × ControlConnectionState) :=
  if connection.writeBuffer.isEmpty then .ok (.idle, connection)
  else match write with
    | .complete => do
        let writeBuffer ← connection.writeBuffer.advanceWritten connection.writeBuffer.pendingLen
        .ok (.complete, { connection with writeBuffer := writeBuffer })
    | .partly written => do
        let writeBuffer ← connection.writeBuffer.advanceWritten written
        .ok (.partly, { connection with writeBuffer := writeBuffer })
    | .wouldBlock => .ok (.wouldBlock, connection)
    | .broken => .error .socket

def shouldCloseConnection (read : ControlSocketRead) (write : ControlConnectionWriteTurn)
    (closeAfterWrite : Bool) : Bool :=
  match write with
  | .partly | .wouldBlock => false
  | .idle | .complete => read = .eof || closeAfterWrite

/-- The requests a turn takes: none at the end of the stream.  A round takes at least one byte off the
buffer, except the first and the last. -/
def processReadFrames (maxRequestBytes : ℕ) (read : ControlSocketRead) (supervisor : σ)
    (connection : ControlConnectionState) :
    Except ControlTurnError (σ × List ControlFrameTurn × ControlConnectionState) :=
  if read = .eof then .ok (supervisor, [], connection)
  else
    processFrames server maxRequestBytes (connection.readBuffer.length + 2) supervisor [] connection

/-- A turn of a connection: the supervisor after it, the connection after it, and whether the
connection is closed. -/
def processControlConnectionTurn (limits : ControlLimits) (client : ControlClient)
    (write : ControlSocketWrite) (supervisor : σ) (connection : ControlConnectionState) :
    Except ControlTurnError (σ × ControlConnectionState × Bool) := do
  let read ← readControl client limits.maxReadBytes
  let connection := readControlConnection read connection
  let (supervisor, _, connection) ←
    processReadFrames server limits.maxRequestBytes read supervisor connection
  let (write, connection) ← flushControlConnection write connection
  .ok (supervisor, connection, shouldCloseConnection read write connection.closeAfterWrite)

/-- The part of `flush_terminal_control_waits` for one connection whose wait is over. -/
def flushTerminalControlWait (responseLine : List UInt8) (write : ControlSocketWrite)
    (connection : ControlConnectionState) : Except ControlTurnError ControlConnectionState :=
  if connection.pendingWait.isNone then .ok connection
  else do
    let (_, connection) ← flushControlConnection write
      ({ connection with pendingWait := none }.enqueueResponse responseLine false)
    .ok connection

/-- A connection together with the supervisor.  `none` is a connection that is closed, or that the
event loop left when it ended. -/
structure ControlSession (σ : Type) where
  supervisor : σ
  connection : Option ControlConnectionState := some {}

/-- What happens to a connection. -/
inductive ControlEvent (σ : Type) where
  | turn (client : ControlClient) (write : ControlSocketWrite)
  | waitEnded (responseLine : List UInt8) (write : ControlSocketWrite)
  | idleTimeout
  -- everything the supervisor does on other occasions
  | elsewhere (supervisor : σ)

def ControlSession.handle (limits : ControlLimits) (session : ControlSession σ)
    (event : ControlEvent σ) : ControlSession σ :=
  match event, session.connection with
  | .elsewhere supervisor, _ => { session with supervisor := supervisor }
  | _, none => session
  | .turn client write, some connection =>
      match processControlConnectionTurn server limits client write session.supervisor connection with
      | .ok (supervisor, connection, close) =>
          { supervisor := supervisor, connection := if close then none else some connection }
      | .error _ => { session with connection := none }
  | .waitEnded responseLine write, some connection =>
      { session with connection := (flushTerminalControlWait responseLine write connection).toOption }
  | .idleTimeout, some _ => { session with connection := none }

end

end Peinit
