import Oyster.Base64
import Oyster.BoxRegistry
import Oyster.Delivery

/-! The dial protocol over the socket of one box: the streams of the hub, the connections that the
agent opens for them, and the frames between the two, which arrive in the order in which they were
sent. What Node's streams and sockets do by themselves is a step of its own. -/
namespace BoxDial
open Delivery

abbrev Bytes := List UInt8

def DIAL_CHUNK_BYTES : Nat := 24 * 1024

def MAX_DIAL_STREAMS : Nat := 64

def text (message : String) : CodeUnits := Utf16.encode message.toList

inductive Frame where
  | dial_open (stream_id : String) (port : Nat)
  | dial_opened (stream_id : String)
  | dial_data (stream_id : String) (data : CodeUnits)
  | dial_end (stream_id : String)
  | dial_error (stream_id : String) (error : CodeUnits)
  | dial_close (stream_id : String)

def Frame.stream_id : Frame → String
  | .dial_open id _ | .dial_opened id | .dial_data id _ | .dial_end id | .dial_error id _ | .dial_close id => id

/-- The readable side of a stream: `push(null)` has come, or the `end` event after it. -/
inductive Readable where
  | flowing
  | ended
  | emitted
deriving DecidableEq

/-- What one step of a stream does: the frames that it sends, and whether its entry is deleted. -/
structure Effect (σ : Type) where
  self : σ
  sends : List Frame := []
  removed : Bool := false

/-- The writable side: `_write` awaits the callback of a part, with the later parts of the chunk and
the chunks after it, or `_final` awaits that of its frame. -/
inductive Writing where
  | idle
  | sending (parts queue : List Bytes)
  | final
  | finished
deriving DecidableEq

/-- The chunks that wait are dropped; one that is being sent is sent to its end. -/
def Writing.dropped : Writing → Writing
  | .sending parts _ => .sending parts []
  | .idle => .idle
  | .final => .final
  | .finished => .finished

structure BoxDialStream where
  streamId : String
  connecting : Bool
  remoteClosed : Bool
  writing : Writing
  /-- `end()` has been called. -/
  ending : Bool
  readable : Readable
  /-- What was pushed and has not been read. -/
  buffer : Bytes
  destroyed : Bool
  error : Option CodeUnits
  /-- All that the user has written, and all that the user has read. -/
  written : Bytes
  read : Bytes

namespace BoxDialStream

def connect (streamId : String) : BoxDialStream where
  streamId
  connecting := true
  remoteClosed := false
  writing := .idle
  ending := false
  readable := .flowing
  buffer := []
  destroyed := false
  error := none
  written := []
  read := []

variable (isOpen : Bool) (stream : BoxDialStream)

def destroy (error : Option CodeUnits) : Effect BoxDialStream :=
  if stream.destroyed then { self := stream }
  else
    { self := { stream with destroyed := true, error, writing := stream.writing.dropped }
      sends := if !stream.remoteClosed && isOpen then [.dial_close stream.streamId] else []
      removed := true }

def sendPart (part : Bytes) (parts queue : List Bytes) : Effect BoxDialStream :=
  if isOpen then
    { self := { stream with writing := .sending parts queue }
      sends := [.dial_data stream.streamId (Base64.encode part)] }
  else { stream with writing := .idle }.destroy isOpen (some (text "box connection is closed"))

/-- The next chunk goes to `_write`. -/
def nextChunk : List Bytes → Effect BoxDialStream
  | [] => { self := { stream with writing := .idle } }
  | chunk :: queue =>
    match parts DIAL_CHUNK_BYTES chunk with
    | [] => nextChunk queue
    | part :: parts => stream.sendPart isOpen part parts queue

def partSent (parts queue : List Bytes) (failed : Option CodeUnits) : Effect BoxDialStream :=
  match failed, parts with
  | some error, _ => { stream with writing := .idle }.destroy isOpen (some error)
  | none, part :: parts => stream.sendPart isOpen part parts queue
  | none, [] => stream.nextChunk isOpen queue

def write (chunk : Bytes) : Effect BoxDialStream :=
  let stream := { stream with written := stream.written ++ chunk }
  match stream.writing with
  | .sending parts queue => { self := { stream with writing := .sending parts (queue ++ [chunk]) } }
  | .idle | .final | .finished => stream.nextChunk isOpen [chunk]

def finish : Effect BoxDialStream :=
  let stream := { stream with writing := .finished }
  if stream.readable = .emitted then stream.destroy isOpen none else { self := stream }

def final : Effect BoxDialStream :=
  if isOpen then { self := { stream with writing := .final }, sends := [.dial_end stream.streamId] }
  else stream.finish isOpen

def finalSent (failed : Option CodeUnits) : Effect BoxDialStream :=
  if stream.destroyed then { self := stream }
  else match failed with
    | some error => stream.destroy isOpen (some error)
    | none => stream.finish isOpen

def emitEnd : Effect BoxDialStream :=
  let stream := { stream with readable := .emitted }
  if stream.writing = .finished then stream.destroy isOpen none else { self := stream }

def push (chunk : Bytes) : Effect BoxDialStream :=
  if chunk = [] then { self := stream }
  else if stream.readable ≠ .flowing then stream.destroy isOpen (some (text "stream.push() after EOF"))
  else { self := { stream with buffer := stream.buffer ++ chunk } }

def pushNull : BoxDialStream :=
  { stream with readable := if stream.readable = .flowing then .ended else stream.readable }

def receive : Frame → Effect BoxDialStream
  | .dial_opened _ => { self := { stream with connecting := false } }
  | .dial_data _ data =>
    let chunk := Base64.decode data
    if DIAL_CHUNK_BYTES < chunk.length then stream.destroy isOpen (some (text "box dial chunk exceeds limit"))
    else stream.push isOpen chunk
  | .dial_end _ => { self := { stream with remoteClosed := true }.pushNull }
  | .dial_error _ error =>
    { stream with remoteClosed := true }.destroy isOpen (some (if error = [] then text "box dial failed" else error))
  | .dial_close _ => { stream with remoteClosed := true }.pushNull.destroy isOpen none
  | .dial_open .. => { self := stream }

/-- What the user of a stream does, and what the stream and its socket do by themselves. -/
inductive Event where
  | write (chunk : Bytes)
  | endWrites
  | read (count : Nat)
  | destroy (error : Option CodeUnits)
  | partSent (failed : Option CodeUnits)
  | final
  | finalSent (failed : Option CodeUnits)
  | emitEnd

def handle : Event → Option (Effect BoxDialStream)
  | .write chunk => if stream.ending || stream.destroyed then none else some (stream.write isOpen chunk)
  | .endWrites => if stream.ending || stream.destroyed then none else some { self := { stream with ending := true } }
  -- what is buffered may be read until the `close` event of a destroyed stream
  | .read count =>
    some { self := { stream with
      read := stream.read ++ stream.buffer.take count, buffer := stream.buffer.drop count } }
  | .destroy error => some (stream.destroy isOpen error)
  | .partSent failed =>
    match stream.writing with
    | .sending parts queue => some (stream.partSent isOpen parts queue failed)
    | .idle | .final | .finished => none
  | .final =>
    if stream.ending && !stream.destroyed && stream.writing = .idle then some (stream.final isOpen) else none
  | .finalSent failed => if stream.writing = .final then some (stream.finalSent isOpen failed) else none
  | .emitEnd =>
    if stream.readable = .ended && stream.buffer = [] && stream.error.isNone then some (stream.emitEnd isOpen) else none

end BoxDialStream

/-- `sendData` of a chunk, while which the target is paused: it awaits `waitForCapacity` before a
part, or the callback of a part. -/
inductive Sending where
  | idle
  | capacity (part : Bytes) (parts : List Bytes)
  | sent (parts : List Bytes)
deriving DecidableEq

/-- The process on the port: what it has written, what of it the agent has yet to read, whether it
has ended, and what it has got. -/
structure Service where
  written : Bytes
  unread : Bytes
  ended : Bool
  received : Bytes

structure Target where
  streamId : String
  connected : Bool
  /-- The send of `dial_opened` awaits its callback. -/
  announcing : Bool
  /-- What was written and the service has not got. -/
  writes : Bytes
  ending : Bool
  finished : Bool
  readable : Readable
  /-- The chunks that were read and not emitted. -/
  chunks : List Bytes
  sending : Sending
  destroyed : Bool
  /-- The error that it was destroyed by. -/
  failure : Option CodeUnits
  /-- The `error` event of a failure and the `close` event after it have been emitted. -/
  closed : Bool
  service : Service

namespace Target

def connect (streamId : String) : Target where
  streamId
  connected := false
  announcing := false
  writes := []
  ending := false
  finished := false
  readable := .flowing
  chunks := []
  sending := .idle
  destroyed := false
  failure := none
  closed := false
  service := ⟨[], [], false, []⟩

variable (isOpen listed : Bool) (target : Target)

def closeStream : Effect Target :=
  if listed then { self := { target with destroyed := true }, removed := true } else { self := target }

def send (frame : Frame) : List Frame := if isOpen then [frame] else []

def fail (message : CodeUnits) : Target := { target with destroyed := true, failure := some message }

def onConnect : Effect Target :=
  let target := { target with connected := true }
  if isOpen then { self := { target with announcing := true }, sends := [.dial_opened target.streamId] }
  else target.closeStream listed

def announced (failed : Bool) : Effect Target :=
  let target := { target with announcing := false }
  if failed then target.closeStream listed else { self := target }

def onData (chunk : Bytes) (chunks : List Bytes) : Target :=
  { target with
    chunks
    sending := match parts DIAL_CHUNK_BYTES chunk with
      | [] => .idle
      | part :: parts => .capacity part parts }

/-- The loop of `sendData` goes on after `waitForCapacity`. -/
def sendPart (part : Bytes) (parts : List Bytes) : Effect Target :=
  if isOpen then
    { self := { target with sending := .sent parts }
      sends := [.dial_data target.streamId (Base64.encode part)] }
  else { target with sending := .idle }.closeStream listed

def partSent (parts : List Bytes) (failed : Bool) : Effect Target :=
  if failed then { target with sending := .idle }.closeStream listed
  else { self := { target with
      sending := match parts with
        | [] => .idle
        | part :: parts => .capacity part parts } }

/-- The `end` event; without `allowHalfOpen` the socket then ends its writable side as well. -/
def onEnd : Effect Target where
  self := { target with readable := .emitted, ending := true, destroyed := target.finished }
  sends := send isOpen (.dial_end target.streamId)

def onError (message : CodeUnits) : List Frame :=
  send isOpen (.dial_error target.streamId ((if message = [] then text "localhost dial failed" else message).take 256))

def onClose : Effect Target where
  self := { target with closed := true }
  sends := (match target.failure with
      | some message => target.onError isOpen message
      | none => []) ++
    if target.readable = .emitted then [] else send isOpen (.dial_close target.streamId)
  removed := true

def write (chunk : Bytes) : Target :=
  if target.destroyed then target
  else if target.ending then
    target.fail (text (if target.readable = .emitted then "This socket has been ended by the other party"
      else "write after end"))
  else { target with writes := target.writes ++ chunk }

def endWrites : Target := if target.destroyed then target else { target with ending := true }

def receive : Frame → Effect Target
  | .dial_data _ data =>
    let chunk := Base64.decode data
    if DIAL_CHUNK_BYTES < chunk.length then target.closeStream true else { self := target.write chunk }
  | .dial_end _ => { self := target.endWrites }
  | _ => target.closeStream true

/-- What the service does, and what the socket and the send loop do by themselves. -/
inductive Event where
  | serviceWrites (chunk : Bytes)
  | serviceEnds
  | connect
  | announced (failed : Bool)
  | arrive (count : Nat)
  | data
  | sendPart
  | partSent (failed : Bool)
  | eof
  | emitEnd
  | flush (count : Nat)
  | finish
  | error (message : CodeUnits)
  | close

def handle : Event → Option (Effect Target)
  | .serviceWrites chunk =>
    let service := target.service
    if service.ended then none
    else some { self := { target with
      service := { service with written := service.written ++ chunk, unread := service.unread ++ chunk } } }
  | .serviceEnds => some { self := { target with service := { target.service with ended := true } } }
  | .connect => if target.connected || target.destroyed then none else some (target.onConnect isOpen listed)
  | .announced failed => if target.announcing then some (target.announced listed failed) else none
  | .arrive count =>
    let service := target.service
    if target.connected && !target.destroyed && 0 < count && service.unread ≠ [] then
      some { self := { target with
        chunks := target.chunks ++ [service.unread.take count]
        service := { service with unread := service.unread.drop count } } }
    else none
  | .data =>
    match target.chunks with
    | chunk :: chunks =>
      if target.sending = .idle && !target.destroyed then some { self := target.onData chunk chunks } else none
    | [] => none
  | .sendPart =>
    match target.sending with
    | .capacity part parts => some (target.sendPart isOpen listed part parts)
    | .idle | .sent _ => none
  | .partSent failed =>
    match target.sending with
    | .sent parts => some (target.partSent listed parts failed)
    | .idle | .capacity .. => none
  | .eof =>
    if target.connected && !target.destroyed && target.service.ended && target.service.unread = [] &&
        target.readable = .flowing then
      some { self := { target with readable := .ended } }
    else none
  -- a paused socket emits it too, once nothing is buffered
  | .emitEnd =>
    if target.readable = .ended && target.chunks = [] && !target.destroyed then some (target.onEnd isOpen) else none
  | .flush count =>
    if target.connected && !target.destroyed then
      some { self := { target with
        writes := target.writes.drop count
        service := { target.service with received := target.service.received ++ target.writes.take count } } }
    else none
  | .finish =>
    if target.connected && !target.destroyed && target.ending && target.writes = [] && !target.finished then
      some { self := { target with finished := true, destroyed := target.readable = .emitted } }
    else none
  | .error message => if target.destroyed then none else some { self := target.fail message }
  | .close => if target.destroyed && !target.closed then some (target.onClose isOpen) else none

end Target

/-- `streams` is the table of the streams by their ids. Streams are kept here beyond their entries,
as their callbacks are. -/
structure Side (σ : Type) where
  /-- `readyState` is `OPEN`. -/
  isOpen : Bool
  /-- Frames are handled: the connection is the current one, and the listener is there. -/
  attached : Bool
  streams : List String
  stream : String → Option σ
  /-- The frames that have been delivered. -/
  heard : List Frame

namespace Side
variable {σ : Type} (side : Side σ)

def empty : Side σ := ⟨true, true, [], fun _ => none, []⟩

def apply (id : String) (effect : Effect σ) : Side σ :=
  { side with
    streams := if effect.removed then side.streams.filter (· ≠ id) else side.streams
    stream := Function.update side.stream id (some effect.self) }

def destroyAll (destroy : σ → Effect σ) : Side σ :=
  { side with
    streams := []
    stream := fun id => if id ∈ side.streams then (side.stream id).map fun s => (destroy s).self else side.stream id }

def destroySends (destroy : σ → Effect σ) : List Frame :=
  side.streams.flatMap fun id => ((side.stream id).map fun s => (destroy s).sends).getD []

end Side

structure State where
  hub : Side BoxDialStream
  agent : Side Target
  toAgent : List Frame
  toHub : List Frame

def initial : State := ⟨.empty, .empty, [], []⟩

namespace State
variable (s : State)

def hubDoes (id : String) (effect : Effect BoxDialStream) : State :=
  { s with hub := s.hub.apply id effect, toAgent := s.toAgent ++ effect.sends }

def agentDoes (id : String) (effect : Effect Target) : State :=
  { s with agent := s.agent.apply id effect, toHub := s.toHub ++ effect.sends }

/-- `dial`; the ids are random. -/
def dial (id : String) : Option State :=
  if !s.hub.attached || MAX_DIAL_STREAMS ≤ s.hub.streams.length then none
  else if (s.hub.stream id).isSome || !BoxRegistry.validIdentity id then none
  else some { s with
    hub := { s.hub with
      streams := s.hub.streams ++ [id]
      stream := Function.update s.hub.stream id (some (.connect id)) }
    toAgent := s.toAgent ++ if s.hub.isOpen then [.dial_open id 8080] else [] }

def hubHears (frame : Frame) : State :=
  if !s.hub.attached then s
  else match frame with
    | .dial_open .. => { s with hub := { s.hub with isOpen := false } }
    | .dial_opened id | .dial_data id _ | .dial_end id | .dial_error id _ | .dial_close id =>
      if !BoxRegistry.validIdentity id then { s with hub := { s.hub with isOpen := false } }
      else if id ∈ s.hub.streams then
        match s.hub.stream id with
        | none => s
        | some stream => s.hubDoes id (stream.receive s.hub.isOpen frame)
      else s

def openTarget (maxStreams : Nat) (id : String) (port : Nat) : State :=
  if port ≠ 8080 ∨ id ∈ s.agent.streams ∨ maxStreams ≤ s.agent.streams.length then
    { s with toHub := s.toHub ++ Target.send s.agent.isOpen (.dial_error id
        (if port ≠ 8080 then text "localhost port is not permitted" else text "dial stream rejected")) }
  else
    { s with agent := { s.agent with
        streams := s.agent.streams ++ [id]
        stream := Function.update s.agent.stream id (some (.connect id)) } }

/-- `onMessage` of the agent. -/
def agentHears (maxStreams : Nat) (frame : Frame) : State :=
  if !s.agent.attached then s
  else match frame with
    | .dial_opened _ | .dial_error .. => s
    | .dial_open id port => if !BoxRegistry.validIdentity id then s else s.openTarget maxStreams id port
    | .dial_data id _ | .dial_end id | .dial_close id =>
      if !BoxRegistry.validIdentity id then s
      else if id ∈ s.agent.streams then
        match s.agent.stream id with
        | none => s
        | some target => s.agentDoes id (target.receive frame)
      else s

/-- The streams of a connection that is closed, replaced or given up are destroyed, and its socket
is closed. -/
def hubDetaches (isOpen : Bool) (error : String) : State :=
  if !s.hub.attached then { s with hub := { s.hub with isOpen := false } }
  else
    let destroy := fun stream : BoxDialStream => stream.destroy (s.hub.isOpen && isOpen) (some (text error))
    { s with
      hub := { s.hub.destroyAll destroy with isOpen := false, attached := false }
      toAgent := s.toAgent ++ s.hub.destroySends destroy }

/-- `onClose` of the agent. -/
def agentDetaches : State :=
  { s with agent := { s.agent.destroyAll (Target.closeStream true) with isOpen := false, attached := false } }

end State

inductive Action where
  | dial (id : String)
  | hub (id : String) (event : BoxDialStream.Event)
  | agent (id : String) (event : Target.Event)
  | hubFrame
  | agentFrame
  -- the socket of an end is no longer open, and its `close` event
  | hubDown
  | hubClosed
  | agentDown
  | agentClosed
  | superseded
  | registryClosed

def step (maxStreams : Nat) (s : State) : Action → Option State
  | .dial id => s.dial id
  | .hub id event => do
      let stream ← s.hub.stream id
      let effect ← stream.handle s.hub.isOpen event
      some (s.hubDoes id effect)
  | .agent id event => do
      let target ← s.agent.stream id
      let effect ← target.handle s.agent.isOpen (id ∈ s.agent.streams) event
      some (s.agentDoes id effect)
  | .hubFrame =>
    match s.toHub with
    | [] => none
    | frame :: rest =>
      some ({ s with toHub := rest, hub := { s.hub with heard := s.hub.heard ++ [frame] } }.hubHears frame)
  | .agentFrame =>
    match s.toAgent with
    | [] => none
    | frame :: rest =>
      some ({ s with toAgent := rest, agent := { s.agent with heard := s.agent.heard ++ [frame] } }.agentHears
        maxStreams frame)
  | .hubDown => some { s with hub := { s.hub with isOpen := false } }
  | .hubClosed => some (s.hubDetaches false "box connection closed")
  | .agentDown => some { s with agent := { s.agent with isOpen := false } }
  | .agentClosed => some s.agentDetaches
  | .superseded => some (s.hubDetaches true "box connection superseded")
  | .registryClosed => some (s.hubDetaches true "box registry closed")

end BoxDial
