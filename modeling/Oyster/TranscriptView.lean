import Oyster.Interleaving
import Oyster.Slices

/-! The transcript of one session as the browser shows it: the pages of the server, the canonical
reloads, the renderer with its jobs, and the loading of earlier messages. -/
namespace TranscriptView
open Interleaving Slices

/-- A message with what `comparableContent` and `comparableTimestamp` make of it; absent ids are `""`. -/
structure Message where
  role : String
  responseId : String
  toolCallId : String
  content : String
  timestamp : Option Int
deriving DecidableEq

def sameClaudeMessage (left right : Message) : Bool :=
  left.role = right.role && !(left.responseId ≠ "" && right.responseId ≠ "" && left.responseId ≠ right.responseId) &&
    !(left.toolCallId ≠ "" && right.toolCallId ≠ "" && left.toolCallId ≠ right.toolCallId) &&
    left.content = right.content &&
    match left.timestamp, right.timestamp with
    | some first, some second => (first - second).natAbs ≤ 10000
    | _, _ => true

/-- The loop of `mergeClaudeTranscriptMessages`, from the largest overlap down. -/
def overlapFrom (durable live : List Message) : Nat → Nat
  | 0 => 0
  | overlap + 1 =>
    if ((durable.drop (durable.length - (overlap + 1))).zip (live.take (overlap + 1))).all fun pair =>
        sameClaudeMessage pair.1 pair.2
    then overlap + 1
    else overlapFrom durable live overlap

def overlap (durable live : List Message) : Nat := overlapFrom durable live (min durable.length live.length)

def mergeClaudeTranscriptMessages (durable live : List Message) : List Message :=
  if durable = [] then live
  else if live = [] then durable
  else durable ++ live.drop (overlap durable live)

structure Page where
  messages : List Message
  before : Option Nat
  hasMore : Bool
  total : Nat

def turnStart (messages : List Message) : Nat → Nat
  | 0 => 0
  | start + 1 =>
    if messages[start + 1]?.any fun message => message.role = "user" then start + 1 else turnStart messages start

def transcriptPage (messages : List Message) (limit : Nat) (before : Option Nat) : Page :=
  let last := min (before.getD messages.length) messages.length
  let targetStart := last - limit
  let turn := turnStart messages targetStart
  let start := if 0 < turn ∧ turn < targetStart then turnStart messages (turn - 1) else turn
  ⟨slice messages start last, if 0 < start then some start else none, decide (0 < start), messages.length⟩

/-- `TRANSCRIPT_PAGE_SIZE`. -/
def pageSize : Nat := 80

def splitFrom (current : List Message) : List Message → List (List Message)
  | [] => if current = [] then [] else [current]
  | message :: messages =>
    if message.role = "user" ∧ current ≠ [] then current :: splitFrom [message] messages
    else splitFrom (current ++ [message]) messages

def splitTurns (messages : List Message) : List (List Message) := splitFrom [] messages

/-- `takeTailChunk` of turns given from the last one on: the chunk, and the turns that are left. -/
def takeTailChunk (max : Nat) (preserveOversizedTurn : Bool) (chunk : List Message) :
    List (List Message) → List Message × List (List Message)
  | [] => (chunk, [])
  | turn :: turns =>
    if max - chunk.length < turn.length then
      if chunk ≠ [] then (chunk, turn :: turns)
      else if preserveOversizedTurn then (turn, turns)
      else
        let kept := turn.take (turn.length - max)
        (turn.drop (turn.length - max), if kept = [] then turns else kept :: turns)
    else if max ≤ (turn ++ chunk).length then (turn ++ chunk, turns)
    else takeTailChunk max preserveOversizedTurn (turn ++ chunk) turns

/-- A reload in flight, by what it waits for. A page or a snapshot that the server has read may be under way. -/
inductive Reload where
  | state
  | durable (streaming : Bool) (page : Option Page)
  | live (page : Page) (snapshot : Option (List Message × Nat))
  | rendering (job : Nat) (turns : List (List Message)) (last : Nat)

/-- A `loadEarlier` in flight. -/
inductive Earlier where
  | fetching (before : Nat) (page : Option Page)
  | prepending (job : Nat) (turns : List (List Message)) (page : Page)

structure State where
  history : List Message
  /-- How many messages of the history are durable. -/
  durable : Nat
  /-- The harness is not pi. -/
  merges : Bool
  historyCursor : Option Nat
  historyIdentity : Bool
  earlier : Option Earlier
  latestJob : Nat
  reloads : Calls Reload
  renderJob : Nat
  rendered : List Message
  /-- Where the last completed reload ended. -/
  last : Nat

inductive Action where
  | grow (messages : List Message) (durable : Nat)
  | reload (alive : Bool)
  | stateArrives (reload : Nat) (streaming : Bool)
  | durableServed (reload : Nat)
  | durableArrives (reload : Nat)
  | liveServed (reload start : Nat)
  | liveArrives (reload : Nat)
  | liveFails (reload : Nat)
  | chunk (reload : Nat)
  | complete (reload : Nat)
  | loadEarlier
  | earlierServed
  | earlierFails
  | earlierArrives
  | earlierChunk
  | earlierComplete

namespace State
variable (s : State)

def applyHistoryPage (before : Option Nat) : State := { s with historyCursor := before, historyIdentity := true }

/-- The messages of a reload are there: if it is current, the renderer clears the view and renders the tail. -/
def loaded (i : Nat) (messages : List Message) (last : Nat) : State :=
  if i = s.latestJob then
    let tail := takeTailChunk 40 true [] (splitTurns messages).reverse
    { s with
      renderJob := s.renderJob + 1
      rendered := tail.1
      reloads := s.reloads.put i (.rendering (s.renderJob + 1) tail.2 last) }
  else { s with reloads := s.reloads.drop i }

def durableArrives (i : Nat) (streaming : Bool) (page : Page) : State :=
  let applied := s.applyHistoryPage page.before
  if streaming then { applied with reloads := s.reloads.put i (.live page none) }
  else applied.loaded i page.messages page.total

def liveArrives (i : Nat) (page : Page) (messages : List Message) (last : Nat) : State :=
  (s.applyHistoryPage none).loaded i (if s.merges then mergeClaudeTranscriptMessages page.messages messages else messages) last

/-- The snapshot of the live transcript: for pi the whole of it, otherwise a window that overlaps or directly follows the page. -/
def liveServed (i : Nat) (page : Page) (start : Nat) : Option State :=
  if (if s.merges then page.before.getD 0 ≤ start ∧ start ≤ page.total else start = 0) then
    some { s with reloads := s.reloads.put i (.live page (some (s.history.drop start, s.history.length))) }
  else none

def chunk (i job : Nat) (turns : List (List Message)) (last : Nat) : State :=
  if job = s.renderJob then
    let taken := takeTailChunk 60 false [] turns
    { s with rendered := taken.1 ++ s.rendered, reloads := s.reloads.put i (.rendering job taken.2 last) }
  else { s with reloads := s.reloads.drop i }

def complete (i last : Nat) : State :=
  { s with reloads := s.reloads.drop i, last := if i = s.latestJob then last else s.last }

def loadEarlier : State :=
  match s.historyCursor with
  | some before =>
    if s.earlier.isSome || !s.historyIdentity then s else { s with earlier := some (.fetching before none) }
  | none => s

/-- The page that the server reads for `before`. -/
def serves (before : Option Nat) : Page := transcriptPage (s.history.take s.durable) pageSize before

/-- `prepend` begins; without messages it is complete. -/
def earlierArrives (page : Page) : State :=
  if page.messages = [] then { s.applyHistoryPage page.before with earlier := none }
  else
    { s with
      renderJob := s.renderJob + 1
      earlier := some (.prepending (s.renderJob + 1) (splitTurns page.messages).reverse page) }

def earlierChunk (job : Nat) (turns : List (List Message)) (page : Page) : State :=
  if job = s.renderJob then
    let taken := takeTailChunk 60 false [] turns
    { s with rendered := taken.1 ++ s.rendered, earlier := some (.prepending job taken.2 page) }
  else { s with earlier := none }

/-- One call that is in flight goes on. -/
def resume (i : Nat) : Reload → Action → Option State
  | .state, .stateArrives _ streaming => some { s with reloads := s.reloads.put i (.durable streaming none) }
  | .durable streaming none, .durableServed _ =>
    some { s with reloads := s.reloads.put i (.durable streaming (some (s.serves none))) }
  | .durable streaming (some page), .durableArrives _ => some (s.durableArrives i streaming page)
  | .live page none, .liveServed _ start => s.liveServed i page start
  | .live page (some (messages, last)), .liveArrives _ => some (s.liveArrives i page messages last)
  | .live page _, .liveFails _ => some (s.loaded i page.messages page.total)
  | .rendering job (turn :: turns) last, .chunk _ => some (s.chunk i job (turn :: turns) last)
  | .rendering _ [] last, .complete _ => some (s.complete i last)
  | _, _ => none

def resumeEarlier : Earlier → Action → Option State
  | .fetching before none, .earlierServed =>
    some { s with earlier := some (.fetching before (some (s.serves (some before)))) }
  | .fetching .., .earlierFails => some { s with earlier := none }
  | .fetching _ (some page), .earlierArrives => some (s.earlierArrives page)
  | .prepending job (turn :: turns) page, .earlierChunk => some (s.earlierChunk job (turn :: turns) page)
  | .prepending _ [] page, .earlierComplete => some { s.applyHistoryPage page.before with earlier := none }
  | _, _ => none

end State

def Action.target : Action → Option Nat
  | .stateArrives i _ => some i
  | .durableServed i => some i
  | .durableArrives i => some i
  | .liveServed i _ => some i
  | .liveArrives i => some i
  | .liveFails i => some i
  | .chunk i => some i
  | .complete i => some i
  | _ => none

def step (s : State) (a : Action) : Option State :=
  match a with
  | .grow messages durable =>
    let history := s.history ++ messages
    if s.durable ≤ durable ∧ durable ≤ history.length then some { s with history := history, durable := durable }
    else none
  | .reload alive =>
    some { s with
      latestJob := s.latestJob + 1
      reloads := s.reloads.put (s.latestJob + 1) (if alive then .state else .durable false none) }
  | .loadEarlier => some s.loadEarlier
  | a =>
    match a.target with
    | some i => (s.reloads i).bind fun reload => s.resume i reload a
    | none => s.earlier.bind fun earlier => s.resumeEarlier earlier a

/-- The session is opened in the browser; `history` is what there is of it, `durable` of that already stored. -/
def opened (history : List Message) (durable : Nat) (merges : Bool) : State :=
  ⟨history, min durable history.length, merges, none, false, none, 0, fun _ => none, 0, [], 0⟩

end TranscriptView
