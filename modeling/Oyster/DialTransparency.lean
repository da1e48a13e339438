import Oyster.DialRuns

/-! What the two ends of a dial get of each other's bytes in a run, and when the dial leaves their tables. -/
namespace BoxDial
open Interleaving

/-- No data comes to a target that has finished, and no end is told before the data that was read. -/
def permitted (s : State) : Action → Bool
  | .agentFrame =>
    match s.toAgent with
    | .dial_data id _ :: _ => !(s.agent.stream id).any Target.finished
    | _ => true
  | .agent id .emitEnd => (s.agent.stream id).all fun target => target.sending.parts = []
  | _ => true

def Ok (s : State) (action : Action) : Prop := permitted s action = true

/-- Both sides of both ends have ended, and none by an error. -/
def EndedNormally (stream : BoxDialStream) (target : Target) : Prop :=
  (stream.writing = .finished ∧ stream.readable = .emitted) ∧ target.finished = true ∧ target.readable = .emitted

/-- What holds in all runs. -/
structure Safe (s : State) : Prop where
  forward : ∀ id stream target, s.hub.stream id = some stream → s.agent.stream id = some target →
    target.service.received <+: stream.written
  backward : ∀ id stream target, s.hub.stream id = some stream → s.agent.stream id = some target →
    stream.read <+: target.service.written
  unopened : ∀ id stream, s.hub.stream id = some stream → s.agent.stream id = none → stream.read = []
  dialled : ∀ id, (s.agent.stream id).isSome = true → (s.hub.stream id).isSome = true
  frames : ∀ f ∈ s.toAgent ++ s.toHub, f.data.length ≤ DIAL_CHUNK_BYTES
  hubClosed : ∀ id stream, s.hub.stream id = some stream → stream.destroyed = true → id ∉ s.hub.streams
  agentClosed : ∀ id target, s.agent.stream id = some target → target.closed = true → id ∉ s.agent.streams
  told : ∀ f, (f ∈ s.agent.heard ∧ f.closes = true ∨ f ∈ s.hub.heard ∧ (f.fails = true ∨ f.closes = true)) →
    f.stream_id ∉ s.hub.streams ∧ f.stream_id ∉ s.agent.streams

/-- After a normal end of both sides the hub has read all bytes, and the service has got all but
those that are on their way. -/
structure Law (s : State) : Prop extends Safe s where
  whole : ∀ id stream target, s.hub.stream id = some stream → s.agent.stream id = some target →
    EndedNormally stream target → stream.read = target.service.written ∧
        target.service.received ++ dataOf (framesOf id s.toAgent) = stream.written

section
variable {o : Prop} {s t : State} {maxStreams : Nat}

theorem inv_initial : Inv o initial :=
  ⟨fun _ => rfl, nofun, nofun, List.nodup_nil⟩

theorem inv_step (h : Inv o s) {action : Action} (ok : o → Ok s action) (next : step maxStreams s action = some t) :
    Inv o t := by
  cases action with
  | dial id => exact h.dial next
  | hub id event =>
    obtain ⟨stream, known, next⟩ := Option.bind_eq_some_iff.mp next
    obtain ⟨effect, handled, same⟩ := Option.bind_eq_some_iff.mp next
    cases same
    have sound : Sound o ((s.view id).dial id stream) := (h.dials id).sound known
    have own : stream.Own := sound.stream
    obtain ⟨⟨new, moves⟩, reads⟩ := BoxDialStream.handle_moves own handled
    exact h.hubDoes known moves reads
  | agent id event =>
    obtain ⟨target, opened, next⟩ := Option.bind_eq_some_iff.mp next
    obtain ⟨effect, handled, same⟩ := Option.bind_eq_some_iff.mp next
    cases same
    refine h.agentDoes opened handled fun on ends => ?_
    subst ends
    have quiet := ok on
    simpa [Ok, permitted, opened] using quiet
  | hubFrame =>
    cases head : s.toHub with
    | nil => simp [step, head] at next
    | cons frame rest =>
      simp only [step, head, Option.some.injEq] at next
      exact next ▸ h.hubHears head
  | agentFrame =>
    cases head : s.toAgent with
    | nil => simp [step, head] at next
    | cons frame rest =>
      simp only [step, head, Option.some.injEq] at next
      refine next ▸ h.agentHears head fun on data target opened => ?_
      have quiet := ok on
      cases frame with
      | dial_data id _ =>
        have opened : s.agent.stream id = some target := opened
        simpa [Ok, permitted, head, opened] using quiet
      | dial_open _ _ | dial_opened _ | dial_end _ | dial_error _ _ | dial_close _ => exact absurd rfl data
  | hubDown | agentDown =>
    cases next
    exact h.of_same (fun _ => rfl) ⟨rfl, rfl⟩ ⟨rfl, rfl⟩
  | hubClosed | superseded | registryClosed => exact Option.some.inj next ▸ h.hubDetaches _ _
  | agentClosed => exact Option.some.inj next ▸ h.agentDetaches

variable {f : Frame}

theorem Inv.frame (h : Inv o s) (mem : f ∈ s.toAgent ++ s.toHub) : f.data.length ≤ DIAL_CHUNK_BYTES := by
  have mine : f ∈ (s.view f.stream_id).toAgent ++ (s.view f.stream_id).toHub := by
    refine List.mem_append.mpr ((List.mem_append.mp mem).imp ?_ ?_) <;>
      exact fun there => List.mem_filter.mpr ⟨there, decide_eq_true rfl⟩
  obtain ⟨stream, _, sound⟩ := (h.dials f.stream_id).known fun nothing => by
    rw [nothing] at mine
    cases mine
  exact sound.sizes f mine

theorem Sound.left {d : Dial} (h : Sound o d)
    (told : (∃ f ∈ d.agentHeard, f.closes = true) ∨ ∃ f ∈ d.hubHeard, f.fails = true ∨ f.closes = true) :
    d.hubListed = false ∧ d.agentListed = false := by
  obtain closes | ⟨f, mem, told⟩ := told
  · obtain ⟨f, mem, closed⟩ := closes
    have gone := h.closeSent ⟨f, List.mem_append_right _ mem, closed⟩
    exact ⟨by rw [h.hubListed, gone]; rfl, h.closeHeard ⟨f, mem, closed⟩⟩
  · have gone := h.heard ⟨f, mem, told⟩
    refine ⟨by rw [h.hubListed, gone]; rfl, ?_⟩
    by_contra listed
    obtain ⟨opened, open_⟩ := h.agentListed (by simpa using listed)
    have closed : d.target.closed = true := by
      obtain fails | closes := told
      · obtain ⟨unopened, _⟩ | closed := h.toldError ⟨f, List.mem_append_right _ mem, fails⟩
        · exact absurd (unopened.symm.trans opened) Bool.noConfusion
        · exact closed
      · exact h.toldClose ⟨f, List.mem_append_right _ mem, closes⟩
    exact absurd (open_.symm.trans closed) Bool.noConfusion

theorem Inv.left (h : Inv o s)
    (told : f ∈ s.agent.heard ∧ f.closes = true ∨ f ∈ s.hub.heard ∧ (f.fails = true ∨ f.closes = true)) :
    f.stream_id ∉ s.hub.streams ∧ f.stream_id ∉ s.agent.streams := by
  have mine : f ∈ (s.view f.stream_id).agentHeard ∧ f.closes = true ∨
      f ∈ (s.view f.stream_id).hubHeard ∧ (f.fails = true ∨ f.closes = true) := by
    refine told.imp ?_ ?_ <;>
      exact fun ⟨there, told⟩ => ⟨List.mem_filter.mpr ⟨there, decide_eq_true rfl⟩, told⟩
  obtain ⟨stream, _, sound⟩ := (h.dials f.stream_id).known fun nothing => by
    rw [nothing] at mine
    obtain ⟨there, _⟩ | ⟨there, _⟩ := mine <;> cases there
  have left := sound.left (mine.imp (fun ⟨there, told⟩ => ⟨f, there, told⟩) fun ⟨there, told⟩ => ⟨f, there, told⟩)
  simpa [View.dial, State.view] using left

theorem Inv.safe (h : Inv o s) : Safe s where
  forward := by
    intro id stream target known opened
    have sound : Sound o ((s.view id).dial id stream) := (h.dials id).sound known
    have arrived := sound.forward.arrived
    simp only [View.dial, State.view, opened, Option.getD_some] at arrived
    exact (List.prefix_append _ _).trans arrived
  backward := by
    intro id stream target known opened
    have sound : Sound o ((s.view id).dial id stream) := (h.dials id).sound known
    have arrived := sound.backward.arrived
    simp only [View.dial, State.view, opened, Option.getD_some] at arrived
    exact (List.prefix_append _ _).trans arrived
  unopened := by
    intro id stream known unopened
    have sound : Sound o ((s.view id).dial id stream) := (h.dials id).sound known
    have arrived := sound.backward.arrived
    simp only [View.dial, State.view, unopened, Option.getD_none, Target.connect] at arrived
    exact (List.append_eq_nil_iff.mp (List.prefix_nil.mp arrived)).1
  dialled := by
    intro id opened
    obtain ⟨stream, known, _⟩ := (h.dials id).known fun nothing => by
      have missing : s.agent.stream id = none := congrArg View.target nothing
      rw [missing] at opened
      cases opened
    exact Option.isSome_iff_exists.mpr ⟨stream, known⟩
  frames := fun _ => h.frame
  hubClosed := by
    intro id stream known gone
    have sound : Sound o ((s.view id).dial id stream) := (h.dials id).sound known
    have listing : s.hub.streams.contains id = !stream.destroyed := sound.hubListed
    simpa [gone] using listing
  agentClosed := by
    intro id target opened closed listed
    obtain ⟨stream, _, sound⟩ := (h.dials id).known fun nothing => by
      have missing : s.agent.stream id = none := congrArg View.target nothing
      rw [opened] at missing
      cases missing
    have listing := sound.agentListed (by simpa [View.dial, State.view] using listed)
    simp [View.dial, State.view, opened, closed] at listing
  told := fun _ => h.left

theorem Inv.law (h : Inv True s) : Law s where
  toSafe := h.safe
  whole := by
    rintro id stream target known opened ⟨⟨written, emitted⟩, finished, past⟩
    have sound : Sound True ((s.view id).dial id stream) := (h.dials id).sound known
    have isTarget : ((s.view id).dial id stream).target = target := by simp [View.dial, State.view, opened]
    have isOpened : ((s.view id).dial id stream).opened = true := by simp [View.dial, State.view, opened]
    have own : target.Own := isTarget ▸ sound.target
    have streamOwn : stream.Own := sound.stream
    constructor
    · have all := sound.whole trivial (isTarget ▸ past) (by simp [View.dial, emitted])
      rw [isTarget] at all
      have empty : stream.buffer = [] := streamOwn.emptied emitted
      simpa [View.dial, empty] using all
    · have takes : ((s.view id).dial id stream).Takes True :=
        .inr ⟨isOpened, .inr ⟨trivial, .inl (isTarget ▸ finished)⟩⟩
      have all := sound.forward.whole takes (.inr written)
      rw [isTarget, (own.finished finished).1] at all
      simpa [View.dial, State.view, written, Writing.pending] using all

end

theorem transparent (maxStreams : Nat) (actions : List Action) (s : State)
    (run : Run (step maxStreams) Ok initial actions s) : Law s := by
  have preserved : ∀ s action t, Inv True s → Ok s action → step maxStreams s action = some t → Inv True t :=
    fun _ _ _ inv ok next => inv_step inv (fun _ => ok) next
  exact (run.invariant preserved inv_initial).law

def dialled : List Action := [.dial "a", .agentFrame, .agent "a" .connect, .hubFrame]

/-- Bytes go both ways over one dial, beside another one, and both sides of it end. -/
def exchange : List Action :=
  dialled ++ [.dial "b", .hub "a" (.write [104, 105]), .hub "b" (.write [33]), .hub "a" (.partSent none),
    .agentFrame, .agentFrame, .agentFrame, .agent "a" (.flush 2),
    .agent "a" (.serviceWrites [111, 107]), .agent "a" (.arrive 2), .agent "a" .data, .agent "a" .sendPart,
    .agent "a" (.partSent false), .hubFrame, .hub "a" (.read 2), .hub "a" .endWrites, .hub "a" .final,
    .hub "a" (.finalSent none), .agentFrame, .agent "a" .finish, .agent "a" .serviceEnds, .agent "a" .eof,
    .agent "a" .emitEnd, .agent "a" .close, .hubFrame, .hub "a" .emitEnd]

/-- What the two ends of the dial have got. -/
def got (s : State) : Option (Bytes × Bytes) := do
  let stream ← s.hub.stream "a"
  let target ← s.agent.stream "a"
  some (stream.read, target.service.received)

theorem transparent_exchange :
    ∃ s, Run (step MAX_DIAL_STREAMS) Ok initial exchange s ∧ got s = some ([111, 107], [104, 105]) ∧ Law s := by
  have checked : ((execIf (step MAX_DIAL_STREAMS) permitted initial exchange).any
      fun s => decide (got s = some ([111, 107], [104, 105]))) = true := by decide +kernel
  obtain ⟨s, ran, same⟩ := (Option.any_eq_true _ _).mp checked
  have run : Run (step MAX_DIAL_STREAMS) Ok initial exchange s := run_of_execIf (fun _ _ => id) ran
  exact ⟨s, run, of_decide_eq_true same, transparent _ _ _ run⟩

/-- The service ends first. Its socket ends the other side with it, and what the hub writes later
finds no open target. -/
def serviceFirst : List Action :=
  dialled ++ [.agent "a" .serviceEnds, .agent "a" .eof, .agent "a" .emitEnd, .agent "a" .finish, .hubFrame,
    .hub "a" (.write [104, 105]), .hub "a" .endWrites, .hub "a" (.partSent none), .hub "a" .final,
    .hub "a" (.finalSent none), .hub "a" .emitEnd, .agentFrame, .agentFrame]

/-- The last chunk waits for capacity when the paused socket emits its end, which overtakes the chunk. -/
def endOvertakes : List Action :=
  dialled ++ [.hub "a" .endWrites, .hub "a" .final, .hub "a" (.finalSent none), .agentFrame, .agent "a" .finish,
    .agent "a" (.serviceWrites [111, 107]), .agent "a" (.arrive 2), .agent "a" .data, .agent "a" .serviceEnds,
    .agent "a" .eof, .agent "a" .emitEnd, .hubFrame, .hub "a" .emitEnd, .agent "a" .sendPart, .hubFrame]

instance (stream : BoxDialStream) (target : Target) : Decidable (EndedNormally stream target) :=
  inferInstanceAs (Decidable (_ ∧ _))

def misses (s : State) : Bool :=
  s.toAgent = [] && s.toHub = [] && (s.hub.stream "a").any fun stream => (s.agent.stream "a").any fun target =>
    decide (EndedNormally stream target) &&
      !(decide (stream.read = target.service.written) && decide (target.service.received = stream.written))

theorem not_law {s : State} (found : misses s = true) : s.toAgent = [] ∧ s.toHub = [] ∧ ¬Law s := by
  obtain ⟨quiet, found⟩ := (Bool.and_eq_true _ _).mp found
  obtain ⟨toAgent, toHub⟩ : s.toAgent = [] ∧ s.toHub = [] := by simpa using quiet
  obtain ⟨stream, known, found⟩ := (Option.any_eq_true _ _).mp found
  obtain ⟨target, opened, found⟩ := (Option.any_eq_true _ _).mp found
  obtain ⟨ended, missing⟩ : EndedNormally stream target ∧
      (stream.read ≠ target.service.written ∨ target.service.received ≠ stream.written) := by simpa using found
  refine ⟨toAgent, toHub, fun law => ?_⟩
  obtain ⟨read, received⟩ := law.whole "a" stream target known opened ended
  rw [toAgent] at received
  exact missing.elim (· read) (· (by simpa [framesOf] using received))

theorem bytes_missing :
    (∃ s, Run (step MAX_DIAL_STREAMS) Free initial serviceFirst s ∧ s.toAgent = [] ∧ s.toHub = [] ∧ ¬Law s) ∧
      ∃ s, Run (step MAX_DIAL_STREAMS) Free initial endOvertakes s ∧ s.toAgent = [] ∧ s.toHub = [] ∧ ¬Law s := by
  have first : ((exec (step MAX_DIAL_STREAMS) initial serviceFirst).any misses) = true := by decide +kernel
  have overtaken : ((exec (step MAX_DIAL_STREAMS) initial endOvertakes).any misses) = true := by decide +kernel
  constructor
  · obtain ⟨s, ran, found⟩ := (Option.any_eq_true _ _).mp first
    exact ⟨s, run_of_exec ran, not_law found⟩
  · obtain ⟨s, ran, found⟩ := (Option.any_eq_true _ _).mp overtaken
    exact ⟨s, run_of_exec ran, not_law found⟩

end BoxDial
