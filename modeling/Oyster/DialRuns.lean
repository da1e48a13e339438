import Oyster.DialSoundness

/-! Runs of the two ends of a socket, with any number of dials over it. A step is one of a single
dial, or destroys all that are listed; every dial stays sound. -/
namespace BoxDial
open Interleaving

def framesOf (id : String) (frames : List Frame) : List Frame := frames.filter (·.stream_id = id)

structure View where
  stream : Option BoxDialStream
  target : Option Target
  toAgent : List Frame
  toHub : List Frame
  agentHeard : List Frame
  hubHeard : List Frame
  hubListed : Bool
  agentListed : Bool

namespace View

def empty : View := ⟨none, none, [], [], [], [], false, false⟩

def dial (id : String) (view : View) (stream : BoxDialStream) : Dial where
  id
  stream
  opened := view.target.isSome
  target := view.target.getD (.connect id)
  toAgent := view.toAgent
  toHub := view.toHub
  agentHeard := view.agentHeard
  hubHeard := view.hubHeard
  hubListed := view.hubListed
  agentListed := view.agentListed

def Holds (o : Prop) (id : String) (view : View) : Prop :=
  match view.stream with
  | some stream => Sound o (view.dial id stream)
  | none => view = empty

variable {o : Prop} {id : String} {view : View}

theorem Holds.sound (h : view.Holds o id) {stream : BoxDialStream} (known : view.stream = some stream) :
    Sound o (view.dial id stream) := by
  rw [Holds, known] at h
  exact h

theorem Holds.of_sound {stream : BoxDialStream} (known : view.stream = some stream)
    (h : Sound o (view.dial id stream)) : view.Holds o id := by
  rw [Holds, known]
  exact h

theorem Holds.known (h : view.Holds o id) (some_ : view ≠ empty) :
    ∃ stream, view.stream = some stream ∧ Sound o (view.dial id stream) := by
  cases known : view.stream with
  | some stream => exact ⟨stream, rfl, h.sound known⟩
  | none =>
    rw [Holds, known] at h
    exact absurd h some_

end View

def State.view (s : State) (id : String) : View where
  stream := s.hub.stream id
  target := s.agent.stream id
  toAgent := framesOf id s.toAgent
  toHub := framesOf id s.toHub
  agentHeard := framesOf id s.agent.heard
  hubHeard := framesOf id s.hub.heard
  hubListed := s.hub.streams.contains id
  agentListed := s.agent.streams.contains id

structure Inv (o : Prop) (s : State) : Prop where
  dials : ∀ id, (s.view id).Holds o id
  hub : s.hub.attached = false → s.hub.streams = []
  agent : s.agent.attached = false → s.agent.streams = []
  nodup : s.hub.streams.Nodup

theorem framesOf_append (id : String) (as bs : List Frame) : framesOf id (as ++ bs) = framesOf id as ++ framesOf id bs :=
  List.filter_append as bs

variable {id : String}

theorem framesOf_all {frames : List Frame} (own : ∀ f ∈ frames, f.stream_id = id) : framesOf id frames = frames :=
  List.filter_eq_self.mpr fun f mem => decide_eq_true (own f mem)

theorem framesOf_other {other : String} {frames : List Frame} (own : ∀ f ∈ frames, f.stream_id = id) (ne : other ≠ id) :
    framesOf other frames = [] :=
  List.filter_eq_nil_iff.mpr fun f mem same => ne ((of_decide_eq_true same).symm.trans (own f mem))

theorem framesOf_cons_self (frame : Frame) (rest : List Frame) :
    framesOf frame.stream_id (frame :: rest) = frame :: framesOf frame.stream_id rest :=
  List.filter_cons_of_pos (decide_eq_true rfl)

theorem framesOf_cons_other {frame : Frame} (ne : id ≠ frame.stream_id) (rest : List Frame) :
    framesOf id (frame :: rest) = framesOf id rest :=
  List.filter_cons_of_neg fun same => ne (of_decide_eq_true same).symm

theorem framesOf_flatMap {ids : List String} (nodup : ids.Nodup) {sends : String → List Frame}
    (own : ∀ id ∈ ids, ∀ f ∈ sends id, f.stream_id = id) (id : String) :
    framesOf id (ids.flatMap sends) = if id ∈ ids then sends id else [] := by
  induction ids with
  | nil => rfl
  | cons first rest ih =>
    obtain ⟨fresh, nodup⟩ := List.nodup_cons.mp nodup
    have own' : ∀ id ∈ rest, ∀ f ∈ sends id, f.stream_id = id := fun id mem => own id (List.mem_cons_of_mem _ mem)
    have mine := own first List.mem_cons_self
    rw [List.flatMap_cons, framesOf_append, ih nodup own']
    by_cases same : id = first
    · subst same
      rw [framesOf_all mine, if_neg fresh, List.append_nil, if_pos List.mem_cons_self]
    · rw [framesOf_other mine same, List.nil_append]
      simp [same]

section
variable {o : Prop} {s t : State} {id : String}

theorem Inv.of_one (h : Inv o s) (others : ∀ other, other ≠ id → t.view other = s.view other)
    (own : (t.view id).Holds o id) (hub : t.hub.attached = false → t.hub.streams = [])
    (agent : t.agent.attached = false → t.agent.streams = []) (nodup : t.hub.streams.Nodup) : Inv o t := by
  refine ⟨fun other => ?_, hub, agent, nodup⟩
  by_cases same : other = id
  · exact same ▸ own
  · rw [others other same]
    exact h.dials other

theorem contains_removed {ids : List String} {removed : Bool} :
    (if removed then ids.filter (· ≠ id) else ids).contains id = (ids.contains id && !removed) := by
  cases removed <;> simp

variable {other : String}

theorem contains_removed_other {ids : List String} {removed : Bool} (ne : other ≠ id) :
    (if removed then ids.filter (· ≠ id) else ids).contains other = ids.contains other := by
  cases removed <;> simp [ne]

theorem removed_sublist (ids : List String) (removed : Bool) :
    (if removed then ids.filter (· ≠ id) else ids).Sublist ids := by
  cases removed
  · exact List.Sublist.refl ids
  · exact List.filter_sublist

variable {effect : Effect BoxDialStream}

theorem view_hubDoes (own : ∀ f ∈ effect.sends, f.stream_id = id) : (s.hubDoes id effect).view id = { s.view id with
      stream := some effect.self
      toAgent := (s.view id).toAgent ++ effect.sends
      hubListed := (s.view id).hubListed && !effect.removed } := by
  simp only [State.view, State.hubDoes, Side.apply, Function.update_self, framesOf_append, framesOf_all own, contains_removed]

theorem view_hubDoes_other (own : ∀ f ∈ effect.sends, f.stream_id = id) (ne : other ≠ id) :
    (s.hubDoes id effect).view other = s.view other := by
  simp only [State.view, State.hubDoes, Side.apply, Function.update_of_ne ne, framesOf_append, framesOf_other own ne,
    List.append_nil, contains_removed_other ne]

theorem view_agentDoes {effect : Effect Target} (own : ∀ f ∈ effect.sends, f.stream_id = id) :
    (s.agentDoes id effect).view id = { s.view id with
      target := some effect.self
      toHub := (s.view id).toHub ++ effect.sends
      agentListed := (s.view id).agentListed && !effect.removed } := by
  simp only [State.view, State.agentDoes, Side.apply, Function.update_self, framesOf_append, framesOf_all own, contains_removed]

theorem view_agentDoes_other {effect : Effect Target} (own : ∀ f ∈ effect.sends, f.stream_id = id) (ne : other ≠ id) :
    (s.agentDoes id effect).view other = s.view other := by
  simp only [State.view, State.agentDoes, Side.apply, Function.update_of_ne ne, framesOf_append, framesOf_other own ne,
    List.append_nil, contains_removed_other ne]

theorem Inv.hubDoes (h : Inv o s) {stream : BoxDialStream} (known : s.hub.stream id = some stream) {new : Bytes}
    (moves : stream.Moves new effect) (reads : stream.Reads effect) : Inv o (s.hubDoes id effect) := by
  have sound : Sound o ((s.view id).dial id stream) := (h.dials id).sound known
  have own : ∀ f ∈ effect.sends, f.stream_id = id := fun f mem =>
    (moves.sends.frames f mem).1.trans (moves.streamId.trans sound.streamId)
  have fewer : (s.hubDoes id effect).hub.streams.Sublist s.hub.streams := removed_sublist _ _
  refine h.of_one (fun other ne => view_hubDoes_other own ne) ?_ (fun off => ?_) h.agent (h.nodup.sublist fewer)
  · rw [view_hubDoes own]
    exact sound.hubMoves moves reads
  · exact List.sublist_nil.mp (h.hub off ▸ fewer)

theorem Inv.agentDoes (h : Inv o s) {target : Target} (opened : s.agent.stream id = some target) {event : Target.Event}
    {effect : Effect Target} (handled : target.handle s.agent.isOpen (id ∈ s.agent.streams) event = some effect)
    (sent : o → event = .emitEnd → target.sending.parts = []) : Inv o (s.agentDoes id effect) := by
  obtain ⟨stream, known, sound⟩ := (h.dials id).known fun nothing => by
    have missing : s.agent.stream id = none := congrArg View.target nothing
    rw [opened] at missing
    cases missing
  have isTarget : ((s.view id).dial id stream).target = target := by simp [View.dial, State.view, opened]
  have isOpened : ((s.view id).dial id stream).opened = true := by simp [View.dial, State.view, opened]
  have gone : decide (id ∈ s.agent.streams) = false → target.destroyed = true := by
    intro unlisted
    rw [← isTarget]
    exact sound.unlisted isOpened (by simpa [View.dial, State.view] using unlisted)
  have targetOwn : target.Own := isTarget ▸ sound.target
  obtain ⟨new, moves⟩ := Target.handle_moves targetOwn gone handled
  have rests := Target.handle_rests handled
  have own : ∀ f ∈ effect.sends, f.stream_id = id := fun f mem =>
    (moves.sends.frames f mem).1.trans (moves.streamId.trans (isTarget ▸ sound.targetId))
  have emits : o → effect.self.readable = .emitted → target.readable = .emitted ∨ target.coming = [] ∧ new = [] := by
    intro on past
    refine (rests.emitted past).imp_right fun ends => ?_
    subst ends
    obtain ⟨ended, empty⟩ := Target.handle_emitEnd handled
    have unread := (targetOwn.ended (by simp [ended])).2
    have nothing : target.coming = [] := by simp [Target.coming, sent on rfl, empty, unread]
    have quiet : effect.self.service.written = target.service.written := by
      obtain ⟨_, same⟩ := Option.ite_none_right_eq_some.mp handled
      exact Option.some.inj same ▸ rfl
    exact ⟨nothing, by simpa [quiet] using moves.written⟩
  have fewer : (s.agentDoes id effect).agent.streams.Sublist s.agent.streams := removed_sublist _ _
  refine h.of_one (fun other ne => view_agentDoes_other own ne) ?_ h.hub (fun off => ?_) h.nodup
  · rw [view_agentDoes own]
    rw [← isTarget] at moves rests emits
    have step := sound.targetMoves isOpened moves rests emits
    refine .of_sound known ?_
    simpa [State.view, View.dial, opened] using step
  · exact List.sublist_nil.mp (h.agent off ▸ fewer)

def State.hubNext (s : State) (frame : Frame) (rest : List Frame) : State :=
  { s with toHub := rest, hub := { s.hub with heard := s.hub.heard ++ [frame] } }

def State.agentNext (s : State) (frame : Frame) (rest : List Frame) : State :=
  { s with toAgent := rest, agent := { s.agent with heard := s.agent.heard ++ [frame] } }

variable {frame : Frame} {rest : List Frame}

theorem framesOf_single (frame : Frame) : framesOf frame.stream_id [frame] = [frame] :=
  framesOf_cons_self frame []

theorem framesOf_single_other (ne : other ≠ frame.stream_id) : framesOf other [frame] = [] :=
  framesOf_cons_other ne []

theorem view_hubNext (frame : Frame) (rest : List Frame) :
    (s.hubNext frame rest).view frame.stream_id = { s.view frame.stream_id with
      toHub := framesOf frame.stream_id rest
      hubHeard := (s.view frame.stream_id).hubHeard ++ [frame] } := by
  simp only [State.view, State.hubNext, framesOf_append, framesOf_single]

theorem view_hubNext_other (head : s.toHub = frame :: rest) (ne : other ≠ frame.stream_id) :
    (s.hubNext frame rest).view other = s.view other := by
  simp only [State.view, State.hubNext, framesOf_append, framesOf_single_other ne, head, framesOf_cons_other ne,
    List.append_nil]

theorem view_agentNext (frame : Frame) (rest : List Frame) :
    (s.agentNext frame rest).view frame.stream_id = { s.view frame.stream_id with
      toAgent := framesOf frame.stream_id rest
      agentHeard := (s.view frame.stream_id).agentHeard ++ [frame] } := by
  simp only [State.view, State.agentNext, framesOf_append, framesOf_single]

theorem view_agentNext_other (head : s.toAgent = frame :: rest) (ne : other ≠ frame.stream_id) :
    (s.agentNext frame rest).view other = s.view other := by
  simp only [State.view, State.agentNext, framesOf_append, framesOf_single_other ne, head, framesOf_cons_other ne,
    List.append_nil]

theorem Inv.toHub (h : Inv o s) (head : s.toHub = frame :: rest) :
    ∃ stream, s.hub.stream frame.stream_id = some stream ∧
      Sound o ((s.view frame.stream_id).dial frame.stream_id stream) ∧
      (s.view frame.stream_id).toHub = frame :: framesOf frame.stream_id rest := by
  have first : (s.view frame.stream_id).toHub = frame :: framesOf frame.stream_id rest := by
    simp only [State.view, head, framesOf_cons_self]
  obtain ⟨stream, known, sound⟩ := (h.dials frame.stream_id).known fun nothing => by
    rw [nothing] at first
    cases first
  exact ⟨stream, known, sound, first⟩

theorem Inv.toAgent (h : Inv o s) (head : s.toAgent = frame :: rest) :
    ∃ stream, s.hub.stream frame.stream_id = some stream ∧
      Sound o ((s.view frame.stream_id).dial frame.stream_id stream) ∧
      (s.view frame.stream_id).toAgent = frame :: framesOf frame.stream_id rest := by
  have first : (s.view frame.stream_id).toAgent = frame :: framesOf frame.stream_id rest := by
    simp only [State.view, head, framesOf_cons_self]
  obtain ⟨stream, known, sound⟩ := (h.dials frame.stream_id).known fun nothing => by
    rw [nothing] at first
    cases first
  exact ⟨stream, known, sound, first⟩

theorem hubHears_handles (opens : frame.opens = false) (valid : BoxRegistry.validIdentity frame.stream_id = true)
    (attached : s.hub.attached = true) (listed : frame.stream_id ∈ s.hub.streams) {stream : BoxDialStream}
    (known : s.hub.stream frame.stream_id = some stream) :
    s.hubHears frame = s.hubDoes frame.stream_id (stream.receive s.hub.isOpen frame) := by
  cases frame with
  | dial_open _ _ => cases opens
  | dial_opened id | dial_data id _ | dial_end id | dial_error id _ | dial_close id =>
    have valid : BoxRegistry.validIdentity id = true := valid
    have listed : id ∈ s.hub.streams := listed
    have known : s.hub.stream id = some stream := known
    simp [State.hubHears, attached, valid, listed, known, Frame.stream_id]

theorem hubHears_drops (opens : frame.opens = false) (valid : BoxRegistry.validIdentity frame.stream_id = true)
    (drops : ¬(s.hub.attached = true ∧ frame.stream_id ∈ s.hub.streams)) : s.hubHears frame = s := by
  unfold State.hubHears
  cases attached : s.hub.attached with
  | false => rfl
  | true =>
    have unlisted : frame.stream_id ∉ s.hub.streams := fun listed => drops ⟨attached, listed⟩
    cases frame with
    | dial_open _ _ => cases opens
    | dial_opened id | dial_data id _ | dial_end id | dial_error id _ | dial_close id =>
      have valid : BoxRegistry.validIdentity id = true := valid
      have unlisted : id ∉ s.hub.streams := unlisted
      simp [valid, unlisted]

theorem Inv.hubHears (h : Inv o s) (head : s.toHub = frame :: rest) :
    Inv o ((s.hubNext frame rest).hubHears frame) := by
  obtain ⟨stream, known, sound, first⟩ := h.toHub head
  have opens : frame.opens = false := sound.toHub frame (by simp [View.dial, first])
  have listing : s.hub.streams.contains frame.stream_id = !stream.destroyed := sound.hubListed
  by_cases handles : s.hub.attached = true ∧ frame.stream_id ∈ s.hub.streams
  · have moves : stream.Moves [] (stream.receive s.hub.isOpen frame) := .receive sound.stream frame
    have own : ∀ f ∈ (stream.receive s.hub.isOpen frame).sends, f.stream_id = frame.stream_id := fun f mem =>
      (moves.sends.frames f mem).1.trans (moves.streamId.trans sound.streamId)
    have live : stream.destroyed = false := by simpa [handles.2] using listing
    have same : (s.hubNext frame rest).hubHears frame =
        (s.hubNext frame rest).hubDoes frame.stream_id (stream.receive s.hub.isOpen frame) :=
      @hubHears_handles (s.hubNext frame rest) frame opens sound.valid handles.1 handles.2 stream known
    have fewer : ((s.hubNext frame rest).hubDoes frame.stream_id
        (stream.receive s.hub.isOpen frame)).hub.streams.Sublist s.hub.streams := removed_sublist _ _
    rw [same]
    refine h.of_one (fun other ne => (view_hubDoes_other own ne).trans (view_hubNext_other head ne)) ?_
      (fun off => ?_) h.agent (h.nodup.sublist fewer)
    · rw [view_hubDoes own, view_hubNext]
      exact sound.hubHears first live
    · exact List.sublist_nil.mp (h.hub off ▸ fewer)
  · have unlisted : frame.stream_id ∉ s.hub.streams := by
      intro listed
      refine handles ⟨?_, listed⟩
      by_contra off
      rw [h.hub (by simpa using off)] at listed
      cases listed
    have gone : stream.destroyed = true := by simpa [unlisted] using listing
    have same : (s.hubNext frame rest).hubHears frame = s.hubNext frame rest :=
      @hubHears_drops (s.hubNext frame rest) frame opens sound.valid handles
    rw [same]
    refine h.of_one (fun other ne => view_hubNext_other head ne) ?_ h.hub h.agent h.nodup
    rw [view_hubNext]
    exact .of_sound known (sound.hubIgnores first gone)

def Frame.toTarget : Frame → Bool
  | .dial_data .. | .dial_end _ | .dial_close _ => true
  | .dial_open .. | .dial_opened _ | .dial_error .. => false

/-- The state after `dial_error` replies. -/
def State.replies (s : State) (frames : List Frame) : State := { s with toHub := s.toHub ++ frames }

def State.opens (s : State) (id : String) : State :=
  { s with agent := { s.agent with
      streams := s.agent.streams ++ [id]
      stream := Function.update s.agent.stream id (some (.connect id)) } }

theorem view_replies {replies : List Frame} (own : ∀ f ∈ replies, f.stream_id = id) :
    (s.replies replies).view id = { s.view id with toHub := (s.view id).toHub ++ replies } := by
  simp only [State.view, State.replies, framesOf_append, framesOf_all own]

theorem view_replies_other {replies : List Frame} (own : ∀ f ∈ replies, f.stream_id = id) (ne : other ≠ id) :
    (s.replies replies).view other = s.view other := by
  simp only [State.view, State.replies, framesOf_append, framesOf_other own ne, List.append_nil]

theorem view_opens (s : State) (id : String) :
    (s.opens id).view id = { s.view id with target := some (.connect id), agentListed := true } := by
  simp [State.view, State.opens]

theorem view_opens_other (ne : other ≠ id) : (s.opens id).view other = s.view other := by
  simp [State.view, State.opens, ne]

variable {maxStreams : Nat}

theorem agentHears_handles (data : frame.toTarget = true) (valid : BoxRegistry.validIdentity frame.stream_id = true)
    (attached : s.agent.attached = true) (listed : frame.stream_id ∈ s.agent.streams) {target : Target}
    (opened : s.agent.stream frame.stream_id = some target) :
    s.agentHears maxStreams frame = s.agentDoes frame.stream_id (target.receive frame) := by
  cases frame with
  | dial_open _ _ | dial_opened _ | dial_error _ _ => cases data
  | dial_data id _ | dial_end id | dial_close id =>
    have valid : BoxRegistry.validIdentity id = true := valid
    have listed : id ∈ s.agent.streams := listed
    have opened : s.agent.stream id = some target := opened
    simp [State.agentHears, attached, valid, listed, opened, Frame.stream_id]

theorem agentHears_drops (opens : frame.opens = false)
    (drops : ¬(frame.toTarget = true ∧ s.agent.attached = true ∧ frame.stream_id ∈ s.agent.streams)) :
    s.agentHears maxStreams frame = s := by
  unfold State.agentHears
  cases attached : s.agent.attached with
  | false => rfl
  | true =>
    cases frame with
    | dial_open _ _ => cases opens
    | dial_opened _ | dial_error _ _ => rfl
    | dial_data id _ | dial_end id | dial_close id =>
      have unlisted : id ∉ s.agent.streams := fun listed => drops ⟨rfl, attached, listed⟩
      simp [unlisted]

theorem agentHears_opens (s : State) (opens : frame.opens = true)
    (valid : BoxRegistry.validIdentity frame.stream_id = true) :
    (∃ replies, (∀ f ∈ replies, ∃ error, f = .dial_error frame.stream_id error) ∧
        s.agentHears maxStreams frame = s.replies replies) ∨
      s.agent.attached = true ∧ s.agentHears maxStreams frame = s.opens frame.stream_id := by
  cases frame with
  | dial_opened _ | dial_data _ _ | dial_end _ | dial_error _ _ | dial_close _ => cases opens
  | dial_open id port =>
    have valid : BoxRegistry.validIdentity id = true := valid
    cases attached : s.agent.attached with
    | false => exact .inl ⟨[], List.forall_mem_nil _, by simp [State.agentHears, State.replies, attached]⟩
    | true =>
      have same : s.agentHears maxStreams (.dial_open id port) = s.openTarget maxStreams id port := by
        simp [State.agentHears, attached, valid]
      rw [same]
      unfold State.openTarget
      split
      · exact .inl ⟨_, fun f mem => ⟨_, Target.mem_send mem⟩, rfl⟩
      · exact .inr ⟨rfl, rfl⟩

theorem Inv.agentHears (h : Inv o s) (head : s.toAgent = frame :: rest)
    (going : o → frame.data ≠ [] → ∀ target, s.agent.stream frame.stream_id = some target → target.finished = false) :
    Inv o ((s.agentNext frame rest).agentHears maxStreams frame) := by
  obtain ⟨stream, known, sound, first⟩ := h.toAgent head
  have listing : s.agent.streams.contains frame.stream_id = true →
      (s.agent.stream frame.stream_id).isSome = true ∧ _ := sound.agentListed
  have going : o → frame.data ≠ [] →
      ((s.view frame.stream_id).dial frame.stream_id stream).target.finished = false := by
    intro on data
    cases opened : s.agent.stream frame.stream_id with
    | none => simp [View.dial, State.view, opened, Target.connect]
    | some target =>
      simpa [View.dial, State.view, opened] using going on data target opened
  cases opens : frame.opens with
  | true =>
    have unopened := (sound.opening ⟨frame, by simp [View.dial, first], opens⟩).1
    have data : frame.data = [] ∧ frame.closes = false := by
      cases frame with
      | dial_open _ _ => exact ⟨rfl, rfl⟩
      | dial_opened _ | dial_data _ _ | dial_end _ | dial_error _ _ | dial_close _ => cases opens
    obtain ⟨replies, errors, same⟩ | ⟨attached, same⟩ :=
      @agentHears_opens frame maxStreams (s.agentNext frame rest) opens sound.valid
    · have own : ∀ f ∈ replies, f.stream_id = frame.stream_id := by
        intro f mem
        obtain ⟨error, rfl⟩ := errors f mem
        rfl
      rw [same]
      refine h.of_one (fun other ne => (view_replies_other own ne).trans (view_agentNext_other head ne)) ?_
        h.hub h.agent h.nodup
      rw [view_replies own, view_agentNext]
      refine .of_sound known (sound.agentDrops first (fun some_ => absurd data.1 some_)
        (fun closes => absurd (data.2.symm.trans closes) Bool.noConfusion) fun f mem => ?_)
      obtain ⟨error, rfl⟩ := errors f mem
      exact ⟨unopened, rfl, rfl, rfl, rfl⟩
    · have attached : s.agent.attached = true := attached
      rw [same]
      refine h.of_one (fun other ne => (view_opens_other ne).trans (view_agentNext_other head ne)) ?_
        h.hub (fun off => absurd (off.symm.trans attached) Bool.noConfusion) h.nodup
      rw [view_opens, view_agentNext]
      have step := sound.agentOpens first opens
      rw [sound.fresh unopened] at step
      exact .of_sound known step
  | false =>
    by_cases handles : frame.toTarget = true ∧ s.agent.attached = true ∧ frame.stream_id ∈ s.agent.streams
    · obtain ⟨data, attached, listed⟩ := handles
      obtain ⟨isSome, _⟩ := listing (by simpa using listed)
      obtain ⟨target, opened⟩ := Option.isSome_iff_exists.mp isSome
      have isTarget : ((s.view frame.stream_id).dial frame.stream_id stream).target = target := by
        simp [View.dial, State.view, opened]
      have moves : target.Moves [] (target.receive frame) := .receive (isTarget ▸ sound.target) frame
      have own : ∀ f ∈ (target.receive frame).sends, f.stream_id = frame.stream_id := fun f mem =>
        (moves.sends.frames f mem).1.trans (moves.streamId.trans (isTarget ▸ sound.targetId))
      have same : (s.agentNext frame rest).agentHears maxStreams frame =
          (s.agentNext frame rest).agentDoes frame.stream_id (target.receive frame) :=
        @agentHears_handles (s.agentNext frame rest) frame maxStreams data sound.valid attached listed target opened
      rw [same]
      refine h.of_one (fun other ne => (view_agentDoes_other own ne).trans (view_agentNext_other head ne)) ?_
        h.hub (fun off => absurd (off.symm.trans attached) Bool.noConfusion) h.nodup
      rw [view_agentDoes own, view_agentNext]
      have step := sound.agentHears first (by simpa [View.dial, State.view] using listed) going
      refine .of_sound known ?_
      simpa [State.view, View.dial, opened] using step
    · have same : (s.agentNext frame rest).agentHears maxStreams frame = s.agentNext frame rest :=
        @agentHears_drops (s.agentNext frame rest) frame maxStreams opens handles
      rw [same]
      refine h.of_one (fun other ne => view_agentNext_other head ne) ?_ h.hub h.agent h.nodup
      rw [view_agentNext]
      -- the target of data, or of a close, is not listed
      have unlisted : frame.toTarget = true → frame.stream_id ∉ s.agent.streams := by
        intro data listed
        refine handles ⟨data, ?_, listed⟩
        by_contra off
        rw [h.agent (by simpa using off)] at listed
        cases listed
      have step := sound.agentDrops first (fun data => ?_) (fun closes => ?_) (List.forall_mem_nil _)
      · simpa [View.Holds, View.dial, State.view, known] using step
      · have unlisted : frame.stream_id ∉ s.agent.streams := by
          cases frame with
          | dial_data _ _ => exact unlisted rfl
          | dial_open _ _ | dial_opened _ | dial_end _ | dial_error _ _ | dial_close _ => exact absurd rfl data
        cases opened : ((s.view frame.stream_id).dial frame.stream_id stream).opened with
        | false => exact .inl rfl
        | true =>
          exact .inr ⟨sound.unlisted opened (by simpa [View.dial, State.view] using unlisted), fun on => going on data⟩
      · have unlisted : frame.stream_id ∉ s.agent.streams := by
          cases frame with
          | dial_close _ => exact unlisted rfl
          | dial_open _ _ | dial_opened _ | dial_data _ _ | dial_end _ | dial_error _ _ => cases closes
        simpa [View.dial, State.view] using unlisted

theorem Inv.of_same (h : Inv o s) (same : ∀ id, t.view id = s.view id)
    (hub : t.hub.attached = s.hub.attached ∧ t.hub.streams = s.hub.streams)
    (agent : t.agent.attached = s.agent.attached ∧ t.agent.streams = s.agent.streams) : Inv o t where
  dials := fun id => same id ▸ h.dials id
  hub := by
    rw [hub.1, hub.2]
    exact h.hub
  agent := by
    rw [agent.1, agent.2]
    exact h.agent
  nodup := by
    rw [hub.2]
    exact h.nodup

theorem Inv.dial (h : Inv o s) (made : s.dial id = some t) : Inv o t := by
  obtain ⟨attached, made⟩ := Option.ite_none_left_eq_some.mp made
  obtain ⟨fresh, made⟩ := Option.ite_none_left_eq_some.mp made
  cases made
  obtain ⟨attached, _⟩ : s.hub.attached = true ∧ _ := by simpa using attached
  obtain ⟨unknown, valid⟩ : s.hub.stream id = none ∧ BoxRegistry.validIdentity id = true := by simpa using fresh
  have nothing : s.view id = .empty := by
    have holds := h.dials id
    rw [View.Holds, show (s.view id).stream = none from unknown] at holds
    exact holds
  obtain ⟨_, target, toAgent, toHub, agentHeard, hubHeard, hubListed, agentListed⟩ := View.mk.inj nothing
  have own : ∀ f ∈ if s.hub.isOpen then [Frame.dial_open id 8080] else [], f.stream_id = id := by
    cases s.hub.isOpen
    · exact List.forall_mem_nil _
    · exact fun f mem => List.mem_singleton.mp mem ▸ rfl
  have unlisted : id ∉ s.hub.streams := by simpa using hubListed
  have stays : s.hub.attached = false → s.hub.streams ++ [id] = [] := fun off =>
    absurd (off.symm.trans attached) Bool.noConfusion
  refine h.of_one (fun other (ne : other ≠ id) => ?_) ?_ stays h.agent
    (List.nodup_append.mpr ⟨h.nodup, List.nodup_singleton id, ?_⟩)
  · simp only [State.view, Function.update_of_ne ne, framesOf_append, framesOf_other own ne, List.append_nil]
    simp [ne]
  · have step := Sound.connect (o := o) valid s.hub.isOpen
    refine .of_sound (Function.update_self ..) ?_
    simp only [View.dial, State.view, framesOf_append, framesOf_all own, target, toAgent, toHub, agentHeard, hubHeard,
      agentListed]
    simpa using step
  · intro other mem last same
    rw [List.mem_singleton.mp same]
    rintro rfl
    exact unlisted mem

theorem Inv.hubDetaches (h : Inv o s) (isOpen : Bool) (error : String) : Inv o (s.hubDetaches isOpen error) := by
  unfold State.hubDetaches
  split
  · exact h.of_same (fun _ => rfl) ⟨rfl, rfl⟩ ⟨rfl, rfl⟩
  · extract_lets destroy
    have sends : ∀ id ∈ s.hub.streams, ∀ f ∈ ((s.hub.stream id).map fun stream => (destroy stream).sends).getD [],
        f.stream_id = id := by
      intro id listed f mem
      cases known : s.hub.stream id with
      | none =>
        rw [known] at mem
        cases mem
      | some stream =>
        rw [known] at mem
        have sound : Sound o ((s.view id).dial id stream) := (h.dials id).sound known
        have moves : stream.Moves [] (destroy stream) := .destroy sound.stream _
        exact (moves.sends.frames f mem).1.trans (moves.streamId.trans sound.streamId)
    refine ⟨fun id => ?_, fun _ => rfl, h.agent, List.nodup_nil⟩
    have frames := framesOf_flatMap h.nodup sends id
    by_cases listed : id ∈ s.hub.streams
    · rw [if_pos listed] at frames
      obtain ⟨stream, known, sound⟩ := (h.dials id).known fun nothing => by
        have unlisted : s.hub.streams.contains id = false := congrArg View.hubListed nothing
        simp [listed] at unlisted
      have known : s.hub.stream id = some stream := known
      have moves : stream.Moves [] (destroy stream) := .destroy sound.stream _
      have live : stream.destroyed = false := by
        have listing : s.hub.streams.contains id = !stream.destroyed := sound.hubListed
        simpa [listed] using listing
      have removed : (destroy stream).removed = true := by
        rw [moves.removed, live]
        simp [destroy, BoxDialStream.destroyed_destroy]
      have step := sound.hubMoves moves (.destroy stream _)
      rw [known] at frames
      have known' : (if id ∈ s.hub.streams then (s.hub.stream id).map fun stream => (destroy stream).self
          else s.hub.stream id) = some (destroy stream).self := by
        rw [if_pos listed, known]
        rfl
      refine .of_sound known' ?_
      rw [removed, Bool.not_true, Bool.and_false] at step
      simp only [View.dial, State.view, Side.destroySends, framesOf_append]
      rw [frames]
      exact step
    · rw [if_neg listed] at frames
      have same : State.view { s with
          hub := { s.hub.destroyAll destroy with isOpen := false, attached := false }
          toAgent := s.toAgent ++ s.hub.destroySends destroy } id = s.view id := by
        simp only [State.view, Side.destroyAll, Side.destroySends, framesOf_append, if_neg listed]
        rw [frames]
        simp [listed]
      exact same ▸ h.dials id

theorem Inv.agentDetaches (h : Inv o s) : Inv o s.agentDetaches := by
  refine ⟨fun id => ?_, h.hub, fun _ => rfl, h.nodup⟩
  by_cases listed : id ∈ s.agent.streams
  · obtain ⟨stream, known, sound⟩ := (h.dials id).known fun nothing => by
      have unlisted : s.agent.streams.contains id = false := congrArg View.agentListed nothing
      simp [listed] at unlisted
    have listing : s.agent.streams.contains id = true → (s.agent.stream id).isSome = true ∧ _ := sound.agentListed
    obtain ⟨isSome, _⟩ := listing (by simpa using listed)
    obtain ⟨target, opened⟩ := Option.isSome_iff_exists.mp isSome
    have isTarget : ((s.view id).dial id stream).target = target := by simp [View.dial, State.view, opened]
    have step := sound.targetMoves isSome (.gives_up sound.target) (Target.Rests.closeStream true _ .close)
      fun _ past => .inl past
    refine .of_sound known ?_
    simpa [View.dial, State.view, State.agentDetaches, Side.destroyAll, Target.closeStream, listed, opened] using step
  · have same : s.agentDetaches.view id = s.view id := by
      simp [State.view, State.agentDetaches, Side.destroyAll, listed]
    exact same ▸ h.dials id

end
end BoxDial
