import Oyster.DialMoves

/-! What holds of one dial at any time: of its stream at the hub, of its target at the agent, and of
its frames between them. -/
namespace BoxDial
open Delivery

variable {stream : BoxDialStream}

theorem BoxDialStream.Sends.frames {frames : List Frame} (h : stream.Sends frames) :
    ∀ f ∈ frames, f.stream_id = stream.streamId ∧ f.opens = false ∧ f.data.length ≤ DIAL_CHUNK_BYTES ∧
      (f.ends = true → stream.writing.closing = true) ∧ (f.closes = true → stream.destroyed = true) := by
  cases h with
  | nothing => exact List.forall_mem_nil _
  | data small => simp [Frame.stream_id, Frame.opens, Frame.ends, Frame.closes, small]
  | ends closing => simp [Frame.stream_id, Frame.opens, Frame.data, Frame.closes, closing]
  | closes gone => simp [Frame.stream_id, Frame.opens, Frame.data, Frame.ends, gone]

theorem BoxDialStream.Sends.single {frames : List Frame} (h : stream.Sends frames) (R : Frame → Frame → Prop) :
    frames.Pairwise R := by
  cases h with
  | nothing => exact List.Pairwise.nil
  | data | ends | closes => exact List.pairwise_singleton _ _

variable {target : Target}

theorem Target.Sends.frames {frames : List Frame} (h : target.Sends frames) :
    ∀ f ∈ frames, f.stream_id = target.streamId ∧ f.opens = false ∧ f.data.length ≤ DIAL_CHUNK_BYTES ∧
      (f.ends = true → target.readable = .emitted) ∧ (f.fails = true → target.closed = true) ∧
      (f.closes = true → target.closed = true ∧ target.readable ≠ .emitted) := by
  cases h with
  | nothing => exact List.forall_mem_nil _
  | opened => simp [Frame.stream_id, Frame.opens, Frame.data, Frame.ends, Frame.fails, Frame.closes]
  | data small => simp [Frame.stream_id, Frame.opens, Frame.ends, Frame.fails, Frame.closes, small]
  | ends past => simp [Frame.stream_id, Frame.opens, Frame.data, Frame.fails, Frame.closes, past]
  | closes closed told =>
    intro f mem
    obtain ⟨error, rfl⟩ | ⟨rfl, early⟩ := told f mem
    · simp [Frame.stream_id, Frame.opens, Frame.data, Frame.ends, Frame.closes, closed]
    · simp [Frame.stream_id, Frame.opens, Frame.data, Frame.ends, Frame.fails, closed, early]

theorem Target.Sends.afterEnd {frames : List Frame} (h : target.Sends frames) :
    frames.Pairwise fun f g => f.ends = true → g.data = [] := by
  cases h with
  | nothing => exact List.Pairwise.nil
  | opened | data | ends => exact List.pairwise_singleton _ _
  | closes _ told =>
    refine List.pairwise_of_forall_mem_list fun f mem g _ ends => ?_
    obtain ⟨error, rfl⟩ | ⟨rfl, _⟩ := told f mem <;> cases ends

theorem data_of_dataOf {frames : List Frame} (h : dataOf frames = []) : ∀ f ∈ frames, f.data = [] :=
  List.flatMap_eq_nil_iff.mp h

structure Dial where
  id : String
  stream : BoxDialStream
  /-- The agent has opened a target. -/
  opened : Bool
  target : Target
  toAgent : List Frame
  toHub : List Frame
  agentHeard : List Frame
  hubHeard : List Frame
  hubListed : Bool
  agentListed : Bool

/-- The target takes what the hub sends, or, in the runs that the flag is for, has got all of it. -/
def Target.Takes (o : Prop) (target : Target) : Prop :=
  (target.destroyed = false ∧ target.ending = false) ∨ o ∧ (target.finished = true ∨ target.destroyed = false)

def Dial.Takes (o : Prop) (d : Dial) : Prop :=
  (∃ f ∈ d.toAgent, f.opens = true) ∨ d.opened = true ∧ d.target.Takes o

/-- Later frames to the agent open nothing, and carry nothing after the end. -/
def AfterIn (f g : Frame) : Prop := g.opens = false ∧ (f.ends = true → g.data = [])

structure Sound (o : Prop) (d : Dial) : Prop where
  valid : BoxRegistry.validIdentity d.id = true
  streamId : d.stream.streamId = d.id
  targetId : d.target.streamId = d.id
  stream : d.stream.Own
  target : d.target.Own
  fresh : d.opened = false → d.target = .connect d.id
  forward : Faithful d.stream.written (d.target.service.received ++ d.target.writes)
    (dataOf d.toAgent ++ d.stream.writing.pending) (d.Takes o) d.stream.Intact
  backward : Faithful d.target.service.written (d.stream.read ++ d.stream.buffer)
    (dataOf d.toHub ++ d.target.coming) (d.stream.readable = .flowing ∧ d.stream.destroyed = false)
    (d.target.destroyed = false ∨ o ∧ d.target.readable = .emitted)
  sizes : ∀ f ∈ d.toAgent ++ d.toHub, f.data.length ≤ DIAL_CHUNK_BYTES
  -- the frames to the agent
  toAgent : d.toAgent.Pairwise AfterIn
  opening : (∃ f ∈ d.toAgent, f.opens = true) → d.opened = false ∧ d.agentHeard = []
  endSent : (∃ f ∈ d.toAgent, f.ends = true) → d.stream.writing.closing = true
  ending : d.target.ending = true →
    d.target.readable = .emitted ∨ d.stream.writing.closing = true ∧ dataOf d.toAgent = []
  closeSent : (∃ f ∈ d.toAgent ++ d.agentHeard, f.closes = true) → d.stream.destroyed = true
  closeHeard : (∃ f ∈ d.agentHeard, f.closes = true) → d.agentListed = false
  -- the frames to the hub
  toHub : ∀ f ∈ d.toHub, f.opens = false
  afterEnd : o → d.toHub.Pairwise fun f g => f.ends = true → g.data = []
  emitted : o → d.target.readable = .emitted → d.target.coming = []
  toldEnd : (∃ f ∈ d.toHub, f.ends = true) → d.target.readable = .emitted
  ended : d.stream.readable ≠ .flowing → d.target.readable = .emitted ∨ d.target.closed = true
  whole : o → d.target.readable = .emitted → d.stream.readable ≠ .flowing →
    d.stream.read ++ d.stream.buffer = d.target.service.written
  toldEarly : (∃ f ∈ d.toHub, f.closes = true) → d.target.readable ≠ .emitted
  toldClose : (∃ f ∈ d.toHub ++ d.hubHeard, f.closes = true) → d.target.closed = true
  toldError : (∃ f ∈ d.toHub ++ d.hubHeard, f.fails = true) →
    (d.opened = false ∧ ∀ f ∈ d.toAgent, f.opens = false) ∨ d.target.closed = true
  heard : (∃ f ∈ d.hubHeard, f.fails = true ∨ f.closes = true) → d.stream.destroyed = true
  -- the tables
  hubListed : d.hubListed = !d.stream.destroyed
  agentListed : d.agentListed = true → d.opened = true ∧ d.target.closed = false
  unlisted : d.opened = true → d.agentListed = false → d.target.destroyed = true

section
variable {o : Prop} {d : Dial} {target : Target}

theorem Dial.Takes.imp {toAgent : List Frame} (opens : ∀ f ∈ toAgent, f.opens = true → f ∈ d.toAgent)
    (still : target.Takes o → d.target.Takes o) (h : Dial.Takes o { d with toAgent, target }) : d.Takes o := by
  obtain ⟨f, mem, open_⟩ | ⟨opened, takes⟩ := h
  · exact .inl ⟨f, opens f mem open_, open_⟩
  · exact .inr ⟨opened, still takes⟩

theorem Sound.toAgent_append (h : Sound o d) {frames : List Frame} (single : frames.Pairwise AfterIn)
    (opens : ∀ f ∈ frames, f.opens = false) (nothing : d.stream.writing.closing = true → ∀ f ∈ frames, f.data = []) :
    (d.toAgent ++ frames).Pairwise AfterIn := by
  refine List.pairwise_append.mpr ⟨h.toAgent, single, fun f old g new => ⟨opens g new, fun ends => ?_⟩⟩
  exact nothing (h.endSent ⟨f, old, ends⟩) g new

theorem Sound.hubStep (h : Sound o d) {new : Bytes} {effect : Effect BoxDialStream}
    (moves : d.stream.Moves new effect) {toHub hubHeard : List Frame} (later : toHub <:+ d.toHub)
    (moved : ∀ f ∈ toHub ++ hubHeard, f ∈ d.toHub ++ d.hubHeard)
    (backward : Faithful d.target.service.written (effect.self.read ++ effect.self.buffer)
      (dataOf toHub ++ d.target.coming) (effect.self.readable = .flowing ∧ effect.self.destroyed = false)
      (d.target.destroyed = false ∨ o ∧ d.target.readable = .emitted))
    (ended : effect.self.readable ≠ .flowing → d.target.readable = .emitted ∨ d.target.closed = true)
    (whole : o → d.target.readable = .emitted → effect.self.readable ≠ .flowing →
      effect.self.read ++ effect.self.buffer = d.target.service.written)
    (heard : (∃ f ∈ hubHeard, f.fails = true ∨ f.closes = true) → effect.self.destroyed = true) :
    Sound o { d with
      stream := effect.self
      toAgent := d.toAgent ++ effect.sends
      toHub
      hubHeard
      hubListed := d.hubListed && !effect.removed } := by
  have frames := moves.sends.frames
  have opens : ∀ f ∈ d.toAgent ++ effect.sends, f.opens = true → f ∈ d.toAgent := by
    intro f mem opens
    refine (List.mem_append.mp mem).resolve_right fun new => ?_
    rw [(frames f new).2.1] at opens
    cases opens
  refine { h with
    streamId := moves.streamId.trans h.streamId
    stream := moves.own
    forward := ?_
    backward
    sizes := ?_
    toAgent := h.toAgent_append (moves.sends.single _) (fun f mem => (frames f mem).2.1)
      fun closing => data_of_dataOf (moves.closing_data closing)
    opening := fun ⟨f, mem, open_⟩ => h.opening ⟨f, opens f mem open_, open_⟩
    endSent := ?_
    ending := ?_
    closeSent := ?_
    toHub := fun f mem => h.toHub f (later.subset mem)
    afterEnd := fun on => (h.afterEnd on).sublist later.sublist
    toldEnd := fun ⟨f, mem, ends⟩ => h.toldEnd ⟨f, later.subset mem, ends⟩
    ended
    whole
    toldEarly := fun ⟨f, mem, closes⟩ => h.toldEarly ⟨f, later.subset mem, closes⟩
    toldClose := fun ⟨f, mem, closes⟩ => h.toldClose ⟨f, moved f mem, closes⟩
    toldError := ?_
    heard
    hubListed := ?_ }
  · simp only [dataOf_append, moves.written, List.append_assoc]
    exact h.forward.moves_last (Dial.Takes.imp opens id) moves.carried moves.kept
  · intro f mem
    rw [List.append_assoc] at mem
    obtain old | mem := List.mem_append.mp mem
    · exact h.sizes f (List.mem_append_left _ old)
    · obtain new | other := List.mem_append.mp mem
      · exact (frames f new).2.2.1
      · exact h.sizes f (List.mem_append_right _ (later.subset other))
  · rintro ⟨f, mem, ends⟩
    obtain old | new := List.mem_append.mp mem
    · exact (moves.closing (h.endSent ⟨f, old, ends⟩)).1
    · exact (frames f new).2.2.2.1 ends
  · intro ending
    refine (h.ending ending).imp_right fun ⟨closing, data⟩ => ⟨(moves.closing closing).1, ?_⟩
    rw [dataOf_append, data, moves.closing_data closing]
    rfl
  · rintro ⟨f, mem, closes⟩
    rw [List.append_assoc] at mem
    obtain old | mem := List.mem_append.mp mem
    · exact moves.destroyed (h.closeSent ⟨f, List.mem_append_left _ old, closes⟩)
    · obtain new | heard := List.mem_append.mp mem
      · exact (frames f new).2.2.2.2 closes
      · exact moves.destroyed (h.closeSent ⟨f, List.mem_append_right _ heard, closes⟩)
  · rintro ⟨f, mem, fails⟩
    refine (h.toldError ⟨f, moved f mem, fails⟩).imp_left fun ⟨opened, shut⟩ => ⟨opened, fun f mem => ?_⟩
    by_contra open_
    have open_ : f.opens = true := by simpa using open_
    rw [shut f (opens f mem open_)] at open_
    cases open_
  · rw [moves.removed, h.hubListed]
    cases gone : d.stream.destroyed with
    | true => simp [moves.destroyed gone]
    | false => simp

theorem BoxDialStream.Moves.alive {stream : BoxDialStream} {new : Bytes} {effect : Effect BoxDialStream}
    (moves : stream.Moves new effect) (alive : effect.self.destroyed = false) : stream.destroyed = false := by
  by_contra gone
  rw [moves.destroyed (by simpa using gone)] at alive
  cases alive

theorem Sound.hubMoves (h : Sound o d) {new : Bytes} {effect : Effect BoxDialStream}
    (moves : d.stream.Moves new effect) (reads : d.stream.Reads effect) :
    Sound o { d with
      stream := effect.self
      toAgent := d.toAgent ++ effect.sends
      hubListed := d.hubListed && !effect.removed } := by
  refine h.hubStep moves (List.suffix_refl _) (fun _ mem => mem) ?_
    (fun ended => h.ended fun flowing => ended (reads.readable.mpr flowing))
    (fun on past ended => reads.landed.trans (h.whole on past fun flowing => ended (reads.readable.mpr flowing)))
    fun told => moves.destroyed (h.heard told)
  rw [reads.landed]
  exact h.backward.stays (fun open_ => ⟨reads.readable.mp open_.1, moves.alive open_.2⟩) id

variable {rest : List Frame} {frame : Frame}

theorem moved_head {sent heard : List Frame} (head : sent = frame :: rest) :
    ∀ f ∈ rest ++ (heard ++ [frame]), f ∈ sent ++ heard := by
  intro f mem
  simp only [List.mem_append, head, List.mem_cons] at mem ⊢
  tauto

theorem Sound.hubIgnores (h : Sound o d) (head : d.toHub = frame :: rest) (gone : d.stream.destroyed = true) :
    Sound o { d with toHub := rest, hubHeard := d.hubHeard ++ [frame] } := by
  have step := h.hubStep (.quiet h.stream) (head ▸ List.suffix_cons frame rest) (moved_head head)
    (h.backward.stops fun open_ => by simp [gone] at open_) h.ended h.whole fun _ => gone
  simpa using step

theorem Sound.hubHears (h : Sound o d) (head : d.toHub = frame :: rest) (live : d.stream.destroyed = false)
    {isOpen : Bool} : let effect := d.stream.receive isOpen frame
    Sound o { d with
      stream := effect.self
      toAgent := d.toAgent ++ effect.sends
      toHub := rest
      hubHeard := d.hubHeard ++ [frame]
      hubListed := d.hubListed && !effect.removed } := by
  intro effect
  have moves : d.stream.Moves [] effect := .receive h.stream frame
  have lands := d.stream.receive_lands frame (rfl : _ = effect)
  have inside : frame ∈ d.toHub := by simp [head]
  have backward := h.backward
  rw [head, dataOf_cons, List.append_assoc] at backward
  refine h.hubStep moves (head ▸ List.suffix_cons frame rest) (moved_head head) ?_ ?_ ?_ ?_
  · obtain ⟨landed, flowing | nothing⟩ | ⟨landed, shut⟩ := lands
    · rw [landed]
      exact (backward.lands ⟨flowing, live⟩).stays (fun _ => ⟨flowing, live⟩) id
    · rw [landed, nothing, List.append_nil]
      rw [nothing] at backward
      refine backward.stays (fun open_ => ⟨?_, live⟩) id
      by_contra ended
      exact d.stream.receive_keeps_end frame ended open_.1
    · rw [landed]
      exact backward.stops shut
  · intro ended
    obtain before | ends | closes := d.stream.receive_ended frame ended
    · exact h.ended before
    · exact .inl (h.toldEnd ⟨frame, inside, ends⟩)
    · exact .inr (h.toldClose ⟨frame, List.mem_append_left _ inside, closes⟩)
  · intro on past ended
    by_cases flowing : d.stream.readable = .flowing
    · -- the frame is the end, and no data comes after it
      have ends : frame.ends = true := by
        obtain before | ends | closes := d.stream.receive_ended frame ended
        · exact absurd flowing before
        · exact ends
        · exact absurd past (h.toldEarly ⟨frame, inside, closes⟩)
      have later : dataOf rest = [] := by
        have after := h.afterEnd on
        rw [head] at after
        exact List.flatMap_eq_nil_iff.mpr fun f mem => (List.pairwise_cons.mp after).1 f mem ends
      have own : frame.data = [] := by
        cases frame with
        | dial_end _ => rfl
        | dial_open _ _ | dial_opened _ | dial_data _ _ | dial_error _ _ | dial_close _ => cases ends
      have all := backward.whole ⟨flowing, live⟩ (.inr ⟨on, past⟩)
      rw [own, later, h.emitted on past, List.nil_append, List.nil_append, List.append_nil] at all
      obtain ⟨landed, flowing | nothing⟩ | ⟨landed, _⟩ := lands
      · rw [landed, own, List.append_nil, all]
      · rw [landed, own, List.append_nil, all]
      · rw [landed, all]
    · have all := h.whole on past flowing
      obtain ⟨landed, open_ | nothing⟩ | ⟨landed, _⟩ := lands
      · exact absurd open_ flowing
      · rw [landed, nothing, List.append_nil, all]
      · rw [landed, all]
  · rintro ⟨f, mem, told⟩
    obtain old | new := List.mem_append.mp mem
    · exact moves.destroyed (h.heard ⟨f, old, told⟩)
    · obtain rfl := List.mem_singleton.mp new
      exact d.stream.receive_destroyed f told

theorem Target.Moves.alive {new : Bytes} {effect : Effect Target} (moves : target.Moves new effect)
    (alive : effect.self.destroyed = false) : target.destroyed = false := by
  by_contra gone
  rw [moves.destroyed (by simpa using gone)] at alive
  cases alive

/-- A step of the target, in which the agent may hear the first of the frames to it. For the runs that the flag is for, the
end is not told while data is on its way. -/
theorem Sound.agentStep (h : Sound o d) (opened : d.opened = true) {new : Bytes} {effect : Effect Target}
    (moves : d.target.Moves new effect)
    (emits : o → effect.self.readable = .emitted → d.target.readable = .emitted ∨ d.target.coming = [] ∧ new = [])
    {toAgent agentHeard : List Frame} (later : toAgent <:+ d.toAgent)
    (moved : ∀ f ∈ toAgent ++ agentHeard, f ∈ d.toAgent ++ d.agentHeard)
    (forward : Faithful d.stream.written (effect.self.service.received ++ effect.self.writes)
      (dataOf toAgent ++ d.stream.writing.pending) (Dial.Takes o { d with toAgent, target := effect.self }) d.stream.Intact)
    (ending : effect.self.ending = true →
      effect.self.readable = .emitted ∨ d.stream.writing.closing = true ∧ dataOf toAgent = [])
    (closeHeard : (∃ f ∈ agentHeard, f.closes = true) → (d.agentListed && !effect.removed) = false)
    (opening : ∀ f ∈ toAgent, f.opens = false) :
    Sound o { d with
      target := effect.self
      toAgent
      agentHeard
      toHub := d.toHub ++ effect.sends
      agentListed := d.agentListed && !effect.removed } := by
  have frames := moves.sends.frames
  -- where the target has told its end, nothing was on its way
  have nothing : o → effect.self.readable = .emitted → dataOf effect.sends = [] ∧ effect.self.coming = [] ∧ new = [] := by
    intro on past
    have idle : d.target.coming = [] ∧ new = [] := by
      obtain before | idle := emits on past
      · exact ⟨h.emitted on before, (moves.emitted before).2⟩
      · exact idle
    have carried : dataOf effect.sends ++ effect.self.coming <+: [] := by
      have carried := moves.carried
      rw [idle.1, idle.2] at carried
      exact carried.elim id (·.2)
    obtain ⟨data, coming⟩ := List.append_eq_nil_iff.mp (List.prefix_nil.mp carried)
    exact ⟨data, coming, idle.2⟩
  refine { h with
    targetId := moves.streamId.trans h.targetId
    target := moves.own
    fresh := fun closed => absurd (opened.symm.trans closed) Bool.noConfusion
    forward
    backward := ?_
    sizes := ?_
    toAgent := h.toAgent.sublist later.sublist
    opening := fun ⟨f, mem, opens⟩ => absurd (opens.symm.trans (opening f mem)) Bool.noConfusion
    endSent := fun ⟨f, mem, ends⟩ => h.endSent ⟨f, later.subset mem, ends⟩
    ending
    closeSent := fun ⟨f, mem, closes⟩ => h.closeSent ⟨f, moved f mem, closes⟩
    closeHeard
    toHub := ?_
    afterEnd := ?_
    emitted := fun on past => (nothing on past).2.1
    toldEnd := ?_
    ended := ?_
    whole := ?_
    toldEarly := ?_
    toldClose := ?_
    toldError := ?_
    agentListed := ?_
    unlisted := ?_ }
  · simp only [dataOf_append, moves.written, List.append_assoc]
    refine h.backward.moves_last id (moves.carried.imp_right fun ⟨live, more⟩ => ⟨.inl live, more⟩) ?_
    rintro (alive | ⟨on, past⟩)
    · obtain ⟨live, all⟩ := moves.kept alive
      exact ⟨.inl live, all⟩
    · obtain ⟨data, coming, rfl⟩ := nothing on past
      rw [data, coming]
      obtain before | ⟨idle, _⟩ := emits on past
      · exact ⟨.inr ⟨on, before⟩, by rw [h.emitted on before]⟩
      · obtain before | live := moves.emits past
        · exact ⟨.inr ⟨on, before⟩, by rw [idle]⟩
        · exact ⟨.inl live, by rw [idle]⟩
  · intro f mem
    obtain mem | mem := List.mem_append.mp mem
    · exact h.sizes f (List.mem_append_left _ (later.subset mem))
    · obtain old | new := List.mem_append.mp mem
      · exact h.sizes f (List.mem_append_right _ old)
      · exact (frames f new).2.2.1
  · intro f mem
    obtain old | new := List.mem_append.mp mem
    · exact h.toHub f old
    · exact (frames f new).2.1
  · intro on
    refine List.pairwise_append.mpr ⟨h.afterEnd on, moves.sends.afterEnd, fun f old g new ends => ?_⟩
    have before := h.toldEnd ⟨f, old, ends⟩
    exact data_of_dataOf (nothing on (moves.emitted before).1).1 g new
  · rintro ⟨f, mem, ends⟩
    obtain old | new := List.mem_append.mp mem
    · exact (moves.emitted (h.toldEnd ⟨f, old, ends⟩)).1
    · exact (frames f new).2.2.2.1 ends
  · intro ended
    exact (h.ended ended).imp (fun past => (moves.emitted past).1) moves.closed
  · intro on past ended
    obtain ⟨_, _, rfl⟩ := nothing on past
    have before : d.target.readable = .emitted := by
      obtain before | closed := h.ended ended
      · exact before
      · refine (moves.emits past).resolve_right fun live => ?_
        rw [h.target.closed closed] at live
        cases live
    rw [moves.written, List.append_nil]
    exact h.whole on before ended
  · rintro ⟨f, mem, closes⟩ past
    obtain old | new := List.mem_append.mp mem
    · have closed := h.toldClose ⟨f, List.mem_append_left _ old, closes⟩
      refine h.toldEarly ⟨f, old, closes⟩ ((moves.emits past).resolve_right fun live => ?_)
      rw [h.target.closed closed] at live
      cases live
    · exact ((frames f new).2.2.2.2.2 closes).2 past
  · rintro ⟨f, mem, closes⟩
    rw [List.append_assoc] at mem
    obtain old | mem := List.mem_append.mp mem
    · exact moves.closed (h.toldClose ⟨f, List.mem_append_left _ old, closes⟩)
    · obtain new | heard := List.mem_append.mp mem
      · exact ((frames f new).2.2.2.2.2 closes).1
      · exact moves.closed (h.toldClose ⟨f, List.mem_append_right _ heard, closes⟩)
  · rintro ⟨f, mem, fails⟩
    rw [List.append_assoc] at mem
    have told : (∃ f ∈ d.toHub ++ d.hubHeard, f.fails = true) → effect.self.closed = true := by
      intro old
      obtain ⟨unopened, _⟩ | closed := h.toldError old
      · exact absurd (opened.symm.trans unopened) Bool.noConfusion
      · exact moves.closed closed
    obtain old | mem := List.mem_append.mp mem
    · exact .inr (told ⟨f, List.mem_append_left _ old, fails⟩)
    · obtain new | heard := List.mem_append.mp mem
      · exact .inr ((frames f new).2.2.2.2.1 fails)
      · exact .inr (told ⟨f, List.mem_append_right _ heard, fails⟩)
  · intro listed
    obtain ⟨listed, kept⟩ := (Bool.and_eq_true _ _).mp listed
    refine ⟨opened, ?_⟩
    by_contra closed
    obtain before | removed := moves.closes (by simpa using closed)
    · rw [(h.agentListed listed).2] at before
      cases before
    · rw [removed] at kept
      cases kept
  · intro _ unlisted
    cases removed : effect.removed with
    | true => exact moves.removed removed
    | false =>
      rw [removed, Bool.not_false, Bool.and_true] at unlisted
      exact moves.destroyed (h.unlisted opened unlisted)

theorem Sound.opensNothing (h : Sound o d) (opened : d.opened = true) : ∀ f ∈ d.toAgent, f.opens = false := by
  intro f mem
  by_contra opens
  rw [(h.opening ⟨f, mem, by simpa using opens⟩).1] at opened
  cases opened

theorem Sound.targetMoves (h : Sound o d) (opened : d.opened = true) {new : Bytes} {effect : Effect Target}
    (moves : d.target.Moves new effect) {event : Target.Event} (rests : d.target.Rests event effect)
    (emits : o → effect.self.readable = .emitted → d.target.readable = .emitted ∨ d.target.coming = [] ∧ new = []) :
    Sound o { d with
      target := effect.self
      toHub := d.toHub ++ effect.sends
      agentListed := d.agentListed && !effect.removed } := by
  refine h.agentStep opened moves emits (List.suffix_refl _) (fun _ mem => mem) ?_ ?_ ?_ (h.opensNothing opened)
  · rw [rests.landed]
    refine h.forward.stays (Dial.Takes.imp (fun _ mem _ => mem) ?_) id
    rintro (⟨alive, going⟩ | ⟨on, finished | alive⟩)
    · refine .inl ⟨moves.alive alive, ?_⟩
      by_contra ending
      rw [rests.stays (by simpa using ending)] at going
      cases going
    · exact .inr ⟨on, (rests.finished finished).imp_right id⟩
    · exact .inr ⟨on, .inr (moves.alive alive)⟩
  · intro ending
    obtain before | past := rests.ending ending
    · exact (h.ending before).imp_left fun past => (moves.emitted past).1
    · exact .inl past
  · intro closes
    rw [h.closeHeard closes]
    rfl

variable {frame : Frame} {rest : List Frame}

theorem Sound.agentHears (h : Sound o d) (head : d.toAgent = frame :: rest) (listed : d.agentListed = true)
    (open_ : o → frame.data ≠ [] → d.target.finished = false) : let effect := d.target.receive frame
    Sound o { d with
      target := effect.self
      toAgent := rest
      agentHeard := d.agentHeard ++ [frame]
      toHub := d.toHub ++ effect.sends
      agentListed := d.agentListed && !effect.removed } := by
  intro effect
  obtain ⟨opened, -⟩ := h.agentListed listed
  have inside : frame ∈ d.toAgent := by simp [head]
  have moves : d.target.Moves [] effect := .receive h.target frame
  have lands := d.target.receive_lands frame (rfl : _ = effect)
  obtain ⟨ending, stays, finished⟩ := d.target.receive_ending frame
  have still : effect.self.Takes o → d.target.Takes o := by
    rintro (⟨alive, going⟩ | ⟨on, past | alive⟩)
    · refine .inl ⟨moves.alive alive, ?_⟩
      by_contra before
      rw [stays (by simpa using before)] at going
      cases going
    · exact .inr ⟨on, .inl (finished.symm.trans past)⟩
    · exact .inr ⟨on, .inr (moves.alive alive)⟩
  have opensLater : ∀ f ∈ rest, f.opens = false := fun f mem => h.opensNothing opened f (by simp [head, mem])
  have forward := h.forward
  rw [head, dataOf_cons, List.append_assoc] at forward
  have takes : Dial.Takes o { d with toAgent := rest, target := effect.self } → d.Takes o :=
    Dial.Takes.imp (fun f mem _ => by simp [head, mem]) still
  refine h.agentStep opened moves (fun _ past => .inl ?_) (head ▸ List.suffix_cons frame rest) (moved_head head) ?_ ?_ ?_
    opensLater
  · rw [← d.target.receive_readable frame]
    exact past
  · obtain ⟨landed, live, going⟩ | ⟨landed, nothing | gone⟩ := lands
    · rw [landed]
      exact (forward.lands (.inr ⟨opened, .inl ⟨live, going⟩⟩)).stays takes id
    · rw [landed]
      rw [nothing] at forward
      exact forward.stays takes id
    · rw [landed]
      by_cases nothing : frame.data = []
      · rw [nothing] at forward
        exact forward.stays takes id
      · refine forward.stops ?_
        rintro (⟨f, mem, opens⟩ | ⟨-, ⟨alive, -⟩ | ⟨on, past | alive⟩⟩)
        · rw [opensLater f mem] at opens
          cases opens
        · exact absurd (gone.symm.trans alive) Bool.noConfusion
        · exact absurd ((finished.symm.trans past).symm.trans (open_ on nothing)) Bool.noConfusion
        · exact absurd (gone.symm.trans alive) Bool.noConfusion
  · intro past
    obtain before | ends := ending past
    · refine (h.ending before).imp (fun emitted => (moves.emitted emitted).1) fun ⟨closing, data⟩ => ⟨closing, ?_⟩
      rw [head, dataOf_cons] at data
      exact (List.append_eq_nil_iff.mp data).2
    · refine .inr ⟨h.endSent ⟨frame, inside, ends⟩, ?_⟩
      have after := h.toAgent
      rw [head] at after
      exact List.flatMap_eq_nil_iff.mpr fun f mem => ((List.pairwise_cons.mp after).1 f mem).2 ends
  · rintro ⟨f, mem, closes⟩
    obtain old | new := List.mem_append.mp mem
    · rw [h.closeHeard ⟨f, old, closes⟩]
      rfl
    · obtain rfl := List.mem_singleton.mp new
      cases f with
      | dial_close id =>
        have removed : effect.removed = true := d.target.receive_close id
        rw [removed, Bool.not_true, Bool.and_false]
      | dial_open _ _ | dial_opened _ | dial_data _ _ | dial_end _ | dial_error _ _ => cases closes

theorem Sound.opensFirst (h : Sound o d) (head : d.toAgent = frame :: rest) :
    ∀ f ∈ rest, f.opens = false ∧ (frame.ends = true → f.data = []) := by
  have after := h.toAgent
  rw [head] at after
  exact (List.pairwise_cons.mp after).1

/-- The agent drops a frame, because it has no target for it or refuses to open one. For the runs that the flag is for, no data
comes to a target that has finished. -/
theorem Sound.agentDrops (h : Sound o d) (head : d.toAgent = frame :: rest)
    (lost : frame.data ≠ [] → d.opened = false ∨ d.target.destroyed = true ∧ (o → d.target.finished = false))
    (closes : frame.closes = true → d.agentListed = false) {replies : List Frame}
    (reply : ∀ f ∈ replies, d.opened = false ∧ f.opens = false ∧ f.data = [] ∧ f.ends = false ∧ f.closes = false) :
    Sound o { d with
      toAgent := rest
      agentHeard := d.agentHeard ++ [frame]
      toHub := d.toHub ++ replies } := by
  have first := h.opensFirst head
  have opensLater : ∀ f ∈ rest, f.opens = false := fun f mem => (first f mem).1
  have inside : ∀ f ∈ rest, f ∈ d.toAgent := by
    intro f mem
    simp [head, mem]
  have silent : dataOf replies = [] := List.flatMap_eq_nil_iff.mpr fun f mem => (reply f mem).2.2.1
  have forward := h.forward
  rw [head, dataOf_cons, List.append_assoc] at forward
  refine { h with
    forward := ?_
    backward := ?_
    sizes := ?_
    toAgent := ?_
    opening := fun ⟨f, mem, opens⟩ => absurd (opens.symm.trans (opensLater f mem)) Bool.noConfusion
    endSent := fun ⟨f, mem, ends⟩ => h.endSent ⟨f, inside f mem, ends⟩
    ending := ?_
    closeSent := fun ⟨f, mem, closes⟩ => h.closeSent ⟨f, moved_head head f mem, closes⟩
    closeHeard := ?_
    toHub := ?_
    afterEnd := ?_
    toldEnd := ?_
    toldEarly := ?_
    toldClose := ?_
    toldError := ?_ }
  · by_cases nothing : frame.data = []
    · rw [nothing] at forward
      exact forward.stays (Dial.Takes.imp (fun f mem _ => inside f mem) id) id
    · refine forward.stops ?_
      rintro (⟨f, mem, opens⟩ | ⟨opened, takes⟩)
      · rw [opensLater f mem] at opens
        cases opens
      · obtain unopened | ⟨gone, going⟩ := lost nothing
        · exact absurd (unopened.symm.trans opened) Bool.noConfusion
        · obtain ⟨alive, -⟩ | ⟨on, past | alive⟩ := takes
          · exact absurd (gone.symm.trans alive) Bool.noConfusion
          · exact absurd ((going on).symm.trans past) Bool.noConfusion
          · exact absurd (gone.symm.trans alive) Bool.noConfusion
  · rw [dataOf_append, silent, List.append_nil]
    exact h.backward
  · intro f mem
    obtain mem | mem := List.mem_append.mp mem
    · exact h.sizes f (List.mem_append_left _ (inside f mem))
    · obtain old | new := List.mem_append.mp mem
      · exact h.sizes f (List.mem_append_right _ old)
      · rw [(reply f new).2.2.1]
        exact Nat.zero_le _
  · have after := h.toAgent
    rw [head] at after
    exact (List.pairwise_cons.mp after).2
  · intro ending
    refine (h.ending ending).imp_right fun ⟨closing, data⟩ => ⟨closing, ?_⟩
    rw [head, dataOf_cons] at data
    exact (List.append_eq_nil_iff.mp data).2
  · rintro ⟨f, mem, closed⟩
    obtain old | new := List.mem_append.mp mem
    · exact h.closeHeard ⟨f, old, closed⟩
    · obtain rfl := List.mem_singleton.mp new
      exact closes closed
  · intro f mem
    obtain old | new := List.mem_append.mp mem
    · exact h.toHub f old
    · exact (reply f new).2.1
  · intro on
    refine List.pairwise_append.mpr ⟨h.afterEnd on, ?_, fun f _ g new _ => (reply g new).2.2.1⟩
    exact List.pairwise_of_forall_mem_list fun f _ g new _ => (reply g new).2.2.1
  · rintro ⟨f, mem, ends⟩
    obtain old | new := List.mem_append.mp mem
    · exact h.toldEnd ⟨f, old, ends⟩
    · exact absurd (ends.symm.trans (reply f new).2.2.2.1) Bool.noConfusion
  · rintro ⟨f, mem, closes⟩
    obtain old | new := List.mem_append.mp mem
    · exact h.toldEarly ⟨f, old, closes⟩
    · exact absurd (closes.symm.trans (reply f new).2.2.2.2) Bool.noConfusion
  · rintro ⟨f, mem, closes⟩
    rw [List.append_assoc] at mem
    obtain old | mem := List.mem_append.mp mem
    · exact h.toldClose ⟨f, List.mem_append_left _ old, closes⟩
    · obtain new | heard := List.mem_append.mp mem
      · exact absurd (closes.symm.trans (reply f new).2.2.2.2) Bool.noConfusion
      · exact h.toldClose ⟨f, List.mem_append_right _ heard, closes⟩
  · rintro ⟨f, mem, fails⟩
    rw [List.append_assoc] at mem
    have before : (∃ f ∈ d.toHub ++ d.hubHeard, f.fails = true) →
        (d.opened = false ∧ ∀ f ∈ rest, f.opens = false) ∨ d.target.closed = true := fun old =>
      (h.toldError old).imp_left fun ⟨unopened, _⟩ => ⟨unopened, opensLater⟩
    obtain old | mem := List.mem_append.mp mem
    · exact before ⟨f, List.mem_append_left _ old, fails⟩
    · obtain new | heard := List.mem_append.mp mem
      · exact .inl ⟨(reply f new).1, opensLater⟩
      · exact before ⟨f, List.mem_append_right _ heard, fails⟩

theorem Sound.agentOpens (h : Sound o d) (head : d.toAgent = frame :: rest) (opens : frame.opens = true) :
    Sound o { d with
      opened := true
      toAgent := rest
      agentHeard := d.agentHeard ++ [frame]
      agentListed := true } := by
  have first := h.opensFirst head
  have opensLater : ∀ f ∈ rest, f.opens = false := fun f mem => (first f mem).1
  have inside : ∀ f ∈ rest, f ∈ d.toAgent := by
    intro f mem
    simp [head, mem]
  obtain ⟨unopened, unheard⟩ := h.opening ⟨frame, by simp [head], opens⟩
  have fresh := h.fresh unopened
  have open_ : d.target.closed = false := by rw [fresh]; rfl
  have nothing : frame.data = [] ∧ frame.closes = false := by
    cases frame with
    | dial_open _ _ => exact ⟨rfl, rfl⟩
    | dial_opened _ | dial_data _ _ | dial_end _ | dial_error _ _ | dial_close _ => cases opens
  have forward := h.forward
  rw [head, dataOf_cons, nothing.1, List.nil_append] at forward
  refine { h with
    fresh := nofun
    forward := ?_
    sizes := ?_
    toAgent := ?_
    opening := fun ⟨f, mem, opens⟩ => absurd (opens.symm.trans (opensLater f mem)) Bool.noConfusion
    endSent := fun ⟨f, mem, ends⟩ => h.endSent ⟨f, inside f mem, ends⟩
    ending := ?_
    closeSent := fun ⟨f, mem, closes⟩ => h.closeSent ⟨f, moved_head head f mem, closes⟩
    closeHeard := ?_
    toldError := ?_
    agentListed := fun _ => ⟨rfl, open_⟩
    unlisted := nofun }
  · exact forward.stays (fun _ => .inl ⟨frame, by simp [head], opens⟩) id
  · intro f mem
    obtain mem | mem := List.mem_append.mp mem
    · exact h.sizes f (List.mem_append_left _ (inside f mem))
    · exact h.sizes f (List.mem_append_right _ mem)
  · have after := h.toAgent
    rw [head] at after
    exact (List.pairwise_cons.mp after).2
  · rw [fresh]
    nofun
  · rintro ⟨f, mem, closes⟩
    rw [unheard, List.nil_append, List.mem_singleton] at mem
    subst mem
    exact absurd (closes.symm.trans nothing.2) Bool.noConfusion
  · intro told
    obtain ⟨_, none⟩ | closed := h.toldError told
    · exact absurd (opens.symm.trans (none frame (by simp [head]))) Bool.noConfusion
    · exact absurd (closed.symm.trans open_) Bool.noConfusion

theorem Sound.connect {id : String} (valid : BoxRegistry.validIdentity id = true) (isOpen : Bool) : Sound o {
      id
      stream := .connect id
      opened := false
      target := .connect id
      toAgent := if isOpen then [.dial_open id 8080] else []
      toHub := []
      agentHeard := []
      hubHeard := []
      hubListed := true
      agentListed := false } := by
  have requests : ∀ f ∈ if isOpen then [Frame.dial_open id 8080] else [], f = .dial_open id 8080 := by
    cases isOpen
    · exact List.forall_mem_nil _
    · exact fun f => List.mem_singleton.mp
  have silent : dataOf (if isOpen then [Frame.dial_open id 8080] else []) = [] :=
    List.flatMap_eq_nil_iff.mpr fun f mem => by rw [requests f mem]; rfl
  refine
    { valid
      streamId := rfl
      targetId := rfl
      stream := ⟨List.forall_mem_nil _, nofun, nofun, nofun⟩
      target := ⟨List.forall_mem_nil _, fun ended => absurd rfl ended, nofun, nofun, nofun, nofun⟩
      fresh := fun _ => rfl
      forward := ?_
      backward := .init
      sizes := ?_
      toAgent := ?_
      opening := fun _ => ⟨rfl, rfl⟩
      endSent := ?_
      ending := nofun
      closeSent := ?_
      closeHeard := by simp
      toHub := List.forall_mem_nil _
      afterEnd := fun _ => List.Pairwise.nil
      emitted := fun _ => nofun
      toldEnd := by simp
      ended := fun ended => absurd rfl ended
      whole := fun _ => nofun
      toldEarly := by simp
      toldClose := by simp
      toldError := by simp
      heard := by simp
      hubListed := rfl
      agentListed := nofun
      unlisted := nofun }
  · dsimp only
    rw [silent]
    exact .init
  · intro f mem
    rw [List.append_nil] at mem
    rw [requests f mem]
    exact Nat.zero_le _
  · dsimp only
    cases isOpen
    · exact List.Pairwise.nil
    · exact List.pairwise_singleton _ _
  · rintro ⟨f, mem, ends⟩
    rw [requests f mem] at ends
    cases ends
  · rintro ⟨f, mem, closes⟩
    rw [List.append_nil] at mem
    rw [requests f mem] at closes
    cases closes

end
end BoxDial
