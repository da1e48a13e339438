import Oyster.BoxDial

/-! What one step of a stream of the hub, or of a connection of the agent, does to the bytes that
are on their way: they move on, or are dropped together with all that follows them. -/
namespace BoxDial
open Delivery

/-! ### Frames -/

namespace Frame

def data : Frame → Bytes
  | .dial_data _ data => Base64.decode data
  | _ => []

def opens : Frame → Bool
  | .dial_open .. => true
  | _ => false

def ends : Frame → Bool
  | .dial_end _ => true
  | _ => false

def fails : Frame → Bool
  | .dial_error .. => true
  | _ => false

def closes : Frame → Bool
  | .dial_close _ => true
  | _ => false

end Frame

def dataOf (frames : List Frame) : Bytes := frames.flatMap Frame.data

@[simp] theorem dataOf_nil : dataOf [] = [] := rfl

@[simp] theorem dataOf_cons (frame : Frame) (frames : List Frame) :
    dataOf (frame :: frames) = frame.data ++ dataOf frames := rfl

@[simp] theorem dataOf_append (as bs : List Frame) : dataOf (as ++ bs) = dataOf as ++ dataOf bs :=
  List.flatMap_append

@[simp] theorem data_encoded (id : String) (part : Bytes) : (Frame.dial_data id (Base64.encode part)).data = part :=
  Base64.decode_encode part

theorem flatten_chunk (chunk : Bytes) : (parts DIAL_CHUNK_BYTES chunk).flatten = chunk :=
  flatten_parts (by decide) chunk

/-! ### The hub -/

/-- The bytes of a stream that have yet to be sent. -/
def Writing.pending : Writing → Bytes
  | .sending parts queue => parts.flatten ++ queue.flatten
  | .idle | .final | .finished => []

def Writing.parts : Writing → List Bytes
  | .sending parts _ => parts
  | .idle | .final | .finished => []

/-- `_final` has been called. -/
def Writing.closing : Writing → Bool
  | .final | .finished => true
  | .idle | .sending .. => false

namespace BoxDialStream

/-- Nothing that was written has been dropped. -/
def Intact (stream : BoxDialStream) : Prop := stream.destroyed = false ∨ stream.writing = .finished

structure Own (stream : BoxDialStream) : Prop where
  small : ∀ part ∈ stream.writing.parts, part.length ≤ DIAL_CHUNK_BYTES
  closing : stream.writing.closing = true → stream.ending = true
  emptied : stream.readable = .emitted → stream.buffer = []
  past : stream.writing = .finished → stream.readable = .emitted → stream.destroyed = true

inductive Sends (stream : BoxDialStream) : List Frame → Prop
  | nothing : Sends stream []
  | data {part : Bytes} : part.length ≤ DIAL_CHUNK_BYTES →
      Sends stream [.dial_data stream.streamId (Base64.encode part)]
  | ends : stream.writing.closing = true → Sends stream [.dial_end stream.streamId]
  | closes : stream.destroyed = true → Sends stream [.dial_close stream.streamId]

structure Moves (stream : BoxDialStream) (new : Bytes) (effect : Effect BoxDialStream) : Prop where
  streamId : effect.self.streamId = stream.streamId
  sends : Sends effect.self effect.sends
  written : effect.self.written = stream.written ++ new
  carried : dataOf effect.sends ++ effect.self.writing.pending <+: stream.writing.pending ∨
    stream.Intact ∧ dataOf effect.sends ++ effect.self.writing.pending <+: stream.writing.pending ++ new
  kept : effect.self.Intact →
    stream.Intact ∧ dataOf effect.sends ++ effect.self.writing.pending = stream.writing.pending ++ new
  closing : stream.writing.closing = true → effect.self.writing.closing = true ∧ new = []
  destroyed : stream.destroyed = true → effect.self.destroyed = true
  removed : effect.removed = (effect.self.destroyed && !stream.destroyed)
  own : effect.self.Own

variable {isOpen : Bool} {stream : BoxDialStream} {new part : Bytes} {parts queue : List Bytes}

def wrote (stream : BoxDialStream) (new : Bytes) : BoxDialStream := { stream with written := stream.written ++ new }

@[simp] theorem wrote_nil (stream : BoxDialStream) : stream.wrote [] = stream := by simp [wrote]

theorem destroy_gone (stream : BoxDialStream) (gone : stream.destroyed = true) (error : Option CodeUnits) :
    stream.destroy isOpen error = { self := stream } := if_pos gone

theorem destroy_live (stream : BoxDialStream) (live : stream.destroyed = false) (error : Option CodeUnits) :
    stream.destroy isOpen error =
      { self := { stream with destroyed := true, error, writing := stream.writing.dropped }
        sends := if !stream.remoteClosed && isOpen then [.dial_close stream.streamId] else []
        removed := true } := by
  rw [destroy, live]
  rfl

theorem closing_frames (stream : BoxDialStream) (gone : stream.destroyed = true) (c : Bool) :
    Sends stream (if c then [.dial_close stream.streamId] else []) ∧
      dataOf (if c then [.dial_close stream.streamId] else []) = [] := by
  cases c
  · exact ⟨.nothing, rfl⟩
  · exact ⟨.closes gone, rfl⟩

theorem pending_dropped (w : Writing) : w.dropped.pending <+: w.pending := by
  cases w with
  | sending parts queue => simp [Writing.dropped, Writing.pending]
  | idle | final | finished => exact List.prefix_refl _

theorem closing_dropped (w : Writing) : w.dropped.closing = w.closing := by
  cases w <;> rfl

theorem parts_dropped (w : Writing) : w.dropped.parts = w.parts := by
  cases w <;> rfl

theorem dropped_eq_finished {w : Writing} : w.dropped = .finished ↔ w = .finished := by
  cases w <;> simp [Writing.dropped]

theorem Own.destroy (own : stream.Own) (error : Option CodeUnits) :
    Own { stream with destroyed := true, error, writing := stream.writing.dropped } where
  small := by
    rw [parts_dropped]
    exact own.small
  closing := by
    rw [closing_dropped]
    exact own.closing
  emptied := own.emptied
  past := fun _ _ => rfl

theorem Moves.quiet (own : stream.Own) : stream.Moves [] { self := stream } where
  streamId := rfl
  sends := .nothing
  written := (List.append_nil _).symm
  carried := .inl (List.prefix_refl _)
  kept := fun intact => ⟨intact, (List.append_nil _).symm⟩
  closing := fun closing => ⟨closing, rfl⟩
  destroyed := id
  removed := by simp
  own := own

theorem Moves.destroy (own : stream.Own) (error : Option CodeUnits) :
    stream.Moves [] (stream.destroy isOpen error) := by
  cases live : stream.destroyed with
  | true =>
    rw [destroy_gone _ live]
    exact .quiet own
  | false =>
    rw [destroy_live _ live]
    obtain ⟨sends, data⟩ := closing_frames
      { stream with destroyed := true, error, writing := stream.writing.dropped } rfl
      (!stream.remoteClosed && isOpen)
    refine ⟨rfl, sends, (List.append_nil _).symm, .inl ?_, ?_, ?_, fun _ => rfl, by simp [live], own.destroy error⟩
    · exact data ▸ pending_dropped stream.writing
    · rintro (alive | past)
      · cases alive
      · have finished := dropped_eq_finished.mp past
        refine ⟨.inr finished, ?_⟩
        rw [data, finished]
        rfl
    · rw [closing_dropped]
      exact fun closing => ⟨closing, rfl⟩

theorem Moves.fails (own : stream.Own) (active : stream.writing.closing = false) (error : Option CodeUnits) :
    stream.Moves new ({ stream.wrote new with writing := .idle }.destroy isOpen error) := by
  have own' : Own { stream.wrote new with writing := .idle } :=
    ⟨List.forall_mem_nil _, nofun, own.emptied, nofun⟩
  have nothing : ([] : Bytes) <+: stream.writing.pending := List.nil_prefix
  cases live : stream.destroyed with
  | true =>
    rw [destroy_gone { stream.wrote new with writing := .idle } live]
    refine ⟨rfl, .nothing, rfl, .inl nothing, ?_, by simp [active], id, by simp [wrote], own'⟩
    rintro (alive | past)
    · exact absurd alive (by simp [wrote, live])
    · cases past
  | false =>
    rw [destroy_live { stream.wrote new with writing := .idle } live]
    obtain ⟨sends, data⟩ := closing_frames { stream.wrote new with destroyed := true, error, writing := .idle } rfl
      (!stream.remoteClosed && isOpen)
    refine ⟨rfl, sends, rfl, .inl ?_, ?_, by simp [active], fun _ => rfl, by simp [live], own'.destroy error⟩
    · exact data ▸ nothing
    · rintro (alive | past)
      · cases alive
      · cases past

theorem Moves.sendPart (own : stream.Own) (active : stream.writing.closing = false)
    (same : stream.writing.pending ++ new = part ++ parts.flatten ++ queue.flatten)
    (small : ∀ p ∈ part :: parts, p.length ≤ DIAL_CHUNK_BYTES) (live : new = [] ∨ stream.destroyed = false) :
    stream.Moves new ((stream.wrote new).sendPart isOpen part parts queue) := by
  obtain ⟨short, small⟩ := List.forall_mem_cons.mp small
  unfold BoxDialStream.sendPart
  split
  · have carried : dataOf [.dial_data stream.streamId (Base64.encode part)] ++ (parts.flatten ++ queue.flatten) =
        stream.writing.pending ++ new := by
      rw [same]
      simp
    have own' : Own { stream.wrote new with writing := .sending parts queue } := ⟨small, nofun, own.emptied, nofun⟩
    refine ⟨rfl, .data short, rfl, ?_, ?_, by simp [active], id, by simp [wrote], own'⟩
    · obtain rfl | alive := live
      · rw [List.append_nil] at carried
        exact .inl (carried ▸ List.prefix_refl _)
      · exact .inr ⟨.inl alive, carried ▸ List.prefix_refl _⟩
    · rintro (alive | past)
      · exact ⟨.inl alive, carried⟩
      · cases past
  · exact .fails own active _

theorem Moves.nextChunk (own : stream.Own) (active : stream.writing.closing = false)
    (same : stream.writing.pending ++ new = queue.flatten) (live : new = [] ∨ stream.destroyed = false) :
    stream.Moves new ((stream.wrote new).nextChunk isOpen queue) := by
  induction queue with
  | nil =>
    obtain ⟨none, rfl⟩ := List.append_eq_nil_iff.mp same
    refine ⟨rfl, .nothing, rfl, .inl List.nil_prefix, ?_, by simp [active], id, by simp [wrote, BoxDialStream.nextChunk],
      ⟨List.forall_mem_nil _, nofun, own.emptied, nofun⟩⟩
    rintro (alive | past)
    · exact ⟨.inl alive, by rw [none]; rfl⟩
    · cases past
  | cons chunk queue ih =>
    have whole := flatten_chunk chunk
    have small : ∀ p ∈ Delivery.parts DIAL_CHUNK_BYTES chunk, p.length ≤ DIAL_CHUNK_BYTES := fun p => length_part
    rw [List.flatten_cons, ← whole] at same
    rw [BoxDialStream.nextChunk]
    cases split : Delivery.parts DIAL_CHUNK_BYTES chunk with
    | nil =>
      rw [split] at same
      exact ih same
    | cons part parts =>
      rw [split] at same small
      exact .sendPart own active same small live

theorem Moves.partSent (own : stream.Own) (same : stream.writing = .sending parts queue) (failed : Option CodeUnits) :
    stream.Moves [] (stream.partSent isOpen parts queue failed) := by
  have active : stream.writing.closing = false := by rw [same]; rfl
  have pending : stream.writing.pending ++ [] = parts.flatten ++ queue.flatten := by
    rw [same, List.append_nil]
    rfl
  have small := own.small
  rw [same] at small
  cases failed with
  | some error =>
    have step : stream.Moves [] ({ stream.wrote [] with writing := .idle }.destroy isOpen (some error)) :=
      .fails own active _
    simpa [BoxDialStream.partSent] using step
  | none =>
    cases parts with
    | nil =>
      have step : stream.Moves [] ((stream.wrote []).nextChunk isOpen queue) := .nextChunk own active pending (.inl rfl)
      simpa [BoxDialStream.partSent] using step
    | cons part parts =>
      have step : stream.Moves [] ((stream.wrote []).sendPart isOpen part parts queue) :=
        .sendPart own active pending small (.inl rfl)
      simpa [BoxDialStream.partSent] using step

theorem Moves.write (own : stream.Own) (ending : stream.ending = false) (live : stream.destroyed = false)
    (chunk : Bytes) : stream.Moves chunk (stream.write isOpen chunk) := by
  have active : stream.writing.closing = false := by
    by_contra closing
    rw [own.closing (by simpa using closing)] at ending
    cases ending
  unfold BoxDialStream.write
  cases same : stream.writing with
  | sending parts queue =>
    have pending : Writing.pending (.sending parts (queue ++ [chunk])) = stream.writing.pending ++ chunk := by
      simp [same, Writing.pending]
    have small := own.small
    rw [same] at small
    refine ⟨rfl, .nothing, rfl, .inr ⟨.inl live, pending ▸ List.prefix_refl _⟩, fun _ => ⟨.inl live, pending⟩,
      by simp [active], id, by simp, ⟨small, nofun, own.emptied, nofun⟩⟩
  | idle =>
    have pending : stream.writing.pending ++ chunk = [chunk].flatten := by simp [same, Writing.pending]
    have step : stream.Moves chunk ((stream.wrote chunk).nextChunk isOpen [chunk]) :=
      .nextChunk own active pending (.inr live)
    simpa [wrote, same] using step
  | final | finished =>
    rw [same] at active
    cases active

variable {effect : Effect BoxDialStream} {before : BoxDialStream}

theorem Moves.after (h : stream.Moves [] effect) (streamId : stream.streamId = before.streamId)
    (written : stream.written = before.written) (writing : stream.writing = before.writing)
    (destroyed : stream.destroyed = before.destroyed) : before.Moves [] effect where
  streamId := h.streamId.trans streamId
  sends := h.sends
  written := written ▸ h.written
  carried := by
    have same : before.Intact = stream.Intact := by rw [Intact, Intact, destroyed, writing]
    rw [same, ← writing]
    exact h.carried
  kept := by
    have same : before.Intact = stream.Intact := by rw [Intact, Intact, destroyed, writing]
    rw [same, ← writing]
    exact h.kept
  closing := writing ▸ h.closing
  destroyed := destroyed ▸ h.destroyed
  removed := destroyed ▸ h.removed
  own := h.own

theorem Moves.closes (live : stream.destroyed = false) (empty : stream.writing.pending = [])
    (streamId : effect.self.streamId = stream.streamId) (written : effect.self.written = stream.written)
    (closing : effect.self.writing.closing = true) (frames : Sends effect.self effect.sends)
    (data : dataOf effect.sends = []) (removed : effect.removed = effect.self.destroyed) (own : effect.self.Own) :
    stream.Moves [] effect := by
  have pending : effect.self.writing.pending = [] := by
    cases same : effect.self.writing with
    | final | finished => rfl
    | idle | sending parts queue =>
      rw [same] at closing
      cases closing
  refine ⟨streamId, frames, written.trans (List.append_nil _).symm, .inl ?_, fun _ => ⟨.inl live, ?_⟩,
    fun _ => ⟨closing, rfl⟩, by simp [live], by simp [removed, live], own⟩
  · simp [pending, data]
  · simp [pending, data, empty]

theorem Moves.closing_data (h : stream.Moves new effect) (closing : stream.writing.closing = true) :
    dataOf effect.sends = [] := by
  have empty : stream.writing.pending = [] := by
    cases same : stream.writing with
    | final | finished => rfl
    | idle | sending parts queue =>
      rw [same] at closing
      cases closing
  have carried : dataOf effect.sends ++ effect.self.writing.pending <+: [] := by
    have carried := h.carried
    rw [(h.closing closing).2, empty] at carried
    exact carried.elim id (·.2)
  exact (List.append_eq_nil_iff.mp (List.prefix_nil.mp carried)).1

theorem Moves.finish (own : stream.Own) (live : stream.destroyed = false) (ending : stream.ending = true)
    (empty : stream.writing.pending = []) : stream.Moves [] (stream.finish isOpen) := by
  by_cases emitted : stream.readable = .emitted
  · have own' : Own { stream with writing := .finished, destroyed := true, error := none } :=
      ⟨List.forall_mem_nil _, fun _ => ending, own.emptied, fun _ _ => rfl⟩
    have same : stream.finish isOpen = ({ stream with writing := .finished } : BoxDialStream).destroy isOpen none :=
      if_pos emitted
    rw [same, destroy_live { stream with writing := .finished } live]
    obtain ⟨sends, data⟩ := closing_frames { stream with writing := .finished, destroyed := true, error := none } rfl
      (!stream.remoteClosed && isOpen)
    exact .closes live empty rfl rfl rfl sends data rfl own'
  · have own' : Own { stream with writing := .finished } :=
      ⟨List.forall_mem_nil _, fun _ => ending, own.emptied, fun _ done => absurd done emitted⟩
    have same : stream.finish isOpen = { self := { stream with writing := .finished } } := if_neg emitted
    rw [same]
    exact .closes live empty rfl rfl rfl .nothing rfl live.symm own'

theorem Moves.final (own : stream.Own) (live : stream.destroyed = false) (ending : stream.ending = true)
    (idle : stream.writing = .idle) : stream.Moves [] (stream.final isOpen) := by
  have empty : stream.writing.pending = [] := by rw [idle]; rfl
  unfold BoxDialStream.final
  split
  · exact .closes live empty rfl rfl rfl (.ends rfl) rfl live.symm
      ⟨List.forall_mem_nil _, fun _ => ending, own.emptied, nofun⟩
  · exact .finish own live ending empty

theorem Moves.finalSent (own : stream.Own) (final : stream.writing = .final) (failed : Option CodeUnits) :
    stream.Moves [] (stream.finalSent isOpen failed) := by
  have closing : stream.writing.closing = true := by rw [final]; rfl
  have empty : stream.writing.pending = [] := by rw [final]; rfl
  unfold BoxDialStream.finalSent
  split
  · exact .quiet own
  · rename_i live
    cases failed with
    | some error => exact .destroy own (some error)
    | none => exact .finish own (by simpa using live) (own.closing closing) empty

theorem Moves.emitEnd (own : stream.Own) (empty : stream.buffer = []) : stream.Moves [] (stream.emitEnd isOpen) := by
  by_cases finished : stream.writing = .finished
  · have same : stream.emitEnd isOpen = ({ stream with readable := .emitted } : BoxDialStream).destroy isOpen none :=
      if_pos finished
    rw [same]
    obtain live | live := Bool.eq_false_or_eq_true stream.destroyed
    · rw [destroy_gone { stream with readable := .emitted } live]
      have own : Own { stream with readable := .emitted } :=
        ⟨own.small, own.closing, fun _ => empty, fun _ _ => live⟩
      exact Moves.after (.quiet own) rfl rfl rfl rfl
    · rw [destroy_live { stream with readable := .emitted } live, finished]
      obtain ⟨sends, data⟩ := closing_frames
        { stream with readable := .emitted, writing := .finished, destroyed := true, error := none } rfl
        (!stream.remoteClosed && isOpen)
      have own : Own { stream with readable := .emitted, writing := .finished, destroyed := true, error := none } :=
        ⟨List.forall_mem_nil _, fun _ => own.closing (by rw [finished]; rfl), fun _ => empty, fun _ _ => rfl⟩
      exact .closes live (by rw [finished]; rfl) rfl rfl rfl sends data rfl own
  · have same : stream.emitEnd isOpen = { self := { stream with readable := .emitted } } := if_neg finished
    rw [same]
    exact Moves.after (.quiet ⟨own.small, own.closing, fun _ => empty, fun past => absurd past finished⟩) rfl rfl rfl rfl

/-- What was pushed is read in order, and only `push(null)` ends the readable side. -/
structure Reads (stream : BoxDialStream) (effect : Effect BoxDialStream) : Prop where
  landed : effect.self.read ++ effect.self.buffer = stream.read ++ stream.buffer
  readable : effect.self.readable = .flowing ↔ stream.readable = .flowing

theorem Reads.destroy (stream : BoxDialStream) (error : Option CodeUnits) :
    stream.Reads (stream.destroy isOpen error) := by
  cases live : stream.destroyed with
  | true =>
    rw [destroy_gone _ live]
    exact ⟨rfl, Iff.rfl⟩
  | false =>
    rw [destroy_live _ live]
    exact ⟨rfl, Iff.rfl⟩

theorem Reads.after (h : stream.Reads effect) (read : stream.read ++ stream.buffer = before.read ++ before.buffer)
    (readable : stream.readable = .flowing ↔ before.readable = .flowing) : before.Reads effect :=
  ⟨h.landed.trans read, h.readable.trans readable⟩

theorem Reads.sendPart (stream : BoxDialStream) (part : Bytes) (parts queue : List Bytes) :
    stream.Reads (stream.sendPart isOpen part parts queue) := by
  unfold BoxDialStream.sendPart
  split
  · exact ⟨rfl, Iff.rfl⟩
  · exact .after (.destroy _ _) rfl Iff.rfl

theorem Reads.nextChunk (stream : BoxDialStream) (queue : List Bytes) :
    stream.Reads (stream.nextChunk isOpen queue) := by
  induction queue with
  | nil => exact ⟨rfl, Iff.rfl⟩
  | cons chunk queue ih =>
    rw [BoxDialStream.nextChunk]
    split
    · exact ih
    · exact .sendPart stream _ _ queue

theorem Reads.finish (stream : BoxDialStream) : stream.Reads (stream.finish isOpen) := by
  unfold BoxDialStream.finish
  extract_lets closed
  split
  · exact .after (.destroy closed none) rfl Iff.rfl
  · exact ⟨rfl, Iff.rfl⟩

theorem handle_moves (own : stream.Own) {event : Event} (h : stream.handle isOpen event = some effect) :
    (∃ new, stream.Moves new effect) ∧ stream.Reads effect := by
  cases event with
  | write chunk =>
    obtain ⟨guard, same⟩ := Option.ite_none_left_eq_some.mp h
    cases same
    obtain ⟨ending, live⟩ : stream.ending = false ∧ stream.destroyed = false := by simpa using guard
    refine ⟨⟨chunk, .write own ending live chunk⟩, ?_⟩
    unfold BoxDialStream.write
    extract_lets wrote
    split
    · exact ⟨rfl, Iff.rfl⟩
    · exact .after (.nextChunk wrote _) rfl Iff.rfl
    · exact .after (.nextChunk wrote _) rfl Iff.rfl
    · exact .after (.nextChunk wrote _) rfl Iff.rfl
  | endWrites =>
    obtain ⟨_, same⟩ := Option.ite_none_left_eq_some.mp h
    cases same
    exact ⟨⟨[], .after (.quiet ⟨own.small, fun _ => rfl, own.emptied, own.past⟩) rfl rfl rfl rfl⟩, rfl, Iff.rfl⟩
  | read count =>
    cases h
    refine ⟨⟨[], .after (.quiet ⟨own.small, own.closing, ?_, own.past⟩) rfl rfl rfl rfl⟩, ?_, Iff.rfl⟩
    · intro emitted
      simp [own.emptied emitted]
    · simp
  | destroy error =>
    cases h
    exact ⟨⟨[], .destroy own error⟩, .destroy stream error⟩
  | partSent failed =>
    cases same : stream.writing with
    | sending parts queue =>
      simp only [handle, same, Option.some.injEq] at h
      subst h
      refine ⟨⟨[], .partSent own same failed⟩, ?_⟩
      cases failed with
      | some error => exact .after (.destroy _ _) rfl Iff.rfl
      | none =>
        cases parts with
        | nil => exact .nextChunk stream queue
        | cons part parts => exact .sendPart stream part parts queue
    | idle | final | finished => simp [handle, same] at h
  | final =>
    obtain ⟨guard, same⟩ := Option.ite_none_right_eq_some.mp h
    cases same
    obtain ⟨⟨ending, live⟩, idle⟩ : (stream.ending = true ∧ stream.destroyed = false) ∧ stream.writing = .idle := by
      simpa using guard
    refine ⟨⟨[], .final own live ending idle⟩, ?_⟩
    unfold BoxDialStream.final
    split
    · exact ⟨rfl, Iff.rfl⟩
    · exact .finish stream
  | finalSent failed =>
    obtain ⟨final, same⟩ := Option.ite_none_right_eq_some.mp h
    cases same
    refine ⟨⟨[], .finalSent own final failed⟩, ?_⟩
    unfold BoxDialStream.finalSent
    split
    · exact ⟨rfl, Iff.rfl⟩
    · cases failed with
      | some error => exact .destroy stream _
      | none => exact .finish stream
  | emitEnd =>
    obtain ⟨guard, same⟩ := Option.ite_none_right_eq_some.mp h
    cases same
    obtain ⟨⟨ended, empty⟩, _⟩ : (stream.readable = .ended ∧ stream.buffer = []) ∧ stream.error = none := by
      simpa using guard
    have readable : Readable.emitted = .flowing ↔ stream.readable = .flowing := by simp [ended]
    refine ⟨⟨[], .emitEnd own empty⟩, ?_⟩
    unfold BoxDialStream.emitEnd
    extract_lets emitted
    split
    · exact .after (.destroy emitted none) rfl readable
    · exact ⟨rfl, readable⟩

/-! #### Frames for the hub -/

theorem pushNull_ended (stream : BoxDialStream) : stream.pushNull.readable ≠ .flowing := by
  unfold pushNull
  split <;> simp_all

theorem Own.pushNull (own : stream.Own) : stream.pushNull.Own where
  small := own.small
  closing := own.closing
  emptied := by
    intro emitted
    refine own.emptied ?_
    unfold BoxDialStream.pushNull at emitted
    split at emitted
    · cases emitted
    · exact emitted
  past := by
    intro past emitted
    refine own.past past ?_
    unfold BoxDialStream.pushNull at emitted
    split at emitted
    · cases emitted
    · exact emitted

theorem Own.closed (own : stream.Own) : Own { stream with remoteClosed := true } :=
  ⟨own.small, own.closing, own.emptied, own.past⟩

theorem receive_data (id : String) (data : CodeUnits) : stream.receive isOpen (.dial_data id data) =
      if DIAL_CHUNK_BYTES < (Base64.decode data).length then
        stream.destroy isOpen (some (text "box dial chunk exceeds limit"))
      else stream.push isOpen (Base64.decode data) := rfl

theorem Moves.receive (own : stream.Own) (frame : Frame) : stream.Moves [] (stream.receive isOpen frame) := by
  cases frame with
  | dial_opened id => exact .after (.quiet ⟨own.small, own.closing, own.emptied, own.past⟩) rfl rfl rfl rfl
  | dial_data id data =>
    rw [receive_data]
    split
    · exact .destroy own _
    · unfold push
      split
      · exact .quiet own
      · split
        · exact .destroy own _
        · rename_i flowing
          have flowing : stream.readable = .flowing := not_not.mp flowing
          refine .after (.quiet ⟨own.small, own.closing, ?_, own.past⟩) rfl rfl rfl rfl
          rintro (emitted : stream.readable = .emitted)
          rw [flowing] at emitted
          cases emitted
  | dial_end id => exact .after (.quiet own.closed.pushNull) rfl rfl rfl rfl
  | dial_error id error => exact .after (.destroy own.closed _) rfl rfl rfl rfl
  | dial_close id => exact .after (.destroy own.closed.pushNull none) rfl rfl rfl rfl
  | dial_open id port => exact .quiet own

theorem destroyed_destroy (stream : BoxDialStream) (error : Option CodeUnits) :
    (stream.destroy isOpen error).self.destroyed = true := by
  cases live : stream.destroyed with
  | true =>
    rw [destroy_gone _ live]
    exact live
  | false =>
    rw [destroy_live _ live]

theorem receive_lands (stream : BoxDialStream) (frame : Frame) (h : stream.receive isOpen frame = effect) :
    (effect.self.read ++ effect.self.buffer = stream.read ++ stream.buffer ++ frame.data ∧
      (stream.readable = .flowing ∨ frame.data = [])) ∨
    (effect.self.read ++ effect.self.buffer = stream.read ++ stream.buffer ∧
      ¬(effect.self.readable = .flowing ∧ effect.self.destroyed = false)) := by
  have refused : ∀ error, stream.destroy isOpen error = effect →
      effect.self.read ++ effect.self.buffer = stream.read ++ stream.buffer ∧
        ¬(effect.self.readable = .flowing ∧ effect.self.destroyed = false) := by
    rintro error rfl
    exact ⟨(Reads.destroy stream error).landed, by simp [destroyed_destroy]⟩
  cases frame with
  | dial_opened id | dial_open id port =>
    subst h
    exact .inl ⟨(List.append_nil _).symm, .inr rfl⟩
  | dial_data id data =>
    rw [receive_data] at h
    split at h
    · exact .inr (refused _ h)
    · unfold push at h
      split at h
      · rename_i empty
        subst h
        exact .inl ⟨by simp [Frame.data, empty], .inr empty⟩
      · split at h
        · exact .inr (refused _ h)
        · rename_i flowing
          subst h
          exact .inl ⟨(List.append_assoc _ _ _).symm, .inl (not_not.mp flowing)⟩
  | dial_end id =>
    subst h
    exact .inr ⟨rfl, fun open_ => pushNull_ended _ open_.1⟩
  | dial_error id error =>
    subst h
    exact .inr ⟨(Reads.destroy _ _).landed, by simp [receive, destroyed_destroy]⟩
  | dial_close id =>
    subst h
    exact .inr ⟨(Reads.destroy _ _).landed, by simp [receive, destroyed_destroy]⟩

theorem receive_ended (stream : BoxDialStream) (frame : Frame)
    (ended : (stream.receive isOpen frame).self.readable ≠ .flowing) :
    stream.readable ≠ .flowing ∨ frame.ends = true ∨ frame.closes = true := by
  cases frame with
  | dial_opened id | dial_open id port => exact .inl ended
  | dial_data id data =>
    refine .inl fun flowing => ended ?_
    rw [receive_data]
    split
    · exact (Reads.destroy _ _).readable.mpr flowing
    · unfold push
      split
      · exact flowing
      · split
        · exact (Reads.destroy _ _).readable.mpr flowing
        · exact flowing
  | dial_end id => exact .inr (.inl rfl)
  | dial_error id error => exact .inl fun flowing => ended ((Reads.destroy _ _).readable.mpr flowing)
  | dial_close id => exact .inr (.inr rfl)

theorem receive_keeps_end (stream : BoxDialStream) (frame : Frame) (ended : stream.readable ≠ .flowing) :
    (stream.receive isOpen frame).self.readable ≠ .flowing := by
  have shut : ∀ error, (stream.destroy isOpen error).self.readable ≠ .flowing := fun error flowing =>
    ended ((Reads.destroy stream error).readable.mp flowing)
  cases frame with
  | dial_opened id | dial_open id port => exact ended
  | dial_data id data =>
    rw [receive_data]
    split
    · exact shut _
    · unfold push
      split
      · exact ended
      · exact shut _
  | dial_end id => exact pushNull_ended _
  | dial_error id error =>
    have shut := (@Reads.destroy isOpen { stream with remoteClosed := true }
      (some (if error = [] then text "box dial failed" else error))).readable
    exact fun flowing => ended (shut.mp flowing)
  | dial_close id =>
    have shut := (@Reads.destroy isOpen { stream with remoteClosed := true }.pushNull none).readable
    exact fun flowing => pushNull_ended _ (shut.mp flowing)

theorem receive_destroyed (stream : BoxDialStream) (frame : Frame) (told : frame.fails = true ∨ frame.closes = true) :
    (stream.receive isOpen frame).self.destroyed = true := by
  cases frame with
  | dial_error id error => exact destroyed_destroy _ _
  | dial_close id => exact destroyed_destroy _ _
  | dial_opened id | dial_open id port | dial_data id data | dial_end id => simp [Frame.fails, Frame.closes] at told

end BoxDialStream

/-! ### The agent -/

def Sending.parts : Sending → List Bytes
  | .idle => []
  | .capacity part parts => part :: parts
  | .sent parts => parts

namespace Target

def coming (target : Target) : Bytes :=
  target.sending.parts.flatten ++ if target.destroyed then [] else target.chunks.flatten ++ target.service.unread

structure Own (target : Target) : Prop where
  small : ∀ part ∈ target.sending.parts, part.length ≤ DIAL_CHUNK_BYTES
  ended : target.readable ≠ .flowing → target.service.ended = true ∧ target.service.unread = []
  emitted : target.readable = .emitted → target.chunks = [] ∧ target.ending = true
  finished : target.finished = true → target.writes = [] ∧ target.ending = true
  past : target.finished = true → target.readable = .emitted → target.destroyed = true
  closed : target.closed = true → target.destroyed = true

inductive Sends (target : Target) : List Frame → Prop
  | nothing : Sends target []
  | opened : Sends target [.dial_opened target.streamId]
  | data {part : Bytes} : part.length ≤ DIAL_CHUNK_BYTES →
      Sends target [.dial_data target.streamId (Base64.encode part)]
  | ends : target.readable = .emitted → Sends target [.dial_end target.streamId]
  | closes {frames : List Frame} : target.closed = true →
      (∀ f ∈ frames, (∃ error, f = .dial_error target.streamId error) ∨
        f = .dial_close target.streamId ∧ target.readable ≠ .emitted) →
      Sends target frames

structure Moves (target : Target) (new : Bytes) (effect : Effect Target) : Prop where
  streamId : effect.self.streamId = target.streamId
  sends : Sends effect.self effect.sends
  written : effect.self.service.written = target.service.written ++ new
  carried : dataOf effect.sends ++ effect.self.coming <+: target.coming ∨
    target.destroyed = false ∧ dataOf effect.sends ++ effect.self.coming <+: target.coming ++ new
  kept : effect.self.destroyed = false →
    target.destroyed = false ∧ dataOf effect.sends ++ effect.self.coming = target.coming ++ new
  emitted : target.readable = .emitted → effect.self.readable = .emitted ∧ new = []
  emits : effect.self.readable = .emitted → target.readable = .emitted ∨ target.destroyed = false
  destroyed : target.destroyed = true → effect.self.destroyed = true
  closed : target.closed = true → effect.self.closed = true
  closes : effect.self.closed = true → target.closed = true ∨ effect.removed = true
  removed : effect.removed = true → effect.self.destroyed = true
  own : effect.self.Own

structure Rests (target : Target) (event : Event) (effect : Effect Target) : Prop where
  landed : effect.self.service.received ++ effect.self.writes = target.service.received ++ target.writes
  ending : effect.self.ending = true → target.ending = true ∨ effect.self.readable = .emitted
  stays : target.ending = true → effect.self.ending = true
  finished : effect.self.finished = true → target.finished = true ∨ target.destroyed = false
  emitted : effect.self.readable = .emitted → target.readable = .emitted ∨ event = .emitEnd

variable {isOpen listed : Bool} {target : Target} {effect : Effect Target}

theorem Moves.shifts (streamId : effect.self.streamId = target.streamId) (sends : Sends effect.self effect.sends)
    (written : effect.self.service.written = target.service.written)
    (shift : dataOf effect.sends ++ effect.self.coming = target.coming)
    (emitted : target.readable = .emitted → effect.self.readable = .emitted)
    (emits : effect.self.readable = .emitted → target.readable = .emitted ∨ target.destroyed = false)
    (destroyed : effect.self.destroyed = target.destroyed) (closed : effect.self.closed = target.closed)
    (removed : effect.removed = false) (own : effect.self.Own) : target.Moves [] effect where
  streamId := streamId
  sends := sends
  written := written.trans (List.append_nil _).symm
  carried := .inl (shift ▸ List.prefix_refl _)
  kept := fun alive => ⟨destroyed ▸ alive, shift.trans (List.append_nil _).symm⟩
  emitted := fun before => ⟨emitted before, rfl⟩
  emits := emits
  destroyed := fun gone => destroyed.trans gone
  closed := fun before => closed.trans before
  closes := fun after => .inl (closed ▸ after)
  removed := by simp [removed]
  own := own

theorem Moves.destroys (streamId : effect.self.streamId = target.streamId) (sends : Sends effect.self effect.sends)
    (data : dataOf effect.sends = []) (written : effect.self.service.written = target.service.written)
    (parts : effect.self.sending.parts.flatten <+: target.sending.parts.flatten) (gone : effect.self.destroyed = true)
    (emitted : target.readable = .emitted → effect.self.readable = .emitted)
    (emits : effect.self.readable = .emitted → target.readable = .emitted ∨ target.destroyed = false)
    (closed : target.closed = true → effect.self.closed = true)
    (closes : effect.self.closed = true → target.closed = true ∨ effect.removed = true) (own : effect.self.Own) :
    target.Moves [] effect where
  streamId := streamId
  sends := sends
  written := written.trans (List.append_nil _).symm
  carried := by
    refine .inl ?_
    rw [data, coming, gone, if_pos rfl, List.append_nil]
    exact parts.trans (List.prefix_append _ _)
  kept := fun alive => absurd alive (by simp [gone])
  emitted := fun before => ⟨emitted before, rfl⟩
  emits := emits
  destroyed := fun _ => gone
  closed := closed
  closes := closes
  removed := fun _ => gone
  own := own

theorem Own.destroyed (own : target.Own) : Own { target with destroyed := true } :=
  ⟨own.small, own.ended, own.emitted, own.finished, fun _ _ => rfl, fun _ => rfl⟩

theorem Moves.closeStream (gone : listed = false → target.destroyed = true)
    {after : Target} (streamId : after.streamId = target.streamId) (service : after.service = target.service)
    (readable : after.readable = target.readable) (destroyed : after.destroyed = target.destroyed)
    (closed : after.closed = target.closed) (parts : after.sending.parts.flatten <+: target.sending.parts.flatten)
    (own' : after.Own) : target.Moves [] (after.closeStream listed) := by
  unfold Target.closeStream
  split
  · exact .destroys streamId .nothing rfl (by rw [service]) parts rfl (fun emitted => readable.trans emitted)
      (fun emitted => .inl (readable ▸ emitted)) (fun before => closed.trans before) (fun after => .inl (closed ▸ after))
      own'.destroyed
  · rename_i unlisted
    have gone : target.destroyed = true := gone (by simpa using unlisted)
    exact .destroys streamId .nothing rfl (by rw [service]) parts (destroyed.trans gone)
      (fun emitted => readable.trans emitted) (fun emitted => .inl (readable ▸ emitted))
      (fun before => closed.trans before) (fun after => .inl (closed ▸ after)) own'

theorem parts_onData (target : Target) (chunk : Bytes) (chunks : List Bytes) :
    (target.onData chunk chunks).sending.parts = parts DIAL_CHUNK_BYTES chunk := by
  unfold onData
  cases parts DIAL_CHUNK_BYTES chunk <;> rfl

variable {frame : Frame}

theorem sends_send (h : Sends target [frame]) : Sends target (send isOpen frame) := by
  unfold send
  split
  · exact h
  · exact .nothing

theorem data_send (h : frame.data = []) : dataOf (send isOpen frame) = [] := by
  unfold send
  split
  · simp [h]
  · rfl

theorem Own.fails (own : target.Own) {connected announcing : Bool} :
    Own { target with connected, announcing, sending := .idle } :=
  ⟨List.forall_mem_nil _, own.ended, own.emitted, own.finished, own.past, own.closed⟩

theorem Moves.onConnect (own : target.Own) (gone : listed = false → target.destroyed = true) :
    target.Moves [] (target.onConnect isOpen listed) := by
  have connected : Own { target with connected := true } :=
    ⟨own.small, own.ended, own.emitted, own.finished, own.past, own.closed⟩
  unfold Target.onConnect
  split
  · exact .shifts rfl .opened rfl rfl id .inl rfl rfl rfl
      ⟨own.small, own.ended, own.emitted, own.finished, own.past, own.closed⟩
  · exact .closeStream gone rfl rfl rfl rfl rfl (List.prefix_refl _) connected

theorem Moves.announced (own : target.Own) (gone : listed = false → target.destroyed = true) (failed : Bool) :
    target.Moves [] (target.announced listed failed) := by
  have announced : Own { target with announcing := false } :=
    ⟨own.small, own.ended, own.emitted, own.finished, own.past, own.closed⟩
  unfold Target.announced
  split
  · exact .closeStream gone rfl rfl rfl rfl rfl (List.prefix_refl _) announced
  · exact .shifts rfl .nothing rfl rfl id .inl rfl rfl rfl announced

/-- The chunk goes from the socket's buffer to `sendData`. -/
theorem Moves.onData (own : target.Own) {chunk : Bytes} {chunks : List Bytes} (buffered : target.chunks = chunk :: chunks)
    (idle : target.sending = .idle) (live : target.destroyed = false) :
    target.Moves [] { self := target.onData chunk chunks } := by
  have emitted : target.readable = .emitted → (target.onData chunk chunks).chunks = [] ∧ target.ending = true := by
    intro emitted
    rw [(own.emitted emitted).1] at buffered
    cases buffered
  refine .shifts rfl .nothing rfl ?_ id .inl rfl rfl rfl ⟨?_, own.ended, emitted, own.finished, own.past, own.closed⟩
  · have gone : (target.onData chunk chunks).destroyed = false := live
    have later : (target.onData chunk chunks).chunks = chunks := rfl
    have unread : (target.onData chunk chunks).service = target.service := rfl
    have nothing : target.sending.parts = [] := by rw [idle]; rfl
    simp [coming, live, gone, later, unread, parts_onData, flatten_chunk, buffered, nothing]
  · intro part mem
    rw [parts_onData] at mem
    exact length_part mem

variable {parts : List Bytes}

theorem Moves.sendPart (own : target.Own) (gone : listed = false → target.destroyed = true) {part : Bytes}
    (waiting : target.sending = .capacity part parts) :
    target.Moves [] (target.sendPart isOpen listed part parts) := by
  have small := own.small
  rw [waiting] at small
  obtain ⟨short, small⟩ := List.forall_mem_cons.mp small
  unfold Target.sendPart
  split
  · refine .shifts rfl (.data short) rfl ?_ id .inl rfl rfl rfl
      ⟨small, own.ended, own.emitted, own.finished, own.past, own.closed⟩
    simp [coming, waiting, Sending.parts]
  · exact .closeStream gone rfl rfl rfl rfl rfl List.nil_prefix own.fails

theorem Moves.partSent (own : target.Own) (gone : listed = false → target.destroyed = true)
    (sent : target.sending = .sent parts) (failed : Bool) :
    target.Moves [] (target.partSent listed parts failed) := by
  have small := own.small
  rw [sent] at small
  unfold Target.partSent
  split
  · exact .closeStream gone rfl rfl rfl rfl rfl List.nil_prefix own.fails
  · cases parts with
    | nil =>
      refine .shifts rfl .nothing rfl ?_ id .inl rfl rfl rfl own.fails
      simp [coming, sent, Sending.parts]
    | cons part parts =>
      refine .shifts rfl .nothing rfl ?_ id .inl rfl rfl rfl
        ⟨small, own.ended, own.emitted, own.finished, own.past, own.closed⟩
      simp [coming, sent, Sending.parts]

theorem Moves.onEnd (own : target.Own) (ended : target.readable = .ended) (empty : target.chunks = [])
    (live : target.destroyed = false) : target.Moves [] (target.onEnd isOpen) := by
  have past := own.ended (by rw [ended]; exact Readable.noConfusion)
  have data : dataOf (send isOpen (.dial_end target.streamId)) = [] := data_send rfl
  have own' : Own (target.onEnd isOpen).self :=
    ⟨own.small, fun _ => past, fun _ => ⟨empty, rfl⟩, fun finished => ⟨(own.finished finished).1, rfl⟩,
      fun finished _ => finished, fun closed => absurd (own.closed closed) (by simp [live])⟩
  have sends : Sends (target.onEnd isOpen).self (target.onEnd isOpen).sends := sends_send (.ends rfl)
  cases finished : target.finished with
  | true =>
    exact .destroys rfl sends data rfl (List.prefix_refl _) finished (fun _ => rfl) (fun _ => .inr live) id .inl own'
  | false =>
    refine .shifts rfl sends rfl ?_ (fun _ => rfl) (fun _ => .inr live) (finished.trans live.symm) rfl rfl own'
    have alive : (target.onEnd isOpen).self.destroyed = false := finished
    rw [coming, alive, coming, live]
    exact congrArg (· ++ _) data

theorem Moves.finish (own : target.Own) (ending : target.ending = true) (empty : target.writes = [])
    (live : target.destroyed = false) :
    target.Moves [] { self := { target with finished := true, destroyed := target.readable = .emitted } } := by
  have closed : target.closed = true → decide (target.readable = .emitted) = true :=
    fun closed => absurd (own.closed closed) (by simp [live])
  have own' : Own { target with finished := true, destroyed := target.readable = .emitted } :=
    ⟨own.small, own.ended, own.emitted, fun _ => ⟨empty, ending⟩, fun _ emitted => decide_eq_true emitted, closed⟩
  by_cases emitted : target.readable = .emitted
  · exact .destroys rfl .nothing rfl rfl (List.prefix_refl _) (decide_eq_true emitted) id .inl id .inl own'
  · refine .shifts rfl .nothing rfl ?_ id .inl ?_ rfl rfl own'
    · simp [coming, live, emitted]
    · simp [live, emitted]

theorem Moves.fail (own : target.Own) (message : CodeUnits) : target.Moves [] { self := target.fail message } :=
  .destroys rfl .nothing rfl rfl (List.prefix_refl _) rfl id .inl id .inl
    ⟨own.small, own.ended, own.emitted, own.finished, fun _ _ => rfl, fun _ => rfl⟩

theorem mem_send {f : Frame} (h : f ∈ send isOpen frame) : f = frame := by
  unfold send at h
  split at h
  · exact List.mem_singleton.mp h
  · cases h

theorem onClose_sends (target : Target) : ∀ f ∈ (target.onClose isOpen).sends,
    (∃ error, f = .dial_error target.streamId error) ∨ f = .dial_close target.streamId ∧ target.readable ≠ .emitted := by
  intro f mem
  obtain mem | mem := List.mem_append.mp mem
  · split at mem
    · exact .inl ⟨_, mem_send mem⟩
    · cases mem
  · split at mem
    · cases mem
    · exact .inr ⟨mem_send mem, ‹_›⟩

theorem Moves.onClose (own : target.Own) (gone : target.destroyed = true) :
    target.Moves [] (target.onClose isOpen) := by
  have told := @onClose_sends isOpen target
  have silent : dataOf (target.onClose isOpen).sends = [] := by
    refine List.flatMap_eq_nil_iff.mpr fun f mem => ?_
    obtain ⟨error, rfl⟩ | ⟨rfl, _⟩ := told f mem <;> rfl
  exact .destroys rfl (.closes rfl told) silent rfl (List.prefix_refl _) gone id .inl (fun _ => rfl) (fun _ => .inr rfl)
    ⟨own.small, own.ended, own.emitted, own.finished, own.past, fun _ => gone⟩

variable {event : Event}

theorem handle_moves (own : target.Own) (gone : listed = false → target.destroyed = true)
    (h : target.handle isOpen listed event = some effect) : ∃ new, target.Moves new effect := by
  cases event with
  | serviceWrites chunk =>
    obtain ⟨guard, same⟩ := Option.ite_none_left_eq_some.mp h
    cases same
    have flowing : target.readable = .flowing := by
      by_contra ended
      exact guard (own.ended ended).1
    have flows : ∀ r, r ≠ Readable.flowing → target.readable ≠ r := fun r ne same => ne (same.symm.trans flowing)
    refine ⟨chunk, rfl, .nothing, rfl, ?_, ?_, fun emitted => absurd emitted (flows _ nofun), .inl, id, id, .inl, nofun,
      own.small, fun ended => absurd flowing ended, own.emitted, own.finished, own.past, own.closed⟩
    · cases live : target.destroyed with
      | true => exact .inl (by simp [coming, live])
      | false => exact .inr ⟨rfl, by simp [coming, live]⟩
    · rintro (live : target.destroyed = false)
      exact ⟨live, by simp [coming, live]⟩
  | serviceEnds =>
    cases h
    exact ⟨[], .shifts rfl .nothing rfl rfl id .inl rfl rfl rfl
      ⟨own.small, fun ended => ⟨rfl, (own.ended ended).2⟩, own.emitted, own.finished, own.past, own.closed⟩⟩
  | connect =>
    obtain ⟨_, same⟩ := Option.ite_none_left_eq_some.mp h
    exact ⟨[], Option.some.inj same ▸ .onConnect own gone⟩
  | announced failed =>
    obtain ⟨_, same⟩ := Option.ite_none_right_eq_some.mp h
    exact ⟨[], Option.some.inj same ▸ .announced own gone failed⟩
  | arrive count =>
    obtain ⟨guard, same⟩ := Option.ite_none_right_eq_some.mp h
    cases same
    obtain ⟨⟨⟨_, live⟩, _⟩, some_⟩ : ((target.connected = true ∧ target.destroyed = false) ∧ 0 < count) ∧
        target.service.unread ≠ [] := by simpa using guard
    have flowing : target.readable = .flowing := by
      by_contra ended
      exact some_ (own.ended ended).2
    refine ⟨[], .shifts rfl .nothing rfl ?_ id .inl rfl rfl rfl
      ⟨own.small, fun ended => absurd flowing ended, fun emitted => ?_, own.finished, own.past, own.closed⟩⟩
    · simp [coming, live]
    · exact absurd flowing (by rw [emitted]; exact Readable.noConfusion)
  | data =>
    cases buffered : target.chunks with
    | nil => simp [handle, buffered] at h
    | cons chunk chunks =>
      simp only [handle, buffered] at h
      obtain ⟨guard, same⟩ := Option.ite_none_right_eq_some.mp h
      cases same
      obtain ⟨idle, live⟩ : target.sending = .idle ∧ target.destroyed = false := by simpa using guard
      exact ⟨[], .onData own buffered idle live⟩
  | sendPart =>
    cases waiting : target.sending with
    | capacity part parts =>
      simp only [handle, waiting] at h
      exact ⟨[], Option.some.inj h ▸ .sendPart own gone waiting⟩
    | idle | sent parts => simp [handle, waiting] at h
  | partSent failed =>
    cases sent : target.sending with
    | sent parts =>
      simp only [handle, sent] at h
      exact ⟨[], Option.some.inj h ▸ .partSent own gone sent failed⟩
    | idle | capacity part parts => simp [handle, sent] at h
  | eof =>
    obtain ⟨guard, same⟩ := Option.ite_none_right_eq_some.mp h
    cases same
    obtain ⟨⟨⟨_, ended⟩, empty⟩, flowing⟩ : (((target.connected = true ∧ target.destroyed = false) ∧
        target.service.ended = true) ∧ target.service.unread = []) ∧ target.readable = .flowing := by simpa using guard
    exact ⟨[], .shifts rfl .nothing rfl rfl (fun emitted => absurd emitted (by simp [flowing])) nofun rfl rfl rfl
      ⟨own.small, fun _ => ⟨ended, empty⟩, nofun, own.finished, nofun, own.closed⟩⟩
  | emitEnd =>
    obtain ⟨guard, same⟩ := Option.ite_none_right_eq_some.mp h
    obtain ⟨⟨ended, empty⟩, live⟩ : (target.readable = .ended ∧ target.chunks = []) ∧ target.destroyed = false := by
      simpa using guard
    exact ⟨[], Option.some.inj same ▸ .onEnd own ended empty live⟩
  | flush count =>
    obtain ⟨_, same⟩ := Option.ite_none_right_eq_some.mp h
    cases same
    exact ⟨[], .shifts rfl .nothing rfl rfl id .inl rfl rfl rfl ⟨own.small, own.ended, own.emitted,
      fun finished => ⟨by simp [(own.finished finished).1], (own.finished finished).2⟩, own.past, own.closed⟩⟩
  | finish =>
    obtain ⟨guard, same⟩ := Option.ite_none_right_eq_some.mp h
    cases same
    obtain ⟨⟨⟨⟨_, live⟩, ending⟩, empty⟩, _⟩ : (((target.connected = true ∧ target.destroyed = false) ∧
        target.ending = true) ∧ target.writes = []) ∧ target.finished = false := by simpa using guard
    exact ⟨[], .finish own ending empty live⟩
  | error message =>
    obtain ⟨_, same⟩ := Option.ite_none_left_eq_some.mp h
    exact ⟨[], Option.some.inj same ▸ .fail own message⟩
  | close =>
    obtain ⟨guard, same⟩ := Option.ite_none_right_eq_some.mp h
    obtain ⟨gone, _⟩ : target.destroyed = true ∧ target.closed = false := by simpa using guard
    exact ⟨[], Option.some.inj same ▸ .onClose own gone⟩

theorem Rests.closeStream (listed : Bool) (target : Target) (event : Event) :
    target.Rests event (target.closeStream listed) := by
  unfold Target.closeStream
  split <;> exact ⟨rfl, .inl, id, .inl, .inl⟩

theorem handle_rests (h : target.handle isOpen listed event = some effect) : target.Rests event effect := by
  cases event with
  | serviceWrites chunk =>
    obtain ⟨_, same⟩ := Option.ite_none_left_eq_some.mp h
    exact Option.some.inj same ▸ ⟨rfl, .inl, id, .inl, .inl⟩
  | serviceEnds => exact Option.some.inj h ▸ ⟨rfl, .inl, id, .inl, .inl⟩
  | connect =>
    obtain ⟨_, same⟩ := Option.ite_none_left_eq_some.mp h
    cases same
    unfold onConnect
    extract_lets connected
    split
    · exact ⟨rfl, .inl, id, .inl, .inl⟩
    · have rests := Rests.closeStream listed connected .connect
      exact ⟨rests.landed, rests.ending, rests.stays, rests.finished, rests.emitted⟩
  | announced failed =>
    obtain ⟨_, same⟩ := Option.ite_none_right_eq_some.mp h
    cases same
    unfold announced
    extract_lets announced
    split
    · have rests := Rests.closeStream listed announced (.announced failed)
      exact ⟨rests.landed, rests.ending, rests.stays, rests.finished, rests.emitted⟩
    · exact ⟨rfl, .inl, id, .inl, .inl⟩
  | arrive count =>
    obtain ⟨_, same⟩ := Option.ite_none_right_eq_some.mp h
    exact Option.some.inj same ▸ ⟨rfl, .inl, id, .inl, .inl⟩
  | data =>
    cases buffered : target.chunks with
    | nil => simp [handle, buffered] at h
    | cons chunk chunks =>
      simp only [handle, buffered] at h
      obtain ⟨_, same⟩ := Option.ite_none_right_eq_some.mp h
      exact Option.some.inj same ▸ ⟨rfl, .inl, id, .inl, .inl⟩
  | sendPart =>
    cases waiting : target.sending with
    | capacity part parts =>
      simp only [handle, waiting] at h
      cases h
      unfold sendPart
      split
      · exact ⟨rfl, .inl, id, .inl, .inl⟩
      · have rests := Rests.closeStream listed { target with sending := .idle } .sendPart
        exact ⟨rests.landed, rests.ending, rests.stays, rests.finished, rests.emitted⟩
    | idle | sent parts => simp [handle, waiting] at h
  | partSent failed =>
    cases sent : target.sending with
    | sent parts =>
      simp only [handle, sent] at h
      cases h
      unfold partSent
      split
      · have rests := Rests.closeStream listed { target with sending := .idle } (.partSent failed)
        exact ⟨rests.landed, rests.ending, rests.stays, rests.finished, rests.emitted⟩
      · exact ⟨rfl, .inl, id, .inl, .inl⟩
    | idle | capacity part parts => simp [handle, sent] at h
  | eof =>
    obtain ⟨_, same⟩ := Option.ite_none_right_eq_some.mp h
    exact Option.some.inj same ▸ ⟨rfl, .inl, id, .inl, nofun⟩
  | emitEnd =>
    obtain ⟨_, same⟩ := Option.ite_none_right_eq_some.mp h
    exact Option.some.inj same ▸ ⟨rfl, fun _ => .inr rfl, fun _ => rfl, .inl, fun _ => .inr rfl⟩
  | flush count =>
    obtain ⟨_, same⟩ := Option.ite_none_right_eq_some.mp h
    cases same
    exact ⟨by simp, .inl, id, .inl, .inl⟩
  | finish =>
    obtain ⟨guard, same⟩ := Option.ite_none_right_eq_some.mp h
    cases same
    obtain ⟨⟨⟨⟨_, live⟩, _⟩, _⟩, _⟩ : (((target.connected = true ∧ target.destroyed = false) ∧
        target.ending = true) ∧ target.writes = []) ∧ target.finished = false := by simpa using guard
    exact ⟨rfl, .inl, id, fun _ => .inr live, .inl⟩
  | error message =>
    obtain ⟨_, same⟩ := Option.ite_none_left_eq_some.mp h
    exact Option.some.inj same ▸ ⟨rfl, .inl, id, .inl, .inl⟩
  | close =>
    obtain ⟨_, same⟩ := Option.ite_none_right_eq_some.mp h
    exact Option.some.inj same ▸ ⟨rfl, .inl, id, .inl, .inl⟩

theorem handle_emitEnd (h : target.handle isOpen listed .emitEnd = some effect) :
    target.readable = .ended ∧ target.chunks = [] := by
  obtain ⟨guard, _⟩ := Option.ite_none_right_eq_some.mp h
  exact (by simpa using guard : (target.readable = .ended ∧ target.chunks = []) ∧ target.destroyed = false).1

/-! #### Frames for the agent -/

theorem Moves.quiet (own : target.Own) : target.Moves [] { self := target } :=
  .shifts rfl .nothing rfl rfl id .inl rfl rfl rfl own

theorem Own.endWrites (own : target.Own) : target.endWrites.Own := by
  unfold Target.endWrites
  split
  · exact own
  · exact ⟨own.small, own.ended, fun emitted => ⟨(own.emitted emitted).1, rfl⟩,
      fun finished => ⟨(own.finished finished).1, rfl⟩, own.past, own.closed⟩

theorem receive_data (id : String) (data : CodeUnits) : target.receive (.dial_data id data) =
      if DIAL_CHUNK_BYTES < (Base64.decode data).length then target.closeStream true
      else { self := target.write (Base64.decode data) } := rfl

theorem Moves.gives_up (own : target.Own) : target.Moves [] (target.closeStream true) := by
  have listed : true = false → target.destroyed = true := nofun
  exact .closeStream listed rfl rfl rfl rfl rfl (List.prefix_refl _) own

theorem Moves.write (own : target.Own) (chunk : Bytes) : target.Moves [] { self := target.write chunk } := by
  unfold Target.write
  split
  · exact .quiet own
  · split
    · exact .fail own _
    · rename_i going
      refine .shifts rfl .nothing rfl rfl id .inl rfl rfl rfl
        ⟨own.small, own.ended, own.emitted, fun finished => ?_, own.past, own.closed⟩
      exact absurd (own.finished finished).2 (by simp [going])

theorem Moves.receive (own : target.Own) (frame : Frame) : target.Moves [] (target.receive frame) := by
  cases frame with
  | dial_data id data =>
    rw [receive_data]
    split
    · exact .gives_up own
    · exact .write own _
  | dial_end _ =>
    have own' := own.endWrites
    change target.Moves [] { self := target.endWrites }
    unfold endWrites at own' ⊢
    split
    · exact .quiet own
    · rw [if_neg ‹_›] at own'
      exact .shifts rfl .nothing rfl rfl id .inl rfl rfl rfl own'
  | dial_open id port | dial_opened id | dial_error id error | dial_close id => exact .gives_up own

theorem write_lands (target : Target) (chunk : Bytes) :
    ((target.write chunk).service.received ++ (target.write chunk).writes =
        target.service.received ++ target.writes ++ chunk ∧ target.destroyed = false ∧ target.ending = false) ∨
      ((target.write chunk).service.received ++ (target.write chunk).writes =
        target.service.received ++ target.writes ∧ (target.write chunk).destroyed = true) := by
  unfold write
  split
  · exact .inr ⟨rfl, ‹_›⟩
  · split
    · exact .inr ⟨rfl, rfl⟩
    · rename_i live going
      exact .inl ⟨(List.append_assoc _ _ _).symm, by simpa using live, by simpa using going⟩

theorem receive_lands (target : Target) (frame : Frame) (h : target.receive frame = effect) :
    (effect.self.service.received ++ effect.self.writes = target.service.received ++ target.writes ++ frame.data ∧
      target.destroyed = false ∧ target.ending = false) ∨
    (effect.self.service.received ++ effect.self.writes = target.service.received ++ target.writes ∧
      (frame.data = [] ∨ effect.self.destroyed = true)) := by
  cases frame with
  | dial_data id data =>
    rw [receive_data] at h
    split at h
    · subst h
      exact .inr ⟨rfl, .inr rfl⟩
    · subst h
      exact (target.write_lands _).imp_right fun ⟨landed, gone⟩ => ⟨landed, .inr gone⟩
  | dial_end _ =>
    subst h
    refine .inr ⟨?_, .inl rfl⟩
    simp only [receive, endWrites]
    split <;> rfl
  | dial_open id port | dial_opened id | dial_error id error | dial_close id =>
    subst h
    exact .inr ⟨rfl, .inl rfl⟩

theorem write_keeps (target : Target) (chunk : Bytes) :
    (target.write chunk).ending = target.ending ∧ (target.write chunk).finished = target.finished ∧
      (target.write chunk).readable = target.readable := by
  unfold write
  split
  · exact ⟨rfl, rfl, rfl⟩
  · split <;> exact ⟨rfl, rfl, rfl⟩

theorem receive_ending (target : Target) (frame : Frame) :
    ((target.receive frame).self.ending = true → target.ending = true ∨ frame.ends = true) ∧
      (target.ending = true → (target.receive frame).self.ending = true) ∧
      (target.receive frame).self.finished = target.finished := by
  cases frame with
  | dial_data _ data =>
    rw [receive_data]
    split
    · exact ⟨.inl, id, rfl⟩
    · obtain ⟨ending, finished, _⟩ := target.write_keeps (Base64.decode data)
      exact ⟨fun after => .inl (ending ▸ after), fun before => ending.trans before, finished⟩
  | dial_end _ =>
    simp only [receive, endWrites]
    split
    · exact ⟨.inl, id, rfl⟩
    · exact ⟨fun _ => .inr rfl, fun _ => rfl, rfl⟩
  | dial_open _ _ | dial_opened _ | dial_error _ _ | dial_close _ => exact ⟨.inl, id, rfl⟩

theorem receive_readable (target : Target) (frame : Frame) :
    (target.receive frame).self.readable = target.readable := by
  have given_up : (target.closeStream true).self.readable = target.readable := rfl
  cases frame with
  | dial_data id data =>
    rw [receive_data]
    split
    · exact given_up
    · exact (target.write_keeps _).2.2
  | dial_end _ =>
    simp only [receive, endWrites]
    split <;> rfl
  | dial_open _ _ | dial_opened _ | dial_error _ _ | dial_close _ => exact given_up

theorem receive_close (target : Target) (id : String) : (target.receive (.dial_close id)).removed = true := rfl

end Target
end BoxDial
