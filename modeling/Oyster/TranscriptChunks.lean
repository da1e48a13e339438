import Oyster.TranscriptPages
import Mathlib.Algebra.GroupWithZero.Nat

/-! The chunks in which the renderer takes a transcript, the last messages first. -/
namespace TranscriptView

def untaken (turns : List (List Message)) : Nat := (turns.map (·.length + 1)).sum

theorem untaken_cons (turn : List Message) (turns : List (List Message)) :
    untaken (turn :: turns) = turn.length + 1 + untaken turns := rfl

variable {max : Nat}

theorem untaken_takeTailChunk (positive : 0 < max) (preserveOversizedTurn : Bool) (chunk : List Message)
    (turns : List (List Message)) : untaken (takeTailChunk max preserveOversizedTurn chunk turns).2 ≤ untaken turns ∧
      (chunk = [] → turns ≠ [] → untaken (takeTailChunk max preserveOversizedTurn chunk turns).2 < untaken turns) := by
  induction turns generalizing chunk with
  | nil => exact ⟨Nat.le_refl _, fun _ some => absurd rfl some⟩
  | cons turn turns ih =>
    rw [takeTailChunk, untaken_cons]
    split_ifs with oversized started preserved enough
    · exact ⟨Nat.le_refl _, fun empty => absurd empty started⟩
    · dsimp only
      exact ⟨by omega, fun _ _ => by omega⟩
    · -- a part of the turn is taken, of at least one message
      have shorter : (turn.take (turn.length - max)).length < turn.length := by
        rw [List.length_take]
        omega
      dsimp only
      split_ifs
      · exact ⟨by omega, fun _ _ => by omega⟩
      · rw [untaken_cons]
        exact ⟨by omega, fun _ _ => by omega⟩
    · dsimp only
      exact ⟨by omega, fun _ _ => by omega⟩
    · have more := (ih (turn ++ chunk)).1
      exact ⟨by omega, fun _ _ => by omega⟩

variable {turns : List (List Message)}

theorem nonempty_takeTailChunk (max : Nat) (preserveOversizedTurn : Bool) (chunk : List Message)
    (filled : ∀ turn ∈ turns, turn ≠ []) :
    ∀ turn ∈ (takeTailChunk max preserveOversizedTurn chunk turns).2, turn ≠ [] := by
  induction turns generalizing chunk with
  | nil => exact List.forall_mem_nil _
  | cons turn turns ih =>
    obtain ⟨_, others⟩ := List.forall_mem_cons.mp filled
    rw [takeTailChunk]
    split_ifs with oversized started preserved enough
    · exact filled
    · exact others
    · dsimp only
      split_ifs with all
      · exact others
      · exact List.forall_mem_cons.mpr ⟨all, others⟩
    · exact others
    · exact ih _ others

variable {chunk : List Message}

theorem started_takeTailChunk (max : Nat) (preserveOversizedTurn : Bool) (started : chunk ≠ [])
    (turns : List (List Message)) : (takeTailChunk max preserveOversizedTurn chunk turns).1 ≠ [] := by
  induction turns generalizing chunk with
  | nil => exact started
  | cons turn turns ih =>
    have more : turn ++ chunk ≠ [] := List.append_ne_nil_of_right_ne_nil _ started
    rw [takeTailChunk]
    split_ifs with oversized enough
    · exact started
    · exact more
    · exact ih more

theorem chunk_ne_nil (positive : 0 < max) (preserveOversizedTurn : Bool) {turn : List Message} (filled : turn ≠ [])
    (turns : List (List Message)) : (takeTailChunk max preserveOversizedTurn [] (turn :: turns)).1 ≠ [] := by
  rw [takeTailChunk]
  split_ifs with oversized started preserved enough
  · exact absurd rfl started
  · exact filled
  · refine List.length_pos_iff.mp ?_
    rw [List.length_drop]
    omega
  · rwa [List.append_nil]
  · exact started_takeTailChunk max _ (by rwa [List.append_nil]) turns

theorem chunk_length_le (bounded : chunk.length ≤ max) (turns : List (List Message)) :
    (takeTailChunk max false chunk turns).1.length ≤ max := by
  induction turns generalizing chunk with
  | nil => exact bounded
  | cons turn turns ih =>
    rw [takeTailChunk]
    split_ifs with oversized started preserved enough
    · exact bounded
    · exact preserved.elim
    · dsimp only
      rw [List.length_drop]
      omega
    · dsimp only
      rw [List.length_append]
      omega
    · exact ih (by rw [List.length_append]; omega)

/-- `backfillTranscriptTurns`, with the turns given from the last one on. -/
def backfillTranscriptTurns (chunkSize : Nat) (positive : 0 < chunkSize) : List (List Message) → List (List Message)
  | [] => []
  | turn :: turns =>
    (takeTailChunk chunkSize false [] (turn :: turns)).1 ::
      backfillTranscriptTurns chunkSize positive (takeTailChunk chunkSize false [] (turn :: turns)).2
termination_by turns => untaken turns
decreasing_by exact (untaken_takeTailChunk positive false [] (turn :: turns)).2 rfl (List.cons_ne_nil _ _)

/-- The chunks that `render` takes, in that order. -/
def renderedChunks (tailMessages chunkMessages : Nat) (positive : 0 < chunkMessages) (messages : List Message) :
    List (List Message) :=
  let tail := takeTailChunk tailMessages true [] (splitTurns messages).reverse
  tail.1 :: backfillTranscriptTurns chunkMessages positive tail.2

variable {chunkSize : Nat}

theorem flatten_backfill (positive : 0 < chunkSize) (turns : List (List Message)) :
    (backfillTranscriptTurns chunkSize positive turns).reverse.flatten = remaining turns := by
  fun_induction backfillTranscriptTurns chunkSize positive turns with
  | case1 => rfl
  | case2 turn turns ih =>
    have taken := takeTailChunk_eq chunkSize false [] (turn :: turns)
    rw [List.reverse_cons, List.flatten_append, ih, List.flatten_singleton, taken, List.append_nil]

theorem backfill_chunks (positive : 0 < chunkSize) (filled : ∀ turn ∈ turns, turn ≠ []) :
    ∀ chunk ∈ backfillTranscriptTurns chunkSize positive turns, chunk ≠ [] ∧ chunk.length ≤ chunkSize := by
  fun_induction backfillTranscriptTurns chunkSize positive turns with
  | case1 => exact List.forall_mem_nil _
  | case2 turn turns ih =>
    have here := (List.forall_mem_cons.mp filled).1
    exact List.forall_mem_cons.mpr ⟨⟨chunk_ne_nil positive false here turns, chunk_length_le (Nat.zero_le _) _⟩,
      ih (nonempty_takeTailChunk chunkSize false [] filled)⟩

theorem nonempty_splitFrom (current messages : List Message) : ∀ turn ∈ splitFrom current messages, turn ≠ [] := by
  induction messages generalizing current with
  | nil =>
    rw [splitFrom]
    split_ifs with empty
    · exact List.forall_mem_nil _
    · exact List.forall_mem_singleton.mpr empty
  | cons message messages ih =>
    rw [splitFrom]
    split_ifs with turned
    · exact List.forall_mem_cons.mpr ⟨turned.2, ih _⟩
    · exact ih _

/-- The chunks make up the transcript, from the last one to the first. Only a transcript without
messages has a chunk without any, and only the first chunk may be longer than was asked for. -/
theorem renderedChunks_spec (tailMessages chunkMessages : Nat) (tailPositive : 0 < tailMessages)
    (positive : 0 < chunkMessages) (messages : List Message) :
    (renderedChunks tailMessages chunkMessages positive messages).reverse.flatten = messages ∧
      (messages ≠ [] → ∀ chunk ∈ renderedChunks tailMessages chunkMessages positive messages, chunk ≠ []) ∧
      (messages = [] → renderedChunks tailMessages chunkMessages positive messages = [[]]) ∧
      ∀ chunk ∈ (renderedChunks tailMessages chunkMessages positive messages).tail, chunk.length ≤ chunkMessages := by
  have filled : ∀ turn ∈ (splitTurns messages).reverse, turn ≠ [] := fun turn there =>
    nonempty_splitFrom [] messages turn (List.mem_reverse.mp there)
  have later := backfill_chunks positive (nonempty_takeTailChunk tailMessages true [] filled)
  refine ⟨?_, fun some => ?_, ?_, fun chunk there => (later chunk there).2⟩
  · have taken := takeTailChunk_eq tailMessages true [] (splitTurns messages).reverse
    rw [remaining_splitTurns, List.append_nil] at taken
    rw [renderedChunks, List.reverse_cons, List.flatten_append, flatten_backfill, List.flatten_singleton, taken]
  · refine List.forall_mem_cons.mpr ⟨?_, fun chunk there => (later chunk there).1⟩
    have whole := remaining_splitTurns messages
    cases turns : (splitTurns messages).reverse with
    | nil =>
      rw [turns] at whole
      exact absurd whole.symm some
    | cons turn turns' =>
      rw [turns] at filled
      exact chunk_ne_nil tailPositive true (List.forall_mem_cons.mp filled).1 turns'
  · rintro rfl
    rw [renderedChunks, show (splitTurns []).reverse = [] from rfl, takeTailChunk, backfillTranscriptTurns]

def said (role content : String) : Message := ⟨role, "", "", content, none⟩

/-- The last turn is longer than the first chunk should be, and the one before it is taken in two parts. -/
theorem renderedChunks_spec_turns :
    (renderedChunks 1 2 (by decide) [said "user" "a", said "assistant" "b", said "assistant" "c", said "user" "d",
          said "assistant" "e"]).reverse.flatten =
        [said "user" "a", said "assistant" "b", said "assistant" "c", said "user" "d", said "assistant" "e"] ∧
      ∀ chunk ∈ renderedChunks 1 2 (by decide) [said "user" "a", said "assistant" "b", said "assistant" "c",
        said "user" "d", said "assistant" "e"], chunk ≠ [] := by
  obtain ⟨whole, filled, -, -⟩ := renderedChunks_spec 1 2 (by decide) (by decide)
    [said "user" "a", said "assistant" "b", said "assistant" "c", said "user" "d", said "assistant" "e"]
  exact ⟨whole, filled (List.cons_ne_nil _ _)⟩

/-- The first chunk is taken before it is known whether there is a turn. -/
theorem renderedChunks_empty : ∃ chunk ∈ renderedChunks 40 60 (by decide) [], chunk = [] := by
  refine ⟨[], ?_, rfl⟩
  exact List.mem_cons_self

end TranscriptView
