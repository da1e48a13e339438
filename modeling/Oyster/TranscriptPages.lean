import Oyster.TranscriptView

/-! What the turns, the chunks, the pages and the merge with a live snapshot are of the history. -/
namespace TranscriptView
open Interleaving Slices

def remaining (turns : List (List Message)) : List Message := turns.reverse.flatten

theorem remaining_cons (turn : List Message) (turns : List (List Message)) :
    remaining (turn :: turns) = remaining turns ++ turn := by
  simp [remaining]

theorem flatten_splitFrom (current messages : List Message) :
    (splitFrom current messages).flatten = current ++ messages := by
  induction messages generalizing current with
  | nil =>
    simp only [splitFrom, List.append_nil]
    split_ifs with empty
    · simp [empty]
    · simp
  | cons message messages ih =>
    simp only [splitFrom]
    split_ifs
    · simp [ih]
    · simp [ih]

theorem remaining_splitTurns (messages : List Message) : remaining (splitTurns messages).reverse = messages := by
  rw [remaining, List.reverse_reverse, splitTurns, flatten_splitFrom, List.nil_append]

theorem takeTailChunk_eq (max : Nat) (preserveOversizedTurn : Bool) (chunk : List Message) (turns : List (List Message)) :
    remaining (takeTailChunk max preserveOversizedTurn chunk turns).2 ++ (takeTailChunk max preserveOversizedTurn chunk turns).1 =
      remaining turns ++ chunk := by
  induction turns generalizing chunk with
  | nil => rfl
  | cons turn turns ih =>
    rw [remaining_cons]
    simp only [takeTailChunk]
    split_ifs with oversized started preserved empty enough
    · rw [remaining_cons]
    · have none : chunk = [] := by simpa using started
      rw [none, List.append_nil]
    · have none : chunk = [] := by simpa using started
      rw [none, List.append_nil]
      have whole := List.take_append_drop (turn.length - max) turn
      rw [empty, List.nil_append] at whole
      rw [whole]
    · have none : chunk = [] := by simpa using started
      rw [none, List.append_nil, remaining_cons, List.append_assoc, List.take_append_drop]
    · rw [List.append_assoc]
    · rw [ih, List.append_assoc]

/-- What `page.before` is of a page that begins at `first`. -/
def cursorOf (first : Nat) : Option Nat := if 0 < first then some first else none

structure PageAt (history : List Message) (page : Page) (first last : Nat) : Prop where
  messages : page.messages = slice history first last
  before : page.before = cursorOf first
  le : first ≤ last

theorem turnStart_le (messages : List Message) (start : Nat) : turnStart messages start ≤ start := by
  induction start with
  | zero => exact Nat.le_refl _
  | succ start ih =>
    simp only [turnStart]
    split_ifs
    · exact Nat.le_refl _
    · exact Nat.le_succ_of_le ih

theorem transcriptPage_at (messages : List Message) (limit : Nat) (positive : 0 < limit) (before : Option Nat) :
    ∃ first, PageAt messages (transcriptPage messages limit before) first (min (before.getD messages.length) messages.length) ∧
      (0 < min (before.getD messages.length) messages.length →
        first < min (before.getD messages.length) messages.length) := by
  let last := min (before.getD messages.length) messages.length
  let turn := turnStart messages (last - limit)
  let first := if 0 < turn ∧ turn < last - limit then turnStart messages (turn - 1) else turn
  have bound : first ≤ last - limit := by
    have turnLe : turn ≤ last - limit := turnStart_le messages _
    change (if _ then _ else _) ≤ _
    split_ifs
    · have back := turnStart_le messages (turn - 1)
      omega
    · exact turnLe
  exact ⟨first, ⟨rfl, rfl, by omega⟩, fun some => by
    omega⟩

theorem PageAt.grown {history grown : List Message} {page : Page} {first last : Nat}
    (at' : PageAt history page first last)
    (more : history <+: grown) (le : last ≤ history.length) : PageAt grown page first last :=
  ⟨at'.messages.trans (slice_grown more le).symm, at'.before, at'.le⟩

theorem serves_at (s : State) (bound : s.durable ≤ s.history.length) (before : Option Nat) :
    ∃ first, PageAt s.history (s.serves before) first (min (before.getD s.durable) s.durable) ∧
      (0 < min (before.getD s.durable) s.durable → first < min (before.getD s.durable) s.durable) := by
  have length : (s.history.take s.durable).length = s.durable := by
    rw [List.length_take]
    omega
  have page := transcriptPage_at (s.history.take s.durable) pageSize (by decide) before
  rw [length] at page
  obtain ⟨first, at', less⟩ := page
  refine ⟨first, ⟨at'.messages.trans (slice_take s.history (Nat.min_le_right _ _)), at'.before, at'.le⟩, less⟩

theorem serves_total (s : State) (bound : s.durable ≤ s.history.length) (before : Option Nat) :
    (s.serves before).total = s.durable := by
  change (s.history.take s.durable).length = s.durable
  rw [List.length_take]
  omega

/-- The end of the page looks like a beginning of the snapshot of that length. -/
def LooksSame (durable live : List Message) (length : Nat) : Prop :=
  (((durable.drop (durable.length - length)).zip (live.take length)).all fun pair => sameClaudeMessage pair.1 pair.2) = true

instance (durable live : List Message) (length : Nat) : Decidable (LooksSame durable live length) := instDecidableEqBool _ _

theorem sameClaudeMessage_self (message : Message) : sameClaudeMessage message message = true := by
  cases message with
  | mk role responseId toolCallId content timestamp => cases timestamp <;> simp [sameClaudeMessage]

theorem all_zip_self (messages : List Message) :
    ((messages.zip messages).all fun pair => sameClaudeMessage pair.1 pair.2) = true := by
  induction messages with
  | nil => rfl
  | cons message messages ih => simp [sameClaudeMessage_self, ih]

theorem overlapFrom_eq {durable live : List Message} {length bound : Nat} (le : length ≤ bound)
    (same : LooksSame durable live length)
    (longest : ∀ longer, longer ≤ bound → LooksSame durable live longer → longer ≤ length) :
    overlapFrom durable live bound = length := by
  induction bound with
  | zero => exact (Nat.le_zero.mp le).symm
  | succ bound ih =>
    simp only [overlapFrom]
    split_ifs with looks
    · exact Nat.le_antisymm (longest (bound + 1) (Nat.le_refl _) looks) le
    · have less : length ≠ bound + 1 := fun whole => looks (whole ▸ same)
      exact ih (by omega) fun longer inside => longest longer (by omega)

theorem merge_slices {history : List Message} {total start last : Nat} (overlaps : start ≤ total) (covers : total ≤ last)
    (le : last ≤ history.length)
    (longest : ∀ longer, LooksSame (slice history 0 total) (slice history start last) longer →
      longer ≤ min total (last - start) → longer ≤ total - start) :
    mergeClaudeTranscriptMessages (slice history 0 total) (slice history start last) = slice history 0 last := by
  have pageLength : (slice history 0 total).length = total := length_slice (Nat.le_trans covers le)
  have liveLength : (slice history start last).length = last - start := length_slice le
  unfold mergeClaudeTranscriptMessages
  split_ifs with noPage noLive
  · have none : total = 0 := by rw [← pageLength, noPage, List.length_nil]
    have begins : start = 0 := by omega
    rw [begins]
  · have none : last - start = 0 := by rw [← liveLength, noLive, List.length_nil]
    have ends : last = total := by omega
    rw [ends]
  · have same : LooksSame (slice history 0 total) (slice history start last) (total - start) := by
      have ending : (slice history 0 total).drop (total - (total - start)) = slice history start total := by
        have back : total - (total - start) = start - 0 := by omega
        rw [back, drop_slice history (Nat.zero_le start)]
      have beginning : (slice history start last).take (total - start) = slice history start total := by
        rw [slice, List.take_take, Nat.min_eq_left (by omega), slice]
      rw [LooksSame, pageLength, ending, beginning]
      exact all_zip_self _
    have found : overlap (slice history 0 total) (slice history start last) = total - start := by
      unfold overlap
      rw [pageLength, liveLength]
      exact overlapFrom_eq (by omega) same fun longer bounded looks => longest longer looks bounded
    rw [found, drop_slice history overlaps, slice_append history (Nat.zero_le total) covers]

end TranscriptView
