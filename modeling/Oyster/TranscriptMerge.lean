import Oyster.TranscriptPages

/-! The merge of the durable page with the messages of the running process, for any two windows
of one history: when it is their union. -/
namespace TranscriptMerge
open TranscriptView Slices

variable {α : Type}

/-- `mergeClaudeTranscriptMessages` on messages as they are; `view` is what is compared of one. -/
def mergeMessages (view : α → Message) (durable live : List α) : List α :=
  if durable.isEmpty then live
  else if live.isEmpty then durable
  else durable ++ live.drop (overlap (durable.map view) (live.map view))

theorem overlapFrom_longest (durable live : List Message) (bound : Nat) :
    overlapFrom durable live bound ≤ bound ∧ LooksSame durable live (overlapFrom durable live bound) ∧
      ∀ longer, longer ≤ bound → LooksSame durable live longer → longer ≤ overlapFrom durable live bound := by
  induction bound with
  | zero => exact ⟨Nat.le_refl _, by simp [LooksSame, overlapFrom], fun _ le _ => le⟩
  | succ bound ih =>
    obtain ⟨within, looks, longest⟩ := ih
    simp only [overlapFrom]
    split_ifs with found
    · exact ⟨Nat.le_refl _, found, fun _ le _ => le⟩
    · refine ⟨Nat.le_succ_of_le within, looks, fun longer le looks' => longest longer ?_ looks'⟩
      rcases Nat.le_succ_iff.mp le with inside | rfl
      · exact inside
      · exact absurd looks' found

section Windows
variable {view : α → Message} {history : List α} {a b c d : Nat}

/-- Whether the overlap of the windows can be told from what they show: a live window that begins
within the durable one looks like no longer end of it than it shares with it, and one that begins
before it begins with the very messages of the durable one. -/
def Tells (view : α → Message) (history : List α) (a b c d : Nat) : Prop :=
  if a ≤ c then ∀ longer, longer ≤ min (b - a) (d - c) →
      LooksSame ((slice history a b).map view) ((slice history c d).map view) longer → longer ≤ b - c
  else slice history a b = slice history c (c + (b - a))

theorem looksSame_shared (first : a ≤ c) (second : c ≤ b) (third : b ≤ d) (le : d ≤ history.length) :
    LooksSame ((slice history a b).map view) ((slice history c d).map view) (b - c) := by
  have length : ((slice history a b).map view).length = b - a := by
    rw [List.length_map, length_slice (Nat.le_trans third le)]
  have ending : ((slice history a b).map view).drop (b - a - (b - c)) = (slice history c b).map view := by
    have back : b - a - (b - c) = c - a := by omega
    rw [back, ← List.map_drop, drop_slice history first]
  have beginning : ((slice history c d).map view).take (b - c) = (slice history c b).map view := by
    rw [← List.map_take, slice, List.take_take, Nat.min_eq_left (by omega), slice]
  rw [LooksSame, length, ending, beginning]
  exact all_zip_self _

theorem merge_of_nonempty (durable : a < b) (live : c < d) (first : b ≤ history.length) (second : d ≤ history.length) :
    mergeMessages view (slice history a b) (slice history c d) = slice history a b ++
      (slice history c d).drop (overlap ((slice history a b).map view) ((slice history c d).map view)) := by
  have some_durable : (slice history a b).isEmpty = false := by
    rw [← Bool.not_eq_true, List.isEmpty_iff_length_eq_zero, length_slice first]
    omega
  have some_live : (slice history c d).isEmpty = false := by
    rw [← Bool.not_eq_true, List.isEmpty_iff_length_eq_zero, length_slice second]
    omega
  simp only [mergeMessages, some_durable, some_live, Bool.false_eq_true, if_false]

theorem overlap_windows (first : b ≤ history.length) (second : d ≤ history.length) :
    overlap ((slice history a b).map view) ((slice history c d).map view) =
      overlapFrom ((slice history a b).map view) ((slice history c d).map view) (min (b - a) (d - c)) := by
  rw [overlap, List.length_map, List.length_map, length_slice first, length_slice second]

theorem merge_length (first : b ≤ history.length) (second : d ≤ history.length) (overlap : Nat) :
    (slice history a b ++ (slice history c d).drop overlap).length = (b - a) + (d - c - overlap) := by
  rw [List.length_append, List.length_drop, length_slice first, length_slice second]

theorem merge_inside (first : a ≤ c) (second : c ≤ b) (third : b ≤ d) (le : d ≤ history.length) :
    mergeMessages view (slice history a b) (slice history c d) = slice history a d ↔
      ∀ longer, longer ≤ min (b - a) (d - c) →
        LooksSame ((slice history a b).map view) ((slice history c d).map view) longer → longer ≤ b - c := by
  rcases Nat.eq_or_lt_of_le (Nat.le_trans first second) with rfl | durable
  · obtain rfl := Nat.le_antisymm first second
    simp [mergeMessages]
  rcases Nat.eq_or_lt_of_le (Nat.le_trans second third) with rfl | live
  · obtain rfl := Nat.le_antisymm second third
    have some_durable : (slice history a c).isEmpty = false := by
      rw [← Bool.not_eq_true, List.isEmpty_iff_length_eq_zero, length_slice le]
      omega
    simp [mergeMessages, some_durable]
  rw [merge_of_nonempty durable live (Nat.le_trans third le) le, overlap_windows (Nat.le_trans third le) le]
  obtain ⟨within, looks, longest⟩ :=
    overlapFrom_longest ((slice history a b).map view) ((slice history c d).map view) (min (b - a) (d - c))
  have shared := longest (b - c) (by omega) (looksSame_shared first second third le)
  constructor
  · intro union
    have count := congrArg List.length union
    rw [merge_length (Nat.le_trans third le) le, length_slice le] at count
    intro longer bounded looks'
    have := longest longer bounded looks'
    omega
  · intro tells
    have found := tells _ within looks
    have exactly : overlapFrom ((slice history a b).map view) ((slice history c d).map view)
        (min (b - a) (d - c)) = b - c := Nat.le_antisymm found shared
    rw [exactly, drop_slice history second, slice_append history (Nat.le_trans first second) third]

theorem merge_before (first : c < a) (second : a ≤ b) (third : b ≤ d) (le : d ≤ history.length) :
    mergeMessages view (slice history a b) (slice history c d) = slice history c d ↔
      slice history a b = slice history c (c + (b - a)) := by
  rcases Nat.eq_or_lt_of_le second with rfl | durable
  · simp [mergeMessages]
  have beginning : slice history c (c + (b - a)) ++ slice history (c + (b - a)) d = slice history c d :=
    slice_append history (Nat.le_add_right _ _) (by omega)
  have rest : (slice history c d).drop (b - a) = slice history (c + (b - a)) d := by
    have back : b - a = c + (b - a) - c := by omega
    rw [back, drop_slice history (by omega)]
    congr 1
    omega
  rw [merge_of_nonempty durable (by omega) (Nat.le_trans third le) le, overlap_windows (Nat.le_trans third le) le]
  obtain ⟨within, looks, longest⟩ :=
    overlapFrom_longest ((slice history a b).map view) ((slice history c d).map view) (min (b - a) (d - c))
  constructor
  · intro union
    have count := congrArg List.length union
    rw [merge_length (Nat.le_trans third le) le, length_slice le] at count
    have whole : overlapFrom ((slice history a b).map view) ((slice history c d).map view)
        (min (b - a) (d - c)) = b - a := by omega
    rw [whole, rest, ← beginning] at union
    exact List.append_cancel_right union
  · intro same
    have whole : b - a ≤ overlapFrom ((slice history a b).map view) ((slice history c d).map view)
        (min (b - a) (d - c)) := by
      refine longest (b - a) (by omega) ?_
      have length : ((slice history a b).map view).length = b - a := by
        rw [List.length_map, length_slice (Nat.le_trans third le)]
      have taken : ((slice history c d).map view).take (b - a) = (slice history a b).map view := by
        rw [same, ← List.map_take, slice, List.take_take, Nat.min_eq_left (by omega), slice, Nat.add_sub_cancel_left]
      rw [LooksSame, length, Nat.sub_self, List.drop_zero, taken]
      exact all_zip_self _
    have exactly : overlapFrom ((slice history a b).map view) ((slice history c d).map view)
        (min (b - a) (d - c)) = b - a := by omega
    rw [exactly, rest, same, beginning]

/-- The merge of the durable and the live window of a history, the live one not beginning after the
durable one has ended and reaching as far, is their union exactly when the windows tell their overlap. -/
theorem merge_is_union_iff (first : a ≤ b) (second : c ≤ b) (third : b ≤ d) (le : d ≤ history.length) :
    mergeMessages view (slice history a b) (slice history c d) = slice history (min a c) d ↔
      Tells view history a b c d := by
  unfold Tells
  split_ifs with order
  · rw [Nat.min_eq_left order]
    exact merge_inside order second third le
  · rw [Nat.min_eq_right (by omega)]
    exact merge_before (by omega) first third le

end Windows

def prompt (text : String) (time : Int) : Message := ⟨"user", "", "", text, some time⟩

/-- The tail of a conversation that overlaps what is stored by one message. -/
theorem merge_is_union_tail : mergeMessages id [prompt "a" 0, prompt "b" 20000] [prompt "b" 20000, prompt "c" 40000] =
      [prompt "a" 0, prompt "b" 20000, prompt "c" 40000] := by
  have tells : Tells id [prompt "a" 0, prompt "b" 20000, prompt "c" 40000] 0 2 1 3 := by
    intro longer bounded looks
    by_contra more
    obtain rfl : longer = 2 := by omega
    exact absurd looks (by decide)
  exact (@merge_is_union_iff Message id [prompt "a" 0, prompt "b" 20000, prompt "c" 40000] 0 2 1 3
    (by decide) (by decide) (by decide) (by decide)).mpr tells

/-- A live window that begins before the stored page comes again behind it, and a prompt that is
repeated within ten seconds is taken for the stored one. -/
theorem merge_misses_union :
    mergeClaudeTranscriptMessages (slice [prompt "a" 0, prompt "b" 20000] 1 2) (slice [prompt "a" 0, prompt "b" 20000] 0 2) =
        [prompt "b" 20000, prompt "a" 0, prompt "b" 20000] ∧
      mergeClaudeTranscriptMessages (slice [prompt "resume" 0, prompt "resume" 9000] 0 1)
        (slice [prompt "resume" 0, prompt "resume" 9000] 1 2) = [prompt "resume" 0] := by
  decide

end TranscriptMerge
