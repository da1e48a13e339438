import Mathlib.Data.List.Nodup

/-! Batches that are appended to a log one after another, each again from its start where an attempt
has failed, by a receiver that skips the entries that it has. The log stays a prefix of what has been
pushed: nothing is skipped, doubled or put out of order, whatever fails and wherever. -/
namespace RetriedAppend

variable {α β : Type*}

/-- `remaining` is what is left of the attempt at the first batch, while there is one. -/
structure Outbox (α β : Type*) where
  log : List α := []
  batches : List β := []
  remaining : Option (List α) := none

section
variable (entries : β → List α)

def headEntries (o : Outbox α β) : List α := (o.batches.head?.map entries).getD []

def push (o : Outbox α β) (batch : β) : Outbox α β := { o with batches := o.batches ++ [batch] }

def attempt (o : Outbox α β) : Outbox α β := { o with remaining := o.batches.head?.map entries }

def store [DecidableEq α] (o : Outbox α β) : Option (Outbox α β) :=
  match o.remaining with
  | some (x :: rest) => some { o with log := if x ∈ o.log then o.log else o.log ++ [x], remaining := some rest }
  | _ => none

def shift (o : Outbox α β) : Option (β × Outbox α β) :=
  match o.remaining, o.batches with
  | some [], batch :: rest => some (batch, { o with batches := rest, remaining := rest.head?.map entries })
  | _, _ => none

def fail (o : Outbox α β) : Option (Outbox α β) := o.remaining.map fun _ => { o with remaining := none }

structure Conserved (o : Outbox α β) (pushed : List α) : Prop where
  nodup : pushed.Nodup
  split : ∃ before sent, o.log = before ++ sent ∧ before ++ o.batches.flatMap entries = pushed ∧
    sent <+: headEntries entries o ∧
    ∀ rest, o.remaining = some rest → o.batches ≠ [] ∧ ∃ done, done ++ rest = headEntries entries o ∧ done <+: sent

end

variable {entries : β → List α} {o : Outbox α β} {pushed : List α}

theorem headEntries_start (o : Outbox α β) : headEntries entries o <+: o.batches.flatMap entries := by
  unfold headEntries
  cases o.batches with
  | nil => exact List.nil_prefix
  | cons batch rest => exact List.prefix_append ..

theorem Conserved.init : Conserved entries ({} : Outbox α β) [] :=
  ⟨List.nodup_nil, [], [], rfl, rfl, List.nil_prefix, fun _ absurd => (nomatch absurd)⟩

theorem Conserved.log_eq (h : Conserved entries o pushed) (empty : o.batches = []) : o.log = pushed := by
  obtain ⟨before, sent, log, same, part, _⟩ := h.split
  unfold headEntries at part
  rw [empty] at same part
  obtain rfl : sent = [] := List.prefix_nil.mp part
  rw [log, ← same]
  rfl

theorem Conserved.push (h : Conserved entries o pushed) (batch : β) (nodup : (pushed ++ entries batch).Nodup) :
    Conserved entries (push o batch) (pushed ++ entries batch) := by
  obtain ⟨before, sent, log, same, part, attempted⟩ := h.split
  have head : headEntries entries o <+: headEntries entries (RetriedAppend.push o batch) := by
    unfold headEntries RetriedAppend.push
    cases o.batches with
    | nil => exact List.nil_prefix
    | cons first rest => exact List.prefix_rfl
  refine ⟨nodup, before, sent, log, ?_, part.trans head, fun rest left => ?_⟩
  · unfold RetriedAppend.push
    rw [List.flatMap_append, ← List.append_assoc, same]
    simp
  · obtain ⟨busy, done, ends, already⟩ := attempted rest left
    refine ⟨List.append_ne_nil_of_left_ne_nil busy _, done, ends.trans ?_, already⟩
    unfold headEntries RetriedAppend.push
    obtain ⟨first, others, batches⟩ := List.exists_cons_of_ne_nil busy
    rw [batches]
    rfl

theorem Conserved.attempt (h : Conserved entries o pushed) (busy : o.batches ≠ []) :
    Conserved entries (attempt entries o) pushed := by
  obtain ⟨before, sent, log, same, part, _⟩ := h.split
  refine ⟨h.nodup, before, sent, log, same, part, fun rest left => ⟨busy, [], ?_, List.nil_prefix⟩⟩
  have left : o.batches.head?.map entries = some rest := left
  change rest = (o.batches.head?.map entries).getD []
  rw [left]
  rfl

variable {next : Outbox α β}

theorem Conserved.store [DecidableEq α] (h : Conserved entries o pushed) (stored : store o = some next) :
    Conserved entries next pushed := by
  obtain ⟨before, sent, log, same, part, attempted⟩ := h.split
  unfold RetriedAppend.store at stored
  split at stored
  · next x rest left =>
      cases stored
      obtain ⟨busy, done, ends, already⟩ := attempted _ left
      have distinct : (before ++ headEntries entries o).Nodup := by
        refine List.Nodup.sublist ?_ h.nodup
        rw [← same]
        exact (List.append_sublist_append_left before).mpr (headEntries_start o).sublist
      rw [← ends] at distinct part
      have fresh : x ∉ before ++ done := by
        rw [← List.append_assoc, List.nodup_append] at distinct
        exact fun inside => distinct.2.2 x inside x List.mem_cons_self rfl
      obtain ⟨more, rfl⟩ := already
      have part : more <+: x :: rest := (List.prefix_append_right_inj done).mp part
      cases more with
      | nil =>
        have absent : x ∉ o.log := by
          rw [log, List.append_nil]
          exact fresh
        refine ⟨h.nodup, before, done ++ [x], ?_, same, ?_, fun rest' left' => ?_⟩
        · dsimp only
          rw [if_neg absent, log, List.append_nil, List.append_assoc]
        · change done ++ [x] <+: headEntries entries o
          rw [← ends]
          exact (List.prefix_append_right_inj done).mpr (List.prefix_append [x] rest)
        · cases left'
          refine ⟨busy, done ++ [x], ?_, List.prefix_rfl⟩
          rw [List.append_assoc]
          exact ends
      | cons y more =>
        obtain ⟨rfl, _⟩ := List.cons_prefix_cons.mp part
        have there : y ∈ o.log := by simp [log]
        refine ⟨h.nodup, before, done ++ y :: more, ?_, same, ?_, fun rest' left' => ?_⟩
        · dsimp only
          rw [if_pos there, log]
        · change done ++ y :: more <+: headEntries entries o
          rw [← ends]
          exact (List.prefix_append_right_inj done).mpr part
        · cases left'
          refine ⟨busy, done ++ [y], ?_, ?_⟩
          · rw [List.append_assoc]
            exact ends
          · exact (List.prefix_append_right_inj done).mpr (List.prefix_append [y] more)
  · cases stored

theorem Conserved.shift (h : Conserved entries o pushed) {batch : β} (shifted : shift entries o = some (batch, next)) :
    Conserved entries next pushed := by
  obtain ⟨before, sent, log, same, part, attempted⟩ := h.split
  unfold RetriedAppend.shift at shifted
  split at shifted
  · next first rest left batches =>
      obtain rfl := (Prod.mk.inj (Option.some.inj shifted)).2
      obtain ⟨_, done, ends, already⟩ := attempted _ left
      rw [List.append_nil] at ends
      have whole : headEntries entries o = entries first := by
        unfold headEntries
        rw [batches]
        rfl
      obtain rfl : sent = entries first := by
        rw [← whole]
        exact part.eq_of_length_le (ends ▸ already.length_le)
      refine ⟨h.nodup, before ++ entries first, [], ?_, ?_, List.nil_prefix, fun rest' left' => ?_⟩
      · rw [List.append_nil]
        exact log
      · rw [← same, batches, List.append_assoc]
        rfl
      · have left' : rest.head?.map entries = some rest' := left'
        cases rest with
        | nil => cases left'
        | cons second others =>
          cases left'
          exact ⟨List.cons_ne_nil _ _, [], rfl, List.nil_prefix⟩
  · cases shifted

theorem Conserved.fail (h : Conserved entries o pushed) (failed : fail o = some next) :
    Conserved entries next pushed := by
  obtain ⟨before, sent, log, same, part, _⟩ := h.split
  obtain ⟨_, _, rfl⟩ := Option.map_eq_some_iff.mp failed
  exact ⟨h.nodup, before, sent, log, same, part, fun _ absurd => (nomatch absurd)⟩

end RetriedAppend
