import Oyster.ClaudeTranscript
import Oyster.OrderedMapSums
import Mathlib.Data.List.Induction
import Mathlib.Tactic.Linarith
import Mathlib.Tactic.Ring

/-! What the projection of a transcript keeps from record to record: the entries of the assistant are the parts of the responses, what is
accounted for is the sum of what is booked, and the parent of an entry comes before it. -/
namespace ClaudeTranscript
def assistantOf {κ : Type} (entry : Entry κ) : Option (String × AssistantMessage κ) :=
  match entry.message with
  | .assistant message => some (entry.id, message)
  | .toolResult .. | .user .. => none

def assistants {κ : Type} (entries : List (Entry κ)) : List (String × AssistantMessage κ) := entries.filterMap assistantOf

def part (dates : Dates) (record : Record) : Option (String × AssistantMessage Cost) :=
  if record.isSidechain = false ∧ record.type = "assistant" then
    (record.uuid.filter (· ≠ "")).map fun id => (id, assistantMessage dates record)
  else none

def parts (dates : Dates) (records : List Record) : List (String × AssistantMessage Cost) := records.filterMap (part dates)

def key {κ : Type} (part : String × AssistantMessage κ) : ResponseId := part.2.responseId.getD (.text part.1)

def keyed (part : String × AssistantMessage Cost) : String × AssistantMessage ResponseId :=
  (part.1, { part.2 with usage := { part.2.usage with cost := key part } })

variable {dates : Dates} {s : State} {record : Record}

theorem assistants_push (s : State) (id : String) (parentId : Option String) (timestamp : Int)
    (message : Message ResponseId) :
    assistants (s.push id parentId timestamp message).entries =
      assistants s.entries ++ (assistantOf ⟨id, parentId, timestamp, message⟩).toList := by
  rw [assistants, State.push, List.filterMap_append, List.filterMap_cons, List.filterMap_nil]
  cases assistantOf ⟨id, parentId, timestamp, message⟩ with
  | none => rfl
  | some part => rfl

variable {sourceId : String} {single : Bool} {timestamp : Int} {messages : List (Message Cost)}

theorem addMessages_others (others : ∀ message ∈ messages, ∀ said, message ≠ .assistant said) (s : State)
    (parentId : Option String) (index : Nat) :
    (State.addMessages sourceId single timestamp s parentId index messages).1.ledger = s.ledger ∧
      assistants (State.addMessages sourceId single timestamp s parentId index messages).1.entries = assistants s.entries := by
  induction messages generalizing s parentId index with
  | nil => exact ⟨rfl, rfl⟩
  | cons message messages ih =>
    obtain ⟨here, later⟩ := List.forall_mem_cons.mp others
    cases message with
    | assistant said => exact absurd rfl (here said)
    | toolResult toolCallId toolName content isError time =>
      obtain ⟨ledger, same⟩ :=
        ih later (s.addMessage _ parentId timestamp (.toolResult toolCallId toolName content isError time)) _ (index + 1)
      refine ⟨ledger, same.trans ?_⟩
      rw [State.addMessage, assistants_push]
      exact List.append_nil _
    | user content time =>
      obtain ⟨ledger, same⟩ := ih later (s.addMessage _ parentId timestamp (.user content time)) _ (index + 1)
      refine ⟨ledger, same.trans ?_⟩
      rw [State.addMessage, assistants_push]
      exact List.append_nil _

theorem toolResult_other {toolNames : ToolNames} {block : Block} {message : Message Cost}
    (made : toolResult dates record toolNames block = some message) (said : AssistantMessage Cost) :
    message ≠ .assistant said := by
  unfold toolResult at made
  split at made
  · dsimp only at made
    split at made
    · cases made
    · cases made
      intro same
      cases same
  · cases made

theorem claudeRecordMessages_cases (dates : Dates) (record : Record) (toolNames : ToolNames) :
    (record.isSidechain = false ∧ record.type = "assistant" ∧
        (claudeRecordMessages dates record toolNames).1 = [.assistant (assistantMessage dates record)]) ∨
      ¬(record.isSidechain = false ∧ record.type = "assistant") ∧
        ∀ message ∈ (claudeRecordMessages dates record toolNames).1, ∀ said, message ≠ .assistant said := by
  unfold claudeRecordMessages
  by_cases side : record.isSidechain = true
  · rw [if_pos side, side]
    exact .inr ⟨nofun, fun _ none => absurd none List.not_mem_nil⟩
  · rw [if_neg side]
    by_cases assistant : record.type = "assistant"
    · rw [if_pos assistant]
      exact .inl ⟨Bool.eq_false_iff.mpr side, assistant, rfl⟩
    · rw [if_neg assistant]
      refine .inr ⟨fun both => assistant both.2, fun message there said => ?_⟩
      dsimp only at there
      split_ifs at there
      · exact absurd there List.not_mem_nil
      · obtain ⟨block, -, made⟩ := List.mem_filterMap.mp there
        exact toolResult_other made said
      · exact absurd there List.not_mem_nil
      · obtain rfl := List.mem_singleton.mp there
        nofun

def parentOf (s : State) (record : Record) : Option String :=
  match record.parentUuid with
  | some parentUuid => (s.leafByRecord.get parentUuid).getD none
  | none => s.latestLeaf

def added (dates : Dates) (s : State) (record : Record) (sourceId : String) : State × Option String :=
  let made := claudeRecordMessages dates record s.toolNames
  State.addMessages sourceId (made.1.length = 1) (recordTimestamp dates record.timestamp 0)
    { s with ledger := s.ledger.snapshot record, toolNames := made.2 } (parentOf s record) 0 made.1

theorem step_none (uuid : record.uuid.filter (· ≠ "") = none) :
    step dates s record = { s with ledger := s.ledger.snapshot record } := by
  rw [step, uuid]

theorem step_some (uuid : record.uuid.filter (· ≠ "") = some sourceId) : step dates s record =
      { (added dates s record sourceId).1 with
        leafByRecord := (added dates s record sourceId).1.leafByRecord.set sourceId (added dates s record sourceId).2 } :=
          by
  rw [step, uuid]
  rfl

theorem step_part (dates : Dates) (s : State) (record : Record) : (step dates s record).ledger =
        (match part dates record with
        | none => s.ledger.snapshot record
        | some part => (s.ledger.snapshot record).book (key part) part.2.usage.cost) ∧
      assistants (step dates s record).entries = assistants s.entries ++ ((part dates record).map keyed).toList := by
  cases uuid : record.uuid.filter (· ≠ "") with
  | none =>
    have none : part dates record = none := by
      rw [part, uuid]
      split_ifs
      · rfl
      · rfl
    rw [step_none uuid, none]
    exact ⟨rfl, (List.append_nil _).symm⟩
  | some sourceId =>
    rw [step_some uuid]
    obtain ⟨main, assistant, messages⟩ | ⟨other, others⟩ := claudeRecordMessages_cases dates record s.toolNames
    · have made : part dates record = some (sourceId, assistantMessage dates record) := by
        rw [part, if_pos ⟨main, assistant⟩, uuid]
        rfl
      rw [made, added, messages]
      refine ⟨rfl, ?_⟩
      show assistants (State.push ..).entries = _
      rw [assistants_push]
      rfl
    · have none : part dates record = none := if_neg other
      rw [none]
      obtain ⟨ledger, same⟩ := addMessages_others others { s with ledger := s.ledger.snapshot record, toolNames := _ }
        (parentOf s record) 0
      exact ⟨ledger, same.trans (List.append_nil _).symm⟩

theorem project_snoc (dates : Dates) (records : List Record) (record : Record) :
    project dates (records ++ [record]) = step dates (project dates records) record := by
  rw [project, List.foldl_append]
  rfl

theorem parts_snoc (dates : Dates) (records : List Record) (record : Record) :
    parts dates (records ++ [record]) = parts dates records ++ (part dates record).toList := by
  rw [parts, List.filterMap_append, List.filterMap_cons, List.filterMap_nil]
  cases part dates record with
  | none => rfl
  | some part => rfl

theorem assistants_project (dates : Dates) (records : List Record) :
    assistants (project dates records).entries = (parts dates records).map keyed := by
  induction records using List.reverseRecOn with
  | nil => rfl
  | append_singleton records record ih =>
    rw [project_snoc, (step_part dates _ record).2, ih, parts_snoc, List.map_append]
    cases part dates record with
    | none => rfl
    | some part => rfl

/-- What is accounted for is the sum of the costs that are booked, and a snapshot finds the response that it is booked on. -/
structure Balanced (l : Ledger) : Prop where
  sum : (l.costMessages.entries.map fun entry => entry.2.total).sum = l.accountedCost
  nonneg : ∀ key cost, (key, cost) ∈ l.costMessages → 0 ≤ cost.total
  latest : ∀ key, l.latestCostMessage = some key → l.costMessages.has key = true

theorem finite_nonneg (value : Option ℚ) : 0 ≤ finite value := by
  unfold finite
  split_ifs with positive
  · exact positive
  · exact le_refl 0

section Ledger
variable {l : Ledger} {booked : ResponseId} {cost : Cost}

theorem snapshot_cases (l : Ledger) (record : Record) : l.snapshot record = l ∨
      ∃ key total, l.latestCostMessage = some key ∧ record.totalCostUSD = some total ∧ l.accountedCost < total ∧
        l.snapshot record = { l with
          costMessages := l.costMessages.modify key fun cost =>
            { cost with total := cost.total + (total - l.accountedCost) }
          accountedCost := total } := by
  unfold Ledger.snapshot
  split_ifs
  · split
    · next key total latest reported =>
        split_ifs with grown
        · exact .inr ⟨key, total, latest, reported, grown, rfl⟩
        · exact .inl rfl
    · exact .inl rfl
  · exact .inl rfl

theorem Balanced.snapshot (balanced : Balanced l) (record : Record) : Balanced (l.snapshot record) := by
  obtain same | ⟨key, total, latest, -, grown, same⟩ := snapshot_cases l record
  · rw [same]
    exact balanced
  · obtain ⟨old, there⟩ := OrderedMap.has_iff.mp (balanced.latest key latest)
    rw [same]
    constructor
    · have before : OrderedMap.sumOf Cost.total l.costMessages = l.accountedCost := balanced.sum
      have grows : OrderedMap.sumOf Cost.total (l.costMessages.modify key fun cost =>
          { cost with total := cost.total + (total - l.accountedCost) }) = total := by
        rw [OrderedMap.sumOf_modify there rfl, before]
        ring
      exact grows
    · intro other cost booked
      rcases OrderedMap.mem_modify.mp booked with ⟨rfl, before, thereBefore, rfl⟩ | ⟨-, thereBefore⟩
      · have := balanced.nonneg _ _ thereBefore
        linarith
      · exact balanced.nonneg _ _ thereBefore
    · intro other still
      exact (OrderedMap.has_modify ..).trans (balanced.latest other still)

theorem has_book (l : Ledger) (booked other : ResponseId) (cost : Cost) :
    (l.book booked cost).costMessages.has other = true ↔ other = booked ∨ l.costMessages.has other = true := by
  unfold Ledger.book
  split_ifs with present
  · exact ⟨.inr, fun either => either.elim (fun same => same ▸ present) id⟩
  · simp only [OrderedMap.has_iff, OrderedMap.mem_set]
    constructor
    · rintro ⟨value, ⟨same, -⟩ | ⟨-, there⟩⟩
      · exact .inl same
      · exact .inr ⟨value, there⟩
    · intro either
      by_cases same : other = booked
      · exact ⟨cost, .inl ⟨same, rfl⟩⟩
      · obtain ⟨value, there⟩ := either.resolve_left same
        exact ⟨value, .inr ⟨same, there⟩⟩

theorem latest_book (l : Ledger) (booked : ResponseId) (cost : Cost) :
    (l.book booked cost).latestCostMessage = some booked := by
  unfold Ledger.book
  split_ifs
  · rfl
  · rfl

theorem Balanced.book (balanced : Balanced l) (booked : ResponseId) (positive : 0 ≤ cost.total) :
    Balanced (l.book booked cost) where
  sum := by
    unfold Ledger.book
    split_ifs with present
    · exact balanced.sum
    · have before : OrderedMap.sumOf Cost.total l.costMessages = l.accountedCost := balanced.sum
      have grows := OrderedMap.sumOf_set_new (f := Cost.total) (Bool.eq_false_iff.mpr present) cost
      rw [before] at grows
      exact grows
  nonneg := by
    unfold Ledger.book
    split_ifs with present
    · exact balanced.nonneg
    · intro other value there
      rcases OrderedMap.mem_set.mp there with ⟨-, rfl⟩ | ⟨-, before⟩
      · exact positive
      · exact balanced.nonneg other value before
  latest := by
    intro other latest
    cases (latest_book l booked cost).symm.trans latest
    exact (has_book l booked booked cost).mpr (.inl rfl)

theorem le_snapshot (l : Ledger) (record : Record) : l.accountedCost ≤ (l.snapshot record).accountedCost := by
  obtain same | ⟨key, total, -, -, grown, same⟩ := snapshot_cases l record
  · rw [same]
  · rw [same]
    exact le_of_lt grown

theorem le_book (l : Ledger) (booked : ResponseId) (positive : 0 ≤ cost.total) :
    l.accountedCost ≤ (l.book booked cost).accountedCost := by
  unfold Ledger.book
  split_ifs
  · exact le_refl _
  · exact le_add_of_nonneg_right positive

theorem has_snapshot (l : Ledger) (record : Record) (key : ResponseId) :
    (l.snapshot record).costMessages.has key = l.costMessages.has key := by
  obtain same | ⟨latest, total, -, -, -, same⟩ := snapshot_cases l record
  · rw [same]
  · rw [same]
    exact OrderedMap.has_modify ..

end Ledger

theorem part_cost {made : String × AssistantMessage Cost} (found : part dates record = some made) :
    0 ≤ made.2.usage.cost.total := by
  unfold part at found
  split_ifs at found
  obtain ⟨id, -, rfl⟩ := Option.map_eq_some_iff.mp found
  exact finite_nonneg _

theorem le_step (dates : Dates) (s : State) (record : Record) :
    s.ledger.accountedCost ≤ (step dates s record).ledger.accountedCost := by
  rw [(step_part dates s record).1]
  cases made : part dates record with
  | none => exact le_snapshot s.ledger record
  | some made => exact (le_snapshot s.ledger record).trans (le_book _ _ (part_cost ‹_›))

theorem project_ledger (dates : Dates) (records : List Record) : Balanced (project dates records).ledger ∧
      ∀ booked, (project dates records).ledger.costMessages.has booked = true ↔ ∃ made ∈ parts dates records,
        key made = booked := by
  induction records using List.reverseRecOn with
  | nil =>
    refine ⟨⟨rfl, fun _ _ there => absurd there (OrderedMap.not_mem_empty _), nofun⟩, fun booked => ?_⟩
    exact iff_of_false Bool.noConfusion fun ⟨_, there, _⟩ => absurd there List.not_mem_nil
  | append_singleton records record ih =>
    obtain ⟨balanced, keys⟩ := ih
    rw [project_snoc, (step_part dates _ record).1, parts_snoc]
    cases found : part dates record with
    | none =>
      refine ⟨balanced.snapshot record, fun booked => ?_⟩
      rw [has_snapshot, keys, Option.toList_none, List.append_nil]
    | some made =>
      refine ⟨(balanced.snapshot record).book _ (part_cost found), fun booked => ?_⟩
      rw [has_book, has_snapshot, keys]
      simp only [Option.toList_some, List.mem_append, List.mem_singleton]
      constructor
      · rintro (rfl | ⟨other, there, same⟩)
        · exact ⟨made, .inr rfl, rfl⟩
        · exact ⟨other, .inl there, same⟩
      · rintro ⟨other, there | rfl, same⟩
        · exact .inr ⟨other, there, same⟩
        · exact .inl same.symm

def Rooted {κ : Type} (entries : List (Entry κ)) : Prop :=
  ∀ before entry after, entries = before ++ entry :: after → ∀ id, entry.parentId = some id → ∃ parent ∈ before,
    parent.id = id

def Known {κ : Type} (entries : List (Entry κ)) (leaf : Option String) : Prop :=
  ∀ id, leaf = some id → ∃ entry ∈ entries, entry.id = id

structure Chained (s : State) : Prop where
  rooted : Rooted s.entries
  latestLeaf : Known s.entries s.latestLeaf
  leafByRecord : ∀ uuid leaf, (uuid, leaf) ∈ s.leafByRecord → Known s.entries leaf

variable {κ : Type} {entries : List (Entry κ)}

theorem Known.append {leaf : Option String} (known : Known entries leaf) (more : List (Entry κ)) :
    Known (entries ++ more) leaf := by
  intro id same
  obtain ⟨entry, there, named⟩ := known id same
  exact ⟨entry, List.mem_append_left more there, named⟩

theorem Rooted.snoc (rooted : Rooted entries) {last : Entry κ} (known : Known entries last.parentId) :
    Rooted (entries ++ [last]) := by
  intro before entry after same id parent
  obtain rfl | ⟨after, end_, rfl⟩ := List.eq_nil_or_concat after
  · obtain ⟨rfl, ends⟩ := List.append_inj' same rfl
    obtain rfl := (List.cons.inj ends).1
    exact known id parent
  · rw [List.concat_eq_append, ← List.cons_append, ← List.append_assoc] at same
    obtain ⟨rfl, -⟩ := List.append_inj' same rfl
    exact rooted before entry after rfl id parent

theorem addMessage_entry (s : State) (id : String) (parentId : Option String) (timestamp : Int) (message : Message Cost) :
    ∃ shown, (s.addMessage id parentId timestamp message).entries = s.entries ++ [⟨id, parentId, timestamp, shown⟩] ∧
      (s.addMessage id parentId timestamp message).latestLeaf = some id ∧
      (s.addMessage id parentId timestamp message).leafByRecord = s.leafByRecord := by
  cases message with
  | _ => exact ⟨_, rfl, rfl, rfl⟩

variable {parentId : Option String}

theorem Chained.addMessage (chained : Chained s) (known : Known s.entries parentId) (id : String) (timestamp : Int)
    (message : Message Cost) : Chained (s.addMessage id parentId timestamp message) ∧
    Known (s.addMessage id parentId timestamp message).entries (some id) := by
  obtain ⟨shown, entries, latestLeaf, leafByRecord⟩ := addMessage_entry s id parentId timestamp message
  have last : Known (s.entries ++ [⟨id, parentId, timestamp, shown⟩]) (some id) := by
    intro other same
    exact ⟨_, List.mem_append_right _ (List.mem_singleton_self _), Option.some.inj same⟩
  refine ⟨⟨?_, ?_, ?_⟩, entries ▸ last⟩
  · rw [entries]
    exact chained.rooted.snoc known
  · rw [entries, latestLeaf]
    exact last
  · rw [entries, leafByRecord]
    exact fun uuid leaf there => (chained.leafByRecord uuid leaf there).append _

theorem Chained.addMessages (chained : Chained s) (known : Known s.entries parentId) (index : Nat) :
    Chained (State.addMessages sourceId single timestamp s parentId index messages).1 ∧
      Known (State.addMessages sourceId single timestamp s parentId index messages).1.entries
        (State.addMessages sourceId single timestamp s parentId index messages).2 := by
  induction messages generalizing s parentId index with
  | nil => exact ⟨chained, known⟩
  | cons message messages ih =>
    obtain ⟨chained, known⟩ := chained.addMessage known _ timestamp message
    exact ih chained known (index + 1)

theorem Chained.parentOf (chained : Chained s) (record : Record) : Known s.entries (parentOf s record) := by
  unfold ClaudeTranscript.parentOf
  split
  · next parentUuid _ =>
      cases leaf : s.leafByRecord.get parentUuid with
      | none => nofun
      | some value => exact chained.leafByRecord parentUuid value (OrderedMap.mem_of_get leaf)
  · exact chained.latestLeaf

theorem Chained.step (chained : Chained s) (dates : Dates) (record : Record) : Chained (step dates s record) := by
  cases uuid : record.uuid.filter (· ≠ "") with
  | none =>
    rw [step_none uuid]
    exact ⟨chained.rooted, chained.latestLeaf, chained.leafByRecord⟩
  | some sourceId =>
    rw [step_some uuid]
    have same : Chained { s with
        ledger := s.ledger.snapshot record
        toolNames := (claudeRecordMessages dates record s.toolNames).2 } :=
      ⟨chained.rooted, chained.latestLeaf, chained.leafByRecord⟩
    obtain ⟨after, leaf⟩ := same.addMessages (chained.parentOf record) 0
    refine ⟨after.rooted, after.latestLeaf, fun key value there => ?_⟩
    rcases OrderedMap.mem_set.mp there with ⟨-, rfl⟩ | ⟨-, before⟩
    · exact leaf
    · exact after.leafByRecord key value before

theorem chained_project (dates : Dates) (records : List Record) : Chained (project dates records) := by
  induction records using List.reverseRecOn with
  | nil =>
    refine ⟨fun before entry after same => ?_, nofun, fun uuid leaf there => absurd there (OrderedMap.not_mem_empty _)⟩
    exact absurd same.symm (List.append_ne_nil_of_right_ne_nil _ (List.cons_ne_nil _ _))
  | append_singleton records record ih =>
    rw [project_snoc]
    exact ih.step dates record

end ClaudeTranscript
