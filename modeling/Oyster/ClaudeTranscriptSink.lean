import Oyster.ClaudeLedger
import Oyster.Text

/-! The import of a Claude transcript into a stored session. A sync compares what is stored with a fresh projection of the
file; it settles exactly when the projection does not depend on the clock and its ids are apart. -/
namespace ClaudeTranscriptSink
open ClaudeTranscript

/-- The records of a file; `parse` is what `JSON.parse` makes of a line, if that is an object. -/
def parseClaudeJsonl (parse : List Char → Option Record) (text : List Char) : List Record :=
  (text.splitOn '\n').filterMap fun line => if Text.trim line = [] then none else parse line

/-- A stored message. One that no projection has made has its own texts, as `JSON.stringify` gives them. -/
structure StoredMessage where
  id : String
  parentId : Option String
  timestamp : Int ⊕ String
  message : Message Cost ⊕ String
deriving DecidableEq

inductive StoredEntry where
  | message (stored : StoredMessage)
  | other (id : String)

def StoredEntry.id : StoredEntry → String
  | .message stored => stored.id
  | .other id => id

def StoredEntry.message? : StoredEntry → Option StoredMessage
  | .message stored => some stored
  | .other _ => none

def stored (entry : Entry Cost) : StoredMessage := ⟨entry.id, entry.parentId, .inl entry.timestamp, .inl entry.message⟩

def messages (existing : List StoredEntry) : List StoredMessage := existing.filterMap (·.message?)

def sameEntry (left : StoredMessage) (right : Entry Cost) : Bool :=
  left.id = right.id && left.parentId = right.parentId && left.message = .inl right.message

def prefixMatches (persisted : List StoredMessage) (entries : List (Entry Cost)) : Bool :=
  persisted.length ≤ entries.length && (persisted.zip entries).all fun pair => sameEntry pair.1 pair.2

def appended : (knownIds : List String) → List (Entry Cost) → List (Entry Cost)
  | _, [] => []
  | knownIds, entry :: entries =>
    if entry.id ∈ knownIds then appended knownIds entries
    else entry :: appended (entry.id :: knownIds) entries

structure Outcome where
  session : List StoredEntry
  changed : Bool
  rebuilt : Bool
  appended : Nat
  messageCount : Nat

/-- The session is brought up to the projection; `none` is a session that does not exist yet. -/
def reconcile (entries : List (Entry Cost)) (session : Option (List StoredEntry)) : Outcome :=
  let persistedMessages := messages (session.getD [])
  let kept := prefixMatches persistedMessages entries
  let existing := if kept then session.getD [] else []
  let created := session.isNone || !kept
  let new := appended (existing.map (·.id)) entries
  { session := existing ++ new.map fun entry => .message (stored entry)
    changed := created || 0 < new.length
    rebuilt := created && 0 < persistedMessages.length
    appended := new.length
    messageCount := entries.length }

section Sync
variable (parseDate : String → Option Int) (parse : List Char → Option Record) (text : List Char)

/-- What the file is projected on when the clock shows `now`. -/
def projection (now : Int) : List (Entry Cost) :=
  claudeRecordsToSessionEntries ⟨parseDate, now⟩ (parseClaudeJsonl parse text)

def sync (session : Option (List StoredEntry)) (now : Int) : Outcome :=
  reconcile (projection parseDate parse text now) session

def Idempotent (session : Option (List StoredEntry)) : Prop :=
  ∀ now, messages (sync parseDate parse text session now).session = (projection parseDate parse text now).map stored ∧
    ∀ later, (sync parseDate parse text (some (sync parseDate parse text session now).session) later).changed = false ∧
      (sync parseDate parse text (some (sync parseDate parse text session now).session) later).session =
        (sync parseDate parse text session now).session

end Sync

def isResult : Block → Bool
  | .toolResult toolUseId _ _ => toolUseId.getD "" ≠ ""
  | _ => false

def messageCount (record : Record) : Nat :=
  if record.isSidechain then 0
  else if record.type = "assistant" then 1
  else if record.type ≠ "user" then 0
  else
    let results := (blocks record.message.content).countP isResult
    if results ≠ 0 then results else if (contentBlocks record.message.content).any (·.plain) then 1 else 0

def Timely (parseDate : String → Option Int) (records : List Record) : Prop :=
  ∀ record ∈ records, record.uuid.any (· ≠ "") = true → messageCount record ≠ 0 →
    (parseDate (record.timestamp.getD "")).isSome = true

/-- The ids of the entries are apart where they are appended; stored messages that are kept have the times of the entries. -/
def Fits (entries : List (Entry Cost)) (existing : List StoredEntry) : Prop :=
  if prefixMatches (messages existing) entries then
    (∀ pair ∈ (messages existing).zip entries, pair.1.timestamp = .inl pair.2.timestamp) ∧
      ((entries.drop (messages existing).length).map (·.id)).Nodup ∧
      ∀ entry ∈ entries.drop (messages existing).length, entry.id ∉ existing.map (·.id)
  else (entries.map (·.id)).Nodup

section Append
variable {known : List String} {entries : List (Entry Cost)}

theorem appended_sublist (known : List String) (entries : List (Entry Cost)) : (appended known entries).Sublist entries := by
  induction entries generalizing known with
  | nil => exact .slnil
  | cons entry entries ih =>
    unfold appended
    split_ifs
    · exact (ih known).cons entry
    · exact (ih _).cons_cons entry

theorem appended_eq_iff : appended known entries = entries ↔
    (entries.map (·.id)).Nodup ∧ ∀ entry ∈ entries, entry.id ∉ known := by
  induction entries generalizing known with
  | nil => simp [appended]
  | cons entry entries ih =>
    unfold appended
    split_ifs with old
    · constructor
      · intro same
        have short := (appended_sublist known entries).length_le
        rw [same, List.length_cons] at short
        omega
      · exact fun ⟨_, fresh⟩ => absurd old (fresh entry List.mem_cons_self)
    · rw [List.cons_inj_right, ih, List.map_cons, List.nodup_cons, List.forall_mem_cons]
      simp only [List.mem_cons, not_or, List.mem_map, not_exists, not_and]
      constructor
      · rintro ⟨nodup, fresh⟩
        exact ⟨⟨fun other there => (fresh other there).1, nodup⟩, old, fun other there => (fresh other there).2⟩
      · rintro ⟨⟨apart, nodup⟩, -, fresh⟩
        exact ⟨nodup, fun other there => ⟨apart other there, fresh other there⟩⟩

theorem appended_known {old : List (Entry Cost)} (all : ∀ entry ∈ old, entry.id ∈ known) :
    appended known (old ++ entries) = appended known entries := by
  induction old with
  | nil => rfl
  | cons entry old ih =>
    obtain ⟨here, later⟩ := List.forall_mem_cons.mp all
    rw [List.cons_append, appended, if_pos here, ih later]

end Append

theorem stored_injective : Function.Injective stored := by
  rintro ⟨id, parentId, timestamp, message⟩ ⟨id', parentId', timestamp', message'⟩ same
  obtain ⟨rfl, rfl, time, content⟩ := StoredMessage.mk.inj same
  cases time
  cases content
  rfl

theorem messages_append (existing : List StoredEntry) (entries : List (Entry Cost)) :
    messages (existing ++ entries.map fun entry => .message (stored entry)) = messages existing ++ entries.map stored := by
  rw [messages, List.filterMap_append, List.filterMap_map]
  exact congrArg (_ ++ ·) (List.filterMap_eq_map ▸ rfl)

theorem mem_ids_of_messages {existing : List StoredEntry} {message : StoredMessage} (there : message ∈ messages existing) :
    message.id ∈ existing.map (·.id) := by
  obtain ⟨entry, inside, made⟩ := List.mem_filterMap.mp there
  cases entry with
  | message stored =>
    cases made
    exact List.mem_map.mpr ⟨_, inside, rfl⟩
  | other id => cases made

section Match
variable {persisted : List StoredMessage} {entries : List (Entry Cost)}

theorem sameEntry_iff {left : StoredMessage} {right : Entry Cost} : sameEntry left right = true ↔
      left.id = right.id ∧ left.parentId = right.parentId ∧ left.message = .inl right.message := by
  simp [sameEntry, and_assoc]

theorem prefixMatches_cons {message : StoredMessage} {entry : Entry Cost} :
    prefixMatches (message :: persisted) (entry :: entries) = true ↔
      sameEntry message entry = true ∧ prefixMatches persisted entries = true := by
  simp only [prefixMatches, List.length_cons, Nat.add_le_add_iff_right, List.zip_cons_cons, List.all_cons, Bool.and_eq_true]
  exact and_left_comm

theorem eq_take_iff (kept : prefixMatches persisted entries = true) :
    persisted = (entries.take persisted.length).map stored ↔
      ∀ pair ∈ persisted.zip entries, pair.1.timestamp = .inl pair.2.timestamp := by
  induction persisted generalizing entries with
  | nil => simp
  | cons message persisted ih =>
    cases entries with
    | nil => simp [prefixMatches] at kept
    | cons entry entries =>
      obtain ⟨same, rest⟩ := prefixMatches_cons.mp kept
      obtain ⟨id, parentId, content⟩ := sameEntry_iff.mp same
      have later := @ih entries rest
      rw [List.length_cons, List.take_succ_cons, List.map_cons, List.cons_eq_cons, List.zip_cons_cons,
        List.forall_mem_cons, ← later]
      refine and_congr_left' ⟨fun equal => by rw [equal]; rfl, fun time => ?_⟩
      obtain ⟨i, p, t, m⟩ := message
      dsimp only at id parentId content time
      rw [id, parentId, content, time]
      rfl

theorem ids_of_match (kept : prefixMatches persisted entries = true) :
    (entries.take persisted.length).map (·.id) = persisted.map (·.id) := by
  induction persisted generalizing entries with
  | nil => simp
  | cons message persisted ih =>
    cases entries with
    | nil => simp [prefixMatches] at kept
    | cons entry entries =>
      obtain ⟨same, rest⟩ := prefixMatches_cons.mp kept
      rw [List.length_cons, List.take_succ_cons, List.map_cons, List.map_cons, (sameEntry_iff.mp same).1, ih rest]

theorem prefixMatches_stored (entries : List (Entry Cost)) : prefixMatches (entries.map stored) entries = true := by
  induction entries with
  | nil => rfl
  | cons entry entries ih => exact prefixMatches_cons.mpr ⟨sameEntry_iff.mpr ⟨rfl, rfl, rfl⟩, ih⟩

end Match

section Reconcile
variable {entries : List (Entry Cost)} {session : Option (List StoredEntry)} {existing : List StoredEntry}

theorem reconcile_messages_iff :
    messages (reconcile entries session).session = entries.map stored ↔ Fits entries (session.getD []) := by
  unfold reconcile Fits
  rw [messages_append]
  cases kept : prefixMatches (messages (session.getD [])) entries with
  | false =>
    show [] ++ (appended [] entries).map stored = _ ↔ _
    rw [List.nil_append, stored_injective.list_map.eq_iff, appended_eq_iff]
    simp
  | true =>
    rw [if_pos rfl, if_pos rfl]
    have length := (Bool.and_eq_true_iff.mp kept).1
    have short : (messages (session.getD [])).length ≤ entries.length := of_decide_eq_true length
    have known : ∀ entry ∈ entries.take (messages (session.getD [])).length,
        entry.id ∈ (session.getD []).map (·.id) := by
      intro entry there
      have listed : entry.id ∈ (messages (session.getD [])).map (·.id) :=
        ids_of_match kept ▸ List.mem_map_of_mem there
      obtain ⟨message, inside, same⟩ := List.mem_map.mp listed
      exact same ▸ mem_ids_of_messages inside
    have rest := @appended_known _ (entries.drop (messages (session.getD [])).length) _ known
    rw [List.take_append_drop] at rest
    rw [rest, ← eq_take_iff kept, ← appended_eq_iff]
    have split : entries.map stored = (entries.take (messages (session.getD [])).length).map stored ++
        (entries.drop (messages (session.getD [])).length).map stored := by
      rw [← List.map_append, List.take_append_drop]
    rw [split]
    constructor
    · intro same
      obtain ⟨first, second⟩ := List.append_inj same (by simp [short])
      exact ⟨first, stored_injective.list_map second⟩
    · rintro ⟨first, second⟩
      rw [second]
      exact congrArg (· ++ _) first

theorem reconcile_same (settled : messages existing = entries.map stored) :
    reconcile entries (some existing) = ⟨existing, false, false, 0, entries.length⟩ := by
  have kept : prefixMatches (messages existing) entries = true := settled ▸ prefixMatches_stored entries
  have known : ∀ entry ∈ entries, entry.id ∈ existing.map (·.id) := by
    intro entry there
    exact mem_ids_of_messages (settled ▸ List.mem_map_of_mem there : stored entry ∈ messages existing)
  have nothing : appended (existing.map (·.id)) entries = [] := by
    have all := @appended_known _ [] _ known
    rwa [List.append_nil] at all
  unfold reconcile
  dsimp only [Option.getD_some]
  rw [kept, if_pos rfl, nothing]
  simp

theorem kept_of_unchanged (same : (reconcile entries (some existing)).changed = false) :
    prefixMatches (messages existing) entries = true := by
  unfold reconcile at same
  dsimp only [Option.getD_some, Option.isNone_some] at same
  rw [Bool.or_eq_false_iff, Bool.false_or, Bool.not_eq_false'] at same
  exact same.1

end Reconcile

def time {κ : Type} : Message κ → Int
  | .assistant message => message.timestamp
  | .toolResult _ _ _ _ timestamp => timestamp
  | .user _ timestamp => timestamp

def timeOf (dates : Dates) (record : Record) : Int := recordTimestamp dates record.timestamp dates.now

section Clock
variable {dates dates' : Dates} {record : Record} {s : State}

theorem toolResult_times (dates : Dates) (record : Record) (toolNames : ToolNames) (blocks : List Block) :
    (blocks.filterMap (toolResult dates record toolNames)).map time =
      List.replicate (blocks.countP isResult) (timeOf dates record) := by
  induction blocks with
  | nil => rfl
  | cons block blocks ih =>
    cases block with
    | toolResult toolUseId content isError =>
      by_cases unnamed : toolUseId.getD "" = ""
      · have none : toolResult dates record toolNames (.toolResult toolUseId content isError) = none := if_pos unnamed
        rw [List.filterMap_cons_none none, List.countP_cons_of_neg (by simpa [isResult] using unnamed), ih]
      · rw [List.filterMap_cons, List.countP_cons_of_pos (by simpa [isResult] using unnamed), List.replicate_succ,
          ← ih]
        simp only [toolResult, if_neg unnamed, List.map_cons]
        rfl
    | _ => exact ih

theorem claudeRecordMessages_times (dates : Dates) (record : Record) (toolNames : ToolNames) :
    (claudeRecordMessages dates record toolNames).1.map time =
      List.replicate (messageCount record) (timeOf dates record) := by
  unfold claudeRecordMessages messageCount
  by_cases side : record.isSidechain = true
  · rw [if_pos side, if_pos side]
    rfl
  rw [if_neg side, if_neg side]
  by_cases assistant : record.type = "assistant"
  · rw [if_pos assistant, if_pos assistant]
    rfl
  rw [if_neg assistant, if_neg assistant]
  by_cases user : record.type ≠ "user"
  · rw [if_pos user, if_pos user]
    rfl
  rw [if_neg user, if_neg user]
  have results := toolResult_times dates record toolNames (blocks record.message.content)
  have length := congrArg List.length results
  rw [List.length_map, List.length_replicate] at length
  by_cases some : (blocks record.message.content).filterMap (toolResult dates record toolNames) = []
  · have zero : (blocks record.message.content).countP isResult = 0 := by
      rw [← length, some]
      rfl
    rw [if_neg (not_not.mpr some), if_neg (not_not.mpr zero)]
    cases plain : (contentBlocks record.message.content).any (·.plain) with
    | false =>
      have empty : (contentBlocks record.message.content).filter (·.plain) = [] := by
        rw [List.filter_eq_nil_iff]
        intro block there
        simpa using List.any_eq_false.mp plain block there
      rw [if_pos empty]
      rfl
    | true =>
      have nonempty : (contentBlocks record.message.content).filter (·.plain) ≠ [] := fun empty => by
        obtain ⟨block, there, isPlain⟩ := List.any_eq_true.mp plain
        exact List.filter_eq_nil_iff.mp empty block there isPlain
      rw [if_neg nonempty]
      rfl
  · have positive : (blocks record.message.content).countP isResult ≠ 0 := by
      rw [← length]
      exact fun zero => some (List.length_eq_zero_iff.mp zero)
    rw [if_pos some, if_pos positive]
    exact results

theorem claudeRecordMessages_congr (same : timeOf dates record = timeOf dates' record) (toolNames : ToolNames) :
    claudeRecordMessages dates record toolNames = claudeRecordMessages dates' record toolNames := by
  have assistant : assistantMessage dates record = assistantMessage dates' record := by
    unfold timeOf at same
    unfold assistantMessage
    rw [same]
  have results : toolResult dates record toolNames = toolResult dates' record toolNames := by
    funext block
    unfold timeOf at same
    unfold toolResult
    rw [same]
  unfold claudeRecordMessages
  rw [assistant, results]
  unfold timeOf at same
  rw [same]

def times (dates : Dates) (records : List Record) : List Int :=
  records.flatMap fun record =>
    if record.uuid.any (· ≠ "") then List.replicate (messageCount record) (timeOf dates record) else []

variable {sourceId : String}

theorem addMessages_times {single : Bool} {timestamp : Int} (messages : List (Message Cost)) (s : State)
    (parentId : Option String) (index : Nat) :
    (State.addMessages sourceId single timestamp s parentId index messages).1.entries.map (time ·.message) =
      s.entries.map (time ·.message) ++ messages.map time := by
  induction messages generalizing s parentId index with
  | nil => simp [State.addMessages]
  | cons message messages ih =>
    rw [State.addMessages, ih, List.map_cons]
    cases message with
    | _ => simp [State.addMessage, State.push, time]

theorem named_of_filter {uuid : Option String} (found : uuid.filter (· ≠ "") = some sourceId) :
    uuid.any (· ≠ "") = true := by
  obtain ⟨there, proper⟩ := Option.filter_eq_some_iff.mp found
  rw [there]
  exact proper

theorem step_times (dates : Dates) (s : State) (record : Record) :
    (step dates s record).entries.map (time ·.message) = s.entries.map (time ·.message) ++ times dates [record] := by
  rw [times, List.flatMap_singleton]
  cases uuid : record.uuid.filter (· ≠ "") with
  | none =>
    have unnamed : ¬record.uuid.any (· ≠ "") = true := by
      cases named : record.uuid with
      | none => simp
      | some id => simpa [named, Option.filter] using uuid
    rw [step_none uuid, if_neg unnamed, List.append_nil]
  | some sourceId =>
    have named := named_of_filter uuid
    rw [step_some uuid, if_pos named]
    rw [added, addMessages_times, claudeRecordMessages_times]

theorem project_times (dates : Dates) (records : List Record) :
    (claudeRecordsToSessionEntries dates records).map (time ·.message) = times dates records := by
  have unresolved : (project dates records).entries.map (time ·.message) = times dates records := by
    induction records using List.reverseRecOn with
    | nil => rfl
    | append_singleton records record ih => rw [project_snoc, step_times, ih, times, times, times, List.flatMap_append]
  rw [← unresolved, claudeRecordsToSessionEntries, List.map_map]
  apply List.map_congr_left
  rintro ⟨id, parentId, timestamp, message⟩ -
  cases message <;> rfl

theorem claudeRecordMessages_none (none : messageCount record = 0) (toolNames : ToolNames) :
    claudeRecordMessages dates record toolNames = ([], toolNames) := by
  have empty : (claudeRecordMessages dates record toolNames).1 = [] := by
    apply List.map_eq_nil_iff.mp
    rw [claudeRecordMessages_times, none]
    rfl
  have silent : ¬(record.isSidechain = false ∧ record.type = "assistant") := by
    rintro ⟨side, assistant⟩
    rw [messageCount, side, if_neg Bool.false_ne_true, if_pos assistant] at none
    cases none
  refine Prod.ext empty ?_
  unfold claudeRecordMessages
  by_cases side : record.isSidechain = true
  · rw [if_pos side]
  · have assistant : record.type ≠ "assistant" := fun same => silent ⟨Bool.eq_false_iff.mpr side, same⟩
    dsimp only
    split_ifs <;> rfl

variable {parseDate : String → Option Int}

theorem step_congr (timely : record.uuid.any (· ≠ "") = true → messageCount record ≠ 0 →
      (parseDate (record.timestamp.getD "")).isSome = true) (s : State) (now later : Int) :
    step ⟨parseDate, now⟩ s record = step ⟨parseDate, later⟩ s record := by
  cases uuid : record.uuid.filter (· ≠ "") with
  | none => rw [step_none uuid, step_none uuid]
  | some sourceId =>
    have named := named_of_filter uuid
    have messages : claudeRecordMessages ⟨parseDate, now⟩ record s.toolNames =
        claudeRecordMessages ⟨parseDate, later⟩ record s.toolNames := by
      by_cases none : messageCount record = 0
      · rw [claudeRecordMessages_none none, claudeRecordMessages_none none]
      · obtain ⟨date, read⟩ := Option.isSome_iff_exists.mp (timely named none)
        apply claudeRecordMessages_congr
        simp only [timeOf, recordTimestamp, read, Option.getD_some]
    rw [step_some uuid, step_some uuid]
    simp only [added, messages, recordTimestamp]

variable {records : List Record}

theorem project_congr (timely : Timely parseDate records) (now later : Int) :
    claudeRecordsToSessionEntries ⟨parseDate, now⟩ records =
      claudeRecordsToSessionEntries ⟨parseDate, later⟩ records := by
  have states : project ⟨parseDate, now⟩ records = project ⟨parseDate, later⟩ records := by
    induction records using List.reverseRecOn with
    | nil => rfl
    | append_singleton records record ih =>
      rw [project_snoc, project_snoc, ih fun other there => timely other (List.mem_append_left _ there)]
      exact step_congr (timely record (List.mem_append_right _ (List.mem_singleton_self _))) _ now later
  rw [claudeRecordsToSessionEntries, claudeRecordsToSessionEntries, states]

theorem timely_of_times {now later : Int} (other : now ≠ later)
    (same : times ⟨parseDate, now⟩ records <+: times ⟨parseDate, later⟩ records) : Timely parseDate records := by
  induction records with
  | nil => exact fun _ absurd => nomatch absurd
  | cons record records ih =>
    simp only [times, List.flatMap_cons] at same ih
    by_cases named : record.uuid.any (· ≠ "") = true
    · simp only [if_pos named] at same
      have lengths : (List.replicate (messageCount record) (timeOf ⟨parseDate, now⟩ record)).length =
          (List.replicate (messageCount record) (timeOf ⟨parseDate, later⟩ record)).length := by
        rw [List.length_replicate, List.length_replicate]
      obtain ⟨rest, same⟩ := same
      rw [List.append_assoc] at same
      obtain ⟨first, second⟩ := List.append_inj same lengths
      refine List.forall_mem_cons.mpr ⟨fun _ some => ?_, ih ⟨rest, second⟩⟩
      -- without a date the time would be that of the clock
      cases read : parseDate (record.timestamp.getD "") with
      | some date => rfl
      | none =>
        have equal := (List.replicate_right_inj some).mp first
        simp only [timeOf, recordTimestamp, read, Option.getD_none] at equal
        exact absurd equal other
    · simp only [if_neg named, List.nil_append] at same
      exact List.forall_mem_cons.mpr ⟨fun absurd => (named absurd).elim, ih same⟩

end Clock

theorem times_of_match {entries entries' : List (Entry Cost)} (kept : prefixMatches (entries.map stored) entries' = true) :
    entries.map (time ·.message) <+: entries'.map (time ·.message) := by
  induction entries generalizing entries' with
  | nil => exact List.nil_prefix
  | cons entry entries ih =>
    cases entries' with
    | nil => simp [prefixMatches] at kept
    | cons entry' entries' =>
      obtain ⟨same, rest⟩ := prefixMatches_cons.mp kept
      have message : entry.message = entry'.message := Sum.inl.inj (sameEntry_iff.mp same).2.2
      rw [List.map_cons, List.map_cons, message]
      exact (List.prefix_cons_inj _).mpr (ih rest)

/-- A sync settles exactly if the records that give entries have dates, and the entries fit what is stored. -/
theorem sync_idempotent_iff (parseDate : String → Option Int) (parse : List Char → Option Record) (text : List Char)
    (session : Option (List StoredEntry)) :
    Idempotent parseDate parse text session ↔
      Timely parseDate (parseClaudeJsonl parse text) ∧ Fits (projection parseDate parse text 0) (session.getD []) := by
  constructor
  · intro idempotent
    obtain ⟨settled, unchanged⟩ := idempotent 0
    refine ⟨?_, reconcile_messages_iff.mp settled⟩
    have kept := kept_of_unchanged (unchanged 1).1
    rw [settled] at kept
    have same := times_of_match kept
    rw [projection, projection, project_times, project_times] at same
    exact timely_of_times (by decide) same
  · rintro ⟨timely, fits⟩ now
    have steady : ∀ clock, projection parseDate parse text clock = projection parseDate parse text 0 := fun clock =>
      project_congr timely clock 0
    have settled : messages (sync parseDate parse text session now).session =
        (projection parseDate parse text now).map stored := by
      apply reconcile_messages_iff.mpr
      rw [steady]
      exact fits
    refine ⟨settled, fun later => ?_⟩
    have again := reconcile_same settled
    rw [steady now, ← steady later] at again
    exact ⟨congrArg (·.changed) again, congrArg (·.session) again⟩

/-- A line of text that a user has entered. -/
def said (uuid : String) (timestamp : Option String) : Record where
  type := "user"
  uuid := some uuid
  parentUuid := none
  isSidechain := false
  timestamp := timestamp
  totalCostUSD := none
  total_cost_usd := none
  model := none
  error := none
  message := ⟨none, none, .inl "hello", ⟨none, none, none, none⟩, none⟩

/-- A line `a` is a record without a date, a line `b` one with the date of the epoch. -/
def readLine (line : List Char) : Option Record :=
  match line with
  | ['a'] => some (said "u" none)
  | ['b'] => some (said "u" (some "1970-01-01T00:00:00Z"))
  | _ => none

def readDate (text : String) : Option Int := if text = "1970-01-01T00:00:00Z" then some 0 else none

/-- A record without a date is imported again at each sync; of two records with one `uuid` the second is not stored, and
each sync starts anew. -/
theorem sync_unsettled :
    (sync readDate readLine ['a'] (some (sync readDate readLine ['a'] none 1).session) 2).changed = true ∧
      messages (sync readDate readLine ['b', '\n', 'b'] none 1).session ≠
        (projection readDate readLine ['b', '\n', 'b'] 1).map stored := by
  decide

end ClaudeTranscriptSink
