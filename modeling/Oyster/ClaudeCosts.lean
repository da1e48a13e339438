import Oyster.ClaudeLedger
import Oyster.UsageAnalytics

/-! The cost of a projected transcript: the sum over the responses is what is accounted for, and so is the total of the usage analytics where
both take the same parts for one response. -/
namespace ClaudeTranscript

/-- A response: the id that its parts share, or the one record that it is. -/
inductive Response where
  | message (id : ResponseId)
  | record (id : String)
deriving DecidableEq

def response {κ : Type} (part : String × AssistantMessage κ) : Response :=
  match part.2.responseId with
  | some id => .message id
  | none => .record part.1

def responseCost (said : List (String × AssistantMessage Cost)) (response : Response) : ℚ :=
  ((said.find? (ClaudeTranscript.response · = response)).map fun part => part.2.usage.cost.total).getD 0

def responsesCost (entries : List (Entry Cost)) : ℚ :=
  ∑ response ∈ ((assistants entries).map response).toFinset, responseCost (assistants entries) response

def ResponseId.string : ResponseId → Option String
  | .text id => some id
  | .other _ => none

def describe (timestamp : Int) (part : String × AssistantMessage Cost) : UsageAnalytics.Record where
  entryId := some part.1
  timestamp := some timestamp
  message :=
    { responseId := part.2.responseId.bind (·.string)
      provider := .named "anthropic"
      model := some part.2.model
      usage := some
        { input := some part.2.usage.input
          output := some part.2.usage.output
          cacheRead := some part.2.usage.cacheRead
          cacheWrite := some part.2.usage.cacheWrite
          reasoning := none
          totalTokens := some part.2.usage.totalTokens
          costTotal := some part.2.usage.cost.total }
      timestamp := some part.2.timestamp }

def usageOf (entry : Entry Cost) : Option UsageAnalytics.Record := (assistantOf entry).map (describe entry.timestamp)

def uuids (records : List Record) : List String := records.filterMap fun record => record.uuid.filter (· ≠ "")

def Apart (dates : Dates) (records : List Record) : Prop :=
  ∀ part ∈ parts dates records, ∀ other ∈ parts dates records,
    part.2.responseId = none → other.2.responseId ≠ some (.text part.1)

def TextIds (dates : Dates) (records : List Record) : Prop :=
  ∀ part ∈ parts dates records, ∀ id, part.2.responseId = some id → ∃ text, id = .text text

def Named (dates : Dates) (records : List Record) : Prop :=
  ∀ part ∈ parts dates records, ∃ other ∈ parts dates records, response other = response part ∧ other.2.model ≠ ""

structure Accounted (dates : Dates) (records : List Record) : Prop where
  parents : Rooted (claudeRecordsToSessionEntries dates records)
  together : ∀ part ∈ assistants (claudeRecordsToSessionEntries dates records),
    ∀ other ∈ assistants (claudeRecordsToSessionEntries dates records),
      response part = response other → part.2.usage.cost = other.2.usage.cost
  snapshots : ∀ before record after total, records = before ++ record :: after → parts dates before ≠ [] →
    record.type = "cost-state" → record.isSidechain = false → record.totalCostUSD = some total →
      total ≤ (project dates records).ledger.accountedCost
  total : Apart dates records →
    responsesCost (claudeRecordsToSessionEntries dates records) = (project dates records).ledger.accountedCost
  analytics : Apart dates records → TextIds dates records → Named dates records →
    ∀ usage, usage.Perm ((claudeRecordsToSessionEntries dates records).filterMap usageOf) →
      ∀ bucket ∈ ["hour", "day"], ∃ report, UsageAnalytics.aggregateUsageRecords usage bucket = .ok report ∧
        report.total.cost = (project dates records).ledger.accountedCost

def priced (cost : ResponseId → Cost) (part : String × AssistantMessage Cost) : String × AssistantMessage Cost :=
  (part.1, { part.2 with usage := { part.2.usage with cost := cost (key part) } })

variable {κ : Type}

theorem assistants_resolve {μ : Type} (cost : κ → μ) (entries : List (Entry κ)) :
    assistants (entries.map (Entry.resolve cost)) = (assistants entries).map fun part =>
        (part.1, { part.2 with usage := { part.2.usage with cost := cost part.2.usage.cost } }) := by
  rw [assistants, assistants, List.filterMap_map, List.map_filterMap]
  refine List.filterMap_congr fun entry _ => ?_
  obtain ⟨id, parentId, timestamp, message⟩ := entry
  cases message with
  | _ => rfl

theorem assistants_entries (dates : Dates) (records : List Record) :
    assistants (claudeRecordsToSessionEntries dates records) =
      (parts dates records).map (priced (project dates records).ledger.cost) := by
  rw [claudeRecordsToSessionEntries, assistants_resolve, assistants_project, List.map_map]
  rfl

def Response.key : Response → ResponseId
  | .message id => id
  | .record id => .text id

theorem key_response (part : String × AssistantMessage κ) : key part = (response part).key := by
  unfold key response
  cases part.2.responseId with
  | none => rfl
  | some id => rfl

theorem key_injective {records : List Record} (apart : Apart dates records) {part other : String × AssistantMessage Cost}
    (there : part ∈ parts dates records) (thereOther : other ∈ parts dates records)
    (same : (response part).key = (response other).key) : response part = response other := by
  unfold response at same ⊢
  cases id : part.2.responseId with
  | none =>
    cases otherId : other.2.responseId with
    | none =>
      simp only [id, otherId, Response.key, ResponseId.text.injEq] at same
      rw [same]
    | some named =>
      simp only [id, otherId, Response.key] at same
      exact absurd (same ▸ otherId) (apart part there other thereOther id)
  | some named =>
    cases otherId : other.2.responseId with
    | none =>
      simp only [id, otherId, Response.key] at same
      exact absurd (same ▸ id) (apart other thereOther part there otherId)
    | some otherNamed =>
      simp only [id, otherId, Response.key] at same
      rw [same]

section Records
variable {records : List Record}

theorem cost_of_mem {l : Ledger} {booked : ResponseId} {cost : Cost} (there : (booked, cost) ∈ l.costMessages) :
    l.cost booked = cost := by
  rw [Ledger.cost, OrderedMap.get_eq_some_iff.mpr there]
  rfl

theorem sum_keys (dates : Dates) (records : List Record) :
    ∑ booked ∈ ((parts dates records).map key).toFinset, ((project dates records).ledger.cost booked).total =
      (project dates records).ledger.accountedCost := by
  obtain ⟨balanced, keys⟩ := project_ledger dates records
  have same : ((parts dates records).map key).toFinset =
      ((project dates records).ledger.costMessages.entries.map Prod.fst).toFinset := by
    ext booked
    rw [List.mem_toFinset, List.mem_toFinset, List.mem_map, ← keys booked, OrderedMap.has, List.contains_iff_mem]
  rw [same, List.sum_toFinset _ (project dates records).ledger.costMessages.nodup, List.map_map, ← balanced.sum]
  refine congrArg List.sum (List.map_congr_left fun entry there => ?_)
  exact congrArg Cost.total (cost_of_mem there)

variable {part : String × AssistantMessage Cost}

theorem responseCost_parts (dates : Dates) (there : part ∈ parts dates records) :
    responseCost (assistants (claudeRecordsToSessionEntries dates records)) (response part) =
      ((project dates records).ledger.cost (response part).key).total := by
  rw [assistants_entries, responseCost, List.find?_map]
  cases found : (parts dates records).find? ((fun other => decide (response other = response part)) ∘
      priced (project dates records).ledger.cost) with
  | none => exact absurd (decide_eq_true rfl) (List.find?_eq_none.mp found part there)
  | some first =>
    have test := List.find?_some found
    have same : response first = response part := of_decide_eq_true test
    rw [← same, ← key_response]
    rfl

theorem total_accounted (dates : Dates) (apart : Apart dates records) :
    responsesCost (claudeRecordsToSessionEntries dates records) = (project dates records).ledger.accountedCost := by
  have responses : (assistants (claudeRecordsToSessionEntries dates records)).map response = (parts dates records).map response := by
    rw [assistants_entries, List.map_map]
    rfl
  have keys : ((parts dates records).map key).toFinset = ((parts dates records).map response).toFinset.image Response.key := by
    ext booked
    simp only [List.mem_toFinset, Finset.mem_image, List.mem_map, key_response]
    constructor
    · rintro ⟨part, there, rfl⟩
      exact ⟨response part, ⟨part, there, rfl⟩, rfl⟩
    · rintro ⟨_, ⟨part, there, rfl⟩, rfl⟩
      exact ⟨part, there, rfl⟩
  rw [responsesCost, responses, ← sum_keys, keys, Finset.sum_image]
  · refine Finset.sum_congr rfl fun found listed => ?_
    obtain ⟨part, there, rfl⟩ := List.mem_map.mp (List.mem_toFinset.mp listed)
    exact responseCost_parts dates there
  · intro first listed second listedSecond same
    obtain ⟨part, there, rfl⟩ := List.mem_map.mp (List.mem_toFinset.mp listed)
    obtain ⟨other, thereOther, rfl⟩ := List.mem_map.mp (List.mem_toFinset.mp listedSecond)
    exact key_injective apart there thereOther same

theorem parts_together (dates : Dates) (records : List Record) :
    ∀ part ∈ assistants (claudeRecordsToSessionEntries dates records),
      ∀ other ∈ assistants (claudeRecordsToSessionEntries dates records),
        response part = response other → part.2.usage.cost = other.2.usage.cost := by
  rw [assistants_entries]
  intro part there other thereOther same
  obtain ⟨part, -, rfl⟩ := List.mem_map.mp there
  obtain ⟨other, -, rfl⟩ := List.mem_map.mp thereOther
  have keys : key part = key other := by
    rw [key_response, key_response]
    exact congrArg Response.key same
  show (project dates records).ledger.cost (key part) = (project dates records).ledger.cost (key other)
  rw [keys]

theorem latest_project (dates : Dates) (records : List Record) (said : parts dates records ≠ []) :
    (project dates records).ledger.latestCostMessage ≠ none := by
  induction records using List.reverseRecOn with
  | nil => exact absurd rfl said
  | append_singleton records record ih =>
    rw [project_snoc, (step_part dates _ record).1]
    cases found : part dates record with
    | none =>
      rw [parts_snoc, found, Option.toList_none, List.append_nil] at said
      have latest : ((project dates records).ledger.snapshot record).latestCostMessage =
          (project dates records).ledger.latestCostMessage := by
        obtain same | ⟨_, _, _, _, _, same⟩ := snapshot_cases (project dates records).ledger record
        · rw [same]
        · rw [same]
      rw [latest]
      exact ih said
    | some made =>
      rw [latest_book]
      exact Option.some_ne_none _

theorem le_project (dates : Dates) (before after : List Record) :
    (project dates before).ledger.accountedCost ≤ (project dates (before ++ after)).ledger.accountedCost := by
  induction after using List.reverseRecOn with
  | nil => rw [List.append_nil]
  | append_singleton after record ih =>
    rw [← List.append_assoc, project_snoc]
    exact ih.trans (le_step dates _ record)

theorem snapshot_accounted (dates : Dates) {before after : List Record} {record : Record} {total : ℚ}
    (said : parts dates before ≠ []) (type : record.type = "cost-state") (main : record.isSidechain = false)
    (reported : record.totalCostUSD = some total) :
    total ≤ (project dates (before ++ record :: after)).ledger.accountedCost := by
  have booked : total ≤ ((project dates before).ledger.snapshot record).accountedCost := by
    obtain ⟨latest, there⟩ := Option.ne_none_iff_exists'.mp (latest_project dates before said)
    rw [Ledger.snapshot, if_pos ⟨type, main⟩, there, reported]
    dsimp only
    split_ifs with grown
    · exact le_refl total
    · exact not_lt.mp grown
  have next : (project dates (before ++ [record])).ledger.accountedCost =
      ((project dates before).ledger.snapshot record).accountedCost := by
    have other : ¬(record.isSidechain = false ∧ record.type = "assistant") := by
      rw [type]
      exact fun both => absurd both.2 (by decide)
    rw [project_snoc, (step_part dates _ record).1, part, if_neg other]
  calc total ≤ (project dates (before ++ [record])).ledger.accountedCost := next ▸ booked
    _ ≤ (project dates (before ++ [record] ++ after)).ledger.accountedCost := le_project dates _ after
    _ = (project dates (before ++ record :: after)).ledger.accountedCost := by rw [List.append_assoc, List.singleton_append]

theorem usageOf_ids (entries : List (Entry Cost)) :
    (entries.filterMap usageOf).map (·.entryId) = (assistants entries).map fun part => some part.1 := by
  rw [List.map_filterMap, assistants, List.map_filterMap]
  refine List.filterMap_congr fun entry _ => ?_
  rw [usageOf, Option.map_map]
  rfl

variable {entries : List (Entry Cost)}

theorem mem_usageOf {usage : UsageAnalytics.Record} :
    usage ∈ entries.filterMap usageOf → ∃ part ∈ assistants entries, ∃ timestamp, usage = describe timestamp part := by
  intro there
  obtain ⟨entry, listed, made⟩ := List.mem_filterMap.mp there
  obtain ⟨part, said, rfl⟩ := Option.map_eq_some_iff.mp made
  exact ⟨part, List.mem_filterMap.mpr ⟨entry, listed, said⟩, entry.timestamp, rfl⟩

theorem usageOf_mem (there : part ∈ assistants entries) :
    ∃ timestamp, describe timestamp part ∈ entries.filterMap usageOf := by
  obtain ⟨entry, listed, said⟩ := List.mem_filterMap.mp there
  refine ⟨entry.timestamp, List.mem_filterMap.mpr ⟨entry, listed, ?_⟩⟩
  rw [usageOf, said]
  rfl

theorem part_spec (there : part ∈ parts dates records) :
    part.1 ≠ "" ∧ part.1 ∈ uuids records ∧ ∀ id, part.2.responseId = some (.text id) → id ≠ "" := by
  obtain ⟨record, listed, made⟩ := List.mem_filterMap.mp there
  unfold ClaudeTranscript.part at made
  split_ifs at made
  obtain ⟨uuid, given, rfl⟩ := Option.map_eq_some_iff.mp made
  obtain ⟨-, nonempty⟩ := Option.filter_eq_some_iff.mp given
  refine ⟨of_decide_eq_true nonempty, List.mem_filterMap.mpr ⟨record, listed, given⟩, fun id named => ?_⟩
  obtain ⟨-, truthy⟩ := Option.filter_eq_some_iff.mp named
  exact of_decide_eq_true truthy

theorem parts_sublist (dates : Dates) (records : List Record) :
    ((parts dates records).map Prod.fst).Sublist (uuids records) := by
  induction records with
  | nil => exact .slnil
  | cons record records ih =>
    rw [parts, uuids, List.filterMap_cons, List.filterMap_cons, part]
    cases uuid : record.uuid.filter (· ≠ "") with
    | none =>
      rw [Option.map_none, ite_self]
      exact ih
    | some id =>
      split_ifs
      · exact .cons_cons id ih
      · exact .cons id ih

def Response.tag : Response → UsageAnalytics.DedupeKey
  | .message (.text id) => .response id
  | .message (.other _) => .entry ""
  | .record id => .entry id

theorem identity_describe (there : part ∈ parts dates records) (texts : TextIds dates records)
    (cost : ResponseId → Cost) (timestamp : Int) :
    UsageAnalytics.identity (describe timestamp (priced cost part)) = (response part).tag := by
  obtain ⟨-, -, nonempty⟩ := part_spec there
  have read : (describe timestamp (priced cost part)).message.responseId = part.2.responseId.bind (·.string) := rfl
  rw [UsageAnalytics.identity, response, read]
  cases named : part.2.responseId with
  | none => rfl
  | some id =>
    obtain ⟨text, rfl⟩ := texts part there id named
    have kept : (some text).filter (· ≠ "") = some text := by
      rw [Option.filter_some_pos]
      exact decide_eq_true (nonempty text named)
    simp only [Option.bind_some, ResponseId.string, kept]
    rfl

def untag : UsageAnalytics.DedupeKey → ResponseId
  | .response id => .text id
  | .entry id => .text id

theorem untag_tag (there : part ∈ parts dates records) (texts : TextIds dates records) :
    untag (response part).tag = key part := by
  rw [key_response]
  unfold response
  cases named : part.2.responseId with
  | none => rfl
  | some id =>
    obtain ⟨text, rfl⟩ := texts part there id named
    rfl

theorem cost_nonneg (dates : Dates) (there : part ∈ parts dates records) :
    0 ≤ ((project dates records).ledger.cost (key part)).total := by
  obtain ⟨balanced, keys⟩ := project_ledger dates records
  obtain ⟨cost, booked⟩ := OrderedMap.has_iff.mp ((keys (key part)).mpr ⟨part, there, rfl⟩)
  rw [cost_of_mem booked]
  exact balanced.nonneg _ cost booked

theorem usageRecord_describe (bucket : UsageAnalytics.Bucket) (timestamp : Int) (part : String × AssistantMessage Cost) :
    (part.2.model ≠ "" → UsageAnalytics.counts bucket (describe timestamp part) = true) ∧
      ∀ found, UsageAnalytics.usageRecord (describe timestamp part) bucket = some found →
        found.usage.costTotal = some part.2.usage.cost.total := by
  constructor
  · intro named
    have kept : (some part.2.model).filter (· ≠ "") = some part.2.model := by
      rw [Option.filter_some_pos]
      exact decide_eq_true named
    unfold UsageAnalytics.counts UsageAnalytics.usageRecord describe
    simp only [kept]
    rfl
  · intro found read
    unfold UsageAnalytics.usageRecord describe at read
    split at read
    · cases read
    · next usage model provider timestamp given named from_ time =>
        cases read
        cases given
        rfl
    · cases read

theorem analytics_accounted (dates : Dates) (distinct : (uuids records).Nodup) (apart : Apart dates records)
    (texts : TextIds dates records) (named : Named dates records) {usage : List UsageAnalytics.Record}
    (perm : usage.Perm ((claudeRecordsToSessionEntries dates records).filterMap usageOf)) (bucket : UsageAnalytics.Bucket) :
    (usage.foldl (UsageAnalytics.aggregateRecord bucket) UsageAnalytics.start).report.total.cost =
      (project dates records).ledger.accountedCost := by
  have described : ∀ record ∈ usage, ∃ part ∈ parts dates records, ∃ timestamp,
      record = describe timestamp (priced (project dates records).ledger.cost part) := by
    intro record there
    obtain ⟨said, listed, timestamp, rfl⟩ := mem_usageOf (perm.mem_iff.mp there)
    rw [assistants_entries] at listed
    obtain ⟨part, made, rfl⟩ := List.mem_map.mp listed
    exact ⟨part, made, timestamp, rfl⟩
  have entries : (usage.map (·.entryId)).Nodup := by
    rw [(perm.map _).nodup_iff, usageOf_ids, assistants_entries, List.map_map]
    have ids := (distinct.sublist (parts_sublist dates records)).map (Option.some_injective String)
    rwa [List.map_map] at ids
  have proper : ∀ record ∈ usage, ∃ id, record.entryId = some id ∧ id ≠ "" := by
    intro record there
    obtain ⟨part, made, timestamp, rfl⟩ := described record there
    exact ⟨part.1, rfl, (part_spec made).1⟩
  have agree : ∀ record ∈ usage, ∀ found, UsageAnalytics.usageRecord record bucket = some found →
      UsageAnalytics.nonnegativeNumber found.usage.costTotal =
        ((project dates records).ledger.cost (untag (UsageAnalytics.identity record))).total := by
    intro record there found read
    obtain ⟨part, made, timestamp, rfl⟩ := described record there
    rw [(usageRecord_describe bucket timestamp _).2 found read, identity_describe made texts, untag_tag made texts]
    exact if_pos (cost_nonneg dates made)
  obtain ⟨-, total⟩ := UsageAnalytics.aggregate_cost
    (fun tag => ((project dates records).ledger.cost (untag tag)).total) entries proper agree
  have tags : ∀ tag ∈ UsageAnalytics.counted bucket usage, ∃ part ∈ parts dates records, tag = (response part).tag := by
    intro tag there
    obtain ⟨record, listed, rfl⟩ := List.mem_map.mp (List.mem_toFinset.mp there)
    obtain ⟨part, made, timestamp, rfl⟩ := described record (List.mem_filter.mp listed).1
    exact ⟨part, made, identity_describe made texts ..⟩
  have keys : ((parts dates records).map key).toFinset = (UsageAnalytics.counted bucket usage).image untag := by
    ext booked
    rw [List.mem_toFinset, List.mem_map, Finset.mem_image]
    constructor
    · rintro ⟨part, made, rfl⟩
      obtain ⟨other, madeOther, same, model⟩ := named part made
      have said : priced (project dates records).ledger.cost other ∈ assistants (claudeRecordsToSessionEntries dates records) := by
        rw [assistants_entries]
        exact List.mem_map_of_mem madeOther
      obtain ⟨timestamp, there⟩ := usageOf_mem said
      refine ⟨(response other).tag, ?_, ?_⟩
      · refine List.mem_toFinset.mpr (List.mem_map.mpr ⟨_, List.mem_filter.mpr ⟨perm.mem_iff.mpr there, ?_⟩, ?_⟩)
        · exact (usageRecord_describe bucket timestamp _).1 model
        · exact identity_describe madeOther texts ..
      · rw [untag_tag madeOther texts, key_response, key_response, same]
    · rintro ⟨tag, there, rfl⟩
      obtain ⟨part, made, rfl⟩ := tags tag there
      exact ⟨part, made, (untag_tag made texts).symm⟩
  rw [total, ← sum_keys, keys, Finset.sum_image]
  intro first listed second listedSecond same
  obtain ⟨part, made, rfl⟩ := tags first listed
  obtain ⟨other, madeOther, rfl⟩ := tags second listedSecond
  rw [untag_tag made texts, untag_tag madeOther texts, key_response, key_response] at same
  rw [key_injective apart made madeOther same]

theorem rooted_entries (dates : Dates) (records : List Record) : Rooted (claudeRecordsToSessionEntries dates records) := by
  intro before entry after split id parent
  obtain ⟨before, rest, same, rfl, restSame⟩ := List.map_eq_append_iff.mp split
  obtain ⟨entry, after, rfl, rfl, rfl⟩ := List.map_eq_cons_iff.mp restSame
  obtain ⟨above, there, named⟩ := (chained_project dates records).rooted before entry after same id parent
  exact ⟨_, List.mem_map_of_mem there, named⟩

/-- The costs of a transcript are accounted for, whatever its records are, if no two have the same uuid. -/
theorem costs_accounted (dates : Dates) (distinct : (uuids records).Nodup) : Accounted dates records where
  parents := rooted_entries dates records
  together := parts_together dates records
  snapshots := by
    rintro before record after total rfl said type main reported
    exact snapshot_accounted dates said type main reported
  total := total_accounted dates
  analytics apart texts named usage perm bucket supported := by
    simp only [List.mem_cons, List.not_mem_nil, or_false] at supported
    rcases supported with rfl | rfl
    · exact ⟨_, rfl, analytics_accounted dates distinct apart texts named perm .hour⟩
    · exact ⟨_, rfl, analytics_accounted dates distinct apart texts named perm .day⟩

end Records

def noDates : Dates := ⟨fun _ => none, 0⟩

def noUsage : NativeUsage := ⟨none, none, none, none⟩

def said (uuid : String) (id : Option ResponseId) (model : String) (cost : Option ℚ) : Record :=
  ⟨"assistant", some uuid, none, false, none, none, cost, none, none, ⟨id, some model, .inr [], noUsage, none⟩⟩

def reports (total : ℚ) : Record :=
  ⟨"cost-state", none, none, false, none, some total, none, none, none, ⟨none, none, .inr [], noUsage, none⟩⟩

/-- A response in two parts with a snapshot between them, and another response. -/
def split : List Record :=
  [said "a" (some (.text "m")) "sonnet" (some 1), reports 3, said "b" (some (.text "m")) "sonnet" (some 1), reports 3,
    said "c" none "sonnet" (some 2), reports 4, reports 6]

theorem costs_accounted_split :
    (uuids split).Nodup ∧ Accounted noDates split ∧ (project noDates split).ledger.accountedCost = 6 ∧
      (assistants (claudeRecordsToSessionEntries noDates split)).map (·.2.usage.cost.total) = [3, 3, 3] :=
  ⟨by decide, costs_accounted noDates (by decide), by decide +kernel, by decide +kernel⟩

def unnamed : List Record := [said "a" (some (.text "m")) "" (some 1)]

def confused : List Record := [said "m" none "sonnet" (some 1), said "b" (some (.text "m")) "sonnet" none]

/-- The parts of a response whose id is not a string. -/
def numbered : List Record := [said "a" (some (.other 0)) "sonnet" (some 1), said "b" (some (.other 0)) "sonnet" none]

def analyticsCost (records : List Record) : ℚ :=
  ((((claudeRecordsToSessionEntries noDates records).filterMap usageOf).foldl (UsageAnalytics.aggregateRecord .day)
    UsageAnalytics.start).report.total.cost)

/-- A response without the name of a model is not counted; two responses are booked as one, or the parts of one are counted each. -/
theorem costs_unaccounted :
    ((uuids unnamed).Nodup ∧ (project noDates unnamed).ledger.accountedCost = 1 ∧ analyticsCost unnamed = 0) ∧
      ((uuids confused).Nodup ∧ (project noDates confused).ledger.accountedCost = 1 ∧
        responsesCost (claudeRecordsToSessionEntries noDates confused) = 2 ∧ analyticsCost confused = 2) ∧
      (uuids numbered).Nodup ∧ (project noDates numbered).ledger.accountedCost = 1 ∧ analyticsCost numbered = 2 := by
  decide +kernel

end ClaudeTranscript
