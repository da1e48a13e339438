import Oyster.OrderedMap
import Mathlib.Algebra.BigOperators.Group.Finset.Basic
import Mathlib.Algebra.Order.Ring.Rat

/-! The aggregation of usage records over models and time buckets, before its numbers are rounded and its rows sorted. A record that names
a response or an entry that has been counted is left out. -/
namespace UsageAnalytics

structure Usage where
  requests : Nat
  input : ℚ
  output : ℚ
  cacheRead : ℚ
  cacheWrite : ℚ
  reasoning : ℚ
  totalTokens : ℚ
  cost : ℚ
deriving DecidableEq

def emptyUsage : Usage := ⟨0, 0, 0, 0, 0, 0, 0, 0⟩

structure MessageUsage where
  input : Option ℚ
  output : Option ℚ
  cacheRead : Option ℚ
  cacheWrite : Option ℚ
  reasoning : Option ℚ
  totalTokens : Option ℚ
  costTotal : Option ℚ

inductive Provider where
  | absent
  | named (name : String)
  | malformed

def Provider.path : Provider → String
  | .named name => if name = "" then "" else name ++ "/"
  | .absent | .malformed => ""

/-- A message, as far as its properties are of the right kind. -/
structure Message where
  responseId : Option String
  provider : Provider
  model : Option String
  usage : Option MessageUsage
  timestamp : Option Int

structure Record where
  entryId : Option String
  timestamp : Option Int
  message : Message

def nonnegativeNumber (value : Option ℚ) : ℚ := if 0 ≤ value.getD 0 then value.getD 0 else 0

def addUsage (target : Usage) (usage : MessageUsage) : Usage where
  requests := target.requests + 1
  input := target.input + nonnegativeNumber usage.input
  output := target.output + nonnegativeNumber usage.output
  cacheRead := target.cacheRead + nonnegativeNumber usage.cacheRead
  cacheWrite := target.cacheWrite + nonnegativeNumber usage.cacheWrite
  reasoning := target.reasoning + nonnegativeNumber usage.reasoning
  totalTokens := target.totalTokens + nonnegativeNumber usage.totalTokens
  cost := target.cost + nonnegativeNumber usage.costTotal

inductive Bucket where
  | hour
  | day

def bucketLength : Bucket → Int
  | .hour => 3600000
  | .day => 86400000

def bucketTimestamp (value : Option Int) (bucket : Bucket) : Option Int :=
  value.map fun time => time - time % bucketLength bucket

/-- The keys of `seen`; those of responses and of entries begin differently. -/
inductive DedupeKey where
  | response (id : String)
  | entry (id : String)
deriving DecidableEq

def dedupeKeys (record : Record) : List DedupeKey :=
  ((record.message.responseId.filter (· ≠ "")).map DedupeKey.response).toList ++
    ((record.entryId.filter (· ≠ "")).map DedupeKey.entry).toList

structure Counted where
  model : String
  usage : MessageUsage
  timestamp : Int

def usageRecord (record : Record) (bucket : Bucket) : Option Counted :=
  match record.message.usage, record.message.model.filter (· ≠ ""), record.message.provider,
      bucketTimestamp (record.timestamp.or record.message.timestamp) bucket with
  | some _, some _, .malformed, some _ => none
  | some usage, some model, provider, some timestamp => some ⟨provider.path ++ model, usage, timestamp⟩
  | _, _, _, _ => none

structure Report where
  total : Usage
  models : OrderedMap String Usage
  series : OrderedMap (Int × String) Usage

def addTo {κ : Type} [DecidableEq κ] (rows : OrderedMap κ Usage) (key : κ) (usage : MessageUsage) : OrderedMap κ Usage :=
  rows.set key (addUsage ((rows.get key).getD emptyUsage) usage)

def addUsageRecord (report : Report) (counted : Counted) : Report where
  total := addUsage report.total counted.usage
  models := addTo report.models counted.model counted.usage
  series := addTo report.series (counted.timestamp, counted.model) counted.usage

structure State where
  seen : List DedupeKey
  report : Report

def start : State := ⟨[], emptyUsage, .empty, .empty⟩

def aggregateRecord (bucket : Bucket) (s : State) (record : Record) : State :=
  match usageRecord record bucket with
  | none => s
  | some counted =>
    if (dedupeKeys record).any (· ∈ s.seen) then s
    else ⟨dedupeKeys record ++ s.seen, addUsageRecord s.report counted⟩

def aggregateUsageRecords (records : List Record) (bucket : String) : Except String Report :=
  match bucket with
  | "hour" => .ok (records.foldl (aggregateRecord .hour) start).report
  | "day" => .ok (records.foldl (aggregateRecord .day) start).report
  | _ => .error ("unsupported analytics bucket: " ++ bucket)

def identity (record : Record) : DedupeKey :=
  match record.message.responseId.filter (· ≠ "") with
  | some id => .response id
  | none => .entry (record.entryId.getD "")

def counts (bucket : Bucket) (record : Record) : Bool := (usageRecord record bucket).isSome

variable {bucket : Bucket} {records : List Record} {record : Record}

/-- What the records so far have left in `seen`. -/
structure Seen (bucket : Bucket) (records : List Record) (seen : List DedupeKey) : Prop where
  counted : ∀ record ∈ records, counts bucket record = true → identity record ∈ seen
  response : ∀ id, .response id ∈ seen → ∃ record ∈ records, counts bucket record = true ∧ identity record = .response id
  entry : ∀ id, .entry id ∈ seen → some id ∈ records.map (·.entryId)

variable {id : String}

theorem mem_dedupeKeys (named : record.entryId = some id) (proper : id ≠ "") :
    (∀ key, key ∈ dedupeKeys record ↔ key = identity record ∨ key = .entry id) ∧
      ((∃ response, identity record = .response response) ∨ identity record = .entry id) := by
  have filtered : (some id).filter (· ≠ "") = some id := by
    rw [Option.filter_some_pos]
    exact decide_eq_true proper
  unfold identity dedupeKeys
  rw [named, filtered]
  cases record.message.responseId.filter (· ≠ "") with
  | some response =>
    refine ⟨fun key => ?_, .inl ⟨response, rfl⟩⟩
    simp
  | none =>
    refine ⟨fun key => ?_, .inr rfl⟩
    simp

variable {seen : List DedupeKey}

theorem Seen.any_iff (had : Seen bucket records seen) (named : record.entryId = some id) (proper : id ≠ "")
    (fresh : some id ∉ records.map (·.entryId)) :
    (dedupeKeys record).any (· ∈ seen) = true ↔ identity record ∈ ((records.filter (counts bucket)).map identity).toFinset := by
  have unseen : .entry id ∉ seen := fun there => fresh (had.entry id there)
  obtain ⟨keys, kind⟩ := mem_dedupeKeys named proper
  have any : (dedupeKeys record).any (· ∈ seen) = true ↔ identity record ∈ seen := by
    simp only [List.any_eq_true, decide_eq_true_eq, keys]
    constructor
    · rintro ⟨_, rfl | rfl, there⟩
      · exact there
      · exact absurd there unseen
    · exact fun there => ⟨_, .inl rfl, there⟩
  rw [any]
  simp only [List.mem_toFinset, List.mem_map, List.mem_filter, and_assoc]
  constructor
  · intro there
    cases kind with
    | inl response =>
      obtain ⟨response, same⟩ := response
      rw [same] at there ⊢
      exact had.response response there
    | inr entry => exact absurd (entry ▸ there) unseen
  · rintro ⟨other, there, counted, again⟩
    exact again ▸ had.counted other there counted

theorem Seen.keep (had : Seen bucket records seen) (known : counts bucket record = true → identity record ∈ seen) :
    Seen bucket (records ++ [record]) seen where
  counted other there counted := by
    rcases List.mem_append.mp there with before | last
    · exact had.counted other before counted
    · obtain rfl := List.mem_singleton.mp last
      exact known counted
  response id there := by
    obtain ⟨other, before, rest⟩ := had.response id there
    exact ⟨other, List.mem_append_left _ before, rest⟩
  entry id there := by
    rw [List.map_append]
    exact List.mem_append_left _ (had.entry id there)

theorem Seen.add (had : Seen bucket records seen) (named : record.entryId = some id) (proper : id ≠ "")
    (counted : counts bucket record = true) : Seen bucket (records ++ [record])
    (dedupeKeys record ++ seen) := by
  obtain ⟨keys, kind⟩ := mem_dedupeKeys named proper
  have last : record ∈ records ++ [record] := List.mem_append_right _ (List.mem_singleton_self _)
  constructor
  · intro other there countedOther
    rcases List.mem_append.mp there with before | final
    · exact List.mem_append_right _ (had.counted other before countedOther)
    · obtain rfl := List.mem_singleton.mp final
      exact List.mem_append_left _ ((keys _).mpr (.inl rfl))
  · intro response there
    rcases List.mem_append.mp there with new | before
    · rcases (keys _).mp new with same | other
      · exact ⟨record, last, counted, same.symm⟩
      · cases other
    · obtain ⟨other, thereOther, rest⟩ := had.response response before
      exact ⟨other, List.mem_append_left _ thereOther, rest⟩
  · intro entry there
    rw [List.map_append]
    rcases List.mem_append.mp there with new | before
    · have same : entry = id := by
        rcases (keys _).mp new with same | same
        · rcases kind with ⟨response, other⟩ | other
          · exact DedupeKey.noConfusion (same.trans other)
          · exact DedupeKey.entry.inj (same.trans other)
        · exact DedupeKey.entry.inj same
      rw [same, ← named]
      exact List.mem_append_right _ (List.mem_singleton_self _)
    · exact List.mem_append_left _ (had.entry entry before)

def counted (bucket : Bucket) (records : List Record) : Finset DedupeKey :=
    ((records.filter (counts bucket)).map identity).toFinset

theorem counted_snoc (bucket : Bucket) (records : List Record) (record : Record) :
    counted bucket (records ++ [record]) =
      if counts bucket record then insert (identity record) (counted bucket records) else counted bucket records := by
  unfold counted
  rw [List.filter_append, List.map_append, List.toFinset_append]
  split_ifs with counting
  · rw [List.filter_cons_of_pos counting, List.filter_nil, Finset.insert_eq, Finset.union_comm]
    rfl
  · rw [List.filter_cons_of_neg counting, List.filter_nil]
    exact Finset.union_empty _

theorem aggregate_step {s : State} (price : DedupeKey → ℚ) (had : Seen bucket records s.seen)
    (total : s.report.total.cost = ∑ key ∈ counted bucket records, price key) (named : record.entryId = some id)
    (proper : id ≠ "") (fresh : some id ∉ records.map (·.entryId))
    (agree : ∀ found, usageRecord record bucket = some found →
    nonnegativeNumber found.usage.costTotal = price (identity record)) :
    Seen bucket (records ++ [record]) (aggregateRecord bucket s record).seen ∧
      (aggregateRecord bucket s record).report.total.cost = ∑ key ∈ counted bucket (records ++ [record]), price key := by
  have excluded : _ ↔ identity record ∈ counted bucket records := had.any_iff named proper fresh
  rw [counted_snoc]
  unfold aggregateRecord
  cases read : usageRecord record bucket with
  | none =>
    have skipped : counts bucket record = false := by
      rw [counts, read]
      rfl
    rw [skipped]
    exact ⟨had.keep fun counting => absurd (skipped.symm.trans counting) Bool.false_ne_true, total⟩
  | some found =>
    have counting : counts bucket record = true := by
      rw [counts, read]
      rfl
    rw [counting]
    dsimp only
    by_cases known : (dedupeKeys record).any (· ∈ s.seen) = true
    · have there := excluded.mp known
      rw [if_pos known, if_pos rfl, Finset.insert_eq_of_mem there]
      refine ⟨had.keep fun _ => ?_, total⟩
      obtain ⟨other, listed, same⟩ := List.mem_map.mp (List.mem_toFinset.mp there)
      obtain ⟨before, countedOther⟩ := List.mem_filter.mp listed
      exact same ▸ had.counted other before countedOther
    · rw [if_neg known, if_pos rfl, Finset.sum_insert (mt excluded.mpr known)]
      refine ⟨had.add named proper counting, ?_⟩
      show s.report.total.cost + nonnegativeNumber found.usage.costTotal = _
      rw [total, agree found read, add_comm]

theorem aggregate_cost (price : DedupeKey → ℚ) (entries : (records.map (·.entryId)).Nodup)
    (proper : ∀ record ∈ records, ∃ id, record.entryId = some id ∧ id ≠ "")
    (agree : ∀ record ∈ records, ∀ found, usageRecord record bucket = some found →
      nonnegativeNumber found.usage.costTotal = price (identity record)) :
    Seen bucket records (records.foldl (aggregateRecord bucket) start).seen ∧
      (records.foldl (aggregateRecord bucket) start).report.total.cost = ∑ key ∈ counted bucket records, price key := by
  induction records using List.reverseRecOn with
  | nil =>
    refine ⟨⟨?_, ?_, ?_⟩, (Finset.sum_empty).symm⟩
    · exact fun _ there => absurd there List.not_mem_nil
    · exact fun _ there => absurd there List.not_mem_nil
    · exact fun _ there => absurd there List.not_mem_nil
  | append_singleton records record ih =>
    rw [List.map_append, List.nodup_append] at entries
    obtain ⟨before, -, apart⟩ := entries
    obtain ⟨had, total⟩ := ih before (fun other there => proper other (List.mem_append_left _ there))
      fun other there => agree other (List.mem_append_left _ there)
    have last : record ∈ records ++ [record] := List.mem_append_right _ (List.mem_singleton_self _)
    obtain ⟨id, named, nonempty⟩ := proper record last
    have fresh : some id ∉ records.map (·.entryId) := fun there => apart _ there _ (List.mem_singleton_self _) named.symm
    rw [List.foldl_append, List.foldl_cons, List.foldl_nil]
    exact aggregate_step price had total named nonempty fresh (agree record last)

end UsageAnalytics
