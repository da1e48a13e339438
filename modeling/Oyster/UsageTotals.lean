import Oyster.OrderedMapSums
import Oyster.UsageAnalytics
import Mathlib.Algebra.GroupWithZero.Nat

/-! The totals of the usage aggregation: they are the sums of its rows, and a class of records that all
share ids with one another is counted once. -/
namespace UsageAnalytics

instance : Zero Usage := ⟨emptyUsage⟩

instance : Add Usage where
  add a b := ⟨a.requests + b.requests, a.input + b.input, a.output + b.output, a.cacheRead + b.cacheRead,
    a.cacheWrite + b.cacheWrite, a.reasoning + b.reasoning, a.totalTokens + b.totalTokens, a.cost + b.cost⟩

theorem Usage.ext_iff' {a b : Usage} : a = b ↔ a.requests = b.requests ∧ a.input = b.input ∧ a.output = b.output ∧
    a.cacheRead = b.cacheRead ∧ a.cacheWrite = b.cacheWrite ∧ a.reasoning = b.reasoning ∧
    a.totalTokens = b.totalTokens ∧ a.cost = b.cost := by
  cases a
  cases b
  simp

instance : AddCommMonoid Usage where
  add_assoc a b c := Usage.ext_iff'.mpr ⟨add_assoc _ _ _, add_assoc _ _ _, add_assoc _ _ _, add_assoc _ _ _,
    add_assoc _ _ _, add_assoc _ _ _, add_assoc _ _ _, add_assoc _ _ _⟩
  zero_add a := Usage.ext_iff'.mpr ⟨zero_add _, zero_add _, zero_add _, zero_add _, zero_add _, zero_add _,
    zero_add _, zero_add _⟩
  add_zero a := Usage.ext_iff'.mpr ⟨add_zero _, add_zero _, add_zero _, add_zero _, add_zero _, add_zero _,
    add_zero _, add_zero _⟩
  add_comm a b := Usage.ext_iff'.mpr ⟨add_comm _ _, add_comm _ _, add_comm _ _, add_comm _ _, add_comm _ _,
    add_comm _ _, add_comm _ _, add_comm _ _⟩
  nsmul := nsmulRec

def single (usage : MessageUsage) : Usage := addUsage 0 usage

theorem addUsage_eq (target : Usage) (usage : MessageUsage) : addUsage target usage = target + single usage :=
  Usage.ext_iff'.mpr ⟨congrArg (target.requests + ·) (zero_add 1).symm, congrArg (_ + ·) (zero_add _).symm,
    congrArg (_ + ·) (zero_add _).symm, congrArg (_ + ·) (zero_add _).symm, congrArg (_ + ·) (zero_add _).symm,
    congrArg (_ + ·) (zero_add _).symm, congrArg (_ + ·) (zero_add _).symm, congrArg (_ + ·) (zero_add _).symm⟩

def rowTotal {κ : Type} (rows : OrderedMap κ Usage) : Usage := rows.sumOf id

theorem rowTotal_addTo {κ : Type} [DecidableEq κ] (rows : OrderedMap κ Usage) (key : κ) (usage : MessageUsage) :
    rowTotal (addTo rows key usage) = rowTotal rows + single usage := by
  unfold addTo rowTotal
  rw [addUsage_eq]
  cases found : rows.get key with
  | some old => exact OrderedMap.sumOf_set_present (OrderedMap.mem_of_get found) rfl
  | none =>
    rw [OrderedMap.sumOf_set_new (OrderedMap.get_eq_none.mp found)]
    exact congrArg (_ + ·) (zero_add _)

def worth (bucket : Bucket) (record : Record) : Usage :=
  match usageRecord record bucket with
  | none => 0
  | some counted => single counted.usage

def picks (bucket : Bucket) : List DedupeKey → List Record → List Record
  | _, [] => []
  | seen, record :: records =>
    if counts bucket record then
      if (dedupeKeys record).any (· ∈ seen) then picks bucket seen records
      else record :: picks bucket (dedupeKeys record ++ seen) records
    else picks bucket seen records

structure Sums (report : Report) (sum : Usage) : Prop where
  total : report.total = sum
  models : rowTotal report.models = sum
  series : rowTotal report.series = sum

theorem Sums.add {report : Report} {total : Usage} (h : Sums report total) (counted : Counted) :
    Sums (addUsageRecord report counted) (total + single counted.usage) where
  total := by rw [← h.total]; exact addUsage_eq _ _
  models := by rw [← h.models]; exact rowTotal_addTo _ _ _
  series := by rw [← h.series]; exact rowTotal_addTo _ _ _

theorem sums_foldl {bucket : Bucket} {s : State} {total : Usage} (h : Sums s.report total) (records : List Record) :
    Sums (records.foldl (aggregateRecord bucket) s).report
      (total + ((picks bucket s.seen records).map (worth bucket)).sum) := by
  induction records generalizing s total with
  | nil => simpa [picks] using h
  | cons record records ih =>
    rw [List.foldl_cons, picks]
    cases read : usageRecord record bucket with
    | none =>
      have skipped : ¬counts bucket record = true := by simp [counts, read]
      rw [if_neg skipped, aggregateRecord, read]
      exact ih h
    | some counted =>
      have counting : counts bucket record = true := by simp [counts, read]
      rw [if_pos counting, aggregateRecord, read]
      dsimp only
      by_cases known : (dedupeKeys record).any (· ∈ s.seen) = true
      · rw [if_pos known, if_pos known]
        exact ih h
      · rw [if_neg known, if_neg known, List.map_cons, List.sum_cons, ← add_assoc]
        have own : worth bucket record = single counted.usage := by rw [worth, read]
        rw [own]
        exact ih (h.add counted)

/-- Two records have an id in common. -/
def shares (a b : Record) : Bool := (dedupeKeys a).any (· ∈ dedupeKeys b)

theorem shares_iff {a b : Record} : shares a b = true ↔ ∃ key, key ∈ dedupeKeys a ∧ key ∈ dedupeKeys b := by
  simp [shares]

theorem shares_comm (a b : Record) : shares a b = shares b a := by
  rw [Bool.eq_iff_iff, shares_iff, shares_iff]
  exact ⟨fun ⟨key, left, right⟩ => ⟨key, right, left⟩, fun ⟨key, left, right⟩ => ⟨key, right, left⟩⟩

theorem shares_self {record : Record} (named : dedupeKeys record ≠ []) : shares record record = true := by
  obtain ⟨key, there⟩ := List.exists_mem_of_ne_nil _ named
  exact shares_iff.mpr ⟨key, there, there⟩

def Linked (bucket : Bucket) (records : List Record) (a b : Record) : Prop :=
  (a ∈ records ∧ counts bucket a = true) ∧ (b ∈ records ∧ counts bucket b = true) ∧ shares a b = true

/-- Records are of one class if a chain of common ids leads from one to the other. -/
def Connected (bucket : Bucket) (records : List Record) : Record → Record → Prop :=
  Relation.TransGen (Linked bucket records)

/-- Any two records of the class of `r` have an id in common. -/
def Direct (bucket : Bucket) (records : List Record) (r : Record) : Prop :=
  ∀ a b, Connected bucket records r a → Connected bucket records r b → shares a b = true

/-- The records of the class of `r` are worth the same. -/
def Even (bucket : Bucket) (records : List Record) (r : Record) : Prop :=
  ∀ a, Connected bucket records r a → worth bucket r = worth bucket a

def Listed (bucket : Bucket) (records : List Record) (record : Record) : Prop :=
  record ∈ records ∧ counts bucket record = true

section Classes
variable {bucket : Bucket} {all : List Record} {a b c r : Record}

theorem Connected.listed (h : Connected bucket all a b) : Listed bucket all a ∧ Listed bucket all b := by
  induction h with
  | single link => exact ⟨link.1, link.2.1⟩
  | tail _ link ih => exact ⟨ih.1, link.2.1⟩

theorem Connected.link (h : Connected bucket all r a) (there : Listed bucket all b) (common : shares a b = true) :
    Connected bucket all r b :=
  h.tail ⟨h.listed.2, there, common⟩

theorem Connected.symm (h : Connected bucket all a b) : Connected bucket all b a := by
  have turned : ∀ {a b : Record}, Linked bucket all a b → Linked bucket all b a := fun {a b} link =>
    ⟨link.2.1, link.1, shares_comm a b ▸ link.2.2⟩
  induction h with
  | single link => exact .single (turned link)
  | tail _ link ih => exact .head (turned link) ih

theorem Direct.congr (direct : Direct bucket all r) (ha : Connected bucket all r a) (hb : Connected bucket all r b)
    (there : Listed bucket all c) : shares a c = shares b c := by
  rw [Bool.eq_iff_iff]
  constructor
  · intro common
    exact direct b c hb (ha.link there common)
  · intro common
    exact direct a c ha (hb.link there common)

end Classes

def hit (seen : List DedupeKey) (record : Record) : Bool := (dedupeKeys record).any (· ∈ seen)

section Hits
variable {bucket : Bucket} {all records : List Record} {record r : Record} {seen : List DedupeKey}

@[simp] theorem hit_nil (record : Record) : hit [] record = false := by
  simp [hit]

theorem hit_append (record other : Record) (seen : List DedupeKey) :
    hit (dedupeKeys record ++ seen) other = (shares other record || hit seen other) := by
  simp only [hit, shares, List.mem_append, Bool.decide_or]
  induction dedupeKeys other with
  | nil => rfl
  | cons key keys ih =>
    rw [List.any_cons, List.any_cons, List.any_cons, ih]
    simp only [Bool.or_assoc, Bool.or_left_comm]

theorem picks_cons (record : Record) (records : List Record) : picks bucket seen (record :: records) =
      if counts bucket record = true ∧ hit seen record = false then
        record :: picks bucket (dedupeKeys record ++ seen) records
      else picks bucket seen records := by
  rw [picks, hit]
  cases counts bucket record with
  | false => rfl
  | true =>
    cases (dedupeKeys record).any (· ∈ seen) with
    | false => rfl
    | true => rfl

theorem mem_picks {other : Record} (h : other ∈ picks bucket seen records) :
    other ∈ records ∧ counts bucket other = true := by
  induction records generalizing seen with
  | nil => cases h
  | cons record records ih =>
    rw [picks_cons] at h
    split_ifs at h with picked
    · rcases List.mem_cons.mp h with rfl | later
      · exact ⟨List.mem_cons_self, picked.1⟩
      · exact ⟨List.mem_cons_of_mem _ (ih later).1, (ih later).2⟩
    · exact ⟨List.mem_cons_of_mem _ (ih h).1, (ih h).2⟩

theorem picks_sublist (seen : List DedupeKey) : (picks bucket seen records).Sublist records := by
  induction records generalizing seen with
  | nil => exact .slnil
  | cons record records ih =>
    rw [picks_cons]
    split_ifs
    · exact (ih _).cons_cons record
    · exact (ih _).cons record

theorem picks_nameless (seen : List DedupeKey) : (picks bucket seen records).filter (fun r => dedupeKeys r = []) =
      records.filter fun r => counts bucket r && dedupeKeys r = [] := by
  induction records generalizing seen with
  | nil => rfl
  | cons record records ih =>
    rw [picks_cons]
    by_cases nameless : dedupeKeys record = []
    · have unseen : hit seen record = false := by simp [hit, nameless]
      cases counting : counts bucket record with
      | false => simp [counting, ih]
      | true => simp [counting, unseen, nameless, ih]
    · split_ifs
      · simp [nameless, ih]
      · simp [nameless, ih]

theorem Listed.self (there : Listed bucket all r) (named : dedupeKeys r ≠ []) : Connected bucket all r r :=
  .single ⟨there, there, shares_self named⟩

/-- Whether a record of the class of `r` comes up. -/
def comes (bucket : Bucket) (r : Record) (records : List Record) : Bool :=
  records.any fun e => counts bucket e && shares r e

/-- Of the class of `r`, one record is counted if none of it has been seen. -/
theorem countP_picks (direct : Direct bucket all r) (self : Connected bucket all r r)
    (inside : ∀ e ∈ records, e ∈ all) (together : ∀ a, Connected bucket all r a → hit seen a = hit seen r) :
    (picks bucket seen records).countP (shares r) =
      if hit seen r = false ∧ comes bucket r records = true then 1 else 0 := by
  induction records generalizing seen with
  | nil => simp [picks, comes]
  | cons record records ih =>
    obtain ⟨here, later⟩ := List.forall_mem_cons.mp inside
    have first : comes bucket r (record :: records) =
        (counts bucket record && shares r record || comes bucket r records) := rfl
    rw [picks_cons, first]
    cases counting : counts bucket record with
    | false => simpa using ih later together
    | true =>
      cases common : shares r record with
      | true =>
        -- A record of the class: it is picked if the class is new, and then the class is seen.
        have connected : Connected bucket all r record := self.link ⟨here, counting⟩ common
        have next : ∀ a, Connected bucket all r a → hit (dedupeKeys record ++ seen) a = true := fun a ha => by
          rw [hit_append, direct a record ha connected, Bool.true_or]
        rw [together record connected]
        cases known : hit seen r with
        | true => simpa [known] using ih later together
        | false =>
          have rest := ih later fun a ha => (next a ha).trans (next r self).symm
          rw [next r self] at rest
          simpa [common] using rest
      | false =>
        -- Another record: what it adds says nothing of the class.
        have next : ∀ a, Connected bucket all r a → hit (dedupeKeys record ++ seen) a = hit seen a :=
            fun a ha => by
          have apart : shares a record = false := by
            apply Bool.eq_false_iff.mpr
            intro common'
            exact Bool.false_ne_true (common.symm.trans (direct r record self (ha.link ⟨here, counting⟩ common')))
          rw [hit_append, apart, Bool.false_or]
        have rest := @ih (dedupeKeys record ++ seen) later fun a ha => by
          rw [next a ha, next r self, together a ha]
        rw [next r self] at rest
        by_cases picked : true = true ∧ hit seen record = false
        · rw [if_pos picked, List.countP_cons_of_neg (by simp [common])]
          exact rest
        · rw [if_neg picked]
          exact ih later together

end Hits

/-- The same record, or another of its class, where all share ids, with the same usage. -/
def Alike (bucket : Bucket) (all : List Record) (a b : Record) : Prop :=
  a = b ∨ Connected bucket all a b ∧ Direct bucket all a ∧ worth bucket a = worth bucket b

/-- The same records in another order: only records of one class and of equal usage have changed places. -/
structure Rearranged (bucket : Bucket) (records records' : List Record) : Prop where
  perm : records.Perm records'
  alike : List.Forall₂ (Alike bucket records) records records'

/-- What has been seen is the same for either order, and for the records of a direct class together. -/
structure Agree (bucket : Bucket) (all : List Record) (seen seen' : List DedupeKey) : Prop where
  same : ∀ a, Listed bucket all a → hit seen a = hit seen' a
  together : ∀ a b, Connected bucket all a b → Direct bucket all a → hit seen a = hit seen b

section Order
variable {bucket : Bucket} {all : List Record} {a b : Record} {seen seen' : List DedupeKey}

theorem Alike.worth_eq (h : Alike bucket all a b) : worth bucket a = worth bucket b := by
  rcases h with rfl | ⟨-, -, equal⟩
  · rfl
  · exact equal

theorem Alike.counts_eq (h : Alike bucket all a b) : counts bucket a = counts bucket b := by
  rcases h with rfl | ⟨connected, -, -⟩
  · rfl
  · rw [connected.listed.1.2, connected.listed.2.2]

theorem Alike.shares_eq (h : Alike bucket all a b) {c : Record} (there : Listed bucket all c) :
    shares c a = shares c b := by
  rcases h with rfl | ⟨connected, direct, -⟩
  · rfl
  · rw [shares_comm c a, shares_comm c b]
    exact direct.congr (connected.trans connected.symm) connected there

theorem Agree.hit_eq (h : Agree bucket all seen seen') (alike : Alike bucket all a b) (there : Listed bucket all a) :
    hit seen a = hit seen' b := by
  rcases alike with rfl | ⟨connected, direct, -⟩
  · exact h.same a there
  · rw [h.together a b connected direct, h.same b connected.listed.2]

theorem Agree.next (h : Agree bucket all seen seen') (alike : Alike bucket all a b) (there : Listed bucket all a) :
    Agree bucket all (dedupeKeys a ++ seen) (dedupeKeys b ++ seen') where
  same := fun c listed => by
    rw [hit_append, hit_append, alike.shares_eq listed, h.same c listed]
  together := fun c d connected direct => by
    rw [hit_append, hit_append, h.together c d connected direct,
      direct.congr (connected.trans connected.symm) connected there]

theorem picks_worth_eq {records records' : List Record} (alike : List.Forall₂ (Alike bucket all) records records')
    (inside : ∀ e ∈ records, e ∈ all) (agree : Agree bucket all seen seen') :
    (picks bucket seen records).map (worth bucket) = (picks bucket seen' records').map (worth bucket) := by
  induction alike generalizing seen seen' with
  | nil => rfl
  | @cons record record' records records' first _ ih =>
    obtain ⟨here, later⟩ := List.forall_mem_cons.mp inside
    rw [picks_cons, picks_cons, ← first.counts_eq]
    cases counting : counts bucket record with
    | false => simpa using ih later agree
    | true =>
      rw [← agree.hit_eq first ⟨here, counting⟩]
      split_ifs
      · rw [List.map_cons, List.map_cons, first.worth_eq, ih later (agree.next first ⟨here, counting⟩)]
      · exact ih later agree

end Order

section Copies
variable {bucket : Bucket} {records : List Record} {record : Record}

def Known (bucket : Bucket) (record : Record) (s : State) : Prop :=
  counts bucket record = true → (dedupeKeys record).any (· ∈ s.seen) = true

theorem Known.aggregate_eq {s : State} (h : Known bucket record s) : aggregateRecord bucket s record = s := by
  unfold aggregateRecord
  cases read : usageRecord record bucket with
  | none => rfl
  | some counted => exact if_pos (h (by rw [counts, read]; rfl))

theorem seen_subset (s : State) (other : Record) : s.seen ⊆ (aggregateRecord bucket s other).seen := by
  unfold aggregateRecord
  split
  · exact List.Subset.refl _
  · split_ifs
    · exact List.Subset.refl _
    · exact List.subset_append_right _ _

theorem Known.later {s : State} (h : Known bucket record s) (other : Record) :
    Known bucket record (aggregateRecord bucket s other) := fun counting => by
  obtain ⟨key, own, known⟩ := List.any_eq_true.mp (h counting)
  exact List.any_eq_true.mpr ⟨key, own, decide_eq_true (seen_subset s other (of_decide_eq_true known))⟩

theorem known_of_aggregate (named : dedupeKeys record ≠ []) (s : State) :
    Known bucket record (aggregateRecord bucket s record) := fun counting => by
  unfold aggregateRecord
  cases read : usageRecord record bucket with
  | none => simp [counts, read] at counting
  | some counted =>
    split_ifs with known
    · exact known
    · obtain ⟨key, own⟩ := List.exists_mem_of_ne_nil _ named
      exact List.any_eq_true.mpr ⟨key, own, decide_eq_true (List.mem_append_left _ own)⟩

theorem known_of_mem (named : dedupeKeys record ≠ []) (inside : record ∈ records) (s : State) :
    Known bucket record (records.foldl (aggregateRecord bucket) s) := by
  induction records using List.reverseRecOn with
  | nil => cases inside
  | append_singleton records other ih =>
    rw [List.foldl_append, List.foldl_cons, List.foldl_nil]
    rcases List.mem_append.mp inside with before | last
    · exact (ih before).later other
    · obtain rfl := List.mem_singleton.mp last
      exact known_of_aggregate named _

/-- A copy of a record that has an id, anywhere after it. -/
inductive CopiedAfter : List Record → List Record → Prop
  | refl (records : List Record) : CopiedAfter records records
  | insert {records before after : List Record} {record : Record} : CopiedAfter records (before ++ after) →
      record ∈ before → dedupeKeys record ≠ [] → CopiedAfter records (before ++ record :: after)

theorem CopiedAfter.foldl_eq {records' : List Record} (h : CopiedAfter records records') (s : State) :
    records'.foldl (aggregateRecord bucket) s = records.foldl (aggregateRecord bucket) s := by
  induction h with
  | refl => rfl
  | @insert before after record _ inside named ih =>
    rw [← ih, List.foldl_append, List.foldl_cons, (known_of_mem named inside s).aggregate_eq, List.foldl_append]

end Copies


/-- Copies of records that have an id and whose class all share ids and are worth the same, in any places. -/
inductive Copied (bucket : Bucket) (records : List Record) : List Record → Prop
  | refl : Copied bucket records records
  | insert {before after : List Record} {record : Record} : Copied bucket records (before ++ after) →
      record ∈ records → dedupeKeys record ≠ [] → Direct bucket records record → Even bucket records record →
      Copied bucket records (before ++ record :: after)

section Anywhere
variable {bucket : Bucket} {all records : List Record} {r : Record} {seen seen' : List DedupeKey}

theorem picks_filter (keep : Record → Bool)
    (closed : ∀ a b, Listed bucket all a → Listed bucket all b → shares a b = true → keep a = keep b)
    (inside : ∀ e ∈ records, e ∈ all)
    (same : ∀ a, Listed bucket all a → keep a = true → hit seen a = hit seen' a) :
    (picks bucket seen records).filter keep = picks bucket seen' (records.filter keep) := by
  induction records generalizing seen seen' with
  | nil => rfl
  | cons record records ih =>
    obtain ⟨here, later⟩ := List.forall_mem_cons.mp inside
    rw [picks_cons]
    by_cases kept : keep record = true
    · rw [List.filter_cons_of_pos kept, picks_cons]
      cases counting : counts bucket record with
      | false => simpa using ih later same
      | true =>
        rw [← same record ⟨here, counting⟩ kept]
        split_ifs
        · rw [List.filter_cons_of_pos kept]
          apply congrArg (record :: ·)
          apply ih later
          intro a listed keepa
          rw [hit_append, hit_append, same a listed keepa]
        · exact ih later same
    · rw [List.filter_cons_of_neg kept]
      split_ifs with picked
      · rw [List.filter_cons_of_neg kept]
        apply ih later
        intro a listed keepa
        -- A record outside adds no id of one inside.
        have apart : shares a record = false := by
          apply Bool.eq_false_iff.mpr
          intro common
          exact kept (closed a record listed ⟨here, picked.1⟩ common ▸ keepa)
        rw [hit_append, apart, Bool.false_or, same a listed keepa]
      · exact ih later same

theorem class_total (direct : Direct bucket all r) (even : Even bucket all r) (self : Connected bucket all r r)
    (inside : ∀ e ∈ records, e ∈ all) (there : r ∈ records) :
    ((picks bucket [] records).map (worth bucket)).sum =
      worth bucket r + ((picks bucket [] (records.filter fun e => !shares r e)).map (worth bucket)).sum := by
  have one : (picks bucket [] records).countP (shares r) = 1 := by
    rw [countP_picks direct self inside fun a _ => (hit_nil a).trans (hit_nil r).symm]
    have comes : comes bucket r records = true := List.any_eq_true.mpr
      ⟨r, there, Bool.and_eq_true_iff.mpr ⟨self.listed.1.2, direct r r self self⟩⟩
    exact if_pos ⟨hit_nil r, comes⟩
  rw [List.countP_eq_length_filter, List.length_eq_one_iff] at one
  obtain ⟨first, only⟩ := one
  obtain ⟨counted, common⟩ := List.mem_filter.mp (only ▸ List.mem_singleton_self first)
  obtain ⟨early, counting⟩ := mem_picks counted
  have equal : worth bucket r = worth bucket first := even first (self.link ⟨inside first early, counting⟩ common)
  have others : (picks bucket [] records).filter (fun e => !shares r e) =
      picks bucket [] (records.filter fun e => !shares r e) := by
    refine picks_filter _ ?_ inside fun _ _ _ => rfl
    intro a b ha hb common'
    have either : shares r a = shares r b := by
      rw [Bool.eq_iff_iff]
      constructor
      · exact fun of_a => direct r b self ((self.link ha of_a).link hb common')
      · exact fun of_b => direct r a self ((self.link hb of_b).link ha (shares_comm a b ▸ common'))
    rw [either]
  rw [← others, equal, ← List.sum_cons, ← List.map_cons, ← List.singleton_append, ← only]
  exact ((List.filter_append_perm (shares r) _).map (worth bucket)).sum_eq.symm

end Anywhere

def Bucket.name : Bucket → String
  | .hour => "hour"
  | .day => "day"

section Totals
variable (bucket : Bucket) (records : List Record)

def report : Report := (records.foldl (aggregateRecord bucket) start).report

theorem aggregateUsageRecords_name : aggregateUsageRecords records bucket.name = .ok (report bucket records) := by
  cases bucket <;> rfl

theorem sums_report : Sums (report bucket records) ((picks bucket [] records).map (worth bucket)).sum := by
  have empty : Sums start.report 0 := ⟨rfl, rfl, rfl⟩
  have sums := @sums_foldl bucket start 0 empty records
  rwa [zero_add] at sums

variable {bucket records}

theorem requests_sum (usages : List Usage) : usages.sum.requests = (usages.map Usage.requests).sum := by
  induction usages with
  | nil => rfl
  | cons usage usages ih =>
    rw [List.sum_cons, List.map_cons, List.sum_cons, ← ih]
    rfl

theorem requests_picks (seen : List DedupeKey) :
    ((picks bucket seen records).map (worth bucket)).sum.requests = (picks bucket seen records).length := by
  have one : ∀ r ∈ picks bucket seen records, (Usage.requests ∘ worth bucket) r = 1 := fun r counted => by
    have counting := (mem_picks counted).2
    rw [Function.comp_apply, worth]
    cases read : usageRecord r bucket with
    | none => simp [counts, read] at counting
    | some found => rfl
  rw [requests_sum, List.map_map, List.map_congr_left one, List.map_const', List.sum_replicate]
  exact Nat.mul_one _

theorem Copied.mem_iff {records' : List Record} (h : Copied bucket records records') (other : Record) :
    other ∈ records' ↔ other ∈ records := by
  induction h with
  | refl => rfl
  | @insert before after record _ inside _ _ _ ih =>
    rw [List.perm_middle.mem_iff, List.mem_cons, ih]
    constructor
    · rintro (rfl | there)
      · exact inside
      · exact there
    · exact .inr

theorem Copied.total_eq {records' : List Record} (h : Copied bucket records records') :
    (report bucket records').total = (report bucket records).total := by
  induction h with
  | refl => rfl
  | @insert before after record h inside named direct even ih =>
    rw [← ih]
    by_cases counting : counts bucket record = true
    · have self : Connected bucket records record record := Listed.self ⟨inside, counting⟩ named
      have there : record ∈ before ++ after := (h.mem_iff record).mpr inside
      have listed : ∀ e ∈ before ++ after, e ∈ records := fun e => (h.mem_iff e).mp
      have listed' : ∀ e ∈ before ++ record :: after, e ∈ records := fun e mem => by
        rcases List.mem_cons.mp (List.perm_middle.mem_iff.mp mem) with rfl | old
        · exact inside
        · exact listed e old
      have there' : record ∈ before ++ record :: after := List.mem_append_right _ List.mem_cons_self
      have own : (!shares record record) = false := by rw [direct record record self self]; rfl
      rw [(sums_report bucket _).total, (sums_report bucket _).total, class_total direct even self listed there,
        class_total direct even self listed' there', List.filter_append, List.filter_append,
        List.filter_cons_of_neg (by simp [own])]
    · have known : ∀ s, Known bucket record s := fun s absurd => (counting absurd).elim
      unfold report
      rw [List.foldl_append, List.foldl_cons, (known _).aggregate_eq, List.foldl_append]

end Totals

/-- The total is the sum of the rows; a class of records that all share ids is counted once, in any order, and copies
add nothing. -/
theorem usage_totals (bucket : Bucket) (records : List Record) :
    ∃ report, aggregateUsageRecords records bucket.name = .ok report ∧
      rowTotal report.models = report.total ∧ rowTotal report.series = report.total ∧
      (∃ counted : List Record, counted.Sublist records ∧ report.total = (counted.map (worth bucket)).sum ∧
        report.total.requests = counted.length ∧
        counted.filter (fun r => dedupeKeys r = []) = records.filter (fun r => counts bucket r && dedupeKeys r = []) ∧
        ∀ r, Listed bucket records r → dedupeKeys r ≠ [] → Direct bucket records r → counted.countP (shares r) = 1) ∧
      (∀ records', Rearranged bucket records records' →
        ∃ report', aggregateUsageRecords records' bucket.name = .ok report' ∧ report'.total = report.total) ∧
      (∀ records', CopiedAfter records records' → aggregateUsageRecords records' bucket.name = .ok report) ∧
      ∀ records', Copied bucket records records' →
        ∃ report', aggregateUsageRecords records' bucket.name = .ok report' ∧ report'.total = report.total := by
  have sums := sums_report bucket records
  have nothing : Agree bucket records [] [] := ⟨fun _ _ => rfl, fun a b _ _ => (hit_nil a).trans (hit_nil b).symm⟩
  refine ⟨report bucket records, aggregateUsageRecords_name bucket records, sums.models.trans sums.total.symm,
    sums.series.trans sums.total.symm, ⟨picks bucket [] records, picks_sublist [], sums.total, ?_, picks_nameless [], ?_⟩,
    ?_, ?_, ?_⟩
  · rw [sums.total, requests_picks]
  · intro r listed named direct
    have self : Connected bucket records r r := listed.self named
    have comes : comes bucket r records = true := List.any_eq_true.mpr
      ⟨r, listed.1, Bool.and_eq_true_iff.mpr ⟨listed.2, shares_self named⟩⟩
    rw [countP_picks direct self (fun _ there => there) fun a _ => (hit_nil a).trans (hit_nil r).symm]
    exact if_pos ⟨hit_nil r, comes⟩
  · intro records' order
    refine ⟨_, aggregateUsageRecords_name bucket records', ?_⟩
    rw [(sums_report bucket records').total, sums.total, picks_worth_eq order.alike (fun _ there => there) nothing]
  · intro records' copied
    rw [aggregateUsageRecords_name, report, copied.foldl_eq]
    rfl
  · intro records' copied
    exact ⟨_, aggregateUsageRecords_name bucket records', copied.total_eq⟩

def sample (responseId entryId : Option String) (tokens : ℚ) : Record where
  entryId := entryId
  timestamp := some 0
  message := ⟨responseId, .absent, some "m", some ⟨some tokens, none, none, none, none, none, none⟩, none⟩

def dayTotal (records : List Record) : Option Usage := (aggregateUsageRecords records "day").toOption.map (·.total)

/-- A record without ids is counted with its copy, a copy in front takes the place of another record of its response,
and of three records of one class the first and the last are counted. -/
theorem counted_again : (∃ r, dayTotal [r, r] ≠ dayTotal [r]) ∧
      (∃ a b, shares a b = true ∧ dayTotal [b, a, b] ≠ dayTotal [a, b]) ∧
      ∃ a b c, shares a b = true ∧ shares b c = true ∧ (dayTotal [a, b, c]).map (·.requests) = some 2 := by
  refine ⟨⟨sample none none 1, by decide⟩, ⟨sample (some "r") none 1, sample (some "r") none 2, by decide, ?_⟩,
    ⟨sample (some "r") none 1, sample (some "r") (some "e") 1, sample none (some "e") 1, by decide, by decide, by decide⟩⟩
  decide +kernel

end UsageAnalytics
