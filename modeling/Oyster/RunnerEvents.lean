import Mathlib.Data.List.Infix
import Mathlib.Data.List.Pairwise
import Mathlib.Data.List.Sort

/-! The durable events of the runners. Each runner numbers its own events. An append keeps the last ones
up to its own limit, and stores nothing for an id that is still there. -/
namespace RunnerEvents

structure Row where
  runnerId : String
  sequence : Nat
  sseId : Option String
  payload : String
  createdAt : String
  deriving DecidableEq

structure Appended where
  runnerId : String
  sseId : Option String
  payload : String
  createdAt : String
  maxEntries : Int

def Row.event (row : Row) : Option String × String × String := (row.sseId, row.payload, row.createdAt)

def Appended.event (call : Appended) : Option String × String × String := (call.sseId, call.payload, call.createdAt)

def rows (table : List Row) (runnerId : String) : List Row := table.filter (·.runnerId = runnerId)

/-- `COALESCE(MAX(sequence), 0)`. -/
def maxSequence (table : List Row) (runnerId : String) : Nat :=
  ((rows table runnerId).map (·.sequence)).foldr max 0

def list (table : List Row) (runnerId : String) (maxPayloadBytes : Option Int) : Except String (List Row) :=
  if maxPayloadBytes.any (· < 1) then .error "runner event payload cap must be a positive integer"
  else .ok (((rows table runnerId).filter fun row =>
    maxPayloadBytes.all fun cap => (row.payload.utf8ByteSize : Int) ≤ cap).mergeSort fun a b => a.sequence ≤ b.sequence)

def existing (table : List Row) (call : Appended) : Option Row :=
  if call.sseId = none then none else (rows table call.runnerId).find? (·.sseId = call.sseId)

def prune (table : List Row) (runnerId : String) (maxEntries : Int) : List Row :=
  table.filter fun row => ¬(row.runnerId = runnerId ∧ (row.sequence : Int) ≤ maxSequence table runnerId - maxEntries)

def inserted (table : List Row) (call : Appended) : Row :=
  ⟨call.runnerId, maxSequence table call.runnerId + 1, call.sseId, call.payload, call.createdAt⟩

section
variable (known : String → Bool)

def append (table : List Row) (call : Appended) : Except String (List Row × Option Row) :=
  if call.maxEntries < 1 then .error "runner event cap must be a positive integer"
  else
    match existing table call with
    | some row => .ok (table, some row)
    | none =>
      if !known call.runnerId then .error "FOREIGN KEY constraint failed"
      else
        let row := inserted table call
        let kept := prune (table ++ [row]) call.runnerId call.maxEntries
        .ok (kept, (rows kept call.runnerId).find? (·.sequence = row.sequence))

def deleteForRunner (table : List Row) (runnerId : String) : List Row := table.filter (·.runnerId ≠ runnerId)

inductive Call where
  | append (call : Appended)
  | deleteForRunner (runnerId : String)

/-- History, for each runner since its last deletion: the events that were appended, and the rows that
appends stored. -/
structure State where
  table : List Row := []
  appended : String → List Appended := fun _ => []
  stored : String → List Row := fun _ => []

def State.afterAppend (s : State) (call : Appended) : State :=
  match append known s.table call with
  | .error _ => s
  | .ok (table, row) =>
    { table
      appended := fun r => if r = call.runnerId then s.appended r ++ [call] else s.appended r
      stored := fun r =>
        if r = call.runnerId ∧ existing s.table call = none then s.stored r ++ row.toList else s.stored r }

def State.step (s : State) : Call → State
  | .append call => s.afterAppend known call
  | .deleteForRunner runnerId =>
    { table := deleteForRunner s.table runnerId
      appended := fun r => if r = runnerId then [] else s.appended r
      stored := fun r => if r = runnerId then [] else s.stored r }

def Differ (a b : Appended) : Prop := a.sseId = none ∨ a.sseId ≠ b.sseId

instance : DecidableRel Differ := fun _ _ => inferInstanceAs (Decidable (_ ∨ _))

def firsts (calls : List Appended) : List Appended := (calls.reverse.pwFilter Differ).reverse

def lasts (calls : List Appended) : List Appended := calls.pwFilter Differ

def run (calls : List Call) : State := calls.foldl (State.step known) {}

end

def Numbered (log : List Row) : Prop := log.map (·.sequence) = List.range' 1 log.length

variable {log : List Row}

theorem Numbered.drop (numbered : Numbered log) (k : Nat) :
    (log.drop k).map (·.sequence) = List.range' (1 + k) (log.length - k) := by
  rw [List.map_drop, numbered, List.drop_range', Nat.mul_one]

variable {kept : List Row}

theorem Numbered.suffix (numbered : Numbered log) (ends : kept <:+ log) :
    kept.map (·.sequence) = List.range' (1 + (log.length - kept.length)) kept.length := by
  rw [List.suffix_iff_eq_drop.mp ends, numbered.drop, List.length_drop]
  congr 1; omega

variable {row : Row}

theorem Numbered.snoc (numbered : Numbered log) (next : row.sequence = log.length + 1) : Numbered (log ++ [row]) := by
  unfold Numbered at numbered ⊢
  rw [List.map_append, numbered, List.length_append, List.map_singleton, List.length_singleton, next,
    List.range'_1_concat, Nat.add_comm 1]

theorem increasing_of_range' {a n : Nat} (same : kept.map (·.sequence) = List.range' a n) :
    kept.Pairwise fun x y => x.sequence < y.sequence := by
  have sorted : (kept.map (·.sequence)).Pairwise (· < ·) := same ▸ List.pairwise_lt_range'
  exact List.pairwise_map.mp sorted

theorem foldr_max_range' (a n : Nat) : (List.range' a (n + 1)).foldr max 0 = a + n := by
  induction n generalizing a with
  | zero => simp
  | succ n ih =>
    rw [List.range'_succ, List.foldr_cons, ih]
    omega

theorem filter_suffix (increasing : log.Pairwise fun x y => x.sequence < y.sequence) {keep : Row → Bool}
    (upwards : ∀ x y, x.sequence < y.sequence → keep x = true → keep y = true) : log.filter keep <:+ log := by
  induction log with
  | nil => exact List.suffix_rfl
  | cons row log ih =>
    obtain ⟨first, increasing⟩ := List.pairwise_cons.mp increasing
    by_cases kept : keep row = true
    · have all : ∀ x ∈ row :: log, keep x = true := by
        intro x mem
        rcases List.mem_cons.mp mem with rfl | mem
        · exact kept
        · exact upwards row x (first x mem) kept
      rw [List.filter_eq_self.mpr all]
    · rw [List.filter_cons_of_neg kept]
      exact (ih increasing).trans (List.suffix_cons row log)

theorem rows_append (table other : List Row) (r : String) : rows (table ++ other) r = rows table r ++ rows other r :=
  List.filter_append ..

theorem rows_own (row : Row) : rows [row] row.runnerId = [row] := by simp [rows]

variable {r : String}

theorem rows_foreign (other : row.runnerId ≠ r) : rows [row] r = [] := by simp [rows, other]

theorem rows_prune_own (table : List Row) (r : String) (maxEntries : Int) : rows (prune table r maxEntries) r =
      (rows table r).filter fun row => ¬(row.sequence : Int) ≤ maxSequence table r - maxEntries := by
  unfold rows prune
  rw [List.filter_filter, List.filter_filter]
  refine List.filter_congr fun row _ => ?_
  by_cases own : row.runnerId = r <;> simp [own]

variable {other : String}

theorem rows_prune_foreign (table : List Row) (differs : other ≠ r) (maxEntries : Int) :
    rows (prune table r maxEntries) other = rows table other := by
  unfold rows prune
  rw [List.filter_filter]
  refine List.filter_congr fun row _ => ?_
  by_cases own : row.runnerId = other <;> simp [own, differs]

theorem rows_delete_own (table : List Row) (r : String) : rows (deleteForRunner table r) r = [] := by
  simp [rows, deleteForRunner, List.filter_filter]

theorem rows_delete_foreign (table : List Row) (differs : other ≠ r) :
    rows (deleteForRunner table r) other = rows table other := by
  unfold rows deleteForRunner
  rw [List.filter_filter]
  refine List.filter_congr fun row _ => ?_
  by_cases own : row.runnerId = other <;> simp [own, differs]

variable {table : List Row} {call : Appended}

theorem existing_eq_some (found : existing table call = some row) :
    row ∈ rows table call.runnerId ∧ row.sseId = call.sseId ∧ call.sseId ≠ none := by
  unfold existing at found
  split_ifs at found with absent
  exact ⟨List.mem_of_find?_eq_some found, by simpa using List.find?_some found, absent⟩

theorem existing_eq_none (absent : existing table call = none) :
    ∀ row ∈ rows table call.runnerId, row.sseId = none ∨ row.sseId ≠ call.sseId := by
  intro row mem
  unfold existing at absent
  split_ifs at absent with noId
  · rw [noId]
    exact (em _).imp_right id
  · exact .inr (by simpa using List.find?_eq_none.mp absent row mem)

theorem append_cases {known : String → Bool} {row : Option Row} (done : append known table call = .ok (kept, row)) :
    1 ≤ call.maxEntries ∧ ((∃ found, existing table call = some found ∧ kept = table ∧ row = some found) ∨
        (existing table call = none ∧ kept = prune (table ++ [inserted table call]) call.runnerId call.maxEntries ∧
          row = (rows kept call.runnerId).find? (·.sequence = (inserted table call).sequence))) := by
  unfold append at done
  by_cases low : call.maxEntries < 1
  · rw [if_pos low] at done
    exact absurd done (by simp)
  rw [if_neg low] at done
  refine ⟨by omega, ?_⟩
  cases there : existing table call with
  | some found =>
    rw [there] at done
    cases done
    exact .inl ⟨found, rfl, rfl, rfl⟩
  | none =>
    rw [there] at done
    split_ifs at done
    cases done
    exact .inr ⟨rfl, rfl, rfl⟩

structure Retained (table : List Row) (stored : List Row) (r : String) : Prop where
  numbered : Numbered stored
  ends : rows table r <:+ stored
  remains : stored ≠ [] → rows table r ≠ []
  ids : (rows table r).Pairwise fun a b => a.sseId = none ∨ a.sseId ≠ b.sseId

section
variable {table stored : List Row} {r : String}

theorem Retained.increasing (kept : Retained table stored r) :
    (rows table r).Pairwise fun a b => a.sequence < b.sequence :=
  increasing_of_range' (kept.numbered.suffix kept.ends)

theorem Retained.max_eq (kept : Retained table stored r) : maxSequence table r = stored.length := by
  have le := kept.ends.length_le
  unfold maxSequence
  rw [kept.numbered.suffix kept.ends]
  cases more : (rows table r).length with
  | zero =>
    have none : stored = [] := by
      by_contra any
      exact kept.remains any (List.length_eq_zero_iff.mp more)
    rw [none]
    rfl
  | succ n =>
    rw [foldr_max_range']
    omega

theorem Retained.last (kept : Retained table stored r) (any : stored ≠ []) :
    ∃ last ∈ rows table r, last.sequence = stored.length := by
  have le := kept.ends.length_le
  have pos := List.length_pos_iff.mpr (kept.remains any)
  have mem : stored.length ∈ (rows table r).map (·.sequence) := by
    rw [kept.numbered.suffix kept.ends]
    exact List.mem_range'_1.mpr ⟨by omega, by omega⟩
  exact List.mem_map.mp mem

theorem Retained.list_eq (kept : Retained table stored r) : list table r none = .ok (rows table r) := by
  have sorted : (rows table r).Pairwise fun a b => decide (a.sequence ≤ b.sequence) = true :=
    kept.increasing.imp fun lt => decide_eq_true lt.le
  unfold list
  rw [if_neg (by simp)]
  simp only [Option.all_none, List.filter_true]
  rw [List.mergeSort_of_pairwise sorted]

theorem rows_inserted (table : List Row) (call : Appended) :
    rows (table ++ [inserted table call]) call.runnerId = rows table call.runnerId ++ [inserted table call] := by
  have own : rows [inserted table call] call.runnerId = [inserted table call] := rows_own (inserted table call)
  rw [rows_append, own]

theorem Retained.insert {call : Appended} (kept : Retained table stored call.runnerId)
    (fresh : existing table call = none) :
    Retained (table ++ [inserted table call]) (stored ++ [inserted table call]) call.runnerId where
  numbered := kept.numbered.snoc (congrArg (· + 1) kept.max_eq)
  ends := by
    rw [rows_inserted]
    obtain ⟨before, same⟩ := kept.ends
    exact ⟨before, by rw [← List.append_assoc, same]⟩
  remains := by
    intro _
    rw [rows_inserted]
    exact List.append_ne_nil_of_right_ne_nil _ (List.cons_ne_nil _ _)
  ids := by
    rw [rows_inserted]
    refine List.pairwise_append.mpr ⟨kept.ids, List.pairwise_singleton _ _, fun a mem b last => ?_⟩
    rw [List.mem_singleton.mp last]
    exact existing_eq_none fresh a mem

variable {maxEntries : Int}

theorem Retained.pruned (kept : Retained table stored r) (positive : 1 ≤ maxEntries) :
    Retained (prune table r maxEntries) stored r := by
  have ends : rows (prune table r maxEntries) r <:+ rows table r := by
    rw [rows_prune_own]
    refine filter_suffix kept.increasing fun x y lt keep => ?_
    simp only [decide_not, Bool.not_eq_true', decide_eq_false_iff_not] at keep ⊢
    omega
  refine ⟨kept.numbered, ends.trans kept.ends, fun any => ?_, kept.ids.sublist ends.sublist⟩
  obtain ⟨last, mem, same⟩ := kept.last any
  rw [rows_prune_own, kept.max_eq]
  refine List.ne_nil_of_mem (List.mem_filter.mpr ⟨mem, ?_⟩)
  simp only [decide_not, Bool.not_eq_true', decide_eq_false_iff_not]
  omega

theorem Retained.length_prune (kept : Retained table stored r) (positive : 1 ≤ maxEntries) :
    ((rows (prune table r maxEntries) r).length : Int) ≤ maxEntries := by
  have pruned := kept.pruned positive
  have le := pruned.ends.length_le
  by_contra more
  -- The first of the rows would be numbered below the bound.
  have mem : 1 + (stored.length - (rows (prune table r maxEntries) r).length) ∈
      (rows (prune table r maxEntries) r).map (·.sequence) := by
    rw [pruned.numbered.suffix pruned.ends]
    exact List.mem_range'_1.mpr ⟨Nat.le_refl _, by omega⟩
  obtain ⟨first, mem, same⟩ := List.mem_map.mp mem
  rw [rows_prune_own, kept.max_eq] at mem
  have above := (List.mem_filter.mp mem).2
  simp only [decide_not, Bool.not_eq_true', decide_eq_false_iff_not] at above
  omega

end

variable {stored : List Row}

theorem Retained.returned (kept : Retained table stored call.runnerId) (fresh : existing table call = none)
    (positive : 1 ≤ call.maxEntries) :
    (rows (prune (table ++ [inserted table call]) call.runnerId call.maxEntries) call.runnerId).getLast? =
        some (inserted table call) ∧
      (rows (prune (table ++ [inserted table call]) call.runnerId call.maxEntries) call.runnerId).find?
        (·.sequence = (inserted table call).sequence) = some (inserted table call) := by
  have pruned := (kept.insert fresh).pruned positive
  have any : stored ++ [inserted table call] ≠ [] := List.append_ne_nil_of_right_ne_nil _ (List.cons_ne_nil _ _)
  have last : (rows (prune (table ++ [inserted table call]) call.runnerId call.maxEntries) call.runnerId).getLast? =
      some (inserted table call) := by
    obtain ⟨before, same⟩ := pruned.ends
    have whole := List.getLast?_append_of_ne_nil before (pruned.remains any)
    rw [same, List.getLast?_concat] at whole
    exact whole.symm
  refine ⟨last, ?_⟩
  obtain ⟨before, same⟩ := List.getLast?_eq_some_iff.mp last
  have increasing := pruned.increasing
  rw [same] at increasing ⊢
  refine List.find?_eq_some_iff_append.mpr ⟨by simp, before, [], by simp, fun row mem => ?_⟩
  have lt := (List.pairwise_append.mp increasing).2.2 row mem _ (List.mem_singleton_self _)
  simp only [Bool.not_eq_true', decide_eq_false_iff_not]
  omega

variable {known : String → Bool}

theorem rows_afterAppend_foreign (other : r ≠ call.runnerId) :
    rows (prune (table ++ [inserted table call]) call.runnerId call.maxEntries) r = rows table r := by
  have foreign : rows [inserted table call] r = [] := @rows_foreign (inserted table call) r (Ne.symm other)
  rw [rows_prune_foreign _ other, rows_append, foreign, List.append_nil]

theorem Retained.of_rows {table' : List Row} (kept : Retained table stored r) (same : rows table' r = rows table r) :
    Retained table' stored r := by
  constructor
  · exact kept.numbered
  · rw [same]; exact kept.ends
  · rw [same]; exact kept.remains
  · rw [same]; exact kept.ids

structure Sound (s : State) (r : String) : Prop where
  retained : Retained s.table (s.stored r) r
  appended : ((s.stored r).map Row.event).Sublist ((s.appended r).map Appended.event)

variable {s : State}

theorem sound_afterAppend (sound : ∀ r, Sound s r) (call : Appended) (r : String) :
    Sound (s.afterAppend known call) r := by
  unfold State.afterAppend
  split
  · exact sound r
  · next table row done =>
    obtain ⟨positive, ⟨found, there, rfl, rfl⟩ | ⟨fresh, rfl, rfl⟩⟩ := append_cases done
    · refine ⟨?_, ?_⟩
      · simpa [there] using (sound r).retained
      · by_cases own : r = call.runnerId
        · simpa [own, there] using (own ▸ (sound r).appended).trans (List.sublist_append_left _ _)
        · simpa [own, there] using (sound r).appended
    · by_cases own : r = call.runnerId
      · subst own
        have kept := (sound call.runnerId).retained
        rw [(kept.returned fresh positive).2]
        refine ⟨?_, ?_⟩
        · simpa [fresh] using (kept.insert fresh).pruned positive
        · have grown := (sound call.runnerId).appended.append (List.Sublist.refl [call.event])
          simp only [fresh, and_self, if_true, Option.toList_some, List.map_append, List.map_singleton]
          exact grown
      · refine ⟨?_, ?_⟩
        · simpa [own] using (sound r).retained.of_rows (rows_afterAppend_foreign own)
        · simpa [own] using (sound r).appended

theorem sound_step (sound : ∀ r, Sound s r) (call : Call) (r : String) : Sound (s.step known call) r := by
  cases call with
  | append call => exact sound_afterAppend sound call r
  | deleteForRunner runnerId =>
    by_cases own : r = runnerId
    · subst own
      refine ⟨?_, ?_⟩
      · simp only [State.step, if_true]
        exact ⟨rfl, by rw [rows_delete_own], fun any => absurd rfl any, by rw [rows_delete_own]; exact .nil⟩
      · simp [State.step]
    · refine ⟨?_, ?_⟩
      · simpa [State.step, own] using (sound r).retained.of_rows (rows_delete_foreign s.table own)
      · simpa [State.step, own] using (sound r).appended

theorem sound_run (calls : List Call) (r : String) : Sound (run known calls) r := by
  have carried : ∀ (calls : List Call) (s : State), (∀ r, Sound s r) → ∀ r, Sound (calls.foldl (State.step known) s) r := by
    intro calls
    induction calls with
    | nil => exact fun s sound => sound
    | cons call calls ih => exact fun s sound => ih _ (sound_step sound call)
  refine carried calls {} (fun r => ⟨⟨rfl, List.suffix_rfl, fun any => absurd rfl any, .nil⟩, List.Sublist.refl _⟩) r

theorem eq_of_ids {l : List Row} (ids : l.Pairwise fun a b => a.sseId = none ∨ a.sseId ≠ b.sseId) {a b : Row}
    (here : a ∈ l) (there : b ∈ l) (same : a.sseId = b.sseId) (any : a.sseId ≠ none) : a = b := by
  induction ids with
  | nil => exact absurd here List.not_mem_nil
  | cons first _ ih =>
    rcases List.mem_cons.mp here with rfl | behind
    · rcases List.mem_cons.mp there with rfl | further
      · rfl
      · exact ((first b further).elim any fun differs => differs same).elim
    · rcases List.mem_cons.mp there with rfl | further
      · exact ((first a behind).elim (fun none => any (same.trans none)) fun differs => differs same.symm).elim
      · exact ih behind further

theorem existing_of_mem (ids : (rows table call.runnerId).Pairwise fun a b => a.sseId = none ∨ a.sseId ≠ b.sseId)
    {found : Row} (mem : found ∈ rows table call.runnerId) (same : found.sseId = call.sseId) (any : call.sseId ≠ none) :
    existing table call = some found := by
  cases there : existing table call with
  | none =>
    rcases existing_eq_none there found mem with absent | differs
    · exact absurd (same.symm.trans absent) any
    · exact absurd same differs
  | some row =>
    obtain ⟨here, id, _⟩ := existing_eq_some there
    rw [eq_of_ids ids here mem (id.trans same.symm) (by rw [id]; exact any)]

/-- In every run the rows of a runner are listed in the order in which they were stored, with increasing
numbers, and are the end of those that appends stored since its last deletion. An append with an id that
is there leaves them as they are; one that stores its event keeps no more than its limit. -/
theorem run_retains (known : String → Bool) (calls : List Call) (r : String) :
    list (run known calls).table r none = .ok (rows (run known calls).table r) ∧
      (rows (run known calls).table r).Pairwise (fun a b => a.sequence < b.sequence) ∧
      rows (run known calls).table r <:+ (run known calls).stored r ∧
      (((run known calls).stored r).map Row.event).Sublist (((run known calls).appended r).map Appended.event) ∧
      (∀ call : Appended, call.runnerId = r → 1 ≤ call.maxEntries → call.sseId ≠ none →
        ∀ found ∈ rows (run known calls).table r, found.sseId = call.sseId →
          append known (run known calls).table call = .ok ((run known calls).table, some found)) ∧
      ∀ call : Appended, call.runnerId = r → ∀ kept row, append known (run known calls).table call = .ok (kept, row) →
        (∀ other ∈ rows (run known calls).table r, other.sseId = none ∨ other.sseId ≠ call.sseId) →
          ∃ new, row = some new ∧ new.event = call.event ∧ (rows kept r).getLast? = some new ∧
            rows kept r <:+ rows (run known calls).table r ++ [new] ∧ ((rows kept r).length : Int) ≤ call.maxEntries := by
  have sound : Sound (run known calls) r := sound_run calls r
  generalize run known calls = s at sound
  have kept := sound.retained
  refine ⟨kept.list_eq, kept.increasing, kept.ends, sound.appended, ?_, ?_⟩
  · rintro call rfl positive any found mem same
    unfold append
    rw [if_neg (by omega), existing_of_mem kept.ids mem same any]
  · rintro call rfl table row done fresh
    obtain ⟨positive, ⟨found, there, _⟩ | ⟨absent, rfl, rfl⟩⟩ := append_cases done
    · obtain ⟨mem, id, any⟩ := existing_eq_some there
      exact ((fresh found mem).elim (fun none => any (id.symm.trans none)) fun differs => differs id).elim
    · obtain ⟨last, returned⟩ := kept.returned absent positive
      refine ⟨inserted s.table call, returned, rfl, last, ?_, (kept.insert absent).length_prune positive⟩
      rw [rows_prune_own, ← rows_inserted]
      refine filter_suffix (kept.insert absent).increasing fun x y lt keep => ?_
      simp only [decide_not, Bool.not_eq_true', decide_eq_false_iff_not] at keep ⊢
      omega

/-- Behind `a` and `b`: `a` again, and an event without an id within a limit of one. -/
theorem run_retains_two :
    let s := run (fun _ => true) [.append ⟨"r", some "a", "p", "", 2⟩, .append ⟨"r", some "b", "q", "", 2⟩]
    append (fun _ => true) s.table ⟨"r", some "a", "p", "", 1⟩ = .ok (s.table, some ⟨"r", 1, some "a", "p", ""⟩) ∧
      ∃ kept row, append (fun _ => true) s.table ⟨"r", none, "z", "", 1⟩ = .ok (kept, row) ∧
        ((rows kept "r").length : Int) ≤ 1 := by
  obtain ⟨_, _, _, _, again, fresh⟩ := run_retains (fun _ => true)
    [.append ⟨"r", some "a", "p", "", 2⟩, .append ⟨"r", some "b", "q", "", 2⟩] "r"
  refine ⟨again ⟨"r", some "a", "p", "", 1⟩ rfl (by decide) (by decide) _ (by decide) rfl, _, _, rfl, ?_⟩
  obtain ⟨_, _, _, _, _, within⟩ := fresh ⟨"r", none, "z", "", 1⟩ rfl _ _ rfl (by decide)
  exact within

/-- An event is stored again when its row was pruned: `a`, `b` within a limit of one, and `a`, `b` again within two. -/
theorem run_stores_again :
    let s := run (fun _ => true) [.append ⟨"r", some "a", "", "", 2⟩, .append ⟨"r", some "b", "", "", 1⟩,
      .append ⟨"r", some "a", "", "", 2⟩, .append ⟨"r", some "b", "", "", 2⟩]
    ∃ listed, list s.table "r" none = .ok listed ∧ ¬ listed.map Row.event <:+ (firsts (s.appended "r")).map Appended.event ∧
      ¬ listed.map Row.event <:+ (lasts (s.appended "r")).map Appended.event := by
  intro s
  exact ⟨rows s.table "r", (sound_run _ "r").retained.list_eq, by decide, by decide⟩

end RunnerEvents
