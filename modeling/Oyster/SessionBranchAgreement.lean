import Oyster.SessionBranch

/-! The catalogs agree on the active branch up to the first ancestor that the query's guard
takes for one that it has visited. -/
namespace SessionBranch
open Json ScopedIdentity RecursiveQuery ParentRelation

variable {ν : Type} [Numbers ν]

section
omit [Numbers ν]

theorem lookup_insert (members : Members ν) (key other : CodeUnits) (value : Value ν)
    (absent : ∀ m ∈ members, m.1 ≠ key) :
    lookup (insert key value members) other = if other = key then some value else lookup members other := by
  induction members with
  | nil =>
    by_cases same : other = key
    · simp [lookup, Json.insert, same]
    · simp [lookup, Json.insert, same, Ne.symm same]
  | cons m members ih =>
    have later := ih fun m' mem => absent m' (List.mem_cons_of_mem _ mem)
    have own : m.1 ≠ key := absent m (List.mem_cons_self ..)
    rw [Json.insert]
    by_cases before : precedes key m.1 = true
    · rw [if_pos before]
      by_cases same : other = key
      · simp [lookup, same]
      · simp [lookup, same, Ne.symm same]
    · rw [if_neg before]
      unfold lookup at later ⊢
      by_cases here : m.1 = other
      · rw [List.find?_cons_of_pos (by simpa using here), List.find?_cons_of_pos (by simpa using here),
          if_neg (here ▸ own)]
      · rw [List.find?_cons_of_neg (by simpa using here), List.find?_cons_of_neg (by simpa using here), later]

theorem lookup_replace (members : Members ν) (key other : CodeUnits) (value : Value ν)
    (present : members.any (·.1 = key) = true) :
    lookup (members.map fun m => if m.1 = key then (key, value) else m) other =
      if other = key then some value else lookup members other := by
  unfold lookup
  rw [List.find?_map]
  by_cases same : other = key
  · subst same
    obtain ⟨m, mem, found⟩ := List.any_eq_true.mp present
    have holds : ((fun m : CodeUnits × Value ν => decide (m.1 = other)) ∘ fun m =>
      if m.1 = other then (other, value) else m) =
        fun m => decide (m.1 = other) := by
      funext m
      by_cases here : m.1 = other <;> simp [here]
    rw [holds, if_pos rfl]
    have known : (members.find? fun m => decide (m.1 = other)).isSome = true := List.find?_isSome.mpr ⟨m, mem, found⟩
    obtain ⟨first, first_found⟩ := Option.isSome_iff_exists.mp known
    have here : first.1 = other := by simpa using List.find?_some first_found
    rw [first_found]
    simp [here]
  · have holds : ((fun m : CodeUnits × Value ν => decide (m.1 = other)) ∘ fun m => if m.1 = key then (key, value) else m) =
        fun m => decide (m.1 = other) := by
      funext m
      by_cases here : m.1 = key
      · simp [here, Ne.symm same]
      · simp [here]
    rw [holds, if_neg same]
    cases found : members.find? fun m => decide (m.1 = other) with
    | none => rfl
    | some m =>
      have here : m.1 = other := by simpa using List.find?_some found
      simp [here, same]

theorem lookup_define (members : Members ν) (key other : CodeUnits) (value : Value ν) :
    lookup (define members key value) other = if other = key then some value else lookup members other := by
  unfold define
  by_cases present : members.any (·.1 = key) = true
  · rw [if_pos present]
    exact lookup_replace members key other value present
  · rw [if_neg present]
    refine lookup_insert members key other value fun m mem same => present ?_
    exact List.any_eq_true.mpr ⟨m, mem, by simpa using same⟩

end

omit [Numbers ν] in
theorem textMember_eq {members : Members ν} {key : String} {s : CodeUnits} (h : textMember members key = some s) :
    lookup members (ascii key) = some (.str s) := by
  unfold textMember at h
  split at h
  · rename_i found
    rw [found, Option.some.inj h]
  · cases h

theorem Stored.entryId {entry : Members ν} {row : Row} (h : Stored entry row) :
    SessionBranch.entryId entry = if row.id = [] then none else some row.id := by
  unfold SessionBranch.entryId
  rw [h.id]
  by_cases empty : row.id = [] <;> simp [Option.filter, empty]

theorem Stored.decoded {entry decoded : Members ν} {row : Row} (h : Stored entry row)
    (found : decodeEntry row = some decoded) {key : CodeUnits} (other : key ≠ ascii "parentId") :
    lookup decoded key = lookup entry key := by
  obtain ⟨payload, parsed, rest⟩ := h.payload
  unfold decodeEntry at found
  rw [parsed] at found
  obtain ⟨_, same⟩ := Option.ite_none_left_eq_some.mp found
  cases same
  simp only [lookup_define]
  by_cases timestamp : key = ascii "timestamp"
  · rw [if_pos timestamp, timestamp, h.timestamp]
  by_cases type : key = ascii "type"
  · rw [if_neg timestamp, if_pos type, type, textMember_eq h.type]
  by_cases id : key = ascii "id"
  · rw [if_neg timestamp, if_neg type, if_neg other, if_pos id, id, textMember_eq h.id]
  · rw [if_neg timestamp, if_neg type, if_neg other, if_neg id]
    exact rest key (by simp [timestamp, type, id, other])

theorem Stored.undecoded {entry : Members ν} {row : Row} (h : Stored entry row)
    (missing : (decodeEntry row : Option (Members ν)) = none) (named : row.id ≠ []) : row.type = [] := by
  obtain ⟨payload, parsed, _⟩ := h.payload
  unfold decodeEntry at missing
  rw [parsed] at missing
  by_contra typed
  simp [named, typed] at missing

theorem Stored.reads {entry : Members ν} {row : Row} {α : Type} {read : Members ν → Option α} (h : Stored entry row)
    (named : row.id ≠ []) (untyped : ∀ e, textMember e "type" = some [] → read e = none)
    (same : ∀ d e, (∀ key ≠ ascii "parentId", lookup d key = lookup e key) → read d = read e) :
    (decodeEntry row).bind read = read entry := by
  cases found : (decodeEntry row : Option (Members ν)) with
  | none =>
    rw [Option.bind_none, untyped entry (by rw [h.type, h.undecoded found named])]
  | some decoded =>
    exact same decoded entry fun key other => h.decoded found other

omit [Numbers ν] in
theorem textMember_congr {d e : Members ν} (same : ∀ key ≠ ascii "parentId", lookup d key = lookup e key) (key : String)
    (other : ascii key ≠ ascii "parentId") : textMember d key = textMember e key := by
  unfold textMember
  rw [same (ascii key) other]

theorem itemOf_congr {d e : Members ν} (same : ∀ key ≠ ascii "parentId", lookup d key = lookup e key) :
    itemOf d = itemOf e := by
  unfold itemOf
  rw [textMember_congr same "type" (by decide), same (ascii "message") (by decide), same (ascii "id") (by decide),
    same (ascii "timestamp") (by decide)]

theorem transcriptMessage_congr (getTime : Option (Value ν) → Value ν) {d e : Members ν}
    (same : ∀ key ≠ ascii "parentId", lookup d key = lookup e key) :
    transcriptMessage getTime d = transcriptMessage getTime e := by
  unfold transcriptMessage
  rw [textMember_congr same "type" (by decide), same (ascii "message") (by decide),
    same (ascii "timestamp") (by decide), same (ascii "summary") (by decide), same (ascii "tokensBefore") (by decide)]

theorem itemOf_message (getTime : Option (Value ν) → Value ν) {e : Members ν}
    (silent : transcriptMessage getTime e = none) : itemOf e = none := by
  unfold itemOf
  by_cases typed : textMember e "type" = some (ascii "message")
  · rw [if_pos typed]
    cases found : lookup e (ascii "message") with
    | none => rfl
    | some message =>
      cases properties : SessionBranch.properties message with
      | some members => simp [transcriptMessage, typed, found, properties] at silent
      | none =>
        cases message with
        | obj | arr => cases properties
        | null | bool | num | str => rfl
  · rw [if_neg typed]

structure Indexed (file : SessionFile ν) : Prop where
  found : ∀ id e, file.byId.get id = some e → e ∈ file.entries ∧ entryId e = some id
  known : ∀ e ∈ file.entries, ∀ id, entryId e = some id → (file.byId.get id).isSome = true

theorem Indexed.readLine {file : SessionFile ν} (h : Indexed file) (line : CodeUnits) : Indexed (file.readLine line) := by
  unfold SessionFile.readLine
  split
  · rename_i e _
    split_ifs with header named
    · exact ⟨h.found, h.known⟩
    all_goals
      cases own : entryId e with
      | none =>
        refine ⟨fun id e' found => ?_, fun e' mem id same => ?_⟩
        · obtain ⟨mem, same⟩ := h.found id e' found
          exact ⟨List.mem_append_left _ mem, same⟩
        · obtain old | new := List.mem_append.mp mem
          · exact h.known e' old id same
          · obtain rfl := List.mem_singleton.mp new
            rw [own] at same
            cases same
      | some key =>
        refine ⟨fun id e' found => ?_, fun e' mem id same => ?_⟩
        · obtain ⟨rfl, rfl⟩ | ⟨_, old⟩ := OrderedMap.get_set_eq_some found
          · exact ⟨List.mem_append_right _ (List.mem_singleton_self _), own⟩
          · obtain ⟨mem, same⟩ := h.found id e' old
            exact ⟨List.mem_append_left _ mem, same⟩
        · by_cases here : id = key
          · rw [here]
            simp [OrderedMap.get_set_self]
          · obtain old | new := List.mem_append.mp mem
            · rw [OrderedMap.get_set_of_ne _ _ here]
              exact h.known e' old id same
            · obtain rfl := List.mem_singleton.mp new
              rw [own] at same
              exact absurd (Option.some.inj same).symm here
  · exact h

theorem indexed_parse (text : CodeUnits) : Indexed (parseSessionFile text : SessionFile ν) := by
  have empty : Indexed ({} : SessionFile ν) := ⟨nofun, nofun⟩
  unfold parseSessionFile
  generalize text.splitOn 0x0a = lines
  generalize ({} : SessionFile ν) = file at empty ⊢
  induction lines generalizing file with
  | nil => exact empty
  | cons line lines ih => exact ih _ (empty.readLine line)

def SessionFile.parentOf (file : SessionFile ν) (id : CodeUnits) : Option CodeUnits :=
  (file.byId.get id).bind fun e => (parentEntry file.byId e).bind entryId

/-- The ids on the way up from a leaf, until a parent is missing or repeated. -/
def SessionFile.walk (file : SessionFile ν) (leaf : CodeUnits) : List CodeUnits :=
  visited file.parentOf (file.entries.length + 1) [] leaf

/-- The ids that the query comes to: it stops at the first whose name its guard finds in the
path of those before. -/
def unhidden (before : List CodeUnits) : List CodeUnits → List CodeUnits
  | [] => []
  | id :: ids =>
    if Occurs separator id (RecursiveQuery.path separator before) then []
    else id :: unhidden (before ++ [id]) ids

theorem unhidden_startsWalk (before ids : List CodeUnits) : unhidden before ids <+: ids := by
  induction ids generalizing before with
  | nil => exact List.prefix_rfl
  | cons id ids ih =>
    unfold unhidden
    split_ifs
    · exact List.nil_prefix
    · exact (List.prefix_cons_inj id).mpr (ih _)

section
variable {file : SessionFile ν} {db : Database} {id : CodeUnits}

theorem SameSession.named (same : SameSession file db id) {e : Members ν} (mem : e ∈ file.entries) {row : Row}
    (stored : Stored e row) : entryId e = some row.id ∧ row.id ≠ [] := by
  have own := same.ids e mem
  rw [stored.entryId] at own ⊢
  by_cases empty : row.id = []
  · rw [if_pos empty] at own
    cases own
  · exact ⟨if_neg empty, empty⟩

theorem SameSession.unique (same : SameSession file db id) {e e' : Members ν} (mem : e ∈ file.entries)
    (mem' : e' ∈ file.entries) (ids : entryId e = entryId e') : e = e' :=
  List.inj_on_of_nodup_map same.distinct mem mem' ids

theorem SameSession.row (same : SameSession file db id) (indexed : Indexed file) {key : CodeUnits} {e : Members ν}
    (found : file.byId.get key = some e) :
    ∃ row ∈ db.ofSession id, Stored e row ∧ row.id = key ∧ key ≠ [] := by
  obtain ⟨mem, own⟩ := indexed.found key e found
  obtain ⟨row, inside, stored⟩ := same.present e mem
  obtain ⟨named, filled⟩ := same.named mem stored
  obtain rfl : row.id = key := Option.some.inj (named.symm.trans own)
  exact ⟨row, inside, stored, rfl, filled⟩

theorem SameSession.entry (same : SameSession file db id) (indexed : Indexed file) {row : Row}
    (inside : row ∈ db.ofSession id) : ∃ e, file.byId.get row.id = some e ∧ Stored e row := by
  obtain ⟨e, mem, stored⟩ := same.stored row inside
  obtain ⟨own, _⟩ := same.named mem stored
  obtain ⟨e', found⟩ := Option.isSome_iff_exists.mp (indexed.known e mem row.id own)
  obtain ⟨mem', own'⟩ := indexed.found row.id e' found
  obtain rfl := same.unique mem mem' (own.trans own'.symm)
  exact ⟨e, found, stored⟩

omit [Numbers ν] in
theorem parentEntry_some {e e' : Members ν} (up : parentEntry file.byId e = some e') :
    ∃ key, textMember e "parentId" = some key ∧ file.byId.get key = some e' := by
  unfold parentEntry at up
  cases parent : textMember e "parentId" with
  | none => simp [parent] at up
  | some key =>
    rw [parent] at up
    exact ⟨key, rfl, (Option.ite_none_left_eq_some.mp up).2⟩

theorem SameSession.root (same : SameSession file db id) (indexed : Indexed file) {e : Members ν} {active : Active}
    (stored : Stored e active.row) (up : parentEntry file.byId e = none) :
    activeParents (db.ofSession id) active = [] := by
  have none : ∀ row ∈ db.ofSession id, active.row.parentId ≠ some row.id := by
    intro row inside parent
    obtain ⟨e', found, stored'⟩ := same.entry indexed inside
    obtain ⟨_, _, _, _, filled⟩ := same.row indexed found
    unfold parentEntry at up
    rw [stored.parentId, parent] at up
    simp [filled, found] at up
  unfold activeParents
  rw [List.map_eq_nil_iff, List.filter_eq_nil_iff]
  intro row inside passes
  exact none row inside (of_decide_eq_true passes).1

theorem SameSession.parent (same : SameSession file db id) (indexed : Indexed file) {e e' : Members ν} {key : CodeUnits}
    {active : Active} (stored : Stored e active.row) (parent : textMember e "parentId" = some key)
    (found : file.byId.get key = some e') :
    ∃ row ∈ db.ofSession id, Stored e' row ∧ row.id = key ∧ activeParents (db.ofSession id) active =
        if Occurs separator key active.path then []
        else [⟨row, active.depth + 1, active.path ++ key ++ [separator]⟩] := by
  obtain ⟨row, inside, stored', rfl, _⟩ := same.row indexed found
  refine ⟨row, inside, stored', rfl, ?_⟩
  have parentId : active.row.parentId = some row.id := stored.parentId.symm.trans parent
  have alone := filter_key same.key inside
  unfold activeParents
  by_cases held : Occurs separator row.id active.path
  · rw [if_pos held, List.map_eq_nil_iff, List.filter_eq_nil_iff]
    intro other mem passes
    obtain ⟨isParent, free⟩ := of_decide_eq_true passes
    exact free (Option.some.inj (parentId.symm.trans isParent) ▸ held)
  · rw [if_neg held]
    have only : (db.ofSession id).filter (fun other => active.row.parentId = some other.id ∧
        ¬Occurs separator other.id active.path) = [row] := by
      rw [← alone]
      refine List.filter_congr fun other _ => decide_eq_decide.mpr ?_
      rw [parentId]
      exact ⟨fun passes => (Option.some.inj passes.1).symm, fun key => ⟨congrArg some key.symm, key ▸ held⟩⟩
    rw [only]
    rfl

/-- Both catalogs go the way up from `y`: the file's to its end, the query as far as its guard
lets it. The induction is on the entries that have not been seen. -/
theorem SameSession.walks (same : SameSession file db id) (indexed : Indexed file) {rest : Nat} {seen : List CodeUnits}
    {y : CodeUnits} {e : Members ν} (here : file.byId.get y = some e) (new : y ∉ seen) (nodup : seen.Nodup)
    (inside : ∀ z ∈ seen, z ∈ file.entries.filterMap entryId) (enough : file.entries.length ≤ rest + seen.length) :
    ∃ ys, ∀ fuel, rest ≤ fuel → visited file.parentOf fuel seen y = seen ++ y :: ys ∧
      branchFrom file.byId fuel (some e) seen = some ((y :: ys).filterMap file.byId.get) ∧
      ∀ active, active.row ∈ db.ofSession id → Stored e active.row →
        active.path = RecursiveQuery.path separator (seen ++ [y]) → active.depth = seen.length →
        ∃ actives, evaluate (activeParents (db.ofSession id)) fuel [active] = some actives ∧
          actives.map (·.row.id) = y :: unhidden (seen ++ [y]) ys ∧
          actives.map Active.depth = List.range' seen.length actives.length ∧
          ∀ other ∈ actives, other.row ∈ db.ofSession id := by
  obtain ⟨mem, own⟩ := indexed.found y e here
  have listed : y ∈ file.entries.filterMap entryId := List.mem_filterMap.mpr ⟨e, mem, own⟩
  have nodup' : (seen ++ [y]).Nodup := List.nodup_append.mpr ⟨nodup, List.nodup_singleton y, fun a old b last equal =>
    new (List.mem_singleton.mp last ▸ equal ▸ old)⟩
  have inside' : ∀ z ∈ seen ++ [y], z ∈ file.entries.filterMap entryId := by
    intro z mem
    obtain old | last := List.mem_append.mp mem
    · exact inside z old
    · exact List.mem_singleton.mp last ▸ listed
  have room : seen.length + 1 ≤ file.entries.length := by
    have short := (nodup'.subperm inside').length_le
    rw [List.length_append, List.length_singleton] at short
    exact Nat.le_trans short (List.length_filterMap_le ..)
  have fresh : (entryId e).getD [] ∉ seen := by rwa [own, Option.getD_some]
  have idOf : ∀ active : Active, Stored e active.row → active.row.id = y := by
    intro active stored
    exact Option.some.inj ((same.named mem stored).1.symm.trans own)
  cases rest with
  | zero => omega
  | succ rest =>
    cases up : parentEntry file.byId e with
    | none =>
      refine ⟨[], fun fuel le => ?_⟩
      obtain ⟨fuel, rfl⟩ := Nat.exists_eq_succ_of_ne_zero (n := fuel) (by omega)
      have last : file.parentOf y = none := by simp [SessionFile.parentOf, here, up]
      refine ⟨by rw [visited_last new last], ?_, fun active within stored _ depth => ⟨[active], ?_, ?_, ?_, ?_⟩⟩
      · rw [branchFrom, if_neg fresh, up]
        simp [branchFrom, here]
      · exact evaluate_last (same.root indexed stored up) fuel
      · simp [unhidden, idOf active stored]
      · simp [depth]
      · exact fun other mem => List.mem_singleton.mp mem ▸ within
    | some e' =>
      obtain ⟨key, parent, found⟩ := parentEntry_some up
      obtain ⟨mem', own'⟩ := indexed.found key e' found
      have climbs : file.parentOf y = some key := by simp [SessionFile.parentOf, here, up, own']
      by_cases known : key ∈ seen ++ [y]
      · -- the parent has been visited: both stop
        refine ⟨[], fun fuel le => ?_⟩
        obtain ⟨fuel, rfl⟩ := Nat.exists_eq_succ_of_ne_zero (n := fuel) (by omega)
        refine ⟨by rw [visited_step new climbs, visited_known known], ?_,
          fun active within stored path depth => ⟨[active], ?_, ?_, ?_, ?_⟩⟩
        · have stops : branchFrom file.byId fuel (some e') (seen ++ [y]) = some [] := by
            unfold branchFrom
            exact if_pos (by rwa [own', Option.getD_some])
          rw [branchFrom, if_neg fresh, up, own, Option.getD_some]
          simp [stops, here]
        · obtain ⟨row, _, _, _, parents⟩ := same.parent indexed stored parent found
          rw [if_pos (path ▸ occurs_of_mem known)] at parents
          exact evaluate_last parents fuel
        · simp [unhidden, idOf active stored]
        · simp [depth]
        · exact fun other mem => List.mem_singleton.mp mem ▸ within
      · have enough' : file.entries.length ≤ rest + (seen ++ [y]).length := by
          rw [List.length_append, List.length_singleton]
          omega
        obtain ⟨ys, later⟩ := same.walks indexed found known nodup' inside' enough'
        refine ⟨key :: ys, fun fuel le => ?_⟩
        obtain ⟨fuel, rfl⟩ := Nat.exists_eq_succ_of_ne_zero (n := fuel) (by omega)
        obtain ⟨visits, branch, query⟩ := later fuel (by omega)
        refine ⟨by rw [visited_step new climbs, visits, List.append_assoc]; rfl, ?_,
          fun active within stored path depth => ?_⟩
        · rw [branchFrom, if_neg fresh, up, own, Option.getD_some]
          simp [branch, here]
        · obtain ⟨row, within', stored', rfl, parents⟩ := same.parent indexed stored parent found
          by_cases held : Occurs separator row.id active.path
          · refine ⟨[active], ?_, ?_, by simp [depth], fun other mem => List.mem_singleton.mp mem ▸ within⟩
            · rw [if_pos held] at parents
              exact evaluate_last parents fuel
            · simp [unhidden, idOf active stored, ← path, held]
          · rw [if_neg held] at parents
            obtain ⟨actives, ends, ids, depths, rows⟩ := query
              ⟨row, active.depth + 1, active.path ++ row.id ++ [separator]⟩ within' stored'
              (by rw [path, path_append separator (seen ++ [y])]) (by simp [depth])
            refine ⟨active :: actives, ?_, ?_, ?_, ?_⟩
            · rw [evaluate_follow parents, ends, Option.map_some]
            · rw [List.map_cons, ids, idOf active stored, unhidden, ← path, if_neg held]
            · rw [List.map_cons, depths, depth]
              simp [List.range'_succ]
            · exact List.forall_mem_cons.mpr ⟨within, rows⟩
  termination_by rest

end
end SessionBranch
