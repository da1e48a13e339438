import Oyster.SessionBranchAgreement

/-! The two session catalogs return the same entries and the same messages, unless the guard of
the query hides an ancestor that has a message. -/
namespace SessionBranch
open Json ScopedIdentity RecursiveQuery ParentRelation

variable {ν : Type} [Numbers ν] {file : SessionFile ν} {db : Database} {id : CodeUnits}

/-- The ids of the walk that the query does not come to. -/
def SessionFile.hidden (file : SessionFile ν) (leaf : CodeUnits) : List CodeUnits :=
  (file.walk leaf).drop (unhidden [] (file.walk leaf)).length

/-- Every ancestor of the active leaf that the query does not come to has nothing to show. -/
def NothingHidden (getTime : Option (Value ν) → Value ν) (file : SessionFile ν) : Prop :=
  ∀ leaf, file.leafId = some leaf → ∀ y ∈ file.hidden leaf, (file.byId.get y).bind (transcriptMessage getTime) = none

omit [Numbers ν] in
theorem hidden_append (file : SessionFile ν) (leaf : CodeUnits) :
    unhidden [] (file.walk leaf) ++ file.hidden leaf = file.walk leaf := by
  have start := List.prefix_iff_eq_take.mp (unhidden_startsWalk [] (file.walk leaf))
  unfold SessionFile.hidden
  conv_lhs => rw [start]
  rw [List.length_take, Nat.min_eq_left (unhidden_startsWalk [] (file.walk leaf)).length_le, List.take_append_drop]

theorem deepest_first {actives : List Active} (depths : actives.map Active.depth = List.range' 0 actives.length) :
    actives.mergeSort (fun a b => b.depth ≤ a.depth) = actives.reverse := by
  have nodup : (actives.map Active.depth).Nodup := depths ▸ List.nodup_range'
  have rising : actives.Pairwise fun a b => a.depth < b.depth := by
    have counted : (actives.map Active.depth).Pairwise (· < ·) := depths ▸ List.pairwise_lt_range' ..
    exact List.pairwise_map.mp counted
  have falling : actives.reverse.Pairwise fun a b => decide (b.depth ≤ a.depth) = true :=
    List.pairwise_reverse.mpr (rising.imp fun less => decide_eq_true (Nat.le_of_lt less))
  have sorted : (actives.mergeSort fun a b => b.depth ≤ a.depth).Pairwise fun a b => decide (b.depth ≤ a.depth) = true := by
    refine List.pairwise_mergeSort ?_ ?_ actives
    · intro a b c ab bc
      simp only [decide_eq_true_eq] at *
      omega
    · intro a b
      simp only [Bool.or_eq_true, decide_eq_true_eq]
      omega
  refine List.Perm.eq_of_pairwise ?_ sorted falling ((List.mergeSort_perm ..).trans (List.reverse_perm actives).symm)
  intro a b left right ab ba
  have same : a.depth = b.depth := Nat.le_antisymm (of_decide_eq_true ba) (of_decide_eq_true ab)
  exact List.inj_on_of_nodup_map nodup (List.mem_mergeSort.mp left) (List.mem_reverse.mp right) same

omit [Numbers ν] in
theorem read_chain {α : Type} (read : Members ν → Option α) (ids : List CodeUnits) :
    ((ids.filterMap file.byId.get).reverse).filterMap read =
      ids.reverse.filterMap fun y => (file.byId.get y).bind read := by
  rw [← List.filterMap_reverse, List.filterMap_filterMap]

variable {leaf : CodeUnits}

omit [Numbers ν] in
theorem leafId_known (file : SessionFile ν) (tip : file.leafId = some leaf) :
    ∃ e ∈ file.entries, entryId e = some leaf := by
  have general : ∀ (es : List (Members ν)) (start : Option CodeUnits),
      es.foldl (fun leafId e => entryId e <|> leafId) start = some leaf →
      start = some leaf ∨ ∃ e ∈ es, entryId e = some leaf := by
    intro es
    induction es with
    | nil => exact fun start same => .inl same
    | cons e es ih =>
      intro start same
      obtain tip | ⟨later, mem, own⟩ := ih _ same
      · have tip : (entryId e <|> start) = some leaf := tip
        cases own : entryId e with
        | none =>
          rw [own] at tip
          exact .inl tip
        | some key =>
          rw [own] at tip
          exact .inr ⟨e, List.mem_cons_self .., own.trans tip⟩
      · exact .inr ⟨later, List.mem_cons_of_mem _ mem, own⟩
  obtain start | found := general file.entries none tip
  · cases start
  · exact found

theorem SameSession.branches (same : SameSession file db id) (indexed : Indexed file) (tip : file.leafId = some leaf)
    {fuel : Nat} (enough : file.entries.length < fuel) :
    file.readActiveBranch fuel = some ((file.walk leaf).filterMap file.byId.get).reverse ∧
    ∃ actives : List Active, (db.readActiveBranch fuel id : Option (Except CodeUnits (SessionRow × List (Members ν)))) =
        some (.ok (⟨id, file.leafId⟩, actives.reverse.filterMap fun a => decodeEntry a.row)) ∧
      actives.map (·.row.id) = unhidden [] (file.walk leaf) ∧ ∀ a ∈ actives, a.row ∈ db.ofSession id := by
  obtain ⟨e, mem, own⟩ := leafId_known file tip
  obtain ⟨e', here⟩ := Option.isSome_iff_exists.mp (indexed.known e mem leaf own)
  obtain ⟨row, inside, stored, rfl, filled⟩ := same.row indexed here
  have room : file.entries.length ≤ file.entries.length + ([] : List CodeUnits).length := Nat.le_refl _
  obtain ⟨ys, walks⟩ := same.walks indexed here List.not_mem_nil List.nodup_nil nofun room
  have walk : file.walk row.id = row.id :: ys := (walks _ (Nat.le_succ _)).1
  obtain ⟨_, branch, query⟩ := walks fuel (Nat.le_of_lt enough)
  obtain ⟨actives, ends, ids, depths, rows⟩ := query ⟨row, 0, separator :: row.id ++ [separator]⟩ inside stored
    (path_singleton ..).symm rfl
  have free : ¬Occurs separator row.id (RecursiveQuery.path separator []) := by
    rintro ⟨before, after, found⟩
    have size := congrArg List.length found
    simp [RecursiveQuery.path] at size
    omega
  refine ⟨?_, actives, ?_, ?_, rows⟩
  · unfold SessionFile.readActiveBranch
    rw [tip, Option.bind_some, here, branch, walk, Option.map_some]
  · have leaves : activeLeaves (db.ofSession id) row.id = [⟨row, 0, separator :: row.id ++ [separator]⟩] := by
      unfold activeLeaves
      rw [filter_key same.key inside]
      rfl
    unfold Database.readActiveBranch
    rw [same.session, tip]
    dsimp only
    rw [if_neg filled, leaves, ends, Option.map_some, deepest_first depths]
  · rw [ids, walk, unhidden, if_neg free]

theorem SameSession.read_rows (same : SameSession file db id) (indexed : Indexed file) {α : Type}
    {read : Members ν → Option α} (untyped : ∀ e, textMember e "type" = some [] → read e = none)
    (congr : ∀ d e, (∀ key ≠ ascii "parentId", lookup d key = lookup e key) → read d = read e)
    {actives : List Active} (rows : ∀ a ∈ actives, a.row ∈ db.ofSession id) :
    (actives.reverse.filterMap fun a => decodeEntry a.row).filterMap read =
      (actives.map (·.row.id)).reverse.filterMap fun y => (file.byId.get y).bind read := by
  rw [List.filterMap_filterMap, ← List.map_reverse, List.filterMap_map]
  refine List.filterMap_congr fun a mem => ?_
  obtain ⟨e, found, stored⟩ := same.entry indexed (rows a (List.mem_reverse.mp mem))
  obtain ⟨_, _, _, _, filled⟩ := same.row indexed found
  rw [Function.comp_apply, found, Option.bind_some]
  exact stored.reads filled untyped congr

theorem itemOf_untyped (e : Members ν) (empty : textMember e "type" = some []) : itemOf e = none := by
  unfold itemOf
  rw [empty]
  exact if_neg (by decide)

theorem transcriptMessage_untyped (getTime : Option (Value ν) → Value ν) (e : Members ν)
    (empty : textMember e "type" = some []) : transcriptMessage getTime e = none := by
  unfold transcriptMessage
  rw [empty, if_neg fun typed => absurd typed.1 (by decide), if_neg (by decide)]

omit [Numbers ν] in
theorem read_hidden {α : Type} (file : SessionFile ν) (leaf : CodeUnits) (read : CodeUnits → Option α) :
    (file.walk leaf).reverse.filterMap read = (unhidden [] (file.walk leaf)).reverse.filterMap read ↔
      ∀ y ∈ file.hidden leaf, read y = none := by
  conv_lhs => lhs; rw [← hidden_append file leaf]
  rw [List.reverse_append, List.filterMap_append, List.append_left_eq_self, List.filterMap_eq_nil_iff]
  simp only [List.mem_reverse]

/-- Both catalogs come to an end on the same session, and return the same entries and the same
messages exactly when nothing is hidden from the query. -/
theorem catalogs_agree_iff (getTime : Option (Value ν) → Value ν) {text : CodeUnits}
    (same : SameSession (parseSessionFile text : SessionFile ν) db id) :
    ∃ listing transcript, ∃ listing' transcript', ∃ enough, ∀ fuel, enough ≤ fuel →
      sessionEntries (parseSessionFile text : SessionFile ν) fuel = some listing ∧
      sessionMessages getTime (parseSessionFile text : SessionFile ν) fuel = some transcript ∧
      entries db fuel id = some (.ok listing') ∧
      messages getTime db fuel id = some (.ok transcript') ∧
      (listing = listing' ∧ transcript = transcript' ↔
        NothingHidden getTime (parseSessionFile text : SessionFile ν)) := by
  have indexed : Indexed (parseSessionFile text : SessionFile ν) := indexed_parse text
  generalize (parseSessionFile text : SessionFile ν) = file at same indexed ⊢
  cases tip : file.leafId with
  | none =>
    have chain : ∀ fuel, file.readActiveBranch fuel = some [] := by
      intro fuel
      unfold SessionFile.readActiveBranch
      rw [tip, Option.bind_none]
      cases fuel <;> rfl
    have branch : ∀ fuel, (db.readActiveBranch fuel id : Option (Except CodeUnits (SessionRow × List (Members ν)))) =
        some (.ok (⟨id, none⟩, [])) := by
      intro fuel
      unfold Database.readActiveBranch
      rw [same.session, tip]
    refine ⟨⟨.str id, none, some []⟩, ⟨.str id, []⟩, ⟨.str id, none, some []⟩, ⟨.str id, []⟩, 0, fun fuel _ => ?_⟩
    unfold sessionEntries sessionMessages SessionBranch.entries SessionBranch.messages
    rw [chain, branch, same.header, tip]
    refine ⟨rfl, rfl, rfl, rfl, fun _ leaf absurd => ?_, fun _ => ⟨rfl, rfl⟩⟩
    cases tip.symm.trans absurd
  | some leaf =>
    let item : CodeUnits → Option (Option (Item ν)) := fun y => (file.byId.get y).bind itemOf
    let message : CodeUnits → Option (Value ν) := fun y => (file.byId.get y).bind (transcriptMessage getTime)
    let whole : List CodeUnits := (file.walk leaf).reverse
    let shown : List CodeUnits := (unhidden [] (file.walk leaf)).reverse
    refine ⟨⟨.str id, some leaf, gather (whole.filterMap item)⟩, ⟨.str id, whole.filterMap message⟩,
      ⟨.str id, some leaf, gather (shown.filterMap item)⟩, ⟨.str id, shown.filterMap message⟩,
      file.entries.length + 1, fun fuel enough => ?_⟩
    obtain ⟨chain, actives, branch, ids, rows⟩ := same.branches indexed tip enough
    have listed := same.read_rows indexed itemOf_untyped (fun _ _ => itemOf_congr) rows
    have heard := same.read_rows indexed (transcriptMessage_untyped getTime)
      (fun _ _ => transcriptMessage_congr getTime) rows
    rw [ids] at listed heard
    unfold sessionEntries sessionMessages SessionBranch.entries SessionBranch.messages items
    rw [chain, branch, same.header, tip]
    refine ⟨?_, ?_, ?_, ?_, ?_, ?_⟩
    · rw [Option.map_some, read_chain]
    · rw [Option.map_some, read_chain]
    · rw [Option.map_some]
      dsimp only [Except.map]
      rw [listed]
    · rw [Option.map_some]
      dsimp only [Except.map]
      rw [heard]
    · rintro ⟨_, same⟩ leaf' tip'
      cases tip.symm.trans tip'
      exact (read_hidden file leaf message).mp (Transcript.mk.inj same).2
    · intro nothing
      have silent := nothing leaf tip
      have unlisted : ∀ y ∈ file.hidden leaf, item y = none := by
        intro y mem
        cases found : file.byId.get y with
        | none => simp [item, found]
        | some e =>
          have quiet := silent y mem
          rw [found, Option.bind_some] at quiet
          simp [item, found, itemOf_message getTime quiet]
      have items := (read_hidden file leaf item).mpr unlisted
      have messages := (read_hidden file leaf message).mpr silent
      exact ⟨congrArg (fun found => Listing.mk (.str id) (some leaf) (gather found)) items,
        congrArg (Transcript.mk (.str id)) messages⟩

theorem unhidden_plain {before ids : List CodeUnits} (plain : ∀ id ∈ before ++ ids, separator ∉ id)
    (nodup : (before ++ ids).Nodup) : unhidden before ids = ids := by
  induction ids generalizing before with
  | nil => rfl
  | cons y ids ih =>
    have free : ¬Occurs separator y (RecursiveQuery.path separator before) := by
      intro found
      have known := mem_of_occurs (fun other mem => plain other (List.mem_append_left _ mem))
        (plain y (List.mem_append_right _ (List.mem_cons_self ..))) found
      exact (List.nodup_append.mp nodup).2.2 y known y (List.mem_cons_self ..) rfl
    have onwards := List.append_cons before y ids
    rw [unhidden, if_neg free, ih (onwards ▸ plain) (onwards ▸ nodup)]

omit [Numbers ν] in
theorem walk_entries (indexed : Indexed file) (known : (file.byId.get leaf).isSome = true) :
    (file.walk leaf).Nodup ∧ ∀ y ∈ file.walk leaf, ∃ e ∈ file.entries, entryId e = some y := by
  have start : Way file.parentOf leaf [] leaf := Way.start leaf
  have way : Way file.parentOf leaf (ascend file.parentOf (file.entries.length + 1) [] leaf).1
      (ascend file.parentOf (file.entries.length + 1) [] leaf).2 := ascend_way start
  have there : ∀ n y, climb file.parentOf n leaf = some y → ∃ e ∈ file.entries, entryId e = some y := by
    intro n y climbed
    cases n with
    | zero =>
      cases climbed
      obtain ⟨e, found⟩ := Option.isSome_iff_exists.mp known
      exact ⟨e, indexed.found _ e found⟩
    | succ n =>
      obtain ⟨below, _, up⟩ := Option.bind_eq_some_iff.mp climbed
      obtain ⟨e, _, up⟩ := Option.bind_eq_some_iff.mp up
      obtain ⟨e', parent, own⟩ := Option.bind_eq_some_iff.mp up
      obtain ⟨key, _, found⟩ := parentEntry_some parent
      exact ⟨e', (indexed.found key e' found).1, own⟩
  have seen : ∀ y ∈ (ascend file.parentOf (file.entries.length + 1) [] leaf).1, ∃ e ∈ file.entries, entryId e = some y := by
    intro y mem
    obtain ⟨i, less, found⟩ := List.getElem_of_mem mem
    exact there i y (way.steps i y (List.getElem?_eq_some_iff.mpr ⟨less, found⟩))
  unfold SessionFile.walk visited
  dsimp only
  split_ifs with again
  · exact ⟨way.nodup, seen⟩
  · refine ⟨List.nodup_append.mpr ⟨way.nodup, List.nodup_singleton _, fun a old b last same =>
      again (List.mem_singleton.mp last ▸ same ▸ old)⟩, fun y mem => ?_⟩
    obtain old | last := List.mem_append.mp mem
    · exact seen y old
    · exact there _ y (List.mem_singleton.mp last ▸ way.ends)

theorem nothingHidden_plain (getTime : Option (Value ν) → Value ν) (indexed : Indexed file)
    (plain : ∀ e ∈ file.entries, ∀ y, entryId e = some y → separator ∉ y) : NothingHidden getTime file := by
  intro leaf tip y mem
  obtain ⟨e, inside, own⟩ := leafId_known file tip
  obtain ⟨nodup, entries⟩ := walk_entries indexed (indexed.known e inside leaf own)
  have all : unhidden [] (file.walk leaf) = file.walk leaf := by
    refine unhidden_plain (fun y mem => ?_) nodup
    obtain ⟨e, inside, own⟩ := entries y mem
    exact plain e inside y own
  unfold SessionFile.hidden at mem
  rw [all, List.drop_length] at mem
  cases mem

def objectOf (line : CodeUnits) : Option (Members ν) :=
  match parse line with
  | some (.obj e) => some e
  | _ => none

variable {line : CodeUnits}

theorem objectOf_some {e : Members ν} (found : objectOf line = some e) : parse line = some (.obj e) := by
  unfold objectOf at found
  split at found
  · rename_i parsed
    rw [← Option.some.inj found]
    exact parsed
  · cases found

def isEntry (ν : Type) [Numbers ν] (line : CodeUnits) : Bool :=
  (objectOf line : Option (Members ν)).any fun e =>
    (textMember e "type").any (· ≠ ascii "session") && (entryId e).isSome && (textMember e "timestamp").isSome

def rowOf (sessionId line : CodeUnits) (e : Members ν) : Row where
  sessionId
  id := (entryId e).getD []
  parentId := textMember e "parentId"
  type := (textMember e "type").getD []
  timestamp := (textMember e "timestamp").getD []
  payload := line

def databaseOf (ν : Type) [Numbers ν] (sessionId : CodeUnits) (lines : List CodeUnits) : Database where
  sessions := [⟨sessionId, (lines.filterMap objectOf : List (Members ν)).foldl (fun leafId e => entryId e <|> leafId) none⟩]
  entries := lines.filterMap fun line => (objectOf line : Option (Members ν)).map (rowOf sessionId line)

theorem isEntry_spec (h : isEntry ν line = true) :
    ∃ e : Members ν, objectOf line = some e ∧ textMember e "type" ≠ some (ascii "session") ∧
      (entryId e).isSome = true ∧ ∀ sessionId, Stored e (rowOf sessionId line e) := by
  obtain ⟨e, found, passed⟩ := (Option.any_eq_true _ _).mp h
  obtain ⟨⟨typed, named⟩, dated⟩ : ((textMember e "type").any (· ≠ ascii "session") = true ∧ (entryId e).isSome = true) ∧
      (textMember e "timestamp").isSome = true := by simpa only [Bool.and_eq_true] using passed
  obtain ⟨type, type_found, other⟩ := (Option.any_eq_true _ _).mp typed
  obtain ⟨key, key_found⟩ := Option.isSome_iff_exists.mp named
  obtain ⟨timestamp, timestamp_found⟩ := Option.isSome_iff_exists.mp dated
  have text : textMember e "id" = some key := (Option.filter_eq_some_iff.mp key_found).1
  refine ⟨e, found, ?_, named, fun sessionId => ⟨?_, rfl, ?_, ?_, e, ?_, fun _ _ => rfl⟩⟩
  · rw [type_found]
    intro same
    exact of_decide_eq_true other (Option.some.inj same)
  · simp [rowOf, text, key_found]
  · simp [rowOf, type_found]
  · simp [rowOf, textMember_eq timestamp_found, timestamp_found]
  · exact objectOf_some found

theorem readLine_entry (h : isEntry ν line = true) (file : SessionFile ν) :
    (file.readLine line).entries = file.entries ++ (objectOf line).toList ∧ (file.readLine line).header = file.header := by
  obtain ⟨e, found, typed, _⟩ := isEntry_spec h
  unfold SessionFile.readLine
  rw [objectOf_some found, found]
  dsimp only
  rw [if_neg typed]
  exact ⟨rfl, rfl⟩

variable {lines : List CodeUnits}

theorem readLines_entries (all : lines.all (isEntry ν) = true) (file : SessionFile ν) :
    (lines.foldl SessionFile.readLine file).entries = file.entries ++ lines.filterMap objectOf ∧
      (lines.foldl SessionFile.readLine file).header = file.header := by
  induction lines generalizing file with
  | nil => exact ⟨(List.append_nil _).symm, rfl⟩
  | cons line lines ih =>
    obtain ⟨first, rest⟩ := (Bool.and_eq_true _ _).mp all
    obtain ⟨entries, header⟩ := readLine_entry first file
    obtain ⟨more, same⟩ := ih rest (file.readLine line)
    obtain ⟨e, found, _⟩ := isEntry_spec first
    refine ⟨?_, same.trans header⟩
    rw [List.foldl_cons, more, entries, found, List.filterMap_cons_some found, List.append_assoc]
    rfl

theorem sameSession_databaseOf {text header sessionId : CodeUnits} (split : text.splitOn 0x0a = header :: lines)
    (head : (objectOf header : Option (Members ν)).any fun e =>
      textMember e "type" = some (ascii "session") && textMember e "id" = some sessionId)
    (all : lines.all (isEntry ν) = true)
    (distinct : (lines.map fun line => (objectOf line : Option (Members ν)).bind entryId).Nodup) :
    SameSession (parseSessionFile text : SessionFile ν) (databaseOf ν sessionId lines) sessionId := by
  obtain ⟨h, found, passed⟩ := (Option.any_eq_true _ _).mp head
  obtain ⟨typed, named⟩ : textMember h "type" = some (ascii "session") ∧ textMember h "id" = some sessionId := by
    simpa only [Bool.and_eq_true, decide_eq_true_eq] using passed
  have first : (({} : SessionFile ν).readLine header).entries = [] ∧
    (({} : SessionFile ν).readLine header).header = some h := by
    unfold SessionFile.readLine
    rw [objectOf_some found]
    dsimp only
    rw [if_pos typed]
    exact ⟨rfl, rfl⟩
  obtain ⟨entries, header⟩ : (parseSessionFile text : SessionFile ν).entries = lines.filterMap objectOf ∧
      (parseSessionFile text : SessionFile ν).header = some h := by
    unfold parseSessionFile
    rw [split, List.foldl_cons]
    obtain ⟨entries, header⟩ := readLines_entries all (({} : SessionFile ν).readLine header)
    rw [first.1, List.nil_append] at entries
    exact ⟨entries, header.trans first.2⟩
  have ofSession : (databaseOf ν sessionId lines).ofSession sessionId =
      lines.filterMap fun line => (objectOf line : Option (Members ν)).map (rowOf sessionId line) := by
    refine List.filter_eq_self.mpr fun row mem => decide_eq_true ?_
    obtain ⟨line, _, made⟩ := List.mem_filterMap.mp mem
    obtain ⟨e, _, rfl⟩ := Option.map_eq_some_iff.mp made
    rfl
  have named_row : ∀ line ∈ lines, ∀ e : Members ν, objectOf line = some e →
      (entryId e).isSome = true ∧ Stored e (rowOf sessionId line e) := by
    intro line mem e found
    obtain ⟨e', found', _, own, stored⟩ := isEntry_spec (List.all_eq_true.mp all line mem)
    cases found.symm.trans found'
    exact ⟨own, stored sessionId⟩
  have apart := List.pairwise_map.mp distinct
  constructor
  · intro e mem
    rw [entries] at mem
    obtain ⟨line, inside, found⟩ := List.mem_filterMap.mp mem
    exact (named_row line inside e found).1
  · rw [entries]
    refine List.pairwise_map.mpr (List.pairwise_filterMap.mpr (apart.imp ?_))
    intro line line' other e found e' found' same
    exact other (by rw [found, found', Option.bind_some, Option.bind_some, same])
  · rw [ofSession]
    refine List.pairwise_map.mpr (List.pairwise_filterMap.mpr (apart.imp_of_mem ?_))
    intro line line' inside inside' other row made row' made' same
    obtain ⟨e, found, rfl⟩ := Option.map_eq_some_iff.mp made
    obtain ⟨e', found', rfl⟩ := Option.map_eq_some_iff.mp made'
    obtain ⟨key, own⟩ := Option.isSome_iff_exists.mp (named_row line inside e found).1
    obtain ⟨key', own'⟩ := Option.isSome_iff_exists.mp (named_row line' inside' e' found').1
    refine other ?_
    rw [found, found', Option.bind_some, Option.bind_some, own, own']
    simpa [rowOf, own, own'] using same
  · intro row mem
    rw [ofSession] at mem
    obtain ⟨line, inside, made⟩ := List.mem_filterMap.mp mem
    obtain ⟨e, found, rfl⟩ := Option.map_eq_some_iff.mp made
    exact ⟨e, entries ▸ List.mem_filterMap.mpr ⟨line, inside, found⟩, (named_row line inside e found).2⟩
  · intro e mem
    rw [entries] at mem
    obtain ⟨line, inside, found⟩ := List.mem_filterMap.mp mem
    refine ⟨rowOf sessionId line e, ?_, (named_row line inside e found).2⟩
    rw [ofSession]
    exact List.mem_filterMap.mpr ⟨line, inside, by rw [found, Option.map_some]⟩
  · unfold databaseOf SessionFile.leafId
    rw [entries]
    simp
  · unfold SessionFile.sessionId
    rw [header, Option.bind_some, textMember_eq named]
    rfl

def headerLine : CodeUnits := ascii "\x7b\"type\":\"session\",\"id\":\"s\"\x7d"

/-- A message of the user, `r`, and the answer to it, whose id ends with the separator and `r`. -/
def conversation : List CodeUnits :=
  [ascii "\x7b\"type\":\"message\",\"id\":\"r\",\"timestamp\":\"t\",\"message\":\x7b\"role\":\"user\"\x7d\x7d",
    ascii "\x7b\"type\":\"message\",\"id\":\"x\\u001fr\",\"parentId\":\"r\",\"timestamp\":\"t\",\"message\":\x7b\x7d\x7d"]

def cyclicConversation : List CodeUnits :=
  [ascii "\x7b\"type\":\"message\",\"id\":\"r\",\"parentId\":\"x\",\"timestamp\":\"t\",\"message\":\x7b\x7d\x7d",
    ascii "\x7b\"type\":\"message\",\"id\":\"x\",\"parentId\":\"r\",\"timestamp\":\"t\",\"message\":\x7b\x7d\x7d"]

def fileOf (lines : List CodeUnits) : CodeUnits := [0x0a].intercalate (headerLine :: lines)

def wellFormed (lines : List CodeUnits) : Bool :=
  ((objectOf headerLine : Option (Members Literal)).any fun e =>
    textMember e "type" = some (ascii "session") && textMember e "id" = some (ascii "s")) &&
  decide ((fileOf lines).splitOn 0x0a = headerLine :: lines) && lines.all (isEntry Literal) &&
  decide (lines.map fun line => (objectOf line : Option (Members Literal)).bind entryId).Nodup

theorem sameSession_fileOf (h : wellFormed lines = true) :
    SameSession (parseSessionFile (fileOf lines) : SessionFile Literal) (databaseOf Literal (ascii "s") lines)
      (ascii "s") := by
  obtain ⟨⟨⟨head, split⟩, all⟩, distinct⟩ := by simpa only [wellFormed, Bool.and_eq_true] using h
  refine sameSession_databaseOf (of_decide_eq_true split) ?_ all (of_decide_eq_true distinct)
  simpa only [Bool.and_eq_true] using head

/-- The query takes the question for visited, because the id of the answer contains its name
between separators: the transcript of the file has two messages, that of the database one. -/
theorem catalogs_disagree :
    SameSession (parseSessionFile (fileOf conversation) : SessionFile Literal) (databaseOf Literal (ascii "s") conversation)
      (ascii "s") ∧
    (sessionMessages (fun _ => .null) (parseSessionFile (fileOf conversation) : SessionFile Literal) 3).map
      (fun found => found.messages.length) = some 2 ∧
    (messages (fun _ => .null) (databaseOf Literal (ascii "s") conversation) 3 (ascii "s") :
        Option (Except CodeUnits (Transcript Literal))).map
      (fun result => result.toOption.map fun found => found.messages.length) = some (some 1) :=
  ⟨sameSession_fileOf (by decide +kernel), by decide +kernel, by decide +kernel⟩

/-- A cycle is cut at the same place in both. -/
theorem catalogs_agree_cycle : ∃ listing transcript, ∃ enough, ∀ fuel, enough ≤ fuel →
      sessionEntries (parseSessionFile (fileOf cyclicConversation) : SessionFile Literal) fuel = some listing ∧
      sessionMessages (fun _ => .null) (parseSessionFile (fileOf cyclicConversation) : SessionFile Literal) fuel =
        some transcript ∧
      entries (databaseOf Literal (ascii "s") cyclicConversation) fuel (ascii "s") = some (.ok listing) ∧
      messages (fun _ => .null) (databaseOf Literal (ascii "s") cyclicConversation) fuel (ascii "s") = some (.ok transcript) := by
  have same : SameSession (parseSessionFile (fileOf cyclicConversation) : SessionFile Literal)
      (databaseOf Literal (ascii "s") cyclicConversation) (ascii "s") :=
    sameSession_fileOf (by decide +kernel)
  have plain : ((parseSessionFile (fileOf cyclicConversation) : SessionFile Literal).entries.all fun e =>
      (entryId e).all fun y => separator ∉ y) = true := by decide +kernel
  have nothing : NothingHidden (fun _ => .null) (parseSessionFile (fileOf cyclicConversation) : SessionFile Literal) := by
    refine nothingHidden_plain _ (indexed_parse _) fun e mem y own => ?_
    have free := List.all_eq_true.mp plain e mem
    rw [own] at free
    exact of_decide_eq_true free
  obtain ⟨listing, transcript, listing', transcript', enough, ends⟩ := catalogs_agree_iff (fun _ => .null) same
  obtain ⟨_, _, _, _, agree⟩ := ends enough (Nat.le_refl _)
  obtain ⟨rfl, rfl⟩ := agree.mpr nothing
  refine ⟨listing, transcript, enough, fun fuel le => ?_⟩
  obtain ⟨listed, heard, listed', heard', _⟩ := ends fuel le
  exact ⟨listed, heard, listed', heard'⟩

end SessionBranch
