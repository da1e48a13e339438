import Oyster.KeyedWalk
import Oyster.KeyedFamilies

/-! The families of the session picker: entries under the root to which their parent links lead. An entry is in one family
once, and the families are those that the links join, exactly when the links are orderly. -/
namespace PickerFamilies
open KeyedWalk KeyedFamilies

/-- A persisted session, as far as it is read here, and what else it holds. -/
structure Session (δ : Type) where
  sessionKey : Option String
  path : Option String
  parentSessionKey : Option String
  parentSession : Option String
  rest : δ
deriving DecidableEq

structure Runner (δ : Type) where
  sessionKey : Option String
  sessionFile : Option String
  rest : δ
deriving DecidableEq

structure Entry (δ : Type) where
  session : Option (Session δ)
  runner : Option (Runner δ)
deriving DecidableEq

section Identities
variable {δ : Type}

def sessionIdentity (session : Session δ) : Option String := session.sessionKey.or session.path

def runnerSessionIdentity (runner : Option (Runner δ)) : Option String :=
  runner.bind fun runner => runner.sessionKey.or runner.sessionFile

def parentSessionIdentity (session : Session δ) : Option String := session.parentSessionKey.or session.parentSession

def identityOf (entry : Entry δ) : Option String :=
  match entry.session with
  | some session => sessionIdentity session
  | none => runnerSessionIdentity entry.runner

def sessionParent (session : Session δ) : Option String := (parentSessionIdentity session).filter (· ≠ "")

def entryParent (entry : Entry δ) : Option String := entry.session.bind sessionParent

end Identities

section Grouping
variable {ε : Type} (identity parent : ε → Option String)

def byIdentity (entries : List ε) : OrderedMap (Option String) ε :=
  entries.foldl (fun all entry => all.set (identity entry) entry) .empty

def linked (entries : List ε) (entry : ε) : Option ε :=
  (parent entry).bind fun name => (byIdentity identity entries).get (some name)

def rootOf (fuel : Nat) (entries : List ε) (entry : ε) : Option ε :=
  walk (linked identity parent entries) identity fuel [] entry

/-- The families in the order of their first entries; `none` if the fuel is used up. -/
def groupByRoot (fuel : Nat) (entries : List ε) : Option (List (Family ε)) :=
  (entries.foldlM (fun families entry =>
    (rootOf identity parent fuel entries entry).map fun root => place identity families entry root) .empty).map
      fun families => families.entries.map Prod.snd

end Grouping

def groupSessionFamilies {δ : Type} (fuel : Nat) (sessions : List (Session δ)) : Option (List (Family (Session δ))) :=
  groupByRoot sessionIdentity sessionParent fuel sessions

def groupSessionEntriesByFamily {δ : Type} (fuel : Nat) (entries : List (Entry δ)) : Option (List (Family (Entry δ))) :=
  groupByRoot identityOf entryParent fuel entries

section Links
variable {ε : Type} (identity parent : ε → Option String) (entries : List ε)

def Names (a b : ε) : Prop := a ∈ entries ∧ b ∈ entries ∧ ∃ name, parent a = some name ∧ identity b = some name

def lastNamed (entry : ε) : Option ε :=
  (parent entry).bind fun name => entries.reverse.find? fun e => identity e = some name

def Connected : ε → ε → Prop := Relation.EqvGen (Names identity parent entries)

def Joined : ε → ε → Prop := Relation.EqvGen fun a b => a ∈ entries ∧ lastNamed identity parent entries a = some b

structure Partition (families : List (Family ε)) : Prop where
  once : (families.flatMap Family.members).Perm entries
  together : ∀ a ∈ entries, ∀ b ∈ entries, identity a ≠ identity b →
    ((∃ f ∈ families, a ∈ f.members ∧ b ∈ f.members) ↔ Connected identity parent entries a b)

structure Orderly : Prop where
  acyclic : Acyclic (lastNamed identity parent entries) identity entries
  apart : entries.Pairwise fun a b => Stays (lastNamed identity parent entries) a →
    Stays (lastNamed identity parent entries) b → identity a ≠ identity b
  joined : ∀ a b, Names identity parent entries a b → Joined identity parent entries a b

end Links

section Proofs
variable {ε : Type} {identity parent : ε → Option String} {entries : List ε} {a b c : ε}

theorem byIdentity_get (key : Option String) :
    (byIdentity identity entries).get key = entries.reverse.find? fun e => identity e = key := by
  induction entries using List.reverseRecOn with
  | nil => rfl
  | append_singleton entries entry ih =>
    rw [byIdentity, List.foldl_append, List.foldl_cons, List.foldl_nil, List.reverse_append, List.reverse_singleton,
      List.singleton_append]
    by_cases same : identity entry = key
    · rw [← same, OrderedMap.get_set_self, List.find?_cons_of_pos (by simp)]
    · rw [OrderedMap.get_set_of_ne _ _ (Ne.symm same), List.find?_cons_of_neg (by simpa using same)]
      exact ih

theorem linked_eq : linked identity parent entries = lastNamed identity parent entries := by
  funext entry
  simp only [linked, lastNamed, byIdentity_get]

theorem lastNamed_spec (h : lastNamed identity parent entries a = some b) :
    b ∈ entries ∧ ∃ name, parent a = some name ∧ identity b = some name ∧
      entries.reverse.find? (fun e => identity e = some name) = some b := by
  obtain ⟨name, named, found⟩ := Option.bind_eq_some_iff.mp h
  refine ⟨List.mem_reverse.mp (List.mem_of_find?_eq_some found), name, named, ?_, found⟩
  simpa using List.find?_some found

theorem lastNamed_keyed : Keyed (lastNamed identity parent entries) identity := by
  intro x x' y y' up up' same
  obtain ⟨-, name, -, of_y, found⟩ := lastNamed_spec up
  obtain ⟨-, name', -, of_y', found'⟩ := lastNamed_spec up'
  cases of_y.symm.trans (same.trans of_y')
  exact Option.some.inj (found.symm.trans found')

theorem lastNamed_closed : ∀ x ∈ entries, ∀ y, lastNamed identity parent entries x = some y → y ∈ entries :=
  fun _ _ _ up => (lastNamed_spec up).1

theorem names_of_last (there : a ∈ entries) (up : lastNamed identity parent entries a = some b) :
    Names identity parent entries a b := by
  obtain ⟨inside, name, named, of_b, -⟩ := lastNamed_spec up
  exact ⟨there, inside, name, named, of_b⟩

theorem Names.last (h : Names identity parent entries a b) :
    ∃ c, lastNamed identity parent entries a = some c ∧ identity c = identity b := by
  obtain ⟨-, there, name, named, of_b⟩ := h
  have found : (entries.reverse.find? fun e => identity e = some name).isSome = true :=
    List.find?_isSome.mpr ⟨b, List.mem_reverse.mpr there, by simpa using of_b⟩
  obtain ⟨c, found⟩ := Option.isSome_iff_exists.mp found
  have up : lastNamed identity parent entries a = some c := by rw [lastNamed, named, Option.bind_some, found]
  obtain ⟨-, name', named', of_c, -⟩ := lastNamed_spec up
  exact ⟨c, up, of_c.trans (named'.symm.trans (named.trans of_b.symm))⟩

theorem joined_of_climbs (there : a ∈ entries) (h : ParentRelation.Climbs (lastNamed identity parent entries) a b) :
    Joined identity parent entries a b := by
  obtain ⟨n, up⟩ := h
  have both : b ∈ entries ∧ Joined identity parent entries a b := by
    induction n generalizing b with
    | zero => exact Option.some.inj up ▸ ⟨there, .refl a⟩
    | succ n ih =>
      obtain ⟨c, below, last⟩ := Option.bind_eq_some_iff.mp up
      obtain ⟨inside, joined⟩ := ih below
      exact ⟨lastNamed_closed c inside b last, joined.trans _ _ _ (.rel _ _ ⟨inside, last⟩)⟩
  exact both.2

theorem Joined.connected (h : Joined identity parent entries a b) : Connected identity parent entries a b :=
  h.mono fun _ _ link => names_of_last link.1 link.2

end Proofs

def Rooted {ε : Type} (identity parent : ε → Option String) (entries : List ε) (root : ε → ε) : Prop :=
  ∀ x ∈ entries, Ends (lastNamed identity parent entries) identity [] x (root x)

section Roots
variable {ε : Type} {identity parent : ε → Option String} {entries : List ε} {root : ε → ε} {a b : ε}

theorem Rooted.joined (rooted : Rooted identity parent entries root) (there : a ∈ entries) :
    Joined identity parent entries a (root a) :=
  joined_of_climbs there (rooted a there).climbs

theorem Rooted.mem (rooted : Rooted identity parent entries root) (there : a ∈ entries) : root a ∈ entries := by
  rcases climbs_iff.mp (rooted a there).climbs with same | above
  · exact same ▸ there
  · obtain ⟨z, last⟩ := above.parent
    exact (lastNamed_spec last).1

section Orderly
variable (orderly : Orderly identity parent entries) (rooted : Rooted identity parent entries root)
include orderly rooted

theorem Orderly.stays (there : a ∈ entries) : Stays (lastNamed identity parent entries) (root a) :=
  (rooted a there).stays orderly.acyclic lastNamed_closed there

theorem Orderly.root_eq_of_joined (h : Joined identity parent entries a b) : root a = root b := by
  induction h with
  | rel a b link => exact ((rooted a link.1).of_parent orderly.acyclic lastNamed_closed link.1 link.2
      (rooted b (lastNamed_closed a link.1 b link.2))).symm
  | refl => rfl
  | symm _ _ _ ih => exact ih.symm
  | trans _ _ _ _ _ ih ih' => exact ih.trans ih'

theorem Orderly.root_eq_of_connected (h : Connected identity parent entries a b) : root a = root b := by
  induction h with
  | rel a b names => exact orderly.root_eq_of_joined rooted (orderly.joined a b names)
  | refl => rfl
  | symm _ _ _ ih => exact ih.symm
  | trans _ _ _ _ _ ih ih' => exact ih.trans ih'

theorem Orderly.clean : Clean identity root entries where
  apart := by
    have own : ∀ x ∈ entries, identity x = identity (root x) → Stays (lastNamed identity parent entries) x := by
      intro x there same
      rw [← (rooted x there).eq_of_key orderly.acyclic there same.symm]
      exact orderly.stays rooted there
    rw [selfs, List.Nodup, List.pairwise_map, List.pairwise_filter]
    refine List.Pairwise.imp_of_mem ?_ orderly.apart
    intro x y hx hy apart selfx selfy
    exact apart (own x hx (of_decide_eq_true selfx)) (own y hy (of_decide_eq_true selfy))
  rooted := fun k f inside => by
    obtain ⟨y, there, same⟩ := exists_of_mem inside
    rw [← same]
    have here := rooted.mem there
    have itself : root (root y) = root y := (rooted _ here).of_stays (orderly.stays rooted there)
    exact mem_selfs.mpr ⟨here, by rw [itself]⟩

theorem Orderly.together_iff (ha : a ∈ entries) (hb : b ∈ entries) :
    identity (root a) = identity (root b) ↔ Connected identity parent entries a b := by
  constructor
  · intro same
    have self : ∀ x ∈ entries, root x ∈ selfs identity root entries := by
      intro x there
      have here := rooted.mem there
      have itself : root (root x) = root x := (rooted _ here).of_stays (orderly.stays rooted there)
      exact mem_selfs.mpr ⟨here, by rw [itself]⟩
    have one : root a = root b :=
      List.inj_on_of_nodup_map (orderly.clean rooted).apart (self a ha) (self b hb) same
    have joined : Joined identity parent entries a b := (rooted.joined ha).trans _ _ _ (one ▸ (rooted.joined hb).symm)
    exact joined.connected
  · intro connected
    rw [orderly.root_eq_of_connected rooted connected]

end Orderly

section Converse
variable (clean : Clean identity root entries) (rooted : Rooted identity parent entries root)
include clean rooted

theorem root_self (there : a ∈ entries) (own : identity a = identity (root a)) : root a = a := by
  obtain ⟨y, listed, same⟩ := clean.exists_eq (mem_selfs.mpr ⟨there, own⟩)
  by_cases self : identity y = identity (root y)
  · have equal : y = a := List.inj_on_of_nodup_map clean.apart (mem_selfs.mpr ⟨listed, self⟩)
      (mem_selfs.mpr ⟨there, own⟩) (self.trans (congrArg identity same))
    rw [equal] at same
    exact same
  · have moved : identity a ≠ identity y := same ▸ Ne.symm self
    exact (same ▸ rooted y listed : Ends _ _ _ y a).of_end lastNamed_keyed moved (rooted a there)

theorem root_mem_selfs (there : a ∈ entries) : root a ∈ selfs identity root entries := by
  by_cases own : identity a = identity (root a)
  · rw [root_self clean rooted there own]
    exact mem_selfs.mpr ⟨there, own⟩
  · have here := rooted.mem there
    have itself : root (root a) = root a := (rooted a there).of_end lastNamed_keyed (Ne.symm own) (rooted _ here)
    exact mem_selfs.mpr ⟨here, by rw [itself]⟩

theorem root_eq (ha : a ∈ entries) (hb : b ∈ entries) (same : identity (root a) = identity (root b)) : root a = root b :=
  List.inj_on_of_nodup_map clean.apart (root_mem_selfs clean rooted ha) (root_mem_selfs clean rooted hb) same

theorem root_eq_of_above (there : a ∈ entries) (above : Leads (lastNamed identity parent entries) a b)
    (same : identity b = identity a) : root a = a :=
  root_self clean rooted there ((rooted a there).key_eq lastNamed_keyed above same).symm

variable (together : ∀ a ∈ entries, ∀ b ∈ entries, identity a ≠ identity b →
  (identity (root a) = identity (root b) ↔ Connected identity parent entries a b))
include together

theorem orderly_acyclic : Acyclic (lastNamed identity parent entries) identity entries := by
  intro a there b above same
  have own := root_eq_of_above clean rooted there above same
  have walked := rooted a there
  rw [own] at walked
  obtain ⟨c, up⟩ : ∃ c, lastNamed identity parent entries a = some c := by
    obtain ⟨n, far⟩ := above
    exact ParentRelation.climb_between (Nat.succ_le_succ (Nat.zero_le n)) far
  by_cases self : c = a
  · rw [up, self]
  · -- a longer cycle: its places are roots of families of their own
    have back : Leads (lastNamed identity parent entries) c a := by
      cases walked with
      | last ended =>
        rw [ended] at up
        cases up
      | again _ known => cases known
      | step up' _ rest =>
        rw [up] at up'
        cases up'
        exact (climbs_iff.mp rest.climbs).resolve_left self
    have inside := lastNamed_closed a there c up
    have own' : root c = c := root_eq_of_above clean rooted inside (back.further up) rfl
    obtain ⟨z, last⟩ := back.parent
    have other : identity a ≠ identity c := fun equal => self (lastNamed_keyed up last equal.symm)
    have connected : Connected identity parent entries a c := .rel _ _ (names_of_last there up)
    have equal := (together a there c inside other).mpr connected
    rw [own, own'] at equal
    exact absurd equal other

theorem orderly_joined (h : Names identity parent entries a b) : Joined identity parent entries a b := by
  obtain ⟨c, up, same⟩ := h.last
  have ha := h.1
  have hb := h.2.1
  suffices one : root a = root b from (rooted.joined ha).trans _ _ _ (one ▸ (rooted.joined hb).symm)
  by_cases other : identity a = identity b
  · -- an entry that names itself: no other entry has its identity
    have self := orderly_acyclic clean rooted together a ha c (.of_parent up) (same.trans other.symm)
    have own : root a = a := (rooted a ha).of_stays (.inr self)
    apply root_eq clean rooted ha hb
    by_contra apart
    have distinct : identity a ≠ identity (root b) := own ▸ apart
    have connected : Connected identity parent entries a (root b) :=
      (Relation.EqvGen.rel _ _ h).trans _ _ _ (rooted.joined hb).connected
    have equal := (together a ha (root b) (rooted.mem hb) distinct).mpr connected
    rw [← (mem_selfs.mp (root_mem_selfs clean rooted hb)).2] at equal
    exact apart equal
  · exact root_eq clean rooted ha hb ((together a ha b hb other).mpr (.rel _ _ h))

theorem orderly : Orderly identity parent entries where
  acyclic := orderly_acyclic clean rooted together
  joined := fun _ _ names => orderly_joined clean rooted together names
  apart := by
    have own : ∀ x ∈ entries, Stays (lastNamed identity parent entries) x → identity x = identity (root x) := by
      intro x there stays
      rw [(rooted x there).of_stays stays]
    have apart := clean.apart
    rw [selfs, List.Nodup, List.pairwise_map, List.pairwise_filter] at apart
    refine List.Pairwise.imp_of_mem ?_ apart
    intro x y hx hy apart staysx staysy
    exact apart (decide_eq_true (own x hx staysx)) (decide_eq_true (own y hy staysy))

end Converse

/-- The families hold each entry once, and connected ones together, exactly when the entries are orderly. -/
theorem partition_iff (rooted : Rooted identity parent entries root) :
    Partition identity parent entries (familiesOf identity root entries) ↔ Orderly identity parent entries := by
  constructor
  · intro partition
    have clean : Clean identity root entries := perm_iff.mp partition.once
    apply orderly clean rooted
    intro a ha b hb other
    exact (clean.together_iff ha hb).symm.trans (partition.together a ha b hb other)
  · intro orderly
    have clean : Clean identity root entries := orderly.clean rooted
    refine ⟨perm_iff.mpr clean, fun a ha b hb _ => ?_⟩
    exact (clean.together_iff ha hb).trans (orderly.together_iff rooted ha hb)

end Roots

section Result
variable {ε : Type} (identity parent : ε → Option String) (entries : List ε)

theorem exists_rooted : ∃ root, Rooted identity parent entries root ∧ ∀ fuel, entries.length < fuel →
    ∀ x ∈ entries, rootOf identity parent fuel entries x = some (root x) := by
  classical
  have each : ∀ x, ∃ r, x ∈ entries → Ends (lastNamed identity parent entries) identity [] x r ∧
      ∀ fuel, entries.length < fuel → rootOf identity parent fuel entries x = some r := by
    intro x
    by_cases there : x ∈ entries
    · obtain ⟨r, ends, found⟩ := @exists_root _ _ _ identity _ _ _ lastNamed_closed there
      exact ⟨r, fun _ => ⟨ends, fun fuel enough => by rw [rootOf, linked_eq]; exact found fuel enough⟩⟩
    · exact ⟨x, fun absurd => (there absurd).elim⟩
  choose root spec using each
  exact ⟨root, fun x there => (spec x there).1, fun fuel enough x there => (spec x there).2 fuel enough⟩

theorem foldlM_place {fuel : Nat} {root : ε → ε} (families : OrderedMap (Option String) (Family ε)) (l : List ε)
    (found : ∀ x ∈ l, rootOf identity parent fuel entries x = some (root x)) :
    l.foldlM (fun families entry =>
        (rootOf identity parent fuel entries entry).map fun root => place identity families entry root) families =
      some (l.foldl (fun families x => place identity families x (root x)) families) := by
  induction l generalizing families with
  | nil => rfl
  | cons x l ih =>
    obtain ⟨here, later⟩ := List.forall_mem_cons.mp found
    rw [List.foldlM_cons, here, List.foldl_cons]
    exact ih _ later

theorem groupByRoot_spec : ∃ families,
    (∀ fuel, entries.length < fuel → groupByRoot identity parent fuel entries = some families) ∧
    (Partition identity parent entries families ↔ Orderly identity parent entries) := by
  obtain ⟨root, rooted, found⟩ := exists_rooted identity parent entries
  refine ⟨familiesOf identity root entries, fun fuel enough => ?_, partition_iff rooted⟩
  rw [groupByRoot, foldlM_place identity parent entries _ entries (found fuel enough)]
  rfl

end Result

/-- The families of the picker partition its entries exactly when these are orderly. -/
theorem families_partition_iff {δ : Type} (sessions : List (Session δ)) (entries : List (Entry δ)) :
    (∃ families, (∀ fuel, sessions.length < fuel → groupSessionFamilies fuel sessions = some families) ∧
      (Partition sessionIdentity sessionParent sessions families ↔ Orderly sessionIdentity sessionParent sessions)) ∧
    ∃ families, (∀ fuel, entries.length < fuel → groupSessionEntriesByFamily fuel entries = some families) ∧
      (Partition identityOf entryParent entries families ↔ Orderly identityOf entryParent entries) :=
  ⟨groupByRoot_spec sessionIdentity sessionParent sessions, groupByRoot_spec identityOf entryParent entries⟩

/-- A runner that has no persisted session yet. -/
def unsaved (n : Nat) : Entry Nat := ⟨none, some ⟨none, none, n⟩⟩

/-- Sessions that name each other as parent. -/
def first : Session Unit := ⟨some "a", none, some "b", none, ()⟩

def second : Session Unit := ⟨some "b", none, some "a", none, ()⟩

/-- Of two runners without a session the second is in no family; two sessions in a cycle are in families of their own. -/
theorem second_runner_lost : (∃ families, groupSessionEntriesByFamily 3 [unsaved 1, unsaved 2] = some families ∧
      ¬Partition identityOf entryParent [unsaved 1, unsaved 2] families) ∧
      ∃ families, groupSessionFamilies 3 [first, second] = some families ∧
        ¬Partition sessionIdentity sessionParent [first, second] families := by
  constructor
  · refine ⟨[⟨unsaved 1, []⟩], by decide, fun partition => ?_⟩
    have lost : unsaved 2 ∈ [unsaved 1] := partition.once.mem_iff.mpr (by decide)
    exact absurd lost (by decide)
  · refine ⟨[⟨first, []⟩, ⟨second, []⟩], by decide, fun partition => ?_⟩
    have named : Names sessionIdentity sessionParent [first, second] first second :=
      ⟨by decide, by decide, "b", by decide, by decide⟩
    have together := (partition.together first (by decide) second (by decide) (by decide)).mpr (.rel _ _ named)
    exact absurd together (by decide)

end PickerFamilies
