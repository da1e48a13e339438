import Oyster.OrderedMap
import Oyster.ParentRelation
import Oyster.SessionKeys

/-! The family of a session: the sessions below it, or below the topmost of its ancestors. The
summaries come from a catalog of files, in which a session is named by its path, or from the
database, in which it is named by its id; nothing is known of the parents they name. -/
namespace SessionFamily
open Json ParentRelation SessionKeys

structure Summary where
  id : CodeUnits
  path : CodeUnits
  parentSessionId : Option CodeUnits
  parentSession : Option CodeUnits

structure Catalog where
  sqlite : Bool
  storagePath : CodeUnits
  folders : List CodeUnits
  list : Option CodeUnits → List Summary
  family : Option (CodeUnits → Bool → Except CodeUnits (List Summary))

structure Resolver where
  dirname : CodeUnits → CodeUnits
  sessionReferences : Option Codec
  sessionReferenceFor : Option (Summary → Option Reference)

def Summary.identity (sqlite : Bool) (session : Summary) : CodeUnits :=
  if sqlite then session.id else session.path

/-- The parent that the session names; the empty text names none. -/
def Summary.parentIdentity (sqlite : Bool) (session : Summary) : Option CodeUnits :=
  (if sqlite then session.parentSessionId else session.parentSession).filter (· ≠ [])

section
variable (ν : Type) [Numbers ν]

def Summary.reference (catalog : Catalog) (session : Summary) : Value ν :=
  .obj [(ascii "backend", .str (ascii (if catalog.sqlite then "sqlite" else "jsonl"))), (ascii "id", .str session.id),
    (ascii "storagePath", .str (if catalog.sqlite then catalog.storagePath else session.path))]

def sessionReferenceResolver (resolver : Resolver) (catalog : Catalog) :
    Except CodeUnits (Summary → Except CodeUnits Reference) :=
  match resolver.sessionReferences, resolver.sessionReferenceFor with
  | some codec, _ => .ok fun session => codec.validate (session.reference ν catalog)
  | none, some sessionReferenceFor =>
    if catalog.sqlite then .error (message "a session reference validator is required")
    else .ok fun session =>
      match sessionReferenceFor session with
      | some reference => .ok reference
      | none => .error (message "session reference resolver returned an invalid reference")
  | none, none => .error (message "a session reference validator is required")

end

def sessionFamilySummaries (resolver : Resolver) (catalog : Catalog) (rootReference : Reference)
    (includeAncestors : Bool) : Except CodeUnits (List Summary) :=
  if catalog.sqlite then
    match catalog.family with
    | some family => family rootReference.id includeAncestors
    | none => .ok (catalog.list none)
  else
    let locations := resolver.dirname (rootReference.storagePath.getD []) :: catalog.folders.filter (· ≠ [])
    .ok (locations.eraseDups.flatMap fun location => catalog.list (some location))

/-- The sessions that have a name, of two with the same name the later one. -/
def unique (sqlite : Bool) (summaries : List Summary) : OrderedMap CodeUnits Summary :=
  (summaries.filter (·.identity sqlite ≠ [])).foldl (fun all session => all.set (session.identity sqlite) session) .empty

def addChild (sqlite : Bool) (children : OrderedMap CodeUnits (List Summary)) (session : Summary) :
    OrderedMap CodeUnits (List Summary) :=
  match session.parentIdentity sqlite with
  | none => children
  | some parent => children.set parent ((children.get parent).getD [] ++ [session])

structure Indexes where
  unique : OrderedMap CodeUnits Summary
  children : OrderedMap CodeUnits (List Summary)

def sessionFamilyIndexes (sqlite : Bool) (summaries : List Summary) : Indexes where
  unique := unique sqlite summaries
  children := ((unique sqlite summaries).entries.map Prod.snd).foldl (addChild sqlite) .empty

/-- The parent of a session of the catalog, where it is one as well. -/
def knownParent (sqlite : Bool) (unique : OrderedMap CodeUnits Summary) (id : CodeUnits) : Option CodeUnits :=
  ((unique.get id).bind (·.parentIdentity sqlite)).filter unique.has

/-- The climb that ends at a session seen before ends after one step for each session. -/
def familyRootIdentity (sqlite : Bool) (unique : OrderedMap CodeUnits Summary) (rootIdentity : CodeUnits)
    (includeAncestors : Bool) : CodeUnits :=
  if includeAncestors then (ascend (knownParent sqlite unique) (unique.entries.length + 1) [] rootIdentity).2
  else rootIdentity

structure Found where
  pending : List CodeUnits
  seen : List CodeUnits
  references : List Reference

def visit (sqlite : Bool) (referenceFor : Summary → Except CodeUnits Reference) (found : Found) (child : Summary) :
    Except CodeUnits Found :=
  if child.identity sqlite ∈ found.seen then .ok found
  else (referenceFor child).map fun reference =>
    ⟨found.pending ++ [child.identity sqlite], found.seen ++ [child.identity sqlite], found.references ++ [reference]⟩

/-- The loop over what is pending, with no more rounds than `fuel`. -/
def descend (sqlite : Bool) (referenceFor : Summary → Except CodeUnits Reference)
    (children : OrderedMap CodeUnits (List Summary)) : (fuel : Nat) → Found → Option (Except CodeUnits (List Reference))
  | _, ⟨[], _, references⟩ => some (.ok references)
  | 0, _ => none
  | fuel + 1, ⟨id :: pending, seen, references⟩ =>
    match ((children.get id).getD []).foldlM (visit sqlite referenceFor) ⟨pending, seen, references⟩ with
    | .error text => some (.error text)
    | .ok found => descend sqlite referenceFor children fuel found

def descendantReferences (sqlite : Bool) (referenceFor : Summary → Except CodeUnits Reference) (indexes : Indexes)
    (rootIdentity : CodeUnits) (rootReference : Reference) (fuel : Nat) : Option (Except CodeUnits (List Reference)) :=
  match (indexes.unique.get rootIdentity).elim (.ok rootReference) referenceFor with
  | .error text => some (.error text)
  | .ok first => descend sqlite referenceFor indexes.children fuel ⟨[rootIdentity], [rootIdentity], [first]⟩

/-- The part of `collectSessionFamilyReferences` that works on the summaries. -/
def familyOf (sqlite : Bool) (referenceFor : Summary → Except CodeUnits Reference) (summaries : List Summary)
    (rootReference : Reference) (includeAncestors : Bool) (fuel : Nat) : Option (Except CodeUnits (List Reference)) :=
  let indexes := sessionFamilyIndexes sqlite summaries
  let initialRoot := if sqlite then rootReference.id else rootReference.storagePath.getD []
  let rootIdentity := familyRootIdentity sqlite indexes.unique initialRoot includeAncestors
  descendantReferences sqlite referenceFor indexes rootIdentity rootReference fuel

/-- The result, if the loop ends within `fuel` rounds. -/
def collectSessionFamilyReferences (ν : Type) [Numbers ν] (resolver : Resolver) (catalog : Catalog)
    (rootReference : Reference) (includeAncestors : Bool) (fuel : Nat) : Option (Except CodeUnits (List Reference)) :=
  if rootReference.backend.external then
    match resolver.sessionReferences with
    | some codec => some ((codec.validate (rootReference.value : Value ν)).map fun valid => [valid])
    | none => some (.error (message "Cannot read properties of undefined (reading 'validate')"))
  else
    match sessionReferenceResolver ν resolver catalog,
        sessionFamilySummaries resolver catalog rootReference includeAncestors with
    | .error text, _ | .ok _, .error text => some (.error text)
    | .ok referenceFor, .ok summaries =>
      familyOf catalog.sqlite referenceFor summaries rootReference includeAncestors fuel

end SessionFamily
