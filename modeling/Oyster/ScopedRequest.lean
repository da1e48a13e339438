import Mathlib.Data.List.Count
import Mathlib.Data.List.Infix
import Oyster.ScopedIdentity

/-! Requests on their way from a browser through the hub to one of its workspaces. The
identities in the query and in a JSON body name the workspace, and are replaced by what
they are there. The parameters of a query are taken as they are read from it. -/
namespace ScopedRequest
open Json ScopedIdentity

abbrev Params := List (List Char × List Char)

def addScope (scopes : List CodeUnits) (identity : Identity) : List CodeUnits :=
  if identity.workspaceId ∈ scopes then scopes else scopes ++ [identity.workspaceId]

structure Request where
  method : String
  pathname : List Char
  query : Params
  workspaceHeader : Option CodeUnits
  contentType : Option CodeUnits
  transferEncoding : Option CodeUnits
  contentLength : Option Nat
  body : List UInt8

structure Workspace where
  id : CodeUnits
  url : CodeUnits

structure Prepared where
  query : Params
  scopes : List CodeUnits
  body : Option (List UInt8)
  streaming : Bool

structure Forwarded where
  workspace : Workspace
  pathname : List Char
  query : Params
  body : Option (List UInt8)

inductive Outcome where
  | answered (status : Nat) (body : List (String × CodeUnits))
  | forwarded (request : Forwarded)

def bodylessMethods : List String := ["GET", "HEAD"]

def requestHasBody (req : Request) : Bool :=
  if req.method ∈ bodylessMethods then false
  else if !(req.transferEncoding.getD []).isEmpty then true
  else 0 < req.contentLength.getD 0

/-- The capitals of a header, which has no letters beyond Latin-1. -/
def toLowerCase (text : CodeUnits) : CodeUnits :=
  text.map fun u => if 0x41 ≤ u.toNat ∧ u.toNat ≤ 0x5a then u + 0x20 else u

def isJson (req : Request) : Bool :=
  ascii "application/json" <:+: toLowerCase (req.contentType.getD [])

section
variable (ν : Type) [Numbers ν]

variable {ν}

mutual

def decodeDeep (scopes : List CodeUnits) : Value ν → List CodeUnits × Value ν
  | .str s =>
    match parseScopedValue ν s with
    | none => (scopes, .str s)
    | some identity => (addScope scopes identity, .str identity.value)
  | .arr items =>
    let (scopes, items) := decodeItems scopes items
    (scopes, .arr items)
  | .obj members =>
    let (scopes, members) := decodeMembers scopes members
    (scopes, .obj (object members))
  | v => (scopes, v)

def decodeItems (scopes : List CodeUnits) : List (Value ν) → List CodeUnits × List (Value ν)
  | [] => (scopes, [])
  | v :: items =>
    let (scopes, v) := decodeDeep scopes v
    let (scopes, items) := decodeItems scopes items
    (scopes, v :: items)

def decodeMembers (scopes : List CodeUnits) : Members ν → List CodeUnits × Members ν
  | [] => (scopes, [])
  | (key, v) :: members =>
    let (scopes, v) := decodeDeep scopes v
    let (scopes, members) := decodeMembers scopes members
    (scopes, (key, v) :: members)

end

def bytesText (bytes : List UInt8) : CodeUnits := Utf16.encode (Utf8.decode bytes)

variable (ν)

def queryIdentities (query : Params) : List Identity :=
  query.filterMap fun p => parseScopedValue ν (Utf16.encode p.2)

variable {ν}

mutual

def identitiesOf : Value ν → List Identity
  | .str s => (parseScopedValue ν s).toList
  | .arr items => itemIdentities items
  | .obj members => memberIdentities members
  | _ => []

def itemIdentities : List (Value ν) → List Identity
  | [] => []
  | v :: items => identitiesOf v ++ itemIdentities items

def memberIdentities : Members ν → List Identity
  | [] => []
  | (_, v) :: members => identitiesOf v ++ memberIdentities members

end

mutual

def replaced : Value ν → Value ν
  | .str s => .str (((parseScopedValue ν s).map Identity.value).getD s)
  | .arr items => .arr (replacedItems items)
  | .obj members => .obj (replacedMembers members)
  | v => v

def replacedItems : List (Value ν) → List (Value ν)
  | [] => []
  | v :: items => replaced v :: replacedItems items

def replacedMembers : Members ν → Members ν
  | [] => []
  | (key, v) :: members => (key, replaced v) :: replacedMembers members

end

variable (ν)

def readBody (req : Request) : Option (Value ν) :=
  if requestHasBody req && isJson req then parse (bytesText req.body) else none

def identities (req : Request) : List Identity :=
  queryIdentities ν req.query ++ ((readBody ν req).map identitiesOf).getD []

end

/-- The workspaces that identities name, in the order in which they are met. -/
def scopesOf (scopes : List CodeUnits) (identities : List Identity) : List CodeUnits :=
  identities.foldl addScope scopes

theorem scopesOf_append (scopes : List CodeUnits) (l m : List Identity) :
    scopesOf scopes (l ++ m) = scopesOf (scopesOf scopes l) m := List.foldl_append

variable {scopes : List CodeUnits} {id : CodeUnits}

section
variable {ν : Type} [Numbers ν]

theorem replacedMembers_keys (members : Members ν) :
    (replacedMembers members).map Prod.fst = members.map Prod.fst := by
  induction members with
  | nil => rfl
  | cons m members ih =>
    rw [replacedMembers, List.map_cons, List.map_cons, ih]

theorem replacedMembers_ordered {members : Members ν} (h : Ordered members) : Ordered (replacedMembers members) := by
  rw [ordered_iff_keys, replacedMembers_keys, ← ordered_iff_keys]
  exact h

mutual

theorem decodeDeep_spec : ∀ (v : Value ν) (scopes : List CodeUnits), Canonical v →
    decodeDeep scopes v = (scopesOf scopes (identitiesOf v), replaced v)
  | .null, scopes, _ => rfl
  | .bool b, scopes, _ => rfl
  | .num x, scopes, _ => rfl
  | .str s, scopes, _ => by
      rw [decodeDeep, identitiesOf, replaced]
      cases parseScopedValue ν s with
      | none => rfl
      | some identity => rfl
  | .arr items, scopes, .arr inner => by
      rw [decodeDeep, identitiesOf, replaced, decodeItems_spec items scopes inner]
  | .obj members, scopes, .obj ordered inner => by
      rw [decodeDeep, identitiesOf, replaced, decodeMembers_spec members scopes inner]
      simp only [object_ordered (replacedMembers_ordered ordered)]

theorem decodeItems_spec : ∀ (items : List (Value ν)) (scopes : List CodeUnits), (∀ v ∈ items, Canonical v) →
    decodeItems scopes items = (scopesOf scopes (itemIdentities items), replacedItems items)
  | [], scopes, _ => rfl
  | v :: items, scopes, inner => by
      rw [decodeItems, itemIdentities, replacedItems, decodeDeep_spec v scopes (inner v List.mem_cons_self),
        scopesOf_append]
      simp only [decodeItems_spec items _ fun v mem => inner v (List.mem_cons_of_mem _ mem)]

theorem decodeMembers_spec : ∀ (members : Members ν) (scopes : List CodeUnits), (∀ m ∈ members, Canonical m.2) →
    decodeMembers scopes members = (scopesOf scopes (memberIdentities members), replacedMembers members)
  | [], scopes, _ => rfl
  | (key, v) :: members, scopes, inner => by
      rw [decodeMembers, memberIdentities, replacedMembers,
        decodeDeep_spec v scopes (inner (key, v) List.mem_cons_self), scopesOf_append]
      simp only [decodeMembers_spec members _ fun m mem => inner m (List.mem_cons_of_mem _ mem)]

end

mutual

theorem replaced_canonical : ∀ {v : Value ν}, Canonical v → Canonical (replaced v)
  | .null, _ => .null
  | .bool b, _ => .bool b
  | .num x, _ => .num x
  | .str _, _ => .str _
  | .arr _, .arr inner => .arr (replacedItems_canonical inner)
  | .obj _, .obj ordered inner =>
    .obj (replacedMembers_ordered ordered) (replacedMembers_canonical inner)

theorem replacedItems_canonical : ∀ {items : List (Value ν)}, (∀ v ∈ items, Canonical v) →
    ∀ v ∈ replacedItems items, Canonical v
  | [], _ => fun _ absurd => nomatch absurd
  | v :: _, inner => List.forall_mem_cons.mpr ⟨replaced_canonical (inner v List.mem_cons_self),
      replacedItems_canonical fun v mem => inner v (List.mem_cons_of_mem _ mem)⟩

theorem replacedMembers_canonical : ∀ {members : Members ν}, (∀ m ∈ members, Canonical m.2) →
    ∀ m ∈ replacedMembers members, Canonical m.2
  | [], _ => fun _ absurd => nomatch absurd
  | (key, v) :: _, inner =>
    List.forall_mem_cons.mpr ⟨replaced_canonical (inner (key, v) List.mem_cons_self),
      replacedMembers_canonical fun m mem => inner m (List.mem_cons_of_mem _ mem)⟩

end

mutual

def numbers : Value ν → List ν
  | .num x => [x]
  | .arr items => itemNumbers items
  | .obj members => memberNumbers members
  | _ => []

def itemNumbers : List (Value ν) → List ν
  | [] => []
  | v :: items => numbers v ++ itemNumbers items

def memberNumbers : Members ν → List ν
  | [] => []
  | (_, v) :: members => numbers v ++ memberNumbers members

end

/-- The writer writes every number of the value as one that is read as that number again. -/
def ExactNumbers (xs : List ν) : Prop := ∀ x ∈ xs, rereadNumber x = .num x

theorem exactNumbers_append (xs ys : List ν) :
    ExactNumbers (xs ++ ys) ↔ ExactNumbers xs ∧ ExactNumbers ys := List.forall_mem_append

mutual

theorem reread_replaced_iff : ∀ v : Value ν, reread (replaced v) = replaced v ↔ ExactNumbers (numbers v)
  | .null | .bool _ | .str _ => iff_of_true rfl fun _ absurd => nomatch absurd
  | .num x => by
      have same : replaced (.num x) = .num x := rfl
      rw [same, reread, numbers, ExactNumbers, List.forall_mem_singleton]
  | .arr items => by
      rw [replaced, reread, numbers, Value.arr.injEq]
      exact rereadItems_replaced_iff items
  | .obj members => by
      rw [replaced, reread, numbers, Value.obj.injEq]
      exact rereadMembers_replaced_iff members

theorem rereadItems_replaced_iff : ∀ items : List (Value ν),
    rereadItems (replacedItems items) = replacedItems items ↔ ExactNumbers (itemNumbers items)
  | [] => iff_of_true rfl fun _ absurd => nomatch absurd
  | v :: items => by
      rw [replacedItems, rereadItems, itemNumbers, List.cons.injEq, exactNumbers_append,
        reread_replaced_iff v, rereadItems_replaced_iff items]

theorem rereadMembers_replaced_iff : ∀ members : Members ν,
    rereadMembers (replacedMembers members) = replacedMembers members ↔ ExactNumbers (memberNumbers members)
  | [] => iff_of_true rfl fun _ absurd => nomatch absurd
  | (key, v) :: members => by
      rw [replacedMembers, rereadMembers, memberNumbers, List.cons.injEq, Prod.mk.injEq, exactNumbers_append,
        reread_replaced_iff v, rereadMembers_replaced_iff members, eq_self, true_and]

end

end

section
variable {ν : Type} [Numbers ν]

def decoded (ν : Type) [Numbers ν] (p : List Char × List Char) : List Char × List Char :=
  match parseScopedValue ν (Utf16.encode p.2) with
  | none => p
  | some identity => (p.1, Utf16.decode identity.value)

variable {params : Params}

/-- What the workspace reads of a parameter, as a string. -/
def recovered (ν : Type) [Numbers ν] (value : CodeUnits) : CodeUnits :=
  ((parseScopedValue ν value).map Identity.value).getD value

end

section
variable (ν : Type) [Numbers ν]

variable {req : Request}

variable {f : Forwarded}

end

def Outcome.query : Outcome → Option Params
  | .answered _ _ => none
  | .forwarded f => some f.query

end ScopedRequest
