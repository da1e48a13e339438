import Oyster.ParentRelation

/-! The checkpoint tree of a session family. Parents are read from the agents' own
files: they may be missing, name the session itself or run in a circle. -/
namespace CheckpointTree
open ParentRelation

def MAX_DESCENDANT_DEPTH : Nat := 25

inductive Backend where
  | jsonl
  | sqlite
deriving DecidableEq

structure SessionRef where
  backend : Backend
  id : String
  storagePath : Option String
deriving DecidableEq

structure Checkpoint where
  hash : String
  anchorId : String
  message : Option String
  timestamp : Option String

def Checkpoint.key (checkpoint : Checkpoint) : String := s!"{checkpoint.hash}@{checkpoint.anchorId}"

/-- A listed session together with its header. -/
structure Summary where
  id : String
  path : Option String
  parentSession : Option String
  parentSessionId : Option String
  createdAt : Option String
  forkedAtHash : Option String
deriving DecidableEq

structure Info where
  id : String
  sessionRef : SessionRef
  path : Option String
  parentId : Option String
  createdAt : Option String
  forkedAtHash : Option String
deriving DecidableEq

def Info.parent (info : Info) : Option String := info.parentId.filter fun id => decide (id ≠ "")

structure Catalog where
  backend : Backend
  storagePath : Option String
  summaries : List Summary
  distinct : (summaries.map Summary.id).Nodup

namespace Catalog
variable (catalog : Catalog)

/-- Where several sessions have one path, the last listed is taken. -/
def idByPath (path : String) : Option String :=
  (catalog.summaries.reverse.find? fun summary => decide (summary.path = some path)).map Summary.id

def info (summary : Summary) : Info :=
  match catalog.backend with
  | .sqlite => {
      id := summary.id
      sessionRef := ⟨.sqlite, summary.id, catalog.storagePath⟩
      path := none
      parentId := summary.parentSessionId
      createdAt := summary.createdAt
      forkedAtHash := summary.forkedAtHash }
  | .jsonl => {
      id := summary.id
      sessionRef := ⟨.jsonl, summary.id, summary.path⟩
      path := summary.path
      parentId := summary.parentSession.bind catalog.idByPath
      createdAt := summary.createdAt
      forkedAtHash := summary.forkedAtHash }

def infos : List Info := catalog.summaries.map catalog.info

theorem info_id (summary : Summary) : (catalog.info summary).id = summary.id := by
  unfold info
  cases catalog.backend <;> rfl

theorem infos_distinct : (catalog.infos.map Info.id).Nodup := by
  rw [infos, List.map_map]
  have same : Info.id ∘ catalog.info = Summary.id := funext catalog.info_id
  rw [same]
  exact catalog.distinct

end Catalog

/-- What the tree is built from. `localeCompare` is the collation of the platform. -/
structure Family where
  infos : List Info
  distinct : (infos.map Info.id).Nodup
  listForSession : SessionRef → List Checkpoint
  localeCompare : String → String → Int

inductive Tree where
  | node (info : Info) (forkedAtHash : Option String) (checkpoints : List Checkpoint) (children : List Tree)

namespace Family
variable (family : Family)

def byId (id : String) : Option Info := family.infos.find? fun info => decide (info.id = id)

def checkpointsById (info : Info) : List Checkpoint := family.listForSession info.sessionRef

def keys (info : Info) : List String := (family.checkpointsById info).map Checkpoint.key

def compare (a b : Info) : Int :=
  let byTime := family.localeCompare (a.createdAt.getD "") (b.createdAt.getD "")
  if byTime ≠ 0 then byTime else family.localeCompare a.id b.id

def childrenByParentId (id : String) : List Info :=
  (family.infos.filter fun info => decide (info.parent = some id)).mergeSort fun a b => decide (family.compare a b ≤ 0)

def parent (info : Info) : Option Info := info.parent.bind family.byId

/-- The sessions that the search for the root leaves behind, and the root. Every session is left
behind once at most, so there is no need to look further. -/
def searchRoot (info : Info) : List Info × Info := ascend family.parent (family.infos.length + 1) [] info

def root (info : Info) : Info := (family.searchRoot info).2

def utf16Units (text : String) : List Nat :=
  text.toList.flatMap fun c =>
    if c.toNat < 0x10000 then [c.toNat]
    else [0xd800 + (c.toNat - 0x10000) / 0x400, 0xdc00 + (c.toNat - 0x10000) % 0x400]

def later (a b : Checkpoint) : Checkpoint :=
  if utf16Units (b.timestamp.getD "") < utf16Units (a.timestamp.getD "") then a else b

def inheritedHash : List Checkpoint → Option String
  | [] => none
  | first :: rest => some (rest.foldl later first).hash

def descendants (info : Info) (lineage : List String) : List Info :=
  (family.childrenByParentId info.id).filter fun child => decide (child.id ∉ lineage)

/-- `levels` counts down from the level below `MAX_DESCENDANT_DEPTH`, where no children are built. -/
def build : (levels : Nat) → Info → (shownAbove lineage : List String) → Tree
  | levels, info, shownAbove, lineage =>
    let all := family.checkpointsById info
    let inherited := all.filter fun checkpoint => decide (checkpoint.key ∈ shownAbove)
    let forkedAtHash := info.forkedAtHash <|> inheritedHash inherited
    let checkpoints := all.filter fun checkpoint => decide (checkpoint.key ∉ shownAbove)
    match levels with
    | 0 => .node info forkedAtHash checkpoints []
    | levels + 1 =>
      .node info forkedAtHash checkpoints ((family.descendants info lineage).map fun child =>
        build levels child (shownAbove ++ family.keys info) (info.id :: lineage))

def tree (info : Info) : Tree := family.build (MAX_DESCENDANT_DEPTH + 1) (family.root info) [] []

end Family

def Catalog.family (catalog : Catalog) (listForSession : SessionRef → List Checkpoint)
    (localeCompare : String → String → Int) : Family where
  infos := catalog.infos
  distinct := catalog.infos_distinct
  listForSession := listForSession
  localeCompare := localeCompare

/-- `found` tells whether the catalog has a header for the requested session. -/
def checkpointTree (catalog : Catalog) (localeCompare : String → String → Int)
    (repository : Option (SessionRef → List Checkpoint)) (found : Bool) (id : String) : Except String Tree :=
  if found then
    match catalog.infos.find? fun info => decide (info.id = id), repository with
    | none, _ => .error "session not found in its family"
    | some _, none => .error "SQLite checkpoint repository is required"
    | some info, some listForSession => .ok ((catalog.family listForSession localeCompare).tree info)
  else .error "session not found"

/-! What a tree shows. -/

mutual
def Tree.infos : Tree → List Info
  | .node info _ _ children => info :: Tree.infosOfAll children

def Tree.infosOfAll : List Tree → List Info
  | [] => []
  | tree :: trees => tree.infos ++ Tree.infosOfAll trees
end

def Tree.ids (tree : Tree) : List String := tree.infos.map Info.id

mutual
/-- The checkpoint keys along each path from the root to a leaf. -/
def Tree.branches : Tree → List (List String)
  | .node _ _ checkpoints [] => [checkpoints.map Checkpoint.key]
  | .node _ _ checkpoints (child :: children) =>
    (child.branches ++ Tree.branchesOfAll children).map (checkpoints.map Checkpoint.key ++ ·)

def Tree.branchesOfAll : List Tree → List (List String)
  | [] => []
  | tree :: trees => tree.branches ++ Tree.branchesOfAll trees
end

end CheckpointTree
