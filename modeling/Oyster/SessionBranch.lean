import Oyster.OrderedMap
import Oyster.ParentRelation
import Oyster.RecursiveQuery
import Oyster.ScopedIdentity

/-! The active branch of a session in the two catalogs: the JSONL catalog follows the parent
links of a parsed file in memory, the SQLite catalog follows those of its rows in a recursive
query. Both make the same entries and messages of what they have found. -/
namespace SessionBranch
open Json ScopedIdentity RecursiveQuery

variable {ν : Type} [Numbers ν]

def entryLabelMaxChars : Nat := 200

def textMember (members : Members ν) (key : String) : Option CodeUnits :=
  match lookup members (ascii key) with
  | some (.str s) => some s
  | _ => none

def entryId (entry : Members ν) : Option CodeUnits := (textMember entry "id").filter (· ≠ [])

structure SessionFile (ν : Type) where
  header : Option (Members ν) := none
  name : Option CodeUnits := none
  entries : List (Members ν) := []
  byId : OrderedMap CodeUnits (Members ν) := OrderedMap.empty

/-- Lines that are not objects are passed over, blank ones among them. -/
def SessionFile.readLine (file : SessionFile ν) (line : CodeUnits) : SessionFile ν :=
  match parse line with
  | some (.obj e) =>
    if textMember e "type" = some (ascii "session") then { file with header := file.header <|> some e }
    else
      { file with
        name := if textMember e "type" = some (ascii "session_info") then textMember e "name" <|> file.name else file.name
        entries := file.entries ++ [e]
        byId := match entryId e with
          | some id => file.byId.set id e
          | none => file.byId }
  | _ => file

def parseSessionFile (text : CodeUnits) : SessionFile ν :=
  (text.splitOn 0x0a).foldl SessionFile.readLine {}

def SessionFile.leafId (file : SessionFile ν) : Option CodeUnits :=
  file.entries.foldl (fun leafId e => entryId e <|> leafId) none

def parentEntry (byId : OrderedMap CodeUnits (Members ν)) (entry : Members ν) : Option (Members ν) :=
  match textMember entry "parentId" with
  | some id => if id = [] then none else byId.get id
  | none => none

def branchFrom (byId : OrderedMap CodeUnits (Members ν)) :
    (fuel : Nat) → (cur : Option (Members ν)) → (seen : List CodeUnits) → Option (List (Members ν))
  | _, none, _ => some []
  | fuel, some cur, seen =>
    if (entryId cur).getD [] ∈ seen then some []
    else match fuel with
      | 0 => none
      | fuel + 1 =>
        (branchFrom byId fuel (parentEntry byId cur) (seen ++ [(entryId cur).getD []])).map (cur :: ·)

def SessionFile.readActiveBranch (file : SessionFile ν) (fuel : Nat) : Option (List (Members ν)) :=
  (branchFrom file.byId fuel (file.leafId.bind file.byId.get) []).map List.reverse

structure Row where
  sessionId : CodeUnits
  id : CodeUnits
  parentId : Option CodeUnits
  type : CodeUnits
  timestamp : CodeUnits
  payload : CodeUnits

structure SessionRow where
  id : CodeUnits
  activeLeafId : Option CodeUnits

structure Database where
  sessions : List SessionRow
  entries : List Row

def separator : UInt16 := 31

/-- A row of the recursive query. -/
structure Active where
  row : Row
  depth : Nat
  path : CodeUnits

def Database.ofSession (db : Database) (id : CodeUnits) : List Row := db.entries.filter (·.sessionId = id)

/-- The recursive part of the query. -/
def activeParents (rows : List Row) (active : Active) : List Active :=
  (rows.filter fun parent => active.row.parentId = some parent.id ∧ ¬Occurs separator parent.id active.path).map
    fun parent => ⟨parent, active.depth + 1, active.path ++ parent.id ++ [separator]⟩

def activeLeaves (rows : List Row) (leaf : CodeUnits) : List Active :=
  (rows.filter (·.id = leaf)).map fun row => ⟨row, 0, separator :: row.id ++ [separator]⟩

/-- The fields that have a column of their own replace those of the payload. -/
def decodeEntry (row : Row) : Option (Members ν) :=
  match parse row.payload with
  | some (.obj payload) =>
    if row.id = [] ∨ row.type = [] then none
    else
      let parentId : Value ν := match row.parentId with
        | some id => if id = [] then .null else .str id
        | none => .null
      some (define (define (define (define payload (ascii "id") (.str row.id)) (ascii "parentId") parentId)
        (ascii "type") (.str row.type)) (ascii "timestamp") (.str row.timestamp))
  | _ => none

def sessionNotFound (id : CodeUnits) : CodeUnits := ascii "SQLite session not found: " ++ id

def Database.readActiveBranch (db : Database) (fuel : Nat) (id : CodeUnits) :
    Option (Except CodeUnits (SessionRow × List (Members ν))) :=
  match db.sessions.find? (·.id = id) with
  | none => some (.error (sessionNotFound id))
  | some session =>
    match session.activeLeafId with
    | none => some (.ok (session, []))
    | some leaf =>
      if leaf = [] then some (.ok (session, []))
      else
        (evaluate (activeParents (db.ofSession id)) fuel (activeLeaves (db.ofSession id) leaf)).map fun rows =>
          .ok (session, (rows.mergeSort fun a b => b.depth ≤ a.depth).filterMap fun a => decodeEntry a.row)

def textProp (value : Value ν) (key : String) : Option CodeUnits :=
  match get value key with
  | some (.str s) => some s
  | _ => none

def isBlock (type : String) (block : Value ν) : Bool := textProp block "type" = some (ascii type)

def textOf (content : Option (Value ν)) : Option CodeUnits :=
  match content with
  | some (.str s) => some s
  | some (.arr blocks) => (blocks.find? (isBlock "text")).bind (textProp · "text")
  | _ => none

/-- What stands for a message without text; `none` where the name of a tool has no text. -/
def markerOf (message : Value ν) (blocks : List (Value ν)) (text : Option CodeUnits) : Option (Option CodeUnits) :=
  match blocks.find? (isBlock "toolCall") with
  | some call =>
    match get call "name" with
    | none | some .null => some (some (ascii "[tool: ?]"))
    | some name => (toText name).map fun name => some (ascii "[tool: " ++ name ++ ascii "]")
  | none =>
    if blocks.any (isBlock "toolResult") || textProp message "role" = some (ascii "toolResult") then
      some (some (ascii "[tool result]"))
    else if blocks.any (isBlock "thinking") then some (some (ascii "[thinking]"))
    else some text

def labelOf (message : Value ν) : Option (Option CodeUnits) :=
  match textOf (get message "content"), get message "content" with
  | some (u :: rest), _ => some (some (u :: rest))
  | text, some (.arr blocks) => markerOf message blocks text
  | text, _ => some text

/-- An entry of the list that permalinks are made from. -/
structure Item (ν : Type) where
  id : Option (Value ν)
  role : CodeUnits
  text : CodeUnits
  timestamp : Value ν

def zeroLiteral : Literal := ⟨ascii "0", List.all_eq_true.mp rfl, rfl⟩

def orNull (value : Option (Value ν)) : Value ν := value.getD .null

/-- The item of a user's or an assistant's message; the inner `none` where the label fails. -/
def itemOf (entry : Members ν) : Option (Option (Item ν)) :=
  if textMember entry "type" = some (ascii "message") then
    match lookup entry (ascii "message") with
    | none => none
    | some message =>
      match textProp message "role" with
      | none => none
      | some role =>
        if role = ascii "user" ∨ role = ascii "assistant" then
          some ((labelOf message).map fun label =>
            { id := lookup entry (ascii "id")
              role
              text := (label.getD []).take entryLabelMaxChars
              timestamp := orNull (lookup entry (ascii "timestamp")) })
        else none
  else none

/-- The own properties of an object or an array. -/
def properties : Value ν → Option (Members ν)
  | .obj members => some members
  | .arr items => some (items.zipIdx.map fun (item, i) => (ascii (toString i), item))
  | _ => none

def lighten (part : Value ν) : Value ν :=
  match part with
  | .obj members => if (textProp part "data").isSome then .obj (members.filter (·.1 ≠ ascii "data")) else part
  | _ => part

/-- The message of an entry as a transcript shows it; `getTime` reads a date. -/
def transcriptMessage (getTime : Option (Value ν) → Value ν) (entry : Members ν) : Option (Value ν) :=
  if textMember entry "type" = some (ascii "message") ∧ ((lookup entry (ascii "message")).bind properties).isSome then
    (lookup entry (ascii "message")).bind fun message => (properties message).map fun members =>
      let content : Option (Value ν) := match get message "content" with
        | some (.arr parts) => some (.arr (parts.map lighten))
        | content => content
      let lightened := match content with
        | some content => define members (ascii "content") content
        | none => members
      .obj (define lightened (ascii "entryTimestamp") (orNull (lookup entry (ascii "timestamp"))))
  else if textMember entry "type" = some (ascii "compaction") then
    let orElse (value : Option (Value ν)) (other : Value ν) : Value ν := match value with
      | none | some .null => other
      | some value => value
    some (.obj [(ascii "role", .str (ascii "compactionSummary")),
      (ascii "summary", orElse (lookup entry (ascii "summary")) (.str [])),
      (ascii "tokensBefore", orElse (lookup entry (ascii "tokensBefore")) (.num (Numbers.value zeroLiteral))),
      (ascii "timestamp", getTime (lookup entry (ascii "timestamp")))])
  else none

structure Listing (ν : Type) where
  sessionId : Value ν
  leafId : Option CodeUnits
  entries : Option (List (Item ν))

structure Transcript (ν : Type) where
  sessionId : Value ν
  messages : List (Value ν)

/-- The first label that fails fails the whole list. -/
def gather (found : List (Option (Item ν))) : Option (List (Item ν)) := found.mapM id

def items (chain : List (Members ν)) : Option (List (Item ν)) := gather (chain.filterMap itemOf)

def SessionFile.sessionId (file : SessionFile ν) : Value ν := orNull (file.header.bind (lookup · (ascii "id")))

def sessionEntries (file : SessionFile ν) (fuel : Nat) : Option (Listing ν) :=
  (file.readActiveBranch fuel).map fun chain => ⟨file.sessionId, file.leafId, items chain⟩

def sessionMessages (getTime : Option (Value ν) → Value ν) (file : SessionFile ν) (fuel : Nat) : Option (Transcript ν) :=
  (file.readActiveBranch fuel).map fun chain => ⟨file.sessionId, chain.filterMap (transcriptMessage getTime)⟩

def entries (db : Database) (fuel : Nat) (id : CodeUnits) : Option (Except CodeUnits (Listing ν)) :=
  (db.readActiveBranch fuel id).map fun result => result.map fun (session, branch) =>
    ⟨.str session.id, session.activeLeafId, items branch⟩

def messages (getTime : Option (Value ν) → Value ν) (db : Database) (fuel : Nat) (id : CodeUnits) :
    Option (Except CodeUnits (Transcript ν)) :=
  (db.readActiveBranch fuel id).map fun result => result.map fun (session, branch) =>
    ⟨.str session.id, branch.filterMap (transcriptMessage getTime)⟩

structure Stored (entry : Members ν) (row : Row) : Prop where
  id : textMember entry "id" = some row.id
  parentId : textMember entry "parentId" = row.parentId
  type : textMember entry "type" = some row.type
  timestamp : lookup entry (ascii "timestamp") = some (.str row.timestamp)
  payload : ∃ payload, parse row.payload = some (.obj payload) ∧
    ∀ key ∉ [ascii "id", ascii "parentId", ascii "type", ascii "timestamp"], lookup payload key = lookup entry key

/-- The file and the rows of the database hold the same entries, whose ids are distinct, in a
session with the same id and the same active leaf. -/
structure SameSession (file : SessionFile ν) (db : Database) (id : CodeUnits) : Prop where
  ids : ∀ e ∈ file.entries, (entryId e).isSome = true
  distinct : (file.entries.map entryId).Nodup
  key : ((db.ofSession id).map Row.id).Nodup
  stored : ∀ row ∈ db.ofSession id, ∃ e ∈ file.entries, Stored e row
  present : ∀ e ∈ file.entries, ∃ row ∈ db.ofSession id, Stored e row
  session : db.sessions.find? (·.id = id) = some ⟨id, file.leafId⟩
  header : file.sessionId = .str id

end SessionBranch
