import Oyster.LineTransform
import Oyster.OrderedMap
import Oyster.ScopedIdentity

/-! The transform that the hub puts behind the event stream of a workspace: it rewrites
the identities in the data lines and remembers the runners of the workspace, to which
the hub's snapshot of other runners is added. -/
namespace SseScope
open Json ScopedIdentity LineTransform

structure Workspace where
  id : CodeUnits
  name : Option CodeUnits
  environmentId : Option CodeUnits
  environmentName : Option CodeUnits
  spoke : Option CodeUnits

/-- The first of the strings that is neither absent nor empty. -/
def firstText (values : List (Option CodeUnits)) (other : CodeUnits) : CodeUnits :=
  match values with
  | [] => other
  | some (u :: us) :: _ => u :: us
  | _ :: values => firstText values other

/-- A property that holds an identity, and the properties that its value is taken from. -/
structure IdentityField where
  key : String
  kind : String
  source : List String
  sessionKey : Bool := false

def sessionIdField : IdentityField := ⟨"sessionId", "session-id", ["sessionId"], false⟩

section
variable {ν : Type} [Numbers ν]

def spread : Value ν → Members ν
  | .obj members => members
  | .arr items => items.zipIdx.map fun (v, i) => (ascii (toString i), v)
  | _ => []

/-- A property that is undefined is not written out. -/
def assign (members : Members ν) (key : String) : Option (Value ν) → Members ν
  | some value => define members (ascii key) value
  | none => members.filter (·.1 ≠ ascii key)

def workspaceMeta (workspace : Workspace) (members : Members ν) : Members ν :=
  let environmentId := firstText [workspace.environmentId, workspace.spoke] (ascii "unassigned-device")
  let environmentName := firstText [workspace.environmentName] environmentId
  let members := assign members "environmentId" (some (.str environmentId))
  let members := assign members "environmentName" (some (.str environmentName))
  let members := assign members "workspaceId" (some (.str workspace.id))
  assign members "workspaceName" (workspace.name.map .str)

def scopeObject (fields : List IdentityField) (workspace : Workspace) (v : Value ν) : Option (Value ν) :=
  match v with
  | .obj _ | .arr _ =>
    (fields.foldlM (fun (members : Members ν) (field : IdentityField) => do
      let value ← scopeValue workspace.id field.kind (coalesce v field.source) field.sessionKey
      return assign members field.key (some value)) (workspaceMeta workspace (spread v))).map .obj
  | v => some v

def scopeRunner : Workspace → Value ν → Option (Value ν) :=
  scopeObject [⟨"id", "runner", ["id"], false⟩, sessionIdField,
    ⟨"sessionKey", "session", ["sessionKey", "sessionFile"], true⟩]

def scopeRoutine : Workspace → Value ν → Option (Value ν) := scopeObject [sessionIdField]

def scopeHublot : Workspace → Value ν → Option (Value ν) :=
  scopeObject [⟨"id", "hublot", ["id"], false⟩, sessionIdField]

def scopePinnedWidgetGroup : Workspace → Value ν → Option (Value ν) :=
  scopeObject [⟨"id", "pinned-widget-group", ["id"], false⟩, sessionIdField]

def scopePinnedWidget : Workspace → Value ν → Option (Value ν) :=
  scopeObject [⟨"id", "pinned-widget", ["id"], false⟩, ⟨"groupId", "pinned-widget-group", ["groupId"], false⟩,
    ⟨"hublotId", "hublot", ["hublotId"], false⟩, sessionIdField]

def assignIf (condition : Bool) (key : String) (value : Option (Value ν)) (members : Members ν) :
    Option (Members ν) :=
  if condition then value.map fun v => assign members key (some v) else some members

def isObject : Option (Value ν) → Bool
  | some (.obj _) | some (.arr _) => true
  | _ => false

def isText : Option (Value ν) → Bool
  | some (.str _) => true
  | _ => false

def scopeData (workspace : Workspace) (data : Value ν) : Option (Value ν) := do
  let members ← assignIf (truthy (get data "sessionId")) "sessionId"
    (scopeValue workspace.id "session-id" (get data "sessionId") false) (spread data)
  let members ← assignIf (truthy (get data "sessionKey") || truthy (get data "sessionFile")) "sessionKey"
    (scopeValue workspace.id "session" (coalesce data ["sessionKey", "sessionFile"]) true) members
  return .obj members

def scopeEvent (workspace : Workspace) (message : Value ν) (otherRunners : List (Value ν)) : Option (Value ν) :=
  if isObject (some message) then do
    let data := get message "data"
    let members ← assignIf (isObject data) "data" (data.bind (scopeData workspace)) (spread message)
    let members ← assignIf (isText (get message "runner")) "runner"
      (scopeValue workspace.id "runner" (get message "runner") false) members
    let members ← assignIf (truthy (get message "sessionId")) "sessionId"
      (scopeValue workspace.id "session-id" (get message "sessionId") false) members
    let members ← assignIf (truthy (get message "routine")) "routine"
      ((get message "routine").bind (scopeRoutine workspace)) members
    let members ← assignIf (truthy (get message "tunnel")) "tunnel"
      ((get message "tunnel").bind (scopeHublot workspace)) members
    let members ← assignIf (truthy (get message "widget")) "widget"
      ((get message "widget").bind (scopePinnedWidget workspace)) members
    let members ← assignIf (truthy (get message "widgetId")) "widgetId"
      (scopeValue workspace.id "pinned-widget" (get message "widgetId") false) members
    let members ← assignIf (truthy (get message "group")) "group"
      ((get message "group").bind (scopePinnedWidgetGroup workspace)) members
    let members ← assignIf (truthy (get message "groupId")) "groupId"
      (scopeValue workspace.id "pinned-widget-group" (get message "groupId") false) members
    match get message "runners" with
    | some (.arr runners) => do
        let runners ← runners.mapM (scopeRunner workspace)
        let others := if truthy (get message "partial") then [] else otherRunners
        return .obj (assign members "runners" (some (.arr (others ++ runners))))
    | _ => return .obj members
  else some message

structure Runners (ν : Type) where
  other : List (Value ν) := []
  active : List (Value ν) := []

/-- `runner.id` of a scoped runner: undefined, null or a string. A null has no properties. -/
def runnerId : Value ν → Option (Option (Option CodeUnits))
  | .null => none
  | v =>
    match get v "id" with
    | none => some none
    | some (.str s) => some (some (some s))
    | some _ => some (some none)

/-- The runners by their ids, where a later one takes the place of an earlier one. -/
def mergeRunners (active reported : List (Value ν)) : Option (List (Value ν)) := do
  let entries ← active.mapM fun runner => (runnerId runner).map fun id => (id, runner)
  let more ← reported.mapM fun runner => (runnerId runner).map fun id => (id, runner)
  return ((entries ++ more).foldl (fun merged e => OrderedMap.set merged e.1 e.2) .empty).entries.map Prod.snd

def reportedRunners (workspace : Workspace) (active : List (Value ν)) (message : Value ν) : Option (List (Value ν)) :=
  match get message "runners" with
  | some (.arr runners) => do
      let runners ← runners.mapM (scopeRunner workspace)
      if truthy (get message "partial") then mergeRunners active runners else some runners
  | _ => some active

def dataPrefix : CodeUnits := ascii "data: "

/-- A line whose rewriting throws is left as it is, whatever has been remembered before. -/
def transformLine (workspace : Workspace) (s : Runners ν) (line : CodeUnits) : Runners ν × CodeUnits :=
  if dataPrefix.isPrefixOf line then
    match (parse (line.drop dataPrefix.length) : Option (Value ν)) with
    | none | some .null => (s, line)
    | some message =>
      match reportedRunners workspace s.active message with
      | none => (s, line)
      | some active =>
        let s := { s with active }
        match scopeEvent workspace message s.other with
        | none => (s, line)
        | some event => (s, dataPrefix ++ print event)
  else (s, line)

structure Transform (ν : Type) where
  lines : State (Runners ν) := ⟨{}, []⟩
  finished : Bool := false

def chunkText (chunk : List UInt8) : CodeUnits := Utf16.encode (Utf8.decode chunk)

def Transform.transform (workspace : Workspace) (t : Transform ν) (chunk : List UInt8) : Transform ν × CodeUnits :=
  let (lines, out) := write (transformLine workspace) t.lines (chunkText chunk)
  ({ t with lines }, out)

def Transform.flush (workspace : Workspace) (t : Transform ν) : Transform ν × CodeUnits :=
  ({ t with finished := true }, LineTransform.flush (transformLine workspace) t.lines)

def runnersUpdate (runners : Runners ν) : Value ν :=
  .obj [(ascii "type", .str (ascii "runners_update")), (ascii "_server", .bool true),
    (ascii "runners", .arr (runners.other ++ runners.active))]

/-- The snapshot of the other runners arrives; a frame goes out if there are runners here. -/
def Transform.setOtherRunners (t : Transform ν) (others : List (Value ν)) : Transform ν × Option CodeUnits :=
  let t := { t with lines := { t.lines with inner := { t.lines.inner with other := others } } }
  if t.lines.inner.active.isEmpty || t.finished then (t, none)
  else (t, some (dataPrefix ++ print (runnersUpdate t.lines.inner) ++ [lineFeed, lineFeed]))

def transformAll (workspace : Workspace) (t : Transform ν) : List (List UInt8) → Transform ν × CodeUnits
  | [] => (t, [])
  | chunk :: chunks =>
    let (t, out) := t.transform workspace chunk
    let (t, outs) := transformAll workspace t chunks
    (t, out ++ outs)

end

/-- What a browser gets of a stream that arrives in these chunks. -/
def output (ν : Type) [Numbers ν] (workspace : Workspace) (chunks : List (List UInt8)) : CodeUnits :=
  let (t, out) := transformAll workspace ({} : Transform ν) chunks
  out ++ (t.flush workspace).2

section
variable {ν : Type} [Numbers ν]

theorem transformAll_eq (workspace : Workspace) (t : Transform ν) (chunks : List (List UInt8)) :
    transformAll workspace t chunks =
      ({ t with lines := (writeAll (transformLine workspace) t.lines (chunks.map chunkText)).1 },
        (writeAll (transformLine workspace) t.lines (chunks.map chunkText)).2) := by
  induction chunks generalizing t with
  | nil => rfl
  | cons chunk chunks ih =>
    rw [transformAll, List.map_cons, writeAll]
    simp only [Transform.transform, ih]

theorem chunkTexts {text : List Char} {chunks : List (List UInt8)}
    (stream : chunks.flatten = Utf8.encode text) (aligned : Utf8.Aligned chunks) :
    (chunks.map chunkText).flatten = Utf16.encode text := by
  obtain ⟨texts, rfl, rfl⟩ := Utf8.decode_chunks stream aligned
  clear stream aligned
  induction texts with
  | nil => rfl
  | cons text texts ih =>
    rw [List.map_cons, List.map_cons, List.flatten_cons, ih, chunkText, Utf8.decode_encode,
      List.flatten_cons, Utf16.encode_append]

theorem chunkText_encode (text : List Char) : chunkText (Utf8.encode text) = Utf16.encode text := by
  rw [chunkText, Utf8.decode_encode]

theorem output_eq (workspace : Workspace) (chunks : List (List UInt8)) : output ν workspace chunks =
      (write (transformLine workspace) (⟨{}, []⟩ : State (Runners ν)) (chunks.map chunkText).flatten).2 ++
        LineTransform.flush (transformLine workspace)
          (write (transformLine workspace) (⟨{}, []⟩ : State (Runners ν)) (chunks.map chunkText).flatten).1 := by
  have flat := writeAll_flatten (transformLine workspace)
    (show lineFeed ∉ (⟨{}, []⟩ : State (Runners ν)).pending from List.not_mem_nil) (chunks.map chunkText)
  rw [output, transformAll_eq]
  simp only [flat, Transform.flush]

end

theorem output_chunking_independent (ν : Type) [Numbers ν] (workspace : Workspace) (text : List Char)
    (chunks : List (List UInt8)) (stream : chunks.flatten = Utf8.encode text)
    (aligned : Utf8.Aligned chunks) :
    output ν workspace chunks = output ν workspace [Utf8.encode text] := by
  rw [output_eq, output_eq, chunkTexts stream aligned, List.map_singleton, List.flatten_singleton, chunkText_encode]

/-- The stream is read as it is exactly if no chunk begins inside a character. -/
theorem chunkTexts_iff {text : List Char} {chunks : List (List UInt8)} (stream : chunks.flatten = Utf8.encode text) :
    (chunks.map chunkText).flatten = Utf16.encode text ↔ Utf8.Aligned chunks := by
  have texts : (chunks.map chunkText).flatten = Utf16.encode (chunks.map Utf8.decode).flatten := by
    clear stream
    induction chunks with
    | nil => rfl
    | cons chunk chunks ih =>
        rw [List.map_cons, List.flatten_cons, ih, List.map_cons, List.flatten_cons, Utf16.encode_append, chunkText]
  constructor
  · intro same
    refine Utf8.aligned_of_decode stream ?_
    have read := congrArg Utf16.decode (texts.symm.trans same)
    rwa [Utf16.decode_encode, Utf16.decode_encode] at read
  · exact chunkTexts stream

/-- The two bytes of a character come apart. -/
theorem chunkTexts_iff_apart : ([[0xc3], [0xa9]].map chunkText).flatten = Utf16.encode ['é'] ↔ Utf8.Aligned [[0xc3], [0xa9]] :=
  chunkTexts_iff (by decide)

def sample : Workspace := ⟨ascii "w", none, none, none, none⟩

/-- A data line that is cut between two of its characters. -/
theorem output_chunking_independent_cut : [Utf8.encode "data: \"".toList, Utf8.encode "é\"\n\n".toList].flatten =
        Utf8.encode "data: \"é\"\n\n".toList ∧
      output Literal sample [Utf8.encode "data: \"".toList, Utf8.encode "é\"\n\n".toList] =
        output Literal sample [Utf8.encode "data: \"é\"\n\n".toList] :=
  ⟨by decide, output_chunking_independent Literal sample "data: \"é\"\n\n".toList _ (by decide)
    (Utf8.aligned_of_all (by decide))⟩

/-- A data line that is cut inside of the two bytes of a character. -/
theorem cut_character_is_replaced :
    (Utf8.encode "data: \"é\"\n\n".toList).take 8 = Utf8.encode "data: \"".toList ++ [0xc3] ∧
      output Literal sample [(Utf8.encode "data: \"é\"\n\n".toList).take 8,
          (Utf8.encode "data: \"é\"\n\n".toList).drop 8] ≠
        output Literal sample [Utf8.encode "data: \"é\"\n\n".toList] := by
  decide +kernel

end SseScope
