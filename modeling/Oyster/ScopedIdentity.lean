import Oyster.Base64Url
import Oyster.Json

/-! Identities of the workspaces behind the hub. An identity that leaves the hub carries
its workspace and its kind; one that comes back is recognised by its shape. -/
namespace ScopedIdentity
open Json

def scopePrefix : CodeUnits := ascii "oh1."

def sessionScopePrefix : CodeUnits := ascii "ps1_oh1."

structure Identity where
  workspaceId : CodeUnits
  kind : CodeUnits
  value : CodeUnits

section
variable (ν : Type) [Numbers ν]

/-- The bytes of the text of the three strings. -/
def identityBytes (identity : Identity) : List UInt8 :=
  Utf8.encode (Utf16.decode (print (.arr [.str identity.workspaceId, .str identity.kind,
    .str identity.value] : Value ν)))

/-- `scopeValue` of a value that is not empty. -/
def scopeText (identity : Identity) (sessionKey : Bool) : CodeUnits :=
  (if sessionKey then sessionScopePrefix else scopePrefix) ++ Base64Url.encode (identityBytes ν identity)

def scopedPart (value : CodeUnits) : Option CodeUnits :=
  if sessionScopePrefix.isPrefixOf value then some (value.drop sessionScopePrefix.length)
  else if scopePrefix.isPrefixOf value then some (value.drop scopePrefix.length)
  else none

def parseScopedValue (value : CodeUnits) : Option Identity :=
  match scopedPart value with
  | none => none
  | some part =>
    match (parse (Utf16.encode (Utf8.decode (Base64Url.decode part))) : Option (Value ν)) with
    | some (.arr [.str workspaceId, .str kind, .str value]) => some ⟨workspaceId, kind, value⟩
    | _ => none

end

section
variable {ν : Type} [Numbers ν]

def truthy : Option (Value ν) → Bool
  | none | some .null => false
  | some (.bool b) => b
  | some (.num x) => !Numbers.isZero x
  | some (.str s) => !s.isEmpty
  | some (.arr _) | some (.obj _) => true

mutual

/-- `String(value)`. An object whose own `toString` hides the inherited one has no text. -/
def toText : Value ν → Option CodeUnits
  | .null => some (ascii "null")
  | .bool true => some (ascii "true")
  | .bool false => some (ascii "false")
  | .num x => some (Numbers.text x)
  | .str s => some s
  | .arr items => joinTexts items
  | .obj members => if (lookup members (ascii "toString")).isSome then none else some (ascii "[object Object]")

/-- `join(",")`, in which a null is empty. -/
def joinTexts : List (Value ν) → Option CodeUnits
  | [] => some []
  | v :: items => do
      let text ← match v with
        | .null => some []
        | v => toText v
      let more ← joinMoreTexts items
      return text ++ more

def joinMoreTexts : List (Value ν) → Option CodeUnits
  | [] => some []
  | v :: items => do
      let text ← match v with
        | .null => some []
        | v => toText v
      let more ← joinMoreTexts items
      return 0x2c :: text ++ more

end

/-- A property of a value that is neither null nor undefined. -/
def get (v : Value ν) (key : String) : Option (Value ν) :=
  match v with
  | .obj members => lookup members (ascii key)
  | _ => none

/-- The first of the properties that is neither undefined nor null. -/
def coalesce (v : Value ν) : List String → Option (Value ν)
  | [] => none
  | [key] => get v key
  | key :: keys =>
    match get v key with
    | none | some .null => coalesce v keys
    | some value => some value

def scopeValue (workspaceId : CodeUnits) (kind : String) (value : Option (Value ν)) (sessionKey : Bool) :
    Option (Value ν) :=
  match value with
  | none | some .null => some .null
  | some (.str []) => some (.str [])
  | some value => (toText value).map fun text => .str (scopeText ν ⟨workspaceId, ascii kind, text⟩ sessionKey)

end
end ScopedIdentity
