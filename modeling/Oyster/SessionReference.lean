import Oyster.Text

/-! Session identities and the codec that validates them. The path functions of
the host are a parameter: only what `validate` makes of their results matters. -/
namespace SessionReference
open Text

inductive Backend where
  | jsonl | sqlite
  | claudeCode | codex | gemini | amp | antigravity
  deriving DecidableEq

/-- The backends whose harness keeps the sessions itself, without a path. -/
def Backend.external : Backend → Bool
  | .jsonl | .sqlite => false
  | .claudeCode | .codex | .gemini | .amp | .antigravity => true

def Backend.name : Backend → String
  | .jsonl => "jsonl"
  | .sqlite => "sqlite"
  | .claudeCode => "claude-code"
  | .codex => "codex"
  | .gemini => "gemini"
  | .amp => "amp"
  | .antigravity => "antigravity"

structure Reference where
  backend : Backend
  id : String
  storagePath : Option String
  deriving DecidableEq

/-- `resolve`, `relative` and `isAbsolute` of the host's path module. A resolved
path is absolute and normal, so resolving it again changes nothing. -/
structure NodePath where
  resolve : String → String
  relative : String → String → String
  isAbsolute : String → Bool
  resolve_resolve : ∀ p, resolve (resolve p) = resolve p

structure Codec where
  path : NodePath
  jsonlRoot : String
  sqlitePath : String

def maxSessionReferenceLength : Nat := 256

def requireId (value : String) : Except String String :=
  let s := value.toList
  if s.isEmpty || !trimmed s || maxSessionReferenceLength < utf16Length s || s.any isControl then
    .error "session reference id must be a trimmed string of 1–256 characters without control characters"
  else .ok value

namespace Codec
variable (codec : Codec)

def confinedTo (path root : String) : Bool :=
  let rel := codec.path.relative root path
  rel == "" || (!"..".toList.isPrefixOf rel.toList && !codec.path.isAbsolute rel)

def validateStoragePath (backend : Backend) (value : Option String) : Except String String :=
  match value with
  | none => .error "session reference storagePath is required"
  | some value =>
    let storagePath := codec.path.resolve value
    if value == "" then .error "session reference storagePath is required"
    else if backend == .jsonl && (!".jsonl".toList.isSuffixOf storagePath.toList
        || !codec.confinedTo storagePath codec.jsonlRoot || storagePath == codec.jsonlRoot) then
      .error s!"JSONL session path must be a .jsonl file under {codec.jsonlRoot}"
    else if backend == .sqlite && storagePath != codec.sqlitePath then
      .error s!"SQLite session database must be {codec.sqlitePath}"
    else .ok storagePath

def validate (reference : Reference) : Except String Reference := do
  let id ← requireId reference.id
  if reference.backend.external then
    if reference.storagePath.isSome then
      let backend := reference.backend.name
      throw s!"{backend} session references do not use a storagePath"
    return ⟨reference.backend, id, none⟩
  let storagePath ← codec.validateStoragePath reference.backend reference.storagePath
  return ⟨reference.backend, id, some storagePath⟩

def equals (left right : Reference) : Except String Bool := do
  let a ← codec.validate left
  let b ← codec.validate right
  return a.backend == b.backend && a.id == b.id && a.storagePath == b.storagePath

variable {reference : Reference}

theorem equals_self {same : Bool} (h : codec.equals reference reference = .ok same) : same = true := by
  unfold equals at h
  cases valid : codec.validate reference with
  | error text =>
    rw [valid] at h
    cases h
  | ok a =>
    rw [valid] at h
    cases h
    simp

theorem requireId_eq {value id : String} (h : requireId value = .ok id) : id = value := by
  unfold requireId at h
  simp only at h
  split_ifs at h
  exact (Except.ok.inj h).symm

theorem validateStoragePath_eq {backend : Backend} {value : Option String} {storagePath : String}
    (h : codec.validateStoragePath backend value = .ok storagePath) :
    ∃ p, value = some p ∧ storagePath = codec.path.resolve p := by
  cases value with
  | none => cases h
  | some p =>
    simp only [validateStoragePath] at h
    split_ifs at h
    exact ⟨p, rfl, (Except.ok.inj h).symm⟩

theorem validate_cases {valid : Reference} (h : codec.validate reference = .ok valid) :
    (reference.backend.external = true ∧ valid = ⟨reference.backend, reference.id, none⟩) ∨
      ∃ p, reference.backend.external = false ∧ reference.storagePath = some p ∧
        valid = ⟨reference.backend, reference.id, some (codec.path.resolve p)⟩ := by
  unfold validate at h
  cases hid : requireId reference.id with
  | error text =>
    rw [hid] at h
    cases h
  | ok id =>
    obtain rfl := requireId_eq hid
    rw [hid] at h
    cases external : reference.backend.external with
    | true =>
      cases path : reference.storagePath with
      | some p => simp [external, path, bind, Except.bind, throw, throwThe, MonadExceptOf.throw] at h
      | none =>
        simp [external, path, bind, Except.bind, pure, Except.pure] at h
        exact .inl ⟨rfl, h.symm⟩
    | false =>
      cases hpath : codec.validateStoragePath reference.backend reference.storagePath with
      | error text => simp [external, hpath, bind, Except.bind] at h
      | ok storagePath =>
        obtain ⟨p, same, rfl⟩ := codec.validateStoragePath_eq hpath
        simp [external, hpath, bind, Except.bind, pure, Except.pure] at h
        exact .inr ⟨p, rfl, same, h.symm⟩

theorem validate_validate {valid again : Reference} (h : codec.validate reference = .ok valid)
    (h' : codec.validate valid = .ok again) : again = valid := by
  rcases codec.validate_cases h with ⟨external, rfl⟩ | ⟨p, external, _, rfl⟩
  · rcases codec.validate_cases h' with ⟨_, rfl⟩ | ⟨_, _, absurd, _⟩
    · rfl
    · cases absurd
  · rcases codec.validate_cases h' with ⟨absurd, _⟩ | ⟨q, _, same, rfl⟩
    · simp [external] at absurd
    · cases same
      simp only [codec.path.resolve_resolve]

end Codec
end SessionReference
