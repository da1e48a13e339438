import Oyster.PosixPath
import Oyster.ScopedIdentity
import Oyster.SessionReference

/-! The opaque keys of session references. A key is the base64url form of the UTF-8 bytes of a
JSON text; `parse` takes a key only if its text is the one that `serialize` writes. -/
namespace SessionKeys
open Json ScopedIdentity
open SessionReference (Backend maxSessionReferenceLength)

/-- The text of a message, which may have characters outside ASCII. -/
def message (s : String) : CodeUnits := Utf16.encode s.toList

def backends : List Backend := [.jsonl, .sqlite, .claudeCode, .codex, .gemini, .amp, .antigravity]

structure Reference where
  backend : Backend
  id : CodeUnits
  storagePath : Option CodeUnits
  deriving DecidableEq

/-- `resolve`, `relative` and `isAbsolute` of the host's path module. A resolved path is
absolute and normal. -/
structure Paths where
  resolve : CodeUnits → CodeUnits
  relative : CodeUnits → CodeUnits → CodeUnits
  isAbsolute : CodeUnits → Bool
  resolve_resolve : ∀ p, resolve (resolve p) = resolve p
  resolve_ne_nil : ∀ p, resolve p ≠ []

structure Codec where
  path : Paths
  resolvedJsonlRoot : CodeUnits
  resolvedSqlitePath : CodeUnits

/-- The units that `String.prototype.trim` takes away. -/
def isWhiteSpace (u : UInt16) : Bool :=
  let n := u.toNat
  (0x09 ≤ n && n ≤ 0x0d) || (0x2000 ≤ n && n ≤ 0x200a) ||
    n ∈ [0x20, 0xa0, 0x1680, 0x2028, 0x2029, 0x202f, 0x205f, 0x3000, 0xfeff]

def trim (s : CodeUnits) : CodeUnits :=
  ((s.dropWhile isWhiteSpace).reverse.dropWhile isWhiteSpace).reverse

def isControl (u : UInt16) : Bool :=
  u.toNat ≤ 0x1f || (0x7f ≤ u.toNat && u.toNat ≤ 0x9f)

section
variable {ν : Type} [Numbers ν]

def requireId (value : Option (Value ν)) : Except CodeUnits CodeUnits :=
  match value with
  | some (.str s) =>
    if s.isEmpty || s ≠ trim s || maxSessionReferenceLength < s.length || s.any isControl then
      .error (message "session reference id must be a trimmed string of 1–256 characters without control characters")
    else .ok s
  | _ => .error (message "session reference id must be a trimmed string of 1–256 characters without control characters")

/-- `BACKENDS.has` of a value. -/
def backendOf : Option (Value ν) → Option Backend
  | some (.str s) => backends.find? fun backend => ascii backend.name = s
  | _ => none

def unsupported (backend : Option (Value ν)) : CodeUnits :=
  match backend with
  | none | some .null => message "unsupported session reference backend: missing"
  | some v =>
    match toText v with
    | some text => message "unsupported session reference backend: " ++ text
    | none => message "Cannot convert object to primitive value"

namespace Codec
variable (codec : Codec)

def confinedTo (path root : CodeUnits) : Bool :=
  let rel := codec.path.relative root path
  rel.isEmpty || (!(ascii "..").isPrefixOf rel && !codec.path.isAbsolute rel)

def validateStoragePath (backend : Backend) (value : Option (Value ν)) : Except CodeUnits CodeUnits :=
  match value with
  | some (.str value) =>
    if value.isEmpty then .error (message "session reference storagePath is required")
    else
      let storagePath := codec.path.resolve value
      if backend = .jsonl ∧ (!(ascii ".jsonl").isSuffixOf storagePath ||
          !codec.confinedTo storagePath codec.resolvedJsonlRoot || storagePath = codec.resolvedJsonlRoot) then
        .error (message "JSONL session path must be a .jsonl file under " ++ codec.resolvedJsonlRoot)
      else if backend = .sqlite ∧ storagePath ≠ codec.resolvedSqlitePath then
        .error (message "SQLite session database must be " ++ codec.resolvedSqlitePath)
      else .ok storagePath
  | _ => .error (message "session reference storagePath is required")

/-- `validate` of an object with these three properties. -/
def validateFields (backend id storagePath : Option (Value ν)) : Except CodeUnits Reference :=
  match backendOf backend with
  | none => .error (unsupported backend)
  | some name =>
    match requireId id with
    | .error text => .error text
    | .ok id =>
      if name.external then
        match storagePath with
        | none | some .null => .ok ⟨name, id, none⟩
        | some _ => .error (message name.name ++ message " session references do not use a storagePath")
      else (codec.validateStoragePath name storagePath).map fun path => ⟨name, id, some path⟩

def validate (reference : Value ν) : Except CodeUnits Reference :=
  match reference with
  | .obj _ => codec.validateFields (get reference "backend") (get reference "id") (get reference "storagePath")
  | _ => .error (message "session reference must be an object")

end Codec

def Reference.path (reference : Reference) : Value ν :=
  match reference.storagePath with
  | some path => .str path
  | none => .null

/-- The frozen object that `validate` returns. -/
def Reference.value (reference : Reference) : Value ν :=
  .obj [(ascii "backend", .str (ascii reference.backend.name)), (ascii "id", .str reference.id),
    (ascii "storagePath", reference.path)]

end

section
variable (ν : Type) [Numbers ν]

/-- The canonical text of a valid reference. -/
def Reference.payload (reference : Reference) : CodeUnits :=
  print (.obj [(ascii "b", .str (ascii reference.backend.name)), (ascii "i", .str reference.id),
    (ascii "p", reference.path)] : Value ν)

def keyPrefix : CodeUnits := ascii "ps1_"

def keyOf (text : CodeUnits) : CodeUnits := keyPrefix ++ Base64Url.encode (Utf8.encode (Utf16.decode text))

def isKeyUnit (u : UInt16) : Bool :=
  let n := u.toNat
  (0x41 ≤ n && n ≤ 0x5a) || (0x61 ≤ n && n ≤ 0x7a) || (0x30 ≤ n && n ≤ 0x39) || n = 0x5f || n = 0x2d

namespace Codec
variable (codec : Codec)

def serialize (reference : Value ν) : Except CodeUnits CodeUnits :=
  (codec.validate reference).map fun valid => keyOf (valid.payload ν)

/-- What the `try` of `parse` makes of the part after the prefix. -/
def parsePayload (encoded : CodeUnits) : Option Reference :=
  let bytes := Base64Url.decode encoded
  if Base64Url.encode bytes ≠ encoded then none
  else
    let text := Utf16.encode (Utf8.decode bytes)
    match (Json.parse text : Option (Value ν)) with
    | some (.obj members) =>
      let payload : Value ν := .obj members
      match codec.validateFields (get payload "b") (get payload "i") (get payload "p") with
      | .ok reference => if text = reference.payload ν then some reference else none
      | .error _ => none
    | _ => none

def parse (key : CodeUnits) : Except CodeUnits Reference :=
  let encoded := key.drop keyPrefix.length
  if !keyPrefix.isPrefixOf key || encoded.isEmpty || !encoded.all isKeyUnit then
    .error (message "invalid session key format")
  else
    match codec.parsePayload ν encoded with
    | some reference => .ok reference
    | none => .error (message "invalid session key payload")

end Codec
end

section
variable {ν : Type} [Numbers ν]

omit [Numbers ν] in
theorem backendOf_name (backend : Backend) :
    backendOf (some (.str (ascii backend.name)) : Option (Value ν)) = some backend := by
  cases backend <;> rfl

omit [Numbers ν] in
theorem requireId_eq {value : Option (Value ν)} {id : CodeUnits} (h : requireId value = .ok id) :
    value = some (.str id) := by
  unfold requireId at h
  split at h
  · split_ifs at h
    rw [Except.ok.inj h]
  · cases h

namespace Codec
variable {codec : Codec}

omit [Numbers ν] in
theorem validateStoragePath_again {backend : Backend} {value : Option (Value ν)} {path : CodeUnits}
    (h : codec.validateStoragePath backend value = .ok path) :
    codec.validateStoragePath backend (some (.str path) : Option (Value ν)) = .ok path := by
  unfold validateStoragePath at h
  split at h
  · rename_i value
    dsimp only at h
    split_ifs at h with empty jsonl sqlite
    cases h
    have nonempty : ¬(codec.path.resolve value).isEmpty = true :=
      fun found => codec.path.resolve_ne_nil value (List.isEmpty_iff.mp found)
    unfold validateStoragePath
    dsimp only
    rw [if_neg nonempty, codec.path.resolve_resolve, if_neg jsonl, if_neg sqlite]
  · cases h

variable {valid : Reference}

theorem validateFields_again {backend id storagePath : Option (Value ν)}
    (h : codec.validateFields backend id storagePath = .ok valid) :
    codec.validateFields (some (.str (ascii valid.backend.name)) : Option (Value ν)) (some (.str valid.id))
      (some valid.path) = .ok valid := by
  unfold validateFields at h
  cases named : backendOf backend with
  | none =>
    rw [named] at h
    cases h
  | some name =>
    cases identified : requireId id with
    | error text =>
      rw [named, identified] at h
      cases h
    | ok key =>
      rw [named, identified] at h
      dsimp only at h
      have own : requireId (some (.str key) : Option (Value ν)) = .ok key :=
        requireId_eq identified ▸ identified
      split_ifs at h with external
      · have none_path : valid = ⟨name, key, none⟩ := by
          split at h
          · exact (Except.ok.inj h).symm
          · exact (Except.ok.inj h).symm
          · cases h
        rw [none_path, validateFields, backendOf_name]
        rw [own]
        dsimp only
        rw [if_pos external]
        rfl
      · cases located : codec.validateStoragePath name storagePath with
        | error text =>
          rw [located] at h
          cases h
        | ok path =>
          rw [located] at h
          cases h
          rw [validateFields, backendOf_name]
          rw [own]
          dsimp only
          rw [if_neg external]
          change (codec.validateStoragePath name (some (.str path) : Option (Value ν))).map _ = _
          rw [validateStoragePath_again located]
          rfl

theorem validate_again {reference : Value ν} (h : codec.validate reference = .ok valid) :
    codec.validate (valid.value : Value ν) = .ok valid := by
  unfold validate at h
  split at h
  · exact validateFields_again h
  · cases h

end Codec

theorem isKeyUnit_digit {n : Nat} (h : n < 64) : isKeyUnit (Base64Url.digit n) = true := by
  have all : ∀ n, n < 64 → isKeyUnit (Base64Url.digit n) = true := by decide
  exact all n h

theorem isKeyUnit_encode (bytes : List UInt8) : (Base64Url.encode bytes).all isKeyUnit = true := by
  refine List.all_eq_true.mpr fun u mem => ?_
  obtain ⟨n, inside, rfl⟩ := List.mem_map.mp mem
  exact isKeyUnit_digit (Base64Url.sextets_small bytes n inside)

theorem encode_injective {a b : List UInt8} (same : Base64Url.encode a = Base64Url.encode b) : a = b := by
  rw [← Base64Url.decode_encode a, same, Base64Url.decode_encode]

theorem payload_wellFormed (reference : Reference) : Utf16.WellFormed (reference.payload ν) :=
  (plain_print _).wellFormed

theorem parse_payload (reference : Reference) : (Json.parse (reference.payload ν) : Option (Value ν)) =
      some (.obj [(ascii "b", .str (ascii reference.backend.name)), (ascii "i", .str reference.id),
        (ascii "p", reference.path)]) := by
  have canonical : Canonical (.obj [(ascii "b", .str (ascii reference.backend.name)), (ascii "i", .str reference.id),
      (ascii "p", reference.path)] : Value ν) := by
    have keys : ([ascii "b", ascii "i", ascii "p"] : List CodeUnits).Pairwise fun a b => a ≠ b ∧ precedes b a = false := by
      decide
    refine .obj ((ordered_iff_keys _).mpr keys) ?_
    simp only [List.forall_mem_cons, List.not_mem_nil, false_implies, implies_true, and_true]
    refine ⟨.str _, .str _, ?_⟩
    unfold Reference.path
    cases reference.storagePath with
    | none => exact .null
    | some path => exact .str path
  unfold Reference.payload
  rw [parse_print canonical]
  unfold Reference.path
  cases reference.storagePath <;> rfl

theorem validateFields_payload {codec : Codec} {reference : Value ν} {valid : Reference}
    (h : codec.validate reference = .ok valid) :
    let payload : Value ν := .obj [(ascii "b", .str (ascii valid.backend.name)), (ascii "i", .str valid.id),
      (ascii "p", valid.path)]
    codec.validateFields (get payload "b") (get payload "i") (get payload "p") = .ok valid :=
  Codec.validate_again h

namespace Codec
variable {codec : Codec}

/-- What `parse` checks, and what it makes of the key. -/
theorem parse_ok {key : CodeUnits} {reference : Reference} (h : codec.parse ν key = .ok reference) :
    ∃ bytes, key = keyPrefix ++ Base64Url.encode bytes ∧ Utf16.encode (Utf8.decode bytes) = reference.payload ν ∧
      codec.validate (reference.value : Value ν) = .ok reference := by
  unfold parse at h
  dsimp only at h
  split_ifs at h with format
  rw [Bool.or_eq_true, Bool.or_eq_true, not_or, not_or] at format
  obtain ⟨rest, rfl⟩ : keyPrefix <+: key := List.isPrefixOf_iff_prefix.mp (by simpa using format.1.1)
  rw [List.drop_left] at h
  cases read : codec.parsePayload ν rest with
  | none =>
    rw [read] at h
    cases h
  | some found =>
    rw [read] at h
    cases h
    unfold parsePayload at read
    dsimp only at read
    split_ifs at read with canonical
    split at read
    · split at read
      · rename_i valid
        split_ifs at read with same
        cases read
        exact ⟨_, congrArg (keyPrefix ++ ·) (not_not.mp canonical).symm, same, validateFields_again valid⟩
      · cases read
    · cases read

theorem parse_keyOf {reference : Value ν} {valid : Reference} (h : codec.validate reference = .ok valid) :
    codec.parse ν (keyOf (valid.payload ν)) = .ok valid := by
  have text : Utf16.encode (Utf8.decode (Utf8.encode (Utf16.decode (valid.payload ν)))) = valid.payload ν := by
    rw [Utf8.decode_encode, Utf16.encode_decode (payload_wellFormed valid)]
  have read : codec.parsePayload ν (Base64Url.encode (Utf8.encode (Utf16.decode (valid.payload ν)))) = some valid := by
    unfold parsePayload
    dsimp only
    rw [Base64Url.decode_encode, if_neg (not_not.mpr rfl), text, parse_payload]
    dsimp only
    rw [validateFields_payload h]
    exact if_pos rfl
  have filled : (Base64Url.encode (Utf8.encode (Utf16.decode (valid.payload ν)))).isEmpty = false := by
    refine List.isEmpty_eq_false_iff.mpr fun none => ?_
    have empty : Utf8.encode (Utf16.decode (valid.payload ν)) = [] := encode_injective (none.trans rfl)
    rw [empty] at text
    cases text
  unfold parse keyOf
  dsimp only
  rw [List.drop_left, filled, isKeyUnit_encode, List.isPrefixOf_iff_prefix.mpr (List.prefix_append ..)]
  rw [if_neg (by decide), read]

end Codec

def keyBytes (key : CodeUnits) : List UInt8 := Base64Url.decode (key.drop keyPrefix.length)

/-- The key of a valid reference is read as that reference. A key that is taken is the key of
what it is read as exactly when its bytes are UTF-8, and no two such keys are read as the same. -/
theorem keys_faithful (codec : Codec) :
    (∀ (reference : Value ν) (valid : Reference), codec.validate reference = .ok valid →
      ∃ key, codec.serialize ν reference = .ok key ∧ codec.parse ν key = .ok valid) ∧
    (∀ (key : CodeUnits) (reference : Reference), codec.parse ν key = .ok reference →
      (codec.serialize ν reference.value = .ok key ↔ Utf8.WellFormed (keyBytes key))) ∧
    (∀ (key other : CodeUnits) (reference : Reference), codec.parse ν key = .ok reference →
      codec.parse ν other = .ok reference → Utf8.WellFormed (keyBytes key) → Utf8.WellFormed (keyBytes other) →
      key = other) := by
  have own : ∀ (key : CodeUnits) (reference : Reference), codec.parse ν key = .ok reference →
      (codec.serialize ν reference.value = .ok key ↔ Utf8.WellFormed (keyBytes key)) := by
    intro key reference parsed
    obtain ⟨bytes, rfl, text, valid⟩ := Codec.parse_ok parsed
    have inside : keyBytes (keyPrefix ++ Base64Url.encode bytes) = bytes := by
      rw [keyBytes, List.drop_left, Base64Url.decode_encode]
    have written : keyOf (reference.payload ν) = keyPrefix ++ Base64Url.encode (Utf8.encode (Utf8.decode bytes)) := by
      rw [keyOf, ← text, Utf16.decode_encode]
    unfold Codec.serialize
    rw [valid, inside, Utf8.wellFormed_iff]
    constructor
    · intro same
      have same : keyOf (reference.payload ν) = keyPrefix ++ Base64Url.encode bytes := Except.ok.inj same
      rw [written] at same
      exact encode_injective (List.append_cancel_left same)
    · intro same
      rw [same] at written
      exact congrArg Except.ok written
  refine ⟨fun reference valid h => ?_, own, fun key other reference parsed parsed' first second => ?_⟩
  · refine ⟨keyOf (valid.payload ν), ?_, Codec.parse_keyOf h⟩
    unfold Codec.serialize
    rw [h]
    rfl
  · have same := (own key reference parsed).mpr first
    have same' := (own other reference parsed').mpr second
    exact Except.ok.inj (same.symm.trans same')

end

/-- The path functions of a process in the root directory. -/
def posix : Paths where
  resolve := PosixPath.resolve
  relative := PosixPath.relative
  isAbsolute := PosixPath.isAbsolute
  resolve_resolve := PosixPath.resolve_resolve
  resolve_ne_nil := PosixPath.resolve_ne_nil

def codec : Codec where
  path := posix
  resolvedJsonlRoot := ascii "/root/sessions"
  resolvedSqlitePath := ascii "/root/sessions.sqlite"

def codexBytes (id : List UInt8) : List UInt8 :=
  let bytes : String → List UInt8 := fun s => Utf8.encode s.toList
  bytes "\x7b\"b\":\"codex\",\"i\":\"" ++ id ++ bytes "\",\"p\":null\x7d"

def replacementKey : CodeUnits := keyPrefix ++ Base64Url.encode (codexBytes [0xef, 0xbf, 0xbd])

/-- The same key, but for a byte that no character begins with. -/
def strayKey : CodeUnits := keyPrefix ++ Base64Url.encode (codexBytes [0xff])

/-- Only the decoded text is compared with the canonical one, so that a key with a stray byte
is taken for the session whose id has the replacement character there. -/
theorem stray_key_taken : replacementKey ≠ strayKey ∧ codec.parse Literal strayKey = .ok ⟨.codex, [0xfffd], none⟩ ∧
    codec.parse Literal replacementKey = .ok ⟨.codex, [0xfffd], none⟩ ∧
    codec.serialize Literal (Reference.value ⟨.codex, [0xfffd], none⟩) = .ok replacementKey := by
  decide +kernel

/-- A session file is named by its resolved path. -/
theorem keys_faithful_jsonl :
    ∃ key, codec.serialize Literal (.obj [(ascii "backend", .str (ascii "jsonl")), (ascii "id", .str (ascii "s")),
        (ascii "storagePath", .str (ascii "/root/./sessions//a.jsonl"))]) = .ok key ∧
      codec.parse Literal key = .ok ⟨.jsonl, ascii "s", some (ascii "/root/sessions/a.jsonl")⟩ :=
  (keys_faithful codec).1 _ _ (by decide +kernel)

end SessionKeys
