import Oyster.SessionBranchAgreement

/-! Forking a session: the ancestors of an entry are written to a file of their own, under a
header that names the session they come from. The walk up fails at an entry that it has met
before, where the reader of a branch stops. -/
namespace SessionBranch
open Json ScopedIdentity ParentRelation

variable {ν : Type} [Numbers ν]

/-- The new file and what the call returns. -/
structure Fork where
  path : CodeUnits
  id : CodeUnits
  entryIds : List CodeUnits
  text : CodeUnits

def linesOf (objects : List (Members ν)) : CodeUnits :=
  [0x0a].intercalate (objects.map fun e => print (.obj e)) ++ [0x0a]

def readSession (bytes : List UInt8) : SessionFile ν := parseSessionFile (Utf16.encode (Utf8.decode bytes))

def Fork.bytes (fork : Fork) : List UInt8 := Utf8.encode (Utf16.decode fork.text)

section
variable {file : SessionFile ν} {byId : OrderedMap CodeUnits (Members ν)}

/-- Ids that have not been seen, each once. -/
structure Fresh (seen : List CodeUnits) (chain : List (Members ν)) : Prop where
  named : ∀ e ∈ chain, (entryId e).isSome = true
  distinct : (chain.map entryId).Nodup
  unseen : ∀ e ∈ chain, (entryId e).getD [] ∉ seen

omit [Numbers ν] in
theorem Fresh.tail {seen : List CodeUnits} {e : Members ν} {chain : List (Members ν)} (h : Fresh seen (e :: chain)) :
    Fresh (seen ++ [(entryId e).getD []]) chain := by
  obtain ⟨out, distinct⟩ := List.nodup_cons.mp h.distinct
  refine ⟨fun x hx => h.named x (List.mem_cons_of_mem _ hx), distinct, fun x hx again => ?_⟩
  obtain old | last := List.mem_append.mp again
  · exact h.unseen x (List.mem_cons_of_mem _ hx) old
  · obtain ⟨key, own⟩ := Option.isSome_iff_exists.mp (h.named e (List.mem_cons_self ..))
    obtain ⟨key', own'⟩ := Option.isSome_iff_exists.mp (h.named x (List.mem_cons_of_mem _ hx))
    have same := List.mem_singleton.mp last
    rw [own, own', Option.getD_some, Option.getD_some] at same
    exact out (List.mem_map.mpr ⟨x, hx, by rw [own, own', same]⟩)

/-- What `parse` makes of the lines that hold a header or an entry. -/
structure WellRead (file : SessionFile ν) : Prop where
  header : ∀ h, file.header = some h → Canonical (.obj h) ∧ textMember h "type" = some (ascii "session")
  entries : ∀ e ∈ file.entries, Canonical (.obj e) ∧ textMember e "type" ≠ some (ascii "session")

theorem WellRead.readLine (h : WellRead file) (line : CodeUnits) : WellRead (file.readLine line) := by
  unfold SessionFile.readLine
  split
  · rename_i e found
    have canonical := parse_canonical found
    split_ifs with typed named
    · refine ⟨fun other same => ?_, h.entries⟩
      cases header : file.header with
      | some first =>
        rw [header] at same
        exact h.header other (header.trans same)
      | none =>
        rw [header] at same
        cases same
        exact ⟨canonical, typed⟩
    all_goals
      refine ⟨h.header, fun e' mem => ?_⟩
      obtain old | new := List.mem_append.mp mem
      · exact h.entries e' old
      · exact List.mem_singleton.mp new ▸ ⟨canonical, typed⟩
  · exact h

theorem Fork.read (fork : Fork) (wellFormed : Utf16.WellFormed fork.text) :
    (readSession fork.bytes : SessionFile ν) = parseSessionFile fork.text := by
  rw [readSession, Fork.bytes, Utf8.decode_encode, Utf16.encode_decode wellFormed]

variable (getTime : Option (Value ν) → Value ν) (env : Surroundings) (sessionPath : CodeUnits)
  (forkedAtHash : Option CodeUnits)

end

def encodeLines (lines : List String) : List UInt8 := Utf8.encode ("\n".intercalate lines).toList

def answered : List UInt8 := encodeLines
  ["\x7b\"type\":\"session\",\"id\":\"s\"\x7d", "\x7b\"type\":\"message\",\"id\":\"q\"\x7d",
    "\x7b\"type\":\"message\",\"id\":\"a\",\"parentId\":\"q\"\x7d"]

def infinite : List UInt8 := encodeLines
  ["\x7b\"type\":\"session\",\"id\":\"s\"\x7d", "\x7b\"type\":\"message\",\"id\":\"a\",\"n\":1e400\x7d"]

instance overflowingNumbers : Numbers (Option Literal) where
  value literal := if literal.text = ascii "1e400" then none else some literal
  literal := id
  text x := match x with
    | some literal => literal.text
    | none => ascii "Infinity"
  isZero x := x.any Numbers.isZero

end SessionBranch
