import Oyster.Replacement
import Oyster.StringDecoder

/-! The output of a child process on its way to the log: the secrets that were handed to the child are
replaced. Text is held back to the last line break; when a line grows past a limit, it is cut where no
secret that is still arriving can begin, and the cut is moved to the front of a secret it falls into. -/

namespace SecretOutput

open Replacement

def newline : UInt16 := 0x0a

def redacted : CodeUnits := Utf16.encode "[REDACTED]".toList

def limit : Nat := 1024 * 1024

def lastIndexFrom (text value : CodeUnits) : Nat → Int
  | 0 => if value <+: text then 0 else -1
  | n + 1 => if value <+: text.drop (n + 1) then (n + 1 : Nat) else lastIndexFrom text value n

def lastIndexOf (text value : CodeUnits) (position : Int) : Int :=
  lastIndexFrom text value (min position.toNat text.length)

/-- Where an index of `slice` stands: a negative one counts from the end. -/
def place (text : CodeUnits) (index : Int) : Nat :=
  if index < 0 then (text.length + index).toNat else min index.toNat text.length

def values (secrets : List CodeUnits) : List CodeUnits := (secrets.filter fun value => value ≠ []).eraseDups

def overlap (values : List CodeUnits) : Nat := (values.map List.length).foldl max 0 - 1

/-- Behind the last line break, or, in a line past the limit, ahead of what may still be arriving. -/
def boundary (values : List CodeUnits) (pending : CodeUnits) : Int :=
  let index := lastIndexOf pending [newline] pending.length + 1
  if index = 0 ∧ limit < pending.length then pending.length - overlap values else index

def adjust (pending : CodeUnits) (cut : Int) (value : CodeUnits) : Int :=
  let index := lastIndexOf pending value (cut - 1)
  if 0 ≤ index ∧ cut < index + value.length then index else cut

def cutOf (values : List CodeUnits) (pending : CodeUnits) : Nat :=
  place pending (values.foldl (adjust pending) (boundary values pending))

/-- What is pushed, and what is held back. -/
def transform (values : List CodeUnits) (pending : CodeUnits) : List CodeUnits × CodeUnits :=
  if boundary values pending = 0 then ([], pending)
  else ([redact redacted values (pending.take (cutOf values pending))], pending.drop (cutOf values pending))

def pushed (decoder : StringDecoder) (values : List CodeUnits) :
    decoder.State → CodeUnits → List (List UInt8) → List CodeUnits
  | s, pending, [] => [redact redacted values (pending ++ Utf16.encode (decoder.finish s))]
  | s, pending, chunk :: chunks =>
    let next := transform values (pending ++ Utf16.encode (decoder.write s chunk).1)
    next.1 ++ pushed decoder values (decoder.write s chunk).2 next.2 chunks

inductive Name where
  | stdout
  | stderr

/-- The chunks of the streams that a child has. -/
abbrev Child := Name → Option (List (List UInt8))

def textOf (chunks : List (List UInt8)) : CodeUnits := Utf16.encode (Utf8.decode chunks.flatten)

variable {value : CodeUnits}

theorem mem_values {secrets : List CodeUnits} : value ∈ values secrets ↔ value ∈ secrets ∧ value ≠ [] := by
  rw [values, List.mem_eraseDups, List.mem_filter, decide_eq_true_eq]

variable {values : List CodeUnits}

theorem lastIndexFrom_spec (text value : CodeUnits) (n : Nat) :
    (lastIndexFrom text value n = -1 ∧ ∀ i ≤ n, ¬ value <+: text.drop i) ∨
    ∃ i ≤ n, lastIndexFrom text value n = i ∧ value <+: text.drop i ∧ ∀ j ≤ n, value <+: text.drop j → j ≤ i := by
  induction n with
  | zero =>
    rw [lastIndexFrom]
    split_ifs with here
    · exact .inr ⟨0, Nat.le_refl _, rfl, here, fun j le _ => le⟩
    · refine .inl ⟨rfl, fun i le => ?_⟩
      obtain rfl := Nat.le_zero.mp le
      exact here
  | succ n ih =>
    rw [lastIndexFrom]
    split_ifs with here
    · exact .inr ⟨n + 1, Nat.le_refl _, rfl, here, fun j le _ => le⟩
    · rcases ih with ⟨none, absent⟩ | ⟨i, le, same, there, last⟩
      · refine .inl ⟨none, fun i le => ?_⟩
        rcases Nat.le_succ_iff.mp le with le | rfl
        · exact absent i le
        · exact here
      · refine .inr ⟨i, Nat.le_succ_of_le le, same, there, fun j le starts => ?_⟩
        rcases Nat.le_succ_iff.mp le with le | rfl
        · exact last j le starts
        · exact absurd starts here

variable {text : CodeUnits}

theorem index_lt (nonempty : value ≠ []) {i : Nat} (starts : value <+: text.drop i) :
    i + value.length ≤ text.length := by
  have le := starts.length_le
  have pos := List.length_pos_iff.mpr nonempty
  rw [List.length_drop] at le
  omega

theorem lastIndexOf_spec (text : CodeUnits) (nonempty : value ≠ []) (position : Int) :
    (lastIndexOf text value position = -1 ∧ ∀ i ≤ position.toNat, ¬ value <+: text.drop i) ∨
    ∃ i ≤ position.toNat, lastIndexOf text value position = i ∧ value <+: text.drop i ∧
      ∀ j ≤ position.toNat, value <+: text.drop j → j ≤ i := by
  have within : ∀ i, i ≤ position.toNat → value <+: text.drop i → i ≤ min position.toNat text.length := by
    intro i le starts
    have := index_lt nonempty starts
    omega
  rcases lastIndexFrom_spec text value (min position.toNat text.length) with
    ⟨none, absent⟩ | ⟨i, le, same, there, last⟩
  · exact .inl ⟨none, fun i le starts => absent i (within i le starts) starts⟩
  · refine .inr ⟨i, le.trans (Nat.min_le_left _ _), same, there, fun j le starts => ?_⟩
    exact last j (within j le starts) starts

variable {cut : Int}

end SecretOutput
