import Mathlib.Data.List.TakeWhile
import Oyster.Unicode

/-! JSON texts and values: the writer escapes what the grammar or UTF-16 demands, the
reader takes any text of the grammar, and what is written is read again as it was up to
the numbers, whose arithmetic is a parameter. -/
namespace Json
open Utf16

def ascii (s : String) : CodeUnits := s.toList.map fun c => UInt16.ofNat c.toNat

/-! ### Numbers -/

def isDigit (u : UInt16) : Bool := 0x30 ≤ u.toNat && u.toNat ≤ 0x39

def isNumberUnit (u : UInt16) : Bool := isDigit u || u ∈ ascii "+-.eE"

def isExponent : CodeUnits → Bool
  | [] => true
  | e :: rest =>
    let digits := match rest with
      | 0x2b :: digits | 0x2d :: digits => digits
      | digits => digits
    (e = 0x65 || e = 0x45) && !digits.isEmpty && digits.all isDigit

def isFraction : CodeUnits → Bool
  | 0x2e :: rest => rest.head?.any isDigit && isExponent (rest.dropWhile isDigit)
  | rest => isExponent rest

def isUnsigned : CodeUnits → Bool
  | [] => false
  | 0x30 :: rest => isFraction rest
  | d :: rest => isDigit d && isFraction (rest.dropWhile isDigit)

def isLiteral : CodeUnits → Bool
  | 0x2d :: rest => isUnsigned rest
  | text => isUnsigned text

structure Literal where
  text : CodeUnits
  within : ∀ u ∈ text, isNumberUnit u = true
  valid : isLiteral text = true

/-- The numbers of the language: the value of a literal, the literal of a finite number,
the text of any, and the zeros. -/
class Numbers (ν : Type) where
  value : Literal → ν
  literal : ν → Option Literal
  text : ν → CodeUnits
  isZero : ν → Bool

instance literalNumbers : Numbers Literal where
  value := id
  literal := some
  text := Literal.text
  isZero := fun literal =>
    ((literal.text.takeWhile fun u => u != 0x65 && u != 0x45).filter isDigit).all (· == 0x30)

/-! ### Values -/

inductive Value (ν : Type) where
  | null
  | bool (b : Bool)
  | num (x : ν)
  | str (s : CodeUnits)
  | arr (items : List (Value ν))
  | obj (members : List (CodeUnits × Value ν))

abbrev Members (ν : Type) := List (CodeUnits × Value ν)

def arrayIndex (key : CodeUnits) : Option Nat :=
  if !key.isEmpty && key.all isDigit && (key.head? ≠ some 0x30 || key = [0x30]) then
    let n := key.foldl (fun n d => 10 * n + (d.toNat - 0x30)) 0
    if n < 2 ^ 32 - 1 then some n else none
  else none

/-- The order of the properties of an object: array indices come first, by their number. -/
def precedes (a b : CodeUnits) : Bool :=
  match arrayIndex a, arrayIndex b with
  | some m, some n => m < n
  | some _, none => true
  | none, _ => false

section
variable {ν : Type}

def insert (key : CodeUnits) (value : Value ν) : Members ν → Members ν
  | [] => [(key, value)]
  | m :: members =>
    if precedes key m.1 then (key, value) :: m :: members else m :: insert key value members

/-- Assign a property: a present one keeps its place. -/
def define (members : Members ν) (key : CodeUnits) (value : Value ν) : Members ν :=
  if members.any (·.1 = key) then members.map fun m => if m.1 = key then (key, value) else m
  else insert key value members

def lookup (members : Members ν) (key : CodeUnits) : Option (Value ν) :=
  (members.find? (·.1 = key)).map Prod.snd

/-- The object that the properties make when they are assigned in order. -/
def object (members : Members ν) : Members ν := members.foldl (fun all m => define all m.1 m.2) []

end

/-! ### The writer -/

def hexDigit (n : Nat) : UInt16 := UInt16.ofNat (if n < 10 then 0x30 + n else 0x57 + n)

def unicodeEscape (u : UInt16) : CodeUnits :=
  [0x5c, 0x75, hexDigit (u.toNat / 4096), hexDigit (u.toNat / 256 % 16), hexDigit (u.toNat / 16 % 16),
    hexDigit (u.toNat % 16)]

def quoteUnit (u : UInt16) : CodeUnits :=
  if u = 0x08 then ascii "\\b"
  else if u = 0x09 then ascii "\\t"
  else if u = 0x0a then ascii "\\n"
  else if u = 0x0c then ascii "\\f"
  else if u = 0x0d then ascii "\\r"
  else if u = 0x22 then ascii "\\\""
  else if u = 0x5c then ascii "\\\\"
  else if u.toNat < 0x20 then unicodeEscape u
  else [u]

def quoteCodePoint : CodePoint → CodeUnits
  | .scalar c => if c.toNat < 0x10000 then quoteUnit (UInt16.ofNat c.toNat) else units c
  | .lone u => unicodeEscape u

def quote (s : CodeUnits) : CodeUnits := 0x22 :: (codePoints s).flatMap quoteCodePoint ++ [0x22]

section
variable {ν : Type} [Numbers ν]

def printNumber (x : ν) : CodeUnits :=
  match Numbers.literal x with
  | some literal => literal.text
  | none => ascii "null"

mutual

def print : Value ν → CodeUnits
  | .null => ascii "null"
  | .bool true => ascii "true"
  | .bool false => ascii "false"
  | .num x => printNumber x
  | .str s => quote s
  | .arr items => 0x5b :: printItems items
  | .obj members => 0x7b :: printMembers members

def printItems : List (Value ν) → CodeUnits
  | [] => [0x5d]
  | v :: items => print v ++ printMoreItems items

def printMoreItems : List (Value ν) → CodeUnits
  | [] => [0x5d]
  | v :: items => 0x2c :: print v ++ printMoreItems items

def printMembers : Members ν → CodeUnits
  | [] => [0x7d]
  | (key, v) :: members => quote key ++ 0x3a :: print v ++ printMoreMembers members

def printMoreMembers : Members ν → CodeUnits
  | [] => [0x7d]
  | (key, v) :: members => 0x2c :: quote key ++ 0x3a :: print v ++ printMoreMembers members

end

end

/-! ### The reader -/

def isSpace (u : UInt16) : Bool := u = 0x20 || u = 0x09 || u = 0x0a || u = 0x0d

def skip (us : CodeUnits) : CodeUnits := us.dropWhile isSpace

def hexValue (u : UInt16) : Option Nat :=
  let n := u.toNat
  if 0x30 ≤ n ∧ n ≤ 0x39 then some (n - 0x30)
  else if 0x41 ≤ n ∧ n ≤ 0x46 then some (n - 0x37)
  else if 0x61 ≤ n ∧ n ≤ 0x66 then some (n - 0x57)
  else none

def hexUnit (a b c d : UInt16) : Option UInt16 := do
  let a ← hexValue a
  let b ← hexValue b
  let c ← hexValue c
  let d ← hexValue d
  return UInt16.ofNat (a * 4096 + b * 256 + c * 16 + d)

def escaped (u : UInt16) : Option UInt16 :=
  if u = 0x22 ∨ u = 0x5c ∨ u = 0x2f then some u
  else if u = 0x62 then some 0x08
  else if u = 0x66 then some 0x0c
  else if u = 0x6e then some 0x0a
  else if u = 0x72 then some 0x0d
  else if u = 0x74 then some 0x09
  else none

/-- The string up to its closing quote, and what follows it. -/
def readString : CodeUnits → Option (CodeUnits × CodeUnits)
  | [] => none
  | 0x22 :: rest => some ([], rest)
  | 0x5c :: 0x75 :: a :: b :: c :: d :: rest => do
      let u ← hexUnit a b c d
      let (s, rest) ← readString rest
      return (u :: s, rest)
  | 0x5c :: e :: rest => do
      let u ← escaped e
      let (s, rest) ← readString rest
      return (u :: s, rest)
  | u :: rest => do
      if u = 0x5c ∨ u.toNat < 0x20 then none
      let (s, rest) ← readString rest
      return (u :: s, rest)

section
variable {ν : Type} [Numbers ν]

def readNumber (us : CodeUnits) : Option (ν × CodeUnits) :=
  if valid : isLiteral (us.takeWhile isNumberUnit) = true then
    some (Numbers.value ⟨us.takeWhile isNumberUnit, fun _ mem => List.mem_takeWhile_imp mem, valid⟩,
      us.dropWhile isNumberUnit)
  else none

def readWord (word : String) (v : Value ν) (us : CodeUnits) : Option (Value ν × CodeUnits) :=
  if (ascii word).isPrefixOf us then some (v, us.drop (ascii word).length) else none

mutual

def readValue : Nat → CodeUnits → Option (Value ν × CodeUnits)
  | 0, _ => none
  | n + 1, us =>
    match skip us with
    | [] => none
    | u :: rest =>
      if u = 0x22 then (readString rest).map fun (s, rest) => (.str s, rest)
      else if u = 0x5b then (readItems n rest).map fun (items, rest) => (.arr items, rest)
      else if u = 0x7b then (readMembers n rest).map fun (members, rest) => (.obj (object members), rest)
      else if u = 0x6e then readWord "null" .null (u :: rest)
      else if u = 0x74 then readWord "true" (.bool true) (u :: rest)
      else if u = 0x66 then readWord "false" (.bool false) (u :: rest)
      else (readNumber (u :: rest)).map fun (x, rest) => (.num x, rest)

def readItems : Nat → CodeUnits → Option (List (Value ν) × CodeUnits)
  | 0, _ => none
  | n + 1, us =>
    match skip us with
    | 0x5d :: rest => some ([], rest)
    | us => do
        let (v, rest) ← readValue n us
        let (items, rest) ← readMoreItems n rest
        return (v :: items, rest)

def readMoreItems : Nat → CodeUnits → Option (List (Value ν) × CodeUnits)
  | 0, _ => none
  | n + 1, us =>
    match skip us with
    | 0x5d :: rest => some ([], rest)
    | 0x2c :: rest => do
        let (v, rest) ← readValue n rest
        let (items, rest) ← readMoreItems n rest
        return (v :: items, rest)
    | _ => none

def readMember : Nat → CodeUnits → Option (Members ν × CodeUnits)
  | 0, _ => none
  | n + 1, us =>
    match skip us with
    | 0x22 :: rest => do
        let (key, rest) ← readString rest
        match skip rest with
        | 0x3a :: rest => do
            let (v, rest) ← readValue n rest
            let (members, rest) ← readMoreMembers n rest
            return ((key, v) :: members, rest)
        | _ => none
    | _ => none

def readMembers : Nat → CodeUnits → Option (Members ν × CodeUnits)
  | 0, _ => none
  | n + 1, us =>
    match skip us with
    | 0x7d :: rest => some ([], rest)
    | us => readMember n us

def readMoreMembers : Nat → CodeUnits → Option (Members ν × CodeUnits)
  | 0, _ => none
  | n + 1, us =>
    match skip us with
    | 0x7d :: rest => some ([], rest)
    | 0x2c :: rest => readMember n rest
    | _ => none

end

def parse (us : CodeUnits) : Option (Value ν) :=
  match readValue (2 * us.length + 2) us with
  | some (v, rest) => if (skip rest).isEmpty then some v else none
  | none => none

end
/-! ### Strings -/

theorem hexValue_hexDigit {n : Nat} (h : n < 16) : hexValue (hexDigit n) = some n := by
  have all : ∀ n, n < 16 → hexValue (hexDigit n) = some n := by decide
  exact all n h

theorem hexUnit_digits (u : UInt16) :
    hexUnit (hexDigit (u.toNat / 4096)) (hexDigit (u.toNat / 256 % 16)) (hexDigit (u.toNat / 16 % 16))
      (hexDigit (u.toNat % 16)) = some u := by
  have small := u.toNat_lt
  simp only [hexUnit, hexValue_hexDigit (show u.toNat / 4096 < 16 by omega),
    hexValue_hexDigit (show u.toNat / 256 % 16 < 16 by omega),
    hexValue_hexDigit (show u.toNat / 16 % 16 < 16 by omega),
    hexValue_hexDigit (show u.toNat % 16 < 16 by omega)]
  simp only [bind, Option.bind, pure]
  rw [show u.toNat / 4096 * 4096 + u.toNat / 256 % 16 * 256 + u.toNat / 16 % 16 * 16 + u.toNat % 16 =
    u.toNat by omega, UInt16.ofNat_toNat]

def prepend (us : CodeUnits) (read : Option (CodeUnits × CodeUnits)) : Option (CodeUnits × CodeUnits) :=
  read.map fun (s, rest) => (us ++ s, rest)

theorem readString_unicode (u : UInt16) (us : CodeUnits) :
    readString (unicodeEscape u ++ us) = prepend [u] (readString us) := by
  simp only [unicodeEscape, List.cons_append, List.nil_append, readString, hexUnit_digits]
  cases readString us <;> rfl

variable {u : UInt16}

theorem readString_unit (plain : u ≠ 0x22 ∧ u ≠ 0x5c ∧ 0x20 ≤ u.toNat) (us : CodeUnits) :
    readString (u :: us) = prepend [u] (readString us) := by
  rw [readString.eq_def]
  split
  · rename_i absurd
    cases absurd
  · rename_i same
    exact absurd (List.cons.inj same).1 plain.1
  · rename_i same
    exact absurd (List.cons.inj same).1 plain.2.1
  · rename_i same
    exact absurd (List.cons.inj same).1 plain.2.1
  · rename_i same
    cases same
    have raw : ¬(u = 0x5c ∨ u.toNat < 0x20) := by
      rintro (slash | low)
      · exact plain.2.1 slash
      · omega
    rw [if_neg raw]
    cases readString us <;> rfl

theorem readString_escape {e : UInt16} (short : escaped e = some u) (us : CodeUnits) :
    readString (0x5c :: e :: us) = prepend [u] (readString us) := by
  have other : e ≠ 0x75 := by
    rintro rfl
    exact nomatch (show (none : Option UInt16) = some u from short)
  rw [readString.eq_def]
  split
  · rename_i absurd
    cases absurd
  · rename_i same
    exact nomatch (List.cons.inj same).1
  · rename_i same
    exact absurd (List.cons.inj (List.cons.inj same).2).1 other
  · rename_i same
    cases (List.cons.inj same).2
    rw [short]
    cases readString us <;> rfl
  · rename_i no same
    cases same
    exact absurd rfl (no e us rfl)

theorem readString_quoteUnit (u : UInt16) (us : CodeUnits) :
    readString (quoteUnit u ++ us) = prepend [u] (readString us) := by
  unfold quoteUnit
  split_ifs with b t n f r q s low
  · subst b
    exact readString_escape rfl us
  · subst t
    exact readString_escape rfl us
  · subst n
    exact readString_escape rfl us
  · subst f
    exact readString_escape rfl us
  · subst r
    exact readString_escape rfl us
  · subst q
    exact readString_escape rfl us
  · subst s
    exact readString_escape rfl us
  · exact readString_unicode u us
  · exact readString_unit ⟨q, s, Nat.not_lt.mp low⟩ us

theorem readString_quoteCodePoint (p : CodePoint) (us : CodeUnits) :
    readString (quoteCodePoint p ++ us) = prepend p.units (readString us) := by
  cases p with
  | lone u => exact readString_unicode u us
  | scalar c =>
    simp only [quoteCodePoint, CodePoint.units]
    split_ifs with small
    · rw [units, if_pos small]
      exact readString_quoteUnit _ us
    · have valid := c.toNat_cases
      have high : ∀ n, 0xd800 ≤ n → n < 65536 → UInt16.ofNat n ≠ 0x22 ∧ UInt16.ofNat n ≠ 0x5c ∧
          0x20 ≤ (UInt16.ofNat n).toNat := by
        intro n low up
        have value : (UInt16.ofNat n).toNat = n := by
          rw [UInt16.toNat_ofNat', Nat.mod_eq_of_lt up]
        refine ⟨?_, ?_, by omega⟩
        · intro same
          rw [same] at value
          exact absurd (show 0x22 = n from value) (by omega)
        · intro same
          rw [same] at value
          exact absurd (show 0x5c = n from value) (by omega)
      rw [units, if_neg small]
      simp only [List.cons_append, List.nil_append]
      rw [readString_unit (high _ (by omega) (by omega)), readString_unit (high _ (by omega) (by omega))]
      cases readString us <;> rfl

theorem readString_codePoints (ps : List CodePoint) (us : CodeUnits) :
    readString (ps.flatMap quoteCodePoint ++ 0x22 :: us) = some (ps.flatMap CodePoint.units, us) := by
  induction ps with
  | nil => rfl
  | cons p ps ih =>
    rw [List.flatMap_cons, List.append_assoc, readString_quoteCodePoint, ih]
    rfl

theorem readString_quote (s us : CodeUnits) :
    readString ((codePoints s).flatMap quoteCodePoint ++ 0x22 :: us) = some (s, us) := by
  rw [readString_codePoints, units_codePoints]

/-! ### Properties in their order -/

section
variable {ν : Type}

/-- The properties of an object: no key twice, and each in its place. -/
def Ordered (members : Members ν) : Prop :=
  members.Pairwise fun a b => a.1 ≠ b.1 ∧ precedes b.1 a.1 = false

variable {a b : CodeUnits}

theorem precedes_iff : precedes a b = true ↔ ∃ m, arrayIndex a = some m ∧ ∀ n ∈ arrayIndex b, m < n := by
  unfold precedes
  split
  · rename_i m n ha hb
    simp only [decide_eq_true_eq, Option.some.injEq, exists_eq_left', Option.mem_def, ha, hb, forall_eq']
  · rename_i m ha hb
    simp only [ha, hb, Option.some.injEq, exists_eq_left', Option.mem_def, reduceCtorEq, false_implies, implies_true]
  · rename_i ha
    simp only [ha, reduceCtorEq, false_and, exists_false, Bool.false_eq_true]

theorem precedes_asymm (h : precedes a b = true) : precedes b a = false := by
  obtain ⟨m, ha, less⟩ := precedes_iff.mp h
  by_contra turned
  rw [Bool.not_eq_false] at turned
  obtain ⟨n, hb, less'⟩ := precedes_iff.mp turned
  have := less n hb
  have := less' m ha
  omega

theorem precedes_trans {c : CodeUnits} (hab : precedes a b = true) (hbc : precedes b c = true) :
    precedes a c = true := by
  obtain ⟨m, ha, less⟩ := precedes_iff.mp hab
  obtain ⟨n, hb, less'⟩ := precedes_iff.mp hbc
  exact precedes_iff.mpr ⟨m, ha, fun k hc => Nat.lt_trans (less n hb) (less' k hc)⟩

variable {members : Members ν} {key : CodeUnits}

theorem define_last (value : Value ν) (last : ∀ m ∈ members, m.1 ≠ key ∧ precedes key m.1 = false) :
    define members key value = members ++ [(key, value)] := by
  have absent : ¬(members.any (·.1 = key)) = true := by
    rw [List.any_eq_true]
    rintro ⟨m, mem, same⟩
    exact (last m mem).1 (of_decide_eq_true same)
  rw [define, if_neg absent]
  clear absent
  induction members with
  | nil => rfl
  | cons m members ih =>
    rw [insert, if_neg (by rw [(last m List.mem_cons_self).2]; exact Bool.false_ne_true),
      ih fun m mem => last m (List.mem_cons_of_mem _ mem)]
    rfl

theorem object_append {done : Members ν} (ordered : Ordered (done ++ members)) :
    members.foldl (fun all m => define all m.1 m.2) done = done ++ members := by
  induction members generalizing done with
  | nil => exact (List.append_nil done).symm
  | cons m members ih =>
    have last := (List.pairwise_append.mp ordered).2.2
    rw [List.foldl_cons, define_last m.2 fun other mem => last other mem m List.mem_cons_self, ih, List.append_assoc]
    · rfl
    · rw [List.append_assoc]
      exact ordered

theorem object_ordered (ordered : Ordered members) : object members = members :=
  object_append ordered

variable {value : Value ν} {m : CodeUnits × Value ν}

theorem mem_insert (h : m ∈ insert key value members) : m = (key, value) ∨ m ∈ members := by
  induction members with
  | nil => exact .inl (List.mem_singleton.mp h)
  | cons first members ih =>
    rw [insert] at h
    split_ifs at h
    · exact List.mem_cons.mp h
    · rcases List.mem_cons.mp h with rfl | later
      · exact .inr List.mem_cons_self
      · exact (ih later).imp_right (List.mem_cons_of_mem _)

theorem mem_define (h : m ∈ define members key value) : m = (key, value) ∨ m ∈ members := by
  unfold define at h
  split_ifs at h
  · obtain ⟨old, mem, rfl⟩ := List.mem_map.mp h
    split_ifs
    · exact .inl rfl
    · exact .inr mem
  · exact mem_insert h

theorem insert_ordered (h : Ordered members) (value : Value ν) (absent : ∀ m ∈ members, m.1 ≠ key) :
    Ordered (insert key value members) := by
  induction members with
  | nil => exact List.pairwise_singleton _ _
  | cons m members ih =>
    obtain ⟨first, rest⟩ := List.pairwise_cons.mp h
    rw [insert]
    split_ifs with before
    · refine List.pairwise_cons.mpr ⟨?_, h⟩
      intro other mem
      refine ⟨(absent other mem).symm, ?_⟩
      rcases List.mem_cons.mp mem with rfl | later
      · exact precedes_asymm before
      · by_contra turned
        rw [Bool.not_eq_false] at turned
        have out := (first other later).2
        rw [precedes_trans turned before] at out
        cases out
    · refine List.pairwise_cons.mpr ⟨?_, ih rest fun m mem => absent m (List.mem_cons_of_mem _ mem)⟩
      intro other mem
      rcases mem_insert mem with rfl | later
      · exact ⟨absent m List.mem_cons_self, Bool.not_eq_true _ ▸ before⟩
      · exact first other later

theorem define_ordered (h : Ordered members) (key : CodeUnits) (value : Value ν) :
    Ordered (define members key value) := by
  unfold define
  split_ifs with present
  · refine List.pairwise_map.mpr (h.imp ?_)
    intro a b rel
    split_ifs with ha hb hb
    · exact absurd (ha.trans hb.symm) rel.1
    · exact ha ▸ rel
    · exact hb ▸ rel
    · exact rel
  · refine insert_ordered h value fun m mem same => present ?_
    exact List.any_eq_true.mpr ⟨m, mem, decide_eq_true same⟩

theorem ordered_iff_keys (members : Members ν) :
    Ordered members ↔ (members.map Prod.fst).Pairwise fun a b => a ≠ b ∧ precedes b a = false := by
  rw [List.pairwise_map]
  exact Iff.rfl

inductive Canonical : Value ν → Prop
  | null : Canonical .null
  | bool (b : Bool) : Canonical (.bool b)
  | num (x : ν) : Canonical (.num x)
  | str (s : CodeUnits) : Canonical (.str s)
  | arr {items : List (Value ν)} : (∀ v ∈ items, Canonical v) → Canonical (.arr items)
  | obj {members : Members ν} : Ordered members → (∀ m ∈ members, Canonical m.2) → Canonical (.obj members)

theorem object_canonical (h : ∀ m ∈ members, Canonical m.2) : Canonical (.obj (object members)) := by
  have all : ∀ done : Members ν, Ordered done → (∀ m ∈ done, Canonical m.2) →
      Canonical (.obj (members.foldl (fun all m => define all m.1 m.2) done)) := by
    induction members with
    | nil => exact fun done ordered inner => .obj ordered inner
    | cons m members ih =>
      intro done ordered inner
      refine ih (fun m mem => h m (List.mem_cons_of_mem _ mem)) _ (define_ordered ordered _ _) ?_
      intro other mem
      rcases mem_define mem with rfl | old
      · exact h m List.mem_cons_self
      · exact inner other old
  exact all [] List.Pairwise.nil fun _ absurd => nomatch absurd

end

/-! ### What is written is read again -/

section
variable {ν : Type} [Numbers ν]

def rereadNumber (x : ν) : Value ν :=
  match Numbers.literal x with
  | some literal => .num (Numbers.value literal)
  | none => .null

mutual

def reread : Value ν → Value ν
  | .null => .null
  | .bool b => .bool b
  | .num x => rereadNumber x
  | .str s => .str s
  | .arr items => .arr (rereadItems items)
  | .obj members => .obj (rereadMembers members)

def rereadItems : List (Value ν) → List (Value ν)
  | [] => []
  | v :: items => reread v :: rereadItems items

def rereadMembers : Members ν → Members ν
  | [] => []
  | (key, v) :: members => (key, reread v) :: rereadMembers members

end

mutual

/-- The steps that the reader takes for the text of the value. -/
def size : Value ν → Nat
  | .null | .bool _ | .num _ | .str _ => 1
  | .arr items => 1 + sizeItems items
  | .obj members => 1 + sizeMembers members

def sizeItems : List (Value ν) → Nat
  | [] => 1
  | v :: items => 1 + size v + sizeItems items

def sizeMembers : Members ν → Nat
  | [] => 1
  | (_, v) :: members => 2 + size v + sizeMembers members

end

theorem Literal.head (literal : Literal) : ∃ u us, literal.text = u :: us ∧ (isDigit u = true ∨ u = 0x2d) := by
  have valid := literal.valid
  cases text : literal.text with
  | nil =>
    rw [text] at valid
    cases valid
  | cons u us =>
    refine ⟨u, us, rfl, ?_⟩
    rw [text] at valid
    unfold isLiteral at valid
    split at valid
    · rename_i same
      exact .inr (List.cons.inj same).1
    · rename_i same
      unfold isUnsigned at valid
      split at valid
      · cases valid
      · rename_i same
        cases same
        exact .inl rfl
      · rename_i same
        cases same
        rw [Bool.and_eq_true] at valid
        exact .inl valid.1

def NumberEnds (us : CodeUnits) : Prop := ∀ u ∈ us.head?, isNumberUnit u = false

theorem numberEnds_nil : NumberEnds [] := fun _ absurd => nomatch absurd

variable {u : UInt16} {us : CodeUnits}

theorem numberEnds_cons (h : isNumberUnit u = false) : NumberEnds (u :: us) := by
  intro v head
  cases head
  exact h

theorem takeWhile_literal {text : CodeUnits} (within : ∀ u ∈ text, isNumberUnit u = true) (ends : NumberEnds us) :
    (text ++ us).takeWhile isNumberUnit = text ∧ (text ++ us).dropWhile isNumberUnit = us := by
  induction text with
  | nil =>
    cases us with
    | nil => exact ⟨rfl, rfl⟩
    | cons u us =>
      have stop := ends u rfl
      refine ⟨List.takeWhile_cons_of_neg ?_, List.dropWhile_cons_of_neg ?_⟩ <;>
        · rw [stop]
          exact Bool.false_ne_true
  | cons u text ih =>
    have first := within u List.mem_cons_self
    obtain ⟨take, drop⟩ := ih fun v mem => within v (List.mem_cons_of_mem _ mem)
    rw [List.cons_append, List.takeWhile_cons_of_pos first, List.dropWhile_cons_of_pos first, take]
    exact ⟨rfl, drop⟩

theorem readNumber_literal (literal : Literal) (ends : NumberEnds us) :
    readNumber (literal.text ++ us) = some ((Numbers.value literal : ν), us) := by
  obtain ⟨text, within, valid⟩ := literal
  obtain ⟨take, drop⟩ := takeWhile_literal within ends
  unfold readNumber
  simp only [take, drop]
  rw [dif_pos valid]

/-- The first unit of a text is no space and closes nothing. -/
def Starts (us : CodeUnits) : Prop :=
  ∃ u rest, us = u :: rest ∧ isSpace u = false ∧ u ≠ 0x5d ∧ u ≠ 0x7d

theorem digit_unit (h : isDigit u = true ∨ u = 0x2d) :
    isSpace u = false ∧ u ≠ 0x5d ∧ u ≠ 0x7d ∧ u ≠ 0x22 ∧ u ≠ 0x5b ∧ u ≠ 0x7b ∧ u ≠ 0x6e ∧ u ≠ 0x74 ∧ u ≠ 0x66 := by
  have other : ∀ v : UInt16, v.toNat ≠ 0x2d → (v.toNat < 0x30 ∨ 0x39 < v.toNat) → u ≠ v := by
    rintro v minus out rfl
    rcases h with digit | rfl
    · simp only [isDigit, Bool.and_eq_true, decide_eq_true_eq] at digit
      omega
    · exact minus rfl
  refine ⟨?_, ?_, ?_, ?_, ?_, ?_, ?_, ?_, ?_⟩
  · simp only [isSpace, Bool.or_eq_false_iff, decide_eq_false_iff_not]
    exact ⟨⟨⟨other _ (by decide) (by decide), other _ (by decide) (by decide)⟩,
      other _ (by decide) (by decide)⟩, other _ (by decide) (by decide)⟩
  all_goals exact other _ (by decide) (by decide)

theorem print_starts (v : Value ν) : Starts (print v) := by
  cases v with
  | null => exact ⟨_, _, rfl, by decide, by decide, by decide⟩
  | bool b => cases b <;> exact ⟨_, _, rfl, by decide, by decide, by decide⟩
  | num x =>
    rw [print, printNumber]
    cases Numbers.literal x with
    | none => exact ⟨_, _, rfl, by decide, by decide, by decide⟩
    | some literal =>
      obtain ⟨u, us, text, head⟩ := literal.head
      obtain ⟨space, close, brace, _⟩ := digit_unit head
      exact ⟨u, us, text, space, close, brace⟩
  | str s => exact ⟨_, _, rfl, by decide, by decide, by decide⟩
  | arr items => exact ⟨_, _, by rw [print], by decide, by decide, by decide⟩
  | obj members => exact ⟨_, _, by rw [print], by decide, by decide, by decide⟩

variable {rest : CodeUnits}

theorem skip_of_starts (h : Starts us) : skip (us ++ rest) = us ++ rest := by
  obtain ⟨u, more, rfl, space, _⟩ := h
  exact List.dropWhile_cons_of_neg (by rw [space]; exact Bool.false_ne_true)

theorem quote_append (s us : CodeUnits) :
    quote s ++ us = 0x22 :: ((codePoints s).flatMap quoteCodePoint ++ 0x22 :: us) := by
  simp only [quote, List.cons_append, List.append_assoc, List.nil_append]

theorem rereadMembers_keys (members : Members ν) : (rereadMembers members).map Prod.fst = members.map Prod.fst := by
  induction members with
  | nil => rfl
  | cons m members ih =>
    rw [rereadMembers, List.map_cons, List.map_cons, ih]

theorem Ordered.reread {members : Members ν} (h : Ordered members) : Ordered (rereadMembers members) := by
  rw [ordered_iff_keys, rereadMembers_keys, ← ordered_iff_keys]
  exact h

variable {n : Nat}

theorem readNumber_print (head : isDigit u = true ∨ u = 0x2d) (x : Option (ν × CodeUnits))
    (number : readNumber (u :: us) = x) : readValue (n + 1) (u :: us) = x.map fun (x, rest) => (.num x, rest) := by
  obtain ⟨space, _, _, h1, h2, h3, h4, h5, h6⟩ := digit_unit head
  have first : skip (u :: us) = u :: us :=
    List.dropWhile_cons_of_neg (by rw [space]; exact Bool.false_ne_true)
  rw [readValue, first]
  simp only
  rw [if_neg h1, if_neg h2, if_neg h3, if_neg h4, if_neg h5, if_neg h6, number]

theorem moreItems_ends (items : List (Value ν)) (us : CodeUnits) : NumberEnds (printMoreItems items ++ us) := by
  cases items with
  | nil => exact numberEnds_cons (by decide)
  | cons v items =>
    exact numberEnds_cons (by decide)

theorem moreMembers_ends (members : Members ν) (us : CodeUnits) : NumberEnds (printMoreMembers members ++ us) := by
  cases members with
  | nil => exact numberEnds_cons (by decide)
  | cons m members =>
    exact numberEnds_cons (by decide)

theorem readItems_starts (starts : Starts us) (n : Nat) : readItems (n + 1) (us ++ rest) = (do
      let (v, rest) ← readValue n (us ++ rest)
      let (items, rest) ← readMoreItems n rest
      return ((v :: items : List (Value ν)), rest)) := by
  rw [readItems, skip_of_starts starts]
  obtain ⟨u, more, rfl, _, close, _⟩ := starts
  split
  · rename_i same
    exact absurd (List.cons.inj same).1 close
  · rfl

theorem skip_cons (h : isSpace u = false) (us : CodeUnits) : skip (u :: us) = u :: us :=
  List.dropWhile_cons_of_neg (by rw [h]; exact Bool.false_ne_true)

theorem readValue_num (x : ν) (ends : NumberEnds us) :
    readValue (n + 1) (print (.num x) ++ us) = some (reread (.num x), us) := by
  rw [print, printNumber, reread, rereadNumber]
  cases found : Numbers.literal x with
  | none =>
    rfl
  | some literal =>
    simp only
    obtain ⟨u, rest, text, head⟩ := literal.head
    have number := readNumber_literal (ν := ν) literal ends
    rw [text, List.cons_append] at number ⊢
    rw [readNumber_print head _ number]
    rfl

mutual

theorem readValue_print : ∀ (v : Value ν) (n : Nat) (us : CodeUnits), Canonical v → size v ≤ n →
    NumberEnds us → readValue n (print v ++ us) = some (reread v, us)
  | .null, n + 1, us, _, _, _ => by
      rfl
  | .bool true, n + 1, us, _, _, _ => by
      rfl
  | .bool false, n + 1, us, _, _, _ => by
      rfl
  | .num x, n + 1, us, _, _, ends => readValue_num x ends
  | .str s, n + 1, us, _, _, _ => by
      rw [print, quote_append, readValue, skip_cons (by decide)]
      simp only [if_true, readString_quote, Option.map_some, reread]
  | .arr items, n + 1, us, canonical, enough, _ => by
      have inner : ∀ v ∈ items, Canonical v := by
        cases canonical
        assumption
      have read := readItems_print items n us inner (by simp only [size] at enough; omega)
      rw [print, List.cons_append, readValue, skip_cons (by decide)]
      simp only
      rw [if_neg (by decide), if_pos trivial, read, reread]
      rfl
  | .obj members, n + 1, us, canonical, enough, _ => by
      have ordered : Ordered members := by
        cases canonical
        assumption
      have inner : ∀ m ∈ members, Canonical m.2 := by
        cases canonical
        assumption
      have read := readMembers_print members n us inner (by simp only [size] at enough; omega)
      rw [print, List.cons_append, readValue, skip_cons (by decide)]
      simp only
      rw [if_neg (by decide), if_neg (by decide), if_pos trivial, read, reread]
      simp only [Option.map_some, object_ordered ordered.reread]
  | v, 0, _, _, enough, _ => by
      cases v <;> simp only [size] at enough <;> omega

theorem readItems_print : ∀ (items : List (Value ν)) (n : Nat) (us : CodeUnits),
    (∀ v ∈ items, Canonical v) → sizeItems items ≤ n →
      readItems n (printItems items ++ us) = some (rereadItems items, us)
  | [], n + 1, us, _, _ => by
      rfl
  | v :: items, n + 1, us, inner, enough => by
      simp only [sizeItems] at enough
      have value := readValue_print v n (printMoreItems items ++ us) (inner v List.mem_cons_self) (by omega)
        (moreItems_ends items us)
      have more := readMoreItems_print items n us (fun v mem => inner v (List.mem_cons_of_mem _ mem)) (by omega)
      rw [printItems, List.append_assoc, readItems_starts (print_starts v), value]
      simp only [bind, Option.bind, more]
      rfl
  | items, 0, _, _, enough => by
      cases items <;> simp only [sizeItems] at enough <;> omega

theorem readMoreItems_print : ∀ (items : List (Value ν)) (n : Nat) (us : CodeUnits),
    (∀ v ∈ items, Canonical v) → sizeItems items ≤ n →
      readMoreItems n (printMoreItems items ++ us) = some (rereadItems items, us)
  | [], n + 1, us, _, _ => by
      rfl
  | v :: items, n + 1, us, inner, enough => by
      simp only [sizeItems] at enough
      have value := readValue_print v n (printMoreItems items ++ us) (inner v List.mem_cons_self) (by omega)
        (moreItems_ends items us)
      have more := readMoreItems_print items n us (fun v mem => inner v (List.mem_cons_of_mem _ mem)) (by omega)
      rw [printMoreItems, List.cons_append, List.cons_append, List.append_assoc, readMoreItems, skip_cons (by decide)]
      simp only [bind, Option.bind, value, more]
      rfl
  | items, 0, _, _, enough => by
      cases items <;> simp only [sizeItems] at enough <;> omega

theorem readMember_print : ∀ (key : CodeUnits) (v : Value ν) (members : Members ν) (n : Nat)
    (us : CodeUnits), Canonical v → (∀ m ∈ members, Canonical m.2) → 1 + size v + sizeMembers members ≤ n →
      readMember n (quote key ++ 0x3a :: (print v ++ (printMoreMembers members ++ us))) =
        some ((key, reread v) :: rereadMembers members, us)
  | key, v, members, n + 1, us, canonical, inner, enough => by
      have value := readValue_print v n (printMoreMembers members ++ us) canonical (by omega)
        (moreMembers_ends members us)
      have more := readMoreMembers_print members n us inner (by omega)
      rw [quote_append, readMember, skip_cons (by decide)]
      simp only [bind, Option.bind, readString_quote, skip_cons (show isSpace 0x3a = false by decide), value, more]
      rfl
  | key, v, members, 0, us, _, _, enough => by omega

theorem readMembers_print : ∀ (members : Members ν) (n : Nat) (us : CodeUnits),
    (∀ m ∈ members, Canonical m.2) → sizeMembers members ≤ n →
      readMembers n (printMembers members ++ us) = some (rereadMembers members, us)
  | [], n + 1, us, _, _ => by
      rfl
  | (key, v) :: members, n + 1, us, inner, enough => by
      simp only [sizeMembers] at enough
      have member := readMember_print key v members n us (inner _ List.mem_cons_self)
        (fun m mem => inner m (List.mem_cons_of_mem _ mem)) (by omega)
      rw [printMembers, rereadMembers, ← member]
      simp only [List.append_assoc, List.cons_append]
      rfl
  | members, 0, _, _, enough => by
      cases members <;> simp only [sizeMembers] at enough <;> omega

theorem readMoreMembers_print : ∀ (members : Members ν) (n : Nat) (us : CodeUnits),
    (∀ m ∈ members, Canonical m.2) → sizeMembers members ≤ n →
      readMoreMembers n (printMoreMembers members ++ us) = some (rereadMembers members, us)
  | [], n + 1, us, _, _ => by
      rfl
  | (key, v) :: members, n + 1, us, inner, enough => by
      simp only [sizeMembers] at enough
      have member := readMember_print key v members n us (inner _ List.mem_cons_self)
        (fun m mem => inner m (List.mem_cons_of_mem _ mem)) (by omega)
      rw [printMoreMembers, rereadMembers, ← member]
      simp only [List.append_assoc, List.cons_append]
      rfl
  | members, 0, _, _, enough => by
      cases members <;> simp only [sizeMembers] at enough <;> omega

end

theorem quote_length (s : CodeUnits) : 2 ≤ (quote s).length := by
  simp only [quote, List.cons_append, List.length_cons, List.length_append]
  omega

mutual

theorem size_le_print : ∀ v : Value ν, size v ≤ 2 * (print v).length
  | .null | .bool true | .bool false => by
      rw [size, print]
      decide
  | .num x => by
      obtain ⟨u, rest, text, _⟩ := print_starts (.num x)
      rw [size, text, List.length_cons]
      omega
  | .str s => by
      have := quote_length s
      rw [size, print]
      omega
  | .arr items => by
      have := sizeItems_le_print items
      rw [size, print, List.length_cons]
      omega
  | .obj members => by
      have := sizeMembers_le_print members
      rw [size, print, List.length_cons]
      omega

theorem sizeItems_le_print : ∀ items : List (Value ν), sizeItems items ≤ 2 * (printItems items).length + 1
  | [] => by
      rw [sizeItems]
      omega
  | v :: items => by
      have := size_le_print v
      have := sizeMoreItems_le_print items
      rw [sizeItems, printItems, List.length_append]
      omega

theorem sizeMoreItems_le_print : ∀ items : List (Value ν), sizeItems items ≤ 2 * (printMoreItems items).length
  | [] => by
      rw [sizeItems, printMoreItems]
      decide
  | v :: items => by
      have := size_le_print v
      have := sizeMoreItems_le_print items
      rw [sizeItems, printMoreItems, List.cons_append, List.length_cons, List.length_append]
      omega

theorem sizeMembers_le_print : ∀ members : Members ν, sizeMembers members ≤ 2 * (printMembers members).length + 1
  | [] => by
      rw [sizeMembers]
      omega
  | (key, v) :: members => by
      have := size_le_print v
      have := sizeMoreMembers_le_print members
      rw [sizeMembers, printMembers]
      simp only [List.length_append, List.length_cons]
      omega

theorem sizeMoreMembers_le_print : ∀ members : Members ν, sizeMembers members ≤ 2 * (printMoreMembers members).length
  | [] => by
      rw [sizeMembers, printMoreMembers]
      decide
  | (key, v) :: members => by
      have := size_le_print v
      have := sizeMoreMembers_le_print members
      rw [sizeMembers, printMoreMembers]
      simp only [List.length_append, List.length_cons]
      omega

end

variable {v : Value ν}

theorem parse_print (canonical : Canonical v) : parse (print v) = some (reread v) := by
  have enough := size_le_print v
  have read := readValue_print v (2 * (print v).length + 2) [] canonical (by omega) numberEnds_nil
  rw [List.append_nil] at read
  rw [parse, read]
  rfl

mutual

theorem readValue_canonical : ∀ {n : Nat} {us : CodeUnits} {v : Value ν} {rest : CodeUnits},
    readValue n us = some (v, rest) → Canonical v
  | 0, _, _, _, read => nomatch read
  | n + 1, us, v, rest, read => by
      rw [readValue] at read
      split at read
      · cases read
      · split_ifs at read
        · obtain ⟨_, _, same⟩ := Option.map_eq_some_iff.mp read
          cases same
          exact .str _
        · obtain ⟨_, items, same⟩ := Option.map_eq_some_iff.mp read
          cases same
          exact .arr (readItems_canonical items)
        · obtain ⟨_, members, same⟩ := Option.map_eq_some_iff.mp read
          cases same
          exact object_canonical (readMembers_canonical members)
        · unfold readWord at read
          split_ifs at read
          cases read
          exact .null
        · unfold readWord at read
          split_ifs at read
          cases read
          exact .bool _
        · unfold readWord at read
          split_ifs at read
          cases read
          exact .bool _
        · obtain ⟨_, _, same⟩ := Option.map_eq_some_iff.mp read
          cases same
          exact .num _

theorem readItems_canonical : ∀ {n : Nat} {us : CodeUnits} {items : List (Value ν)} {rest : CodeUnits},
    readItems n us = some (items, rest) → ∀ v ∈ items, Canonical v
  | 0, _, _, _, read => nomatch read
  | n + 1, us, items, rest, read => by
      rw [readItems] at read
      split at read
      · cases read
        exact fun _ absurd => nomatch absurd
      · obtain ⟨⟨v, _⟩, first, read⟩ := Option.bind_eq_some_iff.mp read
        obtain ⟨⟨more, _⟩, later, read⟩ := Option.bind_eq_some_iff.mp read
        cases read
        exact List.forall_mem_cons.mpr ⟨readValue_canonical first, readMoreItems_canonical later⟩

theorem readMoreItems_canonical : ∀ {n : Nat} {us : CodeUnits} {items : List (Value ν)}
    {rest : CodeUnits}, readMoreItems n us = some (items, rest) → ∀ v ∈ items, Canonical v
  | 0, _, _, _, read => nomatch read
  | n + 1, us, items, rest, read => by
      rw [readMoreItems] at read
      split at read
      · cases read
        exact fun _ absurd => nomatch absurd
      · obtain ⟨⟨v, _⟩, first, read⟩ := Option.bind_eq_some_iff.mp read
        obtain ⟨⟨more, _⟩, later, read⟩ := Option.bind_eq_some_iff.mp read
        cases read
        exact List.forall_mem_cons.mpr ⟨readValue_canonical first, readMoreItems_canonical later⟩
      · cases read

theorem readMember_canonical : ∀ {n : Nat} {us : CodeUnits} {members : Members ν} {rest : CodeUnits},
    readMember n us = some (members, rest) → ∀ m ∈ members, Canonical m.2
  | 0, _, _, _, read => nomatch read
  | n + 1, us, members, rest, read => by
      rw [readMember] at read
      split at read
      · obtain ⟨⟨key, _⟩, _, read⟩ := Option.bind_eq_some_iff.mp read
        simp only at read
        split at read
        · obtain ⟨⟨v, _⟩, first, read⟩ := Option.bind_eq_some_iff.mp read
          obtain ⟨⟨more, _⟩, later, read⟩ := Option.bind_eq_some_iff.mp read
          cases read
          exact List.forall_mem_cons.mpr ⟨readValue_canonical first, readMoreMembers_canonical later⟩
        · cases read
      · cases read

theorem readMembers_canonical : ∀ {n : Nat} {us : CodeUnits} {members : Members ν} {rest : CodeUnits},
    readMembers n us = some (members, rest) → ∀ m ∈ members, Canonical m.2
  | 0, _, _, _, read => nomatch read
  | n + 1, us, members, rest, read => by
      rw [readMembers] at read
      split at read
      · cases read
        exact fun _ absurd => nomatch absurd
      · exact readMember_canonical read

theorem readMoreMembers_canonical : ∀ {n : Nat} {us : CodeUnits} {members : Members ν}
    {rest : CodeUnits}, readMoreMembers n us = some (members, rest) → ∀ m ∈ members, Canonical m.2
  | 0, _, _, _, read => nomatch read
  | n + 1, us, members, rest, read => by
      rw [readMoreMembers] at read
      split at read
      · cases read
        exact fun _ absurd => nomatch absurd
      · exact readMember_canonical read
      · cases read

end

theorem parse_canonical (read : parse us = some v) : Canonical v := by
  unfold parse at read
  split at read
  · rename_i value rest found
    split_ifs at read
    cases read
    exact readValue_canonical found
  · cases read

/-! ### Texts are plain -/

end

/-- Well formed, and without control characters. -/
structure Plain (us : CodeUnits) : Prop where
  wellFormed : WellFormed us
  printable : ∀ u ∈ us, 0x20 ≤ u.toNat

theorem Plain.append {a b : CodeUnits} (ha : Plain a) (hb : Plain b) : Plain (a ++ b) := by
  refine ⟨ha.wellFormed.append hb.wellFormed, fun u mem => ?_⟩
  rcases List.mem_append.mp mem with left | right
  · exact ha.printable u left
  · exact hb.printable u right

theorem plain_nil : Plain [] := ⟨⟨[], rfl⟩, fun _ absurd => nomatch absurd⟩

theorem plain_unit (low : 0x20 ≤ u.toNat) (up : u.toNat < 0xd800) : Plain [u] := by
  refine ⟨⟨[Char.ofNat u.toNat], ?_⟩, fun v mem => ?_⟩
  · have value := toNat_ofNat_char (n := u.toNat) (.inl up)
    rw [encode, List.flatMap_cons, List.flatMap_nil, List.append_nil, units, value, if_pos (by omega),
      UInt16.ofNat_toNat]
  · obtain rfl := List.mem_singleton.mp mem
    exact low

variable {us : CodeUnits}

theorem Plain.cons (low : 0x20 ≤ u.toNat) (up : u.toNat < 0xd800) (h : Plain us) :
    Plain (u :: us) := (plain_unit low up).append h

theorem plain_of_units (h : ∀ u ∈ us, 0x20 ≤ u.toNat ∧ u.toNat < 0xd800) : Plain us := by
  induction us with
  | nil => exact plain_nil
  | cons u us ih =>
    obtain ⟨low, up⟩ := h u List.mem_cons_self
    exact .cons low up (ih fun v mem => h v (List.mem_cons_of_mem _ mem))

theorem plain_of_all (h : (us.all fun u => decide (0x20 ≤ u.toNat ∧ u.toNat < 0xd800)) = true) : Plain us :=
  plain_of_units fun u mem => of_decide_eq_true (List.all_eq_true.mp h u mem)

theorem plain_unicode (u : UInt16) : Plain (unicodeEscape u) := by
  have hex : ∀ n, n < 16 → 0x20 ≤ (hexDigit n).toNat ∧ (hexDigit n).toNat < 0xd800 := by decide
  have small := u.toNat_lt
  refine plain_of_units ?_
  simp only [unicodeEscape, List.forall_mem_cons, List.not_mem_nil, false_implies, implies_true, and_true]
  exact ⟨by decide, by decide, hex _ (by omega), hex _ (by omega), hex _ (by omega), hex _ (by omega)⟩

theorem plain_quoteCodePoint (p : CodePoint) : Plain (quoteCodePoint p) := by
  cases p with
  | lone u => exact plain_unicode u
  | scalar c =>
    have valid := c.toNat_cases
    simp only [quoteCodePoint]
    split_ifs with small
    · have value : (UInt16.ofNat c.toNat).toNat = c.toNat := by
        rw [UInt16.toNat_ofNat', Nat.mod_eq_of_lt (by omega)]
      unfold quoteUnit
      split_ifs with _ _ _ _ _ _ _ low
      iterate 7 exact plain_of_all (by decide)
      · exact plain_unicode _
      · refine ⟨⟨[c], ?_⟩, fun u mem => ?_⟩
        · rw [encode, List.flatMap_cons, List.flatMap_nil, List.append_nil, units, if_pos small]
        · obtain rfl := List.mem_singleton.mp mem
          exact Nat.not_lt.mp low
    · refine ⟨⟨[c], ?_⟩, ?_⟩
      · rw [encode, List.flatMap_cons, List.flatMap_nil, List.append_nil]
      · rw [units, if_neg small]
        simp only [List.forall_mem_cons, List.not_mem_nil, false_implies, implies_true, and_true, UInt16.toNat_ofNat']
        omega

theorem plain_quote (s : CodeUnits) : Plain (quote s) := by
  refine .cons (by decide) (by decide) (.append ?_ (plain_of_all (by decide)))
  generalize codePoints s = ps
  induction ps with
  | nil => exact plain_nil
  | cons p ps ih => exact (plain_quoteCodePoint p).append ih

section
variable {ν : Type} [Numbers ν]

theorem plain_number (x : ν) : Plain (printNumber x) := by
  unfold printNumber
  cases Numbers.literal x with
  | none => exact plain_of_all (by decide)
  | some literal =>
    refine plain_of_units fun u mem => ?_
    have unit := literal.within u mem
    rw [isNumberUnit, Bool.or_eq_true] at unit
    rcases unit with digit | sign
    · simp only [isDigit, Bool.and_eq_true, decide_eq_true_eq] at digit
      omega
    · have all : ((ascii "+-.eE").all fun u => decide (0x20 ≤ u.toNat ∧ u.toNat < 0xd800)) = true := by
        decide
      exact of_decide_eq_true (List.all_eq_true.mp all u (of_decide_eq_true sign))

mutual

theorem plain_print : ∀ v : Value ν, Plain (print v)
  | .null | .bool true | .bool false => by
      rw [print]
      exact plain_of_all (by decide)
  | .num x => by
      exact plain_number x
  | .str s => by
      exact plain_quote s
  | .arr items => by
      exact .cons (by decide) (by decide) (plain_items items)
  | .obj members => by
      exact .cons (by decide) (by decide) (plain_members members)

theorem plain_items : ∀ items : List (Value ν), Plain (printItems items)
  | [] => by
      rw [printItems]
      exact plain_of_all (by decide)
  | v :: items => by
      exact (plain_print v).append (plain_moreItems items)

theorem plain_moreItems : ∀ items : List (Value ν), Plain (printMoreItems items)
  | [] => by
      rw [printMoreItems]
      exact plain_of_all (by decide)
  | v :: items => by
      exact .append (.cons (by decide) (by decide) (plain_print v)) (plain_moreItems items)

theorem plain_members : ∀ members : Members ν, Plain (printMembers members)
  | [] => by
      rw [printMembers]
      exact plain_of_all (by decide)
  | (key, v) :: members => by
      exact .append (.append (plain_quote key) (.cons (by decide) (by decide) (plain_print v)))
        (plain_moreMembers members)

theorem plain_moreMembers : ∀ members : Members ν, Plain (printMoreMembers members)
  | [] => by
      rw [printMoreMembers]
      exact plain_of_all (by decide)
  | (key, v) :: members => by
      exact .append (.append (.cons (by decide) (by decide) (plain_quote key))
        (.cons (by decide) (by decide) (plain_print v))) (plain_moreMembers members)

end

end

end Json
