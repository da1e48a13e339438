import Mathlib.Algebra.Order.BigOperators.Group.List
import Mathlib.Algebra.Order.Group.Nat

/-! The encoding forms of text: UTF-8 with the replacement of what is not well formed,
one decoder for any bytes, and UTF-16 with its lone surrogates. -/

/-- What a decoder puts in the place of bytes or units that are no character. -/
def Char.replacement : Char := '\ufffd'

theorem Char.toNat_cases (c : Char) : c.toNat < 0xd800 ∨ 0xdfff < c.toNat ∧ c.toNat < 0x110000 := by
  rcases c.valid with low | high
  · exact .inl low
  · exact .inr high

namespace Utf8

/-- A character that has begun: `needed` more bytes, the next of them within the bounds. -/
structure Begun where
  needed : Nat
  lower : Nat
  upper : Nat
  value : Nat
  deriving DecidableEq

def first (b : Nat) : List Char × Option Begun :=
  if b < 0x80 then ([Char.ofNat b], none)
  else if 0xc2 ≤ b ∧ b ≤ 0xdf then ([], some ⟨1, 0x80, 0xbf, b - 0xc0⟩)
  else if 0xe0 ≤ b ∧ b ≤ 0xef then
    ([], some ⟨2, if b = 0xe0 then 0xa0 else 0x80, if b = 0xed then 0x9f else 0xbf, b - 0xe0⟩)
  else if 0xf0 ≤ b ∧ b ≤ 0xf4 then
    ([], some ⟨3, if b = 0xf0 then 0x90 else 0x80, if b = 0xf4 then 0x8f else 0xbf, b - 0xf0⟩)
  else ([Char.replacement], none)

/-- A byte that does not continue the character is looked at again as a first one. -/
def step : Option Begun → Nat → List Char × Option Begun
  | none, b => first b
  | some c, b =>
    if c.lower ≤ b ∧ b ≤ c.upper then
      if c.needed ≤ 1 then ([Char.ofNat (64 * c.value + (b - 0x80))], none)
      else ([], some ⟨c.needed - 1, 0x80, 0xbf, 64 * c.value + (b - 0x80)⟩)
    else (.replacement :: (first b).1, (first b).2)

def run : Option Begun → List UInt8 → List Char
  | none, [] => []
  | some _, [] => [.replacement]
  | s, b :: bytes => (step s b.toNat).1 ++ run (step s b.toNat).2 bytes

def decode (bytes : List UInt8) : List Char := run none bytes

def encode (text : List Char) : List UInt8 := text.flatMap String.utf8EncodeChar

/-- A byte that stands inside a character. -/
def continues (b : UInt8) : Bool := 0x80 ≤ b && b ≤ 0xbf

theorem continues_iff {b : UInt8} : continues b = true ↔ 0x80 ≤ b.toNat ∧ b.toNat ≤ 0xbf := by
  simp only [continues, Bool.and_eq_true, decide_eq_true_eq, UInt8.le_iff_toNat_le]
  rfl

variable {b : Nat}

theorem run_first (small : b < 256) (bytes : List UInt8) :
    run none (UInt8.ofNat b :: bytes) = (first b).1 ++ run (first b).2 bytes := by
  simp only [run, step, UInt8.toNat_ofNat', Nat.mod_eq_of_lt small]

variable {c : Begun}

theorem run_next (within : c.lower ≤ b ∧ b ≤ c.upper) (small : b < 256) (more : 1 < c.needed) (bytes : List UInt8) :
    run (some c) (UInt8.ofNat b :: bytes) =
      run (some ⟨c.needed - 1, 0x80, 0xbf, 64 * c.value + (b - 0x80)⟩) bytes := by
  simp only [run, step, UInt8.toNat_ofNat', Nat.mod_eq_of_lt small, if_pos within]
  rw [if_neg (by omega)]
  rfl

theorem run_last (within : c.lower ≤ b ∧ b ≤ c.upper) (small : b < 256) (last : c.needed = 1) (bytes : List UInt8) :
    run (some c) (UInt8.ofNat b :: bytes) = Char.ofNat (64 * c.value + (b - 0x80)) :: run none bytes := by
  simp only [run, step, UInt8.toNat_ofNat', Nat.mod_eq_of_lt small, if_pos within]
  rw [if_pos (by omega)]
  rfl

theorem run_char (c : Char) (bytes : List UInt8) :
    run none (String.utf8EncodeChar c ++ bytes) = c :: run none bytes := by
  have valid : c.val.toNat < 0xd800 ∨ 0xdfff < c.val.toNat ∧ c.val.toNat < 0x110000 := c.toNat_cases
  have same : Char.ofNat c.val.toNat = c := Char.ofNat_toNat c
  generalize hv : c.val.toNat = v at valid same
  unfold String.utf8EncodeChar
  simp only [hv]
  split_ifs with one two three
  · rw [List.cons_append, run_first (by omega), first, if_pos (by omega), same]
    rfl
  · simp only [List.cons_append, List.nil_append]
    rw [run_first (by omega), first, if_neg (by omega), if_pos (by omega), List.nil_append,
      run_last (by dsimp only; omega) (by omega) rfl]
    rw [show 64 * (v / 64 % 32 + 192 - 0xc0) + (v % 64 + 128 - 0x80) = v by omega, same]
  · simp only [List.cons_append, List.nil_append]
    rw [run_first (by omega), first, if_neg (by omega), if_neg (by omega), if_pos (by omega),
      List.nil_append, run_next (by dsimp only; split_ifs <;> omega) (by omega) (by dsimp only; decide),
      run_last (by dsimp only; omega) (by omega) rfl]
    rw [show 64 * (64 * (v / 4096 % 16 + 224 - 0xe0) + (v / 64 % 64 + 128 - 0x80)) +
      (v % 64 + 128 - 0x80) = v by omega, same]
  · simp only [List.cons_append, List.nil_append]
    rw [run_first (by omega), first, if_neg (by omega), if_neg (by omega), if_neg (by omega),
      if_pos (by omega), List.nil_append,
      run_next (by dsimp only; split_ifs <;> omega) (by omega) (by dsimp only; decide),
      run_next (by dsimp only; omega) (by omega) (by dsimp only; decide),
      run_last (by dsimp only; omega) (by omega) rfl]
    rw [show 64 * (64 * (64 * (v / 262144 % 8 + 240 - 0xf0) + (v / 4096 % 64 + 128 - 0x80)) +
      (v / 64 % 64 + 128 - 0x80)) + (v % 64 + 128 - 0x80) = v by omega, same]

theorem run_encode (text : List Char) (bytes : List UInt8) :
    run none (encode text ++ bytes) = text ++ run none bytes := by
  induction text with
  | nil => rfl
  | cons c text ih =>
    simp only [encode, List.flatMap_cons, List.append_assoc] at ih ⊢
    rw [run_char, ih]
    rfl

theorem decode_encode (text : List Char) : decode (encode text) = text := by
  have all := run_encode text []
  rw [List.append_nil] at all
  rw [decode, all]
  exact List.append_nil text

theorem encode_append (a b : List Char) : encode (a ++ b) = encode a ++ encode b :=
  List.flatMap_append

def WellFormed (bytes : List UInt8) : Prop := ∃ text, bytes = encode text

variable {bytes : List UInt8}

theorem wellFormed_iff : WellFormed bytes ↔ encode (decode bytes) = bytes := by
  constructor
  · rintro ⟨text, rfl⟩
    rw [decode_encode]
  · exact fun same => ⟨decode bytes, same.symm⟩

instance (bytes : List UInt8) : Decidable (WellFormed bytes) := decidable_of_iff' _ wellFormed_iff

theorem char_bytes (c : Char) : ∃ b bs, String.utf8EncodeChar c = b :: bs ∧ continues b = false ∧
    ∀ b ∈ bs, continues b = true := by
  have inside : ∀ n, continues (UInt8.ofNat (n % 64 + 128)) = true := by
    intro n
    rw [continues_iff, UInt8.toNat_ofNat']
    omega
  have outside : ∀ n, n < 256 → n < 0x80 ∨ 0xbf < n → continues (UInt8.ofNat n) = false := by
    intro n small out
    rw [← Bool.not_eq_true, continues_iff, UInt8.toNat_ofNat', Nat.mod_eq_of_lt small]
    omega
  have none : ∀ b ∈ ([] : List UInt8), continues b = true := fun _ absurd => nomatch absurd
  have more : ∀ {byte : UInt8} {bs : List UInt8}, continues byte = true →
      (∀ b ∈ bs, continues b = true) → ∀ b ∈ byte :: bs, continues b = true :=
    fun h hs => List.forall_mem_cons.mpr ⟨h, hs⟩
  unfold String.utf8EncodeChar
  simp only
  split_ifs with one two three
  · exact ⟨_, _, rfl, outside _ (by omega) (by omega), none⟩
  · exact ⟨_, _, rfl, outside _ (by omega) (by omega), more (inside _) none⟩
  · exact ⟨_, _, rfl, outside _ (by omega) (by omega), more (inside _) (more (inside _) none)⟩
  · exact ⟨_, _, rfl, outside _ (by omega) (by omega), more (inside _) (more (inside _) (more (inside _) none))⟩

/-- No boundary between the chunks falls inside a character. -/
def Aligned (chunks : List (List UInt8)) : Prop :=
  ∀ chunk ∈ chunks, ∀ b ∈ chunk.head?, continues b = false

variable {chunks : List (List UInt8)}

theorem aligned_of_all (h : (chunks.all fun chunk => chunk.head?.all fun b => !continues b) = true) :
    Aligned chunks := by
  intro chunk mem b head
  have first := List.all_eq_true.mp h chunk mem
  rw [Option.mem_def.mp head] at first
  simpa using first

variable {text : List Char}

theorem encode_cut {a b : List UInt8} (same : encode text = a ++ b)
    (start : ∀ first ∈ b.head?, continues first = false) :
    ∃ left right, text = left ++ right ∧ a = encode left ∧ b = encode right := by
  induction text generalizing a with
  | nil =>
    obtain ⟨rfl, rfl⟩ := List.append_eq_nil_iff.mp same.symm
    exact ⟨[], [], rfl, rfl, rfl⟩
  | cons c text ih =>
    rcases List.append_eq_append_iff.mp same with ⟨later, rfl, rest⟩ | ⟨later, char, rfl⟩
    · obtain ⟨left, right, rfl, rfl, rfl⟩ := ih rest
      exact ⟨c :: left, right, rfl, rfl, rfl⟩
    · obtain ⟨first, more, bytes, head, tail⟩ := char_bytes c
      rw [bytes] at char
      cases a with
      | nil => exact ⟨[], c :: text, rfl, rfl, by rw [encode, List.flatMap_cons, bytes, char]; rfl⟩
      | cons byte a =>
        cases char
        cases later with
        | nil =>
          refine ⟨[c], text, rfl, ?_, rfl⟩
          rw [encode, List.flatMap_cons, bytes, List.flatMap_nil, List.append_nil]
          exact (List.append_nil _).symm
        | cons byte later =>
          have out := start byte rfl
          rw [tail byte (List.mem_append_right _ List.mem_cons_self)] at out
          cases out

theorem decode_chunks (stream : chunks.flatten = encode text) (aligned : Aligned chunks) :
    ∃ texts : List (List Char), chunks = texts.map encode ∧ texts.flatten = text := by
  induction chunks generalizing text with
  | nil =>
    cases text with
    | nil => exact ⟨[], rfl, rfl⟩
    | cons c text =>
      obtain ⟨b, bs, bytes, _⟩ := char_bytes c
      rw [encode, List.flatMap_cons, bytes] at stream
      cases stream
  | cons chunk chunks ih =>
    have aligned' : Aligned chunks := fun other mem => aligned other (List.mem_cons_of_mem _ mem)
    have start : ∀ first ∈ chunks.flatten.head?, continues first = false := by
      intro first head
      obtain ⟨bs, same⟩ := List.head?_eq_some_iff.mp head
      clear ih stream head
      induction chunks with
      | nil => cases same
      | cons next chunks ih =>
        cases next with
        | nil =>
          refine ih ?_ (fun other mem => aligned' other (List.mem_cons_of_mem _ mem)) same
          intro other mem
          refine aligned other ?_
          rcases List.mem_cons.mp mem with rfl | mem
          · exact List.mem_cons_self
          · exact List.mem_cons_of_mem _ (List.mem_cons_of_mem _ mem)
        | cons byte next =>
          cases same
          exact aligned' _ List.mem_cons_self _ rfl
    obtain ⟨left, right, rfl, rfl, rest⟩ := encode_cut stream.symm start
    obtain ⟨texts, rfl, rfl⟩ := ih rest aligned'
    exact ⟨left :: texts, rfl, rfl⟩

def begins (bytes : List UInt8) : Nat := bytes.countP fun b => !continues b

theorem begins_encode (text : List Char) : begins (encode text) = text.length := by
  induction text with
  | nil => rfl
  | cons c text ih =>
    obtain ⟨b, bs, bytes, head, tail⟩ := char_bytes c
    have inside : bs.countP (fun b => !continues b) = 0 := by
      refine List.countP_eq_zero.mpr fun b mem => ?_
      rw [tail b mem]
      exact Bool.false_ne_true
    unfold begins encode at ih ⊢
    rw [List.flatMap_cons, List.countP_append, ih, bytes, List.countP_cons, inside, head]
    simp only [Bool.not_false, if_true, List.length_cons]
    omega

theorem first_bounds {b : Nat} (h : (first b).2 = some c) : 0x80 ≤ c.lower ∧ c.upper ≤ 0xbf := by
  unfold first at h
  split_ifs at h <;> cases h <;> dsimp only <;> omega

theorem first_emits {b : Nat} : (first b).2 = none → 0 < (first b).1.length := by
  unfold first
  split_ifs <;> simp

theorem begins_le_run (bytes : List UInt8) (s : Option Begun) (bounds : ∀ c ∈ s, 0x80 ≤ c.lower ∧ c.upper ≤ 0xbf) :
    begins bytes + (if s.isSome then 1 else 0) ≤ (run s bytes).length := by
  induction bytes generalizing s with
  | nil => cases s <;> simp [begins, run]
  | cons b bytes ih =>
    have head : ∀ b : UInt8, begins (b :: bytes) ≤ begins bytes + 1 := by
      intro b
      unfold begins
      rw [List.countP_cons]
      split_ifs <;> omega
    have fresh : begins bytes + 1 ≤ (first b.toNat).1.length + (run (first b.toNat).2 bytes).length := by
      have more := ih (first b.toNat).2 fun c begun => first_bounds begun
      cases begun : (first b.toNat).2 with
      | none =>
        have emits := first_emits begun
        rw [begun] at more
        omega
      | some c =>
        rw [begun] at more
        simp only [Option.isSome_some, if_true] at more
        omega
    cases s with
    | none =>
      have le := head b
      simp only [run, step, List.length_append, Option.isSome_none, Bool.false_eq_true, if_false]
      omega
    | some c =>
      obtain ⟨low, up⟩ := bounds c rfl
      simp only [run, step, Option.isSome_some, if_true]
      split_ifs with within last
      · have inside : begins (b :: bytes) = begins bytes := by
          unfold begins
          rw [List.countP_cons, continues_iff.mpr ⟨by omega, by omega⟩]
          rfl
        have more := ih none fun _ absurd => nomatch absurd
        simp only [List.length_append, List.length_singleton]
        omega
      · have inside : begins (b :: bytes) = begins bytes := by
          unfold begins
          rw [List.countP_cons, continues_iff.mpr ⟨by omega, by omega⟩]
          rfl
        have more := ih (some ⟨c.needed - 1, 0x80, 0xbf, 64 * c.value + (b.toNat - 0x80)⟩) (by
          rintro d ⟨⟩
          exact ⟨Nat.le_refl _, Nat.le_refl _⟩)
        simp only [Option.isSome_some, if_true] at more
        simp only [List.length_append, List.length_nil]
        omega
      · have le := head b
        simp only [List.length_append, List.length_cons]
        omega

theorem begins_lt_decode {b : UInt8} (inside : continues b = true) :
    begins (b :: bytes) < (decode (b :: bytes)).length := by
  have more := begins_le_run bytes none fun _ absurd => nomatch absurd
  have range := continues_iff.mp inside
  have same : first b.toNat = ([.replacement], none) := by
    unfold first
    rw [if_neg (by omega), if_neg (by omega), if_neg (by omega), if_neg (by omega)]
  have count : begins (b :: bytes) = begins bytes := by
    unfold begins
    rw [List.countP_cons, inside]
    rfl
  simp only [decode, run, step, same, List.length_append, List.length_singleton]
  omega

theorem aligned_of_decode (stream : chunks.flatten = encode text) (read : (chunks.map decode).flatten = text) :
    Aligned chunks := by
  have counted : (chunks.map begins).sum = (chunks.map fun chunk => (decode chunk).length).sum := by
    have bytes : (chunks.map begins).sum = begins chunks.flatten := by
      unfold begins
      rw [List.countP_flatten]
    have chars : (chunks.map fun chunk => (decode chunk).length).sum = text.length := by
      rw [← read, List.length_flatten, List.map_map]
      rfl
    rw [bytes, chars, stream, begins_encode]
  have each : ∀ chunk : List UInt8, begins chunk ≤ (decode chunk).length := by
    intro chunk
    have le := begins_le_run chunk none fun _ absurd => nomatch absurd
    exact le
  intro chunk mem b head
  by_contra inside
  obtain ⟨bytes, rfl⟩ := List.head?_eq_some_iff.mp head
  have less : begins (b :: bytes) < (decode (b :: bytes)).length :=
    begins_lt_decode (Bool.not_eq_false _ ▸ inside)
  have strict : (chunks.map begins).sum < (chunks.map fun chunk => (decode chunk).length).sum :=
    List.sum_lt_sum _ _ (fun chunk _ => each chunk) ⟨_, mem, less⟩
  omega

end Utf8

abbrev CodeUnits := List UInt16

instance : LawfulBEq CodeUnits := inferInstance

namespace Utf16

def isHigh (u : UInt16) : Bool := 0xd800 ≤ u.toNat && u.toNat ≤ 0xdbff

def isLow (u : UInt16) : Bool := 0xdc00 ≤ u.toNat && u.toNat ≤ 0xdfff

/-- A character, or a surrogate without its partner. -/
inductive CodePoint where
  | scalar (c : Char)
  | lone (u : UInt16)
  deriving DecidableEq

def pair (high low : UInt16) : Char :=
  Char.ofNat (0x10000 + (high.toNat - 0xd800) * 0x400 + (low.toNat - 0xdc00))

def single (u : UInt16) : CodePoint :=
  if isHigh u || isLow u then .lone u else .scalar (Char.ofNat u.toNat)

def codePoints : CodeUnits → List CodePoint
  | [] => []
  | [u] => [single u]
  | u :: v :: us =>
    if isHigh u && isLow v then .scalar (pair u v) :: codePoints us
    else single u :: codePoints (v :: us)

def units (c : Char) : CodeUnits :=
  if c.toNat < 0x10000 then [UInt16.ofNat c.toNat]
  else [UInt16.ofNat (0xd800 + (c.toNat - 0x10000) / 0x400), UInt16.ofNat (0xdc00 + (c.toNat - 0x10000) % 0x400)]

def CodePoint.units : CodePoint → CodeUnits
  | .scalar c => Utf16.units c
  | .lone u => [u]

def CodePoint.char : CodePoint → Char
  | .scalar c => c
  | .lone _ => .replacement

def encode (text : List Char) : CodeUnits := text.flatMap units

/-- The text of a string, with its lone surrogates replaced. -/
def decode (us : CodeUnits) : List Char := (codePoints us).map CodePoint.char

/-- Every surrogate has its partner. -/
def WellFormed (us : CodeUnits) : Prop := ∃ text, us = encode text

variable {u : UInt16}

theorem isHigh_iff : isHigh u = true ↔ 0xd800 ≤ u.toNat ∧ u.toNat ≤ 0xdbff := by
  simp only [isHigh, Bool.and_eq_true, decide_eq_true_eq]

theorem isLow_iff : isLow u = true ↔ 0xdc00 ≤ u.toNat ∧ u.toNat ≤ 0xdfff := by
  simp only [isLow, Bool.and_eq_true, decide_eq_true_eq]

theorem toNat_ofNat_char {n : Nat} (valid : n < 0xd800 ∨ 0xdfff < n ∧ n < 0x110000) : (Char.ofNat n).toNat = n := by
  have ok : n.isValidChar := by
    rcases valid with low | high
    · exact .inl low
    · exact .inr high
  rw [Char.ofNat, dif_pos ok]
  rfl

theorem units_single (u : UInt16) : (single u).units = [u] := by
  have small := u.toNat_lt
  unfold single
  split_ifs with surrogate
  · rfl
  · rw [Bool.or_eq_true, isHigh_iff, isLow_iff] at surrogate
    have value := toNat_ofNat_char (n := u.toNat) (by omega)
    simp only [CodePoint.units, units, value]
    rw [if_pos (by omega), UInt16.ofNat_toNat]

theorem units_pair {v : UInt16} (high : isHigh u = true) (low : isLow v = true) : units (pair u v) = [u, v] := by
  rw [isHigh_iff] at high
  rw [isLow_iff] at low
  have value := toNat_ofNat_char (n := 0x10000 + (u.toNat - 0xd800) * 0x400 + (v.toNat - 0xdc00)) (by omega)
  unfold units pair
  rw [value, if_neg (by omega)]
  rw [show 0xd800 + (0x10000 + (u.toNat - 0xd800) * 0x400 + (v.toNat - 0xdc00) - 0x10000) / 0x400 = u.toNat by omega,
    show 0xdc00 + (0x10000 + (u.toNat - 0xd800) * 0x400 + (v.toNat - 0xdc00) - 0x10000) % 0x400 =
      v.toNat by omega, UInt16.ofNat_toNat, UInt16.ofNat_toNat]

theorem units_codePoints (us : CodeUnits) : (codePoints us).flatMap CodePoint.units = us := by
  induction us using codePoints.induct with
  | case1 => rfl
  | case2 u => simp only [codePoints, List.flatMap_cons, List.flatMap_nil, units_single, List.append_nil]
  | case3 u v us both ih =>
    rw [Bool.and_eq_true] at both
    rw [codePoints, if_pos (by rw [both.1, both.2]; rfl), List.flatMap_cons, ih, CodePoint.units,
      units_pair both.1 both.2]
    rfl
  | case4 u v us single ih =>
    rw [codePoints, if_neg single, List.flatMap_cons, ih, units_single]
    rfl

theorem codePoints_cons (high : isHigh u = false) (us : CodeUnits) :
    codePoints (u :: us) = single u :: codePoints us := by
  cases us with
  | nil => rfl
  | cons v us => rw [codePoints, if_neg (by rw [high]; exact Bool.false_ne_true)]

theorem codePoints_char (c : Char) (us : CodeUnits) : codePoints (units c ++ us) = .scalar c :: codePoints us := by
  have valid := c.toNat_cases
  have same : Char.ofNat c.toNat = c := Char.ofNat_toNat c
  unfold units
  split_ifs with small
  · have value : (UInt16.ofNat c.toNat).toNat = c.toNat := by
      rw [UInt16.toNat_ofNat', Nat.mod_eq_of_lt (by omega)]
    have high : isHigh (UInt16.ofNat c.toNat) = false := by
      rw [← Bool.not_eq_true, isHigh_iff, value]
      omega
    have low : isLow (UInt16.ofNat c.toNat) = false := by
      rw [← Bool.not_eq_true, isLow_iff, value]
      omega
    rw [List.singleton_append, codePoints_cons high, single, high, low, value, same]
    rfl
  · have high : (UInt16.ofNat (0xd800 + (c.toNat - 0x10000) / 0x400)).toNat =
        0xd800 + (c.toNat - 0x10000) / 0x400 := by
      rw [UInt16.toNat_ofNat', Nat.mod_eq_of_lt (by omega)]
    have low : (UInt16.ofNat (0xdc00 + (c.toNat - 0x10000) % 0x400)).toNat =
        0xdc00 + (c.toNat - 0x10000) % 0x400 := by
      rw [UInt16.toNat_ofNat', Nat.mod_eq_of_lt (by omega)]
    simp only [List.cons_append, List.nil_append]
    rw [codePoints, if_pos, pair, high, low]
    · rw [show 0x10000 + (0xd800 + (c.toNat - 0x10000) / 0x400 - 0xd800) * 0x400 +
        (0xdc00 + (c.toNat - 0x10000) % 0x400 - 0xdc00) = c.toNat by omega, same]
    · rw [Bool.and_eq_true, isHigh_iff, isLow_iff, high, low]
      omega

theorem codePoints_encode (text : List Char) (us : CodeUnits) :
    codePoints (encode text ++ us) = text.map .scalar ++ codePoints us := by
  induction text with
  | nil => rfl
  | cons c text ih =>
    rw [encode, List.flatMap_cons, List.append_assoc, codePoints_char, ← encode, ih]
    rfl

theorem decode_encode (text : List Char) : decode (encode text) = text := by
  have all := codePoints_encode text []
  rw [List.append_nil] at all
  rw [decode, all, codePoints, List.append_nil, List.map_map]
  exact List.map_id text

theorem encode_decode {us : CodeUnits} (h : WellFormed us) : encode (decode us) = us := by
  obtain ⟨text, rfl⟩ := h
  rw [decode_encode]

theorem encode_append (a b : List Char) : encode (a ++ b) = encode a ++ encode b :=
  List.flatMap_append

theorem WellFormed.append {a b : CodeUnits} (ha : WellFormed a) (hb : WellFormed b) : WellFormed (a ++ b) := by
  obtain ⟨s, rfl⟩ := ha
  obtain ⟨t, rfl⟩ := hb
  exact ⟨s ++ t, (encode_append s t).symm⟩

end Utf16
