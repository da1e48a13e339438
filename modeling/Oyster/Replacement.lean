import Mathlib.Data.List.Infix
import Mathlib.Data.Option.Basic

/-! Every occurrence of a text replaced by a marker, from the left and without overlap, one text
after the other: where a cut of the text is a cut of the result, and what occurs in the result.
A marker that no text meets stands as one letter of its own among the letters that were kept. -/

namespace Replacement

variable {α : Type}

/-- No occurrence of the value reaches over the cut. -/
def Clear (value a b : List α) : Prop :=
  ∀ x y, value = x ++ y → x ≠ [] → y ≠ [] → x <:+ a → ¬ y <+: b

variable {a b : List α}

theorem prefix_append_cases {x : List α} (starts : x <+: a ++ b) : x <+: a ∨ ∃ y, y ≠ [] ∧ x = a ++ y ∧ y <+: b := by
  obtain ⟨rest, same⟩ := starts
  rcases List.append_eq_append_iff.mp same with ⟨later, whole, _⟩ | ⟨later, whole, rfl⟩
  · exact .inl ⟨later, whole.symm⟩
  · by_cases ends : later = []
    · rw [ends, List.append_nil] at whole
      exact .inl (whole ▸ List.prefix_refl _)
    · exact .inr ⟨later, ends, whole, List.prefix_append _ _⟩

def flat (marker : List α) (text : List (Option α)) : List α := text.flatMap fun c => c.elim marker fun c => [c]

/-- Value and marker overlap nowhere, and neither contains the other. -/
structure Apart (marker value : List α) : Prop where
  nonempty : value ≠ []
  ahead : ∀ x ≠ [], x <+: marker → ¬ x <:+ value
  behind : ∀ x ≠ [], x <:+ marker → ¬ x <+: value
  outside : ¬ marker <:+: value
  inside : ¬ value <:+: marker

section

variable {marker value : List α} {x : List α}

theorem Apart.not_prefix (apart : Apart marker value) (left : x ≠ []) (rest : x <:+ value) (text : List α) :
    ¬ x <+: marker ++ text := by
  intro starts
  rcases prefix_append_cases starts with within | ⟨y, _, rfl, _⟩
  · exact apart.ahead x left within rest
  · exact apart.outside ((List.prefix_append _ _).isInfix.trans rest.isInfix)

theorem Apart.prefix_iff (apart : Apart marker value) (rest : x <:+ value) (text : List (Option α)) :
    x <+: flat marker text ↔ x.map some <+: text := by
  induction text generalizing x with
  | nil => cases x <;> simp [flat]
  | cons c text ih =>
    cases x with
    | nil => simp
    | cons d x =>
      cases c with
      | none =>
        have marked := apart.not_prefix (List.cons_ne_nil d x) rest (flat marker text)
        simp only [List.map_cons, List.cons_prefix_cons, reduceCtorEq, false_and, iff_false]
        exact marked
      | some c =>
        rw [List.map_cons, List.cons_prefix_cons, Option.some_inj, ← ih ((List.suffix_cons _ _).trans rest)]
        exact List.cons_prefix_cons

theorem Apart.infix_iff (apart : Apart marker value) (text : List (Option α)) :
    value <:+: flat marker text ↔ value.map some <:+: text := by
  induction text with
  | nil => simp [flat]
  | cons c text ih =>
    rw [List.infix_cons_iff, ← ih, ← apart.prefix_iff (List.suffix_refl _)]
    cases c with
    | none =>
      constructor
      · intro occurs
        rcases List.infix_append_iff_ne_nil.mp (show value <:+: marker ++ flat marker text from occurs) with
          within | later | ⟨x, y, left, _, rfl, ends, _⟩
        · exact absurd within apart.inside
        · exact .inr later
        · exact absurd (List.prefix_append x y) (apart.behind x left ends)
      · rintro (starts | later)
        · exact starts.isInfix
        · exact later.trans (List.suffix_append _ _).isInfix
    | some c => exact List.infix_cons_iff

end

variable {values : List (List α)}

variable {value : List α}

variable [DecidableEq α]

/-- The pieces between the occurrences of a value; `skip` letters still belong to one. -/
def splitFrom (value : List α) : Nat → List α → List (List α)
  | _, [] => [[]]
  | skip + 1, _ :: text => splitFrom value skip text
  | 0, c :: text =>
    if value <+: c :: text then [] :: splitFrom value (value.length - 1) text
    else (splitFrom value 0 text).modifyHead (c :: ·)

def split (value text : List α) : List (List α) := splitFrom value 0 text

def replaceAll (marker value text : List α) : List α := marker.intercalate (split value text)

/-- The values one after the other, each in what the others have left. -/
def redact (marker : List α) (values : List (List α)) (text : List α) : List α :=
  values.foldl (fun result value => replaceAll marker value result) text

theorem splitFrom_ne_nil (value : List α) (skip : Nat) (text : List α) : splitFrom value skip text ≠ [] := by
  induction text generalizing skip with
  | nil =>
    cases skip <;> exact List.cons_ne_nil _ _
  | cons c text ih =>
    cases skip with
    | succ skip => exact ih skip
    | zero =>
      rw [splitFrom]
      split_ifs
      · exact List.cons_ne_nil _ _
      · cases shape : splitFrom value 0 text with
        | nil => exact absurd shape (ih 0)
        | cons piece pieces => exact List.cons_ne_nil _ _

theorem splitFrom_drop (value : List α) (skip : Nat) (text : List α) :
    splitFrom value skip text = split value (text.drop skip) := by
  induction text generalizing skip with
  | nil =>
    cases skip <;> rfl
  | cons c text ih =>
    cases skip with
    | zero => rfl
    | succ skip => exact ih skip

theorem replaceAll_value (nonempty : value ≠ []) (marker text : List α) :
    replaceAll marker value (value ++ text) = marker ++ replaceAll marker value text := by
  cases value with
  | nil => exact absurd rfl nonempty
  | cons c value =>
    have cut : split (c :: value) (c :: value ++ text) = [] :: split (c :: value) text := by
      have here : c :: value <+: c :: (value ++ text) := List.prefix_append (c :: value) text
      rw [split, List.cons_append, splitFrom, if_pos here, splitFrom_drop, List.length_cons, Nat.add_sub_cancel,
        List.drop_left]
    unfold replaceAll
    rw [cut]
    cases shape : split (c :: value) text with
    | nil => exact absurd shape (splitFrom_ne_nil _ 0 text)
    | cons piece pieces => rw [List.intercalate_cons_cons, List.nil_append]

variable {text : List α} {c : α}

theorem replaceAll_cons (differs : ¬ value <+: c :: text) (marker : List α) :
    replaceAll marker value (c :: text) = c :: replaceAll marker value text := by
  have kept : split value (c :: text) = (split value text).modifyHead (c :: ·) := by
    rw [split, splitFrom, if_neg differs]
    rfl
  unfold replaceAll
  rw [kept]
  cases shape : split value text with
  | nil => exact absurd shape (splitFrom_ne_nil _ 0 text)
  | cons piece pieces =>
    cases pieces with
    | nil => rw [List.modifyHead_cons, List.intercalate_singleton, List.intercalate_singleton]
    | cons next pieces =>
      rfl

@[elab_as_elim]
theorem reading (nonempty : value ≠ []) {motive : List α → Prop} (nil : motive [])
    (found : ∀ text, motive text → motive (value ++ text))
    (kept : ∀ c text, ¬ value <+: c :: text → motive text → motive (c :: text)) (text : List α) : motive text := by
  induction size : text.length using Nat.strong_induction_on generalizing text with
  | _ n ih =>
    subst size
    cases text with
    | nil => exact nil
    | cons c text =>
      by_cases here : value <+: c :: text
      · obtain ⟨rest, same⟩ := here
        have shorter : rest.length < (c :: text).length := by
          rw [← same, List.length_append]
          have := List.length_pos_iff.mpr nonempty
          omega
        rw [← same]
        exact found rest (ih _ shorter rest rfl)
      · exact kept c text here (ih _ (Nat.lt_succ_self _) text rfl)

variable {marker : List α}

section Letter

variable {value : List α} {z : α} {x text : List α}

theorem prefix_of_replaceAll (nonempty : value ≠ []) (free : z ∉ x) (starts : x <+: replaceAll [z] value text) :
    x <+: text := by
  induction text using reading nonempty generalizing x with
  | nil => exact starts
  | found text ih =>
    rw [replaceAll_value nonempty] at starts
    cases x with
    | nil => exact List.nil_prefix
    | cons d x =>
      obtain ⟨rfl, _⟩ := List.cons_prefix_cons.mp starts
      exact absurd List.mem_cons_self free
  | kept c text differs ih =>
    rw [replaceAll_cons differs] at starts
    cases x with
    | nil => exact List.nil_prefix
    | cons d x =>
      obtain ⟨rfl, later⟩ := List.cons_prefix_cons.mp starts
      exact List.cons_prefix_cons.mpr ⟨rfl, ih (fun mem => free (List.mem_cons_of_mem _ mem)) later⟩

theorem replaceAll_of_not_mem (nonempty : value ≠ []) (free : z ∉ replaceAll [z] value text) :
    replaceAll [z] value text = text := by
  induction text using reading nonempty with
  | nil => rfl
  | found text ih =>
    rw [replaceAll_value nonempty] at free
    exact absurd List.mem_cons_self free
  | kept c text differs ih =>
    rw [replaceAll_cons differs] at free ⊢
    rw [ih fun mem => free (List.mem_cons_of_mem _ mem)]

theorem suffix_of_replaceAll (nonempty : value ≠ []) (free : z ∉ x) (ends : x <:+ replaceAll [z] value text) :
    x <:+ text := by
  induction text using reading nonempty with
  | nil => exact ends
  | found text ih =>
    rw [replaceAll_value nonempty] at ends
    rcases List.suffix_cons_iff.mp ends with rfl | later
    · exact absurd List.mem_cons_self free
    · exact (ih later).trans (List.suffix_append _ _)
  | kept c text differs ih =>
    have whole := replaceAll_cons differs [z]
    rw [whole] at ends
    rcases List.suffix_cons_iff.mp ends with rfl | later
    · rw [← whole] at free ⊢
      rw [replaceAll_of_not_mem nonempty free]
    · exact (ih later).trans (List.suffix_cons _ _)

theorem Clear.replaceAll {other a b : List α} (nonempty : value ≠ []) (free : z ∉ other)
    (clear : Clear other a b) : Clear other (replaceAll [z] value a) (replaceAll [z] value b) := by
  intro x y same left right ends starts
  rw [same, List.mem_append, not_or] at free
  exact clear x y same left right (suffix_of_replaceAll nonempty free.1 ends)
    (prefix_of_replaceAll nonempty free.2 starts)

variable {values : List (List α)}

end Letter

omit [DecidableEq α] in
theorem apart_iff : Apart marker value ↔ value ≠ [] ∧
    (∀ x ∈ marker.inits, x ≠ [] → ¬ x <:+ value) ∧ (∀ x ∈ marker.tails, x ≠ [] → ¬ x <+: value) ∧
    ¬ marker <:+: value ∧ ¬ value <:+: marker := by
  simp only [List.mem_inits, List.mem_tails]
  constructor
  · exact fun h => ⟨h.nonempty, fun x within left => h.ahead x left within,
      fun x within left => h.behind x left within, h.outside, h.inside⟩
  · exact fun h => ⟨h.1, fun x left within => h.2.1 x within left, fun x left within => h.2.2.1 x within left,
      h.2.2.2.1, h.2.2.2.2⟩

instance (marker value : List α) : Decidable (Apart marker value) := decidable_of_iff' _ apart_iff

section Apart

variable {marker value : List α}

variable {values : List (List α)}

end Apart

end Replacement
