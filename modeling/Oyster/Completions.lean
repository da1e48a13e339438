import Oyster.SearchExpression
import Oyster.SecretOutput
import Mathlib.Data.List.DropRight

/-! The completions of the composer. A trigger is read off in front of the caret, and a completion that
is accepted is put in the place of the trigger's text, which is looked for in the whole value. -/
namespace Completion
open SearchQuery (isSpace toLowerCase)
open SecretOutput (lastIndexOf)

def slash : UInt16 := 0x2f

def space : UInt16 := 0x20

/-- The text area, with its caret or its selection. -/
structure Element where
  value : CodeUnits
  selectionStart : Nat
  selectionEnd : Nat
  ordered : selectionStart ≤ selectionEnd
  within : selectionEnd ≤ value.length

structure PathTrigger where
  text : CodeUnits
  start : Nat
  deriving DecidableEq

structure CommandTrigger where
  text : CodeUnits
  query : CodeUnits

/-- The pattern takes all that stands in front of the caret without a space, if a slash is in it. -/
def pathTrigger (element : Element) : Option PathTrigger :=
  let text := (element.value.take element.selectionStart).rtakeWhile (!isSpace ·)
  if slash ∈ text then some ⟨text, element.selectionStart - text.length⟩ else none

def commandTrigger (element : Element) : Option CommandTrigger :=
  if element.selectionStart ≠ element.value.length then none
  else
    match element.value with
    | [] => none
    | c :: query =>
      if c = slash ∧ query.all (fun c => !isSpace c && c ≠ slash) then some ⟨element.value, query⟩ else none

structure PathRequest where
  browsePath : Option CodeUnits
  typedDir : CodeUnits
  entryPrefix : CodeUnits
  allowedRoots : Bool

/-- A response of the browser: the names of the directories and of the files. -/
structure Listing where
  path : Option CodeUnits
  home : Option CodeUnits
  dirs : List CodeUnits
  files : List CodeUnits

structure PathItem where
  path : CodeUnits
  name : CodeUnits
  directory : Bool
  deriving DecidableEq

/-- `replace(/\/$/, "")`. -/
def withoutSlash (path : CodeUnits) : CodeUnits := if path.getLast? = some slash then path.dropLast else path

def pathCompletionRequest (text : CodeUnits) (workdir : Option CodeUnits) : PathRequest :=
  let typedDir := text.rdropWhile (· ≠ slash)
  let entryPrefix := text.rtakeWhile (· ≠ slash)
  if text.head? ≠ some slash then
    let base := withoutSlash (workdir.getD [])
    let relativeDir := if [0x2e, slash] <+: typedDir then typedDir.drop 2 else typedDir
    ⟨some (if base ≠ [] then base ++ slash :: relativeDir else relativeDir), typedDir, entryPrefix, false⟩
  else if typedDir = [slash] then ⟨workdir, typedDir, entryPrefix, true⟩
  else ⟨some typedDir, typedDir, entryPrefix, false⟩

def Listing.roots (data : Listing) : List CodeUnits := ([data.path, data.home].filterMap id).filter (· ≠ [])

def baseName (path : CodeUnits) : CodeUnits := (((path.splitOn slash).filter (· ≠ [])).getLast?).getD [slash]

def pathCompletionIsExact (trigger : PathTrigger) (request : PathRequest) (data : Listing) : Bool :=
  if request.allowedRoots then data.roots.any fun path => withoutSlash path ++ [slash] = trigger.text
  else trigger.text ∈ (data.dirs.map fun name => request.typedDir ++ name ++ [slash]) ++
    data.files.map fun name => request.typedDir ++ name

section
variable (lower : Utf16.CodePoint → CodeUnits)

def startsWithQuery (query name : CodeUnits) : Bool := toLowerCase lower query <+: toLowerCase lower name

def pathCompletionItems (trigger : PathTrigger) (request : PathRequest) (data : Listing) : List PathItem :=
  if request.allowedRoots then
    (data.roots.eraseDups.map fun path => ⟨withoutSlash path ++ [slash], baseName path, true⟩).filter fun entry =>
      startsWithQuery lower request.entryPrefix entry.name && entry.path ≠ trigger.text
  else
    let entries := (data.dirs.map fun name => (name, true)) ++ data.files.map fun name => (name, false)
    ((entries.filter fun entry => startsWithQuery lower request.entryPrefix entry.1).map fun entry =>
      ⟨request.typedDir ++ entry.1 ++ (if entry.2 then [slash] else []), entry.1, entry.2⟩).filter fun entry =>
        entry.path ≠ trigger.text

structure Insertion where
  value : CodeUnits
  position : Nat

def pad (before : CodeUnits) : CodeUnits := if before ≠ [] ∧ !before.getLast?.any isSpace then [space] else []

def padAfter (after : CodeUnits) : CodeUnits := if after ≠ [] ∧ !after.head?.any isSpace then [space] else []

def insertion (before after text : CodeUnits) : Insertion :=
  ⟨before ++ pad before ++ text ++ padAfter after ++ after, (before ++ pad before ++ text).length⟩

def insertionAtCaret (value : CodeUnits) (selectionStart selectionEnd : Nat) (text : CodeUnits) : Insertion :=
  insertion (value.take selectionStart) (value.drop selectionEnd) text

def insertionReplacing (value placeholder text : CodeUnits) : Option Insertion :=
  let index := if placeholder ≠ [] then lastIndexOf value placeholder value.length else -1
  if index = -1 then none
  else some (insertion (value.take index.toNat) (value.drop (index.toNat + placeholder.length)) text)

/-- The text area with the value, and with the caret at the position as far as the value reaches. -/
def Insertion.shown (inserted : Insertion) : Element :=
  ⟨inserted.value, min inserted.position inserted.value.length, min inserted.position inserted.value.length,
    Nat.le_refl _, Nat.min_le_right _ _⟩

def insertAtTextarea (element : Element) (placeholder text : CodeUnits) : Element :=
  ((insertionReplacing element.value placeholder text).getD
    (insertionAtCaret element.value element.selectionStart element.selectionEnd text)).shown

/-- A completion that the palette offers, with the text and the place of its trigger. With more than ten
paths it offers the file explorer, in which any path can be picked. -/
inductive Offered : Element → PathTrigger → CodeUnits → Prop where
  | command {element : Element} {trigger : CommandTrigger} {names : List CodeUnits} {name : CodeUnits}
      (found : commandTrigger element = some trigger) (known : name ∈ names)
      (starts : startsWithQuery lower trigger.query name) :
      Offered element ⟨trigger.text, 0⟩ (slash :: name ++ [space])
  | path {element : Element} {trigger : PathTrigger} {workdir : Option CodeUnits} {data : Listing} {item : PathItem}
      (none : commandTrigger element = none) (found : pathTrigger element = some trigger)
      (unfinished : ¬ pathCompletionIsExact trigger (pathCompletionRequest trigger.text workdir) data)
      (few : (pathCompletionItems lower trigger (pathCompletionRequest trigger.text workdir) data).length ≤ 10)
      (listed : item ∈ pathCompletionItems lower trigger (pathCompletionRequest trigger.text workdir) data) :
      Offered element trigger item.path
  | picked {element : Element} {trigger : PathTrigger} {workdir : Option CodeUnits} {data : Listing} (path : CodeUnits)
      (none : commandTrigger element = none) (found : pathTrigger element = some trigger)
      (unfinished : ¬ pathCompletionIsExact trigger (pathCompletionRequest trigger.text workdir) data)
      (many : 10 < (pathCompletionItems lower trigger (pathCompletionRequest trigger.text workdir) data).length) :
      Offered element trigger path

end

/-- The text that ends at the caret is replaced, with at most one space on each side of the new text;
the caret stands behind the new text. -/
def Edits (element : Element) (token text : CodeUnits) (result : Element) : Prop :=
  ∃ before after left right, element.value = before ++ token ++ after ∧
    (before ++ token).length = element.selectionStart ∧ (left = [] ∨ left = [space]) ∧
    (right = [] ∨ right = [space]) ∧ result.value = before ++ left ++ text ++ right ++ after ∧
    result.selectionStart = (before ++ left ++ text).length ∧ result.selectionEnd = result.selectionStart

/-- The text does not begin again behind its place. -/
def LastPlace (element : Element) (token : PathTrigger) : Prop :=
  ∀ i, token.start < i → ¬ token.text <+: element.value.drop i

variable {element : Element} {trigger : CommandTrigger}

theorem commandTrigger_eq (found : commandTrigger element = some trigger) :
    trigger.text = element.value ∧ element.selectionStart = element.value.length ∧ trigger.text.head? = some slash := by
  unfold commandTrigger at found
  split_ifs at found with atEnd
  cases same : element.value with
  | nil => rw [same] at found; exact absurd found (by simp)
  | cons c query =>
    rw [same] at found
    dsimp only at found
    split_ifs at found with named
    cases found
    have stands : element.selectionStart = element.value.length := by simpa using atEnd
    exact ⟨rfl, by rw [stands, same], by rw [List.head?_cons, named.1]⟩

theorem pathTrigger_eq {trigger : PathTrigger} (found : pathTrigger element = some trigger) :
    trigger.text = (element.value.take element.selectionStart).rtakeWhile (!isSpace ·) ∧
      trigger.start = element.selectionStart - trigger.text.length ∧ slash ∈ trigger.text := by
  unfold pathTrigger at found
  dsimp only at found
  split_ifs at found with slashed
  cases found
  exact ⟨rfl, rfl, slashed⟩

structure Stands (element : Element) (token : PathTrigger) (before after : CodeUnits) : Prop where
  value : element.value = before ++ token.text ++ after
  start : before.length = token.start
  caret : (before ++ token.text).length = element.selectionStart
  letter : ∃ c rest, token.text = c :: rest ∧ isSpace c = false

variable {token : PathTrigger} {before after : CodeUnits}

theorem Stands.nonempty (stands : Stands element token before after) : token.text ≠ [] := by
  obtain ⟨c, rest, same, _⟩ := stands.letter
  rw [same]
  exact List.cons_ne_nil _ _

theorem Stands.at_start (stands : Stands element token before after) :
    element.value.drop token.start = token.text ++ after := by
  rw [stands.value, ← stands.start, List.append_assoc, List.drop_left]

theorem slash_notSpace : isSpace slash = false := by decide

theorem commandTrigger_stands (found : commandTrigger element = some trigger) :
    Stands element ⟨trigger.text, 0⟩ [] [] := by
  obtain ⟨whole, atEnd, slashed⟩ := commandTrigger_eq found
  obtain ⟨rest, same⟩ := List.head?_eq_some_iff.mp slashed
  exact ⟨by simp [whole], rfl, by simp [whole, atEnd], slash, rest, same, slash_notSpace⟩

theorem pathTrigger_stands {trigger : PathTrigger} (found : pathTrigger element = some trigger) :
    ∃ before after, Stands element trigger before after := by
  obtain ⟨text, start, slashed⟩ := pathTrigger_eq found
  have caret : element.selectionStart ≤ element.value.length := element.ordered.trans element.within
  have split : (element.value.take element.selectionStart).rdropWhile (!isSpace ·) ++ trigger.text =
      element.value.take element.selectionStart := by
    rw [text]
    exact List.rdropWhile_append_rtakeWhile
  have length : ((element.value.take element.selectionStart).rdropWhile (!isSpace ·) ++ trigger.text).length =
      element.selectionStart := by
    rw [split, List.length_take, min_eq_left caret]
  refine ⟨(element.value.take element.selectionStart).rdropWhile (!isSpace ·),
    element.value.drop element.selectionStart, ?_, ?_, length, ?_⟩
  · rw [split, List.take_append_drop]
  · rw [List.length_append] at length
    omega
  · obtain ⟨c, rest, same⟩ := List.exists_cons_of_ne_nil (List.ne_nil_of_mem slashed)
    have letter := List.mem_rtakeWhile_imp (text ▸ same ▸ List.mem_cons_self : c ∈ _)
    exact ⟨c, rest, same, by simpa using letter⟩

theorem Offered.stands {lower : Utf16.CodePoint → CodeUnits} {text : CodeUnits}
    (offered : Offered lower element token text) : ∃ before after, Stands element token before after := by
  cases offered with
  | command found => exact ⟨[], [], commandTrigger_stands found⟩
  | path _ found => exact pathTrigger_stands found
  | picked _ _ found => exact pathTrigger_stands found

theorem insertionReplacing_eq (stands : Stands element token before after) (text : CodeUnits) :
    ∃ i, token.start ≤ i ∧ token.text <+: element.value.drop i ∧ (∀ j, token.text <+: element.value.drop j → j ≤ i) ∧
      insertionReplacing element.value token.text text =
        some (insertion (element.value.take i) (element.value.drop (i + token.text.length)) text) := by
  have here : token.text <+: element.value.drop token.start := stands.at_start ▸ List.prefix_append _ _
  have bound : ∀ j, token.text <+: element.value.drop j → j ≤ ((element.value.length : Nat) : Int).toNat := by
    intro j starts
    have := SecretOutput.index_lt stands.nonempty starts
    omega
  rcases SecretOutput.lastIndexOf_spec element.value stands.nonempty (element.value.length : Nat) with
    ⟨_, absent⟩ | ⟨i, le, same, there, last⟩
  · exact absurd here (absent _ (bound _ here))
  · refine ⟨i, last _ (bound _ here) here, there, fun j starts => last j (bound j starts) starts, ?_⟩
    unfold insertionReplacing
    rw [if_pos stands.nonempty, same]
    rw [if_neg (by omega), Int.toNat_natCast]

theorem insertion_shown (before after text : CodeUnits) :
    (insertion before after text).shown.selectionStart = (before ++ pad before ++ text).length ∧
      (insertion before after text).shown.selectionEnd = (before ++ pad before ++ text).length := by
  have within : (insertion before after text).position ≤ (insertion before after text).value.length := by
    simp only [insertion, List.length_append]
    omega
  exact ⟨min_eq_left within, min_eq_left within⟩

theorem pad_cases (before : CodeUnits) : pad before = [] ∨ pad before = [space] := by
  unfold pad
  split_ifs
  · exact .inr rfl
  · exact .inl rfl

theorem padAfter_cases (after : CodeUnits) : padAfter after = [] ∨ padAfter after = [space] := by
  unfold padAfter
  split_ifs
  · exact .inr rfl
  · exact .inl rfl

theorem insertAtTextarea_cases (stands : Stands element token before after) (text : CodeUnits) :
    ∃ i, token.start ≤ i ∧ token.text <+: element.value.drop i ∧ (∀ j, token.text <+: element.value.drop j → j ≤ i) ∧
      (insertAtTextarea element token.text text).value = element.value.take i ++ pad (element.value.take i) ++ text ++
          padAfter (element.value.drop (i + token.text.length)) ++ element.value.drop (i + token.text.length) ∧
      (insertAtTextarea element token.text text).selectionStart =
        (element.value.take i ++ pad (element.value.take i) ++ text).length ∧
      (insertAtTextarea element token.text text).selectionEnd =
        (insertAtTextarea element token.text text).selectionStart := by
  obtain ⟨i, le, there, last, same⟩ := insertionReplacing_eq stands text
  have shown : insertAtTextarea element token.text text =
      (insertion (element.value.take i) (element.value.drop (i + token.text.length)) text).shown := by
    rw [insertAtTextarea, same, Option.getD_some]
  obtain ⟨start, stop⟩ := insertion_shown (element.value.take i) (element.value.drop (i + token.text.length)) text
  rw [shown]
  exact ⟨i, le, there, last, rfl, start, stop.trans start.symm⟩

theorem place_eq_start (stands : Stands element token before after) {i : Nat} (le : token.start ≤ i)
    (there : token.text <+: element.value.drop i) {left : CodeUnits} (single : left = [] ∨ left = [space])
    (same : (element.value.take i ++ pad (element.value.take i)).length = (before ++ left).length) :
    i = token.start := by
  have within := SecretOutput.index_lt stands.nonempty there
  simp only [List.length_append, List.length_take, stands.start] at same
  have short : left.length ≤ 1 := by rcases single with rfl | rfl <;> simp
  by_contra differs
  -- The trigger's first letter stands in front of the place, so a space is put there as well.
  obtain rfl : i = token.start + 1 := by omega
  obtain ⟨c, rest, text, letter⟩ := stands.letter
  have taken : element.value.take (token.start + 1) = before ++ [c] := by
    rw [stands.value, text, ← stands.start]
    simp [List.take_append]
  have padded : pad (element.value.take (token.start + 1)) = [space] := by
    rw [taken, pad, if_pos]
    exact ⟨by simp, by simp [letter]⟩
  rw [padded] at same
  simp only [List.length_singleton] at same
  omega

/-- A completion is put in the place of its trigger exactly when the trigger's text does not begin again
behind it. -/
theorem insertAtTextarea_edits {lower : Utf16.CodePoint → CodeUnits} {element : Element} {token : PathTrigger}
    {text : CodeUnits} (offered : Offered lower element token text) :
    Edits element token.text text (insertAtTextarea element token.text text) ↔ LastPlace element token := by
  obtain ⟨before, after, stands⟩ := offered.stands
  obtain ⟨i, le, there, last, value, start, stop⟩ := insertAtTextarea_cases stands text
  constructor
  · rintro ⟨before', after', left, right, whole, caret, single, _, _, position, _⟩ j behind again
    have front : before' = before := by
      have lengths := caret.trans stands.caret.symm
      rw [List.length_append, List.length_append, Nat.add_right_cancel_iff] at lengths
      rw [stands.value, List.append_assoc, List.append_assoc] at whole
      exact (List.append_inj_left whole lengths.symm).symm
    rw [front, start, List.length_append, @List.length_append _ _ text, Nat.add_right_cancel_iff] at position
    have := place_eq_start stands le there single position
    have := last j again
    omega
  · intro only
    obtain rfl : i = token.start := by
      by_contra differs
      exact only i (by omega) there
    have front : element.value.take token.start = before := by
      rw [stands.value, ← stands.start, List.append_assoc, List.take_left]
    have behind : element.value.drop (token.start + token.text.length) = after := by
      rw [← List.drop_drop, stands.at_start, List.drop_left]
    rw [front, behind] at value
    rw [front] at start
    exact ⟨before, after, pad before, padAfter after, stands.value, stands.caret, pad_cases _, padAfter_cases _,
      value, start, stop⟩

/-- In `see a/b` the path `a/bc` is put in the place of `a/b`. -/
theorem insertAtTextarea_edits_end :
    Edits ⟨[0x73, 0x65, 0x65, 0x20, 0x61, 0x2f, 0x62], 7, 7, by decide, by decide⟩ [0x61, 0x2f, 0x62]
      [0x61, 0x2f, 0x62, 0x63]
      (insertAtTextarea ⟨[0x73, 0x65, 0x65, 0x20, 0x61, 0x2f, 0x62], 7, 7, by decide, by decide⟩ [0x61, 0x2f, 0x62]
        [0x61, 0x2f, 0x62, 0x63]) := by
  have offered : Offered SearchQuery.unchanged
      ⟨[0x73, 0x65, 0x65, 0x20, 0x61, 0x2f, 0x62], 7, 7, by decide, by decide⟩ ⟨[0x61, 0x2f, 0x62], 4⟩
      [0x61, 0x2f, 0x62, 0x63] :=
    @Offered.path _ _ _ (some []) ⟨none, none, [], [[0x62, 0x63]]⟩ ⟨[0x61, 0x2f, 0x62, 0x63], [0x62, 0x63], false⟩
      (by decide) (by decide) (by decide) (by decide) (by decide)
  refine (insertAtTextarea_edits offered).mpr fun i behind again => ?_
  have := SecretOutput.index_lt (List.cons_ne_nil _ _) again
  dsimp only [List.length_cons, List.length_nil] at this behind
  omega

/-- In `a/b a/b` with the caret behind the first path, the second one is replaced. -/
theorem insertAtTextarea_elsewhere : ∃ element token text, Offered SearchQuery.unchanged element token text ∧
      (insertAtTextarea element token.text text).value = element.value ++ [0x63] ∧
      ¬ Edits element token.text text (insertAtTextarea element token.text text) := by
  have offered : Offered SearchQuery.unchanged
      ⟨[0x61, 0x2f, 0x62, 0x20, 0x61, 0x2f, 0x62], 3, 3, by decide, by decide⟩ ⟨[0x61, 0x2f, 0x62], 0⟩
      [0x61, 0x2f, 0x62, 0x63] :=
    @Offered.path _ _ _ (some []) ⟨none, none, [], [[0x62, 0x63]]⟩ ⟨[0x61, 0x2f, 0x62, 0x63], [0x62, 0x63], false⟩
      (by decide) (by decide) (by decide) (by decide) (by decide)
  refine ⟨_, _, _, offered, by decide, fun edits => ?_⟩
  rcases edits with ⟨before, after, left, right, _, caret, single, _, _, position, _⟩
  have short : left.length ≤ 1 := by rcases single with rfl | rfl <;> simp
  have moved : (insertAtTextarea ⟨[0x61, 0x2f, 0x62, 0x20, 0x61, 0x2f, 0x62], 3, 3, by decide, by decide⟩
    [0x61, 0x2f, 0x62] [0x61, 0x2f, 0x62, 0x63]).selectionStart = 8 := by decide
  simp only [List.length_append, List.length_cons, List.length_nil] at caret position
  omega

end Completion
