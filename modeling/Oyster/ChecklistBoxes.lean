import Oyster.Checklist

/-! Checking an item, as a change of the text. Its lines are joined with line feeds, and the line of
the item is written from what was captured of it. -/
namespace Checklist

/-- What the last `\s*` of the pattern takes. -/
def trailing (line : List Char) (found : Captures) : List Char :=
  line.drop (found.bullet.length + 3 + found.gap.length + found.text.length)

/-- The text in front of a line. -/
def BeforeLine (line : Nat) (before : List Char) : Prop :=
  (splitLines before).length = line + 1 ∧ (splitLines before).getLast? = some []

/-- Of the two texts the second has an `x` in the box of the item, where the first has a space, and
they do not differ otherwise. -/
def OnlyBox (markdown : List Char) (target : ChecklistItem) (written : List Char) : Prop :=
  ∃ before taken after, BeforeLine target.line before ∧
    bullet (taken ++ ['[', ' ', ']'] ++ after) = some (taken, ['[', ' ', ']'] ++ after) ∧
    markdown = before ++ (taken ++ ['[', ' ', ']'] ++ after) ∧ written = before ++ (taken ++ ['[', 'x', ']'] ++ after)

/-- All line ends are line feeds, and the line of the item has no space behind its text. -/
def Plain (markdown : List Char) (target : ChecklistItem) : Prop :=
  ¬['\r', '\n'] <:+: markdown ∧ ∀ line ∈ (splitLines markdown)[target.line]?, ∀ found ∈ captures line,
    trailing line found = []

def joined (lines : List (List Char)) : List Char := ['\n'].intercalate lines

variable {lines : List (List Char)}

theorem joined_cons (line : List Char) (more : lines ≠ []) :
    joined (line :: lines) = line ++ '\n' :: joined lines := by
  obtain ⟨next, lines, rfl⟩ := List.exists_cons_of_ne_nil more
  rfl

theorem joined_modifyHead (c : Char) (some : lines ≠ []) :
    joined (lines.modifyHead (c :: ·)) = c :: joined lines := by
  obtain ⟨line, lines, rfl⟩ := List.exists_cons_of_ne_nil some
  cases lines with
  | nil => rfl
  | cons next lines =>
    have more : next :: lines ≠ [] := List.cons_ne_nil _ _
    show joined ((c :: line) :: next :: lines) = _
    rfl

theorem joined_cases (text : List Char) : (joined (splitLines text) = text ∧ ¬['\r', '\n'] <:+: text) ∨
      ((joined (splitLines text)).length < text.length ∧ ['\r', '\n'] <:+: text) := by
  induction text using splitLines.induct with
  | case1 => exact .inl ⟨rfl, by simp⟩
  | case2 rest ih =>
    have same : joined (splitLines ('\n' :: rest)) = '\n' :: joined (splitLines rest) :=
      joined_cons [] (splitLines_spec rest).1
    have infix_iff : ['\r', '\n'] <:+: '\n' :: rest ↔ ['\r', '\n'] <:+: rest := by
      rw [List.infix_cons_iff, or_iff_right]
      rintro ⟨behind, same⟩
      exact absurd (List.cons.inj same).1 (by decide)
    rw [same, infix_iff]
    exact ih.imp (And.imp_left (congrArg ('\n' :: ·))) (And.imp_left Nat.succ_lt_succ)
  | case3 rest ih =>
    have same : joined (splitLines ('\r' :: '\n' :: rest)) = '\n' :: joined (splitLines rest) :=
      joined_cons [] (splitLines_spec rest).1
    have bounded : (joined (splitLines rest)).length ≤ rest.length := by
      obtain ⟨same, _⟩ | ⟨shorter, _⟩ := ih
      · exact Nat.le_of_eq (congrArg List.length same)
      · exact Nat.le_of_lt shorter
    refine .inr ⟨?_, ⟨[], rest, rfl⟩⟩
    rw [same, List.length_cons, List.length_cons, List.length_cons]
    omega
  | case4 c rest unended unreturned ih =>
    have apart : c = '\r' → rest.head? ≠ some '\n' := by
      rintro rfl ended
      obtain ⟨tail, rfl⟩ : ∃ tail, rest = '\n' :: tail := by
        cases rest with
        | nil => cases ended
        | cons d tail => exact ⟨tail, by rw [Option.some.inj ended]⟩
      exact unreturned tail rfl rfl
    have same : joined (splitLines (c :: rest)) = c :: joined (splitLines rest) := by
      rw [splitLines_cons unended apart, joined_modifyHead c (splitLines_spec rest).1]
    have infix_iff : ['\r', '\n'] <:+: c :: rest ↔ ['\r', '\n'] <:+: rest := by
      rw [List.infix_cons_iff, or_iff_right]
      rintro ⟨behind, same⟩
      obtain ⟨rfl, ended⟩ := List.cons.inj same
      exact apart rfl (by rw [← ended]; rfl)
    rw [same, infix_iff]
    exact ih.imp (And.imp_left (congrArg (c :: ·))) (And.imp_left Nat.succ_lt_succ)

def ended (lines : List (List Char)) : List Char := lines.flatMap (· ++ ['\n'])

theorem joined_append (lines : List (List Char)) {more : List (List Char)} (some : more ≠ []) :
    joined (lines ++ more) = ended lines ++ joined more := by
  induction lines with
  | nil => rfl
  | cons line lines ih =>
    have more : ended (line :: lines) = line ++ '\n' :: ended lines := by
      rw [ended, List.flatMap_cons, List.append_assoc]
      rfl
    rw [List.cons_append, joined_cons line (List.append_ne_nil_of_right_ne_nil _ some), ih, more, List.append_assoc]
    rfl

theorem joined_line (lines : List (List Char)) : ∃ tail, ∀ line : List Char, joined (line :: lines) = line ++ tail := by
  cases lines with
  | nil => exact ⟨[], fun line => by rw [joined, List.intercalate_singleton, List.append_nil]⟩
  | cons next lines => exact ⟨_, fun line => joined_cons line (List.cons_ne_nil _ _)⟩

theorem beforeLine_ended (plain : ∀ line ∈ lines, '\n' ∉ line) : BeforeLine lines.length (ended lines) := by
  induction lines with
  | nil => exact ⟨rfl, rfl⟩
  | cons line lines ih =>
    obtain ⟨here, others⟩ := List.forall_mem_cons.mp plain
    obtain ⟨length, last⟩ := ih others
    have split : splitLines (ended (line :: lines)) = chomp line :: splitLines (ended lines) := by
      rw [ended, List.flatMap_cons, List.append_assoc]
      exact splitLines_append here _
    refine ⟨?_, ?_⟩
    · rw [split, List.length_cons, length, List.length_cons]
    · rw [split, List.getLast?_cons, last]
      rfl

def Captures.line (found : Captures) : List Char :=
  found.bullet ++ '[' :: found.mark :: ']' :: (found.gap ++ found.text)

variable {found : Captures}

theorem captured_line {line : List Char} (matched : captures line = some found) :
    line = found.line ++ trailing line found ∧ (found.mark = ' ' ∨ found.mark = 'x' ∨ found.mark = 'X') ∧
      ∀ after, bullet (found.bullet ++ after) = some (found.bullet, after) := by
  obtain ⟨boxed, rest, first, second, third⟩ := captures_eq_some.mp matched
  obtain ⟨rfl, -⟩ := bullet_again first []
  obtain ⟨rfl, -⟩ := box_again second []
  obtain ⟨k, -, -, -, gap, taken, -⟩ := gapAndText_eq_some.mp third
  obtain ⟨space, behind, -, -⟩ := shortest_again taken
  have whole : rest = found.gap ++ found.text ++ space := by
    rw [← List.take_append_drop k rest, gap, behind, List.append_assoc]
  have marked : found.mark = ' ' ∨ found.mark = 'x' ∨ found.mark = 'X' := by
    exact (Option.ite_none_right_eq_some.mp second).1
  have shape : found.bullet ++ '[' :: found.mark :: ']' :: rest = found.line ++ space := by
    rw [Captures.line, whole, List.append_assoc found.bullet]
    rfl
  have length : found.line.length = found.bullet.length + 3 + found.gap.length + found.text.length := by
    simp only [Captures.line, List.length_append, List.length_cons]
    omega
  refine ⟨?_, marked, fun after => (bullet_again first after).2⟩
  rw [shape, trailing, ← length, List.drop_left]

theorem mark_of_unchecked (marked : found.mark = ' ' ∨ found.mark = 'x' ∨ found.mark = 'X')
    (unchecked : decide (found.mark.toLower = 'x') = false) : found.mark = ' ' := by
  obtain space | lower | upper := marked
  · exact space
  · rw [lower] at unchecked
    exact absurd unchecked (by decide)
  · rw [upper] at unchecked
    exact absurd unchecked (by decide)

variable {markdown : List Char} {target : ChecklistItem}

theorem checkItem_written (listed : target ∈ checklistItems markdown) (unchecked : target.checked = false) :
    ∃ before tail line found, BeforeLine target.line before ∧ (splitLines markdown)[target.line]? = some line ∧
      captures line = some found ∧ found.mark = ' ' ∧ joined (splitLines markdown) = before ++ (line ++ tail) ∧
      checkItem markdown target = .ok (before ++ (found.checkedLine ++ tail)) := by
  obtain ⟨found, there, same⟩ := mem_checklistItems.mp listed
  rw [List.getElem?_map] at there
  obtain ⟨line, at_line, captured⟩ := Option.map_eq_some_iff.mp there
  obtain ⟨within, rfl⟩ := List.getElem?_eq_some_iff.mp at_line
  have text : found.text = target.text := (congrArg ChecklistItem.text same).symm
  have mark : found.mark = ' ' := by
    refine mark_of_unchecked (captured_line captured).2.1 ?_
    exact (congrArg ChecklistItem.checked same).symm.trans unchecked
  have first : ∀ other ∈ (splitLines markdown).take target.line, '\n' ∉ other := fun other member =>
    (splitLines_spec markdown).2 other (List.mem_of_mem_take member)
  obtain ⟨tail, joins⟩ := joined_line ((splitLines markdown).drop (target.line + 1))
  have before := beforeLine_ended first
  rw [List.length_take_of_le (Nat.le_of_lt within)] at before
  refine ⟨_, tail, _, found, before, at_line, captured, mark, ?_, ?_⟩
  · rw [← joins, ← joined_append _ (List.cons_ne_nil _ _), List.getElem_cons_drop, List.take_append_drop]
  · rw [checkItem]
    simp only [at_line, captured]
    rw [if_neg (not_not_intro text), List.set_eq_take_append_cons_drop, if_pos within]
    exact congrArg Except.ok ((joined_append _ (List.cons_ne_nil _ _)).trans (by rw [joins]))

theorem OnlyBox.length_eq {written : List Char} (h : OnlyBox markdown target written) :
    written.length = markdown.length := by
  obtain ⟨_, _, _, -, -, rfl, rfl⟩ := h
  simp only [List.length_append, List.length_cons]

/-- Checking an item changes its box and nothing else exactly if all line ends are line feeds and the
line of the item has no space behind its text. What is read of the plan afterwards is the same in any case. -/
theorem checkItem_only_box_iff (markdown : List Char) (target : ChecklistItem) (listed : target ∈ checklistItems markdown)
    (unchecked : target.checked = false) :
    (∃ written, checkItem markdown target = .ok written ∧ OnlyBox markdown target written ∧
        checklistItems written = (checklistItems markdown).map (check target.line)) ↔ Plain markdown target := by
  obtain ⟨written, checks, items⟩ := checkItem_ok listed
  obtain ⟨before, tail, line, found, front, at_line, captured, mark, lines, same⟩ := checkItem_written listed unchecked
  cases checks.symm.trans same
  obtain ⟨shape, -, again⟩ := captured_line captured
  have shapes : found.line = found.bullet ++ ['[', ' ', ']'] ++ (found.gap ++ found.text) := by
    rw [Captures.line, mark, List.append_assoc]
    rfl
  have checked : found.checkedLine = found.bullet ++ ['[', 'x', ']'] ++ (found.gap ++ found.text) := by
    rw [Captures.checkedLine, List.append_assoc]
    rfl
  have length : found.checkedLine.length = found.line.length := by
    simp only [checked, shapes, List.length_append, List.length_cons]
  have size : (joined (splitLines markdown)).length =
      (before ++ (found.checkedLine ++ tail)).length + (trailing line found).length := by
    have lineSize : line.length = found.line.length + (trailing line found).length := by
      rw [← List.length_append, ← shape]
    rw [lines]
    simp only [List.length_append, length, lineSize]
    omega
  have plain_iff : Plain markdown target ↔ ¬['\r', '\n'] <:+: markdown ∧ trailing line found = [] := by
    rw [Plain, at_line]
    simp [captured]
  rw [plain_iff]
  constructor
  · -- neither the joining nor the line may have shortened the text
    rintro ⟨written, other, only, -⟩
    have kept : (before ++ (found.checkedLine ++ tail)).length = markdown.length := by
      rw [Except.ok.inj (checks.symm.trans other), only.length_eq]
    obtain ⟨joins, feeds⟩ | ⟨shorter, -⟩ := joined_cases markdown
    · rw [joins] at size
      exact ⟨feeds, List.eq_nil_of_length_eq_zero (by omega)⟩
    · omega
  · rintro ⟨feeds, spaceless⟩
    obtain ⟨joins, -⟩ | ⟨-, returned⟩ := joined_cases markdown
    · rw [spaceless, List.append_nil] at shape
      refine ⟨_, checks, ⟨before, found.bullet, found.gap ++ found.text ++ tail, front, ?_, ?_, ?_⟩, items⟩
      · rw [List.append_assoc]
        exact again _
      · rw [← joins, lines, shape, shapes]
        simp only [List.append_assoc]
      · rw [checked]
        simp only [List.append_assoc]
    · exact absurd returned feeds

theorem checkItem_only_box_plan :
    ∃ written, checkItem "# Plan\n- [ ] one\n".toList ⟨1, false, "one".toList⟩ = .ok written ∧
      OnlyBox "# Plan\n- [ ] one\n".toList ⟨1, false, "one".toList⟩ written ∧
      checklistItems written = (checklistItems "# Plan\n- [ ] one\n".toList).map (check 1) := by
  refine (checkItem_only_box_iff _ ⟨1, false, "one".toList⟩ (by decide +kernel) rfl).mpr ⟨by decide +kernel, ?_⟩
  decide +kernel

/-- A carriage return at the end of another line is lost, and so is the space behind the text of the item. -/
theorem checkItem_changes_more : (⟨0, false, "one".toList⟩ ∈ checklistItems "- [ ] one\r\n- [ ] two".toList ∧
        checkItem "- [ ] one\r\n- [ ] two".toList ⟨0, false, "one".toList⟩ = .ok "- [x] one\n- [ ] two".toList ∧
        ¬OnlyBox "- [ ] one\r\n- [ ] two".toList ⟨0, false, "one".toList⟩ "- [x] one\n- [ ] two".toList) ∧
      ⟨0, false, "one".toList⟩ ∈ checklistItems "- [ ] one  \n".toList ∧
        checkItem "- [ ] one  \n".toList ⟨0, false, "one".toList⟩ = .ok "- [x] one\n".toList ∧
        ¬OnlyBox "- [ ] one  \n".toList ⟨0, false, "one".toList⟩ "- [x] one\n".toList := by
  refine ⟨⟨by decide +kernel, ?_, fun only => absurd only.length_eq (by decide)⟩,
    by decide +kernel, ?_, fun only => absurd only.length_eq (by decide)⟩
  · rfl
  · rfl

end Checklist
