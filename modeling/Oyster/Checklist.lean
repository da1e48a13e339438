import Oyster.Text

/-! Markdown checklists. An item is known by its line; checking it rewrites that line and the line ends of the plan, and nothing else that
is read of the plan changes. -/
namespace Checklist

structure ChecklistItem where
  line : Nat
  checked : Bool
  text : List Char
deriving DecidableEq

/-- What the pattern of an item captures: the space in front with the bullet, the mark in the box, the space behind the box, and the text. -/
structure Captures where
  bullet : List Char
  mark : Char
  gap : List Char
  text : List Char

/-- `split(/\r?\n/)`. -/
def splitLines : List Char → List (List Char)
  | [] => [[]]
  | '\n' :: rest => [] :: splitLines rest
  | '\r' :: '\n' :: rest => [] :: splitLines rest
  | c :: rest => (splitLines rest).modifyHead (c :: ·)

/-- The space behind the last character of a bullet; what is returned is the bullet and what follows it. -/
def bulletEnd (c : Char) : List Char → Option (List Char × List Char)
  | ' ' :: rest => some ([c, ' '], rest)
  | _ => none

/-- `\d*[.)] `. -/
def number : List Char → Option (List Char × List Char)
  | [] => none
  | c :: rest =>
    if c.isDigit then (number rest).map (Prod.map (c :: ·) id)
    else if c = '.' ∨ c = ')' then bulletEnd c rest
    else none

/-- `\s*(?:[-*+] |\d+[.)] )`. -/
def bullet : List Char → Option (List Char × List Char)
  | [] => none
  | c :: rest =>
    if Text.isSpace c then (bullet rest).map (Prod.map (c :: ·) id)
    else if c.isDigit then (number rest).map (Prod.map (c :: ·) id)
    else if c = '-' ∨ c = '*' ∨ c = '+' then bulletEnd c rest
    else none

/-- `\[([ xX])\]`. -/
def box : List Char → Option (Char × List Char)
  | '[' :: mark :: ']' :: rest => if mark = ' ' ∨ mark = 'x' ∨ mark = 'X' then some (mark, rest) else none
  | _ => none

/-- What `.` stands for. -/
def dot (c : Char) : Bool := c ∉ ['\n', '\r', '\u2028', '\u2029']

/-- `(.+?)\s*$`: the text is as short as it can be. -/
def shortest : List Char → Option (List Char)
  | [] => none
  | c :: rest =>
    if !dot c then none
    else if rest.all Text.isSpace then some [c]
    else (shortest rest).map (c :: ·)

/-- `\s+(.+?)\s*$`, where the space is at most so long and as long as it can be. -/
def longest (rest : List Char) : Nat → Option (List Char × List Char)
  | 0 => none
  | n + 1 =>
    match shortest (rest.drop (n + 1)) with
    | some text => some (rest.take (n + 1), text)
    | none => longest rest n

def gapAndText (rest : List Char) : Option (List Char × List Char) := longest rest (rest.takeWhile Text.isSpace).length

/-- The pattern of an item, matched against a line. -/
def captures (line : List Char) : Option Captures := do
  let (bullet, rest) ← bullet line
  let (mark, rest) ← box rest
  let (gap, text) ← gapAndText rest
  some ⟨bullet, mark, gap, text⟩

def item (entry : Option Captures × Nat) : Option ChecklistItem :=
  entry.1.map fun found => ⟨entry.2, found.mark.toLower = 'x', found.text⟩

def checklistItems (markdown : List Char) : List ChecklistItem :=
  (splitLines markdown).zipIdx.filterMap fun (line, index) => item (captures line, index)

def firstUncheckedItem (markdown : List Char) : Option ChecklistItem :=
  (checklistItems markdown).find? (!·.checked)

def Captures.checkedLine (found : Captures) : List Char :=
  found.bullet ++ "[x]".toList ++ found.gap ++ found.text

def checkItem (markdown : List Char) (target : ChecklistItem) : Except String (List Char) :=
  let lines := splitLines markdown
  match lines[target.line]? with
  | none => .error ("Plan item disappeared: " ++ String.ofList target.text)
  | some current =>
    match captures current with
    | none => .error ("Plan item changed during iteration: " ++ String.ofList target.text)
    | some found =>
      if found.text ≠ target.text then .error ("Plan item changed during iteration: " ++ String.ofList target.text)
      else .ok (['\n'].intercalate (lines.set target.line found.checkedLine))

variable {c : Char} {line taken rest : List Char}

theorem bulletEnd_again (found : bulletEnd c line = some (taken, rest)) (after : List Char) :
    ∃ behind, taken = c :: behind ∧ line = behind ++ rest ∧
    bulletEnd c (behind ++ after) = some (taken, after) := by
  unfold bulletEnd at found
  split at found
  · cases found
    exact ⟨[' '], rfl, rfl, rfl⟩
  · cases found

theorem number_again (found : number line = some (taken, rest)) (after : List Char) :
    line = taken ++ rest ∧ number (taken ++ after) = some (taken, after) := by
  induction line generalizing taken with
  | nil => cases found
  | cons c line ih =>
    unfold number at found
    split_ifs at found with digit stop
    · obtain ⟨⟨taken, rest⟩, more, same⟩ := Option.map_eq_some_iff.mp found
      cases same
      obtain ⟨rfl, again⟩ := ih more
      exact ⟨rfl, by rw [List.cons_append, number, if_pos digit, again]; rfl⟩
    · obtain ⟨behind, rfl, rfl, again⟩ := bulletEnd_again found after
      exact ⟨rfl, by rw [List.cons_append, number, if_neg digit, if_pos stop, again]⟩

theorem bullet_again (found : bullet line = some (taken, rest)) (after : List Char) :
    line = taken ++ rest ∧ bullet (taken ++ after) = some (taken, after) := by
  induction line generalizing taken with
  | nil => cases found
  | cons c line ih =>
    unfold bullet at found
    split_ifs at found with space digit sign
    · obtain ⟨⟨taken, rest⟩, more, same⟩ := Option.map_eq_some_iff.mp found
      cases same
      obtain ⟨rfl, again⟩ := ih more
      exact ⟨rfl, by rw [List.cons_append, bullet, if_pos space, again]; rfl⟩
    · obtain ⟨⟨taken, rest⟩, more, same⟩ := Option.map_eq_some_iff.mp found
      cases same
      obtain ⟨rfl, again⟩ := number_again more after
      exact ⟨rfl, by rw [List.cons_append, bullet, if_neg space, if_pos digit, again]; rfl⟩
    · obtain ⟨behind, rfl, rfl, again⟩ := bulletEnd_again found after
      exact ⟨rfl, by rw [List.cons_append, bullet, if_neg space, if_neg digit, if_pos sign, again]⟩

theorem box_cons (mark : Char) (rest : List Char) :
    box ('[' :: mark :: ']' :: rest) = if mark = ' ' ∨ mark = 'x' ∨ mark = 'X' then some (mark, rest) else none := rfl

theorem box_again {mark : Char} (found : box line = some (mark, rest)) (after : List Char) :
    line = '[' :: mark :: ']' :: rest ∧ box ('[' :: mark :: ']' :: after) = some (mark, after) := by
  unfold box at found
  split at found
  · split_ifs at found with marked
    cases found
    exact ⟨rfl, if_pos marked⟩
  · cases found

variable {text : List Char}

theorem shortest_again {tail : List Char} (found : shortest tail = some text) :
    ∃ space, tail = text ++ space ∧ space.all Text.isSpace = true ∧ shortest text = some text := by
  induction tail generalizing text with
  | nil => cases found
  | cons c rest ih =>
    unfold shortest at found
    split_ifs at found with plain space
    · cases found
      refine ⟨rest, rfl, space, ?_⟩
      rw [shortest, if_neg plain]
      rfl
    · obtain ⟨text, more, rfl⟩ := Option.map_eq_some_iff.mp found
      obtain ⟨after, rfl, blank, again⟩ := ih more
      refine ⟨after, rfl, blank, ?_⟩
      have inner : ¬text.all Text.isSpace = true := fun blankText =>
        space (by rw [List.all_append, blankText, blank]; rfl)
      rw [shortest, if_neg plain, if_neg inner, again]
      rfl

theorem shortest_append {tail space : List Char} (blank : space.all Text.isSpace = true)
    (found : shortest tail = some text) : shortest (tail ++ space) = some text := by
  induction tail generalizing text with
  | nil => cases found
  | cons c rest ih =>
    unfold shortest at found
    have both : (rest ++ space).all Text.isSpace = rest.all Text.isSpace := by rw [List.all_append, blank, Bool.and_true]
    rw [List.cons_append, shortest, both]
    split_ifs at found with plain inner
    · rw [if_neg plain, if_pos inner, found]
    · obtain ⟨text, more, rfl⟩ := Option.map_eq_some_iff.mp found
      rw [if_neg plain, if_neg inner, ih more]
      rfl

variable {n : Nat} {gap : List Char}

theorem longest_eq_some : longest rest n = some (gap, text) ↔
      ∃ k, 0 < k ∧ k ≤ n ∧ rest.take k = gap ∧ shortest (rest.drop k) = some text ∧
        ∀ j, k < j → j ≤ n → shortest (rest.drop j) = none := by
  induction n with
  | zero =>
    constructor
    · intro found
      cases found
    · rintro ⟨k, positive, bounded, -⟩
      omega
  | succ n ih =>
    rw [longest]
    cases here : shortest (rest.drop (n + 1)) with
    | some found =>
      constructor
      · intro same
        cases same
        exact ⟨n + 1, Nat.succ_pos n, Nat.le_refl _, rfl, here, fun j more less => by omega⟩
      · rintro ⟨k, positive, bounded, rfl, taken, longer⟩
        have same : k = n + 1 := by
          by_contra other
          have none := longer (n + 1) (by omega) (Nat.le_refl _)
          rw [here] at none
          cases none
        subst same
        rw [here] at taken
        rw [Option.some.inj taken]
    | none =>
      simp only [ih]
      constructor
      · rintro ⟨k, positive, bounded, rfl, taken, longer⟩
        refine ⟨k, positive, by omega, rfl, taken, fun j more less => ?_⟩
        obtain last | earlier := Nat.eq_or_lt_of_le less
        · rw [last, here]
        · exact longer j more (by omega)
      · rintro ⟨k, positive, bounded, rfl, taken, longer⟩
        obtain last | earlier := Nat.eq_or_lt_of_le bounded
        · rw [last, here] at taken
          cases taken
        · exact ⟨k, positive, by omega, rfl, taken, fun j more less => longer j more (by omega)⟩

theorem le_takeWhile {p : Char → Bool} :
    n ≤ (line.takeWhile p).length ↔ n ≤ line.length ∧ (line.take n).all p = true := by
  induction line generalizing n with
  | nil => simp
  | cons c line ih =>
    cases n with
    | zero => simp
    | succ n =>
      by_cases held : p c = true
      · rw [List.takeWhile_cons_of_pos held, List.take_succ_cons, List.all_cons, held, Bool.true_and, List.length_cons,
          List.length_cons, Nat.succ_le_succ_iff, Nat.succ_le_succ_iff, ih]
      · rw [List.takeWhile_cons_of_neg held, List.take_succ_cons, List.all_cons, Bool.eq_false_iff.mpr held]
        simp

theorem gapAndText_eq_some : gapAndText rest = some (gap, text) ↔
      ∃ k, 0 < k ∧ k ≤ rest.length ∧ (rest.take k).all Text.isSpace = true ∧ rest.take k = gap ∧
        shortest (rest.drop k) = some text ∧
        ∀ j, k < j → j ≤ rest.length → (rest.take j).all Text.isSpace = true → shortest (rest.drop j) = none := by
  simp only [gapAndText, longest_eq_some, le_takeWhile, and_imp, and_assoc]

theorem gapAndText_again (found : gapAndText rest = some (gap, text)) :
    gapAndText (gap ++ text) = some (gap, text) := by
  obtain ⟨k, positive, bounded, blank, rfl, taken, longer⟩ := gapAndText_eq_some.mp found
  obtain ⟨space, behind, blankBehind, again⟩ := shortest_again taken
  have whole : rest = rest.take k ++ text ++ space := by rw [List.append_assoc, ← behind, List.take_append_drop]
  have length : (rest.take k).length = k := List.length_take_of_le bounded
  refine gapAndText_eq_some.mpr ⟨k, positive, ?_, ?_, ?_, ?_, ?_⟩
  · rw [List.length_append, length]
    exact Nat.le_add_right ..
  · rwa [List.take_left' length]
  · exact List.take_left' length
  · rwa [List.drop_left' length]
  · intro j more within blankMore
    cases other : shortest ((rest.take k ++ text).drop j) with
    | none => rfl
    | some found =>
      have none := longer j more (by rw [whole, List.length_append]; omega)
        (by rwa [whole, List.take_append_of_le_length within])
      rw [whole, List.drop_append_of_le_length within, shortest_append blankBehind other] at none
      cases none

variable {found : Captures}

theorem captures_eq_some : captures line = some found ↔
      ∃ boxed rest, bullet line = some (found.bullet, boxed) ∧ box boxed = some (found.mark, rest) ∧
        gapAndText rest = some (found.gap, found.text) := by
  constructor
  · intro matched
    obtain ⟨⟨bulleted, boxed⟩, first, matched⟩ := Option.bind_eq_some_iff.mp matched
    obtain ⟨⟨mark, rest⟩, second, matched⟩ := Option.bind_eq_some_iff.mp matched
    obtain ⟨⟨gap, text⟩, third, matched⟩ := Option.bind_eq_some_iff.mp matched
    cases matched
    exact ⟨boxed, rest, first, second, third⟩
  · rintro ⟨boxed, rest, first, second, third⟩
    simp only [captures, first, second, third, Option.bind_eq_bind, Option.bind_some]

theorem captures_again (matched : captures line = some found) :
    captures found.checkedLine = some { found with mark := 'x' } := by
  obtain ⟨boxed, rest, first, second, third⟩ := captures_eq_some.mp matched
  obtain ⟨-, bulleted⟩ := bullet_again first ('[' :: 'x' :: ']' :: (found.gap ++ found.text))
  have marked : 'x' = ' ' ∨ 'x' = 'x' ∨ 'x' = 'X' := .inr (.inl rfl)
  have checked : box ('[' :: 'x' :: ']' :: (found.gap ++ found.text)) = some ('x', found.gap ++ found.text) := by
    rw [box_cons, if_pos marked]
  refine captures_eq_some.mpr ⟨_, found.gap ++ found.text, ?_, checked, gapAndText_again third⟩
  rw [← bulleted, Captures.checkedLine, List.append_assoc, List.append_assoc]
  rfl

theorem checkedLine_plain (matched : captures line = some found) (plain : '\n' ∉ line) :
    '\n' ∉ found.checkedLine := by
  obtain ⟨boxed, rest, first, second, third⟩ := captures_eq_some.mp matched
  obtain ⟨rfl, -⟩ := bullet_again first []
  obtain ⟨rfl, -⟩ := box_again second []
  obtain ⟨k, -, -, -, gap, taken, -⟩ := gapAndText_eq_some.mp third
  obtain ⟨space, behind, -, -⟩ := shortest_again taken
  obtain ⟨bulleted, boxedPlain⟩ := not_or.mp (mt List.mem_append.mpr plain)
  intro ended
  rcases List.mem_append.mp ended with ended | ended
  · rcases List.mem_append.mp ended with ended | ended
    · rcases List.mem_append.mp ended with ended | ended
      · exact bulleted ended
      · exact absurd ended (by decide)
    · exact boxedPlain (List.mem_of_mem_drop (i := 3) (List.mem_of_mem_take (gap ▸ ended)))
  · exact boxedPlain (List.mem_of_mem_drop (i := 3) (List.mem_of_mem_drop (behind ▸ List.mem_append_left space ended)))

theorem bulletEnd_return (c : Char) (line : List Char) :
    bulletEnd c (line ++ ['\r']) = (bulletEnd c line).map (Prod.map id (· ++ ['\r'])) := by
  cases line with
  | nil => rfl
  | cons d line =>
    by_cases space : d = ' '
    · subst space
      rfl
    · have none : ∀ rest, bulletEnd c (d :: rest) = none := by
        intro rest
        unfold bulletEnd
        split
        · next same => exact absurd (List.cons.inj same).1 space
        · rfl
      rw [List.cons_append, none, none]
      rfl

theorem map_again {f : List Char → List Char} (c : Char) (taken : Option (List Char × List Char)) :
    (taken.map (Prod.map id f)).map (Prod.map (c :: ·) id) = (taken.map (Prod.map (c :: ·) id)).map (Prod.map id f) := by
  cases taken <;> rfl

theorem number_return (line : List Char) : number (line ++ ['\r']) = (number line).map (Prod.map id (· ++ ['\r'])) := by
  induction line with
  | nil => rfl
  | cons c line ih =>
    rw [List.cons_append, number, number]
    split_ifs
    · rw [ih, map_again]
    · exact bulletEnd_return c line
    · rfl

theorem bullet_return (line : List Char) : bullet (line ++ ['\r']) = (bullet line).map (Prod.map id (· ++ ['\r'])) := by
  induction line with
  | nil => rfl
  | cons c line ih =>
    rw [List.cons_append, bullet, bullet]
    split_ifs
    · rw [ih, map_again]
    · rw [number_return, map_again]
    · exact bulletEnd_return c line
    · rfl

theorem box_return (line : List Char) : box (line ++ ['\r']) = (box line).map (Prod.map id (· ++ ['\r'])) := by
  cases found : box line with
  | some taken =>
    obtain ⟨mark, rest⟩ := taken
    obtain ⟨rfl, again⟩ := box_again found (rest ++ ['\r'])
    exact again
  | none =>
    cases taken : box (line ++ ['\r']) with
    | none => rfl
    | some other =>
      obtain ⟨mark, rest⟩ := other
      obtain ⟨shape, reads⟩ := box_again taken []
      match line with
      | [] => cases shape
      | [_] => cases shape
      | [_, _] => exact absurd (List.cons.inj (List.cons.inj (List.cons.inj shape).2).2).1 (by decide)
      | a :: b :: c :: line =>
        obtain ⟨rfl, rfl, rfl, -⟩ := shape
        rw [box_cons] at found reads
        split_ifs at found reads

theorem shortest_return (tail : List Char) : shortest (tail ++ ['\r']) = shortest tail := by
  cases found : shortest tail with
  | some text => exact shortest_append rfl found
  | none =>
    induction tail with
    | nil => rfl
    | cons c rest ih =>
      have both : (rest ++ ['\r']).all Text.isSpace = rest.all Text.isSpace := by
        rw [List.all_append, show ['\r'].all Text.isSpace = true from rfl, Bool.and_true]
      rw [shortest] at found
      rw [List.cons_append, shortest, both]
      split_ifs at found ⊢
      · rfl
      · rw [ih (Option.map_eq_none_iff.mp found)]
        rfl

theorem longest_return (bounded : n ≤ rest.length) : longest (rest ++ ['\r']) n = longest rest n := by
  induction n with
  | zero => rfl
  | succ n ih =>
    rw [longest, longest, List.drop_append_of_le_length bounded, List.take_append_of_le_length bounded, shortest_return,
      ih (Nat.le_of_succ_le bounded)]

theorem gapAndText_return (rest : List Char) : gapAndText (rest ++ ['\r']) = gapAndText rest := by
  unfold gapAndText
  rw [List.takeWhile_append]
  split_ifs with blank
  · rw [List.length_append, blank]
    show longest (rest ++ ['\r']) (rest.length + 1) = _
    have longer : (rest ++ ['\r']).length ≤ rest.length + 1 := Nat.le_of_eq List.length_append
    have none : shortest ((rest ++ ['\r']).drop (rest.length + 1)) = none := by
      rw [List.drop_eq_nil_of_le longer]
      rfl
    rw [longest, none, longest_return (Nat.le_refl _)]
  · exact longest_return (List.takeWhile_prefix ..).length_le

theorem captures_return (line : List Char) : captures (line ++ ['\r']) = captures line := by
  unfold captures
  rw [bullet_return]
  cases bullet line with
  | none => rfl
  | some taken =>
    obtain ⟨bulleted, boxed⟩ := taken
    simp only [Option.map_some, Prod.map, id, Option.bind_eq_bind, Option.bind_some, box_return]
    cases box boxed with
    | none => rfl
    | some marked =>
      simp only [Option.map_some, Prod.map, id, Option.bind_some, gapAndText_return]

/-- A line without the carriage return at its end. -/
def chomp (line : List Char) : List Char := if line.getLast? = some '\r' then line.dropLast else line

theorem captures_chomp (line : List Char) : captures (chomp line) = captures line := by
  unfold chomp
  split_ifs with returned
  · obtain ⟨before, rfl⟩ := List.getLast?_eq_some_iff.mp returned
    rw [List.dropLast_concat, captures_return]
  · rfl

theorem splitLines_cons (unended : c ≠ '\n') (unreturned : c = '\r' → rest.head? ≠ some '\n') :
    splitLines (c :: rest) = (splitLines rest).modifyHead (c :: ·) := by
  rw [splitLines]
  · exact unended
  · rintro after rfl rfl
    exact unreturned rfl rfl

theorem splitLines_plain (plain : '\n' ∉ line) : splitLines line = [line] := by
  induction line with
  | nil => rfl
  | cons c line ih =>
    obtain ⟨unended, plain⟩ := List.ne_and_not_mem_of_not_mem_cons plain
    have unreturned : c = '\r' → line.head? ≠ some '\n' := fun _ ended => plain (List.mem_of_head? ended)
    rw [splitLines_cons (Ne.symm unended) unreturned, ih plain]
    rfl

theorem chomp_cons {d : Char} : chomp (c :: d :: line) = c :: chomp (d :: line) := by
  unfold chomp
  rw [List.getLast?_cons_cons]
  split_ifs
  · rfl
  · rfl

theorem splitLines_append (plain : '\n' ∉ line) (rest : List Char) :
    splitLines (line ++ '\n' :: rest) = chomp line :: splitLines rest := by
  induction line with
  | nil => rfl
  | cons c line ih =>
    obtain ⟨unended, plain⟩ := List.ne_and_not_mem_of_not_mem_cons plain
    cases line with
    | nil =>
      by_cases returned : c = '\r'
      · subst returned
        rfl
      · have kept : chomp [c] = [c] := if_neg fun last => returned (Option.some.inj last)
        rw [List.cons_append, splitLines_cons (Ne.symm unended) fun same => absurd same returned, ih plain, kept]
        rfl
    | cons d line =>
      have unreturned : c = '\r' → (d :: line ++ '\n' :: rest).head? ≠ some '\n' :=
        fun _ ended => plain (Option.some.inj ended ▸ List.mem_cons_self ..)
      rw [List.cons_append, splitLines_cons (Ne.symm unended) unreturned, ih plain, chomp_cons]
      rfl

theorem splitLines_spec (text : List Char) : splitLines text ≠ [] ∧ ∀ line ∈ splitLines text, '\n' ∉ line := by
  induction text using splitLines.induct with
  | case1 => exact ⟨List.cons_ne_nil _ _, by decide⟩
  | case2 rest ih => exact ⟨List.cons_ne_nil _ _, List.forall_mem_cons.mpr ⟨List.not_mem_nil, ih.2⟩⟩
  | case3 rest ih => exact ⟨List.cons_ne_nil _ _, List.forall_mem_cons.mpr ⟨List.not_mem_nil, ih.2⟩⟩
  | case4 c rest unended unreturned ih =>
    rw [splitLines]
    · cases lines : splitLines rest with
      | nil => exact absurd lines ih.1
      | cons line more =>
        rw [lines] at ih
        obtain ⟨plain, others⟩ := List.forall_mem_cons.mp ih.2
        refine ⟨List.cons_ne_nil _ _, List.forall_mem_cons.mpr ⟨?_, others⟩⟩
        exact List.not_mem_cons_of_ne_of_not_mem (Ne.symm unended) plain
    · exact unended
    · exact unreturned

theorem captures_rejoined {lines : List (List Char)} (some : lines ≠ []) (plain : ∀ line ∈ lines, '\n' ∉ line) :
    (splitLines (['\n'].intercalate lines)).map captures = lines.map captures := by
  induction lines with
  | nil => exact absurd rfl some
  | cons line lines ih =>
    obtain ⟨here, others⟩ := List.forall_mem_cons.mp plain
    cases lines with
    | nil => rw [List.intercalate_singleton, splitLines_plain here]
    | cons next lines =>
      rw [List.intercalate_cons_cons, List.append_assoc, List.singleton_append, splitLines_append here, List.map_cons,
        captures_chomp, ih (List.cons_ne_nil _ _) others]
      rfl

theorem checklistItems_eq (markdown : List Char) :
    checklistItems markdown = ((splitLines markdown).map captures).zipIdx.filterMap item := by
  rw [List.zipIdx_map, List.filterMap_map]
  rfl

variable {markdown : List Char}

theorem mem_checklistItems {entry : ChecklistItem} : entry ∈ checklistItems markdown ↔
      ∃ found, ((splitLines markdown).map captures)[entry.line]? = some (some found) ∧
        entry = ⟨entry.line, found.mark.toLower = 'x', found.text⟩ := by
  rw [checklistItems_eq, List.mem_filterMap]
  constructor
  · rintro ⟨⟨captured, index⟩, there, read⟩
    obtain ⟨found, rfl, rfl⟩ := Option.map_eq_some_iff.mp read
    exact ⟨found, List.mk_mem_zipIdx_iff_getElem?.mp there, rfl⟩
  · rintro ⟨found, there, same⟩
    exact ⟨(some found, entry.line), List.mk_mem_zipIdx_iff_getElem?.mpr there, congrArg some same.symm⟩

theorem item_unique {first second : ChecklistItem} (one : first ∈ checklistItems markdown)
    (other : second ∈ checklistItems markdown) (line : first.line = second.line) : first = second := by
  obtain ⟨found, there, same⟩ := mem_checklistItems.mp one
  obtain ⟨found', there', same'⟩ := mem_checklistItems.mp other
  rw [line, there'] at there
  cases Option.some.inj there
  rw [same, same', line]

def check (line : Nat) (entry : ChecklistItem) : ChecklistItem :=
  if entry.line = line then { entry with checked := true } else entry

theorem zipIdx_set (entries : List (Option Captures)) (line : Nat) (entry : Option Captures) :
    (entries.set line entry).zipIdx = entries.zipIdx.map fun (old, index) =>
    (if index = line then entry else old, index) := by
  ext index pair
  rw [List.getElem?_zipIdx, List.getElem?_map, List.getElem?_zipIdx, List.getElem?_set]
  by_cases same : line = index
  · subst same
    rw [if_pos rfl]
    split_ifs with within
    · rw [List.getElem?_eq_getElem within]
      simp
    · rw [List.getElem?_eq_none (Nat.le_of_not_lt within)]
      rfl
  · rw [if_neg same]
    cases entries[index]? with
    | none => rfl
    | some old => simp [Ne.symm same]

theorem items_set {entries : List (Option Captures)} {line : Nat} (there : entries[line]? = some (some found)) :
    (entries.set line (some { found with mark := 'x' })).zipIdx.filterMap item =
      (entries.zipIdx.filterMap item).map (check line) := by
  rw [zipIdx_set, List.filterMap_map, List.map_filterMap]
  refine List.filterMap_congr fun pair listed => ?_
  obtain ⟨old, index⟩ := pair
  have here := List.mk_mem_zipIdx_iff_getElem?.mp listed
  simp only [Function.comp_apply]
  split_ifs with same
  · subst same
    cases here.symm.trans there
    simp [item, check]
  · cases old with
    | none => rfl
    | some old => simp [item, check, same]

theorem checkItem_ok {target : ChecklistItem} (listed : target ∈ checklistItems markdown) :
    ∃ written, checkItem markdown target = .ok written ∧
      checklistItems written = (checklistItems markdown).map (check target.line) := by
  obtain ⟨found, there, same⟩ := mem_checklistItems.mp listed
  rw [List.getElem?_map] at there
  obtain ⟨current, at_line, captured⟩ := Option.map_eq_some_iff.mp there
  have text : found.text = target.text := (congrArg ChecklistItem.text same).symm
  refine ⟨['\n'].intercalate ((splitLines markdown).set target.line found.checkedLine), ?_, ?_⟩
  · rw [checkItem]
    simp only [at_line, captured]
    rw [if_neg (not_not_intro text)]
  · obtain ⟨some, plain⟩ := splitLines_spec markdown
    rw [checklistItems_eq, captures_rejoined, List.map_set, captures_again captured, checklistItems_eq]
    · exact items_set (by rw [List.getElem?_map, at_line, Option.map_some, captured])
    · exact mt (List.set_eq_nil_iff _ _).mp some
    · intro line member
      rcases List.mem_or_eq_of_mem_set member with old | rfl
      · exact plain line old
      · exact checkedLine_plain captured (plain current (List.mem_of_getElem? at_line))

example : checklistItems "# Plan\r\n- [ ] one\r\n  12) [X]  two \n- [ ]   \n* [] no\n".toList =
  [⟨1, false, "one".toList⟩, ⟨2, true, "two".toList⟩, ⟨3, false, " ".toList⟩] := by decide +kernel

end Checklist
