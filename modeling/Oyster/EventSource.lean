import Oyster.EventStream

/-! The algorithm by which a browser reads a stream of server-sent events: a line ends at a
carriage return, a line feed or the two together, a blank line dispatches what has been
collected, and the last event id stays until another one is set. -/
namespace EventSource
open EventStream (colon fieldValue)
open Json (ascii)

def lineFeed : UInt16 := 0x0a

def carriageReturn : UInt16 := 0x0d

/-- The complete lines of a text, and what follows the last of them. -/
def lines : CodeUnits → List CodeUnits × CodeUnits
  | [] => ([], [])
  | 0x0d :: 0x0a :: us => ([] :: (lines us).1, (lines us).2)
  | u :: us =>
    if u = carriageReturn ∨ u = lineFeed then ([] :: (lines us).1, (lines us).2)
    else match (lines us).1 with
      | [] => ([], u :: (lines us).2)
      | line :: rest => ((u :: line) :: rest, (lines us).2)

structure Buffers where
  data : CodeUnits := []
  eventType : CodeUnits := []
  lastEventId : CodeUnits := []

structure Message where
  eventType : CodeUnits
  data : CodeUnits
  lastEventId : CodeUnits
  deriving DecidableEq

def field (b : Buffers) (line : CodeUnits) : Buffers :=
  let name := line.takeWhile (· != colon)
  let value := fieldValue (line.dropWhile (· != colon))
  if name = ascii "data" then { b with data := b.data ++ value ++ [lineFeed] }
  else if name = ascii "event" then { b with eventType := value }
  else if name = ascii "id" then if 0 ∈ value then b else { b with lastEventId := value }
  else b

def readLine (b : Buffers) (line : CodeUnits) : Buffers × List Message :=
  if line = [] then
    ({ lastEventId := b.lastEventId },
      if b.data = [] then [] else [⟨b.eventType, b.data.dropLast, b.lastEventId⟩])
  else (field b line, [])

def readLines : Buffers → List CodeUnits → Buffers × List Message
  | b, [] => (b, [])
  | b, line :: rest => ((readLines (readLine b line).1 rest).1, (readLine b line).2 ++ (readLines (readLine b line).1 rest).2)

def withoutMark : CodeUnits → CodeUnits
  | 0xfeff :: text => text
  | text => text

def messages (text : CodeUnits) : List Message := (readLines {} (lines (withoutMark text)).1).2

theorem lines_return_feed (us : CodeUnits) : lines (0x0d :: 0x0a :: us) = ([] :: (lines us).1, (lines us).2) := by
  rw [lines]

theorem lines_feed (us : CodeUnits) : lines (0x0a :: us) = ([] :: (lines us).1, (lines us).2) := by
  rw [lines]
  · exact if_pos (.inr rfl)
  · intro rest same
    exact absurd same (by decide)

variable {us : CodeUnits}

theorem lines_return (lone : us.head? ≠ some 0x0a) : lines (0x0d :: us) = ([] :: (lines us).1, (lines us).2) := by
  rw [lines]
  · exact if_pos (.inl rfl)
  · rintro rest - rfl
    exact lone rfl

variable {line : CodeUnits} {rest : List CodeUnits}

theorem lines_other {u : UInt16} (other : u ≠ carriageReturn ∧ u ≠ lineFeed) (h : (lines us).1 = line :: rest) :
    lines (u :: us) = ((u :: line) :: rest, (lines us).2) := by
  rw [lines]
  · rw [if_neg (not_or.mpr other), h]
  · intro rest same
    exact absurd same other.1

@[elab_as_elim]
theorem induction_on_ends {P : CodeUnits → Prop} (us : CodeUnits) (nil : P [])
    (both : ∀ us, P us → P (0x0d :: 0x0a :: us)) (feed : ∀ us, P us → P (0x0a :: us))
    (lone : ∀ us : CodeUnits, us.head? ≠ some 0x0a → P us → P (0x0d :: us))
    (other : ∀ u us, u ≠ carriageReturn ∧ u ≠ lineFeed → P us → P (u :: us)) : P us :=
  match us with
  | [] => nil
  | u :: us => by
      have ih := induction_on_ends us nil both feed lone other
      by_cases is_feed : u = 0x0a
      · exact is_feed ▸ feed us ih
      by_cases is_return : u = 0x0d
      · subst is_return
        cases us with
        | nil => exact lone [] (by simp) nil
        | cons v us =>
          by_cases follows : v = 0x0a
          · exact follows ▸ both us (induction_on_ends us nil both feed lone other)
          · exact lone (v :: us) (by simpa using follows) ih
      · exact other u us ⟨is_return, is_feed⟩ ih

theorem lines_of_feed (us : CodeUnits) : ∃ line rest, (lines (us ++ [0x0a])).1 = line :: rest := by
  induction us using induction_on_ends with
  | nil => exact ⟨[], [], by rw [List.nil_append, lines_feed]; rfl⟩
  | both us => exact ⟨[], _, by rw [List.cons_append, List.cons_append, lines_return_feed]⟩
  | feed us => exact ⟨[], _, by rw [List.cons_append, lines_feed]⟩
  | lone us last =>
    cases us with
    | nil => exact ⟨[], _, by rw [List.cons_append, List.nil_append, lines_return_feed]⟩
    | cons v us => exact ⟨[], _, by rw [List.cons_append, lines_return (by simpa using last)]⟩
  | other u us other ih =>
    obtain ⟨line, rest, first⟩ := ih
    exact ⟨u :: line, rest, by rw [List.cons_append, lines_other other first]⟩

theorem lines_append (a b : CodeUnits) :
    lines (a ++ 0x0a :: b) = ((lines (a ++ [0x0a])).1 ++ (lines b).1, (lines b).2) := by
  induction a using induction_on_ends with
  | nil =>
    rfl
  | both us ih =>
    rw [List.cons_append, List.cons_append, List.cons_append, List.cons_append, lines_return_feed,
      lines_return_feed, ih]
    rfl
  | feed us ih =>
    rw [List.cons_append, List.cons_append, lines_feed, lines_feed, ih]
    rfl
  | lone us last ih =>
    cases us with
    | nil =>
      rfl
    | cons v us =>
      have begins : ∀ more : CodeUnits, lines (0x0d :: v :: us ++ more) =
          ([] :: (lines (v :: us ++ more)).1, (lines (v :: us ++ more)).2) := fun more =>
        @lines_return (v :: us ++ more) (by simpa using last)
      rw [begins, begins, ih]
      rfl
  | other u us other ih =>
    obtain ⟨line, rest, first⟩ := lines_of_feed us
    have whole : (lines (us ++ 0x0a :: b)).1 = line :: (rest ++ (lines b).1) := by
      rw [ih, first]
      rfl
    rw [List.cons_append, List.cons_append, lines_other other first, lines_other other whole, ih]
    rfl

theorem plain_of_all {text : CodeUnits} (h : (text.all fun u => u ≠ carriageReturn && u ≠ lineFeed) = true) :
    ∀ u ∈ text, u ≠ carriageReturn ∧ u ≠ lineFeed := by
  simpa using h

theorem lines_before {before : CodeUnits} (plain : ∀ u ∈ before, u ≠ carriageReturn ∧ u ≠ lineFeed)
    (h : (lines us).1 = line :: rest) : lines (before ++ us) = ((before ++ line) :: rest, (lines us).2) := by
  induction before with
  | nil => exact Prod.ext h rfl
  | cons u before ih =>
    have whole := ih fun v inside => plain v (List.mem_cons_of_mem _ inside)
    rw [List.cons_append, lines_other (plain u List.mem_cons_self) (congrArg Prod.fst whole), whole]
    rfl

theorem readLines_append (b : Buffers) (first rest : List CodeUnits) :
    readLines b (first ++ rest) = ((readLines (readLines b first).1 rest).1,
      (readLines b first).2 ++ (readLines (readLines b first).1 rest).2) := by
  induction first generalizing b with
  | nil => rfl
  | cons line first ih => simp only [List.cons_append, readLines, ih, List.append_assoc]

theorem field_spaced {name : CodeUnits} (plain : ∀ u ∈ name, (u != colon) = true) (value : CodeUnits) :
    (name ++ colon :: 0x20 :: value).takeWhile (· != colon) = name ∧
      fieldValue ((name ++ colon :: 0x20 :: value).dropWhile (· != colon)) = value := by
  constructor
  · rw [List.takeWhile_append_of_pos plain, List.takeWhile_cons_of_neg (by simp), List.append_nil]
  · rw [List.dropWhile_append_of_pos plain, List.dropWhile_cons_of_neg (by simp)]
    rfl

theorem readLine_data (b : Buffers) (value : CodeUnits) :
    readLine b (ascii "data: " ++ value) = ({ b with data := b.data ++ value ++ [lineFeed] }, []) := by
  have shape : ascii "data: " ++ value = ascii "data" ++ colon :: 0x20 :: value := rfl
  obtain ⟨name, read⟩ := @field_spaced (ascii "data") (List.all_eq_true.mp (by decide)) value
  rw [shape, readLine, if_neg (by simp), field, name, read, if_pos rfl]

theorem readLine_id (b : Buffers) {value : CodeUnits} (clean : 0 ∉ value) :
    readLine b (ascii "id: " ++ value) = ({ b with lastEventId := value }, []) := by
  have shape : ascii "id: " ++ value = ascii "id" ++ colon :: 0x20 :: value := rfl
  obtain ⟨name, read⟩ := @field_spaced (ascii "id") (List.all_eq_true.mp (by decide)) value
  rw [shape, readLine, if_neg (by simp), field, name, read, if_neg (by decide), if_neg (by decide),
    if_pos rfl, if_neg clean]

def added (line : CodeUnits) : Nat :=
  if line.takeWhile (· != colon) = ascii "data" then
    (fieldValue (line.dropWhile (· != colon))).length + 1
  else 0

def amount (messages : List Message) : Nat := (messages.map fun m => m.data.length + 1).sum

theorem amount_append (first rest : List Message) : amount (first ++ rest) = amount first + amount rest := by
  rw [amount, List.map_append, List.sum_append, amount, amount]

theorem added_data (value : CodeUnits) : added (ascii "data: " ++ value) = value.length + 1 := by
  have shape : ascii "data: " ++ value = ascii "data" ++ colon :: 0x20 :: value := rfl
  obtain ⟨name, read⟩ := @field_spaced (ascii "data") (List.all_eq_true.mp (by decide)) value
  rw [shape, added, name, read, if_pos rfl]

theorem added_id (value : CodeUnits) : added (ascii "id: " ++ value) = 0 := by
  have shape : ascii "id: " ++ value = ascii "id" ++ colon :: 0x20 :: value := rfl
  obtain ⟨name, -⟩ := @field_spaced (ascii "id") (List.all_eq_true.mp (by decide)) value
  rw [shape, added, name, if_neg (by decide)]

theorem field_amount (b : Buffers) (line : CodeUnits) : (field b line).data.length = b.data.length + added line := by
  unfold field added
  dsimp only
  split_ifs <;> simp

theorem readLine_amount (b : Buffers) (line : CodeUnits) :
    amount (readLine b line).2 + (readLine b line).1.data.length = b.data.length + added line := by
  unfold readLine
  by_cases blank : line = []
  · subst blank
    cases data : b.data with
    | nil => rfl
    | cons u us => simp [amount, added, ascii]
  · rw [if_neg blank, field_amount]
    exact Nat.zero_add _

theorem readLines_amount (b : Buffers) (ls : List CodeUnits) :
    amount (readLines b ls).2 + (readLines b ls).1.data.length = b.data.length + (ls.map added).sum := by
  induction ls generalizing b with
  | nil => simp [readLines, amount]
  | cons line ls ih =>
    have first := readLine_amount b line
    have rest := ih (readLine b line).1
    rw [readLines, amount_append, List.map_cons, List.sum_cons]
    dsimp only
    omega

theorem fieldValue_length (us : CodeUnits) : (fieldValue us).length ≤ us.length := by
  unfold fieldValue
  split
  · exact Nat.le_refl _
  · simp only [List.length_cons]
    omega
  · simp only [List.length_cons]
    omega

theorem added_le (line : CodeUnits) : added line ≤ line.length := by
  unfold added
  split_ifs with data
  · have whole := congrArg List.length (List.takeWhile_append_dropWhile (p := (· != colon)) (l := line))
    have name := congrArg List.length data
    have value := fieldValue_length (line.dropWhile (· != colon))
    have four : (ascii "data").length = 4 := rfl
    rw [List.length_append] at whole
    omega
  · exact Nat.zero_le _

end EventSource
