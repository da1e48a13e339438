import Oyster.LineTransform
import Oyster.Json
import Mathlib.Algebra.GroupWithZero.Nat

/-! Server-sent events as a client reads them: the lines of an event up to the blank one
that dispatches it. Lines end with a line feed; the data of an event is kept line by
line, and its id is the one that stands among its own lines. -/
namespace EventStream
open LineTransform
open Json (ascii)

structure Event where
  id : Option CodeUnits
  name : CodeUnits
  data : List CodeUnits

/-- What the lines since the last blank one have made of the next event. -/
structure Block where
  id : Option CodeUnits := none
  name : CodeUnits := []
  data : List CodeUnits := []
  deriving DecidableEq

def colon : UInt16 := 0x3a

def fieldValue : CodeUnits → CodeUnits
  | [] => []
  | _ :: 0x20 :: value => value
  | _ :: value => value

def field (b : Block) (line : CodeUnits) : Block :=
  let name := line.takeWhile (· != colon)
  let value := fieldValue (line.dropWhile (· != colon))
  if name = ascii "data" then { b with data := b.data ++ [value] }
  else if name = ascii "event" then { b with name := value }
  else if name = ascii "id" then if 0 ∈ value then b else { b with id := some value }
  else b

def readLine (b : Block) (line : CodeUnits) : Block × List Event :=
  if line = [] then ({}, if b.data = [] then [] else [⟨b.id, b.name, b.data⟩])
  else (field b line, [])

def readLines : Block → List CodeUnits → Block × List Event
  | b, [] => (b, [])
  | b, line :: lines =>
    let (c, events) := readLine b line
    let (d, more) := readLines c lines
    (d, events ++ more)

structure Reader where
  block : Block := {}
  pending : CodeUnits := []

def read (r : Reader) (text : CodeUnits) : Reader × List Event :=
  let (lines, rest) := splitLines (r.pending ++ text)
  let (block, events) := readLines r.block lines
  (⟨block, rest⟩, events)

theorem readLines_append (b : Block) (l m : List CodeUnits) :
    readLines b (l ++ m) = ((readLines (readLines b l).1 m).1,
      (readLines b l).2 ++ (readLines (readLines b l).1 m).2) := by
  induction l generalizing b with
  | nil => rfl
  | cons line l ih => simp only [List.cons_append, readLines, ih, List.append_assoc]

theorem read_append (r : Reader) (a b : CodeUnits) :
    read r (a ++ b) = ((read (read r a).1 b).1, (read r a).2 ++ (read (read r a).1 b).2) := by
  simp only [read]
  rw [← List.append_assoc, splitLines_append, readLines_append]

structure Line where
  text : CodeUnits
  wellFormed : Utf16.WellFormed text
  within : 0x0a ∉ text ∧ 0x0d ∉ text ∧ 0 ∉ text

structure SourceEvent where
  id : Option Line
  name : Option Line
  data : List Line
  some_data : data ≠ []

def fieldLine (name : String) (value : Line) : CodeUnits := ascii name ++ colon :: 0x20 :: value.text

def SourceEvent.lines (e : SourceEvent) : List CodeUnits :=
  e.id.toList.map (fieldLine "id") ++ e.name.toList.map (fieldLine "event") ++ e.data.map (fieldLine "data") ++ [[]]

def joinLines (lines : List CodeUnits) : CodeUnits := lines.flatMap fun line => line ++ [lineFeed]

def encode (events : List SourceEvent) : CodeUnits := joinLines (events.flatMap SourceEvent.lines)

def SourceEvent.event (e : SourceEvent) : Event :=
  ⟨e.id.map Line.text, (e.name.map Line.text).getD [], e.data.map Line.text⟩

theorem splitLines_joinLines {lines : List CodeUnits} (h : ∀ line ∈ lines, lineFeed ∉ line) (us : CodeUnits) :
    splitLines (joinLines lines ++ us) = (lines ++ (splitLines us).1, (splitLines us).2) := by
  induction lines with
  | nil => rfl
  | cons line lines ih =>
    rw [joinLines, List.flatMap_cons, List.append_assoc, List.append_assoc, List.singleton_append,
      splitLines_line (h line List.mem_cons_self), ← joinLines,
      ih fun other mem => h other (List.mem_cons_of_mem _ mem)]
    rfl

variable {name : String}

theorem field_line (plain : colon ∉ ascii name) (value : Line) (b : Block) : field b (fieldLine name value) =
      if ascii name = ascii "data" then { b with data := b.data ++ [value.text] }
      else if ascii name = ascii "event" then { b with name := value.text }
      else if ascii name = ascii "id" then { b with id := some value.text }
      else b := by
  have before : ∀ u ∈ ascii name, (u != colon) = true := by
    intro u mem
    rw [bne_iff_ne]
    rintro rfl
    exact plain mem
  have take : (fieldLine name value).takeWhile (· != colon) = ascii name := by
    rw [fieldLine, List.takeWhile_append_of_pos before, List.takeWhile_cons_of_neg (by simp), List.append_nil]
  have drop : (fieldLine name value).dropWhile (· != colon) = colon :: 0x20 :: value.text := by
    rw [fieldLine, List.dropWhile_append_of_pos before, List.dropWhile_cons_of_neg (by simp)]
  have absent : 0 ∉ fieldValue (colon :: 0x20 :: value.text) := value.within.2.2
  simp only [field, take, drop]
  split_ifs <;> rfl

theorem lineFeed_fieldLine (plain : lineFeed ∉ ascii name) (value : Line) : lineFeed ∉ fieldLine name value := by
  have other : lineFeed ≠ colon ∧ lineFeed ≠ 0x20 := by decide
  simp only [fieldLine, List.mem_append, List.mem_cons, not_or]
  exact ⟨plain, other.1, other.2, value.within.1⟩

variable {line : CodeUnits}

theorem mem_lines {e : SourceEvent} (h : line ∈ e.lines) :
    line = [] ∨ ∃ name ∈ ["id", "event", "data"], ∃ value, line = fieldLine name value := by
  simp only [SourceEvent.lines, List.mem_append, List.mem_map, List.mem_singleton] at h
  rcases h with ((⟨value, _, rfl⟩ | ⟨value, _, rfl⟩) | ⟨value, _, rfl⟩) | rfl
  · exact .inr ⟨"id", by simp, value, rfl⟩
  · exact .inr ⟨"event", by simp, value, rfl⟩
  · exact .inr ⟨"data", by simp, value, rfl⟩
  · exact .inl rfl

theorem lines_wellFormed (h : line = [] ∨ ∃ name ∈ ["id", "event", "data"], ∃ value, line = fieldLine name value) :
    lineFeed ∉ line ∧ Utf16.WellFormed line := by
  have plain : ∀ name ∈ ["id", "event", "data"], lineFeed ∉ ascii name ∧
      ((ascii name ++ [colon, 0x20]).all fun u => decide (0x20 ≤ u.toNat ∧ u.toNat < 0xd800)) = true := by
    decide
  rcases h with rfl | ⟨name, mem, value, rfl⟩
  · exact ⟨List.not_mem_nil, [], rfl⟩
  · obtain ⟨absent, units⟩ := plain name mem
    refine ⟨lineFeed_fieldLine absent value, ?_⟩
    have before := (Json.plain_of_all units).wellFormed.append value.wellFormed
    rwa [List.append_assoc] at before

theorem encode_wellFormed (events : List SourceEvent) : Utf16.WellFormed (encode events) := by
  have all : ∀ line ∈ events.flatMap SourceEvent.lines, Utf16.WellFormed line := by
    intro line mem
    obtain ⟨e, _, inside⟩ := List.mem_flatMap.mp mem
    exact (lines_wellFormed (mem_lines inside)).2
  have feed : Utf16.WellFormed [lineFeed] := ⟨['\n'], by decide⟩
  unfold encode joinLines
  generalize events.flatMap SourceEvent.lines = lines at all
  induction lines with
  | nil => exact ⟨[], rfl⟩
  | cons line lines ih =>
    refine ((all line List.mem_cons_self).append feed).append (ih ?_)
    exact fun other mem => all other (List.mem_cons_of_mem _ mem)

theorem fieldLine_ne_nil (name : String) (value : Line) : fieldLine name value ≠ [] := by
  simp [fieldLine]

theorem readLines_data (lines : List Line) (b : Block) :
    readLines b (lines.map (fieldLine "data")) = ({ b with data := b.data ++ lines.map Line.text }, []) := by
  induction lines generalizing b with
  | nil => simp [readLines]
  | cons line lines ih =>
    rw [List.map_cons, readLines, readLine, if_neg (fieldLine_ne_nil _ _), field_line (by decide), if_pos rfl]
    simp only [ih, List.map_cons, List.append_assoc, List.singleton_append, List.append_nil]

theorem readLines_event (e : SourceEvent) : readLines {} e.lines = ({}, [e.event]) := by
  obtain ⟨id, name, data, some_data⟩ := e
  have blank : data.map Line.text ≠ [] := fun none => some_data (List.map_eq_nil_iff.mp none)
  unfold SourceEvent.lines SourceEvent.event
  rw [readLines_append, readLines_append, readLines_append]
  cases id <;> cases name <;>
    simp [readLines, readLine, field_line, readLines_data, blank, fieldLine_ne_nil,
      show colon ∉ ascii "id" by decide, show colon ∉ ascii "event" by decide,
      show ascii "id" ≠ ascii "data" by decide, show ascii "id" ≠ ascii "event" by decide,
      show ascii "event" ≠ ascii "data" by decide]

theorem readLines_events (events : List SourceEvent) :
    readLines {} (events.flatMap SourceEvent.lines) = ({}, events.map SourceEvent.event) := by
  induction events with
  | nil => rfl
  | cons e events ih =>
    rw [List.flatMap_cons, readLines_append, readLines_event]
    simp only [ih]
    rfl

end EventStream
