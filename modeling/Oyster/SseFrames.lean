import Oyster.EventSource

/-! The frames that the server writes for its events, read back as a browser reads them. -/
namespace SseFrames
open EventSource
open Json (ascii)

def safeEventIdMaxLength : Nat := 200

/-- The guard of both directions: present, bounded, and on one line. -/
def safeEventId (id : CodeUnits) : Bool :=
  id ≠ [] && id.length ≤ safeEventIdMaxLength && id.all fun u => u ≠ 0 && u ≠ 0x0d && u ≠ 0x0a

def sseEventId (data : CodeUnits) : Option CodeUnits :=
  match (Json.parse data : Option (Json.Value Json.Literal)) with
  | some (.obj members) =>
    match Json.lookup members (ascii "_sseId") with
    | some (.str id) => if safeEventId id then some id else none
    | _ => none
  | _ => none

/-- `split(/\r?\n/)`: a line feed, with a carriage return that stands before it. -/
def splitFeeds : CodeUnits → List CodeUnits
  | [] => [[]]
  | 0x0d :: 0x0a :: us => [] :: splitFeeds us
  | u :: us =>
    if u = 0x0a then [] :: splitFeeds us
    else match splitFeeds us with
      | [] => [[u]]
      | line :: rest => (u :: line) :: rest

def sseDataFrame (data : CodeUnits) (includeId : Bool) : CodeUnits :=
  let id := if includeId then sseEventId data else none
  let payload := [0x0a].intercalate ((splitFeeds data).map fun line => ascii "data: " ++ line)
  let idLine := match id with
    | some id => ascii "id: " ++ id ++ [0x0a]
    | none => []
  idLine ++ payload ++ [0x0a, 0x0a]

def normalizeLastEventId (candidate : CodeUnits) : Option CodeUnits :=
  if safeEventId candidate then some candidate else none

/-- The text with each of its line ends as a line feed. -/
def normalized : CodeUnits → CodeUnits
  | [] => []
  | 0x0d :: 0x0a :: us => 0x0a :: normalized us
  | u :: us => (if u = 0x0d then 0x0a else u) :: normalized us

/-- A carriage return that no line feed follows. -/
def LoneReturn (us : CodeUnits) : Prop := ∃ a b, us = a ++ 0x0d :: b ∧ b.head? ≠ some 0x0a

def Carries (p : CodeUnits × Bool) (m : Message) : Prop :=
  m.data = normalized p.1 ∧ ∀ id, p.2 = true → sseEventId p.1 = some id → m.lastEventId = id

/-- What is written for the payloads, each with or without its id. -/
def stream (payloads : List (CodeUnits × Bool)) : CodeUnits := payloads.flatMap fun p => sseDataFrame p.1 p.2

/-- The frames are read as one message each, in order, and every id comes back unchanged. -/
def RoundTrips (payloads : List (CodeUnits × Bool)) : Prop :=
  List.Forall₂ Carries payloads (messages (stream payloads)) ∧
    ∀ p ∈ payloads, ∀ id, sseEventId p.1 = some id → normalizeLastEventId id = some id

/-- The frame behind its first `data: `. -/
def body : CodeUnits → CodeUnits
  | [] => [0x0a, 0x0a]
  | 0x0d :: 0x0a :: us => 0x0a :: (ascii "data: " ++ body us)
  | u :: us => if u = 0x0a then 0x0a :: (ascii "data: " ++ body us) else u :: body us

section Cases
variable {u : UInt16} {us : CodeUnits}

theorem not_both (h : u = 0x0d → us.head? ≠ some 0x0a) : ∀ rest, u = 0x0d → us = 0x0a :: rest → False := by
  rintro rest same rfl
  exact h same rfl

theorem body_feed : body (0x0a :: us) = 0x0a :: (ascii "data: " ++ body us) := by
  rw [body]
  · exact if_pos rfl
  · exact not_both fun same => absurd same (by decide)

theorem body_other (feed : u ≠ 0x0a) (h : u = 0x0d → us.head? ≠ some 0x0a) : body (u :: us) = u :: body us := by
  rw [body]
  · exact if_neg feed
  · exact not_both h

theorem normalized_return (h : us.head? ≠ some 0x0a) : normalized (0x0d :: us) = 0x0a :: normalized us := by
  rw [normalized]
  · rfl
  · exact not_both fun _ => h

theorem normalized_other (h : u ≠ 0x0d) : normalized (u :: us) = u :: normalized us := by
  rw [normalized]
  · rw [if_neg h]
  · exact not_both fun same => absurd same h

theorem splitFeeds_feed : splitFeeds (0x0a :: us) = [] :: splitFeeds us := by
  rw [splitFeeds]
  · exact if_pos rfl
  · exact not_both fun same => absurd same (by decide)

theorem splitFeeds_other (feed : u ≠ 0x0a) (h : u = 0x0d → us.head? ≠ some 0x0a) {line : CodeUnits}
    {rest : List CodeUnits} (split : splitFeeds us = line :: rest) :
    splitFeeds (u :: us) = (u :: line) :: rest := by
  rw [splitFeeds]
  · rw [if_neg feed, split]
  · exact not_both h

end Cases

theorem splitFeeds_ne_nil (us : CodeUnits) : ∃ line rest, splitFeeds us = line :: rest := by
  induction us using induction_on_ends with
  | nil => exact ⟨[], [], rfl⟩
  | both us => exact ⟨[], _, rfl⟩
  | feed us => exact ⟨[], _, splitFeeds_feed⟩
  | lone us last ih =>
    obtain ⟨line, rest, split⟩ := ih
    exact ⟨_, _, splitFeeds_other (by decide) (fun _ => last) split⟩
  | other u us other ih =>
    obtain ⟨line, rest, split⟩ := ih
    exact ⟨_, _, splitFeeds_other other.2 (fun same => absurd same other.1) split⟩

theorem intercalate_flatMap (line : CodeUnits) (rest : List CodeUnits) :
    [0x0a].intercalate (line :: rest) = line ++ rest.flatMap fun l => 0x0a :: l := by
  induction rest generalizing line with
  | nil => simp
  | cons next rest ih => rw [List.intercalate_cons_cons, ih, List.flatMap_cons, List.append_assoc]; rfl

variable {us line : CodeUnits} {rest : List CodeUnits}

theorem body_of_splitFeeds (split : splitFeeds us = line :: rest) :
    line ++ (rest.flatMap fun l => 0x0a :: (ascii "data: " ++ l)) ++ [0x0a, 0x0a] = body us := by
  have next : ∀ us : CodeUnits, (∀ line rest, splitFeeds us = line :: rest →
      line ++ (rest.flatMap fun l => 0x0a :: (ascii "data: " ++ l)) ++ [0x0a, 0x0a] = body us) →
      ((splitFeeds us).flatMap fun l => 0x0a :: (ascii "data: " ++ l)) ++ [0x0a, 0x0a] =
        0x0a :: (ascii "data: " ++ body us) := fun us ih => by
    obtain ⟨line, rest, split⟩ := splitFeeds_ne_nil us
    rw [split, List.flatMap_cons, ← ih line rest split]
    simp only [List.append_assoc, List.cons_append]
  induction us using induction_on_ends generalizing line rest with
  | nil =>
    cases split
    rfl
  | both us ih =>
    cases split
    exact next us fun _ _ split => ih split
  | feed us ih =>
    cases splitFeeds_feed.symm.trans split
    exact next us fun _ _ split => ih split
  | lone us last ih =>
    obtain ⟨first, others, before⟩ := splitFeeds_ne_nil us
    cases (splitFeeds_other (by decide) (fun _ => last) before).symm.trans split
    rw [body_other (by decide) fun _ => last, ← ih before]
    rfl
  | other u us other ih =>
    obtain ⟨first, others, before⟩ := splitFeeds_ne_nil us
    have ret : u = 0x0d → us.head? ≠ some 0x0a := fun same => absurd same other.1
    cases (splitFeeds_other other.2 ret before).symm.trans split
    rw [body_other other.2 ret, ← ih before]
    rfl

theorem sseDataFrame_eq (data : CodeUnits) (includeId : Bool) : sseDataFrame data includeId =
      (match (if includeId then sseEventId data else none) with
        | some id => ascii "id: " ++ id ++ [0x0a]
        | none => []) ++ (ascii "data: " ++ body data) := by
  obtain ⟨line, rest, split⟩ := splitFeeds_ne_nil data
  rw [sseDataFrame, ← body_of_splitFeeds split, split, List.map_cons, intercalate_flatMap, List.flatMap_map]
  simp only [List.append_assoc]

theorem data_plain : ∀ u ∈ ascii "data: ", u ≠ carriageReturn ∧ u ≠ lineFeed := plain_of_all (by decide)

/-- The lines of a body, of which the first one belongs to the field before it. -/
structure BodyLines (us line : CodeUnits) (rest : List CodeUnits) : Prop where
  lines : lines (body us) = (line :: rest, [])
  blank : rest.getLast? = some []

theorem bodyLines_nil : BodyLines [] [] [[]] where
  lines := by
    rfl
  blank := rfl

theorem BodyLines.field (h : BodyLines us line rest) :
    EventSource.lines (0x0a :: (ascii "data: " ++ body us)) = ([] :: (ascii "data: " ++ line) :: rest, []) := by
  rw [lines_feed, lines_before data_plain (congrArg Prod.fst h.lines), h.lines]

theorem BodyLines.blank_cons (h : BodyLines us line rest) (other : CodeUnits) :
    (other :: rest).getLast? = some [] := by
  have := h.blank
  cases rest with
  | nil => cases this
  | cons first rest => rw [List.getLast?_cons_cons, this]

theorem BodyLines.both (h : BodyLines us line rest) :
    BodyLines (0x0d :: 0x0a :: us) [] ((ascii "data: " ++ line) :: rest) :=
  ⟨h.field, h.blank_cons _⟩

theorem BodyLines.feed (h : BodyLines us line rest) : BodyLines (0x0a :: us) [] ((ascii "data: " ++ line) :: rest) :=
  ⟨by rw [body_feed]; exact h.field, h.blank_cons _⟩

variable {u : UInt16}

theorem BodyLines.other (h : BodyLines us line rest) (other : u ≠ carriageReturn ∧ u ≠ lineFeed) :
    BodyLines (u :: us) (u :: line) rest := by
  refine ⟨?_, h.blank⟩
  rw [body_other other.2 fun same => absurd same other.1, lines_other other (congrArg Prod.fst h.lines), h.lines]

theorem BodyLines.lone (h : BodyLines us line rest) (last : us.head? ≠ some 0x0a) :
    BodyLines (0x0d :: us) line rest ∨ BodyLines (0x0d :: us) [] (line :: rest) := by
  have text : body (0x0d :: us) = 0x0d :: body us := body_other (by decide) fun _ => last
  by_cases feed : (body us).head? = some 0x0a
  · obtain ⟨more, same⟩ : ∃ more, body us = 0x0a :: more := List.head?_eq_some_iff.mp feed
    refine .inl ⟨?_, h.blank⟩
    have before := h.lines
    rw [same, lines_feed] at before
    rw [text, same, lines_return_feed, before]
  · refine .inr ⟨?_, h.blank_cons _⟩
    rw [text, lines_return feed, h.lines]

theorem exists_bodyLines (us : CodeUnits) : ∃ line rest, BodyLines us line rest := by
  induction us using induction_on_ends with
  | nil => exact ⟨_, _, bodyLines_nil⟩
  | both us ih =>
    obtain ⟨line, rest, h⟩ := ih
    exact ⟨_, _, h.both⟩
  | feed us ih =>
    obtain ⟨line, rest, h⟩ := ih
    exact ⟨_, _, h.feed⟩
  | lone us last ih =>
    obtain ⟨line, rest, h⟩ := ih
    rcases h.lone last with ended | split
    · exact ⟨_, _, ended⟩
    · exact ⟨_, _, split⟩
  | other u us other ih =>
    obtain ⟨line, rest, h⟩ := ih
    exact ⟨_, _, h.other other⟩

theorem BodyLines.unique {line' : CodeUnits} {rest' : List CodeUnits} (h : BodyLines us line rest)
    (h' : BodyLines us line' rest') : line = line' ∧ rest = rest' :=
  List.cons.inj (congrArg Prod.fst (h.lines.symm.trans h'.lines))

theorem loneReturn_nil : ¬LoneReturn [] := by
  rintro ⟨a, b, same, -⟩
  simp at same

theorem loneReturn_cons : LoneReturn (u :: us) ↔ (u = 0x0d ∧ us.head? ≠ some 0x0a) ∨ LoneReturn us := by
  constructor
  · rintro ⟨a, b, same, last⟩
    cases a with
    | nil =>
      cases same
      exact .inl ⟨rfl, last⟩
    | cons v a =>
      obtain ⟨-, rfl⟩ := List.cons.inj same
      exact .inr ⟨a, b, rfl, last⟩
  · rintro (⟨rfl, last⟩ | ⟨a, b, rfl, last⟩)
    · exact ⟨[], us, rfl, last⟩
    · exact ⟨u :: a, b, rfl, last⟩

theorem loneReturn_both : LoneReturn (0x0d :: 0x0a :: us) ↔ LoneReturn us := by
  simp [loneReturn_cons]

theorem loneReturn_other (other : u ≠ 0x0d) : LoneReturn (u :: us) ↔ LoneReturn us := by
  rw [loneReturn_cons, or_iff_right fun h => other h.1]

theorem BodyLines.added_le (h : BodyLines us line rest) :
    line.length + (rest.map added).sum ≤ (normalized us).length ∧
      (LoneReturn us → line.length + (rest.map added).sum < (normalized us).length) := by
  induction us using induction_on_ends generalizing line rest with
  | nil =>
    obtain ⟨rfl, rfl⟩ := h.unique bodyLines_nil
    exact ⟨by decide, fun lone => absurd lone loneReturn_nil⟩
  | both us ih =>
    obtain ⟨first, others, before⟩ := exists_bodyLines us
    obtain ⟨rfl, rfl⟩ := h.unique before.both
    obtain ⟨le, less⟩ := ih before
    rw [normalized, loneReturn_both, List.map_cons, List.sum_cons, added_data, List.length_cons, List.length_nil]
    exact ⟨by omega, fun lone => by have := less lone; omega⟩
  | feed us ih =>
    obtain ⟨first, others, before⟩ := exists_bodyLines us
    obtain ⟨rfl, rfl⟩ := h.unique before.feed
    obtain ⟨le, less⟩ := ih before
    rw [normalized_other (by decide), loneReturn_other (by decide), List.map_cons, List.sum_cons, added_data,
      List.length_cons, List.length_nil]
    exact ⟨by omega, fun lone => by have := less lone; omega⟩
  | lone us last ih =>
    obtain ⟨first, others, before⟩ := exists_bodyLines us
    obtain ⟨le, -⟩ := ih before
    rw [normalized_return last, List.length_cons]
    rcases before.lone last with ended | split
    · obtain ⟨rfl, rfl⟩ := h.unique ended
      exact ⟨by omega, fun _ => by omega⟩
    · obtain ⟨rfl, rfl⟩ := h.unique split
      have small := EventSource.added_le first
      rw [List.map_cons, List.sum_cons, List.length_nil]
      exact ⟨by omega, fun _ => by omega⟩
  | other u us other ih =>
    obtain ⟨first, others, before⟩ := exists_bodyLines us
    obtain ⟨rfl, rfl⟩ := h.unique (before.other other)
    obtain ⟨le, less⟩ := ih before
    rw [normalized_other other.1, loneReturn_other other.1, List.length_cons, List.length_cons]
    exact ⟨by omega, fun lone => by have := less lone; omega⟩

variable {b : Buffers}

theorem readLines_next {before : CodeUnits} {text : CodeUnits}
    (h : ∀ b : Buffers, readLines b ((ascii "data: " ++ ([] ++ line)) :: rest) =
      ({ lastEventId := b.lastEventId }, [⟨b.eventType, b.data ++ [] ++ text, b.lastEventId⟩])) :
    readLines b ((ascii "data: " ++ (before ++ [])) :: (ascii "data: " ++ line) :: rest) =
      ({ lastEventId := b.lastEventId }, [⟨b.eventType, b.data ++ before ++ lineFeed :: text, b.lastEventId⟩]) := by
  rw [List.append_nil, readLines, readLine_data, List.nil_append]
  have read := h { b with data := b.data ++ before ++ [lineFeed] }
  rw [List.nil_append] at read
  rw [read]
  simp

theorem BodyLines.read (h : BodyLines us line rest) (free : ¬LoneReturn us) (b : Buffers) (before : CodeUnits) :
    readLines b ((ascii "data: " ++ (before ++ line)) :: rest) = ({ lastEventId := b.lastEventId },
        [⟨b.eventType, b.data ++ before ++ normalized us, b.lastEventId⟩]) := by
  induction us using induction_on_ends generalizing line rest b before with
  | nil =>
    obtain ⟨rfl, rfl⟩ := h.unique bodyLines_nil
    rw [readLines, readLine_data]
    simp [readLines, readLine, normalized]
  | both us ih =>
    obtain ⟨first, others, next⟩ := exists_bodyLines us
    obtain ⟨rfl, rfl⟩ := h.unique next.both
    rw [loneReturn_both] at free
    exact readLines_next fun b => ih next free b []
  | feed us ih =>
    obtain ⟨first, others, next⟩ := exists_bodyLines us
    obtain ⟨rfl, rfl⟩ := h.unique next.feed
    rw [loneReturn_other (by decide)] at free
    exact readLines_next fun b => ih next free b []
  | lone us last ih => exact absurd (loneReturn_cons.mpr (.inl ⟨rfl, last⟩)) free
  | other u us other ih =>
    obtain ⟨first, others, next⟩ := exists_bodyLines us
    obtain ⟨rfl, rfl⟩ := h.unique (next.other other)
    rw [loneReturn_other other.1] at free
    have read := ih next free b (before ++ [u])
    rw [normalized_other other.1]
    simpa using read

variable {id : CodeUnits}

theorem safeEventId_clean (safe : safeEventId id = true) :
    (∀ u ∈ id, u ≠ carriageReturn ∧ u ≠ lineFeed) ∧ 0 ∉ id := by
  simp only [safeEventId, Bool.and_eq_true, decide_eq_true_eq, List.all_eq_true] at safe
  exact ⟨fun u inside => ⟨(safe.2 u inside).1.2, (safe.2 u inside).2⟩, fun inside => (safe.2 0 inside).1.1 rfl⟩

theorem safe_of_sseEventId {data : CodeUnits} (h : sseEventId data = some id) : safeEventId id = true := by
  unfold sseEventId at h
  split at h
  · split at h
    · split_ifs at h with safe
      exact Option.some.inj h ▸ safe
    · cases h
  · cases h

def frameId (p : CodeUnits × Bool) : Option CodeUnits := if p.2 then sseEventId p.1 else none

def idLines : Option CodeUnits → List CodeUnits
  | some id => [ascii "id: " ++ id]
  | none => []

theorem safe_of_frameId {p : CodeUnits × Bool} (h : frameId p = some id) : safeEventId id = true := by
  unfold frameId at h
  split_ifs at h
  exact safe_of_sseEventId h

theorem lines_frame (p : CodeUnits × Bool) (h : BodyLines p.1 line rest) :
    lines (sseDataFrame p.1 p.2) = (idLines (frameId p) ++ (ascii "data: " ++ line) :: rest, []) := by
  have field : lines (ascii "data: " ++ body p.1) = ((ascii "data: " ++ line) :: rest, []) := by
    rw [lines_before data_plain (congrArg Prod.fst h.lines), h.lines]
  rw [sseDataFrame_eq]
  change lines ((match frameId p with | some id => _ | none => _) ++ _) = _
  cases carried : frameId p with
  | none => exact field
  | some id =>
    have clean := safeEventId_clean (safe_of_frameId carried)
    have plain : ∀ u ∈ ascii "id: " ++ id, u ≠ carriageReturn ∧ u ≠ lineFeed := by
      intro u inside
      rcases List.mem_append.mp inside with name | value
      · exact @plain_of_all (ascii "id: ") (by decide) u name
      · exact clean.1 u value
    have feed : lines (0x0a :: (ascii "data: " ++ body p.1)) = ([] :: (ascii "data: " ++ line) :: rest, []) := by
      rw [lines_feed, field]
    have shape : ascii "id: " ++ id ++ [0x0a] ++ (ascii "data: " ++ body p.1) =
        (ascii "id: " ++ id) ++ 0x0a :: (ascii "data: " ++ body p.1) := by
      simp only [List.append_assoc, List.singleton_append]
    rw [shape, lines_before plain (congrArg Prod.fst feed), feed, List.append_nil]
    rfl

theorem lines_frame_append (p : CodeUnits × Bool) (more : CodeUnits) :
    lines (sseDataFrame p.1 p.2 ++ more) = ((lines (sseDataFrame p.1 p.2)).1 ++ (lines more).1, (lines more).2) := by
  obtain ⟨text, same⟩ : ∃ text, sseDataFrame p.1 p.2 = text ++ [0x0a] := by
    have two : [0x0a, 0x0a] = [0x0a] ++ ([0x0a] : CodeUnits) := rfl
    simp only [sseDataFrame, two, ← List.append_assoc]
    exact ⟨_, rfl⟩
  rw [same, List.append_assoc, List.singleton_append, lines_append]

theorem readLines_blank {ls : List CodeUnits} (blank : ls.getLast? = some []) :
    ∃ id, (readLines b ls).1 = { lastEventId := id } := by
  obtain ⟨before, rfl⟩ := List.getLast?_eq_some_iff.mp blank
  rw [readLines_append]
  exact ⟨_, rfl⟩

theorem readLines_id {id : Option CodeUnits} (safe : ∀ value, id = some value → 0 ∉ value) (last : CodeUnits) :
    readLines { lastEventId := last } (idLines id) = ({ lastEventId := id.getD last }, []) := by
  cases id with
  | none => rfl
  | some value =>
    rw [idLines, readLines, readLine_id _ (safe value rfl)]
    rfl

theorem read_frame (p : CodeUnits × Bool) (last : CodeUnits) :
    (∃ id, (readLines { lastEventId := last } (lines (sseDataFrame p.1 p.2)).1).1 = { lastEventId := id }) ∧
    amount (readLines { lastEventId := last } (lines (sseDataFrame p.1 p.2)).1).2 ≤ (normalized p.1).length + 1 ∧
    (LoneReturn p.1 →
      amount (readLines { lastEventId := last } (lines (sseDataFrame p.1 p.2)).1).2 < (normalized p.1).length + 1) ∧
    (¬LoneReturn p.1 → readLines { lastEventId := last } (lines (sseDataFrame p.1 p.2)).1 =
        ({ lastEventId := (frameId p).getD last }, [⟨[], normalized p.1, (frameId p).getD last⟩])) := by
  obtain ⟨line, rest, h⟩ := exists_bodyLines p.1
  obtain ⟨le, less⟩ := h.added_le
  have clean : ∀ value, frameId p = some value → 0 ∉ value := fun value carried =>
    (safeEventId_clean (safe_of_frameId carried)).2
  rw [lines_frame p h]
  dsimp only
  have blank : (idLines (frameId p) ++ (ascii "data: " ++ line) :: rest).getLast? = some [] := by
    rw [List.getLast?_append_cons, h.blank_cons]
  have total := readLines_amount { lastEventId := last } (idLines (frameId p) ++ (ascii "data: " ++ line) :: rest)
  obtain ⟨id, ends⟩ := readLines_blank blank
  have of_id : ((idLines (frameId p)).map added).sum = 0 := by
    cases frameId p with
    | none => rfl
    | some id => simp [idLines, added_id]
  rw [ends, List.map_append, List.sum_append, of_id, List.map_cons, List.sum_cons, added_data] at total
  simp only [List.length_nil] at total
  refine ⟨⟨id, ends⟩, by omega, fun lone => ?_, fun free => ?_⟩
  · have := less lone
    omega
  · have read := h.read free { lastEventId := (frameId p).getD last } []
    rw [readLines_append, readLines_id clean]
    simpa using read

theorem lines_stream_cons (p : CodeUnits × Bool) (payloads : List (CodeUnits × Bool)) :
    (lines (stream (p :: payloads))).1 = (lines (sseDataFrame p.1 p.2)).1 ++ (lines (stream payloads)).1 := by
  rw [stream, List.flatMap_cons, lines_frame_append, ← stream]

theorem withoutMark_of_head (h : us.head? ≠ some 0xfeff) : withoutMark us = us := by
  unfold withoutMark
  split
  · exact absurd rfl h
  · rfl

theorem withoutMark_stream (payloads : List (CodeUnits × Bool)) : withoutMark (stream payloads) = stream payloads := by
  apply withoutMark_of_head
  cases payloads with
  | nil => exact fun absurd => by cases absurd
  | cons p payloads =>
    rw [stream, List.flatMap_cons, sseDataFrame_eq]
    split
    · exact fun absurd => by cases absurd
    · exact fun absurd => by cases absurd

theorem amount_stream (payloads : List (CodeUnits × Bool)) (last : CodeUnits) :
    amount (readLines { lastEventId := last } (lines (stream payloads)).1).2 ≤
      (payloads.map fun p => (normalized p.1).length + 1).sum ∧
    ((∃ p ∈ payloads, LoneReturn p.1) → amount (readLines { lastEventId := last } (lines (stream payloads)).1).2 <
        (payloads.map fun p => (normalized p.1).length + 1).sum) := by
  induction payloads generalizing last with
  | nil =>
    refine ⟨Nat.zero_le _, ?_⟩
    rintro ⟨p, absurd, -⟩
    cases absurd
  | cons p payloads ih =>
    obtain ⟨⟨id, ends⟩, le, less, -⟩ := read_frame p last
    obtain ⟨le_rest, less_rest⟩ := ih id
    rw [lines_stream_cons, readLines_append, ends, amount_append, List.map_cons, List.sum_cons]
    refine ⟨by omega, ?_⟩
    rintro ⟨q, inside, lone⟩
    rcases List.mem_cons.mp inside with rfl | inside
    · have := less lone
      omega
    · have := less_rest ⟨q, inside, lone⟩
      omega

variable {payloads : List (CodeUnits × Bool)}

theorem read_stream (free : ∀ p ∈ payloads, ¬LoneReturn p.1) (last : CodeUnits) :
    List.Forall₂ Carries payloads (readLines { lastEventId := last } (lines (stream payloads)).1).2 := by
  induction payloads generalizing last with
  | nil => exact .nil
  | cons p payloads ih =>
    obtain ⟨-, -, -, read⟩ := read_frame p last
    rw [lines_stream_cons, readLines_append, read (free p List.mem_cons_self), List.singleton_append]
    refine .cons ⟨rfl, ?_⟩ (ih (fun q inside => free q (List.mem_cons_of_mem _ inside)) _)
    intro id included carried
    have own : frameId p = some id := by rw [frameId, if_pos included, carried]
    rw [own]
    rfl

theorem amount_of_carries {ms : List Message} (h : List.Forall₂ Carries payloads ms) :
    amount ms = (payloads.map fun p => (normalized p.1).length + 1).sum := by
  induction h with
  | nil => rfl
  | cons carries _ ih =>
    rw [List.map_cons, List.sum_cons, ← ih, ← carries.1]
    rfl

/-- The frames are read as one message each, in order, with its data and its id, exactly when no
payload has a lone carriage return. -/
theorem round_trips_iff (payloads : List (CodeUnits × Bool)) :
    RoundTrips payloads ↔ ∀ p ∈ payloads, ¬LoneReturn p.1 := by
  unfold RoundTrips messages
  rw [withoutMark_stream]
  constructor
  · rintro ⟨carried, -⟩ p inside lone
    have less := (amount_stream payloads []).2 ⟨p, inside, lone⟩
    have same := amount_of_carries carried
    exact absurd same (Nat.ne_of_lt less)
  · intro free
    refine ⟨read_stream free [], fun p _ id own => ?_⟩
    exact if_pos (safe_of_sseEventId own)

/-- A carriage return alone between two lines: the reader takes the rest for a field of its own. -/
theorem lone_return_truncates : messages (sseDataFrame (ascii "a\rb") true) = [⟨[], ascii "a", []⟩] ∧
      normalized (ascii "a\rb") = ascii "a\nb" ∧ ¬RoundTrips [(ascii "a\rb", true)] := by
  have read : messages (stream [(ascii "a\rb", true)]) = [⟨[], ascii "a", []⟩] := by decide +kernel
  refine ⟨by decide +kernel, by decide, ?_⟩
  rintro ⟨carried, -⟩
  cases carried with
  | cons carries _ => exact absurd carries.1 (by decide)

end SseFrames
