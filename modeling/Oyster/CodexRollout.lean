import Oyster.Delivery
import Oyster.Json
import Oyster.LineTransform
import Oyster.SearchExpression
import Oyster.StringDecoder

/-! The reader of a Codex rollout, which is called again and again on a file that grows and may be
truncated. It reads what was appended since its last call, and starts over on a file that has become
shorter. `ν` is the type of the numbers in the records. -/
namespace CodexRollout
open LineTransform (splitLines lineFeed)
open SearchQuery (trim)
open Json (Value Members)

/-- The decoder of a stream. What it holds back is given, at the end, as replacement characters. -/
structure LineDecoder extends StringDecoder where
  quiet : ∀ s, '\n' ∉ finish s

def LineDecoder.utf8 : LineDecoder where
  toStringDecoder := StringDecoder.utf8
  quiet s := by
    cases s with
    | none => exact List.not_mem_nil
    | some c => exact fun mem => absurd (List.mem_singleton.mp mem) (by decide)

structure Metadata where
  provider : CodeUnits
  model : CodeUnits

def openai : CodeUnits := Utf16.encode ['o', 'p', 'e', 'n', 'a', 'i']

section
variable {ν : Type}

def isType (members : Members ν) (type : List Char) : Bool :=
  match Json.lookup members (Utf16.encode ['t', 'y', 'p', 'e']) with
  | some (.str s) => s = Utf16.encode type
  | _ => false

def payloadText (members : Members ν) (field : List Char) : CodeUnits :=
  match Json.lookup members (Utf16.encode ['p', 'a', 'y', 'l', 'o', 'a', 'd']) with
  | some (.obj payload) =>
    match Json.lookup payload (Utf16.encode field) with
    | some (.str s) => trim s
    | _ => []
  | _ => []

def codexSessionMetadataFromRecord : Value ν → Metadata
  | .obj members =>
    { provider :=
        if isType members ['s', 'e', 's', 's', 'i', 'o', 'n', '_', 'm', 'e', 't', 'a'] then
          payloadText members ['m', 'o', 'd', 'e', 'l', '_', 'p', 'r', 'o', 'v', 'i', 'd', 'e', 'r']
        else []
      model :=
        if isType members ['t', 'u', 'r', 'n', '_', 'c', 'o', 'n', 't', 'e', 'x', 't'] then
          payloadText members ['m', 'o', 'd', 'e', 'l']
        else [] }
  | _ => ⟨[], []⟩

end

section
variable (ν : Type) [Json.Numbers ν]

/-- A line that is no JSON text is none, and neither is `null`. -/
def parseCodexRolloutLine (line : CodeUnits) : Option Metadata :=
  match (Json.parse line : Option (Value ν)) with
  | none => none
  | some .null => none
  | some record => some (codexSessionMetadataFromRecord record)

structure Kept where
  model : Option CodeUnits
  provider : CodeUnits

def Kept.line (kept : Kept) (line : CodeUnits) : Kept :=
  match parseCodexRolloutLine ν line with
  | none => kept
  | some metadata =>
    { model := if metadata.model ≠ [] then some metadata.model else kept.model
      provider := if metadata.provider ≠ [] then metadata.provider else kept.provider }

variable (d : LineDecoder)

structure Reader where
  offset : Nat := 0
  pending : CodeUnits := []
  kept : Kept := ⟨none, openai⟩
  decoder : d.State := d.start

variable {d}

def Reader.chunk (r : Reader d) (chunk : List UInt8) : Reader d :=
  let lines := splitLines (r.pending ++ Utf16.encode (d.write r.decoder chunk).1)
  { offset := r.offset + chunk.length
    pending := lines.2
    kept := lines.1.foldl (Kept.line ν) r.kept
    decoder := (d.write r.decoder chunk).2 }

def Reader.reset (r : Reader d) (size : Nat) : Reader d :=
  if size < r.offset then
    { r with offset := 0, pending := [], kept := { r.kept with model := none }, decoder := d.start }
  else r

def readKibibytes : Nat := 64

def Reader.call (r : Reader d) (content : List UInt8) : Reader d :=
  let r := r.reset content.length
  (Delivery.parts (readKibibytes * 1024) (content.drop r.offset)).foldl (Reader.chunk ν) r

def Reader.result (r : Reader d) : Option (CodeUnits × CodeUnits) := r.kept.model.map fun id => (r.kept.provider, id)

variable (d)

def fresh (content : List UInt8) : Option (CodeUnits × CodeUnits) := (Reader.call ν ({} : Reader d) content).result

inductive Event where
  | append (bytes : List UInt8)
  | truncate (length : Nat)
  | call

/-- The file, whether it was truncated since the last call, and the reader. -/
structure State where
  content : List UInt8 := []
  truncated : Bool := false
  reader : Reader d := {}

variable {d}

def State.step (s : State d) : Event → State d
  | .append bytes => { s with content := s.content ++ bytes }
  | .truncate length =>
    { s with content := s.content.take length, truncated := s.truncated || length < s.content.length }
  | .call => { s with truncated := false, reader := s.reader.call ν s.content }

def State.Observes (s : State d) : Event → Prop
  | .call => s.truncated = true → s.content.length < s.reader.offset
  | _ => True

def Observed (s : State d) : List Event → Prop
  | [] => True
  | event :: events => s.Observes event ∧ Observed (s.step ν event) events

def run (s : State d) (events : List Event) : State d := events.foldl (State.step ν) s

def linesOf (content : List UInt8) : List CodeUnits := (splitLines (Utf16.encode (Utf8.decode content))).1

def lastNamed (field : Metadata → CodeUnits) (lines : List CodeUnits) : Option CodeUnits :=
  (((lines.filterMap (parseCodexRolloutLine ν)).map field).filter (· ≠ [])).getLast?

def lastModel (content : List UInt8) : Option CodeUnits := lastNamed ν Metadata.model (linesOf content)

def lastProvider (content : List UInt8) : Option CodeUnits := lastNamed ν Metadata.provider (linesOf content)

theorem lastNamed_append (field : Metadata → CodeUnits) (a b : List CodeUnits) :
    lastNamed ν field (a ++ b) = (lastNamed ν field b).or (lastNamed ν field a) := by
  unfold lastNamed
  rw [List.filterMap_append, List.map_append, List.filter_append, List.getLast?_append]

theorem foldl_line (kept : Kept) (lines : List CodeUnits) : lines.foldl (Kept.line ν) kept =
      ⟨(lastNamed ν Metadata.model lines).or kept.model, (lastNamed ν Metadata.provider lines).getD kept.provider⟩ := by
  induction lines using List.reverseRecOn with
  | nil => rfl
  | append_singleton lines line ih =>
    rw [List.foldl_append, ih, lastNamed_append, lastNamed_append]
    unfold Kept.line lastNamed
    cases parsed : parseCodexRolloutLine ν line with
    | none => simp [parsed]
    | some metadata =>
      by_cases model : metadata.model = [] <;> by_cases provider : metadata.provider = [] <;>
        simp [parsed, model, provider]

end

theorem eq_lineFeed {c : Char} (mem : lineFeed ∈ Utf16.units c) : c = '\n' := by
  have valid := c.toNat_cases
  have ten : c.toNat = 10 := by
    unfold Utf16.units at mem
    split_ifs at mem with small
    · have same := congrArg UInt16.toNat (List.mem_singleton.mp mem)
      rw [UInt16.toNat_ofNat', Nat.mod_eq_of_lt (by omega)] at same
      exact same.symm
    · rcases List.mem_cons.mp mem with high | low
      · have same := congrArg UInt16.toNat high
        rw [UInt16.toNat_ofNat', Nat.mod_eq_of_lt (by omega)] at same
        have : lineFeed.toNat = 10 := rfl
        omega
      · have same := congrArg UInt16.toNat (List.mem_singleton.mp low)
        rw [UInt16.toNat_ofNat', Nat.mod_eq_of_lt (by omega)] at same
        have : lineFeed.toNat = 10 := rfl
        omega
  rw [← Char.ofNat_toNat c, ten]

theorem lineFeed_notMem_encode {text : List Char} (free : '\n' ∉ text) : lineFeed ∉ Utf16.encode text := by
  intro mem
  obtain ⟨c, there, inside⟩ := List.mem_flatMap.mp mem
  exact free (eq_lineFeed inside ▸ there)

def fed (d : LineDecoder) : d.State → List (List UInt8) → List Char × d.State
  | s, [] => ([], s)
  | s, chunk :: chunks => ((d.write s chunk).1 ++ (fed d (d.write s chunk).2 chunks).1, (fed d (d.write s chunk).2 chunks).2)

variable {d : LineDecoder}

theorem fed_append (s : d.State) (a b : List (List UInt8)) :
    fed d s (a ++ b) = ((fed d s a).1 ++ (fed d (fed d s a).2 b).1, (fed d (fed d s a).2 b).2) := by
  induction a generalizing s with
  | nil => rfl
  | cons chunk a ih => simp only [List.cons_append, fed, ih, List.append_assoc]

theorem decoded_eq (s : d.State) (chunks : List (List UInt8)) :
    decoded d.write d.finish s chunks = (fed d s chunks).1 ++ d.finish (fed d s chunks).2 := by
  induction chunks generalizing s with
  | nil => rfl
  | cons chunk chunks ih => simp only [decoded, fed, ih, List.append_assoc]

theorem linesOf_fed (d : LineDecoder) (chunks : List (List UInt8)) :
    linesOf chunks.flatten = (splitLines (Utf16.encode (fed d d.start chunks).1)).1 := by
  have rest : lineFeed ∉ (splitLines (Utf16.encode (fed d d.start chunks).1)).2 ++
      Utf16.encode (d.finish (fed d d.start chunks).2) := fun mem =>
    (List.mem_append.mp mem).elim (LineTransform.splitLines_rest _) (lineFeed_notMem_encode (d.quiet _))
  rw [linesOf, ← d.whole chunks, decoded_eq, Utf16.encode_append, LineTransform.splitLines_append,
    LineTransform.splitLines_of_not_mem rest, List.append_nil]

section
variable {ν : Type} [Json.Numbers ν]

structure Reader.Behind (r : Reader d) (chunks : List (List UInt8)) : Prop where
  offset : r.offset = chunks.flatten.length
  decoder : r.decoder = (fed d d.start chunks).2
  pending : r.pending = (splitLines (Utf16.encode (fed d d.start chunks).1)).2

variable {r : Reader d} {chunks : List (List UInt8)}

theorem Reader.Behind.chunk (behind : r.Behind chunks) (c : List UInt8) :
    (r.chunk ν c).Behind (chunks ++ [c]) ∧ ∃ lines, linesOf (chunks ++ [c]).flatten = linesOf chunks.flatten ++ lines ∧
      (r.chunk ν c).kept = lines.foldl (Kept.line ν) r.kept := by
  have text : Utf16.encode (fed d d.start (chunks ++ [c])).1 =
      Utf16.encode (fed d d.start chunks).1 ++ Utf16.encode (d.write r.decoder c).1 := by
    rw [fed_append, Utf16.encode_append, behind.decoder, fed, fed, List.append_nil]
  refine ⟨⟨?_, ?_, ?_⟩, (splitLines (r.pending ++ Utf16.encode (d.write r.decoder c).1)).1, ?_, rfl⟩
  · rw [List.flatten_append, List.length_append, ← behind.offset, List.flatten_singleton]
    rfl
  · rw [fed_append, ← behind.decoder]
    rfl
  · rw [text, LineTransform.splitLines_append, ← behind.pending]
    rfl
  · rw [linesOf_fed d, linesOf_fed d, text, LineTransform.splitLines_append, ← behind.pending]

theorem Reader.Behind.foldl (behind : r.Behind chunks) (more : List (List UInt8)) :
    (more.foldl (Reader.chunk ν) r).Behind (chunks ++ more) ∧
      ∃ lines, linesOf (chunks ++ more).flatten = linesOf chunks.flatten ++ lines ∧
        (more.foldl (Reader.chunk ν) r).kept = lines.foldl (Kept.line ν) r.kept := by
  induction more generalizing r chunks with
  | nil =>
    rw [List.append_nil]
    exact ⟨behind, [], (List.append_nil _).symm, rfl⟩
  | cons c more ih =>
    obtain ⟨next, first, same, kept⟩ := behind.chunk (ν := ν) c
    obtain ⟨last, rest, same', kept'⟩ := ih next
    rw [List.append_cons]
    refine ⟨last, first ++ rest, by rw [same', same, List.append_assoc], ?_⟩
    rw [List.foldl_cons, kept', kept, List.foldl_append]

structure Reader.Read (ν : Type) [Json.Numbers ν] (r : Reader d) (content : List UInt8) : Prop where
  behind : ∃ chunks, chunks.flatten = content ∧ r.Behind chunks
  model : r.kept.model = lastModel ν content
  provider : ∀ p ∈ lastProvider ν content, r.kept.provider = p

theorem Reader.Read.start {kept : Kept} (none : kept.model = none) :
    Reader.Read ν (⟨0, [], kept, d.start⟩ : Reader d) [] where
  behind := ⟨[], rfl, rfl, rfl, rfl⟩
  model := none
  provider p named := absurd (Option.mem_def.mp named) (Option.some_ne_none p).symm

variable {content : List UInt8}

theorem Reader.Read.offset (read : r.Read ν content) : r.offset = content.length := by
  obtain ⟨chunks, same, behind⟩ := read.behind
  rw [behind.offset, same]

theorem Reader.Read.more (read : r.Read ν content) (chunks : List (List UInt8)) :
    Reader.Read ν (chunks.foldl (Reader.chunk ν) r) (content ++ chunks.flatten) ∧
      (chunks.foldl (Reader.chunk ν) r).kept.provider =
        (lastProvider ν (content ++ chunks.flatten)).getD r.kept.provider := by
  obtain ⟨before, same, behind⟩ := read.behind
  obtain ⟨last, lines, whole, kept⟩ := behind.foldl (ν := ν) chunks
  rw [List.flatten_append, same] at whole
  have provider : (chunks.foldl (Reader.chunk ν) r).kept.provider =
      (lastProvider ν (content ++ chunks.flatten)).getD r.kept.provider := by
    rw [kept, foldl_line, lastProvider, whole, lastNamed_append]
    cases lastNamed ν Metadata.provider lines with
    | some p => rfl
    | none =>
      cases named : lastNamed ν Metadata.provider (linesOf content) with
      | none => rfl
      | some p => exact read.provider p named
  refine ⟨⟨⟨before ++ chunks, by rw [List.flatten_append, same], last⟩, ?_, fun p named => ?_⟩, provider⟩
  · rw [kept, foldl_line, lastModel, whole, lastNamed_append, read.model]
    rfl
  · rw [provider, Option.mem_def.mp named, Option.getD_some]

theorem Reader.Read.call {read : List UInt8} (reads : r.Read ν read)
    (observed : content.length < r.offset ∨ read <+: content) : Reader.Read ν (r.call ν content) content ∧
      (r.call ν content).kept.provider = (lastProvider ν content).getD r.kept.provider := by
  have parts : ∀ rest : List UInt8, (Delivery.parts (readKibibytes * 1024) rest).flatten = rest :=
    fun rest => Delivery.flatten_parts (by decide) rest
  unfold Reader.call Reader.reset
  by_cases shorter : content.length < r.offset
  · rw [if_pos shorter]
    have start : Reader.Read ν (⟨0, [], ⟨none, r.kept.provider⟩, d.start⟩ : Reader d) [] := .start rfl
    have done := start.more (Delivery.parts (readKibibytes * 1024) content)
    rw [parts, List.nil_append] at done
    exact done
  · obtain ⟨rest, rfl⟩ := observed.resolve_left shorter
    rw [if_neg shorter]
    have done := reads.more (Delivery.parts (readKibibytes * 1024) rest)
    rw [parts] at done
    dsimp only
    rw [reads.offset, List.drop_left]
    exact done

/-- The file goes on from what was read, unless it was truncated since. -/
structure Inv (ν : Type) [Json.Numbers ν] (s : State d) : Prop where
  reads : ∃ read, s.reader.Read ν read ∧ (s.truncated = false → read <+: s.content)

variable {s : State d}

theorem Inv.call (inv : Inv ν s) (observes : s.Observes .call) : Reader.Read ν (s.reader.call ν s.content) s.content ∧
      (s.reader.call ν s.content).kept.provider = (lastProvider ν s.content).getD s.reader.kept.provider := by
  obtain ⟨read, reads, goesOn⟩ := inv.reads
  refine reads.call ?_
  cases truncated : s.truncated with
  | true => exact .inl (observes truncated)
  | false => exact .inr (goesOn truncated)

theorem inv_step (inv : Inv ν s) {event : Event} (observes : s.Observes event) : Inv ν (s.step ν event) := by
  obtain ⟨read, reads, goesOn⟩ := inv.reads
  cases event with
  | append bytes => exact ⟨read, reads, fun intact => (goesOn intact).trans (List.prefix_append _ _)⟩
  | truncate length =>
    refine ⟨read, reads, fun intact => ?_⟩
    obtain ⟨before, within⟩ : s.truncated = false ∧ ¬ length < s.content.length := by
      simpa [State.step] using intact
    show read <+: s.content.take length
    rw [List.take_of_length_le (by omega)]
    exact goesOn before
  | call => exact ⟨s.content, (inv.call observes).1, fun _ => List.prefix_rfl⟩

theorem inv_run (inv : Inv ν s) {events : List Event} (observed : Observed ν s events) : Inv ν (run ν s events) := by
  induction events generalizing s with
  | nil => exact inv
  | cons event events ih => exact ih (inv_step inv observed.1) observed.2

theorem Inv.initial : Inv ν ({} : State d) := ⟨[], .start rfl, fun _ => List.prefix_rfl⟩

theorem fresh_eq (content : List UInt8) :
    fresh ν d content = (lastModel ν content).map fun id => ((lastProvider ν content).getD openai, id) := by
  have start : Reader.Read ν ({} : Reader d) [] := .start rfl
  obtain ⟨read, provider⟩ := start.call (.inr (@List.nil_prefix _ content))
  rw [fresh, Reader.result, read.model, provider]

theorem Observed.append {a b : List Event} (observed : Observed ν s (a ++ b)) :
    Observed ν s a ∧ Observed ν (run ν s a) b := by
  induction a generalizing s with
  | nil => exact ⟨trivial, observed⟩
  | cons event a ih =>
    obtain ⟨before, behind⟩ := ih observed.2
    exact ⟨⟨observed.1, before⟩, behind⟩

/-- At every call the reader gives what a fresh one gives, exactly when the content names no model, or
names a provider, or when the provider that was read before is the one that a fresh reader begins with. -/
theorem call_agrees (d : LineDecoder) (events : List Event) (observed : Observed ν ({} : State d) (events ++ [.call])) :
    ((run ν ({} : State d) (events ++ [.call])).reader.result = fresh ν d (run ν ({} : State d) (events ++ [.call])).content) ↔
      lastModel ν (run ν ({} : State d) events).content = none ∨
        lastProvider ν (run ν ({} : State d) events).content ≠ none ∨
        (run ν ({} : State d) events).reader.kept.provider = openai := by
  obtain ⟨before, last⟩ := observed.append
  have called : run ν ({} : State d) (events ++ [.call]) = (run ν ({} : State d) events).step ν .call := by
    unfold run
    rw [List.foldl_append]
    rfl
  obtain ⟨read, provider⟩ := (inv_run Inv.initial before).call last.1
  rw [called]
  generalize run ν ({} : State d) events = s at read provider
  have result : (s.step ν .call).reader.result =
      (lastModel ν s.content).map fun id => ((lastProvider ν s.content).getD s.reader.kept.provider, id) := by
    show Reader.result (s.reader.call ν s.content) = _
    rw [Reader.result, read.model, provider]
  have content : (s.step ν .call).content = s.content := rfl
  rw [result, content, fresh_eq]
  cases lastModel ν s.content with
  | none => simp
  | some id => cases lastProvider ν s.content <;> simp

end

/-- A `session_meta` record that names the provider `x`, with the end of its line. -/
def sessionMeta : List UInt8 := Utf8.encode
  ['{', '"', 't', 'y', 'p', 'e', '"', ':', '"', 's', 'e', 's', 's', 'i', 'o', 'n', '_', 'm', 'e', 't', 'a', '"', ',', '"',
    'p', 'a', 'y', 'l', 'o', 'a', 'd', '"', ':', '{', '"', 'm', 'o', 'd', 'e', 'l', '_', 'p', 'r', 'o', 'v', 'i', 'd', 'e',
    'r', '"', ':', '"', 'x', '"', '}', '}', '\n']

/-- A `turn_context` record that names the model `m`, with the end of its line. -/
def turnContext : List UInt8 := Utf8.encode
  ['{', '"', 't', 'y', 'p', 'e', '"', ':', '"', 't', 'u', 'r', 'n', '_', 'c', 'o', 'n', 't', 'e', 'x', 't', '"', ',', '"',
    'p', 'a', 'y', 'l', 'o', 'a', 'd', '"', ':', '{', '"', 'm', 'o', 'd', 'e', 'l', '"', ':', '"', 'm', '"', '}', '}', '\n']

/-- A rollout with a provider that is truncated and written again with one. -/
theorem call_agrees_again :
    (run Json.Literal ({} : State .utf8) [.append (sessionMeta ++ turnContext ++ [0x0a]), .call, .truncate 0,
        .append (sessionMeta ++ turnContext), .call]).reader.result =
      fresh Json.Literal .utf8 (sessionMeta ++ turnContext) :=
  (call_agrees .utf8 [.append (sessionMeta ++ turnContext ++ [0x0a]), .call, .truncate 0,
      .append (sessionMeta ++ turnContext)]
    ⟨trivial, fun truncated => absurd truncated (by decide), trivial, trivial, fun _ => by decide +kernel, trivial⟩).mpr
    (.inr (.inl (by decide +kernel)))

/-- A rollout with the provider `x` that is truncated and written again without one. -/
theorem call_keeps_provider : ∃ events, Observed Json.Literal ({} : State .utf8) (events ++ [.call]) ∧
      (run Json.Literal ({} : State .utf8) (events ++ [.call])).reader.result = some (Utf16.encode ['x'], Utf16.encode ['m']) ∧
      fresh Json.Literal .utf8 (run Json.Literal ({} : State .utf8) (events ++ [.call])).content =
        some (openai, Utf16.encode ['m']) ∧
      (run Json.Literal ({} : State .utf8) (events ++ [.call])).reader.result ≠
        fresh Json.Literal .utf8 (run Json.Literal ({} : State .utf8) (events ++ [.call])).content := by
  refine ⟨[.append (sessionMeta ++ turnContext), .call, .truncate 0, .append turnContext],
    ⟨trivial, fun truncated => absurd truncated (by decide), trivial, trivial, fun _ => ?_, trivial⟩, ?_, ?_, ?_⟩
  · decide +kernel
  · decide +kernel
  · decide +kernel
  · decide +kernel

end CodexRollout
