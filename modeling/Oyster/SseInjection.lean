import Oyster.EventStream
import Oyster.SseScope

/-! The frames that the hub injects into the event stream of a workspace, and what a
client makes of them. A frame goes out between two chunks, wherever the stream stands:
it is an event of its own exactly if no event of the workspace is open at that moment. -/
namespace SseInjection
open Json SseScope LineTransform EventStream

section
variable {ν : Type} [Numbers ν]

/-- What happens to the transform: a chunk arrives, or the snapshot of the other runners. -/
inductive Moment (ν : Type) where
  | chunk (bytes : List UInt8)
  | others (runners : List (Value ν))

def chunks : List (Moment ν) → List (List UInt8)
  | [] => []
  | .chunk bytes :: moments => bytes :: chunks moments
  | .others _ :: moments => chunks moments

/-- What the transform has pushed, and for which reason. -/
inductive Piece where
  | forwarded (text : CodeUnits)
  | injected (text : CodeUnits)

def Piece.text : Piece → CodeUnits
  | .forwarded text | .injected text => text

def Piece.isInjected : Piece → Bool
  | .forwarded _ => false
  | .injected _ => true

/-- The transform from its state to the end of the stream. -/
def pieces (workspace : Workspace) (t : Transform ν) : List (Moment ν) → List Piece
  | [] => [.forwarded (t.flush workspace).2]
  | .chunk bytes :: moments =>
    let (t, out) := t.transform workspace bytes
    .forwarded out :: pieces workspace t moments
  | .others runners :: moments =>
    let (t, frame) := t.setOtherRunners runners
    frame.toList.map .injected ++ pieces workspace t moments

def readPieces (r : Reader) : List Piece → List (Bool × Event)
  | [] => []
  | p :: pieces => (read r p.text).2.map (p.isInjected, ·) ++ readPieces (read r p.text).1 pieces

def select (injected : Bool) (events : List (Bool × Event)) : List Event :=
  (events.filter (·.1 == injected)).map Prod.snd

def frames (ps : List Piece) : List Event :=
  (ps.filter Piece.isInjected).flatMap fun p => (read {} p.text).2

def rewriteData (workspace : Workspace) (runners : Runners ν) (value : CodeUnits) : CodeUnits :=
  (transformLine workspace runners (dataPrefix ++ value)).2.drop dataPrefix.length

def known : List (Moment ν) → List (List (Value ν))
  | [] => [[]]
  | .chunk _ :: moments => known moments
  | .others runners :: moments => runners :: known moments

omit [Numbers ν] in
theorem empty_mem_known (moments : List (Moment ν)) : [] ∈ known moments := by
  induction moments with
  | nil => exact List.mem_cons_self
  | cons moment moments ih =>
    cases moment with
    | chunk bytes => exact ih
    | others runners => exact List.mem_cons_of_mem _ ih

structure Scoped (workspace : Workspace) (lists : List (List (Value ν))) (e out : Event) : Prop where
  id : out.id = e.id
  name : out.name = e.name
  data : List.Forall₂ (fun value rewritten => ∃ runners : Runners ν, runners.other ∈ lists ∧
    rewritten = rewriteData workspace runners value) e.data out.data

structure Faithful (workspace : Workspace) (events : List SourceEvent) (moments : List (Moment ν)) : Prop where
  own : List.Forall₂ (Scoped workspace (known moments)) (events.map SourceEvent.event)
    (select false (readPieces {} (pieces workspace ({} : Transform ν) moments)))
  injected : select true (readPieces {} (pieces workspace ({} : Transform ν) moments)) =
    frames (pieces workspace ({} : Transform ν) moments)

/-- Whenever a frame goes out, a client that has read the workspace's own stream up to
there has no event open. -/
def Between (workspace : Workspace) (t : Transform ν) (source : Reader) : List (Moment ν) → Prop
  | [] => True
  | .chunk bytes :: moments =>
    Between workspace (t.transform workspace bytes).1 (read source (chunkText bytes)).1 moments
  | .others runners :: moments =>
    ((t.setOtherRunners runners).2.isSome = true → source.block = {}) ∧
      Between workspace (t.setOtherRunners runners).1 source moments

def SourceLine (line : CodeUnits) : Prop :=
  line = [] ∨ ∃ name ∈ ["id", "event", "data"], ∃ value, line = fieldLine name value

/-- What is open of an event after a line and after its rewriting. -/
structure Related (workspace : Workspace) (lists : List (List (Value ν))) (b c : Block) : Prop where
  id : c.id = b.id
  name : c.name = b.name
  data : List.Forall₂ (fun value rewritten => ∃ runners : Runners ν, runners.other ∈ lists ∧
    rewritten = rewriteData workspace runners value) b.data c.data

theorem related_empty (workspace : Workspace) (lists : List (List (Value ν))) :
    Related workspace lists {} {} := ⟨rfl, rfl, .nil⟩

variable {workspace : Workspace} {lists : List (List (Value ν))} {b c : Block}

theorem Related.empty_iff (h : Related workspace lists b c) : b = {} ↔ c = {} := by
  obtain ⟨id, name, data⟩ := h
  obtain ⟨bid, bname, bdata⟩ := b
  obtain ⟨cid, cname, cdata⟩ := c
  dsimp only at id name data
  subst id name
  constructor
  · rintro ⟨⟩
    cases data
    rfl
  · rintro ⟨⟩
    cases data
    rfl

theorem transformLine_cases (workspace : Workspace) (s : Runners ν) (line : CodeUnits) :
    (transformLine workspace s line).2 = line ∨ dataPrefix.isPrefixOf line = true ∧
      ∃ v : Value ν, (transformLine workspace s line).2 = dataPrefix ++ print v := by
  unfold transformLine
  split_ifs with isData
  · split
    · exact .inl rfl
    · exact .inl rfl
    · split
      · exact .inl rfl
      · simp only
        split
        · exact .inl rfl
        · exact .inr ⟨isData, _, rfl⟩
  · exact .inl rfl

theorem transformLine_other (workspace : Workspace) (s : Runners ν) (line : CodeUnits) :
    (transformLine workspace s line).1.other = s.other := by
  unfold transformLine
  split_ifs
  · split
    · rfl
    · rfl
    · split
      · rfl
      · simp only
        split <;> rfl
  · rfl

theorem transformLine_lineFeed (workspace : Workspace) (s : Runners ν) {line : CodeUnits}
    (h : lineFeed ∉ line) : lineFeed ∉ (transformLine workspace s line).2 := by
  rcases transformLine_cases workspace s line with same | ⟨_, v, same⟩
  · rw [same]
    exact h
  · rw [same, List.mem_append, not_or]
    refine ⟨by decide, fun mem => ?_⟩
    exact absurd ((plain_print v).printable lineFeed mem) (by decide)

theorem field_data (b : Block) (value : CodeUnits) :
    field b (dataPrefix ++ value) = { b with data := b.data ++ [value] } := rfl

theorem transformLine_data (workspace : Workspace) (s : Runners ν) (value : CodeUnits) :
    (transformLine workspace s (dataPrefix ++ value)).2 = dataPrefix ++ rewriteData workspace s value := by
  rcases transformLine_cases workspace s (dataPrefix ++ value) with same | ⟨_, v, same⟩
  · rw [rewriteData, same, List.drop_left]
  · rw [rewriteData, same, List.drop_left]

variable {s : Runners ν}

theorem field_transformLine (h : Related workspace lists b c) (others : s.other ∈ lists) {name : String}
    (mem : name ∈ ["id", "event", "data"]) (value : Line) :
    (transformLine workspace s (fieldLine name value)).2 ≠ [] ∧
      Related workspace lists (field b (fieldLine name value))
        (field c (transformLine workspace s (fieldLine name value)).2) := by
  have kept : dataPrefix.isPrefixOf (fieldLine name value) = false →
      (transformLine workspace s (fieldLine name value)).2 = fieldLine name value := by
    intro other
    unfold transformLine
    rw [if_neg (by rw [other]; exact Bool.false_ne_true)]
  simp only [List.mem_cons, List.not_mem_nil, or_false] at mem
  rcases mem with rfl | rfl | rfl
  · rw [kept rfl, field_line (by decide), field_line (by decide)]
    exact ⟨fieldLine_ne_nil _ _, rfl, h.name, h.data⟩
  · rw [kept rfl, field_line (by decide), field_line (by decide)]
    exact ⟨fieldLine_ne_nil _ _, h.id, rfl, h.data⟩
  · have data : fieldLine "data" value = dataPrefix ++ value.text := rfl
    rw [data, transformLine_data, field_data, field_data]
    refine ⟨(fun absurd => nomatch absurd), h.id, h.name, ?_⟩
    exact List.rel_append h.data (.cons ⟨s, others, rfl⟩ .nil)

theorem readLines_rewriteLines (lines : List CodeUnits) (source : ∀ line ∈ lines, SourceLine line)
    (h : Related workspace lists b c) (others : s.other ∈ lists) :
    ∃ outs : List CodeUnits, (rewriteLines (transformLine workspace) s lines).2 = joinLines outs ∧
      (∀ line ∈ outs, lineFeed ∉ line) ∧
      (rewriteLines (transformLine workspace) s lines).1.other = s.other ∧
      Related workspace lists (readLines b lines).1 (readLines c outs).1 ∧
      List.Forall₂ (Scoped workspace lists) (readLines b lines).2 (readLines c outs).2 := by
  induction lines generalizing b c s with
  | nil => exact ⟨[], rfl, (fun _ absurd => nomatch absurd), rfl, h, .nil⟩
  | cons line lines ih =>
    have other := transformLine_other workspace s line
    have plain := transformLine_lineFeed workspace s (lines_wellFormed (source line List.mem_cons_self)).1
    have rest : ∀ line ∈ lines, SourceLine line := fun line mem => source line (List.mem_cons_of_mem _ mem)
    have first : Related workspace lists (readLine b line).1 (readLine c (transformLine workspace s line).2).1 ∧
      List.Forall₂ (Scoped workspace lists) (readLine b line).2
        (readLine c (transformLine workspace s line).2).2 := by
      rcases source line List.mem_cons_self with rfl | ⟨name, mem, value, rfl⟩
      · have same : (transformLine workspace s []).2 = [] := rfl
        rw [same, readLine, readLine, if_pos rfl, if_pos rfl]
        refine ⟨related_empty workspace lists, ?_⟩
        by_cases none : b.data = []
        · have none' : c.data = [] := by
            have data := h.data
            rw [none] at data
            exact List.forall₂_nil_left_iff.mp data
          rw [if_pos none, if_pos none']
          exact .nil
        · have some' : c.data ≠ [] := by
            intro none'
            have data := h.data
            rw [none'] at data
            exact none (List.forall₂_nil_right_iff.mp data)
          rw [if_neg none, if_neg some']
          exact .cons ⟨h.id, h.name, h.data⟩ .nil
      · obtain ⟨nonblank, related⟩ := field_transformLine h others mem value
        rw [readLine, readLine, if_neg (fieldLine_ne_nil _ _), if_neg nonblank]
        exact ⟨related, .nil⟩
    obtain ⟨outs, text, feeds, others', related, events⟩ := ih rest first.1 (s := (transformLine workspace s line).1)
      (by rw [other]; exact others)
    refine ⟨(transformLine workspace s line).2 :: outs, ?_, ?_, others'.trans other, related,
      List.rel_append first.2 events⟩
    · rw [rewriteLines]
      simp only [text, joinLines, List.flatMap_cons, List.append_assoc, List.singleton_append]
    · exact List.forall_mem_cons.mpr ⟨plain, feeds⟩

theorem read_joinLines (b : Block) {lines : List CodeUnits} (h : ∀ line ∈ lines, lineFeed ∉ line) :
    read ⟨b, []⟩ (joinLines lines) = (⟨(readLines b lines).1, []⟩, (readLines b lines).2) := by
  have split := splitLines_joinLines h []
  rw [List.append_nil] at split
  simp only [EventStream.read, List.nil_append, split, splitLines, List.append_nil]

def frame (runners : Runners ν) : CodeUnits :=
  dataPrefix ++ print (runnersUpdate runners) ++ [lineFeed, lineFeed]

theorem read_frame (c : Block) (runners : Runners ν) : read ⟨c, []⟩ (frame runners) =
      (⟨{}, []⟩, [⟨c.id, c.name, c.data ++ [print (runnersUpdate runners)]⟩]) := by
  have lines : frame runners = joinLines [dataPrefix ++ print (runnersUpdate runners), []] := by
    simp only [frame, joinLines, List.flatMap_cons, List.flatMap_nil, List.append_nil, List.nil_append,
      List.append_assoc, List.singleton_append]
  have plain : ∀ line ∈ [dataPrefix ++ print (runnersUpdate runners), []], lineFeed ∉ line := by
    refine List.forall_mem_cons.mpr ⟨?_, List.forall_mem_cons.mpr ⟨List.not_mem_nil, fun _ absurd => by cases absurd⟩⟩
    rw [List.mem_append, not_or]
    exact ⟨by decide, fun mem => absurd ((plain_print _).printable lineFeed mem) (by decide)⟩
  rw [lines, read_joinLines c plain]
  have nonblank : dataPrefix ++ print (runnersUpdate runners) ≠ [] := fun absurd => by cases absurd
  simp only [readLines, readLine, if_neg nonblank, field_data, if_true, List.nil_append, List.append_nil]
  rw [if_neg (by simp)]

theorem setOtherRunners_spec (t : Transform ν) (runners : List (Value ν)) :
    (t.setOtherRunners runners).1.lines.pending = t.lines.pending ∧
      (t.setOtherRunners runners).1.lines.inner.other = runners ∧
      (t.setOtherRunners runners).1.finished = t.finished ∧
      ((t.setOtherRunners runners).2 = none ∨
        (t.setOtherRunners runners).2 = some (frame (t.setOtherRunners runners).1.lines.inner)) := by
  unfold Transform.setOtherRunners
  simp only
  split_ifs
  · exact ⟨rfl, rfl, rfl, .inl rfl⟩
  · exact ⟨rfl, rfl, rfl, .inr rfl⟩

/-- What has been forwarded stands to the workspace's own stream, as clients read them. -/
structure Follows (workspace : Workspace) (lists : List (List (Value ν))) (t : Transform ν)
    (source : Reader) (c : Block) : Prop where
  pending : t.lines.pending = source.pending
  related : Related workspace lists source.block c
  others : t.lines.inner.other ∈ lists

theorem select_append (injected : Bool) (l m : List (Bool × Event)) :
    select injected (l ++ m) = select injected l ++ select injected m := by
  simp only [select, List.filter_append, List.map_append]

theorem select_map (injected : Bool) (events : List Event) :
    select injected (events.map (injected, ·)) = events := by
  simp [select, List.filter_map, Function.comp_def]

theorem select_map_not (injected : Bool) (events : List Event) :
    select injected (events.map ((!injected), ·)) = [] := by
  simp [select, List.filter_map, Function.comp_def]

variable {t : Transform ν} {source : Reader} {bytes : List UInt8}

theorem Follows.chunk (h : Follows workspace lists t source c)
    (lines : ∀ line ∈ (splitLines (source.pending ++ chunkText bytes)).1, SourceLine line) :
    ∃ d events, read ⟨c, []⟩ (t.transform workspace bytes).2 = (⟨d, []⟩, events) ∧
      Follows workspace lists (t.transform workspace bytes).1 (read source (chunkText bytes)).1 d ∧
      List.Forall₂ (Scoped workspace lists) (read source (chunkText bytes)).2 events := by
  obtain ⟨outs, text, feeds, other, related, events⟩ := readLines_rewriteLines _ lines h.related h.others
  refine ⟨(readLines c outs).1, (readLines c outs).2, ?_, ⟨?_, related, ?_⟩, events⟩
  · simp only [Transform.transform, write, h.pending, text]
    exact read_joinLines c feeds
  · simp only [Transform.transform, write, h.pending, EventStream.read]
  · simp only [Transform.transform, write, h.pending, other]
    exact h.others

theorem Follows.others_arrive (h : Follows workspace lists t source c) {runners : List (Value ν)}
    (mem : runners ∈ lists) : Follows workspace lists (t.setOtherRunners runners).1 source c := by
  obtain ⟨pending, other, _⟩ := setOtherRunners_spec t runners
  refine ⟨pending.trans h.pending, h.related, ?_⟩
  rw [other]
  exact mem

/-- The workspace's own events from here to the end, and the lines they come in. -/
def sourceEvents (source : Reader) (moments : List (Moment ν)) : List Event :=
  (read source ((chunks moments).map chunkText).flatten).2

structure SourceFrom (source : Reader) (moments : List (Moment ν)) : Prop where
  pending : lineFeed ∉ source.pending
  lines : ∀ line ∈ (splitLines (source.pending ++ ((chunks moments).map chunkText).flatten)).1, SourceLine line
  ended : (read source ((chunks moments).map chunkText).flatten).1.pending = []

omit [Numbers ν] in
theorem SourceFrom.chunk {moments : List (Moment ν)} (h : SourceFrom source (.chunk bytes :: moments)) :
    (∀ line ∈ (splitLines (source.pending ++ chunkText bytes)).1, SourceLine line) ∧
      SourceFrom (read source (chunkText bytes)).1 moments := by
  obtain ⟨_, lines, ended⟩ := h
  rw [chunks, List.map_cons, List.flatten_cons] at lines ended
  rw [← List.append_assoc, splitLines_append] at lines
  rw [read_append] at ended
  exact ⟨fun line mem => lines line (List.mem_append_left _ mem), splitLines_rest _,
    fun line mem => lines line (List.mem_append_right _ mem), ended⟩

/-- From any moment on: the injected frames are read as they were written exactly if each
goes out between two events, and then the workspace's events are read as well. -/
theorem readPieces_spec (moments : List (Moment ν)) (h : Follows workspace lists t source c)
    (known : ∀ runners ∈ known moments, runners ∈ lists) (stream : SourceFrom source moments) :
    (select true (readPieces ⟨c, []⟩ (pieces workspace t moments)) = frames (pieces workspace t moments) ↔
        Between workspace t source moments) ∧
      (Between workspace t source moments → List.Forall₂ (Scoped workspace lists) (sourceEvents source moments)
          (select false (readPieces ⟨c, []⟩ (pieces workspace t moments)))) := by
  induction moments generalizing t source c with
  | nil =>
    have pending : source.pending = [] := by
      have ended := stream.ended
      simpa only [chunks, List.map_nil, List.flatten_nil, EventStream.read, List.append_nil,
        splitLines_of_not_mem stream.pending] using ended
    have quiet : (t.flush workspace).2 = [] := by
      simp only [Transform.flush, LineTransform.flush, h.pending, pending, if_true]
    have silent : read ⟨c, []⟩ [] = (⟨c, []⟩, []) := rfl
    have own : sourceEvents source ([] : List (Moment ν)) = [] := by
      simp only [sourceEvents, chunks, List.map_nil, List.flatten_nil, EventStream.read, pending,
        List.append_nil, splitLines, readLines]
    simp only [pieces, readPieces, quiet, Piece.text, silent, List.map_nil, List.append_nil, own]
    exact ⟨⟨fun _ => trivial, fun _ => rfl⟩, fun _ => .nil⟩
  | cons moment moments ih =>
    cases moment with
    | chunk bytes =>
      obtain ⟨here, later⟩ := stream.chunk
      obtain ⟨d, events, read', follows, related⟩ := h.chunk here
      obtain ⟨injected, own⟩ := ih follows known later
      have rest : readPieces ⟨c, []⟩ (pieces workspace t (.chunk bytes :: moments)) =
          events.map (false, ·) ++ readPieces ⟨d, []⟩ (pieces workspace (t.transform workspace bytes).1 moments) := by
        simp only [pieces, readPieces, Piece.text, read', Piece.isInjected]
      have source' : sourceEvents source (.chunk bytes :: moments) =
          (read source (chunkText bytes)).2 ++ sourceEvents (read source (chunkText bytes)).1 moments := by
        simp only [sourceEvents, chunks, List.map_cons, List.flatten_cons, read_append]
      have same : frames (pieces workspace t (.chunk bytes :: moments)) =
          frames (pieces workspace (t.transform workspace bytes).1 moments) := rfl
      rw [rest, select_append, select_append, source', same, select_map false events]
      rw [show select true (events.map (false, ·)) = [] from select_map_not true events, List.nil_append]
      exact ⟨injected, fun between => List.rel_append related (own between)⟩
    | others runners =>
      have arrived := h.others_arrive (known runners List.mem_cons_self)
      have known' : ∀ runners ∈ SseInjection.known moments, runners ∈ lists := fun other mem =>
        known other (List.mem_cons_of_mem _ mem)
      have stream' : SourceFrom source moments := ⟨stream.pending, stream.lines, stream.ended⟩
      rcases (setOtherRunners_spec t runners).2.2.2 with none | some
      · have same : pieces workspace t (.others runners :: moments) =
            pieces workspace (t.setOtherRunners runners).1 moments := by
          simp only [pieces, none, Option.toList_none, List.map_nil, List.nil_append]
        have between : Between workspace t source (.others runners :: moments) ↔
            Between workspace (t.setOtherRunners runners).1 source moments := by
          simp only [Between, none, Option.isSome_none, Bool.false_eq_true, false_implies, true_and]
        rw [same, between]
        exact ih arrived known' stream'
      · have pieces' : pieces workspace t (.others runners :: moments) =
            .injected (frame (t.setOtherRunners runners).1.lines.inner) ::
              pieces workspace (t.setOtherRunners runners).1 moments := by
          simp only [pieces, some, Option.toList_some, List.map_singleton, List.singleton_append]
        have between : Between workspace t source (.others runners :: moments) ↔
            source.block = {} ∧ Between workspace (t.setOtherRunners runners).1 source moments := by
          simp only [Between, some, Option.isSome_some, true_implies]
        have frames' : frames (pieces workspace t (.others runners :: moments)) =
            ⟨none, [], [print (runnersUpdate (t.setOtherRunners runners).1.lines.inner)]⟩ ::
              frames (pieces workspace (t.setOtherRunners runners).1 moments) := by
          rw [pieces', frames, List.filter_cons_of_pos (by exact rfl), List.flatMap_cons, Piece.text,
            show ({} : Reader) = ⟨{}, []⟩ from rfl, read_frame]
          rfl
        have readPieces' : readPieces ⟨c, []⟩ (pieces workspace t (.others runners :: moments)) =
            (true, ⟨c.id, c.name, c.data ++ [print (runnersUpdate (t.setOtherRunners runners).1.lines.inner)]⟩) ::
              readPieces ⟨{}, []⟩ (pieces workspace (t.setOtherRunners runners).1 moments) := by
          rw [pieces', readPieces, Piece.text, read_frame]
          rfl
        have injected : ∀ (e : Event) l, select true ((true, e) :: l) = e :: select true l := fun _ _ => rfl
        have own : ∀ (e : Event) l, select false ((true, e) :: l) = select false l := fun _ _ => rfl
        rw [between, frames', readPieces', injected, own, h.related.empty_iff]
        by_cases closed : c = {}
        · subst closed
          obtain ⟨same, later⟩ := ih arrived known' stream'
          refine ⟨⟨fun eq => ⟨rfl, same.mp (List.cons.inj eq).2⟩, fun both => ?_⟩, fun both => later both.2⟩
          rw [same.mpr both.2]
          rfl
        · -- the frame takes over what stands open of the event around it
          refine ⟨⟨fun eq => absurd ?_ closed, fun both => absurd both.1 closed⟩, fun both => absurd both.1 closed⟩
          obtain ⟨id, name, data⟩ := Event.mk.inj (List.cons.inj eq).1
          obtain ⟨cid, cname, cdata⟩ := c
          have data : cdata = [] := by
            have lengths := congrArg List.length data
            rw [List.length_append] at lengths
            exact List.eq_nil_of_length_eq_zero (by simpa using lengths)
          dsimp only at id name
          rw [id, name, data]

end

def bytes (events : List SourceEvent) : List UInt8 :=
  Utf8.encode (Utf16.decode (EventStream.encode events))

/-- The client reads what was sent exactly if every frame goes out between two events. -/
theorem faithful_iff_between (ν : Type) [Numbers ν] (workspace : Workspace) (events : List SourceEvent)
    (moments : List (Moment ν)) (stream : (chunks moments).flatten = bytes events)
    (aligned : Utf8.Aligned (chunks moments)) :
    Faithful workspace events moments ↔ Between workspace ({} : Transform ν) {} moments := by
  have text : ((chunks moments).map chunkText).flatten = EventStream.encode events := by
    rw [chunkTexts stream aligned, Utf16.encode_decode (encode_wellFormed events)]
  have source : ∀ line ∈ events.flatMap SourceEvent.lines, SourceLine line := by
    intro line mem
    obtain ⟨e, _, mem⟩ := List.mem_flatMap.mp mem
    exact mem_lines mem
  have feeds : ∀ line ∈ events.flatMap SourceEvent.lines, lineFeed ∉ line := fun line mem =>
    (lines_wellFormed (source line mem)).1
  have split := splitLines_joinLines feeds []
  rw [List.append_nil] at split
  have read' : read {} (EventStream.encode events) = ({}, events.map SourceEvent.event) := by
    rw [EventStream.encode, show ({} : Reader) = ⟨{}, []⟩ from rfl, read_joinLines {} feeds, readLines_events]
  have from' : SourceFrom {} moments := by
    refine ⟨List.not_mem_nil, ?_, ?_⟩
    · rw [text, List.nil_append, EventStream.encode, split]
      simpa only [splitLines, List.append_nil] using source
    · rw [text, read']
  have first : [] ∈ known moments := empty_mem_known moments
  have follows : Follows workspace (known moments) ({} : Transform ν) {} {} :=
    ⟨rfl, related_empty workspace _, first⟩
  obtain ⟨injected, own⟩ := readPieces_spec moments follows (fun _ mem => mem) from'
  rw [sourceEvents, text, read'] at own
  exact ⟨fun faithful => injected.mp faithful.injected, fun between => ⟨own between, injected.mpr between⟩⟩

def runnersText : String := "\x7b\"type\":\"runners_update\",\"runners\":[\x7b\"id\":\"r\"\x7d]\x7d"

def sampleEvents : List SourceEvent :=
  [⟨none, none, [⟨ascii runnersText, ⟨runnersText.toList, by decide⟩, by decide⟩], List.cons_ne_nil _ _⟩,
    ⟨some ⟨ascii "5", ⟨['5'], by decide⟩, by decide⟩, none,
      [⟨ascii "1", ⟨['1'], by decide⟩, by decide⟩], List.cons_ne_nil _ _⟩]

/-- The stream of these events is cut once, and there the snapshot of the other runners arrives. -/
def sampleMoments (cut : Nat) : List (Moment Literal) :=
  [.chunk ((bytes sampleEvents).take cut), .others [], .chunk ((bytes sampleEvents).drop cut)]

/-- The cut between the two events. -/
theorem faithful_iff_between_cut :
    Faithful sample sampleEvents (sampleMoments 56) ∧ Between sample ({} : Transform Literal) {} (sampleMoments 56) := by
  have between : Between sample ({} : Transform Literal) {} (sampleMoments 56) := by
    refine ⟨fun _ => ?_, trivial⟩
    decide +kernel
  have aligned : Utf8.Aligned (chunks (sampleMoments 56)) := Utf8.aligned_of_all (by decide +kernel)
  exact ⟨(faithful_iff_between Literal sample sampleEvents _ (by decide +kernel) aligned).mpr between, between⟩

/-- The cut after the id line of the second event: the injected frame takes over its id. -/
theorem injected_frame_takes_id : (chunks (sampleMoments 62)).flatten = bytes sampleEvents ∧
      (select true (readPieces {} (pieces sample {} (sampleMoments 62)))).map Event.id = [some (ascii "5")] ∧
      (select false (readPieces {} (pieces sample {} (sampleMoments 62)))).map Event.id = [none, none] ∧
      ¬ Faithful sample sampleEvents (sampleMoments 62) := by
  have ids : (select true (readPieces {} (pieces sample {} (sampleMoments 62)))).map Event.id =
      [some (ascii "5")] := by decide +kernel
  refine ⟨by decide +kernel, ids, by decide +kernel, fun faithful => ?_⟩
  rw [faithful.injected] at ids
  exact absurd ids (by decide +kernel)

end SseInjection
