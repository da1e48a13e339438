import Oyster.Interleaving
import Oyster.SessionReference

/-! The automatic title of a runner's session. A request reads the messages, takes down the name that is shown and awaits a
title, which it applies if the session and its name are still the same. What users and the harness do meanwhile is free. -/
namespace SessionTitles
open Interleaving
open SessionReference (Backend Reference)

structure Catalog where
  backend : Option Backend
  messages : Bool

/-- A title that has been applied. History: whether a user has renamed the session since the request began, and whether the
command was handed to a live process or to its resume queue. -/
structure Title where
  name : String
  renamed : Bool
  handed : Bool

structure Name where
  text : Option String
  title : Option Title := none

/-- What a `get_state` response tells; `sessionRef` is what the driver makes of it. -/
structure SessionState where
  sessionRef : Option Reference
  sessionId : Option String
  sessionName : Option String
  messageCount : Nat

/-- A response awaits the owner of its session, or the update of the row. -/
inductive Saving where
  | owner
  | row (sessionName : Name)

structure Response where
  data : SessionState
  saving : Saving

inductive Stage where
  | messages
  | title (originalName : Option String)

structure Request where
  sessionId : String
  stage : Stage
  renamed : Bool

/-- `alive` tells that the runner has a process, `resuming` that commands wait in its resume queue. `persisted` is the name in
the runner's row, `writes` are the updates of it by titles. -/
structure State where
  alive : Bool
  resuming : Bool
  sessionRef : Option Reference
  sessionId : Option String
  sessionName : Name
  persisted : Name
  titleSessionId : Option String
  titleLoadingSessionId : Option String
  responses : Calls Response := fun _ => none
  requests : Calls Request := fun _ => none
  writes : Calls Name := fun _ => none
  next : Nat := 0
  applied : List Title := []

inductive Event where
  | getState (data : SessionState) (changed : Bool)
  | owned (k : Nat)
  | persisted (k : Nat)
  | responseFails (k : Nat)
  | adopts (reference : Reference)
  | messagesRead (k : Nat) (found : Bool)
  | summarized (k : Nat) (title : Option String) (taken : Bool)
  | written (k : Nat)
  | writeFails (k : Nat)
  | renames (taken : Bool)
  | spawns
  | starts (resuming : Bool)
  | resumed
  | exits
  | stops

/-- No name, or one that a fork has made: `/^\u23EA [0-9a-f]{4,12}$/`. -/
def titleEligible (name : Option String) : Bool :=
  match (name.getD "").toList with
  | [] => true
  | mark :: space :: digits =>
    mark = '⏪' && space = ' ' && 4 ≤ digits.length && digits.length ≤ 12 && digits.all "0123456789abcdef".toList.contains
  | _ => false

/-- The result of `sendToRunner` without autostart; `taken` tells whether the driver takes the command. -/
def State.sendToRunner (s : State) (taken : Bool) : Bool := s.alive && (s.resuming || taken)

def State.titleRequest (catalog : Option Catalog) (s : State) (sessionState : SessionState) : Option String :=
  match s.sessionRef, s.sessionId with
  | some reference, some sessionId =>
    if sessionId = "" ∨ ((catalog.bind (·.backend)).any fun backend => decide (reference.backend ≠ backend)) ∨
        titleEligible s.sessionName.text = false then none
    else if sessionState.messageCount < 1 ∨ s.titleSessionId = some sessionId ∨ s.titleLoadingSessionId = some sessionId then
      none
    else if catalog.any (·.messages) then some sessionId
    else none
  | _, _ => none

/-- `maybeTitleSession` up to the reading of the messages. -/
def State.maybeTitleSession (catalog : Option Catalog) (s : State) (sessionState : SessionState) : State :=
  match s.titleRequest catalog sessionState with
  | none => s
  | some sessionId =>
    { s with
      titleLoadingSessionId := some sessionId
      requests := s.requests.put s.next ⟨sessionId, .messages, false⟩
      next := s.next + 1 }

def truthy (text : Option String) : Bool := text.any (· ≠ "")

/-- `handleGetStateResponse`; where something has changed, the row is updated first. -/
def State.handleGetStateResponse (catalog : Option Catalog) (s : State) (d : SessionState) (changed : Bool) : State :=
  let sessionChanged := truthy s.sessionId && truthy d.sessionId && decide (s.sessionId ≠ d.sessionId)
  let s := { s with
    titleSessionId := if sessionChanged then none else s.titleSessionId
    sessionRef := d.sessionRef
    sessionId := d.sessionId.or s.sessionId
    sessionName := ⟨d.sessionName, none⟩ }
  if changed then { s with responses := s.responses.put s.next ⟨d, .owner⟩, next := s.next + 1 }
  else s.maybeTitleSession catalog d

/-- The messages have been read, or could not be; the name that is shown now is taken down. -/
def State.messagesRead (s : State) (k : Nat) (request : Request) (found : Bool) : State :=
  let s := { s with
    titleLoadingSessionId := if s.titleLoadingSessionId = some request.sessionId then none else s.titleLoadingSessionId }
  if found ∧ s.sessionId = some request.sessionId then
    { s with
      titleSessionId := some request.sessionId
      requests := s.requests.put k { request with stage := .title s.sessionName.text } }
  else { s with requests := s.requests.drop k }

def State.applies (s : State) (request : Request) (originalName title : Option String) : Bool :=
  truthy title && decide (s.sessionId = some request.sessionId) && decide (s.sessionName.text = originalName)

/-- The title is there. The promise of `sendToRunner` is not awaited, so that its result stops nothing. -/
def State.summarized (s : State) (k : Nat) (request : Request) (originalName title : Option String) (taken : Bool) : State :=
  if s.applies request originalName title then
    let name := if truthy originalName then "⏪ " ++ title.getD "" else title.getD ""
    let title := ⟨name, request.renamed, s.sendToRunner taken⟩
    { s with
      sessionName := ⟨some name, some title⟩
      requests := s.requests.drop k
      writes := s.writes.put s.next ⟨some name, some title⟩
      next := s.next + 1
      applied := s.applied ++ [title] }
  else { s with requests := s.requests.drop k }

def step (catalog : Option Catalog) (s : State) : Event → Option State
  | .getState data changed => if s.alive then some (s.handleGetStateResponse catalog data changed) else none
  | .owned k =>
    match s.responses k with
    | some ⟨data, .owner⟩ => some { s with responses := s.responses.put k ⟨data, .row s.sessionName⟩ }
    | _ => none
  | .persisted k =>
    match s.responses k with
    | some ⟨data, .row sessionName⟩ =>
      some ({ s with responses := s.responses.drop k, persisted := sessionName }.maybeTitleSession catalog data)
    | _ => none
  | .responseFails k => (s.responses k).map fun _ => { s with responses := s.responses.drop k }
  | .adopts reference => some { s with sessionRef := some reference, sessionId := some reference.id }
  | .messagesRead k found =>
    match s.requests k with
    | some ⟨sessionId, .messages, renamed⟩ => some (s.messagesRead k ⟨sessionId, .messages, renamed⟩ found)
    | _ => none
  | .summarized k title taken =>
    match s.requests k with
    | some ⟨sessionId, .title originalName, renamed⟩ =>
      some (s.summarized k ⟨sessionId, .title originalName, renamed⟩ originalName title taken)
    | _ => none
  | .written k => (s.writes k).map fun name => { s with writes := s.writes.drop k, persisted := name }
  | .writeFails k => (s.writes k).map fun _ => { s with writes := s.writes.drop k }
  | .renames taken =>
    some (if s.sendToRunner taken then { s with requests := s.requests.mapAll ({ · with renamed := true }) } else s)
  | .spawns => some { s with alive := true }
  | .starts resuming => if s.alive then some { s with resuming } else none
  | .resumed => some { s with resuming := false }
  | .exits => some { s with alive := false }
  | .stops => some { s with alive := false, resuming := false }

def Title.Sound (title : Title) : Prop := title.renamed = false ∧ title.handed = true

def Name.Sound (name : Name) : Prop := ∀ title, name.title = some title → title.Sound

/-- No title was applied after a user's renaming, and the name that is shown or stored is a title only if its command has been
handed over. -/
structure Law (s : State) : Prop where
  applied : ∀ title ∈ s.applied, title.Sound
  sessionName : s.sessionName.Sound
  persisted : s.persisted.Sound

/-- Where a title comes after a user's renaming, a response has told another name than the one that was taken down (or the
session is another); and where it comes for the same name, the runner has a process that takes the command or is resuming. -/
def permitted (s : State) : Event → Bool
  | .summarized k title taken =>
    match s.requests k with
    | some ⟨sessionId, .title originalName, renamed⟩ =>
      let stale := !s.applies ⟨sessionId, .title originalName, renamed⟩ originalName title
      (!renamed || stale) && (s.sendToRunner taken || stale)
    | _ => true
  | _ => true

def Ok (s : State) (e : Event) : Prop := permitted s e = true

structure Inv (s : State) : Prop where
  law : Law s
  responses : s.responses.Forall fun _ response => ∀ name, response.saving = .row name → name.Sound
  writes : s.writes.Forall fun _ name => name.Sound

section Step
variable {catalog : Option Catalog} {s : State} {k : Nat}

theorem Inv.frame {t : State} (inv : Inv s) (applied : t.applied = s.applied) (sessionName : t.sessionName = s.sessionName)
    (persisted : t.persisted = s.persisted) (responses : t.responses = s.responses) (writes : t.writes = s.writes) : Inv t := by
  refine ⟨⟨?_, ?_, ?_⟩, ?_, ?_⟩
  · rw [applied]
    exact inv.law.applied
  · rw [sessionName]
    exact inv.law.sessionName
  · rw [persisted]
    exact inv.law.persisted
  · rw [responses]
    exact inv.responses
  · rw [writes]
    exact inv.writes

theorem Inv.maybeTitleSession (inv : Inv s) (data : SessionState) : Inv (s.maybeTitleSession catalog data) := by
  unfold State.maybeTitleSession
  split
  · exact inv
  · exact inv.frame rfl rfl rfl rfl rfl

theorem Inv.told (inv : Inv s) (name : Option String) : Inv { s with sessionName := ⟨name, none⟩ } :=
  ⟨⟨inv.law.applied, fun _ absurd => (nomatch absurd), inv.law.persisted⟩, inv.responses, inv.writes⟩

theorem Inv.store (inv : Inv s) {name : Name} (sound : name.Sound) : Inv { s with persisted := name } :=
  ⟨⟨inv.law.applied, inv.law.sessionName, sound⟩, inv.responses, inv.writes⟩

theorem Inv.dropResponse (inv : Inv s) (k : Nat) : Inv { s with responses := s.responses.drop k } :=
  ⟨⟨inv.law.applied, inv.law.sessionName, inv.law.persisted⟩, inv.responses.drop k, inv.writes⟩

theorem Inv.dropWrite (inv : Inv s) (k : Nat) : Inv { s with writes := s.writes.drop k } :=
  ⟨⟨inv.law.applied, inv.law.sessionName, inv.law.persisted⟩, inv.responses, inv.writes.drop k⟩

theorem Inv.putResponse (inv : Inv s) {response : Response}
    (sound : ∀ name, response.saving = .row name → name.Sound) : Inv { s with responses := s.responses.put k response } :=
  ⟨⟨inv.law.applied, inv.law.sessionName, inv.law.persisted⟩, inv.responses.put sound, inv.writes⟩

theorem Inv.handleGetStateResponse (inv : Inv s) (data : SessionState) (changed : Bool) :
    Inv (s.handleGetStateResponse catalog data changed) := by
  have told : Inv { s with
      titleSessionId := if truthy s.sessionId && truthy data.sessionId && decide (s.sessionId ≠ data.sessionId) then none
        else s.titleSessionId
      sessionRef := data.sessionRef
      sessionId := data.sessionId.or s.sessionId
      sessionName := ⟨data.sessionName, none⟩ } := (inv.told data.sessionName).frame rfl rfl rfl rfl rfl
  unfold State.handleGetStateResponse
  split
  · have waits : Inv _ := @Inv.putResponse _ s.next told ⟨data, .owner⟩ fun _ absurd => nomatch absurd
    exact waits.frame rfl rfl rfl rfl rfl
  · exact told.maybeTitleSession data

theorem Inv.messagesRead (inv : Inv s) (request : Request) (found : Bool) : Inv (s.messagesRead k request found) := by
  unfold State.messagesRead
  dsimp only
  split <;> exact inv.frame rfl rfl rfl rfl rfl

theorem Inv.summarized (inv : Inv s) {request : Request} {originalName title : Option String} {taken : Bool}
    (sound : s.applies request originalName title = true → request.renamed = false ∧ s.sendToRunner taken = true) :
    Inv (s.summarized k request originalName title taken) := by
  unfold State.summarized
  split
  · next applies =>
      have own : ∀ name, Title.Sound ⟨name, request.renamed, s.sendToRunner taken⟩ := fun _ => sound applies
      have shown : ∀ name, Name.Sound ⟨some name, some ⟨name, request.renamed, s.sendToRunner taken⟩⟩ := by
        intro name title same
        cases same
        exact own name
      refine ⟨⟨fun title there => ?_, shown _, inv.law.persisted⟩, inv.responses, inv.writes.put (shown _)⟩
      rcases List.mem_append.mp there with old | new
      · exact inv.law.applied title old
      · obtain rfl := List.mem_singleton.mp new
        exact own _
  · exact inv.frame rfl rfl rfl rfl rfl

theorem inv_step (s : State) (e : Event) (t : State) (inv : Inv s) (ok : Ok s e) (taken : step catalog s e = some t) : Inv t := by
  cases e with
  | getState data changed =>
    obtain ⟨_, taken⟩ := Option.ite_none_right_eq_some.mp taken
    cases taken
    exact inv.handleGetStateResponse data changed
  | owned k =>
    simp only [step] at taken
    split at taken
    · cases taken
      refine inv.putResponse fun name same => ?_
      cases same
      exact inv.law.sessionName
    · cases taken
  | persisted k =>
    simp only [step] at taken
    split at taken
    · next data sessionName there =>
        cases taken
        have sound : sessionName.Sound := inv.responses k _ there sessionName rfl
        exact ((inv.dropResponse k).store sound).maybeTitleSession data
    · cases taken
  | responseFails k =>
    obtain ⟨response, _, rfl⟩ := Option.map_eq_some_iff.mp taken
    exact inv.dropResponse k
  | adopts reference =>
    cases taken
    exact inv.frame rfl rfl rfl rfl rfl
  | messagesRead k found =>
    simp only [step] at taken
    split at taken
    · cases taken
      exact inv.messagesRead _ found
    · cases taken
  | summarized k title answered =>
    simp only [step] at taken
    split at taken
    · next sessionId originalName renamed there =>
        cases taken
        apply inv.summarized
        intro applies
        simp only [Ok, permitted, there, applies, Bool.not_true, Bool.or_false, Bool.and_eq_true, Bool.not_eq_true'] at ok
        exact ok
    · cases taken
  | written k =>
    obtain ⟨name, there, rfl⟩ := Option.map_eq_some_iff.mp taken
    exact (inv.dropWrite k).store (inv.writes k name there)
  | writeFails k =>
    obtain ⟨name, _, rfl⟩ := Option.map_eq_some_iff.mp taken
    exact inv.dropWrite k
  | renames answered =>
    cases taken
    split <;> exact inv.frame rfl rfl rfl rfl rfl
  | spawns =>
    cases taken
    exact inv.frame rfl rfl rfl rfl rfl
  | starts resuming =>
    obtain ⟨_, taken⟩ := Option.ite_none_right_eq_some.mp taken
    cases taken
    exact inv.frame rfl rfl rfl rfl rfl
  | resumed =>
    cases taken
    exact inv.frame rfl rfl rfl rfl rfl
  | exits =>
    cases taken
    exact inv.frame rfl rfl rfl rfl rfl
  | stops =>
    cases taken
    exact inv.frame rfl rfl rfl rfl rfl

theorem law_step_iff {e : Event} {t : State} (inv : Inv s) (taken : step catalog s e = some t) : Law t ↔ Ok s e := by
  refine ⟨fun law => ?_, fun ok => (inv_step s e t inv ok taken).law⟩
  cases e with
  | summarized k title answered =>
    simp only [step] at taken
    split at taken
    · next sessionId originalName renamed there =>
        cases taken
        simp only [Ok, permitted, there]
        cases applies : s.applies ⟨sessionId, .title originalName, renamed⟩ originalName title with
        | false => simp
        | true =>
          simp only [State.summarized, applies, if_true] at law
          obtain ⟨quiet, handed⟩ := law.applied _ (List.mem_append_right _ (List.mem_singleton_self _))
          dsimp only at quiet handed
          rw [quiet, handed]
          rfl
    · cases taken
  | _ => rfl

end Step

/-- In every run whose steps are all permitted, no title is applied after a user's renaming, and the name that is shown or
stored is a title only if its command was handed to a live process or to its resume queue. -/
theorem titles_sound (catalog : Option Catalog) (alive resuming : Bool) (sessionRef : Option Reference)
    (sessionId sessionName persisted titleSessionId titleLoadingSessionId : Option String) (events : List Event) (s : State)
    (run : Run (step catalog) Ok
      { alive, resuming, sessionRef, sessionId, sessionName := ⟨sessionName, none⟩, persisted := ⟨persisted, none⟩,
        titleSessionId, titleLoadingSessionId } events s) : Law s := by
  have preserved : ∀ s e t, Inv s → Ok s e → step catalog s e = some t → Inv t := inv_step
  refine (run.invariant preserved ?_).law
  exact ⟨⟨fun _ absurd => (nomatch absurd), fun _ absurd => (nomatch absurd), fun _ absurd => (nomatch absurd)⟩,
    fun _ _ absurd => (nomatch absurd), fun _ _ absurd => nomatch absurd⟩

/-- A runner that shows the session `a`, which has no name yet. -/
def shown : State where
  alive := true
  resuming := false
  sessionRef := some ⟨.sqlite, "a", some "/data/pi.sqlite"⟩
  sessionId := some "a"
  sessionName := ⟨none, none⟩
  persisted := ⟨none, none⟩
  titleSessionId := none
  titleLoadingSessionId := none

def catalog : Catalog := ⟨some .sqlite, true⟩

/-- The state of `shown`, with one message. -/
def told : SessionState := ⟨some ⟨.sqlite, "a", some "/data/pi.sqlite"⟩, some "a", none, 1⟩

/-- A title is applied and stored, and a user renames the session afterwards. -/
theorem titles_sound_stored :
    ∃ s, Run (step (some catalog)) Ok shown [.getState told false, .messagesRead 0 true, .summarized 0 (some "Fix OAuth") true,
        .written 1, .renames true, .getState { told with sessionName := some "Mine" } false] s ∧
      s.persisted.text = some "Fix OAuth" ∧ Law s := by
  have checked : ((execIf (step (some catalog)) permitted shown [.getState told false, .messagesRead 0 true,
      .summarized 0 (some "Fix OAuth") true, .written 1, .renames true,
      .getState { told with sessionName := some "Mine" } false]).any
      fun s => decide (s.persisted.text = some "Fix OAuth")) = true := by decide +kernel
  obtain ⟨s, ran, kept⟩ := (Option.any_eq_true _ _).mp checked
  have run := run_of_execIf (fun _ _ => id) ran
  exact ⟨s, run, of_decide_eq_true kept, titles_sound (some catalog) true false _ _ none none none none _ s run⟩

theorem not_law {s : State} (found : (s.applied.any fun title => title.renamed || !title.handed) = true) : ¬Law s := by
  intro law
  obtain ⟨title, there, wrong⟩ := List.any_eq_true.mp found
  obtain ⟨quiet, handed⟩ := law.applied title there
  rw [quiet, handed] at wrong
  cases wrong

/-- A user renames the session while the title is made, and the title is applied all the same. The process exits, and the
title is shown and stored although no process has the command. -/
theorem renaming_lost :
    (∃ s, Run (step (some catalog)) Free shown [.getState told false, .messagesRead 0 true, .renames true,
        .summarized 0 (some "Fix OAuth") true] s ∧ ¬Law s) ∧
      ∃ s, Run (step (some catalog)) Free shown [.getState told false, .messagesRead 0 true, .exits,
        .summarized 0 (some "Fix OAuth") false, .written 1] s ∧ ¬Law s := by
  have renamed : ((exec (step (some catalog)) shown [.getState told false, .messagesRead 0 true, .renames true,
      .summarized 0 (some "Fix OAuth") true]).any fun s => s.applied.any fun title => title.renamed || !title.handed) = true := by
    decide +kernel
  have exited : ((exec (step (some catalog)) shown [.getState told false, .messagesRead 0 true, .exits,
      .summarized 0 (some "Fix OAuth") false, .written 1]).any
      fun s => s.applied.any fun title => title.renamed || !title.handed) = true := by decide +kernel
  obtain ⟨s, ran, found⟩ := (Option.any_eq_true _ _).mp renamed
  obtain ⟨t, ran', found'⟩ := (Option.any_eq_true _ _).mp exited
  exact ⟨⟨s, run_of_exec ran, not_law found⟩, t, run_of_exec ran', not_law found'⟩

end SessionTitles
