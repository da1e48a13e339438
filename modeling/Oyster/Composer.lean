import Oyster.History
import Oyster.Interleaving
import Oyster.Text

/-! The composer with the saved drafts of the runners, and the sends that wait for the command
guard. `R` is the type of the runners' ids. -/
namespace Composer
open History Interleaving

variable {R : Type} [DecidableEq R]

/-- What a send waits for in `confirmKnownCommand`. -/
inductive Phase where
  | commands
  | confirm
deriving DecidableEq

/-- A `send` that waits: its text, the runner there was when it was invoked, and what `edits` was. -/
structure Send (R : Type) where
  text : String
  runner : Option R
  seen : Nat
  phase : Phase

inductive Event (R : Type) where
  | typed (runner : Option R) (value : String)
  | invoked (send : Nat) (runner : Option R) (text : String)
  | posted (send : Nat) (runner : Option R) (text : String)
deriving DecidableEq

structure State (R : Type) where
  runner : Option R
  /-- `input.value`. -/
  composer : String
  drafts : R → Option String
  knownCommands : Option (List String)
  sends : Calls (Send R)
  nextSend : Nat
  /-- How often the composer or the runner has changed. -/
  edits : Nat
  log : List (Event R)

inductive Action (R : Type) where
  | type (value : String)
  | send (ready : Bool)
  | commands (send : Nat) (result : Option (List String))
  | confirm (send : Nat) (answer : Bool)
  | switch (runner : R)
  | palette (result : Option (List String))

def trim (text : String) : String := String.ofList (Text.trim text.toList)

/-- The name that `confirmKnownCommand` looks for. -/
def commandName (text : String) : Option String :=
  match text.toList with
  | '/' :: rest =>
    let name := rest.takeWhile fun c => !Text.isSpace c
    if name = [] then none else some (String.ofList name)
  | _ => none

namespace State
variable (s : State R)

/-- The user types, or takes a text from the history, the palette or the voice input. -/
def type (value : String) : State R :=
  { s with composer := value, edits := s.edits + 1, log := .typed s.runner value :: s.log }

def post (number : Nat) (text : String) : State R :=
  { s with
    composer := ""
    sends := s.sends.drop number
    edits := s.edits + 1
    log := .posted number s.runner text :: s.log }

def invokes : State R :=
  { s with nextSend := s.nextSend + 1, log := .invoked s.nextSend s.runner (trim s.composer) :: s.log }

def waits (phase : Phase) : State R :=
  { s.invokes with sends := s.sends.put s.nextSend ⟨trim s.composer, s.runner, s.edits, phase⟩ }

def passes : State R := s.invokes.post s.nextSend (trim s.composer)

def send (ready : Bool) : State R :=
  if trim s.composer = "" || !ready then s
  else
    match commandName (trim s.composer), s.knownCommands with
    | none, _ => s.passes
    | some name, some commands => if name ∈ commands then s.passes else s.waits .confirm
    | some _, none => s.waits .commands

/-- `get_commands` has been answered, or has failed. -/
def commands (number : Nat) (send : Send R) (result : Option (List String)) : State R :=
  let known := { s with knownCommands := result }
  if (commandName send.text).any (· ∈ result.getD []) then known.post number send.text
  else { known with sends := s.sends.put number { send with phase := .confirm } }

def confirm (number : Nat) (send : Send R) (answer : Bool) : State R :=
  if answer then s.post number send.text else { s with sends := s.sends.drop number }

/-- `switchDraft` to another runner. -/
def switchDraft (current : R) : State R :=
  let saved := match s.runner with
    | some previous => Function.update s.drafts previous (if s.composer = "" then none else some s.composer)
    | none => s.drafts
  { s with drafts := saved, composer := (saved current).getD "" }

/-- `switchSessionRunner`. -/
def switch (id : R) : State R :=
  if s.runner = some id then s
  else { s.switchDraft id with runner := some id, knownCommands := none, edits := s.edits + 1 }

def textOf (runner : Option R) : String :=
  if runner = s.runner then s.composer else (runner.bind s.drafts).getD ""

end State

def step (s : State R) : Action R → Option (State R)
  | .type value => some (s.type value)
  | .send ready => some (s.send ready)
  | .commands number result =>
    (s.sends number).bind fun send => if send.phase = .commands then some (s.commands number send result) else none
  | .confirm number answer =>
    (s.sends number).bind fun send => if send.phase = .confirm then some (s.confirm number send answer) else none
  | .switch id => some (s.switch id)
  | .palette result => some { s with knownCommands := result }

def started (runner : Option R) : State R := ⟨runner, "", fun _ => none, none, fun _ => none, 0, 0, []⟩

def standing (runner : Option R) : List (Event R) → String
  | [] => ""
  | .typed other value :: before => if other = runner then value else standing runner before
  | .posted _ other _ :: before => if other = runner then "" else standing runner before
  | .invoked .. :: before => standing runner before

def Event.isSend (number : Nat) : Event R → Bool
  | .typed .. => false
  | .invoked send .. => send = number
  | .posted send .. => send = number

/-- A send posts once, to the runner for which it was invoked, and what it posts is the runner's standing text. -/
def Permitted : Event R → List (Event R) → Prop
  | .typed .., _ => True
  | .invoked send _ _, before => ∀ event ∈ before, event.isSend send = false
  | .posted send runner text, before =>
    .invoked send runner text ∈ before ∧ (∀ other given, .posted send other given ∉ before) ∧
      text ≠ "" ∧ trim (standing runner before) = text

/-- The guard lets a send through only if neither the composer nor the runner has changed since it was invoked;
a first runner is switched to with an empty composer. -/
def Careful (s : State R) : Action R → Prop
  | .commands number result =>
    ∀ send, s.sends number = some send → (commandName send.text).any (· ∈ result.getD []) = true → s.edits = send.seen
  | .confirm number answer => ∀ send, s.sends number = some send → answer = true → s.edits = send.seen
  | .switch _ => s.runner = none → s.composer = ""
  | _ => True

structure Waiting (s : State R) (number : Nat) (send : Send R) : Prop where
  nonempty : send.text ≠ ""
  invoked : .invoked number send.runner send.text ∈ s.log
  unposted : ∀ runner text, .posted number runner text ∉ s.log
  seen : send.seen ≤ s.edits
  stands : s.edits = send.seen → s.runner = send.runner ∧ trim s.composer = send.text

structure Inv (s : State R) : Prop where
  fits : Fits Permitted s.log
  texts : ∀ runner, s.textOf runner = standing runner s.log
  numbered : ∀ number, s.nextSend ≤ number → ∀ event ∈ s.log, event.isSend number = false
  waiting : ∀ number send, s.sends number = some send → number < s.nextSend ∧ Waiting s number send

theorem inv_started (runner : Option R) : Inv (started runner) where
  fits := trivial
  texts := by
    simp [State.textOf, started, standing]
  numbered := fun _ _ _ absent => absurd absent List.not_mem_nil
  waiting := fun _ _ absent => by cases absent

variable {s : State R}

theorem textOf_runner (s : State R) : s.textOf s.runner = s.composer := if_pos rfl

theorem Inv.type (inv : Inv s) (value : String) : Inv (s.type value) where
  fits := inv.fits.cons trivial
  texts := by
    intro runner
    simp only [State.textOf, State.type, standing]
    by_cases here : runner = s.runner
    · simp [here]
    · have there : ¬s.runner = runner := fun same => here same.symm
      simpa [State.textOf, here, there] using inv.texts runner
  numbered := fun number le => List.forall_mem_cons.mpr ⟨rfl, inv.numbered number le⟩
  waiting := by
    intro number send there
    obtain ⟨less, waiting⟩ := inv.waiting number send there
    refine ⟨less, waiting.nonempty, List.mem_cons_of_mem _ waiting.invoked, fun runner text mem => ?_, ?_, fun same => ?_⟩
    · exact waiting.unposted runner text ((List.mem_cons.mp mem).resolve_left fun same => by cases same)
    · exact Nat.le_succ_of_le waiting.seen
    · exact absurd (same ▸ waiting.seen) (Nat.not_succ_le_self _)

theorem Inv.post (inv : Inv s) {number : Nat} {text : String} (less : number < s.nextSend) (invoked : .invoked number s.runner text ∈ s.log)
    (unposted : ∀ runner given, .posted number runner given ∉ s.log) (nonempty : text ≠ "") (stands : trim s.composer = text) :
    Inv (s.post number text) where
  fits := by
    refine inv.fits.cons ⟨invoked, unposted, nonempty, ?_⟩
    rw [← inv.texts, textOf_runner]
    exact stands
  texts := by
    intro runner
    simp only [State.textOf, State.post, standing]
    by_cases here : runner = s.runner
    · simp [here]
    · have there : ¬s.runner = runner := fun same => here same.symm
      simpa [State.textOf, here, there] using inv.texts runner
  numbered := by
    refine fun given le => List.forall_mem_cons.mpr ⟨?_, inv.numbered given le⟩
    exact decide_eq_false (Nat.ne_of_lt (Nat.lt_of_lt_of_le less le))
  waiting := by
    intro given send there
    obtain ⟨other, before⟩ := Calls.drop_eq_some there
    obtain ⟨less', waiting⟩ := inv.waiting given send before
    refine ⟨less', waiting.nonempty, List.mem_cons_of_mem _ waiting.invoked, fun runner text' mem => ?_, ?_, fun same => ?_⟩
    · rcases List.mem_cons.mp mem with same | earlier
      · exact other (Event.posted.inj same).1
      · exact waiting.unposted runner text' earlier
    · exact Nat.le_succ_of_le waiting.seen
    · exact absurd (same ▸ waiting.seen) (Nat.not_succ_le_self _)

omit [DecidableEq R] in
theorem Waiting.logged {number : Nat} {send : Send R} {event : Event R} (waiting : Waiting s number send)
    (other : event.isSend number = false) : Waiting { s with log := event :: s.log } number send where
  nonempty := waiting.nonempty
  invoked := List.mem_cons_of_mem _ waiting.invoked
  unposted := by
    intro runner text mem
    rcases List.mem_cons.mp mem with rfl | earlier
    · simp [Event.isSend] at other
    · exact waiting.unposted runner text earlier
  seen := waiting.seen
  stands := waiting.stands

theorem Inv.invokes (inv : Inv s) : Inv s.invokes where
  fits := inv.fits.cons (inv.numbered s.nextSend (Nat.le_refl _))
  texts := inv.texts
  numbered := by
    refine fun number le => List.forall_mem_cons.mpr ⟨?_, inv.numbered number (Nat.le_of_succ_le le)⟩
    exact decide_eq_false (Nat.ne_of_lt le)
  waiting := by
    intro number send there
    obtain ⟨less, waiting⟩ := inv.waiting number send there
    have other : (Event.invoked s.nextSend s.runner (trim s.composer)).isSend number = false := decide_eq_false (Nat.ne_of_gt less)
    have logged := waiting.logged other
    exact ⟨Nat.lt_succ_of_lt less, logged.nonempty, logged.invoked, logged.unposted, logged.seen, logged.stands⟩

theorem unposted_new (inv : Inv s) (runner : Option R) (text : String) : .posted s.nextSend runner text ∉ s.invokes.log := by
  intro mem
  rcases List.mem_cons.mp mem with same | earlier
  · cases same
  · have absent := inv.numbered s.nextSend (Nat.le_refl _) _ earlier
    simp [Event.isSend] at absent

theorem Inv.passes (inv : Inv s) (nonempty : trim s.composer ≠ "") : Inv s.passes :=
  inv.invokes.post (Nat.lt_succ_self _) List.mem_cons_self (unposted_new inv) nonempty rfl

theorem Inv.waits (inv : Inv s) (phase : Phase) (nonempty : trim s.composer ≠ "") : Inv (s.waits phase) where
  fits := inv.invokes.fits
  texts := inv.invokes.texts
  numbered := inv.invokes.numbered
  waiting := by
    intro number send there
    rcases Calls.put_eq_some there with ⟨rfl, rfl⟩ | ⟨_, before⟩
    · exact ⟨Nat.lt_succ_self _, nonempty, List.mem_cons_self, unposted_new inv, Nat.le_refl _, fun _ => ⟨rfl, rfl⟩⟩
    · obtain ⟨less, waiting⟩ := inv.invokes.waiting number send before
      exact ⟨less, waiting.nonempty, waiting.invoked, waiting.unposted, waiting.seen, waiting.stands⟩

theorem Inv.send (inv : Inv s) (ready : Bool) : Inv (s.send ready) := by
  unfold State.send
  split_ifs with none
  · exact inv
  · have nonempty : trim s.composer ≠ "" := fun empty => none (by simp [empty])
    split
    · exact inv.passes nonempty
    · split_ifs
      · exact inv.passes nonempty
      · exact inv.waits _ nonempty
    · exact inv.waits _ nonempty

theorem Inv.known (inv : Inv s) (commands : Option (List String)) : Inv { s with knownCommands := commands } where
  fits := inv.fits
  texts := inv.texts
  numbered := inv.numbered
  waiting := by
    intro number send there
    obtain ⟨less, waiting⟩ := inv.waiting number send there
    exact ⟨less, waiting.nonempty, waiting.invoked, waiting.unposted, waiting.seen, waiting.stands⟩

theorem Inv.goes (inv : Inv s) {number : Nat} {send : Send R} (there : s.sends number = some send) (unchanged : s.edits = send.seen) :
    Inv (s.post number send.text) := by
  obtain ⟨less, waiting⟩ := inv.waiting number send there
  obtain ⟨runner, stands⟩ := waiting.stands unchanged
  exact inv.post less (runner ▸ waiting.invoked) waiting.unposted waiting.nonempty stands

theorem Inv.commands (inv : Inv s) {number : Nat} {send : Send R} (there : s.sends number = some send) (result : Option (List String))
    (careful : (commandName send.text).any (· ∈ result.getD []) = true → s.edits = send.seen) : Inv (s.commands number send result) := by
  have known := inv.known result
  unfold State.commands
  split_ifs with passes
  · exact known.goes there (careful passes)
  · refine ⟨known.fits, known.texts, known.numbered, fun given other here => ?_⟩
    rcases Calls.put_eq_some here with ⟨rfl, rfl⟩ | ⟨_, before⟩
    · obtain ⟨less, waiting⟩ := inv.waiting given send there
      exact ⟨less, waiting.nonempty, waiting.invoked, waiting.unposted, waiting.seen, waiting.stands⟩
    · obtain ⟨less, waiting⟩ := inv.waiting given other before
      exact ⟨less, waiting.nonempty, waiting.invoked, waiting.unposted, waiting.seen, waiting.stands⟩

theorem Inv.confirm (inv : Inv s) {number : Nat} {send : Send R} (there : s.sends number = some send) (answer : Bool)
    (careful : answer = true → s.edits = send.seen) : Inv (s.confirm number send answer) := by
  unfold State.confirm
  split_ifs with passes
  · exact inv.goes there (careful passes)
  · refine ⟨inv.fits, inv.texts, inv.numbered, fun given other here => ?_⟩
    obtain ⟨_, before⟩ := Calls.drop_eq_some here
    obtain ⟨less, waiting⟩ := inv.waiting given other before
    exact ⟨less, waiting.nonempty, waiting.invoked, waiting.unposted, waiting.seen, waiting.stands⟩

theorem textOf_switchDraft (s : State R) (current : R) (away : s.runner ≠ some current) (first : s.runner = none → s.composer = "")
    (runner : Option R) : { s.switchDraft current with runner := some current }.textOf runner = s.textOf runner := by
  simp only [State.textOf, State.switchDraft]
  cases previous : s.runner with
  | none =>
    have empty := first previous
    cases runner with
    | none => simp [empty]
    | some id =>
      by_cases same : id = current
      · simp [same]
      · simp [same]
  | some left =>
    have different : current ≠ left := fun same => away (same ▸ previous)
    cases runner with
    | none => simp
    | some id =>
      by_cases same : id = current
      · simp [same, different]
      · by_cases here : id = left
        · subst here
          by_cases empty : s.composer = "" <;> simp [same, empty]
        · simp [same, here]

theorem Inv.switch (inv : Inv s) (id : R) (first : s.runner = none → s.composer = "") : Inv (s.switch id) := by
  unfold State.switch
  split_ifs with same
  · exact inv
  · refine ⟨inv.fits, fun runner => (textOf_switchDraft s id same first runner).trans (inv.texts runner), inv.numbered,
      fun number send there => ?_⟩
    obtain ⟨less, waiting⟩ := inv.waiting number send there
    refine ⟨less, waiting.nonempty, waiting.invoked, waiting.unposted, Nat.le_succ_of_le waiting.seen, fun same => ?_⟩
    exact absurd (same ▸ waiting.seen) (Nat.not_succ_le_self _)

theorem inv_step {t : State R} {a : Action R} (h : step s a = some t) (inv : Inv s) (careful : Careful s a) : Inv t := by
  cases a with
  | type value =>
    cases h
    exact inv.type value
  | send ready =>
    cases h
    exact inv.send ready
  | commands number result =>
    obtain ⟨send, there, rest⟩ := Option.bind_eq_some_iff.mp h
    obtain ⟨_, same⟩ := Option.ite_none_right_eq_some.mp rest
    cases same
    exact inv.commands there result (careful send there)
  | confirm number answer =>
    obtain ⟨send, there, rest⟩ := Option.bind_eq_some_iff.mp h
    obtain ⟨_, same⟩ := Option.ite_none_right_eq_some.mp rest
    cases same
    exact inv.confirm there answer (careful send there)
  | switch id =>
    cases h
    exact inv.switch id careful
  | palette result =>
    cases h
    exact inv.known result

/-- Whether a step meets `Careful`. -/
def careful (s : State R) : Action R → Bool
  | .commands number result =>
    (s.sends number).all fun send => !(commandName send.text).any (· ∈ result.getD []) || s.edits = send.seen
  | .confirm number answer => (s.sends number).all fun send => !answer || s.edits = send.seen
  | .switch _ => s.runner.isSome || s.composer = ""
  | _ => true

end Composer
