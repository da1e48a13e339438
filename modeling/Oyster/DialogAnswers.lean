import Oyster.Dialogs

/-! Which answers a dialog request gets, and when the modal shows every request that has none. -/
namespace Dialogs
open History Interleaving

def Event.id : Event → Nat
  | .asked id _ => id
  | .entered id _ => id
  | .submitted id _ => id
  | .answered id _ => id

/-- What the input field of a request's dialog holds: what was entered for it last. -/
def entry (id : Nat) : List Event → Option String
  | [] => none
  | .entered other value :: before => if other = id then some value else entry id before
  | .asked other ask :: before => if other = id then ask.prefill else entry id before
  | _ :: before => entry id before

/-- A request is answered once: it is cancelled, or gets at once what was submitted in its own dialog,
which is what was entered for it. -/
def Permitted : Event → List Event → Prop
  | .asked id _, before => ∀ event ∈ before, event.id ≠ id
  | .entered _ _, _ => True
  | .submitted id answer, before => ∀ value, answer = .value (some value) → entry id before = some value
  | .answered id answer, before =>
    (∃ ask, .asked id ask ∈ before ∧ (answer = ask.slot.cancelled ∨ before.head? = some (.submitted id answer))) ∧
      ∀ other, .answered id other ∉ before

def Unanswered (log : List Event) (id : Nat) : Prop := (∃ ask, .asked id ask ∈ log) ∧ ∀ answer, .answered id answer ∉ log

namespace Prompts

/-- The store of the request's kind holds its dialog. -/
def Presents (prompts : Prompts) : Ask → Prop
  | .text title placeholder _ isSecret =>
    prompts.text.title = title ∧ prompts.text.placeholder = placeholder ∧ prompts.text.isSecret = isSecret
  | .editor title placeholder _ => prompts.editor.title = title ∧ prompts.editor.placeholder = placeholder
  | .confirm title message => prompts.confirm = ⟨title, message⟩
  | .option title options searchable selected disabled variant placeholder =>
    let picker := pickerOf title options searchable selected disabled variant placeholder
    prompts.option = { picker with query := prompts.option.query, active := prompts.option.active }

/-- The input field of a dialog, where it has one. -/
def value (prompts : Prompts) : Slot → Option String
  | .text => some prompts.text.value
  | .editor => some prompts.editor.value
  | .confirm => none
  | .option => none

/-- The stores of one kind are equal. -/
def Agree (slot : Slot) (prompts other : Prompts) : Prop :=
  match slot with
  | .text => prompts.text = other.text
  | .editor => prompts.editor = other.editor
  | .confirm => prompts.confirm = other.confirm
  | .option => prompts.option = other.option

variable {prompts other : Prompts} {slot : Slot} {ask : Ask}

theorem Presents.of_agree (presents : prompts.Presents ask) (agree : Agree ask.slot prompts other) :
    other.Presents ask := by
  cases ask with
  | text | editor | confirm | option =>
    simp only [Presents, Agree, Ask.slot] at presents agree ⊢
    rw [← agree]
    exact presents

theorem value_of_agree (agree : Agree slot prompts other) : other.value slot = prompts.value slot := by
  cases slot with
  | text | editor =>
    simp only [value, Agree] at agree ⊢
    rw [agree]
  | confirm | option => rfl

theorem agree_reset (prompts : Prompts) {reset : Slot} (ne : slot ≠ reset) : Agree slot prompts (prompts.reset reset) := by
  cases slot <;> cases reset <;> first | rfl | exact absurd rfl ne

theorem agree_present (prompts : Prompts) (ne : slot ≠ ask.slot) : Agree slot prompts (prompts.present ask) := by
  cases slot <;> cases ask <;> first | rfl | exact absurd rfl ne

theorem presents_present (prompts : Prompts) (ask : Ask) : (prompts.present ask).Presents ask := by
  cases ask with
  | text | editor => simp [present, Presents]
  | confirm | option => rfl

theorem value_present (prompts : Prompts) (ask : Ask) : (prompts.present ask).value ask.slot = ask.prefill := by
  cases ask <;> rfl

end Prompts

def Shown (s : State) (id : Nat) : Prop :=
  s.modal.isOpen = true ∧ ∃ ask, .asked id ask ∈ s.log ∧ s.modal.content = some (.dialog ask.slot) ∧
    s.presented ask.slot = some id ∧ s.prompts.Presents ask

def Answerable (s : State) : Prop := (∀ id, Unanswered s.log id → Shown s id) ∧ Fits Permitted s.log

/-- A dialog is opened only while none of another kind is pending; other features open or close
the modal only while none is. -/
def Undisturbed (s : State) : Action → Prop
  | .opens ask => ∀ slot, slot ≠ ask.slot → s.pending slot = none
  | .extensionUi request => ∀ ask, request.ask = some ask → ∀ slot, slot ≠ ask.slot → s.pending slot = none
  | .openModal .. | .closeModal => ∀ slot, s.pending slot = none
  | _ => True

variable {log : List Event} {id : Nat}

theorem asked_unique (fits : Fits Permitted log) {ask other : Ask} (here : .asked id ask ∈ log)
    (there : .asked id other ∈ log) : ask = other := by
  induction log with
  | nil => exact absurd here List.not_mem_nil
  | cons event before ih =>
    rcases List.mem_cons.mp here with rfl | earlier
    · rcases List.mem_cons.mp there with same | earlier
      · cases same
        rfl
      · exact absurd rfl (fits.1 _ earlier)
    · rcases List.mem_cons.mp there with rfl | earlier'
      · exact absurd rfl (fits.1 _ earlier)
      · exact ih fits.2 earlier earlier'

/-- The request is pending in its slot, whose store holds its dialog. -/
structure Held (prompts : Prompts) (log : List Event) (slot : Slot) (id : Nat) : Prop where
  asked : ∃ ask, .asked id ask ∈ log ∧ ask.slot = slot ∧ prompts.Presents ask
  unanswered : ∀ answer, .answered id answer ∉ log
  entered : ∀ value, prompts.value slot = some value → entry id log = some value

namespace Held
variable {prompts : Prompts} {log : List Event} {slot : Slot} {id : Nat}

theorem of_agree {other : Prompts} (held : Held prompts log slot id) (agree : Prompts.Agree slot prompts other) :
    Held other log slot id where
  asked := by
    obtain ⟨ask, asked, rfl, presents⟩ := held.asked
    exact ⟨ask, asked, rfl, presents.of_agree agree⟩
  unanswered := held.unanswered
  entered := fun value here => held.entered value (Prompts.value_of_agree agree ▸ here)

theorem cons {event : Event} (held : Held prompts log slot id) (quiet : ∀ answer, event ≠ .answered id answer)
    (same : entry id (event :: log) = entry id log) : Held prompts (event :: log) slot id where
  asked := by
    obtain ⟨ask, asked, rest⟩ := held.asked
    exact ⟨ask, List.mem_cons_of_mem _ asked, rest⟩
  unanswered := by
    intro answer mem
    rcases List.mem_cons.mp mem with here | earlier
    · exact quiet answer here.symm
    · exact held.unanswered answer earlier
  entered := fun value here => same.trans (held.entered value here)

theorem slot_unique {other : Slot} (fits : Fits Permitted log) (held : Held prompts log slot id)
    (held' : Held prompts log other id) : slot = other := by
  obtain ⟨ask, asked, rfl, _⟩ := held.asked
  obtain ⟨ask', asked', rfl, _⟩ := held'.asked
  rw [asked_unique fits asked asked']

end Held

structure Inv (s : State) : Prop where
  fits : Fits Permitted s.log
  numbered : ∀ event ∈ s.log, event.id < s.next
  presented : s.presented = s.pending
  held : ∀ slot id, s.pending slot = some id → Held s.prompts s.log slot id
  kept : ∀ id, Unanswered s.log id → ∃ slot, s.pending slot = some id

theorem Inv.later {s : State} (inv : Inv s) : ∀ event ∈ s.log, event.id < s.next + 1 :=
  fun event mem => Nat.lt_succ_of_lt (inv.numbered event mem)

theorem inv_mounted : Inv mounted where
  fits := trivial
  numbered := fun _ absent => absurd absent List.not_mem_nil
  presented := rfl
  held := fun _ _ absent => by cases absent
  kept := fun _ unanswered => by
    obtain ⟨⟨ask, absent⟩, _⟩ := unanswered
    exact absurd absent List.not_mem_nil

def State.release (s : State) (slot : Slot) (answer : Answer) (prompts : Prompts) : State :=
  { s.put slot none prompts with
    log := match s.pending slot with | none => s.log | some id => .answered id answer :: s.log }

theorem unanswered_before {event : Event} (old : ∀ ask, event ≠ .asked id ask) (h : Unanswered (event :: log) id) :
    Unanswered log id := by
  obtain ⟨⟨ask, asked⟩, none⟩ := h
  exact ⟨⟨ask, (List.mem_cons.mp asked).resolve_left fun same => old ask same.symm⟩,
    fun answer mem => none answer (List.mem_cons_of_mem _ mem)⟩

theorem unanswered_cons {other : Nat} {answer : Answer} (h : Unanswered (.answered id answer :: log) other) :
    other ≠ id ∧ Unanswered log other := by
  refine ⟨?_, unanswered_before (fun _ same => by cases same) h⟩
  rintro rfl
  exact h.2 answer List.mem_cons_self

variable {s : State}

theorem Inv.release (inv : Inv s) (slot : Slot) (answer : Answer) (prompts : Prompts)
    (proper : ∀ id, s.pending slot = some id → answer = slot.cancelled ∨ s.log.head? = some (.submitted id answer))
    (agree : ∀ other, other ≠ slot → Prompts.Agree other s.prompts prompts) : Inv (s.release slot answer prompts) := by
  have elsewhere : ∀ other id, Function.update s.pending slot none other = some id → other ≠ slot ∧ s.pending other = some id := by
    intro other id here
    rcases eq_or_ne other slot with rfl | ne
    · rw [Function.update_self] at here
      cases here
    · exact ⟨ne, by rwa [Function.update_of_ne ne] at here⟩
  have presented : Function.update s.presented slot none = Function.update s.pending slot none := by rw [inv.presented]
  cases pending : s.pending slot with
  | none =>
    have same : s.release slot answer prompts = s.put slot none prompts := by
      simp only [State.release, pending]
      rfl
    rw [same]
    refine ⟨inv.fits, inv.numbered, presented, fun other id here => ?_, fun id unanswered => ?_⟩
    · obtain ⟨ne, there⟩ := elsewhere other id here
      exact (inv.held other id there).of_agree (agree other ne)
    · obtain ⟨other, there⟩ := inv.kept id unanswered
      refine ⟨other, ?_⟩
      rcases eq_or_ne other slot with rfl | ne
      · cases pending.symm.trans there
      · exact (Function.update_of_ne ne _ _).trans there
  | some id =>
    have same : s.release slot answer prompts = { s.put slot none prompts with log := .answered id answer :: s.log } := by
      simp only [State.release, pending]
    rw [same]
    have held := inv.held slot id pending
    obtain ⟨ask, asked, rfl, _⟩ := held.asked
    have number : id < s.next := inv.numbered (.asked id ask) asked
    refine ⟨inv.fits.cons ⟨⟨ask, asked, proper id pending⟩, held.unanswered⟩,
      List.forall_mem_cons.mpr ⟨number, inv.numbered⟩, presented, fun other given here => ?_, fun given unanswered => ?_⟩
    · obtain ⟨ne, there⟩ := elsewhere other given here
      have heldThere := inv.held other given there
      refine (heldThere.of_agree (agree other ne)).cons (fun given' same => ?_) rfl
      obtain ⟨rfl, _⟩ := Event.answered.inj same
      exact ne (heldThere.slot_unique inv.fits held)
    · obtain ⟨ne, before⟩ := unanswered_cons unanswered
      obtain ⟨other, there⟩ := inv.kept given before
      refine ⟨other, ?_⟩
      rcases eq_or_ne other ask.slot with rfl | ne'
      · exact absurd (Option.some.inj (there.symm.trans pending)) ne
      · exact (Function.update_of_ne ne' _ _).trans there

theorem Inv.modal (inv : Inv s) (modal : Modal) : Inv { s with modal := modal } :=
  ⟨inv.fits, inv.numbered, inv.presented, inv.held, inv.kept⟩

theorem settle_eq (s : State) (slot : Slot) (answer : Answer) : s.settle slot answer =
      { s.release slot answer (s.prompts.reset slot) with modal := if (s.pending slot).isSome then closedModal else s.modal } := by
  unfold State.settle State.release
  cases s.pending slot <;> rfl

theorem Inv.settle (inv : Inv s) (slot : Slot) (answer : Answer)
    (proper : ∀ id, s.pending slot = some id → answer = slot.cancelled ∨ s.log.head? = some (.submitted id answer)) :
    Inv (s.settle slot answer) := by
  rw [settle_eq]
  exact (inv.release slot answer _ proper fun other ne => Prompts.agree_reset s.prompts ne).modal _

theorem Inv.cancel (inv : Inv s) (slot : Slot) : Inv (s.settle slot slot.cancelled) :=
  inv.settle slot slot.cancelled fun _ _ => .inl rfl

theorem Inv.place (inv : Inv s) (ask : Ask) (free : s.pending ask.slot = none) :
    Inv { s.put ask.slot (some s.next) (s.prompts.present ask) with next := s.next + 1, log := .asked s.next ask :: s.log } := by
  have fresh : ∀ event ∈ s.log, event.id ≠ s.next := fun event mem => Nat.ne_of_lt (inv.numbered event mem)
  refine ⟨inv.fits.cons fresh, List.forall_mem_cons.mpr ⟨Nat.lt_succ_self _, inv.later⟩, ?_, fun slot id here => ?_,
    fun id unanswered => ?_⟩
  · simp only [State.put, inv.presented]
  · rcases eq_or_ne slot ask.slot with rfl | ne
    · cases here.symm.trans (Function.update_self _ _ _)
      refine ⟨⟨ask, List.mem_cons_self, rfl, Prompts.presents_present s.prompts ask⟩, fun answer mem => ?_, fun value there => ?_⟩
      · rcases List.mem_cons.mp mem with here | earlier
        · cases here
        · exact fresh _ earlier rfl
      · simp only [entry, if_true]
        exact (Prompts.value_present s.prompts ask).symm.trans there
    · have there : s.pending slot = some id := (Function.update_of_ne ne _ _).symm.trans here
      have held := inv.held slot id there
      refine (held.of_agree (Prompts.agree_present s.prompts ne)).cons (fun _ same => by cases same) ?_
      obtain ⟨other, asked, _⟩ := held.asked
      have older : s.next ≠ id := fun same => fresh _ asked same.symm
      simp only [entry, older, if_false]
  · rcases eq_or_ne s.next id with rfl | old
    · exact ⟨ask.slot, Function.update_self _ _ _⟩
    · obtain ⟨slot, there⟩ := inv.kept id (unanswered_before (fun _ same => old (Event.asked.inj same).1) unanswered)
      refine ⟨slot, (Function.update_of_ne ?_ _ _).trans there⟩
      rintro rfl
      rw [free] at there
      cases there

theorem opens_eq (s : State) (ask : Ask) (mounted : s.disposed = false) : s.opens ask =
      let released := s.release ask.slot ask.slot.cancelled s.prompts
      { released.put ask.slot (some released.next) (released.prompts.present ask) with
        modal := ⟨true, false, ask.title, some (.dialog ask.slot)⟩
        next := released.next + 1
        log := .asked released.next ask :: released.log } := by
  unfold State.opens State.release State.displace
  cases s.pending ask.slot <;> simp [State.put, mounted]

theorem Inv.opens (inv : Inv s) (ask : Ask) : Inv (s.opens ask) := by
  cases disposed : s.disposed with
  | true =>
    -- answered at once, so no request is pending for it
    have fresh : ∀ event ∈ s.log, event.id ≠ s.next := fun event mem => Nat.ne_of_lt (inv.numbered event mem)
    have asked : Fits Permitted (.asked s.next ask :: s.log) := inv.fits.cons fresh
    unfold State.opens
    rw [if_pos disposed]
    have numbered : ∀ event ∈ Event.asked s.next ask :: s.log, event.id < s.next + 1 :=
      List.forall_mem_cons.mpr ⟨Nat.lt_succ_self _, inv.later⟩
    refine ⟨asked.cons ⟨⟨ask, List.mem_cons_self, .inl rfl⟩, ?_⟩, List.forall_mem_cons.mpr ⟨Nat.lt_succ_self _, numbered⟩,
      inv.presented, fun slot id here => ?_, fun id unanswered => ?_⟩
    · intro other mem
      rcases List.mem_cons.mp mem with same | earlier
      · cases same
      · exact fresh _ earlier rfl
    · have held := inv.held slot id here
      obtain ⟨other, older, _⟩ := held.asked
      have ne : s.next ≠ id := fun same => fresh _ older same.symm
      have between : Held s.prompts (.asked s.next ask :: s.log) slot id :=
        held.cons (fun _ same => by cases same) (by simp only [entry, ne, if_false])
      refine between.cons (fun answer same => ?_) rfl
      exact ne (Event.answered.inj same).1
    · obtain ⟨ne, before⟩ := unanswered_cons unanswered
      exact inv.kept id (unanswered_before (fun _ same => ne (Event.asked.inj same).1.symm) before)
  | false =>
    rw [opens_eq s ask disposed]
    have released := inv.release ask.slot ask.slot.cancelled s.prompts (fun _ _ => .inl rfl) fun other _ => by cases other <;> rfl
    exact (released.place ask (Function.update_self _ _ _)).modal _

theorem Inv.submits (inv : Inv s) (slot : Slot) (answer : Answer)
    (proper : ∀ value, answer = .value (some value) → s.prompts.value slot = some value) : Inv (s.submits slot answer) := by
  unfold State.submits
  cases here : s.presented slot with
  | none => exact inv
  | some id =>
    have held := inv.held slot id (inv.presented ▸ here)
    obtain ⟨ask, asked, _⟩ := held.asked
    have number : id < s.next := inv.numbered (.asked id ask) asked
    refine ⟨inv.fits.cons fun value same => held.entered value (proper value same),
      List.forall_mem_cons.mpr ⟨number, inv.numbered⟩, inv.presented, fun other given there => ?_, fun given unanswered => ?_⟩
    · exact (inv.held other given there).cons (fun _ same => by cases same) rfl
    · exact inv.kept given (unanswered_before (fun _ same => by cases same) unanswered)

theorem Inv.submit (inv : Inv s) (slot : Slot) (answer : Answer)
    (proper : ∀ value, answer = .value (some value) → s.prompts.value slot = some value) : Inv (s.submit slot answer) := by
  refine (inv.submits slot answer proper).settle slot answer fun id pending => .inr ?_
  unfold State.submits at pending ⊢
  cases here : s.presented slot with
  | none =>
    simp only [here] at pending
    rw [← inv.presented, here] at pending
    cases pending
  | some other =>
    simp only [here] at pending
    rw [← inv.presented, here] at pending
    cases pending
    rfl

theorem Inv.enters (inv : Inv s) (slot : Slot) (value : String) (prompts : Prompts)
    (agree : ∀ other, other ≠ slot → Prompts.Agree other s.prompts prompts)
    (presents : ∀ ask, ask.slot = slot → s.prompts.Presents ask → prompts.Presents ask) (set : prompts.value slot = some value) :
    Inv { s.enters slot value with prompts := prompts } := by
  unfold State.enters
  cases here : s.presented slot with
  | none =>
    refine ⟨inv.fits, inv.numbered, inv.presented, fun other id there => ?_, inv.kept⟩
    refine (inv.held other id there).of_agree (agree other ?_)
    rintro rfl
    rw [inv.presented, there] at here
    cases here
  | some id =>
    have held := inv.held slot id (inv.presented ▸ here)
    obtain ⟨ask, asked, slotEq, presented⟩ := held.asked
    have number : id < s.next := inv.numbered (.asked id ask) asked
    refine ⟨inv.fits.cons trivial, List.forall_mem_cons.mpr ⟨number, inv.numbered⟩, inv.presented,
      fun other given there => ?_, fun given unanswered => ?_⟩
    · rcases eq_or_ne other slot with rfl | ne
      · obtain rfl : id = given := by
          rw [inv.presented] at here
          exact Option.some.inj (here.symm.trans there)
        refine ⟨⟨ask, List.mem_cons_of_mem _ asked, slotEq, presents ask slotEq presented⟩, fun answer mem => ?_, fun value' there => ?_⟩
        · exact held.unanswered answer ((List.mem_cons.mp mem).resolve_left fun same => by cases same)
        · simp only [entry, if_true]
          exact set.symm.trans there
      · have heldThere := inv.held other given there
        have different : id ≠ given := by
          rintro rfl
          exact ne (heldThere.slot_unique inv.fits held)
        refine (heldThere.of_agree (agree other ne)).cons (fun _ same => by cases same) ?_
        simp only [entry, different, if_false]
    · exact inv.kept given (unanswered_before (fun _ same => by cases same) unanswered)

theorem Inv.setTextValue (inv : Inv s) (value : String) : Inv (s.setTextValue value) := by
  unfold State.setTextValue
  split_ifs
  · exact inv
  · refine inv.enters .text value _ (fun other ne => ?_) (fun ask slot presents => ?_) rfl
    · cases other with
      | text => exact absurd rfl ne
      | editor | confirm | option => rfl
    · cases ask with
      | text => exact presents
      | editor | confirm | option => cases slot

theorem Inv.setEditorValue (inv : Inv s) (value : String) : Inv (s.setEditorValue value) := by
  unfold State.setEditorValue
  split_ifs
  · exact inv
  · refine inv.enters .editor value _ (fun other ne => ?_) (fun ask slot presents => ?_) rfl
    · cases other with
      | editor => exact absurd rfl ne
      | text | confirm | option => rfl
    · cases ask with
      | editor => exact presents
      | text | confirm | option => cases slot

theorem Inv.setOption (inv : Inv s) (change : OptionPicker → OptionPicker)
    (same : ∀ picker, change picker = { picker with query := (change picker).query, active := (change picker).active }) :
    Inv (s.setOption change) := by
  unfold State.setOption
  split_ifs
  · exact inv
  · refine ⟨inv.fits, inv.numbered, inv.presented, fun slot id here => ?_, inv.kept⟩
    have held := inv.held slot id here
    cases slot with
    | text | editor | confirm => exact held.of_agree rfl
    | option =>
      obtain ⟨ask, asked, slotEq, presents⟩ := held.asked
      refine ⟨⟨ask, asked, slotEq, ?_⟩, held.unanswered, fun _ there => by cases there⟩
      cases ask with
      | text | editor | confirm => cases slotEq
      | option title options searchable selected disabled variant placeholder =>
        simp only [Prompts.Presents] at presents ⊢
        rw [same s.prompts.option]
        rw [presents]

theorem Inv.teardown (inv : Inv s) : Inv s.teardown := by
  unfold State.teardown
  split_ifs
  · exact inv
  · have settled := (((inv.cancel .text).cancel .editor).cancel .confirm).cancel .option
    have free : ∀ slot, ((((s.settle .text (.value none)).settle .editor (.value none)).settle .confirm (.confirmed false)).settle .option
        (.chosen none)).pending slot = none := by
      intro slot
      simp only [settle_eq, State.release, State.put]
      cases slot <;> rfl
    refine ⟨settled.fits, settled.numbered, settled.presented, fun slot id here => ?_, settled.kept⟩
    cases (free slot).symm.trans here

variable {t : State} {action : Action}

theorem inv_step (h : step s action = some t) (inv : Inv s) : Inv t := by
  cases action with
  | opens ask =>
    cases h
    exact inv.opens ask
  | extensionUi request =>
    cases h
    cases request.ask with
    | none => exact inv
    | some ask => exact inv.opens ask
  | setTextValue value =>
    cases h
    exact inv.setTextValue value
  | setEditorValue value =>
    cases h
    exact inv.setEditorValue value
  | submitText =>
    cases h
    exact inv.submit .text _ fun value same => by cases same; rfl
  | submitEditor =>
    cases h
    exact inv.submit .editor _ fun value same => by cases same; rfl
  | cancelText =>
    cases h
    exact inv.cancel .text
  | cancelEditor =>
    cases h
    exact inv.cancel .editor
  | cancelOption =>
    cases h
    exact inv.cancel .option
  | answerConfirm answer =>
    cases h
    exact inv.submit .confirm _ fun value same => by cases same
  | chooseOption index =>
    cases h
    simp only [State.chooseOption]
    split_ifs
    · exact inv
    · exact inv.submit .option _ fun value same => by cases same
  | setOptionQuery query =>
    cases h
    exact inv.setOption _ fun _ => rfl
  | setOptionActive active =>
    cases h
    exact inv.setOption _ fun _ => rfl
  | openModal | updateTitle | closeModal =>
    cases h
    exact inv.modal _
  | teardown =>
    cases h
    exact inv.teardown

def InView (s : State) : Prop := ∀ slot id, s.pending slot = some id → s.modal.isOpen = true ∧ s.modal.content = some (.dialog slot)

theorem InView.settle (view : InView s) (slot : Slot) (answer : Answer) : InView (s.settle slot answer) := by
  rw [settle_eq]
  intro other id here
  rcases eq_or_ne other slot with rfl | ne
  · cases (Function.update_self _ _ _).symm.trans here
  · have there : s.pending other = some id := (Function.update_of_ne ne _ _).symm.trans here
    cases pending : s.pending slot with
    | none => exact view other id there
    | some given =>
      -- two pending requests would both be shown
      have same := Option.some.inj ((view other id there).2.symm.trans (view slot given pending).2)
      exact absurd (Content.dialog.inj same) ne

theorem submits_fixed (s : State) (slot : Slot) (answer : Answer) :
    (s.submits slot answer).pending = s.pending ∧ (s.submits slot answer).modal = s.modal := by
  unfold State.submits
  cases s.presented slot <;> exact ⟨rfl, rfl⟩

theorem InView.submit (view : InView s) (slot : Slot) (answer : Answer) : InView (s.submit slot answer) := by
  refine InView.settle (fun other id here => ?_) slot answer
  obtain ⟨pending, modal⟩ := submits_fixed s slot answer
  rw [modal]
  exact view other id (pending ▸ here)

theorem InView.enters (view : InView s) (slot : Slot) (value : String) (prompts : Prompts) :
    InView { s.enters slot value with prompts := prompts } := by
  unfold State.enters
  cases s.presented slot <;> exact view

theorem displace_pending (s : State) (slot : Slot) : (s.displace slot).pending = s.pending := by
  unfold State.displace
  cases s.pending slot <;> rfl

theorem InView.opens (view : InView s) (ask : Ask) (alone : ∀ slot, slot ≠ ask.slot → s.pending slot = none) :
    InView (s.opens ask) := by
  unfold State.opens
  split_ifs
  · exact view
  · intro slot id here
    rcases eq_or_ne slot ask.slot with rfl | ne
    · exact ⟨rfl, rfl⟩
    · have there : (s.displace ask.slot).pending slot = some id := (Function.update_of_ne ne _ _).symm.trans here
      rw [displace_pending, alone slot ne] at there
      cases there

theorem view_step (h : step s action = some t) (undisturbed : Undisturbed s action) (view : InView s) : InView t := by
  cases action with
  | opens ask =>
    cases h
    exact view.opens ask undisturbed
  | extensionUi request =>
    cases h
    cases asked : request.ask with
    | none => exact view
    | some ask => exact view.opens ask (undisturbed ask asked)
  | setTextValue value =>
    cases h
    simp only [State.setTextValue]
    split_ifs
    · exact view
    · exact view.enters .text value _
  | setEditorValue value =>
    cases h
    simp only [State.setEditorValue]
    split_ifs
    · exact view
    · exact view.enters .editor value _
  | submitText | submitEditor | answerConfirm =>
    cases h
    exact view.submit _ _
  | cancelText | cancelEditor | cancelOption =>
    cases h
    exact view.settle _ _
  | chooseOption index =>
    cases h
    simp only [State.chooseOption]
    split_ifs
    · exact view
    · exact view.submit _ _
  | setOptionQuery | setOptionActive =>
    cases h
    simp only [State.setOption]
    split_ifs <;> exact view
  | updateTitle =>
    cases h
    exact view
  | openModal | closeModal =>
    cases h
    intro slot id here
    cases (undisturbed slot).symm.trans here
  | teardown =>
    cases h
    simp only [State.teardown]
    split_ifs
    · exact view
    · exact (((view.settle .text _).settle .editor _).settle .confirm _).settle .option _

/-- While dialogs of different kinds do not meet and other features leave the modal to a pending request,
every request without an answer is shown, and each is answered once, as it may be. -/
theorem dialogs_answerable {s : State} {actions : List Action} (run : Run step Undisturbed mounted actions s) : Answerable s := by
  have preserved : ∀ s a t, Inv s ∧ InView s → Undisturbed s a → step s a = some t → Inv t ∧ InView t :=
    fun _ _ _ both undisturbed h => ⟨inv_step h both.1, view_step h undisturbed both.2⟩
  have both : Inv s ∧ InView s := run.invariant preserved ⟨inv_mounted, fun _ _ absent => by cases absent⟩
  obtain ⟨inv, view⟩ := both
  refine ⟨fun id unanswered => ?_, inv.fits⟩
  obtain ⟨slot, pending⟩ := inv.kept id unanswered
  obtain ⟨isOpen, content⟩ := view slot id pending
  obtain ⟨ask, asked, rfl, presents⟩ := (inv.held slot id pending).asked
  exact ⟨isOpen, ask, asked, content, inv.presented ▸ pending, presents⟩

def idle (s : State) (slot : Option Slot) : Bool :=
  [Slot.text, .editor, .confirm, .option].all fun other => some other = slot || (s.pending other).isNone

theorem idle_sound {s : State} {slot : Option Slot} (h : idle s slot = true) (other : Slot) (ne : some other ≠ slot) :
    s.pending other = none := by
  have listed : other ∈ [Slot.text, .editor, .confirm, .option] := by cases other <;> decide
  have here := List.all_eq_true.mp h other listed
  simpa [ne] using here

/-- Whether a step meets `Undisturbed`. -/
def undisturbed (s : State) : Action → Bool
  | .opens ask => idle s (some ask.slot)
  | .extensionUi request => request.ask.all fun ask => idle s (some ask.slot)
  | .openModal .. | .closeModal => idle s none
  | _ => true

theorem undisturbed_sound (s : State) (action : Action) (h : undisturbed s action = true) : Undisturbed s action := by
  cases action with
  | opens ask => exact fun slot ne => idle_sound h slot fun same => ne (Option.some.inj same)
  | extensionUi request =>
    intro ask asked slot ne
    have here : idle s (some ask.slot) = true := by simpa [undisturbed, asked] using h
    exact idle_sound here slot fun same => ne (Option.some.inj same)
  | openModal | closeModal => exact fun slot => idle_sound h slot fun same => by cases same
  | setTextValue | submitText | cancelText | setEditorValue | submitEditor | cancelEditor | answerConfirm | setOptionQuery
  | setOptionActive | chooseOption | cancelOption | updateTitle | teardown => trivial

/-- An agent's request displaces a dialog of its kind and is answered; the settings are opened and give way to a confirmation. -/
def oneAfterAnother : List Action :=
  [.opens (.text "Name this session" "" "draft" false), .setTextValue "review", .extensionUi (.input "Branch" "main" false),
    .setTextValue "fix", .submitText, .openModal "Settings" false .settings, .extensionUi (.confirm "Push?" "to origin"),
    .answerConfirm true, .closeModal]

theorem dialogs_answerable_oneAfterAnother :
    ∃ s, Run step Undisturbed mounted oneAfterAnother s ∧ Event.answered 0 (.value none) ∈ s.log ∧
      Event.answered 1 (.value (some "fix")) ∈ s.log ∧ Answerable s := by
  have checked : ((execIf step undisturbed mounted oneAfterAnother).any fun s =>
      decide (Event.answered 0 (.value none) ∈ s.log ∧ Event.answered 1 (.value (some "fix")) ∈ s.log)) = true := by decide +kernel
  obtain ⟨s, ran, ended⟩ := (Option.any_eq_true _ _).mp checked
  have run := run_of_execIf undisturbed_sound ran
  obtain ⟨displaced, submitted⟩ := of_decide_eq_true ended
  exact ⟨s, run, displaced, submitted, dialogs_answerable run⟩

/-- A confirmation of the user interface takes the modal from an agent's request, and its answer closes it. -/
def confirmMeetsInput : List Action :=
  [.extensionUi (.input "Branch" "main" false), .opens (.confirm "Run the command?" "/deploy"), .answerConfirm true]

theorem agent_request_stranded : ∃ s, Run step Free mounted confirmMeetsInput s ∧ ¬Answerable s := by
  have checked : ((exec step mounted confirmMeetsInput).any fun s =>
      decide (s.modal = closedModal ∧ s.log = [.answered 1 (.confirmed true), .submitted 1 (.confirmed true),
        .asked 1 (.confirm "Run the command?" "/deploy"), .asked 0 (.text "Branch" "main" "" false)])) = true := by decide +kernel
  obtain ⟨s, ran, ended⟩ := (Option.any_eq_true _ _).mp checked
  obtain ⟨closed, log⟩ := of_decide_eq_true ended
  refine ⟨s, run_of_exec ran, fun answerable => ?_⟩
  have unanswered : Unanswered s.log 0 := by
    rw [log]
    exact ⟨⟨.text "Branch" "main" "" false, by simp⟩, by simp⟩
  obtain ⟨isOpen, _⟩ := answerable.1 0 unanswered
  rw [closed] at isOpen
  cases isOpen

end Dialogs
