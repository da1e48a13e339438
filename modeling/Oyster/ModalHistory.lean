import Oyster.Interleaving

/-! The history entry that stands for an open modal, so that Back dismisses the modal instead of
leaving the application. -/
namespace ModalHistory
open Interleaving

/-- What the modal does when it is to be cancelled: it may have no button for that. -/
inductive Answer where
  | closes | chains | ignores
  deriving DecidableEq

/-- `depth` counts the entries behind the one the application was loaded in, `traversals` those asked for
that have not come about. `ignored` is history: the open modal has ignored a Back. -/
structure State where
  isOpen : Bool := false
  previousOpen : Bool := false
  markerActive : Bool := false
  unwinding : Bool := false
  depth : Nat := 0
  traversals : Nat := 0
  ignored : Bool := false
  left : Bool := false

def State.pushMarker (s : State) : State := { s with depth := s.depth + 1, markerActive := true }

/-- `modalState` is set, and its subscriber called. -/
def State.set (s : State) (isOpen : Bool) : State :=
  let t :=
    if isOpen && !s.previousOpen then if s.unwinding then s else s.pushMarker
    else if !isOpen && s.previousOpen && s.markerActive then
      { s with markerActive := false, unwinding := true, traversals := s.traversals + 1 }
    else s
  { t with isOpen, previousOpen := isOpen, ignored := s.ignored && isOpen }

def State.onPopState (s : State) (answer : Answer) : State :=
  if s.unwinding then
    let t := { s with unwinding := false }
    if s.isOpen then t.pushMarker else t
  else if !s.markerActive || !s.isOpen then s
  else
    let t := { s with markerActive := false }
    match answer with
    | .closes => t.set false
    | .chains => (t.set false).set true
    | .ignores => { t with ignored := true }

inductive Action where
  | set (isOpen : Bool)
  | back
  | traversed (answer : Answer)

def step (s : State) : Action → Option State
  | .set isOpen => if s.left then none else some (s.set isOpen)
  | .back => if s.left then none else some { s with traversals := s.traversals + 1 }
  | .traversed answer =>
    if s.left ∨ s.traversals = 0 then none
    else
      let t := { s with traversals := s.traversals - 1 }
      if s.depth = 0 then some { t with left := true }
      else some ({ t with depth := s.depth - 1 }.onPopState answer)

structure Inv (s : State) : Prop where
  previous : s.previousOpen = s.isOpen
  marker : s.markerActive = (s.isOpen && !s.ignored && !s.unwinding)
  depth : s.depth = s.markerActive.toNat + s.unwinding.toNat
  ignored : (s.ignored && (!s.isOpen || s.unwinding)) = false
  traversals : s.unwinding.toNat ≤ s.traversals

variable {s t : State}

theorem Inv.set (inv : Inv s) (isOpen : Bool) : Inv (s.set isOpen) := by
  rcases s with ⟨now, previous, marker, unwinding, depth, traversals, ignored, left⟩
  rcases inv with ⟨same, marked, deep, alone, under⟩
  dsimp only at same marked deep alone under
  subst same marked deep
  cases isOpen <;> cases previous <;> cases unwinding <;> cases ignored <;> try cases alone
  all_goals exact ⟨rfl, rfl, rfl, rfl, by first | exact under | exact Nat.zero_le _ | exact Nat.le_add_left ..⟩

theorem Inv.onPopState (inv : Inv s) (deep : s.depth ≠ 0) (answer : Answer) :
    Inv ({ s with traversals := s.traversals - 1, depth := s.depth - 1 }.onPopState answer) := by
  rcases s with ⟨now, previous, marker, unwinding, depth, traversals, ignored, left⟩
  rcases inv with ⟨same, marked, counted, alone, under⟩
  dsimp only at same marked counted alone under deep
  subst same marked counted
  cases previous <;> cases unwinding <;> cases ignored <;> try cases alone
  all_goals first | exact absurd rfl deep | cases answer
  all_goals exact ⟨rfl, rfl, rfl, rfl, Nat.zero_le _⟩

theorem inv_step (s : State) (action : Action) (t : State) (inv : Inv s) (_ : Free s action)
    (taken : step s action = some t) : Inv t := by
  cases action with
  | set isOpen =>
    obtain ⟨_, taken⟩ := Option.ite_none_left_eq_some.mp taken
    cases taken
    exact inv.set isOpen
  | back =>
    obtain ⟨_, taken⟩ := Option.ite_none_left_eq_some.mp taken
    cases taken
    exact ⟨inv.previous, inv.marker, inv.depth, inv.ignored, Nat.le_succ_of_le inv.traversals⟩
  | traversed answer =>
    obtain ⟨_, taken⟩ := Option.ite_none_left_eq_some.mp taken
    by_cases deep : s.depth = 0
    · have single : s.unwinding = false := by
        have counted := inv.depth
        cases unwinding : s.unwinding with
        | false => rfl
        | true => simp [deep, unwinding] at counted
      rw [if_pos deep] at taken
      cases taken
      exact ⟨inv.previous, inv.marker, inv.depth, inv.ignored, single ▸ Nat.zero_le _⟩
    · rw [if_neg deep] at taken
      cases taken
      exact inv.onPopState deep answer

/-- Whenever no traversal is under way, there is an entry for the modal that is open, unless it has ignored
a Back, and no other. So a Back closes the modal and stays in the application, and leaves it where no modal
is open. -/
theorem back_closes_modal (actions : List Action) (s : State) (run : Run step Free {} actions s)
    (rest : s.traversals = 0) (here : s.left = false) :
    s.depth = (s.isOpen && !s.ignored).toNat ∧
      ((s.isOpen && !s.ignored) = true → ∃ t u, step s .back = some t ∧ step t (.traversed .closes) = some u ∧
        u.isOpen = false ∧ u.left = false ∧ u.depth = 0 ∧ u.traversals = 0) ∧
      (s.isOpen = false → ∃ t u, step s .back = some t ∧ step t (.traversed .closes) = some u ∧ u.left = true) := by
  have inv : Inv s := run.invariant inv_step ⟨rfl, rfl, rfl, rfl, Nat.le_refl _⟩
  rcases s with ⟨now, previous, marker, unwinding, depth, traversals, ignored, left⟩
  rcases inv with ⟨same, marked, deep, alone, under⟩
  dsimp only at same marked deep alone under rest here
  subst same marked deep rest here
  cases unwinding with
  | true => exact absurd under (by decide)
  | false =>
    cases previous <;> cases ignored <;>
      exact ⟨rfl, fun _ => ⟨_, _, rfl, rfl, by trivial⟩, fun _ => ⟨_, _, rfl, rfl, by trivial⟩⟩

/-- The modal is replaced while the entry of the first one is being taken back. -/
theorem back_closes_modal_chained : ∃ s, Run step Free {} [.set true, .set false, .set true, .traversed .closes] s ∧ s.depth = 1 := by
  have ran : Run step Free {} [.set true, .set false, .set true, .traversed .closes]
      { isOpen := true, previousOpen := true, markerActive := true, depth := 1 } := run_of_exec rfl
  exact ⟨_, ran, (back_closes_modal _ _ ran rfl rfl).1⟩

end ModalHistory
