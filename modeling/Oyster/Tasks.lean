/-! Tasks that may throw, on a state of any type, and a logic for what they leave of it: where a task returns, and where it throws. -/
namespace Tasks

/-- What is changed before something is thrown stays changed. -/
abbrev Task (σ α : Type) := ExceptT String (StateM σ) α

variable {σ α β : Type} {P S : σ → Prop} {Q : α → σ → Prop}

def Ends (Q : α → σ → Prop) (S : σ → Prop) : Except String α × σ → Prop
  | (.ok a, t) => Q a t
  | (.error _, t) => S t

/-- From a state with `P` the task returns in one with `Q`, or throws in one with `S`. -/
def Triple (P : σ → Prop) (task : Task σ α) (Q : α → σ → Prop) (S : σ → Prop) : Prop := ∀ s, P s → Ends Q S (task.run.run s)

theorem Triple.throw (weaker : ∀ s, P s → S s) (error : String) : Triple P (throw error : Task σ α) Q S := weaker

theorem Triple.pure (a : α) (weaker : ∀ s, P s → Q a s) : Triple P (pure a : Task σ α) Q S := weaker

theorem Triple.modify {f : σ → σ} {Q : σ → Prop} (changes : ∀ s, P s → Q (f s)) :
    Triple P (modify f : Task σ PUnit) (fun _ => Q) S := changes

theorem Triple.bind {task : Task σ α} {next : α → Task σ β} {Q' : β → σ → Prop} (first : Triple P task Q S)
    (later : ∀ a, Triple (Q a) (next a) Q' S) : Triple P (task >>= next) Q' S := by
  intro s before
  have here := first s before
  show Ends Q' S ((ExceptT.bindCont next (task.run.run s).1).run (task.run.run s).2)
  match task.run.run s, here with
  | (.ok a, t), here => exact later a t here
  | (.error _, _), here => exact here

theorem Triple.imp {P' : σ → Prop} {task : Task σ α} {Q' : α → σ → Prop} (h : Triple P task Q S) (pre : ∀ s, P' s → P s)
    (post : ∀ a s, Q a s → Q' a s) : Triple P' task Q' S := by
  intro s before
  match task.run.run s, h s (pre s before) with
  | (.ok a, t), here => exact post a t here
  | (.error _, _), here => exact here

/-- The assertion tells which elements have been treated. -/
theorem Triple.forM {Q : List α → σ → Prop} {each : α → Task σ PUnit}
    (h : ∀ done a, Triple (Q done) (each a) (fun _ => Q (done ++ [a])) S) (list done : List α) :
    Triple (Q done) (list.forM each) (fun _ => Q (done ++ list)) S := by
  induction list generalizing done with
  | nil => exact .pure _ fun s before => (List.append_nil done).symm ▸ before
  | cons a rest ih => exact .bind (h done a) fun _ => List.append_cons done a rest ▸ ih (done ++ [a])

theorem Triple.mapM {each : α → Task σ β} (h : ∀ a, Triple P (each a) (fun _ => P) S) (list : List α) :
    Triple P (list.mapM each) (fun _ => P) S := by
  induction list with
  | nil => exact .pure _ fun _ => id
  | cons a rest ih =>
    rw [List.mapM_cons]
    exact .bind (h a) fun _ => .bind ih fun _ => .pure _ fun _ => id

end Tasks
