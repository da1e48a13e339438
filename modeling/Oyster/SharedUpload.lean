import Oyster.FileUpload

/-! Two uploads to one directory and name. Both clients send their chunks through the same
partial file, and a chunk is admitted by the size of that file. -/
namespace SharedUpload
open Interleaving FileUpload

inductive Client where
  | first | second
  deriving DecidableEq

variable {β : Type*} [DecidableEq β]

/-- `confirmed` counts for each client the chunks that have been answered with success in
order; `answer` is the last answer of the server. -/
structure State (β : Type*) where
  dir : Directory β
  confirmed : Client → Nat := fun _ => 0
  answer : Option Response := none

inductive Action where
  | send (client : Client) (i : Nat) (faults : Faults)
  | lose (tmp : Partial)

/-- A client sends its first chunk that is not confirmed or repeats an earlier one, also the
first, with which it starts anew. A partial file can disappear between two requests. -/
def step (chunks : Client → List (List β)) (s : State β) : Action → Option (State β)
  | .send client i faults =>
    if i ≤ s.confirmed client ∧ i < (chunks client).length then
      let result := fileUpload s.dir faults (chunkRequest (chunks client) i)
      some {
        dir := result.1
        confirmed :=
          if i = s.confirmed client ∧ result.2.status = 200 then Function.update s.confirmed client (i + 1)
          else s.confirmed
        answer := some result.2 }
    else none
  | .lose tmp => some { s with dir := s.dir.write none tmp }

/-- The file that a final chunk completes: a partial that fits by its size and its last bytes,
or the existing target when there is no partial. -/
def Completes (dir : Directory β) (faults : Faults) (request : Request β) (content : List β) : Prop :=
  let tmp := uploadTempPath dir faults request.offset
  statPartial dir faults tmp = some content ∧ Fits request content ∨
    dir.target = some content ∧ TakesTarget dir faults tmp request

/-- When the last answer reports an upload as saved, the target is one of the two uploads. -/
def Truthful (chunks : Client → List (List β)) (s : State β) : Prop :=
  ∀ status bytes, s.answer = some ⟨status, .saved bytes⟩ → ∃ owner, s.dir.target = some (chunks owner).flatten

section Requests
variable {dir next : Directory β} {faults : Faults} {tmp : Partial} {request : Request β} {content whole : List β}

omit [DecidableEq β] in
theorem Fits.long (h : Fits request content) : request.offset ≤ content.length := by
  obtain size | ⟨size, _⟩ := h
  · exact Nat.le_of_eq size.symm
  · exact size ▸ Nat.le_add_right _ _

theorem TakesTarget.spec (h : TakesTarget dir faults tmp request) (present : dir.target = some content) :
    content.length = request.offset + request.buf.length ∧ content = content.take request.offset ++ request.buf := by
  obtain ⟨_, _, range⟩ := h
  rw [present] at range
  obtain ⟨size, _, tail⟩ := fileRangeEquals_spec range
  exact ⟨(size _ rfl).symm, eq_take_append_of_range (size _ rfl).symm tail⟩

theorem Completes.long (h : Completes dir faults request content) : request.offset ≤ content.length := by
  obtain ⟨_, fits⟩ | ⟨present, taken⟩ := h
  · exact Fits.long fits
  · exact (TakesTarget.spec taken present).1 ▸ Nat.le_add_right _ _

theorem Completes.unique {other : List β} (h : Completes dir faults request content)
    (h' : Completes dir faults request other) : content = other := by
  obtain ⟨stat, _⟩ | ⟨present, taken⟩ := h
  · obtain ⟨stat', _⟩ | ⟨_, taken'⟩ := h'
    · exact Option.some.inj (stat.symm.trans stat')
    · cases stat.symm.trans taken'.2.1
  · obtain ⟨stat', _⟩ | ⟨present', _⟩ := h'
    · cases stat'.symm.trans taken.2.1
    · exact Option.some.inj (present.symm.trans present')

variable {status bytes : Nat}

end Requests

section Runs
variable {chunks : Client → List (List β)} {s t : State β} {client : Client} {i : Nat} {faults : Faults}

theorem step_send (h : step chunks s (.send client i faults) = some t) :
    t.dir = (fileUpload s.dir faults (chunkRequest (chunks client) i)).1 ∧
      t.answer = some (fileUpload s.dir faults (chunkRequest (chunks client) i)).2 := by
  obtain ⟨_, same⟩ := Option.ite_none_right_eq_some.mp h
  cases same
  exact ⟨rfl, rfl⟩

end Runs

end SharedUpload
