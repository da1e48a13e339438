import Oyster.TranscriptPages

/-! The whole transcript, read by a client that asks for the newest page and then for the page before
the cursor it was given, until it is given none. -/
namespace TranscriptView
open Slices

/-- What `Number` makes of a query parameter; `none` is anything but an integer. -/
abbrev Parameter := Option Int

structure PageRequest where
  limit : Option Nat
  before : Option Nat

def maxPageSize : Nat := 200

def parseTranscriptPage (limit before : Option Parameter) : Option PageRequest :=
  if (limit.any fun limit => limit.all fun n => n < 1 || (maxPageSize : Int) < n) ||
      (before.any fun before => before.all fun n => n < 0) then none
  else some ⟨limit.map fun limit => (limit.getD 0).toNat, before.map fun before => (before.getD 0).toNat⟩

inductive Answer where
  | invalidPage
  | transcript (messages : List Message)
  | page (page : Page)

/-- `GET /session-messages`, for the messages that the catalog reads. -/
def sessionMessages (messages : List Message) (limit before : Option Parameter) : Answer :=
  match parseTranscriptPage limit before with
  | none => .invalidPage
  | some request =>
    match request.limit with
    | none => .transcript messages
    | some limit => .page (transcriptPage messages limit request.before)

variable {limit : Nat}

theorem sessionMessages_page (messages : List Message) (positive : 0 < limit) (small : limit ≤ maxPageSize)
    (before : Option Nat) :
    sessionMessages messages (some (some limit)) (before.map fun cursor => some (cursor : Int)) =
      .page (transcriptPage messages limit before) := by
  have accepted : parseTranscriptPage (some (some limit)) (before.map fun cursor => some (cursor : Int)) =
      some ⟨some limit, before⟩ := by
    unfold parseTranscriptPage
    rw [if_neg]
    · cases before <;> rfl
    · have bounded : ¬ ((limit : Int) < 1 ∨ (maxPageSize : Int) < limit) := by omega
      cases before <;> simpa using bounded
  rw [sessionMessages, accepted]

/-- The pages from a cursor on, the newest first; `none` when the requests run out. -/
def walk (messages : List Message) (limit : Nat) : Nat → Option Nat → Option (List Page)
  | 0, _ => none
  | requests + 1, before =>
    let page := transcriptPage messages limit before
    match page.before with
    | none => some [page]
    | some cursor => (walk messages limit requests (some cursor)).map fun pages => page :: pages

variable {messages : List Message}

theorem turnStart_user {start : Nat} (inside : 0 < turnStart messages start) :
    (messages[turnStart messages start]?.any fun message => message.role = "user") = true := by
  induction start with
  | zero => exact absurd inside (Nat.lt_irrefl 0)
  | succ start ih =>
    rw [turnStart] at inside ⊢
    split_ifs at inside ⊢ with user
    · exact user
    · exact ih inside

variable {before : Option Nat}

theorem transcriptPage_start {cursor : Nat} (more : (transcriptPage messages limit before).before = some cursor) :
    (messages[cursor]?.any fun message => message.role = "user") = true ∧
      cursor + limit ≤ min (before.getD messages.length) messages.length := by
  unfold transcriptPage at more
  dsimp only at more
  generalize min (before.getD messages.length) messages.length = last at more ⊢
  have bound := turnStart_le messages (last - limit)
  split_ifs at more with further inside inside
  · cases more
    have back := turnStart_le messages (turnStart messages (last - limit) - 1)
    exact ⟨turnStart_user inside, by omega⟩
  · cases more
    exact ⟨turnStart_user inside, by omega⟩

theorem head?_slice {first last : Nat} (inside : first < last) :
    (slice messages first last).head? = messages[first]? := by
  rw [slice, List.head?_take, if_neg (by omega), List.head?_drop]

/-- What a client reads that walks to the beginning. -/
structure Reconstructs (messages : List Message) (limit last : Nat) (pages : List Page) : Prop where
  whole : (pages.reverse.map Page.messages).flatten = messages.take last
  oldest : ∃ page, pages.getLast? = some page ∧ page.before = none
  front : ∀ page ∈ pages.dropLast, (page.messages.head?.any fun message => message.role = "user") = true ∧
    limit ≤ page.messages.length

theorem walk_more {requests : Nat} {pages : List Page} (walked : walk messages limit requests before = some pages)
    (more : Nat) : walk messages limit (requests + more) before = some pages := by
  induction requests generalizing before pages with
  | zero => cases walked
  | succ requests ih =>
    rw [Nat.add_right_comm, walk]
    rw [walk] at walked
    cases cursor : (transcriptPage messages limit before).before with
    | none =>
      rw [cursor] at walked
      exact walked
    | some first =>
      rw [cursor] at walked
      obtain ⟨rest, later, rfl⟩ := Option.map_eq_some_iff.mp walked
      dsimp only
      rw [ih later]
      rfl

theorem walk_from (messages : List Message) (positive : 0 < limit) {requests last : Nat}
    (here : min (before.getD messages.length) messages.length = last) (enough : last < requests) :
    ∃ pages, walk messages limit requests before = some pages ∧ Reconstructs messages limit last pages := by
  induction requests generalizing before last with
  | zero => exact absurd enough (Nat.not_lt_zero _)
  | succ requests ih =>
    obtain ⟨first, at', _⟩ := transcriptPage_at messages limit positive before
    rw [here] at at'
    have within : last ≤ messages.length := here ▸ Nat.min_le_right _ _
    rw [walk]
    cases cursor : (transcriptPage messages limit before).before with
    | none =>
      have start : first = 0 := by
        have none := at'.before.symm.trans cursor
        unfold cursorOf at none
        split_ifs at none
        omega
      refine ⟨_, rfl, ?_, ⟨_, rfl, cursor⟩, fun _ mem => nomatch mem⟩
      simp only [List.reverse_singleton, List.map_cons, List.map_nil, List.flatten_cons, List.flatten_nil,
        List.append_nil]
      rw [at'.messages, start]
      rfl
    | some cursor' =>
      obtain ⟨user, size⟩ := transcriptPage_start cursor
      have same : first = cursor' := by
        have some := at'.before.symm.trans cursor
        unfold cursorOf at some
        split_ifs at some
        exact Option.some.inj some
      subst same
      have next : min ((some first).getD messages.length) messages.length = first := by
        rw [Option.getD_some]
        omega
      obtain ⟨pages, walked, rest⟩ := ih next (by omega)
      obtain ⟨oldest, isLast, ended⟩ := rest.oldest
      have nonempty : pages ≠ [] := by
        rintro rfl
        cases isLast
      have front : ∀ page ∈ (transcriptPage messages limit before :: pages).dropLast,
          page = transcriptPage messages limit before ∨ page ∈ pages.dropLast := by
        intro page mem
        rw [List.dropLast_cons_of_ne_nil nonempty] at mem
        exact List.mem_cons.mp mem
      refine ⟨transcriptPage messages limit before :: pages, ?_, ?_, ⟨oldest, ?_, ended⟩, ?_⟩
      · dsimp only
        rw [walked]
        rfl
      · calc ((transcriptPage messages limit before :: pages).reverse.map Page.messages).flatten
          _ = (pages.reverse.map Page.messages).flatten ++ (transcriptPage messages limit before).messages := by
              simp only [List.reverse_cons, List.map_append, List.flatten_append, List.map_cons, List.map_nil,
                List.flatten_cons, List.flatten_nil, List.append_nil]
          _ = slice messages 0 first ++ slice messages first last := by rw [rest.whole, at'.messages]; rfl
          _ = slice messages 0 last := slice_append messages (Nat.zero_le _) at'.le
          _ = messages.take last := rfl
      · rw [List.getLast?_cons, isLast]
        rfl
      · intro page mem
        rcases front page mem with rfl | mem
        · rw [at'.messages, head?_slice (by omega), length_slice within]
          exact ⟨user, by omega⟩
        · exact rest.front page mem

/-- With any page size the walk ends, its pages are the transcript, and only the oldest may begin elsewhere
than with the user or be shorter; the route answers every size within its bounds with these pages. -/
theorem pages_reconstruct (messages : List Message) (limit : Nat) (positive : 0 < limit) :
    (∃ pages, (∀ requests, messages.length < requests → walk messages limit requests none = some pages) ∧
      (pages.reverse.map Page.messages).flatten = messages ∧
      ∀ page ∈ pages.dropLast, (page.messages.head?.any fun message => message.role = "user") = true ∧
        limit ≤ page.messages.length) ∧
    (limit ≤ maxPageSize → ∀ before : Option Nat,
      sessionMessages messages (some (some limit)) (before.map fun cursor => some (cursor : Int)) =
        .page (transcriptPage messages limit before)) := by
  have here : min ((none : Option Nat).getD messages.length) messages.length = messages.length := Nat.min_self _
  obtain ⟨pages, walked, reconstructs⟩ := walk_from messages positive here (Nat.lt_succ_self _)
  refine ⟨⟨pages, fun requests enough => ?_, ?_, reconstructs.front⟩,
    fun small before => sessionMessages_page messages positive small before⟩
  · obtain ⟨more, rfl⟩ := Nat.exists_eq_add_of_lt enough
    rw [show messages.length + more + 1 = messages.length + 1 + more by omega]
    exact walk_more walked more
  · exact reconstructs.whole.trans (List.take_length ..)

def longRun : List Message :=
  ["user", "assistant", "assistant", "assistant", "user", "assistant"].map fun role => ⟨role, "", "", "", none⟩

theorem pages_reconstruct_longRun :
    ∃ pages, walk longRun 2 7 none = some pages ∧ (pages.reverse.map Page.messages).flatten = longRun ∧
      sessionMessages longRun (some (some 2)) none = .page (transcriptPage longRun 2 none) := by
  obtain ⟨⟨pages, walked, whole, _⟩, answered⟩ := pages_reconstruct longRun 2 (by decide)
  exact ⟨pages, walked 7 (by decide), whole, answered (by decide) none⟩

example : (walk longRun 2 7 none).map (·.map fun page => (page.messages.length, page.before)) =
    some [(2, some 4), (4, none)] := by decide

end TranscriptView
