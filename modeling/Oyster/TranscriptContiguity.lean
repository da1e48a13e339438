import Oyster.TranscriptFlight
import Mathlib.Algebra.GroupWithZero.Nat

/-! When the messages that the browser shows are a contiguous part of the history whose past can be loaded. -/
namespace TranscriptView
open Interleaving Slices

variable {s t : State} {first last i : Nat}

/-- A `loadEarlier` that nothing interrupts. -/
def loading (chunks : Nat) : List Action :=
  .loadEarlier :: .earlierServed :: .earlierArrives :: (List.replicate chunks .earlierChunk ++ [.earlierComplete])

/-- When nothing is in flight, the messages shown end where the last completed reload did, and the next `loadEarlier`
puts the messages directly before them in front. -/
def Contiguous (s : State) : Prop :=
  s.earlier = none → (∀ i, s.reloads i = none) →
    ∃ first, first ≤ s.last ∧ s.last ≤ s.history.length ∧ s.rendered = slice s.history first s.last ∧
      (first = 0 ∨ ∃ start chunks t, start < first ∧ Run step Free s (loading chunks) t ∧
        t.rendered = slice s.history start first ++ s.rendered)

def Reload.waits : Reload → Bool
  | .rendering .. => false
  | _ => true

/-- The last reload has yet to render. -/
def State.awaits (s : State) : Bool := (s.reloads s.latestJob).any Reload.waits

/-- Unless the last reload has yet to render and sets everything anew: a superseded reload brings no other cursor, and an
earlier page comes for the cursor that is stored and when the last reload has rendered all of its turns. And the last reload
renders what its cursor is for: a snapshot that is merged comes with a page from the first message on and is not mistaken
for more of the page than it shares. -/
def Orderly (s : State) : Action → Prop
  | .durableArrives i =>
    i = s.latestJob ∨ s.awaits = true ∨
      ∀ streaming page, s.reloads i = some (.durable streaming (some page)) → page.before = s.historyCursor
  | .liveArrives i =>
    if i = s.latestJob then
      s.merges = true → ∀ page messages last, s.reloads i = some (.live page (some (messages, last))) →
        page.before = none ∧
          ∀ longer, LooksSame page.messages messages longer → longer ≤ min page.messages.length messages.length →
            longer + last ≤ page.total + messages.length
    else s.awaits = true ∨ s.historyCursor = none
  | .liveFails i =>
    i = s.latestJob → ∀ page snapshot, s.reloads i = some (.live page snapshot) → page.before = s.historyCursor
  | .earlierArrives =>
    s.awaits = true ∨ (∀ before page, s.earlier = some (.fetching before page) → s.historyCursor = some before) ∧
        ∀ job turns last, s.reloads s.latestJob = some (.rendering job turns last) → turns = []
  | .earlierComplete =>
    s.awaits = true ∨
      ∀ job turns page, s.earlier = some (.prepending job turns page) → job = s.renderJob ∨ page.before = s.historyCursor
  | _ => True

def State.ahead (s : State) : List (List Message) :=
  match s.reloads s.latestJob with
  | some (.rendering _ turns _) => turns
  | _ => []

def Drawn (s : State) (first last : Nat) : Prop := remaining s.ahead ++ s.rendered = slice s.history first last

/-- The messages are there, or the page before them is being put in front. -/
def View (s : State) (first last : Nat) : Prop :=
  match s.earlier with
  | some (.prepending job turns page) =>
    if job = s.renderJob then
      s.ahead = [] ∧ ∃ start, start < first ∧ PageAt s.history page start first ∧
        remaining turns ++ s.rendered = slice s.history start last
    else Drawn s first last
  | _ => Drawn s first last

structure Shows (s : State) (first last : Nat) : Prop where
  le : first ≤ last
  inside : last ≤ s.history.length
  stored : first ≤ s.durable
  cursor : s.historyCursor = cursorOf first
  ended : s.reloads s.latestJob = none → s.last = last
  drawing : ∀ reload, s.reloads s.latestJob = some reload →
    ∃ job turns, reload = .rendering job turns last ∧ (turns = [] ∨ job = s.renderJob)
  superseded : ∀ i job turns last', i ≠ s.latestJob → s.reloads i = some (.rendering job turns last') → job < s.renderJob
  view : View s first last

/-- The last reload is to set everything anew, or what is shown is as it should be. -/
def Settled (s : State) : Prop := s.awaits = true ∨ ∃ first last, Shows s first last

variable {reload : Reload}

theorem awaits_of_waits (there : s.reloads s.latestJob = some reload) (waits : reload.waits = true) :
    s.awaits = true := by
  rw [State.awaits, there]
  exact waits

theorem awaits_of_eq (same : t.reloads t.latestJob = s.reloads s.latestJob) (awaits : s.awaits = true) :
    t.awaits = true := by
  unfold State.awaits at *
  rw [same]
  exact awaits

variable {job : Nat} {turns : List (List Message)}

theorem ne_latest_of_awaits (awaits : s.awaits = true) (there : s.reloads i = some (.rendering job turns last)) :
    i ≠ s.latestJob := by
  rintro rfl
  rw [State.awaits, there] at awaits
  cases awaits

theorem View.of_eq (view : View s first last) (earlier : t.earlier = s.earlier) (renderJob : t.renderJob = s.renderJob)
    (ahead : t.ahead = s.ahead) (rendered : t.rendered = s.rendered) (history : t.history = s.history) :
    View t first last := by
  unfold View Drawn at *
  rw [earlier, renderJob, ahead, rendered, history]
  exact view

theorem ahead_of_eq (same : t.reloads t.latestJob = s.reloads s.latestJob) : t.ahead = s.ahead := by
  unfold State.ahead
  rw [same]

variable {new : Reload}

theorem Shows.put (shows' : Shows s first last) (other : i ≠ s.latestJob) (waits : new.waits = true) :
    Shows { s with reloads := s.reloads.put i new } first last := by
  have same : s.reloads.put i new s.latestJob = s.reloads s.latestJob := Calls.put_of_ne _ _ (Ne.symm other)
  refine ⟨shows'.le, shows'.inside, shows'.stored, shows'.cursor, fun none => shows'.ended (same.symm.trans none),
    fun reload there => shows'.drawing reload (same.symm.trans there), fun j job turns last' others there => ?_,
    shows'.view.of_eq rfl rfl (ahead_of_eq same) rfl rfl⟩
  rcases Calls.put_eq_some there with ⟨_, rfl⟩ | ⟨_, old⟩
  · cases waits
  · exact shows'.superseded j job turns last' others old

theorem Shows.drop (shows' : Shows s first last) (other : i ≠ s.latestJob) :
    Shows { s with reloads := s.reloads.drop i } first last := by
  have same : s.reloads.drop i s.latestJob = s.reloads s.latestJob := Calls.drop_of_ne _ (Ne.symm other)
  exact ⟨shows'.le, shows'.inside, shows'.stored, shows'.cursor, fun none => shows'.ended (same.symm.trans none),
    fun reload there => shows'.drawing reload (same.symm.trans there),
    fun j job turns last' others there => shows'.superseded j job turns last' others (Calls.drop_eq_some there).2,
    shows'.view.of_eq rfl rfl (ahead_of_eq same) rfl rfl⟩

theorem Settled.put (settled : Settled s) (waits : new.waits = true) :
    Settled { s with reloads := s.reloads.put i new } := by
  by_cases latest : i = s.latestJob
  · obtain rfl := latest
    exact .inl (awaits_of_waits (Calls.put_self _ _ _) waits)
  · rcases settled with awaits | ⟨first, last, shows'⟩
    · exact .inl (awaits_of_eq (Calls.put_of_ne _ _ (Ne.symm latest)) awaits)
    · exact .inr ⟨first, last, shows'.put latest waits⟩

theorem Settled.drop (settled : Settled s) (other : i ≠ s.latestJob) : Settled { s with reloads := s.reloads.drop i } := by
  rcases settled with awaits | ⟨first, last, shows'⟩
  · exact .inl (awaits_of_eq (Calls.drop_of_ne _ (Ne.symm other)) awaits)
  · exact .inr ⟨first, last, shows'.drop other⟩

theorem Settled.superseded (settled : Settled s) (other : i ≠ s.latestJob) (messages : List Message) (last : Nat) :
    Settled (s.loaded i messages last) := by
  rw [State.loaded, if_neg other]
  exact settled.drop other

theorem Settled.applyHistoryPage (settled : Settled s) {before : Option Nat}
    (harmless : s.awaits = true ∨ before = s.historyCursor) :
    Settled (s.applyHistoryPage before) := by
  rcases settled with awaits | ⟨first, last, shows'⟩
  · exact .inl awaits
  · rcases harmless with awaits | rfl
    · exact .inl awaits
    · exact .inr ⟨first, last, shows'.le, shows'.inside, shows'.stored, shows'.cursor, shows'.ended, shows'.drawing,
        shows'.superseded, shows'.view⟩

variable {messages : List Message}

theorem settled_loaded (base : Base s) (current : i = s.latestJob) (le : first ≤ last)
    (inside : last ≤ s.history.length) (stored : first ≤ s.durable) (same : messages = slice s.history first last)
    (cursor : s.historyCursor = cursorOf first) : Settled (s.loaded i messages last) := by
  obtain rfl := current
  refine .inr ⟨first, last, ?_⟩
  unfold State.loaded
  rw [if_pos rfl]
  have here := Calls.put_self s.reloads s.latestJob
    (.rendering (s.renderJob + 1) (takeTailChunk 40 true [] (splitTurns messages).reverse).2 last)
  refine ⟨le, inside, stored, cursor, fun none => ?_, fun reload there => ?_, fun j job turns last' other there => ?_, ?_⟩
  · cases here.symm.trans none
  · cases here.symm.trans there
    exact ⟨_, _, rfl, .inr rfl⟩
  · have old := (Calls.put_of_ne s.reloads _ other).symm.trans there
    exact Nat.lt_succ_of_le (base.reloads j _ old).1
  · have drawn : Drawn (s.loaded s.latestJob messages last) first last := by
      unfold Drawn State.ahead State.loaded
      rw [if_pos rfl]
      dsimp only
      rw [here]
      rw [takeTailChunk_eq, remaining_splitTurns, List.append_nil]
      exact same
    unfold State.loaded at drawn
    rw [if_pos rfl] at drawn
    unfold View
    dsimp only
    split
    · rename_i job turns page there
      have older := (base.earlier _ there).1
      rw [if_neg (by omega)]
      exact drawn
    · exact drawn

variable {page : Page}

theorem Settled.durableArrives (base : Base s) (settled : Settled s) {streaming : Bool}
    (there : s.reloads i = some (.durable streaming (some page))) (orderly : Orderly s (.durableArrives i)) :
    Settled (s.durableArrives i streaming page) := by
  obtain ⟨total, start, at'⟩ := base.reloads i _ there
  unfold State.durableArrives
  by_cases latest : i = s.latestJob
  · split_ifs
    · obtain rfl := latest
      exact .inl (awaits_of_waits (Calls.put_self _ _ _) rfl)
    · have applied := base.applyHistoryPage (Nat.le_trans at'.le total)
      rw [← at'.before] at applied
      exact settled_loaded applied latest at'.le (Nat.le_trans total base.durable_le)
        (Nat.le_trans at'.le total) at'.messages at'.before
  · have harmless : s.awaits = true ∨ page.before = s.historyCursor := by
      rcases orderly with current | awaits | same
      · exact absurd current latest
      · exact .inl awaits
      · exact .inr (same streaming page there)
    have applied := settled.applyHistoryPage harmless
    split_ifs
    · exact applied.put rfl
    · exact applied.superseded latest _ _

theorem Settled.liveArrives (base : Base s) (settled : Settled s)
    (there : s.reloads i = some (.live page (some (messages, last)))) (orderly : Orderly s (.liveArrives i)) :
    Settled (s.liveArrives i page messages last) := by
  obtain ⟨⟨total, start, at'⟩, covers, inside, from', same, window⟩ := base.reloads i _ there
  by_cases latest : i = s.latestJob
  · have whole : (if s.merges then mergeClaudeTranscriptMessages page.messages messages else messages) = slice s.history 0 last := by
      by_cases merges : s.merges = true
      · rw [if_pos merges] at window ⊢
        rw [Orderly, if_pos latest] at orderly
        obtain ⟨fromFirst, unmistaken⟩ := orderly merges page messages last there
        have begins : start = 0 := by
          have before := at'.before.symm.trans fromFirst
          unfold cursorOf at before
          split_ifs at before
          omega
        obtain rfl := begins
        have pageLength : page.messages.length = page.total := by
          rw [at'.messages]
          exact length_slice (Nat.le_trans covers inside)
        have liveLength : messages.length = last - from' := by
          rw [same]
          exact length_slice inside
        rw [pageLength, liveLength] at unmistaken
        rw [at'.messages, same] at unmistaken ⊢
        refine merge_slices window covers inside fun longer looks bounded => ?_
        have shared := unmistaken longer looks bounded
        omega
      · rw [if_neg merges] at window ⊢
        rw [same, window]
    exact settled_loaded (base.applyHistoryPage (Nat.zero_le _)) latest (Nat.zero_le _) inside (Nat.zero_le _) whole rfl
  · have harmless : s.awaits = true ∨ none = s.historyCursor := by
      rw [Orderly, if_neg latest] at orderly
      exact orderly.imp_right Eq.symm
    exact (settled.applyHistoryPage harmless).superseded latest _ _

theorem Settled.liveFails (base : Base s) (settled : Settled s) {snapshot : Option (List Message × Nat)}
    (there : s.reloads i = some (.live page snapshot)) (orderly : Orderly s (.liveFails i)) :
    Settled (s.loaded i page.messages page.total) := by
  have read : ReadOf s page := by
    cases snapshot with
    | none => exact base.reloads i _ there
    | some snapshot => exact (base.reloads i _ there).1
  obtain ⟨total, start, at'⟩ := read
  by_cases latest : i = s.latestJob
  · exact settled_loaded base latest at'.le (Nat.le_trans total base.durable_le) (Nat.le_trans at'.le total) at'.messages
      ((orderly latest page snapshot there).symm.trans at'.before)
  · exact settled.superseded latest _ _

theorem ahead_of_rendering (here : s.reloads s.latestJob = some (.rendering job turns last)) : s.ahead = turns := by
  rw [State.ahead, here]

variable {last' : Nat}

theorem Shows.chunk (shows' : Shows s first last)
    (there : s.reloads s.latestJob = some (.rendering s.renderJob turns last')) (unfinished : turns ≠ []) :
    Shows (s.chunk s.latestJob s.renderJob turns last') first last := by
  obtain ⟨_, _, same, _⟩ := shows'.drawing _ there
  obtain rfl := (Reload.rendering.inj same.symm).2.2
  have ahead := ahead_of_rendering there
  rw [State.chunk, if_pos rfl]
  have here := Calls.put_self s.reloads s.latestJob (.rendering s.renderJob (takeTailChunk 60 false [] turns).2 last)
  refine ⟨shows'.le, shows'.inside, shows'.stored, shows'.cursor, fun none => ?_, fun reload now => ?_,
    fun j job rest ends other old => ?_, ?_⟩
  · cases here.symm.trans none
  · cases here.symm.trans now
    exact ⟨_, _, rfl, .inr rfl⟩
  · exact shows'.superseded j job rest ends other ((Calls.put_of_ne s.reloads _ other).symm.trans old)
  · have drawn (view : Drawn s first last) :
        remaining (takeTailChunk 60 false [] turns).2 ++ ((takeTailChunk 60 false [] turns).1 ++ s.rendered) = slice s.history first last := by
      rw [← List.append_assoc, takeTailChunk_eq, List.append_nil, ← ahead]
      exact view
    have view := shows'.view
    unfold View at view ⊢
    unfold Drawn
    rw [ahead_of_rendering here]
    split
    · rename_i job rest page prepending
      rw [prepending] at view
      dsimp only at view
      split_ifs with current
      · rw [if_pos current] at view
        exact absurd (ahead.symm.trans view.1) unfinished
      · rw [if_neg current] at view
        exact drawn view
    · rename_i otherwise
      split at view
      · exact absurd ‹_› (otherwise _ _ _)
      · exact drawn view

theorem Shows.complete (shows' : Shows s first last) (there : s.reloads s.latestJob = some (.rendering job [] last')) :
    Shows (s.complete s.latestJob last') first last := by
  obtain ⟨_, _, same, _⟩ := shows'.drawing _ there
  obtain rfl := (Reload.rendering.inj same.symm).2.2
  have here := Calls.drop_self s.reloads s.latestJob
  have ahead : (s.complete s.latestJob last).ahead = s.ahead := by
    rw [ahead_of_rendering there]
    unfold State.ahead State.complete
    dsimp only
    rw [here]
  refine ⟨shows'.le, shows'.inside, shows'.stored, shows'.cursor, fun _ => if_pos rfl, fun reload now => ?_,
    fun j job rest ends other old => shows'.superseded j job rest ends other (Calls.drop_eq_some old).2,
    shows'.view.of_eq rfl rfl ahead rfl rfl⟩
  cases here.symm.trans now

theorem Settled.chunk (settled : Settled s) (there : s.reloads i = some (.rendering job turns last))
    (unfinished : turns ≠ []) : Settled (s.chunk i job turns last) := by
  rcases settled with awaits | ⟨first, last', shows'⟩
  · have other := ne_latest_of_awaits awaits there
    unfold State.chunk
    split_ifs
    · exact .inl (awaits_of_eq (Calls.put_of_ne _ _ (Ne.symm other)) awaits)
    · exact Settled.drop (.inl awaits) other
  · by_cases latest : i = s.latestJob
    · obtain rfl := latest
      obtain ⟨_, _, same, done | current⟩ := shows'.drawing _ there
      all_goals obtain ⟨rfl, rfl, rfl⟩ := Reload.rendering.inj same
      · exact absurd done unfinished
      · rw [current] at there ⊢
        exact .inr ⟨first, last, shows'.chunk there unfinished⟩
    · have older := shows'.superseded i job turns last latest there
      rw [State.chunk, if_neg (by omega)]
      exact Settled.drop (.inr ⟨first, last', shows'⟩) latest

theorem Settled.complete (settled : Settled s) (there : s.reloads i = some (.rendering job [] last)) :
    Settled (s.complete i last) := by
  by_cases latest : i = s.latestJob
  · obtain rfl := latest
    rcases settled with awaits | ⟨first, last', shows'⟩
    · exact absurd rfl (ne_latest_of_awaits awaits there)
    · exact .inr ⟨first, last', shows'.complete there⟩
  · rw [State.complete, if_neg latest]
    exact settled.drop latest

variable {a : Action}

theorem Settled.resume (base : Base s) (settled : Settled s) (there : s.reloads i = some reload)
    (about : a.target = some i) (orderly : Orderly s a) (h : s.resume i reload a = some t) : Settled t := by
  unfold State.resume at h
  split at h
  all_goals try obtain rfl := Option.some.inj about
  · cases h
    exact settled.put rfl
  · cases h
    exact settled.put rfl
  · cases h
    exact settled.durableArrives base there orderly
  · unfold State.liveServed at h
    split_ifs at h
    all_goals
      cases h
      exact settled.put rfl
  · cases h
    exact settled.liveArrives base there orderly
  · cases h
    exact settled.liveFails base there orderly
  · cases h
    exact settled.chunk there (List.cons_ne_nil _ _)
  · cases h
    exact settled.complete there
  · cases h

theorem Shows.setEarlier (shows' : Shows s first last) {earlier : Option Earlier}
    (view : View { s with earlier := earlier } first last) :
    Shows { s with earlier := earlier } first last :=
  ⟨shows'.le, shows'.inside, shows'.stored, shows'.cursor, shows'.ended, shows'.drawing, shows'.superseded, view⟩

theorem Shows.earlierArrives (base : Base s) (shows' : Shows s first last) {before : Nat}
    (there : s.earlier = some (.fetching before (some page))) (stored : s.historyCursor = some before)
    (finished : ∀ job turns last, s.reloads s.latestJob = some (.rendering job turns last) → turns = []) :
    Shows (s.earlierArrives page) first last := by
  obtain ⟨rfl, positive⟩ := cursorOf_eq_some (shows'.cursor.symm.trans stored)
  obtain ⟨_, inside, read⟩ := base.earlier _ there
  obtain ⟨start, less, at'⟩ := read page rfl
  have some' : page.messages ≠ [] := by
    intro none
    have length := length_slice (Nat.le_trans inside base.durable_le) (a := start)
    rw [← at'.messages, none, List.length_nil] at length
    omega
  have done : ∀ reload, s.reloads s.latestJob = some reload → ∃ job, reload = .rendering job [] last := by
    intro reload here
    obtain ⟨job, turns, rfl, _⟩ := shows'.drawing reload here
    obtain rfl := finished job turns last here
    exact ⟨job, rfl⟩
  have ahead : s.ahead = [] := by
    cases here : s.reloads s.latestJob with
    | none => rw [State.ahead, here]
    | some reload =>
      obtain ⟨job, rfl⟩ := done reload here
      exact ahead_of_rendering here
  have drawn : s.rendered = slice s.history first last := by
    have view := shows'.view
    unfold View at view
    rw [there] at view
    dsimp only [Drawn] at view
    rw [ahead] at view
    exact view
  rw [State.earlierArrives, if_neg some']
  refine ⟨shows'.le, shows'.inside, shows'.stored, shows'.cursor, shows'.ended, fun reload here => ?_,
    fun i job turns ends other old => Nat.lt_succ_of_lt (shows'.superseded i job turns ends other old), ?_⟩
  · obtain ⟨job, rfl⟩ := done reload here
    exact ⟨job, [], rfl, .inl rfl⟩
  · unfold View
    dsimp only
    rw [if_pos rfl]
    refine ⟨ahead, start, less, at', ?_⟩
    rw [remaining_splitTurns, at'.messages, drawn]
    exact slice_append s.history at'.le shows'.le

theorem Shows.earlierChunk (shows' : Shows s first last) (there : s.earlier = some (.prepending job turns page)) :
    Shows (s.earlierChunk job turns page) first last := by
  have view := shows'.view
  unfold View at view
  rw [there] at view
  dsimp only at view
  unfold State.earlierChunk
  split_ifs with current
  · rw [if_pos current] at view
    obtain ⟨ahead, start, less, at', drawn⟩ := view
    refine ⟨shows'.le, shows'.inside, shows'.stored, shows'.cursor, shows'.ended, shows'.drawing, shows'.superseded, ?_⟩
    unfold View
    dsimp only
    rw [if_pos current]
    refine ⟨ahead, start, less, at', ?_⟩
    rw [← List.append_assoc, takeTailChunk_eq, List.append_nil]
    exact drawn
  · rw [if_neg current] at view
    exact shows'.setEarlier view

theorem Shows.earlierComplete (shows' : Shows s first last) (there : s.earlier = some (.prepending job [] page))
    (orderly : job = s.renderJob ∨ page.before = s.historyCursor) :
    ∃ first, Shows { s.applyHistoryPage page.before with earlier := none } first last := by
  have view := shows'.view
  unfold View at view
  rw [there] at view
  dsimp only at view
  split_ifs at view with current
  · obtain ⟨ahead, start, less, at', drawn⟩ := view
    refine ⟨start, Nat.le_trans at'.le shows'.le, shows'.inside, Nat.le_trans at'.le shows'.stored, at'.before,
      shows'.ended, shows'.drawing, shows'.superseded, ?_⟩
    have same : remaining s.ahead ++ s.rendered = slice s.history start last := by
      rw [ahead]
      exact drawn
    exact same
  · have same := orderly.resolve_left current
    exact ⟨first, shows'.le, shows'.inside, shows'.stored, same.trans shows'.cursor, shows'.ended, shows'.drawing,
      shows'.superseded, view⟩

theorem earlierArrives_latest (s : State) (page : Page) :
    (s.earlierArrives page).reloads (s.earlierArrives page).latestJob = s.reloads s.latestJob := by
  unfold State.earlierArrives
  split_ifs <;> rfl

theorem earlierChunk_latest (s : State) (job : Nat) (turns : List (List Message)) (page : Page) :
    (s.earlierChunk job turns page).reloads (s.earlierChunk job turns page).latestJob = s.reloads s.latestJob := by
  unfold State.earlierChunk
  split_ifs <;> rfl

variable {earlier : Earlier}

theorem resumeEarlier_latest (h : s.resumeEarlier earlier a = some t) :
    t.reloads t.latestJob = s.reloads s.latestJob := by
  unfold State.resumeEarlier at h
  split at h
  · cases h
    rfl
  · cases h
    rfl
  · cases h
    exact earlierArrives_latest s _
  · cases h
    exact earlierChunk_latest s _ _ _
  · cases h
    rfl
  · cases h

theorem Settled.resumeEarlier (base : Base s) (settled : Settled s) (there : s.earlier = some earlier)
    (orderly : Orderly s a) (h : s.resumeEarlier earlier a = some t) : Settled t := by
  by_cases awaits : s.awaits = true
  · exact .inl (awaits_of_eq (resumeEarlier_latest h) awaits)
  · obtain ⟨first, last, shows'⟩ := settled.resolve_left awaits
    have view := shows'.view
    unfold View at view
    rw [there] at view
    unfold State.resumeEarlier at h
    split at h
    · cases h
      exact .inr ⟨first, last, shows'.setEarlier view⟩
    · cases h
      exact .inr ⟨first, last, shows'.setEarlier view⟩
    · cases h
      obtain ⟨stored, finished⟩ := orderly.resolve_left awaits
      exact .inr ⟨first, last, shows'.earlierArrives base there (stored _ _ there) finished⟩
    · cases h
      exact .inr ⟨first, last, shows'.earlierChunk there⟩
    · cases h
      obtain ⟨start, after⟩ := shows'.earlierComplete there (orderly.resolve_left awaits _ _ _ there)
      exact .inr ⟨start, last, after⟩
    · cases h

theorem Settled.grow (settled : Settled s) {durable : Nat} (h : step s (.grow messages durable) = some t) :
    Settled t := by
  obtain ⟨⟨more, _⟩, same⟩ := Option.ite_none_right_eq_some.mp h
  cases same
  rcases settled with awaits | ⟨first, last, shows'⟩
  · exact .inl awaits
  · have grown : s.history <+: s.history ++ messages := List.prefix_append _ _
    refine .inr ⟨first, last, shows'.le, Nat.le_trans shows'.inside grown.length_le, Nat.le_trans shows'.stored more,
      shows'.cursor,
      shows'.ended, shows'.drawing, shows'.superseded, ?_⟩
    have view := shows'.view
    unfold View Drawn at view ⊢
    rw [slice_grown grown shows'.inside]
    split
    · rename_i job turns page there
      rw [there] at view
      dsimp only at view
      split_ifs with current
      · rw [if_pos current] at view
        obtain ⟨ahead, start, less, at', drawn⟩ := view
        refine ⟨ahead, start, less, at'.grown grown (Nat.le_trans shows'.le shows'.inside), ?_⟩
        rw [slice_grown grown shows'.inside]
        exact drawn
      · rw [if_neg current] at view
        exact view
    · rename_i otherwise
      split at view
      · exact absurd ‹_› (otherwise _ _ _)
      · exact view

theorem Settled.loadEarlier (settled : Settled s) : Settled s.loadEarlier := by
  unfold State.loadEarlier
  split
  · split_ifs with busy
    · exact settled
    · rcases settled with awaits | ⟨first, last, shows'⟩
      · exact .inl awaits
      · have idle : s.earlier = none := by
          rw [Bool.or_eq_true, not_or] at busy
          simpa using busy.1
        have view := shows'.view
        unfold View at view
        rw [idle] at view
        exact .inr ⟨first, last, shows'.setEarlier view⟩
  · exact settled

theorem settled_step (base : Base s) (settled : Settled s) (orderly : Orderly s a) (h : step s a = some t) :
    Settled t := by
  cases a with
  | grow messages durable => exact settled.grow h
  | reload alive =>
    cases h
    refine .inl (awaits_of_waits (Calls.put_self _ _ _) ?_)
    cases alive <;> rfl
  | loadEarlier =>
    cases h
    exact settled.loadEarlier
  | stateArrives | durableServed | durableArrives | liveServed | liveArrives | liveFails | chunk | complete =>
    obtain ⟨reload, there, resumed⟩ := Option.bind_eq_some_iff.mp h
    exact settled.resume base there rfl orderly resumed
  | earlierServed | earlierFails | earlierArrives | earlierChunk | earlierComplete =>
    obtain ⟨earlier, there, resumed⟩ := Option.bind_eq_some_iff.mp h
    exact settled.resumeEarlier base there orderly resumed

theorem settled_opened (history : List Message) (durable : Nat) (merges : Bool) :
    Settled (opened history durable merges) := by
  refine .inr ⟨0, 0, Nat.le_refl _, Nat.zero_le _, Nat.zero_le _, rfl, fun _ => rfl, fun _ none => ?_,
    fun _ _ _ _ _ none => ?_, ?_⟩
  · cases none
  · cases none
  · exact (slice_self history 0).symm

/-- Decreases with every chunk. -/
def size (turns : List (List Message)) : Nat := (turns.map fun turn => turn.length + 1).sum

theorem size_cons (turn : List Message) (turns : List (List Message)) :
    size (turn :: turns) = turn.length + 1 + size turns := by
  simp [size]

theorem takeTailChunk_size (max : Nat) (chunk : List Message) (turns : List (List Message)) :
    size (takeTailChunk max false chunk turns).2 ≤ size turns := by
  induction turns generalizing chunk with
  | nil => exact Nat.le_refl _
  | cons turn turns ih =>
    simp only [takeTailChunk, Bool.false_eq_true, if_false]
    split_ifs
    · exact Nat.le_refl _
    · rw [size_cons]
      exact Nat.le_add_left _ _
    · rw [size_cons, size_cons, List.length_take]
      omega
    · rw [size_cons]
      exact Nat.le_add_left _ _
    · have rest := ih (turn ++ chunk)
      rw [size_cons]
      omega

theorem takeTailChunk_shrinks {max : Nat} (positive : 0 < max) (turn : List Message) (turns : List (List Message)) :
    size (takeTailChunk max false [] (turn :: turns)).2 < size (turn :: turns) := by
  simp only [takeTailChunk, Bool.false_eq_true, if_false, List.length_nil, Nat.sub_zero]
  rw [size_cons]
  split_ifs with oversized started
  · exact absurd rfl started
  · exact Nat.lt_add_of_pos_left (Nat.succ_pos _)
  · rw [size_cons, List.length_take]
    omega
  · exact Nat.lt_add_of_pos_left (Nat.succ_pos _)
  · have rest := takeTailChunk_size max (turn ++ []) turns
    omega

/-- Left to itself, `prepend` puts all of its turns in front. -/
theorem prepends (there : s.earlier = some (.prepending s.renderJob turns page)) :
    ∃ chunks t, Run step Free s (List.replicate chunks .earlierChunk ++ [.earlierComplete]) t ∧
      t.rendered = remaining turns ++ s.rendered := by
  induction left : size turns using Nat.strongRecOn generalizing s turns with
  | _ left' ih =>
    cases turns with
    | nil =>
      have completes : step s .earlierComplete = some { s.applyHistoryPage page.before with earlier := none } := by
        change s.earlier.bind _ = _
        rw [there]
        rfl
      exact ⟨0, _, .cons trivial completes (.nil _), rfl⟩
    | cons turn turns =>
      let taken := takeTailChunk 60 false [] (turn :: turns)
      let after : State :=
        { s with rendered := taken.1 ++ s.rendered, earlier := some (.prepending s.renderJob taken.2 page) }
      have renders : step s .earlierChunk = some after := by
        change s.earlier.bind _ = _
        rw [there]
        change some (s.earlierChunk s.renderJob (turn :: turns) page) = _
        rw [State.earlierChunk, if_pos rfl]
      have fewer : size taken.2 < left' := left ▸ takeTailChunk_shrinks (by decide) turn turns
      obtain ⟨chunks, t, run, rendered⟩ := ih _ fewer (s := after) rfl rfl
      refine ⟨chunks + 1, t, .cons trivial renders run, ?_⟩
      rw [rendered]
      rw [← List.append_assoc, takeTailChunk_eq, List.append_nil]

/-- A `loadEarlier` that nothing interrupts puts the messages directly before in front. -/
theorem Shows.loads (base : Base s) (shows' : Shows s first last) (idle : s.earlier = none) (positive : 0 < first) :
    ∃ start chunks t, start < first ∧ Run step Free s (loading chunks) t ∧
      t.rendered = slice s.history start first ++ s.rendered := by
  have stored : s.historyCursor = some first := by
    rw [shows'.cursor, cursorOf, if_pos positive]
  obtain ⟨_, _, identity⟩ := base.cursor first stored
  obtain ⟨start, less, at'⟩ := serves_before base positive shows'.stored
  have some' : (s.serves (some first)).messages ≠ [] := by
    intro none
    have length := length_slice (Nat.le_trans shows'.le shows'.inside) (a := start)
    rw [← at'.messages, none, List.length_nil] at length
    omega
  let called : State := { s with earlier := some (.fetching first none) }
  let served : State := { s with earlier := some (.fetching first (some (s.serves (some first)))) }
  let arrived : State :=
    { s with
      renderJob := s.renderJob + 1
      earlier := some (.prepending (s.renderJob + 1) (splitTurns (s.serves (some first)).messages).reverse
        (s.serves (some first))) }
  have calls : step s .loadEarlier = some called := by
    change some s.loadEarlier = _
    rw [State.loadEarlier, stored]
    simp [idle, identity, stored, called]
  have serves : step called .earlierServed = some served := rfl
  have arrives : step served .earlierArrives = some arrived := by
    change some (served.earlierArrives (s.serves (some first))) = _
    rw [State.earlierArrives, if_neg some']
  obtain ⟨chunks, t, run, rendered⟩ := prepends (s := arrived) rfl
  refine ⟨start, chunks, t, less, .cons trivial calls (.cons trivial serves (.cons trivial arrives run)), ?_⟩
  rw [rendered, remaining_splitTurns, at'.messages]

theorem Settled.contiguous (base : Base s) (settled : Settled s) : Contiguous s := by
  intro idle none
  rcases settled with awaits | ⟨first, last, shows'⟩
  · rw [State.awaits, none] at awaits
    cases awaits
  · have ended := shows'.ended (none _)
    have drawn := shows'.view
    unfold View at drawn
    rw [idle] at drawn
    dsimp only [Drawn] at drawn
    rw [State.ahead, none] at drawn
    rw [ended]
    refine ⟨first, shows'.le, shows'.inside, drawn, ?_⟩
    rcases Nat.eq_zero_or_pos first with zero | positive
    · exact .inl zero
    · exact .inr (shows'.loads base idle positive)

/-- While every step is orderly, the messages shown are a contiguous part of the history, and its past can be loaded. -/
theorem transcript_contiguous {history : List Message} {durable : Nat} {merges : Bool} {actions : List Action}
    (run : Run step Orderly (opened history durable merges) actions s) : Contiguous s := by
  have preserved : ∀ s a t, Base s ∧ Settled s → Orderly s a → step s a = some t → Base t ∧ Settled t :=
    fun _ _ _ ⟨base, settled⟩ orderly h => ⟨base.step h, settled_step base settled orderly h⟩
  obtain ⟨base, settled⟩ :=
    run.invariant preserved ⟨base_opened history durable merges, settled_opened history durable merges⟩
  exact settled.contiguous base

def orderly (s : State) : Action → Bool
  | .durableArrives i => i = s.latestJob || s.awaits
  | .liveArrives i =>
    if i = s.latestJob then
      !s.merges || (s.reloads i).all fun
        | .live page (some (messages, last)) =>
          page.before.isNone && (List.range (min page.messages.length messages.length + 1)).all fun longer =>
            !decide (LooksSame page.messages messages longer) || decide (longer + last ≤ page.total + messages.length)
        | _ => true
    else s.awaits
  | .liveFails i => i ≠ s.latestJob
  | .earlierArrives =>
    s.awaits || (s.earlier.all fun
        | .fetching before _ => s.historyCursor = some before
        | _ => true) &&
      (s.reloads s.latestJob).isNone
  | .earlierComplete =>
    s.awaits || s.earlier.all fun
      | .prepending job .. => job = s.renderJob
      | _ => true
  | _ => true

theorem orderly_sound (s : State) (a : Action) (h : orderly s a = true) : Orderly s a := by
  cases a with
  | durableArrives i =>
    simp only [orderly, Bool.or_eq_true, decide_eq_true_eq] at h
    exact h.imp_right .inl
  | liveArrives i =>
    simp only [orderly] at h
    simp only [Orderly]
    split_ifs at h ⊢ with latest
    · intro merges page messages last there
      simp only [merges, there, Bool.not_true, Bool.false_or, Option.all_some, Bool.and_eq_true,
        Option.isNone_iff_eq_none, List.all_eq_true, List.mem_range, Bool.or_eq_true, Bool.not_eq_true',
        decide_eq_false_iff_not, decide_eq_true_eq] at h
      exact ⟨h.1, fun longer looks bounded => (h.2 longer (Nat.lt_succ_of_le bounded)).resolve_left (not_not_intro looks)⟩
    · exact .inl h
  | liveFails i =>
    intro latest
    exact absurd latest (of_decide_eq_true h)
  | earlierArrives =>
    simp only [orderly, Bool.or_eq_true, Bool.and_eq_true, Option.isNone_iff_eq_none] at h
    refine h.imp_right fun ⟨stored, finished⟩ => ⟨fun before page there => ?_, fun job turns last there => ?_⟩
    · simpa [there] using stored
    · cases finished.symm.trans there
  | earlierComplete =>
    simp only [orderly, Bool.or_eq_true] at h
    refine h.imp_right fun current job turns page there => .inl ?_
    simpa [there] using current
  | grow | reload | stateArrives | durableServed | liveServed | chunk | complete | loadEarlier | earlierServed | earlierFails
  | earlierChunk => trivial

/-- Prompts and answers in turns. -/
def conversation (first number : Nat) : List Message :=
  (List.range number).map fun i =>
    ⟨if (first + i) % 2 = 0 then "user" else "assistant", "", "", "", some (20000 * (first + i : Nat))⟩

/-- A streaming reload of a young session; one of the grown session; one that overtakes a `loadEarlier`; and a `loadEarlier`
at rest. -/
def visited : List Action :=
  [.reload true, .stateArrives 1 true, .durableServed 1, .durableArrives 1, .liveServed 1 3, .liveArrives 1, .complete 1,
    .grow (conversation 6 84) 90, .reload true, .stateArrives 2 false, .durableServed 2, .durableArrives 2,
    .chunk 2, .complete 2, .loadEarlier, .earlierServed, .grow (conversation 90 2) 92, .reload false,
    .earlierArrives, .durableServed 3, .durableArrives 3, .earlierChunk, .chunk 3, .complete 3, .loadEarlier, .earlierServed, .earlierArrives, .earlierChunk, .earlierComplete]

theorem transcript_contiguous_visited :
    ∃ s, Run step Orderly (opened (conversation 0 6) 4 true) visited s ∧ s.rendered = conversation 0 92 ∧ s.last = 92 ∧
      s.earlier = none ∧ Contiguous s := by
  have checked : ((execIf step orderly (opened (conversation 0 6) 4 true) visited).any fun s =>
      decide (s.rendered = conversation 0 92 ∧ s.last = 92 ∧ s.earlier = none)) = true := by decide +kernel
  obtain ⟨s, ran, ended⟩ := (Option.any_eq_true _ _).mp checked
  obtain ⟨rendered, last, idle⟩ := of_decide_eq_true ended
  have run := run_of_execIf orderly_sound ran
  exact ⟨s, run, rendered, last, idle, transcript_contiguous run⟩

theorem not_contiguous (idle : s.earlier = none) (finished : ∀ i, s.reloads i = none) (cursor : s.historyCursor = none)
    (missing : s.rendered.length ≠ s.last) : ¬Contiguous s := by
  intro contiguous
  obtain ⟨first, _, inside, rendered, begins | ⟨_, _, _, _, run, _⟩⟩ := contiguous idle finished
  · rw [rendered, length_slice inside, begins, Nat.sub_zero] at missing
    exact missing rfl
  · cases run with
    | cons _ calls rest =>
      have unchanged : s.loadEarlier = s := by
        rw [State.loadEarlier, cursor]
      obtain rfl := unchanged.symm.trans (Option.some.inj calls)
      cases rest with
      | cons _ serves _ =>
        have stuck : step s .earlierServed = none := by
          change s.earlier.bind _ = _
          rw [idle]
          rfl
        cases stuck.symm.trans serves

/-- A streaming reload of a session whose last page begins after the first message. -/
def streamed : List Action :=
  [.reload true, .stateArrives 1 true, .durableServed 1, .durableArrives 1, .liveServed 1 90, .liveArrives 1, .chunk 1,
    .complete 1]

theorem past_unreachable :
    ∃ s, Run step Free (opened (conversation 0 91) 90 true) streamed s ∧ s.last = 91 ∧ s.rendered = conversation 10 81 ∧
      s.historyCursor = none ∧ ¬Contiguous s := by
  have checked : ((exec step (opened (conversation 0 91) 90 true) streamed).any fun s =>
      decide (s.last = 91 ∧ s.rendered = conversation 10 81 ∧ s.historyCursor = none ∧ s.earlier = none ∧
        ∀ i ∈ List.range (s.latestJob + 1), s.reloads i = none)) = true := by decide +kernel
  obtain ⟨s, ran, ended⟩ := (Option.any_eq_true _ _).mp checked
  obtain ⟨last, rendered, cursor, idle, finished⟩ := of_decide_eq_true ended
  have run := run_of_exec ran
  have base : Base s := run.invariant (fun _ _ _ base _ h => base.step h) (base_opened _ _ _)
  have none : ∀ i, s.reloads i = none := by
    intro i
    cases there : s.reloads i with
    | none => rfl
    | some reload =>
      have numbered := base.numbered i reload there
      exact there.symm.trans (finished i (List.mem_range.mpr (Nat.lt_succ_of_le numbered)))
  have missing : s.rendered.length ≠ s.last := by
    rw [last, rendered]
    decide
  exact ⟨s, run, last, rendered, cursor, not_contiguous idle none cursor missing⟩

end TranscriptView
