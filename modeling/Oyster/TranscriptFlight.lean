import Oyster.TranscriptPages

/-! What the reloads and the `loadEarlier` in flight have read belongs to the history, which only grows. -/
namespace TranscriptView
open Interleaving Slices

variable {s t : State} {last i : Nat}

/-- What no step takes back. -/
structure Later (s t : State) : Prop where
  history : s.history <+: t.history
  durable : s.durable ≤ t.durable
  latestJob : s.latestJob ≤ t.latestJob
  renderJob : s.renderJob ≤ t.renderJob
  merges : t.merges = s.merges
  identity : s.historyIdentity = true → t.historyIdentity = true

theorem Later.of_eq (history : t.history = s.history) (durable : t.durable = s.durable)
    (latestJob : t.latestJob = s.latestJob) (renderJob : s.renderJob ≤ t.renderJob)
    (merges : t.merges = s.merges) (identity : s.historyIdentity = true → t.historyIdentity = true) :
    Later s t :=
  ⟨history ▸ List.prefix_rfl, Nat.le_of_eq durable.symm, Nat.le_of_eq latestJob.symm, renderJob, merges, identity⟩

def ReadOf (s : State) (page : Page) : Prop := page.total ≤ s.durable ∧ ∃ start, PageAt s.history page start page.total

def ReloadOf (s : State) : Reload → Prop
  | .durable _ (some page) => ReadOf s page
  | .live page none => ReadOf s page
  | .live page (some (messages, last)) =>
    ReadOf s page ∧ page.total ≤ last ∧ last ≤ s.history.length ∧
      ∃ start, messages = slice s.history start last ∧ if s.merges = true then start ≤ page.total else start = 0
  | .rendering job _ last => job ≤ s.renderJob ∧ last ≤ s.history.length
  | _ => True

def EarlierOf (s : State) : Earlier → Prop
  | .fetching before page =>
    0 < before ∧ before ≤ s.durable ∧
      ∀ read, page = some read → ∃ start, start < before ∧ PageAt s.history read start before
  | .prepending job _ page =>
    job ≤ s.renderJob ∧ ∃ start before, start < before ∧ before ≤ s.durable ∧ PageAt s.history page start before

structure Base (s : State) : Prop where
  durable_le : s.durable ≤ s.history.length
  cursor : ∀ before, s.historyCursor = some before → 0 < before ∧ before ≤ s.durable ∧ s.historyIdentity = true
  numbered : ∀ i reload, s.reloads i = some reload → i ≤ s.latestJob
  reloads : ∀ i reload, s.reloads i = some reload → ReloadOf s reload
  earlier : ∀ earlier, s.earlier = some earlier → EarlierOf s earlier

theorem ReadOf.later {page : Page} (read : ReadOf s page) (later : Later s t) (le : s.durable ≤ s.history.length) :
    ReadOf t page := by
  obtain ⟨total, start, at'⟩ := read
  exact ⟨Nat.le_trans total later.durable, start, at'.grown later.history (Nat.le_trans total le)⟩

theorem ReloadOf.later {reload : Reload} (of : ReloadOf s reload) (later : Later s t) (le : s.durable ≤ s.history.length) :
    ReloadOf t reload := by
  match reload, of with
  | .state, _ => trivial
  | .durable _ none, _ => trivial
  | .durable _ (some _), read => exact ReadOf.later read later le
  | .live _ none, read => exact ReadOf.later read later le
  | .live _ (some (_, _)), ⟨read, covers, inside, start, messages, overlaps⟩ =>
    refine ⟨read.later later le, covers, Nat.le_trans inside later.history.length_le, start, ?_, later.merges ▸ overlaps⟩
    exact messages.trans (slice_grown later.history inside).symm
  | .rendering .., ⟨job, inside⟩ => exact ⟨Nat.le_trans job later.renderJob, Nat.le_trans inside later.history.length_le⟩

theorem EarlierOf.later {earlier : Earlier} (of : EarlierOf s earlier) (later : Later s t)
    (le : s.durable ≤ s.history.length) :
    EarlierOf t earlier := by
  match earlier, of with
  | .fetching _ _, ⟨positive, stored, read⟩ =>
    refine ⟨positive, Nat.le_trans stored later.durable, fun page there => ?_⟩
    obtain ⟨start, less, at'⟩ := read page there
    exact ⟨start, less, at'.grown later.history (Nat.le_trans stored le)⟩
  | .prepending .., ⟨job, start, before, less, stored, at'⟩ =>
    exact ⟨Nat.le_trans job later.renderJob, start, before, less, Nat.le_trans stored later.durable,
      at'.grown later.history (Nat.le_trans stored le)⟩

theorem Base.later (base : Base s) (later : Later s t) (le : t.durable ≤ t.history.length)
    (cursor : ∀ before, t.historyCursor = some before →
      s.historyCursor = some before ∨ 0 < before ∧ before ≤ t.durable ∧ t.historyIdentity = true)
    (reloads : ∀ i reload, t.reloads i = some reload → s.reloads i = some reload ∨ i ≤ t.latestJob ∧ ReloadOf t reload)
    (earlier : ∀ earlier, t.earlier = some earlier → s.earlier = some earlier ∨ EarlierOf t earlier) : Base t where
  durable_le := le
  cursor before there := by
    rcases cursor before there with old | new
    · obtain ⟨positive, stored, identity⟩ := base.cursor before old
      exact ⟨positive, Nat.le_trans stored later.durable, later.identity identity⟩
    · exact new
  numbered i reload there := by
    rcases reloads i reload there with old | new
    · exact Nat.le_trans (base.numbered i reload old) later.latestJob
    · exact new.1
  reloads i reload there := by
    rcases reloads i reload there with old | new
    · exact (base.reloads i reload old).later later base.durable_le
    · exact new.2
  earlier e there := by
    rcases earlier e there with old | new
    · exact (base.earlier e old).later later base.durable_le
    · exact new

theorem Base.shown (base : Base s) (rendered : List Message) (last : Nat) :
    Base { s with rendered := rendered, last := last } :=
  base.later (.of_eq rfl rfl rfl (Nat.le_refl _) rfl id) base.durable_le (fun _ same => .inl same)
    (fun _ _ same => .inl same)
    fun _ same => .inl same

theorem Base.put (base : Base s) {reload new : Reload} (there : s.reloads i = some reload) (of : ReloadOf s new) :
    Base { s with reloads := s.reloads.put i new } :=
  base.later (.of_eq rfl rfl rfl (Nat.le_refl _) rfl id) base.durable_le (fun _ same => .inl same)
    (fun j other here => by
      rcases Calls.put_eq_some here with ⟨rfl, rfl⟩ | ⟨_, old⟩
      · exact .inr ⟨base.numbered j reload there, of.later (.of_eq rfl rfl rfl (Nat.le_refl _) rfl id) base.durable_le⟩
      · exact .inl old)
    fun _ same => .inl same

theorem Base.drop (base : Base s) (i : Nat) : Base { s with reloads := s.reloads.drop i } :=
  base.later (.of_eq rfl rfl rfl (Nat.le_refl _) rfl id) base.durable_le (fun _ same => .inl same)
    (fun _ _ here => .inl (Calls.drop_eq_some here).2) fun _ same => .inl same

theorem cursorOf_eq_some {first before : Nat} (h : cursorOf first = some before) : first = before ∧ 0 < before := by
  unfold cursorOf at h
  split_ifs at h with positive
  cases h
  exact ⟨rfl, positive⟩

theorem Base.applyHistoryPage (base : Base s) {start : Nat} (stored : start ≤ s.durable) :
    Base (s.applyHistoryPage (cursorOf start)) :=
  base.later (.of_eq rfl rfl rfl (Nat.le_refl _) rfl fun _ => rfl) base.durable_le (fun before same => by
      obtain ⟨rfl, positive⟩ := cursorOf_eq_some same
      exact .inr ⟨positive, stored, rfl⟩)
    (fun _ _ same => .inl same) fun _ same => .inl same

theorem Base.loaded (base : Base s) {reload : Reload} (there : s.reloads i = some reload) (messages : List Message)
    (inside : last ≤ s.history.length) : Base (s.loaded i messages last) := by
  unfold State.loaded
  split_ifs
  · refine base.later (.of_eq rfl rfl rfl (Nat.le_succ _) rfl id) base.durable_le (fun _ same => .inl same)
      (fun j other here => ?_) fun _ same => .inl same
    rcases Calls.put_eq_some here with ⟨rfl, rfl⟩ | ⟨_, old⟩
    · exact .inr ⟨base.numbered j reload there, Nat.le_refl _, inside⟩
    · exact .inl old
  · exact base.drop i

theorem Base.setEarlier (base : Base s) {earlier : Option Earlier} (of : ∀ e, earlier = some e → EarlierOf s e) :
    Base { s with earlier := earlier } :=
  base.later (.of_eq rfl rfl rfl (Nat.le_refl _) rfl id) base.durable_le (fun _ same => .inl same)
    (fun _ _ same => .inl same) fun e here =>
      .inr ((of e here).later (.of_eq rfl rfl rfl (Nat.le_refl _) rfl id) base.durable_le)

theorem serves_read (base : Base s) : ReadOf s (s.serves none) := by
  obtain ⟨start, at', _⟩ := serves_at s base.durable_le none
  have total := serves_total s base.durable_le none
  have whole : min ((none : Option Nat).getD s.durable) s.durable = (s.serves none).total := by
    rw [total, Option.getD_none, Nat.min_self]
  rw [whole] at at'
  exact ⟨Nat.le_of_eq total, start, at'⟩

theorem serves_before (base : Base s) {before : Nat} (positive : 0 < before) (stored : before ≤ s.durable) :
    ∃ start, start < before ∧ PageAt s.history (s.serves (some before)) start before := by
  obtain ⟨start, at', less⟩ := serves_at s base.durable_le (some before)
  have whole : min ((some before).getD s.durable) s.durable = before := Nat.min_eq_left stored
  rw [whole] at at' less
  exact ⟨start, less positive, at'⟩

theorem Base.durableArrives (base : Base s) {streaming : Bool} {page : Page}
    (there : s.reloads i = some (.durable streaming (some page))) :
    Base (s.durableArrives i streaming page) := by
  obtain ⟨total, start, at'⟩ := base.reloads i _ there
  have applied := base.applyHistoryPage (Nat.le_trans at'.le total)
  rw [← at'.before] at applied
  unfold State.durableArrives
  split_ifs
  · exact applied.put there ⟨total, start, at'⟩
  · exact applied.loaded there page.messages (Nat.le_trans total base.durable_le)

theorem Base.resume (base : Base s) {reload : Reload} {a : Action} (there : s.reloads i = some reload)
    (h : s.resume i reload a = some t) :
    Base t := by
  have of := base.reloads i reload there
  unfold State.resume at h
  split at h
  · cases h
    exact base.put there trivial
  · cases h
    exact base.put there (serves_read base)
  · cases h
    exact base.durableArrives there
  · rename_i page _ start
    unfold State.liveServed at h
    split_ifs at h with whole window window
    all_goals
      cases h
      have covers := Nat.le_trans of.1 base.durable_le
      refine base.put there ⟨of, covers, Nat.le_refl _, start, (slice_length s.history start).symm, ?_⟩
    · rw [if_pos whole]
      exact window.2
    · rw [if_neg whole]
      exact window
  · cases h
    exact (base.applyHistoryPage (Nat.zero_le _)).loaded there _ of.2.2.1
  · rename_i page snapshot _
    cases h
    have read : ReadOf s page := by
      cases snapshot with
      | none => exact of
      | some snapshot => exact of.1
    exact base.loaded there _ (Nat.le_trans read.1 base.durable_le)
  · rename_i job turn turns last _
    cases h
    have drawn := base.shown ((takeTailChunk 60 false [] (turn :: turns)).1 ++ s.rendered) s.last
    unfold State.chunk
    split_ifs
    · exact drawn.put there of
    · exact base.drop i
  · cases h
    exact (base.drop i).shown _ _
  · cases h

theorem Base.resumeEarlier (base : Base s) {earlier : Earlier} {a : Action} (there : s.earlier = some earlier)
    (h : s.resumeEarlier earlier a = some t) : Base t := by
  have of := base.earlier earlier there
  unfold State.resumeEarlier at h
  split at h
  · cases h
    obtain ⟨positive, stored, _⟩ := of
    refine base.setEarlier fun e here => ?_
    cases here
    refine ⟨positive, stored, fun read same => ?_⟩
    cases same
    exact serves_before base positive stored
  · cases h
    exact base.setEarlier fun _ none => by cases none
  · cases h
    obtain ⟨positive, stored, read⟩ := of
    obtain ⟨start, less, at'⟩ := read _ rfl
    unfold State.earlierArrives
    split_ifs
    · rw [at'.before]
      exact (base.applyHistoryPage (Nat.le_trans at'.le stored)).setEarlier fun _ none => by cases none
    · refine base.later (.of_eq rfl rfl rfl (Nat.le_succ _) rfl id) base.durable_le (fun _ same => .inl same)
        (fun _ _ same => .inl same)
        fun e here => .inr ?_
      cases here
      exact ⟨Nat.le_refl _, start, _, less, stored, at'⟩
  · rename_i job turn turns page
    cases h
    have drawn := base.shown ((takeTailChunk 60 false [] (turn :: turns)).1 ++ s.rendered) s.last
    unfold State.earlierChunk
    split_ifs
    · refine drawn.setEarlier fun e here => ?_
      cases here
      exact of
    · exact base.setEarlier fun _ none => by cases none
  · cases h
    obtain ⟨_, start, before, less, stored, at'⟩ := of
    rw [at'.before]
    exact (base.applyHistoryPage (Nat.le_trans at'.le stored)).setEarlier fun _ none => by cases none
  · cases h

theorem Base.grow (base : Base s) {messages : List Message} {durable : Nat}
    (h : step s (.grow messages durable) = some t) : Base t := by
  obtain ⟨⟨more, inside⟩, same⟩ := Option.ite_none_right_eq_some.mp h
  cases same
  exact base.later ⟨⟨messages, rfl⟩, more, Nat.le_refl _, Nat.le_refl _, rfl, id⟩ inside (fun _ same => .inl same)
    (fun _ _ same => .inl same)
    fun _ same => .inl same

theorem Base.reload (base : Base s) {alive : Bool} (h : step s (.reload alive) = some t) : Base t := by
  cases h
  refine base.later ⟨List.prefix_rfl, Nat.le_refl _, Nat.le_succ _, Nat.le_refl _, rfl, id⟩ base.durable_le
    (fun _ same => .inl same) (fun j reload here => ?_) fun _ same => .inl same
  rcases Calls.put_eq_some here with ⟨rfl, rfl⟩ | ⟨_, old⟩
  · refine .inr ⟨Nat.le_refl _, ?_⟩
    cases alive <;> exact trivial
  · exact .inl old

theorem Base.loadEarlier (base : Base s) : Base s.loadEarlier := by
  unfold State.loadEarlier
  split
  · rename_i before stored
    split_ifs
    · exact base
    · refine base.setEarlier fun e here => ?_
      cases here
      obtain ⟨positive, inside, _⟩ := base.cursor before stored
      exact ⟨positive, inside, fun _ none => by cases none⟩
  · exact base

theorem Base.step (base : Base s) {a : Action} (h : step s a = some t) : Base t := by
  cases a with
  | grow messages durable => exact base.grow h
  | reload alive => exact base.reload h
  | loadEarlier =>
    cases h
    exact base.loadEarlier
  | stateArrives | durableServed | durableArrives | liveServed | liveArrives | liveFails | chunk | complete =>
    obtain ⟨reload, there, resumed⟩ := Option.bind_eq_some_iff.mp h
    exact base.resume there resumed
  | earlierServed | earlierFails | earlierArrives | earlierChunk | earlierComplete =>
    obtain ⟨earlier, there, resumed⟩ := Option.bind_eq_some_iff.mp h
    exact base.resumeEarlier there resumed

theorem base_opened (history : List Message) (durable : Nat) (merges : Bool) : Base (opened history durable merges) where
  durable_le := Nat.min_le_right _ _
  cursor _ none := by cases none
  numbered _ _ none := by cases none
  reloads _ _ none := by cases none
  earlier _ none := by cases none

end TranscriptView
