import Oyster.ManagerCallbacks

/-! The unhandled rejections that failing operations of the store leave in the managers: where the rejection of an
operation is caught, where it ends a promise that nobody awaits, and that a run leaves one exactly if an
operation of the latter kind rejects in it, or a child tells a session reference that is not valid. -/
namespace ManagerCallbacks
open Promises Interleaving RoutineManager SessionReference

/-- The operations whose rejection ends a callback, or a promise that it detaches. -/
def exposed : Task → Op → Bool
  | .startRunner _, .updateRunner => true
  | .stopRunner _, .updateRunner | .stopRunner _, .flushTranscript => true
  | .procExit .., .updateRunner => true
  | .trackRunner .., .ensureSessionOwner | .trackRunner .., .reidentify | .trackRunner .., .updateRunner => true
  | .webPush, .listSubscriptions => true
  | .line .., .findRun | .line .., .updateProgress .. | .line .., .appendLog _ | .line .., .findLatestRun | .line .., .listLogs => true
  | .finalizeClose _, .findRun | .finalizeClose _, .updateProgress .. | .finalizeClose _, .finishRun _
  | .finalizeClose _, .findLatestRun | .finalizeClose _, .listLogs => true
  | .urlTimeout _, .findHublot | .urlTimeout _, .recordTransition _ => true
  | .output .., .updateProcess | .output .., .findHublot | .output .., .recordTransition _ => true
  | .publicReady _, .findHublot | .publicReady _, .recordTransition .failed => true
  | .tunnelError _, .findProcess | .tunnelError _, .updateProcess | .tunnelError _, .findHublot
  | .tunnelError _, .recordTransition _ => true
  | .tunnelExit _, .findProcess | .tunnelExit _, .updateProcess | .tunnelExit _, .findHublot | .tunnelExit _, .listProcesses
  | .tunnelExit _, .recordTransition _ => true
  | _, _ => false

theorem not_awaited_of_exposed (task : Task) (op : Op) (h : exposed task op = true) : awaited task = false := by
  cases task with
  | startRequested r => cases op <;> cases h
  | stopRequested r => cases op <;> cases h
  | runScript c mode => cases op <;> cases h
  | openTunnel t id port => cases op <;> cases h
  | _ => rfl

/-- No line task has been rejected. -/
def Kept (s : State) : Prop := ∀ c, (s.scripts c).rejected = []

abbrev Sound {α : Type} (task : Task) (E F : State → Prop) (p : M α) : Prop := Keeps exposed awaited Kept task E F p

abbrev Detached (task : Task) (p : M Unit) : Prop := TaskKeeps exposed awaited Kept task p

abbrev Leads (task : Task) (E F : State → Prop) (op : Op) : Prop := Rejects exposed Kept task E F op

variable {task : Task} {op : Op}

theorem leads_task (h : exposed task op = true ∨ awaited task = true) :
    Leads task (Ends awaited task) (fun _ => True) op := by
  intro s _
  split
  · trivial
  · next handled => exact h.resolve_left handled

variable {E F : State → Prop}

theorem leads_caught (handled : exposed task op = false) (caught : ∀ s, Kept s → E s) : Leads task E F op := by
  intro s kept
  rw [handled, if_neg Bool.false_ne_true]
  exact caught s kept

theorem leads_exposed (ends : exposed task op = true) (thrown : ∀ s, F s) : Leads task E F op := by
  intro s _
  rw [if_pos ends]
  exact thrown s

section
variable {task : Task} {E F : State → Prop}

theorem sound_call {op : Op} (leads : Leads task E F op) : Sound task E F (call op) := Keeps.call leads

theorem sound_logged {p : M Unit} (tried : Sound task Kept (fun _ => False) p) : Sound task E F (logged p) := Keeps.tryCatch tried

theorem sound_join (op : Op) (answer : Answer op) (handled : exposed task op = false) : Sound task E F (join op answer) :=
  Keeps.tryCatch (sound_call (leads_caught handled fun _ kept => kept))

theorem sound_readRunner (r : Nat) : Sound task E F (readRunner r) := Keeps.bind .read fun _ => .pure _

theorem sound_readWorld : Sound task E F readWorld := Keeps.bind .read fun _ => .pure _

theorem sound_setRunner (r : Nat) (f : Runner → Runner) : Sound task E F (setRunner r f) := Keeps.update fun _ kept => kept

theorem detached_runnerWrite (r : Nat) (type : String) (bytes : Nat) : Detached (.runnerWrite r) (runnerWrite type bytes) :=
  Keeps.ite (sound_logged (sound_call (leads_caught rfl fun _ kept => kept))) (.pure _)

theorem sound_runnerEvent (r : Nat) (type : String) : Sound task E F (runnerEvent r type) :=
  sound_readWorld.bind fun _ => .start (detached_runnerWrite r type _)

theorem sound_setRunnerAttention (r : Nat) (status : Option String) (unread : Bool) :
    Sound task E F (setRunnerAttention r status unread) := by
  have persisted : Detached (.attention r) (logged (call Op.updateRunner)) :=
    sound_logged (sound_call (leads_caught rfl fun _ kept => kept))
  exact (sound_readRunner r).bind fun _ => .ite (.pure _) ((sound_setRunner r _).bind fun _ => .start persisted)

theorem sound_sendToRunner (r : Nat) : Sound task E F (sendToRunner r) :=
  (sound_readRunner r).bind fun _ => .ite (.pure _) (.pure _)

theorem sound_requestState (r : Nat) : Sound task E F (requestState r) := Keeps.start (sound_sendToRunner r)

theorem sound_finishResume (r : Nat) : Sound task E F (finishResume r) := sound_setRunner r _

theorem detached_webPush : Detached .webPush webPush := by
  have delivered (b : Nat) : Sound .webPush (Ends awaited .webPush) (fun _ => True) (deliver b) := by
    refine sound_logged ((sound_call (leads_caught rfl fun _ kept => kept)).bind fun delivery => ?_)
    cases delivery with
    | delivered => exact sound_logged (sound_call (leads_caught rfl fun _ kept => kept))
    | gone => exact sound_call (leads_caught rfl fun _ kept => kept)
    | failed => exact .pure _
  exact (sound_call (leads_task (.inl rfl))).bind fun _ => .forEach delivered

theorem sound_notifyRunnerEvent (r : Nat) (event : DriverEvent) : Sound task E F (notifyRunnerEvent r event) := by
  cases event with
  | agentStart => exact sound_readWorld.bind fun _ => sound_setRunner r _
  | agentSettled =>
    exact sound_readWorld.bind fun _ => (sound_readRunner r).bind fun _ => (sound_setRunner r _).bind fun _ =>
      .ite (.start detached_webPush) (.pure _)
  | extensionUiRequest method => exact .ite (.start detached_webPush) (.pure _)
  | _ => exact .pure _

theorem detached_titleSession (r : Nat) (sessionId : String) (originalName : Option String) :
    Detached (.title r) (titleSession r sessionId originalName) := by
  refine sound_logged ((sound_call (leads_caught rfl fun _ kept => kept)).bind fun title => (sound_readRunner r).bind fun runner => ?_)
  cases title with
  | none => exact .pure _
  | some title =>
    exact .ite (.pure _) ((sound_requestState r).bind fun _ => (sound_setRunner r _).bind fun _ =>
      sound_call (leads_caught rfl fun _ kept => kept))

theorem detached_maybeTitleSession (r : Nat) (d : SessionState) : Detached (.maybeTitleSession r) (maybeTitleSession r d) := by
  refine sound_readWorld.bind fun world => (sound_readRunner r).bind fun runner => ?_
  cases titleRequest world runner d with
  | none => exact .pure _
  | some sessionId =>
    have loaded : Sound (.maybeTitleSession r) (Ends awaited (.maybeTitleSession r)) (fun _ => True)
        ((some <$> call Op.messages).tryCatch (pure none)) :=
      Keeps.tryCatch (Keeps.map (sound_call (leads_caught rfl fun _ kept => kept)))
    exact (sound_setRunner r _).bind fun _ => loaded.bind fun _ => (sound_setRunner r _).bind fun _ =>
      (sound_readRunner r).bind fun _ => .ite (.pure _) ((sound_setRunner r _).bind fun _ =>
        .start (detached_titleSession r sessionId _))

theorem sound_persistRunnerState (reference : Option Reference) (own : Leads task E F .ensureSessionOwner)
    (update : Leads task E F .updateRunner) : Sound task E F (persistRunnerState reference) :=
  Keeps.ite ((sound_call own).bind fun _ => sound_call update) (sound_call update)

variable {s : State} {α : Type} {Q : α → State → Prop}

theorem wp_readRunner {r : Nat} {f : Runner → M α} (h : wp exposed awaited Kept task E F (f (s.runners r)) Q s) :
    wp exposed awaited Kept task E F (readRunner r >>= f) Q s := h

section
variable (codec : Codec) (sessionReference : SessionState → Option Reference → Option Reference)

/-- A state that a child has told names no reference that the codec rejects. -/
def Valid (runner : Runner) : DriverEvent → Prop
  | .response id success command (some d) => success = true → command = "get_state" → id ≠ some runner.resumeId →
      ∃ reference, nextReference codec sessionReference runner d = .ok reference
  | _ => True

variable {codec sessionReference} {r : Nat} {event : DriverEvent}

theorem wp_handleGetStateResponse {d : SessionState} {s : State} {reference : Option Reference} (kept : Kept s)
    (valid : nextReference codec sessionReference (s.runners r) d = .ok reference) :
    wp exposed awaited Kept (.trackRunner r event) (Ends awaited (.trackRunner r event)) (fun _ => True)
      (handleGetStateResponse codec sessionReference r d) (fun _ => Kept) s := by
  have told (busy : Bool) : Detached (.trackRunner r event) (do
      setRunner r fun runner => { runner with busy }
      Async.start (.maybeTitleSession r) (maybeTitleSession r d)) :=
    (sound_setRunner r _).bind fun _ => .start (detached_maybeTitleSession r d)
  have persisted (busy : Bool) : Detached (.trackRunner r event) (do
      persistRunnerState reference
      setRunner r fun runner => { runner with busy }
      Async.start (.maybeTitleSession r) (maybeTitleSession r d)) :=
    (sound_persistRunnerState reference (leads_task (.inl rfl)) (leads_task (.inl rfl))).bind fun _ => told busy
  refine wp_readRunner ?_
  simp only [valid]
  refine (sound_setRunner r _).bind (fun _ => ?_) s kept
  refine .ite ?_ (told _)
  exact .ite ((sound_call (leads_task (.inl rfl))).bind fun _ => persisted _) (persisted _)

theorem wp_trackRunner {s : State} (kept : Kept s) (valid : Valid codec sessionReference (s.runners r) event) :
    wp exposed awaited Kept (.trackRunner r event) (Ends awaited (.trackRunner r event)) (fun _ => True)
      (trackRunner codec sessionReference r event) (fun _ => Kept) s := by
  have requested : Detached (.trackRunner r event) (requestState r) := sound_requestState r
  cases event with
  | response id success command data =>
    refine wp_readRunner ?_
    split
    · exact (sound_finishResume r).bind (fun _ => .ite requested (.pure _)) s kept
    · next other =>
        split
        · next succeeded =>
            cases data with
            | none => exact Keeps.ite requested (.pure _) s kept
            | some d =>
              dsimp only
              split
              · next state =>
                  obtain ⟨reference, ok⟩ := valid succeeded state other
                  exact wp_handleGetStateResponse kept ok
              · exact Keeps.ite requested (.pure _) s kept
        · exact kept
  | extensionUiRequest method =>
    exact (sound_notifyRunnerEvent r _).bind (fun _ => .ite (sound_setRunnerAttention r _ _) (.pure _)) s kept
  | agentStart =>
    exact (sound_notifyRunnerEvent r _).bind (fun _ => (sound_setRunnerAttention r _ _).bind fun _ => sound_setRunner r _) s kept
  | agentEnd willRetry =>
    exact (sound_notifyRunnerEvent r _).bind (fun _ => (sound_setRunner r _).bind fun _ => requested) s kept
  | agentSettled =>
    exact (sound_notifyRunnerEvent r _).bind (fun _ => (sound_setRunner r _).bind fun _ => (sound_readRunner r).bind fun _ =>
      .ite ((sound_setRunnerAttention r _ _).bind fun _ => requested) requested) s kept
  | compactionStart => exact (sound_notifyRunnerEvent r _).bind (fun _ => sound_setRunner r _) s kept
  | compactionEnd reason =>
    exact (sound_notifyRunnerEvent r _).bind (fun _ => .ite ((sound_setRunner r _).bind fun _ => requested) (.pure _)) s kept
  | harnessAuthFailed =>
    exact (sound_notifyRunnerEvent r _).bind (fun _ => sound_logged (sound_call (leads_caught rfl fun _ kept => kept))) s kept
  | other type => exact (sound_notifyRunnerEvent r _).bind (fun _ => .pure _) s kept

end

theorem sound_launch (r : Nat) : Sound task E F (launch r) :=
  Keeps.bind .read fun _ => Keeps.bind (.update fun _ kept => kept) fun _ => .pure _

theorem sound_deferRunnerStart (r : Nat) : Sound task E F (deferRunnerStart r) := by
  refine Keeps.update fun s kept => ?_
  split
  · exact kept
  · exact kept

theorem sound_startRunner (r : Nat) (update : Leads task E F .updateRunner) : Sound task E F (startRunner r) := by
  have dead : Sound task E F (do
      call Op.updateRunner
      runnerEvent r "pi_error") := (sound_call update).bind fun _ => sound_runnerEvent r _
  refine sound_readWorld.bind fun world => (sound_readRunner r).bind fun runner => .ite (.pure _) (.ite (sound_deferRunnerStart r) ?_)
  refine (sound_setRunner r _).bind fun _ => (sound_call update).bind fun _ => sound_readWorld.bind fun _ => .ite dead ?_
  refine (sound_launch r).bind fun proc => (sound_call update).bind fun _ => Keeps.bind .read fun s => .ite (.pure _) ?_
  exact (sound_setRunner r _).bind fun _ => sound_runnerEvent r _

theorem sound_stopRunner (r : Nat) (update : Leads task E F .updateRunner) (flush : Leads task E F .flushTranscript) :
    Sound task E F (stopRunner r) :=
  (sound_readRunner r).bind fun _ => (sound_call update).bind fun _ => (sound_setRunner r _).bind fun _ =>
    .ite (sound_call flush) ((sound_setRunner r _).bind fun _ => sound_call flush)

theorem detached_startRunner (r : Nat) : Detached (.startRunner r) (startRunner r) := sound_startRunner r (leads_task (.inl rfl))

theorem detached_stopRunner (r : Nat) : Detached (.stopRunner r) (stopRunner r) :=
  sound_stopRunner r (leads_task (.inl rfl)) (leads_task (.inl rfl))

theorem detached_onStartTimer (r timer : Nat) : Detached (.startTimer r timer) (onStartTimer r timer) :=
  Keeps.bind .read fun _ => .ite ((sound_setRunner r _).bind fun _ => .ite (.start (detached_startRunner r)) (.pure _)) (.pure _)

theorem detached_onProcError (r proc : Nat) : Detached (.procError r proc) (onProcError r proc) := by
  have persisted : Detached (.procFailed r) (logged (call Op.updateRunner)) :=
    sound_logged (sound_call (leads_caught rfl fun _ kept => kept))
  exact Keeps.bind (.update fun _ kept => kept) fun _ => (sound_runnerEvent r _).bind fun _ =>
    (sound_setRunner r _).bind fun _ => .start persisted

theorem detached_onProcExit (r proc : Nat) : Detached (.procExit r proc) (onProcExit r proc) :=
  (sound_readRunner r).bind fun _ => .ite ((sound_setRunner r _).bind fun _ => (sound_call (leads_task (.inl rfl))).bind fun _ =>
    sound_runnerEvent r _) (.pure _)

theorem detached_onStoppedExit (r : Nat) : Detached (.stoppedExit r) (onStoppedExit r) :=
  (sound_readRunner r).bind fun _ => .ite (sound_runnerEvent r _) (.pure _)

theorem detached_watchdogTick : Detached .watchdogTick watchdogTick := by
  have watched (r : Nat) : Detached .watchdogTick (watch r) := by
    refine sound_readWorld.bind fun world => (sound_readRunner r).bind fun runner => .ite (.pure _) (.ite (sound_setRunner r _) ?_)
    refine .ite ?_ ((sound_setRunner r _).bind fun _ => .start (sound_sendToRunner r))
    exact (sound_setRunner r _).bind fun _ => (sound_runnerEvent r _).bind fun _ =>
      Keeps.bind (.start (detached_stopRunner r)) fun _ => .start (detached_startRunner r)
  exact sound_readWorld.bind fun _ => .forEach watched

theorem detached_reaperTick : Detached .reaperTick reaperTick :=
  sound_readWorld.bind fun _ => .forEach fun r => (sound_readRunner r).bind fun _ =>
    .ite (.pure _) (.start (detached_stopRunner r))

theorem detached_onUiTimeout (r : Nat) : Detached (.uiTimeout r) (onUiTimeout r) :=
  (sound_readRunner r).bind fun _ => .ite (.pure _) ((sound_setRunner r _).bind fun _ =>
    .ite (sound_setRunnerAttention r _ _) (.pure _))

theorem sound_readScript (c : Nat) : Sound task E F (readScript c) := Keeps.bind .read fun _ => .pure _

variable {c : Nat}

theorem kept_setScript {f : Script → Script} (kept : Kept s)
    (same : ∀ script, script.rejected = [] → (f script).rejected = []) : Kept (s.setScript c f) := by
  intro d
  simp only [State.setScript]
  split
  · exact same _ (kept d)
  · exact kept d

theorem sound_setScript (c : Nat) (f : Script → Script) (same : ∀ script, script.rejected = [] → (f script).rejected = []) :
    Sound task E F (setScript c f) := Keeps.update fun _ kept => kept_setScript kept same

theorem sound_emit (latest : Leads task E F .findLatestRun) (logs : Leads task E F .listLogs) : Sound task E F emit :=
  (sound_call latest).bind fun _ => .ite (sound_call logs) (.pure _)

theorem sound_onLine (c n : Nat) (line : Line) (thrown : ∀ s, F s) : Sound (.line c n) E F (onLine line) := by
  have emitted : Sound (.line c n) E F emit := sound_emit (leads_exposed rfl thrown) (leads_exposed rfl thrown)
  cases line with
  | progress percent message =>
    exact (sound_call (leads_exposed rfl thrown)).bind fun _ => (sound_call (leads_exposed rfl thrown)).bind fun _ => emitted
  | output text => exact (sound_call (leads_exposed rfl thrown)).bind fun _ => emitted

theorem detached_lineTask (c n : Nat) (line : Line) : Detached (.line c n) (lineTask c n line) := by
  refine Keeps.bind (.tryCatch ?_) fun _ => sound_setScript c _ fun _ same => same
  exact (sound_join .lineQueue () rfl).bind fun _ => sound_onLine c n line fun _ => trivial

theorem sound_dispatchLine (c : Nat) (line : Line) : Sound task E F (dispatchLine c line) :=
  (sound_readScript c).bind fun _ => (sound_setScript c _ (by exact fun _ same => same)).bind fun _ => .start (detached_lineTask c _ line)

theorem sound_finishRoutineProcess (c : Nat) (script : Script) (exit : Exit) (thrown : ∀ s, F s) :
    Sound (.finalizeClose c) E F (finishRoutineProcess script exit) := by
  have emitted : Sound (.finalizeClose c) E F emit := sound_emit (leads_exposed rfl thrown) (leads_exposed rfl thrown)
  have finished (outcome : Outcome) : Sound (.finalizeClose c) E F (do
      call (Op.finishRun outcome)
      emit) := (sound_call (leads_exposed rfl thrown)).bind fun _ => emitted
  unfold finishRoutineProcess
  cases script.spawnError with
  | some error => exact finished _
  | none =>
    refine (sound_call (leads_exposed rfl thrown)).bind fun current => ?_
    cases RoutineManager.finishRoutineProcess script.mode current exit with
    | completing message outcome => exact (sound_call (leads_exposed rfl thrown)).bind fun _ => finished outcome
    | writing outcome => exact finished outcome
    | _ => exact .pure _

theorem wp_readScript {f : Script → M α} (h : wp exposed awaited Kept task E F (f (s.scripts c)) Q s) :
    wp exposed awaited Kept task E F (readScript c >>= f) Q s := h

theorem detached_finalizeClose (c : Nat) (exit : Exit) : Detached (.finalizeClose c) (finalizeClose c exit) := by
  refine Keeps.finally' (fun _ kept => kept_setScript kept fun _ same => same) ?_
  refine (sound_readScript c).bind fun before => (sound_join .lineTasks () rfl).bind fun _ => ?_
  intro s kept
  refine wp_readScript ?_
  have unrejected : before.tasks.any (· ∈ (s.scripts c).rejected) = false := by
    rw [kept c]
    simp
  simp only [unrejected, Bool.false_eq_true, if_false]
  refine Keeps.ite ?_ (.pure _) s kept
  exact (sound_setScript c _ (by exact fun _ same => same)).bind fun _ => sound_finishRoutineProcess c _ exit fun _ => trivial

theorem detached_onScriptClose (c : Nat) (exit : Exit) : Detached (.scriptClose c exit) (onScriptClose c exit) :=
  (sound_readScript c).bind fun _ => .ite (.start (detached_finalizeClose c exit)) (sound_setScript c _ (by exact fun _ same => same))

theorem detached_onScriptLine (c : Nat) (line : Line) : Detached (.scriptLine c line) (onScriptLine c line) :=
  (sound_readScript c).bind fun _ => .ite (sound_dispatchLine c line) (sound_setScript c _ (by exact fun _ same => same))

theorem detached_runScript (c : Nat) (mode : Mode) : Detached (.runScript c mode) (runScript c mode) := by
  have emitted : Detached (.runScript c mode) emit := sound_emit (leads_task (.inr rfl)) (leads_task (.inr rfl))
  have joined {ready : M Unit} (keeps : Detached (.runScript c mode) ready) : Detached (.runScript c mode)
      (if mode = .run then call (Op.updateProgress (some 0) none) >>= fun _ => ready else ready) :=
    .ite ((sound_call (leads_task (.inr rfl))).bind fun _ => keeps) keeps
  refine (sound_setScript c _ fun _ _ => rfl).bind fun _ => (sound_call (leads_task (.inr rfl))).bind fun _ => joined ?_
  refine (sound_readScript c).bind fun script => (sound_setScript c _ (by exact fun _ same => same)).bind fun _ => ?_
  refine (Keeps.forEach (sound_dispatchLine c)).bind fun _ => ?_
  cases script.pendingClose with
  | some exit => exact Keeps.bind (.start (detached_finalizeClose c exit)) fun _ => emitted
  | none => exact emitted

theorem sound_readTunnel (t : Nat) : Sound task E F (readTunnel t) := Keeps.bind .read fun _ => .pure _

theorem sound_settle (t : Nat) : Sound task E F (settle t) := Keeps.update fun _ kept => kept

theorem sound_recordHublotTransition {status : HublotStatus} (record : Leads task E F (.recordTransition status)) :
    Sound task E F (recordHublotTransition status) := (sound_call record).bind fun _ => .pure _

theorem sound_failOpeningHublot (find : Leads task E F .findHublot) (record : Leads task E F (.recordTransition .failed)) :
    Sound task E F failOpeningHublot :=
  (sound_call find).bind fun _ => .ite (sound_recordHublotTransition record) (.pure _)

theorem sound_finishPersistedProcess (find : Leads task E F .findProcess) (update : Leads task E F .updateProcess) :
    Sound task E F finishPersistedProcess := by
  refine (sound_call find).bind fun found => ?_
  cases found with
  | true => exact sound_call update
  | false => exact .pure _

theorem sound_confirmSpawnedTunnelProcess (tunnel : Tunnel) (update : Leads task E F .updateProcess) :
    Sound task E F (confirmSpawnedTunnelProcess tunnel) :=
  sound_readWorld.bind fun _ => .ite (.pure _) ((sound_call update).bind fun _ => sound_readWorld.bind fun _ => .pure _)

theorem sound_persistedTunnelInfo (row : Hublot) (list : Leads task E F .listProcesses) : Sound task E F (persistedTunnelInfo row) :=
  Keeps.ite ((sound_call list).bind fun _ => .pure _) (.pure _)

theorem sound_persistHublotProcessIdentity (world : World) (list : Leads task E F .listProcesses)
    (upsert : Leads task E F .upsertProcess) (thrown : ∀ s, Kept s → E s) :
    Sound task E F (persistHublotProcessIdentity world) := by
  refine Keeps.ite (.throw thrown) ((sound_call list).bind fun processes => ?_)
  cases List.find? (fun process => process.tunnel && process.pid = world.pid && !process.ended) processes with
  | some process => exact .pure _
  | none => exact (sound_call upsert).bind fun _ => .pure _

theorem detached_openTunnel (t id port : Nat) : Detached (.openTunnel t id port) (openTunnel t id port) := by
  have failed : Detached (.openTunnel t id port) failOpeningHublot :=
    sound_failOpeningHublot (leads_task (.inr rfl)) (leads_task (.inr rfl))
  refine (sound_call (leads_task (.inr rfl))).bind fun _ => .ite (sound_readWorld.bind fun world => .ite failed ?_) (.pure _)
  refine Keeps.bind (.tryCatch (.map (sound_persistHublotProcessIdentity world (leads_caught rfl fun _ kept => kept)
    (leads_caught rfl fun _ kept => kept) fun _ kept => kept))) fun process => ?_
  cases process with
  | some process => exact .update fun _ kept => kept
  | none => exact failed

theorem sound_failTunnel (t : Nat) (find : Leads task E F .findHublot) (record : Leads task E F (.recordTransition .failed)) :
    Sound task E F (failTunnel t) :=
  (sound_readTunnel t).bind fun _ => .ite (.pure _) ((sound_settle t).bind fun _ => sound_failOpeningHublot find record)

theorem detached_confirmPublicReadiness (t : Nat) : Detached (.publicReady t) (confirmPublicReadiness t) := by
  have failed : Detached (.publicReady t) (failTunnel t) := sound_failTunnel t (leads_task (.inl rfl)) (leads_task (.inl rfl))
  have caught {op : Op} (handled : exposed (.publicReady t) op = false) : Leads (.publicReady t)
      (wp exposed awaited Kept (.publicReady t) (Ends awaited (.publicReady t)) (fun _ => True) (failTunnel t) fun _ => Kept)
      ((failTunnel t).throws fun _ => True) op := leads_caught handled failed
  refine Keeps.tryCatch ((sound_call (caught rfl)).bind fun _ => (sound_readTunnel t).bind fun _ => .ite (.pure _) ?_)
  exact (sound_settle t).bind fun _ => (sound_call (caught rfl)).bind fun row => sound_persistedTunnelInfo row (caught rfl)

theorem detached_onUrlTimeout (t : Nat) : Detached (.urlTimeout t) (onUrlTimeout t) :=
  sound_failTunnel t (leads_task (.inl rfl)) (leads_task (.inl rfl))

theorem detached_onOutput (t : Nat) (url : Option String) : Detached (.output t url) (onOutput t url) := by
  refine (sound_readTunnel t).bind fun tunnel => ?_
  cases tunnel with
  | none => exact .pure _
  | some tunnel =>
    cases url with
    | none => exact .pure _
    | some url =>
      refine .ite (.pure _) (Keeps.bind (.update fun _ kept => kept) fun _ => ?_)
      refine (sound_confirmSpawnedTunnelProcess tunnel (leads_task (.inl rfl))).bind fun confirmed => ?_
      exact .ite (.start (detached_confirmPublicReadiness t)) ((sound_settle t).bind fun _ =>
        sound_failOpeningHublot (leads_task (.inl rfl)) (leads_task (.inl rfl)))

theorem detached_onTunnelError (t : Nat) : Detached (.tunnelError t) (onTunnelError t) :=
  (sound_readTunnel t).bind fun _ => .ite ((sound_finishPersistedProcess (leads_task (.inl rfl)) (leads_task (.inl rfl))).bind fun _ =>
    sound_failTunnel t (leads_task (.inl rfl)) (leads_task (.inl rfl))) (.pure _)

theorem detached_onTunnelExit (t : Nat) : Detached (.tunnelExit t) (onTunnelExit t) := by
  refine (sound_readTunnel t).bind fun tunnel => ?_
  cases tunnel with
  | none => exact .pure _
  | some tunnel =>
    refine (sound_finishPersistedProcess (leads_task (.inl rfl)) (leads_task (.inl rfl))).bind fun _ =>
      (sound_readTunnel t).bind fun now => .ite ((sound_settle t).bind fun _ =>
        sound_failOpeningHublot (leads_task (.inl rfl)) (leads_task (.inl rfl))) ?_
    refine (sound_call (leads_task (.inl rfl))).bind fun current => (sound_call (leads_task (.inl rfl))).bind fun processes =>
      sound_readWorld.bind fun world => ?_
    cases current with
    | none => exact .pure _
    | some current =>
      refine .ite ((sound_recordHublotTransition (leads_task (.inl rfl))).bind fun _ =>
        (sound_call (leads_task (.inl rfl))).bind fun latest => ?_) (.pure _)
      cases latest with
      | none => exact .pure _
      | some latest => exact sound_persistedTunnelInfo latest (leads_task (.inl rfl))

end

section
variable (codec : Codec) (sessionReference : SessionState → Option Reference → Option Reference)

/-- Where a callback starts, no child of a runner tells an invalid reference that is looked at. -/
def Starts (s : State) : Task → Prop
  | .driverEvent r proc event _ => (s.runners r).proc = some proc → Valid codec sessionReference (s.runners r) event
  | _ => True

variable {codec sessionReference} {r : Nat} {event : DriverEvent} {s : State}

theorem wp_emitDriverEvent {proc bytes : Nat} (kept : Kept s)
    (valid : (s.runners r).proc = some proc → Valid codec sessionReference (s.runners r) event) :
    wp exposed awaited Kept (.driverEvent r proc event bytes) (Ends awaited (.driverEvent r proc event bytes)) (fun _ => True)
      (emitDriverEvent codec sessionReference r proc event bytes) (fun _ => Kept) s := by
  refine wp_readRunner ?_
  split
  · next current =>
      have same : Valid codec sessionReference
          ((s.setRunner r fun runner => { runner with lastLineAt := s.world.now }).runners r) event := by
        simp only [State.setRunner, if_true]
        cases event with
        | response id success command data => cases data <;> exact valid current
        | _ => trivial
      refine wp_bind (wp_update kept ?_)
      refine wp_bind (wp_start (wp_mono (fun _ _ _ => trivial) (wp_trackRunner kept same)) fun s kept => ?_)
      exact Keeps.start (detached_runnerWrite r _ _) s kept
  · exact kept

theorem wp_body (task : Task) (s : State) (kept : Kept s) (starts : Starts codec sessionReference s task) :
    wp exposed awaited Kept task (Ends awaited task) (fun _ => True) (body codec sessionReference task) (fun _ => Kept) s := by
  cases task with
  | driverEvent r proc event bytes => exact wp_emitDriverEvent kept starts
  | world world => exact ⟨kept, kept⟩
  | request r runner => exact sound_setRunner r _ s kept
  | startRequested r => exact sound_startRunner r (leads_task (.inr rfl)) s kept
  | stopRequested r => exact sound_stopRunner r (leads_task (.inr rfl)) (leads_task (.inr rfl)) s kept
  | startTimer r timer => exact detached_onStartTimer r timer s kept
  | procError r proc => exact detached_onProcError r proc s kept
  | procExit r proc => exact detached_onProcExit r proc s kept
  | stoppedExit r => exact detached_onStoppedExit r s kept
  | watchdogTick => exact detached_watchdogTick s kept
  | reaperTick => exact detached_reaperTick s kept
  | uiTimeout r => exact detached_onUiTimeout r s kept
  | runScript c mode => exact detached_runScript c mode s kept
  | scriptLine c line => exact detached_onScriptLine c line s kept
  | scriptError c message => exact sound_setScript c _ (by exact fun _ same => same) s kept
  | scriptClose c exit => exact detached_onScriptClose c exit s kept
  | openTunnel t id port => exact detached_openTunnel t id port s kept
  | urlTimeout t => exact detached_onUrlTimeout t s kept
  | output t url => exact detached_onOutput t url s kept
  | tunnelError t => exact detached_onTunnelError t s kept
  | tunnelExit t => exact detached_onTunnelExit t s kept
  | _ => exact kept

theorem trackRunner_throws {id : Option (Option String)} {d : SessionState} {error : String}
    (other : id ≠ some (s.runners r).resumeId)
    (invalid : nextReference codec sessionReference (s.runners r) d = .error error) :
    (trackRunner codec sessionReference r (.response id true "get_state" (some d))).throws (fun _ => True) s := by
  have thrown : (handleGetStateResponse codec sessionReference r d).throws (fun _ => True) s := by
    have reads {f : Runner → M Unit} : (readRunner r >>= f).throws (fun _ => True) s = (f (s.runners r)).throws (fun _ => True) s := rfl
    unfold handleGetStateResponse
    rw [reads, invalid]
    trivial
  change Async.throws (if id = some (s.runners r).resumeId then _ else _) _ s
  rw [if_neg other]
  exact thrown

theorem exists_of_not_valid {runner : Runner} (invalid : ¬Valid codec sessionReference runner event) :
    ∃ id d error, event = .response id true "get_state" (some d) ∧ id ≠ some runner.resumeId ∧
      nextReference codec sessionReference runner d = .error error := by
  cases event with
  | response id success command data =>
    cases data with
    | none => exact absurd trivial invalid
    | some d =>
      obtain ⟨succeeded, invalid⟩ := Classical.not_imp.mp invalid
      obtain ⟨state, invalid⟩ := Classical.not_imp.mp invalid
      obtain ⟨other, unvalidated⟩ := Classical.not_imp.mp invalid
      cases told : nextReference codec sessionReference runner d with
      | error error => exact ⟨id, d, error, by rw [succeeded, state], other, told⟩
      | ok reference => exact absurd ⟨reference, told⟩ unvalidated
  | _ => exact absurd trivial invalid

theorem invalid_reference_unhandled {task : Task} {s : System State Op Answer Task}
    (broken : ¬Starts codec sessionReference s.state task) :
    (s.resume awaited task (body codec sessionReference task)).unhandled ≠ [] := by
  cases task with
  | driverEvent r proc event bytes =>
    obtain ⟨current, invalid⟩ := Classical.not_imp.mp broken
    obtain ⟨id, d, error, rfl, other, told⟩ := exists_of_not_valid invalid
    let event : DriverEvent := .response id true "get_state" (some d)
    let seen : System State Op Answer Task :=
      { s with state := s.state.setRunner r fun runner => { runner with lastLineAt := s.state.world.now } }
    have same : seen.state.runners r = { s.state.runners r with lastLineAt := s.state.world.now } := if_pos rfl
    have thrown : (trackRunner codec sessionReference r event).throws (fun _ => True) seen.state := by
      have unresumed : id ≠ some (seen.state.runners r).resumeId := by
        rw [same]
        exact other
      have rejected : nextReference codec sessionReference (seen.state.runners r) d = .error error := by
        rw [same]
        exact told
      exact trackRunner_throws unresumed rejected
    have inside : .trackRunner r event ∈
        (seen.resume awaited (.trackRunner r event) (trackRunner codec sessionReference r event)).unhandled :=
      resume_unhandled thrown rfl
    change (s.resume awaited (.driverEvent r proc event bytes)
      (if (s.state.runners r).proc = some proc then _ else _)).unhandled ≠ []
    rw [if_pos current]
    have left := (unhandled_detach seen (.driverEvent r proc event bytes) (.trackRunner r event)
      (trackRunner codec sessionReference r event) (Async.start (.runnerWrite r) (runnerWrite "response" bytes))).subset inside
    exact List.ne_nil_of_mem left
  | _ => exact absurd trivial broken

end

theorem inv_start : Inv exposed awaited Kept ({ state := {} } : System State Op Answer Task) where
  kept := fun _ => rfl
  fits := fun _ _ found => (nomatch found)
  handled := rfl

/-- A run of the managers leaves no unhandled rejection exactly if no operation at an exposed place rejects in it and
no child tells an invalid reference. -/
theorem unhandled_iff_exposed (codec : Codec) (sessionReference : SessionState → Option Reference → Option Reference)
    (events : List (Event Op Answer Task)) (s : System State Op Answer Task)
    (run : Run (step codec sessionReference) Free { state := {} } events s) :
    s.unhandled = [] ↔
      Run (step codec sessionReference) (Unexposed exposed (Starts codec sessionReference)) { state := {} } events s :=
  unhandled_eq_nil_iff inv_start not_awaited_of_exposed wp_body (fun _ _ => invalid_reference_unhandled) run

def sampleCodec : Codec := ⟨⟨id, fun _ path => path, fun _ => false, Eq.refl⟩, "/sessions", "/sessions.sqlite"⟩

def answers : (op : Op) → Answer op
  | .messages => (0 : Nat)
  | .summarizeTitle => (none : Option String)
  | .listSubscriptions => ([] : List Nat)
  | .sendNotification => Delivery.delivered
  | .findRun | .findLatestRun => (none : Option Row)
  | .findHublot => some (⟨0, 8080, .opening, false⟩ : Hublot)
  | .listProcesses => ([] : List Process)
  | .findProcess => true
  | .upsertProcess => (⟨0, true, false, 2⟩ : Process)
  | .recordTransition status => (⟨0, 8080, status, false⟩ : Hublot)
  | .updateRunner | .appendRunnerEvent | .ensureSessionOwner | .reidentify | .onHarnessAuthFailure | .flushTranscript
  | .markDelivered | .deleteSubscription | .createRun | .listLogs | .updateProgress .. | .appendLog _ | .finishRun _
  | .lineQueue | .lineTasks | .updateProcess | .waitForPublic => ()

def sample (events : List (Event Op Answer Task)) : Option (System State Op Answer Task) :=
  exec (step sampleCodec fun _ reference => reference) { state := {} } events

def caughtFailures : List (Event Op Answer Task) :=
  [.fires (.world { now := 5000, runners := [0], identified := [0] }), .fires (.startRequested 0), .settles 0 answers,
    .settles 1 answers, .rejects 2, .fires (.driverEvent 0 0 .agentStart 10), .rejects 3, .fires (.openTunnel 0 0 8080),
    .settles 4 answers, .settles 5 answers, .settles 6 answers, .fires (.output 0 (some "https://a.trycloudflare.com")),
    .settles 7 answers, .settles 8 answers, .rejects 9]

theorem unhandled_iff_exposed_caughtFailures :
    ∃ s, Run (step sampleCodec fun _ reference => reference) Free { state := {} } caughtFailures s ∧ s.unhandled = [] ∧
      (s.unhandled = [] ↔ Run (step sampleCodec fun _ reference => reference)
        (Unexposed exposed (Starts sampleCodec fun _ reference => reference)) { state := {} } caughtFailures s) := by
  have checked : ((sample caughtFailures).any fun s => decide (s.unhandled = [])) = true := by decide +kernel
  obtain ⟨s, ran, handled⟩ := (Option.any_eq_true _ _).mp checked
  have run := run_of_exec ran
  exact ⟨s, run, of_decide_eq_true handled, unhandled_iff_exposed _ _ _ s run⟩

theorem exists_unhandled {events : List (Event Op Answer Task)}
    (checked : ((sample events).any fun s => decide (task ∈ s.unhandled)) = true) :
    ∃ s, Run (step sampleCodec fun _ reference => reference) Free { state := {} } events s ∧ task ∈ s.unhandled := by
  obtain ⟨s, ran, unhandled⟩ := (Option.any_eq_true _ _).mp checked
  exact ⟨s, run_of_exec ran, of_decide_eq_true unhandled⟩

/-- A runner's child exits, and its row cannot be written. -/
theorem exit_unhandled : ∃ s, Run (step sampleCodec fun _ reference => reference) Free { state := {} }
        [.fires (.world { now := 5000, runners := [0] }), .fires (.startRequested 0), .settles 0 answers, .settles 1 answers,
          .settles 2 answers, .fires (.procExit 0 0), .rejects 3] s ∧ .procExit 0 0 ∈ s.unhandled :=
  exists_unhandled (by decide +kernel)

end ManagerCallbacks
