import Oyster.OrderedMap
import Oyster.Text
import Oyster.Unicode

/-! The check of a request's token, and the failures that it counts for each client
address. A client that has failed too often within the window is turned away unheard;
a success wipes its record, and the table of records is bounded. -/
namespace AuthThrottle

def AUTH_FAIL_WINDOW_MS : ℤ := 10 * 60 * 1000

def AUTH_FAIL_MAX : ℕ := 20

def AUTH_FAIL_MAX_CLIENTS : ℕ := 10000

structure Config where
  TOKEN : List Char
  UNAUTHENTICATED : Bool

/-- A privileged route, or the open one that only reports on the credentials. -/
inductive Endpoint where
  | privileged
  | authcheck

/-- A request with the readings of the clock taken while it is served: `asked` where the
failures of its client are counted, `recorded` where one is added. -/
structure Request where
  endpoint : Endpoint
  method : String
  cfConnectingIp : Option (List Char)
  xForwardedFor : Option (List Char)
  remoteAddress : Option (List Char)
  tokenParam : Option (List Char)
  authorization : Option (List Char)
  xAuthToken : Option (List Char)
  xApiKey : Option (List Char)
  cookie : Option (List Char)
  asked : ℤ
  recorded : ℤ

/-- A value that a condition takes for true. -/
def truthy (value : Option (List Char)) : Option (List Char) := value.filter (· ≠ [])

def clientIp (req : Request) : List Char :=
  (truthy req.cfConnectingIp <|> truthy (some (Text.trim ((req.xForwardedFor.getD []).takeWhile (· ≠ ',')))) <|>
    truthy req.remoteAddress).getD ['?']

def tokenMatches (config : Config) (provided : Option (List Char)) : Bool :=
  match truthy provided with
  | none => false
  | some value => Utf8.encode (Text.trim value) = Utf8.encode config.TOKEN

def hexDigit (c : Char) : Option ℕ :=
  if '0' ≤ c ∧ c ≤ '9' then some (c.toNat - '0'.toNat)
  else if 'a' ≤ c ∧ c ≤ 'f' then some (c.toNat - 'a'.toNat + 10)
  else if 'A' ≤ c ∧ c ≤ 'F' then some (c.toNat - 'A'.toNat + 10)
  else none

def unescaped : List Char → Option (List UInt8)
  | [] => some []
  | '%' :: high :: low :: rest => do
      let byte := (← hexDigit high) * 16 + (← hexDigit low)
      return UInt8.ofNat byte :: (← unescaped rest)
  | '%' :: _ => none
  | c :: rest => (unescaped rest).map (String.utf8EncodeChar c ++ ·)

def decodeURIComponent (text : List Char) : Option (List Char) := do
  let bytes ← unescaped text
  if Utf8.encode (Utf8.decode bytes) = bytes then some (Utf8.decode bytes) else none

def addCookie (cookies : OrderedMap (List Char) (List Char)) (part : List Char) :
    OrderedMap (List Char) (List Char) :=
  let name := part.takeWhile (· ≠ '=')
  match part.dropWhile (· ≠ '=') with
  | [] => cookies
  | _ :: value =>
    if name = [] then cookies
    else match decodeURIComponent (Text.trim value) with
      | none => cookies
      | some decoded => cookies.set (Text.trim name) decoded

def parseCookies (req : Request) : OrderedMap (List Char) (List Char) :=
  ((req.cookie.getD []).splitOn ';').foldl addCookie .empty

/-- The places where a token may stand, in the order in which they are reported. -/
def authCandidates (req : Request) : List (String × Option (List Char)) :=
  [("query", req.tokenParam), ("bearer", req.authorization.map fun bearer =>
     if "Bearer ".toList.isPrefixOf bearer then bearer.drop 7 else bearer),
   ("xAuthToken", req.xAuthToken),
   ("xApiKey", req.xApiKey),
   ("cookie", (parseCookies req).get "oyster_token".toList)]

abbrev AuthFails := OrderedMap (List Char) (List ℤ)

def recent (currentTime : ℤ) (times : List ℤ) : List ℤ :=
  times.filter fun time => currentTime - time < AUTH_FAIL_WINDOW_MS

def kept (authFails : AuthFails) (ip : List Char) : List ℤ := (authFails.get ip).getD []

def recentAuthFailures (authFails : AuthFails) (ip : List Char) (currentTime : ℤ) : List ℤ × AuthFails :=
  let failures := recent currentTime (kept authFails ip)
  (failures, if failures = [] then authFails.delete ip else authFails.set ip failures)

/-- Room for one more client: the one that has been there longest goes. -/
def evict (authFails : AuthFails) : AuthFails :=
  match authFails.entries with
  | [] => authFails
  | oldest :: _ => authFails.delete oldest.1

def recordAuthFailure (authFails : AuthFails) (ip : List Char) (currentTime : ℤ) : AuthFails :=
  let (failures, pruned) := recentAuthFailures authFails ip currentTime
  let roomy := if !pruned.has ip && AUTH_FAIL_MAX_CLIENTS ≤ pruned.entries.length then evict pruned else pruned
  roomy.set ip (failures ++ [currentTime])

/-- How a request fared; `absent` is a report on a request without any credential, of
which none is checked. -/
inductive Verdict where
  | ok
  | throttled
  | fail
  | absent
deriving DecidableEq

def checkAuth (config : Config) (authFails : AuthFails) (req : Request) : Verdict × AuthFails :=
  if config.UNAUTHENTICATED then (.ok, authFails)
  else
    let ip := clientIp req
    let (failures, pruned) := recentAuthFailures authFails ip req.asked
    if AUTH_FAIL_MAX ≤ failures.length then (.throttled, pruned)
    else
      let candidates := (authCandidates req).map fun c =>
        if c.1 = "query" ∧ req.method ≠ "GET" then none else c.2
      if candidates.any (tokenMatches config) then (.ok, pruned.delete ip)
      else (.fail, recordAuthFailure pruned ip req.recorded)

/-- What the report says of one place. -/
inductive Presence where
  | valid
  | presentInvalid (length : ℕ)
  | absent
deriving DecidableEq

inductive Report where
  | unauthenticated
  | tooManyFailures
  | checked (authorized : Bool) (credentials : List (String × Presence))

/-- The limit of the open route, which has its own default. -/
def authFailMax : ℕ := 20

def presence (config : Config) (value : Option (List Char)) : Presence :=
  match truthy value with
  | none => .absent
  | some present => if tokenMatches config value then .valid else .presentInvalid (Text.utf16Length present)

def authcheck (config : Config) (authFails : AuthFails) (req : Request) : Report × AuthFails :=
  if config.UNAUTHENTICATED then (.unauthenticated, authFails)
  else
    let ip := clientIp req
    let (failures, pruned) := recentAuthFailures authFails ip req.asked
    if authFailMax ≤ failures.length then (.tooManyFailures, pruned)
    else
      let credentials := (authCandidates req).map fun c => (c.1, presence config c.2)
      let authorized := credentials.any fun c => c.2 = .valid
      let credentialPresent := credentials.any fun c => c.2 ≠ .absent
      (.checked authorized credentials,
        if authorized then pruned.delete ip
        else if credentialPresent then recordAuthFailure pruned ip req.recorded
        else pruned)

def Report.verdict : Report → Verdict
  | .unauthenticated => .ok
  | .tooManyFailures => .throttled
  | .checked true _ => .ok
  | .checked false credentials => if credentials.any (fun c => c.2 ≠ .absent) then .fail else .absent

def serve (config : Config) (authFails : AuthFails) (req : Request) : Verdict × AuthFails :=
  match req.endpoint with
  | .privileged => checkAuth config authFails req
  | .authcheck =>
    let (report, after) := authcheck config authFails req
    (report.verdict, after)

abbrev Served := List (Request × Verdict)

def run (config : Config) : AuthFails → List Request → Served × AuthFails
  | authFails, [] => ([], authFails)
  | authFails, req :: reqs =>
    let (verdict, after) := serve config authFails req
    let (served, last) := run config after reqs
    ((req, verdict) :: served, last)

/-- The clock never goes back, within a request and from one to the next. -/
def ClockNonDecreasing (reqs : List Request) : Prop :=
  (reqs.flatMap fun r => [r.asked, r.recorded]).Pairwise (· ≤ ·)

def clients (reqs : List Request) : Finset (List Char) := (reqs.map clientIp).toFinset

def failuresOf (ip : List Char) (served : Served) : List ℤ :=
  served.foldl (fun times e =>
    if clientIp e.1 = ip then
      match e.2 with
      | .ok => []
      | .fail => times ++ [e.1.recorded]
      | .throttled | .absent => times
    else times) []

/-- A failed check of the client, made at some instant of the interval: its token was compared
between the two readings of the clock. -/
def failedWithin (ip : List Char) (first last : ℤ) (e : Request × Verdict) : Bool :=
  clientIp e.1 = ip ∧ e.2 = .fail ∧ e.1.asked ≤ last ∧ first ≤ e.1.recorded

theorem failuresOf_snoc (ip : List Char) (served : Served) (e : Request × Verdict) : failuresOf ip (served ++ [e]) =
      if clientIp e.1 = ip then
        match e.2 with
        | .ok => []
        | .fail => failuresOf ip served ++ [e.1.recorded]
        | .throttled | .absent => failuresOf ip served
      else failuresOf ip served := by
  simp only [failuresOf, List.foldl_append, List.foldl_cons, List.foldl_nil]

theorem recent_recent {now later : ℤ} (h : now ≤ later) (times : List ℤ) :
    recent later (recent now times) = recent later times := by
  rw [recent, recent, recent, List.filter_filter]
  apply List.filter_congr
  intro time _
  have still : later - time < AUTH_FAIL_WINDOW_MS → now - time < AUTH_FAIL_WINDOW_MS := by omega
  by_cases fresh : later - time < AUTH_FAIL_WINDOW_MS
  · simp [fresh, still fresh]
  · simp [fresh]

theorem recent_append (now : ℤ) (a b : List ℤ) : recent now (a ++ b) = recent now a ++ recent now b :=
  List.filter_append ..

theorem recent_sublist (now : ℤ) (times : List ℤ) : (recent now times).Sublist times :=
  List.filter_sublist

section Records
variable (authFails : AuthFails) (ip other : List Char) (now : ℤ)

theorem kept_set (times : List ℤ) :
    kept (authFails.set ip times) other = if other = ip then times else kept authFails other := by
  split_ifs with same
  · rw [same, kept, OrderedMap.get_set_self, Option.getD_some]
  · rw [kept, OrderedMap.get_set_of_ne _ _ same, kept]

theorem kept_delete : kept (authFails.delete ip) other = if other = ip then [] else kept authFails other := by
  have same_get : ∀ times, (authFails.delete ip).get other = some times ↔
      other ≠ ip ∧ authFails.get other = some times := fun times => by
    rw [OrderedMap.get_eq_some_iff, OrderedMap.mem_delete, OrderedMap.get_eq_some_iff]
  split_ifs with same
  · have gone : (authFails.delete ip).get other = none := by
      rw [Option.eq_none_iff_forall_ne_some]
      intro times found
      exact ((same_get times).mp found).1 same
    rw [kept, gone, Option.getD_none]
  · have stays : (authFails.delete ip).get other = authFails.get other := by
      ext times
      rw [same_get]
      exact and_iff_right same
    rw [kept, stays, kept]

theorem kept_recentAuthFailures : kept (recentAuthFailures authFails ip now).2 other =
      if other = ip then recent now (kept authFails ip) else kept authFails other := by
  unfold recentAuthFailures
  by_cases none_left : recent now (kept authFails ip) = []
  · simp only [none_left, if_true, kept_delete]
  · simp only [none_left, if_false, kept_set]

theorem has_recentAuthFailures (h : (recentAuthFailures authFails ip now).2.has other = true) :
    authFails.has other = true := by
  unfold recentAuthFailures at h
  by_cases none_left : recent now (kept authFails ip) = []
  · simp only [none_left, if_true, OrderedMap.has_delete] at h
    exact h.2
  · simp only [none_left, if_false, OrderedMap.has_set] at h
    rcases h with rfl | h
    · by_contra missing
      have nothing : kept authFails other = [] := by
        rw [kept, OrderedMap.get_eq_none.mpr (Bool.not_eq_true _ ▸ missing), Option.getD_none]
      exact none_left (by rw [nothing]; rfl)
    · exact h

theorem keys_recentAuthFailures : (recentAuthFailures authFails ip now).2.keys ⊆ authFails.keys := by
  intro k inside
  rw [OrderedMap.mem_keys] at inside ⊢
  exact has_recentAuthFailures authFails ip k now inside

theorem kept_evict : (kept (evict authFails) other).Sublist (kept authFails other) := by
  unfold evict
  cases authFails.entries with
  | nil => exact List.Sublist.refl _
  | cons oldest rest =>
    rw [kept_delete]
    split_ifs with same
    · exact List.nil_sublist _
    · exact List.Sublist.refl _

theorem keys_evict : (evict authFails).keys ⊆ authFails.keys := by
  unfold evict
  cases authFails.entries with
  | nil => exact Finset.Subset.refl _
  | cons oldest rest =>
    rw [OrderedMap.keys_delete]
    exact Finset.erase_subset _ _

theorem card_evict : (evict authFails).keys.card ≤ authFails.keys.card - 1 := by
  unfold evict
  cases entries : authFails.entries with
  | nil => simp [OrderedMap.card_keys, entries]
  | cons oldest rest =>
    have there : oldest.1 ∈ authFails.keys := by
      rw [OrderedMap.keys, entries]
      simp
    rw [OrderedMap.keys_delete, Finset.card_erase_of_mem there]

theorem kept_recordAuthFailure : (kept (recordAuthFailure authFails ip now) other).Sublist
      (if other = ip then recent now (kept authFails ip) ++ [now] else kept authFails other) := by
  simp only [recordAuthFailure, kept_set]
  have pruned := kept_recentAuthFailures authFails ip other now
  split_ifs at pruned ⊢ with same full
  · rw [recentAuthFailures]
  · exact (kept_evict _ other).trans (pruned ▸ List.Sublist.refl _)
  · rw [pruned]

theorem kept_recordAuthFailure_of_room (room : (insert ip authFails.keys).card ≤ AUTH_FAIL_MAX_CLIENTS) :
    kept (recordAuthFailure authFails ip now) other =
      if other = ip then recent now (kept authFails ip) ++ [now] else kept authFails other := by
  have roomy : ¬(!(recentAuthFailures authFails ip now).2.has ip &&
      decide (AUTH_FAIL_MAX_CLIENTS ≤ (recentAuthFailures authFails ip now).2.entries.length)) = true := by
    rw [Bool.and_eq_true, decide_eq_true_eq, Bool.not_eq_true', ← OrderedMap.card_keys]
    rintro ⟨missing, full⟩
    have out : ip ∉ (recentAuthFailures authFails ip now).2.keys := by
      rw [OrderedMap.mem_keys, missing]
      exact Bool.false_ne_true
    have larger := Finset.card_le_card (Finset.insert_subset_insert ip (keys_recentAuthFailures authFails ip now))
    rw [Finset.card_insert_of_notMem out] at larger
    omega
  simp only [recordAuthFailure, if_neg roomy, kept_set]
  split_ifs with same
  · rw [recentAuthFailures]
  · rw [kept_recentAuthFailures, if_neg same]

theorem keys_recordAuthFailure : (recordAuthFailure authFails ip now).keys ⊆ insert ip authFails.keys := by
  simp only [recordAuthFailure, OrderedMap.keys_set]
  have pruned := keys_recentAuthFailures authFails ip now
  split_ifs with full
  · exact Finset.insert_subset_insert _ ((keys_evict _).trans pruned)
  · exact Finset.insert_subset_insert _ pruned

theorem card_recordAuthFailure (small : authFails.keys.card ≤ AUTH_FAIL_MAX_CLIENTS) :
    (recordAuthFailure authFails ip now).keys.card ≤ AUTH_FAIL_MAX_CLIENTS := by
  have pruned := Finset.card_le_card (keys_recentAuthFailures authFails ip now)
  simp only [recordAuthFailure, OrderedMap.keys_set]
  split_ifs with full
  · have gone := card_evict (recentAuthFailures authFails ip now).2
    have added := Finset.card_insert_le ip (evict (recentAuthFailures authFails ip now).2).keys
    have positive : 0 < AUTH_FAIL_MAX_CLIENTS := by decide
    omega
  · by_cases there : ip ∈ (recentAuthFailures authFails ip now).2.keys
    · rw [Finset.insert_eq_of_mem there]
      omega
    · rw [OrderedMap.mem_keys, Bool.not_eq_true] at there
      simp only [there, Bool.not_false, Bool.true_and, decide_eq_true_eq, not_le, ← OrderedMap.card_keys] at full
      have added := Finset.card_insert_le ip (recentAuthFailures authFails ip now).2.keys
      omega

end Records

variable {config : Config}

theorem serve_unauthenticated (free : config.UNAUTHENTICATED = true) (authFails : AuthFails) (req : Request) :
    serve config authFails req = (.ok, authFails) := by
  unfold serve
  cases req.endpoint with
  | privileged => exact if_pos free
  | authcheck =>
    have report : authcheck config authFails req = (.unauthenticated, authFails) := if_pos free
    rw [report]
    rfl

theorem serve_cases (guarded : config.UNAUTHENTICATED = false) (authFails : AuthFails) (req : Request) :
    ∃ pruned, pruned = (recentAuthFailures authFails (clientIp req) req.asked).2 ∧
      ((AUTH_FAIL_MAX ≤ (recent req.asked (kept authFails (clientIp req))).length ∧
          serve config authFails req = (.throttled, pruned)) ∨
        ((recent req.asked (kept authFails (clientIp req))).length < AUTH_FAIL_MAX ∧
          (serve config authFails req = (.ok, pruned.delete (clientIp req)) ∨
            serve config authFails req = (.fail, recordAuthFailure pruned (clientIp req) req.recorded) ∨
            serve config authFails req = (.absent, pruned)))) := by
  have free : ¬config.UNAUTHENTICATED = true := guarded ▸ Bool.false_ne_true
  refine ⟨_, rfl, ?_⟩
  by_cases many : AUTH_FAIL_MAX ≤ (recent req.asked (kept authFails (clientIp req))).length
  · refine .inl ⟨many, ?_⟩
    unfold serve
    have many' : authFailMax ≤ (recent req.asked (kept authFails (clientIp req))).length := many
    cases req.endpoint <;>
      simp [checkAuth, authcheck, free, recentAuthFailures, many, many', Report.verdict]
  refine .inr ⟨not_le.mp many, ?_⟩
  have many' : ¬authFailMax ≤ (recent req.asked (kept authFails (clientIp req))).length := many
  unfold serve
  cases req.endpoint with
  | privileged =>
    have heard : checkAuth config authFails req = _ := (if_neg free).trans (if_neg many)
    by_cases matched : ((authCandidates req).map fun c =>
        if c.1 = "query" ∧ req.method ≠ "GET" then none else c.2).any (tokenMatches config) = true
    · exact .inl (heard.trans (if_pos matched))
    · exact .inr (.inl (heard.trans (if_neg matched)))
  | authcheck =>
    have heard : authcheck config authFails req = _ := (if_neg free).trans (if_neg many')
    simp only [heard]
    cases authorized : ((authCandidates req).map fun c => (c.1, presence config c.2)).any fun c => c.2 = .valid with
    | true => exact .inl rfl
    | false =>
      cases present : ((authCandidates req).map fun c => (c.1, presence config c.2)).any fun c => c.2 ≠ .absent with
      | true => exact .inr (.inl (Prod.ext (if_pos present) rfl))
      | false => exact .inr (.inr (Prod.ext (if_neg (present ▸ Bool.false_ne_true)) rfl))

/-- From `now` on, the records count for each client what it failed since its last success,
and they are of these clients. -/
structure Counts (ips : Finset (List Char)) (now : ℤ) (authFails : AuthFails) (served : Served) : Prop where
  keys : authFails.keys ⊆ ips
  recent : ∀ ip later, now ≤ later →
    recent later (kept authFails ip) = AuthThrottle.recent later (failuresOf ip served)

theorem counts_empty (ips : Finset (List Char)) (now : ℤ) : Counts ips now .empty [] where
  keys := Finset.empty_subset ips
  recent := fun _ _ _ => rfl

section Step
variable {config : Config} {authFails : AuthFails} {served : Served} {req : Request}
  {ips : Finset (List Char)} {now : ℤ}

theorem Counts.pruned (h : Counts ips now authFails served) (ip : List Char) {asked : ℤ} (le : now ≤ asked) :
    Counts ips asked (recentAuthFailures authFails ip asked).2 served where
  keys := (keys_recentAuthFailures authFails ip asked).trans h.keys
  recent := fun other later after => by
    rw [kept_recentAuthFailures]
    split_ifs with same
    · rw [same, recent_recent after, h.recent ip later (le.trans after)]
    · exact h.recent other later (le.trans after)

theorem Counts.later (h : Counts ips now authFails served) {now' : ℤ} (le : now ≤ now') :
    Counts ips now' authFails served :=
  ⟨h.keys, fun ip later after => h.recent ip later (le.trans after)⟩

theorem Counts.passed (h : Counts ips now authFails served) {verdict : Verdict}
    (passed : verdict = .throttled ∨ verdict = .absent) : Counts ips now authFails (served ++ [(req, verdict)]) where
  keys := h.keys
  recent := fun ip later after => by
    rw [h.recent ip later after, failuresOf_snoc]
    rcases passed with rfl | rfl <;> simp

theorem Counts.succeeded (h : Counts ips now authFails served) :
    Counts ips now (authFails.delete (clientIp req)) (served ++ [(req, .ok)]) where
  keys := by
    rw [OrderedMap.keys_delete]
    exact (Finset.erase_subset _ _).trans h.keys
  recent := fun ip later after => by
    rw [kept_delete, failuresOf_snoc]
    split_ifs with same other other
    · rfl
    · exact absurd same.symm other
    · exact absurd other.symm same
    · exact h.recent ip later after

theorem Counts.failed (h : Counts ips now authFails served) (le : now ≤ req.recorded)
    (known : clientIp req ∈ ips) (few : ips.card ≤ AUTH_FAIL_MAX_CLIENTS) :
    Counts ips req.recorded (recordAuthFailure authFails (clientIp req) req.recorded) (served ++ [(req, .fail)]) where
  keys := (keys_recordAuthFailure _ _ _).trans (Finset.insert_subset known h.keys)
  recent := fun ip later after => by
    have room : (insert (clientIp req) authFails.keys).card ≤ AUTH_FAIL_MAX_CLIENTS :=
      (Finset.card_le_card (Finset.insert_subset known h.keys)).trans few
    rw [kept_recordAuthFailure_of_room _ _ _ _ room, failuresOf_snoc]
    split_ifs with same other other
    · rw [recent_append, recent_append, recent_recent after, same, h.recent _ later (le.trans after)]
    · exact absurd same.symm other
    · exact absurd other.symm same
    · exact h.recent ip later (le.trans after)

theorem Counts.serve (h : Counts ips now authFails served) (le : now ≤ req.asked)
    (le' : req.asked ≤ req.recorded) (known : clientIp req ∈ ips) (few : ips.card ≤ AUTH_FAIL_MAX_CLIENTS)
    (guarded : config.UNAUTHENTICATED = false) :
    Counts ips req.recorded (serve config authFails req).2 (served ++ [(req, (serve config authFails req).1)]) := by
  have pruned := h.pruned (clientIp req) le
  rcases serve_cases guarded authFails req with ⟨_, rfl, ⟨-, many⟩ | ⟨-, ok | fail | absent⟩⟩
  · rw [many]
    exact (pruned.passed (.inl rfl)).later le'
  · rw [ok]
    exact pruned.succeeded.later le'
  · rw [fail]
    exact pruned.failed le' known few
  · rw [absent]
    exact (pruned.passed (.inr rfl)).later le'

end Step

theorem run_append (config : Config) (authFails : AuthFails) (before after : List Request) :
    run config authFails (before ++ after) =
      ((run config authFails before).1 ++ (run config (run config authFails before).2 after).1,
        (run config (run config authFails before).2 after).2) := by
  induction before generalizing authFails with
  | nil => rfl
  | cons req before ih => simp only [List.cons_append, run, ih]

theorem run_snoc (config : Config) (authFails : AuthFails) (reqs : List Request) (req : Request) :
    run config authFails (reqs ++ [req]) =
      ((run config authFails reqs).1 ++ [(req, (serve config (run config authFails reqs).2 req).1)],
        (serve config (run config authFails reqs).2 req).2) := by
  rw [run_append]
  rfl

theorem run_requests (config : Config) (authFails : AuthFails) (reqs : List Request) :
    (run config authFails reqs).1.map Prod.fst = reqs := by
  induction reqs generalizing authFails with
  | nil => rfl
  | cons req reqs ih => rw [run, List.map_cons, ih]

variable {authFails : AuthFails} {reqs : List Request}

theorem run_of_prefix {first rest : Served} (h : (run config authFails reqs).1 = first ++ rest) :
    ∃ before after, reqs = before ++ after ∧ (run config authFails before).1 = first ∧
      (run config (run config authFails before).2 after).1 = rest := by
  have split : reqs = first.map Prod.fst ++ rest.map Prod.fst := by
    rw [← List.map_append, ← h, run_requests]
  refine ⟨_, _, split, ?_⟩
  rw [split, run_append] at h
  refine List.append_inj h ?_
  rw [← List.length_map Prod.fst, run_requests, List.length_map]

variable {req : Request}

theorem clock_snoc (clock : ClockNonDecreasing (reqs ++ [req])) :
    ClockNonDecreasing reqs ∧ (∀ r ∈ reqs, r.recorded ≤ req.asked) ∧ req.asked ≤ req.recorded := by
  rw [ClockNonDecreasing, List.flatMap_append, List.pairwise_append] at clock
  obtain ⟨before, last, across⟩ := clock
  refine ⟨before, ?_, ?_⟩
  · intro r inside
    exact across r.recorded (List.mem_flatMap.mpr ⟨r, inside, by simp⟩) req.asked (by simp)
  · simpa using last

theorem clients_snoc (reqs : List Request) (req : Request) :
    clients (reqs ++ [req]) = insert (clientIp req) (clients reqs) := by
  ext ip
  simp [clients]

theorem counts_run (guarded : config.UNAUTHENTICATED = false) {ips : Finset (List Char)}
    (few : ips.card ≤ AUTH_FAIL_MAX_CLIENTS) (clock : ClockNonDecreasing reqs) (known : clients reqs ⊆ ips) {now : ℤ}
    (past : ∀ r ∈ reqs, r.recorded ≤ now) : Counts ips now (run config .empty reqs).2 (run config .empty reqs).1 := by
  induction reqs using List.reverseRecOn generalizing now with
  | nil => exact counts_empty ips now
  | append_singleton reqs req ih =>
    obtain ⟨clock, before, le⟩ := clock_snoc clock
    rw [clients_snoc, Finset.insert_subset_iff] at known
    have counts := ih clock known.2 before
    rw [run_snoc]
    exact (counts.serve le_rfl le known.1 few guarded).later (past req (by simp))

variable {ip : List Char} {before stretch : Served}

theorem failuresOf_append (free : ∀ e ∈ stretch, clientIp e.1 = ip → e.2 ≠ .ok) :
    failuresOf ip (before ++ stretch) = failuresOf ip before ++
      (stretch.filter fun e => clientIp e.1 = ip ∧ e.2 = .fail).map (·.1.recorded) := by
  induction stretch using List.reverseRecOn with
  | nil => simp
  | append_singleton stretch e ih =>
    have free_before : ∀ e ∈ stretch, clientIp e.1 = ip → e.2 ≠ .ok := fun e inside =>
      free e (List.mem_append_left _ inside)
    rw [← List.append_assoc, failuresOf_snoc, ih free_before, List.filter_append]
    by_cases own : clientIp e.1 = ip
    · have not_ok := free e (by simp) own
      cases verdict : e.2 with
      | ok => exact absurd verdict not_ok
      | _ => simp [own, verdict]
    · simp [own]

theorem count_le_recent {first last asked : ℤ} (free : ∀ e ∈ stretch, clientIp e.1 = ip → e.2 ≠ .ok)
    (short : last - first < AUTH_FAIL_WINDOW_MS) (within : asked ≤ last) :
    stretch.countP (failedWithin ip first last) ≤ (recent asked (failuresOf ip (before ++ stretch))).length := by
  rw [failuresOf_append free, recent_append, List.length_append, recent, recent, List.filter_map,
    List.length_map, List.filter_filter, List.countP_eq_length_filter]
  have still : (stretch.filter (failedWithin ip first last)).length ≤ _ :=
    (List.monotone_filter_right stretch (q := fun e =>
      decide (asked - e.1.recorded < AUTH_FAIL_WINDOW_MS) && decide (clientIp e.1 = ip ∧ e.2 = .fail)) ?_).length_le
  · exact still.trans (Nat.le_add_left _ _)
  · intro e failed
    obtain ⟨own, fail, -, after⟩ := of_decide_eq_true failed
    rw [Bool.and_eq_true, decide_eq_true_eq, decide_eq_true_eq]
    exact ⟨by omega, own, fail⟩

theorem recent_lt_of_fail (h : (serve config authFails req).1 = .fail) :
    config.UNAUTHENTICATED = false ∧ (recent req.asked (kept authFails (clientIp req))).length < AUTH_FAIL_MAX := by
  cases guarded : config.UNAUTHENTICATED with
  | true =>
    rw [serve_unauthenticated guarded] at h
    cases h
  | false =>
    refine ⟨rfl, ?_⟩
    rcases serve_cases guarded authFails req with ⟨_, -, ⟨-, many⟩ | ⟨few, -⟩⟩
    · rw [many] at h
      cases h
    · exact few

theorem count_le_of_run (clock : ClockNonDecreasing reqs) (few : (clients reqs).card ≤ AUTH_FAIL_MAX_CLIENTS)
    {first last : ℤ} (short : last - first < AUTH_FAIL_WINDOW_MS) (h : (run config .empty reqs).1 = before ++ stretch)
    (free : ∀ e ∈ stretch, clientIp e.1 = ip → e.2 ≠ .ok) :
    stretch.countP (failedWithin ip first last) ≤ AUTH_FAIL_MAX := by
  induction reqs using List.reverseRecOn generalizing stretch with
  | nil =>
    obtain ⟨-, rfl⟩ := List.append_eq_nil_iff.mp h.symm
    exact Nat.zero_le _
  | append_singleton reqs req ih =>
    obtain ⟨clock, earlier, -⟩ := clock_snoc clock
    have known : clients reqs ⊆ clients (reqs ++ [req]) := by
      rw [clients_snoc]
      exact Finset.subset_insert _ _
    have fewer := (Finset.card_le_card known).trans few
    rcases List.eq_nil_or_concat stretch with rfl | ⟨stretch, e, rfl⟩
    · exact Nat.zero_le _
    rw [List.concat_eq_append] at h free ⊢
    rw [run_snoc, ← List.append_assoc] at h
    obtain ⟨served, new⟩ := List.append_inj' h rfl
    obtain rfl := (List.cons.inj new).1
    have free_before : ∀ e ∈ stretch, clientIp e.1 = ip → e.2 ≠ .ok := fun e inside =>
      free e (List.mem_append_left _ inside)
    have so_far := ih clock fewer served free_before
    rw [List.countP_append, List.countP_singleton]
    split_ifs with failed
    · obtain ⟨own, fail, within, -⟩ := of_decide_eq_true failed
      obtain ⟨guarded, room⟩ := recent_lt_of_fail fail
      have counted := (counts_run guarded fewer clock (Finset.Subset.refl _) earlier).recent ip req.asked le_rfl
      rw [own, counted, served] at room
      have at_check : req.asked ≤ last := within
      have through : stretch.countP (failedWithin ip first last) ≤
          (recent req.asked (failuresOf ip (before ++ stretch))).length :=
        count_le_recent free_before short at_check
      omega
    · exact so_far

theorem serve_sublist (guarded : config.UNAUTHENTICATED = false) {served : Served}
    (h : ∀ ip, (kept authFails ip).Sublist (failuresOf ip served)) (ip : List Char) :
    (kept (serve config authFails req).2 ip).Sublist
      (failuresOf ip (served ++ [(req, (serve config authFails req).1)])) := by
  have pruned : ∀ ip, (kept (recentAuthFailures authFails (clientIp req) req.asked).2 ip).Sublist
      (failuresOf ip served) := fun ip => by
    rw [kept_recentAuthFailures]
    split_ifs with same
    · exact same ▸ (recent_sublist _ _).trans (h _)
    · exact h ip
  rw [failuresOf_snoc]
  rcases serve_cases guarded authFails req with ⟨_, rfl, ⟨-, many⟩ | ⟨-, ok | fail | absent⟩⟩
  · simp only [many, ite_self]
    exact pruned ip
  · simp only [ok, kept_delete, eq_comm (a := clientIp req)]
    split_ifs
    · exact List.nil_sublist _
    · exact pruned ip
  · simp only [fail]
    refine (kept_recordAuthFailure _ _ _ _).trans ?_
    simp only [eq_comm (a := clientIp req)]
    split_ifs with same
    · exact (((recent_sublist _ _).trans (pruned _)).trans (same ▸ List.Sublist.refl _)).append_right _
    · exact pruned ip
  · simp only [absent, ite_self]
    exact pruned ip

theorem kept_sublist (guarded : config.UNAUTHENTICATED = false) (reqs : List Request) (ip : List Char) :
    (kept (run config .empty reqs).2 ip).Sublist (failuresOf ip (run config .empty reqs).1) := by
  induction reqs using List.reverseRecOn generalizing ip with
  | nil => exact List.Sublist.refl _
  | append_singleton reqs req ih =>
    rw [run_snoc]
    exact serve_sublist guarded ih ip

theorem many_of_throttled (h : (serve config (run config .empty reqs).2 req).1 = .throttled) :
    AUTH_FAIL_MAX ≤ (recent req.asked (failuresOf (clientIp req) (run config .empty reqs).1)).length := by
  cases guarded : config.UNAUTHENTICATED with
  | true =>
    rw [serve_unauthenticated guarded] at h
    cases h
  | false =>
    rcases serve_cases guarded (run config .empty reqs).2 req with ⟨_, -, ⟨many, -⟩ | ⟨-, ok | fail | absent⟩⟩
    · exact many.trans ((kept_sublist guarded reqs _).filter _).length_le
    · rw [ok] at h
      cases h
    · rw [fail] at h
      cases h
    · rw [absent] at h
      cases h

theorem card_serve (small : authFails.keys.card ≤ AUTH_FAIL_MAX_CLIENTS) :
    (serve config authFails req).2.keys.card ≤ AUTH_FAIL_MAX_CLIENTS := by
  cases guarded : config.UNAUTHENTICATED with
  | true =>
    rw [serve_unauthenticated guarded]
    exact small
  | false =>
    have pruned := (Finset.card_le_card (keys_recentAuthFailures authFails (clientIp req) req.asked)).trans small
    rcases serve_cases guarded authFails req with ⟨_, rfl, ⟨-, many⟩ | ⟨-, ok | fail | absent⟩⟩
    · rw [many]
      exact pruned
    · rw [ok, OrderedMap.keys_delete]
      exact (Finset.card_le_card (Finset.erase_subset _ _)).trans pruned
    · rw [fail]
      exact card_recordAuthFailure _ _ _ pruned
    · rw [absent]
      exact pruned

theorem card_run (config : Config) (reqs : List Request) :
    (run config .empty reqs).2.keys.card ≤ AUTH_FAIL_MAX_CLIENTS := by
  induction reqs using List.reverseRecOn with
  | nil => exact Nat.zero_le _
  | append_singleton reqs req ih =>
    rw [run_snoc]
    exact card_serve ih

/-- The throttle over every run. Within an interval shorter than the window, and over a stretch
without a success of the client, no more failed checks of it are made than the limit allows,
as long as the clients fit the table; who is turned away has that many recent failures; and
the table never outgrows its bound. -/
theorem auth_throttle_bound (config : Config) (reqs : List Request) (clock : ClockNonDecreasing reqs) :
    ((clients reqs).card ≤ AUTH_FAIL_MAX_CLIENTS →
      ∀ (ip : List Char) (first last : ℤ), last - first < AUTH_FAIL_WINDOW_MS →
        ∀ before stretch after, (run config .empty reqs).1 = before ++ stretch ++ after →
          (∀ e ∈ stretch, clientIp e.1 = ip → e.2 ≠ .ok) →
            stretch.countP (failedWithin ip first last) ≤ AUTH_FAIL_MAX) ∧
      (∀ before req after, (run config .empty reqs).1 = before ++ (req, .throttled) :: after →
        AUTH_FAIL_MAX ≤ (recent req.asked (failuresOf (clientIp req) before)).length) ∧
      ∀ served, (run config .empty (reqs.take served)).2.entries.length ≤ AUTH_FAIL_MAX_CLIENTS := by
  refine ⟨?_, ?_, ?_⟩
  · intro few ip first last short before stretch after served free
    obtain ⟨done, rest, rfl, whole, -⟩ := run_of_prefix served
    have fewer : (clients done).card ≤ AUTH_FAIL_MAX_CLIENTS := by
      refine (Finset.card_le_card ?_).trans few
      intro ip inside
      simp only [clients, List.mem_toFinset, List.map_append, List.mem_append] at inside ⊢
      exact .inl inside
    have clock_done : ClockNonDecreasing done := by
      rw [ClockNonDecreasing, List.flatMap_append] at clock
      exact (List.pairwise_append.mp clock).1
    exact count_le_of_run clock_done fewer short whole free
  · intro before req after served
    obtain ⟨done, rest, rfl, rfl, here⟩ := run_of_prefix served
    cases rest with
    | nil => cases here
    | cons next rest =>
      obtain ⟨same, -⟩ := List.cons.inj here
      obtain ⟨rfl, verdict⟩ := Prod.mk.inj same
      exact many_of_throttled verdict
  · intro served
    rw [← OrderedMap.card_keys]
    exact card_run config (reqs.take served)

def badRequest (time : ℤ) : Request where
  endpoint := .privileged
  method := "POST"
  cfConnectingIp := none
  xForwardedFor := none
  remoteAddress := some "192.0.2.1".toList
  tokenParam := none
  authorization := none
  xAuthToken := some "guess".toList
  xApiKey := none
  cookie := none
  asked := time
  recorded := time

/-- Two wrong guesses, of which the run counts two. -/
theorem auth_throttle_bound_two_guesses : (run ⟨"secret".toList, false⟩ .empty [badRequest 0, badRequest 5]).1.countP
        (failedWithin "192.0.2.1".toList 0 5) = 2 ∧
      (run ⟨"secret".toList, false⟩ .empty [badRequest 0, badRequest 5]).1.countP
        (failedWithin "192.0.2.1".toList 0 5) ≤ AUTH_FAIL_MAX := by
  have clock : ClockNonDecreasing [badRequest 0, badRequest 5] := by
    unfold ClockNonDecreasing
    decide
  have bound := (auth_throttle_bound ⟨"secret".toList, false⟩ _ clock).1 (by decide) "192.0.2.1".toList 0 5
    (by decide) [] _ [] (List.append_nil _).symm (by decide +kernel)
  exact ⟨by decide +kernel, bound⟩

end AuthThrottle
