import Oyster.BoxRegistry
import Oyster.Text

/-! The provision of a cloud workspace: a registration of a box, the request that creates the
instance at its provider, the binding of the two and the record in the state of the hub, where
each of these calls may fail. -/
namespace CloudProvisioning

structure CloudError where
  message : String
  status : Nat := 502

structure Provider where
  id : String
  name : String

def providers : List Provider :=
  [⟨"digitalocean", "DigitalOcean"⟩, ⟨"hetzner", "Hetzner Cloud"⟩, ⟨"aws", "Amazon Web Services"⟩,
    ⟨"gcp", "Google Cloud"⟩]

def providerDefinition (providerId : String) : Except CloudError Provider :=
  match providers.find? fun provider => provider.id = providerId with
  | none => .error { message := s!"unsupported cloud provider: {providerId}", status := 404 }
  | some provider => .ok provider

/-- A field is `none` where it is not a string. -/
structure Input where
  provider : Option String
  name : Option String
  region : Option String
  size : Option String
  image : Option String

structure Registration where
  boxId : String
  generation : String
  bootstrapSecret : String
  deriving DecidableEq

structure Request where
  name : String
  region : String
  size : String
  image : String
  boxId : String := ""
  generation : String := ""
  userData : String := ""

structure Instance where
  provider : String
  instanceId : String
  boxId : String
  generation : String
  deriving DecidableEq

structure Record where
  id : String
  name : String
  boxId : String
  generation : String
  status : String
  provider : Provider
  instanceId : String
  state : String
  region : String
  size : String
  image : String

/-- `registrations` are those that have not been revoked, `stored` is the state file. -/
structure World where
  instances : List Instance := []
  registrations : List Registration := []
  workspaces : List Record := []
  stored : List Record := []

/-- What a provider tells of the instance that it has created. -/
structure Answer where
  instanceId : Option String
  state : Option String := none

/-- The request that creates an instance may fail although it has been carried out. -/
inductive Creation where
  | refused (error : CloudError)
  | lost (instanceId : String) (error : CloudError)
  | answered (instanceId : String) (answer : Answer)

/-- How each call that a provision makes ends. `accessToken` is the exchange of a service account
for a token, `read` what the registry answers when it is read last. -/
structure Calls where
  credential : Except CloudError Unit
  registration : Except CloudError (String × String)
  cloudInit : Registration → Except CloudError String
  tags : Except CloudError (List String)
  tagCreated : Except CloudError Unit
  accessToken : Except CloudError Unit
  creation : Creation
  bound : Except CloudError Unit
  revoked : Except CloudError Unit
  persisted : Except CloudError Unit
  read : Except CloudError (Option String)
  randomId : String

structure Result where
  instanceId : String
  state : String

def required (value : Option String) (label : String) : Except CloudError String :=
  match value with
  | none => .error { message := s!"{label} is required", status := 400 }
  | some text =>
    if Text.trim text.toList = [] then .error { message := s!"{label} is required", status := 400 }
    else .ok (String.ofList (Text.trim text.toList))

/-- `/^[a-z](?:[a-z0-9-]{0,61}[a-z0-9])?$/i` -/
def dnsName (name : String) : Bool :=
  match name.toList with
  | [] => false
  | first :: rest =>
    first.isAlpha && decide (rest.length ≤ 62) && rest.all (fun c => c.isAlphanum || c == '-') &&
      rest.getLast?.all Char.isAlphanum

/-- What is checked of the input before anything is called. -/
def accept (input : Option Input) : Except CloudError (Provider × String × Request) := do
  let some input := input | .error { message := "workspace request must be an object", status := 400 }
  let providerId ← required input.provider "provider"
  let provider ← providerDefinition providerId
  let name ← required input.name "Workspace name"
  if dnsName name = false then
    .error { message := "Workspace name must be a 1-63 character DNS-style name", status := 400 }
  else
    let region ← required input.region "region"
    let size ← required input.size "instance type"
    let image ← required input.image "image"
    .ok (provider, name, { name := BoxRegistry.toLowerCase name, region, size, image })

def prepareRegistration (calls : Calls) (request : Request) : Except CloudError Registration := do
  calls.credential
  let (generation, bootstrapSecret) ← calls.registration
  .ok ⟨request.name, generation, bootstrapSecret⟩

def Request.ofRegistration (request : Request) (registration : Registration) (userData : String) : Request :=
  { request with boxId := registration.boxId, generation := registration.generation, userData }

def ownershipTag : String := "oyster-hub"

def ensureDigitalOceanOwnershipTag (calls : Calls) : Except CloudError Unit := do
  let tags ← calls.tags
  if ownershipTag ∈ tags then .ok () else calls.tagCreated

/-- What precedes the request that creates the instance. -/
def beforeCreation (calls : Calls) (provider : Provider) : Except CloudError Unit :=
  if provider.id = "digitalocean" then ensureDigitalOceanOwnershipTag calls
  else if provider.id = "gcp" then calls.accessToken
  else .ok ()

/-- `value || fallback` -/
def orElse (value : Option String) (fallback : String) : String :=
  if Text.falsy value then fallback else value.getD fallback

def digitalOceanResult (answer : Answer) : Except CloudError Result :=
  .ok ⟨orElse answer.instanceId "", orElse answer.state "new"⟩

def hetznerResult (answer : Answer) : Except CloudError Result :=
  if Text.falsy answer.instanceId then .error { message := "Hetzner Cloud did not return a server ID" }
  else .ok ⟨orElse answer.instanceId "", orElse answer.state "starting"⟩

def awsResult (answer : Answer) : Except CloudError Result :=
  if Text.falsy answer.instanceId then .error { message := "AWS did not return an instance ID" }
  else .ok ⟨orElse answer.instanceId "", orElse answer.state "pending"⟩

def gcpResult (request : Request) (answer : Answer) : Except CloudError Result :=
  .ok ⟨orElse answer.instanceId request.name, orElse answer.state "PENDING"⟩

def resultOf (provider : Provider) (request : Request) (answer : Answer) : Except CloudError Result :=
  if provider.id = "digitalocean" then digitalOceanResult answer
  else if provider.id = "hetzner" then hetznerResult answer
  else if provider.id = "aws" then awsResult answer
  else gcpResult request answer

def create (calls : Calls) (provider : Provider) (request : Request) : Except CloudError Result × Option Instance :=
  match beforeCreation calls provider with
  | .error error => (.error error, none)
  | .ok () =>
    match calls.creation with
    | .refused error => (.error error, none)
    | .lost instanceId error => (.error error, some ⟨provider.id, instanceId, request.boxId, request.generation⟩)
    | .answered instanceId answer =>
      (resultOf provider request answer, some ⟨provider.id, instanceId, request.boxId, request.generation⟩)

def bindProviderInstance (calls : Calls) (instanceId : String) : Except CloudError Unit :=
  if BoxRegistry.validIdentity instanceId then calls.bound else .error { message := "invalid provider instance id" }

def isWord (c : Char) : Bool := c.isLower || c.isDigit || c == '-'

/-- `replace(/[^a-z0-9-]+/g, "-")` -/
def dashed : List Char → List Char
  | [] => []
  | c :: rest =>
    if isWord c then c :: dashed rest
    else match rest with
      | [] => ['-']
      | next :: _ => if isWord next then '-' :: dashed rest else dashed rest

def stripDashes (value : List Char) : List Char :=
  ((value.dropWhile (· == '-')).reverse.dropWhile (· == '-')).reverse

def workspaceId (randomId providerId instanceId : String) : String :=
  let clean := (stripDashes (dashed (orElse (some instanceId) randomId).toList)).take 52
  if clean = [] then s!"{providerId}-{String.ofList (randomId.toList.take 8)}"
  else s!"{providerId}-{String.ofList clean}"

def recordOf (calls : Calls) (provider : Provider) (name : String) (request : Request) (result : Result) : Record where
  id := workspaceId calls.randomId provider.id (BoxRegistry.toLowerCase result.instanceId)
  name
  boxId := request.boxId
  generation := request.generation
  status := "awaiting_agent"
  provider
  instanceId := result.instanceId
  state := result.state
  region := request.region
  size := request.size
  image := request.image

/-- `state.workspaces`, with a record in the place of the one of its identity. -/
def World.record (w : World) (record : Record) : World :=
  { w with workspaces := (w.workspaces.filter fun item => item.id ≠ record.id) ++ [record] }

/-- A provision answers or rejects; `created` is the instance that it has made the provider
create. -/
structure Outcome where
  result : Except CloudError Record
  world : World
  created : Option Instance

/-- The end of a provision whose instance has been bound. -/
def conclude (calls : Calls) (w : World) (record : Record) : Except CloudError Record × World :=
  let w := w.record record
  match calls.persisted with
  | .error error => (.error error, w)
  | .ok () =>
    let w := { w with stored := w.workspaces }
    match calls.read with
    | .error error => (.error error, w)
    | .ok _ => (.ok record, w)

/-- The clean-up after a creation or a binding that has failed; its own failure is swallowed. -/
def revoke (calls : Calls) (w : World) (registration : Registration) : World :=
  match calls.revoked with
  | .error _ => w
  | .ok () => { w with registrations := w.registrations.filter (· ≠ registration) }

/-- What `provision` does once the instance is to be created. -/
def build (calls : Calls) (w : World) (provider : Provider) (name : String) (registration : Registration)
    (request : Request) : Outcome :=
  let (answer, created) := create calls provider request
  let w := { w with instances := w.instances ++ created.toList }
  match (do let result ← answer; bindProviderInstance calls result.instanceId; pure result) with
  | .error error => ⟨.error error, revoke calls w registration, created⟩
  | .ok result =>
    let (outcome, w) := conclude calls w (recordOf calls provider name request result)
    ⟨outcome, w, created⟩

def provision (calls : Calls) (w : World) (input : Option Input) : Outcome :=
  match accept input with
  | .error error => ⟨.error error, w, none⟩
  | .ok (provider, name, request) =>
    match prepareRegistration calls request with
    | .error error => ⟨.error error, w, none⟩
    | .ok registration =>
      let w := { w with registrations := w.registrations ++ [registration] }
      match calls.cloudInit registration with
      | .error error => ⟨.error error, w, none⟩
      | .ok userData => build calls w provider name registration (request.ofRegistration registration userData)

def Record.tracks (record : Record) (i : Instance) : Prop :=
  record.provider.id = i.provider ∧ record.boxId = i.boxId ∧ record.generation = i.generation

def LeavesNoInstance (o : Outcome) : Prop :=
  ∀ error, o.result = .error error → ∀ i, o.created = some i →
    i ∉ o.world.instances ∨ ∃ record ∈ o.world.workspaces, record.tracks i

def reaches (calls : Calls) (input : Option Input) : Option (Provider × Request) :=
  match accept input with
  | .error _ => none
  | .ok (provider, _, request) =>
    match prepareRegistration calls request with
    | .error _ => none
    | .ok registration =>
      match calls.cloudInit registration, beforeCreation calls provider with
      | .ok userData, .ok () => some (provider, request.ofRegistration registration userData)
      | _, _ => none

def named (provider : Provider) (request : Request) (answer : Answer) : String :=
  orElse answer.instanceId (if provider.id ∈ ["digitalocean", "hetzner", "aws"] then "" else request.name)

def Binds (calls : Calls) (provider : Provider) (request : Request) : Prop :=
  match calls.creation with
  | .refused _ => True
  | .lost _ _ => False
  | .answered _ answer => BoxRegistry.validIdentity (named provider request answer) = true ∧ calls.bound = .ok ()

section
variable {calls : Calls} {w : World} {provider : Provider} {name : String} {registration : Registration} {request : Request}

theorem prepared_generation (prepared : prepareRegistration calls request = .ok registration) :
    ∃ bootstrapSecret, calls.registration = .ok (registration.generation, bootstrapSecret) := by
  unfold prepareRegistration at prepared
  cases known : calls.credential with
  | error error =>
    rw [known] at prepared
    cases prepared
  | ok _ =>
    rw [known] at prepared
    cases registered : calls.registration with
    | error error =>
      rw [registered] at prepared
      cases prepared
    | ok pair =>
      rw [registered] at prepared
      cases prepared
      exact ⟨pair.2, rfl⟩

/-- An answer is bound if and only if it names the instance by an identity, and the binding succeeds. -/
theorem bound_iff (answer : Answer) (result : Result) :
    (do let result ← resultOf provider request answer; bindProviderInstance calls result.instanceId; pure result) =
        Except.ok result ↔
      resultOf provider request answer = .ok result ∧ BoxRegistry.validIdentity result.instanceId = true ∧
        calls.bound = .ok () := by
  cases resultOf provider request answer with
  | error error =>
    constructor
    · intro absurd
      cases absurd
    · intro absurd
      cases absurd.1
  | ok other =>
    dsimp only [bind, Except.bind]
    unfold bindProviderInstance
    by_cases valid : BoxRegistry.validIdentity other.instanceId = true
    · rw [if_pos valid]
      cases bound : calls.bound with
      | error error =>
        constructor
        · intro absurd
          cases absurd
        · intro absurd
          cases absurd.2.2
      | ok _ =>
        constructor
        · intro same
          cases same
          exact ⟨rfl, valid, rfl⟩
        · intro same
          cases same.1
          rfl
    · rw [if_neg valid]
      constructor
      · intro absurd
        cases absurd
      · rintro ⟨same, known, _⟩
        cases same
        exact absurd known valid

theorem resultOf_named (answer : Answer) :
    (∃ result, resultOf provider request answer = .ok result ∧ BoxRegistry.validIdentity result.instanceId = true) ↔
      BoxRegistry.validIdentity (named provider request answer) = true := by
  unfold resultOf named digitalOceanResult hetznerResult awsResult gcpResult
  by_cases digitalocean : provider.id = "digitalocean"
  · simp [digitalocean]
  · by_cases hetzner : provider.id = "hetzner"
    · by_cases falsy : Text.falsy answer.instanceId = true
      · have invalid : BoxRegistry.validIdentity "" = false := by decide
        simp [hetzner, falsy, orElse, invalid]
      · simp [hetzner, falsy]
    · by_cases aws : provider.id = "aws"
      · by_cases falsy : Text.falsy answer.instanceId = true
        · have invalid : BoxRegistry.validIdentity "" = false := by decide
          simp [aws, falsy, orElse, invalid]
        · simp [aws, falsy]
      · simp [digitalocean, hetzner, aws]

theorem conclude_records (record : Record) : record ∈ (conclude calls w record).2.workspaces := by
  have recorded : record ∈ (w.record record).workspaces := List.mem_append_right _ (List.mem_singleton_self _)
  unfold conclude
  split
  · exact recorded
  · split <;> exact recorded

theorem revoke_keeps : (revoke calls w registration).instances = w.instances ∧
    (revoke calls w registration).workspaces = w.workspaces := by
  unfold revoke
  split
  · exact ⟨rfl, rfl⟩
  · exact ⟨rfl, rfl⟩

theorem leaves_of_none {o : Outcome} (none : o.created = none) : LeavesNoInstance o := by
  intro _ _ i absurd
  rw [none] at absurd
  cases absurd

theorem revoke_leaves {i : Instance} (error : CloudError)
    (unrecorded : ∀ record ∈ w.workspaces, record.generation ≠ i.generation) :
    ¬LeavesNoInstance ⟨.error error, revoke calls { w with instances := w.instances ++ [i] } registration, some i⟩ := by
  intro leaves
  rcases leaves error rfl i rfl with gone | ⟨record, inside, _, _, same⟩
  · rw [revoke_keeps.1] at gone
    exact gone (List.mem_append_right _ (List.mem_singleton_self _))
  · rw [revoke_keeps.2] at inside
    exact unrecorded record inside same

/-- Once the request that creates the instance is sent, it is decided by how the instance is bound. -/
theorem build_leaves_iff (clear : beforeCreation calls provider = .ok ())
    (unrecorded : ∀ record ∈ w.workspaces, record.generation ≠ request.generation) :
    LeavesNoInstance (build calls w provider name registration request) ↔ Binds calls provider request := by
  unfold build create Binds
  rw [clear]
  cases created : calls.creation with
  | refused error => exact iff_of_true (leaves_of_none rfl) trivial
  | lost instanceId error =>
    exact iff_of_false (revoke_leaves error unrecorded) id
  | answered instanceId answer =>
    dsimp only
    rw [← resultOf_named]
    split
    · next error failed =>
        refine iff_of_false (revoke_leaves error unrecorded) ?_
        rintro ⟨⟨result, answered, valid⟩, bound⟩
        have ok := (bound_iff answer result).mpr ⟨answered, valid, bound⟩
        rw [failed] at ok
        cases ok
    · next result ok =>
        obtain ⟨answered, valid, bound⟩ := (bound_iff answer result).mp ok
        refine iff_of_true ?_ ⟨⟨result, answered, valid⟩, bound⟩
        intro _ _ i same
        cases same
        exact .inr ⟨_, conclude_records _, rfl, rfl, rfl⟩

end

/-- A rejected provision leaves no instance behind if and only if the provider, once asked to
create one, either creates none or answers with an identity that is then bound. -/
theorem provision_leaves_iff (calls : Calls) (w : World) (input : Option Input)
    (unrecorded : ∀ generation secret, calls.registration = .ok (generation, secret) →
      ∀ record ∈ w.workspaces, record.generation ≠ generation) :
    LeavesNoInstance (provision calls w input) ↔
      ∀ provider request, reaches calls input = some (provider, request) → Binds calls provider request := by
  unfold provision reaches
  cases admitted : accept input with
  | error error => exact iff_of_true (leaves_of_none rfl) fun _ _ absurd => nomatch absurd
  | ok taken =>
    obtain ⟨provider, name, request⟩ := taken
    dsimp only
    cases prepared : prepareRegistration calls request with
    | error error => exact iff_of_true (leaves_of_none rfl) fun _ _ absurd => nomatch absurd
    | ok registration =>
      dsimp only
      obtain ⟨bootstrapSecret, registered⟩ := prepared_generation prepared
      have fresh := unrecorded registration.generation bootstrapSecret registered
      cases calls.cloudInit registration with
      | error error => exact iff_of_true (leaves_of_none rfl) fun _ _ absurd => nomatch absurd
      | ok userData =>
        cases clear : beforeCreation calls provider with
        | error error =>
          refine iff_of_true (leaves_of_none ?_) fun _ _ absurd => nomatch absurd
          unfold build create
          rw [clear]
          split <;> rfl
        | ok _ =>
          rw [build_leaves_iff clear fresh]
          constructor
          · intro binds other sent same
            cases same
            exact binds
          · intro binds
            exact binds _ _ rfl

def box : Input := ⟨some "hetzner", some "box", some "nbg1", some "cx22", some "ubuntu"⟩

def succeeding : Calls where
  credential := .ok ()
  registration := .ok ("g", "secret")
  cloudInit := fun _ => .ok "#cloud-config"
  tags := .ok []
  tagCreated := .ok ()
  accessToken := .ok ()
  creation := .answered "17" ⟨some "17", none⟩
  bound := .ok ()
  revoked := .ok ()
  persisted := .ok ()
  read := .ok none
  randomId := "random"

/-- The state of the hub cannot be written: the instance stays on record in memory. -/
theorem provision_leaves_unpersisted :
    LeavesNoInstance (provision { succeeding with persisted := .error { message := "disk is full" } } {} (some box)) := by
  refine (provision_leaves_iff _ {} (some box) fun _ _ _ record absurd => nomatch absurd).mpr fun provider request sent => ?_
  cases sent
  exact ⟨by decide +kernel, rfl⟩

/-- The registry cannot be written when the instance is bound: the instance runs on, and the hub
does not know of it. -/
theorem unbound_instance_left :
    ¬LeavesNoInstance (provision { succeeding with bound := .error { message := "disk is full" } } {} (some box)) := by
  intro leaves
  rcases leaves _ rfl ⟨"hetzner", "17", "box", "g"⟩ (by decide +kernel) with gone | ⟨record, inside, _⟩
  · exact gone (by decide +kernel)
  · cases inside

end CloudProvisioning
