import VmAdmission.Failure
import VmAdmission.Time.Latency

namespace VmAdmission

/-- What a lookup comes to once the service gets to it. A lookup that crashes takes the request
with it. -/
inductive Reply (α : Type)
  | answer (value : α)
  | failure (error : LookupError)
  | crash

structure Behaviour (α : Type) where
  latency : Latency := .none
  reply : Reply α

structure Services where
  images : Behaviour (List Image)
  hosts : Behaviour (List Place)
  clusters : Behaviour (List Place)
  vm : String → Behaviour VmMetrics

inductive Lookup
  | images
  | hosts
  | clusters
  | vm (id : String)
deriving DecidableEq

/-- What happens when the state of a machine cannot be looked up. -/
inductive VmPolicy
  /-- The request is refused, and a machine that is not known is reported as not found. -/
  | strict
  /-- The request passes when the lookup takes too long, and is refused otherwise. -/
  | bestEffort
deriving DecidableEq

structure ValidationConfig where
  /-- Without it every request passes, and nothing is looked up. -/
  enabled : Bool := false
  vmPolicy : VmPolicy := .strict
  strictVmTimeout : Duration := .ofSeconds 60
  bestEffortVmTimeout : Duration := ⟨10⟩
  /-- The limit of each lookup of images, hosts and clusters. -/
  lookupTimeout : Duration := .ofSeconds 30
deriving DecidableEq

structure DeployTarget where
  imageId : String
  host : String
  cluster : String
deriving DecidableEq

inductive Halt
  | refused (error : RequestError)
  | crashed

/-- The end of a check, and when it came. -/
structure Check (α : Type) where
  elapsed : Duration
  result : Except Halt α

namespace Check

/-- The check goes on with its value, in no time. -/
def andThen {α β : Type} (check : Check α) (next : α → Except RequestError β) : Check β :=
  ⟨check.elapsed, match check.result with
    | .ok value => (next value).mapError .refused
    | .error halt => .error halt⟩

def failure? {α : Type} (check : Check α) : Option (Duration × Halt) :=
  match check.result with
  | .ok _ => none
  | .error halt => some (check.elapsed, halt)

def failedAtOnce {α : Type} (check : Check α) : Bool :=
  match check.failure? with
  | some (elapsed, _) => elapsed.millis == 0
  | none => false

end Check

/-- The failure that comes first, of those at one time the first of the list. -/
def earliest? : List (Duration × Halt) → Option (Duration × Halt)
  | [] => none
  | failure :: failures =>
    match earliest? failures with
    | some other => some (if failure.1 ≤ other.1 then failure else other)
    | none => some failure

/-- What came of all checks of a request: the lookups that were made, in order, and the end. -/
structure Preflight (α : Type) where
  lookups : List Lookup
  check : Check α

/-- What came of a lookup that has to be done within a limit. -/
def Behaviour.check {α : Type} (behaviour : Behaviour α) (service : Service) (limit : Duration) :
    Check α :=
  match behaviour.latency.within? limit with
  | none => ⟨limit, .error (.refused (.dependencyUnavailable (.noAnswer service limit)))⟩
  | some elapsed => ⟨elapsed, match behaviour.reply with
    | .answer value => .ok value
    | .failure error => .error (.refused (.dependencyUnavailable (.lookupFailed service error)))
    | .crash => .error .crashed⟩

def imageFile (id : String) (images : List Image) : Except RequestError String :=
  match images.find? fun image => image.id == id with
  | some image => .ok image.filename
  | none => .error (.validationFailed (.unknownImage id))

/-- A place must be known and report that all is well. -/
def requireHealthy (kind : PlaceKind) (name : String) (places : List Place) :
    Except RequestError Unit :=
  match places.find? fun place => place.name == name with
  | some place =>
    if Ascii.alike place.status "OK" then .ok ()
    else .error (.validationFailed (.unhealthyPlace kind name))
  | none => .error (.validationFailed (.unknownPlace kind name))

namespace Services

/-- The check of an image: its file. -/
def checkImage (services : Services) (limit : Duration) (id : String) : Check String :=
  (services.images.check .imageManager limit).andThen (imageFile id)

def checkHost (services : Services) (limit : Duration) (name : String) : Check Unit :=
  (services.hosts.check .infraMonitor limit).andThen (requireHealthy .host name)

def checkCluster (services : Services) (limit : Duration) (name : String) : Check Unit :=
  (services.clusters.check .infraMonitor limit).andThen (requireHealthy .cluster name)

/-- All checks of a deployment: the file of the image. The lookups are made in order and at the
same time; the first check that fails is the end, and one that fails at once keeps the lookups
after it from being made. -/
def checkTarget (services : Services) (limit : Duration) (target : DeployTarget) :
    Preflight String :=
  let image := services.checkImage limit target.imageId
  let host := services.checkHost limit target.host
  let cluster := services.checkCluster limit target.cluster
  let lookups :=
    if image.failedAtOnce then [.images]
    else if host.failedAtOnce then [.images, .hosts]
    else [.images, .hosts, .clusters]
  match earliest? ([image.failure?, host.failure?, cluster.failure?].filterMap id) with
  | some (elapsed, halt) => ⟨lookups, elapsed, .error halt⟩
  | none =>
    ⟨lookups, ⟨max image.elapsed.millis (max host.elapsed.millis cluster.elapsed.millis)⟩,
      image.result⟩

/-- Checks a deployment: the file of its image, or nothing when checks are disabled. -/
def validateDeploy (services : Services) (config : ValidationConfig) (target : DeployTarget) :
    Preflight (Option String) :=
  if config.enabled then
    let preflight := services.checkTarget config.lookupTimeout target
    ⟨preflight.lookups, preflight.check.andThen fun file => .ok (some file)⟩
  else ⟨[], ⟨0⟩, .ok none⟩

end Services

/-- The letters and digits of a text, in upper case. -/
def essence (text : String) : String :=
  String.ofList ((text.toList.filter Char.isAlphanum).map Char.toUpper)

def isPoweredOff (powerState : String) : Bool :=
  ["POWEROFF", "POWEREDOFF", "OFF"].contains (essence powerState)

/-- A machine that is off cannot be reconfigured. -/
def requirePower (operation : Operation) (metrics : VmMetrics) : Except RequestError Unit :=
  if operation = .reconfigure ∧ isPoweredOff metrics.powerState then
    .error (.validationFailed .poweredOff)
  else .ok ()

namespace Services

/-- The check of a machine when its state has to be known. -/
def checkVmStrictly (services : Services) (limit : Duration) (vmId : String)
    (operation : Operation) : Check Unit :=
  let behaviour := services.vm vmId
  match behaviour.latency.within? limit with
  | none => ⟨limit, .error (.refused (.dependencyUnavailable (.noAnswer .vmMonitor limit)))⟩
  | some elapsed => ⟨elapsed, match behaviour.reply with
    | .answer metrics => (requirePower operation metrics).mapError .refused
    | .failure (.notFound _) => .error (.refused (.notFound (.vm vmId)))
    | .failure error => .error (.refused (.dependencyUnavailable (.lookupFailed .vmMonitor error)))
    | .crash => .error .crashed⟩

/-- The check of a machine whose state is of interest only if it is known in time. -/
def checkVmLeniently (services : Services) (limit : Duration) (vmId : String)
    (operation : Operation) : Check Unit :=
  let behaviour := services.vm vmId
  match behaviour.latency.within? limit with
  | none => ⟨limit, .ok ()⟩
  | some elapsed => ⟨elapsed, match behaviour.reply with
    | .answer metrics => (requirePower operation metrics).mapError .refused
    | .failure .timeout => .ok ()
    | .failure _ => .error (.refused (.validationFailed .vmNotValidated))
    | .crash => .error .crashed⟩

def validateVm (services : Services) (config : ValidationConfig) (vmId : String)
    (operation : Operation) : Preflight Unit :=
  if config.enabled then
    ⟨[.vm vmId], match config.vmPolicy with
      | .strict => services.checkVmStrictly config.strictVmTimeout vmId operation
      | .bestEffort => services.checkVmLeniently config.bestEffortVmTimeout vmId operation⟩
  else ⟨[], ⟨0⟩, .ok ()⟩

end Services

end VmAdmission
