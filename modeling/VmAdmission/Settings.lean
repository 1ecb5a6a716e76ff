import VmAdmission.Net.SocketAddress
import VmAdmission.Pipeline
import VmAdmission.Text.Blank

namespace VmAdmission

/-- Where requests are recorded. -/
inductive StoreBackend
  | postgres
  | memory
deriving DecidableEq

/-- Where the services that are asked before a request is recorded are found. -/
structure MonitorEndpoints where
  imageManagerUrl : String
  infraMonitorUrl : String
  vmMonitorUrl : String
  token : Option String
deriving DecidableEq

structure Settings where
  databaseUrl : Option String
  storeBackend : StoreBackend
  listenAddress : SocketAddress
  monitors : MonitorEndpoints
  pipeline : PipelineConfig
  /-- What comes before the id of a request where it is to be found. -/
  requestBasePath : String
deriving DecidableEq

/-- The variables that settings are read from. -/
inductive Variable
  | storeBackend
  | databaseUrl
  | validateClientRequest
  | vmValidationPolicy
  | strictVmTimeoutMs
  | bestEffortVmTimeoutMs
  | lookupTimeoutMs
  | storeTimeoutMs
  | atomicAdmission
  | maxVmsPerDeploy
  | listenAddr
  | imageManagerUrl
  | infraMonitorUrl
  | vmMonitorUrl
  | monitorApiToken
  | requestBasePath
deriving DecidableEq

def Variable.name : Variable → String
  | storeBackend => "STORE_BACKEND"
  | databaseUrl => "DATABASE_URL"
  | validateClientRequest => "VALIDATE_CLIENT_REQUEST"
  | vmValidationPolicy => "VM_VALIDATION_POLICY"
  | strictVmTimeoutMs => "STRICT_VM_TIMEOUT_MS"
  | bestEffortVmTimeoutMs => "BEST_EFFORT_VM_TIMEOUT_MS"
  | lookupTimeoutMs => "LOOKUP_TIMEOUT_MS"
  | storeTimeoutMs => "STORE_TIMEOUT_MS"
  | atomicAdmission => "ATOMIC_ADMISSION"
  | maxVmsPerDeploy => "MAX_VMS_PER_DEPLOY"
  | listenAddr => "LISTEN_ADDR"
  | imageManagerUrl => "IMAGE_MANAGER_URL"
  | infraMonitorUrl => "INFRA_MONITOR_URL"
  | vmMonitorUrl => "VM_MONITOR_URL"
  | monitorApiToken => "MONITOR_API_TOKEN"
  | requestBasePath => "REQUEST_BASE_PATH"

inductive BadValue
  | notBoolean
  | emptyNumber
  | invalidDigit
  | tooLarge
  | notAddress
  | unknownBackend (name : String)
  | unknownPolicy (name : String)
deriving DecidableEq

def BadValue.message : BadValue → String
  | notBoolean => "provided string was not `true` or `false`"
  | emptyNumber => "cannot parse integer from empty string"
  | invalidDigit => "invalid digit found in string"
  | tooLarge => "number too large to fit in target type"
  | notAddress => "invalid socket address syntax"
  | unknownBackend name => "unknown store backend: " ++ name
  | unknownPolicy name => "unknown vm validation policy: " ++ name

inductive SettingsError
  | missing (v : Variable)
  | invalid (v : Variable) (why : BadValue)
deriving DecidableEq

namespace SettingsError

def about : SettingsError → Variable
  | missing v => v
  | invalid v _ => v

def message : SettingsError → String
  | missing v => v.name ++ " must be set"
  | invalid v why => v.name ++ " is invalid: " ++ why.message

end SettingsError

/-- Reads a store backend, in any case. -/
def StoreBackend.parse (text : String) : Except BadValue StoreBackend :=
  match Ascii.lower text with
  | "postgres" => .ok .postgres
  | "memory" => .ok .memory
  | other => .error (.unknownBackend other)

/-- Reads a policy, in any case and with blanks around it. -/
def VmPolicy.parse (text : String) : Except BadValue VmPolicy :=
  match Ascii.lower (trimBlanks text) with
  | "strict" => .ok .strict
  | "best_effort" => .ok .bestEffort
  | "best-effort" => .ok .bestEffort
  | other => .error (.unknownPolicy other)

namespace Settings

def boolean : String → Except BadValue Bool
  | "true" => .ok true
  | "false" => .ok false
  | _ => .error .notBoolean

/-- Reads digits of a number of at most `max`, given those before them as a number. -/
def digits (max : Nat) : Nat → List Char → Except BadValue Nat
  | n, [] => .ok n
  | n, c :: cs =>
    match Ascii.digit? c with
    | none => .error .invalidDigit
    | some d => if n * 10 + d ≤ max then digits max (n * 10 + d) cs else .error .tooLarge

/-- Reads a number of at most `max`, which may have a plus sign. -/
def natural (max : Nat) (text : String) : Except BadValue Nat :=
  match text.toList with
  | [] => .error .emptyNumber
  | ['+'] => .error .invalidDigit
  | '+' :: cs => digits max 0 cs
  | cs => digits max 0 cs

def millis (text : String) : Except BadValue Duration :=
  (natural (UInt64.size - 1) text).map Duration.mk

def vmLimit (text : String) : Except BadValue UInt32 :=
  (natural (UInt32.size - 1) text).map Nat.toUInt32

def address (text : String) : Except BadValue SocketAddress :=
  match SocketAddress.parse? text with
  | some address => .ok address
  | none => .error .notAddress

/-- The values that variables have. -/
abbrev Environment := String → Option String

/-- The value of a variable, read after trimming, or a default when it has none. -/
def parsed {α : Type} (env : Environment) (v : Variable) (parse : String → Except BadValue α)
    (default : α) : Except SettingsError α :=
  match env v.name with
  | some raw => (parse (trimBlanks raw)).mapError (.invalid v)
  | none => .ok default

/-- The value of a variable as it is, or a default when it has none. -/
def verbatim (env : Environment) (v : Variable) (default : String) : String :=
  (env v.name).getD default

def validation (env : Environment) : Except SettingsError ValidationConfig := do
  let default : ValidationConfig := {}
  let enabled ← parsed env .validateClientRequest boolean default.enabled
  let vmPolicy ← parsed env .vmValidationPolicy VmPolicy.parse default.vmPolicy
  let strictVmTimeout ← parsed env .strictVmTimeoutMs millis default.strictVmTimeout
  let bestEffortVmTimeout ← parsed env .bestEffortVmTimeoutMs millis default.bestEffortVmTimeout
  let lookupTimeout ← parsed env .lookupTimeoutMs millis default.lookupTimeout
  return { enabled, vmPolicy, strictVmTimeout, bestEffortVmTimeout, lookupTimeout }

def admission (env : Environment) : Except SettingsError AdmissionConfig := do
  let default : AdmissionConfig := {}
  let storeTimeout ← parsed env .storeTimeoutMs millis default.storeTimeout
  let atomic ← parsed env .atomicAdmission boolean default.atomic
  let maxVmsPerDeploy ← parsed env .maxVmsPerDeploy vmLimit default.maxVmsPerDeploy
  return { storeTimeout, atomic, maxVmsPerDeploy }

def endpoints (env : Environment) : MonitorEndpoints where
  imageManagerUrl := verbatim env .imageManagerUrl "http://image-manager:8081"
  infraMonitorUrl := verbatim env .infraMonitorUrl "http://infra-monitor:8082"
  vmMonitorUrl := verbatim env .vmMonitorUrl "http://vm-monitor:8083"
  token := (env Variable.monitorApiToken.name).filter (· ≠ "")

/-- Reads the settings. The first value, in a fixed order, that does not read is the complaint. A
database is needed unless requests are recorded in memory. -/
def read (env : Environment) : Except SettingsError Settings := do
  let storeBackend ← parsed env .storeBackend StoreBackend.parse .postgres
  let databaseUrl := env Variable.databaseUrl.name
  if storeBackend = .postgres ∧ databaseUrl = none then throw (.missing .databaseUrl)
  let validation ← validation env
  let admission ← admission env
  let listenAddress ← parsed env .listenAddr address (.v4 (.ofNat 0) 8080)
  return {
    databaseUrl
    storeBackend
    listenAddress
    monitors := endpoints env
    pipeline := { validation, admission }
    requestBasePath :=
      verbatim env .requestBasePath "/virtualization/v1beta1/virtual-machines-request/" }

end Settings

end VmAdmission
