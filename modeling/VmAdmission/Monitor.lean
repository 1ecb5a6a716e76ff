import VmAdmission.Net.StatusText
import VmAdmission.Net.UrlReader
import VmAdmission.Preflight
import VmAdmission.Settings

namespace VmAdmission

inductive Endpoint
  | images
  | hosts
  | clusters
  | vmMetrics (vmId : String)
deriving DecidableEq

namespace Endpoint

def label : Endpoint → String
  | images => "list images"
  | hosts => "list hosts"
  | clusters => "list clusters"
  | vmMetrics _ => "get vm metrics"

/-- The path of what is asked for, below the address of the service. -/
def segments : Endpoint → List String
  | images => ["v1", "images"]
  | hosts => ["v1", "hosts"]
  | clusters => ["v1", "clusters"]
  | vmMetrics vmId => ["v1", "vms", vmId, "metrics"]

end Endpoint

inductive PathError
  | badSegment (segment : String)
  | badBase (base : String) (why : UrlError)
  | noPath (base : String)
deriving DecidableEq

def PathError.message : PathError → String
  | badSegment segment => "segment " ++ Quoted.quote segment ++ " not allowed"
  | badBase base why => base ++ ": " ++ why.message
  | noPath base => base ++ " cannot be a base"

/-- How a request came to nothing before there was a usable answer. -/
inductive RequestFailure
  | notBuilt
  | notBuiltFor (url : Url)
  | notSent (url : Url) (timedOut : Bool)
  | notDecoded
deriving DecidableEq

def RequestFailure.message : RequestFailure → String
  | notBuilt => "builder error"
  | notBuiltFor url => "builder error for url (" ++ url.text ++ ")"
  | notSent url _ => "error sending request for url (" ++ url.text ++ ")"
  | notDecoded => "error decoding response body"

inductive MonitorError
  | request (failure : RequestFailure)
  | notFound (endpoint : Endpoint)
  | refused (endpoint : Endpoint) (status : Nat) (body : String)
  | invalidPath (why : PathError)
deriving DecidableEq

namespace MonitorError

def message : MonitorError → String
  | request failure => "monitor api request failed: " ++ failure.message
  | notFound endpoint => "monitor api " ++ endpoint.label ++ " returned 404"
  | refused endpoint status body =>
    "monitor api " ++ endpoint.label ++ " returned " ++ statusText status ++ ": " ++ body
  | invalidPath why => "invalid monitor api path: " ++ why.message

def isTimeout : MonitorError → Bool
  | request (.notSent _ timedOut) => timedOut
  | _ => false

def lookupError (error : MonitorError) : LookupError :=
  if error.isTimeout then .timeout
  else match error with
    | notFound endpoint => .notFound endpoint.label
    | other => .failed other.message

end MonitorError

structure MonitorRequest where
  url : Url
  /-- The header that shows the token, if there is one. -/
  authorization : Option String
deriving DecidableEq

/-- What a service answered. -/
structure MonitorResponse where
  status : Nat
  body : List UInt8
  /-- The body as a text, in the characters that the service says it writes in. -/
  text : String := Utf8.decodeLossy body

/-- What became of a request that was sent. -/
inductive Delivery
  | answered (response : MonitorResponse)
  | failed (timedOut : Bool)

/-- How requests are delivered, and how long that takes. -/
abbrev Transport := MonitorRequest → Latency × Delivery

structure MonitorClient where
  /-- The address of the service. -/
  base : String
  token : Option String
deriving DecidableEq

namespace MonitorClient

/-- The client of a service at an address, without the slashes at its end. -/
def ofBase (address : String) (token : Option String) : MonitorClient :=
  ⟨String.ofList ((address.toList.reverse.dropWhile (· = '/')).reverse), token⟩

def badSegments : List String := ["", ".", ".."]

/-- The address of what is asked for. -/
def url [Domain.Reader] (client : MonitorClient) (segments : List String) :
    Except PathError Url := do
  if let some bad := segments.find? badSegments.contains then throw (.badSegment bad)
  let base ← (Url.parse client.base).mapError (.badBase client.base)
  let some url := base.append? segments | throw (.noPath client.base)
  return url

/-- The character may stand in a header. -/
def isHeaderChar (c : Char) : Bool :=
  c = '\t' || !Percent.control c

/-- The longest address that can be sent. -/
def maxUrlSize : Nat := 65534

/-- The character may stand in the host of an address, but not of one that is sent. -/
def isUnsendable (c : Char) : Bool :=
  "\"`\x7b\x7d".contains c

/-- A request can be sent to the address. -/
def isSendable (url : Url) : Bool :=
  (url.scheme = "http" || url.scheme = "https") &&
    url.text.utf8ByteSize ≤ maxUrlSize &&
    !url.host.any fun host => host.text.toList.any isUnsendable

def request [Domain.Reader] (client : MonitorClient) (endpoint : Endpoint) :
    Except MonitorError MonitorRequest := do
  let url ← (client.url endpoint.segments).mapError .invalidPath
  if url.host = none then throw (.request (.notBuiltFor url))
  let url := url.withoutUserinfo
  let authorization := client.token.map ("Bearer " ++ ·)
  if (authorization.map (·.toList.all isHeaderChar)) = some false then throw (.request .notBuilt)
  if ¬ isSendable url then throw (.request (.notBuiltFor url))
  return ⟨url, authorization⟩

def readResponse {α : Type} (endpoint : Endpoint) (decoder : Json.Decoder α)
    (response : MonitorResponse) : Except MonitorError α :=
  if response.status = 404 then .error (.notFound endpoint)
  else if response.status < 200 ∨ 300 ≤ response.status then
    .error (.refused endpoint response.status response.text)
  else
    match Json.decode decoder (Utf8.symbols response.body) with
    | .ok value => .ok value
    | .error _ => .error (.request .notDecoded)

def readDelivery {α : Type} (endpoint : Endpoint) (decoder : Json.Decoder α)
    (request : MonitorRequest) : Delivery → Except MonitorError α
  | .answered response => readResponse endpoint decoder response
  | .failed timedOut => .error (.request (.notSent request.url timedOut))

structure Fetched (α : Type) where
  /-- The request, if one was sent. -/
  sent : Option MonitorRequest
  latency : Latency
  result : Except MonitorError α

def fetch [Domain.Reader] {α : Type} (client : MonitorClient) (transport : Transport)
    (endpoint : Endpoint) (decoder : Json.Decoder α) : Fetched α :=
  match client.request endpoint with
  | .error error => ⟨none, .none, .error error⟩
  | .ok request =>
    let (latency, delivery) := transport request
    ⟨some request, latency, readDelivery endpoint decoder request delivery⟩

/-- How the service of a client behaves to a lookup. -/
def behaviour [Domain.Reader] {α : Type} (client : MonitorClient) (transport : Transport)
    (endpoint : Endpoint) (decoder : Json.Decoder α) : Behaviour α :=
  let fetched := client.fetch transport endpoint decoder
  ⟨fetched.latency, match fetched.result with
    | .ok value => .answer value
    | .error error => .failure error.lookupError⟩

end MonitorClient

namespace MonitorEndpoints

/-- The services at the given places, reached through a transport. -/
def services [Domain.Reader] (endpoints : MonitorEndpoints) (transport : Transport) : Services :=
  let imageManager := MonitorClient.ofBase endpoints.imageManagerUrl endpoints.token
  let infraMonitor := MonitorClient.ofBase endpoints.infraMonitorUrl endpoints.token
  let vmMonitor := MonitorClient.ofBase endpoints.vmMonitorUrl endpoints.token
  { images := imageManager.behaviour transport .images (.list Image.decoder)
    hosts := infraMonitor.behaviour transport .hosts (.list (Place.decoder .host))
    clusters := infraMonitor.behaviour transport .clusters (.list (Place.decoder .cluster))
    vm := fun vmId => vmMonitor.behaviour transport (.vmMetrics vmId) VmMetrics.decoder }

end MonitorEndpoints

end VmAdmission
