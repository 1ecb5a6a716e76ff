import VmAdmission.Admission

namespace VmAdmission

/-- All recorded requests and all machines. -/
structure Listing where
  requests : List RequestRow
  instances : List InstanceRow
deriving DecidableEq

/-- The rows that were read, none if the store found none. -/
def emptyIfMissing {α : Type} : Except StoreError (List α) → Except RequestError (List α)
  | .ok rows => .ok rows
  | .error .notFound => .ok []
  | .error error => .error (.storage error)

def findRequest (id : Uuid) : Dialogue Recorded :=
  .call (.getRequest id) fun
    | .ok request =>
      .call (.listInstances id) fun instances =>
        .given (emptyIfMissing instances) fun instances => .done (.ok ⟨request, instances⟩)
    | .error .notFound => .fail (.notFound (.request id))
    | .error error => .fail (.storage error)

/-- Reads all requests and all machines, both at the same time. -/
def listRequests : Dialogue Listing :=
  .both .listRequests .listAllInstances fun requests instances =>
    .given (emptyIfMissing requests) fun requests =>
      .given (emptyIfMissing instances) fun instances => .done (.ok ⟨requests, instances⟩)

namespace Recorded

def apiJson (recorded : Recorded) : Json :=
  .object [
    ("vmRequest", recorded.request.apiJson),
    ("vmDeployList", .array (recorded.instances.map (·.apiJson)))]

end Recorded

namespace Listing

def apiJson (listing : Listing) : Json :=
  .object [
    ("vmRequestsListCount", .ofUInt64 listing.requests.length.toUInt64),
    ("vmDeployListCount", .ofUInt64 listing.instances.length.toUInt64),
    ("items", .object [
      ("vmRequestsList", .array (listing.requests.map (·.apiJson))),
      ("vmDeployList", .array (listing.instances.map (·.apiJson)))])]

end Listing

end VmAdmission
