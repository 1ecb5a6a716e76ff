import VmAdmission.Ledger.Basic

namespace VmAdmission

inductive Call
  | createRequest (new : NewRequest)
  | createInstances (id : Uuid) (news : List NewInstance)
  | createRequestWithInstances (new : NewRequest) (news : List NewInstance)
  | getRequest (id : Uuid)
  | listInstances (id : Uuid)
  | listRequests
  | listAllInstances

namespace Call

/-- What a call answers when it succeeds. -/
abbrev Answer : Call → Type
  | createRequest _ => RequestRow
  | createInstances _ _ => List InstanceRow
  | createRequestWithInstances _ _ => RequestRow × List InstanceRow
  | getRequest _ => RequestRow
  | listInstances _ => List InstanceRow
  | listRequests => List RequestRow
  | listAllInstances => List InstanceRow

abbrev Outcome (call : Call) : Type := Except StoreError call.Answer

/-- The answer of a write and the ledger after it, or the failure and the ledger as it was. -/
def written {α : Type} (ledger : Ledger) :
    Except StoreError (α × Ledger) → Except StoreError α × Ledger
  | .ok (answer, after) => (.ok answer, after)
  | .error e => (.error e, ledger)

/-- Makes the call. The stamp marks the request that the call creates, if it creates one. -/
def perform (stamp : Stamp) (ledger : Ledger) : (call : Call) → call.Outcome × Ledger
  | createRequest new => written ledger (ledger.createRequest stamp new)
  | createInstances id news => written ledger (ledger.createInstances id news)
  | createRequestWithInstances new news =>
    written ledger (ledger.createRequestWithInstances stamp new news)
  | getRequest id => (ledger.getRequest id, ledger)
  | listInstances id => (ledger.listInstances id, ledger)
  | listRequests => (ledger.listRequests, ledger)
  | listAllInstances => (ledger.listAllInstances, ledger)

end Call

/-- The methods of a store, one for each kind of call. -/
inductive Method
  | createRequest
  | createInstances
  | createRequestWithInstances
  | getRequest
  | listInstances
  | listRequests
  | listAllInstances
deriving DecidableEq

def Call.method : Call → Method
  | createRequest _ => .createRequest
  | createInstances _ _ => .createInstances
  | createRequestWithInstances _ _ => .createRequestWithInstances
  | getRequest _ => .getRequest
  | listInstances _ => .listInstances
  | listRequests => .listRequests
  | listAllInstances => .listAllInstances

end VmAdmission
