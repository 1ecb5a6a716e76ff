import VmAdmission.Ledger.Call
import VmAdmission.Time.Latency

namespace VmAdmission

/-- What stands before a method of the store. -/
structure Gate where
  latency : Latency := .none
  /-- The failure that the call ends in, if it is not let through. -/
  error : Option StoreError := none

/-- What answers the calls that are let through. -/
inductive Backend
  | memory
  | closedPool
deriving DecidableEq

structure Store where
  backend : Backend := .memory
  ledger : Ledger := {}
  gates : Method → Gate := fun _ => {}
  /-- The stamps for new requests, of which `issued` are used up. -/
  stamps : Nat → Stamp
  issued : Nat := 0

namespace Store

/-- Makes a call that has passed its gate. -/
def admitCall (store : Store) (call : Call) : call.Outcome × Store :=
  match store.backend with
  | .memory =>
    let (outcome, ledger) := call.perform (store.stamps store.issued) store.ledger
    (outcome, { store with ledger, issued := store.issued + 1 })
  | .closedPool => (.error (.ofDatabase .poolClosed), store)

def answer (store : Store) (call : Call) : call.Outcome × Store :=
  match (store.gates call.method).error with
  | some error => (.error error, store)
  | none => store.admitCall call

structure Answered (call : Call) where
  elapsed : Duration
  outcome : call.Outcome
  store : Store

/-- Makes a call, waiting no longer than the limit. A call that is given up has no effect. -/
def answerWithin (store : Store) (limit : Duration) (call : Call) : Answered call :=
  match (store.gates call.method).latency.within? limit with
  | some elapsed =>
    let (outcome, store) := store.answer call
    ⟨elapsed, outcome, store⟩
  | none => ⟨limit, .error (.unavailable (.tooSlow limit)), store⟩

end Store

end VmAdmission
