import VmAdmission.Ledger.Store

namespace VmAdmission

/-- A caller of the store that is to produce an `α`: a tree of calls, in which each outcome of a
call decides how to go on. -/
inductive Dialogue (α : Type)
  | done (result : Except RequestError α)
  | call (call : Call) (resume : call.Outcome → Dialogue α)
  /-- Two calls that are made at the same time. -/
  | both (first second : Call) (resume : first.Outcome → second.Outcome → Dialogue α)

namespace Dialogue

def fail {α : Type} (error : RequestError) : Dialogue α :=
  done (.error error)

/-- Makes a call and goes on with its answer; a failure of the store ends the dialogue. -/
def ask {α : Type} (c : Call) (next : c.Answer → Dialogue α) : Dialogue α :=
  call c fun
    | .ok answer => next answer
    | .error error => fail (.storage error)

structure Finished (α : Type) where
  elapsed : Duration
  result : Except RequestError α
  store : Store

def Finished.delay {α : Type} (finished : Finished α) (d : Duration) : Finished α :=
  { finished with elapsed := ⟨d.millis + finished.elapsed.millis⟩ }

/-- Runs a dialogue to its end, with a limit on each call. -/
def run {α : Type} (limit : Duration) : Dialogue α → Store → Finished α
  | done result, store => ⟨⟨0⟩, result, store⟩
  | call c resume, store =>
    let answered := store.answerWithin limit c
    (run limit (resume answered.outcome) answered.store).delay answered.elapsed
  | both c d resume, store =>
    let first := store.answerWithin limit c
    let second := first.store.answerWithin limit d
    (run limit (resume first.outcome second.outcome) second.store).delay
      ⟨max first.elapsed.millis second.elapsed.millis⟩

end Dialogue

end VmAdmission
