import VmAdmission.Time.Duration

namespace VmAdmission

/-- How long something takes, which may be for ever. -/
inductive Latency
  | after (d : Duration)
  | never
deriving DecidableEq

namespace Latency

def none : Latency := after ⟨0⟩

/-- The time after which it is there, unless the limit is over before. -/
def within? (latency : Latency) (limit : Duration) : Option Duration :=
  match latency with
  | after d => if d ≤ limit then some d else Option.none
  | never => Option.none

/-- What takes so long is there no later than the limit. -/
def InTime (latency : Latency) (limit : Duration) : Prop :=
  ∃ d, latency = after d ∧ d ≤ limit

theorem within?_of_inTime {latency : Latency} {limit : Duration} (inTime : latency.InTime limit) :
    ∃ elapsed, latency.within? limit = some elapsed := by
  obtain ⟨d, rfl, soon⟩ := inTime
  exact ⟨d, if_pos soon⟩

theorem within?_of_late {latency : Latency} {limit : Duration} (late : ¬ latency.InTime limit) :
    latency.within? limit = Option.none := by
  cases latency with
  | never => rfl
  | after d => exact if_neg fun soon => late ⟨d, rfl, soon⟩

end Latency

end VmAdmission
