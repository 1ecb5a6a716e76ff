import VmAdmission.Http.Route
import VmAdmission.Taxonomy

namespace VmAdmission.Http.Route

/-- The method at the route asks for an operation on the machine with the id, as it stands in the
path. -/
inductive Operates : Route → Method → Operation → String → Prop
  | reconfigure (rawId : String) : Operates (machine rawId) .patch .reconfigure rawId
  | delete (rawId : String) : Operates (machine rawId) .delete .delete rawId
  | action (operation : Operation) (rawId : String) :
      Operates (action operation rawId) .post operation rawId

/-- The method at the route asks for the operation. -/
inductive Serves : Route → Method → ApiOperation → Prop
  | deploy : Serves machines .post (.lifecycle .deploy)
  | operate {route : Route} {method : Method} {operation : Operation} {rawId : String}
      (operates : route.Operates method operation rawId) :
      Serves route method (.lifecycle operation)
  | list {method : Method} (reads : method ∈ [.get, .head]) : Serves requests method .listRequests
  | find {method : Method} (rawId : String) (reads : method ∈ [.get, .head]) :
      Serves (request rawId) method .getRequest

variable {route : Route} {method : Method} {asked : ApiOperation} {operation : Operation}
  {rawId : String}

/-- What is asked for is a deployment, or it is about a machine. -/
theorem Serves.deploy_or_operate (serves : route.Serves method (.lifecycle operation)) :
    (route = .machines ∧ method = .post ∧ operation = .deploy) ∨
      ∃ rawId, route.Operates method operation rawId := by
  cases serves with
  | deploy => exact .inl ⟨rfl, rfl, rfl⟩
  | operate operates => exact .inr ⟨_, operates⟩

theorem Serves.of_listRequests (serves : route.Serves method .listRequests) :
    route = .requests := by
  cases serves
  rfl

theorem Serves.of_getRequest (serves : route.Serves method .getRequest) :
    ∃ rawId, route = .request rawId := by
  cases serves
  exact ⟨_, rfl⟩

theorem Operates.unique {other : Operation} {otherId : String}
    (operates : route.Operates method operation rawId)
    (again : route.Operates method other otherId) : operation = other ∧ rawId = otherId := by
  cases operates <;> cases again <;> exact ⟨rfl, rfl⟩

theorem Operates.served (operates : route.Operates method operation rawId) :
    route ≠ .health ∧ method ∈ route.methods ∧ method ≠ .head := by
  cases operates <;> simp [methods]

theorem Serves.served (serves : route.Serves method asked) :
    route ≠ .health ∧ method ∈ route.methods := by
  cases serves with
  | deploy => simp [methods]
  | operate operates => exact ⟨operates.served.1, operates.served.2.1⟩
  | list reads => exact ⟨Route.noConfusion, reads⟩
  | find rawId reads => exact ⟨Route.noConfusion, reads⟩

/-- All methods that are served ask for an operation, but for the question for health. -/
theorem exists_serves (inside : route ≠ .health) (served : method ∈ route.methods) :
    ∃ asked, route.Serves method asked := by
  cases route with
  | health => exact absurd rfl inside
  | machines =>
    cases List.mem_singleton.mp served
    exact ⟨_, .deploy⟩
  | machine rawId =>
    simp only [methods, List.mem_cons, List.not_mem_nil, or_false] at served
    rcases served with rfl | rfl
    · exact ⟨_, .operate (.reconfigure rawId)⟩
    · exact ⟨_, .operate (.delete rawId)⟩
  | action operation rawId =>
    cases List.mem_singleton.mp served
    exact ⟨_, .operate (.action operation rawId)⟩
  | requests => exact ⟨_, .list served⟩
  | request rawId => exact ⟨_, .find rawId served⟩

/-- The routes of actions deploy nothing. -/
theorem Operates.ne_deploy {target : String} (found : ofTarget? target = some route)
    (operates : route.Operates method operation rawId) : operation ≠ .deploy := by
  have actionsDeploy : ∀ entry ∈ actions, entry.2 ≠ .deploy := by decide
  have listed {last id : String}
      (found : (actions.lookup last).map (Route.action · id) = some (.action operation rawId)) :
      operation ≠ .deploy := by
    obtain ⟨named, entry, same⟩ := Option.map_eq_some_iff.mp found
    cases same
    obtain ⟨before, after, split, -⟩ := List.lookup_eq_some_iff.mp entry
    exact actionsDeploy (last, operation) (split ▸ List.mem_append_right _ List.mem_cons_self)
  cases operates with
  | reconfigure | delete => exact nofun
  | action =>
    unfold ofTarget? at found
    split at found
    · cases found
    · unfold belowRoot at found
      split at found
      · cases found
      · split at found <;> cases found
      · exact listed found
      · cases found
      · split at found <;> cases found
      · cases found
    · cases found

end VmAdmission.Http.Route
