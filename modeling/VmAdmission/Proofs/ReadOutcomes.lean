import VmAdmission.Proofs.Deadlines

namespace VmAdmission

/-- What may become of a dialogue with a store of any kind: the calls that it makes, in the order in
which they are over, and its end. Of two calls that are made at the same time either may be over
first, and the other is waited for. -/
inductive Dialogue.Course {σ α : Type} (conduct : Conduct σ) (limit : Duration) :
    Dialogue α → σ → List Call → Ended σ (Except RequestError α) → Prop
  | done (result : Except RequestError α) (store : σ) :
      Course conduct limit (.done result) store [] ⟨⟨0⟩, result, store⟩
  | call {c : Call} {resume : c.Outcome → Dialogue α} {store : σ} {one : Ended σ c.Outcome}
      {calls : List Call} {ended : Ended σ (Except RequestError α)}
      (first : conduct.answerWithin limit store c = one)
      (rest : Course conduct limit (resume one.result) one.store calls ended) :
      Course conduct limit (.call c resume) store (c :: calls) (ended.delay one.elapsed)
  | inOrder {c d : Call} {resume : c.Outcome → d.Outcome → Dialogue α} {store : σ}
      {one : Ended σ c.Outcome} {other : Ended σ d.Outcome} {calls : List Call}
      {ended : Ended σ (Except RequestError α)}
      (first : conduct.answerWithin limit store c = one)
      (second : conduct.answerWithin limit one.store d = other)
      (rest : Course conduct limit (resume one.result other.result) other.store calls ended) :
      Course conduct limit (.both c d resume) store (c :: d :: calls)
        (ended.delay ⟨max one.elapsed.millis other.elapsed.millis⟩)
  | swapped {c d : Call} {resume : c.Outcome → d.Outcome → Dialogue α} {store : σ}
      {one : Ended σ c.Outcome} {other : Ended σ d.Outcome} {calls : List Call}
      {ended : Ended σ (Except RequestError α)}
      (first : conduct.answerWithin limit store d = other)
      (second : conduct.answerWithin limit other.store c = one)
      (rest : Course conduct limit (resume one.result other.result) one.store calls ended) :
      Course conduct limit (.both c d resume) store (d :: c :: calls)
        (ended.delay ⟨max one.elapsed.millis other.elapsed.millis⟩)

/-- Running a dialogue takes one of its courses. -/
theorem Dialogue.exists_course {σ α : Type} (conduct : Conduct σ) (limit : Duration)
    (dialogue : Dialogue α) (store : σ) :
    ∃ calls, dialogue.Course conduct limit store calls (dialogue.runOn conduct limit store) := by
  induction dialogue generalizing store with
  | done result => exact ⟨[], .done result store⟩
  | call c resume ih =>
    obtain ⟨calls, rest⟩ := ih _ (conduct.answerWithin limit store c).store
    exact ⟨c :: calls, .call rfl rest⟩
  | both c d resume ih =>
    obtain ⟨calls, rest⟩ :=
      ih _ _ (conduct.answerWithin limit (conduct.answerWithin limit store c).store d).store
    exact ⟨c :: d :: calls, .inOrder rfl rfl rest⟩

/-- How a store behaves to a read: how long it takes, and what it answers. -/
structure Reading (ρ : Type) where
  latency : Latency
  outcome : Except StoreError ρ

def Conduct.reading {σ : Type} (conduct : Conduct σ) (store : σ) (call : Call) :
    Reading call.Answer :=
  ⟨(conduct store call).latency, (conduct store call).outcome⟩

namespace Reading

section

variable {ρ : Type} (reading : Reading ρ) (limit : Duration)

/-- The read is over in time, with an answer. -/
def Answers (answer : ρ) : Prop :=
  reading.latency.InTime limit ∧ reading.outcome = .ok answer

/-- The read is over in time, and there was nothing to be read. -/
def FindsNothing : Prop :=
  reading.latency.InTime limit ∧ reading.outcome = .error .notFound

/-- Why the read is of no use: it fails in time, and not for want of something to be read, or it is
given up. -/
inductive Fails : StoreError → Prop
  | told {e : StoreError} (inTime : reading.latency.InTime limit)
      (outcome : reading.outcome = .error e) (other : e ≠ .notFound) : Fails e
  | late (late : ¬ reading.latency.InTime limit) : Fails (.unavailable (.tooSlow limit))

end

/-- The rows that a read lists, which are none if there was nothing to be read. -/
inductive Lists {α : Type} (reading : Reading (List α)) (limit : Duration) : List α → Prop
  | rows {rows : List α} (answers : reading.Answers limit rows) : Lists reading limit rows
  | nothing (nothing : reading.FindsNothing limit) : Lists reading limit []

/-- What is waited for no longer than the limit. -/
def within {ρ : Type} (reading : Reading ρ) (limit : Duration) : Except StoreError ρ :=
  match reading.latency.within? limit with
  | some _ => reading.outcome
  | none => .error (.unavailable (.tooSlow limit))

section

variable {ρ : Type} {reading : Reading ρ} {limit : Duration}

theorem within_of_inTime (inTime : reading.latency.InTime limit) :
    reading.within limit = reading.outcome := by
  obtain ⟨elapsed, there⟩ := Latency.within?_of_inTime inTime
  simp only [within, there]

theorem within_of_late (late : ¬ reading.latency.InTime limit) :
    reading.within limit = .error (.unavailable (.tooSlow limit)) := by
  simp only [within, Latency.within?_of_late late]

/-- What waiting comes to: the outcome in time, or that the read is given up. -/
theorem within_eq_iff {result : Except StoreError ρ} :
    reading.within limit = result ↔
      (reading.latency.InTime limit ∧ reading.outcome = result) ∨
        (¬ reading.latency.InTime limit ∧ result = .error (.unavailable (.tooSlow limit))) := by
  by_cases inTime : reading.latency.InTime limit
  · simp [within_of_inTime, inTime]
  · simp [within_of_late, inTime, eq_comm]

theorem answers_iff {answer : ρ} :
    reading.Answers limit answer ↔ reading.within limit = .ok answer := by
  simp [within_eq_iff, Answers]

theorem findsNothing_iff :
    reading.FindsNothing limit ↔ reading.within limit = .error .notFound := by
  simp [within_eq_iff, FindsNothing]

theorem fails_iff {e : StoreError} :
    reading.Fails limit e ↔ reading.within limit = .error e ∧ e ≠ .notFound := by
  rw [within_eq_iff]
  constructor
  · rintro (⟨inTime, outcome, other⟩ | late)
    · exact ⟨.inl ⟨inTime, outcome⟩, other⟩
    · exact ⟨.inr ⟨late, rfl⟩, nofun⟩
  · rintro ⟨⟨inTime, outcome⟩ | ⟨late, same⟩, other⟩
    · exact .told inTime outcome other
    · cases same
      exact .late late

end

section

variable {α : Type} {reading : Reading (List α)} {limit : Duration}

theorem emptyIfMissing_eq_ok_iff {rows : List α} :
    emptyIfMissing (reading.within limit) = .ok rows ↔ reading.Lists limit rows := by
  constructor
  · intro listed
    cases read : reading.within limit with
    | ok answer =>
      rw [read] at listed
      cases listed
      exact .rows (answers_iff.mpr read)
    | error e =>
      rw [read] at listed
      cases e <;> cases listed
      exact .nothing (findsNothing_iff.mpr read)
  · rintro (answers | nothing)
    · rw [answers_iff.mp answers]
      rfl
    · rw [findsNothing_iff.mp nothing]
      rfl

theorem emptyIfMissing_eq_error_iff {error : RequestError} :
    emptyIfMissing (reading.within limit) = .error error ↔
      ∃ e, reading.Fails limit e ∧ error = .storage e := by
  simp only [fails_iff]
  constructor
  · intro refused
    cases read : reading.within limit with
    | ok answer =>
      rw [read] at refused
      cases refused
    | error e =>
      rw [read] at refused
      cases e with
      | notFound => cases refused
      | _ =>
        cases refused
        exact ⟨_, ⟨rfl, by simp⟩, rfl⟩
  · rintro ⟨e, ⟨same, other⟩, rfl⟩
    rw [same]
    cases e with
    | notFound => exact absurd rfl other
    | _ => rfl

end

end Reading

theorem Conduct.answerWithin_result {σ : Type} (conduct : Conduct σ) (limit : Duration) (store : σ)
    (call : Call) :
    (conduct.answerWithin limit store call).result = (conduct.reading store call).within limit := by
  simp only [answerWithin, reading, Reading.within]
  cases (conduct store call).latency.within? limit <;> rfl

section

variable {σ : Type} (conduct : Conduct σ) (limit : Duration) (store : σ)

/-- How a store behaves to the two reads of a listing, of which either may be over first: the other
one then finds the store as the first has left it. -/
inductive Conduct.ListsBoth :
    List Call → Reading (List RequestRow) → Reading (List InstanceRow) → Prop
  | requestsFirst :
      ListsBoth [.listRequests, .listAllInstances] (conduct.reading store .listRequests)
        (conduct.reading (conduct.answerWithin limit store .listRequests).store .listAllInstances)
  | machinesFirst :
      ListsBoth [.listAllInstances, .listRequests]
        (conduct.reading (conduct.answerWithin limit store .listAllInstances).store .listRequests)
        (conduct.reading store .listAllInstances)

/-- Neither read of a listing matters for what the other one comes to. -/
structure Conduct.Undisturbed : Prop where
  requests :
    conduct.reading (conduct.answerWithin limit store .listAllInstances).store .listRequests =
      conduct.reading store .listRequests
  machines :
    conduct.reading (conduct.answerWithin limit store .listRequests).store .listAllInstances =
      conduct.reading store .listAllInstances

/-- What is told of a listing, by what becomes of its two reads. -/
structure Listing.Told (requests : Reading (List RequestRow)) (machines : Reading (List InstanceRow))
    (result : Except RequestError Listing) : Prop where
  ok_iff (listing : Listing) :
    result = .ok listing ↔
      requests.Lists limit listing.requests ∧ machines.Lists limit listing.instances
  error_iff (error : RequestError) :
    result = .error error ↔
      (∃ e, requests.Fails limit e ∧ error = .storage e) ∨
        (∃ rows, requests.Lists limit rows) ∧ ∃ e, machines.Fails limit e ∧ error = .storage e

/-- What is told of a request, by what becomes of the read of the request and of the one of its
machines, and which of the two are made. -/
structure Recorded.Told (id : Uuid) (request : Reading RequestRow)
    (machines : Reading (List InstanceRow)) (calls : List Call)
    (result : Except RequestError Recorded) : Prop where
  ok_iff (found : Recorded) :
    result = .ok found ↔
      request.Answers limit found.request ∧ machines.Lists limit found.instances
  missing_iff (what : Missing) :
    result = .error (.notFound what) ↔ what = .request id ∧ request.FindsNothing limit
  error_iff (error : RequestError) :
    result = .error error ↔
      (request.FindsNothing limit ∧ error = .notFound (.request id)) ∨
        (∃ e, request.Fails limit e ∧ error = .storage e) ∨
          (∃ row, request.Answers limit row) ∧ ∃ e, machines.Fails limit e ∧ error = .storage e
  calls_eq :
    ((∃ row, request.Answers limit row) ∧ calls = [.getRequest id, .listInstances id]) ∨
      ((∀ row, ¬ request.Answers limit row) ∧ calls = [.getRequest id])

end

section

variable {σ : Type} {conduct : Conduct σ} {limit : Duration} {store : σ} {calls : List Call}

theorem Dialogue.given_done {α β : Type} (value : Except RequestError α)
    (result : α → Except RequestError β) :
    (Dialogue.given value fun found => .done (result found)) = .done (value.bind result) := by
  cases value <;> rfl

/-- All that a listing can come to. -/
theorem listRequests_course {ended : Ended σ (Except RequestError Listing)}
    (course : listRequests.Course conduct limit store calls ended) :
    ∃ requests machines, conduct.ListsBoth limit store calls requests machines ∧
      ended.result = (emptyIfMissing (requests.within limit)).bind fun requests =>
        (emptyIfMissing (machines.within limit)).bind fun instances => .ok ⟨requests, instances⟩ := by
  simp only [listRequests, Dialogue.given_done] at course
  cases course with
  | inOrder first second rest =>
    subst first second
    cases rest
    exact ⟨_, _, .requestsFirst, by simp only [Conduct.answerWithin_result, Ended.delay]⟩
  | swapped first second rest =>
    subst first second
    cases rest
    exact ⟨_, _, .machinesFirst, by simp only [Conduct.answerWithin_result, Ended.delay]⟩

theorem bind_eq_ok_iff {ε α β : Type} {value : Except ε α} {next : α → Except ε β} {result : β} :
    value.bind next = .ok result ↔ ∃ found, value = .ok found ∧ next found = .ok result := by
  cases value <;> simp [Except.bind]

theorem bind_eq_error_iff {ε α β : Type} {value : Except ε α} {next : α → Except ε β} {e : ε} :
    value.bind next = .error e ↔
      value = .error e ∨ ∃ found, value = .ok found ∧ next found = .error e := by
  cases value <;> simp [Except.bind]

theorem Listing.told {requests : Reading (List RequestRow)} {machines : Reading (List InstanceRow)} :
    Listing.Told limit requests machines
      ((emptyIfMissing (requests.within limit)).bind fun requests =>
        (emptyIfMissing (machines.within limit)).bind fun instances =>
          .ok ⟨requests, instances⟩) where
  ok_iff listing := by
    cases listing
    simp [bind_eq_ok_iff, Reading.emptyIfMissing_eq_ok_iff]
  error_iff error := by
    simp [bind_eq_error_iff, Reading.emptyIfMissing_eq_ok_iff,
      Reading.emptyIfMissing_eq_error_iff]

theorem Conduct.ListsBoth.eq_of_undisturbed (undisturbed : conduct.Undisturbed limit store)
    {requests : Reading (List RequestRow)} {machines : Reading (List InstanceRow)}
    (lists : conduct.ListsBoth limit store calls requests machines) :
    requests = conduct.reading store .listRequests ∧
      machines = conduct.reading store .listAllInstances := by
  cases lists with
  | requestsFirst => exact ⟨rfl, undisturbed.machines⟩
  | machinesFirst => exact ⟨undisturbed.requests, rfl⟩

/-- All that reading one request back can come to. -/
theorem findRequest_course {id : Uuid} {ended : Ended σ (Except RequestError Recorded)}
    (course : (findRequest id).Course conduct limit store calls ended) :
    let request := conduct.reading store (.getRequest id)
    let left := (conduct.answerWithin limit store (.getRequest id)).store
    let machines := conduct.reading left (.listInstances id)
    (∃ row, request.Answers limit row ∧ calls = [.getRequest id, .listInstances id] ∧
        ended.result = (emptyIfMissing (machines.within limit)).bind
          fun instances => .ok ⟨row, instances⟩) ∨
      (request.FindsNothing limit ∧ calls = [.getRequest id] ∧
          ended.result = .error (.notFound (.request id))) ∨
        ∃ e, request.Fails limit e ∧ calls = [.getRequest id] ∧
          ended.result = .error (.storage e) := by
  intro request left machines
  simp only [findRequest, Dialogue.given_done] at course
  cases course with
  | call first rest =>
    subst first
    cases read : request.within limit with
    | ok row =>
      rw [conduct.answerWithin_result, read] at rest
      cases rest with
      | call second rest =>
        subst second
        cases rest
        refine .inl ⟨row, Reading.answers_iff.mpr read, rfl, ?_⟩
        simp only [Conduct.answerWithin_result, Ended.delay]
        rfl
    | error e =>
      rw [conduct.answerWithin_result, read] at rest
      cases e with
      | notFound =>
        cases rest
        exact .inr (.inl ⟨Reading.findsNothing_iff.mpr read, rfl, rfl⟩)
      | _ =>
        cases rest
        exact .inr (.inr ⟨_, Reading.fails_iff.mpr ⟨read, by simp⟩, rfl, rfl⟩)

theorem Recorded.told_of_course {id : Uuid} {ended : Ended σ (Except RequestError Recorded)}
    (course : (findRequest id).Course conduct limit store calls ended) :
    Recorded.Told limit id (conduct.reading store (.getRequest id))
      (conduct.reading (conduct.answerWithin limit store (.getRequest id)).store
        (.listInstances id)) calls ended.result := by
  rcases findRequest_course course with
    ⟨row, answers, rfl, told⟩ | ⟨nothing, rfl, told⟩ | ⟨e, fails, rfl, told⟩
  · have read := Reading.answers_iff.mp answers
    simp only [told]
    constructor
    · rintro ⟨request, instances⟩
      simp only [bind_eq_ok_iff, Reading.emptyIfMissing_eq_ok_iff, Reading.answers_iff, read,
        Except.ok.injEq, Recorded.mk.injEq, exists_eq_right_right]
      exact and_comm
    · intro what
      simp [bind_eq_error_iff, Reading.emptyIfMissing_eq_error_iff, Reading.findsNothing_iff, read]
    · intro error
      simp [bind_eq_error_iff, Reading.emptyIfMissing_eq_error_iff, Reading.answers_iff,
        Reading.findsNothing_iff, Reading.fails_iff, read]
    · exact .inl ⟨⟨row, answers⟩, rfl⟩
  · have read := Reading.findsNothing_iff.mp nothing
    simp only [told]
    constructor <;>
      simp [Reading.answers_iff, Reading.findsNothing_iff, Reading.fails_iff, read, eq_comm]
  · obtain ⟨read, other⟩ := Reading.fails_iff.mp fails
    simp only [told]
    constructor <;>
      simp [Reading.answers_iff, Reading.findsNothing_iff, Reading.fails_iff, read, other, eq_comm]

end

/-- A read uses up a stamp at most, which no other read can tell. -/
theorem Store.undisturbed (limit : Duration) (store : Store) :
    Store.conduct.Undisturbed limit store := by
  constructor
  all_goals
    rw [Store.conduct_answerWithin]
    simp only [Conduct.reading, Store.conduct, Store.answerWithin]
    cases Latency.within? _ limit with
    | none => rfl
    | some elapsed =>
      simp only [Store.answer]
      cases Gate.error _ with
      | some e => rfl
      | none =>
        cases backend : store.backend with
        | memory =>
          simp only [Store.admitCall, backend, Call.perform]
          cases Gate.error _ <;> rfl
        | closedPool => simp only [Store.admitCall, backend]

/-- Reading back from a store of any kind. Both reads of a listing are waited for, in whatever order
they are over, and only what they come to matters for what is told. -/
theorem Conduct.reads_settled {σ : Type} (conduct : Conduct σ) (limit : Duration) (store : σ)
    (id : Uuid) :
    ((∃ calls, listRequests.Course conduct limit store calls
        (listRequests.runOn conduct limit store)) ∧
      (∀ calls ended, listRequests.Course conduct limit store calls ended →
        ∃ requests machines, conduct.ListsBoth limit store calls requests machines ∧
          Listing.Told limit requests machines ended.result) ∧
      (conduct.Undisturbed limit store → ∀ calls ended otherCalls other,
        listRequests.Course conduct limit store calls ended →
          listRequests.Course conduct limit store otherCalls other →
            ended.result = other.result)) ∧
    ((∃ calls, (findRequest id).Course conduct limit store calls
        ((findRequest id).runOn conduct limit store)) ∧
      ∀ calls ended, (findRequest id).Course conduct limit store calls ended →
        Recorded.Told limit id (conduct.reading store (.getRequest id))
          (conduct.reading (conduct.answerWithin limit store (.getRequest id)).store
            (.listInstances id)) calls ended.result) := by
  refine ⟨⟨listRequests.exists_course conduct limit store, ?_, ?_⟩,
    (findRequest id).exists_course conduct limit store,
    fun calls ended course => Recorded.told_of_course course⟩
  · intro calls ended course
    obtain ⟨requests, machines, lists, result⟩ := listRequests_course course
    exact ⟨requests, machines, lists, result ▸ Listing.told⟩
  · intro undisturbed calls ended otherCalls other course otherCourse
    obtain ⟨requests, machines, lists, result⟩ := listRequests_course course
    obtain ⟨otherRequests, otherMachines, otherLists, otherResult⟩ :=
      listRequests_course otherCourse
    obtain ⟨rfl, rfl⟩ := lists.eq_of_undisturbed undisturbed
    obtain ⟨rfl, rfl⟩ := otherLists.eq_of_undisturbed undisturbed
    exact result.trans otherResult.symm

/-- Both reads of a listing fail, the one of the machines first. The request that is read back is
not there. -/
theorem Conduct.reads_settled_failing :
    let limit := Duration.ofSeconds 5
    let store : Store := {
      stamps := Stamp.numbered
      gates := fun
        | .listRequests => ⟨.after (.ofSeconds 2), some (.unavailable (.stated "requests"))⟩
        | .listAllInstances => ⟨.after (.ofSeconds 1), some (.unavailable (.stated "machines"))⟩
        | _ => {} }
    let id := (Stamp.numbered 0).id
    (∃ ended, listRequests.Course Store.conduct limit store [.listAllInstances, .listRequests] ended ∧
      ended.result = .error (.storage (.unavailable (.stated "requests")))) ∧
    (listRequests.runOn Store.conduct limit store).result =
      .error (.storage (.unavailable (.stated "requests"))) ∧
    ∀ calls ended, (findRequest id).Course Store.conduct limit store calls ended →
      ended.result = .error (.notFound (.request id)) ∧ calls = [.getRequest id] := by
  intro limit store id
  obtain ⟨⟨⟨inOrder, run⟩, listed, same⟩, -, found⟩ := Store.conduct.reads_settled limit store id
  have swapped : listRequests.Course Store.conduct limit store
      [.listAllInstances, .listRequests] _ := .swapped rfl rfl (.done _ _)
  obtain ⟨requests, machines, lists, told⟩ := listed _ _ swapped
  cases lists with
  | machinesFirst =>
    have refused := (told.error_iff (.storage (.unavailable (.stated "requests")))).mpr
      (.inl ⟨_, .told ⟨_, rfl, by decide⟩ rfl (by simp), rfl⟩)
    refine ⟨⟨_, swapped, refused⟩,
      (same (store.undisturbed limit) _ _ _ _ run swapped).trans refused, ?_⟩
    intro calls ended course
    have told := found calls ended course
    refine ⟨(told.missing_iff _).mpr ⟨rfl, ⟨_, rfl, by decide⟩, rfl⟩, ?_⟩
    rcases told.calls_eq with ⟨⟨row, -, read⟩, -⟩ | ⟨-, calls⟩
    · cases read
    · exact calls

end VmAdmission
