import VmAdmission.Inventory
import VmAdmission.Proofs.Json.Members

namespace VmAdmission.VmMetrics

open Json (Canonical)

/-- The names of the members that are not passed through. -/
def fieldNames : List String := ["vmId", "powerState", "powerstate"]

/-- The members of an object that have the name of the id. -/
def idMembers (members : List (Member Canonical)) : List (Member Canonical) :=
  members.filter (·.1 = "vmId")

/-- The members of an object that have a name of the power state. -/
def powerMembers (members : List (Member Canonical)) : List (Member Canonical) :=
  members.filter fun m => m.1 = "powerState" ∨ m.1 = "powerstate"

/-- The members of an object that are passed through. -/
def otherMembers (members : List (Member Canonical)) : List (Member Canonical) :=
  members.filter (·.1 ∉ fieldNames)

/-- What the members with the name of the id say: there is none, as there is if it is `null`, or it
is a string. -/
inductive TellsId : List (Member Canonical) → Option String → Prop
  | absent : TellsId [] none
  | null : TellsId [("vmId", .null)] none
  | told (id : String) : TellsId [("vmId", .string id)] (some id)

/-- What the members with the names of the power state say: it is a string, told once. -/
inductive TellsPower : List (Member Canonical) → String → Prop
  | told (state : String) : TellsPower [("powerState", .string state)] state
  | toldAsBefore (state : String) : TellsPower [("powerstate", .string state)] state

/-- The metrics are what the members of an object tell. -/
structure ToldBy (metrics : VmMetrics) (members : List (Member Canonical)) : Prop where
  vmId : TellsId (idMembers members) metrics.vmId
  powerState : TellsPower (powerMembers members) metrics.powerState
  /-- Of the members with one key the last is kept. -/
  extra (key : String) :
    metrics.extra.get? key = if key ∈ fieldNames then none else members.reverse.lookup key

namespace Draft

/-- What a member does to the draft. -/
def take (draft : Draft) (member : Member Canonical) : Option Draft :=
  if member.1 = "vmId" then
    (Json.once (·.orNull Canonical.string?) draft.vmId member).map fun vmId => { draft with vmId }
  else if member.1 = "powerState" ∨ member.1 = "powerstate" then
    (Json.once Canonical.string? draft.powerState member).map fun powerState =>
      { draft with powerState }
  else some { draft with extra := member :: draft.extra }

end Draft

theorem takes : Json.Takes shape Draft.take := by
  intro budget key draft cur draft' after
  by_cases id : key = "vmId"
  · have known : shape.fields.find? (·.isNamed key) = some {
        Json.Decoder.Field.of "vmId" false (·.vmId) (fun d x => { d with vmId := some x })
          (.option .string) with otherName := none } := by rw [id]; rfl
    rw [Json.memberValue_field_iff _ _ known (Json.readsBy_option Json.readsBy_string)]
    cases held : draft.vmId <;> simp [Draft.take, Json.once, id, held]
  by_cases power : key = "powerState" ∨ key = "powerstate"
  · have known : shape.fields.find? (·.isNamed key) = some {
        Json.Decoder.Field.of "powerState" true (·.powerState)
          (fun d x => { d with powerState := some x }) .string with
        otherName := some "powerstate" } := by rcases power with rfl | rfl <;> rfl
    rw [Json.memberValue_field_iff _ _ known Json.readsBy_string]
    cases held : draft.powerState <;> simp [Draft.take, Json.once, id, power, held]
  · have unknown : shape.fields.find? (·.isNamed key) = none := by
      obtain ⟨named, older⟩ := not_or.mp power
      simp [shape, Json.Decoder.Field.of, Json.Decoder.Field.isNamed, Ne.symm id, Ne.symm named,
        Ne.symm older]
    have passed : shape.other = extraMember := rfl
    simp only [Json.Decoder.memberValue, unknown, passed, extraMember, Draft.take, id, power,
      if_false]
    constructor
    · rintro ⟨change, changed, rfl⟩
      obtain ⟨behind, colon, changed⟩ := bind_ok changed
      obtain ⟨⟨c, _⟩, tree, same⟩ := bind_ok changed
      cases same
      exact ⟨behind, c, colon, tree, rfl⟩
    · rintro ⟨behind, c, colon, tree, ⟨⟩⟩
      refine ⟨fun d => { d with extra := (key, c) :: d.extra }, ?_, rfl⟩
      simp only [colon, tree, bind, Except.bind]
      rfl

theorem Draft.ext {a b : Draft} (vmId : a.vmId = b.vmId) (powerState : a.powerState = b.powerState)
    (extra : a.extra = b.extra) : a = b := by
  cases a
  cases b
  simp_all

/-- The members of each kind do what they do without regard to the others. -/
theorem foldlM_take_iff {members : List (Member Canonical)} {draft final : Draft} :
    members.foldlM Draft.take draft = some final ↔
      (idMembers members).foldlM (Json.once (·.orNull Canonical.string?)) draft.vmId =
          some final.vmId ∧
        (powerMembers members).foldlM (Json.once Canonical.string?) draft.powerState =
          some final.powerState ∧
        final.extra = (otherMembers members).reverse ++ draft.extra := by
  induction members generalizing draft with
  | nil =>
    constructor
    · rintro ⟨⟩
      exact ⟨rfl, rfl, rfl⟩
    · rintro ⟨vmId, powerState, extra⟩
      exact congrArg some (Draft.ext (Option.some.inj vmId) (Option.some.inj powerState) extra.symm)
  | cons member members ih =>
    rw [List.foldlM_cons, idMembers, powerMembers, otherMembers]
    by_cases id : member.1 = "vmId"
    · have other : ¬ (member.1 = "powerState" ∨ member.1 = "powerstate") := by simp [id]
      have field : member.1 ∈ fieldNames := by simp [fieldNames, id]
      have taken : draft.take member = _ := if_pos id
      rw [taken, List.filter_cons_of_pos (by simpa using id),
        List.filter_cons_of_neg (by simpa using other),
        List.filter_cons_of_neg (by simpa using field), List.foldlM_cons]
      cases Json.once _ draft.vmId member with
      | none => simp
      | some held => exact ih
    by_cases power : member.1 = "powerState" ∨ member.1 = "powerstate"
    · have field : member.1 ∈ fieldNames := by simp [fieldNames, power]
      have taken : draft.take member = _ := (if_neg id).trans (if_pos power)
      rw [taken, List.filter_cons_of_neg (by simpa using id),
        List.filter_cons_of_pos (by simpa using power),
        List.filter_cons_of_neg (by simpa using field), List.foldlM_cons]
      cases Json.once _ draft.powerState member with
      | none => simp
      | some held => exact ih
    · have free : member.1 ∉ fieldNames := by simp [fieldNames, id, not_or.mp power]
      have taken : draft.take member = _ := (if_neg id).trans (if_neg power)
      rw [taken, List.filter_cons_of_neg (by simpa using id),
        List.filter_cons_of_neg (by simpa using power),
        List.filter_cons_of_pos (by simpa using free), List.reverse_cons, List.append_assoc]
      exact ih

theorem build_iff {draft : Draft} {metrics : VmMetrics} :
    shape.build draft = .ok metrics ↔
      metrics.vmId = draft.vmId.join ∧ draft.powerState = some metrics.powerState ∧
        metrics.extra = .ofList draft.extra.reverse := by
  obtain ⟨vmId, powerState, extra⟩ := metrics
  cases held : draft.powerState with
  | none => simp [shape, held, throw, throwThe, MonadExceptOf.throw]
  | some state =>
    have built : shape.build draft = .ok ⟨draft.vmId.join, state, .ofList draft.extra.reverse⟩ := by
      simp only [shape, held]
      rfl
    rw [built]
    simp [eq_comm]

theorem tellsId_iff {members : List (Member Canonical)} (named : ∀ m ∈ members, m.1 = "vmId")
    {vmId : Option String} :
    TellsId members vmId ↔ ∃ held,
      members.foldlM (Json.once (·.orNull Canonical.string?)) none = some held ∧
        vmId = held.join := by
  simp only [Json.foldlM_once_iff]
  constructor
  · rintro (_ | _ | ⟨id⟩)
    · exact ⟨none, .inl ⟨rfl, rfl⟩, rfl⟩
    · exact ⟨some none, .inr ⟨_, _, _, rfl, rfl, rfl⟩, rfl⟩
    · exact ⟨some (some id), .inr ⟨_, _, _, rfl, rfl, rfl⟩, rfl⟩
  · rintro ⟨held, ⟨rfl, rfl⟩ | ⟨key, c, x, rfl, means, rfl⟩, rfl⟩
    · exact .absent
    · obtain rfl : key = "vmId" := named _ (List.mem_singleton.mpr rfl)
      rcases (Canonical.orNull_eq_some_iff rfl).mp means with ⟨rfl, rfl⟩ | ⟨id, told, rfl⟩
      · exact .null
      · obtain rfl := Canonical.string?_eq_some_iff.mp told
        exact .told id

theorem tellsPower_iff {members : List (Member Canonical)}
    (named : ∀ m ∈ members, m.1 = "powerState" ∨ m.1 = "powerstate") {state : String} :
    TellsPower members state ↔ members.foldlM (Json.once Canonical.string?) none =
      some (some state) := by
  simp only [Json.foldlM_once_iff]
  constructor
  · rintro (_ | _)
    · exact .inr ⟨_, _, _, rfl, rfl, rfl⟩
    · exact .inr ⟨_, _, _, rfl, rfl, rfl⟩
  · rintro (⟨-, ⟨⟩⟩ | ⟨key, c, x, rfl, means, ⟨⟩⟩)
    obtain rfl := Canonical.string?_eq_some_iff.mp means
    rcases named _ (List.mem_singleton.mpr rfl) with rfl | rfl
    · exact .told state
    · exact .toldAsBefore state

theorem get?_otherMembers (members : List (Member Canonical)) (key : String) :
    (Members.ofList (otherMembers members)).get? key =
      if key ∈ fieldNames then none else members.reverse.lookup key := by
  rw [Members.get?_ofList, otherMembers, ← List.filter_reverse, lookup_filter (· ∉ fieldNames), ite_not]

theorem toldBy_iff {metrics : VmMetrics} {members : List (Member Canonical)} :
    metrics.ToldBy members ↔
      ∃ final, members.foldlM Draft.take shape.empty = some final ∧
        shape.build final = .ok metrics := by
  have ids : ∀ m ∈ idMembers members, m.1 = "vmId" := by simp [idMembers]
  have powers : ∀ m ∈ powerMembers members, m.1 = "powerState" ∨ m.1 = "powerstate" := by
    simp [powerMembers]
  simp only [foldlM_take_iff, build_iff]
  constructor
  · intro told
    obtain ⟨held, heldId, same⟩ := (tellsId_iff ids).mp told.vmId
    have heldPower := (tellsPower_iff powers).mp told.powerState
    refine ⟨⟨held, some metrics.powerState, (otherMembers members).reverse⟩,
      ⟨heldId, heldPower, (List.append_nil _).symm⟩, same, rfl, ?_⟩
    refine Members.eq_of_get? fun key => ?_
    rw [List.reverse_reverse, get?_otherMembers, told.extra]
  · rintro ⟨final, ⟨heldId, heldPower, passed⟩, same, power, extra⟩
    rw [power] at heldPower
    refine ⟨(tellsId_iff ids).mpr ⟨_, heldId, same⟩, (tellsPower_iff powers).mpr heldPower, ?_⟩
    intro key
    have all : final.extra.reverse = otherMembers members := by
      rw [passed]
      simp [shape]
    rw [extra, all, get?_otherMembers]

/-- The members of an object tell the power state, and nothing else of the id than that. -/
def Tells (members : List (Member Canonical)) (state : String) : Prop :=
  (∃ vmId, TellsId (idMembers members) vmId) ∧ TellsPower (powerMembers members) state

/-- Nothing else is asked of the members of an object that metrics are read from. -/
theorem tells_iff {members : List (Member Canonical)} {state : String} :
    Tells members state ↔
      ∃ metrics : VmMetrics, metrics.ToldBy members ∧ metrics.powerState = state := by
  constructor
  · rintro ⟨⟨vmId, id⟩, power⟩
    exact ⟨⟨vmId, state, .ofList (otherMembers members)⟩, ⟨id, power, get?_otherMembers members⟩, rfl⟩
  · rintro ⟨metrics, told, rfl⟩
    exact ⟨⟨_, told.vmId⟩, told.powerState⟩

/-- Metrics are read from the objects whose members tell them, and from nothing else. -/
theorem decode_iff {source : List Symbol} {metrics : VmMetrics} :
    Json.decode decoder source = .ok metrics ↔
      ∃ members, Json.decode Json.memberList source = .ok members ∧ metrics.ToldBy members := by
  simp only [toldBy_iff]
  exact Json.decode_record_iff takes rfl

/-- The members that metrics are written with, of which only the last ones are passed through. -/
def members (metrics : VmMetrics) : List (Member Canonical) :=
  ("vmId", (metrics.vmId.map .string).getD .null) ::
    ("powerState", .string metrics.powerState) :: metrics.extra.entries

/-- No member that is passed through has the name of one that is not. -/
def Unclaimed (metrics : VmMetrics) : Prop :=
  ∀ key ∈ fieldNames, metrics.extra.get? key = none

/-- All numbers that are passed through are integers. -/
def IsIntegral (metrics : VmMetrics) : Prop :=
  ∀ entry ∈ metrics.extra.entries, entry.2.json.IsIntegral

/-- The values that are passed through may be read inside another object. -/
def Fits (metrics : VmMetrics) : Prop :=
  ∀ entry ∈ metrics.extra.entries, entry.2.json.depth < Json.maxLevels

section

variable {metrics : VmMetrics} {order : List (Member Canonical)}

theorem Unclaimed.not_mem (unclaimed : metrics.Unclaimed) {key : String} (field : key ∈ fieldNames)
    (c : Canonical) : (key, c) ∉ metrics.extra.entries := by
  intro inside
  have held := Members.get?_eq_some_iff.mpr inside
  rw [unclaimed key field] at held
  cases held

theorem Unclaimed.members_nodup (unclaimed : metrics.Unclaimed) :
    (metrics.members.map (·.1)).Nodup := by
  have free {key : String} (field : key ∈ fieldNames) :
      key ∉ metrics.extra.entries.map (·.1) := by
    simp only [List.mem_map, not_exists, not_and]
    rintro ⟨_, c⟩ inside rfl
    exact unclaimed.not_mem field c inside
  refine List.nodup_cons.mpr ⟨?_, List.nodup_cons.mpr ⟨?_, metrics.extra.keys_nodup⟩⟩
  · simpa using free (show "vmId" ∈ fieldNames by decide)
  · exact free (show "powerState" ∈ fieldNames by decide)

theorem Unclaimed.filter_entries (unclaimed : metrics.Unclaimed) {p : String → Prop}
    [DecidablePred p] (fields : ∀ key, p key → key ∈ fieldNames) :
    (metrics.extra.entries.filter fun m => p m.1) = [] := by
  refine List.filter_eq_nil_iff.mpr fun (key, c) inside holds => ?_
  exact unclaimed.not_mem (fields key (of_decide_eq_true holds)) c inside

/-- The order in which the members are written does not matter. -/
theorem Unclaimed.toldBy (unclaimed : metrics.Unclaimed) (perm : order.Perm metrics.members) :
    metrics.ToldBy order where
  vmId := by
    have others := unclaimed.filter_entries (p := (· = "vmId")) (by simp [fieldNames])
    have only : idMembers order = [("vmId", (metrics.vmId.map .string).getD .null)] := by
      refine List.perm_singleton.mp ((perm.filter _).trans (.of_eq ?_))
      simp [members, others]
    rw [only]
    cases metrics.vmId with
    | none => exact .null
    | some id => exact .told id
  powerState := by
    have others := unclaimed.filter_entries (p := fun key => key = "powerState" ∨ key = "powerstate")
      (by simp [fieldNames])
    have only : powerMembers order = [("powerState", .string metrics.powerState)] := by
      refine List.perm_singleton.mp ((perm.filter _).trans (.of_eq ?_))
      simp only [members, List.filter_cons, others]
      simp
    rw [only]
    exact .told _
  extra key := by
    have listed : order.reverse.lookup key = metrics.members.lookup key :=
      (lookup_perm (perm.symm.trans (List.reverse_perm order).symm) unclaimed.members_nodup).symm
    rw [listed]
    split
    · exact unclaimed key ‹_›
    · rename_i free
      have notId : key ≠ "vmId" := fun same => free (by simp [same, fieldNames])
      have notPower : key ≠ "powerState" := fun same => free (by simp [same, fieldNames])
      rw [members, lookup_member, lookup_member, if_neg notId, if_neg notPower]
      rfl

theorem forall_members {P : Json → Prop} (null : P .null) (string : ∀ s, P (.string s))
    (passed : ∀ entry ∈ metrics.extra.entries, P entry.2.json) :
    ∀ m ∈ metrics.members, P m.2.json := by
  intro m inside
  rcases List.mem_cons.mp inside with rfl | inside
  · cases metrics.vmId with
    | none => exact null
    | some id => exact string id
  rcases List.mem_cons.mp inside with rfl | inside
  · exact string _
  · exact passed m inside

/-- Metrics are read back from what is written of them, whatever the order. -/
theorem decode_written (unclaimed : metrics.Unclaimed) (integral : metrics.IsIntegral)
    (fits : metrics.Fits) (perm : order.Perm metrics.members) :
    Json.decodeString decoder (Json.written order).text = .ok metrics := by
  have integers := forall_members .null .string integral
  have shallow := forall_members (P := fun j => j.depth < Json.maxLevels) (Nat.zero_lt_succ _)
    (fun _ => Nat.zero_lt_succ _) fits
  exact decode_iff.mpr ⟨order, Json.decode_written
    (fun m inside => integers m (perm.mem_iff.mp inside))
    (fun m inside => shallow m (perm.mem_iff.mp inside)), unclaimed.toldBy perm⟩

/-- Also the tree, whose members are sorted, is written with the members of the metrics. -/
theorem Unclaimed.json_eq (unclaimed : metrics.Unclaimed) :
    ∃ order : List (Member Canonical), order.Perm metrics.members ∧
      metrics.json = Json.written order :=
  ⟨settle metrics.members, settle_perm unclaimed.members_nodup, rfl⟩

theorem ToldBy.unclaimed (told : metrics.ToldBy order) : metrics.Unclaimed := by
  intro key field
  rw [told.extra, if_pos field]

/-- What is passed through was one of the members. -/
theorem ToldBy.mem (told : metrics.ToldBy order) {entry : Member Canonical}
    (passed : entry ∈ metrics.extra.entries) : entry ∈ order := by
  obtain ⟨key, c⟩ := entry
  have held := Members.get?_eq_some_iff.mpr passed
  rw [told.extra] at held
  split at held
  · cases held
  · obtain ⟨before, after, split, -⟩ := List.lookup_eq_some_iff.mp held
    exact List.mem_reverse.mp (split ▸ by simp)

theorem fits_of_decode {source : List Symbol}
    (decoded : Json.decode decoder source = .ok metrics) : metrics.Fits := by
  obtain ⟨order, listed, told⟩ := decode_iff.mp decoded
  exact fun entry passed => Json.decode_memberList_depth listed entry (told.mem passed)

end

end VmAdmission.VmMetrics
