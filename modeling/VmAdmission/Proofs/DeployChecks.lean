import VmAdmission.Proofs.Joining
import VmAdmission.Proofs.StoredOrders

namespace VmAdmission

/-- The service gives this value within the limit. -/
def Behaviour.Gives {α : Type} (behaviour : Behaviour α) (limit : Duration) (value : α) : Prop :=
  behaviour.latency.InTime limit ∧ behaviour.reply = .answer value

theorem Behaviour.check_ok_iff {α : Type} {behaviour : Behaviour α} {service : Service}
    {limit : Duration} {value : α} :
    (behaviour.check service limit).result = .ok value ↔ behaviour.Gives limit value := by
  by_cases inTime : behaviour.latency.InTime limit
  · obtain ⟨elapsed, within⟩ := Latency.within?_of_inTime inTime
    simp only [check, within, Gives, inTime, true_and]
    cases behaviour.reply <;> simp
  · simp [check, Latency.within?_of_late inTime, Gives, inTime]

/-- The entry is the first of those of the list that are called this. -/
def IsFirst {α : Type} (called : α → String) (name : String) (entries : List α) (entry : α) :
    Prop :=
  ∃ before after, entries = before ++ entry :: after ∧ called entry = name ∧
    ∀ other ∈ before, called other ≠ name

theorem find?_eq_some_iff_isFirst {α : Type} {called : α → String} {name : String}
    {entries : List α} {entry : α} :
    entries.find? (fun other => called other == name) = some entry ↔
      IsFirst called name entries entry := by
  rw [List.find?_eq_some_iff_append, beq_iff_eq]
  constructor
  · rintro ⟨same, before, after, split, others⟩
    exact ⟨before, after, split, same, fun other listed => by simpa using others other listed⟩
  · rintro ⟨before, after, split, same, others⟩
    exact ⟨same, before, after, split, fun other listed => by simpa using others other listed⟩

theorem imageFile_ok_iff {id file : String} {images : List Image} :
    imageFile id images = .ok file ↔
      ∃ image, IsFirst Image.id id images image ∧ image.filename = file := by
  constructor
  · intro ok
    obtain ⟨image, first, same⟩ := imageFile_ok ok
    exact ⟨image, find?_eq_some_iff_isFirst.mp first, same⟩
  · rintro ⟨image, first, rfl⟩
    simp only [imageFile, find?_eq_some_iff_isFirst.mpr first]

theorem requireHealthy_ok_iff {kind : PlaceKind} {name : String} {places : List Place} :
    requireHealthy kind name places = .ok () ↔
      ∃ place, IsFirst Place.name name places place ∧ Ascii.alike place.status "OK" = true := by
  constructor
  · intro ok
    unfold requireHealthy at ok
    split at ok
    · rename_i place first
      split at ok
      · exact ⟨place, find?_eq_some_iff_isFirst.mp first, ‹_›⟩
      · cases ok
    · cases ok
  · rintro ⟨place, first, healthy⟩
    simp only [requireHealthy, find?_eq_some_iff_isFirst.mpr first, if_pos healthy]

namespace Check

variable {α β : Type}

theorem andThen_ok_iff {check : Check α} {next : α → Except RequestError β} {result : β} :
    (check.andThen next).result = .ok result ↔
      ∃ value, check.result = .ok value ∧ next value = .ok result := by
  refine ⟨ok_of_andThen, ?_⟩
  rintro ⟨value, passed, found⟩
  rw [andThen_ok passed, found]
  rfl

/-- One check, and another that is begun when it has passed. -/
def before (first : Check α) (second : Check Unit) : Check α :=
  match first.result with
  | .ok value => ⟨⟨first.elapsed.millis + second.elapsed.millis⟩, second.result.map fun _ => value⟩
  | .error halt => ⟨first.elapsed, .error halt⟩

theorem before_ok_iff {first : Check α} {second : Check Unit} {value : α} :
    (first.before second).result = .ok value ↔
      first.result = .ok value ∧ second.result = .ok () := by
  unfold before
  cases first.result with
  | error halt => simp
  | ok found => cases second.result <;> simp [Except.map]

/-- Why the check did not pass, if it did not. -/
def halt? (check : Check α) : Option Halt :=
  match check.result with
  | .ok _ => none
  | .error halt => some halt

theorem halt?_eq_some {check : Check α} {halt : Halt} :
    check.halt? = some halt ↔ check.result = .error halt := by
  unfold halt?
  cases check.result <;> simp

/-- The check as one that is awaited. -/
def awaited (check : Check α) (lookup : Lookup) : Awaited :=
  ⟨lookup, check.elapsed, check.halt?⟩

theorem failure?_awaited (check : Check α) (lookup : Lookup) :
    (check.awaited lookup).failure? = check.failure? := by
  unfold Awaited.failure? awaited failure? halt?
  cases check.result <;> rfl

theorem halt?_andThen (check : Check α) (f : α → β) :
    (check.andThen fun value => .ok (f value)).halt? = check.halt? := by
  unfold halt? andThen
  cases check.result <;> rfl

theorem failure?_eq_none {check : Check α} :
    check.failure? = none ↔ ∃ value, check.result = .ok value := by
  unfold failure?
  cases check.result <;> simp

theorem failedAtOnce_iff (check : Check α) (lookup : Lookup) :
    check.failedAtOnce = true ↔ (check.awaited lookup).FailsAtOnce := by
  unfold failedAtOnce failure? Awaited.FailsAtOnce awaited halt?
  obtain ⟨⟨elapsed⟩, result⟩ := check
  cases result <;> simp

end Check

namespace Services

/-- The deployment is to a host and a cluster that are well, each by the first entry of its name,
and from an image whose first entry has this file; and all services say so in time. -/
structure Admits (services : Services) (limit : Duration) (target : DeployTarget) (file : String) :
    Prop where
  image : ∃ images, services.images.Gives limit images ∧
    ∃ image, IsFirst Image.id target.imageId images image ∧ image.filename = file
  host : ∃ hosts, services.hosts.Gives limit hosts ∧
    ∃ host, IsFirst Place.name target.host hosts host ∧ Ascii.alike host.status "OK" = true
  cluster : ∃ clusters, services.clusters.Gives limit clusters ∧
    ∃ cluster, IsFirst Place.name target.cluster clusters cluster ∧
      Ascii.alike cluster.status "OK" = true

/-- The checks of a deployment, one after another. -/
def checkInTurn (services : Services) (limit : Duration) (target : DeployTarget) : Check String :=
  ((services.checkImage limit target.imageId).before (services.checkHost limit target.host)).before
    (services.checkCluster limit target.cluster)

/-- The checks of a deployment as they are awaited together. -/
def checks (services : Services) (limit : Duration) (target : DeployTarget) : List Awaited :=
  [(services.checkImage limit target.imageId).awaited .images,
    (services.checkHost limit target.host).awaited .hosts,
    (services.checkCluster limit target.cluster).awaited .clusters]

variable {services : Services} {limit : Duration} {target : DeployTarget} {file : String}

theorem checkInTurn_ok_iff :
    (services.checkInTurn limit target).result = .ok file ↔
      (services.checkImage limit target.imageId).result = .ok file ∧
        (services.checkHost limit target.host).result = .ok () ∧
        (services.checkCluster limit target.cluster).result = .ok () := by
  rw [checkInTurn, Check.before_ok_iff, Check.before_ok_iff, and_assoc]

/-- The checks one after another let through what is well. -/
theorem checkInTurn_ok_iff_admits :
    (services.checkInTurn limit target).result = .ok file ↔
      services.Admits limit target file := by
  simp only [checkInTurn_ok_iff, checkImage, checkHost, checkCluster, Check.andThen_ok_iff,
    Behaviour.check_ok_iff, imageFile_ok_iff, requireHealthy_ok_iff]
  exact ⟨fun ⟨image, host, cluster⟩ => ⟨image, host, cluster⟩,
    fun admits => ⟨admits.image, admits.host, admits.cluster⟩⟩

theorem failures_checks :
    (services.checks limit target).filterMap Awaited.failure? =
      [(services.checkImage limit target.imageId).failure?,
        (services.checkHost limit target.host).failure?,
        (services.checkCluster limit target.cluster).failure?].filterMap id := by
  have mapped : (services.checks limit target).map Awaited.failure? =
      [(services.checkImage limit target.imageId).failure?,
        (services.checkHost limit target.host).failure?,
        (services.checkCluster limit target.cluster).failure?] := by
    simp only [checks, List.map_cons, List.map_nil, Check.failure?_awaited]
  rw [← mapped, List.filterMap_map, Function.id_comp]

theorem checkTarget_lookups :
    (services.checkTarget limit target).lookups = begun (services.checks limit target) := by
  have lookups : (services.checkTarget limit target).lookups =
      if (services.checkImage limit target.imageId).failedAtOnce then [.images]
      else if (services.checkHost limit target.host).failedAtOnce then [.images, .hosts]
      else [.images, .hosts, .clusters] := by
    unfold checkTarget
    simp only
    split <;> rfl
  simp only [lookups, checks, begun, ← Check.failedAtOnce_iff, ite_self]
  split
  · rfl
  · split <;> rfl

/-- The last of the checks of a deployment is over after the longest of the times they take. -/
theorem lastEnd_checks : LastEnd (services.checks limit target) ⟨0⟩
    ⟨max (services.checkImage limit target.imageId).elapsed.millis
      (max (services.checkHost limit target.host).elapsed.millis
        (services.checkCluster limit target.cluster).elapsed.millis)⟩ := by
  unfold checks
  generalize services.checkImage limit target.imageId = image
  generalize services.checkHost limit target.host = host
  generalize services.checkCluster limit target.cluster = cluster
  refine ⟨Nat.zero_le _, fun awaited listed => ?_, .inr ?_⟩
  · simp only [List.mem_cons, List.not_mem_nil, or_false] at listed
    rcases listed with rfl | rfl | rfl
    · exact Nat.le_max_left _ _
    · exact Nat.le_trans (Nat.le_max_left _ _) (Nat.le_max_right _ _)
    · exact Nat.le_trans (Nat.le_max_right _ _) (Nat.le_max_right _ _)
  · rcases max_choice image.elapsed.millis (max host.elapsed.millis cluster.elapsed.millis) with
      longest | longest
    · exact ⟨_, List.mem_cons_self, congrArg Duration.mk longest.symm⟩
    rcases max_choice host.elapsed.millis cluster.elapsed.millis with other | other
    · exact ⟨_, List.mem_cons_of_mem _ List.mem_cons_self,
        congrArg Duration.mk (longest.trans other).symm⟩
    · exact ⟨_, List.mem_cons_of_mem _ (List.mem_cons_of_mem _ List.mem_cons_self),
        congrArg Duration.mk (longest.trans other).symm⟩

/-- The checks made at the same time come to what checks that are awaited together come to. -/
theorem checkTarget_comesTo :
    ComesTo (services.checks limit target) (services.checkTarget limit target).check.elapsed
      (services.checkTarget limit target).check.halt? := by
  unfold checkTarget
  simp only
  split
  · rename_i elapsed halt found
    exact ⟨failures_checks ▸ found, nofun⟩
  · rename_i found
    have faultless := List.filterMap_eq_nil_iff.mp (earliest?_eq_none found)
    obtain ⟨file, passed⟩ := Check.failure?_eq_none.mp (faultless _ List.mem_cons_self)
    refine ⟨?_, fun _ => lastEnd_checks⟩
    rw [failures_checks, found, Check.halt?, passed]
    rfl

theorem checkTarget_ok_iff :
    (services.checkTarget limit target).check.result = .ok file ↔
      (services.checkInTurn limit target).result = .ok file := by
  rw [checkInTurn_ok_iff]
  constructor
  · intro ok
    unfold checkTarget at ok
    simp only at ok
    split at ok
    · cases ok
    · rename_i found
      have faultless := List.filterMap_eq_nil_iff.mp (earliest?_eq_none found)
      obtain ⟨_, host⟩ := Check.failure?_eq_none.mp
        (faultless _ (List.mem_cons_of_mem _ List.mem_cons_self))
      obtain ⟨_, cluster⟩ := Check.failure?_eq_none.mp
        (faultless _ (List.mem_cons_of_mem _ (List.mem_cons_of_mem _ List.mem_cons_self)))
      exact ⟨ok, host, cluster⟩
  · rintro ⟨image, host, cluster⟩
    simp [checkTarget, Check.failure?, image, host, cluster, earliest?]

/-- The checks of a deployment made at the same time, compared with the same checks made one after
another. They let through the same deployments, with the same file; what is refused is refused by a
check that fails no later than any other. The lookups are begun in order, each unless a check before
it fails at once. All this is what comes of three checks that are awaited together, whenever and in
whatever order they are looked at, unless different ones fail at the same later time. -/
theorem validateDeploy_compared {config : ValidationConfig} (enabled : config.enabled = true)
    (services : Services) (target : DeployTarget) :
    let preflight := services.validateDeploy config target
    let inTurn := services.checkInTurn config.lookupTimeout target
    let checks := services.checks config.lookupTimeout target
    (∀ found, preflight.check.result = .ok found ↔
      ∃ file, found = some file ∧ inTurn.result = .ok file) ∧
    (∀ file, inTurn.result = .ok file ↔ services.Admits config.lookupTimeout target file) ∧
    (∀ halt, preflight.check.result = .error halt →
      ∃ check ∈ checks, check.failure = some halt ∧ check.ends = preflight.check.elapsed ∧
        ∀ other ∈ checks, other.failure ≠ none → check.ends ≤ other.ends) ∧
    (preflight.lookups <+: [.images, .hosts, .clusters] ∧
      ∀ before check after, checks = before ++ check :: after →
        (check.lookup ∈ preflight.lookups ↔ ∀ earlier ∈ before, ¬ earlier.FailsAtOnce)) ∧
    preflight.lookups = begun checks ∧
    Joined checks preflight.check.elapsed preflight.check.halt? ∧
    (NoLaterTies checks → ∀ ended outcome, Joined checks ended outcome →
      ended = preflight.check.elapsed ∧ outcome = preflight.check.halt?) := by
  intro preflight inTurn checks
  have validated : preflight = ⟨(services.checkTarget config.lookupTimeout target).lookups,
      (services.checkTarget config.lookupTimeout target).check.andThen fun file =>
        .ok (some file)⟩ := if_pos enabled
  have lookups : preflight.lookups = begun checks :=
    (congrArg Preflight.lookups validated).trans checkTarget_lookups
  have comes : ComesTo checks preflight.check.elapsed preflight.check.halt? := by
    rw [validated, Check.halt?_andThen]
    exact checkTarget_comesTo
  refine ⟨fun found => ?_, fun file => checkInTurn_ok_iff_admits, fun halt refused => ?_,
    ⟨lookups ▸ begun_prefix checks, fun before check after split => ?_⟩, lookups, comes.joined,
    fun alone ended outcome run => (run.comesTo alone).unique comes⟩
  · rw [validated, Check.andThen_ok_iff]
    constructor
    · rintro ⟨file, ok, ⟨⟩⟩
      exact ⟨file, rfl, checkTarget_ok_iff.mp ok⟩
    · rintro ⟨file, rfl, ok⟩
      exact ⟨file, checkTarget_ok_iff.mpr ok, rfl⟩
  · rw [Check.halt?_eq_some.mpr refused] at comes
    exact comes.first
  · have distinct : (checks.map Awaited.lookup).Nodup := by
      show [Lookup.images, .hosts, .clusters].Nodup
      decide
    rw [split] at distinct
    rw [lookups, split]
    exact mem_begun distinct

/-- The first entries of an image, a host and a cluster with entries of the same name after them,
the last one at the last moment; then a host that is reported not to be known while nothing is heard
of the image. -/
theorem validateDeploy_compared_last_moment :
    let config : ValidationConfig := { enabled := true, lookupTimeout := ⟨50⟩ }
    let target : DeployTarget := ⟨"img-1", "esx-01", "prod"⟩
    let services : Services := {
      images := ⟨.after ⟨10⟩, .answer
        [⟨"img-1", "first.qcow2", none⟩, ⟨"img-1", "second.qcow2", none⟩]⟩
      hosts := ⟨.after ⟨20⟩, .answer [⟨"esx-01", "Ok"⟩, ⟨"esx-01", "DOWN"⟩]⟩
      clusters := ⟨.after ⟨50⟩, .answer [⟨"lab", "DEGRADED"⟩, ⟨"prod", "OK"⟩]⟩
      vm := fun _ => ⟨.never, .crash⟩ }
    let silent := { services with images := ⟨.never, .crash⟩, hosts := ⟨.after ⟨20⟩, .answer []⟩ }
    (services.validateDeploy config target).check.result = .ok (some "first.qcow2") ∧
      ∀ ended outcome, Joined (silent.checks config.lookupTimeout target) ended outcome →
        ended = ⟨20⟩ ∧
          outcome = some (.refused (.validationFailed (.unknownPlace .host "esx-01"))) := by
  intro config target services silent
  have image : ∃ images, services.images.Gives config.lookupTimeout images ∧
      ∃ image, IsFirst Image.id "img-1" images image ∧ image.filename = "first.qcow2" :=
    ⟨_, ⟨⟨_, rfl, by decide⟩, rfl⟩, _, ⟨[], _, rfl, rfl, nofun⟩, rfl⟩
  have host : ∃ hosts, services.hosts.Gives config.lookupTimeout hosts ∧
      ∃ host, IsFirst Place.name "esx-01" hosts host ∧ Ascii.alike host.status "OK" = true :=
    ⟨_, ⟨⟨_, rfl, by decide⟩, rfl⟩, _, ⟨[], _, rfl, rfl, nofun⟩, by decide⟩
  have cluster : ∃ clusters, services.clusters.Gives config.lookupTimeout clusters ∧
      ∃ cluster, IsFirst Place.name "prod" clusters cluster ∧
        Ascii.alike cluster.status "OK" = true :=
    ⟨_, ⟨⟨_, rfl, by decide⟩, rfl⟩, _, ⟨[⟨"lab", "DEGRADED"⟩], _, rfl, rfl, by simp⟩, by decide⟩
  have admits : services.Admits config.lookupTimeout target "first.qcow2" := ⟨image, host, cluster⟩
  have enabled : config.enabled = true := rfl
  have alone : NoLaterTies (silent.checks config.lookupTimeout target) := by
    have checks : silent.checks config.lookupTimeout target =
        [⟨.images, ⟨50⟩, some (.refused (.dependencyUnavailable (.noAnswer .imageManager ⟨50⟩)))⟩,
          ⟨.hosts, ⟨20⟩, some (.refused (.validationFailed (.unknownPlace .host "esx-01")))⟩,
          ⟨.clusters, ⟨50⟩, none⟩] := rfl
    rw [checks]
    simp [NoLaterTies]
  obtain ⟨passes, inTurn, -⟩ := validateDeploy_compared enabled services target
  obtain ⟨-, -, -, -, -, -, only⟩ := validateDeploy_compared enabled silent target
  exact ⟨(passes _).mpr ⟨_, rfl, (inTurn _).mpr admits⟩, only alone⟩

end Services

end VmAdmission
