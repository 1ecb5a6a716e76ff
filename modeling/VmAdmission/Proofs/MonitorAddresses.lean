import Mathlib
import VmAdmission.Monitor
import VmAdmission.Proofs.Deployments
import VmAdmission.Proofs.Net.Url

namespace VmAdmission

open Http.Route (IsSegment)
open UrlPath (front unbroken withoutFinalEmpty)

/-- What is added to the path of a service when the state of a machine is asked for. -/
inductive MetricsPath (vmId : String) : List String → Prop
  | whole {segment : String} (one : unbroken vmId ≠ ".") (two : unbroken vmId ≠ "..")
      (inside : IsSegment segment)
      (decoded : Utf8.decode? (Percent.decode (Utf8.encode segment)) = some (unbroken vmId)) :
      MetricsPath vmId ["v1", "vms", segment, "metrics"]
  | oneDot (dot : unbroken vmId = ".") : MetricsPath vmId ["v1", "vms", "", "metrics"]
  | twoDots (dots : unbroken vmId = "..") : MetricsPath vmId ["v1", "", "metrics"]

/-- A word that needs no encoding is added as it is. -/
theorem UrlPath.addSegment_word (segments : List String) : ∀ word ∈ ["v1", "vms", "metrics"],
    UrlPath.addSegment true segments word = UrlPath.stem segments ++ [word] := by
  have plain : ∀ word ∈ ["v1", "vms", "metrics"], unbroken word = word ∧
      word ≠ "." ∧ word ≠ ".." ∧ Percent.encode (Percent.segment true) word = word := by
    intro word listed
    simp only [List.mem_cons, List.not_mem_nil, or_false] at listed
    rcases listed with rfl | rfl | rfl
    · cbv
    · cbv
    · cbv
  intro word listed
  obtain ⟨kept, one, two, same⟩ := plain word listed
  rw [UrlPath.addSegment_eq, kept, if_neg one, if_neg two, same]

/-- The id is added after the path of its kind, and before what is asked for. -/
theorem UrlPath.addSegments_metrics (segments : List String) (vmId : String) :
    ∃ added, MetricsPath vmId added ∧
      UrlPath.addSegments true segments ["v1", "vms", vmId, "metrics"] =
        UrlPath.stem segments ++ added := by
  have stays (added : List String) :
      UrlPath.stem (UrlPath.stem segments ++ "v1" :: added) =
        UrlPath.stem segments ++ "v1" :: added :=
    @UrlPath.stem_of_mem _ "v1" (by simp) (by decide)
  have kind : UrlPath.addSegment true (UrlPath.addSegment true segments "v1") "vms" =
      UrlPath.stem segments ++ ["v1", "vms"] := by
    rw [addSegment_word _ "vms" (by simp), addSegment_word _ "v1" (by simp), stays [],
      List.append_assoc, List.singleton_append]
  have asked (added : List String) :
      UrlPath.addSegment true (UrlPath.stem segments ++ "v1" :: added) "metrics" =
        UrlPath.stem segments ++ "v1" :: (added ++ ["metrics"]) := by
    rw [addSegment_word _ "metrics" (by simp), stays, List.append_assoc, List.cons_append]
  have all : UrlPath.addSegments true segments ["v1", "vms", vmId, "metrics"] =
      UrlPath.addSegment true (UrlPath.addSegment true (UrlPath.stem segments ++ ["v1", "vms"])
        vmId) "metrics" := by
    rw [← kind]
    rfl
  rw [all, UrlPath.addSegment_eq true _ vmId, stays]
  split
  · rename_i dot
    refine ⟨_, .oneDot dot, ?_⟩
    rw [List.append_assoc]
    exact asked ["vms", ""]
  split
  · rename_i dots
    refine ⟨_, .twoDots dots, ?_⟩
    rw [List.dropLast_append_of_ne_nil (List.cons_ne_nil _ _), List.append_assoc]
    exact asked [""]
  · rename_i one two
    have spelled := Percent.spells_encode (Percent.segment_of_reserved true) (unbroken vmId)
    have inside : IsSegment (Percent.encode (Percent.segment true) (unbroken vmId)) :=
      ⟨spelled.inside (by decide), spelled.inside (by decide), spelled.inside (by decide)⟩
    have decoded : Utf8.decode? (Percent.decode (Utf8.encode
        (Percent.encode (Percent.segment true) (unbroken vmId)))) = some (unbroken vmId) := by
      rw [Utf8.encode_eq, spelled.decode, Utf8.decode?_encode]
    refine ⟨_, .whole one two inside decoded, ?_⟩
    rw [List.append_assoc]
    exact asked ["vms", _]

/-- The path asks for the state of the machine at the service of the base: after the path of the
base, without a final empty segment, the id of the machine is one segment and is decoded to it. -/
def Url.LooksUp (url base : Url) (vmId : String) : Prop :=
  ∃ segments segment, base.path = .segments segments ∧
    url.path = .segments (withoutFinalEmpty segments ++ ["v1", "vms", segment, "metrics"]) ∧
    IsSegment segment ∧ Utf8.decode? (Percent.decode (Utf8.encode segment)) = some vmId

/-- The address is at the service of the base and below its path, without a final empty segment. -/
structure Url.StaysBelow (url base : Url) : Prop where
  scheme : url.scheme = base.scheme
  host : url.host = base.host
  port : url.port = base.port
  query : url.query = base.query
  path : ∃ segments middle, base.path = .segments segments ∧
    url.path = .segments (withoutFinalEmpty segments ++ "v1" :: (middle ++ ["metrics"]))

/-- Of the path of two slashes nothing stays, where one segment should. -/
theorem UrlPath.front_apart (added more : List String) :
    front ["", ""] ++ "v1" :: added ≠ withoutFinalEmpty ["", ""] ++ "v1" :: more := by
  have none : front ["", ""] = [] := rfl
  have one : withoutFinalEmpty ["", ""] = [""] := rfl
  rw [none, one]
  intro same
  exact absurd (List.cons.inj same).1 (by decide)

theorem MetricsPath.form {vmId : String} {added : List String} (shape : MetricsPath vmId added) :
    ∃ middle, added = "v1" :: (middle ++ ["metrics"]) ∧
      (middle = [""] ∨ ∃ segment, middle = ["vms", segment]) := by
  cases shape with
  | whole => exact ⟨["vms", _], rfl, .inr ⟨_, rfl⟩⟩
  | oneDot => exact ⟨["vms", ""], rfl, .inr ⟨_, rfl⟩⟩
  | twoDots => exact ⟨[""], rfl, .inl rfl⟩

theorem MetricsPath.segments {vmId : String} {added : List String}
    (shape : MetricsPath vmId added) : ∀ s ∈ added, IsSegment s := by
  have plain : ∀ word ∈ ["v1", "vms", "metrics"],
      '/' ∉ word.toList ∧ '?' ∉ word.toList ∧ '#' ∉ word.toList := by decide
  have words (word : String) (listed : word ∈ ["v1", "vms", "metrics"]) : IsSegment word := by
    obtain ⟨slash, query, fragment⟩ := plain word listed
    exact ⟨slash, query, fragment⟩
  have v1 := words "v1" (by simp)
  have vms := words "vms" (by simp)
  have metrics := words "metrics" (by simp)
  cases shape with
  | whole one two inside decoded => simp [v1, vms, metrics, inside]
  | oneDot dot => simp [v1, vms, metrics, isSegment_empty]
  | twoDots dots => simp [v1, metrics, isSegment_empty]

section

variable {base url : Url} {vmId : String} {segments added : List String}

/-- The segments that are added come after those of the base exactly if these are not two empty
ones. -/
theorem MetricsPath.front_append_iff (shape : MetricsPath vmId added) {wanted : List String}
    (starts : ∃ more, wanted = "v1" :: more) :
    front segments ++ added = withoutFinalEmpty segments ++ wanted ↔
      added = wanted ∧ segments ≠ ["", ""] := by
  obtain ⟨more, rfl⟩ := starts
  constructor
  · intro same
    have other : segments ≠ ["", ""] := by
      rintro rfl
      obtain ⟨middle, rfl, -⟩ := shape.form
      exact UrlPath.front_apart _ _ same
    rw [UrlPath.front_eq other] at same
    exact ⟨List.append_cancel_left same, other⟩
  · rintro ⟨rfl, other⟩
    rw [UrlPath.front_eq other]

theorem Url.looksUp_iff (path : base.path = .segments segments)
    (form : url.path = .segments (front segments ++ added)) (shape : MetricsPath vmId added)
    (named : vmId ∉ MonitorClient.badSegments) :
    url.LooksUp base vmId ↔
      (∀ c ∈ vmId.toList, UrlPath.isDropped c = false) ∧ segments ≠ ["", ""] := by
  rw [← UrlPath.unbroken_eq_self_iff]
  constructor
  · rintro ⟨others, segment, path', form', -, decoded⟩
    cases path.symm.trans path'
    obtain ⟨same, other⟩ :=
      (shape.front_append_iff ⟨_, rfl⟩).mp (UrlPath.segments.inj (form.symm.trans form'))
    refine ⟨?_, other⟩
    cases shape with
    | whole one two inside found =>
      cases same
      exact Option.some.inj (found.symm.trans decoded)
    | oneDot dot =>
      cases same
      have empty : "" = vmId := Option.some.inj ((by decide +kernel : Utf8.decode?
        (Percent.decode (Utf8.encode "")) = some "").symm.trans decoded)
      exact absurd (empty ▸ List.mem_cons_self) named
    | twoDots => exact absurd (congrArg List.length same) (by simp)
  · rintro ⟨kept, other⟩
    cases shape with
    | whole one two inside found =>
      rw [kept] at found
      exact ⟨segments, _, path, form.trans (by rw [UrlPath.front_eq other]), inside, found⟩
    | oneDot dot => exact absurd (kept.symm.trans dot ▸ by simp [MonitorClient.badSegments]) named
    | twoDots dots =>
      exact absurd (kept.symm.trans dots ▸ by simp [MonitorClient.badSegments]) named

theorem Url.staysBelow_iff (path : base.path = .segments segments)
    (shape : MetricsPath vmId added) :
    ({ base with path := .segments (front segments ++ added) } : Url).StaysBelow base ↔
      segments ≠ ["", ""] := by
  constructor
  · rintro ⟨-, -, -, -, others, middle, path', form⟩
    cases path.symm.trans path'
    exact ((shape.front_append_iff ⟨_, rfl⟩).mp (UrlPath.segments.inj form)).2
  · intro other
    obtain ⟨middle, same, -⟩ := shape.form
    refine ⟨rfl, rfl, rfl, rfl, segments, middle, path, ?_⟩
    rw [UrlPath.front_eq other, same]

end

namespace MonitorClient

variable {client : MonitorClient} {base url : Url} {vmId : String}

theorem find?_badSegment (vmId : String) :
    (Endpoint.vmMetrics vmId).segments.find? badSegments.contains =
      if vmId ∈ badSegments then some vmId else none := by
  have words : ∀ word ∈ ["v1", "vms", "metrics"], badSegments.contains word = false := by decide
  have v1 := words "v1" (by simp)
  have vms := words "vms" (by simp)
  have metrics := words "metrics" (by simp)
  by_cases bad : vmId ∈ badSegments
  · have found : badSegments.contains vmId = true := List.contains_iff_mem.mpr bad
    simp only [Endpoint.segments, List.find?, v1, vms, found, if_pos bad]
  · have missed : badSegments.contains vmId = false := by simpa using bad
    simp only [Endpoint.segments, List.find?, v1, vms, metrics, missed, if_neg bad]

/-- The state of a machine is asked for below the path of the service, if its id is not refused. -/
theorem url_metrics [Domain.Reader] (parsed : Url.parse client.base = .ok base) (web : base.IsWeb)
    (vmId : String) :
    ∃ segments added, base.path = .segments segments ∧ (∀ s ∈ segments, IsSegment s) ∧
      MetricsPath vmId added ∧
      client.url (Endpoint.vmMetrics vmId).segments =
        if vmId ∈ badSegments then .error (.badSegment vmId)
        else .ok { base with path := .segments (front segments ++ added) } := by
  obtain ⟨segments, path, -, each⟩ := Url.parse_web parsed web
  obtain ⟨added, shape, adds⟩ := UrlPath.addSegments_metrics (UrlPath.popEmpty segments) vmId
  refine ⟨segments, added, path, each, shape, ?_⟩
  have appended : base.append? (Endpoint.vmMetrics vmId).segments =
      some { base with path := .segments (front segments ++ added) } := by
    rw [Url.append?, path, web.special, ← UrlPath.stem_popEmpty, ← adds]
    rfl
  unfold url
  rw [find?_badSegment]
  by_cases bad : vmId ∈ badSegments
  · rw [if_pos bad, if_pos bad]
    rfl
  · rw [if_neg bad, if_neg bad, parsed]
    simp only [Except.mapError, bind, Except.bind, appended]
    rfl

/-- A request is made for the address, less user and password. -/
theorem request_url [Domain.Reader] {endpoint : Endpoint} {request : MonitorRequest}
    (built : client.request endpoint = .ok request) :
    ∃ url, client.url endpoint.segments = .ok url ∧ request.url = url.withoutUserinfo := by
  unfold MonitorClient.request at built
  obtain ⟨url, found, built⟩ := bind_ok built
  refine ⟨url, mapError_ok found, ?_⟩
  simp only at built
  split at built
  · cases built
  split at built
  · cases built
  split at built
  · cases built
  · cases built
    rfl

/-- The address at which a machine is asked for. Its path is that of the base, without a final
empty segment, and four segments, one of which is the id of the machine in percent-encoding, exactly
if the id has no tabs and line breaks and the path of the base is not just two slashes. Tabs and
line breaks are lost, and what is left counts as dots if it is one or two of them; of two slashes
both are lost. For an id that is a name there always is an address, and each of its segments is one. -/
theorem metrics_address [Domain.Reader] {address vmId : String} {token : Option String} {base : Url}
    (parsed : Url.parse (ofBase address token).base = .ok base) (web : base.IsWeb)
    (named : vmId ∉ PipelineConfig.namelessIds) :
    ∃ url segments added, (ofBase address token).url (Endpoint.vmMetrics vmId).segments = .ok url ∧
      (url.LooksUp base vmId ↔
        (∀ c ∈ vmId.toList, UrlPath.isDropped c = false) ∧ segments ≠ ["", ""]) ∧
      base.path = .segments segments ∧
      url = { base with path := .segments (front segments ++ added) } ∧
      (∀ s ∈ front segments ++ added, IsSegment s) ∧ MetricsPath vmId added := by
  obtain ⟨segments, added, path, each, shape, made⟩ := url_metrics parsed web vmId
  have usable : vmId ∉ badSegments := named
  rw [if_neg usable] at made
  have before : ∀ s ∈ front segments, IsSegment s := fun s member =>
    each s (UrlPath.mem_of_mem_front member)
  exact ⟨_, segments, added, made, Url.looksUp_iff path rfl shape usable, path, rfl,
    List.forall_mem_append.mpr ⟨before, shape.segments⟩, shape⟩

/-- An id that would lead elsewhere if it were not encoded, for a service with a query. -/
theorem metrics_address_encoded :
    let client := ofBase "http://monitor:8083/?zone=1" (some "token")
    let vmId := "../../wipe?x=%2e#\\é"
    ∃ base url, Url.parse client.base = .ok base ∧ base.IsWeb ∧
      vmId ∉ PipelineConfig.namelessIds ∧
      client.url (Endpoint.vmMetrics vmId).segments = .ok url ∧ url.LooksUp base vmId := by
  intro client vmId
  let base : Url := ⟨"http", none, some (.domain "monitor"), some 8083, .segments [""],
    some "zone=1", none⟩
  have parsed : Url.parse client.base = .ok base := by cbv
  have named : vmId ∉ PipelineConfig.namelessIds := by decide +kernel
  have plain : ∀ c ∈ vmId.toList, UrlPath.isDropped c = false :=
    UrlPath.unbroken_eq_self_iff.mp (by decide +kernel)
  obtain ⟨url, segments, added, made, whole, path, -⟩ :=
    @metrics_address _ "http://monitor:8083/?zone=1" vmId (some "token") base parsed
      (.inl rfl) named
  cases path
  exact ⟨base, url, parsed, .inl rfl, named, made, whole.mpr ⟨plain, by decide⟩⟩

/-- A tab is lost from an id, which is then the id of another machine. -/
theorem metrics_address_tab :
    let client := ofBase "http://vm-monitor:8083/" none
    ∃ base url, Url.parse client.base = .ok base ∧ base.IsWeb ∧
      "a\tb" ∉ PipelineConfig.namelessIds ∧
      client.url (Endpoint.vmMetrics "a\tb").segments = .ok url ∧
      url.text = "http://vm-monitor:8083/v1/vms/ab/metrics" ∧ ¬ url.LooksUp base "a\tb" := by
  intro client
  let base : Url := ⟨"http", none, some (.domain "vm-monitor"), some 8083, .segments [""], none,
    none⟩
  let url : Url := { base with path := .segments ["v1", "vms", "ab", "metrics"] }
  have parsed : Url.parse client.base = .ok base := by cbv
  have made : client.url (Endpoint.vmMetrics "a\tb").segments = .ok url := by cbv
  have text : url.text = "http://vm-monitor:8083/v1/vms/ab/metrics" := by cbv
  refine ⟨base, url, parsed, .inl rfl, by decide, made, text, ?_⟩
  rintro ⟨segments, segment, path, form, -, decoded⟩
  cases path
  cases form
  exact absurd decoded (by decide +kernel)

/-- No id leads a lookup away from the service of the base, or out of the path of the base. The
address is the base with another path. That begins with the path of the base, without a final empty
segment, and the version, and ends with what is asked for, exactly if the path of the base is not
just two slashes: of these both are lost. Between the version and the end are the kind of what is
looked up and one more segment, or a single empty one. A request is made for this address, less user
and password. -/
theorem metrics_stays_below [Domain.Reader] {address vmId : String} {token : Option String}
    {base url : Url}
    (parsed : Url.parse (ofBase address token).base = .ok base) (web : base.IsWeb)
    (made : (ofBase address token).url (Endpoint.vmMetrics vmId).segments = .ok url) :
    ∃ segments middle, (url.StaysBelow base ↔ segments ≠ ["", ""]) ∧
      base.path = .segments segments ∧
      url = { base with path := .segments (front segments ++ "v1" :: (middle ++ ["metrics"])) } ∧
      (∀ s ∈ front segments ++ "v1" :: (middle ++ ["metrics"]), IsSegment s) ∧
      (middle = [""] ∨ ∃ segment, middle = ["vms", segment]) ∧
      ∀ request, (ofBase address token).request (.vmMetrics vmId) = .ok request →
        request.url = url.withoutUserinfo := by
  obtain ⟨segments, added, path, each, shape, found⟩ := url_metrics parsed web vmId
  rw [made] at found
  split at found
  · cases found
  cases found
  have before : ∀ s ∈ front segments, IsSegment s := fun s member =>
    each s (UrlPath.mem_of_mem_front member)
  have all := List.forall_mem_append.mpr ⟨before, shape.segments⟩
  have below := Url.staysBelow_iff path shape
  obtain ⟨middle, rfl, between⟩ := shape.form
  refine ⟨segments, middle, below, path, rfl, all, between, fun request built => ?_⟩
  obtain ⟨other, same, sent⟩ := request_url built
  cases made.symm.trans same
  exact sent

/-- An id that is two dots once its tab is dropped. -/
theorem metrics_stays_below_dots :
    let client := ofBase "https://monitor:8083/?zone=1" none
    let base : Url := ⟨"https", none, some (.domain "monitor"), some 8083, .segments [""],
      some "zone=1", none⟩
    let url : Url := { base with path := .segments ["v1", "", "metrics"] }
    Url.parse client.base = .ok base ∧ base.IsWeb ∧
      client.url (Endpoint.vmMetrics "\t..").segments = .ok url ∧ url.StaysBelow base := by
  intro client base url
  have parsed : Url.parse client.base = .ok base := by cbv
  have made : client.url (Endpoint.vmMetrics "\t..").segments = .ok url := by cbv
  obtain ⟨segments, middle, below, path, -⟩ :=
    @metrics_stays_below _ "https://monitor:8083/?zone=1" "\t.." none base url parsed (.inr rfl) made
  cases path
  exact ⟨parsed, .inr rfl, made, below.mpr (by decide)⟩

/-- A base whose path is two slashes keeps none of them. -/
theorem metrics_leaves_slashes :
    let client := ofBase "http://vm-monitor:8083//?zone=1" none
    ∃ base url, Url.parse client.base = .ok base ∧ base.IsWeb ∧
      client.url (Endpoint.vmMetrics "vm-1").segments = .ok url ∧
      url.text = "http://vm-monitor:8083/v1/vms/vm-1/metrics?zone=1" ∧ ¬ url.StaysBelow base := by
  intro client
  let base : Url := ⟨"http", none, some (.domain "vm-monitor"), some 8083, .segments ["", ""],
    some "zone=1", none⟩
  let url : Url := { base with path := .segments ["v1", "vms", "vm-1", "metrics"] }
  have parsed : Url.parse client.base = .ok base := by cbv
  have made : client.url (Endpoint.vmMetrics "vm-1").segments = .ok url := by cbv
  have text : url.text = "http://vm-monitor:8083/v1/vms/vm-1/metrics?zone=1" := by cbv
  refine ⟨base, url, parsed, .inl rfl, made, text, ?_⟩
  rintro ⟨-, -, -, -, segments, middle, path, form⟩
  cases path
  exact absurd (List.cons.inj (UrlPath.segments.inj form)).1 (by decide)

end MonitorClient

end VmAdmission
