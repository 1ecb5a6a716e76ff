import Mathlib
import VmAdmission.Monitor
import VmAdmission.Proofs.Metrics
import VmAdmission.Proofs.Text.Utf8
import VmAdmission.Proofs.VmPolicies

namespace VmAdmission

namespace MonitorResponse

/-- The status is that of a request that was granted. -/
def IsSuccess (response : MonitorResponse) : Prop :=
  200 ≤ response.status ∧ response.status < 300

/-- The body is an object that tells a power state, and nothing else of the id of the machine than
that. -/
def Tells (response : MonitorResponse) (state : String) : Prop :=
  ∃ members, Json.decode Json.memberList (Utf8.symbols response.body) = .ok members ∧
    VmMetrics.Tells members state

end MonitorResponse

namespace MonitorClient

variable {endpoint : Endpoint} {response : MonitorResponse} {state : String}

theorem readResponse_missing {α : Type} {decoder : Json.Decoder α} (missing : response.status = 404) :
    readResponse endpoint decoder response = .error (.notFound endpoint) :=
  if_pos missing

theorem readResponse_refused {α : Type} {decoder : Json.Decoder α} (other : response.status ≠ 404)
    (refused : ¬ response.IsSuccess) :
    readResponse endpoint decoder response =
      .error (.refused endpoint response.status response.text) := by
  have outside : response.status < 200 ∨ 300 ≤ response.status := by
    unfold MonitorResponse.IsSuccess at refused
    omega
  rw [readResponse, if_neg other, if_pos outside]

theorem readResponse_success {α : Type} {decoder : Json.Decoder α} (success : response.IsSuccess) :
    readResponse endpoint decoder response =
      (Json.decode decoder (Utf8.symbols response.body)).mapError fun _ => .request .notDecoded := by
  obtain ⟨low, high⟩ := success
  have found : response.status ≠ 404 := by omega
  have inside : ¬ (response.status < 200 ∨ 300 ≤ response.status) := by omega
  rw [readResponse, if_neg found, if_neg inside]
  cases Json.decode decoder (Utf8.symbols response.body) <;> rfl

end MonitorClient

theorem MonitorResponse.tells_iff {response : MonitorResponse} {state : String} :
    response.Tells state ↔ ∃ metrics : VmMetrics,
      Json.decode VmMetrics.decoder (Utf8.symbols response.body) = .ok metrics ∧
        metrics.powerState = state := by
  simp only [Tells, VmMetrics.tells_iff, VmMetrics.decode_iff]
  constructor
  · rintro ⟨members, listed, metrics, told, same⟩
    exact ⟨metrics, ⟨members, listed, told⟩, same⟩
  · rintro ⟨metrics, ⟨members, listed, told⟩, same⟩
    exact ⟨members, listed, metrics, told, same⟩

namespace MonitorEndpoints

section

variable [Domain.Reader] (endpoints : MonitorEndpoints) (transport : Transport)

/-- The monitor of the machines answers a lookup, and within the limit. -/
inductive Replies (limit : Duration) (vmId : String) (response : MonitorResponse) : Prop
  | intro {request : MonitorRequest} {latency : Latency}
      (sent : (MonitorClient.ofBase endpoints.vmMonitorUrl endpoints.token).request
        (.vmMetrics vmId) = .ok request)
      (answered : transport request = (latency, .answered response))
      (inTime : latency.InTime limit)

end

section

variable [Domain.Reader] {endpoints : MonitorEndpoints} {transport : Transport} {limit : Duration}
  {vmId : String} {response : MonitorResponse} {config : ValidationConfig} {operation : Operation}

theorem Replies.services_vm (replies : endpoints.Replies transport limit vmId response) :
    ((endpoints.services transport).vm vmId).latency.InTime limit ∧
      ((endpoints.services transport).vm vmId).reply =
        match MonitorClient.readResponse (.vmMetrics vmId) VmMetrics.decoder response with
        | .ok metrics => .answer metrics
        | .error error => .failure error.lookupError := by
  obtain ⟨sent, answered, inTime⟩ := replies
  simp only [services, MonitorClient.behaviour, MonitorClient.fetch, sent, answered,
    MonitorClient.readDelivery]
  refine ⟨inTime, ?_⟩
  cases MonitorClient.readResponse (.vmMetrics vmId) VmMetrics.decoder response <;> rfl

variable (replies : endpoints.Replies transport config.strictVmTimeout vmId response)

include replies

theorem Replies.missing (unknown : response.status = 404) :
    (endpoints.services transport).verdict config vmId operation .strict =
      .error (.refused (.notFound (.vm vmId))) := by
  obtain ⟨inTime, reply⟩ := replies.services_vm
  rw [MonitorClient.readResponse_missing unknown] at reply
  exact Services.verdict_of_refusal (.missing inTime reply)

theorem Replies.failed {error : MonitorError} (plain : error.lookupError = .failed error.message)
    (read : MonitorClient.readResponse (.vmMetrics vmId) VmMetrics.decoder response =
      .error error) :
    (endpoints.services transport).verdict config vmId operation .strict =
      .error (.refused (.dependencyUnavailable
        (.lookupFailed .vmMonitor (.failed error.message)))) := by
  obtain ⟨inTime, reply⟩ := replies.services_vm
  simp only [read, plain] at reply
  exact Services.verdict_of_refusal (.failed inTime reply nofun)

theorem Replies.garbled (success : response.IsSuccess) (untold : ∀ state, ¬ response.Tells state) :
    (endpoints.services transport).verdict config vmId operation .strict =
      .error (.refused (.dependencyUnavailable
        (.lookupFailed .vmMonitor (.failed (MonitorError.request .notDecoded).message)))) := by
  refine replies.failed rfl ((MonitorClient.readResponse_success success).trans ?_)
  cases decoded : Json.decode VmMetrics.decoder (Utf8.symbols response.body) with
  | error e => rfl
  | ok metrics => exact absurd (MonitorResponse.tells_iff.mpr ⟨metrics, decoded, rfl⟩) (untold _)

theorem Replies.told (operation : Operation) (success : response.IsSuccess) {state : String}
    (tells : response.Tells state) :
    ∃ metrics : VmMetrics, metrics.powerState = state ∧
      (endpoints.services transport).verdict config vmId operation .strict =
        (requirePower operation metrics).mapError .refused := by
  obtain ⟨metrics, decoded, same⟩ := MonitorResponse.tells_iff.mp tells
  obtain ⟨inTime, reply⟩ := replies.services_vm
  rw [MonitorClient.readResponse_success success, decoded] at reply
  exact ⟨metrics, same, Services.verdict_answered inTime reply⟩

theorem Replies.off (success : response.IsSuccess) {state : String} (tells : response.Tells state)
    (reconfigures : operation = .reconfigure) (readsOff : ReadsOff state) :
    (endpoints.services transport).verdict config vmId operation .strict =
      .error (.refused (.validationFailed .poweredOff)) := by
  obtain ⟨metrics, rfl, judged⟩ := replies.told operation success tells
  rw [judged, requirePower_refuses ⟨reconfigures, readsOff⟩]
  rfl

end

end MonitorEndpoints

end VmAdmission
