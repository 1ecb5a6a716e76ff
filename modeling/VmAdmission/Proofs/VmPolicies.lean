import VmAdmission.Proofs.Operations

namespace VmAdmission

/-- The settings with the checks enabled, under a policy. -/
def ValidationConfig.under (config : ValidationConfig) (policy : VmPolicy) : ValidationConfig :=
  { config with enabled := true, vmPolicy := policy }

/-- The operation is to reconfigure a machine that says it is off. -/
def NeedsPower (operation : Operation) (metrics : VmMetrics) : Prop :=
  operation = .reconfigure ∧ ReadsOff metrics.powerState

theorem requirePower_refuses {operation : Operation} {metrics : VmMetrics}
    (needs : NeedsPower operation metrics) :
    requirePower operation metrics = .error (.validationFailed .poweredOff) :=
  if_pos ⟨needs.1, isPoweredOff_iff.mpr needs.2⟩

theorem requirePower_passes {operation : Operation} {metrics : VmMetrics}
    (fit : ¬ NeedsPower operation metrics) : requirePower operation metrics = .ok () :=
  if_neg fun off => fit ⟨off.1, isPoweredOff_iff.mp off.2⟩

section

variable (behaviour : Behaviour VmMetrics) (vmId : String) (operation : Operation)
  (limit : Duration)

/-- What lets an operation on a machine pass, under each policy. -/
inductive VmPasses : VmPolicy → Prop
  | answered {policy : VmPolicy} {metrics : VmMetrics} (inTime : behaviour.latency.InTime limit)
      (answer : behaviour.reply = .answer metrics) (fit : ¬ NeedsPower operation metrics) :
      VmPasses policy
  | late (late : ¬ behaviour.latency.InTime limit) : VmPasses .bestEffort
  | timedOut (inTime : behaviour.latency.InTime limit)
      (failure : behaviour.reply = .failure .timeout) : VmPasses .bestEffort

/-- Why an operation on a machine is refused, under each policy. -/
inductive VmRefusal : VmPolicy → RequestError → Prop
  | off {policy : VmPolicy} {metrics : VmMetrics} (inTime : behaviour.latency.InTime limit)
      (answer : behaviour.reply = .answer metrics) (needs : NeedsPower operation metrics) :
      VmRefusal policy (.validationFailed .poweredOff)
  | late (late : ¬ behaviour.latency.InTime limit) :
      VmRefusal .strict (.dependencyUnavailable (.noAnswer .vmMonitor limit))
  | missing {what : String} (inTime : behaviour.latency.InTime limit)
      (failure : behaviour.reply = .failure (.notFound what)) :
      VmRefusal .strict (.notFound (.vm vmId))
  | failed {error : LookupError} (inTime : behaviour.latency.InTime limit)
      (failure : behaviour.reply = .failure error) (other : ∀ what, error ≠ .notFound what) :
      VmRefusal .strict (.dependencyUnavailable (.lookupFailed .vmMonitor error))
  | doubtful {error : LookupError} (inTime : behaviour.latency.InTime limit)
      (failure : behaviour.reply = .failure error) (other : error ≠ .timeout) :
      VmRefusal .bestEffort (.validationFailed .vmNotValidated)

/-- An operation passes or is refused, unless its lookup crashes. -/
theorem vm_passes_or_refused (policy : VmPolicy) :
    VmPasses behaviour operation limit policy ∨
      (∃ error, VmRefusal behaviour vmId operation limit policy error) ∨
      behaviour.latency.InTime limit ∧ behaviour.reply = .crash := by
  by_cases inTime : behaviour.latency.InTime limit
  · cases reply : behaviour.reply with
    | crash => exact .inr (.inr ⟨inTime, rfl⟩)
    | answer metrics =>
      by_cases needs : NeedsPower operation metrics
      · exact .inr (.inl ⟨_, .off inTime reply needs⟩)
      · exact .inl (.answered inTime reply needs)
    | failure error =>
      cases policy with
      | strict =>
        by_cases missing : ∃ what, error = .notFound what
        · obtain ⟨what, rfl⟩ := missing
          exact .inr (.inl ⟨_, .missing inTime reply⟩)
        · exact .inr (.inl ⟨_, .failed inTime reply fun what same => missing ⟨what, same⟩⟩)
      | bestEffort =>
        by_cases timeout : error = .timeout
        · subst timeout
          exact .inl (.timedOut inTime reply)
        · exact .inr (.inl ⟨_, .doubtful inTime reply timeout⟩)
  · cases policy with
    | strict => exact .inr (.inl ⟨_, .late inTime⟩)
    | bestEffort => exact .inl (.late inTime)

end

/-- What lets an operation pass when the state of its machine has to be known also lets it pass when
it does not, whatever the limits are: an answer that comes late is of no interest then. -/
theorem VmPasses.lenient {behaviour : Behaviour VmMetrics} {operation : Operation}
    {limit : Duration} (passes : VmPasses behaviour operation limit .strict) (other : Duration) :
    VmPasses behaviour operation other .bestEffort := by
  cases passes with
  | answered inTime answer fit =>
    by_cases soon : behaviour.latency.InTime other
    · exact .answered soon answer fit
    · exact .late soon

/-- What passes under the lenient policy with a lookup that is over in time passes under the strict
one, but for a lookup that reports a time-out. -/
theorem VmPasses.strict {behaviour : Behaviour VmMetrics} {operation : Operation}
    {limit other : Duration} (passes : VmPasses behaviour operation limit .bestEffort)
    (inTime : behaviour.latency.InTime limit) (soon : behaviour.latency.InTime other)
    (told : behaviour.reply ≠ .failure .timeout) : VmPasses behaviour operation other .strict := by
  cases passes with
  | answered _ answer fit => exact .answered soon answer fit
  | late late => exact absurd inTime late
  | timedOut _ failure => exact absurd failure told

namespace Services

section

variable {services : Services} {vmId : String} {operation : Operation} {limit : Duration}

theorem checkVmStrictly_late (late : ¬ (services.vm vmId).latency.InTime limit) :
    (services.checkVmStrictly limit vmId operation).result =
      .error (.refused (.dependencyUnavailable (.noAnswer .vmMonitor limit))) := by
  simp only [checkVmStrictly, Latency.within?_of_late late]

theorem checkVmStrictly_failure {error : LookupError}
    (inTime : (services.vm vmId).latency.InTime limit)
    (failure : (services.vm vmId).reply = .failure error) :
    (services.checkVmStrictly limit vmId operation).result =
      .error (.refused (match error with
        | .notFound _ => .notFound (.vm vmId)
        | other => .dependencyUnavailable (.lookupFailed .vmMonitor other))) := by
  obtain ⟨elapsed, within⟩ := Latency.within?_of_inTime inTime
  simp only [checkVmStrictly, within, failure]
  cases error <;> rfl

theorem checkVmStrictly_crashed (inTime : (services.vm vmId).latency.InTime limit)
    (crashes : (services.vm vmId).reply = .crash) :
    (services.checkVmStrictly limit vmId operation).result = .error .crashed := by
  obtain ⟨elapsed, within⟩ := Latency.within?_of_inTime inTime
  simp only [checkVmStrictly, within, crashes]

theorem checkVmLeniently_late (late : ¬ (services.vm vmId).latency.InTime limit) :
    (services.checkVmLeniently limit vmId operation).result = .ok () := by
  simp only [checkVmLeniently, Latency.within?_of_late late]

theorem checkVmLeniently_failure {error : LookupError}
    (inTime : (services.vm vmId).latency.InTime limit)
    (failure : (services.vm vmId).reply = .failure error) :
    (services.checkVmLeniently limit vmId operation).result =
      match error with
      | .timeout => .ok ()
      | _ => .error (.refused (.validationFailed .vmNotValidated)) := by
  obtain ⟨elapsed, within⟩ := Latency.within?_of_inTime inTime
  simp only [checkVmLeniently, within, failure]
  cases error <;> rfl

theorem checkVmLeniently_crashed (inTime : (services.vm vmId).latency.InTime limit)
    (crashes : (services.vm vmId).reply = .crash) :
    (services.checkVmLeniently limit vmId operation).result = .error .crashed := by
  obtain ⟨elapsed, within⟩ := Latency.within?_of_inTime inTime
  simp only [checkVmLeniently, within, crashes]

end

/-- What becomes of an operation on a machine under a policy, with the checks enabled. -/
def verdict (services : Services) (config : ValidationConfig) (vmId : String)
    (operation : Operation) (policy : VmPolicy) : Except Halt Unit :=
  (services.validateVm (config.under policy) vmId operation).check.result

variable {services : Services} {config : ValidationConfig} {vmId : String} {operation : Operation}
  {policy : VmPolicy} {error : RequestError}

theorem verdict_answered {metrics : VmMetrics}
    (inTime : (services.vm vmId).latency.InTime (config.under policy).vmTimeout)
    (answer : (services.vm vmId).reply = .answer metrics) :
    services.verdict config vmId operation policy =
      (requirePower operation metrics).mapError .refused := by
  obtain ⟨elapsed, within⟩ := Latency.within?_of_inTime inTime
  exact validateVm_answered rfl within answer

theorem verdict_of_passes
    (passes : VmPasses (services.vm vmId) operation (config.under policy).vmTimeout policy) :
    services.verdict config vmId operation policy = .ok () := by
  cases passes with
  | answered inTime answer fit =>
    rw [verdict_answered inTime answer, requirePower_passes fit]
    rfl
  | late late => exact checkVmLeniently_late late
  | timedOut inTime failure => exact checkVmLeniently_failure inTime failure

theorem verdict_of_refusal
    (refusal : VmRefusal (services.vm vmId) vmId operation (config.under policy).vmTimeout policy
      error) :
    services.verdict config vmId operation policy = .error (.refused error) := by
  cases refusal with
  | off inTime answer needs =>
    rw [verdict_answered inTime answer, requirePower_refuses needs]
    rfl
  | late late => exact checkVmStrictly_late late
  | missing inTime failure => exact checkVmStrictly_failure inTime failure
  | @failed failure inTime replied other =>
    refine (checkVmStrictly_failure inTime replied).trans ?_
    cases failure with
    | notFound what => exact absurd rfl (other what)
    | timeout => rfl
    | failed why => rfl
  | @doubtful failure inTime replied other =>
    refine (checkVmLeniently_failure inTime replied).trans ?_
    cases failure with
    | timeout => exact absurd rfl other
    | notFound what => rfl
    | failed why => rfl

theorem verdict_crashed
    (inTime : (services.vm vmId).latency.InTime (config.under policy).vmTimeout)
    (crashes : (services.vm vmId).reply = .crash) :
    services.verdict config vmId operation policy = .error .crashed := by
  cases policy with
  | strict => exact checkVmStrictly_crashed inTime crashes
  | bestEffort => exact checkVmLeniently_crashed inTime crashes

theorem verdict_ok_iff : services.verdict config vmId operation policy = .ok () ↔
    VmPasses (services.vm vmId) operation (config.under policy).vmTimeout policy := by
  refine ⟨fun ok => ?_, verdict_of_passes⟩
  rcases vm_passes_or_refused (services.vm vmId) vmId operation (config.under policy).vmTimeout
    policy with passes | ⟨error, refusal⟩ | ⟨inTime, crashes⟩
  · exact passes
  · cases ok.symm.trans (verdict_of_refusal refusal)
  · cases ok.symm.trans (verdict_crashed inTime crashes)

theorem verdict_error_iff :
    services.verdict config vmId operation policy = .error (.refused error) ↔
      VmRefusal (services.vm vmId) vmId operation (config.under policy).vmTimeout policy error := by
  refine ⟨fun refused => ?_, verdict_of_refusal⟩
  rcases vm_passes_or_refused (services.vm vmId) vmId operation (config.under policy).vmTimeout
    policy with passes | ⟨other, refusal⟩ | ⟨inTime, crashes⟩
  · cases refused.symm.trans (verdict_of_passes passes)
  · cases refused.symm.trans (verdict_of_refusal refusal)
    exact refusal
  · cases refused.symm.trans (verdict_crashed inTime crashes)

/-- The two policies on the same operation and the same lookup. Whatever passes under the strict one
passes under the other. If the lookup is over within both limits, they let the same operations pass,
but for a lookup that reports a time-out; if it is over within neither, only the lenient one does. A
machine that is off is refused in the same words. One that is not known is not found under the
strict policy and not validated under the other; all else that is refused is put down to the service
under the one, and is not validated under the other. -/
theorem policies_compared (services : Services) (config : ValidationConfig) (vmId : String)
    (operation : Operation) :
    let lookup := services.vm vmId
    let inTime (policy : VmPolicy) := lookup.latency.InTime (config.under policy).vmTimeout
    let verdict := services.verdict config vmId operation
    (verdict .strict = .ok () → verdict .bestEffort = .ok ()) ∧
    (inTime .strict → inTime .bestEffort →
      (lookup.reply ≠ .failure .timeout →
        (verdict .strict = .ok () ↔ verdict .bestEffort = .ok ())) ∧
      (lookup.reply = .failure .timeout → verdict .bestEffort = .ok () ∧ verdict .strict =
        .error (.refused (.dependencyUnavailable (.lookupFailed .vmMonitor .timeout))))) ∧
    (¬ inTime .strict → ¬ inTime .bestEffort → verdict .bestEffort = .ok () ∧ verdict .strict =
      .error (.refused (.dependencyUnavailable (.noAnswer .vmMonitor config.strictVmTimeout)))) ∧
    (∀ policy metrics, inTime policy → lookup.reply = .answer metrics →
      NeedsPower operation metrics →
      verdict policy = .error (.refused (.validationFailed .poweredOff))) ∧
    (∀ what, lookup.reply = .failure (.notFound what) →
      (inTime .strict → verdict .strict = .error (.refused (.notFound (.vm vmId)))) ∧
      (inTime .bestEffort → verdict .bestEffort =
        .error (.refused (.validationFailed .vmNotValidated)))) ∧
    (∀ error, verdict .strict = .error (.refused error) →
      (error = .validationFailed .poweredOff ∧
        ∃ metrics, lookup.reply = .answer metrics ∧ NeedsPower operation metrics) ∨
      (error = .notFound (.vm vmId) ∧ ∃ what, lookup.reply = .failure (.notFound what)) ∨
      ∃ why, error = .dependencyUnavailable why) ∧
    ∀ error, verdict .bestEffort = .error (.refused error) →
      (error = .validationFailed .poweredOff ∧
        ∃ metrics, lookup.reply = .answer metrics ∧ NeedsPower operation metrics) ∨
      error = .validationFailed .vmNotValidated := by
  intro lookup inTime verdict
  have passes (policy : VmPolicy) : verdict policy = .ok () ↔
    VmPasses lookup operation (config.under policy).vmTimeout policy := verdict_ok_iff
  refine ⟨fun ok => ?_, fun strict lenient => ⟨fun told => ⟨fun ok => ?_, fun ok => ?_⟩, ?_⟩, ?_, ?_,
    fun what missing => ⟨fun soon => ?_, fun soon => ?_⟩, fun error refused => ?_,
    fun error refused => ?_⟩
  · exact (passes .bestEffort).mpr (((passes .strict).mp ok).lenient _)
  · exact (passes .bestEffort).mpr (((passes .strict).mp ok).lenient _)
  · exact (passes .strict).mpr (((passes .bestEffort).mp ok).strict lenient strict told)
  · intro timeout
    exact ⟨verdict_of_passes (.timedOut lenient timeout),
      verdict_of_refusal (.failed strict timeout nofun)⟩
  · intro lateStrict lateLenient
    exact ⟨verdict_of_passes (.late lateLenient), verdict_of_refusal (.late lateStrict)⟩
  · intro policy metrics soon answer needs
    exact verdict_of_refusal (.off soon answer needs)
  · exact verdict_of_refusal (.missing soon missing)
  · exact verdict_of_refusal (.doubtful soon missing nofun)
  · cases verdict_error_iff.mp refused with
    | off _ answer needs => exact .inl ⟨rfl, _, answer, needs⟩
    | missing _ missing => exact .inr (.inl ⟨rfl, _, missing⟩)
    | late _ => exact .inr (.inr ⟨_, rfl⟩)
    | failed _ _ _ => exact .inr (.inr ⟨_, rfl⟩)
  · cases verdict_error_iff.mp refused with
    | off _ answer needs => exact .inl ⟨rfl, _, answer, needs⟩
    | doubtful _ _ _ => exact .inr rfl

/-- Within the last moment that the lenient policy waits, a service that reports a time-out and one
that does not know the machine; and a service that never answers. -/
theorem policies_compared_last_moment :
    let config : ValidationConfig := {}
    let replying (reply : Reply VmMetrics) : Services :=
      { Services.uniform .none .crash with
        vm := fun _ => ⟨.after config.bestEffortVmTimeout, reply⟩ }
    let silent : Services := .uniform .never .crash
    let off : VmMetrics := ⟨none, "powered off", default⟩
    let verdict (services : Services) := services.verdict config "vm-1" .reconfigure
    (verdict (replying (.failure .timeout)) .bestEffort = .ok () ∧
      verdict (replying (.failure .timeout)) .strict =
        .error (.refused (.dependencyUnavailable (.lookupFailed .vmMonitor .timeout)))) ∧
    (verdict (replying (.failure (.notFound "vm-1"))) .strict =
        .error (.refused (.notFound (.vm "vm-1"))) ∧
      verdict (replying (.failure (.notFound "vm-1"))) .bestEffort =
        .error (.refused (.validationFailed .vmNotValidated))) ∧
    (∀ policy, verdict (replying (.answer off)) policy =
      .error (.refused (.validationFailed .poweredOff))) ∧
    verdict silent .bestEffort = .ok () ∧ verdict silent .strict =
      .error (.refused (.dependencyUnavailable (.noAnswer .vmMonitor config.strictVmTimeout))) := by
  intro config replying silent off verdict
  have inTime (policy : VmPolicy) :
      (Latency.after config.bestEffortVmTimeout).InTime (config.under policy).vmTimeout := by
    refine ⟨_, rfl, ?_⟩
    cases policy <;> decide
  have needs : NeedsPower .reconfigure off := ⟨rfl, "POWEREDOFF", by simp, by decide⟩
  obtain ⟨-, both, -⟩ := policies_compared (replying (.failure .timeout)) config "vm-1" .reconfigure
  obtain ⟨-, -, neither, -⟩ := policies_compared silent config "vm-1" .reconfigure
  obtain ⟨-, -, -, poweredOff, -⟩ :=
    policies_compared (replying (.answer off)) config "vm-1" .reconfigure
  obtain ⟨-, -, -, -, missing, -⟩ :=
    policies_compared (replying (.failure (.notFound "vm-1"))) config "vm-1" .reconfigure
  obtain ⟨strict, lenient⟩ := missing "vm-1" rfl
  exact ⟨(both (inTime .strict) (inTime .bestEffort)).2 rfl,
    ⟨strict (inTime .strict), lenient (inTime .bestEffort)⟩,
    fun policy => poweredOff policy off (inTime policy) rfl needs, neither nofun nofun⟩

end Services

end VmAdmission
