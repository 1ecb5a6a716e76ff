import VmAdmission.Proofs.Interleaving

namespace VmAdmission

/-- The lookup crashes. -/
def Behaviour.Crashes {α : Type} (behaviour : Behaviour α) : Prop :=
  behaviour.reply = .crash

/-- No lookup crashes. -/
structure Services.Calm (services : Services) : Prop where
  images : ¬ services.images.Crashes
  hosts : ¬ services.hosts.Crashes
  clusters : ¬ services.clusters.Crashes
  vm : ∀ id, ¬ (services.vm id).Crashes

theorem Check.crashed_of_andThen {α β : Type} {check : Check α}
    {next : α → Except RequestError β} (crashed : (check.andThen next).result = .error .crashed) :
    check.result = .error .crashed := by
  cases result : check.result with
  | error halt =>
    rw [andThen_error result] at crashed
    cases crashed
    rfl
  | ok value =>
    rw [andThen_ok result] at crashed
    cases found : next value with
    | error e =>
      rw [found] at crashed
      cases crashed
    | ok =>
      rw [found] at crashed
      cases crashed

theorem Behaviour.crashes_of_check {α : Type} {behaviour : Behaviour α} {service : Service}
    {limit : Duration} (crashed : (behaviour.check service limit).result = .error .crashed) :
    behaviour.Crashes := by
  unfold Behaviour.check at crashed
  split at crashed
  · cases crashed
  · simp only at crashed
    split at crashed
    · cases crashed
    · cases crashed
    · assumption

namespace Services

variable {services : Services} {config : ValidationConfig} {limit : Duration} {vmId : String}
  {operation : Operation}

theorem requirePower_ne_crashed (operation : Operation) (metrics : VmMetrics) :
    (requirePower operation metrics).mapError Halt.refused ≠ .error .crashed := by
  unfold requirePower
  split <;> exact nofun

theorem vm_crashes_of_strict
    (crashed : (services.checkVmStrictly limit vmId operation).result = .error .crashed) :
    (services.vm vmId).Crashes := by
  unfold checkVmStrictly at crashed
  simp only at crashed
  split at crashed
  · cases crashed
  · simp only at crashed
    split at crashed
    · exact absurd crashed (requirePower_ne_crashed _ _)
    · cases crashed
    · cases crashed
    · assumption

theorem vm_crashes_of_lenient
    (crashed : (services.checkVmLeniently limit vmId operation).result = .error .crashed) :
    (services.vm vmId).Crashes := by
  unfold checkVmLeniently at crashed
  simp only at crashed
  split at crashed
  · cases crashed
  · simp only at crashed
    split at crashed
    · exact absurd crashed (requirePower_ne_crashed _ _)
    · cases crashed
    · cases crashed
    · assumption

variable (calm : services.Calm)

include calm

theorem Calm.validateVm :
    (services.validateVm config vmId operation).check.result ≠ .error .crashed := by
  intro crashed
  unfold Services.validateVm at crashed
  split at crashed
  · simp only at crashed
    split at crashed
    · exact calm.vm vmId (vm_crashes_of_strict crashed)
    · exact calm.vm vmId (vm_crashes_of_lenient crashed)
  · cases crashed

theorem Calm.validateDeploy (target : DeployTarget) :
    (services.validateDeploy config target).check.result ≠ .error .crashed := by
  intro crashed
  unfold Services.validateDeploy at crashed
  split at crashed
  · rcases checkTarget_error (Check.crashed_of_andThen crashed) with image | host | cluster
    · exact calm.images (Behaviour.crashes_of_check (Check.crashed_of_andThen image))
    · exact calm.hosts (Behaviour.crashes_of_check (Check.crashed_of_andThen host))
    · exact calm.clusters (Behaviour.crashes_of_check (Check.crashed_of_andThen cluster))
  · cases crashed

end Services

namespace PipelineConfig

variable {config : PipelineConfig} {services : Services} (calm : services.Calm)

include calm

theorem deploy_ne_crashed (order : DeployOrder) (scope : Scope) :
    (config.deploy services order scope).check.result ≠ .error .crashed := by
  intro crashed
  unfold deploy at crashed
  split at crashed
  · cases crashed
  split at crashed
  · split at crashed
    · cases crashed
    · exact calm.validateDeploy _ (Check.crashed_of_andThen crashed)
  · cases crashed

theorem submit_ne_crashed (operation : Operation) (order : VmOrder) (scope : Scope) :
    (config.submit services operation order scope).check.result ≠ .error .crashed := by
  intro crashed
  unfold submit at crashed
  split at crashed
  · cases crashed
  split at crashed
  · cases crashed
  · exact calm.validateVm (Check.crashed_of_andThen crashed)

end PipelineConfig

theorem Submission.run_ne_crashed {α : Type} {submission : Submission α} {limit : Duration}
    {store : Store} (calm : submission.check.result ≠ .error .crashed) :
    (submission.run limit store).result ≠ .error .crashed := by
  intro crashed
  cases result : submission.check.result with
  | error halt =>
    rw [(run_refused result).1] at crashed
    cases crashed
    exact calm result
  | ok dialogue =>
    rw [(run_passed result).1] at crashed
    cases found : (dialogue.effect limit store).1 with
    | error e =>
      rw [found] at crashed
      cases crashed
    | ok =>
      rw [found] at crashed
      cases crashed

end VmAdmission
