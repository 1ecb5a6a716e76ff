import VmAdmission.Proofs.Deployments
import VmAdmission.Proofs.OrderTexts

namespace VmAdmission

section

variable {store : Store} {limit : Duration} {new : NewRequest} {recorded : Recorded}

/-- Behind closed connections no call succeeds. -/
theorem Store.memory_of_answer {c : Call} {answer : c.Answer}
    (ok : (store.answerWithin limit c).outcome = .ok answer) : store.backend = .memory := by
  cases backend : store.backend with
  | memory => rfl
  | closedPool =>
    simp only [answerWithin, Store.answer, admitCall, backend] at ok
    split at ok
    · simp only at ok
      split at ok <;> cases ok
    · cases ok

theorem Dialogue.ok_of_ask {α : Type} {c : Call} {next : c.Answer → Dialogue α} {value : α}
    (ok : ((ask c next).effect limit store).1 = .ok value) :
    ∃ answer, (store.answerWithin limit c).outcome = .ok answer ∧
      ((next answer).effect limit (store.answerWithin limit c).store).1 = .ok value := by
  cases outcome : (store.answerWithin limit c).outcome with
  | error e =>
    rw [effect_ask_error outcome] at ok
    cases ok
  | ok answer =>
    rw [effect_ask_ok outcome] at ok
    exact ⟨answer, rfl, ok⟩

theorem Dialogue.ok_of_given {α β : Type} {value : Except RequestError α} {next : α → Dialogue β}
    {result : β} (ok : ((given value next).effect limit store).1 = .ok result) :
    ∃ found, value = .ok found ∧ ((next found).effect limit store).1 = .ok result := by
  cases value with
  | error => cases ok
  | ok found => exact ⟨found, rfl, ok⟩

/-- What is recorded of a request is its own row, in a store in memory. -/
theorem recordRequest_ok {config : AdmissionConfig}
    (ok : ((recordRequest config new).effect limit store).1 = .ok recorded) :
    store.backend = .memory ∧ recorded.request = new.row store.nextStamp := by
  unfold recordRequest at ok
  split at ok
  · obtain ⟨planned, -, ok⟩ := Dialogue.ok_of_given ok
    obtain ⟨answer, outcome, ok⟩ := Dialogue.ok_of_ask ok
    have memory := Store.memory_of_answer outcome
    obtain ⟨made, -⟩ := Store.answerWithin_ok memory outcome
    rw [Call.createRequestWithInstances_ok made] at made
    cases made
    cases ok
    exact ⟨memory, rfl⟩
  · obtain ⟨row, outcome, ok⟩ := Dialogue.ok_of_ask ok
    have memory := Store.memory_of_answer outcome
    obtain ⟨same, -⟩ := Store.answerWithin_createRequest memory outcome
    have kept : recorded.request = row := by
      split at ok
      · obtain ⟨planned, -, ok⟩ := Dialogue.ok_of_given ok
        split at ok
        · cases ok
          rfl
        · obtain ⟨rows, -, ok⟩ := Dialogue.ok_of_ask ok
          cases ok
          rfl
      · cases ok
        rfl
    exact ⟨memory, kept.trans same⟩

end

theorem required_ok {name : String} {value : Option String} {text : String}
    (ok : required name value = .ok text) : value = some text := by
  unfold required at ok
  split at ok
  · split at ok <;> cases ok
    rfl
  · cases ok

theorem Check.ok_of_andThen {α β : Type} {check : Check α} {next : α → Except RequestError β}
    {result : β} (ok : (check.andThen next).result = .ok result) :
    ∃ value, check.result = .ok value ∧ next value = .ok result := by
  cases passed : check.result with
  | error halt =>
    rw [Check.andThen_error passed] at ok
    cases ok
  | ok value =>
    rw [Check.andThen_ok passed] at ok
    exact ⟨value, rfl, mapError_ok ok⟩

theorem Behaviour.answer_of_check {α : Type} {behaviour : Behaviour α} {service : Service}
    {limit : Duration} {value : α} (ok : (behaviour.check service limit).result = .ok value) :
    behaviour.reply = .answer value := by
  unfold check at ok
  split at ok
  · cases ok
  · simp only at ok
    split at ok <;> cases ok
    assumption

theorem imageFile_ok {id : String} {images : List Image} {file : String}
    (ok : imageFile id images = .ok file) :
    ∃ image, images.find? (fun image => image.id == id) = some image ∧ image.filename = file := by
  unfold imageFile at ok
  split at ok <;> cases ok
  exact ⟨_, ‹_›, rfl⟩

/-- The file that a checked deployment is given is that of the first image with the wanted id. -/
theorem Services.checkTarget_ok {services : Services} {limit : Duration} {target : DeployTarget}
    {file : String} (ok : (services.checkTarget limit target).check.result = .ok file) :
    ∃ images image, services.images.reply = .answer images ∧
      images.find? (fun image => image.id == target.imageId) = some image ∧
      image.filename = file := by
  unfold checkTarget at ok
  simp only at ok
  split at ok
  · cases ok
  · obtain ⟨images, answered, found⟩ := Check.ok_of_andThen ok
    obtain ⟨image, first, file⟩ := imageFile_ok found
    exact ⟨images, image, Behaviour.answer_of_check answered, first, file⟩

theorem DeployOrder.target_imageId {order : DeployOrder} {target : DeployTarget}
    (ok : order.target = .ok target) : order.imageSource.imageId = some target.imageId := by
  obtain ⟨imageId, given, ok⟩ := bind_ok ok
  obtain ⟨host, -, ok⟩ := bind_ok ok
  obtain ⟨cluster, -, ok⟩ := bind_ok ok
  cases ok
  exact required_ok given

namespace PipelineConfig

/-- The order that is recorded for a deployment that passes its checks. -/
theorem deploy_passed {config : PipelineConfig} {services : Services} {order : DeployOrder}
    {scope : Scope} {dialogue : Dialogue Recorded}
    (passed : (config.deploy services order scope).check.result = .ok dialogue) :
    ∃ stored, dialogue = config.recordDeploy scope stored ∧
      (config.validation.enabled = false → stored = order) ∧
      (config.validation.enabled = true →
        ∃ imageId images image, order.imageSource.imageId = some imageId ∧
          services.images.reply = .answer images ∧
          images.find? (fun image => image.id == imageId) = some image ∧
          stored = order.withImageFile image.filename) := by
  unfold deploy at passed
  split at passed
  · cases passed
  by_cases enabled : config.validation.enabled
  · simp only [if_pos enabled] at passed
    split at passed
    · cases passed
    rename_i target wanted
    obtain ⟨found, validated, same⟩ := Check.ok_of_andThen passed
    rw [Services.validateDeploy, if_pos enabled] at validated
    obtain ⟨file, checked, kept⟩ := Check.ok_of_andThen validated
    cases kept
    cases same
    obtain ⟨images, image, answered, first, rfl⟩ := Services.checkTarget_ok checked
    exact ⟨_, rfl, fun disabled => absurd enabled (by simp [disabled]), fun _ =>
      ⟨target.imageId, images, image, DeployOrder.target_imageId wanted, answered, first, rfl⟩⟩
  · simp only [if_neg enabled] at passed
    cases passed
    exact ⟨order, rfl, fun _ => rfl, fun on => absurd on enabled⟩

end PipelineConfig

end VmAdmission
