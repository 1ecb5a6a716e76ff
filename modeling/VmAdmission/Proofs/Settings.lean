import Mathlib.Algebra.Group.Nat.Defs
import VmAdmission.Proofs.Text.Ascii
import VmAdmission.Settings

namespace VmAdmission

open Ascii (SameButCase)
open Settings (Environment)

/-- The text is a number below the bound: ASCII digits, with a plus sign before them or without. -/
def Numeral (bound : Nat) (text : String) (n : Nat) : Prop :=
  ∃ sign digits : List Char, text.toList = sign ++ digits ∧ (sign = [] ∨ sign = ['+']) ∧
    digits ≠ [] ∧ (∀ c ∈ digits, c.isDigit) ∧ Nat.ofDigitChars 10 digits 0 = n ∧ n < bound

namespace Settings

/-- Digits are read as the number they are the rest of, if that is not too large. -/
theorem digits_eq_ok_iff {max n m : Nat} {cs : List Char} (small : n ≤ max) :
    digits max n cs = .ok m ↔
      (∀ c ∈ cs, c.isDigit) ∧ Nat.ofDigitChars 10 cs n = m ∧ m ≤ max := by
  induction cs generalizing n with
  | nil =>
    simp only [digits, Except.ok.injEq, List.not_mem_nil, false_implies, implies_true, true_and,
      Nat.ofDigitChars_nil]
    constructor
    · rintro rfl
      exact ⟨rfl, small⟩
    · exact And.left
  | cons c cs ih =>
    rw [digits, List.forall_mem_cons, ofDigitChars_step]
    by_cases digit : c.isDigit
    · have value : Ascii.digit? c = some (c.toNat - 48) := by rw [Ascii.digit?_eq, if_pos digit]
      simp only [value, digit, true_and]
      split
      next fits => exact ih fits
      next large =>
        -- The digits that are left only make the number larger.
        have grows := le_ofDigitChars cs (n * 10 + (c.toNat - 48))
        constructor
        · nofun
        · rintro ⟨-, rfl, fits⟩
          omega
    · have value : Ascii.digit? c = none := by rw [Ascii.digit?_eq, if_neg digit]
      simp only [value, digit, Bool.false_eq_true, false_and, reduceCtorEq]

/-- A plus sign is the sign of a number, since it is no digit. -/
theorem numeral_iff_of_plus {bound n : Nat} {text : String} {cs : List Char}
    (chars : text.toList = '+' :: cs) :
    Numeral bound text n ↔
      cs ≠ [] ∧ (∀ c ∈ cs, c.isDigit) ∧ Nat.ofDigitChars 10 cs 0 = n ∧ n < bound := by
  constructor
  · rintro ⟨sign, digits, split, rfl | rfl, some, digit, number⟩
    · have first : '+' ∈ digits := by
        rw [← List.nil_append digits, ← split, chars]
        exact List.mem_cons_self
      exact absurd (digit '+' first) (by decide)
    · have same : cs = digits := by simpa [chars] using split
      exact same ▸ ⟨some, digit, number⟩
  · exact fun number => ⟨['+'], cs, chars, .inr rfl, number⟩

theorem numeral_iff_of_digits {bound n : Nat} {text : String}
    (unsigned : ∀ cs, text.toList ≠ '+' :: cs) :
    Numeral bound text n ↔ text.toList ≠ [] ∧ (∀ c ∈ text.toList, c.isDigit) ∧
      Nat.ofDigitChars 10 text.toList 0 = n ∧ n < bound := by
  constructor
  · rintro ⟨sign, digits, split, rfl | rfl, number⟩
    · rw [List.nil_append] at split
      exact split ▸ number
    · exact absurd split (unsigned digits)
  · exact fun number => ⟨[], text.toList, rfl, .inl rfl, number⟩

/-- Exactly the numerals of numbers up to the maximum are read, as the numbers that they name. -/
theorem natural_eq_ok_iff {max n : Nat} {text : String} :
    natural max text = .ok n ↔ Numeral (max + 1) text n := by
  have digits_iff (cs : List Char) : digits max 0 cs = .ok n ↔
      (∀ c ∈ cs, c.isDigit) ∧ Nat.ofDigitChars 10 cs 0 = n ∧ n < max + 1 := by
    rw [digits_eq_ok_iff (Nat.zero_le max), Nat.lt_succ_iff]
  unfold natural
  split
  next chars => simp [numeral_iff_of_digits, chars]
  next chars => simp [numeral_iff_of_plus chars]
  next cs more chars =>
    rw [digits_iff, numeral_iff_of_plus chars]
    exact ⟨fun number => ⟨more, number⟩, And.right⟩
  next more _ unsigned =>
    rw [digits_iff, numeral_iff_of_digits unsigned]
    exact ⟨fun number => ⟨more, number⟩, And.right⟩

theorem millis_eq_ok_iff {text : String} {period : Duration} :
    millis text = .ok period ↔ Numeral (2 ^ 64) text period.millis := by
  have read : natural (UInt64.size - 1) text = .ok period.millis ↔
      Numeral (2 ^ 64) text period.millis := natural_eq_ok_iff
  rw [← read, millis]
  cases natural (UInt64.size - 1) text with
  | error why => simp only [Except.map, reduceCtorEq]
  | ok n =>
    simp only [Except.map, Except.ok.injEq]
    exact ⟨fun same => same ▸ rfl, fun same => same ▸ rfl⟩

theorem vmLimit_eq_ok_iff {text : String} {limit : UInt32} :
    vmLimit text = .ok limit ↔ Numeral (2 ^ 32) text limit.toNat := by
  have read (n : Nat) : natural (UInt32.size - 1) text = .ok n ↔ Numeral (2 ^ 32) text n :=
    natural_eq_ok_iff
  rw [← read, vmLimit]
  cases found : natural (UInt32.size - 1) text with
  | error why => simp only [Except.map, reduceCtorEq]
  | ok n =>
    obtain ⟨-, -, -, -, -, -, -, small⟩ := (read n).mp found
    simp only [Except.map, Except.ok.injEq, ← UInt32.toNat_inj]
    rw [show n.toUInt32.toNat = n from UInt32.toNat_ofNat_of_lt small]

theorem boolean_eq_ok_iff {text : String} {value : Bool} :
    boolean text = .ok value ↔ text = if value then "true" else "false" := by
  unfold boolean
  split
  · cases value <;> simp
  · cases value <;> simp
  next notTrue notFalse =>
    simp only [reduceCtorEq, false_iff]
    cases value
    · exact notFalse
    · exact notTrue

theorem address_eq_ok_iff {text : String} {found : SocketAddress} :
    address text = .ok found ↔ SocketAddress.parse? text = some found := by
  unfold address
  split
  next parsed => simp only [parsed, Except.ok.injEq, Option.some.injEq]
  next parsed => simp only [parsed, reduceCtorEq]

end Settings

/-- The words for a store. -/
def StoreBackend.words : StoreBackend → List String
  | postgres => ["postgres"]
  | memory => ["memory"]

theorem StoreBackend.parse_eq_ok_iff {text : String} {backend : StoreBackend} :
    parse text = .ok backend ↔ ∃ word ∈ backend.words, SameButCase text word := by
  have postgres : Ascii.lower text = "postgres" ↔ SameButCase text "postgres" :=
    Ascii.lower_eq_iff (by decide)
  have memory : Ascii.lower text = "memory" ↔ SameButCase text "memory" :=
    Ascii.lower_eq_iff (by decide)
  unfold parse
  cases backend <;> simp only [words, List.mem_singleton, exists_eq_left, ← postgres, ← memory] <;>
    split <;> simp_all

/-- The words for a policy. -/
def VmPolicy.words : VmPolicy → List String
  | strict => ["strict"]
  | bestEffort => ["best_effort", "best-effort"]

theorem VmPolicy.parse_eq_ok_iff {text : String} {policy : VmPolicy} :
    parse text = .ok policy ↔ ∃ word ∈ policy.words, SameButCase (trimBlanks text) word := by
  have lowered (word : String) (small : Ascii.lower word = word) :
      Ascii.lower (trimBlanks text) = word ↔ SameButCase (trimBlanks text) word :=
    Ascii.lower_eq_iff small
  unfold parse
  cases policy <;>
    simp only [words, List.mem_cons, List.not_mem_nil, or_false, exists_eq_left,
      exists_eq_or_imp, ← lowered "strict" (by decide), ← lowered "best_effort" (by decide),
      ← lowered "best-effort" (by decide)] <;>
    split <;> simp_all

namespace Variable

/-- What a variable gives a value to. -/
abbrev Value : Variable → Type
  | storeBackend => StoreBackend
  | databaseUrl | monitorApiToken => Option String
  | validateClientRequest | atomicAdmission => Bool
  | vmValidationPolicy => VmPolicy
  | strictVmTimeoutMs | bestEffortVmTimeoutMs | lookupTimeoutMs | storeTimeoutMs => Duration
  | maxVmsPerDeploy => UInt32
  | listenAddr => SocketAddress
  | imageManagerUrl | infraMonitorUrl | vmMonitorUrl | requestBasePath => String

/-- The value where the variable is not given. -/
def default : (v : Variable) → v.Value
  | storeBackend => .postgres
  | databaseUrl | monitorApiToken => none
  | validateClientRequest | atomicAdmission => false
  | vmValidationPolicy => .strict
  | strictVmTimeoutMs => ⟨60000⟩
  | bestEffortVmTimeoutMs => ⟨10⟩
  | lookupTimeoutMs => ⟨30000⟩
  | storeTimeoutMs => ⟨10000⟩
  | maxVmsPerDeploy => 1000
  | listenAddr => .v4 (.ofNat 0) 8080
  | imageManagerUrl => "http://image-manager:8081"
  | infraMonitorUrl => "http://infra-monitor:8082"
  | vmMonitorUrl => "http://vm-monitor:8083"
  | requestBasePath => "/virtualization/v1beta1/virtual-machines-request/"

/-- The text means the value. -/
def Means : (v : Variable) → String → v.Value → Prop
  | storeBackend, text, backend => ∃ word ∈ backend.words, SameButCase text word
  | databaseUrl, text, url => url = some text
  | validateClientRequest, text, on | atomicAdmission, text, on =>
    text = if on then "true" else "false"
  | vmValidationPolicy, text, policy => ∃ word ∈ policy.words, SameButCase (trimBlanks text) word
  | strictVmTimeoutMs, text, period | bestEffortVmTimeoutMs, text, period
  | lookupTimeoutMs, text, period | storeTimeoutMs, text, period =>
    Numeral (2 ^ 64) text period.millis
  | maxVmsPerDeploy, text, limit => Numeral (2 ^ 32) text limit.toNat
  | listenAddr, text, address => SocketAddress.parse? text = some address
  | monitorApiToken, text, token => token = if text = "" then none else some text
  | imageManagerUrl, text, value | infraMonitorUrl, text, value | vmMonitorUrl, text, value
  | requestBasePath, text, value => value = text

/-- How the text is read. -/
def read : (v : Variable) → String → Except BadValue v.Value
  | storeBackend => StoreBackend.parse
  | databaseUrl => fun text => .ok (some text)
  | validateClientRequest | atomicAdmission => Settings.boolean
  | vmValidationPolicy => VmPolicy.parse
  | strictVmTimeoutMs | bestEffortVmTimeoutMs | lookupTimeoutMs | storeTimeoutMs => Settings.millis
  | maxVmsPerDeploy => Settings.vmLimit
  | listenAddr => Settings.address
  | monitorApiToken => fun text => .ok (if text = "" then none else some text)
  | imageManagerUrl | infraMonitorUrl | vmMonitorUrl | requestBasePath => .ok

/-- Exactly those texts are read that mean something, and as what they mean. -/
theorem read_eq_ok_iff {v : Variable} {text : String} {value : v.Value} :
    v.read text = .ok value ↔ v.Means text value := by
  cases v with
  | storeBackend => simp only [read, Means, StoreBackend.parse_eq_ok_iff]
  | validateClientRequest | atomicAdmission => simp only [read, Means, Settings.boolean_eq_ok_iff]
  | vmValidationPolicy => simp only [read, Means, VmPolicy.parse_eq_ok_iff]
  | strictVmTimeoutMs | bestEffortVmTimeoutMs | lookupTimeoutMs | storeTimeoutMs =>
    simp only [read, Means, Settings.millis_eq_ok_iff]
  | maxVmsPerDeploy => simp only [read, Means, Settings.vmLimit_eq_ok_iff]
  | listenAddr => simp only [read, Means, Settings.address_eq_ok_iff]
  | databaseUrl | monitorApiToken | imageManagerUrl | infraMonitorUrl | vmMonitorUrl
  | requestBasePath => simp only [read, Means, Except.ok.injEq, eq_comm]

/-- The variables whose texts are trimmed of blanks, and may mean nothing. -/
def trimmed : List Variable :=
  [storeBackend, validateClientRequest, vmValidationPolicy, strictVmTimeoutMs,
    bestEffortVmTimeoutMs, lookupTimeoutMs, storeTimeoutMs, atomicAdmission, maxVmsPerDeploy,
    listenAddr]

/-- A variable that is given like that has the value. -/
def Settles (v : Variable) : Option String → v.Value → Prop
  | none, value => value = v.default
  | some raw, value => v.Means (if v ∈ trimmed then trimBlanks raw else raw) value

/-- The value that a variable has when it is given like that. -/
def taken (v : Variable) : Option String → Except BadValue v.Value
  | none => .ok v.default
  | some raw => v.read (if v ∈ trimmed then trimBlanks raw else raw)

theorem taken_eq_ok_iff {v : Variable} {given : Option String} {value : v.Value} :
    v.taken given = .ok value ↔ v.Settles given value := by
  cases given with
  | none => simp only [taken, Settles, Except.ok.injEq, eq_comm]
  | some raw => exact read_eq_ok_iff

/-- How a variable is given settles its value. -/
theorem Settles.unique {v : Variable} {given : Option String} {one other : v.Value}
    (first : v.Settles given one) (second : v.Settles given other) : one = other :=
  Except.ok.inj ((taken_eq_ok_iff.mpr first).symm.trans (taken_eq_ok_iff.mpr second))

theorem settles_token (given : Option String) :
    monitorApiToken.Settles given (given.filter (· ≠ "")) := by
  cases given with
  | none => rfl
  | some raw =>
    change (some raw).filter (· ≠ "") = if raw = "" then none else some raw
    by_cases empty : raw = "" <;> simp [empty]

/-- The variables that may be complained about, in the order in which that is done. -/
def checked : List Variable :=
  [storeBackend, databaseUrl, validateClientRequest, vmValidationPolicy, strictVmTimeoutMs,
    bestEffortVmTimeoutMs, lookupTimeoutMs, storeTimeoutMs, atomicAdmission, maxVmsPerDeploy,
    listenAddr]

end Variable

open Variable (trimmed checked)

namespace Settings

/-- The variable has the value in the environment. -/
def Environment.Settles (env : Environment) (v : Variable) (value : v.Value) : Prop :=
  v.Settles (env v.name) value

/-- The variable is at fault: it has a text that means nothing, or it is the database, which is
missing where requests are not recorded in memory. -/
def Environment.Offends (env : Environment) (v : Variable) : Prop :=
  (v ∈ trimmed ∧ ∀ value, ¬ env.Settles v value) ∨
    (v = .databaseUrl ∧ env v.name = none ∧ ¬ env.Settles .storeBackend .memory)

/-- What can be complained about. -/
inductive Environment.Complaint (env : Environment) : SettingsError → Prop
  | invalid (v : Variable) (why : BadValue) :
      v ∈ trimmed → v.taken (env v.name) = .error why → Complaint env (.invalid v why)
  | missing : env Variable.databaseUrl.name = none → ¬ env.Settles .storeBackend .memory →
      Complaint env (.missing .databaseUrl)

/-- What is complained about is at fault. -/
theorem Environment.Complaint.offends {env : Environment} {e : SettingsError}
    (complaint : env.Complaint e) : env.Offends e.about := by
  cases complaint with
  | invalid v why member bad =>
    have nothing (value : v.Value) : ¬ env.Settles v value := by
      intro settles
      rw [Variable.taken_eq_ok_iff.mpr settles] at bad
      nomatch bad
    exact .inl ⟨member, nothing⟩
  | missing absent needed => exact .inr ⟨rfl, absent, needed⟩

/-- The variables are gone through one after another. If none is at fault, the result is good;
otherwise the result is a complaint about the first one that is. -/
inductive Reading {α : Type} (env : Environment) (good : α → Prop) :
    List Variable → Except SettingsError α → Prop
  | done {vs : List Variable} {value : α} :
      (∀ v ∈ vs, ¬ env.Offends v) → good value → Reading env good vs (.ok value)
  | stopped {before after : List Variable} {e : SettingsError} :
      (∀ v ∈ before, ¬ env.Offends v) → env.Complaint e →
      Reading env good (before ++ e.about :: after) (.error e)

namespace Reading

variable {α β : Type} {env : Environment} {good : α → Prop} {also : β → Prop}
  {vs ws : List Variable}

theorem bind {first : Except SettingsError α} {next : α → Except SettingsError β}
    (reading : Reading env good vs first)
    (further : ∀ value, good value → Reading env also ws (next value)) :
    Reading env also (vs ++ ws) (first >>= next) := by
  cases reading with
  | @done _ value sound holds =>
    have rest := further value holds
    change Reading env also (vs ++ ws) (next value)
    generalize next value = outcome at rest
    cases rest with
    | done others holds => exact .done (List.forall_mem_append.mpr ⟨sound, others⟩) holds
    | stopped others complaint =>
      rw [← List.append_assoc]
      exact .stopped (List.forall_mem_append.mpr ⟨sound, others⟩) complaint
  | stopped sound complaint =>
    rw [List.append_assoc, List.cons_append]
    exact .stopped sound complaint

/-- The first variable is complained about. -/
theorem first {e : SettingsError} (complaint : env.Complaint e) :
    Reading env good (e.about :: vs) (.error e) :=
  .stopped (List.forall_mem_nil _) complaint

/-- A variable that is not at fault may come first. -/
theorem pass {v : Variable} {outcome : Except SettingsError α} (sound : ¬ env.Offends v)
    (reading : Reading env good vs outcome) : Reading env good (v :: vs) outcome := by
  cases reading with
  | done others holds => exact .done (List.forall_mem_cons.mpr ⟨sound, others⟩) holds
  | stopped others complaint =>
    exact .stopped (List.forall_mem_cons.mpr ⟨sound, others⟩) complaint

/-- A variable that is parsed has its value, or is complained about. -/
theorem of_parsed (env : Environment) (v : Variable) (member : v ∈ trimmed) :
    Reading env (env.Settles v) [v] (parsed env v v.read v.default) := by
  have outcome : parsed env v v.read v.default =
      (v.taken (env v.name)).mapError (.invalid v) := by
    unfold parsed Variable.taken
    cases env v.name with
    | none => rfl
    | some raw => simp only [if_pos member]
  rw [outcome]
  cases taken : v.taken (env v.name) with
  | error why => exact first (.invalid v why member taken)
  | ok value =>
    have settles : env.Settles v value := Variable.taken_eq_ok_iff.mp taken
    refine .done (List.forall_mem_singleton.mpr ?_) settles
    rintro (⟨-, nothing⟩ | ⟨rfl, -⟩)
    · exact nothing value settles
    · exact absurd member (by decide)

theorem of_ok {value : α} (reading : Reading env good vs (.ok value)) :
    (∀ v ∈ vs, ¬ env.Offends v) ∧ good value := by
  cases reading with
  | done sound holds => exact ⟨sound, holds⟩

theorem of_error {e : SettingsError} (reading : Reading env good vs (.error e)) :
    env.Complaint e ∧
      ∃ before after, vs = before ++ e.about :: after ∧ ∀ v ∈ before, ¬ env.Offends v := by
  cases reading with
  | stopped sound complaint => exact ⟨complaint, _, _, rfl, sound⟩

theorem exists_ok_iff {outcome : Except SettingsError α} (reading : Reading env good vs outcome) :
    (∃ value, outcome = .ok value) ↔ ∀ v ∈ vs, ¬ env.Offends v := by
  cases reading with
  | @done _ value sound _ => exact ⟨fun _ => sound, fun _ => ⟨value, rfl⟩⟩
  | stopped _ complaint =>
    constructor
    · nofun
    · exact fun sound => absurd complaint.offends (sound _ (by simp))

theorem of_validation (env : Environment) :
    Reading env
      (fun config =>
        env.Settles .validateClientRequest config.enabled ∧
        env.Settles .vmValidationPolicy config.vmPolicy ∧
        env.Settles .strictVmTimeoutMs config.strictVmTimeout ∧
        env.Settles .bestEffortVmTimeoutMs config.bestEffortVmTimeout ∧
        env.Settles .lookupTimeoutMs config.lookupTimeout)
      [.validateClientRequest, .vmValidationPolicy, .strictVmTimeoutMs, .bestEffortVmTimeoutMs,
        .lookupTimeoutMs]
      (validation env) := by
  refine (of_parsed env .validateClientRequest (by decide)).bind fun _ enabled => ?_
  refine (of_parsed env .vmValidationPolicy (by decide)).bind fun _ vmPolicy => ?_
  refine (of_parsed env .strictVmTimeoutMs (by decide)).bind fun _ strictly => ?_
  refine (of_parsed env .bestEffortVmTimeoutMs (by decide)).bind fun _ leniently => ?_
  refine (of_parsed env .lookupTimeoutMs (by decide)).bind fun _ lookups => ?_
  exact .done (List.forall_mem_nil _) ⟨enabled, vmPolicy, strictly, leniently, lookups⟩

theorem of_admission (env : Environment) :
    Reading env
      (fun config =>
        env.Settles .storeTimeoutMs config.storeTimeout ∧
        env.Settles .atomicAdmission config.atomic ∧
        env.Settles .maxVmsPerDeploy config.maxVmsPerDeploy)
      [.storeTimeoutMs, .atomicAdmission, .maxVmsPerDeploy] (admission env) := by
  refine (of_parsed env .storeTimeoutMs (by decide)).bind fun _ storeTimeout => ?_
  refine (of_parsed env .atomicAdmission (by decide)).bind fun _ atomic => ?_
  refine (of_parsed env .maxVmsPerDeploy (by decide)).bind fun _ maxVms => ?_
  exact .done (List.forall_mem_nil _) ⟨storeTimeout, atomic, maxVms⟩

end Reading

/-- The value that the settings have for the variable. -/
def value (settings : Settings) : (v : Variable) → v.Value
  | .storeBackend => settings.storeBackend
  | .databaseUrl => settings.databaseUrl
  | .validateClientRequest => settings.pipeline.validation.enabled
  | .vmValidationPolicy => settings.pipeline.validation.vmPolicy
  | .strictVmTimeoutMs => settings.pipeline.validation.strictVmTimeout
  | .bestEffortVmTimeoutMs => settings.pipeline.validation.bestEffortVmTimeout
  | .lookupTimeoutMs => settings.pipeline.validation.lookupTimeout
  | .storeTimeoutMs => settings.pipeline.admission.storeTimeout
  | .atomicAdmission => settings.pipeline.admission.atomic
  | .maxVmsPerDeploy => settings.pipeline.admission.maxVmsPerDeploy
  | .listenAddr => settings.listenAddress
  | .imageManagerUrl => settings.monitors.imageManagerUrl
  | .infraMonitorUrl => settings.monitors.infraMonitorUrl
  | .vmMonitorUrl => settings.monitors.vmMonitorUrl
  | .monitorApiToken => settings.monitors.token
  | .requestBasePath => settings.requestBasePath

/-- There is nothing in settings but the values for the variables. -/
theorem eq_of_value_eq {one other : Settings} (same : ∀ v, one.value v = other.value v) :
    one = other := by
  obtain ⟨url, backend, address, ⟨images, infra, vms, token⟩,
    ⟨⟨enabled, policy, strict, bestEffort, lookup⟩, ⟨store, atomic, limit⟩⟩, path⟩ := one
  obtain ⟨url', backend', address', ⟨images', infra', vms', token'⟩,
    ⟨⟨enabled', policy', strict', bestEffort', lookup'⟩, ⟨store', atomic', limit'⟩⟩, path'⟩ := other
  simp only [mk.injEq, MonitorEndpoints.mk.injEq, PipelineConfig.mk.injEq,
    ValidationConfig.mk.injEq, AdmissionConfig.mk.injEq]
  exact ⟨same .databaseUrl, same .storeBackend, same .listenAddr,
    ⟨same .imageManagerUrl, same .infraMonitorUrl, same .vmMonitorUrl, same .monitorApiToken⟩,
    ⟨⟨same .validateClientRequest, same .vmValidationPolicy, same .strictVmTimeoutMs,
      same .bestEffortVmTimeoutMs, same .lookupTimeoutMs⟩,
      ⟨same .storeTimeoutMs, same .atomicAdmission, same .maxVmsPerDeploy⟩⟩, same .requestBasePath⟩

theorem Reading.of_read (env : Environment) :
    Reading env (fun settings => ∀ v, env.Settles v (settings.value v)) checked (read env) := by
  refine (Reading.of_parsed env .storeBackend (by decide)).bind fun backend settles => ?_
  -- The database is the one variable whose fault depends on another, so it is not parsed.
  dsimp only
  split
  next needed =>
    obtain ⟨rfl, absent⟩ := needed
    refine Reading.first (.missing absent fun memory => ?_)
    nomatch Variable.Settles.unique settles memory
  next provided =>
    have sound : ¬ env.Offends .databaseUrl := by
      rintro (⟨member, -⟩ | ⟨-, absent, needed⟩)
      · exact absurd member (by decide)
      · cases backend with
        | postgres => exact provided ⟨rfl, absent⟩
        | memory => exact needed settles
    refine .pass sound ?_
    refine (Reading.of_validation env).bind fun validation checks => ?_
    refine (Reading.of_admission env).bind fun admission recording => ?_
    refine (Reading.of_parsed env .listenAddr (by decide)).bind fun _ listens => ?_
    refine .done (List.forall_mem_nil _) fun v => ?_
    obtain ⟨enabled, policy, strict, bestEffort, lookup⟩ := checks
    obtain ⟨store, atomic, limit⟩ := recording
    cases v with
    | storeBackend => exact settles
    | validateClientRequest => exact enabled
    | vmValidationPolicy => exact policy
    | strictVmTimeoutMs => exact strict
    | bestEffortVmTimeoutMs => exact bestEffort
    | lookupTimeoutMs => exact lookup
    | storeTimeoutMs => exact store
    | atomicAdmission => exact atomic
    | maxVmsPerDeploy => exact limit
    | listenAddr => exact listens
    | monitorApiToken => exact Variable.settles_token _
    | databaseUrl | imageManagerUrl | infraMonitorUrl | vmMonitorUrl | requestBasePath =>
      dsimp only [Environment.Settles, value, endpoints, verbatim]
      generalize env _ = given
      cases given <;> rfl

theorem settles_databaseUrl_iff {env : Environment} {url : Option String} :
    env.Settles .databaseUrl url ↔ url = env Variable.databaseUrl.name := by
  unfold Environment.Settles
  cases env Variable.databaseUrl.name <;> rfl

/-- There is no fault in an environment if every text means something and no database is missing. -/
theorem forall_not_offends_iff {env : Environment} :
    (∀ v ∈ checked, ¬ env.Offends v) ↔
      (∀ v ∈ trimmed, ∀ raw, env v.name = some raw → ∃ value, v.Means (trimBlanks raw) value) ∧
        (env.Settles .storeBackend .memory ∨ env Variable.databaseUrl.name ≠ none) := by
  constructor
  · refine fun sound => ⟨fun v member raw given => ?_, ?_⟩
    · by_contra nothing
      have listed : ∀ v ∈ trimmed, v ∈ checked := by decide
      refine sound v (listed v member) (.inl ⟨member, fun value settles => nothing ⟨value, ?_⟩⟩)
      simpa only [Environment.Settles, given, Variable.Settles, if_pos member] using settles
    · by_contra neither
      obtain ⟨needed, absent⟩ := not_or.mp neither
      exact sound .databaseUrl (by decide) (.inr ⟨rfl, not_not.mp absent, needed⟩)
  · rintro ⟨meant, stored⟩ v - (⟨member, nothing⟩ | ⟨rfl, absent, needed⟩)
    · cases given : env v.name with
      | none => exact nothing v.default (by rw [Environment.Settles, given]; rfl)
      | some raw =>
        obtain ⟨value, means⟩ := meant v member raw given
        refine nothing value ?_
        simpa only [Environment.Settles, given, Variable.Settles, if_pos member] using means
    · exact stored.elim needed fun present => present absent

/-- Settings are those of an environment exactly if they have the values for all variables and can
do with the database that they have. -/
theorem read_eq_ok_iff {env : Environment} {settings : Settings} :
    read env = .ok settings ↔ (∀ v, env.Settles v (settings.value v)) ∧
      (settings.storeBackend = .memory ∨ settings.databaseUrl ≠ none) := by
  constructor
  · intro found
    obtain ⟨sound, settles⟩ := Reading.of_ok (found ▸ Reading.of_read env)
    refine ⟨settles, ?_⟩
    by_contra neither
    obtain ⟨needed, absent⟩ := not_or.mp neither
    refine sound .databaseUrl (by decide) (.inr ⟨rfl, ?_, fun memory => ?_⟩)
    · exact (settles_databaseUrl_iff.mp (settles .databaseUrl)).symm.trans (not_not.mp absent)
    · exact needed (Variable.Settles.unique (settles .storeBackend) memory)
  · rintro ⟨settles, stored⟩
    have sound : ∀ v ∈ checked, ¬ env.Offends v := by
      rintro v - (⟨-, nothing⟩ | ⟨rfl, absent, needed⟩)
      · exact nothing _ (settles v)
      · rcases stored with memory | present
        · exact needed (memory ▸ settles .storeBackend)
        · exact present ((settles_databaseUrl_iff.mp (settles .databaseUrl)).trans absent)
    -- There are settings then, and these have the same values.
    obtain ⟨other, found⟩ := (Reading.of_read env).exists_ok_iff.mpr sound
    have settles' := (Reading.of_ok (found ▸ Reading.of_read env)).2
    rw [found, eq_of_value_eq fun v => Variable.Settles.unique (settles' v) (settles v)]

/-- Nothing but the values of the variables matters. -/
theorem read_congr {env env' : Environment} (same : ∀ v : Variable, env v.name = env' v.name) :
    read env = read env' := by
  simp only [read, validation, admission, endpoints, parsed, verbatim, same]

/-- What settings are read from an environment. There are settings if every text that is parsed
means something when it is trimmed, and requests are recorded in memory or a database is given; they
are those that have for every variable the value that is settled by this variable alone. Otherwise
the first variable at fault is complained about. In two environments that give one variable alike,
the settings have the same value for it, and where all variables are given alike nothing else
matters. Numbers are read exactly from the digits of numbers below 2 ^ 64, or below 2 ^ 32 for the
machines of one deployment, with a plus sign before them or without. -/
theorem read_settings (env : Environment) :
    ((∃ settings, read env = .ok settings) ↔
      (∀ v ∈ trimmed, ∀ raw, env v.name = some raw → ∃ value, v.Means (trimBlanks raw) value) ∧
        (env.Settles .storeBackend .memory ∨ env Variable.databaseUrl.name ≠ none)) ∧
    (∀ settings, read env = .ok settings ↔ (∀ v, env.Settles v (settings.value v)) ∧
      (settings.storeBackend = .memory ∨ settings.databaseUrl ≠ none)) ∧
    (∀ e, read env = .error e → env.Complaint e ∧ env.Offends e.about ∧
      ∃ before after, checked = before ++ e.about :: after ∧ ∀ v ∈ before, ¬ env.Offends v) ∧
    (∀ env' settings settings', read env = .ok settings → read env' = .ok settings' →
      ∀ v : Variable, env v.name = env' v.name → settings.value v = settings'.value v) ∧
    (∀ env', (∀ v : Variable, env v.name = env' v.name) → read env = read env') ∧
    (∀ text period, millis text = .ok period ↔ Numeral (2 ^ 64) text period.millis) ∧
    (∀ text limit, vmLimit text = .ok limit ↔ Numeral (2 ^ 32) text limit.toNat) := by
  refine ⟨(Reading.of_read env).exists_ok_iff.trans forall_not_offends_iff, fun _ => read_eq_ok_iff,
    fun e refused => ?_, fun env' settings settings' found found' v same => ?_,
    fun _ => read_congr, fun _ _ => millis_eq_ok_iff, fun _ _ => vmLimit_eq_ok_iff⟩
  · obtain ⟨complaint, first⟩ := Reading.of_error (refused ▸ Reading.of_read env)
    exact ⟨complaint, complaint.offends, first⟩
  · have settles := (read_eq_ok_iff.mp found).1 v
    have settles' := (read_eq_ok_iff.mp found').1 v
    rw [Environment.Settles, same] at settles
    exact Variable.Settles.unique settles settles'

/-- Where nothing is given, it is the database that is missing. -/
example : read (fun _ => none) = .error (.missing .databaseUrl) := rfl

end Settings

end VmAdmission
