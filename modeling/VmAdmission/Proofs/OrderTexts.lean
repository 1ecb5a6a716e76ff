import VmAdmission.Proofs.InstancePlans
import VmAdmission.Proofs.Json.Values

namespace VmAdmission

namespace Json

/-- The members that are there fill the draft if none of them is longer than what may be read. -/
def Filled {σ α : Type} (shape : Decoder.Shape σ α) (budget : Budget) (draft : σ)
    (members : List (String × Option Json)) (final : σ) : Prop :=
  (∀ member ∈ present members, member.2.chars.length ≤ budget.symbols) →
    Fills shape budget draft (present members) final

section

variable {σ α β : Type} {shape : Decoder.Shape σ α} {budget : Budget} {draft final : σ}
  {name : String} {needed : Bool} {members : List (String × Option Json)}

theorem filled_nil : Filled shape budget draft [] draft :=
  fun _ => .nil

theorem filled_needed {get : σ → Option β} {set : σ → β → σ} {value : Decoder β} {j : Json} {x : β}
    (field : shape.fields.find? (·.isNamed name) = some (.of name needed get set value))
    (unset : get draft = none) (reads : j.chars.length ≤ budget.symbols → Reads value budget j x)
    (further : Filled shape budget (set draft x) members final) :
    Filled shape budget draft ((name, some j) :: members) final := by
  intro room
  have room : ∀ member ∈ (name, j) :: present members,
    member.2.chars.length ≤ budget.symbols := room
  exact .cons (sets_field field unset (reads (room (name, j) (by simp))))
    (further fun member inside => room member (by simp [inside]))

/-- A field that is there by choice, and the draft by the value that it has for the field. -/
theorem filled_optional {get : σ → Option (Option β)} {set : σ → Option β → σ} {value : Decoder β}
    {given : Option β} {enc : β → Json} (put : Option (Option β) → σ) (start : put none = draft)
    (field : shape.fields.find? (·.isNamed name) = some (.of name needed get set (.option value)))
    (unset : get draft = none) (sets : ∀ x, set draft (some x) = put (some (some x)))
    (reads : ∀ x ∈ given, enc x ≠ .null ∧
      ((enc x).chars.length ≤ budget.symbols → Reads value budget (enc x) x))
    (further : Filled shape budget (put (given.map some)) members final) :
    Filled shape budget draft ((name, given.map enc) :: members) final := by
  cases given with
  | none => exact start ▸ further
  | some x =>
    obtain ⟨notNull, read⟩ := reads x rfl
    refine filled_needed field unset (fun room => reads_option (read room) notNull) ?_
    rw [sets x]
    exact further

theorem filled_text {get : σ → Option (Option String)} {set : σ → Option String → σ}
    {given : Option String} (put : Option (Option String) → σ) (start : put none = draft)
    (field : shape.fields.find? (·.isNamed name) = some (.of name needed get set (.option .string)))
    (unset : get draft = none) (sets : ∀ x, set draft (some x) = put (some (some x)))
    (further : Filled shape budget (put (given.map some)) members final) :
    Filled shape budget draft ((name, given.map .string) :: members) final :=
  filled_optional put start field unset sets
    (fun _ _ => ⟨Json.noConfusion, fun room => reads_string (by rwa [chars_string] at room)⟩) further

/-- The section can be read back where so many containers may be opened. -/
structure Canonical.ReadsBack (levels : Nat) (section_ : Canonical) : Prop extends
    section_.Fits levels where
  integral : section_.json.IsIntegral

theorem filled_section {get : σ → Option (Option Canonical)} {set : σ → Option Canonical → σ}
    {given : Option Canonical} (put : Option (Option Canonical) → σ) (start : put none = draft)
    (field : shape.fields.find? (·.isNamed name) = some (.of name needed get set (.option tree)))
    (unset : get draft = none) (sets : ∀ x, set draft (some x) = put (some (some x)))
    (back : ∀ s ∈ given, s.ReadsBack budget.levels)
    (further : Filled shape budget (put (given.map some)) members final) :
    Filled shape budget draft ((name, given.map (·.json)) :: members) final :=
  filled_optional put start field unset sets
    (fun s inside => ⟨(back s inside).notNull, fun room =>
      tree_yields s.isCanonical (back s inside).integral room (back s inside).depth⟩) further

theorem reads_ofPresent {levels : Nat} {x : α} (final : σ) (open_ : budget.levels = levels + 1)
    (filled : Filled shape { budget with levels } shape.empty members final)
    (built : shape.build final = .ok x)
    (room : (ofPresent members).chars.length ≤ budget.symbols) :
    Reads (Decoder.record shape) budget (.ofPresent members) x := by
  refine reads_record open_ (filled fun member inside => ?_) built room
  exact Nat.le_of_lt (Nat.lt_of_lt_of_le (length_value_lt inside) room)

end

end Json

open Json

@[simp] theorem join_map_some {α : Type} (o : Option α) : (o.map some).join = o := by
  cases o <;> rfl

section

variable {budget : Budget} {levels : Nat}

theorem Destination.reads (d : Destination) (open_ : budget.levels = levels + 1)
    (room : d.json.chars.length ≤ budget.symbols) : Reads decoder budget d.json d := by
  obtain ⟨clusterId, folderId, hostId, resourcePoolId⟩ := d
  let final : Draft :=
    ⟨clusterId.map some, folderId.map some, hostId.map some, resourcePoolId.map some⟩
  refine reads_ofPresent final open_ ?_ (by simp [shape, final]) room
  refine filled_text (fun v => ⟨v, none, none, none⟩) rfl rfl rfl (fun _ => rfl) ?_
  refine filled_text (fun v => { final with folderId := v, hostId := none, resourcePoolId := none })
    rfl rfl rfl (fun _ => rfl) ?_
  refine filled_text (fun v => { final with hostId := v, resourcePoolId := none }) rfl rfl rfl
    (fun _ => rfl) ?_
  exact filled_text (fun v => { final with resourcePoolId := v }) rfl rfl rfl (fun _ => rfl) filled_nil

theorem ImageSource.reads (s : ImageSource) (open_ : budget.levels = levels + 1)
    (room : s.json.chars.length ≤ budget.symbols) : Reads decoder budget s.json s := by
  obtain ⟨imageId, imageName, imageSourceType⟩ := s
  let final : Draft := ⟨imageId.map some, imageName.map some, imageSourceType.map some⟩
  refine reads_ofPresent final open_ ?_ (by simp [shape, final]) room
  refine filled_text (fun v => ⟨v, none, none⟩) rfl rfl rfl (fun _ => rfl) ?_
  refine filled_text (fun v => { final with imageName := v, imageSourceType := none }) rfl rfl rfl
    (fun _ => rfl) ?_
  exact filled_text (fun v => { final with imageSourceType := v }) rfl rfl rfl (fun _ => rfl) filled_nil

/-- The opaque section of the configuration meets the condition. -/
def VmConfig.EachSection (c : VmConfig) (P : Nat → Canonical → Prop) (levels : Nat) : Prop :=
  ∀ s ∈ c.propertyConfig, P levels s

theorem VmConfig.reads (c : VmConfig) (back : c.EachSection Canonical.ReadsBack levels)
    (open_ : budget.levels = levels + 1) (room : c.json.chars.length ≤ budget.symbols) :
    Reads decoder budget c.json c := by
  obtain ⟨name, numberOfVms, acceptEula, remark, locale, powerOn, propertyConfig⟩ := c
  let final : Draft := ⟨some name, numberOfVms.map some, acceptEula.map some, remark.map some,
    locale.map some, powerOn.map some, propertyConfig.map some⟩
  refine reads_ofPresent final open_ ?_ (by simp [shape, final, pure, Except.pure]) room
  refine filled_needed rfl rfl (fun room => reads_string (by rwa [chars_string] at room)) ?_
  refine filled_optional (fun v => ⟨some name, v, none, none, none, none, none⟩) rfl rfl rfl
    (fun _ => rfl) (fun _ _ => ⟨Json.noConfusion, fun _ => reads_int64⟩) ?_
  refine filled_optional (fun v => ⟨some name, final.numberOfVms, v, none, none, none, none⟩) rfl rfl rfl
    (fun _ => rfl) (fun _ _ => ⟨Json.noConfusion, fun _ => reads_bool⟩) ?_
  refine filled_text
    (fun v => { final with remark := v, locale := none, powerOn := none, propertyConfig := none })
    rfl rfl rfl (fun _ => rfl) ?_
  refine filled_text
    (fun v => { final with locale := v, powerOn := none, propertyConfig := none }) rfl rfl rfl
    (fun _ => rfl) ?_
  refine filled_optional (fun v => { final with powerOn := v, propertyConfig := none }) rfl rfl rfl
    (fun _ => rfl) (fun _ _ => ⟨Json.noConfusion, fun _ => reads_bool⟩) ?_
  exact filled_section (fun v => { final with propertyConfig := v }) rfl rfl rfl (fun _ => rfl) back
    filled_nil

/-- The opaque sections of the order meet the condition, each for the containers that may be opened
where it stands. -/
structure DeployOrder.EachSection (o : DeployOrder) (P : Nat → Canonical → Prop) (levels : Nat) :
    Prop where
  vmConfig : o.vmConfig.EachSection P levels
  networkConfig : ∀ s ∈ o.networkConfig, P (levels + 1) s
  storageConfig : ∀ s ∈ o.storageConfig, P (levels + 1) s
  vmPolicy : ∀ s ∈ o.vmPolicy, P (levels + 1) s

theorem DeployOrder.reads (o : DeployOrder) (back : o.EachSection Canonical.ReadsBack levels)
    (open_ : budget.levels = levels + 2) (room : o.json.chars.length ≤ budget.symbols) :
    Reads decoder budget o.json o := by
  obtain ⟨destination, imageSource, vmConfig, networkConfig, storageConfig, vmPolicy⟩ := o
  let final : Draft := ⟨some destination, some imageSource, some vmConfig, networkConfig.map some,
    storageConfig.map some, vmPolicy.map some⟩
  refine reads_ofPresent final open_ ?_ (by simp [shape, final, pure, Except.pure]) room
  refine filled_needed rfl rfl (destination.reads rfl) ?_
  refine filled_needed rfl rfl (imageSource.reads rfl) ?_
  refine filled_needed rfl rfl (vmConfig.reads back.vmConfig rfl) ?_
  refine filled_section
    (fun v => { final with networkConfig := v, storageConfig := none, vmPolicy := none }) rfl rfl rfl
    (fun _ => rfl) back.networkConfig ?_
  refine filled_section (fun v => { final with storageConfig := v, vmPolicy := none }) rfl rfl rfl
    (fun _ => rfl) back.storageConfig ?_
  exact filled_section (fun v => { final with vmPolicy := v }) rfl rfl rfl (fun _ => rfl) back.vmPolicy
    filled_nil

theorem VmConfig.decoder_gives (open_ : budget.levels = levels + 1) (cur : Cursor) :
    Gives (·.EachSection Canonical.Fits levels) (decoder budget cur) := by
  let P (draft : Draft) : Prop := ∀ s ∈ draft.propertyConfig.join, s.Fits levels
  have keeps : ∀ field ∈ shape.fields, ∀ cur, Keeps P (field.read { budget with levels } cur) := by
    intro field listed cur
    simp only [shape, List.mem_cons, List.not_mem_nil, or_false] at listed
    rcases listed with rfl | rfl | rfl | rfl | rfl | rfl | rfl
    iterate 6 exact keeps_any fun _ _ => id
    exact keeps_field (option_tree_gives cur) fun _ _ fits _ => fits
  refine record_gives open_ rfl (P := P) (by simp [P, shape]) keeps ?_ cur
  intro draft c holds built
  simp only [shape] at built
  split at built
  · cases built
    exact holds
  · cases built

/-- The opaque sections that are read so far fit where they stand. -/
structure DeployOrder.Draft.SectionsFit (draft : Draft) (levels : Nat) : Prop where
  vmConfig : ∀ c ∈ draft.vmConfig, c.EachSection Canonical.Fits levels
  networkConfig : ∀ s ∈ draft.networkConfig.join, s.Fits (levels + 1)
  storageConfig : ∀ s ∈ draft.storageConfig.join, s.Fits (levels + 1)
  vmPolicy : ∀ s ∈ draft.vmPolicy.join, s.Fits (levels + 1)

theorem DeployOrder.decoder_gives (open_ : budget.levels = levels + 2) (cur : Cursor) :
    Gives (·.EachSection Canonical.Fits levels) (decoder budget cur) := by
  let P (draft : Draft) : Prop := draft.SectionsFit levels
  have keeps : ∀ field ∈ shape.fields, ∀ cur,
      Keeps P (field.read { budget with levels := levels + 1 } cur) := by
    intro field listed cur
    simp only [shape, List.mem_cons, List.not_mem_nil, or_false] at listed
    rcases listed with rfl | rfl | rfl | rfl | rfl | rfl
    iterate 2 exact keeps_any fun _ _ holds => ⟨holds.1, holds.2, holds.3, holds.4⟩
    · refine keeps_field (VmConfig.decoder_gives rfl cur) fun _ c fits holds =>
        { holds with vmConfig := ?_ }
      rintro _ ⟨⟩
      exact fits
    · exact keeps_field (option_tree_gives cur) fun _ _ fits holds =>
        { holds with networkConfig := fits }
    · exact keeps_field (option_tree_gives cur) fun _ _ fits holds =>
        { holds with storageConfig := fits }
    · exact keeps_field (option_tree_gives cur) fun _ _ fits holds =>
        { holds with vmPolicy := fits }
  have start : P shape.empty := by constructor <;> simp [shape]
  refine record_gives open_ rfl start keeps ?_ cur
  intro draft o holds built
  simp only [shape] at built
  split at built
  · rename_i c given
    cases built
    exact ⟨holds.vmConfig c given, holds.networkConfig, holds.storageConfig, holds.vmPolicy⟩
  · cases built

theorem VmOrder.reads (o : VmOrder) (back : ∀ s ∈ o.spec, s.ReadsBack levels)
    (open_ : budget.levels = levels + 1) (room : o.json.chars.length ≤ budget.symbols) :
    Reads decoder budget o.json o := by
  obtain ⟨vmId, spec⟩ := o
  let final : Draft := ⟨some vmId, spec.map some⟩
  refine reads_ofPresent final open_ ?_ (by simp [shape, final, pure, Except.pure]) room
  refine filled_needed rfl rfl (fun room => reads_string (by rwa [chars_string] at room)) ?_
  exact filled_section (fun v => { final with spec := v }) rfl rfl rfl (fun _ => rfl) back filled_nil

/-- An order to do something with a machine is read as an order for the machine whatever numbers are
in its section; a double in it may be read as another one. -/
theorem VmOrder.exists_reads (vmId : String) {spec : Canonical} (notNull : spec.json ≠ .null)
    (fits : spec.json.depth ≤ levels) (open_ : budget.levels = levels + 1)
    (room : (json ⟨vmId, some spec⟩).chars.length ≤ budget.symbols) :
    ∃ reread, Reads decoder budget (json ⟨vmId, some spec⟩) ⟨vmId, some reread⟩ := by
  obtain ⟨reread, reads⟩ := exists_tree_reads spec
  let final : Draft := ⟨some vmId, some (some reread)⟩
  refine ⟨reread, reads_ofPresent final open_ ?_ rfl room⟩
  refine filled_needed rfl rfl (fun room => reads_string (by rwa [chars_string] at room)) ?_
  exact filled_needed rfl rfl (fun room => reads_option (reads _ room fits) notNull) filled_nil

/-- An order to do something with a machine overflows the levels if its section alone takes one
level more than are left inside the order. -/
theorem VmOrder.overflows {vmId : String} {spec : Canonical} (notNull : spec.json ≠ .null)
    (open_ : budget.levels = levels + 1) (deep : levels < spec.json.depth)
    (room : (json ⟨vmId, some spec⟩).chars.length < budget.symbols) :
    Overflows decoder budget (json ⟨vmId, some spec⟩) := by
  have members : json ⟨vmId, some spec⟩ =
      .object [("vmId", .string vmId), ("spec", spec.json)] := rfl
  obtain ⟨total, all⟩ := budget
  rw [members] at room ⊢
  refine record_overflows open_ fun cur rest next => ?_
  rw [chars_object_cons, moreMembers_cons] at next room
  simp only [memberChars, chars_string, List.length_cons, List.length_append] at room
  have text : cur.rest = .char '{' :: ((memberChars ("vmId", .string vmId)).map .char ++
      .char ',' :: ((memberChars ("spec", spec.json)).map .char ++ .char '}' :: rest)) := by
    simpa [moreMembers] using next
  obtain ⟨symbols, rfl⟩ : ∃ k, total = k + 2 := Nat.exists_eq_add_of_le' (by omega)
  let inside : Budget := ⟨symbols + 2, levels⟩
  have field : shape.fields.find? (·.isNamed "vmId") = some (.of "vmId" true (·.vmId)
      (fun d x => { d with vmId := some x }) Decoder.string) := rfl
  have readsId : Reads Decoder.string inside (.string vmId) vmId :=
    reads_string (by dsimp only [inside]; omega)
  have sets := sets_field field (rfl : ({} : Draft).vmId = none) readsId
  have short : (memberChars ("vmId", Json.string vmId)).length ≤ inside.symbols := by
    simp only [memberChars, chars_string, List.length_append, List.length_cons, inside]
    omega
  obtain ⟨after, left, same⟩ : ∃ after : Cursor, _ ∧
      Decoder.recordMembers shape inside (symbols + 2) true {} cur.skip = _ :=
    recordMembers_eq sets short (ends_comma _) (hasMember_first (Cursor.skip_rest text))
  have deeper : Overflows (Decoder.option tree) inside spec.json :=
    option_overflows (tree_overflows spec.isCanonical (by dsimp only [inside]; omega) deep)
      notNull
  have refused : TooDeep
      (Decoder.recordMembers shape inside (symbols + 2) true {} cur.skip) := by
    rw [same]
    refine recordMembers_overflows rfl rfl deeper ?_ (ends_brace rest) (hasMember_comma left)
    simp only [memberChars, List.length_append, List.length_cons, inside]
    omega
  exact refused

end

namespace DeployOrder

/-- The opaque sections of the order. -/
def sections (o : DeployOrder) : List Canonical :=
  o.vmConfig.propertyConfig.toList ++ o.networkConfig.toList ++ o.storageConfig.toList ++
    o.vmPolicy.toList

/-- The sections of an order that was read from a text can be read back if all numbers in them are
integers. -/
theorem readsBack_of_decode {source : List Symbol} {order : DeployOrder}
    (decoded : decode decoder source = .ok order)
    (integral : ∀ s ∈ order.sections, s.json.IsIntegral) :
    order.EachSection Canonical.ReadsBack (maxLevels - 2) := by
  have fits : order.EachSection Canonical.Fits (maxLevels - 2) :=
    decode_gives (P := (·.EachSection Canonical.Fits (maxLevels - 2)))
      (fun cur => decoder_gives rfl cur) decoded
  exact {
    vmConfig := fun s inside => ⟨fits.vmConfig s inside, integral s (by simp_all [sections])⟩
    networkConfig := fun s inside =>
      ⟨fits.networkConfig s inside, integral s (by simp_all [sections])⟩
    storageConfig := fun s inside =>
      ⟨fits.storageConfig s inside, integral s (by simp_all [sections])⟩
    vmPolicy := fun s inside => ⟨fits.vmPolicy s inside, integral s (by simp_all [sections])⟩ }

theorem decodeString_text {order : DeployOrder}
    (back : order.EachSection Canonical.ReadsBack (maxLevels - 2)) :
    decodeString decoder order.text = .ok order :=
  Json.decodeString_text (order.reads back rfl (Nat.le_succ _))

end DeployOrder

namespace VmOrder

theorem decodeString_text {order : VmOrder}
    (back : ∀ s ∈ order.spec, s.ReadsBack (maxLevels - 1)) :
    decodeString decoder order.text = .ok order :=
  Json.decodeString_text (order.reads back rfl (Nat.le_succ _))

theorem decodeString_text_tooDeep {vmId : String} {spec : Canonical} (notNull : spec.json ≠ .null)
    (deep : maxLevels ≤ spec.json.depth) :
    TooDeep (decodeString decoder (text ⟨vmId, some spec⟩)) :=
  decodeString_tooDeep (overflows notNull rfl deep (Nat.lt_succ_self _))

end VmOrder

end VmAdmission
