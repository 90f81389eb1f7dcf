import LaptopCooler.Firmware.PercentEncoding

/-! # Form encodings of a configuration

A body of the setup form joins three fields in any order, each with a name and a
percent-encoded text (`LaptopCooler.Firmware.EncodesForm`). The loop of
`parse_form` fills the three slots of a form, each with the field of its name
(`LaptopCooler.Firmware.foldlM_parseField_eq_ok_iff`); it accepts exactly the
encodings of valid configurations (`LaptopCooler.Firmware.form_codec`).
-/

namespace LaptopCooler.Firmware

open Fallible

/-- The field is the name, `=` and an encoding of the text. -/
def EncodesField (name text : String) (field : List UInt8) : Prop :=
  ∃ encoded, Encodes encoded (Text.bytes text) ∧ field = Text.bytes name ++ 61 :: encoded

/-- The body joins with `&`, in some order, fields for three texts that fit and that `new` makes
the configuration of. -/
def EncodesForm (body : List UInt8) (config : DeviceConfig) : Prop :=
  ∃ (ssid password token : String) (ssidField passwordField tokenField : List UInt8)
    (fields : List (List UInt8)),
    EncodesField "ssid" ssid ssidField ∧ (Text.bytes ssid).length ≤ maxSsidLen ∧
    EncodesField "password" password passwordField ∧
    (Text.bytes password).length ≤ maxPasswordLen ∧
    EncodesField "token" token tokenField ∧ (Text.bytes token).length ≤ maxTokenLen ∧
    fields.Perm [ssidField, passwordField, tokenField] ∧ body = [38].intercalate fields ∧
    DeviceConfig.new ssid password token = .ok config

/-! ## The loop over the fields -/

/-- A field that splits into the name and the encoding of a value. -/
theorem encodesField_iff {capacity : ℕ} {name field : String} {value : BoundedString capacity}
    (plain : 61 ∉ Text.bytes name) (separated : 38 ∉ Text.bytes field) :
    EncodesField name value.text (Text.bytes field) ↔
      ∃ encoded, Text.splitOnce '=' field = some (name, encoded) ∧
        decodeComponent capacity encoded = .ok value := by
  have equals : ('=' : Char).val ≤ 127 := by decide
  constructor
  · rintro ⟨encoded, encodes, same⟩
    obtain ⟨_, after, _, rfl⟩ := Text.exists_cut (by decide) same
    exact ⟨after, (Text.splitOnce_eq_some_iff_bytes equals).mpr ⟨plain, same⟩,
      (decodeComponent_eq_ok_iff encodes.separated).mpr encodes⟩
  · rintro ⟨encoded, split, accepted⟩
    have same := ((Text.splitOnce_eq_some_iff_bytes equals).mp split).2
    have remaining : 38 ∉ Text.bytes encoded := fun member => separated (by simp [same, member])
    exact ⟨_, (decodeComponent_eq_ok_iff remaining).mp accepted, same⟩

theorem Form.parseField_eq_ok_iff {form next : Form} {field : String}
    (separated : 38 ∉ Text.bytes field) :
    form.parseField field = .ok next ↔
      (form.ssid = none ∧ ∃ value : BoundedString maxSsidLen,
        EncodesField "ssid" value.text (Text.bytes field) ∧
          next = { form with ssid := some value }) ∨
      (form.password = none ∧ ∃ value : BoundedString maxPasswordLen,
        EncodesField "password" value.text (Text.bytes field) ∧
          next = { form with password := some value }) ∨
      (form.token = none ∧ ∃ value : BoundedString maxTokenLen,
        EncodesField "token" value.text (Text.bytes field) ∧
          next = { form with token := some value }) := by
  simp only [encodesField_iff (show 61 ∉ Text.bytes "ssid" by decide) separated,
    encodesField_iff (show 61 ∉ Text.bytes "password" by decide) separated,
    encodesField_iff (show 61 ∉ Text.bytes "token" by decide) separated]
  constructor
  · intro accepted
    simp only [Form.parseField, bind_eq_ok_iff, okOr_eq_ok_iff] at accepted
    obtain ⟨⟨name, encoded⟩, split, chosen⟩ := accepted
    dsimp only at chosen
    split at chosen
    next named =>
      obtain ⟨rfl, unset⟩ := named
      obtain ⟨value, decoded, set⟩ := bind_eq_ok_iff.mp chosen
      exact Or.inl ⟨unset, value, ⟨encoded, split, decoded⟩, (Except.ok.inj set).symm⟩
    split at chosen
    next named =>
      obtain ⟨rfl, unset⟩ := named
      obtain ⟨value, decoded, set⟩ := bind_eq_ok_iff.mp chosen
      exact Or.inr (Or.inl ⟨unset, value, ⟨encoded, split, decoded⟩, (Except.ok.inj set).symm⟩)
    split at chosen
    next named =>
      obtain ⟨rfl, unset⟩ := named
      obtain ⟨value, decoded, set⟩ := bind_eq_ok_iff.mp chosen
      exact Or.inr (Or.inr ⟨unset, value, ⟨encoded, split, decoded⟩, (Except.ok.inj set).symm⟩)
    next => cases chosen
  · rintro (⟨unset, value, ⟨encoded, split, decoded⟩, rfl⟩ |
      ⟨unset, value, ⟨encoded, split, decoded⟩, rfl⟩ |
      ⟨unset, value, ⟨encoded, split, decoded⟩, rfl⟩) <;>
      simp [Form.parseField, split, decoded, unset, pure, Except.pure]

/-- Fields that fill a slot of the form: none, and the slot stays as it is, or one for an empty
slot. -/
inductive Fills {capacity : ℕ} (name : String) :
    Option (BoundedString capacity) → Option (BoundedString capacity) → List (List UInt8) → Prop
  where
  | kept (slot : Option (BoundedString capacity)) : Fills name slot slot []
  | filled {value : BoundedString capacity} {field : List UInt8}
      (encodes : EncodesField name value.text field) : Fills name none (some value) [field]

theorem Fills.of_mem {capacity : ℕ} {name : String} {slot slot' : Option (BoundedString capacity)}
    {fields : List (List UInt8)} {field : List UInt8} (fills : Fills name slot slot' fields)
    (member : field ∈ fields) :
    slot = none ∧ fields = [field] ∧ ∃ value : BoundedString capacity,
      EncodesField name value.text field ∧ slot' = some value := by
  cases fills with
  | kept slot => cases member
  | filled encodes =>
      obtain rfl := List.mem_singleton.mp member
      exact ⟨rfl, rfl, _, encodes, rfl⟩

theorem Fills.of_some {capacity : ℕ} {name : String} {value : BoundedString capacity}
    {slot : Option (BoundedString capacity)} {fields : List (List UInt8)}
    (fills : Fills name (some value) slot fields) : slot = some value ∧ fields = [] := by
  cases fills with
  | kept => exact ⟨rfl, rfl⟩

theorem Fills.of_nil {capacity : ℕ} {name : String} {slot slot' : Option (BoundedString capacity)}
    (fills : Fills name slot slot' []) : slot' = slot := by
  cases fills with
  | kept => rfl

/-- Fields that fill the slots of the form, in any order. -/
def FillsForm (form final : Form) (fields : List (List UInt8)) : Prop :=
  ∃ ssid password token, fields.Perm (ssid ++ password ++ token) ∧
    Fills "ssid" form.ssid final.ssid ssid ∧
    Fills "password" form.password final.password password ∧
    Fills "token" form.token final.token token

theorem fillsForm_nil_iff {form final : Form} : FillsForm form final [] ↔ form = final := by
  constructor
  · rintro ⟨ssid, password, token, nothing, ssidFills, passwordFills, tokenFills⟩
    obtain ⟨rfl, rfl, rfl⟩ : ssid = [] ∧ password = [] ∧ token = [] := by
      simpa using nothing.nil_eq.symm
    exact (Form.ext ssidFills.of_nil passwordFills.of_nil tokenFills.of_nil).symm
  · rintro rfl
    exact ⟨[], [], [], .refl _, .kept _, .kept _, .kept _⟩

/-- The first field fills one of the slots, and the others fill what is left. -/
theorem fillsForm_cons_iff {form final : Form} {field : String} {others : List (List UInt8)}
    (separated : 38 ∉ Text.bytes field) :
    FillsForm form final (Text.bytes field :: others) ↔
      ∃ next, form.parseField field = .ok next ∧ FillsForm next final others := by
  simp only [Form.parseField_eq_ok_iff separated]
  constructor
  · rintro ⟨ssid, password, token, order, ssidFills, passwordFills, tokenFills⟩
    have member := order.subset List.mem_cons_self
    rw [List.append_assoc, List.mem_append, List.mem_append] at member
    rcases member with member | member | member
    · obtain ⟨unset, rfl, value, encodes, set⟩ := ssidFills.of_mem member
      exact ⟨{ form with ssid := some value }, Or.inl ⟨unset, value, encodes, rfl⟩, [], password,
        token, order.cons_inv, set ▸ .kept _, passwordFills, tokenFills⟩
    · obtain ⟨unset, rfl, value, encodes, set⟩ := passwordFills.of_mem member
      have rest : others.Perm (ssid ++ [] ++ token) := by
        rw [List.append_nil]
        exact (order.trans (by simp [List.perm_middle])).cons_inv
      exact ⟨{ form with password := some value }, Or.inr (Or.inl ⟨unset, value, encodes, rfl⟩),
        ssid, [], token, rest, ssidFills, set ▸ .kept _, tokenFills⟩
    · obtain ⟨unset, rfl, value, encodes, set⟩ := tokenFills.of_mem member
      have rest : others.Perm (ssid ++ password ++ []) := by
        rw [List.append_nil]
        exact (order.trans (List.perm_append_singleton _ _)).cons_inv
      exact ⟨{ form with token := some value }, Or.inr (Or.inr ⟨unset, value, encodes, rfl⟩), ssid,
        password, [], rest, ssidFills, passwordFills, set ▸ .kept _⟩
  · rintro ⟨next, parsed, ssid, password, token, order, ssidFills, passwordFills, tokenFills⟩
    rcases parsed with ⟨unset, value, encodes, rfl⟩ | ⟨unset, value, encodes, rfl⟩ |
      ⟨unset, value, encodes, rfl⟩
    · obtain ⟨set, rfl⟩ := ssidFills.of_some
      refine ⟨[Text.bytes field], password, token, order.cons _, ?_, passwordFills, tokenFills⟩
      rw [unset, set]
      exact .filled encodes
    · obtain ⟨set, rfl⟩ := passwordFills.of_some
      refine ⟨ssid, [Text.bytes field], token, (order.cons _).trans ?_, ssidFills, ?_, tokenFills⟩
      · simpa using List.perm_middle.symm
      · rw [unset, set]
        exact .filled encodes
    · obtain ⟨set, rfl⟩ := tokenFills.of_some
      refine ⟨ssid, password, [Text.bytes field], (order.cons _).trans ?_, ssidFills,
        passwordFills, ?_⟩
      · rw [List.append_nil]
        exact (List.perm_append_singleton _ _).symm
      · rw [unset, set]
        exact .filled encodes

/-- **The loop over the fields fills the slots.** -/
theorem foldlM_parseField_eq_ok_iff (fields : List String) :
    ∀ {form final : Form}, (∀ field ∈ fields, 38 ∉ Text.bytes field) →
      (fields.foldlM Form.parseField form = .ok final ↔
        FillsForm form final (fields.map Text.bytes)) := by
  induction fields with
  | nil =>
      intro form final _
      rw [List.map_nil, fillsForm_nil_iff]
      exact ⟨Except.ok.inj, congrArg Except.ok⟩
  | cons field rest ih =>
      intro form final separated
      have first := separated field List.mem_cons_self
      have later : ∀ other ∈ rest, 38 ∉ Text.bytes other := fun other member =>
        separated other (List.mem_cons_of_mem field member)
      rw [List.foldlM_cons, List.map_cons, fillsForm_cons_iff first, bind_eq_ok_iff]
      exact exists_congr fun next => and_congr_right fun _ => ih later

/-! ## The form -/

theorem EncodesField.separated {name text : String} {field : List UInt8}
    (encodes : EncodesField name text field) (plain : 38 ∉ Text.bytes name) : 38 ∉ field := by
  obtain ⟨encoded, units, rfl⟩ := encodes
  simp [plain, units.separated]

theorem Fills.of_none {capacity : ℕ} {name : String} {value : BoundedString capacity}
    {fields : List (List UInt8)} (fills : Fills name none (some value) fields) :
    ∃ field, fields = [field] ∧ EncodesField name value.text field := by
  cases fills with
  | filled encodes => exact ⟨_, rfl, encodes⟩

/-- The pieces of a body between its `&`. -/
theorem foldlM_split_eq_ok_iff {body : String} {final : Form} :
    (Text.split '&' body).foldlM Form.parseField .empty = .ok final ↔
      FillsForm .empty final ((Text.bytes body).splitOn 38) := by
  have pieces : (Text.split '&' body).map Text.bytes = (Text.bytes body).splitOn 38 :=
    Text.split_bytes (by decide) body
  rw [← pieces]
  refine foldlM_parseField_eq_ok_iff _ fun field member => ?_
  exact Text.not_mem_of_mem_splitOn (pieces ▸ List.mem_map_of_mem member)

/-- **The form parser accepts exactly the encodings of configurations.** -/
theorem parseForm_eq_ok_iff {body : List UInt8} {config : DeviceConfig} :
    parseForm body = .ok config ↔ (Text.ofBytes? body).isSome ∧ EncodesForm body config := by
  simp only [parseForm, bind_eq_ok_iff, okOr_eq_ok_iff, foldlM_split_eq_ok_iff,
    mapError_eq_ok_iff]
  constructor
  · rintro ⟨text, read, form, ⟨ssidFields, passwordFields, tokenFields, order, ssidFills,
      passwordFills, tokenFills⟩, ssid, ssidSet, password, passwordSet, token, tokenSet, built⟩
    rw [ssidSet] at ssidFills
    rw [passwordSet] at passwordFills
    rw [tokenSet] at tokenFills
    obtain ⟨ssidField, rfl, ssidEncodes⟩ := ssidFills.of_none
    obtain ⟨passwordField, rfl, passwordEncodes⟩ := passwordFills.of_none
    obtain ⟨tokenField, rfl, tokenEncodes⟩ := tokenFills.of_none
    rw [Text.bytes_of_ofBytes? read] at order
    exact ⟨by rw [read]; rfl, ssid.text, password.text, token.text, ssidField, passwordField,
      tokenField, body.splitOn 38, ssidEncodes, ssid.fits, passwordEncodes, password.fits,
      tokenEncodes, token.fits, order, (List.intercalate_splitOn 38).symm, built⟩
  · rintro ⟨valid, ssid, password, token, ssidField, passwordField, tokenField, fields, ssidEncodes,
      ssidFits, passwordEncodes, passwordFits, tokenEncodes, tokenFits, order, rfl, built⟩
    obtain ⟨text, read⟩ := Option.isSome_iff_exists.mp valid
    have nonempty : fields ≠ [] := by
      rintro rfl
      exact absurd order.length_eq (by simp)
    have separated : ∀ field ∈ fields, 38 ∉ field := by
      intro field member
      have named := order.subset member
      simp only [List.mem_cons, List.not_mem_nil, or_false] at named
      rcases named with rfl | rfl | rfl
      · exact ssidEncodes.separated (by decide)
      · exact passwordEncodes.separated (by decide)
      · exact tokenEncodes.separated (by decide)
    refine ⟨text, read, ⟨some ⟨ssid, ssidFits⟩, some ⟨password, passwordFits⟩,
      some ⟨token, tokenFits⟩⟩, ?_, _, rfl, _, rfl, _, rfl, built⟩
    rw [Text.bytes_of_ofBytes? read, List.splitOn_intercalate 38 separated nonempty]
    exact ⟨[ssidField], [passwordField], [tokenField], order, .filled ssidEncodes,
      .filled passwordEncodes, .filled tokenEncodes⟩

/-- **The form parser and form encodings.** The parser accepts exactly the UTF-8 bodies that
encode what `new` accepts. A text has an encoding exactly if it has no NUL, and a configuration
is recovered from every encoding of its texts, with the fields in every order. -/
theorem form_codec :
    (∀ (body : List UInt8) (config : DeviceConfig),
      parseForm body = .ok config ↔ (Text.ofBytes? body).isSome ∧ EncodesForm body config) ∧
    (∀ text : String, (∃ encoded : String, Encodes (Text.bytes encoded) (Text.bytes text)) ↔
      0 ∉ Text.bytes text) ∧
    ∀ (ssid password token : String) (config : DeviceConfig),
      DeviceConfig.new ssid password token = .ok config →
      ∀ ssidEncoded passwordEncoded tokenEncoded : String,
        Encodes (Text.bytes ssidEncoded) (Text.bytes ssid) →
        Encodes (Text.bytes passwordEncoded) (Text.bytes password) →
        Encodes (Text.bytes tokenEncoded) (Text.bytes token) →
        ∀ fields : List String,
          fields.Perm
            ["ssid=" ++ ssidEncoded, "password=" ++ passwordEncoded, "token=" ++ tokenEncoded] →
          parseForm (Text.bytes ("&".intercalate fields)) = .ok config := by
  refine ⟨fun body config => parseForm_eq_ok_iff, fun text => ⟨?_, exists_encodes _⟩, ?_⟩
  · rintro ⟨encoded, encodes⟩
    exact encodes.nonzero
  · intro ssid password token config built ssidEncoded passwordEncoded tokenEncoded ssidEncodes
      passwordEncodes tokenEncodes fields order
    obtain ⟨⟨rfl, rfl, rfl⟩, valid⟩ := DeviceConfig.new_eq_ok_iff.mp built
    have field (name text encoded : String) (encodes : Encodes (Text.bytes encoded)
        (Text.bytes text)) : EncodesField name text (Text.bytes (name ++ "=" ++ encoded)) := by
      refine ⟨_, encodes, ?_⟩
      rw [Text.bytes_append, Text.bytes_append, List.append_assoc]
      rfl
    refine parseForm_eq_ok_iff.mpr ⟨by rw [Text.ofBytes?_bytes]; rfl, _, _, _, _, _, _,
      fields.map Text.bytes, field "ssid" _ _ ssidEncodes, config.ssid.fits,
      field "password" _ _ passwordEncodes, config.password.fits,
      field "token" _ _ tokenEncodes, config.token.fits, ?_, ?_, built⟩
    · exact order.map Text.bytes
    · rw [Text.bytes_intercalate]
      rfl

/-- A form for an open network, with the token first and an escape of either case. -/
theorem form_codec_openNetwork :
    parseForm (Text.bytes ("&".intercalate
      ["token=0123456789abcdef", "ssid=%68o%6De", "password="])) = .ok openNetwork := by
  have built : DeviceConfig.new "home" "" "0123456789abcdef" = .ok openNetwork :=
    DeviceConfig.new_eq_ok_iff.mpr ⟨⟨rfl, rfl, rfl⟩, openNetwork_valid⟩
  have ssid : Encodes (Text.bytes "%68o%6De") (Text.bytes "home") := by
    rw [show Text.bytes "%68o%6De" = [37, 54, 56, 111, 37, 54, 68, 101] by decide,
      show Text.bytes "home" = [104, 111, 109, 101] by decide]
    have six : IsHexDigit 54 6 := Or.inl ⟨by decide, rfl⟩
    have eight : IsHexDigit 56 8 := Or.inl ⟨by decide, rfl⟩
    have thirteen : IsHexDigit 68 13 := Or.inr ⟨by decide, by decide, Or.inl rfl⟩
    exact .percent six eight rfl (by decide)
      (.literal (by decide) (.percent six thirteen rfl (by decide) (.literal (by decide) .nil)))
  exact form_codec.2.2 "home" "" "0123456789abcdef" openNetwork built "%68o%6De" ""
    "0123456789abcdef" ssid .nil (.self (by decide +kernel)) _ (by decide +kernel)

end LaptopCooler.Firmware
