import ShipmentManager.Commands
import ShipmentManager.Reference

/-!
# The two validators of a shipment agree

`createShipmentSchema` and `updateShipmentSchema` check a body in Joi, and `shipmentSchema` checks the document or the
update in Mongoose.  On bodies whose fields are strings both come down to the same condition (`CreatableBody`,
`UpdatableBody`), so each accepts what the other accepts, and what Joi hands on is stored as it is
(`validators_agree`).
-/

namespace ShipmentManager

/-- A body whose known fields are strings where they are present. -/
def TextBody (o : JsObject) : Prop := ∀ f ∈ bodyKeys, ∀ v, Obj.get? o f = some v → ∃ t, v = .str t

/-- A body with well formed text fields, and a status, if it has one, that is one of the four. -/
structure CreatableBody (o : JsObject) : Prop where
  text : ∀ f max, (f, max) ∈ textFields → ∃ t, Obj.get? o f = some (.str t) ∧ FieldText max (trim t)
  status : Obj.get? o "status" = none ∨ ∃ t ∈ statusValues, Obj.get? o "status" = some (.str t)

/-- The same of the fields that are present. -/
structure UpdatableBody (o : JsObject) : Prop where
  text : ∀ f max, (f, max) ∈ textFields →
    Obj.get? o f = none ∨ ∃ t, Obj.get? o f = some (.str t) ∧ FieldText max (trim t)
  status : Obj.get? o "status" = none ∨ ∃ t ∈ statusValues, Obj.get? o "status" = some (.str t)

/-! ### Joi -/

section Joi

variable {s : ObjectSchema} {c : JoiConversions} {o : JsObject}

theorem keyPasses_string {k : String} {ks : KeySchema} {r : StringRules} (hr : ks.type = .string r) :
    s.keyPasses c o k ks = true ↔ (Obj.get? o k = none ∧ ks.required = false) ∨
      ∃ v t, Obj.get? o k = some v ∧ r.convert v = some t := by
  unfold ObjectSchema.keyPasses
  cases hv : Obj.get? o k with
  | none => simp
  | some v =>
    simp only [hr, KeyType.convert, reduceCtorEq, false_and, false_or, Option.some.injEq]
    cases hc : r.convert v with
    | none => simp [hc]
    | some t => simp [hc, KeyType.refHolds]

private theorem keyPasses_createText {f label : String} {max : Nat} :
    s.keyPasses c o f (createText label max) = true ↔ ∃ t, Obj.get? o f = some (.str t) ∧ FieldText max (trim t) := by
  rw [keyPasses_string rfl]
  simp only [convert_textRules]
  constructor
  · rintro (⟨-, hreq⟩ | ⟨v, t, hv, t', rfl, rfl, ht⟩)
    · cases hreq
    · exact ⟨t', hv, ht⟩
  · rintro ⟨t, hv, ht⟩
    exact Or.inr ⟨_, _, hv, t, rfl, rfl, ht⟩

private theorem keyPasses_updateText {f label : String} {max : Nat} :
    s.keyPasses c o f (updateText label max) = true ↔
      Obj.get? o f = none ∨ ∃ t, Obj.get? o f = some (.str t) ∧ FieldText max (trim t) := by
  rw [keyPasses_string rfl]
  simp only [convert_textRules]
  constructor
  · rintro (⟨hn, -⟩ | ⟨v, t, hv, t', rfl, rfl, ht⟩)
    · exact Or.inl hn
    · exact Or.inr ⟨t', hv, ht⟩
  · rintro (hn | ⟨t, hv, ht⟩)
    · exact Or.inl ⟨hn, rfl⟩
    · exact Or.inr ⟨_, _, hv, t, rfl, rfl, ht⟩

private theorem keyPasses_status {ks : KeySchema} (hr : ks.type = .string { valid := some statusValues })
    (hreq : ks.required = false) : s.keyPasses c o "status" ks = true ↔
      Obj.get? o "status" = none ∨ ∃ t ∈ statusValues, Obj.get? o "status" = some (.str t) := by
  rw [keyPasses_string hr]
  simp only [StringRules.convert_valid, hreq, and_true]
  constructor
  · rintro (hn | ⟨v, t, hv, rfl, ht⟩)
    · exact Or.inl hn
    · exact Or.inr ⟨t, ht, hv⟩
  · rintro (hn | ⟨t, ht, hv⟩)
    · exact Or.inl hn
    · exact Or.inr ⟨_, t, hv, rfl, ht⟩

private theorem mem_createKeys {k : String} {ks : KeySchema} (h : (k, ks) ∈ createShipmentSchema.keys) :
    (∃ label max, (k, max) ∈ textFields ∧ ks = createText label max) ∨
      k = "status" ∧ ks.type = .string { valid := some statusValues } ∧ ks.required = false := by
  simp only [createShipmentSchema, List.mem_cons, Prod.mk.injEq, List.not_mem_nil, or_false] at h
  rcases h with ⟨rfl, rfl⟩ | ⟨rfl, rfl⟩ | ⟨rfl, rfl⟩ | ⟨rfl, rfl⟩ | ⟨rfl, rfl⟩
  · exact Or.inl ⟨_, 100, by simp [textFields], rfl⟩
  · exact Or.inl ⟨_, 100, by simp [textFields], rfl⟩
  · exact Or.inl ⟨_, 200, by simp [textFields], rfl⟩
  · exact Or.inl ⟨_, 200, by simp [textFields], rfl⟩
  · exact Or.inr ⟨rfl, rfl, rfl⟩

private theorem mem_updateKeys {k : String} {ks : KeySchema} (h : (k, ks) ∈ updateShipmentSchema.keys) :
    (∃ label max, (k, max) ∈ textFields ∧ ks = updateText label max) ∨
      k = "status" ∧ ks.type = .string { valid := some statusValues } ∧ ks.required = false := by
  simp only [updateShipmentSchema, List.mem_cons, Prod.mk.injEq, List.not_mem_nil, or_false] at h
  rcases h with ⟨rfl, rfl⟩ | ⟨rfl, rfl⟩ | ⟨rfl, rfl⟩ | ⟨rfl, rfl⟩ | ⟨rfl, rfl⟩
  · exact Or.inl ⟨_, 100, by simp [textFields], rfl⟩
  · exact Or.inl ⟨_, 100, by simp [textFields], rfl⟩
  · exact Or.inl ⟨_, 200, by simp [textFields], rfl⟩
  · exact Or.inl ⟨_, 200, by simp [textFields], rfl⟩
  · exact Or.inr ⟨rfl, rfl, rfl⟩

/-- What `createShipmentSchema` accepts. -/
theorem accepts_create_iff : createShipmentSchema.accepts c o = true ↔ CreatableBody o := by
  constructor
  · intro h
    refine ⟨fun f max hf => ?_, (keyPasses_status rfl rfl).1 (ObjectSchema.keyPasses_of_accepts h rfl)⟩
    obtain ⟨label, hget⟩ := text_create hf
    exact keyPasses_createText.1 (ObjectSchema.keyPasses_of_accepts h hget)
  · intro h
    have hmin : createShipmentSchema.min = none := rfl
    unfold ObjectSchema.accepts
    simp only [hmin, Option.all_none, Bool.and_true, List.all_eq_true]
    rintro ⟨k, ks⟩ hk
    rcases mem_createKeys hk with ⟨label, max, hf, rfl⟩ | ⟨rfl, htype, hreq⟩
    · exact keyPasses_createText.2 (h.text k max hf)
    · exact (keyPasses_status htype hreq).2 h.status

private theorem passes_update_iff :
    (∀ p ∈ updateShipmentSchema.keys, updateShipmentSchema.keyPasses c o p.1 p.2 = true) ↔ UpdatableBody o := by
  constructor
  · intro h
    refine ⟨fun f max hf => ?_, (keyPasses_status rfl rfl).1 (h ("status", _) (Obj.mem_of_get? rfl))⟩
    obtain ⟨label, hget⟩ := text_update hf
    exact keyPasses_updateText.1 (h (f, _) (Obj.mem_of_get? hget))
  · rintro h ⟨k, ks⟩ hk
    rcases mem_updateKeys hk with ⟨label, max, hf, rfl⟩ | ⟨rfl, htype, hreq⟩
    · exact keyPasses_updateText.2 (h.text k max hf)
    · exact (keyPasses_status htype hreq).2 h.status

/-- A key without a default is in the result when it is in the body. -/
private theorem isSome_outputAt_update (h : UpdatableBody o) {k : String} (hk : k ∈ bodyKeys) :
    (updateShipmentSchema.outputAt c o k).isSome = true ↔ Obj.get? o k ≠ none := by
  obtain ⟨ks, hget, hdefault⟩ : ∃ ks, Obj.get? updateShipmentSchema.keys k = some ks ∧ ks.default = none := by
    simp only [bodyKeys, List.mem_cons, List.not_mem_nil, or_false] at hk
    rcases hk with rfl | rfl | rfl | rfl | rfl <;> exact ⟨_, rfl, rfl⟩
  have hpass := (passes_update_iff (c := c)).2 h (k, ks) (Obj.mem_of_get? hget)
  unfold ObjectSchema.keyPasses at hpass
  unfold ObjectSchema.outputAt
  simp only [hget]
  cases hv : Obj.get? o k with
  | none => simp [hdefault]
  | some v =>
    simp only [hv] at hpass
    cases hc : ks.type.convert c v with
    | none => simp [hc] at hpass
    | some out => simp [hc]

/-- What `updateShipmentSchema` accepts. -/
theorem accepts_update_iff : updateShipmentSchema.accepts c o = true ↔
    UpdatableBody o ∧ ∃ f ∈ bodyKeys, Obj.get? o f ≠ none := by
  have hmin : updateShipmentSchema.min = some 1 := rfl
  have hkeys : updateShipmentSchema.keys.map Prod.fst = bodyKeys := rfl
  unfold ObjectSchema.accepts
  simp only [hmin, Option.all_some, Bool.and_eq_true, List.all_eq_true, decide_eq_true_eq, passes_update_iff]
  refine and_congr_right fun h => ?_
  rw [Nat.one_le_iff_ne_zero, ← Nat.pos_iff_ne_zero, List.length_filter_pos_iff, ← hkeys]
  constructor
  · rintro ⟨p, hp, hsome⟩
    have hmem := List.mem_map_of_mem (f := Prod.fst) hp
    exact ⟨p.1, hmem, (isSome_outputAt_update h (hkeys ▸ hmem)).1 hsome⟩
  · rintro ⟨f, hf, hne⟩
    obtain ⟨p, hp, rfl⟩ := List.mem_map.1 hf
    exact ⟨p, hp, (isSome_outputAt_update h (hkeys ▸ hf)).2 hne⟩

end Joi

/-! ### Mongoose -/

/-- The five fields of a body. -/
def fieldsOf (o : JsObject) : JsObject := o.filter fun p => p.1 ∈ bodyKeys

/-- The five fields of a body with a generated tracking number. -/
def documentOf (draws : Draws) (o : JsObject) : JsObject :=
  Obj.set (fieldsOf o) "trackingNumber" (.str (generateTrackingNumber draws.today draws.random))

section Mongoose

variable {draws : Draws} {o : JsObject}

theorem get?_fieldsOf (o : JsObject) (k : String) :
    Obj.get? (fieldsOf o) k = if k ∈ bodyKeys then Obj.get? o k else none := by
  unfold fieldsOf
  induction o with
  | nil => simp
  | cons p o ih =>
    obtain ⟨k', v⟩ := p
    by_cases hmem : k' ∈ bodyKeys
    · rw [List.filter_cons_of_pos (by simpa using hmem), Obj.get?_cons, Obj.get?_cons, ih]
      by_cases hk : k' = k
      · subst hk
        simp [hmem]
      · simp [hk]
    · rw [List.filter_cons_of_neg (by simpa using hmem), Obj.get?_cons, ih]
      by_cases hk : k' = k
      · subst hk
        simp [hmem]
      · simp [hk]

theorem get?_documentOf (draws : Draws) (o : JsObject) (k : String) : Obj.get? (documentOf draws o) k =
    if k = "trackingNumber" then some (.str (generateTrackingNumber draws.today draws.random))
    else Obj.get? (fieldsOf o) k := by
  rw [documentOf, Obj.get?_set]
  simp only [eq_comm]

/-- The string that a field of a body is. -/
theorem TextBody.cases (h : TextBody o) {f : String} (hf : f ∈ bodyKeys) :
    Obj.get? o f = none ∨ ∃ t, Obj.get? o f = some (.str t) := by
  cases hv : Obj.get? o f with
  | none => exact Or.inl rfl
  | some v =>
    obtain ⟨t, rfl⟩ := h f hf v hv
    exact Or.inr ⟨t, rfl⟩

theorem mem_bodyKeys_of_textFields {f : String} {max : Nat} (h : (f, max) ∈ textFields) :
    f ∈ bodyKeys ∧ f ≠ "trackingNumber" := by
  simp only [textFields, List.mem_cons, Prod.mk.injEq, List.not_mem_nil, or_false] at h
  rcases h with ⟨rfl, -⟩ | ⟨rfl, -⟩ | ⟨rfl, -⟩ | ⟨rfl, -⟩ <;> decide

private theorem allText_fieldsOf (h : TextBody o) : AllText (fieldsOf o) := by
  refine ⟨fun path p _ v hv => ?_, fun path hpath => ?_⟩
  · rw [get?_fieldsOf] at hv
    split at hv
    · rename_i hf
      exact h path hf v hv
    · cases hv
  · rw [get?_fieldsOf, if_neg (not_bodyKey hpath).2]

private theorem allText_documentOf (h : TextBody o) : AllText (documentOf draws o) := by
  refine ⟨fun path p hp v hv => ?_, fun path hpath => ?_⟩
  · rw [get?_documentOf] at hv
    split at hv
    · exact ⟨_, (Option.some.inj hv).symm⟩
    · exact (allText_fieldsOf h).text path p hp v hv
  · rw [get?_documentOf, if_neg (not_bodyKey hpath).1]
    exact (allText_fieldsOf h).other path hpath

theorem textPath_valid_iff {required label : String} {max : Nat} {t : Text} :
    (textPath required label max).valid (some t) = true ↔ 2 ≤ t.length ∧ t.length ≤ max := by
  have hne : 2 ≤ t.length → t ≠ [] := by
    rintro h rfl
    simp at h
  simp only [PathSchema.valid, textPath, Option.isNone_some, Bool.false_or, Option.all_some, Option.all_none,
    Bool.and_true, Bool.and_eq_true, decide_eq_true_eq]
  exact ⟨fun h => ⟨h.1.2, h.2⟩, fun h => ⟨⟨hne h.1, h.1⟩, h.2⟩⟩

theorem statusPath_valid_iff {t : Text} : statusPath.valid (some t) = true ↔ t ∈ statusValues := by
  refine ⟨fun h => ?_, statusPath_valid⟩
  simp only [PathSchema.valid, statusPath, Bool.and_eq_true, Option.all_some, List.contains_iff_mem] at h
  exact h.2

theorem given_str {p : PathSchema} {data : JsObject} {k : String} {t : Text} (h : Obj.get? data k = some (.str t)) :
    p.given data k = some (p.cast t) := by
  rw [PathSchema.given, h]

private theorem given_fieldsOf {p : PathSchema} {k : String} (hk : k ∈ bodyKeys) :
    p.given (fieldsOf o) k = p.given o k := by
  unfold PathSchema.given
  rw [get?_fieldsOf, if_pos hk]

private theorem initial_documentOf {p : PathSchema} {k : String} (hk : k ∈ bodyKeys) :
    p.initial (documentOf draws o) k = p.initial o k := by
  have hne : k ≠ "trackingNumber" := by
    rintro rfl
    exact absurd hk (by decide)
  unfold PathSchema.initial PathSchema.given
  rw [get?_documentOf, if_neg hne, get?_fieldsOf, if_pos hk]

/-- What Mongoose makes of a document with the five fields of a body. -/
theorem valid_documentOf_iff (h : TextBody o) :
    (∀ path p, (path, p) ∈ shipmentSchema → p.valid (p.initial (documentOf draws o) path) = true) ↔
      CreatableBody o := by
  constructor
  · intro hvalid
    refine ⟨fun f max hf => ?_, ?_⟩
    · obtain ⟨required, label, hmem⟩ := mem_schema_text hf
      have hpath := hvalid f _ hmem
      rw [initial_documentOf (mem_bodyKeys_of_textFields hf).1] at hpath
      rcases h.cases (mem_bodyKeys_of_textFields hf).1 with hv | ⟨t, hv⟩
      · rw [PathSchema.initial, given_missing hv] at hpath
        cases hpath
      · rw [PathSchema.initial, given_str hv] at hpath
        exact ⟨t, hv, trim_trimmed t, textPath_valid_iff.1 hpath⟩
    · have hpath := hvalid "status" statusPath (by simp [shipmentSchema])
      rw [initial_documentOf (by decide)] at hpath
      rcases h.cases (f := "status") (by decide) with hv | ⟨t, hv⟩
      · exact Or.inl hv
      · rw [PathSchema.initial, given_str hv] at hpath
        exact Or.inr ⟨t, statusPath_valid_iff.1 hpath, hv⟩
  · intro hbody path p hp
    rcases mem_schema hp with ⟨rfl, rfl⟩ | ⟨_, _, max, hf, rfl⟩ | ⟨rfl, rfl⟩
    · have hget : Obj.get? (documentOf draws o) "trackingNumber" = _ := get?_documentOf draws o "trackingNumber"
      rw [PathSchema.initial, given_str hget]
      simp [PathSchema.valid, trackingNumberPath, PathSchema.cast, trim_trackingNumber]
    · obtain ⟨t, hv, ht⟩ := hbody.text path max hf
      rw [initial_documentOf (mem_bodyKeys_of_textFields hf).1, PathSchema.initial, given_str hv]
      exact textPath_valid_iff.2 ht.2
    · rw [initial_documentOf (by decide)]
      rcases hbody.status with hv | ⟨t, ht, hv⟩
      · rw [PathSchema.initial, given_missing hv]
        exact statusPath_valid (by decide)
      · rw [PathSchema.initial, given_str hv]
        exact statusPath_valid ht

/-- What Mongoose makes of an update with the five fields of a body. -/
theorem valid_fieldsOf_iff (h : TextBody o) :
    (∀ path p, (path, p) ∈ shipmentSchema → ∀ t, p.given (fieldsOf o) path = some t → p.valid (some t) = true) ↔
      UpdatableBody o := by
  constructor
  · intro hvalid
    refine ⟨fun f max hf => ?_, ?_⟩
    · obtain ⟨required, label, hmem⟩ := mem_schema_text hf
      refine (h.cases (mem_bodyKeys_of_textFields hf).1).imp_right fun ⟨t, hv⟩ => ?_
      have hgiven := given_fieldsOf (p := textPath required label max) (o := o) (mem_bodyKeys_of_textFields hf).1
      rw [given_str hv] at hgiven
      exact ⟨t, hv, trim_trimmed t, textPath_valid_iff.1 (hvalid f _ hmem _ hgiven)⟩
    · refine (h.cases (by decide)).imp_right fun ⟨t, hv⟩ => ?_
      have hgiven := given_fieldsOf (p := statusPath) (o := o) (k := "status") (by decide)
      rw [given_str hv] at hgiven
      exact ⟨t, statusPath_valid_iff.1 (hvalid "status" statusPath (by simp [shipmentSchema]) _ hgiven), hv⟩
  · intro hbody path p hp t ht
    rcases mem_schema hp with ⟨rfl, rfl⟩ | ⟨_, _, max, hf, rfl⟩ | ⟨rfl, rfl⟩
    · have hget : Obj.get? (fieldsOf o) "trackingNumber" = none := by rw [get?_fieldsOf, if_neg (by decide)]
      rw [given_missing hget] at ht
      cases ht
    · rw [given_fieldsOf (mem_bodyKeys_of_textFields hf).1] at ht
      rcases hbody.text path max hf with hv | ⟨t', hv, ht'⟩
      · rw [given_missing hv] at ht
        cases ht
      · rw [given_str hv] at ht
        cases ht
        exact textPath_valid_iff.2 ht'.2
    · rw [given_fieldsOf (by decide)] at ht
      rcases hbody.status with hv | ⟨t', ht', hv⟩
      · rw [given_missing hv] at ht
        cases ht
      · rw [given_str hv] at ht
        cases ht
        exact statusPath_valid ht'

end Mongoose

/-! ### Agreement -/

/-- The shipment holds the five fields as the validator handed them on. -/
def StoresFields (out : JsObject) (s : Shipment) : Prop := ∀ f ∈ bodyKeys, Obj.get? out f = (s.text? f).map .str

/-- `createShipmentSchema` accepts the body exactly when Mongoose accepts the document of its five fields; what it hands
on is stored as it is, with the default that Mongoose has for the body itself, and is accepted again unchanged. -/
structure CreateAgrees (J : Joi) (model : ShipmentModel) (o : JsObject) : Prop where
  accepted : ∀ draws id now, (∃ out, J.validate createShipmentSchema (.obj o) = .ok out) ↔
    ∃ s, model.build (documentOf draws o) id now = .ok s
  stored : ∀ out, J.validate createShipmentSchema (.obj o) = .ok out → ∀ draws id now,
    ∃ s, model.build (saveData draws out) id now = .ok s ∧ StoresFields out s
  same : ∀ out, J.validate createShipmentSchema (.obj o) = .ok out → ∀ draws id now s,
    model.build (documentOf draws o) id now = .ok s → StoresFields out s
  again : ∀ out, J.validate createShipmentSchema (.obj o) = .ok out →
    ∃ out', J.validate createShipmentSchema (.obj out) = .ok out' ∧ ∀ k, Obj.get? out' k = Obj.get? out k

/-- `updateShipmentSchema` accepts the body exactly when Mongoose accepts the `$set` of its five fields; what it hands
on is set as it is, and is accepted again unchanged. -/
structure UpdateAgrees (J : Joi) (model : ShipmentModel) (o : JsObject) : Prop where
  accepted : ∀ now, (∃ out, J.validate updateShipmentSchema (.obj o) = .ok out) ↔
    ∃ u, model.castUpdate (fieldsOf o) now = .ok u
  stored : ∀ out, J.validate updateShipmentSchema (.obj o) = .ok out → ∀ now,
    ∃ u, model.castUpdate out now = .ok u ∧ ∀ f ∈ bodyKeys, Obj.get? out f = (u.set f).map .str
  again : ∀ out, J.validate updateShipmentSchema (.obj o) = .ok out →
    ∃ out', J.validate updateShipmentSchema (.obj out) = .ok out' ∧ ∀ k, Obj.get? out' k = Obj.get? out k

section Agree

variable {J : Joi} {model : ShipmentModel} {o out out' : JsObject}

/-- What the validator handed on is a body that it accepts. -/
private theorem CreateOutput.creatable (h : CreateOutput o out) : CreatableBody out := by
  refine ⟨fun f max hf => ?_, ?_⟩
  · obtain ⟨t, -, hout, ht⟩ := h.text f max hf
    exact ⟨trim t, hout, by rw [ht.1]; exact ht⟩
  · rcases h.status with ⟨-, hout⟩ | ⟨t, ht, -, hout⟩
    · exact Or.inr ⟨_, by decide, hout⟩
    · exact Or.inr ⟨t, ht, hout⟩

private theorem CreateOutput.unchanged (h : CreateOutput o out) (h' : CreateOutput out out') (k : String) :
    Obj.get? out' k = Obj.get? out k := by
  by_cases hk : k ∈ bodyKeys
  · rcases mem_bodyKeys hk with ⟨max, hf⟩ | rfl
    · obtain ⟨t, -, hout, ht⟩ := h.text k max hf
      obtain ⟨t', hout', houts, -⟩ := h'.text k max hf
      rw [hout] at hout'
      cases hout'
      rw [houts, hout, ht.1]
    · rcases h'.status with ⟨hnone, -⟩ | ⟨t, -, hout, hout'⟩
      · rcases h.status with ⟨-, hout⟩ | ⟨t, -, -, hout⟩
        · rw [hout] at hnone
          cases hnone
        · rw [hout] at hnone
          cases hnone
      · rw [hout, hout']
  · rw [h.other k hk, h'.other k hk]

private theorem UpdateOutput.updatable (h : UpdateOutput o out) (hsome : ∃ f ∈ bodyKeys, Obj.get? o f ≠ none) :
    UpdatableBody out ∧ ∃ f ∈ bodyKeys, Obj.get? out f ≠ none := by
  refine ⟨⟨fun f max hf => ?_, ?_⟩, ?_⟩
  · rcases h.text f max hf with ⟨-, hout⟩ | ⟨t, -, hout, ht⟩
    · exact Or.inl hout
    · exact Or.inr ⟨trim t, hout, by rw [ht.1]; exact ht⟩
  · rcases h.status with ⟨-, hout⟩ | ⟨t, ht, -, hout⟩
    · exact Or.inl hout
    · exact Or.inr ⟨t, ht, hout⟩
  · obtain ⟨f, hf, hne⟩ := hsome
    refine ⟨f, hf, fun hnone => hne ?_⟩
    rcases mem_bodyKeys hf with ⟨max, hmem⟩ | rfl
    · rcases h.text f max hmem with ⟨ho, -⟩ | ⟨t, -, hout, -⟩
      · exact ho
      · rw [hout] at hnone
        cases hnone
    · rcases h.status with ⟨ho, -⟩ | ⟨t, -, -, hout⟩
      · exact ho
      · rw [hout] at hnone
        cases hnone

private theorem UpdateOutput.unchanged (h : UpdateOutput o out) (h' : UpdateOutput out out') (k : String) :
    Obj.get? out' k = Obj.get? out k := by
  by_cases hk : k ∈ bodyKeys
  · rcases mem_bodyKeys hk with ⟨max, hf⟩ | rfl
    · rcases h'.text k max hf with ⟨hnone, hout'⟩ | ⟨t', hout', houts, -⟩
      · rw [hnone, hout']
      · rcases h.text k max hf with ⟨-, hout⟩ | ⟨t, -, hout, ht⟩
        · rw [hout] at hout'
          cases hout'
        · rw [hout] at hout'
          cases hout'
          rw [houts, hout, ht.1]
    · rcases h'.status with ⟨hnone, hout'⟩ | ⟨t, -, hout, hout'⟩
      · rw [hnone, hout']
      · rw [hout, hout']
  · rw [h.other k hk, h'.other k hk]

private theorem createAgrees (h : TextBody o) : CreateAgrees J model o where
  accepted draws id now := by
    rw [J.validate_accepts, accepts_create_iff, model.build_accepts _ _ _ (allText_documentOf h),
      valid_documentOf_iff h]
  stored out hvalid draws id now := by
    obtain ⟨o', ho', hout⟩ := create_output (JsValue.obj_ne_str o) hvalid
    cases ho'
    obtain ⟨s, hs, -, -, -, hbody⟩ := build_saveData model draws hout id now
    exact ⟨s, hs, fun f hf => hbody.text?_eq hout hf⟩
  same out hvalid draws id now s hs := by
    obtain ⟨o', ho', hout⟩ := create_output (JsValue.obj_ne_str o) hvalid
    cases ho'
    have htext := model.build_text _ id now s (allText_documentOf h) hs
    intro f hf
    rcases mem_bodyKeys hf with ⟨max, hmem⟩ | rfl
    · obtain ⟨t, ho, hd, -⟩ := hout.text f max hmem
      obtain ⟨required, label, hpath⟩ := mem_schema_text hmem
      rw [htext f _ hpath, initial_documentOf hf, PathSchema.initial, given_str ho, hd]
      rfl
    · rw [htext "status" statusPath (by simp [shipmentSchema]), initial_documentOf hf, PathSchema.initial]
      rcases hout.status with ⟨ho, hd⟩ | ⟨t, -, ho, hd⟩
      · rw [given_missing ho, hd]
        rfl
      · rw [given_str ho, hd]
        rfl
  again out hvalid := by
    obtain ⟨o', ho', hout⟩ := create_output (JsValue.obj_ne_str o) hvalid
    cases ho'
    obtain ⟨out', hvalid'⟩ := (J.validate_accepts _ out).2 (accepts_create_iff.2 hout.creatable)
    obtain ⟨out'', ho'', hout'⟩ := create_output (JsValue.obj_ne_str out) hvalid'
    cases ho''
    exact ⟨out', hvalid', hout.unchanged hout'⟩

private theorem updateAgrees (h : TextBody o) (hsome : ∃ f ∈ bodyKeys, Obj.get? o f ≠ none) :
    UpdateAgrees J model o where
  accepted now := by
    rw [J.validate_accepts, accepts_update_iff, and_iff_left hsome, model.castUpdate_accepts _ _ (allText_fieldsOf h),
      valid_fieldsOf_iff h]
  stored out hvalid now := by
    obtain ⟨o', ho', hout⟩ := update_output (JsValue.obj_ne_str o) hvalid
    cases ho'
    obtain ⟨u, hu, -, hbody⟩ := castUpdate_output model hout now
    exact ⟨u, hu, fun f hf => hbody.set_eq hout hf⟩
  again out hvalid := by
    obtain ⟨o', ho', hout⟩ := update_output (JsValue.obj_ne_str o) hvalid
    cases ho'
    obtain ⟨out', hvalid'⟩ := (J.validate_accepts _ out).2 (accepts_update_iff.2 (hout.updatable hsome))
    obtain ⟨out'', ho'', hout'⟩ := update_output (JsValue.obj_ne_str out) hvalid'
    cases ho''
    exact ⟨out', hvalid', hout.unchanged hout'⟩

/-- The two validators of a shipment agree on every body whose fields are strings. -/
theorem validators_agree (J : Joi) (model : ShipmentModel) {o : JsObject} (h : TextBody o) :
    CreateAgrees J model o ∧ ((∃ f ∈ bodyKeys, Obj.get? o f ≠ none) → UpdateAgrees J model o) :=
  ⟨createAgrees h, updateAgrees h⟩

end Agree

/-- A body that both schemas accept, with white space around a name and without a status. -/
def paddedBody : JsObject :=
  [("senderName", .str (js " Ann ")), ("receiverName", .str (js "Bob")), ("origin", .str (js "Rome")),
    ("destination", .str (js "Oslo"))]

theorem paddedBody_text : TextBody paddedBody := by
  intro f hf v hv
  simp only [bodyKeys, List.mem_cons, List.not_mem_nil, or_false] at hf
  rcases hf with rfl | rfl | rfl | rfl | rfl
  · exact ⟨_, (Option.some.inj hv).symm⟩
  · exact ⟨_, (Option.some.inj hv).symm⟩
  · exact ⟨_, (Option.some.inj hv).symm⟩
  · exact ⟨_, (Option.some.inj hv).symm⟩
  · cases hv

theorem validators_agree_padded : CreateAgrees referenceJoi referenceModel paddedBody ∧
    UpdateAgrees referenceJoi referenceModel paddedBody := by
  obtain ⟨hcreate, hupdate⟩ := validators_agree referenceJoi referenceModel paddedBody_text
  exact ⟨hcreate, hupdate ⟨"origin", by decide, by simp [paddedBody, Obj.get?]⟩⟩

end ShipmentManager
