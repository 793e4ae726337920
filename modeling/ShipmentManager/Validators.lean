import ShipmentManager.Joi

/-!
# The validation schemas

The four schemas of the routes, and for each what it lets through: which texts the four text fields and the status of an
accepted body hold, and that nothing else is handed on (`create_output`, `update_output`); an accepted identifier is 24
hexadecimal digits (`id_output`).
-/

namespace ShipmentManager

def textMessages (label empty : String) (max : Nat) : List (String × String) :=
  [("string.base", label ++ " must be a string"), ("string.empty", empty),
    ("string.min", label ++ " must be at least 2 characters"),
    ("string.max", label ++ " must be at most " ++ toString max ++ " characters")]

def textRules (max : Nat) : StringRules := { trim := true, min := some 2, max := some max }

/-- A required text field of `createShipmentSchema`. -/
def createText (label : String) (max : Nat) : KeySchema where
  type := .string (textRules max)
  required := true
  messages := textMessages label (label ++ " is required") max ++ [("any.required", label ++ " is required")]

/-- An optional text field of `updateShipmentSchema`. -/
def updateText (label : String) (max : Nat) : KeySchema where
  type := .string (textRules max)
  messages := textMessages label (label ++ " cannot be empty") max

def statusMessages (label : String) : List (String × String) :=
  [("string.base", label ++ " must be a string"),
    ("any.only", label ++ " must be one of: pending, in_transit, delivered, cancelled")]

def createShipmentSchema : ObjectSchema where
  keys :=
    [("senderName", createText "Sender name" 100), ("receiverName", createText "Receiver name" 100),
      ("origin", createText "Origin" 200), ("destination", createText "Destination" 200),
      ("status", { type := .string { valid := some statusValues }, default := some ShipmentStatus.pending.value,
                   messages := statusMessages "Status" })]

def updateShipmentSchema : ObjectSchema where
  keys :=
    [("senderName", updateText "Sender name" 100), ("receiverName", updateText "Receiver name" 100),
      ("origin", updateText "Origin" 200), ("destination", updateText "Destination" 200),
      ("status", { type := .string { valid := some statusValues }, messages := statusMessages "Status" })]
  min := some 1
  messages := [("object.min", "At least one field must be provided for update")]

def isHexDigit (u : UInt16) : Bool := (48 ≤ u && u ≤ 57) || (65 ≤ u && u ≤ 70) || (97 ≤ u && u ≤ 102)

/-- The pattern `/^[0-9a-fA-F]{24}$/`. -/
def isObjectIdText (t : Text) : Bool := t.length = 24 && t.all isHexDigit

def shipmentIdSchema : ObjectSchema where
  keys :=
    [("id", { type := .string { pattern := some isObjectIdText }, required := true,
              messages := [("string.base", "Shipment ID must be a string"), ("string.empty", "Shipment ID is required"),
                ("string.pattern.base", "Shipment ID must be a valid MongoDB ObjectId"),
                ("any.required", "Shipment ID is required")] })]

/-- The fields that a listing may be sorted by. -/
def sortFields : List Text :=
  ["createdAt", "updatedAt", "senderName", "receiverName", "origin", "destination", "status", "trackingNumber"].map js

def listShipmentsQuerySchema : ObjectSchema where
  keys :=
    [("page", { type := .integer,
                messages := [("number.base", "Page must be a number"),
                  ("number.integer", "Page must be an integer")] }),
      ("limit", { type := .integer,
                  messages := [("number.base", "Limit must be a number"),
                    ("number.integer", "Limit must be an integer")] }),
      ("sortBy", { type := .string { valid := some sortFields },
                   messages := [("string.base", "sortBy must be a string"),
                     ("any.only", "sortBy must be one of: createdAt, updatedAt, senderName, receiverName, origin, " ++
                       "destination, status, trackingNumber")] }),
      ("order", { type := .string { valid := some [js "asc", js "desc"] },
                  messages := [("string.base", "order must be a string"),
                    ("any.only", "order must be either \"asc\" or \"desc\"")] }),
      ("status", { type := .string { valid := some statusValues }, messages := statusMessages "status" }),
      ("origin", { type := .string { trim := true, max := some 200 },
                   messages := [("string.base", "origin must be a string"),
                     ("string.max", "origin filter must be at most 200 characters")] }),
      ("destination", { type := .string { trim := true, max := some 200 },
                        messages := [("string.base", "destination must be a string"),
                          ("string.max", "destination filter must be at most 200 characters")] }),
      ("search", { type := .string { trim := true, max := some 100 },
                   messages := [("string.base", "search must be a string"),
                     ("string.max", "search term must be at most 100 characters")] }),
      ("startDate", { type := .isoDate none,
                      messages := [("date.base", "startDate must be a valid date"),
                        ("date.format", "startDate must be in ISO 8601 format (e.g., 2024-01-01)")] }),
      ("endDate", { type := .isoDate (some "startDate"),
                    messages := [("date.base", "endDate must be a valid date"),
                      ("date.format", "endDate must be in ISO 8601 format (e.g., 2024-12-31)"),
                      ("date.min", "endDate must be greater than or equal to startDate")] })]

/-- The text fields of a shipment with the greatest length of each. -/
def textFields : List (String × Nat) :=
  [("senderName", 100), ("receiverName", 100), ("origin", 200), ("destination", 200)]

/-- A text as the schemas let it into a shipment. -/
def FieldText (max : Nat) (t : Text) : Prop := Trimmed t ∧ 2 ≤ t.length ∧ t.length ≤ max

/-- What `textRules` makes of a value. -/
theorem convert_textRules {max : Nat} {v : JsValue} {t : Text} :
    (textRules max).convert v = some t ↔ ∃ s, v = .str s ∧ t = trim s ∧ FieldText max t := by
  rw [textRules, StringRules.convert_trimmed (by omega)]
  constructor
  · rintro ⟨s, rfl, rfl, h⟩
    exact ⟨s, rfl, rfl, trim_trimmed s, h⟩
  · rintro ⟨s, rfl, rfl, -, h⟩
    exact ⟨s, rfl, rfl, h⟩

theorem text_create {f : String} {max : Nat} (hf : (f, max) ∈ textFields) :
    ∃ label, Obj.get? createShipmentSchema.keys f = some (createText label max) := by
  simp only [textFields, List.mem_cons, Prod.mk.injEq, List.not_mem_nil, or_false] at hf
  rcases hf with ⟨rfl, rfl⟩ | ⟨rfl, rfl⟩ | ⟨rfl, rfl⟩ | ⟨rfl, rfl⟩ <;> exact ⟨_, rfl⟩

theorem text_update {f : String} {max : Nat} (hf : (f, max) ∈ textFields) :
    ∃ label, Obj.get? updateShipmentSchema.keys f = some (updateText label max) := by
  simp only [textFields, List.mem_cons, Prod.mk.injEq, List.not_mem_nil, or_false] at hf
  rcases hf with ⟨rfl, rfl⟩ | ⟨rfl, rfl⟩ | ⟨rfl, rfl⟩ | ⟨rfl, rfl⟩ <;> exact ⟨_, rfl⟩

/-- The keys that the schemas of a body know. -/
def bodyKeys : List String := ["senderName", "receiverName", "origin", "destination", "status"]

theorem mem_bodyKeys {f : String} (h : f ∈ bodyKeys) : (∃ max, (f, max) ∈ textFields) ∨ f = "status" := by
  simp only [bodyKeys, List.mem_cons, List.not_mem_nil, or_false] at h
  rcases h with rfl | rfl | rfl | rfl | rfl
  · exact Or.inl ⟨100, by decide⟩
  · exact Or.inl ⟨100, by decide⟩
  · exact Or.inl ⟨200, by decide⟩
  · exact Or.inl ⟨200, by decide⟩
  · exact Or.inr rfl

/-- What a body that `createShipmentSchema` accepts is turned into. -/
structure CreateOutput (o out : JsObject) : Prop where
  text : ∀ f max, (f, max) ∈ textFields → ∃ s, Obj.get? o f = some (.str s) ∧
    Obj.get? out f = some (.str (trim s)) ∧ FieldText max (trim s)
  status : (Obj.get? o "status" = none ∧ Obj.get? out "status" = some (.str ShipmentStatus.pending.value)) ∨
    ∃ t ∈ statusValues, Obj.get? o "status" = some (.str t) ∧ Obj.get? out "status" = some (.str t)
  other : ∀ k, k ∉ bodyKeys → Obj.get? out k = none

/-- What a body that `updateShipmentSchema` accepts is turned into. -/
structure UpdateOutput (o out : JsObject) : Prop where
  text : ∀ f max, (f, max) ∈ textFields → (Obj.get? o f = none ∧ Obj.get? out f = none) ∨
    ∃ s, Obj.get? o f = some (.str s) ∧ Obj.get? out f = some (.str (trim s)) ∧ FieldText max (trim s)
  status : (Obj.get? o "status" = none ∧ Obj.get? out "status" = none) ∨
    ∃ t ∈ statusValues, Obj.get? o "status" = some (.str t) ∧ Obj.get? out "status" = some (.str t)
  other : ∀ k, k ∉ bodyKeys → Obj.get? out k = none

variable {J : Joi}

private theorem get?_keys_other {k : String} (h : k ∉ bodyKeys) :
    Obj.get? createShipmentSchema.keys k = none ∧ Obj.get? updateShipmentSchema.keys k = none := by
  simp only [bodyKeys, List.mem_cons, List.not_mem_nil, or_false, not_or] at h
  obtain ⟨h₁, h₂, h₃, h₄, h₅⟩ := h
  simp only [createShipmentSchema, updateShipmentSchema, Obj.get?_cons, Obj.get?_nil, Ne.symm h₁, Ne.symm h₂,
    Ne.symm h₃, Ne.symm h₄, Ne.symm h₅, ↓reduceIte, and_self]

theorem create_output {v : JsValue} {out : JsObject} (hv : ∀ t, v ≠ .str t)
    (h : J.validate createShipmentSchema v = .ok out) : ∃ o, v = .obj o ∧ CreateOutput o out := by
  obtain ⟨o, rfl, hacc, hout⟩ := Joi.validate_ok hv h
  refine ⟨o, rfl, ?_, ?_, ?_⟩
  · intro f max hf
    obtain ⟨label, hget⟩ := text_create hf
    rcases ObjectSchema.string_key hacc hget rfl with ⟨-, hreq, -⟩ | ⟨v, t, hv, hc, ho⟩
    · exact absurd hreq (by simp [createText])
    · obtain ⟨s, rfl, rfl, hft⟩ := convert_textRules.1 hc
      exact ⟨s, hv, (hout f).trans ho, hft⟩
  · rcases ObjectSchema.string_key hacc (k := "status") rfl rfl with ⟨hv, -, ho⟩ | ⟨v, t, hv, hc, ho⟩
    · exact Or.inl ⟨hv, (hout _).trans ho⟩
    · obtain ⟨rfl, ht⟩ := StringRules.convert_valid.1 hc
      exact Or.inr ⟨t, ht, hv, (hout _).trans ho⟩
  · intro k hk
    rw [hout, ObjectSchema.outputAt, (get?_keys_other hk).1]

theorem update_output {v : JsValue} {out : JsObject} (hv : ∀ t, v ≠ .str t)
    (h : J.validate updateShipmentSchema v = .ok out) : ∃ o, v = .obj o ∧ UpdateOutput o out := by
  obtain ⟨o, rfl, hacc, hout⟩ := Joi.validate_ok hv h
  refine ⟨o, rfl, ?_, ?_, ?_⟩
  · intro f max hf
    obtain ⟨label, hget⟩ := text_update hf
    rcases ObjectSchema.string_key hacc hget rfl with ⟨hv, -, ho⟩ | ⟨v, t, hv, hc, ho⟩
    · exact Or.inl ⟨hv, (hout f).trans ho⟩
    · obtain ⟨s, rfl, rfl, hft⟩ := convert_textRules.1 hc
      exact Or.inr ⟨s, hv, (hout f).trans ho, hft⟩
  · rcases ObjectSchema.string_key hacc (k := "status") rfl rfl with ⟨hv, -, ho⟩ | ⟨v, t, hv, hc, ho⟩
    · exact Or.inl ⟨hv, (hout _).trans ho⟩
    · obtain ⟨rfl, ht⟩ := StringRules.convert_valid.1 hc
      exact Or.inr ⟨t, ht, hv, (hout _).trans ho⟩
  · intro k hk
    rw [hout, ObjectSchema.outputAt, (get?_keys_other hk).2]

/-- An accepted identifier is handed on unchanged and is 24 hexadecimal digits. -/
theorem id_output {o out : JsObject} (h : J.validate shipmentIdSchema (.obj o) = .ok out) :
    ∃ t, Obj.get? o "id" = some (.str t) ∧ Obj.get? out "id" = some (.str t) ∧ isObjectIdText t = true := by
  obtain ⟨o', ho', hacc, hout⟩ := Joi.validate_ok (JsValue.obj_ne_str o) h
  cases ho'
  rcases ObjectSchema.string_key hacc (k := "id") rfl rfl with ⟨-, hreq, -⟩ | ⟨v, t, hv, hc, ho⟩
  · cases hreq
  · obtain ⟨rfl, -, ht⟩ := StringRules.convert_pattern.1 hc
    exact ⟨t, hv, (hout _).trans ho, ht⟩

/-- 24 hexadecimal digits are accepted. -/
theorem id_accepted {t : Text} (h : isObjectIdText t = true) :
    ∃ out, J.validate shipmentIdSchema (.obj [("id", .str t)]) = .ok out := by
  have hne : t ≠ [] := by
    rintro rfl
    cases h
  have hconvert : ({ pattern := some isObjectIdText } : StringRules).convert (.str t) = some t :=
    StringRules.convert_pattern.2 ⟨rfl, hne, h⟩
  refine (J.validate_accepts _ _).2 ?_
  simp [ObjectSchema.accepts, ObjectSchema.keyPasses, shipmentIdSchema, Obj.get?_cons, KeyType.convert, hconvert,
    KeyType.refHolds]

end ShipmentManager
