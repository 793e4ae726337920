import Mathlib.Algebra.Group.Nat.Defs
import ShipmentManager.Types

/-!
# Joi schemas

The schemas that the validators are written in, and what Joi's documentation says of validating a value against one
with unknown keys stripped, values converted and all errors collected.  Joi itself is a parameter (`Joi`), with these
rules as its laws:

* a key that is missing fails when it is required, and otherwise takes its default;
* a key that is present is converted (strings trimmed, numerals and ISO dates parsed) and must then satisfy the rules of
  its type; a string with a list of valid values is accepted exactly when it is one of them;
* `date().min(ref)` is evaluated whenever its own key is present, and fails when the reference resolves to nothing;
* the result holds the converted values of the schema's keys and no other key;
* what is neither an object nor a string (which may be the JSON text of an object) is refused.
-/

namespace ShipmentManager

/-- The rules of a `Joi.string()`. -/
structure StringRules where
  trim : Bool := false
  min : Option Nat := none
  max : Option Nat := none
  valid : Option (List Text) := none
  pattern : Option (Text → Bool) := none

inductive KeyType where
  | string (rules : StringRules)
  /-- `Joi.number().integer()` -/
  | integer
  /-- `Joi.date().iso()`, with the key that `.min(Joi.ref(key))` refers to. -/
  | isoDate (min : Option String)

structure KeySchema where
  type : KeyType
  required : Bool := false
  default : Option Text := none
  messages : List (String × String) := []

structure ObjectSchema where
  keys : Obj KeySchema
  min : Option Nat := none
  messages : List (String × String) := []

/-- The converted string, when it satisfies the rules. -/
def StringRules.convert (r : StringRules) : JsValue → Option Text
  | .str s =>
    let t := if r.trim then ShipmentManager.trim s else s
    match r.valid with
    | some vs => if t ∈ vs then some t else none
    | none =>
      if t ≠ [] ∧ (∀ m ∈ r.min, m ≤ t.length) ∧ (∀ m ∈ r.max, t.length ≤ m) ∧ (∀ p ∈ r.pattern, p t = true) then some t
      else none
  | _ => none

/-- Joi's conversions of numerals and ISO dates. -/
structure JoiConversions where
  integerOf : JsValue → Option Int
  isoDateOf : JsValue → Option Int
  integerOf_safe : ∀ v n, integerOf v = some n → n.natAbs < 2 ^ 53
  isoDateOf_range : ∀ v ms, isoDateOf v = some ms → ms.natAbs ≤ 8640000000000000

/-- The converted value of a key, when it is well formed by its own rule. -/
def KeyType.convert (c : JoiConversions) : KeyType → JsValue → Option JsValue
  | string r, v => (r.convert v).map .str
  | integer, v => (c.integerOf v).map fun n : Int => .num n
  | isoDate _, v => (c.isoDateOf v).map .date

/-- The rule that refers to another key, on the converted value. -/
def KeyType.refHolds (sibling : String → Option JsValue) : KeyType → JsValue → Bool
  | isoDate (some ref), .date t =>
    match sibling ref with
    | some (.date lo) => lo ≤ t
    -- `any.ref`: the reference resolves to no date
    | _ => false
  | _, _ => true

/-- The value of a key in the result. -/
def ObjectSchema.outputAt (s : ObjectSchema) (c : JoiConversions) (o : JsObject) (k : String) : Option JsValue :=
  match Obj.get? s.keys k with
  | none => none
  | some ks =>
    match Obj.get? o k with
    | none => ks.default.map .str
    | some v => ks.type.convert c v

def ObjectSchema.keyPasses (s : ObjectSchema) (c : JoiConversions) (o : JsObject) (k : String) (ks : KeySchema) :
    Bool :=
  match Obj.get? o k with
  | none => !ks.required
  | some v =>
    match ks.type.convert c v with
    | none => false
    | some out => ks.type.refHolds (s.outputAt c o) out

/-- Every key passes, and the result has the least number of keys. -/
def ObjectSchema.accepts (s : ObjectSchema) (c : JoiConversions) (o : JsObject) : Bool :=
  (s.keys.all fun p => s.keyPasses c o p.1 p.2) &&
    s.min.all fun m => m ≤ (s.keys.filter fun p => (s.outputAt c o p.1).isSome).length

structure JoiDetail where
  path : List String
  message : Text

/-- Joi: `schema.validate(value, { abortEarly: false, stripUnknown: true, convert: true })`. -/
structure Joi extends JoiConversions where
  validate : ObjectSchema → JsValue → Except (List JoiDetail) JsObject
  validate_object : ∀ s v out, validate s v = .ok out → (∃ o, v = .obj o) ∨ ∃ t, v = .str t
  validate_accepts : ∀ s o, (∃ out, validate s (.obj o) = .ok out) ↔ s.accepts toJoiConversions o = true
  validate_output : ∀ s o out, validate s (.obj o) = .ok out → ∀ k, Obj.get? out k = s.outputAt toJoiConversions o k

/-- What an accepted value is, and what it is turned into. -/
theorem Joi.validate_ok {J : Joi} {s : ObjectSchema} {v : JsValue} (hv : ∀ t, v ≠ .str t) {out : JsObject}
    (h : J.validate s v = .ok out) :
    ∃ o, v = .obj o ∧ s.accepts J.toJoiConversions o = true ∧
      ∀ k, Obj.get? out k = s.outputAt J.toJoiConversions o k := by
  rcases J.validate_object s v out h with ⟨o, rfl⟩ | ⟨t, rfl⟩
  · exact ⟨o, rfl, (J.validate_accepts s o).1 ⟨out, h⟩, J.validate_output s o out h⟩
  · exact absurd rfl (hv t)

/-- A key of the schema in an accepted object. -/
theorem ObjectSchema.keyPasses_of_accepts {s : ObjectSchema} {c : JoiConversions} {o : JsObject}
    (h : s.accepts c o = true) {k : String} {ks : KeySchema} (hk : Obj.get? s.keys k = some ks) :
    s.keyPasses c o k ks = true := by
  simp only [accepts, Bool.and_eq_true, List.all_eq_true] at h
  exact h.1 (k, ks) (Obj.mem_of_get? hk)

/-- A string key of an accepted object is missing and takes its default, or is present and converted. -/
theorem ObjectSchema.string_key {s : ObjectSchema} {c : JoiConversions} {o : JsObject} (h : s.accepts c o = true)
    {k : String} {ks : KeySchema} (hk : Obj.get? s.keys k = some ks) {r : StringRules} (hr : ks.type = .string r) :
    (Obj.get? o k = none ∧ ks.required = false ∧ s.outputAt c o k = ks.default.map .str) ∨
      ∃ v t, Obj.get? o k = some v ∧ r.convert v = some t ∧ s.outputAt c o k = some (.str t) := by
  have hp := keyPasses_of_accepts h hk
  simp only [keyPasses, hr, KeyType.convert] at hp
  simp only [outputAt, hk, hr, KeyType.convert]
  cases hv : Obj.get? o k with
  | none =>
    simp only [hv, Bool.not_eq_true'] at hp
    exact Or.inl ⟨rfl, hp, rfl⟩
  | some v =>
    simp only [hv] at hp
    cases hc : r.convert v with
    | none => simp [hc] at hp
    | some t =>
      refine Or.inr ⟨v, t, rfl, hc, ?_⟩
      simp only [hc, Option.map_some]

/-- The texts that the rules of a trimmed string with length bounds let through. -/
theorem StringRules.convert_trimmed {lo hi : Nat} {v : JsValue} {t : Text} (hlo : 0 < lo) :
    ({ trim := true, min := some lo, max := some hi } : StringRules).convert v = some t ↔
      ∃ s, v = .str s ∧ t = ShipmentManager.trim s ∧ lo ≤ t.length ∧ t.length ≤ hi := by
  cases v with
  | str s =>
    simp only [convert, ↓reduceIte, Option.mem_def, Option.some.injEq, forall_eq', JsValue.str.injEq,
      exists_eq_left', reduceCtorEq, false_implies, implies_true, and_true]
    constructor
    · intro h
      split at h
      · rename_i hc
        cases h
        exact ⟨rfl, hc.2.1, hc.2.2⟩
      · cases h
    · rintro ⟨rfl, h₁, h₂⟩
      rw [if_pos]
      refine ⟨?_, h₁, h₂⟩
      intro h
      rw [h] at h₁
      simp at h₁
      omega
  | _ => simp [convert]

/-- The texts that the rules of a trimmed string with an upper bound let through. -/
theorem StringRules.convert_filter {hi : Nat} {v : JsValue} {t : Text} :
    ({ trim := true, max := some hi } : StringRules).convert v = some t ↔
      ∃ s, v = .str s ∧ t = ShipmentManager.trim s ∧ t ≠ [] ∧ t.length ≤ hi := by
  cases v with
  | str s =>
    simp only [convert, ↓reduceIte, Option.mem_def, Option.some.injEq, forall_eq', JsValue.str.injEq,
      exists_eq_left', reduceCtorEq, false_implies, implies_true, and_true, true_and]
    constructor
    · intro h
      split at h
      · rename_i hc
        cases h
        exact ⟨rfl, hc.1, hc.2⟩
      · cases h
    · rintro ⟨rfl, h₁, h₂⟩
      rw [if_pos ⟨h₁, h₂⟩]
  | _ => simp [convert]

/-- The strings that a list of valid values lets through. -/
theorem StringRules.convert_valid {vs : List Text} {v : JsValue} {t : Text} :
    ({ valid := some vs } : StringRules).convert v = some t ↔ v = .str t ∧ t ∈ vs := by
  cases v with
  | str s =>
    simp only [convert, Bool.false_eq_true, ↓reduceIte, JsValue.str.injEq]
    constructor
    · intro h
      split at h
      · rename_i hc
        cases h
        exact ⟨rfl, hc⟩
      · cases h
    · rintro ⟨rfl, h⟩
      rw [if_pos h]
  | _ => simp [convert]

/-- The strings that a pattern lets through. -/
theorem StringRules.convert_pattern {p : Text → Bool} {v : JsValue} {t : Text} :
    ({ pattern := some p } : StringRules).convert v = some t ↔ v = .str t ∧ t ≠ [] ∧ p t = true := by
  cases v with
  | str s =>
    simp only [convert, Bool.false_eq_true, ↓reduceIte, JsValue.str.injEq, Option.mem_def, reduceCtorEq,
      false_implies, implies_true, true_and, Option.some.injEq, forall_eq']
    constructor
    · intro h
      split at h
      · rename_i hc
        cases h
        exact ⟨rfl, hc⟩
      · cases h
    · rintro ⟨rfl, h⟩
      rw [if_pos h]
  | _ => simp [convert]

end ShipmentManager
