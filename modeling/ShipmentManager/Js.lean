import Mathlib.Data.List.DropRight
import Mathlib.Data.Rat.Defs

/-!
# JavaScript values

What the program's handlers see of a request: strings as sequences of UTF-16 code units, `trim`, objects as lists of
properties, and the values that a JSON body, a query string or a converted date can hold.  A property that is not there
is read as `none` (JavaScript's `undefined`), and `truthy` is the test of `if`, `&&` and `||`.
-/

namespace ShipmentManager

/-- A JavaScript string: its UTF-16 code units. -/
abbrev Text := List UInt16

def utf16Encode (c : Char) : Text :=
  if c.toNat < 0x10000 then [UInt16.ofNat c.toNat]
  else [UInt16.ofNat (0xD800 + (c.toNat - 0x10000) / 0x400), UInt16.ofNat (0xDC00 + (c.toNat - 0x10000) % 0x400)]

/-- A string literal of the source. -/
def js (s : String) : Text := s.toList.flatMap utf16Encode

/-- The white space and line terminators that `trim` removes. -/
def isWhiteSpace (u : UInt16) : Bool :=
  [9, 10, 11, 12, 13, 32, 0xA0, 0x1680, 0x2000, 0x2001, 0x2002, 0x2003, 0x2004, 0x2005, 0x2006, 0x2007, 0x2008, 0x2009,
    0x200A, 0x2028, 0x2029, 0x202F, 0x205F, 0x3000, 0xFEFF].contains u

def trim (t : Text) : Text := (t.dropWhile isWhiteSpace).rdropWhile isWhiteSpace

/-- A text without white space at its ends. -/
def Trimmed (t : Text) : Prop := trim t = t

instance (t : Text) : Decidable (Trimmed t) := inferInstanceAs (Decidable (trim t = t))

theorem trim_trimmed (t : Text) : Trimmed (trim t) := by
  have hd : (trim t).dropWhile isWhiteSpace = trim t := by
    rw [List.dropWhile_eq_self_iff]
    intro hl
    have hp : trim t <+: t.dropWhile isWhiteSpace := List.rdropWhile_prefix _ _
    have hl' : 0 < (t.dropWhile isWhiteSpace).length := Nat.lt_of_lt_of_le hl hp.length_le
    have he : (trim t)[0] = (t.dropWhile isWhiteSpace)[0] := hp.getElem hl
    rw [he]
    exact List.dropWhile_get_zero_not isWhiteSpace t hl'
  have hr : (trim t).rdropWhile isWhiteSpace = trim t := List.rdropWhile_idempotent _ _
  show ((trim t).dropWhile isWhiteSpace).rdropWhile isWhiteSpace = trim t
  rw [hd, hr]

/-- An object: its own properties. -/
abbrev Obj (α : Type) := List (String × α)

namespace Obj

variable {α : Type}

def get? (o : Obj α) (k : String) : Option α := o.lookup k

/-- The assignment `o[k] = v`. -/
def set : Obj α → String → α → Obj α
  | [], k, v => [(k, v)]
  | (k', v') :: o, k, v => if k' = k then (k, v) :: o else (k', v') :: set o k v

@[simp] theorem get?_nil (k : String) : get? ([] : Obj α) k = none := rfl

theorem get?_cons (k' : String) (v : α) (o : Obj α) (k : String) :
    get? ((k', v) :: o) k = if k' = k then some v else get? o k := by
  rw [get?, List.lookup_cons]
  by_cases h : k' = k
  · subst h
    simp
  · have h' : (k == k') = false := by simpa using Ne.symm h
    rw [if_neg h, h']
    rfl

theorem get?_set (o : Obj α) (k : String) (v : α) (k' : String) :
    (o.set k v).get? k' = if k = k' then some v else o.get? k' := by
  induction o with
  | nil => rw [set, get?_cons]
  | cons p o ih =>
    obtain ⟨k₀, v₀⟩ := p
    rw [set]
    by_cases h : k₀ = k
    · subst h
      rw [if_pos rfl, get?_cons, get?_cons]
      by_cases h' : k₀ = k' <;> simp only [h', ↓reduceIte]
    · rw [if_neg h, get?_cons, get?_cons, ih]
      by_cases h₁ : k₀ = k' <;> by_cases h₂ : k = k' <;> simp only [h₁, h₂, ↓reduceIte]
      exact absurd (h₁.trans h₂.symm) h

theorem mem_of_get? {o : Obj α} {k : String} {v : α} (h : o.get? k = some v) : (k, v) ∈ o := by
  induction o with
  | nil => simp at h
  | cons p o ih =>
    obtain ⟨k₀, v₀⟩ := p
    rw [get?_cons] at h
    split at h
    · rename_i hk
      cases h
      subst hk
      exact List.mem_cons_self ..
    · exact List.mem_cons_of_mem _ (ih h)

end Obj

/-- The values of request bodies and queries, with the dates a validator converts to. -/
inductive JsValue where
  | null
  | bool (b : Bool)
  | num (q : Rat)
  | str (t : Text)
  | date (ms : Int)
  | arr (items : List JsValue)
  | obj (fields : List (String × JsValue))

abbrev JsObject := Obj JsValue

theorem JsValue.obj_ne_str (o : JsObject) (t : Text) : JsValue.obj o ≠ .str t := nofun

/-- The truth value of a value in a condition. -/
def JsValue.truthy : JsValue → Bool
  | null => false
  | bool b => b
  | num q => q ≠ 0
  | str t => t ≠ []
  | date _ => true
  | arr _ => true
  | obj _ => true

/-- The truth value of a property, which may be missing. -/
def truthy (v : Option JsValue) : Bool := v.any JsValue.truthy

@[simp] theorem truthy_none : truthy none = false := rfl

/-- The operator `a || b`. -/
def orElse (a : Option JsValue) (b : JsValue) : JsValue :=
  match a with
  | some v => if v.truthy then v else b
  | none => b

/-- The strict comparison of a value with a string. -/
def JsValue.isText : JsValue → Text → Bool
  | str s, t => s = t
  | _, _ => false

@[simp] theorem JsValue.isText_str (s t : Text) : (JsValue.str s).isText t = decide (s = t) := rfl

end ShipmentManager
