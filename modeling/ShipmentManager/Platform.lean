import Mathlib.Data.Nat.Digits.Defs
import ShipmentManager.Lib.Prog
import ShipmentManager.Mongo

/-!
# What the program runs on

The parameters that stand for code outside the repository, gathered in one structure: Joi, Mongoose, MongoDB, the
conversions of the JavaScript engine, and Express with its body parsers.  Their laws are documented behaviour.  `Async`
is an asynchronous function of the program: it sends commands to the database, and it ends with a value or an error.
-/

namespace ShipmentManager

/-- A number in decimal digits. -/
def decimal (n : Nat) : Text := if n = 0 then [48] else (Nat.digits 10 n).reverse.map fun d => UInt16.ofNat (48 + d)

def decimalInt (n : Int) : Text := if n < 0 then 45 :: decimal n.natAbs else decimal n.natAbs

/-- The conversions of the language. -/
structure Engine where
  stringOf : JsValue → Text
  stringOf_str : ∀ t, stringOf (.str t) = t
  stringOf_int : ∀ n : Int, n.natAbs < 10 ^ 21 → stringOf (.num n) = decimalInt n
  /-- `Date.parse` -/
  parseDate : Text → JsDate

/-- `parseInt(t, 10)` on a string; `none` is NaN. -/
def parseIntText (t : Text) : Option Int :=
  let t := t.dropWhile isWhiteSpace
  let negative := t.head? = some 45
  let t := if t.head? = some 45 ∨ t.head? = some 43 then t.tail else t
  let digits := t.takeWhile fun u => 48 ≤ u && u ≤ 57
  if digits = [] then none
  else
    let n : Int := digits.foldl (fun n u => 10 * n + (u.toNat - 48 : Nat)) 0
    some (if negative then -n else n)

private theorem digit_char : ∀ d < 10, (UInt16.ofNat (48 + d)).toNat = 48 + d ∧
    isWhiteSpace (UInt16.ofNat (48 + d)) = false ∧ UInt16.ofNat (48 + d) ≠ 45 ∧ UInt16.ofNat (48 + d) ≠ 43 ∧
      (48 ≤ UInt16.ofNat (48 + d) && UInt16.ofNat (48 + d) ≤ 57) = true := by
  decide

/-- The digits of a numeral are the codes of digits. -/
theorem mem_decimal {n : Nat} {u : UInt16} (h : u ∈ decimal n) : ∃ d < 10, u = UInt16.ofNat (48 + d) := by
  unfold decimal at h
  split at h
  · rw [List.mem_singleton] at h
    exact ⟨0, by omega, h⟩
  · simp only [List.mem_map, List.mem_reverse] at h
    obtain ⟨d, hd, rfl⟩ := h
    exact ⟨d, Nat.digits_lt_base (by omega) hd, rfl⟩

theorem decimal_ne_nil (n : Nat) : decimal n ≠ [] := by
  unfold decimal
  split
  · simp
  · rename_i h
    rw [Ne, List.map_eq_nil_iff, List.reverse_eq_nil_iff]
    exact Nat.digits_ne_nil_iff_ne_zero.2 h

/-- The number that a text of digits stands for. -/
def numeralValue (t : Text) : Int := t.foldl (fun n u => 10 * n + (u.toNat - 48 : Nat)) 0

theorem numeralValue_decimal (n : Nat) : numeralValue (decimal n) = n := by
  unfold decimal
  split
  · rename_i h
    rw [h]
    rfl
  · have key : ∀ l : List Nat, (∀ d ∈ l, d < 10) →
        numeralValue (l.reverse.map fun d => UInt16.ofNat (48 + d)) = (Nat.ofDigits 10 l : Nat) := by
      intro l
      induction l with
      | nil => intro _; rfl
      | cons d l ih =>
        intro hl
        have hd := (digit_char d (hl d (List.mem_cons_self ..))).1
        have := ih fun d' h' => hl d' (List.mem_cons_of_mem _ h')
        unfold numeralValue at this ⊢
        rw [List.reverse_cons, List.map_append, List.foldl_append, this, Nat.ofDigits_cons]
        simp only [List.map_cons, List.map_nil, List.foldl_cons, List.foldl_nil, hd]
        omega
    rw [key _ fun d hd => Nat.digits_lt_base (by omega) hd, Nat.ofDigits_digits]

private theorem decimal_cons (n : Nat) : ∃ d t, d < 10 ∧ decimal n = UInt16.ofNat (48 + d) :: t := by
  cases h : decimal n with
  | nil => exact absurd h (decimal_ne_nil n)
  | cons u t =>
    obtain ⟨d, hd, rfl⟩ := mem_decimal (n := n) (u := u) (by rw [h]; exact List.mem_cons_self ..)
    exact ⟨d, t, hd, rfl⟩

private theorem takeWhile_decimal (n : Nat) : (decimal n).takeWhile (fun u => 48 ≤ u && u ≤ 57) = decimal n := by
  rw [List.takeWhile_eq_self_iff]
  intro u hu
  obtain ⟨d, hd, rfl⟩ := mem_decimal hu
  exact (digit_char d hd).2.2.2.2

/-- `parseInt` reads a printed integer back. -/
theorem parseIntText_decimalInt (n : Int) : parseIntText (decimalInt n) = some n := by
  unfold decimalInt
  split
  · rename_i h
    have hw : isWhiteSpace 45 = false := by decide
    simp only [parseIntText, List.dropWhile_cons, hw, Bool.false_eq_true, ↓reduceIte, List.head?_cons, true_or,
      List.tail_cons, takeWhile_decimal, decimal_ne_nil]
    show some (-(numeralValue (decimal n.natAbs))) = some n
    rw [numeralValue_decimal]
    congr 1
    omega
  · rename_i h
    obtain ⟨d, t, hd, ht⟩ := decimal_cons n.natAbs
    obtain ⟨-, hw, hm, hp, -⟩ := digit_char d hd
    have hdrop : (decimal n.natAbs).dropWhile isWhiteSpace = decimal n.natAbs := by
      rw [ht, List.dropWhile_cons_of_neg (by rw [hw]; decide)]
    have hhead : (decimal n.natAbs).head? = some (UInt16.ofNat (48 + d)) := by rw [ht]; rfl
    simp only [parseIntText, hdrop, hhead, Option.some.injEq, hm, hp, or_self, ↓reduceIte, takeWhile_decimal,
      decimal_ne_nil]
    show numeralValue (decimal n.natAbs) = n
    rw [numeralValue_decimal]
    omega

def Engine.parseInt (E : Engine) (v : JsValue) : Option Int := parseIntText (E.stringOf v)

/-- `new Date(v)` -/
def Engine.newDate (E : Engine) : JsValue → JsDate
  | .date ms => some ms
  | .str t => E.parseDate t
  | .num q =>
    let t := q.num.tdiv q.den
    if t.natAbs ≤ 8640000000000000 then some t else none
  | .bool b => some (if b then 1 else 0)
  | .null => some 0
  | v => E.parseDate (E.stringOf v)

@[simp] theorem Engine.newDate_date (E : Engine) (ms : Int) : E.newDate (.date ms) = some ms := rfl

/-- Express, its router and its body parsers. -/
structure Express where
  /-- The body of a request as it arrives, with its headers. -/
  Body : Type
  /-- `express.json({ limit })`; `none` when the body is not of its content type. -/
  json : String → Body → Except JsError (Option JsValue)
  /-- It is strict: it accepts objects and arrays only. -/
  json_strict : ∀ limit b v, json limit b = .ok (some v) → (∃ o, v = .obj o) ∨ ∃ l, v = .arr l
  json_error : ∀ limit b e, json limit b = .error e →
    (∃ m, e = .syntaxError (some 400) m) ∨ ∃ status m, 400 ≤ status ∧ status < 500 ∧ e = .httpError status m
  /-- `express.urlencoded({ extended: true, limit })` -/
  urlencoded : String → Body → Except JsError (Option JsValue)
  urlencoded_object : ∀ limit b v, urlencoded limit b = .ok (some v) → ∃ o, v = .obj o
  urlencoded_error : ∀ limit b e, urlencoded limit b = .error e →
    ∃ status m, 400 ≤ status ∧ status < 500 ∧ e = .httpError status m
  /-- The router's percent-decoding of a path parameter. -/
  decodeParam : Text → Except JsError Text
  decodeParam_error : ∀ t e, decodeParam t = .error e → ∃ m, e = .uriError (some 400) m
  /-- The parsed query string. -/
  parseQuery : Text → JsObject

structure Platform where
  joi : Joi
  model : ShipmentModel
  mongo : Mongo
  engine : Engine
  express : Express
  isProduction : Bool

/-- An asynchronous function: it sends commands, and resolves to a value or is rejected with an error. -/
abbrev Async (α : Type) : Type := ExceptT JsError (Prog Command Command.Answer) α

/-- Sends a command and awaits its answer. -/
def send (c : Command) : Async c.Out := ExceptT.mk (Prog.call c fun r => Prog.done r)

/-- `Promise.all` of two commands. -/
def sendBoth (c₁ c₂ : Command) : Async (c₁.Out × c₂.Out) :=
  ExceptT.mk (Prog.both c₁ c₂ fun r₁ r₂ => Prog.done (do return (← r₁, ← r₂)))

/-- The events of the database. -/
abbrev DbEvent := Event Command Command.Answer Db

end ShipmentManager
