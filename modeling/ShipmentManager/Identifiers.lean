import ShipmentManager.Lib.Positional
import ShipmentManager.Mongoose

/-!
# Identifiers as texts

`_id.toString()` and the cast of a path parameter, which reads either case of a digit.  On identifiers of 12 bytes the
two are inverse to each other up to the case of the digits.
-/

namespace ShipmentManager

/-- An identifier of 12 bytes. -/
def IsObjectId (id : ObjectId) : Prop := id < 16 ^ 24

/-- The lower-case digit of a value. -/
def hexDigit (d : Nat) : UInt16 := UInt16.ofNat (if d < 10 then 48 + d else 87 + d)

/-- The lower-case form of a hexadecimal digit. -/
def lowerDigit (u : UInt16) : UInt16 := if 65 ≤ u && u ≤ 70 then u + 32 else u

theorem objectIdToText_eq (n : ObjectId) : objectIdToText n = (Positional.digits 16 24 n).map hexDigit := by
  unfold objectIdToText Positional.digits
  rw [List.map_map]
  rfl

theorem hexValue_eq (t : Text) : hexValue t = Positional.value 16 (t.map hexDigitValue) := by
  unfold hexValue Positional.value
  rw [List.foldl_map]

private theorem hexDigit_spec : ∀ d < 16, isHexDigit (hexDigit d) = true ∧ hexDigitValue (hexDigit d) = d := by
  decide

/-- A digit has a value, which is printed as the digit in lower case. -/
private def PrintsLower (u : UInt16) : Prop := hexDigitValue u < 16 ∧ hexDigit (hexDigitValue u) = lowerDigit u

private theorem PrintsLower.of_range {u : UInt16} (base k : Nat)
    (h : ∀ d < k, hexDigitValue (UInt16.ofNat (base + d)) < 16 ∧
      hexDigit (hexDigitValue (UInt16.ofNat (base + d))) = lowerDigit (UInt16.ofNat (base + d)))
    (hle : base ≤ u.toNat) (hlt : u.toNat < base + k) : PrintsLower u := by
  have hdigit := h (u.toNat - base) (by omega)
  rwa [Nat.add_sub_cancel' hle, UInt16.ofNat_toNat] at hdigit

/-- A hexadecimal digit is in one of three ranges of characters. -/
private theorem hexDigitValue_spec {u : UInt16} (h : isHexDigit u = true) : PrintsLower u := by
  simp only [isHexDigit, Bool.or_eq_true, Bool.and_eq_true, decide_eq_true_eq, UInt16.le_iff_toNat_le] at h
  rcases h with (⟨h₁, h₂⟩ | ⟨h₁, h₂⟩) | ⟨h₁, h₂⟩
  · exact PrintsLower.of_range 48 10 (by decide) h₁ (Nat.lt_succ_of_le h₂)
  · exact PrintsLower.of_range 65 6 (by decide) h₁ (Nat.lt_succ_of_le h₂)
  · exact PrintsLower.of_range 97 6 (by decide) h₁ (Nat.lt_succ_of_le h₂)

/-- An identifier in a response is one that the routes accept. -/
theorem isObjectIdText_objectIdToText (n : ObjectId) : isObjectIdText (objectIdToText n) = true := by
  rw [objectIdToText_eq]
  simp only [isObjectIdText, List.length_map, Positional.length_digits, decide_true, Bool.true_and, List.all_eq_true,
    List.mem_map]
  rintro u ⟨d, hd, rfl⟩
  exact (hexDigit_spec d (Positional.lt_of_mem_digits (by omega) hd)).1

/-- A printed identifier is read back. -/
theorem hexValue_objectIdToText {n : ObjectId} (h : IsObjectId n) : hexValue (objectIdToText n) = n := by
  have hmap : ((Positional.digits 16 24 n).map hexDigit).map hexDigitValue = Positional.digits 16 24 n := by
    rw [List.map_map]
    calc (Positional.digits 16 24 n).map (hexDigitValue ∘ hexDigit)
      _ = (Positional.digits 16 24 n).map id :=
        List.map_congr_left fun d hd => (hexDigit_spec d (Positional.lt_of_mem_digits (by omega) hd)).2
      _ = Positional.digits 16 24 n := List.map_id _
  rw [hexValue_eq, objectIdToText_eq, hmap, Positional.value_digits]
  exact Nat.mod_eq_of_lt h

/-- An accepted text is an identifier, and is printed with its digits in lower case. -/
theorem objectIdToText_hexValue {t : Text} (h : isObjectIdText t = true) :
    IsObjectId (hexValue t) ∧ objectIdToText (hexValue t) = t.map lowerDigit := by
  simp only [isObjectIdText, Bool.and_eq_true, decide_eq_true_eq, List.all_eq_true] at h
  obtain ⟨hlength, hdigits⟩ := h
  have hlength' : (t.map hexDigitValue).length = 24 := by rw [List.length_map, hlength]
  have hlt : ∀ d ∈ t.map hexDigitValue, d < 16 := by
    intro d hd
    obtain ⟨u, hu, rfl⟩ := List.mem_map.1 hd
    exact (hexDigitValue_spec (hdigits u hu)).1
  rw [hexValue_eq]
  refine ⟨?_, ?_⟩
  · have hvalue := Positional.value_lt (by omega) hlt
    rwa [hlength'] at hvalue
  · have hround := Positional.digits_value hlt
    rw [hlength'] at hround
    rw [objectIdToText_eq, hround, List.map_map]
    exact List.map_congr_left fun u hu => (hexDigitValue_spec (hdigits u hu)).2

end ShipmentManager
