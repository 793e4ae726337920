import Mathlib.Data.Nat.Digits.Lemmas
import ShipmentManager.Tracking

/-!
# The form of a tracking number

`SHP-`, the date in eight digits, `-`, and eight characters drawn from the alphabet.  All fields have a fixed width, so
two tracking numbers are equal exactly when the dates are and the same characters were drawn
(`generateTrackingNumber_format`).
-/

namespace ShipmentManager

/-- `[0-9]` -/
def IsDigit (u : UInt16) : Prop := 48 ≤ u ∧ u ≤ 57

/-- `[A-Z0-9]` -/
def IsAlphanumeric (u : UInt16) : Prop := IsDigit u ∨ 65 ≤ u ∧ u ≤ 90

/-- `^SHP-[0-9]{8}-[A-Z0-9]{8}$` -/
def TrackingFormat (t : Text) : Prop :=
  ∃ date code, t = js "SHP-" ++ date ++ js "-" ++ code ∧ date.length = 8 ∧ (∀ u ∈ date, IsDigit u) ∧
    code.length = 8 ∧ ∀ u ∈ code, IsAlphanumeric u

/-- A calendar date with a year of four digits. -/
structure LocalDate.InRange (now : LocalDate) : Prop where
  year : 1000 ≤ now.year ∧ now.year ≤ 9999
  month : now.month < 12
  day : 1 ≤ now.day ∧ now.day ≤ 31

/-- What `Math.random()` may return, eight times. -/
def ValidDraws (random : Nat → Rat) : Prop := ∀ i < 8, 0 ≤ random i ∧ random i < 1

/-! ### The date -/

theorem length_decimal_le {n k : Nat} (hk : 0 < k) (h : n < 10 ^ k) : (decimal n).length ≤ k := by
  unfold decimal
  split
  · exact hk
  · rw [List.length_map, List.length_reverse]
    exact (Nat.digits_length_le_iff (by omega) n).2 h

theorem lt_length_decimal {n k : Nat} (h : 10 ^ k ≤ n) : k < (decimal n).length := by
  have hpos : 0 < 10 ^ k := Nat.pow_pos (by omega)
  unfold decimal
  rw [if_neg (by omega), List.length_map, List.length_reverse]
  exact (Nat.lt_digits_length_iff (by omega) n).2 h

theorem isDigit_of_mem_decimal {n : Nat} {u : UInt16} (h : u ∈ decimal n) : IsDigit u := by
  obtain ⟨d, hd, rfl⟩ := mem_decimal h
  have hdigit : ∀ d < 10, 48 ≤ UInt16.ofNat (48 + d) ∧ UInt16.ofNat (48 + d) ≤ 57 := by decide
  exact hdigit d hd

theorem length_padStart {width : Nat} {t : Text} (h : t.length ≤ width) : (padStart width t).length = width := by
  unfold padStart
  rw [List.length_append, List.length_replicate]
  omega

theorem isDigit_of_mem_padStart {width n : Nat} {u : UInt16} (h : u ∈ padStart width (decimal n)) : IsDigit u := by
  rcases List.mem_append.1 h with h | h
  · rw [List.eq_of_mem_replicate h]
    exact ⟨by decide, by decide⟩
  · exact isDigit_of_mem_decimal h

theorem decimal_injective {m n : Nat} (h : decimal m = decimal n) : m = n := by
  have hvalue := congrArg numeralValue h
  rw [numeralValue_decimal, numeralValue_decimal] at hvalue
  exact Int.ofNat.inj hvalue

/-- Zeros in front do not change the number that a text of digits stands for. -/
theorem numeralValue_padStart (width : Nat) (t : Text) : numeralValue (padStart width t) = numeralValue t := by
  unfold padStart
  induction width - t.length with
  | zero => rfl
  | succ k ih =>
    rw [List.replicate_succ, List.cons_append]
    exact ih

theorem padStart_decimal_injective {width m n : Nat} (h : padStart width (decimal m) = padStart width (decimal n)) :
    m = n := by
  have hvalue := congrArg numeralValue h
  rw [numeralValue_padStart, numeralValue_padStart, numeralValue_decimal, numeralValue_decimal] at hvalue
  exact Int.ofNat.inj hvalue

section Date

variable {now now' : LocalDate}

private theorem length_year (h : now.InRange) : (decimal now.year).length = 4 := by
  have hle := length_decimal_le (k := 4) (by omega) (n := now.year) (by have := h.year.2; omega)
  have hlt := lt_length_decimal (k := 3) (n := now.year) h.year.1
  omega

private theorem length_twoDigits {n : Nat} (h : n < 100) : (padStart 2 (decimal n)).length = 2 :=
  length_padStart (length_decimal_le (by omega) h)

theorem length_dateText (h : now.InRange) : (dateText now).length = 8 := by
  have hmonth := h.month
  have hday := h.day
  unfold dateText
  rw [List.length_append, List.length_append, length_year h, length_twoDigits (by omega), length_twoDigits (by omega)]

theorem isDigit_of_mem_dateText {u : UInt16} (h : u ∈ dateText now) : IsDigit u := by
  unfold dateText at h
  rw [List.mem_append, List.mem_append] at h
  rcases h with (h | h) | h
  · exact isDigit_of_mem_decimal h
  · exact isDigit_of_mem_padStart h
  · exact isDigit_of_mem_padStart h

theorem dateText_injective (h : now.InRange) (h' : now'.InRange) (heq : dateText now = dateText now') : now = now' := by
  obtain ⟨year, month, day⟩ := now
  obtain ⟨year', month', day'⟩ := now'
  have hday := h.day
  have hday' := h'.day
  unfold dateText at heq
  obtain ⟨hleft, hd⟩ := List.append_inj' heq (by rw [length_twoDigits (by omega), length_twoDigits (by omega)])
  obtain ⟨hy, hm⟩ := List.append_inj hleft (by rw [length_year h, length_year h'])
  have hyear := decimal_injective hy
  have hmonth := padStart_decimal_injective hm
  have hdays := padStart_decimal_injective hd
  simp only [LocalDate.mk.injEq]
  simp only at hyear hmonth hdays
  omega

end Date

/-! ### The random characters -/

section Random

variable {random random' : Nat → Rat}

/-- The position in the alphabet that a draw stands for. -/
def drawIndex (r : Rat) : Nat := ⌊36 * r⌋.toNat

theorem drawIndex_spec {r : Rat} (h : 0 ≤ r ∧ r < 1) : drawIndex r < 36 ∧ (drawIndex r : Int) = ⌊36 * r⌋ := by
  have hpos : 0 ≤ ⌊36 * r⌋ := Int.floor_nonneg.2 (by linarith [h.1])
  have hlt : ⌊36 * r⌋ < 36 := Int.floor_lt.2 (by push_cast; linarith [h.2])
  unfold drawIndex
  omega

theorem length_characters : characters.length = 36 := by decide

private theorem getElem?_characters {k : Nat} (hk : k < 36) : characters[k]? = some (characters.getD k 0) := by
  rw [List.getD_eq_getElem?_getD, List.getElem?_eq_getElem (by rw [length_characters]; exact hk)]
  rfl

/-- A draw stands for one character. -/
theorem charAt_characters {r : Rat} (h : 0 ≤ r ∧ r < 1) :
    charAt characters ⌊r * characters.length⌋ = [characters.getD (drawIndex r) 0] := by
  obtain ⟨hlt, heq⟩ := drawIndex_spec h
  have hindex : ⌊r * characters.length⌋ = (drawIndex r : Int) := by
    rw [length_characters, heq, mul_comm]
    rfl
  unfold charAt
  rw [hindex, if_neg (by omega), Int.toNat_natCast, getElem?_characters hlt]
  rfl

theorem randomText_eq (h : ValidDraws random) :
    randomText random = (List.range 8).map fun i => characters.getD (drawIndex (random i)) 0 := by
  unfold randomText
  rw [← List.flatMap_eq_foldl, ← List.flatMap_singleton' ((List.range 8).map _), List.flatMap_map]
  exact List.flatMap_congr fun i hi => charAt_characters (h i (List.mem_range.1 hi))

theorem length_randomText (h : ValidDraws random) : (randomText random).length = 8 := by
  rw [randomText_eq h, List.length_map, List.length_range]

theorem isAlphanumeric_of_mem_randomText (h : ValidDraws random) {u : UInt16} (hu : u ∈ randomText random) :
    IsAlphanumeric u := by
  have halphabet : ∀ k < 36, IsAlphanumeric (characters.getD k 0) := by
    unfold IsAlphanumeric IsDigit
    decide
  rw [randomText_eq h] at hu
  obtain ⟨i, hi, rfl⟩ := List.mem_map.1 hu
  exact halphabet _ (drawIndex_spec (h i (List.mem_range.1 hi))).1

/-- No character is in the alphabet twice. -/
theorem characters_injective {j k : Nat} (hj : j < 36) (hk : k < 36)
    (h : characters.getD j 0 = characters.getD k 0) : j = k := by
  have hnodup : characters.Nodup := by decide
  refine (List.getElem?_inj (by rw [length_characters]; exact hj) hnodup).1 ?_
  rw [getElem?_characters hj, getElem?_characters hk, h]

theorem randomText_eq_iff (h : ValidDraws random) (h' : ValidDraws random') :
    randomText random = randomText random' ↔ ∀ i < 8, ⌊36 * random i⌋ = ⌊36 * random' i⌋ := by
  rw [randomText_eq h, randomText_eq h', List.map_inj_left]
  simp only [List.mem_range]
  refine forall_congr' fun i => forall_congr' fun hi => ?_
  obtain ⟨hlt, heq⟩ := drawIndex_spec (h i hi)
  obtain ⟨hlt', heq'⟩ := drawIndex_spec (h' i hi)
  rw [← heq, ← heq', Int.ofNat_inj]
  constructor
  · exact characters_injective hlt hlt'
  · intro hindex
    rw [hindex]

end Random

/-- A tracking number has its form whatever the date and the draws are, and two of them are equal only by the same date
and the same characters drawn. -/
theorem generateTrackingNumber_format :
    (∀ now random, LocalDate.InRange now → ValidDraws random → TrackingFormat (generateTrackingNumber now random)) ∧
      ∀ now now' random random', LocalDate.InRange now → LocalDate.InRange now' → ValidDraws random →
        ValidDraws random' → (generateTrackingNumber now random = generateTrackingNumber now' random' ↔
          now = now' ∧ ∀ i < 8, ⌊36 * random i⌋ = ⌊36 * random' i⌋) := by
  refine ⟨fun now random hnow hdraws => ?_, fun now now' random random' hnow hnow' hdraws hdraws' => ?_⟩
  · exact ⟨dateText now, randomText random, rfl, length_dateText hnow, fun u => isDigit_of_mem_dateText,
      length_randomText hdraws, fun u => isAlphanumeric_of_mem_randomText hdraws⟩
  · unfold generateTrackingNumber
    rw [← randomText_eq_iff hdraws hdraws']
    constructor
    · intro heq
      obtain ⟨hleft, hrandom⟩ :=
        List.append_inj' heq (by rw [length_randomText hdraws, length_randomText hdraws'])
      have hdate := List.append_cancel_left (List.append_cancel_right hleft)
      exact ⟨dateText_injective hnow hnow' hdate, hrandom⟩
    · rintro ⟨rfl, hrandom⟩
      rw [hrandom]

/-- 29 February 2024. -/
def leapDay : LocalDate := ⟨2024, 1, 29⟩

/-- Draws of `0`, `1/8` and so on up to `7/8`. -/
def eighths (i : Nat) : Rat := mkRat i 8

theorem generateTrackingNumber_format_leapDay :
    generateTrackingNumber leapDay eighths = js "SHP-20240229-AEJNSW15" ∧
      TrackingFormat (generateTrackingNumber leapDay eighths) ∧
        generateTrackingNumber leapDay eighths ≠ generateTrackingNumber leapDay (fun i => eighths (7 - i)) := by
  have hdate : leapDay.InRange := ⟨by decide, by decide, by decide⟩
  have hdraws : ValidDraws eighths := by
    unfold ValidDraws
    decide
  have hback : ValidDraws fun i => eighths (7 - i) := by
    unfold ValidDraws
    decide
  refine ⟨by decide +kernel, generateTrackingNumber_format.1 leapDay eighths hdate hdraws, fun heq => ?_⟩
  have hchars := ((generateTrackingNumber_format.2 _ _ _ _ hdate hdate hdraws hback).1 heq).2
  exact absurd (hchars 0 (by omega)) (by decide +kernel)

end ShipmentManager
