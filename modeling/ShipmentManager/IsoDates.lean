import ShipmentManager.Identifiers
import ShipmentManager.Lib.Calendar
import ShipmentManager.Requests
import ShipmentManager.TrackingNumbers

/-!
# What a response shows of a shipment

A response is the stored shipment in another form: the identifier and the two times are printed, and both can be read
back.  The printed identifier passes the checks of the routes and leads to the shipment again, and between the years 0
and 9999 the printed times are in the order of the times, as texts (`toResponse_faithful`).
-/

namespace ShipmentManager

/-! ### Dates -/

/-- The year, the month from 1 and the day from 1 of a date. -/
def civilOf (d : Calendar.Date) : Int × Int × Int :=
  (d.year + (if d.month < 10 then 0 else 1), (if d.month < 10 then (d.month : Int) + 3 else d.month - 9), d.day + 1)

theorem civilOfDays_eq (days : Int) : civilOfDays days = civilOf (Calendar.dateOf (days + 719468)) := by
  obtain ⟨doe, hdoe⟩ : ∃ doe : Nat, (days + 719468) % 146097 = doe :=
    ⟨_, (Int.toNat_of_nonneg (Int.emod_nonneg _ (by decide))).symm⟩
  have hera : ((Calendar.eraDays : Nat) : Int) = 146097 := rfl
  have hlt : doe < Calendar.eraDays := by
    unfold Calendar.eraDays
    omega
  have hyoe : ((doe : Int) - doe / 1460 + doe / 36524 - doe / 146096) / 365 = (Calendar.yearAt doe : Nat) := by
    unfold Calendar.yearAt
    omega
  obtain ⟨hy, hfirst, hlast⟩ := Calendar.yearAt_spec hlt
  have hmonthLt : Calendar.monthAt (doe - Calendar.daysBefore (Calendar.yearAt doe)) < 12 := by
    have hsucc := (Calendar.daysBefore_succ (Calendar.yearAt doe)).2
    exact Calendar.monthAt_lt (by omega)
  have hdoy : (doe : Int) - (365 * (Calendar.yearAt doe : Nat) + (Calendar.yearAt doe : Nat) / 4 -
      (Calendar.yearAt doe : Nat) / 100) = (doe - Calendar.daysBefore (Calendar.yearAt doe) : Nat) := by
    unfold Calendar.daysBefore at hfirst ⊢
    omega
  simp only [civilOfDays, Calendar.dateOf, civilOf, hera, hdoe, hyoe, hdoy, Int.toNat_natCast]
  generalize doe - Calendar.daysBefore (Calendar.yearAt doe) = doy at hmonthLt
  have hmonth : (5 * (doy : Int) + 2) / 153 = (Calendar.monthAt doy : Nat) := by
    unfold Calendar.monthAt
    omega
  obtain ⟨hmonthFirst, -⟩ := Calendar.monthAt_spec doy
  have hday : (doy : Int) - (153 * (Calendar.monthAt doy : Nat) + 2) / 5 =
      (doy - Calendar.daysBeforeMonth (Calendar.monthAt doy) : Nat) := by
    unfold Calendar.daysBeforeMonth at hmonthFirst ⊢
    omega
  rw [hmonth, hday]
  refine Prod.ext ?_ (Prod.ext ?_ rfl)
  · simp only
    split_ifs <;> omega
  · simp only
    split_ifs <;> omega

/-- The days up to a date that was made from a number of days. -/
theorem daysOfCivil_civilOfDays (days : Int) :
    daysOfCivil (civilOfDays days).1 (civilOfDays days).2.1 (civilOfDays days).2.2 = days := by
  rw [civilOfDays_eq]
  have hdays := Calendar.daysOf_dateOf (days + 719468)
  obtain ⟨hmonth, hday⟩ := Calendar.dateOf_range (days + 719468)
  generalize Calendar.dateOf (days + 719468) = d at hdays hmonth hday
  simp only [Calendar.daysOf, Calendar.daysBefore, Calendar.daysBeforeMonth, Calendar.eraDays] at hdays
  simp only [daysOfCivil, civilOf]
  split_ifs <;> omega

/-! ### Fields of digits -/

/-- A field of the printed form. -/
def isoField (width : Nat) (n : Int) : Text := padStart width (decimal n.natAbs)

/-- The printed form after the year. -/
def isoRest (month day hour minute second milli : Int) : Text :=
  js "-" ++ (isoField 2 month ++ (js "-" ++ (isoField 2 day ++ (js "T" ++ (isoField 2 hour ++ (js ":" ++
    (isoField 2 minute ++ (js ":" ++ (isoField 2 second ++ (js "." ++ (isoField 3 milli ++ js "Z")))))))))))

/-- The part of the printed form of a time that comes after its year. -/
def isoRestOf (ms : Int) : Text :=
  isoRest (civilOfDays (ms / 86400000)).2.1 (civilOfDays (ms / 86400000)).2.2 (ms % 86400000 / 3600000)
    (ms % 86400000 / 60000 % 60) (ms % 86400000 / 1000 % 60) (ms % 86400000 % 1000)

theorem toISOString_eq (ms : Int) : toISOString ms = yearText (civilOfDays (ms / 86400000)).1 ++ isoRestOf ms := by
  simp only [isoRestOf, isoRest, ← List.append_assoc]
  rfl

section Field

variable {width : Nat} {n : Int}

theorem length_isoField (hwidth : 0 < width) (hn : 0 ≤ n ∧ n < 10 ^ width) : (isoField width n).length = width := by
  have hlt : n.natAbs < 10 ^ width := by
    zify
    rw [abs_of_nonneg hn.1]
    exact hn.2
  exact length_padStart (length_decimal_le hwidth hlt)

theorem numeralValue_isoField (hn : 0 ≤ n) : numeralValue (isoField width n) = n := by
  rw [isoField, numeralValue_padStart, numeralValue_decimal]
  exact Int.natAbs_of_nonneg hn

/-- The digits, as an alphabet. -/
private theorem isAlphabet_digit : Positional.IsAlphabet 10 IsDigit fun u => u.toNat - 48 := by
  have hbounds : ∀ u, IsDigit u → 48 ≤ u.toNat ∧ u.toNat ≤ 57 := fun u hu =>
    ⟨UInt16.le_iff_toNat_le.1 hu.1, UInt16.le_iff_toNat_le.1 hu.2⟩
  refine ⟨fun u hu => ?_, fun u v hu hv => ?_, fun u v hu hv heq => ?_⟩
  · have := hbounds u hu
    omega
  · have := hbounds u hu
    have := hbounds v hv
    rw [UInt16.lt_iff_toNat_lt]
    omega
  · have := hbounds u hu
    have := hbounds v hv
    exact UInt16.toNat_inj.1 (by omega)

private theorem numeralValue_eq (t : Text) :
    numeralValue t = (Positional.value 10 (t.map fun u => u.toNat - 48) : Nat) := by
  have hfold : ∀ n : Nat, t.foldl (fun (n : Int) u => 10 * n + (u.toNat - 48 : Nat)) n =
      ((t.map fun u => u.toNat - 48).foldl (fun n d => 10 * n + d) n : Nat) := by
    induction t with
    | nil => intro n; rfl
    | cons u t ih => intro n; exact ih (10 * n + (u.toNat - 48))
  exact hfold 0

/-- Two texts that begin with a field are compared by its number first. -/
theorem isoField_append_lt {m : Int} (hwidth : 0 < width) (hm : 0 ≤ m ∧ m < 10 ^ width) (hn : 0 ≤ n ∧ n < 10 ^ width)
    (r r' : Text) : isoField width m ++ r < isoField width n ++ r' ↔ m < n ∨ m = n ∧ r < r' := by
  have hlength : (isoField width m).length = (isoField width n).length := by
    rw [length_isoField hwidth hm, length_isoField hwidth hn]
  have hlt : isoField width m < isoField width n ↔ m < n := by
    rw [Positional.lt_iff_value_lt isAlphabet_digit hlength (fun u => isDigit_of_mem_padStart)
      fun u => isDigit_of_mem_padStart, ← Int.ofNat_lt, ← numeralValue_eq, ← numeralValue_eq,
      numeralValue_isoField hm.1, numeralValue_isoField hn.1]
  have heq : isoField width m = isoField width n ↔ m = n := by
    constructor
    · intro h
      have hvalue : numeralValue (isoField width m) = m := numeralValue_isoField hm.1
      rw [← hvalue, h, numeralValue_isoField hn.1]
    · exact congrArg _
  rw [Positional.append_lt_append_iff hlength, hlt, heq]

end Field

/-- The ranges of the fields after the year. -/
private theorem isoFields_range (ms : Int) :
    (0 ≤ (civilOfDays (ms / 86400000)).2.1 ∧ (civilOfDays (ms / 86400000)).2.1 < 10 ^ 2) ∧
      (0 ≤ (civilOfDays (ms / 86400000)).2.2 ∧ (civilOfDays (ms / 86400000)).2.2 < 10 ^ 2) ∧
      (0 ≤ ms % 86400000 / 3600000 ∧ ms % 86400000 / 3600000 < 10 ^ 2) ∧
      (0 ≤ ms % 86400000 / 60000 % 60 ∧ ms % 86400000 / 60000 % 60 < 10 ^ 2) ∧
      (0 ≤ ms % 86400000 / 1000 % 60 ∧ ms % 86400000 / 1000 % 60 < 10 ^ 2) ∧
      (0 ≤ ms % 86400000 % 1000 ∧ ms % 86400000 % 1000 < 10 ^ 3) := by
  obtain ⟨hmonth, hday⟩ := Calendar.dateOf_range (ms / 86400000 + 719468)
  rw [civilOfDays_eq]
  generalize Calendar.dateOf (ms / 86400000 + 719468) = d at hmonth hday
  simp only [civilOf]
  refine ⟨?_, ?_, ?_, ?_, ?_, ?_⟩
  · split_ifs <;> omega
  all_goals omega

/-! ### Reading a printed time -/

/-- The year that a text stands for: four digits, or a sign and more digits. -/
def yearOfText (t : Text) : Int :=
  if t.head? = some 45 then -numeralValue t.tail
  else if t.head? = some 43 then numeralValue t.tail
  else numeralValue t

/-- The time that an ISO form stands for.  What follows the year has a fixed length. -/
def timeOfISO (t : Text) : Int :=
  let rest := t.drop (t.length - 20)
  let field (i width : Nat) : Int := numeralValue ((rest.drop i).take width)
  daysOfCivil (yearOfText (t.take (t.length - 20))) (field 1 2) (field 4 2) * 86400000 + field 7 2 * 3600000 +
    field 10 2 * 60000 + field 13 2 * 1000 + field 16 3

private theorem yearOfText_yearText (year : Int) : yearOfText (yearText year) = year := by
  unfold yearText
  split
  · rename_i h
    have hdigit : ∀ u ∈ isoField 4 year, IsDigit u := fun u => isDigit_of_mem_padStart
    have hvalue : numeralValue (isoField 4 year) = year := numeralValue_isoField h.1
    have hlength : (isoField 4 year).length = 4 := length_isoField (by omega) ⟨h.1, by omega⟩
    change yearOfText (isoField 4 year) = year
    cases htext : isoField 4 year with
    | nil => simp [htext] at hlength
    | cons u t =>
      have hu := hdigit u (by rw [htext]; exact List.mem_cons_self ..)
      have h45 : u ≠ 45 := by
        rintro rfl
        exact absurd hu.1 (by decide)
      have h43 : u ≠ 43 := by
        rintro rfl
        exact absurd hu.1 (by decide)
      rw [htext] at hvalue
      simp [yearOfText, h45, h43, hvalue]
  · have hvalue : numeralValue (padStart 6 (decimal year.natAbs)) = year.natAbs := by
      rw [numeralValue_padStart, numeralValue_decimal]
    by_cases hneg : year < 0
    · simp only [yearOfText, if_pos hneg, List.head?_cons, List.tail_cons, ↓reduceIte, hvalue]
      omega
    · have h : (43 : UInt16) ≠ 45 := by decide
      simp only [yearOfText, if_neg hneg, List.head?_cons, List.tail_cons, ↓reduceIte, hvalue, Option.some.injEq, h]
      omega

/-- A field is found at its place. -/
private theorem numeralValue_field_at {t : Text} (pre : Text) {i width : Nat} {n : Int} (hi : pre.length = i)
    (ht : ∃ post, t = pre ++ (isoField width n ++ post)) (hwidth : 0 < width) (hn : 0 ≤ n ∧ n < 10 ^ width) :
    numeralValue ((t.drop i).take width) = n := by
  obtain ⟨post, ht⟩ := ht
  rw [ht, List.drop_left' hi, List.take_left' (length_isoField hwidth hn), numeralValue_isoField hn.1]

private theorem js_length : (js "-").length = 1 ∧ (js "T").length = 1 ∧ (js ":").length = 1 ∧ (js ".").length = 1 ∧
    (js "Z").length = 1 := by
  decide

section Rest

variable {month day hour minute second milli : Int}

theorem length_isoRest (hmonth : 0 ≤ month ∧ month < 10 ^ 2) (hday : 0 ≤ day ∧ day < 10 ^ 2)
    (hhour : 0 ≤ hour ∧ hour < 10 ^ 2) (hminute : 0 ≤ minute ∧ minute < 10 ^ 2)
    (hsecond : 0 ≤ second ∧ second < 10 ^ 2) (hmilli : 0 ≤ milli ∧ milli < 10 ^ 3) :
    (isoRest month day hour minute second milli).length = 20 := by
  obtain ⟨hdash, hT, hcolon, hdot, hZ⟩ := js_length
  have h2 : 0 < 2 := by omega
  simp only [isoRest, List.length_append, hdash, hT, hcolon, hdot, hZ, length_isoField h2 hmonth,
    length_isoField h2 hday, length_isoField h2 hhour, length_isoField h2 hminute, length_isoField h2 hsecond,
    length_isoField (by omega : 0 < 3) hmilli]

/-- The fields are at fixed places. -/
theorem isoRest_fields (hmonth : 0 ≤ month ∧ month < 10 ^ 2) (hday : 0 ≤ day ∧ day < 10 ^ 2)
    (hhour : 0 ≤ hour ∧ hour < 10 ^ 2) (hminute : 0 ≤ minute ∧ minute < 10 ^ 2)
    (hsecond : 0 ≤ second ∧ second < 10 ^ 2) (hmilli : 0 ≤ milli ∧ milli < 10 ^ 3) :
    let rest := isoRest month day hour minute second milli
    numeralValue ((rest.drop 1).take 2) = month ∧ numeralValue ((rest.drop 4).take 2) = day ∧
      numeralValue ((rest.drop 7).take 2) = hour ∧ numeralValue ((rest.drop 10).take 2) = minute ∧
      numeralValue ((rest.drop 13).take 2) = second ∧ numeralValue ((rest.drop 16).take 3) = milli := by
  obtain ⟨hdash, hT, hcolon, hdot, -⟩ := js_length
  have h2 : 0 < 2 := by omega
  have lmonth := length_isoField h2 hmonth
  have lday := length_isoField h2 hday
  have lhour := length_isoField h2 hhour
  have lminute := length_isoField h2 hminute
  have lsecond := length_isoField h2 hsecond
  refine ⟨numeralValue_field_at (js "-") ?_ ?_ h2 hmonth,
    numeralValue_field_at (js "-" ++ isoField 2 month ++ js "-") ?_ ?_ h2 hday,
    numeralValue_field_at (js "-" ++ isoField 2 month ++ js "-" ++ isoField 2 day ++ js "T") ?_ ?_ h2 hhour,
    numeralValue_field_at (js "-" ++ isoField 2 month ++ js "-" ++ isoField 2 day ++ js "T" ++ isoField 2 hour ++
      js ":") ?_ ?_ h2 hminute,
    numeralValue_field_at (js "-" ++ isoField 2 month ++ js "-" ++ isoField 2 day ++ js "T" ++ isoField 2 hour ++
      js ":" ++ isoField 2 minute ++ js ":") ?_ ?_ h2 hsecond,
    numeralValue_field_at (js "-" ++ isoField 2 month ++ js "-" ++ isoField 2 day ++ js "T" ++ isoField 2 hour ++
      js ":" ++ isoField 2 minute ++ js ":" ++ isoField 2 second ++ js ".") ?_ ?_ (by omega) hmilli⟩
  case refine_1 | refine_3 | refine_5 | refine_7 | refine_9 | refine_11 =>
    simp only [List.length_append, hdash, hT, hcolon, hdot, lmonth, lday, lhour, lminute, lsecond]
  all_goals
    simp only [isoRest, List.append_assoc]
    exact ⟨_, rfl⟩

end Rest

/-- A printed time is read back. -/
theorem timeOfISO_toISOString (ms : Int) : timeOfISO (toISOString ms) = ms := by
  obtain ⟨hmonth, hday, hhour, hminute, hsecond, hmilli⟩ := isoFields_range ms
  have hdays := daysOfCivil_civilOfDays (ms / 86400000)
  have hlength : (isoRestOf ms).length = 20 := length_isoRest hmonth hday hhour hminute hsecond hmilli
  obtain ⟨rmonth, rday, rhour, rminute, rsecond, rmilli⟩ := isoRest_fields hmonth hday hhour hminute hsecond hmilli
  have hsplit : (toISOString ms).length - 20 = (yearText (civilOfDays (ms / 86400000)).1).length := by
    rw [toISOString_eq, List.length_append, hlength]
    omega
  have hyear : (toISOString ms).take ((toISOString ms).length - 20) = yearText (civilOfDays (ms / 86400000)).1 := by
    rw [hsplit, toISOString_eq, List.take_left]
  have hrest : (toISOString ms).drop ((toISOString ms).length - 20) = isoRestOf ms := by
    rw [hsplit, toISOString_eq, List.drop_left]
  simp only [timeOfISO, hyear, hrest, yearOfText_yearText, isoRestOf, rmonth, rday, rhour, rminute, rsecond, rmilli,
    hdays]
  omega

/-! ### The order of printed times -/

/-- A time from the beginning of the year 0 to the end of the year 9999. -/
def InFourDigitYears (ms : Int) : Prop := -62167219200000 ≤ ms ∧ ms < 253402300800000

instance (ms : Int) : Decidable (InFourDigitYears ms) :=
  inferInstanceAs (Decidable (-62167219200000 ≤ ms ∧ ms < 253402300800000))

/-- The months from January of the year 0 to a day. -/
private theorem months_civilOfDays (days : Int) : (civilOfDays days).1 * 12 + (civilOfDays days).2.1 - 1 =
      (Calendar.dateOf (days + 719468)).months + 2 ∧
    1 ≤ (civilOfDays days).2.1 ∧ (civilOfDays days).2.1 ≤ 12 ∧
      (civilOfDays days).2.2 = (Calendar.dateOf (days + 719468)).day + 1 := by
  obtain ⟨hmonth, -⟩ := Calendar.dateOf_range (days + 719468)
  rw [civilOfDays_eq]
  generalize Calendar.dateOf (days + 719468) = d at hmonth
  simp only [civilOf, Calendar.Date.months]
  split_ifs
  · refine ⟨?_, ?_, ?_, trivial⟩ <;> omega
  · refine ⟨?_, ?_, ?_, trivial⟩ <;> omega

/-- A later day has a later date. -/
theorem civilOfDays_lt_iff {m n : Int} : m < n ↔ (civilOfDays m).1 < (civilOfDays n).1 ∨
    (civilOfDays m).1 = (civilOfDays n).1 ∧ ((civilOfDays m).2.1 < (civilOfDays n).2.1 ∨
      (civilOfDays m).2.1 = (civilOfDays n).2.1 ∧ (civilOfDays m).2.2 < (civilOfDays n).2.2) := by
  have hm := months_civilOfDays m
  have hn := months_civilOfDays n
  have hlt := Calendar.dateOf_lt_iff (m := m + 719468) (n := n + 719468)
  omega

theorem InFourDigitYears.year {ms : Int} (h : InFourDigitYears ms) :
    0 ≤ (civilOfDays (ms / 86400000)).1 ∧ (civilOfDays (ms / 86400000)).1 < 10 ^ 4 := by
  obtain ⟨hfirst, hlast⟩ := h
  have hbefore : ¬ ms / 86400000 < -719528 := by omega
  have hafter : ¬ 2932896 < ms / 86400000 := by omega
  rw [civilOfDays_lt_iff] at hbefore hafter
  have hyear₀ : civilOfDays (-719528) = (0, 1, 1) := by decide
  have hyear₁ : civilOfDays 2932896 = (9999, 12, 31) := by decide
  rw [hyear₀] at hbefore
  rw [hyear₁] at hafter
  simp only at hbefore hafter
  omega

private theorem append_lt_append_left (s : Text) {r r' : Text} : s ++ r < s ++ r' ↔ r < r' := by
  rw [Positional.append_lt_append_iff rfl]
  constructor
  · rintro (h | ⟨-, h⟩)
    · exact absurd h (List.lt_irrefl _)
    · exact h
  · intro h
    exact Or.inr ⟨rfl, h⟩

/-- The clock of a day. -/
private theorem clock_lt_iff (s t : Int) : s < t ↔ s / 3600000 < t / 3600000 ∨
    s / 3600000 = t / 3600000 ∧ (s / 60000 % 60 < t / 60000 % 60 ∨ s / 60000 % 60 = t / 60000 % 60 ∧
      (s / 1000 % 60 < t / 1000 % 60 ∨ s / 1000 % 60 = t / 1000 % 60 ∧ s % 1000 < t % 1000)) := by
  have hours : s < t ↔ s / 3600000 < t / 3600000 ∨
      s / 3600000 = t / 3600000 ∧ s % 3600000 < t % 3600000 := by omega
  have minutes : s % 3600000 < t % 3600000 ↔ s / 60000 % 60 < t / 60000 % 60 ∨
      s / 60000 % 60 = t / 60000 % 60 ∧ s % 60000 < t % 60000 := by omega
  have seconds : s % 60000 < t % 60000 ↔ s / 1000 % 60 < t / 1000 % 60 ∨
      s / 1000 % 60 = t / 1000 % 60 ∧ s % 1000 < t % 1000 := by omega
  rw [hours, minutes, seconds]

/-- The parts after the year are compared field by field. -/
private theorem isoRestOf_lt_iff {a b : Int} : isoRestOf a < isoRestOf b ↔
    (civilOfDays (a / 86400000)).2.1 < (civilOfDays (b / 86400000)).2.1 ∨
      (civilOfDays (a / 86400000)).2.1 = (civilOfDays (b / 86400000)).2.1 ∧
        ((civilOfDays (a / 86400000)).2.2 < (civilOfDays (b / 86400000)).2.2 ∨
          (civilOfDays (a / 86400000)).2.2 = (civilOfDays (b / 86400000)).2.2 ∧ a % 86400000 < b % 86400000) := by
  obtain ⟨hmonth, hday, hhour, hminute, hsecond, hmilli⟩ := isoFields_range a
  obtain ⟨hmonth', hday', hhour', hminute', hsecond', hmilli'⟩ := isoFields_range b
  have h2 : 0 < 2 := by omega
  have hend : ¬ js "Z" < js "Z" := List.lt_irrefl _
  rw [clock_lt_iff (a % 86400000), isoRestOf, isoRestOf, isoRest, isoRest, append_lt_append_left (js "-"),
    isoField_append_lt h2 hmonth hmonth', append_lt_append_left (js "-"), isoField_append_lt h2 hday hday',
    append_lt_append_left (js "T"), isoField_append_lt h2 hhour hhour', append_lt_append_left (js ":"),
    isoField_append_lt h2 hminute hminute', append_lt_append_left (js ":"), isoField_append_lt h2 hsecond hsecond',
    append_lt_append_left (js "."), isoField_append_lt (by omega) hmilli hmilli']
  simp only [hend, and_false, or_false]

/-- Printed times are in the order of the times. -/
theorem toISOString_lt_iff {a b : Int} (ha : InFourDigitYears a) (hb : InFourDigitYears b) :
    toISOString a < toISOString b ↔ a < b := by
  have hyearText : ∀ year : Int, 0 ≤ year ∧ year < 10 ^ 4 → yearText year = isoField 4 year := by
    intro year hyear
    rw [yearText, if_pos ⟨hyear.1, by omega⟩]
    rfl
  have hdays := civilOfDays_lt_iff (m := a / 86400000) (n := b / 86400000)
  have hdays' := civilOfDays_lt_iff (m := b / 86400000) (n := a / 86400000)
  rw [toISOString_eq, toISOString_eq, hyearText _ ha.year, hyearText _ hb.year,
    isoField_append_lt (by omega) ha.year hb.year, isoRestOf_lt_iff]
  omega

/-! ### The shipment that a response shows -/

/-- The shipment that a response was made from. -/
def ShipmentResponse.shipment (r : ShipmentResponse) : Shipment where
  _id := hexValue r.id
  trackingNumber := r.trackingNumber
  senderName := r.senderName
  receiverName := r.receiverName
  origin := r.origin
  destination := r.destination
  status := r.status
  createdAt := timeOfISO r.createdAt
  updatedAt := timeOfISO r.updatedAt

theorem shipment_toResponse {s : Shipment} (h : IsObjectId s._id) : (ShipmentService.toResponse s).shipment = s := by
  simp only [ShipmentResponse.shipment, ShipmentService.toResponse, hexValue_objectIdToText h, timeOfISO_toISOString]

variable (P : Platform) in
/-- The text passes the validator of the routes, wherever it is what a path parameter decodes to, and the check of the
service; then it is cast to the identifier. -/
structure Leads (text : Text) (id : ObjectId) : Prop where
  validator : validateParams P text = .ok text
  route : ∀ raw, P.express.decodeParam raw = .ok text → planId P raw = .ok text
  service : ShipmentService.validateObjectId P text = .ok ()
  cast : P.model.castObjectId text = some id

theorem leads_objectIdToText (P : Platform) {id : ObjectId} (h : IsObjectId id) : Leads P (objectIdToText id) id where
  validator := validateParams_hex (isObjectIdText_objectIdToText id)
  route _ hraw := planId_of_decoded hraw (isObjectIdText_objectIdToText id)
  service := if_pos (P.model.isValidObjectId_hex _ (isObjectIdText_objectIdToText id))
  cast := by rw [P.model.castObjectId_hex _ (isObjectIdText_objectIdToText id), hexValue_objectIdToText h]

/-- A response can be turned back into the shipment that it was made from, its identifier is one that the routes accept
and that leads to this shipment, and responses are in the order of their times as texts. -/
theorem toResponse_faithful (P : Platform) :
    (∀ s, IsObjectId s._id → (ShipmentService.toResponse s).shipment = s ∧
      Leads P (ShipmentService.toResponse s).id s._id) ∧
      ∀ s s', InFourDigitYears s.createdAt → InFourDigitYears s'.createdAt →
        ((ShipmentService.toResponse s).createdAt < (ShipmentService.toResponse s').createdAt ↔
          s.createdAt < s'.createdAt) :=
  ⟨fun _ hs => ⟨shipment_toResponse hs, leads_objectIdToText P hs⟩, fun _ _ hs hs' => toISOString_lt_iff hs hs'⟩

/-- A shipment and a later one, whose responses are in the order of their times. -/
theorem toResponse_faithful_sample :
    (ShipmentService.toResponse (sampleShipment 1 .pending)).shipment = sampleShipment 1 .pending ∧
      Leads referencePlatform (ShipmentService.toResponse (sampleShipment 1 .pending)).id 1 ∧
        planId referencePlatform (js "000000000000000000000001") = .ok (js "000000000000000000000001") ∧
          (ShipmentService.toResponse (sampleShipment 1 .pending)).createdAt <
            (ShipmentService.toResponse { sampleShipment 2 .pending with createdAt := 1709251199999 }).createdAt := by
  obtain ⟨hfaithful, hordered⟩ := toResponse_faithful referencePlatform
  obtain ⟨hshipment, hleads⟩ := hfaithful (sampleShipment 1 .pending) (Nat.one_lt_pow (by omega) (by omega))
  exact ⟨hshipment, hleads, hleads.route _ (by decide +kernel), (hordered _ _ (by decide) (by decide)).2 (by decide)⟩

example : timeOfISO (js "2024-02-29T23:59:59.999Z") = 1709251199999 := by decide +kernel

example : toISOString (-1) = js "1969-12-31T23:59:59.999Z" := by decide +kernel

end ShipmentManager
