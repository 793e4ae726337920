import ShipmentManager.Filters
import ShipmentManager.Requests

/-!
# Date ranges

A date-only text is read as the first instant of its day in UTC, and the bounds of a listing are instants: the range
from a day `s` to a day `e` holds the days from `s` on and before `e`, and of the day `e` its first instant alone.
-/

namespace ShipmentManager

/-- The UTC calendar day of a time, counted from 1970-01-01. -/
def dayOf (ms : Int) : Int := ms / 86400000

/-- The first instant of a day. -/
def startOfDay (day : Int) : Int := day * 86400000

/-- `YYYY-MM-DD` -/
def dayText (day : Int) : Text :=
  let (year, month, dayOfMonth) := civilOfDays day
  yearText year ++ js "-" ++ padStart 2 (decimal month.natAbs) ++ js "-" ++ padStart 2 (decimal dayOfMonth.natAbs)

variable (P : Platform)

/-- The validator reads the text of a day as UTC. -/
def ReadsDay (day : Int) : Prop := P.joi.isoDateOf (.str (dayText day)) = some (startOfDay day)

/-- An accepted listing from one day to another, with any other filters. -/
structure RangeRequest (a : Arrival P) (s e : Int) (params : QueryParams) : Prop where
  order : s ≤ e
  given : ∃ text, a.request.route = .getAll text ∧
    Obj.get? (P.express.parseQuery text) "startDate" = some (.str (dayText s)) ∧
      Obj.get? (P.express.parseQuery text) "endDate" = some (.str (dayText e))
  accepted : plan P a = .ok (.list params)

def QueryParams.withoutDates (params : QueryParams) : QueryParams :=
  { params with filters := params.filters.withoutDates }

variable {P}

/-- The first instants of two days bound the days from the first one on and before the second one. -/
theorem between_days_iff {s e ms : Int} (h : s ≤ e) :
    startOfDay s ≤ ms ∧ ms ≤ startOfDay e ↔ (s ≤ dayOf ms ∧ dayOf ms < e) ∨ ms = startOfDay e := by
  unfold startOfDay dayOf
  omega

section Request

variable {a : Arrival P} {s e : Int} {params : QueryParams}

/-- The date bounds of the listing are the first instants of the two days. -/
theorem RangeRequest.bounds (h : RangeRequest P a s e params) (hs : ReadsDay P s) (he : ReadsDay P e) :
    params.filters.startDate = some (.date (startOfDay s)) ∧ params.filters.endDate = some (.date (startOfDay e)) := by
  obtain ⟨text, hroute, hstart, hend⟩ := h.given
  cases plan_checked h.accepted with
  | list text' query _ route valid parsed =>
    rw [hroute] at route
    cases route
    obtain ⟨-, hrange, hreads⟩ := list_output valid
    rw [parseQueryParams_reads P.engine hreads] at parsed
    cases parsed
    constructor
    · show ((Obj.get? (P.express.parseQuery text) "startDate").bind P.joi.isoDateOf).map JsValue.date = _
      rw [hstart, Option.bind_some, hs, Option.map_some]
    · show ((Obj.get? (P.express.parseQuery text) "endDate").bind P.joi.isoDateOf).map JsValue.date = _
      rw [hend, Option.bind_some, he, Option.map_some]

/-- A range of dates selects the shipments created on a day from the first one on and before the last one, and those
created at the first instant of the last one. -/
theorem date_range_selects (h : RangeRequest P a s e params) (hs : ReadsDay P s) (he : ReadsDay P e) (db : Db)
    (d : Shipment) : d ∈ matching P db params ↔ d ∈ matching P db params.withoutDates ∧
      ((s ≤ dayOf d.createdAt ∧ dayOf d.createdAt < e) ∨ d.createdAt = startOfDay e) := by
  obtain ⟨hstart, hend⟩ := h.bounds hs he
  rw [← between_days_iff h.order, matching_eq, matching_eq, List.mem_filter, List.mem_filter, selects_dates, hstart,
    hend]
  simp only [Option.mem_some_iff, forall_eq', JsValue.truthy, Engine.newDate_date, inBound, decide_eq_true_eq,
    forall_const, and_assoc]
  exact Iff.rfl

end Request

/-- A listing of the first of January 1970. -/
def firstDayRequest : Arrival referencePlatform := listRequest "startDate=1970-01-01&endDate=1970-01-01"

def firstDayParams : QueryParams where
  page := 1
  limit := 10
  sortBy := js "createdAt"
  order := .desc
  filters := { noFilters with startDate := some (.date 0), endDate := some (.date 0) }

theorem firstDayRequest_range : RangeRequest referencePlatform firstDayRequest 0 0 firstDayParams where
  order := le_rfl
  given := ⟨_, rfl, by rfl, by rfl⟩
  accepted := by rfl

theorem readsDay_first : ReadsDay referencePlatform 0 := by
  unfold ReadsDay
  decide

/-- A shipment created at noon of that day. -/
def noonShipment : Shipment := { sampleShipment 1 .pending with createdAt := 43200000 }

def noonStore : Db := storeOf [noonShipment] (List.nodup_singleton _)

theorem date_range_selects_firstDay : noonShipment ∈ matching referencePlatform noonStore firstDayParams ↔
    noonShipment ∈ matching referencePlatform noonStore firstDayParams.withoutDates ∧
      ((0 ≤ dayOf noonShipment.createdAt ∧ dayOf noonShipment.createdAt < 0) ∨
        noonShipment.createdAt = startOfDay 0) :=
  date_range_selects firstDayRequest_range readsDay_first readsDay_first noonStore noonShipment

/-- The range from a day to the same day misses a shipment that was created on it. -/
theorem date_range_whole_days_fails :
    ¬ ∀ (P : Platform) (a : Arrival P) (s e : Int) (params : QueryParams), RangeRequest P a s e params →
      ReadsDay P s → ReadsDay P e → ∀ (db : Db) (d : Shipment), d ∈ matching P db params ↔
        d ∈ matching P db params.withoutDates ∧ s ≤ dayOf d.createdAt ∧ dayOf d.createdAt ≤ e := by
  intro h
  have hiff := h referencePlatform firstDayRequest 0 0 firstDayParams firstDayRequest_range readsDay_first
    readsDay_first noonStore noonShipment
  have hother : noonShipment ∈ matching referencePlatform noonStore firstDayParams.withoutDates :=
    List.mem_filter.2 ⟨List.mem_singleton_self _, by decide⟩
  have hmem := hiff.2 ⟨hother, by decide, by decide⟩
  have hmatch := (List.mem_filter.1 hmem).2
  revert hmatch
  decide

end ShipmentManager
