import ShipmentManager.Listing

/-!
# The query object of a listing

`buildQuery` assigns one condition for each filter that is given; `buildQuery_eq` writes the object as the list of these
conditions.  A validated listing has valid dates, so the database can reject its query only for a pattern
(`ListQuery.error?_eq_none`).
-/

namespace ShipmentManager

open ShipmentRepository

variable (P : Platform)

def listQuery (params : QueryParams) : Query := buildQuery P.engine params.filters

/-- The shipments that match the filters. -/
def matching (db : Db) (params : QueryParams) : List Shipment :=
  db.docs.filter fun s => (listQuery P params).matches P.mongo s

/-- The conditions that the filters stand for. -/
def filterConditions (E : Engine) (filters : ShipmentFilterParams) : Query :=
  (present filters.status).toList.map (fun t => ("status", Condition.eq t)) ++
    (present filters.origin).toList.map (fun t => ("origin", Condition.regex t)) ++
    (present filters.destination).toList.map (fun t => ("destination", Condition.regex t)) ++
    (present filters.search).toList.map (fun t => ("$or", Condition.or [("senderName", t), ("receiverName", t)])) ++
    if truthy filters.startDate || truthy filters.endDate then
      [("createdAt", .range (createdAtFilter E filters))]
    else []

theorem buildQuery_eq (E : Engine) (filters : ShipmentFilterParams) :
    buildQuery E filters = filterConditions E filters := by
  unfold buildQuery filterConditions whenPresent
  cases present filters.status <;> cases present filters.origin <;> cases present filters.destination <;>
    cases present filters.search <;> cases truthy filters.startDate || truthy filters.endDate <;> rfl

theorem Query.error?_eq_none {M : Mongo} {q : Query} :
    q.error? M = none ↔ q.datesValid = true ∧ q.patternsValid M = true := by
  unfold error?
  cases q.datesValid <;> cases q.patternsValid M <;> simp

variable {P}

/-- A given text filter is not empty. -/
private theorem present_eq {max : Nat} {x : Option Text} (h : ∀ t ∈ x, FilterText max t) : present x = x := by
  cases x with
  | none => rfl
  | some t => simp [present, Option.filter, (h t rfl).2.1]

private theorem createdAtFilter_valid (E : Engine) (q : ListQuery) :
    ∀ b ∈ createdAtFilter E q.filters, b.2.isSome = true := by
  unfold createdAtFilter ListQuery.filters
  cases q.startDate <;> cases q.endDate <;> simp [Obj.set, JsValue.truthy]

theorem ListQuery.datesValid (q : ListQuery) : (listQuery P q.params).datesValid = true := by
  have hb := createdAtFilter_valid P.engine q
  show (buildQuery P.engine q.filters).datesValid = true
  rw [buildQuery_eq]
  unfold filterConditions Query.datesValid
  simp only [List.all_append, List.all_map, Bool.and_eq_true, List.all_eq_true]
  refine ⟨⟨⟨⟨fun _ _ => rfl, fun _ _ => rfl⟩, fun _ _ => rfl⟩, fun _ _ => rfl⟩, fun c hc => ?_⟩
  split at hc
  · rw [List.mem_singleton] at hc
    subst hc
    simpa using hb
  · cases hc

/-- The texts of a listing that the database reads as patterns. -/
def ListQuery.patterns (q : ListQuery) : List Text := q.origin.toList ++ q.destination.toList ++ q.search.toList

/-- The database rejects the query of a validated listing only for one of its patterns. -/
theorem ListQuery.error?_eq_none {q : ListQuery} :
    (listQuery P q.params).error? P.mongo = none ↔ ∀ t ∈ q.patterns, P.mongo.validPattern (toChars t) = true := by
  rw [Query.error?_eq_none, and_iff_right q.datesValid]
  show (buildQuery P.engine q.filters).patternsValid P.mongo = true ↔ _
  rw [buildQuery_eq]
  unfold filterConditions Query.patternsValid ListQuery.patterns
  have ho : present q.filters.origin = q.origin := present_eq q.origin_text
  have hd : present q.filters.destination = q.destination := present_eq q.destination_text
  have hs : present q.filters.search = q.search := present_eq q.search_text
  rw [ho, hd, hs]
  cases q.origin <;> cases q.destination <;> cases q.search <;>
    cases truthy q.filters.startDate || truthy q.filters.endDate <;>
      simp [Condition.patterns, List.all_append]

end ShipmentManager
