import ShipmentManager.Pages

/-!
# Filters compose by intersection

Every filter of a listing adds a condition of its own to the query object, whatever the other filters are: a shipment
matches the query of some filters when it matches the query of each of them alone (`selects_iff_given`).  Nothing is
assumed of the patterns: `found` may be any reading of them.  So a further filter takes shipments away and adds none
(`filters_compose`).
-/

namespace ShipmentManager

open ShipmentRepository Interleaving

/-! ### Any reading of the patterns -/

section Under

variable (found : Shipment → String → Text → Bool)

/-- `Condition.holds` when `found` says which patterns are found in which fields. -/
def Condition.holdsUnder (s : Shipment) (field : String) : Condition → Bool
  | eq value => s.text? field = some value
  | regex pattern => found s field pattern
  | or alternatives => alternatives.any fun a => found s a.1 a.2
  | range bounds => (s.date? field).any fun v => bounds.all fun b => inBound v b.1 b.2

/-- `Query.matches` when `found` says which patterns are found in which fields. -/
def Query.matchesUnder (q : Query) (s : Shipment) : Bool := List.all q fun c => c.2.holdsUnder found s c.1

/-- The database reads the patterns in its own way. -/
theorem Query.matches_eq (M : Mongo) (q : Query) (s : Shipment) :
    q.matches M s = q.matchesUnder M.matchesPattern s := by
  unfold Query.matches matchesUnder
  refine congrArg (List.all q) (funext fun c => ?_)
  cases c.2 <;> rfl

end Under

/-! ### One filter alone -/

/-- A filter that a client gives. -/
inductive Filter where
  | status (t : Text)
  | origin (t : Text)
  | destination (t : Text)
  | search (t : Text)
  | startDate (v : JsValue)
  | endDate (v : JsValue)

def noFilters : ShipmentFilterParams := ⟨none, none, none, none, none, none⟩

/-- The filters with one of them given. -/
def Filter.alone : Filter → ShipmentFilterParams
  | status t => { noFilters with status := some t }
  | origin t => { noFilters with origin := some t }
  | destination t => { noFilters with destination := some t }
  | search t => { noFilters with search := some t }
  | startDate v => { noFilters with startDate := some v }
  | endDate v => { noFilters with endDate := some v }

/-- The filters that are given. -/
def ShipmentFilterParams.given (filters : ShipmentFilterParams) : List Filter :=
  filters.status.toList.map .status ++ filters.origin.toList.map .origin ++
    filters.destination.toList.map .destination ++ filters.search.toList.map .search ++
    filters.startDate.toList.map .startDate ++ filters.endDate.toList.map .endDate

/-- The filters without the date bounds. -/
def ShipmentFilterParams.withoutDates (filters : ShipmentFilterParams) : ShipmentFilterParams :=
  { filters with startDate := none, endDate := none }

section Compose

variable (E : Engine) (found : Shipment → String → Text → Bool) (s : Shipment)

/-- A shipment matches the query object that `list` builds from some filters. -/
def Selects (filters : ShipmentFilterParams) : Bool := (buildQuery E filters).matchesUnder found s

/-- The condition of a text filter, if it is given. -/
private def textHolds (field : String) (condition : Text → Condition) (filter : Option Text) : Bool :=
  (present filter).all fun t => (condition t).holdsUnder found s field

/-- The bounds on the time of creation, as far as they are given. -/
private def inRange (filters : ShipmentFilterParams) : Bool :=
  (createdAtFilter E filters).all fun b => inBound s.createdAt b.1 b.2

private theorem createdAtFilter_eq_nil {filters : ShipmentFilterParams} (hs : ¬ truthy filters.startDate = true)
    (he : ¬ truthy filters.endDate = true) : createdAtFilter E filters = [] := by
  unfold createdAtFilter
  rcases hstart : filters.startDate with _ | v <;> rcases hend : filters.endDate with _ | v' <;>
    simp_all [truthy]

private theorem inRange_iff (filters : ShipmentFilterParams) : inRange E s filters = true ↔
    (∀ v ∈ filters.startDate, v.truthy = true → inBound s.createdAt "$gte" (E.newDate v) = true) ∧
      ∀ v ∈ filters.endDate, v.truthy = true → inBound s.createdAt "$lte" (E.newDate v) = true := by
  unfold inRange createdAtFilter
  rcases filters.startDate with _ | v <;> rcases filters.endDate with _ | v'
  · simp
  · by_cases h' : v'.truthy = true <;> simp [h', Obj.set]
  · by_cases h : v.truthy = true <;> simp [h, Obj.set]
  · by_cases h : v.truthy = true <;> by_cases h' : v'.truthy = true <;> simp [h, h', Obj.set]

private theorem selects_iff (filters : ShipmentFilterParams) : Selects E found s filters = true ↔
    textHolds found s "status" .eq filters.status = true ∧ textHolds found s "origin" .regex filters.origin = true ∧
      textHolds found s "destination" .regex filters.destination = true ∧
      textHolds found s "$or" (fun t => .or [("senderName", t), ("receiverName", t)]) filters.search = true ∧
      inRange E s filters = true := by
  have hdate : (if truthy filters.startDate || truthy filters.endDate then
      [("createdAt", Condition.range (createdAtFilter E filters))] else []).all
        (fun c => c.2.holdsUnder found s c.1) = inRange E s filters := by
    unfold inRange
    split
    · simp [Condition.holdsUnder, Shipment.date?]
    · rename_i hnone
      rw [Bool.or_eq_true, not_or] at hnone
      rw [createdAtFilter_eq_nil E hnone.1 hnone.2]
      rfl
  have htext : ∀ (field : String) (condition : Text → Condition) (x : Option Text),
      ((x.toList.map fun t => (field, condition t)).all fun c => c.2.holdsUnder found s c.1) =
        x.all fun t => (condition t).holdsUnder found s field := by
    intro field condition x
    cases x <;> simp
  unfold Selects Query.matchesUnder
  rw [buildQuery_eq]
  unfold filterConditions
  simp only [List.all_append, htext, hdate, Bool.and_eq_true, and_assoc]
  exact Iff.rfl

private theorem textHolds_none (field : String) (condition : Text → Condition) :
    textHolds found s field condition none = true := rfl

private theorem textHolds_iff (field : String) (condition : Text → Condition) (x : Option Text) :
    textHolds found s field condition x = true ↔ ∀ t ∈ x, textHolds found s field condition (some t) = true := by
  cases x with
  | none => simp [textHolds_none]
  | some t => simp

/-- A shipment matches the query object of some filters exactly when it matches that of each of them alone. -/
private theorem selects_iff_given (filters : ShipmentFilterParams) : Selects E found s filters = true ↔
    ∀ f ∈ filters.given, Selects E found s f.alone = true := by
  rw [selects_iff, inRange_iff, textHolds_iff found s "status", textHolds_iff found s "origin",
    textHolds_iff found s "destination", textHolds_iff found s "$or"]
  unfold ShipmentFilterParams.given
  simp only [List.forall_mem_append, List.forall_mem_map, Option.mem_toList, selects_iff, inRange_iff, Filter.alone,
    noFilters, textHolds_none, true_and, and_assoc]
  simp

/-- A shipment matches when it matches the other filters and was created within the date bounds. -/
theorem selects_dates (filters : ShipmentFilterParams) : Selects E found s filters = true ↔
    Selects E found s filters.withoutDates = true ∧
      (∀ v ∈ filters.startDate, v.truthy = true → inBound s.createdAt "$gte" (E.newDate v) = true) ∧
        ∀ v ∈ filters.endDate, v.truthy = true → inBound s.createdAt "$lte" (E.newDate v) = true := by
  rw [selects_iff, selects_iff, inRange_iff, inRange_iff]
  simp [ShipmentFilterParams.withoutDates, and_assoc]

end Compose

/-! ### Listings -/

section Listings

variable {P : Platform} {db : Db} {params : QueryParams} {result : PaginatedResponse Shipment}

theorem mem_of_mem_slice {l : List Shipment} {skip limit : Int} {s : Shipment} (h : s ∈ slice l skip limit) :
    s ∈ l := by
  unfold slice at h
  split at h
  · exact List.mem_of_mem_drop h
  · exact List.mem_of_mem_drop (List.mem_of_mem_take h)

/-- The database answers no listing with a negative skip. -/
private theorem ListsTo.skip_nonneg (h : ListsTo P db params result) : 0 ≤ (params.page - 1) * params.limit := by
  unfold ListsTo at h
  rw [list_run, serves_both_reads _ (fun _ _ _ => executes_read rfl) (fun _ _ _ => executes_read rfl)] at h
  obtain ⟨r₁, r₂, ⟨o, hfind⟩, -, hs⟩ := h
  have hdone := ((serves_done _).1 hs).1
  refine Int.le_of_not_gt fun hneg => ?_
  simp only [Db.exec] at hfind
  split at hfind
  · cases hfind
    cases hdone
  · rw [if_pos hneg] at hfind
    cases hfind
    cases hdone

/-- A listing returns matching shipments, and the number of all of them. -/
private theorem ListsTo.found (h : ListsTo P db params result) :
    (∀ s ∈ result.data, s ∈ matching P db params) ∧
      result.pagination.totalItems = (matching P db params).length := by
  obtain ⟨-, A, hA, rfl⟩ := (listsTo_iff h.skip_nonneg).1 h
  exact ⟨fun s hs => hA.perm.mem_iff.1 (mem_of_mem_slice hs), rfl⟩

/-- One listing finds no shipment that the other does not find, and counts no more. -/
structure Narrows (P : Platform) (db : Db) (wide narrow : QueryParams) : Prop where
  selected : (matching P db narrow).Sublist (matching P db wide)
  result : ∀ r, ListsTo P db narrow r → ∀ s ∈ r.data, s ∈ matching P db wide
  totalItems : ∀ r r', ListsTo P db wide r → ListsTo P db narrow r' →
    r'.pagination.totalItems ≤ r.pagination.totalItems

theorem matching_eq : matching P db params =
    db.docs.filter fun s => Selects P.engine P.mongo.matchesPattern s params.filters := by
  unfold matching listQuery
  exact congrArg (fun p => List.filter p db.docs) (funext fun s => Query.matches_eq P.mongo _ s)

/-- Where the filters of one listing are among those of another. -/
private theorem narrows_of_given {narrow : QueryParams}
    (hmore : ∀ f ∈ params.filters.given, f ∈ narrow.filters.given) : Narrows P db params narrow := by
  have hsub : (matching P db narrow).Sublist (matching P db params) := by
    rw [matching_eq, matching_eq]
    refine List.monotone_filter_right _ fun s hs => ?_
    rw [selects_iff_given] at hs ⊢
    exact fun f hf => hs f (hmore f hf)
  refine ⟨hsub, fun r h s hs => hsub.subset (h.found.1 s hs), fun r r' h h' => ?_⟩
  rw [h.found.2, h'.found.2]
  exact Int.ofNat_le.2 hsub.length_le

/-- A shipment matches the query object of some filters exactly when it matches that of each filter alone, and a listing
with more filters finds and counts nothing more. -/
theorem filters_compose (P : Platform) (filters : ShipmentFilterParams) :
    (∀ found s, Selects P.engine found s filters = true ↔
        ∀ f ∈ filters.given, Selects P.engine found s f.alone = true) ∧
      ∀ more : ShipmentFilterParams, (∀ f ∈ filters.given, f ∈ more.given) → ∀ (db : Db) (params : QueryParams),
        Narrows P db { params with filters := filters } { params with filters := more } :=
  ⟨fun found s => selects_iff_given P.engine found s filters, fun _ hmore _ _ => narrows_of_given hmore⟩

end Listings

end ShipmentManager
