import ShipmentManager.Lib.Literal
import ShipmentManager.Pages

/-!
# Text filters

A listing filtered by `origin`, `destination` or `search` hands the text of the client to the database as a pattern.
Where every character of the text is an ordinary one for the pattern language, the listing selects the shipments that
contain the text up to case (`filter_selects_literally`); the text `.` is not ordinary, and selects everything
(`filter_selects_literally_fails`).
-/

namespace ShipmentManager

inductive TextFilter where
  | origin
  | destination
  | search
  deriving DecidableEq

namespace TextFilter

/-- The key of the filter in a query. -/
def name : TextFilter → String
  | origin => "origin"
  | destination => "destination"
  | search => "search"

/-- The fields of a shipment that the filter looks at. -/
def fields : TextFilter → List String
  | origin => ["origin"]
  | destination => ["destination"]
  | search => ["senderName", "receiverName"]

/-- The filters of a listing with this one alone. -/
def filters (f : TextFilter) (t : Text) : ShipmentFilterParams where
  status := none
  origin := if f = origin then some t else none
  destination := if f = destination then some t else none
  search := if f = search then some t else none
  startDate := none
  endDate := none

def condition (f : TextFilter) (t : Text) : String × Condition :=
  match f with
  | origin => ("origin", .regex t)
  | destination => ("destination", .regex t)
  | search => ("$or", .or [("senderName", t), ("receiverName", t)])

theorem buildQuery_filters (E : Engine) (f : TextFilter) {t : Text} (ht : t ≠ []) :
    ShipmentRepository.buildQuery E (f.filters t) = [f.condition t] := by
  cases f <;> simp [ShipmentRepository.buildQuery, ShipmentRepository.whenPresent, ShipmentRepository.present, filters,
    condition, Obj.set, Option.filter, ht]

end TextFilter

/-- A query object in which the text filter is the only filter. -/
structure OnlyFilter (f : TextFilter) (raw : Text) (o : JsObject) : Prop where
  given : Obj.get? o f.name = some (.str raw)
  others : ∀ k, k ∈ ["status", "origin", "destination", "search", "startDate", "endDate"] → k ≠ f.name →
    Obj.get? o k = none

/-- What the validator makes of the filters of such a query. -/
theorem OnlyFilter.filters {c : JoiConversions} {f : TextFilter} {raw : Text} {o : JsObject} (h : OnlyFilter f raw o)
    (hw : WellFormedQuery c o) (hr : RangeHolds c o) :
    (ListQuery.ofObject c o hr).filters = f.filters (trim raw) ∧ trim raw ≠ [] ∧ (trim raw).length ≤ 200 := by
  have hnone : ∀ k, k ∈ ["status", "origin", "destination", "search", "startDate", "endDate"] → k ≠ f.name →
      Obj.get? o k = none := h.others
  have htext : ∀ ks max, Obj.get? listShipmentsQuerySchema.keys f.name = some ks →
      ks.type = .string { trim := true, max := some max } → max ≤ 200 →
        ({ trim := true, max := some max } : StringRules).convert (.str raw) = some (trim raw) ∧
          trim raw ≠ [] ∧ (trim raw).length ≤ 200 := by
    intro ks max hk ht hmax
    obtain ⟨out, hout⟩ := hw f.name ks hk (.str raw) h.given
    rw [ht] at hout
    obtain ⟨t, hc, -⟩ := Option.map_eq_some_iff.1 hout
    obtain ⟨s, hs, rfl, hne, hlen⟩ := StringRules.convert_filter.1 hc
    cases hs
    exact ⟨hc, hne, Nat.le_trans hlen hmax⟩
  unfold ListQuery.filters ListQuery.ofObject TextFilter.filters
  cases f with
  | origin =>
    obtain ⟨hc, hne⟩ := htext _ 200 rfl rfl (by omega)
    have hgiven : Obj.get? o "origin" = some (.str raw) := h.given
    refine ⟨?_, hne⟩
    simp [hgiven, hc, hnone "status" (by decide) (by decide), hnone "destination" (by decide) (by decide),
      hnone "search" (by decide) (by decide), hnone "startDate" (by decide) (by decide),
      hnone "endDate" (by decide) (by decide)]
  | destination =>
    obtain ⟨hc, hne⟩ := htext _ 200 rfl rfl (by omega)
    have hgiven : Obj.get? o "destination" = some (.str raw) := h.given
    refine ⟨?_, hne⟩
    simp [hgiven, hc, hnone "status" (by decide) (by decide), hnone "origin" (by decide) (by decide),
      hnone "search" (by decide) (by decide), hnone "startDate" (by decide) (by decide),
      hnone "endDate" (by decide) (by decide)]
  | search =>
    obtain ⟨hc, hne⟩ := htext _ 100 rfl rfl (by omega)
    have hgiven : Obj.get? o "search" = some (.str raw) := h.given
    refine ⟨?_, hne⟩
    simp [hgiven, hc, hnone "status" (by decide) (by decide), hnone "origin" (by decide) (by decide),
      hnone "destination" (by decide) (by decide), hnone "startDate" (by decide) (by decide),
      hnone "endDate" (by decide) (by decide)]

/-- The patterns of a well-formed query are its trimmed text filters. -/
theorem mem_patterns {c : JoiConversions} {o : JsObject} (hw : WellFormedQuery c o) {hr : RangeHolds c o} {t : Text} :
    t ∈ (ListQuery.ofObject c o hr).patterns ↔
      ∃ f : TextFilter, ∃ raw, Obj.get? o f.name = some (.str raw) ∧ t = trim raw := by
  have hbind : ∀ k max ks, Obj.get? listShipmentsQuerySchema.keys k = some ks →
      ks.type = .string { trim := true, max := some max } →
        ((Obj.get? o k).bind ({ trim := true, max := some max } : StringRules).convert = some t ↔
          ∃ raw, Obj.get? o k = some (.str raw) ∧ t = trim raw) := by
    intro k max ks hk ht
    constructor
    · intro h
      obtain ⟨v, hv, hc⟩ := Option.bind_eq_some_iff.1 h
      obtain ⟨s, rfl, rfl, -⟩ := StringRules.convert_filter.1 hc
      exact ⟨s, hv, rfl⟩
    · rintro ⟨raw, hv, rfl⟩
      obtain ⟨out, hout⟩ := hw k ks hk _ hv
      rw [ht] at hout
      obtain ⟨u, hc, -⟩ := Option.map_eq_some_iff.1 hout
      obtain ⟨s, hs, rfl, -⟩ := StringRules.convert_filter.1 hc
      cases hs
      rw [hv]
      exact hc
  have horigin := hbind "origin" 200 _ rfl rfl
  have hdestination := hbind "destination" 200 _ rfl rfl
  have hsearch := hbind "search" 100 _ rfl rfl
  unfold ListQuery.patterns ListQuery.ofObject
  simp only [List.mem_append, Option.mem_toList, horigin, hdestination, hsearch]
  constructor
  · rintro ((h | h) | h)
    · exact ⟨.origin, h⟩
    · exact ⟨.destination, h⟩
    · exact ⟨.search, h⟩
  · rintro ⟨f, h⟩
    cases f with
    | origin => exact Or.inl (Or.inl h)
    | destination => exact Or.inl (Or.inr h)
    | search => exact Or.inr h

variable (P : Platform)

/-- The trimmed text filters of a query are valid patterns. -/
def ValidPatterns (o : JsObject) : Prop :=
  ∀ (f : TextFilter) (raw : Text), Obj.get? o f.name = some (.str raw) →
    P.mongo.validPattern (toChars (trim raw)) = true

variable {P} in
theorem error?_ofObject {c : JoiConversions} {o : JsObject} (hw : WellFormedQuery c o) (hr : RangeHolds c o) :
    (listQuery P (ListQuery.ofObject c o hr).params).error? P.mongo = none ↔ ValidPatterns P o := by
  rw [ListQuery.error?_eq_none]
  constructor
  · exact fun h f raw hraw => h _ ((mem_patterns hw).2 ⟨f, raw, hraw, rfl⟩)
  · intro h t ht
    obtain ⟨f, raw, hraw, rfl⟩ := (mem_patterns hw).1 ht
    exact h f raw hraw

/-- A text of a shipment contains another one, up to case. -/
def ContainsText (t u : Text) : Prop := Literal.Contains (fun c d => P.mongo.caseEq c d = true) (toChars t) (toChars u)

/-- An accepted listing with this filter alone selects the shipments that contain the trimmed text in one of the
fields. -/
def SelectsLiterally (f : TextFilter) (raw : Text) : Prop :=
  ∀ o out params, OnlyFilter f raw o → P.joi.validate listShipmentsQuerySchema (.obj o) = .ok out →
    ShipmentService.parseQueryParams P.engine (ShipmentController.rawQueryParams out) = .ok params →
      (listQuery P params).error? P.mongo = none ∧
        ∀ (db : Db) (s : Shipment), s ∈ matching P db params ↔
          s ∈ db.docs ∧ ∃ field ∈ f.fields, ∃ u, s.text? field = some u ∧ ContainsText P (trim raw) u

variable {P}

/-- A plain pattern is found in the texts that contain it. -/
theorem search_plain {t : Text} (ht : plainPattern (toChars t) = true)
    (hvalid : P.mongo.validPattern (toChars t) = true) (u : Text) :
    P.mongo.search (toChars t) (toChars u) = true ↔ ContainsText P t u := by
  rw [P.mongo.search_iff _ _ hvalid]
  let Ordinary : List Char → Prop := fun p => plainPattern p = true
  have hordinary : Ordinary (toChars t) := ht
  have htail : ∀ c p, Ordinary (c :: p) → Ordinary p := by
    intro c p (hp : plainPattern (c :: p) = true)
    rw [plainPattern, Bool.and_eq_true] at hp
    exact hp.2
  exact Literal.exists_matchAt_iff P.mongo.matchAt_nil (fun c p s i j hp => P.mongo.matchAt_cons c p s i j hp) htail
    hordinary

private theorem condition_holds {f : TextFilter} {t : Text} {s : Shipment} :
    (f.condition t).2.holds P.mongo s (f.condition t).1 = true ↔
      ∃ field ∈ f.fields, ∃ u, s.text? field = some u ∧ P.mongo.search (toChars t) (toChars u) = true := by
  have hmatch : ∀ field, P.mongo.matchesPattern s field t = true ↔
      ∃ u, s.text? field = some u ∧ P.mongo.search (toChars t) (toChars u) = true := fun field =>
    Option.any_eq_true _ _
  cases f <;> simp [TextFilter.condition, TextFilter.fields, Condition.holds, hmatch]

private theorem error?_condition {f : TextFilter} {t : Text} (hvalid : P.mongo.validPattern (toChars t) = true) :
    Query.error? P.mongo [f.condition t] = none := by
  cases f <;>
    simp [Query.error?, Query.datesValid, Query.patternsValid, Condition.patterns, TextFilter.condition, hvalid]

/-- A text without operators of the pattern language selects the shipments that contain it. -/
theorem filter_selects_literally (P : Platform) (f : TextFilter) (raw : Text)
    (hplain : plainPattern (toChars (trim raw)) = true) : SelectsLiterally P f raw := by
  intro o out params ho hout hparams
  obtain ⟨hw, hr, hreads⟩ := list_output hout
  rw [parseQueryParams_reads P.engine hreads] at hparams
  cases hparams
  obtain ⟨hfilters, hne, hlen⟩ := ho.filters hw hr
  have hvalid : P.mongo.validPattern (toChars (trim raw)) = true := by
    refine P.mongo.validPattern_plain _ hplain ?_
    have := toChars_length_le (trim raw)
    omega
  have hquery : listQuery P (ListQuery.ofObject P.joi.toJoiConversions o hr).params = [f.condition (trim raw)] := by
    show ShipmentRepository.buildQuery P.engine (ListQuery.ofObject P.joi.toJoiConversions o hr).filters = _
    rw [hfilters, f.buildQuery_filters P.engine hne]
  refine ⟨by rw [hquery]; exact error?_condition hvalid, fun db s => ?_⟩
  unfold matching
  rw [hquery, List.mem_filter]
  have hmatches : Query.matches P.mongo [f.condition (trim raw)] s =
      (f.condition (trim raw)).2.holds P.mongo s (f.condition (trim raw)).1 := by
    simp [Query.matches]
  rw [hmatches, condition_holds]
  refine and_congr_right fun _ => ?_
  -- what is left is the search for the pattern, field by field
  simp only [search_plain hplain hvalid]

/-- The reference platform selects a sample shipment for a query object. -/
def selectsSample (o : JsObject) : Bool :=
  match referenceJoi.validate listShipmentsQuerySchema (.obj o) with
  | .error _ => false
  | .ok out =>
    match ShipmentService.parseQueryParams referenceEngine (ShipmentController.rawQueryParams out) with
    | .error _ => false
    | .ok params => sampleShipment 1 .pending ∈ matching referencePlatform (sampleStore .pending) params

private theorem exists_listing {o : JsObject} (h : selectsSample o = true) :
    ∃ out params, referenceJoi.validate listShipmentsQuerySchema (.obj o) = .ok out ∧
      ShipmentService.parseQueryParams referenceEngine (ShipmentController.rawQueryParams out) = .ok params ∧
        sampleShipment 1 .pending ∈ matching referencePlatform (sampleStore .pending) params := by
  unfold selectsSample at h
  split at h
  · cases h
  rename_i out hout
  split at h
  · cases h
  rename_i params hparams
  exact ⟨out, params, hout, hparams, by simpa using h⟩

private theorem onlyFilter_origin (raw : Text) : OnlyFilter .origin raw [("origin", .str raw)] := by
  refine ⟨rfl, fun k _ hk => ?_⟩
  have hne : "origin" ≠ k := Ne.symm hk
  rw [Obj.get?_cons, if_neg hne]
  rfl

/-- The text `rome` selects a shipment from `Rome`, in an environment that folds the case of ASCII letters. -/
theorem filter_selects_literally_rome : ∃ out params,
    referenceJoi.validate listShipmentsQuerySchema (.obj [("origin", .str (js " rome "))]) = .ok out ∧
      ShipmentService.parseQueryParams referenceEngine (ShipmentController.rawQueryParams out) = .ok params ∧
        (listQuery referencePlatform params).error? referenceMongo = none ∧
          sampleShipment 1 .pending ∈ matching referencePlatform (sampleStore .pending) params ∧
            ContainsText referencePlatform (trim (js " rome ")) (js "Rome") := by
  have hselects : selectsSample [("origin", .str (js " rome "))] = true := by decide
  obtain ⟨out, params, hout, hparams, hmem⟩ := exists_listing hselects
  obtain ⟨herr, hsel⟩ := filter_selects_literally referencePlatform .origin (js " rome ") (by decide) _ out params
    (onlyFilter_origin _) hout hparams
  obtain ⟨-, field, hfield, u, hu, hcontains⟩ := (hsel (sampleStore .pending) (sampleShipment 1 .pending)).1 hmem
  rw [TextFilter.fields, List.mem_singleton] at hfield
  subst hfield
  cases hu
  exact ⟨out, params, hout, hparams, herr, hmem, hcontains⟩

private theorem contains_singleton {α : Type} {eq : α → α → Prop} {c : α} {s : List α} (h : Literal.Contains eq [c] s) :
    ∃ d ∈ s, eq c d := by
  obtain ⟨before, part, after, rfl, hpart⟩ := h
  cases hpart with
  | @cons _ d _ part hcd hnil => exact ⟨d, by simp, hcd⟩

/-- The text `.` selects a shipment whose origin has no such character. -/
theorem filter_selects_literally_fails :
    ¬ ∀ (P : Platform) (f : TextFilter) (raw : Text), SelectsLiterally P f raw := by
  intro h
  have hselects : selectsSample [("origin", .str (js "."))] = true := by decide
  obtain ⟨out, params, hout, hparams, hmem⟩ := exists_listing hselects
  have hsel := (h referencePlatform .origin (js ".") _ out params (onlyFilter_origin _) hout hparams).2
    (sampleStore .pending) (sampleShipment 1 .pending)
  obtain ⟨-, field, hfield, u, hu, hcontains⟩ := hsel.1 hmem
  rw [TextFilter.fields, List.mem_singleton] at hfield
  subst hfield
  cases hu
  have hdot : toChars (trim (js ".")) = ['.'] := by decide
  unfold ContainsText at hcontains
  rw [hdot] at hcontains
  obtain ⟨d, hd, hcase⟩ := contains_singleton hcontains
  have hnone : ((toChars (js "Rome")).all fun d => !referencePlatform.mongo.caseEq '.' d) = true := by decide
  have hd' := List.all_eq_true.1 hnone d hd
  rw [hcase] at hd'
  cases hd'

end ShipmentManager
