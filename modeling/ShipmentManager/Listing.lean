import ShipmentManager.Commands
import ShipmentManager.Reference

/-!
# Validated listings

`ListQuery` is a query as `listShipmentsQuerySchema` hands it on, by the types of its keys, with what the schema
guarantees of each as a field.  `list_output` reads such a query off the validator's result, and
`parseQueryParams_reads` says that the service accepts every one of them and what it makes of it: `ListQuery.params`, in
normal form for every accepted query object (`parseQueryParams_normalises`).
-/

namespace ShipmentManager

/-- A text filter as the schema hands it on. -/
def FilterText (max : Nat) (t : Text) : Prop := Trimmed t ∧ t ≠ [] ∧ t.length ≤ max

structure ListQuery where
  page : Option Int
  limit : Option Int
  sortBy : Option Text
  order : Option Text
  status : Option Text
  origin : Option Text
  destination : Option Text
  search : Option Text
  startDate : Option Int
  endDate : Option Int
  page_safe : ∀ n ∈ page, n.natAbs < 2 ^ 53
  limit_safe : ∀ n ∈ limit, n.natAbs < 2 ^ 53
  sortBy_mem : ∀ t ∈ sortBy, t ∈ sortFields
  order_mem : ∀ t ∈ order, t ∈ [js "asc", js "desc"]
  status_mem : ∀ t ∈ status, t ∈ statusValues
  origin_text : ∀ t ∈ origin, FilterText 200 t
  destination_text : ∀ t ∈ destination, FilterText 200 t
  search_text : ∀ t ∈ search, FilterText 100 t
  range : ∀ e ∈ endDate, ∃ s ∈ startDate, s ≤ e

namespace ListQuery

/-- The value of a key. -/
def value? (q : ListQuery) : String → Option JsValue
  | "page" => q.page.map fun n : Int => JsValue.num n
  | "limit" => q.limit.map fun n : Int => JsValue.num n
  | "sortBy" => q.sortBy.map .str
  | "order" => q.order.map .str
  | "status" => q.status.map .str
  | "origin" => q.origin.map .str
  | "destination" => q.destination.map .str
  | "search" => q.search.map .str
  | "startDate" => q.startDate.map .date
  | "endDate" => q.endDate.map .date
  | _ => none

/-- An object whose keys have the values of the query. -/
def Reads (q : ListQuery) (out : JsObject) : Prop := ∀ k, Obj.get? out k = q.value? k

/-- The page that a listing asks for. -/
def pageNumber (q : ListQuery) : Int :=
  match q.page with
  | some n => if n < 1 then defaultPage else n
  | none => defaultPage

/-- The number of shipments on a page. -/
def pageSize (q : ListQuery) : Int :=
  match q.limit with
  | some n => if n < 1 then defaultLimit else min n maxLimit
  | none => defaultLimit

def filters (q : ListQuery) : ShipmentFilterParams where
  status := q.status
  origin := q.origin
  destination := q.destination
  search := q.search
  startDate := q.startDate.map .date
  endDate := q.endDate.map .date

/-- What the service makes of the query. -/
def params (q : ListQuery) : QueryParams where
  page := q.pageNumber
  limit := q.pageSize
  sortBy := q.sortBy.getD defaultSortBy
  order := if q.order = some (js "asc") then .asc else .desc
  filters := q.filters

theorem pageNumber_pos (q : ListQuery) : 1 ≤ q.pageNumber := by
  unfold pageNumber
  split
  · split
    · decide
    · omega
  · decide

theorem pageSize_bounds (q : ListQuery) : 1 ≤ q.pageSize ∧ q.pageSize ≤ 100 := by
  unfold pageSize defaultLimit maxLimit
  split
  · split <;> omega
  · omega

theorem sortBy_mem_params (q : ListQuery) : q.params.sortBy ∈ sortFields := by
  unfold params
  cases h : q.sortBy with
  | none =>
    show defaultSortBy ∈ sortFields
    decide
  | some t => exact q.sortBy_mem t h

end ListQuery

section Service

open ShipmentService

variable (E : Engine)

private theorem parseInt_num {n : Int} (hn : n.natAbs < 2 ^ 53) :
    E.parseInt (orElse (some (.num n)) (.str [])) = if n = 0 then none else some n := by
  by_cases h : n = 0
  · subst h
    rw [if_pos rfl]
    show parseIntText (E.stringOf (.str [])) = none
    rw [E.stringOf_str]
    rfl
  · have ht : (JsValue.num n).truthy = true := by simpa [JsValue.truthy] using h
    rw [if_neg h, orElse, if_pos ht, Engine.parseInt, E.stringOf_int n (by omega), parseIntText_decimalInt]

private theorem parseInt_none : E.parseInt (orElse none (.str [])) = none := by
  show parseIntText (E.stringOf (.str [])) = none
  rw [E.stringOf_str]
  rfl

private theorem parsePage_reads (q : ListQuery) :
    parsePage E (q.page.map fun n : Int => JsValue.num n) = q.pageNumber := by
  unfold parsePage ListQuery.pageNumber
  cases h : q.page with
  | none => simp only [Option.map_none, parseInt_none]
  | some n =>
    simp only [Option.map_some, parseInt_num E (q.page_safe n h)]
    by_cases hn : n = 0 <;> simp [hn]

private theorem parseLimit_reads (q : ListQuery) :
    parseLimit E (q.limit.map fun n : Int => JsValue.num n) = q.pageSize := by
  unfold parseLimit ListQuery.pageSize defaultLimit maxLimit
  cases h : q.limit with
  | none => simp [parseInt_none]
  | some n =>
    simp only [Option.map_some, parseInt_num E (q.limit_safe n h)]
    by_cases hn : n = 0
    · simp [hn]
    · simp only [hn, ↓reduceIte]
      split <;> split <;> omega

private theorem find?_isText {l : List Text} {t : Text} (h : t ∈ l) : l.find? (JsValue.str t).isText = some t := by
  have hs : (l.find? (JsValue.str t).isText).isSome = true := List.find?_isSome.2 ⟨t, h, by simp⟩
  obtain ⟨u, hu⟩ := Option.isSome_iff_exists.1 hs
  have := List.find?_some hu
  simp only [JsValue.isText_str, decide_eq_true_eq] at this
  rw [hu, this]

private theorem sortFields_allowed {t : Text} (h : t ∈ sortFields) : t ∈ allowedSortFields ∧ t ≠ [] := by
  have : ∀ t ∈ sortFields, t ∈ allowedSortFields ∧ t ≠ [] := by decide
  exact this t h

private theorem parseSortBy_reads (q : ListQuery) : parseSortBy E (q.sortBy.map .str) = .ok q.params.sortBy := by
  have key : ∀ t ∈ sortFields, allowedSortFields.find? (JsValue.str t).isText = some t :=
    fun t h => find?_isText (sortFields_allowed h).1
  have hsort := q.sortBy_mem_params
  have horElse : orElse (q.sortBy.map .str) (.str defaultSortBy) = .str q.params.sortBy := by
    unfold ListQuery.params
    cases h : q.sortBy with
    | none => rfl
    | some t =>
      have ht : (JsValue.str t).truthy = true := by
        simpa [JsValue.truthy] using (sortFields_allowed (q.sortBy_mem t h)).2
      simp only [Option.map_some, orElse, ht, ↓reduceIte, Option.getD_some]
  unfold parseSortBy
  simp only [horElse, key _ hsort]

private theorem parseStatus_reads (q : ListQuery) : parseStatus E (q.status.map .str) = .ok q.status := by
  unfold parseStatus
  cases h : q.status with
  | none => rfl
  | some t =>
    have ht := q.status_mem t h
    simp only [Option.map_some, truthy_status ht, ↓reduceIte, find?_isText ht]

private theorem parseText_reads {max : Nat} (name : String) {x : Option Text} (hx : ∀ t ∈ x, FilterText max t) :
    parseText name (x.map .str) = .ok x := by
  unfold parseText
  cases x with
  | none => rfl
  | some t =>
    obtain ⟨ht, hne, -⟩ := hx t rfl
    have htr : (JsValue.str t).truthy = true := by simpa [JsValue.truthy] using hne
    simp only [Option.map_some, htr, ↓reduceIte]
    rw [ht]

private theorem parseDateParam_reads (name example_ : String) (x : Option Int) :
    parseDateParam E name example_ (x.map .date) = .ok (x.map .date) := by
  cases x <;> rfl

private theorem checkDateRange_reads (q : ListQuery) :
    checkDateRange E (q.startDate.map .date) (q.endDate.map .date) = .ok () := by
  unfold checkDateRange
  cases he : q.endDate with
  | none => cases q.startDate <;> rfl
  | some e =>
    obtain ⟨s, hs, hle⟩ := q.range e he
    rw [Option.mem_def] at hs
    simp only [hs, Option.map_some, Engine.newDate_date]
    rw [if_neg (by omega)]

/-- The service accepts every query that the validator hands on. -/
theorem parseQueryParams_reads {q : ListQuery} {out : JsObject} (h : q.Reads out) :
    parseQueryParams E (ShipmentController.rawQueryParams out) = .ok q.params := by
  unfold parseQueryParams ShipmentController.rawQueryParams
  simp only [h "page", h "limit", h "sortBy", h "order", h "status", h "origin", h "destination", h "search",
    h "startDate", h "endDate", ListQuery.value?, parsePage_reads, parseLimit_reads, parseSortBy_reads,
    parseStatus_reads, parseText_reads _ q.origin_text, parseText_reads _ q.destination_text,
    parseText_reads _ q.search_text, parseDateParam_reads]
  have horder : (if (q.order.map JsValue.str).any (fun v => v.isText (js "asc")) = true then SortOrder.asc
      else SortOrder.desc) = q.params.order := by
    unfold ListQuery.params
    cases q.order <;> simp
  rw [horder]
  show (checkDateRange E _ _ >>= fun _ => .ok q.params) = .ok q.params
  rw [checkDateRange_reads]
  rfl

end Service

section Validator

variable (c : JoiConversions) (o : JsObject)

/-- Every key that is present is well formed by its own rule. -/
def WellFormedQuery : Prop :=
  ∀ k ks, Obj.get? listShipmentsQuerySchema.keys k = some ks → ∀ v, Obj.get? o k = some v →
    ∃ out, ks.type.convert c v = some out

/-- An end of the range comes with a start that is not after it. -/
def RangeHolds : Prop :=
  ∀ e, (Obj.get? o "endDate").bind c.isoDateOf = some e →
    ∃ s, (Obj.get? o "startDate").bind c.isoDateOf = some s ∧ s ≤ e

variable {c o}

private theorem refHolds_eq_true {type : KeyType} (h : ∀ ref, type ≠ .isoDate (some ref))
    (sibling : String → Option JsValue) (out : JsValue) : type.refHolds sibling out = true := by
  unfold KeyType.refHolds
  split
  · exact absurd rfl (h _)
  · rfl

private theorem outputAt_bind {s : ObjectSchema} {k : String} {ks : KeySchema} (hk : Obj.get? s.keys k = some ks)
    (hd : ks.default = none) : s.outputAt c o k = (Obj.get? o k).bind (ks.type.convert c) := by
  unfold ObjectSchema.outputAt
  simp only [hk, hd]
  cases Obj.get? o k <;> rfl

private theorem outputAt_date {k : String} {ks : KeySchema} (hk : Obj.get? listShipmentsQuerySchema.keys k = some ks)
    (hd : ks.default = none) {min : Option String} (ht : ks.type = .isoDate min) :
    listShipmentsQuerySchema.outputAt c o k = ((Obj.get? o k).bind c.isoDateOf).map .date := by
  rw [outputAt_bind hk hd, ht]
  cases Obj.get? o k <;> rfl

private theorem outputAt_string {k : String} {ks : KeySchema} (hk : Obj.get? listShipmentsQuerySchema.keys k = some ks)
    (hd : ks.default = none) {r : StringRules} (ht : ks.type = .string r) :
    listShipmentsQuerySchema.outputAt c o k = ((Obj.get? o k).bind r.convert).map .str := by
  rw [outputAt_bind hk hd, ht]
  cases Obj.get? o k <;> rfl

private theorem endDate_passes {ks : KeySchema} (ht : ks.type = .isoDate (some "startDate"))
    (hreq : ks.required = false) :
    listShipmentsQuerySchema.keyPasses c o "endDate" ks = true ↔
      (∀ v, Obj.get? o "endDate" = some v → ∃ out, ks.type.convert c v = some out) ∧ RangeHolds c o := by
  unfold ObjectSchema.keyPasses RangeHolds
  rw [ht]
  cases Obj.get? o "endDate" with
  | none => simp [hreq]
  | some v =>
    simp only [KeyType.convert, Option.bind_some]
    cases hv : c.isoDateOf v with
    | none => simp [hv]
    | some e =>
      simp only [Option.map_some, KeyType.refHolds, outputAt_date (k := "startDate") rfl rfl rfl, Option.some.injEq,
        forall_eq', hv, exists_eq', true_and]
      cases (Obj.get? o "startDate").bind c.isoDateOf with
      | none => simp
      | some s => simp

/-- The validator accepts the queries whose keys are well formed and whose range holds. -/
theorem accepts_list_iff : listShipmentsQuerySchema.accepts c o = true ↔ WellFormedQuery c o ∧ RangeHolds c o := by
  constructor
  · intro h
    refine ⟨fun k ks hk v hv => ?_, ?_⟩
    · have hp := ObjectSchema.keyPasses_of_accepts h hk
      unfold ObjectSchema.keyPasses at hp
      simp only [hv] at hp
      cases hc : ks.type.convert c v with
      | none => simp [hc] at hp
      | some out => exact ⟨out, rfl⟩
    · exact ((endDate_passes rfl rfl).1 (ObjectSchema.keyPasses_of_accepts h rfl)).2
  · rintro ⟨hw, hr⟩
    have key : ∀ k ks, Obj.get? listShipmentsQuerySchema.keys k = some ks → ks.required = false →
        (∀ ref, ks.type ≠ .isoDate (some ref)) → listShipmentsQuerySchema.keyPasses c o k ks = true := by
      intro k ks hk hreq href
      unfold ObjectSchema.keyPasses
      cases hv : Obj.get? o k with
      | none => simp [hreq]
      | some v =>
        obtain ⟨out, hout⟩ := hw k ks hk v hv
        simp only [hout]
        exact refHolds_eq_true href _ _
    unfold ObjectSchema.accepts
    have hmin : listShipmentsQuerySchema.min = none := rfl
    simp only [hmin, Option.all_none, Bool.and_true, List.all_eq_true]
    intro p hp
    simp only [listShipmentsQuerySchema, List.mem_cons, List.not_mem_nil, or_false] at hp
    rcases hp with rfl | rfl | rfl | rfl | rfl | rfl | rfl | rfl | rfl | rfl
    case inr.inr.inr.inr.inr.inr.inr.inr.inr => exact (endDate_passes rfl rfl).2 ⟨hw _ _ rfl, hr⟩
    all_goals exact key _ _ rfl rfl (by simp)

private theorem filterText_of_bind {max : Nat} {x : Option JsValue} :
    ∀ t ∈ x.bind ({ trim := true, max := some max } : StringRules).convert, FilterText max t := by
  intro t ht
  obtain ⟨v, -, hv⟩ := Option.bind_eq_some_iff.1 ht
  obtain ⟨s, -, rfl, hne, hlen⟩ := StringRules.convert_filter.1 hv
  exact ⟨trim_trimmed s, hne, hlen⟩

private theorem mem_of_bind {vs : List Text} {x : Option JsValue} :
    ∀ t ∈ x.bind ({ valid := some vs } : StringRules).convert, t ∈ vs := by
  intro t ht
  obtain ⟨v, -, hv⟩ := Option.bind_eq_some_iff.1 ht
  exact (StringRules.convert_valid.1 hv).2

private theorem safe_of_bind {x : Option JsValue} : ∀ n ∈ x.bind c.integerOf, n.natAbs < 2 ^ 53 := by
  intro n hn
  obtain ⟨v, -, hv⟩ := Option.bind_eq_some_iff.1 hn
  exact c.integerOf_safe v n hv

/-- The query that an object stands for. -/
def ListQuery.ofObject (c : JoiConversions) (o : JsObject) (h : RangeHolds c o) : ListQuery where
  page := (Obj.get? o "page").bind c.integerOf
  limit := (Obj.get? o "limit").bind c.integerOf
  sortBy := (Obj.get? o "sortBy").bind ({ valid := some sortFields } : StringRules).convert
  order := (Obj.get? o "order").bind ({ valid := some [js "asc", js "desc"] } : StringRules).convert
  status := (Obj.get? o "status").bind ({ valid := some statusValues } : StringRules).convert
  origin := (Obj.get? o "origin").bind ({ trim := true, max := some 200 } : StringRules).convert
  destination := (Obj.get? o "destination").bind ({ trim := true, max := some 200 } : StringRules).convert
  search := (Obj.get? o "search").bind ({ trim := true, max := some 100 } : StringRules).convert
  startDate := (Obj.get? o "startDate").bind c.isoDateOf
  endDate := (Obj.get? o "endDate").bind c.isoDateOf
  page_safe := safe_of_bind
  limit_safe := safe_of_bind
  sortBy_mem := mem_of_bind
  order_mem := mem_of_bind
  status_mem := mem_of_bind
  origin_text := filterText_of_bind
  destination_text := filterText_of_bind
  search_text := filterText_of_bind
  range := h

private theorem outputAt_integer {k : String} {ks : KeySchema}
    (hk : Obj.get? listShipmentsQuerySchema.keys k = some ks) (hd : ks.default = none) (ht : ks.type = .integer) :
    listShipmentsQuerySchema.outputAt c o k =
      ((Obj.get? o k).bind c.integerOf).map fun n : Int => JsValue.num n := by
  rw [outputAt_bind hk hd, ht]
  cases Obj.get? o k <;> rfl

private theorem outputAt_query (h : RangeHolds c o) (k : String) :
    listShipmentsQuerySchema.outputAt c o k = (ListQuery.ofObject c o h).value? k := by
  unfold ListQuery.value?
  split
  · exact outputAt_integer rfl rfl rfl
  · exact outputAt_integer rfl rfl rfl
  · exact outputAt_string rfl rfl rfl
  · exact outputAt_string rfl rfl rfl
  · exact outputAt_string rfl rfl rfl
  · exact outputAt_string rfl rfl rfl
  · exact outputAt_string rfl rfl rfl
  · exact outputAt_string rfl rfl rfl
  · exact outputAt_date rfl rfl rfl
  · exact outputAt_date rfl rfl rfl
  · rename_i h₁ h₂ h₃ h₄ h₅ h₆ h₇ h₈ h₉ h₁₀
    have hk : Obj.get? listShipmentsQuerySchema.keys k = none := by
      simp only [listShipmentsQuerySchema, Obj.get?_cons, Obj.get?_nil, Ne.symm h₁, Ne.symm h₂, Ne.symm h₃, Ne.symm h₄,
        Ne.symm h₅, Ne.symm h₆, Ne.symm h₇, Ne.symm h₈, Ne.symm h₉, Ne.symm h₁₀, ↓reduceIte]
    unfold ObjectSchema.outputAt
    simp only [hk]

/-- What the validator hands on is the query that the object stands for. -/
theorem list_output {J : Joi} {o out : JsObject} (hv : J.validate listShipmentsQuerySchema (.obj o) = .ok out) :
    WellFormedQuery J.toJoiConversions o ∧
      ∃ h : RangeHolds J.toJoiConversions o, (ListQuery.ofObject J.toJoiConversions o h).Reads out := by
  obtain ⟨o', ho', hacc, hout⟩ := Joi.validate_ok (JsValue.obj_ne_str o) hv
  cases ho'
  obtain ⟨hw, hr⟩ := accepts_list_iff.1 hacc
  exact ⟨hw, hr, fun k => (hout k).trans (outputAt_query hr k)⟩

end Validator

/-! ### What the service makes of an accepted query -/

/-- The parameters are the values that were given, and the defaults for the others. -/
structure Normalised (out : JsObject) (params : QueryParams) : Prop where
  page : (Obj.get? out "page" = none ∧ params.page = 1) ∨
    ∃ n : Int, n.natAbs < 2 ^ 53 ∧ Obj.get? out "page" = some (.num n) ∧ params.page = if 1 ≤ n then n else 1
  limit : (Obj.get? out "limit" = none ∧ params.limit = 10) ∨
    ∃ n : Int, n.natAbs < 2 ^ 53 ∧ Obj.get? out "limit" = some (.num n) ∧
      params.limit = if 1 ≤ n then min n 100 else 10
  sortBy : params.sortBy ∈ sortFields ∧ ∀ v, Obj.get? out "sortBy" = some v → v = .str params.sortBy
  order : (Obj.get? out "order" = some (.str (js "asc")) ∧ params.order = .asc) ∨
    ((Obj.get? out "order" = some (.str (js "desc")) ∨ Obj.get? out "order" = none) ∧ params.order = .desc)
  status : Obj.get? out "status" = params.filters.status.map .str
  origin : Obj.get? out "origin" = params.filters.origin.map .str
  destination : Obj.get? out "destination" = params.filters.destination.map .str
  search : Obj.get? out "search" = params.filters.search.map .str
  startDate : Obj.get? out "startDate" = params.filters.startDate
  endDate : Obj.get? out "endDate" = params.filters.endDate
  skip : 0 ≤ (params.page - 1) * params.limit ∧ (params.page - 1) * params.limit < 2 ^ 63

namespace ListQuery

theorem pageNumber_lt (q : ListQuery) : q.pageNumber < 2 ^ 53 := by
  unfold pageNumber
  cases hp : q.page with
  | none => decide
  | some n =>
    have hsafe := q.page_safe n hp
    show (if n < 1 then defaultPage else n) < 2 ^ 53
    split
    · decide
    · omega

/-- The skip that the repository computes is one that the database takes. -/
theorem skip_bounds (q : ListQuery) :
    0 ≤ (q.pageNumber - 1) * q.pageSize ∧ (q.pageNumber - 1) * q.pageSize < 2 ^ 63 := by
  have hpage := q.pageNumber_pos
  have hlt := q.pageNumber_lt
  obtain ⟨hsize, hle⟩ := q.pageSize_bounds
  have hmul : (q.pageNumber - 1) * q.pageSize ≤ (q.pageNumber - 1) * 100 := Int.mul_le_mul_of_nonneg_left hle (by omega)
  exact ⟨Int.mul_nonneg (by omega) (by omega), by omega⟩

theorem normalised {q : ListQuery} {out : JsObject} (h : q.Reads out) : Normalised out q.params where
  page := by
    have hout : Obj.get? out "page" = q.page.map fun n : Int => JsValue.num n := h "page"
    show _ ∨ ∃ n : Int, _ ∧ _ ∧ q.pageNumber = _
    rw [hout]
    cases hp : q.page with
    | none =>
      refine Or.inl ⟨rfl, ?_⟩
      show q.pageNumber = 1
      simp only [pageNumber, hp, defaultPage]
    | some n =>
      refine Or.inr ⟨n, q.page_safe n hp, rfl, ?_⟩
      simp only [pageNumber, hp, defaultPage]
      split <;> split <;> omega
  limit := by
    have hout : Obj.get? out "limit" = q.limit.map fun n : Int => JsValue.num n := h "limit"
    show _ ∨ ∃ n : Int, _ ∧ _ ∧ q.pageSize = _
    rw [hout]
    cases hl : q.limit with
    | none =>
      refine Or.inl ⟨rfl, ?_⟩
      show q.pageSize = 10
      simp only [pageSize, hl, defaultLimit]
    | some n =>
      refine Or.inr ⟨n, q.limit_safe n hl, rfl, ?_⟩
      simp only [pageSize, hl, defaultLimit, maxLimit]
      split <;> split <;> omega
  sortBy := by
    refine ⟨q.sortBy_mem_params, fun v hv => ?_⟩
    rw [h "sortBy"] at hv
    obtain ⟨t, ht, rfl⟩ := Option.map_eq_some_iff.1 hv
    show JsValue.str t = .str (q.sortBy.getD defaultSortBy)
    rw [ht]
    rfl
  order := by
    have hout : Obj.get? out "order" = q.order.map .str := h "order"
    show (_ ∧ (if q.order = some (js "asc") then SortOrder.asc else .desc) = .asc) ∨
      _ ∧ (if q.order = some (js "asc") then SortOrder.asc else .desc) = .desc
    rw [hout]
    cases ho : q.order with
    | none => exact Or.inr ⟨Or.inr rfl, rfl⟩
    | some t =>
      have hmem := q.order_mem t ho
      simp only [List.mem_cons, List.not_mem_nil, or_false] at hmem
      rcases hmem with rfl | rfl
      · exact Or.inl ⟨rfl, if_pos rfl⟩
      · exact Or.inr ⟨Or.inl rfl, if_neg (by decide)⟩
  status := h "status"
  origin := h "origin"
  destination := h "destination"
  search := h "search"
  startDate := h "startDate"
  endDate := h "endDate"
  skip := q.skip_bounds

end ListQuery

/-- The service accepts every query that the validator lets through, and normalises it. -/
theorem parseQueryParams_normalises {J : Joi} {o out : JsObject}
    (valid : J.validate listShipmentsQuerySchema (.obj o) = .ok out) (E : Engine) :
    ∃ params, ShipmentService.parseQueryParams E (ShipmentController.rawQueryParams out) = .ok params ∧
      Normalised out params := by
  obtain ⟨-, hrange, hreads⟩ := list_output valid
  exact ⟨_, parseQueryParams_reads E hreads, ListQuery.normalised hreads⟩

/-- A page before the first one, and more shipments than a page may have. -/
def outOfRangeQuery : JsObject := [("page", .str (js "-1")), ("limit", .str (js "500")), ("origin", .str (js " Rome "))]

theorem parseQueryParams_normalises_outOfRange : ∃ out params,
    referenceJoi.validate listShipmentsQuerySchema (.obj outOfRangeQuery) = .ok out ∧
      ShipmentService.parseQueryParams referenceEngine (ShipmentController.rawQueryParams out) = .ok params ∧
        Normalised out params := by
  have hvalid : referenceJoi.validate listShipmentsQuerySchema (.obj outOfRangeQuery) =
      .ok (listShipmentsQuerySchema.output referenceConversions outOfRangeQuery) := by
    have haccepts : listShipmentsQuerySchema.accepts referenceConversions outOfRangeQuery = true := by decide
    simp only [referenceJoi, referenceValidate, haccepts, ↓reduceIte]
  obtain ⟨params, hparsed, hnormalised⟩ := parseQueryParams_normalises hvalid referenceEngine
  exact ⟨_, params, hvalid, hparsed, hnormalised⟩

end ShipmentManager
