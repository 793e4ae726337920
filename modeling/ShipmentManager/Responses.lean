import ShipmentManager.Atomicity
import ShipmentManager.TextFilters
import ShipmentManager.Transitions

/-!
# The response to one request

What a request alone on a store is answered with, plan by plan, and from it two results about all requests:

* `no_server_error_iff`: which requests are never answered with a status of 500 or more;
* `list_accepted_iff`: which listings with well-formed parameters are accepted and answered with 200.
-/

namespace ShipmentManager

open Interleaving Paging

variable {P : Platform} {db db' : Db} {response : HttpResponse}

variable (P) in
/-- A program, alone on a store, ends with a response. -/
abbrev Responds (p : Prog Command Command.Answer HttpResponse) (db : Db) (response : HttpResponse) (db' : Db) : Prop :=
  Serves (Db.Executes P.mongo P.model) p db response db'

variable (P) in
/-- The request, alone on a store, is answered with a response. -/
def Answered (db : Db) (a : Arrival P) (response : HttpResponse) : Prop := ∃ db', Responds P (app P a) db response db'

theorem answered_of_error {a : Arrival P} {e : JsError} (h : plan P a = .error e) :
    Answered P db a response ↔ response = errorHandler P.isProduction e := by
  unfold Answered
  rw [app_eq, h]
  constructor
  · rintro ⟨db', hs⟩
    exact ((serves_done _).1 hs).1
  · rintro rfl
    exact ⟨db, (serves_done _).2 ⟨rfl, rfl⟩⟩

theorem answered_of_plan {a : Arrival P} {p : Plan} (h : plan P a = .ok p) :
    Answered P db a response ↔ ∃ db', Responds P (serve P p) db response db' := by
  unfold Answered
  rw [app_eq, h]
  rfl

theorem exists_oracle_any (M : Mongo) (db : Db) : Nonempty (Oracle M db) := by
  obtain ⟨A, hA⟩ := exists_arrangement (fun s : Shipment => s.sortKey []) (SortRel M .asc) db.docs
  obtain ⟨o, -⟩ := exists_oracle db hA
  exact ⟨o⟩

/-- Every request is answered. -/
theorem exists_answered (db : Db) (a : Arrival P) : ∃ response, Answered P db a response := by
  have hexec : ∀ (c : Command) (db : Db), ∃ r db', Db.Executes P.mongo P.model c db r db' := by
    intro c db
    obtain ⟨o⟩ := exists_oracle_any P.mongo db
    exact ⟨_, _, o, rfl⟩
  obtain ⟨response, db', hs⟩ := exists_serves (Db.Executes P.mongo P.model) hexec (app P a) db
  exact ⟨response, db', hs⟩

/-! ### Listings -/

/-- A listing is answered with a page, or with the error that the database raises for its query. -/
theorem responds_list {q : ListQuery} (h : Responds P (serve P (.list q.params)) db response db') :
    ((listQuery P q.params).error? P.mongo = none ∧ response.status = 200) ∨
      ∃ e, (listQuery P q.params).error? P.mongo = some e ∧ response = errorHandler P.isProduction e := by
  obtain ⟨r₁, r₂, hf, hc, hd⟩ :=
    (serves_both_reads _ (fun _ _ _ => executes_read rfl) (fun _ _ _ => executes_read rfl)).1 h
  have hresponse : response = finishList P q.params r₁ r₂ := ((serves_done _).1 hd).1
  rcases (executes_find q.skip_bounds.1 hf).2 with ⟨e, he, rfl⟩ | ⟨he, o, rfl⟩
  · exact Or.inr ⟨e, he, hresponse⟩
  · rcases (executes_count hc).2 with ⟨e, he', -⟩ | ⟨-, rfl⟩
    · change (listQuery P q.params).error? P.mongo = some e at he'
      change (listQuery P q.params).error? P.mongo = none at he
      rw [he] at he'
      cases he'
    · exact Or.inl ⟨he, by rw [hresponse]; rfl⟩

/-- A listing whose query the database rejects is answered with its error. -/
theorem responds_list_error {q : ListQuery} {e : JsError} (he : (listQuery P q.params).error? P.mongo = some e) :
    Responds P (serve P (.list q.params)) db (errorHandler P.isProduction e) db := by
  obtain ⟨o⟩ := exists_oracle_any P.mongo db
  have he' : (ShipmentRepository.buildQuery P.engine q.params.filters).error? P.mongo = some e := he
  refine (serves_both _).2 (Or.inl ⟨.error e, db, .error e, db, ⟨o, ?_⟩, ⟨o, ?_⟩, (serves_done _).2 ⟨rfl, rfl⟩⟩)
  · simp only [Db.exec, he']
  · simp only [Db.exec, he']

/-- The database's errors for a query are not recognised. -/
theorem not_recognised_of_error? {q : ListQuery} {e : JsError}
    (he : (listQuery P q.params).error? P.mongo = some e) : ¬ e.Recognised := by
  have hdates := q.datesValid (P := P)
  unfold Query.error? at he
  rw [hdates] at he
  simp only [Bool.not_true, Bool.false_eq_true, ↓reduceIte] at he
  split at he
  · cases he
    simp [JsError.Recognised, invalidPattern]
  · cases he

/-! ### Requests for one shipment -/

theorem responds_get {id : Text} (hid : isObjectIdText id = true) (h : Responds P (serve P (.get id)) db response db') :
    response.status = 200 ∨ response = notFoundResponse := by
  obtain ⟨r, s₁, hx, hd⟩ := (serves_call _).1 h
  obtain ⟨rfl, -⟩ := executes_findById hid hx
  rw [((serves_done _).1 hd).1]
  cases db.get? (hexValue id) with
  | none => exact Or.inr (errorHandler_notFound _)
  | some s => exact Or.inl rfl

theorem responds_create {draws : Draws} {o data : JsObject} (hdata : CreateData draws o data)
    (h : Responds P (serve P (.create data)) db response db') : response.status = 201 ∨ response.status = 409 := by
  obtain ⟨r, s₁, hx, hd⟩ := (serves_call _).1 h
  rw [((serves_done _).1 hd).1]
  rcases executes_save ⟨draws, o, hdata⟩ hx with ⟨field, value, rfl, -⟩ | ⟨s, rfl, -⟩
  · exact Or.inr rfl
  · exact Or.inl rfl

theorem responds_delete {id : Text} (hid : isObjectIdText id = true)
    (h : Responds P (serve P (.delete id)) db response db') : response.status = 200 ∨ response = notFoundResponse := by
  obtain ⟨r, s₁, hx, hd⟩ := (serves_call _).1 h
  rw [((serves_done _).1 hd).1]
  rcases executes_delete hid hx with ⟨rfl, -, -⟩ | ⟨s, rfl, -⟩
  · exact Or.inr (errorHandler_notFound _)
  · exact Or.inl rfl

theorem responds_update {id : Text} (hid : isObjectIdText id = true) {data : JsObject}
    (hdata : ∃ o, UpdateOutput o data)
    (h : Responds P (serve P (.update id data)) db response db') :
    response.status = 200 ∨ response.status = 404 ∨ response.status = 409 ∨
      ∃ s e, db.get? (hexValue id) = some s ∧
        ShipmentService.checkTransition P s.status (Obj.get? data "status") = .error e ∧
          response = errorHandler P.isProduction e := by
  obtain ⟨r, s₁, hx, hd⟩ := (serves_call _).1 h
  obtain ⟨rfl, rfl⟩ := executes_findById hid hx
  cases hg : s₁.get? (hexValue id) with
  | none =>
    rw [hg] at hd
    rw [((serves_done _).1 hd).1]
    exact Or.inr (Or.inl (congrArg HttpResponse.status (errorHandler_notFound _)))
  | some s =>
    rw [hg] at hd
    replace hd : Responds P (serveWrite P id data s) s₁ response db' := hd
    unfold serveWrite at hd
    split at hd
    · rename_i e he
      exact Or.inr (Or.inr (Or.inr ⟨s, e, rfl, he, ((serves_done _).1 hd).1⟩))
    · obtain ⟨r, s₂, hx, hd⟩ := (serves_call _).1 hd
      rw [((serves_done _).1 hd).1]
      rcases executes_update hid hdata hx with ⟨rfl, -, -⟩ | ⟨_, _, _, -, -, -, -, rfl, -⟩ | ⟨u, s, -, rfl, -⟩
      · exact Or.inr (Or.inl (congrArg HttpResponse.status (errorHandler_notFound _)))
      · exact Or.inr (Or.inr (Or.inl rfl))
      · exact Or.inl rfl

/-- An update whose transition is refused is answered with the error. -/
theorem responds_update_error {id : Text} (hid : isObjectIdText id = true) {data : JsObject} {s : Shipment}
    {e : JsError}
    (hg : db.get? (hexValue id) = some s)
    (he : ShipmentService.checkTransition P s.status (Obj.get? data "status") = .error e) :
    Responds P (serve P (.update id data)) db (errorHandler P.isProduction e) db := by
  obtain ⟨o⟩ := exists_oracle_any P.mongo db
  refine (serves_call _).2 ⟨.ok (db.get? (hexValue id)), db, ⟨o, ?_⟩, ?_⟩
  · simp only [Db.exec, P.model.castObjectId_hex id hid]
    rfl
  · rw [hg]
    show Responds P (serveWrite P id data s) db _ db
    unfold serveWrite
    rw [he]
    exact (serves_done _).2 ⟨rfl, rfl⟩

/-! ### Server errors -/

/-- A status that the transition check refuses without recognising it: the stored status is none of the four. -/
theorem checkTransition_error {s t : Text} (ht : t ∈ statusValues) {e : JsError}
    (h : ShipmentService.checkTransition P s (some (.str t)) = .error e) :
    t ≠ s ∧ (e.Recognised ∨ s ∉ statusValues) := by
  simp only [ShipmentService.checkTransition, truthy_status ht, Bool.true_and] at h
  split at h
  · rename_i hne
    have hts : t ≠ s := by simpa using hne
    unfold ShipmentService.validateStatusTransition at h
    split at h
    -- the table has no entry for the stored status, so it is none of the four
    · rename_i hnone
      refine ⟨hts, Or.inr fun hs => ?_⟩
      obtain ⟨st, rfl⟩ := mem_statusValues.1 hs
      have hfalse : (JsValue.str t).isText st.value = false := by simpa using hts
      simp [isValidStatusTransition, hfalse, transitionsOf?] at hnone
    · cases h
    · cases h
      refine ⟨hts, Or.inl ?_⟩
      show 400 < 500
      omega
  · cases h

theorem checkTransition_undefined {s t : Text} (ht : t ∈ statusValues) (hts : t ≠ s) (hs : s ∉ statusValues) :
    ShipmentService.checkTransition P s (some (.str t)) = .error ShipmentService.undefinedTransitions := by
  have hfalse : (JsValue.str t).isText s = false := by simpa using hts
  have hnone : ShipmentStatus.ofText? s = none := by
    cases ho : ShipmentStatus.ofText? s with
    | none => rfl
    | some a => exact absurd (mem_statusValues.2 ⟨a, ShipmentStatus.value_of_ofText? ho⟩) hs
  simp [ShipmentService.checkTransition, truthy_status ht, hfalse, ShipmentService.validateStatusTransition,
    isValidStatusTransition, transitionsOf?, hnone]

theorem plan_of_body_error {a : Arrival P} {e : JsError} (h : parseBody P a.request.body = .error e) :
    plan P a = .error e := by
  unfold plan
  rw [h]
  rfl

theorem plan_of_param_error {a : Arrival P} {body : JsValue} (hbody : parseBody P a.request.body = .ok body)
    {raw : Text} (hroute : a.request.route.id? = some raw) {e : JsError} (h : P.express.decodeParam raw = .error e) :
    plan P a = .error e := by
  have hid : planId P raw = .error e := by
    unfold planId
    rw [h]
    rfl
  unfold plan
  rw [hbody]
  show planRoute P a.draws body a.request.route = .error e
  cases hr : a.request.route with
  | getAll text =>
    rw [hr] at hroute
    cases hroute
  | create =>
    rw [hr] at hroute
    cases hroute
  | getById id =>
    rw [hr] at hroute
    cases hroute
    rw [planRoute, hid]
    rfl
  | update id =>
    rw [hr] at hroute
    cases hroute
    rw [planRoute, hid]
    rfl
  | delete id =>
    rw [hr] at hroute
    cases hroute
    rw [planRoute, hid]
    rfl

/-- The plan of a listing that the validator accepts. -/
theorem plan_list {a : Arrival P} {body : JsValue} (hbody : parseBody P a.request.body = .ok body) {text : Text}
    (hroute : a.request.route = .getAll text) {out : JsObject}
    (hv : P.joi.validate listShipmentsQuerySchema (.obj (P.express.parseQuery text)) = .ok out) :
    WellFormedQuery P.joi.toJoiConversions (P.express.parseQuery text) ∧
      ∃ hr : RangeHolds P.joi.toJoiConversions (P.express.parseQuery text),
        plan P a = .ok (.list (ListQuery.ofObject _ _ hr).params) := by
  obtain ⟨hw, hr, hreads⟩ := list_output hv
  refine ⟨hw, hr, ?_⟩
  unfold plan
  rw [hbody]
  show planRoute P a.draws body a.request.route = _
  have hreq : validateRequest P listShipmentsQuerySchema (.obj (P.express.parseQuery text)) = .ok out := by
    unfold validateRequest
    rw [hv]
  rw [hroute, planRoute, hreq]
  show (ShipmentService.parseQueryParams P.engine (ShipmentController.rawQueryParams out) >>= fun params =>
    (.ok (.list params) : Except JsError Plan)) = _
  rw [parseQueryParams_reads P.engine hreads]
  rfl

/-- What a request and the store must avoid for the request never to be answered with a server error. -/
structure AvoidsServerError (P : Platform) (db : Db) (a : Arrival P) : Prop where
  /-- The body parsers accept the body, or raise the error of malformed JSON. -/
  body : ∀ e, parseBody P a.request.body = .error e → ∃ message, e = .syntaxError (some 400) message
  /-- The router can decode the path parameter. -/
  path : ∀ body raw, parseBody P a.request.body = .ok body → a.request.route.id? = some raw →
    ∃ id, P.express.decodeParam raw = .ok id
  /-- The text filters of an accepted listing are valid patterns. -/
  filters : ∀ body text out, parseBody P a.request.body = .ok body → a.request.route = .getAll text →
    P.joi.validate listShipmentsQuerySchema (.obj (P.express.parseQuery text)) = .ok out →
      ValidPatterns P (P.express.parseQuery text)
  /-- An accepted update that names another status than the stored one meets one of the four statuses. -/
  statuses : ∀ id data s t, plan P a = .ok (.update id data) → db.get? (hexValue id) = some s →
    Obj.get? data "status" = some (.str t) → t = s.status ∨ s.status ∈ statusValues

private theorem recognised_of_answered {a : Arrival P} {e : JsError}
    (h : ∀ response, Answered P db a response → response.status < 500)
    (ha : Answered P db a (errorHandler P.isProduction e)) : e.Recognised :=
  errorHandler_status_lt.1 (h _ ha)

private theorem avoids_of_no_server_error {a : Arrival P}
    (h : ∀ response, Answered P db a response → response.status < 500) : AvoidsServerError P db a := by
  constructor
  · intro e he
    have hrec := recognised_of_answered h ((answered_of_error (plan_of_body_error he)).2 rfl)
    rcases parseBody_error he with hs | ⟨status, m, -, -, rfl⟩
    · exact hs
    · exact hrec.elim
  · intro body raw hbody hroute
    cases hd : P.express.decodeParam raw with
    | ok id => exact ⟨id, rfl⟩
    | error e =>
      have hrec := recognised_of_answered h ((answered_of_error (plan_of_param_error hbody hroute hd)).2 rfl)
      obtain ⟨m, rfl⟩ := P.express.decodeParam_error _ _ hd
      exact hrec.elim
  · intro body text out hbody hroute hv
    obtain ⟨hw, hr, hplan⟩ := plan_list hbody hroute hv
    rw [← error?_ofObject hw hr]
    cases he : (listQuery P (ListQuery.ofObject _ _ hr).params).error? P.mongo with
    | none => rfl
    | some e =>
      have hrec := recognised_of_answered h ((answered_of_plan hplan).2 ⟨db, responds_list_error he⟩)
      exact absurd hrec (not_recognised_of_error? he)
  · intro id data s t hplan hg ht
    by_cases hts : t = s.status
    · exact Or.inl hts
    by_cases hs : s.status ∈ statusValues
    · exact Or.inr hs
    cases plan_checked hplan with
    | update raw _ o _ route decoded valid_id parsed valid =>
      have htv : t ∈ statusValues := by
        rcases valid.status with ⟨-, hn⟩ | ⟨t', ht', -, hd⟩
        · rw [hn] at ht
          cases ht
        · rw [hd] at ht
          cases ht
          exact ht'
      have he := checkTransition_undefined (P := P) htv hts hs
      rw [← ht] at he
      exact (recognised_of_answered h ((answered_of_plan hplan).2 ⟨db, responds_update_error valid_id hg he⟩)).elim

private theorem no_server_error_of_avoids {a : Arrival P} (h : AvoidsServerError P db a)
    (ha : Answered P db a response) : response.status < 500 := by
  cases hp : plan P a with
  | error e =>
    rw [(answered_of_error hp).1 ha, errorHandler_status_lt]
    cases plan_refused hp with
    -- of the errors before the routes, only the one of malformed JSON is recognised
    | body _ he =>
      obtain ⟨m, rfl⟩ := h.body e he
      rfl
    | param raw _ parsed route he =>
      obtain ⟨body, hbody⟩ := parsed
      obtain ⟨id, hid⟩ := h.path body raw hbody route
      rw [hid] at he
      cases he
    | client x hx => exact hx.2
  | ok p =>
    obtain ⟨db', hs⟩ := (answered_of_plan hp).1 ha
    cases plan_checked hp with
    | list text query params route valid parsed =>
      obtain ⟨body, hbody, -⟩ := bind_ok hp
      obtain ⟨hw, hr, hplan⟩ := plan_list hbody route valid
      rw [hp] at hplan
      cases hplan
      rcases responds_list hs with ⟨-, hst⟩ | ⟨e, he, -⟩
      · omega
      · rw [(error?_ofObject hw hr).2 (h.filters body text query hbody route valid)] at he
        cases he
    | get raw id route decoded valid =>
      rcases responds_get valid hs with hst | rfl
      · omega
      · decide
    | create o data route parsed valid =>
      rcases responds_create valid hs with hst | hst <;> omega
    | update raw id o data route decoded valid_id parsed valid =>
      rcases responds_update valid_id ⟨o, valid⟩ hs with hst | hst | hst | ⟨s, e, hg, he, rfl⟩
      · omega
      · omega
      · omega
      · rw [errorHandler_status_lt]
        rcases valid.status with ⟨-, hn⟩ | ⟨t, ht, -, hd⟩
        · rw [hn] at he
          cases he
        · rw [hd] at he
          obtain ⟨hts, hrec | hunknown⟩ := checkTransition_error ht he
          · exact hrec
          · rcases h.statuses id data s t hp hg hd with rfl | hknown
            · exact absurd rfl hts
            · exact absurd hknown hunknown
    | delete raw id route decoded valid =>
      rcases responds_delete valid hs with hst | rfl
      · omega
      · decide

/-- A request is never answered with a server error exactly when the body parsers raise nothing but the error of
malformed JSON, the path can be decoded, its text filters are valid patterns, and the status it changes is a known
one. -/
theorem no_server_error_iff (P : Platform) (db : Db) (a : Arrival P) :
    (∀ response, Answered P db a response → response.status < 500) ↔ AvoidsServerError P db a :=
  ⟨avoids_of_no_server_error, fun h _ ha => no_server_error_of_avoids h ha⟩

/-- A body above the limit of the parser is answered with 500. -/
theorem no_server_error_fails :
    ¬ ∀ (P : Platform) (db : Db) (a : Arrival P) (response : HttpResponse),
      Answered P db a response → response.status < 500 := by
  intro h
  have hplan : plan referencePlatform (sampleRequest .create .tooLarge) =
      .error (.httpError 413 (js "request entity too large")) := rfl
  have hlt := h referencePlatform Db.empty _ _ ((answered_of_error hplan).2 rfl)
  revert hlt
  decide

/-! ### Accepted listings -/

/-- A listing whose keys are well formed, each by its own rule, and whose two dates, where both are given, are in
order. -/
structure WellFormedListing (P : Platform) (a : Arrival P) (o : JsObject) : Prop where
  route : ∃ text, a.request.route = .getAll text ∧ P.express.parseQuery text = o
  body : ∃ body, parseBody P a.request.body = .ok body
  keys : WellFormedQuery P.joi.toJoiConversions o
  ordered : ∀ s ∈ (Obj.get? o "startDate").bind P.joi.isoDateOf,
    ∀ e ∈ (Obj.get? o "endDate").bind P.joi.isoDateOf, s ≤ e

/-- The validator and the service accept the query, and the request is answered with 200. -/
def ListAccepted (P : Platform) (db : Db) (a : Arrival P) (o : JsObject) : Prop :=
  (∃ out params, validateRequest P listShipmentsQuerySchema (.obj o) = .ok out ∧
    ShipmentService.parseQueryParams P.engine (ShipmentController.rawQueryParams out) = .ok params) ∧
    (∃ response, Answered P db a response) ∧ ∀ response, Answered P db a response → response.status = 200

/-- An end of the range is given only together with a start. -/
def EndWithStart (o : JsObject) : Prop := (Obj.get? o "endDate").isSome → (Obj.get? o "startDate").isSome

instance (o : JsObject) : Decidable (EndWithStart o) :=
  inferInstanceAs (Decidable ((Obj.get? o "endDate").isSome → (Obj.get? o "startDate").isSome))

section Listing

variable {a : Arrival P} {o : JsObject}

theorem WellFormedListing.rangeHolds_iff (h : WellFormedListing P a o) :
    RangeHolds P.joi.toJoiConversions o ↔ EndWithStart o := by
  have hdate : ∀ k min ks, Obj.get? listShipmentsQuerySchema.keys k = some ks → ks.type = .isoDate min →
      (Obj.get? o k).isSome → ∃ ms, (Obj.get? o k).bind P.joi.isoDateOf = some ms := by
    intro k min ks hk ht hsome
    obtain ⟨v, hv⟩ := Option.isSome_iff_exists.1 hsome
    obtain ⟨out, hout⟩ := h.keys k ks hk v hv
    rw [ht] at hout
    obtain ⟨ms, hms, -⟩ := Option.map_eq_some_iff.1 hout
    exact ⟨ms, by rw [hv]; exact hms⟩
  constructor
  · intro hr hend
    obtain ⟨e, he⟩ := hdate "endDate" _ _ rfl rfl hend
    obtain ⟨s, hs, -⟩ := hr e he
    obtain ⟨v, hv, -⟩ := Option.bind_eq_some_iff.1 hs
    rw [hv]
    rfl
  · intro hpresent e he
    obtain ⟨v, hv, -⟩ := Option.bind_eq_some_iff.1 he
    obtain ⟨s, hs⟩ := hdate "startDate" _ _ rfl rfl (hpresent (by rw [hv]; rfl))
    exact ⟨s, hs, h.ordered s hs e he⟩

/-- A query that the validator accepts names no end without a start. -/
theorem endWithStart_of_accepted {db : Db} (h : WellFormedListing P a o) (ha : ListAccepted P db a o) :
    EndWithStart o := by
  obtain ⟨⟨out, -, hv, -⟩, -⟩ := ha
  obtain ⟨-, hr, -⟩ := list_output (validateRequest_ok hv)
  exact h.rangeHolds_iff.1 hr

private theorem patterns_of_accepted (h : WellFormedListing P a o) (ha : ListAccepted P db a o) :
    ValidPatterns P o := by
  obtain ⟨⟨out, -, hv, -⟩, -, hanswer⟩ := ha
  obtain ⟨text, hroute, rfl⟩ := h.route
  obtain ⟨body, hbody⟩ := h.body
  obtain ⟨hw, hr, hplan⟩ := plan_list hbody hroute (validateRequest_ok hv)
  rw [← error?_ofObject hw hr]
  cases he : (listQuery P (ListQuery.ofObject _ _ hr).params).error? P.mongo with
  | none => rfl
  | some e =>
    have hstatus := hanswer _ ((answered_of_plan hplan).2 ⟨db, responds_list_error he⟩)
    have hlt : (errorHandler P.isProduction e).status < 500 := by omega
    exact absurd (errorHandler_status_lt.1 hlt) (not_recognised_of_error? he)

private theorem accepted_of_ends (h : WellFormedListing P a o) (hends : EndWithStart o) (hvalid : ValidPatterns P o) :
    ListAccepted P db a o := by
  obtain ⟨text, hroute, rfl⟩ := h.route
  obtain ⟨body, hbody⟩ := h.body
  have hrange := h.rangeHolds_iff.2 hends
  obtain ⟨out, hv⟩ := (P.joi.validate_accepts _ _).2 (accepts_list_iff.2 ⟨h.keys, hrange⟩)
  have hreq : validateRequest P listShipmentsQuerySchema (.obj (P.express.parseQuery text)) = .ok out := by
    unfold validateRequest
    rw [hv]
  obtain ⟨-, hr, hreads⟩ := list_output hv
  refine ⟨⟨out, _, hreq, parseQueryParams_reads P.engine hreads⟩, exists_answered db a, fun response ha => ?_⟩
  obtain ⟨hw, hr, hplan⟩ := plan_list hbody hroute hv
  obtain ⟨db', hs⟩ := (answered_of_plan hplan).1 ha
  rcases responds_list hs with ⟨-, hst⟩ | ⟨e, he, -⟩
  · exact hst
  · rw [(error?_ofObject hw hr).2 hvalid] at he
    cases he

/-- A listing with well-formed keys is accepted and answered with 200 exactly when an `endDate` comes with a `startDate`
and the text filters are valid patterns. -/
theorem list_accepted_iff (db : Db) (h : WellFormedListing P a o) :
    ListAccepted P db a o ↔ EndWithStart o ∧ ValidPatterns P o :=
  ⟨fun ha => ⟨endWithStart_of_accepted h ha, patterns_of_accepted h ha⟩,
    fun ⟨hends, hvalid⟩ => accepted_of_ends h hends hvalid⟩

end Listing

private theorem wellFormedQuery_of {c : JoiConversions} {o : JsObject}
    (h : (listShipmentsQuerySchema.keys.all fun p =>
      (Obj.get? o p.1).all fun v => (p.2.type.convert c v).isSome) = true) : WellFormedQuery c o := by
  intro k ks hk v hv
  have hp := List.all_eq_true.1 h (k, ks) (Obj.mem_of_get? hk)
  rw [hv] at hp
  exact Option.isSome_iff_exists.1 hp

/-- The shipments of one year that concern a Rome. -/
def yearListing : String := "startDate=2024-01-01&endDate=2024-12-31&search=Rome"

private theorem wellFormed_year :
    WellFormedListing referencePlatform (listRequest yearListing) (parsePairs (js yearListing)) where
  route := ⟨_, rfl, rfl⟩
  body := ⟨_, rfl⟩
  keys := wellFormedQuery_of (by decide)
  ordered := by decide

theorem list_accepted_iff_year :
    ListAccepted referencePlatform (sampleStore .pending) (listRequest yearListing) (parsePairs (js yearListing)) := by
  refine (list_accepted_iff (sampleStore .pending) wellFormed_year).2 ⟨by decide, fun f raw hraw => ?_⟩
  have hsearch : f = .search → referencePlatform.mongo.validPattern (toChars (trim raw)) = true := by
    rintro rfl
    cases hraw
    decide
  cases f with
  | origin => cases hraw
  | destination => cases hraw
  | search => exact hsearch rfl

/-- An `endDate` alone is refused. -/
theorem list_accepted_fails :
    ¬ ∀ (P : Platform) (db : Db) (a : Arrival P) (o : JsObject), WellFormedListing P a o → ListAccepted P db a o := by
  intro h
  have hw : WellFormedListing referencePlatform (listRequest "endDate=2024-12-31")
      (parsePairs (js "endDate=2024-12-31")) :=
    { route := ⟨_, rfl, rfl⟩, body := ⟨_, rfl⟩, keys := wellFormedQuery_of (by decide), ordered := by decide }
  have hends := endWithStart_of_accepted hw (h referencePlatform Db.empty _ _ hw)
  revert hends
  decide

end ShipmentManager
