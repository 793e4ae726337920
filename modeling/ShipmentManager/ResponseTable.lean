import ShipmentManager.Contract
import ShipmentManager.Filters
import ShipmentManager.Identifiers

/-!
# The table of responses

Every response to a request that the rate limiter lets through, whatever requests are served at the same time, is one of
a short table (`Documented`): a success with the message of its route and shipments that pass the schema, shown under
the identifier that was asked for, a page that the request's own find returned, with the pagination of the number that
its own count returned, or one of six errors.  The codes `INVALID_ID` and `INVALID_QUERY_PARAMS` are not in it: what the
service would reject with them has been rejected by a validator before (`plan_rejected`).
-/

namespace ShipmentManager

open Interleaving

/-! ### The table -/

/-- The response to an input that does not pass its schema: the message lists those of the details. -/
def invalidResponse (details : List ErrorDetail) : HttpResponse :=
  ⟨400, .error (js "Validation failed: " ++ (js ", ").intercalate (details.map ErrorDetail.message)) .validationError
    (some details)⟩

def unreadableResponse : HttpResponse := ⟨400, .error (js "Invalid JSON in request body") .validationError none⟩

def unexpectedResponse (message : Text) : HttpResponse := ⟨500, .error message .internalError none⟩

/-- The message of a success of a route on one stored shipment. -/
def Route.message? : Route → Option String
  | getAll _ => none
  | getById _ => some "Shipment retrieved successfully"
  | create => none
  | update _ => some "Shipment updated successfully"
  | delete _ => some "Shipment deleted successfully"

variable (P : Platform)

/-- The responses to a request, with the steps that it has taken. -/
inductive Documented (a : Arrival P) (es : List DbEvent) : HttpResponse → Prop where
  | created (s : Shipment) (route : a.request.route = .create) (valid : ValidShipment s) :
      Documented a es (answer 201 "Shipment created successfully" s)
  | listed (text : Text) (params : QueryParams) (page : List Shipment) (total : Int)
      (found found' counted counted' : Db) (route : a.request.route = .getAll text)
      (accepted : plan P a = .ok (.list params))
      (find : ⟨.find (listQuery P params) params.sortBy params.order ((params.page - 1) * params.limit) params.limit,
        .ok page, found, found'⟩ ∈ es)
      (count : ⟨.countDocuments (listQuery P params), .ok total, counted, counted'⟩ ∈ es)
      (valid : ∀ s ∈ page, ValidShipment s) (selected : ∀ s ∈ page, s ∈ matching P found params)
      (length : page.length ≤ params.limit) (totalItems : total = matchCount P params counted) :
      Documented a es ⟨200, .shipments (js "Shipments retrieved successfully") (page.map ShipmentService.toResponse)
        (ShipmentRepository.paginationOf params.page params.limit total)⟩
  | shown (raw id : Text) (message : String) (s : Shipment) (route : a.request.route.id? = some raw)
      (success : a.request.route.message? = some message) (decoded : P.express.decodeParam raw = .ok id)
      (named : (ShipmentService.toResponse s).id = id.map lowerDigit) (valid : ValidShipment s) :
      Documented a es (answer 200 message s)
  | invalid (details : List ErrorDetail) : Documented a es (invalidResponse details)
  | unreadable : Documented a es unreadableResponse
  | missing (raw : Text) (route : a.request.route.id? = some raw) : Documented a es notFoundResponse
  | refused (raw : Text) (current next : Text) (route : a.request.route = .update raw)
      (stored : current ∈ statusValues) (asked : next ∈ statusValues) (changes : next ≠ current)
      (illegal : ¬ LegalChange current next) :
      Documented a es (errorHandler P.isProduction (refusedTransition current next))
  | taken (route : a.request.route = .create) :
      Documented a es (takenResponse (trim (generateTrackingNumber a.draws.today a.draws.random)))
  | unexpected (message : Text) (hidden : P.isProduction = true → message = js "An unexpected error occurred") :
      Documented a es (unexpectedResponse message)

variable {P}

/-- Two of the seven codes of the API are in no response. -/
theorem Documented.code {a : Arrival P} {es : List DbEvent} {status : Nat} {message : Text} {code : ErrorCode}
    {details : Option (List ErrorDetail)} (h : Documented P a es ⟨status, .error message code details⟩) :
    code ≠ .invalidId ∧ code ≠ .invalidQueryParams := by
  generalize hresponse : (⟨status, .error message code details⟩ : HttpResponse) = response at h
  have of_code : ∀ c, (∃ s m d, response = ⟨s, .error m c d⟩) → code = c := by
    rintro c ⟨s, m, d, rfl⟩
    cases hresponse
    rfl
  cases h with
  | created => cases hresponse
  | listed => cases hresponse
  | shown => cases hresponse
  | invalid details => simp [of_code .validationError ⟨_, _, _, rfl⟩]
  | unreadable => simp [of_code .validationError ⟨_, _, _, rfl⟩]
  | missing => simp [of_code .resourceNotFound ⟨_, _, _, rfl⟩]
  | refused => simp [of_code .invalidStatusTransition ⟨_, _, _, rfl⟩]
  | taken => simp [of_code .duplicateEntry ⟨_, _, _, rfl⟩]
  | unexpected => simp [of_code .internalError ⟨_, _, _, rfl⟩]

/-! ### Rejected requests -/

variable (P) in
/-- Why a request is rejected before it sends anything. -/
inductive Rejected (a : Arrival P) : JsError → Prop where
  | body (e : JsError) (h : parseBody P a.request.body = .error e) : Rejected a e
  | param (raw : Text) (e : JsError) (h : P.express.decodeParam raw = .error e) : Rejected a e
  | invalid (details : List ErrorDetail) :
      Rejected a (.apiError (.badRequest
        (js "Validation failed: " ++ (js ", ").intercalate (details.map ErrorDetail.message)) (some details)))

theorem validateRequest_rejected {a : Arrival P} {schema : ObjectSchema} {v : JsValue} {e : JsError}
    (h : validateRequest P schema v = .error e) : Rejected P a e := by
  unfold validateRequest at h
  split at h
  · cases h
  · cases h
    exact Rejected.invalid _

private theorem planId_rejected {a : Arrival P} {raw : Text} {e : JsError} (h : planId P raw = .error e) :
    Rejected P a e := by
  rcases bind_error h with h | ⟨id, -, h⟩
  · exact Rejected.param raw e h
  · rcases bind_error h with h | ⟨out, -, h⟩
    · exact validateRequest_rejected h
    · cases h

/-- The service accepts every identifier that the validator accepts. -/
private theorem validateObjectId_of_planId {raw id : Text} (h : planId P raw = .ok id) :
    ShipmentService.validateObjectId P id = .ok () :=
  if_pos (P.model.isValidObjectId_hex id (planId_ok h).2)

/-- The service accepts every status that the validator accepts. -/
private theorem checkStatus_output {o out : JsObject} (h : CreateOutput o out) :
    ShipmentService.checkStatus P (Obj.get? out "status") = .ok () := by
  have hchecked : ∀ t ∈ statusValues, ShipmentService.checkStatus P (some (.str t)) = .ok () := by
    intro t ht
    have hany : statusValues.any (JsValue.str t).isText = true := List.any_eq_true.2 ⟨t, ht, by simp⟩
    simp [ShipmentService.checkStatus, hany]
  rcases h.status with ⟨-, hs⟩ | ⟨t, ht, -, hs⟩
  · rw [hs]
    exact hchecked _ (by decide)
  · rw [hs]
    exact hchecked t ht

/-- A request is rejected by the body parsers, the router or a validator, never by a check of the service. -/
theorem plan_rejected {a : Arrival P} {e : JsError} (h : plan P a = .error e) : Rejected P a e := by
  rcases bind_error h with hb | ⟨body, hbody, h⟩
  · exact Rejected.body e hb
  cases hr : a.request.route with
  | getAll text =>
    rw [hr] at h
    rcases bind_error h with h | ⟨query, hq, h⟩
    · exact validateRequest_rejected h
    · obtain ⟨-, hrange, hreads⟩ := list_output (validateRequest_ok hq)
      rw [parseQueryParams_reads P.engine hreads] at h
      cases h
  | getById raw =>
    rw [hr] at h
    rcases bind_error h with h | ⟨id, hid, h⟩
    · exact planId_rejected h
    · rw [validateObjectId_of_planId hid] at h
      cases h
  | create =>
    rw [hr] at h
    rcases bind_error h with h | ⟨out, hv, hcheck⟩
    · exact validateRequest_rejected h
    · obtain ⟨o, rfl, hout⟩ := create_output (parseBody_structured hbody) (validateRequest_ok hv)
      rw [checkStatus_output hout] at hcheck
      cases hcheck
  | update raw =>
    rw [hr] at h
    rcases bind_error h with h | ⟨id, hid, h⟩
    · exact planId_rejected h
    · rcases bind_error h with h | ⟨out, -, h⟩
      · exact validateRequest_rejected h
      · rw [validateObjectId_of_planId hid] at h
        cases h
  | delete raw =>
    rw [hr] at h
    rcases bind_error h with h | ⟨id, hid, h⟩
    · exact planId_rejected h
    · rw [validateObjectId_of_planId hid] at h
      cases h

/-- A rejected request is answered from the table. -/
private theorem Rejected.documented {a : Arrival P} {es : List DbEvent} {e : JsError} (h : Rejected P a e) :
    Documented P a es (errorHandler P.isProduction e) := by
  have unexpected : ∀ message : Text, Documented P a es
      (unexpectedResponse (if P.isProduction then js "An unexpected error occurred" else message)) :=
    fun message => Documented.unexpected _ fun hproduction => if_pos hproduction
  cases h with
  | body e h =>
    rcases parseBody_error h with ⟨m, rfl⟩ | ⟨status, m, -, -, rfl⟩
    · exact Documented.unreadable
    · exact unexpected m
  | param raw e h =>
    obtain ⟨m, rfl⟩ := P.express.decodeParam_error _ _ h
    exact unexpected m
  | invalid details => exact Documented.invalid details

/-! ### Responses in a run -/

section Run

variable {db : Db} {w : ServerWorld P} {i : Nat}

/-- The store invariant holds before and after every step of a request. -/
private theorem Reachable.own_effect (hdb : StoreInvariant db) (hw : Reachable P db w) {e : DbEvent}
    (he : e ∈ w.own i) : StoreInvariant e.before ∧ StoreInvariant e.after ∧ Effect e.cmd e.answer e.before e.after := by
  obtain ⟨n, hn⟩ := List.getElem?_of_mem (World.mem_own.1 he)
  obtain ⟨hbefore, hafter, heff⟩ := Reachable.around hw hn
  exact ⟨hbefore ▸ Reachable.storeInvariant hw hdb n, hafter ▸ Reachable.storeInvariant hw hdb (n + 1), heff⟩

section Shipment

variable {a : Arrival P} {raw id : Text} {message : String}

/-- The end of a request on one shipment: it is not there, or it is shown under the identifier of the request. -/
private theorem documented_finish (route : a.request.route.id? = some raw)
    (success : a.request.route.message? = some message) (decoded : P.express.decodeParam raw = .ok id)
    (hid : isObjectIdText id = true) (es : List DbEvent) (x : Option Shipment)
    (h : ∀ s, x = some s → s._id = hexValue id ∧ ValidShipment s) :
    Documented P a es (finish P 200 message (.ok x)) := by
  cases x with
  | none =>
    show Documented P a es (errorHandler P.isProduction ShipmentService.notFound)
    rw [errorHandler_notFound]
    exact Documented.missing raw route
  | some s =>
    obtain ⟨hkey, valid⟩ := h s rfl
    refine Documented.shown raw id message s route success decoded ?_ valid
    show objectIdToText s._id = _
    rw [hkey]
    exact (objectIdToText_hexValue hid).2

end Shipment

variable {a : Arrival P} {response : HttpResponse}

private theorem documented_get (hdb : StoreInvariant db) (hw : Reachable P db w) {id : Text}
    (hc : Checked P a (.get id)) (hruns : Prog.Runs (serve P (.get id)) (w.own i) (.done response)) :
    Documented P a (w.own i) response := by
  cases hc with
  | get raw _ route decoded valid =>
    rcases runs_get hruns with ⟨-, hp⟩ | ⟨r, s, s', hown, hp⟩
    · cases hp
    · cases hp
      obtain ⟨hs, -, heff⟩ := Reachable.own_effect hdb hw (hown ▸ List.mem_singleton_self _)
      replace heff : Effect (.findById id) r s s' := heff
      cases heff with
      | found =>
        refine documented_finish (by rw [route]; rfl) (by rw [route]; rfl) decoded valid _ _ fun x hx => ?_
        exact ⟨Db.id_of_get? hx, hs.valid x (Db.mem_of_get? hx)⟩

private theorem documented_delete (hdb : StoreInvariant db) (hw : Reachable P db w) {id : Text}
    (hc : Checked P a (.delete id)) (hruns : Prog.Runs (serve P (.delete id)) (w.own i) (.done response)) :
    Documented P a (w.own i) response := by
  cases hc with
  | delete raw _ route decoded valid =>
    rcases runs_delete hruns with ⟨-, hp⟩ | ⟨r, s, s', hown, hp⟩
    · cases hp
    · cases hp
      obtain ⟨hs, -, heff⟩ := Reachable.own_effect hdb hw (hown ▸ List.mem_singleton_self _)
      replace heff : Effect (.findByIdAndDelete id) r s s' := heff
      have hmessage : a.request.route.message? = some "Shipment deleted successfully" := by
        rw [route]
        rfl
      have hfinish := documented_finish (P := P) (by rw [route]; rfl) hmessage decoded valid
      cases heff with
      | deleteMissing => exact hfinish _ none nofun
      | deleted _ x _ _ hdel =>
        refine hfinish _ (some x) fun y hy => ?_
        cases hy
        exact ⟨Db.id_of_get? hdel.present, hs.valid x (Db.mem_of_get? hdel.present)⟩

private theorem documented_create (hw : Reachable P db w) {data : JsObject}
    (hc : Checked P a (.create data)) (hruns : Prog.Runs (serve P (.create data)) (w.own i) (.done response)) :
    Documented P a (w.own i) response := by
  cases hc with
  | create o _ route parsed valid =>
    rcases runs_create hruns with ⟨-, hp⟩ | ⟨r, s, s', hown, hp⟩
    · cases hp
    · cases hp
      have hmem : (⟨.save data, r, s, s'⟩ : DbEvent) ∈ w.events := World.mem_events (World.mem_own.1
        (hown ▸ List.mem_singleton_self _))
      have hexec : Db.Executes P.mongo P.model (.save data) s r s' :=
        (Interleaving.Reachable.sound hw).executed _ hmem
      rcases executes_save_cases valid hexec with ⟨d, -, -, rfl, -⟩ | ⟨x, rfl, -, -, hbody, -⟩
      · show Documented P a (w.own i) (errorHandler P.isProduction _)
        rw [errorHandler_trackingNumber]
        exact Documented.taken route
      · exact Documented.created x route hbody.valid

/-- The end of an update that read a shipment and was refused. -/
private theorem documented_refused {raw id : Text} {o data : JsObject} (route : a.request.route = .update raw)
    (valid : UpdateOutput o data) {x : Shipment} (hx : ValidShipment x)
    (hruns : serveWrite P id data x = .done response) (es : List DbEvent) : Documented P a es response := by
  rcases checkTransition_cases (P := P) valid hx.status with ⟨-, hcheck⟩ | ⟨hrefused, hcheck⟩
  · unfold serveWrite at hruns
    rw [hcheck] at hruns
    cases hruns
  · unfold serveWrite at hruns
    rw [hcheck] at hruns
    cases hruns
    rcases valid.status_cases with ⟨-, hgiven⟩ | ⟨t, ht, -, hgiven⟩
    · refine absurd (fun t ht => ?_) hrefused
      rw [hgiven] at ht
      cases ht
    · have hillegal : ¬ (t = x.status ∨ LegalChange x.status t) := by
        intro hlegal
        refine hrefused fun t' ht' => ?_
        rw [hgiven] at ht'
        cases ht'
        exact hlegal
      rw [hgiven]
      exact Documented.refused raw x.status t route hx.status ht (fun h => hillegal (Or.inl h))
        fun h => hillegal (Or.inr h)

private theorem documented_update (hdb : StoreInvariant db) (hw : Reachable P db w) {id : Text} {data : JsObject}
    (hc : Checked P a (.update id data)) (hruns : Prog.Runs (serve P (.update id data)) (w.own i) (.done response)) :
    Documented P a (w.own i) response := by
  cases hc with
  | update raw _ o _ route decoded valid_id parsed valid =>
    have hmessage : a.request.route.message? = some "Shipment updated successfully" := by
      rw [route]
      rfl
    have hfinish := documented_finish (P := P) (by rw [route]; rfl) hmessage decoded valid_id
    have hrun := runs_update hruns
    generalize hq : (.done response : Prog Command Command.Answer HttpResponse) = q at hrun
    generalize hown : w.own i = es at hrun
    cases hrun with
    | started => cases hq
    | failed e s s' =>
      obtain ⟨-, -, heff⟩ := Reachable.own_effect hdb hw (hown ▸ List.mem_singleton_self _)
      replace heff : Effect (.findById id) (.error e) s s' := heff
      cases heff
    | missing s s' =>
      cases hq
      exact hfinish _ none nofun
    | read x s s' =>
      obtain ⟨hs, -, heff⟩ := Reachable.own_effect hdb hw (hown ▸ List.mem_singleton_self _)
      replace heff : Effect (.findById id) (.ok (some x)) s s' := heff
      have hx : s.get? (hexValue id) = some x := by
        generalize hr : (.ok (some x) : (Command.findById id).Answer) = r at heff
        cases heff
        exact (Except.ok.inj hr).symm
      exact documented_refused route valid (hs.valid x (Db.mem_of_get? hx)) hq.symm _
    | written x s s' s₂ s₂' r hcheck =>
      cases hq
      obtain ⟨hs, hs', heff⟩ := Reachable.own_effect hdb hw (i := i) (e := ⟨.findByIdAndUpdate id data, r, s₂, s₂'⟩)
        (by rw [hown]; simp)
      replace heff : Effect (.findByIdAndUpdate id data) r s₂ s₂' := heff
      cases heff with
      | updateMissing => exact hfinish _ none nofun
      | updateFailed _ _ value y d _ present hd distinct clash =>
        exact absurd (congrArg _ (hs.eq_of_trackingNumber (Db.mem_of_get? present) hd clash)) distinct
      | updated _ _ u y _ _ sent body hu =>
        refine hfinish _ (some (u.apply y)) fun z hz => ?_
        cases hz
        have hkey : (u.apply y)._id = hexValue id := (u.apply_id y).trans (Db.id_of_get? hu.present)
        exact ⟨hkey, (body o valid).valid (hs.valid y (Db.mem_of_get? hu.present))⟩

/-- A validated query is rejected for one of its patterns only. -/
private theorem invalidPattern_of_error? {q : ListQuery} {e : JsError}
    (h : (listQuery P q.params).error? P.mongo = some e) : e = invalidPattern := by
  unfold Query.error? at h
  rw [q.datesValid] at h
  simp only [Bool.not_true, Bool.false_eq_true, ↓reduceIte] at h
  split at h
  · exact (Option.some.inj h).symm
  · cases h

private theorem documented_list (hdb : StoreInvariant db) (hw : Reachable P db w) {params : QueryParams}
    (hplan : plan P a = .ok (.list params))
    (hruns : Prog.Runs (serve P (.list params)) (w.own i) (.done response)) : Documented P a (w.own i) response := by
  obtain ⟨q, rfl⟩ := plan_list_query hplan
  obtain ⟨text, route⟩ : ∃ text, a.request.route = .getAll text := by
    cases plan_checked hplan with
    | list text _ _ route => exact ⟨text, route⟩
  obtain ⟨r₁, r₂, s₁, s₁', s₂, s₂', rest, hown, hrest⟩ := Prog.runs_both hruns
  obtain ⟨-, hfinish⟩ := Prog.runs_done hrest
  cases hfinish
  obtain ⟨hmem₁, hmem₂⟩ := Prog.mem_of_both hown
  have hskip : 0 ≤ (q.params.page - 1) * q.params.limit := q.skip_bounds.1
  have hlimit : 1 ≤ q.params.limit := q.pageSize_bounds.1
  have hsound := Interleaving.Reachable.sound hw
  have hfind : Db.Executes P.mongo P.model (.find (listQuery P q.params) q.params.sortBy q.params.order
      ((q.params.page - 1) * q.params.limit) q.params.limit) s₁ r₁ s₁' :=
    hsound.executed _ (World.mem_events (World.mem_own.1 hmem₁))
  have hcount : Db.Executes P.mongo P.model (.countDocuments (listQuery P q.params)) s₂ r₂ s₂' :=
    hsound.executed _ (World.mem_events (World.mem_own.1 hmem₂))
  have hinvariant : StoreInvariant s₁ := (Reachable.own_effect hdb hw hmem₁).1
  have hrejected : ∀ e, (listQuery P q.params).error? P.mongo = some e →
      Documented P a (w.own i) (errorHandler P.isProduction e) := by
    intro e he
    rw [invalidPattern_of_error? he]
    exact Documented.unexpected _ fun hproduction => if_pos hproduction
  rcases (executes_find hskip hfind).2 with ⟨e, he, rfl⟩ | ⟨-, o, rfl⟩
  · exact hrejected e he
  · rcases (executes_count hcount).2 with ⟨e, he, rfl⟩ | ⟨-, rfl⟩
    · exact hrejected e he
    · have hselected : ∀ x ∈ slice (o.arrange q.params.sortBy q.params.order (matching P s₁ q.params))
          ((q.params.page - 1) * q.params.limit) q.params.limit, x ∈ matching P s₁ q.params :=
        fun x hx => (o.arrange_perm _ _ _).mem_iff.1 (mem_of_mem_slice hx)
      refine Documented.listed text q.params _ _ s₁ s₁' s₂ s₂' route hplan hmem₁ hmem₂ (fun x hx => ?_) hselected ?_ rfl
      · exact hinvariant.valid x (List.mem_of_mem_filter (hselected x hx))
      · rw [length_slice _ hskip hlimit]
        omega

/-- A finished request is answered from the table. -/
theorem Reachable.documented (hdb : StoreInvariant db) (hw : Reachable P db w)
    {t : Task Command Command.Answer (Arrival P) HttpResponse} (ht : w.tasks[i]? = some t)
    (hdone : t.prog = .done response) : Documented P t.origin (w.own i) response := by
  have hruns := (Interleaving.Reachable.sound hw).runs i t ht
  rw [app_eq, hdone] at hruns
  cases hplan : plan P t.origin with
  | error e =>
    rw [hplan] at hruns
    obtain ⟨-, hresponse⟩ := Prog.runs_done hruns
    cases hresponse
    exact (plan_rejected hplan).documented
  | ok p =>
    rw [hplan] at hruns
    cases p with
    | list params => exact documented_list hdb hw hplan hruns
    | get id => exact documented_get hdb hw (plan_checked hplan) hruns
    | create data => exact documented_create hw (plan_checked hplan) hruns
    | update id data => exact documented_update hdb hw (plan_checked hplan) hruns
    | delete id => exact documented_delete hdb hw (plan_checked hplan) hruns

/-- Every response that is given in a run is one of the table, whatever requests the run interleaves, so two of the
seven codes are never given. -/
theorem responses_documented (hdb : StoreInvariant db) (hw : Reachable P db w)
    {t : Task Command Command.Answer (Arrival P) HttpResponse} (ht : w.tasks[i]? = some t)
    (hdone : t.prog = .done response) : Documented P t.origin (w.own i) response ∧
      ∀ status message code details, response = ⟨status, .error message code details⟩ →
        code ≠ .invalidId ∧ code ≠ .invalidQueryParams := by
  have hresponse := Reachable.documented hdb hw ht hdone
  refine ⟨hresponse, fun status message code details heq => ?_⟩
  rw [heq] at hresponse
  exact hresponse.code

end Run

/-- The response of a finished task. -/
def finishedResponse? (t : Task Command Command.Answer (Arrival referencePlatform) HttpResponse) :
    Option HttpResponse :=
  match t.prog with
  | .done response => some response
  | .call _ _ => none
  | .both _ _ _ => none

theorem of_finishedResponse? {t : Task Command Command.Answer (Arrival referencePlatform) HttpResponse}
    {response : HttpResponse} (h : finishedResponse? t = some response) : t.prog = .done response := by
  unfold finishedResponse? at h
  split at h
  · rename_i response' hdone
    cases h
    exact hdone
  · cases h
  · cases h

set_option maxRecDepth 4000 in
/-- The shipment of an update is deleted between its two steps. -/
theorem responses_documented_deleted : ∃ (w : ServerWorld referencePlatform)
    (t : Task Command Command.Answer (Arrival referencePlatform) HttpResponse),
    Reachable referencePlatform (sampleStore .pending) w ∧ w.tasks[0]? = some t ∧ t.prog = .done notFoundResponse ∧
      Documented referencePlatform t.origin (w.own 0) notFoundResponse ∧
        ∀ status message code details, notFoundResponse = ⟨status, .error message code details⟩ →
          code ≠ .invalidId ∧ code ≠ .invalidQueryParams := by
  obtain ⟨w, hw, hq⟩ := exists_run (sampleStore .pending) [.arrive (putStatus 1 .inTransit), .perform 0 false {},
    .arrive (deleteRequest 1), .perform 1 false {}, .perform 0 false {}] (fun w =>
      (w.tasks[0]?.bind finishedResponse?) = some notFoundResponse) (by decide)
  obtain ⟨t, ht, hresponse⟩ := Option.bind_eq_some_iff.1 (of_decide_eq_true hq)
  have hdone := of_finishedResponse? hresponse
  exact ⟨w, t, hw, ht, hdone, responses_documented storeInvariant_sample hw ht hdone⟩

end ShipmentManager
