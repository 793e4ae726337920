import ShipmentManager.Listing

/-!
# Requests in a run

A run of the server is a reachable world of interleaved requests.  Three facts about one request carry everything that
is proved of runs:

* `plan_checked` and `plan_refused`: what an accepted request has been checked for, and why a request is refused;
* `app_only`: every command that a request sends comes with data that a validator let through (`Command.Sent`);
* `runs_get`, `runs_create`, `runs_delete` and `runs_update`: how far a request can be, with its own steps so far; an
  update has two steps (`UpdateRun`).

`Reachable.effect` says everything that one event of any run can do (`Effect`): it changes nothing, or it inserts the
shipment of an accepted body, applies the update that an accepted body stands for, or deletes a shipment.
-/

namespace ShipmentManager

variable (P : Platform)

/-- An accepted request and its plan. -/
inductive Checked (a : Arrival P) : Plan → Prop where
  | list (text : Text) (query : JsObject) (params : QueryParams) (route : a.request.route = .getAll text)
      (valid : P.joi.validate listShipmentsQuerySchema (.obj (P.express.parseQuery text)) = .ok query)
      (parsed : ShipmentService.parseQueryParams P.engine (ShipmentController.rawQueryParams query) = .ok params) :
      Checked a (.list params)
  | get (raw id : Text) (route : a.request.route = .getById raw) (decoded : P.express.decodeParam raw = .ok id)
      (valid : isObjectIdText id = true) : Checked a (.get id)
  | create (o data : JsObject) (route : a.request.route = .create)
      (parsed : parseBody P a.request.body = .ok (.obj o)) (valid : CreateData a.draws o data) :
      Checked a (.create data)
  | update (raw id : Text) (o out : JsObject) (route : a.request.route = .update raw)
      (decoded : P.express.decodeParam raw = .ok id) (valid_id : isObjectIdText id = true)
      (parsed : parseBody P a.request.body = .ok (.obj o)) (valid : UpdateOutput o out) : Checked a (.update id out)
  | delete (raw id : Text) (route : a.request.route = .delete raw) (decoded : P.express.decodeParam raw = .ok id)
      (valid : isObjectIdText id = true) : Checked a (.delete id)

variable {P}

theorem validateRequest_ok {schema : ObjectSchema} {v : JsValue} {out : JsObject}
    (h : validateRequest P schema v = .ok out) : P.joi.validate schema v = .ok out := by
  unfold validateRequest at h
  split at h
  · rename_i hv
    cases h
    exact hv
  · cases h

theorem planId_ok {raw id : Text} (h : planId P raw = .ok id) :
    P.express.decodeParam raw = .ok id ∧ isObjectIdText id = true := by
  unfold planId validateParams at h
  cases hd : P.express.decodeParam raw with
  | error e =>
    rw [hd] at h
    cases h
  | ok t =>
    rw [hd] at h
    cases hv : validateRequest P shipmentIdSchema (.obj [("id", .str t)]) with
    | error e =>
      simp [Bind.bind, Except.bind, hv] at h
    | ok out =>
      obtain ⟨t', ho, hout, hid⟩ := id_output (validateRequest_ok hv)
      rw [Obj.get?_cons, if_pos rfl, Option.some.injEq, JsValue.str.injEq] at ho
      subst ho
      have : id = t := by
        simpa [Bind.bind, Except.bind, pure, Except.pure, hv, hout, P.engine.stringOf_str, eq_comm] using h
      subst this
      exact ⟨rfl, hid⟩

/-- 24 hexadecimal digits pass the validator of a path parameter. -/
theorem validateParams_hex {id : Text} (hid : isObjectIdText id = true) : validateParams P id = .ok id := by
  obtain ⟨out, hv⟩ := id_accepted (J := P.joi) hid
  obtain ⟨t, ho, hout, -⟩ := id_output hv
  rw [Obj.get?_cons, if_pos rfl, Option.some.injEq, JsValue.str.injEq] at ho
  subst ho
  have hvalid : validateRequest P shipmentIdSchema (.obj [("id", .str id)]) = .ok out := by
    unfold validateRequest
    rw [hv]
  simp [validateParams, Bind.bind, Except.bind, pure, Except.pure, hvalid, hout, P.engine.stringOf_str]

theorem planId_of_decoded {raw id : Text} (h : P.express.decodeParam raw = .ok id) (hid : isObjectIdText id = true) :
    planId P raw = .ok id := by
  unfold planId
  rw [h]
  exact validateParams_hex hid

/-- The program's own errors are client errors. -/
def JsError.Raised (e : JsError) : Prop := ∀ a, e = .apiError a → a.ClientError

theorem errorHandler_ge {b : Bool} {e : JsError} (h : e.Raised) : 400 ≤ (errorHandler b e).status :=
  normalizeError_status_ge b fun a ha => (h a ha).1

section Monad

variable {ε α β : Type}

/-- A computation that succeeds has first and second parts that succeed. -/
theorem bind_ok {x : Except ε α} {f : α → Except ε β} {b : β} (h : x >>= f = .ok b) :
    ∃ a, x = .ok a ∧ f a = .ok b := by
  cases x with
  | error e => cases h
  | ok a => exact ⟨a, rfl, h⟩

/-- A computation that fails has a first or a second part that fails. -/
theorem bind_error {x : Except ε α} {f : α → Except ε β} {e : ε} (h : x >>= f = .error e) :
    x = .error e ∨ ∃ a, x = .ok a ∧ f a = .error e := by
  cases x with
  | error e' =>
    cases h
    exact Or.inl rfl
  | ok a => exact Or.inr ⟨a, rfl, h⟩

end Monad

/-- The body parsers hand on an object or an array. -/
theorem parseBody_structured {b : P.express.Body} {v : JsValue} (h : parseBody P b = .ok v) : ∀ t, v ≠ .str t := by
  obtain ⟨parsed, hjson, h⟩ := bind_ok h
  cases parsed with
  | some v' =>
    cases h
    rcases P.express.json_strict _ _ _ hjson with ⟨o, rfl⟩ | ⟨l, rfl⟩
    · exact JsValue.obj_ne_str o
    · exact nofun
  | none =>
    obtain ⟨parsed, hurl, h⟩ := bind_ok h
    cases parsed with
    | some v' =>
      cases h
      obtain ⟨o, rfl⟩ := P.express.urlencoded_object _ _ _ hurl
      exact JsValue.obj_ne_str o
    | none =>
      cases h
      exact JsValue.obj_ne_str []

/-- What an accepted request has been checked for. -/
theorem plan_checked {a : Arrival P} {p : Plan} (h : plan P a = .ok p) : Checked P a p := by
  obtain ⟨body, hbody, h⟩ := bind_ok h
  cases hr : a.request.route with
  | getAll text =>
    rw [hr] at h
    obtain ⟨query, hq, h⟩ := bind_ok h
    obtain ⟨params, hp, h⟩ := bind_ok h
    cases h
    exact Checked.list text query params hr (validateRequest_ok hq) hp
  | getById raw =>
    rw [hr] at h
    obtain ⟨id, hid, h⟩ := bind_ok h
    obtain ⟨u, -, h⟩ := bind_ok h
    cases h
    exact Checked.get raw id hr (planId_ok hid).1 (planId_ok hid).2
  | create =>
    rw [hr] at h
    obtain ⟨out, hv, h⟩ := bind_ok h
    obtain ⟨u, -, h⟩ := bind_ok h
    cases h
    obtain ⟨o, rfl, hout⟩ := create_output (parseBody_structured hbody) (validateRequest_ok hv)
    exact Checked.create o _ hr hbody ⟨out, hout, rfl⟩
  | update raw =>
    rw [hr] at h
    obtain ⟨id, hid, h⟩ := bind_ok h
    obtain ⟨out, hv, h⟩ := bind_ok h
    obtain ⟨u, -, h⟩ := bind_ok h
    cases h
    obtain ⟨o, rfl, hout⟩ := update_output (parseBody_structured hbody) (validateRequest_ok hv)
    exact Checked.update raw id o out hr (planId_ok hid).1 (planId_ok hid).2 hbody hout
  | delete raw =>
    rw [hr] at h
    obtain ⟨id, hid, h⟩ := bind_ok h
    obtain ⟨u, -, h⟩ := bind_ok h
    cases h
    exact Checked.delete raw id hr (planId_ok hid).1 (planId_ok hid).2

/-- The plans that a route leads to. -/
inductive PlanOf : Route → Plan → Prop where
  | list (text : Text) (params : QueryParams) : PlanOf (.getAll text) (.list params)
  | get (raw id : Text) : PlanOf (.getById raw) (.get id)
  | create (data : JsObject) : PlanOf .create (.create data)
  | update (raw id : Text) (data : JsObject) : PlanOf (.update raw) (.update id data)
  | delete (raw id : Text) : PlanOf (.delete raw) (.delete id)

theorem planOf {a : Arrival P} {p : Plan} (h : plan P a = .ok p) {route : Route} (hroute : a.request.route = route) :
    PlanOf route p := by
  subst hroute
  cases plan_checked h with
  | list text query params route =>
    rw [route]
    exact PlanOf.list text params
  | get raw id route =>
    rw [route]
    exact PlanOf.get raw id
  | create o data route =>
    rw [route]
    exact PlanOf.create data
  | update raw id o data route =>
    rw [route]
    exact PlanOf.update raw id data
  | delete raw id route =>
    rw [route]
    exact PlanOf.delete raw id

/-! ### Refused requests -/

/-- The path parameter of a route. -/
def Route.id? : Route → Option Text
  | getAll _ => none
  | getById id => some id
  | create => none
  | update id => some id
  | delete id => some id

variable (P) in
/-- Why a request is refused before it sends anything. -/
inductive Refused (a : Arrival P) : JsError → Prop where
  | body (e : JsError) (h : parseBody P a.request.body = .error e) : Refused a e
  | param (raw : Text) (e : JsError) (parsed : ∃ body, parseBody P a.request.body = .ok body)
      (route : a.request.route.id? = some raw) (h : P.express.decodeParam raw = .error e) : Refused a e
  | client (e : ApiError) (h : e.ClientError) : Refused a (.apiError e)

theorem parseBody_error {b : P.express.Body} {e : JsError} (h : parseBody P b = .error e) :
    (∃ m, e = .syntaxError (some 400) m) ∨ ∃ status m, 400 ≤ status ∧ status < 500 ∧ e = .httpError status m := by
  rcases bind_error h with h | ⟨v, -, h⟩
  · exact P.express.json_error _ _ _ h
  · cases v with
    | some v => cases h
    | none =>
      rcases bind_error h with h | ⟨v, -, h⟩
      · exact Or.inr (P.express.urlencoded_error _ _ _ h)
      · cases h

theorem validateRequest_error {schema : ObjectSchema} {v : JsValue} {e : JsError}
    (h : validateRequest P schema v = .error e) : ∃ a : ApiError, e = .apiError a ∧ a.ClientError := by
  unfold validateRequest at h
  split at h
  · cases h
  · cases h
    exact ⟨_, rfl, .of_400 rfl⟩

private theorem planId_error {raw : Text} {e : JsError} (h : planId P raw = .error e) :
    P.express.decodeParam raw = .error e ∨ ∃ a : ApiError, e = .apiError a ∧ a.ClientError := by
  rcases bind_error h with h | ⟨t, -, h⟩
  · exact Or.inl h
  · rcases bind_error h with h | ⟨out, -, h⟩
    · exact Or.inr (validateRequest_error h)
    · cases h

private theorem validateObjectId_error {id : Text} {e : JsError}
    (h : ShipmentService.validateObjectId P id = .error e) : ∃ a : ApiError, e = .apiError a ∧ a.ClientError := by
  unfold ShipmentService.validateObjectId at h
  split at h
  · cases h
  · cases h
    exact ⟨_, rfl, .of_400 rfl⟩

private theorem checkStatus_error {v : Option JsValue} {e : JsError} (h : ShipmentService.checkStatus P v = .error e) :
    ∃ a : ApiError, e = .apiError a ∧ a.ClientError := by
  unfold ShipmentService.checkStatus at h
  split at h
  · split at h
    · cases h
      exact ⟨_, rfl, .of_400 rfl⟩
    · cases h
  · cases h

theorem checkTransition_raised {current : Text} {v : Option JsValue} {e : JsError}
    (h : ShipmentService.checkTransition P current v = .error e) : e.Raised := by
  intro a ha
  subst ha
  unfold ShipmentService.checkTransition at h
  split at h
  · split at h
    · unfold ShipmentService.validateStatusTransition at h
      split at h
      · cases h
      · cases h
      · cases h
        exact .of_400 rfl
    · cases h
  · cases h

/-- Why a request is refused: the body or the path could not be read, or a check of the program failed. -/
theorem plan_refused {a : Arrival P} {e : JsError} (h : plan P a = .error e) : Refused P a e := by
  have client : (∃ a : ApiError, e = .apiError a ∧ a.ClientError) → Refused P a e := by
    rintro ⟨x, rfl, hx⟩
    exact Refused.client x hx
  rcases bind_error h with hb | ⟨body, hbody, h⟩
  · exact Refused.body e hb
  have param : ∀ raw, a.request.route.id? = some raw → planId P raw = .error e → Refused P a e := by
    intro raw hroute hid
    rcases planId_error hid with hd | hc
    · exact Refused.param raw e ⟨body, hbody⟩ hroute hd
    · exact client hc
  cases hr : a.request.route with
  | getAll text =>
    rw [hr] at h
    rcases bind_error h with h | ⟨query, hq, h⟩
    · exact client (validateRequest_error h)
    -- the service accepts every query that the validator accepts
    · obtain ⟨-, hrange, hreads⟩ := list_output (validateRequest_ok hq)
      rw [parseQueryParams_reads P.engine hreads] at h
      cases h
  | getById raw =>
    rw [hr] at h
    rcases bind_error h with h | ⟨id, -, h⟩
    · exact param raw (by rw [hr]; rfl) h
    · rcases bind_error h with h | ⟨u, -, h⟩
      · exact client (validateObjectId_error h)
      · cases h
  | create =>
    rw [hr] at h
    rcases bind_error h with h | ⟨out, -, h⟩
    · exact client (validateRequest_error h)
    · rcases bind_error h with h | ⟨u, -, h⟩
      · exact client (checkStatus_error h)
      · cases h
  | update raw =>
    rw [hr] at h
    rcases bind_error h with h | ⟨id, -, h⟩
    · exact param raw (by rw [hr]; rfl) h
    · rcases bind_error h with h | ⟨out, -, h⟩
      · exact client (validateRequest_error h)
      · rcases bind_error h with h | ⟨u, -, h⟩
        · exact client (validateObjectId_error h)
        · cases h
  | delete raw =>
    rw [hr] at h
    rcases bind_error h with h | ⟨id, -, h⟩
    · exact param raw (by rw [hr]; rfl) h
    · rcases bind_error h with h | ⟨u, -, h⟩
      · exact client (validateObjectId_error h)
      · cases h

/-- A refused request is answered with an error status. -/
theorem Refused.raised {a : Arrival P} {e : JsError} (h : Refused P a e) : e.Raised := by
  intro x hx
  subst hx
  cases h with
  | body _ h =>
    rcases parseBody_error h with ⟨m, hm⟩ | ⟨s, m, -, -, hm⟩
    · cases hm
    · cases hm
  | param raw _ _ _ h =>
    obtain ⟨m, hm⟩ := P.express.decodeParam_error _ _ h
    cases hm
  | client _ h => exact h

/-! ### The commands of a request -/

/-- The commands that requests send: an identifier is a hexadecimal text, and data is what a validator let through. -/
inductive Command.Sent : Command → Prop where
  | findById (id : Text) (hid : isObjectIdText id = true) : Sent (.findById id)
  | find (query : Query) (sortBy : Text) (order : SortOrder) (skip limit : Int) :
      Sent (.find query sortBy order skip limit)
  | countDocuments (query : Query) : Sent (.countDocuments query)
  | save (data : JsObject) (h : ∃ draws o, CreateData draws o data) : Sent (.save data)
  | update (id : Text) (data : JsObject) (hid : isObjectIdText id = true) (h : ∃ o, UpdateOutput o data) :
      Sent (.findByIdAndUpdate id data)
  | delete (id : Text) (hid : isObjectIdText id = true) : Sent (.findByIdAndDelete id)

private theorem serve_only {a : Arrival P} {p : Plan} (h : Checked P a p) : (serve P p).Only Command.Sent := by
  cases h with
  | list text query params route valid parsed =>
    exact ⟨Command.Sent.find _ _ _ _ _, Command.Sent.countDocuments _, fun _ _ => trivial⟩
  | get raw id route decoded valid => exact ⟨Command.Sent.findById id valid, fun _ => trivial⟩
  | create o data route parsed valid => exact ⟨Command.Sent.save data ⟨_, o, valid⟩, fun _ => trivial⟩
  | update raw id o out route decoded valid_id parsed valid =>
    refine ⟨Command.Sent.findById id valid_id, fun r => ?_⟩
    rcases r with e | _ | existing
    · trivial
    · trivial
    · show (serveWrite P id out existing).Only Command.Sent
      unfold serveWrite
      split
      · trivial
      · exact ⟨Command.Sent.update id out valid_id ⟨o, valid⟩, fun _ => trivial⟩
  | delete raw id route decoded valid => exact ⟨Command.Sent.delete id valid, fun _ => trivial⟩

/-- Every command that a request sends comes with data that a validator let through. -/
theorem app_only (a : Arrival P) : (app P a).Only Command.Sent := by
  rw [app_eq]
  cases hp : plan P a with
  | error e => trivial
  | ok p => exact serve_only (plan_checked hp)

/-- Everything that one step of a request can do: its command, the answer, and the store before and after. -/
inductive Effect : (c : Command) → c.Answer → Db → Db → Prop where
  | found (id : Text) (db : Db) : Effect (.findById id) (.ok (db.get? (hexValue id))) db db
  | listed (query : Query) (sortBy : Text) (order : SortOrder) (skip limit : Int)
      (r : (Command.find query sortBy order skip limit).Answer) (db : Db) :
      Effect (.find query sortBy order skip limit) r db db
  | counted (query : Query) (r : (Command.countDocuments query).Answer) (db : Db) :
      Effect (.countDocuments query) r db db
  | insertFailed (data : JsObject) (field : String) (value : Text) (db : Db) :
      Effect (.save data) (.error (duplicateKey field value)) db db
  | inserted (data : JsObject) (s : Shipment) (db db' : Db) (fresh : s._id ∉ db.issued)
      (times : s.createdAt = s.updatedAt) (sent : ∃ draws o, CreateData draws o data)
      (body : ∀ draws o, CreateData draws o data → FromBody draws o s) (h : Db.Inserted db s db') :
      Effect (.save data) (.ok s) db db'
  | updateMissing (id : Text) (data : JsObject) (db : Db) (absent : db.get? (hexValue id) = none) :
      Effect (.findByIdAndUpdate id data) (.ok none) db db
  | updateFailed (id : Text) (data : JsObject) (value : Text) (s d : Shipment) (db : Db)
      (present : db.get? (hexValue id) = some s) (hd : d ∈ db.docs) (distinct : d._id ≠ s._id)
      (clash : d.trackingNumber = s.trackingNumber) :
      Effect (.findByIdAndUpdate id data) (.error (duplicateKey "trackingNumber" value)) db db
  | updated (id : Text) (data : JsObject) (u : Update) (s : Shipment) (db db' : Db) (sent : ∃ o, UpdateOutput o data)
      (body : ∀ o, UpdateOutput o data → BodyUpdate o u) (h : Db.Updated db (hexValue id) u s db') :
      Effect (.findByIdAndUpdate id data) (.ok (some (u.apply s))) db db'
  | deleteMissing (id : Text) (db : Db) (absent : db.get? (hexValue id) = none) :
      Effect (.findByIdAndDelete id) (.ok none) db db
  | deleted (id : Text) (s : Shipment) (db db' : Db) (h : Db.Deleted db (hexValue id) s db') :
      Effect (.findByIdAndDelete id) (.ok (some s)) db db'

theorem Command.Sent.effect {M : Mongo} {model : ShipmentModel} {c : Command} (hs : c.Sent) {db db' : Db}
    {r : c.Answer} (hx : Db.Executes M model c db r db') : Effect c r db db' := by
  cases hs with
  | findById id hid =>
    obtain ⟨rfl, rfl⟩ := executes_findById hid hx
    exact Effect.found id db'
  | find query sortBy order skip limit =>
    have hdb := executes_read rfl hx
    subst hdb
    exact Effect.listed _ _ _ _ _ r db'
  | countDocuments query =>
    have hdb := executes_read rfl hx
    subst hdb
    exact Effect.counted _ r db'
  | save data h =>
    rcases executes_save h hx with ⟨field, value, rfl, rfl⟩ | ⟨s, rfl, hfresh, ht, hb, hi⟩
    · exact Effect.insertFailed data field value db'
    · exact Effect.inserted data s db db' hfresh ht h hb hi
  | update id data hid h =>
    rcases executes_update hid h hx with ⟨rfl, ha, rfl⟩ | ⟨s, d, value, hs, hd, hne, he, rfl, rfl⟩ | ⟨u, s, hb, rfl, hu⟩
    · exact Effect.updateMissing id data db' ha
    · exact Effect.updateFailed id data value s d db' hs hd hne he
    · exact Effect.updated id data u s db db' h hb hu
  | delete id hid =>
    rcases executes_delete hid hx with ⟨rfl, ha, rfl⟩ | ⟨s, rfl, hd⟩
    · exact Effect.deleteMissing id db' ha
    · exact Effect.deleted id s db db' hd

/-! ### Events of a run -/

section Reachable

variable {db : Db} {w : ServerWorld P}

theorem Reachable.sent (hw : Reachable P db w) {e : DbEvent} (he : e ∈ w.events) : e.cmd.Sent := by
  obtain ⟨⟨i, e⟩, hmem, rfl⟩ := List.mem_map.1 he
  obtain ⟨t, -, hruns, hown⟩ := Interleaving.Reachable.task_of_mem hw hmem
  exact (app_only t.origin).runs hruns e hown

/-- What one event of a run does to the store. -/
theorem Reachable.effect (hw : Reachable P db w) {e : DbEvent} (he : e ∈ w.events) :
    Effect e.cmd e.answer e.before e.after :=
  (Reachable.sent hw he).effect ((Interleaving.Reachable.sound hw).executed e he)

end Reachable

/-! ### The steps of one request -/

theorem runs_get {id : Text} {es : List DbEvent} {p : Prog Command Command.Answer HttpResponse}
    (h : Prog.Runs (serve P (.get id)) es p) :
    (es = [] ∧ p = serve P (.get id)) ∨ ∃ r db db', es = [⟨.findById id, r, db, db'⟩] ∧
      p = .done (finish P 200 "Shipment retrieved successfully" r) :=
  Prog.runs_call_done h

theorem runs_create {data : JsObject} {es : List DbEvent} {p : Prog Command Command.Answer HttpResponse}
    (h : Prog.Runs (serve P (.create data)) es p) :
    (es = [] ∧ p = serve P (.create data)) ∨ ∃ r db db', es = [⟨.save data, r, db, db'⟩] ∧
      p = .done (finishCreate P r) :=
  Prog.runs_call_done h

theorem runs_delete {id : Text} {es : List DbEvent} {p : Prog Command Command.Answer HttpResponse}
    (h : Prog.Runs (serve P (.delete id)) es p) :
    (es = [] ∧ p = serve P (.delete id)) ∨ ∃ r db db', es = [⟨.findByIdAndDelete id, r, db, db'⟩] ∧
      p = .done (finish P 200 "Shipment deleted successfully" r) :=
  Prog.runs_call_done h

variable (P) in
/-- How far an update is: its own steps so far, and the rest of its program. -/
inductive UpdateRun (id : Text) (data : JsObject) : List DbEvent → Prog Command Command.Answer HttpResponse → Prop where
  | started : UpdateRun id data [] (serve P (.update id data))
  | failed (e : JsError) (db db' : Db) : UpdateRun id data [⟨.findById id, .error e, db, db'⟩] (refuse P e)
  | missing (db db' : Db) :
      UpdateRun id data [⟨.findById id, .ok none, db, db'⟩] (refuse P ShipmentService.notFound)
  | read (existing : Shipment) (db db' : Db) :
      UpdateRun id data [⟨.findById id, .ok (some existing), db, db'⟩] (serveWrite P id data existing)
  | written (existing : Shipment) (db₁ db₁' db₂ db₂' : Db) (r : (Command.findByIdAndUpdate id data).Answer)
      (h : ShipmentService.checkTransition P existing.status (Obj.get? data "status") = .ok ()) :
      UpdateRun id data [⟨.findById id, .ok (some existing), db₁, db₁'⟩, ⟨.findByIdAndUpdate id data, r, db₂, db₂'⟩]
        (.done (finish P 200 "Shipment updated successfully" r))

theorem runs_update {id : Text} {data : JsObject} {es : List DbEvent} {p : Prog Command Command.Answer HttpResponse}
    (h : Prog.Runs (serve P (.update id data)) es p) : UpdateRun P id data es p := by
  rcases Prog.runs_call h with ⟨rfl, rfl⟩ | ⟨r, db, db', rest, rfl, hrest⟩
  · exact UpdateRun.started
  rcases r with e | _ | existing
  · change Prog.Runs (refuse P e) rest p at hrest
    obtain ⟨rfl, rfl⟩ := Prog.runs_done hrest
    exact UpdateRun.failed e db db'
  · change Prog.Runs (refuse P ShipmentService.notFound) rest p at hrest
    obtain ⟨rfl, rfl⟩ := Prog.runs_done hrest
    exact UpdateRun.missing db db'
  · change Prog.Runs (serveWrite P id data existing) rest p at hrest
    have hread : UpdateRun P id data [⟨.findById id, .ok (some existing), db, db'⟩] (serveWrite P id data existing) :=
      UpdateRun.read existing db db'
    unfold serveWrite at hrest hread
    split at hrest
    · rename_i e hc
      obtain ⟨rfl, rfl⟩ := Prog.runs_done hrest
      rw [hc] at hread
      exact hread
    · rename_i hc
      rcases Prog.runs_call hrest with ⟨rfl, rfl⟩ | ⟨r, db₂, db₂', rest', rfl, hend⟩
      · rw [hc] at hread
        exact hread
      · obtain ⟨rfl, rfl⟩ := Prog.runs_done hend
        exact UpdateRun.written existing db db' db₂ db₂' r hc

variable (P) in
/-- A step of a request by its plan: the command, the answer, and where it leaves the request. -/
inductive OwnStep : Plan → (c : Command) → c.Answer → Prog Command Command.Answer HttpResponse → Prop where
  | find (params : QueryParams) (query : Query) (sortBy : Text) (order : SortOrder) (skip limit : Int)
      (r : (Command.find query sortBy order skip limit).Answer) (q : Prog Command Command.Answer HttpResponse) :
      OwnStep (.list params) (.find query sortBy order skip limit) r q
  | count (params : QueryParams) (query : Query) (r : (Command.countDocuments query).Answer)
      (q : Prog Command Command.Answer HttpResponse) : OwnStep (.list params) (.countDocuments query) r q
  | get (id : Text) (r : (Command.findById id).Answer) :
      OwnStep (.get id) (.findById id) r (.done (finish P 200 "Shipment retrieved successfully" r))
  | create (data : JsObject) (r : (Command.save data).Answer) :
      OwnStep (.create data) (.save data) r (.done (finishCreate P r))
  | readFailed (id : Text) (data : JsObject) (e : JsError) :
      OwnStep (.update id data) (.findById id) (.error e) (refuse P e)
  | readMissing (id : Text) (data : JsObject) :
      OwnStep (.update id data) (.findById id) (.ok none) (refuse P ShipmentService.notFound)
  | readFound (id : Text) (data : JsObject) (existing : Shipment) (q : Prog Command Command.Answer HttpResponse) :
      OwnStep (.update id data) (.findById id) (.ok (some existing)) q
  | write (id : Text) (data : JsObject) (r : (Command.findByIdAndUpdate id data).Answer) :
      OwnStep (.update id data) (.findByIdAndUpdate id data) r
        (.done (finish P 200 "Shipment updated successfully" r))
  | delete (id : Text) (r : (Command.findByIdAndDelete id).Answer) :
      OwnStep (.delete id) (.findByIdAndDelete id) r (.done (finish P 200 "Shipment deleted successfully" r))

/-- Every step of a request is one that its plan has. -/
theorem own_step {p : Plan} {es : List DbEvent} {q : Prog Command Command.Answer HttpResponse}
    (h : Prog.Runs (serve P p) es q) {c : Command} {r : c.Answer} {db db' : Db}
    (he : (⟨c, r, db, db'⟩ : DbEvent) ∈ es) : OwnStep P p c r q := by
  cases p with
  | list params =>
    have honly : (serve P (.list params)).Only fun c => (∃ query sortBy order skip limit,
        c = .find query sortBy order skip limit) ∨ ∃ query, c = .countDocuments query :=
      ⟨Or.inl ⟨_, _, _, _, _, rfl⟩, Or.inr ⟨_, rfl⟩, fun _ _ => trivial⟩
    have hc := honly.runs h _ he
    simp only at hc
    rcases hc with ⟨query, sortBy, order, skip, limit, rfl⟩ | ⟨query, rfl⟩
    · exact OwnStep.find params query sortBy order skip limit r q
    · exact OwnStep.count params query r q
  | get id =>
    rcases runs_get h with ⟨rfl, -⟩ | ⟨r', s, s', rfl, rfl⟩
    · cases he
    · rw [List.mem_singleton] at he
      cases he
      exact OwnStep.get id r'
  | create data =>
    rcases runs_create h with ⟨rfl, -⟩ | ⟨r', s, s', rfl, rfl⟩
    · cases he
    · rw [List.mem_singleton] at he
      cases he
      exact OwnStep.create data r'
  | update id data =>
    cases runs_update h with
    | started => cases he
    | failed e s s' =>
      rw [List.mem_singleton] at he
      cases he
      exact OwnStep.readFailed id data e
    | missing s s' =>
      rw [List.mem_singleton] at he
      cases he
      exact OwnStep.readMissing id data
    | read existing s s' =>
      rw [List.mem_singleton] at he
      cases he
      exact OwnStep.readFound id data existing _
    | written existing s s' t t' r' hok =>
      rcases List.mem_cons.1 he with he | he
      · cases he
        exact OwnStep.readFound id data existing _
      · rw [List.mem_singleton] at he
        cases he
        exact OwnStep.write id data r'
  | delete id =>
    rcases runs_delete h with ⟨rfl, -⟩ | ⟨r', s, s', rfl, rfl⟩
    · cases he
    · rw [List.mem_singleton] at he
      cases he
      exact OwnStep.delete id r'

/-- The task of an event in a run: its plan, what it has been checked for, and the step that the event is. -/
theorem Reachable.task_step {db : Db} {w : ServerWorld P} (hw : Reachable P db w) {i : Nat} {c : Command}
    {r : c.Answer} {s s' : Db} (he : (i, (⟨c, r, s, s'⟩ : DbEvent)) ∈ w.log) :
    ∃ t p, w.tasks[i]? = some t ∧ plan P t.origin = .ok p ∧ Checked P t.origin p ∧
      Prog.Runs (serve P p) (w.own i) t.prog ∧ OwnStep P p c r t.prog := by
  obtain ⟨t, ht, hruns, hown⟩ := Interleaving.Reachable.task_of_mem hw he
  rw [app_eq] at hruns
  cases hp : plan P t.origin with
  -- a refused request sends nothing, so it has no event
  | error e =>
    rw [hp] at hruns
    obtain ⟨hnil, -⟩ := Prog.runs_done hruns
    rw [hnil] at hown
    cases hown
  | ok p =>
    rw [hp] at hruns
    exact ⟨t, p, ht, hp, plan_checked hp, hruns, own_step hruns hown⟩

end ShipmentManager
