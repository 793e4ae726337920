import ShipmentManager.Routes

/-!
# What a request asks of the database

Everything a request does before its first command is a function of the request alone (`plan`): it is refused with an
error, or it becomes one of five plans.  `serve` is the program of a plan, one command after the other; `app_eq` says
that the program of a request is the program of its plan.
-/

namespace ShipmentManager

/-- What is left of an accepted request. -/
inductive Plan where
  | list (params : QueryParams)
  | get (id : Text)
  | create (data : JsObject)
  | update (id : Text) (data : JsObject)
  | delete (id : Text)

variable (P : Platform)

/-- The data of a validated body as it is saved. -/
def saveData (draws : Draws) (body : JsObject) : JsObject :=
  Obj.set (Obj.set body "status" (orElse (Obj.get? body "status") (.str ShipmentStatus.pending.value)))
    "trackingNumber" (.str (generateTrackingNumber draws.today draws.random))

/-- The checks of a path parameter: the router, the validator and the service. -/
def planId (id : Text) : Except JsError Text := do
  let id ← P.express.decodeParam id
  validateParams P id

def planRoute (draws : Draws) (body : JsValue) : Route → Except JsError Plan
  | .getAll query => do
    let query ← validateRequest P listShipmentsQuerySchema (.obj (P.express.parseQuery query))
    let params ← ShipmentService.parseQueryParams P.engine (ShipmentController.rawQueryParams query)
    return .list params
  | .getById id => do
    let id ← planId P id
    ShipmentService.validateObjectId P id
    return .get id
  | .create => do
    let body ← validateRequest P createShipmentSchema body
    ShipmentService.checkStatus P (Obj.get? body "status")
    return .create (saveData draws body)
  | .update id => do
    let id ← planId P id
    let body ← validateRequest P updateShipmentSchema body
    ShipmentService.validateObjectId P id
    return .update id body
  | .delete id => do
    let id ← planId P id
    ShipmentService.validateObjectId P id
    return .delete id

def plan (a : Arrival P) : Except JsError Plan := do
  let body ← parseBody P a.request.body
  planRoute P a.draws body a.request.route

def refuse (e : JsError) : Prog Command Command.Answer HttpResponse := .done (errorHandler P.isProduction e)

/-- The response to one shipment. -/
def answer (status : Nat) (message : String) (s : Shipment) : HttpResponse :=
  ⟨status, .shipment (js message) (ShipmentService.toResponse s)⟩

/-- The end of a request that looked for one shipment. -/
def finish (status : Nat) (message : String) (r : Except JsError (Option Shipment)) : HttpResponse :=
  match r with
  | .error e => errorHandler P.isProduction e
  | .ok none => errorHandler P.isProduction ShipmentService.notFound
  | .ok (some s) => answer status message s

/-- The end of a creation. -/
def finishCreate (r : Except JsError Shipment) : HttpResponse :=
  match r with
  | .error e => errorHandler P.isProduction e
  | .ok s => answer 201 "Shipment created successfully" s

/-- The end of a listing. -/
def finishList (params : QueryParams) (shipments : Except JsError (List Shipment)) (total : Except JsError Int) :
    HttpResponse :=
  match shipments, total with
  | .error e, _ => errorHandler P.isProduction e
  | .ok _, .error e => errorHandler P.isProduction e
  | .ok l, .ok n =>
    ⟨200, .shipments (js "Shipments retrieved successfully") (l.map ShipmentService.toResponse)
      (ShipmentRepository.paginationOf params.page params.limit n)⟩

/-- The second half of an update, when its read found a shipment. -/
def serveWrite (id : Text) (data : JsObject) (existing : Shipment) : Prog Command Command.Answer HttpResponse :=
  match ShipmentService.checkTransition P existing.status (Obj.get? data "status") with
  | .error e => refuse P e
  | .ok () =>
    .call (.findByIdAndUpdate id data) fun r => .done (finish P 200 "Shipment updated successfully" r)

def serve : Plan → Prog Command Command.Answer HttpResponse
  | .list params =>
    let query := ShipmentRepository.buildQuery P.engine params.filters
    .both (.find query params.sortBy params.order ((params.page - 1) * params.limit) params.limit)
      (.countDocuments query) fun shipments total => .done (finishList P params shipments total)
  | .get id => .call (.findById id) fun r => .done (finish P 200 "Shipment retrieved successfully" r)
  | .create data => .call (.save data) fun r => .done (finishCreate P r)
  | .update id data =>
    .call (.findById id) fun r =>
      match r with
      | .error e => refuse P e
      | .ok none => refuse P ShipmentService.notFound
      | .ok (some existing) => serveWrite P id data existing
  | .delete id => .call (.findByIdAndDelete id) fun r => .done (finish P 200 "Shipment deleted successfully" r)

def servePlan (r : Except JsError Plan) : Prog Command Command.Answer HttpResponse :=
  match r with
  | .error e => refuse P e
  | .ok p => serve P p

/-- The response to the result of a program. -/
def responded (p : Async HttpResponse) : Prog Command Command.Answer HttpResponse :=
  p.run >>= fun r => Prog.done (respond P r)

private theorem getAll_eq (query : JsObject) :
    responded P (ShipmentController.getAll P query) =
      servePlan P (.list <$> ShipmentService.parseQueryParams P.engine (ShipmentController.rawQueryParams query)) := by
  unfold ShipmentController.getAll ShipmentService.listShipments
  cases ShipmentService.parseQueryParams P.engine (ShipmentController.rawQueryParams query) with
  | error e => rfl
  | ok params =>
    show Prog.both _ _ _ = Prog.both _ _ _
    congr 1
    funext r₁ r₂
    rcases r₁ with e | l
    · rfl
    · rcases r₂ with e | n <;> rfl

private theorem getById_eq (id : Text) :
    responded P (ShipmentController.getById P id) =
      servePlan P ((fun _ => .get id) <$> ShipmentService.validateObjectId P id) := by
  unfold ShipmentController.getById ShipmentService.getShipmentById
  cases ShipmentService.validateObjectId P id with
  | error e => rfl
  | ok u =>
    show Prog.call _ _ = Prog.call _ _
    congr 1
    funext r
    rcases r with e | _ | s <;> rfl

private theorem create_eq (draws : Draws) (body : JsObject) :
    responded P (ShipmentController.create P draws body) =
      servePlan P ((fun _ => .create (saveData draws body)) <$>
        ShipmentService.checkStatus P (Obj.get? body "status")) := by
  unfold ShipmentController.create ShipmentService.createShipment
  cases ShipmentService.checkStatus P (Obj.get? body "status") with
  | error e => rfl
  | ok u =>
    show Prog.call _ _ = Prog.call _ _
    congr 1
    funext r
    rcases r with e | s <;> rfl

private theorem update_eq (id : Text) (body : JsObject) :
    responded P (ShipmentController.update P id body) =
      servePlan P ((fun _ => .update id body) <$> ShipmentService.validateObjectId P id) := by
  unfold ShipmentController.update ShipmentService.updateShipment
  cases ShipmentService.validateObjectId P id with
  | error e => rfl
  | ok u =>
    show Prog.call _ _ = Prog.call _ _
    congr 1
    funext r
    rcases r with e | _ | existing
    · rfl
    · rfl
    · show responded P (ExceptT.bind (ExceptT.bind
        (liftM (ShipmentService.checkTransition P existing.status (Obj.get? body "status"))) _) _) = _
      show _ = serveWrite P id body existing
      unfold serveWrite
      cases ShipmentService.checkTransition P existing.status (Obj.get? body "status") with
      | error e => rfl
      | ok u =>
        show Prog.call _ _ = Prog.call _ _
        congr 1
        funext r
        rcases r with e | _ | s <;> rfl

private theorem delete_eq (id : Text) :
    responded P (ShipmentController.delete P id) =
      servePlan P ((fun _ => .delete id) <$> ShipmentService.validateObjectId P id) := by
  unfold ShipmentController.delete ShipmentService.deleteShipment
  cases ShipmentService.validateObjectId P id with
  | error e => rfl
  | ok u =>
    show Prog.call _ _ = Prog.call _ _
    congr 1
    funext r
    rcases r with e | _ | s <;> rfl

/-- The program of a request is the program of its plan. -/
theorem app_eq (a : Arrival P) : app P a = servePlan P (plan P a) := by
  unfold app plan
  cases parseBody P a.request.body with
  | error e => rfl
  | ok body =>
    show responded P (shipmentRoutes P a.draws body a.request.route) =
      servePlan P (planRoute P a.draws body a.request.route)
    cases a.request.route with
    | getAll query =>
      rw [shipmentRoutes, planRoute]
      cases validateRequest P listShipmentsQuerySchema (.obj (P.express.parseQuery query)) with
      | error e => rfl
      | ok q => exact getAll_eq P q
    | getById id =>
      rw [shipmentRoutes, planRoute, planId]
      cases P.express.decodeParam id with
      | error e => rfl
      | ok id =>
        show responded P (liftM (validateParams P id) >>= fun id => ShipmentController.getById P id) =
          servePlan P (validateParams P id >>= fun id =>
            ShipmentService.validateObjectId P id >>= fun _ => pure (.get id))
        cases validateParams P id with
        | error e => rfl
        | ok id => exact getById_eq P id
    | create =>
      rw [shipmentRoutes, planRoute]
      cases validateRequest P createShipmentSchema body with
      | error e => rfl
      | ok out => exact create_eq P a.draws out
    | update id =>
      rw [shipmentRoutes, planRoute, planId]
      cases P.express.decodeParam id with
      | error e => rfl
      | ok id =>
        show responded P (liftM (validateParams P id) >>= fun id =>
            liftM (validateRequest P updateShipmentSchema body) >>= fun out => ShipmentController.update P id out) =
          servePlan P (validateParams P id >>= fun id => validateRequest P updateShipmentSchema body >>= fun out =>
            ShipmentService.validateObjectId P id >>= fun _ => pure (.update id out))
        cases validateParams P id with
        | error e => rfl
        | ok id =>
          cases validateRequest P updateShipmentSchema body with
          | error e => rfl
          | ok out => exact update_eq P id out
    | delete id =>
      rw [shipmentRoutes, planRoute, planId]
      cases P.express.decodeParam id with
      | error e => rfl
      | ok id =>
        show responded P (liftM (validateParams P id) >>= fun id => ShipmentController.delete P id) =
          servePlan P (validateParams P id >>= fun id =>
            ShipmentService.validateObjectId P id >>= fun _ => pure (.delete id))
        cases validateParams P id with
        | error e => rfl
        | ok id => exact delete_eq P id

end ShipmentManager
