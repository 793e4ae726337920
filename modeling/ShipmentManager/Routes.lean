import ShipmentManager.Lib.Interleaving
import ShipmentManager.Service

/-!
# From a request to its response

The middleware chain of the shipment endpoints: the body parsers of `createApp`, the router, `validateRequest`, the
controllers, and the error handler that every error ends in.  `app` is the program that serves one request, and
`Reachable` says what the server can reach with any number of requests at once.
-/

namespace ShipmentManager

/-- The five routes, with the path parameter or the query string as they arrive. -/
inductive Route where
  | getAll (query : Text)
  | getById (id : Text)
  | create
  | update (id : Text)
  | delete (id : Text)

structure HttpRequest (X : Express) where
  route : Route
  body : X.Body

variable (P : Platform)

def stripQuotes (t : Text) : Text := t.filter fun u => u ≠ 34 && u ≠ 39

/-- `validateRequest`: the validated value replaces the original one. -/
def validateRequest (schema : ObjectSchema) (dataToValidate : JsValue) : Except JsError JsObject :=
  match P.joi.validate schema dataToValidate with
  | .ok value => .ok value
  | .error ds =>
    let details := ds.map fun d => (⟨some ((js ".").intercalate (d.path.map js)), stripQuotes d.message⟩ : ErrorDetail)
    .error (.apiError (.badRequest (js "Validation failed: " ++ (js ", ").intercalate (details.map ErrorDetail.message))
      (some details)))

/-- `validateParams(shipmentIdSchema)` -/
def validateParams (id : Text) : Except JsError Text := do
  let params ← validateRequest P shipmentIdSchema (.obj [("id", .str id)])
  return ((Obj.get? params "id").map P.engine.stringOf).getD (js "undefined")

namespace ShipmentController

def create (draws : Draws) (body : JsObject) : Async HttpResponse := do
  let shipment ← ShipmentService.createShipment P draws body
  return ⟨201, .shipment (js "Shipment created successfully") shipment⟩

/-- The query parameters that `getAll` reads. -/
def rawQueryParams (query : JsObject) : RawQueryParams where
  page := Obj.get? query "page"
  limit := Obj.get? query "limit"
  sortBy := Obj.get? query "sortBy"
  order := Obj.get? query "order"
  status := Obj.get? query "status"
  origin := Obj.get? query "origin"
  destination := Obj.get? query "destination"
  search := Obj.get? query "search"
  startDate := Obj.get? query "startDate"
  endDate := Obj.get? query "endDate"

def getAll (query : JsObject) : Async HttpResponse := do
  let result ← ShipmentService.listShipments P (rawQueryParams query)
  return ⟨200, .shipments (js "Shipments retrieved successfully") result.data result.pagination⟩

def getById (id : Text) : Async HttpResponse := do
  let shipment ← ShipmentService.getShipmentById P id
  return ⟨200, .shipment (js "Shipment retrieved successfully") shipment⟩

def update (id : Text) (body : JsObject) : Async HttpResponse := do
  let shipment ← ShipmentService.updateShipment P id body
  return ⟨200, .shipment (js "Shipment updated successfully") shipment⟩

def delete (id : Text) : Async HttpResponse := do
  let shipment ← ShipmentService.deleteShipment P id
  return ⟨200, .shipment (js "Shipment deleted successfully") shipment⟩

end ShipmentController

/-- The body parsers: JSON first, then URL-encoded; a request without a body of either type has an empty one. -/
def parseBody (body : P.express.Body) : Except JsError JsValue := do
  match ← P.express.json "10kb" body with
  | some v => return v
  | none => return (← P.express.urlencoded "10kb" body).getD (.obj [])

/-- The five routes of `shipmentRoutes`. -/
def shipmentRoutes (draws : Draws) (body : JsValue) : Route → Async HttpResponse
  | .getAll query => do
    let query ← validateRequest P listShipmentsQuerySchema (.obj (P.express.parseQuery query))
    ShipmentController.getAll P query
  | .getById id => do
    let id ← validateParams P (← P.express.decodeParam id)
    ShipmentController.getById P id
  | .create => do
    let body ← validateRequest P createShipmentSchema body
    ShipmentController.create P draws body
  | .update id => do
    let id ← validateParams P (← P.express.decodeParam id)
    let body ← validateRequest P updateShipmentSchema body
    ShipmentController.update P id body
  | .delete id => do
    let id ← validateParams P (← P.express.decodeParam id)
    ShipmentController.delete P id

/-- The response to a result: an error goes to the error handler. -/
def respond (r : Except JsError HttpResponse) : HttpResponse :=
  match r with
  | .ok response => response
  | .error e => errorHandler P.isProduction e

/-- A request with what it draws from its surroundings. -/
structure Arrival where
  request : HttpRequest P.express
  draws : Draws

/-- The program that serves a request. -/
def app (a : Arrival P) : Prog Command Command.Answer HttpResponse :=
  (do
    let body ← parseBody P a.request.body
    shipmentRoutes P a.draws body a.request.route : Async HttpResponse).run >>= fun r => Prog.done (respond P r)

/-- A run of the server: the store, the requests so far, and the events so far. -/
abbrev ServerWorld := Interleaving.World Command Command.Answer Db (Arrival P) HttpResponse

/-- The worlds that the server can reach from a store, with any number of requests of any kind. -/
abbrev Reachable (db : Db) (w : ServerWorld P) : Prop :=
  Interleaving.Reachable (Db.Executes P.mongo P.model) (app P) db w

end ShipmentManager
