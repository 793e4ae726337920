import ShipmentManager.Repository

/-!
# The service

The functions of `ShipmentService`, with the status transition check of `utils/statusTransition.ts`.  Values that a
validator would have rejected are treated as the source treats them: a method that a value does not have raises a
`TypeError`.
-/

namespace ShipmentManager

/-- Whether a status may change; `none` when the current status has no entry, and the source raises a `TypeError`. -/
def isValidStatusTransition (currentStatus : Text) (newStatus : JsValue) : Option Bool :=
  if newStatus.isText currentStatus then some true
  else (transitionsOf? currentStatus).map fun allowedTransitions => allowedTransitions.any newStatus.isText

def getAllowedTransitions (currentStatus : Text) : Option (List Text) := transitionsOf? currentStatus

/-- `RawQueryParams`, as the controller reads them from the validated query. -/
structure RawQueryParams where
  page : Option JsValue
  limit : Option JsValue
  sortBy : Option JsValue
  order : Option JsValue
  status : Option JsValue
  origin : Option JsValue
  destination : Option JsValue
  search : Option JsValue
  startDate : Option JsValue
  endDate : Option JsValue

namespace ShipmentService

def toResponse (shipment : Shipment) : ShipmentResponse where
  id := objectIdToText shipment._id
  trackingNumber := shipment.trackingNumber
  senderName := shipment.senderName
  receiverName := shipment.receiverName
  origin := shipment.origin
  destination := shipment.destination
  status := shipment.status
  createdAt := toISOString shipment.createdAt
  updatedAt := toISOString shipment.updatedAt

def undefinedTransitions : JsError := .typeError (js "Cannot read properties of undefined (reading 'includes')")

section Query

variable (E : Engine)

def parsePage (raw : Option JsValue) : Int :=
  -- the number 0 is falsy, so it is read as the empty string, and gives the default
  match E.parseInt (orElse raw (.str [])) with
  | some page => if page < 1 then defaultPage else page
  | none => defaultPage

def parseLimit (raw : Option JsValue) : Int :=
  let limit :=
    match E.parseInt (orElse raw (.str [])) with
    | some limit => if limit < 1 then defaultLimit else limit
    | none => defaultLimit
  if limit > maxLimit then maxLimit else limit

def allowedSortFields : List Text :=
  ["createdAt", "updatedAt", "origin", "destination", "status", "senderName", "receiverName", "trackingNumber"].map js

def parseSortBy (raw : Option JsValue) : Except JsError Text :=
  let sortBy := orElse raw (.str defaultSortBy)
  match allowedSortFields.find? sortBy.isText with
  | some t => .ok t
  | none =>
    .error (.apiError (.invalidQueryParams (js "Invalid sortBy field: " ++ E.stringOf sortBy ++
      js ". Allowed fields: " ++ (js ", ").intercalate allowedSortFields)))

def parseStatus (raw : Option JsValue) : Except JsError (Option Text) :=
  match raw with
  | some status =>
    if status.truthy then
      match statusValues.find? status.isText with
      | some t => .ok (some t)
      | none =>
        .error (.apiError (.invalidQueryParams (js "Invalid status filter: " ++ E.stringOf status ++
          js ". Valid statuses: " ++ (js ", ").intercalate statusValues)))
    else .ok none
  | none => .ok none

/-- A text filter, trimmed when it is given. -/
def parseText (name : String) (raw : Option JsValue) : Except JsError (Option Text) :=
  match raw with
  | some v =>
    if v.truthy then
      match v with
      | .str t => .ok (some (trim t))
      -- only a string has a method `trim`
      | _ => .error (.typeError (js ("rawParams." ++ name ++ ".trim is not a function")))
    else .ok none
  | none => .ok none

/-- A date filter, when it is given and valid. -/
def parseDateParam (name example_ : String) (raw : Option JsValue) : Except JsError (Option JsValue) :=
  match raw with
  | some v =>
    if v.truthy then
      match E.newDate v with
      | some _ => .ok (some v)
      | none =>
        .error (.apiError (.invalidQueryParams (js ("Invalid " ++ name ++ " format: ") ++ E.stringOf v ++
          js (". Use ISO 8601 format (e.g., " ++ example_ ++ ")"))))
    else .ok none
  | none => .ok none

/-- The last check of the dates. -/
def checkDateRange (startDate endDate : Option JsValue) : Except JsError Unit :=
  match startDate, endDate with
  | some s, some e =>
    -- the comparison with an invalid date is false
    match E.newDate s, E.newDate e with
    | some start, some stop =>
      if start > stop then .error (.apiError (.invalidQueryParams (js "startDate cannot be after endDate"))) else .ok ()
    | _, _ => .ok ()
  | _, _ => .ok ()

def parseQueryParams (rawParams : RawQueryParams) : Except JsError QueryParams := do
  let page := parsePage E rawParams.page
  let limit := parseLimit E rawParams.limit
  let order := if rawParams.order.any fun v => v.isText (js "asc") then SortOrder.asc else SortOrder.desc
  let sortBy ← parseSortBy E rawParams.sortBy
  let status ← parseStatus E rawParams.status
  let origin ← parseText "origin" rawParams.origin
  let destination ← parseText "destination" rawParams.destination
  let search ← parseText "search" rawParams.search
  let startDate ← parseDateParam E "startDate" "2024-01-01" rawParams.startDate
  let endDate ← parseDateParam E "endDate" "2024-12-31" rawParams.endDate
  checkDateRange E startDate endDate
  return { page, limit, sortBy, order, filters := { status, origin, destination, search, startDate, endDate } }

end Query

variable (P : Platform)

def validateObjectId (id : Text) : Except JsError Unit :=
  if P.model.isValidObjectId id then .ok ()
  else .error (.apiError (.invalidId (js "Invalid shipment ID: " ++ id)))

def validateStatusTransition (currentStatus : Text) (newStatus : JsValue) : Except JsError Unit :=
  match isValidStatusTransition currentStatus newStatus with
  | none => .error undefinedTransitions
  | some true => .ok ()
  | some false =>
    .error (.apiError (.invalidStatusTransition currentStatus (P.engine.stringOf newStatus)
      ((getAllowedTransitions currentStatus).getD [])))

/-- The transition check of `updateShipment`, on the status that was read. -/
def checkTransition (currentStatus : Text) (status : Option JsValue) : Except JsError Unit :=
  match status with
  | some v =>
    if v.truthy && !v.isText currentStatus then validateStatusTransition P currentStatus v else .ok ()
  | none => .ok ()

/-- The status check of `createShipment`. -/
def checkStatus (status : Option JsValue) : Except JsError Unit :=
  match status with
  | some v =>
    if v.truthy && !statusValues.any v.isText then
      .error (.apiError (.badRequest (js "Invalid status: " ++ P.engine.stringOf v)
        (some [⟨some (js "status"), js "Status must be one of: " ++ (js ", ").intercalate statusValues⟩])))
    else .ok ()
  | none => .ok ()

def createShipment (draws : Draws) (data : JsObject) : Async ShipmentResponse := do
  let shipmentData := Obj.set data "status" (orElse (Obj.get? data "status") (.str ShipmentStatus.pending.value))
  checkStatus P (Obj.get? data "status")
  let shipment ← ShipmentRepository.create draws shipmentData
  return toResponse shipment

def notFound : JsError := .apiError (.notFound (js "Shipment"))

def getShipmentById (id : Text) : Async ShipmentResponse := do
  validateObjectId P id
  let some shipment ← ShipmentRepository.findById id | throw notFound
  return toResponse shipment

def getShipmentByTrackingNumber (trackingNumber : Text) : Async ShipmentResponse := do
  let some shipment ← ShipmentRepository.findByTrackingNumber trackingNumber | throw notFound
  return toResponse shipment

def updateShipment (id : Text) (data : JsObject) : Async ShipmentResponse := do
  validateObjectId P id
  let some existingShipment ← ShipmentRepository.findById id | throw notFound
  checkTransition P existingShipment.status (Obj.get? data "status")
  let some updatedShipment ← ShipmentRepository.update id data | throw notFound
  return toResponse updatedShipment

def deleteShipment (id : Text) : Async ShipmentResponse := do
  validateObjectId P id
  let some deletedShipment ← ShipmentRepository.delete id | throw notFound
  return toResponse deletedShipment

def listShipments (rawParams : RawQueryParams) : Async (PaginatedResponse ShipmentResponse) := do
  let queryParams ← parseQueryParams P.engine rawParams
  let result ← ShipmentRepository.list P.engine queryParams
  return { data := result.data.map toResponse, pagination := result.pagination }

end ShipmentService

end ShipmentManager
