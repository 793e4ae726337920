import ShipmentManager.Tracking

/-!
# The repository

The functions of `ShipmentRepository`: what each sends to the database, and what it makes of the answers.  `buildQuery`
is the query object of `list`, built by one assignment for each filter that is given.
-/

namespace ShipmentManager

/-- What a request draws from its surroundings before it sends anything: the local date and the random numbers. -/
structure Draws where
  today : LocalDate
  random : Nat → Rat

namespace ShipmentRepository

def create (draws : Draws) (data : JsObject) : Async Shipment :=
  let trackingNumber := generateTrackingNumber draws.today draws.random
  send (.save (Obj.set data "trackingNumber" (.str trackingNumber)))

def findById (id : Text) : Async (Option Shipment) := send (.findById id)

def findByTrackingNumber (trackingNumber : Text) : Async (Option Shipment) := send (.findOne trackingNumber)

/-- A filter that is given and not empty. -/
def present (filter : Option Text) : Option Text := filter.filter fun t => t ≠ []

def whenPresent (filter : Option Text) (f : Text → Query → Query) (query : Query) : Query :=
  match present filter with
  | some t => f t query
  | none => query

/-- The date bounds of a query object. -/
def createdAtFilter (E : Engine) (filters : ShipmentFilterParams) : Obj JsDate :=
  let bounds : Obj JsDate := []
  let bounds :=
    match filters.startDate with
    | some v => if v.truthy then Obj.set bounds "$gte" (E.newDate v) else bounds
    | none => bounds
  match filters.endDate with
  | some v => if v.truthy then Obj.set bounds "$lte" (E.newDate v) else bounds
  | none => bounds

def buildQuery (E : Engine) (filters : ShipmentFilterParams) : Query :=
  let query : Query := []
  let query := whenPresent filters.status (fun t q => Obj.set q "status" (.eq t)) query
  let query := whenPresent filters.origin (fun t q => Obj.set q "origin" (.regex t)) query
  let query := whenPresent filters.destination (fun t q => Obj.set q "destination" (.regex t)) query
  let query :=
    whenPresent filters.search (fun t q => Obj.set q "$or" (.or [("senderName", t), ("receiverName", t)])) query
  if truthy filters.startDate || truthy filters.endDate then
    Obj.set query "createdAt" (.range (createdAtFilter E filters))
  else query

/-- `Math.ceil(n / d)` -/
def ceilDiv (n d : Int) : Int := -(-n / d)

def paginationOf (page limit totalItems : Int) : PaginationMeta :=
  let totalPages := ceilDiv totalItems limit
  { currentPage := page
    totalPages := totalPages
    totalItems := totalItems
    itemsPerPage := limit
    hasNextPage := page < totalPages
    hasPrevPage := page > 1 }

def list (E : Engine) (params : QueryParams) : Async (PaginatedResponse Shipment) := do
  let query := buildQuery E params.filters
  let skip := (params.page - 1) * params.limit
  let (shipments, totalItems) ←
    sendBoth (.find query params.sortBy params.order skip params.limit) (.countDocuments query)
  return { data := shipments, pagination := paginationOf params.page params.limit totalItems }

def update (id : Text) (data : JsObject) : Async (Option Shipment) := send (.findByIdAndUpdate id data)

def delete (id : Text) : Async (Option Shipment) := send (.findByIdAndDelete id)

end ShipmentRepository

end ShipmentManager
