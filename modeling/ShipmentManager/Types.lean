import ShipmentManager.Js

/-!
# The types of the program

The statuses of a shipment and the transitions between them, the stored shipment, and what the API answers with.  A
stored status is a string, as in the database: that it is one of the four statuses is a theorem about the program, not a
fact about the type.
-/

namespace ShipmentManager

inductive ShipmentStatus where
  | pending
  | inTransit
  | delivered
  | cancelled
  deriving DecidableEq, Repr

/-- `ShipmentStatusEnum`: the string a status stands for. -/
def ShipmentStatus.value : ShipmentStatus → Text
  | pending => js "pending"
  | inTransit => js "in_transit"
  | delivered => js "delivered"
  | cancelled => js "cancelled"

/-- `SHIPMENT_STATUSES`. -/
def shipmentStatuses : List ShipmentStatus := [.pending, .inTransit, .delivered, .cancelled]

def statusValues : List Text := shipmentStatuses.map ShipmentStatus.value

/-- `STATUS_TRANSITIONS`: the statuses a shipment may change to. -/
def statusTransitions : ShipmentStatus → List ShipmentStatus
  | .pending => [.inTransit, .cancelled]
  | .inTransit => [.delivered, .cancelled]
  | .delivered => []
  | .cancelled => []

/-- The status that a string stands for. -/
def ShipmentStatus.ofText? (t : Text) : Option ShipmentStatus := shipmentStatuses.find? fun s => s.value = t

/-- `STATUS_TRANSITIONS[t]`, which is undefined for a string that is no status. -/
def transitionsOf? (t : Text) : Option (List Text) :=
  (ShipmentStatus.ofText? t).map fun s => (statusTransitions s).map ShipmentStatus.value

theorem ShipmentStatus.mem_shipmentStatuses (s : ShipmentStatus) : s ∈ shipmentStatuses := by
  cases s <;> decide

theorem ShipmentStatus.value_injective : Function.Injective ShipmentStatus.value := by
  intro s t h
  cases s <;> cases t <;> first | rfl | exact absurd h (by decide)

theorem mem_statusValues {t : Text} : t ∈ statusValues ↔ ∃ s : ShipmentStatus, s.value = t := by
  simp only [statusValues, List.mem_map]
  constructor
  · rintro ⟨s, -, h⟩
    exact ⟨s, h⟩
  · rintro ⟨s, h⟩
    exact ⟨s, s.mem_shipmentStatuses, h⟩

@[simp] theorem ShipmentStatus.ofText?_value (s : ShipmentStatus) : ofText? s.value = some s := by
  cases s <;> decide

theorem ShipmentStatus.value_of_ofText? {t : Text} {s : ShipmentStatus} (h : ofText? t = some s) : s.value = t := by
  simpa using List.find?_some h

/-- The identifier that MongoDB gives a document. -/
abbrev ObjectId := Nat

/-- A document of the collection of shipments. -/
structure Shipment where
  _id : ObjectId
  trackingNumber : Text
  senderName : Text
  receiverName : Text
  origin : Text
  destination : Text
  status : Text
  createdAt : Int
  updatedAt : Int
  deriving DecidableEq

/-- The string fields of a stored shipment, by their paths. -/
def Shipment.text? (s : Shipment) : String → Option Text
  | "trackingNumber" => some s.trackingNumber
  | "senderName" => some s.senderName
  | "receiverName" => some s.receiverName
  | "origin" => some s.origin
  | "destination" => some s.destination
  | "status" => some s.status
  | _ => none

structure ShipmentResponse where
  id : Text
  trackingNumber : Text
  senderName : Text
  receiverName : Text
  origin : Text
  destination : Text
  status : Text
  createdAt : Text
  updatedAt : Text
  deriving DecidableEq

structure PaginationMeta where
  currentPage : Int
  totalPages : Int
  totalItems : Int
  itemsPerPage : Int
  hasNextPage : Bool
  hasPrevPage : Bool
  deriving DecidableEq

/-- A page of shipments, as documents or as responses. -/
structure PaginatedResponse (α : Type) where
  data : List α
  pagination : PaginationMeta

inductive SortOrder where
  | asc
  | desc
  deriving DecidableEq

/-- The filters of a listing; a date bound is the value the validator handed on. -/
structure ShipmentFilterParams where
  status : Option Text
  origin : Option Text
  destination : Option Text
  search : Option Text
  startDate : Option JsValue
  endDate : Option JsValue

structure QueryParams where
  page : Int
  limit : Int
  sortBy : Text
  order : SortOrder
  filters : ShipmentFilterParams

/-- `DEFAULT_PAGINATION.page`. -/
def defaultPage : Int := 1

/-- `DEFAULT_PAGINATION.limit`. -/
def defaultLimit : Int := 10

/-- `DEFAULT_SORT.sortBy`. -/
def defaultSortBy : Text := js "createdAt"

/-- `MAX_LIMIT`. -/
def maxLimit : Int := 100

end ShipmentManager
