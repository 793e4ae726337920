import ShipmentManager.ApiError
import ShipmentManager.Validators

/-!
# The Mongoose schema

`shipmentSchema` as the source writes it, and what Mongoose's documentation says of building a document from an object
(`new ShipmentModel(data).save()`, up to the insertion) and of casting an update (`{ $set: data }` with
`runValidators`).  Mongoose itself is a parameter (`ShipmentModel`), with these rules as its laws: strings are trimmed
by their setters and then checked by the validators of their path, a missing path takes its default, and `_id`,
`createdAt` and `updatedAt` are generated.  The laws are for data that holds strings at paths of the schema and nothing
else (`AllText`): of an `_id` or a `createdAt` in the data nothing is promised, as Mongoose would store it.
-/

namespace ShipmentManager

/-- The options of a path of type `String`. -/
structure PathSchema where
  required : Option String := none
  unique : Bool := false
  trim : Bool := false
  minLength : Option (Nat × String) := none
  maxLength : Option (Nat × String) := none
  enum : Option (List Text × String) := none
  default : Option Text := none
  index : Bool := false

/-- A trimmed text path of `shipmentSchema`. -/
def textPath (required label : String) (max : Nat) : PathSchema where
  required := some required
  trim := true
  minLength := some (2, label ++ " must be at least 2 characters")
  maxLength := some (max, label ++ " must be at most " ++ toString max ++ " characters")

def trackingNumberPath : PathSchema where
  required := some "Tracking number is required"
  unique := true
  trim := true
  index := true

def statusPath : PathSchema where
  required := some "Shipment status is required"
  enum := some (statusValues, "Status must be one of: pending, in_transit, delivered, cancelled")
  default := some ShipmentStatus.pending.value
  index := true

def shipmentSchema : Obj PathSchema :=
  [("trackingNumber", trackingNumberPath),
    ("senderName", textPath "Sender name is required" "Sender name" 100),
    ("receiverName", textPath "Receiver name is required" "Receiver name" 100),
    ("origin", textPath "Origin address is required" "Origin address" 200),
    ("destination", textPath "Destination address is required" "Destination address" 200),
    ("status", statusPath)]

/-- The setter of a path. -/
def PathSchema.cast (p : PathSchema) (t : Text) : Text := if p.trim then ShipmentManager.trim t else t

/-- The validators of a path. -/
def PathSchema.valid (p : PathSchema) : Option Text → Bool
  | none => p.required.isNone
  | some t =>
    (p.required.isNone || t ≠ []) && p.minLength.all (fun m => m.1 ≤ t.length) &&
      p.maxLength.all (fun m => t.length ≤ m.1) && p.enum.all (fun e => e.1.contains t)

/-- The string at a path of some data, after its setter. -/
def PathSchema.given (p : PathSchema) (data : JsObject) (path : String) : Option Text :=
  match Obj.get? data path with
  | some (.str t) => some (p.cast t)
  | _ => none

/-- The string at a path of a new document: the one given, or the default. -/
def PathSchema.initial (p : PathSchema) (data : JsObject) (path : String) : Option Text :=
  (p.given data path).or p.default

/-- Data that holds strings at paths of the schema, and nothing else. -/
structure AllText (data : JsObject) : Prop where
  text : ∀ path p, (path, p) ∈ shipmentSchema → ∀ v, Obj.get? data path = some v → ∃ t, v = .str t
  other : ∀ path, Obj.get? shipmentSchema path = none → Obj.get? data path = none

/-- An update of a document: the paths it sets, and its timestamps. -/
structure Update where
  set : String → Option Text
  createdAt : Option Int
  updatedAt : Int

def Update.apply (u : Update) (s : Shipment) : Shipment where
  _id := s._id
  trackingNumber := (u.set "trackingNumber").getD s.trackingNumber
  senderName := (u.set "senderName").getD s.senderName
  receiverName := (u.set "receiverName").getD s.receiverName
  origin := (u.set "origin").getD s.origin
  destination := (u.set "destination").getD s.destination
  status := (u.set "status").getD s.status
  createdAt := u.createdAt.getD s.createdAt
  updatedAt := u.updatedAt

@[simp] theorem Update.apply_id (u : Update) (s : Shipment) : (u.apply s)._id = s._id := rfl

/-- A string field after an update: what it sets, or what was there. -/
theorem Update.text?_apply (u : Update) (s : Shipment) (path : String) :
    (u.apply s).text? path = (s.text? path).map fun t => (u.set path).getD t := by
  unfold Shipment.text?
  split <;> rfl

/-- The digit that a hexadecimal code unit stands for. -/
def hexDigitValue (u : UInt16) : Nat :=
  if u ≤ 57 then u.toNat - 48 else if u ≤ 70 then u.toNat - 55 else u.toNat - 87

/-- The identifier that a hexadecimal text stands for; the case of a digit does not matter. -/
def hexValue (t : Text) : ObjectId := t.foldl (fun n u => 16 * n + hexDigitValue u) 0

/-- `_id.toString()`: 24 lower-case hexadecimal digits. -/
def objectIdToText (n : ObjectId) : Text :=
  (List.range 24).reverse.map fun i =>
    let d := n / 16 ^ i % 16
    UInt16.ofNat (if d < 10 then 48 + d else 87 + d)

/-- Mongoose's model of `shipmentSchema`. -/
structure ShipmentModel where
  /-- `Types.ObjectId.isValid` -/
  isValidObjectId : Text → Bool
  isValidObjectId_hex : ∀ t, isObjectIdText t = true → isValidObjectId t = true
  /-- The cast of a path parameter to an identifier. -/
  castObjectId : Text → Option ObjectId
  castObjectId_hex : ∀ t, isObjectIdText t = true → castObjectId t = some (hexValue t)
  /-- `new ShipmentModel(data)` and the validation of `save`, with the generated identifier and the time. -/
  build : JsObject → ObjectId → Int → Except JsError Shipment
  build_accepts : ∀ data id now, AllText data →
    ((∃ s, build data id now = .ok s) ↔ ∀ path p, (path, p) ∈ shipmentSchema → p.valid (p.initial data path) = true)
  build_text : ∀ data id now s, AllText data → build data id now = .ok s →
    ∀ path p, (path, p) ∈ shipmentSchema → s.text? path = p.initial data path
  build_id : ∀ data id now s, AllText data → build data id now = .ok s → s._id = id
  build_createdAt : ∀ data id now s, AllText data → build data id now = .ok s → s.createdAt = now
  build_updatedAt : ∀ data id now s, AllText data → build data id now = .ok s → s.updatedAt = now
  /-- The cast and the validation of `{ $set: data }` in `findByIdAndUpdate`, with the time. -/
  castUpdate : JsObject → Int → Except JsError Update
  castUpdate_accepts : ∀ data now, AllText data →
    ((∃ u, castUpdate data now = .ok u) ↔
      ∀ path p, (path, p) ∈ shipmentSchema → ∀ t, p.given data path = some t → p.valid (some t) = true)
  castUpdate_set : ∀ data now u, AllText data → castUpdate data now = .ok u →
    ∀ path p, (path, p) ∈ shipmentSchema → u.set path = p.given data path
  castUpdate_createdAt : ∀ data now u, AllText data → castUpdate data now = .ok u → u.createdAt = none
  castUpdate_updatedAt : ∀ data now u, AllText data → castUpdate data now = .ok u → u.updatedAt = now

end ShipmentManager
