import ShipmentManager.Types

/-!
# Errors and the error handler

The errors a request can end in (`JsError`): the program's own `ApiError`s, the errors of the database and of Mongoose,
and those of the body parsers, the router and the language.  `normalizeError` turns each into an `ApiError` by its
class, and `errorHandler` answers with it.
-/

namespace ShipmentManager

/-- `ErrorCodes`. -/
inductive ErrorCode where
  | validationError
  | invalidId
  | invalidStatusTransition
  | invalidQueryParams
  | resourceNotFound
  | duplicateEntry
  | internalError
  deriving DecidableEq

structure ErrorDetail where
  field : Option Text
  message : Text
  deriving DecidableEq

structure ApiError where
  statusCode : Nat
  message : Text
  code : ErrorCode
  details : Option (List ErrorDetail)
  isOperational : Bool
  deriving DecidableEq

namespace ApiError

def badRequest (message : Text) (details : Option (List ErrorDetail)) : ApiError :=
  ⟨400, message, .validationError, details, true⟩

def invalidId (message : Text) : ApiError := ⟨400, message, .invalidId, none, true⟩

def invalidStatusTransition (currentStatus newStatus : Text) (allowedTransitions : List Text) : ApiError :=
  let message :=
    if allowedTransitions.length = 0 then
      js "Cannot change status from '" ++ currentStatus ++ js "'. This is a final state."
    else
      js "Invalid status transition from '" ++ currentStatus ++ js "' to '" ++ newStatus ++
        js "'. Allowed transitions: " ++ (js ", ").intercalate allowedTransitions
  ⟨400, message, .invalidStatusTransition, some [⟨some (js "status"), message⟩], true⟩

def invalidQueryParams (message : Text) : ApiError := ⟨400, message, .invalidQueryParams, none, true⟩

def notFound (resource : Text) : ApiError := ⟨404, resource ++ js " not found", .resourceNotFound, none, true⟩

def conflict (message : Text) : ApiError := ⟨409, message, .duplicateEntry, none, true⟩

def internal (message : Text) : ApiError := ⟨500, message, .internalError, none, false⟩

end ApiError

/-- The errors that reach the error handler, by their classes. -/
inductive JsError where
  | apiError (error : ApiError)
  | mongoServerError (code : Option Nat) (keyValue : Option (Obj Text)) (message : Text)
  | validationError (errors : List (Text × Text)) (message : Text)
  | castError (path value message : Text)
  | syntaxError (status : Option Nat) (message : Text)
  | httpError (status : Nat) (message : Text)
  | uriError (status : Option Nat) (message : Text)
  | typeError (message : Text)
  deriving DecidableEq

/-- `error.message`. -/
def JsError.message : JsError → Text
  | apiError e => e.message
  | mongoServerError _ _ m => m
  | validationError _ m => m
  | castError _ _ m => m
  | syntaxError _ m => m
  | httpError _ m => m
  | uriError _ m => m
  | typeError m => m

def handleDuplicateKeyError (keyValue : Option (Obj Text)) : ApiError :=
  let field :=
    match keyValue.getD [] with
    | [] => "field"
    | (k, _) :: _ => if k = "" then "field" else k
  let value :=
    match keyValue with
    | none => js "unknown"
    | some kv => (Obj.get? kv field).getD (js "undefined")
  .conflict (js "Duplicate value for " ++ js field ++ js ": " ++ value)

def handleValidationError (errors : List (Text × Text)) : ApiError :=
  .badRequest (js "Validation failed") (some (errors.map fun e => ⟨some e.1, e.2⟩))

def handleCastError (path value : Text) : ApiError :=
  .invalidId (js "Invalid " ++ path ++ js ": " ++ value)

def handleSyntaxError : ApiError := .badRequest (js "Invalid JSON in request body") none

/-- Converts any error to an `ApiError`. -/
def normalizeError (isProduction : Bool) (error : JsError) : ApiError :=
  let unexpected := ApiError.internal (if isProduction then js "An unexpected error occurred" else error.message)
  match error with
  | .apiError e => e
  | .mongoServerError code keyValue _ => if code = some 11000 then handleDuplicateKeyError keyValue else unexpected
  | .validationError errors _ => handleValidationError errors
  | .castError path value _ => handleCastError path value
  | .syntaxError status _ => if status = some 400 then handleSyntaxError else unexpected
  | .httpError _ _ => unexpected
  | .uriError _ _ => unexpected
  | .typeError _ => unexpected

inductive ResponseBody where
  | shipment (message : Text) (data : ShipmentResponse)
  | shipments (message : Text) (data : List ShipmentResponse) (pagination : PaginationMeta)
  | error (message : Text) (code : ErrorCode) (details : Option (List ErrorDetail))
  deriving DecidableEq

structure HttpResponse where
  status : Nat
  body : ResponseBody
  deriving DecidableEq

def errorHandler (isProduction : Bool) (error : JsError) : HttpResponse :=
  let apiError := normalizeError isProduction error
  ⟨apiError.statusCode, .error apiError.message apiError.code apiError.details⟩

/-- The errors that the handler recognises as the client's: their response is a 4xx. -/
def JsError.Recognised : JsError → Prop
  | apiError e => e.statusCode < 500
  | mongoServerError code _ _ => code = some 11000
  | validationError _ _ => True
  | castError _ _ _ => True
  | syntaxError status _ => status = some 400
  | httpError _ _ => False
  | uriError _ _ => False
  | typeError _ => False

/-- The handler answers an error with a status below 500 exactly when it recognises it. -/
theorem errorHandler_status_lt {b : Bool} {e : JsError} : (errorHandler b e).status < 500 ↔ e.Recognised := by
  cases e with
  | apiError e => rfl
  | mongoServerError code kv m =>
    show (normalizeError b _).statusCode < 500 ↔ code = some 11000
    by_cases h : code = some 11000 <;> simp [normalizeError, h, handleDuplicateKeyError, ApiError.conflict,
      ApiError.internal]
  | syntaxError status m =>
    show (normalizeError b _).statusCode < 500 ↔ status = some 400
    by_cases h : status = some 400 <;> simp [normalizeError, h, handleSyntaxError, ApiError.badRequest,
      ApiError.internal]
  | validationError es m =>
    simp [errorHandler, normalizeError, JsError.Recognised, handleValidationError, ApiError.badRequest]
  | castError p v m => simp [errorHandler, normalizeError, JsError.Recognised, handleCastError, ApiError.invalidId]
  | httpError s m => simp [errorHandler, normalizeError, JsError.Recognised, ApiError.internal]
  | uriError s m => simp [errorHandler, normalizeError, JsError.Recognised, ApiError.internal]
  | typeError m => simp [errorHandler, normalizeError, JsError.Recognised, ApiError.internal]

/-- Every error that the program raises itself carries a 4xx status. -/
def ApiError.ClientError (e : ApiError) : Prop := 400 ≤ e.statusCode ∧ e.statusCode < 500

theorem ApiError.ClientError.of_400 {e : ApiError} (h : e.statusCode = 400) : e.ClientError := by
  unfold ClientError
  omega

theorem normalizeError_status_ge (b : Bool) {e : JsError} (h : ∀ a, e = .apiError a → 400 ≤ a.statusCode) :
    400 ≤ (normalizeError b e).statusCode := by
  cases e with
  | apiError a => exact h a rfl
  | mongoServerError code kv m =>
    by_cases hc : code = some 11000 <;> simp [normalizeError, hc, handleDuplicateKeyError, ApiError.conflict,
      ApiError.internal]
  | syntaxError status m =>
    by_cases hs : status = some 400 <;> simp [normalizeError, hs, handleSyntaxError, ApiError.badRequest,
      ApiError.internal]
  | validationError es m => simp [normalizeError, handleValidationError, ApiError.badRequest]
  | castError p v m => simp [normalizeError, handleCastError, ApiError.invalidId]
  | httpError s m => simp [normalizeError, ApiError.internal]
  | uriError s m => simp [normalizeError, ApiError.internal]
  | typeError m => simp [normalizeError, ApiError.internal]

end ShipmentManager
