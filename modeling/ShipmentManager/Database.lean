import ShipmentManager.Mongo

/-!
# The database connection

The `Database` object of the program and the Mongoose connection behind it.  The object keeps its own copy of the state
of the connection (`connectionState`), which the listeners on the connection write, and which `disconnect` trusts.
-/

namespace ShipmentManager

/-- `mongoose.connection.readyState`. -/
inductive ReadyState where
  | disconnected
  | connected
  | connecting
  | disconnecting
  deriving DecidableEq

structure Database where
  /-- The copy of the object: 0 or 1. -/
  connectionState : Nat
  readyState : ReadyState
  /-- Whether `mongoose.connection.close` has been called. -/
  closeCalled : Bool
  deriving DecidableEq

/-- The events of `mongoose.connection` that the constructor listens to. -/
inductive ConnectionEvent where
  | connected
  | error
  | disconnected

/-- A call of `connect`: it awaits `mongoose.connect`, or it has returned at once. -/
inductive ConnectCall where
  | opening
  | resolved
  deriving DecidableEq

/-- A call of `disconnect`: it awaits the end of `mongoose.connection.close`, or its promise is settled. -/
inductive DisconnectCall where
  | closing
  | resolved
  | rejected
  deriving DecidableEq

namespace Database

/-- An event of the connection, with its listener. -/
def on (d : Database) : ConnectionEvent → Database
  | .connected => { d with readyState := .connected, connectionState := 1 }
  | .error => { d with connectionState := 0 }
  | .disconnected => { d with readyState := .disconnected, connectionState := 0 }

/-- The start of `mongoose.connect`; on an open connection it changes nothing. -/
def openUri (d : Database) : Database :=
  { d with readyState := if d.readyState = .connected then .connected else .connecting }

/-- `connect`, up to its `await`. -/
def connect (d : Database) : Database × ConnectCall :=
  if d.connectionState = 1 then (d, .resolved) else (d.openUri, .opening)

/-- `connect`, after the connection has opened. -/
def connected (d : Database) : Database := { d with connectionState := 1 }

/-- The `catch` of `connect`, which throws the error on. -/
def connectFailed (d : Database) : Database := { d with connectionState := 0 }

/-- The start of `mongoose.connection.close`. -/
def close (d : Database) : Database :=
  { d with
    closeCalled := true
    readyState := if d.readyState = .connected then .disconnecting else d.readyState }

/-- `disconnect`, up to its `await`. -/
def disconnect (d : Database) : Database × DisconnectCall :=
  if d.connectionState = 0 then (d, .resolved) else (d.close, .closing)

/-- `disconnect`, after the connection has closed. -/
def disconnected (d : Database) : Database := { d with connectionState := 0 }

/-- `isConnected`, which the readiness probe asks. -/
def isConnected (d : Database) : Bool := d.connectionState = 1 && d.readyState = .connected

/-- A command is executed while the connection is there, and otherwise it may fail. -/
def Executes (d : Database) (M : Mongo) (model : ShipmentModel) (c : Command) (db : Db) (r : c.Answer) (db' : Db) :
    Prop :=
  (d.readyState ≠ .disconnected ∧ Db.Executes M model c db r db') ∨
    (d.readyState ≠ .connected ∧ db' = db ∧ ∃ e, r = .error e)

end Database

end ShipmentManager
