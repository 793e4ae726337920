import ShipmentManager.Lib.Collection
import ShipmentManager.Lib.Prog
import ShipmentManager.Lib.Interleaving
import ShipmentManager.Lib.Linearization
import ShipmentManager.Lib.LastWrite
import ShipmentManager.Lib.Unreliable
import ShipmentManager.Lib.Progress
import ShipmentManager.Lib.Replay
import ShipmentManager.Lib.Registry
import ShipmentManager.Lib.Paging
import ShipmentManager.Lib.PageWalk
import ShipmentManager.Lib.PageDrift
import ShipmentManager.Lib.Calendar
import ShipmentManager.Lib.Positional
import ShipmentManager.Lib.Literal
import ShipmentManager.Js
import ShipmentManager.Types
import ShipmentManager.ApiError
import ShipmentManager.Joi
import ShipmentManager.Validators
import ShipmentManager.Mongoose
import ShipmentManager.Identifiers
import ShipmentManager.Mongo
import ShipmentManager.Platform
import ShipmentManager.Tracking
import ShipmentManager.TrackingNumbers
import ShipmentManager.Repository
import ShipmentManager.Service
import ShipmentManager.Routes
import ShipmentManager.Reference
import ShipmentManager.Plan
import ShipmentManager.Commands
import ShipmentManager.Agreement
import ShipmentManager.Listing
import ShipmentManager.Queries
import ShipmentManager.Requests
import ShipmentManager.IsoDates
import ShipmentManager.CleanCommands
import ShipmentManager.DateRange
import ShipmentManager.ClientWalk
import ShipmentManager.Invariants
import ShipmentManager.Deletion
import ShipmentManager.Atomicity
import ShipmentManager.LastWrites
import ShipmentManager.Transitions
import ShipmentManager.FieldUpdates
import ShipmentManager.Pages
import ShipmentManager.Filters
import ShipmentManager.TextFilters
import ShipmentManager.Responses
import ShipmentManager.Progress
import ShipmentManager.ListMoments
import ShipmentManager.Linearizability
import ShipmentManager.StatusHistory
import ShipmentManager.Lookups
import ShipmentManager.Contract
import ShipmentManager.ConcurrentContract
import ShipmentManager.Retries
import ShipmentManager.ResponseTable
import ShipmentManager.DriftingWalk
import ShipmentManager.Outages
import ShipmentManager.Database
import ShipmentManager.Connection
import ShipmentManager.Shutdown
import ShipmentManager.Lifecycle
