import RydTrip.Process.Prog
import RydTrip.Process.Pool
import RydTrip.EventSchema
import RydTrip.EventConsumer
import RydTrip.CircuitBreaker
import RydTrip.TripService.RideStateMachine
import RydTrip.TripService.Database
import RydTrip.TripService.Repository
import RydTrip.TripService.Service
import RydTrip.TripService.Consumer
import RydTrip.TripService.Machine
import RydTrip.TripService.Writes
import RydTrip.TripService.Steps
import RydTrip.TripService.StatusSafety
import RydTrip.TripService.Redelivery
import RydTrip.TripService.Delivery
import RydTrip.TripService.EventOrder
import RydTrip.DispatchService.Service
import RydTrip.DispatchService.Machine
import RydTrip.Process.Fairness
import RydTrip.DispatchService.Matching
import RydTrip.DispatchService.Retry
import RydTrip.RedisClient.Heartbeat
import RydTrip.DriverService.Drivers
import RydTrip.Process.Typestate
import RydTrip.TripService.Progress
import RydTrip.Backend.System
import RydTrip.Backend.Threads
import RydTrip.TripService.Rows
import RydTrip.Backend.DoubleBooking
import RydTrip.DriverService.StatusSafety
import RydTrip.CircuitBreaker.Overlap
import RydTrip.EventConsumer.Parking
import RydTrip.DispatchService.RedisDomain
import RydTrip.TripService.AuditTrail
import RydTrip.TripService.Release
import RydTrip.RedisClient.IdempotencyStore
import RydTrip.Replay.Cluster
import RydTrip.Replay.Outcomes
import RydTrip.Accounts.Table
import RydTrip.Accounts.Service
import RydTrip.Accounts.Login
import RydTrip.Http.Path
import RydTrip.Http.Router
import RydTrip.ApiGateway.Guard
import RydTrip.ApiGateway.Agreement
import RydTrip.ApiGateway.Trips
import RydTrip.TripService.Sequential
import RydTrip.TripService.PickupCode
import RydTrip.ApiGateway.StartTrip
import RydTrip.Process.Blind
import RydTrip.TripService.Secret
import RydTrip.ApiGateway.Replies
import RydTrip.ApiGateway.Confidential
import RydTrip.ApiGateway.Policies
import RydTrip.CircuitBreaker.History
import RydTrip.ApiGateway.RateLimit
import RydTrip.TripService.Distance
import RydTrip.TripService.Columns
import RydTrip.TripService.Idempotence
import RydTrip.LocationService.Updates
import RydTrip.DispatchService.Search
import RydTrip.ApiGateway.DriverStatus
import RydTrip.ApiGateway.RideOwnership
import RydTrip.Backend.Turns
import RydTrip.Backend.Syncs
import RydTrip.Backend.Leaks
import RydTrip.Backend.Releases
import RydTrip.ApiGateway.RateTiers
import RydTrip.DispatchService.BestEffort
import RydTrip.Process.Transition
import RydTrip.Web.WebSocketClient
import RydTrip.Json.Double
import RydTrip.Json.Number
import RydTrip.Json.Strings
import RydTrip.Json.Value
import RydTrip.Json.Parse
import RydTrip.Replay.Records
import RydTrip.Replay.Restore
import RydTrip.Replay.Completion
import RydTrip.Web.RideStore
import RydTrip.Web.RiderPage
import RydTrip.Backend.Answers
import RydTrip.Backend.Provenance
import RydTrip.Accounts.Tokens
import RydTrip.ApiGateway.Identity
import RydTrip.TripService.TrailPaths
import RydTrip.Process.Erase
import RydTrip.TripService.Unseen
import RydTrip.Backend.Leases
import RydTrip.Wire.Published
import RydTrip.Wire.Understood
import RydTrip.Backend.Resolution
import RydTrip.Process.Resume
import RydTrip.TripService.Routes
import RydTrip.TripService.Alone
import RydTrip.TripService.Timely
import RydTrip.TripService.Serial
