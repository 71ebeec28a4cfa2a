import ColonyCache.Caches.Bleeding
import ColonyCache.Caches.Components
import ColonyCache.Caches.Immunity
import ColonyCache.Caches.Keyed
import ColonyCache.Caches.Relations
import ColonyCache.Caches.Spatial
import ColonyCache.Caches.Tick
import ColonyCache.Decimal.Shortest
import ColonyCache.Events
import ColonyCache.Identity
import ColonyCache.Identity.Hashing
import ColonyCache.Json
import ColonyCache.Json.Read
import ColonyCache.Json.Stats
import ColonyCache.Main
import ColonyCache.Proofs.Recency.ArenaLinks
import ColonyCache.Proofs.Recency.Arena
import ColonyCache.Proofs.Recency.Refinement
import ColonyCache.Proofs.Scoped.Invariant
import ColonyCache.Proofs.Scoped.Refinement
import ColonyCache.Proofs.Session.Reachable
import ColonyCache.Proofs.Session.Events
import ColonyCache.Proofs.Session.Scopes
import ColonyCache.Proofs.Session.Sizing
import ColonyCache.Proofs.Simulation.Census
import ColonyCache.Proofs.Simulation.Churn
import ColonyCache.Proofs.Simulation.Loading
import ColonyCache.Proofs.Simulation.Overflow
import ColonyCache.Proofs.Simulation.Run
import ColonyCache.Proofs.Simulation.Renewal
import ColonyCache.Proofs.Simulation.Reports
import ColonyCache.Proofs.Simulation.Tracking
import ColonyCache.Proofs.World.Regions
import ColonyCache.Proofs.World.Things
import ColonyCache.Proofs.World.Run
import ColonyCache.Proofs.World.Records
import ColonyCache.Proofs.World.Placement
import ColonyCache.Proofs.World.Relations
import ColonyCache.Proofs.World.Keeping
import ColonyCache.Proofs.Session.Freshness
import ColonyCache.Proofs.Caches.Components
import ColonyCache.Proofs.Caches.Bleeding
import ColonyCache.Proofs.Recency.Counts
import ColonyCache.Proofs.Settings.Reading
import ColonyCache.Proofs.Scoped.Registry
import ColonyCache.Proofs.Identity.Hashing
import ColonyCache.Proofs.World.RegionSize
import ColonyCache.Recency.Arena
import ColonyCache.Recency.Stats
import ColonyCache.Request.Answer
import ColonyCache.Request.Basic
import ColonyCache.Request.Entity
import ColonyCache.Request.Events
import ColonyCache.Request.Identity
import ColonyCache.Request.Recency
import ColonyCache.Request.Scoped
import ColonyCache.Request.Session
import ColonyCache.Request.Settings
import ColonyCache.Request.Simulation
import ColonyCache.Request.Values
import ColonyCache.Scoped.Basic
import ColonyCache.Scoped.Registry
import ColonyCache.Session.Basic
import ColonyCache.Session.Host
import ColonyCache.Settings
import ColonyCache.Settings.DotEnv
import ColonyCache.Simulation.Churn
import ColonyCache.Simulation.Report
import ColonyCache.Simulation.Seed
import ColonyCache.Text.WhiteSpace
import ColonyCache.World.Basic
import ColonyCache.World.Component
import ColonyCache.World.Grid
import ColonyCache.World.Health
import ColonyCache.World.Social
import ColonyCache.World.Summary
import ColonyCache.World.Thing
