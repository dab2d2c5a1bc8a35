import CatalogSync.Catalog.Encoding
import CatalogSync.Catalog.Entry
import CatalogSync.Catalog.InfoDocuments
import CatalogSync.Catalog.Merge
import CatalogSync.Catalog.ModelDocument
import CatalogSync.Catalog.Sources
import CatalogSync.Cluster.Api
import CatalogSync.Cluster.InferenceService
import CatalogSync.Cluster.Kind
import CatalogSync.Cluster.Object
import CatalogSync.Cluster.Route
import CatalogSync.Correlation.Evidence
import CatalogSync.Correlation.Search
import CatalogSync.Deployment.Basic
import CatalogSync.Deployment.Source
import CatalogSync.Effect.Polling
import CatalogSync.Effect.Proc
import CatalogSync.Effect.Retry
import CatalogSync.Fault
import CatalogSync.Http.MediaType
import CatalogSync.Http.Message
import CatalogSync.Http.Status
import CatalogSync.Http.Target
import CatalogSync.Json.Basic
import CatalogSync.Json.Decoder
import CatalogSync.Json.Outline
import CatalogSync.Json.Printer
import CatalogSync.Json.Reader
import CatalogSync.Json.Scalar
import CatalogSync.Json.Skip
import CatalogSync.Naming.ImportKey
import CatalogSync.Naming.Name
import CatalogSync.Naming.Tag
import CatalogSync.Number.Binary64
import CatalogSync.Number.Natural
import CatalogSync.Number.Shortest
import CatalogSync.Order.SortedMap
import CatalogSync.Proofs.Catalog.Addresses
import CatalogSync.Proofs.Catalog.Encoding
import CatalogSync.Proofs.Catalog.Merge
import CatalogSync.Proofs.Catalog.Precedence
import CatalogSync.Proofs.Catalog.Presence
import CatalogSync.Proofs.Catalog.Recovery
import CatalogSync.Proofs.Catalog.Stream
import CatalogSync.Proofs.Catalog.Validity
import CatalogSync.Proofs.Correlation.Choice
import CatalogSync.Proofs.Correlation.Evidence
import CatalogSync.Proofs.Correlation.Matching
import CatalogSync.Proofs.Correlation.Precedence
import CatalogSync.Proofs.Correlation.Sightings
import CatalogSync.Proofs.Deployment.Readiness
import CatalogSync.Proofs.Effect.Ensures
import CatalogSync.Proofs.Effect.Interleaving
import CatalogSync.Proofs.Effect.Retry
import CatalogSync.Proofs.Effect.Trace
import CatalogSync.Proofs.Http.Target
import CatalogSync.Proofs.Json.RoundTrip
import CatalogSync.Proofs.Naming.Collision
import CatalogSync.Proofs.Naming.ImportKey
import CatalogSync.Proofs.Naming.KeyGrammar
import CatalogSync.Proofs.Naming.Name
import CatalogSync.Proofs.Naming.NormalForm
import CatalogSync.Proofs.Naming.Tag
import CatalogSync.Proofs.Number.Natural
import CatalogSync.Proofs.Order.Membership
import CatalogSync.Proofs.Registry.CardAddress
import CatalogSync.Proofs.Registry.Consistency
import CatalogSync.Proofs.Registry.Consultation
import CatalogSync.Proofs.Registry.Listing
import CatalogSync.Proofs.Registry.PageChain
import CatalogSync.Proofs.Registry.Paging
import CatalogSync.Proofs.Settings.Config
import CatalogSync.Proofs.Storage.Attempts
import CatalogSync.Proofs.Storage.Calls
import CatalogSync.Proofs.Storage.Changes
import CatalogSync.Proofs.Storage.Commutation
import CatalogSync.Proofs.Storage.Contention
import CatalogSync.Proofs.Storage.Delivery
import CatalogSync.Proofs.Storage.Deposit
import CatalogSync.Proofs.Storage.Depot
import CatalogSync.Proofs.Storage.Exchanges
import CatalogSync.Proofs.Storage.History
import CatalogSync.Proofs.Storage.Lives
import CatalogSync.Proofs.Storage.Locking
import CatalogSync.Proofs.Storage.MapBackend
import CatalogSync.Proofs.Storage.Notices
import CatalogSync.Proofs.Storage.Notification
import CatalogSync.Proofs.Storage.Payload
import CatalogSync.Proofs.Storage.Pool
import CatalogSync.Proofs.Storage.Pruning
import CatalogSync.Proofs.Storage.Redelivery
import CatalogSync.Proofs.Storage.Routing
import CatalogSync.Proofs.Storage.Serializability
import CatalogSync.Proofs.Storage.Wire
import CatalogSync.Proofs.Sync.Acceptance
import CatalogSync.Proofs.Sync.Agreement
import CatalogSync.Proofs.Sync.Beside
import CatalogSync.Proofs.Sync.Calls
import CatalogSync.Proofs.Sync.FullPass
import CatalogSync.Proofs.Sync.KeySet
import CatalogSync.Proofs.Sync.Lasting
import CatalogSync.Proofs.Sync.Operations
import CatalogSync.Proofs.Sync.Overlap
import CatalogSync.Proofs.Sync.Passes
import CatalogSync.Proofs.Sync.Publication
import CatalogSync.Proofs.Sync.Repetition
import CatalogSync.Proofs.Sync.Requests
import CatalogSync.Proofs.Sync.Senders
import CatalogSync.Proofs.Sync.Sending
import CatalogSync.Proofs.Sync.StrayRecords
import CatalogSync.Proofs.Sync.Subjects
import CatalogSync.Proofs.Sync.Synchronisation
import CatalogSync.Proofs.Sync.Warrant
import CatalogSync.Proofs.Sync.World
import CatalogSync.Proofs.Text.Base64
import CatalogSync.Proofs.Text.Form
import CatalogSync.Proofs.Text.Split
import CatalogSync.Proofs.Text.Trim
import CatalogSync.Proofs.Time.Instant
import CatalogSync.Proofs.Time.Span
import CatalogSync.Proofs.Yaml.Lines
import CatalogSync.Proofs.Yaml.Stream
import CatalogSync.Provenance
import CatalogSync.Registry.Discovery
import CatalogSync.Registry.Entity
import CatalogSync.Registry.Property
import CatalogSync.Registry.Query
import CatalogSync.Registry.Rest
import CatalogSync.Registry.Snapshot
import CatalogSync.Settings.Choice
import CatalogSync.Settings.Config
import CatalogSync.Settings.Document
import CatalogSync.Settings.RouteHint
import CatalogSync.Storage.Backend
import CatalogSync.Storage.Client
import CatalogSync.Storage.ConfigMap
import CatalogSync.Storage.Exchange
import CatalogSync.Storage.Notifier
import CatalogSync.Storage.Record
import CatalogSync.Storage.Router
import CatalogSync.Storage.Service
import CatalogSync.Storage.Wire
import CatalogSync.Sync.Bridge
import CatalogSync.Sync.Controller
import CatalogSync.Sync.Cycle
import CatalogSync.Sync.Pass
import CatalogSync.Sync.PassLoop
import CatalogSync.Sync.Publish
import CatalogSync.Sync.Surroundings
import CatalogSync.Text.Base64
import CatalogSync.Text.Cased
import CatalogSync.Text.Class
import CatalogSync.Text.Form
import CatalogSync.Text.LowerCase
import CatalogSync.Text.Split
import CatalogSync.Text.Utf8
import CatalogSync.Time.Instant
import CatalogSync.Time.Relaxed
import CatalogSync.Time.Span
import CatalogSync.Yaml.Node
import CatalogSync.Yaml.Resolution
import CatalogSync.Yaml.Scalar
