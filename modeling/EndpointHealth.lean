import EndpointHealth.Main
import EndpointHealth.Prober.Script
import EndpointHealth.Proofs.Json.Words
import EndpointHealth.Proofs.Prober.History
import EndpointHealth.Proofs.Prober.Steps
import EndpointHealth.Proofs.Prober.Outcomes
import EndpointHealth.Proofs.Prober.Forgetting
import EndpointHealth.Proofs.Prober.Coverage
import EndpointHealth.Proofs.Prober.Exchanges
import EndpointHealth.Proofs.Prober.Turns
import EndpointHealth.Proofs.Prober.Timing
import EndpointHealth.Proofs.Prober.Numbering
import EndpointHealth.Proofs.Prober.Mirroring
import EndpointHealth.Proofs.Prober.Projection
import EndpointHealth.Proofs.Prober.Reduction
import EndpointHealth.Proofs.Prober.Echoes
import EndpointHealth.Proofs.Prober.Isolation
import EndpointHealth.Proofs.Prober.Probed
import EndpointHealth.Proofs.Prober.ManualTests
import EndpointHealth.Proofs.Registry.Ids
import EndpointHealth.Proofs.Registry.Keys
import EndpointHealth.Proofs.Registry.Rows
import EndpointHealth.Proofs.Registry.Catalogs
import EndpointHealth.Proofs.Registry.Book
import EndpointHealth.Proofs.Registry.Calls
import EndpointHealth.Proofs.Registry.Deeds
import EndpointHealth.Proofs.Service.Sections
import EndpointHealth.Proofs.Service.Removal
import EndpointHealth.Proofs.Service.Shadows
import EndpointHealth.Proofs.Http.Agreement
import EndpointHealth.Proofs.Http.Refusals
import EndpointHealth.Proofs.Http.Secrecy
import EndpointHealth.Proofs.Service.Bookkeeping
import EndpointHealth.Proofs.Http.Chronicles
import EndpointHealth.Proofs.Client.Answers
import EndpointHealth.Proofs.Http.Addresses
import EndpointHealth.Proofs.Http.Defaults
import EndpointHealth.Proofs.Http.Validity
import EndpointHealth.Proofs.Client.Blanks
import EndpointHealth.Proofs.Json.Shapes
import EndpointHealth.Proofs.Json.Documents
import EndpointHealth.Proofs.Client.Verdicts
import EndpointHealth.Proofs.Service.Readings
import EndpointHealth.Proofs.Prober.Journals
import EndpointHealth.Proofs.Prober.Schedules
import EndpointHealth.Proofs.Prober.Punctuality
import EndpointHealth.Proofs.Text.Order
import EndpointHealth.Proofs.Json.Values
import EndpointHealth.Proofs.Catalog.Merging
import EndpointHealth.Proofs.Catalog.Documents
import EndpointHealth.Proofs.Catalog.Folders
import EndpointHealth.Proofs.Registry.Seeding
import EndpointHealth.Proofs.Prober.Newcomers
import EndpointHealth.Proofs.Service.Launches
import EndpointHealth.Proofs.Service.Wordings
import EndpointHealth.Proofs.Prober.Observing
import EndpointHealth.Proofs.Http.Listings
import EndpointHealth.Proofs.Client.Bases
import EndpointHealth.Proofs.Prober.Holders
import EndpointHealth.Proofs.Prober.Reports
import EndpointHealth.Proofs.Prober.Watching
import EndpointHealth.Proofs.Http.Trials
