import TenantGate.Gate.Bench
import TenantGate.Main
import TenantGate.Proofs.Addresses
import TenantGate.Proofs.Alike
import TenantGate.Proofs.AskedAlike
import TenantGate.Proofs.Asking
import TenantGate.Proofs.ByteOrder
import TenantGate.Proofs.Callers
import TenantGate.Proofs.Cancellation
import TenantGate.Proofs.Candidates
import TenantGate.Proofs.Carriers
import TenantGate.Proofs.Checkpoints
import TenantGate.Proofs.ClassifiedCalls
import TenantGate.Proofs.ConfigLayers
import TenantGate.Proofs.ConfigValues
import TenantGate.Proofs.CrashReports
import TenantGate.Proofs.Decision
import TenantGate.Proofs.DirectoryHistory
import TenantGate.Proofs.Dispatch
import TenantGate.Proofs.Endpoints
import TenantGate.Proofs.ErrorAnswers
import TenantGate.Proofs.Events
import TenantGate.Proofs.Exchanges
import TenantGate.Proofs.FailedCalls
import TenantGate.Proofs.FailureProblems
import TenantGate.Proofs.FileIntegers
import TenantGate.Proofs.HeadRequests
import TenantGate.Proofs.HealthHistory
import TenantGate.Proofs.IdentifierGrammar
import TenantGate.Proofs.Identifiers
import TenantGate.Proofs.Interleaving
import TenantGate.Proofs.Journeys
import TenantGate.Proofs.JsonFaults
import TenantGate.Proofs.JsonGrammar
import TenantGate.Proofs.JsonIsolated
import TenantGate.Proofs.JsonLaws
import TenantGate.Proofs.JsonLists
import TenantGate.Proofs.JsonMaps
import TenantGate.Proofs.JsonMarks
import TenantGate.Proofs.JsonMembers
import TenantGate.Proofs.JsonNumbers
import TenantGate.Proofs.JsonOutcomes
import TenantGate.Proofs.JsonPresentation
import TenantGate.Proofs.JsonReading
import TenantGate.Proofs.JsonRecords
import TenantGate.Proofs.JsonShapes
import TenantGate.Proofs.JsonSkipped
import TenantGate.Proofs.JsonSkipping
import TenantGate.Proofs.JsonSoleField
import TenantGate.Proofs.JsonSpelling
import TenantGate.Proofs.JsonText
import TenantGate.Proofs.Layers
import TenantGate.Proofs.Ledgers
import TenantGate.Proofs.MaskedServices
import TenantGate.Proofs.Masking
import TenantGate.Proofs.MediaTypes
import TenantGate.Proofs.Memories
import TenantGate.Proofs.MetricsBalance
import TenantGate.Proofs.MovedServices
import TenantGate.Proofs.Numerals
import TenantGate.Proofs.OwnAnswers
import TenantGate.Proofs.Passages
import TenantGate.Proofs.Percent
import TenantGate.Proofs.Placeholders
import TenantGate.Proofs.Probes
import TenantGate.Proofs.RouteTables
import TenantGate.Proofs.Runs
import TenantGate.Proofs.Sendable
import TenantGate.Proofs.Serving
import TenantGate.Proofs.SettingsHistory
import TenantGate.Proofs.SettingsRoute
import TenantGate.Proofs.SharedSlots
import TenantGate.Proofs.ShownSettings
import TenantGate.Proofs.SideBySide
import TenantGate.Proofs.SocketTexts
import TenantGate.Proofs.Spellings
import TenantGate.Proofs.Starting
import TenantGate.Proofs.SuppliedTenant
import TenantGate.Proofs.Tallies
import TenantGate.Proofs.Utf8Reading
import TenantGate.Proofs.Verdicts
import TenantGate.Proofs.WireFormats
