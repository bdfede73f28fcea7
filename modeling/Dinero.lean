import Dinero.Rescan
import Dinero.References
import Dinero.Candidates
import Dinero.Overlap
import Dinero.ReviewQueue
import Dinero.Provenance
import Dinero.Precedence
import Dinero.FieldRules
import Dinero.InstrumentCommands
import Dinero.AuditChain
import Dinero.Recurring
import Dinero.BillingCycles
import Dinero.Alerts
import Dinero.Undo
import Dinero.Deletion
import Dinero.Scan
import Dinero.EntryCalls
import Dinero.Mandates
import Dinero.StatementRows
import Dinero.DraftCalls
import Dinero.Edits
import Dinero.UserColumns
import Dinero.Listing
import Dinero.Resolver
import Dinero.MerchantRuns
import Dinero.Renames
import Dinero.LearnedFields
import Dinero.RuleSynthesis
import Dinero.Learning
import Dinero.RegressionGuard
import Dinero.BalanceUpdates
import Dinero.ScanRequests
import Dinero.License
import Dinero.Sessions
import Dinero.Backend
import Dinero.Endpoints
import Dinero.Constraints
import Dinero.Activation
import Dinero.LicenseSync
import Dinero.Changes
import Dinero.Footprint
import Dinero.Charges
import Dinero.Entitlement
import Dinero.Growth
import Dinero.Payments
import Dinero.AuditWindow
import Dinero.TrialWindow
import Dinero.ClockRollback
import Dinero.AmbiguityMembers
import Dinero.TemplateHash
import Dinero.Numerals
import Dinero.AmountReading
import Dinero.Grounding
import Dinero.Strftime
import Dinero.DateReading
import Dinero.PrintedForms
import Dinero.RuleRanking
import Dinero.ScoreBounds
import Dinero.BatchWriter
import Dinero.Descriptors
import Dinero.Paging
import Dinero.EntryPairing
import Dinero.UpcomingBills
import Dinero.Dashboard
import Dinero.InstrumentMoney
import Dinero.Faults
import Dinero.TagEdits
import Dinero.UpdateParts
import Dinero.FieldUpdates
import Dinero.TagLinks
import Dinero.UpdateAtomicity
import Dinero.RateMeter
import Dinero.QuotaLimiter
import Dinero.Snippets
import Dinero.GreedyPacking
import Dinero.SenderQueries
import Dinero.TextLines
import Dinero.BrokenLines
import Dinero.SortedGroups
import Dinero.Layout
import Dinero.Backtrack
import Dinero.Entities
import Dinero.MimeSanitization
import Dinero.SpanRanges
import Dinero.RowFields
import Dinero.RowLlm
import Dinero.EmailPrecedence
import Dinero.RowParsers
import Dinero.PageRows
import Dinero.SenderGate
import Dinero.ContentClasses
import Dinero.SenderDesk
import Dinero.Polling
import Dinero.TokenLayer
import Dinero.Ladder
import Dinero.Warrants
import Dinero.Sidecar
import Dinero.HexText
import Dinero.Vault
import Dinero.Downloads
