import BoardHealth.Profile.Loading
import BoardHealth.Monitor.Run
import BoardHealth.Proofs.Ledger
import BoardHealth.Proofs.Rejections
import BoardHealth.Proofs.LatchCourse
import BoardHealth.Proofs.RefreshSchedule
import BoardHealth.Proofs.Limits
import BoardHealth.Proofs.Engagement
import BoardHealth.Proofs.SafeOverrides
import BoardHealth.Proofs.Warnings
import BoardHealth.Proofs.Log
import BoardHealth.Proofs.Score
import BoardHealth.Proofs.WorseBoard
import BoardHealth.Proofs.Interference
import BoardHealth.Proofs.Json.Grammar
import BoardHealth.Proofs.Json.Tokens
import BoardHealth.Proofs.Json.Strings
import BoardHealth.Proofs.Json.Values
import BoardHealth.Proofs.Json.Scalars
import BoardHealth.Proofs.Json.Members
import BoardHealth.Proofs.Json.Lists
import BoardHealth.Proofs.Json.Entries
import BoardHealth.Proofs.ProfileDocuments
import BoardHealth.Proofs.Json.Numerals
import BoardHealth.Proofs.Json.Written
import BoardHealth.Proofs.ProfileReload
import BoardHealth.Proofs.RoundTrips
import BoardHealth.Proofs.LateRequests
import BoardHealth.Proofs.BlankReport
import BoardHealth.Proofs.Json.AnyValue
import BoardHealth.Proofs.Json.Strict
import BoardHealth.Proofs.Json.Components
import BoardHealth.Proofs.StrictDocuments
import BoardHealth.Proofs.Json.Cuts
import BoardHealth.Proofs.Json.CutTokens
import BoardHealth.Proofs.Json.CutValues
import BoardHealth.Proofs.Json.CutRecords
import BoardHealth.Proofs.TruncatedDocuments
import BoardHealth.Proofs.OneStart
import BoardHealth.Proofs.ExactScore
import BoardHealth.Proofs.AuditBounds
import BoardHealth.Proofs.PublishedState
import BoardHealth.Proofs.Json.WholeNumerals
import BoardHealth.Proofs.LoadedProfiles
import BoardHealth.Proofs.RestoredHistory
import BoardHealth.Proofs.UnboundedThrottle
import BoardHealth.Proofs.LatchOrder
import BoardHealth.Proofs.Verdicts
