import UsageDiary.Database
import UsageDiary.Views
import UsageDiary.Proofs.Calendar.Order
import UsageDiary.Proofs.Zone.Regular
import UsageDiary.Proofs.Merge.Placement
import UsageDiary.Proofs.Day.Growth
import UsageDiary.Proofs.Merge.Recording
import UsageDiary.Proofs.Merge.Step
import UsageDiary.Proofs.Merge.Closed
import UsageDiary.Proofs.Merge.Effect
import UsageDiary.Proofs.Cache.Coherent
import UsageDiary.Proofs.Cache.Latest
import UsageDiary.Proofs.Merge.Acceptance
import UsageDiary.Proofs.Day.Order
import UsageDiary.Proofs.Week.Entries
import UsageDiary.Proofs.Ledger.Basic
import UsageDiary.Proofs.Ledger.Recording
import UsageDiary.Proofs.Ledger.Upkeep
import UsageDiary.Proofs.Ledger.Agreement
import UsageDiary.Proofs.Merge.Reach
import UsageDiary.Proofs.Ids
import UsageDiary.Proofs.Merge.Atomic
import UsageDiary.Proofs.Week.Mirror
import UsageDiary.Proofs.Cache.Blind
import UsageDiary.Proofs.Cache.Loss
import UsageDiary.Proofs.Merge.Windows
import UsageDiary.Proofs.Day.Tidy
import UsageDiary.Proofs.Merge.Stored
import UsageDiary.Proofs.Merge.Provenance
import UsageDiary.Proofs.Merge.Apart
import UsageDiary.Proofs.Analysis.Frame
import UsageDiary.Proofs.Analysis.Course
import UsageDiary.Proofs.Analysis.Parts
import UsageDiary.Proofs.Analysis.Requests
import UsageDiary.Proofs.Analysis.Coverage
import UsageDiary.Proofs.Analysis.Recorded
import UsageDiary.Proofs.Analysis.Notified
import UsageDiary.Proofs.Analysis.Announced
import UsageDiary.Proofs.Analysis.Veil
import UsageDiary.Proofs.Renaming
import UsageDiary.Proofs.Support
import UsageDiary.Proofs.Merge.Again
import UsageDiary.Proofs.Merge.Tandem
import UsageDiary.Proofs.Merge.Rerun
import UsageDiary.Proofs.Merge.Retry
import UsageDiary.Proofs.Merge.Redelivery
import UsageDiary.Proofs.Keys.Share
import UsageDiary.Proofs.Keys.Local
import UsageDiary.Proofs.Keys.Housed
import UsageDiary.Proofs.Keys.Interleaving
import UsageDiary.Proofs.Keys.Independent
import UsageDiary.Proofs.Text.Decimal
import UsageDiary.Proofs.Text.Hexadecimal
import UsageDiary.Proofs.Calendar.Civil
import UsageDiary.Proofs.Calendar.DateText
import UsageDiary.Proofs.Calendar.InstantText
import UsageDiary.Proofs.Json.Reader
import UsageDiary.Proofs.Json.Record
import UsageDiary.Proofs.Json.Forms
import UsageDiary.Proofs.Store.Made
import UsageDiary.Proofs.Store.Rows
import UsageDiary.Proofs.Store.Agreement
import UsageDiary.Proofs.Analysis.Since
import UsageDiary.Proofs.Analysis.Partition
import UsageDiary.Proofs.Day.Clusters
import UsageDiary.Proofs.Merge.Clusters
import UsageDiary.Proofs.Analysis.Quiet
import UsageDiary.Proofs.Analysis.Batch
import UsageDiary.Proofs.Zone.FirstInstant
import UsageDiary.Proofs.Day.Spread
import UsageDiary.Proofs.Merge.Creation
import UsageDiary.Proofs.Merge.Saves
import UsageDiary.Proofs.Merge.Touched
import UsageDiary.Proofs.Settings
import UsageDiary.Proofs.Day.Changes
import UsageDiary.Proofs.Merge.Search
import UsageDiary.Proofs.Week.Tiles
import UsageDiary.Proofs.Text.Octets
import UsageDiary.Proofs.Store.DateColumn
