import BenchLedger.Http.Service
import BenchLedger.Main
import BenchLedger.Proofs.AcceptedEntries
import BenchLedger.Proofs.AppendedEntries
import BenchLedger.Proofs.ArrivalOrder
import BenchLedger.Proofs.BackgroundWork
import BenchLedger.Proofs.CommandEffects
import BenchLedger.Proofs.CommandRuns
import BenchLedger.Proofs.Comparisons
import BenchLedger.Proofs.CompositeGrammar
import BenchLedger.Proofs.DateWindows
import BenchLedger.Proofs.DiffPartition
import BenchLedger.Proofs.DocumentImport
import BenchLedger.Proofs.DoubleOrder
import BenchLedger.Proofs.Durability
import BenchLedger.Proofs.EntryDrafts
import BenchLedger.Proofs.ExportImport
import BenchLedger.Proofs.FileEffects
import BenchLedger.Proofs.FirstFaults
import BenchLedger.Proofs.FlushOutcomes
import BenchLedger.Proofs.FlushRuns
import BenchLedger.Proofs.GatheringSessions
import BenchLedger.Proofs.IngestOutcomes
import BenchLedger.Proofs.LastingHistories
import BenchLedger.Proofs.LoneFlush
import BenchLedger.Proofs.LooserThresholds
import BenchLedger.Proofs.MarkdownTables
import BenchLedger.Proofs.MeasureRecords
import BenchLedger.Proofs.OppositeDirections
import BenchLedger.Proofs.PathText
import BenchLedger.Proofs.PolarityLists
import BenchLedger.Proofs.PrimaryUnits
import BenchLedger.Proofs.ReachedSessions
import BenchLedger.Proofs.RecordAttribution
import BenchLedger.Proofs.RegressionChecks
import BenchLedger.Proofs.RepositoryUrl
import BenchLedger.Proofs.RequestEffects
import BenchLedger.Proofs.Restart
import BenchLedger.Proofs.ReversedComparisons
import BenchLedger.Proofs.RunNotes
import BenchLedger.Proofs.SavedFiles
import BenchLedger.Proofs.ScriptForm
import BenchLedger.Proofs.SeriesSummaries
import BenchLedger.Proofs.Shutdown
import BenchLedger.Proofs.UnattendedSessions
import BenchLedger.Proofs.WaitingSessions
import BenchLedger.Proofs.WakeUps
import BenchLedger.Run.Draft
import BenchLedger.Settings.Basic
