import Readings.Analysis.Assignment
import Readings.Analysis.Batch
import Readings.Analysis.Session
import Readings.Command.Directory
import Readings.Main
import Readings.Time.Clock
import Readings.Proofs.AmbiguityPoints
import Readings.Proofs.CacheAccounts
import Readings.Proofs.CappedCharts
import Readings.Proofs.EndingRequests
import Readings.Proofs.FailureReports
import Readings.Proofs.FilteredAnalysis
import Readings.Proofs.GrammarValidation
import Readings.Proofs.SessionRuns
import Readings.Proofs.GroupedEntries
import Readings.Proofs.SurvivingRoutes
import Readings.Proofs.RepeatedPruning
import Readings.Proofs.SharedPrefixes
import Readings.Proofs.EmptyParses
import Readings.Proofs.DebounceWaits
import Readings.Proofs.SeparateGrammars
import Readings.Proofs.LeastValuable
import Readings.Proofs.CorruptedEntries
import Readings.Proofs.MaximalEdits
import Readings.Proofs.ForestForm
import Readings.Proofs.EditDistance
import Readings.Proofs.LaidOutWords
import Readings.Proofs.NormalizedWords
import Readings.Proofs.StableRanking
import Readings.Proofs.LeftmostDerivation
import Readings.Proofs.OffendingWords
import Readings.Proofs.BoundedWorklist
