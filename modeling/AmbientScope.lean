import AmbientScope.Main
import AmbientScope.Scenario.Replay
import AmbientScope.Scope.Script
import AmbientScope.Session
import AmbientScope.Text.Interner
import AmbientScope.Proofs.Calls
import AmbientScope.Proofs.WalkBound
import AmbientScope.Proofs.Nested
import AmbientScope.Proofs.WalkSteps
import AmbientScope.Proofs.Expansion
import AmbientScope.Proofs.Contributions
import AmbientScope.Proofs.SessionExactness
import AmbientScope.Proofs.Parallel
import AmbientScope.Proofs.Interleaving
import AmbientScope.Proofs.Duplicates
import AmbientScope.Proofs.Unrolling
import AmbientScope.Proofs.Permanence
import AmbientScope.Proofs.Visits
import AmbientScope.Proofs.FreshSummaries
import AmbientScope.Proofs.Findings
import AmbientScope.Proofs.Hiding
import AmbientScope.Proofs.HiddenRuns
import AmbientScope.Proofs.HiddenReports
import AmbientScope.Proofs.Execution
import AmbientScope.Proofs.Refusals
import AmbientScope.Proofs.ExpandedExecution
import AmbientScope.Proofs.FilledTemplates
import AmbientScope.Proofs.Replays
import AmbientScope.Proofs.ReplayedScopes
import AmbientScope.Proofs.ReplaySteps
import AmbientScope.Proofs.BindingNames
import AmbientScope.Proofs.Agreement
import AmbientScope.Proofs.NameIndex
import AmbientScope.Proofs.LoweredGraphs
import AmbientScope.Proofs.ScopeStores
import AmbientScope.Proofs.EnclosingFrames
import AmbientScope.Proofs.Environments
import AmbientScope.Proofs.LexicalScopes
import AmbientScope.Proofs.RestoredScopes
import AmbientScope.Proofs.TypedResolution
import AmbientScope.Proofs.ScriptedScopes
import AmbientScope.Proofs.Forks
import AmbientScope.Proofs.SortedReports
import AmbientScope.Proofs.RuleToggles
import AmbientScope.Proofs.DeclarationOrder
import AmbientScope.Proofs.UnrelatedPrograms
import AmbientScope.Proofs.ProgramTexts
import AmbientScope.Proofs.CallPaths
import AmbientScope.Proofs.HiddenFlow
import AmbientScope.Proofs.AddedWrappers
import AmbientScope.Proofs.WrapperSummaries
import AmbientScope.Proofs.AnalysisCounts
