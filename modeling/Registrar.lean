import Registrar.Main
import Registrar.Scope.Provider
import Registrar.Proofs.Registry.Past
import Registrar.Proofs.Registry.Lookup
import Registrar.Proofs.Registry.Alias
import Registrar.Proofs.Scope.History
import Registrar.Proofs.Scope.Settlement
import Registrar.Proofs.Scope.Account
import Registrar.Proofs.Scope.Requests
import Registrar.Proofs.Scope.Runs
import Registrar.Proofs.Scope.Conservation
import Registrar.Proofs.Scope.OneInstance
import Registrar.Proofs.Scope.Outcomes
import Registrar.Proofs.Registry.Coverage
import Registrar.Proofs.Registry.Composition
import Registrar.Proofs.Registry.Reordering
import Registrar.Proofs.Config.Extraction
import Registrar.Proofs.Config.RoundTrip
import Registrar.Proofs.Scope.Disposal
import Registrar.Proofs.Scope.Served
import Registrar.Proofs.Registry.Representation
import Registrar.Proofs.Registry.Isolation
import Registrar.Proofs.Application
import Registrar.Proofs.Config.Merging
import Registrar.Proofs.Document.Proper
import Registrar.Proofs.Config.Variables
import Registrar.Proofs.Config.Layers
import Registrar.Proofs.Scope.Course
import Registrar.Proofs.Scope.Nested
import Registrar.Proofs.Scope.Reports
import Registrar.Proofs.Scope.Retries
import Registrar.Proofs.Scope.Failures
import Registrar.Proofs.Config.Selection
import Registrar.Proofs.Config.Contents
import Registrar.Proofs.Config.Fitting
import Registrar.Proofs.Config.Overrides
import Registrar.Proofs.Text.Bytes
import Registrar.Proofs.Registry.Batch
import Registrar.Proofs.Scope.Typed
import Registrar.Proofs.Scope.Depth
import Registrar.Proofs.Scope.Ending
import Registrar.Proofs.Registry.Announcements
import Registrar.Proofs.Text.LowerCase
import Registrar.Proofs.Text.Trim
import Registrar.Proofs.Config.Acceptance
import Registrar.Proofs.Wrapping
import Registrar.Proofs.Key.TypeGrammar
import Registrar.Proofs.Key.ShortName
import Registrar.Proofs.Surface.Kind
import Registrar.Proofs.Registry.Diagnostics
import Registrar.Proofs.Text.Search
import Registrar.Proofs.Key.LongestPath
