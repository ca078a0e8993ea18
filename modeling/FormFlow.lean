import FormFlow.Catalog.Loading
import FormFlow.Main
import FormFlow.Proofs.Run.Answers
import FormFlow.Proofs.Run.Trace
import FormFlow.Proofs.Compilation.Nesting
import FormFlow.Proofs.Compilation.Totality
import FormFlow.Proofs.Compilation.Plans
import FormFlow.Proofs.Factory.Plans
import FormFlow.Proofs.Factory.Limits
import FormFlow.Proofs.Factory.Asynchrony
import FormFlow.Proofs.Cache.Interleaving
import FormFlow.Proofs.Nesting.Agreement
import FormFlow.Proofs.Run.Nested
import FormFlow.Proofs.Types.Values
import FormFlow.Proofs.Types.Integers
import FormFlow.Proofs.Types.Acceptance
import FormFlow.Proofs.Types.Runs
import FormFlow.Proofs.Json.Quote
import FormFlow.Proofs.Secrets.Masking
import FormFlow.Proofs.Secrets.Prompts
import FormFlow.Proofs.Secrets.Indifference
import FormFlow.Proofs.Secrets.Reports
import FormFlow.Proofs.Secrets.Positions
import FormFlow.Proofs.Compilation.Success
import FormFlow.Proofs.Compilation.Context
import FormFlow.Proofs.Compilation.Correspondence
import FormFlow.Proofs.Compilation.Stack
import FormFlow.Proofs.Run.FailurePaths
import FormFlow.Proofs.Run.Cancellation
import FormFlow.Proofs.Run.Listing
import FormFlow.Proofs.Run.Frame
import FormFlow.Proofs.Run.Retry
import FormFlow.Proofs.Run.Culture
import FormFlow.Proofs.Declaration.RoundTrip
import FormFlow.Proofs.Compilation.Tags
import FormFlow.Proofs.Compilation.Signatures
import FormFlow.Proofs.Compilation.Bindings
import FormFlow.Proofs.Compilation.Construction
import FormFlow.Proofs.Run.Selection
import FormFlow.Proofs.Run.WellFormed
import FormFlow.Proofs.Compilation.Locality
import FormFlow.Proofs.Compilation.WellFormed
import FormFlow.Proofs.Catalog.Validation
import FormFlow.Proofs.CommandLine.Assignment
