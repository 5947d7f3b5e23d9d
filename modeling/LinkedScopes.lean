import LinkedScopes.Chain.Equality
import LinkedScopes.CommandLine.Run
import LinkedScopes.Main
import LinkedScopes.Proofs.Grammar.Recognition
import LinkedScopes.Proofs.Nesting.Debt
import LinkedScopes.Proofs.Nesting.Image
import LinkedScopes.Proofs.Nesting.Limit
import LinkedScopes.Proofs.Nesting.Replay
import LinkedScopes.Proofs.Scan.Layout
import LinkedScopes.Proofs.Scan.Tiling
import LinkedScopes.Session
import LinkedScopes.Token.Cursor
import LinkedScopes.Proofs.Rule.Lookahead
import LinkedScopes.Proofs.Diagnostic.Place
import LinkedScopes.Proofs.Source.Lines
import LinkedScopes.Proofs.Diagnostic.Caret
import LinkedScopes.Proofs.Grammar.Prefix
import LinkedScopes.Proofs.Grammar.Viability
import LinkedScopes.Proofs.Grammar.Extent
import LinkedScopes.Proofs.Rule.Placement
import LinkedScopes.Proofs.Rule.Depth
import LinkedScopes.Proofs.Rule.Inheritance
import LinkedScopes.Proofs.Grammar.Writing
import LinkedScopes.Proofs.CommandLine.Logging
import LinkedScopes.Proofs.CommandLine.Output
import LinkedScopes.Proofs.Rule.Termination
import LinkedScopes.Proofs.Scan.Concatenation
import LinkedScopes.Proofs.Scan.Progress
import LinkedScopes.Proofs.Source.Program
import LinkedScopes.Proofs.Nesting.Failure
import LinkedScopes.Proofs.Nesting.Ledger
import LinkedScopes.Proofs.Source.Lookup
import LinkedScopes.Proofs.Chain.Build
import LinkedScopes.Proofs.Chain.Equality
import LinkedScopes.Proofs.Journal.Contents
import LinkedScopes.Proofs.CommandLine.Arguments
