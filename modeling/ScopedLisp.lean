import ScopedLisp.Main
import ScopedLisp.Store.Lemmas
import ScopedLisp.Dump
import ScopedLisp.Proofs.Classification
import ScopedLisp.Proofs.RoundTrip
import ScopedLisp.Proofs.Sequence
import ScopedLisp.Proofs.Confinement
import ScopedLisp.Proofs.Names
import ScopedLisp.Proofs.Activation
import ScopedLisp.Proofs.Binding
import ScopedLisp.Proofs.Frames
import ScopedLisp.Proofs.Rows
import ScopedLisp.Proofs.Dialect
import ScopedLisp.Proofs.Mentions
import ScopedLisp.Proofs.Calls
import ScopedLisp.Proofs.Pulled
import ScopedLisp.Proofs.Splitting
import ScopedLisp.Proofs.Descent
import ScopedLisp.Proofs.Stream
import ScopedLisp.Proofs.Visits
import ScopedLisp.Proofs.Account
import ScopedLisp.Proofs.Ledger
import ScopedLisp.Proofs.Handing
import ScopedLisp.Proofs.Identity
import ScopedLisp.Proofs.Scopes
import ScopedLisp.Proofs.Application
import ScopedLisp.Proofs.Shapes
import ScopedLisp.Proofs.Mapping
import ScopedLisp.Proofs.Wrapping
import ScopedLisp.Proofs.Domains
import ScopedLisp.Proofs.Parameters
import ScopedLisp.Proofs.Comments
import ScopedLisp.Proofs.Equality
import ScopedLisp.Proofs.Comparison
import ScopedLisp.Proofs.Atoms
import ScopedLisp.Proofs.Termination
import ScopedLisp.Proofs.LineBlocks
import ScopedLisp.Proofs.Arguments
