import Deduction.CommandLine.Terminal
import Deduction.Main
import Deduction.Proofs.DomainSoundness
import Deduction.Proofs.Soundness
import Deduction.Session
import Deduction.Proofs.Binding
import Deduction.Proofs.Reordering
import Deduction.Proofs.Coherence
import Deduction.Proofs.Evaluation
import Deduction.Proofs.BindingOrder
import Deduction.Proofs.Update
import Deduction.Proofs.Formation
import Deduction.Proofs.Membership
import Deduction.Proofs.Readability
import Deduction.Proofs.Rechecking
import Deduction.Proofs.Growth
import Deduction.Proofs.Images
import Deduction.Proofs.Replacement
import Deduction.Proofs.Witnesses
import Deduction.Proofs.Numerals
import Deduction.Proofs.Arithmetic
import Deduction.Proofs.Expressions
import Deduction.Proofs.Naturals
import Deduction.Proofs.Orderings
import Deduction.Proofs.Inclusion
import Deduction.Proofs.Opening
import Deduction.Proofs.Stalling
import Deduction.Proofs.Listing
import Deduction.Proofs.Streams
import Deduction.Proofs.Derivations
import Deduction.Proofs.Literals
import Deduction.Proofs.Applications
import Deduction.Proofs.Negation
import Deduction.Proofs.Skeleton
import Deduction.Proofs.Renamings
import Deduction.Proofs.Levels
import Deduction.Proofs.Freshness
