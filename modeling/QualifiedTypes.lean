import QualifiedTypes.Check
import QualifiedTypes.Prelude.Standard
import QualifiedTypes.Proofs.Desugaring
import QualifiedTypes.Proofs.Equations
import QualifiedTypes.Proofs.Freshness
import QualifiedTypes.Proofs.Hygiene
import QualifiedTypes.Proofs.KindSafety
import QualifiedTypes.Proofs.WellFormed
import QualifiedTypes.Report
import QualifiedTypes.Proofs.Erasure
import QualifiedTypes.Proofs.Overlap
import QualifiedTypes.Proofs.ReducedContexts
import QualifiedTypes.Proofs.Hierarchy
import QualifiedTypes.Proofs.Termination
import QualifiedTypes.Proofs.Givens
import QualifiedTypes.Proofs.CanonicalContexts
import QualifiedTypes.Proofs.SignatureKinds
import QualifiedTypes.Proofs.SolvedForms
import QualifiedTypes.Proofs.Derivations
import QualifiedTypes.Proofs.ErrorOffsets
import QualifiedTypes.Proofs.Readability
import QualifiedTypes.Proofs.Quantification
import QualifiedTypes.Proofs.SubstitutionLaws
