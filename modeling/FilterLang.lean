import FilterLang.Main
import FilterLang.Proofs.Derivation
import FilterLang.Proofs.FirstError
import FilterLang.Proofs.LimitCut
import FilterLang.Proofs.RoundTrip
import FilterLang.Proofs.Tiling
import FilterLang.Proofs.Recognition
import FilterLang.Proofs.Respacing
import FilterLang.Proofs.Reuse
import FilterLang.Proofs.Splitting
import FilterLang.Proofs.Verdicts
import FilterLang.Proofs.Anchoring
import FilterLang.Proofs.Engines
import FilterLang.Proofs.Reprinting
import FilterLang.Proofs.Resuming
import FilterLang.Proofs.JsonText
import FilterLang.Proofs.Reporting
import FilterLang.Proofs.Agreement
import FilterLang.Proofs.Omission
import FilterLang.Proofs.Outcomes
import FilterLang.Proofs.Likeness
import FilterLang.Proofs.Separation
import FilterLang.Proofs.Regrouping
import FilterLang.Proofs.Relexing
import FilterLang.Proofs.Traversal
import FilterLang.Proofs.Unspacing
import FilterLang.Proofs.Naming
