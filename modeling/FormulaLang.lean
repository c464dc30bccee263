import FormulaLang.Main
import FormulaLang.Proofs.Canonical.Blanks
import FormulaLang.Proofs.Canonical.Composition
import FormulaLang.Proofs.Evaluation.Accumulation
import FormulaLang.Proofs.Evaluation.Variables
import FormulaLang.Proofs.Expr.Pruning
import FormulaLang.Proofs.Folding.NormalForm
import FormulaLang.Proofs.Folding.Order
import FormulaLang.Proofs.Grammar.Diagnosis
import FormulaLang.Proofs.Grammar.Recursion
import FormulaLang.Proofs.Grammar.Reports
import FormulaLang.Proofs.Lexical.Recovery
import FormulaLang.Proofs.Session.Arity
import FormulaLang.Proofs.Session.Failure
import FormulaLang.Proofs.Session.Generation
import FormulaLang.Proofs.Session.Retention
