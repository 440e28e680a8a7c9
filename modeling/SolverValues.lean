import SolverValues.Collection
import SolverValues.Kind.Reprint
import SolverValues.Kind.Typed
import SolverValues.Kind.Width
import SolverValues.Optimum
import SolverValues.Session.Run
import SolverValues.Proofs.Kind.Reading
import SolverValues.Proofs.Ieee.Place
import SolverValues.Proofs.Ranked
import SolverValues.Proofs.ReportedReal.Order
import SolverValues.Proofs.Constant.Order
import SolverValues.Proofs.Word.Expression
import SolverValues.Proofs.Word.Suited
import SolverValues.Proofs.Yields
import SolverValues.Proofs.Sampling.Range
import SolverValues.Proofs.Session.Words
import SolverValues.Proofs.Ieee.Value
import SolverValues.Proofs.Kind.Grammar
import SolverValues.Proofs.Sampling.Inhabitants
import SolverValues.Proofs.Formula.Reading
import SolverValues.Proofs.Formula.Factor
import SolverValues.Proofs.Extended.Leaves
import SolverValues.Proofs.Extended.Layout
import SolverValues.Proofs.Extended.Meaning
import SolverValues.Proofs.Extended.Readability
import SolverValues.Proofs.Text.Separated
import SolverValues.Proofs.Text.Quoted
import SolverValues.Proofs.Constant.Literal
import SolverValues.Proofs.Kind.Order
import SolverValues.Proofs.Word.Order
import SolverValues.Proofs.Collection
import SolverValues.Proofs.Digest
import SolverValues.Proofs.Log.Threshold
import SolverValues.Proofs.Session.Log
import SolverValues.Proofs.Session.Verbosity
import SolverValues.Proofs.Text.Places
import SolverValues.Proofs.Word.Canonical
import SolverValues.Proofs.ReportedReal.Text
import SolverValues.Proofs.Sampling.Taken
import SolverValues.Proofs.Sampling.Bytes
import SolverValues.Proofs.Sampling.Uniform
import SolverValues.Proofs.Sampling.Account
import SolverValues.Proofs.Sampling.Outcome
import SolverValues.Proofs.Sampling.Consumption
import SolverValues.Proofs.Log.Note
import SolverValues.Proofs.Session.Sampling
import SolverValues.Proofs.Kind.Building
import SolverValues.Proofs.Kind.Enumeration
import SolverValues.Proofs.Kind.Names
import SolverValues.Proofs.Word.Handlers
import SolverValues.Proofs.Word.Narrowing
import SolverValues.Proofs.Extended.Annotation
import SolverValues.Proofs.Ieee.NumericOrder
import SolverValues.Proofs.Ieee.Nearest
import SolverValues.Proofs.Ieee.CorrectRounding
import SolverValues.Proofs.Ieee.Shortening
import SolverValues.Proofs.Word.Literal
import SolverValues.Proofs.Extended.Identity
