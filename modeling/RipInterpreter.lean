import RipInterpreter.Main
import RipInterpreter.Proofs.Machine.ObjectsOnly
import RipInterpreter.Proofs.Evaluation.OwnFrame
import RipInterpreter.Proofs.Concrete.Literals
import RipInterpreter.Proofs.Evaluation.Cleanup
import RipInterpreter.Proofs.Evaluation.StableValues
import RipInterpreter.Proofs.Concrete.Approximation
import RipInterpreter.Proofs.Concrete.Progress
import RipInterpreter.Proofs.Syntax.AssignedCalls
import RipInterpreter.Proofs.Syntax.ReadableTrees
import RipInterpreter.Proofs.Parsing.Places
import RipInterpreter.Proofs.Parsing.Stretches
import RipInterpreter.Proofs.Parsing.KeptFailures
import RipInterpreter.Proofs.Concrete.Layout
import RipInterpreter.Proofs.Concrete.TextOrder
import RipInterpreter.Proofs.Evaluation.IntegerArithmetic
import RipInterpreter.Proofs.Evaluation.IntegerOrder
import RipInterpreter.Proofs.Evaluation.ModuleRuns
import RipInterpreter.Proofs.Evaluation.BareRuns
import RipInterpreter.Proofs.Evaluation.Ancestry
import RipInterpreter.Proofs.Evaluation.Sparing
import RipInterpreter.Proofs.Evaluation.Attribution
import RipInterpreter.Proofs.Concrete.Diagnostics
import RipInterpreter.Proofs.Evaluation.ErrorPlaces
import RipInterpreter.Proofs.Evaluation.Returns
import RipInterpreter.Proofs.Syntax.OperatorChains
import RipInterpreter.Proofs.Concrete.Seats
import RipInterpreter.Proofs.Concrete.Listings
import RipInterpreter.Proofs.Concrete.Factoring
import RipInterpreter.Proofs.Concrete.OneLine
import RipInterpreter.Proofs.Forests
import RipInterpreter.Proofs.Evaluation.TruthValues
import RipInterpreter.Proofs.Evaluation.EqualContent
import RipInterpreter.Proofs.Evaluation.NumberLiterals
import RipInterpreter.Proofs.Evaluation.OverloadChoice
import RipInterpreter.Proofs.Evaluation.Handlers
import RipInterpreter.Proofs.Evaluation.Rebinding
import RipInterpreter.Proofs.Evaluation.AncestorOrder
import RipInterpreter.Proofs.Evaluation.PropertyChains
import RipInterpreter.Proofs.Evaluation.ComputedProperties
import RipInterpreter.Proofs.Evaluation.InterpolatedTexts
import RipInterpreter.Proofs.Syntax.WrittenTexts
import RipInterpreter.Proofs.Syntax.TextFragments
import RipInterpreter.Proofs.Syntax.KeptMembers
import RipInterpreter.Proofs.Syntax.Listings
