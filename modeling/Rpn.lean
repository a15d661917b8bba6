import Rpn.Directory
import Rpn.Main
import Rpn.Proofs.Brackets
import Rpn.Proofs.Marking
import Rpn.Proofs.Verdict
import Rpn.Proofs.Emission
import Rpn.Proofs.Reading
import Rpn.Proofs.Slices
import Rpn.Proofs.Tokenization
import Rpn.Proofs.Grammar
import Rpn.Proofs.Spelling
import Rpn.Proofs.Grouping
import Rpn.Proofs.Meaning
import Rpn.Proofs.Shape
import Rpn.Proofs.Modes
import Rpn.Proofs.Rereading
import Rpn.Proofs.MinusSigns
import Rpn.Proofs.Frames
import Rpn.Proofs.Groups
import Rpn.Proofs.Outcomes
import Rpn.Proofs.Pointing
import Rpn.Proofs.Formulas
import Rpn.Proofs.Origins
import Rpn.Proofs.Cuts
import Rpn.Proofs.Enclosed
import Rpn.Proofs.Insertion
import Rpn.Proofs.Concatenation
import Rpn.Proofs.Separation
import Rpn.Proofs.Acceptance
import Rpn.Proofs.BatchOutput
import Rpn.Proofs.Prompt
import Rpn.Proofs.Arguments
import Rpn.Proofs.Choices
import Rpn.Proofs.Visibility
import Rpn.Proofs.Accounts
import Rpn.Proofs.Tracing
import Rpn.Proofs.Covering
import Rpn.Proofs.Pending
import Rpn.Proofs.Places
