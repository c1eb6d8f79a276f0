import LineAsm.Main
import LineAsm.Proofs.Failures
import LineAsm.Proofs.Termination
import LineAsm.Proofs.Budget
import LineAsm.Proofs.Blocks
import LineAsm.Proofs.Operands
import LineAsm.Proofs.Origins
import LineAsm.Proofs.Nesting
import LineAsm.Proofs.Spelling
import LineAsm.Proofs.Conditionals
import LineAsm.Proofs.Inlining
import LineAsm.Proofs.Footprint
import LineAsm.Proofs.Advisers
import LineAsm.Proofs.LooseEnds
import LineAsm.Proofs.Splitting
import LineAsm.Proofs.Unrecognized
import LineAsm.Proofs.Limits
import LineAsm.Proofs.Loops
import LineAsm.Proofs.Persistence
import LineAsm.Proofs.Representatives
import LineAsm.Proofs.RoundTrip
import LineAsm.Proofs.Bodies
import LineAsm.Proofs.Levels
import LineAsm.Proofs.Grammar
import LineAsm.Proofs.Completion
import LineAsm.Proofs.Reload
import LineAsm.Proofs.Arithmetic
import LineAsm.Proofs.Declarations
import LineAsm.Proofs.WordPairs
import LineAsm.Proofs.ByteOrder
import LineAsm.Proofs.Stores
import LineAsm.Proofs.Containers
import LineAsm.Proofs.LineDivision
import LineAsm.Proofs.Readers
