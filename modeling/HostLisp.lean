import HostLisp.Text.Class
import HostLisp.Text.Alphanumeric
import HostLisp.Text.Visible
import HostLisp.Number
import HostLisp.Quoted
import HostLisp.Outline
import HostLisp.Token
import HostLisp.Token.Scan
import HostLisp.Node
import HostLisp.Kind
import HostLisp.Error
import HostLisp.Node.Parse
import HostLisp.Node.Render
import HostLisp.Value
import HostLisp.Signature
import HostLisp.Registry
import HostLisp.Machine
import HostLisp.Eval
import HostLisp.Library.Failure
import HostLisp.Library.Arithmetic
import HostLisp.Library.Format
import HostLisp.Library.Text
import HostLisp.Library
import HostLisp.Sink
import HostLisp.Run
import HostLisp.Command
import HostLisp.Main
import HostLisp.Proofs.HostCall
import HostLisp.Proofs.Evaluation
import HostLisp.Proofs.CallDepth
import HostLisp.Proofs.Termination
import HostLisp.Proofs.HostBoundary
import HostLisp.Proofs.Course
import HostLisp.Proofs.ScopeTree
import HostLisp.Proofs.Session
import HostLisp.Proofs.HostPrecedence
import HostLisp.Proofs.LexicalLevel
import HostLisp.Proofs.Machine
import HostLisp.Proofs.Conformity
import HostLisp.Proofs.Library
import HostLisp.Proofs.Spelling
import HostLisp.Proofs.Grammar
import HostLisp.Proofs.Derivation
import HostLisp.Proofs.Faults
import HostLisp.Proofs.Literals
import HostLisp.Proofs.RoundTrip
import HostLisp.Proofs.ScopeGrowth
import HostLisp.Proofs.Comparison
import HostLisp.Proofs.Reachability
import HostLisp.Proofs.Tiling
import HostLisp.Proofs.Concatenation
import HostLisp.Proofs.WellShaped
import HostLisp.Proofs.DepthLimit
import HostLisp.Proofs.Contents
import HostLisp.Proofs.Assignment
import HostLisp.Proofs.BoundedOutput
import HostLisp.Proofs.UnsignedValues
import HostLisp.Proofs.Digits
import HostLisp.Proofs.Escapes
import HostLisp.Proofs.StringTokens
import HostLisp.Proofs.Parameters
import HostLisp.Proofs.IntegerLiterals
import HostLisp.Proofs.BindingForms
import HostLisp.Proofs.Descent
import HostLisp.Proofs.PendingTokens
import HostLisp.Proofs.Templates
import HostLisp.Proofs.ExactArithmetic
