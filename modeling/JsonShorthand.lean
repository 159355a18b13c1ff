import JsonShorthand.Main
import JsonShorthand.Proofs.Assignment
import JsonShorthand.Proofs.Caret
import JsonShorthand.Proofs.CommandLine
import JsonShorthand.Proofs.DottedPaths
import JsonShorthand.Proofs.Enumeration
import JsonShorthand.Proofs.Evaluation
import JsonShorthand.Proofs.FaultOrder
import JsonShorthand.Proofs.Indentation
import JsonShorthand.Proofs.Joining
import JsonShorthand.Proofs.JsonRoundTrip
import JsonShorthand.Proofs.MergeLaws
import JsonShorthand.Proofs.Noninterference
import JsonShorthand.Proofs.Printing
import JsonShorthand.Proofs.Quotation
import JsonShorthand.Proofs.RawLiterals
import JsonShorthand.Proofs.Replay
import JsonShorthand.Proofs.Reuse
import JsonShorthand.Proofs.Substitution
import JsonShorthand.Proofs.Tiling
import JsonShorthand.Proofs.ViablePrefix
