import CommentLint.Json.Reader
import CommentLint.Main
import CommentLint.Proofs.CommandLine.ScanRuns
import CommentLint.Proofs.Config.MalformedSeverities
import CommentLint.Proofs.Gate.Leniency
import CommentLint.Proofs.Lexer.AsciiSteering
import CommentLint.Proofs.Lexer.CommentGrammar
import CommentLint.Proofs.Lexer.LexicalRules
import CommentLint.Proofs.Lexer.LineCut
import CommentLint.Proofs.Report.Lossless
import CommentLint.Proofs.Report.TextLines
import CommentLint.Proofs.Rule.FileOrder
import CommentLint.Proofs.Rule.LineEndings
import CommentLint.Proofs.Rule.MarkedBytes
import CommentLint.Proofs.Rule.PassingExamples
import CommentLint.Proofs.Scan.DirectiveText
import CommentLint.Proofs.Scan.LineDirectives
import CommentLint.Proofs.Scan.NormalForm
import CommentLint.Proofs.Scan.Relocation
import CommentLint.Proofs.Scan.SingleFiles
import CommentLint.Proofs.Source.CharacterBoundaries
import CommentLint.Rule.Example
import CommentLint.Proofs.Lexer.LiteralLines
import CommentLint.Proofs.Rule.AnchoredPattern
import CommentLint.Proofs.Report.Tallies
