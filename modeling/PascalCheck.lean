import PascalCheck.Analysis.Report
import PascalCheck.Analysis.Stream
import PascalCheck.Command.Run
import PascalCheck.Files.Directory
import PascalCheck.Main
import PascalCheck.Proofs.Acceptance
import PascalCheck.Proofs.Blanking
import PascalCheck.Proofs.BracketReports
import PascalCheck.Proofs.Calls
import PascalCheck.Proofs.CheckerVerdicts
import PascalCheck.Proofs.Columns
import PascalCheck.Proofs.DeclaredNames
import PascalCheck.Proofs.FirstSymbols
import PascalCheck.Proofs.IllegalCharacters
import PascalCheck.Proofs.LayoutIndependence
import PascalCheck.Proofs.Layouts
import PascalCheck.Proofs.LetterCase
import PascalCheck.Proofs.Lines
import PascalCheck.Proofs.LiteralRanges
import PascalCheck.Proofs.Literals
import PascalCheck.Proofs.LowerCase
import PascalCheck.Proofs.Names
import PascalCheck.Proofs.Options
import PascalCheck.Proofs.Progress
import PascalCheck.Proofs.RecordCalls
import PascalCheck.Proofs.RoundTrip
import PascalCheck.Proofs.RoutineBodies
import PascalCheck.Proofs.Sessions
import PascalCheck.Proofs.Silence
import PascalCheck.Proofs.SingleFaults
import PascalCheck.Proofs.SpacedTokens
import PascalCheck.Proofs.Spans
import PascalCheck.Proofs.Streams
import PascalCheck.Proofs.TokenChecks
import PascalCheck.Proofs.TokenClasses
import PascalCheck.Proofs.UndeclaredNames
import PascalCheck.Proofs.View.Basic
import PascalCheck.Proofs.View.Checks
import PascalCheck.Proofs.View.Numerals
import PascalCheck.Proofs.View.Program
import PascalCheck.Proofs.View.Reading
import PascalCheck.Source.Cursor
import PascalCheck.Tree.Printer
