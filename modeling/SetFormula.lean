import SetFormula.CommandLine
import SetFormula.Desugar
import SetFormula.Elimination.Constants
import SetFormula.Elimination.Letters
import SetFormula.Elimination.Operators
import SetFormula.Elimination.Pass
import SetFormula.Elimination.Relations
import SetFormula.Elimination.Unfolding
import SetFormula.Entries
import SetFormula.Expr
import SetFormula.Expr.Description
import SetFormula.Expr.Parser
import SetFormula.Expr.Printer
import SetFormula.Expr.Substitution
import SetFormula.Expr.Walk
import SetFormula.Index
import SetFormula.Item
import SetFormula.Journal
import SetFormula.Main
import SetFormula.Problem
import SetFormula.Proofs.Allocation
import SetFormula.Proofs.Answers
import SetFormula.Proofs.Assembly
import SetFormula.Proofs.Cursor
import SetFormula.Proofs.DesugaredTexts
import SetFormula.Proofs.DrawnNumbers
import SetFormula.Proofs.ErrorPlaces
import SetFormula.Proofs.FreeVariables
import SetFormula.Proofs.FreshRenaming
import SetFormula.Proofs.FrontEnds
import SetFormula.Proofs.Grammar
import SetFormula.Proofs.GrammarCompleteness
import SetFormula.Proofs.GrammarSoundness
import SetFormula.Proofs.GreedyAllocation
import SetFormula.Proofs.Guarantees
import SetFormula.Proofs.Hygiene
import SetFormula.Proofs.InductiveReading
import SetFormula.Proofs.IrrelevantSwitches
import SetFormula.Proofs.Layout
import SetFormula.Proofs.LetterOrder
import SetFormula.Proofs.Letters
import SetFormula.Proofs.LexedFormulas
import SetFormula.Proofs.Lexing
import SetFormula.Proofs.LongestMatch
import SetFormula.Proofs.Loop
import SetFormula.Proofs.MatchedTrees
import SetFormula.Proofs.Meaning
import SetFormula.Proofs.Mirroring
import SetFormula.Proofs.NormalForm
import SetFormula.Proofs.Numeral
import SetFormula.Proofs.ParsedTrees
import SetFormula.Proofs.ParserRuns
import SetFormula.Proofs.PassSequences
import SetFormula.Proofs.Primitive
import SetFormula.Proofs.Printed
import SetFormula.Proofs.Relations
import SetFormula.Proofs.Rendering
import SetFormula.Proofs.RoundTrip
import SetFormula.Proofs.Scanning
import SetFormula.Proofs.Scripts
import SetFormula.Proofs.Sorts
import SetFormula.Proofs.Soundness
import SetFormula.Proofs.Spellings
import SetFormula.Proofs.SwitchHistory
import SetFormula.Proofs.Termination
import SetFormula.Proofs.Unfolds
import SetFormula.Proofs.VariableNames
import SetFormula.Proofs.VariableTokens
import SetFormula.Proofs.Walk
import SetFormula.Proofs.WalkOrder
import SetFormula.Proofs.Weight
import SetFormula.Settings
import SetFormula.Shell
import SetFormula.Switch
import SetFormula.Symbol
import SetFormula.Taken
import SetFormula.Text.Blank
import SetFormula.Text.Bounds
import SetFormula.Text.Case
import SetFormula.Text.Cased
import SetFormula.Text.Lines
import SetFormula.Text.Numeral
import SetFormula.Text.Printable
import SetFormula.Text.Quoted
import SetFormula.Token
import SetFormula.Token.Lexer
