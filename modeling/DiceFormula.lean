import DiceFormula.Chat
import DiceFormula.CommandLine
import DiceFormula.Condition
import DiceFormula.Dice
import DiceFormula.Dice.Error
import DiceFormula.Dice.Reading
import DiceFormula.Dice.Roll
import DiceFormula.Die
import DiceFormula.Expr
import DiceFormula.Expr.Calculation
import DiceFormula.Expr.Evaluation
import DiceFormula.Expr.Inspection
import DiceFormula.Expr.Layout
import DiceFormula.Expr.Reading
import DiceFormula.Formula.Error
import DiceFormula.Formula.Normalization
import DiceFormula.Formula.Reading
import DiceFormula.Formula.Roll
import DiceFormula.Halt
import DiceFormula.Log
import DiceFormula.Main
import DiceFormula.Modifier
import DiceFormula.Modifier.Application
import DiceFormula.Modifier.Chain
import DiceFormula.Modifier.Clamp
import DiceFormula.Modifier.Explosion
import DiceFormula.Modifier.Reroll
import DiceFormula.Modifier.Selection
import DiceFormula.Proofs.Breakdown.Decoding
import DiceFormula.Proofs.Breakdown.DieText
import DiceFormula.Proofs.Breakdown.Operands
import DiceFormula.Proofs.Breakdown.Truncation
import DiceFormula.Proofs.Chat.Macro
import DiceFormula.Proofs.Chat.Replies
import DiceFormula.Proofs.CommandLine.Agreement
import DiceFormula.Proofs.CommandLine.Lines
import DiceFormula.Proofs.Dice.Draws
import DiceFormula.Proofs.Dice.Failure
import DiceFormula.Proofs.Dice.History
import DiceFormula.Proofs.Dice.Lockstep
import DiceFormula.Proofs.Dice.Provenance
import DiceFormula.Proofs.Dice.Range
import DiceFormula.Proofs.Dice.Roll
import DiceFormula.Proofs.Expr.Alike
import DiceFormula.Proofs.Expr.Determinism
import DiceFormula.Proofs.Expr.Evaluation
import DiceFormula.Proofs.Expr.Exactness
import DiceFormula.Proofs.Expr.Failure
import DiceFormula.Proofs.Expr.Layout
import DiceFormula.Proofs.Expr.Ungrouped
import DiceFormula.Proofs.Formula.Canonical
import DiceFormula.Proofs.Formula.Completion
import DiceFormula.Proofs.Formula.Halts
import DiceFormula.Proofs.Formula.NormalForm
import DiceFormula.Proofs.Formula.Roll
import DiceFormula.Proofs.Formula.Validation
import DiceFormula.Proofs.Modifier.Application
import DiceFormula.Proofs.Modifier.Chain
import DiceFormula.Proofs.Modifier.Composition
import DiceFormula.Proofs.Modifier.Explosion
import DiceFormula.Proofs.Modifier.Frame
import DiceFormula.Proofs.Modifier.Limits
import DiceFormula.Proofs.Modifier.Ranking
import DiceFormula.Proofs.Modifier.Reroll
import DiceFormula.Proofs.Modifier.Selection
import DiceFormula.Proofs.Modifier.Throws
import DiceFormula.Proofs.Notation.Chain
import DiceFormula.Proofs.Notation.Dice
import DiceFormula.Proofs.Notation.DiceText
import DiceFormula.Proofs.Notation.Expr
import DiceFormula.Proofs.Notation.Fusion
import DiceFormula.Proofs.Notation.Grammar
import DiceFormula.Proofs.Notation.Modifier
import DiceFormula.Proofs.Notation.Numeral
import DiceFormula.Proofs.Notation.Parentheses
import DiceFormula.Proofs.Notation.RoundTrip
import DiceFormula.Proofs.Rolled
import DiceFormula.Proofs.Rolling
import DiceFormula.Proofs.Rolling.Decides
import DiceFormula.Proofs.Rolling.Ensures
import DiceFormula.Proofs.Rolling.Lockstep
import DiceFormula.Proofs.Text.Lowercase
import DiceFormula.Proofs.Text.Reader
import DiceFormula.Proofs.Value
import DiceFormula.Rolled
import DiceFormula.Roller
import DiceFormula.Roller.Seeded
import DiceFormula.Rolling
import DiceFormula.Sides
import DiceFormula.Text.Blank
import DiceFormula.Text.CaseTable
import DiceFormula.Text.Lowercase
import DiceFormula.Text.Numeral
import DiceFormula.Text.Reader
import DiceFormula.Value
