import ActionSyntax.Files
import ActionSyntax.Main
import ActionSyntax.Proofs.Reach
import ActionSyntax.Proofs.Elementary
import ActionSyntax.Proofs.Escapes
import ActionSyntax.Proofs.FunctionStack
import ActionSyntax.Proofs.Sessions
import ActionSyntax.Proofs.Chains.Nesting
import ActionSyntax.Proofs.Chains.Reading
import ActionSyntax.Proofs.Places.LineEnd
import ActionSyntax.Proofs.Places.Lines
import ActionSyntax.Proofs.Places.Passing
import ActionSyntax.Proofs.Places.Lexemes
import ActionSyntax.Proofs.Places.Gaps
import ActionSyntax.Proofs.Places.Steps
import ActionSyntax.Proofs.Places.Tokenized
import ActionSyntax.Proofs.Places.Walk
import ActionSyntax.Proofs.Follows.Contract
import ActionSyntax.Proofs.Follows.Elementary
import ActionSyntax.Proofs.Follows.Types
import ActionSyntax.Proofs.Follows.Functions
import ActionSyntax.Proofs.Follows.Expressions
import ActionSyntax.Proofs.Follows.Statements
import ActionSyntax.Proofs.Follows.Levels
import ActionSyntax.Proofs.Places.Runs
import ActionSyntax.Proofs.Places.Slices
import ActionSyntax.Proofs.Places.Leaps
import ActionSyntax.Proofs.Termination
import ActionSyntax.Proofs.Pieces.Piece
import ActionSyntax.Proofs.Pieces.Reworks
import ActionSyntax.Proofs.Pieces.Standing
import ActionSyntax.Proofs.Building.Elementary
import ActionSyntax.Proofs.Spans
import ActionSyntax.Proofs.Building.Types
import ActionSyntax.Proofs.Building.Functions
import ActionSyntax.Proofs.Building.Primary
import ActionSyntax.Proofs.Building.Expressions
import ActionSyntax.Proofs.Building.Definitions
import ActionSyntax.Proofs.Building.Loops
import ActionSyntax.Proofs.Building.Statements
import ActionSyntax.Proofs.Building.Levels
import ActionSyntax.Proofs.FunctionUses
import ActionSyntax.Proofs.Legality
import ActionSyntax.Proofs.JumpProblems
import ActionSyntax.Proofs.SuperCalls
import ActionSyntax.Proofs.Destructuring
import ActionSyntax.Proofs.Layout
import ActionSyntax.Proofs.Reporting
import ActionSyntax.Proofs.Binding
import ActionSyntax.Proofs.FunctionTypes
import ActionSyntax.Proofs.Shadows.Stages
import ActionSyntax.Proofs.Literals.CodePoints
import ActionSyntax.Proofs.Literals.BracedValues
import ActionSyntax.Proofs.FunctionParams
import ActionSyntax.Proofs.Literals.Blames
import ActionSyntax.Proofs.Literals.Blocks
import ActionSyntax.Proofs.Literals.Names
import ActionSyntax.Proofs.Literals.NumberParts
import ActionSyntax.Proofs.Literals.Numbers
import ActionSyntax.Proofs.Literals.Spellings
import ActionSyntax.Proofs.LoopHeads
import ActionSyntax.Proofs.Literals.RegularExpressions
import ActionSyntax.Proofs.Places.NextTokens
import ActionSyntax.Proofs.GreaterRuns
import ActionSyntax.Proofs.TypeArguments
import ActionSyntax.Proofs.Shadows.Passages
import ActionSyntax.Proofs.Shadows.Alongside
import ActionSyntax.Proofs.Shadows.Tracking
import ActionSyntax.Proofs.UnionMembers
import ActionSyntax.Proofs.UnionChains
import ActionSyntax.Proofs.ArraySlots
import ActionSyntax.Proofs.Paths.Meaning
import ActionSyntax.Proofs.Templates
import ActionSyntax.Proofs.Annotations
import ActionSyntax.Proofs.ExpressionBodies
import ActionSyntax.Proofs.Decorators.Definitions
import ActionSyntax.Proofs.Depictions
import ActionSyntax.Proofs.Elements
import ActionSyntax.Proofs.Respacing.Calls
import ActionSyntax.Proofs.Consequents
