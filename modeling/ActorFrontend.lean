import ActorFrontend.Diagnostic.OfError
import ActorFrontend.Diagnostic.Report
import ActorFrontend.Diagnostic.Terminal
import ActorFrontend.Proofs.Lossless
import ActorFrontend.Proofs.Lexing.Shift
import ActorFrontend.Proofs.Lexing.Boundary
import ActorFrontend.Proofs.Placement.Forest
import ActorFrontend.Proofs.Placement.Trail
import ActorFrontend.Proofs.Placement.Combinators
import ActorFrontend.Proofs.Placement.Types
import ActorFrontend.Proofs.Placement.Patterns
import ActorFrontend.Proofs.Placement.Strings
import ActorFrontend.Proofs.Placement.Expressions
import ActorFrontend.Proofs.Placement.Statements
import ActorFrontend.Proofs.Placement.Items
import ActorFrontend.Proofs.Placement.Program
import ActorFrontend.Proofs.Precedence.Level
import ActorFrontend.Proofs.Precedence.Completeness
import ActorFrontend.Proofs.Precedence.Soundness
import ActorFrontend.Proofs.Precedence.Session
import ActorFrontend.Proofs.Course.Steps
import ActorFrontend.Proofs.Course.Combinators
import ActorFrontend.Proofs.Course.Types
import ActorFrontend.Proofs.Course.Expressions
import ActorFrontend.Proofs.Course.Statements
import ActorFrontend.Proofs.Course.Items
import ActorFrontend.Proofs.Speculation
import ActorFrontend.Proofs.Progress
import ActorFrontend.Proofs.Enclosure
import ActorFrontend.Proofs.Alike.Relabel
import ActorFrontend.Proofs.Alike.Identity
import ActorFrontend.Proofs.Alike.Basic
import ActorFrontend.Proofs.Alike.Combinators
import ActorFrontend.Proofs.Alike.Heads
import ActorFrontend.Proofs.Alike.Types
import ActorFrontend.Proofs.Alike.Expressions
import ActorFrontend.Proofs.Alike.Statements
import ActorFrontend.Proofs.Alike.Items
import ActorFrontend.Proofs.Alike.Kept
import ActorFrontend.Proofs.Alike.Astray
import ActorFrontend.Proofs.Alike.Together
import ActorFrontend.Proofs.Budget
import ActorFrontend.Proofs.Invariance
import ActorFrontend.Proofs.Tiling.Spans
import ActorFrontend.Proofs.Tiling.Program
import ActorFrontend.Proofs.Nesting.Shell
import ActorFrontend.Proofs.Nesting.Makes
import ActorFrontend.Proofs.Nesting.Types
import ActorFrontend.Proofs.Nesting.Expressions
import ActorFrontend.Proofs.Nesting.Statements
import ActorFrontend.Proofs.Nesting.Items
import ActorFrontend.Proofs.Nesting.Limit
import ActorFrontend.Proofs.Motion.Basic
import ActorFrontend.Proofs.Motion.Combinators
import ActorFrontend.Proofs.Motion.Types
import ActorFrontend.Proofs.Motion.Expressions
import ActorFrontend.Proofs.Motion.Statements
import ActorFrontend.Proofs.Splices.Scan
import ActorFrontend.Proofs.Splices.Closing
import ActorFrontend.Proofs.Splices.Places
import ActorFrontend.Proofs.Motion.Texts
import ActorFrontend.Proofs.Motion.Splices
import ActorFrontend.Proofs.Defects.Flat
import ActorFrontend.Proofs.Defects.Resume
import ActorFrontend.Proofs.Defects.Parts
import ActorFrontend.Proofs.Defects.Ends
import ActorFrontend.Proofs.Defects.OneError
import ActorFrontend.Proofs.Defects.Fork
import ActorFrontend.Proofs.Defects.Members
import ActorFrontend.Proofs.Lookahead.Angles
import ActorFrontend.Proofs.Lookahead.Struct
import ActorFrontend.Proofs.Forms.Part
import ActorFrontend.Proofs.Forms.Sound
import ActorFrontend.Proofs.Forms.Texts
import ActorFrontend.Proofs.Forms.Combinators
import ActorFrontend.Proofs.Forms.Types
import ActorFrontend.Proofs.Forms.Expressions
import ActorFrontend.Proofs.Forms.Statements
import ActorFrontend.Proofs.Forms.Items
import ActorFrontend.Proofs.Forms.Program
import ActorFrontend.Proofs.Strings.Delimiters
import ActorFrontend.Proofs.Strings.Places
import ActorFrontend.Proofs.Strings.Lines
import ActorFrontend.Proofs.Strings.Reports
import ActorFrontend.Proofs.TypeText.Spelling
import ActorFrontend.Proofs.TypeText.Reading
import ActorFrontend.Proofs.TypeText.Session
import ActorFrontend.Proofs.Lexing.Numerals
import ActorFrontend.Proofs.Strings.Escapes
import ActorFrontend.Proofs.PatternText.Spelling
import ActorFrontend.Proofs.PatternText.Reading
import ActorFrontend.Proofs.PatternText.Session
import ActorFrontend.Proofs.Bracketed.Basic
import ActorFrontend.Proofs.Bracketed.Combinators
import ActorFrontend.Proofs.Bracketed.Confined
import ActorFrontend.Proofs.Bracketed.Types
import ActorFrontend.Proofs.Bracketed.Expressions
import ActorFrontend.Proofs.Bracketed.Statements
import ActorFrontend.Proofs.Bracketed.Arguments
import ActorFrontend.Proofs.Lexing.Onward
import ActorFrontend.Proofs.Indices.Basic
import ActorFrontend.Proofs.Indices.Combinators
import ActorFrontend.Proofs.Indices.Types
import ActorFrontend.Proofs.Indices.Expressions
import ActorFrontend.Proofs.Indices.Operators
import ActorFrontend.Proofs.Indices.Statements
import ActorFrontend.Proofs.Indices.Source
import ActorFrontend.Proofs.WireText.Spelling
import ActorFrontend.Proofs.WireText.Parts
import ActorFrontend.Proofs.WireText.Reading
import ActorFrontend.Proofs.WireText.Source
import ActorFrontend.Proofs.Lines.Utf8
import ActorFrontend.Proofs.Lines.Positions
import ActorFrontend.Proofs.Lines.Edits
import ActorFrontend.Proofs.Checked.Basic
import ActorFrontend.Proofs.Checked.Scan
import ActorFrontend.Proofs.Checked.Pieces
import ActorFrontend.Proofs.Checked.Lexer
import ActorFrontend.Proofs.Checked.Positions
import ActorFrontend.Proofs.Checked.Reports
import ActorFrontend.Proofs.Checked.Terminal
import ActorFrontend.Proofs.Checked.Errors
import ActorFrontend.Proofs.Rendering.Marks
import ActorFrontend.Proofs.Rendering.Alignment
import ActorFrontend.Proofs.Rendering.Sequences
import ActorFrontend.Proofs.Rendering.Colours
import ActorFrontend.Proofs.Lexing.Ending
import ActorFrontend.Proofs.Suggestions.Edits
import ActorFrontend.Proofs.Suggestions.Closest
import ActorFrontend.Proofs.Frames.Basic
import ActorFrontend.Proofs.Frames.Types
import ActorFrontend.Proofs.Frames.Expressions
import ActorFrontend.Proofs.Frames.Statements
import ActorFrontend.Proofs.Frames.Items
import ActorFrontend.Proofs.Frames.Productions
import ActorFrontend.Proofs.Lexing.Semicolons
import ActorFrontend.Proofs.Mending.Strays
import ActorFrontend.Proofs.Mending.Lost
import ActorFrontend.Proofs.Mending.Mended
import ActorFrontend.Proofs.Mending.Paired
import ActorFrontend.Proofs.Mending.Replies
import ActorFrontend.Proofs.Mending.Strings
import ActorFrontend.Proofs.Mending.Runs
import ActorFrontend.Proofs.Mending.Errors
import ActorFrontend.Proofs.Mending.Tokens
import ActorFrontend.Proofs.Mending.Source
