/-!
# Styled text

Text for a terminal, with colours.  It is written as it is, or with escape sequences that switch
the style of each run on and off.
-/

namespace ActorFrontend

inductive Colour where
  | red
  | green
  | yellow
  | blue
  | cyan
  deriving DecidableEq, Repr

/-- The number of the colour in an escape sequence. -/
def Colour.code : Colour → String
  | .red => "31"
  | .green => "32"
  | .yellow => "33"
  | .blue => "34"
  | .cyan => "36"

/-- How a run of text looks. -/
inductive Style where
  | bold
  | coloured (colour : Colour)
  | boldColoured (colour : Colour)
  deriving DecidableEq, Repr

namespace Style

/-- The sequence that ends every style. -/
def reset : List Char := ['\x1b', '[', '0', 'm']

/-- The sequence that switches the style on. -/
def opening : Style → List Char
  | .bold => "\x1b[1m".toList
  | .coloured c => "\x1b[".toList ++ c.code.toList ++ ['m']
  | .boldColoured c => "\x1b[1;".toList ++ c.code.toList ++ ['m']

/-- Switches a style on again wherever the text itself switches styles off. -/
def reopen (opening : List Char) : List Char → List Char
  | '\x1b' :: '[' :: '0' :: 'm' :: cs => reset ++ opening ++ reopen opening cs
  | c :: cs => c :: reopen opening cs
  | [] => []

/-- A text in the style. -/
def wrap (style : Style) (text : String) : String :=
  String.ofList (style.opening ++ reopen style.opening text.toList ++ reset)

end Style

/-- A run of text in one style, or in none. -/
structure Run where
  style : Option Style
  text : String
  deriving DecidableEq, Repr

/-- Runs of text, one after the other. -/
abbrev StyledText := List Run

namespace StyledText

/-- Text in no style. -/
def plain (text : String) : StyledText := [⟨none, text⟩]

def bold (text : String) : StyledText := [⟨some .bold, text⟩]

def coloured (colour : Colour) (text : String) : StyledText := [⟨some (.coloured colour), text⟩]

def boldColoured (colour : Colour) (text : String) : StyledText :=
  [⟨some (.boldColoured colour), text⟩]

/-- The text without its styles. -/
def toPlain (t : StyledText) : String := String.join (t.map Run.text)

/-- The text with escape sequences for its styles, also around runs without text. -/
def toColoured (t : StyledText) : String :=
  String.join (t.map fun run =>
    match run.style with
    | none => run.text
    | some style => style.wrap run.text)

end StyledText

end ActorFrontend
