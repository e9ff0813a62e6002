import ActorFrontend.Source.Span

/-!
# Diagnostics

A diagnostic is what a reader is told about a source: a message, the places that it is about, and
what to do.
-/

namespace ActorFrontend

inductive Severity where
  | error
  | warning
  | note
  deriving DecidableEq, Repr

/-- What a label marks: the place itself, or one that has to do with it. -/
inductive LabelStyle where
  | primary
  | secondary
  deriving DecidableEq, Repr

/-- A place in the source, with a remark. -/
structure Label where
  span : Span
  style : LabelStyle
  message : Option String
  deriving DecidableEq, Repr

/-- A change to the source: the text to put in place of a span. -/
structure Suggestion where
  span : Span
  replacement : String
  deriving DecidableEq, Repr

/-- Advice, with a change that follows it if there is one. -/
structure Help where
  message : String
  suggestion : Option Suggestion
  deriving DecidableEq, Repr

structure Diagnostic where
  severity : Severity
  code : Option String
  message : String
  labels : List Label
  notes : List String
  help : Option Help
  deriving DecidableEq, Repr

namespace Diagnostic

/-- A diagnostic of nothing but a message. -/
def ofMessage (severity : Severity) (message : String) : Diagnostic :=
  { severity, code := none, message, labels := [], notes := [], help := none }

def withCode (code : String) (d : Diagnostic) : Diagnostic := { d with code := some code }

def withLabel (label : Label) (d : Diagnostic) : Diagnostic :=
  { d with labels := d.labels ++ [label] }

def withPrimary (span : Span) (message : String) (d : Diagnostic) : Diagnostic :=
  d.withLabel ⟨span, .primary, some message⟩

def withSecondary (span : Span) (message : String) (d : Diagnostic) : Diagnostic :=
  d.withLabel ⟨span, .secondary, some message⟩

def withNote (note : String) (d : Diagnostic) : Diagnostic := { d with notes := d.notes ++ [note] }

/-- Gives advice in place of any given before. -/
def withHelp (message : String) (d : Diagnostic) : Diagnostic :=
  { d with help := some ⟨message, none⟩ }

/-- Adds a change to the advice; without advice there is nothing to add it to. -/
def withSuggestion (span : Span) (replacement : String) (d : Diagnostic) : Diagnostic :=
  { d with help := d.help.map fun help => { help with suggestion := some ⟨span, replacement⟩ } }

/-- The place that the diagnostic is about: its first primary label, or its first label. -/
def primarySpan? (d : Diagnostic) : Option Span :=
  ((d.labels.find? (·.style == .primary)).or d.labels.head?).map (·.span)

def isError (d : Diagnostic) : Bool := d.severity == .error

end Diagnostic

end ActorFrontend
