/-
Module: RegionFlow.Expectation.Basic
Purpose: Expectations about a text, as directives. A directive names what is looked for, a pattern of
  plain text and variables, and where it is looked for.
Main exports: PatternPart, Pattern, Directive, PatternProblem, Problem
-/

namespace RegionFlow.Expectation

/-- A part of a pattern. -/
inductive PatternPart where
  /-- Text that stands for itself. -/
  | text (chars : List Char)
  /-- A variable that stands for a text. -/
  | named (name : List Char)
deriving DecidableEq, Repr, Inhabited

/-- What a directive looks for. -/
abbrev Pattern : Type := List PatternPart

/-- One expectation. -/
inductive Directive where
  /-- Found after everything found before. -/
  | check (pattern : Pattern)
  /-- Found in the rest of the line. -/
  | sameLine (pattern : Pattern)
  /-- Found in the line after. -/
  | nextLine (pattern : Pattern)
  /-- Found after the last ordered find, in any order. -/
  | unordered (pattern : Pattern)
  /-- Not found before the next ordered find. -/
  | absent (pattern : Pattern)
  /-- A variable with the text it stands for. -/
  | define (name value : List Char)
deriving DecidableEq, Repr, Inhabited

/-- Why a directive cannot be read. -/
inductive PatternProblem where
  /-- A dollar sign begins nothing. -/
  | loneDollar
  /-- A variable in parentheses does not end. -/
  | unterminated (name : String)
  /-- A variable in parentheses is followed by something else. -/
  | unexpected (name : String) (found : Char)
  /-- A definition does not begin with a name. -/
  | invalidName (rest : String)
  /-- The name of a definition is not followed by an equals sign. -/
  | expectedEquals (name rest : String)
deriving DecidableEq, Repr, Inhabited

/-- Wording of a problem. -/
def PatternProblem.message : PatternProblem → String
  | loneDollar => "pattern syntax error, use $$ to match a single $"
  | unterminated name => "unterminated $(" ++ name ++ "..."
  | unexpected name found =>
    "syntax error in $(" ++ name ++ "... '" ++ found.toString ++ "'"
  | invalidName rest => "invalid variable name in regex: " ++ rest
  | expectedEquals name rest =>
    "expected '=' after variable '" ++ name ++ "' in regex: " ++ rest

/-- Why a text does not meet expectations. -/
inductive Problem where
  /-- Nothing is expected. -/
  | noDirectives
  /-- A line is no directive although it looks like one. -/
  | malformed (line : String) (problem : PatternProblem)
  /-- A variable stands for nothing. -/
  | undefinedVariable (name : String)
  /-- A directive does not hold. -/
  | mismatch
deriving DecidableEq, Repr, Inhabited

/-- Wording of a problem. -/
def Problem.message : Problem → String
  | noDirectives => "No filecheck directives"
  | malformed line problem =>
    "Failed to parse filecheck directive '" ++ line ++ "': " ++ problem.message
  | undefinedVariable name => "Filecheck error: undefined variable $" ++ name
  | mismatch => "Filecheck failed:"

end RegionFlow.Expectation
