/-
Module: RegionFlow.Expectation.Reading
Purpose: Reading of directives. A line is a directive if one of the keywords stands in it as a word
  of its own, followed by a colon and a blank; what comes after is the pattern. In a pattern two dollar
  signs stand for one, and a dollar sign before a name, with or without parentheses, for a variable.
Main exports: Directive.read, readDirectives
-/
import RegionFlow.Expectation.Basic
import RegionFlow.Text.Blank
import RegionFlow.Text.Classes
import RegionFlow.Text.Split

namespace RegionFlow.Expectation

open Text (isBlank isWordChar trim)

/-- A character that names are made of. A name may begin with any of them, so a number is a name. -/
def isNameChar (c : Char) : Bool :=
  ('a' ≤ c && c ≤ 'z') || ('A' ≤ c && c ≤ 'Z') || ('0' ≤ c && c ≤ '9') || c == '_'

/-- The name that a text begins with, which is empty if there is none, and the rest. -/
def splitName (text : List Char) : List Char × List Char :=
  text.span isNameChar

/-- The part of a pattern after an opening dollar sign, and the rest. -/
def readDollar (text : List Char) : Except PatternProblem (PatternPart × List Char) :=
  match text with
  | '$' :: rest => .ok (.text ['$'], rest)
  | '(' :: rest =>
    let (name, after) := splitName rest
    match after with
    | [] => .error (.unterminated (String.ofList name))
    | ')' :: rest => .ok (if name.isEmpty then .text [] else .named name, rest)
    | c :: _ => .error (.unexpected (String.ofList name) c)
  | other =>
    let (name, rest) := splitName other
    if name.isEmpty then .error .loneDollar else .ok (.named name, rest)

/-- The parts of a pattern, at most `count` of them. -/
def readParts : (count : Nat) → List Char → Except PatternProblem Pattern
  | 0, _ => .ok []
  | _ + 1, [] => .ok []
  | count + 1, '$' :: rest => do
    let (part, rest) ← readDollar rest
    return part :: (← readParts count rest)
  | count + 1, text => do
    let (plain, rest) := text.span (· != '$')
    return .text plain :: (← readParts count rest)

/-- Read a pattern; blanks around it do not count. Every part takes a character at least. -/
def readPattern (text : List Char) : Except PatternProblem Pattern :=
  let text := trim text
  readParts text.length text

/-- Read a definition: a name, an equals sign, and a text without blanks at its end. -/
def readDefinition (text : List Char) : Except PatternProblem Directive :=
  let (name, rest) := splitName text
  if name.isEmpty then .error (.invalidName (String.ofList text))
  else
    match rest with
    | '=' :: value => .ok (.define name (Text.trimEnd value))
    | _ => .error (.expectedEquals (String.ofList name) (String.ofList text))

/-- What a directive is made of after its keyword. -/
inductive Keyword where
  | check | sameLine | nextLine | unordered | absent | define
deriving DecidableEq, Repr, Inhabited

namespace Keyword

/-- Every keyword with its spelling. -/
def spellings : List (Keyword × String) :=
  [(check, "check"), (sameLine, "sameln"), (nextLine, "nextln"), (unordered, "unordered"),
    (absent, "not"), (define, "regex")]

/-- The keyword a text begins with, and what follows its colon and blanks. -/
def atStart? (text : List Char) : Option (Keyword × List Char) :=
  spellings.findSome? fun (keyword, spelling) =>
    match Text.after? (spelling.toList ++ [':']) text with
    | some (c :: rest) =>
      if isBlank c then some (keyword, rest.dropWhile isBlank) else none
    | _ => none

/-- The first keyword in a text that begins a word, and what follows it. `before` is the character
    before the text. -/
def find? (before : Option Char) : List Char → Option (Keyword × List Char)
  | [] => none
  | c :: rest =>
    match atStart? (c :: rest) with
    | some found => if before.any isWordChar then find? (some c) rest else some found
    | none => find? (some c) rest

end Keyword

/-- Read what follows a keyword. -/
def Keyword.read (keyword : Keyword) (text : List Char) : Except PatternProblem Directive :=
  match keyword with
  | check => (readPattern text).map .check
  | sameLine => (readPattern text).map .sameLine
  | nextLine => (readPattern text).map .nextLine
  | unordered => (readPattern text).map .unordered
  | absent => (readPattern text).map .absent
  | define => readDefinition text

/-- Read a line; other lines than directives yield nothing. -/
def Directive.read (line : List Char) : Except PatternProblem (Option Directive) :=
  match Keyword.find? none line with
  | none => .ok none
  | some (keyword, text) => (keyword.read text).map some

/-- Read the directives of a list of lines. -/
def readLines : List (List Char) → Except Problem (List Directive)
  | [] => .ok []
  | line :: rest =>
    match Directive.read line with
    | .error problem => .error (.malformed (String.ofList line) problem)
    | .ok none => readLines rest
    | .ok (some directive) => (readLines rest).map (directive :: ·)

/-- Read the directives of a text, line by line. There must be one. -/
def readDirectives (text : String) : Except Problem (List Directive) := do
  let directives ← readLines ((Text.lines text.toList).map trim)
  if directives.isEmpty then throw .noDirectives
  return directives

end RegionFlow.Expectation
