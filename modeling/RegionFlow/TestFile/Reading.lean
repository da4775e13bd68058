/-
Module: RegionFlow.TestFile.Reading
Purpose: Reading of test files, line by line. The first line that is neither blank nor a comment is the
  command. After it come settings and cases: a line that opens the case, the lines of its record up to
  the one that closes the outermost brace, and comment lines with its expectations.
Main exports: TestFile.read
-/
import RegionFlow.TestFile.Basic

namespace RegionFlow.TestFile

open Text (trim after? splitOnce)

/-- Options with one of them set. -/
def applySetting (options : Options) (setting : List Char) : Except SettingProblem Options :=
  let (name, value) := match splitOnce '=' setting with
    | some (name, value) => (String.ofList (trim name), String.ofList (trim value))
    | none => (String.ofList (trim setting), "true")
  let flag : Except SettingProblem Bool :=
    if value = "true" then .ok true
    else if value = "false" then .ok false
    else .error (.notBoolean name value)
  match flag with
  | .error problem => .error problem
  | .ok flag =>
    if name = "strict_references" then .ok { options with strictReferences := flag }
    else if name = "prune_unprofitable" then .ok { options with pruneUnprofitable := flag }
    else if name = "roundtrip" then .ok { options with roundtrip := flag }
    else .error (.unknown name)

/-- Where a scan of a record stands. -/
structure Nesting where
  /-- Braces opened and not closed. -/
  depth : Int
  inString : Bool
  /-- The character before was a backslash in a string. -/
  escaped : Bool
deriving DecidableEq, Repr, Inhabited

namespace Nesting

/-- Before the first character. -/
def outside : Nesting := ⟨0, false, false⟩

/-- Scan a line. The result is `none` once a closing brace closes the outermost one; braces in strings
    do not count. -/
def scan? (nesting : Nesting) : List Char → Option Nesting
  | [] => some nesting
  | c :: rest =>
    if nesting.inString then
      if nesting.escaped then scan? { nesting with escaped := false } rest
      else if c = '\\' then scan? { nesting with escaped := true } rest
      else if c = '"' then scan? { nesting with inString := false } rest
      else scan? nesting rest
    else if c = '"' then scan? { nesting with inString := true } rest
    else if c = '\x7b' then scan? { nesting with depth := nesting.depth + 1 } rest
    else if c = '\x7d' then
      if nesting.depth - 1 = 0 then none
      else scan? { nesting with depth := nesting.depth - 1 } rest
    else scan? nesting rest

end Nesting

/-- Whether a line, without surrounding blanks, is blank or a comment. -/
def isSkipped (line : List Char) : Bool :=
  line.isEmpty || line.head? == some ';'

/-- The command, and the lines after it with the number of the first. -/
def readCommand (number : Nat) :
    List (List Char) → Except Problem (String × Nat × List (List Char))
  | [] => .error .noCommand
  | line :: rest =>
    let line := trim line
    if isSkipped line then readCommand (number + 1) rest
    else if (after? "test ".toList line).isSome then
      .ok (String.ofList line, number + 1, rest)
    else .error (.expectedCommand number (String.ofList line))

/-- Where reading of cases stands. -/
inductive Stage where
  /-- Between cases. -/
  | between
  /-- In the record of a case. -/
  | record (label : String) (line : Nat) (nesting : Nesting) (lines : List (List Char))
  /-- After the record of a case. -/
  | expectations (label : String) (line : Nat) (record : String) (lines : List (List Char))
deriving DecidableEq, Repr, Inhabited

/-- Lines as one text. -/
def joinLines (lines : List (List Char)) : String :=
  String.ofList (Text.join ['\n'] lines)

/-- The case that is complete when its expectations end. -/
def Stage.case? : Stage → Option Case
  | expectations label line text lines => some ⟨label, line, text, joinLines lines⟩
  | _ => none

/-- Read a line between cases: a setting, or the line that opens a case. `line` has no blanks around
    it. -/
def readOpening (number : Nat) (options : Options) (line : List Char) :
    Except Problem (Options × Stage) :=
  if isSkipped line then .ok (options, .between)
  else
    match after? "set ".toList line with
    | some setting =>
      match applySetting options setting with
      | .ok options => .ok (options, .between)
      | .error problem => .error (.setting number problem)
    | none =>
      match after? "region".toList line with
      | some label =>
        .ok (options, .record (String.ofList (trim label)) number Nesting.outside [])
      | none => .error (.expectedRegion number (String.ofList line))

/-- Read the lines after the command, numbered from `number` on. -/
def readCases (number : Nat) (stage : Stage) (options : Options) (cases : List Case) :
    List (List Char) → Except Problem (Options × List Case)
  | [] =>
    match stage with
    | .record _ opened _ _ => .error (.unterminated opened)
    | stage => .ok (options, cases ++ stage.case?.toList)
  | line :: rest =>
    match stage with
    | .record label opened nesting lines =>
      match nesting.scan? line with
      | some nesting =>
        readCases (number + 1) (.record label opened nesting (lines ++ [line])) options cases rest
      | none =>
        let record := joinLines (lines ++ [line])
        readCases (number + 1) (.expectations label opened record []) options cases rest
    | .expectations label opened record lines =>
      match trim line with
      | [] => readCases (number + 1) (.expectations label opened record lines) options cases rest
      | ';' :: directive =>
        let lines := lines ++ [trim directive]
        readCases (number + 1) (.expectations label opened record lines) options cases rest
      | line =>
        match readOpening number options line with
        | .error problem => .error problem
        | .ok (options, next) =>
          readCases (number + 1) next options
            (cases ++ [⟨label, opened, record, joinLines lines⟩]) rest
    | .between =>
      match readOpening number options (trim line) with
      | .error problem => .error problem
      | .ok (options, next) => readCases (number + 1) next options cases rest

/-- Read a test file. -/
def read (text : String) : Except Problem TestFile := do
  let (command, number, rest) ← readCommand 1 (Text.lines text.toList)
  let (options, cases) ← readCases number .between Options.standard [] rest
  return ⟨command, options, cases⟩

end RegionFlow.TestFile
