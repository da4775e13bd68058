/-
Module: RegionFlow.TestFile.Basic
Purpose: Test files: a command, options, and cases. A case is a record with the expectations about what
  the command makes of it.
Main exports: TestFile, TestFile.Case, TestFile.Problem
-/
import RegionFlow.Lift

namespace RegionFlow

/-- A case of a test file. -/
structure TestFile.Case where
  label : String
  /-- Number of the line that opens the case, from one. -/
  line : Nat
  /-- Text of the record. -/
  record : String
  /-- Expectations, one to a line. -/
  expected : String
deriving DecidableEq, Repr, Inhabited

/-- A test file. -/
structure TestFile where
  /-- The command, as written. -/
  command : String
  options : Options
  cases : List TestFile.Case
deriving DecidableEq, Repr, Inhabited

/-- What is wrong with a setting. -/
inductive TestFile.SettingProblem where
  | notBoolean (name value : String)
  | unknown (name : String)
deriving DecidableEq, Repr, Inhabited

/-- Wording of a problem with a setting. -/
def TestFile.SettingProblem.message : TestFile.SettingProblem → String
  | notBoolean name value => "Setting " ++ name ++ " expects true or false, got '" ++ value ++ "'"
  | unknown name => "Unknown setting '" ++ name ++ "'"

/-- What is wrong with a test file. -/
inductive TestFile.Problem where
  | noCommand
  | expectedCommand (line : Nat) (found : String)
  | expectedRegion (line : Nat) (found : String)
  | setting (line : Nat) (problem : TestFile.SettingProblem)
  /-- The record of the case that a line opens does not end. -/
  | unterminated (line : Nat)
deriving DecidableEq, Repr, Inhabited

/-- Wording of a problem with a test file. -/
def TestFile.Problem.message : TestFile.Problem → String
  | noCommand => "No test command found"
  | expectedCommand line found =>
    "line " ++ toString line ++ ": expected a test command, found '" ++ found ++ "'"
  | expectedRegion line found =>
    "line " ++ toString line ++ ": expected 'region', found '" ++ found ++ "'"
  | setting line problem => "line " ++ toString line ++ ": " ++ problem.message
  | unterminated line => "line " ++ toString line ++ ": unterminated record"

end RegionFlow
