/-
Module: RegionFlow.TestFile.Running
Purpose: Running of test files. Every case is carried out as the command says, and the output is held
  against the expectations of the case. The first case that fails ends the run.
Main exports: Command, TestFile.RunFailure, TestFile.run, TestFile.runText
-/
import RegionFlow.Expectation.Matching
import RegionFlow.Region.Dump
import RegionFlow.TestFile.Reading

namespace RegionFlow.TestFile

/-- What is done with the record of a case. -/
inductive Command where
  | resolve | lift
deriving DecidableEq, Repr, Inhabited

namespace Command

/-- The command that a line denotes. -/
def ofText? (text : String) : Option Command :=
  if text = "test resolve" then some resolve
  else if text = "test lift" then some lift
  else none

/-- Name of a command in messages. -/
def title : Command → String
  | resolve => "Resolve"
  | lift => "Lift"

end Command

/-- Lines about the references that were taken out. -/
def droppedLines (report : Region.Report) : String :=
  String.join (report.dropped.map fun dropped =>
    "dropped reference " ++ dropped.reference ++ " in " ++ dropped.owner ++ "\n")

/-- Output of resolving a record: the region, or the failure. -/
def resolveOutput (record : String) (options : Options) : String :=
  match readRecord record >>= fun record => record.resolve options with
  | .ok (region, report) => region.dump ++ droppedLines report
  | .error failure => failure.line

/-- Output of lifting a record: the graph, or the failure. -/
def liftOutput (record : String) (options : Options) : String :=
  match RegionFlow.lift record options with
  | .ok lifted => lifted.graph.dump
  | .error failure => failure.line

/-- Output of a command. -/
def Command.output (command : Command) (record : String) (options : Options) : String :=
  match command with
  | resolve => resolveOutput record options
  | lift => liftOutput record options

/-- Why a run fails. -/
inductive RunFailure where
  | malformed (problem : Problem)
  | noCases
  | unexpectedCommand (command : String)
  /-- A case does not meet its expectations. -/
  | failed (command : Command) (label : String) (line : Nat) (reason : Expectation.Problem)
      (actual : String)
deriving Repr, Inhabited

/-- Wording of a failure. -/
def RunFailure.message : RunFailure → String
  | malformed problem => "Malformed test file: " ++ problem.message
  | noCases => "No test cases found in test file"
  | unexpectedCommand command => "Unexpected test command: " ++ command
  | failed command label line _ _ =>
    command.title ++ " test '" ++ label ++ "' (line " ++ toString line ++ ") failed:"

/-- Run one case. -/
def runCase (command : Command) (options : Options) (case : Case) : Except RunFailure Unit :=
  let actual := command.output case.record options
  match Expectation.meets actual case.expected with
  | .ok () => .ok ()
  | .error reason => .error (.failed command case.label case.line reason actual)

/-- Run the cases of a test file in order. -/
def run (file : TestFile) : Except RunFailure Unit :=
  if file.cases.isEmpty then .error .noCases
  else
    match Command.ofText? file.command with
    | none => .error (.unexpectedCommand file.command)
    | some command => file.cases.forM (runCase command file.options)

/-- Read and run a test file. -/
def runText (text : String) : Except RunFailure Unit :=
  match read text with
  | .error problem => .error (.malformed problem)
  | .ok file => file.run

end RegionFlow.TestFile
