/-
Module: RegionFlow.Lift
Purpose: From a record to the dataflow graph of its region. Resolving builds, propagates and verifies
  a region; lifting adds the graph, checks it against the region and collects the metadata.
Main exports: Options, Lifted, Record.resolve, Record.lift, lift, liftWith
-/
import RegionFlow.Graph.Agreement
import RegionFlow.Region.OfRecord
import RegionFlow.Region.Propagation
import RegionFlow.Region.Verification

namespace RegionFlow

/-- What lifting insists on. -/
structure Options where
  /-- References without a producer are an error; otherwise they are taken out. -/
  strictReferences : Bool
  /-- Regions without loops are refused. -/
  pruneUnprofitable : Bool
  /-- The graph is checked against the region. -/
  roundtrip : Bool
deriving DecidableEq, Repr

namespace Options

/-- The options that hold unless others are given. -/
def standard : Options := ⟨false, true, true⟩

instance : Inhabited Options := ⟨standard⟩

end Options

/-- A region with its graph. -/
structure Lifted where
  region : Region
  report : Region.Report
  graph : Graph
  metadata : Metadata

/-- Whether references without a producer are acceptable. -/
def checkReferences (options : Options) (report : Region.Report) : Except Failure Unit :=
  match options.strictReferences, report.dropped with
  | true, dropped :: _ => .error (.noProducer dropped.reference dropped.owner)
  | _, _ => .ok ()

namespace Record

/-- Build, propagate and verify the region of a record. -/
def resolve (record : Record) (options : Options) : Except Failure (Region × Region.Report) := do
  let built ← Region.ofRecord record
  let (region, report) := built.propagate
  checkReferences options report
  region.verify
  return (region, report)

/-- Lift the region of a record. -/
def lift (record : Record) (options : Options) : Except Failure Lifted := do
  let (region, report) ← record.resolve options
  if options.pruneUnprofitable && !region.hasLoops then
    throw (.unprofitable region.name)
  let graph ← (Graph.ofRegion region).mapError Failure.defect
  if options.roundtrip then
    (Graph.agree region graph).mapError Failure.defect
  return ⟨region, report, graph, region.metadata⟩

end Record

/-- Read a record in JSON. -/
def readRecord (text : String) : Except Failure Record :=
  (Record.ofJson text).mapError Failure.record

/-- Lift the region of a record in JSON. -/
def lift (text : String) (options : Options) : Except Failure Lifted := do
  (← readRecord text).lift options

/-- Lift the region of a record in JSON and hand its graph to a consumer. -/
def liftWith {α : Type} (consume : Graph → Metadata → Except String α) (text : String)
    (options : Options) : Except Failure α := do
  let lifted ← lift text options
  (consume lifted.graph lifted.metadata).mapError Failure.backend

end RegionFlow
