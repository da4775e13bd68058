/-
Module: RegionFlow.Region.Finding
Purpose: What verification finds wrong with a region, and where.
Main exports: Region.Flaw, Region.Finding
-/

namespace RegionFlow.Region

/-- What is wrong with a region. -/
inductive Flaw where
  /-- A placeholder can be reached. -/
  | unresolved (reference : String)
  /-- A value reaches itself. -/
  | cycle (reference : String)
  /-- A piece of a domain belongs to another tuple. -/
  | foreignDomain (name : Option String)
  /-- A piece of a domain has more dimensions than there are loops. -/
  | tooManyDims (dims depth : Nat)
  /-- An access is none. -/
  | notAnAccess
  /-- An access touches an array that is not declared. -/
  | undeclaredArray (array : String)
  /-- A piece of an access relation starts at another tuple. -/
  | foreignRelation
  /-- An access has more or fewer subscripts than the array has dimensions. -/
  | subscriptCount (array : String) (count rank : Nat)
  /-- An induction variable belongs to no loop of the statement. -/
  | unboundVariable (reference : String)
  /-- The schedule names a statement that is not declared. -/
  | scheduledStatement (name : String)
  /-- A dependence names a statement that is not declared. -/
  | dependentStatement (name : String)
deriving DecidableEq, Repr, Inhabited

/-- Wording of a flaw. -/
def Flaw.message : Flaw → String
  | unresolved reference => "Unresolved reference " ++ reference ++ " in argument closure"
  | cycle reference => "Value " ++ reference ++ " depends on itself"
  | foreignDomain name =>
    "Domain names " ++ name.getD "an anonymous tuple" ++ " instead of its statement"
  | tooManyDims dims depth =>
    "Domain has " ++ toString dims ++ " dimensions but only " ++ toString depth
      ++ " loops bind them"
  | notAnAccess => "Access is not a memory access"
  | undeclaredArray array => "Access targets undeclared array " ++ array
  | foreignRelation => "Access relation does not start at its statement"
  | subscriptCount array count rank =>
    "Access to " ++ array ++ " has " ++ toString count ++ " subscripts but the array has rank "
      ++ toString rank
  | unboundVariable reference =>
    "Induction variable " ++ reference ++ " is not bound by a loop of this statement"
  | scheduledStatement name => "Schedule references undeclared statement " ++ name
  | dependentStatement name => "Dependence references undeclared statement " ++ name

/-- A flaw with the part of the region it was found in. -/
structure Finding where
  location : String
  flaw : Flaw
deriving DecidableEq, Repr, Inhabited

/-- Written form of a finding. -/
def Finding.text (finding : Finding) : String :=
  finding.location ++ ": " ++ finding.flaw.message

end RegionFlow.Region
