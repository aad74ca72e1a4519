import AuthorizedCalls.CallCheck

namespace AuthorizedCalls

structure UnitReport where
  unit : String
  imports : List ImportBinding
  calls : List AnnotatedCall
  diagnostics : Diagnostics
deriving DecidableEq

namespace UnitReport

def isAccepted (r : UnitReport) : Bool :=
  r.diagnostics.isEmpty

end UnitReport

structure CheckReport where
  declarations : Diagnostics
  units : List UnitReport
deriving DecidableEq

namespace CheckReport

/-- Those of the declarations, then those of each unit in order. -/
def diagnostics (r : CheckReport) : Diagnostics :=
  r.declarations ++ r.units.flatMap UnitReport.diagnostics

def diagnosticCount (r : CheckReport) : Nat :=
  r.diagnostics.length

def isAccepted (r : CheckReport) : Bool :=
  r.diagnosticCount == 0

def unit? (r : CheckReport) (name : String) : Option UnitReport :=
  r.units.find? fun u => u.unit = name

end CheckReport

end AuthorizedCalls
