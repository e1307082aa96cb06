/-!
# Settings

What a deployment can set: how often scans report progress, and whether they probe other nodes for
attributes first.
-/

namespace GraphScan

/-- How often a scan reports its progress. -/
structure ProgressConfig where
  /-- The units of work from one report to the next. -/
  reportInterval : Nat := 10000
deriving DecidableEq, Repr, Inhabited

/-- **The diagnostic probe** that one site issues before each scan of a graph. -/
structure ProbeConfig where
  enabled : Bool := false
  /-- The site that issues the probe. -/
  coordinatorSite : Nat := 0
  /-- The host that the probe asks. -/
  destinationHost : Nat := 1
  /-- How many vertices and edges it asks for. -/
  probeCount : Nat := 3
  /-- The attributes that it asks for; none means all. -/
  vertexAttributes : List String := []
  edgeAttributes : List String := []
deriving DecidableEq, Repr, Inhabited

/-- **The settings.** -/
structure Config where
  progress : ProgressConfig := {}
  remoteProbe : ProbeConfig := {}
deriving DecidableEq, Repr, Inhabited

end GraphScan
