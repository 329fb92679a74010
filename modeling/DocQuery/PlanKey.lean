/-
# Keys of cached plans

A plan is determined by the shape of its query and the settings that compilation reads.  The shape
is taken as a fingerprint of its serialized form, in which parameters have names but no values.
-/
import DocQuery.Cache
import DocQuery.Codec.Query
import DocQuery.Digest
import DocQuery.Plan

namespace DocQuery

structure PlanKey where
  shape : Fingerprint
  contextType : String
  tracking : Tracking
  threadSafetyChecks : Bool
  partitionKey : Option String
  rowLayout : RowLayout
deriving DecidableEq

namespace PlanKey

/-- The key of a query that is compiled for a context type under a configuration. -/
def ofShaped (shaped : ShapedQuery) (contextType : String) (c : Config) : PlanKey where
  shape := .ofJson shaped.encode
  contextType
  tracking := c.tracking
  threadSafetyChecks := c.threadSafetyChecks
  partitionKey := c.partitionKey
  rowLayout := c.rowLayout

end PlanKey

/-- The key of the plan that a compiler makes. -/
def Compiler.key (c : Compiler) (shaped : ShapedQuery) : PlanKey :=
  .ofShaped shaped c.contextType c.config

end DocQuery
