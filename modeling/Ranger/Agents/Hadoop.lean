import Ranger.Model

/-! # What the agents share

Agents ask a plugin of the policy engine on behalf of the users of Hadoop. The plugin has
an engine once it has received policies.
-/

namespace Ranger

inductive FsAction where
  | none
  | execute
  | write
  | writeExecute
  | read
  | readExecute
  | readWrite
  | all
  deriving DecidableEq

namespace FsAction

def ordinal : FsAction → Nat
  | none => 0
  | execute => 1
  | write => 2
  | writeExecute => 3
  | read => 4
  | readExecute => 5
  | readWrite => 6
  | all => 7

def implies (this that : FsAction) : Bool := this.ordinal &&& that.ordinal == that.ordinal

def name : FsAction → String
  | none => "NONE"
  | execute => "EXECUTE"
  | write => "WRITE"
  | writeExecute => "WRITE_EXECUTE"
  | read => "READ"
  | readExecute => "READ_EXECUTE"
  | readWrite => "READ_WRITE"
  | all => "ALL"

end FsAction

structure UserGroupInformation where
  shortUserName : String
  groupNames : List String

namespace RangerBasePlugin

/-- The policy engine of a plugin, if it has one. -/
abbrev PolicyEngine := Option (RangerAccessRequest → RangerAccessResult)

variable (policyEngine : PolicyEngine)

def isAccessAllowed (request : RangerAccessRequest) : Option RangerAccessResult :=
  policyEngine.map fun answer => answer request

/-- `isAccessAllowed` of a collection of requests. -/
def areAccessesAllowed (requests : List RangerAccessRequest) : Option (List RangerAccessResult) :=
  policyEngine.map fun answer => requests.map answer

end RangerBasePlugin

end Ranger
