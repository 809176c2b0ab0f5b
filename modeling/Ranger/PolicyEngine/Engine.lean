import Ranger.Foundation.Scan
import Ranger.PolicyEvaluator.Cached

/-! # The policy engine

An engine holds one evaluator for each enabled policy of a service, sorted, and
a memory of audit decisions keyed by the text of the resource. Answering a
request may change the memory and the match caches of the evaluators.
-/

namespace Ranger

open Foundation

structure ServicePolicies where
  serviceName : String
  serviceDef : RangerServiceDef
  policies : List RangerPolicy
  policyVersion : Option Int := none

/-- The evaluator classes. -/
inductive EvaluatorType where
  | default
  | optimized
  | cached
  deriving DecidableEq

/-- The class `buildPolicyEvaluator` creates for a type name. -/
def EvaluatorType.ofName [Platform] (evaluatorType : String) : EvaluatorType :=
  if equalsIgnoreCase evaluatorType "default" then default
  else if equalsIgnoreCase evaluatorType "optimized" then optimized
  else if equalsIgnoreCase evaluatorType "cached" then cached
  else default

/-- An evaluator of some class. Only the cached one uses the cache. -/
structure RangerPolicyEvaluator where
  type : EvaluatorType
  base : RangerDefaultPolicyEvaluator
  cache : RangerResourceAccessCacheImpl

namespace RangerPolicyEvaluator

section Methods

variable [Platform] (evaluator : RangerPolicyEvaluator)

def isMatch (resource : RangerAccessResource) : Bool × RangerPolicyEvaluator :=
  match evaluator.type with
  | .cached =>
      let (matched, cache) :=
        RangerCachedPolicyEvaluator.isMatch evaluator.base resource evaluator.cache
      (matched, { evaluator with cache := cache })
  | _ => (evaluator.base.isMatch resource, evaluator)

def getEvalOrder : Int :=
  match evaluator.type with
  | .default => 0
  | _ => RangerOptimizedPolicyEvaluator.computeEvalOrder evaluator.base

/-- `isAccessAllowed(user, userGroups, accessType)` of the class. -/
def isUserAccessAllowed (user : Option String) (userGroups : List String) (accessType : String) :
    Bool :=
  match evaluator.type with
  | .default => evaluator.base.isAccessAllowed user userGroups accessType
  | _ => RangerOptimizedPolicyEvaluator.isAccessAllowed evaluator.base user userGroups accessType

/-- `isAccessAllowed(RangerAccessResource, user, userGroups, accessType)`. -/
def isAccessAllowed (resource : RangerAccessResource) (user : Option String)
    (userGroups : List String) (accessType : String) : Bool × RangerPolicyEvaluator :=
  if evaluator.isUserAccessAllowed user userGroups accessType then evaluator.isMatch resource
  else (false, evaluator)

/-- `isAccessAllowed(Map, user, userGroups, accessType)`. -/
def isMapAccessAllowed (resources : AssocMap String RangerPolicyResource) (user : Option String)
    (userGroups : List String) (accessType : String) : Bool :=
  evaluator.isUserAccessAllowed user userGroups accessType &&
    evaluator.base.isMatchMap resources

variable [ClassLoader]

def evaluate (request : RangerAccessRequest) (result : RangerAccessResult) :
    RangerAccessResult × RangerPolicyEvaluator :=
  match evaluator.type with
  | .default => (evaluator.base.evaluate request result, evaluator)
  | .optimized => (RangerOptimizedPolicyEvaluator.evaluate evaluator.base request result, evaluator)
  | .cached =>
      let (result, cache) :=
        RangerCachedPolicyEvaluator.evaluate evaluator.base request result evaluator.cache
      (result, { evaluator with cache := cache })

/-- `compareTo` does not put the other evaluator first. -/
def comesBefore (other : RangerPolicyEvaluator) : Bool :=
  if evaluator.getEvalOrder = other.getEvalOrder then
    evaluator.base.getConditionEvaluators.size ≤ other.base.getConditionEvaluators.size
  else evaluator.getEvalOrder < other.getEvalOrder

end Methods

end RangerPolicyEvaluator

/-- `RangerPolicyRepository`; without an audit cache when results are not cached. -/
structure RangerPolicyRepository where
  serviceName : String
  serviceDef : RangerServiceDef
  policyVersion : Int
  policyEvaluators : List RangerPolicyEvaluator
  accessAuditCache : Option (CacheMap Bool)

namespace RangerPolicyRepository

section Create

variable [Platform] [ClassLoader] (configuration : RangerConfiguration)

def buildPolicyEvaluator (policy : RangerPolicy) (serviceDef : RangerServiceDef)
    (options : RangerPolicyEngineOptions) : RangerPolicyEvaluator where
  type := .ofName options.evaluatorType
  base := RangerDefaultPolicyEvaluator.init policy serviceDef options
  cache := RangerResourceAccessCacheImpl.getInstance configuration serviceDef

def create (servicePolicies : ServicePolicies) (options : RangerPolicyEngineOptions) :
    RangerPolicyRepository where
  serviceName := servicePolicies.serviceName
  serviceDef := servicePolicies.serviceDef
  policyVersion := servicePolicies.policyVersion.getD (-1)
  policyEvaluators :=
    ((servicePolicies.policies.filter (·.isEnabled)).map fun policy =>
      buildPolicyEvaluator configuration policy servicePolicies.serviceDef options).insertionSort
        fun first second => first.comesBefore second
  accessAuditCache :=
    if options.cacheAuditResults then
      some (.ofCapacity (configuration.getInt
        ("ranger.plugin." ++ servicePolicies.serviceName ++ ".policyengine.auditcachesize")
        (64 * 1024)))
    else none

end Create

variable (repository : RangerPolicyRepository)

/-- The result with a remembered audit decision, if there is one. -/
def setAuditEnabledFromCache (request : RangerAccessRequest) (result : RangerAccessResult) :
    Bool × RangerAccessResult × RangerPolicyRepository :=
  match repository.accessAuditCache with
  | none => (false, result, repository)
  | some accessAuditCache =>
      let (value, accessAuditCache) :=
        accessAuditCache.get (request.resource.getAsString repository.serviceDef)
      let repository := { repository with accessAuditCache := some accessAuditCache }
      match value with
      | none => (false, result, repository)
      | some value => (true, result.setIsAudited value, repository)

def storeAuditEnabledInCache (request : RangerAccessRequest) (result : RangerAccessResult) :
    RangerPolicyRepository :=
  if result.isAuditedDetermined then
    { repository with
      accessAuditCache := repository.accessAuditCache.map fun accessAuditCache =>
        accessAuditCache.put (request.resource.getAsString repository.serviceDef)
          result.isAudited }
  else repository

end RangerPolicyRepository

/-- `RangerPolicyEngineImpl`. -/
structure RangerPolicyEngineImpl where
  policyRepository : RangerPolicyRepository

namespace RangerPolicyEngineImpl

variable [Platform]

def create [ClassLoader] (configuration : RangerConfiguration) (servicePolicies : ServicePolicies)
    (options : RangerPolicyEngineOptions) : RangerPolicyEngineImpl :=
  ⟨RangerPolicyRepository.create configuration servicePolicies options⟩

variable (engine : RangerPolicyEngineImpl)

def getPolicyVersion : Int := engine.policyRepository.policyVersion

/-- The loop over the evaluators: it stops once both halves of the result are determined. -/
def evaluateAll [ClassLoader] (request : RangerAccessRequest) (result : RangerAccessResult)
    (evaluators : List RangerPolicyEvaluator) :
    RangerAccessResult × List RangerPolicyEvaluator :=
  Scan.scan (fun evaluator result => evaluator.evaluate request result)
    (fun result => result.isAccessDetermined && result.isAuditedDetermined) evaluators result

def isAccessAllowedNoAudit [ClassLoader] (request : RangerAccessRequest) :
    RangerAccessResult × RangerPolicyEngineImpl :=
  let (foundInCache, ret, repository) :=
    engine.policyRepository.setAuditEnabledFromCache request {}
  let (ret, evaluators) := evaluateAll request ret repository.policyEvaluators
  let repository := { repository with policyEvaluators := evaluators }
  if foundInCache then (ret, ⟨repository⟩)
  else (ret, ⟨repository.storeAuditEnabledInCache request ret⟩)

/-- `isAccessAllowed(RangerAccessResource, user, userGroups, accessType)`. -/
def isAccessAllowed (resource : RangerAccessResource) (user : Option String)
    (userGroups : List String) (accessType : String) : Bool × RangerPolicyEngineImpl :=
  let (ret, evaluators) :=
    Scan.scan (fun evaluator _ => evaluator.isAccessAllowed resource user userGroups accessType)
      id engine.policyRepository.policyEvaluators false
  (ret, ⟨{ engine.policyRepository with policyEvaluators := evaluators }⟩)

/-- `isAccessAllowed(Map, user, userGroups, accessType)`. -/
def isMapAccessAllowed (resources : AssocMap String RangerPolicyResource) (user : Option String)
    (userGroups : List String) (accessType : String) : Bool :=
  engine.policyRepository.policyEvaluators.any fun evaluator =>
    evaluator.isMapAccessAllowed resources user userGroups accessType

def getExactMatchPolicy (resource : RangerAccessResource) : Option RangerPolicy :=
  (engine.policyRepository.policyEvaluators.find? fun evaluator =>
    evaluator.base.isSingleAndExactMatch resource).map (·.base.policy)

end RangerPolicyEngineImpl

end Ranger
