import Ranger.PolicyEngine.Verdict

/-! # The audit-decision cache

An engine remembers, for the text of a resource, that a request on it was
audited, and audits later requests with that text without asking a policy. The
text neither determines the resource nor tells under which access type the
decision was made.
-/

namespace Ranger

open Foundation

namespace RangerPolicyEngineImpl

open RangerPolicyEvaluator

section Cache

variable [Platform]

/-- Some enabled policy within whose reach the request is has auditing enabled. -/
def AuditedBy (servicePolicies : ServicePolicies) (options : RangerPolicyEngineOptions)
    (request : RangerAccessRequest) : Prop :=
  ∃ policy ∈ servicePolicies.policies, policy.isEnabled = true ∧
    Reaches servicePolicies.serviceDef options request policy ∧ policy.isAuditEnabled = true

/-- Whether the resources of two requests have the same text. -/
def SameText (serviceDef : RangerServiceDef) (first second : RangerAccessRequest) : Prop :=
  first.resource.getAsString serviceDef = second.resource.getAsString serviceDef

/-- A request whose remembered decisions do not mislead a later one: with the
same text, the later request is audited if the earlier one is, and evaluators
with a match cache match both resources alike. -/
structure Harmless (servicePolicies : ServicePolicies) (options : RangerPolicyEngineOptions)
    (earlier later : RangerAccessRequest) : Prop where
  audit : SameText servicePolicies.serviceDef earlier later →
    AuditedBy servicePolicies options earlier → AuditedBy servicePolicies options later
  isMatch : EvaluatorType.ofName options.evaluatorType = .cached →
    ∀ policy ∈ servicePolicies.policies, policy.isEnabled = true →
      RangerCachedPolicyEvaluator.Interchangeable
        (RangerDefaultPolicyEvaluator.init policy servicePolicies.serviceDef options)
        earlier.resource later.resource

/-- The evaluators of an engine that has answered requests on some resources. -/
structure Evaluators (servicePolicies : ServicePolicies) (options : RangerPolicyEngineOptions)
    (past : List RangerAccessResource) (engine : RangerPolicyEngineImpl) : Prop where
  serviceDef : engine.policyRepository.serviceDef = servicePolicies.serviceDef
  type : ∀ evaluator ∈ engine.policyRepository.policyEvaluators,
    evaluator.type = EvaluatorType.ofName options.evaluatorType
  base : ∀ base : RangerDefaultPolicyEvaluator,
    base ∈ engine.policyRepository.policyEvaluators.map (·.base) ↔
      ∃ policy ∈ servicePolicies.policies, policy.isEnabled = true ∧
        RangerDefaultPolicyEvaluator.init policy servicePolicies.serviceDef options = base
  sound : ∀ evaluator ∈ engine.policyRepository.policyEvaluators,
    RangerCachedPolicyEvaluator.Sound evaluator.base past evaluator.cache

/-- Every remembered decision is positive and was made for an audited request. -/
structure Remembers (servicePolicies : ServicePolicies) (options : RangerPolicyEngineOptions)
    (past : List RangerAccessRequest) (accessAuditCache : CacheMap Bool) : Prop where
  positive : ∀ entry ∈ accessAuditCache.entries, entry.2 = true
  audited : ∀ key ∈ accessAuditCache.keys, ∃ earlier ∈ past,
    earlier.resource.getAsString servicePolicies.serviceDef = key ∧
      AuditedBy servicePolicies options earlier

/-- What holds while no decision has been dropped: every audited request is
remembered, and there is room for more. -/
structure RemembersAll (servicePolicies : ServicePolicies) (options : RangerPolicyEngineOptions)
    (room : Nat) (past : List RangerAccessRequest) (accessAuditCache : CacheMap Bool) : Prop where
  remembered : ∀ earlier ∈ past, AuditedBy servicePolicies options earlier →
    earlier.resource.getAsString servicePolicies.serviceDef ∈ accessAuditCache.keys
  capacity : room ≤ accessAuditCache.capacity
  length : accessAuditCache.entries.length ≤ past.length

variable {servicePolicies : ServicePolicies} {options : RangerPolicyEngineOptions}
  {engine : RangerPolicyEngineImpl}

theorem Evaluators.any_audits {past : List RangerAccessResource}
    (evaluators : Evaluators servicePolicies options past engine) (request : RangerAccessRequest) :
    engine.policyRepository.policyEvaluators.any (·.audits request) = true ↔
      AuditedBy servicePolicies options request := by
  have perBase : engine.policyRepository.policyEvaluators.any (·.audits request) =
      (engine.policyRepository.policyEvaluators.map (·.base)).any fun base =>
        base.covers (base.isMatch request.resource) request && base.policy.isAuditEnabled := by
    rw [List.any_map]
    rfl
  rw [perBase, List.any_eq_true]
  simp only [evaluators.base, Bool.and_eq_true]
  constructor
  · rintro ⟨base, ⟨policy, listed, enabled, rfl⟩, covered, audit⟩
    exact ⟨policy, listed, enabled, reaches_iff.mpr covered, audit⟩
  · rintro ⟨policy, listed, enabled, reaches, audit⟩
    exact ⟨_, ⟨policy, listed, enabled, rfl⟩, reaches_iff.mp reaches, audit⟩

theorem Evaluators.continue {past next : List RangerAccessResource}
    (evaluators : Evaluators servicePolicies options past engine)
    {successor : RangerPolicyEngineImpl}
    (serviceDef : successor.policyRepository.serviceDef = engine.policyRepository.serviceDef)
    (continues : List.Forall₂ (Continues next) engine.policyRepository.policyEvaluators
      successor.policyRepository.policyEvaluators) :
    Evaluators servicePolicies options next successor := by
  refine ⟨serviceDef.trans evaluators.serviceDef, ?_, ?_, ?_⟩
  · intro second member
    obtain ⟨first, listed, kept⟩ := Scan.exists_of_mem continues member
    rw [kept.type, evaluators.type first listed]
  · rw [Continues.map_base continues]
    exact evaluators.base
  · intro second member
    obtain ⟨first, _, kept⟩ := Scan.exists_of_mem continues member
    exact kept.sound

theorem Evaluators.trusted {past : List RangerAccessRequest}
    (evaluators : Evaluators servicePolicies options (past.map (·.resource)) engine)
    {request : RangerAccessRequest}
    (harmless : EvaluatorType.ofName options.evaluatorType = .cached → ∀ earlier ∈ past,
      ∀ policy ∈ servicePolicies.policies, policy.isEnabled = true →
        RangerCachedPolicyEvaluator.Interchangeable
          (RangerDefaultPolicyEvaluator.init policy servicePolicies.serviceDef options)
          earlier.resource request.resource) :
    ∀ evaluator ∈ engine.policyRepository.policyEvaluators,
      RangerCachedPolicyEvaluator.Sound evaluator.base (past.map (·.resource)) evaluator.cache ∧
        evaluator.Trusted (past.map (·.resource)) request.resource := by
  intro evaluator member
  refine ⟨evaluators.sound evaluator member, fun cached resource presented => ?_⟩
  obtain ⟨earlier, before, rfl⟩ := List.mem_map.mp presented
  obtain ⟨policy, listed, enabled, same⟩ :=
    (evaluators.base evaluator.base).mp (List.mem_map.mpr ⟨evaluator, member, rfl⟩)
  rw [evaluators.type evaluator member] at cached
  rw [← same]
  exact harmless cached earlier before policy listed enabled

section Request

variable [ClassLoader] {past : List RangerAccessRequest}
  (evaluators : Evaluators servicePolicies options (past.map (·.resource)) engine)
  {accessAuditCache : CacheMap Bool}
  (remembering : engine.policyRepository.accessAuditCache = some accessAuditCache)
  {request : RangerAccessRequest}
  (trusted : ∀ evaluator ∈ engine.policyRepository.policyEvaluators,
    RangerCachedPolicyEvaluator.Sound evaluator.base (past.map (·.resource)) evaluator.cache ∧
      evaluator.Trusted (past.map (·.resource)) request.resource)

include evaluators remembering trusted

/-- A request whose text is not remembered is audited as the policies say, and
remembered if it is. -/
private theorem isAccessAllowedNoAudit_of_missed
    (read : accessAuditCache.get (request.resource.getAsString servicePolicies.serviceDef) =
      (none, accessAuditCache)) :
    Evaluators servicePolicies options ((past ++ [request]).map (·.resource))
        (engine.isAccessAllowedNoAudit request).2 ∧
      ((engine.isAccessAllowedNoAudit request).1.isAudited = true ↔
        AuditedBy servicePolicies options request) ∧
      (engine.isAccessAllowedNoAudit request).2.policyRepository.accessAuditCache =
        some (if (engine.isAccessAllowedNoAudit request).1.isAudited then
            accessAuditCache.put (request.resource.getAsString servicePolicies.serviceDef) true
          else accessAuditCache) := by
  obtain ⟨raised, continues, _, audited⟩ :=
    evaluateAll_union trusted RangerAccessResult.raisedOnly_new
  have missed : engine.isAccessAllowedNoAudit request =
      ((evaluateAll request {} engine.policyRepository.policyEvaluators).1,
        ⟨RangerPolicyRepository.storeAuditEnabledInCache
          { engine.policyRepository with
            policyEvaluators := (evaluateAll request {} engine.policyRepository.policyEvaluators).2
            accessAuditCache := some accessAuditCache } request
          (evaluateAll request {} engine.policyRepository.policyEvaluators).1⟩) := by
    simp only [isAccessAllowedNoAudit, RangerPolicyRepository.setAuditEnabledFromCache,
      remembering, evaluators.serviceDef, read, Bool.false_eq_true, ↓reduceIte]
  rw [missed, List.map_append, List.map_singleton]
  simp only [RangerPolicyRepository.storeAuditEnabledInCache, raised.audit, evaluators.serviceDef]
  refine ⟨?_, ?_, ?_⟩
  · apply evaluators.continue
    · split <;> exact evaluators.serviceDef.symm
    · split <;> exact continues
  · rw [audited, Bool.false_or]
    exact evaluators.any_audits request
  · split
    · next audit => simp only [audit, Option.map_some]
    · next silent => rfl

/-- A request whose text is remembered is audited. -/
private theorem isAccessAllowedNoAudit_of_hit
    (present : request.resource.getAsString servicePolicies.serviceDef ∈ accessAuditCache.keys)
    (read : accessAuditCache.get (request.resource.getAsString servicePolicies.serviceDef) =
      (some true, accessAuditCache.renew
        (request.resource.getAsString servicePolicies.serviceDef) true present)) :
    Evaluators servicePolicies options ((past ++ [request]).map (·.resource))
        (engine.isAccessAllowedNoAudit request).2 ∧
      (engine.isAccessAllowedNoAudit request).1.isAudited = true ∧
      (engine.isAccessAllowedNoAudit request).2.policyRepository.accessAuditCache =
        some (accessAuditCache.get
          (request.resource.getAsString servicePolicies.serviceDef)).2 := by
  have raisedOnly : (({} : RangerAccessResult).setIsAudited true).RaisedOnly := ⟨rfl, rfl⟩
  obtain ⟨_, continues, _, audited⟩ := evaluateAll_union trusted raisedOnly
  have hit : engine.isAccessAllowedNoAudit request =
      ((evaluateAll request (({} : RangerAccessResult).setIsAudited true)
          engine.policyRepository.policyEvaluators).1,
        ⟨{ engine.policyRepository with
            policyEvaluators := (evaluateAll request (({} : RangerAccessResult).setIsAudited true)
              engine.policyRepository.policyEvaluators).2
            accessAuditCache := some (accessAuditCache.renew
              (request.resource.getAsString servicePolicies.serviceDef) true present) }⟩) := by
    simp only [isAccessAllowedNoAudit, RangerPolicyRepository.setAuditEnabledFromCache,
      remembering, evaluators.serviceDef, read, ↓reduceIte]
  rw [hit, List.map_append, List.map_singleton]
  refine ⟨evaluators.continue rfl continues, ?_, by rw [read]⟩
  simp only [audited, RangerAccessResult.setIsAudited_isAudited, Bool.true_or]

/-- What a request does to an engine whose audit cache holds positive decisions:
it is audited by a remembered decision, or as its policies say, and an audited
request is remembered. -/
theorem isAccessAllowedNoAudit_remembering
    (positive : ∀ entry ∈ accessAuditCache.entries, entry.2 = true) :
    let key := request.resource.getAsString servicePolicies.serviceDef
    let answer := engine.isAccessAllowedNoAudit request
    Evaluators servicePolicies options ((past ++ [request]).map (·.resource)) answer.2 ∧
      ((key ∈ accessAuditCache.keys ∧ answer.1.isAudited = true ∧
          answer.2.policyRepository.accessAuditCache = some (accessAuditCache.get key).2) ∨
        (key ∉ accessAuditCache.keys ∧
          (answer.1.isAudited = true ↔ AuditedBy servicePolicies options request) ∧
          answer.2.policyRepository.accessAuditCache =
            some (if answer.1.isAudited then accessAuditCache.put key true
              else accessAuditCache))) := by
  intro key answer
  obtain ⟨absent, read⟩ | ⟨value, present, listed, read⟩ := accessAuditCache.get_cases key
  · obtain ⟨next, audited, left⟩ :=
      isAccessAllowedNoAudit_of_missed evaluators remembering trusted read
    exact ⟨next, Or.inr ⟨absent, audited, left⟩⟩
  · obtain rfl : value = true := positive (key, value) listed
    obtain ⟨next, audited, left⟩ :=
      isAccessAllowedNoAudit_of_hit evaluators remembering trusted present read
    exact ⟨next, Or.inl ⟨present, audited, left⟩⟩

end Request

section Memory

variable {past : List RangerAccessRequest} {accessAuditCache : CacheMap Bool}
  {request : RangerAccessRequest} {room : Nat}

theorem Remembers.extend (remembers : Remembers servicePolicies options past accessAuditCache) :
    Remembers servicePolicies options (past ++ [request]) accessAuditCache where
  positive := remembers.positive
  audited := by
    intro key member
    obtain ⟨earlier, before, stands⟩ := remembers.audited key member
    exact ⟨earlier, List.mem_append_left _ before, stands⟩

theorem Remembers.get (remembers : Remembers servicePolicies options past accessAuditCache)
    (key : Option String) :
    Remembers servicePolicies options past (accessAuditCache.get key).2 where
  positive := fun entry member => remembers.positive entry (BoundedMap.mem_get member)
  audited := fun other member => remembers.audited other (BoundedMap.mem_keys_get_iff.mp member)

theorem Remembers.put (remembers : Remembers servicePolicies options past accessAuditCache)
    (audited : AuditedBy servicePolicies options request) :
    Remembers servicePolicies options (past ++ [request])
      (accessAuditCache.put (request.resource.getAsString servicePolicies.serviceDef) true) where
  positive := by
    intro entry member
    rcases BoundedMap.mem_put member with kept | rfl
    · exact remembers.positive entry kept
    · rfl
  audited := by
    intro key member
    obtain ⟨entry, listed, rfl⟩ := List.mem_map.mp member
    rcases BoundedMap.mem_put listed with kept | rfl
    · exact remembers.extend.audited _ (BoundedMap.mem_keys_of_mem kept)
    · exact ⟨request, List.mem_append_right _ List.mem_cons_self, rfl, audited⟩

theorem RemembersAll.get
    (remembers : RemembersAll servicePolicies options room past accessAuditCache)
    (present : request.resource.getAsString servicePolicies.serviceDef ∈ accessAuditCache.keys)
    (key : Option String) :
    RemembersAll servicePolicies options room (past ++ [request]) (accessAuditCache.get key).2 where
  remembered := by
    intro earlier member audited
    rw [BoundedMap.mem_keys_get_iff]
    rcases List.mem_append.mp member with before | last
    · exact remembers.remembered earlier before audited
    · rwa [List.mem_singleton.mp last]
  capacity := by simpa using remembers.capacity
  length := by
    have shorter := accessAuditCache.length_get key
    have within := remembers.length
    rw [List.length_append]
    omega

theorem RemembersAll.put
    (remembers : RemembersAll servicePolicies options room past accessAuditCache)
    (short : past.length < room)
    (absent : request.resource.getAsString servicePolicies.serviceDef ∉ accessAuditCache.keys) :
    RemembersAll servicePolicies options room (past ++ [request])
      (accessAuditCache.put (request.resource.getAsString servicePolicies.serviceDef) true) := by
  have written := BoundedMap.entries_put_of_room true absent
    (Nat.lt_of_le_of_lt remembers.length (Nat.lt_of_lt_of_le short remembers.capacity))
  refine ⟨?_, by simpa using remembers.capacity, ?_⟩
  · intro earlier member audited
    simp only [BoundedMap.keys, written, List.map_append, List.map_singleton]
    rcases List.mem_append.mp member with before | last
    · exact List.mem_append_left _ (remembers.remembered earlier before audited)
    · rw [List.mem_singleton.mp last]
      exact List.mem_append_right _ List.mem_cons_self
  · have within := remembers.length
    rw [written, List.length_append, List.length_append, List.length_singleton,
      List.length_singleton]
    omega

theorem RemembersAll.extend
    (remembers : RemembersAll servicePolicies options room past accessAuditCache)
    (silent : ¬ AuditedBy servicePolicies options request) :
    RemembersAll servicePolicies options room (past ++ [request]) accessAuditCache where
  remembered := by
    intro earlier member audited
    rcases List.mem_append.mp member with before | last
    · exact remembers.remembered earlier before audited
    · rw [List.mem_singleton.mp last] at audited
      exact absurd audited silent
  capacity := remembers.capacity
  length := by
    have within := remembers.length
    rw [List.length_append]
    omega

theorem remembers_ofCapacity (capacity : Nat) :
    Remembers servicePolicies options [] (.ofCapacity capacity) where
  positive := by
    intro entry member
    cases member
  audited := by
    intro key member
    cases member

theorem remembersAll_ofCapacity (room : Nat) :
    RemembersAll servicePolicies options room [] (.ofCapacity room) where
  remembered := by
    intro earlier before
    cases before
  capacity := Nat.le_refl room
  length := Nat.le_refl 0

end Memory

section Runs

variable [ClassLoader]

/-- The audit flags an engine with the audit cache gives to requests in turn. -/
def auditFlags (configuration : RangerConfiguration) (servicePolicies : ServicePolicies)
    (options : RangerPolicyEngineOptions) (requests : List RangerAccessRequest) : List Bool :=
  (Run.outputs (fun engine request => isAccessAllowedNoAudit engine request)
    (create configuration servicePolicies { options with cacheAuditResults := true })
    requests).map (·.isAudited)

/-- The audit flag of a request alone, asked of an engine without the audit cache. -/
def auditFlagAlone (configuration : RangerConfiguration) (servicePolicies : ServicePolicies)
    (options : RangerPolicyEngineOptions) (request : RangerAccessRequest) : Bool :=
  ((create configuration servicePolicies { options with cacheAuditResults := false }
    ).isAccessAllowedNoAudit request).1.isAudited

theorem evaluators_create (configuration : RangerConfiguration) (cacheAuditResults : Bool) :
    Evaluators servicePolicies options []
      (create configuration servicePolicies
        { options with cacheAuditResults := cacheAuditResults }) where
  serviceDef := rfl
  type := by
    intro evaluator member
    obtain ⟨policy, _, _, rfl⟩ := mem_policyEvaluators.mp member
    rfl
  base := by
    intro base
    rw [List.mem_map]
    constructor
    · rintro ⟨evaluator, member, rfl⟩
      obtain ⟨policy, listed, enabled, rfl⟩ := mem_policyEvaluators.mp member
      exact ⟨policy, listed, enabled, rfl⟩
    · rintro ⟨policy, listed, enabled, rfl⟩
      exact ⟨_, mem_policyEvaluators.mpr ⟨policy, listed, enabled, rfl⟩, rfl⟩
  sound := fun _ member => sound_of_mem_create member

theorem auditFlagAlone_iff (configuration : RangerConfiguration) (request : RangerAccessRequest) :
    auditFlagAlone configuration servicePolicies options request = true ↔
      AuditedBy servicePolicies options request := by
  have evaluators : Evaluators servicePolicies options (([] : List RangerAccessRequest).map
      (·.resource)) (create configuration servicePolicies
        { options with cacheAuditResults := false }) := evaluators_create configuration false
  have audited : auditFlagAlone configuration servicePolicies options request = _ :=
    (isAccessAllowedNoAudit_union rfl
      (evaluators.trusted fun _ earlier before => by cases before)).2
  rw [audited]
  exact evaluators.any_audits request

/-- The invariant of an engine with the audit cache. -/
structure Remembering (servicePolicies : ServicePolicies) (options : RangerPolicyEngineOptions)
    (past : List RangerAccessRequest) (engine : RangerPolicyEngineImpl) : Prop where
  evaluators : Evaluators servicePolicies options (past.map (·.resource)) engine
  cache : ∃ accessAuditCache, engine.policyRepository.accessAuditCache = some accessAuditCache ∧
    Remembers servicePolicies options past accessAuditCache

/-- The invariant while nothing has been dropped from the audit cache. -/
structure RememberingAll (servicePolicies : ServicePolicies) (options : RangerPolicyEngineOptions)
    (room : Nat) (past : List RangerAccessRequest) (engine : RangerPolicyEngineImpl) : Prop where
  evaluators : Evaluators servicePolicies options (past.map (·.resource)) engine
  cache : ∃ accessAuditCache, engine.policyRepository.accessAuditCache = some accessAuditCache ∧
    Remembers servicePolicies options past accessAuditCache ∧
    RemembersAll servicePolicies options room past accessAuditCache

/-- A request that no earlier one misleads is audited as it is alone. -/
theorem Remembering.step {past : List RangerAccessRequest}
    (remembering : Remembering servicePolicies options past engine)
    (configuration : RangerConfiguration) (request : RangerAccessRequest)
    (harmless : ∀ earlier ∈ past, Harmless servicePolicies options earlier request) :
    (engine.isAccessAllowedNoAudit request).1.isAudited =
        auditFlagAlone configuration servicePolicies options request ∧
      Remembering servicePolicies options (past ++ [request])
        (engine.isAccessAllowedNoAudit request).2 := by
  obtain ⟨evaluators, accessAuditCache, cached, remembers⟩ := remembering
  obtain ⟨next, ⟨present, audited, left⟩ | ⟨absent, audited, left⟩⟩ :=
    isAccessAllowedNoAudit_remembering evaluators cached
      (evaluators.trusted fun matching earlier before => (harmless earlier before).isMatch matching)
      remembers.positive
  · obtain ⟨earlier, before, same, auditedEarlier⟩ := remembers.audited _ present
    refine ⟨?_, next, _, left, (remembers.get _).extend⟩
    rw [audited, eq_comm, auditFlagAlone_iff]
    exact (harmless earlier before).audit same auditedEarlier
  · refine ⟨?_, next, _, left, ?_⟩
    · rw [Bool.eq_iff_iff, audited, auditFlagAlone_iff]
    · split
      · next raised => exact remembers.put (audited.mp raised)
      · exact remembers.extend

/-- Without match caches, a request that is audited as it is alone was not misled,
as long as nothing has been dropped. -/
theorem RememberingAll.step {room : Nat} {past : List RangerAccessRequest}
    (remembering : RememberingAll servicePolicies options room past engine)
    (uncached : EvaluatorType.ofName options.evaluatorType ≠ .cached) (short : past.length < room)
    (configuration : RangerConfiguration) (request : RangerAccessRequest)
    (agrees : (engine.isAccessAllowedNoAudit request).1.isAudited =
      auditFlagAlone configuration servicePolicies options request) :
    (∀ earlier ∈ past, Harmless servicePolicies options earlier request) ∧
      RememberingAll servicePolicies options room (past ++ [request])
        (engine.isAccessAllowedNoAudit request).2 := by
  obtain ⟨evaluators, accessAuditCache, cached, remembers, all⟩ := remembering
  have alone : auditFlagAlone configuration servicePolicies options request = true ↔
      AuditedBy servicePolicies options request := auditFlagAlone_iff configuration request
  rw [← agrees] at alone
  obtain ⟨next, ⟨present, audited, left⟩ | ⟨absent, audited, left⟩⟩ :=
    isAccessAllowedNoAudit_remembering evaluators cached
      (evaluators.trusted fun matching => absurd matching uncached) remembers.positive
  · refine ⟨fun earlier before => ⟨fun _ _ => alone.mp audited, fun matching => absurd matching
      uncached⟩, next, _, left, (remembers.get _).extend, all.get present _⟩
  · refine ⟨fun earlier before => ⟨fun same auditedEarlier => ?_, fun matching => absurd matching
      uncached⟩, next, _, left, ?_, ?_⟩
    · have present := all.remembered earlier before auditedEarlier
      rw [same] at present
      exact absurd present absent
    · split
      · next raised => exact remembers.put (audited.mp raised)
      · exact remembers.extend
    · split
      · exact all.put short absent
      · next silent => exact all.extend fun audit => silent (audited.mpr audit)

/-- An audit cache that holds a number of decisions. -/
def auditConfigurationFor (serviceName : String) (count : Nat) : RangerConfiguration :=
  ⟨[("ranger.plugin." ++ serviceName ++ ".policyengine.auditcachesize", count)], by simp⟩

theorem rememberingAll_create (servicePolicies : ServicePolicies)
    (options : RangerPolicyEngineOptions) (room : Nat) :
    RememberingAll servicePolicies options room []
      (create (auditConfigurationFor servicePolicies.serviceName room) servicePolicies
        { options with cacheAuditResults := true }) := by
  have sized : (auditConfigurationFor servicePolicies.serviceName room).getInt
      ("ranger.plugin." ++ servicePolicies.serviceName ++ ".policyengine.auditcachesize")
      (64 * 1024) = room := by
    simp [RangerConfiguration.getInt, auditConfigurationFor, AssocMap.get?]
  refine ⟨evaluators_create _ true, .ofCapacity room, ?_, remembers_ofCapacity room,
    remembersAll_ofCapacity room⟩
  simp only [create, RangerPolicyRepository.create, ↓reduceIte, sized]

/-- **Transparency of the audit cache.** Requests none of which misleads a later
one are audited as each is alone, for all cache sizes and evaluator classes. With
evaluators that have no match cache, these are the only ones for which that is
so under every configuration. -/
theorem auditFlags_eq_alone (servicePolicies : ServicePolicies)
    (options : RangerPolicyEngineOptions) (requests : List RangerAccessRequest) :
    (requests.Pairwise (Harmless servicePolicies options) → ∀ configuration,
      auditFlags configuration servicePolicies options requests =
        requests.map (auditFlagAlone configuration servicePolicies options)) ∧
    (EvaluatorType.ofName options.evaluatorType ≠ .cached →
      (∀ configuration, auditFlags configuration servicePolicies options requests =
        requests.map (auditFlagAlone configuration servicePolicies options)) →
      requests.Pairwise (Harmless servicePolicies options)) := by
  constructor
  · intro harmless configuration
    unfold auditFlags
    rw [← Run.outputs_map]
    have agrees : ∀ past engine request, Remembering servicePolicies options past engine →
        (∀ earlier ∈ past, Harmless servicePolicies options earlier request) →
        (isAccessAllowedNoAudit engine request).1.isAudited =
            auditFlagAlone configuration servicePolicies options request ∧
          Remembering servicePolicies options (past ++ [request])
            (isAccessAllowedNoAudit engine request).2 :=
      fun _ _ request remembering earlier => remembering.step configuration request earlier
    have start : Remembering servicePolicies options []
        (create configuration servicePolicies { options with cacheAuditResults := true }) :=
      ⟨evaluators_create configuration true, _, rfl, remembers_ofCapacity _⟩
    exact Run.outputs_eq_map agrees requests [] _ start harmless
  · intro uncached transparent
    have same := transparent (auditConfigurationFor servicePolicies.serviceName requests.length)
    unfold auditFlags at same
    rw [← Run.outputs_map] at same
    have forces : ∀ past engine request, past.length < requests.length →
        RememberingAll servicePolicies options requests.length past engine →
        (isAccessAllowedNoAudit engine request).1.isAudited =
          auditFlagAlone (auditConfigurationFor servicePolicies.serviceName requests.length)
            servicePolicies options request →
        (∀ earlier ∈ past, Harmless servicePolicies options earlier request) ∧
          RememberingAll servicePolicies options requests.length (past ++ [request])
            (isAccessAllowedNoAudit engine request).2 :=
      fun _ _ request short remembering agrees =>
        remembering.step uncached short _ request agrees
    exact Run.pairwise_of_outputs_eq_map forces requests [] _
      (rememberingAll_create servicePolicies options requests.length) List.Pairwise.nil
      (Nat.le_refl _) same

end Runs

end Cache

section AccessType

attribute [local instance] Platform.ascii ClassLoader.addresses

open RangerCachedPolicyEvaluator (tablePolicy tableServiceDef)

def tablePolicies : ServicePolicies where
  serviceName := "warehouse"
  serviceDef := tableServiceDef
  policies := [tablePolicy]

def salesRequest (accessType : String) : RangerAccessRequest where
  resource := { elements := some ⟨[("database", some "sales")], by decide⟩ }
  accessType := accessType
  user := some "alice"

/-- Asking for any access on the database, which heads the policy's table, makes
a later query of the database itself an audited one. -/
theorem head_match_audits_query :
    auditFlags ∅ tablePolicies { evaluatorType := "default" }
        [salesRequest ANY_ACCESS, salesRequest "select"] = [true, true] ∧
      [salesRequest ANY_ACCESS, salesRequest "select"].map
        (auditFlagAlone ∅ tablePolicies { evaluatorType := "default" }) = [true, false] := by
  decide

end AccessType

end RangerPolicyEngineImpl

end Ranger
