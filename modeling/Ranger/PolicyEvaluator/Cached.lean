import Ranger.Foundation.BoundedMap
import Ranger.Foundation.Run
import Ranger.PolicyEvaluator.Optimized

/-! # The cached policy evaluator

The optimized evaluator with a memory of the resources it has matched before. The
memory is keyed by the text of a resource, which need not determine the resource.
-/

namespace Ranger

open Foundation

/-- `RangerConfiguration`, by its integer properties. -/
abbrev RangerConfiguration := AssocMap String Nat

def RangerConfiguration.getInt (configuration : RangerConfiguration) (name : String)
    (defaultValue : Nat) : Nat :=
  (configuration.get? name).getD defaultValue

/-- `CacheMap`: in access order, bounded by its initial capacity. -/
abbrev CacheMap := BoundedMap (Option String)

inductive LookupResult where
  | notFound
  | inMatchedCache
  | inNotMatchedCache
  deriving DecidableEq

inductive CacheType where
  | matchedCache
  | notMatchedCache
  deriving DecidableEq

/-- The result of a match that is remembered under a kind. -/
def CacheType.outcome : CacheType → Bool
  | matchedCache => true
  | notMatchedCache => false

theorem CacheType.eq_of_outcome {type other : CacheType}
    (same : type.outcome = other.outcome) : type = other := by
  cases type with
  | matchedCache => cases other <;> first | rfl | cases same
  | notMatchedCache => cases other <;> first | rfl | cases same

structure RangerResourceAccessCacheImpl where
  serviceDef : RangerServiceDef
  matchedResourceCache : CacheMap (Option String)
  notMatchedResourceCache : CacheMap (Option String)

namespace RangerResourceAccessCacheImpl

def getInstance (configuration : RangerConfiguration) (serviceDef : RangerServiceDef) :
    RangerResourceAccessCacheImpl :=
  let matchedCacheSize := configuration.getInt "ranger.policyengine.matched.cached.count" 1000
  let notMatchedCacheSize :=
    configuration.getInt "ranger.policyengine.not.matched.cached.count" (matchedCacheSize * 10)
  ⟨serviceDef, .ofCapacity matchedCacheSize, .ofCapacity notMatchedCacheSize⟩

def lookup (cache : RangerResourceAccessCacheImpl) (resource : RangerAccessResource) :
    LookupResult :=
  let strResource := resource.getAsString cache.serviceDef
  if cache.matchedResourceCache.containsKey strResource then .inMatchedCache
  else if cache.notMatchedResourceCache.containsKey strResource then .inNotMatchedCache
  else .notFound

def add (cache : RangerResourceAccessCacheImpl) (resource : RangerAccessResource) :
    CacheType → RangerResourceAccessCacheImpl :=
  let strResource := resource.getAsString cache.serviceDef
  fun
  | .matchedCache =>
      { cache with matchedResourceCache := cache.matchedResourceCache.put strResource strResource }
  | .notMatchedCache =>
      { cache with
        notMatchedResourceCache := cache.notMatchedResourceCache.put strResource strResource }

/-- The map a kind of result is remembered in. -/
def mapFor (cache : RangerResourceAccessCacheImpl) : CacheType → CacheMap (Option String)
  | .matchedCache => cache.matchedResourceCache
  | .notMatchedCache => cache.notMatchedResourceCache

@[simp] theorem serviceDef_add (cache : RangerResourceAccessCacheImpl)
    (resource : RangerAccessResource) (type : CacheType) :
    (cache.add resource type).serviceDef = cache.serviceDef := by
  cases type with
  | matchedCache => rfl
  | notMatchedCache => rfl

theorem mapFor_add (cache : RangerResourceAccessCacheImpl) (resource : RangerAccessResource)
    (type other : CacheType) :
    (cache.add resource type).mapFor other =
      if other = type then
        (cache.mapFor type).put (resource.getAsString cache.serviceDef)
          (resource.getAsString cache.serviceDef)
      else cache.mapFor other := by
  cases type with
  | matchedCache => cases other <;> rfl
  | notMatchedCache => cases other <;> rfl

end RangerResourceAccessCacheImpl

namespace RangerCachedPolicyEvaluator

open RangerDefaultPolicyEvaluator RangerResourceAccessCacheImpl

section Evaluator

variable [Platform] (evaluator : RangerDefaultPolicyEvaluator)

/-- `RangerCachedPolicyEvaluator.isMatch`. -/
def isMatch (resource : RangerAccessResource) (cache : RangerResourceAccessCacheImpl) :
    Bool × RangerResourceAccessCacheImpl :=
  match cache.lookup resource with
  | .inNotMatchedCache => (false, cache)
  | .inMatchedCache => (true, cache)
  | .notFound =>
      if evaluator.isMatch resource then (true, cache.add resource .matchedCache)
      else (false, cache.add resource .notMatchedCache)

def evaluate [ClassLoader] (request : RangerAccessRequest) (result : RangerAccessResult)
    (cache : RangerResourceAccessCacheImpl) : RangerAccessResult × RangerResourceAccessCacheImpl :=
  evaluator.evaluateWith (isMatch evaluator)
    (RangerOptimizedPolicyEvaluator.evaluatePolicyItemsForAccess evaluator) request result cache

/-- The answers to resources presented one after another to a new evaluator. -/
def answers (configuration : RangerConfiguration) (resources : List RangerAccessResource) :
    List Bool :=
  Run.outputs (fun cache resource => isMatch evaluator resource cache)
    (getInstance configuration evaluator.serviceDef) resources

/-- Two resources the cache may confuse without harm. -/
def Interchangeable (first second : RangerAccessResource) : Prop :=
  first.getAsString evaluator.serviceDef = second.getAsString evaluator.serviceDef →
    evaluator.isMatch first = evaluator.isMatch second

/-- Every key of a cache is the text of a resource that was presented, matched or
not matched as the map says. -/
structure Sound (past : List RangerAccessResource) (cache : RangerResourceAccessCacheImpl) :
    Prop where
  serviceDef : cache.serviceDef = evaluator.serviceDef
  stands : ∀ type, ∀ key ∈ (cache.mapFor type).keys, ∃ resource ∈ past,
    resource.getAsString evaluator.serviceDef = key ∧ evaluator.isMatch resource = type.outcome

/-- What holds while nothing has been evicted: every resource presented is
remembered, in one of the maps only, and there is room for more. -/
structure Complete (room : Nat) (past : List RangerAccessResource)
    (cache : RangerResourceAccessCacheImpl) : Prop where
  serviceDef : cache.serviceDef = evaluator.serviceDef
  remembered : ∀ type, ∀ resource ∈ past, evaluator.isMatch resource = type.outcome →
    resource.getAsString evaluator.serviceDef ∈ (cache.mapFor type).keys
  disjoint : ∀ type other, ∀ key ∈ (cache.mapFor type).keys,
    key ∈ (cache.mapFor other).keys → type = other
  capacity : ∀ type, room ≤ (cache.mapFor type).capacity
  length : ∀ type, (cache.mapFor type).entries.length ≤ past.length

/-- What a call answers and leaves behind: a remembered answer, or the answer of
the default evaluator, which is remembered. -/
theorem isMatch_cases (resource : RangerAccessResource) (cache : RangerResourceAccessCacheImpl) :
    (∃ type, resource.getAsString cache.serviceDef ∈ (cache.mapFor type).keys ∧
      isMatch evaluator resource cache = (type.outcome, cache)) ∨
    ((∀ type, resource.getAsString cache.serviceDef ∉ (cache.mapFor type).keys) ∧
      ∃ type, evaluator.isMatch resource = type.outcome ∧
        isMatch evaluator resource cache = (type.outcome, cache.add resource type)) := by
  unfold isMatch lookup
  by_cases matched : cache.matchedResourceCache.containsKey (resource.getAsString cache.serviceDef)
  · refine Or.inl ⟨.matchedCache, BoundedMap.containsKey_iff.mp matched, ?_⟩
    simp only [matched, ↓reduceIte, CacheType.outcome]
  · by_cases notMatched :
        cache.notMatchedResourceCache.containsKey (resource.getAsString cache.serviceDef)
    · refine Or.inl ⟨.notMatchedCache, BoundedMap.containsKey_iff.mp notMatched, ?_⟩
      simp only [matched, notMatched, Bool.false_eq_true, ↓reduceIte, CacheType.outcome]
    · refine Or.inr ⟨?_, ?_⟩
      · intro type
        cases type with
        | matchedCache => exact fun member => matched (BoundedMap.containsKey_iff.mpr member)
        | notMatchedCache => exact fun member => notMatched (BoundedMap.containsKey_iff.mpr member)
      · cases outcome : evaluator.isMatch resource with
        | true => exact ⟨.matchedCache, rfl, by simp [matched, notMatched, CacheType.outcome]⟩
        | false => exact ⟨.notMatchedCache, rfl, by simp [matched, notMatched, CacheType.outcome]⟩

variable {evaluator}

theorem Sound.extend {past : List RangerAccessResource} {cache : RangerResourceAccessCacheImpl}
    (sound : Sound evaluator past cache) (resource : RangerAccessResource) :
    Sound evaluator (past ++ [resource]) cache where
  serviceDef := sound.serviceDef
  stands := by
    intro type key member
    obtain ⟨earlier, presented, stands⟩ := sound.stands type key member
    exact ⟨earlier, List.mem_append_left _ presented, stands⟩

/-- A call keeps a cache sound. -/
theorem Sound.isMatch {past : List RangerAccessResource} {cache : RangerResourceAccessCacheImpl}
    (sound : Sound evaluator past cache) (resource : RangerAccessResource) :
    Sound evaluator (past ++ [resource]) (isMatch evaluator resource cache).2 := by
  obtain ⟨type, _, answered⟩ | ⟨_, type, outcome, answered⟩ :=
    isMatch_cases evaluator resource cache
  · rw [answered]
    exact sound.extend resource
  · rw [answered]
    refine ⟨by rw [serviceDef_add, sound.serviceDef], fun other key member => ?_⟩
    rw [mapFor_add] at member
    by_cases same : other = type
    · subst same
      rw [if_pos rfl] at member
      obtain ⟨entry, listed, rfl⟩ := List.mem_map.mp member
      rcases BoundedMap.mem_put listed with kept | written
      · exact (sound.extend resource).stands other _ (BoundedMap.mem_keys_of_mem kept)
      · refine ⟨resource, List.mem_append_right _ List.mem_cons_self, ?_, outcome⟩
        rw [written, sound.serviceDef]
    · rw [if_neg same] at member
      exact (sound.extend resource).stands other key member

/-- A sound cache answers as the default evaluator for a resource that no earlier
one stands in for wrongly. -/
theorem Sound.answer {past : List RangerAccessResource} {cache : RangerResourceAccessCacheImpl}
    (sound : Sound evaluator past cache) {resource : RangerAccessResource}
    (harmless : ∀ earlier ∈ past, Interchangeable evaluator earlier resource) :
    (RangerCachedPolicyEvaluator.isMatch evaluator resource cache).1 =
      evaluator.isMatch resource := by
  obtain ⟨type, remembered, answered⟩ | ⟨_, type, outcome, answered⟩ :=
    isMatch_cases evaluator resource cache
  · rw [sound.serviceDef] at remembered
    obtain ⟨earlier, presented, same, outcome⟩ := sound.stands type _ remembered
    rw [answered, ← outcome]
    exact harmless earlier presented same
  · rw [answered, outcome]

theorem sound_getInstance (configuration : RangerConfiguration) :
    Sound evaluator [] (getInstance configuration evaluator.serviceDef) where
  serviceDef := rfl
  stands := by
    intro type key member
    cases type with
    | matchedCache => cases member
    | notMatchedCache => cases member

section Complete

variable {room : Nat} {past : List RangerAccessResource} {cache : RangerResourceAccessCacheImpl}
  (complete : Complete evaluator room past cache) {resource : RangerAccessResource}

include complete

/-- Every resource presented is in the map of its result. -/
private theorem Complete.remembers :
    ∀ earlier ∈ past, ∃ type, evaluator.isMatch earlier = type.outcome ∧
      earlier.getAsString evaluator.serviceDef ∈ (cache.mapFor type).keys := by
  intro earlier presented
  cases outcome : evaluator.isMatch earlier with
  | true => exact ⟨.matchedCache, rfl, complete.remembered .matchedCache _ presented outcome⟩
  | false => exact ⟨.notMatchedCache, rfl, complete.remembered .notMatchedCache _ presented outcome⟩

/-- A remembered answer that is right leaves the cache complete. -/
private theorem Complete.extend {type : CacheType}
    (remembered : resource.getAsString evaluator.serviceDef ∈ (cache.mapFor type).keys)
    (outcome : evaluator.isMatch resource = type.outcome) :
    Complete evaluator room (past ++ [resource]) cache where
  serviceDef := complete.serviceDef
  remembered := by
    intro other presented member matched
    rcases List.mem_append.mp member with before | last
    · exact complete.remembered other presented before matched
    · rw [List.mem_singleton.mp last] at matched ⊢
      rwa [CacheType.eq_of_outcome (matched.symm.trans outcome)]
  disjoint := complete.disjoint
  capacity := complete.capacity
  length := by
    intro other
    rw [List.length_append]
    exact Nat.le_trans (complete.length other) (Nat.le_add_right _ _)

/-- Remembering a new answer leaves the cache complete while there is room. -/
private theorem Complete.add (short : past.length < room) {type : CacheType}
    (fresh : ∀ other, resource.getAsString evaluator.serviceDef ∉ (cache.mapFor other).keys)
    (outcome : evaluator.isMatch resource = type.outcome) :
    Complete evaluator room (past ++ [resource]) (cache.add resource type) := by
  have roomLeft : (cache.mapFor type).entries.length < (cache.mapFor type).capacity :=
    Nat.lt_of_le_of_lt (complete.length type) (Nat.lt_of_lt_of_le short (complete.capacity type))
  have written := BoundedMap.entries_put_of_room (resource.getAsString evaluator.serviceDef)
    (fresh type) roomLeft
  have keys_add : ∀ other key, key ∈ ((cache.add resource type).mapFor other).keys ↔
      key ∈ (cache.mapFor other).keys ∨
        (other = type ∧ key = resource.getAsString evaluator.serviceDef) := by
    intro other key
    rw [mapFor_add, complete.serviceDef]
    by_cases same : other = type
    · subst same
      simp [BoundedMap.keys, written]
    · simp [same]
  refine ⟨by rw [serviceDef_add, complete.serviceDef], ?_, ?_, ?_, ?_⟩
  · intro other presented member matched
    rw [keys_add]
    rcases List.mem_append.mp member with before | last
    · exact Or.inl (complete.remembered other presented before matched)
    · rw [List.mem_singleton.mp last] at matched ⊢
      exact Or.inr ⟨CacheType.eq_of_outcome (matched.symm.trans outcome), rfl⟩
  · intro first second key left right
    rw [keys_add] at left right
    rcases left with left | ⟨rfl, rfl⟩
    · rcases right with right | ⟨rfl, rfl⟩
      · exact complete.disjoint first second key left right
      · exact absurd left (fresh first)
    · rcases right with right | ⟨rfl, _⟩
      · exact absurd right (fresh second)
      · rfl
  · intro other
    rw [mapFor_add]
    by_cases same : other = type
    · simpa [same] using complete.capacity type
    · simpa [same] using complete.capacity other
  · intro other
    have within := complete.length other
    rw [mapFor_add, complete.serviceDef, List.length_append, List.length_singleton]
    by_cases same : other = type
    · subst same
      simp only [↓reduceIte, written, List.length_append, List.length_singleton]
      omega
    · simp only [same, ↓reduceIte]
      omega

/-- A complete cache that answers as the default evaluator had no harmful text,
and stays complete. -/
theorem Complete.isMatch (short : past.length < room)
    (agrees : (RangerCachedPolicyEvaluator.isMatch evaluator resource cache).1 =
      evaluator.isMatch resource) :
    (∀ earlier ∈ past, Interchangeable evaluator earlier resource) ∧
      Complete evaluator room (past ++ [resource])
        (RangerCachedPolicyEvaluator.isMatch evaluator resource cache).2 := by
  obtain ⟨type, remembered, answered⟩ | ⟨fresh, type, outcome, answered⟩ :=
    isMatch_cases evaluator resource cache
  · rw [answered] at agrees ⊢
    rw [complete.serviceDef] at remembered
    refine ⟨?_, complete.extend remembered agrees.symm⟩
    intro earlier presented same
    obtain ⟨earlierType, outcome, listed⟩ := complete.remembers earlier presented
    rw [same] at listed
    rw [outcome, ← agrees, complete.disjoint _ _ _ listed remembered]
  · rw [answered]
    rw [complete.serviceDef] at fresh
    refine ⟨?_, complete.add short fresh outcome⟩
    intro earlier presented same
    obtain ⟨earlierType, _, listed⟩ := complete.remembers earlier presented
    rw [same] at listed
    exact absurd listed (fresh earlierType)

end Complete

/-- Cache sizes that hold a number of resources. -/
def configurationFor (count : Nat) : RangerConfiguration :=
  ⟨[("ranger.policyengine.matched.cached.count", count),
    ("ranger.policyengine.not.matched.cached.count", count)], by simp⟩

theorem complete_getInstance (room : Nat) :
    Complete evaluator room [] (getInstance (configurationFor room) evaluator.serviceDef) where
  serviceDef := rfl
  remembered := by
    intro type resource presented
    cases presented
  disjoint := by
    intro type other key member
    cases type with
    | matchedCache => cases member
    | notMatchedCache => cases member
  capacity := by
    intro type
    cases type with
    | matchedCache => exact Nat.le_refl room
    | notMatchedCache => exact Nat.le_refl room
  length := by
    intro type
    cases type with
    | matchedCache => exact Nat.le_refl 0
    | notMatchedCache => exact Nat.le_refl 0

end Evaluator

/-- **Transparency of the match cache.** With caches of every size, a run of
calls answers as the default evaluator exactly when no two of its resources with
the same text are matched differently. -/
theorem answers_eq_isMatch_iff [Platform] (policy : RangerPolicy) (serviceDef : RangerServiceDef)
    (options : RangerPolicyEngineOptions) (resources : List RangerAccessResource) :
    (∀ configuration, answers (init policy serviceDef options) configuration resources =
        resources.map (init policy serviceDef options).isMatch) ↔
      resources.Pairwise (Interchangeable (init policy serviceDef options)) := by
  generalize init policy serviceDef options = evaluator
  constructor
  · intro transparent
    have forces : ∀ past cache resource, past.length < resources.length →
        Complete evaluator resources.length past cache →
        (isMatch evaluator resource cache).1 = evaluator.isMatch resource →
        (∀ earlier ∈ past, Interchangeable evaluator earlier resource) ∧
          Complete evaluator resources.length (past ++ [resource])
            (isMatch evaluator resource cache).2 :=
      fun _ _ _ short complete agrees => complete.isMatch short agrees
    exact Run.pairwise_of_outputs_eq_map forces resources [] _
      (complete_getInstance resources.length) List.Pairwise.nil (Nat.le_refl _)
      (transparent (configurationFor resources.length))
  · intro harmless configuration
    have agrees : ∀ past cache resource, Sound evaluator past cache →
        (∀ earlier ∈ past, Interchangeable evaluator earlier resource) →
        (isMatch evaluator resource cache).1 = evaluator.isMatch resource ∧
          Sound evaluator (past ++ [resource]) (isMatch evaluator resource cache).2 :=
      fun _ _ resource sound earlier => ⟨sound.answer earlier, sound.isMatch resource⟩
    exact Run.outputs_eq_map agrees resources [] _ (sound_getInstance configuration) harmless

section SameText

attribute [local instance] Platform.ascii

/-- A service type in which a table and a function are named below a database. -/
def tableServiceDef : RangerServiceDef where
  name := "hive"
  resources :=
    [{ name := "database" }, { name := "table", level := 2 }, { name := "udf", level := 2 }]
  accessTypes := [{ name := "select" }]

def tablePolicy : RangerPolicy where
  resources := ⟨[("database", { values := ["sales"] }), ("table", { values := ["orders"] })],
    by decide⟩
  policyItems := []

def ordersTable : RangerAccessResource where
  elements := some ⟨[("database", some "sales"), ("table", some "orders")], by decide⟩

def ordersFunction : RangerAccessResource where
  elements := some ⟨[("database", some "sales"), ("udf", some "orders")], by decide⟩

/-- The function is taken for the table whose text it shares. -/
theorem function_taken_for_table :
    answers (init tablePolicy tableServiceDef {}) ∅ [ordersTable, ordersFunction] =
        [true, true] ∧
      [ordersTable, ordersFunction].map (init tablePolicy tableServiceDef {}).isMatch =
        [true, false] := by
  decide

end SameText

end RangerCachedPolicyEvaluator

end Ranger
