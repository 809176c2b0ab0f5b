import Mathlib.Data.List.Dedup
import Ranger.Foundation.Spread
import Ranger.PolicyEvaluator.Default

/-! # Implied grants

A service definition lets an access type imply others. An evaluator adds the implied
types to the accesses of every item in one round over the types that imply something,
in the order of a hash map.
-/

namespace Ranger

open Foundation

namespace RangerDefaultPolicyEvaluator

section Accesses

variable [Platform]

/-- The first access listed for a type is allowed. -/
def allowedAt (accesses : List RangerPolicyItemAccess) (accessType : String) : Bool :=
  (accesses.find? fun access => equalsIgnoreCase accessType access.type).any (·.isAllowed)

/-- Allow an access, or raise the one that is listed. -/
def withGrant (isAllowed : Bool) (accesses : List RangerPolicyItemAccess)
    (impliedGrant : String) : List RangerPolicyItemAccess :=
  FirstMatch.upsert
    (fun impliedGrant (listed : RangerPolicyItemAccess) =>
      equalsIgnoreCase impliedGrant listed.type)
    (fun listed => { listed with isAllowed := listed.isAllowed || isAllowed })
    (fun impliedGrant => [⟨impliedGrant, isAllowed⟩]) accesses impliedGrant

theorem equalsIgnoreCase_right {first second : String} (same : equalsIgnoreCase first second = true)
    (other : String) : equalsIgnoreCase other first = equalsIgnoreCase other second := by
  unfold equalsIgnoreCase
  rw [equalsIgnoreCase_iff.mp same]

theorem equalsIgnoreCase_trans {first second third : String}
    (one : equalsIgnoreCase first second = true) (two : equalsIgnoreCase first third = true) :
    equalsIgnoreCase second third = true := by
  rw [equalsIgnoreCase_iff] at one two ⊢
  rw [← one, two]

theorem allowedAt_withGrant (isAllowed : Bool) (accesses : List RangerPolicyItemAccess)
    (impliedGrant accessType : String) :
    allowedAt (withGrant isAllowed accesses impliedGrant) accessType =
      (allowedAt accesses accessType ||
        (isAllowed && equalsIgnoreCase accessType impliedGrant)) := by
  have edited := @FirstMatch.find?_upsert _ _
    (fun impliedGrant (listed : RangerPolicyItemAccess) =>
      equalsIgnoreCase impliedGrant listed.type)
    (fun listed => { listed with isAllowed := listed.isAllowed || isAllowed })
    (fun impliedGrant => [⟨impliedGrant, isAllowed⟩]) impliedGrant
    (fun access => equalsIgnoreCase accessType access.type) (fun _ => rfl)
    (fun first second one two => equalsIgnoreCase_right (equalsIgnoreCase_trans one two) _)
    (fun item fresh => by rw [List.mem_singleton.mp fresh]; exact equalsIgnoreCase_refl _) accesses
  unfold allowedAt withGrant
  rw [edited]
  cases found : accesses.find? fun access => equalsIgnoreCase accessType access.type with
  | none =>
      cases same : equalsIgnoreCase accessType impliedGrant <;> simp [same]
  | some access =>
      have fits := List.find?_some found
      have same : equalsIgnoreCase impliedGrant access.type =
          equalsIgnoreCase accessType impliedGrant := by
        unfold equalsIgnoreCase at fits ⊢
        rw [decide_eq_true_iff] at fits
        simp only [fits, decide_eq_decide]
        exact eq_comm
      dsimp only
      rw [same]
      cases equalsIgnoreCase accessType impliedGrant <;> simp

theorem any_withGrant (isAllowed : Bool) (accesses : List RangerPolicyItemAccess)
    (impliedGrant : String) :
    (withGrant isAllowed accesses impliedGrant).any (·.isAllowed) =
      (accesses.any (·.isAllowed) || isAllowed) := by
  unfold withGrant
  induction accesses with
  | nil => simp
  | cons access rest ih =>
      rw [FirstMatch.upsert_cons]
      split
      · rw [List.any_cons, List.any_cons]
        exact Bool.or_right_comm _ _ _
      · rw [List.any_cons, List.any_cons, ih, Bool.or_assoc]

/-- The accesses of an item after one round of a type that implies others. -/
def impliedAccesses (accesses : List RangerPolicyItemAccess) (grants : String × List String) :
    List RangerPolicyItemAccess :=
  match accesses.find? fun access => equalsIgnoreCase grants.1 access.type with
  | none => accesses
  | some access => grants.2.foldl (withGrant access.isAllowed) accesses

theorem foldl_withGrant (isAllowed : Bool) (impliedGrants : List String)
    (accesses : List RangerPolicyItemAccess) :
    (∀ accessType, allowedAt (impliedGrants.foldl (withGrant isAllowed) accesses) accessType =
      (allowedAt accesses accessType ||
        (isAllowed && impliedGrants.any (equalsIgnoreCase accessType)))) ∧
    (impliedGrants.foldl (withGrant isAllowed) accesses).any (·.isAllowed) =
      (accesses.any (·.isAllowed) || (isAllowed && !impliedGrants.isEmpty)) := by
  induction impliedGrants generalizing accesses with
  | nil => simp
  | cons impliedGrant rest ih =>
      obtain ⟨at_types, any⟩ := ih (withGrant isAllowed accesses impliedGrant)
      constructor
      · intro accessType
        rw [List.foldl_cons, at_types, allowedAt_withGrant, List.any_cons, Bool.or_assoc,
          Bool.and_or_distrib_left]
      · rw [List.foldl_cons, any, any_withGrant]
        cases isAllowed <;> simp

theorem allowedAt_impliedAccesses (accesses : List RangerPolicyItemAccess)
    (grants : String × List String) (accessType : String) :
    allowedAt (impliedAccesses accesses grants) accessType =
      (allowedAt accesses accessType ||
        (allowedAt accesses grants.1 && grants.2.any (equalsIgnoreCase accessType))) := by
  cases found : accesses.find? fun access => equalsIgnoreCase grants.1 access.type with
  | none =>
      have denied : allowedAt accesses grants.1 = false := by simp only [allowedAt, found]; rfl
      simp only [impliedAccesses, found, denied, Bool.false_and, Bool.or_false]
  | some access =>
      have given : allowedAt accesses grants.1 = access.isAllowed := by
        simp only [allowedAt, found]
        rfl
      simp only [impliedAccesses, found, given, (foldl_withGrant _ _ _).1]

/-- A type that implies others does not add the first allowed access. -/
theorem any_impliedAccesses (accesses : List RangerPolicyItemAccess)
    (grants : String × List String) :
    (impliedAccesses accesses grants).any (·.isAllowed) = accesses.any (·.isAllowed) := by
  cases found : accesses.find? fun access => equalsIgnoreCase grants.1 access.type with
  | none => simp only [impliedAccesses, found]
  | some access =>
      simp only [impliedAccesses, found, (foldl_withGrant _ _ _).2, Bool.or_eq_left_iff_imp,
        Bool.and_eq_true, List.any_eq_true]
      exact fun allowed => ⟨access, List.mem_of_find?_eq_some found, allowed.1⟩

/-- Preparing an item changes its accesses only. -/
theorem preprocessPolicyItem_eq (serviceDef : RangerServiceDef) (policyItem : RangerPolicyItem) :
    preprocessPolicyItem serviceDef policyItem =
      { policyItem with
        accesses := (getImpliedAccessGrants serviceDef).foldl impliedAccesses
          policyItem.accesses } := by
  have one : ∀ (policyItem : RangerPolicyItem) grants, addImpliedGrants policyItem grants =
      { policyItem with accesses := impliedAccesses policyItem.accesses grants } := by
    intro policyItem grants
    unfold addImpliedGrants getAccess impliedAccesses
    cases policyItem.accesses.find? fun access => equalsIgnoreCase grants.1 access.type <;> rfl
  have all : ∀ (rounds : List (String × List String)) (policyItem : RangerPolicyItem),
      rounds.foldl addImpliedGrants policyItem =
        { policyItem with accesses := rounds.foldl impliedAccesses policyItem.accesses } := by
    intro rounds
    induction rounds with
    | nil => intro policyItem; rfl
    | cons grants rest ih =>
        intro policyItem
        rw [List.foldl_cons, ih, one]
        rfl
  have nothing : ∀ rounds : List (String × List String), rounds.foldl impliedAccesses [] = [] := by
    intro rounds
    induction rounds with
    | nil => rfl
    | cons grants rest ih => exact ih
  unfold preprocessPolicyItem
  split
  · next empty =>
      rw [List.isEmpty_iff] at empty
      rw [empty, nothing, ← empty]
  · exact all _ policyItem

/-- One list of accesses allows no more than another one. -/
structure AllowsNoMore (fewer more : List RangerPolicyItemAccess) : Prop where
  at_type : ∀ accessType, allowedAt fewer accessType = true → allowedAt more accessType = true
  any : fewer.any (·.isAllowed) = true → more.any (·.isAllowed) = true

theorem AllowsNoMore.impliedAccesses {fewer more : List RangerPolicyItemAccess}
    (below : AllowsNoMore fewer more) (grants : String × List String) :
    AllowsNoMore (impliedAccesses fewer grants)
      (RangerDefaultPolicyEvaluator.impliedAccesses more grants) where
  at_type accessType := by
    rw [allowedAt_impliedAccesses, allowedAt_impliedAccesses]
    simp only [Bool.or_eq_true, Bool.and_eq_true]
    exact Or.imp (below.at_type accessType) (And.imp_left (below.at_type grants.1))
  any := by
    rw [any_impliedAccesses, any_impliedAccesses]
    exact below.any

theorem AllowsNoMore.foldl {fewer more : List RangerPolicyItemAccess}
    (below : AllowsNoMore fewer more) (rounds : List (String × List String)) :
    AllowsNoMore (rounds.foldl RangerDefaultPolicyEvaluator.impliedAccesses fewer)
      (rounds.foldl RangerDefaultPolicyEvaluator.impliedAccesses more) := by
  induction rounds generalizing fewer more with
  | nil => exact below
  | cons grants rest ih => exact ih (below.impliedAccesses grants)

/-- Preparing two items keeps their accesses in that order. -/
theorem AllowsNoMore.preprocess {fewer more : RangerPolicyItem}
    (below : AllowsNoMore fewer.accesses more.accesses) (serviceDef : RangerServiceDef) :
    AllowsNoMore (preprocessPolicyItem serviceDef fewer).accesses
      (preprocessPolicyItem serviceDef more).accesses := by
  rw [preprocessPolicyItem_eq, preprocessPolicyItem_eq]
  exact below.foldl _

end Accesses

section Listed

variable [Platform]

/-- The type has an access listed, allowed or not. -/
def listedAt (accesses : List RangerPolicyItemAccess) (accessType : String) : Bool :=
  accesses.any fun access => equalsIgnoreCase accessType access.type

theorem listedAt_of_find? {accesses : List RangerPolicyItemAccess} {accessType : String}
    {access : RangerPolicyItemAccess}
    (found : accesses.find? (fun access => equalsIgnoreCase accessType access.type) = some access) :
    listedAt accesses accessType = true := by
  have fits := List.find?_some found
  exact List.any_eq_true.mpr ⟨access, List.mem_of_find?_eq_some found, fits⟩

theorem listedAt_withGrant (isAllowed : Bool) (accesses : List RangerPolicyItemAccess)
    (impliedGrant accessType : String) :
    listedAt (withGrant isAllowed accesses impliedGrant) accessType =
      (listedAt accesses accessType || equalsIgnoreCase accessType impliedGrant) := by
  have edited := @FirstMatch.any_upsert _ _
    (fun impliedGrant (listed : RangerPolicyItemAccess) =>
      equalsIgnoreCase impliedGrant listed.type)
    (fun listed => { listed with isAllowed := listed.isAllowed || isAllowed })
    (fun impliedGrant => [⟨impliedGrant, isAllowed⟩])
    (fun access => equalsIgnoreCase accessType access.type) (fun _ => rfl) accesses impliedGrant
  unfold listedAt withGrant
  rw [edited, List.any_cons, List.any_nil, Bool.or_false]
  cases same : equalsIgnoreCase accessType impliedGrant with
  | false => rw [Bool.and_false]
  | true =>
      have alike : ∀ access : RangerPolicyItemAccess,
          equalsIgnoreCase impliedGrant access.type = equalsIgnoreCase accessType access.type := by
        intro access
        unfold equalsIgnoreCase
        rw [equalsIgnoreCase_iff.mp same]
      simp only [alike, Bool.and_true, Bool.or_not_self, Bool.or_true]

theorem listedAt_impliedAccesses (accesses : List RangerPolicyItemAccess)
    (grants : String × List String) (accessType : String) :
    listedAt (impliedAccesses accesses grants) accessType =
      (listedAt accesses accessType ||
        (listedAt accesses grants.1 && grants.2.any (equalsIgnoreCase accessType))) := by
  have all : ∀ (isAllowed : Bool) (impliedGrants : List String)
      (accesses : List RangerPolicyItemAccess),
      listedAt (impliedGrants.foldl (withGrant isAllowed) accesses) accessType =
        (listedAt accesses accessType || impliedGrants.any (equalsIgnoreCase accessType)) := by
    intro isAllowed impliedGrants
    induction impliedGrants with
    | nil => exact fun accesses => (Bool.or_false _).symm
    | cons impliedGrant rest ih =>
        intro accesses
        rw [List.foldl_cons, ih, listedAt_withGrant, List.any_cons, Bool.or_assoc]
  unfold impliedAccesses
  cases found : accesses.find? fun access => equalsIgnoreCase grants.1 access.type with
  | none =>
      have unlisted : listedAt accesses grants.1 = false := by
        rw [listedAt, List.any_eq_false]
        exact List.find?_eq_none.mp found
      rw [unlisted, Bool.false_and, Bool.or_false]
  | some access =>
      rw [listedAt_of_find? found, Bool.true_and]
      exact all access.isAllowed grants.2 accesses

/-- A type that implies nothing new leaves the accesses as they are. -/
theorem impliedAccesses_of_settled {accesses : List RangerPolicyItemAccess}
    {grants : String × List String}
    (listed : listedAt accesses grants.1 = true →
      ∀ impliedGrant ∈ grants.2, listedAt accesses impliedGrant = true)
    (allowed : allowedAt accesses grants.1 = true →
      ∀ impliedGrant ∈ grants.2, allowedAt accesses impliedGrant = true) :
    impliedAccesses accesses grants = accesses := by
  unfold impliedAccesses
  cases found : accesses.find? fun access => equalsIgnoreCase grants.1 access.type with
  | none => rfl
  | some access =>
      have there := listedAt_of_find? found
      have given : allowedAt accesses grants.1 = access.isAllowed := by
        simp only [allowedAt, found]
        rfl
      -- every implied type is listed, and allowed when this access is
      have unchanged : ∀ impliedGrant ∈ grants.2,
          withGrant access.isAllowed accesses impliedGrant = accesses := by
        intro impliedGrant member
        obtain ⟨implied, foundImplied⟩ := Option.isSome_iff_exists.mp
          (List.find?_isSome.mpr (List.any_eq_true.mp (listed there impliedGrant member)))
        refine FirstMatch.upsert_of_find? foundImplied ?_
        have raised : (implied.isAllowed || access.isAllowed) = implied.isAllowed := by
          cases granted : access.isAllowed with
          | false => exact Bool.or_false _
          | true =>
              have also := allowed (given.trans granted) impliedGrant member
              simp only [allowedAt, foundImplied, Option.any_some] at also
              rw [also, Bool.true_or]
        rw [raised]
      have rounds : ∀ rest : List String, (∀ impliedGrant ∈ rest, impliedGrant ∈ grants.2) →
          rest.foldl (withGrant access.isAllowed) accesses = accesses := by
        intro rest
        induction rest with
        | nil => exact fun _ => rfl
        | cons impliedGrant rest ih =>
            intro within
            rw [List.foldl_cons, unchanged impliedGrant (within _ List.mem_cons_self)]
            exact ih fun other member => within other (List.mem_cons_of_mem _ member)
      exact rounds grants.2 fun _ member => member

end Listed

section Order

variable [platform : Platform]

/-- The service definition lets the first type imply the second. -/
def Implies (serviceDef : RangerServiceDef) (first second : String) : Prop :=
  ∃ accessType ∈ serviceDef.accessTypes, equalsIgnoreCase first accessType.name = true ∧
    ∃ impliedGrant ∈ accessType.impliedGrants, equalsIgnoreCase second impliedGrant = true

/-- An order in which hash collections are iterated. -/
structure HashOrder where
  order : List String → List String
  perm : ∀ names, (order names).Perm names

/-- The platform with another order of its hash collections. -/
@[reducible] def reordered (hashOrder : HashOrder) : Platform :=
  { platform with hashOrder := hashOrder.order, hashOrder_perm := hashOrder.perm }

/-- `preprocessPolicy` where hash collections are iterated in the order. -/
def preprocessIn (hashOrder : HashOrder) (policy : RangerPolicy) (serviceDef : RangerServiceDef) :
    RangerPolicy :=
  @preprocessPolicy (reordered hashOrder) policy serviceDef

/-- What an item that was prepared allows: what it allowed before, what that implies, and
nothing that does not follow from it in any number of steps. -/
structure Expanded (serviceDef : RangerServiceDef) (before after : RangerPolicyItem) : Prop where
  keeps : ∀ accessType, allowedAt before.accesses accessType = true →
    allowedAt after.accesses accessType = true
  implied : ∀ accessType impliedType, allowedAt before.accesses accessType = true →
    Implies serviceDef accessType impliedType → allowedAt after.accesses impliedType = true
  justified : ∀ accessType, allowedAt after.accesses accessType = true →
    ∃ start, allowedAt before.accesses start = true ∧
      Relation.ReflTransGen (Implies serviceDef) start accessType

/-- The implied grants of a policy are well defined: every item is expanded, by the same
types in every order, and a prepared policy is prepared again to itself. -/
structure WellExpanded (policy : RangerPolicy) (serviceDef : RangerServiceDef) : Prop where
  expanded : ∀ hashOrder, List.Forall₂ (Expanded serviceDef) policy.policyItems
    (preprocessIn hashOrder policy serviceDef).policyItems
  orderFree : ∀ first second, List.Forall₂
    (fun one other => ∀ accessType, allowedAt one.accesses accessType =
      allowedAt other.accesses accessType)
    (preprocessIn first policy serviceDef).policyItems
    (preprocessIn second policy serviceDef).policyItems
  repeatable : ∀ first second, preprocessIn second (preprocessIn first policy serviceDef)
    serviceDef = preprocessIn first policy serviceDef

/-- What is implied by an implied type is there already, or implied at once. -/
def ImpliesInOneStep (serviceDef : RangerServiceDef) (types : Set String) : Prop :=
  ∀ first ∈ types, ∀ second third, Implies serviceDef first second →
    Implies serviceDef second third →
    third ∈ types ∨ ∃ other ∈ types, Implies serviceDef other third

/-- A set of types in which letter case does not matter. -/
def CaseClosed (types : Set String) : Prop :=
  ∀ first ∈ types, ∀ second, equalsIgnoreCase first second = true → second ∈ types

/-- The rule a type that implies others stands for. -/
def spreadRule (grants : String × List String) : Spread.Rule String where
  trigger := grants.1
  adds := {accessType | grants.2.any (equalsIgnoreCase accessType) = true}

/-- The rules of a service definition in the order of the hash map. -/
def spreadRules (hashOrder : HashOrder) (serviceDef : RangerServiceDef) :
    List (Spread.Rule String) :=
  (@getImpliedAccessGrants (reordered hashOrder) serviceDef).map spreadRule

theorem preprocessIn_policyItems (hashOrder : HashOrder) (policy : RangerPolicy)
    (serviceDef : RangerServiceDef) :
    (preprocessIn hashOrder policy serviceDef).policyItems =
      policy.policyItems.map fun policyItem =>
        { policyItem with
          accesses := (@getImpliedAccessGrants (reordered hashOrder) serviceDef).foldl
            impliedAccesses policyItem.accesses } := by
  refine List.map_congr_left fun policyItem _ => ?_
  exact @preprocessPolicyItem_eq (reordered hashOrder) serviceDef policyItem

/-- A rule stands for an implication of the service definition. -/
theorem implies_of_step {hashOrder : HashOrder} {serviceDef : RangerServiceDef}
    {first second : String} (step : Spread.Step (spreadRules hashOrder serviceDef) first second) :
    Implies serviceDef first second := by
  obtain ⟨rule, listed, rfl, adds⟩ := step
  obtain ⟨grants, member, rfl⟩ := List.mem_map.mp listed
  obtain ⟨name, _, rfl⟩ := List.mem_map.mp member
  obtain ⟨impliedGrant, granted, same⟩ := List.any_eq_true.mp adds
  have original := (hashOrder.perm _).mem_iff.mp granted
  obtain ⟨accessTypeDef, implying, among⟩ := List.mem_flatMap.mp (List.mem_dedup.mp original)
  obtain ⟨implying, named⟩ := List.mem_filter.mp implying
  have nameOf : accessTypeDef.name = name := beq_iff_eq.mp named
  refine ⟨accessTypeDef, (List.mem_filter.mp implying).1, ?_, impliedGrant, among, same⟩
  rw [nameOf]
  exact equalsIgnoreCase_refl _

/-- The rules are those of the access types, in whatever order they come. -/
theorem added_spreadRules (hashOrder : HashOrder) (serviceDef : RangerServiceDef)
    {types : Set String} (closed : CaseClosed types) :
    Spread.added (spreadRules hashOrder serviceDef) types =
      {accessType | ∃ first ∈ types, Implies serviceDef first accessType} := by
  ext accessType
  constructor
  · intro ⟨rule, listed, triggered, adds⟩
    exact ⟨rule.trigger, triggered, implies_of_step ⟨rule, listed, rfl, adds⟩⟩
  · intro ⟨first, held, accessTypeDef, defined, named, impliedGrant, among, same⟩
    have implying : accessTypeDef ∈ serviceDef.accessTypes.filter
        fun accessType => !accessType.impliedGrants.isEmpty := by
      refine List.mem_filter.mpr ⟨defined, ?_⟩
      cases listed : accessTypeDef.impliedGrants with
      | nil => rw [listed] at among; cases among
      | cons _ _ => rfl
    have key : accessTypeDef.name ∈ hashOrder.order ((serviceDef.accessTypes.filter
        fun accessType => !accessType.impliedGrants.isEmpty).map (·.name)).dedup :=
      (hashOrder.perm _).mem_iff.mpr
        (List.mem_dedup.mpr (List.mem_map.mpr ⟨accessTypeDef, implying, rfl⟩))
    refine ⟨_, List.mem_map.mpr ⟨_, List.mem_map.mpr ⟨accessTypeDef.name, key, rfl⟩, rfl⟩,
      closed first held _ named, ?_⟩
    refine List.any_eq_true.mpr ⟨impliedGrant, (hashOrder.perm _).mem_iff.mpr ?_, same⟩
    refine List.mem_dedup.mpr (List.mem_flatMap.mpr ⟨accessTypeDef, ?_, among⟩)
    exact List.mem_filter.mpr ⟨implying, beq_self_eq_true _⟩

/-- An observation of accesses that a round spreads by the rules. -/
theorem observed_rounds {observe : List RangerPolicyItemAccess → String → Bool}
    (one : ∀ accesses grants accessType, observe (impliedAccesses accesses grants) accessType =
      (observe accesses accessType ||
        (observe accesses grants.1 && grants.2.any (equalsIgnoreCase accessType))))
    (rounds : List (String × List String)) (accesses : List RangerPolicyItemAccess) :
    {type | observe (rounds.foldl impliedAccesses accesses) type = true} =
      Spread.round (rounds.map spreadRule) {type | observe accesses type = true} := by
  induction rounds generalizing accesses with
  | nil => rfl
  | cons grants rest ih =>
      have first : {type | observe (impliedAccesses accesses grants) type = true} =
          Spread.fire {type | observe accesses type = true} (spreadRule grants) := by
        ext accessType
        change observe (impliedAccesses accesses grants) accessType = true ↔
          observe accesses accessType = true ∨ (observe accesses grants.1 = true ∧
            grants.2.any (equalsIgnoreCase accessType) = true)
        rw [one, Bool.or_eq_true, Bool.and_eq_true]
      rw [List.foldl_cons, ih, first]
      rfl

theorem caseClosed_allowedAt (accesses : List RangerPolicyItemAccess) :
    CaseClosed {type | allowedAt accesses type = true} := by
  intro first held second same
  change allowedAt accesses second = true
  have alike : allowedAt accesses second = allowedAt accesses first := by
    unfold allowedAt equalsIgnoreCase
    rw [equalsIgnoreCase_iff.mp same]
  exact alike.trans held

theorem caseClosed_listedAt (accesses : List RangerPolicyItemAccess) :
    CaseClosed {type | listedAt accesses type = true} := by
  intro first held second same
  change listedAt accesses second = true
  have alike : listedAt accesses second = listedAt accesses first := by
    unfold listedAt equalsIgnoreCase
    rw [equalsIgnoreCase_iff.mp same]
  exact alike.trans held

theorem listedAt_of_allowedAt {accesses : List RangerPolicyItemAccess} {accessType : String}
    (allowed : allowedAt accesses accessType = true) : listedAt accesses accessType = true := by
  unfold allowedAt at allowed
  cases found : accesses.find? fun access => equalsIgnoreCase accessType access.type with
  | none => rw [found] at allowed; cases allowed
  | some access => exact listedAt_of_find? found

/-- Rounds that have nothing to spread leave the accesses as they are. -/
theorem foldl_impliedAccesses_of_closed {accesses : List RangerPolicyItemAccess}
    {rounds : List (String × List String)}
    (listed : Spread.added (rounds.map spreadRule) {type | listedAt accesses type = true} ⊆
      {type | listedAt accesses type = true})
    (allowed : Spread.added (rounds.map spreadRule) {type | allowedAt accesses type = true} ⊆
      {type | allowedAt accesses type = true}) :
    rounds.foldl impliedAccesses accesses = accesses := by
  have unchanged : ∀ grants ∈ rounds, impliedAccesses accesses grants = accesses := by
    intro grants member
    have rule : spreadRule grants ∈ rounds.map spreadRule := List.mem_map.mpr ⟨grants, member, rfl⟩
    have among : ∀ impliedGrant ∈ grants.2, impliedGrant ∈ (spreadRule grants).adds :=
      fun impliedGrant granted =>
        List.any_eq_true.mpr ⟨impliedGrant, granted, equalsIgnoreCase_refl _⟩
    exact impliedAccesses_of_settled
      (fun triggered impliedGrant granted =>
        listed ⟨_, rule, triggered, among impliedGrant granted⟩)
      (fun triggered impliedGrant granted =>
        allowed ⟨_, rule, triggered, among impliedGrant granted⟩)
  have all : ∀ rest : List (String × List String), (∀ grants ∈ rest, grants ∈ rounds) →
      rest.foldl impliedAccesses accesses = accesses := by
    intro rest
    induction rest with
    | nil => exact fun _ => rfl
    | cons grants rest ih =>
        intro within
        rw [List.foldl_cons, unchanged grants (within _ List.mem_cons_self)]
        exact ih fun other member => within other (List.mem_cons_of_mem _ member)
  exact all rounds fun _ member => member

section OneStep

variable {serviceDef : RangerServiceDef} {types : Set String}

theorem Implies.congr_right {first second third : String}
    (implies : Implies serviceDef first second) (same : equalsIgnoreCase second third = true) :
    Implies serviceDef first third := by
  obtain ⟨accessType, defined, named, impliedGrant, among, alike⟩ := implies
  refine ⟨accessType, defined, named, impliedGrant, among, ?_⟩
  exact equalsIgnoreCase_trans same alike

/-- The rules add nothing more in a second step when the service definition implies
everything in one. -/
theorem oneStep_spreadRules_iff (hashOrder : HashOrder) (closed : CaseClosed types) :
    Spread.OneStep (spreadRules hashOrder serviceDef) types ↔
      ImpliesInOneStep serviceDef types := by
  have together : CaseClosed
      (types ∪ {accessType | ∃ first ∈ types, Implies serviceDef first accessType}) := by
    intro first held second same
    rcases held with before | ⟨start, member, implied⟩
    · exact Or.inl (closed first before second same)
    · exact Or.inr ⟨start, member, implied.congr_right same⟩
  unfold Spread.OneStep
  rw [added_spreadRules hashOrder serviceDef closed,
    added_spreadRules hashOrder serviceDef together]
  constructor
  · intro oneStep first member second third one two
    exact oneStep ⟨second, Or.inr ⟨first, member, one⟩, two⟩
  · intro inOneStep third ⟨second, held, two⟩
    rcases held with member | ⟨first, member, one⟩
    · exact Or.inr ⟨second, member, two⟩
    · exact inOneStep first member second third one two

end OneStep

section Settled

variable {serviceDef : RangerServiceDef}

/-- The accesses of a prepared item. -/
def preparedIn (hashOrder : HashOrder) (serviceDef : RangerServiceDef)
    (accesses : List RangerPolicyItemAccess) : List RangerPolicyItemAccess :=
  (@getImpliedAccessGrants (reordered hashOrder) serviceDef).foldl impliedAccesses accesses

theorem allowedAt_preparedIn (hashOrder : HashOrder) (accesses : List RangerPolicyItemAccess) :
    {type | allowedAt (preparedIn hashOrder serviceDef accesses) type = true} =
      Spread.round (spreadRules hashOrder serviceDef) {type | allowedAt accesses type = true} :=
  observed_rounds allowedAt_impliedAccesses _ accesses

theorem listedAt_preparedIn (hashOrder : HashOrder) (accesses : List RangerPolicyItemAccess) :
    {type | listedAt (preparedIn hashOrder serviceDef accesses) type = true} =
      Spread.round (spreadRules hashOrder serviceDef) {type | listedAt accesses type = true} :=
  observed_rounds listedAt_impliedAccesses _ accesses

/-- Preparing an item adds what its types imply, and nothing that does not follow. -/
theorem expanded_preparedIn (hashOrder : HashOrder) (serviceDef : RangerServiceDef)
    (policyItem : RangerPolicyItem) :
    Expanded serviceDef policyItem
      { policyItem with accesses := preparedIn hashOrder serviceDef policyItem.accesses } := by
  have round : ∀ accessType, allowedAt (preparedIn hashOrder serviceDef policyItem.accesses)
      accessType = true ↔ accessType ∈ Spread.round (spreadRules hashOrder serviceDef)
        {type | allowedAt policyItem.accesses type = true} :=
    fun accessType => by rw [← allowedAt_preparedIn]; rfl
  refine ⟨fun accessType allowed => (round _).mpr (Spread.subset_round ?_),
    fun accessType impliedType allowed implies => (round _).mpr (Spread.added_subset_round ?_),
    fun accessType allowed => ?_⟩
  · exact allowed
  · rw [added_spreadRules hashOrder serviceDef (caseClosed_allowedAt policyItem.accesses)]
    exact ⟨accessType, allowed, implies⟩
  · obtain ⟨start, held, chain⟩ :=
      Spread.exists_reflTransGen_of_mem_round accessType ((round _).mp allowed)
    exact ⟨start, held, Relation.ReflTransGen.mono (fun _ _ => implies_of_step) _ _ chain⟩

/-- Where one step is all there is, an item is prepared to what its types imply at once. -/
theorem allowedAt_preparedIn_of_oneStep {accesses : List RangerPolicyItemAccess}
    (oneStep : ImpliesInOneStep serviceDef {type | allowedAt accesses type = true})
    (hashOrder : HashOrder) :
    {type | allowedAt (preparedIn hashOrder serviceDef accesses) type = true} =
      {type | allowedAt accesses type = true} ∪ {accessType |
        ∃ first ∈ {type | allowedAt accesses type = true},
          Implies serviceDef first accessType} := by
  have closed := caseClosed_allowedAt accesses
  rw [allowedAt_preparedIn, ((oneStep_spreadRules_iff hashOrder closed).mpr oneStep).round_eq,
    added_spreadRules hashOrder serviceDef closed]

/-- Where one step is all there is, a prepared item is prepared again to itself. -/
theorem preparedIn_preparedIn {accesses : List RangerPolicyItemAccess}
    (listed : ImpliesInOneStep serviceDef {type | listedAt accesses type = true})
    (allowed : ImpliesInOneStep serviceDef {type | allowedAt accesses type = true})
    (first second : HashOrder) :
    preparedIn second serviceDef (preparedIn first serviceDef accesses) =
      preparedIn first serviceDef accesses := by
  have settled : ∀ {types : Set String}, CaseClosed types → ImpliesInOneStep serviceDef types →
      Spread.added (spreadRules second serviceDef)
          (Spread.round (spreadRules first serviceDef) types) ⊆
        Spread.round (spreadRules first serviceDef) types := by
    intro types closed inOneStep
    have one := (oneStep_spreadRules_iff first closed).mpr inOneStep
    have other := (oneStep_spreadRules_iff second closed).mpr inOneStep
    rw [one.round_eq, added_spreadRules first serviceDef closed,
      ← added_spreadRules second serviceDef closed]
    exact other
  refine foldl_impliedAccesses_of_closed ?_ ?_
  · have whole := settled (caseClosed_listedAt accesses) listed
    rw [← listedAt_preparedIn] at whole
    exact whole
  · have whole := settled (caseClosed_allowedAt accesses) allowed
    rw [← allowedAt_preparedIn] at whole
    exact whole

/-- The order in which the types come that are not listed, then those that are listed and
not allowed, then those that are allowed. -/
def quietFirst (accesses : List RangerPolicyItemAccess) : HashOrder where
  order names :=
    names.filter (fun name => !listedAt accesses name) ++
      ((names.filter (listedAt accesses)).filter (fun name => !allowedAt accesses name) ++
        (names.filter (listedAt accesses)).filter (allowedAt accesses))
  perm names := by
    refine List.Perm.trans (List.Perm.append_left _ ?_) (?_ : List.Perm
      (names.filter (fun name => !listedAt accesses name) ++ names.filter (listedAt accesses))
      names)
    · exact List.perm_append_comm.trans (List.filter_append_perm _ _)
    · exact List.perm_append_comm.trans (List.filter_append_perm _ _)

/-- In that order an item is prepared to what its types imply at once. -/
theorem round_quietFirst (accesses : List RangerPolicyItemAccess) :
    Spread.round (spreadRules (quietFirst accesses) serviceDef)
        {type | listedAt accesses type = true} =
      {type | listedAt accesses type = true} ∪
        Spread.added (spreadRules (quietFirst accesses) serviceDef)
          {type | listedAt accesses type = true} ∧
    Spread.round (spreadRules (quietFirst accesses) serviceDef)
        {type | allowedAt accesses type = true} =
      {type | allowedAt accesses type = true} ∪
        Spread.added (spreadRules (quietFirst accesses) serviceDef)
          {type | allowedAt accesses type = true} := by
  let keys := ((serviceDef.accessTypes.filter
    fun accessType => !accessType.impliedGrants.isEmpty).map (·.name)).dedup
  let rule := fun accessType : String => spreadRule (accessType,
    (quietFirst accesses).order (((serviceDef.accessTypes.filter
      fun accessType => !accessType.impliedGrants.isEmpty).filter
        (·.name == accessType)).flatMap (·.impliedGrants)).dedup)
  have rules : spreadRules (quietFirst accesses) serviceDef =
      (keys.filter (fun name => !listedAt accesses name)).map rule ++
        (((keys.filter (listedAt accesses)).filter (fun name => !allowedAt accesses name)).map
          rule ++ ((keys.filter (listedAt accesses)).filter (allowedAt accesses)).map rule) := by
    change List.map spreadRule (List.map _ ((quietFirst accesses).order keys)) = _
    rw [List.map_map, quietFirst, List.map_append, List.map_append]
    rfl
  have triggers : ∀ {names : List String} {one : Spread.Rule String}, one ∈ names.map rule →
      one.trigger ∈ names := by
    intro names one listed
    obtain ⟨name, member, rfl⟩ := List.mem_map.mp listed
    exact member
  constructor
  · rw [rules]
    refine Spread.round_quiet_first (fun one listed => ?_) (fun one listed => ?_)
    · have passed := (List.mem_filter.mp (triggers listed)).2
      intro present
      rw [show listedAt accesses one.trigger = true from present] at passed
      cases passed
    · rw [← List.map_append] at listed
      rcases List.mem_append.mp (triggers listed) with first | second
      · exact (List.mem_filter.mp (List.mem_filter.mp first).1).2
      · exact (List.mem_filter.mp (List.mem_filter.mp second).1).2
  · rw [rules, ← List.append_assoc]
    refine Spread.round_quiet_first (fun one listed => ?_) (fun one listed => ?_)
    · intro present
      have allowed : allowedAt accesses one.trigger = true := present
      rw [← List.map_append] at listed
      rcases List.mem_append.mp (triggers listed) with first | second
      · have passed := (List.mem_filter.mp first).2
        rw [listedAt_of_allowedAt allowed] at passed
        cases passed
      · have passed := (List.mem_filter.mp second).2
        rw [allowed] at passed
        cases passed
    · exact (List.mem_filter.mp (triggers listed)).2

/-- An item that is prepared again to itself in that order leaves no second step. -/
theorem oneStep_of_preparedIn {accesses : List RangerPolicyItemAccess}
    (fixed : preparedIn (quietFirst accesses) serviceDef
      (preparedIn (quietFirst accesses) serviceDef accesses) =
        preparedIn (quietFirst accesses) serviceDef accesses) :
    ImpliesInOneStep serviceDef {type | listedAt accesses type = true} ∧
      ImpliesInOneStep serviceDef {type | allowedAt accesses type = true} := by
  obtain ⟨listed, allowed⟩ := @round_quietFirst _ serviceDef accesses
  constructor
  · rw [← oneStep_spreadRules_iff (quietFirst accesses) (caseClosed_listedAt accesses)]
    unfold Spread.OneStep
    rw [← listed, ← listedAt_preparedIn]
    refine Spread.added_subset_of_round_eq ?_
    rw [← listedAt_preparedIn, fixed]
  · rw [← oneStep_spreadRules_iff (quietFirst accesses) (caseClosed_allowedAt accesses)]
    unfold Spread.OneStep
    rw [← allowed, ← allowedAt_preparedIn]
    refine Spread.added_subset_of_round_eq ?_
    rw [← allowedAt_preparedIn, fixed]

end Settled

/-- **When implied grants are well defined.** The accesses of every item gain the same types
in every order, and no more when they are prepared again, exactly when whatever a listed or
an allowed access implies in two steps is there already or implied in one. -/
theorem wellExpanded_iff (policy : RangerPolicy) (serviceDef : RangerServiceDef) :
    WellExpanded policy serviceDef ↔
      ∀ policyItem ∈ policy.policyItems,
        ImpliesInOneStep serviceDef {type | listedAt policyItem.accesses type = true} ∧
          ImpliesInOneStep serviceDef {type | allowedAt policyItem.accesses type = true} := by
  constructor
  · intro wellExpanded policyItem member
    have fixed := congrArg RangerPolicy.policyItems (wellExpanded.repeatable
      (quietFirst policyItem.accesses) (quietFirst policyItem.accesses))
    rw [preprocessIn_policyItems, preprocessIn_policyItems, List.map_map] at fixed
    have same := congrArg RangerPolicyItem.accesses
      (List.map_inj_left.mp fixed policyItem member)
    exact oneStep_of_preparedIn same
  · intro settled
    refine ⟨fun hashOrder => ?_, fun first second => ?_, fun first second => ?_⟩
    · rw [preprocessIn_policyItems, List.forall₂_map_right_iff, List.forall₂_same]
      exact fun policyItem _ => expanded_preparedIn hashOrder serviceDef policyItem
    · rw [preprocessIn_policyItems, preprocessIn_policyItems, List.forall₂_map_left_iff,
        List.forall₂_map_right_iff, List.forall₂_same]
      intro policyItem member accessType
      have oneStep := (settled policyItem member).2
      have same := (allowedAt_preparedIn_of_oneStep oneStep first).trans
        (allowedAt_preparedIn_of_oneStep oneStep second).symm
      exact Bool.eq_iff_iff.mpr (Set.ext_iff.mp same accessType)
    · have items : (preprocessIn second (preprocessIn first policy serviceDef)
          serviceDef).policyItems = (preprocessIn first policy serviceDef).policyItems := by
        rw [preprocessIn_policyItems, preprocessIn_policyItems, List.map_map]
        refine List.map_congr_left fun policyItem member => ?_
        obtain ⟨listed, allowed⟩ := settled policyItem member
        exact congrArg (fun accesses => { policyItem with accesses := accesses })
          (preparedIn_preparedIn listed allowed first second)
      exact congrArg (fun policyItems =>
        { preprocessIn first policy serviceDef with policyItems := policyItems }) items

end Order

section SecondStep

attribute [local instance] Platform.ascii

def steppedServiceDef : RangerServiceDef where
  name := "files"
  resources := [{ name := "path" }]
  accessTypes :=
    [{ name := "select", impliedGrants := ["read"] },
      { name := "write", impliedGrants := ["select"] }, { name := "read" }]

def writersPolicy : RangerPolicy where
  resources := ∅
  policyItems := [{ accesses := [{ type := "write" }], users := ["alice"] }]

/-- Writers may select once the policy is prepared, and read once it is prepared again. -/
theorem writers_read_at_last : ¬ WellExpanded writersPolicy steppedServiceDef := by
  intro wellExpanded
  have same := wellExpanded.repeatable ⟨id, fun _ => .refl _⟩ ⟨id, fun _ => .refl _⟩
  have reading := congrArg (fun policy : RangerPolicy =>
    policy.policyItems.map fun policyItem => allowedAt policyItem.accesses "read") same
  exact absurd reading (by decide)

end SecondStep

end RangerDefaultPolicyEvaluator

end Ranger
