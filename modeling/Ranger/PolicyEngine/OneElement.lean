import Ranger.PolicyEngine.AuditCache

/-! # Resources of one element

A file has a path and a key has a name. The text of a resource with one element determines
the resource, so the caches of an engine do not mislead it about requests on such resources.
-/

namespace Ranger

open Foundation

namespace RangerAccessResource

/-- The resource with one element. -/
def single (name value : String) : RangerAccessResource :=
  ({} : RangerAccessResource).setValue name (some value)

variable {name value first second : String}

theorem getKeys_single : (single name value).getKeys = [name] := rfl

theorem exists_single (other : String) : (single name value).exists other = (other == name) := by
  change decide (other ∈ [name]) = _
  simp [Bool.beq_eq_decide_eq]

theorem getValue_single : (single name value).getValue name = some value := by
  rw [single, getValue_setValue, if_pos rfl]

theorem appendElement_single (text : String) (resourceDef : RangerResourceDef) :
    (single name value).appendElement text resourceDef =
      if resourceDef.name = name then
        (if text.isEmpty then text else text ++ RESOURCE_SEP) ++ value
      else text := by
  unfold appendElement
  rw [exists_single]
  by_cases same : resourceDef.name = name
  · rw [if_pos (beq_iff_eq.mpr same), if_pos same, same, getValue_single]
    rfl
  · rw [if_neg (by simpa using same), if_neg same]

/-- Texts with equal ends of one length are behind equal texts. -/
theorem append_inj_right {one two : String} (same : one ++ first = two ++ second)
    (length : first.length = second.length) : first = second := by
  have lists := congrArg String.toList same
  rw [String.toList_append, String.toList_append] at lists
  have lengths : first.toList.length = second.toList.length := by
    simpa only [String.length_toList] using length
  exact String.toList_inj.mp (List.append_inj_right' lists lengths)

/-- The texts that two values lead to, which are equal only when the values are. -/
structure Apart (first second text other : String) : Prop where
  empty : text = "" ↔ other = ""
  shorter : first.length ≤ second.length → text.length ≤ other.length
  longer : second.length ≤ first.length → other.length ≤ text.length
  same : text ≠ "" → text = other → first = second

theorem Apart.append {text other : String} (apart : Apart first second text other)
    (positive : first ≠ "") (present : second ≠ "") :
    Apart first second (text ++ first) (other ++ second) where
  empty := by
    rw [String.append_eq_empty_iff, String.append_eq_empty_iff]
    exact iff_of_false (fun both => positive both.2) fun both => present both.2
  shorter := by
    intro short
    rw [String.length_append, String.length_append]
    exact Nat.add_le_add (apart.shorter short) short
  longer := by
    intro long
    rw [String.length_append, String.length_append]
    exact Nat.add_le_add (apart.longer long) long
  same := by
    intro _ same
    have lengths := congrArg String.length same
    rw [String.length_append, String.length_append] at lengths
    have shorter := apart.shorter
    have longer := apart.longer
    exact append_inj_right same (by omega)

theorem Apart.separate {text other : String} (apart : Apart first second text other)
    (some : text ≠ "") : Apart first second (text ++ RESOURCE_SEP) (other ++ RESOURCE_SEP) where
  empty := by
    rw [String.append_eq_empty_iff, String.append_eq_empty_iff]
    exact iff_of_false (fun both => some both.1) fun both => some (apart.empty.mpr both.1)
  shorter := by
    intro short
    rw [String.length_append, String.length_append]
    exact Nat.add_le_add_right (apart.shorter short) _
  longer := by
    intro long
    rw [String.length_append, String.length_append]
    exact Nat.add_le_add_right (apart.longer long) _
  same := fun _ same => apart.same some (String.append_left_inj _ |>.mp same)

/-- A turn of the loop keeps the texts apart. -/
theorem Apart.appendElement (positive : first ≠ "") (present : second ≠ "")
    {text other : String} (apart : Apart first second text other)
    (resourceDef : RangerResourceDef) :
    Apart first second ((single name first).appendElement text resourceDef)
      ((single name second).appendElement other resourceDef) := by
  rw [appendElement_single, appendElement_single]
  split
  · by_cases none : text = ""
    · rw [if_pos (by simpa using none), if_pos (by simpa using apart.empty.mp none)]
      exact apart.append positive present
    · rw [if_neg (by simpa using none),
        if_neg (by simpa using fun empty => none (apart.empty.mpr empty))]
      exact (apart.separate none).append positive present
  · exact apart

/-- The loop over the resources of a service keeps the texts apart. -/
theorem Apart.foldl (name : String) (positive : first ≠ "") (present : second ≠ "")
    (resourceDefs : List RangerResourceDef) {text other : String}
    (apart : Apart first second text other) :
    Apart first second (resourceDefs.foldl (single name first).appendElement text)
      (resourceDefs.foldl (single name second).appendElement other) := by
  induction resourceDefs generalizing text other with
  | nil => exact apart
  | cons resourceDef rest ih => exact ih (apart.appendElement positive present resourceDef)

/-- Nothing is written only if the service has no such element. -/
theorem foldl_appendElement_eq_empty (positive : value ≠ "")
    (resourceDefs : List RangerResourceDef) {text : String}
    (none : resourceDefs.foldl (single name value).appendElement text = "") :
    text = "" ∧ ∀ resourceDef ∈ resourceDefs, resourceDef.name ≠ name := by
  induction resourceDefs generalizing text with
  | nil => exact ⟨none, fun _ listed => by cases listed⟩
  | cons resourceDef rest ih =>
      obtain ⟨first, others⟩ := ih none
      rw [appendElement_single] at first
      split at first
      · exact absurd (String.append_eq_empty_iff.mp first).2 positive
      · rename_i apart
        refine ⟨first, fun other listed => ?_⟩
        rcases List.mem_cons.mp listed with rfl | behind
        · exact apart
        · exact others other behind

/-- **Texts of one element.** Equal texts are those of equal values, unless the service has
no such element. -/
theorem eq_of_getAsString_single {serviceDef : RangerServiceDef} (positive : first ≠ "")
    (present : second ≠ "")
    (same : (single name first).getAsString serviceDef =
      (single name second).getAsString serviceDef) :
    first = second ∨ ∀ resourceDef ∈ serviceDef.resources, resourceDef.name ≠ name := by
  have start : Apart first second "" "" :=
    ⟨Iff.rfl, fun _ => Nat.le_refl 0, fun _ => Nat.le_refl 0,
      fun impossible => absurd rfl impossible⟩
  have apart := Apart.foldl name positive present serviceDef.resources start
  unfold getAsString at same
  by_cases none : serviceDef.resources.foldl (single name first).appendElement "" = ""
  · exact .inr (foldl_appendElement_eq_empty positive _ none).2
  · have other := fun empty => none (apart.empty.mpr empty)
    refine .inl (apart.same none ?_)
    rw [if_neg (by simpa using none), if_neg (by simpa using other)] at same
    exact Option.some.inj same

end RangerAccessResource

namespace RangerAccessRequest

/-- A request for a certain access to a resource with one element. -/
structure OneElement (name : String) (request : RangerAccessRequest) : Prop where
  specific : request.accessType ≠ ANY_ACCESS
  resource : ∃ value, value ≠ "" ∧ request.resource = .single name value

end RangerAccessRequest

namespace RangerPolicyEngineImpl

variable [Platform] {servicePolicies : ServicePolicies} {options : RangerPolicyEngineOptions}

/-- An evaluator does not match an element that its service does not have. -/
theorem not_isMatch_single {evaluator : RangerDefaultPolicyEvaluator} {name value : String}
    (unknown : ∀ resourceDef ∈ evaluator.serviceDef.resources, resourceDef.name ≠ name) :
    evaluator.isMatch (.single name value) = false := by
  have missing : evaluator.matchers.containsKey name = false := by
    rw [Bool.eq_false_iff]
    intro present
    obtain ⟨matcher, found⟩ := Option.isSome_iff_exists.mp
      (AssocMap.isSome_get?_iff.mpr (AssocMap.containsKey_iff.mp present))
    obtain ⟨resourceDef, listed, made⟩ :=
      List.mem_filterMap.mp (AssocMap.mem_of_get?_putAll found)
    obtain ⟨_, _, same⟩ := Option.map_eq_some_iff.mp made
    exact unknown resourceDef listed (congrArg Prod.fst same)
  simp [RangerDefaultPolicyEvaluator.isMatch, RangerDefaultPolicyEvaluator.keysMatch,
    RangerAccessResource.getKeys_single, missing]

/-- An evaluator matches resources of one text alike. -/
theorem isMatch_of_text {evaluator : RangerDefaultPolicyEvaluator} {name first second : String}
    (positive : first ≠ "") (present : second ≠ "")
    (same : (RangerAccessResource.single name first).getAsString evaluator.serviceDef =
      (RangerAccessResource.single name second).getAsString evaluator.serviceDef) :
    evaluator.isMatch (.single name first) = evaluator.isMatch (.single name second) := by
  rcases RangerAccessResource.eq_of_getAsString_single positive present same with rfl | unknown
  · rfl
  · rw [not_isMatch_single unknown, not_isMatch_single unknown]

/-- **Requests of one element.** No request on a resource with one element misleads an engine
about another one. -/
theorem harmless_of_oneElement {name : String} {earlier later : RangerAccessRequest}
    (first : earlier.OneElement name) (second : later.OneElement name) :
    Harmless servicePolicies options earlier later := by
  obtain ⟨specificFirst, one, positive, resourceFirst⟩ := first
  obtain ⟨specificSecond, two, present, resourceSecond⟩ := second
  have alike (policy : RangerPolicy)
      (same : SameText servicePolicies.serviceDef earlier later) :
      (RangerDefaultPolicyEvaluator.init policy servicePolicies.serviceDef options).isMatch
          earlier.resource =
        (RangerDefaultPolicyEvaluator.init policy servicePolicies.serviceDef options).isMatch
          later.resource := by
    unfold SameText at same
    rw [resourceFirst, resourceSecond] at same ⊢
    exact isMatch_of_text positive present same
  refine ⟨fun same audited => ?_, fun _ policy _ _ => ?_⟩
  · obtain ⟨policy, listed, enabled, reaches, audit⟩ := audited
    refine ⟨policy, listed, enabled, .inl ?_, audit⟩
    rcases reaches with matched | ⟨any, _⟩
    · rw [← alike policy same]
      exact matched
    · exact absurd (eq_of_beq any) specificFirst
  · exact fun same => alike policy same

end RangerPolicyEngineImpl

end Ranger
