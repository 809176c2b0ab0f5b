import Ranger.Admin.ResourceSignature
import Ranger.Foundation.Delimited

/-! # Signatures that collide

A signature writes the names and values of the resources between separators that may
themselves occur in a value. The text of a policy can then be read as that of another
one. Texts of policies without separators in their names and values can not.
-/

namespace Ranger

open Foundation

section Text

/-- What stands between the name of a level and its values. -/
def opening : List Char := "=\x7bvalues=[".toList

/-- What stands behind the values of a level. -/
def closing (isExcludes isRecursive : Bool) : List Char :=
  ("],excludes=" ++ boolText isExcludes ++ ",recursive=" ++ boolText isRecursive ++ "\x7d").toList

def separator : List Char := ", ".toList

/-- The values of a level with separators between them. -/
def joined (values : List String) : List Char :=
  separator.intercalate ((sortedValues values).map String.toList)

def levelText (entry : String × RangerPolicyResource) : List Char :=
  entry.1.toList ++ (opening ++ (joined entry.2.values ++
    closing entry.2.isExcludes entry.2.isRecursive))

/-- The signature of a policy between its braces. -/
def signatureBody (policy : RangerPolicy) : List Char :=
  separator.intercalate ((levels policy).map levelText)

theorem toList_getResourceString (policy : RangerPolicy) :
    (getResourceString policy).toList = '\x7b' :: (signatureBody policy ++ ['\x7d']) := by
  have level : ∀ entry : String × RangerPolicyResource,
      (entry.1 ++ "=" ++ resourceViewText entry.2).toList = levelText entry := by
    intro entry
    have opens : opening = "=".toList ++ ("\x7bvalues=".toList ++ "[".toList) := by decide
    have closes : "],excludes=".toList = "]".toList ++ ",excludes=".toList := by decide
    simp only [resourceViewText, listText, levelText, joined, opens, closing, closes, separator,
      sortedValues, String.toList_append, String.toList_intercalate, List.append_assoc]
  rw [getResourceString_eq, mapText, String.toList_append, String.toList_append,
    String.toList_intercalate, List.map_map, List.map_map, signatureBody]
  have texts : (levels policy).map ((String.toList ∘ fun entry : String × String =>
      entry.1 ++ "=" ++ entry.2) ∘ fun entry => (entry.1, resourceViewText entry.2)) =
        (levels policy).map levelText := List.map_congr_left fun entry _ => level entry
  rw [texts]
  rfl

theorem getResourceString_eq_iff {policy other : RangerPolicy} :
    getResourceString policy = getResourceString other ↔
      signatureBody policy = signatureBody other := by
  rw [← String.toList_inj, toList_getResourceString, toList_getResourceString, List.cons.injEq,
    List.append_left_inj]
  exact and_iff_right rfl

end Text

section Readings

theorem borderless_opening : Delimited.Borderless opening := by
  unfold Delimited.Borderless
  decide

theorem boolText_plain (value : Bool) : ',' ∉ (boolText value).toList ∧
    '=' ∉ (boolText value).toList ∧ '\x7d' ∉ (boolText value).toList := by
  cases value <;> decide

theorem boolText_inj {first second : Bool} (same : boolText first = boolText second) :
    first = second := by
  cases first <;> cases second <;> first | rfl | exact absurd same (by decide)

/-- A closing is told from the text before it. -/
theorem closing_inj {first second : List Char} {isExcludes isRecursive excludes recursive : Bool}
    (same : first ++ closing isExcludes isRecursive = second ++ closing excludes recursive) :
    first = second ∧ isExcludes = excludes ∧ isRecursive = recursive := by
  have parts : ∀ (text : List Char) (isExcludes isRecursive : Bool),
      text ++ closing isExcludes isRecursive =
        (text ++ "],excludes".toList ++ '=' :: ((boolText isExcludes).toList ++
          ",recursive".toList)) ++ '=' :: ((boolText isRecursive).toList ++ ['\x7d']) := by
    intro text isExcludes isRecursive
    have first : "],excludes=".toList = "],excludes".toList ++ ['='] := by decide
    have second : ",recursive=".toList = ",recursive".toList ++ ['='] := by decide
    have last : "\x7d".toList = ['\x7d'] := by decide
    simp only [closing, String.toList_append, first, second, last, List.append_assoc,
      List.cons_append, List.nil_append]
  rw [parts, parts] at same
  have plain : ∀ value : Bool, '=' ∉ (boolText value).toList ++ ['\x7d'] := by
    intro value
    cases value <;> decide
  have plainBefore : ∀ value : Bool, '=' ∉ (boolText value).toList ++ ",recursive".toList := by
    intro value
    cases value <;> decide
  obtain ⟨front, back⟩ := Delimited.append_cons_inj_right (plain _) (plain _) same
  obtain ⟨front, middle⟩ := Delimited.append_cons_inj_right (plainBefore _) (plainBefore _) front
  refine ⟨List.append_cancel_right front, boolText_inj ?_, boolText_inj ?_⟩
  · exact String.toList_inj.mp (List.append_cancel_right middle)
  · exact String.toList_inj.mp (List.append_cancel_right back)

/-- Whatever the levels are, they may be taken for one level with one value. -/
theorem exists_reading (entry : String × RangerPolicyResource)
    (rest : List (String × RangerPolicyResource)) :
    ∃ middle isExcludes isRecursive, separator.intercalate ((entry :: rest).map levelText) =
      entry.1.toList ++ (opening ++ (middle ++ closing isExcludes isRecursive)) := by
  induction rest generalizing entry with
  | nil =>
      refine ⟨joined entry.2.values, entry.2.isExcludes, entry.2.isRecursive, ?_⟩
      rw [List.map_singleton, List.intercalate_singleton]
      rfl
  | cons next rest ih =>
      obtain ⟨middle, isExcludes, isRecursive, reading⟩ := ih next
      refine ⟨joined entry.2.values ++ (closing entry.2.isExcludes entry.2.isRecursive ++
        (separator ++ (next.1.toList ++ (opening ++ middle)))), isExcludes, isRecursive, ?_⟩
      rw [List.map_cons] at reading
      rw [List.map_cons, List.map_cons, List.intercalate_cons_cons, reading]
      simp only [levelText, List.append_assoc]

theorem levels_single {policy : RangerPolicy} {entry : String × RangerPolicyResource}
    (single : policy.resources.entries = [entry]) : levels policy = [entry] := by
  rw [levels, single]
  rfl

theorem signatureBody_single {policy : RangerPolicy} {entry : String × RangerPolicyResource}
    (single : policy.resources.entries = [entry]) : signatureBody policy = levelText entry := by
  rw [signatureBody, levels_single single, List.map_singleton, List.intercalate_singleton]

/-- A policy on one level. -/
def singleLevel (name : String) (resource : RangerPolicyResource) : RangerPolicy where
  resources := ⟨[(name, resource)], List.nodup_singleton _⟩
  policyItems := []

theorem sameUpToOrder_single {first second : AssocMap String RangerPolicyResource} {name : String}
    {resource other : RangerPolicyResource} (one : first.entries = [(name, resource)])
    (two : second.entries = [(name, other)]) :
    SameUpToOrder first second ↔ resource.values.Perm other.values ∧
      resource.isExcludes = other.isExcludes ∧ resource.isRecursive = other.isRecursive := by
  have found : ∀ {m : AssocMap String RangerPolicyResource} {value other},
      m.entries = [(name, value)] → (m.get? name = some other ↔ other = value) := by
    intro m value other single
    rw [AssocMap.get?_eq_some_iff, single, List.mem_singleton, Prod.mk.injEq]
    exact and_iff_right rfl
  have keys : ∀ {m : AssocMap String RangerPolicyResource} {value}, m.entries = [(name, value)] →
      m.keys = [name] := by
    intro m value single
    rw [AssocMap.keys, single, List.map_singleton]
  constructor
  · intro same
    exact same.2 name resource other ((found one).mpr rfl) ((found two).mpr rfl)
  · intro same
    refine ⟨fun key => by rw [keys one, keys two], fun key left right foundLeft foundRight => ?_⟩
    have named : key = name := by
      have member := AssocMap.isSome_get?_iff.mp (by rw [foundLeft]; rfl : (first.get? key).isSome)
      rw [keys one] at member
      exact List.mem_singleton.mp member
    subst named
    rw [(found one).mp foundLeft, (found two).mp foundRight]
    exact same

/-- A policy that is the same as one with a single value has a single value. -/
theorem entries_of_sameUpToOrder_single {resources : AssocMap String RangerPolicyResource}
    {name value : String} {isExcludes isRecursive : Bool}
    (same : SameUpToOrder resources
      (singleLevel name ⟨[value], isExcludes, isRecursive⟩).resources) :
    resources.entries = [(name, ⟨[value], isExcludes, isRecursive⟩)] := by
  have member : name ∈ resources.keys := (same.1 name).mpr (List.mem_singleton.mpr rfl)
  obtain ⟨resource, found⟩ := Option.isSome_iff_exists.mp (AssocMap.isSome_get?_iff.mpr member)
  obtain ⟨values, excludes, recursive⟩ := same.2 name resource _ found
    (AssocMap.get?_eq_some_iff.mpr (List.mem_singleton.mpr rfl))
  have exactly : resource = ⟨[value], isExcludes, isRecursive⟩ := by
    cases resource
    rw [RangerPolicyResource.mk.injEq]
    exact ⟨List.perm_singleton.mp values, excludes, recursive⟩
  have stored := AssocMap.get?_eq_some_iff.mp found
  have names : ∀ entry ∈ resources.entries, entry = (name, resource) := by
    intro entry listed
    have key := (same.1 entry.1).mp (List.mem_map.mpr ⟨entry, listed, rfl⟩)
    exact List.inj_on_of_nodup_map resources.nodup listed stored (List.mem_singleton.mp key)
  rw [exactly] at stored names
  have distinct := resources.nodup.of_map
  cases entries : resources.entries with
  | nil => rw [entries] at stored; cases stored
  | cons first rest =>
      rw [entries] at names distinct
      have none_left : rest = [] := by
        refine List.eq_nil_iff_forall_not_mem.mpr fun other listed => ?_
        have alike := (names other (List.mem_cons_of_mem _ listed)).trans
          (names first List.mem_cons_self).symm
        exact (List.nodup_cons.mp distinct).1 (alike ▸ listed)
      rw [none_left, names first List.mem_cons_self]

end Readings

section Exact

/-- The text of a policy is the text of policies with the same resources only. -/
def TellsApart (policy : RangerPolicy) : Prop :=
  ∀ other, getResourceString policy = getResourceString other ↔
    SameUpToOrder policy.resources other.resources

/-- A name and a value that can be read back in one way only: neither holds what separates
names from values, and the value is no row of several values. -/
structure ReadOneWay (name value : String) : Prop where
  named : ¬ opening <:+: name.toList
  valued : ¬ opening <:+: value.toList
  nonempty : value ≠ ""
  unsplit : ∀ first second, value = first ++ ", " ++ second → precedes first second = false

/-- No level, or one level with one value that can be read back in one way only. -/
def OneReading (resources : AssocMap String RangerPolicyResource) : Prop :=
  resources.entries = [] ∨ ∃ name value isExcludes isRecursive,
    resources.entries = [(name, ⟨[value], isExcludes, isRecursive⟩)] ∧ ReadOneWay name value

theorem joined_single (value : String) : joined [value] = value.toList := by
  change separator.intercalate [value.toList] = value.toList
  exact List.intercalate_singleton

/-- A reading of a policy that tells apart is the policy. -/
theorem TellsApart.entries_of_reading {policy : RangerPolicy} (tellsApart : TellsApart policy)
    (name value : List Char) {isExcludes isRecursive : Bool}
    (reading : signatureBody policy =
      name ++ (opening ++ (value ++ closing isExcludes isRecursive))) :
    policy.resources.entries =
      [(String.ofList name, ⟨[String.ofList value], isExcludes, isRecursive⟩)] := by
  refine entries_of_sameUpToOrder_single ((tellsApart _).mp (getResourceString_eq_iff.mpr ?_))
  rw [reading, signatureBody_single rfl, levelText, joined_single, String.toList_ofList,
    String.toList_ofList]

theorem precedes_append (first second : String) : precedes first (first ++ second) = true := by
  refine decide_eq_true (not_lt.mp ?_)
  rw [String.toList_append, List.flatMap_append]
  exact List.le_append_left

/-- What a policy that tells apart looks like. -/
theorem TellsApart.oneReading {policy : RangerPolicy} (tellsApart : TellsApart policy) :
    OneReading policy.resources := by
  cases listed : levels policy with
  | nil =>
      have stored := levels_perm policy
      rw [listed] at stored
      exact Or.inl (List.nil_perm.mp stored)
  | cons entry rest =>
      obtain ⟨middle, isExcludes, isRecursive, reading⟩ := exists_reading entry rest
      rw [← listed] at reading
      have single := tellsApart.entries_of_reading _ _ reading
      rw [String.ofList_toList] at single
      refine Or.inr ⟨entry.1, String.ofList middle, isExcludes, isRecursive, single, ?_⟩
      have reading : signatureBody policy =
          entry.1.toList ++ (opening ++ (middle ++ closing isExcludes isRecursive)) := reading
      have written : (String.ofList middle).toList = middle := String.toList_ofList
      have renamed : ∀ (name value : List Char), signatureBody policy =
          name ++ (opening ++ (value ++ closing isExcludes isRecursive)) →
            name = entry.1.toList := by
        intro name value reading
        have other := (tellsApart.entries_of_reading _ _ reading).symm.trans single
        rw [List.singleton_inj, Prod.mk.injEq] at other
        rw [← other.1, String.toList_ofList]
      have regrouped : ∀ values : List String, joined values = middle →
          [String.ofList middle].Perm values := by
        intro values text
        have same : signatureBody policy = signatureBody
            (singleLevel entry.1 ⟨values, isExcludes, isRecursive⟩) := by
          rw [reading, signatureBody_single rfl, levelText, text]
        have alike := (tellsApart _).mp (getResourceString_eq_iff.mpr same)
        exact ((sameUpToOrder_single single rfl).mp alike).1
      refine ⟨fun occurs => ?_, fun occurs => ?_, fun empty => ?_, fun first second split => ?_⟩
      · -- the name could end at an earlier opening
        obtain ⟨before, behind, split⟩ := occurs
        have shorter := renamed before (behind ++ (opening ++ middle))
          (by rw [reading, ← split]; simp only [List.append_assoc])
        have lengths := congrArg List.length split
        rw [shorter, List.length_append, List.length_append] at lengths
        have some_text : 0 < opening.length := by decide
        omega
      · -- the name could reach to a later opening
        obtain ⟨before, behind, split⟩ := occurs
        rw [written] at split
        have longer := renamed (entry.1.toList ++ (opening ++ before)) behind
          (by rw [reading, ← split]; simp only [List.append_assoc])
        have lengths := congrArg List.length longer
        rw [List.length_append, List.length_append] at lengths
        have some_text : 0 < opening.length := by decide
        omega
      · -- no value at all has the same text
        have nothing : middle = [] := by
          rw [← written, empty]
          rfl
        exact absurd (regrouped [] (nothing ▸ rfl)).length_eq Nat.one_ne_zero
      · cases ordered : precedes first second with
        | false => rfl
        | true =>
            have inOrder : sortedValues [first, second] = [first, second] :=
              List.Pairwise.insertionSort_eq (List.pairwise_pair.mpr ordered)
            have text : joined [first, second] = middle := by
              rw [← written, split, joined, inOrder, List.map_cons,
                List.map_singleton, List.intercalate_cons_cons, List.intercalate_singleton,
                String.toList_append, String.toList_append]
              rfl
            exact absurd (regrouped _ text).length_eq (Nat.succ_ne_succ_iff.mpr Nat.zero_ne_one)

/-- The closing of a level does not complete an opening. -/
theorem not_opening_of_valued {value : List Char} (valued : ¬ opening <:+: value)
    (isExcludes isRecursive : Bool) :
    ¬ opening <:+: value ++ closing isExcludes isRecursive := by
  have remaining : ∃ rest, closing isExcludes isRecursive = ']' :: rest ∧ ¬ opening <:+: rest := by
    cases isExcludes <;> cases isRecursive <;> exact ⟨_, rfl, by decide⟩
  obtain ⟨rest, split, fresh⟩ := remaining
  rw [split]
  intro occurs
  exact (Delimited.infix_append_cons (by decide) occurs).elim valued fresh

/-- The values of a level that can be read in one way only. -/
theorem ReadOneWay.values_eq {name value : String} (oneWay : ReadOneWay name value)
    {values : List String} (text : joined values = value.toList) : [value].Perm values := by
  have sorted : (sortedValues values).Pairwise fun first second => precedes first second = true :=
    List.pairwise_insertionSort _ _
  have shuffled : (sortedValues values).Perm values := List.perm_insertionSort _ _
  unfold joined at text
  generalize sortedValues values = pieces at text sorted shuffled
  refine List.Perm.trans ?_ shuffled
  cases pieces with
  | nil =>
      refine absurd ?_ oneWay.nonempty
      exact String.toList_inj.mp text.symm
  | cons first rest =>
      cases rest with
      | nil =>
          rw [List.map_singleton, List.intercalate_singleton] at text
          rw [String.toList_inj.mp text]
      | cons second more =>
          -- the first piece precedes the second, and so the text of the others
          rw [List.map_cons, List.map_cons, List.intercalate_cons_cons, Delimited.intercalate_cons]
            at text
          have before := (List.pairwise_cons.mp sorted).1 second List.mem_cons_self
          have ordered := precedes_trans before (precedes_append second
            (String.ofList (Delimited.behindFirst separator (more.map String.toList))))
          have split : value = first ++ ", " ++ (second ++
              String.ofList (Delimited.behindFirst separator (more.map String.toList))) := by
            rw [← String.toList_inj, ← text]
            simp only [String.toList_append, String.toList_ofList, separator, List.append_assoc]
          rw [oneWay.unsplit first _ split] at ordered
          cases ordered

/-- A level that can be read in one way only is read from no other levels. -/
theorem ReadOneWay.levels_eq {name value : String} (oneWay : ReadOneWay name value)
    {isExcludes isRecursive : Bool} {others : List (String × RangerPolicyResource)}
    (same : levelText (name, ⟨[value], isExcludes, isRecursive⟩) =
      separator.intercalate (others.map levelText)) :
    ∃ values, others = [(name, ⟨values, isExcludes, isRecursive⟩)] ∧ [value].Perm values := by
  rw [levelText, joined_single] at same
  have fresh := not_opening_of_valued oneWay.valued isExcludes isRecursive
  cases others with
  | nil =>
      rw [List.map_nil, List.intercalate_nil, List.append_eq_nil_iff, List.append_eq_nil_iff]
        at same
      exact absurd same.2.1 (by decide)
  | cons entry rest =>
      rw [List.map_cons, Delimited.intercalate_cons, levelText, List.append_assoc,
        List.append_assoc, List.append_assoc] at same
      obtain ⟨names, behind⟩ :=
        Delimited.occurrence_unique borderless_opening oneWay.named fresh same
      cases rest with
      | nil =>
          rw [List.map_nil, Delimited.behindFirst, List.append_nil] at behind
          obtain ⟨texts, excludes, recursive⟩ := closing_inj behind
          refine ⟨entry.2.values, ?_, oneWay.values_eq texts.symm⟩
          rw [excludes, recursive, String.toList_inj.mp names]
      | cons next rest =>
          refine absurd ?_ fresh
          rw [behind, List.map_cons, Delimited.behindFirst, Delimited.intercalate_cons, levelText]
          have occurs := List.infix_append' (joined entry.2.values ++ (closing entry.2.isExcludes
            entry.2.isRecursive ++ (separator ++ next.1.toList))) opening
              ((joined next.2.values ++ closing next.2.isExcludes next.2.isRecursive) ++
                Delimited.behindFirst separator (rest.map levelText))
          simpa only [List.append_assoc] using occurs

/-- The signature of a policy belongs to policies with the same resources only, exactly when
the policy has no level, or one level with one value that can be read back in one way. -/
theorem tellsApart_iff (policy : RangerPolicy) :
    TellsApart policy ↔ OneReading policy.resources := by
  refine ⟨TellsApart.oneReading, fun oneReading other =>
    ⟨fun same => ?_, getResourceString_eq_of_same⟩⟩
  have bodies := getResourceString_eq_iff.mp same
  rcases oneReading with none_there | ⟨name, value, isExcludes, isRecursive, single, oneWay⟩
  · have empty : signatureBody policy = [] := by
      rw [signatureBody, levels, none_there]
      rfl
    cases listed : levels other with
    | nil =>
        have stored := levels_perm other
        rw [listed] at stored
        have nothing := List.nil_perm.mp stored
        refine ⟨fun key => by rw [AssocMap.keys, AssocMap.keys, none_there, nothing],
          fun key resource _ found => ?_⟩
        have member := AssocMap.mem_of_get?_eq_some found
        rw [none_there] at member
        cases member
    | cons entry rest =>
        obtain ⟨_, _, _, reading⟩ := exists_reading entry rest
        rw [← listed] at reading
        have impossible := (bodies.symm.trans empty).symm.trans reading
        rw [eq_comm, List.append_eq_nil_iff, List.append_eq_nil_iff] at impossible
        exact absurd impossible.2.1 (by decide)
  · rw [signatureBody_single single, signatureBody] at bodies
    obtain ⟨values, listed, shuffled⟩ := oneWay.levels_eq bodies
    have stored := levels_perm other
    rw [listed] at stored
    have stored := (List.singleton_perm.mp stored).symm
    exact (sameUpToOrder_single single stored).mpr ⟨shuffled, rfl, rfl⟩

end Exact

section Separable

/-- Names without the sign behind a name, and values that are not empty and hold neither
the sign between values nor the one behind them. -/
structure Separable (resources : AssocMap String RangerPolicyResource) : Prop where
  names : ∀ entry ∈ resources.entries, '=' ∉ entry.1.toList
  values : ∀ entry ∈ resources.entries, ∀ value ∈ entry.2.values,
    value ≠ "" ∧ ',' ∉ value.toList ∧ ']' ∉ value.toList

/-- What `Separable` asks of one level. -/
def SeparableLevel (entry : String × RangerPolicyResource) : Prop :=
  '=' ∉ entry.1.toList ∧ ∀ value ∈ entry.2.values,
    value ≠ "" ∧ ',' ∉ value.toList ∧ ']' ∉ value.toList

theorem Separable.levels {policy : RangerPolicy} (separable : Separable policy.resources) :
    ∀ entry ∈ levels policy, SeparableLevel entry := by
  intro entry member
  have stored := (levels_perm policy).mem_iff.mp member
  exact ⟨separable.names entry stored, separable.values entry stored⟩

theorem SeparableLevel.sorted {entry : String × RangerPolicyResource}
    (separable : SeparableLevel entry) :
    ∀ piece ∈ (sortedValues entry.2.values).map String.toList,
      piece ≠ [] ∧ ',' ∉ piece ∧ ']' ∉ piece := by
  intro piece member
  obtain ⟨value, listed, rfl⟩ := List.mem_map.mp member
  obtain ⟨nonempty, comma, bracket⟩ := separable.2 value ((List.mem_insertionSort _).mp listed)
  exact ⟨fun empty => nonempty (String.toList_inj.mp empty), comma, bracket⟩

/-- The values of a separable level end at the first bracket. -/
theorem SeparableLevel.joined_separable {entry : String × RangerPolicyResource}
    (separable : SeparableLevel entry) : ']' ∉ joined entry.2.values := by
  have pieces := separable.sorted
  unfold joined
  generalize (sortedValues entry.2.values).map String.toList = texts at pieces
  induction texts with
  | nil => exact List.not_mem_nil
  | cons first rest ih =>
      have later := ih fun piece member => pieces piece (List.mem_cons_of_mem _ member)
      have here := (pieces first List.mem_cons_self).2.2
      cases rest with
      | nil => rwa [List.intercalate_singleton]
      | cons next rest =>
          rw [List.intercalate_cons_cons, List.mem_append, List.mem_append, not_or, not_or]
          exact ⟨⟨here, by decide⟩, later⟩

/-- The text of a separable level is told from what follows it, and tells the level. -/
theorem levelText_inj {entry other : String × RangerPolicyResource}
    (separable : SeparableLevel entry) (separableOther : SeparableLevel other)
    {rest others : List Char}
    (same : levelText entry ++ rest = levelText other ++ others) :
    levelKey entry = levelKey other ∧ rest = others := by
  have parts : ∀ (entry : String × RangerPolicyResource) (rest : List Char),
      levelText entry ++ rest = entry.1.toList ++ '=' :: ("\x7bvalues=[".toList ++
        (joined entry.2.values ++ ']' :: (",excludes=".toList ++
          ((boolText entry.2.isExcludes).toList ++ ',' :: ("recursive=".toList ++
            ((boolText entry.2.isRecursive).toList ++ '\x7d' :: rest)))))) := by
    intro entry rest
    have opens : opening = '=' :: "\x7bvalues=[".toList := by decide
    have closes : "],excludes=".toList = ']' :: ",excludes=".toList := by decide
    have recurs : ",recursive=".toList = ',' :: "recursive=".toList := by decide
    have last : "\x7d".toList = ['\x7d'] := by decide
    simp only [levelText, opens, closing, closes, recurs, last, String.toList_append,
      List.append_assoc, List.cons_append, List.nil_append]
  rw [parts, parts] at same
  obtain ⟨names, same⟩ := Delimited.append_cons_inj separable.1 separableOther.1 same
  obtain ⟨texts, same⟩ := Delimited.append_cons_inj separable.joined_separable
    separableOther.joined_separable (List.append_cancel_left same)
  obtain ⟨excludes, same⟩ := Delimited.append_cons_inj (boolText_plain _).1 (boolText_plain _).1
    (List.append_cancel_left same)
  obtain ⟨recursive, same⟩ := Delimited.append_cons_inj (boolText_plain _).2.2
    (boolText_plain _).2.2 (List.append_cancel_left same)
  have separated : separator = ',' :: " ".toList := by decide
  have pieces : (sortedValues entry.2.values).map String.toList =
      (sortedValues other.2.values).map String.toList := by
    unfold joined at texts
    rw [separated] at texts
    exact Delimited.intercalate_inj
      (fun piece member => ⟨(separable.sorted piece member).1, (separable.sorted piece member).2.1⟩)
      (fun piece member =>
        ⟨(separableOther.sorted piece member).1, (separableOther.sorted piece member).2.1⟩) texts
  have values := List.map_injective_iff.mpr (fun _ _ => String.toList_inj.mp) pieces
  refine ⟨?_, same⟩
  unfold levelKey
  rw [String.toList_inj.mp names, values, boolText_inj (String.toList_inj.mp excludes),
    boolText_inj (String.toList_inj.mp recursive)]

/-- Separable levels are told by the text they are written to. -/
theorem levelKeys_eq_of_texts {first second : List (String × RangerPolicyResource)}
    (separable : ∀ entry ∈ first, SeparableLevel entry)
    (separableOther : ∀ entry ∈ second, SeparableLevel entry)
    (same : separator.intercalate (first.map levelText) =
      separator.intercalate (second.map levelText)) :
    first.map levelKey = second.map levelKey := by
  have empty : ∀ (entry : String × RangerPolicyResource) (rest : List Char),
      levelText entry ++ rest ≠ [] := by
    intro entry rest nothing
    rw [levelText, List.append_assoc, List.append_assoc, List.append_eq_nil_iff,
      List.append_eq_nil_iff] at nothing
    exact absurd nothing.2.1 (by decide)
  induction first generalizing second with
  | nil =>
      cases second with
      | nil => rfl
      | cons other others =>
          rw [List.map_nil, List.intercalate_nil, List.map_cons, Delimited.intercalate_cons] at same
          exact absurd same.symm (empty other _)
  | cons entry rest ih =>
      cases second with
      | nil =>
          rw [List.map_nil, List.intercalate_nil, List.map_cons, Delimited.intercalate_cons] at same
          exact absurd same (empty entry _)
      | cons other others =>
          rw [List.map_cons, List.map_cons, Delimited.intercalate_cons, Delimited.intercalate_cons]
            at same
          obtain ⟨keys, behind⟩ := levelText_inj (separable entry List.mem_cons_self)
            (separableOther other List.mem_cons_self) same
          have remaining : rest.map levelKey = others.map levelKey := by
            refine ih (fun next member => separable next (List.mem_cons_of_mem _ member))
              (fun next member => separableOther next (List.mem_cons_of_mem _ member)) ?_
            cases rest with
            | nil =>
                cases others with
                | nil => rfl
                | cons next others => cases behind
            | cons next rest =>
                cases others with
                | nil => cases behind
                | cons otherNext others => exact List.append_cancel_left behind
          rw [List.map_cons, List.map_cons, keys, remaining]

/-- Policies with the same names, sorted values and flags have the same resources. -/
theorem same_of_levelKeys_eq {policy other : RangerPolicy}
    (same : (levels policy).map levelKey = (levels other).map levelKey) :
    SameUpToOrder policy.resources other.resources := by
  have counterpart : ∀ {first second : RangerPolicy},
      (levels first).map levelKey = (levels second).map levelKey →
      ∀ name resource, first.resources.get? name = some resource →
        ∃ counterpart, second.resources.get? name = some counterpart ∧
          levelKey (name, resource) = levelKey (name, counterpart) := by
    intro first second same name resource found
    have listed := (levels_perm first).mem_iff.mpr (AssocMap.get?_eq_some_iff.mp found)
    have key : levelKey (name, resource) ∈ (levels second).map levelKey :=
      same ▸ List.mem_map.mpr ⟨_, listed, rfl⟩
    obtain ⟨⟨otherName, counterpart⟩, stored, alike⟩ := List.mem_map.mp key
    have named : otherName = name := congrArg Prod.fst alike
    subst named
    exact ⟨counterpart, AssocMap.get?_eq_some_iff.mpr ((levels_perm second).mem_iff.mp stored),
      alike.symm⟩
  have known : ∀ {first second : RangerPolicy},
      (levels first).map levelKey = (levels second).map levelKey →
      ∀ name, name ∈ first.resources.keys → name ∈ second.resources.keys := by
    intro first second same name member
    obtain ⟨resource, found⟩ := Option.isSome_iff_exists.mp (AssocMap.isSome_get?_iff.mpr member)
    obtain ⟨_, foundOther, _⟩ := counterpart same name resource found
    exact AssocMap.isSome_get?_iff.mp (by rw [foundOther]; rfl)
  refine ⟨fun name => ⟨known same name, known same.symm name⟩,
    fun name resource otherResource found foundOther => ?_⟩
  obtain ⟨_, stored, alike⟩ := counterpart same name resource found
  rw [foundOther, Option.some.injEq] at stored
  subst stored
  simp only [levelKey, Prod.mk.injEq, true_and] at alike
  refine ⟨?_, alike.2⟩
  exact (List.perm_insertionSort _ _).symm.trans
    ((List.Perm.of_eq alike.1).trans (List.perm_insertionSort _ _))

/-- **Which signatures tell policies apart.** The signature of a policy belongs to policies
with the same resources only, exactly when the policy has one reading. Among policies
without separators in names and values all signatures tell resources apart. -/
theorem signatures_tellApart (policy : RangerPolicy) :
    (TellsApart policy ↔ OneReading policy.resources) ∧
      ∀ other, Separable policy.resources → Separable other.resources →
        (getResourceString policy = getResourceString other ↔
          SameUpToOrder policy.resources other.resources) := by
  refine ⟨tellsApart_iff policy, fun other separable separableOther => ⟨fun same => ?_, ?_⟩⟩
  · exact same_of_levelKeys_eq (levelKeys_eq_of_texts separable.levels separableOther.levels
      (getResourceString_eq_iff.mp same))
  · exact getResourceString_eq_of_same

end Separable

section Commas

/-- Two directories, and one whose name holds a comma. -/
theorem comma_collides :
    getResourceString (singleLevel "path" { values := ["/a", "/b"] }) =
        getResourceString (singleLevel "path" { values := ["/a, /b"] }) ∧
      ¬ SameUpToOrder (singleLevel "path" { values := ["/a", "/b"] }).resources
        (singleLevel "path" { values := ["/a, /b"] }).resources := by
  refine ⟨by decide, fun same => ?_⟩
  have shuffled := (same.2 "path" _ _ rfl rfl).1
  exact absurd shuffled.length_eq (by decide)

end Commas

end Ranger
