import Ranger.Admin.ExactMatchSound
import Ranger.Foundation.Delimited
import Ranger.Admin.GrantScope
import Ranger.Admin.V1Grant
import Ranger.Agents.HiveDecisions

/-! # Grants of Hive

A grant in Hive becomes a request for its database, table and columns, and the policy that is
made for the request names the columns by one value, joined by commas. It is matched by the
resources the grant is for unless several columns are listed: none of them has the commas
that the value asks for.
-/

namespace Ranger

open Foundation

def HiveObjectType.name : HiveObjectType → String
  | none => "NONE"
  | database => "DATABASE"
  | table => "TABLE"
  | view => "VIEW"
  | partition => "PARTITION"
  | index => "INDEX"
  | column => "COLUMN"
  | function => "FUNCTION"
  | uri => "URI"

inductive HivePrincipalType where
  | user | group | role | unknown
  deriving DecidableEq

structure HivePrincipal where
  type : HivePrincipalType
  name : String

structure HivePrivilege where
  name : String

namespace RangerHiveAuthorizer

section Requests

variable [Platform] (authorizer : RangerHiveAuthorizer)

/-- A grantor without a name is the user of the session. -/
def getGrantorUsername (grantorPrincipal : Option HivePrincipal) : Option String :=
  let grantor := grantorPrincipal.map (·.name)
  if isEmptyValue grantor then authorizer.ugi.map (·.shortUserName) else grantor

/-- The types of objects that privileges are granted on. -/
def grantedTypes : List HiveObjectType := [.database, .table, .view, .column]

/-- The privileges that are not ignored. -/
def grantedAccessTypes : List HiveAccessType :=
  [.all, .alter, .create, .drop, .index, .lock, .select, .update]

def mapResource (resource : RangerHiveResource) : AssocMap String (Option String) :=
  (((∅ : AssocMap String (Option String)).put RangerHiveResource.KEY_DATABASE
    (some (ServiceUtil.orAsterisk resource.getDatabase))).put RangerHiveResource.KEY_TABLE
      (some (ServiceUtil.orAsterisk resource.getTable))).put RangerHiveResource.KEY_COLUMN
        (some (ServiceUtil.orAsterisk resource.getColumn))

def createGrantRevokeData (resource : Option RangerHiveResource)
    (hivePrincipals : List HivePrincipal) (hivePrivileges : List HivePrivilege)
    (grantorPrincipal : Option HivePrincipal) (grantOption : Bool) :
    Except HiveException GrantRevokeRequest :=
  let unexpected := fun objectType : String =>
    HiveException.accessControl ("grant/revoke: unexpected object type '" ++ objectType)
  match resource with
  | none => .error (unexpected "null")
  | some resource =>
      if resource.objectType ∈ grantedTypes then
        .ok (ServiceUtil.withHashOrder
          { grantor := (authorizer.getGrantorUsername grantorPrincipal).getD ""
            delegateAdmin := grantOption
            enableAudit := true
            replaceExistingPermissions := false
            resource := mapResource resource
            users := ((hivePrincipals.filter (·.type = .user)).map (·.name)).eraseDups
            groups := ((hivePrincipals.filter fun principal =>
              principal.type = .group ∨ principal.type = .role).map (·.name)).eraseDups
            accessTypes := ((hivePrivileges.filter fun privilege =>
              grantedAccessTypes.any fun accessType =>
                equalsIgnoreCase privilege.name accessType.name).map fun privilege =>
                  Platform.lowerCase privilege.name).eraseDups })
      else .error (unexpected resource.objectType.name)

/-- The request of `grantPrivileges`. -/
def grantRequest (hivePrincipals : List HivePrincipal) (hivePrivileges : List HivePrivilege)
    (hivePrivObject : HivePrivilegeObject) (grantorPrincipal : Option HivePrincipal)
    (grantOption : Bool) : Except HiveException GrantRevokeRequest :=
  authorizer.createGrantRevokeData (getHiveResource .grantPrivilege hivePrivObject)
    hivePrincipals hivePrivileges grantorPrincipal grantOption

end Requests

section Objects

open RangerHiveResource

/-- The resources a grant on an object is for: each listed column, or the table or database
with all that is in it. -/
def IsGranted (hiveObj : HivePrivilegeObject) (resource : RangerAccessResource) : Prop :=
  match getObjectType hiveObj .grantPrivilege with
  | .database =>
      resource = elementsFor .database hiveObj.dbname none none ∨
        (∃ table, resource = elementsFor .table hiveObj.dbname (some table) none) ∨
        ∃ table column, resource = elementsFor .column hiveObj.dbname (some table) (some column)
  | .table | .view =>
      resource = elementsFor .table hiveObj.dbname hiveObj.objectName none ∨
        ∃ column, resource = elementsFor .column hiveObj.dbname hiveObj.objectName (some column)
  | .column =>
      ∃ column ∈ hiveObj.columns.getD [],
        resource = elementsFor .column hiveObj.dbname hiveObj.objectName column
  | _ => False

end Objects

end RangerHiveAuthorizer

theorem nodup_matcherOptions :
    ([("wildCard", "true"), ("ignoreCase", "true")].map Prod.fst).Nodup := by decide

def hiveMatcherOptions : AssocMap String String :=
  ⟨[("wildCard", "true"), ("ignoreCase", "true")], nodup_matcherOptions⟩

/-- A level of the service definition of Hive. -/
def hiveLevel (name : String) (level : Int) : RangerResourceDef where
  name := name
  level := level
  mandatory := true
  excludesSupported := true
  matcher := "org.apache.ranger.plugin.resourcematcher.RangerDefaultResourceMatcher"
  matcherOptions := hiveMatcherOptions

/-- The service definition of Hive as it is installed. -/
def hiveServiceDef : RangerServiceDef where
  name := "hive"
  resources :=
    [hiveLevel "database" 10, hiveLevel "table" 20, hiveLevel "udf" 20, hiveLevel "column" 30]
  accessTypes :=
    [{ name := "select" }, { name := "update" }, { name := "create" }, { name := "drop" },
      { name := "alter" }, { name := "index" }, { name := "lock" }, { name := "all" }]

open RangerDefaultPolicyEvaluator

/-- The policy is matched by every resource the grant is for. -/
def CoversObject [Platform] (hiveObj : HivePrivilegeObject)
    (evaluator : RangerDefaultPolicyEvaluator) : Prop :=
  ∀ resource, RangerHiveAuthorizer.IsGranted hiveObj resource → evaluator.isMatch resource = true

/-- A name that is set or was there before. -/
theorem RangerAccessResource.mem_getKeys_of_setValue {resource : RangerAccessResource}
    {name key : String} {value : Option String}
    (member : key ∈ (resource.setValue name value).getKeys) :
    key = name ∧ value.isSome = true ∨ key ∈ resource.getKeys := by
  cases value with
  | some text =>
      rcases RangerAccessResource.mem_getKeys_setValue.mp member with same | before
      · exact .inl ⟨same, rfl⟩
      · exact .inr before
  | none =>
      refine .inr ?_
      unfold RangerAccessResource.setValue RangerAccessResource.getKeys at member
      unfold RangerAccessResource.getKeys
      cases held : resource.elements with
      | none =>
          rw [held] at member
          dsimp only at member
          rwa [held] at member
      | some elements =>
          rw [held] at member
          dsimp only at member ⊢
          split at member
          · next impossible =>
            split at impossible
            · cases member
            · cases impossible
          · next kept given =>
            split at given
            · cases given
            · cases given
              rw [AssocMap.keys_filterKeys] at member
              exact List.mem_of_mem_filter member

namespace RangerHiveResource

section Values

variable (database table column : Option String)

theorem getValue_ofValues :
    (ofValues database table none column).getValue KEY_DATABASE = database ∧
      (ofValues database table none column).getValue KEY_TABLE = table ∧
      (ofValues database table none column).getValue KEY_UDF = none ∧
      (ofValues database table none column).getValue KEY_COLUMN = column := by
  cases database <;> cases table <;> cases column <;> exact ⟨rfl, rfl, rfl, rfl⟩

theorem elementsFor_database :
    elementsFor .database database table column = ofValues database none none none := by
  cases database <;> rfl

theorem elementsFor_table :
    elementsFor .table database table column = ofValues database table none none := by
  cases database <;> cases table <;> rfl

theorem elementsFor_column :
    elementsFor .column database table column = ofValues database table none column := by
  cases database <;> cases table <;> cases column <;> rfl

/-- The names of a resource are among the levels that can have values. -/
theorem mem_getKeys_ofValues {key : String}
    (member : key ∈ (ofValues database table none column).getKeys) :
    key = KEY_DATABASE ∨ key = KEY_TABLE ∨ key = KEY_COLUMN := by
  unfold ofValues at member
  rcases RangerAccessResource.mem_getKeys_of_setValue member with ⟨rfl, -⟩ | member
  · exact .inr (.inr rfl)
  rcases RangerAccessResource.mem_getKeys_of_setValue member with ⟨-, impossible⟩ | member
  · cases impossible
  rcases RangerAccessResource.mem_getKeys_of_setValue member with ⟨rfl, -⟩ | member
  · exact .inr (.inl rfl)
  rcases RangerAccessResource.mem_getKeys_of_setValue member with ⟨rfl, -⟩ | member
  · exact .inl rfl
  · cases member

end Values

end RangerHiveResource

namespace RangerHiveAuthorizer

section Levels

variable [Platform]

/-- The matcher of a level for the one value of a request. -/
def levelMatcher (value : String) : RangerResourceMatcher :=
  .default ⟨hiveMatcherOptions, { values := [value] }⟩

theorem isMatch_asterisk (text : Option String) : (levelMatcher "*").isMatch text = true := by
  cases text with
  | none => rfl
  | some text => rfl

/-- A level is matched by what it was made of. -/
theorem isMatch_orAsterisk (text : Option String) :
    (levelMatcher (ServiceUtil.orAsterisk text)).isMatch text = true := by
  cases text with
  | none => exact isMatch_asterisk none
  | some text =>
      unfold ServiceUtil.orAsterisk
      dsimp only
      cases empty : text.isEmpty with
      | true => exact isMatch_asterisk _
      | false =>
          have listed : text ∈ (levelMatcher text).base.policyValues :=
            RangerResourceMatcher.mem_policyValues.mpr ⟨List.mem_cons_self, by
              simpa [String.isEmpty_iff] using empty⟩
          rw [if_neg Bool.false_ne_true, RangerResourceMatcher.isMatch_some]
          refine Bool.or_eq_true_iff.mpr (.inr (List.any_eq_true.mpr ⟨text, listed, ?_⟩))
          exact RangerResourceMatcher.reads_self (.inl rfl) text

theorem optWildCard_levelMatcher (value : String) :
    (levelMatcher value).base.optWildCard = true :=
  equalsIgnoreCase_refl "true"

/-- No column is matched by the value several columns are joined to. -/
theorem not_isMatch_joinColumns {columns : List (Option String)} (several : 2 ≤ columns.length)
    {column : Option String} (member : column ∈ columns) :
    (levelMatcher (ServiceUtil.orAsterisk (joinColumns (some columns)))).isMatch column =
      false := by
  obtain ⟨value, joined⟩ : ∃ value, joinColumns (some columns) = some value := ⟨_, rfl⟩
  have chars := toList_joinColumns (some columns)
  rw [joined, Option.getD_some, Option.getD_some] at chars
  have comma : COLUMN_SEP ∈ value.toList := by
    rw [chars, mem_intercalate_iff, List.length_map]
    exact .inl several
  have nonempty : value.isEmpty = false := by
    rw [Bool.eq_false_iff, ne_eq, String.isEmpty_iff, ← String.toList_eq_nil_iff]
    exact List.ne_nil_of_mem comma
  have own : ServiceUtil.orAsterisk (some value) = value := if_neg (by simp [nonempty])
  have single : (levelMatcher value).base.policyValues = [value] :=
    List.filter_cons_of_pos (by simp [nonempty])
  have specific : (levelMatcher value).base.isMatchAny = false := by
    unfold RangerAbstractResourceMatcher.isMatchAny
    rw [single]
    simp only [List.any_cons, List.any_nil, Bool.or_false, List.isEmpty_cons]
    refine Bool.eq_false_iff.mpr fun asterisks => ?_
    exact absurd (List.all_eq_true.mp asterisks COLUMN_SEP comma) (by decide)
  rw [joined, own]
  cases column with
  | none => rw [RangerResourceMatcher.isMatch_none, specific]; rfl
  | some text =>
      rw [RangerResourceMatcher.isMatch_some, specific, single]
      simp only [List.any_cons, List.any_nil, Bool.or_false, Bool.false_or]
      refine (if_neg Bool.false_ne_true).trans (Bool.eq_false_iff.mpr fun accepted => ?_)
      have wild : wildcardMatch (levelMatcher value).base.fold text.toList value = true := by
        rw [RangerResourceMatcher.reads_flat rfl] at accepted
        unfold RangerAbstractResourceMatcher.matchesValue at accepted
        rwa [if_pos (optWildCard_levelMatcher value)] at accepted
      have asked := @Glob.countP_asks_le _ _ _ _ ((levelMatcher value).base.fold COLUMN_SEP) _ _
        ((Glob.accepts_iff_mem_language ..).mp wild)
      rw [RangerPathResourceMatcher.countP_asks_wildcardTokens (by decide), chars] at asked
      have listed : text.toList ∈ columns.map fun column => (columnText column).toList :=
        List.mem_map.mpr ⟨some text, member, rfl⟩
      -- the value asks for more commas than the column has
      have fewer := @Delimited.countP_lt_countP_intercalate _ COLUMN_SEP
        (fun char => decide ((levelMatcher value).base.fold char =
          (levelMatcher value).base.fold COLUMN_SEP))
        (decide_eq_true rfl) _ (by rwa [List.length_map]) _ listed
      exact absurd asked (Nat.not_le.mpr fewer)

end Levels

section Evaluator

open RangerHiveResource ServiceUtil

/-- A policy made for a grant on a resource. -/
structure MadeFor (resource : RangerHiveResource) (request : GrantRevokeRequest)
    (evaluator : RangerDefaultPolicyEvaluator) : Prop where
  typed : evaluator.serviceDef = hiveServiceDef
  resources : evaluator.policy.resources = ServiceREST.grantedResources request
  mapped : request.resource = mapResource resource
  flat : request.isRecursive = false

variable {resource : RangerHiveResource} {request : GrantRevokeRequest}
  {evaluator : RangerDefaultPolicyEvaluator} (made : MadeFor resource request evaluator)

include made in
theorem MadeFor.get?_matchers (name : String) (level : Int)
    (defined : levelDef hiveServiceDef name = some (hiveLevel name level)) :
    evaluator.matchers.get? name =
      ((mapResource resource).get? name).map fun value => levelMatcher (value.getD "") := by
  rw [ServiceREST.get?_matchers_granted made.resources, ServiceREST.grantedMatcher, made.typed,
    defined, Option.bind_some, made.mapped, made.flat]
  rfl

include made in
/-- A policy made for a grant compares each level with the value of the request. -/
theorem MadeFor.isMatch_ofValues_iff [Platform] {database table column : Option String}
    (elements : resource.toRangerAccessResource = ofValues database table none column)
    {givenDatabase givenTable givenColumn : Option String} :
    evaluator.isMatch (ofValues givenDatabase givenTable none givenColumn) = true ↔
      (levelMatcher (orAsterisk database)).isMatch givenDatabase = true ∧
        (levelMatcher (orAsterisk table)).isMatch givenTable = true ∧
          (levelMatcher (orAsterisk column)).isMatch givenColumn = true := by
  have own := getValue_ofValues database table column
  rw [← elements] at own
  have read : resource.getDatabase = database ∧ resource.getTable = table ∧
      resource.getColumn = column := ⟨own.1, own.2.1, own.2.2.2⟩
  have atDatabase : evaluator.matchers.get? "database" =
      some (levelMatcher (orAsterisk database)) := by
    rw [← read.1]
    exact made.get?_matchers _ 10 rfl
  have atTable : evaluator.matchers.get? "table" =
      some (levelMatcher (orAsterisk table)) := by
    rw [← read.2.1]
    exact made.get?_matchers _ 20 rfl
  have atUdf : evaluator.matchers.get? "udf" = none := made.get?_matchers _ 20 rfl
  have atColumn : evaluator.matchers.get? "column" =
      some (levelMatcher (orAsterisk column)) := by
    rw [← read.2.2]
    exact made.get?_matchers _ 30 rfl
  have keys : evaluator.keysMatch
      (ofValues givenDatabase givenTable none givenColumn).getKeys = true := by
    refine List.all_eq_true.mpr fun key member => (evaluator.containsKey_matchers_iff key).mpr ?_
    rcases mem_getKeys_ofValues _ _ _ member with rfl | rfl | rfl
    · exact ⟨_, atDatabase⟩
    · exact ⟨_, atTable⟩
    · exact ⟨_, atColumn⟩
  have values := getValue_ofValues givenDatabase givenTable givenColumn
  unfold KEY_DATABASE KEY_TABLE KEY_UDF KEY_COLUMN at values
  unfold RangerDefaultPolicyEvaluator.isMatch
  rw [keys, made.typed]
  simp only [hiveServiceDef, List.all_cons, List.all_nil, matchesLevel, hiveLevel, atDatabase,
    atTable, atUdf, atColumn, values.1, values.2.1, values.2.2.1, values.2.2.2]
  simp [isEmptyValue]

end Evaluator

section Objects

variable {hiveObj : HivePrivilegeObject}

/-- What a grant takes an object for. -/
theorem getObjectType_grantPrivilege :
    getObjectType hiveObj .grantPrivilege =
      match hiveObj.type with
      | .database => .database
      | .partition => .partition
      | .tableOrView => if isEmptyList hiveObj.columns then .table else .column
      | .function => .function
      | .dfsUri | .localUri => .uri
      | .commandParams | .global | .column => .none := by
  have index : nameContains .grantPrivilege "index" = false := by decide
  have view : nameContains .grantPrivilege "view" = false := by decide
  unfold getObjectType
  rw [index, view]
  cases hiveObj.type with
  | tableOrView => cases isEmptyList hiveObj.columns <;> rfl
  | _ => rfl

theorem joinColumns_singleton (column : Option String) :
    joinColumns (some [column]) = some (columnText column) := by
  unfold joinColumns columnText
  rw [Option.map_some, List.map_singleton, List.intercalate_singleton, String.ofList_toList]

variable [Platform]

/-- A single column is matched by its own value. -/
theorem isMatch_columnText (column : Option String) :
    (levelMatcher (ServiceUtil.orAsterisk (some (columnText column)))).isMatch column = true := by
  cases column with
  | none => exact isMatch_asterisk none
  | some text => exact isMatch_orAsterisk (some text)

variable {resource : RangerHiveResource} {request : GrantRevokeRequest}
  {evaluator : RangerDefaultPolicyEvaluator} (made : MadeFor resource request evaluator)

open RangerHiveResource

include made in
/-- A policy made for columns is matched by the listed ones if there is one only. -/
theorem MadeFor.covers_columns_iff {first : Option String} {rest : List (Option String)}
    (found : resource.toRangerAccessResource = elementsFor .column hiveObj.dbname
      hiveObj.objectName (joinColumns (some (first :: rest)))) :
    (∀ column ∈ first :: rest, evaluator.isMatch
      (elementsFor .column hiveObj.dbname hiveObj.objectName column) = true) ↔ rest = [] := by
  rw [elementsFor_column] at found
  simp only [elementsFor_column, made.isMatch_ofValues_iff found, isMatch_orAsterisk, true_and]
  cases rest with
  | nil =>
      refine iff_of_true (fun column listed => ?_) rfl
      rw [List.mem_singleton.mp listed, joinColumns_singleton]
      exact isMatch_columnText first
  | cons second rest =>
      refine iff_of_false (fun covers => ?_) (List.cons_ne_nil _ _)
      have several : 2 ≤ (first :: second :: rest).length := Nat.le_add_left 2 _
      have unmatched := not_isMatch_joinColumns several List.mem_cons_self
      rw [covers first List.mem_cons_self] at unmatched
      cases unmatched

include made in
/-- A policy made for a table is matched by the table and what is in it. -/
theorem MadeFor.covers_table (found : resource.toRangerAccessResource =
      elementsFor .table hiveObj.dbname hiveObj.objectName none) {column : Option String} :
    evaluator.isMatch (ofValues hiveObj.dbname hiveObj.objectName none column) = true := by
  rw [elementsFor_table] at found
  exact (made.isMatch_ofValues_iff found).mpr
    ⟨isMatch_orAsterisk _, isMatch_orAsterisk _, isMatch_asterisk _⟩

include made in
theorem MadeFor.covers_database (found : resource.toRangerAccessResource =
      elementsFor .database hiveObj.dbname none none) {table column : Option String} :
    evaluator.isMatch (ofValues hiveObj.dbname table none column) = true := by
  rw [elementsFor_database] at found
  exact (made.isMatch_ofValues_iff found).mpr
    ⟨isMatch_orAsterisk _, isMatch_asterisk _, isMatch_asterisk _⟩

include made in
theorem MadeFor.coversObject_of_empty (kind : getObjectType hiveObj .grantPrivilege = .table)
    (found : getHiveResource .grantPrivilege hiveObj = some resource) :
    CoversObject hiveObj evaluator := by
  unfold getHiveResource at found
  unfold CoversObject IsGranted
  rw [kind] at found ⊢
  cases found
  rintro _ (rfl | ⟨column, rfl⟩)
  · rw [elementsFor_table]
    exact made.covers_table rfl
  · rw [elementsFor_column]
    exact made.covers_table rfl

include made in
theorem MadeFor.coversObject_of_columns {first : Option String} {rest : List (Option String)}
    (kind : getObjectType hiveObj .grantPrivilege = .column)
    (columns : hiveObj.columns = some (first :: rest))
    (found : getHiveResource .grantPrivilege hiveObj = some resource) :
    CoversObject hiveObj evaluator ↔ rest = [] := by
  unfold getHiveResource at found
  unfold CoversObject IsGranted
  rw [kind, columns] at found
  rw [kind, columns]
  cases found
  have single : (∀ column ∈ first :: rest, evaluator.isMatch
      (elementsFor .column hiveObj.dbname hiveObj.objectName column) = true) ↔ rest = [] :=
    made.covers_columns_iff rfl
  refine Iff.trans ⟨fun covers column member => ?_, fun covers resource granted => ?_⟩ single
  · exact covers _ ⟨column, member, rfl⟩
  · obtain ⟨column, member, rfl⟩ := granted
    exact covers column member

include made in
/-- A policy made for a grant covers its object unless that has several columns. -/
theorem MadeFor.coversObject_iff
    (found : getHiveResource .grantPrivilege hiveObj = some resource) :
    CoversObject hiveObj evaluator ↔
      (hiveObj.type = .tableOrView → (hiveObj.columns.getD []).length ≤ 1) := by
  have kind := @getObjectType_grantPrivilege hiveObj
  cases object : hiveObj.type with
  | tableOrView =>
      rw [object] at kind
      dsimp only at kind
      cases columns : hiveObj.columns with
      | none =>
          rw [columns] at kind
          exact iff_of_true (made.coversObject_of_empty kind found) fun _ => Nat.zero_le _
      | some listed =>
          cases listed with
          | nil =>
              rw [columns] at kind
              exact iff_of_true (made.coversObject_of_empty kind found) fun _ => Nat.zero_le _
          | cons first rest =>
              rw [columns] at kind
              refine (made.coversObject_of_columns kind columns found).trans ?_
              simp
  | database =>
      rw [object] at kind
      dsimp only at kind
      unfold getHiveResource at found
      unfold CoversObject IsGranted
      rw [kind] at found ⊢
      cases found
      refine iff_of_true ?_ (fun impossible => by cases impossible)
      rintro _ (rfl | ⟨table, rfl⟩ | ⟨table, column, rfl⟩)
      · rw [elementsFor_database]
        exact made.covers_database rfl
      · rw [elementsFor_table]
        exact made.covers_database rfl
      · rw [elementsFor_column]
        exact made.covers_database rfl
  | _ =>
      rw [object] at kind
      dsimp only at kind
      unfold CoversObject IsGranted
      rw [kind]
      refine iff_of_true (fun _ impossible => impossible.elim) fun impossible => ?_
      cases impossible

end Objects

section Created

variable [Platform] [ClassLoader] {authorizer : RangerHiveAuthorizer}
  {hivePrincipals : List HivePrincipal} {hivePrivileges : List HivePrivilege}
  {hivePrivObject : HivePrivilegeObject} {grantorPrincipal : Option HivePrincipal}
  {grantOption : Bool} {request : GrantRevokeRequest}

omit [ClassLoader] in
theorem exists_of_grantRequest
    (requested : authorizer.grantRequest hivePrincipals hivePrivileges hivePrivObject
      grantorPrincipal grantOption = .ok request) :
    ∃ resource, getHiveResource .grantPrivilege hivePrivObject = some resource ∧
      request.resource = mapResource resource ∧ request.isRecursive = false := by
  unfold grantRequest createGrantRevokeData at requested
  cases found : getHiveResource .grantPrivilege hivePrivObject with
  | none =>
      rw [found] at requested
      cases requested
  | some resource =>
      rw [found] at requested
      dsimp only at requested
      split at requested
      · cases requested
        exact ⟨resource, rfl, rfl, rfl⟩
      · cases requested

variable {rest : ServiceREST ServiceDBStore} {serviceName time : String}
  {userGroups : List String} {policyEngine : RangerPolicyEngineImpl} {created : RangerPolicy}

/-- What a grant makes the store keep. -/
theorem madeFor_of_createsPolicy
    (requested : authorizer.grantRequest hivePrincipals hivePrivileges hivePrivObject
      grantorPrincipal grantOption = .ok request)
    (creates : rest.CreatesPolicy serviceName userGroups time request policyEngine
      hiveServiceDef created) (options : RangerPolicyEngineOptions) :
    ∃ resource, getHiveResource .grantPrivilege hivePrivObject = some resource ∧
      MadeFor resource request (init created hiveServiceDef options) := by
  obtain ⟨resource, found, mapped, flat⟩ := exists_of_grantRequest requested
  refine ⟨resource, found, rfl, ?_, mapped, flat⟩
  have stored := (ServiceREST.stored_of_createsPolicy creates).2
  rw [storedResources_of_defined] at stored
  · exact stored
  · intro name key
    rw [ServiceREST.keys_grantedResources, mapped] at key
    have listed : name ∈ ["database", "table", "column"] := key
    rcases List.mem_cons.mp listed with rfl | listed
    · decide
    · rcases List.mem_cons.mp listed with rfl | listed
      · decide
      · rw [List.mem_singleton.mp listed]
        decide

/-- **Grants of Hive.** The policy a grant makes is matched by all that is granted exactly if
at most one column is listed. -/
theorem grant_coversObject_iff
    (requested : authorizer.grantRequest hivePrincipals hivePrivileges hivePrivObject
      grantorPrincipal grantOption = .ok request)
    (creates : rest.CreatesPolicy serviceName userGroups time request policyEngine
      hiveServiceDef created) (options : RangerPolicyEngineOptions) :
    CoversObject hivePrivObject (init created hiveServiceDef options) ↔
      (hivePrivObject.type = .tableOrView → (hivePrivObject.columns.getD []).length ≤ 1) := by
  obtain ⟨resource, found, made⟩ := madeFor_of_createsPolicy requested creates options
  exact made.coversObject_iff found

end Created

section Example

attribute [local instance] Platform.ascii ClassLoader.addresses

/-- Bob administers everything. -/
def warehousePolicy : RangerPolicy where
  id := some 1
  service := "warehouse"
  name := "all"
  resources :=
    ⟨[("database", { values := ["*"] }), ("table", { values := ["*"] }),
      ("column", { values := ["*"] })], by decide⟩
  policyItems := [{ users := ["bob"], delegateAdmin := true }]

def warehouseREST : ServiceREST ServiceDBStore where
  svcStore :=
    { serviceDefs := [hiveServiceDef]
      services := [{ id := 1, name := "warehouse", type := "hive" }]
      policies := [warehousePolicy]
      users := ["ann", "bob"]
      groups := []
      nextPolicyId := 2 }
  configuration := ∅
  engineCache := ⟨adminPolicyEngineOptions, ∅⟩

def warehouseEngine : RangerPolicyEngineImpl :=
  .create ∅
    { serviceName := "warehouse", serviceDef := hiveServiceDef, policies := [warehousePolicy] }
    adminPolicyEngineOptions

/-- Columns of the table of orders. -/
def orders (columns : List String) : HivePrivilegeObject where
  type := .tableOrView
  dbname := some "sales"
  objectName := some "orders"
  columns := some (columns.map some)

/-- Bob lets Ann select columns. -/
def grantOrders (columns : List String) : Except HiveException GrantRevokeRequest :=
  unloaded.grantRequest [⟨.user, "ann"⟩] [⟨"SELECT"⟩] (orders columns) (some ⟨.user, "bob"⟩) false

/-- The request of a grant of columns. -/
def ordersRequest (columns : String) : GrantRevokeRequest where
  grantor := "bob"
  resource := mapResource (.create .column (some "sales") (some "orders") (some columns))
  users := ["ann"]
  accessTypes := ["select"]

/-- The policy that is stored for the request. -/
def ordersPolicy (columns : String) : RangerPolicy :=
  warehouseREST.svcStore.stored hiveServiceDef
    { ServiceREST.grantedPolicy "warehouse" "noon" (ordersRequest columns) with
      id := some 2, version := some 1 }

theorem createsPolicy_amount : warehouseREST.CreatesPolicy "warehouse" [] "noon"
    (ordersRequest "amount") warehouseEngine hiveServiceDef (ordersPolicy "amount") where
  engine := rfl
  typed := rfl
  accepted := by decide +kernel
  stored := rfl

/-- The policy for one column is matched by it. -/
theorem amount_covered :
    CoversObject (orders ["amount"]) (init (ordersPolicy "amount") hiveServiceDef {}) := by
  have requested : grantOrders ["amount"] = .ok (ordersRequest "amount") := rfl
  exact (grant_coversObject_iff requested createsPolicy_amount {}).mpr fun _ => Nat.le_refl 1

theorem createsPolicy_amount_price : warehouseREST.CreatesPolicy "warehouse" [] "noon"
    (ordersRequest "amount,price") warehouseEngine hiveServiceDef
    (ordersPolicy "amount,price") where
  engine := rfl
  typed := rfl
  accepted := by decide +kernel
  stored := rfl

/-- **Two columns.** The policy for two columns is matched by neither. -/
theorem two_columns_not_covered :
    ¬∀ (hivePrivObject : HivePrivilegeObject) (request : GrantRevokeRequest)
      (created : RangerPolicy),
      unloaded.grantRequest [⟨.user, "ann"⟩] [⟨"SELECT"⟩] hivePrivObject (some ⟨.user, "bob"⟩)
          false = .ok request →
        warehouseREST.CreatesPolicy "warehouse" [] "noon" request warehouseEngine hiveServiceDef
          created →
          CoversObject hivePrivObject (init created hiveServiceDef {}) := by
  intro covers
  have covered := covers (orders ["amount", "price"]) _ _ rfl createsPolicy_amount_price
  have requested : grantOrders ["amount", "price"] = .ok (ordersRequest "amount,price") := rfl
  obtain ⟨resource, found, made⟩ :=
    madeFor_of_createsPolicy requested createsPolicy_amount_price {}
  exact absurd ((made.coversObject_iff found).mp covered rfl) (by decide)

end Example

end RangerHiveAuthorizer

end Ranger
