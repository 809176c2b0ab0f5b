import Mathlib.Data.List.ReduceOption
import Ranger.Admin.V1Resource

/-! # Grants of the first API

`ServiceUtil` makes one grant of a policy of the first API. The permission objects of the
policy, each with its users, groups and permissions, are put together into one set of each,
and the grant delegates administration if the last object does.
-/

namespace Ranger

open Foundation

/-- A `VXPolicy` with what only a grant reads of it. -/
structure VXGrantPolicy extends VXPolicy where
  grantor : Option String := none
  replacePerm : Bool := false

namespace ServiceUtil

def ASSET_HIVE : Int := 3

/-- A level without a text is for anything. -/
def orAsterisk : Option String → String
  | none => "*"
  | some text => if text.isEmpty then "*" else text

def getTableOrUdf (vXPolicy : VXPolicy) : Option String :=
  if !isEmptyValue vXPolicy.tables then vXPolicy.tables
  else if !isEmptyValue vXPolicy.udfs then vXPolicy.udfs
  else none

/-- The resource of a grant. The branch for HBase makes a map and does not set it. -/
def toGrantResource (assetType : Int) (vXPolicy : VXPolicy) : AssocMap String (Option String) :=
  if assetType = ASSET_HIVE then
    (((∅ : AssocMap String (Option String)).put "database"
      (some (orAsterisk vXPolicy.databases))).put "table" (getTableOrUdf vXPolicy)).put "column"
        (some (orAsterisk vXPolicy.columns))
  else ∅

section Calls

variable [Platform] (tables : V1Tables)

/-- The permissions of an object that are known. -/
def knownPerms (vXPermObj : VXPermObj) : List String :=
  (vXPermObj.permList.filter isKnownPerm).reduceOption

/-- One turn of the loop over the permission objects. -/
def addPermObj (assetType : Int) (ret : GrantRevokeRequest) (vXPermObj : VXPermObj) :
    GrantRevokeRequest :=
  { ret with
    users := vXPermObj.userList.foldl addOnce ret.users
    groups := vXPermObj.groupList.foldl addOnce ret.groups
    accessTypes :=
      ((knownPerms vXPermObj).filter fun perm =>
        !isAdminPerm perm || assetType == ASSET_HBASE).foldl addOnce ret.accessTypes
    delegateAdmin := (knownPerms vXPermObj).any isAdminPerm }

def getService (serviceName : String) : Except WebApplicationException RangerService :=
  match tables.getServiceByName (some serviceName) with
  | .error message => .error ⟨SC_BAD_REQUEST, some (message.getD "null" ++ serviceName)⟩
  | .ok none => .error ⟨SC_BAD_REQUEST, some ("No Service Found for ServiceName" ++ serviceName)⟩
  | .ok (some service) => .ok service

/-- What is set before the loop. -/
def startOfGrant (assetType : Int) (vXPolicy : VXGrantPolicy) : GrantRevokeRequest where
  grantor := vXPolicy.grantor.getD ""
  enableAudit := true
  isRecursive := false
  replaceExistingPermissions := vXPolicy.replacePerm
  resource := toGrantResource assetType vXPolicy.toVXPolicy

/-- The sets of a request as they are iterated. -/
def withHashOrder (ret : GrantRevokeRequest) : GrantRevokeRequest :=
  { ret with
    users := Platform.hashOrder ret.users
    groups := Platform.hashOrder ret.groups
    accessTypes := Platform.hashOrder ret.accessTypes }

def toGrantRevokeRequest (vXPolicy : VXGrantPolicy) :
    Except WebApplicationException GrantRevokeRequest := do
  let service ← getService tables vXPolicy.repositoryName
  let assetType := toAssetType service.type
  let ret := vXPolicy.permMapList.foldl (addPermObj assetType) (startOfGrant assetType vXPolicy)
  return withHashOrder ret

end Calls

end ServiceUtil

open ServiceUtil

section Within

def GrantRevokeRequest.Names (request : GrantRevokeRequest) : Grantee → Prop
  | .user name => name ∈ request.users
  | .group name => name ∈ request.groups

def GrantRevokeRequest.Permits (request : GrantRevokeRequest) : Grant → Prop
  | .access type => type ∈ request.accessTypes
  | .delegateAdmin => request.delegateAdmin = true

def VXPermObj.Names (vXPermObj : VXPermObj) : Grantee → Prop
  | .user name => name ∈ vXPermObj.userList
  | .group name => name ∈ vXPermObj.groupList

variable [Platform] (assetType : Int)

/-- What a permission object lists: administration is an access in HBase only. -/
def VXPermObj.Permits (vXPermObj : VXPermObj) : Grant → Prop
  | .access type =>
      some type ∈ vXPermObj.permList ∧ isKnownPerm (some type) = true ∧
        (isAdminPerm type = true → assetType = ASSET_HBASE)
  | .delegateAdmin =>
      ∃ type, some type ∈ vXPermObj.permList ∧ isKnownPerm (some type) = true ∧
        isAdminPerm type = true

/-- The levels of a Hive or HBase policy with their texts. A function is a level of its own
where there is one. -/
def grantLevels (vXPolicy : VXPolicy) : List (String × Option String) :=
  if assetType = ASSET_HIVE then
    [("database", vXPolicy.databases), ("table", vXPolicy.tables),
      ("column", vXPolicy.columns)] ++
    if isEmptyValue vXPolicy.udfs then [] else [("udf", vXPolicy.udfs)]
  else
    [("table", vXPolicy.tables), ("column-family", vXPolicy.columnFamilies),
      ("column", vXPolicy.columns)]

/-- A request names every level of the policy as the policy does; where there is no text, both
mean anything. -/
def GrantRevokeRequest.NamesResource (request : GrantRevokeRequest) (vXPolicy : VXPolicy) :
    Prop :=
  ∀ level ∈ grantLevels assetType vXPolicy, ∃ value,
    request.resource.get? level.1 = some value ∧ orAsterisk value = orAsterisk level.2

/-- A request is for the resource of the policy, and it grants what the permission objects
list. -/
structure GrantRevokeRequest.StaysWithin (request : GrantRevokeRequest) (vXPolicy : VXPolicy) :
    Prop where
  resource : request.NamesResource assetType vXPolicy
  grants : ∀ grantee grant, request.Names grantee ∧ request.Permits grant ↔
    ∃ vXPermObj ∈ vXPolicy.permMapList,
      vXPermObj.Names grantee ∧ vXPermObj.Permits assetType grant

/-- The permission objects of a policy do not say different things. -/
structure ObjectsAgree (permMapList : List VXPermObj) : Prop where
  /-- Whom one object names and what another one lists are together in some object. -/
  accesses : ∀ first ∈ permMapList, ∀ second ∈ permMapList, ∀ grantee type,
    first.Names grantee → second.Permits assetType (.access type) →
      ∃ vXPermObj ∈ permMapList,
        vXPermObj.Names grantee ∧ vXPermObj.Permits assetType (.access type)
  /-- If the last object delegates administration, everybody is named by one that does. -/
  delegated : ∀ last ∈ permMapList.getLast?, last.Permits assetType .delegateAdmin →
    ∀ first ∈ permMapList, ∀ grantee, first.Names grantee →
      ∃ vXPermObj ∈ permMapList,
        vXPermObj.Names grantee ∧ vXPermObj.Permits assetType .delegateAdmin
  /-- If an object delegates administration to somebody, the last one does too. -/
  last : ∀ vXPermObj ∈ permMapList, ∀ grantee, vXPermObj.Names grantee →
    vXPermObj.Permits assetType .delegateAdmin →
      ∀ last ∈ permMapList.getLast?, last.Permits assetType .delegateAdmin

end Within

namespace ServiceUtil

section Folded

variable [Platform] {tables : V1Tables} {assetType : Int} {ret : GrantRevokeRequest}
  {vXPermObj : VXPermObj} {permMapList : List VXPermObj}

omit [Platform] in
theorem mem_foldl_addOnce {α : Type} [BEq α] [LawfulBEq α] {elements listed : List α}
    {element : α} : element ∈ elements.foldl addOnce listed ↔
      element ∈ listed ∨ element ∈ elements := by
  refine (foldl_iff addOnce (element ∈ ·) (fun _ _ => mem_addOnce) elements listed).trans ?_
  rw [exists_eq_right]

theorem mem_knownPerms {perm : String} :
    perm ∈ knownPerms vXPermObj ↔
      some perm ∈ vXPermObj.permList ∧ isKnownPerm (some perm) = true := by
  unfold knownPerms
  rw [List.reduceOption_mem_iff, List.mem_filter]

theorem names_addPermObj {grantee : Grantee} :
    (addPermObj assetType ret vXPermObj).Names grantee ↔
      ret.Names grantee ∨ vXPermObj.Names grantee := by
  cases grantee with
  | user name => exact mem_foldl_addOnce
  | group name => exact mem_foldl_addOnce

theorem permits_addPermObj {type : String} :
    (addPermObj assetType ret vXPermObj).Permits (.access type) ↔
      ret.Permits (.access type) ∨ vXPermObj.Permits assetType (.access type) := by
  refine mem_foldl_addOnce.trans (or_congr_right ?_)
  rw [List.mem_filter, mem_knownPerms, and_assoc]
  refine and_congr_right' (and_congr_right' ?_)
  rw [Bool.or_eq_true, Bool.not_eq_true', beq_iff_eq]
  cases isAdminPerm type with
  | true => simp
  | false => simp

theorem delegateAdmin_addPermObj :
    (addPermObj assetType ret vXPermObj).Permits .delegateAdmin ↔
      vXPermObj.Permits assetType .delegateAdmin := by
  refine List.any_eq_true.trans (exists_congr fun type => ?_)
  rw [mem_knownPerms, and_assoc]

theorem resource_foldl :
    (permMapList.foldl (addPermObj assetType) ret).resource = ret.resource :=
  foldl_same (addPermObj assetType) (·.resource) (fun _ _ => rfl) permMapList ret

variable {vXPolicy : VXGrantPolicy} {service : RangerService} {request : GrantRevokeRequest}

theorem toGrantRevokeRequest_eq
    (found : tables.getServiceByName (some vXPolicy.repositoryName) = .ok (some service)) :
    toGrantRevokeRequest tables vXPolicy =
      .ok (withHashOrder (vXPolicy.permMapList.foldl (addPermObj (toAssetType service.type))
        (startOfGrant (toAssetType service.type) vXPolicy))) := by
  unfold toGrantRevokeRequest getService
  rw [found]
  rfl

theorem names_of_toGrantRevokeRequest
    (found : tables.getServiceByName (some vXPolicy.repositoryName) = .ok (some service))
    (built : toGrantRevokeRequest tables vXPolicy = .ok request) {grantee : Grantee} :
    request.Names grantee ↔ ∃ vXPermObj ∈ vXPolicy.permMapList, vXPermObj.Names grantee := by
  rw [toGrantRevokeRequest_eq found] at built
  cases built
  have gathered := foldl_iff (addPermObj (toAssetType service.type))
    (GrantRevokeRequest.Names · grantee) (fun _ _ => names_addPermObj) vXPolicy.permMapList
    (startOfGrant (toAssetType service.type) vXPolicy)
  cases grantee with
  | user name =>
      exact (Platform.hashOrder_perm _).mem_iff.trans
        (gathered.trans (or_iff_right List.not_mem_nil))
  | group name =>
      exact (Platform.hashOrder_perm _).mem_iff.trans
        (gathered.trans (or_iff_right List.not_mem_nil))

theorem accesses_of_toGrantRevokeRequest
    (found : tables.getServiceByName (some vXPolicy.repositoryName) = .ok (some service))
    (built : toGrantRevokeRequest tables vXPolicy = .ok request) {type : String} :
    request.Permits (.access type) ↔ ∃ vXPermObj ∈ vXPolicy.permMapList,
      vXPermObj.Permits (toAssetType service.type) (.access type) := by
  rw [toGrantRevokeRequest_eq found] at built
  cases built
  have gathered := foldl_iff (addPermObj (toAssetType service.type))
    (GrantRevokeRequest.Permits · (.access type)) (fun _ _ => permits_addPermObj)
    vXPolicy.permMapList (startOfGrant (toAssetType service.type) vXPolicy)
  exact (Platform.hashOrder_perm _).mem_iff.trans
    (gathered.trans (or_iff_right List.not_mem_nil))

/-- Administration is delegated by the last object. -/
theorem delegateAdmin_of_toGrantRevokeRequest
    (found : tables.getServiceByName (some vXPolicy.repositoryName) = .ok (some service))
    (built : toGrantRevokeRequest tables vXPolicy = .ok request) :
    request.Permits .delegateAdmin ↔ ∃ last ∈ vXPolicy.permMapList.getLast?,
      last.Permits (toAssetType service.type) .delegateAdmin := by
  rw [toGrantRevokeRequest_eq found] at built
  cases built
  have step : ∀ ret vXPermObj,
      (addPermObj (toAssetType service.type) ret vXPermObj).delegateAdmin =
        (knownPerms vXPermObj).any isAdminPerm := fun _ _ => rfl
  have left := foldl_overwrites step vXPolicy.permMapList
    (startOfGrant (toAssetType service.type) vXPolicy)
  refine (Eq.congr left rfl).trans ?_
  cases vXPolicy.permMapList.getLast? with
  | none => simp [startOfGrant]
  | some last =>
      simp only [Option.map_some, Option.getD_some, Option.mem_some_iff, exists_eq_left']
      exact @delegateAdmin_addPermObj _ _ {} last

end Folded

section Levels

theorem orAsterisk_orAsterisk (text : Option String) :
    orAsterisk (some (orAsterisk text)) = orAsterisk text := by
  cases text with
  | none => rfl
  | some text =>
      cases empty : text.isEmpty with
      | true => simp [orAsterisk, empty]
      | false => simp [orAsterisk, empty]

theorem orAsterisk_getTableOrUdf {vXPolicy : VXPolicy}
    (tablesOnly : isEmptyValue vXPolicy.udfs = true) :
    orAsterisk (getTableOrUdf vXPolicy) = orAsterisk vXPolicy.tables := by
  unfold getTableOrUdf
  rw [tablesOnly]
  cases vXPolicy.tables with
  | none => rfl
  | some text =>
      cases empty : text.isEmpty with
      | true => simp [isEmptyValue, orAsterisk, empty]
      | false => simp [isEmptyValue, orAsterisk, empty]

variable {assetType : Int} {vXPolicy : VXPolicy}

/-- What the request for a Hive policy has at a level. -/
theorem get?_toGrantResource (hive : assetType = ASSET_HIVE) (level : String) :
    (toGrantResource assetType vXPolicy).get? level =
      if level = "column" then some (some (orAsterisk vXPolicy.columns))
      else if level = "table" then some (getTableOrUdf vXPolicy)
      else if level = "database" then some (some (orAsterisk vXPolicy.databases))
      else none := by
  unfold toGrantResource
  rw [if_pos hive, AssocMap.get?_put, AssocMap.get?_put, AssocMap.get?_put, AssocMap.get?_empty]

/-- The resource of the policy is named for Hive, unless the policy is for functions. -/
theorem namesResource_iff {request : GrantRevokeRequest}
    (resource : request.resource = toGrantResource assetType vXPolicy) :
    request.NamesResource assetType vXPolicy ↔
      assetType = ASSET_HIVE ∧ isEmptyValue vXPolicy.udfs = true := by
  unfold GrantRevokeRequest.NamesResource grantLevels
  rw [resource]
  by_cases hive : assetType = ASSET_HIVE
  · simp only [hive, ↓reduceIte, true_and]
    cases functions : isEmptyValue vXPolicy.udfs with
    | true =>
        refine iff_of_true (fun level listed => ?_) rfl
        rw [if_pos rfl, List.append_nil] at listed
        rw [get?_toGrantResource rfl]
        simp only [List.mem_cons, List.not_mem_nil, or_false] at listed
        rcases listed with rfl | rfl | rfl
        · exact ⟨_, rfl, orAsterisk_orAsterisk _⟩
        · exact ⟨_, rfl, orAsterisk_getTableOrUdf functions⟩
        · exact ⟨_, rfl, orAsterisk_orAsterisk _⟩
    | false =>
        refine iff_of_false (fun named => ?_) Bool.false_ne_true
        have listed : ("udf", vXPolicy.udfs) ∈ [("database", vXPolicy.databases),
            ("table", vXPolicy.tables), ("column", vXPolicy.columns)] ++
              if false = true then [] else [("udf", vXPolicy.udfs)] :=
          List.mem_append_right _ List.mem_cons_self
        obtain ⟨value, held, -⟩ := named _ listed
        rw [get?_toGrantResource rfl] at held
        cases held
  · simp only [hive, ↓reduceIte, false_and, iff_false]
    intro named
    obtain ⟨value, held, -⟩ := named _ List.mem_cons_self
    unfold toGrantResource at held
    rw [if_neg hive] at held
    cases held

end Levels

section Grants

variable [Platform] {tables : V1Tables} {vXPolicy : VXGrantPolicy} {service : RangerService}
  {request : GrantRevokeRequest}

/-- **Grants of the first API.** The request is for the policy's resource and grants what its
permission objects list, no more and no less, exactly if the service is one of Hive, the
policy is for no functions, and its objects do not say different things. -/
theorem staysWithin_iff
    (found : tables.getServiceByName (some vXPolicy.repositoryName) = .ok (some service))
    (built : toGrantRevokeRequest tables vXPolicy = .ok request) :
    request.StaysWithin (toAssetType service.type) vXPolicy.toVXPolicy ↔
      toAssetType service.type = ASSET_HIVE ∧ isEmptyValue vXPolicy.udfs = true ∧
        ObjectsAgree (toAssetType service.type) vXPolicy.permMapList := by
  have resource : request.resource =
      toGrantResource (toAssetType service.type) vXPolicy.toVXPolicy := by
    rw [toGrantRevokeRequest_eq found] at built
    cases built
    exact resource_foldl
  have names := @names_of_toGrantRevokeRequest _ _ _ _ _ found built
  have accesses := @accesses_of_toGrantRevokeRequest _ _ _ _ _ found built
  have delegates := delegateAdmin_of_toGrantRevokeRequest found built
  constructor
  · intro within
    obtain ⟨hive, tablesOnly⟩ := (namesResource_iff resource).mp within.resource
    refine ⟨hive, tablesOnly, ⟨?_, ?_, ?_⟩⟩
    · intro first member second other grantee type named permitted
      exact (within.grants grantee (.access type)).mp
        ⟨names.mpr ⟨first, member, named⟩, accesses.mpr ⟨second, other, permitted⟩⟩
    · intro last ends permitted first member grantee named
      exact (within.grants grantee .delegateAdmin).mp
        ⟨names.mpr ⟨first, member, named⟩, delegates.mpr ⟨last, ends, permitted⟩⟩
    · intro vXPermObj member grantee named permitted last ends
      obtain ⟨other, otherEnds, permitted⟩ := delegates.mp
        ((within.grants grantee .delegateAdmin).mpr ⟨vXPermObj, member, named, permitted⟩).2
      cases ends.symm.trans otherEnds
      exact permitted
  · rintro ⟨hive, tablesOnly, agree⟩
    refine ⟨(namesResource_iff resource).mpr ⟨hive, tablesOnly⟩, fun grantee grant => ?_⟩
    cases grant with
    | access type =>
        constructor
        · intro given
          obtain ⟨first, member, named⟩ := names.mp given.1
          obtain ⟨second, other, permitted⟩ := accesses.mp given.2
          exact agree.accesses first member second other grantee type named permitted
        · rintro ⟨vXPermObj, member, named, permitted⟩
          exact ⟨names.mpr ⟨vXPermObj, member, named⟩,
            accesses.mpr ⟨vXPermObj, member, permitted⟩⟩
    | delegateAdmin =>
        constructor
        · intro given
          obtain ⟨first, member, named⟩ := names.mp given.1
          obtain ⟨last, ends, permitted⟩ := delegates.mp given.2
          exact agree.delegated last ends permitted first member grantee named
        · rintro ⟨vXPermObj, member, named, permitted⟩
          obtain ⟨last, ends⟩ := exists_getLast? member
          exact ⟨names.mpr ⟨vXPermObj, member, named⟩, delegates.mpr ⟨last, ends,
            agree.last vXPermObj member grantee named permitted last ends⟩⟩

/-- A single object agrees with itself. -/
theorem objectsAgree_singleton (assetType : Int) (vXPermObj : VXPermObj) :
    ObjectsAgree assetType [vXPermObj] := by
  refine ⟨?_, ?_, ?_⟩
  · intro first member second other grantee type named permitted
    cases List.mem_singleton.mp member
    cases List.mem_singleton.mp other
    exact ⟨_, List.mem_cons_self, named, permitted⟩
  · intro last ends permitted first member grantee named
    cases ends
    cases List.mem_singleton.mp member
    exact ⟨_, List.mem_cons_self, named, permitted⟩
  · intro other member grantee named permitted last ends
    cases ends
    cases List.mem_singleton.mp member
    exact permitted

end Grants

section Example

attribute [local instance] Platform.ascii

/-- The tables with one service, of Hive. -/
def hiveTables : V1Tables where
  getXXUser _ := none
  getXXGroup _ := none
  getServiceByName name :=
    .ok (if name = some "warehouse" then some ⟨1, "warehouse", "hive", none⟩ else none)

/-- A policy for a table, with the permission objects. -/
def ordersPolicy (permMapList : List VXPermObj) : VXGrantPolicy where
  id := none
  policyName := "orders"
  repositoryName := "warehouse"
  repositoryType := "hive"
  isEnabled := true
  isAuditEnabled := true
  databases := some "sales"
  tables := some "orders"
  permMapList := permMapList

def permObj (user perm : String) : VXPermObj where
  userList := [user]
  permList := [some perm]

/-- The grant of one object. -/
theorem one_object_stays_within : ∃ request,
    toGrantRevokeRequest hiveTables (ordersPolicy [permObj "ann" "Select"]) = .ok request ∧
      request.StaysWithin (toAssetType "hive")
        (ordersPolicy [permObj "ann" "Select"]).toVXPolicy := by
  obtain ⟨request, built⟩ : ∃ request, toGrantRevokeRequest hiveTables
      (ordersPolicy [permObj "ann" "Select"]) = .ok request := ⟨_, rfl⟩
  have found : hiveTables.getServiceByName (some "warehouse") =
      .ok (some ⟨1, "warehouse", "hive", none⟩) := rfl
  have within := (staysWithin_iff found built).mpr ⟨rfl, rfl, objectsAgree_singleton _ _⟩
  exact ⟨request, built, within⟩

/-- **Two objects.** Ann may select and Bob may update; the request lets Ann update. -/
theorem second_object_reaches_first :
    ¬∀ (vXPolicy : VXGrantPolicy) (request : GrantRevokeRequest),
      toGrantRevokeRequest hiveTables vXPolicy = .ok request →
        request.StaysWithin (toAssetType "hive") vXPolicy.toVXPolicy := by
  intro within
  obtain ⟨request, built⟩ : ∃ request, toGrantRevokeRequest hiveTables
      (ordersPolicy [permObj "ann" "Select", permObj "bob" "Update"]) = .ok request := ⟨_, rfl⟩
  have named : request.Names (.user "ann") :=
    (names_of_toGrantRevokeRequest rfl built).mpr ⟨_, List.mem_cons_self, List.mem_cons_self⟩
  have permitted : request.Permits (.access "Update") :=
    (accesses_of_toGrantRevokeRequest rfl built).mpr ⟨permObj "bob" "Update",
      List.mem_cons_of_mem _ List.mem_cons_self, List.mem_cons_self, by decide, by decide⟩
  obtain ⟨vXPermObj, member, ann, update⟩ :=
    ((within _ request built).grants (.user "ann") (.access "Update")).mp ⟨named, permitted⟩
  rcases List.mem_cons.mp member with rfl | member
  · exact absurd update.1 (by decide)
  · rw [List.mem_singleton.mp member] at ann
    exact absurd (List.mem_singleton.mp ann) (by decide)

end Example

end ServiceUtil

end Ranger
