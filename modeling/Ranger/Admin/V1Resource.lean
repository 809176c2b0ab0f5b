import Ranger.Admin.GrantRevoke
import Ranger.Admin.PolicyREST
import Ranger.Admin.V1Policy

/-! # Resources of the first API

`ServiceUtil` makes a policy of a resource and the list of its permission maps. The maps
of one permission group become one item: it has the users, the groups and the access types
of all of them, and the address of the last one. So the policy gives what the maps give one
by one exactly if no group mixes maps that say different things.
-/

namespace Ranger

open Foundation

/-- A `VXPermMap` as a client sends it. -/
structure VXPermMapEntry where
  permGroup : Option String := none
  groupId : Option Int := none
  userId : Option Int := none
  permFor : Int := 0
  permType : Int := 0
  groupName : Option String := none
  userName : Option String := none
  ipAddress : Option String := none

structure VXAuditMap where
  resourceId : Option Int
  auditType : Int

structure VXDataObject where
  id : Option Int := none
  createDate : Option Int := none
  updateDate : Option Int := none
  owner : Option String := none
  updatedBy : Option String := none

structure VXResource extends VXDataObject where
  assetName : Option String := none
  policyName : Option String := none
  description : Option String := none
  resourceStatus : Int := 0
  auditList : Option (List VXAuditMap) := none
  isRecursive : Int := 0
  tableType : Int := 0
  columnType : Int := 0
  name : Option String := none
  tables : Option String := none
  columnFamilies : Option String := none
  columns : Option String := none
  databases : Option String := none
  udfs : Option String := none
  topologies : Option String := none
  services : Option String := none
  permMapList : Option (List VXPermMapEntry) := none

structure DraftAccess where
  type : Option String
  isAllowed : Bool := true

/-- A policy item before any validation: the names and the access types may be missing. -/
structure DraftItem where
  accesses : List DraftAccess := []
  users : List (Option String) := []
  groups : List (Option String) := []
  conditions : List RangerPolicyItemCondition := []
  delegateAdmin : Bool := false

/-- The fields of `RangerBaseModelObject`. -/
structure BaseModelObject where
  id : Option Int
  createTime : Option Int
  updateTime : Option Int
  createdBy : Option String
  updatedBy : Option String

/-- A policy before any validation. -/
structure DraftPolicy extends BaseModelObject where
  service : Option String
  name : Option String
  description : Option String
  isEnabled : Bool
  isAuditEnabled : Bool
  resources : AssocMap String RangerPolicyResource
  policyItems : List DraftItem

/-- An order in which a hash map with these keys is iterated. -/
structure PermGroupOrder where
  order : List (Option String) → List (Option String)
  perm : ∀ permGroups, (order permGroups).Perm permGroups

/-- What the conversion reads of the database: the names of users and groups by id, and
services by name. -/
structure V1Tables where
  getXXUser : Int → Option String
  getXXGroup : Int → Option String
  getServiceByName : Option String → Throws (Option RangerService)

/-- What a policy item can give. -/
inductive Grant where
  | access (type : String)
  | delegateAdmin

namespace ServiceUtil

section Constants

def XA_PERM_FOR_USER : Int := 1

def XA_PERM_FOR_GROUP : Int := 2

def STATUS_ENABLED : Int := 1

def BOOL_TRUE : Int := 1

end Constants

section Conversion

variable [Platform] (tables : V1Tables)

def getUserName (permMap : VXPermMapEntry) : Option String :=
  if isEmptyValue permMap.userName then
    (permMap.userId.bind tables.getXXUser).or permMap.userName
  else permMap.userName

def getGroupName (permMap : VXPermMapEntry) : Option String :=
  if isEmptyValue permMap.groupName then
    (permMap.groupId.bind tables.getXXGroup).or permMap.groupName
  else permMap.groupName

/-- The hash map is searched in its own order for an entry with the permission type. -/
def toAccessType (permType : Int) : Option String :=
  (Platform.hashOrder (mapAccessTypeToPermType.map (·.1))).find? fun key =>
    (List.lookup key mapAccessTypeToPermType).any fun value => (value : Int) == permType

/-- A service without a type is looked up by name. -/
def getAssetType (service : Option RangerService) (serviceName : Option String) :
    Except WebApplicationException Int := do
  let service ←
    if service.all (·.type.isEmpty) then
      match tables.getServiceByName serviceName with
      | .ok service => .ok service
      | .error message =>
          .error ⟨SC_BAD_REQUEST, some (message.getD "null" ++ serviceName.getD "null")⟩
    else .ok service
  return (service.map fun service => toAssetType service.type).getD (-1)

/-- One turn of the loop over the maps of a permission group, on the item and the address. -/
def addPermMapEntry (assetType : Int) (progress : DraftItem × Option String)
    (permMap : VXPermMapEntry) : DraftItem × Option String :=
  let accessType := toAccessType permMap.permType
  let isAdmin := accessType.any isAdminPerm
  let policyItem := progress.1
  ({ policyItem with
      users :=
        if permMap.permFor = XA_PERM_FOR_USER then
          addOnce policyItem.users (getUserName tables permMap)
        else policyItem.users
      groups :=
        if permMap.permFor = XA_PERM_FOR_GROUP then
          addOnce policyItem.groups (getGroupName tables permMap)
        else policyItem.groups
      accesses :=
        if isAdmin && assetType != ASSET_HBASE then policyItem.accesses
        else policyItem.accesses ++ [⟨accessType, true⟩]
      delegateAdmin := policyItem.delegateAdmin || isAdmin },
    permMap.ipAddress)

def addressConditions : Option String → List RangerPolicyItemCondition
  | none => []
  | some ipAddress => if ipAddress.isEmpty then [] else [⟨"ipaddress", [ipAddress]⟩]

/-- The item of the maps of a permission group. -/
def toDraftItem (assetType : Int) (permMaps : List VXPermMapEntry) : DraftItem :=
  let (policyItem, ipAddress) := permMaps.foldl (addPermMapEntry tables assetType) ({}, none)
  { policyItem with conditions := addressConditions ipAddress }

/-- The levels of a resource in their order, each with its text and whether it excludes. -/
def resourceLevels (resource : VXResource) : List (String × Option String × Bool) :=
  [("path", resource.name, false),
    ("table", resource.tables, resource.tableType == POLICY_EXCLUSION),
    ("column-family", resource.columnFamilies, false),
    ("column", resource.columns, resource.columnType == POLICY_EXCLUSION),
    ("database", resource.databases, false), ("udf", resource.udfs, false),
    ("topology", resource.topologies, false), ("service", resource.services, false)]

def dataObjectToRangerObject (dataObject : VXDataObject) : BaseModelObject where
  id := dataObject.id
  createTime := dataObject.createDate
  updateTime := dataObject.updateDate
  createdBy := dataObject.owner
  updatedBy := dataObject.updatedBy

/-- `toRangerPolicy(VXResource)`; the hash map of the permission groups is iterated in the
order. -/
def toDraftPolicy (permGroupOrder : PermGroupOrder) (resource : VXResource)
    (service : Option RangerService) : Except WebApplicationException DraftPolicy := do
  let serviceName := (service.map (·.name)).or resource.assetName
  let sortedPermMap :=
    AssocMap.collect VXPermMapEntry.permGroup (resource.permMapList.getD [])
  let assetType ← getAssetType tables service serviceName
  return {
    toBaseModelObject := dataObjectToRangerObject resource.toVXDataObject
    service := serviceName
    name := resource.policyName
    description := resource.description
    isEnabled := resource.resourceStatus == STATUS_ENABLED
    isAuditEnabled := resource.auditList.any fun auditList => !auditList.isEmpty
    resources := (resourceLevels resource).foldl (fun ret level =>
      toRangerResourceList level.2.1 level.1 level.2.2
        (resource.isRecursive == BOOL_TRUE) ret) ∅
    policyItems := (permGroupOrder.order sortedPermMap.keys).map fun permGroup =>
      toDraftItem tables assetType ((sortedPermMap.get? permGroup).getD []) }

end Conversion

end ServiceUtil

open ServiceUtil

section Gives

variable {Client : Type} (admits : String → Client → Prop)

/-- The users and groups an item is for. -/
def DraftItem.Names (item : DraftItem) : Grantee → Prop
  | .user name => some name ∈ item.users
  | .group name => some name ∈ item.groups

def DraftItem.Permits (item : DraftItem) : Grant → Prop
  | .access type => ⟨some type, true⟩ ∈ item.accesses
  | .delegateAdmin => item.delegateAdmin = true

/-- Every condition holds, each by one of its addresses. -/
def DraftItem.Lets (item : DraftItem) (client : Client) : Prop :=
  ∀ condition ∈ item.conditions, ∃ ipAddress ∈ condition.values, admits ipAddress client

/-- What a policy gives to whom, and from where. -/
def DraftPolicy.Gives (policy : DraftPolicy) (grantee : Grantee) (grant : Grant)
    (client : Client) : Prop :=
  ∃ item ∈ policy.policyItems, item.Names grantee ∧ item.Permits grant ∧ item.Lets admits client

variable [Platform] (tables : V1Tables) (assetType : Int)

/-- The user or group a map names. -/
def VXPermMapEntry.Names (permMap : VXPermMapEntry) : Grantee → Prop
  | .user name =>
      permMap.permFor = XA_PERM_FOR_USER ∧ getUserName tables permMap = some name
  | .group name =>
      permMap.permFor = XA_PERM_FOR_GROUP ∧ getGroupName tables permMap = some name

/-- What a permission type stands for: that for administration is an access in HBase only. -/
def VXPermMapEntry.Permits (permMap : VXPermMapEntry) : Grant → Prop
  | .access type =>
      toAccessType permMap.permType = some type ∧
        (isAdminPerm type = true → assetType = ASSET_HBASE)
  | .delegateAdmin => ∃ type, toAccessType permMap.permType = some type ∧ isAdminPerm type = true

/-- The address of a map, when it has one, admits the client. -/
def VXPermMapEntry.Lets (permMap : VXPermMapEntry) (client : Client) : Prop :=
  ∀ ipAddress, permMap.ipAddress = some ipAddress → ipAddress.isEmpty = false →
    admits ipAddress client

def VXPermMapEntry.Gives (permMap : VXPermMapEntry) (grantee : Grantee) (grant : Grant)
    (client : Client) : Prop :=
  permMap.Names tables grantee ∧ permMap.Permits assetType grant ∧ permMap.Lets admits client

/-- The policy gives what the maps give one by one. -/
def ConvertsOneByOne (permMaps : List VXPermMapEntry) (policy : DraftPolicy) : Prop :=
  ∀ grantee grant client, policy.Gives admits grantee grant client ↔
    ∃ permMap ∈ permMaps, permMap.Gives admits tables assetType grantee grant client

/-- The maps of a permission group, in their order. -/
def ofPermGroup (permMaps : List VXPermMapEntry) (permGroup : Option String) :
    List VXPermMapEntry :=
  permMaps.filter (·.permGroup = permGroup)

/-- No permission group mixes maps that say different things. -/
structure GroupsAgree (permMaps : List VXPermMapEntry) : Prop where
  /-- What one map of a group has a permission for, and whom another one names, and where the
  last one lets them, are together in some map. -/
  together : ∀ permGroup, ∀ first ∈ ofPermGroup permMaps permGroup,
    ∀ second ∈ ofPermGroup permMaps permGroup,
    ∀ last ∈ (ofPermGroup permMaps permGroup).getLast?, ∀ grantee grant client,
      first.Names tables grantee → second.Permits assetType grant → last.Lets admits client →
        ∃ permMap ∈ permMaps, permMap.Gives admits tables assetType grantee grant client
  /-- Where a map lets its user or group, the last map of some group lets them that has the
  user or group and the permission. -/
  reached : ∀ permMap ∈ permMaps, ∀ grantee grant client,
    permMap.Gives admits tables assetType grantee grant client →
      ∃ permGroup, ∃ first ∈ ofPermGroup permMaps permGroup,
        ∃ second ∈ ofPermGroup permMaps permGroup,
        ∃ last ∈ (ofPermGroup permMaps permGroup).getLast?,
          first.Names tables grantee ∧ second.Permits assetType grant ∧ last.Lets admits client

end Gives

namespace ServiceUtil

theorem mem_addOnce {α : Type} [BEq α] [LawfulBEq α] {listed : List α} {element other : α} :
    other ∈ addOnce listed element ↔ other ∈ listed ∨ element = other := by
  unfold addOnce
  split
  · next present =>
      refine (or_iff_left_of_imp fun same => ?_).symm
      exact same ▸ List.contains_iff_mem.mp present
  · rw [List.mem_append, List.mem_singleton, eq_comm]

theorem exists_getLast? {α : Type} {elements : List α} {element : α}
    (member : element ∈ elements) : ∃ last, elements.getLast? = some last :=
  ⟨_, List.getLast?_eq_some_getLast (List.ne_nil_of_mem member)⟩

section Groups

variable [Platform] {tables : V1Tables} {assetType : Int}

theorem names_addPermMapEntry {progress : DraftItem × Option String} {permMap : VXPermMapEntry}
    {grantee : Grantee} :
    (addPermMapEntry tables assetType progress permMap).1.Names grantee ↔
      progress.1.Names grantee ∨ permMap.Names tables grantee := by
  cases grantee with
  | user name =>
      unfold DraftItem.Names VXPermMapEntry.Names addPermMapEntry
      by_cases user : permMap.permFor = XA_PERM_FOR_USER
      · simp only [user, ↓reduceIte, mem_addOnce, true_and]
      · simp only [user, ↓reduceIte, false_and, or_false]
  | group name =>
      unfold DraftItem.Names VXPermMapEntry.Names addPermMapEntry
      by_cases group : permMap.permFor = XA_PERM_FOR_GROUP
      · simp only [group, ↓reduceIte, mem_addOnce, true_and]
      · simp only [group, ↓reduceIte, false_and, or_false]

theorem any_isAdminPerm {accessType : Option String} :
    accessType.any isAdminPerm = true ↔
      ∃ type, accessType = some type ∧ isAdminPerm type = true := by
  cases accessType with
  | none => simp
  | some type => simp

theorem permits_addPermMapEntry {progress : DraftItem × Option String}
    {permMap : VXPermMapEntry} {grant : Grant} :
    (addPermMapEntry tables assetType progress permMap).1.Permits grant ↔
      progress.1.Permits grant ∨ permMap.Permits assetType grant := by
  cases grant with
  | delegateAdmin =>
      unfold DraftItem.Permits VXPermMapEntry.Permits addPermMapEntry
      rw [Bool.or_eq_true, any_isAdminPerm]
  | access type =>
      unfold DraftItem.Permits VXPermMapEntry.Permits addPermMapEntry
      generalize toAccessType permMap.permType = accessType
      dsimp only
      split
      · next skipped =>
          rw [Bool.and_eq_true, any_isAdminPerm, bne_iff_ne] at skipped
          obtain ⟨⟨admin, rfl, isAdmin⟩, other⟩ := skipped
          refine (or_iff_left ?_).symm
          rintro ⟨same, hbase⟩
          cases same
          exact other (hbase isAdmin)
      · next kept =>
          rw [List.mem_append, List.mem_singleton]
          refine or_congr_right ?_
          constructor
          · intro same
            cases same
            refine ⟨rfl, fun isAdmin => ?_⟩
            by_contra other
            exact kept (by simp [isAdmin, other])
          · rintro ⟨rfl, _⟩
            rfl

variable {permMaps : List VXPermMapEntry}

/-- Who an item is for is named by some map of its group. -/
theorem names_toDraftItem {grantee : Grantee} :
    (toDraftItem tables assetType permMaps).Names grantee ↔
      ∃ permMap ∈ permMaps, permMap.Names tables grantee := by
  have gathered := foldl_iff (addPermMapEntry tables assetType) (·.1.Names grantee)
    (fun _ _ => names_addPermMapEntry) permMaps ({}, none)
  have none : ¬({} : DraftItem).Names grantee := by
    cases grantee with
    | user name => exact List.not_mem_nil
    | group name => exact List.not_mem_nil
  refine Iff.trans ?_ (gathered.trans (or_iff_right none))
  cases grantee with
  | user name => exact Iff.rfl
  | group name => exact Iff.rfl

theorem permits_toDraftItem {grant : Grant} :
    (toDraftItem tables assetType permMaps).Permits grant ↔
      ∃ permMap ∈ permMaps, permMap.Permits assetType grant := by
  have gathered := foldl_iff (addPermMapEntry tables assetType) (·.1.Permits grant)
    (fun _ _ => permits_addPermMapEntry) permMaps ({}, none)
  have none : ¬({} : DraftItem).Permits grant := by
    cases grant with
    | access type => exact List.not_mem_nil
    | delegateAdmin => exact Bool.false_ne_true
  refine Iff.trans ?_ (gathered.trans (or_iff_right none))
  cases grant with
  | access type => exact Iff.rfl
  | delegateAdmin => exact Iff.rfl

variable {Client : Type} {admits : String → Client → Prop}

/-- An item lets those in whom the last map of its group lets in. -/
theorem lets_toDraftItem {client : Client} {last : VXPermMapEntry}
    (ends : permMaps.getLast? = some last) :
    (toDraftItem tables assetType permMaps).Lets admits client ↔ last.Lets admits client := by
  have step : ∀ progress permMap,
      (addPermMapEntry tables assetType progress permMap).2 = permMap.ipAddress :=
    fun _ _ => rfl
  have address := foldl_overwrites step permMaps ({}, none)
  rw [ends, Option.map_some, Option.getD_some] at address
  have conditions : (toDraftItem tables assetType permMaps).conditions =
      addressConditions last.ipAddress := congrArg addressConditions address
  unfold DraftItem.Lets VXPermMapEntry.Lets
  rw [conditions]
  cases last.ipAddress with
  | none => simp [addressConditions]
  | some ipAddress => simp [addressConditions]

variable {permGroupOrder : PermGroupOrder} {resource : VXResource}
  {service : Option RangerService} {policy : DraftPolicy}

/-- A policy has one item for each permission group. -/
theorem mem_policyItems_of_toDraftPolicy
    (built : toDraftPolicy tables permGroupOrder resource service = .ok policy)
    (typed : getAssetType tables service ((service.map (·.name)).or resource.assetName) =
      .ok assetType) {item : DraftItem} :
    item ∈ policy.policyItems ↔
      ∃ permGroup, (∃ permMap ∈ resource.permMapList.getD [], permMap.permGroup = permGroup) ∧
        toDraftItem tables assetType
          (ofPermGroup (resource.permMapList.getD []) permGroup) = item := by
  unfold toDraftPolicy at built
  dsimp only at built
  rw [typed] at built
  cases built
  simp only [List.mem_map, AssocMap.getD_get?_collect, (permGroupOrder.perm _).mem_iff,
    AssocMap.mem_keys_collect]
  rfl

/-- What the maps of a group say together, the policy gives. -/
theorem gives_iff (built : toDraftPolicy tables permGroupOrder resource service = .ok policy)
    (typed : getAssetType tables service ((service.map (·.name)).or resource.assetName) =
      .ok assetType) {grantee : Grantee} {grant : Grant} {client : Client} :
    policy.Gives admits grantee grant client ↔
      ∃ permGroup, ∃ first ∈ ofPermGroup (resource.permMapList.getD []) permGroup,
        ∃ second ∈ ofPermGroup (resource.permMapList.getD []) permGroup,
        ∃ last ∈ (ofPermGroup (resource.permMapList.getD []) permGroup).getLast?,
          first.Names tables grantee ∧ second.Permits assetType grant ∧
            last.Lets admits client := by
  unfold DraftPolicy.Gives
  constructor
  · rintro ⟨item, member, named, permitted, admitted⟩
    obtain ⟨permGroup, -, rfl⟩ := (mem_policyItems_of_toDraftPolicy built typed).mp member
    obtain ⟨first, inside, named⟩ := names_toDraftItem.mp named
    obtain ⟨second, within, permitted⟩ := permits_toDraftItem.mp permitted
    obtain ⟨last, ends⟩ := exists_getLast? inside
    exact ⟨permGroup, first, inside, second, within, last, ends, named, permitted,
      (lets_toDraftItem ends).mp admitted⟩
  · rintro ⟨permGroup, first, inside, second, within, last, ends, named, permitted, admitted⟩
    have grouped := List.mem_filter.mp inside
    refine ⟨_, (mem_policyItems_of_toDraftPolicy built typed).mpr
      ⟨permGroup, ⟨first, grouped.1, of_decide_eq_true grouped.2⟩, rfl⟩, ?_⟩
    exact ⟨names_toDraftItem.mpr ⟨first, inside, named⟩,
      permits_toDraftItem.mpr ⟨second, within, permitted⟩, (lets_toDraftItem ends).mpr admitted⟩

/-- **Permission maps.** The policy made of a resource gives what its maps give one by one,
no more and no less, exactly if no permission group mixes maps that say different things. -/
theorem convertsOneByOne_iff
    (built : toDraftPolicy tables permGroupOrder resource service = .ok policy)
    (typed : getAssetType tables service ((service.map (·.name)).or resource.assetName) =
      .ok assetType) :
    ConvertsOneByOne admits tables assetType (resource.permMapList.getD []) policy ↔
      GroupsAgree admits tables assetType (resource.permMapList.getD []) := by
  constructor
  · intro converts
    refine ⟨fun permGroup first inside second within last ends grantee grant client named
      permitted admitted => ?_, fun permMap member grantee grant client gives => ?_⟩
    · exact (converts grantee grant client).mp ((gives_iff built typed).mpr
        ⟨permGroup, first, inside, second, within, last, ends, named, permitted, admitted⟩)
    · exact (gives_iff built typed).mp
        ((converts grantee grant client).mpr ⟨permMap, member, gives⟩)
  · intro agree grantee grant client
    refine (gives_iff built typed).trans ⟨?_, ?_⟩
    · rintro ⟨permGroup, first, inside, second, within, last, ends, named, permitted, admitted⟩
      exact agree.together permGroup first inside second within last ends grantee grant client
        named permitted admitted
    · rintro ⟨permMap, member, gives⟩
      exact agree.reached permMap member grantee grant client gives

/-- Groups whose maps are all for the same user or group and the same address agree. -/
theorem groupsAgree_of_same
    (same : ∀ first ∈ permMaps, ∀ second ∈ permMaps, first.permGroup = second.permGroup →
      first.ipAddress = second.ipAddress ∧
        ∀ grantee, first.Names tables grantee → second.Names tables grantee) :
    GroupsAgree admits tables assetType permMaps := by
  have alike : ∀ {permGroup first second}, first ∈ ofPermGroup permMaps permGroup →
      second ∈ ofPermGroup permMaps permGroup → first.ipAddress = second.ipAddress ∧
        ∀ grantee, first.Names tables grantee → second.Names tables grantee := by
    intro permGroup first second inside within
    obtain ⟨member, grouped⟩ := List.mem_filter.mp inside
    obtain ⟨other, together⟩ := List.mem_filter.mp within
    exact same first member second other
      ((of_decide_eq_true grouped).trans (of_decide_eq_true together).symm)
  refine ⟨?_, ?_⟩
  · intro permGroup first inside second within last ends grantee grant client named permitted
      admitted
    have address := (alike within (List.mem_of_getLast? ends)).1
    refine ⟨second, (List.mem_filter.mp within).1, (alike inside within).2 grantee named,
      permitted, ?_⟩
    unfold VXPermMapEntry.Lets
    rwa [address]
  · intro permMap member grantee grant client gives
    have inside : permMap ∈ ofPermGroup permMaps permMap.permGroup :=
      List.mem_filter.mpr ⟨member, decide_eq_true rfl⟩
    obtain ⟨last, ends⟩ := exists_getLast? inside
    have address := (alike inside (List.mem_of_getLast? ends)).1
    refine ⟨_, permMap, inside, permMap, inside, last, ends, gives.1, gives.2.1, ?_⟩
    unfold VXPermMapEntry.Lets
    rw [← address]
    exact gives.2.2

end Groups

section Example

attribute [local instance] Platform.ascii

def noTables : V1Tables where
  getXXUser _ := none
  getXXGroup _ := none
  getServiceByName _ := .ok none

def asCollected : PermGroupOrder where
  order := id
  perm := List.Perm.refl

def hdfsService : RangerService where
  id := 1
  name := "files"
  type := "hdfs"

/-- A map for a user, in the one permission group. -/
def userEntry (name : String) (permType : Int) : VXPermMapEntry where
  permGroup := some "0"
  permFor := XA_PERM_FOR_USER
  permType := permType
  userName := some name

def resourceWith (permMaps : List VXPermMapEntry) : VXResource :=
  { policyName := some "reports", name := some "/reports", permMapList := some permMaps }

/-- Ann may read and write. -/
theorem annsMaps_convert : ∃ policy,
    toDraftPolicy noTables asCollected (resourceWith [userEntry "ann" 2, userEntry "ann" 3])
        (some hdfsService) = .ok policy ∧
      ConvertsOneByOne (fun ipAddress client : String => ipAddress = client) noTables 1
        [userEntry "ann" 2, userEntry "ann" 3] policy := by
  obtain ⟨policy, built⟩ : ∃ policy, toDraftPolicy noTables asCollected
      (resourceWith [userEntry "ann" 2, userEntry "ann" 3]) (some hdfsService) = .ok policy :=
    ⟨_, rfl⟩
  refine ⟨policy, built, (convertsOneByOne_iff built rfl).mpr (groupsAgree_of_same ?_)⟩
  have alone : ∀ permMap ∈ [userEntry "ann" 2, userEntry "ann" 3],
      ∃ permType, permMap = userEntry "ann" permType := by
    intro permMap member
    rcases List.mem_cons.mp member with rfl | member
    · exact ⟨2, rfl⟩
    · exact ⟨3, List.mem_singleton.mp member⟩
  intro first member second other _
  obtain ⟨one, rfl⟩ := alone first member
  obtain ⟨two, rfl⟩ := alone second other
  refine ⟨rfl, fun grantee named => ?_⟩
  cases grantee with
  | user name => exact named
  | group name => exact named

/-- **A mixed group.** Ann may read and Bob may write; the policy lets Ann write. -/
theorem mixed_group_gives_more :
    ¬∀ (resource : VXResource) (policy : DraftPolicy),
      toDraftPolicy noTables asCollected resource (some hdfsService) = .ok policy →
        ConvertsOneByOne (fun ipAddress client : String => ipAddress = client) noTables 1
          (resource.permMapList.getD []) policy := by
  intro converts
  obtain ⟨policy, built⟩ : ∃ policy, toDraftPolicy noTables asCollected
      (resourceWith [userEntry "ann" 2, userEntry "bob" 3]) (some hdfsService) = .ok policy :=
    ⟨_, rfl⟩
  have gives : policy.Gives (fun ipAddress client : String => ipAddress = client) (.user "ann")
      (.access "write") "" := by
    refine (gives_iff built rfl).mpr ⟨some "0", userEntry "ann" 2, List.mem_cons_self,
      userEntry "bob" 3, List.mem_cons_of_mem _ List.mem_cons_self, userEntry "bob" 3, rfl,
      ⟨rfl, rfl⟩, ⟨by decide, fun isAdmin => ?_⟩, fun ipAddress given => ?_⟩
    · revert isAdmin
      decide
    · cases given
  obtain ⟨permMap, member, ⟨-, named⟩, ⟨typed, -⟩, -⟩ :=
    (converts _ policy built (.user "ann") (.access "write") "").mp gives
  rcases List.mem_cons.mp member with rfl | member
  · revert typed
    decide
  · rw [List.mem_singleton.mp member] at named
    revert named
    decide

end Example

end ServiceUtil

end Ranger
