import Ranger.Foundation.Loop
import Ranger.Foundation.Run
import Ranger.Ugsync.UserGroupBuilder

/-! # Convergence of the synchronisation

What the records show is compared with the users of the admin server. A record that is
replaced by the answer of the server shows the groups that were posted and no others, so
that the groups a user keeps are forgotten along with every later removal of them.
-/

namespace Ranger

open Foundation

namespace AdminServer

variable (server : AdminServer) {info : UserGroupInfo} {groupName userName : String}

def idOf (name : String) : Option Nat := (server.users.get? name).map ServerUser.id

def groupsOf (name : String) : List String := ((server.users.get? name).elim [] ServerUser.groups)

variable {server}

theorem idOf_injective {name other : String} {id : Nat} (own : server.idOf name = some id)
    (own' : server.idOf other = some id) : name = other := by
  obtain ⟨user, found, rfl⟩ := Option.map_eq_some_iff.mp own
  obtain ⟨user', found', same⟩ := Option.map_eq_some_iff.mp own'
  exact server.distinct name user found other user' found' same.symm

theorem groupsOf_of_unknown {name : String} (unknown : server.idOf name = none) :
    server.groupsOf name = [] := by
  unfold groupsOf
  rw [Option.map_eq_none_iff.mp unknown]
  rfl

theorem mem_groups_of_mem_groupsOf {name group : String} (listed : group ∈ server.groupsOf name) :
    group ∈ server.groups := by
  unfold groupsOf at listed
  cases found : server.users.get? name with
  | none =>
      rw [found] at listed
      nomatch listed
  | some user =>
      rw [found] at listed
      exact server.known name user found group listed

/-- **Posting.** Only the user that is posted gets an id and groups. -/
theorem idOf_createXUserGroupFromMap (name : String) :
    (server.createXUserGroupFromMap info).2.idOf name =
      if name = info.xuserInfo.name then
        some (server.createXUserWithOutLogin info.xuserInfo.name).id
      else server.idOf name := by
  unfold idOf
  change ((server.users.put _ _).get? name).map ServerUser.id = _
  rw [AssocMap.get?_put]
  by_cases own : name = info.xuserInfo.name
  · rw [if_pos own, if_pos own]
    rfl
  · rw [if_neg own, if_neg own]

theorem mem_groupsOf_createXUserGroupFromMap {name group : String} :
    group ∈ (server.createXUserGroupFromMap info).2.groupsOf name ↔
      group ∈ server.groupsOf name ∨
        name = info.xuserInfo.name ∧ group ∈ info.xgroupInfo.map XGroupInfo.name := by
  unfold groupsOf
  change group ∈ ((server.users.put _ _).get? name).elim [] ServerUser.groups ↔ _
  rw [AssocMap.get?_put]
  by_cases own : name = info.xuserInfo.name
  · have old : (server.createXUserWithOutLogin info.xuserInfo.name).groups =
        (server.users.get? name).elim [] ServerUser.groups := by
      unfold createXUserWithOutLogin
      rw [own]
      cases server.users.get? info.xuserInfo.name <;> rfl
    rw [if_pos own, ← old]
    change group ∈ _ ++ _ ↔ _
    rw [List.mem_append, List.mem_filter, decide_eq_true_iff]
    constructor
    · rintro (kept | ⟨posted, _⟩)
      · exact .inl kept
      · exact .inr ⟨own, posted⟩
    · rintro (kept | ⟨_, posted⟩)
      · exact .inl kept
      · by_cases there : group ∈ (server.createXUserWithOutLogin info.xuserInfo.name).groups
        · exact .inl there
        · exact .inr ⟨posted, there⟩
  · rw [if_neg own]
    simp only [own, false_and, or_false]

theorem mem_groups_createXUserGroupFromMap {group : String} :
    group ∈ (server.createXUserGroupFromMap info).2.groups ↔
      group ∈ server.groups ∨ group ∈ info.xgroupInfo.map XGroupInfo.name := by
  change group ∈ _ ++ _ ↔ _
  rw [List.mem_append, List.mem_filter, decide_eq_true_iff]
  by_cases there : group ∈ server.groups <;> simp [there]

/-- **Deleting.** Only the link that is deleted is gone. -/
theorem get?_deleteXGroupAndXUser (name : String) :
    (server.deleteXGroupAndXUser groupName userName).users.get? name =
      (server.users.get? name).map fun user =>
        if name = userName then { user with groups := user.groups.filter (· ≠ groupName) }
        else user := by
  unfold deleteXGroupAndXUser
  split
  · rename_i absent
    by_cases own : name = userName
    · rw [own, absent]
      rfl
    · simp only [own, ↓reduceIte, Option.map_id']
  · rename_i user found
    change (server.users.put _ _).get? name = _
    rw [AssocMap.get?_put]
    by_cases own : name = userName
    · simp only [own, ↓reduceIte, found, Option.map_some]
    · simp only [own, ↓reduceIte, Option.map_id']

theorem idOf_deleteXGroupAndXUser (name : String) :
    (server.deleteXGroupAndXUser groupName userName).idOf name = server.idOf name := by
  unfold idOf
  rw [get?_deleteXGroupAndXUser, Option.map_map]
  congr 1
  funext user
  by_cases own : name = userName <;> simp [own]

theorem mem_groupsOf_deleteXGroupAndXUser {name group : String} :
    group ∈ (server.deleteXGroupAndXUser groupName userName).groupsOf name ↔
      group ∈ server.groupsOf name ∧ ¬ (name = userName ∧ group = groupName) := by
  unfold groupsOf
  rw [get?_deleteXGroupAndXUser]
  cases server.users.get? name with
  | none => simp
  | some user => by_cases own : name = userName <;> simp [own]

theorem groups_deleteXGroupAndXUser :
    (server.deleteXGroupAndXUser groupName userName).groups = server.groups := by
  unfold deleteXGroupAndXUser
  split <;> rfl

end AdminServer

namespace PolicyMgrUserGroupBuilder

variable {builder : PolicyMgrUserGroupBuilder} {ids : String → Option Nat}
  {member : String → String → Prop} {name : String} {id place : Nat}

/-- The groups of the record of a user, if there is one. -/
def groupsOf (builder : PolicyMgrUserGroupBuilder) (name : String) : List String :=
  ((builder.userName2XUserInfoMap.get? name).bind fun user => builder.records[user]?).elim []
    XUserInfo.groups

/-- The records show exactly the users that have an id, under their names and ids, with
their groups. -/
structure Shows (builder : PolicyMgrUserGroupBuilder) (ids : String → Option Nat)
    (member : String → String → Prop) : Prop where
  distinct : ∀ name other id, ids name = some id → ids other = some id → name = other
  unknown : ∀ name, ids name = none → builder.userName2XUserInfoMap.get? name = none
  shown : ∀ name id, ids name = some id → ∃ place info,
    builder.userName2XUserInfoMap.get? name = some place ∧
      builder.userId2XUserInfoMap.get? id = some place ∧ builder.records[place]? = some info ∧
      info.id = some id ∧ info.name = name ∧ info.groups.Nodup ∧
      ∀ group, group ∈ info.groups ↔ member name group

namespace Shows

theorem congr {member' : String → String → Prop} (shows : builder.Shows ids member)
    {ids' : String → Option Nat} (sameIds : ∀ name, ids name = ids' name)
    (same : ∀ name group, (ids' name).isSome = true → (member name group ↔ member' name group)) :
    builder.Shows ids' member' := by
  obtain rfl : ids = ids' := funext sameIds
  refine ⟨shows.distinct, shows.unknown, fun name id own => ?_⟩
  obtain ⟨place, info, named, found, read, hasId, hasName, nodup, groups⟩ := shows.shown name id own
  exact ⟨place, info, named, found, read, hasId, hasName, nodup, fun group =>
    (groups group).trans (same name group (own ▸ rfl))⟩

theorem mem_groupsOf (shows : builder.Shows ids member)
    (absent : ∀ name group, member name group → (ids name).isSome = true) {group : String} :
    group ∈ builder.groupsOf name ↔ member name group := by
  unfold groupsOf
  cases own : ids name with
  | none =>
      rw [shows.unknown name own]
      refine ⟨fun listed => (nomatch listed), fun linked => ?_⟩
      have known := absent name group linked
      rw [own] at known
      nomatch known
  | some id =>
      obtain ⟨place, info, named, _, read, _, _, _, groups⟩ := shows.shown name id own
      rw [named, Option.bind_some, read]
      exact groups group

/-- Groups are made known without a change of the records. -/
theorem addGroupToList (shows : builder.Shows ids member) (group : XGroupInfo) :
    (builder.addGroupToList group).Shows ids member :=
  ⟨shows.distinct, shows.unknown, shows.shown⟩

/-- **A new record.** It takes the place of the user's record, and has no groups. -/
theorem addUserToList (shows : builder.Shows ids member)
    (free : ∀ other, ids other = some id → other = name) :
    ((builder.make { id := some id, name := name }).2.addUserToList
        (builder.make { id := some id, name := name }).1).Shows
      (fun other => if other = name then some id else ids other)
      fun other group => other ≠ name ∧ member other group := by
  have made : (builder.make { id := some id, name := name }).2.records[
      (builder.make { id := some id, name := name }).1]? = some { id := some id, name := name } :=
    List.getElem?_concat_length
  unfold PolicyMgrUserGroupBuilder.addUserToList
  rw [made]
  refine ⟨fun first second key here there => ?_, fun other own => ?_, fun other key own => ?_⟩
  · by_cases own : first = name
    · rw [if_pos own] at here
      cases here
      by_cases own' : second = name
      · rw [own, own']
      · rw [if_neg own'] at there
        rw [own, free second there]
    · rw [if_neg own] at here
      by_cases own' : second = name
      · rw [if_pos own'] at there
        cases there
        rw [own', free first here]
      · rw [if_neg own'] at there
        exact shows.distinct first second key here there
  · by_cases same : other = name
    · rw [if_pos same] at own
      nomatch own
    · rw [if_neg same] at own
      exact (AssocMap.get?_put _ _ _ _).trans ((if_neg same).trans (shows.unknown other own))
  · by_cases same : other = name
    · rw [if_pos same] at own
      cases own
      refine ⟨builder.records.length, { id := some id, name := name },
        (AssocMap.get?_put _ _ _ _).trans (if_pos same), (AssocMap.get?_put _ _ _ _).trans
          (if_pos rfl), made, rfl, same.symm, List.nodup_nil, fun group => ?_⟩
      exact ⟨fun listed => (nomatch listed), fun linked => absurd same linked.1⟩
    · rw [if_neg same] at own
      obtain ⟨place, info, named, found, read, hasId, hasName, nodup, groups⟩ :=
        shows.shown other key own
      have differs : key ≠ id := fun equal => same (free other (equal ▸ own))
      refine ⟨place, info, (AssocMap.get?_put _ _ _ _).trans ((if_neg same).trans named),
        (AssocMap.get?_put _ _ _ _).trans ((if_neg differs).trans found), ?_, hasId, hasName,
        nodup, fun group => ?_⟩
      · exact (List.getElem?_append_left (List.getElem?_eq_some_iff.mp read).1).trans read
      · rw [groups]
        exact (and_iff_right same).symm

/-- A change of the record of a user, which keeps its id and name. -/
theorem modify (shows : builder.Shows ids member) (own : ids name = some id)
    (named : builder.userName2XUserInfoMap.get? name = some place) (changed : String → Prop)
    {change : XUserInfo → XUserInfo}
    (keeps : ∀ info : XUserInfo, info.groups.Nodup →
      (∀ group, group ∈ info.groups ↔ member name group) →
      (change info).id = info.id ∧ (change info).name = info.name ∧ (change info).groups.Nodup ∧
        ∀ group, group ∈ (change info).groups ↔ changed group) :
    ({ builder with records := builder.records.modify place change } :
        PolicyMgrUserGroupBuilder).Shows ids
      fun other group => if other = name then changed group else member other group := by
  refine ⟨shows.distinct, shows.unknown, fun other key known => ?_⟩
  obtain ⟨at_, info, here, found, read, hasId, hasName, nodup, groups⟩ :=
    shows.shown other key known
  by_cases same : other = name
  · subst same
    rw [named] at here
    cases here
    obtain ⟨sameId, sameName, nodup', groups'⟩ := keeps info nodup groups
    refine ⟨place, change info, named, found, ?_, sameId.trans hasId, sameName.trans hasName,
      nodup', fun group => ?_⟩
    · rw [List.getElem?_modify_eq, read]
      rfl
    · rw [groups', if_pos rfl]
  · refine ⟨at_, info, here, found, ?_, hasId, hasName, nodup, fun group => ?_⟩
    · have elsewhere : place ≠ at_ := by
        intro equal
        obtain ⟨own_, info', here', _, read', hasId', _⟩ := shows.shown name id own
        rw [named] at here'
        cases here'
        rw [equal, read] at read'
        cases read'
        rw [hasId] at hasId'
        cases hasId'
        exact same (shows.distinct other name _ known own)
      rw [List.getElem?_modify_ne _ _ elsewhere]
      exact read
    · rw [groups, if_neg same]

/-- A record that is not found by a name is changed without effect. -/
theorem modify_stale (shows : builder.Shows ids member)
    (stale : ∀ name, builder.userName2XUserInfoMap.get? name ≠ some place)
    (change : XUserInfo → XUserInfo) :
    ({ builder with records := builder.records.modify place change } :
        PolicyMgrUserGroupBuilder).Shows ids member := by
  refine ⟨shows.distinct, shows.unknown, fun name id own => ?_⟩
  obtain ⟨at_, info, named, found, read, rest⟩ := shows.shown name id own
  have elsewhere : place ≠ at_ := fun equal => stale name (equal ▸ named)
  exact ⟨at_, info, named, found, (List.getElem?_modify_ne _ _ elsewhere).trans read, rest⟩

/-- A group is added to the record that is found by the id. -/
theorem addGroupOfUser (shows : builder.Shows ids member) (own : ids name = some id)
    (groupName : String) :
    (builder.addGroupOfUser (some id) groupName).Shows ids fun other group =>
      member other group ∨ other = name ∧ group = groupName := by
  obtain ⟨place, info, named, found, _⟩ := shows.shown name id own
  have added : builder.addGroupOfUser (some id) groupName = { builder with
      records := builder.records.modify place fun info =>
        if groupName ∈ info.groups then info
        else { info with groups := info.groups ++ [groupName] } } := by
    unfold PolicyMgrUserGroupBuilder.addGroupOfUser
    rw [Option.bind_some, found]
  rw [added]
  refine (shows.modify own named (fun group => member name group ∨ group = groupName)
    fun info nodup groups => ?_).congr (fun _ => rfl) fun other group _ => ?_
  · by_cases there : groupName ∈ info.groups
    · rw [if_pos there]
      refine ⟨rfl, rfl, nodup, fun group => ?_⟩
      rw [groups]
      refine ⟨.inl, fun either => either.elim (fun linked => linked) fun same => ?_⟩
      rw [same]
      exact (groups groupName).mp there
    · rw [if_neg there]
      refine ⟨rfl, rfl, ?_, fun group => ?_⟩
      · exact List.nodup_append.mpr ⟨nodup, List.nodup_singleton _, fun old listed new single =>
          fun same => there (List.mem_singleton.mp single ▸ same ▸ listed)⟩
      · rw [List.mem_append, List.mem_singleton, groups]
  · by_cases same : other = name <;> simp [same]

/-- A group is taken out of the record of a user. -/
theorem delUserGroupFromList (shows : builder.Shows ids member) (own : ids name = some id)
    (named : builder.userName2XUserInfoMap.get? name = some place) (groupInfo : XGroupInfo) :
    (builder.delUserGroupFromList place groupInfo).Shows ids fun other group =>
      member other group ∧ ¬ (other = name ∧ group = groupInfo.name) := by
  refine (shows.modify own named (fun group => member name group ∧ group ≠ groupInfo.name)
    fun info nodup groups => ?_).congr (fun _ => rfl) fun other group _ => ?_
  · by_cases there : groupInfo.name ∈ info.groups
    · rw [if_pos there]
      refine ⟨rfl, rfl, nodup.erase _, fun group => ?_⟩
      rw [nodup.mem_erase_iff, groups, and_comm]
    · rw [if_neg there]
      refine ⟨rfl, rfl, nodup, fun group => ?_⟩
      rw [groups]
      refine ⟨fun linked => ⟨linked, fun same => there ?_⟩, And.left⟩
      rw [← same]
      exact (groups group).mpr linked
  · by_cases same : other = name <;> simp [same]

/-- **Groups of an answer.** They are added to the record one after another. -/
theorem foldl_addGroup (shows : builder.Shows ids member) (own : ids name = some id)
    (posted : List XGroupInfo) :
    (posted.foldl (fun builder xGroupInfo =>
        (builder.addGroupToList xGroupInfo).addUserGroupInfoToList
          { id := some id, name := name } xGroupInfo) builder).Shows ids
      fun other group =>
        member other group ∨ other = name ∧ group ∈ posted.map XGroupInfo.name := by
  induction posted generalizing builder member with
  | nil => exact shows.congr (fun _ => rfl) fun _ _ _ => by simp
  | cons first rest ih =>
      refine (ih ((shows.addGroupToList first).addGroupOfUser own first.name)).congr
        (fun _ => rfl) fun other group _ => ?_
      rw [List.map_cons, List.mem_cons, or_assoc, ← and_or_left]

/-- **Deletions.** The groups whose deletion is answered with the status that counts are
taken out of the record. -/
theorem foldl_delete (shows : builder.Shows ids member) (own : ids name = some id)
    (named : builder.userName2XUserInfoMap.get? name = some place) (status : String → Nat)
    (deleted : List String) :
    (deleted.foldl (fun builder group =>
        if status group = 200 then builder.delUserGroupFromList place ⟨group⟩ else builder)
      builder).Shows ids fun other group =>
        member other group ∧ ¬ (other = name ∧ group ∈ deleted ∧ status group = 200) := by
  induction deleted generalizing builder member with
  | nil => exact shows.congr (fun _ => rfl) fun _ _ _ => by simp
  | cons first rest ih =>
      rw [List.foldl_cons]
      by_cases counts : status first = 200
      · rw [if_pos counts]
        refine (ih (shows.delUserGroupFromList own named ⟨first⟩) named).congr (fun _ => rfl)
          fun other group _ => ?_
        by_cases here : other = name <;> by_cases same : group = first <;>
          simp [here, same, counts]
      · rw [if_neg counts]
        refine (ih shows named).congr (fun _ => rfl) fun other group _ => ?_
        by_cases same : group = first
        · simp [same, counts]
        · simp [same]

/-- Deletions from a record that was replaced are lost. -/
theorem foldl_delete_stale (shows : builder.Shows ids member)
    (stale : ∀ name, builder.userName2XUserInfoMap.get? name ≠ some place) (status : String → Nat)
    (deleted : List String) :
    (deleted.foldl (fun builder group =>
        if status group = 200 then builder.delUserGroupFromList place ⟨group⟩ else builder)
      builder).Shows ids member := by
  induction deleted generalizing builder with
  | nil => exact shows
  | cons first rest ih =>
      rw [List.foldl_cons]
      by_cases counts : status first = 200
      · rw [if_pos counts]
        exact ih (shows.modify_stale stale _) stale
      · rw [if_neg counts]
        exact ih shows stale

end Shows

section Groups

variable {state : AdminServer × PolicyMgrUserGroupBuilder} {info : UserGroupInfo}

/-- The groups of the builder are found under their names, those of the server among them. -/
structure KnowsGroups (state : AdminServer × PolicyMgrUserGroupBuilder) : Prop where
  named : ∀ group info, state.2.groupName2XGroupInfoMap.get? group = some info → info.name = group
  known : ∀ group ∈ state.1.groups, (state.2.groupName2XGroupInfoMap.get? group).isSome = true

theorem KnowsGroups.get?_eq (knows : KnowsGroups state) {group : String}
    (listed : group ∈ state.1.groups) :
    state.2.groupName2XGroupInfoMap.get? group = some ⟨group⟩ := by
  obtain ⟨info, found⟩ := Option.isSome_iff_exists.mp (knows.known group listed)
  rw [found, ← knows.named group info found]

theorem KnowsGroups.names_getXGroupInfoList (knows : KnowsGroups state) (groups : List String) :
    (state.2.getXGroupInfoList groups).map XGroupInfo.name = groups := by
  unfold getXGroupInfoList
  rw [List.map_map]
  apply List.map_id''
  intro group
  change ((state.2.groupName2XGroupInfoMap.get? group).getD ⟨group⟩).name = group
  cases found : state.2.groupName2XGroupInfoMap.get? group with
  | none => rfl
  | some info => exact knows.named group info found

theorem groupMap_addGroupOfUser (builder : PolicyMgrUserGroupBuilder) (userId : Option Nat)
    (groupName : String) :
    (builder.addGroupOfUser userId groupName).groupName2XGroupInfoMap =
      builder.groupName2XGroupInfoMap := by
  unfold addGroupOfUser
  split <;> rfl

theorem nameMap_addGroupOfUser (builder : PolicyMgrUserGroupBuilder) (userId : Option Nat)
    (groupName : String) :
    (builder.addGroupOfUser userId groupName).userName2XUserInfoMap =
      builder.userName2XUserInfoMap := by
  unfold addGroupOfUser
  split <;> rfl

theorem nameMap_addUserToList {builder : PolicyMgrUserGroupBuilder} {aUserInfo : Nat}
    {info : XUserInfo} (read : builder.records[aUserInfo]? = some info) :
    (builder.addUserToList aUserInfo).userName2XUserInfoMap =
      builder.userName2XUserInfoMap.put info.name aUserInfo := by
  unfold addUserToList
  rw [read]
  obtain ⟨id, name, groups⟩ := info
  cases id <;> rfl

theorem groupMap_addUserToList (builder : PolicyMgrUserGroupBuilder) (aUserInfo : Nat) :
    (builder.addUserToList aUserInfo).groupName2XGroupInfoMap =
      builder.groupName2XGroupInfoMap := by
  unfold addUserToList
  cases builder.records[aUserInfo]? with
  | none => rfl
  | some info =>
      obtain ⟨id, name, groups⟩ := info
      cases id <;> rfl

theorem groupMap_addUserGroupInfo :
    (addUserGroupInfo info state).2.groupName2XGroupInfoMap =
      info.xgroupInfo.foldl (fun known group => known.put group.name group)
        state.2.groupName2XGroupInfoMap := by
  have turn : ∀ (posted : List XGroupInfo) (user : XUserInfo) (builder : PolicyMgrUserGroupBuilder),
      (posted.foldl (fun builder xGroupInfo =>
        (builder.addGroupToList xGroupInfo).addUserGroupInfoToList user xGroupInfo)
        builder).groupName2XGroupInfoMap =
      posted.foldl (fun known group => known.put group.name group)
        builder.groupName2XGroupInfoMap := by
    intro posted user
    induction posted with
    | nil => exact fun _ => rfl
    | cons first rest ih =>
        intro builder
        rw [List.foldl_cons, List.foldl_cons, ih]
        congr 1
        exact groupMap_addGroupOfUser _ _ _
  refine (turn _ _ _).trans ?_
  rw [groupMap_addUserToList]

/-- The record that the server answers with is found by the name of the user. -/
theorem nameMap_addUserGroupInfo :
    (addUserGroupInfo info state).2.userName2XUserInfoMap =
      state.2.userName2XUserInfoMap.put info.xuserInfo.name state.2.records.length := by
  have turn : ∀ (posted : List XGroupInfo) (user : XUserInfo) (builder : PolicyMgrUserGroupBuilder),
      (posted.foldl (fun builder xGroupInfo =>
        (builder.addGroupToList xGroupInfo).addUserGroupInfoToList user xGroupInfo)
        builder).userName2XUserInfoMap = builder.userName2XUserInfoMap := by
    intro posted user
    induction posted with
    | nil => exact fun _ => rfl
    | cons first rest ih =>
        intro builder
        rw [List.foldl_cons, ih]
        exact nameMap_addGroupOfUser _ _ _
  refine (turn _ _ _).trans ?_
  rw [nameMap_addUserToList List.getElem?_concat_length]

/-- Groups that are put under their names are found there. -/
theorem foldl_put_named (posted : List XGroupInfo) {known : AssocMap String XGroupInfo}
    (named : ∀ group info, known.get? group = some info → info.name = group) :
    (∀ group info, (posted.foldl (fun known group => known.put group.name group) known).get?
        group = some info → info.name = group) ∧
      ∀ group, ((known.get? group).isSome = true ∨ group ∈ posted.map XGroupInfo.name) →
        ((posted.foldl (fun known group => known.put group.name group) known).get?
          group).isSome = true := by
  induction posted generalizing known with
  | nil =>
      exact ⟨named, fun group there => there.elim (fun old => old) fun listed => nomatch listed⟩
  | cons first rest ih =>
      have next : ∀ group info, (known.put first.name first).get? group = some info →
          info.name = group := by
        intro group info found
        rw [AssocMap.get?_put] at found
        by_cases own : group = first.name
        · rw [if_pos own] at found
          cases found
          exact own.symm
        · rw [if_neg own] at found
          exact named group info found
      refine ⟨(ih next).1, fun group there => (ih next).2 group ?_⟩
      rw [AssocMap.get?_put]
      by_cases own : group = first.name
      · rw [if_pos own]
        exact .inl rfl
      · rw [if_neg own]
        rcases there with old | listed
        · exact .inl old
        · exact .inr ((List.mem_cons.mp listed).resolve_left own)

theorem KnowsGroups.addUserGroupInfo (knows : KnowsGroups state) :
    KnowsGroups (addUserGroupInfo info state) := by
  have both := foldl_put_named info.xgroupInfo knows.named
  rw [← groupMap_addUserGroupInfo] at both
  refine ⟨both.1, fun group listed => both.2 group ?_⟩
  rcases AdminServer.mem_groups_createXUserGroupFromMap.mp listed with old | posted
  · exact .inl (knows.known group old)
  · exact .inr posted

/-- **Posting.** The record of the user is replaced by one that shows the posted groups. -/
theorem Shows.addUserGroupInfo {server : AdminServer} {name : String} {groups : List XGroupInfo}
    (shows : builder.Shows server.idOf member) :
    (addUserGroupInfo ⟨addXUserInfo name, groups⟩ (server, builder)).2.Shows
      (addUserGroupInfo ⟨addXUserInfo name, groups⟩ (server, builder)).1.idOf
      fun other group =>
        if other = name then group ∈ groups.map XGroupInfo.name else member other group := by
  have free : ∀ other, server.idOf other = some (server.createXUserWithOutLogin name).id →
      other = name := by
    intro other own
    obtain ⟨user, found, same⟩ := Option.map_eq_some_iff.mp own
    exact (server.id_createXUserWithOutLogin found same.symm).symm
  have added := (shows.addUserToList free).foldl_addGroup (if_pos rfl) groups
  refine added.congr (fun other => ?_) fun other group _ => ?_
  · exact (@AdminServer.idOf_createXUserGroupFromMap server ⟨addXUserInfo name, groups⟩
      other).symm
  · by_cases own : other = name <;> simp [own]

/-- The server and the records are edited independently when links are deleted. -/
theorem foldl_delXUserGroupInfo (status : String → Nat) (place : Nat) (userName : String)
    (deleted : List String)
    (known : ∀ group ∈ deleted, state.2.groupName2XGroupInfoMap.get? group = some ⟨group⟩) :
    deleted.foldl (delXUserGroupInfo status place userName) state =
      (deleted.foldl (fun server group => server.deleteXGroupAndXUser group userName) state.1,
        deleted.foldl (fun builder group =>
          if status group = 200 then builder.delUserGroupFromList place ⟨group⟩ else builder)
          state.2) := by
  induction deleted generalizing state with
  | nil => rfl
  | cons first rest ih =>
      rw [List.forall_mem_cons] at known
      rw [List.foldl_cons, List.foldl_cons, List.foldl_cons, delXUserGroupInfo, known.1]
      refine ih fun group listed => ?_
      by_cases counts : status first = 200
      · simp only [counts, ↓reduceIte]
        exact known.2 group listed
      · simp only [counts, ↓reduceIte]
        exact known.2 group listed

theorem groupMap_foldl_delete (status : String → Nat) (place : Nat) (deleted : List String)
    (builder : PolicyMgrUserGroupBuilder) :
    (deleted.foldl (fun builder group =>
      if status group = 200 then builder.delUserGroupFromList place ⟨group⟩ else builder)
      builder).groupName2XGroupInfoMap = builder.groupName2XGroupInfoMap := by
  refine foldl_same _ (·.groupName2XGroupInfoMap) (fun builder group => ?_) deleted builder
  by_cases counts : status group = 200
  · rw [if_pos counts]
    rfl
  · rw [if_neg counts]

end Groups

end PolicyMgrUserGroupBuilder

namespace AdminServer

variable {server : AdminServer} {userName : String}

/-- **Deletions** take the links of one user away. -/
theorem foldl_deleteXGroupAndXUser (deleted : List String) :
    (∀ name, (deleted.foldl (fun server group => server.deleteXGroupAndXUser group userName)
        server).idOf name = server.idOf name) ∧
      (∀ name group, group ∈ (deleted.foldl (fun server group =>
          server.deleteXGroupAndXUser group userName) server).groupsOf name ↔
        group ∈ server.groupsOf name ∧ ¬ (name = userName ∧ group ∈ deleted)) ∧
      (deleted.foldl (fun server group => server.deleteXGroupAndXUser group userName)
        server).groups = server.groups := by
  induction deleted generalizing server with
  | nil => simp
  | cons first rest ih =>
      obtain ⟨ids, links, groups⟩ := @ih (server.deleteXGroupAndXUser first userName)
      refine ⟨fun name => (ids name).trans (idOf_deleteXGroupAndXUser name),
        fun name group => (links name group).trans ?_, groups.trans groups_deleteXGroupAndXUser⟩
      rw [mem_groupsOf_deleteXGroupAndXUser, and_assoc, ← not_or, ← and_or_left, List.mem_cons]

end AdminServer

namespace PolicyMgrUserGroupBuilder

section Steps

variable {state : AdminServer × PolicyMgrUserGroupBuilder} {call : SyncCall}

/-- The records show the users of the server with their groups. -/
structure Synced (state : AdminServer × PolicyMgrUserGroupBuilder) : Prop
    extends KnowsGroups state where
  shows : state.2.Shows state.1.idOf fun name group => group ∈ state.1.groupsOf name

/-- After a call, the user has the given groups on the server and in its record. -/
def Settled (state : AdminServer × PolicyMgrUserGroupBuilder) (call : SyncCall) : Prop :=
  ∀ group, (group ∈ state.1.groupsOf call.userName ↔ group ∈ call.groups.getD []) ∧
    (group ∈ state.2.groupsOf call.userName ↔ group ∈ state.1.groupsOf call.userName)

/-- Calls that converge: those that give no new groups, with deletions that are all answered
with the status that counts, and those that give new groups only. A mock run changes nothing. -/
def Converges (state : AdminServer × PolicyMgrUserGroupBuilder) (call : SyncCall) : Prop :=
  let old := state.2.groupsOf call.userName
  let groups := call.groups.getD []
  if state.2.isMockRun then (∀ group ∈ groups, group ∈ old) ∧ ∀ group ∈ old, group ∈ groups
  else if ∀ group ∈ groups, group ∈ old then
    ∀ group ∈ old, group ∈ groups ∨ call.status group = 200
  else ∀ group ∈ groups, group ∉ old

instance (state : AdminServer × PolicyMgrUserGroupBuilder) (call : SyncCall) :
    Decidable (Converges state call) := by
  unfold Converges
  infer_instance

/-- The groups that the record of the user shows after a call. -/
def Remembers (state : AdminServer × PolicyMgrUserGroupBuilder) (call : SyncCall)
    (group : String) : Prop :=
  let old := state.2.groupsOf call.userName
  let groups := call.groups.getD []
  if ∀ group ∈ groups, group ∈ old then
    group ∈ old ∧ (group ∈ groups ∨ call.status group ≠ 200)
  else group ∈ groups ∧ group ∉ old

/-- What a call leaves behind: the server has the given groups, the record those it
remembers, and other users are as they were. -/
structure Outcome (before : AdminServer × PolicyMgrUserGroupBuilder) (call : SyncCall)
    (after : AdminServer × PolicyMgrUserGroupBuilder) : Prop extends KnowsGroups after where
  shows : after.2.Shows after.1.idOf fun name group =>
    if name = call.userName then Remembers before call group else group ∈ after.1.groupsOf name
  user : (after.1.idOf call.userName).isSome = true
  given : ∀ group, group ∈ after.1.groupsOf call.userName ↔ group ∈ call.groups.getD []

theorem isSome_idOf_of_mem {server : AdminServer} {name group : String}
    (listed : group ∈ server.groupsOf name) : (server.idOf name).isSome = true := by
  cases own : server.idOf name with
  | none =>
      rw [AdminServer.groupsOf_of_unknown own] at listed
      nomatch listed
  | some id => rfl

theorem Synced.mem_groupsOf (synced : Synced state) {name group : String} :
    group ∈ state.2.groupsOf name ↔ group ∈ state.1.groupsOf name :=
  synced.shows.mem_groupsOf fun _ _ listed => isSome_idOf_of_mem listed

/-- The record shows what is remembered. -/
theorem Outcome.mem_groupsOf {after : AdminServer × PolicyMgrUserGroupBuilder}
    (outcome : Outcome state call after) {group : String} :
    group ∈ after.2.groupsOf call.userName ↔ Remembers state call group := by
  refine (outcome.shows.mem_groupsOf fun name group linked => ?_).trans (by rw [if_pos rfl])
  by_cases own : name = call.userName
  · rw [own]
    exact outcome.user
  · rw [if_neg own] at linked
    exact isSome_idOf_of_mem linked

/-- **A new user.** The server answers with the record of the user and its groups. -/
theorem outcome_of_unknown (synced : Synced state) (real : state.2.isMockRun = false)
    (unknown : state.2.userName2XUserInfoMap.get? call.userName = none) :
    Outcome state call (addOrUpdateUser state call).2 := by
  have none_ : state.1.idOf call.userName = none := by
    cases own : state.1.idOf call.userName with
    | none => rfl
    | some id =>
        obtain ⟨place, info, named, _⟩ := synced.shows.shown _ id own
        rw [unknown] at named
        cases named
  have old : state.2.groupsOf call.userName = [] := by
    unfold groupsOf
    rw [unknown]
    rfl
  have result : (addOrUpdateUser state call).2 =
      addUserGroupInfo ⟨addXUserInfo call.userName,
        state.2.getXGroupInfoList (call.groups.getD [])⟩ state := by
    simp only [addOrUpdateUser, unknown, real, Bool.false_eq_true, ↓reduceIte]
  have posted := synced.names_getXGroupInfoList (call.groups.getD [])
  rw [result]
  refine ⟨synced.toKnowsGroups.addUserGroupInfo, ?_, ?_, fun group => ?_⟩
  · refine synced.shows.addUserGroupInfo.congr (fun _ => rfl) fun name group _ => ?_
    by_cases own : name = call.userName
    · rw [if_pos own, if_pos own, posted, Remembers, old]
      by_cases empty : ∀ group ∈ call.groups.getD [], group ∈ ([] : List String)
      · rw [if_pos empty]
        exact ⟨fun listed => absurd (empty group listed) List.not_mem_nil,
          fun shown => absurd shown.1 List.not_mem_nil⟩
      · rw [if_neg empty]
        exact (and_iff_left List.not_mem_nil).symm
    · rw [if_neg own, if_neg own]
      refine Iff.symm (AdminServer.mem_groupsOf_createXUserGroupFromMap.trans ?_)
      exact or_iff_left fun linked => own linked.1
  · refine (congrArg Option.isSome (AdminServer.idOf_createXUserGroupFromMap _)).trans ?_
    exact congrArg Option.isSome (if_pos rfl)
  · refine AdminServer.mem_groupsOf_createXUserGroupFromMap.trans ?_
    rw [posted, AdminServer.groupsOf_of_unknown none_]
    exact ⟨fun either => either.elim (absurd · List.not_mem_nil) And.right,
      fun listed => .inr ⟨rfl, listed⟩⟩

/-- Deleting links leaves the known groups as they are. -/
theorem KnowsGroups.foldl_delete (knows : KnowsGroups state) (status : String → Nat) (place : Nat)
    (userName : String) (deleted : List String) :
    KnowsGroups (deleted.foldl (fun server group => server.deleteXGroupAndXUser group userName)
        state.1,
      deleted.foldl (fun builder group =>
        if status group = 200 then builder.delUserGroupFromList place ⟨group⟩ else builder)
        state.2) := by
  have groups := (@AdminServer.foldl_deleteXGroupAndXUser state.1 userName deleted).2.2
  have same := groupMap_foldl_delete status place deleted state.2
  refine ⟨fun group info found => ?_, fun group listed => ?_⟩
  · change AssocMap.get? (List.foldl _ state.2 deleted).groupName2XGroupInfoMap group = _ at found
    rw [same] at found
    exact knows.named group info found
  · change group ∈ (List.foldl _ state.1 deleted).groups at listed
    change (AssocMap.get? (List.foldl _ state.2 deleted).groupName2XGroupInfoMap group).isSome = _
    rw [groups] at listed
    rw [same]
    exact knows.known group listed

/-- The groups of a user are given by adding the new ones and deleting the others. -/
theorem mem_given_iff (old groups : List String) (group : String) :
    (group ∈ old ∨ group ∈ groups.filter (· ∉ old)) ∧ group ∉ old.filter (· ∉ groups) ↔
      group ∈ groups := by
  by_cases there : group ∈ old <;> by_cases given : group ∈ groups <;> simp [there, given]

/-- **A known user.** The record stays in use, unless new groups have made it a new one. -/
theorem outcome_of_known (synced : Synced state) (real : state.2.isMockRun = false) {place : Nat}
    (named : state.2.userName2XUserInfoMap.get? call.userName = some place) :
    Outcome state call (addOrUpdateUser state call).2 := by
  obtain ⟨id, own⟩ : ∃ id, state.1.idOf call.userName = some id := by
    cases own : state.1.idOf call.userName with
    | none =>
        rw [synced.shows.unknown _ own] at named
        cases named
    | some id => exact ⟨id, rfl⟩
  obtain ⟨place', info, named', _, read, hasId, hasName, nodup, shown⟩ :=
    synced.shows.shown _ id own
  rw [named] at named'
  cases named'
  have old : state.2.groupsOf call.userName = info.groups := by
    unfold groupsOf
    rw [named, Option.bind_some, read]
    rfl
  let groups := call.groups.getD []
  let addGroups := groups.filter (· ∉ info.groups)
  let delGroups := info.groups.filter (· ∉ groups)
  let posted := addUserGroupInfo ⟨addXUserInfo call.userName, state.2.getXGroupInfoList addGroups⟩
    state
  have result : (addOrUpdateUser state call).2 =
      delGroups.foldl (delXUserGroupInfo call.status place call.userName)
        (if addGroups.isEmpty then state else posted) := by
    simp only [addOrUpdateUser, named, read, real, hasName, Bool.false_eq_true, ↓reduceIte]
    rfl
  have listed : ∀ group ∈ delGroups, group ∈ state.1.groups := fun group deleted =>
    AdminServer.mem_groups_of_mem_groupsOf ((shown group).mp (List.mem_filter.mp deleted).1)
  have empty : addGroups.isEmpty = true ↔ ∀ group ∈ groups, group ∈ info.groups := by
    simp only [addGroups, List.isEmpty_iff, List.filter_eq_nil_iff, decide_eq_true_iff,
      not_not]
  rw [result]
  by_cases none_ : addGroups.isEmpty = true
  · rw [if_pos none_, foldl_delXUserGroupInfo _ _ _ _ fun group deleted =>
      synced.get?_eq (listed group deleted)]
    obtain ⟨ids, links, _⟩ :=
      @AdminServer.foldl_deleteXGroupAndXUser state.1 call.userName delGroups
    refine ⟨synced.toKnowsGroups.foldl_delete _ _ _ _, ?_, ?_, fun group => ?_⟩
    · refine (synced.shows.foldl_delete own named call.status delGroups).congr
        (fun name => (ids name).symm) fun name group _ => ?_
      by_cases same : name = call.userName
      · rw [if_pos same, Remembers, old, if_pos (empty.mp none_), same, ← shown]
        simp only [delGroups, List.mem_filter, decide_eq_true_iff, true_and]
        tauto
      · rw [if_neg same, links]
        simp only [same, false_and, not_false_eq_true, and_true]
    · rw [ids, own]
      rfl
    · refine Iff.trans ?_ (mem_given_iff info.groups groups group)
      rw [links, ← shown]
      simp only [true_and]
      refine and_congr_left' (iff_self_or.mpr fun added => ?_)
      have none_ : groups.filter (· ∉ info.groups) = [] := List.isEmpty_iff.mp none_
      rw [none_] at added
      cases added
  · have knows : KnowsGroups posted := synced.toKnowsGroups.addUserGroupInfo
    have names := synced.names_getXGroupInfoList addGroups
    have kept : ∀ group ∈ state.1.groups, group ∈ posted.1.groups := fun group there =>
      AdminServer.mem_groups_createXUserGroupFromMap.mpr (.inl there)
    -- the record that is edited now is found by no name any more
    have stale : ∀ name, posted.2.userName2XUserInfoMap.get? name ≠ some place := by
      intro name there
      rw [nameMap_addUserGroupInfo, AssocMap.get?_put] at there
      change (if name = call.userName then _ else _) = _ at there
      by_cases same : name = call.userName
      · rw [if_pos same] at there
        rw [← Option.some.inj there, List.getElem?_eq_none (Nat.le_refl _)] at read
        cases read
      · rw [if_neg same] at there
        cases other : state.1.idOf name with
        | none =>
            rw [synced.shows.unknown _ other] at there
            cases there
        | some key =>
            obtain ⟨place', info', named', _, read', _, hasName', _⟩ :=
              synced.shows.shown name key other
            rw [there] at named'
            cases named'
            rw [read] at read'
            cases read'
            exact same (hasName'.symm.trans hasName)
    rw [if_neg none_, foldl_delXUserGroupInfo _ _ _ _ fun group deleted =>
      knows.get?_eq (kept group (listed group deleted))]
    obtain ⟨ids, links, _⟩ :=
      @AdminServer.foldl_deleteXGroupAndXUser posted.1 call.userName delGroups
    refine ⟨knows.foldl_delete _ _ _ _, ?_, ?_, fun group => ?_⟩
    · refine (synced.shows.addUserGroupInfo.foldl_delete_stale stale call.status delGroups).congr
        (fun name => (ids name).symm) fun name group _ => ?_
      by_cases same : name = call.userName
      · rw [if_pos same, if_pos same, names, Remembers, old,
          if_neg fun all => none_ (empty.mpr all)]
        simp only [addGroups, List.mem_filter, decide_eq_true_iff]
        rfl
      · rw [if_neg same, if_neg same, links]
        simp only [same, false_and, not_false_eq_true, and_true]
        refine Iff.symm (AdminServer.mem_groupsOf_createXUserGroupFromMap.trans ?_)
        exact or_iff_left fun linked => same linked.1
    · rw [ids]
      refine (congrArg Option.isSome (AdminServer.idOf_createXUserGroupFromMap _)).trans ?_
      exact congrArg Option.isSome (if_pos rfl)
    · refine Iff.trans ?_ (mem_given_iff info.groups groups group)
      rw [links]
      simp only [true_and]
      refine and_congr_left' (AdminServer.mem_groupsOf_createXUserGroupFromMap.trans ?_)
      rw [names, ← shown]
      exact or_congr_right (and_iff_right rfl)

/-- **A call.** Outside a mock run, the server gets the given groups. -/
theorem Synced.outcome (synced : Synced state) (real : state.2.isMockRun = false)
    (call : SyncCall) : Outcome state call (addOrUpdateUser state call).2 := by
  cases named : state.2.userName2XUserInfoMap.get? call.userName with
  | none => exact outcome_of_unknown synced real named
  | some place => exact outcome_of_known synced real named

theorem addOrUpdateUser_of_mock (mock : state.2.isMockRun = true) (call : SyncCall) :
    (addOrUpdateUser state call).2 = state := by
  simp only [addOrUpdateUser, mock, ↓reduceIte]
  split
  · rfl
  · split <;> rfl

/-- The record shows the given groups exactly when the call converges. -/
theorem remembers_given_iff (real : state.2.isMockRun = false) :
    (∀ group, Remembers state call group ↔ group ∈ call.groups.getD []) ↔
      Converges state call := by
  unfold Remembers Converges
  simp only [real, Bool.false_eq_true, ↓reduceIte]
  by_cases within : ∀ group ∈ call.groups.getD [], group ∈ state.2.groupsOf call.userName
  · simp only [if_pos within]
    constructor
    · intro same group there
      by_cases counts : call.status group = 200
      · exact .inr counts
      · exact .inl ((same group).mp ⟨there, .inr counts⟩)
    · intro settled group
      constructor
      · rintro ⟨there, given | other⟩
        · exact given
        · exact (settled group there).resolve_right other
      · exact fun given => ⟨within group given, .inl given⟩
  · simp only [if_neg within]
    exact ⟨fun same group given => ((same group).mpr given).2,
      fun settled group => ⟨And.left, fun given => ⟨given, settled group given⟩⟩⟩

/-- **Steps.** The user is settled by a call exactly when the call converges. -/
theorem settled_iff (synced : Synced state) :
    Settled (addOrUpdateUser state call).2 call ↔ Converges state call := by
  cases mode : state.2.isMockRun with
  | true =>
      rw [addOrUpdateUser_of_mock mode]
      unfold Settled Converges
      simp only [mode, ↓reduceIte, synced.mem_groupsOf, iff_self, and_true]
      exact ⟨fun same => ⟨fun group => (same group).mpr, fun group => (same group).mp⟩,
        fun both group => ⟨both.2 group, both.1 group⟩⟩
  | false =>
      have outcome := synced.outcome mode call
      rw [← remembers_given_iff mode]
      constructor
      · intro settled group
        rw [← outcome.mem_groupsOf, (settled group).2, outcome.given]
      · intro same group
        exact ⟨outcome.given group, by rw [outcome.mem_groupsOf, same, outcome.given]⟩

/-- A call that settles its user leaves all users in their records. -/
theorem Synced.of_settled (synced : Synced state)
    (settled : Settled (addOrUpdateUser state call).2 call) :
    Synced (addOrUpdateUser state call).2 := by
  cases mode : state.2.isMockRun with
  | true =>
      rw [addOrUpdateUser_of_mock mode]
      exact synced
  | false =>
      have outcome := synced.outcome mode call
      refine ⟨outcome.toKnowsGroups, outcome.shows.congr (fun _ => rfl) fun name group _ => ?_⟩
      by_cases own : name = call.userName
      · rw [if_pos own, own, ← outcome.mem_groupsOf]
        exact (settled group).2
      · rw [if_neg own]

end Steps

section Loading

variable {builder : PolicyMgrUserGroupBuilder} {ids : String → Option Nat}
  {member : String → String → Prop} {server : AdminServer}

/-- Pages are retrieved until all rows are there. -/
theorem retrieve_eq_some {α : Type} {rows : List α} {pageSize requests : Nat}
    {retrieved all : List α} {totalCount : Nat} (part : retrieved <+: rows)
    (total : totalCount = rows.length ∨ retrieved = [] ∧ 0 < totalCount)
    (done : retrieve rows pageSize requests retrieved totalCount = some all) : all = rows := by
  induction requests generalizing retrieved totalCount with
  | zero => nomatch done
  | succ requests ih =>
      unfold retrieve at done
      obtain ⟨rest, rfl⟩ := part
      by_cases more : retrieved.length < totalCount
      · rw [if_pos more] at done
        refine ih ?_ (.inl rfl) done
        rw [List.drop_left]
        exact (List.prefix_append_right_inj retrieved).mpr (List.take_prefix _ _)
      · rw [if_neg more] at done
        cases done
        rcases total with total | ⟨rfl, some_⟩
        · rw [total, List.length_append] at more
          have none_ : rest = [] := List.length_eq_zero_iff.mp (by omega)
          rw [none_, List.append_nil]
        · exact absurd some_ more

/-- Pages that are not empty come to an end. -/
theorem retrieve_isSome {α : Type} {rows : List α} {pageSize requests : Nat} {retrieved : List α}
    (positive : 0 < pageSize) (part : retrieved <+: rows)
    (enough : rows.length - retrieved.length < requests) :
    (retrieve rows pageSize requests retrieved rows.length).isSome = true := by
  induction requests generalizing retrieved with
  | zero => exact absurd enough (Nat.not_lt_zero _)
  | succ requests ih =>
      unfold retrieve
      by_cases more : retrieved.length < rows.length
      · rw [if_pos more]
        obtain ⟨rest, rfl⟩ := part
        rw [List.length_append] at more enough
        rw [List.drop_left]
        refine ih ((List.prefix_append_right_inj retrieved).mpr (List.take_prefix _ _)) ?_
        rw [List.length_append, List.length_append, List.length_take]
        omega
      · rw [if_neg more]
        rfl

/-- The records of the users are made one after another. -/
theorem shows_users (entries : List (String × ServerUser)) (nodup : (entries.map Prod.fst).Nodup)
    (distinct : ∀ first ∈ entries, ∀ second ∈ entries, first.2.id = second.2.id →
      first.1 = second.1)
    (shows : builder.Shows ids fun _ _ => False)
    (free : ∀ entry ∈ entries, ∀ other, ids other = some entry.2.id → other = entry.1) :
    ∃ ids', ((entries.map fun entry => ({ id := entry.2.id, name := entry.1 } : XUserInfo)).foldl
        (fun builder info => (builder.make info).2.addUserToList (builder.make info).1)
        builder).Shows ids' (fun _ _ => False) ∧
      (∀ entry ∈ entries, ids' entry.1 = some entry.2.id) ∧
      ∀ other, other ∉ entries.map Prod.fst → ids' other = ids other := by
  induction entries generalizing builder ids with
  | nil => exact ⟨ids, shows, fun _ listed => (nomatch listed), fun _ _ => rfl⟩
  | cons first rest ih =>
      rw [List.map_cons, List.nodup_cons] at nodup
      have made := shows.addUserToList (free first List.mem_cons_self)
      obtain ⟨ids', shows', own, others⟩ := ih nodup.2
        (fun one here two there => distinct one (List.mem_cons_of_mem _ here) two
          (List.mem_cons_of_mem _ there))
        (made.congr (fun _ => rfl) fun _ _ _ => iff_of_eq (and_false _))
        fun entry listed other same => by
          by_cases here : other = first.1
          · rw [if_pos here] at same
            rw [here, distinct first List.mem_cons_self entry (List.mem_cons_of_mem _ listed)
              (Option.some.inj same)]
          · rw [if_neg here] at same
            exact free entry (List.mem_cons_of_mem _ listed) other same
      refine ⟨ids', shows', ?_, fun other absent => ?_⟩
      · rw [List.forall_mem_cons]
        exact ⟨(others _ nodup.1).trans (if_pos rfl), own⟩
      · rw [List.map_cons, List.mem_cons, not_or] at absent
        exact (others other absent.2).trans (if_neg absent.1)

/-- The links are added to the records of their users. -/
theorem Shows.foldl_links (shows : builder.Shows ids member) (links : List XUserGroupInfo)
    (known : ∀ link ∈ links, ∃ name, ids name = some link.userId) :
    (links.foldl addUserGroupToList builder).Shows ids fun name group =>
      member name group ∨ ∃ link ∈ links, ids name = some link.userId ∧ link.groupName = group := by
  induction links generalizing builder member with
  | nil => exact shows.congr (fun _ => rfl) fun _ _ _ => by simp
  | cons first rest ih =>
      rw [List.forall_mem_cons] at known
      obtain ⟨⟨name, own⟩, rest_⟩ := known
      refine (ih (shows.addGroupOfUser own first.groupName) rest_).congr (fun _ => rfl)
        fun other group _ => ?_
      have same : other = name ↔ ids other = some first.userId :=
        ⟨fun equal => equal ▸ own, fun there => shows.distinct other name _ there own⟩
      simp only [List.exists_mem_cons_iff, same, or_assoc, eq_comm]

theorem mem_linksOf_iff {link : XUserGroupInfo} :
    link ∈ linksOf server ↔ ∃ name user, server.users.get? name = some user ∧
      link.userId = user.id ∧ link.groupName ∈ user.groups := by
  unfold linksOf
  rw [List.mem_flatMap]
  constructor
  · rintro ⟨⟨name, user⟩, listed, linked⟩
    obtain ⟨group, there, rfl⟩ := List.mem_map.mp linked
    exact ⟨name, user, AssocMap.get?_eq_some_iff.mpr listed, rfl, there⟩
  · rintro ⟨name, user, found, same, there⟩
    refine ⟨(name, user), AssocMap.mem_of_get?_eq_some found, List.mem_map.mpr ⟨_, there, ?_⟩⟩
    rw [← same]

/-- The groups that are listed by the server are known. -/
theorem knowsGroups_rebuild (isMockRun : Bool) (server : AdminServer) :
    KnowsGroups (server, ({ isMockRun := isMockRun } :
      PolicyMgrUserGroupBuilder).rebuildUserGroupMap
        (server.users.entries.map fun entry => { id := entry.2.id, name := entry.1 })
        (server.groups.map XGroupInfo.mk) (linksOf server)) := by
  have users : ∀ (infos : List XUserInfo) (builder : PolicyMgrUserGroupBuilder),
      (infos.foldl (fun builder info => (builder.make info).2.addUserToList (builder.make info).1)
        builder).groupName2XGroupInfoMap = builder.groupName2XGroupInfoMap := by
    intro infos
    induction infos with
    | nil => exact fun _ => rfl
    | cons first rest ih => exact fun builder => (ih _).trans (groupMap_addUserToList _ _)
  have groups : ∀ (posted : List XGroupInfo) (builder : PolicyMgrUserGroupBuilder),
      (posted.foldl addGroupToList builder).groupName2XGroupInfoMap =
        posted.foldl (fun known group => known.put group.name group)
          builder.groupName2XGroupInfoMap := by
    intro posted
    induction posted with
    | nil => exact fun _ => rfl
    | cons first rest ih => exact fun builder => ih _
  have links : ∀ (links : List XUserGroupInfo) (builder : PolicyMgrUserGroupBuilder),
      (links.foldl addUserGroupToList builder).groupName2XGroupInfoMap =
        builder.groupName2XGroupInfoMap := by
    intro links
    induction links with
    | nil => exact fun _ => rfl
    | cons first rest ih => exact fun builder => (ih _).trans (groupMap_addGroupOfUser _ _ _)
  have map := (links (linksOf server) _).trans ((groups (server.groups.map XGroupInfo.mk) _).trans
    (congrArg (fun known => List.foldl _ known _) (users (server.users.entries.map fun entry =>
      { id := entry.2.id, name := entry.1 }) { isMockRun := isMockRun })))
  have both := foldl_put_named (server.groups.map XGroupInfo.mk)
    (fun group info (found : (∅ : AssocMap String XGroupInfo).get? group = some info) =>
      nomatch found)
  refine ⟨fun group info found => both.1 group info ?_, fun group listed => ?_⟩
  · exact (congrArg (fun known => AssocMap.get? known group) map).symm.trans found
  · refine (congrArg (fun known => (AssocMap.get? known group).isSome) map).trans ?_
    refine both.2 group (.inr ?_)
    rw [List.map_map]
    exact List.mem_map.mpr ⟨group, listed, rfl⟩

/-- Users and groups that are listed by the server are found in the builder. -/
theorem synced_rebuild (isMockRun : Bool) (server : AdminServer) :
    Synced (server, ({ isMockRun := isMockRun } : PolicyMgrUserGroupBuilder).rebuildUserGroupMap
      (server.users.entries.map fun entry => { id := entry.2.id, name := entry.1 })
      (server.groups.map XGroupInfo.mk) (linksOf server)) := by
  have start : ({ isMockRun := isMockRun } : PolicyMgrUserGroupBuilder).Shows (fun _ => none)
      fun _ _ => False :=
    ⟨fun _ _ _ own => (nomatch own), fun _ _ => rfl, fun _ _ own => (nomatch own)⟩
  have distinct : ∀ first ∈ server.users.entries, ∀ second ∈ server.users.entries,
      first.2.id = second.2.id → first.1 = second.1 := fun first here second there =>
    server.distinct first.1 first.2 (AssocMap.get?_eq_some_iff.mpr here) second.1 second.2
      (AssocMap.get?_eq_some_iff.mpr there)
  obtain ⟨ids, users, own, others⟩ := shows_users server.users.entries server.users.nodup distinct
    start fun _ _ _ same => nomatch same
  have sameIds : ∀ name, ids name = server.idOf name := by
    intro name
    unfold AdminServer.idOf
    cases found : server.users.get? name with
    | none => exact others name (AssocMap.get?_eq_none_iff.mp found)
    | some user => exact own (name, user) (AssocMap.mem_of_get?_eq_some found)
  have groups : ∀ (posted : List XGroupInfo) (builder : PolicyMgrUserGroupBuilder),
      builder.Shows ids (fun _ _ => False) →
      (posted.foldl addGroupToList builder).Shows ids (fun _ _ => False) := by
    intro posted
    induction posted with
    | nil => exact fun _ shows => shows
    | cons first rest ih => exact fun builder shows => ih _ (shows.addGroupToList first)
  refine ⟨knowsGroups_rebuild isMockRun server, ?_⟩
  · refine ((groups _ _ users).foldl_links (linksOf server) fun link listed => ?_).congr sameIds
      fun name group known => ?_
    · obtain ⟨name, user, found, same, _⟩ := mem_linksOf_iff.mp listed
      refine ⟨name, ?_⟩
      rw [sameIds, same, AdminServer.idOf, found]
      rfl
    · rw [false_or]
      unfold AdminServer.groupsOf
      constructor
      · rintro ⟨link, listed, there, rfl⟩
        obtain ⟨other, user, found, same, linked⟩ := mem_linksOf_iff.mp listed
        rw [sameIds, same] at there
        have equal : other = name := AdminServer.idOf_injective
          (by rw [AdminServer.idOf, found]; rfl) there
        rw [← equal, found]
        exact linked
      · intro linked
        cases found : server.users.get? name with
        | none =>
            rw [found] at linked
            nomatch linked
        | some user =>
            rw [found] at linked
            refine ⟨⟨user.id, group⟩, mem_linksOf_iff.mpr ⟨name, user, found, rfl, linked⟩, ?_, rfl⟩
            rw [sameIds, AdminServer.idOf, found]
            rfl

/-- **Loading.** After `init`, the records show the users of the server. -/
theorem synced_of_init {isMockRun : Bool} {recordsToPullPerCall requests : Nat}
    (loaded : init isMockRun recordsToPullPerCall requests server = some builder) :
    Synced (server, builder) := by
  unfold init at loaded
  obtain ⟨groups, allGroups, loaded⟩ := Option.bind_eq_some_iff.mp loaded
  obtain ⟨users, allUsers, loaded⟩ := Option.bind_eq_some_iff.mp loaded
  obtain ⟨links, allLinks, loaded⟩ := Option.bind_eq_some_iff.mp loaded
  have first : ∀ {α : Type} {rows all : List α},
      retrieve rows recordsToPullPerCall requests [] 100 = some all → all = rows :=
    fun done => retrieve_eq_some List.nil_prefix (.inr ⟨rfl, by decide⟩) done
  rw [first allGroups, first allUsers, first allLinks] at loaded
  rw [← Option.some.inj loaded]
  exact synced_rebuild isMockRun server

end Loading

/-- A server with one user, who has one group. -/
private def oneUser : AdminServer where
  users := (∅ : AssocMap String ServerUser).put "u" ⟨7, ["a"]⟩
  groups := ["a"]
  distinct name user found other user' found' _ := by
    rw [AssocMap.get?_put] at found found'
    by_cases own : name = "u" <;> by_cases own' : other = "u"
    · rw [own, own']
    · rw [if_neg own'] at found'
      nomatch found'
    · rw [if_neg own] at found
      nomatch found
    · rw [if_neg own] at found
      nomatch found
  known name user found group listed := by
    rw [AssocMap.get?_put] at found
    by_cases own : name = "u"
    · rw [if_pos own] at found
      cases found
      exact listed
    · rw [if_neg own] at found
      nomatch found

private def answered (userName : String) (groups : List String) : SyncCall :=
  ⟨userName, some groups, fun _ => 200⟩

end PolicyMgrUserGroupBuilder

end Ranger
