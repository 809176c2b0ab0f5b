import Ranger.Admin.RoleEscalation

/-! # Groups under the calls of users

`XUserMgr.updateXUser` checks the access to the portal user of the name in the request, and
edits the user of the policies, with its groups, that has the id in the request. The groups
stay as they are as long as every request keeps the name and the groups of that user.
-/

namespace Ranger

open Foundation
open Foundation.Throwing

namespace UserTables

/-- The names of the groups of a user by its id. -/
def groupNamesOf (tables : UserTables) (userId : Int) : List String :=
  ((tables.getXUserGroups userId).getD []).map (·.name)

/-- The ids of the users a name finds. -/
def idsNamed (tables : UserTables) (name : String) : List Int :=
  (tables.usersNamed name).map (·.1)

theorem getGroupsForUser_eq (tables : UserTables) (userName : String) :
    tables.getGroupsForUser userName =
      match tables.idsNamed userName with
      | [userId] => tables.groupNamesOf userId
      | _ => [] := by
  unfold getGroupsForUser idsNamed
  rcases tables.usersNamed userName with _ | ⟨⟨userId, row⟩, _ | ⟨other, rest⟩⟩
  · rfl
  · rfl
  · rfl

/-- What is read of the values of a list depends on what is read of each. -/
theorem map_mapM_congr {α β γ : Type} {f g : α → Option β} {read : β → γ} {items : List α}
    (same : ∀ item ∈ items, (f item).map read = (g item).map read) :
    (items.mapM f).map (List.map read) = (items.mapM g).map (List.map read) := by
  induction items with
  | nil => rfl
  | cons item rest ih =>
      have behind := ih fun other listed => same other (List.mem_cons_of_mem _ listed)
      have first := same item List.mem_cons_self
      rw [List.mapM_cons, List.mapM_cons]
      rcases one : f item with _ | left <;> rcases two : g item with _ | right <;>
        rw [one, two] at first
      · rfl
      · exact nomatch first
      · exact nomatch first
      · have equal : read left = read right := Option.some.inj first
        rcases many : rest.mapM f with _ | lefts <;> rcases more : rest.mapM g with _ | rights <;>
          rw [many, more] at behind
        · rfl
        · exact nomatch behind
        · exact nomatch behind
        · have tails : lefts.map read = rights.map read := Option.some.inj behind
          change some (read left :: lefts.map read) = some (read right :: rights.map read)
          rw [equal, tails]

/-- The names of the groups of a user are read from the names of the groups it has rows for. -/
theorem groupNamesOf_congr {before after : UserTables} {userId : Int}
    (rows : after.groupUsersOf userId = before.groupUsersOf userId)
    (named : ∀ row ∈ before.groupUsersOf userId,
      (after.groups.get? row.2.parentGroupId).map (·.name) =
        (before.groups.get? row.2.parentGroupId).map (·.name)) :
    after.groupNamesOf userId = before.groupNamesOf userId := by
  have same := map_mapM_congr named
  unfold groupNamesOf getXUserGroups
  rw [rows]
  have read : ∀ values : Option (List XXGroup),
      (values.getD []).map (·.name) = (values.map (List.map (·.name))).getD [] := by
    rintro (_ | values) <;> rfl
  rw [read, read, same]

theorem getGroupsForUser_congr {before after : UserTables} {userName : String}
    (ids : after.idsNamed userName = before.idsNamed userName)
    (groups : ∀ userId, after.groupNamesOf userId = before.groupNamesOf userId) :
    after.getGroupsForUser userName = before.getGroupsForUser userName := by
  rw [getGroupsForUser_eq, getGroupsForUser_eq, ids]
  split
  · exact groups _
  · rfl

theorem groupNamesOf_eq_nil {tables : UserTables} {userId : Int}
    (rows : tables.groupUsersOf userId = []) : tables.groupNamesOf userId = [] := by
  unfold groupNamesOf getXUserGroups
  rw [rows]
  rfl

/-- A name that finds at most one user, who is in no group, has no groups. -/
theorem getGroupsForUser_eq_nil {tables : UserTables} {userName : String} {userId : Int}
    (only : ∀ id ∈ tables.idsNamed userName, id = userId)
    (rows : tables.groupUsersOf userId = []) : tables.getGroupsForUser userName = [] := by
  rw [getGroupsForUser_eq]
  split
  · next id found =>
      rw [only id (found ▸ List.mem_singleton_self id)]
      exact groupNamesOf_eq_nil rows
  · rfl

theorem mem_idsNamed_iff {tables : UserTables} {name : String} {id : Int} :
    id ∈ tables.idsNamed name ↔
      (trim name).isEmpty = false ∧
        ∃ row, tables.users.get? id = some row ∧ row.name = trim name := by
  unfold idsNamed usersNamed
  split
  · next empty => simp [empty]
  · next given =>
      rw [List.mem_map]
      constructor
      · rintro ⟨⟨other, row⟩, listed, rfl⟩
        have ⟨stored, named⟩ := List.mem_filter.mp listed
        exact ⟨Bool.eq_false_iff.mpr given, row, Table.get?_eq_some_iff.mpr stored,
          by simpa using named⟩
      · rintro ⟨_, row, stored, named⟩
        exact ⟨(id, row), List.mem_filter.mpr ⟨Table.get?_eq_some_iff.mp stored,
          by simpa using named⟩, rfl⟩

/-- An edited user of the policies is found by the names that find both records or none. -/
theorem idsNamed_replace {tables : UserTables} {id : Int} {row edited : XXUser}
    (found : tables.users.get? id = some row) {name : String}
    (agree : edited.name = trim name ↔ row.name = trim name) :
    idsNamed { tables with users := tables.users.replace id edited } name =
      tables.idsNamed name := by
  unfold idsNamed usersNamed
  split
  · rfl
  · rw [Table.entries_replace (Table.mem_ids_of_get? found), List.filter_map, List.map_map]
    have kept : ∀ entry ∈ tables.users.rows.entries,
        ((fun entry : Int × XXUser => entry.2.name == trim name) ∘
          fun entry => if entry.1 = id then (id, edited) else entry) entry =
        (entry.2.name == trim name) := by
      intro entry listed
      by_cases same : entry.1 = id
      · have own := Table.get?_eq_some_iff.mpr listed
        rw [same, found, Option.some.injEq] at own
        simp only [Function.comp_apply, same, ↓reduceIte, ← own]
        exact Bool.eq_iff_iff.mpr (by rw [beq_iff_eq, beq_iff_eq]; exact agree)
      · simp only [Function.comp_apply, same, ↓reduceIte]
    rw [List.filter_congr kept]
    apply List.map_congr_left
    intro entry _
    by_cases same : entry.1 = id
    · simp only [Function.comp_apply, same, ↓reduceIte]
    · simp only [Function.comp_apply, same, ↓reduceIte]

/-- No other user has one of the names. -/
def OnlyBearer (tables : UserTables) (id : Int) (names : List String) : Prop :=
  ∀ other row, tables.users.get? other = some row → row.name ∈ names → other = id

/-- An edit of a user of the policies that keeps the groups of every name. -/
theorem getGroupsForUser_replace_user {tables : UserTables} {id : Int} {row edited : XXUser}
    (found : tables.users.get? id = some row)
    (kept : edited.name = row.name ∨
      tables.groupUsersOf id = [] ∧ tables.OnlyBearer id [row.name, edited.name])
    (userName : String) :
    getGroupsForUser { tables with users := tables.users.replace id edited } userName =
      tables.getGroupsForUser userName := by
  by_cases agree : edited.name = trim userName ↔ row.name = trim userName
  · exact getGroupsForUser_congr (idsNamed_replace found agree) fun _ => rfl
  · rcases kept with same | ⟨memberless, only⟩
    · exact absurd (by rw [same]) agree
    · have borne : trim userName ∈ [row.name, edited.name] := by
        by_contra other
        simp only [List.mem_cons, List.not_mem_nil, or_false, not_or] at other
        exact agree (iff_of_false (fun same => other.2 same.symm) fun same => other.1 same.symm)
      have before : tables.getGroupsForUser userName = [] := by
        apply getGroupsForUser_eq_nil _ memberless
        intro other listed
        have ⟨_, entry, stored, named⟩ := mem_idsNamed_iff.mp listed
        exact only other entry stored (named ▸ borne)
      rw [before]
      refine @getGroupsForUser_eq_nil _ userName id ?_ memberless
      intro other listed
      have ⟨_, entry, stored, named⟩ := mem_idsNamed_iff.mp listed
      by_contra differs
      rw [Table.get?_replace_of_ne differs] at stored
      exact differs (only other entry stored (named ▸ borne))

/-- An edit of a group that keeps its name, or has no members. -/
theorem getGroupsForUser_replace_group {tables : UserTables} {id : Int} {row edited : XXGroup}
    (found : tables.groups.get? id = some row)
    (kept : edited.name = row.name ∨
      ∀ rowId member, tables.groupUsers.get? rowId = some member → member.parentGroupId ≠ id)
    (userName : String) :
    getGroupsForUser { tables with groups := tables.groups.replace id edited } userName =
      tables.getGroupsForUser userName := by
  refine @getGroupsForUser_congr tables _ userName rfl fun userId => ?_
  refine groupNamesOf_congr ?_ ?_
  · rfl
  intro member listed
  rw [Table.get?_replace (Table.mem_ids_of_get? found)]
  split
  · next same =>
      rcases kept with named | memberless
      · rw [same, found, Option.map_some, Option.map_some, named]
      · have stored := Table.get?_eq_some_iff.mpr (List.mem_of_mem_filter listed)
        exact absurd same (memberless _ _ stored)
  · rfl

theorem getGroupsForUser_of_same {before after : UserTables} (users : after.users = before.users)
    (groups : after.groups = before.groups) (groupUsers : after.groupUsers = before.groupUsers)
    (userName : String) : after.getGroupsForUser userName = before.getGroupsForUser userName := by
  unfold getGroupsForUser getXUserGroups groupUsersOf usersNamed
  rw [users, groups, groupUsers]

end UserTables

section Calls

variable [Platform] {ordinary : Prop} {caller : Int} {start : UserTables}

omit [Platform] in
/-- The groups of a user that are listed as they are stay. -/
theorem ensures_updateGroupUsers_of_same {pre fails : UserRequest → Prop}
    (kept : ∀ request, pre request → fails request) {userId : Int}
    {current : List (Int × XXGroupUser)}
    (memberships : ∀ request, pre request → request.tables.groupUsersOf userId = current)
    {groupIdList : List (Option Int)}
    (same : ∀ groupId, some groupId ∈ groupIdList ↔
      ∃ row ∈ current, row.2.parentGroupId = groupId) (logged : Bool) :
    Ensures pre (XUserMgr.updateGroupUsers logged userId groupIdList) (fun _ => pre) fails := by
  have log : ∀ row, Ensures pre (XUserMgr.logGroupUser logged row) (fun _ => pre) fails := by
    intro row
    apply ensures_get_bind
    intro now holds
    split
    · exact ensures_pure fun state isNow => isNow ▸ holds
    · exact ensures_throw fun state isNow => kept state (isNow ▸ holds)
  apply ensures_get_bind
  intro now holds
  rw [memberships now holds]
  have joined : Ensures pre
      (groupIdList.forM (XUserMgr.joinGroup logged userId current)) (fun _ => pre) fails := by
    apply ensures_forM
    intro groupId listed
    unfold XUserMgr.joinGroup
    cases groupId with
    | none =>
        dsimp only
        split
        · exact ensures_throw kept
        · exact ensures_throw kept
    | some groupId =>
        obtain ⟨row, member, parent⟩ := (same groupId).mp listed
        have present : current.any (·.2.parentGroupId == groupId) = true :=
          List.any_eq_true.mpr ⟨row, member, beq_iff_eq.mpr parent⟩
        dsimp only
        rw [if_pos present]
        exact ensures_pure fun _ holds => holds
  have none_left : current.filter
      (fun row => !groupIdList.contains (some row.2.parentGroupId)) = [] := by
    apply List.filter_eq_nil_iff.mpr
    intro row member
    have listed := (same row.2.parentGroupId).mpr ⟨row, member, rfl⟩
    simp [listed]
  apply ensures_bind (joined.at_state holds)
  intro _
  apply ensures_bind (ensures_forM fun row _ => log row.2)
  intro _
  rw [none_left]
  exact ensures_pure fun _ holds => holds

variable [UserText]

/-- A request that lists the groups of the user, or none. -/
def ListsGroups (tables : UserTables) (vXUser : VXUser) (id : Int) : Prop :=
  ∀ groupIdList, vXUser.groupIdList = some groupIdList →
    ∀ groupId, some groupId ∈ groupIdList ↔
      ∃ row ∈ tables.groupUsersOf id, row.2.parentGroupId = groupId

theorem ensures_updateXUser (plain : ordinary → ¬ start.HasRole caller ROLE_SYS_ADMIN)
    (guid : String) {vXUser : VXUser}
    (listed : ∀ id, vXUser.id = some id → (start.users.get? id).isSome →
      ListsGroups start vXUser id) :
    Ensures (Begins ordinary caller start) (XUserMgr.updateXUser guid vXUser)
      (fun _ request => ∃ id, UserEdited ordinary caller start vXUser id request)
      (SessionKept ordinary caller) := by
  apply ensures_bind (ensures_getUserProfileByLoginId Begins.sessionKept vXUser.name)
  intro oldUserProfile
  apply ensures_bind (ensures_updateUserWithPass plain guid _)
  intro _
  apply ensures_bind (ensures_updateResource vXUser)
  intro userId
  split
  · exact ensures_pure fun _ holds => ⟨userId, holds⟩
  · next groupIdList isGiven =>
      refine ensures_of_fact (?_ : ∀ state, _ → ListsGroups start vXUser userId) ?_
      · rintro state ⟨_, given, ⟨row, _, _, stored, _⟩, _, _⟩
        exact listed userId given (Option.isSome_iff_exists.mpr ⟨row, stored⟩)
      · intro same
        have updated := ensures_updateGroupUsers_of_same
          (fun _ (holds : UserEdited ordinary caller start vXUser userId _) =>
            holds.confined.sessionKept)
          (fun request holds => by rw [UserTables.groupUsersOf, holds.groupUsers]; rfl)
          (same groupIdList isGiven) oldUserProfile.isSome
        exact updated.weaken (fun _ holds => holds) (fun _ _ holds => ⟨userId, holds⟩)
          fun _ holds => holds

end Calls

/-- The groups that every name has are as before, and so are the portal users other than the
caller and the users of the policies that do not have the login id of the caller. -/
structure UsersKept (caller : Int) (login : Option String) (before after : UserTables) : Prop where
  groups : ∀ userName, after.getGroupsForUser userName = before.getGroupsForUser userName
  portalUsers : ∀ id, id ≠ caller → after.portalUsers.get? id = before.portalUsers.get? id
  users : ∀ id, (∀ row, before.users.get? id = some row → login ≠ some row.name) →
    after.users.get? id = before.users.get? id

theorem UsersKept.refl (caller : Int) (login : Option String) (tables : UserTables) :
    UsersKept caller login tables tables :=
  ⟨fun _ => rfl, fun _ _ => rfl, fun _ _ => rfl⟩

theorem UsersKept.trans {caller : Int} {login : Option String} {first second third : UserTables}
    (one : UsersKept caller login first second) (two : UsersKept caller login second third) :
    UsersKept caller login first third where
  groups userName := (two.groups userName).trans (one.groups userName)
  portalUsers id other := (two.portalUsers id other).trans (one.portalUsers id other)
  users id foreign := by
    have same := one.users id foreign
    exact (two.users id (same ▸ foreign)).trans same

/-- A call of `XUserREST` for users and groups, with the random address it would give. -/
inductive XUserCall where
  | updateXUser (guid : String) (vXUser : VXUser)
  | updateXGroup (vXGroup : VXGroup)

/-- The record a request makes of a user of the policies. -/
def VXUser.Makes (vXUser : VXUser) (edited : XXUser) : Prop :=
  vXUser.name = some edited.name ∧ vXUser.description = some edited.description ∧
    edited.isVisible = vXUser.isVisible ∧ edited.credStoreId = vXUser.credStoreId

/-- A request that keeps the name and the groups of the user it edits, and the whole record
if it is not the caller's. A name that only the caller has may change while it is in no
group. -/
structure KeepsUser (tables : UserTables) (login : Option String) (vXUser : VXUser) (id : Int)
    (row : XXUser) : Prop where
  named : ∀ edited, vXUser.Makes edited → edited.name = row.name ∨
    tables.groupUsersOf id = [] ∧ tables.OnlyBearer id [row.name, edited.name]
  own : ∀ edited, vXUser.Makes edited → login = some row.name ∨ edited = row
  listed : ListsGroups tables vXUser id

/-- A request that keeps the name of the group it edits, or edits one without members. -/
def KeepsGroup (tables : UserTables) (vXGroup : VXGroup) (id : Int) (row : XXGroup) : Prop :=
  vXGroup.name = some row.name ∨
    ∀ rowId member, tables.groupUsers.get? rowId = some member → member.parentGroupId ≠ id

namespace XUserCall

variable [Platform] [UserText]

def toUserCall : XUserCall → UserCall
  | updateXUser guid vXUser => .updateXUser guid vXUser
  | updateXGroup vXGroup => .updateXGroup vXGroup

/-- A call through the one session. -/
def step (state : UserTables × UserSessionBase) (call : XUserCall) :
    Except String PUnit × UserTables × UserSessionBase :=
  let (answer, after) := call.toUserCall.served state.1 state.2
  (answer, after.tables, after.session)

/-- What the call asks of the user or group it edits. -/
def Keeps (tables : UserTables) (login : Option String) : XUserCall → Prop
  | updateXUser _ vXUser =>
      ∀ id row, vXUser.id = some id → tables.users.get? id = some row →
        KeepsUser tables login vXUser id row
  | updateXGroup vXGroup =>
      ∀ id row, vXGroup.id = some id → tables.groups.get? id = some row →
        KeepsGroup tables vXGroup id row

/-- A call that keeps what it should, through a session that is no administrator's and that
carries the login id of no other user. -/
structure Harmless (caller : Int) (login : Option String) (state : UserTables × UserSessionBase)
    (call : XUserCall) : Prop where
  flag : state.2.userAdmin = false
  ownLogin : state.1.OwnLogin state.2 caller
  keeps : call.Keeps state.1 login

variable {caller : Int} {login : Option String} {start : UserTables}

omit [UserText] in
theorem usersKept_of_userEdited {vXUser : VXUser}
    (keeps : ∀ id row, vXUser.id = some id → start.users.get? id = some row →
      KeepsUser start login vXUser id row) {id : Int} {request : UserRequest}
    (done : UserEdited False caller start vXUser id request) :
    UsersKept caller login start request.tables := by
  obtain ⟨row, name, description, stored, named, described, users⟩ := done.edited
  have kept := keeps id row done.given stored
  have makes : vXUser.Makes ⟨name, description, vXUser.isVisible, vXUser.credStoreId⟩ :=
    ⟨named, described, rfl, rfl⟩
  refine ⟨?_, done.confined.others, ?_⟩
  · intro userName
    have edited := UserTables.getGroupsForUser_replace_user stored (kept.named _ makes) userName
    exact (@UserTables.getGroupsForUser_of_same { start with users := start.users.replace id _ } _
      users done.groups done.groupUsers userName).trans edited
  · intro other foreign
    rw [users, Table.get?_replace (Table.mem_ids_of_get? stored)]
    split
    · next same =>
        subst same
        rcases kept.own _ makes with own | unchanged
        · exact absurd own (foreign row stored)
        · rw [stored, unchanged]
    · rfl

omit [UserText] in
theorem usersKept_of_groupEdited {vXGroup : VXGroup}
    (keeps : ∀ id row, vXGroup.id = some id → start.groups.get? id = some row →
      KeepsGroup start vXGroup id row) {request : UserRequest}
    (done : GroupEdited False caller start vXGroup request) :
    UsersKept caller login start request.tables := by
  obtain ⟨id, row, name, description, given, stored, named, groups⟩ := done.edited
  refine ⟨?_, done.confined.others, fun id _ => by rw [done.users]⟩
  intro userName
  have edited := @UserTables.getGroupsForUser_replace_group start id row
    ⟨name, description, vXGroup.isVisible, vXGroup.groupType, vXGroup.credStoreId⟩ stored
    (by
      rcases keeps id row given stored with same | memberless
      · exact .inl (Option.some.inj (named.symm.trans same))
      · exact .inr memberless) userName
  exact (@UserTables.getGroupsForUser_of_same { start with groups := start.groups.replace id _ } _
    done.users groups done.groupUsers userName).trans edited

theorem usersKept_of_harmless {state : UserTables × UserSessionBase}
    (own : state.2.IsOf caller) {call : XUserCall} (harmless : call.Harmless caller login state) :
    UsersKept caller login state.1 (step state call).2.1 ∧ (step state call).2.2.IsOf caller := by
  have begins : Begins False caller state.1 { tables := state.1, session := state.2 } :=
    ⟨⟨⟨fun _ _ => rfl, own, harmless.ownLogin, nofun⟩, rfl, rfl, rfl⟩, harmless.flag⟩
  have thrown : ∀ request : UserRequest, SessionKept False caller request →
      UsersKept caller login state.1 state.1 ∧ request.session.IsOf caller :=
    fun _ kept => ⟨UsersKept.refl caller login _, kept.1⟩
  cases call with
  | updateXUser guid vXUser =>
      have keeps : ∀ id row, vXUser.id = some id → state.1.users.get? id = some row →
        KeepsUser state.1 login vXUser id row := harmless.keeps
      have listed : ∀ id, vXUser.id = some id → (state.1.users.get? id).isSome →
          ListsGroups state.1 vXUser id := by
        intro id given found
        obtain ⟨row, stored⟩ := Option.isSome_iff_exists.mp found
        exact (keeps id row given stored).listed
      exact @ensures_transactional _ _ _ _ _ UserCall.rollback _ _ _ begins
        (ensures_updateXUser nofun guid listed)
        (fun request => UsersKept caller login state.1 request.tables ∧
          request.session.IsOf caller)
        (fun _ request ⟨_, done⟩ =>
          ⟨usersKept_of_userEdited keeps done, done.confined.ownSession⟩) thrown
  | updateXGroup vXGroup =>
      exact @ensures_transactional _ _ _ _ _ UserCall.rollback _ _ _ begins
        (ensures_updateXGroup vXGroup)
        (fun request => UsersKept caller login state.1 request.tables ∧
          request.session.IsOf caller)
        (fun _ request done =>
          ⟨usersKept_of_groupEdited harmless.keeps done, done.confined.ownSession⟩) thrown

/-- **Groups are not changed.** Through the session of a user who is no administrator, calls
that each keep the name and the groups of the user they edit, and the name of the group,
keep the groups of every user, and change no record of another user. -/
theorem usersKept_of_run {record : XXPortalUser} {start : UserTables × UserSessionBase}
    (user : start.2.xXPortalUser = some (caller, record)) (calls : List XUserCall)
    (harmless : ∀ done call rest, calls = done ++ call :: rest →
      Harmless caller record.loginId (Run.final step start done) call) :
    ∀ done rest, calls = done ++ rest →
      UsersKept caller record.loginId start.1 (Run.final step start done).1 := by
  have own : start.2.IsOf caller := by
    intro id found
    rw [UserSessionBase.getUserId, user] at found
    exact (Option.some.inj found).symm
  have always := @Run.forall_prefix_of_allowed _ _ _ step
    (fun state => UsersKept caller record.loginId start.1 state.1 ∧ state.2.IsOf caller)
    (Harmless caller record.loginId)
    (fun state call holds allowed =>
      have kept := usersKept_of_harmless holds.2 allowed
      ⟨holds.1.trans kept.1, kept.2⟩)
    start ⟨UsersKept.refl caller record.loginId _, own⟩ calls harmless
  exact fun done rest split => (always done rest split).1

end XUserCall

section Slip

attribute [local instance] Platform.ascii UserText.ascii

/-- A user without groups, and a group. -/
def outsider : UserTables × UserSessionBase :=
  ({ portalUsers := Table.empty.insert { loginId := some "bob", emailAddress := some "a" }
     portalUserRoles := Table.empty.insert ⟨1, ROLE_USER⟩
     users := Table.empty.insert ⟨"bob", "bob", 1, none⟩
     groups := Table.empty.insert ⟨"admins", "admins", 1, 0, none⟩
     groupUsers := Table.empty },
    { xXPortalUser := some (1, { loginId := some "bob", emailAddress := some "a" }) })

/-- An update of the user by itself that lists groups. -/
def asksFor (groupIdList : List (Option Int)) : XUserCall :=
  .updateXUser "b"
    { id := some 1, name := some "bob", description := some "bob",
      groupIdList := some groupIdList }

/-- A user who lists the groups it is in, which are none. -/
theorem usersKept_outsider :
    UsersKept 1 (some "bob") outsider.1 (Run.final XUserCall.step outsider [asksFor []]).1 := by
  refine @XUserCall.usersKept_of_run _ _ 1 { loginId := some "bob", emailAddress := some "a" }
    outsider rfl [asksFor []] ?_ [asksFor []] [] rfl
  intro done call rest split
  obtain ⟨rfl, rfl⟩ : done = [] ∧ call = asksFor [] := by
    cases done with
    | nil => exact ⟨rfl, (List.cons.inj split).1.symm⟩
    | cons first done => simp at split
  refine ⟨rfl, ?_, ?_⟩
  · intro id row found _ _
    have stored : outsider.1.portalUsers.get? id = some row := found
    have rows : outsider.1.portalUsers.rows.entries =
        [(1, { loginId := some "bob", emailAddress := some "a" })] := by decide
    have listed := Table.get?_eq_some_iff.mp stored
    rw [rows, List.mem_singleton] at listed
    exact (Prod.mk.inj listed).1
  · intro id row given found
    obtain rfl : 1 = id := Option.some.inj given
    obtain rfl : (⟨"bob", "bob", 1, none⟩ : XXUser) = row := Option.some.inj found
    refine ⟨fun edited makes => .inl (Option.some.inj makes.1).symm, fun _ _ => .inl rfl, ?_⟩
    intro groupIdList listed groupId
    obtain rfl : [] = groupIdList := Option.some.inj listed
    apply iff_of_false nofun
    rintro ⟨row, member, -⟩
    exact nomatch member

/-- A user who is no administrator joins a group. -/
theorem membership_widens : outsider.2.userAdmin = false ∧
    (Run.final XUserCall.step outsider [asksFor [some 1]]).1.getGroupsForUser "bob" = ["admins"] ∧
    ¬ UsersKept 1 (some "bob") outsider.1
      (Run.final XUserCall.step outsider [asksFor [some 1]]).1 := by
  have joined : ((asksFor [some 1]).toUserCall.served outsider.1
      outsider.2).2.tables.getGroupsForUser "bob" = ["admins"] := by decide +kernel
  have before : outsider.1.getGroupsForUser "bob" = [] := by decide +kernel
  refine ⟨rfl, joined, ?_⟩
  intro kept
  have same := kept.groups "bob"
  rw [before] at same
  exact List.cons_ne_nil _ _ (joined.symm.trans same)

end Slip

end Ranger
