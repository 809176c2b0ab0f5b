import Ranger.Foundation.AssocMap
import Ranger.Foundation.Run
import Ranger.Platform

/-! # The users of a Unix host

The users and their groups are read from the lines of two files and pushed to a sink. The
groups of the members are collected in a map on the way, which outlives the files.
-/

namespace Ranger

open Foundation

/-- `String.split` at a character: no empty piece is last, unless it is the only one. -/
def splitAt (separator : Char) (text : String) : List String :=
  let pieces := (text.toList.splitOn separator).map String.ofList
  if pieces.length = 1 then pieces else (pieces.reverse.dropWhile (·.isEmpty)).reverse

/-- The index that is out of bounds. -/
structure ArrayIndexOutOfBoundsException where
  index : Nat
  deriving DecidableEq

/-- The lines of `/etc/passwd` and of `/etc/group`. -/
structure UnixFiles where
  passwd : List String
  group : List String

/-- What a line says of a group. -/
structure UnixGroup where
  groupName : String
  groupId : String
  members : List String
  deriving DecidableEq

/-- What a line says of a user. -/
structure UnixUser where
  userName : String
  numUserId : Int
  groupId : String
  deriving DecidableEq

/-- What is read of a line; a short one may be out of bounds, and some lines are skipped. -/
abbrev ReadLine (α : Type) := Except ArrayIndexOutOfBoundsException (Option α)

def readGroup (line : String) : ReadLine UnixGroup :=
  if (trim line).isEmpty then .ok none
  else
    match splitAt ':' line with
    | [] | [_] => .ok none
    | [_, _] => .error ⟨2⟩
    | [groupName, _, groupId] => .ok (some ⟨groupName, groupId, []⟩)
    | groupName :: _ :: groupId :: groupMembers :: _ =>
        let members := if (trim groupMembers).isEmpty then [] else splitAt ',' groupMembers
        .ok (some ⟨groupName, groupId, members⟩)

/-- A user; `parseInt` fails with nothing. -/
def readUser (parseInt : String → Option Int) (line : String) : ReadLine UnixUser :=
  if (trim line).isEmpty then .ok none
  else
    match splitAt ':' line with
    | [] | [_] => .ok none
    | [_, _] => .error ⟨2⟩
    | [_, _, _] => .error ⟨3⟩
    | userName :: _ :: userId :: groupId :: _ =>
        .ok (some ⟨userName, (parseInt userId).getD (-1), groupId⟩)

structure UnixUserGroupBuilder where
  user2GroupListMap : AssocMap String (List String) := ∅
  internalUser2GroupListMap : AssocMap String (List String) := ∅
  groupId2groupNameMap : AssocMap String String := ∅
  minimumUserId : Int := 0

namespace UnixUserGroupBuilder

section Calls

variable (builder : UnixUserGroupBuilder)

/-- The groups that are remembered for a user. -/
def groupsOf (user : String) : List String :=
  (builder.internalUser2GroupListMap.get? user).getD []

def addMember (groupName : String) (user : String) : UnixUserGroupBuilder :=
  let groupList := builder.groupsOf user
  { builder with
    internalUser2GroupListMap := builder.internalUser2GroupListMap.put user
      (if groupList.contains groupName then groupList else groupList ++ [groupName]) }

/-- A group takes the id from the one that had it. -/
def putGroupName (groupId groupName : String) : UnixUserGroupBuilder :=
  let groupNames :=
    if builder.groupId2groupNameMap.containsKey groupId then
      builder.groupId2groupNameMap.remove groupId
    else builder.groupId2groupNameMap
  { builder with groupId2groupNameMap := groupNames.put groupId groupName }

def addGroup (group : UnixGroup) : UnixUserGroupBuilder :=
  group.members.foldl (addMember · group.groupName)
    (builder.putGroupName group.groupId group.groupName)

def addUser (user : UnixUser) : UnixUserGroupBuilder :=
  if user.numUserId ≥ builder.minimumUserId then
    match builder.groupId2groupNameMap.get? user.groupId with
    | none => builder
    | some groupName =>
        { builder with
          user2GroupListMap := builder.user2GroupListMap.put user.userName
            (groupName :: builder.groupsOf user.userName) }
  else builder

/-- The lines of a file, up to one that throws. -/
def addLines {α : Type} (read : String → ReadLine α)
    (add : UnixUserGroupBuilder → α → UnixUserGroupBuilder) :
    UnixUserGroupBuilder → List String →
      Except ArrayIndexOutOfBoundsException Unit × UnixUserGroupBuilder
  | builder, [] => (.ok (), builder)
  | builder, line :: lines =>
      match read line with
      | .error failure => (.error failure, builder)
      | .ok none => addLines read add builder lines
      | .ok (some entry) => addLines read add (add builder entry) lines

def buildUnixGroupList (lines : List String) :
    Except ArrayIndexOutOfBoundsException Unit × UnixUserGroupBuilder :=
  addLines readGroup addGroup builder lines

variable (parseInt : String → Option Int)

def buildUnixUserList (lines : List String) :
    Except ArrayIndexOutOfBoundsException Unit × UnixUserGroupBuilder :=
  addLines (readUser parseInt) addUser builder lines

/-- The map of the members is not built anew. -/
def buildUserGroupInfo (files : UnixFiles) :
    Except ArrayIndexOutOfBoundsException Unit × UnixUserGroupBuilder :=
  let builder := { builder with user2GroupListMap := ∅, groupId2groupNameMap := ∅ }
  match builder.buildUnixGroupList files.group with
  | (.error failure, builder) => (.error failure, builder)
  | (.ok _, builder) => builder.buildUnixUserList parseInt files.passwd

/-- The users that are pushed to the sink, with their groups. -/
def updateSink (files : UnixFiles) :
    Except ArrayIndexOutOfBoundsException (List (String × List String)) × UnixUserGroupBuilder :=
  match builder.buildUserGroupInfo parseInt files with
  | (.error failure, builder) => (.error failure, builder)
  | (.ok _, builder) => (.ok builder.user2GroupListMap.entries, builder)

end Calls

end UnixUserGroupBuilder

/-- What the lines of a file say that can be read. -/
def entriesOf {α : Type} (read : String → ReadLine α) (lines : List String) : List α :=
  lines.filterMap fun line => (read line).toOption.join

namespace UnixFiles

variable (files : UnixFiles) (parseInt : String → Option Int)

def groups : List UnixGroup := entriesOf readGroup files.group

def users : List UnixUser := entriesOf (readUser parseInt) files.passwd

/-- The group of an id, which is that of its last line. -/
def primaryGroup (groupId : String) : Option String :=
  ((files.groups.filter (·.groupId = groupId)).getLast?).map (·.groupName)

/-- The group lists the user as a member. -/
def Lists (group user : String) : Prop :=
  ∃ entry ∈ files.groups, entry.groupName = group ∧ user ∈ entry.members

/-- The user has a line with an id that is not below the minimum and this primary group. -/
def Pushes (minimumUserId : Int) (user group : String) : Prop :=
  ∃ entry ∈ files.users parseInt, entry.userName = user ∧ minimumUserId ≤ entry.numUserId ∧
    files.primaryGroup entry.groupId = some group

end UnixFiles

namespace UnixUserGroupBuilder

variable (parseInt : String → Option Int)

/-- The users are pushed with what the files say, and with nothing else. -/
structure IsOfFiles (minimumUserId : Int) (files : UnixFiles)
    (pushed : List (String × List String)) : Prop where
  complete : ∀ user group, files.Pushes parseInt minimumUserId user group →
    ∃ groups, (user, groups) ∈ pushed
  sound : ∀ user groups, (user, groups) ∈ pushed →
    ∃ group, files.Pushes parseInt minimumUserId user group
  exact : ∀ user group, files.Pushes parseInt minimumUserId user group →
    ∀ groups, (user, groups) ∈ pushed →
      ∀ member, member ∈ groups ↔ member = group ∨ files.Lists member user

/-- **No memory.** A call completes, and pushes what the files say at the time. -/
def HasNoMemory (builder : UnixUserGroupBuilder) (files : UnixFiles) : Prop :=
  ∃ pushed, (builder.updateSink parseInt files).1 = .ok pushed ∧
    IsOfFiles parseInt builder.minimumUserId files pushed

/-- No line is out of bounds. -/
def Complete {α : Type} (read : String → ReadLine α) (lines : List String) : Prop :=
  ∀ line ∈ lines, ∃ entry, read line = .ok entry

/-- No line is short, no group of a user that is pushed is remembered that is gone, and the
lines of one user agree. -/
structure Forgets (builder : UnixUserGroupBuilder) (files : UnixFiles) : Prop where
  group : Complete readGroup files.group
  passwd : Complete (readUser parseInt) files.passwd
  remembered : ∀ user group, files.Pushes parseInt builder.minimumUserId user group →
    ∀ member ∈ builder.groupsOf user, member = group ∨ files.Lists member user
  agree : ∀ user group other, files.Pushes parseInt builder.minimumUserId user group →
    files.Pushes parseInt builder.minimumUserId user other →
      other = group ∨ files.Lists group user ∧ files.Lists other user

section Lines

variable {α : Type} {read : String → ReadLine α}
  {add : UnixUserGroupBuilder → α → UnixUserGroupBuilder}

/-- A file without short lines is read entry by entry. -/
theorem addLines_of_complete {lines : List String} (complete : Complete read lines)
    (builder : UnixUserGroupBuilder) :
    addLines read add builder lines = (.ok (), (entriesOf read lines).foldl add builder) := by
  induction lines generalizing builder with
  | nil => rfl
  | cons line lines ih =>
      obtain ⟨⟨entry, read⟩, rest⟩ := List.forall_mem_cons.mp complete
      unfold entriesOf
      rw [addLines, read, List.filterMap_cons, read]
      cases entry with
      | none => exact ih rest builder
      | some entry => exact ih rest (add builder entry)

theorem addLines_of_short {lines : List String} (short : ¬Complete read lines)
    (builder : UnixUserGroupBuilder) :
    ∃ failure after, addLines read add builder lines = (.error failure, after) := by
  induction lines generalizing builder with
  | nil => exact absurd (fun _ member => absurd member List.not_mem_nil) short
  | cons line lines ih =>
      rw [addLines]
      cases answer : read line with
      | error failure => exact ⟨failure, builder, rfl⟩
      | ok entry =>
          have rest : ¬Complete read lines := fun complete =>
            short (List.forall_mem_cons.mpr ⟨⟨entry, answer⟩, complete⟩)
          cases entry with
          | none => exact ih rest builder
          | some entry => exact ih rest (add builder entry)

end Lines

section Groups

variable {builder : UnixUserGroupBuilder}

theorem mem_groupsOf_addMember {groupName user member other : String} :
    member ∈ (builder.addMember groupName user).groupsOf other ↔
      member ∈ builder.groupsOf other ∨ member = groupName ∧ other = user := by
  have read : (builder.addMember groupName user).groupsOf other =
      if other = user then
        if (builder.groupsOf user).contains groupName then builder.groupsOf user
        else builder.groupsOf user ++ [groupName]
      else builder.groupsOf other := by
    unfold addMember groupsOf
    rw [AssocMap.get?_put]
    by_cases own : other = user
    · rw [if_pos own, if_pos own]
      rfl
    · rw [if_neg own, if_neg own]
  rw [read]
  by_cases own : other = user
  · rw [if_pos own, own, and_iff_left rfl]
    split
    · next known =>
        refine (or_iff_left_of_imp ?_).symm
        rintro rfl
        exact List.contains_iff_mem.mp known
    · rw [List.mem_append, List.mem_singleton]
  · rw [if_neg own, or_iff_left fun both => own both.2]

/-- What the members of a group leave of the builder. -/
theorem foldl_addMember (groupName : String) (members : List String) :
    (members.foldl (addMember · groupName) builder).user2GroupListMap =
        builder.user2GroupListMap ∧
      (members.foldl (addMember · groupName) builder).groupId2groupNameMap =
        builder.groupId2groupNameMap ∧
      (members.foldl (addMember · groupName) builder).minimumUserId = builder.minimumUserId ∧
      ∀ member user, member ∈ (members.foldl (addMember · groupName) builder).groupsOf user ↔
        member ∈ builder.groupsOf user ∨ member = groupName ∧ user ∈ members := by
  induction members generalizing builder with
  | nil => simp
  | cons first members ih =>
      obtain ⟨users, names, minimum, groups⟩ := @ih (builder.addMember groupName first)
      refine ⟨users, names, minimum, fun member user => ?_⟩
      rw [List.foldl_cons, groups, mem_groupsOf_addMember, List.mem_cons, and_or_left, or_assoc]

/-- What groups leave of a builder. -/
structure AfterGroups (before : UnixUserGroupBuilder) (groups : List UnixGroup)
    (after : UnixUserGroupBuilder) : Prop where
  users : after.user2GroupListMap = before.user2GroupListMap
  minimum : after.minimumUserId = before.minimumUserId
  names : ∀ groupId, after.groupId2groupNameMap.get? groupId =
    (((groups.filter (·.groupId = groupId)).getLast?).map (·.groupName)).or
      (before.groupId2groupNameMap.get? groupId)
  members : ∀ member user, member ∈ after.groupsOf user ↔ member ∈ before.groupsOf user ∨
    ∃ entry ∈ groups, entry.groupName = member ∧ user ∈ entry.members

theorem get?_putGroupName (groupId groupName other : String) :
    (builder.putGroupName groupId groupName).groupId2groupNameMap.get? other =
      if other = groupId then some groupName else builder.groupId2groupNameMap.get? other := by
  unfold putGroupName
  rw [AssocMap.get?_put]
  by_cases own : other = groupId
  · rw [if_pos own, if_pos own]
  · rw [if_neg own, if_neg own]
    split
    · rw [AssocMap.get?_remove, if_neg own]
    · rfl

theorem afterGroups (before : UnixUserGroupBuilder) (groups : List UnixGroup) :
    AfterGroups before groups (groups.foldl addGroup before) := by
  induction groups generalizing before with
  | nil => exact ⟨rfl, rfl, fun _ => rfl, by simp⟩
  | cons group groups ih =>
      have rest := ih (before.addGroup group)
      obtain ⟨users, names, minimum, members⟩ : _ ∧ (before.addGroup group).groupId2groupNameMap =
          _ ∧ _ ∧ ∀ member user, member ∈ (before.addGroup group).groupsOf user ↔ _ :=
        foldl_addMember group.groupName group.members
      refine ⟨rest.users.trans users, rest.minimum.trans minimum, fun groupId => ?_,
        fun member user => ?_⟩
      · rw [List.foldl_cons, rest.names, names, get?_putGroupName]
        by_cases own : group.groupId = groupId
        · rw [List.filter_cons, if_pos (decide_eq_true own), List.getLast?_cons, if_pos own.symm]
          cases (groups.filter (·.groupId = groupId)).getLast? with
          | none => rfl
          | some last => rfl
        · rw [List.filter_cons, if_neg (mt of_decide_eq_true own), if_neg fun same => own same.symm]
      · rw [List.foldl_cons, rest.members, members, or_assoc, List.exists_mem_cons_iff, eq_comm]
        rfl

end Groups

section Users

variable {builder : UnixUserGroupBuilder} {user : UnixUser} {name : String}
  {groups : List String}

/-- The user is put into the map with these groups. -/
def Puts (builder : UnixUserGroupBuilder) (user : UnixUser) (name : String)
    (groups : List String) : Prop :=
  user.userName = name ∧ builder.minimumUserId ≤ user.numUserId ∧
    ∃ group, builder.groupId2groupNameMap.get? user.groupId = some group ∧
      groups = group :: builder.groupsOf name

theorem addUser_of_puts (puts : builder.Puts user name groups) :
    builder.addUser user =
      { builder with user2GroupListMap := builder.user2GroupListMap.put name groups } := by
  obtain ⟨rfl, enough, group, found, rfl⟩ := puts
  unfold addUser
  rw [if_pos enough, found]

theorem addUser_of_not_puts (puts : ¬∃ name groups, builder.Puts user name groups) :
    builder.addUser user = builder := by
  unfold addUser
  split
  · next enough =>
      split
      · rfl
      · next group found => exact absurd ⟨_, _, rfl, enough, group, found, rfl⟩ puts
  · rfl

/-- What users leave of a builder. -/
structure AfterUsers (before : UnixUserGroupBuilder) (users : List UnixUser)
    (after : UnixUserGroupBuilder) : Prop where
  remembered : after.internalUser2GroupListMap = before.internalUser2GroupListMap
  names : after.groupId2groupNameMap = before.groupId2groupNameMap
  minimum : after.minimumUserId = before.minimumUserId
  sound : ∀ name groups, after.user2GroupListMap.get? name = some groups →
    before.user2GroupListMap.get? name = some groups ∨
      ∃ user ∈ users, before.Puts user name groups
  complete : ∀ name, (∃ user ∈ users, ∃ groups, before.Puts user name groups) →
    ∃ groups, after.user2GroupListMap.get? name = some groups
  kept : ∀ name groups, before.user2GroupListMap.get? name = some groups →
    ∃ groups, after.user2GroupListMap.get? name = some groups

theorem afterUsers (before : UnixUserGroupBuilder) (users : List UnixUser) :
    AfterUsers before users (users.foldl addUser before) := by
  induction users generalizing before with
  | nil =>
      refine ⟨rfl, rfl, rfl, fun _ _ => .inl, ?_, fun _ groups found => ⟨groups, found⟩⟩
      rintro _ ⟨_, member, _⟩
      nomatch member
  | cons user users ih =>
      by_cases puts : ∃ name groups, before.Puts user name groups
      · obtain ⟨name, groups, puts⟩ := puts
        rw [List.foldl_cons, addUser_of_puts puts]
        have rest := ih { before with
          user2GroupListMap := before.user2GroupListMap.put name groups }
        have kept : ∀ other others, before.user2GroupListMap.get? other = some others →
            ∃ others, (before.user2GroupListMap.put name groups).get? other = some others := by
          intro other others found
          rw [AssocMap.get?_put]
          split
          · exact ⟨groups, rfl⟩
          · exact ⟨others, found⟩
        refine ⟨rest.remembered, rest.names, rest.minimum, fun other others found => ?_,
          fun other => ?_, fun other others found => ?_⟩
        · obtain found | ⟨later, member, puts⟩ := rest.sound other others found
          · rw [AssocMap.get?_put] at found
            split at found
            · next own =>
                cases found
                exact .inr ⟨user, List.mem_cons_self, own ▸ puts⟩
            · exact .inl found
          · exact .inr ⟨later, List.mem_cons_of_mem _ member, puts⟩
        · rintro ⟨entry, member, others, written⟩
          obtain rfl | later := List.mem_cons.mp member
          · obtain rfl : name = other := puts.1.symm.trans written.1
            exact rest.kept name groups ((AssocMap.get?_put _ _ _ _).trans (if_pos rfl))
          · exact rest.complete other ⟨entry, later, others, written⟩
        · obtain ⟨others, found⟩ := kept other others found
          exact rest.kept other others found
      · rw [List.foldl_cons, addUser_of_not_puts puts]
        have rest := ih before
        refine ⟨rest.remembered, rest.names, rest.minimum, fun other others found => ?_,
          fun other => ?_, rest.kept⟩
        · refine (rest.sound other others found).imp_right ?_
          rintro ⟨later, member, puts⟩
          exact ⟨later, List.mem_cons_of_mem _ member, puts⟩
        · rintro ⟨entry, member, others, written⟩
          obtain rfl | later := List.mem_cons.mp member
          · exact absurd ⟨other, others, written⟩ puts
          · exact rest.complete other ⟨entry, later, others, written⟩

end Users

section Step

variable {parseInt : String → Option Int} {builder : UnixUserGroupBuilder} {files : UnixFiles}

/-- The builder after the groups of a call. -/
def grouped (builder : UnixUserGroupBuilder) (files : UnixFiles) : UnixUserGroupBuilder :=
  files.groups.foldl addGroup
    { builder with user2GroupListMap := ∅, groupId2groupNameMap := ∅ }

/-- The builder after a call. -/
def finished (parseInt : String → Option Int) (builder : UnixUserGroupBuilder)
    (files : UnixFiles) : UnixUserGroupBuilder :=
  (files.users parseInt).foldl addUser (builder.grouped files)

theorem updateSink_of_complete (group : Complete readGroup files.group)
    (passwd : Complete (readUser parseInt) files.passwd) :
    builder.updateSink parseInt files =
      (.ok (builder.finished parseInt files).user2GroupListMap.entries,
        builder.finished parseInt files) := by
  unfold updateSink buildUserGroupInfo buildUnixGroupList buildUnixUserList
  dsimp only
  rw [addLines_of_complete group]
  dsimp only
  rw [addLines_of_complete passwd]
  rfl

/-- A short line ends the call with an exception. -/
theorem complete_of_updateSink_eq_ok {pushed : List (String × List String)}
    (completed : (builder.updateSink parseInt files).1 = .ok pushed) :
    Complete readGroup files.group ∧ Complete (readUser parseInt) files.passwd := by
  unfold updateSink buildUserGroupInfo buildUnixGroupList buildUnixUserList at completed
  dsimp only at completed
  by_cases group : Complete readGroup files.group
  · refine ⟨group, ?_⟩
    by_contra passwd
    obtain ⟨_, _, failed⟩ := @addLines_of_short _ _ addUser _ passwd (builder.grouped files)
    rw [addLines_of_complete group] at completed
    dsimp only at completed
    unfold grouped UnixFiles.groups at failed
    rw [failed] at completed
    nomatch completed
  · obtain ⟨_, _, failed⟩ := @addLines_of_short _ _ addGroup _ group
      { builder with user2GroupListMap := ∅, groupId2groupNameMap := ∅ }
    rw [failed] at completed
    nomatch completed

theorem primaryGroup_grouped (groupId : String) :
    (builder.grouped files).groupId2groupNameMap.get? groupId = files.primaryGroup groupId := by
  unfold grouped UnixFiles.primaryGroup
  rw [(afterGroups _ _).names]
  exact Option.or_none

theorem mem_groupsOf_grouped {member user : String} :
    member ∈ (builder.grouped files).groupsOf user ↔
      member ∈ builder.groupsOf user ∨ files.Lists member user := (afterGroups _ _).members _ _

theorem puts_grouped_iff {entry : UnixUser} {name : String} {groups : List String} :
    (builder.grouped files).Puts entry name groups ↔ entry.userName = name ∧
      builder.minimumUserId ≤ entry.numUserId ∧ ∃ group,
        files.primaryGroup entry.groupId = some group ∧
          groups = group :: (builder.grouped files).groupsOf name := by
  have minimum : (builder.grouped files).minimumUserId = builder.minimumUserId :=
    (afterGroups _ _).minimum
  unfold Puts
  rw [primaryGroup_grouped, minimum]

/-- What is pushed: a primary group, the groups that are remembered and those that list the
user. -/
theorem exists_of_mem_finished {user : String} {groups : List String}
    (pushed : (user, groups) ∈ (builder.finished parseInt files).user2GroupListMap.entries) :
    ∃ group, files.Pushes parseInt builder.minimumUserId user group ∧
      ∀ member, member ∈ groups ↔
        member = group ∨ member ∈ builder.groupsOf user ∨ files.Lists member user := by
  have after := afterUsers (builder.grouped files) (files.users parseInt)
  have fresh : (builder.grouped files).user2GroupListMap = ∅ := (afterGroups _ _).users
  obtain old | ⟨entry, listed, puts⟩ :=
    after.sound user groups (AssocMap.get?_eq_some_iff.mpr pushed)
  · rw [fresh] at old
    nomatch old
  · obtain ⟨named, enough, group, primary, rfl⟩ := puts_grouped_iff.mp puts
    refine ⟨group, ⟨entry, listed, named, enough, primary⟩, fun member => ?_⟩
    rw [List.mem_cons, mem_groupsOf_grouped]

theorem exists_mem_finished {user group : String}
    (pushes : files.Pushes parseInt builder.minimumUserId user group) :
    ∃ groups, (user, groups) ∈ (builder.finished parseInt files).user2GroupListMap.entries := by
  obtain ⟨entry, listed, named, enough, primary⟩ := pushes
  have after := afterUsers (builder.grouped files) (files.users parseInt)
  obtain ⟨groups, found⟩ := after.complete user ⟨entry, listed, _,
    puts_grouped_iff.mpr ⟨named, enough, group, primary, rfl⟩⟩
  exact ⟨groups, AssocMap.get?_eq_some_iff.mp found⟩

/-- **One call.** The files are pushed as they are exactly when no line is short, no group of a
user is remembered that is gone, and the lines of one user agree. -/
theorem hasNoMemory_iff :
    HasNoMemory parseInt builder files ↔ Forgets parseInt builder files := by
  constructor
  · rintro ⟨pushed, completed, ofFiles⟩
    obtain ⟨group, passwd⟩ := complete_of_updateSink_eq_ok completed
    rw [updateSink_of_complete group passwd] at completed
    cases completed
    refine ⟨group, passwd, fun user group pushes member remembered => ?_,
      fun user group other pushes otherPushes => ?_⟩
    · obtain ⟨groups, listed⟩ := ofFiles.complete user group pushes
      obtain ⟨_, _, members⟩ := exists_of_mem_finished listed
      exact (ofFiles.exact user group pushes groups listed member).mp
        ((members member).mpr (.inr (.inl remembered)))
    · obtain ⟨groups, listed⟩ := ofFiles.complete user group pushes
      have own := ofFiles.exact user group pushes groups listed
      have others := ofFiles.exact user other otherPushes groups listed
      have first := (others group).mp ((own group).mpr (.inl rfl))
      have second := (own other).mp ((others other).mpr (.inl rfl))
      by_cases same : other = group
      · exact .inl same
      · exact .inr ⟨first.resolve_left fun equal => same equal.symm, second.resolve_left same⟩
  · intro forgets
    refine ⟨_, congrArg Prod.fst (updateSink_of_complete forgets.group forgets.passwd),
      fun user group => exists_mem_finished, fun user groups listed => ?_,
      fun user group pushes groups listed member => ?_⟩
    · obtain ⟨group, pushes, _⟩ := exists_of_mem_finished listed
      exact ⟨group, pushes⟩
    · obtain ⟨last, lastPushes, members⟩ := exists_of_mem_finished listed
      rw [members]
      have agree := forgets.agree user group last pushes lastPushes
      constructor
      · rintro (rfl | remembered | lists)
        · exact agree.imp_right And.right
        · exact forgets.remembered user group pushes member remembered
        · exact .inr lists
      · rintro (rfl | lists)
        · exact agree.elim (fun same => .inl same.symm) fun both => .inr (.inr both.1)
        · exact .inr (.inr lists)

/-- A call that completes remembers what the file lists as well. -/
theorem mem_groupsOf_updateSink (group : Complete readGroup files.group)
    (passwd : Complete (readUser parseInt) files.passwd) {member user : String} :
    member ∈ (builder.updateSink parseInt files).2.groupsOf user ↔
      member ∈ builder.groupsOf user ∨ files.Lists member user := by
  have after := afterUsers (builder.grouped files) (files.users parseInt)
  rw [updateSink_of_complete group passwd, ← mem_groupsOf_grouped, groupsOf, finished,
    after.remembered]
  rfl

end Step

section Runs

variable {parseInt : String → Option Int}

/-- What is remembered after some calls is what any of their files listed. -/
theorem mem_groupsOf_final {member user : String} (calls : List UnixFiles)
    (complete : ∀ files ∈ calls, Complete readGroup files.group ∧
      Complete (readUser parseInt) files.passwd) (builder : UnixUserGroupBuilder) :
    member ∈ (Run.final (fun builder files => updateSink builder parseInt files) builder
        calls).groupsOf user ↔
      member ∈ builder.groupsOf user ∨ ∃ files ∈ calls, files.Lists member user := by
  induction calls generalizing builder with
  | nil => simp [Run.final]
  | cons files calls ih =>
      obtain ⟨⟨group, passwd⟩, rest⟩ := List.forall_mem_cons.mp complete
      rw [Run.final, ih rest, mem_groupsOf_updateSink group passwd, or_assoc,
        List.exists_mem_cons_iff]

/-- **The users of the host.** In a run, every call pushes what the files say at its time
exactly when every call finds no short line, no group of a user that is remembered and gone, and
no two lines of a user that differ. -/
theorem no_memory_iff (builder : UnixUserGroupBuilder) (calls : List UnixFiles) :
    Run.Throughout (fun builder files => updateSink builder parseInt files)
        (HasNoMemory parseInt) builder calls ↔
      Run.Throughout (fun builder files => updateSink builder parseInt files)
        (Forgets parseInt) builder calls :=
  @Run.throughout_congr _ _ _ _ (fun _ => True) _ _ (fun _ _ _ => hasNoMemory_iff)
    (fun _ _ _ _ => trivial) calls builder trivial

end Runs

section Example

/-- A user of the group `staff`, which some groups list. -/
def annIn (groups : List String) : UnixFiles where
  passwd := ["ann:x:1000:20"]
  group := "staff:x:20:" :: groups

def parseThousand (text : String) : Option Int := if text = "1000" then some 1000 else none

/-- **A member that left.** The group that listed her is pushed again. -/
theorem left_group_reappears :
    ¬Run.Throughout (fun builder files => updateSink builder parseThousand files)
      (HasNoMemory parseThousand) { minimumUserId := 500 } [annIn ["dev:x:10:ann"], annIn []] := by
  rintro ⟨_, second, _⟩
  have pushes : (annIn []).Pushes parseThousand 500 "ann" "staff" :=
    ⟨⟨"ann", 1000, "20"⟩, by decide, rfl, by decide, by decide⟩
  obtain same | ⟨entry, listed, _, member⟩ :=
    (hasNoMemory_iff.mp second).remembered "ann" "staff" pushes "dev" (by decide)
  · exact absurd same (by decide)
  · have only : (annIn []).groups = [⟨"staff", "20", []⟩] := by decide
    rw [only, List.mem_singleton] at listed
    rw [listed] at member
    nomatch member

end Example

end UnixUserGroupBuilder

end Ranger
