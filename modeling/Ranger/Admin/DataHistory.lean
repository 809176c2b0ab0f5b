import Ranger.Admin.PolicyEdits
import Ranger.Admin.Transactions
import Ranger.Foundation.Journal
import Ranger.Foundation.Table

/-! # The history of the policies

Every policy that is stored or deleted is written to a table of the history, with its
version and the time. A policy of the past is read back by its version or by a moment.
The version of an update is the one the caller sends plus one.
-/

namespace Ranger

open Foundation

/-- Jackson's object mapper, on policies: it reads back what it wrote. -/
class ObjectMapper (Json : outParam Type) where
  writeValueAsString : RangerPolicy → Json
  readValue : Json → RangerPolicy
  readValue_writeValueAsString : ∀ policy, readValue (writeValueAsString policy) = policy

def AppConstants.CLASS_TYPE_RANGER_POLICY : Int := 1020

inductive DataHistAction where
  | ACTION_CREATE
  | ACTION_UPDATE
  | ACTION_DELETE

/-- A row of `x_data_hist`. -/
structure XXDataHist (Json : Type) where
  createTime : Int
  updateTime : Int
  version : Option Int
  objectGuid : String
  objectClassType : Int
  objectId : Option Int
  objectName : String
  action : DataHistAction
  fromTime : Int
  toTime : Option Int := none
  content : Json

/-- What `getSingleResult` finds: nothing is no result, and several rows are an error. -/
def getSingleResult {ρ : Type} : List ρ → Throws (Option ρ)
  | [] => .ok none
  | [row] => .ok (some row)
  | _ => .error none

namespace XXDataHistDao

variable {Json : Type} (dataHist : Table (XXDataHist Json))

/-- The first row of the object: the query has no `desc`. -/
def findLatestByObjectClassTypeAndObjectId (classType : Int) (objectId : Option Int) :
    Option (Int × XXDataHist Json) :=
  match objectId with
  | none => none
  | some id =>
      dataHist.find? fun obj => obj.objectId == some id && obj.objectClassType == classType

def findObjByEventTimeClassTypeAndId (eventTime classType objId : Int) :
    Option (XXDataHist Json) :=
  ((dataHist.rows.entries.map (·.2)).filter fun obj =>
    obj.objectClassType = classType ∧ obj.objectId = some objId ∧
      obj.createTime ≤ eventTime).getLast?

def findObjectByVersionNumber (objId classType : Int) (versionNo : Int32) :
    Throws (Option (XXDataHist Json)) :=
  getSingleResult ((dataHist.rows.entries.map (·.2)).filter fun obj =>
    obj.objectClassType = classType ∧ obj.objectId = some objId ∧
      obj.version = some versionNo.toInt)

end XXDataHistDao

open AppConstants

variable {Json : Type} [ObjectMapper Json]

/-- `RangerDataHistService.createObjectDataHistory`, for a policy. -/
def createObjectDataHistory (dataHist : Table (XXDataHist Json)) (currentDate : Int)
    (policy : RangerPolicy) (action : DataHistAction) : Throws (Table (XXDataHist Json)) :=
  let created := dataHist.insert
    { objectId := policy.id
      objectGuid := policy.guid
      createTime := currentDate
      action := action
      version := policy.version
      updateTime := currentDate
      fromTime := currentDate
      objectName := policy.name
      objectClassType := CLASS_TYPE_RANGER_POLICY
      content := ObjectMapper.writeValueAsString policy }
  match action with
  | .ACTION_CREATE => .ok created
  | .ACTION_UPDATE | .ACTION_DELETE =>
      match XXDataHistDao.findLatestByObjectClassTypeAndObjectId created CLASS_TYPE_RANGER_POLICY
        policy.id with
      | none => .error (some ("Error updating DataHistory Object. ObjectName: " ++ policy.name))
      | some (id, prevHist) =>
          .ok (created.replace id
            { prevHist with
              updateTime := currentDate
              toTime := some currentDate
              objectName := policy.name })

/-- The policy store with the table of the history. -/
structure PolicyHistory (Json : Type) where
  store : ServiceDBStore
  dataHist : Table (XXDataHist Json)

namespace PolicyHistory

section Calls

variable (db : PolicyHistory Json) (currentDate : Int)

def createPolicy (policy : RangerPolicy) : Throws (RangerPolicy × PolicyHistory Json) := do
  let (createdPolicy, store) ← db.store.createPolicy policy
  let dataHist ← createObjectDataHistory db.dataHist currentDate createdPolicy .ACTION_CREATE
  .ok (createdPolicy, ⟨store, dataHist⟩)

def updatePolicy [Platform] (policy : RangerPolicy) :
    Throws (RangerPolicy × PolicyHistory Json) := do
  let (updPolicy, store) ← db.store.updatePolicy policy
  let dataHist ← createObjectDataHistory db.dataHist currentDate updPolicy .ACTION_UPDATE
  .ok (updPolicy, ⟨store, dataHist⟩)

/-- The version that is deleted is the stored one plus one. -/
def deletePolicy (policyId : Int) : Throws (PolicyHistory Json) := do
  match ← db.store.getPolicy policyId with
  | none => .error (some ("no policy exists with ID=" ++ toString policyId))
  | some policy =>
      let store ← db.store.deletePolicy policyId
      let dataHist ← createObjectDataHistory db.dataHist currentDate
        { policy with version := some (nextPolicyVersion policy.version) } .ACTION_DELETE
      .ok ⟨store, dataHist⟩

/-- The message names the time. -/
def getPolicyFromEventTime (eventTime policyId : Int) : Throws RangerPolicy :=
  match XXDataHistDao.findObjByEventTimeClassTypeAndId db.dataHist eventTime
    CLASS_TYPE_RANGER_POLICY policyId with
  | none => .error (some ("No policy history found for given time: " ++ toString eventTime))
  | some xDataHist => .ok (ObjectMapper.readValue xDataHist.content)

def getPolicyForVersionNumber (policyId : Int) (versionNo : Int32) : Throws RangerPolicy := do
  match ← XXDataHistDao.findObjectByVersionNumber db.dataHist policyId CLASS_TYPE_RANGER_POLICY
    versionNo with
  | none => .error (some "No Policy found for given version.")
  | some xDataHist => .ok (ObjectMapper.readValue xDataHist.content)

end Calls

end PolicyHistory

/-- A call that edits policies, with the time it is made at. -/
structure PolicyEdit where
  time : Int
  call : PolicyCall

namespace PolicyHistory

variable [Platform]

def perform (db : PolicyHistory Json) (edit : PolicyEdit) : Throws (PolicyHistory Json) :=
  match edit.call with
  | .createPolicy policy => (db.createPolicy edit.time policy).map (·.2)
  | .updatePolicy policy => (db.updatePolicy edit.time policy).map (·.2)
  | .deletePolicy id => db.deletePolicy edit.time id

/-- A call that throws is rolled back. -/
def step (db : PolicyHistory Json) (edit : PolicyEdit) : Unit × PolicyHistory Json :=
  ((), Outcome.getState db (db.perform edit))

def run (db : PolicyHistory Json) (edits : List PolicyEdit) : PolicyHistory Json :=
  Run.final step db edits

/-- What is stored at a moment of a run. -/
def storedAt (start : PolicyHistory Json) (edits : List PolicyEdit) (moment : Int) :
    List RangerPolicy :=
  (start.run (edits.takeWhile (·.time ≤ moment))).store.policies

end PolicyHistory

/-- What stays as it was written of a row of the history. -/
structure HistoryEntry (Json : Type) where
  objectId : Option Int
  version : Option Int
  createTime : Int
  content : Json

def XXDataHist.entry (obj : XXDataHist Json) : HistoryEntry Json where
  objectId := obj.objectId
  version := obj.version
  createTime := obj.createTime
  content := obj.content

/-- The entry of a policy that is written at a time. -/
def HistoryEntry.of (currentDate : Int) (policy : RangerPolicy) : HistoryEntry Json where
  objectId := policy.id
  version := policy.version
  createTime := currentDate
  content := ObjectMapper.writeValueAsString policy

/-- An object under one of its versions. -/
def HistoryEntry.key (entry : HistoryEntry Json) : Option Int × Option Int :=
  (entry.objectId, entry.version)

@[simp] theorem HistoryEntry.objectId_of (currentDate : Int) (policy : RangerPolicy) :
    (HistoryEntry.of currentDate policy).objectId = policy.id := rfl

@[simp] theorem HistoryEntry.key_of (currentDate : Int) (policy : RangerPolicy) :
    (HistoryEntry.of currentDate policy).key = (policy.id, policy.version) := rfl

/-- The history of the policies, in the order it was written. -/
def journal (dataHist : Table (XXDataHist Json)) : List (HistoryEntry Json) :=
  ((dataHist.rows.entries.map fun entry => (entry.2.objectClassType, entry.2.entry)).filter
    (·.1 = CLASS_TYPE_RANGER_POLICY)).map (·.2)

section Journal

variable {dataHist after : Table (XXDataHist Json)}

omit [ObjectMapper Json] in
theorem filter_rows (holds : HistoryEntry Json → Prop) [DecidablePred holds] :
    ((dataHist.rows.entries.map (·.2)).filter fun obj =>
      obj.objectClassType = CLASS_TYPE_RANGER_POLICY ∧ holds obj.entry).map
        XXDataHist.entry = (journal dataHist).filter holds := by
  unfold journal
  simp only [List.filter_map, List.map_map, List.filter_filter, Function.comp_def]
  refine congrArg _ (List.filter_congr fun entry _ => ?_)
  rw [Bool.and_comm, Bool.decide_and]

omit [ObjectMapper Json] in
theorem get?_of_findLatest {classType id : Int} {objectId : Option Int}
    {prevHist : XXDataHist Json}
    (latest : XXDataHistDao.findLatestByObjectClassTypeAndObjectId dataHist classType objectId =
      some (id, prevHist)) : dataHist.get? id = some prevHist := by
  cases objectId with
  | none => nomatch latest
  | some objectId =>
      unfold XXDataHistDao.findLatestByObjectClassTypeAndObjectId at latest
      exact (Table.find?_eq_some latest).1

omit [ObjectMapper Json] in
theorem journal_insert {obj : XXDataHist Json}
    (own : obj.objectClassType = CLASS_TYPE_RANGER_POLICY) :
    journal (dataHist.insert obj) = journal dataHist ++ [obj.entry] := by
  unfold journal
  rw [Table.entries_insert, List.map_append, List.filter_append, List.map_append]
  simp only [List.map_cons, List.map_nil, own, decide_true, List.filter_cons_of_pos,
    List.filter_nil]

omit [ObjectMapper Json] in
theorem journal_replace {id : Int} {old changed : XXDataHist Json}
    (found : dataHist.get? id = some old) (sameType : changed.objectClassType = old.objectClassType)
    (same : changed.entry = old.entry) :
    journal (dataHist.replace id changed) = journal dataHist := by
  unfold journal
  rw [@Table.map_replace _ _ dataHist id old changed (fun obj => (obj.objectClassType, obj.entry))
    found (Prod.ext sameType same)]

/-- A policy is written behind what was written before; the row that is marked as replaced
stays what it was. -/
theorem journal_createObjectDataHistory {currentDate : Int} {policy : RangerPolicy}
    {action : DataHistAction}
    (saved : createObjectDataHistory dataHist currentDate policy action = .ok after) :
    journal after = journal dataHist ++ [.of currentDate policy] := by
  unfold createObjectDataHistory at saved
  cases action with
  | ACTION_CREATE =>
      cases saved
      exact journal_insert rfl
  | ACTION_UPDATE | ACTION_DELETE =>
      dsimp only at saved
      split at saved
      · cases saved
      · next id prevHist latest =>
          cases saved
          calc
            journal (Table.replace _ id _) = journal (dataHist.insert _) := by
              refine journal_replace (get?_of_findLatest latest) ?_ ?_ <;> rfl
            _ = journal dataHist ++ [.of currentDate policy] := journal_insert rfl

theorem getSingleResult_eq_some {ρ : Type} {rows : List ρ} {row : ρ} :
    getSingleResult rows = .ok (some row) ↔ rows = [row] := by
  match rows with
  | [] => exact ⟨nofun, nofun⟩
  | [only] => simp only [getSingleResult, Except.ok.injEq, Option.some.injEq, List.cons.injEq,
      and_true]
  | _ :: _ :: _ => exact ⟨nofun, fun same => by simp at same⟩

end Journal

namespace PolicyHistory

variable (db : PolicyHistory Json) {policy : RangerPolicy}

/-- The last entry of the policy by the time is read. -/
theorem getPolicyFromEventTime_eq_ok {eventTime policyId : Int} :
    db.getPolicyFromEventTime eventTime policyId = .ok policy ↔
      ∃ entry, Journal.asOf HistoryEntry.objectId HistoryEntry.createTime (journal db.dataHist)
          (some policyId) eventTime = some entry ∧
        ObjectMapper.readValue entry.content = policy := by
  have rows := @filter_rows _ db.dataHist (fun entry =>
    entry.objectId = some policyId ∧ entry.createTime ≤ eventTime) _
  have read : Journal.asOf HistoryEntry.objectId HistoryEntry.createTime (journal db.dataHist)
      (some policyId) eventTime = (XXDataHistDao.findObjByEventTimeClassTypeAndId db.dataHist
        eventTime CLASS_TYPE_RANGER_POLICY policyId).map XXDataHist.entry := by
    unfold Journal.asOf XXDataHistDao.findObjByEventTimeClassTypeAndId
    rw [← rows, List.getLast?_map]
    rfl
  unfold getPolicyFromEventTime
  rw [read]
  cases XXDataHistDao.findObjByEventTimeClassTypeAndId db.dataHist eventTime
    CLASS_TYPE_RANGER_POLICY policyId with
  | none => exact ⟨nofun, nofun⟩
  | some xDataHist =>
      simp only [Except.ok.injEq, Option.map_some, Option.some.injEq, exists_eq_left',
        XXDataHist.entry]

/-- The only entry of the policy under the version is read. -/
theorem getPolicyForVersionNumber_eq_ok {policyId : Int} {versionNo : Int32} :
    db.getPolicyForVersionNumber policyId versionNo = .ok policy ↔
      ∃ entry, (journal db.dataHist).filter (·.key = (some policyId, some versionNo.toInt)) =
          [entry] ∧ ObjectMapper.readValue entry.content = policy := by
  have rows := @filter_rows _ db.dataHist (fun entry =>
    entry.objectId = some policyId ∧ entry.version = some versionNo.toInt) _
  unfold getPolicyForVersionNumber XXDataHistDao.findObjectByVersionNumber
  simp only [HistoryEntry.key, Prod.mk.injEq, ← rows, List.map_eq_singleton_iff, XXDataHist.entry]
  constructor
  · intro succeeds
    obtain ⟨found, single, succeeds⟩ := Outcome.bind_eq_ok.mp succeeds
    cases found with
    | none => nomatch succeeds
    | some xDataHist =>
        cases succeeds
        exact ⟨_, ⟨xDataHist, getSingleResult_eq_some.mp single, rfl⟩, rfl⟩
  · intro ⟨_, ⟨xDataHist, only, rfl⟩, read⟩
    refine Outcome.bind_eq_ok.mpr ⟨_, getSingleResult_eq_some.mpr only, ?_⟩
    exact congrArg Except.ok read

end PolicyHistory

end Ranger
