import Mathlib.Data.Int.ConditionallyCompleteOrder
import Mathlib.Order.ConditionallyCompleteLattice.Indexed
import Mathlib.Order.WithBot
import Ranger.Admin.ServiceStore
import Ranger.Foundation.Outcome
import Ranger.Foundation.Run

/-! # Policy edits as overlapping transactions

A call that edits policies reads the row of the service, changes policy rows,
writes the policy version it read plus one and commits. Reads see committed rows
only, and the row of a service carries no version of its own for a lock. A client
asks for policies with the version it holds and keeps what it has while the
service still shows that version.
-/

namespace Ranger

open Foundation

/-- The calls of the store that edit policies. -/
inductive PolicyCall where
  | createPolicy (policy : RangerPolicy)
  | updatePolicy (policy : RangerPolicy)
  | deletePolicy (id : Int)

/-- What a transaction does to the rows of the policies. -/
inductive PolicyChange where
  | insert (row : RangerPolicy)
  | replace (id : Option Int) (row : RangerPolicy)
  | remove (id : Int)

def PolicyChange.apply (rows : List RangerPolicy) : PolicyChange → List RangerPolicy
  | insert row => rows ++ [row]
  | replace id row => rows.map fun old => if old.id = id then row else old
  | remove id => rows.filter (·.id != some id)

theorem lt_nextPolicyVersion (policyVersion : Option Int) :
    @LT.lt (WithBot Int) _ policyVersion (some (nextPolicyVersion policyVersion)) := by
  cases policyVersion with
  | none => exact WithBot.bot_lt_coe 1
  | some policyVersion => exact WithBot.coe_lt_coe.mpr (Int.lt_succ policyVersion)

namespace ServiceDBStore

section Calls

variable [Platform] (store : ServiceDBStore)

/-- The store after a call. -/
def perform : PolicyCall → Throws ServiceDBStore
  | .createPolicy policy => (store.createPolicy policy).map (·.2)
  | .updatePolicy policy => (store.updatePolicy policy).map (·.2)
  | .deletePolicy id => store.deletePolicy id

/-- The row of the service a call begins with. -/
def readService : PolicyCall → Option RangerService
  | .createPolicy policy => store.findService policy.service
  | .updatePolicy policy => store.findService policy.service
  | .deletePolicy id =>
      (store.findPolicy (some id)).bind fun policy => store.findService policy.service

/-- What a call does to the rows of the policies, once its tests pass. -/
def changeOf : PolicyCall → Throws PolicyChange
  | .createPolicy policy => (store.createPolicy policy).map fun created => .insert created.1
  | .updatePolicy policy => (store.updatePolicy policy).map fun updated =>
      .replace policy.id updated.1
  | .deletePolicy id => (store.deletePolicy id).map fun _ => .remove id

/-- The ids a call takes from the sequence of policy ids. -/
def idsTaken : PolicyCall → Int
  | .createPolicy _ => 1
  | .updatePolicy _ => 0
  | .deletePolicy _ => 0

/-- The store once a transaction commits the rows it wrote. -/
def committing (service : RangerService) (change : PolicyChange) : ServiceDBStore :=
  updatePolicyVersion { store with policies := change.apply store.policies } service

end Calls

section Rows

variable (store : ServiceDBStore) (service : RangerService) (change : PolicyChange)

/-- The row of a service after a commit to the service that was read. -/
def committedRow (row : RangerService) : RangerService :=
  if row.id = service.id then
    { row with policyVersion := some (nextPolicyVersion service.policyVersion) }
  else row

@[simp] theorem committedRow_id (row : RangerService) : (committedRow service row).id = row.id := by
  unfold committedRow
  split <;> rfl

@[simp] theorem committedRow_name (row : RangerService) :
    (committedRow service row).name = row.name := by
  unfold committedRow
  split <;> rfl

theorem services_committing :
    (store.committing service change).services = store.services.map (committedRow service) := by
  unfold committing updatePolicyVersion committedRow nextPolicyVersion
  cases service.policyVersion <;> rfl

theorem findService_committing (name : String) :
    (store.committing service change).findService name =
      (store.findService name).map (committedRow service) := by
  unfold findService
  rw [services_committing, List.find?_map]
  simp only [Function.comp_def, committedRow_name]

end Rows

end ServiceDBStore

/-- How far a transaction has come; one that has written its service holds the lock
of the row until it ends. -/
inductive Transaction where
  | read (call : PolicyCall) (service : RangerService)
  | changed (service : RangerService) (change : PolicyChange)
  | written (service : RangerService) (change : PolicyChange)

/-- What a client holds, and the number of changes committed when it asked. -/
structure Download where
  policies : ServicePolicies
  seen : Nat

/-- The committed rows with the changes that led to them, the open transactions and
what the clients hold for each service. -/
structure ServiceDB where
  store : ServiceDBStore
  committed : List (Int × PolicyChange) := []
  transactions : AssocMap Nat Transaction := ∅
  downloads : AssocMap (Nat × String) Download := ∅

namespace ServiceDB

inductive Event where
  | read (transaction : Nat) (call : PolicyCall)
  | change (transaction : Nat)
  | write (transaction : Nat)
  | commit (transaction : Nat)
  | rollback (transaction : Nat)
  | download (client : Nat) (serviceName : String)

section Steps

variable (db : ServiceDB)

/-- The transaction moves on. -/
def goes (transaction : Nat) (phase : Transaction) : ServiceDB :=
  { db with transactions := db.transactions.put transaction phase }

/-- The transaction ends. -/
def ends (transaction : Nat) : ServiceDB :=
  { db with transactions := db.transactions.filterKeys (· ≠ transaction) }

/-- An open transaction has written the row of the service. -/
def locked (serviceId : Int) : Bool :=
  db.transactions.entries.any fun entry =>
    match entry.2 with
    | .written service _ => service.id == serviceId
    | _ => false

variable [Platform]

/-- The version a client asks with. -/
def lastKnownVersion (client : Nat) (serviceName : String) : Int :=
  match db.downloads.get? (client, serviceName) with
  | none => -1
  | some download => download.policies.policyVersion.getD (-1)

def download (client : Nat) (serviceName : String) : ServiceDB :=
  match db.store.getServicePoliciesIfUpdated serviceName
      (db.lastKnownVersion client serviceName) with
  | .ok (some policies) =>
      { db with
        downloads := db.downloads.put (client, serviceName) ⟨policies, db.committed.length⟩ }
  | _ => db

/-- One step. An event that cannot happen where its transaction stands changes
nothing. -/
def step : Event → ServiceDB
  | .read transaction call =>
      match db.transactions.get? transaction, db.store.readService call with
      | none, some service => db.goes transaction (.read call service)
      | _, _ => db
  | .change transaction =>
      match db.transactions.get? transaction with
      | some (.read call service) =>
          match db.store.changeOf call with
          | .ok change =>
              { db.goes transaction (.changed service change) with
                store.nextPolicyId := db.store.nextPolicyId + ServiceDBStore.idsTaken call }
          | .error _ => db.ends transaction
      | _ => db
  | .write transaction =>
      match db.transactions.get? transaction with
      | some (.changed service change) =>
          if db.locked service.id then db else db.goes transaction (.written service change)
      | _ => db
  | .commit transaction =>
      match db.transactions.get? transaction with
      | some (.written service change) =>
          { db.ends transaction with
            store := db.store.committing service change
            committed := db.committed ++ [(service.id, change)] }
      | _ => db
  | .rollback transaction => db.ends transaction
  | .download client serviceName => db.download client serviceName

/-- The database after a run of events. -/
def run (events : List Event) : ServiceDB :=
  Run.final (fun db event => ((), step db event)) db events

end Steps

section Serial

variable [Platform] {db : ServiceDB}

omit [Platform] in
/-- The service a policy names is the one its call begins with. -/
theorem findService_of_serviceOf {store : ServiceDBStore} {policy : RangerPolicy}
    {service : RangerService} {serviceDef : RangerServiceDef}
    (found : store.serviceOf policy = .ok (service, serviceDef)) :
    store.findService policy.service = some service := by
  unfold ServiceDBStore.serviceOf at found
  split at found
  · cases found
  · next service' located =>
      split at found
      · cases found
      · cases found
        exact located

omit [Platform] in
theorem createPolicy_eq_ok {store after : ServiceDBStore} {policy created : RangerPolicy}
    (performed : store.createPolicy policy = .ok (created, after)) :
    ∃ service, store.findService policy.service = some service ∧
      ({ store with nextPolicyId := store.nextPolicyId + 1 } :
        ServiceDBStore).committing service (.insert created) = after := by
  unfold ServiceDBStore.createPolicy at performed
  obtain ⟨⟨service, serviceDef⟩, located, performed⟩ := Outcome.bind_eq_ok.mp performed
  refine ⟨service, findService_of_serviceOf located, ?_⟩
  dsimp only at performed
  split at performed
  · cases performed
  · cases performed
    rfl

theorem updatePolicy_eq_ok {store after : ServiceDBStore} {policy updated : RangerPolicy}
    (performed : store.updatePolicy policy = .ok (updated, after)) :
    ∃ service, store.findService policy.service = some service ∧
      store.committing service (.replace policy.id updated) = after := by
  unfold ServiceDBStore.updatePolicy at performed
  split at performed
  · cases performed
  · obtain ⟨⟨service, serviceDef⟩, located, performed⟩ := Outcome.bind_eq_ok.mp performed
    refine ⟨service, findService_of_serviceOf located, ?_⟩
    dsimp only at performed
    split at performed
    · cases performed
    · split at performed
      · cases performed
      · cases performed
        rfl

omit [Platform] in
theorem deletePolicy_eq_ok {store after : ServiceDBStore} {id : Int}
    (performed : store.deletePolicy id = .ok after) :
    ∃ policy service, store.findPolicy (some id) = some policy ∧
      store.findService policy.service = some service ∧
        store.committing service (.remove id) = after := by
  unfold ServiceDBStore.deletePolicy ServiceDBStore.getPolicy at performed
  obtain ⟨read, found, performed⟩ := Outcome.bind_eq_ok.mp performed
  split at found
  · cases found
  · next policy located =>
      cases found
      dsimp only at performed
      split at performed
      · cases performed
      · next service known =>
          cases performed
          exact ⟨policy, service, located, known, rfl⟩

/-- A call reads its service, changes rows and commits. -/
theorem perform_eq_ok {store after : ServiceDBStore} {call : PolicyCall}
    (performed : store.perform call = .ok after) :
    ∃ service change, store.readService call = some service ∧ store.changeOf call = .ok change ∧
      ({ store with nextPolicyId := store.nextPolicyId + ServiceDBStore.idsTaken call } :
        ServiceDBStore).committing service change = after := by
  cases call with
  | createPolicy policy =>
      obtain ⟨⟨created, next⟩, called, rfl⟩ := Outcome.map_eq_ok.mp performed
      obtain ⟨service, found, committed⟩ := createPolicy_eq_ok called
      exact ⟨service, .insert created, found, Outcome.map_eq_ok.mpr ⟨_, called, rfl⟩, committed⟩
  | updatePolicy policy =>
      obtain ⟨⟨updated, next⟩, called, rfl⟩ := Outcome.map_eq_ok.mp performed
      obtain ⟨service, found, committed⟩ := updatePolicy_eq_ok called
      refine ⟨service, .replace policy.id updated, found,
        Outcome.map_eq_ok.mpr ⟨_, called, rfl⟩, ?_⟩
      rwa [ServiceDBStore.idsTaken, Int.add_zero]
  | deletePolicy id =>
      obtain ⟨policy, service, found, located, committed⟩ := deletePolicy_eq_ok performed
      refine ⟨service, .remove id, ?_, Outcome.map_eq_ok.mpr ⟨_, performed, rfl⟩, ?_⟩
      · simp only [ServiceDBStore.readService, found, Option.bind_some, located]
      · rwa [ServiceDBStore.idsTaken, Int.add_zero]

/-- **A transaction alone is the call.** -/
theorem run_alone (alone : db.transactions = ∅) {call : PolicyCall} {after : ServiceDBStore}
    (performed : db.store.perform call = .ok after) (transaction : Nat) :
    (run db [.read transaction call, .change transaction, .write transaction,
      .commit transaction]).store = after := by
  obtain ⟨service, change, read, changed, committed⟩ := perform_eq_ok performed
  have opened : ∀ first : Transaction, (∅ : AssocMap Nat Transaction).put transaction first =
      ⟨[(transaction, first)], List.nodup_singleton transaction⟩ := fun _ => rfl
  have moved : ∀ first second : Transaction,
      (⟨[(transaction, first)], List.nodup_singleton transaction⟩ :
        AssocMap Nat Transaction).put transaction second =
          ⟨[(transaction, second)], List.nodup_singleton transaction⟩ := by
    intro first second
    simp [AssocMap.put, AssocMap.keys]
  have found : ∀ first : Transaction,
      (⟨[(transaction, first)], List.nodup_singleton transaction⟩ :
        AssocMap Nat Transaction).get? transaction = some first := by
    intro first
    simp [AssocMap.get?]
  simp only [run, Run.final, step, alone, AssocMap.get?_empty, read, goes, opened, found, changed,
    locked, List.any_cons, List.any_nil, Bool.or_false, Bool.false_eq_true, ↓reduceIte, moved]
  exact committed

end Serial

section Freshness

variable (db : ServiceDB)

/-- A change to the service was committed after the download. -/
def Misses (download : Download) (serviceId : Int) : Prop :=
  ∃ entry ∈ db.committed.drop download.seen, entry.1 = serviceId

/-- No client holds the version of a service while it misses a change to it. -/
def Fresh : Prop :=
  ∀ client serviceName download service,
    db.downloads.get? (client, serviceName) = some download →
      db.store.findService serviceName = some service →
        download.policies.policyVersion = service.policyVersion → ¬ db.Misses download service.id

/-- No client holds the version a commit writes. -/
def CommitsUnheldVersion : Event → Prop
  | .commit transaction =>
      ∀ service change, db.transactions.get? transaction = some (.written service change) →
        ∀ client serviceName download row,
          db.downloads.get? (client, serviceName) = some download →
            db.store.findService serviceName = some row → row.id = service.id →
              download.policies.policyVersion ≠ some (nextPolicyVersion service.policyVersion)
  | _ => True

/-- A commit finds the version its transaction read. -/
def CommitsOverReadVersion : Event → Prop
  | .commit transaction =>
      ∀ service change, db.transactions.get? transaction = some (.written service change) →
        ∀ row ∈ db.store.services, row.id = service.id →
          row.policyVersion = service.policyVersion
  | _ => True

/-- Clients asked before now. -/
def SeenCommitted : Prop :=
  ∀ client download, db.downloads.get? client = some download →
    download.seen ≤ db.committed.length

/-- No client holds a version its service has not reached. -/
def HoldsReached : Prop :=
  ∀ client serviceName download service,
    db.downloads.get? (client, serviceName) = some download →
      db.store.findService serviceName = some service →
        @LE.le (WithBot Int) _ download.policies.policyVersion service.policyVersion

/-- What is read by clients is as before. -/
structure SameReads (next : ServiceDB) : Prop where
  services : next.store.services = db.store.services
  committed : next.committed = db.committed
  downloads : next.downloads = db.downloads

variable {db}

theorem SameReads.findService {next : ServiceDB} (same : db.SameReads next) (name : String) :
    next.store.findService name = db.store.findService name := by
  unfold ServiceDBStore.findService
  rw [same.services]

theorem SameReads.misses {next : ServiceDB} (same : db.SameReads next) (download : Download)
    (serviceId : Int) : next.Misses download serviceId ↔ db.Misses download serviceId := by
  unfold Misses
  rw [same.committed]

theorem SameReads.fresh {next : ServiceDB} (same : db.SameReads next) :
    next.Fresh ↔ db.Fresh := by
  unfold Fresh
  simp only [same.findService, same.downloads, same.misses]

theorem SameReads.seenCommitted {next : ServiceDB} (same : db.SameReads next) :
    next.SeenCommitted ↔ db.SeenCommitted := by
  unfold SeenCommitted
  rw [same.downloads, same.committed]

theorem SameReads.holdsReached {next : ServiceDB} (same : db.SameReads next) :
    next.HoldsReached ↔ db.HoldsReached := by
  unfold HoldsReached
  simp only [same.findService, same.downloads]

/-- What a commit leaves for clients to read. -/
structure Commits (db next : ServiceDB) (service : RangerService) (change : PolicyChange) :
    Prop where
  services : next.store.services =
    db.store.services.map (ServiceDBStore.committedRow service)
  committed : next.committed = db.committed ++ [(service.id, change)]
  downloads : next.downloads = db.downloads

section Step

variable [Platform] (db)

/-- The service behind a download. -/
theorem getServicePoliciesIfUpdated_eq_some {store : ServiceDBStore} {serviceName : String}
    {lastKnownVersion : Int} {policies : ServicePolicies}
    (answered : store.getServicePoliciesIfUpdated serviceName lastKnownVersion =
      .ok (some policies)) :
    ∃ service, store.findService serviceName = some service ∧
      policies.policyVersion = service.policyVersion := by
  unfold ServiceDBStore.getServicePoliciesIfUpdated at answered
  split at answered
  · cases answered
  · next service found =>
      refine ⟨service, found, ?_⟩
      split at answered
      · cases answered
      · split at answered
        · cases answered
        · cases answered
          rfl

/-- A step commits, answers a client or changes nothing that clients read. -/
theorem step_cases (event : Event) :
    (db.SameReads (step db event) ∧
      ∀ transaction service change, event = .commit transaction →
        db.transactions.get? transaction ≠ some (.written service change)) ∨
    (∃ transaction service change, event = .commit transaction ∧
      db.transactions.get? transaction = some (.written service change) ∧
        Commits db (step db event) service change) ∨
    ∃ client serviceName policies service, event = .download client serviceName ∧
      db.store.findService serviceName = some service ∧
        policies.policyVersion = service.policyVersion ∧
          step db event =
            { db with
              downloads := db.downloads.put (client, serviceName)
                ⟨policies, db.committed.length⟩ } := by
  have same : db.SameReads db := ⟨rfl, rfl, rfl⟩
  have apart (commits : ∀ transaction, event ≠ .commit transaction) transaction service change :
      event = .commit transaction →
        db.transactions.get? transaction ≠ some (.written service change) :=
    fun same => absurd same (commits transaction)
  cases event with
  | read transaction call =>
      refine .inl ⟨?_, apart (by simp)⟩
      simp only [step]
      split
      · exact ⟨rfl, rfl, rfl⟩
      · exact same
  | change transaction =>
      refine .inl ⟨?_, apart (by simp)⟩
      simp only [step]
      split
      · split <;> exact ⟨rfl, rfl, rfl⟩
      · exact same
  | write transaction =>
      refine .inl ⟨?_, apart (by simp)⟩
      simp only [step]
      split
      · split
        · exact same
        · exact ⟨rfl, rfl, rfl⟩
      · exact same
  | commit transaction =>
      by_cases written : ∃ service change,
          db.transactions.get? transaction = some (.written service change)
      · obtain ⟨service, change, written⟩ := written
        refine .inr (.inl ⟨transaction, service, change, rfl, written, ?_⟩)
        simp only [step, written]
        exact ⟨ServiceDBStore.services_committing _ _ _, rfl, rfl⟩
      · refine .inl ⟨?_, ?_⟩
        · simp only [step]
          split
          · next service change found => exact absurd ⟨service, change, found⟩ written
          · exact same
        · intro other service change committed found
          cases committed
          exact written ⟨service, change, found⟩
  | rollback transaction => exact .inl ⟨⟨rfl, rfl, rfl⟩, apart (by simp)⟩
  | download client serviceName =>
      simp only [step, download]
      split
      · next policies answered =>
          obtain ⟨service, found, version⟩ := getServicePoliciesIfUpdated_eq_some answered
          exact .inr (.inr ⟨client, serviceName, policies, service, rfl, found, version, rfl⟩)
      · exact .inl ⟨same, apart (by simp)⟩

end Step

section Commit

variable {next : ServiceDB} {service : RangerService} {change : PolicyChange}

theorem Commits.findService (commits : Commits db next service change) (name : String) :
    next.store.findService name =
      (db.store.findService name).map (ServiceDBStore.committedRow service) := by
  rw [← ServiceDBStore.findService_committing db.store service change]
  unfold ServiceDBStore.findService
  rw [commits.services, ServiceDBStore.services_committing]

theorem Commits.misses_iff (commits : Commits db next service change) {download : Download}
    (seen : download.seen ≤ db.committed.length) (serviceId : Int) :
    next.Misses download serviceId ↔ db.Misses download serviceId ∨ service.id = serviceId := by
  unfold Misses
  rw [commits.committed, List.drop_append_of_le_length seen]
  simp only [List.mem_append, List.mem_singleton, or_and_right, exists_or, exists_eq_left]

/-- **A commit keeps clients fresh exactly when none holds the version it writes.** -/
theorem Commits.fresh_iff (commits : Commits db next service change) (fresh : db.Fresh)
    (seen : db.SeenCommitted) :
    next.Fresh ↔ ∀ client serviceName download row,
      db.downloads.get? (client, serviceName) = some download →
        db.store.findService serviceName = some row → row.id = service.id →
          download.policies.policyVersion ≠ some (nextPolicyVersion service.policyVersion) := by
  constructor
  · intro kept client serviceName download row held found identity current
    have stored : next.store.findService serviceName =
        some (ServiceDBStore.committedRow service row) := by
      rw [commits.findService, found, Option.map_some]
    refine kept client serviceName download _ (commits.downloads ▸ held) stored ?_ ?_
    · rw [current]
      simp only [ServiceDBStore.committedRow, identity, ↓reduceIte]
    · rw [commits.misses_iff (seen _ _ held), ServiceDBStore.committedRow_id]
      exact .inr identity.symm
  · intro unheld client serviceName download stored held found current misses
    rw [commits.downloads] at held
    rw [commits.findService, Option.map_eq_some_iff] at found
    obtain ⟨row, found, rfl⟩ := found
    rw [commits.misses_iff (seen _ _ held), ServiceDBStore.committedRow_id] at misses
    by_cases identity : row.id = service.id
    · refine unheld client serviceName download row held found identity ?_
      rw [current]
      simp only [ServiceDBStore.committedRow, identity, ↓reduceIte]
    · simp only [ServiceDBStore.committedRow, identity, ↓reduceIte] at current
      obtain earlier | same := misses
      · exact fresh client serviceName download row held found current earlier
      · exact identity same.symm

end Commit

section Steps

variable [Platform]

theorem SeenCommitted.step (seen : db.SeenCommitted) (event : Event) :
    (step db event).SeenCommitted := by
  obtain ⟨same, _⟩ | ⟨_, _, _, _, _, commits⟩ | ⟨client, serviceName, policies, _, _, _, _, next⟩ :=
    step_cases db event
  · exact same.seenCommitted.mpr seen
  · intro key download held
    rw [commits.downloads] at held
    rw [commits.committed, List.length_append]
    have before := seen key download held
    omega
  · intro key download held
    rw [next] at held ⊢
    simp only [AssocMap.get?_put] at held
    split at held
    · cases held
      exact le_refl _
    · exact seen key download held

/-- Fresh clients stay fresh exactly when no commit writes a version one of them holds. -/
theorem Fresh.step_iff (fresh : db.Fresh) (seen : db.SeenCommitted) (event : Event) :
    (step db event).Fresh ↔ db.CommitsUnheldVersion event := by
  obtain ⟨same, unwritten⟩ | ⟨transaction, service, change, rfl, written, commits⟩ |
    ⟨client, serviceName, policies, _, rfl, _, _, next⟩ := step_cases db event
  · refine iff_of_true (same.fresh.mpr fresh) ?_
    cases event with
    | commit transaction =>
        intro service change written
        exact absurd written (unwritten transaction service change rfl)
    | _ => trivial
  · rw [commits.fresh_iff fresh seen]
    constructor
    · intro unheld other change' written'
      rw [written] at written'
      cases written'
      exact unheld
    · exact fun unheld => unheld service change written
  · refine iff_of_true ?_ trivial
    rw [next]
    intro other name download row held found current misses
    simp only [AssocMap.get?_put] at held
    split at held
    · cases held
      obtain ⟨entry, later, _⟩ := misses
      simp at later
    · exact fresh other name download row held found current misses

omit [Platform] in
/-- A commit over the version its transaction read writes a version no client holds. -/
theorem HoldsReached.commitsUnheldVersion (reached : db.HoldsReached) {event : Event}
    (fromRead : db.CommitsOverReadVersion event) : db.CommitsUnheldVersion event := by
  cases event with
  | commit transaction =>
      intro service change written client serviceName download row held found identity current
      have bound := reached client serviceName download row held found
      have read := fromRead service change written row (List.mem_of_find?_eq_some found) identity
      rw [current, read] at bound
      exact absurd bound (not_le_of_gt (lt_nextPolicyVersion service.policyVersion))
  | _ => trivial

theorem HoldsReached.step (reached : db.HoldsReached) {event : Event}
    (fromRead : db.CommitsOverReadVersion event) : (step db event).HoldsReached := by
  obtain ⟨same, _⟩ | ⟨transaction, service, change, rfl, written, commits⟩ |
    ⟨client, serviceName, policies, service, rfl, asked, version, next⟩ := step_cases db event
  · exact same.holdsReached.mpr reached
  · intro client serviceName download stored held found
    rw [commits.downloads] at held
    rw [commits.findService, Option.map_eq_some_iff] at found
    obtain ⟨row, found, rfl⟩ := found
    have bound := reached client serviceName download row held found
    unfold ServiceDBStore.committedRow
    split
    · next identity =>
        rw [fromRead service change written row (List.mem_of_find?_eq_some found) identity] at bound
        exact le_of_lt (lt_of_le_of_lt bound (lt_nextPolicyVersion service.policyVersion))
    · exact bound
  · rw [next]
    intro other name download row held found
    simp only [AssocMap.get?_put] at held
    split at held
    · next same =>
        cases held
        cases same
        change db.store.findService serviceName = some row at found
        rw [asked] at found
        cases found
        exact le_of_eq version
    · exact reached other name download row held found

/-- **No version bump is lost.** In a run from a database without clients and open
transactions, no client ever holds the version of a service while it misses a
change to it exactly when no commit writes a version that a client of the service
holds; and so it is when every commit finds the version its transaction read. -/
theorem neverStale_iff (store : ServiceDBStore) (events : List Event) :
    ((∀ done rest, events = done ++ rest → (run { store := store } done).Fresh) ↔
      ∀ done event rest, events = done ++ event :: rest →
        (run { store := store } done).CommitsUnheldVersion event) ∧
    ((∀ done event rest, events = done ++ event :: rest →
        (run { store := store } done).CommitsOverReadVersion event) →
      ∀ done rest, events = done ++ rest → (run { store := store } done).Fresh) := by
  have first : ({ store := store } : ServiceDB).Fresh := nofun
  have seen : ({ store := store } : ServiceDB).SeenCommitted := nofun
  have reached : ({ store := store } : ServiceDB).HoldsReached := nofun
  have exact_condition := @Run.forall_prefix_iff_of_allowed _ _ _
    (fun db event => ((), step db event)) SeenCommitted Fresh (fun _ _ => True)
    CommitsUnheldVersion (fun _ event seen _ => seen.step event)
    (fun _ event seen _ fresh => fresh.step_iff seen event) { store := store } seen first events
    fun _ _ _ _ => trivial
  refine ⟨exact_condition, fun fromRead => exact_condition.mpr ?_⟩
  have always := @Run.forall_prefix_of_allowed _ _ _
    (fun db event => ((), step db event)) HoldsReached CommitsOverReadVersion
    (fun _ _ reached fromRead => reached.step fromRead) { store := store } reached events fromRead
  intro done event rest split
  exact (always done _ split).commitsUnheldVersion (fromRead done event rest split)

end Steps

end Freshness

section Overlap

attribute [local instance] Platform.ascii

def databaseDef : RangerServiceDef where
  name := "database"
  resources := [{ name := "table", level := 10, mandatory := true }]
  accessTypes := [{ name := "select" }]

def openPolicy : RangerPolicy where
  id := some 1
  service := "warehouse"
  name := "open"
  resources := ⟨[("table", { values := ["*"] })], by decide⟩
  policyItems := [{ accesses := [⟨"select", true⟩], groups := ["public"] }]

def alicePolicy : RangerPolicy where
  service := "warehouse"
  name := "alice"
  resources := ⟨[("table", { values := ["orders"] })], by decide⟩
  policyItems := [{ accesses := [⟨"select", true⟩], users := ["alice"] }]

def warehouseStore : ServiceDBStore where
  serviceDefs := [databaseDef]
  services := [{ id := 1, name := "warehouse", type := "database", policyVersion := some 1 }]
  policies := [openPolicy]
  users := ["alice"]
  groups := ["public"]
  nextPolicyId := 2

/-- One administrator adds a policy while another one deletes the policy open to
everybody; a client asks between the two commits. -/
def overlappingRun : List Event :=
  [.read 1 (.createPolicy alicePolicy), .read 2 (.deletePolicy 1),
    .change 1, .write 1, .commit 1, .download 1 "warehouse",
    .change 2, .write 2, .commit 2]

/-- The client holds version 2 with the deleted policy, the service has version 2
without it, and the next poll finds no update. -/
theorem overlap_leaves_client_stale :
    ¬ (run { store := warehouseStore } overlappingRun).Fresh ∧
      (run { store := warehouseStore } overlappingRun).store.policies.map (·.id) = [some 2] ∧
      (((run { store := warehouseStore } overlappingRun).downloads.get? (1, "warehouse")).map
        fun download => download.policies.policies.map (·.id)) = some [some 1, some 2] ∧
      run { store := warehouseStore } (overlappingRun ++ [.download 1 "warehouse"]) =
        run { store := warehouseStore } overlappingRun := by
  refine ⟨?_, ?_, ?_, ?_⟩
  · intro fresh
    exact fresh 1 "warehouse" _ _ rfl rfl rfl ⟨(1, .remove 1), List.mem_cons_self, rfl⟩
  · decide +kernel
  · decide +kernel
  · rfl

end Overlap

end ServiceDB

end Ranger
