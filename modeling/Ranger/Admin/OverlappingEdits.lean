import Mathlib.Data.List.Permutation
import Ranger.Admin.GrantAccess
import Ranger.Admin.Transactions
import Ranger.Foundation.Overlap

/-! # Overlapping grants, revokes and updates

A grant or a revoke reads the policy that the engine of the committed policies finds and the
stored copy of it, edits the copy, writes the whole policy and commits. Reads see committed
rows only, and no row has a version that is compared when it is written. The version of the
service is left out: an engine is made of what is committed.
-/

namespace Ranger

open Foundation ServiceREST

/-- A request that edits the policies; a policy it creates gets the id that the sequence of
the database has for it. -/
inductive PolicyRequest where
  | grantAccess (serviceName : String) (userGroups : List String) (time : String)
      (request : GrantRevokeRequest) (newId : Int)
  | revokeAccess (serviceName : String) (userGroups : List String) (request : GrantRevokeRequest)
  | updatePolicy (session : UserSession) (policy : RangerPolicy)

namespace PolicyRequest

section Steps

variable [Platform] [ClassLoader] (configuration : RangerConfiguration)
  (options : RangerPolicyEngineOptions)

/-- The administration over what is committed, with no engine from before. -/
def administration (store : ServiceDBStore) : ServiceREST ServiceDBStore where
  svcStore := store
  configuration := configuration
  engineCache := ⟨options, ∅⟩

/-- The copy of the policy to edit, for a grantor with delegated admin. -/
def readExactMatch (rest : ServiceREST ServiceDBStore) (serviceName : String)
    (userGroups : List String) (request : GrantRevokeRequest) :
    Except WebApplicationException (Option RangerPolicy) :=
  let resource : RangerAccessResource := { elements := some request.resource }
  match rest.adminEngine serviceName (some request.grantor) userGroups resource with
  | (none, _) => .error ⟨SC_UNAUTHORIZED, some ""⟩
  | (some policyEngine, rest) =>
      match rest.getExactMatchPolicyForResource policyEngine resource with
      | .error message => .error (badRequest message)
      | .ok policy => .ok policy

/-- What a request reads, with its checks. An update brings the policy along. -/
def reads (store : ServiceDBStore) :
    PolicyRequest → Except WebApplicationException (Option RangerPolicy)
  | .grantAccess serviceName userGroups _ request _ =>
      readExactMatch (administration configuration options store) serviceName userGroups request
  | .revokeAccess serviceName userGroups request =>
      readExactMatch (administration configuration options store) serviceName userGroups request
  | .updatePolicy session policy =>
      match RangerPolicyValidator.validate store policy .update session.isUserAdmin with
      | .error message => .error (badRequest message)
      | .ok () =>
          match ((administration configuration options store).ensureAdminAccess session
              policy.service policy.resources).1 with
          | .error _ => .error (badRequest none)
          | .ok () => .ok (some policy)

/-- The call that stores an edited copy, if the edit changed it. -/
def editedCall (policy : RangerPolicy)
    (edit : List RangerPolicyItem → List RangerPolicyItem × Bool) : Option Ranger.PolicyCall :=
  let (policyItems, policyUpdated) := edit policy.policyItems
  if policyUpdated then some (.updatePolicy { policy with policyItems := policyItems }) else none

/-- The edit of the copy, and the call of the store it ends with. -/
def edits : PolicyRequest → Option RangerPolicy → Option Ranger.PolicyCall
  | .grantAccess _ _ _ request _, some policy => editedCall policy (grantToPolicyItems request)
  | .grantAccess serviceName _ time request _, none =>
      some (.createPolicy (grantedPolicy serviceName time request))
  | .revokeAccess _ _ request, some policy => editedCall policy (revokeFromPolicyItems request)
  | .revokeAccess _ _ _, none => none
  | .updatePolicy _ policy, _ => some (.updatePolicy policy)

/-- The store as the sequence of ids shows it to a request. -/
def storeFor (store : ServiceDBStore) : PolicyRequest → ServiceDBStore
  | .grantAccess _ _ _ _ newId => { store with nextPolicyId := newId }
  | _ => store

/-- The rows that a call of the store deletes and inserts. -/
def writes (store : ServiceDBStore) (request : PolicyRequest) :
    Option Ranger.PolicyCall → Except WebApplicationException (Option PolicyChange)
  | none => .ok none
  | some call =>
      match (request.storeFor store).changeOf call with
      | .error message => .error (badRequest message)
      | .ok change => .ok (some change)

def commits (store : ServiceDBStore) : Option PolicyChange → ServiceDBStore
  | none => store
  | some change => { store with policies := change.apply store.policies }

/-- The row of a policy stays locked from its update to the end of the transaction. -/
def locksOut : Option PolicyChange → Option PolicyChange → Bool
  | some (.replace id _), some (.replace other _) => id == other
  | _, _ => false

/-- The requests that edit the policies of a store. -/
def requests : Overlap.Requests ServiceDBStore PolicyRequest (Option RangerPolicy)
    (Option Ranger.PolicyCall) (Option PolicyChange) WebApplicationException where
  read := reads configuration options
  edit := edits
  write := writes
  commit := commits
  excludes := locksOut

/-- The call of the administration that a request is. -/
def call : PolicyRequest → ServiceREST.PolicyCall
  | .grantAccess serviceName userGroups time request _ =>
      .grantAccess serviceName userGroups time request
  | .revokeAccess serviceName userGroups request => .revokeAccess serviceName userGroups request
  | .updatePolicy session policy => .updatePolicy session policy

end Steps

abbrev OverlapState := Overlap.State ServiceDBStore PolicyRequest (Option RangerPolicy)
  (Option Ranger.PolicyCall) (Option PolicyChange) WebApplicationException

section Serial

variable [Platform] [ClassLoader] {configuration : RangerConfiguration}
  {options : RangerPolicyEngineOptions}

/-- The committed policies are those of the successful requests, run one after another in
some order. -/
def Serialisable (configuration : RangerConfiguration) (options : RangerPolicyEngineOptions)
    (store : ServiceDBStore) (state : OverlapState) : Prop :=
  ∃ order : List PolicyRequest, order.Perm state.succeeded ∧
    order.foldlM (requests configuration options).serve store = .ok state.committed

omit [ClassLoader] in
/-- The policies after a call of the store are those with its change. -/
theorem policies_perform (store : ServiceDBStore) (call : Ranger.PolicyCall) :
    (store.perform call).map (·.policies) =
      (store.changeOf call).map fun change => change.apply store.policies := by
  cases call with
  | createPolicy policy =>
      change ((store.createPolicy policy).map (·.2)).map _ =
        ((store.createPolicy policy).map fun created => PolicyChange.insert created.1).map _
      cases called : store.createPolicy policy with
      | error message => rfl
      | ok result =>
          obtain ⟨service, _, committed⟩ := ServiceDB.createPolicy_eq_ok called
          exact congrArg (fun after => Except.ok after.policies) committed.symm
  | updatePolicy policy =>
      change ((store.updatePolicy policy).map (·.2)).map _ =
        ((store.updatePolicy policy).map fun updated =>
          PolicyChange.replace policy.id updated.1).map _
      cases called : store.updatePolicy policy with
      | error message => rfl
      | ok result =>
          obtain ⟨service, _, committed⟩ := ServiceDB.updatePolicy_eq_ok called
          exact congrArg (fun after => Except.ok after.policies) committed.symm
  | deletePolicy id =>
      change (store.deletePolicy id).map _ =
        ((store.deletePolicy id).map fun _ => PolicyChange.remove id).map _
      cases called : store.deletePolicy id with
      | error message => rfl
      | ok after =>
          obtain ⟨_, service, _, _, committed⟩ := ServiceDB.deletePolicy_eq_ok called
          exact congrArg (fun after => Except.ok after.policies) committed.symm

/-- The answer of the administration and the policies it leaves. -/
def policiesOf (answer : Except WebApplicationException Unit × ServiceREST ServiceDBStore) :
    Except WebApplicationException (List RangerPolicy) :=
  answer.1.map fun _ => answer.2.svcStore.policies

/-- What is written for a call of the store, as it is committed. -/
def written (store : ServiceDBStore) (request : PolicyRequest) (call : Option Ranger.PolicyCall) :
    Except WebApplicationException (List RangerPolicy) :=
  (writes store request call).map fun change => (commits store change).policies

omit [ClassLoader] in
theorem written_eq {store : ServiceDBStore} {request : PolicyRequest}
    (next : request.storeFor store = store) (call : Ranger.PolicyCall) :
    written store request (some call) =
      match store.perform call with
      | .error message => .error (badRequest message)
      | .ok after => .ok after.policies := by
  have same := policies_perform store call
  simp only [written, writes, next]
  cases changed : store.changeOf call with
  | error message =>
      rw [changed] at same
      cases performed : store.perform call with
      | error other =>
          rw [performed] at same
          cases same
          rfl
      | ok after =>
          rw [performed] at same
          nomatch same
  | ok change =>
      rw [changed] at same
      cases performed : store.perform call with
      | error other =>
          rw [performed] at same
          nomatch same
      | ok after =>
          rw [performed] at same
          exact congrArg Except.ok (Except.ok.inj same).symm

omit [ClassLoader] in
/-- An edited copy is stored again by the call that the edit ends with. -/
theorem policiesOf_storeEdited {rest : ServiceREST ServiceDBStore} {request : PolicyRequest}
    (next : request.storeFor rest.svcStore = rest.svcStore) (policy : RangerPolicy)
    (edit : List RangerPolicyItem → List RangerPolicyItem × Bool) :
    policiesOf (rest.storeEdited policy edit) =
      written rest.svcStore request (editedCall policy edit) := by
  unfold storeEdited editedCall
  generalize edit policy.policyItems = edited
  obtain ⟨policyItems, policyUpdated⟩ := edited
  cases policyUpdated with
  | false => rfl
  | true =>
      refine Eq.trans ?_
        (written_eq next (.updatePolicy { policy with policyItems := policyItems })).symm
      simp only [↓reduceIte, ServiceStore.updatePolicy, ServiceDBStore.perform]
      cases rest.svcStore.updatePolicy { policy with policyItems := policyItems } <;> rfl

/-- A request is refused for want of delegated admin, fails with the store, or reads. -/
theorem readExactMatch_cases (rest : ServiceREST ServiceDBStore) (serviceName : String)
    (userGroups : List String) (request : GrantRevokeRequest) :
    (∃ after, rest.adminEngine serviceName (some request.grantor) userGroups
        { elements := some request.resource } = (none, after) ∧
      readExactMatch rest serviceName userGroups request = .error ⟨SC_UNAUTHORIZED, some ""⟩) ∨
    ∃ policyEngine after, rest.adminEngine serviceName (some request.grantor) userGroups
        { elements := some request.resource } = (some policyEngine, after) ∧
      after.svcStore = rest.svcStore ∧
      ((∃ message, after.getExactMatchPolicyForResource policyEngine
          { elements := some request.resource } = .error message ∧
        readExactMatch rest serviceName userGroups request = .error (badRequest message)) ∨
      ∃ read, after.getExactMatchPolicyForResource policyEngine
          { elements := some request.resource } = .ok read ∧
        readExactMatch rest serviceName userGroups request = .ok read) := by
  cases given : rest.adminEngine serviceName (some request.grantor) userGroups
    { elements := some request.resource } with
  | mk found after =>
      cases found with
      | none =>
          refine .inl ⟨after, rfl, ?_⟩
          simp only [readExactMatch, given]
      | some policyEngine =>
          refine .inr ⟨policyEngine, after, rfl, (rest.adminEngine_eq_some given).1, ?_⟩
          cases answer : after.getExactMatchPolicyForResource policyEngine
            { elements := some request.resource } with
          | error message =>
              refine .inl ⟨message, rfl, ?_⟩
              simp only [readExactMatch, given, answer]
          | ok read =>
              refine .inr ⟨read, rfl, ?_⟩
              simp only [readExactMatch, given, answer]

/-- **A request alone** is the call of the administration, when the sequence of the database
has the id it gets. -/
theorem serve_eq_perform {store : ServiceDBStore} {request : PolicyRequest}
    (next : request.storeFor store = store) :
    ((requests configuration options).serve store request).map (·.policies) =
      policiesOf ((administration configuration options store).perform request.call) := by
  have served : ∀ read, reads configuration options store request = .ok read →
      ((requests configuration options).serve store request).map (·.policies) =
        written store request (edits request read) := by
    intro read found
    change ((reads configuration options store request).bind fun view =>
      (writes store request (edits request view)).bind fun change =>
        .ok (commits store change)).map _ = _
    rw [found]
    change ((writes store request (edits request read)).bind _).map _ = _
    unfold written
    cases writes store request (edits request read) <;> rfl
  have refused : ∀ error, reads configuration options store request = .error error →
      ((requests configuration options).serve store request).map (·.policies) = .error error := by
    intro error found
    change ((reads configuration options store request).bind _).map _ = _
    rw [found]
    rfl
  cases request with
  | grantAccess serviceName userGroups time request newId =>
      change _ = policiesOf ((administration configuration options store).grantAccess serviceName
        userGroups time request)
      rcases readExactMatch_cases (administration configuration options store) serviceName
        userGroups request with ⟨after, given, read⟩ | ⟨policyEngine, after, given, same, found⟩
      · simp only [refused _ read, ServiceREST.grantAccess, given]
        rfl
      · obtain ⟨message, answer, read⟩ | ⟨_ | policy, answer, read⟩ := found
        · simp only [refused _ read, ServiceREST.grantAccess, given, answer]
          rfl
        · simp only [served _ read, ServiceREST.grantAccess, given, answer, same]
          refine (written_eq next _).trans ?_
          simp only [ServiceDBStore.perform, ServiceStore.createPolicy, administration]
          cases store.createPolicy (grantedPolicy serviceName time request) <;> rfl
        · simp only [served _ read, ServiceREST.grantAccess, given, answer]
          obtain rfl : after.svcStore = store := same
          exact (policiesOf_storeEdited next policy (grantToPolicyItems request)).symm
  | revokeAccess serviceName userGroups request =>
      change _ = policiesOf ((administration configuration options store).revokeAccess serviceName
        userGroups request)
      rcases readExactMatch_cases (administration configuration options store) serviceName
        userGroups request with ⟨after, given, read⟩ | ⟨policyEngine, after, given, same, found⟩
      · simp only [refused _ read, ServiceREST.revokeAccess, given]
        rfl
      · obtain rfl : after.svcStore = store := same
        obtain ⟨message, answer, read⟩ | ⟨_ | policy, answer, read⟩ := found
        · simp only [refused _ read, ServiceREST.revokeAccess, given, answer]
          rfl
        · simp only [served _ read, ServiceREST.revokeAccess, given, answer]
          rfl
        · simp only [served _ read, ServiceREST.revokeAccess, given, answer]
          exact (policiesOf_storeEdited next policy (revokeFromPolicyItems request)).symm
  | updatePolicy session policy =>
      change _ = policiesOf ((((administration configuration options store).updatePolicy session
        policy).1.map fun _ => ()), ((administration configuration options store).updatePolicy
        session policy).2)
      have kept := (administration configuration options store).ensureAdminAccess_svcStore session
        policy.service policy.resources
      unfold ServiceREST.updatePolicy editPolicy
      simp only [show (administration configuration options store).svcStore = store from rfl]
        at kept ⊢
      cases valid : RangerPolicyValidator.validate store policy .update session.isUserAdmin with
      | error message =>
          have read : reads configuration options store (.updatePolicy session policy) =
              .error (badRequest message) := by
            simp only [reads, valid]
          rw [refused _ read]
          rfl
      | ok checked =>
          have read : reads configuration options store (.updatePolicy session policy) =
              match ((administration configuration options store).ensureAdminAccess session
                policy.service policy.resources).1 with
              | .error _ => .error (badRequest none)
              | .ok () => .ok (some policy) := by
            simp only [reads, valid]
          dsimp only
          generalize (administration configuration options store).ensureAdminAccess session
            policy.service policy.resources = asked at kept read ⊢
          obtain ⟨denied | granted, after⟩ := asked
          · rw [refused _ read]
            rfl
          · obtain rfl : after.svcStore = store := kept
            rw [served _ read]
            refine (written_eq next (.updatePolicy policy)).trans ?_
            simp only [ServiceDBStore.perform, ServiceStore.updatePolicy]
            cases after.svcStore.updatePolicy policy <;> rfl

end Serial

section LostUpdate

attribute [local instance] Platform.ascii ClassLoader.addresses

deriving instance DecidableEq for AssocMap, RangerPolicy, PolicyChange

/-- A policy for one path, which bob administers. -/
def bobsPolicy (id : Int) (path : String) (policyItems : List RangerPolicyItem) : RangerPolicy where
  id := some id
  service := "cluster"
  name := path
  resources := ⟨[("path", { values := [path] })], List.nodup_singleton _⟩
  policyItems := { users := ["bob"], delegateAdmin := true } :: policyItems

/-- A cluster with two paths, one of which alice may read. -/
def twoPaths : ServiceDBStore where
  serviceDefs :=
    [{ name := "hdfs", resources := [{ name := "path" }], accessTypes := [{ name := "read" }] }]
  services := [{ id := 1, name := "cluster", type := "hdfs" }]
  policies :=
    [bobsPolicy 1 "/data" [{ users := ["alice"], accesses := [⟨"read", true⟩] }],
      bobsPolicy 2 "/logs" []]
  users := ["alice", "bob", "carol"]
  groups := []
  nextPolicyId := 3

def readOf (path user : String) : GrantRevokeRequest where
  grantor := "bob"
  resource := ⟨[("path", some path)], List.nodup_singleton _⟩
  users := [user]
  accessTypes := ["read"]

def revokesFromAlice : PolicyRequest := .revokeAccess "cluster" [] (readOf "/data" "alice")

def grantsToCarol (path : String) : PolicyRequest :=
  .grantAccess "cluster" [] "noon" (readOf path "carol") 3

/-- Two requests that read before either of them commits. -/
def overlapping (first second : PolicyRequest) : List (Overlap.Event PolicyRequest) :=
  [.read 1 first, .read 2 second, .edit 1, .edit 2, .write 1, .commit 1, .write 2, .commit 2]

end LostUpdate

end PolicyRequest

end Ranger
