import Ranger.Agents.HdfsAuditTrail
import Ranger.PolicyEngine.Attribution
import Ranger.PolicyRefresher

/-! # HDFS calls while policies are refreshed

The calls of a name node take turns with each other and with the refresher, which exchanges
the engine of the plugin. A call that Ranger lets through has each of its access types
allowed by policies that were in force at some time during the call.
-/

namespace Ranger

open Foundation RangerAccessControlEnforcer HdfsHistory

namespace RangerHdfsAuthorizer

section Mediation

variable (authorizer : RangerHdfsAuthorizer) (check : PermissionCheck)

/-- The plugin was asked about an access type, and did not deny it. -/
def TypePasses (inode : INode) (accessType : String) (past : HdfsHistory) : Prop :=
  ∃ (request : RangerHdfsAccessRequest) (answer : Option RangerServiceAccessResult),
    (⟨.isAccessAllowed request, answer⟩ : HdfsEvent) ∈ past ∧
    request.toRangerAccessRequest = authorizer.requestOf check inode accessType ∧
    ∀ result ∈ answer, result.isAllowed = true

/-- The plugin was asked about every access type of an action. -/
def Passes (inode : INode) (action : FsAction) (past : HdfsHistory) : Prop :=
  ∀ accessType ∈ access2ActionListMapper action, authorizer.TypePasses check inode accessType past

/-- What stands behind a call that Ranger lets through. -/
structure Mediated (past : HdfsHistory) : Prop where
  stickyBit : StickyBit check
  owner : Owner check
  actions : ∀ inode action, Needs check inode action → authorizer.Passes check inode action past

variable {authorizer check} {inode : INode} {path : String}

theorem TypePasses.mono {accessType : String} {now later : HdfsHistory} (longer : now <+: later)
    (passes : authorizer.TypePasses check inode accessType now) :
    authorizer.TypePasses check inode accessType later := by
  obtain ⟨request, answer, listed, same, allowed⟩ := passes
  exact ⟨request, answer, longer.subset listed, same, allowed⟩

theorem Passes.mono {action : FsAction} {now later : HdfsHistory} (longer : now <+: later)
    (passes : authorizer.Passes check inode action now) :
    authorizer.Passes check inode action later :=
  fun accessType listed => (passes accessType listed).mono longer

/-- A check brings something about when it passes. -/
abbrev BringsAbout (authorizer : RangerHdfsAuthorizer) (path : String) (work : AuditedCheck)
    (holds : HdfsHistory → Prop) : Prop :=
  Keeping.Brings AboutFiles (fun now => heard now authorizer.settings path) work holds

theorem brings_allowTypes {request : String → RangerHdfsAccessRequest}
    (same : ∀ accessType,
      (request accessType).toRangerAccessRequest = authorizer.requestOf check inode accessType)
    (ret : Bool) {accessTypes : List String}
    (files : ∀ accessType ∈ accessTypes,
      (request accessType).toRangerAccessRequest.OneElement "path") :
    BringsAbout authorizer path (authorizer.allowTypes request ret accessTypes) fun now =>
      ∀ accessType ∈ accessTypes, authorizer.TypePasses check inode accessType now := by
  induction accessTypes generalizing ret with
  | nil => exact Keeping.brings_pure fun _ _ _ listed => by cases listed
  | cons accessType rest ih =>
      intro past
      have heard : Keeping.Records AboutFiles (fun now => heard now authorizer.settings path) past
          (authorizer.pluginIsAccessAllowed (request accessType)) fun now answer =>
            now = past ++ [⟨.isAccessAllowed (request accessType), answer⟩] :=
        records_pluginIsAccessAllowed (files accessType List.mem_cons_self) fun _ => rfl
      refine Keeping.records_bind heard fun now answer _ told => ?_
      subst told
      -- what is heard now is about the first access type, the loop goes on with the others
      have onward : ∀ ret, (∀ result ∈ answer, result.isAllowed = true) →
          Keeping.Records AboutFiles (fun now => HdfsHistory.heard now authorizer.settings path)
            (past ++ [⟨.isAccessAllowed (request accessType), answer⟩])
            (authorizer.allowTypes request ret rest) fun later passed => passed = true →
              ∀ other ∈ accessType :: rest, authorizer.TypePasses check inode other later := by
        intro ret allowed
        have rest := ih ret fun other listed => files other (List.mem_cons_of_mem _ listed)
        refine (rest _).weaken fun later _ longer passes passed other listed => ?_
        rcases List.mem_cons.mp listed with rfl | behind
        · refine ⟨request other, answer, longer.subset ?_, same other, allowed⟩
          exact List.mem_append_right _ List.mem_cons_self
        · exact passes passed other behind
      cases answer with
      | none => exact onward ret fun _ none => by cases none
      | some result =>
          dsimp only
          cases allowed : result.isAllowed with
          | true =>
              refine onward true fun other found => ?_
              rw [← Option.some.inj found, allowed]
          | false => exact Keeping.records_pure fun impossible => by cases impossible

theorem brings_isAccessAllowed (inodeAttribs : Option INodeAttributes)
    (access : Option FsAction) :
    BringsAbout authorizer path (authorizer.isAccessAllowed check inode inodeAttribs access)
      (authorizer.Passes check inode (access.getD .none)) := by
  have brings : BringsAbout authorizer path
      (authorizer.isAccessAllowed check inode inodeAttribs access) fun now =>
        ∀ accessType ∈ authorizer.accessTypes (access.getD .none),
          authorizer.TypePasses check inode accessType now := by
    unfold isAccessAllowed
    refine brings_allowTypes (fun accessType => ?_) false fun accessType listed => ?_
    · rfl
    · exact oneElement_create listed
  exact brings.mono fun now passes accessType listed =>
    passes accessType ((authorizer.listed _).mem_iff.mpr listed)

/-- What an action requires of a node of the path, if there is one. -/
theorem brings_required {required : Option FsAction} {node : Option INode}
    {work : AuditedCheck} {inodeAttribs : INode → Option INodeAttributes}
    (made : work = match required, node with
      | some action, some inode =>
          authorizer.isAccessAllowed check inode (inodeAttribs inode) (some action)
      | _, _ => pure true) :
    BringsAbout authorizer path work fun now => ∀ action ∈ required, ∀ inode ∈ node,
      authorizer.Passes check inode action now := by
  subst made
  cases required with
  | none => exact Keeping.brings_pure fun _ _ _ none => by cases none
  | some action =>
      cases node with
      | none => exact Keeping.brings_pure fun _ _ _ _ _ none => by cases none
      | some inode =>
          refine (brings_isAccessAllowed (inodeAttribs inode) (some action)).mono ?_
          intro now passes other same dir here
          rw [← Option.some.inj same, ← Option.some.inj here]
          exact passes

/-- What is required of the directories below a node. -/
theorem brings_checkSubAccess :
    BringsAbout authorizer path (authorizer.checkSubAccess check) fun now =>
      ∀ dir action, RequiresBelow check dir action →
        authorizer.Passes check dir (actionBelow check) now := by
  unfold RangerHdfsAuthorizer.checkSubAccess
  cases required : check.subAccess with
  | none =>
      refine Keeping.brings_pure fun _ _ dir action below => ?_
      rw [below.required] at required
      cases required
  | some action =>
      cases last : inodeOf check with
      | none =>
          refine Keeping.brings_pure fun _ _ dir action below => ?_
          obtain ⟨inode, found, _⟩ := below.below
          rw [found] at last
          cases last
      | some inode =>
          dsimp only
          cases directory : inode.isDirectory with
          | false =>
              refine Keeping.brings_pure fun _ _ dir action below => ?_
              obtain ⟨other, found, isDirectory, _⟩ := below.below
              rw [last] at found
              rw [← Option.some.inj found, directory] at isDirectory
              cases isDirectory
          | true =>
              have checks : ∀ dir, BringsAbout authorizer path
                  (authorizer.checkDirectory check dir) fun now =>
                    (dir.getChildrenList = [] → check.ignoreEmptyDir = false) →
                      authorizer.Passes check dir (actionBelow check) now := by
                intro dir
                unfold RangerHdfsAuthorizer.checkDirectory
                split
                · rename_i skipped
                  rw [Bool.and_eq_true, List.isEmpty_iff] at skipped
                  refine Keeping.brings_pure fun _ _ filled => ?_
                  rw [filled skipped.1] at skipped
                  exact absurd skipped.2 Bool.false_ne_true
                · exact (brings_isAccessAllowed _ _).mono fun _ passes _ => passes
              refine (Keeping.brings_walkM (fun dir now later longer passes filled =>
                (passes filled).mono longer) checks [inode]).mono ?_
              intro now walked dir action below
              obtain ⟨other, found, _, reached⟩ := below.below
              rw [last] at found
              rw [← Option.some.inj found] at reached
              exact walked inode List.mem_cons_self dir reached below.filled

/-- The checks pass when what stands behind a call does. -/
theorem brings_accessGranted :
    BringsAbout authorizer path (authorizer.accessGranted check) (authorizer.Mediated check) := by
  have lasts (required : Option FsAction) (node : Option INode) (now later : HdfsHistory)
      (longer : now <+: later)
      (passes : ∀ action ∈ required, ∀ inode ∈ node, authorizer.Passes check inode action now) :
      ∀ action ∈ required, ∀ inode ∈ node, authorizer.Passes check inode action later :=
    fun action given inode found => (passes action given inode found).mono longer
  have sticky : BringsAbout authorizer path (pure (checkStickyBit check)) fun _ =>
      StickyBit check := Keeping.brings_pure fun passed _ => checkStickyBit_iff.mp passed
  have owner : BringsAbout authorizer path (pure (checkOwnerAccess check)) fun _ => Owner check :=
    Keeping.brings_pure fun passed _ => checkOwnerAccess_iff.mp passed
  have ancestor : BringsAbout authorizer path (authorizer.checkAncestorAccess check) fun now =>
      ∀ action ∈ check.ancestorAccess, ∀ inode ∈ ancestorOf check,
        authorizer.Passes check inode action now := brings_required rfl
  have parent : BringsAbout authorizer path (authorizer.checkParentAccess check) fun now =>
      ∀ action ∈ check.parentAccess, ∀ inode ∈ parentOf check,
        authorizer.Passes check inode action now := brings_required rfl
  have inode : BringsAbout authorizer path (authorizer.checkINodeAccess check) fun now =>
      ∀ action ∈ check.access, ∀ inode ∈ inodeOf check,
        authorizer.Passes check inode action now := brings_required rfl
  have subtree : BringsAbout authorizer path (authorizer.checkSubAccess check) fun now =>
      ∀ dir action, RequiresBelow check dir action →
        authorizer.Passes check dir (actionBelow check) now := brings_checkSubAccess
  have last := Keeping.brings_andThen
    (fun _ _ longer passes dir action below => (passes dir action below).mono longer) subtree owner
  have all := Keeping.brings_andThen (fun _ _ _ held => held) sticky <|
    Keeping.brings_andThen (lasts _ _) ancestor <| Keeping.brings_andThen (lasts _ _) parent <|
    Keeping.brings_andThen (lasts _ _) inode last
  refine all.mono fun now held => ?_
  obtain ⟨sticky, ancestor, parent, inode, below, owner⟩ := held
  refine ⟨sticky, owner, fun dir action needs => ?_⟩
  cases needs with
  | onPath requires =>
      cases requires with
      | ancestor required deepest =>
          exact ancestor action required dir ((ancestorOf_eq_some_iff dir).mpr deepest)
      | parent required found => exact parent action required dir found
      | inode required found => exact inode action required dir found
  | below requires => exact below dir _ requires

/-- A call that Ranger lets through has asked for all that it requires. -/
theorem checkPermission_mediated (authorizer : RangerHdfsAuthorizer) (check : PermissionCheck) :
    (authorizer.checkPermission check).Meets (fun _ => AboutFiles)
      (fun past result => result.1.isOk = true → (∀ outcome, ¬HdfsHistory.Decided past outcome) →
        authorizer.Mediated check past) [] := by
  have brings : BringsAbout authorizer check.path (authorizer.accessGranted check)
    (authorizer.Mediated check) := brings_accessGranted
  unfold RangerHdfsAuthorizer.checkPermission
  split
  · refine Program.meets_bind (brings []) fun past result _ done => ?_
    obtain ⟨granted, handler⟩ := result
    obtain ⟨_, held⟩ := done
    change (authorizer.conclude check granted handler).Meets _ _ past
    unfold RangerHdfsAuthorizer.conclude
    cases granted with
    | true => exact fun _ _ => held rfl
    | false =>
        rw [if_neg Bool.false_ne_true]
        split
        · refine ⟨trivial, fun outcome _ never => ?_⟩
          exact absurd ⟨_, List.mem_append_right _ List.mem_cons_self⟩ (never outcome)
        · exact fun impossible => by cases impossible
  · split
    · refine ⟨trivial, fun outcome _ never => ?_⟩
      exact absurd ⟨_, List.mem_cons_self⟩ (never outcome)
    · exact fun impossible => by cases impossible

end Mediation

end RangerHdfsAuthorizer

/-- What the calls share: the refresher of the plugin, and what Hadoop decides by itself. -/
structure HdfsNode where
  refresher : PolicyRefresher
  hadoop : PermissionCheck → Except AccessControlException Unit

/-- What changes meanwhile: the refresher polls, or the files of Hadoop change. -/
inductive HdfsChange where
  | poll (outcome : PollOutcome)
  | files (hadoop : PermissionCheck → Except AccessControlException Unit)

namespace HdfsNode

section Node

variable [Platform] [ClassLoader] (serviceType : RangerServiceDef → Int)
  (configuration : RangerConfiguration)

/-- The node when the engine of its plugin has answered. -/
def withEngine (node : HdfsNode) (engine : RangerPolicyEngineImpl) : HdfsNode :=
  { node with
    refresher :=
      { node.refresher with
        plugIn := { node.refresher.plugIn with policyEngine := some engine } } }

/-- `RangerBasePlugin.isAccessAllowed` of the engine, if there is one. -/
def isAccessAllowed (request : RangerAccessRequest) (node : HdfsNode) :
    Option RangerServiceAccessResult × HdfsNode :=
  match node.refresher.plugIn.policyEngine with
  | none => (none, node)
  | some engine =>
      (some
        { (engine.isAccessAllowedNoAudit request).1 with
          serviceName := engine.policyRepository.serviceName
          serviceType := serviceType engine.policyRepository.serviceDef
          serviceDef := engine.policyRepository.serviceDef },
        node.withEngine (engine.isAccessAllowedNoAudit request).2)

/-- The answer to a question of a call. -/
def serve (_ : PermissionCheck) : (question : HdfsQuestion) → HdfsNode →
    question.Answer × HdfsNode
  | .isAccessAllowed request, node => isAccessAllowed serviceType request.toRangerAccessRequest node
  | .checkPermission check, node => (node.hadoop check, node)

def change : HdfsChange → HdfsNode → HdfsNode
  | .poll outcome, node =>
      { node with refresher := PolicyRefresher.poll configuration node.refresher outcome }
  | .files hadoop, node => { node with hadoop := hadoop }

end Node

end HdfsNode

open Concurrent RangerHdfsAuthorizer

/-- What happens next at a name node. -/
abbrev HdfsTurn := Turn PermissionCheck HdfsChange

namespace HdfsNode

section Policies

variable (serviceName : String)

/-- The policies that are installed after a turn, when their engine is built. -/
def installedAfter (installed : Option ServicePolicies) : HdfsTurn → Option ServicePolicies
  | .outside (.poll (.updated policies _ true)) =>
      some { policies with serviceName := serviceName }
  | _ => installed

/-- The policies that are installed from the cache file. -/
def installedAtStart (cacheFile : CacheFile) (builds : Bool) : Option ServicePolicies :=
  match cacheFile, builds with
  | .content (some policies), true => some { policies with serviceName := serviceName }
  | _, _ => none

/-- The policies that were installed when a call began, or while it was made. -/
def InForce (installed : ServicePolicies) (turns : List HdfsTurn) (policies : ServicePolicies) :
    Prop :=
  policies = installed ∨ ∃ polled failedSave,
    .outside (.poll (.updated polled failedSave true)) ∈ turns ∧
      policies = { polled with serviceName := serviceName }

variable {serviceName}

/-- A change that happens meanwhile leaves policies installed that are in force meanwhile. -/
theorem InForce.installedAfter {installed policies : ServicePolicies} {turns : List HdfsTurn}
    (inForce : InForce serviceName installed turns policies) {change : HdfsChange}
    (listed : .outside change ∈ turns) :
    ∃ next, HdfsNode.installedAfter serviceName (some policies) (.outside change) = some next ∧
      InForce serviceName installed turns next := by
  cases change with
  | files hadoop => exact ⟨policies, rfl, inForce⟩
  | poll outcome =>
      cases outcome with
      | throws => exact ⟨policies, rfl, inForce⟩
      | notUpdated => exact ⟨policies, rfl, inForce⟩
      | updated polled failedSave builds =>
          cases builds with
          | false => exact ⟨policies, rfl, inForce⟩
          | true => exact ⟨_, rfl, .inr ⟨polled, failedSave, listed, rfl⟩⟩

end Policies

section Runs

variable [Platform] [ClassLoader] (serviceType : RangerServiceDef → Int)
  (configuration : RangerConfiguration) (options : RangerPolicyEngineOptions)
  (serviceName : String)

/-- A name node once its plugin has started. -/
def start (cacheFile : CacheFile) (builds : Bool)
    (hadoop : PermissionCheck → Except AccessControlException Unit) : HdfsNode where
  refresher := PolicyRefresher.loadFromCache configuration
    (PolicyRefresher.create options serviceName cacheFile) builds
  hadoop := hadoop

/-- The calls of a name node, as they stand after some turns. -/
def afterTurns (authorizer : RangerHdfsAuthorizer) (node : HdfsNode) (turns : List HdfsTurn) :
    Concurrent HdfsNode PermissionCheck HdfsQuestion.Answer
      (Except AccessControlException Unit × Option HdfsAuditEvent) :=
  Run.final (step authorizer.checkPermission (serve serviceType) (change configuration))
    { shared := node } turns

/-- The requests of a name node are about files. -/
abbrev BuiltOn (policies : ServicePolicies) (engine : RangerPolicyEngineImpl) : Prop :=
  RangerPolicyEngineImpl.Built (RangerAccessRequest.OneElement "path") policies options engine

/-- The plugin has an engine of the installed policies, if there are any. -/
structure Loaded (installed : Option ServicePolicies) (node : HdfsNode) : Prop where
  name : node.refresher.serviceName = serviceName
  settings : node.refresher.plugIn.policyEngineOptions = options
  built : ∀ policies ∈ installed, ∃ engine, node.refresher.plugIn.policyEngine = some engine ∧
    BuiltOn options policies engine

variable {serviceType configuration options serviceName} {installed : Option ServicePolicies}
  {node : HdfsNode}

theorem loaded_start (cacheFile : CacheFile) (builds : Bool)
    (hadoop : PermissionCheck → Except AccessControlException Unit) :
    Loaded options serviceName (installedAtStart serviceName cacheFile builds)
      (start configuration options serviceName cacheFile builds hadoop) := by
  have nothing : ∀ policies ∈ (none : Option ServicePolicies), ∃ engine,
      (none : Option RangerPolicyEngineImpl) = some engine ∧ BuiltOn options policies engine :=
    fun _ none => by cases none
  cases cacheFile with
  | absent => exact ⟨rfl, rfl, nothing⟩
  | unreadable => exact ⟨rfl, rfl, nothing⟩
  | content found =>
      cases found with
      | none => exact ⟨rfl, rfl, nothing⟩
      | some policies =>
          cases builds with
          | false => exact ⟨rfl, rfl, nothing⟩
          | true =>
              refine ⟨rfl, rfl, fun other same => ⟨_, rfl, ?_⟩⟩
              rw [← Option.some.inj same]
              exact RangerPolicyEngineImpl.built_create configuration

theorem Loaded.change (loaded : Loaded options serviceName installed node)
    (change : HdfsChange) :
    Loaded options serviceName (installedAfter serviceName installed (.outside change))
      (node.change configuration change) := by
  obtain ⟨name, settings, built⟩ := loaded
  subst name settings
  cases change with
  | files hadoop => exact ⟨rfl, rfl, built⟩
  | poll outcome =>
      cases outcome with
      | throws => exact ⟨rfl, rfl, built⟩
      | notUpdated => exact ⟨rfl, rfl, built⟩
      | updated policies failedSave builds =>
          cases builds with
          | false => exact ⟨rfl, rfl, built⟩
          | true =>
              refine ⟨rfl, rfl, fun other same => ⟨_, rfl, ?_⟩⟩
              rw [← Option.some.inj same]
              exact RangerPolicyEngineImpl.built_create configuration

/-- A node answers by the policies that are installed. -/
theorem Loaded.answers {policies : ServicePolicies}
    (loaded : Loaded options serviceName (some policies) node)
    (configuration : RangerConfiguration) (serviceType : RangerServiceDef → Int)
    {request : RangerAccessRequest} (file : request.OneElement "path") :
    ∃ result, (isAccessAllowed serviceType request node).1 = some result ∧
      result.serviceDef = policies.serviceDef ∧
      RangerPolicyEngineImpl.Says policies options configuration request
        result.toRangerAccessResult := by
  obtain ⟨engine, present, built⟩ := loaded.built policies rfl
  have agreed := (built.answer
    (fun _ _ => RangerPolicyEngineImpl.harmless_of_oneElement) configuration file).1
  obtain ⟨_, past, _, evaluators, _⟩ := built
  unfold isAccessAllowed
  rw [present]
  exact ⟨_, rfl, evaluators.serviceDef, agreed⟩

theorem Loaded.serve (loaded : Loaded options serviceName installed node)
    (configuration : RangerConfiguration) (check : PermissionCheck) (question : HdfsQuestion)
    (files : AboutFiles question) :
    Loaded options serviceName installed (HdfsNode.serve serviceType check question node).2 := by
  cases question with
  | checkPermission other => exact loaded
  | isAccessAllowed request =>
      change Loaded _ _ _ (isAccessAllowed serviceType request.toRangerAccessRequest node).2
      unfold isAccessAllowed
      cases present : node.refresher.plugIn.policyEngine with
      | none => exact loaded
      | some engine =>
          refine ⟨loaded.name, loaded.settings, fun policies same => ⟨_, rfl, ?_⟩⟩
          obtain ⟨other, found, built⟩ := loaded.built policies same
          rw [present] at found
          rw [Option.some.inj found]
          exact (built.answer (fun _ _ => RangerPolicyEngineImpl.harmless_of_oneElement)
            configuration files).2

omit [Platform] [ClassLoader] in
theorem asks_checkPermission (authorizer : RangerHdfsAuthorizer) (check : PermissionCheck) :
    (authorizer.checkPermission check).Meets (fun _ => AboutFiles) (fun _ _ => True) [] :=
  (checkPermission_mediated authorizer check).mono fun _ _ _ _ => trivial

/-- What is installed after a run is what the refresher installed last. -/
theorem loaded_of_run (authorizer : RangerHdfsAuthorizer) {state : Concurrent HdfsNode
      PermissionCheck HdfsQuestion.Answer
      (Except AccessControlException Unit × Option HdfsAuditEvent)}
    (asks : state.Asks AboutFiles)
    (loaded : Loaded options serviceName installed state.shared) (turns : List HdfsTurn) :
    (Run.final (step authorizer.checkPermission (HdfsNode.serve serviceType)
        (HdfsNode.change configuration)) state turns).Asks AboutFiles ∧
      Loaded options serviceName (turns.foldl (installedAfter serviceName) installed)
        (Run.final (step authorizer.checkPermission (HdfsNode.serve serviceType)
          (HdfsNode.change configuration)) state turns).shared := by
  induction turns generalizing installed state with
  | nil => exact ⟨asks, loaded⟩
  | cons turn rest ih =>
      refine ih (asks.step (asks_checkPermission authorizer) turn) ?_
      cases turn with
      | start check => exact loaded
      | proceed index =>
          exact asks.proceed_shared
            (fun check question files => loaded.serve configuration check question files) loaded
            index
      | outside change => exact loaded.change change

theorem loaded_afterTurns (authorizer : RangerHdfsAuthorizer)
    (loaded : Loaded options serviceName installed node) (turns : List HdfsTurn) :
    (afterTurns serviceType configuration authorizer node turns).Asks AboutFiles ∧
      Loaded options serviceName (turns.foldl (installedAfter serviceName) installed)
        (afterTurns serviceType configuration authorizer node turns).shared :=
  loaded_of_run authorizer (fun _ listed => absurd listed List.not_mem_nil) loaded turns

section Call

variable (configuration options) (authorizer : RangerHdfsAuthorizer)
  (inForce : ServicePolicies → Prop) (check : PermissionCheck)

/-- Policies that were in force allow an access type on the path of an inode. -/
def AllowedMeanwhile (inode : INode) (accessType : String) : Prop :=
  ∃ policies, inForce policies ∧ ∃ policy ∈ policies.policies,
    RangerPolicyEngineImpl.AllowedBy configuration policies options
      (authorizer.requestOf check inode accessType) policy

/-- No policy of some that were in force allows an access type on the path of an inode. -/
def ForbiddenMeanwhile (inode : INode) (accessType : String) : Prop :=
  ∃ policies, inForce policies ∧ ∀ policy ∈ policies.policies,
    ¬RangerPolicyEngineImpl.AllowedBy configuration policies options
      (authorizer.requestOf check inode accessType) policy

/-- What the policies that were in force say about a call that has been made. -/
structure Justified (past : HdfsHistory) (outcome : Except AccessControlException Unit)
    (logged : Option HdfsAuditEvent) : Prop where
  audits : authorizer.Audits check past outcome logged
  answered : ¬past.Unanswered
  granted : outcome.isOk = true → (∀ decided, ¬past.Decided decided) →
    StickyBit check ∧ Owner check ∧ ∀ inode action, Needs check inode action →
      ∀ accessType ∈ access2ActionListMapper action,
        AllowedMeanwhile configuration options authorizer inForce check inode accessType
  refused : outcome.isOk = false → (∀ decided, ¬past.Decided decided) →
    (authorizer.rangerPlugin && applies check) = true →
    ¬StickyBit check ∨ ¬Owner check ∨ Typeless check ∨
      ∃ inode action, Needs check inode action ∧ ∃ accessType ∈ access2ActionListMapper action,
        ForbiddenMeanwhile configuration options authorizer inForce check inode accessType
  logs : ∀ event ∈ logged, ∃ inode action, Needs check inode action ∧
    ∃ accessType ∈ access2ActionListMapper action, ∃ policies, inForce policies ∧
      RangerPolicyEngineImpl.AuditedBy policies options
        (authorizer.requestOf check inode accessType)
  attributed : ∀ event ∈ logged, (∀ decided, ¬past.Decided decided) → event.accessResult = 1 →
    ∃ inode action, Needs check inode action ∧ ∃ accessType ∈ access2ActionListMapper action,
      ∃ policies, inForce policies ∧ event.resultReason =
        (authorizer.requestOf check inode accessType).resource.getAsString policies.serviceDef ∧
        ∃ policy ∈ policies.policies,
          RangerPolicyEngineImpl.AllowedBy configuration policies options
            (authorizer.requestOf check inode accessType) policy ∧
          event.policyId = policy.id.getD UNKNOWN_POLICY

/-- Each question of the user is answered, by policies in force. -/
def Told (past : HdfsHistory) : Prop :=
  ∀ request (answer : Option RangerServiceAccessResult),
    (⟨.isAccessAllowed request, answer⟩ : HdfsEvent) ∈ past → ∃ result, answer = some result ∧
      ∃ policies, inForce policies ∧ result.serviceDef = policies.serviceDef ∧
        RangerPolicyEngineImpl.Says policies options configuration request.toRangerAccessRequest
          result.toRangerAccessResult

variable {configuration options authorizer inForce check}

theorem told_serve {past : HdfsHistory} (told : Told configuration options inForce past)
    {policies : ServicePolicies} (force : inForce policies)
    (loaded : Loaded options serviceName (some policies) node)
    (question : HdfsQuestion) (files : AboutFiles question) :
    Told configuration options inForce
      (past ++ [⟨question, (HdfsNode.serve serviceType check question node).1⟩]) := by
  intro request answer listed
  rcases List.mem_append.mp listed with before | last
  · exact told request answer before
  · cases question with
    | checkPermission other => cases List.mem_singleton.mp last
    | isAccessAllowed asked =>
        obtain ⟨result, served, serviceDef, agreed⟩ :=
          loaded.answers configuration serviceType files
        have same : (⟨.isAccessAllowed request, answer⟩ : HdfsEvent) = ⟨.isAccessAllowed asked,
          (isAccessAllowed serviceType asked.toRangerAccessRequest node).1⟩ :=
          List.mem_singleton.mp last
        rw [served] at same
        cases same
        exact ⟨result, rfl, policies, force, serviceDef, agreed⟩

/-- What was asked of a call, and what it was told, by policies in force. -/
theorem Told.needed {past : HdfsHistory} (told : Told configuration options inForce past)
    {outcome : Except AccessControlException Unit} {logged : Option HdfsAuditEvent}
    (audits : authorizer.Audits check past outcome logged)
    {answer : RangerHdfsAccessRequest × RangerServiceAccessResult} (listed : answer ∈ past.told) :
    ∃ inode action, Needs check inode action ∧ ∃ accessType ∈ access2ActionListMapper action,
      answer.1.toRangerAccessRequest = authorizer.requestOf check inode accessType ∧
        ∃ policies, inForce policies ∧ answer.2.serviceDef = policies.serviceDef ∧
          RangerPolicyEngineImpl.Says policies options configuration
            (authorizer.requestOf check inode accessType) answer.2.toRangerAccessResult := by
  obtain ⟨inode, action, needs, accessType, type, same⟩ := (audits.asked answer listed).needed
  obtain ⟨result, found, policies, force, serviceDef, agreed⟩ :=
    told answer.1 (some answer.2) (mem_of_mem_told listed)
  obtain rfl := Option.some.inj found
  rw [same] at agreed
  exact ⟨inode, action, needs, accessType, type, same, policies, force, serviceDef, agreed⟩

/-- What was not denied is allowed by policies in force. -/
theorem Told.allowed {past : HdfsHistory} (told : Told configuration options inForce past)
    {inode : INode} {accessType : String}
    (passes : authorizer.TypePasses check inode accessType past) :
    AllowedMeanwhile configuration options authorizer inForce check inode accessType := by
  obtain ⟨request, answer, listed, same, allowed⟩ := passes
  obtain ⟨result, found, policies, force, _, agreed⟩ := told request answer listed
  rw [same] at agreed
  exact ⟨policies, force, agreed.allowed.mp (allowed result found)⟩

theorem Told.justified {past : HdfsHistory} (told : Told configuration options inForce past)
    {outcome : Except AccessControlException Unit} {logged : Option HdfsAuditEvent}
    (audits : authorizer.Audits check past outcome logged)
    (mediated : outcome.isOk = true → (∀ decided, ¬past.Decided decided) →
      authorizer.Mediated check past) :
    Justified configuration options authorizer inForce check past outcome logged := by
  have answered : ¬past.Unanswered := by
    rintro ⟨request, listed⟩
    obtain ⟨result, impossible, _⟩ := told request none listed
    cases impossible
  refine ⟨audits, answered, fun passed never => ?_, fun failed never applied => ?_,
    fun event found => ?_, fun event found never granted => ?_⟩
  · have mediates := mediated passed never
    exact ⟨mediates.stickyBit, mediates.owner, fun inode action needs accessType listed =>
      told.allowed (mediates.actions inode action needs accessType listed)⟩
  · rcases audits.refused failed never applied with ⟨answer, last, denied⟩ | misses
    · obtain ⟨inode, action, needs, accessType, type, _, policies, force, _, agreed⟩ :=
        told.needed audits (List.mem_of_getLast? last)
      refine .inr (.inr (.inr ⟨inode, action, needs, accessType, type, policies, force, ?_⟩))
      intro policy member allowed
      rw [agreed.allowed.mpr ⟨policy, member, allowed⟩] at denied
      cases denied
    · rcases misses with ⟨_, sticky⟩ | owner | unanswered | typeless
      · exact .inl sticky
      · exact .inr (.inl owner)
      · exact absurd unanswered answered
      · exact .inr (.inr (.inl typeless))
  · obtain ⟨⟨answer, listed, audited⟩, _⟩ :=
      audits.logs.mp (Option.isSome_iff_exists.mpr ⟨event, found⟩)
    obtain ⟨inode, action, needs, accessType, type, _, policies, force, _, agreed⟩ :=
      told.needed audits listed
    exact ⟨inode, action, needs, accessType, type, policies, force, agreed.audited.mp audited⟩
  · obtain ⟨answer, last, _, id, _, _, reason, result, _⟩ := audits.byRanger event found never
    have allowed : answer.2.isAllowed = true := by
      by_contra denied
      rw [result, if_neg denied] at granted
      cases granted
    obtain ⟨inode, action, needs, accessType, type, same, policies, force, serviceDef, agreed⟩ :=
      told.needed audits (List.mem_of_getLast? last)
    obtain ⟨policy, member, allows, named⟩ := agreed.named allowed
    refine ⟨inode, action, needs, accessType, type, policies, force, ?_, policy, member, allows,
      id.trans named⟩
    rw [reason, serviceDef, ← same]

end Call

/-- Some policies that are in force meanwhile are installed. -/
def Current (options : RangerPolicyEngineOptions) (serviceName : String)
    (policies : ServicePolicies) (turns : List HdfsTurn) (node : HdfsNode) : Prop :=
  ∃ now, InForce serviceName policies turns now ∧ Loaded options serviceName (some now) node

/-- A call that is followed through a run. -/
theorem attends_afterTurns (serviceType : RangerServiceDef → Int)
    (configuration : RangerConfiguration) {policies : ServicePolicies}
    (authorizer : RangerHdfsAuthorizer) (check : PermissionCheck)
    {state : Concurrent HdfsNode PermissionCheck HdfsQuestion.Answer
      (Except AccessControlException Unit × Option HdfsAuditEvent)}
    (asks : state.Asks AboutFiles)
    (loaded : Loaded options serviceName (some policies) state.shared) (after : List HdfsTurn) :
    (Run.final (step authorizer.checkPermission (HdfsNode.serve serviceType)
        (HdfsNode.change configuration)) state (.start check :: after)).Attends
      (Current options serviceName policies after) AboutFiles check
      (Told configuration options (InForce serviceName policies after))
      (fun past result => authorizer.Audits check past result.1 result.2 ∧
        (result.1.isOk = true → (∀ decided, ¬HdfsHistory.Decided past decided) →
          authorizer.Mediated check past)) state.tasks.length := by
  refine attends_of_run (fun change => .outside change ∈ after) (asks_checkPermission authorizer)
    ?keeps ?tells ?changes (attends_start ⟨policies, .inl rfl, loaded⟩ asks
      (asks_checkPermission authorizer) ?nothing
      ((checkPermission_audits authorizer check).and (checkPermission_mediated authorizer check)))
    fun _ listed => listed
  case nothing => exact fun _ _ listed => absurd listed List.not_mem_nil
  case keeps =>
    intro other question node files current
    obtain ⟨now, force, loaded⟩ := current
    exact ⟨now, force, loaded.serve configuration other question files⟩
  case tells =>
    intro past question node told files current
    obtain ⟨now, force, loaded⟩ := current
    exact told_serve told force loaded question files
  case changes =>
    intro change node listed current
    obtain ⟨now, force, loaded⟩ := current
    obtain ⟨next, same, follows⟩ := force.installedAfter listed
    exact ⟨next, follows, same ▸ loaded.change change⟩

end Runs

section Reading

attribute [local instance] Platform.ascii ClassLoader.addresses

open RangerOptimizedPolicyEvaluator (pathServiceDef)

private def dataPolicies : ServicePolicies where
  serviceName := "cluster"
  serviceDef := pathServiceDef
  policies := [{
    id := some 7
    resources := .single "path" { values := ["/data"] }
    policyItems := [{ accesses := [{ type := "read" }], users := ["alice"] }] }]

private def reading : PermissionCheck where
  ugi := some ⟨"alice", []⟩
  inodeAttrs := []
  inodes := [some (.file "/data" { userName := some "hdfs" })]
  path := "/data"
  ancestorIndex := 0
  access := some .read

private def dataRequest : RangerHdfsAccessRequest :=
  RangerHdfsAccessRequest.create "/data" (some "hdfs") (some .read) "read" (some "alice") (some [])
    none

private def dataEvent : HdfsAuditEvent where
  repositoryType := 1
  repositoryName := some "cluster"
  user := some "alice"
  accessType := some "READ"
  resourcePath := some "/data"
  resourceType := some "path"
  accessResult := 1
  policyId := 7
  resultReason := some "/data"
  aclEnforcer := some "xasecure-acl"
  logType := some "RangerAudit"

private def dataResult : RangerServiceAccessResult where
  isAccessDetermined := true
  isAllowed := true
  isAuditedDetermined := true
  isAudited := true
  policyId := 7
  serviceName := "cluster"
  serviceType := 1
  serviceDef := pathServiceDef

end Reading

end HdfsNode

end Ranger
