import Ranger.PolicyEngine.Engine

/-! # The policy refresher of a plugin

A thread that installs the policies of its cache file when it starts and polls
the administration server for newer ones afterwards. Everything that can go
wrong outside is an outcome of a step: what the file holds, what the server
answers, whether saving fails and whether an engine can be built.
-/

namespace Ranger

open Foundation

/-- The cache file: missing, not parsed, or parsed to policies or to null. -/
inductive CacheFile where
  | absent
  | unreadable
  | content (policies : Option ServicePolicies)

/-- What one poll of the server leads to. -/
inductive PollOutcome where
  | throws
  | notUpdated
  | updated (policies : ServicePolicies) (failedSave : Option CacheFile) (builds : Bool)

structure RangerBasePlugin where
  policyEngineOptions : RangerPolicyEngineOptions
  policyEngine : Option RangerPolicyEngineImpl := none

structure PolicyRefresher where
  plugIn : RangerBasePlugin
  serviceName : String
  cacheFile : CacheFile
  lastKnownVersion : Int := -1

namespace PolicyRefresher

/-- A refresher as the plugin's `init` creates it. -/
def create (options : RangerPolicyEngineOptions) (serviceName : String) (cacheFile : CacheFile) :
    PolicyRefresher where
  plugIn := { policyEngineOptions := options }
  serviceName := serviceName
  cacheFile := cacheFile

/-- `saveToCache`: a failure is logged, whatever it leaves in the file. -/
def saveToCache (refresher : PolicyRefresher) (policies : ServicePolicies)
    (failedSave : Option CacheFile) : PolicyRefresher :=
  { refresher with cacheFile := failedSave.getD (.content (some policies)) }

/-- The version of the installed engine, -1 without one. -/
def installedVersion (refresher : PolicyRefresher) : Int :=
  match refresher.plugIn.policyEngine with
  | none => -1
  | some policyEngine => policyEngine.getPolicyVersion

def Consistent (refresher : PolicyRefresher) : Prop :=
  refresher.lastKnownVersion = refresher.installedVersion

/-- Policies are installed, or carry the version that is installed already. -/
def Installs (refresher : PolicyRefresher) (policies : ServicePolicies) (builds : Bool) : Prop :=
  builds = true ∨ policies.policyVersion.getD (-1) = refresher.installedVersion

/-- A start that installs the policies it finds. -/
def StartInstalls (refresher : PolicyRefresher) (builds : Bool) : Prop :=
  ∀ policies, refresher.cacheFile = .content (some policies) → refresher.Installs policies builds

/-- A poll that installs the policies it is given. -/
def PollInstalls (refresher : PolicyRefresher) (outcome : PollOutcome) : Prop :=
  ∀ policies failedSave builds, outcome = .updated policies failedSave builds →
    refresher.Installs policies builds

end PolicyRefresher

section Setting

variable [Platform] [ClassLoader] (configuration : RangerConfiguration)

/-- `RangerBasePlugin.setPolicies`, none when building the engine throws. -/
def RangerBasePlugin.setPolicies (plugIn : RangerBasePlugin) (builds : Bool)
    (policies : ServicePolicies) : Option RangerBasePlugin :=
  if builds then
    some { plugIn with
      policyEngine := some (RangerPolicyEngineImpl.create configuration policies
        plugIn.policyEngineOptions) }
  else none

namespace PolicyRefresher

/-- `plugIn.setPolicies` inside a block that catches what it throws. -/
def setPolicies (refresher : PolicyRefresher) (policies : ServicePolicies) (builds : Bool) :
    PolicyRefresher :=
  match refresher.plugIn.setPolicies configuration builds policies with
  | none => refresher
  | some plugIn => { refresher with plugIn := plugIn }

def loadFromCache (refresher : PolicyRefresher) (builds : Bool) : PolicyRefresher :=
  match refresher.cacheFile with
  | .absent => refresher
  | .unreadable => refresher
  | .content none => refresher
  | .content (some policies) =>
      let policies := { policies with serviceName := refresher.serviceName }
      setPolicies configuration
        { refresher with lastKnownVersion := policies.policyVersion.getD (-1) } policies builds

/-- One turn of the loop of `run`. -/
def poll (refresher : PolicyRefresher) : PollOutcome → PolicyRefresher
  | .throws => refresher
  | .notUpdated => refresher
  | .updated policies failedSave builds =>
      let newVersion := policies.policyVersion.getD (-1)
      let policies := { policies with serviceName := refresher.serviceName }
      let refresher := refresher.saveToCache policies failedSave
      setPolicies configuration { refresher with lastKnownVersion := newVersion } policies builds

/-- The refresher after `startRefresher` and a number of polls. -/
def afterPolls (options : RangerPolicyEngineOptions) (serviceName : String) (cacheFile : CacheFile)
    (builds : Bool) (polls : List PollOutcome) : PolicyRefresher :=
  Run.final (fun refresher outcome => ((), poll configuration refresher outcome))
    (loadFromCache configuration (create options serviceName cacheFile) builds) polls

variable {configuration}

/-- After an installation was tried, the version known is the one installed
exactly when the engine was built or nothing was to change. -/
private theorem setPolicies_consistent_iff (refresher : PolicyRefresher)
    (policies : ServicePolicies) (builds : Bool)
    (known : refresher.lastKnownVersion = policies.policyVersion.getD (-1)) :
    (setPolicies configuration refresher policies builds).Consistent ↔
      refresher.Installs policies builds := by
  cases builds with
  | true => simp [setPolicies, RangerBasePlugin.setPolicies, Consistent, Installs, known,
      installedVersion, RangerPolicyEngineImpl.getPolicyVersion, RangerPolicyEngineImpl.create,
      RangerPolicyRepository.create]
  | false => simp [setPolicies, RangerBasePlugin.setPolicies, Consistent, Installs, known]

theorem loadFromCache_consistent_iff (configuration : RangerConfiguration)
    (options : RangerPolicyEngineOptions) (serviceName : String) (cacheFile : CacheFile)
    (builds : Bool) :
    (loadFromCache configuration (create options serviceName cacheFile) builds).Consistent ↔
      (create options serviceName cacheFile).StartInstalls builds := by
  unfold loadFromCache StartInstalls
  cases cacheFile with
  | absent => simp [create, Consistent, installedVersion]
  | unreadable => simp [create, Consistent, installedVersion]
  | content found =>
      cases found with
      | none => simp [create, Consistent, installedVersion]
      | some policies =>
          refine (setPolicies_consistent_iff _ _ builds rfl).trans ?_
          simp [create, Installs, installedVersion]

theorem poll_consistent_iff {refresher : PolicyRefresher} (consistent : refresher.Consistent)
    (outcome : PollOutcome) :
    (poll configuration refresher outcome).Consistent ↔ refresher.PollInstalls outcome := by
  unfold poll PollInstalls
  cases outcome with
  | throws => simpa using consistent
  | notUpdated => simpa using consistent
  | updated policies failedSave builds =>
      refine (setPolicies_consistent_iff _ _ builds rfl).trans ?_
      simp [Installs, installedVersion, saveToCache]

/-- **Refresh consistency.** The version known is the version installed, after
the start and after every poll, exactly when the start and every poll install
the policies they come by or find that version installed already. -/
theorem afterPolls_consistent_iff (configuration : RangerConfiguration)
    (options : RangerPolicyEngineOptions) (serviceName : String) (cacheFile : CacheFile)
    (builds : Bool) (polls : List PollOutcome) :
    (∀ done rest, polls = done ++ rest →
      (afterPolls configuration options serviceName cacheFile builds done).Consistent) ↔
    (create options serviceName cacheFile).StartInstalls builds ∧
      ∀ done outcome rest, polls = done ++ outcome :: rest →
        (afterPolls configuration options serviceName cacheFile builds done).PollInstalls
          outcome := by
  unfold afterPolls
  rw [← loadFromCache_consistent_iff configuration]
  generalize loadFromCache configuration (create options serviceName cacheFile) builds = start
  have steps : ∀ refresher outcome, Consistent refresher →
      (Consistent (poll configuration refresher outcome) ↔ PollInstalls refresher outcome) :=
    fun _ outcome consistent => poll_consistent_iff consistent outcome
  constructor
  · intro throughout
    have consistent : start.Consistent := throughout [] polls rfl
    exact ⟨consistent, (Run.forall_prefix_iff steps consistent polls).mp throughout⟩
  · rintro ⟨consistent, installs⟩
    exact (Run.forall_prefix_iff steps consistent polls).mpr installs

end PolicyRefresher

end Setting

section FailedInstallation

attribute [local instance] Platform.ascii ClassLoader.addresses

def fifthVersion : ServicePolicies where
  serviceName := "cluster"
  serviceDef := { name := "hdfs", resources := [{ name := "path" }], accessTypes := [] }
  policies := []
  policyVersion := some 5

/-- An engine that cannot be built leaves its version behind as the one known:
nothing is installed, and the next poll asks for what is newer. -/
theorem failed_installation_known :
    (PolicyRefresher.afterPolls ∅ {} "cluster" .absent true
        [.updated fifthVersion none false]).lastKnownVersion = 5 ∧
      (PolicyRefresher.afterPolls ∅ {} "cluster" .absent true
        [.updated fifthVersion none false]).installedVersion = -1 := by
  decide

end FailedInstallation

end Ranger
