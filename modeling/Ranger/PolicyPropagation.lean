import Ranger.Admin.DownloadFreshness
import Ranger.PolicyEngine.OneElement
import Ranger.PolicyEngine.Attribution
import Ranger.PolicyRefresher

/-! # Policies on their way to the plugins

A plugin polls the server. The server answers from its rows, and the answer arrives later or
not at all. Meanwhile the rows change, the plugin answers requests by the engine it has, or
starts again from its cache file.
-/

namespace Ranger

open Foundation

/-- How the content of rows is read. -/
structure RowViews (δ β : Type) where
  serviceDef : Int × XXServiceDef δ → RangerServiceDef
  policy : Int × String × β → RangerPolicy

def RowViews.read {δ β : Type} (views : RowViews δ β) (download : ServiceDownload δ β) :
    ServicePolicies where
  serviceName := download.serviceName
  serviceDef := views.serviceDef download.serviceDef
  policies := download.policies.map views.policy
  policyVersion := download.policyVersion

/-- What becomes of the cache file when policies are saved: it may be left as it was, or
without policies that can be read. -/
inductive Saving where
  | saved
  | kept
  | cut
  | emptied

def Saving.failedSave (cacheFile : CacheFile) : Saving → Option CacheFile
  | saved => none
  | kept => some cacheFile
  | cut => some .unreadable
  | emptied => some (.content none)

/-- A refresher, with the answer that is on its way to it. -/
structure PollingPlugin (δ β : Type) where
  refresher : PolicyRefresher
  answer : Option (Throws (Option (ServiceDownload δ β))) := none

namespace PollingPlugin

section Steps

variable [Platform] [ClassLoader] {δ β : Type} (configuration : RangerConfiguration)
  (views : RowViews δ β) (plugin : PollingPlugin δ β)

/-- What a poll comes to when its answer arrives. -/
def pollOutcome (saving : Saving) (builds : Bool) :
    Throws (Option (ServiceDownload δ β)) → PollOutcome
  | .error _ => .throws
  | .ok none => .notUpdated
  | .ok (some download) =>
      .updated (views.read download) (saving.failedSave plugin.refresher.cacheFile) builds

def receive (saving : Saving) (builds : Bool) : PollingPlugin δ β :=
  match plugin.answer with
  | none => plugin
  | some answer =>
      { refresher := PolicyRefresher.poll configuration plugin.refresher
          (plugin.pollOutcome views saving builds answer) }

/-- The answer does not arrive. -/
def lose : PollingPlugin δ β where
  refresher := PolicyRefresher.poll configuration plugin.refresher .throws

/-- The process of the plugin starts again. -/
def restart (builds : Bool) : PollingPlugin δ β where
  refresher := PolicyRefresher.loadFromCache configuration
    (PolicyRefresher.create plugin.refresher.plugIn.policyEngineOptions
      plugin.refresher.serviceName plugin.refresher.cacheFile) builds

/-- `RangerBasePlugin.isAccessAllowed`. -/
def isAccessAllowed (request : RangerAccessRequest) :
    Option RangerAccessResult × PollingPlugin δ β :=
  match plugin.refresher.plugIn.policyEngine with
  | none => (none, plugin)
  | some engine =>
      (some (engine.isAccessAllowedNoAudit request).1,
        { plugin with
          refresher :=
            { plugin.refresher with
              plugIn :=
                { plugin.refresher.plugIn with
                  policyEngine := some (engine.isAccessAllowedNoAudit request).2 } } })

end Steps

end PollingPlugin

/-- The store of the server, and the plugins. -/
structure Deployment (κ δ β : Type) where
  history : StoreHistory δ β := {}
  plugins : κ → PollingPlugin δ β

inductive DeploymentEvent (κ δ β : Type) where
  | call (call : StoreCall δ β)
  /-- The server answers the poll of a plugin. -/
  | ask (key : κ)
  | receive (key : κ) (saving : Saving) (builds : Bool)
  | lose (key : κ)
  | restart (key : κ) (builds : Bool)
  | request (key : κ) (request : RangerAccessRequest)

namespace Deployment

section Steps

variable {κ δ β : Type} [DecidableEq κ]

def setPlugin (deployment : Deployment κ δ β) (key : κ) (plugin : PollingPlugin δ β) :
    Deployment κ δ β :=
  { deployment with plugins := Function.update deployment.plugins key plugin }

variable [Platform] [ClassLoader] (configuration : RangerConfiguration) (views : RowViews δ β)

/-- A plugin polls again when its last poll is over. -/
def ask (deployment : Deployment κ δ β) (key : κ) : Deployment κ δ β :=
  let plugin := deployment.plugins key
  match plugin.answer with
  | some _ => deployment
  | none =>
      let serviceName := plugin.refresher.serviceName
      let lastKnownVersion := some plugin.refresher.lastKnownVersion
      let polled := { deployment with
        history := deployment.history.step (.download serviceName lastKnownVersion) }
      polled.setPlugin key
        { plugin with
          answer := some
            (deployment.history.rows.getServicePoliciesIfUpdated serviceName lastKnownVersion) }

def step (deployment : Deployment κ δ β) :
    DeploymentEvent κ δ β → Option RangerAccessResult × Deployment κ δ β
  | .call call => (none, { deployment with history := deployment.history.step (.call call) })
  | .ask key => (none, deployment.ask key)
  | .receive key saving builds =>
      (none, deployment.setPlugin key
        ((deployment.plugins key).receive configuration views saving builds))
  | .lose key =>
      (none, deployment.setPlugin key ((deployment.plugins key).lose configuration))
  | .restart key builds =>
      (none, deployment.setPlugin key ((deployment.plugins key).restart configuration builds))
  | .request key request =>
      (((deployment.plugins key).isAccessAllowed request).1,
        deployment.setPlugin key ((deployment.plugins key).isAccessAllowed request).2)

/-- Plugins that have been started without cache files, over an empty store. -/
def start (serviceNames : κ → String) (options : κ → RangerPolicyEngineOptions) :
    Deployment κ δ β where
  plugins key :=
    { refresher := PolicyRefresher.create (options key) (serviceNames key) .absent }

variable (serviceNames : κ → String) (options : κ → RangerPolicyEngineOptions)

def run (events : List (DeploymentEvent κ δ β)) : Deployment κ δ β :=
  Run.final (step configuration views) (start serviceNames options) events

end Steps

end Deployment

namespace ServiceRows

variable [Platform] {δ β : Type} {rows : ServiceRows δ β} {serviceName : String}
  {download : ServiceDownload δ β}

/-- What a client that holds nothing is given. -/
def Shows (rows : ServiceRows δ β) (serviceName : String) (download : ServiceDownload δ β) :
    Prop :=
  rows.getServicePoliciesIfUpdated serviceName none = .ok (some download)

theorem Shows.named (shows : rows.Shows serviceName download) :
    download.serviceName = serviceName :=
  (StoreHistory.getServicePoliciesIfUpdated_eq_some shows).1

/-- What a client is given does not depend on what it holds. -/
theorem shows_of_given {lastKnownVersion : Option Int}
    (given : rows.getServicePoliciesIfUpdated serviceName lastKnownVersion = .ok (some download)) :
    rows.Shows serviceName download := by
  unfold Shows
  unfold getServicePoliciesIfUpdated at given ⊢
  split at given
  · cases given
  · split at given
    · cases given
    · exact given

/-- A client is given what is shown, unless it knows the version of the service. -/
theorem Shows.answer (shows : rows.Shows serviceName download) (lastKnownVersion : Int) :
    rows.getServicePoliciesIfUpdated serviceName (some lastKnownVersion) = .ok (some download) ∨
      (rows.getServicePoliciesIfUpdated serviceName (some lastKnownVersion) = .ok none ∧
        download.policyVersion = some lastKnownVersion) := by
  have version : ∀ id service, rows.findService serviceName = some (id, service) →
      download.policyVersion = service.policyVersion := by
    intro id service found
    obtain ⟨_, other, same, located, shown, _⟩ :=
      StoreHistory.getServicePoliciesIfUpdated_eq_some shows
    rw [located] at found
    cases found
    exact shown
  unfold Shows getServicePoliciesIfUpdated at shows
  unfold getServicePoliciesIfUpdated
  split at shows
  · cases shows
  · rename_i id service found
    rw [if_neg fun held => Bool.false_ne_true held.1] at shows
    split
    · rename_i held
      exact .inr ⟨rfl, (version id service found).trans held.2⟩
    · exact .inl shows

end ServiceRows

namespace PollingPlugin

section Traced

variable [Platform] {δ β : Type} (alike : RangerAccessRequest → Prop)
  (views : RowViews δ β) (serviceName : String) (options : RangerPolicyEngineOptions)
  (given : ServiceDownload δ β → Prop) (download : ServiceDownload δ β)

/-- The engine of a plugin is one of a download. -/
def Installed (plugin : PollingPlugin δ β) : Prop :=
  ∃ engine, plugin.refresher.plugIn.policyEngine = some engine ∧
    RangerPolicyEngineImpl.Built alike (views.read download) options engine

/-- All that a plugin has was given to it. -/
structure Traced (plugin : PollingPlugin δ β) : Prop where
  name : plugin.refresher.serviceName = serviceName
  settings : plugin.refresher.plugIn.policyEngineOptions = options
  engine : plugin.refresher.plugIn.policyEngine = none ∨
    ∃ download, given download ∧ Installed alike views options download plugin
  cached : ∀ policies, plugin.refresher.cacheFile = .content (some policies) →
    ∃ download, given download ∧ policies = views.read download
  answer : ∀ download, plugin.answer = some (.ok (some download)) → given download

variable {alike views serviceName options given download} {plugin : PollingPlugin δ β}

theorem Traced.mono (traced : Traced alike views serviceName options given plugin)
    {more : ServiceDownload δ β → Prop} (within : ∀ download, given download → more download) :
    Traced alike views serviceName options more plugin where
  name := traced.name
  settings := traced.settings
  engine := traced.engine.imp_right fun ⟨download, listed, installed⟩ =>
    ⟨download, within download listed, installed⟩
  cached := fun policies same => by
    obtain ⟨download, listed, read⟩ := traced.cached policies same
    exact ⟨download, within download listed, read⟩
  answer := fun download same => within download (traced.answer download same)

theorem Traced.waiting (traced : Traced alike views serviceName options given plugin)
    {waiting : Option (Throws (Option (ServiceDownload δ β)))}
    (answer : ∀ download, waiting = some (.ok (some download)) → given download) :
    Traced alike views serviceName options given { plugin with answer := waiting } where
  name := traced.name
  settings := traced.settings
  engine := traced.engine
  cached := traced.cached
  answer := answer

variable [ClassLoader] {configuration : RangerConfiguration}

/-- A refresher that has taken over a download, with an engine of it if that is built. -/
theorem Traced.takeOver (traced : Traced alike views serviceName options given plugin)
    (listed : given download) (named : download.serviceName = serviceName)
    {cacheFile : CacheFile} (builds : Bool)
    (cached : ∀ policies, cacheFile = .content (some policies) →
      ∃ download, given download ∧ policies = views.read download) :
    Traced alike views serviceName options given
      { refresher := PolicyRefresher.setPolicies configuration
          { plugin.refresher with
            cacheFile := cacheFile
            lastKnownVersion := download.policyVersion.getD (-1) }
          { views.read download with serviceName := plugin.refresher.serviceName } builds } := by
  have same : ({ views.read download with serviceName := plugin.refresher.serviceName } :
      ServicePolicies) = views.read download := by
    rw [traced.name, ← named]
    rfl
  rw [same]
  cases builds with
  | false =>
      exact ⟨traced.name, traced.settings, traced.engine, cached,
        fun _ impossible => by cases impossible⟩
  | true =>
      refine ⟨traced.name, traced.settings, .inr ⟨download, listed, _, rfl, ?_⟩, cached,
        fun _ impossible => by cases impossible⟩
      rw [traced.settings]
      exact RangerPolicyEngineImpl.built_create configuration

theorem Traced.lose (traced : Traced alike views serviceName options given plugin) :
    Traced alike views serviceName options given (plugin.lose configuration) :=
  traced.waiting fun _ impossible => by cases impossible

/-- What a plugin is given it may save and install. -/
theorem Traced.receive (traced : Traced alike views serviceName options given plugin)
    (named : ∀ download, given download → download.serviceName = serviceName) (saving : Saving)
    (builds : Bool) :
    Traced alike views serviceName options given
      (plugin.receive configuration views saving builds) := by
  have unchanged : Traced alike views serviceName options given
      { refresher := plugin.refresher } := traced.waiting fun _ impossible => by cases impossible
  unfold PollingPlugin.receive
  cases arriving : plugin.answer with
  | none => exact traced
  | some answer =>
      cases answer with
      | error _ => exact unchanged
      | ok told =>
          cases told with
          | none => exact unchanged
          | some download =>
              have listed := traced.answer download arriving
              refine traced.takeOver listed (named download listed) builds fun policies left => ?_
              cases saving with
              | saved =>
                  refine ⟨download, listed, ?_⟩
                  cases left
                  rw [traced.name, ← named download listed]
                  rfl
              | kept => exact traced.cached policies left
              | cut => cases left
              | emptied => cases left

/-- A plugin starts with what it has saved. -/
theorem Traced.restart (traced : Traced alike views serviceName options given plugin)
    (named : ∀ download, given download → download.serviceName = serviceName) (builds : Bool) :
    Traced alike views serviceName options given (plugin.restart configuration builds) := by
  have bare : Traced alike views serviceName options given
      { refresher := PolicyRefresher.create plugin.refresher.plugIn.policyEngineOptions
          plugin.refresher.serviceName plugin.refresher.cacheFile } :=
    ⟨traced.name, traced.settings, .inl rfl, traced.cached, fun _ impossible => by cases impossible⟩
  have saved := traced.cached
  obtain ⟨⟨plugIn, name, cacheFile, lastKnownVersion⟩, answer⟩ := plugin
  cases cacheFile with
  | absent => exact bare
  | unreadable => exact bare
  | content found =>
      cases found with
      | none => exact bare
      | some policies =>
          obtain ⟨download, listed, rfl⟩ := saved policies rfl
          exact bare.takeOver listed (named download listed) builds saved

/-- A plugin answers by what it has installed, and goes on to. -/
theorem Installed.answers (installed : Installed alike views options download plugin)
    (harmless : ∀ policies earlier later, alike earlier → alike later →
      RangerPolicyEngineImpl.Harmless policies options earlier later)
    (configuration : RangerConfiguration) {request : RangerAccessRequest} (kind : alike request) :
    ∃ result, (plugin.isAccessAllowed request).1 = some result ∧
      RangerPolicyEngineImpl.Says (views.read download) options configuration request result ∧
      Installed alike views options download (plugin.isAccessAllowed request).2 := by
  obtain ⟨engine, present, built⟩ := installed
  obtain ⟨agreed, still⟩ :=
    built.answer (harmless (views.read download)) configuration kind
  unfold PollingPlugin.isAccessAllowed
  rw [present]
  exact ⟨_, rfl, agreed, _, rfl, still⟩

theorem Traced.isAccessAllowed (configuration : RangerConfiguration)
    (traced : Traced alike views serviceName options given plugin)
    (harmless : ∀ policies earlier later, alike earlier → alike later →
      RangerPolicyEngineImpl.Harmless policies options earlier later)
    {request : RangerAccessRequest} (kind : alike request) :
    Traced alike views serviceName options given (plugin.isAccessAllowed request).2 ∧
      ∀ result, (plugin.isAccessAllowed request).1 = some result →
        ∃ download, given download ∧ RangerPolicyEngineImpl.Says (views.read download) options
          configuration request result := by
  rcases traced.engine with absent | ⟨download, listed, installed⟩
  · unfold PollingPlugin.isAccessAllowed
    rw [absent]
    exact ⟨traced, fun _ impossible => by cases impossible⟩
  · obtain ⟨result, answered, agreed, still⟩ := installed.answers harmless configuration kind
    refine ⟨?_, fun other same => ?_⟩
    · have untouched : (plugin.isAccessAllowed request).2.refresher.serviceName =
            plugin.refresher.serviceName ∧
          (plugin.isAccessAllowed request).2.refresher.plugIn.policyEngineOptions =
            plugin.refresher.plugIn.policyEngineOptions ∧
          (plugin.isAccessAllowed request).2.refresher.cacheFile = plugin.refresher.cacheFile ∧
          (plugin.isAccessAllowed request).2.answer = plugin.answer := by
        unfold PollingPlugin.isAccessAllowed
        split <;> exact ⟨rfl, rfl, rfl, rfl⟩
      obtain ⟨name, settings, cacheFile, answer⟩ := untouched
      exact ⟨name.trans traced.name, settings.trans traced.settings, .inr ⟨download, listed, still⟩,
        fun policies saved => traced.cached policies (cacheFile ▸ saved),
        fun download waiting => traced.answer download (answer ▸ waiting)⟩
    · rw [answered] at same
      rw [← Option.some.inj same]
      exact ⟨download, listed, agreed⟩

end Traced

end PollingPlugin

namespace Deployment

section Runs

variable {κ δ β : Type} [DecidableEq κ] [Platform] {deployment : Deployment κ δ β}

/-- What a poll downloads is what is shown. -/
theorem mem_downloads_ask (key : κ) {download : ServiceDownload δ β}
    (listed : download ∈ (deployment.ask key).history.downloads) :
    download ∈ deployment.history.downloads ∨
      deployment.history.rows.Shows download.serviceName download := by
  unfold ask setPlugin at listed
  dsimp only at listed
  split at listed
  · exact .inl listed
  · dsimp only [StoreHistory.step] at listed
    split at listed
    · rename_i given
      rcases List.mem_append.mp listed with old | new
      · exact .inl old
      · rw [List.mem_singleton.mp new]
        have shows := ServiceRows.shows_of_given given
        rw [shows.named]
        exact .inr shows
    · exact .inl listed

/-- All that the plugins have was downloaded under their names. -/
def Traced (alike : RangerAccessRequest → Prop) (views : RowViews δ β) (serviceNames : κ → String)
    (options : κ → RangerPolicyEngineOptions) (deployment : Deployment κ δ β) : Prop :=
  ∀ key, PollingPlugin.Traced alike views (serviceNames key) (options key)
    (fun download => download ∈ deployment.history.downloads ∧
      download.serviceName = serviceNames key) (deployment.plugins key)

variable {views : RowViews δ β} {alike : RangerAccessRequest → Prop} {serviceNames : κ → String}
  {options : κ → RangerPolicyEngineOptions}

theorem Traced.setPlugin (traced : Traced alike views serviceNames options deployment) {key : κ}
    {plugin : PollingPlugin δ β}
    (next : PollingPlugin.Traced alike views (serviceNames key) (options key)
      (fun download => download ∈ deployment.history.downloads ∧
        download.serviceName = serviceNames key) plugin) :
    Traced alike views serviceNames options (deployment.setPlugin key plugin) := by
  intro other
  unfold Deployment.setPlugin
  dsimp only
  by_cases same : other = key
  · subst same
    rw [Function.update_self]
    exact next
  · rw [Function.update_of_ne same]
    exact traced other

omit [DecidableEq κ] in
/-- Rows that change, and more that is downloaded. -/
theorem Traced.withHistory (traced : Traced alike views serviceNames options deployment)
    {history : StoreHistory δ β}
    (more : ∀ download ∈ deployment.history.downloads, download ∈ history.downloads) :
    Traced alike views serviceNames options { deployment with history := history } :=
  fun key => (traced key).mono fun download held => ⟨more download held.1, held.2⟩

theorem downloads_step (history : StoreHistory δ β) (event : StoreEvent δ β) :
    ∀ download ∈ history.downloads, download ∈ (history.step event).downloads := by
  intro download listed
  cases event with
  | call call => exact listed
  | download serviceName lastKnownVersion =>
      dsimp only [StoreHistory.step]
      split
      · exact List.mem_append_left _ listed
      · exact listed

theorem Traced.ask (traced : Traced alike views serviceNames options deployment) (key : κ) :
    Traced alike views serviceNames options (deployment.ask key) := by
  unfold Deployment.ask
  dsimp only
  split
  · exact traced
  · have polled := traced.withHistory (downloads_step deployment.history (.download
      (deployment.plugins key).refresher.serviceName
      (some (deployment.plugins key).refresher.lastKnownVersion)))
    refine polled.setPlugin ((polled key).waiting fun download answered => ?_)
    have given := Option.some.inj answered
    refine ⟨?_, ?_⟩
    · dsimp only [StoreHistory.step]
      rw [given]
      exact List.mem_append_right _ List.mem_cons_self
    · rw [(ServiceRows.shows_of_given given).named]
      exact (traced key).name

variable [ClassLoader] {configuration : RangerConfiguration}

/-- Requests are of one kind. -/
def Asks (alike : RangerAccessRequest → Prop) : DeploymentEvent κ δ β → Prop
  | .request _ request => alike request
  | _ => True

/-- Whatever happens, a plugin has what was downloaded. -/
theorem Traced.step (traced : Traced alike views serviceNames options deployment)
    (harmless : ∀ policies options earlier later, alike earlier → alike later →
      RangerPolicyEngineImpl.Harmless policies options earlier later)
    (event : DeploymentEvent κ δ β) (kind : Asks alike event) :
    Traced alike views serviceNames options (step configuration views deployment event).2 := by
  have named : ∀ key download, (download ∈ deployment.history.downloads ∧
      download.serviceName = serviceNames key) → download.serviceName = serviceNames key :=
    fun _ _ held => held.2
  cases event with
  | call call => exact traced.withHistory (downloads_step deployment.history (.call call))
  | ask key => exact traced.ask key
  | receive key saving builds =>
      exact traced.setPlugin ((traced key).receive (named key) saving builds)
  | lose key => exact traced.setPlugin (traced key).lose
  | restart key builds => exact traced.setPlugin ((traced key).restart (named key) builds)
  | request key request =>
      exact traced.setPlugin
        ((traced key).isAccessAllowed configuration (fun policies => harmless policies _) kind).1

omit [DecidableEq κ] [ClassLoader] in
theorem traced_start :
    Traced alike views serviceNames options (start (δ := δ) (β := β) serviceNames options) :=
  fun _ => ⟨rfl, rfl, .inl rfl, fun _ impossible => (by cases impossible),
    fun _ impossible => (by cases impossible)⟩

theorem run_concat (events : List (DeploymentEvent κ δ β)) (event : DeploymentEvent κ δ β) :
    run configuration views serviceNames options (events ++ [event]) =
      (step configuration views (run configuration views serviceNames options events) event).2 := by
  unfold run
  rw [Run.final_append]
  rfl

theorem Traced.run
    (harmless : ∀ policies options earlier later, alike earlier → alike later →
      RangerPolicyEngineImpl.Harmless policies options earlier later)
    {events : List (DeploymentEvent κ δ β)} (kinds : ∀ event ∈ events, Asks alike event) :
    Traced alike views serviceNames options
      (run configuration views serviceNames options events) := by
  induction events using List.reverseRecOn with
  | nil => exact traced_start
  | append_singleton events event ih =>
      rw [run_concat]
      refine (ih fun earlier listed => kinds earlier (List.mem_append_left _ listed)).step
        harmless event (kinds event (List.mem_append_right _ List.mem_cons_self))

/-- What was downloaded in a run was shown at some time in it. -/
theorem shown_of_mem_downloads {events : List (DeploymentEvent κ δ β)}
    {download : ServiceDownload δ β}
    (listed : download ∈ (run configuration views serviceNames options events).history.downloads) :
    ∃ past rest, events = past ++ rest ∧
      (run configuration views serviceNames options past).history.rows.Shows
        download.serviceName download := by
  induction events using List.reverseRecOn with
  | nil => cases listed
  | append_singleton events event ih =>
      have origin : download ∈
          (run configuration views serviceNames options events).history.downloads ∨
            (run configuration views serviceNames options events).history.rows.Shows
              download.serviceName download := by
        rw [run_concat] at listed
        cases event with
        | ask key => exact mem_downloads_ask key listed
        | call call => exact .inl listed
        | receive key saving builds => exact .inl listed
        | lose key => exact .inl listed
        | restart key builds => exact .inl listed
        | request key request => exact .inl listed
      rcases origin with old | now
      · obtain ⟨past, rest, split, shows⟩ := ih old
        refine ⟨past, rest ++ [event], ?_, shows⟩
        rw [split, List.append_assoc]
      · exact ⟨events, [event], rfl, now⟩

/-- **No policies are made up.** However the calls of the store, polls, answers that arrive or are
lost, saves and starts that fail, and requests take turns, a plugin answers a request by the
policies that its service had at one moment of the run. -/
theorem decided_by_shown
    (harmless : ∀ policies options earlier later, alike earlier → alike later →
      RangerPolicyEngineImpl.Harmless policies options earlier later)
    {events : List (DeploymentEvent κ δ β)} (kinds : ∀ event ∈ events, Asks alike event)
    (key : κ) {request : RangerAccessRequest} (kind : alike request)
    {result : RangerAccessResult}
    (answered : (step configuration views (run configuration views serviceNames options events)
      (.request key request)).1 = some result) :
    ∃ past rest download, events = past ++ rest ∧
      (run configuration views serviceNames options past).history.rows.Shows (serviceNames key)
        download ∧
      RangerPolicyEngineImpl.Says (views.read download) (options key) configuration request
        result := by
  have traced : Traced alike views serviceNames options
      (run configuration views serviceNames options events) := Traced.run harmless kinds
  obtain ⟨download, ⟨listed, named⟩, agreed⟩ :=
    ((traced key).isAccessAllowed configuration (fun policies => harmless policies _) kind).2
      result answered
  obtain ⟨past, rest, split, shows⟩ := shown_of_mem_downloads listed
  rw [named] at shows
  exact ⟨past, rest, download, split, shows, agreed⟩

end Runs

section Example

attribute [local instance] Platform.ascii ClassLoader.addresses

open RangerOptimizedPolicyEvaluator (pathServiceDef)

/-- A store of policies as they are read, of services whose resources are paths. -/
def pathViews : RowViews Unit RangerPolicy where
  serviceDef _ := pathServiceDef
  policy entry := { entry.2.2 with id := some entry.1, name := entry.2.1 }

def dataPolicy : RangerPolicy where
  resources := .single "path" { values := ["/data"] }
  policyItems := [{ accesses := [{ type := "read" }], users := ["alice"] }]

/-- A service is created, with a policy that lets a user read. -/
def storing : List (DeploymentEvent Unit Unit RangerPolicy) :=
  [.call (.createServiceDef { name := "hdfs" }),
    .call (.createService { id := 0, name := "cluster", type := "hdfs" } "noon"
      { resources := ∅, policyItems := [] }),
    .call (.createPolicy { service := "cluster", name := "data", content := dataPolicy })]

def readRequest : RangerAccessRequest where
  resource := .single "path" "/data"
  accessType := "read"
  user := some "alice"

theorem oneElement_readRequest : readRequest.OneElement "path" :=
  ⟨by decide, "/data", by decide, rfl⟩

/-- A plugin polls, and its policy is deleted before it is asked. -/
theorem read_decided_by_shown :
    ∃ past rest download,
      storing ++ [.ask (), .receive () .saved true, .call (.deletePolicy 2)] = past ++ rest ∧
      (run {} pathViews (fun _ => "cluster") (fun _ => {}) past).history.rows.Shows "cluster"
        download ∧
      RangerPolicyEngineImpl.Says (pathViews.read download) {} {} readRequest
        { isAccessDetermined := true
          isAllowed := true
          isAuditedDetermined := true
          isAudited := true
          policyId := 2 } :=
  decided_by_shown
    (fun _ _ _ _ => RangerPolicyEngineImpl.harmless_of_oneElement)
    (by simp [storing, Asks]) () oneElement_readRequest rfl

end Example

end Deployment

end Ranger
