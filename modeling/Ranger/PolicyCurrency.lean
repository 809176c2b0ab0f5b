import Ranger.PolicyPropagation

/-! # Plugins that are up to date

When the calls of the store move versions ahead and engines can be built, a poll that has been
answered leaves its plugin with the policies that were stored when the server answered.
-/

namespace Ranger

open Foundation

namespace PollingPlugin

section Known

variable [Platform] {δ β : Type} {alike : RangerAccessRequest → Prop}
  {views : RowViews δ β} {serviceName : String} {options : RangerPolicyEngineOptions}
  {given : ServiceDownload δ β → Prop} {download : ServiceDownload δ β}
  {plugin : PollingPlugin δ β}

/-- A plugin knows the version of what it has installed, or none. -/
def Known (alike : RangerAccessRequest → Prop) (views : RowViews δ β)
    (options : RangerPolicyEngineOptions) (given : ServiceDownload δ β → Prop)
    (plugin : PollingPlugin δ β) : Prop :=
  plugin.refresher.lastKnownVersion = -1 ∨
    ∃ download, given download ∧ Installed alike views options download plugin ∧
      plugin.refresher.lastKnownVersion = download.policyVersion.getD (-1)

theorem Installed.of_refresher {other : PollingPlugin δ β}
    (installed : Installed alike views options download plugin)
    (same : other.refresher = plugin.refresher) :
    Installed alike views options download other := by
  unfold Installed
  rw [same]
  exact installed

theorem Known.of_refresher {other : PollingPlugin δ β}
    (known : Known alike views options given plugin) (same : other.refresher = plugin.refresher) :
    Known alike views options given other := by
  rcases known with unknown | ⟨download, listed, installed, version⟩
  · exact .inl (same ▸ unknown)
  · exact .inr ⟨download, listed, installed.of_refresher same, same ▸ version⟩

theorem Known.mono (known : Known alike views options given plugin)
    {more : ServiceDownload δ β → Prop} (within : ∀ download, given download → more download) :
    Known alike views options more plugin :=
  known.imp_right fun ⟨download, listed, rest⟩ => ⟨download, within download listed, rest⟩

variable [ClassLoader] {configuration : RangerConfiguration}

/-- What a plugin does with a download, when an engine of it is built. -/
theorem Traced.installs (traced : Traced alike views serviceName options given plugin)
    (named : download.serviceName = serviceName) {cacheFile : CacheFile} :
    let next : PollingPlugin δ β :=
      { refresher := PolicyRefresher.setPolicies configuration
          { plugin.refresher with
            cacheFile := cacheFile
            lastKnownVersion := download.policyVersion.getD (-1) }
          { views.read download with serviceName := plugin.refresher.serviceName } true }
    Installed alike views options download next ∧
      next.refresher.lastKnownVersion = download.policyVersion.getD (-1) := by
  have same : ({ views.read download with serviceName := plugin.refresher.serviceName } :
      ServicePolicies) = views.read download := by
    rw [traced.name, ← named]
    rfl
  intro next
  refine ⟨⟨_, rfl, ?_⟩, rfl⟩
  rw [same, traced.settings]
  exact RangerPolicyEngineImpl.built_create configuration

/-- Who receives a download installs it. -/
theorem Traced.receives (traced : Traced alike views serviceName options given plugin)
    (named : download.serviceName = serviceName)
    (arriving : plugin.answer = some (.ok (some download))) (saving : Saving) :
    Installed alike views options download (plugin.receive configuration views saving true) ∧
      (plugin.receive configuration views saving true).refresher.lastKnownVersion =
        download.policyVersion.getD (-1) := by
  unfold PollingPlugin.receive
  rw [arriving]
  exact traced.installs named

/-- Who is not given a download keeps the engine that is there. -/
theorem refresher_receive_of_unchanged (saving : Saving) (builds : Bool)
    (nothing : ∀ download, plugin.answer ≠ some (.ok (some download))) :
    (plugin.receive configuration views saving builds).refresher = plugin.refresher := by
  unfold PollingPlugin.receive
  cases arriving : plugin.answer with
  | none => rfl
  | some answer =>
      cases answer with
      | error _ => rfl
      | ok told =>
          cases told with
          | none => rfl
          | some download => exact absurd arriving (nothing download)

theorem Known.receive (known : Known alike views options given plugin)
    (traced : Traced alike views serviceName options given plugin)
    (named : ∀ download, given download → download.serviceName = serviceName) (saving : Saving) :
    Known alike views options given (plugin.receive configuration views saving true) := by
  by_cases told : ∃ download, plugin.answer = some (.ok (some download))
  · obtain ⟨download, arriving⟩ := told
    have listed := traced.answer download arriving
    exact .inr ⟨download, listed, traced.receives (named download listed) arriving saving⟩
  · refine known.of_refresher (refresher_receive_of_unchanged saving true fun download arriving => ?_)
    exact told ⟨download, arriving⟩

theorem Known.restart (traced : Traced alike views serviceName options given plugin)
    (named : ∀ download, given download → download.serviceName = serviceName) :
    Known alike views options given (plugin.restart configuration true) := by
  have bare : Traced alike views serviceName options given
      { refresher := PolicyRefresher.create plugin.refresher.plugIn.policyEngineOptions
          plugin.refresher.serviceName plugin.refresher.cacheFile } :=
    ⟨traced.name, traced.settings, .inl rfl, traced.cached, fun _ impossible => by cases impossible⟩
  have saved := traced.cached
  obtain ⟨⟨plugIn, name, cacheFile, lastKnownVersion⟩, answer⟩ := plugin
  cases cacheFile with
  | absent => exact .inl rfl
  | unreadable => exact .inl rfl
  | content found =>
      cases found with
      | none => exact .inl rfl
      | some policies =>
          obtain ⟨download, listed, rfl⟩ := saved policies rfl
          exact .inr ⟨download, listed, bare.installs (named download listed)⟩

theorem Known.isAccessAllowed (configuration : RangerConfiguration)
    (known : Known alike views options given plugin)
    (harmless : ∀ policies earlier later, alike earlier → alike later →
      RangerPolicyEngineImpl.Harmless policies options earlier later)
    {request : RangerAccessRequest} (kind : alike request) :
    Known alike views options given (plugin.isAccessAllowed request).2 := by
  have version : (plugin.isAccessAllowed request).2.refresher.lastKnownVersion =
      plugin.refresher.lastKnownVersion := by
    unfold PollingPlugin.isAccessAllowed
    split <;> rfl
  rcases known with unknown | ⟨download, listed, installed, same⟩
  · exact .inl (version.trans unknown)
  · obtain ⟨_, _, _, still⟩ := installed.answers harmless configuration kind
    exact .inr ⟨download, listed, still, version.trans same⟩

/-- A plugin to which a download is due: it is on its way, or installed and not out of date. -/
def Due (alike : RangerAccessRequest → Prop) (views : RowViews δ β)
    (options : RangerPolicyEngineOptions) (download : ServiceDownload δ β)
    (plugin : PollingPlugin δ β) : Prop :=
  plugin.answer = some (.ok (some download)) ∨
    (plugin.answer = some (.ok none) ∧ Installed alike views options download plugin)

/-- Who receives what is due has it installed. -/
theorem Due.receive (due : Due alike views options download plugin)
    (traced : Traced alike views serviceName options given plugin)
    (named : download.serviceName = serviceName) (saving : Saving) :
    Installed alike views options download (plugin.receive configuration views saving true) := by
  rcases due with arriving | ⟨nothing, installed⟩
  · exact (traced.receives named arriving saving).1
  · refine installed.of_refresher (refresher_receive_of_unchanged saving true fun other same => ?_)
    rw [nothing] at same
    cases same

theorem Due.isAccessAllowed (configuration : RangerConfiguration)
    (due : Due alike views options download plugin)
    (harmless : ∀ policies earlier later, alike earlier → alike later →
      RangerPolicyEngineImpl.Harmless policies options earlier later)
    {request : RangerAccessRequest} (kind : alike request) :
    Due alike views options download (plugin.isAccessAllowed request).2 := by
  have waiting : (plugin.isAccessAllowed request).2.answer = plugin.answer := by
    unfold PollingPlugin.isAccessAllowed
    split <;> rfl
  rcases due with arriving | ⟨nothing, installed⟩
  · exact .inl (waiting.trans arriving)
  · obtain ⟨_, _, _, still⟩ := installed.answers harmless configuration kind
    exact .inr ⟨waiting.trans nothing, still⟩

end Known

end PollingPlugin

namespace Deployment

section Runs

variable {κ δ β : Type} [Platform]

/-- What keeps the plugins up to date: the calls of the store move the versions of services
ahead, no service has the version that stands for none, and engines can be built. -/
def KeepsCurrent (alike : RangerAccessRequest → Prop) (deployment : Deployment κ δ β) :
    DeploymentEvent κ δ β → Prop
  | .call call => deployment.history.KeepsFresh (.call call)
  | .ask key =>
      (deployment.plugins key).refresher.serviceName ≠ "" ∧
        ∀ found ∈ deployment.history.rows.findService
            (deployment.plugins key).refresher.serviceName,
          found.2.policyVersion ≠ some (-1)
  | .receive _ _ builds => builds = true
  | .lose _ => True
  | .restart _ builds => builds = true
  | .request _ request => alike request

/-- The store and the plugins of a run that is kept up to date. -/
structure Synced (alike : RangerAccessRequest → Prop) (views : RowViews δ β)
    (serviceNames : κ → String) (options : κ → RangerPolicyEngineOptions)
    (deployment : Deployment κ δ β) : Prop where
  sound : StoreHistory.Sound deployment.history
  traced : Traced alike views serviceNames options deployment
  known : ∀ key, PollingPlugin.Known alike views (options key)
    (fun download => download ∈ deployment.history.downloads ∧
      download.serviceName = serviceNames key) (deployment.plugins key)

variable {alike : RangerAccessRequest → Prop} {views : RowViews δ β} {serviceNames : κ → String}
  {options : κ → RangerPolicyEngineOptions} {deployment : Deployment κ δ β}

theorem Synced.withHistory (synced : Synced alike views serviceNames options deployment)
    {event : StoreEvent δ β} (keeps : deployment.history.KeepsFresh event) :
    Synced alike views serviceNames options
      { deployment with history := deployment.history.step event } where
  sound := synced.sound.step keeps
  traced := synced.traced.withHistory (downloads_step deployment.history event)
  known := fun key => (synced.known key).mono fun download held =>
    ⟨downloads_step deployment.history event download held.1, held.2⟩

variable [DecidableEq κ]

theorem Synced.setPlugin (synced : Synced alike views serviceNames options deployment) {key : κ}
    {plugin : PollingPlugin δ β}
    (traced : PollingPlugin.Traced alike views (serviceNames key) (options key)
      (fun download => download ∈ deployment.history.downloads ∧
        download.serviceName = serviceNames key) plugin)
    (known : PollingPlugin.Known alike views (options key)
      (fun download => download ∈ deployment.history.downloads ∧
        download.serviceName = serviceNames key) plugin) :
    Synced alike views serviceNames options (deployment.setPlugin key plugin) where
  sound := synced.sound
  traced := synced.traced.setPlugin traced
  known := by
    intro other
    unfold Deployment.setPlugin
    dsimp only
    by_cases same : other = key
    · subst same
      rw [Function.update_self]
      exact known
    · rw [Function.update_of_ne same]
      exact synced.known other

theorem Synced.ask (synced : Synced alike views serviceNames options deployment) (key : κ)
    (keeps : KeepsCurrent alike deployment (.ask key)) :
    Synced alike views serviceNames options (deployment.ask key) := by
  have fresh : deployment.history.KeepsFresh (.download
      (deployment.plugins key).refresher.serviceName
      (some (deployment.plugins key).refresher.lastKnownVersion)) :=
    fun unnamed => absurd unnamed keeps.1
  have polled := synced.withHistory fresh
  have traced := synced.traced.ask key
  unfold Deployment.ask at traced ⊢
  dsimp only at traced ⊢
  split at traced
  · exact synced
  · rename_i idle
    have next := traced key
    unfold Deployment.setPlugin at next
    dsimp only at next
    rw [Function.update_self] at next
    exact polled.setPlugin next ((polled.known key).of_refresher rfl)

/-- **What is due.** Once the server has answered a poll, what it showed is on its way to the
plugin or installed there. -/
theorem Synced.due (synced : Synced alike views serviceNames options deployment) {key : κ}
    (keeps : KeepsCurrent alike deployment (.ask key))
    (idle : (deployment.plugins key).answer = none) {download : ServiceDownload δ β}
    (shows : deployment.history.rows.Shows (serviceNames key) download) :
    PollingPlugin.Due alike views (options key) download ((deployment.ask key).plugins key) := by
  have name := (synced.traced key).name
  obtain ⟨asked, id, service, located, version, held⟩ :=
    StoreHistory.getServicePoliciesIfUpdated_eq_some shows
  unfold Deployment.ask Deployment.setPlugin
  dsimp only
  rw [idle]
  dsimp only
  rw [Function.update_self, name]
  rcases shows.answer (deployment.plugins key).refresher.lastKnownVersion with
    given | ⟨unchanged, same⟩
  · exact .inl (congrArg some given)
  · refine .inr ⟨congrArg some unchanged, ?_⟩
    -- a plugin that knows the version of the service has a download of it
    have counted : (deployment.plugins key).refresher.lastKnownVersion ≠ -1 := by
      intro unknown
      refine keeps.2 (id, service) (name ▸ located) ?_
      rw [← version, same, unknown]
    rcases synced.known key with unknown | ⟨other, ⟨listed, named⟩, installed, known⟩
    · exact absurd unknown counted
    · have shown : other.policyVersion =
          some (deployment.plugins key).refresher.lastKnownVersion := by
        cases held : other.policyVersion with
        | none =>
            rw [held] at known
            exact absurd known counted
        | some _ =>
            rw [held] at known
            rw [known]
            rfl
      have fresh := synced.sound.fresh listed
      unfold ServiceDownload.Fresh at fresh
      rw [named, shown] at fresh
      obtain ⟨policies, type⟩ := fresh unchanged
      have type : other.serviceDef = download.serviceDef := by
        have stored : deployment.history.rows.typeOf (serviceNames key) =
            some download.serviceDef := by
          simp only [ServiceRows.typeOf, located, Option.bind_eq_bind, Option.bind_some,
            held.serviceDef]
          rw [held.type]
        exact Option.some.inj (type.symm.trans stored)
      have content : other.policies = download.policies := by
        rw [← policies, ← held.policies, asked]
      have alike : other = download := by
        cases other
        cases download
        simp only [ServiceDownload.mk.injEq]
        exact ⟨named.trans asked.symm, shown.trans same.symm, content, type⟩
      rw [← alike]
      exact installed.of_refresher rfl

variable [ClassLoader] {configuration : RangerConfiguration}

/-- A step that keeps the plugins up to date. -/
theorem Synced.step (synced : Synced alike views serviceNames options deployment)
    (harmless : ∀ policies options earlier later, alike earlier → alike later →
      RangerPolicyEngineImpl.Harmless policies options earlier later)
    (event : DeploymentEvent κ δ β) (keeps : KeepsCurrent alike deployment event) :
    Synced alike views serviceNames options (step configuration views deployment event).2 := by
  have named : ∀ key download, (download ∈ deployment.history.downloads ∧
      download.serviceName = serviceNames key) → download.serviceName = serviceNames key :=
    fun _ _ held => held.2
  cases event with
  | call call => exact synced.withHistory keeps
  | ask key => exact synced.ask key keeps
  | receive key saving builds =>
      obtain rfl : builds = true := keeps
      exact synced.setPlugin ((synced.traced key).receive (named key) saving true)
        ((synced.known key).receive (synced.traced key) (named key) saving)
  | lose key =>
      exact synced.setPlugin (synced.traced key).lose ((synced.known key).of_refresher rfl)
  | restart key builds =>
      obtain rfl : builds = true := keeps
      exact synced.setPlugin ((synced.traced key).restart (named key) true)
        (PollingPlugin.Known.restart (synced.traced key) (named key))
  | request key request =>
      exact synced.setPlugin
        ((synced.traced key).isAccessAllowed configuration (fun policies => harmless policies _)
          keeps).1
        ((synced.known key).isAccessAllowed configuration (fun policies => harmless policies _)
          keeps)

/-- The events that may change what a plugin has installed. -/
def Settles (key : κ) : DeploymentEvent κ δ β → Prop
  | .receive other _ _ => other = key
  | .restart other _ => other = key
  | _ => False

/-- What an event does to a plugin, when it does not settle anything there. -/
theorem plugins_step_cases (configuration : RangerConfiguration) (views : RowViews δ β) {key : κ}
    {event : DeploymentEvent κ δ β} (unsettled : ¬Settles key event) :
    (step configuration views deployment event).2.plugins key = deployment.plugins key ∨
      (∃ request, event = .request key request ∧
        (step configuration views deployment event).2.plugins key =
          ((deployment.plugins key).isAccessAllowed request).2) ∨
      (event = .lose key ∧ (step configuration views deployment event).2.plugins key =
        (deployment.plugins key).lose configuration) ∨
      ((deployment.plugins key).answer = none ∧
        ((step configuration views deployment event).2.plugins key).refresher =
          (deployment.plugins key).refresher) := by
  cases event with
  | call call => exact .inl rfl
  | ask other =>
      change (deployment.ask other).plugins key = _ ∨ _ ∨ _ ∨
        _ ∧ ((deployment.ask other).plugins key).refresher = _
      unfold Deployment.ask Deployment.setPlugin
      dsimp only
      cases waiting : (deployment.plugins other).answer with
      | some answer => exact .inl rfl
      | none =>
          dsimp only
          by_cases same : key = other
          · subst same
            rw [Function.update_self]
            exact .inr (.inr (.inr ⟨waiting, rfl⟩))
          · exact .inl (Function.update_of_ne same _ _)
  | receive other saving builds =>
      exact .inl (Function.update_of_ne (fun same => unsettled same.symm) _ _)
  | lose other =>
      by_cases same : key = other
      · subst same
        exact .inr (.inr (.inl ⟨rfl, Function.update_self _ _ _⟩))
      · exact .inl (Function.update_of_ne same _ _)
  | restart other builds =>
      exact .inl (Function.update_of_ne (fun same => unsettled same.symm) _ _)
  | request other request =>
      by_cases same : key = other
      · subst same
        exact .inr (.inl ⟨request, rfl, Function.update_self _ _ _⟩)
      · exact .inl (Function.update_of_ne same _ _)

/-- What is due stays due until it arrives or is lost. -/
theorem due_step {key : κ} {download : ServiceDownload δ β}
    (harmless : ∀ policies earlier later, alike earlier → alike later →
      RangerPolicyEngineImpl.Harmless policies (options key) earlier later)
    (due : PollingPlugin.Due alike views (options key) download (deployment.plugins key))
    {event : DeploymentEvent κ δ β} (kind : Asks alike event) (unsettled : ¬Settles key event)
    (arrives : event ≠ .lose key) :
    PollingPlugin.Due alike views (options key) download
      ((step configuration views deployment event).2.plugins key) := by
  rcases plugins_step_cases configuration views unsettled with
    same | ⟨request, rfl, next⟩ | ⟨lost, _⟩ | ⟨idle, _⟩
  · rw [same]
    exact due
  · rw [next]
    exact due.isAccessAllowed configuration harmless kind
  · exact absurd lost arrives
  · rcases due with waiting | ⟨waiting, _⟩
    · rw [idle] at waiting
      cases waiting
    · rw [idle] at waiting
      cases waiting

/-- What is installed stays installed until something else is. -/
theorem installed_step {key : κ} {download : ServiceDownload δ β}
    (harmless : ∀ policies earlier later, alike earlier → alike later →
      RangerPolicyEngineImpl.Harmless policies (options key) earlier later)
    (installed : PollingPlugin.Installed alike views (options key) download
      (deployment.plugins key))
    {event : DeploymentEvent κ δ β} (kind : Asks alike event) (unsettled : ¬Settles key event) :
    PollingPlugin.Installed alike views (options key) download
      ((step configuration views deployment event).2.plugins key) := by
  rcases plugins_step_cases configuration views unsettled with
    same | ⟨request, rfl, next⟩ | ⟨_, next⟩ | ⟨_, next⟩
  · rw [same]
    exact installed
  · rw [next]
    obtain ⟨_, _, _, still⟩ := installed.answers harmless configuration kind
    exact still
  · rw [next]
    exact installed.of_refresher rfl
  · exact installed.of_refresher next

omit [DecidableEq κ] [ClassLoader] in
theorem synced_start :
    Synced alike views serviceNames options (start (δ := δ) (β := β) serviceNames options) where
  sound := .empty
  traced := traced_start
  known := fun _ => .inl rfl

omit [DecidableEq κ] [ClassLoader] in
theorem KeepsCurrent.asks {event : DeploymentEvent κ δ β}
    (keeps : KeepsCurrent alike deployment event) : Asks alike event := by
  cases event with
  | request key request => exact keeps
  | call _ | ask _ | receive _ _ _ | lose _ | restart _ _ => exact trivial

theorem due_final {key : κ} {download : ServiceDownload δ β}
    (harmless : ∀ policies earlier later, alike earlier → alike later →
      RangerPolicyEngineImpl.Harmless policies (options key) earlier later)
    {events : List (DeploymentEvent κ δ β)}
    (quiet : ∀ event ∈ events, Asks alike event ∧ ¬Settles key event ∧ event ≠ .lose key)
    (due : PollingPlugin.Due alike views (options key) download (deployment.plugins key)) :
    PollingPlugin.Due alike views (options key) download
      ((Run.final (step configuration views) deployment events).plugins key) := by
  induction events generalizing deployment with
  | nil => exact due
  | cons event rest ih =>
      obtain ⟨kind, unsettled, arrives⟩ := quiet event List.mem_cons_self
      exact ih (fun later listed => quiet later (List.mem_cons_of_mem event listed))
        (due_step harmless due kind unsettled arrives)

theorem installed_final {key : κ} {download : ServiceDownload δ β}
    (harmless : ∀ policies earlier later, alike earlier → alike later →
      RangerPolicyEngineImpl.Harmless policies (options key) earlier later)
    {events : List (DeploymentEvent κ δ β)}
    (quiet : ∀ event ∈ events, Asks alike event ∧ ¬Settles key event)
    (installed : PollingPlugin.Installed alike views (options key) download
      (deployment.plugins key)) :
    PollingPlugin.Installed alike views (options key) download
      ((Run.final (step configuration views) deployment events).plugins key) := by
  induction events generalizing deployment with
  | nil => exact installed
  | cons event rest ih =>
      obtain ⟨kind, unsettled⟩ := quiet event List.mem_cons_self
      exact ih (fun later listed => quiet later (List.mem_cons_of_mem event listed))
        (installed_step harmless installed kind unsettled)

theorem Synced.final (synced : Synced alike views serviceNames options deployment)
    (harmless : ∀ policies options earlier later, alike earlier → alike later →
      RangerPolicyEngineImpl.Harmless policies options earlier later)
    {events : List (DeploymentEvent κ δ β)}
    (kept : Run.Throughout (Deployment.step configuration views) (KeepsCurrent alike) deployment
      events) :
    Synced alike views serviceNames options
      (Run.final (Deployment.step configuration views) deployment events) := by
  induction events generalizing deployment with
  | nil => exact synced
  | cons event rest ih => exact ih (synced.step harmless event kept.1) kept.2

end Runs

section Example

attribute [local instance] Platform.ascii ClassLoader.addresses

theorem keepsCurrent_storing : Run.Throughout (step {} pathViews)
    (KeepsCurrent (RangerAccessRequest.OneElement "path"))
    (start (fun _ => "cluster") (fun _ => {}))
    (storing ++ .ask () :: ([] ++ .receive () .saved true :: [.call (.deletePolicy 2)])) := by
  have calls : ∀ deployment : Deployment Unit Unit RangerPolicy,
      ∀ call, deployment.history.KeepsFresh (.call call) →
        KeepsCurrent (RangerAccessRequest.OneElement "path") deployment (.call call) :=
    fun _ _ keeps => keeps
  refine ⟨calls _ _ ?_, calls _ _ ?_, calls _ _ ?_, ⟨by decide, ?_⟩, rfl, calls _ _ ?_, trivial⟩
  all_goals decide +kernel

end Example

end Deployment

end Ranger
