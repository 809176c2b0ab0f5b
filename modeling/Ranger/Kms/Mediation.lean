import Ranger.Kms.Server

/-! # What the key server passes on

Whatever the lists and the provider answer, and however requests take turns, a request
passes on only calls that its user was granted before, and it answers only what its user
may see. With lists of keys, the list of the key is asked after its metadata was looked up,
and before anything else is asked of the provider.
-/

namespace Ranger

open Foundation

abbrev KMSHistory := Program.History KMSQuestion.Answer

abbrev KMSEvent := (question : KMSQuestion) × question.Answer

namespace KMSHistory

variable (past : KMSHistory)

/-- The user was granted an operation. -/
def Granted (type : KMSACLsType) (user : UserGroupInformation) (operation : KMSOp)
    (key : Option String) : Prop :=
  (⟨.assertAccess type user operation key, .ok ()⟩ : KMSEvent) ∈ past

/-- The user is among those whom material is shown. -/
def MayGet (user : UserGroupInformation) : Prop :=
  (⟨.hasAccess .get user, true⟩ : KMSEvent) ∈ past

def Answered (call : ProviderCall) (result : call.Result) : Prop :=
  (⟨.provider call, .ok result⟩ : KMSEvent) ∈ past

/-- The list of a key is there and has the user for the operation, or for all of them. -/
def KeyGranted (user : UserGroupInformation) (opType : KeyOpType) (aclName : String) : Prop :=
  (⟨.isACLPresent aclName .management, true⟩ : KMSEvent) ∈ past ∧
    ((⟨.hasAccessToKey aclName user opType, true⟩ : KMSEvent) ∈ past ∨
      (⟨.hasAccessToKey aclName user .all, true⟩ : KMSEvent) ∈ past)

/-- The provider was asked nothing. -/
def OnlyLists : Prop := ∀ event ∈ past, ∀ call, event.1 ≠ .provider call

/-- The last the provider was asked is the metadata of the key, and the list it names was
passed since, unless there is no such key. -/
def KeyChecked (user : UserGroupInformation) (opType : KeyOpType) (name : String) : Prop :=
  ∃ (before : KMSHistory) (metadata : Option Metadata) (after : KMSHistory),
    past = before ++ ⟨.provider (.getMetadata name), .ok metadata⟩ :: after ∧ after.OnlyLists ∧
      ∀ known ∈ metadata,
        after.KeyGranted user opType (KeyAuthorizationKeyProvider.aclNameOf name known)

/-- The key was checked at some time. -/
def EverChecked (user : UserGroupInformation) (opType : KeyOpType) (name : String) : Prop :=
  ∃ earlier : KMSHistory, earlier <+: past ∧ earlier.KeyChecked user opType name

end KMSHistory

open KMSHistory

namespace ProviderCall

/-- A call that edits keys. -/
def EditsKeys : ProviderCall → Prop
  | createKey .. => True
  | rollNewVersion .. => True
  | deleteKey _ => True
  | _ => False

/-- The operations that were granted when a call is made. -/
def OperationGranted (user : UserGroupInformation) (past : KMSHistory) : ProviderCall → Prop
  | createKey name material _ => past.Granted .create user .createKey (some name) ∧
      (material.isSome → past.Granted .setKeyMaterial user .createKey (some name))
  | rollNewVersion name material => past.Granted .rollover user .rollNewVersion (some name) ∧
      (material.isSome → past.Granted .setKeyMaterial user .rollNewVersion (some name))
  | deleteKey name => past.Granted .delete user .deleteKey (some name)
  | flush => ∃ (call : ProviderCall) (result : call.Result),
      call.EditsKeys ∧ past.Answered call result
  | getKeyVersion _ => past.Granted .get user .getKeyVersion none ∨
      ∃ key, past.Granted .decryptEek user .decryptEek key
  | getKeys => past.Granted .getKeys user .getKeys none
  | getKeyVersions name => past.Granted .get user .getKeyVersions (some name)
  | getMetadata _ => ∃ type operation key, past.Granted type user operation key
  | getKeysMetadata _ => past.Granted .getMetadata user .getKeysMetadata none
  | getCurrentKey name => past.Granted .get user .getCurrentKey (some name)
  | generateEncryptedKey name => past.Granted .generateEek user .generateEek (some name)
  | decryptEncryptedKey ekv =>
      past.Granted .decryptEek user .decryptEek ekv.encryptionKeyName
  | warmUpEncryptedKeys _ => False

/-- What the lists of keys said when a call is made. -/
def KeyPermitted (user : UserGroupInformation) (past : KMSHistory) : ProviderCall → Prop
  | createKey _ _ options => ∃ aclName,
      options.attributes.lookup KeyAuthorizationKeyProvider.KEY_ACL_NAME = some aclName ∧
        aclName ≠ "" ∧ past.KeyGranted user .management aclName
  | rollNewVersion name _ => past.KeyChecked user .management name
  | deleteKey name => past.KeyChecked user .management name
  | flush => True
  | getKeyVersion _ => True
  | getKeys => True
  | getKeyVersions name => past.KeyChecked user .read name
  | getMetadata _ => True
  | getKeysMetadata names => ∀ name ∈ names, past.EverChecked user .read name
  | getCurrentKey name => past.KeyChecked user .read name
  | generateEncryptedKey name => past.KeyChecked user .generateEek name
  | decryptEncryptedKey ekv => ∃ kv : KeyVersion,
      past.Answered (.getKeyVersion ekv.encryptionKeyVersionName) (some kv) ∧
        ekv.encryptionKeyName = some kv.name ∧ past.KeyChecked user .decryptEek kv.name
  | warmUpEncryptedKeys names => ∀ name ∈ names, past.EverChecked user .generateEek name

end ProviderCall

namespace KMS

variable (settings : KMSSettings) (user : UserGroupInformation)

/-- What a request of the user may ask. -/
def Permitted (past : KMSHistory) : KMSQuestion → Prop
  | .hasAccess _ ugi => ugi = user
  | .assertAccess _ ugi _ _ => ugi = user
  | .hasAccessToKey _ ugi _ => ugi = user
  | .isACLPresent _ _ => True
  | .provider call => call.OperationGranted user past ∧
      (settings.keyAuthorization = true → call.KeyPermitted user past)

/-- What was granted when a request is answered. -/
def Answerable (past : KMSHistory) : KMSRequest → KMSResponse → Prop
  | .createKey _, .keyVersion json => ∀ version ∈ json, version.material.isSome → past.MayGet user
  | .deleteKey _, .ok => True
  | .rolloverKey _ _, .keyVersion json =>
      ∀ version ∈ json, version.material.isSome → past.MayGet user
  | .getKeysMetadata names, .keysMetadata _ =>
      past.Granted .getMetadata user .getKeysMetadata none ∧
        (settings.keyAuthorization = true → ∀ name ∈ names, past.EverChecked user .read name)
  | .getKeyNames, .keyNames _ => past.Granted .getKeys user .getKeys none
  | .getMetadata name, .metadata _ _ =>
      past.Granted .getMetadata user .getMetadata (some name) ∧
        (settings.keyAuthorization = true → past.EverChecked user .read name)
  | .getCurrentVersion name, .keyVersion _ =>
      past.Granted .get user .getCurrentKey (some name) ∧
        (settings.keyAuthorization = true → past.EverChecked user .read name)
  | .getKeyVersion _, .keyVersion json => past.Granted .get user .getKeyVersion none ∧
      (settings.keyAuthorization = true →
        ∀ version ∈ json, ∃ name, version.name = some name ∧ past.EverChecked user .read name)
  | .generateEncryptedKeys name _ _, .encryptedKeys json =>
      past.Granted .generateEek user .generateEek (some name) ∧
        (settings.keyAuthorization = true → json ≠ [] → past.EverChecked user .generateEek name)
  | .decryptEncryptedKey _ _ json, .keyVersion _ =>
      past.Granted .decryptEek user .decryptEek json.name ∧
        (settings.keyAuthorization = true →
          ∃ name, json.name = some name ∧ past.EverChecked user .decryptEek name)
  | .getKeyVersions name, .keyVersions _ => past.Granted .get user .getKeyVersions (some name) ∧
      (settings.keyAuthorization = true → past.EverChecked user .read name)
  | _, _ => False

end KMS

namespace KMSHistory

variable {past now : KMSHistory} {user : UserGroupInformation}

theorem Granted.mono {type : KMSACLsType} {operation : KMSOp} {key : Option String}
    (granted : past.Granted type user operation key) (longer : past <+: now) :
    now.Granted type user operation key := longer.subset granted

theorem MayGet.mono (granted : past.MayGet user) (longer : past <+: now) : now.MayGet user :=
  longer.subset granted

theorem Answered.mono {call : ProviderCall} {result : call.Result}
    (answered : past.Answered call result) (longer : past <+: now) : now.Answered call result :=
  longer.subset answered

theorem KeyGranted.of_subset {opType : KeyOpType} {aclName : String}
    (granted : past.KeyGranted user opType aclName) (more : past ⊆ now) :
    now.KeyGranted user opType aclName :=
  ⟨more granted.1, granted.2.imp (fun own => more own) fun all => more all⟩

theorem EverChecked.mono {opType : KeyOpType} {name : String}
    (checked : past.EverChecked user opType name) (longer : past <+: now) :
    now.EverChecked user opType name := by
  obtain ⟨earlier, before, done⟩ := checked
  exact ⟨earlier, before.trans longer, done⟩

theorem KeyChecked.ever {opType : KeyOpType} {name : String}
    (checked : past.KeyChecked user opType name) : past.EverChecked user opType name :=
  ⟨past, List.prefix_refl past, checked⟩

theorem onlyLists_nil : OnlyLists [] := fun _ listed => by cases listed

theorem OnlyLists.append {more : KMSHistory} (first : past.OnlyLists) (second : more.OnlyLists) :
    OnlyLists (past ++ more) := by
  intro event listed
  rcases List.mem_append.mp listed with before | behind
  · exact first event before
  · exact second event behind

end KMSHistory

namespace KMS

open KMSWork KeyAuthorizationKeyProvider

variable {settings : KMSSettings} {user : UserGroupInformation} {past : KMSHistory}

/-- A part of a request of the user asks only what it may. -/
def Mediated (settings : KMSSettings) (user : UserGroupInformation) (past : KMSHistory)
    {α : Type} (work : KMSWork α) (post : KMSHistory → α → Prop) : Prop :=
  Asking.Ensures (Permitted settings user) past work post fun _ _ => True

section Parts

variable {α β : Type} {post : KMSHistory → β → Prop}

theorem Mediated.bind {mid : KMSHistory → α → Prop} {first : KMSWork α} {next : α → KMSWork β}
    (one : Mediated settings user past first mid)
    (two : ∀ now value, past <+: now → mid now value →
      Mediated settings user now (next value) post) :
    Mediated settings user past (first >>= next) post :=
  Asking.ensures_bind one two

theorem mediated_pure {value : β} (holds : post past value) :
    Mediated settings user past (pure value) post := Asking.ensures_pure holds

theorem mediated_throw (failure : KMSFailure) :
    Mediated settings user past (throw failure : KMSWork β) post :=
  Asking.ensures_throw trivial

theorem Mediated.weaken {work : KMSWork β} {weaker : KMSHistory → β → Prop}
    (mediated : Mediated settings user past work post)
    (returns : ∀ now value, past <+: now → post now value → weaker now value) :
    Mediated settings user past work weaker :=
  Asking.Ensures.weaken mediated returns fun _ _ _ _ => trivial

/-- What was told is behind what was known. -/
theorem mediated_provider (call : ProviderCall) (granted : call.OperationGranted user past)
    (permitted : settings.keyAuthorization = true → call.KeyPermitted user past) :
    Mediated settings user past (provider call) fun now result =>
      now = past ++ [⟨.provider call, .ok result⟩] := by
  refine Asking.ensures_request_bind ⟨granted, permitted⟩ fun answer => ?_
  rcases answer with exception | result
  · exact mediated_throw _
  · exact mediated_pure rfl

theorem mediated_assertAccess (type : KMSACLsType) (operation : KMSOp) (key : Option String) :
    Mediated settings user past (assertAccess type user operation key) fun now _ =>
      now = past ++ [⟨.assertAccess type user operation key, .ok ()⟩] := by
  refine Asking.ensures_request_bind rfl fun answer => ?_
  rcases answer with message | ⟨⟩
  · exact mediated_throw _
  · exact mediated_pure rfl

theorem onlyLists_single {question : KMSQuestion} (answer : question.Answer)
    (list : ∀ call, question ≠ .provider call) : OnlyLists [⟨question, answer⟩] := by
  intro event listed call
  rw [List.mem_singleton.mp listed]
  exact list call

theorem mediated_hasAccessToKeyOrAll (aclName : String) (opType : KeyOpType) :
    Mediated settings user past (hasAccessToKeyOrAll aclName user opType) fun now granted =>
      ∃ added : KMSHistory, now = past ++ added ∧ added.OnlyLists ∧ (granted = true →
        (⟨.hasAccessToKey aclName user opType, true⟩ : KMSEvent) ∈ added ∨
          (⟨.hasAccessToKey aclName user .all, true⟩ : KMSEvent) ∈ added) := by
  refine Asking.ensures_request_bind rfl fun answer => ?_
  have first : OnlyLists [⟨.hasAccessToKey aclName user opType, answer⟩] :=
    onlyLists_single answer fun call same => by cases same
  cases answer with
  | true => exact mediated_pure ⟨_, rfl, first, fun _ => .inl List.mem_cons_self⟩
  | false =>
      refine Asking.ensures_request rfl fun answer => ?_
      refine ⟨_, List.append_assoc .., first.append (onlyLists_single answer fun call same => by
        cases same), fun granted => .inr ?_⟩
      subst granted
      exact List.mem_append_right _ List.mem_cons_self

theorem mediated_checkAccess (aclName : String) (opType : KeyOpType) :
    Mediated settings user past (checkAccess aclName user opType) fun now _ =>
      ∃ added : KMSHistory, now = past ++ added ∧ added.OnlyLists ∧
        added.KeyGranted user opType aclName := by
  refine Asking.ensures_request_bind trivial fun answer => ?_
  cases answer with
  | false => exact mediated_throw _
  | true =>
      refine Mediated.bind (mediated_hasAccessToKeyOrAll aclName opType) ?_
      intro now granted _ told
      obtain ⟨added, rfl, lists, has⟩ := told
      cases granted with
      | false => exact mediated_throw _
      | true =>
          refine mediated_pure ⟨_, List.append_assoc .., OnlyLists.append (onlyLists_single _
            fun call same => by cases same) lists, List.mem_cons_self, ?_⟩
          exact (has rfl).imp (List.mem_append_right _) (List.mem_append_right _)

/-- A key is checked for a user that was granted something. -/
theorem mediated_doAccessCheck (opType : KeyOpType) (name : String)
    (granted : ∃ type operation key, past.Granted type user operation key) :
    Mediated settings user past (doAccessCheck user name opType) fun now _ =>
      now.KeyChecked user opType name := by
  refine Mediated.bind (mediated_provider (.getMetadata name) granted fun _ => trivial) ?_
  intro now metadata _ told
  subst told
  cases metadata with
  | none =>
      refine mediated_pure ⟨past, none, [], rfl, onlyLists_nil, fun known listed => ?_⟩
      cases listed
  | some metadata =>
      refine (mediated_checkAccess (aclNameOf name metadata) opType).weaken ?_
      intro now _ _ ⟨added, same, lists, granted⟩
      refine ⟨past, some metadata, added, ?_, lists, fun known listed => ?_⟩
      · rw [same, List.append_assoc]
        rfl
      · cases listed
        exact granted

theorem mediated_authorizeCreateKey {keyName : String} (named : keyName ≠ "")
    (options : Options) :
    Mediated settings user past (authorizeCreateKey keyName options user) fun now options =>
      ∃ aclName, options.attributes.lookup KEY_ACL_NAME = some aclName ∧ aclName ≠ "" ∧
        now.KeyGranted user .management aclName := by
  have passed : ∀ (aclName : String) (result : Options), aclName ≠ "" →
      result.attributes.lookup KEY_ACL_NAME = some aclName → ∀ (failure : KMSFailure),
      Mediated settings user (past ++ [⟨.isACLPresent aclName .management, true⟩])
        (do if ← hasAccessToKeyOrAll aclName user .management then pure result else throw failure)
        fun now options => ∃ aclName, options.attributes.lookup KEY_ACL_NAME = some aclName ∧
          aclName ≠ "" ∧ now.KeyGranted user .management aclName := by
    intro aclName result some found failure
    refine Mediated.bind (mediated_hasAccessToKeyOrAll aclName .management) ?_
    intro now granted _ ⟨added, same, _, has⟩
    subst same
    cases granted with
    | false => exact mediated_throw _
    | true =>
        refine mediated_pure ⟨aclName, found, some, ?_, ?_⟩
        · exact List.mem_append_left _ (List.mem_append_right _ List.mem_cons_self)
        · exact (has rfl).imp (List.mem_append_right _) (List.mem_append_right _)
  unfold authorizeCreateKey
  dsimp only
  cases listed : options.attributes.lookup KEY_ACL_NAME with
  | none =>
      refine Asking.ensures_request_bind trivial fun answer => ?_
      cases answer with
      | false => exact mediated_throw _
      | true =>
          refine passed keyName _ named ?_ _
          rw [List.lookup_append, listed]
          rfl
  | some aclName =>
      rw [Option.getD_some]
      by_cases empty : aclName.isEmpty = true
      · rw [if_pos empty]
        refine Asking.ensures_request_bind trivial fun answer => ?_
        cases answer with
        | false => exact mediated_throw _
        | true => exact mediated_throw _
      · rw [if_neg empty]
        refine Asking.ensures_request_bind trivial fun answer => ?_
        cases answer with
        | false => exact mediated_throw _
        | true =>
            refine passed aclName options (fun same => empty ?_) listed _
            rw [same]
            rfl

end Parts

section Calls

/-- What is known once a call was performed. -/
def Performed (settings : KMSSettings) (user : UserGroupInformation) (now : KMSHistory) :
    (call : ProviderCall) → call.Result → Prop
  | .createKey name material _, result =>
      ∃ options, now.Answered (.createKey name material options) result
  | .rollNewVersion name material, result => now.Answered (.rollNewVersion name material) result
  | .deleteKey name, result => now.Answered (.deleteKey name) result
  | .flush, _ => True
  | .getKeyVersion _, keyVersion => settings.keyAuthorization = true →
      ∀ version : KeyVersion, keyVersion = some version → now.EverChecked user .read version.name
  | .getKeys, _ => True
  | .getKeyVersions name, _ => settings.keyAuthorization = true → now.EverChecked user .read name
  | .getMetadata name, _ => settings.keyAuthorization = true → now.EverChecked user .read name
  | .getKeysMetadata names, _ => settings.keyAuthorization = true →
      ∀ name ∈ names, now.EverChecked user .read name
  | .getCurrentKey name, _ => settings.keyAuthorization = true → now.EverChecked user .read name
  | .generateEncryptedKey name, _ => settings.keyAuthorization = true →
      now.EverChecked user .generateEek name
  | .decryptEncryptedKey ekv, _ => settings.keyAuthorization = true →
      ∃ name, ekv.encryptionKeyName = some name ∧ now.EverChecked user .decryptEek name
  | .warmUpEncryptedKeys _, _ => True

theorem OperationGranted.mono {call : ProviderCall} {now : KMSHistory}
    (granted : call.OperationGranted user past) (longer : past <+: now) :
    call.OperationGranted user now := by
  cases call with
  | createKey => exact ⟨granted.1.mono longer, fun given => (granted.2 given).mono longer⟩
  | rollNewVersion => exact ⟨granted.1.mono longer, fun given => (granted.2 given).mono longer⟩
  | flush =>
      obtain ⟨call, result, edits, answered⟩ := granted
      exact ⟨call, result, edits, answered.mono longer⟩
  | getKeyVersion =>
      refine granted.imp (fun own => own.mono longer) fun ⟨key, other⟩ => ⟨key, other.mono longer⟩
  | getMetadata =>
      obtain ⟨type, operation, key, granted⟩ := granted
      exact ⟨type, operation, key, granted.mono longer⟩
  | warmUpEncryptedKeys => exact granted.elim
  | deleteKey | getKeys | getKeyVersions | getKeysMetadata | getCurrentKey
  | generateEncryptedKey | decryptEncryptedKey => exact Granted.mono granted longer

/-- A call behind the check of a key. -/
theorem mediated_checked {call : ProviderCall} {opType : KeyOpType} {name : String}
    {post : KMSHistory → call.Result → Prop}
    (some : ∃ type operation key, past.Granted type user operation key)
    (granted : call.OperationGranted user past)
    (permits : ∀ now : KMSHistory, now.KeyChecked user opType name → call.KeyPermitted user now)
    (returns : ∀ (now : KMSHistory) result, now.EverChecked user opType name →
      now.Answered call result → post now result) :
    Mediated settings user past (do doAccessCheck user name opType; provider call) post := by
  refine Mediated.bind (mediated_doAccessCheck opType name some) fun now _ longer checked => ?_
  refine (mediated_provider call (OperationGranted.mono granted longer) fun _ =>
    permits now checked).weaken fun later result further told => ?_
  refine returns later result (checked.ever.mono further) ?_
  rw [told]
  exact List.mem_append_right _ List.mem_cons_self

theorem mediated_checks (opType : KeyOpType) (names : List String)
    (granted : ∃ type operation key, past.Granted type user operation key) :
    Mediated settings user past (names.forM fun name => doAccessCheck user name opType)
      fun now _ => ∀ name ∈ names, now.EverChecked user opType name := by
  induction names generalizing past with
  | nil => exact mediated_pure fun name listed => by cases listed
  | cons first rest ih =>
      refine Mediated.bind (mediated_doAccessCheck opType first granted) ?_
      intro now _ longer checked
      obtain ⟨type, operation, key, granted⟩ := granted
      refine (ih ⟨type, operation, key, granted.mono longer⟩).weaken ?_
      intro later _ further others name listed
      rcases List.mem_cons.mp listed with rfl | behind
      · exact checked.ever.mono further
      · exact others name behind

theorem mediated_perform (call : ProviderCall) (granted : call.OperationGranted user past)
    (named : ∀ name material options, call = .createKey name material options → name ≠ "") :
    Mediated settings user past (perform settings user call) fun now result =>
      Performed settings user now call result := by
  have last : ∀ {now : KMSHistory} {call : ProviderCall} {result : call.Result},
      now = past ++ [⟨.provider call, .ok result⟩] → now.Answered call result := by
    intro now call result told
    rw [told]
    exact List.mem_append_right _ List.mem_cons_self
  unfold KMS.perform
  cases checks : settings.keyAuthorization with
  | false =>
      rw [if_neg Bool.false_ne_true]
      have unchecked : ¬settings.keyAuthorization = true := by
        rw [checks]
        exact Bool.false_ne_true
      refine (mediated_provider call granted fun this => absurd this unchecked).weaken ?_
      intro now result _ told
      cases call with
      | createKey name material options => exact ⟨options, last told⟩
      | rollNewVersion => exact last told
      | deleteKey => exact last told
      | flush | getKeys | warmUpEncryptedKeys => trivial
      | getKeyVersion | getKeyVersions | getMetadata | getKeysMetadata | getCurrentKey
      | generateEncryptedKey | decryptEncryptedKey => exact fun this => absurd this unchecked
  | true =>
      rw [if_pos rfl]
      cases call with
      | createKey name material options =>
          refine Mediated.bind (mediated_authorizeCreateKey (named name material options rfl)
            options) fun now options longer permitted => ?_
          have still : (ProviderCall.createKey name material options).OperationGranted user now :=
            ⟨granted.1.mono longer, fun given => (granted.2 given).mono longer⟩
          refine (mediated_provider _ still fun _ => permitted).weaken ?_
          intro later result _ told
          refine ⟨options, ?_⟩
          rw [told]
          exact List.mem_append_right _ List.mem_cons_self
      | rollNewVersion =>
          exact mediated_checked ⟨_, _, _, granted.1⟩ granted (fun _ checked => checked)
            fun _ _ _ answered => answered
      | deleteKey =>
          exact mediated_checked ⟨_, _, _, granted⟩ granted (fun _ checked => checked)
            fun _ _ _ answered => answered
      | flush => exact (mediated_provider _ granted fun _ => trivial).weaken fun _ _ _ _ => trivial
      | getKeyVersion versionName =>
          have some : ∃ type operation key, past.Granted type user operation key := by
            rcases granted with own | ⟨key, other⟩
            · exact ⟨_, _, _, own⟩
            · exact ⟨_, _, _, other⟩
          refine Mediated.bind (mediated_provider _ granted fun _ => trivial) ?_
          intro now keyVersion longer _
          cases keyVersion with
          | none => exact mediated_pure fun _ version same => by cases same
          | some keyVersion =>
              obtain ⟨type, operation, key, granted⟩ := some
              refine Mediated.bind (mediated_doAccessCheck .read keyVersion.name
                ⟨type, operation, key, granted.mono longer⟩) fun later _ _ checked => ?_
              refine mediated_pure fun _ version same => ?_
              cases same
              exact checked.ever
      | getKeys =>
          exact (mediated_provider _ granted fun _ => trivial).weaken fun _ _ _ _ => trivial
      | getKeyVersions =>
          exact mediated_checked ⟨_, _, _, granted⟩ granted (fun _ checked => checked)
            fun _ _ ever _ _ => ever
      | getMetadata =>
          exact mediated_checked granted granted (fun _ _ => trivial) fun _ _ ever _ _ => ever
      | getKeysMetadata names =>
          refine Mediated.bind (mediated_checks .read names ⟨_, _, _, granted⟩) ?_
          intro now _ longer checked
          have still : (ProviderCall.getKeysMetadata names).OperationGranted user now :=
            Granted.mono granted longer
          refine (mediated_provider _ still fun _ => checked).weaken ?_
          exact fun later result further _ _ name listed => (checked name listed).mono further
      | getCurrentKey =>
          exact mediated_checked ⟨_, _, _, granted⟩ granted (fun _ checked => checked)
            fun _ _ ever _ _ => ever
      | generateEncryptedKey =>
          exact mediated_checked ⟨_, _, _, granted⟩ granted (fun _ checked => checked)
            fun _ _ ever _ _ => ever
      | decryptEncryptedKey ekv =>
          have verified : Mediated settings user past (verifyKeyVersionBelongsToKey ekv)
              fun now _ => ∃ kv : KeyVersion,
                now.Answered (.getKeyVersion ekv.encryptionKeyVersionName) (some kv) ∧
                  ekv.encryptionKeyName = some kv.name := by
            refine Mediated.bind (mediated_provider (.getKeyVersion ekv.encryptionKeyVersionName)
              (.inr ⟨_, granted⟩) fun _ => trivial) ?_
            intro now kv longer told
            cases kv with
            | none => exact mediated_throw _
            | some kv =>
                dsimp only
                split
                · rename_i same
                  exact mediated_pure ⟨kv, last told, same.symm⟩
                · exact mediated_throw _
          refine Mediated.bind verified fun now _ longer ⟨kv, answered, same⟩ => ?_
          rw [same, Option.getD_some]
          refine Mediated.bind (mediated_doAccessCheck .decryptEek kv.name
            ⟨_, _, _, Granted.mono granted longer⟩) fun later _ further checked => ?_
          have still : (ProviderCall.decryptEncryptedKey ekv).OperationGranted user later :=
            Granted.mono granted (longer.trans further)
          refine (mediated_provider _ still fun _ =>
            ⟨kv, answered.mono further, same, checked⟩).weaken ?_
          exact fun _ _ furthest _ _ => ⟨kv.name, same, checked.ever.mono furthest⟩
      | warmUpEncryptedKeys => exact granted.elim

end Calls

end KMS

namespace KMS

open KMSWork KeyAuthorizationKeyProvider

variable {settings : KMSSettings} {user : UserGroupInformation} {past : KMSHistory}

section Requests

theorem mediated_checkNotNull {α : Type} (value : Option α) (field : String) :
    Mediated settings user past (checkNotNull value field) fun now found =>
      now = past ∧ value = some found := by
  cases value with
  | none => exact mediated_throw _
  | some value => exact mediated_pure ⟨rfl, rfl⟩

theorem mediated_checkNotEmpty (text : Option String) (field : String) :
    Mediated settings user past (checkNotEmpty text field) fun now found =>
      now = past ∧ text = some found ∧ found ≠ "" := by
  refine (mediated_checkNotNull text field).bind fun now found _ told => ?_
  by_cases empty : found.isEmpty = true
  · rw [if_pos empty]
    exact mediated_throw _
  · rw [if_neg empty]
    refine mediated_pure ⟨told.1, told.2, fun same => empty ?_⟩
    rw [same]
    rfl

theorem mediated_assertGranted (type : KMSACLsType) (operation : KMSOp) (key : Option String) :
    Mediated settings user past (assertAccess type user operation key) fun now _ =>
      now.Granted type user operation key := by
  refine (mediated_assertAccess type operation key).weaken fun now _ _ told => ?_
  rw [told]
  exact List.mem_append_right _ List.mem_cons_self

theorem mediated_assertMaterial (operation : KMSOp) (name : String) (material : Option String) :
    Mediated settings user past (assertMaterial user operation name material) fun now _ =>
      material.isSome → now.Granted .setKeyMaterial user operation (some name) := by
  cases material with
  | none => exact mediated_pure fun this => absurd this Bool.false_ne_true
  | some text => exact (mediated_assertGranted _ _ _).weaken fun _ _ _ granted _ => granted

/-- What was made is shown to those who may get it. -/
theorem mediated_answerMade (keyVersion : KeyVersion) :
    Mediated settings user past (answerMade user keyVersion) fun now json =>
      json.material.isSome → now.MayGet user := by
  refine Asking.ensures_request_bind rfl fun answer => ?_
  cases answer with
  | true => exact mediated_pure fun _ => List.mem_append_right _ List.mem_cons_self
  | false => exact mediated_pure fun this => absurd this Bool.false_ne_true

/-- A request that flushes the provider has edited a key. -/
theorem mediated_flush (call : ProviderCall) {result : call.Result} (edits : call.EditsKeys)
    (answered : past.Answered call result) :
    Mediated settings user past (perform settings user .flush) fun _ _ => True :=
  (mediated_perform .flush ⟨call, result, edits, answered⟩ fun _ _ _ same => by
    cases same).weaken fun _ _ _ _ => trivial

theorem mediated_createKey (jsonKey : CreateKeyJson) :
    Mediated settings user past (createKey settings user jsonKey) fun now response =>
      Answerable settings user now (.createKey jsonKey) response := by
  refine (mediated_checkNotEmpty jsonKey.name "name").bind fun now name _ told => ?_
  obtain ⟨_, _, named⟩ := told
  refine (mediated_assertGranted .create .createKey (some name)).bind fun now _ _ granted => ?_
  refine (mediated_assertMaterial .createKey name jsonKey.material).bind
    fun now _ longer material => ?_
  refine Mediated.bind (mediated_perform _ ⟨granted.mono longer, ?_⟩ ?_) ?_
  · rw [Option.isSome_map]
    exact material
  · intro other _ _ same
    cases same
    exact named
  intro now keyVersion _ made
  obtain ⟨options, answered⟩ := made
  refine (mediated_flush (.createKey name _ options) trivial answered).bind fun now _ _ _ => ?_
  refine (mediated_answerMade keyVersion).bind fun now json _ shown => ?_
  by_cases parses : settings.uriParses ("v1/key/" ++ name) = true
  · rw [if_pos parses]
    refine mediated_pure fun version listed => ?_
    cases listed
    exact shown
  · rw [if_neg parses]
    exact mediated_throw _

theorem mediated_deleteKey (name : String) :
    Mediated settings user past (deleteKey settings user name) fun now response =>
      Answerable settings user now (.deleteKey name) response := by
  refine (mediated_assertGranted .delete .deleteKey (some name)).bind fun now _ _ granted => ?_
  refine (mediated_checkNotEmpty (some name) "name").bind fun now found _ told => ?_
  obtain ⟨rfl, same, _⟩ := told
  cases same
  refine Mediated.bind (mediated_perform (.deleteKey name) granted
    fun _ _ _ same => by cases same) fun now _ _ answered => ?_
  exact (mediated_flush (.deleteKey name) trivial answered).bind fun _ _ _ _ =>
    mediated_pure trivial

theorem mediated_rolloverKey (name : String) (material : Option String) :
    Mediated settings user past (rolloverKey settings user name material) fun now response =>
      Answerable settings user now (.rolloverKey name material) response := by
  refine (mediated_assertGranted .rollover .rollNewVersion (some name)).bind
    fun now _ _ granted => ?_
  refine (mediated_checkNotEmpty (some name) "name").bind fun now found _ told => ?_
  obtain ⟨rfl, same, _⟩ := told
  cases same
  refine (mediated_assertMaterial .rollNewVersion name material).bind fun now _ longer given => ?_
  refine Mediated.bind (mediated_perform _ ⟨granted.mono longer, ?_⟩ fun _ _ _ same => by
    cases same) ?_
  · rw [Option.isSome_map]
    exact given
  intro now keyVersion _ answered
  refine (mediated_flush (.rollNewVersion name _) trivial answered).bind fun now _ _ _ => ?_
  refine (mediated_answerMade keyVersion).bind fun now json _ shown => ?_
  refine mediated_pure fun version listed => ?_
  cases listed
  exact shown

/-- A request that reads asserts an operation, performs a call and answers with its result. -/
theorem mediated_read (call : ProviderCall) {request : KMSRequest} {type : KMSACLsType}
    {operation : KMSOp} {key : Option String} {answer : call.Result → KMSResponse}
    (grants : ∀ now : KMSHistory, now.Granted type user operation key →
      call.OperationGranted user now)
    (reads : ¬call.EditsKeys)
    (answers : ∀ (now : KMSHistory) result, now.Granted type user operation key →
      Performed settings user now call result →
        Answerable settings user now request (answer result)) :
    Mediated settings user past (do
      assertAccess type user operation key
      let result ← perform settings user call
      pure (answer result)) fun now response => Answerable settings user now request response := by
  refine (mediated_assertGranted type operation key).bind fun now _ _ granted => ?_
  refine (mediated_perform call (grants now granted) fun _ _ _ same => ?_).bind
    fun later result longer done => ?_
  · rw [same] at reads
    exact absurd trivial reads
  · exact mediated_pure (answers later result (granted.mono longer) done)

theorem mediated_metadataToJSON (names : List String) (metas : List (Option Metadata)) :
    Mediated settings user past (metadataToJSON names metas) fun now _ => past <+: now := by
  induction names generalizing metas with
  | nil => exact mediated_pure (List.prefix_refl past)
  | cons name names ih =>
      cases metas with
      | nil => exact mediated_throw _
      | cons metadata rest =>
          exact (ih rest).bind fun now json longer _ => mediated_pure longer

theorem mediated_getKeysMetadata (keyNames : List String) :
    Mediated settings user past (getKeysMetadata settings user keyNames) fun now response =>
      Answerable settings user now (.getKeysMetadata keyNames) response := by
  refine (mediated_assertGranted _ _ _).bind fun now _ _ granted => ?_
  refine (mediated_perform (.getKeysMetadata keyNames) granted fun _ _ _ same => by
    cases same).bind fun between keysMeta longer checked => ?_
  refine (mediated_metadataToJSON keyNames keysMeta).bind fun later json further _ => ?_
  refine mediated_pure ⟨granted.mono (longer.trans further), fun checks name listed => ?_⟩
  exact (checked checks name listed).mono further

/-- Every turn of the loop checks the key. -/
theorem mediated_generate (name : String) (numKeys : Nat)
    (granted : past.Granted .generateEek user .generateEek (some name)) :
    Mediated settings user past (generate settings user name numKeys) fun now json =>
      settings.keyAuthorization = true → json ≠ [] → now.EverChecked user .generateEek name := by
  induction numKeys generalizing past with
  | zero => exact mediated_pure fun _ some => absurd rfl some
  | succ numKeys ih =>
      refine (mediated_perform (.generateEncryptedKey name) granted fun _ _ _ same => by
        cases same).bind fun now edek longer checked => ?_
      refine (ih (granted.mono longer)).bind fun later rest further _ => ?_
      exact mediated_pure fun checks _ => (checked checks).mono further

theorem mediated_generateEncryptedKeys (name : String) (edekOp : Option String) (numKeys : Int) :
    Mediated settings user past (generateEncryptedKeys settings user name edekOp numKeys)
      fun now response =>
        Answerable settings user now (.generateEncryptedKeys name edekOp numKeys) response := by
  refine (mediated_checkNotEmpty (some name) "name").bind fun now found _ told => ?_
  obtain ⟨rfl, same, _⟩ := told
  cases same
  refine (mediated_checkNotNull edekOp "eekOp").bind fun now op _ _ => ?_
  split
  · refine (mediated_assertGranted _ _ _).bind fun now _ _ granted => ?_
    have loop : Mediated settings user now (tryCatch (generate settings user name numKeys.toNat)
        fun failure => throw (.io failure)) fun later json =>
          settings.keyAuthorization = true → json ≠ [] →
            later.EverChecked user .generateEek name :=
      Asking.ensures_tryCatch (mediated_generate name numKeys.toNat granted)
        fun _ _ _ _ => mediated_throw _
    exact loop.bind fun later json longer checked =>
      mediated_pure ⟨granted.mono longer, checked⟩
  · exact mediated_throw _

theorem mediated_decryptEncryptedKey (versionName : String) (eekOp : Option String)
    (json : DecryptJson) :
    Mediated settings user past (decryptEncryptedKey settings user versionName eekOp json)
      fun now response =>
        Answerable settings user now (.decryptEncryptedKey versionName eekOp json) response := by
  refine (mediated_checkNotEmpty _ _).bind fun now found _ _ => ?_
  refine (mediated_checkNotNull eekOp _).bind fun now op _ _ => ?_
  split
  · refine (mediated_assertGranted _ _ _).bind fun now _ _ granted => ?_
    refine (mediated_checkNotNull json.iv _).bind fun now iv longer _ => ?_
    refine (mediated_checkNotNull json.material _).bind fun later material further _ => ?_
    have still := granted.mono (longer.trans further)
    refine Mediated.bind (mediated_perform (.decryptEncryptedKey _) ?_ fun _ _ _ same => by
      cases same) fun last keyVersion furthest checked => ?_
    · exact still
    · exact mediated_pure ⟨still.mono furthest, checked⟩
  · exact mediated_throw _

/-- What a request of the user asks and answers. -/
theorem mediated_serve (request : KMSRequest) :
    Mediated settings user past (serve settings user request) fun now response =>
      Answerable settings user now request response := by
  have named : ∀ (text field : String) {β : Type} {next : String → KMSWork β}
      {post : KMSHistory → β → Prop}, Mediated settings user past (next text) post →
        Mediated settings user past (checkNotEmpty (some text) field >>= next) post := by
    intro text field β next post rest
    refine (mediated_checkNotEmpty (some text) field).bind fun now found _ told => ?_
    obtain ⟨rfl, same, _⟩ := told
    cases same
    exact rest
  cases request with
  | createKey jsonKey => exact mediated_createKey jsonKey
  | deleteKey name => exact mediated_deleteKey name
  | rolloverKey name material => exact mediated_rolloverKey name material
  | getKeysMetadata keyNames => exact mediated_getKeysMetadata keyNames
  | getKeyNames =>
      exact mediated_read .getKeys (fun _ granted => granted) id
        fun _ _ granted _ => granted
  | getMetadata name =>
      refine named name _ (mediated_read (.getMetadata name) ?_ id ?_)
      · exact fun _ granted => ⟨_, _, _, granted⟩
      · exact fun _ _ granted checked => ⟨granted, checked⟩
  | getCurrentVersion name =>
      refine named name _ (mediated_read (.getCurrentKey name) ?_ id ?_)
      · exact fun _ granted => granted
      · exact fun _ _ granted checked => ⟨granted, checked⟩
  | getKeyVersion versionName =>
      refine named versionName _ (mediated_read (.getKeyVersion versionName) ?_ id ?_)
      · exact fun _ granted => .inl granted
      · intro now keyVersion granted checked
        refine ⟨granted, fun checks version listed => ?_⟩
        obtain ⟨kept, same, rfl⟩ := Option.map_eq_some_iff.mp listed
        exact ⟨kept.name, rfl, checked checks kept same⟩
  | generateEncryptedKeys name edekOp numKeys =>
      exact mediated_generateEncryptedKeys name edekOp numKeys
  | decryptEncryptedKey versionName eekOp json =>
      exact mediated_decryptEncryptedKey versionName eekOp json
  | getKeyVersions name =>
      refine named name _ (mediated_read (.getKeyVersions name) ?_ id ?_)
      · exact fun _ granted => granted
      · exact fun _ _ granted checked => ⟨granted, checked⟩

end Requests

section Server

variable {σ δ : Type}

/-- The requests of a server, which take turns, and whatever answers them. -/
abbrev Server (σ : Type) := Concurrent σ (UserGroupInformation × KMSRequest) KMSQuestion.Answer
  (Except KMSFailure KMSResponse)

/-- The server after some turns, from one without requests. -/
def afterTurns (settings : KMSSettings)
    (answer : UserGroupInformation × KMSRequest → (question : KMSQuestion) → σ →
      question.Answer × σ) (outside : δ → σ → σ) (shared : σ)
    (turns : List (Turn (UserGroupInformation × KMSRequest) δ)) : Server σ :=
  Run.final (Concurrent.step (fun owner => serve settings owner.1 owner.2) answer outside)
    ⟨shared, []⟩ turns

/-- What was granted when a request of a user is done. -/
def Finished (settings : KMSSettings) (owner : UserGroupInformation × KMSRequest)
    (now : KMSHistory) : Except KMSFailure KMSResponse → Prop
  | .ok response => Answerable settings owner.1 now owner.2 response
  | .error _ => True

theorem serve_meets (settings : KMSSettings) (owner : UserGroupInformation × KMSRequest) :
    (serve settings owner.1 owner.2).Meets (Permitted settings owner.1)
      (Finished settings owner) [] := by
  refine (mediated_serve owner.2).mono fun now result _ done => ?_
  cases result with
  | ok response => exact done
  | error failure => exact trivial

end Server

section Example

/-- Everything is granted, no key has metadata, and keys are only deleted. -/
private def granting (_ : UserGroupInformation × KMSRequest) :
    (question : KMSQuestion) → Unit → question.Answer × Unit
  | .hasAccess .., _ => (true, ())
  | .assertAccess .., _ => (.ok (), ())
  | .hasAccessToKey .., _ => (true, ())
  | .isACLPresent .., _ => (true, ())
  | .provider (.getMetadata _), _ => (.ok none, ())
  | .provider (.deleteKey _), _ => (.ok (), ())
  | .provider .flush, _ => (.ok (), ())
  | .provider _, _ => (.error (.io "not supported"), ())

private def checkingKeys : KMSSettings := ⟨fun _ => [], fun _ => true, "AES", 128, true⟩

private def deleter : UserGroupInformation := ⟨"deleter", ["admins"]⟩

private def deletion : List (Turn (UserGroupInformation × KMSRequest) Unit) :=
  [.start (deleter, .deleteKey "zone"), .proceed 0, .start (deleter, .getKeyNames), .proceed 0,
    .proceed 1, .proceed 0, .proceed 0]

end Example

end KMS

end Ranger
