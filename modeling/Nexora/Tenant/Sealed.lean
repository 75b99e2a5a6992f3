import Nexora.Tenant.Frames

/-!
# What the vault's tables owe each other

A stored credential belongs to a connection that exists, a connection refers to a credential
that is stored, a pending authorization is for an OAuth connection, and only OAuth
connections have credentials that expire. Every operation keeps this, adds rows under
identifiers it draws only, and changes neither a stored credential nor what a connection was
made for.
-/

namespace Nexora.Tenant

open Nexora.Std Nexora.Catalog Nexora.Integration Nexora.Workspace

/-- The tables of the vault are coherent. -/
structure Sealed (store : Store) : Prop where
  owned : ∀ id credential, store.credentials.find? id = some credential →
    ∃ row, store.integrations.find? credential.tenantIntegrationId = some row ∧
      row.workspaceId = credential.workspaceId ∧
        (row.authType ≠ .oauth2 → credential.expiresAt = none)
  authorizing : ∀ digest state, store.oauthStates.find? digest = some state →
    ∃ row, store.integrations.find? state.tenantIntegrationId = some row ∧
      row.workspaceId = state.workspaceId ∧ row.authType = .oauth2
  referenced : ∀ id row reference, store.integrations.find? id = some row →
    row.credentialReference = some reference →
      ∃ credential, store.credentials.find? reference = some credential ∧
        credential.tenantIntegrationId = id
  connected : ∀ id row, store.integrations.find? id = some row → row.status = .connected →
    row.credentialReference ≠ none

/-- What a connection was made for. -/
structure SameMaking (first second : IntegrationRow) : Prop where
  workspaceId : first.workspaceId = second.workspaceId
  integrationDefinitionId : first.integrationDefinitionId = second.integrationDefinitionId
  authType : first.authType = second.authType

theorem SameMaking.refl (row : IntegrationRow) : SameMaking row row := ⟨rfl, rfl, rfl⟩

variable {first second : IntegrationRow} {third before after : Store}

theorem SameMaking.symm (same : SameMaking first second) :
    SameMaking second first :=
  ⟨same.workspaceId.symm, same.integrationDefinitionId.symm, same.authType.symm⟩

theorem SameMaking.trans {third : IntegrationRow} (early : SameMaking first second)
    (late : SameMaking second third) : SameMaking first third :=
  ⟨early.workspaceId.trans late.workspaceId,
    early.integrationDefinitionId.trans late.integrationDefinitionId,
    early.authType.trans late.authType⟩

/-- Rows are new under drawn identifiers only, and the others are what they were. -/
structure Keeps (draws : List Uuid) (before after : Store) : Prop where
  integrations : ∀ id row, after.integrations.find? id = some row →
    (∃ was, before.integrations.find? id = some was ∧ SameMaking row was) ∨ id ∈ draws
  credentials : ∀ id credential, after.credentials.find? id = some credential →
    before.credentials.find? id = some credential ∨ id ∈ draws

/-- Neither a connection, a credential nor an authorization changed. -/
structure Untouched (before after : Store) : Prop where
  integrations : after.integrations = before.integrations
  credentials : after.credentials = before.credentials
  oauthStates : after.oauthStates = before.oauthStates

theorem Untouched.refl (store : Store) : Untouched store store := ⟨rfl, rfl, rfl⟩

theorem Untouched.trans {first second : Store} (early : Untouched first second)
    (late : Untouched second third) : Untouched first third :=
  ⟨late.integrations.trans early.integrations, late.credentials.trans early.credentials,
    late.oauthStates.trans early.oauthStates⟩

theorem Untouched.keeps (untouched : Untouched before after) (draws : List Uuid) :
    Keeps draws before after where
  integrations id row found := by
    rw [untouched.integrations] at found
    exact .inl ⟨row, found, .refl row⟩
  credentials id credential found := by
    rw [untouched.credentials] at found
    exact .inl found

theorem Sealed.of_untouched (isSealed : Sealed before) (untouched : Untouched before after) :
    Sealed after where
  owned := by
    rw [untouched.credentials, untouched.integrations]
    exact isSealed.owned
  authorizing := by
    rw [untouched.oauthStates, untouched.integrations]
    exact isSealed.authorizing
  referenced := by
    rw [untouched.credentials, untouched.integrations]
    exact isSealed.referenced
  connected := by
    rw [untouched.integrations]
    exact isSealed.connected

theorem Keeps.trans {early late : List Uuid} {first second : Store}
    (before : Keeps early first second) (after : Keeps late second third) :
    Keeps (early ++ late) first third where
  integrations id row found := by
    rcases after.integrations id row found with ⟨middle, present, same⟩ | drawn
    · rcases before.integrations id middle present with ⟨was, earlier, sameMiddle⟩ | drawn
      · exact .inl ⟨was, earlier, same.trans sameMiddle⟩
      · exact .inr (List.mem_append_left _ drawn)
    · exact .inr (List.mem_append_right _ drawn)
  credentials id credential found := by
    rcases after.credentials id credential found with present | drawn
    · rcases before.credentials id credential present with earlier | drawn
      · exact .inl earlier
      · exact .inr (List.mem_append_left _ drawn)
    · exact .inr (List.mem_append_right _ drawn)

variable {definition : ConnectorManifest} {operation : Operation}

section Writers

variable {deployment : Deployment} {store next : Store} {workspaceId integrationId : Uuid}
  {credentialId : Uuid} {now : Instant} {id : Uuid} {was : IntegrationRow}

/-- The row a credential's writer leaves. -/
def credentialed (workspaceId credentialId : Uuid) (now : Instant) (row : IntegrationRow) :
    IntegrationRow :=
  if row.workspaceId = workspaceId then
    { row with credentialReference := some credentialId, status := .connected,
               lastError := none, updatedAt := now }
  else row

/-- What a credential's writer writes. -/
structure WritesCredential (store next : Store) (workspaceId integrationId credentialId : Uuid)
    (document : Dict String) (expiresAt : Option Instant) (now : Instant) (row : IntegrationRow) :
    Prop where
  present : store.integrations.find? integrationId = some row
  unused : store.credentials.find? credentialId = none
  oauthStates : next.oauthStates = store.oauthStates
  definitions : next.definitions = store.definitions
  bindings : next.bindings = store.bindings
  written : Table.Written store.integrations next.integrations integrationId
    (credentialed workspaceId credentialId now row)
  credentials : ∀ id, row.credentialReference ≠ some credentialId →
    next.credentials.find? id =
      if id = credentialId then some ⟨workspaceId, integrationId, document, expiresAt, now⟩
      else if row.credentialReference = some id then none
      else store.credentials.find? id

theorem writeCredential_inverts {document : Dict String} {expiresAt : Option Instant}
    (ok : writeCredential deployment store workspaceId integrationId document expiresAt
      credentialId now = .ok next) :
    ∃ row, WritesCredential store next workspaceId integrationId credentialId document expiresAt
      now row := by
  simp only [writeCredential, bind_eq_ok, found_eq_ok, inserted_eq_ok, Table.insert?_eq_some,
    pure_eq_ok] at ok
  obtain ⟨_, _, _, ⟨unused, rfl⟩, row, present, rfl⟩ := ok
  refine ⟨row, present, unused, rfl, rfl, rfl, .modify _ present, ?_⟩
  intro id distinct
  cases reference : row.credentialReference with
  | none => simp [Table.find?_put_eq]
  | some previous =>
    have other : credentialId ≠ previous := by
      rintro rfl
      exact distinct reference
    by_cases isNew : id = credentialId
    · subst isNew
      simp [Table.find?_erase, other]
    · by_cases isOld : id = previous
      · simp [Table.find?_erase, isOld, Ne.symm other]
      · simp [Table.find?_erase, isNew, isOld, Ne.symm isOld]

theorem credentialed_sameMaking (workspaceId credentialId : Uuid) (now : Instant)
    (row : IntegrationRow) : SameMaking (credentialed workspaceId credentialId now row) row := by
  unfold credentialed
  split <;> exact ⟨rfl, rfl, rfl⟩

theorem credentialed_reference {row : IntegrationRow} (own : row.workspaceId = workspaceId)
    (credentialId : Uuid) (now : Instant) :
    (credentialed workspaceId credentialId now row).credentialReference = some credentialId := by
  simp [credentialed, own]

namespace WritesCredential

variable {document : Dict String} {expiresAt : Option Instant} {row : IntegrationRow}

/-- The reference that is replaced is to a stored credential, so it is not to the new one. -/
theorem distinct (writes : WritesCredential store next workspaceId integrationId credentialId
    document expiresAt now row) (isSealed : Sealed store) :
    row.credentialReference ≠ some credentialId := by
  intro same
  obtain ⟨credential, stored, _⟩ := isSealed.referenced _ _ _ writes.present same
  rw [writes.unused] at stored
  cases stored

theorem keeps (writes : WritesCredential store next workspaceId integrationId credentialId
    document expiresAt now row) (isSealed : Sealed store) :
    Keeps [credentialId] store next where
  integrations id found := by
    intro present
    obtain ⟨rfl, rfl⟩ | ⟨_, earlier⟩ := writes.written.found present
    · exact .inl ⟨row, writes.present, credentialed_sameMaking _ _ _ row⟩
    · exact .inl ⟨found, earlier, .refl found⟩
  credentials id credential present := by
    rw [writes.credentials id (writes.distinct isSealed)] at present
    split at present
    · next same => exact .inr (by simp [same])
    · split at present
      · cases present
      · exact .inl present

/-- A connection that is there before is there after, made for the same. -/
theorem row_kept
    (writes : WritesCredential store next workspaceId integrationId credentialId
    document expiresAt now row) (present : store.integrations.find? id = some was) :
    ∃ later, next.integrations.find? id = some later ∧ SameMaking later was := by
  by_cases same : id = integrationId
  · subst same
    obtain rfl := Option.some.inj (present.symm.trans writes.present)
    exact ⟨_, writes.written.self, credentialed_sameMaking _ _ _ _⟩
  · exact ⟨was, (writes.written.other same).trans present, .refl was⟩

/-- Writing a credential of its own workspace's connection keeps the vault coherent, when
only an OAuth connection's credential may expire. -/
theorem sealed_after (writes : WritesCredential store next workspaceId integrationId credentialId
    document expiresAt now row) (isSealed : Sealed store) (own : row.workspaceId = workspaceId)
    (expires : row.authType ≠ .oauth2 → expiresAt = none) : Sealed next where
  owned id credential present := by
    rw [writes.credentials id (writes.distinct isSealed)] at present
    split at present
    · cases present
      obtain ⟨later, found, same⟩ := writes.row_kept writes.present
      exact ⟨later, found, same.workspaceId.trans own, fun other => expires (same.authType ▸ other)⟩
    · split at present
      · cases present
      · obtain ⟨was, found, inWorkspace, unexpired⟩ := isSealed.owned id credential present
        obtain ⟨later, foundLater, same⟩ := writes.row_kept found
        exact ⟨later, foundLater, same.workspaceId.trans inWorkspace,
          fun other => unexpired (same.authType ▸ other)⟩
  authorizing digest state present := by
    rw [writes.oauthStates] at present
    obtain ⟨was, found, inWorkspace, isOAuth⟩ := isSealed.authorizing digest state present
    obtain ⟨later, foundLater, same⟩ := writes.row_kept found
    exact ⟨later, foundLater, same.workspaceId.trans inWorkspace, same.authType.trans isOAuth⟩
  referenced id found reference present isReference := by
    have stored := writes.credentials reference (writes.distinct isSealed)
    obtain ⟨rfl, rfl⟩ | ⟨other, earlier⟩ := writes.written.found present
    · rw [credentialed_reference own, Option.some.injEq] at isReference
      subst isReference
      exact ⟨_, stored.trans (if_pos rfl), rfl⟩
    · obtain ⟨credential, kept, isOwner⟩ := isSealed.referenced id found reference earlier
        isReference
      have notNew : reference ≠ credentialId := by
        rintro rfl
        rw [writes.unused] at kept
        cases kept
      have notOld : row.credentialReference ≠ some reference := by
        intro same
        obtain ⟨again, keptAgain, isOther⟩ := isSealed.referenced _ _ _ writes.present same
        obtain rfl := Option.some.inj (kept.symm.trans keptAgain)
        exact other (isOwner.symm.trans isOther)
      exact ⟨credential, by rw [stored, if_neg notNew, if_neg notOld, kept], isOwner⟩
  connected id found present status := by
    obtain ⟨rfl, rfl⟩ | ⟨_, earlier⟩ := writes.written.found present
    · simp [credentialed_reference own]
    · exact isSealed.connected id found earlier status

end WritesCredential

/-- What a change of a connection's row may do. -/
structure Amends (row changed : IntegrationRow) : Prop where
  same : SameMaking changed row
  reference : changed.credentialReference = row.credentialReference
  status : changed.status = .connected → row.status = .connected ∨ row.credentialReference ≠ none

/-- A store whose only difference is the row of one connection, and perhaps fewer pending
authorizations. -/
structure RowOnly (store next : Store) (id : Uuid) (row : IntegrationRow) : Prop where
  written : Table.Written store.integrations next.integrations id row
  credentials : next.credentials = store.credentials
  oauthStates : ∀ digest state, next.oauthStates.find? digest = some state →
    store.oauthStates.find? digest = some state

/-- Changing one connection's row, with fewer pending authorizations or the same ones. -/
theorem modify_rowOnly {row : IntegrationRow} (change : IntegrationRow → IntegrationRow)
    (states : Table Nat OAuthStateRow) (present : store.integrations.find? id = some row)
    (fewer : ∀ digest state, states.find? digest = some state →
      store.oauthStates.find? digest = some state) :
    RowOnly store { store with
      oauthStates := states, integrations := store.integrations.modify id change } id
      (change row) :=
  ⟨.modify change present, rfl, fewer⟩

theorem RowOnly.keeps {row : IntegrationRow} (only : RowOnly store next id row)
    (present : store.integrations.find? id = some was) (same : SameMaking row was)
    (draws : List Uuid) : Keeps draws store next where
  integrations other found := by
    intro later
    obtain ⟨rfl, rfl⟩ | ⟨_, earlier⟩ := only.written.found later
    · exact .inl ⟨was, present, same⟩
    · exact .inl ⟨found, earlier, .refl found⟩
  credentials other credential later := by
    rw [only.credentials] at later
    exact .inl later

theorem RowOnly.sealed_after {row : IntegrationRow} (only : RowOnly store next id row)
    (present : store.integrations.find? id = some was) (amends : Amends was row)
    (isSealed : Sealed store) : Sealed next := by
  have kept : ∀ other found, store.integrations.find? other = some found →
      ∃ later, next.integrations.find? other = some later ∧ SameMaking later found := by
    intro other found earlier
    by_cases isIt : other = id
    · subst isIt
      obtain rfl := Option.some.inj (present.symm.trans earlier)
      exact ⟨row, only.written.self, amends.same⟩
    · exact ⟨found, (only.written.other isIt).trans earlier, .refl found⟩
  constructor
  case owned =>
    intro other credential stored
    rw [only.credentials] at stored
    obtain ⟨found, earlier, inWorkspace, unexpired⟩ := isSealed.owned other credential stored
    obtain ⟨later, foundLater, same⟩ := kept _ _ earlier
    exact ⟨later, foundLater, same.workspaceId.trans inWorkspace,
      fun notOAuth => unexpired (same.authType ▸ notOAuth)⟩
  case authorizing =>
    intro digest state pending
    obtain ⟨found, earlier, inWorkspace, isOAuth⟩ :=
      isSealed.authorizing digest state (only.oauthStates digest state pending)
    obtain ⟨later, foundLater, same⟩ := kept _ _ earlier
    exact ⟨later, foundLater, same.workspaceId.trans inWorkspace, same.authType.trans isOAuth⟩
  case referenced =>
    intro other found reference later isReference
    rw [only.credentials]
    obtain ⟨rfl, rfl⟩ | ⟨_, earlier⟩ := only.written.found later
    · exact isSealed.referenced _ was reference present (amends.reference ▸ isReference)
    · exact isSealed.referenced other found reference earlier isReference
  case connected =>
    intro other found later status
    obtain ⟨rfl, rfl⟩ | ⟨_, earlier⟩ := only.written.found later
    · rw [amends.reference]
      rcases amends.status status with connected | referenced
      · exact isSealed.connected _ was present connected
      · exact referenced
    · exact isSealed.connected other found earlier status

/-- What inserting a pending connection leaves. -/
theorem insertIntegration_inverts {displayName accountIdentifier : String} {scopes : List String}
    {config : Dict String}
    (ok : insertIntegration store workspaceId integrationId definition displayName
      accountIdentifier scopes config now = .ok next) :
    ∃ row, store.integrations.find? integrationId = none ∧
      RowOnly store next integrationId row ∧ row.workspaceId = workspaceId ∧
        row.authType = definition.auth ∧ row.credentialReference = none ∧ row.status = .pending := by
  simp only [insertIntegration, bind_eq_ok, inserted_eq_ok, Table.insert?_eq_some,
    pure_eq_ok] at ok
  obtain ⟨_, _, _, ⟨absent, rfl⟩, rfl⟩ := ok
  exact ⟨_, absent, ⟨.put _ _ _, rfl, fun _ _ => id⟩, rfl, rfl, rfl, rfl⟩

theorem RowOnly.added_keeps {row : IntegrationRow} (only : RowOnly store next id row) :
    Keeps [id] store next where
  integrations other found := by
    intro later
    obtain ⟨rfl, rfl⟩ | ⟨_, earlier⟩ := only.written.found later
    · exact .inr (List.mem_singleton_self _)
    · exact .inl ⟨found, earlier, .refl found⟩
  credentials other credential later := by
    rw [only.credentials] at later
    exact .inl later

theorem RowOnly.added_sealed {row : IntegrationRow} (only : RowOnly store next id row)
    (absent : store.integrations.find? id = none) (unreferenced : row.credentialReference = none)
    (pending : row.status = .pending) (isSealed : Sealed store) : Sealed next := by
  have kept : ∀ other found, store.integrations.find? other = some found →
      next.integrations.find? other = some found := by
    intro other found earlier
    refine (only.written.other ?_).trans earlier
    rintro rfl
    rw [absent] at earlier
    cases earlier
  constructor
  case owned =>
    intro other credential stored
    rw [only.credentials] at stored
    obtain ⟨found, earlier, rest⟩ := isSealed.owned other credential stored
    exact ⟨found, kept _ _ earlier, rest⟩
  case authorizing =>
    intro digest state stored
    obtain ⟨found, earlier, rest⟩ :=
      isSealed.authorizing digest state (only.oauthStates digest state stored)
    exact ⟨found, kept _ _ earlier, rest⟩
  case referenced =>
    intro other found reference later isReference
    rw [only.credentials]
    obtain ⟨rfl, rfl⟩ | ⟨_, earlier⟩ := only.written.found later
    · rw [unreferenced] at isReference
      cases isReference
    · exact isSealed.referenced other found reference earlier isReference
  case connected =>
    intro other found later status
    obtain ⟨rfl, rfl⟩ | ⟨_, earlier⟩ := only.written.found later
    · rw [pending] at status
      cases status
    · exact isSealed.connected other found earlier status

end Writers

section Operations

variable {deployment : Deployment} {store next : Store} {cached : Option ConnectorManifest}
  {principal : Principal} {workspaceId integrationId credentialId : Uuid} {clock now : Instant}
  {exchange : Except Failure TokenAnswer} {stateDigest : Nat}

theorem integrationRow_eq_ok {row : IntegrationRow} :
    integrationRow store workspaceId integrationId = .ok row ↔
      store.integrations.find? integrationId = some row ∧ row.workspaceId = workspaceId := by
  simp [integrationRow, Option.filter_eq_some_iff]

/-- A connection whose token is about to expire is an OAuth one. -/
theorem isOAuth_of_refreshDue {document : Dict String} {refreshToken : String}
    {row : IntegrationRow} (isSealed : Sealed store)
    (due : refreshDue store workspaceId integrationId definition document clock =
      some refreshToken) (present : store.integrations.find? integrationId = some row) :
    row.authType = .oauth2 := by
  simp only [refreshDue, credentialExpiry, Option.bind_eq_bind, Option.bind_eq_some_iff] at due
  obtain ⟨_, _, _, _, _, _, _, _, expiresAt, ⟨⟨newestId, newest⟩, isNewest, expires⟩, _⟩ := due
  have selected := List.argmax_mem isNewest
  rw [Table.mem_select, decide_eq_true_eq] at selected
  obtain ⟨found, isRow, _, unexpired⟩ := isSealed.owned newestId newest selected.1
  rw [selected.2.1] at isRow
  obtain rfl := Option.some.inj (present.symm.trans isRow)
  by_contra other
  rw [unexpired other] at expires
  cases expires

theorem refreshIfNeeded_sealed {document used : Dict String} {row : IntegrationRow}
    (isSealed : Sealed store) (present : store.integrations.find? integrationId = some row)
    (own : row.workspaceId = workspaceId)
    (ok : refreshIfNeeded deployment store workspaceId integrationId definition document exchange
      credentialId clock now = .ok (used, next)) :
    Sealed next ∧ Keeps [credentialId] store next := by
  unfold refreshIfNeeded at ok
  split at ok
  · simp only [pure_eq_ok, Prod.mk.injEq] at ok
    obtain ⟨_, rfl⟩ := ok
    exact ⟨isSealed, (Untouched.refl store).keeps _⟩
  · next refreshToken due =>
    simp only [bind_eq_ok, pure_eq_ok, Prod.mk.injEq] at ok
    obtain ⟨_, _, _, _, _, write, _, rfl⟩ := ok
    obtain ⟨was, writes⟩ := writeCredential_inverts write
    obtain rfl := Option.some.inj (present.symm.trans writes.present)
    have isOAuth := isOAuth_of_refreshDue isSealed due present
    exact ⟨writes.sealed_after isSealed own (fun other => absurd isOAuth other),
      writes.keeps isSealed⟩

theorem connect_sealed {body : ConnectInput} (isSealed : Sealed store)
    (ok : connect deployment store cached principal workspaceId body integrationId credentialId
      now = .ok next) : Sealed next ∧ Keeps [integrationId, credentialId] store next := by
  simp only [connect, bind_eq_ok] at ok
  obtain ⟨_, _, _, _, _, _, _, _, _, _, _, _, pending, insert, write⟩ := ok
  obtain ⟨row, absent, only, inWorkspace, _, unreferenced, isPending⟩ :=
    insertIntegration_inverts insert
  have added := only.added_sealed absent unreferenced isPending isSealed
  obtain ⟨was, writes⟩ := writeCredential_inverts write
  obtain rfl := Option.some.inj (only.written.self.symm.trans writes.present)
  exact ⟨writes.sealed_after added inWorkspace fun _ => rfl,
    only.added_keeps.trans (writes.keeps added)⟩

theorem rotate_sealed {credentials : Dict String} (isSealed : Sealed store)
    (ok : rotate deployment store cached principal workspaceId integrationId credentials
      credentialId now = .ok next) : Sealed next ∧ Keeps [credentialId] store next := by
  simp only [rotate, bind_eq_ok, integrationRow_eq_ok] at ok
  obtain ⟨_, _, row, ⟨present, own⟩, _, _, _, _, fields, _, _, _, write⟩ := ok
  have only : RowOnly store { store with
      integrations := store.integrations.modify integrationId fun row =>
        { row with config := fields.2 } } integrationId { row with config := fields.2 } :=
    ⟨.modify _ present, rfl, fun _ _ => id⟩
  have amends : Amends row { row with config := fields.2 } := ⟨⟨rfl, rfl, rfl⟩, rfl, .inl⟩
  have configured := only.sealed_after present amends isSealed
  obtain ⟨was, writes⟩ := writeCredential_inverts write
  obtain rfl := Option.some.inj (only.written.self.symm.trans writes.present)
  exact ⟨writes.sealed_after configured own fun _ => rfl,
    (only.keeps present amends.same []).trans (writes.keeps configured)⟩

theorem updateIntegration_sealed {body : IntegrationUpdate} (isSealed : Sealed store)
    (ok : updateIntegration store principal workspaceId integrationId body now = .ok next) :
    Sealed next ∧ Keeps [] store next := by
  simp only [updateIntegration, bind_eq_ok, integrationRow_eq_ok, pure_eq_ok] at ok
  obtain ⟨_, _, row, ⟨present, _⟩, same⟩ := ok
  have only : ∃ changed, RowOnly store next integrationId changed ∧ Amends row changed := by
    rw [← same]
    refine ⟨_, ⟨.modify _ present, rfl, fun _ _ => id⟩, ⟨rfl, rfl, rfl⟩, rfl, ?_⟩
    intro status
    cases enabled : body.enabled with
    | none => exact .inl (by simpa [enabled] using status)
    | some enables =>
      cases enables with
      | false => simp [enabled] at status
      | true =>
        by_cases disabled : row.status = .disabled
        · right
          intro unreferenced
          simp [enabled, disabled, unreferenced] at status
        · exact .inl (by simpa [enabled, disabled] using status)
  obtain ⟨changed, only, amends⟩ := only
  exact ⟨only.sealed_after present amends isSealed, only.keeps present amends.same []⟩

/-- Recording a test keeps the vault coherent where a connection it calls connected has a
credential. -/
theorem recordTest_sealed {row : IntegrationRow} {errorCode : Option String}
    {status : Option IntegrationStatus} (isSealed : Sealed store)
    (present : store.integrations.find? integrationId = some row)
    (referenced : row.credentialReference ≠ none) :
    Sealed (recordTest store workspaceId integrationId errorCode status now) ∧
      Keeps [] store (recordTest store workspaceId integrationId errorCode status now) := by
  have only : RowOnly store (recordTest store workspaceId integrationId errorCode status now)
      integrationId _ := ⟨.modify _ present, rfl, fun _ _ => id⟩
  have amends : Amends row (if row.workspaceId = workspaceId then
      { row with
        lastTestedAt := some now
        lastSuccessAt := if errorCode = none then some now else row.lastSuccessAt
        lastError := errorCode
        status := status.getD row.status
        updatedAt := now }
      else row) := by
    split
    · exact ⟨⟨rfl, rfl, rfl⟩, rfl, fun _ => .inr referenced⟩
    · exact ⟨.refl row, rfl, .inl⟩
  exact ⟨only.sealed_after present amends isSealed, only.keeps present amends.same []⟩

/-- A refreshed connection keeps a credential. -/
theorem refreshIfNeeded_referenced {document used : Dict String} {row : IntegrationRow}
    (present : store.integrations.find? integrationId = some row)
    (own : row.workspaceId = workspaceId) (referenced : row.credentialReference ≠ none)
    (ok : refreshIfNeeded deployment store workspaceId integrationId definition document exchange
      credentialId clock now = .ok (used, next)) :
    ∃ later, next.integrations.find? integrationId = some later ∧
      later.credentialReference ≠ none := by
  unfold refreshIfNeeded at ok
  split at ok
  · simp only [pure_eq_ok, Prod.mk.injEq] at ok
    obtain ⟨_, rfl⟩ := ok
    exact ⟨row, present, referenced⟩
  · simp only [bind_eq_ok, pure_eq_ok, Prod.mk.injEq] at ok
    obtain ⟨_, _, _, _, _, write, _, rfl⟩ := ok
    obtain ⟨was, writes⟩ := writeCredential_inverts write
    obtain rfl := Option.some.inj (present.symm.trans writes.present)
    exact ⟨_, writes.written.self, by simp [credentialed_reference own]⟩

/-- What resolving a connection has found. -/
theorem resolve_row {resolved : ConnectorManifest × Dict String × IntegrationRow}
    (ok : resolve deployment store cached workspaceId integrationId = .ok resolved) :
    store.integrations.find? integrationId = some resolved.2.2 ∧
      resolved.2.2.workspaceId = workspaceId ∧ ∃ reference credential,
        resolved.2.2.credentialReference = some reference ∧
          store.credentials.find? reference = some credential ∧
            resolved.2.1 = credential.document := by
  simp only [resolve, bind_eq_ok, integrationRow_eq_ok, orRaise_eq_ok, raiseIf_eq_ok, pure_eq_ok,
    Option.filter_eq_some_iff] at ok
  obtain ⟨row, ⟨present, own⟩, _, _, reference, isReference, _, _, credential, ⟨stored, _⟩, _, _,
    _, _, rfl⟩ := ok
  exact ⟨present, own, reference, credential, isReference, stored, rfl⟩

theorem testIntegration_sealed {probe : Except ConnectorError ConnectorResult}
    {report : ConnectionTest} (isSealed : Sealed store)
    (ok : testIntegration deployment store cached principal workspaceId integrationId exchange
      probe credentialId clock now = .ok (report, next)) :
    Sealed next ∧ Keeps [credentialId] store next := by
  simp only [testIntegration, bind_eq_ok] at ok
  obtain ⟨_, _, resolved, resolves, ⟨used, refreshed⟩, refreshes, ok⟩ := ok
  obtain ⟨present, own, reference, _, isReference, _⟩ := resolve_row resolves
  obtain ⟨isSealedThen, kept⟩ := refreshIfNeeded_sealed isSealed present own refreshes
  obtain ⟨later, presentLater, referenced⟩ := refreshIfNeeded_referenced present own
    (by simp [isReference]) refreshes
  have recorded : ∀ errorCode status, next =
      recordTest refreshed workspaceId integrationId errorCode status now →
        Sealed next ∧ Keeps [credentialId] store next := by
    rintro errorCode status rfl
    obtain ⟨last, keptLast⟩ := recordTest_sealed isSealedThen presentLater referenced
    exact ⟨last, by simpa using kept.trans keptLast⟩
  split at ok
  · rw [pure_eq_ok, Prod.mk.injEq] at ok
    exact recorded _ _ ok.2.symm
  · split at ok <;>
    · rw [pure_eq_ok, Prod.mk.injEq] at ok
      exact recorded _ _ ok.2.symm

theorem refreshForCall_sealed (isSealed : Sealed store)
    (ok : refreshForCall deployment store cached workspaceId integrationId exchange credentialId
      clock now = .ok next) : Sealed next ∧ Keeps [credentialId] store next := by
  simp only [refreshForCall, bind_eq_ok, pure_eq_ok] at ok
  obtain ⟨resolved, resolves, ⟨used, refreshed⟩, refreshes, rfl⟩ := ok
  obtain ⟨present, own, _⟩ := resolve_row resolves
  exact refreshIfNeeded_sealed isSealed present own refreshes

theorem startOAuth_sealed {body : OAuthStartInput} (isSealed : Sealed store)
    (ok : startOAuth deployment store cached principal workspaceId body integrationId stateDigest
      clock now = .ok next) : Sealed next ∧ Keeps [integrationId] store next := by
  simp only [startOAuth, bind_eq_ok, raiseIf_eq_ok, inserted_eq_ok, Table.insert?_eq_some,
    pure_eq_ok, not_or, not_not] at ok
  obtain ⟨_, _, definition, _, _, ⟨isOAuth, _⟩, _, _, _, _, _, _, pending, insert, _, _, states,
    ⟨_, rfl⟩, rfl⟩ := ok
  obtain ⟨row, absent, only, inWorkspace, authType, unreferenced, isPending⟩ :=
    insertIntegration_inverts insert
  have added := only.added_sealed absent unreferenced isPending isSealed
  refine ⟨⟨added.owned, ?_, added.referenced, added.connected⟩,
    ⟨only.added_keeps.integrations, only.added_keeps.credentials⟩⟩
  intro digest state found
  obtain ⟨rfl, rfl⟩ | ⟨_, earlier⟩ := (Table.Written.put _ _ _).found found
  · exact ⟨row, only.written.self, inWorkspace, authType.trans isOAuth⟩
  · exact added.authorizing digest state earlier

theorem completeOAuth_sealed (isSealed : Sealed store)
    (ok : completeOAuth deployment store cached principal workspaceId stateDigest exchange
      credentialId clock now = .ok next) : Sealed next ∧ Keeps [credentialId] store next := by
  simp only [completeOAuth, bind_eq_ok, orRaise_eq_ok, Option.filter_eq_some_iff,
    decide_eq_true_eq] at ok
  obtain ⟨_, _, state, ⟨pending, inWorkspace⟩, _, _, _, _, _, _, answer, _, write⟩ := ok
  obtain ⟨row, present, own, isOAuth⟩ := isSealed.authorizing _ state pending
  rw [inWorkspace] at own
  have only := modify_rowOnly (fun current : IntegrationRow =>
      if current.workspaceId = workspaceId then
        { current with grantedScopes := answer.grantedScopes.getD state.requestedScopes }
      else current) (store.oauthStates.erase stateDigest) present
    fun digest kept found => (Table.of_find?_erase found).2
  have amends : Amends row (if row.workspaceId = workspaceId then
      { row with grantedScopes := answer.grantedScopes.getD state.requestedScopes }
      else row) := by
    rw [if_pos own]
    exact ⟨⟨rfl, rfl, rfl⟩, rfl, .inl⟩
  have consumed := only.sealed_after present amends isSealed
  obtain ⟨was, writes⟩ := writeCredential_inverts write
  obtain rfl := Option.some.inj (only.written.self.symm.trans writes.present)
  refine ⟨writes.sealed_after consumed (amends.same.workspaceId.trans own) ?_,
    (only.keeps present amends.same []).trans (writes.keeps consumed)⟩
  intro other
  exact absurd (amends.same.authType.trans isOAuth) other

theorem disconnect_sealed (isSealed : Sealed store)
    (ok : disconnect store principal workspaceId integrationId = .ok next) :
    Sealed next ∧ Keeps [] store next := by
  simp only [disconnect, bind_eq_ok, integrationRow_eq_ok, pure_eq_ok] at ok
  obtain ⟨_, _, row, ⟨present, own⟩, _, _, _, _, rfl⟩ := ok
  -- A credential or authorization that is left is of another connection, for its own
  -- connection is in the workspace it is in itself.
  have credentialLeft : ∀ id credential, (((store.credentials.select fun _ credential =>
        credential.tenantIntegrationId = integrationId ∧
          credential.workspaceId = workspaceId).map Prod.fst).foldl Table.erase
            store.credentials).find? id = some credential →
      store.credentials.find? id = some credential ∧
        credential.tenantIntegrationId ≠ integrationId := by
    intro id credential left
    rw [Table.find?_foldl_erase] at left
    split at left
    · cases left
    · next spared =>
      refine ⟨left, ?_⟩
      rintro rfl
      obtain ⟨was, found, inWorkspace, _⟩ := isSealed.owned id credential left
      obtain rfl := Option.some.inj (present.symm.trans found)
      apply spared
      refine List.mem_map.mpr ⟨(id, credential), ?_, rfl⟩
      rw [Table.mem_select]
      exact ⟨left, by simp [← inWorkspace, own]⟩
  have stateLeft : ∀ digest state, (((store.oauthStates.select fun _ state =>
        state.tenantIntegrationId = integrationId ∧
          state.workspaceId = workspaceId).map Prod.fst).foldl Table.erase
            store.oauthStates).find? digest = some state →
      store.oauthStates.find? digest = some state ∧
        state.tenantIntegrationId ≠ integrationId := by
    intro digest state left
    rw [Table.find?_foldl_erase] at left
    split at left
    · cases left
    · next spared =>
      refine ⟨left, ?_⟩
      rintro rfl
      obtain ⟨was, found, inWorkspace, _⟩ := isSealed.authorizing digest state left
      obtain rfl := Option.some.inj (present.symm.trans found)
      apply spared
      refine List.mem_map.mpr ⟨(digest, state), ?_, rfl⟩
      rw [Table.mem_select]
      exact ⟨left, by simp [← inWorkspace, own]⟩
  have rowLeft : ∀ id found, id ≠ integrationId → store.integrations.find? id = some found →
      (store.integrations.erase integrationId).find? id = some found := by
    intro id found other earlier
    rw [Table.find?_erase, if_neg other, earlier]
  refine ⟨⟨?_, ?_, ?_, ?_⟩, ⟨?_, ?_⟩⟩
  · intro id credential left
    obtain ⟨stored, other⟩ := credentialLeft id credential left
    obtain ⟨found, earlier, rest⟩ := isSealed.owned id credential stored
    exact ⟨found, rowLeft _ _ other earlier, rest⟩
  · intro digest state left
    obtain ⟨pending, other⟩ := stateLeft digest state left
    obtain ⟨found, earlier, rest⟩ := isSealed.authorizing digest state pending
    exact ⟨found, rowLeft _ _ other earlier, rest⟩
  · intro id found reference later isReference
    obtain ⟨other, earlier⟩ := Table.of_find?_erase later
    obtain ⟨credential, stored, isOwner⟩ :=
      isSealed.referenced id found reference earlier isReference
    refine ⟨credential, ?_, isOwner⟩
    rw [Table.find?_foldl_erase, if_neg, stored]
    intro selected
    obtain ⟨⟨_, again⟩, isSelected, rfl⟩ := List.mem_map.mp selected
    rw [Table.mem_select, decide_eq_true_eq] at isSelected
    obtain rfl := Option.some.inj (stored.symm.trans isSelected.1)
    exact other (isOwner.symm.trans isSelected.2.1)
  · intro id found later status
    exact isSealed.connected id found (Table.of_find?_erase later).2 status
  · intro id found later
    exact .inl ⟨found, (Table.of_find?_erase later).2, .refl found⟩
  · intro id credential left
    exact .inl (credentialLeft id credential left).1

end Operations

section Instances

variable {deployment : Deployment} {store next : Store} {principal : Principal}
  {workspaceId agentId toVersionId : Uuid} {now : Instant} {eventId : Uuid}
  {action : VersionAction}

theorem writeBinding_untouched {manifest : AgentManifest} {key : String} {integrationId : Uuid}
    (ok : writeBinding store workspaceId agentId manifest key integrationId now = .ok next) :
    Untouched store next := by
  rw [writeBinding_ok ok]
  exact ⟨rfl, rfl, rfl⟩

theorem eraseBinding_untouched (store : Store) (workspaceId agentId : Uuid) (key : String) :
    Untouched store (eraseBinding store workspaceId agentId key) := by
  unfold eraseBinding
  split
  · split <;> exact ⟨rfl, rfl, rfl⟩
  · exact .refl store

theorem recordVersion_untouched {fromVersionId : Option Uuid}
    (ok : recordVersion store principal workspaceId agentId fromVersionId toVersionId action eventId
      now = .ok next) : Untouched store next := by
  obtain ⟨_, rfl⟩ := recordVersion_ok ok
  exact ⟨rfl, rfl, rfl⟩

theorem repin_untouched {fromVersionId : Uuid}
    (ok : repin store principal workspaceId agentId fromVersionId toVersionId action eventId now =
      .ok next) : Untouched store next := by
  obtain ⟨_, rfl⟩ := repin_ok ok
  exact ⟨rfl, rfl, rfl⟩

theorem install_untouched {body : InstallInput}
    (ok : install deployment store principal workspaceId body agentId eventId now = .ok next) :
    Untouched store next := by
  simp only [install, bind_eq_ok, pure_eq_ok] at ok
  obtain ⟨_, _, _, _, _, _, _, _, _, _, _, _, _, _, bound, writes, recorded, event, rfl⟩ := ok
  have written : Untouched store bound := by
    refine foldlM_invariant (Untouched store) ?_ (Untouched.mk ?_ ?_ ?_) writes
    · intro current entry _ later kept write
      exact kept.trans (writeBinding_untouched write)
    all_goals rfl
  exact (written.trans (recordVersion_untouched event)).trans ⟨rfl, rfl, rfl⟩

theorem moveVersion_untouched {version : Option Version}
    (ok : moveVersion deployment store principal workspaceId agentId version eventId now =
      .ok next) : Untouched store next := by
  simp only [moveVersion, bind_eq_ok] at ok
  obtain ⟨_, _, _, _, _, _, ok⟩ := ok
  split at ok
  · rw [pure_eq_ok] at ok
    subst ok
    exact .refl store
  · simp only [bind_eq_ok, pure_eq_ok] at ok
    obtain ⟨_, _, _, _, moved, move, rfl⟩ := ok
    exact (repin_untouched move).trans ⟨rfl, rfl, rfl⟩

theorem automaticUpdate_untouched {row : TenantAgentRow}
    (ok : automaticUpdate deployment store agentId row eventId now = .ok next) :
    Untouched store next := by
  obtain rfl | ⟨_, _, _, _, moved, _, move, rfl⟩ := automaticUpdate_ok ok
  · exact .refl _
  · exact (repin_untouched move).trans ⟨rfl, rfl, rfl⟩

/-- An operation on instances, the catalog or the registry leaves the vault as it is. -/
def Operation.sparesVault : Operation → Bool
  | .connect .. | .updateIntegration .. | .rotate .. | .disconnect .. | .testIntegration ..
  | .refreshForCall .. | .startOAuth .. | .completeOAuth .. => false
  | _ => true

theorem run_untouched (spares : operation.sparesVault = true)
    (ok : run deployment store operation = .ok next) : Untouched store next := by
  cases operation with
  | connect | updateIntegration | rotate | disconnect | testIntegration | refreshForCall
  | startOAuth | completeOAuth => cases spares
  | setMember principal workspaceId subject role =>
    simp only [run, bind_eq_ok, pure_eq_ok] at ok
    obtain ⟨_, _, rfl⟩ := ok
    exact ⟨rfl, rfl, rfl⟩
  | catalog operation =>
    simp only [run, bind_eq_ok, pure_eq_ok] at ok
    obtain ⟨_, _, rfl⟩ := ok
    exact ⟨rfl, rfl, rfl⟩
  | publishDefinition definitionId manifest =>
    simp only [run, publishDefinition, bind_eq_ok, pure_eq_ok] at ok
    obtain ⟨_, _, rfl⟩ := ok
    exact ⟨rfl, rfl, rfl⟩
  | install principal workspaceId body agentId eventId now => exact install_untouched ok
  | setBinding principal workspaceId agentId key integrationId now =>
    simp only [run, setBinding, bind_eq_ok, pure_eq_ok] at ok
    obtain ⟨_, _, _, _, _, _, bound, write, rfl⟩ := ok
    exact (writeBinding_untouched write).trans ⟨rfl, rfl, rfl⟩
  | clearBinding principal workspaceId agentId key now =>
    simp only [run, clearBinding, bind_eq_ok, pure_eq_ok] at ok
    obtain ⟨_, _, _, _, _, _, rfl⟩ := ok
    exact (eraseBinding_untouched store workspaceId agentId key).trans ⟨rfl, rfl, rfl⟩
  | updateAgentInstance principal workspaceId agentId body now =>
    simp only [run, updateAgentInstance, bind_eq_ok, pure_eq_ok] at ok
    obtain ⟨_, _, _, _, _, _, _, _, _, _, rfl⟩ := ok
    exact ⟨rfl, rfl, rfl⟩
  | uninstall principal workspaceId agentId now =>
    simp only [run, uninstall, bind_eq_ok, pure_eq_ok] at ok
    obtain ⟨_, _, _, _, rfl⟩ := ok
    exact ⟨rfl, rfl, rfl⟩
  | moveVersion principal workspaceId agentId version eventId now => exact moveVersion_untouched ok
  | rollbackVersion principal workspaceId agentId eventId now =>
    simp only [run, rollbackVersion, bind_eq_ok, pure_eq_ok] at ok
    obtain ⟨_, _, _, _, _, _, _, _, moved, move, rfl⟩ := ok
    exact (repin_untouched move).trans ⟨rfl, rfl, rfl⟩
  | setPolicy principal workspaceId channel mode =>
    simp only [run, setPolicy, bind_eq_ok, pure_eq_ok] at ok
    obtain ⟨_, _, rfl⟩ := ok
    exact ⟨rfl, rfl, rfl⟩
  | applyAutomaticUpdates limit cursor locked eventId now =>
    simp only [run, applyAutomaticUpdates, bind_eq_ok] at ok
    obtain ⟨_, _, updates⟩ := ok
    refine foldlM_invariant (Untouched store) ?_ (.refl store) updates
    intro current entry _ later kept update
    exact kept.trans (automaticUpdate_untouched update)

end Instances

/-- The identifiers an operation of the vault draws for its rows. -/
def Operation.draws : Operation → List Uuid
  | .connect _ _ _ _ integrationId credentialId _ => [integrationId, credentialId]
  | .startOAuth _ _ _ _ integrationId _ _ _ => [integrationId]
  | .rotate _ _ _ _ _ credentialId _ | .testIntegration _ _ _ _ _ _ credentialId _ _
  | .refreshForCall _ _ _ _ credentialId _ _ | .completeOAuth _ _ _ _ _ credentialId _ _ =>
    [credentialId]
  | _ => []

/-- Every operation keeps the vault coherent, and its rows what they were made for. -/
theorem run_sealed {deployment : Deployment} {store next : Store} (isSealed : Sealed store)
    (ok : run deployment store operation = .ok next) :
    Sealed next ∧ Keeps operation.draws store next := by
  by_cases spares : operation.sparesVault = true
  · have untouched := run_untouched spares ok
    exact ⟨isSealed.of_untouched untouched, untouched.keeps _⟩
  cases operation with
  | connect cached principal workspaceId body integrationId credentialId now =>
    exact connect_sealed isSealed ok
  | updateIntegration principal workspaceId integrationId body now =>
    exact updateIntegration_sealed isSealed ok
  | rotate cached principal workspaceId integrationId credentials credentialId now =>
    exact rotate_sealed isSealed ok
  | disconnect principal workspaceId integrationId => exact disconnect_sealed isSealed ok
  | testIntegration cached principal workspaceId integrationId exchange probe credentialId clock
      now =>
      simp only [run, bind_eq_ok, pure_eq_ok] at ok
      obtain ⟨⟨report, after⟩, test, rfl⟩ := ok
      exact testIntegration_sealed isSealed test
  | refreshForCall cached workspaceId integrationId exchange credentialId clock now =>
    exact refreshForCall_sealed isSealed ok
  | startOAuth cached principal workspaceId body integrationId stateDigest clock now =>
    exact startOAuth_sealed isSealed ok
  | completeOAuth cached principal workspaceId stateDigest exchange credentialId clock now =>
    exact completeOAuth_sealed isSealed ok
  | setMember | catalog | publishDefinition | install | setBinding | clearBinding
  | updateAgentInstance | uninstall | moveVersion | rollbackVersion | setPolicy
  | applyAutomaticUpdates => exact absurd rfl spares

end Nexora.Tenant
