import Nexora.Std.Fallible
import Nexora.Std.History
import Nexora.Data.Identifier

/-!
# Envelope encryption

`secret_vault.py`: a secret is sealed under a data key of its own, and the data key under a
master key, both with the same associated data. AES-GCM is an ideal cipher: a text is
authentic exactly when it was encrypted before, under the same key, nonce and associated data,
and no two encryptions have the same text. A history seals and reseals under any configurations
of the operator's master keys, each time with a data key that is new.
-/

namespace Nexora.Tenant.Envelope

open Nexora.Std

/-- `KEY_BYTES`. -/
def keyBytes : Nat := 32

/-- `NONCE_BYTES`. -/
def nonceBytes : Nat := 12

/-- `MAX_SECRET_BYTES`. -/
def maxSecretBytes : Nat := 32768

/-- `HINT_VISIBLE`. -/
def hintVisible : Nat := 4

/-- How an operation of the vault fails. -/
inductive VaultFailure where
  | vaultError
  | vaultUnavailable
  | vaultKeyUnknown
  | secretUnreadable
  /-- A `ValueError` of the cipher, for a key or a nonce of a length it does not take. -/
  | valueError
  deriving DecidableEq

/-- A call of AES-GCM's `encrypt`. -/
structure Encryption where
  key : ByteArray
  nonce : ByteArray
  data : ByteArray
  associated : ByteArray
  deriving DecidableEq

/-- AES-GCM by the texts it returns. -/
structure AesGcm (Text : Type) where
  encrypt : Encryption → Text

/-- `SealedSecret`. -/
structure SealedSecret (Text : Type) where
  keyId : String
  wrappedKey : Text
  wrapNonce : ByteArray
  nonce : ByteArray
  ciphertext : Text
  hint : String

/-- `LocalMasterKeyProvider`, with what its constructor checks. -/
structure LocalMasterKeyProvider where
  keys : List (String × ByteArray)
  activeKeyId : String
  activeKey : ByteArray
  active : keys.lookup activeKeyId = some activeKey
  sizes : ∀ keyId material, keys.lookup keyId = some material → material.size = keyBytes

/-- What `os.urandom` returns while a secret is sealed. -/
structure Drawn where
  dataKey : ByteArray
  nonce : ByteArray
  wrapNonce : ByteArray
  dataKey_size : dataKey.size = keyBytes
  nonce_size : nonce.size = nonceBytes
  wrapNonce_size : wrapNonce.size = nonceBytes

/-- `credential_aad`. -/
def credentialAad (workspaceId integrationId : Uuid) (purpose : String) :
    Except VaultFailure ByteArray := do
  raiseIf (purpose = "" ∨ 64 < purpose.length) .vaultError
  pure ("nexora:v1:" ++ workspaceId.text ++ ":" ++ integrationId.text ++ ":" ++ purpose).toByteArray

/-- `mask`. -/
def mask (secret : String) : String :=
  String.ofList (List.replicate 8 '•' ++
    if hintVisible * 3 ≤ secret.length then secret.toList.drop (secret.length - hintVisible) else [])

namespace AesGcm

variable {Text : Type} [DecidableEq Text] (cipher : AesGcm Text) (calls : List Encryption)

/-- `decrypt`, after some calls of `encrypt`; an `InvalidTag` is raised on as the vault does. -/
def decrypt (key nonce : ByteArray) (text : Text) (associated : ByteArray) :
    Except VaultFailure ByteArray := do
  raiseIf (key.size ∉ [16, 24, 32]) .valueError
  raiseIf (¬ (8 ≤ nonce.size ∧ nonce.size ≤ 128)) .valueError
  let call ← orRaise (calls.find? fun call => call.key = key && call.nonce = nonce &&
    call.associated = associated && cipher.encrypt call = text) .secretUnreadable
  pure call.data

/-- `unwrap`. -/
def unwrap (provider : LocalMasterKeyProvider) (keyId : String) (wrapped : Text)
    (nonce associated : ByteArray) : Except VaultFailure ByteArray := do
  let material ← orRaise (provider.keys.lookup keyId) .vaultKeyUnknown
  cipher.decrypt calls material nonce wrapped associated

/-- `open`. -/
def open_ (provider : Option LocalMasterKeyProvider) (stored : SealedSecret Text)
    (associated : ByteArray) : Except VaultFailure String := do
  let provider ← orRaise provider .vaultUnavailable
  let dataKey ← cipher.unwrap calls provider stored.keyId stored.wrappedKey stored.wrapNonce
    associated
  let data ← cipher.decrypt calls dataKey stored.nonce stored.ciphertext associated
  orRaise (String.fromUTF8? data) .secretUnreadable

/-- `seal`, with the calls of `encrypt` after it. -/
def seal_ (provider : Option LocalMasterKeyProvider) (secret : String) (associated : ByteArray)
    (drawn : Drawn) : Except VaultFailure (List Encryption × SealedSecret Text) := do
  let provider ← orRaise provider .vaultUnavailable
  raiseIf (secret = "" ∨ maxSecretBytes < secret.utf8ByteSize) .vaultError
  let sealing : Encryption := ⟨drawn.dataKey, drawn.nonce, secret.toByteArray, associated⟩
  let wrapping : Encryption := ⟨provider.activeKey, drawn.wrapNonce, drawn.dataKey, associated⟩
  pure (wrapping :: sealing :: calls, {
    keyId := provider.activeKeyId, wrappedKey := cipher.encrypt wrapping
    wrapNonce := drawn.wrapNonce, nonce := drawn.nonce, ciphertext := cipher.encrypt sealing
    hint := mask secret })

/-- `reseal`. -/
def reseal (provider : Option LocalMasterKeyProvider) (stored : SealedSecret Text)
    (associated : ByteArray) (drawn : Drawn) :
    Except VaultFailure (List Encryption × SealedSecret Text) := do
  let secret ← cipher.open_ calls provider stored associated
  cipher.seal_ calls provider secret associated drawn

end AesGcm

/-- What a history of the vault does. -/
inductive VaultStep (Text : Type) where
  | seals (provider : LocalMasterKeyProvider) (secret : String) (associated : ByteArray)
      (drawn : Drawn) (result : SealedSecret Text)
  | reseals (provider : LocalMasterKeyProvider) (stored : SealedSecret Text)
      (associated : ByteArray) (drawn : Drawn) (result : SealedSecret Text)

/-- A provider's keys are master keys of the operator's. -/
def LocalMasterKeyProvider.Within (masters : Set ByteArray) (provider : LocalMasterKeyProvider) :
    Prop :=
  ∀ keyId material, provider.keys.lookup keyId = some material → material ∈ masters

/-- A drawn data key is no master key, and nothing was encrypted under it before. -/
def Drawn.Fresh (masters : Set ByteArray) (calls : List Encryption) (drawn : Drawn) : Prop :=
  drawn.dataKey ∉ masters ∧ ∀ call ∈ calls, call.key ≠ drawn.dataKey

variable {material : ByteArray}

section Histories

variable {Text : Type} [DecidableEq Text] {cipher : AesGcm Text} {masters : Set ByteArray}
  {secret : String} {history : List (Transition (List Encryption) (VaultStep Text))}
  {key nonce data : ByteArray} {text : Text} {record : SealedSecret Text}

/-- The histories of the vault: the state is what has been encrypted. -/
def vault (cipher : AesGcm Text) (masters : Set ByteArray) :
    Machine (List Encryption) (VaultStep Text) where
  Initial calls := calls = []
  Step calls label next :=
    match label with
    | .seals provider secret associated drawn result =>
      provider.Within masters ∧ drawn.Fresh masters calls ∧
        cipher.seal_ calls (some provider) secret associated drawn = .ok (next, result)
    | .reseals provider stored associated drawn result =>
      provider.Within masters ∧ drawn.Fresh masters calls ∧
        cipher.reseal calls (some provider) stored associated drawn = .ok (next, result)

/-- Two records agree on everything that is authenticated. -/
structure SealedSecret.Same (left right : SealedSecret Text) : Prop where
  wrappedKey : left.wrappedKey = right.wrappedKey
  wrapNonce : left.wrapNonce = right.wrapNonce
  nonce : left.nonce = right.nonce
  ciphertext : left.ciphertext = right.ciphertext

/-- A history has sealed a secret in a record, under associated data and a master key: by
sealing it, or by resealing what was sealed before. -/
inductive Sealed (history : List (Transition (List Encryption) (VaultStep Text))) :
    SealedSecret Text → ByteArray → String → ByteArray → Prop where
  | sealed {before after provider secret associated drawn result}
      (done : ⟨before, .seals provider secret associated drawn result, after⟩ ∈ history) :
      Sealed history result associated secret provider.activeKey
  | resealed {before after provider stored associated drawn result kept secret material}
      (done : ⟨before, .reseals provider stored associated drawn result, after⟩ ∈ history)
      (earlier : Sealed history kept associated secret material) (same : stored.Same kept) :
      Sealed history result associated secret provider.activeKey

/-- One sealing of a history. -/
structure Sealing (Text : Type) where
  material : ByteArray
  secret : String
  associated : ByteArray
  drawn : Drawn
  record : SealedSecret Text

/-- The data key's encryption. -/
def Sealing.wrapping (sealing : Sealing Text) : Encryption :=
  ⟨sealing.material, sealing.drawn.wrapNonce, sealing.drawn.dataKey, sealing.associated⟩

/-- The secret's encryption. -/
def Sealing.encryption (sealing : Sealing Text) : Encryption :=
  ⟨sealing.drawn.dataKey, sealing.drawn.nonce, sealing.secret.toByteArray, sealing.associated⟩

/-- What was encrypted are the two parts of some sealings, each with a data key of its own. -/
structure Sound (cipher : AesGcm Text) (masters : Set ByteArray) (made : List (Sealing Text))
    (calls : List Encryption) : Prop where
  calls : ∀ call, call ∈ calls ↔ ∃ one ∈ made, call = one.wrapping ∨ call = one.encryption
  records : ∀ one ∈ made, one.record.wrappedKey = cipher.encrypt one.wrapping ∧
    one.record.wrapNonce = one.drawn.wrapNonce ∧ one.record.nonce = one.drawn.nonce ∧
    one.record.ciphertext = cipher.encrypt one.encryption
  masters : ∀ one ∈ made, one.material ∈ masters ∧ one.drawn.dataKey ∉ masters
  admissible : ∀ one ∈ made, one.secret ≠ "" ∧ one.secret.utf8ByteSize ≤ maxSecretBytes
  distinct : ∀ one ∈ made, ∀ other ∈ made, one.drawn.dataKey = other.drawn.dataKey → one = other

/-- Decryption returns what was encrypted. -/
theorem AesGcm.decrypt_eq_ok (ideal : Function.Injective cipher.encrypt) {calls : List Encryption}
    {associated : ByteArray} :
    cipher.decrypt calls key nonce text associated = .ok data ↔
      key.size ∈ [16, 24, 32] ∧ (8 ≤ nonce.size ∧ nonce.size ≤ 128) ∧
        ⟨key, nonce, data, associated⟩ ∈ calls ∧
        text = cipher.encrypt ⟨key, nonce, data, associated⟩ := by
  simp only [AesGcm.decrypt, bind_eq_ok, raiseIf_eq_ok, orRaise_eq_ok, pure_eq_ok, not_not,
    exists_and_left, exists_const]
  refine and_congr_right fun _ => and_congr_right fun _ => ?_
  constructor
  · rintro ⟨call, found, rfl⟩
    have member := List.mem_of_find?_eq_some found
    have authentic := List.find?_some found
    simp only [Bool.and_eq_true, decide_eq_true_eq] at authentic
    obtain ⟨⟨⟨rfl, rfl⟩, rfl⟩, rfl⟩ := authentic
    exact ⟨member, rfl⟩
  · rintro ⟨member, rfl⟩
    cases found : calls.find? fun call => call.key = key && call.nonce = nonce &&
        call.associated = associated &&
        cipher.encrypt call = cipher.encrypt ⟨key, nonce, data, associated⟩ with
    | none => simpa using List.find?_eq_none.mp found _ member
    | some call =>
      have authentic := List.find?_some found
      simp only [Bool.and_eq_true, decide_eq_true_eq] at authentic
      exact ⟨call, rfl, by rw [ideal authentic.2]⟩

/-- A text is the encoding of what it decodes to. -/
theorem fromUTF8?_eq_some {text : String} :
    String.fromUTF8? data = some text ↔ data = text.toByteArray := by
  unfold String.fromUTF8?
  constructor
  · intro decoded
    split at decoded
    · cases decoded
      rfl
    · cases decoded
  · rintro rfl
    rw [dif_pos text.isValidUTF8]
    rfl

/-- Opening a record whose master key is configured. -/
theorem AesGcm.open_known {calls : List Encryption} {provider : LocalMasterKeyProvider}
    {stored : SealedSecret Text} {associated : ByteArray}
    (known : provider.keys.lookup stored.keyId = some material) :
    cipher.open_ calls (some provider) stored associated = (do
      let dataKey ← cipher.decrypt calls material stored.wrapNonce stored.wrappedKey associated
      let data ← cipher.decrypt calls dataKey stored.nonce stored.ciphertext associated
      orRaise (String.fromUTF8? data) .secretUnreadable) := by
  simp only [AesGcm.open_, AesGcm.unwrap, known, orRaise, bind, Except.bind]

namespace Sound

variable {made : List (Sealing Text)} {calls : List Encryption}
  {provider : LocalMasterKeyProvider} {stored : SealedSecret Text} {associated : ByteArray}

/-- A record opens exactly when it is one that was sealed, under the same associated data and
master key. -/
theorem open_eq_ok (ideal : Function.Injective cipher.encrypt)
    (sound : Sound cipher masters made calls) (within : provider.Within masters) :
    cipher.open_ calls (some provider) stored associated = .ok secret ↔
      ∃ one ∈ made, stored.Same one.record ∧ associated = one.associated ∧ secret = one.secret ∧
        provider.keys.lookup stored.keyId = some one.material := by
  constructor
  · intro opened
    cases known : provider.keys.lookup stored.keyId with
    | none => simp [AesGcm.open_, AesGcm.unwrap, known, orRaise, bind, Except.bind] at opened
    | some material =>
      simp only [AesGcm.open_known known, bind_eq_ok, AesGcm.decrypt_eq_ok ideal, orRaise_eq_ok,
        fromUTF8?_eq_some] at opened
      obtain ⟨dataKey, ⟨-, -, wrapped, isWrapped⟩, _, ⟨-, -, encrypted, isEncrypted⟩, rfl⟩ := opened
      obtain ⟨one, member, call | call⟩ := (sound.calls _).mp wrapped
      · obtain ⟨rfl, sameNonce, rfl, rfl⟩ := Encryption.mk.inj call
        obtain ⟨other, otherMember, again | again⟩ := (sound.calls _).mp encrypted
        · have isMaster := (Encryption.mk.inj again).1
          exact absurd (isMaster ▸ (sound.masters other otherMember).1)
            (sound.masters one member).2
        · obtain ⟨sameKey, dataNonce, sameData, -⟩ := Encryption.mk.inj again
          obtain rfl := sound.distinct one member other otherMember sameKey
          obtain ⟨isKey, isNonce, isDataNonce, isText⟩ := sound.records one member
          exact ⟨one, member, ⟨by rw [isWrapped, isKey, call], sameNonce.trans isNonce.symm,
            dataNonce.trans isDataNonce.symm, by rw [isEncrypted, isText, again]⟩, rfl,
            String.toByteArray_inj.mp sameData, rfl⟩
      · have isData := (Encryption.mk.inj call).1
        exact absurd (isData ▸ within _ _ known) (sound.masters one member).2
  · rintro ⟨one, member, same, rfl, rfl, known⟩
    obtain ⟨isKey, isNonce, isDataNonce, isText⟩ := sound.records one member
    have size : one.material.size = 32 := provider.sizes _ _ known
    have dataSize : one.drawn.dataKey.size = 32 := one.drawn.dataKey_size
    have nonceSize : one.drawn.nonce.size = 12 := one.drawn.nonce_size
    have wrapSize : one.drawn.wrapNonce.size = 12 := one.drawn.wrapNonce_size
    simp only [AesGcm.open_known known, bind_eq_ok, AesGcm.decrypt_eq_ok ideal, orRaise_eq_ok,
      fromUTF8?_eq_some, same.wrappedKey, same.wrapNonce, same.nonce, same.ciphertext, isKey,
      isNonce, isDataNonce, isText]
    exact ⟨one.drawn.dataKey, ⟨by simp [size], by omega,
      (sound.calls _).mpr ⟨one, member, .inl rfl⟩, rfl⟩, one.secret.toByteArray,
      ⟨by simp [dataSize], by omega, (sound.calls _).mpr ⟨one, member, .inr rfl⟩, rfl⟩, rfl⟩

omit [DecidableEq Text] in
/-- Texts that were sealed are told apart: a record that shares one of them with a sealing and
is one that was sealed is the record of that sealing. -/
theorem shared (ideal : Function.Injective cipher.encrypt)
    (sound : Sound cipher masters made calls) {one other : Sealing Text} (member : one ∈ made)
    (otherMember : other ∈ made)
    (text : one.record.wrappedKey = other.record.wrappedKey ∨
      one.record.ciphertext = other.record.ciphertext) : one = other := by
  obtain ⟨isKey, -, -, isText⟩ := sound.records one member
  obtain ⟨otherKey, -, -, otherText⟩ := sound.records other otherMember
  apply sound.distinct one member other otherMember
  rcases text with same | same
  · rw [isKey, otherKey] at same
    exact (Encryption.mk.inj (ideal same)).2.2.1
  · rw [isText, otherText] at same
    exact (Encryption.mk.inj (ideal same)).1

omit [DecidableEq Text] in
/-- Sealing under a new data key adds a sealing. -/
theorem step (sound : Sound cipher masters made calls) (within : provider.Within masters)
    {drawn : Drawn} (fresh : drawn.Fresh masters calls) {next : List Encryption}
    {result : SealedSecret Text}
    (done : cipher.seal_ calls (some provider) secret associated drawn = .ok (next, result)) :
    Sound cipher masters (⟨provider.activeKey, secret, associated, drawn, result⟩ :: made) next := by
  simp only [AesGcm.seal_, orRaise, bind_eq_ok, raiseIf_eq_ok, pure_eq_ok, Except.ok.injEq,
    exists_eq_left', exists_and_left, exists_const, Prod.mk.injEq] at done
  obtain ⟨admissible, rfl, rfl⟩ := done
  have unused : ∀ one ∈ made, one.drawn.dataKey ≠ drawn.dataKey := fun one member =>
    fresh.2 one.encryption ((sound.calls _).mpr ⟨one, member, .inr rfl⟩)
  constructor
  · intro call
    simp only [List.mem_cons, sound.calls, exists_eq_or_imp, Sealing.wrapping, Sealing.encryption,
      or_assoc]
  · intro one member
    rcases List.mem_cons.mp member with rfl | earlier
    · exact ⟨rfl, rfl, rfl, rfl⟩
    · exact sound.records one earlier
  · intro one member
    rcases List.mem_cons.mp member with rfl | earlier
    · exact ⟨within _ _ provider.active, fresh.1⟩
    · exact sound.masters one earlier
  · intro one member
    rcases List.mem_cons.mp member with rfl | earlier
    · exact ⟨fun empty => admissible (.inl empty), not_lt.mp fun large => admissible (.inr large)⟩
    · exact sound.admissible one earlier
  · intro one member other otherMember same
    rcases List.mem_cons.mp member with rfl | earlier <;>
      rcases List.mem_cons.mp otherMember with rfl | otherEarlier
    · rfl
    · exact absurd same.symm (unused other otherEarlier)
    · exact absurd same (unused one earlier)
    · exact sound.distinct one earlier other otherEarlier same

end Sound

/-- The sealings of a history are what it sealed and resealed. -/
structure Accounts (cipher : AesGcm Text) (masters : Set ByteArray)
    (history : List (Transition (List Encryption) (VaultStep Text))) (calls : List Encryption)
    (made : List (Sealing Text)) : Prop where
  sound : Sound cipher masters made calls
  sealings : ∀ one ∈ made, Sealed history one.record one.associated one.secret one.material
  seals : ∀ before after provider secret associated drawn result,
    ⟨before, .seals provider secret associated drawn result, after⟩ ∈ history →
    ⟨provider.activeKey, secret, associated, drawn, result⟩ ∈ made
  reseals : ∀ before after provider stored associated drawn result,
    ⟨before, .reseals provider stored associated drawn result, after⟩ ∈ history →
    ∃ one ∈ made, stored.Same one.record ∧ associated = one.associated ∧
      ⟨provider.activeKey, one.secret, associated, drawn, result⟩ ∈ made

omit [DecidableEq Text] in
theorem Sealed.mono {later : List (Transition (List Encryption) (VaultStep Text))}
    (extends_ : history ⊆ later) {associated : ByteArray}
    (sealed_ : Sealed history record associated secret material) :
    Sealed later record associated secret material := by
  induction sealed_ with
  | sealed done => exact .sealed (extends_ done)
  | resealed done _ same ih => exact .resealed (extends_ done) ih same

/-- Every history accounts for its sealings. -/
theorem exists_accounts (ideal : Function.Injective cipher.encrypt) {calls : List Encryption}
    (runs : (vault cipher masters).Runs history calls) :
    ∃ made, Accounts cipher masters history calls made := by
  refine runs.invariantWithHistory (fun history calls => ∃ made,
    Accounts cipher masters history calls made) ?_ ?_
  · rintro calls rfl
    exact ⟨[], ⟨by simp, by simp, by simp, by simp, by simp⟩, by simp, by simp, by simp⟩
  rintro history calls label next ⟨made, sound, sealings, seals, reseals⟩ step
  have kept : history ⊆ history ++ [⟨calls, label, next⟩] := List.subset_append_left _ _
  have last : (⟨calls, label, next⟩ : Transition _ _) ∈ history ++ [⟨calls, label, next⟩] := by
    simp
  cases label with
  | seals provider secret associated drawn result =>
    obtain ⟨within, fresh, done⟩ := step
    refine ⟨_, sound.step within fresh done, ?_, ?_, ?_⟩
    · intro one member
      rcases List.mem_cons.mp member with rfl | earlier
      · exact .sealed last
      · exact (sealings one earlier).mono kept
    · intro _ _ _ _ _ _ _ member
      rcases List.mem_append.mp member with earlier | now
      · exact List.mem_cons_of_mem _ (seals _ _ _ _ _ _ _ earlier)
      · cases List.mem_singleton.mp now
        exact List.mem_cons_self
    · intro _ _ _ _ _ _ _ member
      rcases List.mem_append.mp member with earlier | now
      · obtain ⟨one, member, same, isAssociated, again⟩ := reseals _ _ _ _ _ _ _ earlier
        exact ⟨one, List.mem_cons_of_mem _ member, same, isAssociated,
          List.mem_cons_of_mem _ again⟩
      · cases List.mem_singleton.mp now
  | reseals provider stored associated drawn result =>
    obtain ⟨within, fresh, done⟩ := step
    obtain ⟨secret, opened, done⟩ := (bind_eq_ok _ _ _).mp done
    obtain ⟨one, member, same, rfl, rfl, -⟩ := (sound.open_eq_ok ideal within).mp opened
    refine ⟨_, sound.step within fresh done, ?_, ?_, ?_⟩
    · intro other otherMember
      rcases List.mem_cons.mp otherMember with rfl | earlier
      · exact .resealed last ((sealings one member).mono kept) same
      · exact (sealings other earlier).mono kept
    · intro _ _ _ _ _ _ _ member
      rcases List.mem_append.mp member with earlier | now
      · exact List.mem_cons_of_mem _ (seals _ _ _ _ _ _ _ earlier)
      · cases List.mem_singleton.mp now
    · intro _ _ _ _ _ _ _ again
      rcases List.mem_append.mp again with earlier | now
      · obtain ⟨one, member, same, isAssociated, again⟩ := reseals _ _ _ _ _ _ _ earlier
        exact ⟨one, List.mem_cons_of_mem _ member, same, isAssociated,
          List.mem_cons_of_mem _ again⟩
      · cases List.mem_singleton.mp now
        exact ⟨one, List.mem_cons_of_mem _ member, same, rfl, List.mem_cons_self⟩

omit [DecidableEq Text] in
/-- What a history sealed is one of its sealings. -/
theorem Accounts.of_sealed (ideal : Function.Injective cipher.encrypt) {calls : List Encryption}
    {made : List (Sealing Text)} (accounts : Accounts cipher masters history calls made)
    {associated : ByteArray} (sealed_ : Sealed history record associated secret material) :
    ∃ one ∈ made, one.record = record ∧ one.associated = associated ∧ one.secret = secret ∧
      one.material = material := by
  induction sealed_ with
  | sealed done => exact ⟨_, accounts.seals _ _ _ _ _ _ _ done, rfl, rfl, rfl, rfl⟩
  | resealed done _ same ih =>
    obtain ⟨one, member, rfl, rfl, rfl, rfl⟩ := ih
    obtain ⟨other, otherMember, otherSame, -, again⟩ := accounts.reseals _ _ _ _ _ _ _ done
    obtain rfl := accounts.sound.shared ideal member otherMember
      (.inl (same.wrappedKey.symm.trans otherSame.wrappedKey))
    exact ⟨_, again, rfl, rfl, rfl, rfl⟩

/-- Decryption that fails under a key and a nonce the cipher takes finds nothing authentic. -/
theorem AesGcm.decrypt_error {calls : List Encryption} {associated : ByteArray}
    {raised : VaultFailure} (keySize : key.size = keyBytes)
    (nonceSize : 8 ≤ nonce.size ∧ nonce.size ≤ 128)
    (failed : cipher.decrypt calls key nonce text associated = .error raised) :
    raised = .secretUnreadable := by
  unfold AesGcm.decrypt at failed
  rw [bind_eq_error, raiseIf_eq_error] at failed
  rcases failed with ⟨badKey, -⟩ | ⟨_, -, failed⟩
  · simp [keySize, keyBytes] at badKey
  rw [bind_eq_error, raiseIf_eq_error] at failed
  rcases failed with ⟨badNonce, -⟩ | ⟨_, -, failed⟩
  · exact absurd nonceSize badNonce
  rw [bind_eq_error] at failed
  rcases failed with failed | ⟨_, -, impossible⟩
  · unfold orRaise at failed
    split at failed
    · cases failed
    · exact (Except.error.inj failed).symm
  · cases impossible

/-- A record that does not open is unreadable, if its master key is configured and its nonces
are ones the cipher takes. -/
theorem Sound.unreadable (ideal : Function.Injective cipher.encrypt) {made : List (Sealing Text)}
    {calls : List Encryption} (sound : Sound cipher masters made calls)
    {provider : LocalMasterKeyProvider} (within : provider.Within masters)
    {stored : SealedSecret Text} {associated : ByteArray}
    (known : provider.keys.lookup stored.keyId = some material)
    (wrapNonce : 8 ≤ stored.wrapNonce.size ∧ stored.wrapNonce.size ≤ 128)
    (nonce : 8 ≤ stored.nonce.size ∧ stored.nonce.size ≤ 128)
    (refused : ∀ secret, cipher.open_ calls (some provider) stored associated ≠ .ok secret) :
    cipher.open_ calls (some provider) stored associated = .error .secretUnreadable := by
  cases result : cipher.open_ calls (some provider) stored associated with
  | ok secret => exact absurd result (refused secret)
  | error raised =>
    rw [AesGcm.open_known known, bind_eq_error] at result
    rcases result with failed | ⟨dataKey, unwrapped, result⟩
    · rw [AesGcm.decrypt_error (provider.sizes _ _ known) wrapNonce failed]
    have dataSize : dataKey.size = keyBytes := by
      obtain ⟨-, -, wrapped, -⟩ := (AesGcm.decrypt_eq_ok ideal).mp unwrapped
      obtain ⟨one, member, call | call⟩ := (sound.calls _).mp wrapped
      · rw [(Encryption.mk.inj call).2.2.1]
        exact one.drawn.dataKey_size
      · have isData := (Encryption.mk.inj call).1
        exact absurd (isData ▸ within _ _ known) (sound.masters one member).2
    rcases (bind_eq_error _ _ _).mp result with failed | ⟨data, -, undecodable⟩
    · rw [AesGcm.decrypt_error dataSize nonce failed]
    · unfold orRaise at undecodable
      split at undecodable
      · cases undecodable
      · exact undecodable.symm

omit [DecidableEq Text] in
/-- A secret of an admissible size is sealed. -/
theorem AesGcm.exists_seal (cipher : AesGcm Text) (calls : List Encryption)
    (provider : LocalMasterKeyProvider) (some_ : secret ≠ "")
    (small : secret.utf8ByteSize ≤ maxSecretBytes) (associated : ByteArray) (drawn : Drawn) :
    ∃ next, cipher.seal_ calls (some provider) secret associated drawn = .ok next := by
  have passes : ¬ (secret = "" ∨ maxSecretBytes < secret.utf8ByteSize) :=
    not_or.mpr ⟨some_, not_lt.mpr small⟩
  simp only [AesGcm.seal_, orRaise, raiseIf, if_neg passes]
  exact ⟨_, rfl⟩

/-- The associated data tell workspaces, integrations and purposes apart. -/
theorem credentialAad_injective {workspaceId integrationId otherWorkspace otherIntegration : Uuid}
    {purpose otherPurpose : String} {associated : ByteArray} (workspace : workspaceId < 2 ^ 128)
    (integration : integrationId < 2 ^ 128) (otherWorkspaceBounded : otherWorkspace < 2 ^ 128)
    (otherIntegrationBounded : otherIntegration < 2 ^ 128)
    (one : credentialAad workspaceId integrationId purpose = .ok associated)
    (other : credentialAad otherWorkspace otherIntegration otherPurpose = .ok associated) :
    workspaceId = otherWorkspace ∧ integrationId = otherIntegration ∧ purpose = otherPurpose := by
  simp only [credentialAad, bind_eq_ok, raiseIf_eq_ok, pure_eq_ok, exists_and_left,
    exists_const] at one other
  obtain ⟨-, rfl⟩ := one
  obtain ⟨-, same⟩ := other
  have texts := congrArg String.toList (String.toByteArray_inj.mp same)
  simp only [String.toList_append, List.append_assoc, List.append_cancel_left_eq] at texts
  obtain ⟨workspaces, texts⟩ := List.append_inj texts
    (by rw [Uuid.length_text workspace, Uuid.length_text otherWorkspaceBounded])
  obtain ⟨integrations, purposes⟩ := List.append_inj (List.append_cancel_left texts)
    (by rw [Uuid.length_text integration, Uuid.length_text otherIntegrationBounded])
  exact ⟨(Uuid.text_injective otherWorkspaceBounded workspace (String.toList_inj.mp workspaces)).symm,
    (Uuid.text_injective otherIntegrationBounded integration
      (String.toList_inj.mp integrations)).symm,
    (String.toList_inj.mp (List.append_cancel_left purposes)).symm⟩

/-- After any history of sealing and resealing, a record opens exactly when everything of it
but its hint and its key's name was sealed together, under the associated data it is opened with
and a master key that is configured under that name: whatever the history sealed can be sealed
again, and what it did not seal is unreadable. -/
theorem vault_opens_sealed (ideal : Function.Injective cipher.encrypt)
    {history : List (Transition (List Encryption) (VaultStep Text))} {calls : List Encryption}
    (runs : (vault cipher masters).Runs history calls) {provider : LocalMasterKeyProvider}
    (within : provider.Within masters) :
    (∀ secret associated drawn, secret ≠ "" → secret.utf8ByteSize ≤ maxSecretBytes →
      ∃ next, cipher.seal_ calls (some provider) secret associated drawn = .ok next) ∧
    (∀ stored associated secret,
      cipher.open_ calls (some provider) stored associated = .ok secret ↔
        ∃ kept material, Sealed history kept associated secret material ∧ stored.Same kept ∧
          provider.keys.lookup stored.keyId = some material) ∧
    (∀ stored associated secret drawn,
      cipher.open_ calls (some provider) stored associated = .ok secret →
        ∃ next, cipher.reseal calls (some provider) stored associated drawn = .ok next) ∧
    (∀ stored associated, provider.keys.lookup stored.keyId = none →
      cipher.open_ calls (some provider) stored associated = .error .vaultKeyUnknown) ∧
    (∀ kept sealedUnder secret material, Sealed history kept sealedUnder secret material →
      ∀ stored associated configured, provider.keys.lookup stored.keyId = some configured →
        (8 ≤ stored.wrapNonce.size ∧ stored.wrapNonce.size ≤ 128) →
        (8 ≤ stored.nonce.size ∧ stored.nonce.size ≤ 128) →
        (stored.wrappedKey = kept.wrappedKey ∨ stored.ciphertext = kept.ciphertext) →
        (associated ≠ sealedUnder ∨ configured ≠ material ∨ ¬ stored.Same kept) →
        cipher.open_ calls (some provider) stored associated = .error .secretUnreadable) ∧
    ∀ workspaceId integrationId otherWorkspace otherIntegration purpose otherPurpose associated,
      workspaceId < 2 ^ 128 → integrationId < 2 ^ 128 → otherWorkspace < 2 ^ 128 →
      otherIntegration < 2 ^ 128 → credentialAad workspaceId integrationId purpose = .ok associated →
      credentialAad otherWorkspace otherIntegration otherPurpose = .ok associated →
      workspaceId = otherWorkspace ∧ integrationId = otherIntegration ∧ purpose = otherPurpose := by
  obtain ⟨made, accounts⟩ := exists_accounts ideal runs
  have sound := accounts.sound
  refine ⟨fun _ associated drawn some_ small => cipher.exists_seal calls provider some_ small
    associated drawn, ?_, ?_, ?_, ?_, ?_⟩
  · intro stored associated secret
    rw [sound.open_eq_ok ideal within]
    constructor
    · rintro ⟨one, member, same, rfl, rfl, known⟩
      exact ⟨_, _, accounts.sealings one member, same, known⟩
    · rintro ⟨_, _, sealed_, same, known⟩
      obtain ⟨one, member, rfl, rfl, rfl, rfl⟩ := accounts.of_sealed ideal sealed_
      exact ⟨one, member, same, rfl, rfl, known⟩
  · intro stored associated secret drawn opened
    obtain ⟨one, member, -, -, rfl, -⟩ := (sound.open_eq_ok ideal within).mp opened
    obtain ⟨some_, small⟩ := sound.admissible one member
    rw [AesGcm.reseal, opened]
    exact cipher.exists_seal calls provider some_ small associated drawn
  · intro stored associated unknown
    simp only [AesGcm.open_, AesGcm.unwrap, unknown, orRaise, bind, Except.bind]
  · intro kept sealedUnder secret material sealed_ stored associated configured known wrapNonce nonce
      text changed
    refine sound.unreadable ideal within known wrapNonce nonce fun opened accepted => ?_
    obtain ⟨one, member, rfl, rfl, rfl, rfl⟩ := accounts.of_sealed ideal sealed_
    obtain ⟨other, otherMember, same, rfl, -, again⟩ :=
      (sound.open_eq_ok ideal within).mp accepted
    obtain rfl := sound.shared ideal otherMember member
      (text.imp same.wrappedKey.symm.trans same.ciphertext.symm.trans)
    rw [known, Option.some.injEq] at again
    rcases changed with changed | changed | changed
    · exact changed rfl
    · exact changed again
    · exact changed same
  · intro _ _ _ _ _ _ _ workspace integration otherWorkspace otherIntegration one other
    exact credentialAad_injective workspace integration otherWorkspace otherIntegration one other

end Histories

/-- A key, or a nonce, of one byte again and again. -/
def repeated (byte : UInt8) (count : Nat) : ByteArray := ⟨Array.replicate count byte⟩

theorem lookup_primary {keyId : String}
    (found : [("primary", repeated 0 32)].lookup keyId = some material) :
    material = repeated 0 32 := by
  obtain ⟨before, after, same, -⟩ := List.lookup_eq_some_iff.mp found
  have member : (keyId, material) ∈ [("primary", repeated 0 32)] := by simp [same]
  exact (Prod.mk.inj (List.mem_singleton.mp member)).2

/-- A provider of one master key. -/
def exampleProvider : LocalMasterKeyProvider where
  keys := [("primary", repeated 0 32)]
  activeKeyId := "primary"
  activeKey := repeated 0 32
  active := rfl
  sizes _ _ found := by
    rw [lookup_primary found]
    rfl

/-- A data key that is not the master key. -/
def exampleDrawn : Drawn := ⟨repeated 1 32, repeated 2 12, repeated 3 12, rfl, rfl, rfl⟩

/-- The cipher whose texts are its calls. -/
def exampleCipher : AesGcm Encryption := ⟨id⟩

/-- A history that seals one secret. -/
theorem exists_exampleRun : ∃ history calls kept,
    exampleProvider.keys.lookup kept.keyId = some (repeated 0 32) ∧
    (vault exampleCipher {repeated 0 32}).Runs history calls ∧
    Sealed history kept (repeated 4 1) "secret" (repeated 0 32) := by
  have some_ : "secret" ≠ "" := by decide
  obtain ⟨⟨calls, kept⟩, done⟩ := exampleCipher.exists_seal [] exampleProvider some_ (by decide)
    (repeated 4 1) exampleDrawn
  have step : (vault exampleCipher {repeated 0 32}).Step []
      (.seals exampleProvider "secret" (repeated 4 1) exampleDrawn kept) calls :=
    ⟨fun _ _ found => lookup_primary found, ⟨by simp [exampleDrawn, repeated], by simp⟩, done⟩
  have known : exampleProvider.keys.lookup kept.keyId = some (repeated 0 32) := by
    cases done
    rfl
  exact ⟨_, calls, kept, known, .step (.initial rfl) step, .sealed (List.mem_singleton_self _)⟩

/-- `vault_opens_sealed` applies to a history that seals one secret. -/
theorem vault_opens_sealed_once : ∃ calls kept,
    exampleCipher.open_ calls (some exampleProvider) kept (repeated 4 1) = .ok "secret" := by
  obtain ⟨history, calls, kept, known, runs, sealed_⟩ := exists_exampleRun
  have within : exampleProvider.Within {repeated 0 32} := fun _ _ found => lookup_primary found
  exact ⟨calls, kept, ((vault_opens_sealed Function.injective_id runs within).2.1 kept _ _).mpr
    ⟨kept, _, sealed_, ⟨rfl, rfl, rfl, rfl⟩, known⟩⟩

/-- A record opens with another hint: the hint is not authenticated. -/
theorem hint_unauthenticated : ¬ ∀ history calls kept associated secret material,
    (vault exampleCipher {repeated 0 32}).Runs history calls →
    Sealed history kept associated secret material →
    ∀ stored, stored ≠ kept →
      exampleCipher.open_ calls (some exampleProvider) stored associated =
        .error .secretUnreadable := by
  intro refuses
  obtain ⟨history, calls, kept, known, runs, sealed_⟩ := exists_exampleRun
  have within : exampleProvider.Within {repeated 0 32} := fun _ _ found => lookup_primary found
  obtain ⟨made, accounts⟩ := exists_accounts Function.injective_id runs
  obtain ⟨one, member, rfl, isAssociated, isSecret, isMaterial⟩ :=
    accounts.of_sealed Function.injective_id sealed_
  have opened : exampleCipher.open_ calls (some exampleProvider)
      { one.record with hint := one.record.hint ++ "!" } (repeated 4 1) = .ok "secret" :=
    (accounts.sound.open_eq_ok Function.injective_id within).mpr
      ⟨one, member, ⟨rfl, rfl, rfl, rfl⟩, isAssociated.symm, isSecret.symm, isMaterial ▸ known⟩
  have changed : { one.record with hint := one.record.hint ++ "!" } ≠ one.record := by
    intro same
    have lengths := congrArg (fun record => record.hint.length) same
    simp at lengths
  rw [refuses _ _ _ _ _ _ runs sealed_ _ changed] at opened
  cases opened

end Nexora.Tenant.Envelope
