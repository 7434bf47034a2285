import MssqlTds.Datatypes.Metadata
import MssqlTds.Lib.AsciiCase
import Mathlib.Data.List.Induction

/-!
# Column master key stores

A column encryption key (CEK) reaches the driver wrapped by column master keys.  `decryptCek` walks
the wrapped values of one table entry: a value whose master key path is not on the server's list of
trusted paths is passed over, a value in the cache is taken from there, and otherwise the provider
registered under the value's store name is asked to unwrap it.

Providers are the caller's code.  Nothing is assumed of them: an answer may depend on everything
that was asked before (`Providers`), so the same question can be answered differently twice.  Every
exchange with a provider is recorded.  The cache outlives a call and is filled under other
registries and other lists of trusted paths, hence the guarantee is one over a whole sequence of
calls:

* `decryptCekLoop_spec` : what one call asks, returns and stores.
* `CekCache.Sound` : the invariant.  What the cache holds was returned by a provider, in some
  earlier call, for exactly the master key path and the wrapped bytes it is filed under.
* `trusted_paths_hold` : the guarantee for every call of every sequence.
-/

namespace MssqlTds.Security

open Lib

/-- A plaintext column encryption key. -/
abbrev Key := List UInt8

/-! ### The registry of providers -/

/-- Providers by upper-case name. -/
structure ColumnEncryptionKeyStoreProviderRegistry (Provider : Type) where
  providers : List (String × Provider)

namespace ColumnEncryptionKeyStoreProviderRegistry

variable {Provider : Type}

def new : ColumnEncryptionKeyStoreProviderRegistry Provider := ⟨[]⟩

/-- Registers a provider, replacing one of the same name up to case. -/
def register (registry : ColumnEncryptionKeyStoreProviderRegistry Provider)
    (registration : String × Provider) : ColumnEncryptionKeyStoreProviderRegistry Provider :=
  ⟨(registration.1.toUpper, registration.2) :: registry.providers⟩

def get (registry : ColumnEncryptionKeyStoreProviderRegistry Provider) (name : String) :
    Option Provider :=
  registry.providers.lookup name.toUpper

/-- The registry a caller has set up by registering providers in this order. -/
def registerAll (registrations : List (String × Provider)) :
    ColumnEncryptionKeyStoreProviderRegistry Provider :=
  registrations.foldl register new

/-- The last of the registrations under a name, up to case, is this provider's. -/
def Registered (registrations : List (String × Provider)) (name : String) (provider : Provider) :
    Prop :=
  ∃ before registered after, registrations = before ++ (registered, provider) :: after ∧
    eqIgnoreAsciiCase registered name = true ∧
    ∀ later ∈ after, eqIgnoreAsciiCase later.1 name = false

theorem get_register (registry : ColumnEncryptionKeyStoreProviderRegistry Provider)
    (registration : String × Provider) (name : String) :
    (registry.register registration).get name =
      if eqIgnoreAsciiCase registration.1 name = true then some registration.2
      else registry.get name := by
  rw [register, get, List.lookup_cons]
  by_cases h : registration.1.toUpper = name.toUpper
  · rw [if_pos (eqIgnoreAsciiCase_iff.mpr h), h, beq_self_eq_true]
  · rw [if_neg (mt eqIgnoreAsciiCase_iff.mp h), beq_false_of_ne (Ne.symm h)]
    rfl

theorem registered_concat (registrations : List (String × Provider)) (last : String × Provider)
    (name : String) (provider : Provider) :
    Registered (registrations ++ [last]) name provider ↔
      if eqIgnoreAsciiCase last.1 name = true then last.2 = provider
      else Registered registrations name provider := by
  constructor
  · rintro ⟨before, registered, after, heq, hname, hafter⟩
    -- the one that counts is the last registration, or the last is under another name
    rcases List.eq_nil_or_concat' after with rfl | ⟨init, later, rfl⟩
    · obtain ⟨-, hlast⟩ := List.append_inj' heq rfl
      rw [List.singleton_inj.mp hlast, if_pos hname]
    · rw [← List.cons_append, ← List.append_assoc] at heq
      obtain ⟨hinit, hlast⟩ := List.append_inj' heq rfl
      have hlater := hafter later (by simp)
      rw [List.singleton_inj.mp hlast, hlater, if_neg Bool.false_ne_true]
      exact ⟨before, registered, init, hinit, hname,
        fun later hlater => hafter later (List.mem_append_left _ hlater)⟩
  · intro h
    split_ifs at h with hname
    · exact ⟨registrations, last.1, [], by rw [← h], hname, by simp⟩
    · obtain ⟨before, registered, after, rfl, hname', hafter⟩ := h
      refine ⟨before, registered, after ++ [last], by simp, hname', ?_⟩
      refine List.forall_mem_append.mpr ⟨hafter, ?_⟩
      simpa using hname

/-- **Lookup finds the last registration under the name.** -/
theorem get_registerAll {registrations : List (String × Provider)} {name : String}
    {provider : Provider} :
    (registerAll registrations).get name = some provider ↔
      Registered registrations name provider := by
  induction registrations using List.reverseRecOn with
  | nil => simp [registerAll, new, get, Registered]
  | append_singleton registrations last ih =>
    rw [registered_concat, registerAll, List.foldl_concat, ← registerAll, get_register]
    split_ifs
    · rw [Option.some_inj]
    · exact ih

end ColumnEncryptionKeyStoreProviderRegistry

/-! ### The cache -/

/-- What a plaintext key is filed under. -/
structure CekCacheKey where
  providerName : String
  masterKeyPath : String
  encryptedCek : List UInt8
  deriving DecidableEq

/-- The name the plaintext of a wrapped value is filed under: the store's name loses its case, the
path and the wrapped bytes are kept as they are. -/
def cekCacheKey (value : EncryptedCekValue) : CekCacheKey where
  providerName := value.keyStoreName.toUpper
  masterKeyPath := value.keyPath
  encryptedCek := value.encryptedKey

/-- Decrypted column encryption keys. -/
structure CekCache where
  entries : List (CekCacheKey × Key)

namespace CekCache

def new : CekCache := ⟨[]⟩

def get (cache : CekCache) (key : CekCacheKey) : Option Key := cache.entries.lookup key

def insert (cache : CekCache) (key : CekCacheKey) (value : Key) : CekCache :=
  ⟨(key, value) :: cache.entries⟩

@[simp]
theorem get_new (key : CekCacheKey) : new.get key = none := rfl

theorem get_insert (cache : CekCache) (key key' : CekCacheKey) (value : Key) :
    (cache.insert key value).get key' = if key' = key then some value else cache.get key' := by
  rw [insert, get, List.lookup_cons]
  by_cases h : key' = key
  · rw [if_pos h, h, beq_self_eq_true]
  · rw [if_neg h, beq_false_of_ne h]
    rfl

end CekCache

/-! ### Unwrapping a key -/

/-- One question to a provider and its answer.  The provider sees the value's path, algorithm and
wrapped bytes. -/
structure Exchange (Provider : Type) where
  provider : Provider
  value : EncryptedCekValue
  outcome : TdsResult Key

/-- How the providers behave: what was asked and answered before, the provider asked, and its
arguments `master_key_path`, `encryption_algorithm` and `encrypted_cek`. -/
abbrev Providers (Provider : Type) :=
  List (Exchange Provider) → Provider → String → String → List UInt8 → TdsResult Key

/-- What outlives a call: the cache, and every exchange so far. -/
structure KeyState (Provider : Type) where
  cache : CekCache
  exchanges : List (Exchange Provider)

/-- The list allows the use of a master key path.  An empty list allows every path. -/
def Allowed (trustedKeyPaths : List String) (keyPath : String) : Prop :=
  trustedKeyPaths = [] ∨ ∃ trusted ∈ trustedKeyPaths, eqIgnoreAsciiCase trusted keyPath = true

/-- The test of the loop refuses the paths that are not allowed. -/
theorem refused_iff {trustedKeyPaths : List String} {keyPath : String} :
    (!trustedKeyPaths.isEmpty && !trustedKeyPaths.any (eqIgnoreAsciiCase · keyPath)) = true ↔
      ¬ Allowed trustedKeyPaths keyPath := by
  simp [Allowed]

def untrustedPath (keyPath : String) : Error := .columnEncryptionError
  (s!"The column master key path '{keyPath}' is not in the trusted master key paths list " ++
    "configured for this server; refusing to use it to unwrap a column encryption key.")

def noProvider (keyStoreName : String) : Error := .columnEncryptionError
  s!"No column master key store provider is registered with name '{keyStoreName}'"

section

variable {Provider : Type} (providers : Providers Provider)
  (registry : ColumnEncryptionKeyStoreProviderRegistry Provider) (trustedKeyPaths : List String)

/-- Asks a provider to unwrap a value. -/
def decryptColumnEncryptionKey (provider : Provider) (value : EncryptedCekValue) :
    StateM (KeyState Provider) (TdsResult Key) := do
  let state ← get
  let outcome := providers state.exchanges provider value.keyPath value.algorithmName
    value.encryptedKey
  let exchange : Exchange Provider := ⟨provider, value, outcome⟩
  set { state with exchanges := state.exchanges ++ [exchange] }
  pure outcome

/-- The loop over the wrapped values of an entry, with the most recent failure. -/
def decryptCekLoop : Option Error → List EncryptedCekValue →
    StateM (KeyState Provider) (TdsResult Key)
  | lastError, [] => pure (.error (lastError.getD (.columnEncryptionError
      "Unable to decrypt column encryption key with any registered provider")))
  | _, value :: values => do
    -- checked before the cache: a key filed under another server's list is not used here
    if !trustedKeyPaths.isEmpty &&
        !trustedKeyPaths.any (eqIgnoreAsciiCase · value.keyPath) then
      decryptCekLoop (some (untrustedPath value.keyPath)) values
    else
      match (← get).cache.get (cekCacheKey value) with
      | some cached => pure (.ok cached)
      | none =>
        match registry.get value.keyStoreName with
        | none => decryptCekLoop (some (noProvider value.keyStoreName)) values
        | some provider =>
          match ← decryptColumnEncryptionKey providers provider value with
          | .ok plaintext =>
            modify fun state =>
              { state with cache := state.cache.insert (cekCacheKey value) plaintext }
            pure (.ok plaintext)
          | .error error => decryptCekLoop (some error) values

/-- The plaintext key of a table entry. -/
def decryptCek (entry : CekTableEntry) : StateM (KeyState Provider) (TdsResult Key) :=
  if entry.encryptedCekValues.isEmpty then
    pure (.error (.columnEncryptionError "CEK table entry has no encrypted key values"))
  else decryptCekLoop providers registry trustedKeyPaths none entry.encryptedCekValues

theorem decryptColumnEncryptionKey_apply (provider : Provider) (value : EncryptedCekValue)
    (state : KeyState Provider) :
    decryptColumnEncryptionKey providers provider value state =
      let outcome := providers state.exchanges provider value.keyPath value.algorithmName
        value.encryptedKey
      (outcome, { state with exchanges := state.exchanges ++ [⟨provider, value, outcome⟩] }) := rfl

/-- What a walk over wrapped values asks, returns and stores. -/
structure Walk (values : List EncryptedCekValue) (before after : KeyState Provider)
    (asked : List (Exchange Provider)) (result : TdsResult Key) : Prop where
  exchanges : after.exchanges = before.exchanges ++ asked
  /-- Only allowed values are put to a provider, to the one registered under the store's name. -/
  asked_allowed : ∀ exchange ∈ asked, exchange.value ∈ values ∧
    Allowed trustedKeyPaths exchange.value.keyPath ∧
    registry.get exchange.value.keyStoreName = some exchange.provider
  /-- A key comes from the cache, or from a provider and is then filed. -/
  of_ok : ∀ key, result = .ok key →
    (after.cache = before.cache ∧ ∃ value ∈ values,
      Allowed trustedKeyPaths value.keyPath ∧
      before.cache.get (cekCacheKey value) = some key) ∨
    ∃ exchange ∈ asked, exchange.outcome = .ok key ∧
      after.cache = before.cache.insert (cekCacheKey exchange.value) key
  /-- A failure leaves the cache as it was, and means that no allowed value was in it and that
  each of them was put to its provider, if there is one, in vain. -/
  of_error : ∀ error, result = .error error → after.cache = before.cache ∧
    (∀ exchange ∈ asked, ∃ error, exchange.outcome = .error error) ∧
    ∀ value ∈ values, Allowed trustedKeyPaths value.keyPath →
      before.cache.get (cekCacheKey value) = none ∧
      ∀ provider, registry.get value.keyStoreName = some provider →
        ∃ exchange ∈ asked, exchange.value = value ∧ exchange.provider = provider

namespace Walk

variable {registry trustedKeyPaths} {value : EncryptedCekValue} {values : List EncryptedCekValue}
  {before after : KeyState Provider} {asked : List (Exchange Provider)} {result : TdsResult Key}

theorem nil (error : Error) : Walk registry trustedKeyPaths [] before before [] (.error error) where
  exchanges := by simp
  asked_allowed := by simp
  of_ok := by simp
  of_error := by simp

/-- A value that is not allowed, or for which there is neither a cached key nor a provider, is
passed over. -/
theorem skip (h : Allowed trustedKeyPaths value.keyPath →
      before.cache.get (cekCacheKey value) = none ∧ registry.get value.keyStoreName = none)
    (walk : Walk registry trustedKeyPaths values before after asked result) :
    Walk registry trustedKeyPaths (value :: values) before after asked result where
  exchanges := walk.exchanges
  asked_allowed := by
    intro exchange hexchange
    obtain ⟨hmem, hrest⟩ := walk.asked_allowed exchange hexchange
    exact ⟨List.mem_cons_of_mem _ hmem, hrest⟩
  of_ok := by
    intro key hkey
    refine (walk.of_ok key hkey).imp_left ?_
    rintro ⟨hcache, value', hmem, hrest⟩
    exact ⟨hcache, value', List.mem_cons_of_mem _ hmem, hrest⟩
  of_error := by
    intro error herror
    obtain ⟨hcache, hfailed, hvalues⟩ := walk.of_error error herror
    refine ⟨hcache, hfailed, ?_⟩
    intro value' hmem hallowed
    rcases List.mem_cons.mp hmem with rfl | hmem
    · obtain ⟨hget, hnone⟩ := h hallowed
      refine ⟨hget, ?_⟩
      intro provider hprovider
      rw [hnone] at hprovider
      cases hprovider
    · exact hvalues value' hmem hallowed

theorem cached {key : Key} (hallowed : Allowed trustedKeyPaths value.keyPath)
    (hkey : before.cache.get (cekCacheKey value) = some key) :
    Walk registry trustedKeyPaths (value :: values) before before [] (.ok key) where
  exchanges := by simp
  asked_allowed := by simp
  of_ok := by
    rintro key' ⟨⟩
    exact .inl ⟨rfl, value, List.mem_cons_self, hallowed, hkey⟩
  of_error := by simp

theorem unwrapped {key : Key} {provider : Provider}
    (hallowed : Allowed trustedKeyPaths value.keyPath)
    (hprovider : registry.get value.keyStoreName = some provider)
    (hexchanges : after.exchanges = before.exchanges ++ [⟨provider, value, .ok key⟩])
    (hcache : after.cache = before.cache.insert (cekCacheKey value) key) :
    Walk registry trustedKeyPaths (value :: values) before after [⟨provider, value, .ok key⟩]
      (.ok key) where
  exchanges := hexchanges
  asked_allowed := by
    intro exchange hexchange
    rw [List.mem_singleton.mp hexchange]
    exact ⟨List.mem_cons_self, hallowed, hprovider⟩
  of_ok := by
    rintro key' ⟨⟩
    exact .inr ⟨_, List.mem_singleton_self _, rfl, hcache⟩
  of_error := by simp

theorem failed {error : Error} {provider : Provider} {middle : KeyState Provider}
    (hallowed : Allowed trustedKeyPaths value.keyPath)
    (hget : before.cache.get (cekCacheKey value) = none)
    (hprovider : registry.get value.keyStoreName = some provider)
    (hexchanges : middle.exchanges = before.exchanges ++ [⟨provider, value, .error error⟩])
    (hcache : middle.cache = before.cache)
    (walk : Walk registry trustedKeyPaths values middle after asked result) :
    Walk registry trustedKeyPaths (value :: values) before after
      (⟨provider, value, .error error⟩ :: asked) result where
  exchanges := by
    rw [walk.exchanges, hexchanges, List.append_assoc, List.singleton_append]
  asked_allowed := by
    intro exchange hexchange
    rcases List.mem_cons.mp hexchange with rfl | hexchange
    · exact ⟨List.mem_cons_self, hallowed, hprovider⟩
    · obtain ⟨hmem, hrest⟩ := walk.asked_allowed exchange hexchange
      exact ⟨List.mem_cons_of_mem _ hmem, hrest⟩
  of_ok := by
    intro key hkey
    rw [← hcache]
    rcases walk.of_ok key hkey with ⟨hafter, value', hmem, hrest⟩ | ⟨exchange, hmem, hrest⟩
    · exact .inl ⟨hafter, value', List.mem_cons_of_mem _ hmem, hrest⟩
    · exact .inr ⟨exchange, List.mem_cons_of_mem _ hmem, hrest⟩
  of_error := by
    intro error' herror
    obtain ⟨hafter, hfailed, hvalues⟩ := walk.of_error error' herror
    rw [hcache] at hafter hvalues
    refine ⟨hafter, ?_, ?_⟩
    · intro exchange hexchange
      rcases List.mem_cons.mp hexchange with rfl | hexchange
      · exact ⟨error, rfl⟩
      · exact hfailed exchange hexchange
    · intro value' hmem hallowed'
      rcases List.mem_cons.mp hmem with rfl | hmem
      · refine ⟨hget, ?_⟩
        intro provider' hprovider'
        rw [hprovider] at hprovider'
        cases hprovider'
        exact ⟨_, List.mem_cons_self, rfl, rfl⟩
      · obtain ⟨hget', hasked⟩ := hvalues value' hmem hallowed'
        refine ⟨hget', ?_⟩
        intro provider' hprovider'
        obtain ⟨exchange, hexchange, hrest⟩ := hasked provider' hprovider'
        exact ⟨exchange, List.mem_cons_of_mem _ hexchange, hrest⟩

end Walk

theorem decryptCekLoop_spec (lastError : Option Error) (values : List EncryptedCekValue)
    (state : KeyState Provider) : ∃ asked,
    let outcome := decryptCekLoop providers registry trustedKeyPaths lastError values state
    Walk registry trustedKeyPaths values state outcome.2 asked outcome.1 := by
  induction values generalizing lastError state with
  | nil => exact ⟨[], .nil _⟩
  | cons value values ih =>
    rw [decryptCekLoop]
    split
    next huntrusted =>
      obtain ⟨asked, hwalk⟩ := ih (some (untrustedPath value.keyPath)) state
      refine ⟨asked, hwalk.skip ?_⟩
      exact fun hallowed => absurd huntrusted (refused_iff.not_left.mpr hallowed)
    next htrusted =>
      have hallowed := refused_iff.not_left.mp htrusted
      simp only [bind, StateT.bind, get, getThe, MonadStateOf.get, StateT.get, pure]
      cases hget : state.cache.get (cekCacheKey value) with
      | some cached => exact ⟨[], .cached hallowed hget⟩
      | none =>
        cases hprovider : registry.get value.keyStoreName with
        | none =>
          obtain ⟨asked, hwalk⟩ := ih (some (noProvider value.keyStoreName)) state
          exact ⟨asked, hwalk.skip fun _ => ⟨hget, hprovider⟩⟩
        | some provider =>
          simp only [StateT.bind, bind, decryptColumnEncryptionKey_apply]
          cases providers state.exchanges provider value.keyPath value.algorithmName
              value.encryptedKey with
          | ok key => exact ⟨_, .unwrapped hallowed hprovider rfl rfl⟩
          | error error =>
            let asking : KeyState Provider :=
              { state with exchanges := state.exchanges ++ [⟨provider, value, .error error⟩] }
            obtain ⟨asked, hwalk⟩ := ih (some error) asking
            exact ⟨_, @Walk.failed _ registry trustedKeyPaths value values state _ asked _ error
              provider asking hallowed hget hprovider rfl rfl hwalk⟩

theorem decryptCek_spec (entry : CekTableEntry) (state : KeyState Provider) : ∃ asked,
    let outcome := decryptCek providers registry trustedKeyPaths entry state
    Walk registry trustedKeyPaths entry.encryptedCekValues state outcome.2 asked outcome.1 := by
  rw [decryptCek]
  split
  next hempty =>
    rw [List.isEmpty_iff.mp hempty]
    exact ⟨[], .nil _⟩
  next => exact decryptCekLoop_spec providers registry trustedKeyPaths none _ state

end

/-! ### Sequences of calls -/

open ColumnEncryptionKeyStoreProviderRegistry (Registered registerAll get_registerAll)

structure Call (Provider : Type) where
  /-- The registrations the call's registry was set up with. -/
  registrations : List (String × Provider)
  entry : CekTableEntry
  trustedKeyPaths : List String

structure CallRecord (Provider : Type) extends Call Provider where
  /-- The cache when the call began. -/
  cache : CekCache
  /-- The exchanges with providers during the call. -/
  asked : List (Exchange Provider)
  result : TdsResult Key

section

variable {Provider : Type} (providers : Providers Provider)

/-- Carries out one call and records it. -/
def runCall (call : Call Provider) : StateM (KeyState Provider) (CallRecord Provider) := do
  let before ← get
  let result ← decryptCek providers (registerAll call.registrations) call.trustedKeyPaths call.entry
  let after ← get
  pure
    { toCall := call
      cache := before.cache
      asked := after.exchanges.drop before.exchanges.length
      result := result }

/-- Carries out a sequence of calls that share a cache. -/
def runCallsFrom : List (Call Provider) → KeyState Provider → List (CallRecord Provider)
  | [], _ => []
  | call :: calls, state =>
    let outcome := runCall providers call state
    outcome.1 :: runCallsFrom calls outcome.2

/-- Carries out a sequence of calls that share one cache, which is empty at first. -/
def runCalls (calls : List (Call Provider)) : List (CallRecord Provider) :=
  runCallsFrom providers calls ⟨.new, []⟩

theorem runCall_spec (call : Call Provider) (state : KeyState Provider) :
    let outcome := runCall providers call state
    outcome.1.toCall = call ∧ outcome.1.cache = state.cache ∧
      Walk (registerAll call.registrations) call.trustedKeyPaths call.entry.encryptedCekValues state
        outcome.2 outcome.1.asked outcome.1.result := by
  obtain ⟨asked, hwalk⟩ := decryptCek_spec providers (registerAll call.registrations)
    call.trustedKeyPaths call.entry state
  refine ⟨rfl, rfl, ?_⟩
  have hasked : (runCall providers call state).1.asked = asked := by
    have hdrop := congrArg (List.drop state.exchanges.length) hwalk.exchanges
    rw [List.drop_left] at hdrop
    exact hdrop
  rw [hasked]
  exact hwalk

/-- What a cache holds was returned by a provider in one of the calls, for exactly the path and the
wrapped bytes it is filed under, and the provider was then registered under the store's name. -/
def CekCache.Sound (history : List (CallRecord Provider)) (cache : CekCache) : Prop :=
  ∀ value plaintext, cache.get (cekCacheKey value) = some plaintext →
    ∃ call ∈ history, ∃ exchange ∈ call.asked, exchange.outcome = .ok plaintext ∧
      exchange.value.keyPath = value.keyPath ∧ exchange.value.encryptedKey = value.encryptedKey ∧
      Registered call.registrations value.keyStoreName exchange.provider

/-- What is promised of a call, given the calls up to and including it. -/
structure Trustworthy (history : List (CallRecord Provider)) (call : CallRecord Provider) :
    Prop where
  /-- A returned key is one that a provider registered under the store's name returned, in one of
  these calls, for the path and the wrapped bytes of an allowed value of this call. -/
  returned : ∀ key, call.result = .ok key →
    ∃ value ∈ call.entry.encryptedCekValues, Allowed call.trustedKeyPaths value.keyPath ∧
      ∃ earlier ∈ history, ∃ exchange ∈ earlier.asked, exchange.outcome = .ok key ∧
        exchange.value.keyPath = value.keyPath ∧
        exchange.value.encryptedKey = value.encryptedKey ∧
        Registered earlier.registrations value.keyStoreName exchange.provider
  /-- Providers are asked about allowed values of this call only. -/
  asked_allowed : ∀ exchange ∈ call.asked, exchange.value ∈ call.entry.encryptedCekValues ∧
    Allowed call.trustedKeyPaths exchange.value.keyPath
  /-- If the call fails, no allowed value was in the cache, and every provider registered for one of
  them was asked about it and failed. -/
  failed : ∀ error, call.result = .error error →
    (∀ exchange ∈ call.asked, ∃ error, exchange.outcome = .error error) ∧
    ∀ value ∈ call.entry.encryptedCekValues, Allowed call.trustedKeyPaths value.keyPath →
      call.cache.get (cekCacheKey value) = none ∧
      ∀ provider, Registered call.registrations value.keyStoreName provider →
        ∃ exchange ∈ call.asked, exchange.value = value ∧ exchange.provider = provider

variable {providers}

theorem CekCache.Sound.mono {history history' : List (CallRecord Provider)} {cache : CekCache}
    (h : cache.Sound history) (hsub : history ⊆ history') : cache.Sound history' := by
  intro value plaintext hget
  obtain ⟨call, hcall, hrest⟩ := h value plaintext hget
  exact ⟨call, hsub hcall, hrest⟩

/-- A provider registered under a value's store name is registered for every value filed like it. -/
theorem registered_of_cekCacheKey {value value' : EncryptedCekValue}
    (h : cekCacheKey value = cekCacheKey value') {registrations : List (String × Provider)}
    {provider : Provider} (hregistered : Registered registrations value.keyStoreName provider) :
    Registered registrations value'.keyStoreName provider := by
  have hname : value.keyStoreName.toUpper = value'.keyStoreName.toUpper :=
    congrArg CekCacheKey.providerName h
  rw [← get_registerAll] at hregistered ⊢
  rwa [ColumnEncryptionKeyStoreProviderRegistry.get, ← hname]

variable {history : List (CallRecord Provider)} {exchange : Exchange Provider}

/-- Filing a key that a provider returned in the last call keeps the cache sound. -/
theorem CekCache.Sound.insert {cache : CekCache}
    (h : cache.Sound history) {call : CallRecord Provider} (hcall : call ∈ history)
    (hexchange : exchange ∈ call.asked) {key : Key}
    (hkey : exchange.outcome = .ok key)
    (hregistered : Registered call.registrations exchange.value.keyStoreName exchange.provider) :
    (cache.insert (cekCacheKey exchange.value) key).Sound history := by
  intro value plaintext hget
  rw [CekCache.get_insert] at hget
  split_ifs at hget with hfiled
  · cases hget
    have hpath : exchange.value.keyPath = value.keyPath :=
      congrArg CekCacheKey.masterKeyPath hfiled.symm
    have hbytes : exchange.value.encryptedKey = value.encryptedKey :=
      congrArg CekCacheKey.encryptedCek hfiled.symm
    exact ⟨call, hcall, exchange, hexchange, hkey, hpath, hbytes,
      registered_of_cekCacheKey hfiled.symm hregistered⟩
  · exact h value plaintext hget

section Step

variable {history : List (CallRecord Provider)} {call : CallRecord Provider}
  {before after : KeyState Provider}
  (hwalk : Walk (registerAll call.registrations) call.trustedKeyPaths
    call.entry.encryptedCekValues before after call.asked call.result)

include hwalk

theorem Walk.registered (h : exchange ∈ call.asked) :
    Registered call.registrations exchange.value.keyStoreName exchange.provider :=
  get_registerAll.mp (hwalk.asked_allowed exchange h).2.2

theorem Walk.sound (h : before.cache.Sound history) : after.cache.Sound (history ++ [call]) := by
  have hmono := h.mono (List.subset_append_left history [call])
  cases hresult : call.result with
  | error error =>
    obtain ⟨hcache, -⟩ := hwalk.of_error error hresult
    rwa [hcache]
  | ok key =>
    rcases hwalk.of_ok key hresult with ⟨hcache, -⟩ | ⟨exchange, hexchange, hkey, hcache⟩
    · rwa [hcache]
    · rw [hcache]
      exact hmono.insert (by simp) hexchange hkey (hwalk.registered hexchange)

theorem Walk.trustworthy (h : before.cache.Sound history) (hcache : call.cache = before.cache) :
    Trustworthy (history ++ [call]) call where
  returned := by
    intro key hresult
    rcases hwalk.of_ok key hresult with ⟨-, value, hvalue, hallowed, hget⟩ |
      ⟨exchange, hexchange, hkey, -⟩
    · refine ⟨value, hvalue, hallowed, ?_⟩
      exact h.mono (List.subset_append_left history [call]) value key hget
    · obtain ⟨hvalue, hallowed, -⟩ := hwalk.asked_allowed exchange hexchange
      exact ⟨exchange.value, hvalue, hallowed, call, by simp, exchange, hexchange, hkey, rfl, rfl,
        hwalk.registered hexchange⟩
  asked_allowed := by
    intro exchange hexchange
    obtain ⟨hvalue, hallowed, -⟩ := hwalk.asked_allowed exchange hexchange
    exact ⟨hvalue, hallowed⟩
  failed := by
    intro error hresult
    obtain ⟨-, hfailed, hvalues⟩ := hwalk.of_error error hresult
    refine ⟨hfailed, ?_⟩
    intro value hvalue hallowed
    obtain ⟨hget, hasked⟩ := hvalues value hvalue hallowed
    rw [hcache]
    exact ⟨hget, fun provider hprovider => hasked provider (get_registerAll.mpr hprovider)⟩

end Step

theorem runCallsFrom_trustworthy {calls : List (Call Provider)}
    {state : KeyState Provider} (h : state.cache.Sound history) {i : ℕ} {call : Call Provider}
    (hcall : calls[i]? = some call) :
    let records := runCallsFrom providers calls state
    ∃ record, records[i]? = some record ∧ record.toCall = call ∧
      Trustworthy (history ++ records.take (i + 1)) record := by
  induction calls generalizing history state i with
  | nil => cases hcall
  | cons first calls ih =>
    obtain ⟨hfirst, hcache, hwalk⟩ := runCall_spec providers first state
    rw [runCallsFrom]
    generalize runCall providers first state = outcome at *
    obtain ⟨record, after⟩ := outcome
    obtain rfl : record.toCall = first := hfirst
    cases i with
    | zero =>
      cases hcall
      exact ⟨record, rfl, rfl, hwalk.trustworthy h hcache⟩
    | succ i =>
      obtain ⟨later, hlater, htoCall, htrust⟩ := ih (hwalk.sound h) hcall
      refine ⟨later, hlater, htoCall, ?_⟩
      rw [List.append_assoc] at htrust
      exact htrust

/-- **Trusted key paths hold through the cache.**  In every sequence of calls that share a cache,
each with a table entry, a registry and a list of trusted paths of its own, and whatever the
providers answer, every call is trustworthy. -/
theorem trusted_paths_hold (providers : Providers Provider) (calls : List (Call Provider)) (i : ℕ)
    (call : Call Provider) (hcall : calls[i]? = some call) :
    ∃ record, (runCalls providers calls)[i]? = some record ∧ record.toCall = call ∧
      Trustworthy ((runCalls providers calls).take (i + 1)) record := by
  have hempty : CekCache.new.Sound ([] : List (CallRecord Provider)) := by
    intro value plaintext hget
    cases hget
  have htrust := @runCallsFrom_trustworthy Provider providers [] calls
    ⟨.new, []⟩ hempty i call hcall
  exact htrust

/-- A key unwrapped for an unrestricted server, then asked for by a server whose list does not have
its path, then by one whose list has it in another case. -/
def threeServers : List (Call ℕ) :=
  let value : EncryptedCekValue := ⟨[7], "akv", "https://vault/k", "RSA_OAEP"⟩
  let entry : CekTableEntry := ⟨1, 1, 1, .replicate 8 0, [value]⟩
  [⟨[("AKV", 0)], entry, []⟩, ⟨[("AKV", 0)], entry, ["other"]⟩, ⟨[], entry, ["HTTPS://VAULT/K"]⟩]

theorem pure_apply {σ α : Type} (a : α) (s : σ) : (StateT.pure a : StateM σ α) s = (a, s) := rfl

/-- The results of such calls for any names.  The kernel takes minutes to compare concrete ones. -/
theorem results_of_names {store registered path other again algorithm : String}
    (hname : eqIgnoreAsciiCase registered store = true)
    (hother : eqIgnoreAsciiCase other path = false)
    (hagain : eqIgnoreAsciiCase again path = true) :
    let entry : CekTableEntry := ⟨1, 1, 1, .replicate 8 0, [⟨[7], store, path, algorithm⟩]⟩
    (runCalls (fun _ _ _ _ _ => .ok [1, 2])
        [⟨[(registered, 0)], entry, []⟩, ⟨[(registered, 0)], entry, [other]⟩,
          ⟨[], entry, [again]⟩]).map (fun call => (call.result, call.asked.length)) =
      [(.ok [1, 2], 1), (.error (untrustedPath path), 0), (.ok [1, 2], 0)] := by
  have hget : (ColumnEncryptionKeyStoreProviderRegistry.new.register (registered, 0)).get store =
      some 0 := by
    rw [ColumnEncryptionKeyStoreProviderRegistry.get_register, if_pos hname]
  simp [runCalls, runCallsFrom, runCall, decryptCek, decryptCekLoop, registerAll,
    decryptColumnEncryptionKey_apply, hother, hagain, hget, CekCache.get_insert, get, getThe,
    MonadStateOf.get, StateT.get, modify, modifyGet, MonadStateOf.modifyGet, StateT.modifyGet, bind,
    StateT.bind, pure, pure_apply]

/-- Only the first of the calls asks the provider; the second does not get the cached key. -/
theorem threeServers_results :
    (runCalls (fun _ _ _ _ _ => .ok [1, 2]) threeServers).map (fun call =>
        (call.result, call.asked.length)) =
      [(.ok [1, 2], 1), (.error (untrustedPath "https://vault/k"), 0), (.ok [1, 2], 0)] := by
  refine results_of_names ?_ ?_ ?_
  all_goals
    delta eqIgnoreAsciiCase String.toLower
    simp [← String.toList_inj, String.toList_map]

theorem trusted_paths_hold_threeServers :
    ∃ record, (runCalls (fun _ _ _ _ _ => .ok [1, 2]) threeServers)[2]? = some record ∧
      record.result = .ok [1, 2] ∧ record.asked.length = 0 ∧
      Trustworthy ((runCalls (fun _ _ _ _ _ => .ok [1, 2]) threeServers).take (2 + 1)) record := by
  obtain ⟨record, hrecord, -, htrust⟩ :=
    trusted_paths_hold (fun _ _ _ _ _ => .ok [1, 2]) threeServers 2 _ rfl
  have hresult := congrArg (·[2]?) threeServers_results
  simp only [List.getElem?_map, hrecord, Option.map_some] at hresult
  obtain ⟨hok, hasked⟩ := Prod.mk.inj (Option.some_inj.mp hresult)
  exact ⟨record, hrecord, hok, hasked, htrust⟩

/-! ### Every key is unwrapped once -/

/-- The second exchange does not unwrap what the first one has unwrapped. -/
def NotAgain (first second : Exchange Provider) : Prop :=
  first.outcome.isOk → second.outcome.isOk → cekCacheKey first.value ≠ cekCacheKey second.value

/-- What has been unwrapped is in the cache, and was unwrapped once. -/
structure KeyState.Once (state : KeyState Provider) : Prop where
  filed : ∀ exchange ∈ state.exchanges, exchange.outcome.isOk →
    state.cache.get (cekCacheKey exchange.value) ≠ none
  once : state.exchanges.Pairwise NotAgain

variable {state : KeyState Provider}

/-- A value that is not in the cache is put to a provider. -/
theorem KeyState.Once.ask (h : state.Once) {provider : Provider} {value : EncryptedCekValue}
    (hget : state.cache.get (cekCacheKey value) = none) {outcome : TdsResult Key} {cache : CekCache}
    (hcache : ∀ key, state.cache.get key ≠ none ∨ outcome.isOk ∧ key = cekCacheKey value →
      cache.get key ≠ none) :
    KeyState.Once ⟨cache, state.exchanges ++ [⟨provider, value, outcome⟩]⟩ := by
  refine ⟨List.forall_mem_append.mpr ⟨fun e he hok => hcache _ (.inl (h.filed e he hok)), ?_⟩,
    List.pairwise_append.mpr ⟨h.once, List.pairwise_singleton _ _, ?_⟩⟩
  · simpa using fun hok => hcache _ (.inr ⟨hok, rfl⟩)
  · intro e he e' he' hok _ hkey
    rw [List.mem_singleton.mp he'] at hkey
    exact h.filed e he hok (hkey ▸ hget)

theorem decryptCekLoop_once (registry : ColumnEncryptionKeyStoreProviderRegistry Provider)
    (trustedKeyPaths : List String) (lastError : Option Error) (values : List EncryptedCekValue)
    (h : state.Once) :
    (decryptCekLoop providers registry trustedKeyPaths lastError values state).2.Once := by
  induction values generalizing lastError state with
  | nil => exact h
  | cons value values ih =>
    rw [decryptCekLoop]
    split
    · exact ih _ h
    simp only [bind, StateT.bind, get, getThe, MonadStateOf.get, StateT.get, pure]
    cases hget : state.cache.get (cekCacheKey value) with
    | some cached => exact h
    | none =>
      cases registry.get value.keyStoreName with
      | none => exact ih _ h
      | some provider =>
        simp only [StateT.bind, bind, decryptColumnEncryptionKey_apply]
        cases providers state.exchanges provider value.keyPath value.algorithmName
            value.encryptedKey with
        | ok key =>
          refine h.ask hget fun key' hkey' => ?_
          rw [CekCache.get_insert]
          split
          · exact Option.some_ne_none _
          · exact hkey'.resolve_right fun hnew => absurd hnew.2 ‹_›
        | error error =>
          exact ih _
            (h.ask hget fun key hkey => hkey.resolve_right fun hok => Bool.false_ne_true hok.1)

theorem runCallsFrom_once (calls : List (Call Provider)) (h : state.Once) :
    (state.exchanges ++ (runCallsFrom providers calls state).flatMap (·.asked)).Pairwise
      NotAgain := by
  induction calls generalizing state with
  | nil => simpa [runCallsFrom] using h.once
  | cons call calls ih =>
    have hafter : (runCall providers call state).2.Once := by
      change (decryptCek providers _ _ _ state).2.Once
      rw [decryptCek]
      split
      · exact h
      · exact decryptCekLoop_once _ _ _ _ h
    rw [runCallsFrom, List.flatMap_cons, ← List.append_assoc,
      ← (runCall_spec providers call state).2.2.exchanges]
    exact ih hafter

/-- **A key is unwrapped once.**  In every sequence of calls that share a cache, whatever the
providers answer, no two successful exchanges are about values filed under the same name. -/
theorem unwrapped_once (providers : Providers Provider) (calls : List (Call Provider)) :
    ((runCalls providers calls).flatMap (·.asked)).Pairwise NotAgain := by
  have hstart : KeyState.Once (⟨.new, []⟩ : KeyState Provider) := ⟨by simp, .nil⟩
  exact runCallsFrom_once calls hstart

end

end MssqlTds.Security
