import SendingSystem.Client.Connector
import SendingSystem.Lib.CJson
import SendingSystem.Lib.Memo

/-!
# The cached HTTP client

`client()` keeps the client it built last and hands it out again as long as
`isSSLEncryptEnabled`, `trustMode` and `pinnedSha256` stay what they were. With
SSL in pinned mode the build also reads `serverIp`, since pins are added for a
host, and that is not part of what is compared: after the address changes, the
client handed out pins the old host and, with its trust manager that accepts
all, checks nothing about the new one.

The connector is a cache with one entry in the sense of `Memo`: `memo_act` maps
its steps to those of the cache, which gives the exact condition under which
every client handed out is the one that would be built.

## Main definitions

* `TlsConfig`: What a build reads.
* `TlsConfig.key`: What is compared.
* `ConfigAct`: An assignment to the configuration, or a call of `client()`.
* `TracedConnector`: The connector and what its client was built from.
* `tlsRecipe`: The cache the connector implements.

## Theorems

* `build_eq_iff`: When two configurations with one key build the same client.
* `build_pinned`: What a client built in pinned mode enforces.
* `client_eq_call`, `memo_act`, `memo_run`: The connector's steps are the cache's.
* `coherent_iff_sameHost`: When a call hands out the current client.
* `tls_client_coherent_iff`: When every client handed out is the current one.
-/

namespace SendingSystem

namespace Client

open Utf16

/-- What a build reads of the configuration. -/
structure TlsConfig where
  serverIp : Option JString
  isSSLEncryptEnabled : Bool
  trustMode : TrustMode
  pinnedSha256 : Option JString

/-- What is compared before the cached client is handed out. -/
structure TlsKey where
  cachedSsl : Bool
  cachedTrust : TrustMode
  cachedPin : Option JString
  deriving DecidableEq

/-- The part of a configuration that is compared. -/
def TlsConfig.key (k : TlsConfig) : TlsKey := ⟨k.isSSLEncryptEnabled, k.trustMode, k.pinnedSha256⟩

variable {P : Platform}

/-- The configuration of a connector. -/
def Connector.tls (c : Connector P) : TlsConfig :=
  ⟨c.serverIp, c.isSSLEncryptEnabled, c.trustMode, c.pinnedSha256⟩

/-- A new connector with a configuration. -/
def TlsConfig.connector (k : TlsConfig) : Connector P :=
  { Connector.new with
    serverIp := k.serverIp
    isSSLEncryptEnabled := k.isSSLEncryptEnabled
    trustMode := k.trustMode
    pinnedSha256 := k.pinnedSha256 }

/-- Building reads the configuration only. -/
theorem build_tls (sslContext : Bool) (c : Connector P) :
    c.tls.connector.build sslContext = c.build sslContext := rfl

/-- An assignment to the configuration, or a call of `client()`. -/
inductive ConfigAct where
  | serverIp (ip : Option JString)
  | serverPort (port : Int)
  | isSSLEncryptEnabled (enabled : Bool)
  | setTrustMode (mode : TrustMode)
  | setPinnedSha256 (pin : Option JString)
  | client (sslContext : Bool)

/-- The condition under which `client()` hands out the cached client. -/
def Connector.cacheHit (c : Connector P) : Bool :=
  c.cachedClient.isSome && c.cachedSsl = c.isSSLEncryptEnabled &&
    c.cachedTrust = some c.trustMode && c.cachedPin = c.pinnedSha256

/-- The connector, and the configuration its cached client was built from. -/
structure TracedConnector (P : Platform) where
  connector : Connector P
  built : Option TlsConfig

/-- A new connector. -/
def TracedConnector.new : TracedConnector P := ⟨.new, none⟩

/-- One act, with the record kept. -/
def TracedConnector.act (s : TracedConnector P) : ConfigAct → TracedConnector P
  | .serverIp ip => { s with connector.serverIp := ip }
  | .serverPort port => { s with connector.serverPort := port }
  | .isSSLEncryptEnabled enabled => { s with connector.isSSLEncryptEnabled := enabled }
  | .setTrustMode mode => { s with connector.trustMode := mode }
  | .setPinnedSha256 pin => { s with connector.pinnedSha256 := pin }
  | .client sslContext => {
      connector := (s.connector.client sslContext).2
      built :=
        if s.connector.cacheHit then s.built
        else
          match s.connector.build sslContext with
          | .ok _ => some s.connector.tls
          | .error _ => s.built }

/-- Some acts in a row. -/
def TracedConnector.run (acts : List ConfigAct) : TracedConnector P :=
  acts.foldl TracedConnector.act .new

/-- What a build in a call makes is what a build makes. -/
theorem build_ok {sslContext : Bool} {c : Connector P} {v : OkHttpClient P}
    (h : c.build sslContext = .ok v) : c.build true = .ok v := by
  cases sslContext with
  | true => exact h
  | false =>
      unfold Connector.build at h ⊢
      by_cases hssl : c.isSSLEncryptEnabled = true
      · simp only [hssl, if_true] at h ⊢
        -- Without a TLS context only the system's trust manager can be had.
        cases hmode : c.trustMode with
        | trustAll => simp only [hmode, Bool.false_eq_true, if_false, reduceCtorEq] at h
        | systemCa =>
            simp only [hmode] at h
            exact h
        | pinned =>
            simp only [hmode, Bool.false_eq_true, if_false] at h
            split at h <;> simp only [reduceCtorEq] at h
      · simp only [hssl] at h ⊢
        exact h

/-- The cache the connector implements. -/
def tlsRecipe (P : Platform) : Memo.Recipe TlsConfig TlsKey Bool Failure (OkHttpClient P) where
  key := TlsConfig.key
  make := fun k => k.connector.build true
  build := fun sslContext k => k.connector.build sslContext
  build_ok := fun _ _ _ h => build_ok h

/-- The pin a configuration asks for, as it is handed to the pinner. -/
def TlsConfig.pin (k : TlsConfig) : JString := lit "sha256/" ++ k.pinnedSha256.getD []

/-- What a client built in pinned mode enforces: the current pin, for the
    current address. -/
theorem build_pinned {k : TlsConfig} {v : OkHttpClient P} (hssl : k.isSSLEncryptEnabled = true)
    (hmode : k.trustMode = .pinned) (h : k.connector.build true = .ok v) :
    ∃ pinner, P.certificatePinner k.serverIp k.pin = some pinner ∧ v = ⟨true, some pinner⟩ := by
  unfold Connector.build TlsConfig.connector at h
  simp only [hssl, hmode, if_true] at h
  split at h
  · simp only [reduceCtorEq] at h
  -- Without a pinner there is no client to return.
  · cases hpinner : P.certificatePinner k.serverIp k.pin with
    | none =>
        rw [TlsConfig.pin] at hpinner
        simp only [hpinner, reduceCtorEq] at h
    | some pinner =>
        rw [TlsConfig.pin] at hpinner
        simp only [hpinner, Except.ok.injEq] at h
        exact ⟨pinner, rfl, h.symm⟩

/-- Of two configurations with one key, one that builds a client builds that of
    the other exactly if, in pinned mode, the pins are for the same hosts. -/
theorem build_eq_iff {k k' : TlsConfig} {v : OkHttpClient P} (hkey : k.key = k'.key)
    (h : k.connector.build true = .ok v) :
    k.connector.build true = (k'.connector : Connector P).build true ↔
      (k'.isSSLEncryptEnabled = true → k'.trustMode = .pinned →
        P.certificatePinner k.serverIp k'.pin = P.certificatePinner k'.serverIp k'.pin) := by
  rcases k with ⟨ip, ssl, mode, pin⟩
  rcases k' with ⟨ip', ssl', mode', pin'⟩
  simp only [TlsConfig.key, TlsKey.mk.injEq] at hkey
  rcases hkey with ⟨rfl, rfl, rfl⟩
  -- Only pinned mode reads the address, and it builds what its pinner says.
  by_cases hpinned : ssl = true ∧ mode = .pinned
  · rcases hpinned with ⟨rfl, rfl⟩
    rcases build_pinned rfl rfl h with ⟨pinner, hpinner, rfl⟩
    constructor
    · intro heq _ _
      rw [h] at heq
      rcases build_pinned rfl rfl heq.symm with ⟨pinner', hpinner', hv⟩
      simp only [OkHttpClient.mk.injEq, Option.some.injEq, true_and] at hv
      rw [hv] at hpinner
      exact hpinner.trans hpinner'.symm
    · intro hsame
      have hsame := hsame rfl rfl
      simp only [TlsConfig.pin] at hsame
      simp only [Connector.build, TlsConfig.connector, hsame]
  · constructor
    · intro _ hssl hmode
      exact absurd ⟨hssl, hmode⟩ hpinned
    · intro _
      cases ssl with
      | false => rfl
      | true =>
          cases mode with
          | trustAll => rfl
          | systemCa => rfl
          | pinned => exact absurd ⟨rfl, rfl⟩ hpinned

/-- The entry of the cache. -/
def Connector.entry (c : Connector P) : Option (TlsKey × OkHttpClient P) :=
  match c.cachedClient, c.cachedTrust with
  | some client, some mode => some (⟨c.cachedSsl, mode, c.cachedPin⟩, client)
  | _, _ => none

/-- The act as one on the cache. -/
def ConfigAct.memo : ConfigAct → Memo.Act TlsConfig Bool
  | .serverIp ip => .change (fun k => { k with serverIp := ip })
  | .serverPort _ => .change id
  | .isSSLEncryptEnabled enabled => .change (fun k => { k with isSSLEncryptEnabled := enabled })
  | .setTrustMode mode => .change (fun k => { k with trustMode := mode })
  | .setPinnedSha256 pin => .change (fun k => { k with pinnedSha256 := pin })
  | .client sslContext => .call sslContext

/-- The connector as a cache. -/
def TracedConnector.memo (s : TracedConnector P) :
    Memo.Traced TlsConfig TlsKey (OkHttpClient P) :=
  ⟨s.connector.tls, s.connector.entry, s.built⟩

/-- The comparisons of `client()` are one comparison of keys. -/
theorem hit_entry (c : Connector P) :
    (tlsRecipe P).hit c.tls c.entry = if c.cacheHit then c.cachedClient else none := by
  unfold Connector.entry Connector.cacheHit
  -- The cache holds a client and the key it was built for, or nothing of use.
  cases hclient : c.cachedClient with
  | none => rfl
  | some client =>
      cases htrust : c.cachedTrust with
      | none =>
          simp only [Memo.Recipe.hit, reduceCtorEq, decide_false, Bool.and_false, Bool.false_and,
            Bool.false_eq_true, if_false]
      | some mode =>
          simp only [Memo.Recipe.hit, tlsRecipe, TlsConfig.key, Connector.tls, TlsKey.mk.injEq,
            Option.isSome_some, Bool.true_and, Option.some.injEq, Bool.and_eq_true,
            decide_eq_true_eq, and_assoc]

theorem recipe_build (sslContext : Bool) (c : Connector P) :
    (tlsRecipe P).build sslContext c.tls = c.build sslContext := build_tls sslContext c

/-- `client()` is a call of the cache. -/
theorem client_eq_call (sslContext : Bool) (c : Connector P) :
    (c.client sslContext).1 = ((tlsRecipe P).call sslContext c.tls c.entry).1 ∧
      (c.client sslContext).2.entry = ((tlsRecipe P).call sslContext c.tls c.entry).2 ∧
      (c.client sslContext).2.tls = c.tls := by
  have hhit := hit_entry c
  unfold Memo.Recipe.call Connector.client
  rw [hhit]
  unfold Connector.cacheHit
  -- What a rebuild does is the same with an entry and without one.
  cases hclient : c.cachedClient with
  | none =>
      simp only [Option.isSome_none, Bool.false_and, Bool.false_eq_true, if_false, recipe_build]
      cases c.build sslContext with
      | error e => exact ⟨rfl, rfl, rfl⟩
      | ok client => exact ⟨rfl, rfl, rfl⟩
  | some cached =>
      simp only [Option.isSome_some, Bool.true_and, Bool.and_eq_true, decide_eq_true_eq, and_assoc]
      by_cases h : c.cachedSsl = c.isSSLEncryptEnabled ∧ c.cachedTrust = some c.trustMode ∧
          c.cachedPin = c.pinnedSha256
      · simp only [if_pos h, true_and]
      · simp only [if_neg h, recipe_build]
        cases c.build sslContext with
        | error e => exact ⟨rfl, rfl, rfl⟩
        | ok client => exact ⟨rfl, rfl, rfl⟩

/-- An act of the connector is one of the cache. -/
theorem memo_act (s : TracedConnector P) (a : ConfigAct) :
    (s.act a).memo = (tlsRecipe P).act s.memo a.memo := by
  cases a with
  | serverIp ip => rfl
  | serverPort port => rfl
  | isSSLEncryptEnabled enabled => rfl
  | setTrustMode mode => rfl
  | setPinnedSha256 pin => rfl
  | client sslContext =>
      rcases client_eq_call sslContext s.connector with ⟨_, hentry, htls⟩
      have hhit := hit_entry s.connector
      simp only [TracedConnector.act, TracedConnector.memo, ConfigAct.memo, Memo.Recipe.act, hentry,
        htls, Memo.Recipe.record, hhit, Memo.Traced.mk.injEq, true_and]
      -- On a hit neither side records anything; otherwise both record the build.
      by_cases h : s.connector.cacheHit = true
      · have hsome : s.connector.cachedClient.isSome = true := by
          simp only [Connector.cacheHit, Bool.and_eq_true] at h
          exact h.1.1.1
        rcases Option.isSome_iff_exists.mp hsome with ⟨client, hclient⟩
        simp only [if_pos h, hclient]
      · simp only [if_neg h, recipe_build]
        cases s.connector.build sslContext with
        | error e => rfl
        | ok client => rfl

theorem memo_run (acts : List ConfigAct) :
    ∀ s : TracedConnector P, (acts.foldl TracedConnector.act s).memo
      = (tlsRecipe P).run s.memo (acts.map ConfigAct.memo) := by
  induction acts with
  | nil => exact fun _ => rfl
  | cons a acts ih =>
      intro s
      rw [List.foldl_cons, ih (s.act a), memo_act]
      rfl

/-- The record of a run is right. -/
theorem faithful_tls (acts : List ConfigAct) :
    (tlsRecipe P).Faithful (TracedConnector.run acts).memo := by
  rw [TracedConnector.run, memo_run]
  exact Memo.faithful_run _ _ (.fresh rfl rfl)

/-- A call of `client()` that returns hands out the client that would be built now. -/
def TracedConnector.Coherent (s : TracedConnector P) (sslContext : Bool) : Prop :=
  ∀ v, (s.connector.client sslContext).1 = .ok v → s.connector.build true = .ok v

/-- If the cached client is the one for the current SSL setting, mode and pin, and
    these ask for pins, it was built for the hosts that the current address names. -/
def TracedConnector.SameHost (s : TracedConnector P) : Prop :=
  ∀ k, s.built = some k → k.key = s.connector.tls.key →
    s.connector.isSSLEncryptEnabled = true → s.connector.trustMode = .pinned →
    P.certificatePinner k.serverIp s.connector.tls.pin
      = P.certificatePinner s.connector.serverIp s.connector.tls.pin

/-- The two go together in every state a run reaches. -/
theorem coherent_iff_sameHost (acts : List ConfigAct) (sslContext : Bool) :
    (TracedConnector.run acts : TracedConnector P).Coherent sslContext ↔
      (TracedConnector.run acts : TracedConnector P).SameHost := by
  have hfaithful := faithful_tls (P := P) acts
  unfold TracedConnector.Coherent TracedConnector.SameHost
  generalize (TracedConnector.run acts : TracedConnector P) = s at hfaithful ⊢
  rw [(client_eq_call sslContext s.connector).1]
  refine (Memo.coherent_iff hfaithful sslContext).trans ?_
  -- What is on record was built, so its pins are those of the cached client.
  have hmade : ∀ k, s.built = some k → ∃ v, (k.connector : Connector P).build true = .ok v := by
    intro k hk
    cases hfaithful with
    | fresh _ hnone =>
        simp only [TracedConnector.memo] at hnone
        rw [hk] at hnone
        simp only [reduceCtorEq] at hnone
    | made c v hbuilt _ hmake =>
        simp only [TracedConnector.memo] at hbuilt
        rw [hk, Option.some.injEq] at hbuilt
        exact ⟨v, hbuilt ▸ hmake⟩
  constructor
  · intro h k hk hkey
    rcases hmade k hk with ⟨v, hv⟩
    exact (build_eq_iff hkey hv).mp (h k hk hkey)
  · intro h k hk hkey
    rcases hmade k hk with ⟨v, hv⟩
    exact (build_eq_iff hkey hv).mpr (h k hk hkey)

/-- In a run of assignments and calls of `client()`, every call that returns hands
    out the client that would be built at that moment, exactly if no call finds a
    pinned client that was built for other hosts. -/
theorem tls_client_coherent_iff (P : Platform) (acts : List ConfigAct) :
    (∀ before sslContext after, acts = before ++ .client sslContext :: after →
      (TracedConnector.run before : TracedConnector P).Coherent sslContext) ↔
    ∀ before sslContext after, acts = before ++ .client sslContext :: after →
      (TracedConnector.run before : TracedConnector P).SameHost := by
  constructor
  · intro h before sslContext after heq
    exact (coherent_iff_sameHost before sslContext).mp (h before sslContext after heq)
  · intro h before sslContext after heq
    exact (coherent_iff_sameHost before sslContext).mpr (h before sslContext after heq)

/-- A platform whose pinners are the pins added to them, and which prints the
    members of an object as cJSON would. -/
def pinningPlatform : Platform where
  ContentResolver := Unit
  Uri := Unit
  ProgressListener := Unit
  CertificatePinner := Option JString × JString
  certificatePinner := fun pattern pin => some (pattern, pin)
  httpUrl := fun _ => true
  jsonObject := fun members =>
    ofBytes (CJson.printObject (members.map (fun m => (utf8 m.1, utf8 m.2))))

/-- After the address changes, the pinned client of the old one is handed out. -/
theorem stale_pinned_client :
    ∃ v : OkHttpClient pinningPlatform,
      ((TracedConnector.run [.isSSLEncryptEnabled true, .setTrustMode .pinned,
        .setPinnedSha256 (some (lit "AAAA")), .serverIp (some (lit "192.168.0.2")), .client true,
        .serverIp (some (lit "192.168.0.3"))]).connector.client true).1 = .ok v ∧
      v.certificatePinner = some (some (lit "192.168.0.2"), lit "sha256/AAAA") ∧
      (TracedConnector.run [.isSSLEncryptEnabled true, .setTrustMode .pinned,
        .setPinnedSha256 (some (lit "AAAA")), .serverIp (some (lit "192.168.0.2")), .client true,
        .serverIp (some (lit "192.168.0.3"))]).connector.build true ≠ .ok v := by
  refine ⟨⟨true, some (some (lit "192.168.0.2"), lit "sha256/AAAA")⟩, rfl, rfl, ?_⟩
  intro h
  -- Built now, the client would be pinned to the new address.
  rcases build_pinned (k := ⟨some (lit "192.168.0.3"), true, .pinned, some (lit "AAAA")⟩) rfl rfl h
    with ⟨pinner, hpinner, hv⟩
  simp only [OkHttpClient.mk.injEq, true_and] at hv
  rw [Option.some.inj hv.symm] at hpinner
  simp only [pinningPlatform, Option.some.injEq, Prod.mk.injEq] at hpinner
  exact absurd hpinner.1 (by decide)

end Client

end SendingSystem
