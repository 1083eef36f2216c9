import SpectonCr.Auth.Token
import SpectonCr.Base.Json

namespace SpectonCr.Auth

inductive Algorithm where
  | rs256
  | rs384
  | rs512
  | ps256
  | ps384
  | ps512

structure IdentityTokenClaims where
  (sub iss : String)
  exp : Option Int

/-- An entry of a provider's JWKS document. -/
structure JwkEntry where
  kty : String
  (kid alg n e : Option String)

structure CachedJwk (Key : Type) where
  kid : Option String
  decodingKey : Key
  algorithm : Algorithm

structure OidcProviderConfig where
  (issuerUrl clientId : String)

structure CachedProvider (Key : Type) where
  (issuerUrl clientId : String)
  jwksKeys : List (CachedJwk Key)
  lastRefreshed : Time

/-- The functions of the JWT, base-64 and JSON libraries. `rejection` is the text
of the error for a document that a claims type does not accept. -/
structure JwtLib (Key : Type) where
  decodeHeader : String → Except String (Option String)
  b64UrlDecode : String → Option ByteArray
  parse : ByteArray → Except String Json
  rejection : Json → String
  fromRsaComponents : String → String → Option Key
  /-- The signature part of the token is one of the key over the rest of it. -/
  signed : Key → Algorithm → String → Bool
  /-- The checks of `Validation`: expiry, audience, issuer. -/
  valid : Int → String → String → Json → Bool

/-- Providers are stored under their own issuer. -/
structure OidcProviderManager (Key : Type) where
  providers : Table String (CachedProvider Key)
  configs : List OidcProviderConfig
  refreshIntervalSecs : Int
  keyed : ∀ issuer provider, providers.lookup issuer = some provider → provider.issuerUrl = issuer

def IdentityTokenClaims.decode (document : Json) : Option IdentityTokenClaims :=
  match document.structFields ["sub", "iss", "exp"] with
  | some [some (.str sub), iss, exp] =>
    (Json.strOrDefault iss).bind fun iss => (Json.optionalI64 exp).map fun exp => ⟨sub, iss, exp⟩
  | _ => none

section Manager

variable {Key : Type} (lib : JwtLib Key)

/-- The claims part of a token, with the texts of a caller's errors. -/
def payloadDocument (notJwt badBase64 unparsable token : String) : Except RegistryError Json :=
  match Text.split token '.' with
  | [_, payload, _] =>
    match lib.b64UrlDecode payload with
    | none => .error (.tokenInvalid badBase64)
    | some bytes => (lib.parse bytes).mapError fun reason => .tokenInvalid (unparsable ++ reason)
  | _ => .error (.tokenInvalid notJwt)

/-- The claims part of a token is this document. -/
def Carries (token : String) (document : Json) : Prop :=
  ∃ header payload signature bytes, Text.split token '.' = [header, payload, signature] ∧
    lib.b64UrlDecode payload = some bytes ∧ lib.parse bytes = .ok document

/-- `jsonwebtoken::decode` with a provider's key, audience and issuer. -/
def JwtLib.decode (now : Time) (token : String) (provider : CachedProvider Key)
    (key : CachedJwk Key) : Option IdentityTokenClaims :=
  if lib.signed key.decodingKey key.algorithm token then
    match payloadDocument lib "" "" "" token with
    | .ok (.obj fields) =>
      if lib.valid now.timestamp provider.clientId provider.issuerUrl (.obj fields) then
        IdentityTokenClaims.decode (.obj fields)
      else none
    | _ => none
  else none

def parseJwksKey (entry : JwkEntry) : Option (CachedJwk Key) :=
  if entry.kty ≠ "RSA" then none
  else entry.n.bind fun n => entry.e.bind fun e =>
    (lib.fromRsaComponents n e).map fun decodingKey =>
      { kid := entry.kid
        decodingKey
        algorithm :=
          if entry.alg = some "RS384" then .rs384
          else if entry.alg = some "RS512" then .rs512
          else if entry.alg = some "PS256" then .ps256
          else if entry.alg = some "PS384" then .ps384
          else if entry.alg = some "PS512" then .ps512
          else .rs256 }

def parseJwksKeys (entries : List JwkEntry) : List (CachedJwk Key) := entries.filterMap (parseJwksKey lib)

variable (fetch : String → Except String (List JwkEntry)) (now : Time)

/-- `discover_provider`; `fetch` answers with the JWKS entries of an issuer. -/
def OidcProviderManager.discoverProvider (manager : OidcProviderManager Key)
    (config : OidcProviderConfig) : Except String (OidcProviderManager Key) :=
  (fetch config.issuerUrl).map fun entries =>
    { manager with
      providers := manager.providers.insert config.issuerUrl
        ⟨config.issuerUrl, config.clientId, parseJwksKeys lib entries, now⟩
      keyed := by
        intro issuer provider found
        rcases Table.lookup_insert_cases found with ⟨rfl, rfl⟩ | ⟨_, old⟩
        · rfl
        · exact manager.keyed issuer provider old }

def OidcProviderManager.findConfig (manager : OidcProviderManager Key) (issuer : String) :
    Option OidcProviderConfig :=
  manager.configs.find? fun config => config.issuerUrl = issuer

def OidcProviderManager.refreshProvider (manager : OidcProviderManager Key) (issuer : String) :
    Except String (OidcProviderManager Key) :=
  match manager.findConfig issuer with
  | none => .error ("no config for issuer " ++ issuer)
  | some config => manager.discoverProvider lib fetch now config

/-- The keys with the header's identifier or, without one, every key. -/
def CachedProvider.keysToTry (provider : CachedProvider Key) (kid : Option String) : List (CachedJwk Key) :=
  match kid with
  | none => provider.jwksKeys
  | some kid =>
    let matched := provider.jwksKeys.filter fun key => key.kid = some kid
    if matched.isEmpty then provider.jwksKeys else matched

def verifyWithProvider (token : String) (kid : Option String) (provider : CachedProvider Key) :
    Except RegistryError IdentityTokenClaims :=
  if (provider.keysToTry kid).isEmpty then
    .error (.tokenInvalid "no matching JWKS key found for token")
  else match (provider.keysToTry kid).findSome? (lib.decode now token provider) with
    | some claims => .ok claims
    | none => .error (.tokenInvalid "token signature verification failed against all provider keys")

def OidcProviderManager.validateTokenWithRediscovery (manager : OidcProviderManager Key)
    (token : String) (kid : Option String) (issuer : String) :
    Except RegistryError IdentityTokenClaims × OidcProviderManager Key :=
  match manager.findConfig issuer with
  | none => (.error (.tokenInvalid ("no OIDC provider configured for issuer: " ++ issuer)), manager)
  | some config =>
    match manager.discoverProvider lib fetch now config with
    | .error reason =>
      (.error (.tokenInvalid ("failed to discover OIDC provider " ++ issuer ++ ": " ++ reason)), manager)
    | .ok manager =>
      match manager.providers.lookup issuer with
      | none =>
        (.error (.tokenInvalid ("provider " ++ issuer ++ " not available after discovery")), manager)
      | some provider => (verifyWithProvider lib now token kid provider, manager)

/-- The claims a token says it carries, read before any verification. -/
def unverifiedClaims (token : String) : Except RegistryError IdentityTokenClaims :=
  (payloadDocument lib "JWT must have 3 parts" "invalid base64 in JWT payload"
    "failed to parse token claims: " token).bind fun document =>
      match IdentityTokenClaims.decode document with
      | none => .error (.tokenInvalid ("failed to parse token claims: " ++ lib.rejection document))
      | some claims => .ok claims

/-- `validate_token`, with the cache of providers it leaves. -/
def OidcProviderManager.validateToken (manager : OidcProviderManager Key) (token : String) :
    Except RegistryError IdentityTokenClaims × OidcProviderManager Key :=
  match lib.decodeHeader token with
  | .error reason => (.error (.tokenInvalid ("invalid JWT header: " ++ reason)), manager)
  | .ok kid =>
    match unverifiedClaims lib token with
    | .error error => (.error error, manager)
    | .ok unverified =>
      match manager.providers.lookup unverified.iss with
      | none => manager.validateTokenWithRediscovery lib fetch now token kid unverified.iss
      | some provider =>
        if manager.refreshIntervalSecs < (now - provider.lastRefreshed).tdiv 1000000000 then
          let refreshed := (manager.refreshProvider lib fetch now unverified.iss).toOption.getD manager
          match refreshed.providers.lookup unverified.iss with
          | some provider => (verifyWithProvider lib now token kid provider, refreshed)
          | none =>
            (.error (.tokenInvalid "OIDC provider keys unavailable after refresh"), refreshed)
        else (verifyWithProvider lib now token kid provider, manager)

/-- The issuer is configured, or has been discovered. -/
def OidcProviderManager.knows (manager : OidcProviderManager Key) (issuer : String) : Bool :=
  decide (issuer ∈ manager.providers) || manager.configs.any fun config => config.issuerUrl = issuer

end Manager

/-- The issuer a document names; the empty text when it names none. -/
def issuerOf (document : Json) : String := ((document.get "iss").bind Json.asStr).getD ""

section Verified

variable {Key : Type} {lib : JwtLib Key} {fetch : String → Except String (List JwkEntry)}
  {now : Time} {manager : OidcProviderManager Key} {token : String}

/-- The signature verifies under a cached key of the issuer. -/
def SignedBy (lib : JwtLib Key) (manager : OidcProviderManager Key) (issuer token : String) :
    Prop :=
  ∃ provider key, manager.providers.lookup issuer = some provider ∧ key ∈ provider.jwksKeys ∧
    lib.signed key.decodingKey key.algorithm token = true

theorem carries_of_payloadDocument
    (read : payloadDocument lib notJwt badBase64 unparsable token = .ok document) :
    Carries lib token document := by
  unfold payloadDocument at read
  split at read
  · rename_i header payload signature parts
    split at read
    · cases read
    rename_i bytes decoded
    cases parsed : lib.parse bytes <;> rw [parsed] at read <;> cases read
    exact ⟨header, payload, signature, bytes, parts, decoded, parsed⟩
  · cases read

theorem Carries.unique (one : Carries lib token first) (two : Carries lib token second) : first = second := by
  obtain ⟨_, payload, _, bytes, parts, decoded, parsed⟩ := one
  obtain ⟨_, payload', _, bytes', parts', decoded', parsed'⟩ := two
  obtain ⟨_, rfl, _⟩ : _ ∧ payload = payload' ∧ _ := by
    simpa using parts.symm.trans parts'
  cases decoded.symm.trans decoded'
  exact Except.ok.inj (parsed.symm.trans parsed')

theorem IdentityTokenClaims.iss_of_decode (read : IdentityTokenClaims.decode (.obj fields) = some claims) :
    claims.iss = issuerOf (.obj fields) := by
  unfold IdentityTokenClaims.decode at read
  split at read
  · rename_i sub iss exp record
    have named := (Json.structFields_cons (Json.structFields_cons record).2).1
    obtain ⟨text, present, rest⟩ := Option.bind_eq_some_iff.mp read
    obtain ⟨_, _, rfl⟩ := Option.map_eq_some_iff.mp rest
    rw [issuerOf, named]
    exact (Json.getD_of_strOrDefault present).symm
  · cases read

private theorem decode_signed (accepted : lib.decode now token provider key = some claims) :
    lib.signed key.decodingKey key.algorithm token = true ∧ ∃ fields, Carries lib token (.obj fields) := by
  unfold JwtLib.decode at accepted
  split at accepted
  · rename_i signed
    split at accepted
    · rename_i fields read
      exact ⟨signed, fields, carries_of_payloadDocument read⟩
    · cases accepted
  · cases accepted

private theorem mem_jwksKeys_of_keysToTry {provider : CachedProvider Key} {kid : Option String}
    {key : CachedJwk Key} (tried : key ∈ provider.keysToTry kid) : key ∈ provider.jwksKeys := by
  unfold CachedProvider.keysToTry at tried
  split at tried
  · exact tried
  dsimp only at tried
  split at tried
  · exact tried
  · exact (List.mem_filter.mp tried).1

private theorem verifyWithProvider_signed {kid : Option String} {provider : CachedProvider Key}
    {claims : IdentityTokenClaims} (accepted : verifyWithProvider lib now token kid provider = .ok claims) :
    (∃ key ∈ provider.jwksKeys, lib.signed key.decodingKey key.algorithm token = true) ∧
      ∃ fields, Carries lib token (.obj fields) := by
  unfold verifyWithProvider at accepted
  split at accepted
  · cases accepted
  split at accepted
  · rename_i found
    obtain ⟨key, tried, decoded⟩ := List.exists_of_findSome?_eq_some found
    obtain ⟨signed, carried⟩ := decode_signed decoded
    exact ⟨⟨key, mem_jwksKeys_of_keysToTry tried, signed⟩, carried⟩
  · cases accepted

/-- A validated token is signed by the issuer that its claims name. -/
theorem validateToken_signed (accepted : (manager.validateToken lib fetch now token).1 = .ok claims) :
    ∃ fields, Carries lib token (.obj fields) ∧
      SignedBy lib (manager.validateToken lib fetch now token).2 (issuerOf (.obj fields)) token := by
  have close : ∀ {kid : Option String} {provider : CachedProvider Key}
      {after : OidcProviderManager Key} {unverified : IdentityTokenClaims},
      unverifiedClaims lib token = .ok unverified →
      after.providers.lookup unverified.iss = some provider →
      verifyWithProvider lib now token kid provider = .ok claims →
      ∃ fields, Carries lib token (.obj fields) ∧ SignedBy lib after (issuerOf (.obj fields)) token := by
    intro kid provider after unverified read found verified
    obtain ⟨⟨key, member, signed⟩, fields, carried⟩ := verifyWithProvider_signed verified
    obtain ⟨document, parsed, typed⟩ := bind_ok read
    obtain rfl := (carries_of_payloadDocument parsed).unique carried
    have named : unverified.iss = issuerOf (.obj fields) := by
      split at typed
      · cases typed
      · rename_i decoded
        cases typed
        exact IdentityTokenClaims.iss_of_decode decoded
    exact ⟨fields, carried, provider, key, named ▸ found, member, signed⟩
  revert accepted
  unfold OidcProviderManager.validateToken
  split
  · intro accepted
    cases accepted
  split
  · intro accepted
    cases accepted
  rename_i unverified read
  split
  · unfold OidcProviderManager.validateTokenWithRediscovery
    split
    · intro accepted
      cases accepted
    split
    · intro accepted
      cases accepted
    split
    · intro accepted
      cases accepted
    · rename_i provider found
      exact fun accepted => close read found accepted
  · rename_i provider found
    split
    · dsimp only
      split
      · rename_i provider found
        exact fun accepted => close read found accepted
      · intro accepted
        cases accepted
    · exact fun accepted => close read found accepted

end Verified

end SpectonCr.Auth
