import SpectonCr.Auth.Login
import SpectonCr.Base.Run

namespace SpectonCr.Auth

/-- `jsonwebtoken::decode` with the service's own key, issuer and audience. -/
structure TokenDecoder (state : AppState) where
  /-- The claims of a token with a valid signature, issuer and audience. -/
  claimsOf : String → Option TokenClaims
  /-- The checks against the clock. -/
  current : Int → TokenClaims → Bool
  rejection : Int → String → String
  claimsOf_encode : ∀ claims token, claims.iss = state.issuer → claims.aud = state.audience →
    state.encode claims = some token → claimsOf token = some claims

def TokenDecoder.decode {state : AppState} (decoder : TokenDecoder state) (now : Time)
    (token : String) : Option TokenClaims :=
  (decoder.claimsOf token).filter (decoder.current now.timestamp)

structure IntrospectionResponse where
  active : Bool
  sub : Option String
  (tenantId projectId : Option Uuid)
  (exp iat : Option Int)
  (scope iss jti : Option String)

structure CredentialExchangeResponse where
  (username password : String)
  expiresAt : Time

structure RefreshToken where
  subject : String
  tenantId : Uuid
  projectId : Option Uuid
  role : Role
  scopes : List TokenScope
  expiresAt : Time
  revoked : Bool

/-- What revocation writes: `revoked_tokens` and `refresh_tokens`. -/
structure Revocations where
  revokedTokens : Finset String
  refreshTokens : Table String RefreshToken

def revokeTokenHandler (revocations : Revocations) (tokenId : String) : Revocations :=
  { revokedTokens := insert tokenId revocations.revokedTokens
    refreshTokens :=
      match revocations.refreshTokens.lookup tokenId with
      | none => revocations.refreshTokens
      | some token => revocations.refreshTokens.insert tokenId { token with revoked := true } }

def introspectedScope (scope : TokenScope) : String :=
  let actions := String.intercalate "," (scope.actions.map Action.debug)
  if scope.repository = "" then actions else scope.repository ++ ":" ++ actions

section Handlers

variable {state : AppState} (decoder : TokenDecoder state)

def introspectToken (now : Time) (token : String) : IntrospectionResponse :=
  match decoder.decode now token with
  | some claims =>
    { active := true
      sub := some claims.sub
      tenantId := some claims.tenantId
      projectId := claims.projectId
      exp := some claims.exp
      iat := some claims.iat
      scope := some (String.intercalate " " (claims.scopes.map introspectedScope))
      iss := some claims.iss
      jti := some claims.jti }
  | none => ⟨false, none, none, none, none, none, none, none, none⟩

/-- The claims of a credential: those of the session with a lifetime of its own. -/
def credentialClaims (state : AppState) (session : TokenClaims) (now : Time) (jti : Uuid) :
    TokenClaims :=
  { session with
    iss := state.issuer
    aud := state.audience
    exp := now.timestamp + 300
    iat := now.timestamp
    jti := jti.hyphenated }

def credentialExchange (now : Time) (jti : Uuid) (sessionToken : String) :
    Except RegistryError CredentialExchangeResponse :=
  match decoder.decode now sessionToken with
  | none =>
    .error (.tokenInvalid ("invalid session token: " ++ decoder.rejection now.timestamp sessionToken))
  | some session =>
    match state.encode (credentialClaims state session now jti) with
    | none => .error (.internal "token signing failed")
    | some password => .ok ⟨session.sub, password, now + 300 * 1000000000⟩

def refreshTokenHandler (state : AppState) (revocations : Revocations) (now : Time) (jti : Uuid)
    (refreshToken : String) : Except RegistryError IssuedToken :=
  match revocations.refreshTokens.lookup refreshToken with
  | none => .error (.tokenInvalid "invalid refresh token")
  | some token =>
    if token.revoked then .error (.tokenInvalid "refresh token has been revoked")
    else if token.expiresAt < now then .error .tokenExpired
    else
      let claims : TokenClaims :=
        { iss := state.issuer
          sub := token.subject
          aud := state.audience
          exp := expiryOf now state.tokenTtlSeconds
          iat := now.timestamp
          jti := jti.hyphenated
          tenantId := token.tenantId
          tenantName := ((state.tenants.entries.map (·.2)).find? fun tenant =>
            tenant.id = token.tenantId).map Tenant.storagePrefix
          projectId := token.projectId
          role := token.role
          scopes := token.scopes }
      match state.encode claims with
      | none => .error (.internal "token signing failed")
      | some text => .ok ⟨claims, text, state.tokenTtlSeconds, now⟩

end Handlers

/-- The calls of a run, with the instant and the identifier each draws. -/
inductive TokenEvent where
  | revoke (tokenId : String)
  | introspect (token : String) (now : Time)
  | exchange (sessionToken : String) (now : Time) (jti : Uuid)
  | refresh (refreshToken : String) (now : Time) (jti : Uuid)

def tokenStep (revocations : Revocations) : TokenEvent → Revocations
  | .revoke tokenId => revokeTokenHandler revocations tokenId
  | _ => revocations

/-- What has been revoked stays so, and nothing else is. -/
theorem mem_revokedTokens_after {start : Revocations} {events : List TokenEvent} {id : String} :
    id ∈ (Run.after tokenStep start events).revokedTokens ↔
      id ∈ start.revokedTokens ∨ .revoke id ∈ events := by
  induction events generalizing start with
  | nil => simp [Run.after]
  | cons event rest ih =>
    have later : id ∈ (Run.after tokenStep start (event :: rest)).revokedTokens ↔
        id ∈ (tokenStep start event).revokedTokens ∨ .revoke id ∈ rest := ih
    rw [later]
    cases event with
    | revoke tokenId => simp [tokenStep, revokeTokenHandler, or_assoc, or_left_comm]
    | _ => simp [tokenStep]

/-- The identifier is not one of a token that can be refreshed. -/
def Revocations.Closed (id : String) (revocations : Revocations) : Prop :=
  ∀ token, revocations.refreshTokens.lookup id = some token → token.revoked = true

private theorem closed_revoke (closed : tokenId = other ∨ revocations.Closed tokenId) :
    (revokeTokenHandler revocations other).Closed tokenId := by
  intro token found
  simp only [revokeTokenHandler] at found
  split at found
  · rename_i absent
    rcases closed with rfl | closed
    · cases absent.symm.trans found
    · exact closed token found
  · rcases Table.lookup_insert_cases found with ⟨_, rfl⟩ | ⟨apart, kept⟩
    · rfl
    · exact closed.resolve_left apart token kept

/-- A revoked token is not refreshed, whatever calls come in between. -/
theorem refresh_after_revoke (state : AppState) (start : Revocations) (id : String)
    (events : List TokenEvent) (now : Time) (jti : Uuid) :
    ∃ error, refreshTokenHandler state (Run.after tokenStep (revokeTokenHandler start id) events) now jti id =
      .error error := by
  have closed : (Run.after tokenStep (revokeTokenHandler start id) events).Closed id := by
    refine Run.after_invariant (Revocations.Closed id) ?_ (closed_revoke (.inl rfl)) (Run.along_true _ _)
    rintro later (other | _ | _ | _) closed _
    · exact closed_revoke (.inr closed)
    all_goals exact closed
  unfold refreshTokenHandler
  split
  · exact ⟨_, rfl⟩
  · rename_i token found
    exact ⟨_, if_pos (closed token found)⟩

section Final

variable {state : AppState} (decoder : TokenDecoder state)

/-- A token with a revoked identifier is inactive, and is not exchanged. -/
def Final (revocations : Revocations) : TokenEvent → Prop
  | .introspect token now => ∀ claims, decoder.claimsOf token = some claims →
    claims.jti ∈ revocations.revokedTokens → (introspectToken decoder now token).active = false
  | .exchange token now jti => ∀ claims, decoder.claimsOf token = some claims →
    claims.jti ∈ revocations.revokedTokens → ∃ error, credentialExchange decoder now jti token = .error error
  | _ => True

/-- One exchange of the run turned the first token into the second. -/
def Exchanged (events : List TokenEvent) (token password : String) : Prop :=
  ∃ now jti response, .exchange token now jti ∈ events ∧
    credentialExchange decoder now jti token = .ok response ∧ response.password = password

/-- No chain of exchanges outlives the token it starts from. -/
def NeverProlonged (events : List TokenEvent) : Prop :=
  ∀ token password claims derived, decoder.claimsOf token = some claims →
    Relation.ReflTransGen (Exchanged decoder events) token password →
    decoder.claimsOf password = some derived → derived.exp ≤ claims.exp

/-- A token with a revoked identifier is presented only when it does not decode,
or cannot be exchanged for want of a signature. -/
def PresentedLate (revocations : Revocations) : TokenEvent → Prop
  | .introspect token now => ∀ claims, decoder.claimsOf token = some claims →
    claims.jti ∈ revocations.revokedTokens → decoder.current now.timestamp claims = false
  | .exchange token now jti => ∀ claims, decoder.claimsOf token = some claims →
    claims.jti ∈ revocations.revokedTokens → decoder.current now.timestamp claims = false ∨
        state.encode (credentialClaims state claims now jti) = none
  | _ => True

/-- A session is exchanged no later than the lifetime of a credential before its end. -/
def ExchangedEarly : TokenEvent → Prop
  | .exchange token now jti => ∀ claims, decoder.decode now token = some claims →
    state.encode (credentialClaims state claims now jti) ≠ none → now.timestamp + 300 ≤ claims.exp
  | _ => True

variable {decoder}

theorem decode_eq_some : decoder.decode now token = some claims ↔
      decoder.claimsOf token = some claims ∧ decoder.current now.timestamp claims = true := by
  rw [TokenDecoder.decode, Option.filter_eq_some_iff]

theorem decode_eq_none (read : decoder.claimsOf token = some claims) :
    decoder.decode now token = none ↔ decoder.current now.timestamp claims = false := by
  simp [TokenDecoder.decode, read, Option.filter]

theorem introspectToken_active :
    (introspectToken decoder now token).active = false ↔ decoder.decode now token = none := by
  unfold introspectToken
  split
  · rename_i decoded
    simp [decoded]
  · rename_i refused
    simp [refused]

theorem credentialExchange_ok : credentialExchange decoder now jti token = .ok response ↔
      ∃ session, decoder.decode now token = some session ∧
        state.encode (credentialClaims state session now jti) = some response.password ∧
        response = ⟨session.sub, response.password, now + 300 * 1000000000⟩ := by
  unfold credentialExchange
  cases decoded : decoder.decode now token with
  | none => simp
  | some session =>
    cases signed : state.encode (credentialClaims state session now jti) with
    | none => simp [signed]
    | some password =>
      simp only [signed, Except.ok.injEq, Option.some.injEq, exists_eq_left']
      constructor
      · rintro rfl
        exact ⟨rfl, rfl⟩
      · rintro ⟨rfl, same⟩
        exact same.symm

theorem final_iff (revocations : Revocations) (event : TokenEvent) :
    Final decoder revocations event ↔ PresentedLate decoder revocations event := by
  cases event with
  | revoke tokenId | refresh refreshToken now jti => exact Iff.rfl
  | introspect token now =>
    refine forall_congr' fun claims => forall_congr' fun read => forall_congr' fun _ => ?_
    rw [introspectToken_active, decode_eq_none read]
  | exchange token now jti =>
    refine forall_congr' fun claims => forall_congr' fun read => forall_congr' fun _ => ?_
    unfold credentialExchange
    cases decoded : decoder.decode now token with
    | none => simp [(decode_eq_none read).mp decoded]
    | some session =>
      obtain ⟨same, current⟩ := decode_eq_some.mp decoded
      cases read.symm.trans same
      cases signed : state.encode (credentialClaims state claims now jti) with
      | none => simp [signed]
      | some password => simp [signed, current]

private theorem exp_le_of_chain (early : ∀ event ∈ events, ExchangedEarly decoder event)
    (read : decoder.claimsOf token = some claims)
    (chain : Relation.ReflTransGen (Exchanged decoder events) token password) :
    ∀ derived, decoder.claimsOf password = some derived → derived.exp ≤ claims.exp := by
  induction chain with
  | refl =>
    intro derived again
    cases read.symm.trans again
    exact le_refl _
  | tail _ last ih =>
    intro derived final
    obtain ⟨now, jti, response, member, success, rfl⟩ := last
    obtain ⟨session, decoded, signed, _⟩ := credentialExchange_ok.mp success
    have carried := decoder.claimsOf_encode _ _ rfl rfl signed
    cases carried.symm.trans final
    have limit : now.timestamp + 300 ≤ session.exp := early _ member session decoded (by simp [signed])
    exact le_trans limit (ih session (decode_eq_some.mp decoded).1)

theorem neverProlonged_iff (events : List TokenEvent) :
    NeverProlonged decoder events ↔ ∀ event ∈ events, ExchangedEarly decoder event := by
  constructor
  · intro bounded event member
    cases event with
    | exchange token now jti =>
      intro claims decoded signing
      obtain ⟨password, signed⟩ := Option.ne_none_iff_exists'.mp signing
      have success : credentialExchange decoder now jti token =
          .ok ⟨claims.sub, password, now + 300 * 1000000000⟩ :=
        credentialExchange_ok.mpr ⟨claims, decoded, signed, rfl⟩
      exact bounded token password claims _ (decode_eq_some.mp decoded).1
        (.single ⟨now, jti, _, member, success, rfl⟩)
        (decoder.claimsOf_encode _ _ rfl rfl signed)
    | _ => trivial
  · intro early token password claims derived read chain
    exact exp_le_of_chain early read chain derived

/-- Revocation is final in exactly the runs where revoked tokens come too late to decode and no
session is exchanged in its last five minutes. -/
theorem revocation_final_iff (state : AppState) (decoder : TokenDecoder state)
    (start : Revocations) (events : List TokenEvent) :
    (Run.Along tokenStep (Final decoder) start events ∧ NeverProlonged decoder events) ↔
      Run.Along tokenStep (fun revocations event =>
        PresentedLate decoder revocations event ∧ ExchangedEarly decoder event) start events := by
  rw [Run.along_and_forall, neverProlonged_iff, Run.along_congr final_iff]

end Final

/-- A session that ends 300 seconds after the epoch. -/
def sessionClaims : TokenClaims :=
  ⟨"specton-auth", "eve", "specton-registry", 300, 0, "j", .nil, none, none, .reader, []⟩

/-- The credential for it, drawn after 200 seconds. -/
def lateClaims : TokenClaims := credentialClaims demoState sessionClaims 200000000000 .nil

/-- A service that signs the two of them. -/
def signingState : AppState :=
  { demoState with
    encode := fun claims =>
      if claims = sessionClaims then some "session"
      else if claims = lateClaims then some "credential"
      else none }

def signingDecoder : TokenDecoder signingState where
  claimsOf token :=
    if token = "session" then some sessionClaims
    else if token = "credential" then some lateClaims
    else none
  current now claims := now ≤ claims.exp + 60
  rejection _ _ := "ExpiredSignature"
  claimsOf_encode := by
    intro claims token _ _ signed
    simp only [signingState] at signed
    split at signed
    · rename_i session
      obtain rfl := Option.some.inj signed
      simp [session]
    split at signed
    · rename_i late
      obtain rfl := Option.some.inj signed
      simp [late]
    · cases signed

/-- The identifier is revoked, then the token is introspected and exchanged. -/
def revokedRun : List TokenEvent :=
  [.revoke "j", .introspect "session" 200000000000, .exchange "session" 200000000000 .nil]

/-- The revoked token is active, is exchanged, and its credential outlives it. -/
theorem revoked_token_exchanged : "j" ∈ (Run.after tokenStep ⟨∅, ∅⟩ [.revoke "j"]).revokedTokens ∧
      (introspectToken signingDecoder 200000000000 "session").active = true ∧
      (introspectToken signingDecoder 200000000000 "session").jti = some "j" ∧
      credentialExchange signingDecoder 200000000000 .nil "session" =
        .ok ⟨"eve", "credential", 500000000000⟩ ∧
      ¬ Run.Along tokenStep (Final signingDecoder) ⟨∅, ∅⟩ revokedRun ∧
      ¬ NeverProlonged signingDecoder revokedRun := by
  have active : (introspectToken signingDecoder 200000000000 "session").active = true ∧
      (introspectToken signingDecoder 200000000000 "session").jti = some "j" := by
    decide +kernel
  have exchanged : credentialExchange signingDecoder 200000000000 .nil "session" =
      .ok ⟨"eve", "credential", 500000000000⟩ := by
    rfl
  refine ⟨mem_revokedTokens_after.mpr (by simp), active.1, active.2, exchanged, ?_, ?_⟩
  · rintro ⟨_, final, _⟩
    have inactive := final sessionClaims rfl (by decide)
    rw [active.1] at inactive
    cases inactive
  · intro bounded
    have early := bounded "session" "credential" sessionClaims lateClaims rfl
      (.single ⟨200000000000, .nil, _, by simp [revokedRun], exchanged, rfl⟩) rfl
    exact absurd early (by decide)

end SpectonCr.Auth
