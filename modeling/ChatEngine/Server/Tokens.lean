import Mathlib.Data.Finset.Sort
import ChatEngine.Models.Payloads

/-!
# Access tokens and principals

The two verifiers of access tokens, the service that issues them, and the principals they make.
What PyJWT does is a parameter: `Jwt` holds the calls, `Jwt.Documented` and `Jwt.Encodes` what
its documentation says of them.

* `Principal` and `Principal.allows`;
* `principalFromPayload`, what is read off a payload whose signature has been verified;
* `AccessTokenService.issue` and `AccessTokenService.verify`, the shared-secret profile;
* `JwksVerifier.build` and `JwksVerifier.verify`, the profile with public keys;
* `authenticateCredentials`, the principal of a request, and `authenticateCredentials_cases`, whom
  it may be;
* `issued_token_window`: an issued token is accepted exactly in its lifetime widened by the clock
  skew, and grants exactly what it was issued for.
-/

namespace ChatEngine
namespace Server

open Lib
open Models

/-! ## Principals -/

/-- `Permission`, whose texts are `ALLOWED_PERMISSIONS`. -/
inductive Permission where
  | roomRead
  | roomWrite
  | roomPin
  | roomReadReceipts
  | admin
  deriving DecidableEq

def Permission.text : Permission → String
  | roomRead => "room:read"
  | roomWrite => "room:write"
  | roomPin => "room:pin"
  | roomReadReceipts => "room:read-receipts"
  | admin => "admin"

def Permission.ofText? (s : String) : Option Permission :=
  [roomRead, roomWrite, roomPin, roomReadReceipts, admin].find? fun p => p.text = s

@[simp] theorem Permission.ofText?_text (p : Permission) : ofText? p.text = some p := by
  cases p <;> decide

theorem Permission.text_of_ofText? {s : String} {p : Permission} (h : ofText? s = some p) :
    p.text = s := by
  have hfound := List.find?_some h
  simpa using hfound

theorem Permission.text_injective : Function.Injective Permission.text := by
  intro p q h
  have hp := Permission.ofText?_text p
  rw [h, Permission.ofText?_text] at hp
  exact (Option.some.inj hp).symm

/-- How a principal proved who it is. -/
inductive Authentication where
  | none
  | apiKey
  | token
  deriving DecidableEq

/-- Authenticated actor and the rooms and actions it may access. -/
structure Principal where
  subject : Option String
  permissions : Finset Permission
  rooms : Finset String
  authentication : Authentication
  deriving DecidableEq

/-- `is_admin`. -/
def Principal.isAdmin (p : Principal) : Bool := decide (Permission.admin ∈ p.permissions)

/-- `allows`. -/
def Principal.allows (p : Principal) (permission : Permission) (roomId : Option String) : Bool :=
  if p.isAdmin = true then true
  else if permission ∉ p.permissions then false
  else
    match roomId with
    | none => true
    | some room => decide (room ∈ p.rooms)

/-- `local_operator`. -/
def Principal.localOperator : Principal := ⟨none, {.admin}, ∅, .none⟩

/-- `api_key_operator`. -/
def Principal.apiKeyOperator : Principal := ⟨none, {.admin}, ∅, .apiKey⟩

theorem Principal.allows_iff {p : Principal} {permission : Permission} {room : String} :
    p.allows permission (some room) = true ↔
      p.isAdmin = true ∨ (permission ∈ p.permissions ∧ room ∈ p.rooms) := by
  unfold Principal.allows
  by_cases hadmin : p.isAdmin = true
  · simp [hadmin]
  · by_cases hpermission : permission ∈ p.permissions <;> simp [hadmin, hpermission]

/-- Where no room is asked for, none has to be granted. -/
theorem Principal.allows_anywhere_iff {p : Principal} {permission : Permission} :
    p.allows permission none = true ↔ p.isAdmin = true ∨ permission ∈ p.permissions := by
  unfold Principal.allows
  by_cases hadmin : p.isAdmin = true
  · simp [hadmin]
  · by_cases hpermission : permission ∈ p.permissions <;> simp [hadmin, hpermission]

/-! ## Payloads -/

/-- A decoded JSON value; what a float is does not matter. -/
inductive Json where
  | null
  | bool (b : Bool)
  | int (n : Int)
  | float
  | string (s : String)
  | array (items : List Json)
  | object (members : List (String × Json))

/-- A decoded JSON object. -/
abbrev Dict := List (String × Json)

/-- `dict.get`, where `None` also stands for a missing key. -/
def Dict.get (d : Dict) (key : String) : Json := (d.lookup key).getD .null

/-- `isinstance(value, str)`. -/
def Json.string? : Json → Option String
  | string s => some s
  | _ => none

/-- `isinstance(value, int)` and no `bool`. -/
def Json.int? : Json → Option Int
  | int n => some n
  | _ => none

/-- `_string_list`. -/
def stringList : Json → Option (List String)
  | .array items => do
      let texts ← items.mapM Json.string?
      guard (texts.Nodup ∧ texts.length ≤ 1_000)
      pure texts
  | _ => none

/-- `_validate_rooms`. -/
def validateRooms (rooms : List String) : Option (Finset String) := do
  guard (rooms.toFinset.card ≤ 1_000 ∧ ∀ room ∈ rooms, matchesRoomId room = true)
  pure rooms.toFinset

/-- `_validate_permissions`. -/
def validatePermissions (permissions : List String) : Option (Finset Permission) := do
  let known ← permissions.mapM Permission.ofText?
  pure known.toFinset

/-- What a token must grant: at least one permission, and a room unless it is administrative. -/
def Grants (rooms : Finset String) (permissions : Finset Permission) : Prop :=
  permissions ≠ ∅ ∧ (Permission.admin ∈ permissions ∨ rooms ≠ ∅)

instance (rooms : Finset String) (permissions : Finset Permission) :
    Decidable (Grants rooms permissions) := by
  unfold Grants
  infer_instance

/-- A subject of 1 to 64 characters without surrounding white space. -/
def SubjectOk (subject : String) : Prop :=
  1 ≤ (pyStrip subject).length ∧ (pyStrip subject).length ≤ 64 ∧ pyStrip subject = subject

instance (subject : String) : Decidable (SubjectOk subject) := by
  unfold SubjectOk
  infer_instance

/-- `_principal_from_payload`; every failure is `AuthenticationError("invalid access token")`. -/
def principalFromPayload (payload : Dict) (maxLifetimeSeconds : Int) : Option Principal := do
  let subject ← (payload.get "sub").string?
  guard (SubjectOk subject)
  let issuedAt ← (payload.get "iat").int?
  let _ ← (payload.get "nbf").int?
  let expiresAt ← (payload.get "exp").int?
  guard (issuedAt < expiresAt ∧ expiresAt - issuedAt ≤ maxLifetimeSeconds)
  let tokenId ← (payload.get "jti").string?
  guard (1 ≤ tokenId.length ∧ tokenId.length ≤ 128)
  let rooms ← (stringList (payload.get "rooms")).bind validateRooms
  let permissions ← (stringList (payload.get "permissions")).bind validatePermissions
  guard (Grants rooms permissions)
  pure ⟨subject, permissions, rooms, .token⟩

/-! ## The library -/

/-- The media type of the tokens. -/
def tokenType : String := "samsarix-access+jwt"

/-- The claims every token must carry. -/
def requiredClaims : List String :=
  ["iss", "aud", "sub", "iat", "nbf", "exp", "jti", "rooms", "permissions"]

/-- The calls of PyJWT; a call that raises returns nothing. -/
structure Jwt (κ : Type) where
  encode : (payload : Dict) → (key : κ) → (typ : String) → String
  unverifiedHeader : String → Option Dict
  decode : (token : String) → (key : κ) → (algorithm audience issuer : String) →
    (leeway : Int) → (now : Timestamp) → Option Dict

/-- The registered claims at the time `now`: issued for this audience by this issuer, not before
its time and not expired, each within the leeway. -/
structure ClaimsHold (audience issuer : String) (leeway : Int) (now : Timestamp) (payload : Dict) :
    Prop where
  required : ∀ claim ∈ requiredClaims, payload.get claim ≠ .null
  issuer : payload.get "iss" = .string issuer
  audience : payload.get "aud" = .string audience ∨
    ∃ items, payload.get "aud" = .array items ∧ .string audience ∈ items
  issued : ∀ n, payload.get "iat" = .int n → (n - leeway) * 1_000_000 ≤ now
  notBefore : ∀ n, payload.get "nbf" = .int n → (n - leeway) * 1_000_000 ≤ now
  expires : ∀ n, payload.get "exp" = .int n → now < (n + leeway) * 1_000_000

/-- `decode` documents that it returns a payload only when its registered claims hold. -/
def Jwt.Documented {κ : Type} (jwt : Jwt κ) : Prop :=
  ∀ token key algorithm audience issuer leeway now payload,
    jwt.decode token key algorithm audience issuer leeway now = some payload →
      ClaimsHold audience issuer leeway now payload

/-- What is documented of a token that `encode` made under HS256: its header, and that the same
key gives the payload back while its claims hold, and no other payload at any time. -/
structure Jwt.Encodes {κ : Type} (jwt : Jwt κ) (payload : Dict) (key : κ) : Prop where
  nonempty : jwt.encode payload key tokenType ≠ ""
  header : ∃ header, jwt.unverifiedHeader (jwt.encode payload key tokenType) = some header ∧
    header.get "typ" = .string tokenType ∧ header.get "alg" = .string "HS256"
  decodes : ∀ audience issuer leeway now, ClaimsHold audience issuer leeway now payload →
    jwt.decode (jwt.encode payload key tokenType) key "HS256" audience issuer leeway now =
      some payload
  only : ∀ audience issuer leeway now payload',
    jwt.decode (jwt.encode payload key tokenType) key "HS256" audience issuer leeway now =
      some payload' → payload' = payload

/-! ## The shared-secret profile -/

/-- What `_validate_token_profile` accepts. -/
structure TokenProfile where
  issuer : String
  audience : String
  maxLifetimeSeconds : Int
  clockSkewSeconds : Int
  issuer_ok : (1 ≤ issuer.length ∧ issuer.length ≤ 256) ∧ pyStrip issuer = issuer
  audience_ok : (1 ≤ audience.length ∧ audience.length ≤ 256) ∧ pyStrip audience = audience
  lifetime_ok : 60 ≤ maxLifetimeSeconds ∧ maxLifetimeSeconds ≤ 604_800
  skew_ok : 0 ≤ clockSkewSeconds ∧ clockSkewSeconds ≤ 300

/-- `_validate_token_profile`. -/
def TokenProfile.validate (issuer audience : String) (maxLifetimeSeconds clockSkewSeconds : Int) :
    Except String TokenProfile :=
  if hissuer : (1 ≤ issuer.length ∧ issuer.length ≤ 256) ∧ pyStrip issuer = issuer then
    if haudience : (1 ≤ audience.length ∧ audience.length ≤ 256) ∧ pyStrip audience = audience then
      if hlifetime : 60 ≤ maxLifetimeSeconds ∧ maxLifetimeSeconds ≤ 604_800 then
        if hskew : 0 ≤ clockSkewSeconds ∧ clockSkewSeconds ≤ 300 then
          .ok ⟨issuer, audience, maxLifetimeSeconds, clockSkewSeconds, hissuer, haudience,
            hlifetime, hskew⟩
        else .error "token clock skew must be between 0 and 300 seconds"
      else .error "token maximum lifetime must be between 60 and 604800 seconds"
    else .error "token audience must be 1 to 256 non-whitespace-padded characters"
  else .error "token issuer must be 1 to 256 non-whitespace-padded characters"

/-- `AccessTokenService`. -/
structure AccessTokenService extends TokenProfile where
  secret : String
  secret_ok : 32 ≤ secret.utf8ByteSize ∧ secret.utf8ByteSize ≤ 4_096

/-- The constructor of `AccessTokenService`. -/
def AccessTokenService.build (secret issuer audience : String)
    (maxLifetimeSeconds clockSkewSeconds : Int) : Except String AccessTokenService :=
  if hsecret : 32 ≤ secret.utf8ByteSize ∧ secret.utf8ByteSize ≤ 4_096 then do
    let profile ← TokenProfile.validate issuer audience maxLifetimeSeconds clockSkewSeconds
    pure { profile with secret := secret, secret_ok := hsecret }
  else .error "token signing secret must be between 32 and 4096 bytes"

theorem TokenProfile.validate_self (profile : TokenProfile) :
    validate profile.issuer profile.audience profile.maxLifetimeSeconds
      profile.clockSkewSeconds = .ok profile := by
  unfold TokenProfile.validate
  rw [dif_pos profile.issuer_ok, dif_pos profile.audience_ok, dif_pos profile.lifetime_ok,
    dif_pos profile.skew_ok]

theorem TokenProfile.validate_fields {issuer audience : String}
    {maxLifetimeSeconds clockSkewSeconds : Int} {profile : TokenProfile}
    (h : validate issuer audience maxLifetimeSeconds clockSkewSeconds = .ok profile) :
    profile.issuer = issuer ∧ profile.audience = audience ∧
      profile.maxLifetimeSeconds = maxLifetimeSeconds ∧
      profile.clockSkewSeconds = clockSkewSeconds := by
  unfold TokenProfile.validate at h
  split_ifs at h
  obtain rfl := Except.ok.inj h
  exact ⟨rfl, rfl, rfl, rfl⟩

/-- The constructor accepts exactly the arguments some service is made of. -/
theorem AccessTokenService.build_eq_ok_iff {secret issuer audience : String}
    {maxLifetimeSeconds clockSkewSeconds : Int} {service : AccessTokenService} :
    build secret issuer audience maxLifetimeSeconds clockSkewSeconds = .ok service ↔
      service.secret = secret ∧ service.issuer = issuer ∧ service.audience = audience ∧
        service.maxLifetimeSeconds = maxLifetimeSeconds ∧
        service.clockSkewSeconds = clockSkewSeconds := by
  constructor
  · intro h
    unfold AccessTokenService.build at h
    split_ifs at h with hsecret
    cases hprofile : TokenProfile.validate issuer audience maxLifetimeSeconds clockSkewSeconds with
    | error e =>
      rw [hprofile] at h
      cases h
    | ok profile =>
      rw [hprofile] at h
      obtain rfl := Except.ok.inj h
      exact ⟨rfl, TokenProfile.validate_fields hprofile⟩
  · rintro ⟨rfl, rfl, rfl, rfl, rfl⟩
    unfold AccessTokenService.build
    rw [dif_pos service.secret_ok, TokenProfile.validate_self]
    rfl

/-- The greatest length of a token. -/
def maxTokenLength : Nat := 8_192

/-- `sorted` of a set of texts, as a JSON array. -/
def sortedTexts (texts : Finset String) : Json := .array ((texts.sort (· ≤ ·)).map .string)

/-- The arguments of `issue`; `now` is the clock in seconds and `id` what `uuid4` draws. -/
structure IssueRequest where
  subject : String
  rooms : List String
  permissions : List String
  expiresInSeconds : Int := 3_600
  now : Int
  id : UuidHex

/-- The payload `issue` signs. -/
def AccessTokenService.payload (service : AccessTokenService) (req : IssueRequest)
    (rooms : Finset String) (permissions : Finset Permission) : Dict :=
  [("iss", .string service.issuer), ("aud", .string service.audience),
   ("sub", .string (pyStrip req.subject)), ("iat", .int req.now), ("nbf", .int req.now),
   ("exp", .int (req.now + req.expiresInSeconds)), ("jti", .string req.id.text),
   ("rooms", sortedTexts rooms), ("permissions", sortedTexts (permissions.image Permission.text))]

/-- `AccessTokenService.issue`. -/
def AccessTokenService.issue (jwt : Jwt String) (service : AccessTokenService)
    (req : IssueRequest) : Except String String :=
  let subject := pyStrip req.subject
  if ¬ (1 ≤ subject.length ∧ subject.length ≤ 64) then
    .error "token subject must be between 1 and 64 characters"
  else
    match validateRooms req.rooms, validatePermissions req.permissions with
    | none, _ => .error "token rooms must contain valid room IDs"
    | _, none => .error "token contains an unknown permission"
    | some rooms, some permissions =>
        if permissions = ∅ then .error "token must grant at least one permission"
        else if Permission.admin ∉ permissions ∧ rooms = ∅ then
          .error "non-admin token must grant at least one room"
        else if ¬ (60 ≤ req.expiresInSeconds ∧
            req.expiresInSeconds ≤ service.maxLifetimeSeconds) then
          .error ("token lifetime must be between 60 and " ++ toString service.maxLifetimeSeconds ++
            " seconds")
        else
          let token := jwt.encode (service.payload req rooms permissions) service.secret tokenType
          if maxTokenLength < token.length then
            .error "issued token exceeds the 8192-character transport limit"
          else .ok token

/-- `AccessTokenService.verify`; every failure is `AuthenticationError("invalid access token")`. -/
def AccessTokenService.verify (jwt : Jwt String) (service : AccessTokenService)
    (now : Timestamp) (token : String) : Option Principal := do
  guard (token ≠ "" ∧ token.length ≤ maxTokenLength)
  let header ← jwt.unverifiedHeader token
  guard ((header.get "typ").string? = some tokenType ∧ (header.get "alg").string? = some "HS256")
  let payload ← jwt.decode token service.secret "HS256" service.audience service.issuer
    service.clockSkewSeconds now
  principalFromPayload payload service.maxLifetimeSeconds

/-! ## The profile with public keys -/

/-- The members of a private key. -/
def privateJwkParameters : List String := ["d", "p", "q", "dp", "dq", "qi", "oth", "k"]

/-- The headers no token may have. -/
def forbiddenTokenHeaders : List String := ["b64", "crit", "jku", "x5c", "x5u"]

/-- `_ASYMMETRIC_ALGORITHMS`: the key type of an algorithm, and its curve. -/
def asymmetricAlgorithm? (algorithm : String) : Option (String × Option String) :=
  if algorithm = "EdDSA" then some ("OKP", some "Ed25519")
  else if algorithm = "RS256" then some ("RSA", none)
  else none

/-- `_KEY_ID`. -/
def matchesKeyId (s : String) : Bool :=
  let ok := fun c => isUpper c || isLower c || isDigit c ||
    c == '.' || c == '_' || c == '~' || c == '-'
  matchesKey ok ok 127 s

/-- Why `PyJWK.from_dict` raises. -/
inductive KeyError where
  | missingCryptography
  | other

/-- PyJWT with its key sets. -/
structure JwkLibrary (κ : Type) extends Jwt κ where
  fromDict : (value : Dict) → (algorithm : String) → Except KeyError κ
  keySize : κ → Nat

/-- A key of a loaded set. -/
structure LoadedKey (κ : Type) where
  kid : String
  algorithm : String
  key : κ

def invalidSigningKey : String := "token JWKS contains an invalid public signing key"

/-- `value.get("use") not in {None, "sig"}`, which raises on what cannot be hashed. -/
def checkUse (use : Json) : Except String Unit :=
  match use with
  | .null => .ok ()
  | .array _ | .object _ => .error "unhashable type"
  | _ => if use.string? = some "sig" then .ok () else .error invalidSigningKey

/-- `key_operations is not None and key_operations != ["verify"]`, negated. -/
def verifiesOnly : Json → Bool
  | .null => true
  | .array [operation] => operation.string? = some "verify"
  | _ => false

/-- The end of a round: `PyJWK.from_dict` and the size of an RSA key. -/
def buildKey {κ : Type} (lib : JwkLibrary κ) (members : Dict) (kid algorithm : String) :
    Except String (LoadedKey κ) :=
  match lib.fromDict members algorithm with
  | .error .missingCryptography =>
      .error "asymmetric token verification requires samsarix-chat-engine[asymmetric-auth]"
  | .error .other => .error invalidSigningKey
  | .ok key =>
      if algorithm = "RS256" ∧ lib.keySize key < 2_048 then
        .error "token JWKS RSA keys must be at least 2048 bits"
      else .ok ⟨kid, algorithm, key⟩

/-- What a key must say of itself, up to its use. -/
def KeyNamed {κ : Type} (loaded : List (LoadedKey κ)) (members : Dict) (kid algorithm : String) :
    Prop :=
  matchesKeyId kid = true ∧ kid ∉ loaded.map LoadedKey.kid ∧
    ∃ expected ∈ asymmetricAlgorithm? algorithm,
      (members.get "kty").string? = some expected.1 ∧
        ∀ curve ∈ expected.2, (members.get "crv").string? = some curve

instance {κ : Type} (loaded : List (LoadedKey κ)) (members : Dict) (kid algorithm : String) :
    Decidable (KeyNamed loaded members kid algorithm) := by
  unfold KeyNamed
  infer_instance

/-- One round of the loop over the keys of a set. -/
def loadKey {κ : Type} (lib : JwkLibrary κ) (loaded : List (LoadedKey κ)) (value : Json) :
    Except String (LoadedKey κ) :=
  match value with
  | .object object =>
      let members : Dict := object
      match (members.get "kid").string?, (members.get "alg").string? with
      | some kid, some algorithm =>
          if KeyNamed loaded members kid algorithm then
            match checkUse (members.get "use") with
            | .error e => .error e
            | .ok () =>
                if (∃ name ∈ privateJwkParameters, (members.lookup name).isSome = true) ∨
                    verifiesOnly (members.get "key_ops") = false then
                  .error invalidSigningKey
                else buildKey lib members kid algorithm
          else .error invalidSigningKey
      | _, _ => .error invalidSigningKey
  | _ => .error invalidSigningKey

/-- The loop over the keys of a set. -/
def loadKeys {κ : Type} (lib : JwkLibrary κ) :
    List (LoadedKey κ) → List Json → Except String (List (LoadedKey κ))
  | loaded, [] => .ok loaded
  | loaded, value :: rest =>
      match loadKey lib loaded value with
      | .error e => .error e
      | .ok key => loadKeys lib (loaded ++ [key]) rest

/-- `JWKSAccessTokenVerifier`. -/
structure JwksVerifier (κ : Type) extends TokenProfile where
  keys : List (LoadedKey κ)

/-- The keys of a set. -/
def jwksValues (jwks : Json) : Except String (List Json) :=
  match jwks with
  | .object members =>
      match Dict.get members "keys" with
      | .array values =>
          if 1 ≤ values.length ∧ values.length ≤ 32 then .ok values
          else .error "token JWKS must contain between 1 and 32 public signing keys"
      | _ => .error "token JWKS must contain between 1 and 32 public signing keys"
  | _ => .error "token JWKS must contain between 1 and 32 public signing keys"

/-- The constructor of `JWKSAccessTokenVerifier`. -/
def JwksVerifier.build {κ : Type} (lib : JwkLibrary κ) (jwks : Json) (issuer audience : String)
    (maxLifetimeSeconds clockSkewSeconds : Int) : Except String (JwksVerifier κ) :=
  match TokenProfile.validate issuer audience maxLifetimeSeconds clockSkewSeconds with
  | .error e => .error e
  | .ok profile =>
      match (jwksValues jwks).bind (loadKeys lib []) with
      | .error e => .error e
      | .ok keys => .ok { profile with keys := keys }

/-- `JWKSAccessTokenVerifier.verify`. -/
def JwksVerifier.verify {κ : Type} (lib : JwkLibrary κ) (verifier : JwksVerifier κ)
    (now : Timestamp) (token : String) : Option Principal := do
  guard (token ≠ "" ∧ token.length ≤ maxTokenLength)
  let header ← lib.unverifiedHeader token
  let kid ← (header.get "kid").string?
  let algorithm ← (header.get "alg").string?
  guard ((header.get "typ").string? = some tokenType ∧ matchesKeyId kid = true ∧
    (asymmetricAlgorithm? algorithm).isSome = true ∧
    ∀ name ∈ forbiddenTokenHeaders, header.lookup name = none)
  let key ← verifier.keys.find? fun key => key.kid = kid
  guard (key.algorithm = algorithm)
  let payload ← lib.decode token key.key algorithm verifier.audience verifier.issuer
    verifier.clockSkewSeconds now
  principalFromPayload payload verifier.maxLifetimeSeconds

/-! ## Requests -/

/-- The verifier of a deployment: a shared secret, a key set, or none. -/
inductive TokenVerifier (κ : Type) where
  | none
  | shared (jwt : Jwt String) (service : AccessTokenService)
  | jwks (lib : JwkLibrary κ) (verifier : JwksVerifier κ)

/-- `token_service.verify`. -/
def TokenVerifier.verify {κ : Type} (now : Timestamp) (token : String) :
    TokenVerifier κ → Option Principal
  | none => Option.none
  | shared jwt service => service.verify jwt now token
  | jwks lib verifier => verifier.verify lib now token

/-- `credentials_match`. -/
def credentialsMatch (provided expected : Option String) : Bool :=
  expected.isSome && provided == expected

/-- `_authenticate_credentials`. -/
def authenticateCredentials {κ : Type} (now : Timestamp) (expectedKey : Option String)
    (verifier : TokenVerifier κ) (apiKey bearer : Option String) : Option Principal :=
  if expectedKey = none ∧ (verifier matches .none) then some .localOperator
  else
    -- an empty key does not stand for one
    let operatorCredential := (apiKey.filter (· ≠ "")).or bearer
    if credentialsMatch operatorCredential expectedKey = true then some .apiKeyOperator
    else bearer.bind fun token => verifier.verify now token

/-! ## What a payload is read as -/

theorem string?_eq_some {j : Json} {s : String} : j.string? = some s ↔ j = .string s := by
  cases j <;> simp [Json.string?]

theorem int?_eq_some {j : Json} {n : Int} : j.int? = some n ↔ j = .int n := by
  cases j <;> simp [Json.int?]

/-- Parsing every item of a list, where parsing undoes `g`. -/
theorem mapM_eq_some_map {α β : Type} {f : α → Option β} {g : β → α}
    (hf : ∀ a b, f a = some b ↔ a = g b) {items : List α} {results : List β} :
    items.mapM f = some results ↔ items = results.map g := by
  induction items generalizing results with
  | nil =>
      rw [List.mapM_nil, Option.pure_def, Option.some.injEq]
      constructor
      · rintro rfl
        rfl
      · intro h
        exact (List.map_eq_nil_iff.mp h.symm).symm
  | cons item rest ih =>
      simp only [List.mapM_cons, Option.bind_eq_bind, Option.bind_eq_some_iff, hf, ih,
        Option.pure_def, Option.some.injEq]
      constructor
      · rintro ⟨result, rfl, results, rfl, rfl⟩
        rfl
      · intro h
        cases results with
        | nil => cases h
        | cons result results =>
            obtain ⟨rfl, rfl⟩ := List.cons.inj h
            exact ⟨result, rfl, results, rfl, rfl⟩

/-- A list of distinct texts, and no more than a thousand. -/
theorem stringList_eq_some {j : Json} {texts : List String} :
    stringList j = some texts ↔
      j = .array (texts.map .string) ∧ texts.Nodup ∧ texts.length ≤ 1_000 := by
  cases j with
  | array items =>
      simp only [stringList, Option.bind_eq_bind, Option.bind_eq_some_iff,
        mapM_eq_some_map fun _ _ => string?_eq_some,
        Option.guard_eq_some', Option.pure_def, Option.some.injEq, Json.array.injEq]
      constructor
      · rintro ⟨texts, rfl, _, ⟨hnodup, hlength⟩, rfl⟩
        exact ⟨rfl, hnodup, hlength⟩
      · rintro ⟨rfl, hnodup, hlength⟩
        exact ⟨texts, rfl, (), ⟨hnodup, hlength⟩, rfl⟩
  | _ => simp [stringList]

theorem validateRooms_eq_some {texts : List String} {rooms : Finset String} :
    validateRooms texts = some rooms ↔
      rooms = texts.toFinset ∧ rooms.card ≤ 1_000 ∧ ∀ room ∈ rooms, matchesRoomId room = true := by
  unfold validateRooms
  simp only [Option.bind_eq_bind, Option.bind_eq_some_iff, Option.guard_eq_some', Option.pure_def,
    Option.some.injEq]
  constructor
  · rintro ⟨_, ⟨hcard, hmatch⟩, rfl⟩
    exact ⟨rfl, hcard, fun room hroom => hmatch room (List.mem_toFinset.mp hroom)⟩
  · rintro ⟨rfl, hcard, hmatch⟩
    exact ⟨(), ⟨hcard, fun room hroom => hmatch room (List.mem_toFinset.mpr hroom)⟩, rfl⟩

/-- Known permissions, as the set of those whose text is listed. -/
theorem validatePermissions_eq_some {texts : List String} {permissions : Finset Permission} :
    validatePermissions texts = some permissions ↔
      (∀ text ∈ texts, ∃ p, Permission.ofText? text = some p) ∧
        ∀ p, p ∈ permissions ↔ p.text ∈ texts := by
  unfold validatePermissions
  simp only [Option.bind_eq_bind, Option.bind_eq_some_iff, Option.pure_def, Option.some.injEq]
  have hparse : ∀ text p, Permission.ofText? text = some p ↔ text = p.text := by
    intro text p
    constructor
    · intro h
      exact (Permission.text_of_ofText? h).symm
    · rintro rfl
      exact p.ofText?_text
  simp only [mapM_eq_some_map hparse]
  constructor
  · rintro ⟨known, rfl, rfl⟩
    refine ⟨?_, ?_⟩
    · intro text htext
      obtain ⟨p, -, rfl⟩ := List.mem_map.mp htext
      exact ⟨p, p.ofText?_text⟩
    · intro p
      rw [List.mem_toFinset, List.mem_map_of_injective Permission.text_injective]
  · rintro ⟨hknown, hmem⟩
    have hsplit : ∃ known : List Permission, texts = known.map Permission.text := by
      clear hmem
      induction texts with
      | nil => exact ⟨[], rfl⟩
      | cons text rest ih =>
          obtain ⟨p, hp⟩ := hknown text List.mem_cons_self
          obtain ⟨known, rfl⟩ := ih fun t ht => hknown t (List.mem_cons_of_mem _ ht)
          exact ⟨p :: known, by rw [List.map_cons, Permission.text_of_ofText? hp]⟩
    obtain ⟨known, rfl⟩ := hsplit
    refine ⟨known, rfl, ?_⟩
    ext p
    rw [hmem, List.mem_toFinset, List.mem_map_of_injective Permission.text_injective]

/-- What a payload must hold to be read as a principal. -/
structure ReadsAs (payload : Dict) (maxLifetimeSeconds : Int) (p : Principal) : Prop where
  subject : ∃ subject, payload.get "sub" = .string subject ∧ SubjectOk subject ∧
    p.subject = some subject
  lifetime : ∃ issuedAt notBefore expiresAt, payload.get "iat" = .int issuedAt ∧
    payload.get "nbf" = .int notBefore ∧ payload.get "exp" = .int expiresAt ∧
    issuedAt < expiresAt ∧ expiresAt - issuedAt ≤ maxLifetimeSeconds
  tokenId : ∃ tokenId, payload.get "jti" = .string tokenId ∧ 1 ≤ tokenId.length ∧
    tokenId.length ≤ 128
  rooms : ∃ texts, stringList (payload.get "rooms") = some texts ∧
    validateRooms texts = some p.rooms
  permissions : ∃ texts, stringList (payload.get "permissions") = some texts ∧
    validatePermissions texts = some p.permissions
  grants : Grants p.rooms p.permissions
  token : p.authentication = .token

theorem principalFromPayload_eq_some {payload : Dict} {maxLifetimeSeconds : Int} {p : Principal} :
    principalFromPayload payload maxLifetimeSeconds = some p ↔
      ReadsAs payload maxLifetimeSeconds p := by
  unfold principalFromPayload
  simp only [Option.bind_eq_bind, Option.bind_eq_some_iff, string?_eq_some, int?_eq_some,
    Option.guard_eq_some', Option.pure_def, Option.some.injEq]
  constructor
  · rintro ⟨subject, hsubject, _, hok, issuedAt, hissued, notBefore, hbefore, expiresAt, hexpires, _,
      hlifetime, tokenId, hid, _, hlength, rooms, ⟨roomTexts, hroomTexts, hrooms⟩, permissions,
      ⟨permissionTexts, hpermissionTexts, hpermissions⟩, _, hgrants, rfl⟩
    exact ⟨⟨subject, hsubject, hok, rfl⟩,
      ⟨issuedAt, notBefore, expiresAt, hissued, hbefore, hexpires, hlifetime⟩,
      ⟨tokenId, hid, hlength⟩, ⟨roomTexts, hroomTexts, hrooms⟩,
      ⟨permissionTexts, hpermissionTexts, hpermissions⟩, hgrants, rfl⟩
  · rintro ⟨⟨subject, hsubject, hok, hp⟩, ⟨issuedAt, notBefore, expiresAt, hissued, hbefore,
      hexpires, hlifetime⟩, ⟨tokenId, hid, hlength⟩, ⟨roomTexts, hroomTexts, hrooms⟩,
      ⟨permissionTexts, hpermissionTexts, hpermissions⟩, hgrants, htoken⟩
    refine ⟨subject, hsubject, (), hok, issuedAt, hissued, notBefore, hbefore, expiresAt, hexpires,
      (), hlifetime, tokenId, hid, (), hlength, _, ⟨roomTexts, hroomTexts, hrooms⟩, _,
      ⟨permissionTexts, hpermissionTexts, hpermissions⟩, (), hgrants, ?_⟩
    rw [← hp, ← htoken]

/-! ## Issuing and verifying -/

section Issue

variable {jwt : Jwt String} {service : AccessTokenService} {req : IssueRequest}
  {rooms : Finset String} {permissions : Finset Permission} {token : String}

theorem issue_ok (h : service.issue jwt req = .ok token) :
    ∃ rooms permissions, validateRooms req.rooms = some rooms ∧
      validatePermissions req.permissions = some permissions ∧
      (1 ≤ (pyStrip req.subject).length ∧ (pyStrip req.subject).length ≤ 64) ∧
      Grants rooms permissions ∧
      (60 ≤ req.expiresInSeconds ∧ req.expiresInSeconds ≤ service.maxLifetimeSeconds) ∧
      token = jwt.encode (service.payload req rooms permissions) service.secret tokenType ∧
      token.length ≤ maxTokenLength := by
  unfold AccessTokenService.issue at h
  dsimp only at h
  split at h
  case isTrue => cases h
  case isFalse hsubject =>
    split at h
    case h_1 => cases h
    case h_2 => cases h
    case h_3 rooms permissions hrooms hpermissions =>
      split at h
      case isTrue => cases h
      case isFalse hsome =>
        split at h
        case isTrue => cases h
        case isFalse hroom =>
          split at h
          case isTrue => cases h
          case isFalse hlifetime =>
            split at h
            case isTrue => cases h
            case isFalse hlength =>
              have hgrants : Grants rooms permissions := by
                refine ⟨hsome, ?_⟩
                by_cases hadmin : Permission.admin ∈ permissions
                · exact .inl hadmin
                · exact .inr fun hempty => hroom ⟨hadmin, hempty⟩
              refine ⟨rooms, permissions, hrooms, hpermissions, not_not.mp hsubject, hgrants,
                not_not.mp hlifetime, (Except.ok.inj h).symm, ?_⟩
              rw [← Except.ok.inj h]
              exact not_lt.mp hlength

theorem issue_of_checks (hrooms : validateRooms req.rooms = some rooms)
    (hpermissions : validatePermissions req.permissions = some permissions)
    (hsubject : 1 ≤ (pyStrip req.subject).length ∧ (pyStrip req.subject).length ≤ 64)
    (hgrants : Grants rooms permissions)
    (hlifetime : 60 ≤ req.expiresInSeconds ∧ req.expiresInSeconds ≤ service.maxLifetimeSeconds)
    (hlength : (jwt.encode (service.payload req rooms permissions) service.secret
      tokenType).length ≤ maxTokenLength) :
    service.issue jwt req =
      .ok (jwt.encode (service.payload req rooms permissions) service.secret tokenType) := by
  have hroom : ¬ (Permission.admin ∉ permissions ∧ rooms = ∅) := by
    rintro ⟨hnone, hempty⟩
    exact hgrants.2.elim hnone fun h => h hempty
  unfold AccessTokenService.issue
  simp only [hrooms, hpermissions]
  rw [if_neg (not_not.mpr hsubject), if_neg hgrants.1, if_neg hroom, if_neg (not_not.mpr hlifetime),
    if_neg (not_lt.mpr hlength)]

/-- The list in the payload names exactly the set, each member once. -/
theorem stringList_sortedTexts {texts : Finset String} (h : texts.card ≤ 1_000) :
    stringList (sortedTexts texts) = some (texts.sort (· ≤ ·)) := by
  refine stringList_eq_some.mpr ⟨rfl, Finset.sort_nodup _ _, ?_⟩
  rw [Finset.length_sort]
  exact h

theorem card_permissions_le (permissions : Finset Permission) : permissions.card ≤ 5 := by
  have hsubset : permissions ⊆
      {.roomRead, .roomWrite, .roomPin, .roomReadReceipts, .admin} := by
    intro p _
    cases p <;> decide
  exact (Finset.card_le_card hsubset).trans (by decide)

/-- The principal a token was issued for. -/
def IssueRequest.principal (req : IssueRequest) (rooms : Finset String)
    (permissions : Finset Permission) : Principal :=
  ⟨some (pyStrip req.subject), permissions, rooms, .token⟩

/-- An issued payload is read back as the principal it was issued for. -/
theorem payload_readsAs (hrooms : validateRooms req.rooms = some rooms)
    (hsubject : 1 ≤ (pyStrip req.subject).length ∧ (pyStrip req.subject).length ≤ 64)
    (hgrants : Grants rooms permissions)
    (hlifetime : 60 ≤ req.expiresInSeconds ∧
      req.expiresInSeconds ≤ service.maxLifetimeSeconds) :
    ReadsAs (service.payload req rooms permissions) service.maxLifetimeSeconds
      (req.principal rooms permissions) := by
  have hstrip : pyStrip (pyStrip req.subject) = pyStrip req.subject := strip_idem _
  obtain ⟨-, hcard, hmatch⟩ := validateRooms_eq_some.mp hrooms
  have hidLength : req.id.text.length = 32 := by
    rw [← String.length_toList]
    exact req.id.length_eq
  refine ⟨⟨pyStrip req.subject, rfl, ?_, rfl⟩, ⟨req.now, req.now, req.now + req.expiresInSeconds,
    rfl, rfl, rfl, ?_⟩, ⟨req.id.text, rfl, ?_⟩, ⟨rooms.sort (· ≤ ·), ?_, ?_⟩,
    ⟨(permissions.image Permission.text).sort (· ≤ ·), ?_, ?_⟩, hgrants, rfl⟩
  · unfold SubjectOk
    rw [hstrip]
    exact ⟨hsubject.1, hsubject.2, rfl⟩
  · omega
  · omega
  · exact stringList_sortedTexts hcard
  · refine validateRooms_eq_some.mpr ⟨(Finset.sort_toFinset _ _).symm, hcard, hmatch⟩
  · apply stringList_sortedTexts
    have himage := Finset.card_image_le (s := permissions) (f := Permission.text)
    have hfive := card_permissions_le permissions
    omega
  · refine validatePermissions_eq_some.mpr ⟨?_, ?_⟩
    · intro text htext
      obtain ⟨p, -, rfl⟩ := Finset.mem_image.mp ((Finset.mem_sort _).mp htext)
      exact ⟨p, p.ofText?_text⟩
    · intro p
      rw [Finset.mem_sort, Permission.text_injective.mem_finset_image]
      exact Iff.rfl

/-- The time an issued token is good for, in microseconds: its lifetime, widened by the skew. -/
def AccessTokenService.InWindow (service : AccessTokenService) (req : IssueRequest)
    (now : Timestamp) : Prop :=
  (req.now - service.clockSkewSeconds) * 1_000_000 ≤ now ∧
    now < (req.now + req.expiresInSeconds + service.clockSkewSeconds) * 1_000_000

instance (service : AccessTokenService) (req : IssueRequest) (now : Timestamp) :
    Decidable (service.InWindow req now) := by
  unfold AccessTokenService.InWindow
  infer_instance

/-- The registered claims of an issued payload, whoever checks them and when. -/
theorem claimsHold_payload_iff {audience issuer : String} {leeway : Int} {now : Timestamp} :
    ClaimsHold audience issuer leeway now (service.payload req rooms permissions) ↔
      audience = service.audience ∧ issuer = service.issuer ∧
        (req.now - leeway) * 1_000_000 ≤ now ∧
        now < (req.now + req.expiresInSeconds + leeway) * 1_000_000 := by
  constructor
  · intro h
    refine ⟨?_, (Json.string.inj h.issuer).symm, h.issued req.now rfl,
      h.expires (req.now + req.expiresInSeconds) rfl⟩
    rcases h.audience with hone | ⟨items, hmany, -⟩
    · exact (Json.string.inj hone).symm
    · cases hmany
  · rintro ⟨rfl, rfl, hlow, hhigh⟩
    refine ⟨?_, rfl, .inl rfl, ?_, ?_, ?_⟩
    · intro claim hclaim
      simp only [requiredClaims, List.mem_cons, List.not_mem_nil, or_false] at hclaim
      rcases hclaim with rfl | rfl | rfl | rfl | rfl | rfl | rfl | rfl | rfl <;>
        exact Json.noConfusion
    · intro n hn
      obtain rfl : req.now = n := Json.int.inj hn
      exact hlow
    · intro n hn
      obtain rfl : req.now = n := Json.int.inj hn
      exact hlow
    · intro n hn
      obtain rfl : req.now + req.expiresInSeconds = n := Json.int.inj hn
      exact hhigh

/-- The registered claims of an issued token hold exactly in its window. -/
theorem claimsHold_payload {now : Timestamp} :
    ClaimsHold service.audience service.issuer service.clockSkewSeconds now
      (service.payload req rooms permissions) ↔ service.InWindow req now := by
  rw [claimsHold_payload_iff]
  unfold AccessTokenService.InWindow
  simp only [true_and]

theorem verify_eq_some {now : Timestamp} {p : Principal} :
    service.verify jwt now token = some p ↔
      (token ≠ "" ∧ token.length ≤ maxTokenLength) ∧
      ∃ header, jwt.unverifiedHeader token = some header ∧
        (header.get "typ" = .string tokenType ∧ header.get "alg" = .string "HS256") ∧
        ∃ payload, jwt.decode token service.secret "HS256" service.audience service.issuer
            service.clockSkewSeconds now = some payload ∧
          principalFromPayload payload service.maxLifetimeSeconds = some p := by
  unfold AccessTokenService.verify
  simp only [Option.bind_eq_bind, Option.bind_eq_some_iff, Option.guard_eq_some', string?_eq_some,
    exists_and_left, exists_const]

/-- An issued token is accepted exactly in its lifetime widened by the clock skew, whenever it is
checked; and the principal it makes may do exactly what the token was issued for. -/
theorem issued_token_window (hdocumented : jwt.Documented)
    (hissue : service.issue jwt req = .ok token)
    (hencodes : ∀ rooms permissions, validateRooms req.rooms = some rooms →
      validatePermissions req.permissions = some permissions →
        jwt.Encodes (service.payload req rooms permissions) service.secret) :
    ∃ p : Principal, p.subject = some (pyStrip req.subject) ∧ p.authentication = .token ∧
      (∀ permission room, p.allows permission (some room) = true ↔
        Permission.admin.text ∈ req.permissions ∨
          (permission.text ∈ req.permissions ∧ room ∈ req.rooms)) ∧
      (∀ permission, p.allows permission none = true ↔
        Permission.admin.text ∈ req.permissions ∨ permission.text ∈ req.permissions) ∧
      ∀ now, service.verify jwt now token = if service.InWindow req now then some p else none := by
  obtain ⟨rooms, permissions, hrooms, hpermissions, hsubject, hgrants, hlifetime, rfl, hlength⟩ :=
    issue_ok hissue
  obtain ⟨hnonempty, ⟨header, hheader, htyp, halg⟩, hdecodes, honly⟩ :=
    hencodes rooms permissions hrooms hpermissions
  have hreads : principalFromPayload (service.payload req rooms permissions)
      service.maxLifetimeSeconds = some (req.principal rooms permissions) :=
    principalFromPayload_eq_some.mpr
      (payload_readsAs hrooms hsubject hgrants hlifetime)
  obtain ⟨rfl, -, -⟩ := validateRooms_eq_some.mp hrooms
  have hgranted := (validatePermissions_eq_some.mp hpermissions).2
  refine ⟨req.principal req.rooms.toFinset permissions, rfl, rfl, ?_, ?_, ?_⟩
  · intro permission room
    rw [Principal.allows_iff]
    unfold Principal.isAdmin
    rw [decide_eq_true_eq]
    change Permission.admin ∈ permissions ∨ (permission ∈ permissions ∧
      room ∈ req.rooms.toFinset) ↔ _
    rw [hgranted, hgranted, List.mem_toFinset]
  · intro permission
    rw [Principal.allows_anywhere_iff]
    unfold Principal.isAdmin
    rw [decide_eq_true_eq]
    change Permission.admin ∈ permissions ∨ permission ∈ permissions ↔ _
    rw [hgranted, hgranted]
  · intro now
    by_cases hwindow : service.InWindow req now
    · rw [if_pos hwindow]
      refine verify_eq_some.mpr ⟨⟨hnonempty, hlength⟩, header, hheader, ⟨htyp, halg⟩,
        service.payload req req.rooms.toFinset permissions, ?_, hreads⟩
      exact hdecodes _ _ _ now (claimsHold_payload.mpr hwindow)
    · rw [if_neg hwindow]
      by_contra hsome
      obtain ⟨p, hp⟩ := Option.ne_none_iff_exists'.mp hsome
      obtain ⟨-, -, -, -, payload, hdecode, -⟩ := verify_eq_some.mp hp
      obtain rfl := honly _ _ _ _ _ hdecode
      exact hwindow (claimsHold_payload.mp (hdocumented _ _ _ _ _ _ _ _ hdecode))

end Issue

/-- A text counts at most its bytes. -/
theorem length_le_utf8ByteSize (s : String) : s.length ≤ s.utf8ByteSize := by
  have hlist : ∀ text : List Char, text.length ≤ (String.ofList text).utf8ByteSize := by
    intro text
    induction text with
    | nil => exact Nat.le_refl 0
    | cons c rest ih =>
        have hc := c.utf8Size_pos
        rw [String.ofList_cons, String.utf8ByteSize_append, String.utf8ByteSize_singleton,
          List.length_cons]
        omega
  have hle := hlist s.toList
  rw [String.ofList_toList, String.length_toList] at hle
  exact hle

theorem transportable {token : String} {size : Nat} (hsize : token.utf8ByteSize = size)
    (hlow : 0 < size) (hhigh : size ≤ maxTokenLength) :
    token ≠ "" ∧ token.length ≤ maxTokenLength := by
  constructor
  · rintro rfl
    rw [← hsize] at hlow
    cases hlow
  · have hle := length_le_utf8ByteSize token
    omega

theorem sampleIssuer_ok : (1 ≤ ("samsarix-chat-engine" : String).length ∧
    ("samsarix-chat-engine" : String).length ≤ 256) ∧
    pyStrip "samsarix-chat-engine" = "samsarix-chat-engine" := by decide

theorem sampleAudience_ok : (1 ≤ ("samsarix-chat" : String).length ∧
    ("samsarix-chat" : String).length ≤ 256) ∧ pyStrip "samsarix-chat" = "samsarix-chat" := by
  decide

theorem sampleLifetime_ok : (60 : Int) ≤ 86_400 ∧ (86_400 : Int) ≤ 604_800 := by decide

theorem sampleSkew_ok : (0 : Int) ≤ 30 ∧ (30 : Int) ≤ 300 := by decide

/-- The defaults of the profile. -/
def sampleProfile : TokenProfile :=
  ⟨"samsarix-chat-engine", "samsarix-chat", 86_400, 30, sampleIssuer_ok, sampleAudience_ok,
    sampleLifetime_ok, sampleSkew_ok⟩

def sampleSecret : String := "aaaaaaaaaaaaaaaaaaaaaaaaaaaaaaaa"

theorem sampleSecret_ok :
    32 ≤ sampleSecret.utf8ByteSize ∧ sampleSecret.utf8ByteSize ≤ 4_096 := by decide

def sampleService : AccessTokenService :=
  { sampleProfile with secret := sampleSecret, secret_ok := sampleSecret_ok }

/-- An hour of reading and writing in one room. -/
def sampleRequest : IssueRequest :=
  { subject := "ada", rooms := ["general"], permissions := ["room:write", "room:read"],
    now := 1_000, id := .ofNat 7 }

def samplePayload : Dict :=
  sampleService.payload sampleRequest {"general"} {.roomRead, .roomWrite}

/-- The token PyJWT makes for that request. -/
def sampleToken : String :=
  "eyJ0eXAiOiJzYW1zYXJpeC1hY2Nlc3Mrand0IiwiYWxnIjoiSFMyNTYifQ.eyJpc3MiOiJzYW1zYXJ" ++
    "peC1jaGF0LWVuZ2luZSIsImF1ZCI6InNhbXNhcml4LWNoYXQiLCJzdWIiOiJhZGEiLCJpYXQiOjEwM" ++
    "DAsIm5iZiI6MTAwMCwiZXhwIjo0NjAwLCJqdGkiOiIwMDAwMDAwMDAwMDAwMDAwMDAwMDAwMDAwMDA" ++
    "wMDAwNyIsInJvb21zIjpbImdlbmVyYWwiXSwicGVybWlzc2lvbnMiOlsicm9vbTpyZWFkIiwicm9vb" ++
    "Tp3cml0ZSJdfQ.J_2aMfRoVh6ufegAGlhs0D6HSwr84BZjkS49X4MlJPw"

theorem sampleToken_length : sampleToken ≠ "" ∧ sampleToken.length ≤ maxTokenLength := by
  have hsize : sampleToken.utf8ByteSize = 369 := by decide +kernel
  exact transportable hsize (by decide) (by decide)

/-- PyJWT on that token. -/
def sampleJwt : Jwt String where
  encode _ _ _ := sampleToken
  unverifiedHeader token :=
    if token = sampleToken then some [("typ", .string tokenType), ("alg", .string "HS256")]
    else none
  decode token key algorithm audience issuer leeway now :=
    if token = sampleToken ∧ key = sampleSecret ∧ algorithm = "HS256" ∧
        audience = "samsarix-chat" ∧ issuer = "samsarix-chat-engine" ∧
        (1_000 - leeway) * 1_000_000 ≤ now ∧ now < (4_600 + leeway) * 1_000_000 then
      some samplePayload
    else none

theorem sampleJwt_documented : sampleJwt.Documented := by
  intro token key algorithm audience issuer leeway now payload h
  dsimp only [sampleJwt] at h
  split at h
  case isFalse => cases h
  case isTrue hchecks =>
    obtain ⟨-, -, -, haudience, hissuer, hlow, hhigh⟩ := hchecks
    obtain rfl := Option.some.inj h
    exact claimsHold_payload_iff.mpr ⟨haudience, hissuer, hlow, hhigh⟩

theorem sampleJwt_encodes : sampleJwt.Encodes samplePayload sampleSecret where
  nonempty := sampleToken_length.1
  header := by
    refine ⟨[("typ", .string tokenType), ("alg", .string "HS256")], ?_, rfl, rfl⟩
    dsimp only [sampleJwt]
    rw [if_pos rfl]
  decodes audience issuer leeway now h := by
    obtain ⟨haudience, hissuer, hlow, hhigh⟩ := claimsHold_payload_iff.mp h
    dsimp only [sampleJwt]
    rw [if_pos ⟨rfl, rfl, rfl, haudience, hissuer, hlow, hhigh⟩]
  only audience issuer leeway now payload h := by
    dsimp only [sampleJwt] at h
    split at h
    case isFalse => cases h
    case isTrue => exact (Option.some.inj h).symm

/-- Good for writing in the room from thirty seconds before the hour to thirty after it. -/
theorem issued_token_window_hour :
    ∃ p : Principal, p.subject = some "ada" ∧ p.allows .roomWrite (some "general") = true ∧
      p.allows .roomWrite (some "random") = false ∧ p.allows .roomRead none = true ∧
      sampleService.verify sampleJwt (seconds 970) sampleToken = some p ∧
      sampleService.verify sampleJwt (seconds 4_630) sampleToken = none := by
  have hroom : validateRooms sampleRequest.rooms = some {"general"} := by decide
  have hboth : validatePermissions sampleRequest.permissions = some {.roomRead, .roomWrite} := by
    decide
  have hencodes : ∀ rooms permissions, validateRooms sampleRequest.rooms = some rooms →
      validatePermissions sampleRequest.permissions = some permissions →
        sampleJwt.Encodes (sampleService.payload sampleRequest rooms permissions)
          sampleService.secret := by
    intro rooms permissions hrooms hpermissions
    obtain rfl := Option.some.inj (hroom.symm.trans hrooms)
    obtain rfl := Option.some.inj (hboth.symm.trans hpermissions)
    exact sampleJwt_encodes
  have hissue : sampleService.issue sampleJwt sampleRequest = .ok sampleToken :=
    issue_of_checks hroom hboth (by decide) (by decide) (by decide) sampleToken_length.2
  obtain ⟨p, hsubject, -, hallows, hanywhere, hverify⟩ :=
    issued_token_window sampleJwt_documented hissue hencodes
  refine ⟨p, ?_, (hallows _ _).mpr (by decide), ?_, (hanywhere _).mpr (by decide), ?_, ?_⟩
  · rw [hsubject]
    decide
  · rw [← Bool.not_eq_true, hallows]
    decide
  · rw [hverify, if_pos (by decide)]
  · rw [hverify, if_neg (by decide)]

/-! ## Verified principals -/

/-- What every verified token says of its bearer. -/
structure Principal.WellFormed (p : Principal) : Prop where
  subject : ∃ subject, p.subject = some subject ∧ SubjectOk subject
  rooms : p.rooms.card ≤ 1_000 ∧ ∀ room ∈ p.rooms, matchesRoomId room = true
  grants : Grants p.rooms p.permissions
  token : p.authentication = .token

theorem ReadsAs.wellFormed {payload : Dict} {maxLifetimeSeconds : Int} {p : Principal}
    (h : ReadsAs payload maxLifetimeSeconds p) : p.WellFormed := by
  obtain ⟨subject, -, hok, hsubject⟩ := h.subject
  obtain ⟨texts, -, hrooms⟩ := h.rooms
  exact ⟨⟨subject, hsubject, hok⟩, (validateRooms_eq_some.mp hrooms).2, h.grants, h.token⟩

/-- What the payload of an accepted token says: its registered claims hold now, it lives no longer
than the profile allows, and it reads as the principal. -/
structure Vouches (profile : TokenProfile) (now : Timestamp) (payload : Dict) (p : Principal) :
    Prop where
  claims : ClaimsHold profile.audience profile.issuer profile.clockSkewSeconds now payload
  reads : ReadsAs payload profile.maxLifetimeSeconds p

section Jwks

variable {κ : Type} {lib : JwkLibrary κ} {loaded keys : List (LoadedKey κ)} {value : Json}
  {key : LoadedKey κ}

/-- A key that was loaded from a member of the set: a public one, of the algorithm it names. -/
structure LoadedFrom (lib : JwkLibrary κ) (value : Json) (key : LoadedKey κ) : Prop where
  source : ∃ members : Dict, value = .object members ∧
    members.get "kid" = .string key.kid ∧ members.get "alg" = .string key.algorithm ∧
    (∀ name ∈ privateJwkParameters, members.lookup name = none) ∧
    lib.fromDict members key.algorithm = .ok key.key
  kid : matchesKeyId key.kid = true
  algorithm : key.algorithm = "EdDSA" ∨
    (key.algorithm = "RS256" ∧ 2_048 ≤ lib.keySize key.key)

theorem asymmetricAlgorithm?_eq_some {algorithm kty : String} {crv : Option String}
    (h : asymmetricAlgorithm? algorithm = some (kty, crv)) :
    algorithm = "EdDSA" ∨ algorithm = "RS256" := by
  unfold asymmetricAlgorithm? at h
  split at h
  case isTrue heddsa => exact .inl heddsa
  case isFalse =>
    split at h
    case isTrue hrsa => exact .inr hrsa
    case isFalse => cases h

theorem buildKey_ok {members : Dict} {kid algorithm : String}
    (h : buildKey lib members kid algorithm = .ok key) :
    key.kid = kid ∧ key.algorithm = algorithm ∧ lib.fromDict members algorithm = .ok key.key ∧
      (algorithm = "RS256" → 2_048 ≤ lib.keySize key.key) := by
  unfold buildKey at h
  cases hdict : lib.fromDict members algorithm with
  | error e =>
      rw [hdict] at h
      cases e <;> cases h
  | ok material =>
      rw [hdict] at h
      dsimp only at h
      split at h
      case isTrue => cases h
      case isFalse hsize =>
        obtain rfl := Except.ok.inj h
        exact ⟨rfl, rfl, rfl, fun hrsa => not_lt.mp fun hlt => hsize ⟨hrsa, hlt⟩⟩

theorem loadKey_ok (h : loadKey lib loaded value = .ok key) :
    LoadedFrom lib value key ∧ key.kid ∉ loaded.map LoadedKey.kid := by
  unfold loadKey at h
  cases value with
  | object object =>
      dsimp only at h
      split at h
      case h_2 => cases h
      case h_1 kid algorithm hkid halgorithm =>
        split at h
        case isFalse => cases h
        case isTrue hnamed =>
          split at h
          case h_1 => cases h
          case h_2 =>
            split at h
            case isTrue => cases h
            case isFalse hpublic =>
              obtain ⟨hmatches, hfresh, ⟨kty, crv⟩, hknown, -⟩ := hnamed
              obtain ⟨rfl, rfl, hdict, hsize⟩ := buildKey_ok h
              refine ⟨⟨⟨object, rfl, string?_eq_some.mp hkid, string?_eq_some.mp halgorithm, ?_,
                hdict⟩, hmatches, ?_⟩, hfresh⟩
              · intro name hname
                by_contra hsome
                exact hpublic (.inl ⟨name, hname, Option.isSome_iff_ne_none.mpr hsome⟩)
              · rcases asymmetricAlgorithm?_eq_some hknown with heddsa | hrsa
                · exact .inl heddsa
                · exact .inr ⟨hrsa, hsize hrsa⟩
  | _ => cases h

/-- The whole loop: every key comes from a member of the set, and no two share an id. -/
theorem loadKeys_ok {values : List Json} (hloaded : (loaded.map LoadedKey.kid).Nodup)
    (h : loadKeys lib loaded values = .ok keys) :
    (keys.map LoadedKey.kid).Nodup ∧
      ∀ key ∈ keys, key ∈ loaded ∨ ∃ value ∈ values, LoadedFrom lib value key := by
  induction values generalizing loaded with
  | nil =>
      obtain rfl := Except.ok.inj h
      exact ⟨hloaded, fun key hkey => .inl hkey⟩
  | cons value rest ih =>
      unfold loadKeys at h
      cases hkey : loadKey lib loaded value with
      | error e =>
          rw [hkey] at h
          cases h
      | ok key =>
          rw [hkey] at h
          obtain ⟨hfrom, hfresh⟩ := loadKey_ok hkey
          have hnodup : ((loaded ++ [key]).map LoadedKey.kid).Nodup := by
            rw [List.map_append]
            exact List.nodup_append.mpr ⟨hloaded, List.nodup_singleton _, by
              rintro kid hkid _ (hmem : _ ∈ [key.kid]) rfl
              rw [List.mem_singleton.mp hmem] at hkid
              exact hfresh hkid⟩
          obtain ⟨hkids, hkeys⟩ := ih hnodup h
          refine ⟨hkids, ?_⟩
          intro other hother
          rcases hkeys other hother with hold | ⟨v, hv, hv'⟩
          · rcases List.mem_append.mp hold with hold | hnew
            · exact .inl hold
            · rw [List.mem_singleton.mp hnew]
              exact .inr ⟨value, List.mem_cons_self, hfrom⟩
          · exact .inr ⟨v, List.mem_cons_of_mem _ hv, hv'⟩

theorem jwksValues_ok {jwks : Json} {values : List Json} (h : jwksValues jwks = .ok values) :
    ∃ members, jwks = .object members ∧ Dict.get members "keys" = .array values := by
  unfold jwksValues at h
  split at h
  case h_2 => cases h
  case h_1 members =>
    split at h
    case h_2 => cases h
    case h_1 items hitems =>
      split at h
      case isFalse => cases h
      case isTrue =>
        obtain rfl := Except.ok.inj h
        exact ⟨members, rfl, hitems⟩

theorem JwksVerifier.build_ok {jwks : Json} {issuer audience : String}
    {maxLifetimeSeconds clockSkewSeconds : Int} {verifier : JwksVerifier κ}
    (h : JwksVerifier.build lib jwks issuer audience maxLifetimeSeconds clockSkewSeconds =
      .ok verifier) :
    ∃ members values, jwks = .object members ∧ Dict.get members "keys" = .array values ∧
      loadKeys lib [] values = .ok verifier.keys := by
  unfold JwksVerifier.build at h
  split at h
  case h_1 => cases h
  case h_2 profile _ =>
    split at h
    case h_1 => cases h
    case h_2 keys hkeys =>
      obtain rfl := Except.ok.inj h
      cases hvalues : jwksValues jwks with
      | error e =>
          rw [hvalues] at hkeys
          cases hkeys
      | ok values =>
          rw [hvalues] at hkeys
          obtain ⟨members, hjwks, hmember⟩ := jwksValues_ok hvalues
          exact ⟨members, values, hjwks, hmember, hkeys⟩

theorem JwksVerifier.verify_eq_some {verifier : JwksVerifier κ} {now : Timestamp}
    {token : String} {p : Principal} :
    verifier.verify lib now token = some p ↔
      (token ≠ "" ∧ token.length ≤ maxTokenLength) ∧
      ∃ header, lib.unverifiedHeader token = some header ∧
      ∃ kid, header.get "kid" = .string kid ∧
      ∃ algorithm, header.get "alg" = .string algorithm ∧
        ((header.get "typ").string? = some tokenType ∧ matchesKeyId kid = true ∧
          (asymmetricAlgorithm? algorithm).isSome = true ∧
          ∀ name ∈ forbiddenTokenHeaders, header.lookup name = none) ∧
        ∃ key, (verifier.keys.find? fun key => key.kid = kid) = some key ∧
          key.algorithm = algorithm ∧
          ∃ payload, lib.decode token key.key algorithm verifier.audience verifier.issuer
              verifier.clockSkewSeconds now = some payload ∧
            principalFromPayload payload verifier.maxLifetimeSeconds = some p := by
  unfold JwksVerifier.verify
  simp only [Option.bind_eq_bind, Option.bind_eq_some_iff, Option.guard_eq_some', string?_eq_some,
    exists_and_left, exists_const]

/-- A token that a key set accepts was verified under a key of the set that names it: a public
key, used with its own algorithm and never with one of the token's choosing.  Its claims hold at
that time, and the principal is well formed. -/
theorem jwks_verified {jwks : Json} {issuer audience : String}
    {maxLifetimeSeconds clockSkewSeconds : Int} {verifier : JwksVerifier κ} {now : Timestamp}
    {token : String} {p : Principal} (hdocumented : lib.Documented)
    (hbuild : JwksVerifier.build lib jwks issuer audience maxLifetimeSeconds clockSkewSeconds =
      .ok verifier) (hverify : verifier.verify lib now token = some p) :
    p.WellFormed ∧ ∃ header payload members values value, ∃ key ∈ verifier.keys,
      jwks = .object members ∧ Dict.get members "keys" = .array values ∧ value ∈ values ∧
      LoadedFrom lib value key ∧
      lib.unverifiedHeader token = some header ∧ header.get "kid" = .string key.kid ∧
      header.get "alg" = .string key.algorithm ∧
      (∀ other ∈ verifier.keys, header.get "kid" = .string other.kid → other = key) ∧
      lib.decode token key.key key.algorithm verifier.audience verifier.issuer
        verifier.clockSkewSeconds now = some payload ∧
      Vouches verifier.toTokenProfile now payload p := by
  obtain ⟨members, values, hjwks, hvalues, hload⟩ := JwksVerifier.build_ok hbuild
  have hempty : (([] : List (LoadedKey κ)).map LoadedKey.kid).Nodup := List.nodup_nil
  obtain ⟨hnodup, hkeys⟩ := loadKeys_ok hempty hload
  obtain ⟨-, header, hheader, kid, hkid, algorithm, halgorithm, -, key, hfind, rfl, payload,
    hdecode, hreads⟩ := JwksVerifier.verify_eq_some.mp hverify
  obtain hkey := List.mem_of_find?_eq_some hfind
  obtain rfl : key.kid = kid := by simpa using List.find?_some hfind
  have hreadsAs := principalFromPayload_eq_some.mp hreads
  rcases hkeys key hkey with hnone | ⟨value, hvalue, hfrom⟩
  · cases hnone
  · refine ⟨hreadsAs.wellFormed, header, payload, members, values, value, key, hkey, hjwks, hvalues,
      hvalue, hfrom, hheader, hkid, halgorithm, ?_, hdecode, hdocumented _ _ _ _ _ _ _ _ hdecode,
      hreadsAs⟩
    intro other hother hsame
    rw [hkid] at hsame
    exact List.inj_on_of_nodup_map hnodup hother hkey (Json.string.inj hsame).symm

/-- The bearer of a verified token. -/
theorem TokenVerifier.verify_wellFormed {verifier : TokenVerifier κ} {now : Timestamp}
    {token : String} {p : Principal} (h : verifier.verify now token = some p) : p.WellFormed := by
  cases verifier with
  | none => cases h
  | shared jwt service =>
      obtain ⟨-, -, -, -, payload, -, hreads⟩ := verify_eq_some.mp h
      exact (principalFromPayload_eq_some.mp hreads).wellFormed
  | jwks lib verifier =>
      obtain ⟨-, -, -, -, -, -, -, -, -, -, -, payload, -, hreads⟩ :=
        JwksVerifier.verify_eq_some.mp h
      exact (principalFromPayload_eq_some.mp hreads).wellFormed

/-- For whom a request is served: for the local operator where nothing is configured, for the
operator who has the configured key, and otherwise for the bearer of a verified token. -/
theorem authenticateCredentials_cases {verifier : TokenVerifier κ} {now : Timestamp}
    {expectedKey apiKey bearer : Option String} {p : Principal}
    (h : authenticateCredentials now expectedKey verifier apiKey bearer = some p) :
    (p = .localOperator ∧ expectedKey = none ∧ verifier = .none) ∨
      (p = .apiKeyOperator ∧ ∃ key, expectedKey = some key ∧
        (apiKey = some key ∨ bearer = some key)) ∨
      (p.WellFormed ∧ ∃ token, bearer = some token ∧ verifier.verify now token = some p) := by
  unfold authenticateCredentials credentialsMatch at h
  dsimp only at h
  split_ifs at h with hopen hmatch
  · obtain ⟨hkey, hverifier⟩ := hopen
    cases verifier with
    | none => exact .inl ⟨(Option.some.inj h).symm, hkey, rfl⟩
    | shared jwt service => cases hverifier
    | jwks lib verifier => cases hverifier
  · obtain ⟨hsome, hsame⟩ := (Bool.and_eq_true _ _).mp hmatch
    obtain ⟨key, rfl⟩ := Option.isSome_iff_exists.mp hsome
    refine .inr (.inl ⟨(Option.some.inj h).symm, key, rfl, ?_⟩)
    rcases Option.or_eq_some_iff.mp (eq_of_beq hsame) with hgiven | ⟨-, hbearer⟩
    · exact .inl (Option.filter_eq_some_iff.mp hgiven).1
    · exact .inr hbearer
  · obtain ⟨token, hbearer, hverify⟩ := Option.bind_eq_some_iff.mp h
    exact .inr (.inr ⟨TokenVerifier.verify_wellFormed hverify, token, hbearer, hverify⟩)

end Jwks

/-- The token an identity provider makes for the same payload under an Ed25519 key. -/
def sampleKeyToken : String :=
  "eyJ0eXAiOiJzYW1zYXJpeC1hY2Nlc3Mrand0IiwiYWxnIjoiRWREU0EiLCJraWQiOiJrZXktMSJ9.e" ++
    "yJpc3MiOiJzYW1zYXJpeC1jaGF0LWVuZ2luZSIsImF1ZCI6InNhbXNhcml4LWNoYXQiLCJzdWIiOiJ" ++
    "hZGEiLCJpYXQiOjEwMDAsIm5iZiI6MTAwMCwiZXhwIjo0NjAwLCJqdGkiOiIwMDAwMDAwMDAwMDAwM" ++
    "DAwMDAwMDAwMDAwMDAwMDAwNyIsInJvb21zIjpbImdlbmVyYWwiXSwicGVybWlzc2lvbnMiOlsicm9" ++
    "vbTpyZWFkIiwicm9vbTp3cml0ZSJdfQ.YIL-a3qDrj_0yWWlE0a1oPhTx_nXN2j4go6DJ4QogL_k74" ++
    "KitE5G4KYcyu2ARSXiUPHZCnd8DWXwmFa5_khcCA"

theorem sampleKeyToken_length :
    sampleKeyToken ≠ "" ∧ sampleKeyToken.length ≤ maxTokenLength := by
  have hsize : sampleKeyToken.utf8ByteSize = 430 := by decide +kernel
  exact transportable hsize (by decide) (by decide)

/-- The `x` of its public key. -/
def samplePublicKey : String := "A6EHv_POEL4dcN0Y50vAmWfk1jCbpQ1fHdyGZBJVMbg"

def sampleHeader : Dict :=
  [("typ", .string tokenType), ("alg", .string "EdDSA"), ("kid", .string "key-1")]

def sampleClaims : Dict :=
  [("iss", .string "samsarix-chat-engine"), ("aud", .string "samsarix-chat"),
   ("sub", .string "ada"), ("iat", .int 1_000), ("nbf", .int 1_000), ("exp", .int 4_600),
   ("jti", .string (UuidHex.ofNat 7).text), ("rooms", .array [.string "general"]),
   ("permissions", .array [.string "room:read", .string "room:write"])]

/-- PyJWT with that key and that token. -/
def sampleLibrary : JwkLibrary String where
  encode _ _ _ := sampleKeyToken
  unverifiedHeader token :=
    if token = sampleKeyToken then some sampleHeader else none
  decode token key algorithm audience issuer leeway now :=
    if token = sampleKeyToken ∧ key = samplePublicKey ∧ algorithm = "EdDSA" ∧
        audience = "samsarix-chat" ∧ issuer = "samsarix-chat-engine" ∧
        (1_000 - leeway) * 1_000_000 ≤ now ∧ now < (4_600 + leeway) * 1_000_000 then
      some sampleClaims
    else none
  fromDict value _ :=
    match (value.get "x").string? with
    | some x => .ok x
    | none => .error .other
  keySize _ := 0

theorem sampleLibrary_documented : sampleLibrary.Documented := by
  intro token key algorithm audience issuer leeway now payload h
  dsimp only [sampleLibrary] at h
  split at h
  case isFalse => cases h
  case isTrue hchecks =>
    obtain ⟨-, -, -, rfl, rfl, hlow, hhigh⟩ := hchecks
    obtain rfl := Option.some.inj h
    refine ⟨?_, rfl, .inl rfl, ?_, ?_, ?_⟩
    · intro claim hclaim
      simp only [requiredClaims, List.mem_cons, List.not_mem_nil, or_false] at hclaim
      rcases hclaim with rfl | rfl | rfl | rfl | rfl | rfl | rfl | rfl | rfl <;>
        exact Json.noConfusion
    · intro n hn
      obtain rfl : 1_000 = n := Json.int.inj hn
      exact hlow
    · intro n hn
      obtain rfl : 1_000 = n := Json.int.inj hn
      exact hlow
    · intro n hn
      obtain rfl : 4_600 = n := Json.int.inj hn
      exact hhigh

/-- The key as a member of a set. -/
def sampleJwk : Json :=
  .object [("kty", .string "OKP"), ("crv", .string "Ed25519"), ("kid", .string "key-1"),
    ("alg", .string "EdDSA"), ("use", .string "sig"), ("x", .string samplePublicKey)]

def sampleVerifier : JwksVerifier String :=
  { sampleProfile with keys := [⟨"key-1", "EdDSA", samplePublicKey⟩] }

/-- The token of the key set's owner is accepted under the key it names. -/
theorem jwks_verified_sample :
    ∃ p : Principal, sampleVerifier.verify sampleLibrary (seconds 1_000) sampleKeyToken = some p ∧
      p.WellFormed ∧ p.allows .roomWrite (some "general") = true := by
  have hbuild : JwksVerifier.build sampleLibrary (.object [("keys", .array [sampleJwk])])
      "samsarix-chat-engine" "samsarix-chat" 86_400 30 = .ok sampleVerifier := rfl
  have hverify : sampleVerifier.verify sampleLibrary (seconds 1_000) sampleKeyToken =
      some ⟨some "ada", {.roomRead, .roomWrite}, {"general"}, .token⟩ := by
    refine JwksVerifier.verify_eq_some.mpr ⟨sampleKeyToken_length, sampleHeader, ?_, "key-1", rfl,
      "EdDSA", rfl, by decide, ⟨"key-1", "EdDSA", samplePublicKey⟩, rfl, rfl, sampleClaims, ?_,
      by decide +kernel⟩
    · dsimp only [sampleLibrary]
      rw [if_pos rfl]
    · dsimp only [sampleLibrary]
      rw [if_pos ⟨rfl, rfl, rfl, rfl, rfl, by decide, by decide⟩]
  exact ⟨_, hverify, (jwks_verified sampleLibrary_documented hbuild hverify).1, by decide⟩

end Server
end ChatEngine
