import SkidMonitor.Core.Envelope
import SkidMonitor.Lib.Fallible
import SkidMonitor.Lib.Json
import SkidMonitor.Lib.Number

/-! The principal that the claims of an access token stand for. -/
namespace SkidMonitor.Auth

open Fallible
open Numbers (Number)
open Uuids (Uuid)

abbrev Claims := Json Number

inductive OidcRoleClaims where
  | keycloakResourceAccess
  | claimPointer (pointer : Str)
  deriving DecidableEq

structure OidcConfig where
  audience : Str
  tenantPointer : Str
  roleClaims : OidcRoleClaims
  agentIdPointer : Option Str
  deriving DecidableEq

inductive AuthError where
  | invalidClaims (error : Str)
  | missingRole (role : Str)
  deriving DecidableEq

structure AuthenticatedPrincipal where
  subject : Str
  agentIdentity : Option Str
  tenantId : TenantId
  roles : Finset Str
  preferredUsername : Option Str
  authorizedUntilUnix : ℕ
  deriving DecidableEq

def AuthenticatedPrincipal.agentId (p : AuthenticatedPrincipal) : Except AuthError AgentId := do
  let identity ← orError (.invalidClaims ("agent identity claim is missing; configure ".toList ++
    "SKID_MONITOR_OIDC_AGENT_ID_POINTER for this provider".toList)) p.agentIdentity
  (AgentId.new identity).mapError fun error => .invalidClaims error.toText.toList

def maxAuthorizationUnix : ℕ := 253402300799
def maxAccessTokenLifetime : ℕ := 24 * 60 * 60
def tokenClockSkew : ℕ := 30

/-- Addition of 64-bit counts that stops at the largest one. -/
def saturatingAdd (a b : ℕ) : ℕ := min (a + b) (2 ^ 64 - 1)

def validateTokenTimes (iat exp now : ℕ) : Except AuthError Unit :=
  if exp > maxAuthorizationUnix ∨ exp ≤ iat ∨ exp - iat > maxAccessTokenLifetime ∨
      iat > saturatingAdd now tokenClockSkew ∨
      exp > saturatingAdd now (maxAccessTokenLifetime + tokenClockSkew) then
    .error (.invalidClaims
      "access token issue/expiry timestamps are outside the accepted range".toList)
  else .ok ()

/-- A text that is not empty, of so many bytes at most, without control characters. -/
def acceptable (maxBytes : ℕ) (value : Str) : Bool :=
  !value.isEmpty && Text.byteLength value ≤ maxBytes && !value.any Text.isControl

section Claims

variable (debug : Str → Str) (readUuid : Str → Except Str Uuid)

def requiredStringClaim (claims : Claims) (pointer label : Str) (maxBytes : ℕ) :
    Except AuthError Str :=
  orError (.invalidClaims (label ++ " claim at ".toList ++ debug pointer ++
      " must be a non-empty string of at most ".toList ++ Numeral.print maxBytes ++
      " bytes".toList))
    ((((claims.pointer pointer).bind Json.asStr).map fun value => Text.trim value.toList).filter
      (acceptable maxBytes))

def optionalStringClaim (claims : Claims) (pointer label : Str) (maxBytes : ℕ) :
    Except AuthError (Option Str) :=
  match claims.pointer pointer with
  | none | some .null => .ok none
  | some _ => (requiredStringClaim debug claims pointer label maxBytes).map some

def requiredU64Claim (claims : Claims) (pointer label : Str) : Except AuthError ℕ :=
  orError (.invalidClaims (label ++ " claim at ".toList ++ debug pointer ++
      " must be a non-negative integer".toList))
    (((claims.pointer pointer).bind Json.asNumber).bind Number.asU64)

/-- Where the roles stand. -/
def roleClaim (config : OidcConfig) (claims : Claims) : Option Claims :=
  match config.roleClaims with
  | .keycloakResourceAccess =>
    (((claims.get "resource_access").bind Json.asObject).bind
      (List.lookup (String.ofList config.audience))).bind (Json.get "roles")
  | .claimPointer pointer => claims.pointer pointer

/-- The blanks at which a text of roles is split. -/
def isAsciiWhitespace (c : Char) : Bool := c ∈ [' ', '\t', '\n', '\x0C', '\r']

def splitAsciiWhitespace (text : Str) : List Str :=
  (text.splitOnP isAsciiWhitespace).filter (· ≠ [])

/-- The role strings of a claim, before they are trimmed. -/
def roleValues : Claims → Except AuthError (List Str)
  | .arr values => values.mapM fun value =>
    orError (.invalidClaims "role arrays must contain only strings".toList)
      (value.asStr.map String.toList)
  | .str value => .ok (splitAsciiWhitespace value.toList)
  | _ => .error (.invalidClaims "role claim must be a string or an array of strings".toList)

def trimmedRole (role : Str) : Except AuthError Str :=
  let role := Text.trim role
  if acceptable 256 role then .ok role
  else .error (.invalidClaims "roles must be non-empty strings of at most 256 bytes".toList)

def rolesFromClaims (config : OidcConfig) (claims : Claims) : Except AuthError (Finset Str) :=
  match roleClaim config claims with
  | none => .ok ∅
  | some value => do
    let values ← roleValues value
    if values.length > 256 then
      throw (.invalidClaims "role claim contains more than 256 roles".toList)
    let roles ← values.mapM trimmedRole
    return roles.toFinset

def agentIdentityLabel : Str := "agent identity".toList

def agentIdentityFromClaims (config : OidcConfig) (claims : Claims) :
    Except AuthError (Option Str) :=
  match config.agentIdPointer with
  | some pointer => optionalStringClaim debug claims pointer agentIdentityLabel 255
  | none =>
    match (claims.pointer "/azp".toList).or (claims.pointer "/client_id".toList) with
    | some _ =>
      optionalStringClaim debug claims
        (if (claims.pointer "/azp".toList).isSome then "/azp".toList else "/client_id".toList)
        agentIdentityLabel 255
    | none => .ok none

def principalFromClaims (config : OidcConfig) (claims : Claims) (requiredRole : Str) (now : ℕ) :
    Except AuthError AuthenticatedPrincipal := do
  let subject ← requiredStringClaim debug claims "/sub".toList "sub".toList 1024
  let iat ← requiredU64Claim debug claims "/iat".toList "iat".toList
  let exp ← requiredU64Claim debug claims "/exp".toList "exp".toList
  validateTokenTimes iat exp now
  let tenant ← requiredStringClaim debug claims config.tenantPointer "tenant identity".toList 128
  let tenantId ← (readUuid tenant).mapError fun error =>
    .invalidClaims ("invalid tenant id: ".toList ++ error)
  let agentIdentity ← agentIdentityFromClaims debug config claims
  let roles ← rolesFromClaims config claims
  if requiredRole ∉ roles then throw (.missingRole requiredRole)
  let preferredUsername ← optionalStringClaim debug claims "/preferred_username".toList
    "preferred_username".toList 1024
  return ⟨subject, agentIdentity, ⟨tenantId⟩, roles, preferredUsername, exp⟩

end Claims

section Roles

variable {config : OidcConfig} {claims : Claims} {roles : Finset Str} {role : Str}

/-- A claim lists the role: as an item of an array, or as a word of a text. -/
inductive ListsRole : Claims → Str → Prop where
  | item {values : List Claims} {value : String} :
      .str value ∈ values → ListsRole (.arr values) value.toList
  | word {value : String} {role : Str} :
      role ∈ splitAsciiWhitespace value.toList → ListsRole (.str value) role

theorem roleValues_ok {value : Claims} {values : List Str} (h : roleValues value = .ok values) :
    role ∈ values ↔ ListsRole value role := by
  cases value with
  | arr items =>
    have hitems := mapM_ok h
    constructor
    · intro hrole
      obtain ⟨item, hitem, hok⟩ := Table.exists_left hitems hrole
      obtain ⟨text, htext, rfl⟩ := Option.map_eq_some_iff.mp (orError_ok.mp hok)
      cases item with
      | str s =>
        cases htext
        exact .item hitem
      | _ => cases htext
    · rintro ⟨hitem⟩
      obtain ⟨role, hrole, hok⟩ := Table.exists_right hitems hitem
      cases hok
      exact hrole
  | str text =>
    cases h
    exact ⟨fun hrole => .word hrole, fun hrole => by cases hrole; assumption⟩
  | _ => cases h

theorem acceptable_iff {maxBytes : ℕ} {value : Str} : acceptable maxBytes value = true ↔
    value ≠ [] ∧ Text.byteLength value ≤ maxBytes ∧ value.any Text.isControl = false := by
  simp [acceptable, and_assoc]

theorem trimmedRole_ok {trimmed : Str} (h : trimmedRole role = .ok trimmed) :
    trimmed = Text.trim role := by
  simp only [trimmedRole] at h
  split_ifs at h
  exact (Except.ok.inj h).symm

/-- The roles are what the claim lists, trimmed. -/
theorem rolesFromClaims_ok (h : rolesFromClaims config claims = .ok roles) :
    role ∈ roles ↔ ∃ value listed, roleClaim config claims = some value ∧
      ListsRole value listed ∧ role = Text.trim listed := by
  unfold rolesFromClaims at h
  cases hclaim : roleClaim config claims with
  | none =>
    rw [hclaim] at h
    cases h
    simp
  | some value =>
    rw [hclaim] at h
    obtain ⟨values, hvalues, hchecked⟩ := bind_ok h
    split_ifs at hchecked
    · cases hchecked
    · obtain ⟨trimmed, htrimmed, hset⟩ := bind_ok hchecked
      cases hset
      have hrel := mapM_ok htrimmed
      rw [List.mem_toFinset]
      constructor
      · intro hrole
        obtain ⟨listed, hlisted, hok⟩ := Table.exists_left hrel hrole
        exact ⟨value, listed, rfl, (roleValues_ok hvalues).mp hlisted, trimmedRole_ok hok⟩
      · rintro ⟨_, listed, hsome, hlists, rfl⟩
        cases hsome
        obtain ⟨role, hrole, hok⟩ := Table.exists_right hrel ((roleValues_ok hvalues).mpr hlists)
        rwa [← trimmedRole_ok hok]

end Roles

section Identity

variable {debug : Str → Str} {config : OidcConfig} {claims : Claims} {pointer label value : Str}
  {maxBytes : ℕ}

theorem requiredStringClaim_ok
    (h : requiredStringClaim debug claims pointer label maxBytes = .ok value) :
    Text.trim value = value ∧ acceptable maxBytes value = true := by
  obtain ⟨hvalue, hacceptable⟩ := Option.filter_eq_some_iff.mp (orError_ok.mp h)
  obtain ⟨text, _, rfl⟩ := Option.map_eq_some_iff.mp hvalue
  exact ⟨Text.trim_trim _, hacceptable⟩

theorem optionalStringClaim_ok
    (h : optionalStringClaim debug claims pointer label maxBytes = .ok (some value)) :
    Text.trim value = value ∧ acceptable maxBytes value = true := by
  unfold optionalStringClaim at h
  split at h
  · cases h
  · cases h
  · cases hrequired : requiredStringClaim debug claims pointer label maxBytes with
    | error e =>
      rw [hrequired] at h
      cases h
    | ok found =>
      rw [hrequired] at h
      cases h
      exact requiredStringClaim_ok hrequired

theorem agentIdentityFromClaims_ok
    (h : agentIdentityFromClaims debug config claims = .ok (some value)) :
    Text.trim value = value ∧ acceptable 255 value = true := by
  unfold agentIdentityFromClaims at h
  split at h
  · exact optionalStringClaim_ok h
  · split at h
    · exact optionalStringClaim_ok h
    · cases h

/-- What is accepted as an identity is accepted as an identifier, as it is. -/
theorem agentId_of_acceptable {p : AuthenticatedPrincipal} (hp : p.agentIdentity = some value)
    (htrim : Text.trim value = value) (h : acceptable 255 value = true) :
    ∃ id, p.agentId = .ok id ∧ id.text = value := by
  obtain ⟨hempty, hbytes, hcontrol⟩ := acceptable_iff.mp h
  refine ⟨⟨value, htrim, hempty, hbytes, hcontrol⟩, ?_, rfl⟩
  have hnew := AgentId.new_text ⟨value, htrim, hempty, hbytes, hcontrol⟩
  rw [AuthenticatedPrincipal.agentId, hp]
  change (AgentId.new value).mapError _ = _
  rw [hnew]
  rfl

end Identity

section Mapping

variable {debug : Str → Str} {readUuid : Str → Except Str Uuid} {config : OidcConfig}
  {claims claims' : Claims} {requiredRole : Str} {now : ℕ}

theorem principalFromClaims_ok {p : AuthenticatedPrincipal}
    (h : principalFromClaims debug readUuid config claims requiredRole now = .ok p) :
    agentIdentityFromClaims debug config claims = .ok p.agentIdentity ∧
      rolesFromClaims config claims = .ok p.roles ∧ requiredRole ∈ p.roles := by
  unfold principalFromClaims at h
  obtain ⟨subject, _, h⟩ := bind_ok h
  obtain ⟨iat, _, h⟩ := bind_ok h
  obtain ⟨exp, _, h⟩ := bind_ok h
  obtain ⟨_, _, h⟩ := bind_ok h
  obtain ⟨tenant, _, h⟩ := bind_ok h
  obtain ⟨tenantId, _, h⟩ := bind_ok h
  obtain ⟨agentIdentity, hidentity, h⟩ := bind_ok h
  obtain ⟨roles, hroles, h⟩ := bind_ok h
  split_ifs at h with hrole
  · obtain ⟨preferredUsername, _, h⟩ := bind_ok h
    cases h
    exact ⟨hidentity, hroles, hrole⟩
  · cases h

/-- The claims agree wherever they are read. -/
structure SameClaims (config : OidcConfig) (claims claims' : Claims) : Prop where
  sub : claims'.pointer "/sub".toList = claims.pointer "/sub".toList
  iat : claims'.pointer "/iat".toList = claims.pointer "/iat".toList
  exp : claims'.pointer "/exp".toList = claims.pointer "/exp".toList
  preferredUsername : claims'.pointer "/preferred_username".toList =
    claims.pointer "/preferred_username".toList
  tenant : claims'.pointer config.tenantPointer = claims.pointer config.tenantPointer
  agent : ∀ pointer, config.agentIdPointer = some pointer →
    claims'.pointer pointer = claims.pointer pointer
  azp : config.agentIdPointer = none →
    claims'.pointer "/azp".toList = claims.pointer "/azp".toList
  clientId : config.agentIdPointer = none →
    claims'.pointer "/client_id".toList = claims.pointer "/client_id".toList
  roles : roleClaim config claims' = roleClaim config claims

section Congr

variable {pointer label : Str} {maxBytes : ℕ} (h : claims'.pointer pointer = claims.pointer pointer)

include h

theorem requiredStringClaim_congr : requiredStringClaim debug claims' pointer label maxBytes =
    requiredStringClaim debug claims pointer label maxBytes := by
  rw [requiredStringClaim, h, requiredStringClaim]

theorem optionalStringClaim_congr : optionalStringClaim debug claims' pointer label maxBytes =
    optionalStringClaim debug claims pointer label maxBytes := by
  rw [optionalStringClaim, h, requiredStringClaim_congr h, optionalStringClaim]

theorem requiredU64Claim_congr :
    requiredU64Claim debug claims' pointer label = requiredU64Claim debug claims pointer label := by
  rw [requiredU64Claim, h, requiredU64Claim]

end Congr

theorem agentIdentityFromClaims_congr (h : SameClaims config claims claims') :
    agentIdentityFromClaims debug config claims' = agentIdentityFromClaims debug config claims := by
  unfold agentIdentityFromClaims
  cases hpointer : config.agentIdPointer with
  | some pointer => exact optionalStringClaim_congr (h.agent pointer hpointer)
  | none =>
    have hazp := h.azp hpointer
    have hclient := h.clientId hpointer
    simp only [hazp, hclient]
    split_ifs with hsome
    · rw [optionalStringClaim_congr hazp]
    · rw [optionalStringClaim_congr hclient]

theorem principalFromClaims_congr (h : SameClaims config claims claims') :
    principalFromClaims debug readUuid config claims' requiredRole now =
      principalFromClaims debug readUuid config claims requiredRole now := by
  have hroles : rolesFromClaims config claims' = rolesFromClaims config claims := by
    rw [rolesFromClaims, h.roles, rolesFromClaims]
  unfold principalFromClaims
  rw [requiredStringClaim_congr h.sub, requiredU64Claim_congr h.iat, requiredU64Claim_congr h.exp,
    requiredStringClaim_congr h.tenant, agentIdentityFromClaims_congr h, hroles,
    optionalStringClaim_congr h.preferredUsername]

end Mapping

/-- A principal has the required role and just the roles that are listed where the configuration
says, its identity is an identifier of an agent, and nothing else in the claims matters. -/
theorem claims_mapping (debug : Str → Str) (readUuid : Str → Except Str Uuid) (config : OidcConfig)
    (claims : Claims) (requiredRole : Str) (now : ℕ) :
    (∀ p, principalFromClaims debug readUuid config claims requiredRole now = .ok p →
      requiredRole ∈ p.roles ∧
      (∀ role, role ∈ p.roles ↔ ∃ value listed, roleClaim config claims = some value ∧
        ListsRole value listed ∧ role = Text.trim listed) ∧
      ∀ identity, p.agentIdentity = some identity →
        ∃ id, p.agentId = .ok id ∧ id.text = identity) ∧
    ∀ claims', SameClaims config claims claims' →
      principalFromClaims debug readUuid config claims' requiredRole now =
        principalFromClaims debug readUuid config claims requiredRole now := by
  refine ⟨fun p hp => ?_, fun claims' hsame => principalFromClaims_congr hsame⟩
  obtain ⟨hidentity, hroles, hrole⟩ := principalFromClaims_ok hp
  refine ⟨hrole, fun role => rolesFromClaims_ok hroles, fun identity hsome => ?_⟩
  rw [hsome] at hidentity
  obtain ⟨htrim, hacceptable⟩ := agentIdentityFromClaims_ok hidentity
  exact agentId_of_acceptable hsome htrim hacceptable

section Keycloak

def keycloakConfig : OidcConfig :=
  ⟨"api".toList, "/tenant_id".toList, .keycloakResourceAccess, none⟩

/-- Claims of an agent with one role, and those of another audience. -/
def keycloakClaims (other : Claims) : Claims :=
  .obj [("azp", .str " probe "), ("exp", .num (.posInt 2000)), ("iat", .num (.posInt 1000)),
    ("resource_access", .obj [("api", .obj [("roles", .arr [.str " read "])]), ("other", other)]),
    ("sub", .str "s"), ("tenant_id", .str "00000000000000000000000000000001")]

theorem claims_mapping_keycloak : ∃ p,
    principalFromClaims id (fun text => orError [] (Uuids.parse text)) keycloakConfig
      (keycloakClaims .null) "read".toList 1500 = .ok p ∧ "read".toList ∈ p.roles ∧
    (∃ id, p.agentId = .ok id ∧ id.text = "probe".toList) ∧
    principalFromClaims id (fun text => orError [] (Uuids.parse text)) keycloakConfig
      (keycloakClaims (.obj [("roles", .arr [.str "admin"])])) "read".toList 1500 = .ok p := by
  obtain ⟨p, hp⟩ := exists_ok (x := principalFromClaims id
    (fun text => orError [] (Uuids.parse text)) keycloakConfig (keycloakClaims .null)
    "read".toList 1500) (by decide +kernel)
  obtain ⟨hok, hsame⟩ := claims_mapping id (fun text => orError [] (Uuids.parse text))
    keycloakConfig (keycloakClaims .null) "read".toList 1500
  obtain ⟨hrole, _, hidentity⟩ := hok p hp
  have hprobe : p.agentIdentity = some "probe".toList := by
    have hfound : agentIdentityFromClaims id keycloakConfig (keycloakClaims .null) =
        .ok (some "probe".toList) := by decide +kernel
    rw [(principalFromClaims_ok hp).1] at hfound
    exact Except.ok.inj hfound
  refine ⟨p, hp, hrole, hidentity _ hprobe, (hsame _ ?_).trans hp⟩
  exact ⟨rfl, rfl, rfl, rfl, rfl, nofun, fun _ => rfl, fun _ => rfl, rfl⟩

end Keycloak

end SkidMonitor.Auth
