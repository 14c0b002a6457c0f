import SkidMonitor.Client.LocalStorage
import SkidMonitor.Lib.Fallible
import SkidMonitor.Lib.Text

/-! The names a tenant goes by in the browser: the stream ticket that proves it, and the keys under
which the data of its scope are stored. -/
namespace SkidMonitor.Client

open List

open Browser (BrowserStorageScope cursorStorageKey cursorStoragePrefix)

section Tickets

open Fallible
open Uuids (Uuid)

variable (parse : Str → Option Uuid) (print : Uuid → Str)

/-- The text that the server's handler writes for a ticket of a tenant. -/
def streamTicketText (tenantId : TenantId) (ticketId : Uuid) : Str :=
  print tenantId.uuid ++ '.' :: print ticketId

structure ApiError where
  status : ℕ
  code : String
  message : String
  deriving DecidableEq

def invalidStreamTicket : ApiError :=
  ⟨401, "invalid_stream_ticket", "the one-time stream ticket is invalid or expired"⟩

/-- The server's reader of a ticket. -/
def parseStreamTicket (value : Str) : Except ApiError (TenantId × Uuid) := do
  let parts ← orError invalidStreamTicket (Text.splitOnce '.' value)
  let tenantId ← orError invalidStreamTicket (parse parts.1)
  let ticketId ← orError invalidStreamTicket (parse parts.2)
  return (⟨tenantId⟩, ticketId)

/-- The client's reader of a ticket. -/
def tenantFromStreamTicket (value : Str) : Except String TenantId := do
  let parts ← orError "stream-ticket response contains an invalid ticket"
    (Text.splitOnce '.' value)
  if '.' ∈ parts.2 then throw "stream-ticket response contains an invalid ticket"
  let tenantId ← orError "stream-ticket response contains an invalid tenant" (parse parts.1)
  let ticketId ← orError "stream-ticket response contains an invalid ticket" (parse parts.2)
  if print tenantId ≠ parts.1 ∨ print ticketId ≠ parts.2 then
    throw "stream-ticket response must use canonical UUIDs"
  return ⟨tenantId⟩

variable {parse print}

/-- The client accepts just the canonical texts. -/
theorem tenantFromStreamTicket_ok {value : Str} {tenantId : TenantId}
    (h : tenantFromStreamTicket parse print value = .ok tenantId) : ∃ ticketId,
      value = streamTicketText print tenantId ticketId ∧ '.' ∉ print tenantId.uuid ∧
        parse (print tenantId.uuid) = some tenantId.uuid ∧ parse (print ticketId) = some ticketId := by
  unfold tenantFromStreamTicket at h
  obtain ⟨⟨tenant, ticket⟩, hsplit, hparts⟩ := bind_ok h
  obtain ⟨hdot, rfl⟩ := Text.splitOnce_eq_some.mp (orError_ok.mp hsplit)
  split_ifs at hparts
  · cases hparts
  obtain ⟨tenantUuid, htenant, hrest⟩ := bind_ok hparts
  obtain ⟨ticketId, hticket, hlast⟩ := bind_ok hrest
  split_ifs at hlast with hcanonical
  · cases hlast
  cases hlast
  push Not at hcanonical
  obtain ⟨rfl, rfl⟩ := hcanonical
  exact ⟨ticketId, rfl, hdot, orError_ok.mp htenant, orError_ok.mp hticket⟩

theorem splitOnce_text {tenantId : TenantId} {ticketId : Uuid} (hdot : '.' ∉ print tenantId.uuid) :
    Text.splitOnce '.' (streamTicketText print tenantId ticketId) =
      some (print tenantId.uuid, print ticketId) :=
  Text.splitOnce_eq_some.mpr ⟨hdot, rfl⟩

theorem parseStreamTicket_text {tenantId : TenantId} {ticketId : Uuid}
    (hdot : '.' ∉ print tenantId.uuid)
    (htenant : parse (print tenantId.uuid) = some tenantId.uuid)
    (hticket : parse (print ticketId) = some ticketId) :
    parseStreamTicket parse (streamTicketText print tenantId ticketId) = .ok (tenantId, ticketId) := by
  rw [parseStreamTicket, splitOnce_text hdot]
  simp only [orError, ok_bind, htenant, hticket]
  rfl

/-- The tenant the client takes from a ticket is the one the server takes from it, and every ticket
the server writes is read by both. -/
theorem stream_ticket_agreement (hparse : ∀ u, parse (print u) = some u)
    (hdot : ∀ u, '.' ∉ print u) :
    (∀ value tenantId, tenantFromStreamTicket parse print value = .ok tenantId → ∃ ticketId,
      parseStreamTicket parse value = .ok (tenantId, ticketId) ∧
        value = streamTicketText print tenantId ticketId) ∧
    ∀ tenantId ticketId,
      tenantFromStreamTicket parse print (streamTicketText print tenantId ticketId) =
        .ok tenantId ∧
      parseStreamTicket parse (streamTicketText print tenantId ticketId) =
        .ok (tenantId, ticketId) := by
  constructor
  · intro value tenantId h
    obtain ⟨ticketId, rfl, hfree, htenant, hticket⟩ := tenantFromStreamTicket_ok h
    exact ⟨ticketId, parseStreamTicket_text hfree htenant hticket, rfl⟩
  · intro tenantId ticketId
    refine ⟨?_, parseStreamTicket_text (hdot _) (hparse _) (hparse _)⟩
    rw [tenantFromStreamTicket, splitOnce_text (hdot _)]
    simp only [orError, ok_bind, if_neg (hdot ticketId), hparse, ne_eq, not_true_eq_false, or_self,
      if_false]
    rfl

theorem stream_ticket_agreement_printed :
    tenantFromStreamTicket Uuids.parse Uuids.print (streamTicketText Uuids.print ⟨7⟩ 9) = .ok ⟨7⟩ :=
  ((stream_ticket_agreement Uuids.parse_print Uuids.dot_notMem_print).2 ⟨7⟩ 9).1

end Tickets

section Keys

def avatarProfileKey : Str := "skid-monitor.avatar-reaction-profile.v1".toList

/-- What the browser stores for a scope. -/
inductive StoredData where
  | edges
  | alertState
  | alertEvents
  | avatarProfile
  | cursor
  deriving DecidableEq

/-- What the keys of this data begin with. -/
def StoredData.base : StoredData → Str
  | .edges => edgesKey
  | .alertState => alertStateKey
  | .alertEvents => alertEventsKey
  | .avatarProfile => avatarProfileKey
  | .cursor => cursorStoragePrefix

/-- The key of the data of a scope. A cursor is kept for cloud scopes only. -/
def StoredData.key : StoredData → BrowserStorageScope → Option Str
  | .cursor, .cloud endpoint tenantId => some (cursorStorageKey endpoint tenantId)
  | .cursor, _ => none
  | data, scope => storageKey data.base scope

variable {data data' : StoredData} {scope scope' : BrowserStorageScope} {key : Str}

theorem base_isPrefix (h : data.key scope = some key) : data.base <+: key := by
  cases data <;> cases scope <;> cases h <;>
    simp only [StoredData.base, browserStorageKey, cursorStorageKey, append_assoc,
      prefix_append, prefix_refl]

/-- No kind of data has keys that begin like those of another. -/
theorem base_unique (h : data.base <+: data'.base) : data = data' := by
  revert h
  cases data <;> cases data' <;> decide

theorem tenantSuffix_inj {endpoint endpoint' : Str} {tenantId tenantId' : TenantId}
    (h : endpoint ++ (":tenant:".toList ++ Uuids.print tenantId.uuid) =
      endpoint' ++ (":tenant:".toList ++ Uuids.print tenantId'.uuid)) :
    endpoint = endpoint' ∧ tenantId = tenantId' := by
  -- the tenant is printed in as many characters as any other, so the texts part where it begins
  obtain ⟨hendpoint, htenant⟩ := append_inj' h (by simp)
  have huuid := Uuids.print_injective (append_cancel_left htenant)
  cases tenantId
  cases tenantId'
  exact ⟨hendpoint, congrArg TenantId.mk huuid⟩

theorem browserStorageKey_inj {base endpoint endpoint' : Str} {tenantId tenantId' : TenantId}
    (h : browserStorageKey base endpoint tenantId = browserStorageKey base endpoint' tenantId') :
    endpoint = endpoint' ∧ tenantId = tenantId' := by
  simp only [browserStorageKey, append_assoc] at h
  exact tenantSuffix_inj (append_cancel_left (append_cancel_left h))

theorem cursorKey_inj {endpoint endpoint' : Str} {tenantId tenantId' : TenantId}
    (h : cursorStorageKey endpoint tenantId = cursorStorageKey endpoint' tenantId') :
    endpoint = endpoint' ∧ tenantId = tenantId' := by
  simp only [cursorStorageKey, append_assoc] at h
  exact tenantSuffix_inj (append_cancel_left h)

theorem base_ne_browserStorageKey {base endpoint : Str} {tenantId : TenantId} :
    base ≠ browserStorageKey base endpoint tenantId := by
  intro h
  have hlength := congrArg List.length h
  simp [browserStorageKey] at hlength

theorem storageKey_scope {base : Str} (h : storageKey base scope = some key)
    (h' : storageKey base scope' = some key) : scope = scope' := by
  have heq := h.trans h'.symm
  cases scope with
  | cloudPending => cases h
  | legacy =>
    cases scope' with
    | legacy => rfl
    | cloudPending => cases h'
    | cloud endpoint tenantId => exact absurd (Option.some.inj heq) base_ne_browserStorageKey
  | cloud endpoint tenantId =>
    cases scope' with
    | legacy => exact absurd (Option.some.inj heq).symm base_ne_browserStorageKey
    | cloudPending => cases h'
    | cloud endpoint' tenantId' =>
      obtain ⟨rfl, rfl⟩ := browserStorageKey_inj (Option.some.inj heq)
      rfl

theorem scope_unique (h : data.key scope = some key) (h' : data.key scope' = some key) :
    scope = scope' := by
  cases data with
  | cursor =>
    have heq := h.trans h'.symm
    cases scope with
    | legacy | cloudPending => cases h
    | cloud endpoint tenantId =>
      cases scope' with
      | legacy | cloudPending => cases h'
      | cloud endpoint' tenantId' =>
        obtain ⟨rfl, rfl⟩ := cursorKey_inj (Option.some.inj heq)
        rfl
  | _ => exact storageKey_scope h h'

theorem data_unique (h : data.key scope = some key) (h' : data'.key scope' = some key) :
    data = data' := by
  rcases prefix_or_prefix_of_prefix (base_isPrefix h) (base_isPrefix h') with hp | hp
  · exact base_unique hp
  · exact (base_unique hp).symm

/-- The keys of two kinds of data, or of two scopes, are different, and there is none before a
tenant is known. -/
theorem storage_keys_disjoint :
    (∀ (data data' : StoredData) (scope scope' : BrowserStorageScope) (key : Str),
      data.key scope = some key → data'.key scope' = some key → data = data' ∧ scope = scope') ∧
    ∀ data : StoredData, data.key .cloudPending = none := by
  constructor
  · intro data data' scope scope' key h h'
    obtain rfl := data_unique h h'
    exact ⟨rfl, scope_unique h h'⟩
  · intro data
    cases data <;> rfl

end Keys

end SkidMonitor.Client
