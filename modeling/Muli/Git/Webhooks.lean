/-
**Webhooks and private addresses.**

The target of a webhook is looked up and checked, and looked up once more by the HTTP client, which
follows no redirects.

* `delivery_public_iff` — **no delivery connects to a private address exactly if no name that has
  passed the check has one when the client looks it up**; addresses that stand in the URL are safe.
-/

import Mathlib.Tactic.Common
import Mathlib.Data.UInt

namespace Muli.Git

/-- An address by its four octets or its eight segments. -/
inductive IpAddr where
  | v4 (a b c d : UInt8)
  | v6 (a b c d e f g h : UInt16)
deriving DecidableEq

/-- Loopback, private, unspecified and link-local addresses. -/
def isPrivateV4 (a b c d : UInt8) : Bool :=
  a = 127 || a = 10 || (a = 172 && b &&& 0xf0 = 16) || (a = 192 && b = 168) ||
    (a = 0 && b = 0 && c = 0 && d = 0) || (a = 169 && b = 254)

/-- Also the mapped IPv4 addresses that are private. -/
def isPrivateIp : IpAddr → Bool
  | .v4 a b c d => isPrivateV4 a b c d
  | .v6 a b c d e f g h =>
    let low := a = 0 && b = 0 && c = 0 && d = 0 && e = 0
    (low && f = 0 && g = 0 && (h = 1 || h = 0)) || a &&& 0xfe00 = 0xfc00 || a &&& 0xffc0 = 0xfe80 ||
      (low && f = 0xffff && isPrivateV4 (g >>> 8).toUInt8 g.toUInt8 (h >>> 8).toUInt8 h.toUInt8)

/-- What a parsed URL has in the place of the host. -/
inductive Host where
  | domain (name : String)
  | ip (address : IpAddr)
deriving DecidableEq

/-- The parts of a parsed URL; the port is the known one if none is given. -/
structure Url where
  scheme : String
  host : Option Host
  port : Option ℕ

/-- What a name server answers for a host and a port. -/
abbrev Dns := String → ℕ → Option (List IpAddr)

inductive WebhookEvent where
  | push | create | delete | prOpened | prMerged | prClosed | pipelineStarted | pipelineCompleted
deriving DecidableEq

/-- A subscription of a repository to some events. -/
structure Webhook where
  url : String
  events : List WebhookEvent
  active : Bool := true

section Delivery

variable (parse : String → Option Url)

/-- The checks that need no lookup. -/
def validateWebhookUrl (url : String) : Except String Unit :=
  if 2048 < url.utf8ByteSize then .error "URL exceeds maximum length of 2048 characters"
  else
    match parse url with
    | none => .error "invalid URL"
    | some parsed =>
      if parsed.scheme ≠ "http" ∧ parsed.scheme ≠ "https" then
        .error "only http and https schemes are allowed"
      else
        match parsed.host with
        | none => .error "URL must have a host"
        | some (.domain domain) =>
          if domain = "localhost" ∨ domain = "localhost.localdomain" ∨
            domain.endsWith ".localhost" then
            .error "localhost URLs are not allowed"
          else .ok ()
        | some (.ip address) =>
          if isPrivateIp address then .error "private IP addresses are not allowed" else .ok ()

/-- The checks of a target before a delivery: those of the URL, and that no address of the name is
private. -/
def validateWebhookTarget (dns : Dns) (url : String) : Except String Unit := do
  validateWebhookUrl parse url
  match parse url with
  | none => .error "invalid URL"
  | some ⟨_, none, _⟩ => .error "URL must have a host"
  | some ⟨_, _, none⟩ => .error "URL must include a known port"
  | some ⟨_, some (.ip address), _⟩ =>
    if isPrivateIp address then .error "private IP addresses are not allowed" else .ok ()
  | some ⟨_, some (.domain domain), some port⟩ =>
    match dns domain port with
    | none => .error "failed to resolve webhook host"
    | some addresses =>
      if addresses.any isPrivateIp then .error "webhook host resolved to a private IP address"
      else if addresses = [] then .error "failed to resolve webhook host"
      else .ok ()

/-- The addresses that the client may connect to, whatever it is answered. -/
def post (dns : Dns) (url : String) : List IpAddr :=
  match parse url with
  | some ⟨_, some (.ip address), _⟩ => [address]
  | some ⟨_, some (.domain domain), port⟩ => (dns domain (port.getD 0)).getD []
  | _ => []

/-- One webhook; the answers of the name servers at the check and at the connection. -/
def deliverWebhook (allowLocalhost : Bool) (event : WebhookEvent) (atCheck atPost : Dns)
    (hook : Webhook) : List IpAddr :=
  if hook.active ∧ event ∈ hook.events ∧
      (allowLocalhost ∨ validateWebhookTarget parse atCheck hook.url = .ok ()) then
    post parse atPost hook.url
  else []

/-- The addresses that the deliveries of an event may connect to; the name servers may answer every
lookup in another way. -/
def deliverWebhooks (allowLocalhost : Bool) (event : WebhookEvent) (dns : ℕ → Dns)
    (hooks : List Webhook) : List IpAddr :=
  hooks.zipIdx.flatMap fun (hook, n) =>
    deliverWebhook parse allowLocalhost event (dns (2 * n)) (dns (2 * n + 1)) hook

variable {parse}

theorem ip_public (isParsed : parse url = some ⟨scheme, some (.ip address), port⟩)
    (valid : validateWebhookTarget parse dns url = .ok ()) : isPrivateIp address = false := by
  by_contra isPrivate
  have refused : validateWebhookUrl parse url ≠ .ok () := by
    unfold validateWebhookUrl
    rw [isParsed]
    dsimp only
    split_ifs <;> simp_all
  cases check : validateWebhookUrl parse url with
  | ok _ => exact refused check
  | error message => simp [validateWebhookTarget, check, bind, Except.bind] at valid

/-- **No delivery connects to a private address** exactly if every name that passes the check has
none when the client looks it up. -/
theorem delivery_public_iff (event : WebhookEvent) (dns : ℕ → Dns) (hooks : List Webhook) :
    (∀ address ∈ deliverWebhooks parse false event dns hooks, isPrivateIp address = false) ↔
      ∀ hook n, (hook, n) ∈ hooks.zipIdx → hook.active → event ∈ hook.events →
        validateWebhookTarget parse (dns (2 * n)) hook.url = .ok () →
        ∀ scheme domain port, parse hook.url = some ⟨scheme, some (.domain domain), port⟩ →
          ∀ address ∈ (dns (2 * n + 1) domain (port.getD 0)).getD [],
          isPrivateIp address = false := by
  constructor
  · intro isPublic hook n member active wants valid scheme domain port isParsed address isAnswer
    refine isPublic address (List.mem_flatMap.mpr ⟨(hook, n), member, ?_⟩)
    simpa [deliverWebhook, active, wants, valid, post, isParsed] using isAnswer
  · intro isPublic address isReached
    obtain ⟨⟨hook, n⟩, member, isReached⟩ := List.mem_flatMap.mp isReached
    simp only [deliverWebhook, Bool.false_eq_true, false_or] at isReached
    split_ifs at isReached with delivered
    · obtain ⟨active, wants, valid⟩ := delivered
      unfold post at isReached
      split at isReached
      next scheme literal port isParsed => grind [ip_public]
      next scheme domain port isParsed =>
        exact isPublic hook n member active wants valid scheme domain port isParsed
          address isReached
      next => simp at isReached
    · simp at isReached

end Delivery

/-- **A name server that answers with a public address first and with `127.0.0.1` later.** -/
theorem delivery_rebinds :
    deliverWebhooks (fun _ => some ⟨"http", some (.domain "hooks.example"), some 80⟩) false .push
      (fun n _ _ => some [if n = 0 then .v4 93 184 216 34 else .v4 127 0 0 1])
      [⟨"http://hooks.example/", [.push], true⟩] = [.v4 127 0 0 1] ∧
      isPrivateIp (.v4 127 0 0 1) = true := by
  decide +kernel

end Muli.Git
