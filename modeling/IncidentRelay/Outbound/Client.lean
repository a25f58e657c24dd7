import IncidentRelay.Lib.Rounds
import IncidentRelay.Redaction

/-!
# Outbound requests

The two clients that send requests to configured URLs and follow redirects: `safe_request` of
the integrations and `deliver_webhook` of the event orchestration. Each hop resolves its host,
checks all addresses against the network policy and connects to the first of them.

Names are resolved and requests are answered by the network, which may do so differently at
every hop.
-/

namespace IncidentRelay.Outbound

open Redaction Rounds

abbrev Bytes := List UInt8

/-- A dictionary of header names and values. -/
abbrev Headers := List (String × String)

/-! ## The standard library -/

/-- What `urlsplit(url)` returns. -/
structure SplitUrl where
  scheme : String
  hostname : Option String
  username : Option String
  password : Option String
  /-- Nothing where reading the port raises. -/
  port : Option (Option ℕ)
  path : String
  query : String
  fragment : String

/-- An address of `ipaddress`, with the properties that are read. -/
structure IpAddress where
  text : String
  isVersion6 : Bool
  isPrivate : Bool
  isLoopback : Bool
  isLinkLocal : Bool
  isMulticast : Bool
  isReserved : Bool
  isUnspecified : Bool
  deriving DecidableEq

/-- `urllib.parse`, `ipaddress` and `json.dumps`; nothing stands for an error. -/
structure Library where
  urlsplit : String → Option SplitUrl
  urljoin : String → String → Option String
  /-- `urlunsplit(("", "", path, query, ""))` -/
  requestPath : String → String → String
  ipAddress : String → Option IpAddress
  dumps : Json → Option String
  charClasses : CharClasses

/-- What a server answers. -/
structure Reply where
  status : ℕ
  headers : Headers
  body : Bytes

/-- The answers of the network at each hop. -/
structure Network where
  /-- `socket.getaddrinfo(host, port)`, or a resolution error. -/
  getaddrinfo : ℕ → String → ℕ → Option (List String)
  /-- The response, or the class of the exception that the request ends in. -/
  reply : ℕ → Except String Reply

/-- The settings of a client; a network is the set of its addresses. -/
structure Settings where
  maxRedirects : ℤ
  maxResponseBytes : ℕ
  /-- `_allowlist_networks()`, or nothing where an item is invalid. -/
  allowlistNetworks : Option (List (IpAddress → Bool))
  /-- `ORCHESTRATION_WEBHOOK_ALLOW_HTTP` -/
  allowHttp : Bool

/-- A request as it leaves the client. -/
structure Sent where
  hop : ℕ
  method : String
  url : String
  scheme : String
  address : IpAddress
  port : ℕ
  path : String
  host : String
  headers : Headers
  body : Option Bytes

/-! ## What both clients share -/

/-- The text is there and not empty. -/
def isSet (text : Option String) : Bool := text.any (· ≠ "")

def redirectStatuses : List ℕ := [301, 302, 303, 307, 308]

def defaultPort (scheme : String) : ℕ := if lower scheme = "https" then 443 else 80

/-- `parsed.port or (443 if … else 80)`, with the port that was read. -/
def portOf (scheme : String) (port : Option ℕ) : ℕ :=
  match port with
  | none | some 0 => defaultPort scheme
  | some port => port

/-- `_host_header` -/
def hostHeader (lib : Library) (parsed : SplitUrl) (port : Option ℕ) : String :=
  let name := parsed.hostname.getD ""
  let host := if (lib.ipAddress name).any (·.isVersion6) then "[" ++ name ++ "]" else name
  match port with
  | none | some 0 => host
  | some port => if port ≠ defaultPort parsed.scheme then host ++ ":" ++ toString port else host

/-- `urlunsplit(("", "", parsed.path or "/", parsed.query, ""))` -/
def pathOf (lib : Library) (parsed : SplitUrl) : String :=
  lib.requestPath (if parsed.path = "" then "/" else parsed.path) parsed.query

/-- One of the six properties of an address that is not public. -/
def IpAddress.unsafeAddress (a : IpAddress) : Bool :=
  a.isPrivate || a.isLoopback || a.isLinkLocal || a.isMulticast || a.isReserved || a.isUnspecified

/-- The addresses of the answers of the name service, each once. -/
def answers (lib : Library) (infos : List String) : List IpAddress :=
  (infos.filterMap lib.ipAddress).eraseDups

/-- `all(allowed(address) for address in addresses)` -/
def allAllowed {ε : Type} (allowed : IpAddress → Except ε Bool) : List IpAddress → Except ε Bool
  | [] => .ok true
  | address :: addresses => do
    if ← allowed address then allAllowed allowed addresses else return false

/-- What a URL is resolved to. -/
structure Target where
  parsed : SplitUrl
  parsedPort : Option ℕ
  address : IpAddress
  port : ℕ

/-- The request to a target. -/
def Target.sent (lib : Library) (target : Target) (k : ℕ) (method url : String) (headers : Headers)
    (body : Option Bytes) : Sent where
  hop := k
  method := method
  url := url
  scheme := target.parsed.scheme
  address := target.address
  port := target.port
  path := pathOf lib target.parsed
  host := hostHeader lib target.parsed target.parsedPort
  headers := headers
  body := body

/-- The errors of a hop, as each client words them. -/
structure HopErrors (ε : Type) where
  /-- A `ValueError` of the standard library. -/
  value : ε
  unresolved : ε
  noAddresses : ε
  blocked : ε
  failed : String → ε
  tooLarge : Reply → ε

section Hop

variable {ε : Type} (lib : Library) (net : Network) (config : Settings) (errors : HopErrors ε)

/-- The addresses of a host: itself, or the answers of the name service. -/
def hostAddresses (k : ℕ) (host : String) (port : ℕ) : Except ε (List IpAddress) :=
  match lib.ipAddress host with
  | some address => .ok [address]
  | none =>
    match net.getaddrinfo k host port with
    | none => .error errors.unresolved
    | some infos => .ok (answers lib infos)

/-- The shape of `resolve_outbound_target` and `resolve_webhook_target`. -/
def resolveTarget (validate : String → Except ε String) (allowed : IpAddress → Except ε Bool) (k : ℕ)
    (url : String) : Except ε Target := do
  let value ← validate url
  match lib.urlsplit value with
  | none => .error errors.value
  | some parsed =>
    match parsed.port with
    | none => .error errors.value
    | some parsedPort =>
      let port := portOf parsed.scheme parsedPort
      match ← hostAddresses lib net errors k (parsed.hostname.getD "") port with
      | [] => .error errors.noAddresses
      | address :: addresses =>
        -- one address that is not allowed is enough
        if ← allAllowed allowed (address :: addresses) then
          return { parsed := parsed, parsedPort := parsedPort, address := address, port := port }
        else .error errors.blocked

/-- The shape of the two functions `_request_once`, with what each sends to the target. -/
def requestTarget (resolve : ℕ → String → Except ε Target) (sent : Target → Sent) (k : ℕ)
    (url : String) : Option Sent × Except ε Reply :=
  match resolve k url with
  | .error e => (none, .error e)
  | .ok target =>
    match net.reply k with
    | .error exception => (some (sent target), .error (errors.failed exception))
    | .ok reply =>
      if config.maxResponseBytes < reply.body.length then
        (some (sent target), .error (errors.tooLarge reply))
      else (some (sent target), .ok reply)

end Hop

/-- `response_headers.get("Location") or response_headers.get("location")` -/
def Reply.location (reply : Reply) : Option String :=
  ((reply.headers.lookup "Location").filter (· ≠ "") <|> reply.headers.lookup "location").filter (· ≠ "")

/-- What a hop starts with. -/
structure HopState where
  url : String
  method : String
  body : Option Bytes

/-- How the clients differ. -/
structure Client (ε ρ : Type) where
  /-- `_request_once`: the request that is sent, and the reply that is read. -/
  requestOnce : ℕ → HopState → Option Sent × Except ε Reply
  /-- The next URL, behind its validation. -/
  follow : String → String → Except ε String
  response : ℕ → HopState → Reply → ρ
  limitExceeded : ε
  /-- The body behind a 303. -/
  noBody : Option Bytes

/-- The loop over the redirects behind a request: what it returns, or the next hop. -/
def afterRequest {ε ρ : Type} (client : Client ε ρ) (maxRedirects : ℤ) (k : ℕ) (s : HopState)
    (outcome : Except ε Reply) : Except (Except ε ρ) HopState :=
  match outcome with
  | .error e => .error (.error e)
  | .ok reply =>
    if reply.status ∉ redirectStatuses then .error (.ok (client.response k s reply))
    else
      match reply.location with
      | none => .error (.ok (client.response k s reply))
      | some location =>
        if maxRedirects ≤ k then .error (.error client.limitExceeded)
        else
          match client.follow s.url location with
          | .error e => .error (.error e)
          | .ok url => .ok
              { url := url
                method := if reply.status = 303 then "GET" else s.method
                body := if reply.status = 303 then client.noBody else s.body }

/-- One hop of the loop. -/
def hop {ε ρ : Type} (client : Client ε ρ) (maxRedirects : ℤ) (k : ℕ) (s : HopState) :
    Round HopState Sent (Except ε ρ) where
  emitted := (client.requestOnce k s).1
  next := afterRequest client maxRedirects k s (client.requestOnce k s).2

/-- `for redirect_count in range(max_redirects + 1)` -/
def followRedirects {ε ρ : Type} (client : Client ε ρ) (maxRedirects : ℤ) (s : HopState) :
    List Sent × Except ε ρ :=
  run (hop client maxRedirects) (.error client.limitExceeded) (maxRedirects + 1).toNat 0 s

/-! ## `outbound_http` -/

section OutboundHttp

inductive OutboundHttpError where
  | security (message : String)
  | http (message : String)
  /-- A `ValueError` of the standard library. -/
  | value
  deriving DecidableEq

structure OutboundHttpResponse where
  statusCode : ℕ
  body : Bytes
  headers : Headers
  url : String

variable (lib : Library) (net : Network) (config : Settings)

/-- `validate_outbound_url` -/
def validateOutboundUrl (url : String) : Except OutboundHttpError String :=
  let value := strip url
  match lib.urlsplit value with
  | none => .error .value
  | some parsed =>
    if lower parsed.scheme ∉ ["http", "https"] then
      .error (.security "outbound URL must use http or https")
    else if !isSet parsed.hostname then .error (.security "outbound URL requires a hostname")
    else if isSet parsed.username || isSet parsed.password then
      .error (.security "outbound URL must not contain userinfo credentials")
    else if parsed.fragment ≠ "" then
      .error (.security "outbound URL must not contain a fragment")
    else .ok value

/-- `_address_allowed` -/
def addressAllowed (address : IpAddress) : Except OutboundHttpError Bool :=
  if !address.unsafeAddress then .ok true
  else
    match config.allowlistNetworks with
    | none => .error (.security "invalid outbound private-network allowlist")
    | some networks => .ok (networks.any fun network => network address)

def outboundErrors : HopErrors OutboundHttpError where
  value := .value
  unresolved := .http "outbound hostname resolution failed"
  noAddresses := .http "outbound hostname resolved to no addresses"
  blocked := .security "outbound target resolves to a blocked network"
  failed exception := .http ("outbound HTTP request failed: " ++ exception)
  tooLarge _ := .http "outbound HTTP response exceeded size limit"

/-- `resolve_outbound_target` at a hop. -/
def resolveOutboundTarget : ℕ → String → Except OutboundHttpError Target :=
  resolveTarget lib net outboundErrors (validateOutboundUrl lib) (addressAllowed config)

/-- The headers of a request without the ones that name the host. -/
def outboundHeaders (headers : Headers) : Headers :=
  headers.filter fun h => h.1 ≠ "Host" ∧ h.1 ≠ "host"

/-- `_request_once` of `safe_request` -/
def outboundRequestOnce (headers : Headers) (k : ℕ) (s : HopState) :
    Option Sent × Except OutboundHttpError Reply :=
  requestTarget net config outboundErrors (resolveOutboundTarget lib net config)
    (fun target => target.sent lib k (upper s.method) s.url (outboundHeaders headers) s.body) k s.url

/-- `validate_outbound_url(urljoin(current_url, location))` -/
def outboundFollow (url location : String) : Except OutboundHttpError String :=
  match lib.urljoin url location with
  | none => .error .value
  | some next => validateOutboundUrl lib next

def outboundClient (headers : Headers) : Client OutboundHttpError OutboundHttpResponse where
  requestOnce := outboundRequestOnce lib net config headers
  follow := outboundFollow lib
  response _ s reply :=
    { statusCode := reply.status, body := reply.body, headers := reply.headers, url := s.url }
  limitExceeded := .security "outbound redirect limit exceeded"
  noBody := none

/-- What a caller sends: `json` or `data`. -/
inductive Payload where
  | none
  | json (value : Json)
  | text (value : String)
  | bytes (value : Bytes)

/-- `request_headers.setdefault(name, value)` -/
def setDefault (headers : Headers) (name value : String) : Headers :=
  if headers.any (·.1 = name) then headers else headers ++ [(name, value)]

/-- The headers and the body of a payload. -/
def encodePayload (headers : Headers) (payload : Payload) :
    Except OutboundHttpError (Headers × Option Bytes) :=
  match payload with
  | .none => .ok (headers, Option.none)
  | .json value =>
    match lib.dumps value with
    | Option.none => .error .value
    | some text =>
      .ok (setDefault headers "Content-Type" "application/json", some text.toUTF8.toList)
  | .text value => .ok (headers, some value.toUTF8.toList)
  | .bytes value => .ok (headers, some value)

/-- `safe_request`: the requests that are sent, and what is returned. -/
def safeRequest (method url : String) (payload : Payload) (headers : Headers) :
    List Sent × Except OutboundHttpError OutboundHttpResponse :=
  match validateOutboundUrl lib url with
  | .error e => ([], .error e)
  | .ok current =>
    match encodePayload lib headers payload with
    | .error e => ([], .error e)
    | .ok (headers, body) =>
      followRedirects (outboundClient lib net config headers) config.maxRedirects
        { url := current, method := upper (if method = "" then "GET" else method), body := body }

end OutboundHttp

/-! ## `orchestration.webhooks` -/

section Webhooks

inductive WebhookError where
  | validation (message : String)
  | security (message : String)
  | delivery (message : String) (retryable : Bool) (status : Option ℕ)
  /-- A `ValueError` of the standard library. -/
  | value
  deriving DecidableEq

structure WebhookResponse where
  status : ℕ
  body : Bytes
  finalUrl : String
  redirects : ℕ

variable (lib : Library) (net : Network) (config : Settings) (privateNetworkPolicy : String)

/-- `_validate_url_syntax` -/
def validateUrlSyntax (url : String) : Except WebhookError String :=
  let value := strip url
  match lib.urlsplit value with
  | none => .error .value
  | some parsed =>
    if lower parsed.scheme ∉ ["http", "https"] then
      .error (.validation "webhook URL must use http or https")
    else if isSet parsed.username || isSet parsed.password then
      .error (.validation "webhook URL must not contain credentials")
    else if !isSet parsed.hostname then .error (.validation "webhook URL requires a hostname")
    else if parsed.fragment ≠ "" then
      .error (.validation "webhook URL must not contain a fragment")
    else if redactString lib.charClasses value ≠ value then
      .error (.validation
        "webhook URL must not contain secret query parameters; use encrypted headers")
    else if lower parsed.scheme = "http" && !config.allowHttp then
      .error (.validation "webhook URL must use HTTPS")
    else .ok value

/-- `_ip_allowed` -/
def ipAllowed (address : IpAddress) : Except WebhookError Bool :=
  if !address.unsafeAddress then .ok true
  else if privateNetworkPolicy ≠ "allowlist" then .ok false
  else
    match config.allowlistNetworks with
    | none => .error (.security "invalid private network allowlist")
    | some networks => .ok (networks.any fun network => network address)

def webhookErrors : HopErrors WebhookError where
  value := .value
  unresolved := .delivery "webhook DNS resolution failed" true none
  noAddresses := .delivery "webhook hostname resolved to no addresses" true none
  blocked := .security "webhook target resolves to a blocked network"
  failed exception := .delivery ("webhook request failed: " ++ exception) true none
  tooLarge reply := .delivery "webhook response exceeded the configured size limit" false
    (some reply.status)

/-- `resolve_webhook_target` at a hop. -/
def resolveWebhookTarget : ℕ → String → Except WebhookError Target :=
  resolveTarget lib net webhookErrors (validateUrlSyntax lib config)
    (ipAllowed config privateNetworkPolicy)

/-- The headers of a request, the host of which is replaced. -/
def webhookHeaders (headers : Headers) : Headers := headers.filter fun h => h.1 ≠ "Host"

/-- `_request_once` of `deliver_webhook`, which sends `body or None`. -/
def webhookRequestOnce (headers : Headers) (k : ℕ) (s : HopState) :
    Option Sent × Except WebhookError Reply :=
  requestTarget net config webhookErrors (resolveWebhookTarget lib net config privateNetworkPolicy)
    (fun target => target.sent lib k s.method s.url (webhookHeaders headers) (s.body.filter (· ≠ [])))
    k s.url

/-- `urljoin(current_url, location)`, behind `_validate_url_syntax`. -/
def webhookFollow (url location : String) : Except WebhookError String :=
  match lib.urljoin url location with
  | none => .error .value
  | some next => (validateUrlSyntax lib config next).map fun _ => next

def webhookClient (headers : Headers) : Client WebhookError WebhookResponse where
  requestOnce := webhookRequestOnce lib net config privateNetworkPolicy headers
  follow := webhookFollow lib config
  response k s reply :=
    { status := reply.status, body := reply.body, finalUrl := s.url, redirects := k }
  limitExceeded := .delivery "webhook redirect limit exceeded" false none
  noBody := some []

/-- `deliver_webhook`: the requests that are sent, and what is returned. -/
def deliverWebhook (url method : String) (headers : Headers) (body : Bytes) :
    List Sent × Except WebhookError WebhookResponse :=
  followRedirects (webhookClient lib net config privateNetworkPolicy headers) config.maxRedirects
    { url := url, method := method, body := some body }

end Webhooks

end IncidentRelay.Outbound
