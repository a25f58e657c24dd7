import IncidentRelay.Outbound.Client

/-!
# Where outbound requests go

A request leaves the client once at each hop, to an address of the host of that hop that the
network policy has accepted. What the caller sends goes with it, to whatever server a redirect
has named.

 * `safeRequest_safe_iff`, `deliverWebhook_safe_iff`: when the headers and the body stay at
   the configured server.
-/

namespace IncidentRelay.Outbound

open Rounds

/-- Scheme, host and port. -/
def origin (lib : Library) (url : String) : Option (String × String × ℕ) :=
  (lib.urlsplit (strip url)).bind fun parsed => parsed.port.map fun port =>
    (lower parsed.scheme, parsed.hostname.getD "", portOf parsed.scheme port)

/-- The first address of the host of the hop, all addresses of which the policy accepts. -/
def Checked {ε : Type} (lib : Library) (addresses : ℕ → String → ℕ → Except ε (List IpAddress))
    (allowed : IpAddress → Except ε Bool) (r : Sent) : Prop :=
  ∃ parsed all, lib.urlsplit (strip r.url) = some parsed ∧ r.scheme = parsed.scheme ∧
    addresses r.hop (parsed.hostname.getD "") r.port = .ok all ∧ all.head? = some r.address ∧
    ∀ a ∈ all, allowed a = .ok true

/-- **Requests that are safe**: as many as the limit allows, to addresses that are checked at
the hop, and with the secret headers and the body of the caller for the origin of the
configured URL only. -/
structure SafeRequests {ε : Type} (lib : Library) (maxRedirects : ℤ)
    (addresses : ℕ → String → ℕ → Except ε (List IpAddress)) (allowed : IpAddress → Except ε Bool)
    (url : String) (headers : Headers) (secret : String → Bool) (sent : List Sent) : Prop where
  bounded : sent.length ≤ (maxRedirects + 1).toNat
  checked : ∀ r ∈ sent, Checked lib addresses allowed r
  confined : ∀ r ∈ sent, origin lib r.url ≠ origin lib url →
    (∀ h ∈ r.headers, h ∈ headers → secret h.1 = false) ∧ r.body.getD [] = []

/-- A call that sends nothing is safe. -/
theorem SafeRequests.nil {ε : Type} {lib : Library} {maxRedirects : ℤ}
    {addresses : ℕ → String → ℕ → Except ε (List IpAddress)} {allowed : IpAddress → Except ε Bool}
    {url : String} {headers : Headers} {secret : String → Bool} :
    SafeRequests lib maxRedirects addresses allowed url headers secret [] :=
  ⟨Nat.zero_le _, fun _ hr => absurd hr List.not_mem_nil, fun _ hr => absurd hr List.not_mem_nil⟩

/-! ## The chain of redirects -/

section Chain

variable {ε ρ : Type}

/-- The redirects that the servers name lead to the URL at a hop; the flag says that one of
them was a 303. -/
inductive Visits (resolve : ℕ → String → Except ε Target) (follow : String → String → Except ε String)
    (net : Network) (config : Settings) (start : String) : ℕ → String → Bool → Prop
  | start : Visits resolve follow net config start 0 start false
  | redirect {k : ℕ} {url location next : String} {dropped : Bool} {reply : Reply} {target : Target} :
      Visits resolve follow net config start k url dropped → resolve k url = .ok target →
      net.reply k = .ok reply → reply.body.length ≤ config.maxResponseBytes →
      reply.status ∈ redirectStatuses → reply.location = some location → k < config.maxRedirects →
      follow url location = .ok next →
      Visits resolve follow net config start (k + 1) next (dropped || reply.status = 303)

/-- What a client does at a hop: it sends the request to the target that the URL is resolved
to, and reads the reply of the network. -/
structure Serves (client : Client ε ρ) (lib : Library) (net : Network) (config : Settings)
    (resolve : ℕ → String → Except ε Target) (method : String → String) (headers : Headers)
    (body : Option Bytes → Option Bytes) : Prop where
  sent_iff : ∀ k s r, (client.requestOnce k s).1 = some r ↔ ∃ target, resolve k s.url = .ok target ∧
    r = target.sent lib k (method s.method) s.url headers (body s.body)
  reply_iff : ∀ k s reply, (client.requestOnce k s).2 = .ok reply ↔
    (∃ target, resolve k s.url = .ok target) ∧ net.reply k = .ok reply ∧
      reply.body.length ≤ config.maxResponseBytes
  noBody : client.noBody.getD [] = []
  body_eq : ∀ b, (body b).getD [] = b.getD []

variable {client : Client ε ρ} {lib : Library} {net : Network} {config : Settings}
  {resolve : ℕ → String → Except ε Target} {method : String → String} {headers : Headers}
  {body : Option Bytes → Option Bytes} {k : ℕ} {s s' : HopState}

/-- A hop goes on where its reply is a redirect that is followed. -/
theorem hop_next_iff {maxRedirects : ℤ} : (hop client maxRedirects k s).next = .ok s' ↔
    ∃ reply location next, (client.requestOnce k s).2 = .ok reply ∧ reply.status ∈ redirectStatuses ∧
      reply.location = some location ∧ k < maxRedirects ∧ client.follow s.url location = .ok next ∧
      s' = { url := next, method := if reply.status = 303 then "GET" else s.method,
             body := if reply.status = 303 then client.noBody else s.body } := by
  show afterRequest client maxRedirects k s (client.requestOnce k s).2 = .ok s' ↔ _
  constructor
  · intro h
    unfold afterRequest at h
    split at h
    · cases h
    · rename_i reply hreply
      -- only a redirect with a location within the limit is followed
      by_cases hstatus : reply.status ∈ redirectStatuses
      · rw [if_neg (not_not.mpr hstatus)] at h
        split at h
        · cases h
        · rename_i location hlocation
          by_cases hlimit : maxRedirects ≤ k
          · rw [if_pos hlimit] at h
            cases h
          · rw [if_neg hlimit] at h
            split at h
            · cases h
            · rename_i next hnext
              cases h
              exact ⟨reply, location, next, hreply, hstatus, hlocation, lt_of_not_ge hlimit, hnext, rfl⟩
      · rw [if_pos hstatus] at h
        cases h
  · rintro ⟨reply, location, next, hreply, hstatus, hlocation, hlimit, hnext, rfl⟩
    simp only [hreply, afterRequest]
    rw [if_neg (not_not.mpr hstatus)]
    simp only [hlocation]
    rw [if_neg (not_le_of_gt hlimit)]
    simp only [hnext]

variable (hserves : Serves client lib net config resolve method headers body) {start : HopState}

include hserves

/-- The hops that are reached are those that the redirects lead to; a 303 has taken the body
away. -/
theorem visits_of_reached (h : Reached (hop client config.maxRedirects) 0 start k s) :
    ∃ dropped, Visits resolve client.follow net config start.url k s.url dropped ∧
      s.body = if dropped then client.noBody else start.body := by
  induction h with
  | start => exact ⟨false, .start, rfl⟩
  | @step j t t' _ hnext ih =>
    obtain ⟨dropped, hvisits, hbody⟩ := ih
    obtain ⟨reply, location, next, hreply, hstatus, hlocation, hlimit, hfollow, rfl⟩ := hop_next_iff.mp hnext
    obtain ⟨⟨target, htarget⟩, hanswer, hsize⟩ := (hserves.reply_iff j t reply).mp hreply
    refine ⟨_, .redirect hvisits htarget hanswer hsize hstatus hlocation hlimit hfollow, ?_⟩
    by_cases hget : reply.status = 303
    · simp [hget]
    · simp [hget, hbody]

/-- What is visited is reached. -/
theorem reached_of_visits {url : String} {dropped : Bool}
    (h : Visits resolve client.follow net config start.url k url dropped) :
    ∃ s, Reached (hop client config.maxRedirects) 0 start k s ∧ s.url = url ∧
      s.body = if dropped then client.noBody else start.body := by
  induction h with
  | start => exact ⟨start, .start, rfl, rfl⟩
  | @redirect k url location next dropped reply target _ htarget hanswer hsize hstatus hlocation hlimit
      hfollow ih =>
    obtain ⟨t, hreached, rfl, hbody⟩ := ih
    have hreply := (hserves.reply_iff k t reply).mpr ⟨⟨target, htarget⟩, hanswer, hsize⟩
    have hnext := hop_next_iff.mpr ⟨reply, location, next, hreply, hstatus, hlocation, hlimit, hfollow, rfl⟩
    refine ⟨_, .step hreached hnext, rfl, ?_⟩
    by_cases hget : reply.status = 303
    · simp [hget]
    · simp [hget, hbody]

omit hserves in
/-- A hop behind the first one is within the limit. -/
theorem Visits.lt_limit {follow : String → String → Except ε String} {first url : String} {dropped : Bool}
    (h : Visits resolve follow net config first k url dropped) (hk : 0 < k) :
    k < (config.maxRedirects + 1).toNat := by
  cases h with
  | start => exact absurd hk (lt_irrefl 0)
  | redirect _ _ _ _ _ _ hlimit _ => omega

variable (start) in
/-- **What is confined.** The secret headers and the body stay with the configured origin, if
and only if no hop that resolves has another one while there are secret headers, or a body
that no 303 has taken away. -/
theorem confined_iff (home : Option (String × String × ℕ)) (hstart : origin lib start.url = home)
    (caller : Headers) (secret : String → Bool) :
    (∀ r ∈ (followRedirects client config.maxRedirects start).1, origin lib r.url ≠ home →
        (∀ h ∈ r.headers, h ∈ caller → secret h.1 = false) ∧ r.body.getD [] = []) ↔
      ∀ k url dropped, Visits resolve client.follow net config start.url k url dropped →
        (∃ target, resolve k url = .ok target) → origin lib url ≠ home →
          (∀ h ∈ headers, h ∈ caller → secret h.1 = false) ∧
            (dropped = false → start.body.getD [] = []) := by
  constructor
  -- a redirect that is visited is a request that is sent
  · intro hconfined k url dropped hvisits ⟨target, htarget⟩ horigin
    have hk : 0 < k := by
      rcases Nat.eq_zero_or_pos k with rfl | hk
      · cases hvisits
        exact absurd hstart horigin
      · exact hk
    obtain ⟨s, hreached, rfl, hbody⟩ := reached_of_visits hserves hvisits
    have hsent := (hserves.sent_iff k s _).mpr ⟨target, htarget, rfl⟩
    have hlimit : k < 0 + (config.maxRedirects + 1).toNat := by
      rw [Nat.zero_add]
      exact hvisits.lt_limit hk
    have hmem : target.sent lib k (method s.method) s.url headers (body s.body) ∈
        (followRedirects client config.maxRedirects start).1 :=
      mem_run_iff.mpr ⟨k, s, hreached, hlimit, hsent⟩
    obtain ⟨hheaders, hempty⟩ := hconfined _ hmem horigin
    refine ⟨hheaders, ?_⟩
    rintro rfl
    simpa [Target.sent, hserves.body_eq, hbody] using hempty
  -- a request that is sent goes to the url of its visit
  · intro hchain r hr horigin
    obtain ⟨k, s, hreached, -, hsent⟩ := mem_run_iff.mp hr
    obtain ⟨target, htarget, rfl⟩ := (hserves.sent_iff k s r).mp hsent
    obtain ⟨dropped, hvisits, hbody⟩ := visits_of_reached hserves hreached
    obtain ⟨hheaders, hempty⟩ := hchain k s.url dropped hvisits ⟨target, htarget⟩ horigin
    refine ⟨hheaders, ?_⟩
    -- whether the body has been dropped by then
    cases dropped with
    | false => simpa [Target.sent, hserves.body_eq, hbody] using hempty rfl
    | true => simpa [Target.sent, hserves.body_eq, hbody] using hserves.noBody

omit hserves in
/-- A way that leads on has started. -/
theorem Visits.start_resolves {follow : String → String → Except ε String} {first url : String}
    {dropped : Bool} (h : Visits resolve follow net config first k url dropped) (hk : 0 < k) :
    ∃ target, resolve 0 first = .ok target := by
  induction h with
  | start => exact absurd hk (lt_irrefl 0)
  | @redirect k _ _ _ _ _ target hvisits htarget _ _ _ _ _ _ ih =>
    rcases Nat.eq_zero_or_pos k with rfl | hpos
    · cases hvisits
      exact ⟨target, htarget⟩
    · exact ih hpos

end Chain

/-! ## One hop -/

section Hop

variable {ε ρ : Type} {lib : Library} {net : Network} {config : Settings} {errors : HopErrors ε}
  {validate : String → Except ε String} {allowed : IpAddress → Except ε Bool}

/-- All addresses are allowed. -/
theorem allAllowed_iff {addresses : List IpAddress} :
    allAllowed allowed addresses = .ok true ↔ ∀ a ∈ addresses, allowed a = .ok true := by
  induction addresses with
  | nil => exact iff_of_true rfl fun a ha => absurd ha List.not_mem_nil
  | cons a addresses ih =>
    rw [List.forall_mem_cons, ← ih, allAllowed]
    cases allowed a with
    | error e => simp [bind, Except.bind]
    | ok accepted => cases accepted <;> simp [bind, Except.bind, pure, Except.pure]

/-- **What a hop connects to**: the first address of the host, where all are allowed. -/
theorem resolveTarget_ok (hvalidate : ∀ url value, validate url = .ok value → value = strip url)
    {k : ℕ} {url : String} {target : Target}
    (h : resolveTarget lib net errors validate allowed k url = .ok target) :
    (validate url = .ok (strip url) ∧ lib.urlsplit (strip url) = some target.parsed) ∧
      ∃ all, hostAddresses lib net errors k (target.parsed.hostname.getD "") target.port = .ok all ∧
        all.head? = some target.address ∧ ∀ a ∈ all, allowed a = .ok true := by
  unfold resolveTarget at h
  -- the url is checked, split, resolved and pinned, in this order
  cases hvalue : validate url with
  | error e => simp [hvalue, bind, Except.bind] at h
  | ok value =>
    obtain rfl := hvalidate url value hvalue
    simp only [hvalue, bind, Except.bind] at h
    cases hsplit : lib.urlsplit (strip url) with
    | none => simp [hsplit] at h
    | some parsed =>
      simp only [hsplit] at h
      cases hport : parsed.port with
      | none => simp [hport] at h
      | some parsedPort =>
        simp only [hport] at h
        cases haddresses : hostAddresses lib net errors k (parsed.hostname.getD "")
            (portOf parsed.scheme parsedPort) with
        | error e => simp [haddresses] at h
        | ok all =>
          simp only [haddresses] at h
          cases all with
          | nil => cases h
          | cons address addresses =>
            cases haccepted : allAllowed allowed (address :: addresses) with
            | error e => simp [haccepted] at h
            | ok accepted =>
              cases accepted with
              | false => simp [haccepted] at h
              | true =>
                simp only [haccepted, if_true, pure, Except.pure, Except.ok.injEq] at h
                subst h
                exact ⟨⟨rfl, rfl⟩, _, haddresses, rfl, allAllowed_iff.mp haccepted⟩

/-- What a request sends. -/
theorem requestTarget_sent {resolve : ℕ → String → Except ε Target} {sent : Target → Sent} {k : ℕ}
    {url : String} {r : Sent} : (requestTarget net config errors resolve sent k url).1 = some r ↔
      ∃ target, resolve k url = .ok target ∧ r = sent target := by
  unfold requestTarget
  cases resolve k url with
  | error e => simp
  | ok target =>
    simp only [Except.ok.injEq, exists_eq_left']
    cases net.reply k with
    | error exception => exact Option.some_inj.trans eq_comm
    | ok reply =>
      dsimp only
      split_ifs <;> exact Option.some_inj.trans eq_comm

theorem requestTarget_reply {resolve : ℕ → String → Except ε Target} {sent : Target → Sent} {k : ℕ}
    {url : String} {reply : Reply} :
    (requestTarget net config errors resolve sent k url).2 = .ok reply ↔
      (∃ target, resolve k url = .ok target) ∧ net.reply k = .ok reply ∧
        reply.body.length ≤ config.maxResponseBytes := by
  unfold requestTarget
  cases resolve k url with
  | error e => simp
  | ok target =>
    cases net.reply k with
    | error exception => simp
    | ok answer =>
      simp only [Except.ok.injEq, exists_eq', true_and]
      -- a reply that is too long is not passed on
      by_cases hsize : config.maxResponseBytes < answer.body.length
      · rw [if_pos hsize]
        refine iff_of_false nofun ?_
        rintro ⟨rfl, hle⟩
        exact absurd hsize (not_lt_of_ge hle)
      · rw [if_neg hsize, Except.ok.injEq]
        exact ⟨fun h => ⟨h, h ▸ le_of_not_gt hsize⟩, And.left⟩

/-- Each request of a loop over the redirects is checked at its hop. -/
theorem checked_of_serves {client : Client ε ρ} {method : String → String} {headers : Headers}
    {body : Option Bytes → Option Bytes} {start : HopState}
    (hserves : Serves client lib net config (resolveTarget lib net errors validate allowed) method
      headers body)
    (hvalidate : ∀ url value, validate url = .ok value → value = strip url) :
    ∀ r ∈ (followRedirects client config.maxRedirects start).1,
      Checked lib (hostAddresses lib net errors) allowed r := by
  intro r hr
  obtain ⟨k, s, -, -, hsent⟩ := mem_run_iff.mp hr
  obtain ⟨target, htarget, rfl⟩ := (hserves.sent_iff k s r).mp hsent
  obtain ⟨⟨-, hsplit⟩, all, haddresses, hfirst, hallowed⟩ := resolveTarget_ok hvalidate htarget
  exact ⟨target.parsed, all, hsplit, rfl, haddresses, hfirst, hallowed⟩

end Hop

/-! ## The two clients -/

section Clients

variable (lib : Library) (net : Network) (config : Settings) (url method : String)
  (headers : Headers) (secret : String → Bool)

/-- A URL that is accepted is the stripped one. -/
theorem validateOutboundUrl_ok {lib : Library} {url value : String}
    (h : validateOutboundUrl lib url = .ok value) : value = strip url := by
  unfold validateOutboundUrl at h
  dsimp only at h
  split at h
  · cases h
  · split_ifs at h
    cases h
    rfl

theorem validateUrlSyntax_ok {lib : Library} {config : Settings} {url value : String}
    (h : validateUrlSyntax lib config url = .ok value) : value = strip url := by
  unfold validateUrlSyntax at h
  dsimp only at h
  split at h
  · cases h
  · split_ifs at h
    cases h
    rfl

/-- The client for outbound requests. -/
theorem outbound_serves (sentHeaders : Headers) :
    Serves (outboundClient lib net config sentHeaders) lib net config
      (resolveOutboundTarget lib net config) upper (outboundHeaders sentHeaders) id where
  sent_iff _ _ _ := requestTarget_sent
  reply_iff _ _ _ := requestTarget_reply
  noBody := rfl
  body_eq _ := rfl

theorem webhook_serves (policy : String) :
    Serves (webhookClient lib net config policy headers) lib net config
      (resolveWebhookTarget lib net config policy) id (webhookHeaders headers)
      fun body => body.filter (· ≠ []) where
  sent_iff _ _ _ := requestTarget_sent
  reply_iff _ _ _ := requestTarget_reply
  noBody := rfl
  body_eq body := by
    cases body with
    | none => rfl
    | some bytes =>
      cases bytes with
      | nil => rfl
      | cons byte bytes => rfl

/-- A payload adds a header at most. -/
theorem mem_of_encodePayload {payload : Payload} {sentHeaders : Headers} {body : Option Bytes}
    (h : encodePayload lib headers payload = .ok (sentHeaders, body)) {name : String × String}
    (hname : name ∈ headers) : name ∈ sentHeaders := by
  unfold encodePayload at h
  split at h
  · cases h
    exact hname
  · split at h
    · cases h
    · cases h
      unfold setDefault
      split_ifs
      · exact hname
      · exact List.mem_append_left _ hname
  · cases h
    exact hname
  · cases h
    exact hname

/-- Encoding a payload adds no secret. -/
theorem encodePayload_headers {payload : Payload} {sentHeaders : Headers} {body : Option Bytes}
    (h : encodePayload lib headers payload = .ok (sentHeaders, body)) :
    (∀ h ∈ outboundHeaders sentHeaders, h ∈ headers → secret h.1 = false) ↔
      ∀ h ∈ outboundHeaders headers, secret h.1 = false := by
  unfold outboundHeaders
  constructor
  · intro hall name hname
    obtain ⟨hmem, hkept⟩ := List.mem_filter.mp hname
    exact hall name (List.mem_filter.mpr ⟨mem_of_encodePayload lib headers h hmem, hkept⟩) hmem
  · intro hall name hname hmem
    exact hall name (List.mem_filter.mpr ⟨hmem, (List.mem_filter.mp hname).2⟩)

/-- No redirect that is followed leads `safe_request` to another origin while there are secret
headers, or a body that no 303 has taken away. -/
def OutboundStays (payload : Payload) : Prop :=
  ∀ sentHeaders body, encodePayload lib headers payload = .ok (sentHeaders, body) →
    ∀ k hop dropped,
      Visits (resolveOutboundTarget lib net config) (outboundFollow lib) net config (strip url) k hop dropped →
      (∃ target, resolveOutboundTarget lib net config k hop = .ok target) →
      origin lib hop ≠ origin lib url →
        (∀ h ∈ outboundHeaders headers, secret h.1 = false) ∧ (dropped = false → body.getD [] = [])

/-- The same for `deliver_webhook`. -/
def WebhookStays (policy : String) (body : Bytes) : Prop :=
  ∀ k hop dropped,
    Visits (resolveWebhookTarget lib net config policy) (webhookFollow lib config) net config url k hop dropped →
    (∃ target, resolveWebhookTarget lib net config policy k hop = .ok target) →
    origin lib hop ≠ origin lib url →
      (∀ h ∈ webhookHeaders headers, secret h.1 = false) ∧ (dropped = false → body = [])

theorem origin_strip : origin lib (strip url) = origin lib url := by
  unfold origin
  rw [strip_strip]

/-- `safe_request`: the limit and the checks hold always, the rest where nothing is led away. -/
theorem safeRequest_safe_iff (payload : Payload) :
    SafeRequests lib config.maxRedirects (hostAddresses lib net outboundErrors) (addressAllowed config)
        url headers secret (safeRequest lib net config method url payload headers).1 ↔
      OutboundStays lib net config url headers secret payload := by
  unfold safeRequest OutboundStays
  cases hurl : validateOutboundUrl lib url with
  | error e =>
    -- the URL is refused at the first hop as well
    refine iff_of_true SafeRequests.nil fun sentHeaders body _ k hop dropped hvisits hresolves horigin => ?_
    have hfirst : ∃ target, resolveOutboundTarget lib net config 0 (strip url) = .ok target := by
      rcases Nat.eq_zero_or_pos k with rfl | hk
      · cases hvisits
        exact hresolves
      · exact hvisits.start_resolves hk
    obtain ⟨target, htarget⟩ := hfirst
    have hvalid := (resolveTarget_ok (fun _ _ => validateOutboundUrl_ok) htarget).1.1
    have hsame : validateOutboundUrl lib (strip url) = validateOutboundUrl lib url := by
      unfold validateOutboundUrl
      rw [strip_strip]
    rw [hsame, hurl] at hvalid
    cases hvalid
  | ok current =>
    obtain rfl := validateOutboundUrl_ok hurl
    cases hpayload : encodePayload lib headers payload with
    | error e => exact iff_of_true SafeRequests.nil nofun
    | ok encoded =>
      obtain ⟨sentHeaders, body⟩ := encoded
      have hserves := outbound_serves lib net config sentHeaders
      have hconfined := confined_iff hserves
        ⟨strip url, upper (if method = "" then "GET" else method), body⟩ (origin lib url) (origin_strip lib url) headers secret
      constructor
      · rintro hsafe _ _ ⟨⟩ k hop dropped hvisits hresolves horigin
        have hhop := hconfined.mp hsafe.confined k hop dropped hvisits hresolves horigin
        exact ⟨(encodePayload_headers lib headers secret hpayload).mp hhop.1, hhop.2⟩
      · intro hstays
        refine ⟨length_run_le _ _ _, checked_of_serves hserves fun _ _ => validateOutboundUrl_ok, ?_⟩
        refine hconfined.mpr fun k hop dropped hvisits hresolves horigin => ?_
        have hhop := hstays sentHeaders body rfl k hop dropped hvisits hresolves horigin
        exact ⟨(encodePayload_headers lib headers secret hpayload).mpr hhop.1, hhop.2⟩

/-- `deliver_webhook`: the same. -/
theorem deliverWebhook_safe_iff (policy : String) (body : Bytes) :
    SafeRequests lib config.maxRedirects (hostAddresses lib net webhookErrors) (ipAllowed config policy)
        url headers secret (deliverWebhook lib net config policy url method headers body).1 ↔
      WebhookStays lib net config url headers secret policy body := by
  have hserves := webhook_serves lib net config headers policy
  have hconfined := confined_iff hserves ⟨url, method, some body⟩ (origin lib url) rfl headers
    secret
  have hheaders : (∀ h ∈ webhookHeaders headers, h ∈ headers → secret h.1 = false) ↔
      ∀ h ∈ webhookHeaders headers, secret h.1 = false :=
    ⟨fun hall h hh => hall h hh (List.mem_filter.mp hh).1, fun hall h hh _ => hall h hh⟩
  rw [hheaders] at hconfined
  constructor
  · intro hsafe
    exact hconfined.mp hsafe.confined
  · intro hstays
    exact ⟨length_run_le _ _ _, checked_of_serves hserves fun _ _ => validateUrlSyntax_ok,
      hconfined.mpr hstays⟩

end Clients

/-- **The requests of both clients are safe if and only if** no redirect that is followed leads
to another origin while there are secret headers, or a body that no 303 has taken away. -/
theorem outbound_safe_iff (lib : Library) (net : Network) (config : Settings) (url method : String)
    (headers : Headers) (secret : String → Bool) :
    (∀ payload, SafeRequests lib config.maxRedirects (hostAddresses lib net outboundErrors)
        (addressAllowed config) url headers secret
        (safeRequest lib net config method url payload headers).1 ↔
      OutboundStays lib net config url headers secret payload) ∧
    ∀ policy body, SafeRequests lib config.maxRedirects (hostAddresses lib net webhookErrors)
        (ipAllowed config policy) url headers secret
        (deliverWebhook lib net config policy url method headers body).1 ↔
      WebhookStays lib net config url headers secret policy body :=
  ⟨safeRequest_safe_iff lib net config url method headers secret,
    deliverWebhook_safe_iff lib net config url method headers secret⟩

def httpsUrl (host path : String) : SplitUrl where
  scheme := "https"
  hostname := some host
  username := none
  password := none
  port := some none
  path := path
  query := ""
  fragment := ""

/-- Two URLs and one public address. -/
def twoServers : Library where
  urlsplit url :=
    if url = "https://hooks.example.com/in" then some (httpsUrl "hooks.example.com" "/in")
    else if url = "https://other.example.net/" then some (httpsUrl "other.example.net" "/")
    else none
  urljoin _ location := some location
  requestPath path _ := path
  ipAddress text :=
    if text = "93.184.216.34" then some ⟨text, false, false, false, false, false, false, false⟩ else none
  dumps _ := some "{}"
  charClasses := { alnum := Char.isAlphanum, decimal := Char.isDigit }

/-- The first server redirects to the second one. -/
def redirecting : Network where
  getaddrinfo _ _ _ := some ["93.184.216.34"]
  reply k :=
    if k = 0 then .ok ⟨302, [("Location", "https://other.example.net/")], []⟩ else .ok ⟨200, [], []⟩

def defaultSettings : Settings where
  maxRedirects := 3
  maxResponseBytes := 1048576
  allowlistNetworks := some []
  allowHttp := false

/-- A request with a token to the first server. -/
def tokenRequest : List Sent × Except OutboundHttpError OutboundHttpResponse :=
  safeRequest twoServers redirecting defaultSettings "POST" "https://hooks.example.com/in" (.text "{}")
    [("Authorization", "Bearer token")]

/-- **The token of the configured server is sent to the server of the redirect.** -/
theorem token_sent_elsewhere : ¬∀ (lib : Library) (net : Network) (config : Settings)
    (method url : String) (payload : Payload) (headers : Headers) (secret : String → Bool),
    SafeRequests lib config.maxRedirects (hostAddresses lib net outboundErrors) (addressAllowed config)
      url headers secret (safeRequest lib net config method url payload headers).1 := by
  intro h
  have hsafe := h twoServers redirecting defaultSettings "POST" "https://hooks.example.com/in"
    (.text "{}") [("Authorization", "Bearer token")] (· = "Authorization")
  have hsent : ("https://other.example.net/", some ("Authorization", "Bearer token")) ∈
      tokenRequest.1.map fun r => (r.url, r.headers.head?) := by decide +kernel
  obtain ⟨r, hr, heq⟩ := List.mem_map.mp hsent
  have hurl : r.url = "https://other.example.net/" := congrArg Prod.fst heq
  have hheader : r.headers.head? = some ("Authorization", "Bearer token") := congrArg Prod.snd heq
  have horigin : origin twoServers r.url ≠ origin twoServers "https://hooks.example.com/in" := by
    rw [hurl]
    decide +kernel
  have hsecret := (hsafe.confined r hr horigin).1 _ (List.mem_of_mem_head? hheader)
    (List.mem_singleton_self _)
  exact absurd hsecret (by decide)

end IncidentRelay.Outbound
