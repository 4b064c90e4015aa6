import WatchGate.Multiwatch.Rehearsal
import WatchGate.Proofs.Hops
import WatchGate.Proofs.Setup
import WatchGate.Startup

/-!
# WatchGate — what feeds are told about a client

`forward` looks at four names among a client's headers and writes five. Its result is
a row of blocks, one for each name, so that the values that it has of a name are those
of one block (`all_told`). Two requests that are `Alike` where it looks are forwarded
alike, and headers of other names may be put in place of one another without effect
(`alike_replaced`).

Behind the forwarded headers come those that a director adds, and nothing else goes
with a dial. The name that a bearer token is sent under is none of the five, so that
what the director adds is all that is sent under it.

Main result: `client_confined`.
-/

namespace WatchGate

open Http

-- ---------------------------------------------------------------------------
-- Values of a name
-- ---------------------------------------------------------------------------

namespace Http.Headers

variable {h : Headers} {name other : String}

/-- With other values of a name, in place of those that there are. -/
def replaced (h : Headers) (name : String) (values : List Bytes) : Headers :=
  (h.erase name).appendAll (values.map fun v => ⟨name, v⟩)

theorem all_replaced_of_ne (hn : name ≠ other) (values : List Bytes) :
    (h.replaced name values).all other = h.all other := by
  unfold replaced appendAll
  rw [all_of_append, all_of_block, if_neg hn, List.append_nil]
  exact all_erase_of_ne h hn

end Http.Headers

namespace Multiwatch

-- ---------------------------------------------------------------------------
-- Names
-- ---------------------------------------------------------------------------

/-- The names among a client's headers that are looked at. -/
def readNames : List String :=
  ["origin", "sec-websocket-protocol", "cookie", "x-forwarded-for"]

/-- The names under which a feed is told about the client. -/
def toldNames : List String := readNames ++ ["x-forwarded-proto"]

/-- Headers that say the same about a client wherever they are looked at. -/
structure Alike (h h' : Headers) : Prop where
  origin : h'.get? "origin" = h.get? "origin"
  protocols : h'.all "sec-websocket-protocol" = h.all "sec-websocket-protocol"
  cookies : h'.all "cookie" = h.all "cookie"
  /-- the addresses, less the values that are no text -/
  hops : h'.texts "x-forwarded-for" = h.texts "x-forwarded-for"

variable {h h' : Headers} {client : Ip} {proto : Bytes} {name : String}

theorem forward_of_alike (ha : Alike h h') (client : Ip) (proto : Bytes) :
    forward h' client proto = forward h client proto := by
  unfold forward hops forwardedFor
  rw [ha.origin, ha.protocols, ha.cookies, ha.hops]

/-- The values of a name that is not looked at play no part. -/
theorem alike_replaced (hn : name ∉ readNames) (values : List Bytes) :
    Alike h (h.replaced name values) := by
  have hall : ∀ other ∈ readNames, (h.replaced name values).all other = h.all other := by
    intro other hother
    have hne : name ≠ other := by
      rintro rfl
      exact hn hother
    exact Headers.all_replaced_of_ne hne values
  exact {
    origin := congrArg List.head? (hall "origin" (by decide))
    protocols := hall _ (by decide)
    cookies := hall _ (by decide)
    hops := congrArg (List.filterMap Header.text?) (hall "x-forwarded-for" (by decide)) }

-- ---------------------------------------------------------------------------
-- Forwarded headers
-- ---------------------------------------------------------------------------

/-- The values that a feed is told under each name. -/
def toldValues (h : Headers) (client : Ip) (proto : Bytes) : List (String × List Bytes) :=
  [("origin", (h.get? "origin").toList),
    ("sec-websocket-protocol", h.all "sec-websocket-protocol"),
    ("cookie", h.all "cookie"),
    ("x-forwarded-for", [asciiBytes (forwardedFor h client)]),
    ("x-forwarded-proto", [proto])]

/-- Forwarded headers are a row of blocks, one for each name. -/
theorem forward_eq_blocks (h : Headers) (client : Ip) (proto : Bytes) :
    (forward h client proto).toList =
      (toldValues h client proto).flatMap fun x => x.2.map fun v => ⟨x.1, v⟩ := by
  simp [forward, hops_eq, toldValues]

theorem all_told (h : Headers) (client : Ip) (proto : Bytes) {x : String × List Bytes}
    (hx : x ∈ toldValues h client proto) : (forward h client proto).all x.1 = x.2 := by
  simp only [toldValues, List.mem_cons, List.not_mem_nil, or_false] at hx
  unfold forward
  simp only [hops_eq, Headers.all_of_append, Headers.all_of_block,
    Headers.all_of_single]
  rcases hx with rfl | rfl | rfl | rfl | rfl <;> simp

theorem name_of_mem_forward {x : Header} (hx : x ∈ (forward h client proto).toList) :
    x.name ∈ toldNames := by
  rw [forward_eq_blocks] at hx
  obtain ⟨block, hblock, hx⟩ := List.mem_flatMap.mp hx
  obtain ⟨v, -, rfl⟩ := List.mem_map.mp hx
  have hnames : (toldValues h client proto).map Prod.fst = toldNames := rfl
  rw [← hnames]
  exact List.mem_map_of_mem hblock

theorem all_forward_of_notMem (hn : name ∉ toldNames) : (forward h client proto).all name = [] := by
  unfold Headers.all
  rw [List.map_eq_nil_iff, List.filter_eq_nil_iff]
  intro x hx heq
  exact hn (of_decide_eq_true heq ▸ name_of_mem_forward hx)

-- ---------------------------------------------------------------------------
-- Dials
-- ---------------------------------------------------------------------------

/-- What a director adds to the headers of a request's dials. -/
def Service.additions (s : Service) (r : Request) : List Header :=
  match s.director with
  | none => []
  | some d => d r

/-- What feeds are told about the client of a request. -/
def Service.told (s : Service) (r : Request) : Headers :=
  forward r.headers r.client s.forwardedProto

theorem dialHeaders_eq (s : Service) (r : Request) :
    (dialHeaders s r).2 = (s.told r).appendAll (s.additions r) := by
  unfold dialHeaders Service.additions Service.told Headers.appendAll
  cases s.director with
  | none => simp
  | some d => rfl

theorem headers_of_prepare {s : Service} {r : Request} {caller : Identity} {calls : List Call}
    {l : Launch} (h : s.prepare r caller = (calls, .ok l)) :
    l.headers = (s.told r).appendAll (s.additions r) := by
  obtain ⟨key, b, plan, targets, -, -, -, -, -, rfl⟩ := prepare_eq_ok h
  exact dialHeaders_eq s r

/-- The headers that a handshake writes by itself, less host and key. -/
def ownHeaders : List Header :=
  [⟨"connection", Bytes.ofAscii "Upgrade"⟩, ⟨"upgrade", Bytes.ofAscii "websocket"⟩,
    ⟨"sec-websocket-version", Bytes.ofAscii "13"⟩]

/-- None of what is told about a client goes by a name that a handshake writes itself. -/
theorem filter_own_forward :
    (forward h client proto).toList.filter (fun x => !ownNames.contains x.name) =
      (forward h client proto).toList := by
  rw [List.filter_eq_self]
  intro x hx
  have hdisjoint : ∀ name ∈ toldNames, (!ownNames.contains name) = true := by decide
  exact hdisjoint x.name (name_of_mem_forward hx)

theorem handshake_eq {more : List Header} {sent : Headers}
    (hs : handshake? ((forward h client proto).appendAll more) = some sent) :
    sent.toList = ownHeaders ++ (forward h client proto).toList ++
      more.filter fun x => !ownNames.contains x.name := by
  unfold handshake? Headers.appendAll at hs
  simp only [List.filter_append, filter_own_forward] at hs
  split at hs
  · cases hs
    exact (List.append_assoc ..).symm
  · cases hs

-- ---------------------------------------------------------------------------
-- Tokens
-- ---------------------------------------------------------------------------

/-- A token that is accepted is sent without the blanks around it. -/
theorem tokenDirector_eq_ok {text : List Char} {d : Director}
    (h : Startup.tokenDirector text = .ok d) : d = bearer (Utf8.encode (Text.trim text)) := by
  unfold Startup.tokenDirector at h
  simp only at h
  split at h
  · cases h
    rfl
  · cases h

/-- A program that is to send a token starts with one that is accepted. -/
theorem director_of_gateway {o : Options} {k : Startup.Kubeconfig} {api : Cluster.Api}
    {files : String → Option Bytes} {g : Gateway} {path : String}
    (hg : Startup.gateway o k api files = .ok g) (hpath : o.backendTokenFile = some path) :
    ∃ text d, (files path).bind Utf8.decode? = some text ∧
      Startup.tokenDirector text = .ok d ∧ g.service.director = some d := by
  unfold Startup.gateway Startup.director at hg
  split at hg
  · cases hg
  · simp only [hpath] at hg
    cases htext : (files path).bind Utf8.decode? with
    | none => simp [htext, Except.map] at hg
    | some text =>
      cases hd : Startup.tokenDirector text with
      | error e => simp [htext, hd, Except.map] at hg
      | ok d =>
        simp only [htext, hd, Except.map, Except.ok.injEq] at hg
        subst hg
        exact ⟨text, d, rfl, hd, rfl⟩

theorem all_authorization {s : Service} {r : Request} {text : List Char} {d : Director}
    (hd : Startup.tokenDirector text = .ok d) (hs : s.director = some d) :
    ((s.told r).appendAll (s.additions r)).all "authorization" =
      [Bytes.ofAscii "Bearer " ++ Utf8.encode (Text.trim text)] := by
  have htold : (s.told r).all "authorization" = [] := all_forward_of_notMem (by decide)
  have hadded : s.additions r =
      [⟨"authorization", Bytes.ofAscii "Bearer " ++ Utf8.encode (Text.trim text)⟩] := by
    unfold Service.additions
    rw [hs, tokenDirector_eq_ok hd]
    rfl
  -- what the client sent under this name is not among what is told
  unfold Headers.appendAll
  rw [Headers.all_of_append, htold, hadded, List.nil_append]
  exact Headers.all_of_single _ _ _

-- ---------------------------------------------------------------------------
-- Confinement
-- ---------------------------------------------------------------------------

/-- What of a client's request goes with the dials of its feeds, and what does not. -/
structure Confined (s : Service) (r : Request) : Prop where
  /-- a dial takes along what is told about the client, and behind it what the director adds -/
  dials : ∀ caller calls l, s.prepare r caller = (calls, .ok l) →
    l.headers.toList = (s.told r).toList ++ s.additions r
  /-- and this is what each handshake holds, apart from what it writes by itself -/
  handshakes : ∀ caller calls l, s.prepare r caller = (calls, .ok l) →
    ∀ c, ∀ x ∈ Rehearsal.handshakes c l, x.2.toList =
      (ownHeaders ++ (s.told r).toList ++
        (s.additions r).filter fun y => !ownNames.contains y.name).map
          fun y => { y with value := Request.received y.value }
  names : ∀ x ∈ (s.told r).toList, x.name ∈ ["origin", "sec-websocket-protocol", "cookie",
    "x-forwarded-for", "x-forwarded-proto"]
  /-- a request from the same address with the same first origin, sub-protocols, cookies and
  addresses on its way is told about alike -/
  alike : ∀ r' : Request, r'.client = r.client →
    r'.headers.get? "origin" = r.headers.get? "origin" →
    r'.headers.all "sec-websocket-protocol" = r.headers.all "sec-websocket-protocol" →
    r'.headers.all "cookie" = r.headers.all "cookie" →
    r'.headers.texts "x-forwarded-for" = r.headers.texts "x-forwarded-for" →
    s.told r' = s.told r
  /-- so that it does not matter what goes by any other name -/
  others : ∀ name, name ∉ ["origin", "sec-websocket-protocol", "cookie", "x-forwarded-for"] →
    ∀ values, s.told { r with headers := r.headers.replaced name values } = s.told r
  origin : (s.told r).all "origin" = (r.headers.get? "origin").toList
  /-- all sub-protocols and cookies are told, in their order -/
  protocols : (s.told r).all "sec-websocket-protocol" = r.headers.all "sec-websocket-protocol"
  cookies : (s.told r).all "cookie" = r.headers.all "cookie"
  /-- the addresses on the way, and the client's own behind them -/
  hops : (s.told r).all "x-forwarded-for" = [asciiBytes (Text.glue [',', ' ']
    (r.headers.texts "x-forwarded-for" ++ [r.client.chars]))]
  proto : (s.told r).all "x-forwarded-proto" = [s.forwardedProto]
  /-- a token that is accepted goes with each dial, and no other authorization does -/
  token : ∀ text d, Startup.tokenDirector text = .ok d → s.director = some d →
    ∀ caller calls l, s.prepare r caller = (calls, .ok l) →
      l.headers.all "authorization" = [Bytes.ofAscii "Bearer " ++ Utf8.encode (Text.trim text)]

/--
**Only what is meant for them reaches the feeds.** For every request and director,
every client address and forwarded protocol: what goes with the dials is what
`forward` tells about the client and what the director adds. Five names are told at
most, and of the client's own headers four names are looked at; whatever else a client
sends, be it an authorization, an identity or a forwarded protocol, changes nothing.
With a bearer token for a director its value is the one authorization that is sent,
and a program that is started with a token file has such a director.
-/
theorem client_confined :
    (∀ (s : Service) (r : Request), Confined s r) ∧
    ∀ (o : Options) (k : Startup.Kubeconfig) (api : Cluster.Api) (files : String → Option Bytes)
      (g : Gateway) (path : String), Startup.gateway o k api files = .ok g →
      o.backendTokenFile = some path →
      ∃ text d, (files path).bind Utf8.decode? = some text ∧
        Startup.tokenDirector text = .ok d ∧ g.service.director = some d := by
  refine ⟨fun s r => ?_, fun o k api files g path => director_of_gateway⟩
  have htold : ∀ x ∈ toldValues r.headers r.client s.forwardedProto,
      (s.told r).all x.1 = x.2 := fun x => all_told r.headers r.client s.forwardedProto
  constructor
  case dials =>
    intro caller calls l h
    rw [headers_of_prepare h]
    rfl
  case handshakes =>
    intro caller calls l h c x hx
    unfold Rehearsal.handshakes at hx
    rw [headers_of_prepare h] at hx
    split at hx
    · cases hx
    · next sent hsent =>
      obtain ⟨t, -, rfl⟩ := List.mem_map.mp hx
      exact congrArg (List.map _) (handshake_eq hsent)
  case names => exact fun x hx => name_of_mem_forward hx
  case alike =>
    intro r' hclient horigin hprotocols hcookies hhops
    unfold Service.told
    rw [hclient]
    exact forward_of_alike ⟨horigin, hprotocols, hcookies, hhops⟩ _ _
  case others =>
    intro name hn values
    exact forward_of_alike (alike_replaced hn values) _ _
  case origin => exact htold _ (.head _)
  case protocols => exact htold _ (.tail _ (.head _))
  case cookies => exact htold _ (.tail _ (.tail _ (.head _)))
  case hops => exact htold _ (.tail _ (.tail _ (.tail _ (.head _))))
  case proto => exact htold _ (.tail _ (.tail _ (.tail _ (.tail _ (.head _)))))
  case token =>
    intro text d hd hs caller calls l h
    rw [headers_of_prepare h]
    exact all_authorization hd hs

theorem exists_eq_ok {ε α : Type} {x : Except ε α} (h : x.isOk = true) : ∃ a, x = .ok a := by
  cases x with
  | error e => cases h
  | ok a => exact ⟨a, rfl⟩

/-- A client that sends an authorization and a protocol of its own, beside its cookies. -/
def pushyRequest : Request :=
  { Gateway.watchRequest with
    headers := Gateway.watchRequest.headers.appendAll
      [⟨"authorization", Bytes.ofAscii "Bearer stolen"⟩,
        ⟨"x-forwarded-proto", Bytes.ofAscii "https"⟩,
        ⟨"cookie", Bytes.ofAscii "a=1"⟩, ⟨"cookie", Bytes.ofAscii "b=2"⟩,
        ⟨"x-forwarded-for", Bytes.ofAscii "10.0.0.9"⟩] }

/-- A cluster that serves no resources. -/
def bareApi : Cluster.Api where
  get path :=
    if path = "/apis" then .ok ⟨200, "\x7b\"groups\":[]\x7d"⟩
    else if path = "/api" then .ok ⟨200, "\x7b\"versions\":[\"v1\"]\x7d"⟩
    else .ok ⟨200, "\x7b\"groupVersion\":\"v1\",\"resources\":[]\x7d"⟩
  post _ := (.error .unreachable, 0)

/-- What a program is started with that is to send the token of a file. -/
def tokenOptions : Options := { Options.standard with backendTokenFile := some "token" }

/-- The file, with blanks around its token. -/
def tokenFile : String → Option Bytes := fun _ => some (Bytes.ofAscii " secret\n")

/-- Pods and nodes, with more headers to their dials. -/
def directedService (d : Director) : Service :=
  { (Gateway.podsAndNodesGateway []).service with director := some d }

/-- The token of the file goes with the dials, and the client's authorization does not. -/
theorem pushyRequest_confined :
    ∃ g d, Startup.gateway tokenOptions ⟨[], []⟩ bareApi tokenFile = .ok g ∧
      g.service.director = some d ∧
      ∃ calls l, (directedService d).prepare pushyRequest ⟨"alice", []⟩ = (calls, .ok l) ∧
        l.headers.toList = [⟨"cookie", Bytes.ofAscii "a=1"⟩, ⟨"cookie", Bytes.ofAscii "b=2"⟩,
          ⟨"x-forwarded-for", Bytes.ofAscii "10.0.0.9, 127.0.0.1"⟩,
          ⟨"x-forwarded-proto", Bytes.ofAscii "http"⟩,
          ⟨"authorization", Bytes.ofAscii "Bearer secret"⟩] ∧
        l.headers.all "authorization" = [Bytes.ofAscii "Bearer secret"] := by
  obtain ⟨hconfined, hstarted⟩ := client_confined
  obtain ⟨g, hg⟩ := exists_eq_ok
    (by decide +kernel : (Startup.gateway tokenOptions ⟨[], []⟩ bareApi tokenFile).isOk = true)
  obtain ⟨text, d, htext, hd, hs⟩ := hstarted _ _ _ _ g _ hg rfl
  obtain rfl : " secret\n".toList = text := Option.some.inj (.trans (by decide +kernel) htext)
  have hbearer := tokenDirector_eq_ok hd
  have hready : ((directedService d).prepare pushyRequest ⟨"alice", []⟩).2.isOk = true := by
    rw [hbearer]
    decide +kernel
  obtain ⟨l, hl⟩ := exists_eq_ok hready
  have hprepared : (directedService d).prepare pushyRequest ⟨"alice", []⟩ = (_, .ok l) :=
    Prod.ext rfl hl
  have hc := hconfined (directedService d) pushyRequest
  refine ⟨g, d, hg, hs, _, l, hprepared, ?_, ?_⟩
  · rw [hc.dials _ _ l hprepared, hbearer]
    decide +kernel
  · rw [hc.token _ d hd rfl _ _ l hprepared]
    decide +kernel

end Multiwatch

end WatchGate
