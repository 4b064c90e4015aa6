import WatchGate.Proofs.Session.Dials
import WatchGate.Proofs.Setup

/-!
# WatchGate — what a client is told of the first feed

The response that lets a client in has five names. Three of them are its own: two
say that the protocol is switched, and one answers the key of the client's request.
The other two are copied from the answer of the feed whose dial was the first to
succeed, and `copyFirst` copies one value of a name. This is all there is to a
negotiated sub-protocol, of which a feed names one, and it is not all of its
cookies: those behind the first do not reach the client.

Main results:

* `all_switching` — the values that the response has of a name.
* `negotiation_told` — which values of the first feed reach the client, and which do not.
* `secondCookie_dropped` — a cookie that does not.
-/

namespace WatchGate.Multiwatch

open Http

variable {given h : Headers} {key : Bytes} {first : Headers} {name other : String}

-- ---------------------------------------------------------------------------
-- Copied values
-- ---------------------------------------------------------------------------

/-- A name that was not there has the first of the values that are copied. -/
theorem all_copyFirst_self (hn : h.all name = []) :
    (copyFirst name given h).all name = (given.all name).take 1 := by
  unfold copyFirst
  rw [List.take_one, ← Headers.get?]
  cases given.get? name with
  | none => exact hn
  | some v => exact Headers.all_set_self h name v

theorem all_copyFirst_of_ne (hn : name ≠ other) :
    (copyFirst name given h).all other = h.all other := by
  unfold copyFirst
  cases given.get? name with
  | none => rfl
  | some v => exact Headers.all_set_of_ne h hn v

-- ---------------------------------------------------------------------------
-- The response
-- ---------------------------------------------------------------------------

/-- The headers of the response that are its own. -/
def switchHeaders (key : Bytes) : Headers :=
  ⟨[⟨"connection", Bytes.ofAscii "Upgrade"⟩, ⟨"upgrade", Bytes.ofAscii "websocket"⟩,
    ⟨"sec-websocket-accept", acceptKey key⟩]⟩

/-- The names that are copied from the first feed. -/
def copiedNames : List String := ["sec-websocket-protocol", "set-cookie"]

theorem all_switchHeaders_of_copied (hn : name ∈ copiedNames) :
    (switchHeaders key).all name = [] := by
  simp only [copiedNames, List.mem_cons, List.not_mem_nil, or_false] at hn
  rcases hn with rfl | rfl <;> rfl

/-- Of the names that are copied the response has the first value of the feed, and of any other
what it has by itself. -/
theorem all_switching (key : Bytes) (first : Headers) (name : String) :
    (switching key first).headers.all name =
      if name ∈ copiedNames then (first.all name).take 1 else (switchHeaders key).all name := by
  have hheaders : (switching key first).headers =
      copyFirst "set-cookie" first (copyFirst "sec-websocket-protocol" first (switchHeaders key)) :=
    rfl
  rw [hheaders]
  split
  · next hn =>
    have hnone : (switchHeaders key).all name = [] := all_switchHeaders_of_copied hn
    simp only [copiedNames, List.mem_cons, List.not_mem_nil, or_false] at hn
    rcases hn with rfl | rfl
    · rw [all_copyFirst_of_ne (by decide), all_copyFirst_self hnone]
    · refine all_copyFirst_self ?_
      rw [all_copyFirst_of_ne (by decide), hnone]
  · next hn =>
    simp only [copiedNames, List.mem_cons, List.not_mem_nil, or_false, not_or] at hn
    rw [all_copyFirst_of_ne (Ne.symm hn.2), all_copyFirst_of_ne (Ne.symm hn.1)]

/-- What a client that is let in is told by a response: its own key is answered, and of the
feed's answer it gets the sub-protocol and the first cookie. -/
structure Tells (key : Bytes) (first : Headers) (x : Response) : Prop where
  status : x.status = 101
  body : x.body = []
  connection : x.headers.all "connection" = [Bytes.ofAscii "Upgrade"]
  upgrade : x.headers.all "upgrade" = [Bytes.ofAscii "websocket"]
  accept : x.headers.all "sec-websocket-accept" = [acceptKey key]
  protocol : x.headers.all "sec-websocket-protocol" = (first.get? "sec-websocket-protocol").toList
  cookie : x.headers.all "set-cookie" = (first.get? "set-cookie").toList
  /-- so that the cookies are those of the feed exactly if it sets no more than one -/
  cookies : x.headers.all "set-cookie" = first.all "set-cookie" ↔
    (first.all "set-cookie").length ≤ 1
  /-- whatever else the feed has answered stays behind -/
  others : ∀ name, name ∉ ["connection", "upgrade", "sec-websocket-accept",
    "sec-websocket-protocol", "set-cookie"] → x.headers.all name = []

theorem tells_switching (key : Bytes) (first : Headers) : Tells key first (switching key first) where
  status := rfl
  body := rfl
  connection := all_switching key first _
  upgrade := all_switching key first _
  accept := all_switching key first _
  protocol := (all_switching key first _).trans List.take_one
  cookie := (all_switching key first _).trans List.take_one
  cookies := by
    rw [all_switching, if_pos (by decide)]
    constructor
    · intro hall
      rw [← hall]
      exact List.length_take_le 1 _
    · exact List.take_of_length_le
  others name hn := by
    simp only [List.mem_cons, List.not_mem_nil, or_false, not_or] at hn
    obtain ⟨hconnection, hupgrade, haccept, hprotocol, hcookie⟩ := hn
    rw [all_switching, if_neg (by simp [copiedNames, hprotocol, hcookie])]
    simp [Headers.all, switchHeaders, Ne.symm hconnection, Ne.symm hupgrade, Ne.symm haccept]

-- ---------------------------------------------------------------------------
-- The first feed
-- ---------------------------------------------------------------------------

/--
**What a client is told of the first feed.** For every key of a client and every set of
headers of the feed that was dialed first: the response switches protocols, answers the key,
and has the sub-protocol of the feed and the first of its cookies. The cookies behind the
first are dropped, and so is everything of any other name. Wherever a request with this key is
served and its dials end in any order, a client that is let in is told this by the first dial
that succeeded.
-/
theorem negotiation_told (key : Bytes) (first : Headers) :
    Tells key first (switching key first) ∧
    ∀ (s : Service) (r : Request) (caller : Identity) (calls : List Call) (l : Launch),
      s.prepare r caller = (calls, .ok l) → clientKey? r.headers = some key →
      ∀ (outboundBuffer : Nat) (given : Nat → Headers) (es : List Event) (t : Session),
        (l.session outboundBuffer).run es = some t →
        ∀ x, Session.Answered (l.session outboundBuffer) l.key given es x → x.status = 101 →
          ∃ i, (Session.successes es).head? = some i ∧ (given i = first → Tells key first x) := by
  refine ⟨tells_switching key first, ?_⟩
  intro s r caller calls l hl hkey outboundBuffer given es t hrun x hx hstatus
  obtain ⟨key', b, plan, targets, hkey', -, -, -, -, rfl⟩ := prepare_eq_ok hl
  obtain rfl : key' = key := Option.some.inj (hkey'.symm.trans hkey)
  rcases (Session.answered_iff hrun).mp hx with ⟨i, hi, rfl⟩ | ⟨-, rfl⟩
  · refine ⟨i, hi, ?_⟩
    rintro rfl
    exact tells_switching key' (given i)
  · -- who is turned away is not told to switch protocols
    exact absurd hstatus (by decide)

theorem eq_ok_of_toOption {ε α : Type} {y : Except ε α} {a : α} (h : y.toOption = some a) :
    y = .ok a := by
  cases y with
  | error e => cases h
  | ok b => exact congrArg Except.ok (Option.some.inj h)

/-- A feed that names a sub-protocol, sets two cookies and says what it is. -/
def chattyFeed : Headers :=
  ⟨[⟨"sec-websocket-protocol", Bytes.ofAscii "v1.watch"⟩, ⟨"set-cookie", Bytes.ofAscii "a=1"⟩,
    ⟨"server", Bytes.ofAscii "apiserver"⟩, ⟨"set-cookie", Bytes.ofAscii "b=2"⟩]⟩

/-- One dial fails, and the next one lets the client in. -/
def secondDial : List Event := [.dialed 1 false, .dialed 2 true]

/-- The client is told of its sub-protocol and its first cookie. -/
theorem chattyFeed_told :
    ∃ calls l t x, (Gateway.podsAndNodesGateway []).service.prepare Gateway.watchRequest
        ⟨"alice", []⟩ = (calls, .ok l) ∧
      (l.session 1).run secondDial = some t ∧
      Session.Answered (l.session 1) l.key (fun _ => chattyFeed) secondDial x ∧ x.status = 101 ∧
      x.headers.all "sec-websocket-accept" =
        [acceptKey (Bytes.ofAscii "dGhlIHNhbXBsZSBub25jZQ==")] ∧
      x.headers.all "sec-websocket-protocol" = [Bytes.ofAscii "v1.watch"] ∧
      x.headers.all "set-cookie" = [Bytes.ofAscii "a=1"] ∧ x.headers.all "server" = [] := by
  have hready : (((Gateway.podsAndNodesGateway []).service.prepare Gateway.watchRequest
      ⟨"alice", []⟩).2.toOption.bind fun l => ((l.session 1).run secondDial).map (·.phase)) =
        some (.upgrading 2) := by decide +kernel
  obtain ⟨l, hl, hrun⟩ := Option.bind_eq_some_iff.mp hready
  obtain ⟨t, hrun, hphase⟩ := Option.map_eq_some_iff.mp hrun
  have hprepared : (Gateway.podsAndNodesGateway []).service.prepare Gateway.watchRequest
      ⟨"alice", []⟩ = (_, .ok l) := Prod.ext rfl (eq_ok_of_toOption hl)
  have hanswered : Session.Answered (l.session 1) l.key (fun _ => chattyFeed) secondDial
      (switching l.key chattyFeed) :=
    ⟨secondDial, [], t, rfl, hrun, by simp [Session.answer?, hphase]⟩
  have hkey : clientKey? Gateway.watchRequest.headers =
      some (Bytes.ofAscii "dGhlIHNhbXBsZSBub25jZQ==") := by decide +kernel
  obtain ⟨-, htold⟩ := negotiation_told (Bytes.ofAscii "dGhlIHNhbXBsZSBub25jZQ==") chattyFeed
  obtain ⟨i, -, htells⟩ := htold _ _ _ _ l hprepared hkey 1 (fun _ => chattyFeed) secondDial t
    hrun _ hanswered rfl
  have htells := htells rfl
  exact ⟨_, l, t, _, hprepared, hrun, hanswered, htells.status, htells.accept, htells.protocol,
    htells.cookie, htells.others "server" (by decide)⟩

/-- Two cookies are set, and one of them reaches the client. -/
theorem secondCookie_dropped :
    chattyFeed.all "set-cookie" = [Bytes.ofAscii "a=1", Bytes.ofAscii "b=2"] ∧
    (switching (Bytes.ofAscii "dGhlIHNhbXBsZSBub25jZQ==") chattyFeed).headers.all "set-cookie" ≠
      chattyFeed.all "set-cookie" := by
  refine ⟨by decide, ?_⟩
  rw [all_switching]
  decide

end WatchGate.Multiwatch
