import WatchGate.Proofs.Handshake
import WatchGate.Proofs.Response

/-!
# WatchGate — the order in which a request is decided

Each endpoint has its row of checks (`Check.order`). The checks are said apart
from each other, as if all were made of every request: what it takes to pass one
(`Gateway.passes`), the status and the words of the answer if it is not passed
(`Check.status`, `Check.words`) and whom it asks (`Gateway.asks`). `Gateway.handle`
nests them. That it answers with the refusal of the first check that fails, and asks
whom the checks up to this one ask, is shown check by check: `decides_of_refusal` takes
a row up to a check that fails, `decides_of_launch` and `decides_of_reply` the rows that
are passed to the end.

What is answered to a request whose feeds are dialed hangs on their dials, so an
answer is one that some schedule leads to (`Handling.MayAnswer`). A request that passes
all checks is answered with the caller's rights, or by switching protocols
(`Gateway.Serves`).

Main result: `Gateway.handle_decides`.
-/

namespace WatchGate.Gateway

open Http Multiwatch

-- ---------------------------------------------------------------------------
-- Checks
-- ---------------------------------------------------------------------------

/-- What is checked before a request is served. -/
inductive Check
  /-- the method and the path -/
  | route
  /-- the headers identify a caller -/
  | caller
  /-- a kind is named -/
  | kind
  /-- the caller's rights are known -/
  | rights
  /-- an upgrade is asked for -/
  | upgrade
  /-- there is a backend -/
  | backend
  /-- the caller may watch something -/
  | watches
  /-- every path has a URL -/
  | urls
  /-- a dial succeeds -/
  | dials
  deriving DecidableEq, Repr

namespace Check

/-- The checks of an endpoint in order. -/
def order (path : String) : List Check :=
  if path = "/permissions" then [.route, .caller, .kind, .rights]
  else [.route, .caller, .upgrade, .backend, .watches, .urls, .dials]

/-- The status of the answer if a check is the first to fail. -/
def status : Check → Nat
  | .route => 404
  | .caller => 401
  | .kind | .upgrade => 400
  | .rights | .backend | .watches | .urls | .dials => 500

/-- And its words. -/
def words : Check → String
  | .route => "Not Found"
  | .caller => "Unauthorized"
  | .kind => "'kind' is required"
  | .upgrade => "Bad Request"
  | .backend => "Internal server error (code: 1)"
  | .urls => "Internal server error (code: 2)"
  | .rights | .watches | .dials => "Internal Server Error"

/-- What is answered if a check is the first to fail. -/
def refusal (c : Check) : Response := Response.text c.status c.words

theorem says_refusal (c : Check) :
    c.refusal.Says c.status "text/plain; charset=utf-8" c.words := Response.says_text _ _

theorem eq_refusal {c : Check} {x : Response}
    (h : x.Says c.status "text/plain; charset=utf-8" c.words) : x = c.refusal := h.eq_text

end Check

/-- The caller of a request, if its headers identify one. -/
def callerOf (g : Gateway) (r : Request) : Option Identity := g.credentials.identify r.headers

/-- The rights that a request asks about. -/
def rightsOf (g : Gateway) (r : Request) : Option Rights :=
  (g.callerOf r).bind fun i =>
    (g.rights (parameter r "kind") (parameter r "namespace") (parameter r "name") i).toOption

/-- What the caller of a request may watch. -/
def planOf (g : Gateway) (r : Request) : Option WatchPlan :=
  (g.callerOf r).bind fun i => (g.service.watches i).toOption

/-- Whether a request passes a check, with dials that end in given ways. -/
def passes (g : Gateway) (r : Request) (ok : Nat → Bool) : Check → Bool
  | .route => r.method == "GET" && (r.uri.path == "/permissions" || r.uri.path == "/multiwatch")
  | .caller => (g.callerOf r).isSome
  | .kind => (r.uri.param "kind").any (!·.isEmpty)
  | .rights => (g.rightsOf r).isSome
  | .upgrade => (clientKey? r.headers).isSome
  | .backend => g.service.backend.isSome
  | .watches => (g.planOf r).any (!·.isEmpty)
  | .urls => g.service.backend.any fun b => (g.planOf r).any fun plan =>
      (plan.paths.map Prod.snd).all fun path => (b path (resourceVersion r.uri)).isSome
  | .dials => (g.planOf r).any fun plan => (List.range plan.connections).any ok

/-- Whom a check asks. -/
def asks (g : Gateway) (r : Request) : Check → List Call
  | .route | .caller | .kind | .upgrade | .backend => []
  | .rights => (g.callerOf r).toList.map
      (.rights (parameter r "kind") (parameter r "namespace") (parameter r "name"))
  | .watches => (g.callerOf r).toList.map .watches
  | .urls =>
    match g.service.backend, g.planOf r with
    | some b, some plan =>
      (upTo (fun path => (b path (resourceVersion r.uri)).isNone) (plan.paths.map Prod.snd)).map
        (askUrl b (resourceVersion r.uri))
    | _, _ => []
  | .dials => (dialHeaders g.service r).1

/-- The first check that a request fails. -/
def failing (g : Gateway) (r : Request) (ok : Nat → Bool) : Option Check :=
  (Check.order r.uri.path).find? (!g.passes r ok ·)

/-- The checks up to the first that a request fails. -/
def reached (g : Gateway) (r : Request) (ok : Nat → Bool) : List Check :=
  upTo (!g.passes r ok ·) (Check.order r.uri.path)

/-- What a handling may answer, with dials that end in given ways and in any order. -/
inductive Handling.MayAnswer (h : Handling) (outboundBuffer : Nat) (ok : Nat → Bool)
    (given : Nat → Headers) : Response → Prop
  | reply {x} (hx : h.next = .reply x) : MayAnswer h outboundBuffer ok given x
  | dialed {l es s x} (hl : h.next = .launch l) (hrun : (l.session outboundBuffer).run es = some s)
      (hok : Session.Ends ok es) (hx : Session.Answered (l.session outboundBuffer) l.key given es x) :
      MayAnswer h outboundBuffer ok given x

/-- What a request that passes all checks is answered: the rights as a document, or that
protocols are switched, with what the client is told of a feed that could be dialed. -/
def Serves (g : Gateway) (r : Request) (ok : Nat → Bool) (given : Nat → Headers) (x : Response) :
    Prop :=
  if r.uri.path = "/permissions" then ∃ rights, g.rightsOf r = some rights ∧ x.Summarizes rights
  else
    ∃ key plan i, clientKey? r.headers = some key ∧ g.planOf r = some plan ∧
      i < plan.connections ∧ ok i = true ∧ Tells key (given i) x

/-- A handling is decided by the first check that fails. -/
structure Decides (g : Gateway) (r : Request) (outboundBuffer : Nat) (ok : Nat → Bool)
    (given : Nat → Headers) (h : Handling) : Prop where
  /-- nobody is asked but by the checks up to this one -/
  calls : h.calls = (g.reached r ok).flatMap (g.asks r)
  /-- and nothing is dialed but by the check of the dials -/
  launch : (∃ l, h.next = .launch l) ↔ .dials ∈ g.reached r ok
  /-- there is an answer -/
  answered : ∃ x, h.MayAnswer outboundBuffer ok given x
  /-- which has the check's status and words -/
  refused : ∀ c, g.failing r ok = some c → ∀ x, h.MayAnswer outboundBuffer ok given x →
    x.Says c.status "text/plain; charset=utf-8" c.words
  /-- unless there is none -/
  served : g.failing r ok = none → ∀ x, h.MayAnswer outboundBuffer ok given x →
    g.Serves r ok given x

variable {g : Gateway} {r : Request} {outboundBuffer : Nat} {ok : Nat → Bool}
  {given : Nat → Headers} {h : Handling} {caller : Identity} {pre post : List Check} {c : Check}

-- ---------------------------------------------------------------------------
-- Rows of checks
-- ---------------------------------------------------------------------------

theorem passes_concat (hpre : ∀ d ∈ pre, g.passes r ok d = true)
    (hc : g.passes r ok c = true) : ∀ d ∈ pre ++ [c], g.passes r ok d = true := by
  intro d hd
  rcases List.mem_append.mp hd with hd | hd
  · exact hpre d hd
  · rw [List.mem_singleton.mp hd, hc]

theorem reached_of_split (hsplit : Check.order r.uri.path = pre ++ c :: post)
    (hpre : ∀ d ∈ pre, g.passes r ok d = true) (hc : g.passes r ok c = false) :
    g.reached r ok = pre ++ [c] ∧ g.failing r ok = some c := by
  unfold reached failing
  rw [hsplit]
  refine ⟨upTo_append_cons (by simpa using hpre) (by simp [hc]), ?_⟩
  exact List.find?_eq_some_iff_append.mpr ⟨by simp [hc], pre, post, rfl, by simpa using hpre⟩

theorem reached_of_passes (hpass : ∀ d ∈ Check.order r.uri.path, g.passes r ok d = true) :
    g.reached r ok = Check.order r.uri.path ∧ g.failing r ok = none := by
  unfold reached failing
  exact ⟨upTo_eq_self (by simpa using hpass), List.find?_eq_none.mpr (by simpa using hpass)⟩

theorem mayAnswer_reply_iff {x y : Response} (hx : h.next = .reply x) :
    h.MayAnswer outboundBuffer ok given y ↔ y = x := by
  constructor
  · rintro (hy | ⟨hl, -⟩)
    · exact (Next.reply.inj (hx.symm.trans hy)).symm
    · cases hx.symm.trans hl
  · rintro rfl
    exact .reply hx

/-- A row up to a check that fails, whose refusal is the answer. -/
theorem decides_of_refusal (pre : List Check) (hsplit : Check.order r.uri.path = pre ++ c :: post)
    (hpre : ∀ d ∈ pre, g.passes r ok d = true) (hc : g.passes r ok c = false)
    (hdials : .dials ∉ pre ++ [c])
    (hh : h = ⟨(pre ++ [c]).flatMap (g.asks r), .reply c.refusal⟩) :
    g.Decides r outboundBuffer ok given h := by
  obtain ⟨hreached, hfailing⟩ := reached_of_split hsplit hpre hc
  have hreply : h.next = .reply c.refusal := by rw [hh]
  refine ⟨by rw [hh, hreached], ?_, ⟨c.refusal, .reply hreply⟩, ?_, ?_⟩
  · rw [hreached, hreply]
    exact iff_of_false nofun hdials
  · intro d hd x hx
    cases hfailing.symm.trans hd
    rw [(mayAnswer_reply_iff hreply).mp hx]
    exact c.says_refusal
  · intro hnone
    cases hfailing.symm.trans hnone

/-- A row that is passed to the end, where nothing is dialed. -/
theorem decides_of_reply {x : Response}
    (hpass : ∀ d ∈ Check.order r.uri.path, g.passes r ok d = true)
    (hdials : .dials ∉ Check.order r.uri.path)
    (hh : h = ⟨(Check.order r.uri.path).flatMap (g.asks r), .reply x⟩)
    (hx : g.Serves r ok given x) : g.Decides r outboundBuffer ok given h := by
  obtain ⟨hreached, hfailing⟩ := reached_of_passes hpass
  have hreply : h.next = .reply x := by rw [hh]
  refine ⟨by rw [hh, hreached], ?_, ⟨x, .reply hreply⟩, ?_, ?_⟩
  · rw [hreached, hreply]
    exact iff_of_false nofun hdials
  · intro c hc
    cases hfailing.symm.trans hc
  · intro _ y hy
    rw [(mayAnswer_reply_iff hreply).mp hy]
    exact hx

theorem mayAnswer_launch {l : Launch} {x : Response} (hl : h.next = .launch l)
    (hx : h.MayAnswer outboundBuffer ok given x) :
    (∃ i, i < l.targets.length ∧ ok i = true ∧ x = switching l.key (given i)) ∨
      (∀ i, i < l.targets.length → ok i = false) ∧ x = Check.dials.refusal := by
  cases hx with
  | reply hx => cases hl.symm.trans hx
  | dialed hl' hrun hok hx =>
    cases hl.symm.trans hl'
    rcases (Session.answered_iff hrun).mp hx with ⟨i, hi, rfl⟩ | ⟨hall, rfl⟩
    · have htrue := Session.mem_successes_iff.mp (List.mem_of_head? hi)
      exact .inl ⟨i, Session.lt_of_dialed hrun htrue, (hok i true htrue).symm, rfl⟩
    · exact .inr ⟨fun i hi => (hok i false (hall i hi)).symm, rfl⟩

/-- A row that is passed up to the dials. -/
theorem decides_of_launch {l : Launch} {plan : WatchPlan} (pre : List Check)
    (hpath : r.uri.path ≠ "/permissions") (hsplit : Check.order r.uri.path = pre ++ [.dials])
    (hpre : ∀ d ∈ pre, g.passes r ok d = true)
    (hh : h = ⟨(pre ++ [Check.dials]).flatMap (g.asks r), .launch l⟩)
    (hkey : clientKey? r.headers = some l.key) (hplan : g.planOf r = some plan)
    (hcount : l.targets.length = plan.connections) : g.Decides r outboundBuffer ok given h := by
  have hl : h.next = .launch l := by rw [hh]
  have hpasses : g.passes r ok .dials = (List.range plan.connections).any ok := by
    simp [passes, hplan]
  have hreached : g.reached r ok = pre ++ [.dials] ∧
      (g.failing r ok = if (List.range plan.connections).any ok then none else some .dials) := by
    rw [← hpasses]
    cases hd : g.passes r ok .dials with
    | false => simpa using reached_of_split hsplit hpre hd
    | true =>
      have hall : ∀ d ∈ Check.order r.uri.path, g.passes r ok d = true :=
        hsplit ▸ passes_concat hpre hd
      have h := reached_of_passes hall
      rw [hsplit] at h
      simpa using h
  refine ⟨by rw [hh, hreached.1], ?_, ?_, ?_, ?_⟩
  · rw [hreached.1]
    exact iff_of_true ⟨l, hl⟩ (by simp)
  · -- no dial has ended yet, and some way of going on leads to an answer
    have hstart : (l.session outboundBuffer).run [] = some (l.session outboundBuffer) := rfl
    have hnone : Session.Ends ok [] := nofun
    obtain ⟨fs, x, t, hends, hrun, hx⟩ := Session.answerable_of_run hstart hnone
    exact ⟨x, .dialed hl hrun hends hx⟩
  · intro c hc x hx
    rw [hreached.2] at hc
    split at hc
    · cases hc
    · next hnone =>
      cases hc
      rcases mayAnswer_launch hl hx with ⟨i, hi, hok, -⟩ | ⟨-, hx⟩
      · exact absurd (List.any_eq_true.mpr ⟨i, List.mem_range.mpr (hcount ▸ hi), hok⟩) hnone
      · rw [hx]
        exact Check.dials.says_refusal
  · intro hc x hx
    rw [hreached.2] at hc
    split at hc
    · next hsome =>
      unfold Serves
      rw [if_neg hpath]
      rcases mayAnswer_launch hl hx with ⟨i, hi, hok, hx⟩ | ⟨hall, -⟩
      · refine ⟨l.key, plan, i, hkey, hplan, hcount ▸ hi, hok, ?_⟩
        rw [hx]
        exact tells_switching l.key (given i)
      · obtain ⟨i, hi, hok⟩ := List.any_eq_true.mp hsome
        have hno := hall i (hcount ▸ List.mem_range.mp hi)
        cases hno.symm.trans hok
    · cases hc

-- ---------------------------------------------------------------------------
-- Endpoints
-- ---------------------------------------------------------------------------

theorem passes_route_iff : g.passes r ok .route = true ↔
    r.method = "GET" ∧ (r.uri.path = "/permissions" ∨ r.uri.path = "/multiwatch") := by
  simp [passes]

theorem order_permissions (hpath : r.uri.path = "/permissions") :
    Check.order r.uri.path = [.route, .caller, .kind, .rights] := if_pos hpath

theorem order_multiwatch (hpath : r.uri.path = "/multiwatch") :
    Check.order r.uri.path = [.route, .caller, .upgrade, .backend, .watches, .urls, .dials] :=
  if_neg (by rw [hpath]; decide)

theorem isEmpty_parameter_kind :
    (parameter r "kind").isEmpty = !g.passes r ok .kind := by
  unfold parameter passes
  cases r.uri.param "kind" <;> simp

/-- The checks of a request for rights, behind the caller. -/
theorem decides_permissions (hpath : r.uri.path = "/permissions")
    (hcaller : g.callerOf r = some caller)
    (hpre : ∀ d ∈ [Check.route, .caller], g.passes r ok d = true) :
    g.Decides r outboundBuffer ok given (g.permissions r caller) := by
  have horder := order_permissions hpath
  have hempty : (parameter r "kind").isEmpty = !g.passes r ok .kind := isEmpty_parameter_kind
  cases hkind : g.passes r ok .kind with
  | false =>
    rw [hkind] at hempty
    refine decides_of_refusal [.route, .caller] horder hpre hkind (by decide) ?_
    simp [permissions, hempty, refuse, asks, Check.refusal, Check.status, Check.words]
  | true =>
    rw [hkind] at hempty
    have hpre := passes_concat hpre hkind
    cases hrights : g.rights (parameter r "kind") (parameter r "namespace") (parameter r "name")
        caller with
    | error cause =>
      have hfail : g.passes r ok .rights = false := by
        simp [passes, rightsOf, hcaller, hrights, Except.toOption]
      refine decides_of_refusal [.route, .caller, .kind] horder hpre hfail (by decide) ?_
      simp [permissions, hempty, hrights, asks, hcaller, Check.refusal, Check.status, Check.words,
        Response.internalError]
    | ok rights =>
      have hsome : g.rightsOf r = some rights := by
        simp [rightsOf, hcaller, hrights, Except.toOption]
      have hpass : g.passes r ok .rights = true := by simp [passes, hsome]
      have hserves : g.Serves r ok given (Response.json rights.text) := by
        unfold Serves
        rw [if_pos hpath]
        exact ⟨rights, hsome, Response.summarizes_json rights⟩
      refine decides_of_reply ?_ (by rw [horder]; decide) ?_ hserves
      · rw [horder]
        exact passes_concat hpre hpass
      · simp [permissions, hempty, hrights, horder, asks, hcaller]

section Watches

variable {key : Bytes} {b : Backend} {plan : WatchPlan}

/-- The last checks of a request for a watch: the URLs and the dials. -/
theorem decides_of_plan (hpath : r.uri.path = "/multiwatch")
    (hcaller : g.callerOf r = some caller) (hkey : clientKey? r.headers = some key)
    (hb : g.service.backend = some b) (hw : g.service.watches caller = .ok plan)
    (hplan : plan.isEmpty = false)
    (hpre : ∀ d ∈ [Check.route, .caller, .upgrade, .backend, .watches], g.passes r ok d = true) :
    g.Decides r outboundBuffer ok given (g.multiwatch r caller) := by
  have horder := order_multiwatch hpath
  have hof : g.planOf r = some plan := by simp [planOf, hcaller, hw, Except.toOption]
  rcases stops_or_passes (fun path => (b path (resourceVersion r.uri)).isNone)
    (plan.paths.map Prod.snd) with hurls | ⟨as, path, bs, hsplit, has, hstop⟩
  · have hsome : ∀ path ∈ plan.paths.map Prod.snd, (b path (resourceVersion r.uri)).isSome := by
      simpa [Option.isSome_iff_ne_none] using hurls
    have hpass : g.passes r ok .urls = true := by
      simp only [passes, hb, hof, Option.any_some]
      exact List.all_eq_true.mpr hsome
    obtain ⟨targets, heq, htargets⟩ := multiwatch_of_urls hkey hb hw hplan hsome
    have hcovers : (Launch.mk key targets (dialHeaders g.service r).2 plan.grants).Covers plan
        fun path => b path (resourceVersion r.uri) := covers_of_targets hplan htargets
    refine decides_of_launch [.route, .caller, .upgrade, .backend, .watches, .urls]
      (by rw [hpath]; decide) horder (passes_concat hpre hpass) ?_ hkey hof hcovers.count
    rw [heq]
    simp [asks, hb, hof, hcaller, upTo_eq_self hurls]
  · have hmissing : b path (resourceVersion r.uri) = none := by simpa using hstop
    have hfail : g.passes r ok .urls = false := by
      simp only [passes, hb, hof, Option.any_some, hsplit]
      simp [hmissing]
    have heq := multiwatch_of_missing hkey hb hw hplan hsplit
      (by simpa [Option.isSome_iff_ne_none] using has) hmissing
    refine decides_of_refusal [.route, .caller, .upgrade, .backend, .watches] horder hpre hfail
      (by decide) ?_
    rw [heq]
    simp [asks, hb, hof, hcaller, hsplit, upTo_append_cons has hstop, Check.refusal,
      Check.status, Check.words, SetupError.response]

/-- The checks behind the backend: what the caller may watch has to be known, and
something. -/
theorem decides_of_backend (hpath : r.uri.path = "/multiwatch")
    (hcaller : g.callerOf r = some caller) (hkey : clientKey? r.headers = some key)
    (hb : g.service.backend = some b)
    (hpre : ∀ d ∈ [Check.route, .caller, .upgrade, .backend], g.passes r ok d = true) :
    g.Decides r outboundBuffer ok given (g.multiwatch r caller) := by
  have horder := order_multiwatch hpath
  cases hw : g.service.watches caller with
  | error cause =>
    have hfail : g.passes r ok .watches = false := by
      simp [passes, planOf, hcaller, hw, Except.toOption]
    refine decides_of_refusal [.route, .caller, .upgrade, .backend] horder hpre hfail
      (by decide) ?_
    simp [multiwatch, Service.prepare, hkey, hb, hw, asks, hcaller, Check.refusal,
      Check.status, Check.words, SetupError.response, Response.internalError]
  | ok plan =>
    have hof : g.planOf r = some plan := by simp [planOf, hcaller, hw, Except.toOption]
    cases hplan : plan.isEmpty with
    | true =>
      have hfail : g.passes r ok .watches = false := by simp [passes, hof, hplan]
      refine decides_of_refusal [.route, .caller, .upgrade, .backend] horder hpre hfail
        (by decide) ?_
      simp [multiwatch, Service.prepare, hkey, hb, hw, hplan, asks, hcaller, Check.refusal,
        Check.status, Check.words, SetupError.response, Response.internalError]
    | false =>
      have hpass : g.passes r ok .watches = true := by simp [passes, hof, hplan]
      exact decides_of_plan hpath hcaller hkey hb hw hplan (passes_concat hpre hpass)

/-- The checks of a request for a watch, behind the caller. -/
theorem decides_multiwatch (hpath : r.uri.path = "/multiwatch")
    (hcaller : g.callerOf r = some caller)
    (hpre : ∀ d ∈ [Check.route, .caller], g.passes r ok d = true) :
    g.Decides r outboundBuffer ok given (g.multiwatch r caller) := by
  have horder := order_multiwatch hpath
  cases hkey : clientKey? r.headers with
  | none =>
    have hfail : g.passes r ok .upgrade = false := by simp [passes, hkey]
    refine decides_of_refusal [.route, .caller] horder hpre hfail (by decide) ?_
    simp [multiwatch, Service.prepare, hkey, asks, Check.refusal, Check.status, Check.words,
      SetupError.response]
  | some key =>
    have hpass : g.passes r ok .upgrade = true := by simp [passes, hkey]
    have hpre := passes_concat hpre hpass
    cases hb : g.service.backend with
    | none =>
      have hfail : g.passes r ok .backend = false := by simp [passes, hb]
      refine decides_of_refusal [.route, .caller, .upgrade] horder hpre hfail (by decide) ?_
      simp [multiwatch, Service.prepare, hkey, hb, asks, Check.refusal, Check.status, Check.words,
        SetupError.response]
    | some b =>
      have hpass : g.passes r ok .backend = true := by simp [passes, hb]
      exact decides_of_backend hpath hcaller hkey hb (passes_concat hpre hpass)

end Watches

theorem order_eq_cons (path : String) :
    ∃ post, Check.order path = .route :: .caller :: post := by
  unfold Check.order
  split
  · exact ⟨_, rfl⟩
  · exact ⟨_, rfl⟩

theorem decides_of_handle (g : Gateway) (r : Request) (outboundBuffer : Nat) (ok : Nat → Bool)
    (given : Nat → Headers) : g.Decides r outboundBuffer ok given (g.handle r) := by
  obtain ⟨post, horder⟩ := order_eq_cons r.uri.path
  cases hroute : g.passes r ok .route with
  | false =>
    refine decides_of_refusal [] horder nofun hroute (by decide) ?_
    have hno := mt passes_route_iff.mpr (Bool.eq_false_iff.mp hroute)
    have hif : r.method ≠ "GET" ∨ r.uri.path ≠ "/permissions" ∧ r.uri.path ≠ "/multiwatch" := by
      rw [← not_or, ← not_and_or]
      exact hno
    simp only [handle, if_pos hif]
    rfl
  | true =>
    have hpre : ∀ d ∈ [Check.route], g.passes r ok d = true := by simpa using hroute
    obtain ⟨hmethod, hpath⟩ := passes_route_iff.mp hroute
    cases hcaller : g.callerOf r with
    | none =>
      have hfail : g.passes r ok .caller = false := by simp [passes, hcaller]
      refine decides_of_refusal [.route] horder hpre hfail (by decide) ?_
      have hid : g.credentials.identify r.headers = none := hcaller
      rcases hpath with hpath | hpath <;>
        simp [handle, hmethod, hpath, hid, refuse, asks, Check.refusal, Check.status, Check.words]
    | some caller =>
      have hpass : g.passes r ok .caller = true := by simp [passes, hcaller]
      have hpre := passes_concat hpre hpass
      have hid : g.credentials.identify r.headers = some caller := hcaller
      rcases hpath with hpath | hpath
      · have hhandle : g.handle r = g.permissions r caller := by
          simp [handle, hmethod, hpath, hid]
        rw [hhandle]
        exact decides_permissions hpath hcaller hpre
      · have hhandle : g.handle r = g.multiwatch r caller := by
          simp [handle, hmethod, hpath, hid]
        rw [hhandle]
        exact decides_multiwatch hpath hcaller hpre

-- ---------------------------------------------------------------------------
-- Requests
-- ---------------------------------------------------------------------------

end WatchGate.Gateway
