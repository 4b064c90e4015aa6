import WatchGate.Multiwatch.Dial
import WatchGate.Proofs.Gateway

/-!
# WatchGate — what a caller can tell of a failure

A failure comes with detail: the text of an error, the path that has no URL, the
URL that could not be dialed and why. `Surroundings` are all that this comes from.
What is answered, in whatever order dials end, is read off the check that fails
(`Surroundings.answers_iff`), and a check carries no detail. So two surroundings
that fail at one check cannot be told apart.

Three ways in which a watch comes to nothing end at two checks (`Futile.failing`),
which are answered alike. Of the answers with the status 500 that leaves those of a
missing backend and of a missing URL (`Check.refusal_eq_iff`).

Main result: `Surroundings.failures_alike`.
-/

namespace WatchGate

open Http Multiwatch Gateway

namespace Gateway

variable {g : Gateway} {r : Request} {caller : Identity}

-- ---------------------------------------------------------------------------
-- Refusals
-- ---------------------------------------------------------------------------

/-- Refusals with the status 500 differ in what they tell of the backend and of URLs. -/
theorem Check.refusal_eq_iff {c c' : Check} (h : c.refusal.status = 500)
    (h' : c'.refusal.status = 500) : c.refusal = c'.refusal ↔
      (c = .backend ↔ c' = .backend) ∧ (c = .urls ↔ c' = .urls) := by
  have hbackend : Check.backend.refusal ≠ Response.internalError := by decide +kernel
  have hurls : Check.urls.refusal ≠ Response.internalError := by decide +kernel
  have hboth : Check.backend.refusal ≠ Check.urls.refusal := by decide +kernel
  have hcases : ∀ d : Check, d.refusal.status = 500 →
      d = .backend ∨ d = .urls ∨ d ≠ .backend ∧ d ≠ .urls ∧ d.refusal = Response.internalError := by
    intro d hd
    cases d with
    | route | caller | kind | upgrade => cases hd
    | backend => exact .inl rfl
    | urls => exact .inr (.inl rfl)
    | rights | watches | dials => exact .inr (.inr ⟨nofun, nofun, rfl⟩)
  rcases hcases c h with rfl | rfl | ⟨hb, hu, hr⟩
  · rcases hcases c' h' with rfl | rfl | ⟨hb', -, hr'⟩
    · exact iff_of_true rfl ⟨Iff.rfl, Iff.rfl⟩
    · exact iff_of_false hboth fun hsame => nomatch hsame.1.mp rfl
    · rw [hr']
      exact iff_of_false hbackend fun hsame => hb' (hsame.1.mp rfl)
  · rcases hcases c' h' with rfl | rfl | ⟨-, hu', hr'⟩
    · exact iff_of_false hboth.symm fun hsame => nomatch hsame.1.mpr rfl
    · exact iff_of_true rfl ⟨Iff.rfl, Iff.rfl⟩
    · rw [hr']
      exact iff_of_false hurls fun hsame => hu' (hsame.2.mp rfl)
  · rw [hr]
    rcases hcases c' h' with rfl | rfl | ⟨hb', hu', hr'⟩
    · exact iff_of_false hbackend.symm fun hsame => hb (hsame.1.mpr rfl)
    · exact iff_of_false hurls.symm fun hsame => hu (hsame.2.mpr rfl)
    · exact iff_of_true hr'.symm ⟨iff_of_false hb hb', iff_of_false hu hu'⟩

-- ---------------------------------------------------------------------------
-- Requests for a watch
-- ---------------------------------------------------------------------------

/-- A request of a known caller for an upgrade, where there is a backend. -/
structure Upgrades (g : Gateway) (r : Request) (caller : Identity) : Prop where
  method : r.method = "GET"
  path : r.uri.path = "/multiwatch"
  caller : g.callerOf r = some caller
  key : (clientKey? r.headers).isSome
  backend : g.service.backend.isSome

theorem Upgrades.passes (h : g.Upgrades r caller) (ok : Nat → Bool) :
    ∀ d ∈ [Check.route, .caller, .upgrade, .backend], g.passes r ok d = true := by
  have hroute : g.passes r ok .route = true := passes_route_iff.mpr ⟨h.method, .inr h.path⟩
  have hcaller : g.passes r ok .caller = true := Option.isSome_of_eq_some h.caller
  simp only [List.forall_mem_cons]
  exact ⟨hroute, hcaller, h.key, h.backend, nofun⟩

end Gateway

/-- What a request is answered from: the gateway, with all whom it asks, and how the dials at
each place end. -/
structure Surroundings where
  gateway : Gateway
  outboundBuffer : Nat
  dials : Nat → Dialed

namespace Surroundings

variable {S S' : Surroundings} {r r' : Request} {caller : Identity} {c : Check} {x x' : Response}

/-- Whether the dial at a place succeeds. -/
def reaches (S : Surroundings) (i : Nat) : Bool := (S.dials i).isOk

/-- The headers with which the feed at a place is accepted. -/
def given (S : Surroundings) (i : Nat) : Headers := (S.dials i).toOption.getD .empty

/-- The first check that a request fails. -/
def failing (S : Surroundings) (r : Request) : Option Check := S.gateway.failing r S.reaches

/-- What a request may be answered, in whatever order dials end. -/
def Answers (S : Surroundings) (r : Request) (x : Response) : Prop :=
  (S.gateway.handle r).MayAnswer S.outboundBuffer S.reaches S.given x

/-- A watch comes to nothing, although there is a backend. -/
inductive Futile (S : Surroundings) (r : Request) (caller : Identity) : Prop
  /-- it is not known what the caller may watch -/
  | unresolved (cause : String) (hw : S.gateway.service.watches caller = .error cause)
  /-- the caller may watch nothing -/
  | nothing (plan : WatchPlan) (hw : S.gateway.service.watches caller = .ok plan)
      (hplan : plan.isEmpty = true)
  /-- there is a URL for all that the caller may watch, and none could be dialed -/
  | undialed (plan : WatchPlan) (b : Backend) (errors : Nat → DialError)
      (hw : S.gateway.service.watches caller = .ok plan) (hplan : plan.isEmpty = false)
      (hb : S.gateway.service.backend = some b)
      (hurls : ∀ path ∈ plan.paths.map Prod.snd, (b path (resourceVersion r.uri)).isSome)
      (hdials : ∀ i, i < plan.connections → S.dials i = .error (errors i))

-- ---------------------------------------------------------------------------
-- Answers by the check that fails
-- ---------------------------------------------------------------------------

/-- A request that fails a check has one answer, which is the check's. -/
theorem answers_iff (hc : S.failing r = some c) : S.Answers r x ↔ x = c.refusal := by
  have hdecides := decides_of_handle S.gateway r S.outboundBuffer S.reaches S.given
  constructor
  · exact fun hx => Check.eq_refusal (hdecides.refused c hc x hx)
  · rintro rfl
    obtain ⟨y, hy⟩ := hdecides.answered
    rwa [Check.eq_refusal (hdecides.refused c hc y hy)] at hy

/-- A request for a watch that is answered with the status 500 failed a check. -/
theorem exists_failing (hpath : r.uri.path = "/multiwatch") (hx : S.Answers r x)
    (hstatus : x.status = 500) : ∃ c, S.failing r = some c ∧ x = c.refusal := by
  cases hc : S.failing r with
  | some c => exact ⟨c, rfl, (answers_iff hc).mp hx⟩
  | none =>
    -- whoever passes every check is let in, with another status
    have hdecides := decides_of_handle S.gateway r S.outboundBuffer S.reaches S.given
    have hserves := hdecides.served hc x hx
    unfold Serves at hserves
    rw [if_neg (by rw [hpath]; decide)] at hserves
    obtain ⟨_, _, _, -, -, -, -, htells⟩ := hserves
    cases hstatus.symm.trans htells.status

theorem Futile.failing (h : S.Futile r caller) (hr : S.gateway.Upgrades r caller) :
    S.failing r = some .watches ∨ S.failing r = some .dials := by
  have horder := order_multiwatch hr.path
  have hpre := hr.passes S.reaches
  cases h with
  | unresolved cause hw =>
    have hfail : S.gateway.passes r S.reaches .watches = false := by
      simp [Gateway.passes, planOf, hr.caller, hw, Except.toOption]
    exact .inl (reached_of_split horder hpre hfail).2
  | nothing plan hw hplan =>
    have hfail : S.gateway.passes r S.reaches .watches = false := by
      simp [Gateway.passes, planOf, hr.caller, hw, Except.toOption, hplan]
    exact .inl (reached_of_split horder hpre hfail).2
  | undialed plan b errors hw hplan hb hurls hdials =>
    -- two more checks are passed before it is known that nothing can be dialed
    have hof : S.gateway.planOf r = some plan := by
      simp [planOf, hr.caller, hw, Except.toOption]
    have hwatches : S.gateway.passes r S.reaches .watches = true := by
      simp [Gateway.passes, hof, hplan]
    have hpass : S.gateway.passes r S.reaches .urls = true := by
      simp only [Gateway.passes, hb, hof, Option.any_some]
      exact List.all_eq_true.mpr hurls
    have hfail : S.gateway.passes r S.reaches .dials = false := by
      simp only [Gateway.passes, hof, Option.any_some, List.any_eq_false]
      intro i hi
      rw [reaches, hdials i (List.mem_range.mp hi)]
      exact Bool.false_ne_true
    have hpre := passes_concat (passes_concat hpre hwatches) hpass
    exact .inr (reached_of_split horder hpre hfail).2

/-- However a watch comes to nothing, the caller is told the same. -/
theorem Futile.answers_iff (h : S.Futile r caller) (hr : S.gateway.Upgrades r caller) :
    S.Answers r x ↔ x = Response.text 500 "Internal Server Error" := by
  rcases h.failing hr with hc | hc
  · exact Surroundings.answers_iff hc
  · exact Surroundings.answers_iff hc

/--
**Failures do not tell their detail.** Of any two surroundings, with any errors,
missing URLs and ends of dials:

* a request that fails at one check in both has one answer, the same in both;
* a request of a known caller for an upgrade, where there is a backend, has one and
  the same answer whether it is not known what the caller may watch, or the caller
  may watch nothing, or nothing could be dialed, in any two of these ways;
* two answers with the status 500 to requests for a watch differ only in what they
  tell of two checks: whether there was no backend, and whether a URL was missing.
-/
theorem failures_alike (S S' : Surroundings) :
    (∀ r c, S.failing r = some c → S'.failing r = some c →
      ∃ x, ∀ y, (S.Answers r y ↔ y = x) ∧ (S'.Answers r y ↔ y = x)) ∧
    (∀ r r' caller caller', S.gateway.Upgrades r caller → S'.gateway.Upgrades r' caller' →
      S.Futile r caller → S'.Futile r' caller' →
      ∀ y, (S.Answers r y ↔ y = Response.text 500 "Internal Server Error") ∧
        (S'.Answers r' y ↔ y = Response.text 500 "Internal Server Error")) ∧
    (∀ r r' x x', r.uri.path = "/multiwatch" → r'.uri.path = "/multiwatch" →
      S.Answers r x → S'.Answers r' x' → x.status = 500 → x'.status = 500 →
      (x = x' ↔ (S.failing r = some .backend ↔ S'.failing r' = some .backend) ∧
        (S.failing r = some .urls ↔ S'.failing r' = some .urls))) := by
  refine ⟨fun r c hc hc' => ⟨c.refusal, fun y => ⟨answers_iff hc, answers_iff hc'⟩⟩,
    fun r r' i i' hr hr' h h' y => ⟨h.answers_iff hr, h'.answers_iff hr'⟩, ?_⟩
  intro r r' x x' hpath hpath' hx hx' hstatus hstatus'
  obtain ⟨c, hc, rfl⟩ := exists_failing hpath hx hstatus
  obtain ⟨c', hc', rfl⟩ := exists_failing hpath' hx' hstatus'
  rw [hc, hc', Option.some.injEq, Option.some.injEq, Option.some.injEq, Option.some.injEq]
  exact Check.refusal_eq_iff hstatus hstatus'

-- ---------------------------------------------------------------------------
-- A watch of pods and nodes that comes to nothing
-- ---------------------------------------------------------------------------

/-- All dials come to one error, and some paths have no URL. -/
def undialable (missing : List String) (e : DialError) : Surroundings :=
  ⟨podsAndNodesGateway missing, 1, fun _ => .error e⟩

/-- It cannot be told what anyone may watch. -/
def unresolvable (cause : String) : Surroundings :=
  let g := podsAndNodesGateway []
  ⟨{ g with service := { g.service with watches := fun _ => .error cause } }, 1,
    fun _ => .ok .empty⟩

/-- Where the nodes are watched. -/
def nodesUrl : Uri :=
  ⟨some "ws", some "127.0.0.1:8001", "/api/v1/nodes", some "watch=true&resourceVersion=7"⟩

/-- Which of two URLs is missing is not told, nor whether it was the caller's watches that could
not be found out or the feeds that could not be dialed. That a URL is missing is told. -/
theorem undialable_alike :
    (∃ x, (undialable ["/api/v1/nodes"] (.timeout nodesUrl 10000)).Answers watchRequest x ∧
      (undialable ["/api/v1/namespaces/ns-1/pods"] (.connect nodesUrl "refused")).Answers
        watchRequest x) ∧
    ((unresolvable "token expired").Answers watchRequest
        (Response.text 500 "Internal Server Error") ∧
      (undialable [] (.timeout nodesUrl 10000)).Answers watchRequest
        (Response.text 500 "Internal Server Error")) ∧
    ∀ x x', (undialable ["/api/v1/nodes"] (.timeout nodesUrl 10000)).Answers watchRequest x →
      (unresolvable "token expired").Answers watchRequest x' → x.status = 500 → x'.status = 500 →
      x ≠ x' := by
  have hmissing : (undialable ["/api/v1/nodes"] (.timeout nodesUrl 10000)).failing watchRequest =
      some .urls := by decide +kernel
  have hmissing' : (undialable ["/api/v1/namespaces/ns-1/pods"]
      (.connect nodesUrl "refused")).failing watchRequest = some .urls := by decide +kernel
  have hunresolved : (unresolvable "token expired").failing watchRequest = some .watches := by
    decide +kernel
  have hupgrades : (unresolvable "token expired").gateway.Upgrades watchRequest
      ⟨"alice", ["dev", "ops"]⟩ :=
    ⟨rfl, rfl, by decide +kernel, by decide +kernel, rfl⟩
  have hupgrades' : (undialable [] (.timeout nodesUrl 10000)).gateway.Upgrades watchRequest
      ⟨"alice", ["dev", "ops"]⟩ :=
    ⟨rfl, rfl, by decide +kernel, by decide +kernel, rfl⟩
  have hfutile : (unresolvable "token expired").Futile watchRequest ⟨"alice", ["dev", "ops"]⟩ :=
    .unresolved "token expired" rfl
  have hfutile' : (undialable [] (.timeout nodesUrl 10000)).Futile watchRequest
      ⟨"alice", ["dev", "ops"]⟩ :=
    .undialed podsAndNodes _ (fun _ => .timeout nodesUrl 10000) rfl (by decide +kernel) rfl
      (by decide +kernel) fun _ _ => rfl
  obtain ⟨hsame, -, -⟩ := failures_alike (undialable ["/api/v1/nodes"] (.timeout nodesUrl 10000))
    (undialable ["/api/v1/namespaces/ns-1/pods"] (.connect nodesUrl "refused"))
  obtain ⟨x, hx⟩ := hsame watchRequest .urls hmissing hmissing'
  obtain ⟨-, hways, -⟩ := failures_alike (unresolvable "token expired")
    (undialable [] (.timeout nodesUrl 10000))
  obtain ⟨hx₁, hx₂⟩ := hways _ _ _ _ hupgrades hupgrades' hfutile hfutile'
    (Response.text 500 "Internal Server Error")
  obtain ⟨-, -, htold⟩ := failures_alike (undialable ["/api/v1/nodes"] (.timeout nodesUrl 10000))
    (unresolvable "token expired")
  refine ⟨⟨x, (hx x).1.mpr rfl, (hx x).2.mpr rfl⟩, ⟨hx₁.mpr rfl, hx₂.mpr rfl⟩, ?_⟩
  intro y y' hy hy' hstatus hstatus' hyy
  obtain ⟨-, hurl⟩ := (htold _ _ y y' rfl rfl hy hy' hstatus hstatus').mp hyy
  rw [hmissing, hunresolved] at hurl
  exact nomatch hurl.mp rfl

end Surroundings

end WatchGate
