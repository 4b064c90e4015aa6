import WatchGate.Crowd
import WatchGate.Proofs.Gateway
import WatchGate.Proofs.Probe.Turns
import WatchGate.Startup.Trial

/-!
# WatchGate — on whose behalf the authorizer is asked

An identity is read off the headers of a request (`Credentials.Carries`), goes with
the one call that the handling makes of access (`callerOf_of_call`), and is then
handed from probe to probe. Probes are started by the root or by another probe, and
both hand on the copy that they hold: so all copies of an inquiry are its prober
(`Inquiry.Sound`), and what the other inquiries do beside it changes nothing for it
(`Crowd.Kept`). A review names the caller as the headers did (`Carries.presents`).

Main results:

* `Crowd.callers_kept` — however inquiries take turns, each question is put for the
  caller of its own request.
* `Crowd.grants_perm_report` — and a run that is finished has the grants that access
  would have found for this caller.
* `Gateway.handle_eq_of_decide`, `Gateway.handle_eq_of_post` — what others may do has
  no effect on a request.
* `Trial.callerOf_of_review` — the reviews behind a request are about its caller.
-/

namespace WatchGate

open Http Multiwatch

-- ---------------------------------------------------------------------------
-- Identities
-- ---------------------------------------------------------------------------

namespace Credentials

/-- The groups that values list, in order and as often as they are listed. -/
def listed (values : List (List Char)) : List String :=
  (((values.flatMap (Text.pieces ',')).map Text.trim).filter (!·.isEmpty)).map String.ofList

/-- What headers have to carry for a caller to be identified: the user in the first
value of the one name, with blanks around it, and the groups in all values of the
other. -/
structure Carries (c : Credentials) (h : Headers) (i : Identity) : Prop where
  user : ∃ cs, (h.get? c.userHeader).bind Header.text? = some cs ∧ Text.trim cs ≠ [] ∧
    i.user = String.ofList (Text.trim cs)
  groups : i.groups = listed (h.texts c.groupHeader)

theorem groups_eq_listed (values : List (List Char)) : groups values = listed values := by
  unfold groups groupsOf listed
  rw [List.map_flatMap, List.filter_flatMap, List.map_flatMap]

theorem identify_eq_some_iff {c : Credentials} {h : Headers} {i : Identity} :
    c.identify h = some i ↔ c.Carries h i := by
  unfold identify
  cases hcs : (h.get? c.userHeader).bind Header.text? with
  | none =>
    refine iff_of_false nofun fun hi => ?_
    obtain ⟨cs, hsome, -⟩ := hi.user
    cases hcs.symm.trans hsome
  | some cs =>
    by_cases hempty : Text.trim cs = []
    · simp only [hempty, List.isEmpty_nil, if_true]
      refine iff_of_false nofun fun hi => ?_
      obtain ⟨cs', hsome, hne, -⟩ := hi.user
      cases hcs.symm.trans hsome
      exact hne hempty
    · simp only [List.isEmpty_iff, if_neg hempty, Option.some.injEq]
      constructor
      · rintro rfl
        exact ⟨⟨cs, hcs, hempty, rfl⟩, groups_eq_listed _⟩
      · intro hi
        obtain ⟨cs', hsome, -, huser⟩ := hi.user
        cases hcs.symm.trans hsome
        rw [groups_eq_listed, ← huser, ← hi.groups]

end Credentials

-- ---------------------------------------------------------------------------
-- Calls
-- ---------------------------------------------------------------------------

section Calls

variable {g : Gateway} {r : Request} {c : Catalog} {call : Call} {caller : Identity}
  {qs : List Question}

/-- Access is called for the caller that the headers identify. -/
theorem callerOf_of_call (hmem : call ∈ (g.handle r).calls)
    (hcall : Crowd.inquired c call = some (caller, qs)) : g.callerOf r = some caller := by
  rw [(Gateway.decides_of_handle g r 0 (fun _ => false) (fun _ => .empty)).calls] at hmem
  obtain ⟨check, -, hasks⟩ := List.mem_flatMap.mp hmem
  cases check with
  | route | caller | kind | upgrade | backend => cases hasks
  | rights =>
    obtain ⟨i, hi, rfl⟩ := List.mem_map.mp hasks
    cases hcall
    exact Option.mem_toList.mp hi
  | watches =>
    obtain ⟨i, hi, rfl⟩ := List.mem_map.mp hasks
    cases hcall
    exact Option.mem_toList.mp hi
  | urls =>
    simp only [Gateway.asks] at hasks
    split at hasks
    · obtain ⟨path, -, rfl⟩ := List.mem_map.mp hasks
      cases hcall
    · cases hasks
  | dials =>
    simp only [Gateway.asks, dialHeaders] at hasks
    split at hasks
    · cases hasks
    · rw [List.mem_singleton.mp hasks] at hcall
      cases hcall

end Calls

-- ---------------------------------------------------------------------------
-- Inquiries
-- ---------------------------------------------------------------------------

/-- What holds of an inquiry, whatever others there are: it is about the caller of its
request, all its probes hold the prober that it began with, and it goes its own way
as if they asked with one voice. -/
structure Inquiry.Sound (g : Gateway) (a : Access) (x : Inquiry) : Prop where
  /-- the request is served by access, to which these questions are put -/
  called : ∃ call ∈ (g.handle x.request).calls,
    Crowd.inquired a.catalog call = some (x.prober.caller, x.questions)
  copies : x.copies = List.replicate x.state.tasks.length x.prober
  alone : Probe.Reachable (a.setting x.prober.caller x.prober.namespaces) x.questions x.state

section Inquiries

variable {g : Gateway} {a : Access} {x y : Inquiry} {e : Probe.Event}
  {asked : List (Identity × Question)}

theorem Inquiry.Sound.caller (hx : x.Sound g a) : g.callerOf x.request = some x.prober.caller := by
  obtain ⟨call, hmem, hcall⟩ := hx.called
  exact callerOf_of_call hmem hcall

/-- Whoever brings an event about holds the prober that the inquiry began with. -/
theorem Inquiry.Sound.actor (hx : x.Sound g a) {p : Prober} (hp : x.actor e = some p) :
    p = x.prober := by
  cases e with
  | start | close | collect | finish => exact (Option.some.inj hp).symm
  | ask i | settle i | record i | send i | spread i | retire i =>
    have hmem : p ∈ x.copies := List.mem_of_getElem? hp
    rw [hx.copies] at hmem
    exact List.eq_of_mem_replicate hmem

theorem copiesAfter_of_move {s : Probe.Setting} {st : Probe.State}
    (hcopies : x.copies = List.replicate x.state.tasks.length x.prober)
    (hm : Probe.Move s x.state e st) :
    x.copiesAfter x.prober e = List.replicate st.tasks.length x.prober := by
  have hmore : x.copies ++ [x.prober] = List.replicate (x.state.tasks.length + 1) x.prober := by
    rw [hcopies, ← List.replicate_succ']
  cases hm with
  | start => exact hmore.trans (by simp)
  | spread => exact hmore.trans (by simp)
  | @retire i t ht =>
    have hlt : i < x.state.tasks.length := (List.getElem?_eq_some_iff.mp ht).1
    show x.copies.eraseIdx i = _
    rw [hcopies, List.eraseIdx_replicate, if_pos hlt, List.length_eraseIdx_of_lt hlt]
  | ask | settle | record | send => exact hcopies.trans (by simp)
  | close | collect | finish => exact hcopies

theorem puts_of_move {s : Probe.Setting} {st : Probe.State} (p : Prober)
    (hm : Probe.Move s x.state e st) :
    ∃ qs, x.puts p e = qs.map (Prod.mk p.caller) ∧ st.asked = x.state.asked ++ qs := by
  cases hm with
  | @ask i q ht hp => exact ⟨[q], by simp [Inquiry.puts, ht], rfl⟩
  | start | close | settle | record | send | spread | retire | collect | finish =>
    exact ⟨[], rfl, (List.append_nil _).symm⟩

/-- A step of an inquiry is one of the run alone, and puts questions about its caller. -/
theorem Inquiry.Sound.step (hx : x.Sound g a) (h : x.step a e = some (y, asked)) :
    y.Sound g a ∧ y.prober = x.prober ∧
      ∃ qs, asked = qs.map (Prod.mk x.prober.caller) ∧ y.state.asked = x.state.asked ++ qs := by
  unfold Inquiry.step at h
  obtain ⟨p, hp, h⟩ := Option.bind_eq_some_iff.mp h
  obtain ⟨st, hst, h⟩ := Option.map_eq_some_iff.mp h
  obtain rfl := hx.actor hp
  have hm := Probe.move_of_step hst
  cases h
  exact ⟨⟨hx.called, copiesAfter_of_move hx.copies hm, hx.alone.move hm⟩, rfl,
    puts_of_move x.prober hm⟩

end Inquiries

-- ---------------------------------------------------------------------------
-- Crowds
-- ---------------------------------------------------------------------------

namespace Crowd

variable {g : Gateway} {a : Access} {s t : Crowd} {es : List Event}

/-- What holds of a crowd: each inquiry is sound, and the log has of each what its own
run has asked, in this order and about its caller. -/
structure Kept (g : Gateway) (a : Access) (s : Crowd) : Prop where
  sound : ∀ (k : Nat) (x : Inquiry), s.inquiries[k]? = some x → x.Sound g a
  log : ∀ (k : Nat) (x : Inquiry), s.inquiries[k]? = some x →
    s.log.filter (fun z => z.1 == k) = x.state.asked.map fun q => (k, x.prober.caller, q)
  known : ∀ z ∈ s.log, z.1 < s.inquiries.length

theorem kept_empty (g : Gateway) (a : Access) : empty.Kept g a := ⟨nofun, nofun, nofun⟩

theorem Kept.arrive (hs : s.Kept g a) (r : Request) (namespaces : List String) :
    (s.arrive g a r namespaces).Kept g a := by
  have hnew : ∀ x ∈ ((g.handle r).calls.filterMap (inquired a.catalog)).map
      (fun z => Inquiry.initial a r ⟨z.1, namespaces⟩ z.2),
      Inquiry.Sound g a x ∧ x.state.asked = [] := by
    intro x hx
    obtain ⟨⟨caller, qs⟩, hmem, rfl⟩ := List.mem_map.mp hx
    obtain ⟨call, hcall, hinquired⟩ := List.mem_filterMap.mp hmem
    exact ⟨⟨⟨call, hcall, hinquired⟩, rfl, .initial _ _⟩, rfl⟩
  unfold Crowd.arrive
  refine ⟨fun k x hx => ?_, fun k x hx => ?_, fun z hz => ?_⟩
  · rw [List.getElem?_append] at hx
    split at hx
    · exact hs.sound k x hx
    · exact (hnew x (List.mem_of_getElem? hx)).1
  · rw [List.getElem?_append] at hx
    split at hx
    · exact hs.log k x hx
    · next hk =>
      -- of an inquiry that begins here nothing can be in the log
      rw [(hnew x (List.mem_of_getElem? hx)).2, List.map_nil, List.filter_eq_nil_iff]
      intro z hz heq
      have hlt := hs.known z hz
      rw [beq_iff_eq] at heq
      omega
  · have hlt := hs.known z hz
    simp only [List.length_append]
    omega

theorem Kept.probe (hs : s.Kept g a) {k : Nat} {x y : Inquiry} {e : Probe.Event}
    {asked : List (Identity × Question)} (hx : s.inquiries[k]? = some x)
    (h : x.step a e = some (y, asked)) :
    Kept g a ⟨s.inquiries.set k y, s.log ++ asked.map (Prod.mk k)⟩ := by
  have hlt : k < s.inquiries.length := (List.getElem?_eq_some_iff.mp hx).1
  obtain ⟨hy, hprober, qs, rfl, hasked⟩ := (hs.sound k x hx).step h
  refine ⟨fun j z hz => ?_, fun j z hz => ?_, fun z hz => ?_⟩
  · by_cases hj : j = k
    · subst hj
      rw [List.getElem?_set_self hlt, Option.some.injEq] at hz
      exact hz ▸ hy
    · rw [List.getElem?_set_ne (Ne.symm hj)] at hz
      exact hs.sound j z hz
  · rw [List.filter_append, List.map_map]
    by_cases hj : j = k
    · subst hj
      rw [List.getElem?_set_self hlt, Option.some.injEq] at hz
      subst hz
      rw [hs.log j x hx, hasked, hprober, List.map_append,
        List.filter_eq_self.mpr (by simp [List.mem_map])]
      rfl
    · -- the questions of one inquiry are none of another
      rw [List.getElem?_set_ne (Ne.symm hj)] at hz
      rw [hs.log j z hz, List.filter_eq_nil_iff.mpr (by simp [List.mem_map, Ne.symm hj]),
        List.append_nil]
  · rw [List.length_set]
    rcases List.mem_append.mp hz with hz | hz
    · exact hs.known z hz
    · obtain ⟨w, -, rfl⟩ := List.mem_map.mp hz
      exact hlt

theorem Kept.step (hs : s.Kept g a) {e : Event} (h : s.step g a e = some t) : t.Kept g a := by
  cases e with
  | arrive r namespaces =>
    cases namespaces with
    | error cause => cases h; exact hs
    | ok namespaces => cases h; exact hs.arrive r namespaces
  | probe k e =>
    obtain ⟨x, hx, h⟩ := Option.bind_eq_some_iff.mp h
    obtain ⟨⟨y, asked⟩, hy, h⟩ := Option.map_eq_some_iff.mp h
    cases h
    exact hs.probe hx hy

theorem Kept.run (hs : s.Kept g a) (h : s.run g a es = some t) : t.Kept g a := by
  induction es generalizing s with
  | nil => cases h; exact hs
  | cons e es ih =>
    obtain ⟨r, hr, h⟩ := Option.bind_eq_some_iff.mp h
    exact ih (hs.step hr) h

end Crowd

-- ---------------------------------------------------------------------------
-- Reviews
-- ---------------------------------------------------------------------------

/-- The document of a review presents a caller as headers do: under the trimmed user,
and with the groups that they list. -/
def Cluster.Review.Presents (review : Review) (c : Credentials) (h : Headers) : Prop :=
  ∃ cs spec, (h.get? c.userHeader).bind Header.text? = some cs ∧ Text.trim cs ≠ [] ∧
    review.document.field? "spec" = some spec ∧
    spec.field? "user" = some (.str (String.ofList (Text.trim cs))) ∧
    spec.field? "groups" =
      some (Json.ofStrings (Credentials.listed (h.texts c.groupHeader)))

theorem Credentials.Carries.presents {c : Credentials} {h : Headers} {i : Identity}
    (hi : c.Carries h i) (q : Question) : (Cluster.Review.make i q).Presents c h := by
  obtain ⟨cs, hcs, hne, huser⟩ := hi.user
  have hspec : (Cluster.Review.make i q).document.field? "spec" =
      some (Cluster.Review.make i q).spec := by
    simp [Cluster.Review.document, Json.field?]
  refine ⟨cs, _, hcs, hne, hspec, ?_, ?_⟩
  · rw [← huser]
    simp [Cluster.Review.spec, Cluster.Review.make, Json.field?]
  · rw [← hi.groups]
    simp [Cluster.Review.spec, Cluster.Review.make, Json.field?]

/-- The reviews that a trial shows behind a request name the caller of the request as it
was received. -/
theorem Trial.callerOf_of_review {o : Options} {access : Access} {g : Gateway} {r : Request}
    {review : Cluster.Review} (h : review ∈ (ask o access g r).reviews) :
    ∃ r', r.receive = .ok r' ∧ g.callerOf r' = some review.caller := by
  have hreview : ∀ {r'}, review ∈ ((g.handle r').calls.filterMap (reportOf access)).flatMap reviewsOf →
      g.callerOf r' = some review.caller := by
    intro r' hmem
    obtain ⟨⟨caller, report⟩, hreport, hmem⟩ := List.mem_flatMap.mp hmem
    obtain ⟨q, -, rfl⟩ := List.mem_map.mp hmem
    obtain ⟨call, hcall, hof⟩ := List.mem_filterMap.mp hreport
    have hinquired : ∃ qs, Crowd.inquired access.catalog call = some (caller, qs) := by
      cases call with
      | rights | watches => cases hof; exact ⟨_, rfl⟩
      | url | direct => cases hof
    obtain ⟨qs, hqs⟩ := hinquired
    exact callerOf_of_call hcall hqs
  unfold ask at h
  cases hr : r.receive with
  | error e => simp [hr] at h
  | ok r' =>
    refine ⟨r', rfl, hreview ?_⟩
    simp only [hr] at h
    split at h
    · exact h
    · exact h

-- ---------------------------------------------------------------------------
-- Other callers
-- ---------------------------------------------------------------------------

theorem Access.survey_congr {α : Type} {a b : Access} {i : Identity}
    (hnamespaces : b.namespaces = a.namespaces) (hlimits : b.limits = a.limits)
    (hdecide : b.decide i = a.decide i) (qs : List Question) (f : List Grant → α) :
    b.survey i qs f = a.survey i qs f := by
  unfold survey setting
  rw [hnamespaces, hlimits, hdecide]

namespace Gateway

/-- A gateway whose callers are served by access. -/
def through (g : Gateway) (a : Access) : Gateway :=
  { g with
    rights := fun kind ns name caller => Startup.described (a.rights kind ns name caller).result
    service := { g.service with
      watches := fun caller => Startup.described (a.watches caller).result } }

/-- What the authorizer would say of others has no effect on a request. -/
theorem handle_eq_of_decide (g : Gateway) (a : Access) (r : Request)
    (decide : Identity → Question → Probe.Answer)
    (h : ∀ i, g.callerOf r = some i → decide i = a.decide i) :
    (g.through { a with decide := decide }).handle r = (g.through a).handle r := by
  have hcaller : ∀ i, g.credentials.identify r.headers = some i → decide i = a.decide i := h
  unfold handle through
  split
  · rfl
  · simp only
    cases hi : g.credentials.identify r.headers with
    | none => rfl
    | some i =>
      have hsurvey : ∀ {α : Type} (qs : List Question) (f : List Grant → α),
          ({ a with decide := decide } : Access).survey i qs f = a.survey i qs f :=
        fun qs f => Access.survey_congr (a := a) (b := { a with decide := decide }) rfl rfl
          (hcaller i hi) qs f
      simp only [permissions, multiwatch, Service.prepare, dialHeaders, Access.rights,
        Access.watches, hsurvey]

/-- Nor has what the cluster would answer to reviews about them. -/
theorem handle_eq_of_post (g : Gateway) (api : Cluster.Api) (c : Catalog) (limits : Probe.Limits)
    (r : Request) (post : Cluster.Review → Except Cluster.Failure Cluster.Reply × Nat)
    (h : ∀ i, g.callerOf r = some i → ∀ q,
      post (Cluster.Review.make i q) = api.post (Cluster.Review.make i q)) :
    (g.through (({ api with post := post } : Cluster.Api).access c limits)).handle r =
      (g.through (api.access c limits)).handle r := by
  refine handle_eq_of_decide g (api.access c limits) r _ fun i hi => ?_
  funext q
  show Cluster.Api.decide { api with post := post } i q = api.decide i q
  simp only [Cluster.Api.decide, h i hi q]

end Gateway

-- ---------------------------------------------------------------------------
-- Every question for its own caller
-- ---------------------------------------------------------------------------

namespace Crowd

/-- Nothing is asked of the authorizer but on behalf of the caller of a request. -/
structure Faithful (g : Gateway) (a : Access) (s : Crowd) : Prop where
  /-- a question is put for the caller that the headers of its own request carry, and the
  review of it presents the caller as they do -/
  put : ∀ k i q, (k, i, q) ∈ s.log → ∃ x, s.inquiries[k]? = some x ∧ q ∈ x.state.asked ∧
    g.credentials.Carries x.request.headers i ∧
    (Cluster.Review.make i q).Presents g.credentials x.request.headers
  /-- the log has of each inquiry what its own run has asked, in the same order -/
  own : ∀ (k : Nat) (x : Inquiry), s.inquiries[k]? = some x →
    s.log.filter (fun z => z.1 == k) = x.state.asked.map fun q => (k, x.prober.caller, q)
  /-- and this run is one that might have been made alone, of questions of its endpoint -/
  alone : ∀ (k : Nat) (x : Inquiry), s.inquiries[k]? = some x →
    (∃ call ∈ (g.handle x.request).calls,
      inquired a.catalog call = some (x.prober.caller, x.questions)) ∧
    Probe.Reachable (a.setting x.prober.caller x.prober.namespaces) x.questions x.state

/--
**Each question is put for the caller of its own request.** Any requests of any
callers, for rights or for watches, with any namespaces and any authorizer: in
whatever order the requests arrive and their probes take turns, each question, be it
a root question or one of a fan-out, is put for the user and the groups that the
headers of its own request name, and a review of it says so.
-/
theorem callers_kept (g : Gateway) (a : Access) (es : List Event) (s : Crowd)
    (h : empty.run g a es = some s) : s.Faithful g a := by
  have hs : s.Kept g a := (kept_empty g a).run h
  refine ⟨fun k i q hmem => ?_, hs.log,
    fun k x hx => ⟨(hs.sound k x hx).called, (hs.sound k x hx).alone⟩⟩
  obtain ⟨x, hx⟩ : ∃ x, s.inquiries[k]? = some x :=
    ⟨_, List.getElem?_eq_getElem (hs.known _ hmem)⟩
  have hown : (k, i, q) ∈ s.log.filter (fun z => z.1 == k) :=
    List.mem_filter.mpr ⟨hmem, beq_self_eq_true k⟩
  rw [hs.log k x hx] at hown
  obtain ⟨q', hq, heq⟩ := List.mem_map.mp hown
  cases heq
  have hcarries := Credentials.identify_eq_some_iff.mp (hs.sound k x hx).caller
  exact ⟨x, hx, hq, hcarries, hcarries.presents q⟩

/-- Beside all others an inquiry comes to the grants that access finds for its caller. -/
theorem grants_perm_report {g : Gateway} {a : Access} {es : List Event} {s : Crowd} {k : Nat}
    {x : Inquiry} (h : empty.run g a es = some s) (hx : s.inquiries[k]? = some x)
    (hn : ∀ n ∈ x.prober.namespaces, n ≠ "") (hf : x.state.finished = true) :
    x.state.grants.Perm
      ((a.setting x.prober.caller x.prober.namespaces).report x.questions).grants := by
  have halone := (((kept_empty g a).run h).sound k x hx).alone
  have hnamed : (a.setting x.prober.caller x.prober.namespaces).Named := hn
  obtain ⟨st, hst, hfinished, -, hgrants, -⟩ :=
    Probe.Setting.exists_finished hnamed x.questions
  rw [← hgrants]
  exact (halone.grants_perm_allGranted hnamed hf).trans
    (hst.grants_perm_allGranted hnamed hfinished).symm

/-- Asks for rights on pods, on behalf of a caller without groups. -/
def rightsRequest : Request where
  method := "GET"
  uri := ⟨none, none, "/permissions", some "kind=Pod"⟩
  headers := ⟨[⟨"x-remote-user", Bytes.ofAscii " bob "⟩]⟩
  client := .v4 127 0 0 1

/-- Denies everything. -/
def denials : Access :=
  ⟨.ofList [⟨"Pod", "pods", "api/v1", true⟩], .ok [], fun _ _ => ⟨.deny, 0⟩, .standard⟩

/-- One caller asks for a watch and another for rights, and their probes take turns. -/
def turns : List Event :=
  [.arrive Gateway.watchRequest (.ok ["team-a"]), .arrive rightsRequest (.ok ["team-b"]),
    .probe 1 .start, .probe 0 .start, .probe 1 (.ask 0), .probe 0 (.ask 0), .probe 1 (.settle 0),
    .probe 0 (.settle 0), .probe 0 (.record 0), .probe 1 (.record 0), .probe 0 (.spread 0),
    .probe 1 (.spread 0), .probe 0 (.ask 1), .probe 1 (.ask 1)]

/-- Whom the questions are about, and where. -/
def summary (s : Crowd) : List (Nat × Identity × String) :=
  s.log.map fun z => (z.1, z.2.1, z.2.2.ns)

theorem turns_kept :
    ∃ s, empty.run (Gateway.podsAndNodesGateway []) denials turns = some s ∧
      s.Faithful (Gateway.podsAndNodesGateway []) denials ∧
      s.summary = [(1, ⟨"bob", []⟩, ""), (0, ⟨"alice", ["dev", "ops"]⟩, ""),
        (0, ⟨"alice", ["dev", "ops"]⟩, "team-a"), (1, ⟨"bob", []⟩, "team-b")] := by
  have hsummary : (empty.run (Gateway.podsAndNodesGateway []) denials turns).map summary =
      some [(1, ⟨"bob", []⟩, ""), (0, ⟨"alice", ["dev", "ops"]⟩, ""),
        (0, ⟨"alice", ["dev", "ops"]⟩, "team-a"), (1, ⟨"bob", []⟩, "team-b")] := by
    decide +kernel
  obtain ⟨s, hs, hsum⟩ := Option.map_eq_some_iff.mp hsummary
  exact ⟨s, hs, callers_kept (Gateway.podsAndNodesGateway []) denials turns s hs, hsum⟩

end Crowd

end WatchGate
