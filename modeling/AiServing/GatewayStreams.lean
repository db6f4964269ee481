import AiServing.GatewayRuns
import AiServing.LeaseLedger

namespace AiServing
open Transitions
set_option autoImplicit true

/-- The number of the stream that a request was given. -/
def GatewayRequest.stream? (q : GatewayRequest settings) : Option Nat :=
  match q.point with
  | .opening lease => some lease
  | _ => q.lease

namespace Gateway

/-- The requests of a principal that were given a stream and have not given its lease back. -/
def heldStreams (s : Gateway settings) (key : String) : Nat :=
  s.requests.countP fun q =>
    (q.principal.any fun p => String.ofList p.apiKeyHash = key) && q.stream?.isSome && !q.closed

section Lists

theorem set_perm {l : List α} (h : l[i]? = some x) (y : α) :
    l.Perm (x :: l.eraseIdx i) ∧ (l.set i y).Perm (y :: l.eraseIdx i) := by
  obtain ⟨hi, hx⟩ := List.getElem?_eq_some_iff.1 h
  constructor
  · rw [← hx]
    exact (List.getElem_cons_eraseIdx_perm hi).symm
  · have hset : i < (l.set i y).length := by
      rw [List.length_set]
      exact hi
    have hperm := (List.getElem_cons_eraseIdx_perm hset).symm
    rw [List.getElem_set_self, List.eraseIdx_set_eq] at hperm
    exact hperm

theorem countP_range_getElem? (l : List α) (p : α → Bool) :
    (List.range l.length).countP (fun i => l[i]?.any p) = l.countP p := by
  induction l using List.reverseRecOn with
  | nil => rfl
  | append_singleton l x ih =>
    rw [List.length_append, List.length_singleton, List.range_succ, List.countP_append,
      List.countP_append, ← ih]
    congr 1
    · apply List.countP_congr
      intro i hi
      rw [List.getElem?_append_left (List.mem_range.1 hi)]
    · rw [List.countP_singleton, List.countP_singleton, List.getElem?_concat_length]
      rfl

end Lists

variable {app : GatewayApp} {s t u : Gateway app.settings} {a : GatewayStep app.settings}
  {steps : List (GatewayStep app.settings)} {q q' : GatewayRequest app.settings} {n : Nat}

/-- What a move does to the streams. -/
inductive StreamEffect (s s' : SharedState) (q q' : GatewayRequest settings) : Prop
  | quiet (hstreams : s'.streams = s.streams) (hstream : q'.stream? = q.stream?)
      (hclosed : q'.closed = q.closed) (hprincipal : q.stream? = none ∨ q'.principal = q.principal)
  | asked (p : ApiKeyPrincipal) (hp : q'.principal = some p) (hnone : q.stream? = none)
      (hclosed : q'.closed = q.closed) (hstreams : s'.streams = (s.streams.acquire (String.ofList p.apiKeyHash)).1)
      (hstream : q'.stream? = (s.streams.acquire (String.ofList p.apiKeyHash)).2)
  | closed (id : Nat) (hid : q.stream? = some id) (hstreams : s'.streams = s.streams.release id)
      (hq' : q' = { q with closed := true })

/-- A request has a lease of its own only past the call that opens its stream. -/
def Early (q : GatewayRequest settings) : Prop := Settled q.point ∨ q.lease = none

theorem Settled.stream (h : Settled q.point) : q.stream? = q.lease := by
  rw [GatewayRequest.stream?]
  cases hpoint : q.point with
  | opening =>
    rw [hpoint] at h
    exact h.elim
  | _ => rfl

theorem Early.stream {lease : Nat} (h : Early q) (hlease : q.lease = some lease) :
    q.stream? = some lease := by
  rcases h with hsettled | hnone
  · exact hsettled.stream.trans hlease
  · rw [hlease] at hnone
    cases hnone

theorem Advance.early {shared : SharedState} {move : GatewayMove}
    (h : Advance app shared now move q q') (hq : Early q) : Early q' := by
  have hlease : ¬ Settled q.point → q.lease = none := fun hpoint => hq.resolve_left hpoint
  cases h with
  | selected hmove hpoint hq' =>
    rw [hpoint] at hlease
    rw [hq']
    exact .inr (hlease id)
  | authenticated p keys auth hmove hpoint hauth hp hq' =>
    rw [hpoint] at hlease
    rw [hq']
    exact .inr (hlease id)
  | admitted p hmove hpoint hallowed hq' =>
    rw [hpoint] at hlease
    rw [hq']
    exact .inr (hlease id)
  | ready p requestId payload hpoint hscope hroute hq' =>
    rw [hpoint] at hlease
    rw [hq']
    exact .inr (hlease id)
  | called p requestId payload hpoint point hlate calls hcalls hq' =>
    rw [hpoint] at hlease
    rw [hq']
    exact .inr (hlease id)
  | moved point hsettled lease hq' =>
    rw [hq']
    exact .inl hsettled
  | closed hq' =>
    rw [hq']
    exact hq

theorem chatRun_streams (compile : Text → ReCompile)
    (chat : ProviderName → NormalizedChatRequest → Except RequestFailure NormalizedChatResponse)
    {settings : ChatSettings} (requestId : Text) (p : ApiKeyPrincipal)
    (payload : ChatCompletionRequest settings) (streams : StreamLimiter) :
    let run := chatRun compile chat settings requestId p payload streams
    (run.limiter = streams ∧ ∀ stream, run.reply ≠ .streaming stream) ∨
      (run.limiter = (streams.acquire (String.ofList p.apiKeyHash)).1 ∧
        match run.reply with
        | .streaming stream => (streams.acquire (String.ofList p.apiKeyHash)).2 = some stream.lease
        | _ => (streams.acquire (String.ofList p.apiKeyHash)).2 = none) := by
  intro run
  have hrun : run = chatRun compile chat settings requestId p payload streams := rfl
  have hraised (e : RequestFailure) (stream : ChatStream) : ChatReply.raised e ≠ .streaming stream :=
    ChatReply.noConfusion
  have hcompleted (response : NormalizedChatResponse) (stream : ChatStream) :
      ChatReply.completed response ≠ .streaming stream := ChatReply.noConfusion
  unfold chatRun createChatCompletion at hrun
  dsimp only at hrun
  split at hrun
  · rw [hrun]
    exact .inl ⟨rfl, hraised _⟩
  · rw [callProvider] at hrun
    split at hrun
    · rw [hrun]
      exact .inl ⟨rfl, hraised _⟩
    · dsimp only at hrun
      split at hrun
      · right
        rcases hacquire : streams.acquire (String.ofList p.apiKeyHash) with ⟨limiter, _ | lease⟩
        · rw [hacquire] at hrun
          rw [hrun]
          exact ⟨rfl, rfl⟩
        · rw [hacquire] at hrun
          rw [hrun]
          exact ⟨rfl, rfl⟩
      · left
        split at hrun
        · rw [hrun]
          exact ⟨rfl, hraised _⟩
        · rw [hrun]
          exact ⟨rfl, hcompleted _⟩

theorem lookup_streams {shared : SharedState} (hsame : q.stream? = q.lease) :
    StreamEffect shared shared q (q.lookup app shared) := by
  rw [GatewayRequest.lookup]
  split
  · exact .quiet rfl hsame.symm rfl (.inr rfl)
  · exact .quiet rfl hsame.symm rfl (.inr rfl)
  · exact .quiet rfl hsame.symm rfl (.inr rfl)

theorem authenticate_streams {shared shared' : SharedState} {keys : ApiKeys}
    (hpoint : q.point = .selected keys) (hlease : q.lease = none)
    (h : q.authenticate app shared keys = (shared', q')) : StreamEffect shared shared' q q' := by
  have hnone : q.stream? = none := by rw [GatewayRequest.stream?, hpoint, hlease]
  rw [GatewayRequest.authenticate] at h
  split at h
  · cases h
    exact .quiet rfl (hlease.trans hnone.symm) rfl (.inl hnone)
  all_goals
    split at h
    · cases h
      exact .quiet rfl (hlease.trans hnone.symm) rfl (.inl hnone)
    · cases h
      exact .quiet rfl (hlease.trans hnone.symm) rfl (.inl hnone)

theorem enforce_streams {shared shared' : SharedState} (hsame : q.stream? = q.lease)
    (h : q.enforce app shared now p = (shared', q')) : StreamEffect shared shared' q q' := by
  rw [GatewayRequest.enforce] at h
  dsimp only at h
  split at h
  · cases h
    exact .quiet rfl hsame.symm rfl (.inr rfl)
  · cases h
    exact .quiet rfl hsame.symm rfl (.inr rfl)

theorem dependencies_streams {shared : SharedState} (hsame : q.stream? = q.lease) :
    StreamEffect shared shared q (q.dependencies app p) := by
  rw [GatewayRequest.dependencies]
  split
  · split
    · exact .quiet rfl hsame.symm rfl (.inr rfl)
    · split
      · exact .quiet rfl hsame.symm rfl (.inr rfl)
      · exact .quiet rfl hsame.symm rfl (.inr rfl)
  · exact .quiet rfl hsame.symm rfl (.inr rfl)
  · exact .quiet rfl hsame.symm rfl (.inr rfl)

theorem respond_streams {shared shared' : SharedState} (hsame : q.stream? = q.lease)
    (h : q.respond app shared now status = (shared', q')) : StreamEffect shared shared' q q' := by
  rw [GatewayRequest.respond] at h
  dsimp only at h
  split at h
  · cases h
    exact .quiet rfl hsame.symm rfl (.inr rfl)
  · split at h
    · split at h
      · cases h
        exact .quiet rfl hsame.symm rfl (.inr rfl)
      · cases h
        exact .quiet rfl hsame.symm rfl (.inr rfl)
    · cases h
      exact .quiet rfl hsame.symm rfl (.inr rfl)

theorem handle_streams {shared shared' : SharedState}
    {chat : ProviderName → NormalizedChatRequest → Except RequestFailure NormalizedChatResponse}
    (hp : q.principal = some p) (hlease : q.lease = none) (hnone : q.stream? = none)
    (h : q.handle app shared chat p requestId payload = (shared', q')) :
    StreamEffect shared shared' q q' := by
  rw [GatewayRequest.handle] at h
  have hrun := chatRun_streams app.compile chat requestId p payload shared.streams
  generalize chatRun app.compile chat app.settings requestId p payload shared.streams = run at h hrun
  cases h
  rcases hrun with ⟨hlimiter, hreply⟩ | ⟨hlimiter, hreply⟩
  · refine .quiet hlimiter ?_ rfl (.inl hnone)
    rw [hnone]
    cases hrun : run.reply with
    | completed response => exact hlease
    | raised e => exact hlease
    | streaming stream => exact absurd hrun (hreply stream)
  · refine .asked p hp hnone rfl hlimiter ?_
    cases hrun : run.reply with
    | completed response =>
      rw [hrun] at hreply
      exact hlease.trans hreply.symm
    | raised e =>
      rw [hrun] at hreply
      exact hlease.trans hreply.symm
    | streaming stream =>
      rw [hrun] at hreply
      exact hreply.symm

theorem advance_streams {shared shared' : SharedState} {move : GatewayMove} (hq : Lawful q)
    (hearly : Early q) (h : q.advance app shared now move = some (shared', q')) :
    StreamEffect shared shared' q q' := by
  have hlease : ¬ Settled q.point → q.lease = none := fun hpoint => hearly.resolve_left hpoint
  unfold GatewayRequest.advance at h
  split at h
  · next hpoint =>
    cases h
    apply lookup_streams
    rw [GatewayRequest.stream?, hpoint]
  · next hpoint =>
    rw [hpoint] at hlease
    exact authenticate_streams hpoint (hlease id) (Option.some.inj h)
  · next hpoint =>
    apply enforce_streams _ (Option.some.inj h)
    rw [GatewayRequest.stream?, hpoint]
  · next hpoint =>
    cases h
    apply dependencies_streams
    rw [GatewayRequest.stream?, hpoint]
  · next p requestId payload hpoint =>
    rw [hpoint] at hlease
    rw [Lawful, hpoint] at hq
    have hsame : q.stream? = q.lease := by rw [GatewayRequest.stream?, hpoint]
    exact handle_streams hq.1.principal (hlease id) (hsame.trans (hlease id)) (Option.some.inj h)
  · next hpoint =>
    cases h
    refine .quiet rfl ?_ rfl (.inr rfl)
    rw [GatewayRequest.stream?, GatewayRequest.stream?, hpoint]
  · obtain ⟨lease, hsome, heq⟩ := Option.map_eq_some_iff.1 h
    cases heq
    exact .closed lease (hearly.stream hsome) rfl rfl
  · next hpoint =>
    apply respond_streams _ (Option.some.inj h)
    rw [GatewayRequest.stream?, hpoint]
  · cases h

/-- The limiter has handed out exactly the streams of the requests, each for the principal of its own
request, and has back those that were given back. -/
structure StreamsKept (n : Nat) (s : Gateway app.settings) : Prop where
  max : s.shared.streams.maxConcurrentStreams = n
  balanced : s.shared.streams.Balanced
  numbered : (s.requests.filterMap GatewayRequest.stream?).Perm
    (List.range s.shared.streams.leases.length)
  early : ∀ q ∈ s.requests, Early q
  unclosed : ∀ q ∈ s.requests, q.stream? = none → q.closed = false
  owned : ∀ q ∈ s.requests, ∀ id ∈ q.stream?, ∃ p, q.principal = some p ∧
    s.shared.streams.leases[id]? = some ⟨String.ofList p.apiKeyHash, q.closed⟩

theorem StreamsKept.start (db : Database) (n : Nat) (hn : 0 < n) :
    StreamsKept n (start app db (.new n hn)) where
  max := rfl
  balanced := .new n hn
  numbered := .nil
  early _ hq := nomatch hq
  unclosed _ hq := nomatch hq
  owned _ hq := nomatch hq

theorem StreamsKept.granted (hs : StreamsKept n s) {id : Nat} (hq : s.requests[id]? = some q)
    (hnone : q.stream? = none) (hearly : Early q') (hclosed : q'.closed = q.closed)
    (hp : q'.principal = some p) (hstream : q'.stream? = some s.shared.streams.leases.length)
    (hbalanced : t.shared.streams.Balanced) (hmax : t.shared.streams.maxConcurrentStreams = n)
    (hleases : t.shared.streams.leases =
      s.shared.streams.leases ++ [⟨String.ofList p.apiKeyHash, false⟩])
    (hrequests : t.requests = s.requests.set id q') : StreamsKept n t where
  max := hmax
  balanced := hbalanced
  numbered := by
    obtain ⟨hbefore, hafter⟩ := set_perm hq q'
    have hothers : (s.requests.filterMap GatewayRequest.stream?).Perm
        ((s.requests.eraseIdx id).filterMap GatewayRequest.stream?) := by
      have hperm := hbefore.filterMap GatewayRequest.stream?
      rw [List.filterMap_cons_none hnone] at hperm
      exact hperm
    have hnew := hafter.filterMap GatewayRequest.stream?
    rw [List.filterMap_cons_some hstream] at hnew
    rw [hrequests, hleases, List.length_append, List.length_singleton, List.range_succ]
    have hold := (hothers.symm.trans hs.numbered).cons s.shared.streams.leases.length
    exact (hnew.trans hold).trans (List.perm_append_singleton _ _).symm
  early r hr := by
    rw [hrequests] at hr
    rcases List.mem_or_eq_of_mem_set hr with hold | rfl
    · exact hs.early r hold
    · exact hearly
  unclosed r hr hempty := by
    rw [hrequests] at hr
    rcases List.mem_or_eq_of_mem_set hr with hold | rfl
    · exact hs.unclosed r hold hempty
    · rw [hstream] at hempty
      cases hempty
  owned r hr i hi := by
    rw [hrequests] at hr
    rw [hleases]
    rcases List.mem_or_eq_of_mem_set hr with hold | rfl
    · obtain ⟨p, hp, hlease⟩ := hs.owned r hold i hi
      refine ⟨p, hp, ?_⟩
      rw [List.getElem?_append_left (List.getElem?_eq_some_iff.1 hlease).1]
      exact hlease
    · rw [hstream] at hi
      cases hi
      refine ⟨p, hp, ?_⟩
      rw [hclosed, hs.unclosed q (List.mem_of_getElem? hq) hnone]
      exact List.getElem?_concat_length

theorem release_lease {streams : StreamLimiter} (h : streams.Balanced) {id : Nat} {own : StreamLease}
    (hl : streams.leases[id]? = some own) :
    (streams.release id).Balanced ∧
      (streams.release id).leases = streams.leases.set id { own with released := true } := by
  cases hr : own.released with
  | true =>
    rw [StreamLimiter.release_of_released hl hr]
    refine ⟨h, ?_⟩
    obtain ⟨hlt, heq⟩ := List.getElem?_eq_some_iff.1 hl
    have hown : { own with released := true } = own := by rw [← hr]
    rw [hown, ← heq, List.set_getElem_self]
  | false => exact StreamLimiter.release_cases h hl hr

theorem StreamsKept.closed (hs : StreamsKept n s) {i id : Nat} (hq : s.requests[i]? = some q)
    (hid : q.stream? = some id) (hstreams : t.shared.streams = s.shared.streams.release id)
    (hrequests : t.requests = s.requests.set i { q with closed := true }) : StreamsKept n t := by
  have hmem := List.mem_of_getElem? hq
  obtain ⟨p, hp, hown⟩ := hs.owned q hmem id hid
  obtain ⟨hbalanced, hleases⟩ := release_lease hs.balanced hown
  obtain ⟨hbefore, hafter⟩ := set_perm hq { q with closed := true }
  have hold := hbefore.filterMap GatewayRequest.stream?
  have hnew := hafter.filterMap GatewayRequest.stream?
  have hid' : GatewayRequest.stream? { q with closed := true } = some id := hid
  rw [List.filterMap_cons_some hid] at hold
  rw [List.filterMap_cons_some hid'] at hnew
  -- no other request has the same number
  have hothers : ∀ r ∈ s.requests.eraseIdx i, r.stream? ≠ some id := by
    have hnodup := (hold.symm.trans hs.numbered).nodup_iff.2 List.nodup_range
    intro r hr heq
    exact (List.nodup_cons.1 hnodup).1 (List.mem_filterMap.2 ⟨r, hr, heq⟩)
  have hcases : ∀ r ∈ t.requests, r = { q with closed := true } ∨ r ∈ s.requests.eraseIdx i := by
    intro r hr
    rw [hrequests] at hr
    exact List.mem_cons.1 (hafter.mem_iff.1 hr)
  have hkept : ∀ r ∈ s.requests.eraseIdx i, r ∈ s.requests := fun r => List.mem_of_mem_eraseIdx
  refine ⟨?_, hstreams ▸ hbalanced, ?_, fun r hr => ?_, fun r hr hnone => ?_, fun r hr j hj => ?_⟩
  · rw [hstreams]
    exact (StreamLimiter.apply_maxConcurrentStreams s.shared.streams (.release id)).trans hs.max
  · rw [hstreams, hrequests, hleases, List.length_set]
    exact (hnew.trans hold.symm).trans hs.numbered
  · rcases hcases r hr with rfl | hother
    · exact hs.early q hmem
    · exact hs.early r (hkept r hother)
  · rcases hcases r hr with rfl | hother
    · rw [hid'] at hnone
      cases hnone
    · exact hs.unclosed r (hkept r hother) hnone
  · rw [hstreams, hleases]
    rcases hcases r hr with rfl | hother
    · cases hid.symm.trans hj
      exact ⟨p, hp, List.getElem?_set_self (List.getElem?_eq_some_iff.1 hown).1⟩
    · obtain ⟨p', hp', hlease⟩ := hs.owned r (hkept r hother) j hj
      refine ⟨p', hp', ?_⟩
      rw [List.getElem?_set_ne]
      · exact hlease
      · rintro rfl
        exact hothers r hother hj

theorem StreamsKept.moved (hs : StreamsKept n s) {id : Nat} (hq : s.requests[id]? = some q)
    (hearly : Early q') (hstreams : t.shared.streams = s.shared.streams)
    (hstream : q'.stream? = q.stream?) (hclosed : q'.closed = q.closed)
    (hprincipal : q.stream? = none ∨ q'.principal = q.principal)
    (hrequests : t.requests = s.requests.set id q') : StreamsKept n t := by
  have hmem := List.mem_of_getElem? hq
  refine ⟨hstreams ▸ hs.max, hstreams ▸ hs.balanced, ?_, fun r hr => ?_, fun r hr hnone => ?_,
    fun r hr i hi => ?_⟩
  · obtain ⟨hbefore, hafter⟩ := set_perm hq q'
    have hsame : (q' :: s.requests.eraseIdx id).filterMap GatewayRequest.stream? =
        (q :: s.requests.eraseIdx id).filterMap GatewayRequest.stream? := by
      rw [List.filterMap_cons, List.filterMap_cons, hstream]
    have hnew := hafter.filterMap GatewayRequest.stream?
    rw [hsame] at hnew
    rw [hrequests, hstreams]
    exact (hnew.trans (hbefore.filterMap _).symm).trans hs.numbered
  · rw [hrequests] at hr
    rcases List.mem_or_eq_of_mem_set hr with hold | rfl
    · exact hs.early r hold
    · exact hearly
  · rw [hrequests] at hr
    rcases List.mem_or_eq_of_mem_set hr with hold | rfl
    · exact hs.unclosed r hold hnone
    · rw [hclosed]
      exact hs.unclosed q hmem (hstream.symm.trans hnone)
  · rw [hrequests] at hr
    rw [hstreams]
    rcases List.mem_or_eq_of_mem_set hr with hold | rfl
    · exact hs.owned r hold i hi
    · rw [hstream] at hi
      rcases hprincipal with hnone | hsame
      · rw [hnone] at hi
        cases hi
      · rw [hsame, hclosed]
        exact hs.owned q hmem i hi

theorem arrive_streams (app : GatewayApp) (shared : SharedState)
    (incoming : IncomingRequest app.settings) (now : ℚ) :
    (shared.arrive app incoming now).1.streams = shared.streams := by
  rw [SharedState.arrive]
  dsimp only
  split
  · rfl
  · split
    · rfl
    · rfl

theorem StreamsKept.arrived (hs : StreamsKept n s) {shared : SharedState}
    {incoming : IncomingRequest app.settings} {point : GatewayPoint app.settings}
    (hpoint : point = .forwarded ∨ point = .answered 429 now)
    (hstreams : shared.streams = s.shared.streams) :
    StreamsKept n ⟨shared, s.requests ++ [{ incoming := incoming, point := point }]⟩ := by
  have hnone : GatewayRequest.stream? { incoming := incoming, point := point } = none := by
    rcases hpoint with rfl | rfl
    · rfl
    · rfl
  refine ⟨hstreams ▸ hs.max, hstreams ▸ hs.balanced, ?_, fun r hr => ?_, fun r hr hempty => ?_,
    fun r hr i hi => ?_⟩
  · rw [List.filterMap_append, List.filterMap_cons_none hnone, List.filterMap_nil, List.append_nil]
    exact hstreams.symm ▸ hs.numbered
  · rcases List.mem_append.1 hr with hold | hnew
    · exact hs.early r hold
    · rw [List.mem_singleton.1 hnew]
      exact .inr rfl
  · rcases List.mem_append.1 hr with hold | hnew
    · exact hs.unclosed r hold hempty
    · rw [List.mem_singleton.1 hnew]
  · rcases List.mem_append.1 hr with hold | hnew
    · exact hstreams.symm ▸ hs.owned r hold i hi
    · rw [List.mem_singleton.1 hnew, hnone] at hi
      cases hi

theorem StreamsKept.step (hs : StreamsKept n s) (hlawful : AllLawful s) (h : s.step app a = some t) :
    StreamsKept n t := by
  obtain ⟨action, now⟩ := a
  cases action with
  | commit db =>
    cases h
    exact ⟨hs.max, hs.balanced, hs.numbered, hs.early, hs.unclosed, hs.owned⟩
  | arrive incoming =>
    cases harrive : s.shared.arrive app incoming now with
    | mk shared q =>
      rw [Gateway.step] at h
      simp only [harrive] at h
      cases h
      have hstreams : shared.streams = s.shared.streams := by
        rw [← arrive_streams app s.shared incoming now, harrive]
      obtain ⟨⟨point, hpoint, rfl⟩, _⟩ := arrive_cases harrive
      exact hs.arrived hpoint hstreams
  | move id move =>
    obtain ⟨q, q', hq, hadvance, hset⟩ := step_move h
    have hearly := (advance_cases hadvance).early (hs.early q (List.mem_of_getElem? hq))
    cases advance_streams (hlawful id q hq) (hs.early q (List.mem_of_getElem? hq)) hadvance with
    | quiet hstreams hstream hclosed hprincipal =>
      exact hs.moved hq hearly hstreams hstream hclosed hprincipal hset
    | closed i hid hstreams hq' =>
      rw [hq'] at hset
      exact hs.closed hq hid hstreams hset
    | asked p hp hnone hclosed hstreams hstream =>
      obtain ⟨hbalanced, hcases⟩ := StreamLimiter.acquire_cases hs.balanced (String.ofList p.apiKeyHash)
      have hmax := StreamLimiter.apply_maxConcurrentStreams s.shared.streams
        (.acquire (String.ofList p.apiKeyHash))
      rw [StreamLimiter.apply, ← hstreams] at hmax
      rcases hcases with ⟨_, hrefused⟩ | ⟨_, hid, hleases⟩
      · rw [hrefused] at hstreams hstream
        exact hs.moved hq hearly hstreams (hstream.trans hnone.symm) hclosed (.inl hnone) hset
      · rw [← hstreams] at hbalanced hleases
        exact hs.granted hq hnone hearly hclosed hp (hstream.trans hid) hbalanced (hmax.trans hs.max)
          hleases hset

theorem StreamsKept.run {db : Database} {hn : 0 < n}
    (hrun : run (Gateway.step app) (Gateway.start app db (.new n hn)) steps = some u) :
    StreamsKept n u := by
  have hboth := run_invariant (I := fun s => StreamsKept n s ∧ AllLawful s)
    (fun _ _ _ hs h => ⟨hs.1.step hs.2 h, hs.2.step h⟩)
    ⟨.start db n hn, .start db (.new n hn)⟩ hrun
  exact hboth.1

theorem StreamsKept.live (hs : StreamsKept n s) (key : String) :
    s.shared.streams.live key = s.heldStreams key := by
  have hcount := hs.numbered.countP_eq fun i =>
    s.shared.streams.leases[i]?.any (StreamLimiter.isLive key)
  rw [countP_range_getElem?, List.countP_filterMap] at hcount
  rw [StreamLimiter.live, ← hcount, heldStreams]
  apply List.countP_congr
  intro q hq
  cases hid : q.stream? with
  | none =>
    rw [Option.isSome_none, Bool.and_false, Bool.false_and]
    exact Iff.rfl
  | some id =>
    obtain ⟨p, hp, hlease⟩ := hs.owned q hq id hid
    rw [Option.map_some, Option.getD_some, hp, Option.any_some, hlease, Option.any_some,
      StreamLimiter.isLive, Option.isSome_some, Bool.and_true]

/-- However the requests interleave, the limiter counts for a key exactly the requests of that
principal that were given a stream and have not given its lease back. They are never more than the
maximum, and another is refused exactly when they are that many. -/
theorem streams_counted {db : Database} {hn : 0 < n}
    (hrun : Transitions.run (Gateway.step app) (Gateway.start app db (.new n hn)) steps = some u)
    (key : String) :
    u.shared.streams.count key = u.heldStreams key ∧ u.heldStreams key ≤ n ∧
      ((u.shared.streams.acquire key).2 = none ↔ u.heldStreams key = n) := by
  have hkept := StreamsKept.run hrun
  have hlive := hkept.live key
  refine ⟨(hkept.balanced.count key).trans hlive, ?_, ?_⟩
  · rw [← hlive, ← hkept.max]
    exact hkept.balanced.le_max key
  · obtain ⟨_, ⟨hfull, hout⟩ | ⟨hfree, hout, _⟩⟩ := StreamLimiter.acquire_cases hkept.balanced key
    · rw [hout, ← hlive, hfull]
      exact iff_of_true rfl hkept.max
    · rw [hout, ← hlive, ← hkept.max]
      exact iff_of_false (Option.some_ne_none _) (Nat.ne_of_lt hfree)

/-- Two requests with the key that ask for a stream, of which the second finds no slot. -/
def sampleStreaming : List (GatewayStep sampleApp.settings) :=
  let incoming : IncomingRequest sampleApp.settings :=
    ⟨"ip", .chat { credentials := some ("Bearer".toList, ['e']), context := sampleCall } ['r']
      (.ok { samplePayload with stream := true })⟩
  [⟨.arrive incoming, 0⟩, ⟨.arrive incoming, 0⟩, ⟨.move 0 .lookup, 1⟩, ⟨.move 1 .lookup, 1⟩,
    ⟨.move 0 .authenticate, 1⟩, ⟨.move 1 .authenticate, 1⟩, ⟨.move 0 .enforce, 2⟩, ⟨.move 1 .enforce, 70⟩,
    ⟨.move 0 .dependencies, 71⟩, ⟨.move 1 .dependencies, 71⟩, ⟨.move 0 (.handle sampleAnswer), 72⟩,
    ⟨.move 1 (.handle sampleAnswer), 73⟩, ⟨.move 0 (.opened 200), 74⟩, ⟨.move 0 .respond, 75⟩]

theorem streams_counted_full : ∃ u,
    Transitions.run (Gateway.step sampleApp) sampleStart sampleStreaming = some u ∧
      u.heldStreams "-e" = 1 ∧ u.shared.streams.count "-e" = u.heldStreams "-e" ∧
      u.heldStreams "-e" ≤ 1 ∧
      ((u.shared.streams.acquire "-e").2 = none ↔ u.heldStreams "-e" = 1) := by
  have hrun : (Transitions.run (Gateway.step sampleApp) sampleStart sampleStreaming).any
      (fun u => u.heldStreams "-e" = 1) := by
    decide +kernel
  obtain ⟨u, hu, hopen⟩ := (Option.any_eq_true _ _).1 hrun
  exact ⟨u, hu, of_decide_eq_true hopen, streams_counted hu "-e"⟩

end Gateway
end AiServing
