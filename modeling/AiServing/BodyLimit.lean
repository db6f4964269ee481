import AiServing.ChatFrames
import AiServing.ScopeCodec
import AiServing.Transitions

namespace AiServing
open Transitions
set_option autoImplicit true

/-- The digits of an integer, with single underscores between them. -/
def parseDigits (t : Text) : Option Nat :=
  let groups := t.splitOn '_'
  if groups.all (fun g => g ≠ [] && g.all isDecimal) && groups.flatten.length ≤ 4300 then
    some (intOf groups.flatten)
  else none

/-- The blanks that `int` takes off: those of C, and what is a space outside ASCII. -/
def isIntBlank (c : Char) : Bool :=
  c = ' ' || (9 ≤ c.toNat && c.toNat ≤ 13) || (0x80 ≤ c.toNat && isSpace c)

/-- `int(text)`, and nothing where it raises `ValueError`. -/
def parseInt (text : Text) : Option Int :=
  match (text.dropWhile isIntBlank).rdropWhile isIntBlank with
  | '-' :: t => (parseDigits t).map fun n => -n
  | '+' :: t => (parseDigits t).map Int.ofNat
  | t => (parseDigits t).map Int.ofNat

example : (["12", " +1_000\u00a0", "-3", "1__0", "", "0x10", "٣", "\u001c9\u00a0"].map fun t =>
    parseInt t.toList) =
      [some 12, some 1000, some (-3), none, none, none, some 3, none] := by decide

/-- A message of the server. -/
structure ReceiveMessage where
  type : String
  body : Option (List UInt8) := none
  moreBody : Option Bool := none
  deriving DecidableEq, Repr

inductive SendMessage where
  | responseStart (status : Nat)
  | responseBody (body : List UInt8) (moreBody : Bool)
  deriving DecidableEq, Repr

def SendMessage.isStart : SendMessage → Bool
  | .responseStart _ => true
  | .responseBody _ _ => false

def ReceiveMessage.isRequest (m : ReceiveMessage) : Bool := m.type = "http.request"

/-- `len(message.get("body", b""))` -/
def ReceiveMessage.bodyLength (m : ReceiveMessage) : Nat := (m.body.getD []).length

def requestsOf (messages : List ReceiveMessage) : List ReceiveMessage :=
  messages.filter ReceiveMessage.isRequest

def bodyTotal (messages : List ReceiveMessage) : Nat :=
  ((requestsOf messages).map ReceiveMessage.bodyLength).sum

/-- A connection and what the server will say on it; only HTTP has `http.request` messages. -/
structure HttpConnection where
  scopeType : String
  contentLength : Option Text
  messages : List ReceiveMessage
  asgi : scopeType ≠ "http" → requestsOf messages = []

/-- `_error_response`, as the messages that a `JSONResponse` sends. -/
def errorResponse (statusCode : Nat) (message errorType code : String) : List SendMessage :=
  [.responseStart statusCode,
    .responseBody ((compactJson (openaiErrorBody message errorType (some code))).flatMap
      String.utf8EncodeChar) false]

def requestTooLarge : List SendMessage :=
  errorResponse 413 "Request body too large" "invalid_request_error" "request_too_large"

/-- Where the call of the middleware stands. -/
inductive BodyPhase where
  | rejected
  | running
  | returned
  | failed
  | answered
  deriving DecidableEq, Repr

/-- What the application does.  No `await` stands between the arrival of a message and the answer
of `limited_receive`, so calls that overlap are answered one after another. -/
inductive BodyAction where
  | receive
  | send (m : SendMessage)
  | finish
  | fail
  | letOut
  deriving DecidableEq, Repr

/-- What stands between the server and the application: the messages that are still to come, the
counter of `limited_receive`, whether it has raised, and what it has handed on. -/
structure BodyGate where
  limited : Bool
  maxBytes : Int
  messages : List ReceiveMessage
  received : Nat := 0
  raised : Bool := false
  handed : List ReceiveMessage := []
  deriving DecidableEq, Repr

/-- `limited_receive`, or `receive` itself on a connection that is not HTTP; it waits for a message. -/
def BodyGate.receive (g : BodyGate) : Option BodyGate :=
  match g.messages with
  | [] => none
  | message :: rest =>
    if g.limited && message.isRequest then
      let received := g.received + message.bodyLength
      if received > g.maxBytes then
        some { g with messages := rest, received := received, raised := true }
      else some { g with messages := rest, received := received, handed := g.handed ++ [message] }
    else some { g with messages := rest, handed := g.handed ++ [message] }

/-- One call of `BodySizeLimitMiddleware`. -/
structure BodyLimit where
  gate : BodyGate
  phase : BodyPhase
  sent : List SendMessage := []
  deriving DecidableEq, Repr

namespace BodyLimit

/-- `__call__`, up to the call of the application. -/
def call (maxBytes : Int) (c : HttpConnection) : BodyLimit :=
  if c.scopeType ≠ "http" then ⟨{ limited := false, maxBytes, messages := c.messages }, .running, []⟩
  else
    let gate : BodyGate := { limited := true, maxBytes, messages := c.messages }
    match c.contentLength.bind parseInt with
    | some n => if n > maxBytes then ⟨gate, .rejected, requestTooLarge⟩ else ⟨gate, .running, []⟩
    | none => ⟨gate, .running, []⟩

/-- Tasks that outlive the application may still call `receive`. -/
def step (s : BodyLimit) : BodyAction → Option BodyLimit
  | .receive =>
    if s.phase = .rejected then none else s.gate.receive.map fun gate => { s with gate := gate }
  | .send m => if s.phase = .running then some { s with sent := s.sent ++ [m] } else none
  | .finish => if s.phase = .running then some { s with phase := .returned } else none
  | .fail => if s.phase = .running then some { s with phase := .failed } else none
  | .letOut =>
    if s.phase = .running ∧ s.gate.raised then
      some { s with phase := .answered, sent := s.sent ++ requestTooLarge }
    else none

end BodyLimit

theorem requestsOf_append (l l' : List ReceiveMessage) :
    requestsOf (l ++ l') = requestsOf l ++ requestsOf l' := List.filter_append ..

theorem bodyTotal_append (l l' : List ReceiveMessage) :
    bodyTotal (l ++ l') = bodyTotal l + bodyTotal l' := by
  rw [bodyTotal, requestsOf_append, List.map_append, List.sum_append]
  rfl

theorem requestsOf_request {m : ReceiveMessage} (h : m.isRequest) : requestsOf [m] = [m] := by
  rw [requestsOf, List.filter_singleton, h]
  rfl

theorem requestsOf_other {m : ReceiveMessage} (h : m.isRequest = false) : requestsOf [m] = [] := by
  rw [requestsOf, List.filter_singleton, h]
  rfl

theorem bodyTotal_request {m : ReceiveMessage} (h : m.isRequest) :
    bodyTotal [m] = m.bodyLength := by
  rw [bodyTotal, requestsOf_request h]
  rfl

theorem bodyTotal_of_requestsOf_nil (h : requestsOf l = []) : bodyTotal l = 0 := by
  rw [bodyTotal, h]
  rfl

namespace BodyGate

variable {g g' : BodyGate}

theorem over_add (h : g.maxBytes < g.received) (n : Nat) :
    g.maxBytes < ((g.received + n : Nat) : Int) :=
  h.trans_le (Int.ofNat_le.2 (Nat.le_add_right ..))

theorem receive_cases (h : g.receive = some g') :
    ∃ message rest, g.messages = message :: rest ∧
      ((g.limited = false ∧ g' = { g with messages := rest, handed := g.handed ++ [message] }) ∨
       (g.limited = true ∧ (message.isRequest → g.received + message.bodyLength ≤ g.maxBytes) ∧
        g' = { g with messages := rest, received := g.received + bodyTotal [message],
                      handed := g.handed ++ [message] }) ∨
       (g.limited = true ∧ message.isRequest = true ∧
        g.maxBytes < g.received + message.bodyLength ∧
        g' = { g with messages := rest, received := g.received + bodyTotal [message],
                      raised := true })) := by
  unfold receive at h
  cases hm : g.messages with
  | nil =>
    rw [hm] at h
    cases h
  | cons message rest =>
    refine ⟨message, rest, rfl, ?_⟩
    rw [hm] at h
    cases hl : g.limited with
    | false =>
      left
      simp only [hl, Bool.false_and, Bool.false_eq_true, if_false, Option.some.injEq] at h
      exact ⟨rfl, h.symm⟩
    | true =>
      right
      cases hr : message.isRequest with
      | false =>
        left
        simp only [hl, hr, Bool.and_false, Bool.false_eq_true, if_false, Option.some.injEq] at h
        refine ⟨rfl, nofun, ?_⟩
        rw [bodyTotal_of_requestsOf_nil (requestsOf_other hr)]
        exact h.symm
      | true =>
        rw [bodyTotal_request hr]
        simp only [hl, hr, Bool.and_true, if_true] at h
        by_cases hmax : ((g.received + message.bodyLength : Nat) : Int) > g.maxBytes
        · right
          rw [if_pos hmax] at h
          exact ⟨rfl, rfl, by push_cast at hmax; exact hmax, (Option.some.inj h).symm⟩
        · left
          rw [if_neg hmax] at h
          refine ⟨rfl, fun _ => ?_, (Option.some.inj h).symm⟩
          push_cast at hmax
          exact Int.not_lt.1 hmax

theorem receive_enabled (hm : g.messages = m :: rest) :
    ∃ g', g.receive = some g' ∧ g'.messages = rest := by
  unfold receive
  rw [hm]
  dsimp only
  split
  · split
    · exact ⟨_, rfl, rfl⟩
    · exact ⟨_, rfl, rfl⟩
  · exact ⟨_, rfl, rfl⟩

/-- What holds of the gate while a connection brings its messages. -/
structure Counted (messages : List ReceiveMessage) (g : BodyGate) : Prop where
  scope : g.limited = false → requestsOf messages = []
  taken : ∃ taken, messages = taken ++ g.messages ∧
    (g.limited = true → g.received = bodyTotal taken) ∧ (g.raised = false → g.handed = taken)
  raised : g.raised = true → g.limited = true ∧ g.maxBytes < g.received
  counted : bodyTotal g.handed ≤ g.received
  bounded : requestsOf g.handed ≠ [] → bodyTotal g.handed ≤ g.maxBytes

theorem Counted.receive (hg : g.Counted l) (h : g.receive = some g') :
    g'.Counted l := by
  obtain ⟨message, rest, hm, hcases⟩ := receive_cases h
  obtain ⟨taken, htaken, hreceived, hhanded⟩ := hg.taken
  have hsplit : l = (taken ++ [message]) ++ rest := by
    rw [htaken, hm, List.append_assoc, List.singleton_append]
  rcases hcases with ⟨hl, rfl⟩ | ⟨hl, hfits, rfl⟩ | ⟨hl, hr, hover, rfl⟩
  · have hnone := hg.scope hl
    rw [hsplit, requestsOf_append, requestsOf_append] at hnone
    have hlast := (List.append_eq_nil_iff.1 (List.append_eq_nil_iff.1 hnone).1).2
    have htotal : bodyTotal (g.handed ++ [message]) = bodyTotal g.handed := by
      rw [bodyTotal_append, bodyTotal_of_requestsOf_nil hlast, Nat.add_zero]
    refine ⟨hg.scope, ⟨_, hsplit, fun hl' => ?_, fun hr => ?_⟩, hg.raised, ?_, ?_⟩
    · cases hl.symm.trans hl'
    · exact congrArg (· ++ [message]) (hhanded hr)
    · exact htotal.trans_le hg.counted
    · rw [htotal, requestsOf_append, hlast, List.append_nil]
      exact hg.bounded
  · refine ⟨hg.scope, ⟨_, hsplit, fun _ => ?_, fun hr => ?_⟩, fun hr => ?_, ?_, ?_⟩
    · exact (congrArg (· + bodyTotal [message]) (hreceived hl)).trans (bodyTotal_append ..).symm
    · exact congrArg (· ++ [message]) (hhanded hr)
    · exact ⟨hl, over_add (hg.raised hr).2 _⟩
    · have hle := hg.counted
      change bodyTotal (g.handed ++ [message]) ≤ g.received + bodyTotal [message]
      rw [bodyTotal_append]
      omega
    · intro hne
      change ((bodyTotal (g.handed ++ [message]) : Nat) : Int) ≤ g.maxBytes
      have hle := hg.counted
      rw [bodyTotal_append]
      cases hr : message.isRequest with
      | true =>
        have hbound := hfits hr
        rw [bodyTotal_request hr]
        omega
      | false =>
        have hother := requestsOf_other hr
        rw [bodyTotal_of_requestsOf_nil hother, Nat.add_zero]
        apply hg.bounded
        rwa [requestsOf_append, hother, List.append_nil] at hne
  · have hle := hg.counted
    rw [← bodyTotal_request hr] at hover
    refine ⟨hg.scope, ⟨_, hsplit, fun _ => ?_, nofun⟩, fun _ => ⟨hl, ?_⟩, ?_, hg.bounded⟩
    · exact (congrArg (· + bodyTotal [message]) (hreceived hl)).trans (bodyTotal_append ..).symm
    · exact_mod_cast hover
    · exact hle.trans (Nat.le_add_right ..)

/-- The gate lets no request message through any more. -/
def Closed (g : BodyGate) : Prop :=
  (g.limited = true ∧ g.maxBytes < g.received) ∨ requestsOf g.messages = []

theorem Closed.receive (hg : g.Closed) (h : g.receive = some g') :
    g'.Closed ∧ requestsOf g'.handed = requestsOf g.handed := by
  obtain ⟨message, rest, hm, hcases⟩ := receive_cases h
  rcases hg with ⟨hl, hover⟩ | hnone
  · rcases hcases with ⟨hl', rfl⟩ | ⟨_, hfits, rfl⟩ | ⟨_, hr, hmore, rfl⟩
    · cases hl.symm.trans hl'
    · have hr : message.isRequest = false := by
        apply Bool.eq_false_iff.2
        intro hr
        have := hfits hr
        omega
      refine ⟨.inl ⟨hl, over_add hover _⟩, ?_⟩
      rw [requestsOf_append, requestsOf_other hr, List.append_nil]
    · exact ⟨.inl ⟨hl, over_add hover _⟩, rfl⟩
  · rw [hm, ← List.singleton_append, requestsOf_append, List.append_eq_nil_iff] at hnone
    obtain ⟨hfirst, hrest⟩ := hnone
    rcases hcases with ⟨_, rfl⟩ | ⟨_, _, rfl⟩ | ⟨_, _, _, rfl⟩
    · exact ⟨.inr hrest, by rw [requestsOf_append, hfirst, List.append_nil]⟩
    · exact ⟨.inr hrest, by rw [requestsOf_append, hfirst, List.append_nil]⟩
    · exact ⟨.inr hrest, rfl⟩

end BodyGate

namespace BodyLimit

variable {s t u : BodyLimit} {a : BodyAction} {maxBytes : Int}

theorem step_gate (h : s.step a = some t) : t.gate = s.gate ∨ s.gate.receive = some t.gate := by
  cases a with
  | receive =>
    right
    simp only [step] at h
    split at h
    · cases h
    · obtain ⟨gate, hgate, rfl⟩ := Option.map_eq_some_iff.1 h
      exact hgate
  | send | finish | fail | letOut =>
    left
    simp only [step] at h
    split at h
    · cases h
      rfl
    · cases h

theorem call_gate (maxBytes : Int) (c : HttpConnection) :
    ∃ limited, (call maxBytes c).gate = { limited, maxBytes, messages := c.messages } ∧
      (limited = false → requestsOf c.messages = []) := by
  unfold call
  by_cases hs : c.scopeType ≠ "http"
  · rw [if_pos hs]
    exact ⟨false, rfl, fun _ => c.asgi hs⟩
  · rw [if_neg hs]
    refine ⟨true, ?_, nofun⟩
    dsimp only
    split
    · split <;> rfl
    · rfl

theorem call_counted (maxBytes : Int) (c : HttpConnection) :
    (call maxBytes c).gate.Counted c.messages ∧ (call maxBytes c).gate.maxBytes = maxBytes := by
  obtain ⟨limited, hgate, hscope⟩ := call_gate maxBytes c
  rw [hgate]
  refine ⟨⟨hscope, ⟨[], rfl, fun _ => rfl, fun _ => rfl⟩, nofun, Nat.le_refl 0, ?_⟩, rfl⟩
  intro hne
  exact absurd rfl hne

theorem run_counted {c : HttpConnection} (h : run step (call maxBytes c) as = some s) :
    s.gate.Counted c.messages ∧ s.gate.maxBytes = maxBytes := by
  apply run_invariant (I := fun s => s.gate.Counted c.messages ∧ s.gate.maxBytes = maxBytes) ?_
    (call_counted maxBytes c) h
  intro s a t ⟨hs, hmax⟩ hstep
  rcases step_gate hstep with hgate | hgate
  · rw [hgate]
    exact ⟨hs, hmax⟩
  · refine ⟨hs.receive hgate, ?_⟩
    obtain ⟨_, _, _, hcases⟩ := BodyGate.receive_cases hgate
    rcases hcases with ⟨_, ht⟩ | ⟨_, _, ht⟩ | ⟨_, _, _, ht⟩ <;> rw [ht] <;> exact hmax

theorem run_closed (hs : s.gate.Closed) (h : run step s as = some t) :
    requestsOf t.gate.handed = requestsOf s.gate.handed := by
  have hrun := run_invariant
    (I := fun t => t.gate.Closed ∧ requestsOf t.gate.handed = requestsOf s.gate.handed) ?_
    ⟨hs, rfl⟩ h
  · exact hrun.2
  · intro t a u ⟨ht, heq⟩ hstep
    rcases step_gate hstep with hgate | hgate
    · rw [hgate]
      exact ⟨ht, heq⟩
    · exact ⟨(ht.receive hgate).1, (ht.receive hgate).2.trans heq⟩

theorem step_phase (h : s.step a = some t) :
    s.phase ≠ .rejected ∧ t.phase ≠ .rejected ∧
      (s.phase = .answered → t.phase = .answered ∧ t.sent = s.sent) := by
  cases a with
  | receive =>
    simp only [step] at h
    split at h
    · cases h
    · next hp =>
      obtain ⟨gate, _, rfl⟩ := Option.map_eq_some_iff.1 h
      exact ⟨hp, hp, fun ha => ⟨ha, rfl⟩⟩
  | send | finish | fail =>
    simp only [step] at h
    split at h
    · next hp =>
      cases h
      refine ⟨by rw [hp]; exact nofun, by simp [hp], fun ha => ?_⟩
      cases hp.symm.trans ha
    · cases h
  | letOut =>
    simp only [step] at h
    split at h
    · next hp =>
      cases h
      refine ⟨by rw [hp.1]; exact nofun, nofun, fun ha => ?_⟩
      cases hp.1.symm.trans ha
    · cases h

theorem run_answered (hs : s.phase = .answered) (h : run step s as = some t) :
    t.phase = .answered ∧ t.sent = s.sent := by
  apply run_invariant (I := fun t => t.phase = .answered ∧ t.sent = s.sent) ?_ ⟨hs, rfl⟩ h
  intro t a u ⟨ha, hsent⟩ hstep
  obtain ⟨ha', hsent'⟩ := (step_phase hstep).2.2 ha
  exact ⟨ha', hsent'.trans hsent⟩

/-- The header does not announce more than the limit. -/
def Admitted (maxBytes : Int) (c : HttpConnection) : Prop :=
  ∀ n, c.contentLength.bind parseInt = some n → n ≤ maxBytes

theorem run_admitted {c : HttpConnection} (hc : Admitted maxBytes c)
    (h : run step (call maxBytes c) as = some s) : s.phase ≠ .rejected := by
  apply run_invariant (I := fun s => s.phase ≠ .rejected) ?_ ?_ h
  · intro s a t _ hstep
    exact (step_phase hstep).2.1
  · unfold call
    by_cases hs : c.scopeType ≠ "http"
    · rw [if_pos hs]
      exact nofun
    · rw [if_neg hs]
      dsimp only
      split
      · next n hn =>
        rw [if_neg (Int.not_lt.2 (hc n hn))]
        exact nofun
      · exact nofun

theorem run_within {c : HttpConnection} (hfits : bodyTotal c.messages ≤ maxBytes)
    (h : run step (call maxBytes c) as = some s) :
    s.gate.raised = false ∧ c.messages = s.gate.handed ++ s.gate.messages := by
  obtain ⟨hs, rfl⟩ := run_counted h
  obtain ⟨taken, htaken, hreceived, hhanded⟩ := hs.taken
  have hraised : s.gate.raised = false := by
    apply Bool.eq_false_iff.2
    intro hr
    obtain ⟨hl, hover⟩ := hs.raised hr
    rw [htaken, bodyTotal_append] at hfits
    rw [hreceived hl] at hover
    omega
  refine ⟨hraised, ?_⟩
  rw [hhanded hraised]
  exact htaken

theorem receive_within {c : HttpConnection} (hheader : Admitted maxBytes c)
    (hfits : bodyTotal c.messages ≤ maxBytes) (h : run step (call maxBytes c) as = some s)
    (hm : s.gate.messages = m :: rest) :
    ∃ t, s.step .receive = some t ∧ t.gate.handed = s.gate.handed ++ [m] := by
  obtain ⟨gate, hgate, hrest⟩ := BodyGate.receive_enabled hm
  have hstep : s.step .receive = some { s with gate := gate } := by
    simp only [step, if_neg (run_admitted hheader h), hgate, Option.map_some]
  refine ⟨_, hstep, ?_⟩
  have hnext : run step (call maxBytes c) (as ++ [.receive]) = some { s with gate := gate } := by
    rw [run_append, h, Option.bind_some, run, hstep]
    rfl
  have hbefore := (run_within hfits h).2
  have hafter := (run_within hfits hnext).2
  rw [hm, hafter, hrest, ← List.singleton_append, ← List.append_assoc] at hbefore
  exact List.append_cancel_right hbefore

theorem run_crossed {c : HttpConnection} (h : run step (call maxBytes c) as = some s)
    (htaken : c.messages = taken ++ s.gate.messages) (hover : maxBytes < bodyTotal taken)
    (hrest : run step s bs = some t) : requestsOf t.gate.handed = requestsOf s.gate.handed := by
  apply run_closed ?_ hrest
  obtain ⟨hs, rfl⟩ := run_counted h
  obtain ⟨taken', htaken', hreceived, _⟩ := hs.taken
  obtain rfl : taken = taken' := List.append_cancel_right (htaken.symm.trans htaken')
  cases hl : s.gate.limited with
  | true =>
    left
    exact ⟨hl, by rw [hreceived hl]; exact hover⟩
  | false =>
    right
    have hnone := hs.scope hl
    rw [htaken, requestsOf_append] at hnone
    exact (List.append_eq_nil_iff.1 hnone).2

/-- The exception that leaves the application is answered once and in full. -/
theorem letOut_answers (ht : s.step .letOut = some t) (h : run step t as = some u) :
    u.sent = s.sent ++ requestTooLarge := by
  simp only [step] at ht
  split at ht
  · cases ht
    exact (run_answered rfl h).2
  · cases ht

/-- What a connection may bring and an application may do, the bodies handed on stay within the
limit; within it the middleware is invisible, and over it there is one answer. -/
theorem body_limit (maxBytes : Int) (c : HttpConnection) (as : List BodyAction) (s : BodyLimit)
    (h : run step (call maxBytes c) as = some s) :
    (requestsOf s.gate.handed ≠ [] → bodyTotal s.gate.handed ≤ maxBytes) ∧
    (∀ taken, c.messages = taken ++ s.gate.messages → maxBytes < bodyTotal taken →
      ∀ bs t, run step s bs = some t → requestsOf t.gate.handed = requestsOf s.gate.handed) ∧
    (Admitted maxBytes c → bodyTotal c.messages ≤ maxBytes →
      c.messages = s.gate.handed ++ s.gate.messages ∧
      ∀ m rest, s.gate.messages = m :: rest →
        ∃ t, s.step .receive = some t ∧ t.gate.handed = s.gate.handed ++ [m]) ∧
    (s.sent.any SendMessage.isStart = false → ∀ t bs u,
      s.step .letOut = some t → run step t bs = some u →
      u.sent = s.sent ++ requestTooLarge ∧
      u.sent.filter SendMessage.isStart = [.responseStart 413]) := by
  refine ⟨?_, fun taken htaken hover bs t hrest => run_crossed h htaken hover hrest, ?_, ?_⟩
  · obtain ⟨hs, rfl⟩ := run_counted h
    exact hs.bounded
  · intro hheader hfits
    refine ⟨(run_within hfits h).2, ?_⟩
    intro m rest hm
    exact receive_within hheader hfits h hm
  · intro hstart t bs u ht hrest
    have hsent := letOut_answers ht hrest
    refine ⟨hsent, ?_⟩
    rw [hsent, List.filter_append]
    have hnone : s.sent.filter SendMessage.isStart = [] := by
      apply List.filter_eq_nil_iff.2
      exact List.any_eq_false.1 hstart
    rw [hnone]
    rfl

def chunk (digits : List UInt8) (more : Bool) : ReceiveMessage :=
  ⟨"http.request", some digits, some more⟩

/-- Two chunks of three bytes. -/
def chunkedUpload : HttpConnection where
  scopeType := "http"
  contentLength := none
  messages := [chunk [49, 50, 51] true, chunk [52, 53, 54] false]
  asgi := fun h => absurd rfl h

/-- Where an application with five bytes to spare has read both chunks. -/
def overrun : BodyLimit where
  gate := ⟨true, 5, [], 6, true, [chunk [49, 50, 51] true]⟩
  phase := .running

theorem body_limit_chunked :
    bodyTotal overrun.gate.handed ≤ 5 ∧
      (∃ t, overrun.step .letOut = some t ∧ t.sent = requestTooLarge) := by
  have h := body_limit 5 chunkedUpload [.receive, .receive] overrun (by decide)
  refine ⟨by exact_mod_cast h.1 (by decide), _, rfl, ?_⟩
  exact (h.2.2.2 rfl _ [] _ rfl rfl).1

end BodyLimit

end AiServing
