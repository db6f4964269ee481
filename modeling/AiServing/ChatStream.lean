import AiServing.StreamLimiter
import AiServing.Transitions

namespace AiServing
open Transitions
set_option autoImplicit true

structure NormalizedUsage where
  promptTokens : Int := 0
  completionTokens : Int := 0
  totalTokens : Int := 0
  deriving DecidableEq, Repr

structure NormalizedStreamChunk where
  id : Option String := none
  model : Option String := none
  role : Option String := none
  delta : String := ""
  finishReason : Option String := none
  usage : Option NormalizedUsage := none
  deriving DecidableEq, Repr

structure APIError where
  message : String
  statusCode : Nat
  errorType : String
  code : Option String
  deriving DecidableEq, Repr

/-- An `Exception` of the provider. -/
inductive StreamFailure where
  | api (e : APIError)
  | other
  deriving DecidableEq, Repr

/-- How the wait for the next chunk ends. -/
inductive Upstream where
  | chunk (c : NormalizedStreamChunk)
  | stop
  | timeout
  | failed (e : StreamFailure)
  deriving DecidableEq, Repr

/-- What the body is made of; `timeout` is the frame with an event name. -/
inductive Frame where
  | chunk (c : NormalizedStreamChunk)
  | done
  | timeout
  | error (message errorType : String) (code : Option String)
  deriving DecidableEq, Repr

/-- The fields of `request.state` that the stream writes. -/
structure RequestState where
  errorType : Option String := none
  auditStatusCode : Option Nat := none
  tokenUsage : Option NormalizedUsage := none
  deriving DecidableEq, Repr

inductive EarlyReply where
  | timeout
  | reraise (e : StreamFailure)
  deriving DecidableEq, Repr

inductive StreamEnd where
  | raised (e : StreamFailure)
  | cancelled
  | discarded
  | finished
  deriving DecidableEq, Repr

/-- Where the exchange stands: the points of the handler up to `responded`, and then those of the
generator that owns the lease, or of `_stream_timeout_only`, which owns none. -/
inductive StreamPoint where
  | opening
  | awaitingFirst
  | closingEarly (reply : EarlyReply)
  | timedOut
  | timeoutSent
  | responded (first : Option NormalizedStreamChunk)
  | yielded (more : Bool)
  | awaitingNext
  | closing
  | over (e : StreamEnd)
  deriving DecidableEq, Repr

/-- What may happen to the exchange at its points. -/
inductive StreamEvent where
  | opened (failure : Option StreamFailure)
  | upstream (u : Upstream)
  | cancel
  | closed
  | start
  | discard
  | resume
  | close
  deriving DecidableEq, Repr

structure ChatStream where
  limiter : StreamLimiter
  lease : Nat
  point : StreamPoint := .opening
  request : RequestState := {}
  tokenUsage : Option NormalizedUsage := none
  frames : List Frame := []

namespace ChatStream

def moveTo (s : ChatStream) (p : StreamPoint) : ChatStream := { s with point := p }

/-- `await stream_lease.release()` -/
def releaseLease (s : ChatStream) (p : StreamPoint) : ChatStream :=
  { s with limiter := s.limiter.release s.lease, point := p }

/-- `yield to_sse(chunk)` -/
def yieldChunk (s : ChatStream) (c : NormalizedStreamChunk) : ChatStream :=
  { s with
    tokenUsage := if c.usage.isSome then c.usage else s.tokenUsage
    frames := s.frames ++ [.chunk c]
    point := .yielded true }

/-- The last `yield` of a stream, with what it notes for the audit. -/
def yieldLast (s : ChatStream) (request : RequestState) (frame : Frame) : ChatStream :=
  { s with request := request, frames := s.frames ++ [frame], point := .yielded false }

/-- The handler, once it holds a lease and before it answers. -/
def handlerStep (s : ChatStream) (e : StreamEvent) : Option ChatStream :=
  match s.point, e with
  | .opening, .opened none => some (s.moveTo .awaitingFirst)
  | .opening, .opened (some e) => some (s.releaseLease (.over (.raised e)))
  | .awaitingFirst, .upstream (.chunk c) => some (s.moveTo (.responded (some c)))
  | .awaitingFirst, .upstream .stop => some (s.moveTo (.responded none))
  | .awaitingFirst, .upstream .timeout => some (s.moveTo (.closingEarly .timeout))
  | .awaitingFirst, .upstream (.failed e) => some (s.moveTo (.closingEarly (.reraise e)))
  | .awaitingFirst, .cancel => some (s.moveTo (.over .cancelled))
  | .closingEarly .timeout, .closed => some (s.releaseLease .timedOut)
  | .closingEarly (.reraise e), .closed => some (s.releaseLease (.over (.raised e)))
  | .closingEarly _, .cancel => some (s.moveTo (.over .cancelled))
  | _, _ => none

/-- `_stream_timeout_only` -/
def timeoutOnlyStep (s : ChatStream) (e : StreamEvent) : Option ChatStream :=
  match s.point, e with
  | .timedOut, .start =>
    some { s with
      request := { s.request with
        errorType := some "stream_timeout", auditStatusCode := some 504 }
      frames := s.frames ++ [.timeout]
      point := .timeoutSent }
  | .timedOut, .discard => some (s.moveTo (.over .discarded))
  | .timeoutSent, .resume => some (s.moveTo (.over .finished))
  | .timeoutSent, .close => some (s.moveTo (.over .finished))
  | _, _ => none

/-- `_stream_chunks`; a generator that is dropped before it starts runs none of its code. -/
def generatorStep (s : ChatStream) (e : StreamEvent) : Option ChatStream :=
  match s.point, e with
  | .responded (some c), .start => some (s.yieldChunk c)
  | .responded none, .start => some (s.moveTo .awaitingNext)
  | .responded _, .discard => some (s.moveTo (.over .discarded))
  | .yielded true, .resume => some (s.moveTo .awaitingNext)
  | .yielded false, .resume => some (s.moveTo .closing)
  | .yielded _, .close => some (s.moveTo .closing)
  | .awaitingNext, .upstream (.chunk c) => some (s.yieldChunk c)
  | .awaitingNext, .upstream .stop =>
    some (s.yieldLast { s.request with tokenUsage := s.tokenUsage } .done)
  | .awaitingNext, .upstream .timeout =>
    some (s.yieldLast { s.request with
      errorType := some "stream_timeout", auditStatusCode := some 504 } .timeout)
  | .awaitingNext, .upstream (.failed (.api e)) =>
    some (s.yieldLast { s.request with
      errorType := some e.errorType, auditStatusCode := some e.statusCode }
      (.error e.message e.errorType e.code))
  | .awaitingNext, .upstream (.failed .other) =>
    some (s.yieldLast { s.request with
      errorType := some "server_error", auditStatusCode := some 500 }
      (.error "Internal server error" "server_error" (some "internal_error")))
  | .awaitingNext, .cancel => some (s.moveTo .closing)
  | .closing, .closed => some (s.releaseLease (.over .finished))
  | .closing, .cancel => some (s.moveTo (.over .cancelled))
  | _, _ => none

def exchangeStep (s : ChatStream) (e : StreamEvent) : Option ChatStream :=
  match s.point with
  | .opening | .awaitingFirst | .closingEarly _ => s.handlerStep e
  | .timedOut | .timeoutSent => s.timeoutOnlyStep e
  | .over _ => none
  | _ => s.generatorStep e

/-- A step of the exchange, or a limiter call of another task, which holds other leases. -/
inductive Action where
  | own (e : StreamEvent)
  | other (op : StreamLimiter.Op)
  deriving DecidableEq, Repr

def step (s : ChatStream) : Action → Option ChatStream
  | .own e => s.exchangeStep e
  | .other op =>
    if op = .release s.lease then none else some { s with limiter := s.limiter.apply op }

/-- The steps that end the exchange in the code's hands but without its `release`. -/
def cutShort (s : ChatStream) : Action → Bool
  | .own e =>
    match s.point, e with
    | .awaitingFirst, .cancel => true
    | .closingEarly _, .cancel => true
    | .responded _, .discard => true
    | .closing, .cancel => true
    | _, _ => false
  | .other _ => false

/-- The points at which the handler or its generator still owes the release. -/
def holding (s : ChatStream) : Bool :=
  match s.point with
  | .timedOut | .timeoutSent | .over _ => false
  | _ => true

variable {s t : ChatStream} {a : Action} {e : StreamEvent}

/-- What a step of the exchange does to the lease. -/
inductive LeaseEffect (s t : ChatStream) (e : StreamEvent) : Prop
  | kept (hh : s.holding = t.holding) (hcut : s.cutShort (.own e) = false)
      (hl : t.limiter = s.limiter)
  | released (hs : s.holding = true) (ht : t.holding = false)
      (hcut : s.cutShort (.own e) = false) (hl : t.limiter = s.limiter.release s.lease)
  | dropped (hs : s.holding = true) (ht : t.holding = false) (hcut : s.cutShort (.own e) = true)
      (hl : t.limiter = s.limiter)

theorem handlerStep_cases (h : s.handlerStep e = some t) :
    t.lease = s.lease ∧ LeaseEffect s t e := by
  unfold handlerStep at h
  split at h
  case h_2 hp =>
    cases h
    exact ⟨rfl, .released (by simp [holding, hp]) rfl (by simp [cutShort, hp]) rfl⟩
  case h_7 hp =>
    cases h
    exact ⟨rfl, .dropped (by simp [holding, hp]) rfl (by simp [cutShort, hp]) rfl⟩
  case h_8 hp =>
    cases h
    exact ⟨rfl, .released (by simp [holding, hp]) rfl (by simp [cutShort, hp]) rfl⟩
  case h_9 hp =>
    cases h
    exact ⟨rfl, .released (by simp [holding, hp]) rfl (by simp [cutShort, hp]) rfl⟩
  case h_10 hp =>
    cases h
    exact ⟨rfl, .dropped (by simp [holding, hp]) rfl (by simp [cutShort, hp]) rfl⟩
  case h_11 => cases h
  all_goals
    next hp =>
      cases h
      exact ⟨rfl, .kept (by simp [holding, hp, moveTo]) (by simp [cutShort, hp]) rfl⟩

theorem timeoutOnlyStep_cases (h : s.timeoutOnlyStep e = some t) :
    t.lease = s.lease ∧ LeaseEffect s t e := by
  unfold timeoutOnlyStep at h
  split at h
  case h_5 => cases h
  all_goals
    next hp =>
      cases h
      exact ⟨rfl, .kept (by simp [holding, hp, moveTo]) (by simp [cutShort, hp]) rfl⟩

theorem generatorStep_cases (h : s.generatorStep e = some t) :
    t.lease = s.lease ∧ LeaseEffect s t e := by
  unfold generatorStep at h
  split at h
  case h_3 hp =>
    cases h
    exact ⟨rfl, .dropped (by simp [holding, hp]) rfl (by simp [cutShort, hp]) rfl⟩
  case h_13 hp =>
    cases h
    exact ⟨rfl, .released (by simp [holding, hp]) rfl (by simp [cutShort, hp]) rfl⟩
  case h_14 hp =>
    cases h
    exact ⟨rfl, .dropped (by simp [holding, hp]) rfl (by simp [cutShort, hp]) rfl⟩
  case h_15 => cases h
  all_goals
    next hp =>
      cases h
      refine ⟨rfl, .kept ?_ (by simp [cutShort, hp]) rfl⟩
      simp [holding, hp, moveTo, yieldChunk, yieldLast]

theorem exchangeStep_cases (h : s.exchangeStep e = some t) :
    t.lease = s.lease ∧ LeaseEffect s t e := by
  unfold exchangeStep at h
  split at h
  · exact handlerStep_cases h
  · exact handlerStep_cases h
  · exact handlerStep_cases h
  · exact timeoutOnlyStep_cases h
  · exact timeoutOnlyStep_cases h
  · cases h
  · exact generatorStep_cases h

end ChatStream

end AiServing
