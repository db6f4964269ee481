import AiServing.ChatStream

namespace AiServing
open Transitions
set_option autoImplicit true

namespace ChatStream

/-- The error of a provider that a step runs into. -/
def Action.apiError? : Action → Option APIError
  | .own (.opened (some (.api e))) => some e
  | .own (.upstream (.failed (.api e))) => some e
  | _ => none

/-- The exception that is on its way out of the handler. -/
def uncaught (s : ChatStream) : Option APIError :=
  match s.point with
  | .closingEarly (.reraise (.api e)) => some e
  | .over (.raised (.api e)) => some e
  | _ => none

/-- `request.state` behind the stream and `api_error_handler`. -/
def finalRequest (s : ChatStream) : RequestState :=
  match s.uncaught with
  | none => s.request
  | some e => { s.request with errorType := some e.errorType }

variable {P : String → Prop} {s t u : ChatStream} {a : Action} {e : StreamEvent}

/-- What a step does to the error type that is noted, and to the exception on its way. -/
inductive ErrorEffect (s t : ChatStream) (a : Action) : Prop
  | kept (hnoted : t.request.errorType = s.request.errorType)
      (huncaught : ∀ e, t.uncaught = some e → s.uncaught = some e ∨ a.apiError? = some e)
  | noted (x : String) (hnoted : t.request.errorType = some x) (huncaught : t.uncaught = none)
      (hx : x = "stream_timeout" ∨ x = "server_error" ∨
        ∃ e, a.apiError? = some e ∧ x = e.errorType)

theorem ErrorEffect.quiet (hnoted : t.request.errorType = s.request.errorType)
    (huncaught : t.uncaught = none) : ErrorEffect s t a := by
  refine .kept hnoted ?_
  intro e he
  rw [huncaught] at he
  cases he

theorem handlerStep_errors (h : s.handlerStep e = some t) : ErrorEffect s t (.own e) := by
  unfold handlerStep at h
  split at h
  case h_2 f hp =>
    cases h
    refine .kept rfl ?_
    intro e he
    cases f with
    | api e' => exact .inr he
    | other => cases he
  case h_6 f hp =>
    cases h
    refine .kept rfl ?_
    intro e he
    cases f with
    | api e' => exact .inr he
    | other => cases he
  case h_9 f hp =>
    cases h
    refine .kept rfl ?_
    intro e he
    left
    rw [uncaught, hp]
    cases f with
    | api e' => exact he
    | other => cases he
  case h_11 => cases h
  all_goals
    cases h
    exact .quiet rfl rfl

theorem timeoutOnlyStep_errors (h : s.timeoutOnlyStep e = some t) : ErrorEffect s t (.own e) := by
  unfold timeoutOnlyStep at h
  split at h
  case h_1 =>
    cases h
    exact .noted "stream_timeout" rfl rfl (.inl rfl)
  case h_5 => cases h
  all_goals
    cases h
    exact .quiet rfl rfl

theorem generatorStep_errors (h : s.generatorStep e = some t) : ErrorEffect s t (.own e) := by
  unfold generatorStep at h
  split at h
  case h_9 =>
    cases h
    exact .noted "stream_timeout" rfl rfl (.inl rfl)
  case h_10 err hp =>
    cases h
    exact .noted err.errorType rfl rfl (.inr (.inr ⟨err, rfl, rfl⟩))
  case h_11 =>
    cases h
    exact .noted "server_error" rfl rfl (.inr (.inl rfl))
  case h_15 => cases h
  all_goals
    cases h
    exact .quiet rfl rfl

theorem step_errors (h : s.step a = some t) : ErrorEffect s t a := by
  cases a with
  | other op =>
    rw [step] at h
    split at h
    · cases h
    · cases h
      exact .kept rfl fun e he => .inl he
  | own e =>
    have hstep : s.exchangeStep e = some t := h
    unfold exchangeStep at hstep
    split at hstep
    · exact handlerStep_errors hstep
    · exact handlerStep_errors hstep
    · exact handlerStep_errors hstep
    · exact timeoutOnlyStep_errors hstep
    · exact timeoutOnlyStep_errors hstep
    · cases hstep
    · exact generatorStep_errors hstep

/-- The error types that the stream has noted, or is about to, meet `P`. -/
structure ErrorTypes (P : String → Prop) (s : ChatStream) : Prop where
  noted : ∀ x, s.request.errorType = some x → P x
  uncaught : ∀ e, s.uncaught = some e → P e.errorType

theorem ErrorTypes.step (htimeout : P "stream_timeout") (hserver : P "server_error")
    (hprovider : ∀ e, a.apiError? = some e → P e.errorType) (h : s.ErrorTypes P)
    (hstep : s.step a = some t) : t.ErrorTypes P := by
  cases step_errors hstep with
  | kept hnoted huncaught =>
    constructor
    · rw [hnoted]
      exact h.noted
    · intro e he
      rcases huncaught e he with he | he
      · exact h.uncaught e he
      · exact hprovider e he
  | noted x hnoted huncaught hx =>
    constructor
    · intro y hy
      rw [hnoted] at hy
      obtain rfl := Option.some.inj hy
      rcases hx with rfl | rfl | ⟨e, he, rfl⟩
      · exact htimeout
      · exact hserver
      · exact hprovider e he
    · intro e he
      rw [huncaught] at he
      cases he

theorem ErrorTypes.run (htimeout : P "stream_timeout") (hserver : P "server_error")
    {actions : List Action}
    (hprovider : ∀ a ∈ actions, ∀ e, Action.apiError? a = some e → P e.errorType)
    (h : s.ErrorTypes P) (hrun : Transitions.run ChatStream.step s actions = some t) :
    t.ErrorTypes P :=
  run_invariant_of (fun _ _ _ ha hs hstep => hs.step htimeout hserver ha hstep) hprovider h hrun

theorem ErrorTypes.final (h : s.ErrorTypes P) : ∀ x, s.finalRequest.errorType = some x → P x := by
  intro x hx
  rw [finalRequest] at hx
  cases hp : s.uncaught with
  | none =>
    rw [hp] at hx
    exact h.noted x hx
  | some e =>
    rw [hp] at hx
    obtain rfl := Option.some.inj hx
    exact h.uncaught e hp

end ChatStream

end AiServing
