import AiServing.ChatFrames
import AiServing.RequestAudit
import AiServing.StreamLeases

namespace AiServing
open Transitions
set_option autoImplicit true

/-- How the upstream of a stream ends. -/
inductive StreamEnding where
  | stop
  | timeout
  | failed (e : StreamFailure)
  deriving DecidableEq, Repr

def Upstream.chunk? : Upstream → Option NormalizedStreamChunk
  | .chunk c => some c
  | _ => none

def Upstream.ending? : Upstream → Option StreamEnding
  | .chunk _ => none
  | .stop => some .stop
  | .timeout => some .timeout
  | .failed e => some (.failed e)

def StreamEnding.upstream : StreamEnding → Upstream
  | .stop => .stop
  | .timeout => .timeout
  | .failed e => .failed e

namespace StreamEnding

def frame : StreamEnding → Frame
  | .stop => .done
  | .timeout => .timeout
  | .failed (.api e) => .error e.message e.errorType e.code
  | .failed .other => .error "Internal server error" "server_error" (some "internal_error")

/-- The status of the error that the frame reports; the response has status 200. -/
def statusCode : StreamEnding → Nat
  | .stop => 200
  | .timeout => 504
  | .failed (.api e) => e.statusCode
  | .failed .other => 500

def errorType : StreamEnding → Option String
  | .stop => none
  | .timeout => some "stream_timeout"
  | .failed (.api e) => some e.errorType
  | .failed .other => some "server_error"

/-- What the handler notes for the audit; the usage is noted apart. -/
def note (e : StreamEnding) (r : RequestState) : RequestState :=
  match e with
  | .stop => r
  | .timeout => { r with errorType := some "stream_timeout", auditStatusCode := some 504 }
  | .failed (.api e) => { r with errorType := some e.errorType, auditStatusCode := some e.statusCode }
  | .failed .other => { r with errorType := some "server_error", auditStatusCode := some 500 }

end StreamEnding

namespace ChatStream

/-- What the waits for the upstream brought, in order. -/
def upstreams (trace : List Action) : List Upstream :=
  trace.filterMap fun a =>
    match a with
    | .own (.upstream u) => some u
    | _ => none

/-- The chunks that the upstream delivered. -/
def delivered (trace : List Action) : List NormalizedStreamChunk :=
  (upstreams trace).filterMap Upstream.chunk?

/-- How the last wait for the upstream ended. -/
def ending (trace : List Action) : Option StreamEnding :=
  (upstreams trace).getLast?.bind Upstream.ending?

/-- The status of the `StreamingResponse`, once the handler has answered. -/
def answered (s : ChatStream) : Option Nat :=
  match s.point with
  | .timedOut => some 504
  | .responded _ => some 200
  | _ => none

def responseStatus (s : ChatStream) : List Action → Option Nat
  | [] => s.answered
  | a :: as => s.answered <|> (s.step a).bind fun t => t.responseStatus as

/-- The consumer takes every frame, and nobody cancels the task. -/
def readsOn : Action → Bool
  | .own .close | .own .cancel | .own .discard => false
  | _ => true

variable {s t u : ChatStream} {a : Action} {as : List Action} {e : StreamEvent}

/-- Reading on from `s` ends in `u`: `pending`, the chunks of the trace and one terminal frame. -/
structure Ends (s u : ChatStream) (pending : List Frame) (trace : List Action) (e : StreamEnding) :
    Prop where
  last : ending trace = some e
  frames : u.frames = s.frames ++ pending ++ (delivered trace).map .chunk ++ [e.frame]
  request : u.request = { e.note s.request with tokenUsage := u.request.tokenUsage }

/-- Reading on from `s` brings no more frames. -/
structure Ended (s u : ChatStream) (trace : List Action) : Prop where
  silent : upstreams trace = []
  frames : u.frames = s.frames
  request : u.request = s.request

/-- What a reader that goes on to the end still gets, at each point. -/
def Remaining (s u : ChatStream) (trace : List Action) : Prop :=
  match s.point with
  | .opening | .awaitingFirst => ∃ e status, Ends s u [] trace e ∧
      responseStatus s trace = some status ∧ (e = .stop → status = 200)
  | .responded first => ∃ e, Ends s u (first.toList.map .chunk) trace e
  | .yielded true | .awaitingNext => ∃ e, Ends s u [] trace e
  | .closingEarly .timeout => upstreams trace = [] ∧ responseStatus s trace = some 504 ∧
      u.frames = s.frames ++ [.timeout] ∧ u.request = StreamEnding.timeout.note s.request
  | .timedOut => upstreams trace = [] ∧ u.frames = s.frames ++ [.timeout] ∧
      u.request = StreamEnding.timeout.note s.request
  | .timeoutSent | .yielded false | .closing | .over .finished => Ended s u trace
  | .closingEarly (.reraise _) | .over _ => False

theorem upstreams_cons (a : Action) (as : List Action) :
    upstreams (a :: as) = upstreams [a] ++ upstreams as := by
  rw [upstreams, upstreams, upstreams, ← List.filterMap_append, List.singleton_append]

theorem delivered_cons (a : Action) (as : List Action) :
    delivered (a :: as) = delivered [a] ++ delivered as := by
  rw [delivered, delivered, delivered, ← List.filterMap_append, ← upstreams_cons]

theorem ending_cons (a : Action) (h : ending as = some x) : ending (a :: as) = some x := by
  obtain ⟨v, hv, hx⟩ := Option.bind_eq_some_iff.1 h
  rw [ending, upstreams_cons a as, List.getLast?_append, hv]
  exact hx

theorem Ends.cons (h : Ends t u pending as x) (hframes : t.frames = s.frames)
    (hpending : pending' ++ (delivered [a]).map .chunk = pending)
    (hrequest : t.request = s.request) : Ends s u pending' (a :: as) x := by
  refine ⟨ending_cons a h.last, ?_, ?_⟩
  · rw [h.frames, hframes, ← hpending, delivered_cons a as, List.map_append]
    simp only [List.append_assoc]
  · rw [← hrequest]
    exact h.request

theorem Ends.yieldChunk (h : Ends (s.yieldChunk c) u [] as x)
    (hpending : pending ++ (delivered [a]).map .chunk = [.chunk c]) :
    Ends s u pending (a :: as) x := by
  refine ⟨ending_cons a h.last, ?_, h.request⟩
  have hsent : (s.yieldChunk c).frames = s.frames ++ [.chunk c] := rfl
  rw [h.frames, hsent, ← hpending, delivered_cons a as, List.map_append]
  simp only [List.append_assoc, List.nil_append]

theorem Ended.cons (h : Ended t u as) (hupstream : upstreams [a] = []) (hframes : t.frames = s.frames)
    (hrequest : t.request = s.request) : Ended s u (a :: as) := by
  refine ⟨?_, h.frames.trans hframes, h.request.trans hrequest⟩
  rw [upstreams_cons a as, hupstream, h.silent]
  rfl

theorem Ends.of_last (hsilent : upstreams as = []) (hframes : u.frames = s.frames ++ [x.frame])
    (hrequest : u.request = { x.note s.request with tokenUsage := u.request.tokenUsage })
    (hending : v.ending? = some x) (hchunk : v.chunk? = none) :
    Ends s u [] (.own (.upstream v) :: as) x := by
  have hups : upstreams (.own (.upstream v) :: as) = [v] := congrArg (v :: ·) hsilent
  refine ⟨?_, ?_, hrequest⟩
  · rw [ending, hups]
    exact hending
  · rw [hframes, delivered, hups, List.filterMap_cons, hchunk]
    simp only [List.filterMap_nil, List.map_nil, List.append_nil]

theorem Ended.yieldLast (h : Ended (s.yieldLast r x.frame) u as)
    (hr : r = { x.note s.request with tokenUsage := r.tokenUsage })
    (hending : v.ending? = some x) (hchunk : v.chunk? = none) :
    Ends s u [] (.own (.upstream v) :: as) x := by
  have hnoted : u.request = r := h.request
  exact .of_last h.silent h.frames (hnoted ▸ hr) hending hchunk

theorem responseStatus_cons (h : s.step a = some t) (hs : s.answered = none) :
    responseStatus s (a :: as) = responseStatus t as := by
  rw [responseStatus, h, hs]
  rfl

theorem Remaining.handler (h : s.handlerStep e = some t) (hread : readsOn (.own e))
    (hs : s.step (.own e) = some t) (hrest : Remaining t u as) : Remaining s u (.own e :: as) := by
  unfold handlerStep at h
  split at h
  case h_1 hp =>
    cases h
    have hanswered : s.answered = none := by rw [answered, hp]
    rw [Remaining, hp, responseStatus_cons hs hanswered]
    obtain ⟨x, status, hends, hstatus⟩ := hrest
    exact ⟨x, status, hends.cons rfl rfl rfl, hstatus⟩
  case h_2 =>
    cases h
    exact hrest.elim
  case h_3 hp =>
    cases h
    have hanswered : s.answered = none := by rw [answered, hp]
    rw [Remaining, hp, responseStatus_cons hs hanswered]
    obtain ⟨x, hends⟩ := hrest
    exact ⟨x, 200, hends.cons rfl rfl rfl, by cases as <;> rfl, fun _ => rfl⟩
  case h_4 hp =>
    cases h
    have hanswered : s.answered = none := by rw [answered, hp]
    rw [Remaining, hp, responseStatus_cons hs hanswered]
    obtain ⟨x, hends⟩ := hrest
    exact ⟨x, 200, hends.cons rfl rfl rfl, by cases as <;> rfl, fun _ => rfl⟩
  case h_5 hp =>
    cases h
    have hanswered : s.answered = none := by rw [answered, hp]
    rw [Remaining, hp, responseStatus_cons hs hanswered]
    obtain ⟨hsilent, hstatus, hframes, hrequest⟩ := hrest
    have hlast : u.request =
        { StreamEnding.timeout.note s.request with tokenUsage := u.request.tokenUsage } := by
      rw [hrequest]
      rfl
    exact ⟨.timeout, 504, .of_last hsilent hframes hlast rfl rfl, hstatus, nofun⟩
  case h_6 =>
    cases h
    exact hrest.elim
  case h_7 => cases hread
  case h_8 hp =>
    cases h
    have hanswered : s.answered = none := by rw [answered, hp]
    rw [Remaining, hp, responseStatus_cons hs hanswered]
    obtain ⟨hsilent, hframes, hrequest⟩ := hrest
    exact ⟨hsilent, by cases as <;> rfl, hframes, hrequest⟩
  case h_9 =>
    cases h
    exact hrest.elim
  case h_10 => cases hread
  case h_11 => cases h

theorem Remaining.timeoutOnly (h : s.timeoutOnlyStep e = some t) (hread : readsOn (.own e))
    (hrest : Remaining t u as) : Remaining s u (.own e :: as) := by
  unfold timeoutOnlyStep at h
  split at h
  case h_1 hp =>
    cases h
    rw [Remaining, hp]
    have hended : Ended _ u as := hrest
    exact ⟨hended.silent, hended.frames, hended.request⟩
  case h_2 => cases hread
  case h_3 hp =>
    cases h
    rw [Remaining, hp]
    exact Ended.cons hrest rfl rfl rfl
  case h_4 => cases hread
  case h_5 => cases h

theorem Remaining.generator (h : s.generatorStep e = some t) (hread : readsOn (.own e))
    (hrest : Remaining t u as) : Remaining s u (.own e :: as) := by
  unfold generatorStep at h
  split at h
  case h_1 hp =>
    cases h
    rw [Remaining, hp]
    obtain ⟨x, hends⟩ := hrest
    exact ⟨x, Ends.yieldChunk hends rfl⟩
  case h_2 hp =>
    cases h
    rw [Remaining, hp]
    obtain ⟨x, hends⟩ := hrest
    exact ⟨x, hends.cons rfl rfl rfl⟩
  case h_3 => cases hread
  case h_4 hp =>
    cases h
    rw [Remaining, hp]
    obtain ⟨x, hends⟩ := hrest
    exact ⟨x, hends.cons rfl rfl rfl⟩
  case h_5 hp =>
    cases h
    rw [Remaining, hp]
    exact Ended.cons hrest rfl rfl rfl
  case h_6 => cases hread
  case h_7 hp =>
    cases h
    rw [Remaining, hp]
    obtain ⟨x, hends⟩ := hrest
    exact ⟨x, Ends.yieldChunk hends rfl⟩
  case h_8 hp =>
    cases h
    rw [Remaining, hp]
    exact ⟨.stop, Ended.yieldLast hrest rfl rfl rfl⟩
  case h_9 hp =>
    cases h
    rw [Remaining, hp]
    exact ⟨.timeout, Ended.yieldLast hrest rfl rfl rfl⟩
  case h_10 err hp =>
    cases h
    rw [Remaining, hp]
    exact ⟨.failed (.api err), Ended.yieldLast hrest rfl rfl rfl⟩
  case h_11 hp =>
    cases h
    rw [Remaining, hp]
    exact ⟨.failed .other, Ended.yieldLast hrest rfl rfl rfl⟩
  case h_12 => cases hread
  case h_13 hp =>
    cases h
    rw [Remaining, hp]
    exact Ended.cons hrest rfl rfl rfl
  case h_14 => cases hread
  case h_15 => cases h

theorem answered_or_responseStatus (s : ChatStream) (trace : List Action) :
    (s.answered <|> responseStatus s trace) = responseStatus s trace := by
  cases trace with
  | nil => cases h : s.answered <;> simp only [responseStatus, h] <;> rfl
  | cons a as => cases h : s.answered <;> simp only [responseStatus, h] <;> rfl

theorem Remaining.other (hs : s.step (.other op) = some t) (hrest : Remaining t u as) :
    Remaining s u (.other op :: as) := by
  have hsame : t.point = s.point ∧ t.frames = s.frames ∧ t.request = s.request := by
    rw [step] at hs
    split at hs
    · cases hs
    · cases hs
      exact ⟨rfl, rfl, rfl⟩
  obtain ⟨hpoint, hframes, hrequest⟩ := hsame
  have hstatus : responseStatus s (.other op :: as) = responseStatus t as := by
    have hanswered : t.answered = s.answered := by rw [answered, answered, hpoint]
    rw [responseStatus, hs, ← hanswered]
    exact t.answered_or_responseStatus as
  rw [Remaining, hpoint] at hrest
  rw [Remaining, hstatus]
  cases hp : s.point with
  | opening | awaitingFirst =>
    rw [hp] at hrest
    obtain ⟨x, status, hends, hx⟩ := hrest
    exact ⟨x, status, hends.cons hframes rfl hrequest, hx⟩
  | responded first =>
    rw [hp] at hrest
    obtain ⟨x, hends⟩ := hrest
    exact ⟨x, hends.cons hframes (List.append_nil _) hrequest⟩
  | yielded more =>
    rw [hp] at hrest
    cases more with
    | true =>
      obtain ⟨x, hends⟩ := hrest
      exact ⟨x, hends.cons hframes rfl hrequest⟩
    | false => exact Ended.cons hrest rfl hframes hrequest
  | awaitingNext =>
    rw [hp] at hrest
    obtain ⟨x, hends⟩ := hrest
    exact ⟨x, hends.cons hframes rfl hrequest⟩
  | closingEarly reply =>
    rw [hp] at hrest
    cases reply with
    | timeout =>
      rw [hframes, hrequest] at hrest
      exact hrest
    | reraise => exact hrest
  | timedOut =>
    rw [hp, hframes, hrequest] at hrest
    exact hrest
  | timeoutSent | closing =>
    rw [hp] at hrest
    exact Ended.cons hrest rfl hframes hrequest
  | «over» ending =>
    rw [hp] at hrest
    cases ending with
    | finished => exact Ended.cons hrest rfl hframes hrequest
    | raised | cancelled | discarded => exact hrest

theorem Remaining.step (h : s.step a = some t) (hread : readsOn a) (hrest : Remaining t u as) :
    Remaining s u (a :: as) := by
  cases a with
  | other op => exact hrest.other h
  | own e =>
    have hstep : s.exchangeStep e = some t := h
    unfold exchangeStep at hstep
    split at hstep
    · exact hrest.handler hstep hread h
    · exact hrest.handler hstep hread h
    · exact hrest.handler hstep hread h
    · exact hrest.timeoutOnly hstep hread
    · exact hrest.timeoutOnly hstep hread
    · cases hstep
    · exact hrest.generator hstep hread

theorem remaining_of_run {trace : List Action} (h : run step s trace = some u)
    (hover : u.point = .over .finished) (hread : trace.all readsOn) : Remaining s u trace := by
  induction trace generalizing s with
  | nil =>
    obtain rfl := Option.some.inj h
    rw [Remaining, hover]
    exact ⟨rfl, rfl, rfl⟩
  | cons a as ih =>
    obtain ⟨t, ht, hrest⟩ := run_cons.1 h
    rw [List.all_cons, Bool.and_eq_true] at hread
    exact (ih hrest hread.2).step ht hread.1

theorem map_isTerminalText (names : StreamNames) (fs : List Frame) :
    (frameTexts names fs).map isTerminalText = fs.map Frame.isTerminal := by
  calc (frameTexts names fs).map isTerminalText
      = (fs.zipIdx.map Prod.fst).map Frame.isTerminal := by
        rw [frameTexts, List.map_map, List.map_map]
        exact List.map_congr_left fun f _ => f.1.isTerminalText_text names f.2
    _ = fs.map Frame.isTerminal := by rw [List.zipIdx_map_fst]

theorem getLast?_frameTexts (names : StreamNames) (fs : List Frame) (f : Frame) :
    (frameTexts names (fs ++ [f])).getLast? = some (f.text names fs.length) := by
  rw [frameTexts, List.zipIdx_append, List.map_append, List.getLast?_append]
  simp

theorem text_eq_done_iff (names : StreamNames) (n : Nat) (x : StreamEnding) :
    x.frame.text names n = sseData "[DONE]".toList ↔ x = .stop := by
  have hmark {t : Text} (h : "data: [".toList.isPrefixOf t = false) :
      t ≠ sseData "[DONE]".toList := by
    rintro rfl
    cases h
  constructor
  · intro h
    cases x with
    | stop => rfl
    | timeout => exact absurd h (hmark rfl)
    | failed e =>
      cases e with
      | api => exact absurd h (hmark rfl)
      | other => exact absurd h (hmark rfl)
  · rintro rfl
    rfl

theorem errorType_note (x : StreamEnding) : (x.note {}).errorType = x.errorType := by
  cases x with
  | failed e => cases e <;> rfl
  | _ => rfl

theorem auditStatusCode_note (x : StreamEnding) (h : x = .stop → status = 200) :
    (x.note {}).auditStatusCode.getD status = x.statusCode := by
  cases x with
  | stop => exact h rfl
  | timeout => rfl
  | failed e => cases e <;> rfl

/-- One terminal frame, behind the chunks and in front of nothing, and an audit of the same
ending. -/
theorem one_terminal_frame (names : StreamNames) (model : Option String) {n : Nat}
    {limiter : StreamLimiter} {trace : List Action} (h : run step (start limiter n) trace = some u)
    (hover : u.point = .over .finished) (hread : trace.all readsOn) :
    ∃ x status, ending trace = some x ∧ responseStatus (start limiter n) trace = some status ∧
      u.frames = (delivered trace).map .chunk ++ [x.frame] ∧
      EventStream.frames (streamBody names u.frames) = frameTexts names u.frames ∧
      (∀ c ∈ streamBody names u.frames, isControl c → c = '\n') ∧
      (frameTexts names u.frames).map isTerminalText = (delivered trace).map (fun _ => false) ++ [true] ∧
      ((frameTexts names u.frames).getLast? = some (sseData "[DONE]".toList) ↔ x = .stop) ∧
      (x = .stop → status = 200) ∧
      (finalizeRequest model u.request status).statusCode = x.statusCode ∧
      (finalizeRequest model u.request status).errorType = x.errorType := by
  obtain ⟨x, status, hends, hstatus, hstop⟩ := remaining_of_run h hover hread
  have hframes : u.frames = (delivered trace).map .chunk ++ [x.frame] := hends.frames
  refine ⟨x, status, hends.last, hstatus, hframes, frames_streamBody names _, ?_, ?_, ?_, hstop, ?_, ?_⟩
  · exact control_streamBody names _
  · rw [map_isTerminalText, hframes, List.map_append, List.map_map]
    congr 1
    cases x with
    | failed e => cases e <;> rfl
    | _ => rfl
  · rw [hframes, getLast?_frameTexts, Option.some.injEq]
    exact text_eq_done_iff names _ x
  · rw [finalizeRequest, scheduleAuditLog, hends.request]
    exact auditStatusCode_note x hstop
  · rw [finalizeRequest, scheduleAuditLog, hends.request]
    exact errorType_note x

theorem one_terminal_frame_forged :
    let names : StreamNames := ⟨"chatcmpl-0", "gpt-4o", fun _ => 0⟩
    let trace : List Action := [.own (.opened none), .own (.upstream (.chunk { delta := "a" })),
      .own .start, .other (.acquire "k"), .own .resume,
      .own (.upstream (.chunk { delta := "\n\ndata: [DONE]\n\n" })), .own .resume,
      .own (.upstream (.failed .other)), .own .resume, .own .closed]
    ∃ u x, run step (start (.new 1 Nat.one_pos) 0) trace = some u ∧ ending trace = some x ∧
      EventStream.frames (streamBody names u.frames) = frameTexts names u.frames := by
  intro names trace
  obtain ⟨u, hrun, hover⟩ : ∃ u, run step (start (.new 1 Nat.one_pos) 0) trace = some u ∧
      u.point = .over .finished := ⟨_, rfl, rfl⟩
  obtain ⟨x, _, hlast, _, _, hcut, _⟩ := one_terminal_frame names none hrun hover rfl
  exact ⟨u, x, hrun, hlast, hcut⟩

/-- How a reader goes on behind a frame that is not the last. -/
def restOf (x : StreamEnding) : List NormalizedStreamChunk → List Action
  | [] => [.own .resume, .own (.upstream x.upstream), .own .resume, .own .closed]
  | c :: cs => .own .resume :: .own (.upstream (.chunk c)) :: restOf x cs

theorem run_restOf (hs : s.point = .yielded true) (x : StreamEnding)
    (cs : List NormalizedStreamChunk) :
    ∃ u, run step s (restOf x cs) = some u ∧ u.point = .over .finished := by
  have hresume : s.step (.own .resume) = some (s.moveTo .awaitingNext) := by
    simp [step, exchangeStep, generatorStep, hs]
  induction cs generalizing s with
  | nil =>
    cases x with
    | failed e => cases e <;> exact ⟨_, by rw [restOf, run, hresume]; rfl, rfl⟩
    | _ => exact ⟨_, by rw [restOf, run, hresume]; rfl, rfl⟩
  | cons c cs ih =>
    obtain ⟨u, hu, hover⟩ := ih (s := (s.moveTo .awaitingNext).yieldChunk c) rfl rfl
    exact ⟨u, by rw [restOf, run, hresume]; exact hu, hover⟩

theorem upstreams_restOf (x : StreamEnding) (cs : List NormalizedStreamChunk) :
    upstreams (restOf x cs) = cs.map .chunk ++ [x.upstream] := by
  induction cs with
  | nil => rfl
  | cons c cs ih => exact congrArg (.chunk c :: ·) ih

theorem readsOn_restOf (x : StreamEnding) (cs : List NormalizedStreamChunk) :
    (restOf x cs).all readsOn := by
  induction cs with
  | nil => rfl
  | cons c cs ih => exact ih

/-- Every sequence of chunks and every ending is read to the end by some run; a failure in front
of the first chunk is no stream. -/
theorem exists_reading (limiter : StreamLimiter) (n : Nat) (cs : List NormalizedStreamChunk)
    (x : StreamEnding) (h : cs = [] → ∀ e, x ≠ .failed e) :
    ∃ trace u, run step (start limiter n) trace = some u ∧ u.point = .over .finished ∧
      trace.all readsOn ∧ delivered trace = cs ∧ ending trace = some x := by
  cases cs with
  | nil =>
    cases x with
    | stop =>
      exact ⟨[.own (.opened none), .own (.upstream .stop), .own .start, .own (.upstream .stop),
        .own .resume, .own .closed], _, rfl, rfl, rfl, rfl, rfl⟩
    | timeout =>
      exact ⟨[.own (.opened none), .own (.upstream .timeout), .own .closed, .own .start,
        .own .resume], _, rfl, rfl, rfl, rfl, rfl⟩
    | failed e => exact absurd rfl (h rfl e)
  | cons c cs =>
    obtain ⟨u, hu, hover⟩ := run_restOf (s := ((start limiter n).moveTo (.responded (some c))).yieldChunk c)
      rfl x cs
    refine ⟨.own (.opened none) :: .own (.upstream (.chunk c)) :: .own .start :: restOf x cs, u, hu,
      hover, readsOn_restOf x cs, ?_, ?_⟩
    · have hups : upstreams (.own (.opened none) :: .own (.upstream (.chunk c)) :: .own .start ::
          restOf x cs) = .chunk c :: (cs.map .chunk ++ [x.upstream]) :=
        congrArg (Upstream.chunk c :: ·) (upstreams_restOf x cs)
      have hchunks : (cs.map Upstream.chunk).filterMap Upstream.chunk? = cs := by
        rw [List.filterMap_map]
        exact List.filterMap_some
      rw [delivered, hups, List.filterMap_cons, List.filterMap_append, hchunks]
      cases x <;> simp [StreamEnding.upstream, Upstream.chunk?]
    · have hrest : ending (restOf x cs) = some x := by
        rw [ending, upstreams_restOf, List.getLast?_concat]
        cases x <;> rfl
      exact ending_cons _ (ending_cons _ (ending_cons _ hrest))

end ChatStream

end AiServing
