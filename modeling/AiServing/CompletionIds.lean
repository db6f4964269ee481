import AiServing.ProviderAnswers

namespace AiServing
open Transitions
set_option autoImplicit true

def forwarded (frames : List Frame) : List NormalizedStreamChunk := frames.filterMap Frame.chunk?

theorem ids_sentChunks (names : StreamNames) (frames : List Frame) :
    (sentChunks names frames).map (·.id) =
      (forwarded frames).map fun c => orFallback c.id names.fallbackId :=
  map_sentChunks names frames fun _ _ => rfl

/-- All frames of a response carry one completion id. -/
def OneId (names : StreamNames) (frames : List Frame) : Prop :=
  ∃ x, ∀ f ∈ sentChunks names frames, f.id = x

/-- The chunks name one completion, or none but the one that the stream falls back on. -/
def SharesId (fallbackId : String) (cs : List NormalizedStreamChunk) : Prop :=
  (∀ c ∈ cs, c.id = none ∨ c.id = some "" ∨ c.id = some fallbackId) ∨
    ∃ x, ∀ c ∈ cs, c.id = some x ∧ x ≠ ""

theorem orFallback_eq_fallback {fallback : String} {t : Option String} :
    orFallback t fallback = fallback ↔ t = none ∨ t = some "" ∨ t = some fallback := by
  cases t with
  | none => exact iff_of_true rfl (.inl rfl)
  | some t =>
    rw [orFallback]
    by_cases h : t = ""
    · rw [if_pos h, h]
      exact iff_of_true rfl (.inr (.inl rfl))
    · rw [if_neg h]
      simp [h]

theorem orFallback_eq_other {fallback x : String} {t : Option String} (hx : x ≠ fallback) :
    orFallback t fallback = x ↔ t = some x ∧ x ≠ "" := by
  cases t with
  | none => exact iff_of_false (fun h => hx h.symm) nofun
  | some t =>
    rw [orFallback]
    by_cases h : t = ""
    · rw [if_pos h, h]
      refine iff_of_false (fun h => hx h.symm) ?_
      intro ⟨ht, hne⟩
      exact hne (Option.some.inj ht).symm
    · rw [if_neg h, Option.some.injEq, iff_self_and]
      rintro rfl
      exact h

theorem oneId_iff (names : StreamNames) (frames : List Frame) :
    OneId names frames ↔ SharesId names.fallbackId (forwarded frames) := by
  have hids (x : String) : (∀ f ∈ sentChunks names frames, f.id = x) ↔
      ∀ c ∈ forwarded frames, orFallback c.id names.fallbackId = x := by
    have hmap := congrArg (fun ids => ∀ y ∈ ids, y = x) (ids_sentChunks names frames)
    simpa only [List.forall_mem_map, eq_iff_iff] using hmap
  rw [OneId, SharesId]
  simp only [hids]
  constructor
  · intro ⟨x, h⟩
    by_cases hx : x = names.fallbackId
    · left
      intro c hc
      exact orFallback_eq_fallback.1 ((h c hc).trans hx)
    · right
      exact ⟨x, fun c hc => (orFallback_eq_other hx).1 (h c hc)⟩
  · intro h
    rcases h with h | ⟨x, h⟩
    · exact ⟨names.fallbackId, fun c hc => orFallback_eq_fallback.2 (h c hc)⟩
    · by_cases hx : x = names.fallbackId
      · refine ⟨names.fallbackId, fun c hc => orFallback_eq_fallback.2 (.inr (.inr ?_))⟩
        rw [(h c hc).1, hx]
      · exact ⟨x, fun c hc => (orFallback_eq_other hx).2 (h c hc)⟩

namespace ChatStream

variable {s t u : ChatStream} {a : Action} {e : StreamEvent}

/-- The chunk that the handler has and the generator has not yet sent. -/
def held (s : ChatStream) : List NormalizedStreamChunk :=
  match s.point with
  | .responded (some c) => [c]
  | _ => []

/-- The chunks that have gone out and the one that is held are what the upstream has delivered, up to
the discard of a generator that has not started. -/
inductive ChunkEffect (s t : ChatStream) (a : Action) : Prop
  | kept (h : forwarded t.frames ++ t.held = forwarded s.frames ++ s.held ++ delivered [a])
  | dropped (hover : t.point = .over .discarded) (h : forwarded t.frames = forwarded s.frames)

theorem handlerStep_chunks (h : s.handlerStep e = some t) : ChunkEffect s t (.own e) := by
  unfold handlerStep at h
  split at h
  case h_11 => cases h
  all_goals
    next hp =>
      cases h
      refine .kept ?_
      simp [held, hp, delivered, upstreams, Upstream.chunk?, moveTo, releaseLease]

theorem timeoutOnlyStep_chunks (h : s.timeoutOnlyStep e = some t) : ChunkEffect s t (.own e) := by
  unfold timeoutOnlyStep at h
  split at h
  case h_5 => cases h
  all_goals
    next hp =>
      cases h
      refine .kept ?_
      simp [held, hp, delivered, upstreams, moveTo, forwarded, Frame.chunk?]

theorem generatorStep_chunks (h : s.generatorStep e = some t) : ChunkEffect s t (.own e) := by
  unfold generatorStep at h
  split at h
  case h_3 hp =>
    cases h
    exact .dropped rfl rfl
  case h_15 => cases h
  all_goals
    next hp =>
      cases h
      refine .kept ?_
      simp [held, hp, delivered, upstreams, Upstream.chunk?, moveTo, releaseLease, yieldChunk,
        yieldLast, forwarded, Frame.chunk?, List.filterMap_cons]

theorem step_chunks (h : s.step a = some t) : ChunkEffect s t a := by
  cases a with
  | other op =>
    rw [step] at h
    split at h
    · cases h
    · cases h
      refine .kept ?_
      simp [held, delivered, upstreams]
  | own e =>
    have hstep : s.exchangeStep e = some t := h
    unfold exchangeStep at hstep
    split at hstep
    · exact handlerStep_chunks hstep
    · exact handlerStep_chunks hstep
    · exact handlerStep_chunks hstep
    · exact timeoutOnlyStep_chunks hstep
    · exact timeoutOnlyStep_chunks hstep
    · cases hstep
    · exact generatorStep_chunks hstep

theorem run_over {x : StreamEnd} (hs : s.point = .over x) (h : run step s trace = some u) :
    u.frames = s.frames := by
  have hend := run_invariant (I := fun t => t.point = .over x ∧ t.frames = s.frames) ?_ ⟨hs, rfl⟩ h
  · exact hend.2
  · intro t a v ⟨ht, hframes⟩ hstep
    cases a with
    | own e =>
      have hnone : t.exchangeStep e = some v := hstep
      rw [exchangeStep, ht] at hnone
      cases hnone
    | other op =>
      rw [step] at hstep
      split at hstep
      · cases hstep
      · cases hstep
        exact ⟨ht, hframes⟩

/-- The chunks go out in the order in which the upstream delivered them, and none is left out. -/
theorem run_chunks (h : run step s trace = some u) :
    forwarded u.frames <+: forwarded s.frames ++ s.held ++ delivered trace := by
  induction trace generalizing s with
  | nil =>
    obtain rfl := Option.some.inj h
    rw [List.append_assoc]
    exact List.prefix_append _ _
  | cons a as ih =>
    obtain ⟨t, ht, hrest⟩ := run_cons.1 h
    cases step_chunks ht with
    | kept hkept =>
      rw [delivered_cons, ← List.append_assoc, ← hkept]
      exact ih hrest
    | dropped hover hdropped =>
      rw [run_over hover hrest, hdropped, List.append_assoc]
      exact List.prefix_append _ _

variable {limiter : StreamLimiter} {n : Nat} {trace : List Action}

theorem forwarded_prefix (h : run step (start limiter n) trace = some u) :
    forwarded u.frames <+: delivered trace := run_chunks h

end ChatStream

namespace AnthropicProvider

theorem id_of_mem_textChunks {request : NormalizedChatRequest} {pieces : List String}
    (hc : c ∈ pieces.map (textChunk request)) : c.id = none := by
  obtain ⟨text, _, rfl⟩ := List.mem_map.1 hc
  rfl

theorem sharesId_text {request : NormalizedChatRequest} {pieces : List String}
    (h : cs <+: pieces.map (textChunk request)) : SharesId fallbackId cs := by
  left
  intro c hc
  exact .inl (id_of_mem_textChunks (h.subset hc))

theorem sharesId_whole {request : NormalizedChatRequest} {pieces : List String}
    {finalMessage : AnthropicMessage} :
    SharesId fallbackId (pieces.map (textChunk request) ++ [finalChunk finalMessage]) ↔
      pieces = [] ∨ finalMessage.id = "" ∨ finalMessage.id = fallbackId := by
  constructor
  · intro hshares
    rcases hshares with hnone | ⟨x, hx⟩
    · right
      rcases hnone _ (List.mem_append_right _ List.mem_cons_self) with hid | hid | hid
      · cases hid
      · exact .inl (Option.some.inj hid)
      · exact .inr (Option.some.inj hid)
    · left
      cases pieces with
      | nil => rfl
      | cons t pieces => cases (hx _ List.mem_cons_self).1
  · have hfallback (hid : finalMessage.id = "" ∨ finalMessage.id = fallbackId) :
        SharesId fallbackId (pieces.map (textChunk request) ++ [finalChunk finalMessage]) := by
      left
      intro c hc
      rcases List.mem_append.1 hc with hc | hc
      · exact .inl (id_of_mem_textChunks hc)
      · rw [List.mem_singleton.1 hc]
        exact .inr (hid.imp (congrArg some) (congrArg some))
    intro hcond
    rcases hcond with rfl | hid
    · by_cases hid : finalMessage.id = ""
      · exact hfallback (.inl hid)
      · right
        refine ⟨finalMessage.id, fun c hc => ?_⟩
        rw [List.mem_singleton.1 hc]
        exact ⟨rfl, hid⟩
    · exact hfallback hid

theorem sharesId_iff {request : NormalizedChatRequest} {pieces : List String}
    {finalMessage : AnthropicMessage}
    (h : cs <+: pieces.map (textChunk request) ++ [finalChunk finalMessage]) :
    SharesId fallbackId cs ↔
      cs.length ≤ pieces.length ∨ pieces = [] ∨ finalMessage.id = "" ∨
        finalMessage.id = fallbackId := by
  rcases List.prefix_concat_iff.1 h with rfl | htext
  · have hlength : ¬ (pieces.map (textChunk request) ++ [finalChunk finalMessage]).length ≤
        pieces.length := by
      rw [List.length_append, List.length_map]
      exact Nat.not_succ_le_self _
    rw [or_iff_right hlength]
    exact sharesId_whole
  · have hlength := htext.length_le
    rw [List.length_map] at hlength
    exact iff_of_true (sharesId_text htext) (.inl hlength)

end AnthropicProvider

namespace ChatStream

variable {u : ChatStream} {limiter : StreamLimiter} {n : Nat} {trace : List Action}

/-- Two pieces of text go out under the id of the stream, and the final chunk under its own. -/
theorem final_chunk_changes_id :
    let names : StreamNames := ⟨"chatcmpl-0", "claude-sonnet-4-6", fun _ => 0⟩
    ∃ trace u, run step (start (.new 1 Nat.one_pos) 0) trace = some u ∧
      delivered trace = AnthropicProvider.chatStream 1024 sampleAnthropic sampleRequest ∧
      (sentChunks names u.frames).map (·.id) = ["chatcmpl-0", "chatcmpl-0", "msg_1"] ∧
      ¬ OneId names u.frames := by
  intro names
  obtain ⟨trace, u, hrun, hover, hread, hdelivered, hend⟩ := exists_reading (.new 1 Nat.one_pos) 0
    (AnthropicProvider.chatStream 1024 sampleAnthropic sampleRequest) .stop nofun
  obtain ⟨hframes, _, _⟩ := normal_end hrun hover hread hend
  have hforwarded := (chunks_of_normal_end hframes).trans hdelivered
  refine ⟨trace, u, hrun, hdelivered, ?_, ?_⟩
  · rw [ids_sentChunks, forwarded, hforwarded]
    rfl
  · rw [oneId_iff, forwarded, hforwarded]
    intro hshares
    have hsome := (AnthropicProvider.sharesId_iff (List.prefix_refl _)).1 hshares
    revert hsome
    decide

theorem forwarded_of_read (h : run step (start limiter n) trace = some u)
    (hover : u.point = .over .finished) (hread : trace.all readsOn) :
    forwarded u.frames = delivered trace := by
  obtain ⟨x, _, hends, _⟩ := remaining_of_run h hover hread
  have hframes : u.frames = (delivered trace).map .chunk ++ [x.frame] := hends.frames
  have hlast : [x.frame].filterMap Frame.chunk? = [] := by
    cases x with
    | failed e => cases e <;> rfl
    | _ => rfl
  rw [forwarded, hframes, List.filterMap_append, hlast, List.append_nil, List.filterMap_map]
  exact List.filterMap_some

/-- The frames of a response carry one id exactly if the chunks behind them do, or name none; a
message in pieces of text does not, once its final chunk is out. -/
theorem one_completion_id_iff (names : StreamNames)
    (h : run step (start limiter n) trace = some u) :
    ∃ cs, cs <+: delivered trace ∧ forwarded u.frames = cs ∧
      (u.point = .over .finished → trace.all readsOn → cs = delivered trace) ∧
      (OneId names u.frames ↔ SharesId names.fallbackId cs) ∧
      ∀ defaultMaxTokens upstream request,
        delivered trace <+: AnthropicProvider.chatStream defaultMaxTokens upstream request →
        (OneId names u.frames ↔
          let (pieces, finalMessage) :=
            upstream.stream (AnthropicProvider.toAnthropicParams defaultMaxTokens request)
          cs.length ≤ pieces.length ∨ pieces = [] ∨ finalMessage.id = "" ∨
            finalMessage.id = names.fallbackId) := by
  have hstart := forwarded_prefix h
  refine ⟨_, hstart, rfl, forwarded_of_read h, oneId_iff names u.frames, ?_⟩
  intro defaultMaxTokens upstream request hstream
  rw [oneId_iff]
  exact AnthropicProvider.sharesId_iff (hstart.trans hstream)

theorem one_completion_id_upstream :
    let names : StreamNames := ⟨"chatcmpl-0", "gpt-4o", fun _ => 0⟩
    ∃ u : ChatStream, (forwarded u.frames).length = 4 ∧ OneId names u.frames := by
  intro names
  obtain ⟨trace, u, hrun, hover, hread, hdelivered, _⟩ := exists_reading (.new 1 Nat.one_pos) 0
    (OpenAIProvider.chatStream sampleUpstream sampleRequest) .stop nofun
  obtain ⟨cs, _, hcs, hall, hone, _⟩ := one_completion_id_iff names hrun
  have hchunks := (hall hover hread).trans hdelivered
  refine ⟨u, by rw [hcs, hchunks]; rfl, hone.2 ?_⟩
  rw [hchunks]
  exact .inr ⟨"chatcmpl-1", by decide⟩

end ChatStream

end AiServing
