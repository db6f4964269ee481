import AiServing.RequestAudit
import AiServing.StreamLeases

namespace AiServing
open Transitions
set_option autoImplicit true

def Frame.usage : Frame → Option NormalizedUsage
  | .chunk c => c.usage
  | _ => none

/-- The usage of the last usage-bearing chunk that went out. -/
def forwardedUsage (frames : List Frame) : Option NormalizedUsage :=
  (frames.filterMap Frame.usage).getLast?

theorem forwardedUsage_concat (frames : List Frame) (f : Frame) :
    forwardedUsage (frames ++ [f]) = f.usage.or (forwardedUsage frames) := by
  rw [forwardedUsage, forwardedUsage, List.filterMap_append, List.getLast?_append]
  cases h : f.usage with
  | none => simp [h]
  | some v => simp [h]

/-- The row records what this usage amounts to, and nothing if there is none. -/
def AuditedOutcome.Bills (row : AuditedOutcome) (usage : Option NormalizedUsage) : Prop :=
  row.promptTokens = usageInt usage (·.promptTokens) ∧
    row.completionTokens = usageInt usage (·.completionTokens) ∧
    row.totalTokens = usageInt usage (·.totalTokens) ∧
    row.costUsd = calculateCost row.model (usageInt usage (·.promptTokens))
      (usageInt usage (·.completionTokens))

namespace ChatStream

variable {s t u : ChatStream} {a : Action} {e : StreamEvent}

/-- The generator is told that its upstream has ended. -/
def seesEnd (s : ChatStream) (a : Action) : Prop :=
  s.point = .awaitingNext ∧ a = .own (.upstream .stop)

/-- The points behind the last frame of `_stream_chunks`. -/
def spent (s : ChatStream) : Bool :=
  match s.point with
  | .yielded false | .closing | .over _ => true
  | _ => false

/-- What a step does to the frames and to the usage that is noted. -/
inductive UsageEffect (s t : ChatStream) (a : Action) : Prop
  | kept (hend : ¬ s.seesEnd a) (hspent : s.spent → t.spent) (hframes : t.frames = s.frames)
      (hlocal : t.tokenUsage = s.tokenUsage) (hnoted : t.request.tokenUsage = s.request.tokenUsage)
  | chunk (c : NormalizedStreamChunk) (hend : ¬ s.seesEnd a) (hspent : s.spent = false)
      (ht : t = s.yieldChunk c)
  | failed (f : Frame) (hend : ¬ s.seesEnd a) (hspent : s.spent = false) (hdone : f ≠ .done)
      (husage : f.usage = none) (hframes : t.frames = s.frames ++ [f])
      (hlocal : t.tokenUsage = s.tokenUsage) (hnoted : t.request.tokenUsage = s.request.tokenUsage)
  | done (hend : s.seesEnd a)
      (ht : t = s.yieldLast { s.request with tokenUsage := s.tokenUsage } .done)

theorem handlerStep_usage (h : s.handlerStep e = some t) : UsageEffect s t (.own e) := by
  unfold handlerStep at h
  split at h
  case h_11 => cases h
  all_goals
    next hp =>
      cases h
      refine .kept (by simp [seesEnd, hp]) (by simp [spent, hp]) rfl rfl rfl

theorem timeoutOnlyStep_usage (h : s.timeoutOnlyStep e = some t) : UsageEffect s t (.own e) := by
  unfold timeoutOnlyStep at h
  split at h
  case h_1 hp =>
    cases h
    exact .failed .timeout (by simp [seesEnd, hp]) (by simp [spent, hp]) nofun rfl rfl rfl rfl
  case h_5 => cases h
  all_goals
    next hp =>
      cases h
      exact .kept (by simp [seesEnd, hp]) (by simp [spent, hp]) rfl rfl rfl

theorem generatorStep_usage (h : s.generatorStep e = some t) : UsageEffect s t (.own e) := by
  unfold generatorStep at h
  split at h
  case h_1 c hp =>
    cases h
    exact .chunk c (by simp [seesEnd, hp]) (by simp [spent, hp]) rfl
  case h_7 c hp =>
    cases h
    exact .chunk c (by simp [seesEnd]) (by simp [spent, hp]) rfl
  case h_8 hp =>
    cases h
    exact .done ⟨hp, rfl⟩ rfl
  case h_9 hp =>
    cases h
    exact .failed .timeout (by simp [seesEnd]) (by simp [spent, hp]) nofun rfl rfl rfl rfl
  case h_10 err hp =>
    cases h
    exact .failed (.error ..) (by simp [seesEnd]) (by simp [spent, hp]) nofun rfl rfl rfl rfl
  case h_11 hp =>
    cases h
    exact .failed (.error ..) (by simp [seesEnd]) (by simp [spent, hp]) nofun rfl rfl rfl rfl
  case h_15 => cases h
  all_goals
    next hp =>
      cases h
      exact .kept (by simp [seesEnd, hp]) (by simp [spent, hp, moveTo, releaseLease]) rfl rfl rfl

theorem step_usage (h : s.step a = some t) : UsageEffect s t a := by
  cases a with
  | other op =>
    rw [step] at h
    split at h
    · cases h
    · cases h
      exact .kept (by simp [seesEnd]) id rfl rfl rfl
  | own e =>
    have hstep : s.exchangeStep e = some t := h
    unfold exchangeStep at hstep
    split at hstep
    · exact handlerStep_usage hstep
    · exact handlerStep_usage hstep
    · exact handlerStep_usage hstep
    · exact timeoutOnlyStep_usage hstep
    · exact timeoutOnlyStep_usage hstep
    · cases hstep
    · exact generatorStep_usage hstep

/-- The usage is collected as it goes out, and noted when the upstream has ended. -/
structure UsageNoted (s : ChatStream) : Prop where
  collected : s.tokenUsage = forwardedUsage s.frames
  noted : s.request.tokenUsage = if .done ∈ s.frames then s.tokenUsage else none
  last : .done ∈ s.frames → s.spent

theorem done_ne_chunk (c : NormalizedStreamChunk) : Frame.done ≠ .chunk c := by
  intro h
  cases h

theorem done_mem_iff (h : s.step a = some t) :
    .done ∈ t.frames ↔ .done ∈ s.frames ∨ s.seesEnd a := by
  cases step_usage h with
  | kept hend _ hframes _ _ => rw [hframes, or_iff_left hend]
  | chunk c hend _ ht =>
    subst ht
    rw [or_iff_left hend, yieldChunk, List.mem_append, List.mem_singleton,
      or_iff_left (done_ne_chunk c)]
  | failed f hend _ hdone _ hframes _ _ =>
    rw [or_iff_left hend, hframes, List.mem_append, List.mem_singleton,
      or_iff_left fun hf => hdone hf.symm]
  | done hend ht =>
    subst ht
    exact iff_of_true (List.mem_append_right _ List.mem_cons_self) (.inr hend)

theorem UsageNoted.step (hs : s.UsageNoted) (h : s.step a = some t) : t.UsageNoted := by
  have hnot (hspent : s.spent = false) : .done ∉ s.frames := by
    intro hmem
    rw [hs.last hmem] at hspent
    cases hspent
  cases step_usage h with
  | kept _ hspent hframes hlocal hnoted =>
    refine ⟨?_, ?_, ?_⟩
    · rw [hlocal, hframes, hs.collected]
    · rw [hnoted, hlocal, hframes, hs.noted]
    · rw [hframes]
      exact fun hmem => hspent (hs.last hmem)
  | chunk c _ hspent ht =>
    subst ht
    have hmem : .done ∉ (s.yieldChunk c).frames := by
      rw [yieldChunk, List.mem_append, List.mem_singleton, not_or]
      exact ⟨hnot hspent, done_ne_chunk c⟩
    refine ⟨?_, ?_, fun hc => absurd hc hmem⟩
    · rw [yieldChunk, forwardedUsage_concat, ← hs.collected]
      cases hc : c.usage with
      | none => simp [Frame.usage, hc]
      | some v => simp [Frame.usage, hc]
    · rw [if_neg hmem]
      have hnone := hs.noted
      rwa [if_neg (hnot hspent)] at hnone
  | failed f _ hspent hdone husage hframes hlocal hnoted =>
    have hmem : .done ∉ t.frames := by
      rw [hframes, List.mem_append, List.mem_singleton, not_or]
      exact ⟨hnot hspent, fun hf => hdone hf.symm⟩
    refine ⟨?_, ?_, fun hc => absurd hc hmem⟩
    · rw [hlocal, hframes, forwardedUsage_concat, husage, Option.none_or, hs.collected]
    · rw [if_neg hmem, hnoted, hs.noted, if_neg (hnot hspent)]
  | done hend ht =>
    subst ht
    have hmem : .done ∈ (s.yieldLast { s.request with tokenUsage := s.tokenUsage } .done).frames :=
      List.mem_append_right _ List.mem_cons_self
    refine ⟨?_, ?_, fun _ => rfl⟩
    · rw [yieldLast, forwardedUsage_concat]
      exact hs.collected
    · rw [if_pos hmem]
      rfl

theorem UsageNoted.start (limiter : StreamLimiter) (n : Nat) : (start limiter n).UsageNoted :=
  ⟨rfl, rfl, nofun⟩

theorem bills_of_noted {request : RequestState} (model : Option String) (status : Nat)
    (h : request.tokenUsage = usage) :
    (finalizeRequest model request status).Bills usage ↔
      (usageInt usage (·.totalTokens) = 0 →
        usageInt usage (·.promptTokens) + usageInt usage (·.completionTokens) = 0) := by
  have hrow : (finalizeRequest model request status).Bills usage ↔
      (if usageInt usage (·.totalTokens) = 0 then
        usageInt usage (·.promptTokens) + usageInt usage (·.completionTokens)
      else usageInt usage (·.totalTokens)) = usageInt usage (·.totalTokens) := by
    subst h
    exact ⟨fun hb => hb.2.2.1, fun htotal => ⟨rfl, rfl, htotal, rfl⟩⟩
  rw [hrow]
  split
  · next hzero =>
    rw [hzero]
    exact ⟨fun hsum _ => hsum, fun hsum => hsum rfl⟩
  · next hne => exact iff_of_true rfl fun hzero => absurd hzero hne

theorem bills_of_none {request : RequestState} (model : Option String) (status : Nat)
    (h : request.tokenUsage = none) :
    (finalizeRequest model request status).Bills usage ↔ usage.getD {} = {} := by
  rw [finalizeRequest, scheduleAuditLog, AuditedOutcome.Bills, h]
  cases usage with
  | none => exact iff_of_true ⟨rfl, rfl, rfl, rfl⟩ rfl
  | some v =>
    constructor
    · rintro ⟨hprompt, hcompletion, htotal, -⟩
      have hv : v = ⟨0, 0, 0⟩ := by
        rw [NormalizedUsage.mk.injEq]
        exact ⟨hprompt.symm, hcompletion.symm, htotal.symm⟩
      exact hv
    · intro hv
      obtain rfl : v = {} := hv
      exact ⟨rfl, rfl, rfl, rfl⟩

/-- The client gets the usage, the deadline passes, and the row records none of it. -/
theorem bills_nothing_after_deadline :
    let trace : List Action := [.own (.opened none),
      .own (.upstream (.chunk { usage := some ⟨5, 7, 12⟩ })), .own .start, .own .resume,
      .own (.upstream .timeout), .own .resume, .own .closed]
    ∃ u, run step (start (.new 1 Nat.one_pos) 0) trace = some u ∧ u.point = .over .finished ∧
      forwardedUsage u.frames = some ⟨5, 7, 12⟩ ∧
      ∀ model status, ¬ (finalizeRequest model u.request status).Bills (forwardedUsage u.frames) := by
  refine ⟨_, rfl, rfl, rfl, fun model status h => ?_⟩
  have hprompt : (0 : Int) = 5 := h.1
  cases hprompt

/-- What went out is billed exactly if the upstream was seen to end, or if it amounts to nothing. -/
theorem bills_forwarded_iff (model : Option String) (status : Nat) {limiter : StreamLimiter} {n : Nat}
    {trace : List Action} (h : run step (start limiter n) trace = some u) :
    (finalizeRequest model u.request status).Bills (forwardedUsage u.frames) ↔
      (Sometime step seesEnd (start limiter n) trace ∨ (forwardedUsage u.frames).getD {} = {}) ∧
        (usageInt (forwardedUsage u.frames) (·.totalTokens) = 0 →
          usageInt (forwardedUsage u.frames) (·.promptTokens) +
            usageInt (forwardedUsage u.frames) (·.completionTokens) = 0) := by
  have hstep (s a t) (hs : s.UsageNoted) (ht : ChatStream.step s a = some t) : t.UsageNoted :=
    hs.step ht
  have hu := run_invariant hstep (UsageNoted.start limiter n) h
  have hdone : .done ∈ u.frames ↔ Sometime step seesEnd (start limiter n) trace := by
    rw [run_sometime hstep (fun _ _ _ _ ht => done_mem_iff ht) (UsageNoted.start limiter n) h]
    exact or_iff_right List.not_mem_nil
  rw [← hdone]
  by_cases hmem : .done ∈ u.frames
  · have hnoted : u.request.tokenUsage = forwardedUsage u.frames := by
      rw [hu.noted, if_pos hmem, hu.collected]
    rw [bills_of_noted model status hnoted, and_iff_right (.inl hmem)]
  · have hnoted : u.request.tokenUsage = none := by rw [hu.noted, if_neg hmem]
    rw [bills_of_none model status hnoted, or_iff_right hmem, iff_self_and]
    intro hzero
    cases hv : forwardedUsage u.frames with
    | none => exact fun _ => rfl
    | some v =>
      rw [hv] at hzero
      obtain rfl : v = {} := hzero
      exact fun _ => rfl

theorem bills_forwarded_iff_at_end :
    let trace : List Action := [.own (.opened none),
      .own (.upstream (.chunk { usage := some ⟨5, 7, 12⟩ })), .own .start, .own .resume,
      .own (.upstream .stop), .own .resume, .own .closed]
    ∃ u, run step (start (.new 1 Nat.one_pos) 0) trace = some u ∧
      (finalizeRequest (some "gpt-4o") u.request 200).Bills (forwardedUsage u.frames) := by
  intro trace
  have hrun : ∃ u, run step (start (.new 1 Nat.one_pos) 0) trace = some u := ⟨_, rfl⟩
  have hend : Sometime step seesEnd (start (.new 1 Nat.one_pos) 0) trace :=
    .inr ⟨_, rfl, .inr ⟨_, rfl, .inr ⟨_, rfl, .inr ⟨_, rfl, .inl ⟨rfl, rfl⟩⟩⟩⟩⟩
  obtain ⟨u, hu⟩ := hrun
  refine ⟨u, hu, (bills_forwarded_iff (some "gpt-4o") 200 hu).2 ⟨.inl hend, ?_⟩⟩
  obtain rfl := Option.some.inj hu
  exact fun htotal => by cases htotal

end ChatStream

end AiServing
