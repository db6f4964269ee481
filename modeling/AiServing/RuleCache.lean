import AiServing.ChatPolicy
import AiServing.LruCache

namespace AiServing
set_option autoImplicit true

/-- The `lru_cache` around `_compile_rules_cached`. An exception of the body is not cached. -/
abbrev RuleCache (compile : Text → ReCompile) := LruCache (compileRules compile) 32

/-- A chat request at the scan of the handler; the apps of one process may differ in their
settings. -/
structure ScanRequest where
  settings : ChatSettings
  normalized : NormalizedChatRequest
  state : ChatState

section Cached

variable (compile : Text → ReCompile)

/-- The scan of the handler, with `compile_rules` as the process runs it. -/
def ScanRequest.gate (q : ScanRequest) (cache : RuleCache compile) :
    RuleCache compile × ChatState × Option RequestFailure :=
  if q.settings.policyMode = .disabled ∨ q.settings.forbiddenPatterns = [] then
    (cache, q.state, none)
  else match cache.call q.settings.forbiddenPatterns with
    | (cache, none) => (cache, q.state, some .unhandled)
    | (cache, some rules) =>
      let found := scanMessages q.normalized.messages rules
      if found = [] then (cache, q.state, none)
      else
        let action := if q.settings.policyMode = .block then "block" else "log"
        let events := found.map (forbiddenContent action)
        let state := { q.state with policyEvents := some (q.state.policyEvents.getD [] ++ events) }
        if q.settings.policyMode = .block then
          (cache, { state with errorType := some "content_policy_violation" }, some .policyViolation)
        else (cache, state, none)

def gates (cache : RuleCache compile) :
    List ScanRequest → RuleCache compile × List (ChatState × Option RequestFailure)
  | [] => (cache, [])
  | q :: qs =>
    let (cache, answer) := q.gate compile cache
    let (cache, answers) := gates cache qs
    (cache, answer :: answers)

end Cached

/-- The patterns that the scan of a request compiles, if it gets to that. -/
def ScanRequest.compiles (q : ScanRequest) : Option (List Text) :=
  if q.settings.policyMode = .disabled ∨ q.settings.forbiddenPatterns = [] then none
  else some q.settings.forbiddenPatterns

variable {compile : Text → ReCompile} {cache : RuleCache compile} {q : ScanRequest}

theorem gate_spec (q : ScanRequest) (cache : RuleCache compile) :
    (q.gate compile cache).2 = policyGate compile q.settings q.normalized q.state ∧
      (q.gate compile cache).1 = cache.after q.compiles.toList := by
  have hanswer := cache.call_snd q.settings.forbiddenPatterns
  rw [ScanRequest.gate, policyGate, ScanRequest.compiles]
  by_cases hskip : q.settings.policyMode = .disabled ∨ q.settings.forbiddenPatterns = []
  · rw [if_pos hskip, if_pos hskip, if_pos hskip]
    exact ⟨rfl, rfl⟩
  · rw [if_neg hskip, if_neg hskip, if_neg hskip]
    rw [← hanswer]
    cases hcall : cache.call q.settings.forbiddenPatterns with
    | mk next found =>
      have hafter : next = cache.after [q.settings.forbiddenPatterns] := by
        rw [LruCache.after, List.foldl_cons, List.foldl_nil, hcall]
      cases found with
      | none => exact ⟨rfl, hafter⟩
      | some rules =>
        dsimp only
        split
        · exact ⟨rfl, hafter⟩
        · split
          · exact ⟨rfl, hafter⟩
          · exact ⟨rfl, hafter⟩

theorem gates_spec (cache : RuleCache compile) (requests : List ScanRequest) :
    (gates compile cache requests).2 =
        requests.map (fun q => policyGate compile q.settings q.normalized q.state) ∧
      (gates compile cache requests).1 = cache.after (requests.filterMap ScanRequest.compiles) := by
  induction requests generalizing cache with
  | nil => exact ⟨rfl, rfl⟩
  | cons q qs ih =>
    obtain ⟨hanswer, hcache⟩ := gate_spec q cache
    obtain ⟨hanswers, hlast⟩ := ih (q.gate compile cache).1
    constructor
    · rw [List.map_cons, ← hanswer, ← hanswers]
      rfl
    · have hstep : (gates compile cache (q :: qs)).1 =
          (gates compile (q.gate compile cache).1 qs).1 := rfl
      have hpatterns : (q :: qs).filterMap ScanRequest.compiles =
          q.compiles.toList ++ qs.filterMap ScanRequest.compiles := by
        rw [List.filterMap_cons]
        cases q.compiles with
        | none => rfl
        | some patterns => rfl
      rw [hstep, hlast, hcache, hpatterns, LruCache.after, LruCache.after, LruCache.after,
        List.foldl_append]

/-- Sharing the cache changes the outcome of no scan, and patterns are compiled again only when 32
others have been compiled or used since. -/
theorem gates_share_cache (compile : Text → ReCompile) (requests : List ScanRequest) :
    (gates compile .empty requests).2 =
        requests.map (fun q => policyGate compile q.settings q.normalized q.state) ∧
      ∀ patterns, patterns ∈ (gates compile .empty requests).1.keys ↔
        (compileRules compile patterns).isSome ∧ ∃ before later,
          requests.filterMap ScanRequest.compiles = before ++ patterns :: later ∧
            patterns ∉ later ∧
            (later.filter fun others => (compileRules compile others).isSome).toFinset.card < 32 := by
  obtain ⟨hanswers, hcache⟩ := gates_spec (.empty : RuleCache compile) requests
  refine ⟨hanswers, fun patterns => ?_⟩
  rw [hcache]
  exact LruCache.mem_keys_after_iff

end AiServing
