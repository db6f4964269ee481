import AiServing.GatewayRuns

namespace AiServing
open Dictionary Transitions
set_option autoImplicit true

structure ModelInfo where
  id : String
  ownedBy : String
  deriving DecidableEq, Repr

def ChatSettings.listModels (settings : ChatSettings) : List ModelInfo :=
  settings.openaiModels.map (fun model => ⟨model, "openai"⟩) ++
    settings.anthropicModels.map fun model => ⟨model, "anthropic"⟩

def ChatSettings.owners (settings : ChatSettings) (model : String) : List String :=
  (settings.listModels.filter fun info => info.id = model).map ModelInfo.ownedBy

variable {settings : ChatSettings}

theorem get?_foldl_set_const [DecidableEq κ] (l : List κ) (v : ν) (d : Dict κ ν) (k : κ) :
    (l.foldl (fun d x => d.set x v) d).get? k = if k ∈ l then some v else d.get? k := by
  induction l generalizing d with
  | nil => rfl
  | cons x l ih =>
    rw [List.foldl_cons, ih, Dict.get?_set]
    by_cases hk : k = x
    · rw [if_pos hk, if_pos (List.mem_cons.2 (.inl hk)), ite_self]
    · rw [if_neg hk]
      by_cases hl : k ∈ l
      · rw [if_pos hl, if_pos (List.mem_cons_of_mem x hl)]
      · rw [if_neg hl, if_neg (by rw [List.mem_cons, not_or]; exact ⟨hk, hl⟩)]

theorem providerForModel_eq (settings : ChatSettings) (model : String) :
    settings.providerForModel model =
      if model ∈ settings.anthropicModels then some .anthropic
      else if model ∈ settings.openaiModels then some .openai else none := by
  rw [ChatSettings.providerForModel, ChatSettings.modelProviders, get?_foldl_set_const,
    get?_foldl_set_const]
  rfl

theorem owned_filter (models : List String) (owner model : String) :
    ((models.map fun m => (⟨m, owner⟩ : ModelInfo)).filter fun info => info.id = model).map
        ModelInfo.ownedBy =
      List.replicate (models.count model) owner := by
  induction models with
  | nil => rfl
  | cons m models ih =>
    rw [List.map_cons, List.count_cons]
    by_cases hm : m = model
    · rw [List.filter_cons_of_pos (by simpa using hm), List.map_cons, ih, if_pos (beq_iff_eq.2 hm)]
      rfl
    · rw [List.filter_cons_of_neg (by simpa using hm), ih, if_neg (by simpa using hm), Nat.add_zero]

theorem owners_eq (settings : ChatSettings) (model : String) :
    settings.owners model = List.replicate (settings.openaiModels.count model) "openai" ++
      List.replicate (settings.anthropicModels.count model) "anthropic" := by
  rw [ChatSettings.owners, ChatSettings.listModels, List.filter_append, List.map_append, owned_filter,
    owned_filter]

theorem providerForModel_owner (settings : ChatSettings) (model : String) :
    (settings.providerForModel model).map ProviderName.name = (settings.owners model).getLast? := by
  rw [providerForModel_eq, owners_eq, List.getLast?_append, List.getLast?_replicate,
    List.getLast?_replicate]
  by_cases hanthropic : model ∈ settings.anthropicModels
  · rw [if_pos hanthropic, if_neg (mt List.count_eq_zero.1 (not_not.2 hanthropic))]
    rfl
  · rw [if_neg hanthropic, if_pos (List.count_eq_zero.2 hanthropic), Option.none_or]
    by_cases hopenai : model ∈ settings.openaiModels
    · rw [if_pos hopenai, if_neg (mt List.count_eq_zero.1 (not_not.2 hopenai))]
      rfl
    · rw [if_neg hopenai, if_pos (List.count_eq_zero.2 hopenai)]
      rfl

theorem mem_listModels {info : ModelInfo} : info ∈ settings.listModels ↔
    info.id ∈ settings.openaiModels ∧ info.ownedBy = "openai" ∨
      info.id ∈ settings.anthropicModels ∧ info.ownedBy = "anthropic" := by
  obtain ⟨id, ownedBy⟩ := info
  rw [ChatSettings.listModels, List.mem_append, List.mem_map, List.mem_map]
  constructor
  · rintro (⟨model, hmodel, heq⟩ | ⟨model, hmodel, heq⟩)
    · cases heq
      exact .inl ⟨hmodel, rfl⟩
    · cases heq
      exact .inr ⟨hmodel, rfl⟩
  · rintro (⟨hmodel, howner⟩ | ⟨hmodel, howner⟩)
    · exact .inl ⟨id, hmodel, by rw [← howner]⟩
    · exact .inr ⟨id, hmodel, by rw [← howner]⟩

/-- No model stands in both lists. -/
def ChatSettings.Separate (settings : ChatSettings) : Prop :=
  ∀ model ∈ settings.openaiModels, model ∉ settings.anthropicModels

instance (settings : ChatSettings) : Decidable settings.Separate :=
  inferInstanceAs (Decidable (∀ model ∈ _, _))

theorem owner_of_separate (h : settings.Separate) {info : ModelInfo} (hinfo : info ∈ settings.listModels) :
    (settings.providerForModel info.id).map ProviderName.name = some info.ownedBy := by
  rw [providerForModel_eq]
  rcases mem_listModels.1 hinfo with ⟨hopenai, howner⟩ | ⟨hanthropic, howner⟩
  · rw [if_neg (h _ hopenai), if_pos hopenai, howner]
    rfl
  · rw [if_pos hanthropic, howner]
    rfl

/-- The catalogue and the routes agree: a model can be called exactly if it is listed, it is routed to
the last owner listed for it, and every entry names the owner that is called exactly if no model stands
in both lists. -/
theorem catalogue_routes (settings : ChatSettings) :
    (∀ model, settings.providerForModel model ≠ none ↔
      ∃ info ∈ settings.listModels, info.id = model) ∧
    (∀ model, (settings.providerForModel model).map ProviderName.name =
      (settings.owners model).getLast?) ∧
    ((∀ info ∈ settings.listModels,
      (settings.providerForModel info.id).map ProviderName.name = some info.ownedBy) ↔
        settings.Separate) := by
  refine ⟨fun model => ?_, providerForModel_owner settings, ?_, fun h _ => owner_of_separate h⟩
  · rw [providerForModel_eq]
    constructor
    · intro hcallable
      by_cases hanthropic : model ∈ settings.anthropicModels
      · exact ⟨⟨model, "anthropic"⟩, mem_listModels.2 (.inr ⟨hanthropic, rfl⟩), rfl⟩
      · by_cases hopenai : model ∈ settings.openaiModels
        · exact ⟨⟨model, "openai"⟩, mem_listModels.2 (.inl ⟨hopenai, rfl⟩), rfl⟩
        · rw [if_neg hanthropic, if_neg hopenai] at hcallable
          exact absurd rfl hcallable
    · rintro ⟨info, hinfo, rfl⟩
      rcases mem_listModels.1 hinfo with ⟨hopenai, _⟩ | ⟨hanthropic, _⟩
      · rw [if_pos hopenai]
        split
        · exact Option.some_ne_none _
        · exact Option.some_ne_none _
      · rw [if_pos hanthropic]
        exact Option.some_ne_none _
  · intro howned model hopenai hanthropic
    have howner := howned ⟨model, "openai"⟩ (mem_listModels.2 (.inl ⟨hopenai, rfl⟩))
    rw [providerForModel_eq, if_pos hanthropic] at howner
    exact absurd (Option.some.inj howner : "anthropic" = "openai") (by decide)

namespace Gateway

variable {app : GatewayApp} {u : Gateway app.settings} {steps : List (GatewayStep app.settings)}
  {q : GatewayRequest app.settings}

/-- However the requests interleave, a provider is called for listed models only, as their last owner;
with separate lists it is the owner that every entry for the model names. -/
theorem calls_follow_catalogue {db : Database} {streams : StreamLimiter}
    (hrun : run (step app) (start app db streams) steps = some u) (hq : q ∈ u.requests)
    {provider : ProviderName} {request : NormalizedChatRequest}
    (hcall : (provider, request) ∈ q.calls) :
    (app.settings.owners request.model).getLast? = some provider.name ∧
      (app.settings.Separate → ∀ info ∈ app.settings.listModels, info.id = request.model →
        info.ownedBy = provider.name) := by
  have hlawful := run_invariant (I := AllLawful) (fun _ _ _ hs h => hs.step h)
    (AllLawful.start db streams) hrun
  obtain ⟨id, hid⟩ := List.getElem?_of_mem hq
  obtain ⟨_, _, payload, _, _, hname, hcalls⟩ :=
    (hlawful id q hid).served.resolve_left (List.ne_nil_of_mem hcall)
  rw [hcalls, List.mem_singleton] at hcall
  cases hcall
  have hrouted : (app.settings.providerForModel payload.model).map ProviderName.name =
      some provider.name := by
    rw [Option.mem_def.1 hname]
    rfl
  refine ⟨(providerForModel_owner app.settings payload.model).symm.trans hrouted, ?_⟩
  intro hseparate info hinfo hid
  have howner := owner_of_separate hseparate hinfo
  rw [hid] at howner
  exact Option.some.inj (howner.symm.trans hrouted)

theorem calls_follow_catalogue_once : ∃ u q provider request,
    run (step sampleApp) sampleStart sampleSteps = some u ∧ q ∈ u.requests ∧
      (provider, request) ∈ q.calls ∧
      (sampleApp.settings.owners request.model).getLast? = some provider.name := by
  obtain ⟨u, q, hu, hq, hcalls⟩ := sampleSteps_run
  obtain ⟨⟨provider, request⟩, hcall⟩ := List.exists_mem_of_ne_nil _ hcalls
  have hmem := List.mem_of_getElem? hq
  exact ⟨u, q, provider, request, hu, hmem, hcall, (calls_follow_catalogue hu hmem hcall).1⟩

end Gateway
end AiServing
