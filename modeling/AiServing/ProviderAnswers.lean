import AiServing.BilledUsage
import AiServing.ChatPolicy
import AiServing.StreamReading

namespace AiServing
open Transitions
set_option autoImplicit true

/-- `value or 0` -/
def orZero (value : Option Int) : Int := value.getD 0

structure OpenAIUsage where
  promptTokens : Option Int := none
  completionTokens : Option Int := none
  totalTokens : Option Int := none
  deriving DecidableEq, Repr

structure OpenAIChoice where
  role : Option String := none
  content : Option String := none
  finishReason : Option String := none
  deriving DecidableEq, Repr

structure OpenAIResponse where
  id : String
  model : String
  choices : List OpenAIChoice
  usage : Option OpenAIUsage
  deriving DecidableEq, Repr

structure OpenAIDelta where
  role : Option String := none
  content : Option String := none
  deriving DecidableEq, Repr

structure OpenAIChunkChoice where
  delta : Option OpenAIDelta
  finishReason : Option String := none
  deriving DecidableEq, Repr

structure OpenAIEvent where
  id : Option String
  model : Option String
  choices : List OpenAIChunkChoice
  usage : Option OpenAIUsage := none
  deriving DecidableEq, Repr

structure OpenAIParams where
  model : String
  messages : List NormalizedMessage
  temperature : Option ℚ
  maxTokens : Option Int

/-- What the service answers; an error carries its status. -/
structure OpenAIUpstream where
  create : OpenAIParams → Except (Option Int) OpenAIResponse
  stream : OpenAIParams → List OpenAIEvent

namespace OpenAIProvider

def toOpenaiParams (request : NormalizedChatRequest) : OpenAIParams where
  model := request.model
  messages := request.messages
  temperature := request.temperature
  maxTokens := request.maxTokens

def usageFromOpenai (usage : Option OpenAIUsage) : NormalizedUsage :=
  let promptTokens := orZero (usage.bind (·.promptTokens))
  let completionTokens := orZero (usage.bind (·.completionTokens))
  let totalTokens := orZero (usage.bind (·.totalTokens))
  { promptTokens
    completionTokens
    totalTokens := if totalTokens = 0 then promptTokens + completionTokens else totalTokens }

def chat (upstream : OpenAIUpstream) (request : NormalizedChatRequest) :
    Except RequestFailure NormalizedChatResponse :=
  match upstream.create (toOpenaiParams request) with
  | .error status => .error (.providerApi status)
  | .ok response =>
    match response.choices with
    | [] => .error (.providerApi none)
    | choice :: _ => .ok
      { id := response.id
        model := response.model
        message := ⟨orFallback choice.role "assistant", (choice.content.getD "").toList⟩
        finishReason := choice.finishReason
        usage := usageFromOpenai response.usage }

/-- The loop of `chat_stream`: the chunk that an event yields. -/
def streamChunk (event : OpenAIEvent) : Option NormalizedStreamChunk :=
  match event.choices with
  | [] => event.usage.map fun usage =>
      { id := event.id, model := event.model, usage := some (usageFromOpenai (some usage)) }
  | choice :: _ => some
      { id := event.id
        model := event.model
        role := choice.delta.bind (·.role)
        delta := (choice.delta.bind (·.content)).getD ""
        finishReason := choice.finishReason
        usage := event.usage.map fun usage => usageFromOpenai (some usage) }

def chatStream (upstream : OpenAIUpstream) (request : NormalizedChatRequest) :
    List NormalizedStreamChunk :=
  (upstream.stream (toOpenaiParams request)).filterMap streamChunk

end OpenAIProvider

structure AnthropicUsage where
  inputTokens : Option Int := none
  outputTokens : Option Int := none
  deriving DecidableEq, Repr

/-- A block of the content; only some kinds have a text. -/
structure AnthropicBlock where
  text : Option String
  deriving DecidableEq, Repr

structure AnthropicMessage where
  id : String
  model : String
  content : List AnthropicBlock
  stopReason : Option String
  usage : Option AnthropicUsage
  deriving DecidableEq, Repr

structure AnthropicParams where
  model : String
  messages : List NormalizedMessage
  maxTokens : Int
  system : Option Text
  temperature : Option ℚ

/-- A stream brings the pieces of `text_stream` and then the final message. -/
structure AnthropicUpstream where
  create : AnthropicParams → Except (Option Int) AnthropicMessage
  stream : AnthropicParams → List String × AnthropicMessage

def FINISH_REASON_MAP : List (String × String) :=
  [("end_turn", "stop"), ("max_tokens", "length"), ("stop_sequence", "stop"),
    ("tool_use", "tool_calls")]

namespace AnthropicProvider

def toAnthropicParams (defaultMaxTokens : Int) (request : NormalizedChatRequest) :
    AnthropicParams :=
  let systemMessages := (request.messages.filter fun m => m.role = "system").map (·.content)
  { model := request.model
    messages := request.messages.filter fun m => m.role ≠ "system"
    maxTokens := if orZero request.maxTokens = 0 then defaultMaxTokens else orZero request.maxTokens
    system := if systemMessages = [] then none
      else some ("\n\n".toList.intercalate systemMessages)
    temperature := request.temperature }

def normalizeFinishReason (reason : Option String) : Option String :=
  reason.map fun r => (FINISH_REASON_MAP.lookup r).getD "stop"

def extractText (content : List AnthropicBlock) : Text :=
  ((content.filterMap (·.text)).filter (· ≠ "")).flatMap String.toList

/-- The usage that both modes make of a message. -/
def usageFromAnthropic (usage : Option AnthropicUsage) : NormalizedUsage :=
  let inputTokens := orZero (usage.bind (·.inputTokens))
  let outputTokens := orZero (usage.bind (·.outputTokens))
  ⟨inputTokens, outputTokens, inputTokens + outputTokens⟩

def chat (defaultMaxTokens : Int) (upstream : AnthropicUpstream) (request : NormalizedChatRequest) :
    Except RequestFailure NormalizedChatResponse :=
  match upstream.create (toAnthropicParams defaultMaxTokens request) with
  | .error status => .error (.providerApi status)
  | .ok response => .ok
    { id := response.id
      model := response.model
      message := ⟨"assistant", extractText response.content⟩
      finishReason := normalizeFinishReason response.stopReason
      usage := usageFromAnthropic response.usage }

def textChunk (request : NormalizedChatRequest) (text : String) : NormalizedStreamChunk :=
  { model := request.model, delta := text }

def finalChunk (finalMessage : AnthropicMessage) : NormalizedStreamChunk where
  id := finalMessage.id
  model := finalMessage.model
  finishReason := normalizeFinishReason finalMessage.stopReason
  usage := usageFromAnthropic finalMessage.usage

def chatStream (defaultMaxTokens : Int) (upstream : AnthropicUpstream)
    (request : NormalizedChatRequest) : List NormalizedStreamChunk :=
  let (textStream, finalMessage) := upstream.stream (toAnthropicParams defaultMaxTokens request)
  textStream.map (textChunk request) ++ [finalChunk finalMessage]

end AnthropicProvider

structure ChatCompletionChoice where
  role : String
  content : Text
  finishReason : Option String
  deriving DecidableEq, Repr

structure ChatCompletionResponse where
  id : String
  created : Int
  model : String
  choices : List ChatCompletionChoice
  usage : NormalizedUsage
  deriving DecidableEq, Repr

def ChatCompletionResponse.fromNormalized (response : NormalizedChatResponse) (created : Int) :
    ChatCompletionResponse where
  id := response.id
  created := created
  model := response.model
  choices := [⟨response.message.role, response.message.content, response.finishReason⟩]
  usage := response.usage

def Frame.chunk? : Frame → Option NormalizedStreamChunk
  | .chunk c => some c
  | _ => none

/-- The `chat.completion.chunk` that is written as frame `n`. -/
def Frame.sent (names : StreamNames) (n : Nat) (f : Frame) : Option ChatCompletionChunk :=
  f.chunk?.map fun c => .fromNormalized c names.fallbackId names.fallbackModel (names.created n)

def sentChunks (names : StreamNames) (frames : List Frame) : List ChatCompletionChunk :=
  frames.zipIdx.filterMap fun f => f.1.sent names f.2

/-- What an answer says, in whatever parts it comes: the whole text, the last finish reason and the
last usage that is not null. -/
structure Answer where
  content : Text
  finishReason : Option String
  usage : Option NormalizedUsage
  deriving DecidableEq, Repr

/-- The answer that parts make up. -/
def Answer.ofParts (content : β → Text) (finishReasons : β → List String)
    (usage : β → Option NormalizedUsage) (parts : List β) : Answer where
  content := parts.flatMap content
  finishReason := (parts.flatMap finishReasons).getLast?
  usage := (parts.filterMap usage).getLast?

theorem Answer.ofParts_congr {content : β → Text} {finishReasons : β → List String}
    {usage : β → Option NormalizedUsage} {content' : γ → Text} {finishReasons' : γ → List String}
    {usage' : γ → Option NormalizedUsage} {parts : List β} {parts' : List γ}
    (hcontent : parts.map content = parts'.map content')
    (hfinish : parts.map finishReasons = parts'.map finishReasons')
    (husage : parts.map usage = parts'.map usage') :
    ofParts content finishReasons usage parts = ofParts content' finishReasons' usage' parts' := by
  have hreduced := congrArg (List.filterMap id) husage
  rw [List.filterMap_map, List.filterMap_map] at hreduced
  rw [ofParts, ofParts, List.flatMap_def, List.flatMap_def, List.flatMap_def, List.flatMap_def,
    hcontent, hfinish]
  exact congrArg (fun usages => Answer.mk _ _ usages.getLast?) hreduced

theorem flatMap_filterMap (f : β → Option γ) (g : γ → List δ) (l : List β) :
    (l.filterMap f).flatMap g = l.flatMap fun b => (f b).elim [] g := by
  induction l with
  | nil => rfl
  | cons b l ih =>
    cases h : f b with
    | none => rw [List.filterMap_cons_none h, List.flatMap_cons, h, ih]; rfl
    | some c => rw [List.filterMap_cons_some h, List.flatMap_cons, List.flatMap_cons, h, ih]; rfl

theorem Answer.ofParts_filterMap {content : γ → Text} {finishReasons : γ → List String}
    {usage : γ → Option NormalizedUsage} (f : β → Option γ) (parts : List β) :
    ofParts content finishReasons usage (parts.filterMap f) =
      ofParts (fun b => (f b).elim [] content) (fun b => (f b).elim [] finishReasons)
        (fun b => (f b).bind usage) parts := by
  simp only [ofParts, flatMap_filterMap, List.filterMap_filterMap]

def NormalizedStreamChunk.answer (chunks : List NormalizedStreamChunk) : Answer :=
  .ofParts (·.delta.toList) (·.finishReason.toList) (·.usage) chunks

def ChatCompletionChunk.answer (frames : List ChatCompletionChunk) : Answer :=
  .ofParts (fun f => f.choices.flatMap fun c => (c.content.getD "").toList)
    (fun f => f.choices.filterMap (·.finishReason)) (·.usage) frames

def NormalizedChatResponse.answer (response : NormalizedChatResponse) : Answer :=
  ⟨response.message.content, response.finishReason, some response.usage⟩

def ChatCompletionResponse.answer (response : ChatCompletionResponse) : Answer where
  content := response.choices.flatMap (·.content)
  finishReason := (response.choices.filterMap (·.finishReason)).getLast?
  usage := some response.usage

/-- What a frame keeps of its chunk. -/
structure Keeps (c : NormalizedStreamChunk) (f : ChatCompletionChunk) : Prop where
  role : ∀ role, c.role = some role → ∃ choice ∈ f.choices, choice.role = some role
  text : c.delta ≠ "" → ∃ choice ∈ f.choices, choice.content = some c.delta
  finishReason : ∀ r, c.finishReason = some r → ∃ choice ∈ f.choices, choice.finishReason = some r
  usage : f.usage = c.usage

section Conversion

variable (c : NormalizedStreamChunk) (fallbackId fallbackModel : String) (created : Int)

theorem choices_fromNormalized :
    (ChatCompletionChunk.fromNormalized c fallbackId fallbackModel created).choices =
        [⟨c.role, if c.delta = "" then none else some c.delta, c.finishReason⟩] ∨
      ((ChatCompletionChunk.fromNormalized c fallbackId fallbackModel created).choices = [] ∧
        c.role = none ∧ c.delta = "" ∧ c.finishReason = none) := by
  rw [ChatCompletionChunk.fromNormalized]
  dsimp only
  split
  · next h =>
    right
    simp only [Bool.and_eq_true, Option.isNone_iff_eq_none, decide_eq_true_eq] at h
    exact ⟨rfl, h.1.1.2, h.1.2, h.2⟩
  · exact .inl rfl

theorem keeps_fromNormalized : Keeps c (.fromNormalized c fallbackId fallbackModel created) := by
  rcases choices_fromNormalized c fallbackId fallbackModel created with h | ⟨_, hrole, hdelta, hfinish⟩
  · have hmem := List.mem_singleton_self
      (⟨c.role, if c.delta = "" then none else some c.delta, c.finishReason⟩ : ChunkChoice)
    rw [← h] at hmem
    exact ⟨fun _ hr => ⟨_, hmem, hr⟩, fun hd => ⟨_, hmem, if_neg hd⟩, fun _ hr => ⟨_, hmem, hr⟩, rfl⟩
  · refine ⟨fun role hr => ?_, fun hd => absurd hdelta hd, fun r hr => ?_, rfl⟩
    · cases hrole.symm.trans hr
    · cases hfinish.symm.trans hr

theorem contents_fromNormalized :
    ((ChatCompletionChunk.fromNormalized c fallbackId fallbackModel created).choices.flatMap fun ch =>
      (ch.content.getD "").toList) = c.delta.toList := by
  rcases choices_fromNormalized c fallbackId fallbackModel created with h | ⟨h, _, hdelta, _⟩
  · rw [h, List.flatMap_singleton]
    dsimp only
    split
    · next hd => rw [hd]; rfl
    · rfl
  · rw [h, hdelta]
    rfl

theorem finishReasons_fromNormalized :
    (ChatCompletionChunk.fromNormalized c fallbackId fallbackModel created).choices.filterMap
      (·.finishReason) = c.finishReason.toList := by
  rcases choices_fromNormalized c fallbackId fallbackModel created with h | ⟨h, _, _, hfinish⟩
  · rw [h]
    cases hf : c.finishReason with
    | none => rfl
    | some r => rfl
  · rw [h, hfinish]
    rfl

end Conversion

theorem map_sentChunks {g : ChatCompletionChunk → β} {h : NormalizedStreamChunk → β}
    (names : StreamNames) (frames : List Frame)
    (hg : ∀ c created, g (.fromNormalized c names.fallbackId names.fallbackModel created) = h c) :
    (sentChunks names frames).map g = (frames.filterMap Frame.chunk?).map h := by
  rw [sentChunks]
  generalize 0 = n
  induction frames generalizing n with
  | nil => rfl
  | cons f frames ih =>
    rw [List.zipIdx_cons, List.filterMap_cons, List.filterMap_cons, Frame.sent]
    cases f.chunk? with
    | none => exact ih (n + 1)
    | some c =>
      rw [List.map_cons, ← hg c (names.created n), ← ih (n + 1)]
      rfl

theorem answer_sentChunks (names : StreamNames) (frames : List Frame) :
    ChatCompletionChunk.answer (sentChunks names frames) =
      NormalizedStreamChunk.answer (frames.filterMap Frame.chunk?) := by
  apply Answer.ofParts_congr
  · exact map_sentChunks names frames fun c created => contents_fromNormalized c _ _ created
  · exact map_sentChunks names frames fun c created => finishReasons_fromNormalized c _ _ created
  · exact map_sentChunks names frames fun _ _ => rfl

theorem keeps_sentChunks (names : StreamNames) (frames : List Frame) :
    List.Forall₂ Keeps (frames.filterMap Frame.chunk?) (sentChunks names frames) := by
  rw [sentChunks]
  generalize 0 = n
  induction frames generalizing n with
  | nil => exact .nil
  | cons f frames ih =>
    rw [List.zipIdx_cons, List.filterMap_cons, List.filterMap_cons, Frame.sent]
    cases f.chunk? with
    | none => exact ih (n + 1)
    | some c => exact .cons (keeps_fromNormalized c ..) (ih (n + 1))

theorem chunks_done (cs : List NormalizedStreamChunk) :
    (cs.map Frame.chunk ++ [Frame.done]).filterMap Frame.chunk? = cs := by
  rw [List.filterMap_append, List.filterMap_map]
  exact (List.append_nil _).trans List.filterMap_some

theorem frameTexts_done (names : StreamNames) (cs : List NormalizedStreamChunk) :
    frameTexts names (cs.map .chunk ++ [.done]) =
      (sentChunks names (cs.map .chunk ++ [.done])).map (fun c => sseData (modelDumpJsonLine c)) ++
        [sseData "[DONE]".toList] := by
  rw [frameTexts, sentChunks]
  generalize 0 = n
  induction cs generalizing n with
  | nil => rfl
  | cons c cs ih => exact congrArg (_ :: ·) (ih (n + 1))

namespace OpenAIProvider

def eventText (event : OpenAIEvent) : Text :=
  ((event.choices.head?.bind fun c => c.delta.bind (·.content)).getD "").toList

def eventFinishReason (event : OpenAIEvent) : Option String :=
  event.choices.head?.bind (·.finishReason)

/-- The events bring the message in pieces, whatever else they bring and wherever they are cut. -/
structure Chunking (events : List OpenAIEvent) (response : OpenAIResponse) : Prop where
  text : events.flatMap eventText = ((response.choices.head?.bind (·.content)).getD "").toList
  finishReason : (events.filterMap eventFinishReason).getLast? =
    response.choices.head?.bind (·.finishReason)
  usage : (events.filterMap (·.usage)).getLast? = response.usage

variable {upstream : OpenAIUpstream} {request : NormalizedChatRequest} {response : OpenAIResponse}
  {answer : NormalizedChatResponse}

theorem chat_answer (h : upstream.create (toOpenaiParams request) = .ok response)
    (hanswer : chat upstream request = .ok answer) :
    answer.answer = ⟨((response.choices.head?.bind (·.content)).getD "").toList,
      response.choices.head?.bind (·.finishReason), some (usageFromOpenai response.usage)⟩ := by
  rw [chat, h] at hanswer
  dsimp only at hanswer
  cases hc : response.choices with
  | nil =>
    rw [hc] at hanswer
    cases hanswer
  | cons choice choices =>
    rw [hc] at hanswer
    cases hanswer
    rfl

theorem streamChunk_text (event : OpenAIEvent) :
    (streamChunk event).elim [] (·.delta.toList) = eventText event := by
  rw [streamChunk, eventText]
  cases event.choices with
  | nil => cases event.usage <;> rfl
  | cons choice choices => rfl

theorem streamChunk_finishReason (event : OpenAIEvent) :
    (streamChunk event).elim [] (·.finishReason.toList) = (eventFinishReason event).toList := by
  rw [streamChunk, eventFinishReason]
  cases event.choices with
  | nil => cases event.usage <;> rfl
  | cons choice choices => rfl

theorem streamChunk_usage (event : OpenAIEvent) :
    (streamChunk event).bind (·.usage) = event.usage.map fun usage => usageFromOpenai (some usage) := by
  rw [streamChunk]
  cases event.choices with
  | nil => cases event.usage <;> rfl
  | cons choice choices => rfl

theorem chatStream_answer (upstream : OpenAIUpstream) (request : NormalizedChatRequest) :
    NormalizedStreamChunk.answer (chatStream upstream request) =
      let events := upstream.stream (toOpenaiParams request)
      ⟨events.flatMap eventText, (events.filterMap eventFinishReason).getLast?,
        (events.filterMap (·.usage)).getLast?.map fun usage => usageFromOpenai (some usage)⟩ := by
  rw [NormalizedStreamChunk.answer, chatStream, Answer.ofParts_filterMap]
  simp only [streamChunk_text, streamChunk_finishReason, streamChunk_usage, Answer.ofParts]
  rw [← List.filterMap_eq_flatMap_toList, ← List.getLast?_map, List.map_filterMap]

/-- Both modes give one answer to one message. -/
theorem answers_agree (h : upstream.create (toOpenaiParams request) = .ok response)
    (hchunking : Chunking (upstream.stream (toOpenaiParams request)) response)
    (husage : response.usage.isSome) (hanswer : chat upstream request = .ok answer) :
    NormalizedStreamChunk.answer (chatStream upstream request) = answer.answer := by
  obtain ⟨usage, husage⟩ := Option.isSome_iff_exists.1 husage
  rw [chat_answer h hanswer, chatStream_answer]
  dsimp only
  rw [hchunking.text, hchunking.finishReason, hchunking.usage, husage]
  rfl

end OpenAIProvider

namespace AnthropicProvider

/-- The pieces of text make up the text of the message, and the final message ends like it. -/
structure Chunking (textStream : List String) (finalMessage message : AnthropicMessage) : Prop where
  text : textStream.flatMap String.toList =
    (message.content.filterMap (·.text)).flatMap String.toList
  stopReason : finalMessage.stopReason = message.stopReason
  usage : finalMessage.usage = message.usage

variable {defaultMaxTokens : Int} {upstream : AnthropicUpstream} {request : NormalizedChatRequest}
  {message : AnthropicMessage} {answer : NormalizedChatResponse}

theorem extractText_eq (content : List AnthropicBlock) :
    extractText content = (content.filterMap (·.text)).flatMap String.toList := by
  rw [extractText]
  induction content.filterMap (·.text) with
  | nil => rfl
  | cons t ts ih =>
    by_cases ht : t = ""
    · rw [List.filter_cons, if_neg (by simpa using ht), ih, ht]
      rfl
    · rw [List.filter_cons, if_pos (by simpa using ht), List.flatMap_cons, List.flatMap_cons, ih]

theorem chatStream_answer (pieces : List String) (finalMessage : AnthropicMessage)
    (request : NormalizedChatRequest) :
    NormalizedStreamChunk.answer (pieces.map (textChunk request) ++ [finalChunk finalMessage]) =
      ⟨pieces.flatMap String.toList, normalizeFinishReason finalMessage.stopReason,
        some (usageFromAnthropic finalMessage.usage)⟩ := by
  induction pieces with
  | nil =>
    rw [NormalizedStreamChunk.answer, Answer.ofParts]
    cases hr : normalizeFinishReason finalMessage.stopReason <;>
      simp [finalChunk, hr]
  | cons t pieces ih =>
    rw [NormalizedStreamChunk.answer, Answer.ofParts, Answer.mk.injEq] at ih
    obtain ⟨hcontent, hfinish, husage⟩ := ih
    rw [NormalizedStreamChunk.answer, Answer.ofParts, Answer.mk.injEq, List.map_cons, List.cons_append]
    refine ⟨?_, hfinish, husage⟩
    rw [List.flatMap_cons, hcontent]
    rfl

theorem answers_agree (h : upstream.create (toAnthropicParams defaultMaxTokens request) = .ok message)
    (hchunking : Chunking (upstream.stream (toAnthropicParams defaultMaxTokens request)).1
      (upstream.stream (toAnthropicParams defaultMaxTokens request)).2 message)
    (hanswer : chat defaultMaxTokens upstream request = .ok answer) :
    NormalizedStreamChunk.answer (chatStream defaultMaxTokens upstream request) = answer.answer := by
  rw [chat, h] at hanswer
  cases hanswer
  rw [chatStream, chatStream_answer, hchunking.text, hchunking.stopReason, hchunking.usage,
    ← extractText_eq]
  rfl

end AnthropicProvider

theorem answer_fromNormalized (response : NormalizedChatResponse) (created : Int) :
    (ChatCompletionResponse.fromNormalized response created).answer = response.answer := by
  rw [ChatCompletionResponse.answer, NormalizedChatResponse.answer, Answer.mk.injEq]
  refine ⟨List.append_nil _, ?_, rfl⟩
  rw [ChatCompletionResponse.fromNormalized]
  cases response.finishReason <;> rfl

theorem forwardedUsage_eq (frames : List Frame) :
    forwardedUsage frames = (NormalizedStreamChunk.answer (frames.filterMap Frame.chunk?)).usage := by
  rw [NormalizedStreamChunk.answer, Answer.ofParts, List.filterMap_filterMap]
  apply congrArg fun f => (frames.filterMap f).getLast?
  funext f
  cases f <;> rfl

/-- A request that was streamed leaves what the other mode would: the answer in its frames, and the
row of the audit. -/
structure SameOutcome (names : StreamNames) (model : Option String) (frames : List Frame)
    (request : RequestState) (response : NormalizedChatResponse) : Prop where
  answer : ∀ created, ChatCompletionChunk.answer (sentChunks names frames) =
    (ChatCompletionResponse.fromNormalized response created).answer
  audit : finalizeRequest model request 200 =
    finalizeRequest model { tokenUsage := some response.usage } 200

namespace ChatStream

variable {u : ChatStream} {limiter : StreamLimiter} {n : Nat} {trace : List Action}

theorem normal_end (h : run step (start limiter n) trace = some u)
    (hover : u.point = .over .finished) (hread : trace.all readsOn)
    (hend : ending trace = some .stop) :
    u.frames = (delivered trace).map .chunk ++ [.done] ∧
      u.request = { tokenUsage := forwardedUsage u.frames } ∧
      responseStatus (start limiter n) trace = some 200 := by
  obtain ⟨x, status, hends, hstatus, hstop⟩ := remaining_of_run h hover hread
  obtain rfl : x = .stop := Option.some.inj (hends.last.symm.trans hend)
  have hframes : u.frames = (delivered trace).map .chunk ++ [.done] := hends.frames
  have hnoted := run_invariant (fun s a t hs ht => UsageNoted.step hs ht) (.start limiter n) h
  have hmem : .done ∈ u.frames := by
    rw [hframes]
    exact List.mem_append_right _ List.mem_cons_self
  refine ⟨hframes, ?_, hstatus.trans (congrArg some (hstop rfl))⟩
  have hcollected : u.request.tokenUsage = forwardedUsage u.frames := by
    rw [hnoted.noted, if_pos hmem, hnoted.collected]
  rw [← hcollected]
  exact hends.request

theorem chunks_of_normal_end (hframes : u.frames = (delivered trace).map .chunk ++ [.done]) :
    u.frames.filterMap Frame.chunk? = delivered trace := by
  rw [hframes, chunks_done]

theorem sameOutcome {response : NormalizedChatResponse} (names : StreamNames)
    (model : Option String) (h : run step (start limiter n) trace = some u)
    (hover : u.point = .over .finished) (hread : trace.all readsOn)
    (hend : ending trace = some .stop)
    (hanswer : NormalizedStreamChunk.answer (delivered trace) = response.answer) :
    SameOutcome names model u.frames u.request response := by
  obtain ⟨hframes, hrequest, _⟩ := normal_end h hover hread hend
  have hchunks := chunks_of_normal_end hframes
  refine ⟨fun created => ?_, ?_⟩
  · rw [answer_sentChunks, hchunks, hanswer, answer_fromNormalized]
  · rw [hrequest, forwardedUsage_eq, hchunks, hanswer]
    rfl

/-- However the upstream cuts its answer, the stream and the plain response give one answer and one
audit row, and no frame loses what its chunk says. -/
theorem modes_agree (names : StreamNames) (model : Option String)
    (h : run step (start limiter n) trace = some u) (hover : u.point = .over .finished)
    (hread : trace.all readsOn) (hend : ending trace = some .stop) :
    (∀ upstream request response answer,
      upstream.create (OpenAIProvider.toOpenaiParams request) = .ok response →
      response.usage.isSome →
      OpenAIProvider.Chunking (upstream.stream (OpenAIProvider.toOpenaiParams request)) response →
      OpenAIProvider.chat upstream request = .ok answer →
      delivered trace = OpenAIProvider.chatStream upstream request →
      SameOutcome names model u.frames u.request answer) ∧
    (∀ defaultMaxTokens upstream request message answer,
      upstream.create (AnthropicProvider.toAnthropicParams defaultMaxTokens request) = .ok message →
      AnthropicProvider.Chunking
        (upstream.stream (AnthropicProvider.toAnthropicParams defaultMaxTokens request)).1
        (upstream.stream (AnthropicProvider.toAnthropicParams defaultMaxTokens request)).2 message →
      AnthropicProvider.chat defaultMaxTokens upstream request = .ok answer →
      delivered trace = AnthropicProvider.chatStream defaultMaxTokens upstream request →
      SameOutcome names model u.frames u.request answer) ∧
    responseStatus (start limiter n) trace = some 200 ∧
    List.Forall₂ Keeps (delivered trace) (sentChunks names u.frames) ∧
    frameTexts names u.frames =
      (sentChunks names u.frames).map (fun c => sseData (modelDumpJsonLine c)) ++
        [sseData "[DONE]".toList] := by
  obtain ⟨hframes, _, hstatus⟩ := normal_end h hover hread hend
  refine ⟨?_, ?_, hstatus, ?_, ?_⟩
  · intro upstream request response answer hcreate husage hchunking hchat hdelivered
    apply sameOutcome names model h hover hread hend
    rw [hdelivered]
    exact OpenAIProvider.answers_agree hcreate hchunking husage hchat
  · intro defaultMaxTokens upstream request message answer hcreate hchunking hchat hdelivered
    apply sameOutcome names model h hover hread hend
    rw [hdelivered]
    exact AnthropicProvider.answers_agree hcreate hchunking hchat
  · rw [← chunks_of_normal_end hframes]
    exact keeps_sentChunks names u.frames
  · rw [hframes]
    exact frameTexts_done names (delivered trace)

def sampleResponse : OpenAIResponse where
  id := "chatcmpl-1"
  model := "gpt-4o"
  choices := [{ role := some "assistant", content := some "Hello", finishReason := some "stop" }]
  usage := some { promptTokens := some 3, completionTokens := some 2 }

/-- The same message in three events and a usage of its own. -/
def sampleEvents : List OpenAIEvent :=
  [⟨some "chatcmpl-1", some "gpt-4o", [⟨some ⟨some "assistant", some ""⟩, none⟩], none⟩,
    ⟨some "chatcmpl-1", some "gpt-4o", [⟨some ⟨none, some "Hel"⟩, none⟩], none⟩,
    ⟨some "chatcmpl-1", some "gpt-4o", [⟨some ⟨none, some "lo"⟩, some "stop"⟩], none⟩,
    ⟨some "chatcmpl-1", some "gpt-4o", [], some { promptTokens := some 3, completionTokens := some 2 }⟩]

def sampleUpstream : OpenAIUpstream where
  create := fun _ => .ok sampleResponse
  stream := fun _ => sampleEvents

def sampleRequest : NormalizedChatRequest where
  model := "gpt-4o"
  messages := [⟨"user", "hi".toList⟩]

/-- Two pieces of text and the message they belong to. -/
def sampleMessage : AnthropicMessage where
  id := "msg_1"
  model := "claude-sonnet-4-6"
  content := [⟨some "Hel"⟩, ⟨none⟩, ⟨some "lo"⟩]
  stopReason := some "end_turn"
  usage := some { inputTokens := some 3, outputTokens := some 2 }

def sampleAnthropic : AnthropicUpstream where
  create := fun _ => .ok sampleMessage
  stream := fun _ => (["H", "ello"], sampleMessage)

theorem modes_agree_samples :
    let names : StreamNames := ⟨"chatcmpl-0", "gpt-4o", fun _ => 0⟩
    (∃ (u : ChatStream) (answer : NormalizedChatResponse),
      OpenAIProvider.chat sampleUpstream sampleRequest = .ok answer ∧
        SameOutcome names (some "gpt-4o") u.frames u.request answer) ∧
    ∃ (u : ChatStream) (answer : NormalizedChatResponse),
      AnthropicProvider.chat 1024 sampleAnthropic sampleRequest = .ok answer ∧
        SameOutcome names (some "gpt-4o") u.frames u.request answer := by
  intro names
  constructor
  · obtain ⟨trace, u, hrun, hover, hread, hdelivered, hend⟩ := exists_reading (.new 1 Nat.one_pos) 0
      (OpenAIProvider.chatStream sampleUpstream sampleRequest) .stop nofun
    refine ⟨u, _, rfl, ?_⟩
    exact (modes_agree names (some "gpt-4o") hrun hover hread hend).1 sampleUpstream sampleRequest
      sampleResponse _ rfl rfl ⟨rfl, rfl, rfl⟩ rfl hdelivered
  · obtain ⟨trace, u, hrun, hover, hread, hdelivered, hend⟩ := exists_reading (.new 1 Nat.one_pos) 0
      (AnthropicProvider.chatStream 1024 sampleAnthropic sampleRequest) .stop nofun
    refine ⟨u, _, rfl, ?_⟩
    exact (modes_agree names (some "gpt-4o") hrun hover hread hend).2.1 1024 sampleAnthropic
      sampleRequest sampleMessage _ rfl ⟨rfl, rfl, rfl⟩ rfl hdelivered

end ChatStream

end AiServing
