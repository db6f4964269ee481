import AiServing.ChatStream
import AiServing.EventStream
import AiServing.JsonText

namespace AiServing
set_option autoImplicit true

/-- `ChatCompletionChunkChoice`, whose index is 0. -/
structure ChunkChoice where
  role : Option String
  content : Option String
  finishReason : Option String
  deriving DecidableEq, Repr

structure ChatCompletionChunk where
  id : String
  created : Int
  model : String
  choices : List ChunkChoice
  usage : Option NormalizedUsage
  deriving DecidableEq, Repr

/-- `t or fallback` -/
def orFallback (t : Option String) (fallback : String) : String :=
  match t with
  | some t => if t = "" then fallback else t
  | none => fallback

/-- `from_normalized`, which takes `created` from the clock. -/
def ChatCompletionChunk.fromNormalized (chunk : NormalizedStreamChunk)
    (fallbackId fallbackModel : String) (created : Int) : ChatCompletionChunk :=
  let usageOnly := chunk.usage.isSome && chunk.role.isNone && chunk.delta = "" &&
    chunk.finishReason.isNone
  { id := orFallback chunk.id fallbackId
    created := created
    model := orFallback chunk.model fallbackModel
    choices :=
      if usageOnly then []
      else [⟨chunk.role, if chunk.delta = "" then none else some chunk.delta, chunk.finishReason⟩]
    usage := chunk.usage }

/-- The members that `exclude_none` leaves. -/
def presentMembers (members : List (String × Option Json)) : Json :=
  .obj <| members.filterMap fun m => m.2.map fun j => (m.1.toList, j)

def Json.ofString (s : String) : Json := .str s.toList

def NormalizedUsage.toJson (u : NormalizedUsage) : Json :=
  presentMembers [("prompt_tokens", some (.int u.promptTokens)),
    ("completion_tokens", some (.int u.completionTokens)), ("total_tokens", some (.int u.totalTokens))]

def ChunkChoice.toJson (c : ChunkChoice) : Json :=
  presentMembers [("index", some (.int 0)),
    ("delta", some (presentMembers [("role", c.role.map .ofString),
      ("content", c.content.map .ofString)])),
    ("finish_reason", c.finishReason.map .ofString)]

def ChatCompletionChunk.toJson (c : ChatCompletionChunk) : Json :=
  presentMembers [("id", some (.ofString c.id)), ("object", some (.ofString "chat.completion.chunk")),
    ("created", some (.int c.created)), ("model", some (.ofString c.model)),
    ("choices", some (.arr (c.choices.map ChunkChoice.toJson))),
    ("usage", c.usage.map NormalizedUsage.toJson)]

/-- `model_dump_json(exclude_none=True)` -/
def modelDumpJsonLine (c : ChatCompletionChunk) : Text := compactJson c.toJson

def openaiErrorBody (message errorType : String) (code : Option String) : Json :=
  .obj [("error".toList, .obj [("message".toList, .ofString message),
    ("type".toList, .ofString errorType), ("code".toList, code.elim .null .ofString)])]

def sseData (payload : Text) : Text := "data: ".toList ++ payload ++ ['\n', '\n']

def sseEvent (event : String) (payload : Text) : Text :=
  ("event: " ++ event ++ "\n").toList ++ sseData payload

def streamTimeoutSse : Text :=
  sseEvent "error"
    (dumps (openaiErrorBody "Stream timed out" "server_error" (some "stream_timeout")))

/-- What the frames of one stream are written with; `created` is the clock at each of them. -/
structure StreamNames where
  fallbackId : String
  fallbackModel : String
  created : Nat → Int

/-- The text of the frame with number `n`. -/
def Frame.text (names : StreamNames) (n : Nat) : Frame → Text
  | .chunk c => sseData (modelDumpJsonLine
      (.fromNormalized c names.fallbackId names.fallbackModel (names.created n)))
  | .done => sseData "[DONE]".toList
  | .timeout => streamTimeoutSse
  | .error message errorType code => sseData (dumps (openaiErrorBody message errorType code))

def frameTexts (names : StreamNames) (frames : List Frame) : List Text :=
  frames.zipIdx.map fun f => f.1.text names f.2

def streamBody (names : StreamNames) (frames : List Frame) : Text :=
  (frameTexts names frames).flatten

/-- How a client tells the last frame: the marker, the event, or a payload that is an error. -/
def isTerminalText (t : Text) : Bool :=
  ["data: [DONE]", "event: error", "data: \x7b\"error\""].any fun s => s.toList.isPrefixOf t

def Frame.isTerminal : Frame → Bool
  | .chunk _ => false
  | _ => true

mutual

theorem Json.any_eq_false (hp : ∀ c, p c = false) : ∀ j, Json.any p j = false
  | .null => rfl
  | .bool _ => rfl
  | .int _ => rfl
  | .float _ => rfl
  | .str t => List.any_eq_false.2 fun c _ => by rw [hp c]; exact Bool.false_ne_true
  | .arr items => anyItems_eq_false hp items
  | .obj members => anyMembers_eq_false hp members

theorem anyItems_eq_false (hp : ∀ c, p c = false) : ∀ items, anyItems p items = false
  | [] => rfl
  | j :: items => by rw [anyItems, Json.any_eq_false hp j, anyItems_eq_false hp items]; rfl

theorem anyMembers_eq_false (hp : ∀ c, p c = false) : ∀ members, anyMembers p members = false
  | [] => rfl
  | (k, j) :: members => by
    have hk : k.any p = false :=
      List.any_eq_false.2 fun c _ => by rw [hp c]; exact Bool.false_ne_true
    rw [anyMembers, hk, Json.any_eq_false hp j, anyMembers_eq_false hp members]
    rfl

end

def isControl (c : Char) : Bool := c.toNat < 0x20

theorem isRaw_isControl (c : Char) : isRaw isControl c = false := by
  rw [isRaw, isControl, Bool.and_eq_false_iff, decide_eq_false_iff_not, decide_eq_false_iff_not]
  omega

/-- The text of a value has no control character, whatever its strings hold. -/
theorem any_isControl_encodeJson (hcomma : comma.all isPrintable) (hcolon : colon.all isPrintable)
    (j : Json) : (encodeJson comma colon j).any isControl = false := by
  have hp : AvoidsAscii isControl := by decide
  rw [any_encodeJson hp hcomma hcolon]
  exact Json.any_eq_false isRaw_isControl j

theorem any_isControl_dumps (j : Json) : (dumps j).any isControl = false := by
  rw [dumps]
  exact any_isControl_encodeJson rfl rfl j

theorem newline_not_mem {t : Text} (h : t.any isControl = false) : '\n' ∉ t := by
  intro hmem
  have hc := List.any_eq_false.1 h '\n' hmem
  exact hc rfl

theorem sseData_eq (payload : Text) :
    sseData payload = ("data: ".toList ++ payload) ++ ['\n', '\n'] := rfl

theorem isFrame_sseData (h : payload.any isControl = false) :
    EventStream.IsFrame (sseData payload) := by
  refine ⟨"data: ".toList ++ payload, ?_, rfl⟩
  apply EventStream.unbroken_of_line
  apply newline_not_mem
  rw [List.any_append, h, Bool.or_false]
  rfl

theorem sseEvent_eq (event : String) (payload : Text) :
    sseEvent event payload = ("event: ".toList ++ event.toList) ++ '\n' :: sseData payload := by
  have hbreak : "\n".toList = ['\n'] := rfl
  rw [sseEvent, String.toList_append, String.toList_append, hbreak, List.append_assoc,
    List.singleton_append]

theorem isFrame_sseEvent {event : String} (hevent : event.toList.any isControl = false)
    (h : payload.any isControl = false) : EventStream.IsFrame (sseEvent event payload) := by
  refine ⟨("event: ".toList ++ event.toList) ++ '\n' :: ("data: ".toList ++ payload), ?_, ?_⟩
  · apply EventStream.unbroken_two_lines
    · apply newline_not_mem
      rw [List.any_append, hevent, Bool.or_false]
      rfl
    · exact List.append_ne_nil_of_left_ne_nil (by decide) payload
    · apply newline_not_mem
      rw [List.any_append, h, Bool.or_false]
      rfl
  · simp only [sseEvent_eq, sseData_eq, List.append_assoc, List.cons_append]

theorem Frame.isFrame_text (names : StreamNames) (n : Nat) :
    ∀ f : Frame, EventStream.IsFrame (f.text names n)
  | .chunk _ => isFrame_sseData (any_isControl_encodeJson rfl rfl _)
  | .done => isFrame_sseData rfl
  | .timeout => isFrame_sseEvent rfl (any_isControl_dumps _)
  | .error _ _ _ => isFrame_sseData (any_isControl_dumps _)

theorem frames_streamBody (names : StreamNames) (frames : List Frame) :
    EventStream.frames (streamBody names frames) = frameTexts names frames := by
  apply EventStream.frames_flatten
  intro t ht
  obtain ⟨f, _, rfl⟩ := List.mem_map.1 ht
  exact f.1.isFrame_text names f.2

theorem control_sseData (h : payload.any isControl = false) :
    ∀ c ∈ sseData payload, isControl c → c = '\n' := by
  intro c hc hcontrol
  rw [sseData_eq, List.mem_append, List.mem_append] at hc
  rcases hc with (hc | hc) | hc
  · have hnone : "data: ".toList.any isControl = false := rfl
    exact absurd hcontrol (List.any_eq_false.1 hnone c hc)
  · exact absurd hcontrol (List.any_eq_false.1 h c hc)
  · simpa using hc

theorem control_sseEvent {event : String} (hevent : event.toList.any isControl = false)
    (h : payload.any isControl = false) : ∀ c ∈ sseEvent event payload, isControl c → c = '\n' := by
  intro c hc hcontrol
  rw [sseEvent_eq, List.mem_append, List.mem_append, List.mem_cons] at hc
  rcases hc with (hc | hc) | hc | hc
  · have hnone : "event: ".toList.any isControl = false := rfl
    exact absurd hcontrol (List.any_eq_false.1 hnone c hc)
  · exact absurd hcontrol (List.any_eq_false.1 hevent c hc)
  · exact hc
  · exact control_sseData h c hc hcontrol

/-- No text of the upstream brings a control character into the body, such as another line break. -/
theorem Frame.control_text (names : StreamNames) (n : Nat) :
    ∀ f : Frame, ∀ c ∈ f.text names n, isControl c → c = '\n'
  | .chunk _ => control_sseData (any_isControl_encodeJson rfl rfl _)
  | .done => control_sseData rfl
  | .timeout => control_sseEvent rfl (any_isControl_dumps _)
  | .error _ _ _ => control_sseData (any_isControl_dumps _)

theorem control_streamBody (names : StreamNames) (frames : List Frame) :
    ∀ c ∈ streamBody names frames, isControl c → c = '\n' := by
  intro c hc
  obtain ⟨t, ht, hmem⟩ := List.mem_flatten.1 hc
  obtain ⟨f, _, rfl⟩ := List.mem_map.1 ht
  exact f.1.control_text names f.2 c hmem

theorem compactJson_obj (k : Text) (j : Json) (members : List (Text × Json)) :
    ∃ rest, compactJson (.obj ((k, j) :: members)) = '{' :: dumpsString k ++ rest := by
  have hmembers : ∃ rest, encodeMembers [','] [':'] ((k, j) :: members) = dumpsString k ++ rest := by
    cases members with
    | nil => exact ⟨_, by rw [encodeMembers, List.append_assoc]⟩
    | cons m members =>
      refine ⟨[':'] ++ (encodeJson [','] [':'] j ++ ([','] ++ encodeMembers [','] [':'] (m :: members))),
        ?_⟩
      rw [encodeMembers]
      · simp only [List.append_assoc]
      · exact nofun
  obtain ⟨rest, hrest⟩ := hmembers
  refine ⟨rest ++ ['}'], ?_⟩
  rw [compactJson, encodeJson, hrest, List.cons_append, List.cons_append, List.append_assoc]

/-- A chunk cannot pass for a terminal frame: its payload starts with its id. -/
theorem isTerminalText_chunk (c : ChatCompletionChunk) :
    isTerminalText (sseData (modelDumpJsonLine c)) = false := by
  have hid : ∃ members, c.toJson = .obj (("id".toList, .ofString c.id) :: members) := ⟨_, rfl⟩
  obtain ⟨members, hmembers⟩ := hid
  obtain ⟨rest, hrest⟩ := compactJson_obj "id".toList (.ofString c.id) members
  rw [modelDumpJsonLine, hmembers, hrest]
  rfl

theorem Frame.isTerminalText_text (names : StreamNames) (n : Nat) :
    ∀ f : Frame, isTerminalText (f.text names n) = f.isTerminal
  | .chunk _ => isTerminalText_chunk _
  | .done => rfl
  | .timeout => rfl
  | .error _ _ _ => rfl

end AiServing
