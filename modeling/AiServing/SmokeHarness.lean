import AiServing.FallbackRoundTrip
import AiServing.ProviderAnswers
import AiServing.ScopeCodec

namespace AiServing
open Transitions
set_option autoImplicit true

/-- `payload.get(key)`; only a dictionary has this method. -/
def Json.get (key : String) : Json → Option (Option Json)
  | .obj members => some ((members.find? fun m => m.1 = key.toList).map Prod.snd)
  | _ => none

/-- What a `for` loop runs over; the other values raise. -/
def Json.iterate : Json → Option (List Json)
  | .arr items => some items
  | .obj members => some (members.map fun m => .str m.1)
  | .str t => some (t.map fun c => .str [c])
  | _ => none

def Json.isTrue : Json → Bool
  | .null => false
  | .bool b => b
  | .int n => n ≠ 0
  | .float x => !(["0.0".toList, "-0.0".toList].contains x.text)
  | .str t => t ≠ []
  | .arr items => !items.isEmpty
  | .obj members => !members.isEmpty

def Json.isNull : Json → Bool
  | .null => true
  | _ => false

/-- The four results of `parse_sse_body`. -/
structure SseParse where
  chunks : List Json := []
  sawDone : Bool := false
  sawUsage : Bool := false
  parseErrors : List Text := []

/-- The body of the inner loop, `none` where it raises. -/
def SseParse.noteChoice (p : SseParse) (choice : Json) : Option SseParse := do
  let delta ← choice.get "delta"
  let content ← ((delta.filter Json.isTrue).getD (.obj [])).get "content"
  match content.filter Json.isTrue with
  | some content => some { p with chunks := p.chunks ++ [content] }
  | none => some p

def SseParse.notePayload (p : SseParse) (payload : Json) : Option SseParse := do
  let usage ← payload.get "usage"
  let choices ← payload.get "choices"
  let choices ← (choices.getD (.arr [])).iterate
  let sawUsage := p.sawUsage || usage.any fun u => !u.isNull
  choices.foldlM noteChoice { p with sawUsage := sawUsage }

section Parsing

-- `json.loads`, with the text of its `JSONDecodeError`.
variable (loads : Text → Except Text Json)

/-- The body of the loop over the lines. -/
def SseParse.noteLine (p : SseParse) (line : Text) : Option SseParse :=
  if "data:".toList.isPrefixOf line then
    let data := strip (line.drop 5)
    if data = "[DONE]".toList then some { p with sawDone := true }
    else match loads data with
      | .error e => some { p with parseErrors := p.parseErrors ++ [e] }
      | .ok payload => p.notePayload payload
  else some p

def parseSseBody (body : Text) : Option SseParse :=
  (splitlines body).foldlM (SseParse.noteLine loads) {}

end Parsing

/-- The texts that a frame carries. -/
def ChatCompletionChunk.texts (f : ChatCompletionChunk) : List String :=
  [f.id, f.model] ++ f.choices.flatMap fun c =>
    [c.role, c.content, c.finishReason].reduceOption

def ChatCompletionChunk.exposed (f : ChatCompletionChunk) : Bool :=
  f.texts.any fun t => t.toList.any isExposedBreak

theorem any_presentMembers (hp : AvoidsAscii p) (keys : List String)
    (members : List (String × Option Json)) (h : members.map Prod.fst = keys)
    (hkeys : keys.all fun k => k.toList.all isPrintable) :
    (presentMembers members).any p = members.any fun m => m.2.any (Json.any p) := by
  rw [presentMembers, Json.any]
  induction members generalizing keys with
  | nil => rfl
  | cons m members ih =>
    rw [← h, List.map_cons, List.all_cons, Bool.and_eq_true] at hkeys
    have hkey := hp.any hkeys.1
    rw [List.any_cons, ← ih _ rfl hkeys.2]
    obtain ⟨key, value⟩ := m
    cases value with
    | none => rfl
    | some j => exact congrArg (· || _) ((congrArg (· || j.any p) hkey).trans (Bool.false_or _))

theorem any_ofString (t : Option String) :
    (t.map Json.ofString).any (Json.any p) = t.any fun t => t.toList.any p := by
  cases t <;> rfl

theorem any_reduceStrings (ts : List (Option String)) (q : String → Bool) :
    ts.reduceOption.any q = ts.any fun t => t.any q := by
  induction ts with
  | nil => rfl
  | cons t ts ih =>
    cases t with
    | none => exact ih
    | some t => exact congrArg (q t || ·) ih

theorem any_choice (hp : AvoidsAscii p) (c : ChunkChoice) :
    c.toJson.any p =
      [c.role, c.content, c.finishReason].reduceOption.any fun t => t.toList.any p := by
  have hdelta := any_presentMembers hp ["role", "content"]
    [("role", c.role.map .ofString), ("content", c.content.map .ofString)] rfl (by decide)
  rw [ChunkChoice.toJson, any_presentMembers hp ["index", "delta", "finish_reason"] _ rfl (by decide),
    any_reduceStrings]
  simp only [List.any_cons, List.any_nil, Option.any_some, hdelta, any_ofString, Json.any,
    Bool.false_or, Bool.or_false, Bool.or_assoc]

theorem any_usage (hp : AvoidsAscii p) (u : NormalizedUsage) : u.toJson.any p = false := by
  rw [NormalizedUsage.toJson, any_presentMembers hp
    ["prompt_tokens", "completion_tokens", "total_tokens"] _ rfl (by decide)]
  rfl

theorem any_chunk (hp : AvoidsAscii p) (f : ChatCompletionChunk) :
    f.toJson.any p = f.texts.any fun t => t.toList.any p := by
  have hchoices : anyItems p (f.choices.map ChunkChoice.toJson) =
      (f.choices.flatMap fun c => [c.role, c.content, c.finishReason].reduceOption).any
        fun t => t.toList.any p := by
    induction f.choices with
    | nil => rfl
    | cons c choices ih =>
      rw [List.map_cons, anyItems, any_choice hp, ih, List.flatMap_cons, List.any_append]
  rw [ChatCompletionChunk.toJson, any_presentMembers hp
    ["id", "object", "created", "model", "choices", "usage"] _ rfl (by decide),
    ChatCompletionChunk.texts]
  have hobject : "chat.completion.chunk".toList.any p = false := hp.any rfl
  have husage : (f.usage.map NormalizedUsage.toJson).any (Json.any p) = false := by
    cases f.usage with
    | none => rfl
    | some u => exact any_usage hp u
  simp only [List.any_cons, List.any_nil, Option.any_some, Json.any, Json.ofString, hobject, husage,
    hchoices, List.any_append, Bool.false_or, Bool.or_false]
  rw [Bool.or_assoc]

/-- A payload has a line break exactly where one of its texts has one that JSON does not escape. -/
theorem any_break_payload (f : ChatCompletionChunk) :
    (modelDumpJsonLine f).any isLineBreak = f.exposed := by
  have hp : AvoidsAscii isLineBreak := by decide
  rw [modelDumpJsonLine, compactJson, any_encodeJson hp rfl rfl, any_chunk hp.isRaw,
    isRaw_isLineBreak, ChatCompletionChunk.exposed]

theorem payload_eq (f : ChatCompletionChunk) : ∃ t, modelDumpJsonLine f = '{' :: t ++ ['}'] := ⟨_, rfl⟩

theorem return_not_mem_payload (f : ChatCompletionChunk) : '\r' ∉ modelDumpJsonLine f := by
  intro h
  exact List.any_eq_false.1 (any_isControl_encodeJson rfl rfl f.toJson) _ h rfl

theorem splitlines_sseData (h : '\r' ∉ payload) (rest : Text) :
    splitlines (sseData payload ++ rest) = splitlines (sseData payload) ++ splitlines rest := by
  have hu : '\r' ∉ "data: ".toList ++ payload ++ ['\n'] := by
    intro hr
    rcases List.mem_append.1 hr with hr | hr
    · rcases List.mem_append.1 hr with hr | hr
      · revert hr
        decide
      · exact h hr
    · revert hr
      decide
  have hsplit := splitlines_append_break (b := '\n') rfl (by decide) hu
  have hframe : sseData payload = ("data: ".toList ++ payload ++ ['\n']) ++ ['\n'] := by
    rw [sseData_eq]
    simp only [List.append_assoc, List.cons_append, List.nil_append]
  rw [hframe, List.append_assoc, List.singleton_append]
  exact hsplit rest

theorem data_unbroken (hu : ∀ c ∈ u, isLineBreak c = false) :
    ∀ c ∈ "data: ".toList ++ u, isLineBreak c = false := by
  intro c hc
  rcases List.mem_append.1 hc with hc | hc
  · have hnone : "data: ".toList.any isLineBreak = false := by decide
    exact Bool.eq_false_iff.2 (List.any_eq_false.1 hnone c hc)
  · exact hu c hc

theorem splitlines_whole (h : payload.any isLineBreak = false) :
    splitlines (sseData payload) = ["data: ".toList ++ payload, []] := by
  have hline := data_unbroken fun c hc => Bool.eq_false_iff.2 (List.any_eq_false.1 h c hc)
  have hrest : splitlines ['\n'] = [[]] := by decide
  rw [sseData_eq]
  exact (splitlines_line hline ['\n']).trans (congrArg _ hrest)

section Lines

variable {loads : Text → Except Text Json} {p p' : SseParse} {f : ChatCompletionChunk}
  {fs : List ChatCompletionChunk} {lines : List Text} {choice : Json} {choices : List Json}

theorem strip_space_cons (hc : isSpace c = false) (u : Text) :
    strip (' ' :: c :: u) = (c :: u).rdropWhile isSpace := by
  have hspace : isSpace ' ' = true := by decide
  rw [strip, List.dropWhile_cons_of_pos hspace,
    List.dropWhile_cons_of_neg (by rw [hc]; exact Bool.false_ne_true)]

theorem strip_payload (f : ChatCompletionChunk) :
    strip (' ' :: modelDumpJsonLine f) = modelDumpJsonLine f := by
  obtain ⟨t, ht⟩ := payload_eq f
  have hclose : isSpace '}' = false := by decide
  rw [ht, List.cons_append, strip_space_cons (by decide)]
  exact List.rdropWhile_concat_neg isSpace ('{' :: t) '}' (by rw [hclose]; exact Bool.false_ne_true)

theorem noteLine_data (line : Text) :
    p.noteLine loads ("data: ".toList ++ line) =
      if strip (' ' :: line) = "[DONE]".toList then some { p with sawDone := true }
      else match loads (strip (' ' :: line)) with
        | .error e => some { p with parseErrors := p.parseErrors ++ [e] }
        | .ok payload => p.notePayload payload := rfl

/-- What a frame adds to the results. -/
def SseParse.add (p : SseParse) (f : ChatCompletionChunk) : SseParse :=
  { p with
    chunks := p.chunks ++ f.choices.flatMap fun c =>
      ((c.content.filter (· ≠ "")).map Json.ofString).toList
    sawUsage := p.sawUsage || f.usage.isSome }

theorem get_presentMembers (key : String) (members : List (String × Option Json)) :
    (presentMembers members).get key =
      some ((members.find? fun m => m.2.isSome && m.1 == key).bind Prod.snd) := by
  rw [presentMembers, Json.get]
  apply congrArg some
  induction members with
  | nil => rfl
  | cons m members ih =>
    obtain ⟨k, value⟩ := m
    cases value with
    | none => exact ih
    | some j =>
      change (List.find? _ ((k.toList, j) :: List.filterMap _ members)).map Prod.snd = _
      rw [List.find?_cons, List.find?_cons]
      by_cases hk : k = key
      · simp only [hk, decide_true, Option.isSome_some, beq_self_eq_true, Bool.and_self]
        rfl
      · have htexts : k.toList ≠ key.toList := fun h => hk (String.toList_inj.1 h)
        have hkeys : (k == key) = false := beq_eq_false_iff_ne.2 hk
        simp only [htexts, decide_false, hkeys, Bool.and_false]
        exact ih

theorem get_delta (c : ChunkChoice) :
    c.toJson.get "delta" = some (some (presentMembers [("role", c.role.map .ofString),
      ("content", c.content.map .ofString)])) := by
  rw [ChunkChoice.toJson, get_presentMembers]
  rfl

theorem get_content (role content : Option String) :
    Json.get "content" (((some (presentMembers [("role", role.map .ofString),
      ("content", content.map .ofString)])).filter Json.isTrue).getD (.obj [])) =
      some (content.map .ofString) := by
  have hget := get_presentMembers "content"
    [("role", role.map .ofString), ("content", content.map .ofString)]
  cases role <;> cases content <;> exact hget

theorem filter_isTrue (t : Option String) :
    (t.map Json.ofString).filter Json.isTrue = (t.filter (· ≠ "")).map Json.ofString := by
  cases t with
  | none => rfl
  | some t => by_cases h : t = "" <;> simp [Option.filter_some, Json.ofString, Json.isTrue, h]

theorem noteChoice_toJson (c : ChunkChoice) :
    p.noteChoice c.toJson = some { p with
      chunks := p.chunks ++ ((c.content.filter (· ≠ "")).map Json.ofString).toList } := by
  rw [SseParse.noteChoice, get_delta]
  simp only [Option.bind_eq_bind, Option.bind_some, get_content, filter_isTrue]
  cases c.content.filter (· ≠ "") with
  | none => simp
  | some t => rfl

theorem foldlM_noteChoice (choices : List ChunkChoice) :
    (choices.map ChunkChoice.toJson).foldlM SseParse.noteChoice p = some { p with
      chunks := p.chunks ++ choices.flatMap fun c =>
        ((c.content.filter (· ≠ "")).map Json.ofString).toList } := by
  induction choices generalizing p with
  | nil => simp
  | cons c choices ih =>
    rw [List.map_cons, List.foldlM_cons, noteChoice_toJson, Option.bind_eq_bind, Option.bind_some,
      ih, List.flatMap_cons]
    simp only [List.append_assoc]

theorem get_usage (f : ChatCompletionChunk) :
    f.toJson.get "usage" = some (f.usage.map NormalizedUsage.toJson) := by
  rw [ChatCompletionChunk.toJson, get_presentMembers]
  cases f.usage <;> rfl

theorem get_choices (f : ChatCompletionChunk) :
    f.toJson.get "choices" = some (some (.arr (f.choices.map ChunkChoice.toJson))) := by
  rw [ChatCompletionChunk.toJson, get_presentMembers]
  rfl

theorem notePayload_toJson (f : ChatCompletionChunk) : p.notePayload f.toJson = some (p.add f) := by
  have husage : (f.usage.map NormalizedUsage.toJson).any (fun u => !u.isNull) = f.usage.isSome := by
    cases f.usage <;> rfl
  rw [SseParse.notePayload, get_usage, get_choices]
  simp only [Option.bind_eq_bind, Option.bind_some, Option.getD_some, Json.iterate, husage,
    foldlM_noteChoice]
  rfl

theorem payload_ne_done (f : ChatCompletionChunk) : modelDumpJsonLine f ≠ "[DONE]".toList := by
  obtain ⟨t, ht⟩ := payload_eq f
  rw [ht]
  intro h
  cases h

theorem noteLine_payload (hloads : loads (modelDumpJsonLine f) = .ok f.toJson) :
    p.noteLine loads ("data: ".toList ++ modelDumpJsonLine f) = some (p.add f) := by
  rw [noteLine_data, strip_payload, if_neg (payload_ne_done f), hloads]
  exact notePayload_toJson f

theorem foldlM_whole (rest : Text) (hexposed : ∀ f ∈ fs, ChatCompletionChunk.exposed f = false)
    (hloads : ∀ f ∈ fs, loads (modelDumpJsonLine f) = .ok f.toJson) :
    (splitlines ((fs.map fun f => sseData (modelDumpJsonLine f)).flatten ++ rest)).foldlM
      (SseParse.noteLine loads) p =
      (splitlines rest).foldlM (SseParse.noteLine loads) (fs.foldl SseParse.add p) := by
  induction fs generalizing p with
  | nil => rfl
  | cons f fs ih =>
    have hbreak := (any_break_payload f).trans (hexposed f List.mem_cons_self)
    have hf := hloads f List.mem_cons_self
    have hrest := ih (p := p.add f) (fun g hg => hexposed g (List.mem_cons_of_mem _ hg))
      fun g hg => hloads g (List.mem_cons_of_mem _ hg)
    rw [List.map_cons, List.flatten_cons, List.append_assoc,
      splitlines_sseData (return_not_mem_payload f), splitlines_whole hbreak, List.foldlM_append,
      List.foldlM_cons, noteLine_payload hf, List.foldl_cons, ← hrest]
    rfl

theorem foldlM_done :
    (splitlines (sseData "[DONE]".toList)).foldlM (SseParse.noteLine loads) p =
      some { p with sawDone := true } := by
  rw [splitlines_whole (by decide), List.foldlM_cons, noteLine_data, if_pos (by decide)]
  rfl

theorem noteChoice_errors (h : p.noteChoice choice = some p') : p'.parseErrors = p.parseErrors := by
  obtain ⟨delta, _, h⟩ := Option.bind_eq_some_iff.1 h
  obtain ⟨content, _, h⟩ := Option.bind_eq_some_iff.1 h
  split at h
  · cases h
    rfl
  · cases h
    rfl

theorem foldlM_noteChoice_errors (h : choices.foldlM SseParse.noteChoice p = some p') :
    p'.parseErrors = p.parseErrors := by
  induction choices generalizing p with
  | nil =>
    cases h
    rfl
  | cons choice choices ih =>
    rw [List.foldlM_cons] at h
    obtain ⟨q, hq, h⟩ := Option.bind_eq_some_iff.1 h
    exact (ih h).trans (noteChoice_errors hq)

theorem noteLine_errors (h : p.noteLine loads line = some p') :
    ∃ errors, p'.parseErrors = p.parseErrors ++ errors := by
  rw [SseParse.noteLine] at h
  split at h
  · dsimp only at h
    split at h
    · cases h
      exact ⟨[], (List.append_nil _).symm⟩
    · split at h
      · cases h
        exact ⟨_, rfl⟩
      · obtain ⟨usage, _, h⟩ := Option.bind_eq_some_iff.1 h
        obtain ⟨choices, _, h⟩ := Option.bind_eq_some_iff.1 h
        obtain ⟨items, _, h⟩ := Option.bind_eq_some_iff.1 h
        exact ⟨[], (foldlM_noteChoice_errors h).trans (List.append_nil _).symm⟩
  · cases h
    exact ⟨[], (List.append_nil _).symm⟩

/-- The line is reported as a JSON error, whatever came before it. -/
def IsBad (loads : Text → Except Text Json) (line : Text) : Prop :=
  ∃ e, ∀ p : SseParse, p.noteLine loads line = some { p with parseErrors := p.parseErrors ++ [e] }

theorem foldlM_errors (h : lines.foldlM (SseParse.noteLine loads) p = some p') :
    (p.parseErrors ≠ [] ∨ ∃ line ∈ lines, IsBad loads line) → p'.parseErrors ≠ [] := by
  induction lines generalizing p with
  | nil =>
    cases h
    intro herr
    rcases herr with herr | ⟨line, hline, _⟩
    · exact herr
    · cases hline
  | cons line lines ih =>
    rw [List.foldlM_cons] at h
    obtain ⟨q, hq, h⟩ := Option.bind_eq_some_iff.1 h
    intro herr
    apply ih h
    rcases herr with herr | ⟨bad, hbad, e, he⟩
    · left
      obtain ⟨errors, herrors⟩ := noteLine_errors hq
      rw [herrors]
      exact List.append_ne_nil_of_left_ne_nil herr _
    · rcases List.mem_cons.1 hbad with rfl | hbad
      · left
        rw [he p] at hq
        cases hq
        exact List.append_ne_nil_of_right_ne_nil _ (List.cons_ne_nil _ _)
      · exact .inr ⟨bad, hbad, e, he⟩

theorem exists_first_break (h : t.any isLineBreak = true) :
    ∃ u b v, t = u ++ b :: v ∧ (∀ c ∈ u, isLineBreak c = false) ∧ isLineBreak b = true := by
  induction t with
  | nil => cases h
  | cons c t ih =>
    cases hc : isLineBreak c with
    | true => exact ⟨[], c, t, rfl, nofun, hc⟩
    | false =>
      rw [List.any_cons, hc, Bool.false_or] at h
      obtain ⟨u, b, v, rfl, hu, hb⟩ := ih h
      refine ⟨c :: u, b, v, rfl, ?_, hb⟩
      intro d hd
      rcases List.mem_cons.1 hd with rfl | hd
      · exact hc
      · exact hu d hd

theorem isBad_truncated (hpayload : modelDumpJsonLine f = '{' :: u ++ v) (hv : v ≠ [])
    (htruncated : ∀ t, t <+: modelDumpJsonLine f → t ≠ modelDumpJsonLine f → ∃ e, loads t = .error e) :
    IsBad loads ("data: ".toList ++ '{' :: u) := by
  have hdata := strip_space_cons (c := '{') (by decide) u
  have hstart : strip (' ' :: '{' :: u) <+: '{' :: u := by
    rw [hdata]
    exact List.rdropWhile_prefix isSpace ('{' :: u)
  have hshort : strip (' ' :: '{' :: u) ≠ modelDumpJsonLine f := by
    intro h
    have hle := hstart.length_le
    have hpos := List.length_pos_of_ne_nil hv
    rw [h, hpayload, List.length_append] at hle
    omega
  have hdone : strip (' ' :: '{' :: u) ≠ "[DONE]".toList := by
    intro h
    rw [h] at hstart
    have hfirst := (List.cons_prefix_cons.1 hstart).1
    cases hfirst
  obtain ⟨e, he⟩ := htruncated _ (hstart.trans ⟨v, hpayload.symm⟩) hshort
  refine ⟨e, fun p => ?_⟩
  rw [noteLine_data, if_neg hdone, he]

/-- A frame with an exposed break leaves a line that holds the start of its payload. -/
theorem exists_bad_line (hexposed : f.exposed = true)
    (htruncated : ∀ t, t <+: modelDumpJsonLine f → t ≠ modelDumpJsonLine f → ∃ e, loads t = .error e) :
    ∃ line ∈ splitlines (sseData (modelDumpJsonLine f)), IsBad loads line := by
  obtain ⟨t, ht⟩ := payload_eq f
  have hbreak := (any_break_payload f).trans hexposed
  have hopen : isLineBreak '{' = false := by decide
  rw [ht, List.cons_append, List.any_cons, hopen, Bool.false_or] at hbreak
  obtain ⟨u, b, v, huv, hu, hb⟩ := exists_first_break hbreak
  have hpayload : modelDumpJsonLine f = '{' :: u ++ b :: v := by
    rw [ht, List.cons_append, huv, List.cons_append]
  have hreturn := return_not_mem_payload f
  rw [hpayload] at hreturn
  have hline : ∀ c ∈ "data: ".toList ++ '{' :: u, isLineBreak c = false := by
    apply data_unbroken
    intro c hc
    rcases List.mem_cons.1 hc with rfl | hc
    · exact hopen
    · exact hu c hc
  have hleft : '\r' ∉ "data: ".toList ++ '{' :: u := by
    intro h
    cases hline _ h
  have hb' : b ≠ '\r' := by
    rintro rfl
    exact hreturn (List.mem_append_right _ List.mem_cons_self)
  have hframe : sseData (modelDumpJsonLine f) =
      ("data: ".toList ++ '{' :: u) ++ b :: (v ++ ['\n', '\n']) := by
    rw [sseData_eq, hpayload]
    simp only [List.append_assoc, List.cons_append]
  refine ⟨"data: ".toList ++ '{' :: u, ?_, isBad_truncated hpayload (List.cons_ne_nil b v) htruncated⟩
  rw [hframe, splitlines_append_break hb hb' hleft, splitlines_line hline]
  exact List.mem_append_left _ List.mem_cons_self

theorem foldlM_exposed (rest : Text) (hexposed : ∃ f ∈ fs, ChatCompletionChunk.exposed f = true)
    (htruncated : ∀ f ∈ fs, ∀ t, t <+: modelDumpJsonLine f → t ≠ modelDumpJsonLine f →
      ∃ e, loads t = .error e)
    (h : (splitlines ((fs.map fun f => sseData (modelDumpJsonLine f)).flatten ++ rest)).foldlM
      (SseParse.noteLine loads) p = some p') : p'.parseErrors ≠ [] := by
  apply foldlM_errors h
  right
  clear h
  induction fs with
  | nil =>
    obtain ⟨f, hf, _⟩ := hexposed
    cases hf
  | cons g fs ih =>
    rw [List.map_cons, List.flatten_cons, List.append_assoc,
      splitlines_sseData (return_not_mem_payload g)]
    obtain ⟨f, hf, hexp⟩ := hexposed
    rcases List.mem_cons.1 hf with rfl | hf
    · obtain ⟨line, hline, hbad⟩ := exists_bad_line hexp (htruncated f List.mem_cons_self)
      exact ⟨line, List.mem_append_left _ hline, hbad⟩
    · obtain ⟨line, hline, hbad⟩ := ih ⟨f, hf, hexp⟩ fun f hf => htruncated f (List.mem_cons_of_mem _ hf)
      exact ⟨line, List.mem_append_right _ hline, hbad⟩

theorem foldl_add (fs : List ChatCompletionChunk) (p : SseParse) :
    fs.foldl SseParse.add p = { p with
      chunks := p.chunks ++ fs.flatMap fun f => f.choices.flatMap fun c =>
        ((c.content.filter (· ≠ "")).map Json.ofString).toList
      sawUsage := p.sawUsage || fs.any fun f => f.usage.isSome } := by
  induction fs generalizing p with
  | nil => simp
  | cons f fs ih =>
    rw [List.foldl_cons, ih, SseParse.add]
    simp only [List.flatMap_cons, List.append_assoc, List.any_cons, Bool.or_assoc]

end Lines

/-- The texts that a chunk brings into its frame. -/
def StreamNames.texts (names : StreamNames) (c : NormalizedStreamChunk) : List String :=
  [orFallback c.id names.fallbackId, orFallback c.model names.fallbackModel, c.delta] ++
    [c.role, c.finishReason].reduceOption

/-- The results for chunks that come through: their texts, the marker, their usage and no error. -/
def SseParse.ofChunks (cs : List NormalizedStreamChunk) : SseParse where
  chunks := (cs.filter fun c => c.delta ≠ "").map fun c => .ofString c.delta
  sawDone := true
  sawUsage := cs.any fun c => c.usage.isSome

section Stream

variable {names : StreamNames} {cs : List NormalizedStreamChunk}

theorem exposed_fromNormalized (c : NormalizedStreamChunk) (created : Int) :
    (ChatCompletionChunk.fromNormalized c names.fallbackId names.fallbackModel created).exposed =
      (names.texts c).any fun t => t.toList.any isExposedBreak := by
  rw [ChatCompletionChunk.exposed, ChatCompletionChunk.texts, StreamNames.texts, List.any_append,
    List.any_append, any_reduceStrings]
  rcases choices_fromNormalized c names.fallbackId names.fallbackModel created with
    h | ⟨h, hrole, hdelta, hfinish⟩
  · rw [h, List.flatMap_singleton, any_reduceStrings]
    by_cases hd : c.delta = ""
    · simp [hd, ChatCompletionChunk.fromNormalized]
    · simp only [hd, if_false, List.any_cons, List.any_nil, Option.any_some,
        ChatCompletionChunk.fromNormalized, Bool.or_false, Bool.or_assoc]
      rw [Bool.or_left_comm (c.role.any _)]
  · rw [h, hrole, hdelta, hfinish]
    simp [ChatCompletionChunk.fromNormalized]

theorem contents_of_fromNormalized (c : NormalizedStreamChunk) (created : Int) :
    ((ChatCompletionChunk.fromNormalized c names.fallbackId names.fallbackModel created).choices.flatMap
      fun c => ((c.content.filter (· ≠ "")).map Json.ofString).toList) =
        if c.delta = "" then [] else [.ofString c.delta] := by
  rcases choices_fromNormalized c names.fallbackId names.fallbackModel created with h | ⟨h, _, hd, _⟩
  · rw [h, List.flatMap_singleton]
    by_cases hd : c.delta = ""
    · simp [hd]
    · simp [hd, Option.filter_some]
  · rw [h, if_pos hd]
    rfl

theorem flatMap_deltas (cs : List NormalizedStreamChunk) :
    (cs.flatMap fun c => if c.delta = "" then [] else [Json.ofString c.delta]) =
      (cs.filter fun c => c.delta ≠ "").map fun c => .ofString c.delta := by
  induction cs with
  | nil => rfl
  | cons c cs ih =>
    rw [List.flatMap_cons, ih]
    by_cases h : c.delta = "" <;> simp [h]

theorem foldl_sentChunks (names : StreamNames) (frames : List Frame) :
    { (sentChunks names frames).foldl SseParse.add {} with sawDone := true } =
      SseParse.ofChunks (frames.filterMap Frame.chunk?) := by
  have hcontents := congrArg List.flatten (map_sentChunks names frames
    (g := fun f => f.choices.flatMap fun c =>
      ((c.content.filter (· ≠ "")).map Json.ofString).toList) contents_of_fromNormalized)
  have husage : ((sentChunks names frames).any fun f => f.usage.isSome) =
      (frames.filterMap Frame.chunk?).any fun c => c.usage.isSome := by
    have hmap := congrArg (fun l => List.any l id) (map_sentChunks names frames
      (g := fun f => f.usage.isSome) (h := fun c => c.usage.isSome) fun _ _ => rfl)
    simp only [List.any_map] at hmap
    exact hmap
  rw [foldl_add, SseParse.ofChunks, ← flatMap_deltas, List.flatMap_def, List.flatMap_def, hcontents,
    husage]
  rfl

/-- `json.loads` reads the payloads of these frames, and none of them once it is cut off. -/
structure ReadsPayloads (loads : Text → Except Text Json) (fs : List ChatCompletionChunk) : Prop where
  inverts : ∀ f ∈ fs, loads (modelDumpJsonLine f) = .ok f.toJson
  truncated : ∀ f ∈ fs, ∀ t, t <+: modelDumpJsonLine f → t ≠ modelDumpJsonLine f →
    ∃ e, loads t = .error e

theorem exposed_sentChunks (names : StreamNames) (frames : List Frame) :
    (∀ f ∈ sentChunks names frames, f.exposed = false) ↔
      ∀ c ∈ frames.filterMap Frame.chunk?, ∀ t ∈ names.texts c, ∀ ch ∈ t.toList,
        isExposedBreak ch = false := by
  have hexposed := congrArg (fun l => ∀ b ∈ l, b = false)
    (map_sentChunks names frames exposed_fromNormalized)
  simp only [List.forall_mem_map, eq_iff_iff] at hexposed
  rw [hexposed]
  simp only [List.any_eq_false, List.any_eq_true, not_exists, not_and, Bool.not_eq_true]

/-- The smoke check reads a body as it was written, exactly if no text in its frames has one of the
line breaks that JSON leaves as they are. -/
theorem parse_streamBody_iff {loads : Text → Except Text Json}
    (hloads : ReadsPayloads loads (sentChunks names (cs.map .chunk ++ [.done]))) :
    parseSseBody loads (streamBody names (cs.map .chunk ++ [.done])) = some (.ofChunks cs) ↔
      ∀ c ∈ cs, ∀ t ∈ names.texts c, ∀ ch ∈ t.toList, isExposedBreak ch = false := by
  have hbody : streamBody names (cs.map .chunk ++ [.done]) =
      ((sentChunks names (cs.map .chunk ++ [.done])).map
        fun f => sseData (modelDumpJsonLine f)).flatten ++ sseData "[DONE]".toList := by
    rw [streamBody, frameTexts_done, List.flatten_append, List.flatten_singleton]
  have hexposed := exposed_sentChunks names (cs.map .chunk ++ [.done])
  have hfold := foldl_sentChunks names (cs.map .chunk ++ [.done])
  rw [chunks_done] at hexposed hfold
  rw [← hexposed, parseSseBody, hbody]
  constructor
  · intro hparse f hf
    apply Bool.eq_false_iff.2
    intro hbreak
    exact foldlM_exposed _ ⟨f, hf, hbreak⟩ hloads.truncated hparse rfl
  · intro hwhole
    rw [foldlM_whole _ hwhole hloads.inverts, foldlM_done, hfold]

end Stream

/-- `json.loads` for a stream of one payload. -/
def loadsOne (f : ChatCompletionChunk) (t : Text) : Except Text Json :=
  if t = modelDumpJsonLine f then .ok f.toJson else .error "Expecting value".toList

theorem loadsOne_reads (f : ChatCompletionChunk) : ReadsPayloads (loadsOne f) [f] := by
  constructor
  · intro g hg
    rw [List.mem_singleton.1 hg]
    exact if_pos rfl
  · intro g hg t _ hne
    rw [List.mem_singleton.1 hg] at hne
    exact ⟨_, if_neg hne⟩

def smokeNames : StreamNames := ⟨"chatcmpl-0", "gpt-4o", fun _ => 0⟩

namespace ChatStream

/-- A line separator in the text of the model is lost to the check. -/
theorem parse_fails_at_line_separator :
    let c : NormalizedStreamChunk := { delta := "a\u2028b", usage := some ⟨1, 2, 3⟩ }
    ∃ trace u loads, run step (start (.new 1 Nat.one_pos) 0) trace = some u ∧
      u.point = .over .finished ∧ ending trace = some .stop ∧ delivered trace = [c] ∧
      ReadsPayloads loads (sentChunks smokeNames u.frames) ∧
      parseSseBody loads (streamBody smokeNames u.frames) ≠ some (.ofChunks (delivered trace)) := by
  intro c
  obtain ⟨trace, u, hrun, hover, hread, hdelivered, hend⟩ :=
    exists_reading (.new 1 Nat.one_pos) 0 [c] .stop nofun
  obtain ⟨hframes, _, _⟩ := normal_end hrun hover hread hend
  rw [hdelivered] at hframes
  have hreads := loadsOne_reads (.fromNormalized c "chatcmpl-0" "gpt-4o" 0)
  refine ⟨trace, u, _, hrun, hover, hend, hdelivered, by rw [hframes]; exact hreads, ?_⟩
  rw [hframes, hdelivered]
  intro hparse
  have hiff : _ ↔ ∀ d ∈ [c], ∀ t ∈ smokeNames.texts d, ∀ ch ∈ t.toList, isExposedBreak ch = false :=
    parse_streamBody_iff hreads
  have hplain := hiff.1 hparse c List.mem_cons_self "a\u2028b" (by decide) (Char.ofNat 0x2028) (by decide)
  revert hplain
  decide

/-- For every stream that ends normally and is read to its end. -/
theorem parse_sse_body_iff (names : StreamNames) (loads : Text → Except Text Json)
    {u : ChatStream} {limiter : StreamLimiter} {n : Nat} {trace : List Action}
    (h : run step (start limiter n) trace = some u) (hover : u.point = .over .finished)
    (hread : trace.all readsOn) (hend : ending trace = some .stop)
    (hloads : ReadsPayloads loads (sentChunks names u.frames)) :
    parseSseBody loads (streamBody names u.frames) = some (.ofChunks (delivered trace)) ↔
      ∀ c ∈ delivered trace, ∀ t ∈ names.texts c, ∀ ch ∈ t.toList, isExposedBreak ch = false := by
  obtain ⟨hframes, _, _⟩ := normal_end h hover hread hend
  rw [hframes] at hloads ⊢
  exact parse_streamBody_iff hloads

theorem parse_sse_body_iff_plain :
    let c : NormalizedStreamChunk := { delta := "안녕\n", usage := some ⟨1, 2, 3⟩ }
    ∃ (u : ChatStream) (loads : Text → Except Text Json),
      parseSseBody loads (streamBody smokeNames u.frames) = some (.ofChunks [c]) := by
  intro c
  obtain ⟨trace, u, hrun, hover, hread, hdelivered, hend⟩ :=
    exists_reading (.new 1 Nat.one_pos) 0 [c] .stop nofun
  obtain ⟨hframes, _, _⟩ := normal_end hrun hover hread hend
  have hreads := loadsOne_reads (.fromNormalized c "chatcmpl-0" "gpt-4o" 0)
  rw [hdelivered] at hframes
  have hiff := parse_sse_body_iff smokeNames _ hrun hover hread hend (by rw [hframes]; exact hreads)
  rw [hdelivered] at hiff
  have hplain : (smokeNames.texts c).all fun t => t.toList.all fun ch => !isExposedBreak ch := by decide
  refine ⟨u, _, hiff.2 fun d hd t ht ch hch => ?_⟩
  rw [List.mem_singleton.1 hd] at ht
  have hch := List.all_eq_true.1 (List.all_eq_true.1 hplain t ht) ch hch
  rwa [Bool.not_eq_true'] at hch

end ChatStream

end AiServing
