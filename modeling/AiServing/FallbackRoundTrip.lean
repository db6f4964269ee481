import AiServing.AuditFallback
import Mathlib.Data.List.ReduceOption

namespace AiServing
set_option autoImplicit true

/-- The strings of the dictionary. -/
def AuditFields.texts (f : AuditFields) : List Text :=
  f.requestId ::
    [f.principalHash, f.orgId, f.apiKeyId, f.provider, f.model, f.errorType].reduceOption

theorem any_ofOption (t : Option Text) : (Json.ofOption t).any p = t.toList.any (·.any p) := by
  cases t with
  | none => rfl
  | some t => exact (Bool.or_false _).symm

theorem any_reduceOption (ts : List (Option Text)) :
    ts.reduceOption.any (·.any p) = ts.any fun t => (Json.ofOption t).any p := by
  induction ts with
  | nil => rfl
  | cons t ts ih =>
    rw [List.any_cons, ← ih, any_ofOption]
    cases t with
    | none => rfl
    | some t =>
      rw [List.reduceOption_cons_of_some, List.any_cons, Option.toList_some, List.any_cons,
        List.any_nil, Bool.or_false]

theorem any_toJson (hp : AvoidsAscii p) (f : AuditFields) :
    f.toJson.any p = f.texts.any (·.any p) := by
  have hcost : f.costUsd.str.any p = false := by
    apply hp.any
    rw [List.all_eq_true]
    intro c hc
    have hc := Decimal.isNumeral_str f.costUsd c hc
    simp only [Decimal.isNumeral, Bool.or_eq_true, decide_eq_true_eq] at hc
    rcases hc with (((hd | rfl) | rfl) | rfl) | rfl
    · exact isAsciiDigit.elim hd (by decide)
    all_goals rfl
  have hkey (k : Text) (hk : k.all isPrintable) (j : Json) (members : List (Text × Json)) :
      anyMembers p ((k, j) :: members) = (j.any p || anyMembers p members) := by
    rw [anyMembers, hp.any hk, Bool.false_or]
  rw [AuditFields.texts, List.any_cons, any_reduceOption]
  simp only [AuditFields.toJson, AuditFields.items, List.map_cons, List.map_nil, Json.any]
  rw [hkey _ rfl, hkey _ rfl, hkey _ rfl, hkey _ rfl, hkey _ rfl, hkey _ rfl, hkey _ rfl,
    hkey _ rfl, hkey _ rfl, hkey _ rfl, hkey _ rfl, hkey _ rfl, hkey _ rfl, hkey _ rfl]
  simp only [AuditValue.encode, Json.any, anyMembers, hcost, List.any_cons, List.any_nil,
    Bool.false_or, Bool.or_false]

/-- The breaks that a string keeps as they are: next line, line and paragraph separator. -/
def isExposedBreak (c : Char) : Bool := [0x85, 0x2028, 0x2029].contains c.toNat

def AuditFields.exposed (f : AuditFields) : Bool := f.texts.any (·.any isExposedBreak)

theorem AuditFields.exposed_eq_false {f : AuditFields} :
    f.exposed = false ↔ ∀ t ∈ f.texts, ∀ c ∈ t, isExposedBreak c = false := by
  simp only [AuditFields.exposed, List.any_eq_false, List.any_eq_true, not_exists, not_and,
    Bool.not_eq_true]

theorem isRaw_isLineBreak : isRaw isLineBreak = isExposedBreak := by
  funext c
  rw [isRaw, isLineBreak, isExposedBreak, Bool.eq_iff_iff]
  simp only [Bool.and_eq_true, decide_eq_true_eq, List.contains_iff_mem, List.mem_cons,
    List.not_mem_nil, or_false]
  omega

theorem any_break_dumps (f : AuditFields) : (dumps f.toJson).any isLineBreak = f.exposed := by
  have hp : AvoidsAscii isLineBreak := by decide
  rw [any_dumps hp, any_toJson hp.isRaw, isRaw_isLineBreak, AuditFields.exposed]

theorem return_not_mem_dumps (f : AuditFields) : '\r' ∉ dumps f.toJson := by
  have hp : AvoidsAscii (· == '\r') := by decide
  have hraw (c) : isRaw (· == '\r') c = false := by
    rw [isRaw, Bool.and_eq_false_iff, beq_eq_false_iff_ne]
    by_cases hc : c = '\r'
    · exact .inl (by rw [hc]; rfl)
    · exact .inr hc
  have hnone : (dumps f.toJson).any (· == '\r') = false := by
    rw [any_dumps hp, any_toJson hp.isRaw, List.any_eq_false]
    intro t _ ht
    obtain ⟨c, _, hc⟩ := List.any_eq_true.1 ht
    rw [hraw] at hc
    cases hc
  intro h
  exact List.any_eq_false.1 hnone _ h (beq_self_eq_true _)

theorem dumps_toJson_eq (f : AuditFields) : ∃ t, dumps f.toJson = '{' :: t ++ ['}'] := ⟨_, rfl⟩

theorem isBlank_dumps (f : AuditFields) : isBlank (dumps f.toJson) = false := rfl

theorem writeAuditFallback_foldl (fs : List AuditFields) (w : AuditStore Row) (t : Text)
    (hw : w.live = some (encodeUtf8 t)) :
    fs.foldl writeAuditFallback w =
      { w with live := some (encodeUtf8 (t ++ fs.flatMap fallbackLine)) } := by
  induction fs generalizing w t with
  | nil =>
    rw [List.flatMap_nil, List.append_nil, ← hw]
    rfl
  | cons f fs ih =>
    have hlive : (writeAuditFallback w f).live = some (encodeUtf8 (t ++ fallbackLine f)) := by
      rw [writeAuditFallback, hw, Option.getD_some, encodeUtf8_append]
    rw [List.foldl_cons, ih _ _ hlive, List.flatMap_cons, List.append_assoc]
    rfl

theorem writeAuditFallback_foldl_live (f : AuditFields) (fs : List AuditFields) (w : AuditStore Row)
    (hw : w.live = none) :
    (f :: fs).foldl writeAuditFallback w =
      { w with live := some (encodeUtf8 ((f :: fs).flatMap fallbackLine)) } := by
  have hlive : (writeAuditFallback w f).live = some (encodeUtf8 (fallbackLine f)) := by
    rw [writeAuditFallback, hw, Option.getD_none, ByteArray.empty_append]
  rw [List.foldl_cons, writeAuditFallback_foldl fs _ _ hlive, List.flatMap_cons]
  rfl

theorem return_not_mem_file (fs : List AuditFields) : '\r' ∉ fs.flatMap fallbackLine := by
  intro h
  obtain ⟨f, _, hf⟩ := List.mem_flatMap.1 h
  rcases List.mem_append.1 hf with hf | hf
  · exact return_not_mem_dumps f hf
  · exact absurd hf (by decide)

theorem readLines_file (fs : List AuditFields) :
    readLines {} (encodeUtf8 (fs.flatMap fallbackLine)) =
      .ok (splitlines (fs.flatMap fallbackLine)) := by
  rw [readLines, if_neg Bool.false_ne_true, decodeUtf8_encodeUtf8]
  exact congrArg (Except.ok ∘ splitlines) (universalNewlines_eq (return_not_mem_file fs))

theorem splitlines_file {fs : List AuditFields} (h : ∀ f ∈ fs, AuditFields.exposed f = false) :
    splitlines (fs.flatMap fallbackLine) = fs.map fun f => dumps f.toJson := by
  induction fs with
  | nil => rw [List.flatMap_nil, splitlines, List.map_nil]
  | cons f fs ih =>
    have hline (c) (hc : c ∈ dumps f.toJson) : isLineBreak c = false := by
      have hany := (any_break_dumps f).trans (h f List.mem_cons_self)
      exact Bool.eq_false_iff.2 (List.any_eq_false.1 hany c hc)
    rw [List.flatMap_cons, fallbackLine, List.append_assoc, List.singleton_append,
      splitlines_line hline, ih fun g hg => h g (List.mem_cons_of_mem _ hg), List.map_cons]

/-- The number of lines with more than whitespace. -/
def lineCount (t : Text) : Nat := ((splitlines t).filter fun l => !isBlank l).length

theorem lineCount_append_break (hb : isLineBreak b) (hr : b ≠ '\r') (hu : '\r' ∉ u) (t : Text) :
    lineCount (u ++ b :: t) = lineCount (u ++ ['\n']) + lineCount t := by
  rw [lineCount, splitlines_append_break hb hr hu, List.filter_append, List.length_append]
  rfl

theorem lineCount_pos (hc : isSpace c = false) (hb : isLineBreak c = false) (h : c ∈ t) :
    1 ≤ lineCount t := by
  obtain ⟨l, hl, hcl⟩ := exists_mem_splitlines hb h
  have hblank : isBlank l = false := by
    rw [isBlank, List.all_eq_false]
    exact ⟨c, hcl, by rw [hc]; exact Bool.false_ne_true⟩
  have hmem : l ∈ (splitlines t).filter fun l => !isBlank l := by
    rw [List.mem_filter, hblank]
    exact ⟨hl, rfl⟩
  exact List.length_pos_of_mem hmem

/-- A line whose strings hold a break is at least two lines to the reader. -/
theorem lineCount_fallbackLine (f : AuditFields) :
    (if f.exposed then 2 else 1) ≤ lineCount (fallbackLine f) := by
  obtain ⟨t, ht⟩ := dumps_toJson_eq f
  have hopen : '{' ∈ fallbackLine f := by
    rw [fallbackLine, ht]
    exact List.mem_cons_self
  split
  · next hexp =>
    rw [← any_break_dumps f, List.any_eq_true] at hexp
    obtain ⟨b, hmem, hb⟩ := hexp
    have hreturn := return_not_mem_dumps f
    have hbr : b ≠ '\r' := by
      intro h
      exact hreturn (h ▸ hmem)
    have hbt : b ∈ t := by
      rw [ht] at hmem
      rcases List.mem_append.1 hmem with hmem | hmem
      · rcases List.mem_cons.1 hmem with rfl | hmem
        · cases hb
        · exact hmem
      · rw [List.mem_singleton.1 hmem] at hb
        cases hb
    obtain ⟨u, v, rfl⟩ := List.append_of_mem hbt
    have hsplit : fallbackLine f = ('{' :: u) ++ b :: (v ++ ['}', '\n']) := by
      rw [fallbackLine, ht]
      simp only [List.cons_append, List.append_assoc, List.nil_append]
    have hu : '\r' ∉ '{' :: u := by
      intro h
      apply hreturn
      rw [ht]
      exact List.mem_append_left _ (List.mem_append_left (b :: v) h)
    rw [hsplit, lineCount_append_break hb hbr hu]
    have hleft := lineCount_pos (c := '{') (t := '{' :: u ++ ['\n']) rfl rfl List.mem_cons_self
    have hright := lineCount_pos (c := '}') (t := v ++ ['}', '\n']) rfl rfl
      (List.mem_append_right _ List.mem_cons_self)
    omega
  · exact lineCount_pos rfl rfl hopen

theorem lineCount_file (fs : List AuditFields) :
    fs.length + (fs.countP AuditFields.exposed) ≤ lineCount (fs.flatMap fallbackLine) := by
  induction fs with
  | nil => exact Nat.zero_le _
  | cons f fs ih =>
    have hline := lineCount_fallbackLine f
    have hsplit : lineCount ((f :: fs).flatMap fallbackLine) =
        lineCount (fallbackLine f) + lineCount (fs.flatMap fallbackLine) := by
      rw [List.flatMap_cons, fallbackLine, List.append_assoc, List.singleton_append]
      exact lineCount_append_break rfl (by decide) (return_not_mem_dumps f) _
    rw [hsplit, List.length_cons, List.countP_cons]
    split at hline
    · next h =>
      rw [if_pos h]
      omega
    · next h =>
      rw [if_neg h]
      omega

section RoundTrip

variable {DateTime : Type} {fromisoformat : Text → Option DateTime} {loads : Text → Option Json}
variable {auditLog : Text → Option Row}

theorem auditField_of_ne (hcost : k ≠ "cost_usd".toList) (hts : k ≠ "ts".toList) (j : Json) :
    auditField fromisoformat (k, j) = some (k, .json j) := by
  rw [auditField, if_neg hcost]
  cases j with
  | str t => exact if_neg hts
  | _ => rfl

theorem auditField_cost (d : Decimal) :
    auditField fromisoformat ("cost_usd".toList, .str d.str) =
      some ("cost_usd".toList, .decimal d) := by
  have hcost : decimalOf (.str d.str) = some d := Decimal.ofText_str d
  rw [auditField, if_pos]
  · rw [hcost]
    rfl
  · rfl

/-- The member is kept, and it is read as the given value. -/
def ReadsAs (fromisoformat : Text → Option DateTime) (item : Text × Json)
    (value : Text × AuditValue DateTime) : Prop :=
  auditColumns.contains item.1 ∧ auditField fromisoformat item = some value

theorem auditFieldsFromJson_obj (h : List.Forall₂ (ReadsAs fromisoformat) items values) :
    auditFieldsFromJson fromisoformat (.obj items) = some values := by
  rw [auditFieldsFromJson]
  induction h with
  | nil => rfl
  | @cons item value items values h hs ih =>
    have hfilter : (item :: items).filter (fun item => auditColumns.contains item.1) =
        item :: items.filter fun item => auditColumns.contains item.1 :=
      List.filter_cons_of_pos h.1
    rw [hfilter, List.mapM_cons, h.2, ih]
    rfl

theorem auditFieldsFromJson_toJson (f : AuditFields) :
    auditFieldsFromJson fromisoformat f.toJson = some (f.items DateTime) := by
  have hfield (k : Text) (hk : auditColumns.contains k ∧ k ≠ "cost_usd".toList ∧ k ≠ "ts".toList)
      (j : Json) : ReadsAs fromisoformat (k, j) (k, .json j) :=
    ⟨hk.1, auditField_of_ne hk.2.1 hk.2.2 j⟩
  have hcost : ReadsAs fromisoformat ("cost_usd".toList, .str f.costUsd.str)
      ("cost_usd".toList, .decimal f.costUsd) := by
    constructor
    · have hcolumn : auditColumns.contains "cost_usd".toList := by decide
      exact hcolumn
    · exact auditField_cost f.costUsd
  apply auditFieldsFromJson_obj
  apply List.Forall₂.cons (hfield "request_id".toList (by decide) _)
  apply List.Forall₂.cons (hfield "principal_hash".toList (by decide) _)
  apply List.Forall₂.cons (hfield "org_id".toList (by decide) _)
  apply List.Forall₂.cons (hfield "api_key_id".toList (by decide) _)
  apply List.Forall₂.cons (hfield "provider".toList (by decide) _)
  apply List.Forall₂.cons (hfield "model".toList (by decide) _)
  apply List.Forall₂.cons (hfield "status_code".toList (by decide) _)
  apply List.Forall₂.cons (hfield "error_type".toList (by decide) _)
  apply List.Forall₂.cons (hfield "prompt_tokens".toList (by decide) _)
  apply List.Forall₂.cons (hfield "completion_tokens".toList (by decide) _)
  apply List.Forall₂.cons (hfield "total_tokens".toList (by decide) _)
  apply List.Forall₂.cons hcost
  apply List.Forall₂.cons (hfield "latency_ms".toList (by decide) _)
  exact .cons (hfield "stream".toList (by decide) _) .nil

theorem auditLogOfLine_dumps (h : loads (dumps f.toJson) = some f.toJson) :
    auditLogOfLine fromisoformat loads (dumps f.toJson) = some (AuditFields.items DateTime f) := by
  rw [auditLogOfLine, h, Option.bind_some, auditFieldsFromJson_toJson]

theorem replayLines_completes {xs : List α} (line : α → Text) (row : α → Row)
    (h : ∀ a ∈ xs, isBlank (line a) = false ∧ auditLog (line a) = some (row a))
    (st : ReplayLoop Row) :
    replayLines auditLog (fun _ => .completes) st.nextLineIndex (xs.map line) st =
      ({ st with
          replayed := st.replayed + xs.length
          nextLineIndex := st.nextLineIndex + xs.length
          rows := st.rows ++ xs.map row }, false) := by
  induction xs generalizing st with
  | nil =>
    rw [List.map_nil, List.map_nil, List.append_nil]
    rfl
  | cons a xs ih =>
    obtain ⟨hblank, hrow⟩ := h a List.mem_cons_self
    have hstep : replayLine auditLog .completes st.nextLineIndex (line a) st =
        ({ st with
            rows := st.rows ++ [row a]
            replayed := st.replayed + 1
            nextLineIndex := st.nextLineIndex + 1 }, false) := by
      rw [replayLine, if_neg (by rw [hblank]; exact Bool.false_ne_true), hrow]
      rfl
    have hrest := ih (fun b hb => h b (List.mem_cons_of_mem _ hb))
      { st with
        rows := st.rows ++ [row a]
        replayed := st.replayed + 1
        nextLineIndex := st.nextLineIndex + 1 }
    have hlen (n : Nat) : n + (xs.length + 1) = n + 1 + xs.length := by omega
    rw [List.map_cons, replayLines, hstep]
    simp only [hrest, List.length_cons, List.map_cons, List.append_assoc, List.singleton_append,
      hlen]

theorem replaySnapshot_completes {xs : List α} (line : α → Text) (row : α → Row)
    (w : AuditStore Row) (hread : readLines {} content = .ok (xs.map line))
    (h : ∀ a ∈ xs, isBlank (line a) = false ∧ auditLog (line a) = some (row a)) :
    replaySnapshot auditLog {} w content =
      ({ w with snapshot := none, rows := w.rows ++ xs.map row }, .returned xs.length 0) := by
  have hrun := replayLines_completes line row h { rows := w.rows }
  rw [replaySnapshot, hread]
  simp only [hrun, finishReplay, appendAuditQuarantine, Nat.zero_add]
  rw [List.drop_eq_nil_of_le (by rw [List.length_map])]
  rfl

theorem replaySnapshot_file_returned {fs : List AuditFields} {w : AuditStore Row}
    (hw : w.snapshot = some (encodeUtf8 (fs.flatMap fallbackLine)))
    (h : (replaySnapshot auditLog {} w (encodeUtf8 (fs.flatMap fallbackLine))).2 =
      .returned replayed failed) : replayed + failed = lineCount (fs.flatMap fallbackLine) := by
  have hread : Readable {} (encodeUtf8 (fs.flatMap fallbackLine)) := by
    constructor
    · rfl
    · rw [decodeUtf8_encodeUtf8]
      rfl
  obtain ⟨r, f, hperm, rfl, rfl, _⟩ := (replaySnapshot_of_readable hread hw).2 _ _ h
  have hlines : nonBlankLines (encodeUtf8 (fs.flatMap fallbackLine)) =
      (splitlines (fs.flatMap fallbackLine)).filter fun l => !isBlank l := by
    rw [nonBlankLines, decodeUtf8_encodeUtf8]
    simp only [universalNewlines_eq (return_not_mem_file fs)]
  rw [lineCount, ← hlines, ← hperm.length_eq, List.length_append]

/-- Writing the dictionaries to a fresh file and replaying it gives their rows, none failed. -/
def RoundTrips (fromisoformat : Text → Option DateTime) (loads : Text → Option Json)
    (fs : List AuditFields) (quarantine : Text)
    (rows : List (List (Text × AuditValue DateTime))) : Prop :=
  let out := replayAuditFallback (auditLogOfLine fromisoformat loads) true true {}
    (fs.foldl writeAuditFallback ⟨none, none, quarantine, rows⟩)
  out.2 = .returned fs.length 0 ∧ out.1.quarantine = quarantine ∧
    out.1.rows = rows ++ fs.map fun f => f.items DateTime

theorem foldl_write_replay {fs : List AuditFields} (hfs : fs ≠ []) (quarantine : Text)
    (rows : List Row) :
    replayAuditFallback auditLog true true {}
        (fs.foldl writeAuditFallback ⟨none, none, quarantine, rows⟩) =
      replaySnapshot auditLog {}
        ⟨none, some (encodeUtf8 (fs.flatMap fallbackLine)), quarantine, rows⟩
        (encodeUtf8 (fs.flatMap fallbackLine)) := by
  cases fs with
  | nil => exact (hfs rfl).elim
  | cons f fs =>
    rw [writeAuditFallback_foldl_live f fs (w := ⟨none, none, quarantine, rows⟩) rfl,
      replayAuditFallback_of_renamed rfl]

/-- A replay that counts the lines as they were written has met no exposed break. -/
theorem exposed_of_returned {fs : List AuditFields} {rows : List Row}
    (h : (replayAuditFallback auditLog true true {}
      (fs.foldl writeAuditFallback ⟨none, none, quarantine, rows⟩)).2 = .returned fs.length 0) :
    ∀ f ∈ fs, AuditFields.exposed f = false := by
  intro f hf
  rw [foldl_write_replay (List.ne_nil_of_mem hf)] at h
  have hcount := replaySnapshot_file_returned rfl h
  have hlines := lineCount_file fs
  have hzero : fs.countP AuditFields.exposed = 0 := by omega
  exact Bool.eq_false_iff.2 (List.countP_eq_zero.1 hzero f hf)

theorem RoundTrips.exposed (h : RoundTrips fromisoformat loads fs quarantine rows) :
    ∀ f ∈ fs, f.exposed = false := exposed_of_returned h.1

theorem RoundTrips.of_exposed (hloads : ∀ f ∈ fs, loads (dumps f.toJson) = some f.toJson)
    (h : ∀ f ∈ fs, f.exposed = false) : RoundTrips fromisoformat loads fs quarantine rows := by
  rw [RoundTrips]
  by_cases hfs : fs = []
  · rw [hfs]
    exact ⟨rfl, rfl, (List.append_nil rows).symm⟩
  · have hread := (readLines_file fs).trans (congrArg Except.ok (splitlines_file h))
    rw [foldl_write_replay hfs, replaySnapshot_completes _ _ _ hread
      fun f hf => ⟨isBlank_dumps f, auditLogOfLine_dumps (hloads f hf)⟩]
    exact ⟨rfl, rfl, rfl⟩

end RoundTrip

def fieldsOfRequest (requestId : Text) : AuditFields where
  requestId := requestId
  principalHash := some "p".toList
  orgId := none
  apiKeyId := none
  provider := none
  model := none
  statusCode := 400
  errorType := none
  promptTokens := 0
  completionTokens := 0
  totalTokens := 0
  costUsd := ⟨false, 0, 0⟩
  latencyMs := 3
  stream := false

/-- `json.loads` on the lines of the given dictionaries, and on what is no JSON. -/
def loadsOf (fs : List AuditFields) (line : Text) : Option Json :=
  (fs.find? fun f => dumps f.toJson = line).map AuditFields.toJson

theorem loadsOf_head (f : AuditFields) (fs : List AuditFields) :
    loadsOf (f :: fs) (dumps f.toJson) = some f.toJson := by
  rw [loadsOf, List.find?_cons, decide_eq_true rfl, Option.map_some]

theorem loadsOf_tail (h : dumps g.toJson ≠ line) :
    loadsOf (g :: fs) line = loadsOf fs line := by
  rw [loadsOf, loadsOf, List.find?_cons, decide_eq_false h]

/-- The request id of a client that holds a next-line character. -/
def nextLineFields : AuditFields := fieldsOfRequest ['a', Char.ofNat 0x85, 'b']

theorem fallback_nextLine_fails :
    loadsOf [nextLineFields] (dumps nextLineFields.toJson) = some nextLineFields.toJson ∧
      ¬ RoundTrips (fun _ => (none : Option Unit)) (loadsOf [nextLineFields]) [nextLineFields]
        [] [] := by
  constructor
  · exact loadsOf_head _ _
  · intro h
    have hexposed := h.exposed nextLineFields List.mem_cons_self
    have hbreak : nextLineFields.exposed = true := by decide
    rw [hbreak] at hexposed
    cases hexposed

theorem fallback_roundTrips_iff (fromisoformat : Text → Option DateTime)
    (loads : Text → Option Json) (fs : List AuditFields)
    (hloads : ∀ f ∈ fs, loads (dumps f.toJson) = some f.toJson) (quarantine : Text)
    (rows : List (List (Text × AuditValue DateTime))) :
    RoundTrips fromisoformat loads fs quarantine rows ↔
      ∀ f ∈ fs, ∀ t ∈ f.texts, ∀ c ∈ t, isExposedBreak c = false := by
  simp only [← AuditFields.exposed_eq_false]
  exact ⟨RoundTrips.exposed, RoundTrips.of_exposed hloads⟩

def plainFields : List AuditFields :=
  [fieldsOfRequest "a\n\"b\"".toList, fieldsOfRequest "한글".toList]

theorem fallback_roundTrips_iff_plain :
    RoundTrips (fun _ => (none : Option Unit)) (loadsOf plainFields) plainFields [] [] := by
  have hall : plainFields.all fun f => f.texts.all fun t => t.all fun c => !isExposedBreak c := by
    decide
  apply (fallback_roundTrips_iff _ _ _ _ _ _).2
  · intro f hf t ht c hc
    have hc := List.all_eq_true.1 (List.all_eq_true.1 (List.all_eq_true.1 hall f hf) t ht) c hc
    rwa [Bool.not_eq_true'] at hc
  · intro f hf
    rcases List.mem_cons.1 hf with rfl | hf
    · exact loadsOf_head _ _
    · rw [List.mem_singleton.1 hf, plainFields, loadsOf_tail (by decide +kernel)]
      exact loadsOf_head _ _

end AiServing
