import AiServing.ChatFrames
import AiServing.JsonUnique
import AiServing.LogSanitizer

namespace AiServing
open Dictionary
set_option autoImplicit true

/-- A value for the logger that is no container and not `None`. `object` is one that the encoder
knows only by its `str`. -/
inductive LogScalar
  | bool (b : Bool)
  | int (n : Int)
  | float (x : FloatText)
  | str (t : Text)
  | object (str : Text)

def LogScalar.toJson : LogScalar → Json
  | bool b => .bool b
  | int n => .int n
  | float x => .float x
  | str t => .str t
  | object t => .str t

mutual

/-- What the encoder makes of a value under `default=str`. -/
def LogValue.toJson : LogValue LogScalar → Json
  | .none => .null
  | .scalar x => x.toJson
  | .list items | .tuple items => .arr (itemsJson items)
  | .dict fields => .obj (fieldsJson fields)

def itemsJson : List (LogValue LogScalar) → List Json
  | [] => []
  | item :: items => item.toJson :: itemsJson items

def fieldsJson : List (Text × LogValue LogScalar) → List (Text × Json)
  | [] => []
  | (key, value) :: fields => (key, value.toJson) :: fieldsJson fields

end

/-- A record, at the time when it is formatted, with the name of the class of its exception. -/
structure LogRecord where
  time : Text
  levelname : Text
  name : Text
  message : Text
  extraFields : Option (ExtraFields LogScalar) := none
  exception : Option Text := none

namespace LogRecord

variable (record : LogRecord)

def basePayload : Dict Text Json where
  entries :=
    [("timestamp".toList, .str record.time), ("level".toList, .str record.levelname),
      ("logger".toList, .str record.name), ("message".toList, .str record.message)]
  nodup := (by decide : ["timestamp".toList, "level".toList, "logger".toList,
    "message".toList].Nodup)

/-- The fields that pass the sanitizer, and `payload.update`. -/
def keptFields : List (Text × LogValue LogScalar) :=
  record.extraFields.elim [] fun e => e.sanitize.fields

def updated : Dict Text Json :=
  record.keptFields.foldl (fun payload field => payload.set field.1 field.2.toJson)
    record.basePayload

def payload : Dict Text Json :=
  record.exception.elim record.updated fun name =>
    record.updated.set "exception_class".toList (.str name)

def format : Text := dumps (.obj record.payload.entries)

end LogRecord

/-- What the handler writes for a list of records. -/
def logText (records : List LogRecord) : Text := records.flatMap fun record => record.format ++ ['\n']

mutual

/-- The names in a value, at any depth. -/
def Json.keys : Json → List Text
  | .arr items => itemKeys items
  | .obj members => memberKeys members
  | _ => []

def itemKeys : List Json → List Text
  | [] => []
  | j :: items => j.keys ++ itemKeys items

def memberKeys : List (Text × Json) → List Text
  | [] => []
  | (k, j) :: members => k :: j.keys ++ memberKeys members

end

/-- No name in a value is that of a secret. -/
def Json.Unsecret (j : Json) : Prop := ∀ k ∈ j.keys, isSecretField k = false

theorem format_no_newline (record : LogRecord) : '\n' ∉ record.format :=
  newline_not_mem (any_isControl_dumps _)

theorem splitOn_logText (records : List LogRecord) :
    (logText records).splitOn '\n' = records.map LogRecord.format ++ [[]] := by
  induction records with
  | nil => rfl
  | cons record records ih =>
    rw [logText, List.flatMap_cons, List.append_assoc, List.singleton_append,
      List.splitOn_append_cons_self, List.splitOn_eq_singleton (format_no_newline record)]
    exact congrArg (record.format :: ·) ih

theorem format_inj {record record' : LogRecord} (h : record.format = record'.format) :
    record.payload = record'.payload := by
  have hends : EndsNumber [] := fun _ hc => nomatch hc
  obtain ⟨hobj, _⟩ := dumps_unique hends hends (congrArg (· ++ []) h)
  have hentries := Json.obj.inj hobj
  cases hpayload : record.payload with
  | mk entries nodup =>
    cases hpayload' : record'.payload with
    | mk entries' nodup' =>
      rw [hpayload, hpayload'] at hentries
      cases hentries
      rfl

theorem logText_eq_iff {records others : List LogRecord} :
    logText others = logText records ↔
      others.map LogRecord.payload = records.map LogRecord.payload := by
  constructor
  · intro h
    have hlines := congrArg (List.splitOn '\n') h
    rw [splitOn_logText, splitOn_logText] at hlines
    have hformats := List.append_cancel_right hlines
    clear hlines h
    induction others generalizing records with
    | nil =>
      cases records with
      | nil => rfl
      | cons record records => cases hformats
    | cons other others ih =>
      cases records with
      | nil => cases hformats
      | cons record records =>
        obtain ⟨hfirst, hrest⟩ := List.cons.inj hformats
        rw [List.map_cons, List.map_cons, format_inj hfirst, ih hrest]
  · intro h
    have hlog (records : List LogRecord) : logText records =
        (records.map LogRecord.payload).flatMap fun payload =>
          dumps (.obj payload.entries) ++ ['\n'] := by
      rw [List.flatMap_map]
      rfl
    rw [hlog, hlog, h]

theorem memberKeys_eq (members : List (Text × Json)) :
    memberKeys members = members.flatMap fun m => m.1 :: m.2.keys := by
  induction members with
  | nil => rfl
  | cons m members ih => rw [memberKeys, ih, List.flatMap_cons]

theorem LogScalar.toJson_unsecret (x : LogScalar) : x.toJson.Unsecret := by
  intro k hk
  cases x with
  | bool b => cases hk
  | int n => cases hk
  | float x => cases hk
  | str t => cases hk
  | object t => cases hk

mutual

theorem sanitizeExtraValue_unsecret :
    ∀ v : LogValue LogScalar, (sanitizeExtraValue v).toJson.Unsecret
  | .none => fun _ hk => nomatch hk
  | .scalar x => x.toJson_unsecret
  | .list items | .tuple items => sanitizeItems_unsecret items
  | .dict fields => sanitizeExtraFields_unsecret fields

theorem sanitizeItems_unsecret : ∀ items : List (LogValue LogScalar),
    ∀ k ∈ itemKeys (itemsJson (sanitizeItems items)), isSecretField k = false
  | [], _, hk => nomatch hk
  | item :: items, k, hk => by
    rcases List.mem_append.1 hk with hk | hk
    · exact sanitizeExtraValue_unsecret item k hk
    · exact sanitizeItems_unsecret items k hk

theorem sanitizeExtraFields_unsecret : ∀ fields : List (Text × LogValue LogScalar),
    ∀ k ∈ memberKeys (fieldsJson (sanitizeExtraFields fields)), isSecretField k = false
  | [], _, hk => nomatch hk
  | (key, value) :: fields, k, hk => by
    cases h : value.isNone || isSecretField key with
    | true =>
      rw [sanitizeExtraFields, if_pos h] at hk
      exact sanitizeExtraFields_unsecret fields k hk
    | false =>
      rw [sanitizeExtraFields, h, if_neg Bool.false_ne_true] at hk
      rcases List.mem_cons.1 hk with rfl | hk
      · exact (Bool.or_eq_false_iff.1 h).2
      · rcases List.mem_append.1 hk with hk | hk
        · exact sanitizeExtraValue_unsecret value k hk
        · exact sanitizeExtraFields_unsecret fields k hk

end

/-- No name in the entries is that of a secret, at any depth. -/
def UnsecretEntries (d : Dict Text Json) : Prop :=
  ∀ e ∈ d.entries, isSecretField e.1 = false ∧ e.2.Unsecret

theorem UnsecretEntries.set {d : Dict Text Json} (hd : UnsecretEntries d)
    (hk : isSecretField k = false) (hj : Json.Unsecret j) : UnsecretEntries (d.set k j) := by
  rintro ⟨k', j'⟩ he
  rw [Dict.mem_entries, Dict.get?_set] at he
  split at he
  · next heq =>
    cases he
    exact ⟨heq ▸ hk, hj⟩
  · exact hd (k', j') (Dict.mem_entries.2 he)

theorem UnsecretEntries.update (fields : List (Text × LogValue LogScalar)) {d : Dict Text Json}
    (hd : UnsecretEntries d) :
    UnsecretEntries ((sanitizeExtraFields fields).foldl (fun d field => d.set field.1 field.2.toJson)
      d) := by
  rw [sanitizeExtraFields_eq, List.foldl_map]
  have hkept : ∀ field ∈ fields.filter keepsField, isSecretField field.1 = false :=
    fun field hfield => (keepsField_eq_true.1 (List.mem_filter.1 hfield).2).1
  generalize fields.filter keepsField = kept at hkept
  induction kept generalizing d with
  | nil => exact hd
  | cons field kept ih =>
    exact ih (hd.set (hkept field List.mem_cons_self) (sanitizeExtraValue_unsecret field.2))
      fun field hfield => hkept field (List.mem_cons_of_mem _ hfield)

theorem payload_unsecret (record : LogRecord) : UnsecretEntries record.payload := by
  have hbase : UnsecretEntries record.basePayload := by
    intro e he
    have hkeys : ∀ k ∈ ["timestamp".toList, "level".toList, "logger".toList, "message".toList],
        isSecretField k = false := by decide
    refine ⟨hkeys e.1 (List.mem_map_of_mem he), ?_⟩
    intro k hk
    rcases List.mem_cons.1 he with rfl | he
    · cases hk
    rcases List.mem_cons.1 he with rfl | he
    · cases hk
    rcases List.mem_cons.1 he with rfl | he
    · cases hk
    rcases List.mem_cons.1 he with rfl | he
    · cases hk
    · cases he
  have hupdated : UnsecretEntries record.updated := by
    rw [LogRecord.updated, LogRecord.keptFields]
    cases record.extraFields with
    | none => exact hbase
    | some e => exact hbase.update e.fields
  rw [LogRecord.payload]
  cases record.exception with
  | none => exact hupdated
  | some name => exact hupdated.set (by decide) fun _ hk => nomatch hk

theorem payload_kept {record : LogRecord} {field : Text × LogValue LogScalar}
    (hfield : field ∈ record.keptFields)
    (hname : record.exception = none ∨ field.1 ≠ "exception_class".toList) :
    record.payload.get? field.1 = some field.2.toJson := by
  have hnodup : (record.keptFields.map Prod.fst).Nodup := by
    rw [LogRecord.keptFields]
    cases record.extraFields with
    | none => exact List.nodup_nil
    | some e => exact e.sanitize.wellFormed [] e.sanitize.fields rfl
  have hupdated : record.updated.get? field.1 = some field.2.toJson :=
    Dict.get?_foldl_set hnodup record.basePayload hfield
  rw [LogRecord.payload]
  cases hexception : record.exception with
  | none => exact hupdated
  | some name =>
    have hne := hname.resolve_left (by rw [hexception]; exact Option.some_ne_none name)
    rw [Option.elim_some, Dict.get?_set, if_neg hne]
    exact hupdated

end AiServing
