import AiServing.PatternSearch
import AiServing.UnicodeClasses
import AiServing.Dictionary

namespace AiServing
open Backtrack Pattern
set_option autoImplicit true

/-- A value given to the logger; `scalar` is any value that is no container and not `None`. -/
inductive LogValue (σ : Type u) where
  | none
  | scalar (x : σ)
  | list (items : List (LogValue σ))
  | tuple (items : List (LogValue σ))
  | dict (fields : List (Text × LogValue σ))

/-- The characters that a lower-case letter of a pattern matches under `re.IGNORECASE`. -/
def matchesLetter (letter c : Char) : Bool :=
  c.toLower == letter ||
    -- beyond ASCII: the dotted and the dotless i, the long s and the Kelvin sign
    (letter == 'i' && (c.toNat == 0x130 || c.toNat == 0x131)) ||
    (letter == 's' && c.toNat == 0x17f) || (letter == 'k' && c.toNat == 0x212a)

/-- Matches the empty text only. -/
def emptyWord : Pattern Char := many (fun _ => false) 0

def word (letters : String) : Pattern Char :=
  letters.toList.foldr (fun letter r => seq (cls (matchesLetter letter)) r) emptyWord

/-- `(api[_-]?key|authorization|token|secret|\bkey\b)` with `re.IGNORECASE`. -/
def SECRET_FIELD_RE : Pattern Char :=
  group 1 <| alt (seq (word "api") (seq (rep (cls fun c => c == '_' || c == '-') 0 1) (word "key"))) <|
    alt (word "authorization") <| alt (word "token") <| alt (word "secret") <|
      seq (boundary isWord) (seq (word "key") (boundary isWord))

/-- `SECRET_FIELD_RE.search(key)` finds a match. -/
def isSecretField (key : Text) : Bool := (SECRET_FIELD_RE.search key).isSome

example : (["API-Key", "apikey", "Authorization", "prompt_tokens", "public-key", "ToKen"].map
    fun key => isSecretField key.toList) = [true, true, true, true, true, true] := by decide

example : (["monkey", "public_key", "api__key", "status"].map
    fun key => isSecretField key.toList) = [false, false, false, false] := by decide

def LogValue.isNone : LogValue σ → Bool
  | .none => true
  | _ => false

def keepsField (field : Text × LogValue σ) : Bool := !(field.2.isNone || isSecretField field.1)

mutual

def sanitizeExtraValue : LogValue σ → LogValue σ
  | .dict fields => .dict (sanitizeExtraFields fields)
  | .list items | .tuple items => .list (sanitizeItems items)
  | .none => .none
  | .scalar x => .scalar x

def sanitizeItems : List (LogValue σ) → List (LogValue σ)
  | [] => []
  | item :: items => sanitizeExtraValue item :: sanitizeItems items

/-- The keys of a dictionary differ, so every assignment appends. -/
def sanitizeExtraFields : List (Text × LogValue σ) → List (Text × LogValue σ)
  | [] => []
  | (key, value) :: fields =>
    if value.isNone || isSecretField key then sanitizeExtraFields fields
    else (key, sanitizeExtraValue value) :: sanitizeExtraFields fields

end

theorem sanitizeItems_eq (items : List (LogValue σ)) :
    sanitizeItems items = items.map sanitizeExtraValue := by
  induction items with
  | nil => rfl
  | cons item items ih => rw [sanitizeItems, ih, List.map_cons]

theorem sanitizeExtraFields_eq (fields : List (Text × LogValue σ)) :
    sanitizeExtraFields fields =
      (fields.filter keepsField).map fun e => (e.1, sanitizeExtraValue e.2) := by
  induction fields with
  | nil => rfl
  | cons field fields ih =>
    obtain ⟨key, value⟩ := field
    cases h : value.isNone || isSecretField key with
    | true =>
      have hdrop : keepsField (key, value) = false := by simp [keepsField, h]
      simp only [sanitizeExtraFields, h, if_true, List.filter_cons, hdrop, ih]
      rfl
    | false =>
      have hkeep : keepsField (key, value) = true := by simp [keepsField, h]
      simp only [sanitizeExtraFields, h, List.filter_cons, hkeep, ih, if_true]
      rfl

/-- A step from a container to one of its parts. -/
inductive LogStep where
  | key (k : Text)
  | index (i : Nat)

namespace LogValue

def child : LogValue σ → LogStep → Option (LogValue σ)
  | .dict fields, .key k => (fields.find? fun e => e.1 = k).map Prod.snd
  | .list items, .index i | .tuple items, .index i => items[i]?
  | _, _ => Option.none

/-- What stands at a place of a value. -/
def place (v : LogValue σ) : List LogStep → Option (LogValue σ)
  | [] => some v
  | s :: path => (v.child s).bind fun c => c.place path

/-- No dictionary of a value, at any depth, has a key twice. -/
def WellFormed (v : LogValue σ) : Prop :=
  ∀ path fields, v.place path = some (.dict fields) → (fields.map Prod.fst).Nodup

theorem WellFormed.child {v : LogValue σ} (h : v.WellFormed) (hc : v.child s = some c) :
    c.WellFormed := by
  intro path fields hp
  apply h (s :: path) fields
  rw [place, hc]
  exact hp

end LogValue

/-- The keys on the way to a place, and what may not stand there, for it to be logged. -/
structure Survives (path : List LogStep) (x : LogValue σ) : Prop where
  keys : ∀ k, .key k ∈ path → isSecretField k = false
  value : ∀ k, path.getLast? = some (.key k) → x ≠ .none

def keeps (x : LogValue σ) : LogStep → Bool
  | .key k => keepsField (k, x)
  | .index _ => true

theorem find?_sanitizeExtraFields {fields : List (Text × LogValue σ)}
    (h : (fields.map Prod.fst).Nodup) (k : Text) :
    ((sanitizeExtraFields fields).find? fun e => e.1 = k).map Prod.snd =
      (((fields.find? fun e => e.1 = k).map Prod.snd).filter fun x => keeps x (.key k)).map
        sanitizeExtraValue := by
  rw [sanitizeExtraFields_eq, List.find?_map]
  change ((((fields.filter keepsField).find? fun e => e.1 = k).map _).map Prod.snd) = _
  rw [Dictionary.Dict.find?_filter_key h]
  cases hf : fields.find? fun e => e.1 = k with
  | none => rfl
  | some e =>
    have hkey := List.find?_some hf
    obtain rfl : e.1 = k := of_decide_eq_true hkey
    cases hp : keepsField e with
    | true => simp only [keeps, Option.filter_some, hp, if_true, Option.map_some]
    | false =>
      simp only [keeps, Option.filter_some, hp, Option.map_some]
      rfl

theorem child_sanitizeExtraValue {v : LogValue σ} (h : v.WellFormed) (s : LogStep) :
    (sanitizeExtraValue v).child s =
      ((v.child s).filter fun x => keeps x s).map sanitizeExtraValue := by
  cases v with
  | none | scalar x => cases s <;> simp [sanitizeExtraValue, LogValue.child]
  | list items | tuple items =>
    cases s with
    | key k => simp [sanitizeExtraValue, LogValue.child]
    | index i =>
      simp only [sanitizeExtraValue, LogValue.child, sanitizeItems_eq, List.getElem?_map, keeps]
      cases items[i]? <;> rfl
  | dict fields =>
    cases s with
    | key k =>
      rw [sanitizeExtraValue, LogValue.child, LogValue.child]
      exact find?_sanitizeExtraFields (h [] fields rfl) k
    | index i => simp [sanitizeExtraValue, LogValue.child]

theorem LogValue.ne_none_of_child {v : LogValue σ} (h : v.child s = some c) : v ≠ .none := by
  intro hv
  rw [hv] at h
  cases s <;> cases h

theorem keepsField_eq_true {value : LogValue σ} :
    keepsField (key, value) = true ↔ isSecretField key = false ∧ value ≠ .none := by
  cases value <;> simp [keepsField, LogValue.isNone]

theorem survives_cons {c x : LogValue σ} (hx : c.place path = some x) :
    Survives (s :: path) x ↔ keeps c s ∧ Survives path x := by
  constructor
  · intro h
    refine ⟨?_, fun k hk => h.keys k (List.mem_cons_of_mem s hk), ?_⟩
    · cases s with
      | index i => rfl
      | key k =>
        apply keepsField_eq_true.2
        refine ⟨h.keys k List.mem_cons_self, ?_⟩
        cases path with
        | nil =>
          obtain rfl : c = x := Option.some.inj hx
          exact h.value k rfl
        | cons t path =>
          obtain ⟨d, hd, _⟩ := Option.bind_eq_some_iff.1 hx
          exact LogValue.ne_none_of_child hd
    · intro k hk
      apply h.value k
      rw [List.getLast?_cons, hk]
      rfl
  · intro ⟨hk, h⟩
    constructor
    · intro k hmem
      rcases List.mem_cons.1 hmem with rfl | hmem
      · exact (keepsField_eq_true.1 hk).1
      · exact h.keys k hmem
    · intro k hlast
      cases path with
      | nil =>
        obtain rfl : c = x := Option.some.inj hx
        obtain rfl : s = .key k := Option.some.inj hlast
        exact (keepsField_eq_true.1 hk).2
      | cons t path => exact h.value k hlast

/-- What stands in the sanitized value is what survives of the value, sanitized. -/
theorem place_sanitizeExtraValue {v : LogValue σ} (h : v.WellFormed) (path : List LogStep)
    (y : LogValue σ) :
    (sanitizeExtraValue v).place path = some y ↔
      ∃ x, v.place path = some x ∧ Survives path x ∧ sanitizeExtraValue x = y := by
  induction path generalizing v with
  | nil =>
    simp only [LogValue.place, Option.some.injEq]
    constructor
    · intro hy
      exact ⟨v, rfl, ⟨by simp, by simp⟩, hy⟩
    · intro ⟨x, hx, _, hy⟩
      rw [hx, hy]
  | cons s path ih =>
    simp only [LogValue.place, child_sanitizeExtraValue h]
    cases hc : v.child s with
    | none => simp
    | some c =>
      cases hk : keeps c s with
      | true =>
        simp only [Option.filter_some, hk, if_true, Option.map_some, Option.bind_some,
          ih (h.child hc)]
        apply exists_congr
        intro x
        apply and_congr_right
        intro hx
        rw [survives_cons hx, hk]
        simp
      | false =>
        simp only [Option.filter_some, hk, Option.bind_some]
        constructor
        · intro hy
          cases hy
        · intro ⟨x, hx, hs, _⟩
          rw [survives_cons hx, hk] at hs
          cases hs.1

theorem LogValue.WellFormed.sanitize {v : LogValue σ} (h : v.WellFormed) :
    (sanitizeExtraValue v).WellFormed := by
  intro path fields hp
  obtain ⟨x, hx, _, hy⟩ := (place_sanitizeExtraValue h path _).1 hp
  cases x with
  | dict fields' =>
    cases hy
    rw [sanitizeExtraFields_eq, List.map_map]
    exact (h path fields' hx).sublist (List.filter_sublist.map _)
  | none | scalar | list | tuple => simp [sanitizeExtraValue] at hy

theorem LogValue.isNone_sanitizeExtraValue (v : LogValue σ) :
    (sanitizeExtraValue v).isNone = v.isNone := by
  cases v <;> rfl

mutual

theorem sanitizeExtraValue_idem : ∀ v : LogValue σ,
    sanitizeExtraValue (sanitizeExtraValue v) = sanitizeExtraValue v
  | .none => rfl
  | .scalar _ => rfl
  | .list items | .tuple items => congrArg LogValue.list (sanitizeItems_idem items)
  | .dict fields => congrArg LogValue.dict (sanitizeExtraFields_idem fields)

theorem sanitizeItems_idem : ∀ items : List (LogValue σ),
    sanitizeItems (sanitizeItems items) = sanitizeItems items
  | [] => rfl
  | item :: items => by
    rw [sanitizeItems, sanitizeItems, sanitizeExtraValue_idem item, sanitizeItems_idem items]

theorem sanitizeExtraFields_idem : ∀ fields : List (Text × LogValue σ),
    sanitizeExtraFields (sanitizeExtraFields fields) = sanitizeExtraFields fields
  | [] => rfl
  | (key, value) :: fields => by
    have ih := sanitizeExtraFields_idem fields
    cases h : value.isNone || isSecretField key with
    | true => rw [sanitizeExtraFields, if_pos h, ih]
    | false =>
      have h' : ((sanitizeExtraValue value).isNone || isSecretField key) = false := by
        rw [LogValue.isNone_sanitizeExtraValue, h]
      simp only [sanitizeExtraFields, h, h', Bool.false_eq_true, if_false,
        sanitizeExtraValue_idem value, ih]

end

/-- The `extra_fields` of a log record. -/
structure ExtraFields (σ : Type u) where
  fields : List (Text × LogValue σ)
  wellFormed : (LogValue.dict fields).WellFormed

namespace ExtraFields

def value (e : ExtraFields σ) : LogValue σ := .dict e.fields

def sanitize (e : ExtraFields σ) : ExtraFields σ :=
  ⟨sanitizeExtraFields e.fields, e.wellFormed.sanitize⟩

end ExtraFields

/-- A record is logged without its secrets and its missing values, and otherwise as it is. -/
theorem sanitize_complete (e : ExtraFields σ) :
    (∀ path fields, e.sanitize.value.place path = some (.dict fields) →
      ∀ field ∈ fields, isSecretField field.1 = false ∧ field.2 ≠ .none) ∧
    (∀ path y, e.sanitize.value.place path = some y ↔
      ∃ x, e.value.place path = some x ∧ Survives path x ∧ sanitizeExtraValue x = y) ∧
    (∀ path items, Survives path (.list items) →
      e.value.place path = some (.list items) ∨ e.value.place path = some (.tuple items) →
      e.sanitize.value.place path = some (.list (items.map sanitizeExtraValue))) ∧
    e.sanitize.sanitize = e.sanitize := by
  have hplace := place_sanitizeExtraValue e.wellFormed
  refine ⟨?_, hplace, ?_, ?_⟩
  · intro path fields hp field hmem
    obtain ⟨x, hx, _, hy⟩ := (hplace path _).1 hp
    cases x with
    | dict fields' =>
      cases hy
      rw [sanitizeExtraFields_eq] at hmem
      obtain ⟨⟨key, v⟩, hv, rfl⟩ := List.mem_map.1 hmem
      obtain ⟨hkey, hnone⟩ := keepsField_eq_true.1 (List.mem_filter.1 hv).2
      refine ⟨hkey, ?_⟩
      intro h
      apply hnone
      cases v <;> first | rfl | cases h
    | none | scalar | list | tuple => simp [sanitizeExtraValue] at hy
  · intro path items hs hx
    apply (hplace path _).2
    rcases hx with hx | hx
    · exact ⟨_, hx, hs, congrArg LogValue.list (sanitizeItems_eq items)⟩
    · refine ⟨_, hx, ⟨hs.keys, ?_⟩, congrArg LogValue.list (sanitizeItems_eq items)⟩
      intro k _ h
      cases h
  · simp only [ExtraFields.sanitize, sanitizeExtraFields_idem]

end AiServing
