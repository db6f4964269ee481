import AiServing.DecimalText

namespace AiServing
set_option autoImplicit true

/-- A character that may stand in the `repr` of a float, or in `NaN` and `Infinity`. -/
def isNumberChar (c : Char) : Bool := isAsciiDigit c || "-+.eNaInfity".toList.contains c

/-- What is written for a float. It has a point, an exponent or a letter, which no integer has. -/
structure FloatText where
  text : Text
  chars : ∀ c ∈ text, isNumberChar c
  marked : ∃ c ∈ text, isAsciiDigit c = false ∧ c ≠ '-'
  begins : ∃ c ∈ text.head?, isAsciiDigit c ∨ c ∈ ['-', 'N', 'I']

/-- A JSON value; a float is known by its text. -/
inductive Json where
  | null
  | bool (b : Bool)
  | int (n : Int)
  | float (x : FloatText)
  | str (t : Text)
  | arr (items : List Json)
  | obj (items : List (Text × Json))

def hexDigit (n : Nat) : Char := Nat.digitChar n

/-- One character of a string under `ensure_ascii=False`. -/
def escapeChar (c : Char) : Text :=
  if c = '"' then ['\\', '"']
  else if c = '\\' then ['\\', '\\']
  else if c = '\n' then ['\\', 'n']
  else if c = '\r' then ['\\', 'r']
  else if c = '\t' then ['\\', 't']
  else if c.toNat = 0x0c then ['\\', 'f']
  else if c.toNat = 0x08 then ['\\', 'b']
  else if c.toNat < 0x20 then
    ['\\', 'u', '0', '0', hexDigit (c.toNat / 16), hexDigit (c.toNat % 16)]
  else [c]

def dumpsString (t : Text) : Text := '"' :: t.flatMap escapeChar ++ ['"']

def intText (n : Int) : Text := (if n < 0 then ['-'] else []) ++ digitsOf n.natAbs

mutual

/-- The JSON text of a value, with the given separators. -/
def encodeJson (comma colon : Text) : Json → Text
  | .null => "null".toList
  | .bool b => if b then "true".toList else "false".toList
  | .int n => intText n
  | .float x => x.text
  | .str t => dumpsString t
  | .arr items => '[' :: encodeItems comma colon items ++ [']']
  | .obj members => '{' :: encodeMembers comma colon members ++ ['}']

def encodeItems (comma colon : Text) : List Json → Text
  | [] => []
  | [j] => encodeJson comma colon j
  | j :: items => encodeJson comma colon j ++ comma ++ encodeItems comma colon items

def encodeMembers (comma colon : Text) : List (Text × Json) → Text
  | [] => []
  | [(k, j)] => dumpsString k ++ colon ++ encodeJson comma colon j
  | (k, j) :: members =>
    dumpsString k ++ colon ++ encodeJson comma colon j ++ comma ++ encodeMembers comma colon members

end

/-- `json.dumps(j, ensure_ascii=False)` -/
def dumps (j : Json) : Text := encodeJson ", ".toList ": ".toList j

/-- The compact text of `model_dump_json`. -/
def compactJson (j : Json) : Text := encodeJson [','] [':'] j

/-- A predicate that holds of no printable ASCII character. -/
def AvoidsAscii (p : Char → Bool) : Prop := ∀ n < 0x7f, 0x20 ≤ n → p (Char.ofNat n) = false

instance : Decidable (AvoidsAscii p) := inferInstanceAs (Decidable (∀ n < 0x7f, _))

/-- A character that a string keeps as it is and that satisfies `p`. -/
def isRaw (p : Char → Bool) (c : Char) : Bool := 0x20 ≤ c.toNat && p c

theorem AvoidsAscii.apply (hp : AvoidsAscii p) (h₁ : 0x20 ≤ c.toNat) (h₂ : c.toNat < 0x7f) :
    p c = false := by
  have h := hp c.toNat h₂ h₁
  rwa [Char.ofNat_toNat] at h

def isPrintable (c : Char) : Bool := 0x20 ≤ c.toNat && c.toNat < 0x7f

theorem AvoidsAscii.any {t : Text} (hp : AvoidsAscii p) (h : t.all isPrintable) :
    t.any p = false := by
  rw [List.any_eq_false]
  intro c hc
  have hprint := List.all_eq_true.1 h c hc
  rw [isPrintable, Bool.and_eq_true, decide_eq_true_eq, decide_eq_true_eq] at hprint
  rw [hp.apply hprint.1 hprint.2]
  exact Bool.false_ne_true

theorem any_escapeChar (hp : AvoidsAscii p) (c : Char) : (escapeChar c).any p = isRaw p c := by
  have hhex (n) (h : n < 16) : p (hexDigit n) = false := by
    have hprint : ∀ n < 16, isPrintable (hexDigit n) := by decide
    have hany := hp.any (t := [hexDigit n]) (by rw [List.all_cons, hprint n h]; rfl)
    rwa [List.any_cons, List.any_nil, Bool.or_false] at hany
  have hraw (hc : isPrintable c ∨ c.toNat < 0x20) : isRaw p c = false := by
    rw [isRaw]
    by_cases h : 0x20 ≤ c.toNat
    · rcases hc with hc | hc
      · have hany := hp.any (t := [c]) (by rw [List.all_cons, hc]; rfl)
        rw [List.any_cons, List.any_nil, Bool.or_false] at hany
        rw [hany, Bool.and_false]
      · omega
    · rw [decide_eq_false h, Bool.false_and]
  have hesc (d) (hd : isPrintable d) : List.any ['\\', d] p = false := by
    apply hp.any
    rw [List.all_cons, List.all_cons, hd]
    rfl
  rw [escapeChar]
  split
  · next h => exact (hesc '"' rfl).trans (hraw (.inl (by rw [h]; rfl))).symm
  split
  · next h => exact (hesc '\\' rfl).trans (hraw (.inl (by rw [h]; rfl))).symm
  split
  · next h => exact (hesc 'n' rfl).trans (hraw (.inr (by rw [h]; decide))).symm
  split
  · next h => exact (hesc 'r' rfl).trans (hraw (.inr (by rw [h]; decide))).symm
  split
  · next h => exact (hesc 't' rfl).trans (hraw (.inr (by rw [h]; decide))).symm
  split
  · next h => exact (hesc 'f' rfl).trans (hraw (.inr (by omega))).symm
  split
  · next h => exact (hesc 'b' rfl).trans (hraw (.inr (by omega))).symm
  split
  · next h =>
    have hpre : List.any ['\\', 'u', '0', '0'] p = false := hp.any rfl
    rw [hraw (.inr h)]
    calc List.any ['\\', 'u', '0', '0', hexDigit (c.toNat / 16), hexDigit (c.toNat % 16)] p
        = (List.any ['\\', 'u', '0', '0'] p ||
            List.any [hexDigit (c.toNat / 16), hexDigit (c.toNat % 16)] p) :=
          (by rw [← List.any_append]; rfl)
      _ = false := by
        rw [hpre, List.any_cons, List.any_cons, List.any_nil, hhex _ (by omega),
          hhex _ (by omega)]
        rfl
  · next h =>
    rw [isRaw, decide_eq_true (Nat.le_of_not_lt h), Bool.true_and, List.any_cons, List.any_nil,
      Bool.or_false]

theorem any_dumpsString (hp : AvoidsAscii p) (t : Text) :
    (dumpsString t).any p = t.any (isRaw p) := by
  have hquote : List.any ['"'] p = false := hp.any rfl
  have hbody : (t.flatMap escapeChar).any p = t.any (isRaw p) := by
    rw [List.any_flatMap]
    congr 1
    funext c
    exact any_escapeChar hp c
  calc (['"'] ++ t.flatMap escapeChar ++ ['"']).any p
      = (['"'].any p || (t.flatMap escapeChar).any p || ['"'].any p) := by
        rw [List.any_append, List.any_append]
    _ = t.any (isRaw p) := by rw [hquote, hbody, Bool.false_or, Bool.or_false]

theorem isAsciiDigit_isPrintable (h : isAsciiDigit c) : isPrintable c :=
  isAsciiDigit.elim h (by decide)

theorem isNumberChar_isPrintable (h : isNumberChar c) : isPrintable c := by
  rw [isNumberChar, Bool.or_eq_true] at h
  rcases h with hdigit | hother
  · exact isAsciiDigit_isPrintable hdigit
  · have hall : "-+.eNaInfity".toList.all isPrintable := by decide +kernel
    exact List.all_eq_true.1 hall c (List.contains_iff_mem.1 hother)

theorem FloatText.isPrintable (x : FloatText) : x.text.all AiServing.isPrintable := by
  rw [List.all_eq_true]
  intro c hc
  exact isNumberChar_isPrintable (x.chars c hc)

theorem intText_isPrintable (n : Int) : (intText n).all isPrintable := by
  rw [intText, List.all_append, Bool.and_eq_true]
  constructor
  · split
    · rfl
    · rfl
  · rw [List.all_eq_true]
    intro c hc
    exact isAsciiDigit.elim (digitsOf_isDigit hc) (by decide)

mutual

/-- Some character of a string in the value satisfies `p`. -/
def Json.any (p : Char → Bool) : Json → Bool
  | .str t => t.any p
  | .arr items => anyItems p items
  | .obj members => anyMembers p members
  | _ => false

def anyItems (p : Char → Bool) : List Json → Bool
  | [] => false
  | j :: items => j.any p || anyItems p items

def anyMembers (p : Char → Bool) : List (Text × Json) → Bool
  | [] => false
  | (k, j) :: members => k.any p || j.any p || anyMembers p members

end

mutual

/-- What `p` finds in the output stands in a string of the value: the rest is plain ASCII. -/
theorem any_encodeJson (hp : AvoidsAscii p) (hcomma : comma.all isPrintable)
    (hcolon : colon.all isPrintable) :
    ∀ j, (encodeJson comma colon j).any p = j.any (isRaw p)
  | .null => hp.any rfl
  | .bool true => hp.any rfl
  | .bool false => hp.any rfl
  | .int n => hp.any (intText_isPrintable n)
  | .float x => hp.any x.isPrintable
  | .str t => any_dumpsString hp t
  | .arr items => by
    have hopen : p '[' = false := hp.apply (by decide) (by decide)
    have hclose : p ']' = false := hp.apply (by decide) (by decide)
    simp only [encodeJson, Json.any, List.cons_append, List.any_cons, List.any_append,
      List.any_nil, hopen, hclose, any_encodeItems hp hcomma hcolon items, Bool.false_or,
      Bool.or_false]
  | .obj members => by
    have hopen : p '{' = false := hp.apply (by decide) (by decide)
    have hclose : p '}' = false := hp.apply (by decide) (by decide)
    simp only [encodeJson, Json.any, List.cons_append, List.any_cons, List.any_append,
      List.any_nil, hopen, hclose, any_encodeMembers hp hcomma hcolon members, Bool.false_or,
      Bool.or_false]

theorem any_encodeItems (hp : AvoidsAscii p) (hcomma : comma.all isPrintable)
    (hcolon : colon.all isPrintable) :
    ∀ items, (encodeItems comma colon items).any p = anyItems (isRaw p) items
  | [] => rfl
  | [j] => by
    rw [encodeItems, anyItems, anyItems, Bool.or_false, any_encodeJson hp hcomma hcolon j]
  | j :: k :: items => by
    rw [encodeItems, anyItems, List.any_append, List.any_append, hp.any hcomma,
      any_encodeJson hp hcomma hcolon j, any_encodeItems hp hcomma hcolon (k :: items),
      Bool.or_false]
    exact nofun

theorem any_encodeMembers (hp : AvoidsAscii p) (hcomma : comma.all isPrintable)
    (hcolon : colon.all isPrintable) :
    ∀ members, (encodeMembers comma colon members).any p = anyMembers (isRaw p) members
  | [] => rfl
  | [(k, j)] => by
    rw [encodeMembers, anyMembers, anyMembers, List.any_append, List.any_append, hp.any hcolon,
      any_dumpsString hp k, any_encodeJson hp hcomma hcolon j, Bool.or_false, Bool.or_false]
  | (k, j) :: (k', j') :: members => by
    rw [encodeMembers, anyMembers, List.any_append, List.any_append, List.any_append,
      List.any_append, hp.any hcolon, hp.any hcomma, any_dumpsString hp k,
      any_encodeJson hp hcomma hcolon j, any_encodeMembers hp hcomma hcolon ((k', j') :: members),
      Bool.or_false, Bool.or_false]
    exact nofun

end

theorem any_dumps (hp : AvoidsAscii p) (j : Json) : (dumps j).any p = j.any (isRaw p) :=
  any_encodeJson hp rfl rfl j

theorem AvoidsAscii.isRaw (hp : AvoidsAscii p) : AvoidsAscii (isRaw p) := by
  intro n hn h
  rw [AiServing.isRaw, hp n hn h, Bool.and_false]

end AiServing
