import AiServing.JsonText

namespace AiServing
set_option autoImplicit true

/-- A text that does not go on with a character of a number. -/
def EndsNumber (t : Text) : Prop := ∀ c ∈ t.head?, isNumberChar c = false

theorem span_unique {p : Char → Bool} {l m r s : Text} (hl : ∀ c ∈ l, p c) (hm : ∀ c ∈ m, p c)
    (hr : ∀ c ∈ r.head?, p c = false) (hs : ∀ c ∈ s.head?, p c = false) (h : l ++ r = m ++ s) :
    l = m ∧ r = s := by
  induction l generalizing m with
  | nil =>
    cases m with
    | nil => exact ⟨rfl, h⟩
    | cons d m =>
      rw [List.nil_append, List.cons_append] at h
      have hd := hr d (by rw [h]; rfl)
      rw [hm d List.mem_cons_self] at hd
      cases hd
  | cons c l ih =>
    cases m with
    | nil =>
      rw [List.nil_append, List.cons_append] at h
      have hc := hs c (by rw [← h]; rfl)
      rw [hl c List.mem_cons_self] at hc
      cases hc
    | cons d m =>
      obtain ⟨rfl, hrest⟩ := List.cons.inj h
      obtain ⟨rfl, rfl⟩ := ih (fun c hc => hl c (List.mem_cons_of_mem _ hc))
        (fun c hc => hm c (List.mem_cons_of_mem _ hc)) hrest
      exact ⟨rfl, rfl⟩

theorem endsNumber_of_head (h : isNumberChar c = false) (t : Text) : EndsNumber (c :: t) := by
  intro d hd
  obtain rfl := Option.some.inj hd
  exact h

theorem digitsOf_inj (h : digitsOf m = digitsOf n) : m = n := by
  rw [← intOf_digitsOf m, h, intOf_digitsOf]

theorem digitsOf_ne_minus {n : Nat} : digitsOf n ≠ '-' :: t := by
  intro h
  have hdigit := digitsOf_isDigit (n := n) (c := '-') (by rw [h]; exact List.mem_cons_self)
  cases hdigit

theorem intText_inj (h : intText m = intText n) : m = n := by
  rw [intText, intText] at h
  by_cases hm : m < 0
  · rw [if_pos hm] at h
    by_cases hn : n < 0
    · rw [if_pos hn] at h
      have habs := digitsOf_inj (List.cons.inj h).2
      omega
    · rw [if_neg hn] at h
      exact absurd h.symm digitsOf_ne_minus
  · rw [if_neg hm] at h
    by_cases hn : n < 0
    · rw [if_pos hn] at h
      exact absurd h digitsOf_ne_minus
    · rw [if_neg hn] at h
      have habs := digitsOf_inj h
      omega

theorem mem_intText {n : Int} (h : c ∈ intText n) : isAsciiDigit c ∨ c = '-' := by
  rcases List.mem_append.1 h with hsign | hdigit
  · split at hsign
    · exact .inr (List.mem_singleton.1 hsign)
    · cases hsign
  · exact .inl (digitsOf_isDigit hdigit)

theorem isNumberChar_intText {n : Int} : ∀ c ∈ intText n, isNumberChar c := by
  intro c hc
  rw [isNumberChar, Bool.or_eq_true]
  rcases mem_intText hc with hdigit | rfl
  · exact .inl hdigit
  · exact .inr rfl

theorem FloatText.ne_intText (x : FloatText) (n : Int) : x.text ≠ intText n := by
  intro h
  obtain ⟨c, hc, hdigit, hminus⟩ := x.marked
  rw [h] at hc
  rcases mem_intText hc with hyes | hyes
  · rw [hdigit] at hyes
    cases hyes
  · exact hminus hyes

theorem FloatText.ext {x y : FloatText} (h : x.text = y.text) : x = y := by
  cases x
  cases y
  cases h
  rfl

def hexValue (c : Char) : Nat := ("0123456789abcdef".toList).idxOf c

/-- The character that stands behind a backslash. -/
def unescapeRest : Text → Option (Char × Text)
  | 'n' :: t => some ('\n', t)
  | 'r' :: t => some ('\r', t)
  | 't' :: t => some ('\t', t)
  | 'f' :: t => some (Char.ofNat 0x0c, t)
  | 'b' :: t => some (Char.ofNat 0x08, t)
  | 'u' :: _ :: _ :: c :: d :: t => some (Char.ofNat (hexValue c * 16 + hexValue d), t)
  | c :: t => some (c, t)
  | [] => none

/-- The next character of a string that is being written, unless it ends here. -/
def unescape : Text → Option (Char × Text)
  | [] => none
  | c :: t =>
    if c = '"' then none
    else if c = '\\' then unescapeRest t
    else some (c, t)

theorem unescape_escapeChar (c : Char) (t : Text) : unescape (escapeChar c ++ t) = some (c, t) := by
  have hhex : ∀ n < 16, hexValue (hexDigit n) = n := by decide
  rw [escapeChar]
  split
  · next h => rw [h]; rfl
  split
  · next h => rw [h]; rfl
  split
  · next h => rw [h]; rfl
  split
  · next h => rw [h]; rfl
  split
  · next h => rw [h]; rfl
  split
  · next h =>
    rw [← Char.ofNat_toNat c, h]
    rfl
  split
  · next h =>
    rw [← Char.ofNat_toNat c, h]
    rfl
  split
  · next h =>
    have hc : Char.ofNat (hexValue (hexDigit (c.toNat / 16)) * 16 +
        hexValue (hexDigit (c.toNat % 16))) = c := by
      rw [hhex _ (by omega), hhex _ (by omega), Nat.div_add_mod', Char.ofNat_toNat]
    exact congrArg (fun d => some (d, t)) hc
  · next hquote hback _ _ _ _ _ _ =>
    rw [List.singleton_append, unescape, if_neg hquote, if_neg hback]

theorem flatMap_escapeChar_unique {t u r s : Text}
    (h : t.flatMap escapeChar ++ '"' :: r = u.flatMap escapeChar ++ '"' :: s) : t = u ∧ r = s := by
  induction t generalizing u with
  | nil =>
    cases u with
    | nil => exact ⟨rfl, (List.cons.inj h).2⟩
    | cons d u =>
      have hread := congrArg unescape h
      rw [List.flatMap_cons, List.append_assoc, unescape_escapeChar] at hread
      cases hread
  | cons c t ih =>
    have hread := congrArg unescape h
    rw [List.flatMap_cons, List.append_assoc, unescape_escapeChar] at hread
    cases u with
    | nil => cases hread
    | cons d u =>
      rw [List.flatMap_cons, List.append_assoc, unescape_escapeChar] at hread
      obtain ⟨rfl, hrest⟩ := Prod.mk.inj (Option.some.inj hread)
      obtain ⟨rfl, hend⟩ := ih hrest
      exact ⟨rfl, hend⟩

theorem dumpsString_unique (h : dumpsString t ++ r = dumpsString u ++ s) : t = u ∧ r = s := by
  rw [dumpsString, dumpsString, List.cons_append, List.cons_append, List.append_assoc,
    List.append_assoc] at h
  exact flatMap_escapeChar_unique (List.cons.inj h).2

/-- The kind of a value, by its first character; a closing bracket begins none. -/
def kindOf (t : Text) : Nat :=
  match t with
  | [] => 0
  | c :: _ =>
    if c = 'n' then 1
    else if c = 't' || c = 'f' then 2
    else if c = '"' then 3
    else if c = '[' then 4
    else if c = '{' then 5
    else if isAsciiDigit c || ['-', 'N', 'I'].contains c then 6
    else 0

def Json.kind : Json → Nat
  | .null => 1
  | .bool _ => 2
  | .str _ => 3
  | .arr _ => 4
  | .obj _ => 5
  | .int _ => 6
  | .float _ => 6

theorem kindOf_digit (h : isAsciiDigit c) (t : Text) : kindOf (c :: t) = 6 := by
  have hne (d : Char) (hd : isAsciiDigit d = false) : c ≠ d := by
    intro heq
    rw [heq, hd] at h
    cases h
  rw [kindOf, if_neg (hne _ rfl), decide_eq_false (hne 't' rfl), decide_eq_false (hne 'f' rfl),
    Bool.or_false, if_neg Bool.false_ne_true, if_neg (hne _ rfl), if_neg (hne _ rfl),
    if_neg (hne _ rfl), h, Bool.true_or, if_pos rfl]

theorem kindOf_intText (n : Int) (t : Text) : kindOf (intText n ++ t) = 6 := by
  rw [intText]
  split
  · rfl
  · rw [List.nil_append]
    cases hdigits : digitsOf n.natAbs with
    | nil => exact absurd hdigits (digitsOf_ne_nil _)
    | cons d l =>
      apply kindOf_digit
      exact digitsOf_isDigit (n := n.natAbs) (hdigits ▸ List.mem_cons_self)

theorem kindOf_floatText (x : FloatText) (t : Text) : kindOf (x.text ++ t) = 6 := by
  obtain ⟨c, hc, hbegins⟩ := x.begins
  obtain ⟨rest, hrest⟩ := List.head?_eq_some_iff.1 hc
  rw [hrest, List.cons_append]
  rcases hbegins with hdigit | hother
  · exact kindOf_digit hdigit _
  · rcases List.mem_cons.1 hother with rfl | hother
    · rfl
    rcases List.mem_cons.1 hother with rfl | hother
    · rfl
    · rw [List.mem_singleton.1 hother]
      rfl

theorem kindOf_encodeJson (comma colon : Text) (j : Json) (t : Text) :
    kindOf (encodeJson comma colon j ++ t) = j.kind := by
  cases j with
  | null => rfl
  | bool b =>
    cases b with
    | true => rfl
    | false => rfl
  | int n => exact kindOf_intText n t
  | float x => exact kindOf_floatText x t
  | str u => rfl
  | arr items => rfl
  | obj members => rfl

theorem Json.kind_pos (j : Json) : 0 < j.kind := by
  cases j <;> exact Nat.zero_lt_succ _

variable {gap colon : Text}

theorem kind_eq (h : encodeJson comma colon j ++ r = encodeJson comma colon k ++ s) :
    j.kind = k.kind := by
  rw [← kindOf_encodeJson comma colon j r, h, kindOf_encodeJson]

/-- What stands behind the first item of a list or the first member of an object. -/
def behind (gap : Text) (rest : Option Text) : Text := rest.elim [] fun t => ',' :: gap ++ t

theorem encodeItems_cons (j : Json) (items : List Json) :
    encodeItems (',' :: gap) colon (j :: items) = encodeJson (',' :: gap) colon j ++
      behind gap (if items = [] then none else some (encodeItems (',' :: gap) colon items)) := by
  cases items with
  | nil =>
    rw [encodeItems, if_pos rfl]
    exact (List.append_nil _).symm
  | cons k items =>
    rw [encodeItems, if_neg (List.cons_ne_nil _ _), List.append_assoc]
    · rfl
    · exact List.cons_ne_nil _ _

theorem encodeMembers_cons (k : Text) (j : Json) (members : List (Text × Json)) :
    encodeMembers (',' :: gap) colon ((k, j) :: members) = dumpsString k ++ (colon ++
      (encodeJson (',' :: gap) colon j ++ behind gap
        (if members = [] then none else some (encodeMembers (',' :: gap) colon members)))) := by
  cases members with
  | nil =>
    rw [if_pos rfl, encodeMembers, List.append_assoc, behind, Option.elim_none, List.append_nil]
  | cons m members =>
    rw [encodeMembers, if_neg (List.cons_ne_nil _ _)]
    · simp only [behind, Option.elim_some, List.append_assoc]
    · exact List.cons_ne_nil _ _

theorem rest_eq_none {l : List α} {t : Text} :
    (if l = [] then none else some t) = none ↔ l = [] := by
  by_cases h : l = []
  · rw [if_pos h]
    exact iff_of_true rfl h
  · rw [if_neg h]
    exact iff_of_false (Option.some_ne_none t) h

theorem rest_eq_some {l : List α} {t u : Text} :
    (if l = [] then none else some t) = some u ↔ l ≠ [] ∧ t = u := by
  rw [Option.ite_none_left_eq_some, Option.some.injEq]

theorem behind_unique {rest rest' : Option Text} (hclose : close ≠ ',')
    (h : behind gap rest ++ close :: r = behind gap rest' ++ close :: s) :
    rest = none ∧ rest' = none ∧ r = s ∨
      ∃ t t', rest = some t ∧ rest' = some t' ∧ t ++ close :: r = t' ++ close :: s := by
  cases rest with
  | none =>
    cases rest' with
    | none => exact .inl ⟨rfl, rfl, (List.cons.inj h).2⟩
    | some t' => exact absurd (List.cons.inj h).1 hclose
  | some t =>
    cases rest' with
    | none => exact absurd (List.cons.inj h).1.symm hclose
    | some t' =>
      rw [behind, behind, Option.elim_some, Option.elim_some, List.append_assoc,
        List.append_assoc] at h
      exact .inr ⟨t, t', rfl, rfl, List.append_cancel_left h⟩

theorem endsNumber_behind (hclose : isNumberChar close = false) (rest : Option Text) (r : Text) :
    EndsNumber (behind gap rest ++ close :: r) := by
  cases rest with
  | none => exact endsNumber_of_head hclose r
  | some t => exact endsNumber_of_head rfl _

mutual

/-- What is written can be read in one way only, if nothing follows a number that might belong to it. -/
theorem encodeJson_unique : ∀ {j k : Json} {r s : Text}, EndsNumber r → EndsNumber s →
    encodeJson (',' :: gap) colon j ++ r = encodeJson (',' :: gap) colon k ++ s → j = k ∧ r = s
  | .null, k, r, s, _, _, h => by
    have hkind := kind_eq h
    cases k with
    | null => exact ⟨rfl, List.append_cancel_left h⟩
    | _ => cases hkind
  | .bool b, k, r, s, _, _, h => by
    have hkind := kind_eq h
    cases k with
    | bool c =>
      cases b with
      | true =>
        cases c with
        | true => exact ⟨rfl, List.append_cancel_left h⟩
        | false => exact absurd (List.cons.inj h).1 (by decide)
      | false =>
        cases c with
        | true => exact absurd (List.cons.inj h).1 (by decide)
        | false => exact ⟨rfl, List.append_cancel_left h⟩
    | _ => cases hkind
  | .int m, k, r, s, hr, hs, h => by
    have hkind := kind_eq h
    cases k with
    | int n =>
      obtain ⟨htext, hrest⟩ := span_unique isNumberChar_intText isNumberChar_intText hr hs h
      exact ⟨congrArg _ (intText_inj htext), hrest⟩
    | float y =>
      obtain ⟨htext, _⟩ := span_unique isNumberChar_intText y.chars hr hs h
      exact absurd htext.symm (y.ne_intText m)
    | _ => cases hkind
  | .float x, k, r, s, hr, hs, h => by
    have hkind := kind_eq h
    cases k with
    | int n =>
      obtain ⟨htext, _⟩ := span_unique x.chars isNumberChar_intText hr hs h
      exact absurd htext (x.ne_intText n)
    | float y =>
      obtain ⟨htext, hrest⟩ := span_unique x.chars y.chars hr hs h
      exact ⟨congrArg _ (FloatText.ext htext), hrest⟩
    | _ => cases hkind
  | .str t, k, r, s, _, _, h => by
    have hkind := kind_eq h
    cases k with
    | str u =>
      obtain ⟨rfl, hrest⟩ := dumpsString_unique h
      exact ⟨rfl, hrest⟩
    | _ => cases hkind
  | .arr items, k, r, s, _, _, h => by
    have hkind := kind_eq h
    cases k with
    | arr items' =>
      rw [encodeJson, encodeJson, List.cons_append, List.cons_append, List.append_assoc,
        List.append_assoc] at h
      obtain ⟨rfl, hrest⟩ := encodeItems_unique (List.cons.inj h).2
      exact ⟨rfl, hrest⟩
    | _ => cases hkind
  | .obj members, k, r, s, _, _, h => by
    have hkind := kind_eq h
    cases k with
    | obj members' =>
      rw [encodeJson, encodeJson, List.cons_append, List.cons_append, List.append_assoc,
        List.append_assoc] at h
      obtain ⟨rfl, hrest⟩ := encodeMembers_unique (List.cons.inj h).2
      exact ⟨rfl, hrest⟩
    | _ => cases hkind

theorem encodeItems_unique : ∀ {items items' : List Json} {r s : Text},
    encodeItems (',' :: gap) colon items ++ ']' :: r =
      encodeItems (',' :: gap) colon items' ++ ']' :: s → items = items' ∧ r = s
  | [], [], r, s, h => ⟨rfl, (List.cons.inj h).2⟩
  | [], k :: items', r, s, h => by
    have hkind := congrArg kindOf h
    rw [encodeItems_cons, List.append_assoc, kindOf_encodeJson] at hkind
    exact absurd hkind (Nat.ne_of_lt k.kind_pos)
  | j :: items, [], r, s, h => by
    have hkind := congrArg kindOf h
    rw [encodeItems_cons, List.append_assoc, kindOf_encodeJson] at hkind
    exact absurd hkind (Nat.ne_of_gt j.kind_pos)
  | j :: items, k :: items', r, s, h => by
    rw [encodeItems_cons, encodeItems_cons, List.append_assoc, List.append_assoc] at h
    obtain ⟨rfl, hrest⟩ := encodeJson_unique (endsNumber_behind rfl _ r) (endsNumber_behind rfl _ s) h
    rcases behind_unique (by decide) hrest with ⟨hnone, hnone', hend⟩ | ⟨t, t', ht, ht', hmore⟩
    · rw [rest_eq_none.1 hnone, rest_eq_none.1 hnone']
      exact ⟨rfl, hend⟩
    · rw [← (rest_eq_some.1 ht).2, ← (rest_eq_some.1 ht').2] at hmore
      obtain ⟨rfl, hend⟩ := encodeItems_unique hmore
      exact ⟨rfl, hend⟩

theorem encodeMembers_unique : ∀ {members members' : List (Text × Json)} {r s : Text},
    encodeMembers (',' :: gap) colon members ++ '}' :: r =
      encodeMembers (',' :: gap) colon members' ++ '}' :: s → members = members' ∧ r = s
  | [], [], r, s, h => ⟨rfl, (List.cons.inj h).2⟩
  | [], (k', j') :: members', r, s, h => by
    rw [encodeMembers_cons] at h
    exact absurd (List.cons.inj h).1 (by decide)
  | (k, j) :: members, [], r, s, h => by
    rw [encodeMembers_cons] at h
    exact absurd (List.cons.inj h).1 (by decide)
  | (k, j) :: members, (k', j') :: members', r, s, h => by
    rw [encodeMembers_cons, encodeMembers_cons] at h
    simp only [List.append_assoc] at h
    obtain ⟨rfl, hvalue⟩ := dumpsString_unique h
    obtain ⟨rfl, hrest⟩ := encodeJson_unique (endsNumber_behind rfl _ r) (endsNumber_behind rfl _ s)
      (List.append_cancel_left hvalue)
    rcases behind_unique (by decide) hrest with ⟨hnone, hnone', hend⟩ | ⟨t, t', ht, ht', hmore⟩
    · rw [rest_eq_none.1 hnone, rest_eq_none.1 hnone']
      exact ⟨rfl, hend⟩
    · rw [← (rest_eq_some.1 ht).2, ← (rest_eq_some.1 ht').2] at hmore
      obtain ⟨rfl, hend⟩ := encodeMembers_unique hmore
      exact ⟨rfl, hend⟩

end

theorem dumps_unique (hr : EndsNumber r) (hs : EndsNumber s) (h : dumps j ++ r = dumps k ++ s) :
    j = k ∧ r = s := encodeJson_unique hr hs h

end AiServing
