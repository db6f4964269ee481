import AiServing.UnicodeClasses
import Mathlib.Data.Finset.Insert
import Mathlib.Data.List.DropRight

namespace AiServing
set_option autoImplicit true

/-- `str.strip()` -/
def strip (t : Text) : Text := (t.dropWhile isSpace).rdropWhile isSpace

/-- `value.split(",")` with the items stripped and the empty ones left out. -/
def commaItems (value : Text) : List Text :=
  ((value.splitOn ',').map strip).filter fun item => item ≠ []

def splitScopes (value : Text) : List Text := commaItems value

def chatScope : Text := "chat".toList

def adminScope : Text := "admin".toList

def superAdminScope : Text := "super_admin".toList

/-- `_parse_scopes`, where an empty column stands for `chat`. -/
def parseScopes (value : Text) : Finset Text :=
  let scopes := (commaItems (if value = [] then chatScope else value)).toFinset
  if scopes = ∅ then {chatScope} else scopes

/-- One item of the loop in `normalize_scopes`; `seen` holds what `scopes` holds. -/
def noteScope (scopes : List Text) (rawScope : Text) : List Text :=
  let scope := strip rawScope
  if scope ≠ [] ∧ scope ∉ scopes then scopes ++ [scope] else scopes

/-- `normalize_scopes`, which refuses a list that names no scope. -/
def normalizeScopes (value : List Text) : Option (List Text) :=
  let scopes := (value.flatMap fun item => item.splitOn ',').foldl noteScope []
  if scopes = [] then none else some scopes

/-- `",".join(scopes)` -/
def joinScopes (scopes : List Text) : Text := [','].intercalate scopes

/-- A scope that a comma list gives back as it is. -/
structure PlainScope (scope : Text) : Prop where
  ne_nil : scope ≠ []
  strip_eq : strip scope = scope
  no_comma : ',' ∉ scope

theorem not_mem_of_mem_splitOn [DecidableEq α] {a : α} {l u : List α} (h : u ∈ l.splitOn a) :
    a ∉ u := by
  induction l generalizing u with
  | nil =>
    rw [List.splitOn_nil, List.mem_singleton] at h
    rw [h]
    exact List.not_mem_nil
  | cons x l ih =>
    rw [List.splitOn_cons_eq_if_modifyHead] at h
    split at h
    · rcases List.mem_cons.1 h with rfl | h
      · exact List.not_mem_nil
      · exact ih h
    · next hx =>
      obtain ⟨v, vs, hv⟩ := List.exists_cons_of_ne_nil (List.splitOn_ne_nil a l)
      rw [hv, List.modifyHead_cons] at h
      rcases List.mem_cons.1 h with rfl | h
      · have hfirst := ih (hv ▸ List.mem_cons_self)
        rw [List.mem_cons, not_or]
        exact ⟨fun hax => hx (beq_iff_eq.2 hax.symm), hfirst⟩
      · exact ih (hv ▸ List.mem_cons_of_mem v h)

theorem mem_of_mem_strip (h : c ∈ strip t) : c ∈ t :=
  (List.dropWhile_suffix isSpace).subset ((List.rdropWhile_prefix isSpace _).subset h)

theorem dropWhile_strip (t : Text) : (strip t).dropWhile isSpace = strip t := by
  rw [strip]
  cases hu : t.dropWhile isSpace with
  | nil => rfl
  | cons c u =>
    have hc : isSpace c = false := by
      have hhead := List.head?_dropWhile_not isSpace t
      rw [hu] at hhead
      exact hhead
    have hne : (c :: u).rdropWhile isSpace ≠ [] := by
      intro hnil
      rw [(List.rdropWhile_eq_nil_iff ..).1 hnil c List.mem_cons_self] at hc
      cases hc
    obtain ⟨v, hv⟩ := List.rdropWhile_prefix isSpace (c :: u)
    obtain ⟨d, w, hw⟩ := List.exists_cons_of_ne_nil hne
    rw [hw] at hv ⊢
    obtain rfl := (List.cons.inj hv).1
    exact List.dropWhile_cons_of_neg (by rw [hc]; exact Bool.false_ne_true)

theorem strip_strip (t : Text) : strip (strip t) = strip t := by
  have hfirst := dropWhile_strip t
  rw [strip, hfirst, strip, List.rdropWhile_idempotent]

theorem plainScope_strip (hne : strip t ≠ []) (hcomma : ',' ∉ t) : PlainScope (strip t) :=
  ⟨hne, strip_strip t, fun h => hcomma (mem_of_mem_strip h)⟩

theorem noteScope_plain {scopes : List Text} (h : ∀ s ∈ scopes, PlainScope s) (hraw : ',' ∉ raw) :
    ∀ s ∈ noteScope scopes raw, PlainScope s := by
  rw [noteScope]
  split
  · next hnew =>
    intro s hs
    rcases List.mem_append.1 hs with hs | hs
    · exact h s hs
    · rw [List.mem_singleton.1 hs]
      exact plainScope_strip hnew.1 hraw
  · exact h

theorem normalizeScopes_plain (h : normalizeScopes value = some scopes) :
    scopes ≠ [] ∧ ∀ s ∈ scopes, PlainScope s := by
  rw [normalizeScopes] at h
  split at h
  · cases h
  · next hne =>
    cases h
    refine ⟨hne, ?_⟩
    apply List.foldlRecOn (motive := fun scopes => ∀ s ∈ scopes, PlainScope s)
    · exact fun s hs => absurd hs List.not_mem_nil
    · intro scopes hscopes raw hraw
      obtain ⟨item, _, hsplit⟩ := List.mem_flatMap.1 hraw
      exact noteScope_plain hscopes (not_mem_of_mem_splitOn hsplit)

/-- The codec: joined scopes are listed as they were. -/
theorem commaItems_joinScopes (hne : scopes ≠ []) (h : ∀ s ∈ scopes, PlainScope s) :
    commaItems (joinScopes scopes) = scopes := by
  have hstrip : scopes.map strip = scopes :=
    (List.map_congr_left fun s hs => (h s hs).strip_eq).trans (List.map_id _)
  rw [commaItems, joinScopes, List.splitOn_intercalate ',' (fun s hs => (h s hs).no_comma) hne, hstrip,
    List.filter_eq_self]
  exact fun s hs => decide_eq_true (h s hs).ne_nil

theorem joinScopes_ne_nil (hne : scopes ≠ []) (h : ∀ s ∈ scopes, PlainScope s) :
    joinScopes scopes ≠ [] := by
  intro hnil
  have hitems := commaItems_joinScopes hne h
  rw [hnil] at hitems
  exact hne hitems.symm

theorem parseScopes_joinScopes (hne : scopes ≠ []) (h : ∀ s ∈ scopes, PlainScope s) :
    parseScopes (joinScopes scopes) = scopes.toFinset := by
  rw [parseScopes, if_neg (joinScopes_ne_nil hne h), commaItems_joinScopes hne h]
  exact if_neg fun hempty => hne (List.toFinset_eq_empty_iff _ |>.1 hempty)

end AiServing
