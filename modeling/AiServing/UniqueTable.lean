import Mathlib.Data.List.Nodup

set_option autoImplicit true

/-- A table whose rows differ from each other in each of the given columns. -/
structure UniqueTable (α : Type u) {κ : Type v} (columns : List (α → κ)) where
  rows : List α
  unique : ∀ c ∈ columns, (rows.map c).Nodup

namespace UniqueTable

variable {α : Type u} {κ : Type v} {columns : List (α → κ)} {t t' : UniqueTable α columns}
variable {a b : α} {c : α → κ} {x : κ}

def empty : UniqueTable α columns := ⟨[], fun _ _ => List.nodup_nil⟩

/-- The table with a further row, unless it collides with one in some column. -/
def insert? [DecidableEq κ] (t : UniqueTable α columns) (a : α) : Option (UniqueTable α columns) :=
  if h : ∀ c ∈ columns, c a ∉ t.rows.map c then
    some ⟨t.rows ++ [a], fun c hc => by
      rw [List.map_append, List.map_singleton, List.nodup_append_comm]
      exact List.nodup_cons.2 ⟨h c hc, t.unique c hc⟩⟩
  else none

/-- Some rows changed in other columns. -/
def update (t : UniqueTable α columns) (p : α → Bool) (f : α → α)
    (hf : ∀ c ∈ columns, ∀ a, c (f a) = c a) : UniqueTable α columns :=
  ⟨t.rows.map fun a => if p a then f a else a, fun c hc => by
    have hsame : (c ∘ fun a => if p a then f a else a) = c := by
      funext a
      rw [Function.comp_apply]
      split
      · exact hf c hc a
      · rfl
    rw [List.map_map, hsame]
    exact t.unique c hc⟩

theorem filter_update {p q : α → Bool} {f : α → α} (hf : ∀ c ∈ columns, ∀ a, c (f a) = c a)
    (hq : ∀ a, q (f a) = q a) : (t.update p f hf).rows.filter q =
      (t.rows.filter q).map fun a => if p a then f a else a := by
  have hsame : (q ∘ fun a => if p a then f a else a) = q := by
    funext a
    rw [Function.comp_apply]
    split
    · exact hq a
    · rfl
  rw [update, List.filter_map, hsame]

def get? [DecidableEq κ] (t : UniqueTable α columns) (c : α → κ) (x : κ) : Option α :=
  t.rows.find? fun a => c a = x

theorem eq_of_column (hc : c ∈ columns) (ha : a ∈ t.rows) (hb : b ∈ t.rows) (h : c a = c b) :
    a = b :=
  List.inj_on_of_nodup_map (t.unique c hc) ha hb h

variable [DecidableEq κ]

theorem mem_of_get? (h : t.get? c x = some a) : a ∈ t.rows ∧ c a = x := by
  have hcol := List.find?_some h
  rw [decide_eq_true_eq] at hcol
  exact ⟨List.mem_of_find?_eq_some h, hcol⟩

theorem get?_eq_some (hc : c ∈ columns) : t.get? c x = some a ↔ a ∈ t.rows ∧ c a = x := by
  refine ⟨mem_of_get?, ?_⟩
  rintro ⟨ha, rfl⟩
  cases hfind : t.get? c (c a) with
  | none => exact absurd (decide_eq_true rfl) (List.find?_eq_none.1 hfind a ha)
  | some b =>
    obtain ⟨hb, hcol⟩ := mem_of_get? hfind
    rw [eq_of_column hc hb ha hcol]

theorem rows_insert? (h : t.insert? a = some t') :
    t'.rows = t.rows ++ [a] ∧ ∀ c ∈ columns, ∀ b ∈ t.rows, c b ≠ c a := by
  rw [insert?] at h
  split at h
  · next hnew =>
    obtain rfl := Option.some.inj h
    exact ⟨rfl, fun c hc b hb hcol => hnew c hc (hcol ▸ List.mem_map_of_mem hb)⟩
  · cases h

theorem insert?_eq_none (h : t.insert? a = none) : ∃ c ∈ columns, c a ∈ t.rows.map c := by
  rw [insert?] at h
  split at h
  · cases h
  · next hold =>
    simp only [not_forall, not_not] at hold
    obtain ⟨c, hc, hmem⟩ := hold
    exact ⟨c, hc, hmem⟩

theorem filter_column (q : α → Bool) (hc : c ∈ columns) (ha : a ∈ t.rows) :
    (t.rows.filter fun b => c b = c a && q b) = if q a then [a] else [] := by
  have hone : ∀ l : List α, (l.map c).Nodup → a ∈ l → (l.filter fun b => c b = c a) = [a] := by
    intro l hl hmem
    induction l with
    | nil => cases hmem
    | cons b l ih =>
      rw [List.map_cons, List.nodup_cons] at hl
      rcases List.mem_cons.1 hmem with rfl | hmem
      · have hnone : (l.filter fun b => c b = c a) = [] := by
          rw [List.filter_eq_nil_iff]
          intro b hb hcol
          exact hl.1 (of_decide_eq_true hcol ▸ List.mem_map_of_mem hb)
        rw [List.filter_cons, if_pos (decide_eq_true rfl), hnone]
      · have hne : c b ≠ c a := fun hcol => hl.1 (hcol ▸ List.mem_map_of_mem hmem)
        rw [List.filter_cons_of_neg (by simpa using hne), ih hl.2 hmem]
  have hsplit : (t.rows.filter fun b => c b = c a && q b) =
      (t.rows.filter fun b => c b = c a).filter q := by
    rw [List.filter_filter]
    simp only [Bool.and_comm]
  rw [hsplit, hone t.rows (t.unique c hc) ha, List.filter_singleton, Bool.cond_eq_ite]

end UniqueTable
