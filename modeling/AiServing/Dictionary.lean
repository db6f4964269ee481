import Mathlib.Data.List.Nodup

namespace Dictionary
set_option autoImplicit true

/-- A map that keeps its keys in the order in which they were first inserted. -/
structure Dict (κ : Type u) (ν : Type v) where
  entries : List (κ × ν)
  nodup : (entries.map Prod.fst).Nodup

namespace Dict

def empty : Dict κ ν := ⟨[], List.nodup_nil⟩

def keys (d : Dict κ ν) : List κ := d.entries.map Prod.fst

variable [DecidableEq κ]

def get? (d : Dict κ ν) (k : κ) : Option ν := (d.entries.find? fun e => e.1 = k).map Prod.snd

def replace (k : κ) (v : ν) (l : List (κ × ν)) : List (κ × ν) :=
  l.map fun e => if e.1 = k then (k, v) else e

theorem map_fst_replace (k : κ) (v : ν) (l : List (κ × ν)) :
    (replace k v l).map Prod.fst = l.map Prod.fst := by
  rw [replace, List.map_map]
  refine List.map_congr_left fun e _ => ?_
  by_cases h : e.1 = k <;> simp [h]

/-- Assignment: an existing key keeps its place, a new one goes to the end. -/
def set (d : Dict κ ν) (k : κ) (v : ν) : Dict κ ν :=
  if h : k ∈ d.keys then ⟨replace k v d.entries, by rw [map_fst_replace]; exact d.nodup⟩
  else ⟨d.entries ++ [(k, v)], by
    rw [List.map_append]
    exact List.Nodup.append d.nodup (List.nodup_singleton k)
      (List.disjoint_singleton.2 h)⟩

def pop (d : Dict κ ν) (k : κ) : Dict κ ν :=
  ⟨d.entries.filter fun e => e.1 ≠ k, d.nodup.sublist (List.filter_sublist.map _)⟩

@[simp] theorem get?_empty (k : κ) : (empty : Dict κ ν).get? k = none := rfl

theorem get?_isSome {d : Dict κ ν} : (d.get? k).isSome ↔ k ∈ d.keys := by
  simp [get?, keys, List.find?_isSome]

theorem find?_key {l : List (κ × ν)} (hl : (l.map Prod.fst).Nodup) (h : (k, v) ∈ l) :
    (l.find? fun e => e.1 = k) = some (k, v) := by
  induction l with
  | nil => cases h
  | cons e l ih =>
    obtain ⟨hfresh, hl⟩ := List.nodup_cons.1 hl
    rcases List.mem_cons.1 h with rfl | h
    · exact List.find?_cons_of_pos (decide_eq_true rfl)
    · have hne : e.1 ≠ k := by
        rintro rfl
        exact hfresh (List.mem_map.2 ⟨_, h, rfl⟩)
      rw [List.find?_cons_of_neg (by simpa using hne)]
      exact ih hl h

theorem mem_entries {d : Dict κ ν} : (k, v) ∈ d.entries ↔ d.get? k = some v := by
  constructor
  · intro h
    rw [get?, find?_key d.nodup h]
    rfl
  · intro h
    obtain ⟨e, hfind, rfl⟩ := Option.map_eq_some_iff.1 h
    have hkey := List.find?_some hfind
    rw [← of_decide_eq_true hkey]
    exact List.mem_of_find?_eq_some hfind

theorem find?_filter_key {l : List (κ × ν)} (hl : (l.map Prod.fst).Nodup) (p : κ × ν → Bool)
    (k : κ) :
    ((l.filter p).find? fun e => e.1 = k) = (l.find? fun e => e.1 = k).filter p := by
  induction l with
  | nil => rfl
  | cons e l ih =>
    obtain ⟨hfresh, hl⟩ := List.nodup_cons.1 hl
    by_cases he : e.1 = k
    · have hnone : ((l.filter p).find? fun e => e.1 = k) = none := by
        apply List.find?_eq_none.2
        intro e' he' hk
        apply hfresh
        rw [he, ← of_decide_eq_true hk]
        exact List.mem_map_of_mem (List.mem_of_mem_filter he')
      cases hp : p e with
      | true => simp only [List.filter_cons, hp, if_true, List.find?_cons, he, decide_true,
          Option.filter_some]
      | false => simpa only [List.filter_cons, hp, Bool.false_eq_true, if_false, he,
          List.find?_cons, decide_true, Option.filter_some] using hnone
    · cases hp : p e with
      | true => simpa only [List.filter_cons, hp, if_true, List.find?_cons, he, decide_false]
          using ih hl
      | false => simpa only [List.filter_cons, hp, Bool.false_eq_true, if_false, List.find?_cons,
          he, decide_false] using ih hl

theorem find?_replace (l : List (κ × ν)) :
    ((replace k v l).find? fun e => e.1 = k').map Prod.snd =
      if k' = k then (l.find? fun e => e.1 = k').map fun _ => v
      else (l.find? fun e => e.1 = k').map Prod.snd := by
  induction l with
  | nil => simp [replace]
  | cons e l ih =>
    have hc : replace k v (e :: l) = (if e.1 = k then (k, v) else e) :: replace k v l := rfl
    rw [hc]
    by_cases he : e.1 = k'
    · by_cases hk : k' = k
      · simp [he, hk]
      · simp [he, hk]
    · have hne : (if e.1 = k then (k, v) else e).1 ≠ k' := by
        split
        · rename_i h; rwa [h] at he
        · exact he
      simpa only [List.find?_cons, hne, he, decide_false] using ih

@[simp] theorem get?_set (d : Dict κ ν) (k : κ) (v : ν) (k' : κ) :
    (d.set k v).get? k' = if k' = k then some v else d.get? k' := by
  unfold set
  split
  · rename_i h
    simp only [get?, find?_replace]
    split
    · rename_i hk
      obtain ⟨w, hw⟩ := Option.isSome_iff_exists.1 (get?_isSome.2 h)
      obtain ⟨e, he, _⟩ := Option.map_eq_some_iff.1 hw
      rw [hk, he]; rfl
    · rfl
  · rename_i h
    have hn : (d.get? k) = none := by
      rw [← Option.not_isSome_iff_eq_none, get?_isSome]; exact h
    simp only [get?, List.find?_append] at hn ⊢
    by_cases hk : k' = k
    · subst hk
      rw [Option.map_eq_none_iff.1 hn]; simp
    · simp [hk, Ne.symm hk]

@[simp] theorem get?_pop (d : Dict κ ν) (k k' : κ) :
    (d.pop k).get? k' = if k' = k then none else d.get? k' := by
  simp only [get?, pop, List.find?_filter]
  by_cases hk : k' = k
  · subst hk
    simp
  · rw [if_neg hk]
    congr 2
    funext e
    by_cases he : e.1 = k' <;> simp [he, hk]

theorem get?_foldl_set_of_not_mem {f : α → κ} {g : α → ν} {l : List α} (h : k ∉ l.map f)
    (d : Dict κ ν) : (l.foldl (fun d x => d.set (f x) (g x)) d).get? k = d.get? k := by
  induction l generalizing d with
  | nil => rfl
  | cons x l ih =>
    rw [List.map_cons, List.mem_cons, not_or] at h
    rw [List.foldl_cons, ih h.2, get?_set, if_neg h.1]

theorem get?_foldl_set {f : α → κ} {g : α → ν} {l : List α} (hl : (l.map f).Nodup) (d : Dict κ ν)
    (hx : x ∈ l) : (l.foldl (fun d x => d.set (f x) (g x)) d).get? (f x) = some (g x) := by
  induction l generalizing d with
  | nil => cases hx
  | cons y l ih =>
    obtain ⟨hfresh, hl⟩ := List.nodup_cons.1 hl
    rw [List.foldl_cons]
    rcases List.mem_cons.1 hx with rfl | hx
    · rw [get?_foldl_set_of_not_mem hfresh, get?_set, if_pos rfl]
    · exact ih hl _ hx

end Dict

end Dictionary
