import Mathlib.Data.Finset.Card
import Mathlib.Data.List.Nodup

set_option autoImplicit true

/-- What is remembered of a function that may fail: its values at the keys used last, the last used
first. -/
structure LruCache {κ : Type u} {ν : Type v} (f : κ → Option ν) (maxsize : Nat) where
  entries : List (κ × ν)
  nodup : (entries.map Prod.fst).Nodup
  bounded : entries.length ≤ maxsize
  sound : ∀ e ∈ entries, f e.1 = some e.2

namespace LruCache

variable {κ : Type u} {ν : Type v} [DecidableEq κ] {f : κ → Option ν} {maxsize : Nat}

def empty : LruCache f maxsize := ⟨[], List.nodup_nil, Nat.zero_le _, nofun⟩

def keys (c : LruCache f maxsize) : List κ := c.entries.map Prod.fst

def find? (c : LruCache f maxsize) (k : κ) : Option (κ × ν) := c.entries.find? fun e => e.1 = k

theorem find?_eq_none {c : LruCache f maxsize} : c.find? k = none ↔ k ∉ c.keys := by
  rw [find?, List.find?_eq_none, keys, List.mem_map]
  constructor
  · rintro h ⟨e, he, rfl⟩
    exact h e he (decide_eq_true rfl)
  · intro h e he hk
    exact h ⟨e, he, of_decide_eq_true hk⟩

theorem find?_eq_some {c : LruCache f maxsize} (h : c.find? k = some e) :
    e ∈ c.entries ∧ e.1 = k := by
  have hkey := List.find?_some h
  exact ⟨List.mem_of_find?_eq_some h, of_decide_eq_true hkey⟩

theorem map_fst_filter (l : List (κ × ν)) (k : κ) :
    (l.filter fun e => e.1 ≠ k).map Prod.fst = (l.map Prod.fst).filter fun x => x ≠ k := by
  rw [List.filter_map]
  rfl

theorem length_filter_ne_lt {l : List κ} (h : k ∈ l) :
    (l.filter fun x => x ≠ k).length < l.length := by
  refine List.length_filter_lt_length_iff_exists.2 ⟨k, h, ?_⟩
  simp

/-- A hit moves the entry to the front. -/
def touch (c : LruCache f maxsize) (e : κ × ν) (he : e ∈ c.entries) : LruCache f maxsize where
  entries := e :: c.entries.filter fun e' => e'.1 ≠ e.1
  nodup := by
    rw [List.map_cons, map_fst_filter]
    refine List.nodup_cons.2 ⟨?_, c.nodup.filter _⟩
    simp
  bounded := by
    have hkey : e.1 ∈ c.entries.map Prod.fst := List.mem_map_of_mem he
    have hlt := length_filter_ne_lt hkey
    rw [← map_fst_filter, List.length_map, List.length_map] at hlt
    exact hlt.trans_le c.bounded
  sound := by
    intro e' he'
    rcases List.mem_cons.1 he' with rfl | he'
    · exact c.sound e' he
    · exact c.sound e' (List.mem_filter.1 he').1

/-- A miss puts the value in front, and drops the entry used longest ago if there are too many. -/
def insert (c : LruCache f maxsize) (k : κ) (v : ν) (hk : k ∉ c.keys) (hv : f k = some v) :
    LruCache f maxsize where
  entries := ((k, v) :: c.entries).take maxsize
  nodup := by
    have hnodup : (((k, v) :: c.entries).map Prod.fst).Nodup := List.nodup_cons.2 ⟨hk, c.nodup⟩
    exact hnodup.sublist ((List.take_sublist _ _).map _)
  bounded := List.length_take_le _ _
  sound := by
    intro e he
    rcases List.mem_cons.1 (List.mem_of_mem_take he) with rfl | he
    · exact hv
    · exact c.sound e he

/-- A call through the cache. A call that fails is not remembered. -/
def call (c : LruCache f maxsize) (k : κ) : LruCache f maxsize × Option ν :=
  match hfind : c.find? k with
  | some e => (c.touch e (find?_eq_some hfind).1, some e.2)
  | none =>
    match hv : f k with
    | none => (c, none)
    | some v => (c.insert k v (find?_eq_none.1 hfind) hv, some v)

def after (c : LruCache f maxsize) (ks : List κ) : LruCache f maxsize :=
  ks.foldl (fun c k => (c.call k).1) c

/-- The keys of the calls that did not fail, without repetition, the last used first. -/
def recency (f : κ → Option ν) (ks : List κ) : List κ :=
  ks.foldl (fun stack k => if (f k).isSome then k :: stack.filter (fun x => x ≠ k) else stack) []

theorem call_hit {c : LruCache f maxsize} (h : k ∈ c.keys) : ∃ v, f k = some v ∧
    (c.call k).2 = some v ∧ (c.call k).1.keys = k :: c.keys.filter fun x => x ≠ k := by
  have hne : c.find? k ≠ none := fun hnone => find?_eq_none.1 hnone h
  rw [call]
  split
  · next e hfind =>
    obtain ⟨he, rfl⟩ := find?_eq_some hfind
    exact ⟨e.2, c.sound e he, rfl, by rw [keys, touch, List.map_cons, map_fst_filter]; rfl⟩
  · next hnone => exact absurd hnone hne

theorem call_miss {c : LruCache f maxsize} (h : k ∉ c.keys) : (c.call k).2 = f k ∧
    (c.call k).1.keys = if (f k).isSome then (k :: c.keys).take maxsize else c.keys := by
  have hfind := find?_eq_none.2 h
  rw [call]
  split
  · next hsome =>
    rw [hfind] at hsome
    cases hsome
  · split
    · next hv =>
      exact ⟨hv.symm, (if_neg (by rw [hv]; exact Bool.false_ne_true)).symm⟩
    · next v hv =>
      refine ⟨hv.symm, ?_⟩
      rw [if_pos (Option.isSome_of_eq_some hv)]
      exact List.map_take

theorem call_snd (c : LruCache f maxsize) (k : κ) : (c.call k).2 = f k := by
  by_cases h : k ∈ c.keys
  · obtain ⟨v, hv, hanswer, _⟩ := call_hit h
    rw [hanswer, hv]
  · exact (call_miss h).1

theorem length_le_filter_ne {l : List κ} (h : l.Nodup) (k : κ) :
    l.length ≤ (l.filter fun x => x ≠ k).length + 1 := by
  have hsplit := List.length_eq_length_filter_add (l := l) fun x => decide (x ≠ k)
  have hone : (l.filter fun x => !decide (x ≠ k)).length ≤ 1 := by
    have hcount : (l.filter fun x => !decide (x ≠ k)) = l.filter fun x => x == k := by
      apply List.filter_congr
      intro x _
      simp [Bool.beq_eq_decide_eq]
    rw [hcount, ← List.countP_eq_length_filter]
    exact List.nodup_iff_count_le_one.1 h k
  omega

/-- What the cache keeps of the order of use depends on what it kept before. -/
theorem take_filter_ne {l : List κ} (h : l.Nodup) (k : κ) (n : Nat) :
    (k :: l.filter fun x => x ≠ k).take n =
      (k :: (l.take n).filter fun x => x ≠ k).take n := by
  cases n with
  | zero => rfl
  | succ n =>
    rw [List.take_succ_cons, List.take_succ_cons]
    congr 1
    rcases Nat.lt_or_ge n l.length with hlong | hshort
    · have hkept : n ≤ ((l.take (n + 1)).filter fun x => x ≠ k).length := by
        have hle := length_le_filter_ne (h.sublist (List.take_sublist (n + 1) l)) k
        rw [List.length_take_of_le hlong] at hle
        omega
      conv_lhs => rw [← List.take_append_drop (n + 1) l, List.filter_append]
      exact List.take_append_of_le_length hkept
    · rw [List.take_of_length_le (Nat.le_succ_of_le hshort)]

theorem recency_snoc (f : κ → Option ν) (ks : List κ) (k : κ) : recency f (ks ++ [k]) =
    if (f k).isSome then k :: (recency f ks).filter (fun x => x ≠ k) else recency f ks := by
  rw [recency, List.foldl_append]
  rfl

theorem recency_nodup (f : κ → Option ν) (ks : List κ) : (recency f ks).Nodup := by
  induction ks using List.reverseRecOn with
  | nil => exact List.nodup_nil
  | append_singleton ks k ih =>
    rw [recency_snoc]
    split
    · refine List.nodup_cons.2 ⟨?_, ih.filter _⟩
      simp
    · exact ih

theorem keys_call {c : LruCache f maxsize} {stack : List κ} (hstack : stack.Nodup)
    (h : c.keys = stack.take maxsize) (k : κ) : (c.call k).1.keys =
      (if (f k).isSome then k :: stack.filter (fun x => x ≠ k) else stack).take maxsize := by
  by_cases hk : k ∈ c.keys
  · obtain ⟨v, hv, _, hkeys⟩ := call_hit hk
    have hlt := length_filter_ne_lt hk
    have hle : c.keys.length ≤ maxsize := by
      rw [h]
      exact List.length_take_le _ _
    rw [hv, if_pos Option.isSome_some, take_filter_ne hstack, ← h, hkeys,
      List.take_of_length_le]
    rw [List.length_cons]
    omega
  · rw [(call_miss hk).2]
    split
    · have hsame : (c.keys.filter fun x => x ≠ k) = c.keys := by
        apply List.filter_eq_self.2
        intro x hx
        exact decide_eq_true fun heq => hk (heq ▸ hx)
      rw [take_filter_ne hstack, ← h, hsame]
    · exact h

/-- The run lemma: the cache holds the keys used last. -/
theorem keys_after (ks : List κ) :
    ((empty : LruCache f maxsize).after ks).keys = (recency f ks).take maxsize := by
  induction ks using List.reverseRecOn with
  | nil => exact List.take_nil.symm
  | append_singleton ks k ih =>
    have hstep := keys_call (recency_nodup f ks) ih k
    rw [after, List.foldl_append, recency_snoc]
    exact hstep

theorem recency_since (ks : List κ) {k : κ} (hk : (f k).isSome) {later : List κ}
    (hlater : k ∉ later) : ∃ newer older, recency f (ks ++ k :: later) = newer ++ k :: older ∧
      ∀ x, x ∈ newer ↔ x ∈ later ∧ (f x).isSome := by
  induction later using List.reverseRecOn with
  | nil =>
    refine ⟨[], (recency f ks).filter fun x => x ≠ k, ?_, ?_⟩
    · rw [recency_snoc, if_pos hk]
      rfl
    · intro x
      exact iff_of_false List.not_mem_nil fun h => List.not_mem_nil h.1
  | append_singleton later y ih =>
    obtain ⟨newer, older, hrecency, hnewer⟩ := ih fun h => hlater (List.mem_append_left _ h)
    have hy : y ≠ k := fun h => hlater (h ▸ List.mem_append_right _ List.mem_cons_self)
    rw [← List.cons_append, ← List.append_assoc, recency_snoc, hrecency]
    by_cases hsome : (f y).isSome
    · rw [if_pos hsome, List.filter_append, List.filter_cons_of_pos (by simpa using hy.symm)]
      refine ⟨y :: newer.filter fun x => x ≠ y, older.filter fun x => x ≠ y, rfl, ?_⟩
      intro x
      rw [List.mem_cons, List.mem_filter, hnewer, List.mem_append, List.mem_singleton,
        decide_eq_true_eq]
      constructor
      · rintro (rfl | ⟨h, _⟩)
        · exact ⟨.inr rfl, hsome⟩
        · exact ⟨.inl h.1, h.2⟩
      · rintro ⟨h | rfl, hx⟩
        · by_cases hxy : x = y
          · exact .inl hxy
          · exact .inr ⟨⟨h, hx⟩, hxy⟩
        · exact .inl rfl
    · rw [if_neg hsome]
      refine ⟨newer, older, rfl, ?_⟩
      intro x
      rw [hnewer, List.mem_append, List.mem_singleton]
      constructor
      · exact fun h => ⟨.inl h.1, h.2⟩
      · rintro ⟨h | rfl, hx⟩
        · exact ⟨h, hx⟩
        · exact absurd hx hsome

theorem mem_keys_after (before : List κ) {k : κ} (hk : (f k).isSome) {later : List κ}
    (hlater : k ∉ later) :
    k ∈ ((empty : LruCache f maxsize).after (before ++ k :: later)).keys ↔
      (later.filter fun x => (f x).isSome).toFinset.card < maxsize := by
  obtain ⟨newer, older, hrecency, hnewer⟩ := recency_since before hk hlater
  have hnodup := recency_nodup f (before ++ k :: later)
  rw [hrecency, List.nodup_append] at hnodup
  obtain ⟨hnodup, _, hdisjoint⟩ := hnodup
  have hnot : k ∉ newer := fun h => hdisjoint k h k List.mem_cons_self rfl
  have hcard : (later.filter fun x => (f x).isSome).toFinset.card = newer.length := by
    rw [← List.toFinset_card_of_nodup hnodup]
    congr 1
    ext x
    rw [List.mem_toFinset, List.mem_toFinset, hnewer, List.mem_filter]
  rw [keys_after, hrecency, hcard, List.take_append, List.mem_append]
  constructor
  · rintro (h | h)
    · exact absurd (List.mem_of_mem_take h) hnot
    · by_contra hle
      rw [Nat.sub_eq_zero_of_le (not_lt.1 hle)] at h
      exact List.not_mem_nil h
  · intro hlt
    right
    obtain ⟨m, hm⟩ := Nat.exists_eq_add_of_lt hlt
    have hsub : maxsize - newer.length = m + 1 := by omega
    rw [hsub, List.take_succ_cons]
    exact List.mem_cons_self

theorem mem_recency {ks : List κ} : k ∈ recency f ks ↔ k ∈ ks ∧ (f k).isSome := by
  induction ks using List.reverseRecOn with
  | nil => exact iff_of_false List.not_mem_nil fun h => List.not_mem_nil h.1
  | append_singleton ks y ih =>
    rw [recency_snoc, List.mem_append, List.mem_singleton]
    by_cases hk : k = y
    · subst hk
      by_cases hsome : (f k).isSome
      · rw [if_pos hsome]
        exact iff_of_true List.mem_cons_self ⟨.inr rfl, hsome⟩
      · rw [if_neg hsome, ih]
        exact iff_of_false (fun h => hsome h.2) fun h => hsome h.2
    · rw [or_iff_left hk]
      split
      · rw [List.mem_cons, or_iff_right hk, List.mem_filter, ih, and_iff_left (decide_eq_true hk)]
      · exact ih

theorem mem_keys_after_iff {ks : List κ} :
    k ∈ ((empty : LruCache f maxsize).after ks).keys ↔ (f k).isSome ∧
      ∃ before later, ks = before ++ k :: later ∧ k ∉ later ∧
        (later.filter fun x => (f x).isSome).toFinset.card < maxsize := by
  constructor
  · intro h
    have hrecency := h
    rw [keys_after] at hrecency
    obtain ⟨hmem, hsome⟩ := mem_recency.1 (List.mem_of_mem_take hrecency)
    obtain ⟨later, before, hks, hlater⟩ := List.eq_append_cons_of_mem (List.mem_reverse.2 hmem)
    have hsplit : ks = before.reverse ++ k :: later.reverse := by
      rw [← List.reverse_reverse ks, hks]
      simp
    have hnot : k ∉ later.reverse := fun hk => hlater (List.mem_reverse.1 hk)
    refine ⟨hsome, before.reverse, later.reverse, hsplit, hnot, ?_⟩
    rw [hsplit] at h
    exact (mem_keys_after _ hsome hnot).1 h
  · rintro ⟨hsome, before, later, rfl, hlater, hcard⟩
    exact (mem_keys_after before hsome hlater).2 hcard

end LruCache
