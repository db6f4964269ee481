import AiServing.StreamLimiter

namespace AiServing
namespace StreamLimiter
open Dictionary
set_option autoImplicit true

/-- What the callers have seen: the keys of the leases they got, in order, and the leases that they
have released. -/
structure Ledger where
  issued : List String := []
  returned : List Nat := []
  deriving DecidableEq, Repr

namespace Ledger

/-- A lease can only be released by a caller that has got it. -/
def record (l : Ledger) (s : StreamLimiter) : Op → Ledger
  | .acquire key =>
    if (s.acquire key).2.isSome then { l with issued := l.issued ++ [key] } else l
  | .release id =>
    if id < l.issued.length then { l with returned := id :: l.returned } else l

/-- The leases issued for a key and not yet released. -/
def live (l : Ledger) (key : String) : Nat :=
  l.issued.zipIdx.countP fun e => e.1 = key && !l.returned.contains e.2

end Ledger

/-- The limiter and the ledger after a list of calls. -/
def recorded (s : StreamLimiter) (l : Ledger) : List Op → StreamLimiter × Ledger
  | [] => (s, l)
  | op :: ops => (s.apply op).recorded (l.record s op) ops

/-- The lease objects are what the ledger says of them. -/
structure Agrees (s : StreamLimiter) (l : Ledger) : Prop where
  leases : ∀ i, s.leases[i]? =
    l.issued[i]?.map fun key => StreamLease.mk key (l.returned.contains i)
  returned : ∀ id ∈ l.returned, id < l.issued.length

variable {s : StreamLimiter} {l : Ledger} {key : String} {id : Nat} {lease : StreamLease}

theorem Agrees.new (n : Nat) (h : 0 < n) : (StreamLimiter.new n h).Agrees {} where
  leases _ := rfl
  returned := nofun

theorem Agrees.live (h : s.Agrees l) (key : String) : s.live key = l.live key := by
  have hleases : s.leases = l.issued.zipIdx.map fun e => ⟨e.1, l.returned.contains e.2⟩ := by
    apply List.ext_getElem?
    intro i
    rw [h.leases, List.getElem?_map, List.getElem?_zipIdx, Option.map_map, Nat.zero_add]
    rfl
  rw [StreamLimiter.live, hleases, List.countP_map]
  rfl

theorem Agrees.length (h : s.Agrees l) : s.leases.length = l.issued.length := by
  have hiff (i : Nat) : s.leases.length ≤ i ↔ l.issued.length ≤ i := by
    rw [← List.getElem?_eq_none_iff, h.leases, Option.map_eq_none_iff, List.getElem?_eq_none_iff]
  exact Nat.le_antisymm ((hiff _).2 (Nat.le_refl _)) ((hiff _).1 (Nat.le_refl _))

theorem Agrees.acquire (hs : s.Balanced) (h : s.Agrees l) (key : String) :
    (s.acquire key).1.Agrees (l.record s (.acquire key)) := by
  obtain ⟨_, ⟨_, hout⟩ | ⟨_, hsome, hleases⟩⟩ := acquire_cases hs key
  · rw [Ledger.record, hout]
    exact h
  · rw [Ledger.record, hsome, Option.isSome_some, if_pos rfl]
    refine ⟨fun i => ?_, fun id hid => ?_⟩
    · rw [hleases, List.getElem?_append, List.getElem?_append, h.length, h.leases]
      split
      · rfl
      · next hi =>
        have hnew : l.returned.contains i = false := by
          rw [List.contains_eq_mem, decide_eq_false_iff_not]
          exact fun hmem => hi (h.returned i hmem)
        simp only [hnew]
        cases i - l.issued.length with
        | zero => rfl
        | succ j => rfl
    · rw [List.length_append]
      exact Nat.lt_succ_of_lt (h.returned id hid)

theorem Agrees.release (hs : s.Balanced) (h : s.Agrees l) (id : Nat) :
    (s.release id).Agrees (l.record s (.release id)) := by
  rw [Ledger.record]
  cases hl : s.leases[id]? with
  | none =>
    have hle := List.getElem?_eq_none_iff.1 hl
    rw [release_of_absent hl, if_neg (Nat.not_lt.2 (h.length ▸ hle))]
    exact h
  | some lease =>
    obtain ⟨hlt, hget⟩ := List.getElem?_eq_some_iff.1 hl
    have hset : (s.release id).leases = s.leases.set id { lease with released := true } := by
      cases hr : lease.released with
      | true =>
        rw [release_of_released hl hr, ← hr, ← hget]
        exact (List.set_getElem_self hlt).symm
      | false => exact (release_cases hs hl hr).2
    have hkey := h.leases id
    rw [hl] at hkey
    obtain ⟨key, hissued, hlease⟩ := Option.map_eq_some_iff.1 hkey.symm
    rw [if_pos (h.length ▸ hlt)]
    refine ⟨fun i => ?_, fun i hi => ?_⟩
    · rw [hset, List.getElem?_set]
      by_cases hi : id = i
      · subst hi
        rw [if_pos rfl, if_pos hlt, hissued, ← hlease]
        simp
      · rw [if_neg hi, h.leases]
        simp [Ne.symm hi]
    · rcases List.mem_cons.1 hi with rfl | hi
      · exact h.length ▸ hlt
      · exact h.returned i hi

theorem Agrees.apply (hs : s.Balanced) (h : s.Agrees l) (op : Op) :
    (s.apply op).Agrees (l.record s op) := by
  cases op with
  | acquire key => exact h.acquire hs key
  | release id => exact h.release hs id

theorem apply_maxConcurrentStreams (s : StreamLimiter) (op : Op) :
    (s.apply op).maxConcurrentStreams = s.maxConcurrentStreams := by
  cases op with
  | acquire key =>
    simp only [StreamLimiter.apply, acquire]
    repeat' split
    all_goals rfl
  | release id =>
    simp only [StreamLimiter.apply, release]
    repeat' split
    all_goals rfl

/-- The entries of the dictionaries, what `acquire` answers, and that the first release of a lease
meets a semaphore below its bound and a positive count. -/
structure Consistent (n : Nat) (s : StreamLimiter) (l : Ledger) : Prop where
  keys : ∀ key, key ∈ s.semaphores.keys ↔ key ∈ s.active.keys
  counted : ∀ key count, s.active.get? key = some count →
    count = l.live key ∧ 1 ≤ count ∧ count ≤ n ∧
      ∃ value, s.semaphores.get? key = some value ∧ count = n - value ∧ value ≤ n
  absent : ∀ key, l.live key = 0 → key ∉ s.active.keys
  acquire : ∀ key, (s.acquire key).2 = none ↔ l.live key = n
  release : ∀ id key, l.issued[id]? = some key → id ∉ l.returned →
    s.leases[id]? = some ⟨key, false⟩ ∧ ∃ value count, s.semaphores.get? key = some value ∧
      s.active.get? key = some count ∧ 0 < count ∧ value < s.maxConcurrentStreams

theorem Balanced.consistent (hs : s.Balanced) (h : s.Agrees l) :
    Consistent s.maxConcurrentStreams s l where
  keys key := by
    rw [← Dict.get?_isSome, ← Dict.get?_isSome, hs.semaphores, hs.active]
    split
    · exact Iff.rfl
    · exact Iff.rfl
  counted key count hcount := by
    have hle := hs.le_max key
    have hsem := hs.semaphores key
    rw [hs.active] at hcount
    split at hcount
    · cases hcount
    · next hpos =>
      obtain rfl := Option.some.inj hcount
      rw [if_neg hpos] at hsem
      exact ⟨h.live key, by omega, hle, _, hsem, by omega, by omega⟩
  absent key hkey := by
    rw [← Dict.get?_isSome, hs.active, h.live, if_pos hkey]
    exact Bool.false_ne_true
  acquire key := by
    rw [← h.live]
    obtain ⟨_, ⟨hfull, hout⟩ | ⟨hlt, hsome, _⟩⟩ := acquire_cases hs key
    · rw [hout]
      exact ⟨fun _ => hfull, fun _ => rfl⟩
    · rw [hsome]
      exact ⟨nofun, fun hfull => absurd hfull (Nat.ne_of_lt hlt)⟩
  release id key hissued hreturned := by
    have hlease : s.leases[id]? = some ⟨key, false⟩ := by
      rw [h.leases, hissued, Option.map_some, List.contains_eq_mem, decide_eq_false hreturned]
    have hpos := live_pos hlease rfl
    have hle := hs.le_max key
    have hne : s.live key ≠ 0 := Nat.ne_of_gt hpos
    refine ⟨hlease, s.maxConcurrentStreams - s.live key, s.live key, ?_, ?_, hpos, ?_⟩
    · rw [hs.semaphores, if_neg hne]
    · rw [hs.active, if_neg hne]
    · exact Nat.sub_lt s.max_pos hpos

theorem recorded_consistent (hs : s.Balanced) (h : s.Agrees l) (ops : List Op) :
    Consistent s.maxConcurrentStreams (s.recorded l ops).1 (s.recorded l ops).2 := by
  induction ops generalizing s l with
  | nil => exact hs.consistent h
  | cons op ops ih =>
    have hrest := ih (hs.apply op) (h.apply hs op)
    rw [apply_maxConcurrentStreams] at hrest
    exact hrest

/-- Whatever the callers do, the limiter's books agree with the leases they hold. -/
theorem limiter_consistent (n : Nat) (hn : 0 < n) (ops : List Op) :
    let out := (StreamLimiter.new n hn).recorded {} ops
    Consistent n out.1 out.2 :=
  recorded_consistent (.new n hn) (.new n hn) ops

theorem limiter_consistent_stale_lease :
    let ops : List Op := [.acquire "k", .release 0, .acquire "k", .release 0, .acquire "k",
      .acquire "k", .release 0]
    let out := (StreamLimiter.new 2 Nat.two_pos).recorded {} ops
    Consistent 2 out.1 out.2 :=
  limiter_consistent 2 Nat.two_pos _

end StreamLimiter
end AiServing
