import AiServing.Dictionary
import Mathlib.Data.List.Perm.Basic

namespace AiServing
open Dictionary
set_option autoImplicit true

structure StreamLease where
  key : String
  released : Bool := false
  deriving DecidableEq, Repr

/-- The registry of `StreamConcurrencyLimiter`; a lease object is its place in `leases`. -/
structure StreamLimiter where
  maxConcurrentStreams : Nat
  max_pos : 0 < maxConcurrentStreams
  semaphores : Dict String Nat
  active : Dict String Nat
  leases : List StreamLease

namespace StreamLimiter

def new (n : Nat) (h : 0 < n) : StreamLimiter := ⟨n, h, .empty, .empty, []⟩

/-- `acquire`, under the lock. A semaphore is stored as the number of its free slots. -/
def acquire (s : StreamLimiter) (key : String) : StreamLimiter × Option Nat :=
  let semaphores :=
    match s.semaphores.get? key with
    | some _ => s.semaphores
    | none => s.semaphores.set key s.maxConcurrentStreams
  let value := (semaphores.get? key).getD 0
  if value = 0 then ({ s with semaphores := semaphores }, none)
  else
    ({ s with
        semaphores := semaphores.set key (value - 1)
        active := s.active.set key ((s.active.get? key).getD 0 + 1)
        leases := s.leases ++ [⟨key, false⟩] }, some s.leases.length)

def markReleased (s : StreamLimiter) (id : Nat) (lease : StreamLease) : StreamLimiter :=
  { s with leases := s.leases.set id { lease with released := true } }

/-- `release`, under the lock. A bounded semaphore refuses to grow past its bound. -/
def release (s : StreamLimiter) (id : Nat) : StreamLimiter :=
  match s.leases[id]? with
  | none => s
  | some lease =>
    if lease.released then s
    else
      let active := (s.active.get? lease.key).getD 0
      match s.semaphores.get? lease.key with
      | none => s.markReleased id lease
      | some value =>
        if active = 0 then s.markReleased id lease
        else if s.maxConcurrentStreams ≤ value then s.markReleased id lease
        else if active = 1 then
          { s.markReleased id lease with
            active := s.active.pop lease.key
            semaphores := s.semaphores.pop lease.key }
        else
          { s.markReleased id lease with
            active := s.active.set lease.key (active - 1)
            semaphores := s.semaphores.set lease.key (value + 1) }

def count (s : StreamLimiter) (key : String) : Nat := (s.active.get? key).getD 0

def isLive (key : String) (lease : StreamLease) : Bool := lease.key = key && !lease.released

/-- The leases handed out for a key and not yet released. -/
def live (s : StreamLimiter) (key : String) : Nat := s.leases.countP (isLive key)

/-- Both dictionaries hold exactly the keys with a live lease, and their numbers. -/
structure Balanced (s : StreamLimiter) : Prop where
  le_max : ∀ key, s.live key ≤ s.maxConcurrentStreams
  semaphores : ∀ key, s.semaphores.get? key =
    if s.live key = 0 then none else some (s.maxConcurrentStreams - s.live key)
  active : ∀ key, s.active.get? key = if s.live key = 0 then none else some (s.live key)

variable {s t : StreamLimiter} {key : String} {id : Nat} {lease : StreamLease}

theorem Balanced.new (n : Nat) (h : 0 < n) : (StreamLimiter.new n h).Balanced where
  le_max _ := Nat.zero_le _
  semaphores _ := rfl
  active _ := rfl

theorem Balanced.count (h : s.Balanced) (key : String) : s.count key = s.live key := by
  rw [StreamLimiter.count, h.active]
  split
  · next hz => exact hz.symm
  · rfl

/-- A step that moves one key from its number of live leases to `n`, in all three places. -/
theorem Balanced.change (h : s.Balanced) (key : String) (n : Nat)
    (hmax : t.maxConcurrentStreams = s.maxConcurrentStreams) (hn : n ≤ s.maxConcurrentStreams)
    (hlive : ∀ k, t.live k = if k = key then n else s.live k)
    (hsem : ∀ k, t.semaphores.get? k =
      if k = key then if n = 0 then none else some (s.maxConcurrentStreams - n)
      else s.semaphores.get? k)
    (hact : ∀ k, t.active.get? k =
      if k = key then if n = 0 then none else some n else s.active.get? k) : t.Balanced := by
  refine ⟨fun k => ?_, fun k => ?_, fun k => ?_⟩
  · rw [hlive, hmax]
    split
    · exact hn
    · exact h.le_max k
  · rw [hsem, hlive, hmax]
    by_cases hk : k = key
    · simp only [if_pos hk]
    · simp only [if_neg hk]
      exact h.semaphores k
  · rw [hact, hlive]
    by_cases hk : k = key
    · simp only [if_pos hk]
    · simp only [if_neg hk]
      exact h.active k

theorem live_append (hleases : t.leases = s.leases ++ [⟨key, false⟩]) (k : String) :
    t.live k = if k = key then s.live key + 1 else s.live k := by
  rw [live, hleases, List.countP_append]
  by_cases h : k = key
  · subst h
    simp [isLive, live]
  · simp [isLive, live, h, Ne.symm h]

theorem live_set (hl : s.leases[id]? = some lease) (hr : lease.released = false)
    (hleases : t.leases = s.leases.set id { lease with released := true }) (k : String) :
    t.live k = if k = lease.key then s.live lease.key - 1 else s.live k := by
  obtain ⟨hid, hget⟩ := List.getElem?_eq_some_iff.1 hl
  have hset := List.countP_set (p := isLive k) (a := { lease with released := true }) hid
  have hdead : isLive k { lease with released := true } = false := by simp [isLive]
  rw [hget, hdead] at hset
  rw [live, hleases, hset]
  by_cases hk : k = lease.key
  · subst hk
    simp [isLive, live, hr]
  · simp [isLive, live, hk, Ne.symm hk]

theorem live_pos (hl : s.leases[id]? = some lease) (hr : lease.released = false) :
    0 < s.live lease.key := by
  obtain ⟨hid, hget⟩ := List.getElem?_eq_some_iff.1 hl
  refine List.countP_pos_iff.2 ⟨lease, hget ▸ List.getElem_mem hid, ?_⟩
  simp [isLive, hr]

/-- `acquire` grants exactly below the maximum, and then adds one live lease. -/
theorem acquire_cases (h : s.Balanced) (key : String) :
    let out := s.acquire key
    out.1.Balanced ∧
      ((s.live key = s.maxConcurrentStreams ∧ out = (s, none)) ∨
        (s.live key < s.maxConcurrentStreams ∧ out.2 = some s.leases.length ∧
          out.1.leases = s.leases ++ [⟨key, false⟩])) := by
  intro out
  have hout : out = s.acquire key := rfl
  have hpos := s.max_pos
  have hle := h.le_max key
  have hactive := h.count key
  have hsem := h.semaphores key
  rw [count] at hactive
  rw [acquire, hactive] at hout
  by_cases hz : s.live key = 0
  · rw [if_pos hz] at hsem
    simp only [hsem, Dict.get?_set, if_true, Option.getD_some, if_neg (Nat.ne_of_gt hpos), hz] at hout
    rw [hout]
    refine ⟨h.change key 1 rfl hpos (fun k => ?_) (fun k => ?_) (fun k => ?_),
      .inr ⟨hz ▸ hpos, rfl, rfl⟩⟩
    · rw [live_append rfl, hz]
    · simp only [Dict.get?_set]
      split
      · rfl
      · rfl
    · exact Dict.get?_set ..
  · rw [if_neg hz] at hsem
    simp only [hsem, Option.getD_some] at hout
    by_cases hfull : s.live key = s.maxConcurrentStreams
    · rw [if_pos (by omega)] at hout
      rw [hout]
      exact ⟨h, .inl ⟨hfull, rfl⟩⟩
    · have hlt : s.live key < s.maxConcurrentStreams := by omega
      rw [if_neg (by omega)] at hout
      rw [hout]
      refine ⟨h.change key (s.live key + 1) rfl hlt (fun k => ?_) (fun k => ?_) (fun k => ?_),
        .inr ⟨hlt, rfl, rfl⟩⟩
      · exact live_append rfl k
      · rw [if_neg (Nat.succ_ne_zero _), ← Nat.sub_sub]
        exact Dict.get?_set ..
      · rw [if_neg (Nat.succ_ne_zero _)]
        exact Dict.get?_set ..

theorem release_of_released (hl : s.leases[id]? = some lease) (hr : lease.released = true) :
    s.release id = s := by
  rw [release, hl]
  exact if_pos hr

/-- The first release of a lease never meets a missing semaphore, a zero count or a full one. -/
theorem release_cases (h : s.Balanced) (hl : s.leases[id]? = some lease)
    (hr : lease.released = false) :
    (s.release id).Balanced ∧
      (s.release id).leases = s.leases.set id { lease with released := true } := by
  have hpos := live_pos hl hr
  have hle := h.le_max lease.key
  have hsem := h.semaphores lease.key
  have hactive := h.count lease.key
  rw [if_neg (by omega)] at hsem
  rw [count] at hactive
  obtain ⟨t, hout⟩ : ∃ t, t = s.release id := ⟨_, rfl⟩
  rw [← hout]
  rw [release, hl] at hout
  simp only [hr, Bool.false_eq_true, if_false, hsem, hactive] at hout
  rw [if_neg (by omega), if_neg (by omega)] at hout
  have hlive := live_set (t := t) hl hr
  split at hout
  · next hone =>
    rw [hout] at hlive ⊢
    refine ⟨h.change lease.key 0 rfl (Nat.zero_le _) (fun k => ?_) (fun k => ?_) (fun k => ?_), rfl⟩
    · rw [hlive rfl, hone]
    · exact Dict.get?_pop ..
    · exact Dict.get?_pop ..
  · next hmany =>
    have hne : s.live lease.key - 1 ≠ 0 := by omega
    have hvalue : s.maxConcurrentStreams - s.live lease.key + 1 =
        s.maxConcurrentStreams - (s.live lease.key - 1) := by omega
    rw [hvalue] at hout
    rw [hout] at hlive ⊢
    refine ⟨h.change lease.key (s.live lease.key - 1) rfl (by omega) (fun k => ?_) (fun k => ?_)
      (fun k => ?_), rfl⟩
    · exact hlive rfl k
    · rw [if_neg hne]
      exact Dict.get?_set ..
    · rw [if_neg hne]
      exact Dict.get?_set ..

/-- The calls of other tasks. -/
inductive Op where
  | acquire (key : String)
  | release (id : Nat)
  deriving DecidableEq, Repr

def apply (s : StreamLimiter) : Op → StreamLimiter
  | .acquire key => (s.acquire key).1
  | .release id => s.release id

theorem release_of_absent (hl : s.leases[id]? = none) : s.release id = s := by
  rw [release, hl]

theorem Balanced.apply (h : s.Balanced) (op : Op) : (s.apply op).Balanced := by
  cases op with
  | acquire key => exact (acquire_cases h key).1
  | release id =>
    rw [StreamLimiter.apply]
    cases hl : s.leases[id]? with
    | none =>
      rw [release_of_absent hl]
      exact h
    | some lease =>
      cases hr : lease.released with
      | true =>
        rw [release_of_released hl hr]
        exact h
      | false => exact (release_cases h hl hr).1

theorem Balanced.foldl (h : s.Balanced) (ops : List Op) :
    (ops.foldl StreamLimiter.apply s).Balanced := by
  induction ops generalizing s with
  | nil => exact h
  | cons op ops ih => exact ih (h.apply op)

theorem apply_getElem? (h : s.Balanced) (hl : s.leases[id]? = some lease) (op : Op)
    (hop : op ≠ .release id) : (s.apply op).leases[id]? = some lease := by
  have hlt := (List.getElem?_eq_some_iff.1 hl).1
  cases op with
  | acquire key =>
    rcases (acquire_cases h key).2 with ⟨_, hout⟩ | ⟨_, _, hleases⟩
    · rw [StreamLimiter.apply, hout]
      exact hl
    · rw [StreamLimiter.apply, hleases, List.getElem?_append_left hlt]
      exact hl
  | release i =>
    rw [StreamLimiter.apply]
    cases hi : s.leases[i]? with
    | none =>
      rw [release_of_absent hi]
      exact hl
    | some other =>
      cases hr : other.released with
      | true =>
        rw [release_of_released hi hr]
        exact hl
      | false =>
        have hne : i ≠ id := fun h => hop (congrArg Op.release h)
        rw [(release_cases h hi hr).2, List.getElem?_set_ne hne]
        exact hl

/-- The live leases of a key other than the one numbered `id`. -/
def othersLive (s : StreamLimiter) (key : String) (id : Nat) : Nat :=
  (s.leases.eraseIdx id).countP (isLive key)

theorem live_eq_othersLive (hl : s.leases[id]? = some lease) (key : String) :
    s.live key = s.othersLive key id + if isLive key lease then 1 else 0 := by
  obtain ⟨hlt, hget⟩ := List.getElem?_eq_some_iff.1 hl
  have hperm := (List.getElem_cons_eraseIdx_perm hlt).countP_eq (isLive key)
  rw [List.countP_cons, hget] at hperm
  exact hperm.symm

theorem othersLive_set (hleases : t.leases = s.leases.set id lease) (key : String) :
    t.othersLive key id = s.othersLive key id := by
  rw [othersLive, hleases, List.eraseIdx_set_eq, othersLive]

end StreamLimiter
end AiServing
