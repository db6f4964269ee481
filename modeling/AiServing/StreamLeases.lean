import AiServing.ChatStream

namespace AiServing
namespace ChatStream
open Transitions
set_option autoImplicit true

variable {s t u : ChatStream} {a : Action} {as : List Action} {lease : StreamLease}

/-- The exchange's lease, as the limiter sees it. -/
def ownLease (s : ChatStream) : Option StreamLease := s.limiter.leases[s.lease]?

/-- The limiter is in order, and a lease that the code still has to release is not released. -/
structure Owning (s : ChatStream) : Prop where
  balanced : s.limiter.Balanced
  lease : ∃ lease, s.ownLease = some lease ∧ (s.holding = true → lease.released = false)

def Released (key : String) (s : ChatStream) : Prop := s.ownLease = some ⟨key, true⟩

theorem step_holding (hs : s.Owning) (hl : s.ownLease = some ⟨key, false⟩)
    (hh : s.holding = true) (h : step s a = some t) :
    t.Owning ∧
      ((t.holding = true ∧ t.ownLease = some ⟨key, false⟩ ∧ s.cutShort a = false) ∨
        (t.holding = false ∧ t.ownLease = some ⟨key, true⟩ ∧ s.cutShort a = false) ∨
        (t.holding = false ∧ t.ownLease = some ⟨key, false⟩ ∧ s.cutShort a = true)) := by
  cases a with
  | own e =>
    obtain ⟨hlease, heff⟩ := exchangeStep_cases h
    cases heff with
    | kept ht hcut hlim =>
      have hown : t.ownLease = some ⟨key, false⟩ := by rw [ownLease, hlim, hlease]; exact hl
      exact ⟨⟨hlim ▸ hs.balanced, _, hown, fun _ => rfl⟩, .inl ⟨ht ▸ hh, hown, hcut⟩⟩
    | released _ ht hcut hlim =>
      obtain ⟨hbal, hleases⟩ := StreamLimiter.release_cases hs.balanced hl rfl
      have hown : t.ownLease = some ⟨key, true⟩ := by
        have hlt := (List.getElem?_eq_some_iff.1 hl).1
        rw [ownLease, hlim, hlease, hleases, List.getElem?_set_self hlt]
      refine ⟨⟨hlim ▸ hbal, _, hown, fun hc => ?_⟩, .inr (.inl ⟨ht, hown, hcut⟩)⟩
      rw [ht] at hc
      cases hc
    | dropped _ ht hcut hlim =>
      have hown : t.ownLease = some ⟨key, false⟩ := by rw [ownLease, hlim, hlease]; exact hl
      exact ⟨⟨hlim ▸ hs.balanced, _, hown, fun _ => rfl⟩, .inr (.inr ⟨ht, hown, hcut⟩)⟩
  | other op =>
    rw [step] at h
    split at h
    · cases h
    · next hop =>
      cases h
      have hown := StreamLimiter.apply_getElem? hs.balanced hl op hop
      exact ⟨⟨hs.balanced.apply op, _, hown, fun _ => rfl⟩, .inl ⟨hh, hown, rfl⟩⟩

theorem step_not_holding (hs : s.Owning) (hh : s.holding = false) (h : step s a = some t) :
    t.Owning ∧ t.holding = false ∧ t.ownLease = s.ownLease ∧ s.cutShort a = false := by
  obtain ⟨hbal, lease, hl, _⟩ := hs
  cases a with
  | own e =>
    obtain ⟨hlease, heff⟩ := exchangeStep_cases h
    cases heff with
    | kept ht hcut hlim =>
      have hown : t.ownLease = s.ownLease := by rw [ownLease, hlim, hlease]; rfl
      have hth : t.holding = false := ht ▸ hh
      refine ⟨⟨hlim ▸ hbal, lease, hown.trans hl, fun hc => ?_⟩, hth, hown, hcut⟩
      rw [hth] at hc
      cases hc
    | released hc =>
      rw [hh] at hc
      cases hc
    | dropped hc =>
      rw [hh] at hc
      cases hc
  | other op =>
    rw [step] at h
    split at h
    · cases h
    · next hop =>
      cases h
      have hown := StreamLimiter.apply_getElem? hbal hl op hop
      refine ⟨⟨hbal.apply op, lease, hown, fun hc => ?_⟩, hh, hown.trans hl.symm, rfl⟩
      have hc' : s.holding = true := hc
      rw [hh] at hc'
      cases hc'

theorem run_not_holding (hs : s.Owning) (hh : s.holding = false) (h : run step s as = some u) :
    u.Owning ∧ u.ownLease = s.ownLease ∧ Always step (fun s a => s.cutShort a = false) s as := by
  induction as generalizing s with
  | nil =>
    obtain rfl := Option.some.inj h
    exact ⟨hs, rfl, trivial⟩
  | cons a as ih =>
    obtain ⟨t, ht, hrest⟩ := run_cons.1 h
    obtain ⟨hto, hth, htl, hcut⟩ := step_not_holding hs hh ht
    obtain ⟨huo, hul, hcuts⟩ := ih hto hth hrest
    refine ⟨huo, hul.trans htl, hcut, fun t' ht' => ?_⟩
    obtain rfl := Option.some.inj (ht.symm.trans ht')
    exact hcuts

theorem run_released_iff (hs : s.Owning) (hl : s.ownLease = some ⟨key, false⟩)
    (hh : s.holding = true) (h : run step s as = some u) (hu : u.holding = false) :
    u.Owning ∧ (u.Released key ↔ Always step (fun s a => s.cutShort a = false) s as) := by
  induction as generalizing s with
  | nil =>
    obtain rfl := Option.some.inj h
    rw [hh] at hu
    cases hu
  | cons a as ih =>
    obtain ⟨t, ht, hrest⟩ := run_cons.1 h
    have hcons (hcuts : Always step (fun s a => s.cutShort a = false) t as)
        (hcut : s.cutShort a = false) :
        Always step (fun s a => s.cutShort a = false) s (a :: as) := by
      refine ⟨hcut, fun t' ht' => ?_⟩
      obtain rfl := Option.some.inj (ht.symm.trans ht')
      exact hcuts
    obtain ⟨hto, ⟨hth, htl, hcut⟩ | ⟨hth, htl, hcut⟩ | ⟨hth, htl, hcut⟩⟩ := step_holding hs hl hh ht
    · obtain ⟨huo, hiff⟩ := ih hto htl hth hrest
      exact ⟨huo, hiff.trans ⟨fun hcuts => hcons hcuts hcut, fun hall => hall.2 t ht⟩⟩
    · obtain ⟨huo, hul, hcuts⟩ := run_not_holding hto hth hrest
      exact ⟨huo, fun _ => hcons hcuts hcut, fun _ => hul.trans htl⟩
    · obtain ⟨huo, hul, _⟩ := run_not_holding hto hth hrest
      refine ⟨huo, fun hrel => ?_, fun hall => ?_⟩
      · have hold := hul.trans htl
        rw [Released, hold] at hrel
        cases hrel
      · have hfirst : s.cutShort a = false := hall.1
        rw [hcut] at hfirst
        cases hfirst

theorem step_owning (hs : s.Owning) (h : step s a = some t) : t.Owning := by
  cases hh : s.holding with
  | false => exact (step_not_holding hs hh h).1
  | true =>
    obtain ⟨lease, hl, hr⟩ := hs.lease
    have hl' : s.ownLease = some ⟨lease.key, false⟩ := by rw [hl, ← hr hh]
    exact (step_holding hs hl' hh h).1

theorem own_othersLive (hs : s.Owning) (h : step s (.own e) = some t) (key : String) :
    t.limiter.othersLive key t.lease = s.limiter.othersLive key s.lease := by
  obtain ⟨hlease, heff⟩ := exchangeStep_cases h
  rw [hlease]
  cases heff with
  | kept _ _ hlim => rw [hlim]
  | dropped _ _ _ hlim => rw [hlim]
  | released hh _ _ hlim =>
    obtain ⟨lease, hl, hr⟩ := hs.lease
    rw [hlim]
    exact StreamLimiter.othersLive_set (StreamLimiter.release_cases hs.balanced hl (hr hh)).2 key

theorem run_own_othersLive (hs : s.Owning) (h : run step s as = some u)
    (hown : ∀ a ∈ as, ∃ e, a = .own e) (key : String) :
    u.limiter.othersLive key u.lease = s.limiter.othersLive key s.lease := by
  induction as generalizing s with
  | nil =>
    obtain rfl := Option.some.inj h
    rfl
  | cons a as ih =>
    obtain ⟨t, ht, hrest⟩ := run_cons.1 h
    obtain ⟨e, rfl⟩ := hown a List.mem_cons_self
    rw [ih (step_owning hs ht) hrest fun b hb => hown b (List.mem_cons_of_mem _ hb)]
    exact own_othersLive hs ht key

/-- The limiter once a list of calls has run on a new one. -/
def limiterAfter (n : Nat) (h : 0 < n) (ops : List StreamLimiter.Op) : StreamLimiter :=
  ops.foldl StreamLimiter.apply (.new n h)

/-- The lease is released, the key counts the other leases only, and if no other task has called
the limiter since, as many as before. -/
structure LeaseReturned (before : StreamLimiter) (key : String) (trace : List Action)
    (s : ChatStream) : Prop where
  released : s.Released key
  counted : s.limiter.count key = s.limiter.othersLive key s.lease
  restored : (∀ a ∈ trace, ∃ e, a = .own e) → s.limiter.count key = before.count key

/-- The exchange when `acquire` has returned lease number `n`. -/
def start (limiter : StreamLimiter) (n : Nat) : ChatStream := { limiter := limiter, lease := n }

theorem Owning.start {l₀ l₁ : StreamLimiter} (hbal : l₀.Balanced)
    (hacq : l₀.acquire key = (l₁, some n)) :
    (start l₁ n).Owning ∧ (start l₁ n).ownLease = some ⟨key, false⟩ ∧
      l₁.othersLive key n = l₀.count key := by
  obtain ⟨hbal', ⟨_, hout⟩ | ⟨_, hsome, hleases⟩⟩ := StreamLimiter.acquire_cases hbal key
  · rw [hacq] at hout
    cases hout
  · rw [hacq] at hbal' hsome hleases
    obtain rfl := Option.some.inj hsome
    have hown : (ChatStream.start l₁ l₀.leases.length).ownLease = some ⟨key, false⟩ := by
      rw [ownLease, ChatStream.start, hleases]
      exact List.getElem?_concat_length
    refine ⟨⟨hbal', _, hown, fun _ => rfl⟩, hown, ?_⟩
    rw [StreamLimiter.othersLive, hleases, hbal.count key,
      List.eraseIdx_append_of_length_le (Nat.le_refl _), Nat.sub_self]
    exact congrArg (List.countP _) (List.append_nil _)


/-- The handler is cancelled while it waits for the first chunk, and the slot is gone. -/
theorem lease_lost_by_cancel :
    let l₀ := limiterAfter 1 Nat.one_pos []
    let trace : List Action := [.own (.opened none), .own .cancel]
    ∃ l₁ s, l₀.acquire "k" = (l₁, some 0) ∧ run step (start l₁ 0) trace = some s ∧
      s.point = .over .cancelled ∧ ¬ LeaseReturned l₀ "k" trace s ∧
      (s.limiter.acquire "k").2 = none := by
  refine ⟨_, _, rfl, rfl, rfl, fun h => ?_, by decide⟩
  have hrel := h.released
  cases hrel

/-- The lease comes back exactly if nothing cuts the exchange short on its way to the release. -/
theorem lease_returned_iff {n : Nat} (hn : 0 < n) {before : List StreamLimiter.Op}
    {l₁ : StreamLimiter} {id : Nat} {trace : List Action}
    (hacq : (limiterAfter n hn before).acquire key = (l₁, some id))
    (hrun : run step (start l₁ id) trace = some s) (hover : s.point = .over e) :
    LeaseReturned (limiterAfter n hn before) key trace s ↔
      Always step (fun s a => s.cutShort a = false) (start l₁ id) trace := by
  have hbal : (limiterAfter n hn before).Balanced := (StreamLimiter.Balanced.new n hn).foldl before
  obtain ⟨hown, hl, hothers⟩ := Owning.start hbal hacq
  have hu : s.holding = false := by simp [holding, hover]
  obtain ⟨hso, hiff⟩ := run_released_iff hown hl rfl hrun hu
  refine ⟨fun h => hiff.1 h.released, fun h => ?_⟩
  have hrel := hiff.2 h
  have hcount : s.limiter.count key = s.limiter.othersLive key s.lease := by
    rw [hso.balanced.count, StreamLimiter.live_eq_othersLive hrel]
    simp [StreamLimiter.isLive]
  refine ⟨hrel, hcount, fun htrace => ?_⟩
  rw [hcount, run_own_othersLive hown hrun htrace key]
  exact hothers

theorem lease_returned_iff_closed_midway :
    let l₀ := limiterAfter 2 Nat.two_pos [.acquire "k"]
    let trace : List Action := [.own (.opened none), .own (.upstream (.chunk { delta := "a" })),
      .own .start, .other (.release 0), .own .resume, .own (.upstream (.chunk { delta := "b" })),
      .own .close, .own .closed]
    ∃ l₁ s, l₀.acquire "k" = (l₁, some 1) ∧ run step (start l₁ 1) trace = some s ∧
      LeaseReturned l₀ "k" trace s :=
  ⟨_, _, rfl, rfl, (lease_returned_iff Nat.two_pos rfl rfl rfl).2 (by decide)⟩

end ChatStream
end AiServing
