import Mathlib.Algebra.BigOperators.Group.Finset.Basic
import Mathlib.Algebra.Order.Monoid.Canonical.Defs

namespace Transitions
set_option autoImplicit true

section Runs

variable (step : σ → α → Option σ)

/-- The state after a list of actions; an action that is not enabled has no run. -/
def run : σ → List α → Option σ
  | s, [] => some s
  | s, a :: as => (step s a).bind fun t => run t as

/-- The sum of what the steps of a run contribute. -/
def along [AddCommMonoid M] (g : σ → α → M) : σ → List α → M
  | _, [] => 0
  | s, a :: as => g s a + (step s a).elim 0 fun t => along g t as

/-- Every step of a run meets a condition on the state before it. -/
def Always (C : σ → α → Prop) : σ → List α → Prop
  | _, [] => True
  | s, a :: as => C s a ∧ ∀ t ∈ step s a, Always C t as

instance Always.decidable (C : σ → α → Prop) [∀ s a, Decidable (C s a)] (s : σ) :
    (as : List α) → Decidable (Always step C s as)
  | [] => .isTrue trivial
  | a :: as =>
    have (t : σ) : Decidable (Always step C t as) := Always.decidable C t as
    inferInstanceAs (Decidable (C s a ∧ ∀ t ∈ step s a, Always step C t as))

/-- Some step of a run meets a condition on the state before it. -/
def Sometime (C : σ → α → Prop) : σ → List α → Prop
  | _, [] => False
  | s, a :: as => C s a ∨ ∃ t ∈ step s a, Sometime C t as

/-- Some step of a run meets `D`, after one that meets `C`. -/
def Followed (C D : σ → α → Prop) (s : σ) (as : List α) : Prop :=
  ∃ before a after t, as = before ++ a :: after ∧ run step s before = some t ∧
    Sometime step C s before ∧ D t a

end Runs

variable {step : σ → α → Option σ} {I : σ → Prop} {s t : σ} {as : List α}

theorem run_cons :
    run step s (a :: as) = some u ↔ ∃ t, step s a = some t ∧ run step t as = some u := by
  rw [run, Option.bind_eq_some_iff]

theorem run_append (step : σ → α → Option σ) (s : σ) (as bs : List α) :
    run step s (as ++ bs) = (run step s as).bind fun t => run step t bs := by
  induction as generalizing s with
  | nil => rfl
  | cons a as ih =>
    rw [List.cons_append, run, run, Option.bind_assoc]
    exact congrArg _ (funext fun t => ih t)

/-- The induction rule: what every step preserves holds at the end of every run. -/
theorem run_invariant (hstep : ∀ s a t, I s → step s a = some t → I t) (h₀ : I s)
    (h : run step s as = some u) : I u := by
  induction as generalizing s with
  | nil =>
    obtain rfl := Option.some.inj h
    exact h₀
  | cons a as ih =>
    obtain ⟨t, ht, hrest⟩ := run_cons.1 h
    exact ih (hstep s a t h₀ ht) hrest

theorem run_invariant_of {C : α → Prop} (hstep : ∀ s a t, C a → I s → step s a = some t → I t)
    (hactions : ∀ a ∈ as, C a) (h₀ : I s) (h : run step s as = some u) : I u := by
  induction as generalizing s with
  | nil =>
    obtain rfl := Option.some.inj h
    exact h₀
  | cons a as ih =>
    obtain ⟨t, ht, hrest⟩ := run_cons.1 h
    have hhead := hstep s a t (hactions a List.mem_cons_self) h₀ ht
    exact ih (fun b hb => hactions b (List.mem_cons_of_mem a hb)) hhead hrest

theorem sometime_cons {C : σ → α → Prop} (ht : step s a = some t) :
    Sometime step C s (a :: as) ↔ C s a ∨ Sometime step C t as := by
  rw [Sometime, ht]
  simp only [Option.mem_def, Option.some.injEq, exists_eq_left']

theorem sometime_iff {P : α → Prop} (h : run step s as = some u) :
    Sometime step (fun _ b => P b) s as ↔ ∃ b ∈ as, P b := by
  induction as generalizing s with
  | nil => exact iff_of_false id fun ⟨_, hb, _⟩ => List.not_mem_nil hb
  | cons b as ih =>
    obtain ⟨t, ht, hrest⟩ := run_cons.1 h
    rw [sometime_cons ht, ih hrest, List.exists_mem_cons_iff]

/-- The latch rule: what exactly the steps with `C` bring about, and none undoes, holds at the end
if it did at the start or if there was such a step. -/
theorem run_sometime {P : σ → Prop} {C : σ → α → Prop} (hstep : ∀ s a t, I s → step s a = some t → I t)
    (hlatch : ∀ s a t, I s → step s a = some t → (P t ↔ P s ∨ C s a)) (h₀ : I s)
    (h : run step s as = some u) : P u ↔ P s ∨ Sometime step C s as := by
  induction as generalizing s with
  | nil =>
    obtain rfl := Option.some.inj h
    exact (or_iff_left id).symm
  | cons a as ih =>
    obtain ⟨t, ht, hrest⟩ := run_cons.1 h
    rw [sometime_cons ht, ← or_assoc, ← hlatch s a t h₀ ht]
    exact ih (hstep s a t h₀ ht) hrest

/-- The origin rule: what only the steps with `C` bring about was so at the start, or there was such
a step. -/
theorem sometime_of_run {P : σ → Prop} {C : σ → α → Prop}
    (hstep : ∀ s a t, I s → step s a = some t → I t)
    (horigin : ∀ s a t, I s → step s a = some t → P t → P s ∨ C s a) (h₀ : I s)
    (h : run step s as = some u) (hu : P u) : P s ∨ Sometime step C s as := by
  induction as generalizing s with
  | nil =>
    obtain rfl := Option.some.inj h
    exact .inl hu
  | cons a as ih =>
    obtain ⟨t, ht, hrest⟩ := run_cons.1 h
    rw [sometime_cons ht]
    rcases ih (hstep s a t h₀ ht) hrest with hpast | hlater
    · rcases horigin s a t h₀ ht hpast with hs | hC
      · exact .inl hs
      · exact .inr (.inl hC)
    · exact .inr (.inr hlater)

theorem sometime_split {C : σ → α → Prop} (h : Sometime step C s as) :
    ∃ before a after t, as = before ++ a :: after ∧ run step s before = some t ∧ C t a := by
  induction as generalizing s with
  | nil => exact h.elim
  | cons a as ih =>
    rcases h with hC | ⟨t, ht, hlater⟩
    · exact ⟨[], a, as, s, rfl, rfl, hC⟩
    · obtain ⟨before, b, after, u, rfl, hrun, hC⟩ := ih hlater
      exact ⟨a :: before, b, after, u, rfl, run_cons.2 ⟨t, ht, hrun⟩, hC⟩

/-- The origin rule in two stages: what only the steps with `D k` bring about, where `Q k` holds, which
only the steps with `C k` bring about. -/
theorem followed_of_run {P : σ → Prop} {Q : κ → σ → Prop} {C D : κ → σ → α → Prop}
    (horigin : ∀ s a t, step s a = some t → P t → P s ∨ ∃ k, Q k s ∧ D k s a)
    (hbefore : ∀ k s a t, step s a = some t → Q k t → Q k s ∨ C k s a)
    (hP : ¬ P s) (hQ : ∀ k, ¬ Q k s) (h : run step s as = some u) (hu : P u) :
    ∃ k, Followed step (C k) (D k) s as := by
  have hsometime := sometime_of_run (I := fun _ => True) (fun _ _ _ _ _ => trivial)
    (fun s a t _ ht => horigin s a t ht) trivial h hu
  obtain ⟨before, a, after, t, has, hrun, k, ht, hD⟩ := sometime_split (hsometime.resolve_left hP)
  have hearlier := sometime_of_run (I := fun _ => True) (fun _ _ _ _ _ => trivial)
    (fun s a t _ ht => hbefore k s a t ht) trivial hrun ht
  exact ⟨k, before, a, after, t, has, hrun, hearlier.resolve_left (hQ k), hD⟩

/-- The balance rule: if every step adds `into` and takes away `out`, so does the run. -/
theorem run_balance [AddCommMonoid M] {f : σ → M} {into out : σ → α → M}
    (hstep : ∀ s a t, I s → step s a = some t → I t)
    (hbal : ∀ s a t, I s → step s a = some t → f t + out s a = f s + into s a) (h₀ : I s)
    (h : run step s as = some u) :
    f u + along step out s as = f s + along step into s as := by
  induction as generalizing s with
  | nil =>
    obtain rfl := Option.some.inj h
    rfl
  | cons a as ih =>
    obtain ⟨t, ht, hrest⟩ := run_cons.1 h
    have htail := ih (hstep s a t h₀ ht) hrest
    have hhead := hbal s a t h₀ ht
    rw [along, along, ht, Option.elim_some, Option.elim_some]
    calc f u + (out s a + along step out t as)
        = out s a + (f u + along step out t as) := add_left_comm _ _ _
      _ = out s a + (f t + along step into t as) := by rw [htail]
      _ = f t + out s a + along step into t as := by rw [← add_assoc, add_comm (out s a)]
      _ = f s + (into s a + along step into t as) := by rw [hhead, add_assoc]

theorem along_zero [AddCommMonoid M] (s : σ) (as : List α) :
    along step (fun _ _ => (0 : M)) s as = 0 := by
  induction as generalizing s with
  | nil => rfl
  | cons a as ih =>
    rw [along, zero_add]
    cases step s a with
    | none => rfl
    | some t => exact ih t

theorem run_gain [AddCommMonoid M] {f : σ → M} {into : σ → α → M}
    (hgain : ∀ s a t, step s a = some t → f t = f s + into s a) (h : run step s as = some u) :
    f u = f s + along step into s as := by
  have hbal := run_balance (I := fun _ => True) (fun _ _ _ _ _ => trivial)
    (fun s a t _ ht => (add_zero _).trans (hgain s a t ht)) trivial h
  rwa [along_zero, add_zero] at hbal

theorem along_eq_zero [AddCommMonoid M] (hzero : ∀ x y : M, x + y = 0 ↔ x = 0 ∧ y = 0)
    {g : σ → α → M} (h : run step s as = some u) :
    along step g s as = 0 ↔ Always step (fun s a => g s a = 0) s as := by
  induction as generalizing s with
  | nil => exact ⟨fun _ => trivial, fun _ => rfl⟩
  | cons a as ih =>
    obtain ⟨t, ht, hrest⟩ := run_cons.1 h
    rw [along, Always, hzero, ht, Option.elim_some, ih hrest]
    simp only [Option.mem_def, Option.some.injEq, forall_eq']

theorem sum_add_eq [AddCommMonoid M] [Fintype ι] [DecidableEq ι] {f g : ι → M} (i : ι)
    (h : ∀ j, j ≠ i → g j = f j) : ∑ j, g j + f i = ∑ j, f j + g i := by
  have hrest : ∑ j ∈ Finset.univ.erase i, g j = ∑ j ∈ Finset.univ.erase i, f j := by
    apply Finset.sum_congr rfl
    intro j hj
    exact h j (Finset.ne_of_mem_erase hj)
  rw [← Finset.add_sum_erase _ g (Finset.mem_univ i), ← Finset.add_sum_erase _ f (Finset.mem_univ i),
    hrest, add_right_comm, add_comm (g i), add_right_comm]

end Transitions
