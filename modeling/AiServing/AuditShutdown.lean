import AiServing.AuditTrail

namespace AiServing
open Transitions
set_option autoImplicit true

/-- A task of `_schedule_audit_log`, under its number. -/
structure AuditTask where
  id : Nat
  fields : AuditFields

/-- What the app keeps of its audit tasks: those in `audit_tasks`, which a task leaves when it is done,
and, once the app shuts down, the numbers of those that `lifespan` gathers. -/
structure AuditService where
  trail : List TrailEvent := []
  scheduled : List AuditFields := []
  tasks : List AuditTask := []
  gathered : Option (List Nat) := none
  disposed : Bool := false

inductive ServiceEvent
  | schedule (f : AuditFields)
  | done (id : Nat) (fate : InsertFate)
  | replay (superAdmin sessionmaker : Bool) (faults : ReplayFaults)
  | shutdown
  | dispose

def ServiceEvent.isSchedule : ServiceEvent → Bool
  | schedule _ => true
  | _ => false

namespace AuditService

/-- The engine is disposed of when the gathered tasks are done; behind that the loop is closed. -/
def step (s : AuditService) (e : ServiceEvent) : Option AuditService :=
  if s.disposed then none
  else match e with
    | .schedule f =>
      some { s with
        scheduled := s.scheduled ++ [f]
        tasks := s.tasks ++ [⟨s.scheduled.length, f⟩] }
    | .done id fate =>
      (s.tasks.find? fun task => task.id = id).map fun task =>
        { s with
          trail := s.trail ++ [.insert task.fields fate]
          tasks := s.tasks.filter fun task => task.id ≠ id }
    | .replay superAdmin sessionmaker faults =>
      some { s with trail := s.trail ++ [.replay superAdmin sessionmaker faults] }
    | .shutdown =>
      if s.gathered.isSome then none else some { s with gathered := some (s.tasks.map AuditTask.id) }
    | .dispose =>
      match s.gathered with
      | none => none
      | some ids =>
        if s.tasks.any fun task => task.id ∈ ids then none else some { s with disposed := true }

/-- The server answers no request any more when it shuts the app down. -/
def Drained (s : AuditService) (e : ServiceEvent) : Prop :=
  s.gathered.isSome → e.isSchedule = false

instance (s : AuditService) (e : ServiceEvent) : Decidable (s.Drained e) :=
  inferInstanceAs (Decidable (_ → _))

/-- What is scheduled is on the trail or still a task, and behind the shutdown every task is awaited. -/
structure Accounted (s : AuditService) : Prop where
  shared : (finalised s.trail ++ s.tasks.map AuditTask.fields).Perm s.scheduled
  nodup : (s.tasks.map AuditTask.id).Nodup
  fresh : ∀ task ∈ s.tasks, task.id < s.scheduled.length
  awaited : ∀ ids ∈ s.gathered, ∀ task ∈ s.tasks, task.id ∈ ids
  disposed : s.disposed = true → s.tasks = []

variable {s t u : AuditService} {e : ServiceEvent} {events : List ServiceEvent}

theorem Accounted.empty : Accounted {} where
  shared := .nil
  nodup := .nil
  fresh _ h := nomatch h
  awaited _ h := nomatch h
  disposed _ := rfl

theorem perm_of_find? {tasks : List AuditTask} {task : AuditTask} {id : Nat}
    (hnodup : (tasks.map AuditTask.id).Nodup)
    (hfind : (tasks.find? fun task => task.id = id) = some task) :
    tasks.Perm (task :: tasks.filter fun task => task.id ≠ id) := by
  induction tasks with
  | nil => cases hfind
  | cons first tasks ih =>
    obtain ⟨hfresh, hnodup⟩ := List.nodup_cons.1 hnodup
    by_cases hid : first.id = id
    · rw [List.find?_cons_of_pos (by simpa using hid)] at hfind
      cases hfind
      have hrest : tasks.filter (fun task => task.id ≠ id) = tasks := by
        apply List.filter_eq_self.2
        intro task htask
        apply decide_eq_true
        intro heq
        rw [hid, ← heq] at hfresh
        exact hfresh (List.mem_map_of_mem htask)
      rw [List.filter_cons_of_neg (by simpa using hid), hrest]
    · rw [List.find?_cons_of_neg (by simpa using hid)] at hfind
      rw [List.filter_cons_of_pos (by simpa using hid)]
      exact ((ih hnodup hfind).cons first).trans (.swap _ _ _)

theorem Accounted.schedule (hs : Accounted s) (hopen : s.gathered = none)
    (hlive : ¬ s.disposed = true) (f : AuditFields) :
    Accounted { s with
      scheduled := s.scheduled ++ [f]
      tasks := s.tasks ++ [⟨s.scheduled.length, f⟩] } := by
  refine ⟨?_, ?_, ?_, ?_, fun h => absurd h hlive⟩
  · rw [List.map_append, ← List.append_assoc]
    exact hs.shared.append_right [f]
  · rw [List.map_append, List.nodup_append_comm]
    refine List.nodup_cons.2 ⟨?_, hs.nodup⟩
    intro hmem
    obtain ⟨task, htask, hid⟩ := List.mem_map.1 hmem
    exact Nat.ne_of_lt (hs.fresh task htask) hid
  · intro task htask
    rw [List.length_append, List.length_singleton]
    rcases List.mem_append.1 htask with hold | hnew
    · exact Nat.lt_succ_of_lt (hs.fresh task hold)
    · rw [List.mem_singleton.1 hnew]
      exact Nat.lt_succ_self _
  · intro ids hids
    rw [hopen] at hids
    cases hids

theorem Accounted.done (hs : Accounted s) (hlive : ¬ s.disposed = true) {id : Nat}
    {task : AuditTask} (hfind : (s.tasks.find? fun task => task.id = id) = some task) (fate : InsertFate) :
    Accounted { s with
      trail := s.trail ++ [.insert task.fields fate]
      tasks := s.tasks.filter fun task => task.id ≠ id } := by
  have hperm := (perm_of_find? hs.nodup hfind).map AuditTask.fields
  have hsub : (s.tasks.filter fun task => task.id ≠ id).Sublist s.tasks := List.filter_sublist
  refine ⟨?_, hs.nodup.sublist (hsub.map _), fun task htask => hs.fresh task (hsub.subset htask),
    fun ids hids task htask => hs.awaited ids hids task (hsub.subset htask),
    fun h => absurd h hlive⟩
  rw [finalised_snoc, List.append_assoc]
  exact (hperm.symm.append_left (finalised s.trail)).trans hs.shared

theorem Accounted.step (hs : Accounted s) (he : s.Drained e) (h : s.step e = some t) :
    Accounted t := by
  unfold AuditService.step at h
  split at h
  · cases h
  · next hlive =>
    cases e with
    | schedule f =>
      cases h
      have hopen : s.gathered = none := by
        by_contra hgathered
        cases he (Option.isSome_iff_ne_none.2 hgathered)
      exact hs.schedule hopen hlive f
    | done id fate =>
      obtain ⟨task, hfind, heq⟩ := Option.map_eq_some_iff.1 h
      cases heq
      exact hs.done hlive hfind fate
    | replay superAdmin sessionmaker faults =>
      cases h
      refine ⟨?_, hs.nodup, hs.fresh, hs.awaited, hs.disposed⟩
      rw [finalised_snoc]
      exact (List.append_nil (finalised s.trail)).symm ▸ hs.shared
    | shutdown =>
      obtain ⟨_, heq⟩ := Option.ite_none_left_eq_some.1 h
      cases heq
      refine ⟨hs.shared, hs.nodup, hs.fresh, ?_, hs.disposed⟩
      intro ids hids task htask
      cases hids
      exact List.mem_map_of_mem htask
    | dispose =>
      cases hgathered : s.gathered with
      | none =>
        rw [hgathered] at h
        cases h
      | some ids =>
        rw [hgathered] at h
        obtain ⟨hdone, heq⟩ := Option.ite_none_left_eq_some.1 h
        cases heq
        refine ⟨hs.shared, hs.nodup, hs.fresh, hgathered ▸ hs.awaited, fun _ => ?_⟩
        apply List.eq_nil_iff_forall_not_mem.2
        intro task htask
        apply hdone
        rw [List.any_eq_true]
        exact ⟨task, htask, decide_eq_true (hs.awaited ids hgathered task htask)⟩

theorem Accounted.run (hs : Accounted s) (hdrained : Always AuditService.step Drained s events)
    (hrun : run AuditService.step s events = some u) : Accounted u := by
  induction events generalizing s with
  | nil =>
    obtain rfl := Option.some.inj hrun
    exact hs
  | cons e events ih =>
    obtain ⟨t, ht, hrest⟩ := run_cons.1 hrun
    exact ih (hs.step hdrained.1 ht) (hdrained.2 t ht) hrest

/-- In whatever order tasks end, replays run and the app shuts down, when the engine is disposed of
every request that was scheduled for the audit has its row or can be given it by a replay, unless
its task was cancelled before the commit. -/
theorem shutdown_loses_no_audit {DateTime : Type} (fromisoformat : Text → Option DateTime)
    (loads : Text → Option Json) (hrun : Transitions.run AuditService.step {} events = some u)
    (hdrained : Always AuditService.step Drained {} events) (hdisposed : u.disposed = true)
    (hclean : ∀ f ∈ u.scheduled, f.Clean loads) (hfiles : ∀ e ∈ u.trail, e.ReachesFiles) :
    ∃ recorded : List AuditFields,
      (recovered fromisoformat loads (trailOf fromisoformat loads u.trail)).rows =
        recorded.map (fun f => f.items DateTime) ∧
      u.scheduled.Subperm (recorded ++ lost u.trail) ∧ (∀ f ∈ recorded, f ∈ u.scheduled) ∧
      ((∀ e ∈ u.trail, e.LeavesSessions) → (recorded ++ lost u.trail).Perm u.scheduled) := by
  have haccounted := Accounted.empty.run hdrained hrun
  have hfinalised : (finalised u.trail).Perm u.scheduled := by
    have hshared := haccounted.shared
    rw [haccounted.disposed hdisposed] at hshared
    exact (List.append_nil (finalised u.trail)).symm ▸ hshared
  obtain ⟨recorded, hrows, _, _, hshared⟩ :=
    trail_shared fromisoformat (fun f hf => hclean f (hfinalised.subset hf)) hfiles
  refine ⟨recorded, hrows, ?_, ?_, fun hleaves => ?_⟩
  · exact hfinalised.symm.subperm.trans (Multiset.coe_le.1 hshared.kept)
  · exact fun f hf => hfinalised.subset (hshared.only f (List.mem_append_left _ hf))
  · exact (Multiset.coe_eq_coe.1 (hshared.once hleaves)).symm.trans hfinalised

/-- One task fails before the shutdown, and another is done while the app waits for it. -/
def sampleShutdown : List ServiceEvent :=
  plainFields.map .schedule ++ [.done 1 (.fails .commit), .shutdown, .done 0 .completes, .dispose]

theorem shutdown_loses_no_audit_gathered : ∃ u, run AuditService.step {} sampleShutdown = some u ∧
    ∃ recorded : List AuditFields,
      (recovered (fun _ => (none : Option Unit)) (loadsOf plainFields)
        (trailOf (fun _ => none) (loadsOf plainFields) u.trail)).rows =
          recorded.map (fun f => f.items Unit) ∧ recorded.Perm u.scheduled := by
  have hdrained : Always AuditService.step Drained {} sampleShutdown := by decide
  have hrun : run AuditService.step {} sampleShutdown = some _ := rfl
  have htrail : ∀ e ∈ [TrailEvent.insert (fieldsOfRequest "한글".toList) (.fails .commit),
      .insert (fieldsOfRequest "a\n\"b\"".toList) .completes], e.ReachesFiles ∧ e.LeavesSessions := by
    intro e he
    rcases List.mem_pair.1 he with rfl | rfl
    · exact ⟨trivial, fun h => nomatch h⟩
    · exact ⟨trivial, fun h => nomatch h⟩
  obtain ⟨recorded, hrows, _, _, hperm⟩ := shutdown_loses_no_audit (fun _ => none)
    (loadsOf plainFields) hrun hdrained rfl plainFields_clean fun e he => (htrail e he).1
  have hrecorded := hperm fun e he => (htrail e he).2
  exact ⟨_, hrun, recorded, hrows, (List.append_nil recorded) ▸ hrecorded⟩

end AuditService
end AiServing
