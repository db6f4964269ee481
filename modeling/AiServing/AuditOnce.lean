import AiServing.AuditReplay
import AiServing.RequestAudit

namespace AiServing
open Transitions
set_option autoImplicit true

structure AuditConfig where
  auditEnabled : Bool
  auditSync : Bool
  chatPath : Bool
  sessionmaker : Bool
  model : Option String

/-- What `_schedule_audit_log` does with its row. -/
inductive Dispatch where
  | skipped
  | awaited (row : AuditedOutcome)
  | task (row : AuditedOutcome)

def AuditConfig.dispatch (config : AuditConfig) (row : AuditedOutcome) : Dispatch :=
  if !config.auditEnabled || !config.chatPath then .skipped
  else if !config.sessionmaker then .skipped
  else if config.auditSync then .awaited row
  else .task row

inductive ExchangePoint where
  | calling
  | returned
  | iterating
  | finalizing
  | ended
  | dropped
  deriving DecidableEq, Repr

/-- `_insert_audit_log` comes through, or a step of it raises or is cancelled. -/
abbrev InsertFate := LineFate

/-- `except Exception` writes the fallback line; a cancellation passes it. -/
def LineFate.fallsBack : LineFate → Bool
  | .fails _ => true
  | _ => false

/-- What may happen to an exchange; `writes` is the handler or its generator at `request.state`. -/
inductive ExchangeEvent where
  | raised
  | responded (status : Nat) (iterable : Bool)
  | discard
  | start
  | chunk
  | finish
  | fail
  | close
  | writes (request : RequestState)
  | insert (fate : InsertFate)
  deriving DecidableEq

/-- The middleware's variables, the insert calls in flight, and the records they have left;
`finalizations` counts the runs of `_finalize_request`. -/
structure Exchange where
  point : ExchangePoint := .calling
  statusCode : Nat := 500
  finalizeDeferred : Bool := false
  finalized : Bool := false
  request : RequestState := {}
  finalizations : Nat := 0
  awaited : Option AuditedOutcome := none
  tasks : List AuditedOutcome := []
  rows : List AuditedOutcome := []
  lines : List AuditedOutcome := []

/-- A chat request with `audit_enabled` and an initialised sessionmaker. -/
structure AuditConfig.Audited (config : AuditConfig) : Prop where
  auditEnabled : config.auditEnabled
  chatPath : config.chatPath
  sessionmaker : config.sessionmaker

namespace Exchange

/-- `_insert_audit_log`: the fallback does not look at whether the session has committed. -/
def insertAuditLog (s : Exchange) (row : AuditedOutcome) (fate : InsertFate) : Exchange :=
  { s with
    rows := if fate.commits then s.rows ++ [row] else s.rows
    lines := if fate.fallsBack then s.lines ++ [row] else s.lines }

section Step

variable (config : AuditConfig)

/-- `finalize`, and the end of the `finally` block that awaits it. -/
def finalize (s : Exchange) : Exchange :=
  if s.finalized then { s with point := .ended }
  else
    let t := { s with finalized := true, finalizations := s.finalizations + 1 }
    match config.dispatch (finalizeRequest config.model s.request s.statusCode) with
    | .skipped => { t with point := .ended }
    | .awaited row => { t with awaited := some row, point := .finalizing }
    | .task row => { t with tasks := t.tasks ++ [row], point := .ended }

/-- The `finally` block of the middleware. -/
def leaveMiddleware (s : Exchange) : Exchange :=
  if s.finalizeDeferred then { s with point := .returned } else s.finalize config

def step (s : Exchange) (e : ExchangeEvent) : Option Exchange :=
  match s.point, e with
  | .calling, .raised => some (s.leaveMiddleware config)
  | .calling, .responded status iterable =>
    some ({ s with statusCode := status, finalizeDeferred := iterable }.leaveMiddleware config)
  | .returned, .discard => some { s with point := .dropped }
  | .returned, .start => some { s with point := .iterating }
  | .iterating, .chunk => some s
  | .iterating, .finish => some (s.finalize config)
  | .iterating, .fail => some (s.finalize config)
  | .iterating, .close => some (s.finalize config)
  | .finalizing, .insert fate =>
    s.awaited.map fun row => { s.insertAuditLog row fate with awaited := none, point := .ended }
  | .ended, .insert fate =>
    match s.tasks with
    | [] => none
    | row :: tasks => some { s.insertAuditLog row fate with tasks := tasks }
  | _, .writes request => some { s with request := request }
  | _, _ => none

end Step

/-- Nothing of the exchange is left to run. -/
def Complete (s : Exchange) : Prop := (s.point = .ended ∨ s.point = .dropped) ∧ s.tasks = []

/-- Finalised once, with one row or one fallback line. -/
def AuditedOnce (s : Exchange) : Prop := s.finalizations = 1 ∧ s.rows.length + s.lines.length = 1

variable {config : AuditConfig} {s t u : Exchange} {e : ExchangeEvent}

/-- Nothing has been finalised. -/
structure Fresh (s : Exchange) : Prop where
  finalized : s.finalized = false
  finalizations : s.finalizations = 0
  tasks : s.tasks = []
  rows : s.rows = []
  lines : s.lines = []

/-- What an exchange that has been finalised holds: the insert call, or what that call has left. -/
inductive Held (s : Exchange) : Prop
  | task (row : AuditedOutcome) (ht : s.tasks = [row]) (hr : s.rows = []) (hl : s.lines = [])
  | inserted (row : AuditedOutcome) (fate : InsertFate) (ht : s.tasks = [])
      (hr : s.rows = if fate.commits then [row] else [])
      (hl : s.lines = if fate.fallsBack then [row] else [])

/-- Who owes the record, at each point. -/
def Owed (s : Exchange) : Prop :=
  match s.point with
  | .calling => s.Fresh ∧ s.finalizeDeferred = false
  | .returned | .iterating | .dropped => s.Fresh
  | .finalizing => s.finalizations = 1 ∧ s.awaited.isSome ∧ s.tasks = [] ∧ s.rows = [] ∧ s.lines = []
  | .ended => s.finalizations = 1 ∧ s.Held

/-- The insert is through, and it has left no record or two. -/
def Miscounted (s : Exchange) : Prop :=
  s.point = .ended ∧ s.tasks = [] ∧ s.rows.length + s.lines.length ≠ 1

def Miscounts : ExchangeEvent → Prop
  | .insert fate => fate.commits = fate.fallsBack
  | _ => False

theorem insertAuditLog_length {row : AuditedOutcome} {fate : InsertFate} (hr : s.rows = [])
    (hl : s.lines = []) : (s.insertAuditLog row fate).rows.length +
      (s.insertAuditLog row fate).lines.length ≠ 1 ↔ fate.commits = fate.fallsBack := by
  rw [insertAuditLog, hr, hl]
  cases fate.commits <;> cases fate.fallsBack <;> simp

theorem Held.of_insert {row : AuditedOutcome} {fate : InsertFate} (hr : s.rows = [])
    (hl : s.lines = []) (ht : t.tasks = []) (hrows : t.rows = (s.insertAuditLog row fate).rows)
    (hlines : t.lines = (s.insertAuditLog row fate).lines) : t.Held := by
  refine .inserted row fate ht ?_ ?_
  · rw [hrows, insertAuditLog, hr, List.nil_append]
  · rw [hlines, insertAuditLog, hl, List.nil_append]

theorem not_miscounted (hp : s.point ≠ .ended) : ¬ s.Miscounted := fun hs => hp hs.1

theorem owed_init : Owed {} := ⟨⟨rfl, rfl, rfl, rfl, rfl⟩, rfl⟩

theorem Fresh.finalize (hc : config.Audited) (h : s.Fresh) :
    (s.finalize config).Owed ∧ (s.finalize config).point ≠ .dropped ∧
      ¬ (s.finalize config).Miscounted := by
  obtain ⟨henabled, hpath, hmaker⟩ := hc
  have hcount : s.finalizations + 1 = 1 := by rw [h.finalizations]
  cases hsync : config.auditSync with
  | true =>
    have hdispatch (row) : config.dispatch row = .awaited row := by
      simp [AuditConfig.dispatch, henabled, hpath, hmaker, hsync]
    rw [Exchange.finalize, if_neg (by rw [h.finalized]; exact Bool.false_ne_true), hdispatch]
    exact ⟨⟨hcount, rfl, h.tasks, h.rows, h.lines⟩, nofun, not_miscounted nofun⟩
  | false =>
    have hdispatch (row) : config.dispatch row = .task row := by
      simp [AuditConfig.dispatch, henabled, hpath, hmaker, hsync]
    have htasks (row) : s.tasks ++ [row] = [row] := by rw [h.tasks, List.nil_append]
    rw [Exchange.finalize, if_neg (by rw [h.finalized]; exact Bool.false_ne_true), hdispatch]
    refine ⟨⟨hcount, .task _ (htasks _) h.rows h.lines⟩, nofun, fun hd => ?_⟩
    exact List.append_ne_nil_of_right_ne_nil _ (List.cons_ne_nil _ _) hd.2.1

theorem Owed.writes (hs : s.Owed) (r : RequestState) : Owed { s with request := r } := by
  have hfresh (h : s.Fresh) : Fresh { s with request := r } := ⟨h.1, h.2, h.3, h.4, h.5⟩
  obtain ⟨point, _, _, _, _, _, _, _, _, _⟩ := s
  cases point with
  | calling => exact ⟨hfresh hs.1, hs.2⟩
  | returned | iterating | dropped => exact hfresh hs
  | finalizing => exact hs
  | ended =>
    refine ⟨hs.1, ?_⟩
    cases hs.2 with
    | task row ht hr hl => exact .task row ht hr hl
    | inserted row fate ht hr hl => exact .inserted row fate ht hr hl

/-- What a step does to the record that is owed. -/
structure RecordEffect (s t : Exchange) (e : ExchangeEvent) : Prop where
  owed : t.Owed
  dropped : t.point = .dropped ↔ s.point = .dropped ∨ e = .discard
  miscounted : t.Miscounted ↔ s.Miscounted ∨ Miscounts e

theorem RecordEffect.finalize (hc : config.Audited) (h : s.Fresh) (hp : r.point ≠ .dropped)
    (hended : r.point ≠ .ended) (hdiscard : e ≠ .discard) (hinsert : ¬ Miscounts e) :
    RecordEffect r (s.finalize config) e := by
  obtain ⟨howed, hpoint, hcounted⟩ := h.finalize hc
  exact ⟨howed, iff_of_false hpoint (not_or.2 ⟨hp, hdiscard⟩),
    iff_of_false hcounted (not_or.2 ⟨not_miscounted hended, hinsert⟩)⟩

theorem RecordEffect.underway (hs : s.point ≠ .ended) (ht : t.point ≠ .ended) (howed : t.Owed)
    (hdropped : t.point = .dropped ↔ s.point = .dropped ∨ e = .discard) (hinsert : ¬ Miscounts e) :
    RecordEffect s t e :=
  ⟨howed, hdropped,
    iff_of_false (not_miscounted ht) (not_or.2 ⟨not_miscounted hs, hinsert⟩)⟩

theorem RecordEffect.awaitedInsert (hs : s.Owed) (hp : s.point = .finalizing) (row : AuditedOutcome)
    (fate : InsertFate) : RecordEffect s
      { s.insertAuditLog row fate with awaited := none, point := .ended } (.insert fate) := by
  rw [Owed, hp] at hs
  obtain ⟨hcount, -, ht, hr, hl⟩ := hs
  have hheld : Held { s.insertAuditLog row fate with awaited := none, point := .ended } :=
    .of_insert hr hl ht rfl rfl
  refine ⟨⟨hcount, hheld⟩, iff_of_false nofun (by simp [hp]), ?_⟩
  rw [or_iff_right (not_miscounted (by simp [hp])), Miscounts, ← insertAuditLog_length hr hl]
  exact ⟨fun h => h.2.2, fun h => ⟨rfl, ht, h⟩⟩

theorem RecordEffect.taskInsert (hs : s.Owed) (hp : s.point = .ended) {rest : List AuditedOutcome}
    (htasks : s.tasks = row :: rest) (fate : InsertFate) :
    RecordEffect s { s.insertAuditLog row fate with tasks := rest } (.insert fate) := by
  rw [Owed, hp] at hs
  obtain ⟨hcount, hs⟩ := hs
  cases hs with
  | task row' ht hr hl =>
    obtain ⟨rfl, rfl⟩ := List.cons.inj (htasks.symm.trans ht)
    have hheld : Held { s.insertAuditLog row fate with tasks := [] } :=
      .of_insert hr hl rfl rfl rfl
    have hpast : ¬ s.Miscounted := by
      rintro ⟨-, hnone, -⟩
      rw [ht] at hnone
      cases hnone
    have hpoint : (s.insertAuditLog row fate).point = .ended := hp
    refine ⟨?_, by simp [hp, hpoint], ?_⟩
    · rw [Owed, hpoint]
      exact ⟨hcount, hheld⟩
    · rw [or_iff_right hpast, Miscounts, ← insertAuditLog_length hr hl]
      exact ⟨fun h => h.2.2, fun h => ⟨hp, rfl, h⟩⟩
  | inserted _ _ ht =>
    rw [ht] at htasks
    cases htasks

theorem RecordEffect.responded (hc : config.Audited) (hs : s.Owed) (hp : s.point = .calling)
    (status : Nat) (iterable : Bool) : RecordEffect s
      ({ s with statusCode := status, finalizeDeferred := iterable }.leaveMiddleware config)
      (.responded status iterable) := by
  rw [Owed, hp] at hs
  obtain ⟨hfresh, -⟩ := hs
  cases iterable with
  | true =>
    have hnext : Fresh { s with statusCode := status, finalizeDeferred := true, point := .returned } :=
      ⟨hfresh.1, hfresh.2, hfresh.3, hfresh.4, hfresh.5⟩
    exact .underway (by simp [hp]) nofun hnext (iff_of_false nofun (by simp [hp])) id
  | false =>
    have hnext : Fresh { s with statusCode := status, finalizeDeferred := false } :=
      ⟨hfresh.1, hfresh.2, hfresh.3, hfresh.4, hfresh.5⟩
    exact .finalize hc hnext (by simp [hp]) (by simp [hp]) nofun id

theorem RecordEffect.iterated (hc : config.Audited) (hs : s.Owed) (hp : s.point = .iterating)
    (hdiscard : e ≠ .discard) (hinsert : ¬ Miscounts e) :
    RecordEffect s (s.finalize config) e := by
  rw [Owed, hp] at hs
  exact .finalize hc hs (by simp [hp]) (by simp [hp]) hdiscard hinsert

theorem step_record (hc : config.Audited) (hs : s.Owed) (h : step config s e = some t) :
    RecordEffect s t e := by
  unfold step at h
  split at h
  case h_1 hp =>
    cases h
    rw [Owed, hp] at hs
    rw [leaveMiddleware, hs.2]
    exact .finalize hc hs.1 (by simp [hp]) (by simp [hp]) nofun id
  case h_2 status iterable hp =>
    cases h
    exact .responded hc hs hp status iterable
  case h_3 hp =>
    cases h
    rw [Owed, hp] at hs
    have hnext : Fresh { s with point := .dropped } := ⟨hs.1, hs.2, hs.3, hs.4, hs.5⟩
    exact .underway (by simp [hp]) nofun hnext (iff_of_true rfl (.inr rfl)) id
  case h_4 hp =>
    cases h
    rw [Owed, hp] at hs
    have hnext : Fresh { s with point := .iterating } := ⟨hs.1, hs.2, hs.3, hs.4, hs.5⟩
    exact .underway (by simp [hp]) nofun hnext (iff_of_false nofun (by simp [hp])) id
  case h_5 hp =>
    cases h
    exact .underway (by simp [hp]) (by simp [hp]) hs (by simp [hp]) id
  case h_6 hp =>
    cases h
    exact .iterated hc hs hp nofun id
  case h_7 hp =>
    cases h
    exact .iterated hc hs hp nofun id
  case h_8 hp =>
    cases h
    exact .iterated hc hs hp nofun id
  case h_9 fate hp =>
    obtain ⟨row, _, rfl⟩ := Option.map_eq_some_iff.1 h
    exact .awaitedInsert hs hp row fate
  case h_10 fate hp =>
    split at h
    · cases h
    · next row tasks htasks =>
      cases h
      exact .taskInsert hs hp htasks fate
  case h_11 =>
    cases h
    exact ⟨hs.writes _, (or_iff_left nofun).symm, (or_iff_left id).symm⟩
  case h_12 => cases h

/-- Whatever happens, the request is finalised at most once. -/
theorem finalizations_le_one (hc : config.Audited) {trace : List ExchangeEvent}
    (h : run (step config) {} trace = some s) : s.finalizations ≤ 1 := by
  have hs := run_invariant (fun _ _ _ hs ht => (step_record hc hs ht).owed) owed_init h
  rw [Owed] at hs
  cases hp : s.point with
  | calling =>
    rw [hp] at hs
    exact hs.1.finalizations.le.trans (Nat.zero_le 1)
  | returned | iterating | dropped =>
    rw [hp] at hs
    exact hs.finalizations.le.trans (Nat.zero_le 1)
  | finalizing | ended =>
    rw [hp] at hs
    exact hs.1.le

/-- The response is dropped before its body is read, and there is no record of the request. -/
theorem no_record_of_discarded :
    let config : AuditConfig := ⟨true, false, true, true, some "gpt-4o"⟩
    ∃ s, run (step config) {} [.responded 200 true, .discard] = some s ∧ config.Audited ∧
      s.Complete ∧ ¬ s.AuditedOnce ∧ s.finalizations = 0 ∧ s.rows = [] ∧ s.lines = [] :=
  ⟨_, rfl, ⟨rfl, rfl, rfl⟩, ⟨.inr rfl, rfl⟩, (fun h => nomatch h.1), rfl, rfl, rfl⟩

theorem miscounts_iff : Miscounts e ↔ e = .insert (.fails .leave) ∨
    ∃ step, step ≠ .leave ∧ e = .insert (.cancelled step) := by
  cases e with
  | insert fate =>
    rw [Miscounts]
    cases fate with
    | completes => simp [LineFate.commits, LineFate.fallsBack]
    | fails step => simp [LineFate.commits, LineFate.fallsBack]
    | cancelled step => simp [LineFate.commits, LineFate.fallsBack]
  | _ => simp [Miscounts]

/-- A chat request is audited exactly once if its response is not dropped unread and its insert
neither raises behind the commit nor is cancelled before it. -/
theorem audited_once_iff (hc : config.Audited) {trace : List ExchangeEvent}
    (h : run (step config) {} trace = some s) (hs : s.Complete) :
    s.AuditedOnce ↔ .discard ∉ trace ∧ .insert (.fails .leave) ∉ trace ∧
      ∀ step, .insert (.cancelled step) ∈ trace → step = .leave := by
  have hinv (s e t) (hs : Owed s) (ht : step config s e = some t) : t.Owed :=
    (step_record hc hs ht).owed
  have howed := run_invariant hinv owed_init h
  have hdropped : s.point = .dropped ↔ .discard ∈ trace := by
    rw [run_sometime hinv (fun s e t hs ht => (step_record hc hs ht).dropped) owed_init h,
      sometime_iff h]
    simp
  have hmiscounted : s.Miscounted ↔ ∃ e ∈ trace, Miscounts e := by
    rw [run_sometime hinv (fun s e t hs ht => (step_record hc hs ht).miscounted) owed_init h,
      sometime_iff h]
    exact or_iff_right (not_miscounted nofun)
  have hcounted : ¬ s.Miscounted ↔ .insert (.fails .leave) ∉ trace ∧
      ∀ step, .insert (.cancelled step) ∈ trace → step = .leave := by
    rw [hmiscounted]
    simp only [miscounts_iff]
    constructor
    · intro hnot
      refine ⟨fun hmem => hnot ⟨_, hmem, .inl rfl⟩, fun step hmem => ?_⟩
      by_contra hstep
      exact hnot ⟨_, hmem, .inr ⟨step, hstep, rfl⟩⟩
    · rintro ⟨hleave, hcancelled⟩ ⟨_, hmem, rfl | ⟨step, hstep, rfl⟩⟩
      · exact hleave hmem
      · exact hstep (hcancelled step hmem)
  rw [← hdropped, ← hcounted, AuditedOnce]
  rw [Owed] at howed
  obtain ⟨hended | hdrop, ht⟩ := hs
  · rw [hended] at howed ⊢
    have hnot : ExchangePoint.ended ≠ .dropped := nofun
    rw [and_iff_right howed.1, and_iff_right hnot, Miscounted, hended, and_iff_right rfl,
      and_iff_right ht, not_not]
  · rw [hdrop] at howed ⊢
    rw [howed.finalizations]
    exact iff_of_false (fun hd => nomatch hd.1) fun hd => hd.1 rfl

theorem audited_once_iff_closed_midway :
    let config : AuditConfig := ⟨true, false, true, true, some "gpt-4o"⟩
    let trace : List ExchangeEvent := [.responded 200 true, .start, .chunk, .close,
      .insert (.fails .commit)]
    ∃ s, run (step config) {} trace = some s ∧ s.AuditedOnce := by
  intro config trace
  have hrun : ∃ s, run (step config) {} trace = some s := ⟨_, rfl⟩
  obtain ⟨s, hs⟩ := hrun
  have hcomplete : s.Complete := by
    obtain rfl := Option.some.inj hs
    exact ⟨.inl rfl, rfl⟩
  refine ⟨s, hs, (audited_once_iff ⟨rfl, rfl, rfl⟩ hs hcomplete).2 ⟨?_, ?_, ?_⟩⟩
  · decide
  · decide
  · intro step hstep
    simp [trace] at hstep

end Exchange

end AiServing
