import AiServing.Transitions
import Mathlib.Algebra.Order.Group.Multiset
import Mathlib.Data.Fintype.BigOperators
import Mathlib.Tactic.Abel

namespace AiServing
open Transitions
set_option autoImplicit true
set_option linter.unusedSectionVars false

/-- `write_audit_fallback`: take the process's lock, open for append, write, close, let go. -/
inductive WriterPhase where
  | idle
  | holding
  | opened (inode : Nat)
  | written
  | closed
  | done
  deriving DecidableEq

inductive WriterAction where
  | acquire
  | openAppend
  | write
  | close
  | release

/-- `replay_audit_fallback`; `replaying` carries the lines to insert and those that failed. -/
inductive ReplayPhase (Line : Type) where
  | idle
  | checked
  | rechecked
  | renamed
  | replaying (rest failed : List Line)
  | quarantined
  | done
  deriving DecidableEq

inductive ReplayAction where
  | check
  | recheck
  | replace
  | read
  | insert (accepted : Bool)
  | quarantine
  | unlink

/-- The file system, the database and the calls `W` and `R` of processes `P`. -/
structure Race (W R P Line : Type) where
  files : Nat → List Line
  nextInode : Nat
  live : Option Nat
  snapshot : R → Option Nat
  quarantine : List Line
  rows : List Line
  lock : P → Option W
  writer : W → WriterPhase
  replay : R → ReplayPhase Line

inductive RaceAction (W R : Type) where
  | writer (w : W) (a : WriterAction)
  | replay (r : R) (a : ReplayAction)

variable {W R P Line : Type}

/-- Before the calls start, `file` is what the fallback file holds, if it exists. -/
def Race.init (file : Option (List Line)) : Race W R P Line where
  files := fun _ => file.getD []
  nextInode := 1
  live := file.map fun _ => 0
  snapshot := fun _ => none
  quarantine := []
  rows := []
  lock := fun _ => none
  writer := fun _ => .idle
  replay := fun _ => .idle

def Race.Finished (s : Race W R P Line) : Prop :=
  (∀ w, s.writer w = .done) ∧ ∀ r, s.replay r = .done

def Race.liveLines (s : Race W R P Line) : Multiset Line :=
  s.live.elim 0 fun i => (s.files i : Multiset Line)

/-- The lines in the live file, the committed rows and the quarantine file. -/
def Race.kept (s : Race W R P Line) : Multiset Line := s.liveLines + s.rows + s.quarantine

def Race.unread (s : Race W R P Line) (r : R) : Option Nat :=
  if s.replay r matches .renamed then s.snapshot r else none

def pendingOf (files : Nat → List Line) (snapshot : Option Nat) :
    ReplayPhase Line → Multiset Line
  | .renamed => snapshot.elim 0 fun i => (files i : Multiset Line)
  | .replaying rest failed => (rest : Multiset Line) + failed
  | _ => 0

/-- The lines that a replay still has to bring to an end. -/
def Race.pending (s : Race W R P Line) (r : R) : Multiset Line :=
  pendingOf s.files (s.snapshot r) (s.replay r)

/-- A write to this file will be seen: it is the live one, or a snapshot not yet read. -/
def Race.Seen (s : Race W R P Line) (i : Nat) : Prop := s.live = some i ∨ ∃ r, s.unread r = some i

/-- No two names point at one file. -/
structure Race.Separate (s : Race W R P Line) : Prop where
  live_lt : ∀ i, s.live = some i → i < s.nextInode
  snapshot_lt : ∀ r i, s.snapshot r = some i → i < s.nextInode
  live_ne : ∀ r i, s.live = some i → s.snapshot r ≠ some i
  snapshot_inj : ∀ r r' i, s.snapshot r = some i → s.snapshot r' = some i → r = r'

theorem Race.Separate.init (file : Option (List Line)) :
    (Race.init file : Race W R P Line).Separate where
  live_lt i h := by
    obtain ⟨_, _, rfl⟩ := Option.map_eq_some_iff.1 h
    exact Nat.one_pos
  snapshot_lt r i h := by cases h
  live_ne r i h hs := by cases hs
  snapshot_inj r r' i h := by cases h

variable {s t : Race W R P Line} {process : W → P} {line : W → Line}

def WriterPhase.hasWritten : WriterPhase → Bool
  | .written => true
  | .closed => true
  | .done => true
  | _ => false

/-- What a writer's step does to the files: nothing, or a new live file, or one more line. -/
inductive WriterEffect (line : W → Line) (s t : Race W R P Line) (w : W) (a : WriterAction) : Prop
  | quiet (ha : a ≠ .write) (hfiles : t.files = s.files) (hnext : t.nextInode = s.nextInode)
      (hlive : t.live = s.live)
  | created (ha : a ≠ .write) (hnone : s.live = none)
      (hfiles : t.files = Function.update s.files s.nextInode [])
      (hnext : t.nextInode = s.nextInode + 1) (hlive : t.live = some s.nextInode)
  | wrote (ha : a = .write) (i : Nat) (hopen : s.writer w = .opened i)
      (hfiles : t.files = Function.update s.files i (s.files i ++ [line w]))
      (hnext : t.nextInode = s.nextInode) (hlive : t.live = s.live)

structure WriterFrame (s t : Race W R P Line) (w : W) (a : WriterAction) : Prop where
  snapshot : t.snapshot = s.snapshot
  replay : t.replay = s.replay
  rows : t.rows = s.rows
  quarantine : t.quarantine = s.quarantine
  others : ∀ v, v ≠ w → t.writer v = s.writer v
  phase : (t.writer w).hasWritten = ((s.writer w).hasWritten || a matches .write)
  once : a = .write → (s.writer w).hasWritten = false

theorem Race.Separate.writer (hs : s.Separate) (hf : WriterFrame s t w a)
    (he : WriterEffect line s t w a) : t.Separate := by
  have hsnap := hf.snapshot
  cases he with
  | quiet _ _ hnext hlive =>
    refine ⟨?_, ?_, ?_, ?_⟩
    all_goals simp only [hsnap, hnext, hlive]
    exacts [hs.live_lt, hs.snapshot_lt, hs.live_ne, hs.snapshot_inj]
  | created _ _ _ hnext hlive =>
    -- the new file's number is above every number in use
    refine ⟨?_, ?_, ?_, ?_⟩
    all_goals simp only [hsnap, hnext, hlive]
    · intro i hi
      obtain rfl := Option.some.inj hi
      exact Nat.lt_succ_self _
    · intro r i hi
      exact Nat.lt_succ_of_lt (hs.snapshot_lt r i hi)
    · intro r i hi hr
      obtain rfl := Option.some.inj hi
      exact Nat.lt_irrefl _ (hs.snapshot_lt r _ hr)
    · exact hs.snapshot_inj
  | wrote _ _ _ _ hnext hlive =>
    refine ⟨?_, ?_, ?_, ?_⟩
    all_goals simp only [hsnap, hnext, hlive]
    exacts [hs.live_lt, hs.snapshot_lt, hs.live_ne, hs.snapshot_inj]

section Writer

variable [DecidableEq W] [DecidableEq P]

def Race.setWriter (s : Race W R P Line) (w : W) (phase : WriterPhase) : Race W R P Line :=
  { s with writer := Function.update s.writer w phase }

def writerStep (process : W → P) (line : W → Line) (s : Race W R P Line) (w : W)
    (a : WriterAction) : Option (Race W R P Line) :=
  match a, s.writer w with
  | .acquire, .idle =>
    if s.lock (process w) = none then
      some { s.setWriter w .holding with lock := Function.update s.lock (process w) (some w) }
    else none
  | .openAppend, .holding =>
    match s.live with
    | some i => some (s.setWriter w (.opened i))
    | none =>
      some { s.setWriter w (.opened s.nextInode) with
        files := Function.update s.files s.nextInode []
        nextInode := s.nextInode + 1
        live := some s.nextInode }
  | .write, .opened i =>
    some { s.setWriter w .written with
      files := Function.update s.files i (s.files i ++ [line w]) }
  | .close, .written => some (s.setWriter w .closed)
  | .release, .closed =>
    some { s.setWriter w .done with lock := Function.update s.lock (process w) none }
  | _, _ => none

theorem WriterFrame.of_update {phase : WriterPhase} (hsnapshot : t.snapshot = s.snapshot)
    (hreplay : t.replay = s.replay) (hrows : t.rows = s.rows)
    (hquarantine : t.quarantine = s.quarantine)
    (hwriter : t.writer = Function.update s.writer w phase)
    (hphase : phase.hasWritten = ((s.writer w).hasWritten || a matches .write))
    (honce : a = .write → (s.writer w).hasWritten = false) : WriterFrame s t w a where
  snapshot := hsnapshot
  replay := hreplay
  rows := hrows
  quarantine := hquarantine
  others := by
    intro v hv
    rw [hwriter, Function.update_of_ne hv]
  phase := by rw [hwriter, Function.update_self, hphase]
  once := honce

theorem writerStep_cases (h : writerStep process line s w a = some t) :
    WriterFrame s t w a ∧ WriterEffect line s t w a := by
  unfold writerStep at h
  split at h
  · next hw =>
    split at h
    · cases h
      refine ⟨.of_update rfl rfl rfl rfl rfl ?_ nofun, .quiet nofun rfl rfl rfl⟩
      rw [hw]
      rfl
    · cases h
  · next hw =>
    split at h
    · cases h
      refine ⟨.of_update rfl rfl rfl rfl rfl ?_ nofun, .quiet nofun rfl rfl rfl⟩
      rw [hw]
      rfl
    · next hl =>
      cases h
      refine ⟨.of_update rfl rfl rfl rfl rfl ?_ nofun, .created nofun hl rfl rfl rfl⟩
      rw [hw]
      rfl
  · next i hw =>
    cases h
    refine ⟨.of_update rfl rfl rfl rfl rfl ?_ fun _ => by rw [hw]; rfl,
      .wrote rfl i hw rfl rfl rfl⟩
    rw [hw]
    rfl
  · next hw =>
    cases h
    refine ⟨.of_update rfl rfl rfl rfl rfl ?_ nofun, .quiet nofun rfl rfl rfl⟩
    rw [hw]
    rfl
  · next hw =>
    cases h
    refine ⟨.of_update rfl rfl rfl rfl rfl ?_ nofun, .quiet nofun rfl rfl rfl⟩
    rw [hw]
    rfl
  · cases h

end Writer

section Replay

variable [DecidableEq R]

def Race.setReplay (s : Race W R P Line) (r : R) (phase : ReplayPhase Line) : Race W R P Line :=
  { s with replay := Function.update s.replay r phase }

def replayStep (s : Race W R P Line) (r : R) (a : ReplayAction) : Option (Race W R P Line) :=
  match a, s.replay r with
  | .check, .idle => some (s.setReplay r (if s.live = none then .done else .checked))
  | .recheck, .checked => some (s.setReplay r (if s.live = none then .done else .rechecked))
  | .replace, .rechecked =>
    match s.live with
    | none => some (s.setReplay r .done)
    | some i =>
      some { s.setReplay r .renamed with
        live := none
        snapshot := Function.update s.snapshot r (some i) }
  | .read, .renamed => (s.snapshot r).map fun i => s.setReplay r (.replaying (s.files i) [])
  | .insert true, .replaying (l :: rest) failed =>
    some { s.setReplay r (.replaying rest failed) with rows := s.rows ++ [l] }
  | .insert false, .replaying (l :: rest) failed =>
    some (s.setReplay r (.replaying rest (failed ++ [l])))
  | .quarantine, .replaying [] failed =>
    some { s.setReplay r .quarantined with quarantine := s.quarantine ++ failed }
  | .unlink, .quarantined =>
    some { s.setReplay r .done with snapshot := Function.update s.snapshot r none }
  | _, _ => none

/-- What a replay's step does to the names. -/
inductive ReplayEffect (s t : Race W R P Line) (r : R) : Prop
  | quiet (hlive : t.live = s.live) (hsnap : t.snapshot = s.snapshot)
  | renamed (i : Nat) (hi : s.live = some i) (hlive : t.live = none)
      (hsnap : t.snapshot = Function.update s.snapshot r (some i))
  | unlinked (hlive : t.live = s.live) (hsnap : t.snapshot = Function.update s.snapshot r none)

structure ReplayFrame (s t : Race W R P Line) (r : R) : Prop where
  files : t.files = s.files
  nextInode : t.nextInode = s.nextInode
  writer : t.writer = s.writer
  others : ∀ q, q ≠ r → t.pending q = s.pending q
  moved : t.kept + t.pending r = s.kept + s.pending r

theorem pending_setReplay (s : Race W R P Line) (r q : R) (phase : ReplayPhase Line) (h : q ≠ r) :
    (s.setReplay r phase).pending q = s.pending q := by
  have hq : (s.setReplay r phase).replay q = s.replay q := Function.update_of_ne h _ _
  exact congrArg (pendingOf s.files (s.snapshot q)) hq

theorem pending_setReplay_self (s : Race W R P Line) (r : R) (phase : ReplayPhase Line) :
    (s.setReplay r phase).pending r = pendingOf s.files (s.snapshot r) phase := by
  have hr : (s.setReplay r phase).replay r = phase := Function.update_self _ _ _
  exact congrArg (pendingOf s.files (s.snapshot r)) hr

theorem replayStep_cases (h : replayStep s r a = some t) :
    ReplayFrame s t r ∧ ReplayEffect s t r := by
  have hkept (phase : ReplayPhase Line) (hp : pendingOf s.files (s.snapshot r) phase = s.pending r) :
      ReplayFrame s (s.setReplay r phase) r := by
    refine ⟨rfl, rfl, rfl, fun q hq => pending_setReplay s r q phase hq, ?_⟩
    rw [pending_setReplay_self, hp]
    rfl
  unfold replayStep at h
  split at h
  · next hr =>
    cases h
    refine ⟨hkept _ ?_, .quiet rfl rfl⟩
    rw [Race.pending, hr]
    split <;> rfl
  · next hr =>
    cases h
    refine ⟨hkept _ ?_, .quiet rfl rfl⟩
    rw [Race.pending, hr]
    split <;> rfl
  · next hr =>
    split at h
    · cases h
      refine ⟨hkept _ ?_, .quiet rfl rfl⟩
      rw [Race.pending, hr]
      rfl
    · next i hl =>
      cases h
      refine ⟨⟨rfl, rfl, rfl, fun q hq => ?_, ?_⟩, .renamed i hl rfl rfl⟩
      · simp only [Race.pending, Race.setReplay, Function.update_of_ne hq]
      · simp only [Race.pending, Race.kept, Race.liveLines, Race.setReplay, Function.update_self,
          hr, hl, pendingOf, Option.elim]
        abel
  · next hr =>
    obtain ⟨i, hi, rfl⟩ := Option.map_eq_some_iff.1 h
    refine ⟨hkept _ ?_, .quiet rfl rfl⟩
    rw [Race.pending, hr, hi]
    exact add_zero _
  · next l rest failed hr =>
    cases h
    refine ⟨⟨rfl, rfl, rfl, fun q hq => pending_setReplay s r q _ hq, ?_⟩, .quiet rfl rfl⟩
    simp only [Race.pending, Race.kept, Race.liveLines, Race.setReplay, Function.update_self, hr,
      pendingOf, ← Multiset.coe_add, ← Multiset.cons_coe, ← Multiset.singleton_add, Multiset.coe_nil]
    abel
  · next l rest failed hr =>
    cases h
    refine ⟨hkept _ ?_, .quiet rfl rfl⟩
    simp only [Race.pending, hr, pendingOf, ← Multiset.coe_add, ← Multiset.cons_coe,
      ← Multiset.singleton_add, Multiset.coe_nil]
    abel
  · next failed hr =>
    cases h
    refine ⟨⟨rfl, rfl, rfl, fun q hq => pending_setReplay s r q _ hq, ?_⟩, .quiet rfl rfl⟩
    simp only [Race.pending, Race.kept, Race.liveLines, Race.setReplay, Function.update_self, hr,
      pendingOf, ← Multiset.coe_add, Multiset.coe_nil]
    abel
  · next hr =>
    cases h
    refine ⟨⟨rfl, rfl, rfl, fun q hq => ?_, ?_⟩, .unlinked rfl rfl⟩
    · simp only [Race.pending, Race.setReplay, Function.update_of_ne hq]
    · simp only [Race.pending, Race.kept, Race.liveLines, Race.setReplay, Function.update_self, hr,
        pendingOf]
  · cases h

theorem Race.Separate.replay (hs : s.Separate) (hf : ReplayFrame s t r)
    (he : ReplayEffect s t r) : t.Separate := by
  have hnext := hf.nextInode
  cases he with
  | quiet hlive hsnap =>
    refine ⟨?_, ?_, ?_, ?_⟩
    all_goals simp only [hsnap, hnext, hlive]
    exacts [hs.live_lt, hs.snapshot_lt, hs.live_ne, hs.snapshot_inj]
  | renamed i hi hlive hsnap =>
    have hother {q j} (hq : t.snapshot q = some j) : (q = r ∧ j = i) ∨ s.snapshot q = some j := by
      rw [hsnap] at hq
      rcases eq_or_ne q r with rfl | hne
      · rw [Function.update_self] at hq
        exact .inl ⟨rfl, (Option.some.inj hq).symm⟩
      · rw [Function.update_of_ne hne] at hq
        exact .inr hq
    refine ⟨?_, ?_, ?_, ?_⟩
    · intro j hj
      rw [hlive] at hj
      cases hj
    · intro q j hq
      rw [hnext]
      rcases hother hq with ⟨_, rfl⟩ | hq
      · exact hs.live_lt _ hi
      · exact hs.snapshot_lt q j hq
    · intro q j hj
      rw [hlive] at hj
      cases hj
    · intro q q' j hq hq'
      rcases hother hq with ⟨rfl, rfl⟩ | hq <;> rcases hother hq' with ⟨rfl, h⟩ | hq'
      · rfl
      · exact absurd hq' (hs.live_ne _ _ hi)
      · exact absurd (h ▸ hq) (hs.live_ne _ _ hi)
      · exact hs.snapshot_inj q q' j hq hq'
  | unlinked hlive hsnap =>
    have hother {q j} (hq : t.snapshot q = some j) : s.snapshot q = some j := by
      rw [hsnap] at hq
      rcases eq_or_ne q r with rfl | hne
      · rw [Function.update_self] at hq
        cases hq
      · rwa [Function.update_of_ne hne] at hq
    refine ⟨?_, ?_, ?_, ?_⟩
    · simp only [hnext, hlive]
      exact hs.live_lt
    · intro q j hq
      rw [hnext]
      exact hs.snapshot_lt q j (hother hq)
    · intro q j hj hq
      rw [hlive] at hj
      exact hs.live_ne q j hj (hother hq)
    · intro q q' j hq hq'
      exact hs.snapshot_inj q q' j (hother hq) (hother hq')

end Replay

section Race

variable [DecidableEq W] [DecidableEq R] [DecidableEq P]

def raceStep (process : W → P) (line : W → Line) (s : Race W R P Line) :
    RaceAction W R → Option (Race W R P Line)
  | .writer w a => writerStep process line s w a
  | .replay r a => replayStep s r a

theorem Race.Separate.step (hs : s.Separate) (h : raceStep process line s a = some t) :
    t.Separate := by
  cases a with
  | writer w a =>
    obtain ⟨hf, he⟩ := writerStep_cases h
    exact hs.writer hf he
  | replay r a =>
    obtain ⟨hf, he⟩ := replayStep_cases h
    exact hs.replay hf he

variable [Fintype R]

instance (s : Race W R P Line) (i : Nat) : Decidable (s.Seen i) :=
  inferInstanceAs (Decidable (_ ∨ _))

/-- Every line that is in the live file, in a row, in quarantine or on its way there. -/
def Race.total (s : Race W R P Line) : Multiset Line := s.kept + ∑ r, s.pending r

/-- The line that a step writes. -/
def writes (line : W → Line) (_ : Race W R P Line) : RaceAction W R → Multiset Line
  | .writer w .write => {line w}
  | _ => 0

/-- The line that a step writes into a file whose snapshot has been read. -/
def loses (line : W → Line) (s : Race W R P Line) : RaceAction W R → Multiset Line
  | .writer w .write =>
    match s.writer w with
    | .opened i => if s.Seen i then 0 else {line w}
    | _ => 0
  | _ => 0

theorem pendingOf_update (files : Nat → List Line) (snapshot : Option Nat)
    (phase : ReplayPhase Line) (ls : List Line) (h : phase = .renamed → snapshot ≠ some i) :
    pendingOf (Function.update files i ls) snapshot phase = pendingOf files snapshot phase := by
  cases phase with
  | renamed =>
    cases snapshot with
    | none => rfl
    | some j =>
      have hne : j ≠ i := fun hj => h rfl (congrArg some hj)
      simp only [pendingOf, Option.elim, Function.update_of_ne hne]
  | _ => rfl

theorem total_replay (hf : ReplayFrame s t r) : t.total = s.total := by
  have hsum := sum_add_eq r hf.others
  have hmoved := hf.moved
  apply add_right_cancel (b := s.pending r)
  rw [Race.total, Race.total, add_assoc, hsum, add_left_comm, hmoved]
  abel

/-- A written line goes to the live file or to the one unread snapshot that is this file. -/
theorem total_wrote (hs : s.Separate) (hf : WriterFrame s t w a) (l : Line)
    (hfiles : t.files = Function.update s.files i (s.files i ++ [l])) (hlive : t.live = s.live) :
    t.total + (if s.Seen i then 0 else {l}) = s.total + {l} := by
  have hli : t.liveLines = s.liveLines + if s.live = some i then {l} else 0 := by
    rw [Race.liveLines, Race.liveLines, hlive, hfiles]
    cases hl : s.live with
    | none => simp
    | some j =>
      rcases eq_or_ne j i with rfl | hne
      · simp only [Option.elim, Function.update_self, if_true, ← Multiset.coe_add,
          Multiset.coe_singleton]
      · have hne' : some j ≠ some i := fun h => hne (Option.some.inj h)
        rw [if_neg hne', add_zero]
        simp only [Option.elim, Function.update_of_ne hne]
  have hpe (r : R) : t.pending r = s.pending r + if s.unread r = some i then {l} else 0 := by
    rw [Race.pending, Race.pending, hf.snapshot, hf.replay, hfiles, Race.unread]
    cases hr : s.replay r with
    | renamed =>
      by_cases hi : s.snapshot r = some i
      · simp only [pendingOf, hi, Option.elim, Function.update_self, if_true,
          ← Multiset.coe_add, Multiset.coe_singleton]
      · simp only [if_true, if_neg hi, add_zero]
        exact pendingOf_update _ _ _ _ fun _ => hi
    | _ => exact (add_zero _).symm
  have hone : (∑ r, if s.unread r = some i then ({l} : Multiset Line) else 0) =
      if ∃ r, s.unread r = some i then {l} else 0 := by
    by_cases h : ∃ r, s.unread r = some i
    · obtain ⟨r, hr⟩ := h
      rw [if_pos ⟨r, hr⟩, Fintype.sum_eq_single r, if_pos hr]
      intro q hq
      apply if_neg
      intro hq'
      have hsnap {p} (hp : s.unread p = some i) : s.snapshot p = some i := by
        rw [Race.unread] at hp
        split at hp
        · exact hp
        · cases hp
      exact hq (hs.snapshot_inj q r i (hsnap hq') (hsnap hr))
    · rw [if_neg h]
      exact Finset.sum_eq_zero fun r _ => if_neg fun hr => h ⟨r, hr⟩
  have hboth : (if s.live = some i then ({l} : Multiset Line) else 0) +
      (if ∃ r, s.unread r = some i then {l} else 0) + (if s.Seen i then 0 else {l}) = {l} := by
    by_cases hl : s.live = some i
    · have hn : ¬ ∃ r, s.unread r = some i := by
        intro ⟨r, hr⟩
        rw [Race.unread] at hr
        split at hr
        · exact hs.live_ne r i hl hr
        · cases hr
      have hseen : s.Seen i := .inl hl
      rw [if_pos hl, if_neg hn, if_pos hseen, add_zero, add_zero]
    · by_cases hr : ∃ r, s.unread r = some i
      · have hseen : s.Seen i := .inr hr
        rw [if_neg hl, if_pos hr, if_pos hseen, zero_add, add_zero]
      · have hseen : ¬ s.Seen i := fun h => h.elim hl hr
        rw [if_neg hl, if_neg hr, if_neg hseen, zero_add, zero_add]
  have hsum : ∑ r, t.pending r = ∑ r, s.pending r + if ∃ r, s.unread r = some i then {l} else 0 := by
    rw [← hone, ← Finset.sum_add_distrib]
    exact Finset.sum_congr rfl fun r _ => hpe r
  rw [Race.total, Race.total, Race.kept, Race.kept, hf.rows, hf.quarantine, hli, hsum]
  conv_rhs => rw [← hboth]
  abel

theorem total_quiet (hs : s.Separate) (hf : WriterFrame s t w a) (he : WriterEffect line s t w a)
    (ha : a ≠ .write) : t.total = s.total := by
  have hkept (hlines : t.liveLines = s.liveLines) (hpe : ∀ r, t.pending r = s.pending r) :
      t.total = s.total := by
    rw [Race.total, Race.total, Race.kept, Race.kept, hf.rows, hf.quarantine, hlines]
    exact congrArg _ (Finset.sum_congr rfl fun r _ => hpe r)
  cases he with
  | quiet _ hfiles _ hlive =>
    apply hkept
    · rw [Race.liveLines, Race.liveLines, hfiles, hlive]
    · intro r
      rw [Race.pending, Race.pending, hf.snapshot, hf.replay, hfiles]
  | created _ hnone hfiles _ hlive =>
    apply hkept
    · rw [Race.liveLines, Race.liveLines, hlive, hnone, hfiles, Option.elim_some,
        Function.update_self]
      rfl
    · intro r
      rw [Race.pending, Race.pending, hf.snapshot, hf.replay, hfiles]
      apply pendingOf_update
      intro _ hr
      exact Nat.lt_irrefl _ (hs.snapshot_lt r _ hr)
  | wrote ha' => exact absurd ha' ha

/-- The step lemma: lines come in by writes and go out by writes that nobody will see. -/
theorem race_balance (hs : s.Separate) (h : raceStep process line s a = some t) :
    t.total + loses line s a = s.total + writes line s a := by
  cases a with
  | replay r a =>
    rw [total_replay (replayStep_cases h).1]
    rfl
  | writer w a =>
    obtain ⟨hf, he⟩ := writerStep_cases h
    by_cases ha : a = .write
    · subst ha
      cases he with
      | quiet ha => exact absurd rfl ha
      | created ha => exact absurd rfl ha
      | wrote _ i hopen hfiles _ hlive =>
        simp only [loses, writes, hopen]
        exact total_wrote hs hf (line w) hfiles hlive
    · rw [total_quiet hs hf he ha]
      cases a with
      | write => exact absurd rfl ha
      | _ => rfl

variable [Fintype W]

/-- What a call has written by the time it is in a phase. -/
def writtenBy (line : W → Line) (w : W) (phase : WriterPhase) : Multiset Line :=
  if phase.hasWritten then {line w} else 0

def Race.writtenLines (line : W → Line) (s : Race W R P Line) : Multiset Line :=
  ∑ w, writtenBy line w (s.writer w)

theorem writtenLines_step (h : raceStep process line s a = some t) :
    t.writtenLines line = s.writtenLines line + writes line s a := by
  cases a with
  | replay r a =>
    rw [Race.writtenLines, (replayStep_cases h).1.writer]
    exact (add_zero _).symm
  | writer w a =>
    obtain ⟨hf, -⟩ := writerStep_cases h
    have hsum := sum_add_eq w fun v hv => congrArg (writtenBy line v) (hf.others v hv)
    have hphase := hf.phase
    cases hw : (s.writer w).hasWritten with
    | true =>
      have ha : a ≠ .write := by
        intro ha
        have honce := hf.once ha
        rw [hw] at honce
        cases honce
      rw [hw, Bool.true_or] at hphase
      rw [writtenBy, writtenBy, hw, hphase] at hsum
      have hnone : writes line s (.writer w a) = 0 := by
        cases a with
        | write => exact absurd rfl ha
        | _ => rfl
      rw [hnone, add_zero]
      exact add_right_cancel hsum
    | false =>
      rw [hw, Bool.false_or] at hphase
      rw [writtenBy, writtenBy, hw, hphase, if_neg Bool.false_ne_true, add_zero] at hsum
      refine hsum.trans ?_
      cases a with
      | write => rfl
      | _ => rfl

theorem Race.Finished.pending (h : s.Finished) (r : R) : s.pending r = 0 := by
  rw [Race.pending, h.2 r]
  rfl

theorem Race.Finished.writtenLines (h : s.Finished) :
    s.writtenLines line = ∑ w, {line w} := by
  apply Finset.sum_congr rfl
  intro w _
  rw [h.1 w]
  rfl

theorem loses_eq_zero (s : Race W R P Line) (a : RaceAction W R) :
    loses line s a = 0 ↔ ∀ w i, a = .writer w .write → s.writer w = .opened i → s.Seen i := by
  constructor
  · intro hl w i ha hw
    rw [ha] at hl
    by_contra hseen
    simp only [loses, hw, if_neg hseen] at hl
    exact Multiset.singleton_ne_zero _ hl
  · intro hseen
    cases a with
    | replay r a => rfl
    | writer w a =>
      cases a with
      | write =>
        rw [loses]
        split
        · next i hw => exact if_pos (hseen w i rfl hw)
        · rfl
      | _ => rfl

theorem race_total (h : run (raceStep process line) (Race.init file) trace = some s) :
    s.total + along (raceStep process line) (loses line) (Race.init file) trace =
      (file.getD [] : Multiset Line) + s.writtenLines line := by
  have hsep (s : Race W R P Line) (a t) (hs : s.Separate)
      (ht : raceStep process line s a = some t) : t.Separate := hs.step ht
  have hbal (s : Race W R P Line) (a t) (hs : s.Separate)
      (ht : raceStep process line s a = some t) :
      t.total + loses line s a = s.total + writes line s a := race_balance hs ht
  have htotal := run_balance hsep hbal (.init file) h
  have hwritten := run_gain (fun s a t ht => writtenLines_step ht) h
  have hnone : (Race.init file : Race W R P Line).writtenLines line = 0 :=
    Finset.sum_eq_zero fun w _ => rfl
  have hstart : (Race.init file : Race W R P Line).total = (file.getD [] : Multiset Line) := by
    have hpending : ∑ r, (Race.init file : Race W R P Line).pending r = 0 :=
      Finset.sum_eq_zero fun r _ => rfl
    rw [Race.total, hpending]
    cases file with
    | none => rfl
    | some ls => simp [Race.kept, Race.liveLines, Race.init]
  rw [htotal, hstart, hwritten, hnone, zero_add]

/-- A writer opens the file, a replay renames, reads and unlinks it, and then the writer writes. -/
def lateWrite : List (RaceAction Unit Unit) :=
  [.writer () .acquire, .writer () .openAppend, .replay () .check, .replay () .recheck,
    .replay () .replace, .replay () .read, .writer () .write, .replay () .quarantine,
    .replay () .unlink, .writer () .close, .writer () .release]

theorem race_loses_lateWrite :
    ∃ s : Race Unit Unit Unit Nat, run (raceStep id fun _ => 7) (Race.init none) lateWrite = some s ∧
      s.Finished ∧
      s.kept ≠ ((none : Option (List Nat)).getD [] : Multiset Nat) + ∑ _w : Unit, {7} := by
  refine ⟨_, rfl, ⟨fun _ => rfl, fun _ => rfl⟩, ?_⟩
  decide +kernel

/-- Once every call is over, the lines are all there exactly if every write was seen. -/
theorem race_kept_iff (h : run (raceStep process line) (Race.init file) trace = some s)
    (hdone : s.Finished) :
    s.kept = (file.getD [] : Multiset Line) + ∑ w, {line w} ↔
      Always (raceStep process line)
        (fun s a => ∀ w i, a = .writer w .write → s.writer w = .opened i → s.Seen i)
        (Race.init file) trace := by
  have htotal := race_total h
  have hpending : ∑ r, s.pending r = 0 := Finset.sum_eq_zero fun r _ => hdone.pending r
  rw [Race.total, hpending, add_zero, hdone.writtenLines] at htotal
  have hzero (x y : Multiset Line) : x + y = 0 ↔ x = 0 ∧ y = 0 := add_eq_zero_iff_of_nonneg
    (Multiset.zero_le x) (Multiset.zero_le y)
  have hloses := along_eq_zero hzero (g := loses line) h
  simp only [loses_eq_zero] at hloses
  rw [← hloses, ← htotal]
  exact left_eq_add

/-- The same calls, with the write in front of the read. -/
def earlyWrite : List (RaceAction Unit Unit) :=
  [.writer () .acquire, .writer () .openAppend, .replay () .check, .replay () .recheck,
    .replay () .replace, .writer () .write, .replay () .read, .replay () (.insert true),
    .replay () .quarantine, .replay () .unlink, .writer () .close, .writer () .release]

theorem race_kept_iff_earlyWrite :
    Always (raceStep (R := Unit) (id : Unit → Unit) fun _ => 7)
      (fun s a => ∀ w i, a = .writer w .write → s.writer w = .opened i → s.Seen i)
      (Race.init none) earlyWrite := by
  refine (race_kept_iff rfl ⟨fun _ => rfl, fun _ => rfl⟩).1 ?_
  decide +kernel

end Race

end AiServing
