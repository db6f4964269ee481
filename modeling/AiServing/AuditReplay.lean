import AiServing.TextLines
import Mathlib.Data.List.Perm.Subperm

namespace AiServing
set_option autoImplicit true

/-- What a replay call works on: the fallback file, the file under its fresh snapshot name, the
`.failed` file and the committed rows. -/
structure AuditStore (Row : Type) where
  live : Option ByteArray
  snapshot : Option ByteArray
  quarantine : Text
  rows : List Row

inductive SessionStep where
  | enter
  | add
  | commit
  | leave
  deriving DecidableEq

/-- How the transaction of one line goes: through, into an `Exception`, or into a cancellation,
which `except Exception` lets pass. -/
inductive LineFate where
  | completes
  | fails (step : SessionStep)
  | cancelled (step : SessionStep)
  deriving DecidableEq

/-- A commit that raises has committed nothing; leaving the session comes after it. -/
def LineFate.commits : LineFate → Bool
  | .completes => true
  | .fails step => step = .leave
  | .cancelled step => step = .leave

inductive ReplaceOutcome where
  | renamed
  | fileNotFound
  | osError
  deriving DecidableEq

/-- The steps of one call that raise; `append` is the number of characters that were written. -/
structure ReplayFaults where
  replace : ReplaceOutcome := .renamed
  read : Bool := false
  line : Nat → LineFate := fun _ => .completes
  append : Option Nat := none
  unlink : Bool := false

inductive ReplayError where
  | http (status : Nat) (detail : String)
  | read
  | decode
  | cancelled
  | append
  | unlink
  deriving DecidableEq

inductive ReplayEnd where
  | returned (replayed failed : Nat)
  | raised (e : ReplayError)
  deriving DecidableEq

/-- The text that `_append_audit_quarantine` writes. -/
def failedText (lines : List Text) : Text := lines.flatMap fun l => rstripNewlines l ++ ['\n']

def appendAuditQuarantine (faults : ReplayFaults) (w : AuditStore Row) (lines : List Text) :
    AuditStore Row × Bool :=
  if lines = [] then (w, false)
  else
    match faults.append with
    | none => ({ w with quarantine := w.quarantine ++ failedText lines }, false)
    | some n => ({ w with quarantine := w.quarantine ++ (failedText lines).take n }, true)

/-- The locals of the loop, with the rows committed so far. -/
structure ReplayLoop (Row : Type) where
  replayed : Nat := 0
  failed : Nat := 0
  nextLineIndex : Nat := 0
  quarantineLines : List Text := []
  rows : List Row

section Replay

-- `auditLog line` is the row built from a line, if parsing and conversion go through.
variable (auditLog : Text → Option Row)

/-- The loop body. The flag says that a cancellation left it. -/
def replayLine (fate : LineFate) (index : Nat) (line : Text) (st : ReplayLoop Row) :
    ReplayLoop Row × Bool :=
  if isBlank line then ({ st with nextLineIndex := index + 1 }, false)
  else
    match auditLog line with
    | none =>
      ({ st with
          failed := st.failed + 1
          quarantineLines := st.quarantineLines ++ [line]
          nextLineIndex := index + 1 }, false)
    | some row =>
      let rows := if fate.commits then st.rows ++ [row] else st.rows
      match fate with
      | .completes =>
        ({ st with rows := rows, replayed := st.replayed + 1, nextLineIndex := index + 1 }, false)
      | .fails _ =>
        ({ st with
            rows := rows
            failed := st.failed + 1
            quarantineLines := st.quarantineLines ++ [line]
            nextLineIndex := index + 1 }, false)
      | .cancelled _ => ({ st with rows := rows, nextLineIndex := index }, true)

def replayLines (fates : Nat → LineFate) (index : Nat) :
    List Text → ReplayLoop Row → ReplayLoop Row × Bool
  | [], st => (st, false)
  | line :: lines, st =>
    match replayLine auditLog (fates index) index line st with
    | (st, true) => (st, true)
    | (st, false) => replayLines fates (index + 1) lines st

/-- `snapshot_path.read_text(encoding="utf-8").splitlines()` -/
def readLines (faults : ReplayFaults) (content : ByteArray) : Except ReplayError (List Text) :=
  if faults.read then .error .read
  else
    match decodeUtf8 content with
    | none => .error .decode
    | some t => .ok (splitlines (universalNewlines t))

/-- The `finally` block; `pending` is what the `try` block raised. -/
def finishReplay (faults : ReplayFaults) (w : AuditStore Row) (lines : List Text)
    (st : ReplayLoop Row) (pending : Option ReplayError) : AuditStore Row × ReplayEnd :=
  let remaining := (lines.drop st.nextLineIndex).filter fun l => !isBlank l
  match appendAuditQuarantine faults { w with rows := st.rows }
      (st.quarantineLines ++ remaining) with
  | (w, true) => (w, .raised .append)
  | (w, false) =>
    if faults.unlink then (w, .raised .unlink)
    else
      match pending with
      | some e => ({ w with snapshot := none }, .raised e)
      | none => ({ w with snapshot := none }, .returned st.replayed st.failed)

def replaySnapshot (faults : ReplayFaults) (w : AuditStore Row) (content : ByteArray) :
    AuditStore Row × ReplayEnd :=
  match readLines faults content with
  | .error e => finishReplay faults w [] { rows := w.rows } (some e)
  | .ok lines =>
    match replayLines auditLog faults.line 0 lines { rows := w.rows } with
    | (st, true) => finishReplay faults w lines st (some .cancelled)
    | (st, false) => finishReplay faults w lines st none

/-- Both `exists` checks see the same file here; a replay that loses it to another one in between
gets `fileNotFound`. -/
def replayAuditFallback (superAdmin sessionmaker : Bool) (faults : ReplayFaults)
    (w : AuditStore Row) : AuditStore Row × ReplayEnd :=
  if !superAdmin then (w, .raised (.http 403 "super_admin scope is required"))
  else if !sessionmaker then (w, .raised (.http 503 "Database is not initialized"))
  else
    match w.live with
    | none => (w, .returned 0 0)
    | some content =>
      match faults.replace with
      | .fileNotFound => (w, .returned 0 0)
      | .osError => (w, .raised (.http 503 "Audit replay temporarily unavailable"))
      | .renamed =>
        replaySnapshot auditLog faults { w with live := none, snapshot := some content } content

end Replay

/-- The lines of a file that is not text, with each byte as the character it numbers. -/
def byteLines (content : ByteArray) : List Text :=
  (universalNewlines (content.toList.map fun b => Char.ofNat b.toNat)).splitOn '\n'

def isAsciiSpace (c : Char) : Bool := isSpace c && c.toNat < 0x80

/-- The lines of a file that hold more than whitespace, whether or not it is valid UTF-8. -/
def nonBlankLines (content : ByteArray) : List Text :=
  match decodeUtf8 content with
  | some t => (splitlines (universalNewlines t)).filter fun l => !isBlank l
  | none => (byteLines content).filter fun l => !l.all isAsciiSpace

variable {auditLog : Text → Option Row} {w w' : AuditStore Row} {st : ReplayLoop Row}
variable {faults : ReplayFaults} {content : ByteArray} {lines done : List Text}

/-- Every non-blank line has a row, a line of the quarantine file, or the snapshot. -/
def LinesKept (auditLog : Text → Option Row) (content : ByteArray) (w w' : AuditStore Row) : Prop :=
  w'.snapshot = some content ∨
    ∃ committed rows quarantined, w'.rows = w.rows ++ rows ∧
      committed.map auditLog = rows.map some ∧
      w'.quarantine = w.quarantine ++ failedText quarantined ∧
      (nonBlankLines content).Subperm (committed ++ quarantined)

/-- A call that returns has counted every non-blank line once, as replayed or as failed. -/
def LinesCounted (content : ByteArray) (w w' : AuditStore Row) (e : ReplayEnd) : Prop :=
  ∀ replayed failed, e = .returned replayed failed →
    ∃ r f, (r ++ f).Perm (nonBlankLines content) ∧ r.length = replayed ∧ f.length = failed ∧
      w'.quarantine = w.quarantine ++ failedText f

/-- The loop has dealt with the lines `done`. -/
structure ReplayLoop.Accounts (auditLog : Text → Option Row) (rows₀ : List Row)
    (done : List Text) (st : ReplayLoop Row) : Prop where
  failed : st.failed = st.quarantineLines.length
  lines : ∃ committed added replayed, st.rows = rows₀ ++ added ∧
    committed.map auditLog = added.map some ∧ replayed.Subperm committed ∧
    replayed.length = st.replayed ∧
    (replayed ++ st.quarantineLines).Perm (done.filter fun l => !isBlank l)

theorem filter_concat (hl : isBlank line = false) :
    (done ++ [line]).filter (fun l => !isBlank l) =
      (done.filter fun l => !isBlank l) ++ [line] := by
  simp [List.filter_append, hl]

theorem ReplayLoop.Accounts.init (auditLog : Text → Option Row) (rows₀ : List Row) :
    ReplayLoop.Accounts auditLog rows₀ [] { rows := rows₀ } where
  failed := rfl
  lines := ⟨[], [], [], (List.append_nil _).symm, rfl, .refl _, rfl, .refl _⟩

theorem ReplayLoop.Accounts.blank (h : st.Accounts auditLog rows₀ done) (hl : isBlank line)
    (n : Nat) : ReplayLoop.Accounts auditLog rows₀ (done ++ [line])
      { st with nextLineIndex := n } where
  failed := h.failed
  lines := by
    obtain ⟨committed, added, replayed, hrows, hmap, hsub, hlen, hperm⟩ := h.lines
    refine ⟨committed, added, replayed, hrows, hmap, hsub, hlen, ?_⟩
    simpa [List.filter_append, hl] using hperm

theorem ReplayLoop.Accounts.fail (h : st.Accounts auditLog rows₀ done) (hl : isBlank line = false)
    (hrow : more = [] ∨ ∃ row, auditLog line = some row ∧ more = [row]) (n : Nat) :
    ReplayLoop.Accounts auditLog rows₀ (done ++ [line])
      { st with
          rows := st.rows ++ more
          failed := st.failed + 1
          quarantineLines := st.quarantineLines ++ [line]
          nextLineIndex := n } where
  failed := by simp [h.failed]
  lines := by
    obtain ⟨committed, added, replayed, hrows, hmap, hsub, hlen, hperm⟩ := h.lines
    have hperm' := hperm.append_right [line]
    rw [List.append_assoc, ← filter_concat hl] at hperm'
    rcases hrow with rfl | ⟨row, hrow, rfl⟩
    · exact ⟨committed, added, replayed, by simp [hrows], hmap, hsub, hlen, hperm'⟩
    · refine ⟨committed ++ [line], added ++ [row], replayed, by simp [hrows], ?_,
        hsub.trans (List.sublist_append_left _ _).subperm, hlen, hperm'⟩
      simp [hmap, hrow]

theorem ReplayLoop.Accounts.replay (h : st.Accounts auditLog rows₀ done)
    (hl : isBlank line = false) (hrow : auditLog line = some row) (n : Nat) :
    ReplayLoop.Accounts auditLog rows₀ (done ++ [line])
      { st with
          rows := st.rows ++ [row]
          replayed := st.replayed + 1
          nextLineIndex := n } where
  failed := h.failed
  lines := by
    obtain ⟨committed, added, replayed, hrows, hmap, hsub, hlen, hperm⟩ := h.lines
    refine ⟨committed ++ [line], added ++ [row], replayed ++ [line], by simp [hrows],
      by simp [hmap, hrow], (List.subperm_append_right [line]).2 hsub, by simp [hlen], ?_⟩
    have hswap : (replayed ++ ([line] ++ st.quarantineLines)).Perm
        (replayed ++ (st.quarantineLines ++ [line])) := List.perm_append_comm.append_left _
    rw [filter_concat hl, List.append_assoc]
    refine hswap.trans ?_
    rw [← List.append_assoc]
    exact hperm.append_right [line]

/-- A cancelled line is not counted; its row may have been committed all the same. -/
theorem ReplayLoop.Accounts.cancel (h : st.Accounts auditLog rows₀ done)
    (hrow : more = [] ∨ ∃ row, auditLog line = some row ∧ more = [row]) (n : Nat) :
    ReplayLoop.Accounts auditLog rows₀ done
      { st with rows := st.rows ++ more, nextLineIndex := n } where
  failed := h.failed
  lines := by
    obtain ⟨committed, added, replayed, hrows, hmap, hsub, hlen, hperm⟩ := h.lines
    rcases hrow with rfl | ⟨row, hrow, rfl⟩
    · exact ⟨committed, added, replayed, by simp [hrows], hmap, hsub, hlen, hperm⟩
    · refine ⟨committed ++ [line], added ++ [row], replayed, by simp [hrows], ?_,
        hsub.trans (List.sublist_append_left _ _).subperm, hlen, hperm⟩
      simp [hmap, hrow]

/-- The step lemma: a line is dealt with and passed, or a cancellation stops in front of it. -/
theorem replayLine_accounts (h : st.Accounts auditLog rows₀ done) (fate : LineFate) (index : Nat)
    (line : Text) :
    let out := replayLine auditLog fate index line st
    (out.2 = false → out.1.nextLineIndex = index + 1 ∧
        out.1.Accounts auditLog rows₀ (done ++ [line])) ∧
      (out.2 = true → out.1.nextLineIndex = index ∧ out.1.Accounts auditLog rows₀ done) := by
  intro out
  have hout : out = replayLine auditLog fate index line st := rfl
  rw [replayLine] at hout
  cases hb : isBlank line with
  | true =>
    rw [hb, if_pos rfl] at hout
    rw [hout]
    exact ⟨fun _ => ⟨rfl, h.blank hb _⟩, fun hc => by cases hc⟩
  | false =>
    rw [hb, if_neg Bool.false_ne_true] at hout
    cases hrow : auditLog line with
    | none =>
      rw [hrow] at hout
      rw [hout]
      have hfail := h.fail hb (.inl rfl) (index + 1)
      rw [List.append_nil] at hfail
      exact ⟨fun _ => ⟨rfl, hfail⟩, fun hc => by cases hc⟩
    | some row =>
      have hmore : ∃ more, (if fate.commits then st.rows ++ [row] else st.rows) = st.rows ++ more ∧
          (more = [] ∨ ∃ row, auditLog line = some row ∧ more = [row]) := by
        cases fate.commits with
        | true => exact ⟨[row], rfl, .inr ⟨row, hrow, rfl⟩⟩
        | false => exact ⟨[], (List.append_nil _).symm, .inl rfl⟩
      obtain ⟨more, hrows, hmore⟩ := hmore
      simp only [hrow, hrows] at hout
      cases fate with
      | completes =>
        obtain rfl : [row] = more := List.append_cancel_left hrows
        rw [hout]
        exact ⟨fun _ => ⟨rfl, h.replay hb hrow _⟩, fun hc => by cases hc⟩
      | fails step =>
        rw [hout]
        exact ⟨fun _ => ⟨rfl, h.fail hb hmore _⟩, fun hc => by cases hc⟩
      | cancelled step =>
        rw [hout]
        exact ⟨fun hc => (by cases hc), fun _ => ⟨rfl, h.cancel hmore _⟩⟩

/-- The run lemma: what the loop has dealt with is the part in front of `next_line_index`. -/
theorem replayLines_accounts (h : st.Accounts auditLog rows₀ done)
    (hnext : st.nextLineIndex = done.length) (fates : Nat → LineFate)
    (lines : List Text) :
    let out := replayLines auditLog fates done.length lines st
    out.1.Accounts auditLog rows₀ ((done ++ lines).take out.1.nextLineIndex) ∧
      (out.2 = false → out.1.nextLineIndex = (done ++ lines).length) := by
  induction lines generalizing done st with
  | nil =>
    intro out
    have hout : out = (st, false) := rfl
    rw [hout, List.append_nil, hnext, List.take_length]
    exact ⟨h, fun _ => rfl⟩
  | cons line lines ih =>
    intro out
    have hout : out = replayLines auditLog fates done.length (line :: lines) st := rfl
    obtain ⟨hgo, hstop⟩ := replayLine_accounts h (fates done.length) done.length line
    rw [replayLines] at hout
    rcases hstep : replayLine auditLog (fates done.length) done.length line st with ⟨st', _ | _⟩
    · rw [hstep] at hgo hout
      obtain ⟨hindex, hacc⟩ := hgo rfl
      have hlen : (done ++ [line]).length = done.length + 1 := List.length_append
      have hrest := ih hacc (hindex.trans hlen.symm)
      rw [hlen, List.append_assoc] at hrest
      rw [hout]
      exact hrest
    · rw [hstep] at hstop hout
      obtain ⟨hindex, hacc⟩ := hstop rfl
      rw [hout]
      refine ⟨?_, fun hc => by cases hc⟩
      rw [hindex, List.take_left]
      exact hacc

theorem failedText_eq_nil (h : failedText lines = []) : lines = [] := by
  cases lines with
  | nil => rfl
  | cons l ls => simp [failedText] at h

theorem appendAuditQuarantine_cases (faults : ReplayFaults) (w : AuditStore Row)
    (lines : List Text) :
    let out := appendAuditQuarantine faults w lines
    out.1.rows = w.rows ∧ out.1.snapshot = w.snapshot ∧
      (out.2 = false → out.1.quarantine = w.quarantine ++ failedText lines) ∧
      (lines = [] → out.2 = false) := by
  intro out
  have hout : out = appendAuditQuarantine faults w lines := rfl
  rw [appendAuditQuarantine] at hout
  split at hout
  · next h =>
    rw [hout, h]
    exact ⟨rfl, rfl, fun _ => (List.append_nil _).symm, fun _ => rfl⟩
  · next h =>
    cases hf : faults.append with
    | none =>
      rw [hf] at hout
      rw [hout]
      exact ⟨rfl, rfl, fun _ => rfl, fun _ => rfl⟩
    | some n =>
      rw [hf] at hout
      rw [hout]
      exact ⟨rfl, rfl, fun hc => (by cases hc), fun hc => absurd hc h⟩

theorem finishReplay_cases (faults : ReplayFaults) (w : AuditStore Row) (lines : List Text)
    (st : ReplayLoop Row) (pending : Option ReplayError) :
    let written := st.quarantineLines ++ (lines.drop st.nextLineIndex).filter fun l => !isBlank l
    let out := finishReplay faults w lines st pending
    out.1.rows = st.rows ∧
      ((out.1.snapshot = w.snapshot ∧ (∃ e, out.2 = .raised e) ∧
          (faults.unlink = true ∨ written ≠ [])) ∨
        (faults.unlink = false ∧ out.1.snapshot = none ∧
          out.1.quarantine = w.quarantine ++ failedText written ∧
          out.2 = pending.elim (.returned st.replayed st.failed) .raised)) := by
  intro written out
  have hout : out = finishReplay faults w lines st pending := rfl
  obtain ⟨hrows, hsnap, hquar, hnil⟩ :=
    appendAuditQuarantine_cases faults { w with rows := st.rows } written
  rw [finishReplay] at hout
  rcases happ : appendAuditQuarantine faults { w with rows := st.rows } written with ⟨w₁, _ | _⟩
  · rw [happ] at hrows hsnap hquar
    simp only [show st.quarantineLines ++ (lines.drop st.nextLineIndex).filter
      (fun l => !isBlank l) = written from rfl, happ] at hout
    cases hu : faults.unlink with
    | true =>
      rw [hu, if_pos rfl] at hout
      rw [hout]
      exact ⟨hrows, .inl ⟨hsnap, ⟨_, rfl⟩, .inl rfl⟩⟩
    | false =>
      rw [hu, if_neg Bool.false_ne_true] at hout
      cases pending with
      | none =>
        rw [hout]
        exact ⟨hrows, .inr ⟨rfl, rfl, hquar rfl, rfl⟩⟩
      | some e =>
        rw [hout]
        exact ⟨hrows, .inr ⟨rfl, rfl, hquar rfl, rfl⟩⟩
  · rw [happ] at hrows hsnap hnil
    simp only [show st.quarantineLines ++ (lines.drop st.nextLineIndex).filter
      (fun l => !isBlank l) = written from rfl, happ] at hout
    rw [hout]
    exact ⟨hrows, .inl ⟨hsnap, ⟨_, rfl⟩, .inr fun h => by cases hnil h⟩⟩

/-- The file that a call renames away. -/
def renamedAway (superAdmin sessionmaker : Bool) (faults : ReplayFaults) (w : AuditStore Row) :
    Option ByteArray :=
  if superAdmin && sessionmaker && faults.replace = .renamed then w.live else none

/-- No line of the file is lost, and a call that returns has counted them all. -/
def ReplayKeepsLines (auditLog : Text → Option Row) (superAdmin sessionmaker : Bool)
    (faults : ReplayFaults) (w : AuditStore Row) : Prop :=
  let out := replayAuditFallback auditLog superAdmin sessionmaker faults w
  match renamedAway superAdmin sessionmaker faults w with
  | none => out.1 = w ∧ ∀ replayed failed, out.2 = .returned replayed failed →
      replayed = 0 ∧ failed = 0
  | some content => LinesKept auditLog content w out.1 ∧ LinesCounted content w out.1 out.2

def Readable (faults : ReplayFaults) (content : ByteArray) : Prop :=
  faults.read = false ∧ (decodeUtf8 content).isSome

theorem replayAuditFallback_of_not_renamed
    (h : renamedAway superAdmin sessionmaker faults w = none) :
    let out := replayAuditFallback auditLog superAdmin sessionmaker faults w
    out.1 = w ∧ ∀ replayed failed, out.2 = .returned replayed failed →
      replayed = 0 ∧ failed = 0 := by
  intro out
  have hout : out = replayAuditFallback auditLog superAdmin sessionmaker faults w := rfl
  rw [replayAuditFallback] at hout
  rw [renamedAway] at h
  cases superAdmin with
  | false =>
    rw [hout]
    exact ⟨rfl, fun _ _ hr => (by cases hr)⟩
  | true =>
    cases sessionmaker with
    | false =>
      rw [hout]
      exact ⟨rfl, fun _ _ hr => (by cases hr)⟩
    | true =>
      cases hl : w.live with
      | none =>
        rw [hl] at hout
        rw [hout]
        exact ⟨rfl, fun _ _ hr => (by cases hr; exact ⟨rfl, rfl⟩)⟩
      | some content =>
        rw [hl] at hout h
        cases hf : faults.replace with
        | renamed =>
          rw [hf] at h
          cases h
        | fileNotFound =>
          rw [hf] at hout
          rw [hout]
          exact ⟨rfl, fun _ _ hr => (by cases hr; exact ⟨rfl, rfl⟩)⟩
        | osError =>
          rw [hf] at hout
          rw [hout]
          exact ⟨rfl, fun _ _ hr => (by cases hr)⟩

theorem replayAuditFallback_of_renamed
    (h : renamedAway superAdmin sessionmaker faults w = some content) :
    replayAuditFallback auditLog superAdmin sessionmaker faults w =
      replaySnapshot auditLog faults { w with live := none, snapshot := some content }
        content := by
  rw [renamedAway] at h
  split at h
  · next hc =>
    simp only [Bool.and_eq_true, decide_eq_true_eq] at hc
    obtain ⟨⟨rfl, rfl⟩, hf⟩ := hc
    simp only [replayAuditFallback, h, hf, Bool.not_true, Bool.false_eq_true, if_false]
  · cases h

/-- A snapshot that is read loses no line, whatever happens to its lines and in `finally`. -/
theorem replaySnapshot_of_readable (hr : Readable faults content)
    (hs : w.snapshot = some content) :
    let out := replaySnapshot auditLog faults w content
    LinesKept auditLog content w out.1 ∧ LinesCounted content w out.1 out.2 := by
  obtain ⟨t, ht⟩ := Option.isSome_iff_exists.1 hr.2
  have hlines : nonBlankLines content =
      (splitlines (universalNewlines t)).filter fun l => !isBlank l := by
    rw [nonBlankLines, ht]
  have hread : readLines faults content = .ok (splitlines (universalNewlines t)) := by
    rw [readLines, hr.1, if_neg Bool.false_ne_true, ht]
  obtain ⟨hacc, hdone⟩ := replayLines_accounts (.init auditLog w.rows) rfl faults.line
    (splitlines (universalNewlines t))
  intro out
  have hout : ∃ st pending, st.Accounts auditLog w.rows
        ((splitlines (universalNewlines t)).take st.nextLineIndex) ∧
      (pending = none → st.nextLineIndex = (splitlines (universalNewlines t)).length) ∧
      out = finishReplay faults w (splitlines (universalNewlines t)) st pending := by
    have hout : out = replaySnapshot auditLog faults w content := rfl
    rw [replaySnapshot, hread] at hout
    rcases hrun : replayLines auditLog faults.line 0 (splitlines (universalNewlines t))
      { rows := w.rows } with ⟨st, _ | _⟩
    · simp only [List.length_nil, hrun] at hacc hdone hout
      exact ⟨st, none, hacc, fun _ => hdone trivial, hout⟩
    · simp only [List.length_nil, hrun] at hacc hdone hout
      exact ⟨st, some .cancelled, hacc, fun hc => (by cases hc), hout⟩
  obtain ⟨st, pending, hst, hall, hout⟩ := hout
  obtain ⟨committed, added, replayed, hrows, hmap, hsub, hlen, hperm⟩ := hst.lines
  have hfin := finishReplay_cases faults w (splitlines (universalNewlines t)) st pending
  rw [← hout] at hfin
  obtain ⟨hrows', ⟨hsnap, ⟨e, he⟩, _⟩ | ⟨_, _, hquar, hend⟩⟩ := hfin
  · refine ⟨.inl (hsnap.trans hs), fun _ _ hret => ?_⟩
    rw [he] at hret
    cases hret
  · have htotal : (replayed ++ (st.quarantineLines ++ ((splitlines (universalNewlines t)).drop
        st.nextLineIndex).filter fun l => !isBlank l)).Perm (nonBlankLines content) := by
      rw [hlines, ← List.append_assoc]
      conv_rhs => rw [← List.take_append_drop st.nextLineIndex (splitlines (universalNewlines t))]
      rw [List.filter_append]
      exact hperm.append_right _
    constructor
    · refine .inr ⟨committed, added, _, hrows'.trans hrows, hmap, hquar, ?_⟩
      exact htotal.symm.subperm.trans ((List.subperm_append_right _).2 hsub)
    · intro r f hret
      cases pending with
      | some e =>
        rw [hend] at hret
        cases hret
      | none =>
        rw [hend] at hret
        obtain ⟨rfl, rfl⟩ := ReplayEnd.returned.inj hret
        rw [hall rfl, List.drop_length, List.filter_nil, List.append_nil] at htotal hquar
        exact ⟨replayed, st.quarantineLines, htotal, hlen, hst.failed.symm, hquar⟩

theorem replaySnapshot_of_not_readable (auditLog : Text → Option Row) (w : AuditStore Row)
    (hr : ¬ Readable faults content) :
    ∃ e, replaySnapshot auditLog faults w content =
      finishReplay faults w [] { rows := w.rows } (some e) := by
  rw [replaySnapshot, readLines]
  split
  · next e h => exact ⟨e, rfl⟩
  · next lines h =>
    exfalso
    apply hr
    split at h
    · cases h
    · next hread =>
      refine ⟨Bool.eq_false_iff.2 hread, ?_⟩
      cases hd : decodeUtf8 content with
      | none =>
        rw [hd] at h
        cases h
      | some t => rfl

/-- A snapshot that cannot be read is unlinked with every line in it. -/
theorem replaySnapshot_keeps_iff_of_not_readable (auditLog : Text → Option Row)
    (hr : ¬ Readable faults content) (hs : w.snapshot = some content) :
    let out := replaySnapshot auditLog faults w content
    LinesKept auditLog content w out.1 ∧ LinesCounted content w out.1 out.2 ↔
      nonBlankLines content = [] ∨ faults.unlink = true := by
  intro out
  obtain ⟨e, hout⟩ := replaySnapshot_of_not_readable auditLog w hr
  obtain ⟨hrows, hend⟩ := finishReplay_cases faults w [] { rows := w.rows } (some e)
  rw [← hout] at hrows hend
  have hraised : ∃ e, out.2 = .raised e := by
    rcases hend with ⟨_, he, _⟩ | ⟨_, _, _, he⟩
    · exact he
    · exact ⟨e, he⟩
  have hcounted : LinesCounted content w out.1 out.2 := by
    intro _ _ hret
    obtain ⟨e, he⟩ := hraised
    rw [he] at hret
    cases hret
  rcases hend with ⟨hsnap, _, hu⟩ | ⟨hu, hnone, hquar, _⟩
  · have hunlink : faults.unlink = true := hu.resolve_right fun h => h rfl
    exact ⟨fun _ => .inr hunlink, fun _ => ⟨.inl (hsnap.trans hs), hcounted⟩⟩
  · constructor
    · rintro ⟨hsnap | ⟨committed, rows, quarantined, hr', hmap, hq, hsub⟩, _⟩
      · rw [hnone] at hsnap
        cases hsnap
      · have hrows_nil : rows = [] := List.append_right_eq_self.1 (hr'.symm.trans hrows)
        have hq_nil : failedText quarantined = [] := by
          have h := hq.symm.trans hquar
          exact List.append_cancel_left h
        rw [hrows_nil] at hmap
        rw [List.map_eq_nil_iff.1 hmap, failedText_eq_nil hq_nil] at hsub
        exact .inl (List.subperm_nil.1 hsub)
    · rintro (hnil | hunlink)
      · refine ⟨.inr ⟨[], [], [], by rw [List.append_nil]; exact hrows, rfl, hquar, ?_⟩, hcounted⟩
        rw [hnil]
        exact .refl _
      · rw [hu] at hunlink
        cases hunlink

/-- A line that is cut in the middle of a character takes every other line along. -/
def cutOffFile : ByteArray :=
  encodeUtf8 "\x7b\"request_id\": \"a\"\x7d\n".toList ++ ⟨#[0xea, 0xb0, 0x0a]⟩

theorem replayAuditFallback_loses_lines :
    ¬ ReplayKeepsLines (some : Text → Option Text) true true {}
      ⟨some cutOffFile, none, [], []⟩ := by
  intro h
  have hread : ¬ Readable {} cutOffFile := by
    intro hr
    have hnone : decodeUtf8 cutOffFile = none := by decide +kernel
    have hsome := hr.2
    rw [hnone] at hsome
    cases hsome
  have hkept := replaySnapshot_keeps_iff_of_not_readable some
    (w := ⟨none, some cutOffFile, [], []⟩) hread rfl
  rcases hkept.1 h with hnil | hunlink
  · have hlines : nonBlankLines cutOffFile ≠ [] := by decide +kernel
    exact hlines hnil
  · cases hunlink

theorem replayAuditFallback_keepsLines_iff (auditLog : Text → Option Row)
    (superAdmin sessionmaker : Bool) (faults : ReplayFaults) (w : AuditStore Row) :
    ReplayKeepsLines auditLog superAdmin sessionmaker faults w ↔
      ∀ content, renamedAway superAdmin sessionmaker faults w = some content →
        Readable faults content ∨ nonBlankLines content = [] ∨ faults.unlink = true := by
  rw [ReplayKeepsLines]
  cases hren : renamedAway superAdmin sessionmaker faults w with
  | none =>
    exact ⟨fun _ _ hc => (by cases hc), fun _ => replayAuditFallback_of_not_renamed hren⟩
  | some content =>
    rw [replayAuditFallback_of_renamed hren]
    by_cases hr : Readable faults content
    · exact ⟨fun _ c hc => .inl (Option.some.inj hc ▸ hr),
        fun _ => replaySnapshot_of_readable (w := { w with live := none, snapshot := some content })
          hr rfl⟩
    · have hiff := replaySnapshot_keeps_iff_of_not_readable auditLog
        (w := { w with live := none, snapshot := some content }) hr rfl
      refine hiff.trans ⟨fun h c hc => .inr (Option.some.inj hc ▸ h), fun h => ?_⟩
      exact (h content rfl).resolve_left hr

end AiServing
