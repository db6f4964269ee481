import AiServing.AuditOnce
import AiServing.FallbackRoundTrip

namespace AiServing
set_option autoImplicit true

/-- What happens to the audit trail: an `_insert_audit_log` call, which falls back to the file, or a
replay of the file. -/
inductive TrailEvent where
  | insert (f : AuditFields) (fate : InsertFate)
  | replay (superAdmin sessionmaker : Bool) (faults : ReplayFaults)

section Trail

variable {DateTime : Type} (fromisoformat : Text → Option DateTime) (loads : Text → Option Json)

/-- The rows are kept as the columns they are given. -/
abbrev TrailStore (DateTime : Type) := AuditStore (List (Text × AuditValue DateTime))

def TrailEvent.perform (w : TrailStore DateTime) : TrailEvent → TrailStore DateTime
  | .insert f fate =>
    let w := if fate.commits then { w with rows := w.rows ++ [f.items DateTime] } else w
    if fate.fallsBack then writeAuditFallback w f else w
  | .replay superAdmin sessionmaker faults =>
    (replayAuditFallback (auditLogOfLine fromisoformat loads) superAdmin sessionmaker faults w).1

def trailOf (events : List TrailEvent) : TrailStore DateTime :=
  events.foldl (TrailEvent.perform fromisoformat loads) ⟨none, none, [], []⟩

def replayed (w : TrailStore DateTime) : TrailStore DateTime :=
  (replayAuditFallback (auditLogOfLine fromisoformat loads) true true {} w).1

/-- The fallback file is replayed, and then the quarantine in its place. -/
def recovered (w : TrailStore DateTime) : TrailStore DateTime :=
  let w := replayed fromisoformat loads w
  replayed fromisoformat loads { w with live := some (encodeUtf8 w.quarantine), quarantine := [] }

end Trail

def finalised (events : List TrailEvent) : List AuditFields :=
  events.filterMap fun
    | .insert f _ => some f
    | .replay _ _ _ => none

/-- Those whose insert is cancelled before its commit. -/
def lost (events : List TrailEvent) : List AuditFields :=
  events.filterMap fun
    | .insert f fate => if fate.commits || fate.fallsBack then none else some f
    | .replay _ _ _ => none

/-- No access of a replay to its files raises. -/
def TrailEvent.ReachesFiles : TrailEvent → Prop
  | .insert _ _ => True
  | .replay _ _ faults => faults.read = false ∧ faults.append = none ∧ faults.unlink = false

/-- No session raises while it is left, after its commit. -/
def TrailEvent.LeavesSessions : TrailEvent → Prop
  | .insert _ fate => fate ≠ .fails .leave
  | .replay _ _ faults => ∀ i, faults.line i ≠ .fails .leave ∧ faults.line i ≠ .cancelled .leave

/-- The parts hold all of `xs` and nothing else, and where `P` holds nothing twice. -/
structure Shared (P : Prop) (xs committed left : List α) : Prop where
  kept : (xs : Multiset α) ≤ committed + left
  once : P → (xs : Multiset α) = committed + left
  only : ∀ a ∈ committed ++ left, a ∈ xs

variable {P Q : Prop} {xs ys committed committed' left left' : List α}

theorem Shared.of_eq (h : (xs : Multiset α) = committed + left) : Shared P xs committed left where
  kept := h.le
  once _ := h
  only a ha := by
    rw [← Multiset.mem_coe, ← Multiset.coe_add, ← h] at ha
    exact Multiset.mem_coe.1 ha

theorem Shared.append (h : Shared P xs committed left) (h' : Shared P ys committed' left') :
    Shared P (xs ++ ys) (committed ++ committed') (left ++ left') := by
  have hsum : (committed ++ committed' : List α) + ((left ++ left' : List α) : Multiset α) =
      ((committed : Multiset α) + left) + (committed' + left') := by
    rw [← Multiset.coe_add, ← Multiset.coe_add, add_add_add_comm]
  constructor
  · rw [hsum, ← Multiset.coe_add]
    exact add_le_add h.kept h'.kept
  · intro hp
    rw [hsum, ← Multiset.coe_add, h.once hp, h'.once hp]
  · intro a ha
    have hsplit : a ∈ committed ++ left ∨ a ∈ committed' ++ left' := by
      rw [← Multiset.mem_coe, ← Multiset.coe_add, hsum, Multiset.mem_add] at ha
      exact ha
    rw [List.mem_append]
    exact hsplit.imp (h.only a) (h'.only a)

theorem Shared.congr (h : Shared P xs committed left)
    (heq : (committed : Multiset α) + left = committed' + left') :
    Shared P xs committed' left' where
  kept := heq ▸ h.kept
  once hp := (h.once hp).trans heq
  only a ha := by
    rw [← Multiset.mem_coe, ← Multiset.coe_add, ← heq] at ha
    exact h.only a ha

theorem Shared.imp (h : Shared P xs committed left) (hpq : Q → P) : Shared Q xs committed left :=
  ⟨h.kept, fun hq => h.once (hpq hq), h.only⟩

theorem Shared.again (h : Shared P xs committed (ys ++ left))
    (h' : Shared P ys committed' left') :
    Shared P xs (committed ++ committed') (left ++ left') := by
  have hsum : ((committed ++ committed' : List α) : Multiset α) + (left ++ left' : List α) =
      committed + left + (committed' + left') := by
    rw [← Multiset.coe_add, ← Multiset.coe_add, add_add_add_comm]
  have hold : (committed : Multiset α) + (ys ++ left : List α) = committed + left + ys := by
    rw [← Multiset.coe_add, add_comm (ys : Multiset α), add_assoc]
  constructor
  · rw [hsum]
    apply (h.kept.trans_eq hold).trans
    exact add_le_add_right h'.kept _
  · intro hp
    rw [hsum, h.once hp, hold, h'.once hp]
  · intro a ha
    rw [← Multiset.mem_coe, ← Multiset.coe_add, hsum, Multiset.mem_add] at ha
    rcases ha with ha | ha
    · apply h.only
      rw [← Multiset.mem_coe, ← Multiset.coe_add, hold, Multiset.mem_add]
      exact .inl ha
    · apply h.only
      rw [List.mem_append, List.mem_append]
      exact .inr (.inl (h'.only a ha))

section Loop

variable {Row : Type} {auditLog : Text → Option Row} {line : α → Text} {row : α → Row}

/-- What the loop does with the lines of `xs`: those in `done` are passed, the others left. -/
structure LoopEffect (line : α → Text) (row : α → Row) (P : Prop) (xs : List α)
    (st st' : ReplayLoop Row) (failed rest : List α) : Prop where
  passed : ∃ done, xs = done ++ rest ∧ st'.nextLineIndex = st.nextLineIndex + done.length
  quarantined : st'.quarantineLines = st.quarantineLines ++ failed.map line
  committed : ∃ committed, st'.rows = st.rows ++ committed.map row ∧
    Shared P xs committed (failed ++ rest)

theorem replayLine_effect (a : α) (hblank : isBlank (line a) = false)
    (hrow : auditLog (line a) = some (row a)) (fate : LineFate) (st : ReplayLoop Row) :
    let out := replayLine auditLog fate st.nextLineIndex (line a) st
    ∃ failed rest, (out.2 = false → rest = []) ∧ (out.2 = true → failed = [] ∧ rest = [a]) ∧
      LoopEffect line row (fate ≠ .fails .leave ∧ fate ≠ .cancelled .leave) [a] st out.1 failed
        rest := by
  intro out
  have hout : out = replayLine auditLog fate st.nextLineIndex (line a) st := rfl
  rw [replayLine, if_neg (by rw [hblank]; exact Bool.false_ne_true), hrow] at hout
  -- a row that is committed while its line is kept is there twice
  have hkept (P : Prop) (keep : Bool) (hleave : keep = true → ¬ P) : ∃ committed : List α,
      (if keep then st.rows ++ [row a] else st.rows) = st.rows ++ committed.map row ∧
        Shared P [a] committed [a] := by
    cases keep with
    | false => exact ⟨[], (List.append_nil _).symm, .of_eq (zero_add _).symm⟩
    | true =>
      refine ⟨[a], rfl, Multiset.le_add_left _ _, fun hp => absurd hp (hleave rfl), ?_⟩
      intro b hb
      rw [List.mem_append, or_self] at hb
      exact hb
  cases fate with
  | completes =>
    refine ⟨[], [], fun _ => rfl, fun h => ?_, ?_⟩
    · rw [hout] at h
      cases h
    · rw [hout]
      exact ⟨⟨[a], rfl, rfl⟩, (List.append_nil _).symm, [a], rfl, .of_eq (add_zero _).symm⟩
  | fails step =>
    refine ⟨[a], [], fun _ => rfl, fun h => ?_, ?_⟩
    · rw [hout] at h
      cases h
    · rw [hout]
      refine ⟨⟨[a], rfl, rfl⟩, rfl, hkept _ _ fun hstep hfate => hfate.1 ?_⟩
      rw [of_decide_eq_true hstep]
  | cancelled step =>
    refine ⟨[], [a], fun h => ?_, fun _ => ⟨rfl, rfl⟩, ?_⟩
    · rw [hout] at h
      cases h
    · rw [hout]
      refine ⟨⟨[], rfl, rfl⟩, (List.append_nil _).symm, hkept _ _ fun hstep hfate => hfate.2 ?_⟩
      rw [of_decide_eq_true hstep]

theorem replayLines_effect (h : ∀ a ∈ xs, isBlank (line a) = false ∧ auditLog (line a) = some (row a))
    (fates : Nat → LineFate) (st : ReplayLoop Row) : ∃ failed rest,
      LoopEffect line row (∀ i, fates i ≠ .fails .leave ∧ fates i ≠ .cancelled .leave) xs st
        (replayLines auditLog fates st.nextLineIndex (xs.map line) st).1 failed rest := by
  induction xs generalizing st with
  | nil =>
    refine ⟨[], [], ⟨[], rfl, rfl⟩, (List.append_nil _).symm, [], ?_, .of_eq rfl⟩
    exact (List.append_nil _).symm
  | cons a xs ih =>
    obtain ⟨hblank, hrow⟩ := h a List.mem_cons_self
    obtain ⟨failed, rest, hgo, hstop, heffect⟩ :=
      replayLine_effect a hblank hrow (fates st.nextLineIndex) st
    obtain ⟨⟨done, hdone, hindex⟩, hquarantined, committed, hrows, hshared⟩ := heffect
    have hshared' : Shared (∀ i, fates i ≠ .fails .leave ∧ fates i ≠ .cancelled .leave) [a]
        committed (failed ++ rest) := hshared.imp fun hall => hall _
    rw [List.map_cons, replayLines]
    rcases hstep : replayLine auditLog (fates st.nextLineIndex) st.nextLineIndex (line a) st with
      ⟨st', _ | _⟩
    · rw [hstep] at hgo hindex hquarantined hrows
      obtain rfl := hgo rfl
      rw [List.append_nil] at hdone hshared'
      subst hdone
      dsimp only at hindex hquarantined hrows ⊢
      obtain ⟨failed', rest', hrest⟩ := ih (fun b hb => h b (List.mem_cons_of_mem _ hb)) st'
      rw [List.length_singleton] at hindex
      rw [hindex] at hrest
      obtain ⟨⟨done', hdone', hindex'⟩, hquarantined', committed', hrows', hshared''⟩ := hrest
      refine ⟨failed ++ failed', rest', ⟨a :: done', ?_, ?_⟩, ?_, committed ++ committed', ?_, ?_⟩
      · rw [hdone', List.cons_append]
      · rw [hindex', List.length_cons]
        omega
      · rw [hquarantined', hquarantined, List.map_append, List.append_assoc]
      · rw [hrows', hrows, List.map_append, List.append_assoc]
      · rw [List.append_assoc]
        exact hshared'.append hshared''
    · rw [hstep] at hstop hindex hquarantined hrows
      obtain ⟨rfl, rfl⟩ := hstop rfl
      have hnil : done = [] := List.append_left_eq_self.1 hdone.symm
      subst hnil
      refine ⟨[], a :: xs, ⟨[], rfl, hindex⟩, hquarantined, committed, hrows, ?_⟩
      have hxs : Shared (∀ i, fates i ≠ .fails .leave ∧ fates i ≠ .cancelled .leave) xs [] xs :=
        .of_eq (zero_add _).symm
      have hall := hshared'.append hxs
      rw [List.append_nil] at hall
      exact hall

theorem replaySnapshot_effect (line : α → Text) (row : α → Row) {faults : ReplayFaults}
    {w : AuditStore Row} {content : ByteArray}
    (h : ∀ a ∈ xs, isBlank (line a) = false ∧ auditLog (line a) = some (row a))
    (hread : readLines faults content = .ok (xs.map line)) (happend : faults.append = none)
    (hunlink : faults.unlink = false) : ∃ committed left,
      (replaySnapshot auditLog faults w content).1 =
        { w with
          snapshot := none
          rows := w.rows ++ committed.map row
          quarantine := w.quarantine ++ failedText (left.map line) } ∧
      Shared (∀ i, faults.line i ≠ .fails .leave ∧ faults.line i ≠ .cancelled .leave) xs committed
        left := by
  obtain ⟨failed, rest, ⟨done, hdone, hindex⟩, hquarantined, committed, hrows, hshared⟩ :=
    replayLines_effect h faults.line { rows := w.rows }
  have hfinish (st : ReplayLoop Row) (pending : Option ReplayError)
      (hst : st = (replayLines auditLog faults.line 0 (xs.map line) { rows := w.rows }).1) :
      (finishReplay faults w (xs.map line) st pending).1 =
        { w with
          snapshot := none
          rows := w.rows ++ committed.map row
          quarantine := w.quarantine ++ failedText ((failed ++ rest).map line) } := by
    have hremaining : ((xs.map line).drop st.nextLineIndex).filter (fun l => !isBlank l) =
        rest.map line := by
      rw [hst, hindex, Nat.zero_add, hdone, List.map_append, ← List.length_map (f := line),
        List.drop_left, List.filter_eq_self]
      intro l hl
      obtain ⟨a, ha, rfl⟩ := List.mem_map.1 hl
      rw [(h a (hdone ▸ List.mem_append_right _ ha)).1]
      rfl
    have hwritten : st.quarantineLines ++ rest.map line = (failed ++ rest).map line := by
      rw [hst, hquarantined, List.map_append]
      rfl
    have happended : appendAuditQuarantine faults { w with rows := st.rows }
        ((failed ++ rest).map line) =
          ({ w with
            rows := st.rows
            quarantine := w.quarantine ++ failedText ((failed ++ rest).map line) }, false) := by
      rw [appendAuditQuarantine, happend]
      split
      · next hnil =>
        rw [hnil, failedText, List.flatMap_nil, List.append_nil]
      · rfl
    rw [finishReplay, hremaining, hwritten, happended]
    simp only [hunlink, Bool.false_eq_true, if_false]
    have hst' : st.rows = w.rows ++ committed.map row := by
      rw [hst]
      exact hrows
    rw [← hst']
    cases pending with
    | none => rfl
    | some e => rfl
  refine ⟨committed, failed ++ rest, ?_, hshared⟩
  rw [replaySnapshot, hread]
  dsimp only
  split
  · next hrun => exact hfinish _ _ (congrArg Prod.fst hrun).symm
  · next hrun => exact hfinish _ _ (congrArg Prod.fst hrun).symm

end Loop

section AuditLedger

variable {DateTime : Type} {fromisoformat : Text → Option DateTime} {loads : Text → Option Json}
variable {w : TrailStore DateTime} {rows lines failed : List AuditFields} {events : List TrailEvent}

/-- The fields whose line is read back as it was written. -/
structure AuditFields.Clean (loads : Text → Option Json) (f : AuditFields) : Prop where
  exposed : f.exposed = false
  loads : loads (dumps f.toJson) = some f.toJson

/-- The trail holds these rows, these lines in the fallback file and these in the quarantine. -/
structure AuditLedger (w : TrailStore DateTime) (rows lines failed : List AuditFields) : Prop where
  rows : w.rows = rows.map fun f => f.items DateTime
  live : w.live.getD .empty = encodeUtf8 (lines.flatMap fallbackLine)
  quarantine : w.quarantine = failed.flatMap fallbackLine

theorem AuditLedger.empty : AuditLedger (⟨none, none, [], []⟩ : TrailStore DateTime) [] [] [] :=
  ⟨rfl, rfl, rfl⟩

theorem AuditLedger.write (h : AuditLedger w rows lines failed) (f : AuditFields) :
    AuditLedger (writeAuditFallback w f) rows (lines ++ [f]) failed where
  rows := h.rows
  live := by
    rw [writeAuditFallback, Option.getD_some, h.live, ← encodeUtf8_append, List.flatMap_append]
    rw [List.flatMap_singleton]
  quarantine := h.quarantine

theorem AuditLedger.commit (h : AuditLedger w rows lines failed) (f : AuditFields) :
    AuditLedger { w with rows := w.rows ++ [f.items DateTime] } (rows ++ [f]) lines failed where
  rows := by rw [h.rows, List.map_append, List.map_singleton]
  live := h.live
  quarantine := h.quarantine

theorem failedText_dumps (h : ∀ f ∈ lines, AuditFields.exposed f = false) :
    failedText (lines.map fun f => dumps f.toJson) = lines.flatMap fallbackLine := by
  rw [failedText, List.flatMap_map]
  apply List.flatMap_congr
  intro f hf
  have hbreaks : ∀ c ∈ dumps f.toJson, isLineBreak c = false := by
    intro c hc
    have hany := (any_break_dumps f).trans (h f hf)
    exact Bool.eq_false_iff.2 (List.any_eq_false.1 hany c hc)
  rw [rstripNewlines_eq hbreaks, fallbackLine]

theorem readLines_fallback {faults : ReplayFaults} (hread : faults.read = false)
    (h : ∀ f ∈ lines, AuditFields.exposed f = false) :
    readLines faults (encodeUtf8 (lines.flatMap fallbackLine)) =
      .ok (lines.map fun f => dumps f.toJson) := by
  have hsame : readLines faults (encodeUtf8 (lines.flatMap fallbackLine)) =
      readLines {} (encodeUtf8 (lines.flatMap fallbackLine)) := by
    rw [readLines, readLines, hread]
  rw [hsame, readLines_file, splitlines_file h]

theorem AuditLedger.replay (h : AuditLedger w rows lines failed) (hclean : ∀ f ∈ lines, f.Clean loads)
    {superAdmin sessionmaker : Bool} {faults : ReplayFaults}
    (hfiles : (TrailEvent.replay superAdmin sessionmaker faults).ReachesFiles) :
    ∃ committed lines' left, AuditLedger (replayAuditFallback (auditLogOfLine fromisoformat loads)
        superAdmin sessionmaker faults w).1 (rows ++ committed) lines' (failed ++ left) ∧
      (∀ f ∈ lines' ++ left, f.Clean loads) ∧
      Shared (TrailEvent.replay superAdmin sessionmaker faults).LeavesSessions lines committed
        (lines' ++ left) := by
  obtain ⟨hread, happend, hunlink⟩ := hfiles
  cases hren : renamedAway superAdmin sessionmaker faults w with
  | none =>
    refine ⟨[], lines, [], ?_, ?_, .of_eq ?_⟩
    · rw [(replayAuditFallback_of_not_renamed hren).1, List.append_nil, List.append_nil]
      exact h
    · rw [List.append_nil]
      exact hclean
    · rw [List.append_nil]
      exact (zero_add _).symm
  | some content =>
    have hcontent : content = encodeUtf8 (lines.flatMap fallbackLine) := by
      have hlive := h.live
      rw [renamedAway] at hren
      rw [(Option.ite_none_right_eq_some.1 hren).2] at hlive
      exact hlive
    subst hcontent
    obtain ⟨committed, left, heffect, hshared⟩ := replaySnapshot_effect _
      (fun f => f.items DateTime)
      (w := { w with live := none, snapshot := some (encodeUtf8 (lines.flatMap fallbackLine)) })
      (fun f hf => ⟨isBlank_dumps f, auditLogOfLine_dumps (hclean f hf).loads⟩)
      (readLines_fallback hread fun f hf => (hclean f hf).exposed) happend hunlink
    have hleft : ∀ f ∈ left, f.Clean loads := by
      intro f hf
      exact hclean f (hshared.only f (List.mem_append_right _ hf))
    refine ⟨committed, [], left, ?_, hleft, hshared⟩
    rw [replayAuditFallback_of_renamed hren, heffect]
    constructor
    · rw [h.rows, List.map_append]
    · rfl
    · rw [failedText_dumps fun f hf => (hleft f hf).exposed, h.quarantine, List.flatMap_append]

theorem trailOf_snoc (events : List TrailEvent) (e : TrailEvent) :
    trailOf fromisoformat loads (events ++ [e]) =
      e.perform fromisoformat loads (trailOf fromisoformat loads events) := by
  rw [trailOf, List.foldl_append]
  rfl

theorem finalised_snoc (events : List TrailEvent) (e : TrailEvent) :
    finalised (events ++ [e]) = finalised events ++ finalised [e] := List.filterMap_append

theorem lost_snoc (events : List TrailEvent) (e : TrailEvent) :
    lost (events ++ [e]) = lost events ++ lost [e] := List.filterMap_append

theorem LineFate.eq_of_both {fate : LineFate} (hcommits : fate.commits = true)
    (hfalls : fate.fallsBack = true) : fate = .fails .leave := by
  cases fate with
  | fails step => rw [of_decide_eq_true hcommits]
  | completes => cases hfalls
  | cancelled step => cases hfalls

theorem AuditLedger.insert (fromisoformat : Text → Option DateTime) (loads : Text → Option Json)
    (h : AuditLedger w rows lines failed) (f : AuditFields) (fate : InsertFate) : ∃ committed written,
      AuditLedger ((TrailEvent.insert f fate).perform fromisoformat loads w) (rows ++ committed)
        (lines ++ written) failed ∧
      Shared (fate ≠ .fails .leave) [f] committed (written ++ lost [.insert f fate]) := by
  cases hcommits : fate.commits <;> cases hfalls : fate.fallsBack <;>
    simp only [TrailEvent.perform, lost, List.filterMap_cons, hcommits, hfalls] <;>
    simp only [Bool.or_false, Bool.or_true, Bool.false_eq_true, if_true, if_false]
  · refine ⟨[], [], ?_, .of_eq (zero_add _).symm⟩
    rw [List.append_nil, List.append_nil]
    exact h
  · refine ⟨[], [f], ?_, .of_eq (zero_add _).symm⟩
    rw [List.append_nil]
    exact h.write f
  · refine ⟨[f], [], ?_, .of_eq (add_zero _).symm⟩
    rw [List.append_nil]
    exact h.commit f
  · refine ⟨[f], [f], (h.commit f).write f, Multiset.le_add_left _ _, ?_, ?_⟩
    · intro hleaves
      exact absurd (LineFate.eq_of_both hcommits hfalls) hleaves
    · intro g hg
      rw [List.mem_append] at hg
      exact or_self_iff.1 hg

theorem trail_ledger (fromisoformat : Text → Option DateTime)
    (hclean : ∀ f ∈ finalised events, f.Clean loads) (hfiles : ∀ e ∈ events, e.ReachesFiles) :
    ∃ rows lines failed, AuditLedger (trailOf fromisoformat loads events) rows lines failed ∧
      Shared (∀ e ∈ events, e.LeavesSessions) (finalised events) rows
        (lines ++ (failed ++ lost events)) := by
  induction events using List.reverseRecOn with
  | nil => exact ⟨[], [], [], .empty, .of_eq rfl⟩
  | append_singleton events e ih =>
    rw [finalised_snoc] at hclean
    have hbefore : ∀ f ∈ finalised events, f.Clean loads :=
      fun f hf => hclean f (List.mem_append_left _ hf)
    obtain ⟨rows, lines, failed, hledger, hshared⟩ :=
      ih hbefore fun e he => hfiles e (List.mem_append_left _ he)
    have hlines : ∀ f ∈ lines, f.Clean loads := fun f hf =>
      hbefore f (hshared.only f (List.mem_append_right _ (List.mem_append_left _ hf)))
    have hlast := hfiles e (List.mem_append_right _ List.mem_cons_self)
    have hpast : (∀ e' ∈ events ++ [e], TrailEvent.LeavesSessions e') →
        ∀ e' ∈ events, TrailEvent.LeavesSessions e' :=
      fun hall e' he' => hall e' (List.mem_append_left _ he')
    have hnow : (∀ e' ∈ events ++ [e], TrailEvent.LeavesSessions e') → e.LeavesSessions :=
      fun hall => hall e (List.mem_append_right _ List.mem_cons_self)
    have hold := hshared.imp hpast
    rw [trailOf_snoc, finalised_snoc, lost_snoc]
    cases e with
    | insert f fate =>
      obtain ⟨committed, written, hledger', hone⟩ :=
        hledger.insert fromisoformat loads f fate
      refine ⟨_, _, _, hledger', (hold.append (hone.imp hnow)).congr ?_⟩
      rw [Multiset.coe_eq_coe.2 (?_ : (lines ++ (failed ++ lost events) ++
        (written ++ lost [.insert f fate])).Perm _)]
      rw [List.append_assoc lines, List.append_assoc lines, ← List.append_assoc _ written,
        ← List.append_assoc failed]
      have hcomm : (failed ++ lost events ++ written).Perm (written ++ failed ++ lost events) :=
        List.perm_append_comm.trans (.of_eq (List.append_assoc _ _ _).symm)
      simpa only [List.append_assoc] using (hcomm.append_right _).append_left lines
    | replay superAdmin sessionmaker faults =>
      obtain ⟨committed, lines', left, hledger', _, hagain⟩ := hledger.replay hlines hlast
      have hall := hold.again (hagain.imp hnow)
      have hnone : finalised [.replay superAdmin sessionmaker faults] = [] := rfl
      have hkept : lost [.replay superAdmin sessionmaker faults] = [] := rfl
      rw [hnone, hkept, List.append_nil, List.append_nil]
      refine ⟨_, _, _, hledger', hall.congr ?_⟩
      rw [Multiset.coe_eq_coe.2 (?_ : (failed ++ lost events ++ (lines' ++ left)).Perm _)]
      have hcomm : (failed ++ lost events ++ (lines' ++ left)).Perm
          (lines' ++ (left ++ failed) ++ lost events) :=
        List.perm_append_comm.trans (.of_eq (by simp only [List.append_assoc]))
      have hswap : (lines' ++ (left ++ failed)).Perm (lines' ++ (failed ++ left)) :=
        List.perm_append_comm.append_left _
      simpa only [List.append_assoc] using hcomm.trans (hswap.append_right _)

theorem lines_of_empty_file (h : encodeUtf8 (lines.flatMap fallbackLine) = .empty) : lines = [] := by
  have hdecode := decodeUtf8_encodeUtf8 (lines.flatMap fallbackLine)
  have hempty := decodeUtf8_encodeUtf8 []
  rw [h] at hdecode
  have hnil : lines.flatMap fallbackLine = [] := Option.some.inj (hdecode.symm.trans hempty)
  cases lines with
  | nil => rfl
  | cons f lines =>
    rw [List.flatMap_cons, fallbackLine, List.append_assoc] at hnil
    cases hnil

theorem AuditLedger.replayed (h : AuditLedger w rows lines failed) (hclean : ∀ f ∈ lines, f.Clean loads) :
    AuditLedger (replayed fromisoformat loads w) (rows ++ lines) [] failed ∧
      (replayed fromisoformat loads w).live = none := by
  cases hlive : w.live with
  | none =>
    have hempty := h.live
    rw [hlive] at hempty
    rw [lines_of_empty_file hempty.symm, List.append_nil]
    have hsame : AiServing.replayed fromisoformat loads w = w := by
      rw [AiServing.replayed, replayAuditFallback, hlive]
      rfl
    rw [hsame]
    exact ⟨⟨h.rows, by rw [hlive]; rfl, h.quarantine⟩, hlive⟩
  | some content =>
    have hcontent := h.live
    rw [hlive, Option.getD_some] at hcontent
    subst hcontent
    have hread : readLines {} (encodeUtf8 (lines.flatMap fallbackLine)) = .ok _ :=
      readLines_fallback rfl fun f hf => (hclean f hf).exposed
    have hrenamed : renamedAway true true {} w = some (encodeUtf8 (lines.flatMap fallbackLine)) := by
      rw [renamedAway, hlive]
      rfl
    rw [AiServing.replayed, replayAuditFallback_of_renamed hrenamed,
      replaySnapshot_completes _ (fun f => f.items DateTime) _ hread
        fun f hf => ⟨isBlank_dumps f, auditLogOfLine_dumps (hclean f hf).loads⟩]
    refine ⟨⟨?_, rfl, h.quarantine⟩, rfl⟩
    rw [h.rows, List.map_append]

theorem AuditLedger.recovered (fromisoformat : Text → Option DateTime)
    (h : AuditLedger w rows lines failed) (hclean : ∀ f ∈ lines ++ failed, f.Clean loads) :
    (recovered fromisoformat loads w).rows =
        (rows ++ (lines ++ failed)).map (fun f => f.items DateTime) ∧
      (AiServing.recovered fromisoformat loads w).live = none ∧
      (AiServing.recovered fromisoformat loads w).quarantine = [] := by
  obtain ⟨hfirst, _⟩ := h.replayed fun f hf => hclean f (List.mem_append_left _ hf)
  have hmoved : AuditLedger { AiServing.replayed fromisoformat loads w with
      live := some (encodeUtf8 (AiServing.replayed fromisoformat loads w).quarantine)
      quarantine := [] } (rows ++ lines) failed [] := by
    refine ⟨hfirst.rows, ?_, rfl⟩
    rw [hfirst.quarantine]
    rfl
  obtain ⟨hlast, hlive⟩ := hmoved.replayed fun f hf => hclean f (List.mem_append_right _ hf)
  rw [← List.append_assoc]
  exact ⟨hlast.rows, hlive, hlast.quarantine⟩

theorem trail_shared (fromisoformat : Text → Option DateTime)
    (hclean : ∀ f ∈ finalised events, f.Clean loads) (hfiles : ∀ e ∈ events, e.ReachesFiles) :
    ∃ recorded : List AuditFields, (recovered fromisoformat loads (trailOf fromisoformat loads events)).rows =
        recorded.map (fun f => f.items DateTime) ∧
      (recovered fromisoformat loads (trailOf fromisoformat loads events)).live = none ∧
      (recovered fromisoformat loads (trailOf fromisoformat loads events)).quarantine = [] ∧
      Shared (∀ e ∈ events, e.LeavesSessions) (finalised events) recorded (lost events) := by
  obtain ⟨rows, lines, failed, hledger, hshared⟩ := trail_ledger fromisoformat hclean hfiles
  have hsum : (rows : Multiset AuditFields) + (lines ++ (failed ++ lost events) : List _) =
      (rows ++ (lines ++ failed) : List _) + lost events := by
    simp only [Multiset.coe_add, List.append_assoc]
  have hrecorded := hshared.congr hsum
  obtain ⟨hrows, hlive, hquarantine⟩ := hledger.recovered fromisoformat fun f hf =>
    hclean f (hrecorded.only f (List.mem_append_left _ (List.mem_append_right _ hf)))
  exact ⟨rows ++ (lines ++ failed), hrows, hlive, hquarantine, hrecorded⟩

/-- Whatever the database does in a run, every request that it finalises gets its row in the end
unless its insert is cancelled, and none gets two unless a session raised behind its commit. The files
can be reached, and no text has a break that JSON leaves as it is. -/
theorem trail_recovers (fromisoformat : Text → Option DateTime) (loads : Text → Option Json)
    (events : List TrailEvent) (hclean : ∀ f ∈ finalised events, f.Clean loads)
    (hfiles : ∀ e ∈ events, e.ReachesFiles) :
    ∃ recorded : List AuditFields, (recovered fromisoformat loads (trailOf fromisoformat loads events)).rows =
        recorded.map (fun f => f.items DateTime) ∧
      (recovered fromisoformat loads (trailOf fromisoformat loads events)).live = none ∧
      (recovered fromisoformat loads (trailOf fromisoformat loads events)).quarantine = [] ∧
      (finalised events).Subperm (recorded ++ lost events) ∧
      (∀ f ∈ recorded, f ∈ finalised events) ∧
      ((∀ e ∈ events, e.LeavesSessions) → (recorded ++ lost events).Perm (finalised events)) := by
  obtain ⟨recorded, hrows, hlive, hquarantine, hshared⟩ := trail_shared fromisoformat hclean hfiles
  refine ⟨recorded, hrows, hlive, hquarantine, Multiset.coe_le.1 hshared.kept,
    fun f hf => hshared.only f (List.mem_append_left _ hf), fun hleaves => ?_⟩
  exact (Multiset.coe_eq_coe.1 (hshared.once hleaves)).symm

end AuditLedger

/-- The database is down, comes back for one line of the replay, and is down again; the last insert
is cancelled. -/
def sampleTrail : List TrailEvent :=
  plainFields.map (fun f => .insert f (.fails .commit)) ++
    [.replay true true { line := fun i => if i = 0 then .fails .add else .cancelled .enter },
      .insert (fieldsOfRequest "a\n\"b\"".toList) .completes,
      .insert (fieldsOfRequest "한글".toList) (.cancelled .commit)]

theorem plainFields_clean : ∀ f ∈ plainFields, f.Clean (loadsOf plainFields) := by
  intro f hf
  rcases List.mem_pair.1 hf with rfl | rfl
  · exact ⟨by decide, loadsOf_head _ _⟩
  · refine ⟨by decide, (loadsOf_tail ?_).trans (loadsOf_head _ _)⟩
    decide

theorem trail_recovers_outage : ∃ recorded : List AuditFields,
    (recovered (fun _ => (none : Option Unit)) (loadsOf plainFields)
      (trailOf (fun _ => none) (loadsOf plainFields) sampleTrail)).rows =
        recorded.map (fun f => f.items Unit) ∧
      (recorded ++ [fieldsOfRequest "한글".toList]).Perm (finalised sampleTrail) := by
  have hclean : ∀ f ∈ finalised sampleTrail, f.Clean (loadsOf plainFields) := by
    have hin : ∀ f ∈ finalised sampleTrail, f ∈ plainFields := by
      intro f hf
      have hcases : f ∈ plainFields ++
          [fieldsOfRequest "a\n\"b\"".toList, fieldsOfRequest "한글".toList] := hf
      rw [List.mem_append, List.mem_pair] at hcases
      rcases hcases with hplain | rfl | rfl
      · exact hplain
      · exact List.mem_cons_self
      · exact List.mem_cons_of_mem _ List.mem_cons_self
    exact fun f hf => plainFields_clean f (hin f hf)
  have hfiles : ∀ e ∈ sampleTrail, e.ReachesFiles := by
    intro e he
    have hcases : e ∈ [_, _, _, _, _] := he
    simp only [List.mem_cons, List.not_mem_nil, or_false] at hcases
    rcases hcases with rfl | rfl | rfl | rfl | rfl
    · trivial
    · trivial
    · exact ⟨rfl, rfl, rfl⟩
    · trivial
    · trivial
  have hleaves : ∀ e ∈ sampleTrail, e.LeavesSessions := by
    intro e he
    have hcases : e ∈ [_, _, _, _, _] := he
    simp only [List.mem_cons, List.not_mem_nil, or_false] at hcases
    rcases hcases with rfl | rfl | rfl | rfl | rfl
    · intro h
      cases h
    · intro h
      cases h
    · intro i
      dsimp only
      split
      · exact ⟨by decide, by decide⟩
      · exact ⟨by decide, by decide⟩
    · intro h
      cases h
    · intro h
      cases h
  obtain ⟨recorded, hrows, _, _, _, _, hperm⟩ :=
    trail_recovers (fun _ => none) (loadsOf plainFields) sampleTrail hclean hfiles
  exact ⟨recorded, hrows, hperm hleaves⟩

end AiServing
