import AiServing.AdminReports
import AiServing.KeyOrder
import AiServing.StableOrder

namespace AiServing
open KeyOrder
set_option autoImplicit true

/-- A database that sorts by the `ORDER BY` clause of `list_audit_logs`, and ties as it likes. -/
def NewestFirst (order : List AuditLog → List AuditLog) : Prop :=
  ∀ rows, (order rows).Perm rows ∧ Descending (fun row => row.ts.instant) (order rows)

def matchingRows (p : ApiKeyPrincipal) (context : CallContext) (query : AuditQuery) (db : Database) :
    Except AdminError (List AuditLog) := do
  requireAdminPrincipal p
  if query.limit < 1 ∨ 500 < query.limit ∨ query.offset < 0 then .error .invalid
  else
    requireSessionmaker context
    let scope ← readScope p
    let since ← orRaise (query.since.mapM DateTime.asUtc)
    let until' ← orRaise (query.until'.mapM DateTime.asUtc)
    context.check .read
    checkAuditKey scope query.apiKeyId db
    return db.auditLogs.filter fun row =>
      row.selected scope since until' && query.model.all (fun model => row.model = some model) &&
        query.apiKeyId.all fun apiKeyId => row.apiKeyId = some apiKeyId

/-- `auditPage` over a database that answers in `order`. -/
def auditPageIn (order : List AuditLog → List AuditLog) (limit offset : Nat) (rows : List AuditLog) :
    Except AdminError AuditResponse := do
  if 2 ^ 63 ≤ offset then .error .raised
  else
    let rows := ((order rows).drop offset).take (limit + 1)
    let items ← (rows.take limit).mapM auditLogItem
    return { items := items, nextOffset := if limit < rows.length then some (offset + limit) else none }

def listAuditLogsIn (order : List AuditLog → List AuditLog) (p : ApiKeyPrincipal)
    (context : CallContext) (query : AuditQuery) (db : Database) : Except AdminError AuditResponse := do
  let rows ← matchingRows p context query db
  auditPageIn order query.limit.toNat query.offset.toNat rows

theorem listAuditLogs_eq (p : ApiKeyPrincipal) (context : CallContext) (query : AuditQuery)
    (db : Database) :
    listAuditLogs p context query db =
      listAuditLogsIn (newestFirst AuditLog.ts) p context query db := by
  simp only [listAuditLogs, listAuditLogsIn, matchingRows, bind_assoc]
  congr 1
  funext _
  split
  · rfl
  · simp only [bind_assoc]
    rfl

/-- The requests of a client that follows `next_offset`, with all items it has read at the end. -/
inductive Walk (answer : Nat → Except AdminError AuditResponse) : Nat → List AuditLogItem → Prop
  | last (h : answer offset = .ok ⟨items, none⟩) : Walk answer offset items
  | next (h : answer offset = .ok ⟨items, some offset'⟩) (rest : Walk answer offset' more) :
    Walk answer offset (items ++ more)

def Renders (row : AuditLog) (item : AuditLogItem) : Prop := auditLogItem row = .ok item

/-- In whatever order each query is answered, following `next_offset` from 0 comes to an end and
shows every matching row once. -/
def PagesPartition (p : ApiKeyPrincipal) (context : CallContext) (query : AuditQuery) (db : Database)
    (rows : List AuditLog) : Prop :=
  ∀ orders : Nat → List AuditLog → List AuditLog, (∀ offset, NewestFirst (orders offset)) →
    ∃ items shown, Walk (fun offset => listAuditLogsIn (orders offset) p context
      { query with offset := (offset : Int) } db) 0 items ∧
      shown.Perm rows ∧ List.Forall₂ Renders shown items

variable {p : ApiKeyPrincipal} {context : CallContext} {query : AuditQuery} {db : Database}
  {rows : List AuditLog} {limit offset : Nat} {order : List AuditLog → List AuditLog}
  {orders : Nat → List AuditLog → List AuditLog}

theorem newestFirst_newestFirst : NewestFirst (newestFirst AuditLog.ts) := by
  intro rows
  exact ⟨List.mergeSort_perm _ _,
    SameTies.pairwise_mergeSort (fun row : AuditLog => row.ts.instant) rows⟩

theorem matchingRows_limit (h : matchingRows p context query db = .ok rows) :
    1 ≤ query.limit ∧ query.limit ≤ 500 := by
  obtain ⟨_, _, h⟩ := bind_eq_ok.1 h
  split at h
  · cases h
  · next hvalid => omega

theorem matchingRows_page (h : matchingRows p context query db = .ok rows) {limit offset : Int}
    (hlimit : 1 ≤ limit ∧ limit ≤ 500) (hoffset : 0 ≤ offset) :
    matchingRows p context { query with limit := limit, offset := offset } db = .ok rows := by
  rw [matchingRows] at h ⊢
  obtain ⟨_, hadmin, h⟩ := bind_eq_ok.1 h
  rw [hadmin, ok_bind]
  split at h
  · cases h
  · next hvalid =>
    have hvalid' : ¬ (limit < 1 ∨ 500 < limit ∨ offset < 0) := by omega
    rw [if_neg hvalid']
    exact h

theorem matchingRows_sublist (h : matchingRows p context query db = .ok rows) :
    rows.Sublist db.auditLogs := by
  obtain ⟨_, _, h⟩ := bind_eq_ok.1 h
  split at h
  · cases h
  · obtain ⟨_, _, h⟩ := bind_eq_ok.1 h
    obtain ⟨_, _, h⟩ := bind_eq_ok.1 h
    obtain ⟨_, _, h⟩ := bind_eq_ok.1 h
    obtain ⟨_, _, h⟩ := bind_eq_ok.1 h
    obtain ⟨_, _, h⟩ := bind_eq_ok.1 h
    obtain ⟨_, _, h⟩ := bind_eq_ok.1 h
    cases h
    exact List.filter_sublist

theorem auditPageIn_eq_ok (horder : NewestFirst order) :
    auditPageIn order limit offset rows = .ok ⟨items, next⟩ ↔
      offset < 2 ^ 63 ∧ List.Forall₂ Renders (((order rows).drop offset).take limit) items ∧
        next = if offset + limit < rows.length then some (offset + limit) else none := by
  rw [auditPageIn]
  split
  · next hlarge => exact iff_of_false nofun fun h => Nat.not_lt.2 hlarge h.1
  · next hsmall =>
    have hmore : limit < (((order rows).drop offset).take (limit + 1)).length ↔
        offset + limit < rows.length := by
      rw [List.length_take, List.length_drop, (horder rows).1.length_eq]
      omega
    simp only [List.take_take, Nat.min_eq_left (Nat.le_succ limit), hmore, bind_eq_ok, mapM_eq_ok]
    constructor
    · rintro ⟨items, hitems, h⟩
      cases h
      exact ⟨Nat.not_le.1 hsmall, hitems, rfl⟩
    · rintro ⟨_, hitems, rfl⟩
      exact ⟨items, hitems, rfl⟩

/-- The rows as `list_audit_logs` sorts them are cut into the same two parts by every order. -/
theorem NewestFirst.cut (h : NewestFirst order) (hle : offset ≤ rows.length)
    (hapart : ∀ a ∈ (newestFirst AuditLog.ts rows).take offset,
      ∀ b ∈ (newestFirst AuditLog.ts rows).drop offset, a.ts.instant ≠ b.ts.instant) :
    ((order rows).drop offset).Perm ((newestFirst AuditLog.ts rows).drop offset) := by
  obtain ⟨hperm, hsorted⟩ := newestFirst_newestFirst rows
  rw [← List.take_append_drop offset (newestFirst AuditLog.ts rows)] at hperm hsorted
  have hlength : ((newestFirst AuditLog.ts rows).take offset).length = offset := by
    rw [List.length_take, (newestFirst_newestFirst rows).1.length_eq, Nat.min_eq_left hle]
  have hgap : ∀ a ∈ (newestFirst AuditLog.ts rows).take offset,
      ∀ b ∈ (newestFirst AuditLog.ts rows).drop offset, b.ts.instant < a.ts.instant := by
    intro a ha b hb
    have hab := (List.pairwise_append.1 hsorted).2.2 a ha b hb
    exact lt_of_le_of_ne hab (hapart a ha b hb).symm
  have hparts := (h rows).2.perm_of_gap ((h rows).1.trans hperm.symm) hgap
  rw [hlength] at hparts
  exact hparts.2

/-- Rows with one time do not stand on both sides of the start of a page. -/
def PageApart (rows : List AuditLog) (start : Nat) : Prop :=
  ∀ a ∈ (newestFirst AuditLog.ts rows).take start,
    ∀ b ∈ (newestFirst AuditLog.ts rows).drop start, a.ts.instant ≠ b.ts.instant

theorem walk_of_apart (horders : ∀ offset, NewestFirst (orders offset)) (hlimit : 0 < limit)
    (hrenders : ∀ row ∈ rows, ∃ item, Renders row item)
    (hpages : ∀ page, page * limit < rows.length →
      page * limit < 2 ^ 63 ∧ PageApart rows (page * limit))
    (page : Nat) (hpage : page * limit < rows.length ∨ page = 0) :
    ∃ items shown, Walk (fun offset => auditPageIn (orders offset) limit offset rows)
      (page * limit) items ∧ shown.Perm ((newestFirst AuditLog.ts rows).drop (page * limit)) ∧
      List.Forall₂ Renders shown items := by
  induction hleft : rows.length - page * limit using Nat.strong_induction_on generalizing page with
  | _ left ih =>
    obtain ⟨hperm, _⟩ := horders (page * limit) rows
    have hstart : page * limit < 2 ^ 63 ∧
        ((orders (page * limit) rows).drop (page * limit)).Perm
          ((newestFirst AuditLog.ts rows).drop (page * limit)) := by
      rcases hpage with hlt | rfl
      · obtain ⟨hsmall, hapart⟩ := hpages page hlt
        exact ⟨hsmall, (horders _).cut (Nat.le_of_lt hlt) hapart⟩
      · rw [Nat.zero_mul] at hperm ⊢
        exact ⟨by decide, hperm.trans (newestFirst_newestFirst rows).1.symm⟩
    obtain ⟨items, hitems⟩ : ∃ items, List.Forall₂ Renders
        (((orders (page * limit) rows).drop (page * limit)).take limit) items := by
      apply exists_forall₂.2
      intro row hrow
      exact hrenders row (hperm.mem_iff.1 (List.mem_of_mem_drop (List.mem_of_mem_take hrow)))
    have hanswer := (auditPageIn_eq_ok (horders (page * limit))).2 ⟨hstart.1, hitems, rfl⟩
    by_cases hmore : page * limit + limit < rows.length
    · rw [if_pos hmore] at hanswer
      have hsucc : (page + 1) * limit = page * limit + limit := Nat.succ_mul page limit
      obtain ⟨more, shown, hwalk, hshown, hrest⟩ :=
        ih _ (by omega) (page + 1) (.inl (hsucc ▸ hmore)) rfl
      rw [hsucc] at hwalk hshown
      refine ⟨_, _, .next hanswer hwalk, ?_, List.rel_append hitems hrest⟩
      have hbehind := (horders (page * limit)).cut (Nat.le_of_lt hmore)
        (hsucc ▸ (hpages (page + 1) (hsucc ▸ hmore)).2)
      have hdrop (l : List AuditLog) :
          (l.drop (page * limit)).take limit ++ l.drop (page * limit + limit) =
            l.drop (page * limit) := by
        rw [← List.drop_drop, List.take_append_drop]
      exact ((hshown.trans hbehind.symm).append_left _).trans ((List.Perm.of_eq (hdrop _)).trans hstart.2)
    · rw [if_neg hmore] at hanswer
      have hall : ((orders (page * limit) rows).drop (page * limit)).take limit =
          (orders (page * limit) rows).drop (page * limit) := by
        apply List.take_of_length_le
        rw [List.length_drop, hperm.length_eq]
        omega
      rw [hall] at hitems
      exact ⟨items, _, .last hanswer, hstart.2, hitems⟩

theorem Walk.reaches (horders : ∀ offset, NewestFirst (orders offset))
    (h : Walk (fun offset => auditPageIn (orders offset) limit offset rows) 0 items) (page : Nat)
    (hpage : page * limit < rows.length ∨ page = 0) :
    ∃ front back, items = front ++ back ∧
      Walk (fun offset => auditPageIn (orders offset) limit offset rows) (page * limit) back := by
  induction page with
  | zero =>
    rw [Nat.zero_mul]
    exact ⟨[], items, rfl, h⟩
  | succ page ih =>
    rw [Nat.succ_mul] at hpage ⊢
    have hmore : page * limit + limit < rows.length := by omega
    obtain ⟨front, back, rfl, hwalk⟩ := ih (.inl (by omega))
    cases hwalk with
    | last hanswer =>
      have hnext := ((auditPageIn_eq_ok (horders _)).1 hanswer).2.2
      rw [if_pos hmore] at hnext
      cases hnext
    | next hanswer hrest =>
      have hnext := ((auditPageIn_eq_ok (horders _)).1 hanswer).2.2
      rw [if_pos hmore] at hnext
      cases hnext
      exact ⟨front ++ _, _, (List.append_assoc _ _ _).symm, hrest⟩

theorem Renders.id_eq (h : Renders row item) : item.id = row.id := by
  obtain ⟨ts, _, h⟩ := bind_eq_ok.1 h
  obtain ⟨costUsd, _, h⟩ := bind_eq_ok.1 h
  cases h
  rfl

theorem ids_of_renders (h : List.Forall₂ Renders shown items) :
    items.map AuditLogItem.id = shown.map AuditLog.id := by
  induction h with
  | nil => rfl
  | cons hitem _ ih => rw [List.map_cons, List.map_cons, hitem.id_eq, ih]

theorem neighbours_of_not_apart (h : ¬ PageApart rows start) :
    ∃ front x y back, newestFirst AuditLog.ts rows = front ++ x :: y :: back ∧
      front.length + 1 = start ∧ x.ts.instant = y.ts.instant := by
  obtain ⟨hperm, hsorted⟩ := newestFirst_newestFirst rows
  rw [PageApart] at h
  push Not at h
  obtain ⟨a, ha, b, hb, hab⟩ := h
  generalize newestFirst AuditLog.ts rows = sorted at *
  obtain ⟨y, back, hback⟩ := List.exists_cons_of_ne_nil (List.ne_nil_of_mem hb)
  obtain ⟨front, x, hfront⟩ := List.eq_nil_or_concat' (sorted.take start) |>.resolve_left
    (List.ne_nil_of_mem ha)
  have hsplit : sorted = front ++ x :: y :: back := by
    rw [← List.take_append_drop start sorted, hfront, hback, List.append_assoc]
    rfl
  have hlength : front.length + 1 = start := by
    have htake := congrArg List.length hfront
    have hdrop := congrArg List.length hback
    simp only [List.length_take, List.length_append, List.length_cons, List.length_nil,
      List.length_drop] at htake hdrop
    omega
  refine ⟨front, x, y, back, hsplit, hlength, ?_⟩
  rw [hfront, List.mem_append, List.mem_singleton] at ha
  rw [hback, List.mem_cons] at hb
  rw [hsplit, Descending, List.pairwise_append, List.pairwise_cons, List.pairwise_cons] at hsorted
  obtain ⟨_, ⟨hx, hy, _⟩, hcross⟩ := hsorted
  have hax : x.ts.instant ≤ a.ts.instant := by
    rcases ha with ha | rfl
    · exact hcross a ha x List.mem_cons_self
    · exact le_rfl
  have hyb : b.ts.instant ≤ y.ts.instant := by
    rcases hb with rfl | hb
    · exact le_rfl
    · exact hy b hb
  exact le_antisymm (hax.trans (hab.le.trans hyb)) (hx y List.mem_cons_self)

theorem Walk.first_page {answer : Nat → Except AdminError AuditResponse}
    (h : Walk answer offset items) :
    ∃ page more next, items = page ++ more ∧ answer offset = .ok ⟨page, next⟩ := by
  cases h with
  | last hanswer => exact ⟨items, [], none, (List.append_nil items).symm, hanswer⟩
  | next hanswer _ => exact ⟨_, _, _, rfl, hanswer⟩

/-- Pages that together show every row once, whatever the orders are. -/
def PagesOnce (limit : Nat) (rows : List AuditLog) : Prop :=
  ∀ orders : Nat → List AuditLog → List AuditLog, (∀ offset, NewestFirst (orders offset)) →
    ∃ items shown, Walk (fun offset => auditPageIn (orders offset) limit offset rows) 0 items ∧
      shown.Perm rows ∧ List.Forall₂ Renders shown items

theorem pagesPartition_iff_once (h : matchingRows p context query db = .ok rows) :
    PagesPartition p context query db rows ↔ PagesOnce query.limit.toNat rows := by
  have hanswer (orders : Nat → List AuditLog → List AuditLog) :
      (fun offset : Nat => listAuditLogsIn (orders offset) p context
        { query with offset := (offset : Int) } db) =
        fun offset => auditPageIn (orders offset) query.limit.toNat offset rows := by
    funext offset
    have hpage := matchingRows_page h (matchingRows_limit h) (Int.natCast_nonneg offset)
    rw [listAuditLogsIn, hpage, ok_bind, Int.toNat_natCast]
  simp only [PagesPartition, hanswer, PagesOnce]

/-- The order of the code with two neighbours of one table exchanged. -/
def exchanged (rows front back : List AuditLog) (x y : AuditLog) (asked : List AuditLog) :
    List AuditLog :=
  if asked = rows then front ++ y :: x :: back else newestFirst AuditLog.ts asked

theorem newestFirst_exchanged (hsorted : newestFirst AuditLog.ts rows = front ++ x :: y :: back)
    (hkey : x.ts.instant = y.ts.instant) : NewestFirst (exchanged rows front back x y) := by
  intro asked
  rw [exchanged]
  split
  · next hasked =>
    subst hasked
    obtain ⟨hperm, hdescending⟩ := newestFirst_newestFirst asked
    rw [hsorted] at hperm hdescending
    exact ⟨((List.Perm.swap x y back).append_left front).trans hperm, hdescending.swap hkey⟩
  · exact newestFirst_newestFirst asked

theorem mem_page {l : List AuditLog} (h : l[i]? = some row) (hle : start ≤ i)
    (hlt : i < start + limit) : row ∈ (l.drop start).take limit := by
  apply List.mem_of_getElem? (i := i - start)
  rw [List.getElem?_take, if_pos (by omega), List.getElem?_drop, Nat.add_sub_cancel' hle, h]

theorem PagesOnce.renders (h : PagesOnce limit rows) : ∀ row ∈ rows, ∃ item, Renders row item := by
  intro row hrow
  obtain ⟨items, shown, _, hshown, hrenders⟩ := h _ fun _ => newestFirst_newestFirst
  exact exists_forall₂.1 ⟨items, hrenders⟩ row (hshown.mem_iff.2 hrow)

theorem PagesOnce.offset_lt (h : PagesOnce limit rows) (hpage : page * limit < rows.length) :
    page * limit < 2 ^ 63 := by
  obtain ⟨items, shown, hwalk, _⟩ := h _ fun _ => newestFirst_newestFirst
  obtain ⟨front, back, _, hback⟩ := hwalk.reaches (fun _ => newestFirst_newestFirst) page (.inl hpage)
  obtain ⟨_, _, _, _, hanswer⟩ := hback.first_page
  exact ((auditPageIn_eq_ok newestFirst_newestFirst).1 hanswer).1

/-- Where a tie is cut, a database can show one of its rows on both pages. -/
theorem PagesOnce.apart (h : PagesOnce limit rows) (hids : (rows.map AuditLog.id).Nodup)
    (hlimit : 0 < limit) (hpage : page * limit < rows.length) : PageApart rows (page * limit) := by
  by_contra hnot
  obtain ⟨front, x, y, back, hsorted, hstart, hkey⟩ := neighbours_of_not_apart hnot
  cases page with
  | zero =>
    rw [Nat.zero_mul] at hstart
    cases hstart
  | succ page =>
    rw [Nat.succ_mul] at hpage hstart
    let orders (offset : Nat) : List AuditLog → List AuditLog :=
      if offset = page * limit + limit then exchanged rows front back x y
      else newestFirst AuditLog.ts
    have horders (offset) : NewestFirst (orders offset) := by
      simp only [orders]
      split
      · exact newestFirst_exchanged hsorted hkey
      · exact newestFirst_newestFirst
    obtain ⟨items, shown, hwalk, hshown, hrenders⟩ := h orders horders
    obtain ⟨before, rest, rfl, hrest⟩ := hwalk.reaches horders page (.inl (by omega))
    have hnodup : ((before ++ rest).map AuditLogItem.id).Nodup := by
      rw [ids_of_renders hrenders]
      exact (hshown.map AuditLog.id).nodup_iff.2 hids
    cases hrest with
    | last hanswer =>
      have hnext := ((auditPageIn_eq_ok (horders _)).1 hanswer).2.2
      rw [if_pos hpage] at hnext
      cases hnext
    | @next _ items offset' more hanswer hmore =>
      obtain ⟨_, hitems, hnext⟩ := (auditPageIn_eq_ok (horders _)).1 hanswer
      rw [if_pos hpage] at hnext
      cases hnext
      obtain ⟨items', _, _, rfl, hanswer'⟩ := hmore.first_page
      obtain ⟨_, hitems', _⟩ := (auditPageIn_eq_ok (horders _)).1 hanswer'
      have hfirst : orders (page * limit) = newestFirst AuditLog.ts := if_neg (by omega)
      have hsecond : orders (page * limit + limit) = exchanged rows front back x y := if_pos rfl
      rw [hfirst, hsorted] at hitems
      rw [hsecond, exchanged, if_pos rfl] at hitems'
      have hx : x.id ∈ items.map AuditLogItem.id := by
        rw [ids_of_renders hitems]
        apply List.mem_map_of_mem
        apply mem_page (i := front.length) _ (by omega) (by omega)
        rw [List.getElem?_append_right (Nat.le_refl _), Nat.sub_self]
        rfl
      have hx' : x.id ∈ items'.map AuditLogItem.id := by
        rw [ids_of_renders hitems']
        apply List.mem_map_of_mem
        apply mem_page (i := front.length + 1) _ (by omega) (by omega)
        rw [List.getElem?_append_right (Nat.le_succ _), Nat.succ_sub (Nat.le_refl _), Nat.sub_self]
        rfl
      rw [List.map_append, List.map_append, List.map_append] at hnodup
      have hdisjoint := (List.nodup_append.1 hnodup).2.1
      exact (List.nodup_append.1 hdisjoint).2.2 _ hx _ (List.mem_append_left _ hx') rfl

theorem pagesOnce_of_apart (hlimit : 0 < limit)
    (hrenders : ∀ row ∈ rows, ∃ item, Renders row item)
    (hpages : ∀ page, page * limit < rows.length →
      page * limit < 2 ^ 63 ∧ PageApart rows (page * limit)) : PagesOnce limit rows := by
  intro orders horders
  obtain ⟨items, shown, hwalk, hshown, hitems⟩ :=
    walk_of_apart horders hlimit hrenders hpages 0 (.inr rfl)
  rw [Nat.zero_mul] at hwalk hshown
  exact ⟨items, shown, hwalk, hshown.trans (newestFirst_newestFirst rows).1, hitems⟩

theorem newestFirst_of_descending (h : Descending (fun row : AuditLog => row.ts.instant) rows) :
    newestFirst AuditLog.ts rows = rows := by
  apply List.mergeSort_of_pairwise
  simp only [decide_eq_true_eq]
  exact h

def sampleRow (id : Text) (second : Nat) : AuditLog :=
  { id := id, requestId := ['r'], ts := ⟨second * 1000000, some 0⟩, principalHash := none,
    orgId := none, apiKeyId := none, provider := none, model := none, statusCode := 200,
    errorType := none, promptTokens := 0, completionTokens := 0, totalTokens := 0, costUsd := 0,
    latencyMs := 0, stream := false }

theorem sampleRow_renders (id : Text) (h : (sampleRow id second).ts.asUtc.isSome) :
    ∃ item, auditLogItem (sampleRow id second) = .ok item := by
  have hwritten : (formatCost 0).isSome := by decide +kernel
  obtain ⟨costUsd, hcost⟩ := Option.isSome_iff_exists.1 hwritten
  obtain ⟨ts, hts⟩ := Option.isSome_iff_exists.1 h
  refine ⟨_, bind_eq_ok.2 ⟨ts, ?_, bind_eq_ok.2 ⟨costUsd, ?_, rfl⟩⟩⟩
  · rw [hts]
    rfl
  · show orRaise (formatCost 0) = .ok costUsd
    rw [hcost]
    rfl

def sampleAuditDb (rows : List AuditLog) : Database := ⟨.empty, .empty, rows⟩

def sampleReader : ApiKeyPrincipal :=
  { apiKeyHash := ['p'], scopes := {adminScope, superAdminScope} }

theorem sampleReader_matches (rows : List AuditLog) :
    matchingRows sampleReader { now := ⟨0, some 0⟩ } { limit := 1 } (sampleAuditDb rows) =
      .ok rows := by
  have hrows : rows.filter (fun row => row.selected none none none && true && true) = rows :=
    List.filter_eq_self.2 fun _ _ => rfl
  exact congrArg Except.ok hrows

/-- Two rows of one time and pages of one row. -/
theorem tie_cut_by_page :
    ¬ ∀ (p : ApiKeyPrincipal) (context : CallContext) (query : AuditQuery) (db : Database)
      (rows : List AuditLog), matchingRows p context query db = .ok rows →
      (db.auditLogs.map AuditLog.id).Nodup → PagesPartition p context query db rows := by
  intro h
  have hids : ([sampleRow ['1'] 0, sampleRow ['2'] 0].map AuditLog.id).Nodup := by decide
  have hmatching := sampleReader_matches [sampleRow ['1'] 0, sampleRow ['2'] 0]
  have honce := (pagesPartition_iff_once hmatching).1 (h _ _ _ _ _ hmatching hids)
  have hapart : PageApart _ (1 * 1) := honce.apart hids (by decide) (by decide)
  have hsorted : newestFirst AuditLog.ts [sampleRow ['1'] 0, sampleRow ['2'] 0] =
      [sampleRow ['1'] 0, sampleRow ['2'] 0] := newestFirst_of_descending (by
    rw [Descending]
    decide)
  rw [PageApart, hsorted] at hapart
  exact hapart _ List.mem_cons_self _ List.mem_cons_self rfl

theorem pages_partition_iff (hrows : matchingRows p context query db = .ok rows)
    (hids : (db.auditLogs.map AuditLog.id).Nodup) :
    PagesPartition p context query db rows ↔
      (∀ row ∈ rows, ∃ item, auditLogItem row = .ok item) ∧
      ∀ page, page * query.limit.toNat < rows.length → page * query.limit.toNat < 2 ^ 63 ∧
        ∀ a ∈ (newestFirst AuditLog.ts rows).take (page * query.limit.toNat),
          ∀ b ∈ (newestFirst AuditLog.ts rows).drop (page * query.limit.toNat),
            a.ts.instant ≠ b.ts.instant := by
  have hlimit : 0 < query.limit.toNat := by
    have hvalid := matchingRows_limit hrows
    omega
  rw [pagesPartition_iff_once hrows]
  constructor
  · intro h
    refine ⟨h.renders, fun page hpage => ⟨h.offset_lt hpage, ?_⟩⟩
    exact h.apart ((matchingRows_sublist hrows).map AuditLog.id |>.nodup hids) hlimit hpage
  · rintro ⟨hrenders, hpages⟩
    exact pagesOnce_of_apart hlimit hrenders hpages

theorem pages_partition_two_times :
    PagesPartition sampleReader { now := ⟨0, some 0⟩ } { limit := 1 }
      (sampleAuditDb [sampleRow ['2'] 1, sampleRow ['1'] 0])
      [sampleRow ['2'] 1, sampleRow ['1'] 0] := by
  apply (pages_partition_iff (sampleReader_matches _) (by decide)).2
  have hsorted : newestFirst AuditLog.ts [sampleRow ['2'] 1, sampleRow ['1'] 0] =
      [sampleRow ['2'] 1, sampleRow ['1'] 0] := newestFirst_of_descending (by
    rw [Descending]
    decide)
  rw [hsorted]
  constructor
  · intro row hrow
    rcases List.mem_pair.1 hrow with rfl | rfl
    · exact sampleRow_renders ['2'] (by decide)
    · exact sampleRow_renders ['1'] (by decide)
  · intro page hpage
    have hone : page < 2 := by simpa using hpage
    obtain rfl | rfl : page = 0 ∨ page = 1 := by omega
    · decide
    · decide

end AiServing
