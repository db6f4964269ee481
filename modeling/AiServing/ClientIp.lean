import AiServing.ScopeCodec

namespace AiServing
set_option autoImplicit true

/-- What `net.py` takes from `ipaddress`; `none` stands for `ValueError`. -/
structure IpAddresses where
  Address : Type
  ipAddress : Text → Option Address
  /-- `ip_network(text, strict=False)`, as the test whether it contains an address. -/
  ipNetwork : Text → Option (Address → Bool)
  ipAddress_nil : ipAddress [] = none

structure ProxySettings where
  trustForwardedFor : Bool := false
  trustedProxies : List Text := []

structure HttpRequest where
  client : Option Text
  /-- One item for each header line, the names in lower case. -/
  headers : List (Text × Text)

def forwardedForName : Text := "x-forwarded-for".toList

/-- `Headers.get`, which answers with the first line of the name. -/
def HttpRequest.header (r : HttpRequest) (name : Text) : Option Text :=
  (r.headers.find? fun line => line.1 = name).map Prod.snd

def HttpRequest.headerLines (r : HttpRequest) (name : Text) : List Text :=
  (r.headers.filter fun line => line.1 = name).map Prod.snd

def HttpRequest.remoteIp (r : HttpRequest) : Text := r.client.getD "unknown".toList

variable (ip : IpAddresses)

def isTrustedProxy (remoteIp : Text) (trusted : List Text) : Bool :=
  match ip.ipAddress remoteIp with
  | none => false
  | some remote => trusted.any fun item =>
    let candidate := strip item
    candidate ≠ [] && match ip.ipNetwork candidate with
      | none => false
      | some network => network remote

/-- The entries of a header value that are addresses. -/
def validEntries (forwardedFor : Text) : List Text :=
  (commaItems forwardedFor).filter fun entry => (ip.ipAddress entry).isSome

/-- The loop over `reversed(valid_entries)`. -/
def lastUntrusted (trusted : List Text) (entries : List Text) : Option Text :=
  entries.reverse.find? fun entry => !isTrustedProxy ip entry trusted

def clientIp (request : HttpRequest) (settings : ProxySettings) : Text :=
  let remoteIp := request.remoteIp
  if !settings.trustForwardedFor then remoteIp
  else if !isTrustedProxy ip remoteIp settings.trustedProxies then remoteIp
  else match request.header forwardedForName with
    | none => remoteIp
    | some forwardedFor =>
      if forwardedFor = [] then remoteIp
      else match validEntries ip forwardedFor with
        | [] => remoteIp
        | first :: rest =>
          (lastUntrusted ip settings.trustedProxies (first :: rest)).getD first

variable {ip : IpAddresses} {r : HttpRequest} {trusted entries entries' : List Text} {remote : Text}

theorem ipAddress_of_trusted (h : isTrustedProxy ip t trusted) : (ip.ipAddress t).isSome := by
  rw [isTrustedProxy] at h
  split at h
  · cases h
  · next address haddress =>
    rw [haddress]
    rfl

theorem commaItems_nil : commaItems [] = [] := by
  simp [commaItems, strip]

theorem commaItems_append (t u : Text) : commaItems (t ++ ',' :: u) = commaItems t ++ commaItems u := by
  rw [commaItems, List.splitOn_append_cons_self, List.map_append, List.filter_append]
  rfl

theorem commaItems_single (hstrip : strip t = t) (hcomma : ',' ∉ t) (hne : t ≠ []) :
    commaItems t = [t] := by
  rw [commaItems, List.splitOn_eq_singleton hcomma, List.map_singleton, hstrip]
  simp [hne]

theorem commaItems_intercalate (lines : List Text) :
    commaItems ([','].intercalate lines) = lines.flatMap commaItems := by
  induction lines with
  | nil => exact commaItems_nil
  | cons line lines ih =>
    cases lines with
    | nil => simp
    | cons line' lines =>
      rw [List.intercalate_cons_cons, List.append_assoc, List.singleton_append,
        commaItems_append, ih]
      rfl

theorem validEntries_intercalate (lines : List Text) :
    validEntries ip ([','].intercalate lines) = lines.flatMap (validEntries ip) := by
  rw [validEntries, commaItems_intercalate, List.filter_flatMap]
  rfl

/-- What the scan of the entries answers. -/
def chooseEntry (ip : IpAddresses) (trusted : List Text) (remote : Text) (entries : List Text) :
    Text :=
  (lastUntrusted ip trusted entries).getD (entries.head?.getD remote)

theorem clientIp_untrusting (settings : ProxySettings) (h : settings.trustForwardedFor = false ∨
    isTrustedProxy ip r.remoteIp settings.trustedProxies = false) :
    clientIp ip r settings = r.remoteIp := by
  rw [clientIp]
  rcases h with h | h
  · rw [h]
    rfl
  · rw [h]
    cases settings.trustForwardedFor <;> rfl

theorem clientIp_trusting (settings : ProxySettings) (h : settings.trustForwardedFor = true)
    (hremote : isTrustedProxy ip r.remoteIp settings.trustedProxies = true) :
    clientIp ip r settings = chooseEntry ip settings.trustedProxies r.remoteIp
      ((r.header forwardedForName).elim [] (validEntries ip)) := by
  simp only [clientIp, h, hremote, Bool.not_true, Bool.false_eq_true, if_false]
  cases r.header forwardedForName with
  | none => rfl
  | some value =>
    by_cases hvalue : value = []
    · subst hvalue
      simp only [if_true, Option.elim, validEntries, commaItems_nil]
      rfl
    · simp only [if_neg hvalue, Option.elim]
      cases validEntries ip value with
      | nil => rfl
      | cons first rest => rfl

theorem lastUntrusted_append (entries entries' : List Text) :
    lastUntrusted ip trusted (entries ++ entries') =
      (lastUntrusted ip trusted entries').or (lastUntrusted ip trusted entries) := by
  rw [lastUntrusted, List.reverse_append, List.find?_append]
  rfl

theorem lastUntrusted_eq_none :
    lastUntrusted ip trusted entries = none ↔ ∀ e ∈ entries, isTrustedProxy ip e trusted := by
  simp [lastUntrusted, List.find?_eq_none]

theorem mem_of_lastUntrusted (h : lastUntrusted ip trusted entries = some e) :
    e ∈ entries ∧ isTrustedProxy ip e trusted = false := by
  have hmem := List.mem_reverse.1 (List.mem_of_find?_eq_some h)
  have huntrusted := List.find?_some h
  exact ⟨hmem, by simpa using huntrusted⟩

/-- `c` is the last of the entries that is no trusted proxy. -/
def LastUntrusted (ip : IpAddresses) (trusted : List Text) (c : Text) (entries : List Text) : Prop :=
  ∃ front proxies, entries = front ++ c :: proxies ∧ isTrustedProxy ip c trusted = false ∧
    ∀ p ∈ proxies, isTrustedProxy ip p trusted

theorem lastUntrusted_eq_some :
    lastUntrusted ip trusted entries = some c ↔ LastUntrusted ip trusted c entries := by
  constructor
  · intro h
    rw [lastUntrusted, List.find?_eq_some_iff_append] at h
    obtain ⟨hc, proxies, front, hsplit, hproxies⟩ := h
    refine ⟨front.reverse, proxies.reverse, ?_, by simpa using hc, ?_⟩
    · rw [← entries.reverse_reverse, hsplit]
      simp
    · intro p hp
      simpa using hproxies p (List.mem_reverse.1 hp)
  · rintro ⟨front, proxies, rfl, hc, hproxies⟩
    have hlast : lastUntrusted ip trusted [c] = some c := by
      simp [lastUntrusted, hc]
    have hnone := lastUntrusted_eq_none.2 hproxies
    rw [lastUntrusted_append, ← List.singleton_append, lastUntrusted_append, hnone, hlast]
    rfl

theorem LastUntrusted.chooseEntry_eq (h : LastUntrusted ip trusted c entries) (remote : Text) :
    chooseEntry ip trusted remote entries = c := by
  rw [chooseEntry, lastUntrusted_eq_some.2 h]
  rfl

theorem chooseEntry_mem (ip : IpAddresses) (trusted : List Text) (remote : Text)
    (entries : List Text) : chooseEntry ip trusted remote entries = remote ∨
      chooseEntry ip trusted remote entries ∈ entries := by
  rw [chooseEntry]
  cases hlast : lastUntrusted ip trusted entries with
  | some e => exact .inr (mem_of_lastUntrusted hlast).1
  | none =>
    cases entries with
    | nil => exact .inl rfl
    | cons first rest => exact .inr List.mem_cons_self

theorem mem_validEntries : e ∈ validEntries ip value ↔
    e ∈ commaItems value ∧ (ip.ipAddress e).isSome := List.mem_filter

theorem validEntries_single (hstrip : strip t = t) (hcomma : ',' ∉ t)
    (hvalid : (ip.ipAddress t).isSome) : validEntries ip t = [t] := by
  have hne : t ≠ [] := by
    rintro rfl
    rw [ip.ipAddress_nil] at hvalid
    cases hvalid
  rw [validEntries, commaItems_single hstrip hcomma hne]
  simp [hvalid]

theorem validEntries_chain (a : Text) {ps : List Text}
    (hps : ∀ p ∈ ps, strip p = p ∧ ',' ∉ p ∧ (ip.ipAddress p).isSome) :
    validEntries ip ([','].intercalate (a :: ps)) = validEntries ip a ++ ps := by
  rw [validEntries_intercalate, List.flatMap_cons]
  congr 1
  induction ps with
  | nil => rfl
  | cons p ps ih =>
    obtain ⟨hstrip, hcomma, hvalid⟩ := hps p List.mem_cons_self
    rw [List.flatMap_cons, validEntries_single hstrip hcomma hvalid,
      ih fun q hq => hps q (List.mem_cons_of_mem p hq)]
    rfl

def requestFrom (remote value : Text) : HttpRequest :=
  { client := some remote, headers := [(forwardedForName, value)] }

/-- Whatever the client writes in front, the address the last proxy saw is the answer. -/
theorem clientIp_chain {settings : ProxySettings} (h : settings.trustForwardedFor = true)
    (hremote : isTrustedProxy ip remote settings.trustedProxies) (a : Text)
    (hc : (ip.ipAddress c).isSome) (hcu : isTrustedProxy ip c settings.trustedProxies = false)
    (hps : ∀ p ∈ ps, isTrustedProxy ip p settings.trustedProxies)
    (hplain : ∀ p ∈ c :: ps, strip p = p ∧ ',' ∉ p) :
    clientIp ip (requestFrom remote ([','].intercalate (a :: c :: ps))) settings = c := by
  have hvalid : ∀ p ∈ c :: ps, strip p = p ∧ ',' ∉ p ∧ (ip.ipAddress p).isSome := by
    intro p hp
    obtain ⟨hstrip, hcomma⟩ := hplain p hp
    rcases List.mem_cons.1 hp with rfl | hp
    · exact ⟨hstrip, hcomma, hc⟩
    · exact ⟨hstrip, hcomma, ipAddress_of_trusted (hps p hp)⟩
  have hheader : (requestFrom remote ([','].intercalate (a :: c :: ps))).header forwardedForName =
      some ([','].intercalate (a :: c :: ps)) := rfl
  rw [clientIp_trusting settings h hremote, hheader, Option.elim, validEntries_chain a hvalid,
    LastUntrusted.chooseEntry_eq ⟨_, ps, rfl, hcu, hps⟩]

theorem clientIp_valid (settings : ProxySettings) : clientIp ip r settings = r.remoteIp ∨
    ∃ value, r.header forwardedForName = some value ∧
      clientIp ip r settings ∈ commaItems value ∧ (ip.ipAddress (clientIp ip r settings)).isSome := by
  by_cases h : settings.trustForwardedFor = true ∧
      isTrustedProxy ip r.remoteIp settings.trustedProxies = true
  · rw [clientIp_trusting settings h.1 h.2]
    cases hheader : r.header forwardedForName with
    | none => exact .inl rfl
    | some value =>
      rcases chooseEntry_mem ip settings.trustedProxies r.remoteIp (validEntries ip value)
        with hmem | hmem
      · exact .inl hmem
      · obtain ⟨hitem, hvalid⟩ := mem_validEntries.1 hmem
        exact .inr ⟨value, rfl, hitem, hvalid⟩
  · left
    apply clientIp_untrusting
    rw [not_and_or, Bool.not_eq_true, Bool.not_eq_true] at h
    exact h

theorem clientIp_lastUntrusted {settings : ProxySettings} (h : settings.trustForwardedFor = true)
    (hremote : isTrustedProxy ip r.remoteIp settings.trustedProxies)
    (hheader : r.header forwardedForName = some value)
    (hc : LastUntrusted ip settings.trustedProxies c (validEntries ip value)) :
    clientIp ip r settings = c := by
  rw [clientIp_trusting settings h hremote, hheader]
  exact hc.chooseEntry_eq _

/-- Addresses with the values that `ipaddress` has for these texts. -/
def sampleAddresses : IpAddresses where
  Address := Text
  ipAddress t :=
    if ["10.0.0.1", "1.2.3.4", "5.6.7.8", "fe80::1%a", "fe80::1%a,b", "fe80::1%a,5.6.7.8"].map
      String.toList |>.contains t then some t else none
  ipNetwork t :=
    if t = "10.0.0.0/8".toList then some fun address => address = "10.0.0.1".toList
    else if t = "fe80::/10".toList then
      some fun address => ["fe80::1%a", "fe80::1%a,b", "fe80::1%a,5.6.7.8"].map String.toList
        |>.contains address
    else none
  ipAddress_nil := by decide

/-- A scope of an IPv6 address may hold commas, and then the header splits the address. -/
theorem scoped_address_splits :
    (¬ ∀ (settings : ProxySettings) (remote a c : Text), settings.trustForwardedFor = true →
      isTrustedProxy sampleAddresses remote settings.trustedProxies →
      (sampleAddresses.ipAddress c).isSome →
      isTrustedProxy sampleAddresses c settings.trustedProxies = false →
      clientIp sampleAddresses (requestFrom remote ([','].intercalate [a, c])) settings = c) ∧
    ¬ ∀ (settings : ProxySettings) (remote a c : Text) (ps : List Text),
      settings.trustForwardedFor = true →
      isTrustedProxy sampleAddresses remote settings.trustedProxies →
      (sampleAddresses.ipAddress c).isSome →
      isTrustedProxy sampleAddresses c settings.trustedProxies = false →
      (∀ p ∈ ps, isTrustedProxy sampleAddresses p settings.trustedProxies) →
      strip c = c ∧ ',' ∉ c →
      clientIp sampleAddresses (requestFrom remote ([','].intercalate (a :: c :: ps))) settings =
        c := by
  constructor
  · intro h
    have hfirst := h ⟨true, ["10.0.0.0/8".toList]⟩ "10.0.0.1".toList "x".toList
      "fe80::1%a,b".toList rfl (by decide) (by decide) (by decide)
    revert hfirst
    decide
  · intro h
    have hlast := h ⟨true, ["10.0.0.0/8".toList, "fe80::/10".toList]⟩ "10.0.0.1".toList "x".toList
      "1.2.3.4".toList ["fe80::1%a,5.6.7.8".toList] rfl (by decide) (by decide) (by decide)
      (by decide) (by decide)
    revert hlast
    decide

theorem clientIp_unspoofable (ip : IpAddresses) (settings : ProxySettings) :
    (∀ (remote a c : Text) (ps : List Text), settings.trustForwardedFor = true →
      isTrustedProxy ip remote settings.trustedProxies → (ip.ipAddress c).isSome →
      isTrustedProxy ip c settings.trustedProxies = false →
      (∀ p ∈ ps, isTrustedProxy ip p settings.trustedProxies) →
      (∀ p ∈ c :: ps, strip p = p ∧ ',' ∉ p) →
      clientIp ip (requestFrom remote ([','].intercalate (a :: c :: ps))) settings = c) ∧
    (∀ r : HttpRequest, clientIp ip r settings = r.remoteIp ∨
      ∃ value, r.header forwardedForName = some value ∧
        clientIp ip r settings ∈ commaItems value ∧
        (ip.ipAddress (clientIp ip r settings)).isSome) ∧
    (∀ (r : HttpRequest) (value c : Text), settings.trustForwardedFor = true →
      isTrustedProxy ip r.remoteIp settings.trustedProxies →
      r.header forwardedForName = some value →
      LastUntrusted ip settings.trustedProxies c (validEntries ip value) →
      clientIp ip r settings = c) ∧
    ∀ r : HttpRequest, settings.trustForwardedFor = false ∨
      isTrustedProxy ip r.remoteIp settings.trustedProxies = false →
      clientIp ip r settings = r.remoteIp := by
  refine ⟨?_, fun r => clientIp_valid settings, ?_, fun r => clientIp_untrusting settings⟩
  · intro remote a c ps h hremote hc hcu hps hplain
    exact clientIp_chain h hremote a hc hcu hps hplain
  · intro r value c h hremote hheader hc
    exact clientIp_lastUntrusted h hremote hheader hc

theorem clientIp_unspoofable_chain :
    clientIp sampleAddresses (requestFrom "10.0.0.1".toList "x,1.2.3.4,10.0.0.1".toList)
      ⟨true, ["10.0.0.0/8".toList]⟩ = "1.2.3.4".toList := by
  have hjoined : "x,1.2.3.4,10.0.0.1".toList =
      [','].intercalate ["x".toList, "1.2.3.4".toList, "10.0.0.1".toList] := by decide
  rw [hjoined]
  exact (clientIp_unspoofable sampleAddresses ⟨true, ["10.0.0.0/8".toList]⟩).1 "10.0.0.1".toList
    "x".toList "1.2.3.4".toList ["10.0.0.1".toList] rfl (by decide) (by decide) (by decide)
    (by decide) (by decide)

/-- The request with all lines of the name joined into one. -/
def HttpRequest.joinLines (r : HttpRequest) (name : Text) : HttpRequest :=
  if r.headerLines name = [] then r
  else { r with headers := (name, [','].intercalate (r.headerLines name)) ::
    r.headers.filter fun line => line.1 ≠ name }

/-- The entries of the first line, the only one that `client_ip` reads. -/
def firstEntries (ip : IpAddresses) (r : HttpRequest) : List Text :=
  (r.headerLines forwardedForName).head?.elim [] (validEntries ip)

def laterEntries (ip : IpAddresses) (r : HttpRequest) : List Text :=
  (r.headerLines forwardedForName).tail.flatMap (validEntries ip)

theorem header_eq_head? (r : HttpRequest) (name : Text) :
    r.header name = (r.headerLines name).head? := by
  rw [HttpRequest.header, HttpRequest.headerLines, List.head?_map, List.head?_filter]

theorem entries_joinLines (ip : IpAddresses) (r : HttpRequest) :
    ((r.joinLines forwardedForName).header forwardedForName).elim [] (validEntries ip) =
      firstEntries ip r ++ laterEntries ip r := by
  rw [HttpRequest.joinLines, firstEntries, laterEntries]
  cases hlines : r.headerLines forwardedForName with
  | nil =>
    rw [if_pos rfl, header_eq_head?, hlines]
    rfl
  | cons first later =>
    rw [if_neg (List.cons_ne_nil _ _)]
    have hheader (headers : List (Text × Text)) (value : Text) :
        ({ r with headers := (forwardedForName, value) :: headers } : HttpRequest).header
          forwardedForName = some value := by
      simp [HttpRequest.header]
    rw [hheader, Option.elim, validEntries_intercalate]
    rfl

theorem remoteIp_joinLines (r : HttpRequest) (name : Text) :
    (r.joinLines name).remoteIp = r.remoteIp := by
  rw [HttpRequest.joinLines]
  split <;> rfl

theorem chooseEntry_trusted (h : lastUntrusted ip trusted entries = none)
    (hremote : isTrustedProxy ip remote trusted) :
    isTrustedProxy ip (chooseEntry ip trusted remote entries) trusted := by
  rcases chooseEntry_mem ip trusted remote entries with he | he
  · rw [he]
    exact hremote
  · exact lastUntrusted_eq_none.1 h _ he

/-- With an untrusted address in the later lines, the first line must end in the same one. -/
theorem chooseEntry_append_of_some (hremote : isTrustedProxy ip remote trusted)
    (h : LastUntrusted ip trusted c entries') (entries : List Text) :
    chooseEntry ip trusted remote entries = chooseEntry ip trusted remote (entries ++ entries') ↔
      LastUntrusted ip trusted c entries := by
  have hlast := lastUntrusted_eq_some.2 h
  have hall : chooseEntry ip trusted remote (entries ++ entries') = c := by
    rw [chooseEntry, lastUntrusted_append, hlast]
    rfl
  rw [hall]
  constructor
  · intro he
    cases hfirst : lastUntrusted ip trusted entries with
    | none =>
      have htrusted := chooseEntry_trusted hfirst hremote
      rw [he, (mem_of_lastUntrusted hlast).2] at htrusted
      cases htrusted
    | some d =>
      have hd := lastUntrusted_eq_some.1 hfirst
      rwa [← he, hd.chooseEntry_eq remote]
  · intro hc
    exact hc.chooseEntry_eq remote

theorem chooseEntry_append_of_none (h : lastUntrusted ip trusted entries' = none)
    (entries : List Text) :
    chooseEntry ip trusted remote entries = chooseEntry ip trusted remote (entries ++ entries') ↔
      entries ≠ [] ∨ entries' = [] ∨ entries'.head? = some remote := by
  rw [chooseEntry, chooseEntry, lastUntrusted_append, h, Option.none_or]
  cases entries with
  | cons e es => exact iff_of_true rfl (.inl (List.cons_ne_nil e es))
  | nil =>
    cases entries' with
    | nil => exact iff_of_true rfl (.inr (.inl rfl))
    | cons e' es' =>
      show remote = e' ↔ _
      simp [eq_comm]

theorem chooseEntry_append_iff (hremote : isTrustedProxy ip remote trusted)
    (entries entries' : List Text) :
    chooseEntry ip trusted remote entries = chooseEntry ip trusted remote (entries ++ entries') ↔
      ((∀ e ∈ entries', isTrustedProxy ip e trusted) ∧
        (entries ≠ [] ∨ entries' = [] ∨ entries'.head? = some remote)) ∨
      ∃ c, LastUntrusted ip trusted c entries ∧ LastUntrusted ip trusted c entries' := by
  cases hlast : lastUntrusted ip trusted entries' with
  | none =>
    have hproxies := lastUntrusted_eq_none.1 hlast
    have hnone : ¬ ∃ c, LastUntrusted ip trusted c entries ∧ LastUntrusted ip trusted c entries' := by
      rintro ⟨c, _, hc⟩
      rw [lastUntrusted_eq_some.2 hc] at hlast
      cases hlast
    rw [chooseEntry_append_of_none hlast, or_iff_left hnone, and_iff_right hproxies]
  | some c =>
    have hc := lastUntrusted_eq_some.1 hlast
    have hsome : ¬ ∀ e ∈ entries', isTrustedProxy ip e trusted := by
      intro hproxies
      rw [lastUntrusted_eq_none.2 hproxies] at hlast
      cases hlast
    have hsame : (∃ d, LastUntrusted ip trusted d entries ∧ LastUntrusted ip trusted d entries') ↔
        LastUntrusted ip trusted c entries := by
      constructor
      · rintro ⟨d, hd, hd'⟩
        rw [lastUntrusted_eq_some.2 hd'] at hlast
        cases hlast
        exact hd
      · intro h
        exact ⟨c, h, hc⟩
    rw [chooseEntry_append_of_some hremote hc, or_iff_right fun h => hsome h.1, hsame]

/-- A line of the client in front of the line that the proxy adds. -/
theorem first_line_decides :
    ¬ ∀ (settings : ProxySettings) (r : HttpRequest), clientIp sampleAddresses r settings =
      clientIp sampleAddresses (r.joinLines forwardedForName) settings := by
  intro h
  have hlines := h ⟨true, ["10.0.0.0/8".toList]⟩
    ⟨some "10.0.0.1".toList, [(forwardedForName, "1.2.3.4".toList),
      (forwardedForName, "5.6.7.8".toList)]⟩
  revert hlines
  decide

theorem clientIp_joinLines_iff (ip : IpAddresses) (r : HttpRequest) (settings : ProxySettings) :
    clientIp ip r settings = clientIp ip (r.joinLines forwardedForName) settings ↔
      settings.trustForwardedFor = false ∨
      isTrustedProxy ip r.remoteIp settings.trustedProxies = false ∨
      ((∀ e ∈ laterEntries ip r, isTrustedProxy ip e settings.trustedProxies) ∧
        (firstEntries ip r ≠ [] ∨ laterEntries ip r = [] ∨
          (laterEntries ip r).head? = some r.remoteIp)) ∨
      ∃ c, LastUntrusted ip settings.trustedProxies c (firstEntries ip r) ∧
        LastUntrusted ip settings.trustedProxies c (laterEntries ip r) := by
  have hjoin := remoteIp_joinLines r forwardedForName
  cases hflag : settings.trustForwardedFor with
  | false =>
    rw [clientIp_untrusting settings (.inl hflag), clientIp_untrusting settings (.inl hflag), hjoin]
    exact iff_of_true rfl (.inl rfl)
  | true =>
    cases hremote : isTrustedProxy ip r.remoteIp settings.trustedProxies with
    | false =>
      rw [clientIp_untrusting settings (.inr hremote),
        clientIp_untrusting settings (.inr (hjoin.symm ▸ hremote)), hjoin]
      exact iff_of_true rfl (.inr (.inl rfl))
    | true =>
      have hfirst : (r.header forwardedForName).elim [] (validEntries ip) = firstEntries ip r := by
        rw [header_eq_head?, firstEntries]
      rw [clientIp_trusting settings hflag hremote,
        clientIp_trusting settings hflag (hjoin.symm ▸ hremote), hjoin, entries_joinLines, hfirst,
        chooseEntry_append_iff hremote]
      simp

end AiServing
