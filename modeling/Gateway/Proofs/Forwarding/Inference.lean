import Gateway.Proofs.Forwarding.Order

set_option autoImplicit false

namespace Gateway.Forwarding

open Header (Line)

def implied (x : Ranked Scheme) : Option (Ranked UInt16) := x.1.defaultPort?.map (·, x.2)

theorem implied_level (x : Ranked Scheme) (y : Ranked UInt16) (port : implied x = some y) : y.2 = x.2 := by
  obtain ⟨n, -, rfl⟩ := Option.map_eq_some_iff.mp port
  rfl

def hasPort (x : Reading Scheme) : Bool := x.1.toOption.any (·.defaultPort?.isSome)

theorem implied_fits (x : Ranked Scheme) (y : Ranked UInt16) (port : implied x = some y) : Scheme.Fits y.1 x.1 := by
  obtain ⟨n, default, rfl⟩ := Option.map_eq_some_iff.mp port
  exact (Scheme.default_port_iff x.1 n).mp default

namespace Evidence

theorem ports_implied (c : Config) (toAuthority : c.portAsAuthority = true) (role : Role) (text : Text)
    (unstated : ∀ x ∈ ports c role text, x.2 ≠ .forwardedPort) :
    ports c role text = (schemes role text).flatMap fun x => inferred x.2 x.1 := by
  cases role with
  | forwarded => simp [ports, schemes, List.flatMap_map]
  | proto => simp [ports, schemes, List.flatMap_map]
  | https =>
      by_cases on : isOn text = true
      · rw [ports, schemes, if_pos on, if_pos (by rw [on, toAuthority]; rfl), List.flatMap_singleton]
        rfl
      · simp [ports, schemes, on]
  | port =>
      cases first : leftMost text with
      | none => simp [ports, schemes, first]
      | some port => simp [ports, first, toAuthority] at unstated
  | _ => rfl

theorem read_implied (texts : List (Ranked Text)) (schemes : List (Ranked Scheme))
    (read : certain schemes = texts.map (valued readScheme)) :
    certain (schemes.filterMap implied) = texts.flatMap fun x => inferred x.2 x.1 := by
  induction texts generalizing schemes with
  | nil =>
      obtain rfl := List.map_eq_nil_iff.mp read
      rfl
  | cons text rest ih =>
      obtain ⟨⟨scheme, p⟩, others, rfl, first, later⟩ := List.map_eq_cons_iff.mp read
      obtain ⟨known, level⟩ := Prod.mk.inj first
      obtain rfl := read_scheme_text text.1 scheme known.symm
      obtain rfl : p = text.2 := level
      rw [List.flatMap_cons, ← ih others later, inferred]
      cases port : Scheme.defaultPort? ⟨text.1⟩ with
      | none => rw [List.filterMap_cons_none (by rw [implied, port]; rfl)]; rfl
      | some n => rw [List.filterMap_cons_some (b := (n, text.2)) (by rw [implied, port]; rfl)]; rfl

end Evidence

namespace Resolver

variable (s : Resolver) (r : Request)

def StatesNoPort : Prop :=
  (∀ x ∈ s.hosts r, x.1.toOption.bind (·.port) = none) ∧ ∀ x ∈ s.ports r, x.2 ≠ .forwardedPort

instance : Decidable (s.StatesNoPort r) := inferInstanceAs (Decidable (_ ∧ _))

theorem heard_implied (toAuthority : s.config.portAsAuthority = true)
    (unstated : ∀ x ∈ s.ports r, x.2 ≠ .forwardedPort) :
    s.ports r = (s.heard r Evidence.schemes).flatMap fun x => Evidence.inferred x.2 x.1 := by
  rw [ports, heard, heard, List.flatMap_assoc]
  apply List.flatMap_congr
  intro line member
  have silent : ∀ x ∈ s.heardFrom (Evidence.ports s.config) line, x.2 ≠ .forwardedPort := fun x told =>
    unstated x (List.mem_flatMap.mpr ⟨line, member, told⟩)
  unfold heardFrom at silent ⊢
  cases named : s.roles.get? line.1 with
  | none => rfl
  | some role =>
      cases read : line.2.text? with
      | none => rfl
      | some text =>
          rw [named, read] at silent
          exact Evidence.ports_implied s.config toAuthority role text silent

theorem ports_implied (toAuthority : s.config.portAsAuthority = true) (unstated : ∀ x ∈ s.ports r, x.2 ≠ .forwardedPort)
    (readable : ∀ line ∈ r.headers.lines, s.IsReadable line) :
    Offer.ports (s.authorityOffers r) = ((s.evidence r).filterMap Evidence.scheme?).filterMap implied := by
  have compete := s.competes r readable
  have same : certain (Offer.ports (s.authorityOffers r)) =
      certain (((s.evidence r).filterMap Evidence.scheme?).filterMap implied) := by
    rw [compete.ports, s.heard_implied r toAuthority unstated]
    exact (Evidence.read_implied _ _ compete.schemes).symm
  have injective : Function.Injective (valued (Except.ok (ε := ParseError) (α := UInt16))) := by
    rintro ⟨n, p⟩ ⟨m, q⟩ equal
    simpa [valued] using equal
  exact List.map_injective_iff.mpr injective same

theorem unstated_own (readable : ∀ line ∈ r.headers.lines, s.IsReadable line) (unstated : s.StatesNoPort r)
    (x : Ranked Authority) (member : x ∈ Offer.authorities (s.authorityOffers r)) : x.1.port = none := by
  have listed : valued Except.ok x ∈ s.hosts r := by
    rw [← (s.competes r readable).hosts]
    exact List.mem_map_of_mem member
  exact unstated.1 _ listed

theorem inferred_port (toAuthority : s.config.portAsAuthority = true)
    (readable : ∀ line ∈ r.headers.lines, s.IsReadable line)
    (unstated : s.StatesNoPort r) (n : UInt16) (port : (Candidate.empty.takeAll (s.authorityOffers r)).port = some n) :
    ∃ p, Leads (n, p) (((s.evidence r).filterMap Evidence.scheme?).filterMap implied) := by
  have own := s.unstated_own r readable unstated
  rcases s.structured_or_legacy r with ⟨a, leads⟩ | legacy
  · rw [Candidate.take_all_structured _ a leads (s.authority_ports_bounded r)] at port
    cases port.symm.trans (own (a, .forwarded) (leads_mem _ _ leads))
  · have portless : (records none (Offer.authorities (s.authorityOffers r))).filterMap ownPort? = [] := by
      rw [List.filterMap_eq_nil_iff]
      intro x taken
      rw [ownPort?, own x (records_subset _ _ taken)]
      rfl
    rw [(s.authority_port r legacy).1, portless, List.nil_append, s.ports_implied r toAuthority unstated.2 readable,
      Option.map_eq_some_iff] at port
    obtain ⟨⟨m, p⟩, found, rfl⟩ := port
    exact ⟨p, (leader_iff _ _).mp found⟩

theorem authority_found (ok : (s.resolve r).2 = .ok ()) (a : Authority)
    (authority : (s.resolve r).1.authority = some a) :
    (s.found r).authority.authority? = some a := by
  rw [(s.resolve_settles r ok).authority] at authority
  cases found : (s.found r).authority.authority? with
  | some b => simpa [found] using authority
  | none =>
      rw [found, Option.none_or] at authority
      rw [found_parts, Candidate.authority?, Option.map_eq_none_iff, (Candidate.take_all_host _).1,
        Option.map_eq_none_iff,
        leader_none, authorities_parts, List.append_eq_nil_iff] at found
      have nobody := found.1
      rw [own, authority] at nobody
      split at nobody <;> cases nobody

theorem leads_port (schemes : List (Ranked Scheme)) (x : Ranked Scheme)
    (leads : Leads x (schemes.filter fun x => (implied x).isSome)) :
    Leads (.ok x.1, x.2) ((certain schemes).filter hasPort) := by
  have same : (certain schemes).filter hasPort = certain (schemes.filter fun x => (implied x).isSome) := by
    rw [certain, List.filter_map, certain]
    congr 2
    funext y
    exact (Option.isSome_map ..).symm
  rw [same]
  exact leads_map Except.ok x _ leads

theorem leading_scheme (ok : (s.resolve r).2 = .ok ())
    (unforced : ¬ s.IsForcedSecure r) (x : Ranked Scheme)
    (leads : Leads x ((s.evidence r).filterMap Evidence.scheme?)) :
    (s.resolve r).1.scheme = x.1 := by
  rw [(s.resolve_settles r ok).scheme, if_neg (mt (s.forces_iff r).mp unforced), found_parts,
    (leader_iff _ x).mpr leads]
  rfl

-- A port that no source states comes of the leading scheme that has one. It fits the scheme of the
-- request where this scheme leads among all, unless TLS evidence decides the scheme alone.
theorem inferred_port_fits (c : Config) (configured : ofConfig c = .ok s) (toAuthority : c.portAsAuthority = true)
    (ok : (s.resolve r).2 = .ok ()) (unstated : s.StatesNoPort r) (a : Authority) (n : UInt16)
    (authority : (s.resolve r).1.authority = some a) (port : a.port = some n) :
    (∃ scheme p, Leads (.ok scheme, p) ((s.schemes r).filter hasPort) ∧ Scheme.Fits n scheme) ∧
    (Scheme.Fits n (s.resolve r).1.scheme ∨ s.IsForcedSecure r ∨
      ∃ scheme p, Leads (.ok scheme, p) (s.schemes r) ∧ scheme.defaultPort? = none) := by
  have readable := ((s.resolve_ok_iff r).mp ok).1
  have resolved := s.authority_found r ok a authority
  rw [found_parts] at resolved
  obtain ⟨host, -, rfl⟩ := Option.map_eq_some_iff.mp resolved
  rw [← (s.of_config_settings c configured).1] at toAuthority
  obtain ⟨p, inferred⟩ := s.inferred_port r toAuthority readable unstated n port
  obtain ⟨x, first, made⟩ := leads_of_filter_map implied implied_level _ _ inferred
  rw [← (s.competes r readable).schemes]
  refine ⟨⟨x.1, x.2, leads_port _ x first, implied_fits x _ made⟩, ?_⟩
  by_cases forced : s.IsForcedSecure r
  · exact .inr (.inl forced)
  · rcases leader_cases ((s.evidence r).filterMap Evidence.scheme?) with ⟨empty, -⟩ | ⟨y, leads, -⟩
    · have member := leads_mem x _ first
      simp [empty] at member
    · cases default : y.1.defaultPort? with
      | none => exact .inr (.inr ⟨y.1, y.2, leads_map Except.ok y _ leads, default⟩)
      | some m =>
          have told : implied y = some (m, y.2) := by rw [implied, default]; rfl
          have again := leads_filter_map implied implied_level _ y _ told leads
          cases leads_unique _ _ _ again inferred
          rw [s.leading_scheme r ok forced y leads]
          exact .inl ((Scheme.default_port_iff y.1 n).mp default)

section Unstated

def contested : Request :=
  received [("Host", "internal"), ("X-Proxied-Https", "on"), ("X-Forwarded-Host", "a.example"),
    ("X-Forwarded-Proto", "HTTP")]

theorem inferred_port_fits_contested :
    ofConfig {} = .ok standard ∧ standard.config.portAsAuthority = true ∧
    (standard.resolve contested).2 = .ok () ∧ standard.StatesNoPort contested ∧
    (standard.resolve contested).1.authority = some ⟨"a.example".toList, some 80⟩ ∧
    Scheme.Fits 80 (standard.resolve contested).1.scheme := by
  obtain ⟨ok, unstated, authority, unforced, leads⟩ :
      (standard.resolve contested).2 = .ok () ∧ standard.StatesNoPort contested ∧
      (standard.resolve contested).1.authority = some ⟨"a.example".toList, some 80⟩ ∧
      ¬ standard.IsForcedSecure contested ∧
      leader (standard.schemes contested) = some (.ok ⟨"HTTP".toList⟩, .forwardedProto) := by
    decide +kernel
  rw [leader_iff] at leads
  obtain ⟨-, fits⟩ :=
    standard.inferred_port_fits contested {} standard_configured rfl ok unstated _ 80 authority rfl
  refine ⟨standard_configured, rfl, ok, unstated, authority, fits.resolve_right ?_⟩
  rintro (forced | ⟨scheme, p, first, portless⟩)
  · exact unforced forced
  · cases leads_unique _ _ _ first leads
    exact absurd portless (by decide)

def overruled : Request := received [("Host", "a.example"), ("Proxy-ssl-id", "5f1c"), ("X-Forwarded-Proto", "http")]

def unported : Request := received [("Host", "a.example"), ("X-Forwarded-Proto", "https"), ("Forwarded", "proto=wss")]

theorem inferred_port_misfits :
    (ofConfig {} = .ok standard ∧ standard.config.portAsAuthority = true) ∧
    ((standard.resolve overruled).2 = .ok () ∧ standard.StatesNoPort overruled ∧
      (standard.resolve overruled).1.authority = some ⟨"a.example".toList, some 80⟩ ∧
      (standard.resolve overruled).1.scheme = .https) ∧
    (standard.resolve unported).2 = .ok () ∧ standard.StatesNoPort unported ∧
    (standard.resolve unported).1.authority = some ⟨"a.example".toList, some 443⟩ ∧
    (standard.resolve unported).1.scheme = ⟨"wss".toList⟩ := by
  refine ⟨⟨standard_configured, rfl⟩, ?_⟩
  decide +kernel

end Unstated

end Resolver

end Gateway.Forwarding
