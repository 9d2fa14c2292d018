import Gateway.Proofs.Forwarding.Selection

set_option autoImplicit false

namespace Gateway

namespace Forwarding

namespace Resolver

variable (s : Resolver) (r : Request)

theorem evidence_cases (e : Evidence) (member : e ∈ s.evidence r) :
    (∃ x ∈ s.own r, e = .authority x.1 x.2) ∨ IsRegular e := by
  rcases List.mem_append.mp member with owned | said
  · obtain ⟨x, here, rfl⟩ := List.mem_map.mp owned
    exact .inl ⟨x, here, rfl⟩
  · obtain ⟨line, -, here⟩ := List.mem_flatMap.mp said
    obtain ⟨role, -, suits⟩ := s.said_suits line e here
    exact .inr ⟨role, suits⟩

theorem own_priority (x : Ranked Authority) (member : x ∈ s.own r) : x.2 = .forced ∨ x.2 = .request := by
  unfold own at member
  cases forced : s.forcedHost with
  | some a =>
      rw [forced] at member
      exact .inl (congrArg (·.2) (List.mem_singleton.mp member))
  | none =>
      rw [forced] at member
      obtain ⟨a, -, rfl⟩ := List.mem_map.mp member
      exact .inr rfl

theorem authority_offer_cases (o : Offer) (member : o ∈ s.authorityOffers r) :
    (∃ x ∈ s.own r, o = .authority x.1 x.2) ∨
      (∃ a p, o = .authority a p ∧ (p = .forwardedHost ∨ p = .forwardedServer ∨ p = .forwarded)) ∨
      ∃ n p, o = .port n p ∧ 0 < n ∧
      (p = .forwardedPort ∨ p = .forwardedProto ∨ p = .proxiedHttps ∨ p = .forwarded) := by
  obtain ⟨e, present, offered⟩ := List.mem_filterMap.mp member
  rcases s.evidence_cases r e present with ⟨x, here, rfl⟩ | ⟨role, suits⟩
  · exact .inl ⟨x, here, (Option.some.inj offered).symm⟩
  · cases o with
    | authority a p => exact .inr (.inl ⟨a, p, rfl, Evidence.suits_host role e suits a p offered⟩)
    | port n p => exact .inr (.inr ⟨n, p, rfl, Evidence.suits_port role e suits n p offered⟩)

theorem peer_offer_cases (o : Offer) (member : o ∈ s.peerOffers r) :
    (∃ a p, o = .authority a p ∧ (p = .forwardedFor ∨ p = .forwarded)) ∨
      ∃ n p, o = .port n p ∧ 0 < n ∧ (p = .forwardedPort ∨ p = .proxiedHttps) := by
  obtain ⟨e, present, offered⟩ := List.mem_filterMap.mp member
  rcases s.evidence_cases r e present with ⟨x, -, rfl⟩ | ⟨role, suits⟩
  · cases offered
  · cases o with
    | authority a p => exact .inl ⟨a, p, rfl, Evidence.suits_peer role e suits a p offered⟩
    | port n p => exact .inr ⟨n, p, rfl, Evidence.suits_peer_port role e suits n p offered⟩

theorem authority_offers_sound : ∀ o ∈ s.authorityOffers r, o.IsSound := by
  intro o member
  rcases s.authority_offer_cases r o member with ⟨x, here, rfl⟩ | ⟨a, p, rfl, kind⟩ | ⟨n, p, rfl, positive, kind⟩
  · change x.2 ≠ .unset
    rcases s.own_priority r x here with priority | priority <;> rw [priority] <;> exact nofun
  · rcases kind with rfl | rfl | rfl <;> exact nofun
  · rcases kind with rfl | rfl | rfl | rfl <;> exact ⟨positive, nofun⟩

theorem authority_port_cases (y : Ranked UInt16) (member : y ∈ Offer.ports (s.authorityOffers r)) :
    y.2 = .forwardedPort ∨ y.2 = .forwardedProto ∨ y.2 = .proxiedHttps ∨ y.2 = .forwarded := by
  obtain ⟨o, present, offered⟩ := List.mem_filterMap.mp member
  rcases s.authority_offer_cases r o present with ⟨x, -, rfl⟩ | ⟨a, p, rfl, -⟩ | ⟨n, p, rfl, -, kind⟩
  · cases offered
  · cases offered
  · cases offered
    exact kind

theorem authority_ports_positive (y : Ranked UInt16) (member : y ∈ Offer.ports (s.authorityOffers r)) : 0 < y.1 := by
  obtain ⟨o, present, offered⟩ := List.mem_filterMap.mp member
  have sound := s.authority_offers_sound r o present
  cases o with
  | authority a p => cases offered
  | port n p =>
      cases offered
      exact sound.1

theorem shown_cases (x : Ranked Authority) (member : x ∈ s.shown r) :
    x.2 = .forwardedHost ∨ x.2 = .forwardedServer ∨ x.2 = .forwarded := by
  obtain ⟨o, present, offered⟩ := List.mem_filterMap.mp member
  obtain ⟨e, here, offers⟩ := List.mem_filterMap.mp present
  obtain ⟨line, -, said⟩ := List.mem_flatMap.mp here
  obtain ⟨role, -, suits⟩ := s.said_suits line e said
  cases o with
  | authority a p =>
      cases offered
      exact Evidence.suits_host role e suits a p offers
  | port n p => cases offered

theorem peer_host_cases (x : Ranked Authority) (member : x ∈ Offer.authorities (s.peerOffers r)) :
    x.2 = .forwardedFor ∨ x.2 = .forwarded := by
  obtain ⟨o, present, offered⟩ := List.mem_filterMap.mp member
  rcases s.peer_offer_cases r o present with ⟨a, p, rfl, kind⟩ | ⟨n, p, rfl, -⟩
  · cases offered
    exact kind
  · cases offered

theorem peer_port_cases (y : Ranked UInt16) (member : y ∈ Offer.ports (s.peerOffers r)) :
    y.2 = .forwardedPort ∨ y.2 = .proxiedHttps := by
  obtain ⟨o, present, offered⟩ := List.mem_filterMap.mp member
  rcases s.peer_offer_cases r o present with ⟨a, p, rfl, -⟩ | ⟨n, p, rfl, -, kind⟩
  · cases offered
  · cases offered
    exact kind

theorem authority_ports_bounded (y : Ranked UInt16) (member : y ∈ Offer.ports (s.authorityOffers r)) :
    y.2.rank ≤ Priority.forwarded.rank := by
  rcases s.authority_port_cases r y member with kind | kind | kind | kind <;> rw [kind] <;> decide

theorem peer_ports_bounded (y : Ranked UInt16) (member : y ∈ Offer.ports (s.peerOffers r)) :
    y.2.rank ≤ Priority.forwarded.rank := by
  rcases s.peer_port_cases r y member with kind | kind <;> rw [kind] <;> decide

theorem structured_prevails (ok : (s.resolve r).2 = .ok ()) :
    (∀ x, Leads (x, .forwarded) (s.hosts r) → ∃ a, x = .ok a ∧ (s.resolve r).1.authority = some a) ∧
    (∀ x, Leads (x, .forwarded) (s.peers r) →
      ∃ a, x = .ok a ∧
        (s.resolve r).1.remote = some ⟨a.host, (a.port.or (r.remote.map (·.port))).getD 0⟩) := by
  have settled := s.resolve_settles r ok
  have compete := s.competes r ((s.resolve_ok_iff r).mp ok).1
  have parts := s.found_parts r
  refine ⟨?_, ?_⟩
  · intro x leads
    rw [← compete.hosts] at leads
    obtain ⟨⟨a, p⟩, first, same⟩ := leads_of_map Except.ok _ _ leads
    obtain ⟨rfl, rfl⟩ : x = .ok a ∧ .forwarded = p := by simpa [valued] using same
    refine ⟨a, rfl, ?_⟩
    have taken := Candidate.take_all_structured _ a first (s.authority_ports_bounded r)
    rw [settled.authority, parts, Candidate.authority?, taken]
    rfl
  · intro x leads
    rw [← compete.peers] at leads
    obtain ⟨⟨a, p⟩, first, same⟩ := leads_of_map Except.ok _ _ leads
    obtain ⟨rfl, rfl⟩ : x = .ok a ∧ .forwarded = p := by simpa [valued] using same
    refine ⟨a, rfl, ?_⟩
    have taken := Candidate.take_all_structured _ a first (s.peer_ports_bounded r)
    rw [settled.remote, parts, taken]
    rfl

def structured : Request :=
  received [("Host", "internal:8080"), ("X-Forwarded-Port", "8443"), ("X-Forwarded-Host", "a.example:9000"),
    ("Forwarded", "host=b.example;proto=https;for=192.0.2.1"), ("X-Forwarded-For", "192.0.2.2:4711")]

theorem structured_prevails_portless :
    (standard.resolve structured).2 = .ok () ∧
    (standard.resolve structured).1.authority = some ⟨"b.example".toList, none⟩ ∧
    (standard.resolve structured).1.remote = some ⟨"192.0.2.1".toList, 0⟩ := by
  obtain ⟨ok, host, peer⟩ :
      (standard.resolve structured).2 = .ok () ∧
      leader (standard.hosts structured) = some (.ok ⟨"b.example".toList, none⟩, .forwarded) ∧
      leader (standard.peers structured) = some (.ok ⟨"192.0.2.1".toList, none⟩, .forwarded) := by
    decide +kernel
  rw [leader_iff] at host peer
  obtain ⟨hosts, peers⟩ := standard.structured_prevails structured ok
  obtain ⟨a, same, authority⟩ := hosts _ host
  obtain ⟨b, same', remote⟩ := peers _ peer
  obtain rfl := Except.ok.inj same
  obtain rfl := Except.ok.inj same'
  exact ⟨ok, authority, remote⟩

theorem of_config_forced (c : Config) (text : Text) (configured : ofConfig c = .ok s) (forced : c.forced? = some text) :
    ∃ a, Authority.read text = .ok a ∧ s.forcedHost = some a := by
  have seen := (s.of_config_parts c configured).2.1
  unfold readForced at seen
  rw [forced] at seen
  cases read : Authority.read text with
  | error e => simp [read] at seen
  | ok a => exact ⟨a, rfl, by simpa [read] using seen.symm⟩

theorem own_forced (a : Authority) (forced : s.forcedHost = some a) : s.own r = [(a, .forced)] := by
  rw [own, forced]

theorem forced_records (a : Authority) (forced : s.forcedHost = some a) :
    records none (Offer.authorities (s.authorityOffers r)) = [(a, .forced)] := by
  rw [authorities_parts, own_forced s r a forced]
  exact records_first (a, .forced) _ fun y _ => Priority.rank_le_forced y.2

theorem taken_cases (x : Ranked Authority) (taken : x ∈ records none (Offer.authorities (s.authorityOffers r))) :
    x ∈ s.own r ∨ x ∈ s.shown r := by
  rw [← List.mem_append, ← authorities_parts]
  exact records_subset _ _ taken

theorem authority_port (legacy : ∀ x ∈ records none (Offer.authorities (s.authorityOffers r)), x.2 ≠ .forwarded) :
    (Candidate.empty.takeAll (s.authorityOffers r)).HoldsPort
      (leader ((records none (Offer.authorities (s.authorityOffers r))).filterMap ownPort? ++
        Offer.ports (s.authorityOffers r))) := by
  refine Candidate.take_all_port _ (s.authority_offers_sound r) legacy fun x taken y member same => ?_
  have port := s.authority_port_cases r y member
  rw [same] at port
  rcases s.taken_cases r x taken with owned | shown
  · rcases s.own_priority r x owned with priority | priority <;> simp [priority] at port
  · rcases s.shown_cases r x shown with host | server | structured
    · simp [host] at port
    · simp [server] at port
    · exact legacy x taken structured

theorem peer_offers_sound : ∀ o ∈ s.peerOffers r, o.IsSound := by
  intro o member
  rcases s.peer_offer_cases r o member with ⟨a, p, rfl, kind⟩ | ⟨n, p, rfl, positive, kind⟩
  · rcases kind with rfl | rfl <;> exact nofun
  · rcases kind with rfl | rfl <;> exact ⟨positive, nofun⟩

theorem peer_port (legacy : ∀ x ∈ records none (Offer.authorities (s.peerOffers r)), x.2 ≠ .forwarded) :
    (Candidate.empty.takeAll (s.peerOffers r)).HoldsPort
      (leader ((records none (Offer.authorities (s.peerOffers r))).filterMap ownPort? ++
        Offer.ports (s.peerOffers r))) := by
  refine Candidate.take_all_port _ (s.peer_offers_sound r) legacy fun x taken y member same => ?_
  have port := s.peer_port_cases r y member
  rw [same] at port
  rcases s.peer_host_cases r x (records_subset _ _ taken) with host | structured
  · simp [host] at port
  · exact legacy x taken structured

theorem forced_port (a : Authority) (forced : s.forcedHost = some a) (positive : ∀ n, a.port = some n → 0 < n) :
    (Candidate.empty.takeAll (s.authorityOffers r)).port =
      a.port.or ((leader (Offer.ports (s.authorityOffers r))).map (·.1)) := by
  have first := s.forced_records r a forced
  have held := s.authority_port r (by rw [first]; exact List.forall_mem_singleton.mpr nofun)
  rw [held.1, first]
  cases port : a.port with
  | none => simp [ownPort?, port]
  | some n =>
      have own := own_port_positive (a, .forced) n port (positive n port)
      rw [List.filterMap_cons_some own, List.filterMap_nil, List.singleton_append,
        (leader_iff _ _).mpr (leads_first (n, .forced) _ fun y _ => Priority.rank_le_forced y.2)]
      rfl

-- A forced host prevails with its port. Where it has none the ports that come without a host compete
-- for the place.
theorem forced_prevails (c : Config) (text : Text) (configured : ofConfig c = .ok s) (forced : c.forced? = some text)
    (ok : (s.resolve r).2 = .ok ()) :
    ∃ a port value, Authority.read text = .ok a ∧ (s.resolve r).1.authority = some ⟨a.host, port⟩ ∧
      Header.Value.ofText? (Authority.render ⟨a.host, port⟩) = some value ∧
      (s.resolve r).1.headers.getAll .host = [value] ∧
      (a.port ≠ none → port = a.port) ∧
      (a.port = none → s.ports r = [] ∧ port = none ∨ ∃ n p, Leads (.ok n, p) (s.ports r) ∧ port = some n) := by
  obtain ⟨a, read, known⟩ := s.of_config_forced c text configured forced
  have settled := s.resolve_settles r ok
  have compete := s.competes r ((s.resolve_ok_iff r).mp ok).1
  have positive := fun n => Authority.read_positive text a n read
  have host : (Candidate.empty.takeAll (s.authorityOffers r)).host = some a.host := by
    rw [(Candidate.take_all_host (s.authorityOffers r)).1, authorities_parts,
      own_forced s r a known, List.singleton_append,
      (leader_iff _ _).mpr (leads_first (a, .forced) _ fun y _ => Priority.rank_le_forced y.2)]
    rfl
  have authority : (s.found r).authority.authority? =
      some ⟨a.host, a.port.or ((leader (Offer.ports (s.authorityOffers r))).map (·.1))⟩ := by
    rw [found_parts, Candidate.authority?, host, s.forced_port r a known positive]
    rfl
  obtain ⟨value, legal, only⟩ := settled.host _ authority
  refine ⟨a, _, value, read, ?_, legal, only, ?_, ?_⟩
  · rw [settled.authority, authority]
    rfl
  · intro given
    obtain ⟨n, port⟩ := Option.ne_none_iff_exists'.mp given
    rw [port]
    rfl
  · intro none
    rw [none, Option.none_or, ← compete.ports]
    rcases leader_cases (Offer.ports (s.authorityOffers r)) with ⟨empty, nothing⟩ | ⟨x, leads, found⟩
    · exact .inl ⟨congrArg certain empty, by rw [nothing]; rfl⟩
    · exact .inr ⟨x.1, x.2, leads_map Except.ok x _ leads, by rw [found]; rfl⟩

def forcing (host : String) : Config := { forcedHost := some host.toList }

def bare : Resolver := (ofConfig (forcing "www.example.com")).toOption.get (by decide +kernel)

def full : Resolver := (ofConfig (forcing "www.example.com:8080")).toOption.get (by decide +kernel)

def lending : Request := received [("Host", "internal:8080"), ("X-Forwarded-Port", "8443")]

theorem forced_prevails_full :
    ofConfig (forcing "www.example.com:8080") = .ok full ∧ (full.resolve lending).2 = .ok () ∧
    (full.resolve lending).1.authority = some ⟨"www.example.com".toList, some 8080⟩ := by
  have ok : (full.resolve lending).2 = .ok () := by decide +kernel
  have configured : ofConfig (forcing "www.example.com:8080") = .ok full := rfl
  obtain ⟨a, port, value, read, authority, -, -, own, -⟩ :=
    full.forced_prevails lending _ "www.example.com:8080".toList configured (by decide +kernel) ok
  have host : Authority.read "www.example.com:8080".toList = .ok ⟨"www.example.com".toList, some 8080⟩ := by
    decide +kernel
  obtain rfl := Except.ok.inj (read.symm.trans host)
  rw [own nofun] at authority
  exact ⟨configured, ok, authority⟩

theorem forced_host_lent_port :
    ofConfig (forcing "www.example.com") = .ok bare ∧ bare.forcedHost = some ⟨"www.example.com".toList, none⟩ ∧
    (bare.resolve lending).2 = .ok () ∧
    (bare.resolve lending).1.authority = some ⟨"www.example.com".toList, some 8443⟩ ∧
    (bare.resolve lending).1.headers.getAll .host = (Header.Value.ofText? "www.example.com:8443".toList).toList := by
  refine ⟨rfl, ?_⟩
  decide +kernel

end Resolver

end Forwarding

end Gateway
