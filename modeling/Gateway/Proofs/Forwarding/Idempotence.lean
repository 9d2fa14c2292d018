import Gateway.Proofs.Forwarding.Order

set_option autoImplicit false

namespace Gateway.Forwarding

structure Context.Concurs (x y : Context) : Prop where
  authority : x.authority.authority? = y.authority.authority?
  remote : x.remote = y.remote
  proto : x.proto = y.proto
  cipherSuite : x.cipherSuite = y.cipherSuite
  sslSessionId : x.sslSessionId = y.sslSessionId

namespace Resolver

variable (s : Resolver) (r r' : Request)

section Rest

variable (x y : Context) (settled : s.Settles r x r')

include settled

theorem tls_rests : s.applyTls x r' = r' := by
  have cipher : x.cipherSuite.or r'.message.cipherSuite = r'.message.cipherSuite := by
    rw [settled.cipherSuite, ← Option.or_assoc, Option.or_self]
  have session : x.sslSessionId.or r'.message.sslSessionId = r'.message.sslSessionId := by
    rw [settled.sslSessionId, ← Option.or_assoc, Option.or_self]
  have secure : (r'.secure || s.forces x) = r'.secure := by
    rw [settled.secure]
    cases s.forces x <;> simp
  have scheme : (if s.forces x then s.secureScheme else r'.scheme) = r'.scheme := by
    rw [settled.scheme]
    cases s.forces x <;> rfl
  rw [tls_settles, cipher, session, secure, scheme]

theorem proto_rests : s.applyProto x r' = r' := by
  have secure : (r'.secure || x.proto.any (·.1.same s.secureScheme)) = r'.secure := by
    rw [settled.secure, Bool.or_assoc, Bool.or_self]
  have scheme : (if s.forces x then r'.scheme else (x.proto.map (·.1)).getD r'.scheme) = r'.scheme := by
    rw [settled.scheme]
    cases s.forces x <;> cases x.proto <;> rfl
  rw [proto_settles, secure, scheme]

theorem remote_rests : applyRemote x r' = r' := by
  have remote :
      (x.remote.host.map fun host => ⟨host, (x.remote.port.or (r'.remote.map (·.port))).getD 0⟩).or r'.remote =
      r'.remote := by
    rw [settled.remote]
    cases x.remote.host <;> cases x.remote.port <;> rfl
  rw [remote_settles, remote]

theorem authority_rests (set : ∀ a, x.authority.authority? = some a → r'.resolved = some a) :
    applyAuthority x r' = .ok r' := by
  rw [apply_authority_ok]
  cases found : x.authority.authority? with
  | none => exact .inl ⟨rfl, rfl⟩
  | some a =>
      obtain ⟨value, written, only⟩ := settled.host a found
      refine .inr ⟨a, value, rfl, written, ?_⟩
      rw [r'.headers.insert_same .host value only, ← set a found]
      rfl

theorem settles_concur (concur : x.Concurs y) : s.Settles r y r' := by
  have forces : s.forces x = s.forces y := by
    rw [Resolver.forces, Resolver.forces, Context.hasTls, Context.hasTls, concur.cipherSuite, concur.sslSessionId]
  constructor
  · rw [← concur.authority, settled.authority]
  · rw [← concur.authority]
    exact settled.host
  · rw [← concur.remote, settled.remote]
  · rw [← forces, ← concur.proto, settled.scheme]
  · rw [← forces, ← concur.proto, settled.secure]
  · rw [← concur.cipherSuite, settled.cipherSuite]
  · rw [← concur.sslSessionId, settled.sslSessionId]

end Rest

theorem own_request (unforced : s.forcedHost = none) (x : Ranked Authority) (member : x ∈ s.own r) :
    x.2 = .request := by
  rcases s.own_unforced r unforced with none | ⟨a, single⟩
  · simp [none] at member
  · rw [single] at member
    exact congrArg Prod.snd (List.mem_singleton.mp member)

theorem own_port_renewed (x : Ranked Authority) (kept rest : List (Ranked UInt16)) (level : ∀ y ∈ kept, y.2 = x.2)
    (positive : ∀ y ∈ kept ++ rest, 0 < y.1) (port : x.1.port = (leader (kept ++ rest)).map (·.1)) :
    (leader ([x].filterMap ownPort? ++ rest)).map (·.1) = x.1.port := by
  rcases leader_cases (kept ++ rest) with ⟨empty, nothing⟩ | ⟨y, leads, found⟩
  · have portless : x.1.port = none := by
      rw [port, nothing]
      rfl
    have own : ownPort? x = none := by
      rw [ownPort?, portless]
      rfl
    rw [List.filterMap_cons_none own, (List.append_eq_nil_iff.mp empty).2, portless]
    rfl
  · have given : x.1.port = some y.1 := by
      rw [port, found]
      rfl
    have own := own_port_positive x y.1 given (positive y (leads_mem y _ leads))
    obtain ⟨q, renewed⟩ := leads_renewed kept rest x.2 level y leads
    rw [List.filterMap_cons_some own, List.filterMap_nil, List.singleton_append, (leader_iff _ _).mpr renewed, given]
    rfl

structure Renews (s : Resolver) (r r' : Request) (a : Authority) : Prop where
  resolved : (Candidate.empty.takeAll (s.authorityOffers r)).authority? = some a
  own : s.own r' = [(a, .request)]
  shown : s.shown r' = s.shown r
  ports : Offer.ports (s.authorityOffers r') = Offer.ports (s.authorityOffers r)

section Renewed

variable (unforced : s.forcedHost = none) (a : Authority) (renews : s.Renews r r' a)

include unforced renews

theorem renewed_host : (Candidate.empty.takeAll (s.authorityOffers r')).host = some a.host := by
  obtain ⟨host, held, rfl⟩ := Option.map_eq_some_iff.mp renews.resolved
  rw [(Candidate.take_all_host _).1] at held ⊢
  obtain ⟨best, first, rfl⟩ := Option.map_eq_some_iff.mp held
  have leads := (leader_iff _ best).mp first
  rw [authorities_parts] at leads
  have texts := leads_map Authority.host best _ leads
  rw [List.map_append] at texts
  have level : ∀ y ∈ (s.own r).map (valued Authority.host), y.2 = .request :=
    List.forall_mem_map.mpr (s.own_request r unforced)
  obtain ⟨q, renewed⟩ := leads_renewed _ _ .request level _ texts
  obtain ⟨x, again, same⟩ := leads_of_map Authority.host (best.1.host, q)
    ((⟨best.1.host, (Candidate.empty.takeAll (s.authorityOffers r)).port⟩, .request) :: s.shown r) renewed
  rw [authorities_parts, renews.own, renews.shown, List.singleton_append, (leader_iff _ x).mpr again]
  exact congrArg (some ·.1) same.symm

theorem renewed_structured (b : Authority) (leads : Leads (b, .forwarded) (Offer.authorities (s.authorityOffers r))) :
    Candidate.empty.takeAll (s.authorityOffers r') = Candidate.empty.takeAll (s.authorityOffers r) := by
  have lower (x : Ranked Authority) (request : x.2 = .request) : x.2.rank < Priority.forwarded.rank := by
    rw [request]
    decide
  have again : Leads (b, .forwarded) (Offer.authorities (s.authorityOffers r')) := by
    rw [authorities_parts] at leads ⊢
    rw [renews.shown]
    refine leads_replaced (s.own r) (s.own r') _ _ ?_ ?_ leads
    · exact fun x member => lower x (s.own_request r unforced x member)
    · exact fun x member => lower x (s.own_request r' unforced x member)
  rw [Candidate.take_all_structured _ b leads (s.authority_ports_bounded r),
    Candidate.take_all_structured _ b again (s.authority_ports_bounded r')]

theorem renewed_port (legacy : s.ShowsLegacy r) : (Candidate.empty.takeAll (s.authorityOffers r')).port = a.port := by
  have legacy' : s.ShowsLegacy r' := fun y member => legacy y (renews.shown ▸ member)
  have port := s.legacy_port r unforced legacy
  have port' := s.legacy_port r' unforced legacy'
  have given : a.port = (Candidate.empty.takeAll (s.authorityOffers r)).port := by
    obtain ⟨host, -, rfl⟩ := Option.map_eq_some_iff.mp renews.resolved
    rfl
  have same : s.foremost r' = s.foremost r ∧ s.nearest r' = s.nearest r := by
    rw [foremost, nearest, renews.shown]
    exact ⟨rfl, rfl⟩
  rw [← given, List.filterMap_append, List.append_assoc] at port
  rw [same.1, same.2, renews.own, renews.ports, List.filterMap_append, List.append_assoc] at port'
  rw [port']
  refine own_port_renewed (a, .request) ((s.own r).filterMap ownPort?) _ ?_ ?_ port
  · intro y member
    obtain ⟨x, owned, own⟩ := List.mem_filterMap.mp member
    rw [(own_port_given x y own).2, s.own_request r unforced x owned]
  · intro y member
    rw [← List.append_assoc, ← List.filterMap_append] at member
    rcases List.mem_append.mp member with taken | alone
    · obtain ⟨x, -, own⟩ := List.mem_filterMap.mp taken
      exact own_port_sound x y own
    · exact s.authority_ports_positive r y alone

theorem renewed_authority : (Candidate.empty.takeAll (s.authorityOffers r')).authority? = some a := by
  obtain ⟨host, held, same⟩ := Option.map_eq_some_iff.mp renews.resolved
  rw [(Candidate.take_all_host _).1] at held
  obtain ⟨⟨b, p⟩, first, -⟩ := Option.map_eq_some_iff.mp held
  have leads := (leader_iff _ (b, p)).mp first
  by_cases structured : p = .forwarded
  · subst structured
    rw [s.renewed_structured r r' unforced a renews b leads, renews.resolved]
  · have legacy := s.shown_legacy r unforced (b, p) leads structured
    rw [Candidate.authority?, s.renewed_host r r' unforced a renews, s.renewed_port r r' unforced a renews legacy]
    rfl

end Renewed

section Again

variable (ok : (s.resolve r).2 = .ok ()) (free : s.roles.get? .host = none)

include ok free

theorem resolved_said : (s.resolve r).1.headers.lines.flatMap s.said = r.headers.lines.flatMap s.said := by
  rcases s.resolve_sets r ok with ⟨-, same⟩ | ⟨_, value, -, -, inserted⟩
  · rw [same]
  · rw [inserted]
    refine r.headers.lines_insert .host s.said value fun value => s.said_ok _ [] ?_
    rw [readLine, free]

theorem resolved_readable : ∀ line ∈ (s.resolve r).1.headers.lines, s.IsReadable line := by
  have readable := ((s.resolve_ok_iff r).mp ok).1
  rcases s.resolve_sets r ok with ⟨-, same⟩ | ⟨_, value, -, -, inserted⟩
  · rw [same]
    exact readable
  · rw [inserted]
    intro line member
    by_cases host : line.1 = .host
    · exact ⟨[], by rw [readLine, host, free]⟩
    · rw [Header.Map.mem_lines, Header.Map.getAll_insert_other _ _ _ _ host, ← Header.Map.mem_lines] at member
      exact readable line member

theorem resolved_authority :
    (s.found (s.resolve r).1).authority.authority? = (s.found r).authority.authority? := by
  have said := s.resolved_said r ok free
  have settled := s.resolve_settles r ok
  have unchanged (own : s.own (s.resolve r).1 = s.own r) : s.found (s.resolve r).1 = s.found r := by
    rw [Resolver.found, evidence, own, said]
    rfl
  cases forced : s.forcedHost with
  | some a => rw [unchanged (by rw [own_forced s _ a forced, own_forced s _ a forced])]
  | none =>
      cases resolved : (s.found r).authority.authority? with
      | none =>
          have same : (s.resolve r).1.authority = r.authority := by
            rw [settled.authority, resolved]
            rfl
          rw [unchanged (by rw [own, own, same]), resolved]
      | some a =>
          have renewed : (s.resolve r).1.authority = some a := by
            rw [settled.authority, resolved]
            rfl
          rw [found_parts] at resolved ⊢
          refine s.renewed_authority r (s.resolve r).1 forced a ⟨resolved, ?_, ?_, ?_⟩
          · rw [own, forced, renewed]
            rfl
          · rw [shown, shown, said]
          · rw [ports_parts, ports_parts, said]

theorem resolved_concurs : (s.found r).Concurs (s.found (s.resolve r).1) := by
  have said := s.resolved_said r ok free
  refine ⟨(s.resolved_authority r ok free).symm, ?_, ?_, ?_, ?_⟩
  · rw [found_parts, found_parts, peer_offers_parts, peer_offers_parts, said]
  · rw [found_parts, found_parts, schemes_parts, schemes_parts, said]
  · have whole (r : Request) := tls_parts s r Evidence.cipherSuite? fun _ _ => rfl
    rw [found_parts, found_parts, whole, whole, said]
  · have whole (r : Request) := tls_parts s r Evidence.sslSessionId? fun _ _ => rfl
    rw [found_parts, found_parts, whole, whole, said]

end Again

theorem resolve_resolved (c : Config) (configured : ofConfig c = .ok s) (free : Roles.IsFree c .host)
    (ok : (s.resolve r).2 = .ok ()) : s.resolve (s.resolve r).1 = ((s.resolve r).1, .ok ()) := by
  have unnamed := Roles.of_config_free c s.roles (s.of_config_parts c configured).1 .host free
  have concur := s.resolved_concurs r ok unnamed
  have settled := s.settles_concur r _ _ _ (s.resolve_settles r ok) concur
  have set : ∀ a, (s.found (s.resolve r).1).authority.authority? = some a → (s.resolve r).1.resolved = some a := by
    rw [← concur.authority]
    intro a authority
    rcases s.resolve_sets r ok with ⟨none, -⟩ | ⟨b, -, found, resolved, -⟩
    · simp [none] at authority
    · rw [resolved, ← found, authority]
  have heeded : s.heeded (s.resolve r).1 = (s.resolve r).1 := by
    rw [Resolver.heeded, s.tls_rests r _ _ settled, s.proto_rests r _ _ settled]
  rw [s.resolve_readable _ (s.resolved_readable r ok unnamed), heeded, s.authority_rests r _ _ settled set]
  exact congrArg (·, _) (s.remote_rests r _ _ settled)

def inferring : Request :=
  received [("Host", "internal"), ("X-Forwarded-Proto", "https"), ("X-Forwarded-For", "192.0.2.1")]

theorem resolve_resolved_inferring :
    ofConfig {} = .ok standard ∧ Roles.IsFree {} .host ∧ (standard.resolve inferring).2 = .ok () ∧
    (standard.resolve inferring).1.authority = some ⟨"internal".toList, some 443⟩ ∧
    (standard.resolve inferring).1 ≠ inferring ∧
    standard.resolve (standard.resolve inferring).1 = ((standard.resolve inferring).1, .ok ()) := by
  obtain ⟨free, ok, authority, changed⟩ :
      Roles.IsFree {} .host ∧ (standard.resolve inferring).2 = .ok () ∧
      (standard.resolve inferring).1.authority = some ⟨"internal".toList, some 443⟩ ∧
      inferring.authority ≠ some ⟨"internal".toList, some 443⟩ := by
    decide +kernel
  refine ⟨standard_configured, free, ok, authority, ?_, ?_⟩
  · intro same
    exact changed (same ▸ authority)
  · exact standard.resolve_resolved inferring {} standard_configured free ok

end Resolver

end Gateway.Forwarding
