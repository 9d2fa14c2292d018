import Gateway.Proofs.Forwarding.Ports
import Gateway.Proofs.Forwarding.Role

set_option autoImplicit false

namespace Gateway.Forwarding

open Header (Line)

structure Reordered (before after : List Line) : Prop where
  perm : before.Perm after
  kept : ∀ name, before.filter (·.1 = name) = after.filter (·.1 = name)

theorem reordered_swap (front back : List Line) (x y : Line) (different : x.1 ≠ y.1) :
    Reordered (front ++ x :: y :: back) (front ++ y :: x :: back) where
  perm := (List.Perm.swap y x back).append_left front
  kept name := by
    rw [List.filter_append, List.filter_append]
    refine congrArg (front.filter (·.1 = name) ++ ·) ?_
    by_cases named : x.1 = name
    · have other : y.1 ≠ name := fun same => different (named.trans same.symm)
      simp [named, other]
    · simp [List.filter_cons, named]

theorem reordered_values (before after : List Line) (reordered : Reordered before after) (name : Header.Name) :
    (Header.Map.ofLines before).getAll name = (Header.Map.ofLines after).getAll name := by
  rw [Header.Map.getAll_ofLines, Header.Map.getAll_ofLines, reordered.kept]

def Priority.role? : Priority → Option Role
  | unset | request | forced => none
  | proxiedHttps => some .https
  | forwardedProto => some .proto
  | forwardedServer => some .server
  | forwardedPort => some .port
  | forwardedFor => some .for_
  | forwardedHost => some .host
  | forwarded => some .forwarded

namespace Evidence

def priority? : Evidence → Option Priority
  | authority _ p | authorityPort _ p | remote _ p | remotePort _ p | proto _ p => some p
  | cipherSuite _ | sslSessionId _ => none

theorem suits_role (role : Role) (e : Evidence) (p : Priority) (suits : Suits role e) (ranked : e.priority? = some p) :
    p.role? = some role := by
  cases suits <;> first | cases ranked; rfl | cases ranked

theorem authority_ranked (e : Evidence) (x : Ranked Authority)
    (offered : (e.forAuthority?.bind Offer.authority?) = some x) :
    e.priority? = some x.2 := by
  cases e <;> first | cases offered; rfl | cases offered

theorem port_ranked (e : Evidence) (x : Ranked UInt16) (offered : (e.forAuthority?.bind Offer.port?) = some x) :
    e.priority? = some x.2 := by
  cases e <;> first | cases offered; rfl | cases offered

theorem peer_ranked (e : Evidence) (x : Ranked Authority) (offered : (e.forRemote?.bind Offer.authority?) = some x) :
    e.priority? = some x.2 := by
  cases e <;> first | cases offered; rfl | cases offered

theorem peer_port_ranked (e : Evidence) (x : Ranked UInt16) (offered : (e.forRemote?.bind Offer.port?) = some x) :
    e.priority? = some x.2 := by
  cases e <;> first | cases offered; rfl | cases offered

theorem scheme_ranked (e : Evidence) (x : Ranked Scheme) (offered : e.scheme? = some x) : e.priority? = some x.2 := by
  cases e <;> first | cases offered; rfl | cases offered

end Evidence

namespace Resolver

section Alike

variable (s : Resolver) (r : Request) (m m' : Header.Map) (sole : s.roles.IsSole)
  (same : ∀ name, m.getAll name = m'.getAll name)

include sole same

theorem said_alike {β : Type} (tell : Evidence → Option β)
    (single : ∀ role role' e e', Evidence.Suits role e → Evidence.Suits role' e' → (tell e).isSome →
      (tell e').isSome → role = role') :
    (m.lines.flatMap s.said).filterMap tell = (m'.lines.flatMap s.said).filterMap tell := by
  rw [List.filterMap_flatMap, List.filterMap_flatMap]
  apply Header.Map.lines_alike _ _ _ _ same
  intro x y told told'
  have teller (line : Line) (told : (s.said line).filterMap tell ≠ []) :
      ∃ role e, s.roles.get? line.1 = some role ∧ Evidence.Suits role e ∧ (tell e).isSome := by
    obtain ⟨b, member⟩ := List.exists_mem_of_ne_nil _ told
    obtain ⟨e, here, found⟩ := List.mem_filterMap.mp member
    obtain ⟨role, named, suits⟩ := s.said_suits line e here
    exact ⟨role, e, named, suits, Option.isSome_iff_exists.mpr ⟨b, found⟩⟩
  obtain ⟨role, e, named, suits, tells⟩ := teller x told
  obtain ⟨role', e', named', suits', tells'⟩ := teller y told'
  obtain rfl := single role role' e e' suits suits' tells tells'
  exact sole x.1 y.1 role named named'

theorem ranked_alike {α : Type} (f : Evidence → Option (Ranked α))
    (ranks : ∀ e x, f e = some x → e.priority? = some x.2)
    (p : Priority) :
    ((m.lines.flatMap s.said).filterMap f).find? (·.2 = p) =
      ((m'.lines.flatMap s.said).filterMap f).find? (·.2 = p) := by
  rw [← List.head?_filter, ← List.head?_filter, List.filter_filterMap, List.filter_filterMap]
  refine congrArg List.head? (said_alike s m m' sole same _ ?_)
  have ranked (role : Role) (e : Evidence) (suits : Evidence.Suits role e)
      (told : ((f e).filter fun x => decide (x.2 = p)).isSome) : p.role? = some role := by
    obtain ⟨x, found⟩ := Option.isSome_iff_exists.mp told
    obtain ⟨given, priority⟩ := Option.filter_eq_some_iff.mp found
    obtain rfl : x.2 = p := by simpa using priority
    exact Evidence.suits_role role e x.2 suits (ranks e x given)
  intro role role' e e' suits suits' told told'
  exact Option.some.inj ((ranked role e suits told).symm.trans (ranked role' e' suits' told'))

end Alike

structure Alike (s : Resolver) (r r' : Request) : Prop where
  authority : r.authority = r'.authority
  remote : r.remote = r'.remote
  scheme : r.scheme = r'.scheme
  secure : r.secure = r'.secure
  cipherSuite : r.message.cipherSuite = r'.message.cipherSuite
  sslSessionId : r.message.sslSessionId = r'.message.sslSessionId
  readable : (∀ line ∈ r.headers.lines, s.IsReadable line) ↔ ∀ line ∈ r'.headers.lines, s.IsReadable line
  shown (p : Priority) : (s.shown r).find? (·.2 = p) = (s.shown r').find? (·.2 = p)
  ports (p : Priority) :
    (Offer.ports (s.authorityOffers r)).find? (·.2 = p) = (Offer.ports (s.authorityOffers r')).find? (·.2 = p)
  peers (p : Priority) :
    (Offer.authorities (s.peerOffers r)).find? (·.2 = p) = (Offer.authorities (s.peerOffers r')).find? (·.2 = p)
  peerPorts (p : Priority) :
    (Offer.ports (s.peerOffers r)).find? (·.2 = p) = (Offer.ports (s.peerOffers r')).find? (·.2 = p)
  schemes (p : Priority) :
    ((s.evidence r).filterMap Evidence.scheme?).find? (·.2 = p) =
      ((s.evidence r').filterMap Evidence.scheme?).find? (·.2 = p)
  cipherSuites : (s.evidence r).filterMap Evidence.cipherSuite? = (s.evidence r').filterMap Evidence.cipherSuite?
  sslSessionIds : (s.evidence r).filterMap Evidence.sslSessionId? = (s.evidence r').filterMap Evidence.sslSessionId?

section Alike

variable (s : Resolver) (r r' : Request)

theorem alike_symm (alike : s.Alike r r') : s.Alike r' r where
  authority := alike.authority.symm
  remote := alike.remote.symm
  scheme := alike.scheme.symm
  secure := alike.secure.symm
  cipherSuite := alike.cipherSuite.symm
  sslSessionId := alike.sslSessionId.symm
  readable := alike.readable.symm
  shown p := (alike.shown p).symm
  ports p := (alike.ports p).symm
  peers p := (alike.peers p).symm
  peerPorts p := (alike.peerPorts p).symm
  schemes p := (alike.schemes p).symm
  cipherSuites := alike.cipherSuites.symm
  sslSessionIds := alike.sslSessionIds.symm

theorem tls_parts (tls? : Evidence → Option Text) (plain : ∀ a p, tls? (.authority a p) = none) :
    (s.evidence r).filterMap tls? = (r.headers.lines.flatMap s.said).filterMap tls? := by
  rw [evidence, List.filterMap_append]
  refine (congrArg₂ (· ++ ·) ?_ rfl).trans (List.nil_append _)
  simp [List.filterMap_map, plain]

theorem same_values_alike (sole : s.roles.IsSole) (m m' : Header.Map) (same : ∀ name, m.getAll name = m'.getAll name) :
    s.Alike (r.withHeaders m) (r.withHeaders m') where
  authority := by
    have first : m.get? .host = m'.get? .host := congrArg List.head? (same .host)
    simp only [Request.authority, Request.namedAuthority, Request.withHeaders, first]
  remote := rfl
  scheme := rfl
  secure := rfl
  cipherSuite := rfl
  sslSessionId := rfl
  readable := by
    have member (line : Line) : line ∈ m.lines ↔ line ∈ m'.lines := by
      rw [Header.Map.mem_lines, Header.Map.mem_lines, same]
    exact forall_congr' fun line => imp_congr_left (member line)
  shown p := by
    simp only [shown, Offer.authorities, List.filterMap_filterMap]
    exact ranked_alike s m m' sole same _ Evidence.authority_ranked p
  ports p := by
    rw [ports_parts, ports_parts]
    simp only [Offer.ports, List.filterMap_filterMap]
    exact ranked_alike s m m' sole same _ Evidence.port_ranked p
  peers p := by
    simp only [peer_offers_parts, Offer.authorities, List.filterMap_filterMap]
    exact ranked_alike s m m' sole same _ Evidence.peer_ranked p
  peerPorts p := by
    simp only [peer_offers_parts, Offer.ports, List.filterMap_filterMap]
    exact ranked_alike s m m' sole same _ Evidence.peer_port_ranked p
  schemes p := by
    rw [schemes_parts, schemes_parts]
    exact ranked_alike s m m' sole same _ Evidence.scheme_ranked p
  cipherSuites := by
    rw [tls_parts s _ _ fun _ _ => rfl, tls_parts s _ _ fun _ _ => rfl]
    refine said_alike s m m' sole same _ fun role role' e e' suits suits' tells tells' => ?_
    exact (Evidence.suits_cipher_suite role e suits tells).trans
      (Evidence.suits_cipher_suite role' e' suits' tells').symm
  sslSessionIds := by
    rw [tls_parts s _ _ fun _ _ => rfl, tls_parts s _ _ fun _ _ => rfl]
    refine said_alike s m m' sole same _ fun role role' e e' suits suits' tells tells' => ?_
    exact (Evidence.suits_ssl_session_id role e suits tells).trans
      (Evidence.suits_ssl_session_id role' e' suits' tells').symm

variable (alike : s.Alike r r')

include alike

theorem own_alike : s.own r = s.own r' := by
  unfold own
  rw [alike.authority]

theorem host_leader_alike :
    leader (Offer.authorities (s.authorityOffers r)) = leader (Offer.authorities (s.authorityOffers r')) := by
  rw [authorities_parts, authorities_parts, s.own_alike r r' alike]
  exact leader_append_congr _ _ _ alike.shown

theorem host_alike :
    (Candidate.empty.takeAll (s.authorityOffers r)).host = (Candidate.empty.takeAll (s.authorityOffers r')).host := by
  rw [(Candidate.take_all_host _).1, (Candidate.take_all_host _).1, s.host_leader_alike r r' alike]

theorem peer_leader_alike :
    leader (Offer.authorities (s.peerOffers r)) = leader (Offer.authorities (s.peerOffers r')) :=
  leader_congr _ _ alike.peers

theorem peer_host_alike :
    (Candidate.empty.takeAll (s.peerOffers r)).host = (Candidate.empty.takeAll (s.peerOffers r')).host := by
  rw [(Candidate.take_all_host _).1, (Candidate.take_all_host _).1, s.peer_leader_alike r r' alike]

omit alike in
theorem peer_records (x : Ranked Authority) (leads : Leads x (Offer.authorities (s.peerOffers r)))
    (legacy : x.2 ≠ .forwarded) :
    records none (Offer.authorities (s.peerOffers r)) = [x] := by
  have level : x.2 = .forwardedFor := (s.peer_host_cases r x (leads_mem x _ leads)).resolve_right legacy
  refine records_level x _ leads fun y member => ?_
  have least := leads_bound x y _ leads member
  rcases s.peer_host_cases r y member with same | structured
  · rw [same, level]
  · rw [level, structured] at least
    exact absurd least (by decide)

theorem peer_port_alike :
    (Candidate.empty.takeAll (s.peerOffers r)).port = (Candidate.empty.takeAll (s.peerOffers r')).port := by
  have same := s.peer_leader_alike r r' alike
  rcases leader_cases (Offer.authorities (s.peerOffers r)) with ⟨empty, none⟩ | ⟨x, leads, found⟩
  · have empty' := (leader_none _).mp (same.symm.trans none)
    rw [(s.peer_port r (by rw [empty]; exact nofun)).1, (s.peer_port r' (by rw [empty']; exact nofun)).1, empty, empty',
      leader_append_congr _ _ _ alike.peerPorts]
  · have leads' := (leader_iff _ x).mp (same.symm.trans found)
    obtain ⟨a, p⟩ := x
    by_cases structured : p = .forwarded
    · subst structured
      rw [Candidate.take_all_structured _ a leads (s.peer_ports_bounded r),
        Candidate.take_all_structured _ a leads' (s.peer_ports_bounded r')]
    · have single := s.peer_records r (a, p) leads structured
      have single' := s.peer_records r' (a, p) leads' structured
      have legacy : ∀ x ∈ [(a, p)], x.2 ≠ Priority.forwarded := List.forall_mem_singleton.mpr structured
      rw [(s.peer_port r (single ▸ legacy)).1, (s.peer_port r' (single' ▸ legacy)).1, single, single',
        leader_append_congr _ _ _ alike.peerPorts]

end Alike

section AuthorityPort

variable (s : Resolver) (r r' : Request)

theorem own_unforced (unforced : s.forcedHost = none) : s.own r = [] ∨ ∃ a, s.own r = [(a, .request)] := by
  unfold own
  rw [unforced]
  cases r.authority with
  | none => exact .inl rfl
  | some a => exact .inr ⟨a, rfl⟩

def ShowsLegacy : Prop := ∀ y ∈ s.shown r, y.2 = .forwardedServer ∨ y.2 = .forwardedHost

theorem shown_legacy (unforced : s.forcedHost = none) (x : Ranked Authority)
    (leads : Leads x (Offer.authorities (s.authorityOffers r))) (unstructured : x.2 ≠ .forwarded) :
    s.ShowsLegacy r := by
  rw [authorities_parts] at leads
  have low : x.2.rank < Priority.forwarded.rank := by
    rcases List.mem_append.mp (leads_mem x _ leads) with owned | shown
    · rcases s.own_unforced r unforced with none | ⟨a, single⟩
      · simp [none] at owned
      · rw [single] at owned
        obtain rfl := List.mem_singleton.mp owned
        exact (by decide : Priority.request.rank < Priority.forwarded.rank)
    · rcases s.shown_cases r x shown with host | server | structured
      · rw [host]
        decide
      · rw [server]
        decide
      · exact absurd structured unstructured
  intro y member
  have least := leads_bound x y _ leads (List.mem_append_right _ member)
  rcases s.shown_cases r y member with host | server | structured
  · exact .inr host
  · exact .inl server
  · rw [structured] at least
    exact absurd low (Int.not_lt.mpr least)

def foremost : Option (Ranked Authority) := (s.shown r).head?.filter (·.2 = .forwardedServer)

def nearest : Option (Ranked Authority) := (s.shown r).find? (·.2 = .forwardedHost)

theorem legacy_records (unforced : s.forcedHost = none) (legacy : s.ShowsLegacy r) :
    records none (Offer.authorities (s.authorityOffers r)) =
      s.own r ++ ((s.foremost r).toList ++ (s.nearest r).toList) := by
  have two := records_two .forwardedServer .forwardedHost (by decide) (s.shown r) legacy
  rw [authorities_parts, foremost, nearest, ← two]
  rcases s.own_unforced r unforced with none | ⟨a, single⟩
  · rw [none]
    rfl
  · rw [single]
    refine records_outranked (a, .request) (s.shown r) fun y member => ?_
    change Priority.request.rank < y.2.rank
    rcases legacy y member with kind | kind <;> rw [kind] <;> decide

theorem legacy_unstructured (legacy : s.ShowsLegacy r) :
    ∀ x ∈ records none (Offer.authorities (s.authorityOffers r)), x.2 ≠ .forwarded := by
  intro x member structured
  rcases s.taken_cases r x member with owned | shown
  · rcases s.own_priority r x owned with same | same <;> rw [structured] at same <;> cases same
  · rcases legacy x shown with same | same <;> rw [structured] at same <;> cases same

theorem structured_or_legacy :
    (∃ a, Leads (a, .forwarded) (Offer.authorities (s.authorityOffers r))) ∨
      ∀ x ∈ records none (Offer.authorities (s.authorityOffers r)), x.2 ≠ .forwarded := by
  cases forced : s.forcedHost with
  | some a =>
      right
      rw [s.forced_records r a forced]
      exact List.forall_mem_singleton.mpr nofun
  | none =>
      rcases leader_cases (Offer.authorities (s.authorityOffers r)) with ⟨empty, -⟩ | ⟨⟨a, p⟩, leads, -⟩
      · right
        rw [empty]
        exact nofun
      · by_cases structured : p = .forwarded
        · exact .inl ⟨a, structured ▸ leads⟩
        · exact .inr (s.legacy_unstructured r (s.shown_legacy r forced (a, p) leads structured))

theorem legacy_port (unforced : s.forcedHost = none) (legacy : s.ShowsLegacy r) :
    (Candidate.empty.takeAll (s.authorityOffers r)).port =
      (leader ((s.own r ++ ((s.foremost r).toList ++ (s.nearest r).toList)).filterMap ownPort? ++
        Offer.ports (s.authorityOffers r))).map (·.1) := by
  have taken := s.legacy_records r unforced legacy
  rw [(s.authority_port r (s.legacy_unstructured r legacy)).1, taken]

theorem foremost_first (server : Ranked Authority) (found : s.foremost r = some server) :
    (s.shown r).head? = some server ∧ server.2 = .forwardedServer ∧
    (s.shown r).find? (·.2 = .forwardedServer) = some server := by
  obtain ⟨first, kind⟩ := Option.filter_eq_some_iff.mp found
  have priority : server.2 = .forwardedServer := by simpa using kind
  obtain ⟨rest, whole⟩ := List.head?_eq_some_iff.mp first
  exact ⟨first, priority, by rw [whole, List.find?_cons_of_pos (by simpa using priority)]⟩

def isProxied (x : Reading Authority) : Bool := x.2 = .forwardedServer || x.2 = .forwardedHost

theorem first_proxied (unforced : s.forcedHost = none) (legacy : s.ShowsLegacy r)
    (readable : ∀ line ∈ r.headers.lines, s.IsReadable line) :
    (s.hosts r).find? isProxied = (s.shown r).head?.map (valued .ok) := by
  have own : (certain (s.own r)).find? isProxied = none := by
    rcases s.own_unforced r unforced with none | ⟨a, single⟩
    · rw [none]
      rfl
    · rw [single]
      rfl
  rw [← (s.competes r readable).hosts, authorities_parts, certain, List.map_append, List.find?_append, ← certain, own,
    Option.none_or]
  cases whole : s.shown r with
  | nil => rfl
  | cons x rest =>
      have proxied : isProxied (valued (Except.ok (ε := ParseError)) x) = true := by
        rcases legacy x (whole ▸ List.mem_cons_self) with kind | kind <;> simp [isProxied, valued, kind]
      rw [List.map_cons, List.find?_cons_of_pos proxied]
      rfl

theorem shown_positive (readable : ∀ line ∈ r.headers.lines, s.IsReadable line)
    (x : Ranked Authority) (member : x ∈ s.shown r)
    (n : UInt16) (port : x.1.port = some n) : 0 < n := by
  have told := (s.lines_tell r.headers.lines readable).hosts
  have listed : valued Except.ok x ∈ certain (s.shown r) := List.mem_map_of_mem member
  rw [shown, told] at listed
  obtain ⟨text, -, read⟩ := List.mem_map.mp listed
  exact Authority.read_positive text.1 x.1 n (congrArg Prod.fst read) port

theorem nearest_leads (unforced : s.forcedHost = none) (legacy : s.ShowsLegacy r)
    (host : Ranked Authority) (found : s.nearest r = some host) :
    Leads host (Offer.authorities (s.authorityOffers r)) := by
  have kind : host.2 = .forwardedHost := by simpa using List.find?_some found
  have own : ∀ x ∈ s.own r, x.2 = .request := by
    rcases s.own_unforced r unforced with none | ⟨a, single⟩
    · rw [none]
      exact nofun
    · rw [single]
      exact List.forall_mem_singleton.mpr rfl
  rw [authorities_parts, leads_iff_first, List.find?_append, kind, List.find?_eq_none.mpr, Option.none_or]
  · refine ⟨found, fun y member => ?_⟩
    rcases List.mem_append.mp member with owned | shown
    · rw [own y owned]
      decide
    · rcases legacy y shown with same | same
      · rw [same]
        decide
      · exact Int.le_of_eq (congrArg Priority.rank same)
  · intro x owned
    rw [own x owned]
    decide

-- The port of a server stays with the host of a later line that has none. In the other order the
-- server's host and port are passed over.
structure LendsPort (first second : List (Reading Authority)) (n : UInt16) : Prop where
  host : ∃ a : Authority, a.port = none ∧ Leads (.ok a, .forwardedHost) first ∧
    second.find? isProxied = some (.ok a, .forwardedHost)
  server : ∃ a : Authority, a.port = some n ∧ first.find? isProxied = some (.ok a, .forwardedServer)

def SameOrLent (first second : List (Reading Authority)) (port port' : Option UInt16) : Prop :=
  port = port' ∨ (∃ n, LendsPort first second n ∧ port = some n) ∨ ∃ n, LendsPort second first n ∧ port' = some n

theorem passed_over (alike : s.Alike r r') (legacy' : s.ShowsLegacy r') (server : Ranked Authority)
    (foremost : s.foremost r = some server) (passed : s.foremost r' = none) :
    ∃ host, (s.shown r').head? = some host ∧ host.2 = .forwardedHost ∧ s.nearest r = some host ∧
    s.nearest r' = some host := by
  have found' := (alike.shown .forwardedServer).symm.trans (s.foremost_first r server foremost).2.2
  obtain ⟨host, rest, whole⟩ := List.exists_cons_of_ne_nil (List.ne_nil_of_mem (List.mem_of_find?_eq_some found'))
  have kind : host.2 = .forwardedHost := by
    refine (legacy' host (whole ▸ List.mem_cons_self)).resolve_left fun other => ?_
    rw [Resolver.foremost, whole, List.head?_cons, Option.filter_some_pos (by simpa using other)] at passed
    cases passed
  have nearest' : s.nearest r' = some host := by
    rw [nearest, whole, List.find?_cons_of_pos (by simpa using kind)]
  exact ⟨host, by rw [whole]; rfl, kind, (alike.shown .forwardedHost).trans nearest', nearest'⟩

theorem lends_port (readable : ∀ line ∈ r.headers.lines, s.IsReadable line)
    (readable' : ∀ line ∈ r'.headers.lines, s.IsReadable line) (unforced : s.forcedHost = none)
    (legacy : s.ShowsLegacy r)
    (legacy' : s.ShowsLegacy r') (server host : Ranked Authority) (foremost : s.foremost r = some server)
    (first' : (s.shown r').head? = some host) (kind : host.2 = .forwardedHost)
    (found : s.nearest r = some host) (n : UInt16)
    (lent : server.1.port = some n) (portless : ownPort? host = none) : LendsPort (s.hosts r) (s.hosts r') n := by
  obtain ⟨first, server_kind, -⟩ := s.foremost_first r server foremost
  refine ⟨⟨host.1, ?_, ?_, ?_⟩, server.1, lent, ?_⟩
  · cases port : host.1.port with
    | none => rfl
    | some m =>
        have positive := s.shown_positive r readable host (List.mem_of_find?_eq_some found) m port
        cases portless.symm.trans (own_port_positive host m port positive)
  · rw [← (s.competes r readable).hosts, ← kind]
    exact leads_map Except.ok host _ (s.nearest_leads r unforced legacy host found)
  · rw [s.first_proxied r' unforced legacy' readable', first', ← kind]
    rfl
  · rw [s.first_proxied r unforced legacy readable, first, ← server_kind]
    rfl

theorem lent_or_alike (alike : s.Alike r r') (readable : ∀ line ∈ r.headers.lines, s.IsReadable line)
    (unforced : s.forcedHost = none) (legacy : s.ShowsLegacy r) (legacy' : s.ShowsLegacy r') (server : Ranked Authority)
    (foremost : s.foremost r = some server) (passed : s.foremost r' = none) :
    (Candidate.empty.takeAll (s.authorityOffers r)).port = (Candidate.empty.takeAll (s.authorityOffers r')).port ∨
      ∃ n, LendsPort (s.hosts r) (s.hosts r') n ∧ (Candidate.empty.takeAll (s.authorityOffers r)).port = some n := by
  obtain ⟨host, first', host_kind, nearest, nearest'⟩ := s.passed_over r r' alike legacy' server foremost passed
  have server_kind := (s.foremost_first r server foremost).2.1
  have port := s.legacy_port r unforced legacy
  have port' := s.legacy_port r' unforced legacy'
  rw [foremost, nearest, Option.toList_some, Option.toList_some, List.filterMap_append, List.filterMap_append] at port
  rw [passed, nearest', ← s.own_alike r r' alike, Option.toList_none, List.nil_append,
    Option.toList_some, List.filterMap_append,
    leader_append_congr _ _ _ fun p => (alike.ports p).symm, List.append_assoc] at port'
  cases own : ownPort? server with
  | none =>
      left
      rw [port, port', List.filterMap_cons_none own, List.filterMap_nil, List.nil_append, List.append_assoc]
  | some lent =>
      rw [List.filterMap_cons_some own, List.filterMap_nil, List.singleton_append, List.append_assoc,
        List.cons_append] at port
      obtain ⟨given, priority⟩ := own_port_given server lent own
      rw [server_kind] at priority
      have different : ∀ y ∈ [host].filterMap ownPort? ++ Offer.ports (s.authorityOffers r), y.2 ≠ lent.2 := by
        rw [priority]
        intro y member
        rcases List.mem_append.mp member with hosts | alone
        · obtain ⟨x, single, own'⟩ := List.mem_filterMap.mp hosts
          rw [(own_port_given x y own').2, List.mem_singleton.mp single, host_kind]
          decide
        · rcases s.authority_port_cases r y alone with other | other | other | other <;> rw [other] <;> decide
      rcases leader_inserted _ _ lent different with same | ⟨leads, above⟩
      · exact .inl (by rw [port, port', same])
      · have portless : ownPort? host = none := by
          cases own' : ownPort? host with
          | none => rfl
          | some y =>
              have less := above y (by simp [own'])
              rw [priority, (own_port_given host y own').2, host_kind] at less
              exact absurd less (by decide)
        refine .inr ⟨lent.1, ?_, by rw [port, leads]; rfl⟩
        exact s.lends_port r r' readable (alike.readable.mp readable) unforced legacy legacy'
          server host foremost first'
          host_kind nearest lent.1 given portless

theorem taken_port_alike (alike : s.Alike r r') (taken : List (Ranked Authority))
    (records_r : records none (Offer.authorities (s.authorityOffers r)) = taken)
    (records_r' : records none (Offer.authorities (s.authorityOffers r')) = taken)
    (legacy : ∀ x ∈ taken, x.2 ≠ .forwarded) :
    (Candidate.empty.takeAll (s.authorityOffers r)).port = (Candidate.empty.takeAll (s.authorityOffers r')).port := by
  rw [(s.authority_port r (records_r ▸ legacy)).1, (s.authority_port r' (records_r' ▸ legacy)).1, records_r, records_r',
    leader_append_congr _ _ _ alike.ports]

theorem foremost_port_alike (alike : s.Alike r r') (unforced : s.forcedHost = none) (legacy : s.ShowsLegacy r)
    (legacy' : s.ShowsLegacy r') (same : s.foremost r = s.foremost r') :
    (Candidate.empty.takeAll (s.authorityOffers r)).port = (Candidate.empty.takeAll (s.authorityOffers r')).port := by
  rw [s.legacy_port r unforced legacy, s.legacy_port r' unforced legacy', same,
    s.own_alike r r' alike, nearest, nearest,
    alike.shown, leader_append_congr _ _ _ alike.ports]

theorem legacy_port_alike (alike : s.Alike r r') (readable : ∀ line ∈ r.headers.lines, s.IsReadable line)
    (unforced : s.forcedHost = none) (legacy : s.ShowsLegacy r) (legacy' : s.ShowsLegacy r') :
    SameOrLent (s.hosts r) (s.hosts r') (Candidate.empty.takeAll (s.authorityOffers r)).port
      (Candidate.empty.takeAll (s.authorityOffers r')).port := by
  cases foremost : s.foremost r with
  | none =>
      cases foremost' : s.foremost r' with
      | none => exact .inl (s.foremost_port_alike r r' alike unforced legacy legacy' (foremost.trans foremost'.symm))
      | some server =>
          rcases s.lent_or_alike r' r (s.alike_symm r r' alike) (alike.readable.mp readable)
            unforced legacy' legacy server
            foremost' foremost with equal | lent
          · exact .inl equal.symm
          · exact .inr (.inr lent)
  | some server =>
      cases foremost' : s.foremost r' with
      | none =>
          rcases s.lent_or_alike r r' alike readable unforced legacy legacy' server foremost foremost' with equal | lent
          · exact .inl equal
          · exact .inr (.inl lent)
      | some server' =>
          have first := (s.foremost_first r server foremost).2.2
          have first' := (s.foremost_first r' server' foremost').2.2
          have same : s.foremost r = s.foremost r' := by
            rw [foremost, foremost', ← first, ← first', alike.shown]
          exact .inl (s.foremost_port_alike r r' alike unforced legacy legacy' same)

theorem authority_port_alike (alike : s.Alike r r') (readable : ∀ line ∈ r.headers.lines, s.IsReadable line) :
    SameOrLent (s.hosts r) (s.hosts r') (Candidate.empty.takeAll (s.authorityOffers r)).port
      (Candidate.empty.takeAll (s.authorityOffers r')).port := by
  cases forced : s.forcedHost with
  | some a =>
      exact .inl (s.taken_port_alike r r' alike _ (s.forced_records r a forced) (s.forced_records r' a forced)
        (List.forall_mem_singleton.mpr nofun))
  | none =>
      have same := s.host_leader_alike r r' alike
      rcases leader_cases (Offer.authorities (s.authorityOffers r)) with ⟨empty, none⟩ | ⟨x, leads, found⟩
      · have empty' := (leader_none _).mp (same.symm.trans none)
        exact .inl (s.taken_port_alike r r' alike [] (by rw [empty]; rfl) (by rw [empty']; rfl) nofun)
      · have leads' := (leader_iff _ x).mp (same.symm.trans found)
        obtain ⟨a, p⟩ := x
        by_cases structured : p = .forwarded
        · subst structured
          left
          rw [Candidate.take_all_structured _ a leads (s.authority_ports_bounded r),
            Candidate.take_all_structured _ a leads' (s.authority_ports_bounded r')]
        · exact s.legacy_port_alike r r' alike readable forced (s.shown_legacy r forced (a, p) leads structured)
            (s.shown_legacy r' forced (a, p) leads' structured)

end AuthorityPort

theorem applied_iff (x : Context) (r : Request) :
    (∃ r', applyAuthority x r = .ok r') ↔ ∀ host, x.authority.host = some host →
    (Header.Value.ofText? host).isSome = true := by
  unfold applyAuthority Candidate.authority?
  cases x.authority.host with
  | none => simp
  | some host =>
      have settable : (∃ r', r.setAuthority ⟨host, x.authority.port⟩ = .ok r') ↔
          (Header.Value.ofText? (Authority.render ⟨host, x.authority.port⟩)).isSome = true := by
        simp only [Request.set_authority_ok, Option.isSome_iff_exists]
        exact ⟨fun ⟨_, value, legal, _⟩ => ⟨value, legal⟩, fun ⟨value, legal⟩ => ⟨_, value, legal, rfl⟩⟩
      rw [Authority.render_legal] at settable
      simpa using settable

structure Agree (r r' : Request) : Prop where
  scheme : r.scheme = r'.scheme
  secure : r.secure = r'.secure
  host : r.authority.map (·.host) = r'.authority.map (·.host)
  remote : r.remote = r'.remote
  cipherSuite : r.message.cipherSuite = r'.message.cipherSuite
  sslSessionId : r.message.sslSessionId = r'.message.sslSessionId

section Outcome

variable (s : Resolver) (r r' : Request) (alike : s.Alike r r')

include alike

theorem success_alike : (s.resolve r).2 = .ok () ↔ (s.resolve r').2 = .ok () := by
  rw [resolve_ok_iff, resolve_ok_iff, applied_iff, applied_iff, found_parts, found_parts,
    s.host_alike r r' alike, alike.readable]

theorem outcome_alike (ok : (s.resolve r).2 = .ok ()) : Agree (s.resolve r).1 (s.resolve r').1 := by
  have settled := s.resolve_settles r ok
  have settled' := s.resolve_settles r' ((s.success_alike r r' alike).mp ok)
  have schemes := leader_congr _ _ alike.schemes
  have forces : s.forces (s.found r) = s.forces (s.found r') := by
    simp only [Resolver.forces, Context.hasTls, found_parts, alike.cipherSuites, alike.sslSessionIds]
  constructor
  · rw [settled.scheme, settled'.scheme, forces, found_parts, found_parts, schemes, alike.scheme]
  · rw [settled.secure, settled'.secure, forces, found_parts, found_parts, schemes, alike.secure]
  · rw [settled.authority, settled'.authority, found_parts, found_parts, alike.authority, Candidate.authority?,
      Candidate.authority?, s.host_alike r r' alike]
    cases (Candidate.empty.takeAll (s.authorityOffers r')).host <;> rfl
  · rw [settled.remote, settled'.remote, found_parts, found_parts, s.peer_host_alike r r' alike,
      s.peer_port_alike r r' alike,
      alike.remote]
  · rw [settled.cipherSuite, settled'.cipherSuite, found_parts, found_parts, alike.cipherSuites, alike.cipherSuite]
  · rw [settled.sslSessionId, settled'.sslSessionId, found_parts, found_parts, alike.sslSessionIds, alike.sslSessionId]

theorem port_alike (ok : (s.resolve r).2 = .ok ()) :
    let port (r : Request) := (s.resolve r).1.authority.bind (·.port)
    SameOrLent (s.hosts r) (s.hosts r') (port r) (port r') := by
  have settled := s.resolve_settles r ok
  have settled' := s.resolve_settles r' ((s.success_alike r r' alike).mp ok)
  have host := s.host_alike r r' alike
  dsimp only
  rw [settled.authority, settled'.authority, found_parts, found_parts, Candidate.authority?, Candidate.authority?, host,
    alike.authority]
  cases (Candidate.empty.takeAll (s.authorityOffers r')).host with
  | none => exact .inl rfl
  | some host => exact s.authority_port_alike r r' alike ((s.resolve_ok_iff r).mp ok).1

end Outcome

-- To put lines of different names in another order changes nothing but a port that is lent.
theorem resolves_reordered (s : Resolver) (c : Config) (configured : ofConfig c = .ok s) (r : Request)
    (before after : List Line)
    (reordered : Reordered before after) :
    let first := r.withHeaders (.ofLines before)
    let second := r.withHeaders (.ofLines after)
    let port (r : Request) := (s.resolve r).1.authority.bind (·.port)
    ((s.resolve first).2 = .ok () ↔ (s.resolve second).2 = .ok ()) ∧
    ((s.resolve first).2 = .ok () →
      Agree (s.resolve first).1 (s.resolve second).1 ∧
      SameOrLent (s.hosts first) (s.hosts second) (port first) (port second)) := by
  have alike := s.same_values_alike r (Roles.of_config_sole c s.roles (s.of_config_parts c configured).1)
    _ _ (reordered_values before after reordered)
  exact ⟨s.success_alike _ _ alike, fun ok => ⟨s.outcome_alike _ _ alike ok, s.port_alike _ _ alike ok⟩⟩

section Swapped

def own8080 : Line := (.host, ⟨Text.utf8 "internal:8080".toList, by decide⟩)

def server9000 : Line := (⟨"x-forwarded-server".toList, by decide⟩, ⟨Text.utf8 "srv.example:9000".toList, by decide⟩)

def hostAlone : Line := (⟨"x-forwarded-host".toList, by decide⟩, ⟨Text.utf8 "pub.example".toList, by decide⟩)

def port8443 : Line := (⟨"x-forwarded-port".toList, by decide⟩, ⟨Text.utf8 "8443".toList, by decide⟩)

def trusting : Config := { proxyAsAuthority := true }

def trusted : Resolver := (ofConfig trusting).toOption.get (by decide +kernel)

def sent (lines : List Line) : Request := (received []).withHeaders (.ofLines lines)

theorem resolves_reordered_port :
    let first := sent [own8080, port8443, hostAlone]
    let second := sent [own8080, hostAlone, port8443]
    (trusted.resolve first).2 = .ok () ∧ (trusted.resolve second).2 = .ok () ∧
    Agree (trusted.resolve first).1 (trusted.resolve second).1 ∧
    (trusted.resolve first).1.authority.bind (·.port) = (trusted.resolve second).1.authority.bind (·.port) := by
  obtain ⟨ok, host, host'⟩ :
      (trusted.resolve (sent [own8080, port8443, hostAlone])).2 = .ok () ∧
      (trusted.hosts (sent [own8080, port8443, hostAlone])).find? isProxied =
        some (.ok ⟨"pub.example".toList, none⟩, .forwardedHost) ∧
      (trusted.hosts (sent [own8080, hostAlone, port8443])).find? isProxied =
        some (.ok ⟨"pub.example".toList, none⟩, .forwardedHost) := by
    decide +kernel
  obtain ⟨success, outcome⟩ := trusted.resolves_reordered trusting rfl (received []) _ _
    (reordered_swap [own8080] [] port8443 hostAlone (by decide))
  obtain ⟨agree, port⟩ := outcome ok
  refine ⟨ok, success.mp ok, agree, ?_⟩
  rcases port with equal | ⟨n, lends, -⟩ | ⟨n, lends, -⟩
  · exact equal
  · obtain ⟨a, -, server⟩ := lends.server
    cases host.symm.trans server
  · obtain ⟨a, -, server⟩ := lends.server
    cases host'.symm.trans server

-- The host of the server is passed over in both orders, and its port in one of them.
theorem order_decides_port :
    ofConfig trusting = .ok trusted ∧ Reordered [own8080, server9000, hostAlone] [own8080, hostAlone, server9000] ∧
    (trusted.resolve (sent [own8080, server9000, hostAlone])).2 = .ok () ∧
    (trusted.resolve (sent [own8080, server9000, hostAlone])).1.authority = some ⟨"pub.example".toList, some 9000⟩ ∧
    (trusted.resolve (sent [own8080, hostAlone, server9000])).2 = .ok () ∧
    (trusted.resolve (sent [own8080, hostAlone, server9000])).1.authority = some ⟨"pub.example".toList, some 8080⟩ := by
  refine ⟨rfl, reordered_swap [own8080] [] server9000 hostAlone (by decide), ?_⟩
  decide +kernel

end Swapped

end Resolver

end Gateway.Forwarding
