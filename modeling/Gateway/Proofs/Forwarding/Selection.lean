import Gateway.Fixture
import Gateway.Proofs.Forwarding.Resolver

set_option autoImplicit false

namespace Gateway.Forwarding

open Header (Line)

namespace Resolver

variable (s : Resolver) (r : Request)

section Lines

variable {α : Type} (tell : Role → Text → List (Ranked α))

def heardFrom (line : Line) : List (Ranked α) :=
  match s.roles.get? line.1, line.2.text? with
  | some role, some text => tell role text
  | _, _ => []

def heard : List (Ranked α) := r.headers.lines.flatMap (s.heardFrom tell)

theorem heard_from_role (line : Line) (role : Role) (named : s.roles.get? line.1 = some role) :
    s.heardFrom tell line = Evidence.heard tell role line.2 := by
  unfold heardFrom Evidence.heard
  rw [named]
  cases line.2.text? <;> rfl

end Lines

-- The hosts that compete for the authority: the forced one or else that of the request, and then
-- those that the lines name.
def hosts : List (Reading Authority) :=
  certain (s.own r) ++ (s.heard r (Evidence.hosts s.config)).map (valued Authority.read)

def peers : List (Reading Authority) := (s.heard r Evidence.peers).map (valued Authority.read)

def schemes : List (Reading Scheme) := (s.heard r Evidence.schemes).map (valued Evidence.readScheme)

def ports : List (Reading UInt16) := s.heard r (Evidence.ports s.config)

def IsForcedSecure : Prop :=
  s.config.sslIsSecure = true ∧
    ∃ line ∈ r.headers.lines, s.roles.get? line.1 = some .cipherSuite ∨ s.roles.get? line.1 = some .sslSessionId

instance : Decidable (s.IsForcedSecure r) := inferInstanceAs (Decidable (_ ∧ _))

def IsRegular (e : Evidence) : Prop := ∃ role, Evidence.Suits role e

theorem line_tells (line : Line) (readable : s.IsReadable line) :
    Evidence.Tells IsRegular (s.said line) (s.heardFrom (Evidence.hosts s.config) line)
      (s.heardFrom Evidence.peers line) (s.heardFrom Evidence.schemes line)
      (s.heardFrom (Evidence.ports s.config) line) := by
  obtain ⟨evidence, read⟩ := readable
  rw [s.said_ok line evidence read]
  rw [readLine] at read
  cases named : s.roles.get? line.1 with
  | none =>
      obtain rfl : [] = evidence := by simpa [named] using read
      simpa [heardFrom, named] using Evidence.tells_nothing IsRegular
  | some role =>
      rw [named] at read
      simp only [s.heard_from_role _ line role named]
      have told := Evidence.of_line_tells s.config role line.2 evidence read
      exact { told with kind := fun e member => ⟨role, told.kind e member⟩ }

theorem lines_tell (lines : List Line) (readable : ∀ line ∈ lines, s.IsReadable line) :
    Evidence.Tells IsRegular (lines.flatMap s.said) (lines.flatMap (s.heardFrom (Evidence.hosts s.config)))
      (lines.flatMap (s.heardFrom Evidence.peers)) (lines.flatMap (s.heardFrom Evidence.schemes))
      (lines.flatMap (s.heardFrom (Evidence.ports s.config))) := by
  induction lines with
  | nil => exact Evidence.tells_nothing IsRegular
  | cons line rest ih =>
      rw [List.forall_mem_cons] at readable
      exact Evidence.tells_append _ _ _ _ _ _ _ _ _ _ _ (s.line_tells line readable.1) (ih readable.2)

structure Competes : Prop where
  hosts : certain (Offer.authorities (s.authorityOffers r)) = s.hosts r
  peers : certain (Offer.authorities (s.peerOffers r)) = s.peers r
  schemes : certain ((s.evidence r).filterMap Evidence.scheme?) = s.schemes r
  ports : certain (Offer.ports (s.authorityOffers r)) = s.ports r

theorem competes (readable : ∀ line ∈ r.headers.lines, s.IsReadable line) : s.Competes r := by
  have told := s.lines_tell r.headers.lines readable
  constructor
  · rw [authorities_parts, certain, List.map_append]
    exact congrArg (certain (s.own r) ++ ·) told.hosts
  · rw [peer_offers_parts]
    exact told.peers
  · rw [schemes_parts]
    exact told.schemes
  · rw [ports_parts]
    exact told.ports

theorem tls_found (tls? : Evidence → Option Text) (role : Role) (plain : ∀ a p, tls? (.authority a p) = none)
    (suits : ∀ other e, Evidence.Suits other e → (tls? e).isSome = true → other = role)
    (read : ∀ c value, ∃ e, Evidence.ofLine c role value = .ok [e] ∧ (tls? e).isSome = true) :
    ((s.evidence r).filterMap tls?).getLast?.isSome = true ↔
      ∃ line ∈ r.headers.lines, s.roles.get? line.1 = some role := by
  rw [List.getLast?_isSome, Ne, List.filterMap_eq_nil_iff, not_forall]
  constructor
  · rintro ⟨e, found⟩
    rw [Classical.not_imp, ← Ne, Option.ne_none_iff_isSome] at found
    obtain ⟨member, tls⟩ := found
    rcases List.mem_append.mp member with owned | said
    · obtain ⟨x, -, rfl⟩ := List.mem_map.mp owned
      simp [plain] at tls
    · obtain ⟨line, present, here⟩ := List.mem_flatMap.mp said
      obtain ⟨other, named, suit⟩ := s.said_suits line e here
      exact ⟨line, present, named.trans (congrArg some (suits other e suit tls))⟩
  · rintro ⟨line, present, named⟩
    obtain ⟨e, line_read, tls⟩ := read s.config line.2
    have said : s.said line = [e] := by
      apply s.said_ok
      rw [readLine, named]
      exact line_read
    refine ⟨e, ?_⟩
    rw [Classical.not_imp, ← Ne, Option.ne_none_iff_isSome]
    refine ⟨List.mem_append_right _ (List.mem_flatMap.mpr ⟨line, present, ?_⟩), tls⟩
    rw [said]
    exact List.mem_singleton_self e

theorem forces_iff : s.forces (s.found r) = true ↔ s.IsForcedSecure r := by
  have cipher := s.tls_found r Evidence.cipherSuite? .cipherSuite (fun _ _ => rfl) Evidence.suits_cipher_suite
    fun _ _ => ⟨_, rfl, rfl⟩
  have session := s.tls_found r Evidence.sslSessionId? .sslSessionId (fun _ _ => rfl) Evidence.suits_ssl_session_id
    fun _ _ => ⟨_, rfl, rfl⟩
  rw [forces, Bool.and_eq_true, found_parts, Context.hasTls, Bool.or_eq_true, cipher, session, IsForcedSecure, and_comm,
    ← exists_or]
  simp only [and_or_left]

theorem host_cases (offers : List Offer) :
    certain (Offer.authorities offers) = [] ∧ (Candidate.empty.takeAll offers).host = none ∨
      ∃ a p, Leads (.ok a, p) (certain (Offer.authorities offers)) ∧
        (Candidate.empty.takeAll offers).host = some a.host := by
  have held := (Candidate.take_all_host offers).1
  rcases leader_cases (Offer.authorities offers) with ⟨empty, none⟩ | ⟨x, leads, found⟩
  · exact .inl ⟨congrArg certain empty, held.trans (congrArg (Option.map (·.1.host)) none)⟩
  · exact .inr ⟨x.1, x.2, leads_map Except.ok x _ leads, held.trans (congrArg (Option.map (·.1.host)) found)⟩

theorem selects (ok : (s.resolve r).2 = .ok ()) :
    (s.hosts r = [] ∧ (s.resolve r).1.authority = r.authority ∨
      ∃ a p, Leads (.ok a, p) (s.hosts r) ∧ (s.resolve r).1.authority.map (·.host) = some a.host) ∧
    (s.peers r = [] ∧ (s.resolve r).1.remote = r.remote ∨
      ∃ a p, Leads (.ok a, p) (s.peers r) ∧ (s.resolve r).1.remote.map (·.host) = some a.host) ∧
    (s.IsForcedSecure r → (s.resolve r).1.scheme = s.secureScheme) ∧
    (¬ s.IsForcedSecure r →
      s.schemes r = [] ∧ (s.resolve r).1.scheme = r.scheme ∨
        ∃ scheme p, Leads (.ok scheme, p) (s.schemes r) ∧ (s.resolve r).1.scheme = scheme) := by
  have settled := s.resolve_settles r ok
  have compete := s.competes r ((s.resolve_ok_iff r).mp ok).1
  have parts := s.found_parts r
  refine ⟨?_, ?_, ?_, ?_⟩
  · rw [← compete.hosts, settled.authority, parts, Candidate.authority?]
    rcases host_cases (s.authorityOffers r) with ⟨empty, none⟩ | ⟨a, p, leads, host⟩
    · exact .inl ⟨empty, by rw [none]; rfl⟩
    · exact .inr ⟨a, p, leads, by rw [host]; rfl⟩
  · rw [← compete.peers, settled.remote, parts]
    rcases host_cases (s.peerOffers r) with ⟨empty, none⟩ | ⟨a, p, leads, host⟩
    · exact .inl ⟨empty, by rw [none]; rfl⟩
    · exact .inr ⟨a, p, leads, by rw [host]; rfl⟩
  · intro forced
    rw [settled.scheme, if_pos ((s.forces_iff r).mpr forced)]
  · intro unforced
    rw [← compete.schemes, settled.scheme, if_neg (mt (s.forces_iff r).mp unforced), parts]
    rcases leader_cases ((s.evidence r).filterMap Evidence.scheme?) with ⟨empty, none⟩ | ⟨x, leads, found⟩
    · exact .inl ⟨congrArg certain empty, by rw [none]; rfl⟩
    · exact .inr ⟨x.1, x.2, leads_map Except.ok x _ leads, by rw [found]; rfl⟩

def received (lines : List (String × String)) : Request :=
  .ofMessage (Fixture.ofHeaders (lines.map fun (name, value) => (name.toList, value.toList))).message

def standard : Resolver := (ofConfig {}).toOption.get (by decide +kernel)

theorem standard_configured : ofConfig {} = .ok standard := rfl

def proxied : Request :=
  received [("Host", "internal:8080"), ("X-Forwarded-Proto", "https"), ("X-Forwarded-Host", "a.example, b.example"),
    ("X-Forwarded-For", "192.0.2.1"), ("Forwarded", "for=\"198.51.100.17:4711\";by=203.0.113.60;proto=http;" ++
      "host=\"c.example:8443\", for=203.0.113.60;host=d.example"), ("X-Forwarded-Host", "e.example")]

theorem selects_proxied :
    (standard.resolve proxied).2 = .ok () ∧ ¬ standard.IsForcedSecure proxied ∧
    (standard.resolve proxied).1.authority.map (·.host) = some "c.example".toList ∧
    (standard.resolve proxied).1.remote.map (·.host) = some "198.51.100.17".toList ∧
    (standard.resolve proxied).1.scheme = ⟨"http".toList⟩ := by
  obtain ⟨ok, unforced, hosts, peers, schemes⟩ :
      (standard.resolve proxied).2 = .ok () ∧ ¬ standard.IsForcedSecure proxied ∧
      leader (standard.hosts proxied) = some (.ok ⟨"c.example".toList, some 8443⟩, .forwarded) ∧
      leader (standard.peers proxied) = some (.ok ⟨"198.51.100.17".toList, some 4711⟩, .forwarded) ∧
      leader (standard.schemes proxied) = some (.ok ⟨"http".toList⟩, .forwarded) := by
    decide +kernel
  rw [leader_iff] at hosts peers schemes
  obtain ⟨host, peer, -, scheme⟩ := standard.selects proxied ok
  obtain ⟨a, p, leads, authority⟩ := host.resolve_left fun none => List.ne_nil_of_mem (leads_mem _ _ hosts) none.1
  obtain ⟨b, q, leads', remote⟩ := peer.resolve_left fun none => List.ne_nil_of_mem (leads_mem _ _ peers) none.1
  obtain ⟨c, o, leads'', same⟩ := (scheme unforced).resolve_left fun none =>
    List.ne_nil_of_mem (leads_mem _ _ schemes) none.1
  cases leads_unique _ _ _ leads hosts
  cases leads_unique _ _ _ leads' peers
  cases leads_unique _ _ _ leads'' schemes
  exact ⟨ok, unforced, authority, remote, same⟩

end Resolver

end Gateway.Forwarding
