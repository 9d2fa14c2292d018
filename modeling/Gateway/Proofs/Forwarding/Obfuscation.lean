import Gateway.Proofs.Authority.Rendering
import Gateway.Proofs.Forwarding.Ports

set_option autoImplicit false

namespace Gateway

namespace Authority

inductive Reads : Text → Authority → Prop where
  | name (host : Text) : Reads host ⟨host, none⟩
  | numbered (host port : Text) (n : UInt16) (number : readPort port = .ok n) :
      Reads (host ++ ':' :: port) ⟨host, some n⟩
  | address (text inside : Text) (port : Option UInt16) : Reads text ⟨['['] ++ inside ++ [']'], port⟩

theorem read_bracketed_reads (text value rest : Text) (a : Authority)
    (said : readBracketed value rest = .ok a) : Reads text a := by
  unfold readBracketed at said
  split at said
  · cases said
  · split at said
    · obtain ⟨port, -, rfl⟩ := (map_ok _ _ _).mp said
      exact .address text _ port
    · cases said

theorem read_plain_reads (text : Text) (a : Authority) (said : readPlain text = .ok a) : Reads text a := by
  unfold readPlain at said
  split at said
  · split at said
    · obtain rfl := Except.ok.inj said
      exact .name text
    · cases said
  · rename_i host port cut
    split at said
    · split at said
      · obtain rfl := Except.ok.inj said
        exact .address text text none
      · cases said
    · split at said
      · obtain ⟨n, number, rfl⟩ := (map_ok _ _ _).mp said
        rw [(Text.cut_some ':' text host port cut).1]
        exact .numbered host port n number
      · cases said

theorem read_reads (text : Text) (a : Authority) (said : read text = .ok a) : Reads text a := by
  unfold read at said
  split at said
  · cases said
  · split at said
    · exact read_bracketed_reads _ _ _ a said
    · exact read_plain_reads text a said

end Authority

namespace Forwarding

namespace Evidence

structure Exposes (text : Text) (a : Authority) : Prop where
  read : Authority.read text = .ok a
  shown : isObfuscated text = false
  unmarked : a.host.head? ≠ some '_'
  unknown : a.host = "unknown".toList ↔ ∃ port n, text = "unknown:".toList ++ port ∧ Authority.readPort port = .ok n

theorem shown_iff (text : Text) : isObfuscated text = false ↔ text.head? ≠ some '_' ∧ text ≠ "unknown".toList := by
  rw [isObfuscated, Bool.or_eq_false_iff, decide_eq_false_iff_not, decide_eq_false_iff_not]

theorem exposes_unmarked (text : Text) (a : Authority) (reads : Authority.Reads text a)
    (plain : text.head? ≠ some '_') :
    a.host.head? ≠ some '_' := by
  cases reads with
  | name => exact plain
  | numbered host port n number =>
      cases host with
      | nil => exact nofun
      | cons c rest => exact plain
  | address text inside port =>
      intro marked
      cases Option.some.inj marked

theorem exposes_unknown (text : Text) (a : Authority) (reads : Authority.Reads text a) (named : text ≠ "unknown".toList)
    (hidden : a.host = "unknown".toList) :
    ∃ port n, text = "unknown:".toList ++ port ∧ Authority.readPort port = .ok n := by
  cases reads with
  | name => exact absurd hidden named
  | numbered host port n number =>
      obtain rfl : host = "unknown".toList := hidden
      exact ⟨port, n, rfl, number⟩
  | address text inside port => cases (List.cons.inj hidden).1

theorem read_exposes (text : Text) (a : Authority) (said : Authority.read text = .ok a)
    (shown : isObfuscated text = false) :
    Exposes text a := by
  have reads := Authority.read_reads text a said
  obtain ⟨unmarked, named⟩ := (shown_iff text).mp shown
  refine ⟨said, shown, exposes_unmarked text a reads unmarked, exposes_unknown text a reads named, ?_⟩
  rintro ⟨port, n, rfl, number⟩
  have numbered := Authority.read_numbered "unknown".toList port n (by decide) (by decide) number
  obtain rfl := Except.ok.inj (said.symm.trans numbered)
  rfl

theorem stated_shown (counts : Text × Text → Bool) (shows : ∀ param, counts param = true → isObfuscated param.2 = false)
    (text value : Text) (member : value ∈ stated counts text) : isObfuscated value = false := by
  obtain ⟨param, counted, rfl⟩ := List.mem_map.mp member
  exact shows param (List.mem_filter.mp counted).2

theorem names_host_shown (c : Config) (param : Text × Text) (named : namesHost c param = true) :
    isObfuscated param.2 = false := by
  simp only [namesHost, Bool.and_eq_true, Bool.not_eq_true'] at named
  exact named.1.2

theorem names_peer_shown (param : Text × Text) (named : namesPeer param = true) : isObfuscated param.2 = false := by
  simp only [namesPeer, Bool.and_eq_true, Bool.not_eq_true'] at named
  exact named.1.2

theorem hosts_structured (c : Config) (role : Role) (text value : Text)
    (member : (value, .forwarded) ∈ hosts c role text) :
    value ∈ stated (namesHost c) text := by
  cases role with
  | forwarded => simpa [hosts] using member
  | _ => simp [hosts] at member

theorem peers_structured (role : Role) (text value : Text) (member : (value, .forwarded) ∈ peers role text) :
    value ∈ stated namesPeer text := by
  cases role with
  | forwarded => simpa [peers] using member
  | _ => simp [peers] at member

end Evidence

namespace Resolver

variable (s : Resolver) (r : Request)

theorem heard_role {α : Type} (tell : Role → Text → List (Ranked α)) (x : Ranked α) (member : x ∈ s.heard r tell) :
    ∃ role text, x ∈ tell role text := by
  obtain ⟨line, -, said⟩ := List.mem_flatMap.mp member
  unfold heardFrom at said
  split at said
  · rename_i role text _ _
    exact ⟨role, text, said⟩
  · cases said

theorem heard_host_shown (text : Text) (member : (text, .forwarded) ∈ s.heard r (Evidence.hosts s.config)) :
    Evidence.isObfuscated text = false := by
  obtain ⟨role, whole, said⟩ := s.heard_role r _ _ member
  exact Evidence.stated_shown _ (Evidence.names_host_shown s.config) whole text
    (Evidence.hosts_structured _ role whole text said)

theorem heard_peer_shown (text : Text) (member : (text, .forwarded) ∈ s.heard r Evidence.peers) :
    Evidence.isObfuscated text = false := by
  obtain ⟨role, whole, said⟩ := s.heard_role r _ _ member
  exact Evidence.stated_shown _ Evidence.names_peer_shown whole text (Evidence.peers_structured role whole text said)

theorem structured_heard (x : Except ParseError Authority) (member : (x, .forwarded) ∈ s.hosts r) :
    ∃ text, (text, .forwarded) ∈ s.heard r (Evidence.hosts s.config) ∧ x = Authority.read text := by
  rcases List.mem_append.mp member with owned | heard
  · obtain ⟨own, here, same⟩ := List.mem_map.mp owned
    have priority : own.2 = .forwarded := congrArg (·.2) same
    rcases s.own_priority r own here with forced | request
    · cases forced.symm.trans priority
    · cases request.symm.trans priority
  · obtain ⟨⟨text, p⟩, here, same⟩ := List.mem_map.mp heard
    obtain ⟨rfl, rfl⟩ : Authority.read text = x ∧ p = .forwarded := by simpa [valued] using same
    exact ⟨text, here, rfl⟩

theorem taken_host (offers : List Offer) (x : Except ParseError Authority) (p : Priority)
    (leads : Leads (x, p) (certain (Offer.authorities offers))) :
    ∃ a, x = .ok a ∧ (Candidate.empty.takeAll offers).host = some a.host := by
  obtain ⟨⟨a, q⟩, first, same⟩ := leads_of_map Except.ok _ _ leads
  obtain ⟨rfl, rfl⟩ : x = .ok a ∧ p = q := by simpa [valued] using same
  refine ⟨a, rfl, ?_⟩
  rw [(Candidate.take_all_host offers).1, (leader_iff _ _).mpr first]
  rfl

-- A structured host or peer that leads is not hidden, unless it is `unknown` and its parameter gives it
-- a port.
theorem structured_exposes (ok : (s.resolve r).2 = .ok ()) :
    (∀ x, Leads (x, .forwarded) (s.hosts r) →
      ∃ text a, (text, .forwarded) ∈ s.heard r (Evidence.hosts s.config) ∧ x = .ok a ∧ Evidence.Exposes text a ∧
        (s.resolve r).1.authority.map (·.host) = some a.host) ∧
    (∀ x, Leads (x, .forwarded) (s.peers r) →
      ∃ text a, (text, .forwarded) ∈ s.heard r Evidence.peers ∧ x = .ok a ∧ Evidence.Exposes text a ∧
        (s.resolve r).1.remote.map (·.host) = some a.host) := by
  have settled := s.resolve_settles r ok
  have compete := s.competes r ((s.resolve_ok_iff r).mp ok).1
  have parts := s.found_parts r
  refine ⟨?_, ?_⟩
  · intro x leads
    obtain ⟨text, heard, read⟩ := s.structured_heard r x (leads_mem _ _ leads)
    rw [← compete.hosts] at leads
    obtain ⟨a, rfl, host⟩ := taken_host _ x _ leads
    refine ⟨text, a, heard, rfl, Evidence.read_exposes text a read.symm (s.heard_host_shown r text heard), ?_⟩
    rw [settled.authority, parts, Candidate.authority?, host]
    rfl
  · intro x leads
    obtain ⟨⟨text, p⟩, heard, same⟩ := List.mem_map.mp (leads_mem _ _ leads)
    obtain ⟨read, rfl⟩ : Authority.read text = x ∧ p = .forwarded := by simpa [valued] using same
    rw [← compete.peers] at leads
    obtain ⟨a, rfl, host⟩ := taken_host _ x _ leads
    refine ⟨text, a, heard, rfl, Evidence.read_exposes text a read (s.heard_peer_shown r text heard), ?_⟩
    rw [settled.remote, parts, host]
    rfl

def obscured : Request :=
  received [("Host", "internal:8080"), ("Forwarded", "for=_hidden;host=\"_a:80\""),
    ("Forwarded", "for=unknown, for=192.0.2.1;host=b.example")]

theorem structured_exposes_obscured :
    (standard.resolve obscured).2 = .ok () ∧
    (standard.resolve obscured).1.authority.map (·.host) = some "b.example".toList ∧
    (standard.resolve obscured).1.remote.map (·.host) = some "192.0.2.1".toList ∧
    Evidence.isObfuscated "b.example".toList = false ∧ Evidence.isObfuscated "192.0.2.1".toList = false := by
  obtain ⟨ok, host, peer⟩ :
      (standard.resolve obscured).2 = .ok () ∧
      leader (standard.hosts obscured) = some (.ok ⟨"b.example".toList, none⟩, .forwarded) ∧
      leader (standard.peers obscured) = some (.ok ⟨"192.0.2.1".toList, none⟩, .forwarded) := by
    decide +kernel
  rw [leader_iff] at host peer
  obtain ⟨hosts, peers⟩ := standard.structured_exposes obscured ok
  obtain ⟨-, a, -, same, -, authority⟩ := hosts _ host
  obtain ⟨-, b, -, same', -, remote⟩ := peers _ peer
  obtain rfl := Except.ok.inj same
  obtain rfl := Except.ok.inj same'
  exact ⟨ok, authority, remote, by decide, by decide⟩

def numbered : Request :=
  received [("Host", "internal:8080"), ("Forwarded", "host=\"unknown:5\";for=\"unknown:47011\"")]

theorem unknown_taken :
    (standard.resolve numbered).2 = .ok () ∧
    (standard.resolve numbered).1.authority = some ⟨"unknown".toList, some 5⟩ ∧
    (standard.resolve numbered).1.remote = some ⟨"unknown".toList, 47011⟩ ∧
    Evidence.isObfuscated "unknown".toList = true := by
  decide +kernel

end Resolver

end Forwarding

end Gateway
