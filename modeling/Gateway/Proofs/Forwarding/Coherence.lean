import Gateway.Proofs.Authority.Rendering
import Gateway.Proofs.Forwarding.Ports

set_option autoImplicit false

namespace Gateway

namespace Header.Map

theorem others_insert (m : Map) (name : Name) (value : Value) :
    (m.insert name value).lines.filter (·.1 ≠ name) = m.lines.filter (·.1 ≠ name) := by
  have each (lines : List Line) :
      lines.filter (·.1 ≠ name) = lines.flatMap fun line => if line.1 = name then [] else [line] := by
    induction lines with
    | nil => rfl
    | cons line rest ih =>
        rw [List.flatMap_cons, ← ih]
        by_cases same : line.1 = name
        · simp [same]
        · simp [same]
  rw [each, each]
  exact m.lines_insert name _ value fun _ => if_pos rfl

end Header.Map

namespace Request

theorem named_proper (m : Message) (a : Authority) (named : namedAuthority m = some a) : a.IsProper := by
  have proper (text : Text) (read : (Authority.read text).toOption = some a) : a.IsProper := by
    cases said : Authority.read text with
    | error e => simp [said, Except.toOption] at read
    | ok b =>
        obtain rfl : b = a := by simpa [said, Except.toOption] using read
        exact Authority.read_proper text b said
  unfold namedAuthority at named
  split at named
  · exact proper _ named
  · obtain ⟨text, -, read⟩ := Option.bind_eq_some_iff.mp named
    exact proper text read

theorem named_by_host (m : Message) (a : Authority) (value : Header.Value) (pathed : m.uri.authority = none)
    (only : m.headers.getAll .host = [value]) (text : value.text? = some a.render) (proper : a.IsProper) :
    namedAuthority m = some a := by
  have host : m.headers.get? .host = some value := by
    rw [Header.Map.get?, only]
    rfl
  rw [namedAuthority, pathed, host, Option.bind_some, text, Option.bind_some, a.read_render proper]
  rfl

end Request

namespace Forwarding

namespace Resolver

variable (s : Resolver) (r : Request)

theorem own_proper (c : Config) (configured : ofConfig c = .ok s) (unset : r.resolved = none) (x : Ranked Authority)
    (member : x ∈ s.own r) : x.1.IsProper := by
  unfold own at member
  cases forced : s.forcedHost with
  | some a =>
      rw [forced] at member
      obtain rfl := List.mem_singleton.mp member
      cases given : c.forced? with
      | none =>
          have read := (s.of_config_parts c configured).2.1
          simp [readForced, given, forced] at read
      | some text =>
          obtain ⟨b, said, known⟩ := s.of_config_forced c text configured given
          obtain rfl : a = b := Option.some.inj (forced.symm.trans known)
          exact Authority.read_proper text a said
  | none =>
      rw [forced] at member
      obtain ⟨a, own, rfl⟩ := List.mem_map.mp member
      have named : Request.namedAuthority r.message = some a := by
        rw [Option.mem_toList, Request.authority, unset] at own
        exact own
      exact Request.named_proper r.message a named

theorem shown_proper (readable : ∀ line ∈ r.headers.lines, s.IsReadable line) (x : Ranked Authority)
    (member : x ∈ s.shown r) : x.1.IsProper := by
  have told := (s.lines_tell r.headers.lines readable).hosts
  have known : (Except.ok x.1, x.2) ∈ certain (s.shown r) := List.mem_map_of_mem member
  rw [shown, told] at known
  obtain ⟨y, -, read⟩ := List.mem_map.mp known
  exact Authority.read_proper y.1 x.1 (Prod.mk.inj read).1

theorem offered_proper (c : Config) (configured : ofConfig c = .ok s) (unset : r.resolved = none)
    (readable : ∀ line ∈ r.headers.lines, s.IsReadable line) (x : Ranked Authority)
    (member : x ∈ Offer.authorities (s.authorityOffers r)) : x.1.IsProper := by
  rw [authorities_parts, List.mem_append] at member
  exact member.elim (s.own_proper r c configured unset x) (s.shown_proper r readable x)

theorem found_proper (c : Config) (configured : ofConfig c = .ok s) (unset : r.resolved = none)
    (readable : ∀ line ∈ r.headers.lines, s.IsReadable line) (a : Authority)
    (found : (s.found r).authority.authority? = some a) : a.IsProper := by
  have offered := s.offered_proper r c configured unset readable
  rw [found_parts] at found
  obtain ⟨host, held, rfl⟩ := Option.map_eq_some_iff.mp found
  constructor
  · rw [(Candidate.take_all_host (s.authorityOffers r)).1] at held
    obtain ⟨x, leads, rfl⟩ := Option.map_eq_some_iff.mp held
    exact (offered x (leads_mem _ _ ((leader_iff _ x).mp leads))).host
  · intro n port
    obtain ⟨o, member, gives⟩ := Candidate.take_all_given _ n port
    cases o with
    | authority b p =>
        have present : (b, p) ∈ Offer.authorities (s.authorityOffers r) := List.mem_filterMap.mpr ⟨_, member, rfl⟩
        exact (offered (b, p) present).port n gives
    | port m p =>
        obtain ⟨rfl, positive⟩ := gives
        exact positive

theorem unfound_iff : (s.found r).authority.authority? = none ↔ Offer.authorities (s.authorityOffers r) = [] := by
  rw [found_parts, Candidate.authority?, Option.map_eq_none_iff, (Candidate.take_all_host _).1, Option.map_eq_none_iff]
  rcases leader_cases (Offer.authorities (s.authorityOffers r)) with ⟨empty, none⟩ | ⟨x, leads, found⟩
  · exact iff_of_true none empty
  · simp [List.ne_nil_of_mem (leads_mem x _ leads), found]

theorem unfound_authority (unfound : (s.found r).authority.authority? = none) : r.authority = none := by
  have unowned := (s.unfound_iff r).mp unfound
  rw [authorities_parts, List.append_eq_nil_iff, own] at unowned
  cases forced : s.forcedHost with
  | some a => simp [forced] at unowned
  | none => simpa [forced] using unowned.1

structure Frames (r' : Request) : Prop where
  method : r'.message.method = r.message.method
  uri : r'.message.uri = r.message.uri
  version : r'.message.version = r.message.version
  others : r'.headers.lines.filter (·.1 ≠ .host) = r.headers.lines.filter (·.1 ≠ .host)

structure Coheres (r' : Request) (a : Authority) : Prop where
  authority : r'.authority = some a
  host : ∃ value, r'.headers.getAll .host = [value] ∧ value.text? = some a.render
  reads : Authority.read a.render = .ok a
  message : r'.message.uri.authority = none → (Request.ofMessage r'.message).authority = some a
  copy : r'.message.uri.authority = none → (Request.ofMessage r'.copyMessage).authority = some a

theorem resolve_message (ok : (s.resolve r).2 = .ok ()) :
    (s.resolve r).1.message.method = r.message.method ∧ (s.resolve r).1.message.uri = r.message.uri ∧
    (s.resolve r).1.message.version = r.message.version := by
  obtain ⟨r', applied, whole⟩ := s.resolve_outcome r ok
  rw [whole, remote_settles]
  rcases (apply_authority_ok _ _ _).mp applied with ⟨-, rfl⟩ | ⟨a, value, -, -, rfl⟩
  · rw [heeded_settles]
    exact ⟨rfl, rfl, rfl⟩
  · rw [heeded_settles]
    exact ⟨rfl, rfl, rfl⟩

theorem resolve_frames (ok : (s.resolve r).2 = .ok ()) : Frames r (s.resolve r).1 := by
  obtain ⟨method, uri, version⟩ := s.resolve_message r ok
  refine ⟨method, uri, version, ?_⟩
  rcases s.resolve_sets r ok with ⟨-, headers⟩ | ⟨a, value, -, -, headers⟩
  · rw [headers]
  · rw [headers, Header.Map.others_insert]

theorem proper_coheres (r' : Request) (a : Authority) (value : Header.Value) (proper : a.IsProper)
    (authority : r'.authority = some a) (only : r'.headers.getAll .host = [value])
    (text : value.text? = some a.render) :
    Coheres r' a where
  authority := authority
  host := ⟨value, only, text⟩
  reads := a.read_render proper
  message pathed := Request.named_by_host r'.message a value pathed only text proper
  copy pathed := Request.named_by_host r'.copyMessage a value pathed only text proper

theorem resolve_coheres (c : Config) (configured : ofConfig c = .ok s) (unset : r.resolved = none)
    (ok : (s.resolve r).2 = .ok ()) :
    Frames r (s.resolve r).1 ∧
    (s.hosts r = [] → (s.resolve r).1.authority = none ∧ (s.resolve r).1.headers = r.headers) ∧
    (s.hosts r ≠ [] → ∃ a, (s.resolve r).1.resolved = some a ∧ Coheres (s.resolve r).1 a) := by
  have readable := ((s.resolve_ok_iff r).mp ok).1
  have settled := s.resolve_settles r ok
  have compete : s.hosts r = [] ↔ (s.found r).authority.authority? = none := by
    rw [← (s.competes r readable).hosts, unfound_iff]
    exact List.map_eq_nil_iff
  refine ⟨s.resolve_frames r ok, ?_, ?_⟩
  · intro idle
    have none := compete.mp idle
    rcases s.resolve_sets r ok with ⟨-, headers⟩ | ⟨a, value, found, -, -⟩
    · refine ⟨?_, headers⟩
      rw [settled.authority, none, Option.none_or]
      exact s.unfound_authority r none
    · rw [none] at found
      cases found
  · intro competing
    obtain ⟨a, found⟩ := Option.ne_none_iff_exists'.mp (mt compete.mpr competing)
    have proper := s.found_proper r c configured unset readable a found
    obtain ⟨value, written, only⟩ := settled.host a found
    obtain ⟨value', written', text⟩ := a.render_value proper
    obtain rfl : value = value' := Option.some.inj (written.symm.trans written')
    have authority : (s.resolve r).1.authority = some a := by
      rw [settled.authority, found]
      rfl
    refine ⟨a, ?_, proper_coheres (s.resolve r).1 a value proper authority only text⟩
    rcases s.resolve_sets r ok with ⟨none, -⟩ | ⟨b, _, known, resolved, -⟩
    · rw [none] at found
      cases found
    · rw [resolved, ← known, found]

def mixed : Request :=
  received [("Host", "internal:8080"), ("Accept", "text/html"), ("X-Forwarded-Port", "8443"),
    ("X-Forwarded-Host", "2001:db8::1")]

theorem resolve_coheres_mixed :
    ofConfig {} = .ok standard ∧ mixed.resolved = none ∧ (standard.resolve mixed).2 = .ok () ∧
    Frames mixed (standard.resolve mixed).1 ∧
    (standard.resolve mixed).1.authority = some ⟨"[2001:db8::1]".toList, some 8443⟩ ∧
    Coheres (standard.resolve mixed).1 ⟨"[2001:db8::1]".toList, some 8443⟩ := by
  obtain ⟨ok, authority, competing⟩ :
      (standard.resolve mixed).2 = .ok () ∧
      (standard.resolve mixed).1.authority = some ⟨"[2001:db8::1]".toList, some 8443⟩ ∧
      standard.hosts mixed ≠ [] := by
    decide +kernel
  obtain ⟨frames, -, coheres⟩ := standard.resolve_coheres mixed {} standard_configured rfl ok
  obtain ⟨a, -, coherent⟩ := coheres competing
  obtain rfl : a = _ := Option.some.inj (coherent.authority.symm.trans authority)
  exact ⟨standard_configured, rfl, ok, frames, authority, coherent⟩

end Resolver

end Forwarding

end Gateway
