import Gateway.Forwarding.Resolver
import Gateway.Proofs.Forwarding.Evidence
import Gateway.Proofs.Header.Map
import Gateway.Proofs.Request

set_option autoImplicit false

namespace Gateway

namespace Forwarding

open Header (Line)

namespace Evidence

def cipherSuite? : Evidence → Option Text
  | cipherSuite value => some value
  | _ => none

def sslSessionId? : Evidence → Option Text
  | sslSessionId value => some value
  | _ => none

theorem suits_cipher_suite (role : Role) (e : Evidence) (suits : Suits role e) (told : e.cipherSuite?.isSome = true) :
    role = .cipherSuite := by
  cases suits <;> first | rfl | cases told

theorem suits_ssl_session_id (role : Role) (e : Evidence) (suits : Suits role e)
    (told : e.sslSessionId?.isSome = true) :
    role = .sslSessionId := by
  cases suits <;> first | rfl | cases told

end Evidence

namespace Context

variable (x : Context) (evidence : List Evidence)

theorem offer_proto (scheme : Scheme) (p : Priority) :
    x.offerProto scheme p = { x with proto := prefer x.proto (scheme, p) } := by
  obtain ⟨authority, remote, kept, cipher, session⟩ := x
  unfold offerProto prefer
  cases kept with
  | none => rfl
  | some current =>
      by_cases below : current.2.below p = true
      · simp [outranks, below]
      · simp [outranks, below]

theorem last_or (value : Text) (values : List Text) (kept : Option Text) :
    (value :: values).getLast?.or kept = values.getLast?.or (some value) := by
  rw [List.getLast?_cons]
  cases values.getLast? <;> rfl

theorem add_all (a b : Candidate) (scheme : Option (Scheme × Priority)) (cipher session : Option Text) :
    addAll ⟨a, b, scheme, cipher, session⟩ evidence =
      ⟨a.takeAll (evidence.filterMap Evidence.forAuthority?), b.takeAll (evidence.filterMap Evidence.forRemote?),
        (evidence.filterMap Evidence.scheme?).foldl prefer scheme,
        (evidence.filterMap Evidence.cipherSuite?).getLast?.or cipher,
        (evidence.filterMap Evidence.sslSessionId?).getLast?.or session⟩ := by
  induction evidence generalizing a b scheme cipher session with
  | nil => rfl
  | cons e rest ih =>
      rw [addAll, List.foldl_cons]
      cases e with
      | proto scheme p =>
          rw [add, offer_proto]
          exact ih _ _ _ _ _
      | cipherSuite value =>
          rw [List.filterMap_cons_some (f := Evidence.cipherSuite?) rfl, last_or]
          exact ih _ _ _ _ _
      | sslSessionId value =>
          rw [List.filterMap_cons_some (f := Evidence.sslSessionId?) rfl, last_or]
          exact ih _ _ _ _ _
      | _ => exact ih _ _ _ _ _

end Context

namespace Resolver

variable (s : Resolver) (r : Request)

theorem of_config_parts (c : Config) (configured : ofConfig c = .ok s) :
    Roles.ofConfig c = .ok s.roles ∧ readForced c = .ok s.forcedHost ∧ readSecureScheme c = .ok s.secureScheme := by
  unfold ofConfig at configured
  obtain ⟨roles, named, configured⟩ := (bind_ok _ _ _).mp configured
  obtain ⟨host, forced, configured⟩ := (bind_ok _ _ _).mp configured
  obtain ⟨scheme, secure, configured⟩ := (bind_ok _ _ _).mp configured
  obtain rfl := Except.ok.inj configured
  exact ⟨named, forced, secure⟩

theorem secure_scheme_text (c : Config) (scheme : Scheme) (given : readSecureScheme c = .ok scheme) :
    scheme = ⟨c.secureScheme⟩ := by
  unfold readSecureScheme at given
  split at given
  · rename_i known read
    obtain rfl := Except.ok.inj given
    exact Scheme.read_text c.secureScheme known read
  · cases given

theorem of_config_settings (c : Config) (configured : ofConfig c = .ok s) :
    s.config = c ∧ s.secureScheme = ⟨c.secureScheme⟩ := by
  refine ⟨?_, secure_scheme_text c s.secureScheme (s.of_config_parts c configured).2.2⟩
  unfold ofConfig at configured
  obtain ⟨roles, -, configured⟩ := (bind_ok _ _ _).mp configured
  obtain ⟨host, -, configured⟩ := (bind_ok _ _ _).mp configured
  obtain ⟨scheme, -, configured⟩ := (bind_ok _ _ _).mp configured
  rw [← Except.ok.inj configured]

def said (line : Line) : List Evidence := (s.readLine line).toOption.getD []

def IsReadable (line : Line) : Prop := ∃ evidence, s.readLine line = .ok evidence

theorem said_ok (line : Line) (evidence : List Evidence) (read : s.readLine line = .ok evidence) :
    s.said line = evidence := by
  rw [said, read]
  rfl

theorem said_suits (line : Line) (e : Evidence) (member : e ∈ s.said line) :
    ∃ role, s.roles.get? line.1 = some role ∧ Evidence.Suits role e := by
  cases read : s.readLine line with
  | error fault =>
      rw [said, read] at member
      cases member
  | ok evidence =>
      rw [s.said_ok line evidence read] at member
      rw [readLine] at read
      cases named : s.roles.get? line.1 with
      | none =>
          obtain rfl : [] = evidence := by simpa [named] using read
          cases member
      | some role =>
          rw [named] at read
          exact ⟨role, rfl, (Evidence.of_line_tells s.config role line.2 evidence read).kind e member⟩

theorem gather_readable (x : Context) (lines : List Line) (readable : ∀ line ∈ lines, s.IsReadable line) :
    s.gather x lines = (x.addAll (lines.flatMap s.said), .ok ()) := by
  induction lines generalizing x with
  | nil => rfl
  | cons line rest ih =>
      rw [List.forall_mem_cons] at readable
      obtain ⟨evidence, read⟩ := readable.1
      rw [gather, read, List.flatMap_cons, s.said_ok line evidence read]
      refine (ih (x.addAll evidence) readable.2).trans ?_
      simp only [Context.addAll, List.foldl_append]

theorem gathered_readable (x : Context) (lines : List Line) (gathered : (s.gather x lines).2 = .ok ()) :
    ∀ line ∈ lines, s.IsReadable line := by
  induction lines generalizing x with
  | nil => exact nofun
  | cons line rest ih =>
      rw [gather] at gathered
      cases read : s.readLine line with
      | error e => simp [read] at gathered
      | ok evidence =>
          rw [read] at gathered
          exact List.forall_mem_cons.mpr ⟨⟨evidence, read⟩, ih _ gathered⟩

def own : List (Ranked Authority) :=
  match s.forcedHost with
  | some a => [(a, .forced)]
  | none => r.authority.toList.map (·, .request)

-- All that is said of a request, first by itself and then by its lines.
def evidence : List Evidence := (s.own r).map (fun x => .authority x.1 x.2) ++ r.headers.lines.flatMap s.said

def authorityOffers : List Offer := (s.evidence r).filterMap Evidence.forAuthority?

def peerOffers : List Offer := (s.evidence r).filterMap Evidence.forRemote?

def shown : List (Ranked Authority) :=
  Offer.authorities ((r.headers.lines.flatMap s.said).filterMap Evidence.forAuthority?)

theorem authorities_parts : Offer.authorities (s.authorityOffers r) = s.own r ++ s.shown r := by
  rw [authorityOffers, evidence, List.filterMap_append, Offer.authorities, List.filterMap_append]
  refine congrArg₂ (· ++ ·) ?_ rfl
  simp [List.filterMap_map, Function.comp_def, Evidence.forAuthority?, Offer.authority?]

theorem ports_parts :
    Offer.ports (s.authorityOffers r) =
      Offer.ports ((r.headers.lines.flatMap s.said).filterMap Evidence.forAuthority?) := by
  rw [authorityOffers, evidence, List.filterMap_append, Offer.ports, List.filterMap_append]
  refine (congrArg₂ (· ++ ·) ?_ rfl).trans (List.nil_append _)
  simp [List.filterMap_map, Function.comp_def, Evidence.forAuthority?, Offer.port?]

theorem peer_offers_parts : s.peerOffers r = (r.headers.lines.flatMap s.said).filterMap Evidence.forRemote? := by
  rw [peerOffers, evidence, List.filterMap_append]
  refine (congrArg₂ (· ++ ·) ?_ rfl).trans (List.nil_append _)
  simp [List.filterMap_map, Function.comp_def, Evidence.forRemote?]

theorem schemes_parts :
    (s.evidence r).filterMap Evidence.scheme? = (r.headers.lines.flatMap s.said).filterMap Evidence.scheme? := by
  rw [evidence, List.filterMap_append]
  refine (congrArg₂ (· ++ ·) ?_ rfl).trans (List.nil_append _)
  simp [List.filterMap_map, Function.comp_def, Evidence.scheme?]

def found : Context := Context.empty.addAll (s.evidence r)

theorem found_started : s.found r = (s.start r).addAll (r.headers.lines.flatMap s.said) := by
  rw [found, evidence, own, start, Context.addAll, List.foldl_append]
  cases s.forcedHost with
  | some a => rfl
  | none => cases r.authority <;> rfl

theorem found_parts :
    s.found r =
      ⟨Candidate.empty.takeAll (s.authorityOffers r), Candidate.empty.takeAll (s.peerOffers r),
        leader ((s.evidence r).filterMap Evidence.scheme?),
        ((s.evidence r).filterMap Evidence.cipherSuite?).getLast?,
        ((s.evidence r).filterMap Evidence.sslSessionId?).getLast?⟩ := by
  rw [found, Context.empty, Context.add_all, Option.or_none, Option.or_none]
  rfl

def forces (x : Context) : Bool := x.hasTls && s.config.sslIsSecure

structure Settles (x : Context) (r' : Request) : Prop where
  authority : r'.authority = x.authority.authority?.or r.authority
  host : ∀ a, x.authority.authority? = some a →
    ∃ value, Header.Value.ofText? a.render = some value ∧ r'.headers.getAll .host = [value]
  remote : r'.remote =
    (x.remote.host.map fun host => ⟨host, (x.remote.port.or (r.remote.map (·.port))).getD 0⟩).or r.remote
  scheme : r'.scheme = if s.forces x then s.secureScheme else (x.proto.map (·.1)).getD r.scheme
  secure : r'.secure = (r.secure || s.forces x || x.proto.any (·.1.same s.secureScheme))
  cipherSuite : r'.message.cipherSuite = x.cipherSuite.or r.message.cipherSuite
  sslSessionId : r'.message.sslSessionId = x.sslSessionId.or r.message.sslSessionId

theorem tls_settles (x : Context) :
    s.applyTls x r =
      { r with
        message := { r.message with
          cipherSuite := x.cipherSuite.or r.message.cipherSuite
          sslSessionId := x.sslSessionId.or r.message.sslSessionId }
        secure := r.secure || s.forces x
        scheme := if s.forces x then s.secureScheme else r.scheme } := by
  unfold applyTls
  by_cases forced : x.hasTls = true ∧ s.config.sslIsSecure = true
  · simp [forces, forced]
  · have unforced : s.forces x = false := by simpa [forces] using forced
    simp [forced, unforced]

theorem proto_settles (x : Context) :
    s.applyProto x r =
      { r with
        secure := r.secure || x.proto.any (·.1.same s.secureScheme)
        scheme := if s.forces x then r.scheme else (x.proto.map (·.1)).getD r.scheme } := by
  unfold applyProto
  cases x.proto with
  | none => simp
  | some best =>
      have forced : (x.hasTls = true ∧ s.config.sslIsSecure = true) ↔ s.forces x = true := by simp [forces]
      by_cases secure : best.1.same s.secureScheme = true
      · by_cases forces : s.forces x = true
        · simp [secure, forced, forces]
        · simp [secure, forced, forces]
      · by_cases forces : s.forces x = true
        · simp [secure, forced, forces]
        · simp [secure, forced, forces]

theorem remote_settles (x : Context) :
    applyRemote x r =
      { r with
        remote :=
          (x.remote.host.map fun host => ⟨host, (x.remote.port.or (r.remote.map (·.port))).getD 0⟩).or
            r.remote } := by
  unfold applyRemote
  cases x.remote.host with
  | none => rfl
  | some host => simp

def heeded : Request := s.applyProto (s.found r) (s.applyTls (s.found r) r)

theorem heeded_settles :
    s.heeded r =
      { r with
        message := { r.message with
          cipherSuite := (s.found r).cipherSuite.or r.message.cipherSuite
          sslSessionId := (s.found r).sslSessionId.or r.message.sslSessionId }
        secure := r.secure || s.forces (s.found r) || (s.found r).proto.any (·.1.same s.secureScheme)
        scheme := if s.forces (s.found r) then s.secureScheme else ((s.found r).proto.map (·.1)).getD r.scheme } := by
  rw [heeded, proto_settles, tls_settles]
  by_cases forced : s.forces (s.found r) = true
  · simp [forced]
  · simp [forced]

theorem resolve_readable (readable : ∀ line ∈ r.headers.lines, s.IsReadable line) :
    s.resolve r =
      match applyAuthority (s.found r) (s.heeded r) with
      | .error e => (s.heeded r, .error e)
      | .ok r' => (applyRemote (s.found r) r', .ok ()) := by
  unfold resolve
  rw [s.gather_readable _ _ readable, ← found_started]
  rfl

theorem resolve_ok_iff :
    (s.resolve r).2 = .ok () ↔
      (∀ line ∈ r.headers.lines, s.IsReadable line) ∧ ∃ r', applyAuthority (s.found r) (s.heeded r) = .ok r' := by
  constructor
  · intro ok
    have readable : ∀ line ∈ r.headers.lines, s.IsReadable line := by
      apply s.gathered_readable (s.start r)
      unfold resolve at ok
      cases gathered : s.gather (s.start r) r.headers.lines with
      | mk x result =>
          cases result with
          | ok _ => rfl
          | error e => simp [gathered] at ok
    refine ⟨readable, ?_⟩
    rw [s.resolve_readable r readable] at ok
    cases applied : applyAuthority (s.found r) (s.heeded r) with
    | ok r' => exact ⟨r', rfl⟩
    | error e => simp [applied] at ok
  · rintro ⟨readable, r', applied⟩
    rw [s.resolve_readable r readable, applied]

theorem apply_authority_ok (x : Context) (r' : Request) :
    applyAuthority x r = .ok r' ↔
      x.authority.authority? = none ∧ r = r' ∨
        ∃ a value, x.authority.authority? = some a ∧ Header.Value.ofText? a.render = some value ∧
          r' = { r.withHeaders (r.headers.insert .host value) with resolved := some a } := by
  unfold applyAuthority
  cases x.authority.authority? with
  | none => simp
  | some a => simp [Request.set_authority_ok]

theorem resolve_outcome (ok : (s.resolve r).2 = .ok ()) :
    ∃ r', applyAuthority (s.found r) (s.heeded r) = .ok r' ∧ (s.resolve r).1 = applyRemote (s.found r) r' := by
  obtain ⟨readable, r', applied⟩ := (s.resolve_ok_iff r).mp ok
  exact ⟨r', applied, by rw [s.resolve_readable r readable, applied]⟩

theorem resolve_settles (ok : (s.resolve r).2 = .ok ()) : s.Settles r (s.found r) (s.resolve r).1 := by
  obtain ⟨r', applied, whole⟩ := s.resolve_outcome r ok
  rw [whole, remote_settles]
  rcases (apply_authority_ok _ _ _).mp applied with ⟨none, rfl⟩ | ⟨a, value, authority, text, rfl⟩
  · rw [heeded_settles]
    exact ⟨by rw [none]; rfl, by rw [none]; exact nofun, rfl, rfl, rfl, rfl, rfl⟩
  · rw [heeded_settles]
    refine ⟨by rw [authority]; rfl, ?_, rfl, rfl, rfl, rfl, rfl⟩
    intro b same
    obtain rfl : a = b := by simpa [authority] using same
    refine ⟨value, text, ?_⟩
    exact (Header.Map.getAll_insert _ _ _ _).trans (if_pos rfl)

theorem resolve_sets (ok : (s.resolve r).2 = .ok ()) :
    (s.found r).authority.authority? = none ∧ (s.resolve r).1.headers = r.headers ∨
      ∃ a value, (s.found r).authority.authority? = some a ∧ (s.resolve r).1.resolved = some a ∧
        (s.resolve r).1.headers = r.headers.insert .host value := by
  obtain ⟨r', applied, whole⟩ := s.resolve_outcome r ok
  rw [whole, remote_settles]
  rcases (apply_authority_ok _ _ _).mp applied with ⟨none, rfl⟩ | ⟨a, value, authority, -, rfl⟩
  · rw [heeded_settles]
    exact .inl ⟨none, rfl⟩
  · rw [heeded_settles]
    exact .inr ⟨a, value, authority, rfl, rfl⟩

end Resolver

end Forwarding

end Gateway
