import Gateway.Forwarding.Setting
import Gateway.Proofs.Forwarding.Security

set_option autoImplicit false

namespace Gateway.Forwarding

open Header (Line Name)

namespace Config

def Reads (setting : Option Text) (name : Name) : Prop := setting.bind Name.read? = some name

instance (setting : Option Text) (name : Name) : Decidable (Reads setting name) := inferInstanceAs (Decidable (_ = _))

inductive Hears (c : Config) (name : Name) : Role → Prop where
  | forwarded (reads : Reads c.forwarded? name) : Hears c name .forwarded
  | cipherSuite (reads : Reads c.cipherSuite? name) : Hears c name .cipherSuite
  | sslSessionId (reads : Reads c.sslSessionId? name) : Hears c name .sslSessionId

def isHeard (c : Config) (name : Name) : Bool :=
  decide (Reads c.forwarded? name) || decide (Reads c.cipherSuite? name) || decide (Reads c.sslSessionId? name)

theorem hears_heard (c : Config) (name : Name) (role : Role) (hears : c.Hears name role) : c.isHeard name = true := by
  cases hears with
  | forwarded reads => simp [isHeard, reads]
  | cipherSuite reads => simp [isHeard, reads]
  | sslSessionId reads => simp [isHeard, reads]

theorem configured_only (c : Config) (only : c.forwardedOnly = true) (text : Text) (role : Role)
    (listed : (some text, role) ∈ Roles.configured c) (name : Name) (read : Name.read? text = some name) :
    c.Hears name role := by
  have hidden (setting : Option Text) : c.besides setting = none := if_pos only
  have reads (setting : Option Text) (same : some text = setting) : Reads setting name := by
    rw [← same]
    exact read
  simp only [Roles.configured, host?, server?, for?, port?, proto?, https?, hidden, List.mem_cons,
    Prod.mk.injEq, reduceCtorEq,
    false_and, false_or, List.not_mem_nil, or_false] at listed
  rcases listed with ⟨same, rfl⟩ | ⟨same, rfl⟩ | ⟨same, rfl⟩
  · exact .forwarded (reads _ same)
  · exact .cipherSuite (reads _ same)
  · exact .sslSessionId (reads _ same)

end Config

namespace Resolver

variable (s : Resolver) (r r' : Request)

def counts (line : Line) : Bool := (s.roles.get? line.1).isSome

theorem gather_counting (x : Context) (lines : List Line) : s.gather x lines = s.gather x (lines.filter s.counts) := by
  induction lines generalizing x with
  | nil => rfl
  | cons line rest ih =>
      cases named : s.roles.get? line.1 with
      | none =>
          have silent : s.readLine line = .ok [] := by rw [readLine, named]
          rw [List.filter_cons_of_neg (by simp [counts, named]), gather, silent]
          exact ih x
      | some role =>
          rw [List.filter_cons_of_pos (by simp [counts, named]), gather, gather]
          cases s.readLine line with
          | ok evidence => exact ih _
          | error e => rfl

structure Resembles : Prop where
  uri : r.message.uri = r'.message.uri
  host : r.headers.get? .host = r'.headers.get? .host
  scheme : r.scheme = r'.scheme
  secure : r.secure = r'.secure
  resolved : r.resolved = r'.resolved
  remote : r.remote = r'.remote

theorem received_resembles (m m' : Message) (remote : Option Address.Remote) (uri : m.uri = m'.uri)
    (host : m.headers.get? .host = m'.headers.get? .host) :
    Resembles { Request.ofMessage m with remote } { Request.ofMessage m' with remote } := by
  refine ⟨uri, host, ?_, ?_, rfl, rfl⟩
  · rw [Request.ofMessage, uri]
    rfl
  · rw [Request.ofMessage, uri]
    rfl

-- Two resolutions that come to the same. What was known of the encrypted connection before stays where
-- nothing new is found.
structure Concurs : Prop where
  result : (s.resolve r).2 = (s.resolve r').2
  scheme : (s.resolve r).1.scheme = (s.resolve r').1.scheme
  secure : (s.resolve r).1.secure = (s.resolve r').1.secure
  authority : (s.resolve r).1.authority = (s.resolve r').1.authority
  host : (s.resolve r).1.headers.get? .host = (s.resolve r').1.headers.get? .host
  remote : (s.resolve r).1.remote = (s.resolve r').1.remote
  cipherSuite : ∃ found : Option Text, (s.resolve r).1.message.cipherSuite = found.or r.message.cipherSuite ∧
    (s.resolve r').1.message.cipherSuite = found.or r'.message.cipherSuite
  sslSessionId : ∃ found : Option Text, (s.resolve r).1.message.sslSessionId = found.or r.message.sslSessionId ∧
    (s.resolve r').1.message.sslSessionId = found.or r'.message.sslSessionId

theorem resolve_tls :
    (s.resolve r).1.message.cipherSuite =
      (s.gather (s.start r) r.headers.lines).1.cipherSuite.or r.message.cipherSuite ∧
    (s.resolve r).1.message.sslSessionId =
      (s.gather (s.start r) r.headers.lines).1.sslSessionId.or r.message.sslSessionId := by
  unfold resolve
  obtain ⟨x, result⟩ := s.gather (s.start r) r.headers.lines
  cases result with
  | error e =>
      dsimp only
      rw [tls_settles]
      exact ⟨rfl, rfl⟩
  | ok _ =>
      dsimp only
      cases applied : applyAuthority x (s.applyProto x (s.applyTls x r)) with
      | error e =>
          dsimp only
          rw [proto_settles, tls_settles]
          exact ⟨rfl, rfl⟩
      | ok q =>
          dsimp only
          rw [remote_settles]
          rcases (apply_authority_ok _ _ _).mp applied with ⟨-, rfl⟩ | ⟨a, value, -, -, rfl⟩
          · rw [proto_settles, tls_settles]
            exact ⟨rfl, rfl⟩
          · rw [proto_settles, tls_settles]
            exact ⟨rfl, rfl⟩

variable {r r'}

theorem own_authority (alike : Resembles r r') : r.authority = r'.authority := by
  unfold Request.authority Request.namedAuthority
  rw [alike.resolved, alike.uri]
  cases r'.resolved with
  | some a => rfl
  | none =>
      cases r'.message.uri.authority with
      | some text => rfl
      | none =>
          exact congrArg (fun host => (host.bind Header.Value.text?).bind fun text =>
            (Authority.read text).toOption) alike.host

theorem start_resembling (alike : Resembles r r') : s.start r = s.start r' := by rw [start, start, own_authority alike]

theorem tls_resembling (alike : Resembles r r') (x : Context) : Resembles (s.applyTls x r) (s.applyTls x r') := by
  rw [tls_settles, tls_settles]
  exact ⟨alike.uri, alike.host, by rw [alike.scheme], by rw [alike.secure], alike.resolved, alike.remote⟩

theorem proto_resembling (alike : Resembles r r') (x : Context) : Resembles (s.applyProto x r) (s.applyProto x r') := by
  rw [proto_settles, proto_settles]
  exact ⟨alike.uri, alike.host, by rw [alike.scheme], by rw [alike.secure], alike.resolved, alike.remote⟩

theorem remote_resembling (alike : Resembles r r') (x : Context) : Resembles (applyRemote x r) (applyRemote x r') := by
  rw [remote_settles, remote_settles]
  exact ⟨alike.uri, alike.host, alike.scheme, alike.secure, alike.resolved, by rw [alike.remote]⟩

theorem authority_resembling (alike : Resembles r r') (x : Context) :
    (∃ e, applyAuthority x r = .error e ∧ applyAuthority x r' = .error e) ∨
      ∃ q q', applyAuthority x r = .ok q ∧ applyAuthority x r' = .ok q' ∧ Resembles q q' := by
  unfold applyAuthority Request.setAuthority
  cases x.authority.authority? with
  | none => exact .inr ⟨r, r', rfl, rfl, alike⟩
  | some a =>
      dsimp only
      cases Header.Value.ofText? a.render with
      | none => exact .inl ⟨_, rfl, rfl⟩
      | some value =>
          have host (m : Header.Map) : (m.insert .host value).get? .host = some value := by
            rw [Header.Map.get?, Header.Map.getAll_insert, if_pos rfl]
            rfl
          refine .inr ⟨_, _, rfl, rfl, alike.uri, ?_, alike.scheme, alike.secure, rfl, alike.remote⟩
          exact (host r.headers).trans (host r'.headers).symm

theorem gather_resembling (alike : Resembles r r')
    (same : r.headers.lines.filter s.counts = r'.headers.lines.filter s.counts) :
    s.gather (s.start r) r.headers.lines = s.gather (s.start r') r'.headers.lines := by
  rw [gather_counting, same, ← gather_counting, s.start_resembling alike]

theorem resolve_resembling (alike : Resembles r r')
    (same : r.headers.lines.filter s.counts = r'.headers.lines.filter s.counts) :
    (s.resolve r).2 = (s.resolve r').2 ∧ Resembles (s.resolve r).1 (s.resolve r').1 := by
  unfold resolve
  rw [s.gather_resembling alike same]
  obtain ⟨x, result⟩ := s.gather (s.start r') r'.headers.lines
  have tls := s.tls_resembling alike x
  cases result with
  | error e => exact ⟨rfl, tls⟩
  | ok _ =>
      dsimp only
      have proto := s.proto_resembling tls x
      rcases authority_resembling proto x with ⟨e, refused, refused'⟩ | ⟨q, q', applied, applied', sets⟩
      · rw [refused, refused']
        exact ⟨rfl, proto⟩
      · rw [applied, applied']
        exact ⟨rfl, remote_resembling sets x⟩

theorem resolve_concurs (alike : Resembles r r')
    (same : r.headers.lines.filter s.counts = r'.headers.lines.filter s.counts) : s.Concurs r r' := by
  obtain ⟨result, outcome⟩ := s.resolve_resembling alike same
  obtain ⟨cipher, session⟩ := s.resolve_tls r
  obtain ⟨cipher', session'⟩ := s.resolve_tls r'
  rw [← s.gather_resembling alike same] at cipher' session'
  exact {
    result, scheme := outcome.scheme, secure := outcome.secure, authority := own_authority outcome,
    host := outcome.host, remote := outcome.remote,
    cipherSuite := ⟨_, cipher, cipher'⟩, sslSessionId := ⟨_, session, session'⟩ }

theorem unconfigured_silent (c : Config) (configured : ofConfig c = .ok s) :
    (∀ r r' : Request, Resembles r r' → r.headers.lines.filter s.counts = r'.headers.lines.filter s.counts →
      s.Concurs r r') ∧
    (c.forwardedOnly = true →
      (∀ name role, s.roles.get? name = some role → c.Hears name role) ∧
      ∀ r r' : Request, Resembles r r' →
        r.headers.lines.filter (c.isHeard ·.1) = r'.headers.lines.filter (c.isHeard ·.1) → s.Concurs r r') := by
  refine ⟨fun r r' alike same => s.resolve_concurs alike same, fun only => ?_⟩
  have hears (name : Name) (role : Role) (plays : s.roles.get? name = some role) : c.Hears name role := by
    obtain ⟨text, listed, read⟩ := Roles.of_config_listed c s.roles (s.of_config_parts c configured).1 name role plays
    exact c.configured_only only text role listed name read
  refine ⟨hears, fun r r' alike same => s.resolve_concurs alike ?_⟩
  have among (lines : List Line) : (lines.filter (c.isHeard ·.1)).filter s.counts = lines.filter s.counts := by
    rw [List.filter_filter]
    congr 1
    funext line
    cases named : s.roles.get? line.1 with
    | none => simp [counts, named]
    | some role => simp [counts, named, c.hears_heard line.1 role (hears line.1 role named)]
  rw [← among r.headers.lines, same, among]

def strict : Config := ({} : Config).applyAll [.forwardedOnly true, .header .host (some "X-Forwarded-Host".toList)]

def strictly : Resolver := (ofConfig strict).toOption.get (by decide +kernel)

def discreet : Request := received [("Host", "internal"), ("Forwarded", "host=a.example;proto=https")]

def talkative : Request :=
  received [("X-Forwarded-Host", "/"), ("Host", "internal"), ("X-Forwarded-Port", "no"),
    ("Forwarded", "host=a.example;proto=https")]

theorem unconfigured_silent_strict :
    ofConfig strict = .ok strictly ∧ strict.forwardedOnly = true ∧ Resembles discreet talkative ∧
    strictly.Concurs discreet talkative ∧ (strictly.resolve discreet).2 = .ok () ∧
    strictly.roles.get? ⟨"x-forwarded-host".toList, by decide⟩ = none := by
  have only : strict.forwardedOnly = true := rfl
  have configured : ofConfig strict = .ok strictly := rfl
  have alike : Resembles discreet talkative :=
    received_resembles discreet.message talkative.message none rfl (by decide +kernel)
  obtain ⟨counted, restricted⟩ := strictly.unconfigured_silent strict configured
  obtain ⟨hears, heard⟩ := restricted only
  refine ⟨configured, only, alike, heard _ _ alike (by decide +kernel), by decide +kernel, ?_⟩
  rw [Option.eq_none_iff_forall_not_mem]
  intro role plays
  exact absurd (strict.hears_heard _ role (hears _ role plays)) (by decide +kernel)

end Resolver

end Gateway.Forwarding
