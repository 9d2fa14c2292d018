import Gateway.Proofs.Forwarding.Fault

set_option autoImplicit false

namespace Gateway.Forwarding

open Header (Line)

namespace Resolver

variable (s : Resolver) (r : Request)

theorem secure_iff (c : Config) (configured : ofConfig c = .ok s) (ok : (s.resolve r).2 = .ok ())
    (obtained : s.schemes r ≠ [] ∨ s.IsForcedSecure r) :
    (s.resolve r).1.secure = true ↔ (s.resolve r).1.scheme.same ⟨c.secureScheme⟩ = true ∨ r.secure = true := by
  have settled := s.resolve_settles r ok
  rw [settled.secure, settled.scheme, ← (s.of_config_settings c configured).2]
  by_cases forces : s.forces (s.found r) = true
  · simp [forces, Scheme.same_self]
  · have named := obtained.resolve_right (mt (s.forces_iff r).mpr forces)
    have parts : (s.found r).proto = leader ((s.evidence r).filterMap Evidence.scheme?) := by rw [found_parts]
    rw [← (s.competes r ((s.resolve_ok_iff r).mp ok).1).schemes] at named
    rcases leader_cases ((s.evidence r).filterMap Evidence.scheme?) with ⟨empty, -⟩ | ⟨x, -, found⟩
    · exact absurd (congrArg certain empty) named
    · rw [parts, found]
      simp [forces, or_comm]

section Downgraded

def downgraded : Request :=
  .ofMessage { (received [("X-Forwarded-Proto", "http")]).message with uri := .ofText "https://example.com/".toList }

theorem secure_iff_downgraded :
    ofConfig {} = .ok standard ∧ (standard.resolve downgraded).2 = .ok () ∧ standard.schemes downgraded ≠ [] ∧
    ((standard.resolve downgraded).1.secure = true ↔
      (standard.resolve downgraded).1.scheme.same ⟨"https".toList⟩ = true ∨ downgraded.secure = true) := by
  obtain ⟨ok, named⟩ : (standard.resolve downgraded).2 = .ok () ∧ standard.schemes downgraded ≠ [] := by
    decide +kernel
  exact ⟨standard_configured, ok, named, standard.secure_iff downgraded {} standard_configured ok (.inl named)⟩

theorem downgraded_stays_secure :
    ofConfig {} = .ok standard ∧ (standard.resolve downgraded).2 = .ok () ∧ standard.schemes downgraded ≠ [] ∧
    (standard.resolve downgraded).1.scheme = .http ∧
    (standard.resolve downgraded).1.scheme.same ⟨"https".toList⟩ = false ∧
    (standard.resolve downgraded).1.secure = true := by
  refine ⟨standard_configured, ?_⟩
  decide +kernel

end Downgraded

section Tls

def isTls (line : Line) : Bool := s.roles.get? line.1 = some .cipherSuite || s.roles.get? line.1 = some .sslSessionId

def isSound (line : Line) : Bool := (s.readLine line).isOk

def front : List Line := r.headers.lines.takeWhile s.isSound

def decided (lines : List Line) : Option Scheme :=
  if lines.all s.isSound then (leader ((lines.flatMap s.said).filterMap Evidence.scheme?)).map (·.1) else none

theorem sound_iff (line : Line) : s.isSound line = true ↔ ¬ s.IsFaulty line := by
  rw [isSound, IsFaulty]
  cases s.readLine line <;> simp [Except.isOk, Except.toBool]

theorem tls_read (line : Line) (tls : s.isTls line = true) : ∃ e, s.readLine line = .ok [e] ∧ e.scheme? = none := by
  rw [isTls, Bool.or_eq_true, decide_eq_true_iff, decide_eq_true_iff] at tls
  rw [readLine]
  rcases tls with cipher | session
  · rw [cipher]
    exact ⟨_, rfl, rfl⟩
  · rw [session]
    exact ⟨_, rfl, rfl⟩

theorem sound_plain (lines : List Line) : (lines.filter (!s.isTls ·)).all s.isSound = lines.all s.isSound := by
  rw [List.all_filter]
  congr 1
  funext line
  cases tls : s.isTls line with
  | false => simp
  | true =>
      obtain ⟨e, read, -⟩ := s.tls_read line tls
      simp [isSound, read, Except.isOk, Except.toBool]

theorem schemes_plain (lines : List Line) :
    ((lines.filter (!s.isTls ·)).flatMap s.said).filterMap Evidence.scheme? =
      (lines.flatMap s.said).filterMap Evidence.scheme? := by
  induction lines with
  | nil => rfl
  | cons line rest ih =>
      cases tls : s.isTls line with
      | false =>
          rw [List.filter_cons_of_pos (by simp [tls]), List.flatMap_cons, List.flatMap_cons, List.filterMap_append,
            List.filterMap_append, ih]
      | true =>
          obtain ⟨e, read, schemeless⟩ := s.tls_read line tls
          rw [List.filter_cons_of_neg (by simp [tls]), List.flatMap_cons, List.filterMap_append,
            s.said_ok line [e] read,
            List.filterMap_cons_none schemeless, List.filterMap_nil, List.nil_append, ih]

theorem decided_plain (lines : List Line) : s.decided (lines.filter (!s.isTls ·)) = s.decided lines := by
  rw [decided, decided, s.sound_plain, s.schemes_plain]

structure Marks (r' : Request) : Prop where
  scheme : r'.scheme = if s.secures (s.front r) then s.secureScheme else (s.decided r.headers.lines).getD r.scheme
  secure : r'.secure = (r.secure || s.secures (s.front r) || (s.decided r.headers.lines).any (·.same s.secureScheme))
  cipherSuite : r'.message.cipherSuite = (s.lastOf .cipherSuite (s.front r)).or r.message.cipherSuite
  sslSessionId : r'.message.sslSessionId = (s.lastOf .sslSessionId (s.front r)).or r.message.sslSessionId

theorem resolve_heeded (readable : ∀ line ∈ r.headers.lines, s.IsReadable line) :
    (s.resolve r).1.scheme = (s.heeded r).scheme ∧ (s.resolve r).1.secure = (s.heeded r).secure ∧
    (s.resolve r).1.message.cipherSuite = (s.heeded r).message.cipherSuite ∧
    (s.resolve r).1.message.sslSessionId = (s.heeded r).message.sslSessionId := by
  cases applied : applyAuthority (s.found r) (s.heeded r) with
  | error e =>
      have whole : (s.resolve r).1 = s.heeded r := by rw [s.resolve_readable r readable, applied]
      rw [whole]
      exact ⟨rfl, rfl, rfl, rfl⟩
  | ok r' =>
      have whole : (s.resolve r).1 = applyRemote (s.found r) r' := by rw [s.resolve_readable r readable, applied]
      rw [whole, remote_settles]
      rcases (apply_authority_ok _ _ _).mp applied with ⟨-, rfl⟩ | ⟨a, value, -, -, rfl⟩
      · exact ⟨rfl, rfl, rfl, rfl⟩
      · exact ⟨rfl, rfl, rfl, rfl⟩

theorem forces_secures : s.forces (s.found r) = s.secures r.headers.lines := by
  have cipher :=
    s.tls_said r.headers.lines Evidence.cipherSuite? .cipherSuite
      Evidence.suits_cipher_suite fun _ _ => ⟨_, rfl, rfl⟩
  have session := s.tls_said r.headers.lines Evidence.sslSessionId? .sslSessionId Evidence.suits_ssl_session_id
    fun _ _ => ⟨_, rfl, rfl⟩
  rw [forces, Context.hasTls, secures, found_parts, tls_parts s r Evidence.cipherSuite? fun _ _ => rfl,
    tls_parts s r Evidence.sslSessionId? fun _ _ => rfl, cipher, session]

theorem heeded_recorded : s.heeded r = s.applyProto (s.found r) (s.recorded r r.headers.lines) := by
  rw [heeded, ← tls_recorded, ← found_started]

theorem front_sound (readable : ∀ line ∈ r.headers.lines, s.IsReadable line) : s.front r = r.headers.lines := by
  rw [front, List.takeWhile_eq_self_iff]
  exact fun line member => (s.sound_iff line).mpr ((s.readable_iff line).mp (readable line member))

theorem front_faulty (before after : List Line) (line : Line) (lines : r.headers.lines = before ++ line :: after)
    (clean : ∀ x ∈ before, ¬ s.IsFaulty x) (faulty : s.IsFaulty line) : s.front r = before := by
  have unsound : ¬ s.isSound line = true := fun sound => (s.sound_iff line).mp sound faulty
  rw [front, lines, List.takeWhile_append_of_pos fun x member => (s.sound_iff x).mpr (clean x member),
    List.takeWhile_cons_of_neg unsound, List.append_nil]

theorem resolve_marks : s.Marks r (s.resolve r).1 := by
  by_cases faulty : ∃ line ∈ r.headers.lines, s.IsFaulty line
  · obtain ⟨before, line, after, fault, lines, clean, read⟩ := s.first_faulty _ faulty
    have undecided : s.decided r.headers.lines = none := by
      rw [decided, if_neg]
      rw [List.all_eq_true]
      exact fun sound => (s.sound_iff line).mp (sound line (by simp [lines])) ⟨fault, read⟩
    have front := s.front_faulty r before after line lines clean ⟨fault, read⟩
    rw [s.fails_at r before after line fault lines clean read]
    constructor
    · rw [front, undecided]
      rfl
    · rw [front, undecided]
      exact (Bool.or_false _).symm
    · rw [front]
      rfl
    · rw [front]
      rfl
  · have readable : ∀ line ∈ r.headers.lines, s.IsReadable line := by
      intro line member
      exact (s.readable_iff line).mpr fun bad => faulty ⟨line, member, bad⟩
    obtain ⟨scheme, secure, cipher, session⟩ := s.resolve_heeded r readable
    rw [s.heeded_recorded, proto_settles] at scheme secure cipher session
    have known : s.decided r.headers.lines = (s.found r).proto.map (·.1) := by
      rw [decided, if_pos, found_parts, schemes_parts]
      rw [List.all_eq_true]
      exact fun line member => (s.sound_iff line).mpr ((s.readable_iff line).mp (readable line member))
    have front := s.front_sound r readable
    constructor
    · rw [scheme, known, front, s.forces_secures, recorded]
      cases s.secures r.headers.lines <;> rfl
    · rw [secure, known, front, Option.any_map]
      rfl
    · rw [cipher, front]
      rfl
    · rw [session, front]
      rfl

structure Records (role : Role) (lines : List Line) (before after : Option Text) : Prop where
  last : ∀ front line back, lines = front ++ line :: back → s.roles.get? line.1 = some role →
    (∀ x ∈ back, s.roles.get? x.1 ≠ some role) →
      after = some line.2.latin1 ∧ Header.Value.octets line.2.latin1 = line.2.bytes
  kept : (∀ line ∈ lines, s.roles.get? line.1 ≠ some role) → after = before

theorem last_some (role : Role) (lines : List Line) :
    (s.lastOf role lines).isSome = true ↔ ∃ line ∈ lines, s.roles.get? line.1 = some role := by
  rw [lastOf, Option.isSome_map, List.getLast?_isSome, Ne, List.filter_eq_nil_iff]
  simp

theorem last_records (role : Role) (lines : List Line) (before : Option Text) :
    s.Records role lines before ((s.lastOf role lines).or before) := by
  constructor
  · intro front line back whole named none
    have silent : back.filter (fun line => s.roles.get? line.1 = some role) = [] := by
      rw [List.filter_eq_nil_iff]
      simpa using none
    have last : s.lastOf role lines = some line.2.latin1 := by
      rw [lastOf, whole, List.filter_append, List.filter_cons_of_pos (by simpa using named),
        silent, List.getLast?_append]
      rfl
    rw [last]
    exact ⟨rfl, line.2.latin1_octets⟩
  · intro none
    have absent : s.lastOf role lines = Option.none := by
      rw [← Option.not_isSome_iff_eq_none, last_some]
      simpa using none
    rw [absent, Option.none_or]

theorem tls_evidence (c : Config) (configured : ofConfig c = .ok s) :
    let r' := (s.resolve r).1
    (c.sslIsSecure = true → (∃ line ∈ s.front r, s.isTls line = true) →
      r'.secure = true ∧ r'.scheme = ⟨c.secureScheme⟩) ∧
    (c.sslIsSecure = false →
      ∀ m : Header.Map, m.lines.filter (!s.isTls ·) = r.headers.lines.filter (!s.isTls ·) →
        (s.resolve (r.withHeaders m)).1.secure = r'.secure ∧ (s.resolve (r.withHeaders m)).1.scheme = r'.scheme) ∧
    s.Records .cipherSuite (s.front r) r.message.cipherSuite r'.message.cipherSuite ∧
    s.Records .sslSessionId (s.front r) r.message.sslSessionId r'.message.sslSessionId := by
  intro r'
  obtain ⟨config, text⟩ := s.of_config_settings c configured
  have marks := s.resolve_marks r
  refine ⟨?_, ?_, ?_, ?_⟩
  · rintro counts ⟨line, member, tls⟩
    have found : (s.lastOf .cipherSuite (s.front r)).isSome = true ∨
        (s.lastOf .sslSessionId (s.front r)).isSome = true := by
      rw [isTls, Bool.or_eq_true, decide_eq_true_iff, decide_eq_true_iff] at tls
      rw [last_some, last_some]
      exact tls.imp (fun named => ⟨line, member, named⟩) fun named => ⟨line, member, named⟩
    have secures : s.secures (s.front r) = true := by
      rw [Resolver.secures, Bool.and_eq_true, Bool.or_eq_true, config]
      exact ⟨found, counts⟩
    rw [marks.secure, marks.scheme, secures, ← text]
    simp
  · intro uncounted m same
    have unsecured (lines : List Line) : s.secures lines = false := by
      rw [Resolver.secures, config, uncounted, Bool.and_false]
    have changed := s.resolve_marks (r.withHeaders m)
    have decided : s.decided (r.withHeaders m).headers.lines = s.decided r.headers.lines := by
      rw [← decided_plain, ← decided_plain s r.headers.lines, ← same]
      rfl
    rw [changed.secure, changed.scheme, marks.secure, marks.scheme, decided, unsecured, unsecured]
    exact ⟨rfl, rfl⟩
  · rw [marks.cipherSuite]
    exact s.last_records .cipherSuite (s.front r) r.message.cipherSuite
  · rw [marks.sslSessionId]
    exact s.last_records .sslSessionId (s.front r) r.message.sslSessionId

def session : Line := (⟨"proxy-ssl-id".toList, by decide⟩, ⟨[0x69, 0x64, 0x2d, 0xe9, 0xff], by decide⟩)

def plain : Line := (⟨"x-forwarded-proto".toList, by decide⟩, ⟨Text.utf8 "http".toList, by decide⟩)

def portless : Line := (port8443.1, ⟨Text.utf8 "https".toList, by decide⟩)

def suite : Line := (⟨"proxy-auth-cert".toList, by decide⟩, ⟨Text.utf8 "AES128-SHA".toList, by decide⟩)

def encrypted : Request := sent [session, plain, portless, suite]

def distrusting : Resolver := { standard with config := { sslIsSecure := false } }

theorem tls_evidence_encrypted :
    (ofConfig {} = .ok standard ∧ (standard.resolve encrypted).2 ≠ .ok () ∧
      (standard.resolve encrypted).1.secure = true ∧ (standard.resolve encrypted).1.scheme = ⟨"https".toList⟩ ∧
      (standard.resolve encrypted).1.message.sslSessionId = some session.2.latin1 ∧
      Header.Value.octets session.2.latin1 = [0x69, 0x64, 0x2d, 0xe9, 0xff] ∧
      (standard.resolve encrypted).1.message.cipherSuite = none) ∧
    ofConfig { sslIsSecure := false } = .ok distrusting ∧
    (distrusting.resolve (sent [plain])).1.secure = (distrusting.resolve (sent [session, plain, suite])).1.secure ∧
    (distrusting.resolve (sent [plain])).1.scheme = (distrusting.resolve (sent [session, plain, suite])).1.scheme := by
  obtain ⟨front, faulty, listed, first, later, unlisted⟩ :
      standard.front encrypted = [session, plain] ∧ (standard.resolve encrypted).2 ≠ .ok () ∧
      standard.isTls session = true ∧ standard.roles.get? session.1 = some .sslSessionId ∧
      (∀ x ∈ [plain], standard.roles.get? x.1 ≠ some .sslSessionId) ∧
      ∀ line ∈ [session, plain], standard.roles.get? line.1 ≠ some .cipherSuite := by
    decide +kernel
  have tls : ∃ line ∈ standard.front encrypted, standard.isTls line = true :=
    ⟨session, front ▸ List.mem_cons_self, listed⟩
  have untold : (sent [plain]).headers.lines.filter (!distrusting.isTls ·) =
      (sent [session, plain, suite]).headers.lines.filter (!distrusting.isTls ·) := by decide +kernel
  obtain ⟨counts, -, suites, sessions⟩ := standard.tls_evidence encrypted {} standard_configured
  obtain ⟨-, ignored, -, -⟩ := distrusting.tls_evidence (sent [session, plain, suite]) { sslIsSecure := false } rfl
  obtain ⟨secure, scheme⟩ := counts rfl tls
  obtain ⟨kept, octets⟩ := sessions.last [] session [plain] front first later
  refine ⟨⟨standard_configured, faulty, secure, scheme, kept, octets, ?_⟩, rfl, ?_⟩
  · exact suites.kept (front ▸ unlisted)
  · exact ignored rfl (sent [plain]).headers untold

end Tls

end Resolver

end Gateway.Forwarding
