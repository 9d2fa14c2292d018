import Gateway.Forwarding.Resolver
import Gateway.Proofs.Forwarding.Order

set_option autoImplicit false

namespace Gateway.Forwarding

open Header (Line)

namespace Resolver

variable (s : Resolver) (r : Request)

def IsFaulty (line : Line) : Prop := ∃ fault, s.readLine line = .error fault

theorem readable_iff (line : Line) : s.IsReadable line ↔ ¬ s.IsFaulty line := by
  rw [IsReadable, IsFaulty]
  cases s.readLine line <;> simp

theorem faulty_named (line : Line) (faulty : s.IsFaulty line) : (s.roles.get? line.1).isSome = true := by
  obtain ⟨fault, read⟩ := faulty
  rw [readLine] at read
  cases named : s.roles.get? line.1 with
  | none => simp [named] at read
  | some role => rfl

theorem first_faulty (lines : List Line) (faulty : ∃ line ∈ lines, s.IsFaulty line) :
    ∃ front line back fault, lines = front ++ line :: back ∧ (∀ x ∈ front, ¬ s.IsFaulty x) ∧
      s.readLine line = .error fault := by
  induction lines with
  | nil => simp at faulty
  | cons line rest ih =>
      cases read : s.readLine line with
      | error fault => exact ⟨[], line, rest, fault, rfl, nofun, read⟩
      | ok evidence =>
          have sound : ¬ s.IsFaulty line := (s.readable_iff line).mp ⟨evidence, read⟩
          obtain ⟨front, x, back, fault, rfl, clean, here⟩ := ih (by simpa [sound] using faulty)
          exact ⟨line :: front, x, back, fault, rfl, List.forall_mem_cons.mpr ⟨sound, clean⟩, here⟩

theorem gather_faulty (x : Context) (front back : List Line) (line : Line) (fault : ParseError)
    (clean : ∀ y ∈ front, ¬ s.IsFaulty y) (read : s.readLine line = .error fault) :
    s.gather x (front ++ line :: back) =
      (x.addAll (front.flatMap s.said), .error (.badProxyHeader line.1.text fault.message)) := by
  induction front generalizing x with
  | nil => rw [List.nil_append, gather, read]; rfl
  | cons first rest ih =>
      rw [List.forall_mem_cons] at clean
      obtain ⟨evidence, said⟩ := (s.readable_iff first).mpr clean.1
      rw [List.cons_append, gather, said, List.flatMap_cons, s.said_ok first evidence said]
      refine (ih (x.addAll evidence) clean.2).trans ?_
      rw [Context.addAll, Context.addAll, Context.addAll, List.foldl_append]

section Authority

variable (c : Config) (configured : ofConfig c = .ok s) (made : r.Made)

include configured made

theorem own_legal (x : Ranked Authority) (member : x ∈ s.own r) : (Header.Value.ofText? x.1.host).isSome = true := by
  rw [own] at member
  cases forced : s.forcedHost with
  | some a =>
      rw [forced] at member
      obtain rfl := List.mem_singleton.mp member
      have given := (s.of_config_parts c configured).2.1
      rw [readForced] at given
      split at given
      · simp [forced] at given
      · split at given
        · rename_i text _ _ b read
          obtain rfl : b = a := by simpa [forced] using given
          exact Authority.read_legal text b read
        · cases given
  | none =>
      rw [forced] at member
      obtain ⟨a, own, rfl⟩ := List.mem_map.mp member
      exact r.made_authority made a (Option.mem_toList.mp own)

theorem hosts_legal (a : Authority) (p : Priority) (member : (.ok a, p) ∈ s.hosts r) :
    (Header.Value.ofText? a.host).isSome = true := by
  rcases List.mem_append.mp member with own | named
  · obtain ⟨x, present, same⟩ := List.mem_map.mp own
    cases same
    exact s.own_legal r c configured made x present
  · obtain ⟨x, -, same⟩ := List.mem_map.mp named
    exact Authority.read_legal x.1 a (congrArg Prod.fst same)

theorem applies (readable : ∀ line ∈ r.headers.lines, s.IsReadable line) :
    ∃ r', applyAuthority (s.found r) (s.heeded r) = .ok r' := by
  rw [applied_iff, found_parts]
  intro host held
  rcases host_cases (s.authorityOffers r) with ⟨-, none⟩ | ⟨a, p, leads, found⟩
  · cases none.symm.trans held
  · obtain rfl : a.host = host := Option.some.inj (found.symm.trans held)
    rw [(s.competes r readable).hosts] at leads
    exact s.hosts_legal r c configured made a p (leads_mem _ _ leads)

theorem succeeds_iff : (s.resolve r).2 = .ok () ↔ ∀ line ∈ r.headers.lines, s.IsReadable line := by
  rw [resolve_ok_iff]
  exact ⟨And.left, fun readable => ⟨readable, s.applies r c configured made readable⟩⟩

theorem fails_iff : (s.resolve r).2 ≠ .ok () ↔ ∃ line ∈ r.headers.lines, s.IsFaulty line := by
  rw [Ne, s.succeeds_iff r c configured made]
  simp only [readable_iff, not_forall, Classical.not_not, exists_prop]

end Authority

section Recorded

variable (front : List Line)

def lastOf (role : Role) (lines : List Line) : Option Text :=
  (lines.filter fun line => s.roles.get? line.1 = some role).getLast?.map fun line => line.2.latin1

def secures (lines : List Line) : Bool :=
  ((s.lastOf .cipherSuite lines).isSome || (s.lastOf .sslSessionId lines).isSome) && s.config.sslIsSecure

def recorded (lines : List Line) : Request :=
  { r with
    message := { r.message with
      cipherSuite := (s.lastOf .cipherSuite lines).or r.message.cipherSuite
      sslSessionId := (s.lastOf .sslSessionId lines).or r.message.sslSessionId }
    secure := r.secure || s.secures lines
    scheme := if s.secures lines then s.secureScheme else r.scheme }

theorem tls_said (tls? : Evidence → Option Text) (role : Role)
    (suits : ∀ other e, Evidence.Suits other e → (tls? e).isSome = true → other = role)
    (read : ∀ c value, ∃ e, Evidence.ofLine c role value = .ok [e] ∧ tls? e = some value.latin1) :
    ((front.flatMap s.said).filterMap tls?).getLast? = s.lastOf role front := by
  have each (line : Line) : (s.said line).filterMap tls? =
      if s.roles.get? line.1 = some role then [line.2.latin1] else [] := by
    by_cases named : s.roles.get? line.1 = some role
    · obtain ⟨e, ok, told⟩ := read s.config line.2
      have said : s.said line = [e] := by
        apply s.said_ok
        rw [readLine, named]
        exact ok
      rw [said, if_pos named, List.filterMap_cons_some told, List.filterMap_nil]
    · rw [if_neg named, List.filterMap_eq_nil_iff]
      intro e member
      obtain ⟨other, plays, suit⟩ := s.said_suits line e member
      rw [← Option.not_isSome_iff_eq_none]
      exact fun told => named (plays.trans (congrArg some (suits other e suit told)))
  have whole : (front.flatMap s.said).filterMap tls? =
      (front.filter fun line => s.roles.get? line.1 = some role).map fun line => line.2.latin1 := by
    induction front with
    | nil => rfl
    | cons line rest ih =>
        rw [List.flatMap_cons, List.filterMap_append, each, ih, List.filter_cons]
        by_cases named : s.roles.get? line.1 = some role
        · simp [named]
        · simp [named]
  rw [whole, List.getLast?_map, lastOf]

theorem start_fresh : ∃ a, s.start r = ⟨a, .empty, none, none, none⟩ := by
  rw [start]
  cases s.forcedHost with
  | some a => exact ⟨_, rfl⟩
  | none =>
      cases r.authority with
      | some a => exact ⟨_, rfl⟩
      | none => exact ⟨_, rfl⟩

theorem tls_recorded : s.applyTls ((s.start r).addAll (front.flatMap s.said)) r = s.recorded r front := by
  obtain ⟨a, fresh⟩ := s.start_fresh r
  have cipher :=
    s.tls_said front Evidence.cipherSuite? .cipherSuite Evidence.suits_cipher_suite fun _ _ => ⟨_, rfl, rfl⟩
  have session := s.tls_said front Evidence.sslSessionId? .sslSessionId Evidence.suits_ssl_session_id
    fun _ _ => ⟨_, rfl, rfl⟩
  rw [tls_settles, fresh, Context.add_all, Option.or_none, Option.or_none, cipher, session]
  rfl

end Recorded

structure Spares (r' : Request) : Prop where
  method : r'.message.method = r.message.method
  uri : r'.message.uri = r.message.uri
  version : r'.message.version = r.message.version
  headers : r'.headers = r.headers
  authority : r'.authority = r.authority
  remote : r'.remote = r.remote

structure FailsAt (front : List Line) (line : Line) (fault : ParseError) (r' : Request) (e : ParseError) : Prop where
  clean : ∀ x ∈ front, ¬ s.IsFaulty x
  faulty : s.readLine line = .error fault
  error : e = .badProxyHeader line.1.text fault.message
  lower : Text.lower line.1.text = line.1.text
  status : e.status = 400
  spares : Spares r r'
  recorded : r' = s.recorded r front

theorem fails_at (front back : List Line) (line : Line) (fault : ParseError)
    (lines : r.headers.lines = front ++ line :: back) (clean : ∀ x ∈ front, ¬ s.IsFaulty x)
    (read : s.readLine line = .error fault) :
    s.resolve r = (s.recorded r front, .error (.badProxyHeader line.1.text fault.message)) := by
  rw [resolve, lines, s.gather_faulty _ front back line fault clean read]
  exact congrArg (·, _) (s.tls_recorded r front)

theorem fails_at_first_fault (c : Config) (configured : ofConfig c = .ok s) (made : r.Made) :
    ((s.resolve r).2 ≠ .ok () ↔ ∃ line ∈ r.headers.lines, s.IsFaulty line) ∧
    (∀ line, s.IsFaulty line ↔
      (s.roles.get? line.1).isSome = true ∧ (s.resolve (r.withHeaders (.ofLines [line]))).2 ≠ .ok ()) ∧
    ∀ r' e, s.resolve r = (r', .error e) →
      (∃ front line back fault, r.headers.lines = front ++ line :: back ∧ s.FailsAt r front line fault r' e) ∧
      ∀ {α σ : Type} [Sink σ] (inner : Handler α) (a : α) (sink : σ),
        (s.wrap inner).handle a r sink = ⟨a, r', sink, .error (.request e)⟩ := by
  have fails := s.fails_iff r c configured made
  refine ⟨fails, ?_, ?_⟩
  · intro line
    have alone := s.fails_iff (r.withHeaders (.ofLines [line])) c configured (.changed r _ made rfl)
    have single : (r.withHeaders (.ofLines [line])).headers.lines = [line] := rfl
    rw [alone, single]
    simp only [List.mem_singleton, exists_eq_left]
    exact ⟨fun faulty => ⟨s.faulty_named line faulty, faulty⟩, And.right⟩
  · intro r' e failed
    have faulty := fails.mp (by rw [failed]; exact nofun)
    obtain ⟨front, line, back, fault, lines, clean, read⟩ := s.first_faulty _ faulty
    have known := s.fails_at r front back line fault lines clean read
    obtain ⟨rfl, same⟩ := Prod.mk.inj (failed.symm.trans known)
    obtain rfl := Except.error.inj same
    refine ⟨⟨front, line, back, fault, lines, ?_⟩, ?_⟩
    · exact ⟨clean, read, rfl, line.1.lower_text, rfl, ⟨rfl, rfl, rfl, rfl, rfl, rfl⟩, rfl⟩
    · intro α σ _ inner a sink
      simp only [Resolver.wrap, known]

section Proxied

def misread : Request :=
  received [("Proxy-ssl-id", "5f1c"), ("X-Forwarded-Port", "https"), ("X-Forwarded-Host", "a.example"),
    ("Proxy-auth-cert", "AES128-SHA")]

theorem fails_at_first_fault_port :
    ofConfig {} = .ok standard ∧ misread.Made ∧
    (∃ line ∈ misread.headers.lines, standard.IsFaulty line) ∧ (standard.resolve misread).2 ≠ .ok () ∧
    ∃ front line back fault r' e, misread.headers.lines = front ++ line :: back ∧
      standard.FailsAt misread front line fault r' e ∧
      ∀ {α σ : Type} [Sink σ] (inner : Handler α) (a : α) (sink : σ),
        (standard.wrap inner).handle a misread sink = ⟨a, r', sink, .error (.request e)⟩ := by
  have configured : ofConfig {} = .ok standard := rfl
  have made : misread.Made := .received _
  have port : ∃ line ∈ misread.headers.lines, standard.IsFaulty line :=
    ⟨(⟨"x-forwarded-port".toList, by decide⟩, ⟨Text.utf8 "https".toList, by decide⟩), by decide +kernel, _, rfl⟩
  obtain ⟨fails, -, at_first⟩ := standard.fails_at_first_fault misread {} configured made
  refine ⟨configured, made, port, fails.mpr port, ?_⟩
  cases failed : standard.resolve misread with
  | mk r' result =>
      cases result with
      | ok _ => exact (fails.mpr port (by rw [failed])).elim
      | error e =>
          obtain ⟨⟨front, line, back, fault, lines, fact⟩, passed⟩ := at_first r' e failed
          exact ⟨front, line, back, fault, r', e, lines, fact, fun inner a sink => passed inner a sink⟩

example :
    standard.resolve misread =
      (standard.recorded misread (misread.headers.lines.take 1),
        .error (.badProxyHeader "x-forwarded-port".toList "invalid host port `https`: bad port".toList)) ∧
    (standard.resolve misread).1.message.sslSessionId = some "5f1c".toList ∧
    (standard.resolve misread).1.message.cipherSuite = none ∧ (standard.resolve misread).1.secure = true := by
  decide +kernel

end Proxied

end Resolver

end Gateway.Forwarding
