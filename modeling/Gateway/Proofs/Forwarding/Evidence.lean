import Gateway.Forwarding.Evidence
import Gateway.Proofs.Authority
import Gateway.Proofs.Forwarding.Candidate
import Gateway.Proofs.Scheme

set_option autoImplicit false

namespace Gateway

namespace Forwarding

abbrev Reading (α : Type) := Ranked (Except ParseError α)

def certain {α : Type} (offers : List (Ranked α)) : List (Reading α) := offers.map (valued .ok)

namespace Evidence

def params (text : Text) : List (Text × Text) :=
  match QuotedList.read text with
  | .ok elements => (elements.filter (·.value.isNone)).flatMap (·.params)
  | .error _ => []

def namesHost (c : Config) : Text × Text → Bool
  | (name, value) => !value.isEmpty && !isObfuscated value &&
    (name = "host".toList || c.proxyAsAuthority && name = "by".toList)

def namesPeer : Text × Text → Bool
  | (name, value) => !value.isEmpty && !isObfuscated value && name = "for".toList

def namesScheme : Text × Text → Bool
  | (name, value) => !value.isEmpty && name = "proto".toList

def stated (counts : Text × Text → Bool) (text : Text) : List Text := ((params text).filter counts).map (·.2)

def isOn (text : Text) : Bool :=
  Text.same (Text.trim text) "on".toList || Text.same (Text.trim text) "true".toList

def hosts (c : Config) : Role → Text → List (Ranked Text)
  | .forwarded, text => (stated (namesHost c) text).map (·, .forwarded)
  | .host, text => (leftMost text).toList.map (·, .forwardedHost)
  | .server, text => if c.proxyAsAuthority then (leftMost text).toList.map (·, .forwardedServer) else []
  | _, _ => []

def peers : Role → Text → List (Ranked Text)
  | .forwarded, text => (stated namesPeer text).map (·, .forwarded)
  | .for_, text => (leftMost text).toList.map (·, .forwardedFor)
  | _, _ => []

def schemes : Role → Text → List (Ranked Text)
  | .forwarded, text => (stated namesScheme text).map (·, .forwarded)
  | .proto, text => (leftMost text).toList.map (·, .forwardedProto)
  | .https, text => if isOn text then [("https".toList, .proxiedHttps)] else []
  | _, _ => []

def inferred (p : Priority) (scheme : Text) : List (Reading UInt16) :=
  (Scheme.defaultPort? ⟨scheme⟩).toList.map (.ok ·, p)

def ports (c : Config) : Role → Text → List (Reading UInt16)
  | .forwarded, text => (stated namesScheme text).flatMap (inferred .forwarded)
  | .port, text =>
    if c.portAsAuthority then (leftMost text).toList.map fun port => (Authority.readPort port, .forwardedPort) else []
  | .proto, text => (leftMost text).toList.flatMap (inferred .forwardedProto)
  | .https, text => if isOn text && c.portAsAuthority then [(.ok 443, .proxiedHttps)] else []
  | _, _ => []

def forAuthority? : Evidence → Option Offer
  | authority a p => some (.authority a p)
  | authorityPort n p => some (.port n p)
  | _ => none

def forRemote? : Evidence → Option Offer
  | remote a p => some (.authority a p)
  | remotePort n p => some (.port n p)
  | _ => none

def scheme? : Evidence → Option (Ranked Scheme)
  | proto scheme p => some (scheme, p)
  | _ => none

inductive Suits : Role → Evidence → Prop where
  | host (a : Authority) : Suits .host (authority a .forwardedHost)
  | server (a : Authority) : Suits .server (authority a .forwardedServer)
  | structuredHost (a : Authority) : Suits .forwarded (authority a .forwarded)
  | peer (a : Authority) : Suits .for_ (remote a .forwardedFor)
  | structuredPeer (a : Authority) : Suits .forwarded (remote a .forwarded)
  | port (n : UInt16) (positive : 0 < n) : Suits .port (authorityPort n .forwardedPort)
  | peerPort (n : UInt16) (positive : 0 < n) : Suits .port (remotePort n .forwardedPort)
  | scheme (scheme : Scheme) : Suits .proto (proto scheme .forwardedProto)
  | schemePort (n : UInt16) (positive : 0 < n) : Suits .proto (authorityPort n .forwardedProto)
  | structuredScheme (scheme : Scheme) : Suits .forwarded (proto scheme .forwarded)
  | structuredPort (n : UInt16) (positive : 0 < n) : Suits .forwarded (authorityPort n .forwarded)
  | https : Suits .https (proto .https .proxiedHttps)
  | httpsPort : Suits .https (authorityPort 443 .proxiedHttps)
  | httpsPeerPort : Suits .https (remotePort 443 .proxiedHttps)
  | cipherSuite (value : Text) : Suits .cipherSuite (cipherSuite value)
  | sslSessionId (value : Text) : Suits .sslSessionId (sslSessionId value)

theorem suits_host (role : Role) (e : Evidence) (suits : Suits role e) (a : Authority) (p : Priority)
    (offered : e.forAuthority? = some (.authority a p)) :
    p = .forwardedHost ∨ p = .forwardedServer ∨ p = .forwarded := by
  cases suits <;> cases offered <;> decide

theorem suits_port (role : Role) (e : Evidence) (suits : Suits role e) (n : UInt16) (p : Priority)
    (offered : e.forAuthority? = some (.port n p)) :
    0 < n ∧ (p = .forwardedPort ∨ p = .forwardedProto ∨ p = .proxiedHttps ∨ p = .forwarded) := by
  cases suits <;> cases offered <;> refine ⟨?_, by decide⟩ <;> first | assumption | decide

theorem suits_peer (role : Role) (e : Evidence) (suits : Suits role e) (a : Authority) (p : Priority)
    (offered : e.forRemote? = some (.authority a p)) : p = .forwardedFor ∨ p = .forwarded := by
  cases suits <;> cases offered <;> decide

theorem suits_peer_port (role : Role) (e : Evidence) (suits : Suits role e) (n : UInt16) (p : Priority)
    (offered : e.forRemote? = some (.port n p)) : 0 < n ∧ (p = .forwardedPort ∨ p = .proxiedHttps) := by
  cases suits <;> cases offered <;> refine ⟨?_, by decide⟩ <;> first | assumption | decide

-- Evidence of some kind tells what is listed here, and all of this could be read.
structure Tells (kind : Evidence → Prop) (evidence : List Evidence) (hosts peers schemes : List (Ranked Text))
    (ports : List (Reading UInt16)) : Prop where
  kind : ∀ e ∈ evidence, kind e
  hosts : certain (Offer.authorities (evidence.filterMap forAuthority?)) = hosts.map (valued Authority.read)
  peers : certain (Offer.authorities (evidence.filterMap forRemote?)) = peers.map (valued Authority.read)
  schemes : certain (evidence.filterMap scheme?) = schemes.map (valued readScheme)
  ports : certain (Offer.ports (evidence.filterMap forAuthority?)) = ports

theorem tells_nothing (kind : Evidence → Prop) : Tells kind [] [] [] [] [] := ⟨nofun, rfl, rfl, rfl, rfl⟩

theorem tells_append (kind : Evidence → Prop) (e e' : List Evidence)
    (hosts hosts' peers peers' schemes schemes' : List (Ranked Text))
    (ports ports' : List (Reading UInt16)) (first : Tells kind e hosts peers schemes ports)
    (second : Tells kind e' hosts' peers' schemes' ports') :
    Tells kind (e ++ e') (hosts ++ hosts') (peers ++ peers') (schemes ++ schemes') (ports ++ ports') where
  kind x member := (List.mem_append.mp member).elim (first.kind x) (second.kind x)
  hosts := by
    simp only [certain, Offer.authorities, List.filterMap_append, List.map_append,
      ← first.hosts, ← second.hosts]
  peers := by
    simp only [certain, Offer.authorities, List.filterMap_append, List.map_append,
      ← first.peers, ← second.peers]
  schemes := by simp only [certain, List.filterMap_append, List.map_append, ← first.schemes, ← second.schemes]
  ports := by simp only [certain, Offer.ports, List.filterMap_append, List.map_append, ← first.ports, ← second.ports]

theorem tells_host (kind : Evidence → Prop) (a : Authority) (text : Text) (p : Priority)
    (read : Authority.read text = .ok a)
    (suits : kind (authority a p)) : Tells kind [authority a p] [(text, p)] [] [] [] := by
  refine ⟨by simpa using suits, ?_, rfl, rfl, rfl⟩
  simp [certain, Offer.authorities, forAuthority?, Offer.authority?, valued, read]

theorem tells_peer (kind : Evidence → Prop) (a : Authority) (text : Text) (p : Priority)
    (read : Authority.read text = .ok a)
    (suits : kind (remote a p)) : Tells kind [remote a p] [] [(text, p)] [] [] := by
  refine ⟨by simpa using suits, rfl, ?_, rfl, rfl⟩
  simp [certain, Offer.authorities, forRemote?, Offer.authority?, valued, read]

theorem tells_scheme (kind : Evidence → Prop) (scheme : Scheme) (text : Text) (p : Priority)
    (read : readScheme text = .ok scheme)
    (suits : kind (proto scheme p)) : Tells kind [proto scheme p] [] [] [(text, p)] [] := by
  refine ⟨by simpa using suits, rfl, rfl, ?_, rfl⟩
  simp [certain, scheme?, valued, read]

theorem tells_port (c : Config) (kind : Evidence → Prop) (n : UInt16) (p : Priority) (own : kind (authorityPort n p))
    (peer : kind (remotePort n p)) :
    Tells kind [ofPort c n p] [] [] [] (if c.portAsAuthority then [(.ok n, p)] else []) := by
  unfold ofPort
  by_cases authority : c.portAsAuthority = true
  · rw [if_pos authority, if_pos authority]
    exact ⟨by simpa using own, rfl, rfl, rfl, rfl⟩
  · rw [if_neg authority, if_neg authority]
    exact ⟨by simpa using peer, rfl, rfl, rfl, rfl⟩

theorem tells_inferred (kind : Evidence → Prop) (text : Text) (p : Priority)
    (suits : ∀ n : UInt16, 0 < n → kind (authorityPort n p)) :
    Tells kind (ofScheme ⟨text⟩ p) [] [] [] (inferred p text) := by
  unfold ofScheme inferred
  cases port : Scheme.defaultPort? ⟨text⟩ with
  | none => exact tells_nothing kind
  | some n =>
      have positive := Scheme.fits_positive n ⟨text⟩ ((Scheme.default_port_iff ⟨text⟩ n).mp port)
      exact ⟨by simpa using suits n positive, rfl, rfl, rfl, rfl⟩

theorem read_scheme_text (text : Text) (scheme : Scheme) (read : readScheme text = .ok scheme) : scheme = ⟨text⟩ := by
  unfold readScheme at read
  split at read
  · rename_i known said
    obtain rfl := Except.ok.inj read
    exact Scheme.read_text text known said
  · cases read

theorem shown_host (value : Text) (tell : Authority → Evidence) (evidence : List Evidence)
    (said : (if isObfuscated value then .ok [] else (Authority.read value).map fun a => [tell a]) =
      Except.ok evidence) :
    isObfuscated value = true ∧ evidence = [] ∨
      isObfuscated value = false ∧ ∃ a, Authority.read value = .ok a ∧ evidence = [tell a] := by
  by_cases hidden : isObfuscated value = true
  · rw [if_pos hidden] at said
    exact .inl ⟨hidden, (Except.ok.inj said).symm⟩
  · rw [if_neg hidden, map_ok] at said
    obtain ⟨a, read, rfl⟩ := said
    exact .inr ⟨Bool.not_eq_true _ ▸ hidden, a, read, rfl⟩

def TellsParams (c : Config) (params : List (Text × Text)) (evidence : List Evidence) : Prop :=
  Tells (Suits .forwarded) evidence (((params.filter (namesHost c)).map (·.2)).map (·, .forwarded))
    (((params.filter namesPeer).map (·.2)).map (·, .forwarded))
    (((params.filter namesScheme).map (·.2)).map (·, .forwarded))
    (((params.filter namesScheme).map (·.2)).flatMap (inferred .forwarded))

theorem tells_params_append (c : Config) (params more : List (Text × Text)) (evidence others : List Evidence)
    (first : TellsParams c params evidence) (second : TellsParams c more others) :
    TellsParams c (params ++ more) (evidence ++ others) := by
  simpa only [TellsParams, List.filter_append, List.map_append, List.flatMap_append] using
    tells_append _ _ _ _ _ _ _ _ _ _ _ first second

theorem of_param_tells (c : Config) (param : Text × Text) (evidence : List Evidence)
    (said : ofParam c param = .ok evidence) :
    TellsParams c [param] evidence := by
  obtain ⟨name, value⟩ := param
  unfold ofParam at said
  dsimp only at said
  by_cases empty : value.isEmpty = true
  · obtain rfl : [] = evidence := by simpa [empty] using said
    simp [TellsParams, namesHost, namesPeer, namesScheme, empty, tells_nothing]
  rw [if_neg empty] at said
  by_cases of_proxy : name = "by".toList
  · subst of_proxy
    rw [if_pos rfl] at said
    by_cases proxy : c.proxyAsAuthority = true
    · have told :
          (if isObfuscated value then .ok [] else (Authority.read value).map fun a =>
            [authority a .forwarded]) =
          Except.ok evidence := by cases hidden : isObfuscated value <;> simpa [proxy, hidden] using said
      rcases shown_host value _ evidence told with ⟨hidden, rfl⟩ | ⟨shown, a, read, rfl⟩
      · simpa [TellsParams, namesHost, namesPeer, namesScheme, hidden] using tells_nothing (Suits .forwarded)
      · simpa [TellsParams, namesHost, namesPeer, namesScheme, empty, shown, proxy] using
          tells_host (Suits .forwarded) a value .forwarded read (.structuredHost a)
    · obtain rfl : [] = evidence := by simpa [proxy] using said
      simpa [TellsParams, namesHost, namesPeer, namesScheme, proxy] using tells_nothing (Suits .forwarded)
  rw [if_neg of_proxy] at said
  by_cases peer : name = "for".toList
  · subst peer
    rcases shown_host value _ evidence said with ⟨hidden, rfl⟩ | ⟨shown, a, read, rfl⟩
    · simpa [TellsParams, namesHost, namesPeer, namesScheme, hidden] using tells_nothing (Suits .forwarded)
    · simpa [TellsParams, namesHost, namesPeer, namesScheme, empty, shown] using
        tells_peer (Suits .forwarded) a value .forwarded read (.structuredPeer a)
  rw [if_neg peer] at said
  by_cases host : name = "host".toList
  · subst host
    rcases shown_host value _ evidence said with ⟨hidden, rfl⟩ | ⟨shown, a, read, rfl⟩
    · simpa [TellsParams, namesHost, namesPeer, namesScheme, hidden] using tells_nothing (Suits .forwarded)
    · simpa [TellsParams, namesHost, namesPeer, namesScheme, empty, shown] using
        tells_host (Suits .forwarded) a value .forwarded read (.structuredHost a)
  rw [if_neg host] at said
  by_cases scheme : name = "proto".toList
  · subst scheme
    rw [if_pos rfl, map_ok] at said
    obtain ⟨readable, read, rfl⟩ := said
    obtain rfl := read_scheme_text value readable read
    have both := tells_append _ _ _ _ _ _ _ _ _ _ _
      (tells_scheme (Suits .forwarded) _ value .forwarded read (.structuredScheme _))
      (tells_inferred (Suits .forwarded) value .forwarded .structuredPort)
    simpa [TellsParams, namesHost, namesPeer, namesScheme, empty] using both
  · rw [if_neg scheme] at said
    obtain rfl := Except.ok.inj said
    have ignored : namesHost c (name, value) = false ∧ namesPeer (name, value) = false ∧
        namesScheme (name, value) = false := by
      simp only [namesHost, namesPeer, namesScheme, of_proxy, peer, host, scheme, decide_false,
        Bool.and_false, Bool.or_false,
        and_self]
    simpa [TellsParams, ignored] using tells_nothing (Suits .forwarded)

theorem of_params_tells (c : Config) (params : List (Text × Text)) (evidence : List Evidence)
    (said : ofParams c params = .ok evidence) : TellsParams c params evidence := by
  induction params generalizing evidence with
  | nil =>
      obtain rfl := Except.ok.inj said
      exact tells_nothing (Suits .forwarded)
  | cons param rest ih =>
      rw [ofParams, bind_ok] at said
      obtain ⟨first, read, said⟩ := said
      rw [bind_ok] at said
      obtain ⟨others, more, said⟩ := said
      obtain rfl := Except.ok.inj said
      exact tells_params_append c [param] rest first others (of_param_tells c param first read) (ih others more)

theorem of_elements_tells (c : Config) (elements : List QuotedList.Element) (evidence : List Evidence)
    (said : ofElements c elements = .ok evidence) :
    TellsParams c ((elements.filter (·.value.isNone)).flatMap (·.params)) evidence := by
  induction elements generalizing evidence with
  | nil =>
      obtain rfl := Except.ok.inj said
      exact tells_nothing (Suits .forwarded)
  | cons e rest ih =>
      rw [ofElements, bind_ok] at said
      obtain ⟨first, read, said⟩ := said
      rw [bind_ok] at said
      obtain ⟨others, more, said⟩ := said
      obtain rfl := Except.ok.inj said
      rw [ofElement] at read
      cases bare : e.value with
      | some value =>
          obtain rfl : [] = first := by simpa [bare] using read
          rw [List.filter_cons_of_neg (by simp [bare])]
          exact ih others more
      | none =>
          have params : ofParams c e.params = .ok first := by simpa [bare] using read
          rw [List.filter_cons_of_pos (by simp [bare]), List.flatMap_cons]
          exact tells_params_append c e.params _ first others (of_params_tells c e.params first params) (ih others more)

theorem of_left_most_ok (value : Text) (tell : Authority → Evidence) (evidence : List Evidence)
    (said : ofLeftMost value tell = .ok evidence) :
    leftMost value = none ∧ evidence = [] ∨
      ∃ text a, leftMost value = some text ∧ Authority.read text = .ok a ∧ evidence = [tell a] := by
  rw [ofLeftMost] at said
  cases first : leftMost value with
  | none =>
      rw [first] at said
      exact .inl ⟨rfl, (Except.ok.inj said).symm⟩
  | some text =>
      rw [first, map_ok] at said
      obtain ⟨a, read, rfl⟩ := said
      exact .inr ⟨text, a, rfl, read, rfl⟩

theorem of_text_tells (c : Config) (role : Role) (text : Text) (evidence : List Evidence)
    (said : ofText c role text = .ok evidence) :
    Tells (Suits role) evidence (hosts c role text) (peers role text) (schemes role text) (ports c role text) := by
  cases role with
  | forwarded =>
      rw [ofText, bind_ok] at said
      obtain ⟨elements, read, said⟩ := said
      have told := of_elements_tells c elements evidence said
      simpa only [hosts, peers, schemes, ports, stated, params, read, TellsParams] using told
  | host =>
      rcases of_left_most_ok text _ evidence said with ⟨first, rfl⟩ | ⟨host, a, first, read, rfl⟩
      · simpa [hosts, peers, schemes, ports, first] using tells_nothing (Suits .host)
      · simpa [hosts, peers, schemes, ports, first] using tells_host (Suits .host) a host .forwardedHost read (.host a)
  | server =>
      by_cases proxy : c.proxyAsAuthority = true
      · rw [ofText, if_pos proxy] at said
        rcases of_left_most_ok text _ evidence said with ⟨first, rfl⟩ | ⟨host, a, first, read, rfl⟩
        · simpa [hosts, peers, schemes, ports, first] using tells_nothing (Suits .server)
        · simpa [hosts, peers, schemes, ports, first, proxy] using tells_host (Suits .server) a
            host .forwardedServer read (.server a)
      · rw [ofText, if_neg proxy] at said
        obtain rfl := Except.ok.inj said
        simpa [hosts, peers, schemes, ports, proxy] using tells_nothing (Suits .server)
  | for_ =>
      rcases of_left_most_ok text _ evidence said with ⟨first, rfl⟩ | ⟨host, a, first, read, rfl⟩
      · simpa [hosts, peers, schemes, ports, first] using tells_nothing (Suits .for_)
      · simpa [hosts, peers, schemes, ports, first] using tells_peer (Suits .for_) a host .forwardedFor read (.peer a)
  | port =>
      rw [ofText] at said
      cases first : leftMost text with
      | none =>
          rw [first] at said
          obtain rfl := Except.ok.inj said
          simpa [hosts, peers, schemes, ports, first] using tells_nothing (Suits .port)
      | some port =>
          rw [first, map_ok] at said
          obtain ⟨n, read, rfl⟩ := said
          have positive := Authority.read_port_positive port n read
          simpa [hosts, peers, schemes, ports, first, read] using
            tells_port c (Suits .port) n .forwardedPort (.port n positive) (.peerPort n positive)
  | proto =>
      rw [ofText] at said
      cases first : leftMost text with
      | none =>
          rw [first] at said
          obtain rfl := Except.ok.inj said
          simpa [hosts, peers, schemes, ports, first] using tells_nothing (Suits .proto)
      | some scheme =>
          rw [first, map_ok] at said
          obtain ⟨readable, read, rfl⟩ := said
          obtain rfl := read_scheme_text scheme readable read
          have both :=
            tells_append _ _ _ _ _ _ _ _ _ _ _
              (tells_inferred (Suits .proto) scheme .forwardedProto .schemePort)
            (tells_scheme (Suits .proto) _ scheme .forwardedProto read (.scheme _))
          simpa [hosts, peers, schemes, ports, first] using both
  | https =>
      have told : (if isOn text = true then .ok [proto .https .proxiedHttps, ofPort c 443 .proxiedHttps] else .ok [] :
          Except ParseError (List Evidence)) = .ok evidence := by simpa [ofText, isOn] using said
      by_cases on : isOn text = true
      · rw [if_pos on] at told
        obtain rfl := Except.ok.inj told
        have both := tells_append _ _ _ _ _ _ _ _ _ _ _
          (tells_scheme (Suits .https) .https "https".toList .proxiedHttps rfl .https)
          (tells_port c (Suits .https) 443 .proxiedHttps .httpsPort .httpsPeerPort)
        simpa [hosts, peers, schemes, ports, on] using both
      · rw [if_neg on] at told
        obtain rfl := Except.ok.inj told
        simpa [hosts, peers, schemes, ports, on] using tells_nothing (Suits .https)
  | cipherSuite =>
      obtain rfl := Except.ok.inj said
      exact tells_nothing (Suits .cipherSuite)
  | sslSessionId =>
      obtain rfl := Except.ok.inj said
      exact tells_nothing (Suits .sslSessionId)

def heard {α : Type} (tell : Role → Text → List (Ranked α)) (role : Role) (value : Header.Value) : List (Ranked α) :=
  value.text?.elim [] (tell role)

theorem heard_silent {α : Type} (tell : Role → Text → List (Ranked α)) (role : Role) (value : Header.Value)
    (silent : ∀ text, tell role text = []) : heard tell role value = [] := by
  unfold heard
  cases value.text? with
  | none => rfl
  | some text => exact silent text

theorem of_line_tells (c : Config) (role : Role) (value : Header.Value) (evidence : List Evidence)
    (said : ofLine c role value = .ok evidence) :
    Tells (Suits role) evidence (heard (hosts c) role value) (heard peers role value) (heard schemes role value)
      (heard (ports c) role value) := by
  unfold ofLine at said
  split at said
  · obtain rfl := Except.ok.inj said
    rw [heard_silent (hosts c), heard_silent peers, heard_silent schemes, heard_silent (ports c)]
    · exact ⟨by simpa using Suits.cipherSuite value.latin1, rfl, rfl, rfl, rfl⟩
    all_goals exact fun _ => rfl
  · obtain rfl := Except.ok.inj said
    rw [heard_silent (hosts c), heard_silent peers, heard_silent schemes, heard_silent (ports c)]
    · exact ⟨by simpa using Suits.sslSessionId value.latin1, rfl, rfl, rfl, rfl⟩
    all_goals exact fun _ => rfl
  · cases read : value.text? with
    | none => simp [read] at said
    | some text =>
        have told := of_text_tells c role text evidence (by simpa [read] using said)
        simpa [heard, read] using told

end Evidence

end Forwarding

end Gateway
