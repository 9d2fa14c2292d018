import Gateway.Proofs.Forwarding.Resolver
import Gateway.Proofs.QuotedList

set_option autoImplicit false

namespace Gateway

namespace Header

namespace Value

def append (a b : Value) : Value where
  bytes := a.bytes ++ [0x2c, 0x20] ++ b.bytes
  legal := by
    rw [List.all_append, List.all_append, a.legal, b.legal]
    decide

def join (first : Value) : List Value → Value
  | [] => first
  | next :: rest => first.append (join next rest)

theorem append_text (a b : Value) (text : Text) :
    (a.append b).text? = some text ↔ ∃ s t, a.text? = some s ∧ b.text? = some t ∧ text = s ++ ',' :: ' ' :: t := by
  have whole : Text.ofLatin1 (a.append b).bytes = Text.ofLatin1 a.bytes ++ ',' :: ' ' :: Text.ofLatin1 b.bytes := by
    simp only [append, Text.ofLatin1, List.map_append, List.append_assoc]
    rfl
  have visible : (a.append b).bytes.all isVisible = (a.bytes.all isVisible && b.bytes.all isVisible) := by
    simp only [append, List.all_append]
    rw [show [(0x2c : UInt8), 0x20].all isVisible = true from by decide, Bool.and_true]
  unfold text?
  rw [whole, visible]
  cases a.bytes.all isVisible with
  | false => simp
  | true =>
      cases b.bytes.all isVisible with
      | false => simp
      | true => simp [eq_comm]

theorem join_readable (first : Value) (rest : List Value) (texts : ∀ v ∈ first :: rest, ∃ s, v.text? = some s) :
    ∃ text, (first.join rest).text? = some text := by
  induction rest generalizing first with
  | nil => exact texts first (List.mem_singleton_self first)
  | cons next rest ih =>
      rw [List.forall_mem_cons] at texts
      obtain ⟨s, here⟩ := texts.1
      obtain ⟨t, later⟩ := ih next texts.2
      exact ⟨_, (append_text _ _ _).mpr ⟨s, t, here, later, rfl⟩⟩

end Value

namespace Map

def linesOf (entries : List Field) : List Line :=
  entries.flatMap fun (key, values) => values.map fun value => (key, value)

theorem lines_of_cons (key : Name) (values : List Value) (entries : List Field) :
    linesOf ((key, values) :: entries) = values.map (key, ·) ++ linesOf entries := rfl

theorem modify_lines (name : Name) (first value : Value) (rest : List Value) (entries : List Field)
    (found : valuesOf name entries = first :: rest) :
    ∃ front back, linesOf entries = front ++ (first :: rest).map (name, ·) ++ back ∧
      linesOf (modify name (fun _ => [value]) entries) = front ++ (name, value) :: back := by
  induction entries with
  | nil => cases found
  | cons field others ih =>
      obtain ⟨key, values⟩ := field
      rw [valuesOf] at found
      by_cases same : key = name
      · rw [if_pos same] at found
        subst same found
        exact ⟨[], _, rfl, by rw [modify, if_pos rfl]; rfl⟩
      · rw [if_neg same] at found
        obtain ⟨front, back, whole, changed⟩ := ih found
        refine ⟨values.map (key, ·) ++ front, back, ?_, ?_⟩
        · rw [lines_of_cons, whole, List.append_assoc, List.append_assoc, List.append_assoc]
        · rw [modify, if_neg same, lines_of_cons, changed, List.append_assoc]

theorem insert_lines (m : Map) (name : Name) (first value : Value) (rest : List Value)
    (found : m.getAll name = first :: rest) :
    ∃ front back, m.lines = front ++ (first :: rest).map (name, ·) ++ back ∧
      (m.insert name value).lines = front ++ (name, value) :: back :=
  modify_lines name first value rest m.entries found

end Map

end Header

namespace Forwarding

open Header (Line Name Value)

namespace Context

structure Matches (x y : Context) : Prop where
  host : x.authority.host = y.authority.host
  priority : x.authority.hostPriority = y.authority.hostPriority
  remote : x.remote = y.remote
  proto : x.proto = y.proto
  cipherSuite : x.cipherSuite = y.cipherSuite
  sslSessionId : x.sslSessionId = y.sslSessionId

variable (x y : Context)

theorem matches_refl : x.Matches x := ⟨rfl, rfl, rfl, rfl, rfl, rfl⟩

theorem matches_of_eq (same : x = y) : x.Matches y := same ▸ x.matches_refl

theorem matches_trans (z : Context) (first : x.Matches y) (second : y.Matches z) : x.Matches z :=
  ⟨first.host.trans second.host, first.priority.trans second.priority, first.remote.trans second.remote,
    first.proto.trans second.proto, first.cipherSuite.trans second.cipherSuite,
      first.sslSessionId.trans second.sslSessionId⟩

theorem offer_same_host (c d : Candidate) (host : c.host = d.host)
    (priority : c.hostPriority = d.hostPriority) (a : Authority)
    (p : Priority) :
    (c.offer a p).host = (d.offer a p).host ∧ (c.offer a p).hostPriority = (d.offer a p).hostPriority := by
  unfold Candidate.offer
  rw [host, priority]
  by_cases refused : d.host.isSome = true ∧ ¬ d.hostPriority.below p = true
  · rw [if_pos refused, if_pos refused]
    exact ⟨host, priority⟩
  · rw [if_neg refused, if_neg refused]
    by_cases structured : p = .forwarded
    · simp [structured]
    · cases a.port with
      | none => simp [structured]
      | some n => simp [structured]

theorem add_matches (alike : x.Matches y) (e : Evidence) : (x.add e).Matches (y.add e) := by
  cases e with
  | authority a p =>
      obtain ⟨host, priority⟩ := offer_same_host _ _ alike.host alike.priority a p
      exact { alike with host, priority }
  | authorityPort n p =>
      exact { alike with
        host := by simpa [add] using alike.host
        priority := by simpa [add] using alike.priority }
  | remote a p => exact { alike with remote := congrArg (·.offer a p) alike.remote }
  | remotePort n p => exact { alike with remote := congrArg (·.offerPort n p) alike.remote }
  | proto scheme p =>
      rw [add, add, offer_proto, offer_proto]
      exact { alike with proto := congrArg (prefer · (scheme, p)) alike.proto }
  | cipherSuite value => exact { alike with cipherSuite := rfl }
  | sslSessionId value => exact { alike with sslSessionId := rfl }

theorem add_all_matches (alike : x.Matches y) (evidence : List Evidence) :
    (x.addAll evidence).Matches (y.addAll evidence) := by
  induction evidence generalizing x y with
  | nil => exact alike
  | cons e rest ih => exact ih (x.add e) (y.add e) (add_matches x y alike e)

theorem add_all_append (evidence more : List Evidence) :
    x.addAll (evidence ++ more) = (x.addAll evidence).addAll more :=
  List.foldl_append

theorem add_all_last (evidence : List Evidence) (e : Evidence) :
    x.addAll (evidence ++ [e]) = (x.addAll evidence).add e :=
  add_all_append x evidence [e]

theorem add_port_matches (n : UInt16) (p : Priority) : (x.add (.authorityPort n p)).Matches x := by
  refine ⟨?_, ?_, rfl, rfl, rfl, rfl⟩
  · simp [add]
  · simp [add]

theorem prefer_again {α : Type} (kept : Option (Ranked α)) (a b : α) (p : Priority) :
    prefer (prefer kept (a, p)) (b, p) = prefer kept (a, p) := by
  by_cases above : outranks kept (a, p) = true
  · have taken : prefer kept (a, p) = some (a, p) := if_pos above
    rw [taken]
    exact if_neg (Candidate.below_self p)
  · have refused : prefer kept (a, p) = kept := if_neg above
    rw [refused]
    exact if_neg above

theorem add_proto_again (scheme scheme' : Scheme) (p : Priority) :
    (x.add (.proto scheme p)).add (.proto scheme' p) = x.add (.proto scheme p) := by
  rw [add, add, offer_proto, offer_proto, prefer_again]

theorem add_port_proto (n : UInt16) (scheme : Scheme) (p q : Priority) :
    (x.add (.proto scheme p)).add (.authorityPort n q) = (x.add (.authorityPort n q)).add (.proto scheme p) := by
  simp only [add, offer_proto]

end Context

namespace Evidence

def isListed : Role → Bool
  | .forwarded | .host | .server | .for_ | .port | .proto => true
  | .https | .cipherSuite | .sslSessionId => false

variable (c : Config) (role : Role)

theorem of_line_listed (listed : isListed role = true) (value : Value) (evidence : List Evidence) :
    ofLine c role value = .ok evidence ↔ ∃ text, value.text? = some text ∧ ofText c role text = .ok evidence := by
  cases read : value.text? with
  | none =>
      cases role with
      | https | cipherSuite | sslSessionId => cases listed
      | _ => simp [ofLine, read]
  | some text =>
      cases role with
      | https | cipherSuite | sslSessionId => cases listed
      | _ => simp [ofLine, read]

section Structured

theorem of_elements_append (es es' : List QuotedList.Element) (evidence : List Evidence) :
    ofElements c (es ++ es') = .ok evidence ↔
      ∃ first others, ofElements c es = .ok first ∧ ofElements c es' = .ok others ∧ first ++ others = evidence := by
  induction es generalizing evidence with
  | nil => simp [ofElements]
  | cons e rest ih =>
      simp only [List.cons_append, ofElements, bind_ok, ih, Except.ok.injEq]
      constructor
      · rintro ⟨front, here, _, ⟨middle, back, between, there, rfl⟩, rfl⟩
        exact ⟨front ++ middle, back, ⟨front, here, middle, between, rfl⟩, there, List.append_assoc _ _ _⟩
      · rintro ⟨_, back, ⟨front, here, middle, between, rfl⟩, there, rfl⟩
        exact ⟨front, here, middle ++ back, ⟨middle, back, between, there, rfl⟩, (List.append_assoc _ _ _).symm⟩

theorem structured_ok (text : Text) (evidence : List Evidence) :
    ofText c .forwarded text = .ok evidence ↔ ∃ es, QuotedList.read text = .ok es ∧ ofElements c es = .ok evidence := by
  rw [ofText, bind_ok]

theorem structured_append (s t : Text) (closed : QuotedList.scan .outside s = .outside) (evidence : List Evidence) :
    ofText c .forwarded (s ++ ',' :: ' ' :: t) = .ok evidence ↔
      ∃ first others, ofText c .forwarded s = .ok first ∧ ofText c .forwarded t = .ok others ∧
      first ++ others = evidence := by
  simp only [structured_ok, QuotedList.read_append s (' ' :: t) _ closed, QuotedList.read_blank ' ' (by decide) t]
  constructor
  · rintro ⟨_, ⟨es, es', here, there, rfl⟩, said⟩
    obtain ⟨first, others, front, back, rfl⟩ := (of_elements_append c es es' evidence).mp said
    exact ⟨first, others, ⟨es, here, front⟩, ⟨es', there, back⟩, rfl⟩
  · rintro ⟨first, others, ⟨es, here, said⟩, ⟨es', there, said'⟩, rfl⟩
    exact ⟨es ++ es', ⟨es, es', here, there, rfl⟩, (of_elements_append c es es' _).mpr
      ⟨first, others, said, said', rfl⟩⟩

end Structured

section Legacy

theorem left_most_append (s t : Text) : leftMost (s ++ ',' :: t) = leftMost s := by
  have same : (s ++ ',' :: t).takeWhile (· ≠ ',') = s.takeWhile (· ≠ ',') := by
    induction s with
    | nil => rfl
    | cons c rest ih =>
        by_cases comma : c = ','
        · simp [comma]
        · rw [List.cons_append, List.takeWhile_cons_of_pos (by simpa using comma),
            List.takeWhile_cons_of_pos (by simpa using comma), ih]
  rw [leftMost, same, leftMost]

theorem of_text_left_most (listed : isListed role = true) (legacy : role ≠ .forwarded) (s t : Text)
    (same : leftMost s = leftMost t) : ofText c role s = ofText c role t := by
  cases role with
  | forwarded => exact absurd rfl legacy
  | host => simp only [ofText, ofLeftMost, same]
  | server => simp only [ofText, ofLeftMost, same]
  | for_ => simp only [ofText, ofLeftMost, same]
  | port => simp only [ofText, same]
  | proto => simp only [ofText, same]
  | https => cases listed
  | cipherSuite => cases listed
  | sslSessionId => cases listed

theorem of_text_blank (listed : isListed role = true) (legacy : role ≠ .forwarded) (s : Text)
    (blank : leftMost s = none) :
    ofText c role s = .ok [] := by
  rw [of_text_left_most c role listed legacy s [] blank]
  cases role with
  | forwarded => exact absurd rfl legacy
  | server => exact ite_self (Except.ok [])
  | host => rfl
  | for_ => rfl
  | port => rfl
  | proto => rfl
  | https => cases listed
  | cipherSuite => cases listed
  | sslSessionId => cases listed

theorem left_most_absorbed (tell : Authority → Evidence)
    (again : ∀ (x : Context) (a b : Authority), (x.add (tell a)).add (tell b) = x.add (tell a)) (s t : Text)
    (evidence later : List Evidence) (said : ofLeftMost s tell = .ok evidence) (said' : ofLeftMost t tell = .ok later)
    (shown : leftMost s ≠ none) (x : Context) : (x.addAll evidence).addAll later = x.addAll evidence := by
  rcases of_left_most_ok s tell evidence said with ⟨blank, -⟩ | ⟨_, a, -, -, rfl⟩
  · exact absurd blank shown
  · rcases of_left_most_ok t tell later said' with ⟨-, rfl⟩ | ⟨_, b, -, -, rfl⟩
    · rfl
    · exact again x a b

def impliedPort (text : Text) : Option UInt16 := (leftMost text).bind fun scheme => Scheme.defaultPort? ⟨scheme⟩

theorem proto_ok (s : Text) (evidence : List Evidence) (said : ofText c .proto s = .ok evidence) :
    leftMost s = none ∧ evidence = [] ∨
      ∃ scheme, evidence = ((impliedPort s).toList.map fun n => authorityPort n .forwardedProto) ++
        [proto scheme .forwardedProto] := by
  rw [ofText] at said
  cases first : leftMost s with
  | none =>
      rw [first] at said
      exact .inl ⟨rfl, (Except.ok.inj said).symm⟩
  | some text =>
      rw [first, map_ok] at said
      obtain ⟨scheme, read, rfl⟩ := said
      obtain rfl := read_scheme_text text scheme read
      refine .inr ⟨⟨text⟩, ?_⟩
      rw [impliedPort, first, Option.bind_some, ofScheme]
      cases Scheme.defaultPort? ⟨text⟩ with
      | none => rfl
      | some n => rfl

theorem implied_port_positive (s : Text) (n : UInt16) (port : impliedPort s = some n) : 0 < n := by
  obtain ⟨scheme, -, default⟩ := Option.bind_eq_some_iff.mp port
  exact Scheme.fits_positive n ⟨scheme⟩ ((Scheme.default_port_iff ⟨scheme⟩ n).mp default)

theorem port_absorbed (s t : Text) (evidence later : List Evidence) (said : ofText c .port s = .ok evidence)
    (said' : ofText c .port t = .ok later) (shown : leftMost s ≠ none) (x : Context) :
    (x.addAll evidence).addAll later = x.addAll evidence := by
  rw [ofText] at said said'
  cases first : leftMost s with
  | none => exact absurd first shown
  | some port =>
      rw [first, map_ok] at said
      obtain ⟨n, read, rfl⟩ := said
      have positive := Authority.read_port_positive port n read
      cases second : leftMost t with
      | none =>
          rw [second] at said'
          obtain rfl := Except.ok.inj said'
          rfl
      | some port' =>
          rw [second, map_ok] at said'
          obtain ⟨m, -, rfl⟩ := said'
          unfold ofPort
          cases c.portAsAuthority with
          | true =>
              exact congrArg (fun a => { x with authority := a })
                (Candidate.offer_port_again x.authority n m _ positive)
          | false =>
              exact congrArg (fun a => { x with remote := a })
                (Candidate.offer_port_again x.remote n m _ positive)

theorem proto_absorbed (s t : Text) (evidence later : List Evidence) (said : ofText c .proto s = .ok evidence)
    (said' : ofText c .proto t = .ok later) (shown : leftMost s ≠ none) (x : Context) :
    ((x.addAll evidence).addAll later).Matches (x.addAll evidence) ∧
      ((impliedPort s = none → impliedPort t = none) → (x.addAll evidence).addAll later = x.addAll evidence) := by
  rcases proto_ok c s evidence said with ⟨blank, -⟩ | ⟨scheme, rfl⟩
  · exact absurd blank shown
  rcases proto_ok c t later said' with ⟨-, rfl⟩ | ⟨scheme', rfl⟩
  · exact ⟨Context.matches_refl _, fun _ => rfl⟩
  cases second : impliedPort t with
  | none =>
      have again (front : List Evidence) : (x.addAll (front ++ [proto scheme .forwardedProto])).add
          (.proto scheme' .forwardedProto) =
          x.addAll (front ++ [proto scheme .forwardedProto]) := by
        rw [Context.add_all_last, Context.add_proto_again]
      exact ⟨Context.matches_of_eq _ _ (again _), fun _ => again _⟩
  | some m =>
      cases first : impliedPort s with
      | some n =>
          have again : (x.add (.authorityPort n .forwardedProto)).add (.authorityPort m .forwardedProto) =
              x.add (.authorityPort n .forwardedProto) :=
            congrArg (fun a => { x with authority := a })
              (x.authority.offer_port_again n m _ (implied_port_positive s n first))
          have same : (((x.add (.authorityPort n .forwardedProto)).add (.proto scheme .forwardedProto)).add
              (.authorityPort m .forwardedProto)).add (.proto scheme' .forwardedProto) =
                (x.add (.authorityPort n .forwardedProto)).add (.proto scheme .forwardedProto) := by
            rw [Context.add_port_proto, again, Context.add_proto_again]
          exact ⟨Context.matches_of_eq _ _ same, fun _ => same⟩
      | none =>
          refine ⟨?_, fun implies => absurd (implies rfl) nofun⟩
          change (((x.add (.proto scheme .forwardedProto)).add (.authorityPort m .forwardedProto)).add
            (.proto scheme' .forwardedProto)).Matches
            (x.add (.proto scheme .forwardedProto))
          rw [Context.add_port_proto, Context.add_proto_again, ← Context.add_port_proto]
          exact Context.add_port_matches _ m _

theorem later_absorbed (listed : isListed role = true) (legacy : role ≠ .forwarded) (s t : Text)
    (evidence later : List Evidence)
    (said : ofText c role s = .ok evidence) (said' : ofText c role t = .ok later)
    (shown : leftMost s ≠ none) (x : Context) :
    ((x.addAll evidence).addAll later).Matches (x.addAll evidence) ∧
      ((role = .proto → impliedPort s = none → impliedPort t = none) →
        (x.addAll evidence).addAll later = x.addAll evidence) := by
  have absorbed (same : (x.addAll evidence).addAll later = x.addAll evidence) :
      ((x.addAll evidence).addAll later).Matches (x.addAll evidence) ∧
        ((role = .proto → impliedPort s = none → impliedPort t = none) →
          (x.addAll evidence).addAll later = x.addAll evidence) :=
    ⟨Context.matches_of_eq _ _ same, fun _ => same⟩
  have authority (p : Priority) (y : Context) (a b : Authority) :
      (y.add (.authority a p)).add (.authority b p) = y.add (.authority a p) :=
    congrArg (fun kept => { y with authority := kept }) (y.authority.offer_again a b p)
  have remote (p : Priority) (y : Context) (a b : Authority) :
      (y.add (.remote a p)).add (.remote b p) = y.add (.remote a p) :=
    congrArg (fun kept => { y with remote := kept }) (y.remote.offer_again a b p)
  cases role with
  | forwarded => exact absurd rfl legacy
  | host => exact absorbed (left_most_absorbed _ (authority _) s t _ _ said said' shown x)
  | server =>
      rw [ofText] at said said'
      by_cases proxy : c.proxyAsAuthority = true
      · rw [if_pos proxy] at said said'
        exact absorbed (left_most_absorbed _ (authority _) s t _ _ said said' shown x)
      · rw [if_neg proxy] at said said'
        obtain rfl := Except.ok.inj said'
        exact absorbed rfl
  | for_ => exact absorbed (left_most_absorbed _ (remote _) s t _ _ said said' shown x)
  | port => exact absorbed (port_absorbed c s t _ _ said said' shown x)
  | proto => exact (proto_absorbed c s t _ _ said said' shown x).imp_right fun same implies => same (implies rfl)
  | https => cases listed
  | cipherSuite => cases listed
  | sslSessionId => cases listed

end Legacy

end Evidence

end Forwarding

end Gateway
