import Gateway.Proofs.Forwarding.Coherence
import Gateway.Proofs.Forwarding.Joining
import Gateway.Proofs.Forwarding.Noninterference

set_option autoImplicit false

namespace Gateway.Forwarding

open Header (Line Name Value)

def combined (r : Request) (name : Name) (first : Value) (rest : List Value) : Request :=
  r.withHeaders (r.headers.insert name (first.join rest))

def impliedPort? (value : Value) : Option UInt16 := value.text?.bind Evidence.impliedPort

def IsPorted (role : Role) (first : Value) (rest : List Value) : Prop :=
  role = .proto → impliedPort? first = none → ∀ v ∈ rest, impliedPort? v = none

instance (role : Role) (first : Value) (rest : List Value) : Decidable (IsPorted role first rest) :=
  inferInstanceAs (Decidable (_ → _ → _))

namespace Resolver

variable (s : Resolver) (r r' : Request) (name : Name) (role : Role) (first : Value) (rest : List Value)

-- No structured line ends inside a quoted string, and none of the legacy lines behind the first is faulty.
structure IsJoinable : Prop where
  closed : role = .forwarded → ∀ v ∈ first :: rest, ∀ text, v.text? = some text →
    QuotedList.scan .outside text = .outside
  sound : role ≠ .forwarded → ∀ v ∈ rest, s.IsReadable (name, v)

-- The first legacy line says something, unless none does.
def IsLed : Prop := role ≠ .forwarded → s.said (name, first) = [] → ∀ v ∈ rest, s.said (name, v) = []

instance : Decidable (s.IsLed name role first rest) := inferInstanceAs (Decidable (_ → _ → _))

theorem read_listed (plays : s.roles.get? name = some role) (listed : Evidence.isListed role = true) (value : Value)
    (evidence : List Evidence) :
    s.readLine (name, value) = .ok evidence ↔
      ∃ text, value.text? = some text ∧ Evidence.ofText s.config role text = .ok evidence := by
  rw [readLine, plays]
  exact Evidence.of_line_listed s.config role listed value evidence

theorem read_text (plays : s.roles.get? name = some role) (listed : Evidence.isListed role = true) (value : Value)
    (readable : s.IsReadable (name, value)) :
    ∃ text, value.text? = some text ∧ Evidence.ofText s.config role text = .ok (s.said (name, value)) := by
  obtain ⟨evidence, read⟩ := readable
  rw [s.said_ok _ evidence read]
  exact (s.read_listed name role plays listed value evidence).mp read

theorem joined_structured (plays : s.roles.get? name = some .forwarded)
    (closed : ∀ v ∈ first :: rest, ∀ text, v.text? = some text → QuotedList.scan .outside text = .outside)
    (evidence : List Evidence) :
    s.readLine (name, first.join rest) = .ok evidence ↔
      (∀ v ∈ first :: rest, s.IsReadable (name, v)) ∧
      (first :: rest).flatMap (fun v => s.said (name, v)) = evidence := by
  induction rest generalizing first evidence with
  | nil =>
      rw [List.forall_mem_singleton, List.flatMap_singleton]
      constructor
      · exact fun read => ⟨⟨evidence, read⟩, s.said_ok _ evidence read⟩
      · rintro ⟨⟨known, read⟩, rfl⟩
        rw [s.said_ok _ known read]
        exact read
  | cons next rest ih =>
      rw [List.forall_mem_cons] at closed
      have later := ih next closed.2
      rw [List.forall_mem_cons, List.flatMap_cons, s.read_listed name .forwarded plays rfl]
      constructor
      · rintro ⟨text, whole, said⟩
        obtain ⟨head, tail, here, there, rfl⟩ := (Header.Value.append_text first (next.join rest) text).mp whole
        obtain ⟨front, back, leads, follows, rfl⟩ :=
          (Evidence.structured_append s.config head tail (closed.1 head here) evidence).mp said
        have read := (s.read_listed name .forwarded plays rfl first front).mpr ⟨head, here, leads⟩
        obtain ⟨readable, told⟩ :=
          (later back).mp ((s.read_listed name .forwarded plays rfl (next.join rest) back).mpr ⟨tail, there, follows⟩)
        exact ⟨⟨⟨front, read⟩, readable⟩, by rw [s.said_ok _ front read, told]⟩
      · rintro ⟨⟨readable, others⟩, rfl⟩
        obtain ⟨head, here, said⟩ := s.read_text name .forwarded plays rfl first readable
        obtain ⟨tail, there, said'⟩ :=
          (s.read_listed name .forwarded plays rfl (next.join rest) _).mp ((later _).mpr ⟨others, rfl⟩)
        refine ⟨head ++ ',' :: ' ' :: tail, (Header.Value.append_text _ _ _).mpr ⟨head, tail, here, there, rfl⟩, ?_⟩
        exact (Evidence.structured_append s.config head tail (closed.1 head here) _).mpr ⟨_, _, said, said', rfl⟩

theorem joined_text (text : Text) (read : (first.join rest).text? = some text) :
    ∃ head, first.text? = some head ∧ Evidence.leftMost text = Evidence.leftMost head := by
  cases rest with
  | nil => exact ⟨text, read, rfl⟩
  | cons next rest =>
      obtain ⟨head, tail, here, -, rfl⟩ := (Header.Value.append_text first (next.join rest) text).mp read
      exact ⟨head, here, Evidence.left_most_append head (' ' :: tail)⟩

theorem joined_legacy (plays : s.roles.get? name = some role) (listed : Evidence.isListed role = true)
    (legacy : role ≠ .forwarded)
    (texts : ∀ v ∈ rest, ∃ text, v.text? = some text) (evidence : List Evidence) :
    s.readLine (name, first.join rest) = .ok evidence ↔ s.readLine (name, first) = .ok evidence := by
  rw [s.read_listed name role plays listed, s.read_listed name role plays listed]
  constructor
  · rintro ⟨text, whole, said⟩
    obtain ⟨head, here, same⟩ := joined_text first rest text whole
    exact ⟨head, here, (Evidence.of_text_left_most s.config role listed legacy head text same.symm).trans said⟩
  · rintro ⟨head, here, said⟩
    obtain ⟨text, whole⟩ := Header.Value.join_readable first rest (List.forall_mem_cons.mpr ⟨⟨head, here⟩, texts⟩)
    obtain ⟨head', here', same⟩ := joined_text first rest text whole
    obtain rfl := Option.some.inj (here.symm.trans here')
    exact ⟨text, whole, (Evidence.of_text_left_most s.config role listed legacy text head same).trans said⟩

theorem lines_text (plays : s.roles.get? name = some role) (listed : Evidence.isListed role = true)
    (readable : ∀ v ∈ rest, s.IsReadable (name, v)) (v : Value) (member : v ∈ rest) : ∃ text, v.text? = some text := by
  obtain ⟨text, known, -⟩ := s.read_text name role plays listed v (readable v member)
  exact ⟨text, known⟩

theorem joined_readable (plays : s.roles.get? name = some role) (listed : Evidence.isListed role = true) :
    (∀ v ∈ first :: rest, s.IsReadable (name, v)) ↔
      s.IsReadable (name, first.join rest) ∧ s.IsJoinable name role first rest := by
  by_cases structured : role = .forwarded
  · subst structured
    constructor
    · intro readable
      have closed : ∀ v ∈ first :: rest, ∀ text, v.text? = some text → QuotedList.scan .outside text = .outside := by
        intro v member text known
        obtain ⟨text', known', said⟩ := s.read_text name .forwarded plays rfl v (readable v member)
        obtain rfl := Option.some.inj (known.symm.trans known')
        obtain ⟨es, read, -⟩ := (Evidence.structured_ok s.config text _).mp said
        exact QuotedList.read_closed text es read
      exact ⟨⟨_, (s.joined_structured name first rest plays closed _).mpr ⟨readable, rfl⟩⟩, fun _ => closed,
        fun other => absurd rfl other⟩
    · rintro ⟨⟨evidence, read⟩, joinable⟩
      exact ((s.joined_structured name first rest plays (joinable.closed rfl) evidence).mp read).1
  · have texts := s.lines_text name role rest plays listed
    rw [List.forall_mem_cons]
    constructor
    · rintro ⟨⟨evidence, read⟩, others⟩
      have same := s.joined_legacy name role first rest plays listed structured (texts others)
      exact ⟨⟨evidence, (same evidence).mpr read⟩, fun same => absurd same structured, fun _ => others⟩
    · rintro ⟨⟨evidence, read⟩, joinable⟩
      have others := joinable.sound structured
      have same := s.joined_legacy name role first rest plays listed structured (texts others)
      exact ⟨⟨evidence, (same evidence).mp read⟩, others⟩

theorem later_lines_absorbed (plays : s.roles.get? name = some role) (listed : Evidence.isListed role = true)
    (legacy : role ≠ .forwarded) (readable : ∀ v ∈ first :: rest, s.IsReadable (name, v))
    (shown : s.said (name, first) ≠ []) (x : Context) :
    ((x.addAll (s.said (name, first))).addAll (rest.flatMap fun v => s.said (name, v))).Matches
      (x.addAll (s.said (name, first))) ∧
      (IsPorted role first rest →
        (x.addAll (s.said (name, first))).addAll (rest.flatMap fun v => s.said (name, v)) =
          x.addAll (s.said (name, first))) := by
  rw [List.forall_mem_cons] at readable
  obtain ⟨head, known, said⟩ := s.read_text name role plays listed first readable.1
  have named : Evidence.leftMost head ≠ none := fun blank =>
    shown (Except.ok.inj (said.symm.trans (Evidence.of_text_blank s.config role listed legacy head blank)))
  induction rest with
  | nil => exact ⟨Context.matches_refl _, fun _ => rfl⟩
  | cons next rest ih =>
      obtain ⟨here, others⟩ := List.forall_mem_cons.mp readable.2
      obtain ⟨text, known', said'⟩ := s.read_text name role plays listed next here
      obtain ⟨alike, same⟩ := Evidence.later_absorbed s.config role listed legacy head text _ _ said said' named x
      obtain ⟨alike', same'⟩ := ih ⟨readable.1, others⟩
      rw [List.flatMap_cons, Context.add_all_append]
      refine ⟨Context.matches_trans _ _ _ (Context.add_all_matches _ _ alike _) alike', fun ported => ?_⟩
      have implies (proto : role = .proto) (none : Evidence.impliedPort head = none) :
          Evidence.impliedPort text = Option.none := by
        have unported := ported proto (by rw [impliedPort?, known]; exact none) next List.mem_cons_self
        rwa [impliedPort?, known'] at unported
      rw [same implies]
      exact same' fun proto none v member => ported proto none v (List.mem_cons_of_mem _ member)

theorem joined_said (plays : s.roles.get? name = some role) (listed : Evidence.isListed role = true)
    (readable : ∀ v ∈ first :: rest, s.IsReadable (name, v)) (led : s.IsLed name role first rest) (x : Context) :
    (x.addAll ((first :: rest).flatMap fun v => s.said (name, v))).Matches (x.addAll (s.said (name, first.join rest))) ∧
      (IsPorted role first rest →
        x.addAll ((first :: rest).flatMap fun v => s.said (name, v)) = x.addAll (s.said (name, first.join rest))) := by
  obtain ⟨⟨evidence, read⟩, joinable⟩ := (s.joined_readable name role first rest plays listed).mp readable
  rw [s.said_ok _ evidence read]
  by_cases structured : role = .forwarded
  · subst structured
    have same := ((s.joined_structured name first rest plays (joinable.closed rfl) evidence).mp read).2
    rw [same]
    exact ⟨Context.matches_refl _, fun _ => rfl⟩
  · have texts := s.lines_text name role rest plays listed (joinable.sound structured)
    have said :=
      s.said_ok _ evidence
        ((s.joined_legacy name role first rest plays listed structured texts evidence).mp read)
    rw [List.flatMap_cons, Context.add_all_append, ← said]
    by_cases silent : s.said (name, first) = []
    · rw [List.flatMap_eq_nil_iff.mpr (led structured silent)]
      exact ⟨Context.matches_refl _, fun _ => rfl⟩
    · exact s.later_lines_absorbed name role first rest plays listed structured readable silent x

section Combined

variable (values : r.headers.getAll name = first :: rest)

include values

theorem combined_readable (plays : s.roles.get? name = some role) (listed : Evidence.isListed role = true) :
    (∀ line ∈ r.headers.lines, s.IsReadable line) ↔
      (∀ line ∈ (combined r name first rest).headers.lines, s.IsReadable line) ∧ s.IsJoinable name role first rest := by
  obtain ⟨front, back, whole, changed⟩ := r.headers.insert_lines name first (first.join rest) rest values
  have lines : (combined r name first rest).headers.lines = front ++ (name, first.join rest) :: back := changed
  have joined := s.joined_readable name role first rest plays listed
  rw [whole, lines, List.forall_mem_append, List.forall_mem_append, List.forall_mem_append,
    List.forall_mem_cons, List.forall_mem_map,
    joined]
  constructor
  · rintro ⟨⟨fronts, here, joinable⟩, backs⟩
    exact ⟨⟨fronts, here, backs⟩, joinable⟩
  · rintro ⟨⟨fronts, here, backs⟩, joinable⟩
    exact ⟨⟨fronts, here, joinable⟩, backs⟩

theorem combined_found (plays : s.roles.get? name = some role) (listed : Evidence.isListed role = true)
    (start : s.start (combined r name first rest) = s.start r) (readable : ∀ line ∈ r.headers.lines, s.IsReadable line)
    (led : s.IsLed name role first rest) :
    (s.found r).Matches (s.found (combined r name first rest)) ∧
      (IsPorted role first rest → s.found r = s.found (combined r name first rest)) := by
  obtain ⟨front, back, whole, changed⟩ := r.headers.insert_lines name first (first.join rest) rest values
  have lines : (combined r name first rest).headers.lines = front ++ (name, first.join rest) :: back := changed
  rw [whole, List.forall_mem_append, List.forall_mem_append, List.forall_mem_map] at readable
  have mapped : ((first :: rest).map (name, ·)).flatMap s.said = (first :: rest).flatMap fun v => s.said (name, v) :=
    List.flatMap_map _ _ _
  rw [found_started, found_started, start, whole, lines, List.flatMap_append, List.flatMap_append, List.flatMap_append,
    List.flatMap_cons, mapped, Context.add_all_append, Context.add_all_append,
    Context.add_all_append, Context.add_all_append]
  obtain ⟨alike, same⟩ :=
    s.joined_said name role first rest plays listed readable.1.2 led ((s.start r).addAll (front.flatMap s.said))
  exact ⟨Context.add_all_matches _ _ alike _, fun ported => by rw [same ported]⟩

end Combined

theorem combined_start (own : name = .host → s.forcedHost.isSome = true ∨
      (combined r name first rest).authority = r.authority) :
    s.start (combined r name first rest) = s.start r := by
  have kept : name ≠ .host → (combined r name first rest).authority = r.authority := by
    intro other
    have host : (combined r name first rest).headers.get? .host = r.headers.get? .host := by
      rw [Header.Map.get?, Header.Map.get?]
      exact congrArg List.head? (r.headers.getAll_insert_other name .host _ (Ne.symm other))
    exact own_authority ⟨rfl, host, rfl, rfl, rfl, rfl⟩
  have same : s.forcedHost.isSome = true ∨ (combined r name first rest).authority = r.authority := by
    by_cases host : name = .host
    · exact own host
    · exact .inr (kept host)
  unfold start
  cases forced : s.forcedHost with
  | some a => rfl
  | none =>
      rw [forced] at same
      rw [same.resolve_left (by simp)]

theorem matching_agree (ok : (s.resolve r).2 = .ok ()) (ok' : (s.resolve r').2 = .ok ())
    (alike : (s.found r).Matches (s.found r'))
    (scheme : r.scheme = r'.scheme) (secure : r.secure = r'.secure) (remote : r.remote = r'.remote)
    (cipher : r.message.cipherSuite = r'.message.cipherSuite)
    (session : r.message.sslSessionId = r'.message.sslSessionId) :
    Agree (s.resolve r).1 (s.resolve r').1 := by
  have settled := s.resolve_settles r ok
  have settled' := s.resolve_settles r' ok'
  have forces : s.forces (s.found r) = s.forces (s.found r') := by
    simp only [Resolver.forces, Context.hasTls, alike.cipherSuite, alike.sslSessionId]
  constructor
  · rw [settled.scheme, settled'.scheme, forces, alike.proto, scheme]
  · rw [settled.secure, settled'.secure, forces, alike.proto, secure]
  · rw [settled.authority, settled'.authority]
    cases host : (s.found r').authority.host with
    | some text => simp [Candidate.authority?, alike.host, host]
    | none =>
        have unfound : (s.found r).authority.authority? = none := by rw [Candidate.authority?, alike.host, host]; rfl
        have unfound' : (s.found r').authority.authority? = none := by rw [Candidate.authority?, host]; rfl
        rw [unfound, unfound', s.unfound_authority r unfound, s.unfound_authority r' unfound']
  · rw [settled.remote, settled'.remote, alike.remote, remote]
  · rw [settled.cipherSuite, settled'.cipherSuite, alike.cipherSuite, cipher]
  · rw [settled.sslSessionId, settled'.sslSessionId, alike.sslSessionId, session]

theorem same_found_authority (ok : (s.resolve r).2 = .ok ()) (ok' : (s.resolve r').2 = .ok ())
    (same : s.found r = s.found r') :
    (s.resolve r).1.authority = (s.resolve r').1.authority := by
  rw [(s.resolve_settles r ok).authority, (s.resolve_settles r' ok').authority, same]
  cases found : (s.found r').authority.authority? with
  | some a => rfl
  | none => rw [s.unfound_authority r (same ▸ found), s.unfound_authority r' found]

theorem resolves_combined (c : Config) (configured : ofConfig c = .ok s) (made : r.Made)
    (plays : s.roles.get? name = some role)
    (listed : Evidence.isListed role = true) (values : r.headers.getAll name = first :: rest)
    (own : name = .host → s.forcedHost.isSome = true ∨ (combined r name first rest).authority = r.authority) :
    let r' := combined r name first rest
    ((s.resolve r).2 = .ok () ↔ (s.resolve r').2 = .ok () ∧ s.IsJoinable name role first rest) ∧
    ((s.resolve r).2 = .ok () → s.IsLed name role first rest →
      Agree (s.resolve r).1 (s.resolve r').1 ∧
      (IsPorted role first rest → (s.resolve r).1.authority = (s.resolve r').1.authority)) := by
  intro r'
  have made' : r'.Made := .changed r r' made rfl
  have success : (s.resolve r).2 = .ok () ↔ (s.resolve r').2 = .ok () ∧ s.IsJoinable name role first rest := by
    rw [s.succeeds_iff r c configured made, s.succeeds_iff r' c configured made']
    exact s.combined_readable r name role first rest values plays listed
  refine ⟨success, fun ok led => ?_⟩
  have ok' := (success.mp ok).1
  have start := s.combined_start r name first rest own
  obtain ⟨alike, same⟩ :=
    s.combined_found r name role first rest values plays listed start ((s.resolve_ok_iff r).mp ok).1 led
  exact ⟨s.matching_agree r r' ok ok' alike rfl rfl rfl rfl rfl,
    fun ported => s.same_found_authority r r' ok ok' (same ported)⟩

section Received

def hostName : Name := hostAlone.1

def protoName : Name := plain.1

def structuredName : Name := ⟨"forwarded".toList, by decide⟩

def valueOf (text : String) (legal : (Text.utf8 text.toList).all Header.isLegal = true := by decide) : Value :=
  ⟨Text.utf8 text.toList, legal⟩

-- The second host is cut off where the lines are put together, and the port goes with the first.
def repeated : Request :=
  received [("Host", "internal"), ("X-Forwarded-Host", "a.example:8443"), ("Accept", "text/html"),
    ("X-Forwarded-Host", "b.example")]

theorem resolves_combined_hosts :
    let first := valueOf "a.example:8443"
    let rest := [valueOf "b.example"]
    ofConfig {} = .ok standard ∧ repeated.Made ∧ standard.roles.get? hostName = some .host ∧
    repeated.headers.getAll hostName = first :: rest ∧ (standard.resolve repeated).2 = .ok () ∧
    (standard.resolve (combined repeated hostName first rest)).2 = .ok () ∧
    Agree (standard.resolve repeated).1 (standard.resolve (combined repeated hostName first rest)).1 ∧
    (standard.resolve repeated).1.authority = (standard.resolve (combined repeated hostName first rest)).1.authority ∧
    (standard.resolve repeated).1.authority = some ⟨"a.example".toList, some 8443⟩ := by
  intro first rest
  have made : repeated.Made := .received _
  obtain ⟨plays, values, ok, led, named⟩ :
      standard.roles.get? hostName = some .host ∧ repeated.headers.getAll hostName = first :: rest ∧
      (standard.resolve repeated).2 = .ok () ∧ standard.IsLed hostName .host first rest ∧
      (standard.resolve repeated).1.authority = some ⟨"a.example".toList, some 8443⟩ := by
    decide +kernel
  obtain ⟨success, outcome⟩ :=
    standard.resolves_combined repeated hostName .host first rest {} standard_configured made plays rfl
    values (fun host => absurd host (by decide))
  obtain ⟨agree, authority⟩ := outcome ok led
  exact ⟨standard_configured, made, plays, values, ok, (success.mp ok).1, agree, authority nofun, named⟩

-- A second entry that is no host.
def misnamed : Request := received [("X-Forwarded-Host", "a.example"), ("X-Forwarded-Host", "/")]

-- A first line without a host.
def belated : Request := received [("X-Forwarded-Host", ""), ("X-Forwarded-Host", "a.example")]

-- A first scheme that stands for no port.
def portable : Request := received [("Host", "internal"), ("X-Forwarded-Proto", "ftp"), ("X-Forwarded-Proto", "https")]

-- A quoted string that only the second line closes.
def unquoted : Request := received [("Forwarded", "host=a.example;ext=\"x"), ("Forwarded", "y\"")]

-- The peer is read from `Host`, which also names the authority.
def hosting : Resolver := (ofConfig { forHeader := some "Host".toList }).toOption.get (by decide +kernel)

def twofold : Request := received [("Host", "a.example"), ("Host", "b.example")]

theorem joining_matters :
    (misnamed.headers.getAll hostName = [valueOf "a.example", valueOf "/"] ∧ standard.roles.get? hostName = some .host ∧
      (standard.resolve misnamed).2 ≠ .ok () ∧
      (standard.resolve (combined misnamed hostName (valueOf "a.example") [valueOf "/"])).2 = .ok ()) ∧
    (belated.headers.getAll hostName = [valueOf "", valueOf "a.example"] ∧ (standard.resolve belated).2 = .ok () ∧
      (standard.resolve belated).1.authority ≠
        (standard.resolve (combined belated hostName (valueOf "") [valueOf "a.example"])).1.authority) ∧
    (portable.headers.getAll protoName = [valueOf "ftp", valueOf "https"] ∧
      standard.roles.get? protoName = some .proto ∧
      (standard.resolve portable).2 = .ok () ∧
      (standard.resolve portable).1.authority ≠
        (standard.resolve (combined portable protoName (valueOf "ftp") [valueOf "https"])).1.authority) ∧
    (unquoted.headers.getAll structuredName = [valueOf "host=a.example;ext=\"x", valueOf "y\""] ∧
      standard.roles.get? structuredName = some .forwarded ∧ (standard.resolve unquoted).2 ≠ .ok () ∧
      (standard.resolve
        (combined unquoted structuredName (valueOf "host=a.example;ext=\"x") [valueOf "y\""])).2 = .ok ()) ∧
    (twofold.headers.getAll .host = [valueOf "a.example", valueOf "b.example"] ∧ hosting.roles.get? .host = some .for_ ∧
      (hosting.resolve twofold).2 = .ok () ∧
      (hosting.resolve twofold).1.authority ≠
        (hosting.resolve (combined twofold .host (valueOf "a.example") [valueOf "b.example"])).1.authority) := by
  decide +kernel

end Received

end Resolver

end Gateway.Forwarding
