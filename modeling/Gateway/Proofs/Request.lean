import Gateway.Proofs.Authority
import Gateway.Request

set_option autoImplicit false

namespace Gateway.Request

theorem set_authority_ok (r r' : Request) (a : Authority) :
    r.setAuthority a = .ok r' ↔
      ∃ value, Header.Value.ofText? a.render = some value ∧
        r' = { r.withHeaders (r.headers.insert .host value) with resolved := some a } := by
  unfold setAuthority
  cases Header.Value.ofText? a.render with
  | none => simp
  | some value => simp [eq_comm]

-- A change keeps the authority that was set; only a host that can stand in a header is ever set.
inductive Made : Request → Prop where
  | received (m : Message) : Made (ofMessage m)
  | changed (r r' : Request) (made : Made r) (kept : r'.resolved = r.resolved) : Made r'
  | settled (r r' : Request) (a : Authority) (made : Made r) (set : r.setAuthority a = .ok r') : Made r'

theorem made_resolved (r : Request) (made : r.Made) (a : Authority) (resolved : r.resolved = some a) :
    (Header.Value.ofText? a.host).isSome = true := by
  induction made with
  | received m => cases resolved
  | changed r r' made kept ih => exact ih (kept ▸ resolved)
  | settled r r' b made set ih =>
      obtain ⟨value, written, rfl⟩ := (set_authority_ok r r' b).mp set
      obtain rfl := Option.some.inj resolved
      rw [← Authority.render_legal b.host b.port]
      exact Option.isSome_of_eq_some written

theorem named_legal (m : Message) (a : Authority) (named : namedAuthority m = some a) :
    (Header.Value.ofText? a.host).isSome = true := by
  have legal (text : Text) (read : (Authority.read text).toOption = some a) :
      (Header.Value.ofText? a.host).isSome = true := by
    cases said : Authority.read text with
    | error e => simp [said, Except.toOption] at read
    | ok b =>
        obtain rfl : b = a := by simpa [said, Except.toOption] using read
        exact Authority.read_legal text b said
  unfold namedAuthority at named
  split at named
  · exact legal _ named
  · obtain ⟨text, -, read⟩ := Option.bind_eq_some_iff.mp named
    exact legal text read

theorem made_authority (r : Request) (made : r.Made) (a : Authority) (own : r.authority = some a) :
    (Header.Value.ofText? a.host).isSome = true := by
  unfold authority at own
  split at own
  · rename_i resolved
    exact made_resolved r made a (resolved.trans own)
  · exact named_legal r.message a own

end Gateway.Request
