import Gateway.Scheme

set_option autoImplicit false

namespace Gateway.Scheme

theorem same_self (scheme : Scheme) : scheme.same scheme = true := beq_self_eq_true _

theorem read_text (text : Text) (scheme : Scheme) (said : read text = .ok scheme) : scheme = ⟨text⟩ := by
  unfold read at said
  split at said
  · cases said
  · split at said
    · exact (Except.ok.inj said).symm
    · cases said

def Fits (port : UInt16) (scheme : Scheme) : Prop :=
  port = 80 ∧ scheme.same http = true ∨ port = 443 ∧ scheme.same https = true

theorem http_not_https (scheme : Scheme) (plain : scheme.same http = true) : ¬ scheme.same https = true := by
  intro secure
  rw [same, Text.same, beq_iff_eq] at plain secure
  exact absurd (plain.symm.trans secure) (by decide)

theorem default_port_iff (scheme : Scheme) (port : UInt16) : scheme.defaultPort? = some port ↔ Fits port scheme := by
  unfold defaultPort? Fits
  by_cases plain : scheme.same http = true
  · simp [plain, http_not_https scheme plain, eq_comm]
  · by_cases secure : scheme.same https = true
    · simp [plain, secure, eq_comm]
    · simp [plain, secure]

theorem fits_positive (port : UInt16) (scheme : Scheme) (fits : Fits port scheme) : 0 < port := by
  rcases fits with ⟨rfl, -⟩ | ⟨rfl, -⟩ <;> decide

end Gateway.Scheme
