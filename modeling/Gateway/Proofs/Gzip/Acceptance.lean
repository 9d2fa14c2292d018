import Gateway.Fixture
import Gateway.Gzip.Stage
import Gateway.Proofs.QuotedList

set_option autoImplicit false

namespace Gateway

namespace Gzip

open QuotedList (Element)

def offered (m : Header.Map) : List Text := (m.getAll .acceptEncoding).filterMap Header.Value.text?

def IsParsed (m : Header.Map) : Prop := ∀ text ∈ offered m, ∃ es, QuotedList.read text = .ok es

def Lists (m : Header.Map) (e : Element) : Prop := ∃ text ∈ offered m, ∃ es, QuotedList.read text = .ok es ∧ e ∈ es

def IsGzip (e : Element) : Prop := Text.same (e.value.getD []) "gzip".toList = true

def IsAny (e : Element) : Prop := e.value = some ['*']

-- The first weight of an element is not a number above zero.
def Refuses (e : Element) : Prop := ∃ q, e.param? ['q'] = some q ∧ Quality.isPositive? (Text.trim q) ≠ some true

instance (e : Element) : Decidable (IsGzip e) := inferInstanceAs (Decidable (_ = true))

instance (e : Element) : Decidable (IsAny e) := inferInstanceAs (Decidable (_ = _))

theorem wanted_iff (e : Element) : isWanted e = true ↔ ¬ Refuses e := by
  unfold isWanted Refuses
  cases e.param? ['q'] with
  | none => simp
  | some q => simp

instance (e : Element) : Decidable (Refuses e) :=
  decidable_of_iff (¬ isWanted e = true) (not_iff_comm.mp (wanted_iff e).symm)

theorem accepts_element_iff (e : Element) : acceptsElement e = true ↔ (IsGzip e ∨ IsAny e) ∧ ¬ Refuses e := by
  have any : e.value.getD [] = ['*'] ↔ IsAny e := by
    unfold IsAny
    cases e.value <;> simp
  rw [acceptsElement, Bool.and_eq_true, wanted_iff, namesGzip, Bool.or_eq_true, decide_eq_true_iff, any]
  rfl

theorem lists_iff (m : Header.Map) (es : List Element) (whole : QuotedList.readAll (offered m) = .ok es) (e : Element) :
    Lists m e ↔ e ∈ es := (QuotedList.mem_read_all _ es whole e).symm

theorem accepts_iff (m : Header.Map) :
    accepts m = true ↔ IsParsed m ∧ ∃ e, Lists m e ∧ (IsGzip e ∨ IsAny e) ∧ ¬ Refuses e := by
  have parsed : (∃ es, QuotedList.readAll (offered m) = .ok es) ↔ IsParsed m := QuotedList.read_all_ok (offered m)
  rw [accepts, show (m.getAll .acceptEncoding).filterMap Header.Value.text? = offered m from rfl, ← parsed]
  cases whole : QuotedList.readAll (offered m) with
  | error fault => simp
  | ok elements =>
      simp only [List.any_eq_true, accepts_element_iff, lists_iff m elements whole]
      exact (and_iff_right ⟨elements, rfl⟩).symm

theorem accepts_refused (m : Header.Map) :
    (accepts m = true ↔ IsParsed m ∧ ∃ e, Lists m e ∧ (IsGzip e ∨ IsAny e) ∧ ¬ Refuses e) ∧
    ((∀ e, Lists m e → IsGzip e → Refuses e) →
      (accepts m = true ↔ IsParsed m ∧ ∃ e, Lists m e ∧ IsAny e ∧ ¬ Refuses e)) := by
  refine ⟨accepts_iff m, ?_⟩
  intro refused
  rw [accepts_iff]
  refine and_congr_right fun _ => exists_congr fun e => and_congr_right fun listed => and_congr_left fun wanted => ?_
  exact or_iff_right fun gzip => wanted (refused e listed gzip)

def accepting (lines : List String) : Header.Map :=
  (Fixture.ofHeaders (lines.map fun line => ("accept-encoding".toList, line.toList))).message.headers

def refusing : Header.Map := accepting ["GZIP;q=0.00, br", "gzip; q=no, *;q=0"]

theorem accepts_refused_twice :
    (∀ e, Lists refusing e → IsGzip e → Refuses e) ∧ accepts refusing = false := by
  have whole : QuotedList.readAll (offered refusing) =
      .ok [⟨some "GZIP".toList, [(['q'], "0.00".toList)]⟩, ⟨some "br".toList, []⟩,
        ⟨some "gzip".toList, [(['q'], "no".toList)]⟩,
        ⟨some ['*'], [(['q'], ['0'])]⟩] := by decide +kernel
  have refused : ∀ e, Lists refusing e → IsGzip e → Refuses e := by
    simp only [lists_iff refusing _ whole]
    decide +kernel
  have none_for_any : ∀ e, Lists refusing e → IsAny e → Refuses e := by
    simp only [lists_iff refusing _ whole]
    decide +kernel
  refine ⟨refused, ?_⟩
  rw [← Bool.not_eq_true, (accepts_refused refusing).2 refused]
  rintro ⟨-, e, listed, any, wanted⟩
  exact wanted (none_for_any e listed any)

def overriding : Header.Map := accepting ["gzip;q=0, *;q=1"]

theorem refusal_overridden :
    IsParsed overriding ∧ (∃ e, Lists overriding e ∧ IsGzip e) ∧
    (∀ e, Lists overriding e → IsGzip e → Refuses e) ∧
    accepts overriding = true := by
  have whole : QuotedList.readAll (offered overriding) =
      .ok [⟨some "gzip".toList, [(['q'], ['0'])]⟩, ⟨some ['*'], [(['q'], ['1'])]⟩] := by decide +kernel
  refine ⟨(QuotedList.read_all_ok _).mp ⟨_, whole⟩, ?_, ?_, by decide +kernel⟩
  · simp only [lists_iff overriding _ whole]
    decide +kernel
  · simp only [lists_iff overriding _ whole]
    decide +kernel

end Gzip

end Gateway
