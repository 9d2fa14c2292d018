import Gateway.Gzip.Response
import Gateway.Proofs.Gzip.Vary

set_option autoImplicit false

namespace Gateway.Gzip

open Header (Map Name)

variable {σ κ : Type}

def acceptEncoding : Text := "Accept-Encoding".toList

def Varies (m : Map) : Prop := Vary.isListed (Vary.listed m) acceptEncoding = true

instance (m : Map) : Decidable (Varies m) := inferInstanceAs (Decidable (_ = true))

def NamesCodings (vary : Option Header.Value) : Prop := ∃ value, vary = some value ∧ value.text? = some acceptEncoding

def IsAdded (plain final : Head) : Prop := final.isGzip = true ∧ plain.headers.contains .contentEncoding = false

instance (plain final : Head) : Decidable (IsAdded plain final) := inferInstanceAs (Decidable (_ ∧ _))

theorem varies_congr (a b : Map) (same : a.getAll .vary = b.getAll .vary) : Varies a ↔ Varies b := by
  rw [Varies, Varies, Vary.listed, Vary.listed, same]

theorem ensure_varies (m : Map) (vary : Option Header.Value) (names : NamesCodings vary) :
    Varies (Vary.ensure? m vary) := by
  obtain ⟨value, rfl, read⟩ := names
  exact Vary.ensure_lists m value acceptEncoding acceptEncoding read (by decide)

theorem ensure_coding (m : Map) (vary : Option Header.Value) :
    (Vary.ensure? m vary).getAll .contentEncoding = m.getAll .contentEncoding := by
  cases vary with
  | none => rfl
  | some value => exact Vary.ensure_others m value .contentEncoding (by decide)

theorem kept_unadded (plain final : Head)
    (kept : final.headers.getAll .contentEncoding = plain.headers.getAll .contentEncoding) : ¬ IsAdded plain final := by
  rintro ⟨coded, uncoded⟩
  have none_here : plain.headers.getAll .contentEncoding = [] := by
    by_cases none_here : plain.headers.getAll .contentEncoding = []
    · exact none_here
    · rw [(Map.contains_values _ _).mpr none_here] at uncoded
      cases uncoded
  rw [Head.isGzip, Map.get?, kept, none_here] at coded
  cases coded

structure Judged (p : Policy) (plain final : Head) : Prop where
  varies : Varies final.headers ↔ plain.status = 304 ∨ Response.allows p plain = true ∨ Varies plain.headers
  coding : final.headers.getAll .contentEncoding = plain.headers.getAll .contentEncoding ∨
    Response.allows p plain = true

theorem Judged.added_varies (p : Policy) (plain final : Head) (judged : Judged p plain final)
    (added : IsAdded plain final) :
    Varies final.headers := by
  rcases judged.coding with kept | allowed
  · exact (kept_unadded plain final kept added).elim
  · exact judged.varies.mpr (.inr (.inl allowed))

def Verdict.headers : Verdict κ → Map
  | .plain headers => headers
  | .coded headers _ _ => headers

namespace Response

variable (r : Response σ κ)

theorem confirm_tag_others (headers : Map) (name : Name) (other : name ≠ .etag) :
    (r.confirmTag headers).getAll name = headers.getAll name := by
  rw [confirmTag]
  cases r.requestTags with
  | none => rfl
  | some tags =>
      cases (headers.get? .etag).bind Header.Value.text? with
      | none => rfl
      | some tag =>
          by_cases named : Text.occursIn (Tag.gzip tag) tags = true
          · simp only [if_pos named]
            cases Header.Value.ofText? (Tag.gzip tag) with
            | none => rfl
            | some value => exact Map.getAll_insert_other _ _ _ _ other
          · simp only [if_neg named]

theorem compressed_vary (headers : Map) : (compressedHeaders headers).getAll .vary = headers.getAll .vary := by
  have coded (value : Header.Value) : ((headers.insert .contentEncoding value).erase .contentLength).getAll .vary =
      headers.getAll .vary := by
    rw [Map.getAll_erase, if_neg (by decide), Map.getAll_insert_other _ _ _ _ (by decide)]
  unfold compressedHeaders
  dsimp only
  split
  · split
    · rw [Map.getAll_insert_other _ _ _ _ (by decide)]
      exact coded _
    · exact coded _
  · exact coded _

theorem judge_judged (names : NamesCodings r.vary) (head : Head) (last : Bool) (content : Option Bytes) :
    Judged r.policy head { head with headers := (r.judge head last content).headers } := by
  unfold judge
  by_cases confirms : head.status = 304
  · rw [if_pos confirms]
    have varies := ensure_varies (r.confirmTag head.headers) r.vary names
    refine ⟨iff_of_true varies (.inl confirms), .inl ?_⟩
    exact (ensure_coding _ _).trans (confirm_tag_others r head.headers .contentEncoding (by decide))
  · rw [if_neg confirms]
    by_cases allowed : allows r.policy head = true
    · simp only [allowed, Bool.not_true, Bool.false_eq_true, if_false]
      have varies := ensure_varies head.headers r.vary names
      split
      · exact ⟨iff_of_true varies (.inr (.inl allowed)), .inr allowed⟩
      · refine ⟨iff_of_true ?_ (.inr (.inl allowed)), .inr allowed⟩
        exact (varies_congr _ _ (compressed_vary _)).mpr varies
    · simp only [allowed, Bool.not_false, if_true]
      refine ⟨?_, .inl rfl⟩
      rw [or_iff_right confirms, or_iff_right allowed]
      rfl

end Response

end Gateway.Gzip
