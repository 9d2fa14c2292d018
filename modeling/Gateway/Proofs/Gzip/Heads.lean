import Gateway.Proofs.Gzip.Judgement
import Gateway.Proofs.Gzip.Tag

set_option autoImplicit false

namespace Gateway.Gzip

open Header (Map Name Value)

namespace Vary

theorem ensured_others (m : Map) (vary : Option Value) (name : Name) (other : name ≠ .vary) :
    (ensure? m vary).getAll name = m.getAll name := by
  cases vary with
  | none => rfl
  | some value => exact ensure_others m value name other

theorem ensured_congr (m m' : Map) (vary : Option Value) (same : m.getAll .vary = m'.getAll .vary) :
    (ensure? m vary).getAll .vary = (ensure? m' vary).getAll .vary := by
  cases vary with
  | none => exact same
  | some value =>
      have present : listed m = listed m' := by rw [listed, listed, same]
      rw [ensure?, ensure?, ensure, ensure, present]
      cases value.text? with
      | none => exact same
      | some wanted =>
          dsimp only
          cases listed m' with
          | nil => rw [Map.getAll_insert, Map.getAll_insert, if_pos rfl, if_pos rfl]
          | cons first others =>
              dsimp only
              cases (names wanted).filter (!isListed (first :: others) ·) with
              | nil => exact same
              | cons lacking rest =>
                  dsimp only
                  cases Value.ofText? (Text.join ", ".toList (first :: others ++ lacking :: rest)) with
                  | none => exact same
                  | some joined => rw [Map.getAll_insert, Map.getAll_insert, if_pos rfl, if_pos rfl]

def Lists (m : Map) (vary : Option Value) : Prop :=
  ∀ value text, vary = some value → value.text? = some text → ∀ name ∈ names text, isListed (listed m) name = true

theorem ensured_lists (m : Map) (vary : Option Value) : Lists (ensure? m vary) vary := by
  rintro value text rfl read name member
  exact ensure_lists m value text name read member

theorem lists_congr (m m' : Map) (vary : Option Value) (same : m.getAll .vary = m'.getAll .vary)
    (lists : Lists m vary) :
    Lists m' vary := by
  have present : listed m' = listed m := by rw [listed, listed, same]
  rw [Lists, present]
  exact lists

end Vary

def Retagged (m m' : Map) : Option Text → Prop
  | some tag => (m'.getAll .etag).map Value.text? = [some (Tag.gzip tag)]
  | none => m'.getAll .etag = m.getAll .etag

theorem retagged_congr (m a b : Map) (tag : Option Text) (same : a.getAll .etag = b.getAll .etag) :
    Retagged m a tag ↔ Retagged m b tag := by
  cases tag with
  | none => rw [Retagged, Retagged, same]
  | some tag => rw [Retagged, Retagged, same]

structure AmendedIn (names : List Name) (plain final : Head) : Prop where
  status : final.status = plain.status
  version : final.version = plain.version
  others : ∀ name, name ∉ names → final.headers.getAll name = plain.headers.getAll name

structure IsCoded (vary : Option Value) (plain final : Head) : Prop
    extends AmendedIn [.contentEncoding, .contentLength, .etag, .vary] plain final where
  coding : (final.headers.getAll .contentEncoding).map Value.text? = [some "gzip".toList]
  length : final.headers.getAll .contentLength = []
  tag : Retagged plain.headers final.headers ((plain.headers.get? .etag).bind Value.text?)
  lists : Vary.Lists final.headers vary
  vary : final.headers.getAll .vary = (Vary.ensure? plain.headers vary).getAll .vary

structure IsPassed (ensures : Prop) (vary : Option Value) (tag : Option Text) (plain final : Head) : Prop
    extends AmendedIn [.etag, .vary] plain final where
  tag : Retagged plain.headers final.headers tag
  ensured : ensures → final.headers.getAll .vary = (Vary.ensure? plain.headers vary).getAll .vary
  lists : ensures → Vary.Lists final.headers vary
  unensured : ¬ ensures → final.headers.getAll .vary = plain.headers.getAll .vary

def declaredLength (m : Map) : Option Nat :=
  ((m.get? .contentLength).bind Value.text?).bind fun text => Numeral.read? (UInt64.size - 1) (Text.trim text)

def bodyLength (m : Map) (last : Bool) (content : Option Bytes) : Option Nat :=
  (declaredLength m).or (if last then some (content.getD []).length else none)

namespace Response

variable {σ κ : Type} (r : Response σ κ)

def confirmed (m : Map) : Option Text :=
  match r.requestTags, (m.get? .etag).bind Value.text? with
  | some tags, some tag => if Text.occursIn (Tag.gzip tag) tags then some tag else none
  | _, _ => none

structure IsEligible (p : Policy) (head : Head) : Prop where
  status : 200 ≤ head.status ∧ head.status < 300 ∧ head.status ≠ 204 ∧ head.status ≠ 205
  type : ∀ value, head.headers.get? .contentType = some value → ∃ text, value.text? = some text ∧ p.allows text = true
  uncoded : head.headers.getAll .contentEncoding = []

structure IsCompressible (head : Head) (last : Bool)
    (content : Option Bytes) : Prop extends IsEligible r.policy head where
  length : ∀ n, bodyLength head.headers last content = some n → r.policy.minSize ≤ n
  left : r.resources.engines.checkedOut < r.resources.engines.capacity

theorem gzip_written (m : Map) (tag : Text) (read : (m.get? .etag).bind Value.text? = some tag) :
    ∃ value, Value.ofText? (Tag.gzip tag) = some value ∧ value.text? = some (Tag.gzip tag) := by
  obtain ⟨old, -, text⟩ := Option.bind_eq_some_iff.mp read
  exact Value.of_text_readable _ (Tag.gzip_readable tag (Value.text_readable old tag text))

theorem insert_tag (m : Map) (value : Value) (tag : Text) (read : value.text? = some (Tag.gzip tag)) :
    ((m.insert .etag value).getAll .etag).map Value.text? = [some (Tag.gzip tag)] := by
  rw [Map.getAll_insert, if_pos rfl, List.map_singleton, read]

theorem confirm_tag_retags (m : Map) : Retagged m (r.confirmTag m) (r.confirmed m) := by
  rw [confirmTag, confirmed]
  cases r.requestTags with
  | none => rfl
  | some tags =>
      cases read : (m.get? .etag).bind Value.text? with
      | none => rfl
      | some tag =>
          dsimp only
          by_cases named : Text.occursIn (Tag.gzip tag) tags = true
          · obtain ⟨value, written, again⟩ := gzip_written m tag read
            rw [if_pos named, if_pos named, written]
            exact insert_tag m value tag again
          · rw [if_neg named, if_neg named]
            rfl

theorem confirm_tag_passed (head : Head) :
    IsPassed True r.vary (r.confirmed head.headers) head
      { head with headers := Vary.ensure? (r.confirmTag head.headers) r.vary } where
  status := rfl
  version := rfl
  others name other := by
    rw [List.mem_pair, not_or] at other
    exact (Vary.ensured_others _ _ name other.2).trans (r.confirm_tag_others _ name other.1)
  tag := (retagged_congr head.headers _ _ _ (Vary.ensured_others _ _ .etag (by decide))).mpr
    (r.confirm_tag_retags head.headers)
  ensured _ := Vary.ensured_congr _ _ _ (r.confirm_tag_others _ .vary (by decide))
  lists _ := Vary.ensured_lists _ _
  unensured never := absurd trivial never

def recoded (m : Map) (coding : Value) : Map := (m.insert .contentEncoding coding).erase .contentLength

theorem recoded_others (m : Map) (coding : Value) (name : Name) (other : name ≠ .contentEncoding)
    (length : name ≠ .contentLength) : (recoded m coding).getAll name = m.getAll name := by
  rw [recoded, Map.getAll_erase, if_neg length, Map.getAll_insert_other _ _ _ _ other]

theorem compressed_cases (m : Map) : ∃ coding : Value, coding.text? = some "gzip".toList ∧
    ((∃ tag value, (m.get? .etag).bind Value.text? = some tag ∧ value.text? = some (Tag.gzip tag) ∧
      compressedHeaders m = (recoded m coding).insert .etag value) ∨
    (m.get? .etag).bind Value.text? = none ∧ compressedHeaders m = recoded m coding) := by
  have same (coding : Value) : ((m.insert .contentEncoding coding).erase .contentLength).get? .etag = m.get? .etag := by
    rw [Map.get?, Map.get?, ← recoded_others m coding .etag (by decide) (by decide), recoded]
  refine ⟨⟨Text.utf8 "gzip".toList, by decide⟩, by decide, ?_⟩
  cases read : (m.get? .etag).bind Value.text? with
  | none =>
      refine .inr ⟨rfl, ?_⟩
      simp only [compressedHeaders, same, read, recoded]
  | some tag =>
      obtain ⟨value, written, again⟩ := gzip_written m tag read
      refine .inl ⟨tag, value, rfl, again, ?_⟩
      simp only [compressedHeaders, same, read, written, recoded]

theorem compressed_others (m : Map) : ∃ coding : Value, coding.text? = some "gzip".toList ∧
    ∀ name, name ≠ .etag → (compressedHeaders m).getAll name = (recoded m coding).getAll name := by
  obtain ⟨coding, text, cases⟩ := compressed_cases m
  refine ⟨coding, text, fun name tag => ?_⟩
  rcases cases with ⟨_, value, -, -, whole⟩ | ⟨-, whole⟩
  · rw [whole, Map.getAll_insert_other _ _ _ _ tag]
  · rw [whole]

theorem compressed_retags (m : Map) : Retagged m (compressedHeaders m) ((m.get? .etag).bind Value.text?) := by
  obtain ⟨coding, -, ⟨tag, value, read, again, whole⟩ | ⟨unread, whole⟩⟩ := compressed_cases m
  · rw [read, whole]
    exact insert_tag (recoded m coding) value tag again
  · rw [unread, whole]
    exact recoded_others m coding .etag (by decide) (by decide)

theorem compressed_coded (head : Head) (vary : Option Value) :
    IsCoded vary head { head with headers := compressedHeaders (Vary.ensure? head.headers vary) } where
  status := rfl
  version := rfl
  others name other := by
    simp only [List.mem_cons, List.not_mem_nil, or_false, not_or] at other
    obtain ⟨unlike, length, tag, vary⟩ := other
    obtain ⟨coding, -, same⟩ := compressed_others (Vary.ensure? head.headers _)
    exact (same name tag).trans ((recoded_others _ coding name unlike length).trans (Vary.ensured_others _ _ name vary))
  coding := by
    obtain ⟨coding, text, same⟩ := compressed_others (Vary.ensure? head.headers vary)
    rw [same _ (by decide), recoded, Map.getAll_erase, if_neg (by decide), Map.getAll_insert, if_pos rfl,
      List.map_singleton, text]
  length := by
    obtain ⟨coding, -, same⟩ := compressed_others (Vary.ensure? head.headers vary)
    rw [same _ (by decide), recoded, Map.getAll_erase, if_pos rfl]
  tag := by
    have same := Vary.ensured_others head.headers vary .etag (by decide)
    have kept : (Vary.ensure? head.headers vary).get? .etag = head.headers.get? .etag := by
      rw [Map.get?, same, Map.get?]
    have retagged := compressed_retags (Vary.ensure? head.headers vary)
    rw [kept] at retagged
    cases read : (head.headers.get? .etag).bind Value.text? with
    | none =>
        rw [read] at retagged
        exact retagged.trans same
    | some tag =>
        rw [read] at retagged
        exact retagged
  vary := compressed_vary _
  lists := Vary.lists_congr _ _ vary (compressed_vary _).symm (Vary.ensured_lists head.headers vary)

theorem allows_iff (p : Policy) (head : Head) : allows p head = true ↔ IsEligible p head := by
  have status : allowsStatus head.status = true ↔
      200 ≤ head.status ∧ head.status < 300 ∧ head.status ≠ 204 ∧ head.status ≠ 205 := by
    simp [allowsStatus, and_assoc]
  have type : allowsType p head.headers = true ↔ ∀ value, head.headers.get? .contentType = some value →
      ∃ text, value.text? = some text ∧ p.allows text = true := by
    rw [allowsType]
    cases head.headers.get? .contentType with
    | none => exact iff_of_true rfl nofun
    | some value => cases read : value.text? <;> simp [read]
  have uncoded : (!head.headers.contains .contentEncoding) = true ↔ head.headers.getAll .contentEncoding = [] := by
    rw [Bool.not_eq_true', ← Bool.not_eq_true, Map.contains_values, Classical.not_not]
  rw [allows, Bool.and_eq_true, Bool.and_eq_true, status, type, uncoded]
  constructor
  · rintro ⟨⟨status, type⟩, uncoded⟩
    exact ⟨status, type, uncoded⟩
  · rintro ⟨status, type, uncoded⟩
    exact ⟨⟨status, type⟩, uncoded⟩

theorem known_length (m : Map) (last : Bool) (content : Option Bytes) :
    knownLength m last content = bodyLength m last content := by
  have content_length : (content.map List.length).getD 0 = (content.getD []).length := by cases content <;> rfl
  rw [knownLength, PayloadSize.ofHeaders, bodyLength, declaredLength, content_length]
  cases ((m.get? .contentLength).bind Value.text?).bind fun text =>
    Numeral.read? (UInt64.size - 1) (Text.trim text) with
  | none => rfl
  | some n => cases n <;> rfl

theorem body_length_congr (m m' : Map) (last : Bool) (content : Option Bytes)
    (same : m.getAll .contentLength = m'.getAll .contentLength) :
    bodyLength m last content = bodyLength m' last content := by
  rw [bodyLength, bodyLength, declaredLength, declaredLength, Map.get?, Map.get?, same]

theorem entry_iff (p : Policy) (engines : Deflate.Pool κ) (length : Option Nat) :
    (p.entry? engines length).isSome = true ↔
      (∀ n, length = some n → p.minSize ≤ n) ∧ engines.checkedOut < engines.capacity := by
  have acquired : engines.acquire?.isSome = true ↔ engines.checkedOut < engines.capacity := by
    rw [Deflate.Pool.acquire?]
    by_cases left : engines.checkedOut < engines.capacity
    · simp [left]
    · simp [left]
  cases length with
  | none => simpa [Policy.entry?] using acquired
  | some n =>
      by_cases short : n < p.minSize
      · simp [Policy.entry?, short, Nat.not_le_of_lt short]
      · simpa [Policy.entry?, short, Nat.le_of_not_lt short] using acquired

theorem eligible_other (p : Policy) (head : Head) (eligible : IsEligible p head) : head.status ≠ 304 := by
  intro same
  have below := eligible.status.2.1
  rw [same] at below
  exact absurd below (by decide)

theorem passed_congr (p q : Prop) (vary : Option Value) (tag : Option Text) (plain final : Head) (same : p ↔ q)
    (passed : IsPassed p vary tag plain final) : IsPassed q vary tag plain final := propext same ▸ passed

theorem unedited_passed (vary : Option Value) (head : Head) : IsPassed False vary none head head where
  status := rfl
  version := rfl
  others _ _ := rfl
  tag := rfl
  ensured := False.elim
  lists := False.elim
  unensured _ := rfl

theorem ensured_passed (vary : Option Value) (head : Head) :
    IsPassed True vary none head { head with headers := Vary.ensure? head.headers vary } where
  status := rfl
  version := rfl
  others name other := Vary.ensured_others _ _ name fun same => other (by simp [same])
  tag := Vary.ensured_others _ _ .etag (by decide)
  ensured _ := rfl
  lists _ := Vary.ensured_lists _ _
  unensured never := absurd trivial never

section Judging

variable (head : Head) (last : Bool) (content : Option Bytes)

theorem judge_eligible (eligible : IsEligible r.policy head) :
    r.judge head last content =
      (r.policy.entry? r.resources.engines (bodyLength head.headers last content)).elim
        (.plain (Vary.ensure? head.headers r.vary))
        fun choice => .coded (compressedHeaders (Vary.ensure? head.headers r.vary)) choice.1 choice.2 := by
  have allowed := (allows_iff r.policy head).mpr eligible
  have confirms := eligible_other r.policy head eligible
  have length : knownLength (Vary.ensure? head.headers r.vary) last content = bodyLength head.headers last content := by
    rw [known_length]
    exact body_length_congr _ _ last content (Vary.ensured_others _ _ .contentLength (by decide))
  simp only [judge, if_neg confirms, allowed, Bool.not_true, Bool.false_eq_true, if_false, length]
  cases r.policy.entry? r.resources.engines (bodyLength head.headers last content) with
  | none => rfl
  | some choice => rfl

theorem judge_refused (confirms : head.status ≠ 304) (refused : ¬ IsEligible r.policy head) :
    r.judge head last content = .plain head.headers := by
  have disallowed : (!allows r.policy head) = true := by
    rw [Bool.not_eq_true', ← Bool.not_eq_true, allows_iff]
    exact refused
  rw [judge, if_neg confirms, if_pos disallowed]

theorem judge_cases :
    (r.IsCompressible head last content ∧ ∃ headers entry engines,
      r.judge head last content = .coded headers entry engines ∧
      IsCoded r.vary head { head with headers }) ∨
    ¬ r.IsCompressible head last content ∧ ∃ headers, r.judge head last content = .plain headers ∧
      IsPassed (head.status = 304 ∨ IsEligible r.policy head) r.vary
        (if head.status = 304 then r.confirmed head.headers else none) head { head with headers } := by
  by_cases eligible : IsEligible r.policy head
  · have chosen := entry_iff r.policy r.resources.engines (bodyLength head.headers last content)
    rw [r.judge_eligible head last content eligible]
    cases given : r.policy.entry? r.resources.engines (bodyLength head.headers last content) with
    | some choice =>
        rw [given] at chosen
        obtain ⟨length, left⟩ := chosen.mp rfl
        exact .inl ⟨{ eligible with length, left }, _, _, _, rfl, compressed_coded head r.vary⟩
    | none =>
        rw [given] at chosen
        have unchosen : ¬ r.IsCompressible head last content := fun compressible =>
          Bool.false_ne_true (chosen.mpr ⟨compressible.length, compressible.left⟩)
        refine .inr ⟨unchosen, _, rfl, ?_⟩
        rw [if_neg (eligible_other r.policy head eligible)]
        exact passed_congr _ _ _ _ _ _ (iff_of_true trivial (.inr eligible)) (ensured_passed r.vary head)
  · refine .inr ⟨fun compressible => eligible compressible.toIsEligible, ?_⟩
    by_cases confirms : head.status = 304
    · refine ⟨_, by rw [judge, if_pos confirms], ?_⟩
      rw [if_pos confirms]
      exact passed_congr _ _ _ _ _ _ (iff_of_true trivial (.inl confirms)) (r.confirm_tag_passed head)
    · refine ⟨_, r.judge_refused head last content confirms eligible, ?_⟩
      rw [if_neg confirms]
      exact passed_congr _ _ _ _ _ _ (iff_of_false id (not_or_intro confirms eligible)) (unedited_passed r.vary head)

end Judging

end Response

end Gateway.Gzip
