import Gateway.Gzip.Policy
import Gateway.Proofs.Media

set_option autoImplicit false

namespace Gateway.Gzip

namespace MediaPattern

open Media

theorem is_pattern_read (s : Text) : isPattern s = (read? s).isSome := by
  unfold isPattern read?
  split
  · rename_i top cut
    rw [← Bool.not_or]
    cases top.isEmpty || top.contains '/' <;> rfl
  · exact Option.isSome_map.symm

theorem check_ok_iff (patterns : List Text) : check patterns = .ok () ↔ ∀ s ∈ patterns, (read? s).isSome = true := by
  induction patterns with
  | nil => exact ⟨fun _ => nofun, fun _ => rfl⟩
  | cons s rest ih =>
      rw [List.forall_mem_cons, ← ih, check, is_pattern_read]
      cases (read? s).isSome <;> simp

theorem read_all_ok (patterns : List Text) (checked : check patterns = .ok ()) :
    readAll patterns = .ok (patterns.filterMap read?) := by
  induction patterns with
  | nil => rfl
  | cons s rest ih =>
      rw [check_ok_iff, List.forall_mem_cons, ← check_ok_iff] at checked
      obtain ⟨given, others⟩ := checked
      obtain ⟨p, read⟩ := Option.isSome_iff_exists.mp given
      rw [readAll, List.filterMap_cons_some read, read, ih others]
      rfl

-- What a pattern stands for, said of the two texts: the same type and subtype, or the same main type.
def Covers (pattern t : Text) : Prop :=
  Text.lower (stripped pattern) = Text.lower (stripped t) ∨
    ∃ top, pattern = top ++ "/*".toList ∧ Text.lower top = Text.lower (topLevel t)

section Fitting

variable (main sub tail : Text) (written : IsWritten main sub tail)

theorem lower_parts : Text.lower (main ++ '/' :: sub) = Text.lower main ++ '/' :: Text.lower sub := List.map_append

include written

theorem top_level_spell : topLevel (spell main sub tail) = main :=
  top_level_before main _ (token_clean main (token_chars main written.main_token).2)

theorem lower_top (top : Text) (clean : '/' ∉ top)
    (same : Text.lower (stripped (top ++ "/*".toList)) = Text.lower (main ++ '/' :: sub)) :
    Text.lower top = Text.lower main := by
  have slash : '/' ∈ stripped (top ++ "/*".toList) := by
    have within : '/' ∈ Text.lower (stripped (top ++ "/*".toList)) := by
      rw [same, lower_parts]
      exact List.mem_append_right _ List.mem_cons_self
    obtain ⟨c, member, turned⟩ := List.mem_map.mp within
    rwa [(Text.slash_lower c).mp turned] at member
  have kept : stripped (top ++ "/*".toList) = top ++ "/*".toList := by
    rw [stripped, List.takeWhile_append] at slash ⊢
    split at slash
    · rename_i whole
      exact if_pos whole
    · exact absurd ((List.takeWhile_sublist _).subset slash) clean
  calc
    Text.lower top = Text.lower (topLevel (top ++ "/*".toList)) := by
      rw [show topLevel (top ++ "/*".toList) = top from top_level_before top ['*'] clean]
    _ = topLevel (Text.lower (stripped (top ++ "/*".toList))) := by rw [kept, top_level_lower]
    _ = Text.lower (topLevel (main ++ '/' :: sub)) := by rw [same, top_level_lower]
    _ = Text.lower main := by
      rw [top_level_before main sub (token_clean main (token_chars main written.main_token).2)]

theorem covers_main (top : Text) (clean : '/' ∉ top) :
    Covers (top ++ "/*".toList) (spell main sub tail) ↔ Text.lower top = Text.lower main := by
  unfold Covers
  rw [stripped_spell main sub tail written, top_level_spell main sub tail written]
  constructor
  · rintro (same | ⟨other, whole, same⟩)
    · exact lower_top main sub tail written top clean same
    · rwa [List.append_cancel_right whole]
  · exact fun same => .inr ⟨top, rfl, same⟩

theorem covers_exact (s main' sub' tail' : Text) (other : Text.withoutEnd "/*".toList s = none)
    (whole : s = spell main' sub' tail') (written' : IsWritten main' sub' tail') :
    Covers s (spell main sub tail) ↔ Text.lower (main' ++ '/' :: sub') = Text.lower (main ++ '/' :: sub) := by
  have plain (top : Text) : s ≠ top ++ "/*".toList := fun same => by
    rw [(Text.without_end_iff _ s top).mpr same] at other
    cases other
  unfold Covers
  rw [stripped_spell main sub tail written, whole, stripped_spell main' sub' tail' written', ← whole]
  constructor
  · rintro (same | ⟨top, ends, -⟩)
    · exact same
    · exact absurd ends (plain top)
  · exact .inl

theorem fits_iff (s : Text) (p : MediaPattern) (read : read? s = some p) :
    p.fits ⟨Text.lower main, Text.lower sub⟩ = true ↔ Covers s (spell main sub tail) := by
  unfold read? at read
  split at read
  · rename_i top cut
    obtain rfl := (Text.without_end_iff _ s top).mp cut
    split at read
    · cases read
    · rename_i legal
      have clean : '/' ∉ top := fun member => legal (by rw [List.contains_iff_mem.mpr member, Bool.or_true])
      obtain rfl := Option.some.inj read
      rw [covers_main main sub tail written top clean]
      change decide (Text.lower main = Text.lower top) = true ↔ _
      rw [decide_eq_true_iff, eq_comm]
  · rename_i other
    obtain ⟨m, known, rfl⟩ := Option.map_eq_some_iff.mp read
    obtain ⟨main', sub', tail', written', whole, rfl⟩ := read_sound s m known
    rw [covers_exact main sub tail written s main' sub' tail' other whole written', lower_parts, lower_parts]
    change decide (essence ⟨Text.lower main, Text.lower sub⟩ = essence ⟨Text.lower main', Text.lower sub'⟩) = true ↔ _
    rw [decide_eq_true_iff, eq_comm]
    simp only [essence, List.append_assoc, List.singleton_append]

end Fitting

end MediaPattern

namespace Config

theorem validate_ok_iff (c : Config) :
    c.validate = .ok () ↔ ¬ c.bufferSize < minBufferSize ∧ ¬ 9 < c.level ∧ (readMethods c.methods).isOk = true ∧
      MediaPattern.check c.excludedMedia = .ok () := by
  unfold validate
  split
  · rename_i small
    simp [small]
  · rename_i large
    split
    · rename_i high
      simp [high]
    · rename_i low
      cases readMethods c.methods with
      | error e => simp [Except.isOk, Except.toBool, bind, Except.bind]
      | ok methods => simp [large, low, Except.isOk, Except.toBool, bind, Except.bind]

theorem valid_perm (c : Config) (patterns : List Text) (valid : c.validate = .ok ())
    (order : patterns.Perm c.excludedMedia) :
    { c with excludedMedia := patterns }.validate = .ok () := by
  rw [validate_ok_iff, MediaPattern.check_ok_iff] at valid ⊢
  obtain ⟨large, low, methods, checked⟩ := valid
  exact ⟨large, low, methods, fun s member => checked s (order.subset member)⟩

end Config

namespace Policy

open Media MediaPattern

variable {κ : Type}

theorem of_config_ok (c : Config) (valid : c.validate = .ok ()) :
    ofConfig c = .ok
      (⟨c.excludedMedia.filterMap read?, c.minSize⟩, (.new c.poolCapacity c.level : Deflate.Pool κ)) := by
  have checked := (c.validate_ok_iff.mp valid).2.2.2
  unfold ofConfig
  rw [valid, read_all_ok c.excludedMedia checked]
  rfl

variable (p : Policy)

theorem allows_written (main sub tail : Text) (written : IsWritten main sub tail) :
    p.allows (spell main sub tail) = !p.excluded.any (·.fits ⟨Text.lower main, Text.lower sub⟩) := by
  obtain ⟨kept, trimmed, follows⟩ := spell_trimmed main sub tail written
  have read := read_written main sub kept ⟨written.main_token, written.sub_chars, follows⟩
  unfold allows
  rw [trimmed, read]

theorem allows_framed (before s after : Text) (blank : ∀ c ∈ before, Text.isBlank c = true)
    (blank' : ∀ c ∈ after, Text.isBlank c = true) : p.allows (before ++ s ++ after) = p.allows s := by
  unfold allows
  rw [Text.trim_framed before s after blank blank']

theorem allows_perm (q : Policy) (order : q.excluded.Perm p.excluded) (s : Text) : q.allows s = p.allows s := by
  unfold allows
  cases Media.read? (Text.trim s) with
  | none => rfl
  | some m => simp only [order.any_eq]

structure Screens (patterns : List Text) (allowed : Text → Bool) : Prop where
  decides : ∀ t, (Media.read? t).isSome = true → (allowed t = false ↔ ∃ pattern ∈ patterns, Covers pattern t)
  framed : ∀ before s after, (∀ c ∈ before, Text.isBlank c = true) → (∀ c ∈ after, Text.isBlank c = true) →
    allowed (before ++ s ++ after) = allowed s
  respelled : ∀ main sub tail main' sub' tail', IsWritten main sub tail → Text.lower main' = Text.lower main →
    Text.lower sub' = Text.lower sub → IsTail sub' tail' →
    (Media.read? (spell main' sub' tail')).isSome = true ∧
      allowed (spell main' sub' tail') = allowed (spell main sub tail)

theorem screens (patterns : List Text) (minSize : Nat) (checked : MediaPattern.check patterns = .ok ()) :
    Screens patterns (allows ⟨patterns.filterMap read?, minSize⟩) where
  decides t given := by
    obtain ⟨main, sub, tail, written, rfl⟩ := (Media.read_iff t).mp given
    rw [allows_written _ main sub tail written, Bool.not_eq_false', List.any_eq_true]
    constructor
    · rintro ⟨q, member, fits⟩
      obtain ⟨pattern, listed, read⟩ := List.mem_filterMap.mp member
      exact ⟨pattern, listed, (fits_iff main sub tail written pattern q read).mp fits⟩
    · rintro ⟨pattern, listed, covers⟩
      obtain ⟨q, read⟩ := Option.isSome_iff_exists.mp ((check_ok_iff patterns).mp checked pattern listed)
      exact ⟨q, List.mem_filterMap.mpr ⟨pattern, listed, read⟩,
        (fits_iff main sub tail written pattern q read).mpr covers⟩
  framed := allows_framed _
  respelled main sub tail main' sub' tail' written mains subs follows := by
    have written' := written_respelled main sub tail main' sub' tail' written mains subs follows
    rw [Media.read_iff]
    refine ⟨⟨main', sub', tail', written', rfl⟩, ?_⟩
    rw [allows_written _ main sub tail written, allows_written _ main' sub' tail' written', mains, subs]

theorem excludes (c : Config) (valid : c.validate = .ok ()) :
    ∃ (p : Policy) (engines : Deflate.Pool κ), ofConfig c = .ok (p, engines) ∧ Screens c.excludedMedia p.allows ∧
      ∀ patterns, patterns.Perm c.excludedMedia →
        ∃ (q : Policy) (others : Deflate.Pool κ), ofConfig { c with excludedMedia := patterns } = .ok (q, others) ∧
          ∀ s, q.allows s = p.allows s := by
  refine ⟨_, _, of_config_ok c valid, screens _ _ (c.validate_ok_iff.mp valid).2.2.2, fun patterns order => ?_⟩
  refine ⟨_, _, of_config_ok _ (c.valid_perm patterns valid order), fun s => ?_⟩
  exact allows_perm _ _ (order.filterMap MediaPattern.read?) s

def images : Config := { excludedMedia := ["*/*", "image/*", "Text/Plain; q=\"1\""].map String.toList }

theorem excludes_images :
    images.validate = .ok () ∧ ∃ (p : Policy) (engines : Deflate.Pool Unit), ofConfig images = .ok (p, engines) ∧
      Screens images.excludedMedia p.allows ∧ p.allows " TEXT/plain".toList = false ∧
      p.allows "image/svg+xml; a=".toList = false := by
  have valid : images.validate = .ok () := by decide
  obtain ⟨p, engines, made, screens, -⟩ := @excludes Unit images valid
  have plain : p.allows "TEXT/plain".toList = false :=
    (screens.decides _ (by decide)).mpr ⟨"Text/Plain; q=\"1\"".toList, by decide, .inl (by decide)⟩
  have vector : p.allows "image/svg+xml; a=".toList = false :=
    (screens.decides _ (by decide)).mpr ⟨"image/*".toList, by decide, .inr ⟨"image".toList, by decide, by decide⟩⟩
  have blank : ∀ c ∈ [' '], Text.isBlank c = true := by simp [Text.isBlank]
  have framed := screens.framed [' '] "TEXT/plain".toList [] blank nofun
  exact ⟨valid, p, engines, made, screens, framed.trans plain, vector⟩

-- A type with an empty subtype is read, but not with parameters behind it. What is not read is not left alone.
theorem parameters_unread :
    ¬ ∀ (c : Config) (p : Policy) (engines : Deflate.Pool Unit), ofConfig c = .ok (p, engines) →
      ∀ main sub params, IsWritten main sub [] → IsParams params →
        p.allows (spell main sub (';' :: params)) = p.allows (spell main sub []) := by
  intro same
  have written : IsWritten "image".toList [] [] := ⟨by decide, nofun, .inl rfl⟩
  have params : IsParams "charset=utf-8".toList := are_params_sound 14 _ (by decide)
  have alike := same images _ _ (of_config_ok images (by decide)) "image".toList [] _ written params
  exact absurd alike (by decide)

end Policy

end Gateway.Gzip
