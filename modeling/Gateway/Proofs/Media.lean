import Gateway.Media
import Gateway.Proofs.QuotedList.Writing

set_option autoImplicit false

namespace Gateway

namespace Token

theorem char_lower (c : Char) : isChar c.toLower = isChar c := by
  unfold Char.toLower
  split
  · rename_i upper
    have letter : c.isAlphanum = true := by
      have large : c.isUpper = true := decide_eq_true upper
      change (c.isUpper || c.isLower || c.isDigit) = true
      rw [large]
      rfl
    have small (d : Char) (turned : d.val = c.val + 32) : d.isAlphanum = true := by
      have bounds : d.val ≥ 'a'.val ∧ d.val ≤ 'z'.val := by
        rw [turned]
        exact ⟨by grind, by grind⟩
      have little : d.isLower = true := Bool.and_eq_true_iff.mpr ⟨decide_eq_true bounds.1, decide_eq_true bounds.2⟩
      change (d.isUpper || d.isLower || d.isDigit) = true
      rw [little, Bool.or_true]
      rfl
    unfold isChar
    rw [letter, small _ rfl]
    rfl
  · rfl

end Token

namespace Media

def IsSpaces (s : Text) : Prop := ∀ c ∈ s, c = ' '

theorem spaces_split (s : Text) :
    s.takeWhile (· = ' ') ++ s.dropWhile (· = ' ') = s ∧ IsSpaces (s.takeWhile (· = ' ')) :=
  ⟨List.takeWhile_append_dropWhile, fun _ member => by simpa using List.mem_takeWhile_imp member⟩

theorem spaces_dropped (spaces rest : Text) (padded : IsSpaces spaces) (solid : ∀ c ∈ rest.head?, c ≠ ' ') :
    (spaces ++ rest).dropWhile (· = ' ') = rest :=
  (Text.span_exact (· = ' ') spaces rest (fun c member => by simpa using padded c member)
    fun c leads => by simpa using solid c leads).2

theorem all_spaces_dropped (spaces : Text) (padded : IsSpaces spaces) : spaces.dropWhile (· = ' ') = [] := by
  have dropped := spaces_dropped spaces [] padded nofun
  rwa [List.append_nil] at dropped

theorem token_split (s : Text) : s.takeWhile Token.isChar ++ s.dropWhile Token.isChar = s ∧
    ∀ c ∈ s.takeWhile Token.isChar, Token.isChar c = true :=
  ⟨List.takeWhile_append_dropWhile, fun _ => List.mem_takeWhile_imp⟩

-- What stands behind an opening mark. The first character may be another mark, and there are no escapes.
inductive IsQuoted : Text → Prop where
  | mk (c : Char) (content spaces : Text) (first : isQuotable c = true)
      (inside : ∀ d ∈ content, isQuotable d = true ∧ d ≠ '"') (padded : IsSpaces spaces) :
      IsQuoted (c :: (content ++ '"' :: spaces))

inductive IsValue : Text → Prop where
  | token (s : Text) (token : Token.isToken s = true) : IsValue s
  | quoted (s : Text) (quoted : IsQuoted s) : IsValue ('"' :: s)

def IsLastValue (s : Text) : Prop := s = [] ∨ IsValue s

inductive IsParam (legal : Text → Prop) : Text → Prop where
  | mk (name value : Text) (named : Token.isToken name = true) (given : legal value) :
      IsParam legal (name ++ '=' :: value)

inductive IsParams : Text → Prop where
  | none (spaces : Text) (padded : IsSpaces spaces) : IsParams spaces
  | last (spaces param : Text) (padded : IsSpaces spaces) (legal : IsParam IsLastValue param) :
      IsParams (spaces ++ param)
  | more (spaces param rest : Text) (padded : IsSpaces spaces) (legal : IsParam IsValue param)
      (others : IsParams rest) :
      IsParams (spaces ++ (param ++ ';' :: rest))

inductive Leaves (last inner : Text → Prop) : Text → Rest → Prop where
  | ended (s : Text) (legal : last s) : Leaves last inner s .ended
  | more (s rest : Text) (legal : inner s) : Leaves last inner (s ++ ';' :: rest) (.more rest)

section Reading

variable (s : Text) (r : Rest)

theorem leaves_mono (last last' inner inner' : Text → Prop) (front : Text) (leaves : Leaves last inner s r)
    (lasts : ∀ t, last t → last' (front ++ t)) (inners : ∀ t, inner t → inner' (front ++ t)) :
    Leaves last' inner' (front ++ s) r := by
  cases leaves with
  | ended _ legal => exact .ended _ (lasts s legal)
  | more t rest legal =>
      rw [← List.append_assoc]
      exact .more _ rest (inners t legal)

theorem after_quoted_sound (read : afterQuoted s = r) : r = .fault ∨ Leaves IsSpaces IsSpaces s r := by
  obtain ⟨whole, padded⟩ := spaces_split s
  unfold afterQuoted at read
  split at read
  · rename_i none
    rw [none, List.append_nil] at whole
    subst read
    exact .inr (.ended s (whole ▸ padded))
  · rename_i rest found
    rw [found] at whole
    subst read
    rw [← whole]
    exact .inr (.more _ rest padded)
  · exact .inl read.symm

theorem after_quoted_complete (leaves : Leaves IsSpaces IsSpaces s r) : afterQuoted s = r := by
  unfold afterQuoted
  cases leaves with
  | ended _ padded =>
      rw [all_spaces_dropped s padded]
  | more spaces rest padded =>
      rw [spaces_dropped spaces (';' :: rest) padded (by simp)]
      rfl

theorem quoted_rest_sound (read : quotedRest s = r) : r = .fault ∨ Leaves IsQuoted IsQuoted s r := by
  cases s with
  | nil => exact .inl read.symm
  | cons c rest =>
      rw [quotedRest] at read
      by_cases first : isQuotable c = true
      · rw [if_neg (by simp [first])] at read
        have whole := List.takeWhile_append_dropWhile (p := fun d => isQuotable d && d != '"') (l := rest)
        have inside : ∀ d ∈ rest.takeWhile (fun d => isQuotable d && d != '"'), isQuotable d = true ∧ d ≠ '"' :=
          fun d member => by simpa using List.mem_takeWhile_imp member
        split at read
        · rename_i after found
          rw [found] at whole
          refine (after_quoted_sound after r read).imp_right fun leaves => ?_
          have quoted (spaces : Text) (padded : IsSpaces spaces) :
              IsQuoted (c :: (rest.takeWhile (fun d => isQuotable d && d != '"') ++ ['"']) ++ spaces) := by
            simpa using IsQuoted.mk c _ spaces first inside padded
          have step := leaves_mono after r _ _ _ _ _ leaves quoted quoted
          rw [← whole]
          simpa using step
        · exact .inl read.symm
      · rw [if_pos (by simp [first])] at read
        exact .inl read.symm

theorem quoted_rest_complete (leaves : Leaves IsQuoted IsQuoted s r) : quotedRest s = r := by
  have behind (c : Char) (content after : Text) (first : isQuotable c = true)
      (inside : ∀ d ∈ content, isQuotable d = true ∧ d ≠ '"') (t : Text) (whole : t = c :: (content ++ '"' :: after)) :
      quotedRest t = afterQuoted after := by
    have found := (Text.span_exact (fun d => isQuotable d && d != '"') content ('"' :: after)
      (fun d member => by simpa using inside d member) (by simp)).2
    rw [whole, quotedRest, first, found]
    rfl
  cases leaves with
  | ended _ quoted =>
      obtain ⟨c, content, spaces, first, inside, padded⟩ := quoted
      rw [behind c content spaces first inside _ rfl]
      exact after_quoted_complete _ _ (.ended spaces padded)
  | more t rest quoted =>
      obtain ⟨c, content, spaces, first, inside, padded⟩ := quoted
      rw [behind c content (spaces ++ ';' :: rest) first inside _ (by simp)]
      exact after_quoted_complete _ _ (.more spaces rest padded)

theorem token_chars (token : Token.isToken s = true) : s ≠ [] ∧ ∀ c ∈ s, Token.isChar c = true := by
  rw [Token.isToken, Bool.and_eq_true, List.all_eq_true] at token
  exact ⟨by simpa using token.1, token.2⟩

theorem chars_token (given : s ≠ []) (chars : ∀ c ∈ s, Token.isChar c = true) : Token.isToken s = true := by
  rw [Token.isToken, Bool.and_eq_true, List.all_eq_true]
  exact ⟨by simpa using given, chars⟩

theorem plain_rest_sound (read : plainRest s = r) : r = .fault ∨ Leaves IsLastValue IsValue s r := by
  obtain ⟨whole, chars⟩ := token_split s
  unfold plainRest at read
  dsimp only at read
  rw [Text.drop_span] at read
  split at read
  · rename_i none
    rw [none, List.append_nil] at whole
    rw [whole] at chars
    subst read
    right
    by_cases given : s = []
    · exact .ended s (.inl given)
    · exact .ended s (.inr (.token s (chars_token s given chars)))
  · rename_i rest found
    rw [found] at whole
    split at read
    · exact .inl read.symm
    · rename_i given
      subst read
      rw [← whole]
      exact .inr (.more _ rest (.token _ (chars_token _ (by simpa using given) chars)))
  · exact .inl read.symm

theorem mark_foreign : Token.isChar '"' = false ∧ Token.isChar ';' = false ∧ Token.isChar '=' = false ∧
    Token.isChar '/' = false ∧ Token.isChar ' ' = false := by decide

theorem plain_rest_complete (value : Text) (chars : ∀ c ∈ value, Token.isChar c = true) :
    plainRest value = .ended ∧ (value ≠ [] → ∀ rest, plainRest (value ++ ';' :: rest) = .more rest) := by
  constructor
  · have none : value.dropWhile Token.isChar = [] := List.dropWhile_eq_nil_iff.mpr chars
    unfold plainRest
    dsimp only
    rw [Text.drop_span, none]
  · intro given rest
    obtain ⟨taken, left⟩ := Text.span_exact Token.isChar value (';' :: rest) chars (by simp [mark_foreign])
    unfold plainRest
    dsimp only
    rw [Text.drop_span, taken, left]
    exact if_neg (by simpa using given)

theorem value_rest_sound (read : valueRest s = r) : r = .fault ∨ Leaves IsLastValue IsValue s r := by
  unfold valueRest at read
  split at read
  · rename_i t
    refine (quoted_rest_sound t r read).imp_right fun leaves => ?_
    exact leaves_mono t r _ _ _ _ ['"'] leaves (fun u quoted => .inr (.quoted u quoted)) fun u quoted =>
      .quoted u quoted
  · exact plain_rest_sound s r read

theorem value_rest_plain (c : Char) (rest : Text) (char : Token.isChar c = true) :
    valueRest (c :: rest) = plainRest (c :: rest) := by
  unfold valueRest
  split
  · rename_i same
    obtain ⟨rfl, -⟩ := List.cons.inj same
    exact absurd char (by simp [mark_foreign])
  · rfl

theorem value_rest_complete (leaves : Leaves IsLastValue IsValue s r) : valueRest s = r := by
  have plain (value : Text) (token : Token.isToken value = true) (after : Text) :
      valueRest (value ++ after) = plainRest (value ++ after) := by
    obtain ⟨given, chars⟩ := token_chars value token
    obtain ⟨c, others, rfl⟩ := List.exists_cons_of_ne_nil given
    exact value_rest_plain c (others ++ after) (chars c List.mem_cons_self)
  cases leaves with
  | ended _ legal =>
      rcases legal with rfl | value
      · rfl
      · cases value with
        | token _ token =>
            have same := plain s token []
            rw [List.append_nil] at same
            rw [same]
            exact (plain_rest_complete s (token_chars s token).2).1
        | quoted t quoted => exact quoted_rest_complete t _ (.ended t quoted)
  | more t rest legal =>
      cases legal with
      | token _ token =>
          obtain ⟨given, chars⟩ := token_chars t token
          rw [plain t token]
          exact (plain_rest_complete t chars).2 given rest
      | quoted t quoted => exact quoted_rest_complete (t ++ ';' :: rest) _ (.more t rest quoted)

theorem param_rest_sound (read : paramRest s = r) :
    r = .fault ∨ Leaves (IsParam IsLastValue) (IsParam IsValue) s r := by
  obtain ⟨whole, chars⟩ := token_split s
  unfold paramRest at read
  dsimp only at read
  rw [Text.drop_span] at read
  split at read
  · rename_i rest found
    rw [found] at whole
    split at read
    · exact .inl read.symm
    · rename_i given
      have named := chars_token _ (by simpa using given) chars
      refine (value_rest_sound rest r read).imp_right fun leaves => ?_
      have step :=
        leaves_mono rest r _ (IsParam IsLastValue) _ (IsParam IsValue)
          (s.takeWhile Token.isChar ++ ['=']) leaves
        (fun value legal => by simpa using IsParam.mk _ value named legal)
        fun value legal => by simpa using IsParam.mk _ value named legal
      rw [← whole]
      simpa using step
  · exact .inl read.symm

theorem param_rest_complete (leaves : Leaves (IsParam IsLastValue) (IsParam IsValue) s r) : paramRest s = r := by
  have behind (name value : Text) (named : Token.isToken name = true) :
      paramRest (name ++ '=' :: value) = valueRest value := by
    obtain ⟨given, chars⟩ := token_chars name named
    obtain ⟨taken, left⟩ := Text.span_exact Token.isChar name ('=' :: value) chars (by simp [mark_foreign])
    unfold paramRest
    dsimp only
    rw [Text.drop_span, taken, left]
    exact if_neg (by simpa using given)
  cases leaves with
  | ended _ param =>
      obtain ⟨name, value, named, legal⟩ := param
      rw [behind name value named]
      exact value_rest_complete value _ (.ended value legal)
  | more t rest param =>
      obtain ⟨name, value, named, legal⟩ := param
      rw [List.append_assoc, List.cons_append, behind name _ named]
      exact value_rest_complete _ _ (.more value rest legal)

end Reading

theorem are_params_blank (fuel : Nat) (s : Text) (padded : IsSpaces s) : areParams (fuel + 1) s = true := by
  rw [areParams, all_spaces_dropped s padded]

theorem param_head (legal : Text → Prop) (s : Text) (param : IsParam legal s) : ∃ c rest, s = c :: rest ∧ c ≠ ' ' := by
  obtain ⟨name, value, named, -⟩ := param
  obtain ⟨given, chars⟩ := token_chars name named
  obtain ⟨c, others, rfl⟩ := List.exists_cons_of_ne_nil given
  refine ⟨c, others ++ '=' :: value, rfl, ?_⟩
  rintro rfl
  exact absurd (chars ' ' List.mem_cons_self) (by simp [mark_foreign])

theorem are_params_padded (fuel : Nat) (spaces s rest : Text) (c : Char) (padded : IsSpaces spaces)
    (starts : s = c :: rest)
    (solid : c ≠ ' ') :
    (paramRest s = .ended → areParams (fuel + 1) (spaces ++ s) = true) ∧
      ∀ more, paramRest s = .more more → areParams (fuel + 1) (spaces ++ s) = areParams fuel more := by
  subst starts
  have left := spaces_dropped spaces (c :: rest) padded (by simpa using solid)
  constructor
  · intro read
    simp only [areParams, left, read]
  · intro more read
    simp only [areParams, left, read]

-- The induction is on the grammar; every parameter takes less of the text than there is fuel.
theorem are_params_complete (s : Text) (params : IsParams s) : ∀ fuel, s.length < fuel → areParams fuel s = true := by
  induction params with
  | none spaces padded =>
      intro fuel enough
      obtain ⟨n, rfl⟩ := Nat.exists_eq_add_of_lt enough
      exact are_params_blank _ spaces padded
  | last spaces param padded legal =>
      intro fuel enough
      obtain ⟨n, rfl⟩ := Nat.exists_eq_add_of_lt enough
      obtain ⟨c, rest, starts, solid⟩ := param_head _ param legal
      exact (are_params_padded _ spaces param rest c padded starts solid).1
        (param_rest_complete param _ (.ended param legal))
  | more spaces param rest padded legal others ih =>
      intro fuel enough
      obtain ⟨n, rfl⟩ := Nat.exists_eq_add_of_lt enough
      obtain ⟨c, tail, starts, solid⟩ := param_head _ param legal
      have ahead : param ++ ';' :: rest = c :: (tail ++ ';' :: rest) := by rw [starts, List.cons_append]
      have read := param_rest_complete _ _ (.more param rest legal)
      rw [(are_params_padded _ spaces _ _ c padded ahead solid).2 rest read]
      apply ih
      simp only [List.length_append, List.length_cons]
      omega

theorem are_params_sound (fuel : Nat) (s : Text) (read : areParams fuel s = true) : IsParams s := by
  induction fuel generalizing s with
  | zero => cases read
  | succ fuel ih =>
      obtain ⟨whole, padded⟩ := spaces_split s
      rw [areParams] at read
      rw [← whole]
      split at read
      · rename_i none
        rw [none, List.append_nil]
        exact .none _ padded
      · split at read
        · rename_i found
          rcases param_rest_sound _ _ found with fault | leaves
          · cases fault
          · generalize s.dropWhile (· = ' ') = t at leaves ⊢
            cases leaves with
            | ended _ legal => exact .last _ t padded legal
        · rename_i rest found
          rcases param_rest_sound _ _ found with fault | leaves
          · cases fault
          · generalize s.dropWhile (· = ' ') = t at leaves ⊢
            cases leaves with
            | more param _ legal => exact .more _ param rest padded legal (ih rest read)
        · cases read

def IsTail (sub tail : Text) : Prop := tail = [] ∨ sub ≠ [] ∧ ∃ params, tail = ';' :: params ∧ IsParams params

structure IsWritten (main sub tail : Text) : Prop where
  main_token : Token.isToken main = true
  sub_chars : ∀ c ∈ sub, Token.isChar c = true
  tail_follows : IsTail sub tail

def spell (main sub tail : Text) : Text := main ++ '/' :: (sub ++ tail)

theorem chars_respelled (s t : Text) (same : Text.lower t = Text.lower s) (chars : ∀ c ∈ s, Token.isChar c = true) :
    ∀ c ∈ t, Token.isChar c = true := by
  intro c member
  have turned : c.toLower ∈ Text.lower s := same ▸ List.mem_map_of_mem member
  obtain ⟨d, within, alike⟩ := List.mem_map.mp turned
  rw [← Token.char_lower c, ← alike, Token.char_lower]
  exact chars d within

theorem token_respelled (s t : Text) (same : Text.lower t = Text.lower s) (token : Token.isToken s = true) :
    Token.isToken t = true := by
  obtain ⟨given, chars⟩ := token_chars s token
  refine chars_token t (fun none => given ?_) (chars_respelled s t same chars)
  rw [none] at same
  exact List.map_eq_nil_iff.mp same.symm

theorem written_respelled (main sub tail main' sub' tail' : Text) (written : IsWritten main sub tail)
    (mains : Text.lower main' = Text.lower main) (subs : Text.lower sub' = Text.lower sub)
    (follows : IsTail sub' tail') :
    IsWritten main' sub' tail' :=
  ⟨token_respelled main main' mains written.main_token, chars_respelled sub sub' subs written.sub_chars, follows⟩

def Settles (legal : Text → Prop) (s : Text) : Prop :=
  ∃ kept spaces, s = kept ++ spaces ∧ IsSpaces spaces ∧ legal kept ∧ Text.IsFirm kept

theorem settles_firm (legal : Text → Prop) (s : Text) (here : legal s) (firm : Text.IsFirm s) : Settles legal s :=
  ⟨s, [], (List.append_nil s).symm, nofun, here, firm⟩

theorem settles_behind (legal legal' : Text → Prop) (front s : Text) (c : Char) (present : Text.isBlank c = false)
    (keeps : ∀ kept, legal kept → legal' (front ++ c :: kept)) (settles : Settles legal s) :
    Settles legal' (front ++ c :: s) := by
  obtain ⟨kept, spaces, rfl, padded, here, firm⟩ := settles
  exact ⟨front ++ c :: kept, spaces, by simp, padded, keeps kept here, Text.firm_behind front kept c present firm⟩

theorem token_firm (s : Text) (chars : ∀ c ∈ s, Token.isChar c = true) : Text.IsFirm s :=
  Text.firm_clean s fun c member => Token.char_present c (chars c member)

theorem value_settles (value : Text) (legal : IsLastValue value) : Settles IsLastValue value := by
  rcases legal with rfl | legal
  · exact settles_firm _ _ (.inl rfl) nofun
  · cases legal with
    | token _ token => exact settles_firm _ _ (.inr (.token value token)) (token_firm value (token_chars value token).2)
    | quoted t quoted =>
        obtain ⟨c, content, spaces, first, inside, padded⟩ := quoted
        refine ⟨'"' :: c :: (content ++ ['"']), spaces, by simp, padded, ?_, ?_⟩
        · exact .inr (.quoted _ (.mk c content [] first inside nofun))
        · exact Text.firm_behind ('"' :: c :: content) [] '"' rfl nofun

theorem params_settle (s : Text) (params : IsParams s) : Settles IsParams s := by
  induction params with
  | none spaces padded => exact ⟨[], spaces, rfl, padded, .none [] nofun, nofun⟩
  | last spaces param padded legal =>
      obtain ⟨name, value, named, legal⟩ := legal
      have step := settles_behind IsLastValue IsParams (spaces ++ name) value '=' rfl
        (fun kept here => by simpa using IsParams.last spaces _ padded (.mk name kept named here))
          (value_settles value legal)
      simpa using step
  | more spaces param rest padded legal others ih =>
      have step := settles_behind IsParams IsParams (spaces ++ param) rest ';' rfl
        (fun kept here => by simpa using IsParams.more spaces param kept padded legal here) ih
      simpa using step

section Whole

variable (main sub tail : Text)

theorem read_sub_complete (chars : ∀ c ∈ sub, Token.isChar c = true) (follows : IsTail sub tail) :
    readSub main (sub ++ tail) = some ⟨Text.lower main, Text.lower sub⟩ := by
  have stops : ∀ c ∈ tail.head?, Token.isChar c = false := by
    rcases follows with rfl | ⟨-, params, rfl, -⟩
    · exact nofun
    · simp [mark_foreign]
  obtain ⟨taken, left⟩ := Text.span_exact Token.isChar sub tail chars stops
  unfold readSub
  dsimp only
  rw [Text.drop_span, taken, left]
  rcases follows with rfl | ⟨given, params, rfl, legal⟩
  · rfl
  · have read := are_params_complete params legal _ (Nat.lt_succ_self _)
    exact (if_neg (by simpa using given)).trans (if_pos read)

theorem read_sub_sound (s : Text) (m : Media) (read : readSub main s = some m) :
    ∃ sub tail, s = sub ++ tail ∧ (∀ c ∈ sub, Token.isChar c = true) ∧ IsTail sub tail ∧
      m = ⟨Text.lower main, Text.lower sub⟩ := by
  obtain ⟨whole, chars⟩ := token_split s
  unfold readSub at read
  dsimp only at read
  rw [Text.drop_span] at read
  refine ⟨_, _, whole.symm, chars, ?_⟩
  split at read
  · rename_i none
    exact ⟨.inl none, (Option.some.inj read).symm⟩
  · rename_i params semicolon
    split at read
    · cases read
    · rename_i given
      split at read
      · rename_i legal
        refine ⟨.inr ⟨by simpa using given, params, semicolon, are_params_sound _ params legal⟩,
          (Option.some.inj read).symm⟩
      · cases read
  · cases read

theorem main_span (token : Token.isToken main = true) (rest : Text) :
    (main ++ '/' :: rest).takeWhile Token.isChar = main ∧ (main ++ '/' :: rest).dropWhile Token.isChar = '/' :: rest :=
  Text.span_exact Token.isChar main ('/' :: rest) (token_chars main token).2 (by simp [mark_foreign])

-- The asterisks need no case of their own.
theorem read_some_iff (s : Text) (m : Media) :
    read? s = some m ↔ ∃ rest, s.dropWhile Token.isChar = '/' :: rest ∧ s.takeWhile Token.isChar ≠ [] ∧
      readSub (s.takeWhile Token.isChar) rest = some m := by
  unfold read?
  by_cases star : s = "*/*".toList
  · rw [if_pos star, star]
    constructor
    · intro read
      exact ⟨['*'], rfl, List.cons_ne_nil '*' [], read⟩
    · rintro ⟨rest, slash, -, read⟩
      obtain rfl : ['*'] = rest := (List.cons.inj slash).2
      exact read
  · rw [if_neg star]
    dsimp only
    rw [Text.drop_span]
    constructor
    · intro read
      split at read
      · rename_i rest slash
        split at read
        · cases read
        · rename_i given
          exact ⟨rest, slash, by simpa using given, read⟩
      · cases read
    · rintro ⟨rest, slash, given, read⟩
      rw [slash]
      exact (if_neg (by simpa using given)).trans read

theorem read_written (written : IsWritten main sub tail) :
    read? (spell main sub tail) = some ⟨Text.lower main, Text.lower sub⟩ := by
  obtain ⟨token, chars, follows⟩ := written
  obtain ⟨taken, left⟩ := main_span main token (sub ++ tail)
  rw [read_some_iff, spell, taken, left]
  exact ⟨sub ++ tail, rfl, (token_chars main token).1, read_sub_complete main sub tail chars follows⟩

theorem read_sound (s : Text) (m : Media) (read : read? s = some m) :
    ∃ main sub tail, IsWritten main sub tail ∧ s = spell main sub tail ∧ m = ⟨Text.lower main, Text.lower sub⟩ := by
  obtain ⟨whole, chars⟩ := token_split s
  obtain ⟨rest, slash, given, found⟩ := (read_some_iff s m).mp read
  obtain ⟨sub, tail, rfl, sub_chars, follows, rfl⟩ := read_sub_sound _ rest m found
  rw [slash] at whole
  exact ⟨_, sub, tail, ⟨chars_token _ given chars, sub_chars, follows⟩, whole.symm, rfl⟩

theorem read_iff (s : Text) :
    (read? s).isSome = true ↔ ∃ main sub tail, IsWritten main sub tail ∧ s = spell main sub tail := by
  constructor
  · intro given
    obtain ⟨m, read⟩ := Option.isSome_iff_exists.mp given
    obtain ⟨main, sub, tail, written, whole, -⟩ := read_sound s m read
    exact ⟨main, sub, tail, written, whole⟩
  · rintro ⟨main, sub, tail, written, rfl⟩
    rw [read_written main sub tail written]
    rfl

theorem spell_starts (token : Token.isToken main = true) :
    ∃ c rest, spell main sub tail = c :: rest ∧ Text.isBlank c = false := by
  obtain ⟨given, chars⟩ := token_chars main token
  obtain ⟨c, others, rfl⟩ := List.exists_cons_of_ne_nil given
  exact ⟨c, _, rfl, Token.char_present c (chars c List.mem_cons_self)⟩

theorem tail_settles (follows : IsTail sub tail) :
    ∃ kept spaces, tail = kept ++ spaces ∧ IsSpaces spaces ∧ IsTail sub kept ∧
    (kept = [] ∨ ∃ t, kept = ';' :: t ∧ Text.IsFirm t) := by
  rcases follows with rfl | ⟨given, params, rfl, legal⟩
  · exact ⟨[], [], rfl, nofun, .inl rfl, .inl rfl⟩
  · obtain ⟨kept, spaces, rfl, padded, here, firm⟩ := params_settle params legal
    exact ⟨';' :: kept, spaces, rfl, padded, .inr ⟨given, kept, rfl, here⟩, .inr ⟨kept, rfl, firm⟩⟩

theorem spell_trimmed (written : IsWritten main sub tail) :
    ∃ kept, Text.trim (spell main sub tail) = spell main sub kept ∧ IsTail sub kept := by
  obtain ⟨kept, spaces, rfl, padded, follows, ends⟩ := tail_settles sub tail written.tail_follows
  have blank : ∀ c ∈ spaces, Text.isBlank c = true := by
    intro c member
    rw [padded c member]
    rfl
  have firm : Text.IsFirm (spell main sub kept) := by
    rcases ends with rfl | ⟨t, rfl, firm⟩
    · rw [spell, List.append_nil]
      exact Text.firm_behind main sub '/' rfl (token_firm sub written.sub_chars)
    · have whole : spell main sub (';' :: t) = (main ++ '/' :: sub) ++ ';' :: t := by simp [spell]
      rw [whole]
      exact Text.firm_behind _ t ';' rfl firm
  obtain ⟨c, rest, starts, present⟩ := spell_starts main sub kept written.main_token
  have whole : spell main sub (kept ++ spaces) = [] ++ spell main sub kept ++ spaces := by simp [spell]
  refine ⟨kept, ?_, follows⟩
  rw [whole, Text.trim_framed [] _ spaces nofun blank]
  exact Text.trim_settled _ rest c starts present firm

def stripped (s : Text) : Text := s.takeWhile (· ≠ ';')

def topLevel (s : Text) : Text := s.takeWhile (· ≠ '/')

theorem stripped_spell (written : IsWritten main sub tail) : stripped (spell main sub tail) = main ++ '/' :: sub := by
  have whole : spell main sub tail = (main ++ '/' :: sub) ++ tail := by simp [spell]
  have other (c : Char) (char : Token.isChar c = true) : c ≠ ';' := by
    rintro rfl
    exact absurd char (by simp [mark_foreign])
  rw [stripped, whole]
  refine (Text.span_exact (· ≠ ';') (main ++ '/' :: sub) tail ?_ ?_).1
  · intro c member
    rw [List.mem_append, List.mem_cons] at member
    rcases member with within | rfl | within
    · simpa using other c ((token_chars main written.main_token).2 c within)
    · rfl
    · simpa using other c (written.sub_chars c within)
  · rcases written.tail_follows with rfl | ⟨-, params, rfl, -⟩
    · exact nofun
    · simp

theorem top_level_before (top rest : Text) (clean : '/' ∉ top) : topLevel (top ++ '/' :: rest) = top := by
  have other : ∀ c ∈ top, decide (c ≠ '/') = true := fun c member => decide_eq_true (ne_of_mem_of_not_mem member clean)
  exact (Text.span_exact (· ≠ '/') top ('/' :: rest) other (by simp)).1

theorem token_clean (s : Text) (chars : ∀ c ∈ s, Token.isChar c = true) : '/' ∉ s :=
  fun member => absurd (chars '/' member) (by simp [mark_foreign])

theorem top_level_lower (s : Text) : topLevel (Text.lower s) = Text.lower (topLevel s) := by
  have same : (fun c : Char => decide (c ≠ '/')) ∘ Char.toLower = fun c => decide (c ≠ '/') := by
    funext c
    simp [Text.slash_lower]
  rw [topLevel, Text.lower, List.takeWhile_map, same]
  rfl

end Whole

end Media

end Gateway
