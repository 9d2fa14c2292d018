import Gateway.Proofs.Deflate.Code

set_option autoImplicit false

namespace Gateway.Deflate

-- The octets before a place, the latest first, and those that came before all of them.
def before (data : Array UInt8) (i : Nat) (older : Bytes) : Bytes := (data.toList.take i).reverse ++ older

theorem before_succ (data : Array UInt8) (i : Nat) (older : Bytes) (inside : i < data.size) :
    before data (i + 1) older = data[i] :: before data i older := by
  simp [before, List.take_add_one, List.getElem?_eq_getElem (l := data.toList) (i := i) inside]

theorem before_get (data : Array UInt8) (i j : Nat) (older : Bytes) (below : j < i) (inside : i ≤ data.size) :
    (before data i older)[i - j - 1]? = data[j]? := by
  have length : (data.toList.take i).length = i := by simp [inside]
  rw [before, List.getElem?_append_left (by simp only [List.length_reverse]; omega),
    List.getElem?_reverse (by omega), length, show i - 1 - (i - j - 1) = j by omega,
    List.getElem?_take_of_lt below, Array.getElem?_toList]

theorem agreement_le (data : Array UInt8) (limit j i : Nat) : agreement data limit j i ≤ limit := by
  induction limit generalizing j i with
  | zero => simp [agreement]
  | succ limit ih =>
      rw [agreement]
      split
      · split
        · exact Nat.succ_le_succ (ih (j + 1) (i + 1))
        · omega
      · omega

theorem copy_back_agreement (data : Array UInt8) (limit j i : Nat) (older : Bytes) (below : j < i)
    (inside : i ≤ data.size) :
    i + agreement data limit j i ≤ data.size ∧
      copyBack (i - j) (agreement data limit j i) (before data i older) =
        some (before data (i + agreement data limit j i) older) := by
  induction limit generalizing j i with
  | zero => exact ⟨inside, rfl⟩
  | succ limit ih =>
      rw [agreement]
      split
      · rename_i a b earlier present
        split
        · rename_i same
          obtain ⟨here, value⟩ := Array.getElem?_eq_some_iff.mp present
          obtain ⟨room, copied⟩ := ih (j + 1) (i + 1) (by omega) here
          rw [Nat.add_sub_add_right, before_succ data i older here] at copied
          rw [copyBack, before_get data i j older below inside, earlier]
          refine ⟨by omega, ?_⟩
          dsimp only
          rw [same, ← value, copied, show i + 1 + agreement data limit (j + 1) (i + 1) =
            i + (agreement data limit (j + 1) (i + 1) + 1) by omega]
        · exact ⟨inside, rfl⟩
      · exact ⟨inside, rfl⟩

structure Stands (data : Array UInt8) (i : Nat) (older : Bytes) (p : Token × Nat) : Prop where
  fits : p.1.Fits
  forward : 0 < p.2
  inside : i + p.2 ≤ data.size
  apply : p.1.apply (before data i older) = some (before data (i + p.2) older)

theorem copy_at_stands (data : Array UInt8) (i j length distance : Nat) (older : Bytes) (inside : i ≤ data.size)
    (copy : copyAt? data i j = some (.copy length distance)) :
    Stands data i older (.copy length distance, length) := by
  unfold copyAt? at copy
  dsimp only at copy
  split at copy
  · rename_i chosen
    obtain ⟨below, near, long⟩ := chosen
    obtain ⟨rfl, rfl⟩ : agreement data longestCopy j i = length ∧ i - j = distance := by simpa using copy
    obtain ⟨room, copied⟩ := copy_back_agreement data longestCopy j i older below inside
    have positive : 0 < i - j := by omega
    refine ⟨⟨long, agreement_le data longestCopy j i, positive, near⟩, Nat.lt_of_lt_of_le (by decide) long, room, ?_⟩
    rw [Token.apply, if_neg (by omega), copied]
  · contradiction

theorem literal_stands (data : Array UInt8) (i : Nat) (older : Bytes) (inside : i < data.size) :
    Stands data i older (.literal (data.getD i 0), 1) := by
  have octet : data.getD i 0 = data[i] := by
    rw [Array.getD_eq_getD_getElem?, Array.getElem?_eq_getElem inside, Option.getD_some]
  exact ⟨trivial, Nat.one_pos, inside, by rw [before_succ data i older inside, ← octet, Token.apply]⟩

theorem token_at_stands (places : Places) (data : Array UInt8) (i : Nat) (older : Bytes) (inside : i < data.size) :
    Stands data i older (tokenAt places data i) := by
  rw [tokenAt]
  cases chosen : (places.suggest? data i).bind (copyAt? data i) with
  | none => exact literal_stands data i older inside
  | some t =>
      cases t with
      | literal b => exact literal_stands data i older inside
      | copy length distance =>
          obtain ⟨j, -, copy⟩ := Option.bind_eq_some_iff.mp chosen
          exact copy_at_stands data i j length distance older (by omega) copy

theorem tokens_from_expand (data : Array UInt8) (fuel i : Nat) (places : Places) (older : Bytes)
    (inside : i ≤ data.size) (enough : data.size ≤ i + fuel) :
    (∀ t ∈ tokensFrom data fuel i places, t.Fits) ∧
      Token.expand (before data i older) (tokensFrom data fuel i places) = some (before data data.size older) := by
  induction fuel generalizing i places with
  | zero =>
      obtain rfl : i = data.size := by omega
      simp [tokensFrom, Token.expand]
  | succ fuel ih =>
      by_cases here : i < data.size
      · have stands := token_at_stands places data i older here
        rw [tokensFrom, if_pos here]
        have forward := stands.forward
        obtain ⟨fit, rest⟩ := ih (i + (tokenAt places data i).2) (places.note data i) stands.inside (by omega)
        refine ⟨by simpa using ⟨stands.fits, fit⟩, ?_⟩
        dsimp only
        rw [Token.expand, stands.apply]
        exact rest
      · obtain rfl : i = data.size := by omega
        rw [tokensFrom, if_neg here]
        simp [Token.expand]

theorem tokens_fit (window block : Bytes) (t : Token) (member : t ∈ tokens window block) : t.Fits :=
  (tokens_from_expand _ _ _ _ [] (by simp) (by simp)).1 t member

theorem tokens_expand (window block older : Bytes) :
    Token.expand (window.reverse ++ older) (tokens window block) =
      some (block.reverse ++ (window.reverse ++ older)) := by
  have expanded := (tokens_from_expand (window ++ block).toArray block.length window.length
    (Places.noteFrom (window ++ block).toArray window.length 0 .empty) older (by simp) (by simp)).2
  have whole : before (window ++ block).toArray (window ++ block).toArray.size older =
      block.reverse ++ (window.reverse ++ older) := by
    simp [before, List.take_of_length_le]
  rw [whole] at expanded
  simpa [tokens, before] using expanded

end Gateway.Deflate
