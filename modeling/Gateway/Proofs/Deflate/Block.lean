import Gateway.Proofs.Deflate.Matching

set_option autoImplicit false

namespace Gateway.Deflate

-- Reading octets leads from what was read before them to more, whatever comes after them.
def Continues (past bytes next : Bytes) : Prop :=
  ∀ fuel rest, 8 * (bytes.length + rest.length) < fuel → ∃ left, 8 * rest.length < left ∧
    readBlocks fuel past (unpack (bytes ++ rest)) = readBlocks left next (unpack rest)

def Ends (past bytes whole : Bytes) : Prop :=
  ∀ fuel, 8 * bytes.length < fuel → ∃ rest, rest.length < 8 ∧
    readBlocks fuel past (unpack bytes) = (whole, .ok rest)

theorem continues_nil (past : Bytes) : Continues past [] past :=
  fun fuel rest enough => ⟨fuel, by simpa using enough, rfl⟩

theorem continues_append (past a middle b next : Bytes) (first : Continues past a middle)
    (second : Continues middle b next) : Continues past (a ++ b) next := by
  intro fuel rest enough
  obtain ⟨left, enough', same⟩ := first fuel (b ++ rest) (by simp at enough ⊢; omega)
  obtain ⟨left', enough'', same'⟩ := second left rest (by simpa using enough')
  exact ⟨left', enough'', by rw [List.append_assoc, same, same']⟩

theorem continues_ends (past a middle b whole : Bytes) (first : Continues past a middle)
    (second : Ends middle b whole) : Ends past (a ++ b) whole := by
  intro fuel enough
  obtain ⟨left, enough', same⟩ := first fuel b (by simpa using enough)
  obtain ⟨rest, short, same'⟩ := second left enough'
  exact ⟨rest, short, by rw [same, same']⟩

theorem inflate_ends (stream whole : Bytes) (ends : Ends [] stream whole) :
    inflate? stream = some whole.reverse := by
  obtain ⟨rest, short, same⟩ := ends ((unpack stream).length + 1) (by simp)
  rw [inflate?, read, same]
  exact if_pos short

theorem read_blocks_header (fuel kind : Nat) (past next : Bytes) (final : Bool) (bits rest : Bits) (known : kind < 4)
    (body : readBody kind past bits = (next, .ok rest)) :
    readBlocks (fuel + 1) past (final :: (bitsOf 2 kind ++ bits)) =
      if final then (next, .ok rest) else readBlocks fuel next rest := by
  have first := take_bits [final] (bitsOf 2 kind ++ bits)
  simp only [List.length_singleton, List.singleton_append] at first
  have second : takeNumber 2 (bitsOf 2 kind ++ bits) = .ok (kind, bits) := take_number 2 kind bits known
  rw [readBlocks, first]
  dsimp only
  rw [second]
  dsimp only
  rw [body]
  cases final <;> rfl

theorem read_stored (past block rest : Bytes) (padding : Bits) (short : padding.length < 8)
    (bound : block.length < 65536) :
    readStored past (padding ++ unpack (octets2 block.length ++ (octets2 (65535 - block.length) ++ (block ++ rest)))) =
      (block.reverse ++ past, .ok (unpack rest)) := by
  have whole : block.length + (65535 - block.length) = 65535 := by omega
  rw [readStored, align_padded padding _ short, take_octets2 _ _ bound]
  dsimp only
  rw [take_octets2 _ _ (by omega)]
  dsimp only
  rw [if_pos whole, read_octets]

theorem unpack_stored (final : Bool) (block rest : Bytes) : unpack (storedBlock final block ++ rest) =
    final :: (bitsOf 2 0 ++ (List.replicate 5 false ++
      unpack (octets2 block.length ++ (octets2 (65535 - block.length) ++ (block ++ rest))))) := by
  cases final <;> simp [storedBlock, unpack_cons, bitsOf, List.replicate]

theorem stored_continues (past block : Bytes) (bound : block.length < 65536) :
    Continues past (storedBlock false block) (block.reverse ++ past) := by
  intro fuel rest enough
  obtain ⟨fuel, rfl⟩ : ∃ n, fuel = n + 1 := ⟨fuel - 1, by omega⟩
  refine ⟨fuel, by simp [storedBlock] at enough; omega, ?_⟩
  have body := read_stored past block rest (List.replicate 5 false) (by decide) bound
  rw [unpack_stored]
  exact read_blocks_header fuel 0 past _ false _ _ (by decide) body

theorem stored_ends (past block : Bytes) (bound : block.length < 65536) :
    Ends past (storedBlock true block) (block.reverse ++ past) := by
  intro fuel enough
  obtain ⟨fuel, rfl⟩ : ∃ n, fuel = n + 1 := ⟨fuel - 1, by omega⟩
  refine ⟨[], by decide, ?_⟩
  have body := read_stored past block [] (List.replicate 5 false) (by decide) bound
  have bits := unpack_stored true block []
  rw [List.append_nil] at bits
  rw [bits]
  exact read_blocks_header fuel 0 past _ true _ _ (by decide) body

theorem mark_continues (past : Bytes) : Continues past ([0x00] ++ marker) past :=
  stored_continues past [] (by decide)

theorem fixed_bits_length (symbol : Nat) : 7 ≤ (Code.fixedBits symbol).length := by
  unfold Code.fixedBits
  split_ifs <;> simp

theorem token_bits_length (t : Token) : 0 < t.bits.length := by
  cases t with
  | literal b =>
      have long := fixed_bits_length b.toNat
      simp only [Token.bits]
      omega
  | copy length distance =>
      have long := fixed_bits_length (257 + Bucket.indexOf Bucket.lengths length Bucket.lengths.size)
      simp only [Token.bits, lengthBits, List.length_append]
      omega

theorem read_items_tokens (ts : List Token) (fuel : Nat) (past next : Bytes) (rest : Bits)
    (fit : ∀ t ∈ ts, t.Fits) (expanded : Token.expand past ts = some next) (enough : ts.length < fuel) :
    readItems .fixedLiterals .fixedDistances fuel past (ts.flatMap Token.bits ++ (Code.fixedBits endOfBlock ++ rest)) =
      (next, .ok rest) := by
  induction ts generalizing fuel past with
  | nil =>
      obtain ⟨fuel, rfl⟩ : ∃ n, fuel = n + 1 := ⟨fuel - 1, by omega⟩
      obtain rfl : past = next := by simpa [Token.expand] using expanded
      rw [readItems, List.flatMap_nil, List.nil_append, read_item_stop]
  | cons t ts ih =>
      obtain ⟨fuel, rfl⟩ : ∃ n, fuel = n + 1 := ⟨fuel - 1, by omega⟩
      rw [readItems, List.flatMap_cons, List.append_assoc, read_item_token t _ (fit t List.mem_cons_self)]
      rw [Token.expand] at expanded
      dsimp only
      cases applied : t.apply past with
      | none => simp [applied] at expanded
      | some past' =>
          rw [applied] at expanded
          exact ih fuel past' (fun t member => fit t (List.mem_cons_of_mem _ member)) expanded (by simpa using enough)

theorem read_body_tokens (ts : List Token) (past next : Bytes) (rest : Bits)
    (fit : ∀ t ∈ ts, t.Fits) (expanded : Token.expand past ts = some next) :
    readBody 1 past (ts.flatMap Token.bits ++ (Code.fixedBits endOfBlock ++ rest)) = (next, .ok rest) := by
  have bits : ts.length ≤ (ts.flatMap Token.bits).length := by
    clear fit expanded
    induction ts with
    | nil => simp
    | cons t ts ih =>
        have long := token_bits_length t
        simp only [List.length_cons, List.flatMap_cons, List.length_append]
        omega
  exact read_items_tokens ts _ past next rest fit expanded (by simp only [List.length_append]; omega)

theorem tokens_end (ts : List Token) (past next : Bytes) (fit : ∀ t ∈ ts, t.Fits)
    (expanded : Token.expand past ts = some next) : Ends past (tokenBlock true ts) next := by
  intro fuel enough
  obtain ⟨fuel, rfl⟩ : ∃ n, fuel = n + 1 := ⟨fuel - 1, by omega⟩
  obtain ⟨padding, short, bits⟩ :=
    unpack_pack ([true, true, false] ++ ts.flatMap Token.bits ++ Code.fixedBits endOfBlock)
  refine ⟨padding, short, ?_⟩
  have body := read_body_tokens ts past next padding fit expanded
  rw [tokenBlock, if_pos rfl, bits]
  simp only [List.append_assoc]
  exact read_blocks_header fuel 1 past next true _ _ (by decide) body

-- The block is followed by an empty stored one, which the three zeros at its end begin.
theorem tokens_continue (ts : List Token) (past next : Bytes) (fit : ∀ t ∈ ts, t.Fits)
    (expanded : Token.expand past ts = some next) : Continues past (tokenBlock false ts) next := by
  intro fuel rest enough
  obtain ⟨padding, short, bits⟩ := unpack_pack
    ([false, true, false] ++ ts.flatMap Token.bits ++ Code.fixedBits endOfBlock ++ [false, false, false])
  have long : 4 ≤ (tokenBlock false ts).length := by simp [tokenBlock, marker]
  obtain ⟨fuel, rfl⟩ : ∃ n, fuel = n + 2 := ⟨fuel - 2, by omega⟩
  refine ⟨fuel, by omega, ?_⟩
  have empty := read_stored next [] rest padding short (by decide)
  have body :=
    read_body_tokens ts past next ([false, false, false] ++ (padding ++ unpack (marker ++ rest))) fit expanded
  rw [tokenBlock, if_neg (by decide), List.append_assoc, unpack_append, bits]
  simp only [List.append_assoc]
  calc readBlocks (fuel + 2) past _
    _ = readBlocks (fuel + 1) next _ := read_blocks_header (fuel + 1) 1 past next false _ _ (by decide) body
    _ = readBlocks fuel next (unpack rest) := read_blocks_header fuel 0 next next false _ _ (by decide) empty

theorem slide_older (window block older : Bytes) :
    ∃ older', block.reverse ++ (window.reverse ++ older) = (slide window block).reverse ++ older' := by
  refine ⟨((window ++ block).take ((window ++ block).length - windowSize)).reverse ++ older, ?_⟩
  rw [slide, ← List.append_assoc, ← List.append_assoc, ← List.reverse_append, ← List.reverse_append,
    List.take_append_drop]

section Levels

variable (level : Nat) (window older : Bytes)

theorem block_continues (block : Bytes) (bound : block.length ≤ blockSize) :
    Continues (window.reverse ++ older) (writeBlock level window false block)
      (block.reverse ++ (window.reverse ++ older)) := by
  rw [writeBlock]
  by_cases stored : level = 0
  · rw [if_pos stored]
    exact stored_continues _ block (Nat.lt_of_le_of_lt bound (by decide))
  · rw [if_neg stored]
    exact tokens_continue _ _ _ (tokens_fit window block) (tokens_expand window block older)

theorem block_ends (block : Bytes) (bound : block.length ≤ blockSize) :
    Ends (window.reverse ++ older) (writeBlock level window true block)
      (block.reverse ++ (window.reverse ++ older)) := by
  rw [writeBlock]
  by_cases stored : level = 0
  · rw [if_pos stored]
    exact stored_ends _ block (Nat.lt_of_le_of_lt bound (by decide))
  · rw [if_neg stored]
    exact tokens_end _ _ _ (tokens_fit window block) (tokens_expand window block older)

theorem blocks_continue (blocks : List Bytes) (bound : ∀ block ∈ blocks, block.length ≤ blockSize) :
    Continues (window.reverse ++ older) (writeBlocks level false window blocks)
      (blocks.flatten.reverse ++ (window.reverse ++ older)) := by
  induction blocks generalizing window older with
  | nil => exact continues_nil _
  | cons block blocks ih =>
      have first := block_continues level window older block (bound block List.mem_cons_self)
      cases blocks with
      | nil => simpa [writeBlocks] using first
      | cons next blocks =>
          obtain ⟨older', same⟩ := slide_older window block older
          have rest := ih (slide window block) older' fun block member => bound block (List.mem_cons_of_mem _ member)
          rw [← same] at rest
          simpa [writeBlocks] using continues_append _ _ _ _ _ first rest

theorem blocks_end (blocks : List Bytes) (bound : ∀ block ∈ blocks, block.length ≤ blockSize) :
    Ends (window.reverse ++ older) (writeBlocks level true window blocks)
      (blocks.flatten.reverse ++ (window.reverse ++ older)) := by
  induction blocks generalizing window older with
  | nil => exact block_ends level window older [] (by decide)
  | cons block blocks ih =>
      cases blocks with
      | nil => simpa [writeBlocks] using block_ends level window older block (bound block List.mem_cons_self)
      | cons next blocks =>
          have first := block_continues level window older block (bound block List.mem_cons_self)
          obtain ⟨older', same⟩ := slide_older window block older
          have rest := ih (slide window block) older' fun block member => bound block (List.mem_cons_of_mem _ member)
          rw [← same] at rest
          simpa [writeBlocks] using continues_ends _ _ _ _ _ first rest

end Levels

theorem blocks_of_flatten (data : Bytes) : (blocksOf data).flatten = data := by
  induction data using blocksOf.induct with
  | case1 => simp [blocksOf]
  | case2 data nonempty ih =>
      rw [blocksOf, dif_neg nonempty, List.flatten_cons, ih, List.take_append_drop]

theorem blocks_of_length (data block : Bytes) (member : block ∈ blocksOf data) : block.length ≤ blockSize := by
  induction data using blocksOf.induct with
  | case1 => simp [blocksOf] at member
  | case2 data nonempty ih =>
      rw [blocksOf, dif_neg nonempty, List.mem_cons] at member
      rcases member with rfl | later
      · exact List.length_take_le _ _
      · exact ih later

end Gateway.Deflate
