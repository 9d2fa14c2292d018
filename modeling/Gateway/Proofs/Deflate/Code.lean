import Gateway.Deflate.Block
import Gateway.Proofs.Deflate.Bits
import Mathlib.Tactic.SplitIfs

set_option autoImplicit false

namespace Gateway.Deflate

namespace Code

theorem code_bits_succ (width n : Nat) :
    codeBits (width + 1) n = codeBits width (n / 2) ++ [decide (n % 2 = 1)] := by
  simp [codeBits, bitsOf]

theorem last_bit (n : Nat) : (decide (n % 2 = 1)).toNat = n % 2 := by
  rcases Nat.mod_two_eq_zero_or_one n with even | odd <;> simp [*]

variable (symbols : Array Nat) (counts : List Nat) (code first index count : Nat) (b : Bool) (rest : Bits)

theorem read_from_longer (above : first + count ≤ code + b.toNat) :
    readFrom symbols (count :: counts) code first index (b :: rest) =
      readFrom symbols counts (2 * (code + b.toNat)) (2 * (first + count)) (index + count) rest := by
  rw [readFrom, if_neg (by omega)]

theorem read_from_found (symbol : Nat) (below : code + b.toNat < first + count)
    (present : symbols[index + (code + b.toNat - first)]? = some symbol) :
    readFrom symbols (count :: counts) code first index (b :: rest) = .ok (symbol, rest) := by
  rw [readFrom, if_pos below, present]

theorem read_from_none (width n : Nat) (bound : n < 2 ^ width) :
    readFrom symbols (List.replicate width 0 ++ counts) code 0 0 (codeBits width n ++ rest) =
      readFrom symbols counts (2 ^ width * code + 2 * n) 0 0 rest := by
  induction width generalizing n counts rest with
  | zero => simp [codeBits, bitsOf, show n = 0 by omega]
  | succ width ih =>
      have half := ih (0 :: counts) (decide (n % 2 = 1) :: rest) (n / 2) (by omega)
      rw [code_bits_succ, List.append_assoc, List.singleton_append, List.replicate_succ', List.append_assoc,
        List.singleton_append, half, read_from_longer symbols counts _ 0 0 0 _ rest (by omega), last_bit]
      congr 1
      rw [Nat.pow_succ, Nat.mul_right_comm]
      omega

theorem fixed_counts : fixedLiterals.counts = List.replicate 6 0 ++ [24, 152, 112, 0, 0, 0, 0, 0, 0] := by
  decide +kernel

theorem fixed_symbols : fixedLiterals.symbols.toList =
    List.range' 256 24 ++ List.range' 0 144 ++ List.range' 280 8 ++ List.range' 144 112 := by
  decide +kernel

theorem fixed_symbol (i : Nat) (bound : i < 288) : fixedLiterals.symbols[i]? = some
    (if i < 24 then 256 + i else if i < 168 then i - 24 else if i < 176 then 280 + (i - 168) else 144 + (i - 176)) := by
  rw [← Array.getElem?_toList, fixed_symbols]
  simp only [List.getElem?_append, List.length_append, List.length_range', Nat.reduceAdd]
  split_ifs <;> rw [List.getElem?_range' (by omega)] <;> simp <;> omega

theorem read_fixed_seven (n : Nat) (bound : n < 24) :
    fixedLiterals.read (codeBits 7 n ++ rest) = .ok (256 + n, rest) := by
  rw [read, fixed_counts, code_bits_succ, List.append_assoc, read_from_none _ _ _ _ 6 _ (by omega)]
  refine read_from_found _ _ _ _ _ _ _ _ _ (by rw [last_bit]; omega) ?_
  rw [last_bit, fixed_symbol _ (by omega)]
  split_ifs <;> simp <;> omega

theorem read_fixed_eight (n : Nat) (bound : n < 200) (longer : 48 ≤ n) :
    fixedLiterals.read (codeBits 8 n ++ rest) = .ok (if n < 192 then n - 48 else 280 + (n - 192), rest) := by
  rw [read, fixed_counts, code_bits_succ, code_bits_succ, List.append_assoc, List.append_assoc,
    read_from_none _ _ _ _ 6 _ (by omega)]
  simp only [List.singleton_append]
  rw [read_from_longer _ _ _ _ _ _ _ _ (by rw [last_bit]; omega)]
  refine read_from_found _ _ _ _ _ _ _ _ _ (by simp only [last_bit]; omega) ?_
  simp only [last_bit]
  rw [fixed_symbol _ (by omega)]
  split_ifs <;> simp <;> omega

theorem read_fixed_nine (n : Nat) (bound : n < 512) (longer : 400 ≤ n) :
    fixedLiterals.read (codeBits 9 n ++ rest) = .ok (144 + (n - 400), rest) := by
  rw [read, fixed_counts, code_bits_succ, code_bits_succ, code_bits_succ, List.append_assoc, List.append_assoc,
    List.append_assoc, read_from_none _ _ _ _ 6 _ (by omega)]
  simp only [List.singleton_append]
  rw [read_from_longer _ _ _ _ _ _ _ _ (by rw [last_bit]; omega),
    read_from_longer _ _ _ _ _ _ _ _ (by simp only [last_bit]; omega)]
  refine read_from_found _ _ _ _ _ _ _ _ _ (by simp only [last_bit]; omega) ?_
  simp only [last_bit]
  rw [fixed_symbol _ (by omega)]
  split_ifs <;> simp <;> omega

theorem read_fixed (symbol : Nat) (bound : symbol < 288) :
    fixedLiterals.read (fixedBits symbol ++ rest) = .ok (symbol, rest) := by
  unfold fixedBits
  split_ifs with low high
  · rw [read_fixed_eight rest _ (by omega) (by omega), if_pos (by omega)]
    simp
  · rw [read_fixed_nine rest _ (by omega) (by omega)]
    simp
    omega
  · rw [read_fixed_seven rest _ (by omega)]
    simp
    omega
  · rw [read_fixed_eight rest _ (by omega) (by omega), if_neg (by omega)]
    simp
    omega

theorem fixed_distances : fixedDistances.counts = List.replicate 4 0 ++ [30, 0, 0, 0, 0, 0, 0, 0, 0, 0, 0] ∧
    fixedDistances.symbols.toList = List.range 30 := by
  decide +kernel

theorem read_fixed_distance (i : Nat) (bound : i < 30) :
    fixedDistances.read (codeBits 5 i ++ rest) = .ok (i, rest) := by
  rw [read, fixed_distances.1, code_bits_succ, List.append_assoc, read_from_none _ _ _ _ 4 _ (by omega)]
  refine read_from_found _ _ _ _ _ _ _ _ _ (by rw [last_bit]; omega) ?_
  rw [last_bit, ← Array.getElem?_toList, fixed_distances.2, List.getElem?_range (by omega)]
  simp
  omega

end Code

namespace Bucket

def Adjoin (buckets : Array Bucket) (limit : Nat) : Prop :=
  ∀ i < buckets.size, ∀ bucket ∈ buckets[i]?,
    ((buckets[i + 1]?).map base).getD limit ≤ bucket.base + 2 ^ bucket.extra

instance (buckets : Array Bucket) (limit : Nat) : Decidable (Adjoin buckets limit) :=
  inferInstanceAs (Decidable (∀ i < buckets.size, ∀ bucket ∈ buckets[i]?, _))

theorem index_of_chosen (buckets : Array Bucket) (value n : Nat) (first : ∃ bucket ∈ buckets[0]?, bucket.base ≤ value)
    (present : 0 < n) (within : n ≤ buckets.size) :
    indexOf buckets value n < n ∧ (∃ bucket ∈ buckets[indexOf buckets value n]?, bucket.base ≤ value) ∧
      ∀ next ∈ buckets[indexOf buckets value n + 1]?, indexOf buckets value n + 1 < n → value < next.base := by
  induction n with
  | zero => omega
  | succ n ih =>
      have found : buckets[n]? = some buckets[n] := Array.getElem?_eq_getElem within
      rw [indexOf, found]
      dsimp only
      split
      · rename_i reached
        exact ⟨by omega, ⟨_, found, reached⟩, fun next _ below => by omega⟩
      · rename_i missed
        cases n with
        | zero =>
            obtain ⟨bucket, same, reached⟩ := first
            obtain rfl : buckets[0] = bucket := by simpa [found] using same
            omega
        | succ n =>
            obtain ⟨below, chosen, above⟩ := ih (by omega) (by omega)
            refine ⟨by omega, chosen, ?_⟩
            intro next follows _
            by_cases inner : indexOf buckets value (n + 1) + 1 < n + 1
            · exact above next follows inner
            · rw [show indexOf buckets value (n + 1) + 1 = n + 1 by omega, found] at follows
              obtain rfl : buckets[n + 1] = next := by simpa using follows
              omega

theorem index_of_covers (buckets : Array Bucket) (value limit : Nat) (adjoin : Adjoin buckets limit)
    (first : ∃ bucket ∈ buckets[0]?, bucket.base ≤ value) (bound : value < limit) :
    ∃ bucket ∈ buckets[indexOf buckets value buckets.size]?, indexOf buckets value buckets.size < buckets.size ∧
      bucket.base ≤ value ∧ value < bucket.base + 2 ^ bucket.extra := by
  have present : 0 < buckets.size := by
    obtain ⟨bucket, found, -⟩ := first
    exact (Array.getElem?_eq_some_iff.mp found).1
  obtain ⟨below, ⟨bucket, found, reached⟩, above⟩ := index_of_chosen buckets value buckets.size first present (by omega)
  refine ⟨bucket, found, below, reached, Nat.lt_of_lt_of_le ?_ (adjoin _ below bucket found)⟩
  cases next : buckets[indexOf buckets value buckets.size + 1]? with
  | none => simpa using bound
  | some other =>
      have inside := (Array.getElem?_eq_some_iff.mp next).1
      simpa using above other next inside

theorem lengths_adjoin : Adjoin lengths (longestCopy + 1) := by decide

theorem distances_adjoin : Adjoin distances (windowSize + 1) := by decide

end Bucket

theorem read_bucket (buckets : Array Bucket) (i value : Nat) (bucket : Bucket) (rest : Bits)
    (found : buckets[i]? = some bucket) (reached : bucket.base ≤ value)
    (bound : value < bucket.base + 2 ^ bucket.extra) :
    readBucket buckets i (bitsOf bucket.extra (value - bucket.base) ++ rest) = .ok (value, rest) := by
  rw [readBucket, found]
  dsimp only
  rw [take_number bucket.extra _ rest (by omega)]
  simp [Except.map, reached]

def Token.Fits : Token → Prop
  | .literal _ => True
  | .copy length distance => shortestCopy ≤ length ∧ length ≤ longestCopy ∧ 0 < distance ∧ distance ≤ windowSize

theorem length_bits (length : Nat) (long : shortestCopy ≤ length) (short : length ≤ longestCopy) :
    ∃ i < 29, ∃ extra, lengthBits length = Code.fixedBits (257 + i) ++ extra ∧
      ∀ rest, readBucket Bucket.lengths i (extra ++ rest) = .ok (length, rest) := by
  obtain ⟨bucket, found, index, reached, bound⟩ := Bucket.index_of_covers Bucket.lengths length _
    Bucket.lengths_adjoin ⟨⟨3, 0⟩, rfl, long⟩ (Nat.lt_succ_of_le short)
  refine ⟨_, index, bitsOf bucket.extra (length - bucket.base), ?_, ?_⟩
  · simp [lengthBits, Array.getD_eq_getD_getElem?, Option.mem_def.mp found]
  · exact fun rest => read_bucket Bucket.lengths _ length bucket rest found reached bound

theorem distance_bits (distance : Nat) (positive : 0 < distance) (near : distance ≤ windowSize) :
    ∃ i < 30, ∃ extra, distanceBits distance = codeBits 5 i ++ extra ∧
      ∀ rest, readBucket Bucket.distances i (extra ++ rest) = .ok (distance, rest) := by
  obtain ⟨bucket, found, index, reached, bound⟩ := Bucket.index_of_covers Bucket.distances distance _
    Bucket.distances_adjoin ⟨⟨1, 0⟩, rfl, positive⟩ (Nat.lt_succ_of_le near)
  refine ⟨_, index, bitsOf bucket.extra (distance - bucket.base), ?_, ?_⟩
  · simp [distanceBits, Array.getD_eq_getD_getElem?, Option.mem_def.mp found]
  · exact fun rest => read_bucket Bucket.distances _ distance bucket rest found reached bound

theorem read_item_token (t : Token) (rest : Bits) (fits : t.Fits) :
    readItem .fixedLiterals .fixedDistances (t.bits ++ rest) = .ok (.token t, rest) := by
  cases t with
  | literal b =>
      have bound : b.toNat < endOfBlock := b.toNat_lt
      rw [Token.bits, readItem, Code.read_fixed rest b.toNat (Nat.lt_trans bound (by decide))]
      simp [bound, bind, Except.bind, pure, Except.pure]
  | copy length distance =>
      obtain ⟨long, short, positive, near⟩ := fits
      obtain ⟨i, small, extra, written, length_read⟩ := length_bits length long short
      obtain ⟨j, small', extra', written', distance_read⟩ := distance_bits distance positive near
      have symbol : ¬ 257 + i < endOfBlock ∧ ¬ 257 + i = endOfBlock := by
        simp only [endOfBlock]
        omega
      rw [Token.bits, written, written', readItem]
      simp only [List.append_assoc, Code.read_fixed _ (257 + i) (by omega), bind, Except.bind, symbol, if_false,
        Nat.add_sub_cancel_left, length_read, Code.read_fixed_distance _ j small', distance_read, pure, Except.pure]

theorem read_item_stop (rest : Bits) :
    readItem .fixedLiterals .fixedDistances (Code.fixedBits endOfBlock ++ rest) = .ok (.stop, rest) := by
  rw [readItem, Code.read_fixed rest endOfBlock (by decide)]
  simp [bind, Except.bind, pure, Except.pure]

end Gateway.Deflate
