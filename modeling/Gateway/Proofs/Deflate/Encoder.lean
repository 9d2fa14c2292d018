import Gateway.Deflate.Encoder
import Gateway.Proofs.Deflate.Block
import Gateway.Proofs.Deflate.Lawful

set_option autoImplicit false

namespace Gateway.Deflate.Encoder

-- What the output with what is pending reads as: all that was packed into blocks, where the window
-- has the latest of it, or once the last block is made all that there was.
inductive Written (e : Encoder) (fed out : Bytes) : Prop where
  | opened (packed older : Bytes) (closed : e.closed = false) (whole : packed ++ e.held = fed)
      (window : packed.reverse = e.window.reverse ++ older)
      (blocks : Continues [] (out ++ e.pending) packed.reverse)
  | closed (closed : e.closed = true) (blocks : Ends [] (out ++ e.pending) fed.reverse)

theorem new_written (level : Nat) : Written (new level) [] [] :=
  .opened [] [] rfl rfl rfl (continues_nil [])

theorem pack_written (e : Encoder) (fed out : Bytes) (written : Written e fed out) (closed : e.closed = false) :
    Written (e.pack false) fed out := by
  cases written with
  | opened packed older _ whole window blocks =>
      obtain ⟨older', same⟩ := slide_older e.window e.held older
      have held := blocks_continue e.level e.window older (blocksOf e.held) (blocks_of_length e.held)
      rw [blocks_of_flatten, ← window, ← List.reverse_append, whole] at held
      have all := continues_append _ _ _ _ _ blocks held
      rw [List.append_assoc] at all
      rw [← window, ← List.reverse_append, whole] at same
      have window' : fed.reverse = (e.pack false).window.reverse ++ older' := by
        simpa only [Encoder.pack] using same
      exact .opened fed older' closed (List.append_nil fed) window' all
  | closed closed' _ => simp [closed] at closed'

theorem mark_written (e : Encoder) (fed out : Bytes) (written : Written e fed out) (closed : e.closed = false) :
    Written e.mark fed out := by
  cases written with
  | opened packed older _ whole window blocks =>
      have all := continues_append _ _ _ _ _ blocks (mark_continues _)
      rw [List.append_assoc, ← List.append_assoc e.pending] at all
      exact .opened packed older closed whole window all
  | closed closed' _ => simp [closed] at closed'

theorem flush_written (e : Encoder) (fed out : Bytes) (written : Written e fed out) (closed : e.closed = false) :
    Written e.flush fed out := by
  rw [flush]
  by_cases empty : e.held.isEmpty = true
  · rw [if_pos empty]
    exact mark_written e fed out written closed
  · rw [if_neg empty]
    have packed := pack_written e fed out written closed
    by_cases stored : e.level = 0
    · rw [if_pos stored]
      exact mark_written _ fed out packed closed
    · rw [if_neg stored]
      exact packed

theorem flush_closed (e : Encoder) : e.flush.closed = e.closed := by
  rw [flush]
  by_cases empty : e.held.isEmpty = true
  · rw [if_pos empty]
    rfl
  · rw [if_neg empty]
    by_cases stored : e.level = 0
    · rw [if_pos stored]
      rfl
    · rw [if_neg stored]
      rfl

theorem take_in_written (e : Encoder) (fed out input : Bytes) (written : Written e fed out)
    (closed : e.closed = false) :
    Written (e.takeIn input) (fed ++ input) out := by
  cases written with
  | opened packed older _ whole window blocks =>
      exact .opened packed older closed (by rw [takeIn, ← List.append_assoc, whole]) window blocks
  | closed closed' _ => simp [closed] at closed'

theorem work_written (e : Encoder) (fed out input : Bytes) (flush : Flush) (written : Written e fed out)
    (closed : e.closed = false) (more : flush ≠ .finish) :
    Written (e.work input flush) (fed ++ input) out ∧ (e.work input flush).closed = false := by
  have taken := take_in_written e fed out input written closed
  have open_ : (e.takeIn input).closed = false := closed
  unfold work
  dsimp only
  rw [if_neg (by simp [open_])]
  cases flush with
  | finish => contradiction
  | sync => exact ⟨flush_written _ _ out taken open_, (flush_closed _).trans open_⟩
  | none =>
      dsimp only
      by_cases full : holdSize ≤ (e.takeIn input).held.length
      · rw [if_pos full]
        exact ⟨pack_written _ _ out taken open_, open_⟩
      · rw [if_neg full]
        exact ⟨taken, open_⟩

theorem work_finish (e : Encoder) :
    e.work [] .finish = if e.closed then e else { e.pack true with closed := true } := by
  simp [work, takeIn]

theorem finish_written (e : Encoder) (fed out : Bytes) (written : Written e fed out) :
    Written (e.work [] .finish) fed out ∧ (e.work [] .finish).closed = true := by
  rw [work_finish]
  cases written with
  | opened packed older closed whole window blocks =>
      have held := blocks_end e.level e.window older (blocksOf e.held) (blocks_of_length e.held)
      rw [blocks_of_flatten, ← window, ← List.reverse_append, whole] at held
      have all := continues_ends _ _ _ _ _ blocks held
      rw [List.append_assoc] at all
      rw [if_neg (by simp [closed])]
      exact ⟨.closed rfl all, rfl⟩
  | closed closed blocks =>
      rw [if_pos closed]
      exact ⟨.closed closed blocks, closed⟩

theorem deliver_written (e : Encoder) (fed out : Bytes) (taken free : Nat) (written : Written e fed out) :
    Written (e.deliver taken free).next fed (out ++ (e.deliver taken free).output) := by
  have same : out ++ e.pending.take free ++ e.pending.drop free = out ++ e.pending := by simp
  cases written with
  | opened packed older closed whole window blocks =>
      exact .opened packed older closed whole window (by rw [deliver, same]; exact blocks)
  | closed closed blocks => exact .closed closed (by rw [deliver, same]; exact blocks)

def isReady (e : Encoder) (free : Nat) : Bool := (e.pending.drop (free - 1)).isEmpty

theorem compress_fed (e : Encoder) (input : Bytes) (free : Nat) (flush : Flush) (given : input ≠ []) :
    Compressor.compress e input free flush =
      if e.isReady free then (e.work input flush).deliver input.length free else e.deliver 0 free := by
  simp [Compressor.compress, compress, hasWork, isReady, given]

theorem compress_closing (e : Encoder) (free : Nat) :
    Compressor.compress e [] free .finish =
      if e.isReady free then (e.work [] .finish).deliver 0 free else e.deliver 0 free := by
  simp [Compressor.compress, compress, hasWork, isReady]

theorem deliver_nonempty (e : Encoder) (taken free : Nat) (room : 0 < free) (pending : e.pending ≠ []) :
    (e.deliver taken free).output ≠ [] := by
  simp only [deliver, ne_eq, List.take_eq_nil_iff, not_or]
  exact ⟨by omega, pending⟩

theorem unready_pending (e : Encoder) (free : Nat) (busy : ¬ e.isReady free) : e.pending ≠ [] := by
  intro empty
  exact busy (by simp [isReady, empty])

structure Sound (e : Encoder) (fed out : Bytes) (stage : Stage) : Prop where
  written : Written e fed out
  running : stage = .running → e.closed = false
  ended : stage = .ended → e.closed = true ∧ e.pending = []

theorem deliver_sound (e : Encoder) (fed out : Bytes) (taken free : Nat) (written : Written e fed out) :
    Sound (e.deliver taken free).next fed (out ++ (e.deliver taken free).output)
      (if (e.deliver taken free).ended then .ended else .closing) := by
  refine ⟨deliver_written e fed out taken free written, ?_, ?_⟩
  · split <;> exact nofun
  · split
    · rename_i ended
      exact fun _ => by simpa only [deliver, Bool.and_eq_true, List.isEmpty_iff] using ended
    · exact nofun

theorem driven_sound (e : Encoder) (fed out : Bytes) (stage : Stage) (driven : Driven e fed out stage) :
    Sound e fed out stage := by
  induction driven with
  | fresh level => exact ⟨new_written level, fun _ => rfl, nofun⟩
  | reset c => exact ⟨new_written c.level, fun _ => rfl, nofun⟩
  | feed c fed out input free flush before given room more ih =>
      have closed := ih.running rfl
      rw [compress_fed c input free flush given]
      split
      · obtain ⟨written, open_⟩ := work_written c fed out input flush ih.written closed more
        refine ⟨?_, fun _ => open_, nofun⟩
        rw [show ((c.work input flush).deliver input.length free).taken = input.length from rfl, List.take_length]
        exact deliver_written _ _ out _ _ written
      · refine ⟨?_, fun _ => closed, nofun⟩
        rw [show (c.deliver 0 free).taken = 0 from rfl, List.take_zero, List.append_nil]
        exact deliver_written c fed out 0 free ih.written
  | close c fed out free stage before open_ room ih =>
      rw [compress_closing c free]
      split
      · exact deliver_sound _ fed out 0 free (finish_written c fed out ih.written).1
      · exact deliver_sound c fed out 0 free ih.written

def owed (e : Encoder) : Nat :=
  e.pending.length + if e.closed then 0 else (writeBlocks e.level true e.window (blocksOf e.held)).length

theorem deliver_owed (e : Encoder) (taken free : Nat) :
    (e.deliver taken free).output.length + owed (e.deliver taken free).next = owed e := by
  have whole : (e.pending.take free).length + (e.pending.drop free).length = e.pending.length := by
    rw [← List.length_append, List.take_append_drop]
  rw [owed, owed, ← Nat.add_assoc]
  exact congrArg (· + _) whole

theorem finish_owed (e : Encoder) : owed (e.work [] .finish) = owed e := by
  rw [work_finish]
  split
  · rfl
  · rename_i closed
    simp [owed, closed, pack]

instance : LawfulCompressor Encoder where
  feeds c fed out input free flush driven given room more := by
    have sound := driven_sound c fed out .running driven
    have closed := sound.running rfl
    rw [compress_fed c input free flush given]
    split
    · obtain ⟨-, open_⟩ := work_written c fed out input flush sound.written closed more
      have positive : input.length ≠ 0 := by simpa using given
      exact ⟨rfl, by simp [deliver, open_], Nat.le_refl _, List.length_take_le _ _,
        fun none_taken => absurd none_taken positive⟩
    · rename_i busy
      exact ⟨rfl, by simp [deliver, closed], Nat.zero_le _, List.length_take_le _ _,
        fun _ => deliver_nonempty c 0 free room (unready_pending c free busy)⟩
  closes c fed out free stage driven open_ room := by
    have sound := driven_sound c fed out stage driven
    rw [compress_closing c free]
    split
    · have closed := (finish_written c fed out sound.written).2
      refine ⟨rfl, List.length_take_le _ _, fun ended => deliver_nonempty _ 0 free room ?_⟩
      intro empty
      simp [deliver, closed, empty] at ended
    · rename_i busy
      exact ⟨rfl, List.length_take_le _ _, fun _ => deliver_nonempty c 0 free room (unready_pending c free busy)⟩
  complete c fed out driven := by
    have sound := driven_sound c fed out .ended driven
    obtain ⟨closed, delivered⟩ := sound.ended rfl
    cases sound.written with
    | opened packed older open_ => simp [closed] at open_
    | closed _ blocks =>
        rw [delivered, List.append_nil] at blocks
        rw [inflate_ends out fed.reverse blocks, List.reverse_reverse]
  finite := by
    refine ⟨owed, ?_, ?_⟩
    · intro c fed out input free flush driven given room more none_taken
      rw [compress_fed c input free flush given] at none_taken ⊢
      split at none_taken
      · exact absurd none_taken (by simpa [deliver] using given)
      · rename_i busy
        rw [if_neg busy]
        exact Nat.le_of_eq (deliver_owed c 0 free)
    · intro c fed out free stage driven open_ room
      rw [compress_closing c free]
      split
      · exact Nat.le_of_eq ((deliver_owed _ 0 free).trans (finish_owed c))
      · exact Nat.le_of_eq (deliver_owed c 0 free)

end Gateway.Deflate.Encoder
