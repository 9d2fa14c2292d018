import Gateway.Proofs.Deflate.Encoder
import Gateway.Proofs.Deflate.Engine

set_option autoImplicit false

namespace Gateway.Deflate

def Reads (stream data : Bytes) : Prop := read stream = (data, .error .short)

class PromptCompressor (κ : Type) [Compressor κ] : Prop where
  flushes (c : κ) (fed out input : Bytes) (free : Nat) : Driven c fed out .running → input ≠ [] → 0 < free →
    (Compressor.compress c input free .sync).output.length < free →
    (Compressor.compress c input free .sync).taken = input.length ∧
      Reads (out ++ (Compressor.compress c input free .sync).output) (fed ++ input)

theorem continues_reads (stream past : Bytes) (continues : Continues [] stream past) : Reads stream past.reverse := by
  obtain ⟨left, enough, same⟩ := continues ((unpack stream).length + 1) [] (by simp)
  rw [List.append_nil] at same
  cases left with
  | zero => cases enough
  | succ left =>
      have halted : readBlocks (left + 1) past (unpack []) = (past, .error .short) := rfl
      rw [Reads, read]
      dsimp only
      rw [same, halted]

theorem nothing_reads : Reads [] [] := continues_reads [] [] (continues_nil [])

namespace Encoder

theorem flush_packs (e : Encoder) : e.flush.held = [] := by
  rw [flush]
  by_cases empty : e.held.isEmpty = true
  · rw [if_pos empty]
    exact List.isEmpty_iff.mp empty
  · rw [if_neg empty]
    by_cases stored : e.level = 0
    · rw [if_pos stored]
      rfl
    · rw [if_neg stored]
      rfl

theorem work_packs (e : Encoder) (input : Bytes) (closed : e.closed = false) : (e.work input .sync).held = [] := by
  have open_ : (e.takeIn input).closed = false := closed
  rw [work, if_neg (by simp [open_])]
  exact flush_packs _

theorem written_reads (e : Encoder) (fed out : Bytes) (written : Written e fed out) (closed : e.closed = false)
    (packed : e.held = []) (delivered : e.pending = []) : Reads out fed := by
  cases written with
  | opened front older _ whole window blocks =>
      rw [packed, List.append_nil] at whole
      rw [delivered, List.append_nil, whole] at blocks
      simpa using continues_reads out fed.reverse blocks
  | closed closed' _ => exact absurd (closed.symm.trans closed') nofun

instance : PromptCompressor Encoder where
  flushes c fed out input free driven given room unused := by
    have sound := driven_sound c fed out .running driven
    have closed := sound.running rfl
    rw [compress_fed c input free .sync given] at unused ⊢
    by_cases ready : c.isReady free = true
    · rw [if_pos ready] at unused ⊢
      obtain ⟨written, open_⟩ := work_written c fed out input .sync sound.written closed nofun
      have all : (c.work input .sync).pending.drop free = [] := by
        simp only [deliver, List.length_take] at unused
        exact List.drop_eq_nil_of_le (by omega)
      exact ⟨rfl, written_reads _ _ _ (deliver_written _ _ out input.length free written) open_
        (work_packs c input closed) all⟩
    · -- What was pending takes all of the room.
      rw [if_neg ready] at unused
      have more : free - 1 < c.pending.length := by simpa [isReady] using ready
      simp only [deliver, List.length_take] at unused
      omega

end Encoder

theorem Engine.deflate_prompt {κ : Type} [Compressor κ] [LawfulCompressor κ] [PromptCompressor κ] (e : Engine κ)
    (data out : Bytes) (stage : Stage) (free : Nat) (here : e.At data out stage) (open_ : e.finishing = false)
    (given : e.input ≠ []) (d : Engine κ) (chunk : Bytes) (result : e.deflate free true = (d, .ok chunk))
    (unused : chunk.length < free) : Reads (out ++ chunk) data := by
  obtain rfl : stage = .running := here.running open_
  obtain ⟨fed, driven, whole⟩ := here.driven
  have unfinished : e.finished = false := by simpa using mt here.finished.mp nofun
  have room : 0 < free := by omega
  have mode : e.flushMode true = .sync := by simp [flushMode, open_]
  have feeds := LawfulCompressor.feeds e.compressor fed out e.input free .sync driven given room nofun
  have flushes := PromptCompressor.flushes e.compressor fed out e.input free driven given room
  have plain : ¬ (free = 0 ∨ e.finished = true) := by simp [unfinished]; omega
  rw [deflate, if_neg plain, mode] at result
  generalize Compressor.compress e.compressor e.input free .sync = t at feeds flushes result
  dsimp only at result
  rw [feeds.fault] at result
  obtain ⟨-, rfl⟩ : _ = d ∧ t.output = chunk := by simpa using result
  exact whole ▸ (flushes unused).2

end Gateway.Deflate
