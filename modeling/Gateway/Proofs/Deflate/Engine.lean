import Gateway.Deflate.Engine
import Gateway.Deflate.Pool
import Gateway.Proofs.Deflate.Lawful

set_option autoImplicit false

namespace Gateway.Deflate

variable {κ : Type} [Compressor κ]

namespace Engine

structure At (e : Engine κ) (data out : Bytes) (stage : Stage) : Prop where
  driven : ∃ fed, Driven e.compressor fed out stage ∧ fed ++ e.input = data
  running : e.finishing = false → stage = .running
  drained : e.finishing = true → e.input = []
  finished : e.finished = true ↔ stage = .ended

theorem new_at (level : Nat) : (new level : Engine κ).At [] [] .running :=
  ⟨⟨[], .fresh level, rfl⟩, fun _ => rfl, fun _ => rfl, by simp [new]⟩

theorem reset_at (e : Engine κ) : e.reset.At [] [] .running :=
  ⟨⟨[], .reset e.compressor, rfl⟩, fun _ => rfl, fun _ => rfl, by simp [reset]⟩

theorem set_input_at (e : Engine κ) (data out input : Bytes) (stage : Stage) (here : e.At data out stage)
    (empty : e.input = []) (open_ : e.finishing = false) : (e.setInput input).At (data ++ input) out stage := by
  obtain ⟨fed, driven, whole⟩ := here.driven
  refine ⟨⟨fed, driven, ?_⟩, here.running, fun closing => ?_, here.finished⟩
  · rw [empty, List.append_nil] at whole
    rw [setInput, whole]
  · simp [setInput, open_] at closing

theorem finish_at (e : Engine κ) (data out : Bytes) (stage : Stage) (here : e.At data out stage)
    (empty : e.input = []) : e.finish.At data out stage :=
  ⟨here.driven, nofun, fun _ => empty, here.finished⟩

theorem finished_finishing (e : Engine κ) (data out : Bytes) (stage : Stage) (here : e.At data out stage)
    (finished : e.finished = true) : e.finishing = true := by
  obtain rfl : stage = .ended := here.finished.mp finished
  cases finishing : e.finishing with
  | true => rfl
  | false => exact absurd (here.running finishing) nofun

theorem ended_complete [LawfulCompressor κ] (e : Engine κ) (data out : Bytes) (stage : Stage)
    (here : e.At data out stage)
    (finished : e.finished = true) : inflate? out = some data := by
  obtain ⟨fed, driven, whole⟩ := here.driven
  rw [here.drained (finished_finishing e data out stage here finished), List.append_nil] at whole
  obtain rfl : stage = .ended := here.finished.mp finished
  rw [← whole]
  exact LawfulCompressor.complete e.compressor fed out driven

-- A call brings the engine nearer to the end: it finishes, or takes input, or owes less than before.
inductive Nearer (owed : κ → Nat) (e d : Engine κ) : Prop where
  | finished (before : e.finished = false) (after : d.finished = true)
  | input (same : d.finished = e.finished) (shorter : d.input.length < e.input.length)
  | output (same : d.finished = e.finished) (input : d.input = e.input) (less : owed d.compressor < owed e.compressor)

structure Calls (owed : κ → Nat) (e : Engine κ) (data out : Bytes) (free : Nat) (d : Engine κ) (chunk : Bytes)
    (stage : Stage) : Prop where
  here : d.At data (out ++ chunk) stage
  finishing : d.finishing = e.finishing
  room : chunk.length ≤ free
  nearer : Nearer owed e d

variable [ProgressiveCompressor κ] (owed : κ → Nat) (bounds : Bounded owed)

include bounds

theorem deflate_fed (e : Engine κ) (data out : Bytes) (stage : Stage) (free : Nat) (sync : Bool)
    (here : e.At data out stage)
    (open_ : e.finishing = false) (given : e.input ≠ []) (room : 0 < free) :
    ∃ d chunk, e.deflate free sync = (d, .ok chunk) ∧ Calls owed e data out free d chunk .running := by
  obtain rfl : stage = .running := here.running open_
  obtain ⟨fed, driven, whole⟩ := here.driven
  have unfinished : e.finished = false := by simpa using mt here.finished.mp nofun
  have more : e.flushMode sync ≠ .finish := by cases sync <;> simp [flushMode, open_]
  have feeds := ProgressiveCompressor.feeds e.compressor fed out e.input free (e.flushMode sync) driven given room more
  have owes := bounds.feeds e.compressor fed out e.input free (e.flushMode sync) driven given room more
  have next := Driven.feed e.compressor fed out e.input free (e.flushMode sync) driven given room more
  have plain : ¬ (free = 0 ∨ e.finished = true) := by simp [unfinished]; omega
  rw [deflate, if_neg plain]
  generalize Compressor.compress e.compressor e.input free (e.flushMode sync) = t at feeds owes next
  dsimp only
  rw [feeds.fault]
  refine ⟨_, _, rfl, ⟨?_, rfl, feeds.room, ?_⟩⟩
  · refine ⟨⟨_, next, ?_⟩, fun _ => rfl, fun closing => ?_, ?_⟩
    · simp [after, ← whole]
    · simp [after, open_] at closing
    · simp [feeds.ended]
  · by_cases none_taken : t.taken = 0
    · have progress := List.length_pos_iff.mpr (feeds.progress none_taken)
      have less : t.output.length + owed t.next ≤ owed e.compressor := owes none_taken
      refine .output ?_ ?_ ?_
      · simp [feeds.ended, unfinished]
      · simp [after, none_taken]
      · simp only [after]
        omega
    · have some_taken := feeds.taken
      refine .input ?_ ?_
      · simp [feeds.ended, unfinished]
      · simp only [after, List.length_drop]
        omega

theorem deflate_closing (e : Engine κ) (data out : Bytes) (stage : Stage) (free : Nat) (sync : Bool)
    (here : e.At data out stage)
    (closing : e.finishing = true) (unfinished : e.finished = false) (room : 0 < free) :
    ∃ d chunk stage', e.deflate free sync = (d, .ok chunk) ∧ Calls owed e data out free d chunk stage' := by
  obtain ⟨fed, driven, whole⟩ := here.driven
  have empty := here.drained closing
  have open_ : stage ≠ .ended := by
    intro ended
    simp [here.finished.mpr ended] at unfinished
  have closes := ProgressiveCompressor.closes e.compressor fed out free stage driven open_ room
  have owes := bounds.closes e.compressor fed out free stage driven open_ room
  have next := Driven.close e.compressor fed out free stage driven open_ room
  have plain : ¬ (free = 0 ∨ e.finished = true) := by simp [unfinished]; omega
  have mode : e.flushMode sync = .finish := by simp [flushMode, closing]
  rw [deflate, if_neg plain, mode, empty]
  generalize Compressor.compress e.compressor [] free .finish = t at closes owes next
  dsimp only
  rw [closes.fault]
  refine ⟨_, _, if t.ended then .ended else .closing, rfl, ⟨?_, rfl, closes.room, ?_⟩⟩
  · refine ⟨⟨fed, next, ?_⟩, fun open_ => ?_, fun _ => ?_, ?_⟩
    · simp [after, ← whole, empty]
    · simp [after, closing] at open_
    · simp [after, empty]
    · cases t.ended <;> simp
  · cases ended : t.ended with
    | true => exact .finished unfinished rfl
    | false =>
        have progress := List.length_pos_iff.mpr (closes.progress ended)
        have less : t.output.length + owed t.next ≤ owed e.compressor := owes
        refine .output ?_ ?_ ?_
        · simp [unfinished]
        · simp [after, empty]
        · simp only [after]
          omega

omit bounds in
theorem deflate_fits (e : Engine κ) (data out : Bytes) (stage : Stage) (free : Nat) (sync : Bool)
    (here : e.At data out stage)
    (asked : e.input ≠ [] ∨ e.finishing = true) (unfinished : e.finished = false) (room : 0 < free) :
    ∃ d chunk, e.deflate free sync = (d, .ok chunk) ∧ chunk.length ≤ free := by
  obtain ⟨owed, bounds⟩ := ProgressiveCompressor.finite (κ := κ)
  cases closing : e.finishing with
  | true =>
      obtain ⟨d, chunk, stage', result, calls⟩ :=
        deflate_closing owed bounds e data out stage free sync here closing unfinished room
      exact ⟨d, chunk, result, calls.room⟩
  | false =>
      have given := asked.resolve_right (by simp [closing])
      obtain ⟨d, chunk, result, calls⟩ := deflate_fed owed bounds e data out stage free sync here closing given room
      exact ⟨d, chunk, result, calls.room⟩

end Engine

def Pool.Ready (p : Pool κ) : Prop := ∀ e ∈ p.idle, ∃ used : Engine κ, e = used.reset

theorem new_ready (capacity level : Nat) : (Pool.new capacity level : Pool κ).Ready := by
  simp [Pool.Ready, Pool.new]

theorem release_ready (p : Pool κ) (entry : Entry κ) (ready : p.Ready) : (p.release entry).Ready := by
  unfold Pool.Ready Pool.release
  cases entry.engine with
  | none => exact ready
  | some engine =>
      dsimp only
      split
      · intro e member
        rcases List.mem_cons.mp member with rfl | idle
        · exact ⟨engine, rfl⟩
        · exact ready e idle
      · exact ready

theorem acquire_ready (p q : Pool κ) (entry : Entry κ) (ready : p.Ready) (acquired : p.acquire? = some (entry, q)) :
    q.Ready ∧ (q.engine entry = .new p.level ∨ ∃ used : Engine κ, q.engine entry = used.reset) := by
  rw [Pool.acquire?] at acquired
  by_cases free : p.checkedOut < p.capacity
  · rw [if_pos free] at acquired
    obtain ⟨rfl, rfl⟩ : ⟨p.idle.head?⟩ = entry ∧ _ = q := by simpa using acquired
    refine ⟨fun e member => ready e (List.mem_of_mem_tail member), ?_⟩
    cases idle : p.idle with
    | nil => exact .inl rfl
    | cons first rest => exact .inr (ready first (by simp [idle]))
  · rw [if_neg free] at acquired
    cases acquired

theorem acquired_at (p q : Pool κ) (entry : Entry κ) (ready : p.Ready) (acquired : p.acquire? = some (entry, q)) :
    (q.engine entry).At [] [] .running ∧ (q.engine entry).input = [] ∧ (q.engine entry).finishing = false := by
  rcases (acquire_ready p q entry ready acquired).2 with made | ⟨used, kept⟩
  · rw [made]
    exact ⟨Engine.new_at p.level, rfl, rfl⟩
  · rw [kept]
    exact ⟨Engine.reset_at used, rfl, rfl⟩

end Gateway.Deflate
