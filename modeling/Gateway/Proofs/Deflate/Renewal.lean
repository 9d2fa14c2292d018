import Gateway.Deflate.Encoder
import Gateway.Deflate.Pool

set_option autoImplicit false

namespace Gateway.Deflate

structure Feed where
  input : Bytes
  free : Nat
  flush : Flush

variable {κ : Type}

def Turn.report (t : Turn κ) : Turn Unit := ⟨(), t.taken, t.output, t.ended, t.fault⟩

variable [Compressor κ]

def Feed.turn (f : Feed) (c : κ) : Turn κ := Compressor.compress c f.input f.free f.flush

def fed (c : κ) (feeds : List Feed) : κ := feeds.foldl (fun c f => (f.turn c).next) c

-- Compressors that no calls can tell apart.
def Alike (c d : κ) : Prop :=
  ∀ (feeds : List Feed) (f : Feed), (f.turn (fed c feeds)).report = (f.turn (fed d feeds)).report

inductive OfLevel (level : Nat) : κ → Prop where
  | fresh : OfLevel level (Compressor.fresh level)
  | call (c : κ) (f : Feed) (before : OfLevel level c) : OfLevel level (f.turn c).next
  | reset (c : κ) (before : OfLevel level c) : OfLevel level (Compressor.reset c)

-- The output of a call fits in the room that it is given, and a new start undoes all calls.
class RenewableCompressor (κ : Type) [Compressor κ] : Prop where
  room (level : Nat) (c : κ) (f : Feed) : OfLevel level c → (f.turn c).output.length ≤ f.free
  renewal (level : Nat) (c : κ) : OfLevel level c → Alike (Compressor.reset c) (Compressor.fresh level)

section Alike

variable (c d e : κ)

theorem alike_symm (alike : Alike c d) : Alike d c := fun feeds f => (alike feeds f).symm

theorem alike_trans (first : Alike c d) (second : Alike d e) : Alike c e :=
  fun feeds f => (first feeds f).trans (second feeds f)

theorem alike_turn (alike : Alike c d) (f : Feed) :
    (f.turn c).report = (f.turn d).report ∧ Alike (f.turn c).next (f.turn d).next :=
  ⟨alike [] f, fun feeds g => alike (f :: feeds) g⟩

end Alike

namespace Encoder

theorem work_level (e : Encoder) (input : Bytes) (flush : Flush) : (e.work input flush).level = e.level := by
  unfold work Encoder.flush
  cases flush <;> dsimp only <;> repeat' split
  all_goals rfl

theorem compress_level (e : Encoder) (input : Bytes) (free : Nat) (flush : Flush) :
    (e.compress input free flush).next.level = e.level := by
  unfold compress
  split
  · exact e.work_level input flush
  · rfl

theorem level_of (level : Nat) (e : Encoder) (here : OfLevel level e) : e.level = level := by
  induction here with
  | fresh => rfl
  | call c f before ih => exact (c.compress_level f.input f.free f.flush).trans ih
  | reset c before ih => exact ih

theorem compress_room (e : Encoder) (input : Bytes) (free : Nat) (flush : Flush) :
    (e.compress input free flush).output.length ≤ free := by
  unfold compress
  split <;> exact List.length_take_le _ _

instance : RenewableCompressor Encoder where
  room _ e f _ := e.compress_room f.input f.free f.flush
  renewal level e here := by
    have same : (Compressor.reset e : Encoder) = Compressor.fresh level := congrArg new (level_of level e here)
    rw [same]
    exact fun _ _ => rfl

end Encoder

namespace Engine

-- Engines of one level that differ at most in what nobody can see of their compressors.
inductive Twin (level : Nat) : Engine κ → Engine κ → Prop where
  | mk (e : Engine κ) (c : κ) (alike : Alike e.compressor c) (left : OfLevel level e.compressor)
      (right : OfLevel level c) :
      Twin level e { e with compressor := c }

variable (level : Nat) (e d : Engine κ)

theorem new_twin : Twin level (new level : Engine κ) (new level) := .mk (new level) _ (fun _ _ => rfl) .fresh .fresh

theorem twin_level (twin : Twin level e d) : OfLevel level e.compressor := by
  obtain ⟨c, -, left, -⟩ := twin
  exact left

theorem twin_symm (twin : Twin level e d) : Twin level d e := by
  obtain ⟨c, alike, left, right⟩ := twin
  exact .mk { e with compressor := c } e.compressor (alike_symm _ _ alike) right left

theorem twin_trans (f : Engine κ) (first : Twin level e d) (second : Twin level d f) : Twin level e f := by
  obtain ⟨c, alike, left, -⟩ := first
  obtain ⟨b, further, -, right⟩ := second
  exact .mk e b (alike_trans _ _ _ alike further) left right

theorem twin_fields (twin : Twin level e d) : d.finished = e.finished ∧ d.needsInput = e.needsInput := by
  obtain ⟨c, -, -, -⟩ := twin
  exact ⟨rfl, rfl⟩

theorem set_input_twin (twin : Twin level e d) (input : Bytes) : Twin level (e.setInput input) (d.setInput input) := by
  obtain ⟨c, alike, left, right⟩ := twin
  exact .mk (e.setInput input) c alike left right

theorem finish_twin (twin : Twin level e d) : Twin level e.finish d.finish := by
  obtain ⟨c, alike, left, right⟩ := twin
  exact .mk e.finish c alike left right

theorem deflate_twin (twin : Twin level e d) (free : Nat) (sync : Bool) :
    (d.deflate free sync).2 = (e.deflate free sync).2 ∧ Twin level (e.deflate free sync).1 (d.deflate free sync).1 := by
  obtain ⟨c, alike, left, right⟩ := twin
  unfold deflate
  by_cases idle : free = 0 ∨ e.finished = true
  · rw [if_pos idle, if_pos idle]
    exact ⟨rfl, .mk e c alike left right⟩
  · rw [if_neg idle, if_neg idle]
    have mode : ({ e with compressor := c } : Engine κ).flushMode sync = e.flushMode sync := rfl
    obtain ⟨seen, next⟩ := alike_turn _ _ alike ⟨e.input, free, e.flushMode sync⟩
    have first := OfLevel.call _ ⟨e.input, free, e.flushMode sync⟩ left
    have second := OfLevel.call _ ⟨e.input, free, e.flushMode sync⟩ right
    simp only [Feed.turn] at seen next first second
    rw [mode]
    dsimp only
    generalize Compressor.compress e.compressor e.input free (e.flushMode sync) = t at seen next first
    generalize Compressor.compress c e.input free (e.flushMode sync) = u at seen next second
    obtain ⟨c', taken, output, ended, fault⟩ := t
    obtain ⟨d', taken', output', ended', fault'⟩ := u
    obtain ⟨-, rfl, rfl, rfl, rfl⟩ := Turn.mk.inj seen
    cases fault with
    | none =>
        exact ⟨rfl, .mk { (e.after ⟨c', taken, output, ended, none⟩) with finished := ended } d'
          next first second⟩
    | some reason => exact ⟨rfl, .mk (e.after ⟨c', taken, output, ended, some reason⟩) d' next first second⟩

variable [RenewableCompressor κ]

theorem deflate_room (here : OfLevel level e.compressor) (free : Nat) (sync : Bool) (out : Bytes)
    (given : (e.deflate free sync).2 = .ok out) : out.length ≤ free := by
  have room := RenewableCompressor.room level e.compressor ⟨e.input, free, e.flushMode sync⟩ here
  simp only [Feed.turn] at room
  unfold deflate at given
  by_cases idle : free = 0 ∨ e.finished = true
  · rw [if_pos idle] at given
    obtain rfl : [] = out := Except.ok.inj given
    exact Nat.zero_le free
  · rw [if_neg idle] at given
    generalize Compressor.compress e.compressor e.input free (e.flushMode sync) = t at room given
    dsimp only at given
    cases fault : t.fault with
    | none =>
        rw [fault] at given
        obtain rfl : t.output = out := Except.ok.inj given
        exact room
    | some reason =>
        rw [fault] at given
        cases given

theorem reset_twin (here : OfLevel level e.compressor) : Twin level e.reset (new level) :=
  twin_symm level _ _ (.mk (new level) (Compressor.reset e.compressor)
    (alike_symm _ _ (RenewableCompressor.renewal level e.compressor here)) .fresh (.reset _ here))

end Engine

variable (capacity level : Nat)

def Entry.Twin (a b : Entry κ) : Prop := (a.engine.getD (.new level)).Twin level (b.engine.getD (.new level))

structure Pool.Tidy (p : Pool κ) : Prop where
  idle (e : Engine κ) : e ∈ p.idle → e.Twin level (.new level)
  level : p.level = level
  capacity : p.capacity = capacity

namespace Pool

variable (p : Pool κ)

omit [Compressor κ] in
theorem acquire_iff (q : Pool κ) (a : Entry κ) :
    p.acquire? = some (a, q) ↔
      p.checkedOut < p.capacity ∧ a = ⟨p.idle.head?⟩ ∧
      q = { p with idle := p.idle.tail, checkedOut := p.checkedOut + 1 } := by
  unfold acquire?
  by_cases left : p.checkedOut < p.capacity
  · simp [left, eq_comm]
  · simp [left]

theorem new_tidy : (Pool.new capacity level : Pool κ).Tidy capacity level := ⟨nofun, rfl, rfl⟩

theorem acquire_tidy (q : Pool κ) (a : Entry κ) (tidy : p.Tidy capacity level) (acquired : p.acquire? = some (a, q)) :
    q.Tidy capacity level ∧ a.Twin level ⟨none⟩ := by
  obtain ⟨-, rfl, rfl⟩ := (p.acquire_iff q a).mp acquired
  refine ⟨⟨fun e member => tidy.idle e (List.mem_of_mem_tail member), tidy.level, tidy.capacity⟩, ?_⟩
  unfold Entry.Twin
  cases kept : p.idle with
  | nil => exact Engine.new_twin level
  | cons first rest => exact tidy.idle first (by simp [kept])

theorem release_tidy [RenewableCompressor κ] (a b : Entry κ) (tidy : p.Tidy capacity level) (twin : a.Twin level b) :
    (p.release a).Tidy capacity level := by
  refine ⟨?_, tidy.level, tidy.capacity⟩
  unfold Entry.Twin at twin
  unfold release
  cases held : a.engine with
  | none => exact tidy.idle
  | some engine =>
      rw [held] at twin
      dsimp only
      split
      · intro e member
        rcases List.mem_cons.mp member with rfl | old
        · exact engine.reset_twin level (Engine.twin_level level _ _ twin)
        · exact tidy.idle e old
      · exact tidy.idle

end Pool

end Gateway.Deflate
