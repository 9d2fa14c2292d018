import Mathlib.Data.List.Induction
import Gateway.Deflate.Custody
import Gateway.Deflate.Encoder
import Gateway.Proofs.Deflate.Engine

set_option autoImplicit false

namespace Gateway.Deflate

variable {κ : Type}

namespace Custody

inductive Op (κ : Type) where
  | acquire
  | use (i : Nat) (work : Engine κ → Engine κ)
  | release (i : Nat)

def engines (c : Custody κ) : List (Engine κ) := c.pool.idle ++ c.live.filterMap (·.engine)

variable [Compressor κ]

def act (c : Custody κ) : Op κ → Custody κ
  | .acquire => c.acquire
  | .use i work => c.use i work
  | .release i => c.release i

def run (c : Custody κ) (ops : List (Op κ)) : Custody κ := ops.foldl act c

-- What an operation comes to. Nothing is done under a number without an entry.
inductive Acts (c : Custody κ) : Op κ → Custody κ → Prop where
  | refused (full : c.pool.capacity ≤ c.pool.checkedOut) : Acts c .acquire { c with entries := c.entries ++ [none] }
  | granted (room : c.pool.checkedOut < c.pool.capacity) :
      Acts c .acquire ⟨{ c.pool with idle := c.pool.idle.tail, checkedOut := c.pool.checkedOut + 1 },
        c.entries ++ [some ⟨c.pool.idle.head?⟩]⟩
  | used (i : Nat) (work : Engine κ → Engine κ) (entry : Entry κ) (front back : List (Option (Entry κ)))
      (whole : c.entries = front ++ some entry :: back) :
      Acts c (.use i work) { c with entries := front ++ some ⟨some (work (c.pool.engine entry))⟩ :: back }
  | returned (i : Nat) (entry : Entry κ) (front back : List (Option (Entry κ)))
      (whole : c.entries = front ++ some entry :: back) :
      Acts c (.release i) ⟨c.pool.release entry, front ++ none :: back⟩
  | unused (i : Nat) (work : Engine κ → Engine κ) (absent : c.entry? i = none) : Acts c (.use i work) c
  | unreturned (i : Nat) (absent : c.entry? i = none) : Acts c (.release i) c

variable (capacity level : Nat) (c d : Custody κ)

omit [Compressor κ] in
theorem entry_split (i : Nat) (entry : Entry κ) (found : c.entry? i = some entry) :
    ∃ front back, c.entries = front ++ some entry :: back ∧ ∀ x, c.entries.set i x = front ++ x :: back := by
  have here : c.entries[i]? = some (some entry) := Option.join_eq_some_iff.mp found
  obtain ⟨bound, same⟩ := List.getElem?_eq_some_iff.mp here
  refine ⟨c.entries.take i, c.entries.drop (i + 1), ?_, fun x => List.set_eq_take_append_cons_drop.trans (if_pos bound)⟩
  rw [← same, ← List.drop_eq_getElem_cons bound, List.take_append_drop]

theorem act_acts (op : Op κ) : Acts c op (c.act op) := by
  cases op with
  | acquire =>
      by_cases room : c.pool.checkedOut < c.pool.capacity
      · have granted : c.act .acquire = _ := congrArg c.keep (if_pos room)
        rw [granted]
        exact .granted room
      · have refused : c.act .acquire = _ := congrArg c.keep (if_neg room)
        rw [refused]
        exact .refused (Nat.le_of_not_lt room)
  | use i work =>
      rw [act, use]
      cases found : c.entry? i with
      | none => exact .unused i work found
      | some entry =>
          obtain ⟨front, back, whole, changed⟩ := c.entry_split i entry found
          dsimp only
          rw [changed]
          exact .used i work entry front back whole
  | release i =>
      rw [act, release]
      cases found : c.entry? i with
      | none => exact .unreturned i found
      | some entry =>
          obtain ⟨front, back, whole, changed⟩ := c.entry_split i entry found
          dsimp only
          rw [changed]
          exact .returned i entry front back whole

-- Together the entries that are out and the engines that lie idle never exceed the capacity.
structure Conserved (capacity : Nat) (c : Custody κ) : Prop where
  capacity : c.pool.capacity = capacity
  counted : c.pool.checkedOut = c.live.length
  bounded : c.pool.checkedOut + c.pool.idle.length ≤ c.pool.capacity
  ready : c.pool.Ready

theorem new_conserved : (new (Pool.new capacity level) : Custody κ).Conserved capacity where
  capacity := rfl
  counted := rfl
  bounded := Nat.zero_le capacity
  ready := new_ready capacity level

section Return

variable (entry : Entry κ) (front back : List (Option (Entry κ))) (whole : c.entries = front ++ some entry :: back)

include whole

omit [Compressor κ] in
theorem live_split : c.live = front.filterMap id ++ entry :: back.filterMap id := by
  simp [live, whole]

-- An engine that comes back finds room, so that the bound on the idle ones is never met.
theorem returned_pool (conserved : c.Conserved capacity) :
    c.pool.release entry =
      { c.pool with
        idle := (entry.engine.map Engine.reset).toList ++ c.pool.idle
        checkedOut := c.pool.checkedOut - 1 } := by
  have out : 0 < c.pool.checkedOut := by
    rw [conserved.counted, c.live_split entry front back whole, List.length_append, List.length_cons]
    omega
  have room : c.pool.idle.length < c.pool.capacity := by
    have bounded := conserved.bounded
    omega
  rw [Pool.release]
  cases entry.engine with
  | none => rfl
  | some engine =>
      dsimp only
      rw [if_pos room]
      rfl

theorem returned_count (conserved : c.Conserved capacity) :
    (c.pool.release entry).checkedOut + 1 = c.pool.checkedOut := by
  have count : c.pool.checkedOut = (front.filterMap id).length + ((back.filterMap id).length + 1) := by
    rw [conserved.counted, c.live_split entry front back whole, List.length_append, List.length_cons]
  change c.pool.checkedOut - 1 + 1 = c.pool.checkedOut
  omega

end Return

theorem acts_conserved (op : Op κ) (conserved : c.Conserved capacity) (acts : Acts c op d) : d.Conserved capacity := by
  obtain ⟨same, counted, bounded, ready⟩ := conserved
  cases acts with
  | refused full =>
      refine ⟨same, ?_, bounded, ready⟩
      rw [counted]
      simp [live]
  | granted room =>
      refine ⟨same, ?_, ?_, fun e member => ready e (List.mem_of_mem_tail member)⟩
      · change c.pool.checkedOut + 1 = _
        rw [counted]
        simp [live]
      · change c.pool.checkedOut + 1 + c.pool.idle.tail.length ≤ c.pool.capacity
        rw [List.length_tail]
        omega
  | used i work entry front back whole =>
      refine ⟨same, ?_, bounded, ready⟩
      rw [counted, c.live_split entry front back whole]
      simp [live]
  | returned i entry front back whole =>
      have count := c.returned_count capacity entry front back whole ⟨same, counted, bounded, ready⟩
      have pool := c.returned_pool capacity entry front back whole ⟨same, counted, bounded, ready⟩
      refine ⟨same, ?_, ?_, release_ready c.pool entry ready⟩
      · rw [counted, c.live_split entry front back whole, List.length_append, List.length_cons] at count
        have less : live (⟨c.pool.release entry, front ++ none :: back⟩ : Custody κ) =
            front.filterMap id ++ back.filterMap id := by
          simp [live]
        rw [less, List.length_append]
        dsimp only
        omega
      · have grown : (entry.engine.map Engine.reset).toList.length ≤ 1 := Option.length_toList_le
        have idle : (c.pool.release entry).idle = (entry.engine.map Engine.reset).toList ++ c.pool.idle :=
          congrArg Pool.idle pool
        change (c.pool.release entry).checkedOut + (c.pool.release entry).idle.length ≤ c.pool.capacity
        rw [idle, List.length_append]
        omega
  | unused | unreturned => exact ⟨same, counted, bounded, ready⟩

theorem run_append (ops : List (Op κ)) (op : Op κ) : c.run (ops ++ [op]) = (c.run ops).act op := by
  simp [run]

theorem run_conserved (ops : List (Op κ)) :
    ((new (Pool.new capacity level) : Custody κ).run ops).Conserved capacity := by
  induction ops using List.reverseRecOn with
  | nil => exact new_conserved capacity level
  | append_singleton ops op ih =>
      rw [run_append]
      exact acts_conserved capacity _ _ op ih (act_acts _ op)

end Custody

-- A compressor that carries the number of the engine in which it works, once that has one.
structure Marked (κ : Type) where
  bare : κ
  number : Option Nat

instance [Compressor κ] : Compressor (Marked κ) where
  fresh level := ⟨Compressor.fresh level, none⟩
  reset c := ⟨Compressor.reset c.bare, c.number⟩
  compress c input free flush :=
    let t := Compressor.compress c.bare input free flush
    ⟨⟨t.next, c.number⟩, t.taken, t.output, t.ended, t.fault⟩

namespace Engine

variable (n : Nat) (e : Engine (Marked κ))

def number : Option Nat := e.compressor.number

def bare : Engine κ := { e with compressor := e.compressor.bare }

def worked (work : Engine κ → Engine κ) : Engine (Marked κ) :=
  let d := work e.bare
  { d with compressor := ⟨d.compressor, some (e.number.getD n)⟩ }

end Engine

def Entry.bare (entry : Entry (Marked κ)) : Entry κ := ⟨entry.engine.map Engine.bare⟩

def Pool.bare (p : Pool (Marked κ)) : Pool κ := { p with idle := p.idle.map Engine.bare }

section Bare

variable [Compressor κ] (p : Pool (Marked κ)) (entry : Entry (Marked κ))

theorem engine_bare : (p.engine entry).bare = p.bare.engine entry.bare := by
  obtain ⟨engine⟩ := entry
  cases engine <;> rfl

theorem release_bare : (p.release entry).bare = p.bare.release entry.bare := by
  have size : p.bare.idle.length = p.idle.length := List.length_map _
  obtain ⟨engine⟩ := entry
  cases engine with
  | none => rfl
  | some engine =>
      by_cases room : p.idle.length < p.capacity
      · have room' : p.bare.idle.length < p.bare.capacity := size ▸ room
        simp only [Pool.release, Entry.bare, Option.map_some, if_pos room, if_pos room']
        rfl
      · have full : ¬ p.bare.idle.length < p.bare.capacity := size ▸ room
        simp only [Pool.release, Entry.bare, Option.map_some, if_neg room, if_neg full]
        rfl

end Bare

namespace Custody

def bare (c : Custody (Marked κ)) : Custody κ := ⟨c.pool.bare, c.entries.map (Option.map Entry.bare)⟩

def Op.numbered (n : Nat) : Op κ → Op (Marked κ)
  | .acquire => .acquire
  | .use i work => .use i fun e => e.worked n work
  | .release i => .release i

-- The same operations on engines with numbers: an engine has the number of the operation that made it.
def traced (ops : List (Op κ)) : List (Op (Marked κ)) := ops.mapIdx Op.numbered

theorem traced_append (ops : List (Op κ)) (op : Op κ) : traced (ops ++ [op]) = traced ops ++ [op.numbered ops.length] :=
  List.mapIdx_concat

def numbers (c : Custody (Marked κ)) : List (Option Nat) := c.engines.map Engine.number

variable [Compressor κ] (n capacity level : Nat) (c d : Custody (Marked κ))

omit [Compressor κ] in
theorem bare_entry (i : Nat) : c.bare.entry? i = (c.entry? i).map Entry.bare := by
  unfold entry?
  rw [bare, List.getElem?_map, Option.join_map_eq_map_join]

theorem act_bare (op : Op κ) : (c.act (op.numbered n)).bare = c.bare.act op := by
  cases op with
  | acquire =>
      change (c.keep c.pool.acquire?).bare = c.bare.keep c.bare.pool.acquire?
      rw [Pool.acquire?, Pool.acquire?]
      change _ = c.bare.keep (if c.pool.checkedOut < c.pool.capacity then _ else none)
      split <;> simp [keep, bare, Pool.bare, Entry.bare]
  | use i work =>
      change (c.use i _).bare = c.bare.use i work
      rw [use, use, bare_entry]
      cases c.entry? i with
      | none => rfl
      | some entry =>
          have engine : c.bare.pool.engine entry.bare = (c.pool.engine entry).bare := (engine_bare c.pool entry).symm
          dsimp only [Option.map_some]
          rw [engine]
          simp only [bare, List.map_set]
          rfl
  | release i =>
      change (c.release i).bare = c.bare.release i
      rw [release, release, bare_entry]
      cases c.entry? i with
      | none => rfl
      | some entry =>
          have pool : c.bare.pool.release entry.bare = (c.pool.release entry).bare := (release_bare c.pool entry).symm
          dsimp only [Option.map_some]
          rw [pool]
          simp only [bare, List.map_set]
          rfl

theorem run_bare (ops : List (Op κ)) :
    ((new (Pool.new capacity level)).run (traced ops)).bare = (new (Pool.new capacity level) : Custody κ).run ops := by
  induction ops using List.reverseRecOn with
  | nil => rfl
  | append_singleton ops op ih => rw [traced_append, run_append, run_append, act_bare, ih]

structure Sole (n : Nat) (c : Custody (Marked κ)) : Prop where
  distinct : c.numbers.Nodup
  given : ∀ x ∈ c.numbers, ∃ k < n, x = some k

omit [Compressor κ] in
theorem numbers_append (added : List (Engine (Marked κ))) (p q : Pool (Marked κ))
    (entries : List (Option (Entry (Marked κ))))
    (idle : q.idle = added ++ p.idle) : numbers ⟨q, entries⟩ = added.map Engine.number ++ numbers ⟨p, entries⟩ := by
  simp [numbers, engines, live, idle]

omit [Compressor κ] in
theorem numbers_split (pool : Pool (Marked κ)) (x : Option (Entry (Marked κ)))
    (front back : List (Option (Entry (Marked κ)))) :
    (numbers ⟨pool, front ++ x :: back⟩).Perm
      ((x.bind (·.engine)).toList.map Engine.number ++ numbers ⟨pool, front ++ back⟩) := by
  have parts : (front ++ x :: back).filterMap id = front.filterMap id ++ x.toList ++ back.filterMap id := by
    cases x <;> simp
  have own : x.toList.filterMap (·.engine) = (x.bind (·.engine)).toList := by
    obtain _ | ⟨_ | _⟩ := x <;> rfl
  simp only [numbers, engines, live, parts, List.filterMap_append, List.map_append, own]
  generalize (pool.idle.map Engine.number) = idle
  grind

theorem acts_numbers (op : Op κ) (conserved : c.Conserved capacity) (sole : c.Sole n)
    (acts : Acts c (op.numbered n) d) :
    d.numbers.Perm c.numbers ∨ d.numbers.Perm (some n :: c.numbers) := by
  cases op with
  | acquire =>
      cases acts with
      | refused full =>
          left
          have moved := numbers_split c.pool none c.entries []
          rwa [List.append_nil] at moved
      | granted room =>
          left
          have moved := numbers_split { c.pool with idle := c.pool.idle.tail, checkedOut := c.pool.checkedOut + 1 }
            (some ⟨c.pool.idle.head?⟩) c.entries []
          have whole : c.pool.idle = c.pool.idle.head?.toList ++ c.pool.idle.tail := by
            cases c.pool.idle <;> rfl
          rw [List.append_nil, Option.bind_some, ← numbers_append _ _ c.pool c.entries whole] at moved
          exact moved
  | use i work =>
      cases acts with
      | used _ _ entry front back whole =>
          have before := numbers_split c.pool (some entry) front back
          have after := numbers_split c.pool (some ⟨some ((c.pool.engine entry).worked n work)⟩) front back
          rw [← whole] at before
          obtain ⟨engine⟩ := entry
          cases engine with
          | none => exact .inr (after.trans (before.symm.cons (some n)))
          | some e =>
              have listed : e.number ∈ c.numbers := before.mem_iff.mpr List.mem_cons_self
              obtain ⟨k, -, given⟩ := sole.given _ listed
              have kept : (e.worked n work).number = e.number := by
                change some (e.number.getD n) = e.number
                rw [given]
                rfl
              left
              change (numbers _).Perm ((e.worked n work).number :: _) at after
              rw [kept] at after
              exact after.trans before.symm
      | unused => exact .inl (.refl _)
  | release i =>
      cases acts with
      | returned _ entry front back whole =>
          have before := numbers_split c.pool (some entry) front back
          have after : (numbers ⟨c.pool.release entry, front ++ none :: back⟩).Perm
              (numbers ⟨c.pool.release entry, front ++ back⟩) := numbers_split _ none front back
          have pool := congrArg Pool.idle (c.returned_pool capacity entry front back whole conserved)
          have same : (entry.engine.map Engine.reset).toList.map Engine.number =
              entry.engine.toList.map Engine.number := by
            cases entry.engine <;> rfl
          rw [← whole] at before
          rw [numbers_append _ c.pool _ (front ++ back) pool, same] at after
          exact .inl (after.trans before.symm)
      | unreturned => exact .inl (.refl _)

theorem acts_sole (op : Op κ) (conserved : c.Conserved capacity) (sole : c.Sole n) (acts : Acts c (op.numbered n) d) :
    d.Sole (n + 1) := by
  have older (x : Option Nat) (member : x ∈ c.numbers) : ∃ k < n + 1, x = some k := by
    obtain ⟨k, less, same⟩ := sole.given x member
    exact ⟨k, Nat.lt_succ_of_lt less, same⟩
  have fresh : some n ∉ c.numbers := by
    intro member
    obtain ⟨k, less, same⟩ := sole.given _ member
    exact Nat.ne_of_gt less (Option.some.inj same)
  rcases acts_numbers n capacity c d op conserved sole acts with kept | made
  · exact ⟨kept.nodup_iff.mpr sole.distinct, fun x member => older x (kept.mem_iff.mp member)⟩
  · refine ⟨made.nodup_iff.mpr (List.nodup_cons.mpr ⟨fresh, sole.distinct⟩), fun x member => ?_⟩
    rcases List.mem_cons.mp (made.mem_iff.mp member) with rfl | old
    · exact ⟨n, Nat.lt_succ_self n, rfl⟩
    · exact older x old

theorem run_sole (ops : List (Op κ)) : ((new (Pool.new capacity level)).run (traced ops)).Sole ops.length := by
  induction ops using List.reverseRecOn with
  | nil => exact ⟨List.nodup_nil, nofun⟩
  | append_singleton ops op ih =>
      rw [traced_append, run_append, List.length_append]
      exact acts_sole _ capacity _ _ op (run_conserved capacity level (traced ops)) ih (act_acts _ _)

section Whole

variable (c : Custody κ)

theorem full_iff (conserved : c.Conserved capacity) : c.pool.acquire? = none ↔ c.live.length = capacity := by
  obtain ⟨rfl, counted, bounded, -⟩ := conserved
  rw [← counted, Pool.acquire?]
  split
  · simp only [reduceCtorEq, false_iff]
    omega
  · simp only [true_iff]
    omega

theorem release_once (conserved : c.Conserved capacity) (i : Nat) (entry : Entry κ) (found : c.entry? i = some entry) :
    (c.release i).pool.checkedOut + 1 = c.pool.checkedOut ∧ entry? (c.release i) i = none := by
  obtain ⟨front, back, whole, -⟩ := c.entry_split i entry found
  rw [release, found]
  refine ⟨c.returned_count capacity entry front back whole conserved, ?_⟩
  simp only [List.getElem?_set_self', entry?]
  cases c.entries[i]? <;> rfl

end Whole

theorem conserves (ops : List (Op κ)) :
    let c := (new (Pool.new capacity level) : Custody κ).run ops
    let m := (new (Pool.new capacity level) : Custody (Marked κ)).run (traced ops)
    (c.pool.checkedOut = c.live.length ∧ c.pool.checkedOut ≤ capacity ∧
      c.pool.checkedOut + c.pool.idle.length ≤ capacity) ∧
    (c.pool.acquire? = none ↔ c.live.length = capacity) ∧
    (∀ i entry, c.entry? i = some entry →
      (c.release i).pool.checkedOut + 1 = c.pool.checkedOut ∧ entry? (c.release i) i = none) ∧
    (m.bare = c ∧ m.numbers.Nodup ∧ ∀ x ∈ m.numbers, x.isSome = true) ∧
    ∀ e ∈ c.pool.idle, e.input = [] ∧ e.finishing = false ∧ e.finished = false := by
  intro c m
  have conserved : c.Conserved capacity := run_conserved capacity level ops
  have sole : m.Sole ops.length := run_sole capacity level ops
  have bounded : c.pool.checkedOut + c.pool.idle.length ≤ capacity := conserved.capacity ▸ conserved.bounded
  refine ⟨⟨conserved.counted, ?_, bounded⟩, c.full_iff capacity conserved, c.release_once capacity conserved,
    ⟨run_bare capacity level ops, sole.distinct, ?_⟩, ?_⟩
  · exact Nat.le_trans (Nat.le_add_right _ _) bounded
  · intro x member
    obtain ⟨k, -, rfl⟩ := sole.given x member
    rfl
  · intro e member
    obtain ⟨used, rfl⟩ := conserved.ready e member
    exact ⟨rfl, rfl, rfl⟩

def halfway : List (Op Encoder) := [.acquire, .acquire, .use 0 Engine.finish, .release 0]

theorem conserves_halfway :
    let c := (new (Pool.new 2 6)).run halfway
    c.entry? 1 = some ⟨none⟩ ∧ (c.release 1).pool.checkedOut = 0 ∧ entry? (c.release 1) 1 = none ∧
    c.pool.acquire? ≠ none ∧ ∃ e, c.pool.idle = [e] ∧ e.finishing = false := by
  intro c
  obtain ⟨⟨counted, -⟩, full, once, -, ready⟩ := conserves 2 6 halfway
  have out : c.entry? 1 = some ⟨none⟩ := rfl
  have one : c.live.length = 1 := rfl
  obtain ⟨e, alone⟩ : ∃ e, c.pool.idle = [e] := ⟨_, rfl⟩
  have idle : e ∈ c.pool.idle := alone ▸ List.mem_singleton_self e
  obtain ⟨less, gone⟩ := once 1 ⟨none⟩ out
  refine ⟨out, ?_, gone, ?_, e, alone, (ready e idle).2.1⟩
  · change (c.release 1).pool.checkedOut + 1 = c.pool.checkedOut at less
    change c.pool.checkedOut = c.live.length at counted
    omega
  · intro exhausted
    have both : c.live.length = 2 := full.mp exhausted
    omega

end Custody

end Gateway.Deflate
