import Gateway.Deflate.Engine
import Gateway.Deflate.Inflate

set_option autoImplicit false

namespace Gateway.Deflate

variable {κ : Type} [Compressor κ]

inductive Stage where
  | running
  | closing
  | ended
deriving DecidableEq

inductive Driven : κ → Bytes → Bytes → Stage → Prop where
  | fresh (level : Nat) : Driven (Compressor.fresh level) [] [] .running
  | reset (c : κ) : Driven (Compressor.reset c) [] [] .running
  | feed (c : κ) (fed out input : Bytes) (free : Nat) (flush : Flush) (before : Driven c fed out .running)
      (given : input ≠ []) (room : 0 < free) (more : flush ≠ .finish) :
      Driven (Compressor.compress c input free flush).next
        (fed ++ input.take (Compressor.compress c input free flush).taken)
        (out ++ (Compressor.compress c input free flush).output) .running
  | close (c : κ) (fed out : Bytes) (free : Nat) (stage : Stage) (before : Driven c fed out stage)
      (open_ : stage ≠ .ended) (room : 0 < free) :
      Driven (Compressor.compress c [] free .finish).next fed
        (out ++ (Compressor.compress c [] free .finish).output)
        (if (Compressor.compress c [] free .finish).ended then .ended else .closing)

structure Turn.Feeds (t : Turn κ) (input : Bytes) (free : Nat) : Prop where
  fault : t.fault = none
  ended : t.ended = false
  taken : t.taken ≤ input.length
  room : t.output.length ≤ free
  progress : t.taken = 0 → t.output ≠ []

structure Turn.Closes (t : Turn κ) (free : Nat) : Prop where
  fault : t.fault = none
  room : t.output.length ≤ free
  progress : t.ended = false → t.output ≠ []

def Turn.Pays (t : Turn κ) (owed : κ → Nat) (c : κ) : Prop := t.output.length + owed t.next ≤ owed c

structure Bounded (owed : κ → Nat) : Prop where
  feeds (c : κ) (fed out input : Bytes) (free : Nat) (flush : Flush) : Driven c fed out .running → input ≠ [] →
    0 < free → flush ≠ .finish → (Compressor.compress c input free flush).taken = 0 →
    (Compressor.compress c input free flush).Pays owed c
  closes (c : κ) (fed out : Bytes) (free : Nat) (stage : Stage) : Driven c fed out stage → stage ≠ .ended →
    0 < free → (Compressor.compress c [] free .finish).Pays owed c

-- Each call makes progress, and without new input there is only so much left to put out.
class ProgressiveCompressor (κ : Type) [Compressor κ] : Prop where
  feeds (c : κ) (fed out input : Bytes) (free : Nat) (flush : Flush) : Driven c fed out .running → input ≠ [] →
    0 < free → flush ≠ .finish → (Compressor.compress c input free flush).Feeds input free
  closes (c : κ) (fed out : Bytes) (free : Nat) (stage : Stage) : Driven c fed out stage → stage ≠ .ended →
    0 < free → (Compressor.compress c [] free .finish).Closes free
  finite : ∃ owed : κ → Nat, Bounded owed

-- The output of a whole stream inflates to its input, each call makes progress, and without new
-- input there is only so much left to put out.
class LawfulCompressor (κ : Type) [Compressor κ] : Prop where
  feeds (c : κ) (fed out input : Bytes) (free : Nat) (flush : Flush) : Driven c fed out .running → input ≠ [] →
    0 < free → flush ≠ .finish → (Compressor.compress c input free flush).Feeds input free
  closes (c : κ) (fed out : Bytes) (free : Nat) (stage : Stage) : Driven c fed out stage → stage ≠ .ended →
    0 < free → (Compressor.compress c [] free .finish).Closes free
  complete (c : κ) (fed out : Bytes) : Driven c fed out .ended → inflate? out = some fed
  finite : ∃ owed : κ → Nat, Bounded owed

instance [LawfulCompressor κ] : ProgressiveCompressor κ :=
  ⟨LawfulCompressor.feeds, LawfulCompressor.closes, LawfulCompressor.finite⟩

end Gateway.Deflate
