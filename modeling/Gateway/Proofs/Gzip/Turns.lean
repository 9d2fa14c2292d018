import Gateway.Gzip.Response

set_option autoImplicit false

namespace Gateway.Gzip

def Phase.IsActive : Phase → Prop
  | .writing _ _ _ => True
  | .compressing _ => True
  | _ => False

namespace Response

variable {σ κ : Type} [Sink σ] [Deflate.Compressor κ]

def stepped (r : Response σ κ) (p : Progress κ) : Response σ κ :=
  { r with session := p.session, resources := p.resources }

def sent (r : Response σ κ) (last : Bool) (content : Option Bytes) : Response σ κ :=
  { r with sink := (Sink.write r.sink last content).1 }

variable (me : Nat) (r : Response σ κ) (w : Write) (p : Progress κ) (step : w.step r.session r.resources = p)

theorem settle_done (result : Sent) : settle me r (.done result) = some (r, result) := by
  rw [settle]

theorem settle_active (phase : Phase) (active : phase.IsActive) :
    settle me r phase = settle me (r.resume me phase).1 (r.resume me phase).2 := by
  cases phase with
  | writing last content site =>
      rw [settle]
      · rfl
      · intro result same
        cases same
  | compressing w =>
      rw [settle]
      · rfl
      · intro result same
        cases same
  | _ => exact active.elim

theorem settle_compressing :
    settle me r (.compressing w) = settle me (r.compress w).1 (r.compress w).2 :=
  settle_active me r (.compressing w) trivial

theorem resume_writing (last : Bool) (content : Option Bytes) (site : Site)
    (accepted : (Sink.write r.sink last content).2 = .ok ()) :
    r.resume me (.writing last content site) = (r.sent last content).afterWrite last (.ok ()) site := by
  rw [← accepted]
  rfl

theorem settle_writing (last : Bool) (content : Option Bytes) (site : Site)
    (accepted : (Sink.write r.sink last content).2 = .ok ()) :
    settle me r (.writing last content site) =
      settle me ((r.sent last content).afterWrite last (.ok ()) site).1
        ((r.sent last content).afterWrite last (.ok ()) site).2 := by
  rw [settle_active me r (.writing last content site) trivial, resume_writing me r last content site accepted]

include step

theorem settle_flush (action : p.action = .ok (.flush false))
    (accepted : (Sink.write r.sink false (some p.session.output)).2 = .ok ()) :
    settle me r (.compressing w) =
      settle me ((r.stepped p).sent false (some p.session.output)) (.compressing p.write) := by
  have forwards : r.compress w = (r.stepped p, .writing false (some p.session.output) (.flushing p.write)) := by
    rw [compress, step]
    dsimp only
    rw [action]
    rfl
  rw [settle_compressing, forwards]
  exact settle_writing me (r.stepped p) false _ _ accepted

theorem settle_idle (action : p.action = .ok .idle) :
    settle me r (.compressing w) = settle me (r.stepped p) (.compressing p.write) := by
  rw [settle_compressing, compress, step]
  dsimp only
  rw [action]
  rfl

theorem settle_taken (action : p.action = .ok .succeeded) :
    settle me r (.compressing w) = some ((r.stepped p).unlock, .ok ()) := by
  rw [settle_compressing, compress, step]
  dsimp only
  rw [action]
  exact settle_done me _ _

def closed (r : Response σ κ) : Response σ κ :=
  { r with
    session := (r.session.releaseBuffer r.resources).1
    resources := (r.session.releaseBuffer r.resources).2
    state := .finished }

theorem settle_last (action : p.action = .ok (.flush true))
    (accepted : (Sink.write r.sink true (some p.session.output)).2 = .ok ()) :
    settle me r (.compressing w) =
      some (((r.stepped p).sent true (some p.session.output)).closed.unlock, .ok ()) := by
  have forwards : r.compress w = (r.stepped p, .writing true (some p.session.output) (.flushing p.write)) := by
    rw [compress, step]
    dsimp only
    rw [action]
    rfl
  rw [settle_compressing, forwards]
  dsimp only
  rw [settle_writing me (r.stepped p) true _ _ accepted]
  exact settle_done me _ _

omit step

theorem call_settled (c : Call) (q : Response σ κ) (result : Sent)
    (settled : settle 0 (r.start 0 c).1 (r.start 0 c).2 = some (q, result)) : r.call c = (q, result) := by
  rw [call]
  dsimp only
  rw [settled, Option.getD_some]

def settleWithin (me : Nat) : Nat → Response σ κ → Phase → Option (Response σ κ × Sent)
  | _, r, .done result => some (r, result)
  | 0, _, _ => none
  | n + 1, r, phase =>
    if r.isBlocked me phase then none else settleWithin me n (r.resume me phase).1 (r.resume me phase).2

theorem settle_within (n : Nat) (phase : Phase) (q : Response σ κ × Sent) (ends : settleWithin me n r phase = some q) :
    settle me r phase = some q := by
  induction n generalizing r phase with
  | zero =>
      cases phase with
      | done result => exact (settle_done me r result).trans ends
      | _ => cases ends
  | succ n ih =>
      cases phase with
      | done result => exact (settle_done me r result).trans ends
      | _ =>
          simp only [settleWithin] at ends
          split at ends
          · cases ends
          · rename_i free
            rw [settle]
            · rw [if_neg free]
              exact ih _ _ ends
            · intro result same
              cases same

def callWithin (n : Nat) (c : Call) : Option (Response σ κ × Sent) := settleWithin 0 n (r.start 0 c).1 (r.start 0 c).2

def afterCall (n : Nat) (c : Call) : Response σ κ := ((r.callWithin n c).map (·.1)).getD r

theorem call_within (n : Nat) (c : Call) (fine : (r.callWithin n c).any (·.2.isOk) = true) :
    r.call c = (r.afterCall n c, .ok ()) := by
  cases ends : r.callWithin n c with
  | none =>
      rw [ends] at fine
      cases fine
  | some x =>
      obtain ⟨q, result⟩ := x
      rw [ends] at fine
      cases result with
      | error e => cases fine
      | ok done =>
          have same : r.afterCall n c = q := by
            rw [afterCall, ends]
            rfl
          rw [same]
          exact call_settled r c q (.ok ()) (settle_within 0 _ n _ _ ends)

def perform (r : Response σ κ) : List Call → Response σ κ × List Sent
  | [] => (r, [])
  | c :: rest => (((r.call c).1.perform rest).1, (r.call c).2 :: ((r.call c).1.perform rest).2)

end Response

end Gateway.Gzip
