import Gateway.Gzip.Session

set_option autoImplicit false

namespace Gateway.Gzip

variable {κ : Type}

namespace Session

@[simp] theorem release_buffer_buffer (s : Session κ) (r : Resources κ) :
    (s.releaseBuffer r).1.buffer = none := by
  cases held : s.buffer <;> simp [releaseBuffer, held]

@[simp] theorem release_buffer_entry (s : Session κ) (r : Resources κ) :
    (s.releaseBuffer r).1.entry = s.entry := by
  cases held : s.buffer <;> simp [releaseBuffer, held]

variable [Deflate.Compressor κ]

@[simp] theorem release_entry_entry (s : Session κ) (r : Resources κ) :
    (s.releaseEntry r).1.entry = none := by
  cases held : s.entry <;> simp [releaseEntry, held]

@[simp] theorem release_entry_buffer (s : Session κ) (r : Resources κ) :
    (s.releaseEntry r).1.buffer = s.buffer := by
  cases held : s.entry <;> simp [releaseEntry, held]

@[simp] theorem released_entry (s : Session κ) (r : Resources κ) : (s.release r).1.entry = none := by
  simp [release]

@[simp] theorem released_buffer (s : Session κ) (r : Resources κ) : (s.release r).1.buffer = none := by
  simp [release]

theorem start_idle (s : Session κ) (r : Resources κ) (e : Deflate.Entry κ) (idle : s.entry = none) :
    s.start r e = ({ s with checksum := .start, entry := some e }, r) := by
  simp [start, releaseEntry, idle]

theorem start_session (s : Session κ) (r : Resources κ) (e : Deflate.Entry κ) :
    (s.start r e).1 = { s with checksum := .start, entry := some e } := by
  cases held : s.entry <;> simp [start, releaseEntry, held]

theorem start_engines (s : Session κ) (r : Resources κ) (e : Deflate.Entry κ) :
    (s.start r e).2.engines = r.engines ∨ ∃ old, (s.start r e).2.engines = r.engines.release old := by
  cases held : s.entry with
  | none => exact .inl (by simp [start, releaseEntry, held])
  | some old => exact .inr ⟨old, by simp [start, releaseEntry, held]⟩

@[simp] theorem start_entry (s : Session κ) (r : Resources κ) (e : Deflate.Entry κ) :
    (s.start r e).1.entry = some e := rfl

@[simp] theorem start_buffer (s : Session κ) (r : Resources κ) (e : Deflate.Entry κ) :
    (s.start r e).1.buffer = s.buffer := release_entry_buffer s r

end Session

namespace Write

variable [Deflate.Compressor κ]

def KeepsEntry (p : Progress κ) : Prop :=
  match p.action with
  | .ok (.flush true) => p.session.entry = none
  | _ => p.session.entry.isSome

theorem conclude_keeps_entry (w : Write) (s : Session κ) (r : Resources κ) (e : Deflate.Engine κ) (b : Buffer) :
    KeepsEntry (w.conclude s r e b) := by
  rw [conclude]
  by_cases fits : e.finished ∧ trailerSize ≤ b.free
  · rw [if_pos fits]
    simp [KeepsEntry]
  · rw [if_neg fits]
    cases b.data.isEmpty <;> simp [KeepsEntry]

theorem deflate_keeps_entry (w : Write) (s : Session κ) (r : Resources κ) (e : Deflate.Engine κ) (b : Buffer) :
    KeepsEntry (w.deflate s r e b) := by
  rw [deflate]
  generalize e.deflate b.free s.syncFlush = called
  obtain ⟨d, result⟩ := called
  cases result with
  | ok out => exact conclude_keeps_entry w s r d (b.put out)
  | error reason => simp [KeepsEntry]

def called? (w : Write) (e : Deflate.Engine κ) : Option (Deflate.Engine κ) :=
  if e.finished then none
  else if e.needsInput then
    match w.content with
    | some content => some (e.setInput content)
    | none => if w.last then some e.finish else none
  else some e

theorem advance_cases (w : Write) (s : Session κ) (r : Resources κ) (e : Deflate.Engine κ) (b : Buffer) :
    (w.advance s r e b = w.conclude s r e b ∧ w.called? e = none) ∨
    (∃ v c d, w.advance s r e b = deflate v { s with checksum := c } r d b ∧ w.called? e = some d) ∨
    (w.advance s r e b = ⟨w, { s with entry := some ⟨some e⟩, buffer := some b }, r,
      .ok (if b.data.isEmpty then .succeeded else .flush false)⟩ ∧ w.called? e = none) := by
  rw [advance, called?]
  by_cases finished : e.finished = true
  · exact .inl ⟨if_pos finished, if_pos finished⟩
  · rw [if_neg finished, if_neg finished]
    by_cases needed : e.needsInput = true
    · rw [if_pos needed, if_pos needed]
      cases w.content with
      | some octets => exact .inr (.inl ⟨_, _, _, rfl, rfl⟩)
      | none =>
          by_cases last : w.last = true
          · exact .inr (.inl ⟨w, s.checksum, _, if_pos last, if_pos last⟩)
          · exact .inr (.inr ⟨if_neg last, if_neg last⟩)
    · rw [if_neg needed, if_neg needed]
      exact .inr (.inl ⟨w, s.checksum, _, rfl, rfl⟩)

theorem step_keeps_entry (w : Write) (s : Session κ) (r : Resources κ) (active : s.entry.isSome) :
    KeepsEntry (w.step s r) := by
  obtain ⟨entry, held⟩ := Option.isSome_iff_exists.mp active
  simp only [step, held]
  rcases advance_cases w s (openBuffer s r).2 (r.engines.engine entry) (openBuffer s r).1 with
    ⟨concluded, -⟩ | ⟨v, c, d, fed, -⟩ | ⟨paused, -⟩
  · rw [concluded]
    exact conclude_keeps_entry w s _ _ _
  · rw [fed]
    exact deflate_keeps_entry v _ _ d _
  · rw [paused]
    cases (openBuffer s r).1.data.isEmpty <;> simp [KeepsEntry]

omit [Deflate.Compressor κ] in
@[simp] theorem open_buffer_engines (s : Session κ) (r : Resources κ) : (openBuffer s r).2.engines = r.engines := by
  rw [openBuffer]
  cases s.buffer <;> rfl

-- What a step leaves as it is. To the pool an entry goes back at most.
structure Retains (s : Session κ) (r : Resources κ) (p : Progress κ) : Prop where
  bufferSize : p.session.bufferSize = s.bufferSize
  syncFlush : p.session.syncFlush = s.syncFlush
  engines : p.resources.engines = r.engines ∨ ∃ entry, p.resources.engines = r.engines.release entry

theorem conclude_retains (w : Write) (s : Session κ) (r : Resources κ) (e : Deflate.Engine κ) (b : Buffer) :
    Retains s r (w.conclude s r e b) := by
  rw [conclude]
  by_cases fits : e.finished ∧ trailerSize ≤ b.free
  · rw [if_pos fits]
    exact ⟨rfl, rfl, .inr ⟨⟨some e⟩, rfl⟩⟩
  · rw [if_neg fits]
    exact ⟨rfl, rfl, .inl rfl⟩

theorem deflate_retains (w : Write) (s : Session κ) (r : Resources κ) (e : Deflate.Engine κ) (b : Buffer) :
    Retains s r (w.deflate s r e b) := by
  rw [deflate]
  generalize e.deflate b.free s.syncFlush = called
  obtain ⟨d, result⟩ := called
  cases result with
  | ok out => exact conclude_retains w s r d (b.put out)
  | error reason => exact ⟨rfl, rfl, .inl rfl⟩

theorem advance_retains (w : Write) (s : Session κ) (r : Resources κ) (e : Deflate.Engine κ) (b : Buffer) :
    Retains s r (w.advance s r e b) := by
  rcases advance_cases w s r e b with ⟨concluded, -⟩ | ⟨v, c, d, fed, -⟩ | ⟨paused, -⟩
  · rw [concluded]
    exact conclude_retains w s r e b
  · rw [fed]
    have kept := deflate_retains v { s with checksum := c } r d b
    exact ⟨kept.bufferSize, kept.syncFlush, kept.engines⟩
  · rw [paused]
    exact ⟨rfl, rfl, .inl rfl⟩

theorem step_retains (w : Write) (s : Session κ) (r : Resources κ) : Retains s r (w.step s r) := by
  rw [step]
  cases s.entry with
  | none =>
      rw [Session.releaseBuffer]
      cases s.buffer <;> exact ⟨rfl, rfl, .inl rfl⟩
  | some entry =>
      obtain ⟨bufferSize, syncFlush, engines⟩ :=
        advance_retains w s (openBuffer s r).2 (r.engines.engine entry) (openBuffer s r).1
      rw [open_buffer_engines] at engines
      exact ⟨bufferSize, syncFlush, engines⟩

end Write

end Gateway.Gzip
