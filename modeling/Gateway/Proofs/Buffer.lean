import Gateway.Buffer

set_option autoImplicit false

namespace Gateway

namespace Buffer

@[simp] theorem put_data (b : Buffer) (bytes : Bytes) : (b.put bytes).data = b.data ++ bytes := rfl

theorem put_capacity (b : Buffer) (bytes : Bytes) : b.capacity ≤ (b.put bytes).capacity := by
  unfold put
  dsimp only
  split <;> omega

theorem put_fits (b : Buffer) (bytes : Bytes) (fits : b.data.length + bytes.length ≤ b.capacity) :
    (b.put bytes).capacity = b.capacity := if_pos fits

theorem put_holds (b : Buffer) (bytes : Bytes) : b.data.length + bytes.length ≤ (b.put bytes).capacity := by
  unfold put
  dsimp only
  split <;> omega

theorem put_again (capacity : Nat) (bytes : Bytes) :
    (new ((new capacity).put bytes).capacity).put bytes = (new capacity).put bytes := by
  have fits := put_holds (new capacity) bytes
  generalize grown : (new capacity).put bytes = b at fits
  have data : b.data = bytes := by
    rw [← grown]
    rfl
  have same : ((new b.capacity).put bytes).capacity = b.capacity := put_fits (new b.capacity) bytes fits
  calc (new b.capacity).put bytes
      = ⟨((new b.capacity).put bytes).capacity, bytes⟩ := rfl
    _ = ⟨b.capacity, b.data⟩ := by rw [same, data]

end Buffer

namespace BufferPool

theorem last_fit (size i : Nat) (buffers : List Buffer) (found : lastFit? size buffers = some i) :
    ∃ b, buffers[i]? = some b ∧ size ≤ b.capacity := by
  unfold lastFit? at found
  obtain ⟨⟨b, j⟩, last, rfl⟩ := Option.map_eq_some_iff.mp found
  obtain ⟨listed, roomy⟩ := List.mem_filter.mp (List.mem_of_getLast? last)
  exact ⟨b, List.mem_zipIdx_iff_getElem?.mp listed, by simpa using roomy⟩

theorem acquire_empty (p : BufferPool) (size : Nat) :
    (p.acquire size).1.data = [] ∧ size ≤ (p.acquire size).1.capacity := by
  unfold acquire
  cases found : lastFit? size p.buffers with
  | none => exact ⟨rfl, Nat.le_refl size⟩
  | some i =>
      obtain ⟨b, present, roomy⟩ := last_fit size i p.buffers found
      simpa [present, Buffer.clear] using roomy

def Uniform (p : BufferPool) (room : Nat) : Prop := ∀ b ∈ p.buffers, b = .new room

theorem mem_remove_at (i : Nat) (buffers : List Buffer) (b : Buffer)
    (member : b ∈ removeAt i buffers) : b ∈ buffers := by
  unfold removeAt at member
  cases last : buffers.getLast? with
  | none => simp [last] at member
  | some final =>
      rw [last] at member
      rcases List.mem_or_eq_of_mem_set (List.dropLast_subset _ member) with kept | rfl
      · exact kept
      · exact List.mem_of_getLast? last

theorem acquire_uniform (p : BufferPool) (size room : Nat) (uniform : p.Uniform room) :
    ((p.acquire size).1 = .new size ∨ (p.acquire size).1 = .new room) ∧ (p.acquire size).2.Uniform room := by
  unfold acquire
  cases found : lastFit? size p.buffers with
  | none => exact ⟨.inl rfl, uniform⟩
  | some i =>
      obtain ⟨b, present, -⟩ := last_fit size i p.buffers found
      obtain rfl := uniform b (List.mem_of_getElem? present)
      refine ⟨.inr ?_, fun c member => uniform c (mem_remove_at i p.buffers c member)⟩
      dsimp only
      rw [present]
      rfl

theorem acquire_put (p : BufferPool) (size : Nat) (bytes : Bytes)
    (uniform : p.Uniform ((Buffer.new size).put bytes).capacity) :
    (p.acquire size).1.put bytes = (Buffer.new size).put bytes ∧
      (p.acquire size).2.Uniform ((Buffer.new size).put bytes).capacity := by
  obtain ⟨given, kept⟩ := p.acquire_uniform size _ uniform
  refine ⟨?_, kept⟩
  rcases given with fresh | used
  · rw [fresh]
  · rw [used]
    exact Buffer.put_again size bytes

theorem release_uniform (p : BufferPool) (b : Buffer) (room : Nat) (uniform : p.Uniform room)
    (same : b.capacity = room) :
    (p.release b).Uniform room := by
  unfold release
  by_cases kept : p.buffers.length < p.maxIdle
  · rw [if_pos kept]
    intro c member
    rcases List.mem_append.mp member with old | last
    · exact uniform c old
    · rw [List.mem_singleton.mp last, Buffer.clear, same]
      rfl
  · rw [if_neg kept]
    exact uniform

end BufferPool

end Gateway
