import Gateway.Buffer
import Gateway.Deflate.Pool
import Gateway.Gzip.Member

set_option autoImplicit false

namespace Gateway.Gzip

structure Resources (κ : Type) where
  engines : Deflate.Pool κ
  buffers : BufferPool
deriving DecidableEq

structure Session (κ : Type) where
  checksum : Checksum
  entry : Option (Deflate.Entry κ)
  buffer : Option Buffer
  bufferSize : Nat
  syncFlush : Bool
deriving DecidableEq

namespace Session

variable {κ : Type}

def new (bufferSize : Nat) (syncFlush : Bool) : Session κ :=
  { checksum := .start, entry := none, buffer := none, bufferSize, syncFlush }

def isActive (s : Session κ) : Bool := s.entry.isSome

def output (s : Session κ) : Bytes :=
  match s.buffer with
  | some b => b.data
  | none => []

def releaseBuffer (s : Session κ) (r : Resources κ) : Session κ × Resources κ :=
  match s.buffer with
  | some b => ({ s with buffer := none }, { r with buffers := r.buffers.release b })
  | none => (s, r)

variable [Deflate.Compressor κ]

def releaseEntry (s : Session κ) (r : Resources κ) : Session κ × Resources κ :=
  match s.entry with
  | some e => ({ s with entry := none }, { r with engines := r.engines.release e })
  | none => (s, r)

def release (s : Session κ) (r : Resources κ) : Session κ × Resources κ :=
  let (s, r) := s.releaseEntry r
  s.releaseBuffer r

def start (s : Session κ) (r : Resources κ) (e : Deflate.Entry κ) : Session κ × Resources κ :=
  let (s, r) := s.releaseEntry r
  ({ s with checksum := .start, entry := some e }, r)

end Session

inductive Action where
  -- Forward the output; the last one ends the response.
  | flush (last : Bool)
  | idle
  | succeeded
deriving DecidableEq

structure Write where
  content : Option Bytes
  last : Bool
deriving DecidableEq

structure Progress (κ : Type) where
  write : Write
  session : Session κ
  resources : Resources κ
  action : Except Text Action

namespace Write

variable {κ : Type}

def new (last : Bool) (content : Option Bytes) : Write :=
  ⟨content.filter (!·.isEmpty), last⟩

def openBuffer (s : Session κ) (r : Resources κ) : Buffer × Resources κ :=
  match s.buffer with
  | some b => (b.clear, r)
  | none =>
    let (b, buffers) := r.buffers.acquire s.bufferSize
    (b.put header, { r with buffers })

variable [Deflate.Compressor κ]

def conclude (w : Write) (s : Session κ) (r : Resources κ) (e : Deflate.Engine κ) (b : Buffer) :
    Progress κ :=
  if e.finished ∧ trailerSize ≤ b.free then
    let s := { s with entry := some ⟨some e⟩, buffer := some (b.put (trailer s.checksum)) }
    let (s, r) := s.releaseEntry r
    ⟨w, s, r, .ok (.flush true)⟩
  else
    let s := { s with entry := some ⟨some e⟩, buffer := some b }
    ⟨w, s, r, .ok (if b.data.isEmpty then .idle else .flush false)⟩

def deflate (w : Write) (s : Session κ) (r : Resources κ) (e : Deflate.Engine κ) (b : Buffer) :
    Progress κ :=
  match e.deflate b.free s.syncFlush with
  | (e, .ok out) => w.conclude s r e (b.put out)
  | (e, .error reason) =>
    ⟨w, { s with entry := some ⟨some e⟩, buffer := some b }, r, .error reason⟩

def advance (w : Write) (s : Session κ) (r : Resources κ) (e : Deflate.Engine κ) (b : Buffer) :
    Progress κ :=
  if e.finished then w.conclude s r e b
  else if e.needsInput then
    match w.content with
    | some content =>
      deflate { w with content := none } { s with checksum := s.checksum.add content } r
        (e.setInput content) b
    | none =>
      if w.last then w.deflate s r e.finish b
      else
        let s := { s with entry := some ⟨some e⟩, buffer := some b }
        ⟨w, s, r, .ok (if b.data.isEmpty then .succeeded else .flush false)⟩
  else w.deflate s r e b

def step (w : Write) (s : Session κ) (r : Resources κ) : Progress κ :=
  match s.entry with
  | none =>
    let (s, r) := s.releaseBuffer r
    ⟨w, s, r, .ok .succeeded⟩
  | some entry =>
    let e := r.engines.engine entry
    let (b, r) := openBuffer s r
    w.advance s r e b

end Write

end Gateway.Gzip
