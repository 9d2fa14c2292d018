import Gateway.Gzip.Fields
import Gateway.Gzip.Policy
import Gateway.Gzip.Session
import Gateway.Gzip.State
import Gateway.Payload
import Gateway.Sink

set_option autoImplicit false

namespace Gateway.Gzip

structure Response (σ κ : Type) where
  state : State
  completed : Bool
  -- The call that holds the lock, which alone touches sink and session, and those that wait for it.
  holder : Option Nat
  queue : List Nat
  sink : σ
  session : Session κ
  resources : Resources κ
  policy : Policy
  vary : Option Header.Value
  -- The tags that the request named before their marks were taken away.
  requestTags : Option Text

inductive Call where
  | write (last : Bool) (content : Option Bytes)
  | succeeded
  | failed
  | noCompression

inductive Errand where
  | commit (last : Bool) (content : Option Bytes)
  | abandon

-- What a write to the sink is part of: a response that is not compressed, the head of a compressed
-- one ahead of any content, or the output of the compression.
inductive Site where
  | passing
  | heading
  | flushing (write : Write)

-- Where a call stands. It is interrupted while it waits for the lock, ahead of each write to the
-- sink and, so that each of its steps is finite, between two steps of the compression.
inductive Phase where
  | waiting (errand : Errand)
  | writing (last : Bool) (content : Option Bytes) (site : Site)
  | compressing (write : Write)
  | done (result : Sent)

inductive Verdict (κ : Type) where
  | plain (headers : Header.Map)
  | coded (headers : Header.Map) (entry : Deflate.Entry κ) (engines : Deflate.Pool κ)

namespace Response

variable {σ κ : Type}

def new (sink : σ) (policy : Policy) (resources : Resources κ) : Response σ κ :=
  { state := .mightCompress
    completed := false
    holder := none
    queue := []
    sink
    session := .new 32768 false
    resources
    policy
    vary := some ⟨Text.utf8 "Accept-Encoding".toList, by decide⟩
    requestTags := none }

def lock (r : Response σ κ) (me : Nat) : Response σ κ := { r with holder := some me }

def unlock (r : Response σ κ) : Response σ κ :=
  { r with holder := r.queue.head?, queue := r.queue.tail }

def leave (r : Response σ κ) (result : Sent) : Response σ κ × Phase := (r.unlock, .done result)

def pass (r : Response σ κ) (last : Bool) (content : Option Bytes) : Response σ κ × Phase :=
  (r, .writing last content .passing)

def confirmTag (r : Response σ κ) (headers : Header.Map) : Header.Map :=
  match r.requestTags, (headers.get? .etag).bind Header.Value.text? with
  | some tags, some tag =>
    if Text.occursIn (Tag.gzip tag) tags then
      match Header.Value.ofText? (Tag.gzip tag) with
      | some value => headers.insert .etag value
      | none => headers
    else headers
  | _, _ => headers

def allowsStatus (status : Nat) : Bool :=
  decide (200 ≤ status) && decide (status < 300) && status != 204 && status != 205

-- Whether the declared type of a body may be compressed; a type that is not readable may not.
def allowsType (p : Policy) (headers : Header.Map) : Bool :=
  match headers.get? .contentType with
  | none => true
  | some value =>
    match value.text? with
    | some text => p.allows text
    | none => false

def allows (p : Policy) (head : Head) : Bool :=
  allowsStatus head.status && allowsType p head.headers &&
    !head.headers.contains .contentEncoding

def knownLength (headers : Header.Map) (last : Bool) (content : Option Bytes) : Option Nat :=
  match PayloadSize.ofHeaders headers with
  | .length n => some n
  | .empty => some 0
  | .chunked => if last then some ((content.map List.length).getD 0) else none

def compressedHeaders (headers : Header.Map) : Header.Map :=
  let headers := headers.insert .contentEncoding ⟨Text.utf8 "gzip".toList, by decide⟩
  let headers := headers.erase .contentLength
  match (headers.get? .etag).bind Header.Value.text? with
  | some tag =>
    match Header.Value.ofText? (Tag.gzip tag) with
    | some value => headers.insert .etag value
    | none => headers
  | none => headers

def judge (r : Response σ κ) (head : Head) (last : Bool) (content : Option Bytes) : Verdict κ :=
  if head.status = 304 then .plain (Vary.ensure? (r.confirmTag head.headers) r.vary)
  else if !allows r.policy head then .plain head.headers
  else
    let headers := Vary.ensure? head.headers r.vary
    match r.policy.entry? r.resources.engines (knownLength headers last content) with
    | none => .plain headers
    | some (entry, engines) => .coded (compressedHeaders headers) entry engines

section Holding

variable [Deflate.Compressor κ]

def finish (r : Response σ κ) : Response σ κ :=
  let (session, resources) := r.session.release r.resources
  { r with session, resources, state := .finished }

def compress (r : Response σ κ) (w : Write) : Response σ κ × Phase :=
  let p := w.step r.session r.resources
  let r := { r with session := p.session, resources := p.resources }
  match p.action with
  | .ok (.flush last) => (r, .writing last (some r.session.output) (.flushing p.write))
  | .ok .idle => (r, .compressing p.write)
  | .ok .succeeded => r.leave (.ok ())
  | .error reason => r.finish.leave (.error (.io reason))

def afterWrite (r : Response σ κ) (last : Bool) (result : Sent) : Site → Response σ κ × Phase
  | .passing =>
    match result with
    | .error e => { r with state := .finished }.leave (.error e)
    | .ok () => if last then { r with state := .finished }.leave (.ok ()) else r.leave (.ok ())
  | .heading =>
    match result with
    | .error e => r.finish.leave (.error e)
    | .ok () => r.leave (.ok ())
  | .flushing w =>
    match result with
    | .error e => r.finish.leave (.error e)
    | .ok () =>
      if last then
        let (session, resources) := r.session.releaseBuffer r.resources
        { r with session, resources, state := .finished }.leave (.ok ())
      else (r, .compressing w)

end Holding

def head [Sink σ] (r : Response σ κ) : Head := Sink.head r.sink

def setHeaders [Sink σ] (r : Response σ κ) (headers : Header.Map) : Response σ κ :=
  { r with sink := Sink.setHead r.sink { r.head with headers } }

variable [Sink σ] [Deflate.Compressor κ]

def commit (r : Response σ κ) (last : Bool) (content : Option Bytes) : Response σ κ × Phase :=
  match r.judge r.head last content with
  | .plain headers => { r.setHeaders headers with state := .notCompressing }.pass last content
  | .coded headers entry engines =>
    let r := r.setHeaders headers
    let (session, resources) := r.session.start { r.resources with engines } entry
    let r := { r with session, resources, state := .compressing }
    if content.isNone ∧ ¬ last then (r, .writing false none .heading)
    else (r, .compressing (.new last content))

def run (r : Response σ κ) : Errand → Response σ κ × Phase
  | .commit last content => r.commit last content
  | .abandon => r.finish.leave (.ok ())

def acquire (r : Response σ κ) (me : Nat) (errand : Errand) : Response σ κ × Phase :=
  if r.holder.isNone then (r.lock me).run errand
  else ({ r with queue := r.queue ++ [me] }, .waiting errand)

def dispatch (r : Response σ κ) (me : Nat) (last : Bool) (content : Option Bytes) :
    Response σ κ × Phase :=
  match r.state with
  | .mightCompress => { r with state := .committing }.acquire me (.commit last content)
  | .committing => (r, .done (.error .writePending))
  | .notCompressing =>
    if r.holder.isNone then (r.lock me).pass last content
    else (r, .done (.error .writePending))
  | .compressing =>
    if r.holder.isNone then (r.lock me, .compressing (.new last content))
    else (r, .done (.error .writePending))
  | .finished =>
    (r, .done (if content.isSome then .error (.illegalState State.finished.name) else .ok ()))

def alreadyCompleted : SendError := .illegalState "response already completed".toList

def start (r : Response σ κ) (me : Nat) : Call → Response σ κ × Phase
  | .write last content => r.dispatch me last (content.filter (!·.isEmpty))
  | .succeeded =>
    if r.completed then (r, .done (.error alreadyCompleted))
    else { r with completed := true }.dispatch me true none
  | .failed =>
    if r.completed then (r, .done (.error alreadyCompleted))
    else { r with completed := true }.acquire me .abandon
  | .noCompression =>
    match r.state with
    | .mightCompress => ({ r with state := .notCompressing }, .done (.ok ()))
    | .notCompressing => (r, .done (.ok ()))
    | state => (r, .done (.error (.illegalState state.name)))

def resume (r : Response σ κ) (me : Nat) : Phase → Response σ κ × Phase
  | .waiting errand => if r.holder = some me then r.run errand else (r, .waiting errand)
  | .writing last content site =>
    let (sink, result) := Sink.write r.sink last content
    { r with sink }.afterWrite last result site
  | .compressing w => r.compress w
  | .done result => (r, .done result)

def isBlocked (r : Response σ κ) (me : Nat) : Phase → Bool
  | .waiting _ => r.holder != some me
  | _ => false

def settle (me : Nat) (r : Response σ κ) (phase : Phase) : Option (Response σ κ × Sent) :=
  match phase with
  | .done result => some (r, result)
  | phase =>
    if r.isBlocked me phase then none
    else (r.resume me phase).1 |>.settle me (r.resume me phase).2
partial_fixpoint

def call (r : Response σ κ) (c : Call) : Response σ κ × Sent :=
  let (next, phase) := r.start 0 c
  (settle 0 next phase).getD (r, .error .writePending)

-- Whether the head can no longer be changed. While another call is under way it is taken to be
-- committed.
def isCommitted (r : Response σ κ) : Bool :=
  match r.state with
  | .mightCompress => false
  | .notCompressing => r.holder.isSome || Sink.isCommitted r.sink
  | .committing => true
  | .compressing => true
  | .finished => true

instance : Sink (Response σ κ) where
  head := head
  setHead r head := { r with sink := Sink.setHead r.sink head }
  isCommitted := isCommitted
  write r last content := r.call (.write last content)

end Response

end Gateway.Gzip
