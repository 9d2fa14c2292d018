import Gateway.Gzip.Response
import Gateway.Handler
import Gateway.Header.Map
import Gateway.Quality
import Gateway.QuotedList

set_option autoImplicit false

namespace Gateway.Gzip

def isWanted (e : QuotedList.Element) : Bool :=
  match e.param? ['q'] with
  | none => true
  | some q => Quality.isPositive? (Text.trim q) = some true

def namesGzip (e : QuotedList.Element) : Bool :=
  let coding := e.value.getD []
  Text.same coding "gzip".toList || coding = ['*']

def acceptsElement (e : QuotedList.Element) : Bool := namesGzip e && isWanted e

-- Lines that cannot be read are passed over; a list with a fault accepts nothing.
def accepts (m : Header.Map) : Bool :=
  match QuotedList.readAll ((m.getAll .acceptEncoding).filterMap Header.Value.text?) with
  | .ok elements => elements.any acceptsElement
  | .error _ => false

structure Stage where
  policy : Policy
  methods : List Text
  excludedPaths : List Text
  vary : Option Header.Value
  bufferSize : Nat
  syncFlush : Bool

namespace Stage

def readVary (c : Config) : Except ConfigError (Option Header.Value) :=
  match c.vary? with
  | none => .ok none
  | some text =>
    match Header.Value.ofText? text with
    | some value => .ok (some value)
    | none => .error (.invalidVary text)

variable {σ κ : Type}

def ofConfig (c : Config) : Except ConfigError (Stage × Resources κ) := do
  let (policy, engines) ← Policy.ofConfig c
  let vary ← readVary c
  let methods ← Config.readMethods c.methods
  .ok (⟨policy, methods, c.excludedPaths, vary, c.bufferSize, c.syncFlush⟩, ⟨engines, .standard⟩)

def isEligible (s : Stage) (r : Request) : Bool :=
  s.methods.contains r.message.method &&
    !s.excludedPaths.any fun path => path.isPrefixOf r.message.uri.path

def markedTags (r : Request) : Option Text :=
  ((r.headers.get? .ifNoneMatch).bind Header.Value.text?).filter Tag.isMarked

def unmark (r : Request) (tags : Option Text) : Request :=
  match tags.bind fun tags => Header.Value.ofText? (Tag.strip tags) with
  | some value => r.withHeaders (r.headers.insert .ifNoneMatch value)
  | none => r

def response (s : Stage) (sink : σ) (resources : Resources κ) (tags : Option Text) :
    Response σ κ :=
  { Response.new sink s.policy resources with
    session := .new s.bufferSize s.syncFlush
    vary := s.vary
    requestTags := tags }

variable [Sink σ]

def ensureVary (s : Stage) (sink : σ) : σ :=
  match s.vary with
  | none => sink
  | some vary =>
    let head := Sink.head sink
    Sink.setHead sink { head with headers := Vary.ensure head.headers vary }

variable [Deflate.Compressor κ]

def complete (r : Response σ κ) (result : Except HttpError Unit) :
    Response σ κ × Except HttpError Unit :=
  match result with
  | .ok () =>
    let (r, sent) := r.call .succeeded
    (r, sent.mapError HttpError.response)
  | .error e =>
    match r.call .failed with
    | (r, .ok ()) => (r, .error e)
    | (r, .error e) => (r, .error (.response e))

-- What a response leaves behind: an entry that it still holds goes back, a buffer is lost.
def resourcesAfter (r : Response σ κ) : Resources κ := (r.session.releaseEntry r.resources).2

end Stage

def Stage.wrap (s : Stage) {α κ : Type} [Deflate.Compressor κ] (inner : Handler α) :
    Handler (Resources κ × α) where
  handle := fun (resources, a) request sink =>
    if !s.isEligible request then
      let o := inner.handle a request sink
      ⟨(resources, o.state), o.request, o.sink, o.result⟩
    else if request.headers.contains .contentEncoding || !accepts request.headers then
      let o := inner.handle a request (s.ensureVary sink)
      ⟨(resources, o.state), o.request, o.sink, o.result⟩
    else
      let tags := markedTags request
      let o := inner.handle a (unmark request tags) (s.response sink resources tags)
      let (r, result) := complete o.sink o.result
      ⟨(resourcesAfter r, o.state), o.request, r.sink, result⟩

def Stage.decorator (s : Stage) {α κ : Type} [Deflate.Compressor κ] :
    Decorator (Handler α) (Handler (Resources κ × α)) :=
  ⟨s.wrap⟩

end Gateway.Gzip
