import Gateway.Gzip.Session

set_option autoImplicit false

namespace Gateway.Gzip

structure Stream (κ : Type) where
  session : Session κ
  resources : Resources κ
  write : Write
  forwarded : Bytes
  ended : Bool
deriving DecidableEq

namespace Stream

variable {κ : Type}

def new (session : Session κ) (resources : Resources κ) : Stream κ :=
  { session, resources, write := .new false none, forwarded := [], ended := false }

variable [Deflate.Compressor κ]

def begin? (s : Stream κ) : Option (Stream κ) :=
  match s.resources.engines.acquire? with
  | none => none
  | some (entry, engines) =>
    let (session, resources) := s.session.start { s.resources with engines } entry
    some { s with session, resources }

def step (s : Stream κ) : Stream κ × Except Text Action :=
  let p := s.write.step s.session s.resources
  let s := { s with session := p.session, resources := p.resources, write := p.write }
  match p.action with
  | .ok (.flush last) =>
    ({ s with forwarded := s.forwarded ++ s.session.output, ended := s.ended || last }, p.action)
  | action => (s, action)

def runSteps (s : Stream κ) (done : List Action) : Option (Stream κ × List Action) :=
  match s.step with
  | (s, .error _) => some (s, done)
  | (s, .ok .succeeded) => some (s, .succeeded :: done)
  | (s, .ok (.flush true)) => some (s, .flush true :: done)
  | (s, .ok action) => s |>.runSteps (action :: done)
partial_fixpoint

def run (s : Stream κ) : Option (Stream κ × List Action) :=
  (runSteps s []).map fun (s, done) => (s, done.reverse)

end Stream

end Gateway.Gzip
