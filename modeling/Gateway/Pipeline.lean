import Gateway.Deflate.Encoder
import Gateway.Forwarding.Resolver
import Gateway.Gzip.Stage

set_option autoImplicit false

namespace Gateway

inductive Arrangement where
  | bare
  | gzip
  | forwarding
  | gzipInside
  | gzipOutside
deriving DecidableEq

structure Pipeline (α : Type) where
  State : Type
  start : State
  inner : State → α
  handler : Handler State

namespace Pipeline

variable {α : Type}

def bare (handler : Handler α) (start : α) : Pipeline α := ⟨α, start, id, handler⟩

def withForwarding (forwarding : Except ConfigError Forwarding.Config) (handler : Handler α)
    (start : α) : Except ConfigError (Pipeline α) :=
  match forwarding.bind Forwarding.Resolver.ofConfig with
  | .error e => .error e
  | .ok resolver => .ok ⟨α, start, id, resolver.decorator.decorate handler⟩

abbrev Shared := Gzip.Resources Deflate.Encoder

def withGzip (gzip : Except ConfigError Gzip.Config) (start : α)
    (build : Gzip.Stage → Except ConfigError (Handler (Shared × α))) :
    Except ConfigError (Pipeline α) :=
  match gzip.bind Gzip.Stage.ofConfig with
  | .error e => .error e
  | .ok (stage, resources) =>
    match build stage with
    | .error e => .error e
    | .ok handler => .ok ⟨Shared × α, (resources, start), Prod.snd, handler⟩

def withBoth (gzip : Except ConfigError Gzip.Config)
    (forwarding : Except ConfigError Forwarding.Config) (handler : Handler α) (start : α)
    (inside : Bool) : Except ConfigError (Pipeline α) :=
  withGzip gzip start fun stage =>
    match forwarding.bind Forwarding.Resolver.ofConfig with
    | .error e => .error e
    | .ok resolver =>
      if inside then .ok ((stage.decorator.andThen resolver.decorator).decorate handler)
      else .ok ((stage.decorator.compose resolver.decorator).decorate handler)

def build (arrangement : Arrangement) (gzip : Except ConfigError Gzip.Config)
    (forwarding : Except ConfigError Forwarding.Config) (handler : Handler α) (start : α) :
    Except ConfigError (Pipeline α) :=
  match arrangement with
  | .bare => .ok (bare handler start)
  | .forwarding => withForwarding forwarding handler start
  | .gzip => withGzip gzip start fun stage => .ok (stage.decorator.decorate handler)
  | .gzipInside => withBoth gzip forwarding handler start true
  | .gzipOutside => withBoth gzip forwarding handler start false

end Pipeline

end Gateway
