import Gateway.Gzip.Config

set_option autoImplicit false

namespace Gateway.Gzip

inductive Setting where
  | bufferSize (octets : Nat)
  | syncFlush (on : Bool)
  | level (n : Nat)
  | minSize (octets : Nat)
  | poolCapacity (n : Nat)
  | methods (names : List Text)
  | excludedPaths (paths : List Text)
  | excludedMedia (patterns : List Text)
  | vary (value : Option Text)
deriving DecidableEq

def Setting.ofField? (name : Text) (value : Json) : Option Setting :=
  match String.ofList name with
  | "buffer-size" => (value.asNat? (UInt64.size - 1)).map bufferSize
  | "sync-flush" => value.asBool?.map syncFlush
  | "compression-level" => (value.asNat? (UInt32.size - 1)).map level
  | "min-gzip-size" => (value.asNat? (UInt64.size - 1)).map minSize
  | "pool-capacity" => (value.asNat? (UInt64.size - 1)).map poolCapacity
  | "included-methods" => value.asTexts?.map methods
  | "excluded-paths" => value.asTexts?.map excludedPaths
  | "excluded-mime-types" => value.asTexts?.map excludedMedia
  | "vary" => value.asOptional?.map vary
  | _ => none

namespace Config

def apply (c : Config) : Setting → Config
  | .bufferSize octets => { c with bufferSize := octets }
  | .syncFlush on => { c with syncFlush := on }
  | .level n => { c with level := n }
  | .minSize octets => { c with minSize := octets }
  | .poolCapacity n => { c with poolCapacity := n }
  | .methods names => { c with methods := names }
  | .excludedPaths paths => { c with excludedPaths := paths }
  | .excludedMedia patterns => { c with excludedMedia := patterns }
  | .vary value => { c with vary := value }

def applyAll (c : Config) (settings : List Setting) : Config := settings.foldl apply c

def effective (c : Config) : List (Text × Json) :=
  [("buffer-size".toList, .natural c.bufferSize), ("sync-flush".toList, .bool c.syncFlush),
    ("compression-level".toList, .natural c.level), ("min-gzip-size".toList, .natural c.minSize),
    ("pool-capacity".toList, .natural c.poolCapacity),
    ("excluded-paths".toList, .ofTexts c.excludedPaths),
    ("excluded-mime-types".toList, .ofTexts c.excludedMedia),
    ("vary".toList, .ofOptional c.vary?)]

end Config

end Gateway.Gzip
