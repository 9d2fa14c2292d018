import Gateway.Error
import Gateway.Json.Record
import Gateway.Media

set_option autoImplicit false

namespace Gateway.Gzip

def defaultExcludedMedia : List Text :=
  ["application/compress", "application/zip", "application/gzip", "application/x-gzip",
    "application/bzip2", "application/brotli", "application/x-br", "application/x-xz",
    "application/x-rar-compressed", "application/zstd", "application/x-zstd", "image/png",
    "image/gif", "image/jpeg", "image/webp", "image/avif", "audio/*", "video/*",
    "text/event-stream"].map String.toList

structure Config where
  bufferSize : Nat := 32768
  syncFlush : Bool := false
  level : Nat := 6
  minSize : Nat := 32
  poolCapacity : Nat := 1024
  methods : List Text := ["GET".toList]
  excludedPaths : List Text := []
  excludedMedia : List Text := defaultExcludedMedia
  vary : Option Text := some "Accept-Encoding".toList
deriving DecidableEq

def minBufferSize : Nat := 64

inductive MediaPattern where
  | exact (essence : Text)
  | main (main : Text)
deriving DecidableEq

namespace MediaPattern

def read? (s : Text) : Option MediaPattern :=
  match Text.withoutEnd "/*".toList s with
  | some top => if top.isEmpty || top.contains '/' then none else some (main (Text.lower top))
  | none => (Media.read? s).map fun m => exact m.essence

def fits (p : MediaPattern) (m : Media) : Bool :=
  match p with
  | exact essence => m.essence = essence
  | main top => m.main = top

def isPattern (s : Text) : Bool :=
  match Text.withoutEnd "/*".toList s with
  | some top => !top.isEmpty && !top.contains '/'
  | none => (Media.read? s).isSome

def check : List Text → Except ConfigError Unit
  | [] => .ok ()
  | s :: rest => if isPattern s then check rest else .error (.invalidMimeType s)

def readAll : List Text → Except ConfigError (List MediaPattern)
  | [] => .ok []
  | s :: rest =>
    match read? s with
    | some p => (readAll rest).map (p :: ·)
    | none => .error (.invalidMimeType s)

end MediaPattern

namespace Config

def vary? (c : Config) : Option Text := (c.vary.map Text.trim).filter (!·.isEmpty)

def readMethods : List Text → Except ConfigError (List Text)
  | [] => .ok []
  | s :: rest =>
    let method := Text.upper (Text.trim s)
    if Token.isToken method then (readMethods rest).map (method :: ·)
    else .error (.invalidMethod s)

def validate (c : Config) : Except ConfigError Unit :=
  if c.bufferSize < minBufferSize then .error (.bufferTooSmall c.bufferSize minBufferSize)
  else if 9 < c.level then .error (.invalidCompressionLevel c.level)
  else do
    let _ ← readMethods c.methods
    MediaPattern.check c.excludedMedia

def fields : List Text :=
  ["buffer-size", "sync-flush", "compression-level", "min-gzip-size", "pool-capacity",
    "included-methods", "excluded-paths", "excluded-mime-types", "vary"].map String.toList

def ofGiven? (given : Json.Given) : Option Config := do
  let d : Config := {}
  return {
    bufferSize := ← Json.field? given "buffer-size" (Json.asNat? (UInt64.size - 1)) d.bufferSize
    syncFlush := ← Json.field? given "sync-flush" Json.asBool? d.syncFlush
    level := ← Json.field? given "compression-level" (Json.asNat? (UInt32.size - 1)) d.level
    minSize := ← Json.field? given "min-gzip-size" (Json.asNat? (UInt64.size - 1)) d.minSize
    poolCapacity := ← Json.field? given "pool-capacity" (Json.asNat? (UInt64.size - 1)) d.poolCapacity
    methods := ← Json.field? given "included-methods" Json.asTexts? d.methods
    excludedPaths := ← Json.field? given "excluded-paths" Json.asTexts? d.excludedPaths
    excludedMedia := ← Json.field? given "excluded-mime-types" Json.asTexts? d.excludedMedia
    vary := ← Json.field? given "vary" Json.asOptional? d.vary }

def read (s : Text) : Except ConfigError Config :=
  match ((Json.read? s).bind (Json.given? fields)).bind ofGiven? with
  | some c => c.validate.map fun () => c
  | none => .error .malformed

end Config

end Gateway.Gzip
