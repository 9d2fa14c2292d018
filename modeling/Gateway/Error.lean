import Gateway.Text

set_option autoImplicit false

namespace Gateway

inductive ParseError where
  | invalidHeader (reason : Text)
  | invalidHostPort (value : Text) (reason : Text)
  | invalidQuotedList (reason : Text)
  | badProxyHeader (name : Text) (reason : Text)
  | invalidBody (reason : Text)
  | io (reason : Text)
deriving DecidableEq

namespace ParseError

def message : ParseError → Text
  | invalidHeader reason => "invalid header: ".toList ++ reason
  | invalidHostPort value reason => "invalid host port `".toList ++ value ++ "`: ".toList ++ reason
  | invalidQuotedList reason => "invalid quoted csv: ".toList ++ reason
  | badProxyHeader name reason => "bad header value for ".toList ++ name ++ ": ".toList ++ reason
  | invalidBody reason => "invalid body: ".toList ++ reason
  | io reason => "io error: ".toList ++ reason

def kind : ParseError → Text
  | invalidHeader _ => "InvalidHeader".toList
  | invalidHostPort _ _ => "InvalidHostPort".toList
  | invalidQuotedList _ => "InvalidQuotedCsv".toList
  | badProxyHeader _ _ => "BadProxyHeader".toList
  | invalidBody _ => "InvalidBody".toList
  | io _ => "Io".toList

def ofKind? (kind : String) (texts : List Text) : Option ParseError :=
  match kind, texts with
  | "InvalidHeader", reason :: _ => some (invalidHeader reason)
  | "InvalidHostPort", value :: reason :: _ => some (invalidHostPort value reason)
  | "InvalidQuotedCsv", reason :: _ => some (invalidQuotedList reason)
  | "BadProxyHeader", name :: reason :: _ => some (badProxyHeader name reason)
  | "InvalidBody", reason :: _ => some (invalidBody reason)
  | "Io", reason :: _ => some (io reason)
  | _, _ => none

def status : ParseError → Nat
  | io _ => 500
  | _ => 400

end ParseError

inductive SendError where
  | invalidBody (reason : Text)
  | writePending
  | illegalState (state : Text)
  | aborted (reason : Text)
  | io (reason : Text)
deriving DecidableEq

namespace SendError

def message : SendError → Text
  | invalidBody reason => "invalid body: ".toList ++ reason
  | writePending => "a previous write is still pending".toList
  | illegalState state => "illegal state: ".toList ++ state
  | aborted reason => "response aborted: ".toList ++ reason
  | io reason => "io error: ".toList ++ reason

def kind : SendError → Text
  | invalidBody _ => "InvalidBody".toList
  | writePending => "WritePending".toList
  | illegalState _ => "IllegalState".toList
  | aborted _ => "Aborted".toList
  | io _ => "Io".toList

def ofKind? (kind : String) (texts : List Text) : Option SendError :=
  match kind, texts with
  | "InvalidBody", reason :: _ => some (invalidBody reason)
  | "WritePending", _ => some writePending
  | "IllegalState", state :: _ => some (illegalState state)
  | "Aborted", reason :: _ => some (aborted reason)
  | "Io", reason :: _ => some (io reason)
  | _, _ => none

def isWritePending : SendError → Bool
  | writePending => true
  | _ => false

end SendError

abbrev Sent := Except SendError Unit

inductive HttpError where
  | request (source : ParseError)
  | response (source : SendError)
deriving DecidableEq

namespace HttpError

def message : HttpError → Text
  | request source => "request error: ".toList ++ source.message
  | response source => "response error: ".toList ++ source.message

def kind : HttpError → Text
  | request _ => "RequestError".toList
  | response _ => "ResponseError".toList

def sourceKind : HttpError → Text
  | request source => source.kind
  | response source => source.kind

def status : HttpError → Nat
  | request source => source.status
  | response _ => 500

end HttpError

inductive ConfigError where
  | invalidHeaderName (name : Text)
  | invalidForcedHost (value : Text) (source : ParseError)
  | invalidScheme (value : Text)
  | bufferTooSmall (size : Nat) (minimum : Nat)
  | invalidCompressionLevel (level : Nat)
  | invalidMimeType (value : Text)
  | invalidVary (value : Text)
  | invalidMethod (value : Text)
  | malformed
deriving DecidableEq

namespace ConfigError

def kind : ConfigError → Text
  | invalidHeaderName _ => "InvalidHeaderName".toList
  | invalidForcedHost _ _ => "InvalidForcedHost".toList
  | invalidScheme _ => "InvalidScheme".toList
  | bufferTooSmall _ _ => "BufferTooSmall".toList
  | invalidCompressionLevel _ => "InvalidCompressionLevel".toList
  | invalidMimeType _ => "InvalidMimeType".toList
  | invalidVary _ => "InvalidVary".toList
  | invalidMethod _ => "InvalidMethod".toList
  | malformed => "Json".toList

def message? : ConfigError → Option Text
  | invalidHeaderName name =>
    some ("invalid header name `".toList ++ name ++ "`: invalid HTTP header name".toList)
  | invalidForcedHost value source =>
    some ("invalid forced host `".toList ++ value ++ "`: ".toList ++ source.message)
  | invalidScheme value => some ("invalid scheme `".toList ++ value ++ "`".toList)
  | bufferTooSmall size minimum =>
    some ("buffer size ".toList ++ Text.decimal size ++ " is below the minimum ".toList ++
      Text.decimal minimum)
  | invalidCompressionLevel level =>
    some ("invalid compression level ".toList ++ Text.decimal level ++ ", expected 0..=9".toList)
  | invalidMimeType value => some ("invalid mime type pattern `".toList ++ value ++ "`".toList)
  | invalidVary value => some ("invalid vary value `".toList ++ value ++ "`".toList)
  | invalidMethod value => some ("invalid method `".toList ++ value ++ "`".toList)
  | malformed => none

end ConfigError

end Gateway
