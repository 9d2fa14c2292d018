import Gateway.Address.Ip
import Gateway.Address.Remote
import Gateway.Authority
import Gateway.Buffer
import Gateway.Checksum
import Gateway.Deflate.Block
import Gateway.Deflate.Code
import Gateway.Deflate.Custody
import Gateway.Deflate.Encoder
import Gateway.Deflate.Engine
import Gateway.Deflate.Inflate
import Gateway.Deflate.Matching
import Gateway.Deflate.Pool
import Gateway.Deflate.Token
import Gateway.Error
import Gateway.Fixture
import Gateway.Forwarding.Candidate
import Gateway.Forwarding.Config
import Gateway.Forwarding.Evidence
import Gateway.Forwarding.Priority
import Gateway.Forwarding.Resolver
import Gateway.Forwarding.Role
import Gateway.Forwarding.Setting
import Gateway.Gzip.Calls
import Gateway.Gzip.Config
import Gateway.Gzip.Fields
import Gateway.Gzip.Member
import Gateway.Gzip.Policy
import Gateway.Gzip.Response
import Gateway.Gzip.Session
import Gateway.Gzip.Setting
import Gateway.Gzip.Stage
import Gateway.Gzip.State
import Gateway.Gzip.Stream
import Gateway.Handler
import Gateway.Handler.Script
import Gateway.Header.Map
import Gateway.Header.Name
import Gateway.Header.Value
import Gateway.Json
import Gateway.Json.Record
import Gateway.Media
import Gateway.Payload
import Gateway.Pipeline
import Gateway.Proofs.Address
import Gateway.Proofs.Authority
import Gateway.Proofs.Authority.Grammar
import Gateway.Proofs.Authority.Rendering
import Gateway.Proofs.Buffer
import Gateway.Proofs.Deflate.Bits
import Gateway.Proofs.Deflate.Block
import Gateway.Proofs.Deflate.Code
import Gateway.Proofs.Deflate.Conservation
import Gateway.Proofs.Deflate.Encoder
import Gateway.Proofs.Deflate.Engine
import Gateway.Proofs.Deflate.Lawful
import Gateway.Proofs.Deflate.Matching
import Gateway.Proofs.Deflate.Prompt
import Gateway.Proofs.Deflate.Renewal
import Gateway.Proofs.Forwarding.Accumulation
import Gateway.Proofs.Forwarding.Candidate
import Gateway.Proofs.Forwarding.Coherence
import Gateway.Proofs.Forwarding.Combination
import Gateway.Proofs.Forwarding.Evidence
import Gateway.Proofs.Forwarding.Fault
import Gateway.Proofs.Forwarding.Idempotence
import Gateway.Proofs.Forwarding.Inference
import Gateway.Proofs.Forwarding.Joining
import Gateway.Proofs.Forwarding.Lead
import Gateway.Proofs.Forwarding.Noninterference
import Gateway.Proofs.Forwarding.Obfuscation
import Gateway.Proofs.Forwarding.Order
import Gateway.Proofs.Forwarding.Ports
import Gateway.Proofs.Forwarding.Resolver
import Gateway.Proofs.Forwarding.Role
import Gateway.Proofs.Forwarding.Security
import Gateway.Proofs.Forwarding.Selection
import Gateway.Proofs.Gzip.Acceptance
import Gateway.Proofs.Gzip.Attendance
import Gateway.Proofs.Gzip.Body
import Gateway.Proofs.Gzip.Commitment
import Gateway.Proofs.Gzip.Completion
import Gateway.Proofs.Gzip.Confirmation
import Gateway.Proofs.Gzip.Course
import Gateway.Proofs.Gzip.Decision
import Gateway.Proofs.Gzip.Delivery
import Gateway.Proofs.Gzip.Exclusion
import Gateway.Proofs.Gzip.Fault
import Gateway.Proofs.Gzip.Heads
import Gateway.Proofs.Gzip.Isolation
import Gateway.Proofs.Gzip.Judgement
import Gateway.Proofs.Gzip.Lending
import Gateway.Proofs.Gzip.Lifecycle
import Gateway.Proofs.Gzip.Linear
import Gateway.Proofs.Gzip.MediaTypes
import Gateway.Proofs.Gzip.Merging
import Gateway.Proofs.Gzip.Naming
import Gateway.Proofs.Gzip.Negotiation
import Gateway.Proofs.Gzip.Overlap
import Gateway.Proofs.Gzip.Passage
import Gateway.Proofs.Gzip.Passing
import Gateway.Proofs.Gzip.Prompt
import Gateway.Proofs.Gzip.Revalidation
import Gateway.Proofs.Gzip.Rewriting
import Gateway.Proofs.Gzip.Session
import Gateway.Proofs.Gzip.Stepping
import Gateway.Proofs.Gzip.Tag
import Gateway.Proofs.Gzip.Telling
import Gateway.Proofs.Gzip.Truncation
import Gateway.Proofs.Gzip.Turns
import Gateway.Proofs.Gzip.Twins
import Gateway.Proofs.Gzip.Vary
import Gateway.Proofs.Gzip.Working
import Gateway.Proofs.Header.Map
import Gateway.Proofs.Header.Value
import Gateway.Proofs.Media
import Gateway.Proofs.QuotedList
import Gateway.Proofs.QuotedList.Marks
import Gateway.Proofs.QuotedList.Writing
import Gateway.Proofs.Request
import Gateway.Proofs.Sink.Arrival
import Gateway.Proofs.Sink.Body
import Gateway.Proofs.Sink.Bounds
import Gateway.Proofs.Sink.Conduct
import Gateway.Proofs.Sink.Ending
import Gateway.Proofs.Sink.Fault
import Gateway.Proofs.Sink.Logged
import Gateway.Proofs.Sink.Pulling
import Gateway.Proofs.Sink.Pushing
import Gateway.Proofs.Sink.Transfer
import Gateway.Proofs.Text
import Gateway.Quality
import Gateway.QuotedList
import Gateway.Request
import Gateway.Scheme
import Gateway.Sink
import Gateway.Sink.Body
import Gateway.Sink.Channel
import Gateway.Sink.Exchange
import Gateway.Sink.Recorder
import Gateway.Text
import Gateway.Text.Hex
import Gateway.Uri
