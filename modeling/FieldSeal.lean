import FieldSeal.Base64
import FieldSeal.Binary64
import FieldSeal.Bytes
import FieldSeal.Client.Basic
import FieldSeal.Client.Close
import FieldSeal.Client.Drive
import FieldSeal.Client.Operation
import FieldSeal.Client.Session
import FieldSeal.Config.Basic
import FieldSeal.Config.Reader
import FieldSeal.Context.Phase
import FieldSeal.Context.Request
import FieldSeal.Credentials
import FieldSeal.DataKey.Material
import FieldSeal.DataKey.Options
import FieldSeal.Document.Binary
import FieldSeal.Document.Envelope
import FieldSeal.Encryption.Algorithm
import FieldSeal.Encryption.Options
import FieldSeal.Failure.Client
import FieldSeal.Failure.Engine
import FieldSeal.Failure.Fault
import FieldSeal.Failure.Kms
import FieldSeal.Fields
import FieldSeal.Interaction.Action
import FieldSeal.Interaction.Call
import FieldSeal.Interaction.World
import FieldSeal.Json.Basic
import FieldSeal.Json.Reader
import FieldSeal.Json.Record
import FieldSeal.Json.Written
import FieldSeal.Kms.Address
import FieldSeal.Kms.Stream
import FieldSeal.Numeral
import FieldSeal.Text.Cut
import FieldSeal.Text.Hidden
import FieldSeal.Text.Quoted
import FieldSeal.Uuid
import FieldSeal.Proofs.Text.Alphabets
import FieldSeal.Proofs.Text.Base64
import FieldSeal.Proofs.Text.Numerals
import FieldSeal.Proofs.Document.Canonical
import FieldSeal.Proofs.Document.Grammar
import FieldSeal.Proofs.Document.Reencoding
import FieldSeal.Proofs.Fields.Lookup
import FieldSeal.Proofs.Config.Stored
import FieldSeal.Proofs.Config.Restoring
import FieldSeal.Proofs.Credentials.Fetching
import FieldSeal.Proofs.Interaction.Trace
import FieldSeal.Proofs.Interaction.Yields
import FieldSeal.Proofs.Interaction.Timeline
import FieldSeal.Proofs.Failure.Wrapping
import FieldSeal.Proofs.Kms.Addressing
import FieldSeal.Proofs.Kms.Receiving
import FieldSeal.Proofs.Kms.ReceiveSafety
import FieldSeal.Proofs.Kms.Sending
import FieldSeal.Proofs.Kms.RoundTrip
import FieldSeal.Proofs.Kms.Discipline
import FieldSeal.Proofs.Kms.Segmentation
import FieldSeal.Proofs.Kms.Limits
import FieldSeal.Proofs.Kms.ExchangeTime
import FieldSeal.Proofs.Kms.RoundTripTime
import FieldSeal.Proofs.Client.Validity
import FieldSeal.Proofs.Client.Admission
import FieldSeal.Proofs.Client.Bypassing
import FieldSeal.Proofs.Client.Closing
import FieldSeal.Proofs.Client.Course
import FieldSeal.Proofs.Client.Decryption
import FieldSeal.Proofs.Client.Lifetime
import FieldSeal.Proofs.Client.ExplicitValues
import FieldSeal.Proofs.Client.Failing
import FieldSeal.Proofs.Client.Closed
import FieldSeal.Proofs.Client.Interrupted
import FieldSeal.Proofs.Interaction.Settling
import FieldSeal.Proofs.Kms.Concluding
import FieldSeal.Proofs.Client.Walking
import FieldSeal.Proofs.Client.Concluding
import FieldSeal.Proofs.Client.Walked
import FieldSeal.Proofs.Config.Validation
import FieldSeal.Proofs.Credentials.Described
import FieldSeal.Proofs.Json.Fuel
import FieldSeal.Proofs.Json.Records
import FieldSeal.Proofs.Document.Repetition
