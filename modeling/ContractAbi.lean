import ContractAbi.Word
import ContractAbi.Count
import ContractAbi.Text.Alphabetic
import ContractAbi.Text.Uppercase
import ContractAbi.Text.Blank
import ContractAbi.Text.Quoted
import ContractAbi.Session
import ContractAbi.Declaration
import ContractAbi.Json.Reader
import ContractAbi.AbiType.Parser
import ContractAbi.Value
import ContractAbi.Json.Text
import ContractAbi.Json.Number
import ContractAbi.Json.Skip
import ContractAbi.Json.Descriptor
import ContractAbi.Proofs.AbiType.HeadWidth
import ContractAbi.Proofs.Results
import ContractAbi.Proofs.Segments
import ContractAbi.Proofs.AbiType.Parsed
import ContractAbi.Proofs.Encoding.Blocks
import ContractAbi.Proofs.Encoding.Packing
import ContractAbi.Proofs.Encoding.Standard
import ContractAbi.Proofs.Decoding.Positions
import ContractAbi.Proofs.Decoding.Room
import ContractAbi.Proofs.RoundTrip.Normal
import ContractAbi.Proofs.RoundTrip.Leaves
import ContractAbi.Proofs.RoundTrip.Placement
import ContractAbi.Proofs.RoundTrip.Arguments
import ContractAbi.Proofs.Decoding.Guarded
import ContractAbi.Proofs.Decoding.Unbounded
import ContractAbi.Proofs.Decoding.Continued
import ContractAbi.Proofs.Encoding.Ends
import ContractAbi.Proofs.Encoding.Runs
import ContractAbi.Proofs.RoundTrip.Cut
import ContractAbi.Proofs.RoundTrip.Truncated
import ContractAbi.Proofs.Decoding.Inhabitants
import ContractAbi.Proofs.RoundTrip.Reencoded
import ContractAbi.Proofs.RoundTrip.WithoutRoom
import ContractAbi.Proofs.Ranges
import ContractAbi.Proofs.RoundTrip.Typing
import ContractAbi.Proofs.Encoding.Offences
import ContractAbi.Proofs.AbiType.Signature
import ContractAbi.Proofs.Signatures
import ContractAbi.Proofs.AbiType.Spelling
import ContractAbi.Proofs.AbiType.Grammar
import ContractAbi.Proofs.AbiType.Unlimited
import ContractAbi.Proofs.AbiType.BindingNames
import ContractAbi.Proofs.AbiType.WellFormed
import ContractAbi.Proofs.AbiType.Described
import ContractAbi.Proofs.TupleOfArguments
import ContractAbi.Proofs.Decoding.WithoutNames
import ContractAbi.Proofs.Decoding.Refusals
import ContractAbi.Proofs.NamedValues
import ContractAbi.Proofs.RoundTrip.RevertData
import ContractAbi.Proofs.Json.Items
import ContractAbi.Proofs.Json.Skipped
import ContractAbi.Proofs.Json.Members
import ContractAbi.Proofs.Json.Descriptors
import ContractAbi.Proofs.Json.Places
import ContractAbi.Proofs.Encoding.Rearranged
import ContractAbi.Proofs.Integers
import ContractAbi.Proofs.InputNames
import ContractAbi.Proofs.RoundTrip.InPlace
import ContractAbi.Proofs.FreshNames
import ContractAbi.Proofs.RoundTrip.HeadPositions
import ContractAbi.Proofs.Decoding.Parts
import ContractAbi.Proofs.Decoding.Sizes
import ContractAbi.Proofs.Decoding.Requests
