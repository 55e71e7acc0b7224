import Scim.Text.Blank
import Scim.Text.Letters
import Scim.Text.Lowercase
import Scim.Text.Quoted
import Scim.Json.Printer
import Scim.Json.Reader
import Scim.Json.Decoding
import Scim.Time.Written
import Scim.Time.Spelling
import Scim.Digest.Sha256
import Scim.Digest.Base64
import Scim.EntityTag
import Scim.Filter.Grammar
import Scim.Query
import Scim.Patch.Apply
import Scim.Service.Directory
import Scim.Rehearsal
import Scim.Proofs.Fallible
import Scim.Proofs.Resource
import Scim.Proofs.Run
import Scim.Proofs.Store
import Scim.Proofs.Outcome
import Scim.Proofs.Effect
import Scim.Proofs.Directory
import Scim.Proofs.Change
import Scim.Proofs.History
import Scim.Proofs.AllOrNothing
import Scim.Proofs.KeptStores
import Scim.Proofs.Lifecycle
import Scim.Proofs.Casing
import Scim.Proofs.FinalSigma
import Scim.Proofs.KeyQuery
import Scim.Proofs.CharRun
import Scim.Proofs.Lexing
import Scim.Proofs.Derivation
import Scim.Proofs.WrittenFilter
import Scim.Proofs.Asked
import Scim.Proofs.LatestWrite
import Scim.Proofs.Reads
import Scim.Proofs.WrittenInstant
import Scim.Proofs.JsonRecord
import Scim.Proofs.ResourceForm
import Scim.Proofs.JsonEntry
import Scim.Proofs.Returnable
import Scim.Proofs.WriteBack
import Scim.Proofs.FilterMeaning
import Scim.Proofs.StoredMetadata
import Scim.Proofs.PatchFault
import Scim.Proofs.WriteOutcomes
import Scim.Proofs.Content
import Scim.Proofs.KeyedList
import Scim.Proofs.Membership
import Scim.Proofs.PatchedReplacement
import Scim.Proofs.Separation
import Scim.Proofs.RequestForm
import Scim.Proofs.JsonText
import Scim.Proofs.TagDigest
import Scim.Proofs.VersionedContent
import Scim.Proofs.CallSequence
import Scim.Proofs.Exchange
import Scim.Proofs.Interleaving
import Scim.Proofs.DayNumber
import Scim.Proofs.SpelledInstant
import Scim.Proofs.TimestampFilter
import Scim.Proofs.PatchPath
import Scim.Proofs.PatchFrame
import Scim.Proofs.ListPatch
import Scim.Proofs.PatchVerdict
import Scim.Proofs.PatchRepetition
import Scim.Proofs.PatchOrder
import Scim.Proofs.MemberSelector
import Scim.Proofs.NamePatch
import Scim.Proofs.PatchForm
import Scim.Proofs.DisplayedFilter
import Scim.Proofs.SentMetadata
import Scim.Proofs.SharedAttributes
import Scim.Proofs.ModificationTime
import Scim.Proofs.Location
