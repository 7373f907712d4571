import ApiContract.Calendar.Date
import ApiContract.Calendar.Timestamp
import ApiContract.Contract.Basic
import ApiContract.Contract.Document
import ApiContract.Contract.Fault
import ApiContract.Contract.Loading
import ApiContract.Contract.Reference
import ApiContract.Contract.SchemaReading
import ApiContract.Entries
import ApiContract.Exchange.Validator
import ApiContract.Format.Basic
import ApiContract.Format.Standard
import ApiContract.Json.Basic
import ApiContract.Json.Printer
import ApiContract.Json.Reader
import ApiContract.Json.Record
import ApiContract.Media.Fault
import ApiContract.Media.MediaType
import ApiContract.Media.Multipart
import ApiContract.Media.Registry
import ApiContract.Message.Exchange
import ApiContract.Message.Headers
import ApiContract.Number.Binary64
import ApiContract.Number.Numeral
import ApiContract.Number.Shortest
import ApiContract.Parameter.Basic
import ApiContract.Parameter.Delimited
import ApiContract.Parameter.Extraction
import ApiContract.Parameter.Fault
import ApiContract.Parameter.Nested
import ApiContract.Parameter.Place
import ApiContract.Parameter.Shape
import ApiContract.Parameter.Sources
import ApiContract.Parameter.Styles
import ApiContract.Pattern.Basic
import ApiContract.Pattern.Reader
import ApiContract.Progress
import ApiContract.Proofs.Alternatives
import ApiContract.Proofs.Application
import ApiContract.Proofs.Asking
import ApiContract.Proofs.Compiled
import ApiContract.Proofs.Composition
import ApiContract.Proofs.Conformance
import ApiContract.Proofs.Decisive
import ApiContract.Proofs.Filling
import ApiContract.Proofs.Idempotence
import ApiContract.Proofs.Insertion
import ApiContract.Proofs.Judgement
import ApiContract.Proofs.KeyedJson
import ApiContract.Proofs.Nesting
import ApiContract.Proofs.Reading
import ApiContract.Proofs.Refinement
import ApiContract.Proofs.Reporting
import ApiContract.Proofs.Retyping
import ApiContract.Proofs.Settling
import ApiContract.Proofs.Skeleton
import ApiContract.Proofs.Splitting
import ApiContract.Proofs.Termination
import ApiContract.Route.Router
import ApiContract.Route.Template
import ApiContract.Schema.Application
import ApiContract.Schema.Basic
import ApiContract.Schema.Bounds
import ApiContract.Schema.Coercion
import ApiContract.Schema.Fault
import ApiContract.Schema.Merging
import ApiContract.Security
import ApiContract.Text.Ascii
import ApiContract.Text.Base64
import ApiContract.Text.Blank
import ApiContract.Text.Form
import ApiContract.Text.Percent
import ApiContract.Text.Quoted
import ApiContract.Text.Split
import ApiContract.Text.Utf8
import ApiContract.Unicode.Category
import ApiContract.Unicode.Folding
import ApiContract.Unicode.Names
import ApiContract.Unicode.Property
import ApiContract.Unicode.Ranges
import ApiContract.Unicode.Script
import ApiContract.Url.Address
import ApiContract.Url.Basic
import ApiContract.Url.Host
import ApiContract.Url.Punycode
import ApiContract.Uuid
import ApiContract.Value.Basic
import ApiContract.Value.Wire
import ApiContract.Violation.Basic
import ApiContract.Violation.Judgement
import ApiContract.Yaml.Content
import ApiContract.Yaml.Cursor
import ApiContract.Yaml.Lexer
import ApiContract.Yaml.Name
import ApiContract.Yaml.Node
import ApiContract.Yaml.Reader
import ApiContract.Yaml.Scalar
import ApiContract.Yaml.Token
import ApiContract.Proofs.Pointer
import ApiContract.Proofs.Pointing
import ApiContract.Proofs.Finding
import ApiContract.Proofs.Transcoding
import ApiContract.Proofs.PathStyles
import ApiContract.Proofs.DeepObject
import ApiContract.Proofs.Decimals
import ApiContract.Proofs.FormEncoding
import ApiContract.Proofs.Coercion
import ApiContract.Proofs.QueryLists
import ApiContract.Proofs.DeclaredNames
import ApiContract.Proofs.Agreement
import ApiContract.Proofs.DirectReading
import ApiContract.Proofs.Choices
import ApiContract.Proofs.CautiousReading
import ApiContract.Proofs.Casting
import ApiContract.Proofs.TextTransport
import ApiContract.Proofs.HeaderParameters
import ApiContract.Proofs.Grouping
import ApiContract.Proofs.MultipartEncoding
import ApiContract.Proofs.FormBodies
import ApiContract.Proofs.SchemeGroups
import ApiContract.Proofs.Requirements
import ApiContract.Proofs.Pairing
import ApiContract.Proofs.Lockstep
import ApiContract.Proofs.Respelling
import ApiContract.Proofs.SchemaMirroring
import ApiContract.Proofs.Stages
import ApiContract.Proofs.Joining
import ApiContract.Proofs.Components
import ApiContract.Proofs.OperationMirroring
import ApiContract.Proofs.Correspondence
import ApiContract.Proofs.PairedTexts
import ApiContract.Proofs.PairedRouting
import ApiContract.Proofs.PairedExchanges
import ApiContract.Proofs.PairedContracts
import ApiContract.Proofs.ComponentOrder
import ApiContract.Proofs.ClosedContracts
import ApiContract.Proofs.SeeingThrough
import ApiContract.Proofs.Sparing
import ApiContract.Proofs.Detours
import ApiContract.Proofs.TransparentDetours
import ApiContract.Proofs.Placeholders
import ApiContract.Proofs.Instances
import ApiContract.Proofs.Observation
import ApiContract.Proofs.HeaderSpelling
import ApiContract.Proofs.UndeclaredPairs
import ApiContract.Proofs.TypeListReading
import ApiContract.Proofs.TypeLists
import ApiContract.Proofs.NumberValues
import ApiContract.Proofs.Rounding
import ApiContract.Proofs.Multiples
import ApiContract.Proofs.KeywordReading
import ApiContract.Proofs.NumericBounds
import ApiContract.Proofs.IntegerComparison
import ApiContract.Proofs.ListedLiterals
import ApiContract.Proofs.NullSearch
import ApiContract.Proofs.Extension
import ApiContract.Proofs.MergeLaws
import ApiContract.Proofs.MergedLeaves
import ApiContract.Proofs.Inlining
import ApiContract.Proofs.Reordering
import ApiContract.Proofs.KeyOrder
import ApiContract.Proofs.ReferenceChains
import ApiContract.Proofs.SharedParameters
import ApiContract.Proofs.ChosenVariant
import ApiContract.Proofs.Leniency
import ApiContract.Proofs.Trimming
import ApiContract.Proofs.CanonicalForms
import ApiContract.Proofs.Spellings
import ApiContract.Proofs.ComponentNames
import ApiContract.Proofs.WireTexts
import ApiContract.Proofs.BasicCredentials
import ApiContract.Proofs.MemberSearch
import ApiContract.Proofs.CoercedTexts
import ApiContract.Proofs.CheckedScan
import ApiContract.Proofs.MediaLookup
import ApiContract.Proofs.CookieLines
