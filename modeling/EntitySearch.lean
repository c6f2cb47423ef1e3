import EntitySearch.Description
import EntitySearch.Metadata.Backfill
import EntitySearch.Metadata.Fixtures
import EntitySearch.Metadata.Picker
import EntitySearch.Metadata.WebService
import EntitySearch.RequestToken
import EntitySearch.Scheme.Reading
import EntitySearch.Search
import EntitySearch.Validation
import EntitySearch.Proofs.Repetition
import EntitySearch.Proofs.JoinPaths
import EntitySearch.Proofs.Paging.Navigation
import EntitySearch.Proofs.Paging.Ranges
import EntitySearch.Proofs.Paging.Tiling
import EntitySearch.Proofs.Text.Splitting
import EntitySearch.Proofs.Text.Patterns
import EntitySearch.Proofs.Number.Numeral
import EntitySearch.Proofs.Number.Words
import EntitySearch.Proofs.OData.Tokens
import EntitySearch.Proofs.OData.Clauses
import EntitySearch.Proofs.Json.Records
import EntitySearch.Proofs.Scheme.ReadBack
import EntitySearch.Proofs.Sifting
import EntitySearch.Proofs.OData.Conjunction
import EntitySearch.Proofs.Markup.Reader
import EntitySearch.Proofs.Markup.Elements
import EntitySearch.Proofs.FetchXml.Scope
import EntitySearch.Proofs.FetchXml.Transcript
import EntitySearch.Proofs.FetchXml.Paths
import EntitySearch.Proofs.FetchXml.Placement
import EntitySearch.Proofs.FetchXml.JoinTree
import EntitySearch.Proofs.FetchXml.Conditions
import EntitySearch.Proofs.FetchXml.Restriction
import EntitySearch.Proofs.TextTests
import EntitySearch.Proofs.Planning
import EntitySearch.Proofs.Skipping
import EntitySearch.Proofs.FetchXml.Targets
import EntitySearch.Proofs.Columns
import EntitySearch.Proofs.FetchXml.Projections
import EntitySearch.Proofs.Projecting
import EntitySearch.Proofs.Requests
import EntitySearch.Proofs.Metadata.Filling
import EntitySearch.Proofs.Metadata.Joins
import EntitySearch.Proofs.Metadata.Inquiries
import EntitySearch.Proofs.Metadata.FixedAnswers
import EntitySearch.Proofs.Metadata.Batching
import EntitySearch.Proofs.Validation.Places
import EntitySearch.Proofs.Validation.Gaps
import EntitySearch.Proofs.Number.Rounding
import EntitySearch.Proofs.Number.Shortest
import EntitySearch.Proofs.Number.Reading
import EntitySearch.Proofs.Number.Integers
import EntitySearch.Proofs.IntegerLiterals
import EntitySearch.Proofs.Values
import EntitySearch.Proofs.Describing
import EntitySearch.Proofs.Text.Digits
import EntitySearch.Proofs.Time.Calendar
import EntitySearch.Proofs.Time.DateTexts
import EntitySearch.Proofs.Time.Timestamps
import EntitySearch.Proofs.Time.LocalTimes
import EntitySearch.Proofs.CommonLiterals
import EntitySearch.Proofs.Metadata.Failures
import EntitySearch.Proofs.Metadata.Asking
import EntitySearch.Proofs.Metadata.Keeping
import EntitySearch.Proofs.Metadata.Refilling
import EntitySearch.Proofs.Templates
import EntitySearch.Proofs.Metadata.RecordLabels
import EntitySearch.Proofs.Metadata.Sessions
import EntitySearch.Proofs.Metadata.Picking
import EntitySearch.Proofs.Number.Equality
import EntitySearch.Proofs.Offers
import EntitySearch.Proofs.Grouping
import EntitySearch.Proofs.JoinSides
import EntitySearch.Proofs.Text.Replacing
import EntitySearch.Proofs.Metadata.Addresses
import EntitySearch.Proofs.Summaries
import EntitySearch.Proofs.Validation.Names
import EntitySearch.Proofs.Json.Edits
import EntitySearch.Proofs.ChangedRows
import EntitySearch.Proofs.Scheme.OperatorEdits
import EntitySearch.Proofs.Number.NumeralText
import EntitySearch.Proofs.Number.Truncation
import EntitySearch.Proofs.Substitution
import EntitySearch.Proofs.Markup.Normalizing
import EntitySearch.Proofs.FetchXml.ReadValues
import EntitySearch.Proofs.Validation.PageSizes
