import TokenSpan.Cache.Basic
import TokenSpan.Cache.Recent
import TokenSpan.Context
import TokenSpan.Decimal.Digit
import TokenSpan.Decimal.Double
import TokenSpan.Decimal.Shortest
import TokenSpan.Event
import TokenSpan.Fault
import TokenSpan.Finding
import TokenSpan.Json.Basic
import TokenSpan.Json.Printer
import TokenSpan.Json.Reader
import TokenSpan.KeyMap
import TokenSpan.Pass.Basic
import TokenSpan.Pass.Run
import TokenSpan.Pass.Settings
import TokenSpan.Preset
import TokenSpan.Regex.Basic
import TokenSpan.Regex.Bracket
import TokenSpan.Regex.CharSet
import TokenSpan.Regex.Escape
import TokenSpan.Regex.Flags
import TokenSpan.Regex.Groups
import TokenSpan.Regex.Matcher
import TokenSpan.Regex.Node
import TokenSpan.Regex.Pattern
import TokenSpan.Regex.Search
import TokenSpan.Regex.Standard
import TokenSpan.Run
import TokenSpan.Script.Dialogue
import TokenSpan.Script.Expression
import TokenSpan.Script.Plan
import TokenSpan.Session
import TokenSpan.Text
import TokenSpan.Token.Basic
import TokenSpan.Token.CacheKey
import TokenSpan.Token.Merging
import TokenSpan.Token.Placing
import TokenSpan.Token.Reply
import TokenSpan.Token.Wire
import TokenSpan.Unicode.Alphabetic
import TokenSpan.Unicode.Blank
import TokenSpan.Unicode.Fold
import TokenSpan.Unicode.Mark
import TokenSpan.Unicode.Numeric
import TokenSpan.Unicode.Ranges
import TokenSpan.Unicode.Word
import TokenSpan.Proofs.Placing
import TokenSpan.Proofs.Tiling
import TokenSpan.Proofs.Exact
import TokenSpan.Proofs.Merging
import TokenSpan.Proofs.Order
import TokenSpan.Proofs.CacheKeys
import TokenSpan.Proofs.StoredResults
import TokenSpan.Proofs.Replay
import TokenSpan.Proofs.PropertyIndependence
import TokenSpan.Proofs.Flows
import TokenSpan.Proofs.Moving
import TokenSpan.Proofs.Presets
import TokenSpan.Proofs.WordsInSections
import TokenSpan.Proofs.JsonText
import TokenSpan.Proofs.Wire
import TokenSpan.Proofs.KeyMaps
import TokenSpan.Proofs.TokenByToken
import TokenSpan.Proofs.LeadingChains
import TokenSpan.Proofs.RecentUse
import TokenSpan.Proofs.MergedText
import TokenSpan.Proofs.MergedSlices
import TokenSpan.Proofs.Segments
import TokenSpan.Proofs.MatchData
import TokenSpan.Proofs.MergedExtent
import TokenSpan.Proofs.ReplyPlaces
import TokenSpan.Proofs.WireObjects
import TokenSpan.Proofs.CarriedProperties
import TokenSpan.Proofs.KeptTokens
import TokenSpan.Proofs.Selection
import TokenSpan.Proofs.Annotation
import TokenSpan.Proofs.IdleChains
import TokenSpan.Proofs.Reports
import TokenSpan.Proofs.PlacingInSteps
import TokenSpan.Proofs.Extraction
import TokenSpan.Proofs.ExtractedDrafts
