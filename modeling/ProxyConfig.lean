import ProxyConfig.Address
import ProxyConfig.Admin.MediaType
import ProxyConfig.Admin.Message
import ProxyConfig.Admin.Multipart
import ProxyConfig.Admin.Query
import ProxyConfig.Admin.Service
import ProxyConfig.Caddyfile.Argument
import ProxyConfig.Caddyfile.Compile
import ProxyConfig.Caddyfile.Directive
import ProxyConfig.Caddyfile.Global
import ProxyConfig.Caddyfile.SiteBlock
import ProxyConfig.Certificate
import ProxyConfig.CommandLine.Invocation
import ProxyConfig.CommandLine.Options
import ProxyConfig.CommandLine.Run
import ProxyConfig.Decimal.Binary64
import ProxyConfig.Decimal.Shortest
import ProxyConfig.Document.Basic
import ProxyConfig.Document.Choice
import ProxyConfig.Document.Codec
import ProxyConfig.Document.Fault
import ProxyConfig.Document.Format
import ProxyConfig.Document.Layout
import ProxyConfig.Draft
import ProxyConfig.Duration
import ProxyConfig.FileTree
import ProxyConfig.Host
import ProxyConfig.Json.Decode
import ProxyConfig.Json.Number
import ProxyConfig.Json.Reader
import ProxyConfig.Json.Value
import ProxyConfig.Lint.Checks
import ProxyConfig.Lint.Finding
import ProxyConfig.Lookup
import ProxyConfig.Main
import ProxyConfig.Metrics
import ProxyConfig.NumberText
import ProxyConfig.Numeral
import ProxyConfig.Path
import ProxyConfig.Proxy.Command
import ProxyConfig.Proxy.Program
import ProxyConfig.Site
import ProxyConfig.Store.Basic
import ProxyConfig.Store.Paths
import ProxyConfig.Text.Blank
import ProxyConfig.Text.Cut
import ProxyConfig.Text.Pattern
import ProxyConfig.Text.Pieces
import ProxyConfig.Text.Shown
import ProxyConfig.TextMap
import ProxyConfig.Yaml.Cursor
import ProxyConfig.Yaml.Decode
import ProxyConfig.Yaml.Node
import ProxyConfig.Yaml.Reader
import ProxyConfig.Yaml.Scalar
import ProxyConfig.Yaml.ScalarText
import ProxyConfig.Yaml.Tag
import ProxyConfig.Yaml.Token
import ProxyConfig.Proofs.Caddyfile.FreeTexts
import ProxyConfig.Proofs.Admin.CertificateRequests
import ProxyConfig.Proofs.Store.WholeWrites
import ProxyConfig.Proofs.Store.TouchedPaths
import ProxyConfig.Proofs.Caddyfile.BlockContents
import ProxyConfig.Proofs.Caddyfile.HandlerPlacement
import ProxyConfig.Proofs.Caddyfile.MatcherNames
import ProxyConfig.Proofs.Caddyfile.AccessRules
import ProxyConfig.Proofs.Document.Layouts
import ProxyConfig.Proofs.Document.ReadInvariant
import ProxyConfig.Proofs.Document.RoundTrip
import ProxyConfig.Proofs.Caddyfile.Pruning
import ProxyConfig.Proofs.Caddyfile.ServedHandlers
import ProxyConfig.Proofs.Store.CertificateMap
import ProxyConfig.Proofs.Admin.FailedSave
import ProxyConfig.Proofs.Caddyfile.SiteIndependence
import ProxyConfig.Proofs.Caddyfile.LastEntries
import ProxyConfig.Proofs.Admin.GuardedRequests
import ProxyConfig.Proofs.Admin.Runs
import ProxyConfig.Proofs.Caddyfile.SchemeAndTls
import ProxyConfig.Proofs.Caddyfile.EnforcedReferences
import ProxyConfig.Proofs.Caddyfile.UnreadNumbers
import ProxyConfig.Proofs.Caddyfile.SelectedEntries
import ProxyConfig.Proofs.Lint.FoundByCheck
import ProxyConfig.Proofs.Caddyfile.SupersededEntries
import ProxyConfig.Proofs.Caddyfile.TimeLines
import ProxyConfig.Proofs.Store.FailedCertificates
import ProxyConfig.Proofs.Lint.DanglingReferences
import ProxyConfig.Proofs.Lint.Rearranged
import ProxyConfig.Proofs.Caddyfile.RenderedReferences
import ProxyConfig.Proofs.Text.HostGrammar
import ProxyConfig.Proofs.Caddyfile.ResolvedSites
import ProxyConfig.Proofs.Caddyfile.Padding
import ProxyConfig.Proofs.Document.MemberOrder
import ProxyConfig.Proofs.Caddyfile.Tokens
import ProxyConfig.Proofs.Caddyfile.CredentialLines
import ProxyConfig.Proofs.Caddyfile.CleanTrees
import ProxyConfig.Proofs.Admin.CountedRequests
import ProxyConfig.Proofs.Text.NumberReadings
import ProxyConfig.Proofs.Text.HostSchemes
import ProxyConfig.Proofs.Caddyfile.KeyFiles
import ProxyConfig.Proofs.Store.RenderedPaths
import ProxyConfig.Proofs.Lint.RepeatedIds
import ProxyConfig.Proofs.Text.UnitSpans
import ProxyConfig.Proofs.Caddyfile.SettledTimes
import ProxyConfig.Proofs.Text.AddressRanges
import ProxyConfig.Proofs.Caddyfile.FurnishedLists
