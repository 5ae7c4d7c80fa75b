import ReleaseSearch.Catalog.Samples
import ReleaseSearch.Config.Load
import ReleaseSearch.Selection.Json
import ReleaseSearch.Web.Service
import ReleaseSearch.Proofs.Language
import ReleaseSearch.Proofs.Book
import ReleaseSearch.Proofs.Isbn
import ReleaseSearch.Proofs.Plan
import ReleaseSearch.Proofs.Planner.Variants
import ReleaseSearch.Proofs.Selection
import ReleaseSearch.Proofs.Planner.Plans
import ReleaseSearch.Proofs.Planner.Restricted
import ReleaseSearch.Proofs.Planner.Untranslated
import ReleaseSearch.Proofs.Planner.CodeLists
import ReleaseSearch.Proofs.Data
import ReleaseSearch.Proofs.Json.Record
import ReleaseSearch.Proofs.Book.Json
import ReleaseSearch.Proofs.Book.NormalCodes
import ReleaseSearch.Proofs.Config
import ReleaseSearch.Proofs.Planner.Dependence
import ReleaseSearch.Proofs.Planner.Tags
import ReleaseSearch.Proofs.Planner.Written
import ReleaseSearch.Proofs.Planner.BlankTerms
import ReleaseSearch.Proofs.Catalog
import ReleaseSearch.Proofs.Catalog.Json
import ReleaseSearch.Proofs.Provider
import ReleaseSearch.Proofs.Web.Requests
import ReleaseSearch.Proofs.Web.Plans
import ReleaseSearch.Proofs.Web.Simplify
import ReleaseSearch.Proofs.Plan.Json
import ReleaseSearch.Proofs.Book.RoundTrip
import ReleaseSearch.Proofs.Text.Padding
import ReleaseSearch.Proofs.Planner.Padding
import ReleaseSearch.Proofs.Toml.Overlay
import ReleaseSearch.Proofs.Toml.Setting
import ReleaseSearch.Proofs.Config.Sections
import ReleaseSearch.Proofs.Config.Environment
import ReleaseSearch.Proofs.Config.Layers
import ReleaseSearch.Proofs.Text.Words
import ReleaseSearch.Proofs.Rules
import ReleaseSearch.Proofs.Text.Ascii
import ReleaseSearch.Proofs.Author.GivenNames
import ReleaseSearch.Proofs.Author.Grammar
import ReleaseSearch.Proofs.Author.Parts
import ReleaseSearch.Proofs.Author.Orders
import ReleaseSearch.Proofs.Author.Suffix
import ReleaseSearch.Proofs.Author.WithoutComma
import ReleaseSearch.Proofs.Title.SeriesMarker
import ReleaseSearch.Proofs.Rules.SameTable
import ReleaseSearch.Proofs.Title.Subtitle
import ReleaseSearch.Proofs.Title.Descriptive
import ReleaseSearch.Proofs.Title.Annotation
import ReleaseSearch.Proofs.Title.Precedence
import ReleaseSearch.Proofs.Title.Pieces
import ReleaseSearch.Proofs.Planner.AddedEdition
import ReleaseSearch.Proofs.Isbn.Identifier
import ReleaseSearch.Proofs.Planner.Fallback
import ReleaseSearch.Proofs.Planner.Unread
import ReleaseSearch.Proofs.Plan.Groups
import ReleaseSearch.Proofs.Isbn.Spelling
import ReleaseSearch.Proofs.Editions.Enumeration
import ReleaseSearch.Proofs.Book.SearchTerms
